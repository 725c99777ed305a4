/-!
# Reading comma-separated records

A record ends at a carriage return or a line feed and its fields are parted by commas. A quote that
begins a field opens a quoted part, in which commas and line ends are ordinary and two quotes stand
for one; after the closing quote the field goes on as it stands. Elsewhere a quote is ordinary.
Records of no characters are passed over, and the end of the text ends the last record.

Each record knows the line on which the reader stood when the record before it was complete: one
more than the number of line feeds read so far.
-/

namespace PackageTriage.Csv

structure Record where
  line : Nat
  fields : List (List Char)
  deriving DecidableEq, Repr

inductive Place where
  /-- No character of the record was read. -/
  | recordStart
  /-- At the start of a field behind a comma. -/
  | fieldStart
  | field
  /-- Between an opening and a closing quote. -/
  | quoted
  /-- Behind a quote inside a quoted part: the closing one, or the first of two. -/
  | quote
  deriving DecidableEq, Repr

/-- What was read of a text: the characters of the unfinished field and the unfinished record's
fields, last one first, and the finished records, last one first. -/
structure Reader where
  place : Place
  line : Nat
  start : Nat
  field : List Char
  fields : List (List Char)
  records : List Record

namespace Reader

def initial : Reader := ⟨.recordStart, 1, 1, [], [], []⟩

def endField (r : Reader) : Reader :=
  { r with field := [], fields := r.field.reverse :: r.fields }

/-- The record is complete; the next one starts where the reader stands now. -/
def endRecord (r : Reader) : Reader :=
  { r.endField with
    place := .recordStart
    start := r.line
    fields := []
    records := ⟨r.start, r.endField.fields.reverse⟩ :: r.records }

def keep (r : Reader) (place : Place) (c : Char) : Reader :=
  { r with place, field := c :: r.field }

def plain (r : Reader) (c : Char) : Reader :=
  if c = ',' then { r.endField with place := .fieldStart }
  else if c = '\r' ∨ c = '\n' then r.endRecord
  else r.keep .field c

def first (r : Reader) (c : Char) : Reader :=
  if c = '"' then { r with place := .quoted } else r.plain c

def step (r : Reader) (c : Char) : Reader :=
  let r := if c = '\n' then { r with line := r.line + 1 } else r
  match r.place with
  | .recordStart => if c = '\r' ∨ c = '\n' then r else r.first c
  | .fieldStart => r.first c
  | .field => r.plain c
  | .quoted => if c = '"' then { r with place := .quote } else r.keep .quoted c
  | .quote => if c = '"' then r.keep .quoted c else r.plain c

/-- The records once the text has ended. -/
def finish (r : Reader) : List Record :=
  match r.place with
  | .recordStart => r.records.reverse
  | _ => r.endRecord.records.reverse

end Reader

/-- A mark of the byte order in front of a text is not part of it. -/
def dropMark : List Char → List Char
  | '\ufeff' :: cs => cs
  | cs => cs

def read (text : List Char) : List Record :=
  ((dropMark text).foldl Reader.step Reader.initial).finish

end PackageTriage.Csv
