/-!
# Lines of a text

A line ends at a line feed. The end of the text ends a last line only if something stands on it, so
a text has as many lines whether or not its last line is ended.
-/

namespace PackageTriage.Text

def consLine (c : Char) (lines : List (List Char)) : List (List Char) :=
  if c = '\n' then [] :: lines
  else
    match lines with
    | [] => [[c]]
    | line :: rest => (c :: line) :: rest

/-- The lines of a text, without the line feeds that end them. -/
def splitLines (text : List Char) : List (List Char) := text.foldr consLine []

/-- A line is blank when nothing but carriage returns stands on it. -/
def isBlankLine (line : List Char) : Bool := line.all (· == '\r')

@[simp] theorem splitLines_nil : splitLines [] = [] := rfl

@[simp] theorem splitLines_cons (c : Char) (text : List Char) :
    splitLines (c :: text) = consLine c (splitLines text) := rfl

end PackageTriage.Text
