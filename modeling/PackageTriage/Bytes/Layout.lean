import PackageTriage.Choice

/-!
# Byte layouts

How values are laid out as bytes in stored artifacts: words with the lowest byte first, lengths and
natural numbers in eight bytes, the number of an alternative in four, the parts of a record one after
the other. Nothing marks where a value ends, so a reader gives the bytes behind the value too, and has
none to give when they end inside it.
-/

namespace PackageTriage

class Layout (α : Type) where
  write : α → List UInt8
  /-- The value that the bytes begin with, and the bytes behind it. -/
  read : List UInt8 → Option (α × List UInt8)

namespace Layout

def writeWord : (count n : Nat) → List UInt8
  | 0, _ => []
  | count + 1, n => n.toUInt8 :: writeWord count (n / 256)

def readWord : (count : Nat) → List UInt8 → Option (Nat × List UInt8)
  | 0, bs => some (0, bs)
  | _ + 1, [] => none
  | count + 1, b :: bs => (readWord count bs).map fun (n, bs) => (b.toNat + 256 * n, bs)

@[simp] theorem readWord_zero (bs : List UInt8) : readWord 0 bs = some (0, bs) := rfl

/-- What was written is read back, if it fits. -/
theorem readWord_writeWord {count n : Nat} (h : n < Nat.pow 256 count) (rest : List UInt8) :
    readWord count (writeWord count n ++ rest) = some (n, rest) := by
  rw [Nat.pow_eq] at h
  induction count generalizing n with
  | zero =>
    obtain rfl : n = 0 := by omega
    rfl
  | succ count ih =>
    have hq : n / 256 < Nat.pow 256 count := by
      rw [Nat.pow_succ] at h
      rw [Nat.pow_eq]
      omega
    have hb : n.toUInt8.toNat = n % 256 := by simp
    simp only [writeWord, List.cons_append, readWord, ih hq, Option.map_some, hb]
    rw [Nat.mod_add_div]

def writeTag (n : Nat) : List UInt8 := writeWord 4 n

def readTag (bs : List UInt8) : Option (Nat × List UInt8) := readWord 4 bs

/-- A type laid out as another one that holds the same. -/
@[reducible] def via {α β : Type} [Layout β] (view : α → β) (of : β → α) : Layout α where
  write a := write (view a)
  read bs := (read bs).map fun (b, bs) => (of b, bs)

instance : Layout Nat where
  write := writeWord 8
  read := readWord 8

instance : Layout UInt64 := via UInt64.toNat Nat.toUInt64

instance : Layout Float := via Float.toBits Float.ofBits

instance : Layout Bool where
  write b := [if b then 1 else 0]
  read
    | 0 :: bs => some (false, bs)
    | 1 :: bs => some (true, bs)
    | _ => none

instance {α β : Type} [Layout α] [Layout β] : Layout (α × β) where
  write p := write p.1 ++ write p.2
  read bs := do
    let (a, bs) ← read bs
    let (b, bs) ← read bs
    return ((a, b), bs)

/-- A byte tells whether there is a value. -/
instance {α : Type} [Layout α] : Layout (Option α) where
  write
    | none => [0]
    | some a => 1 :: write a
  read
    | 0 :: bs => some (none, bs)
    | 1 :: bs => (read bs).map fun (a, bs) => (some a, bs)
    | _ => none

def readMany {α : Type} [Layout α] : (count : Nat) → List UInt8 → Option (List α × List UInt8)
  | 0, bs => some ([], bs)
  | count + 1, bs => do
    let (a, bs) ← read bs
    let (as, bs) ← readMany count bs
    return (a :: as, bs)

/-- The length comes first. -/
instance {α : Type} [Layout α] : Layout (List α) where
  write as := write as.length ++ as.flatMap write
  read bs := do
    let (count, bs) ← (read bs : Option (Nat × List UInt8))
    readMany count bs

instance : Layout UInt8 where
  write b := [b]
  read
    | [] => none
    | b :: bs => some (b, bs)

/-- The bytes of a text as a list. -/
instance : Layout String where
  write s := write s.toUTF8.toList
  read bs := do
    let (bytes, bs) ← (read bs : Option (List UInt8 × List UInt8))
    let s ← String.fromUTF8? ⟨bytes.toArray⟩
    return (s, bs)

/-- A choice is laid out as its place among all. -/
@[reducible] def ofChoice (α : Type) [Choice α] [DecidableEq α] : Layout α where
  write a := writeTag ((Choice.all : List α).idxOf a)
  read bs := do
    let (place, bs) ← readTag bs
    let a ← (Choice.all : List α)[place]?
    return (a, bs)

def decode? {α : Type} [Layout α] (bytes : List UInt8) : Option α := (read bytes).map Prod.fst

end Layout

end PackageTriage
