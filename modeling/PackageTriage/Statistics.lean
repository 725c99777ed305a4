import PackageTriage.Scalar

/-!
# Statistics of a sequence

Sums, extremes and the spread of a sequence of scalars. The spread is found in one pass: the mean and
the sum of squared distances from it are both brought up to date by each element.
-/

namespace PackageTriage.Statistics

variable {α : Type} [Scalar α]

def addLanes (lanes block : List α) : List α := List.zipWith (· + ·) lanes block

/-- Eight interleaved partial sums, and the scalars that fill no block of eight. -/
def lanes (partials : List α) : List α → List α × List α
  | a :: b :: c :: d :: e :: f :: g :: h :: rest => lanes (addLanes partials [a, b, c, d, e, f, g, h]) rest
  | rest => (partials, rest)

/-- The sum of eight partial sums, each of the first four together with its partner four places on. -/
def joinLanes : List α → α
  | [a, b, c, d, e, f, g, h] => 0 + (a + e) + (b + f) + (c + g) + (d + h)
  | partials => Scalar.sum partials

/-- The sum in eight interleaved partial sums, then of what fills no block of eight. -/
def laneSum (xs : List α) : α :=
  let (partials, rest) := lanes (List.replicate 8 0) xs
  rest.foldl (· + ·) (joinLanes partials)

/-- The least number of a sequence, infinity if it has none. -/
def least (xs : List α) : α :=
  match xs.filter Scalar.isNumber with
  | [] => Scalar.infinity
  | x :: xs => xs.foldl Scalar.min x

/-- The greatest number of a sequence, negative infinity if it has none. -/
def greatest (xs : List α) : α :=
  match xs.filter Scalar.isNumber with
  | [] => -Scalar.infinity
  | x :: xs => xs.foldl Scalar.max x

/-- How many scalars were seen, their mean, and the sum of their squared distances from it. -/
structure Spread (α : Type) where
  count : Nat
  mean : α
  squares : α

namespace Spread

def initial : Spread α := ⟨0, 0, 0⟩

/-- One more scalar. Its distances from the old and the new mean go into the squares by
`accumulate`, which adds the product of the first two arguments to the third. -/
def add (accumulate : α → α → α → α) (s : Spread α) (x : α) : Spread α :=
  let delta := x - s.mean
  let mean := s.mean + delta / ((s.count + 1 : Nat) : α)
  ⟨s.count + 1, mean, accumulate (x - mean) delta s.squares⟩

/-- The spread of a sequence, each product rounded together with the sum it enters. -/
def ofList (xs : List α) : Spread α := xs.foldl (add Scalar.fma) initial

/-- The spread of a sequence, each product rounded before it is added. -/
def ofListRounded (xs : List α) : Spread α := xs.foldl (add fun a b c => c + b * a) initial

end Spread

def variance (xs : List α) : α :=
  let s := Spread.ofList xs
  s.squares / (xs.length : α)

end PackageTriage.Statistics
