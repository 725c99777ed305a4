import PackageTriage.Random.Generator

/-!
# Random subsets

A draw of `k` of the numbers below `n`, without repetition. Three ways are used, each where it is the
quickest: exchanging the first places of the whole range with places behind them, a walk over
the last `k` numbers, and drawing until `k` different numbers are found. They give the same
distribution but not the same numbers.
-/

namespace PackageTriage.Generator

variable {σ : Type} [Generator σ]

/-- Exchange place `i` with a place at or behind it, for the first `k` places from `i` on. -/
def exchangeFrom : (k i : Nat) → Array Nat → σ → Array Nat × σ
  | 0, _, xs, g => (xs, g)
  | k + 1, i, xs, g =>
    let (j, g) := below32 (xs.size - i) g
    exchangeFrom k (i + 1) (xs.swapIfInBounds i (i + j)) g

def subsetByExchange (n k : Nat) (g : σ) : List Nat × σ :=
  let (xs, g) := exchangeFrom k 0 (Array.range n) g
  ((xs.take k).toList, g)

/-- For each `j` from the given one on draw a number up to `j`; if it is already there, `j` takes its
place in front of it, or at the end if the order is shuffled later. -/
def walkFrom (keepOrder : Bool) : (k j : Nat) → List Nat → σ → List Nat × σ
  | 0, _, xs, g => (xs, g)
  | k + 1, j, xs, g =>
    let (t, g) := below32 (j + 1) g
    let xs := match xs.findIdx? (· == t) with
      | some p => if keepOrder then xs.insertIdx p j else xs ++ [j]
      | none => xs ++ [t]
    walkFrom keepOrder k (j + 1) xs g

def subsetByWalk (n k : Nat) (g : σ) : List Nat × σ :=
  if k < 50 then walkFrom true k (n - k) [] g
  else
    let (xs, g) := walkFrom false k (n - k) [] g
    shuffle xs g

/-- The words that count when every word of 32 bits but a remainder is used. -/
def fullZone (n : Nat) : Nat := Nat.pow 2 32 - 1 - (Nat.pow 2 32 - n) % n

/-- Draw `k` numbers, passing over those that are there; `trials` bounds the draws. -/
def rejectFrom (n : Nat) : (trials k : Nat) → List Nat → σ → List Nat × σ
  | 0, _, xs, g => (xs, g)
  | _, 0, xs, g => (xs, g)
  | trials + 1, k + 1, xs, g =>
    let (t, g) := belowIn 32 (fun g => let (w, g) := word32 g; (w.toNat, g)) (fullZone n) n 1024 g
    if xs.contains t then rejectFrom n trials (k + 1) xs g
    else rejectFrom n trials k (xs ++ [t]) g

/-- Whether drawing from the whole range is the quickest for a small `k`. -/
def exchangePays (n k : Nat) : Bool :=
  let k' := Float32.ofNat k
  Float32.ofNat n < (10 + 1.6 * k') * k'

/-- A draw of `k` different numbers below `n`, where `k ≤ n`. -/
def subset (n k : Nat) (g : σ) : List Nat × σ :=
  if k < 163 then
    if 11 < k && exchangePays n k then subsetByExchange n k g else subsetByWalk n k g
  else if n < 270 * k then subsetByExchange n k g
  else rejectFrom n (64 * k) k [] g

end PackageTriage.Generator
