/-!
# Random words

A generator gives words of 32 and of 64 bits, each with the generator for the next one. The draws
below are functions of a generator, so equal seeds give equal draws.
-/

namespace PackageTriage

class Generator (σ : Type) where
  word32 : σ → UInt32 × σ
  word64 : σ → UInt64 × σ

namespace Generator

variable {σ : Type} [Generator σ]

/-- The largest word that is accepted for a draw below `n`: `n`, shifted so that it fills the word,
less one. -/
def zone (bits n : Nat) : Nat := n * Nat.pow 2 (bits - 1 - n.log2) - 1

/-- A number below `n`, from words of `bits` bits. The product of a word and `n` is the word scaled
to the range; its high half is the number, and the word counts only if the low half is at most
`zone`, which makes all numbers equally likely. More than half of all words count, so the bound on
the trials is out of reach. -/
def belowIn (bits : Nat) (word : σ → Nat × σ) (zone n : Nat) : (trials : Nat) → σ → Nat × σ
  | 0, g => (0, g)
  | trials + 1, g =>
    let (w, g) := word g
    let p := w * n
    if p % Nat.pow 2 bits ≤ zone then (p / Nat.pow 2 bits, g) else belowIn bits word zone n trials g

def trials : Nat := 1024

def below (n : Nat) (g : σ) : Nat × σ :=
  belowIn 64 (fun g => let (w, g) := word64 g; (w.toNat, g)) (zone 64 n) n trials g

def below32 (n : Nat) (g : σ) : Nat × σ :=
  belowIn 32 (fun g => let (w, g) := word32 g; (w.toNat, g)) (zone 32 n) n trials g

def draws {β : Type} (draw : σ → β × σ) : Nat → σ → List β × σ
  | 0, g => ([], g)
  | n + 1, g =>
    let (b, g) := draw g
    let (bs, g) := draws draw n g
    (b :: bs, g)

/-- Exchange the entry at `i` with one at or below it, for `i` from the given place down to one. -/
def shuffleFrom {β : Type} : Nat → Array β → σ → Array β × σ
  | 0, xs, g => (xs, g)
  | i + 1, xs, g =>
    let (j, g) := below32 (i + 2) g
    shuffleFrom i (xs.swapIfInBounds (i + 1) j) g

def shuffle {β : Type} (xs : List β) (g : σ) : List β × σ :=
  let (ys, g) := shuffleFrom (xs.length - 1) xs.toArray g
  (ys.toList, g)

def shuffleEach {β : Type} : List (List β) → σ → List (List β) × σ
  | [], g => ([], g)
  | xs :: rest, g =>
    let (ys, g) := shuffle xs g
    let (rest, g) := shuffleEach rest g
    (ys :: rest, g)

end Generator

end PackageTriage
