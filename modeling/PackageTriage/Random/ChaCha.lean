import PackageTriage.Random.Generator

/-!
# ChaCha with eight rounds

The words of the generator are those of the ChaCha stream cipher under a key made from the seed, with
a block counter of 64 bits that starts at zero and a zero nonce. A word of 64 bits is made of two
words of 32, the first one below.
-/

namespace PackageTriage

/-- The key, the number of the next block and the words of the last block that were not yet given. -/
structure ChaCha where
  key : List UInt32
  next : UInt64
  words : List UInt32

namespace ChaCha

def rotateLeft (w : UInt32) (k : UInt32) : UInt32 := (w <<< k) ||| (w >>> (32 - k))

def rotateRight (w : UInt32) (k : UInt32) : UInt32 :=
  if k = 0 then w else (w >>> k) ||| (w <<< (32 - k))

def advance (s : UInt64) : UInt64 := s * 6364136223846793005 + 11634580027462260723

def keyWord (s : UInt64) : UInt32 :=
  rotateRight ((((s >>> 18) ^^^ s) >>> 27).toUInt32) (s >>> 59).toUInt32

def keyFrom : Nat → UInt64 → List UInt32
  | 0, _ => []
  | n + 1, s => keyWord (advance s) :: keyFrom n (advance s)

def ofSeed (seed : UInt64) : ChaCha := ⟨keyFrom 8 seed, 0, []⟩

/-- Mix the words at four places. -/
def quarter (s : Array UInt32) (a b c d : Nat) : Array UInt32 :=
  let va := s.getD a 0 + s.getD b 0
  let vd := rotateLeft (s.getD d 0 ^^^ va) 16
  let vc := s.getD c 0 + vd
  let vb := rotateLeft (s.getD b 0 ^^^ vc) 12
  let va := va + vb
  let vd := rotateLeft (vd ^^^ va) 8
  let vc := vc + vd
  let vb := rotateLeft (vb ^^^ vc) 7
  (((s.setIfInBounds a va).setIfInBounds b vb).setIfInBounds c vc).setIfInBounds d vd

/-- A round over the columns and one over the diagonals. -/
def doubleRound (s : Array UInt32) : Array UInt32 :=
  let s := quarter s 0 4 8 12
  let s := quarter s 1 5 9 13
  let s := quarter s 2 6 10 14
  let s := quarter s 3 7 11 15
  let s := quarter s 0 5 10 15
  let s := quarter s 1 6 11 12
  let s := quarter s 2 7 8 13
  quarter s 3 4 9 14

def constants : List UInt32 := [0x61707865, 0x3320646e, 0x79622d32, 0x6b206574]

def block (key : List UInt32) (number : UInt64) : List UInt32 :=
  let start := constants ++ key ++ [number.toUInt32, (number >>> 32).toUInt32, 0, 0]
  let mixed := Nat.repeat doubleRound 4 start.toArray
  List.zipWith (· + ·) mixed.toList start

def word (g : ChaCha) : UInt32 × ChaCha :=
  match g.words with
  | w :: ws => (w, { g with words := ws })
  | [] =>
    match block g.key g.next with
    | w :: ws => (w, ⟨g.key, g.next + 1, ws⟩)
    | [] => (0, g)

instance : Generator ChaCha where
  word32 := word
  word64 g :=
    let (low, g) := word g
    let (high, g) := word g
    (low.toUInt64 ||| (high.toUInt64 <<< 32), g)

end ChaCha

end PackageTriage
