import PackageTriage.Random.Generator

/-!
# Xoshiro256++

Four words of state, made from the seed by SplitMix64. A word of 32 bits is the upper half of one of
64.
-/

namespace PackageTriage

structure Xoshiro where
  s0 : UInt64
  s1 : UInt64
  s2 : UInt64
  s3 : UInt64

namespace Xoshiro

def rotateLeft (w : UInt64) (k : UInt64) : UInt64 := (w <<< k) ||| (w >>> (64 - k))

def gamma : UInt64 := 0x9e3779b97f4a7c15

def split (z : UInt64) : UInt64 :=
  let z := (z ^^^ (z >>> 30)) * 0xbf58476d1ce4e5b9
  let z := (z ^^^ (z >>> 27)) * 0x94d049bb133111eb
  z ^^^ (z >>> 31)

def ofSeed (seed : UInt64) : Xoshiro :=
  ⟨split (seed + gamma), split (seed + 2 * gamma), split (seed + 3 * gamma),
    split (seed + 4 * gamma)⟩

def word (g : Xoshiro) : UInt64 × Xoshiro :=
  let result := rotateLeft (g.s0 + g.s3) 23 + g.s0
  let t := g.s1 <<< 17
  let s2 := g.s2 ^^^ g.s0
  let s3 := g.s3 ^^^ g.s1
  let s1 := g.s1 ^^^ s2
  let s0 := g.s0 ^^^ s3
  (result, ⟨s0, s1, s2 ^^^ t, rotateLeft s3 45⟩)

instance : Generator Xoshiro where
  word32 g :=
    let (w, g) := word g
    ((w >>> 32).toUInt32, g)
  word64 := word

end Xoshiro

end PackageTriage
