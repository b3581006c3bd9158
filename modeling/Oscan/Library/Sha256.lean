import Mathlib.Algebra.Ring.Nat
import Mathlib.Data.List.Basic
import Mathlib.Data.Nat.NthRoot.Defs

/-! SHA-256 as the secure hash standard (FIPS 180-4) defines it, for messages of bits. -/
namespace Oscan.Library.Sha256

abbrev Word := BitVec 32

/-- The first sixty-four prime numbers -/
def primes : List Nat :=
  [2,3,5,7,11,13,17,19,23,29,31,37,41,43,47,53,59,61,67,71,73,79,83,89,97,101,103,107,109,113,127,131,137,139,149,151,
   157,163,167,173,179,181,191,193,197,199,211,223,227,229,233,239,241,251,257,263,269,271,277,281,283,293,307,311]

/-- The first 32 bits of the fractional part of the cube root of a prime number -/
def constant (t : Nat) : Word := .ofNat 32 (Nat.nthRoot 3 (primes.getD t 0 * 2^96))

def rotr (n : Nat) (x : Word) : Word := x.rotateRight n

def shr (n : Nat) (x : Word) : Word := x >>> n

def ch (x y z : Word) : Word := (x &&& y) ^^^ (~~~x &&& z)

def maj (x y z : Word) : Word := (x &&& y) ^^^ (x &&& z) ^^^ (y &&& z)

def bigSigma0 (x : Word) : Word := rotr 2 x ^^^ rotr 13 x ^^^ rotr 22 x

def bigSigma1 (x : Word) : Word := rotr 6 x ^^^ rotr 11 x ^^^ rotr 25 x

def smallSigma0 (x : Word) : Word := rotr 7 x ^^^ rotr 18 x ^^^ shr 3 x

def smallSigma1 (x : Word) : Word := rotr 17 x ^^^ rotr 19 x ^^^ shr 10 x

/-! Padding and parsing -/

/-- The bits of a number, the most significant first -/
def bitsOf (width n : Nat) : List Bool := (List.range width).map fun i => n.testBit (width - 1 - i)

/-- The smallest number of zero bits that leaves room for the length at the end of a block -/
def zeros (length : Nat) : Nat := (959 - length % 512) % 512

theorem zeros_fill (length : Nat) : (length + 1 + zeros length) % 512 = 448 := by
  unfold zeros
  omega

theorem zeros_least {length k : Nat} (fills : (length + 1 + k) % 512 = 448) : zeros length ≤ k := by
  unfold zeros
  omega

def pad (message : List Bool) : List Bool :=
  message ++ true :: List.replicate (zeros message.length) false ++ bitsOf 64 message.length

def wordOf (bits : List Bool) : Word := .ofNat 32 (bits.foldl (fun n bit => 2 * n + bit.toNat) 0)

/-- The words of a block of a padded message -/
def blockWord (padded : List Bool) (i t : Nat) : Word := wordOf ((padded.drop (512 * i + 32 * t)).take 32)

/-! The hash computation -/

def schedule (block : Nat → Word) (t : Nat) : Word :=
  if t < 16 then block t
  else smallSigma1 (schedule block (t - 2)) + schedule block (t - 7) + smallSigma0 (schedule block (t - 15)) +
    schedule block (t - 16)

/-- The working variables, and the hash value of a number of blocks -/
structure Registers where
  a : Word
  b : Word
  c : Word
  d : Word
  e : Word
  f : Word
  g : Word
  h : Word

/-- The first 32 bits of the fractional part of the square root of a prime number -/
def initialWord (i : Nat) : Word := .ofNat 32 (Nat.nthRoot 2 (primes.getD i 0 * 2^64))

def initial : Registers :=
  ⟨initialWord 0,initialWord 1,initialWord 2,initialWord 3,initialWord 4,initialWord 5,initialWord 6,initialWord 7⟩

def round (k w : Word) (r : Registers) : Registers :=
  let t1 := r.h + bigSigma1 r.e + ch r.e r.f r.g + k + w
  let t2 := bigSigma0 r.a + maj r.a r.b r.c
  ⟨t1 + t2,r.a,r.b,r.c,r.d + t1,r.e,r.f,r.g⟩

def Registers.add (r s : Registers) : Registers :=
  ⟨r.a + s.a,r.b + s.b,r.c + s.c,r.d + s.d,r.e + s.e,r.f + s.f,r.g + s.g,r.h + s.h⟩

def compress (block : Nat → Word) (hash : Registers) : Registers :=
  ((List.range 64).foldl (fun r t => round (constant t) (schedule block t) r) hash).add hash

def hash (message : List Bool) : Registers :=
  (List.range ((pad message).length / 512)).foldl (fun value i => compress (blockWord (pad message) i) value) initial

def Registers.words (r : Registers) : List Word := [r.a,r.b,r.c,r.d,r.e,r.f,r.g,r.h]

/-- A digit of the lower-case hexadecimal text -/
def hexDigit (d : Nat) : UInt8 := .ofNat (if d < 10 then 48 + d else 87 + d)

def hexWord (w : Word) : List UInt8 := (List.range 8).map fun i => hexDigit (w.toNat / 16^(7 - i) % 16)

/-- The digest of a message in hexadecimal -/
def hexDigest (message : List Bool) : List UInt8 := (hash message).words.flatMap hexWord

/-! Numbers and their bits -/

theorem bitsOf_succ (width n : Nat) : bitsOf (width + 1) n = bitsOf width (n / 2) ++ [n.testBit 0] := by
  unfold bitsOf
  rw [List.range_succ,List.map_append]
  refine congr (congrArg _ (List.map_congr_left fun i inside => ?_)) (by simp)
  rw [List.mem_range] at inside
  rw [← Nat.testBit_succ]
  congr 1
  omega

@[simp] theorem bitsOf_length (width n : Nat) : (bitsOf width n).length = width := by simp [bitsOf]

/-- Reading the bits of a number behind what was read already -/
theorem read_bits (width n : Nat) : ∀ start : Nat,
    (bitsOf width n).foldl (fun n bit => 2 * n + bit.toNat) start = start * 2^width + n % 2^width := by
  induction width generalizing n with
  | zero => intro start; simp [bitsOf,Nat.mod_one]
  | succ width ih =>
    intro start
    have last : (n.testBit 0).toNat = n % 2 := by simp [Nat.testBit_zero]; rcases Nat.mod_two_eq_zero_or_one n with e | e <;> simp [e]
    rw [bitsOf_succ,List.foldl_append,ih,List.foldl_cons,List.foldl_nil,last,Nat.pow_succ']
    have split : n % (2 * 2^width) = 2 * (n / 2 % 2^width) + n % 2 := by
      rw [Nat.mod_mul]
      omega
    rw [split,Nat.mul_add,← Nat.mul_assoc,Nat.mul_comm 2 start,Nat.mul_assoc]
    omega

end Oscan.Library.Sha256
