import Mathlib.Algebra.Ring.Int.Defs
import Mathlib.Algebra.Ring.Nat
import Mathlib.Tactic.Common

/-! Doubles by their bits, and when two of them are equal. -/

structure Binary64 where
  bits : BitVec 64
deriving DecidableEq

namespace Binary64

/-- The bits without the sign. -/
def magnitude (x : Binary64) : Nat := x.bits.toNat % 2^63

/-- The exponent is all ones and the fraction is not zero. -/
def isNaN (x : Binary64) : Bool := decide (0x7FF0000000000000 < x.magnitude)

/-- Equality as the processor computes it: the zeros are equal, a NaN equals nothing. -/
def eq (x y : Binary64) : Bool :=
  !x.isNaN && !y.isNaN && (x == y || x.magnitude == 0 && y.magnitude == 0)

/-- The number as far as its order goes: the magnitude with the sign, in which the zeros are one -/
def rank (x : Binary64) : Int := if 2^63 ≤ x.bits.toNat then -x.magnitude else x.magnitude

/-- Order as the processor computes it: a NaN is neither less nor greater. -/
def lt (x y : Binary64) : Bool := !x.isNaN && !y.isNaN && decide (x.rank < y.rank)

def nan : Binary64 := ⟨0x7FF8000000000000⟩

/-- The other sign; a NaN stays one. -/
def neg (x : Binary64) : Binary64 := ⟨x.bits ^^^ (1#64 <<< 63)⟩

/-- A quotient rounded to the nearest number, and to the even one of two that are as near -/
def roundedQuotient (n d : Nat) : Nat :=
  if 2 * (n % d) < d ∨ 2 * (n % d) = d ∧ n / d % 2 = 0 then n / d else n / d + 1

/-- The exponent of the highest bit of a quotient that is not zero -/
def quotientLog (n d : Nat) : Int :=
  let e : Int := n.log2 - d.log2
  if n * 2^(-e).toNat < d * 2^e.toNat then e - 1 else e

/-- The double nearest to `n / 10^scale`, with an even fraction where two are as near; infinity is beyond the largest. -/
def ofDecimal (n scale : Nat) : Binary64 :=
  if n = 0 then ⟨0⟩
  else
    -- the last bit of the fraction counts 2^e
    let e := max (-1074) (quotientLog n (10^scale) - 52)
    let bits := (e + 1074).toNat * 2^52 + roundedQuotient (n * 2^(-e).toNat) (10^scale * 2^e.toNat)
    ⟨.ofNat 64 (min bits 0x7FF0000000000000)⟩

theorem eq_nan (x : Binary64) : nan.eq x = false := by
  have unordered : nan.isNaN = true := by decide
  simp [eq,unordered]

/-- Doubles equal to a third are equal to the same doubles. -/
theorem eq_congr {x y : Binary64} (same : x.eq y = true) (z : Binary64) : x.eq z = y.eq z := by
  simp only [eq,Bool.and_eq_true,Bool.not_eq_true',Bool.or_eq_true,beq_iff_eq] at same
  obtain ⟨⟨ordered,ordered'⟩,rfl | ⟨zero,zero'⟩⟩ := same
  · rfl
  · by_cases third : z.magnitude = 0
    · simp [eq,ordered,ordered',zero,zero',third]
    · have apart : (x == z) = false ∧ (y == z) = false := by
        constructor
        all_goals
          rw [beq_eq_false_iff_ne]
          rintro rfl
          contradiction
      simp [eq,ordered,ordered',apart,zero,zero']

example : (⟨0⟩ : Binary64).eq ⟨0x8000000000000000⟩ = true := by decide

end Binary64
