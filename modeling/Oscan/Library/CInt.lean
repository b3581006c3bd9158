import Oscan.Library.Lockstep
import Mathlib.Algebra.Order.Ring.Int
import Mathlib.Tactic.Linarith

/-! The signed integers of C of a given width: an operation whose exact result does not fit has no defined
outcome. -/
namespace Oscan.Library
open Lockstep

structure CInt (bits : Nat) where
  value : Int
  low : -2^(bits - 1) ≤ value
  high : value < 2^(bits - 1)

namespace CInt
variable {bits : Nat}

def Fits (bits : Nat) (v : Int) : Prop := -2^(bits - 1) ≤ v ∧ v < 2^(bits - 1)

instance (bits : Nat) (v : Int) : Decidable (Fits bits v) := inferInstanceAs (Decidable (_ ∧ _))

theorem fits (a : CInt bits) : Fits bits a.value := ⟨a.low,a.high⟩

@[ext] theorem ext {a b : CInt bits} (same : a.value = b.value) : a = b := by
  cases a
  cases b
  cases same
  rfl

instance : DecidableEq (CInt bits) := fun a b => decidable_of_iff (a.value = b.value) ⟨ext,fun same => same ▸ rfl⟩

theorem half_pos (bits : Nat) : (0 : Int) < 2^(bits - 1) := Int.pow_pos (by decide)

def least (bits : Nat) : CInt bits := ⟨-2^(bits - 1),le_refl _,by have := half_pos bits; omega⟩

def greatest (bits : Nat) : CInt bits := ⟨2^(bits - 1) - 1,by have := half_pos bits; omega,by omega⟩

@[simp] theorem least_value : (least bits).value = -2^(bits - 1) := rfl
@[simp] theorem greatest_value : (greatest bits).value = 2^(bits - 1) - 1 := rfl

/-- The number if it has the width, and else no defined outcome -/
def exactly (bits : Nat) (v : Int) : Outcome (CInt bits) :=
  if inside : Fits bits v then .ok ⟨v,inside.1,inside.2⟩ else .undefined

def add (a b : CInt bits) : Outcome (CInt bits) := exactly bits (a.value + b.value)

def sub (a b : CInt bits) : Outcome (CInt bits) := exactly bits (a.value - b.value)

def mul (a b : CInt bits) : Outcome (CInt bits) := exactly bits (a.value * b.value)

def neg (a : CInt bits) : Outcome (CInt bits) := exactly bits (-a.value)

/-- Division truncates toward zero. -/
def div (a b : CInt bits) : Outcome (CInt bits) :=
  if b.value = 0 then .undefined else exactly bits (a.value.tdiv b.value)

/-- A remainder is defined where the quotient is. -/
def mod (a b : CInt bits) : Outcome (CInt bits) :=
  (div a b).bind fun _ => exactly bits (a.value.tmod b.value)

/-- Conversion to another width; out of range it is up to the implementation. -/
def convert (a : CInt bits) (bits' : Nat) : Outcome (CInt bits') := exactly bits' a.value

theorem exactly_fits {v : Int} (inside : Fits bits v) : exactly bits v = .ok ⟨v,inside.1,inside.2⟩ := dif_pos inside

theorem exactly_eq_ok {v : Int} {r : CInt bits} (done : exactly bits v = .ok r) : r.value = v := by
  unfold exactly at done
  split at done
  next =>
    cases done
    rfl
  next => cases done

theorem div_fits {a b : CInt bits} (nonzero : b.value ≠ 0) (other : ¬(a.value = -2^(bits - 1) ∧ b.value = -1)) :
    Fits bits (a.value.tdiv b.value) := by
  have low := a.low
  have high := a.high
  have positive := half_pos bits
  have shrinks := Int.natAbs_tdiv_le_natAbs a.value b.value
  unfold Fits
  generalize (2 : Int)^(bits - 1) = half at *
  by_cases minimum : a.value = -half
  · have notMinusOne : b.value ≠ -1 := fun same => other ⟨minimum,same⟩
    by_cases one : b.value = 1
    · rw [one,Int.tdiv_one]
      exact ⟨low,high⟩
    · have magnitude : (a.value.tdiv b.value).natAbs = a.value.natAbs / b.value.natAbs := Int.natAbs_tdiv _ _
      have halves : a.value.natAbs / b.value.natAbs ≤ a.value.natAbs / 2 := by
        apply Nat.div_le_div_left
        · omega
        · decide
      omega
  · omega

theorem div_ok {a b : CInt bits} (nonzero : b.value ≠ 0) (other : ¬(a.value = -2^(bits - 1) ∧ b.value = -1)) :
    a.div b = .ok ⟨a.value.tdiv b.value,(div_fits nonzero other).1,(div_fits nonzero other).2⟩ := by
  unfold div
  rw [if_neg nonzero]
  exact exactly_fits (div_fits nonzero other)

theorem mod_fits {a b : CInt bits} (nonzero : b.value ≠ 0) : Fits bits (a.value.tmod b.value) := by
  have magnitude : (a.value.tmod b.value).natAbs = a.value.natAbs % b.value.natAbs := Int.natAbs_tmod _ _
  have below : a.value.natAbs % b.value.natAbs < b.value.natAbs := Nat.mod_lt _ (by omega)
  have low := b.low
  have high := b.high
  have positive := half_pos bits
  unfold Fits
  generalize (2 : Int)^(bits - 1) = half at *
  omega

/-! A product leaves the range where one factor is beyond the quotient of the bound by the other. -/

theorem lt_mul_iff {x y m : Int} (positive : 0 < x) (bound : 0 ≤ m) : m < x * y ↔ m.tdiv x < y := by
  rw [Int.tdiv_eq_ediv_of_nonneg bound,Int.ediv_lt_iff_lt_mul positive,Int.mul_comm]

theorem mul_lt_iff {x y m : Int} (positive : 0 < x) (bound : 0 ≤ m) : x * y < -m ↔ y < (-m).tdiv x := by
  have mirrored := lt_mul_iff (x := x) (y := -y) (m := m) positive bound
  rw [Int.neg_tdiv]
  constructor
  · intro below
    have := mirrored.mp (by rw [Int.mul_neg]; omega)
    omega
  · intro below
    have := mirrored.mpr (by omega)
    rw [Int.mul_neg] at this
    omega

theorem lt_mul_iff_neg {x y m : Int} (negative : x < 0) (bound : 0 ≤ m) : m < x * y ↔ y < m.tdiv x := by
  have mirrored := lt_mul_iff (x := -x) (y := -y) (m := m) (by omega) bound
  rw [Int.neg_mul_neg,Int.tdiv_neg] at mirrored
  rw [mirrored]
  omega

end CInt

end Oscan.Library
