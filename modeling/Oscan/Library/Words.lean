import Oscan.Library.Lockstep
import Mathlib.Tactic.NormNum

/-! Words of one width under the rules of C, of LLVM and of Cranelift. A shift amount that is not below the width
is undefined in C, poison in LLVM, and reduced to the width by Cranelift. -/
namespace Oscan.Library
open Lockstep

/-- A value of the signed or of the unsigned type of a width, in two's complement -/
inductive CWord (w : Nat) where
  | signed (bits : BitVec w)
  | unsigned (bits : BitVec w)
deriving DecidableEq

namespace CWord
variable {w : Nat}

def bits : CWord w → BitVec w
  | .signed x | .unsigned x => x

/-- The number that the bits stand for -/
def value : CWord w → Int
  | .signed x => x.toInt
  | .unsigned x => x.toNat

/-- A number out of range keeps its bits; C leaves that to the implementations, which define it so. -/
def toSigned (a : CWord w) : CWord w := .signed a.bits

def toUnsigned (a : CWord w) : CWord w := .unsigned a.bits

/-- With one unsigned operand the other is converted. -/
def bitwise (f : BitVec w → BitVec w → BitVec w) : CWord w → CWord w → CWord w
  | .signed x,.signed y => .signed (f x y)
  | a,b => .unsigned (f a.bits b.bits)

def complement : CWord w → CWord w
  | .signed x => .signed (~~~x)
  | .unsigned x => .unsigned (~~~x)

/-- The amounts that a shift is defined for -/
def Amount (b : CWord w) : Prop := 0 ≤ b.value ∧ b.value < w

instance (b : CWord w) : Decidable b.Amount := inferInstanceAs (Decidable (_ ∧ _))

/-- A signed operand must not be negative, nor the exact result out of range. -/
def shiftLeft (a b : CWord w) : Outcome (CWord w) :=
  if b.Amount then
    match a with
    | .unsigned x => .ok (.unsigned (x <<< b.value.toNat))
    | .signed x =>
      if 0 ≤ x.toInt ∧ x.toInt * 2^b.value.toNat < 2^(w - 1) then .ok (.signed (x <<< b.value.toNat)) else .undefined
  else .undefined

/-- A negative operand keeps its sign; C leaves that to the implementations, which define it so. -/
def shiftRight (a b : CWord w) : Outcome (CWord w) :=
  if b.Amount then
    match a with
    | .unsigned x => .ok (.unsigned (x >>> b.value.toNat))
    | .signed x => .ok (.signed (x.sshiftRight b.value.toNat))
  else .undefined

end CWord

namespace Words
variable {w : Nat}

/-- A shift of LLVM: the amount is read without a sign, and poison is no defined outcome. -/
def poisoning (shift : BitVec w → Nat → BitVec w) (x y : BitVec w) : Outcome (BitVec w) :=
  if y.toNat < w then .ok (shift x y.toNat) else .undefined

/-- A shift of Cranelift -/
def masking (shift : BitVec w → Nat → BitVec w) (x y : BitVec w) : BitVec w := shift x (y.toNat % w)

theorem width_le (positive : 0 < w) : w ≤ 2^(w - 1) := by
  have grows : w - 1 < 2^(w - 1) := Nat.lt_two_pow_self
  omega

theorem toInt_below {y : BitVec w} (below : y.toNat < w) : y.toInt = y.toNat := by
  have limit := width_le (Nat.zero_lt_of_lt below)
  have doubled : 2 * 2^(w - 1) = 2^w := by
    rw [← Nat.pow_succ',Nat.succ_eq_add_one,Nat.sub_add_cancel (Nat.zero_lt_of_lt below)]
  apply BitVec.toInt_eq_toNat_of_lt
  omega

/-- Read with a sign or without, the same words are amounts. -/
theorem amount_iff (y : BitVec w) : (CWord.signed y).Amount ↔ y.toNat < w := by
  simp only [CWord.Amount,CWord.value]
  constructor
  · intro ⟨low,high⟩
    have limit := y.isLt
    rw [BitVec.toInt_eq_toNat_cond] at low high
    split at low <;> omega
  · intro below
    have whole := toInt_below below
    omega

theorem amount_toNat {y : BitVec w} (below : y.toNat < w) : (CWord.signed y).value.toNat = y.toNat := by
  simp [CWord.value,toInt_below below]

theorem masking_below (shift : BitVec w → Nat → BitVec w) {x y : BitVec w} (below : y.toNat < w) :
    masking shift x y = shift x y.toNat := by
  rw [masking,Nat.mod_eq_of_lt below]

theorem poisoning_ok_iff (shift : BitVec w → Nat → BitVec w) (x y r : BitVec w) :
    poisoning shift x y = .ok r ↔ y.toNat < w ∧ masking shift x y = r := by
  unfold poisoning
  split
  next below => simp [masking_below shift below,below]
  next beyond => simp [beyond]

/-- On an unsigned word C shifts as LLVM does. -/
theorem shiftLeft_unsigned (x y : BitVec w) :
    CWord.shiftLeft (.unsigned x) (.signed y) = (poisoning (· <<< ·) x y).map .unsigned := by
  unfold CWord.shiftLeft poisoning
  simp only [amount_iff]
  split
  next below => rw [amount_toNat below,Outcome.map_ok]
  next => rfl

theorem shiftRight_unsigned (x y : BitVec w) :
    CWord.shiftRight (.unsigned x) (.signed y) = (poisoning (· >>> ·) x y).map .unsigned := by
  unfold CWord.shiftRight poisoning
  simp only [amount_iff]
  split
  next below => rw [amount_toNat below,Outcome.map_ok]
  next => rfl

/-- Cranelift computes the one defined result exactly for the amounts below the width. -/
theorem poisoning_masking_iff (shift : BitVec w → Nat → BitVec w) (x y : BitVec w) :
    (∃ r, masking shift x y = r ∧ poisoning shift x y = .ok r) ↔ y.toNat < w := by
  simp only [poisoning_ok_iff]
  constructor
  · intro ⟨r,_,below,_⟩
    exact below
  · intro below
    exact ⟨_,rfl,below,rfl⟩

end Words

end Oscan.Library
