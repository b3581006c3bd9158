import Mathlib.Algebra.Ring.Nat
import Mathlib.Data.List.Basic

/-! Bytes in groups of six bits, each a letter, and the way back through a number that only grows. -/
namespace Oscan.Library.Base64

/-- The groups of six bits; those that the last bytes leave open are filled up with zeros. -/
def sextets : List UInt8 → List Nat
  | [] => []
  | [a] => [a.toNat / 4,a.toNat % 4 * 16]
  | [a,b] => [a.toNat / 4,a.toNat % 4 * 16 + b.toNat / 16,b.toNat % 16 * 4]
  | a :: b :: c :: rest =>
    a.toNat / 4 :: (a.toNat % 4 * 16 + b.toNat / 16) :: (b.toNat % 16 * 4 + c.toNat / 64) :: c.toNat % 64 ::
      sextets rest

/-- The alphabet -/
def letter (d : Nat) : UInt8 :=
  if d < 26 then UInt8.ofNat (d + 65)
  else if d < 52 then UInt8.ofNat (d - 26 + 97)
  else if d < 62 then UInt8.ofNat (d - 52 + 48)
  else if d = 62 then 43
  else 47

def encode (bytes : List UInt8) : List UInt8 := (sextets bytes).map letter

/-- The signs that fill the last group of letters up to four -/
def padding (bytes : List UInt8) : List UInt8 := List.replicate ((3 - bytes.length % 3) % 3) 61

/-- The bytes that are complete after each group of six bits, with the number so far and how many of its last bits
no byte has yet -/
def regroup (value held : Nat) : List Nat → List UInt8
  | [] => []
  | d :: ds =>
    if 8 ≤ held + 6 then
      UInt8.ofNat ((value * 64 + d) / 2^(held - 2)) :: regroup (value * 64 + d) (held - 2) ds
    else regroup (value * 64 + d) (held + 6) ds

theorem sextets_lt (bytes : List UInt8) : ∀ d ∈ sextets bytes, d < 64 := by
  induction bytes using sextets.induct with
  | case1 => simp only [sextets,List.not_mem_nil,false_implies,implies_true]
  | case2 a =>
    have := a.toNat_lt
    simp only [sextets,List.forall_mem_cons,List.not_mem_nil,false_implies,implies_true,and_true]
    omega
  | case3 a b =>
    have := a.toNat_lt
    have := b.toNat_lt
    simp only [sextets,List.forall_mem_cons,List.not_mem_nil,false_implies,implies_true,and_true]
    omega
  | case4 a b c rest ih =>
    have := a.toNat_lt
    have := b.toNat_lt
    have := c.toNat_lt
    simp only [sextets,List.forall_mem_cons]
    exact ⟨by omega,by omega,by omega,by omega,ih⟩

theorem byte_eq {n : Nat} {b : UInt8} (same : n % 256 = b.toNat) : UInt8.ofNat n = b := by
  apply UInt8.toNat_inj.mp
  rw [UInt8.toNat_ofNat']
  exact same

/-- Whatever the number holds above them, the six-bit groups of the bytes give the bytes back. -/
theorem regroup_sextets (bytes : List UInt8) (value : Nat) : regroup value 0 (sextets bytes) = bytes := by
  induction bytes using sextets.induct generalizing value with
  | case1 => rfl
  | case2 a =>
    have := a.toNat_lt
    have first : UInt8.ofNat (((value * 64 + a.toNat / 4) * 64 + a.toNat % 4 * 16) / 2^4) = a := byte_eq (by omega)
    simp only [sextets,regroup,Nat.reduceAdd,Nat.reduceLeDiff,if_true,if_false,Nat.reduceSub,first]
  | case3 a b =>
    have := a.toNat_lt
    have := b.toNat_lt
    have first : UInt8.ofNat (((value * 64 + a.toNat / 4) * 64 + (a.toNat % 4 * 16 + b.toNat / 16)) / 2^4) = a :=
      byte_eq (by omega)
    have second : UInt8.ofNat ((((value * 64 + a.toNat / 4) * 64 + (a.toNat % 4 * 16 + b.toNat / 16)) * 64 +
        b.toNat % 16 * 4) / 2^2) = b := byte_eq (by omega)
    simp only [sextets,regroup,Nat.reduceAdd,Nat.reduceLeDiff,if_true,if_false,Nat.reduceSub,first,second]
  | case4 a b c rest ih =>
    have := a.toNat_lt
    have := b.toNat_lt
    have := c.toNat_lt
    have first : UInt8.ofNat (((value * 64 + a.toNat / 4) * 64 + (a.toNat % 4 * 16 + b.toNat / 16)) / 2^4) = a :=
      byte_eq (by omega)
    have second : UInt8.ofNat ((((value * 64 + a.toNat / 4) * 64 + (a.toNat % 4 * 16 + b.toNat / 16)) * 64 +
        (b.toNat % 16 * 4 + c.toNat / 64)) / 2^2) = b := byte_eq (by omega)
    have third : UInt8.ofNat (((((value * 64 + a.toNat / 4) * 64 + (a.toNat % 4 * 16 + b.toNat / 16)) * 64 +
        (b.toNat % 16 * 4 + c.toNat / 64)) * 64 + c.toNat % 64) / 2^0) = c := byte_eq (by omega)
    simp only [sextets,regroup,Nat.reduceAdd,Nat.reduceLeDiff,if_true,if_false,Nat.reduceSub,first,second,third,ih]

/-- The number grows with each group. -/
theorem le_value (digits : List Nat) (value : Nat) : value ≤ digits.foldl (fun v d => v * 64 + d) value := by
  induction digits generalizing value with
  | nil => exact Nat.le_refl _
  | cons d ds ih =>
    calc value ≤ value * 64 + d := by omega
      _ ≤ ds.foldl (fun v d => v * 64 + d) (value * 64 + d) := ih _

end Oscan.Library.Base64
