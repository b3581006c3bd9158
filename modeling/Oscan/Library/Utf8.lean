import Mathlib.Data.Nat.Bitwise
import Mathlib.Data.List.Basic

/-! The encoding of scalar values in one to four bytes: what a lead byte announces, and the bits of the value
that each byte carries. -/
namespace Oscan.Library.Utf8
open String (utf8EncodeChar)

/-- How many bytes a byte announces when it comes first; one that cannot come first announces itself. -/
def announced (lead : UInt8) : Nat :=
  if lead &&& 0xE0 = 0xC0 then 2
  else if lead &&& 0xF0 = 0xE0 then 3
  else if lead &&& 0xF8 = 0xF0 then 4
  else 1

/-- The bytes begin with the encoding of a scalar value. -/
def StartsScalar (bytes : List UInt8) : Prop := ∃ c : Char, utf8EncodeChar c <+: bytes

/-- The six bits of a continuation byte -/
def low (b : UInt8) : Nat := (b &&& 0x3F).toNat

/-- The value in the bits of a sequence as long as its lead byte announces -/
def assembled : List UInt8 → Nat
  | [] => 0
  | [c] => c.toNat
  | [c,b] => (c &&& 0x1F).toNat <<< 6 ||| low b
  | [c,b,d] => (c &&& 0x0F).toNat <<< 12 ||| low b <<< 6 ||| low d
  | c :: b :: d :: e :: _ => (c &&& 0x07).toNat <<< 18 ||| low b <<< 12 ||| low d <<< 6 ||| low e

theorem toNat_mask (b : UInt8) (k : Nat) (few : k < 8) : (b &&& UInt8.ofNat (2^k - 1)).toNat = b.toNat % 2^k := by
  have small : 2^k - 1 < 2^8 := by
    have := Nat.pow_lt_pow_right (show 1 < 2 by omega) few
    omega
  rw [UInt8.toNat_and,UInt8.toNat_ofNat',Nat.mod_eq_of_lt small,Nat.and_two_pow_sub_one_eq_mod]

theorem low_eq (b : UInt8) : low b = b.toNat % 64 := toNat_mask b 6 (by decide)

theorem low_lt (b : UInt8) : low b < 64 := by
  rw [low_eq]
  exact Nat.mod_lt _ (by decide)

theorem byte_cases (P : UInt8 → Prop) (each : ∀ n < 256, P (UInt8.ofNat n)) (b : UInt8) : P b := by
  have := each b.toNat b.toNat_lt
  rwa [UInt8.ofNat_toNat] at this

theorem two_iff (b : UInt8) : b &&& 0xE0 = 0xC0 ↔ 192 ≤ b.toNat ∧ b.toNat < 224 :=
  byte_cases (fun b => b &&& 0xE0 = 0xC0 ↔ 192 ≤ b.toNat ∧ b.toNat < 224) (by decide +kernel) b

theorem three_iff (b : UInt8) : b &&& 0xF0 = 0xE0 ↔ 224 ≤ b.toNat ∧ b.toNat < 240 :=
  byte_cases (fun b => b &&& 0xF0 = 0xE0 ↔ 224 ≤ b.toNat ∧ b.toNat < 240) (by decide +kernel) b

theorem four_iff (b : UInt8) : b &&& 0xF8 = 0xF0 ↔ 240 ≤ b.toNat ∧ b.toNat < 248 :=
  byte_cases (fun b => b &&& 0xF8 = 0xF0 ↔ 240 ≤ b.toNat ∧ b.toNat < 248) (by decide +kernel) b

theorem announced_one {b : UInt8} (other : b.toNat < 192 ∨ 248 ≤ b.toNat) : announced b = 1 := by
  have two : ¬b &&& 0xE0 = 0xC0 := fun form => by have := (two_iff b).mp form; omega
  have three : ¬b &&& 0xF0 = 0xE0 := fun form => by have := (three_iff b).mp form; omega
  have four : ¬b &&& 0xF8 = 0xF0 := fun form => by have := (four_iff b).mp form; omega
  rw [announced,if_neg two,if_neg three,if_neg four]

theorem announced_two {b : UInt8} (form : b &&& 0xE0 = 0xC0) : announced b = 2 := if_pos form

theorem announced_three {b : UInt8} (form : b &&& 0xF0 = 0xE0) : announced b = 3 := by
  have two : ¬b &&& 0xE0 = 0xC0 := fun other => by
    have := (two_iff b).mp other
    have := (three_iff b).mp form
    omega
  rw [announced,if_neg two,if_pos form]

theorem announced_four {b : UInt8} (form : b &&& 0xF8 = 0xF0) : announced b = 4 := by
  have range := (four_iff b).mp form
  have two : ¬b &&& 0xE0 = 0xC0 := fun other => by have := (two_iff b).mp other; omega
  have three : ¬b &&& 0xF0 = 0xE0 := fun other => by have := (three_iff b).mp other; omega
  rw [announced,if_neg two,if_neg three,if_pos form]

/-- The three tests of a byte, by what it announces -/
theorem announced_cases (b : UInt8) :
    announced b = 1 ∧ (b &&& 0xE0 == 0xC0) = false ∧ (b &&& 0xF0 == 0xE0) = false ∧ (b &&& 0xF8 == 0xF0) = false ∨
    announced b = 2 ∧ ¬b < 0x80 ∧ (b &&& 0xE0 == 0xC0) = true ∧ (b &&& 0xF0 == 0xE0) = false ∧
      (b &&& 0xF8 == 0xF0) = false ∨
    announced b = 3 ∧ ¬b < 0x80 ∧ (b &&& 0xE0 == 0xC0) = false ∧ (b &&& 0xF0 == 0xE0) = true ∧
      (b &&& 0xF8 == 0xF0) = false ∨
    announced b = 4 ∧ ¬b < 0x80 ∧ (b &&& 0xE0 == 0xC0) = false ∧ (b &&& 0xF0 == 0xE0) = false ∧
      (b &&& 0xF8 == 0xF0) = true := by
  apply byte_cases _ _ b
  decide +kernel

theorem announced_pos (b : UInt8) : 1 ≤ announced b := by
  unfold announced
  split
  · omega
  · split
    · omega
    · split <;> omega

theorem shift_or (a b k : Nat) (few : b < 2^k) : a <<< k ||| b = a * 2^k + b := by
  rw [← Nat.shiftLeft_add_eq_or_of_lt few,Nat.shiftLeft_eq]

theorem low_ofNat (v : Nat) : low (UInt8.ofNat (v % 64 + 128)) = v % 64 := by
  rw [low_eq,UInt8.toNat_ofNat']
  omega

section Encoding
variable (c : Char)

theorem encode_one (small : c.val.toNat ≤ 0x7f) : utf8EncodeChar c = [UInt8.ofNat c.val.toNat] := if_pos small

theorem encode_two (large : ¬c.val.toNat ≤ 0x7f) (small : c.val.toNat ≤ 0x7ff) :
    utf8EncodeChar c = [UInt8.ofNat (c.val.toNat / 64 % 32 + 192),UInt8.ofNat (c.val.toNat % 64 + 128)] :=
  (if_neg large).trans (if_pos small)

theorem encode_three (large : ¬c.val.toNat ≤ 0x7ff) (small : c.val.toNat ≤ 0xffff) :
    utf8EncodeChar c = [UInt8.ofNat (c.val.toNat / 4096 % 16 + 224),
      UInt8.ofNat (c.val.toNat / 64 % 64 + 128),UInt8.ofNat (c.val.toNat % 64 + 128)] := by
  have larger : ¬c.val.toNat ≤ 0x7f := by omega
  exact (if_neg larger).trans ((if_neg large).trans (if_pos small))

theorem encode_four (large : ¬c.val.toNat ≤ 0xffff) :
    utf8EncodeChar c = [UInt8.ofNat (c.val.toNat / 262144 % 8 + 240),UInt8.ofNat (c.val.toNat / 4096 % 64 + 128),
      UInt8.ofNat (c.val.toNat / 64 % 64 + 128),UInt8.ofNat (c.val.toNat % 64 + 128)] := by
  have larger : ¬c.val.toNat ≤ 0x7f := by omega
  have larger' : ¬c.val.toNat ≤ 0x7ff := by omega
  exact (if_neg larger).trans ((if_neg larger').trans (if_neg large))

theorem scalar_lt : c.val.toNat < 0x110000 := by
  rcases c.valid with below | ⟨-,below⟩
  · have : c.val.toNat < 0xd800 := below
    omega
  · exact below

theorem announced_encode (c : Char) : ∃ lead rest, utf8EncodeChar c = lead :: rest ∧
    announced lead = (utf8EncodeChar c).length := by
  have below := scalar_lt c
  by_cases one : c.val.toNat ≤ 0x7f
  · refine ⟨_,_,encode_one c one,?_⟩
    rw [encode_one c one,List.length_singleton]
    apply announced_one
    rw [UInt8.toNat_ofNat']
    omega
  by_cases two : c.val.toNat ≤ 0x7ff
  · refine ⟨_,_,encode_two c one two,?_⟩
    rw [encode_two c one two]
    apply announced_two
    rw [two_iff,UInt8.toNat_ofNat']
    omega
  by_cases three : c.val.toNat ≤ 0xffff
  · refine ⟨_,_,encode_three c two three,?_⟩
    rw [encode_three c two three]
    apply announced_three
    rw [three_iff,UInt8.toNat_ofNat']
    omega
  · refine ⟨_,_,encode_four c three,?_⟩
    rw [encode_four c three]
    apply announced_four
    rw [four_iff,UInt8.toNat_ofNat']
    omega

/-- The bits of an encoding are those of the scalar value. -/
theorem assembled_encode (c : Char) : assembled (utf8EncodeChar c) = c.val.toNat := by
  have below := scalar_lt c
  by_cases one : c.val.toNat ≤ 0x7f
  · rw [encode_one c one,assembled,UInt8.toNat_ofNat']
    omega
  by_cases two : c.val.toNat ≤ 0x7ff
  · rw [encode_two c one two,assembled,low_ofNat,shift_or _ (_ % 64) 6 (Nat.mod_lt _ (by decide))]
    have lead := toNat_mask (UInt8.ofNat (c.val.toNat / 64 % 32 + 192)) 5 (by decide)
    rw [UInt8.toNat_ofNat'] at lead
    change (_ &&& 0x1F : UInt8).toNat = _ at lead
    rw [lead]
    omega
  by_cases three : c.val.toNat ≤ 0xffff
  · rw [encode_three c two three,assembled,low_ofNat,low_ofNat,Nat.or_assoc,
      shift_or _ (_ % 64) 6 (Nat.mod_lt _ (by decide)),shift_or _ _ 12 (by omega)]
    have lead := toNat_mask (UInt8.ofNat (c.val.toNat / 4096 % 16 + 224)) 4 (by decide)
    rw [UInt8.toNat_ofNat'] at lead
    change (_ &&& 0x0F : UInt8).toNat = _ at lead
    rw [lead]
    omega
  · rw [encode_four c three,assembled,low_ofNat,low_ofNat,low_ofNat,Nat.or_assoc,Nat.or_assoc,
      shift_or _ (_ % 64) 6 (Nat.mod_lt _ (by decide)),shift_or _ _ 12 (by omega),shift_or _ _ 18 (by omega)]
    have lead := toNat_mask (UInt8.ofNat (c.val.toNat / 262144 % 8 + 240)) 3 (by decide)
    rw [UInt8.toNat_ofNat'] at lead
    change (_ &&& 0x07 : UInt8).toNat = _ at lead
    rw [lead]
    omega

end Encoding

/-- An encoding that the bytes begin with is the sequence that their first byte announces. -/
theorem taken {bytes : List UInt8} {c : Char} (begins : utf8EncodeChar c <+: bytes) :
    ∃ lead rest, bytes = lead :: rest ∧ bytes.take (announced lead) = utf8EncodeChar c ∧
      announced lead = (utf8EncodeChar c).length := by
  obtain ⟨more,split⟩ := begins
  obtain ⟨lead,rest,encoded,count⟩ := announced_encode c
  refine ⟨lead,rest ++ more,?_,?_,count⟩
  · rw [← split,encoded]
    rfl
  · rw [count,← split,List.take_left']
    rfl

end Oscan.Library.Utf8
