import Oscan.Library.Base64
import Oscan.Library.Utf8
import Oscan.Runtime.Strings
import Mathlib.Data.List.TakeWhile

/-! Certificates of a trust file, whose bytes stand there as base64 text. -/
namespace Oscan.Runtime.Certificate
open Library Library.Lockstep Library.Base64 Strings

/-- A text and its length, a `size_t` -/
structure Source where
  data : Str
  short : data.length < 2^64

def b64Value (c : UInt8) : Int :=
  if 65 ≤ c ∧ c ≤ 90 then c.toNat - 65
  else if 97 ≤ c ∧ c ≤ 122 then c.toNat - 97 + 26
  else if 48 ≤ c ∧ c ≤ 57 then c.toNat - 48 + 52
  else if c = 43 then 62
  else if c = 47 then 63
  else -1

/-- The carriage return, the line feed, the tab and the space -/
def isBlank (c : UInt8) : Bool := c == 13 || c == 10 || c == 9 || c == 32

/-- `val << 6`, which has no defined outcome unless the number shifted is an `int` again -/
def shifted (val : Nat) : Outcome Nat := (int32 (val <<< 6 : Nat)).map Int.toNat

/-- The loop of `osc_tls_decode_base64` over a buffer of the given size; nothing stands for `NULL`. -/
def decodeFrom (size : Nat) : Str → Nat → Int → Str → Outcome (Option Str)
  | [],_,_,out => .ok (some out)
  | c :: rest,val,valb,out =>
    if c = 61 then .ok (some out)
    else if isBlank c then decodeFrom size rest val valb out
    else
      let d := b64Value c
      if d < 0 then .ok none
      else
        (shifted val).bind fun val =>
        let val := val ||| d.toNat
        (int32 (valb + 6)).bind fun valb =>
        if 0 ≤ valb then
          (write size out [UInt8.ofNat (val >>> valb.toNat &&& 0xFF)]).bind fun out =>
          (int32 (valb - 8)).bind fun valb => decodeFrom size rest val valb out
        else decodeFrom size rest val valb out

/-- `(len / 4u) * 3u + 3u` -/
def bufferSize (len : Nat) : Nat := (len / 4 * 3 + 3) % 2^64

/-- `osc_tls_decode_base64`, with memory for the buffer or without -/
def decodeBase64 (granted : Bool) (src : Source) : Outcome (Option Str) :=
  if granted then decodeFrom (bufferSize src.data.length) src.data 0 (-8) [] else .ok none

/-- The text up to the padding without its blanks -/
def body (src : Str) : Str := (src.takeWhile (· ≠ 61)).filter fun c => !isBlank c

def inAlphabet (c : UInt8) : Bool := 0 ≤ b64Value c

/-- The values of the letters that the loop reaches -/
def digits (src : Str) : List Nat := ((body src).takeWhile inAlphabet).map fun c => (b64Value c).toNat

theorem body_padding (rest : Str) : body (61 :: rest) = [] := rfl

theorem body_blank {c : UInt8} (other : c ≠ 61) (blank : isBlank c = true) (rest : Str) : body (c :: rest) = body rest := by
  rw [body,List.takeWhile_cons_of_pos (by simpa using other),List.filter_cons_of_neg (by simpa using blank)]
  rfl

theorem body_letter {c : UInt8} (other : c ≠ 61) (visible : isBlank c = false) (rest : Str) :
    body (c :: rest) = c :: body rest := by
  rw [body,List.takeWhile_cons_of_pos (by simpa using other),List.filter_cons_of_pos (by simpa using visible)]
  rfl

theorem b64Value_lt (c : UInt8) : b64Value c < 64 := by
  have bytes : ∀ n < 256, b64Value (UInt8.ofNat n) < 64 := by decide +kernel
  exact Utf8.byte_cases (fun c => b64Value c < 64) bytes c

/-- No shift of the digits that follow a number overflows: it only passes 31 bits with the last of them. -/
def Fits (val : Nat) (ds : List Nat) : Prop := ds ≠ [] → ds.dropLast.foldl (fun v d => v * 64 + d) val < 2^25

instance (val : Nat) (ds : List Nat) : Decidable (Fits val ds) := inferInstanceAs (Decidable (_ → _))

theorem fits_nil (val : Nat) : Fits val [] := fun nonempty => absurd rfl nonempty

theorem fits_cons (val d : Nat) (ds : List Nat) : Fits val (d :: ds) ↔ val < 2^25 ∧ Fits (val * 64 + d) ds := by
  cases ds with
  | nil => simp [Fits]
  | cons e es =>
    have grows := le_value (e :: es).dropLast (val * 64 + d)
    simp only [Fits,ne_eq,reduceCtorEq,not_false_eq_true,forall_const,List.dropLast_cons_cons,List.foldl_cons]
    constructor
    · intro small
      exact ⟨by omega,small⟩
    · intro both
      exact both.2

theorem shifted_ok {val : Nat} (small : val < 2^25) : shifted val = .ok (val <<< 6) := by
  have fits : int32 ((val <<< 6 : Nat) : Int) = .ok ((val <<< 6 : Nat) : Int) := by
    rw [int32_natural,if_pos]
    rw [Nat.shiftLeft_eq]
    unfold Strings.int32Max
    omega
  rw [shifted,fits]
  rfl

theorem shifted_undefined {val : Nat} (large : ¬val < 2^25) : shifted val = .undefined := by
  have beyond : int32 ((val <<< 6 : Nat) : Int) = .undefined := by
    rw [int32_natural,if_neg]
    rw [Nat.shiftLeft_eq]
    unfold Strings.int32Max
    omega
  rw [shifted,beyond]
  rfl

theorem complement (x : Nat) : UInt8.ofNat (x &&& 0xFF) = UInt8.ofNat x := by
  apply byte_eq
  rw [UInt8.toNat_ofNat',Nat.and_two_pow_sub_one_eq_mod x 8,Nat.mod_mod]

/-- One letter more: the number holds its bits below those before, and a byte that is complete is written. -/
theorem decodeFrom_letter {size : Nat} {c : UInt8} {rest : Str} {val held : Nat} {out : Str} (other : c ≠ 61)
    (visible : isBlank c = false) (known : 0 ≤ b64Value c) (few : held ≤ 7)
    (room : out.length * 8 + held + 6 ≤ size * 8) : decodeFrom size (c :: rest) val (held - 8) out =
      if val < 2^25 then
        if 8 ≤ held + 6 then
          decodeFrom size rest (val * 64 + (b64Value c).toNat) ((held - 2 : Nat) - 8)
            (out ++ [UInt8.ofNat ((val * 64 + (b64Value c).toNat) / 2^(held - 2))])
        else decodeFrom size rest (val * 64 + (b64Value c).toNat) ((held + 6 : Nat) - 8) out
      else .undefined := by
  have digit : (b64Value c).toNat < 2^6 := by
    have := b64Value_lt c
    omega
  have joined : val <<< 6 ||| (b64Value c).toNat = val * 64 + (b64Value c).toNat := Utf8.shift_or _ _ 6 digit
  have sum : int32 ((held : Int) - 8 + 6) = .ok ((held : Int) - 2) := by
    rw [int32_ok (by unfold CInt.Fits; omega)]
    congr 1
    omega
  rw [decodeFrom,if_neg other,if_neg (by simp [visible])]
  simp only [if_neg (Int.not_lt.mpr known),sum,Outcome.bind_ok]
  by_cases small : val < 2^25
  · rw [shifted_ok small,if_pos small,Outcome.bind_ok,joined]
    by_cases complete : 8 ≤ held + 6
    · have place : ((held : Int) - 2).toNat = held - 2 := by omega
      have after : int32 ((held : Int) - 2 - 8) = .ok (((held - 2 : Nat) : Int) - 8) := by
        rw [int32_ok (by unfold CInt.Fits; omega)]
        congr 1
        omega
      rw [if_pos (show (0 : Int) ≤ held - 2 by omega),if_pos complete,place,after,complement,
        Nat.shiftRight_eq_div_pow,write_ok (by rw [List.length_append,List.length_singleton]; omega),Outcome.bind_ok,
        Outcome.bind_ok]
    · have same : (held : Int) - 2 = (held + 6 : Nat) - 8 := by omega
      rw [if_neg (show ¬(0 : Int) ≤ held - 2 by omega),if_neg complete,same]
  · rw [shifted_undefined small,if_neg small]
    rfl

theorem digits_nil {src : Str} (none : body src = []) : digits src = [] := by rw [digits,none]; rfl

theorem digits_letter {c : UInt8} {rest src : Str} (first : body src = c :: body rest) (known : 0 ≤ b64Value c) :
    digits src = (b64Value c).toNat :: digits rest := by
  rw [digits,first,List.takeWhile_cons_of_pos (by simpa [inAlphabet] using known)]
  rfl

/-- The loop writes the bytes of the letters it reaches, unless a number becomes too long before the last one. -/
theorem decodeFrom_eq {size : Nat} (src : Str) (val held : Nat) (out : Str) (few : held ≤ 7)
    (room : out.length * 8 + held + 6 * src.length ≤ size * 8) : decodeFrom size src val (held - 8) out =
      if Fits val (digits src) then
        .ok (if (body src).all inAlphabet then some (out ++ regroup val held (digits src)) else none)
      else .undefined := by
  induction src generalizing val held out with
  | nil => simp [decodeFrom,digits,body,Fits,regroup]
  | cons c rest ih =>
    rw [List.length_cons] at room
    by_cases padded : c = 61
    · have nothing : body (c :: rest) = [] := padded ▸ body_padding rest
      rw [decodeFrom,if_pos padded,digits_nil nothing,nothing,if_pos (fits_nil _)]
      simp [regroup]
    by_cases blank : isBlank c = true
    · have same := body_blank padded blank rest
      rw [decodeFrom,if_neg padded,if_pos blank,ih _ _ _ few (by omega),digits,digits,same]
    have visible : isBlank c = false := Bool.not_eq_true _ ▸ blank
    have first := body_letter padded visible rest
    by_cases known : 0 ≤ b64Value c
    · have letters := digits_letter first known
      have all : (body (c :: rest)).all inAlphabet = (body rest).all inAlphabet := by
        rw [first,List.all_cons,inAlphabet,decide_eq_true known,Bool.true_and]
      rw [decodeFrom_letter padded visible known few (by omega),letters,all]
      simp only [fits_cons,regroup]
      by_cases small : val < 2^25
      · rw [if_pos small]
        simp only [small,true_and]
        split
        next complete =>
          rw [ih _ _ _ (by omega) (by rw [List.length_append,List.length_singleton]; omega),List.append_assoc]
          rfl
        next partly => rw [ih _ _ _ (by omega) (by omega)]
      · rw [if_neg small,if_neg fun both => small both.1]
    · have outside : inAlphabet c = false := decide_eq_false known
      have none : digits (c :: rest) = [] := by
        rw [digits,first,List.takeWhile_cons_of_neg (by simp [outside])]
        rfl
      rw [decodeFrom,if_neg padded,if_neg blank,none,first,List.all_cons,outside,if_pos (fits_nil _)]
      simp only [if_pos (Int.not_le.mp known),Bool.false_and,Bool.false_eq_true,if_false]

theorem bufferSize_enough (src : Source) : 6 * src.data.length ≤ bufferSize src.data.length * 8 := by
  have short := src.short
  unfold bufferSize
  omega

theorem decodeBase64_eq (src : Source) : decodeBase64 true src =
    if Fits 0 (digits src.data) then
      .ok (if (body src.data).all inAlphabet then some (regroup 0 0 (digits src.data)) else none)
    else .undefined := by
  have room : ([] : Str).length * 8 + 0 + 6 * src.data.length ≤ bufferSize src.data.length * 8 := by
    have := bufferSize_enough src
    rw [List.length_nil]
    omega
  rw [decodeBase64,if_pos rfl]
  exact decodeFrom_eq src.data 0 0 [] (Nat.zero_le _) room

theorem letter_facts : ∀ d < 64, letter d ≠ 61 ∧ isBlank (letter d) = false ∧ b64Value (letter d) = d := by decide

/-- The text is that of the bytes, with blanks at any places and with the padding or without it. -/
def TextOf (src bytes : Str) : Prop :=
  src.filter (fun c => !isBlank c) = encode bytes ∨ src.filter (fun c => !isBlank c) = encode bytes ++ padding bytes

theorem body_filter (src : Str) : body src = (src.filter fun c => !isBlank c).takeWhile (· ≠ 61) := by
  induction src with
  | nil => rfl
  | cons c rest ih =>
    by_cases padded : c = 61
    · rw [padded]
      rfl
    by_cases blank : isBlank c = true
    · rw [body_blank padded blank,ih,List.filter_cons_of_neg (by simpa using blank)]
    · rw [body_letter padded (Bool.not_eq_true _ ▸ blank),ih,List.filter_cons_of_pos (by simpa using blank),
        List.takeWhile_cons_of_pos (by simpa using padded)]

theorem padding_signs (bytes : Str) : (padding bytes).takeWhile (· ≠ 61) = [] := by
  unfold padding
  cases (3 - bytes.length % 3) % 3 with
  | zero => rfl
  | succ n => rfl

theorem body_text {src bytes : Str} (text : TextOf src bytes) : body src = encode bytes := by
  have letters : ∀ c ∈ encode bytes, decide (c ≠ 61) = true := by
    intro c member
    obtain ⟨d,listed,rfl⟩ := List.mem_map.mp member
    exact decide_eq_true (letter_facts d (sextets_lt bytes d listed)).1
  rw [body_filter]
  rcases text with plain | padded
  · rw [plain]
    exact List.takeWhile_eq_self_iff.mpr letters
  · rw [padded,List.takeWhile_append_of_pos letters,padding_signs,List.append_nil]

theorem encode_known {bytes : Str} : ∀ c ∈ encode bytes, inAlphabet c = true := by
  intro c member
  obtain ⟨d,listed,rfl⟩ := List.mem_map.mp member
  rw [inAlphabet,(letter_facts d (sextets_lt bytes d listed)).2.2]
  exact decide_eq_true (Int.natCast_nonneg d)

theorem digits_text {src bytes : Str} (text : TextOf src bytes) : digits src = sextets bytes := by
  rw [digits,body_text text,List.takeWhile_eq_self_iff.mpr encode_known,encode,List.map_map]
  refine (List.map_congr_left fun d listed => ?_).trans (List.map_id _)
  exact congrArg Int.toNat (letter_facts d (sextets_lt bytes d listed)).2.2

/-- What is asked of the decoder: no text takes it beyond its buffer or its numbers beyond their type, the text of
some bytes gives them back, and a sign of no meaning before the padding makes it refuse. -/
structure Decodes (src : Source) : Prop where
  defined : ∀ granted, decodeBase64 granted src ≠ .undefined
  exact : ∀ bytes, TextOf src.data bytes → decodeBase64 true src = .ok (some bytes)
  refuses : (∃ c ∈ src.data.takeWhile (· ≠ 61), isBlank c = false ∧ inAlphabet c = false) →
    ∀ granted, decodeBase64 granted src = .ok none

/-- A base64 text is decoded as it should exactly if its letters but the last are a number below 2^25. -/
theorem base64_decodes_iff (src : Source) : Decodes src ↔
    (digits src.data).dropLast.foldl (fun v d => v * 64 + d) 0 < 2^25 := by
  have nonempty : (digits src.data).dropLast.foldl (fun v d => v * 64 + d) 0 < 2^25 ↔ Fits 0 (digits src.data) := by
    cases digits src.data with
    | nil => simp [Fits]
    | cons d ds => simp [Fits]
  rw [nonempty]
  constructor
  · intro decodes
    by_contra large
    apply decodes.defined true
    rw [decodeBase64_eq,if_neg large]
  · intro small
    have run := decodeBase64_eq src
    rw [if_pos small] at run
    refine ⟨?_,?_,?_⟩
    · intro granted
      cases granted with
      | true =>
        rw [run]
        exact fun h => nomatch h
      | false => exact fun h => nomatch h
    · intro bytes text
      rw [run,body_text text,if_pos (List.all_eq_true.mpr encode_known),digits_text text,regroup_sextets]
    · rintro ⟨c,before,visible,outside⟩ granted
      cases granted with
      | true =>
        have inside : c ∈ body src.data := List.mem_filter.mpr ⟨before,by rw [visible]; rfl⟩
        rw [run,if_neg]
        intro all
        rw [List.all_eq_true.mp all c inside] at outside
        cases outside
      | false => rfl

/-- The six letters of `gggggg` shift a number of 30 bits. -/
theorem base64_overflows : ¬Decodes ⟨[103,103,103,103,103,103],by decide⟩ := by
  intro decodes
  exact decodes.defined true (by decide)

end Oscan.Runtime.Certificate
