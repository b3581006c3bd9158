import Oscan.Library.CInt
import Oscan.Runtime.Decimal
import Mathlib.Data.List.TakeWhile

/-! Which texts the parsers of integers read, and with what result. The digits of a text are those that follow its
leading whitespace and sign. -/
namespace Oscan.Runtime
open Library Library.Lockstep

/-- `osc_i32_to_str`: `snprintf` into 16 bytes, of which the last is for the terminator -/
def i32ToStr (n : CInt 32) : Outcome Str :=
  if 16 ≤ (decimal n.value).length then .panic "i32_to_str: snprintf failed" else .ok (decimal n.value)

/-- `osc_str_from_i64` copies as many bytes as `snprintf` reports from a buffer of 32. -/
def strFromI64 (n : CInt 64) : Outcome Str :=
  if 32 ≤ (decimal n.value).length then .undefined else .ok (decimal n.value)

/-- The two widths of integers that have a text -/
inductive IntegerWidth where
  | i32 | i64

namespace IntegerWidth

def bits : IntegerWidth → Nat
  | i32 => 32
  | i64 => 64

def format : (w : IntegerWidth) → CInt w.bits → Outcome Str
  | i32,n => i32ToStr n
  | i64,n => strFromI64 n

def parse : IntegerWidth → Str → Except String Int
  | i32 => parseI32
  | i64 => parseI64

def max : IntegerWidth → Nat
  | i32 => 2147483647
  | i64 => 9223372036854775807

end IntegerWidth

/-! What stands in a text -/

inductive Sign where
  | none | plus | minus

namespace Sign

def text : Sign → Str
  | none => []
  | plus => [43]
  | minus => [45]

def apply (n : Nat) : Sign → Int
  | minus => -n
  | _ => n

end Sign

def magnitude (digits : Str) : Nat := digitsValue 0 (digits.map fun c => c.toNat - 48)

/-- The whole text is leading whitespace, a sign or none, and digits of a number in range. -/
def Denotes (max : Nat) (s : Str) (v : Int) : Prop :=
  ∃ (spaces : Str) (sign : Sign) (digits : Str), s = spaces ++ sign.text ++ digits ∧ (∀ c ∈ spaces, isSpace c = true) ∧
    digits ≠ [] ∧ (∀ c ∈ digits, isDigit c = true) ∧ v = sign.apply (magnitude digits) ∧ -(max + 1) ≤ v ∧ v ≤ max

def signOf (s : Str) : Sign :=
  match s.dropWhile isSpace with
  | [] => .none
  | c :: _ => if c = 45 then .minus else if c = 43 then .plus else .none

def unsigned (s : Str) : Str :=
  match s.dropWhile isSpace with
  | [] => []
  | c :: cs => if c = 45 ∨ c = 43 then cs else c :: cs

def digitsOf (s : Str) : Str := (unsigned s).takeWhile isDigit

def behind (s : Str) : Str := (unsigned s).dropWhile isDigit

/-- A text that is a number in range as a whole -/
def InRange (max : Nat) (s : Str) : Prop :=
  digitsOf s ≠ [] ∧ behind s = [] ∧ -(max + 1) ≤ (signOf s).apply (magnitude (digitsOf s)) ∧
    (signOf s).apply (magnitude (digitsOf s)) ≤ max

/-- What the parsers look at -/
def window (s : Str) : Str := s.take 63

/-- Either the window has no digits or too large ones, and the text is no number in range; or nothing stands behind
the digits of the text, and they are all in the window or all zeros. -/
def Readable (max : Nat) (s : Str) : Prop :=
  if digitsOf (window s) = [] ∨ max < magnitude (digitsOf (window s)) then ¬InRange max s
  else behind s = [] ∧ (digitsOf s = digitsOf (window s) ∨ ∀ c ∈ digitsOf s, c = 48)

/-! Lemmas about the values of digits -/

theorem digitsValue_append (val : Nat) (ds es : List Nat) :
    digitsValue val (ds ++ es) = digitsValue (digitsValue val ds) es := List.foldl_append

theorem digitsValue_cons (val d : Nat) (ds : List Nat) : digitsValue val (d :: ds) = digitsValue (val * 10 + d) ds := rfl

theorem digitsValue_zero : ∀ ds : List Nat, digitsValue 0 ds = 0 ↔ ∀ d ∈ ds, d = 0
  | [] => by simp [digitsValue]
  | d :: ds => by
    rw [digitsValue_cons]
    constructor
    · intro zero
      have grows := digitsValue_grows ds (0 * 10 + d)
      obtain rfl : d = 0 := by omega
      simpa using (digitsValue_zero ds).mp zero
    · intro zeros
      obtain rfl := zeros d List.mem_cons_self
      exact (digitsValue_zero ds).mpr fun e member => zeros e (List.mem_cons_of_mem _ member)

/-- Further digits keep a value only when it is zero and they are zeros. -/
theorem digitsValue_same {val : Nat} {ds : List Nat} (more : ds ≠ []) :
    digitsValue val ds = val ↔ val = 0 ∧ ∀ d ∈ ds, d = 0 := by
  constructor
  · intro same
    cases ds with
    | nil => exact absurd rfl more
    | cons d ds =>
      have grows := digitsValue_grows ds (val * 10 + d)
      rw [digitsValue_cons] at same
      obtain rfl : val = 0 := by omega
      exact ⟨rfl,(digitsValue_zero (d :: ds)).mp same⟩
  · intro ⟨zero,zeros⟩
    subst zero
    exact (digitsValue_zero ds).mpr zeros

theorem magnitude_append (ds es : Str) :
    magnitude (ds ++ es) = digitsValue (magnitude ds) (es.map fun c => c.toNat - 48) := by
  rw [magnitude,List.map_append,digitsValue_append,magnitude]

theorem digit_zero {c : UInt8} (digit : isDigit c = true) : c.toNat - 48 = 0 ↔ c = 48 := by
  simp only [isDigit,UInt8.le_iff_toNat_le,Bool.and_eq_true,decide_eq_true_eq] at digit
  rw [← UInt8.toNat_inj]
  have : (48 : UInt8).toNat = 48 := rfl
  omega

theorem magnitude_zero {ds : Str} (digits : ∀ c ∈ ds, isDigit c = true) : magnitude ds = 0 ↔ ∀ c ∈ ds, c = 48 := by
  rw [magnitude,digitsValue_zero,List.forall_mem_map]
  exact forall₂_congr fun c member => digit_zero (digits c member)

/-- The digit loop ends at the first other character. -/
theorem readDigits_eq {max : Nat} (room : 9 ≤ max) : ∀ (cs : Str) (val : Nat), val ≤ max →
    readDigits max val cs =
      let whole := digitsValue val ((cs.takeWhile isDigit).map fun c => c.toNat - 48)
      if whole ≤ max then some whole else none
  | [],val,fits => by simp [readDigits,digitsValue,fits]
  | c :: cs,val,fits => by
    by_cases digit : isDigit c = true
    · rw [readDigits,if_pos digit,List.takeWhile_cons_of_pos digit,List.map_cons,digitsValue_cons]
      have small : c.toNat - 48 ≤ 9 := by
        simp only [isDigit,UInt8.le_iff_toNat_le,Bool.and_eq_true,decide_eq_true_eq] at digit
        have : (57 : UInt8).toNat = 57 := rfl
        omega
      by_cases more : val * 10 + (c.toNat - 48) ≤ max
      · rw [if_neg (by omega)]
        exact readDigits_eq room cs _ more
      · rw [if_pos (by omega)]
        have grows := digitsValue_grows ((cs.takeWhile isDigit).map fun c => c.toNat - 48) (val * 10 + (c.toNat - 48))
        exact (if_neg (by omega)).symm
    · rw [readDigits,if_neg digit,List.takeWhile_cons_of_neg digit]
      simp [digitsValue,fits]

/-! A text is its leading whitespace, its sign, its digits and what stands behind. -/

theorem digit_unspaced {c : UInt8} (digit : isDigit c = true) : isSpace c = false := by
  simp only [isDigit,UInt8.le_iff_toNat_le,Bool.and_eq_true,decide_eq_true_eq] at digit
  rw [isSpace,← Bool.not_eq_true]
  simp only [Bool.or_eq_true,beq_iff_eq,Bool.and_eq_true,decide_eq_true_eq,UInt8.le_iff_toNat_le,← UInt8.toNat_inj]
  have : (48 : UInt8).toNat = 48 := rfl
  have : (32 : UInt8).toNat = 32 := rfl
  have : (13 : UInt8).toNat = 13 := rfl
  omega

theorem digit_unsigned {c : UInt8} (digit : isDigit c = true) : c ≠ 45 ∧ c ≠ 43 := by
  constructor
  · rintro rfl
    exact absurd digit (by decide)
  · rintro rfl
    exact absurd digit (by decide)

theorem sign_unsigned (s : Str) : (signOf s).text ++ unsigned s = s.dropWhile isSpace := by
  unfold signOf unsigned
  split
  next none => rw [none,List.append_nil,Sign.text]
  next c cs known =>
    rw [known]
    by_cases minus : c = 45
    · simp [minus,Sign.text]
    · by_cases plus : c = 43
      · simp [plus,Sign.text]
      · simp [minus,plus,Sign.text]

theorem parts (s : Str) : s = s.takeWhile isSpace ++ (signOf s).text ++ (digitsOf s ++ behind s) := by
  rw [digitsOf,behind,List.takeWhile_append_dropWhile,List.append_assoc,sign_unsigned,List.takeWhile_append_dropWhile]

theorem digitsOf_digits (s : Str) : ∀ c ∈ digitsOf s, isDigit c = true := fun _ member => List.mem_takeWhile_imp member

/-- The sign and the digits of a text that is made of them -/
theorem parts_of {spaces digits : Str} (sign : Sign) (space : ∀ c ∈ spaces, isSpace c = true)
    (digit : ∀ c ∈ digits, isDigit c = true) (some : digits ≠ []) :
    signOf (spaces ++ sign.text ++ digits) = sign ∧ unsigned (spaces ++ sign.text ++ digits) = digits := by
  obtain ⟨d,ds,rfl⟩ := List.exists_cons_of_ne_nil some
  have first := digit d List.mem_cons_self
  have start : (spaces ++ sign.text ++ d :: ds).dropWhile isSpace = sign.text ++ d :: ds := by
    rw [List.append_assoc,List.dropWhile_append_of_pos space]
    cases sign with
    | none => exact List.dropWhile_cons_of_neg (by simp [digit_unspaced first])
    | plus | minus => rfl
  unfold signOf unsigned
  rw [start]
  cases sign with
  | none => simp [Sign.text,digit_unsigned first]
  | plus | minus => simp [Sign.text]

theorem denotes_iff (max : Nat) (s : Str) (v : Int) :
    Denotes max s v ↔ InRange max s ∧ v = (signOf s).apply (magnitude (digitsOf s)) := by
  constructor
  · rintro ⟨spaces,sign,digits,rfl,space,some,digit,rfl,low,high⟩
    obtain ⟨signed,rest⟩ := parts_of sign space digit some
    have all : digits.takeWhile isDigit = digits := List.takeWhile_eq_self_iff.mpr digit
    have none : digits.dropWhile isDigit = [] := List.dropWhile_eq_nil_iff.mpr digit
    unfold InRange digitsOf behind
    rw [signed,rest,all,none]
    exact ⟨⟨some,rfl,low,high⟩,rfl⟩
  · rintro ⟨⟨some,whole,low,high⟩,rfl⟩
    refine ⟨s.takeWhile isSpace,signOf s,digitsOf s,?_,fun _ => List.mem_takeWhile_imp,some,digitsOf_digits s,rfl,low,high⟩
    have split := parts s
    rwa [whole,List.append_nil] at split

/-! What the parsers accept -/

theorem parseInteger_ok_iff (name : String) {max : Nat} (room : 9 ≤ max) (s : Str) (v : Int) :
    parseInteger name max s = .ok v ↔ digitsOf (window s) ≠ [] ∧ magnitude (digitsOf (window s)) ≤ max ∧
      v = (signOf (window s)).apply (magnitude (digitsOf (window s))) := by
  unfold parseInteger digitsOf signOf unsigned window
  cases (s.take 63).dropWhile isSpace with
  | nil => simp
  | cons c cs =>
    simp only
    generalize known : (if c = 45 ∨ c = 43 then cs else c :: cs) = body
    cases body with
    | nil => simp
    | cons d ds =>
      by_cases digit : isDigit d = true
      · have reads := readDigits_eq room (d :: ds) 0 (Nat.zero_le _)
        change readDigits max 0 (d :: ds) = if magnitude ((d :: ds).takeWhile isDigit) ≤ max then
          Option.some (magnitude ((d :: ds).takeWhile isDigit)) else none at reads
        have nonempty : (d :: ds).takeWhile isDigit ≠ [] := by simp [digit]
        have value (m : Nat) : (if c = 45 then -(m : Int) else m) =
            (if c = 45 then Sign.minus else if c = 43 then .plus else .none).apply m := by
          split
          next => rfl
          next => split <;> rfl
        simp only [digit,if_true,reads]
        generalize (d :: ds).takeWhile isDigit = digits at nonempty ⊢
        by_cases fits : magnitude digits ≤ max
        · simp only [fits,if_true,Except.ok.injEq,value]
          exact ⟨fun same => ⟨nonempty,trivial,same.symm⟩,fun same => same.2.2.symm⟩
        · simp [fits]
      · simp [digit]

/-- The text begins with what the parsers look at. -/
theorem window_parts (s : Str) (some : digitsOf (window s) ≠ []) :
    signOf s = signOf (window s) ∧ ∃ more, digitsOf s = digitsOf (window s) ++ more := by
  have whole : s = window s ++ s.drop 63 := (List.take_append_drop 63 s).symm
  generalize window s = t at whole some
  obtain ⟨c,cs,start⟩ : ∃ c cs, t.dropWhile isSpace = c :: cs := by
    apply List.exists_cons_of_ne_nil
    intro none
    simp [digitsOf,unsigned,none] at some
  have started : s.dropWhile isSpace = c :: (cs ++ s.drop 63) := by
    conv_lhs => rw [whole]
    rw [List.dropWhile_append,start]
    rfl
  constructor
  · simp only [signOf,start,started]
  · have longer : unsigned s = unsigned t ++ s.drop 63 := by
      simp only [unsigned,start,started]
      split <;> rfl
    rw [digitsOf,longer,List.takeWhile_append]
    split
    next all =>
      have same : (unsigned t).takeWhile isDigit = unsigned t :=
        List.IsPrefix.eq_of_length (List.takeWhile_prefix _) all
      exact ⟨_,by rw [digitsOf,same]⟩
    next => exact ⟨[],by rw [digitsOf,List.append_nil]⟩

theorem apply_injective {m n : Nat} (sign : Sign) (same : sign.apply m = sign.apply n) : m = n := by
  cases sign <;> simp only [Sign.apply] at same <;> omega

theorem apply_fits {max n : Nat} (sign : Sign) (fits : n ≤ max) :
    -(max + 1) ≤ sign.apply n ∧ sign.apply n ≤ max := by
  cases sign <;> simp only [Sign.apply] <;> omega

/-- A parser reads a text as it is meant exactly when the text is readable. -/
theorem parseInteger_reads_iff (name : String) {max : Nat} (room : 9 ≤ max) (s : Str) :
    (∀ v, parseInteger name max s = .ok v ↔ Denotes max s v) ↔ Readable max s := by
  simp only [parseInteger_ok_iff name room,denotes_iff]
  unfold Readable
  split
  next refused =>
    constructor
    · intro reads inRange
      obtain ⟨some,fits,-⟩ := (reads _).mpr ⟨inRange,rfl⟩
      exact refused.elim some (Nat.not_lt.mpr fits)
    · intro other v
      exact iff_of_false (fun read => refused.elim read.1 (Nat.not_lt.mpr read.2.1)) fun read => other read.1
  next accepted =>
    have some : digitsOf (window s) ≠ [] := fun no => accepted (.inl no)
    have fits : magnitude (digitsOf (window s)) ≤ max := Nat.not_lt.mp fun no => accepted (.inr no)
    obtain ⟨sign,more,digits⟩ := window_parts s some
    have digit : ∀ c ∈ more, isDigit c = true := fun c member =>
      digitsOf_digits s c (digits ▸ List.mem_append_right _ member)
    have same_iff : magnitude (digitsOf s) = magnitude (digitsOf (window s)) ↔
        digitsOf s = digitsOf (window s) ∨ ∀ c ∈ digitsOf s, c = 48 := by
      by_cases none : more = []
      · rw [none,List.append_nil] at digits
        exact iff_of_true (congrArg magnitude digits) (.inl digits)
      · have longer : digitsOf s ≠ digitsOf (window s) := by
          rw [digits]
          exact fun same => none (List.append_right_eq_self.mp same)
        have zero := magnitude_zero (digitsOf_digits (window s))
        have zeros : (∀ d ∈ more.map (fun c => c.toNat - 48), d = 0) ↔ ∀ c ∈ more, c = 48 := by
          rw [List.forall_mem_map]
          exact forall₂_congr fun c member => digit_zero (digit c member)
        rw [or_iff_right longer,digits,magnitude_append,digitsValue_same (by simpa using none),zeros,zero,
          List.forall_mem_append]
    constructor
    · intro reads
      obtain ⟨inRange,value⟩ := (reads _).mp ⟨some,fits,rfl⟩
      rw [sign] at value
      exact ⟨inRange.2.1,same_iff.mp (apply_injective _ value).symm⟩
    · intro ⟨whole,digits'⟩ v
      have same := same_iff.mpr digits'
      rw [sign,same]
      refine ⟨fun ⟨_,_,value⟩ => ⟨?_,value⟩,fun ⟨_,value⟩ => ⟨some,fits,value⟩⟩
      have inside := apply_fits (signOf s) fits
      rw [← same] at inside
      exact ⟨by simp [digits,some],whole,inside⟩

/-! Both widths -/

theorem decimal_short {n : Int} {k : Nat} (positive : 0 < k) (small : n.natAbs < 10^k) : (decimal n).length ≤ k + 1 := by
  obtain ⟨ds,text,-,-,-,length⟩ := naturalText_digits n.natAbs
  have few := length k positive small
  rw [decimal,text]
  split
  · rw [List.length_cons,List.length_map]
    omega
  · rw [List.length_map]
    omega

/-- The buffers are large enough. -/
theorem format_decimal (w : IntegerWidth) (n : CInt w.bits) : w.format n = .ok (decimal n.value) := by
  have low := n.low
  have high := n.high
  cases w with
  | i32 =>
    have few : (decimal n.value).length ≤ 10 + 1 := decimal_short (by decide) (by
      simp only [IntegerWidth.bits] at low high
      omega)
    exact if_neg (by omega)
  | i64 =>
    have few : (decimal n.value).length ≤ 20 + 1 := decimal_short (by decide) (by
      simp only [IntegerWidth.bits] at low high
      omega)
    exact if_neg (by omega)

theorem parse_eq (w : IntegerWidth) : ∃ name, w.parse = parseInteger name w.max := by
  cases w
  · exact ⟨_,rfl⟩
  · exact ⟨_,rfl⟩

theorem max_room (w : IntegerWidth) : 9 ≤ w.max := by cases w <;> decide

theorem formatted_parses_iff (w : IntegerWidth) (n : CInt w.bits) :
    (∃ s, w.format n = .ok s ∧ w.parse s = .ok n.value) ↔ n ≠ CInt.least w.bits := by
  obtain ⟨name,parse⟩ := parse_eq w
  have limits : n.value.natAbs < 10^20 ∧ (n.value.natAbs ≤ w.max ↔ n.value ≠ (CInt.least w.bits).value) := by
    have low := n.low
    have high := n.high
    rw [CInt.least_value]
    cases w <;> simp only [IntegerWidth.bits,IntegerWidth.max] at low high ⊢ <;> omega
  have apart : n ≠ CInt.least w.bits ↔ n.value ≠ (CInt.least w.bits).value := not_congr CInt.ext_iff
  rw [format_decimal,parse,apart,← limits.2]
  simp only [Outcome.ok.injEq,exists_eq_left',parseInteger_decimal name (max_room w) limits.1]
  split
  next fits => exact iff_of_true rfl fits
  next beyond => exact iff_of_false (by simp) beyond

/-- The text of an integer is read back unless the integer is the least one, and a text is read as it is meant exactly
when it is readable. -/
theorem integer_texts_iff (w : IntegerWidth) :
    (∀ n : CInt w.bits, (∃ s, w.format n = .ok s ∧ w.parse s = .ok n.value) ↔ n ≠ CInt.least w.bits) ∧
      ∀ s, (∀ v, w.parse s = .ok v ↔ Denotes w.max s v) ↔ Readable w.max s := by
  refine ⟨formatted_parses_iff w,fun s => ?_⟩
  obtain ⟨name,parse⟩ := parse_eq w
  rw [parse]
  exact parseInteger_reads_iff name (max_room w) s

/-- The least integer has a text that is no integer to the parser, and `1x` is one. -/
theorem integer_texts_fail :
    (∃ s, i32ToStr (CInt.least 32) = .ok s ∧ parseI32 s = .error "parse_i32: overflow") ∧
      parseI32 [49,120] = .ok 1 ∧ ∀ v, ¬Denotes 2147483647 [49,120] v := by
  refine ⟨⟨_,format_decimal .i32 (CInt.least 32),?_⟩,rfl,?_⟩
  · exact parseInteger_decimal "parse_i32" (by decide) (by decide)
  · intro v denotes
    have whole := ((denotes_iff _ _ _).mp denotes).1.2.1
    cases whole

end Oscan.Runtime
