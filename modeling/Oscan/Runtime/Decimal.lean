import Mathlib.Data.Nat.Digits.Lemmas
import Oscan.Runtime.Map

/-! Integers as decimal text: what `%d` prints, and what the parsers of the runtime read. -/
namespace Oscan.Runtime

def digitText (d : Nat) : UInt8 := UInt8.ofNat (48 + d)

def naturalText (n : Nat) : Str := if n = 0 then [48] else (Nat.digits 10 n).reverse.map digitText

/-- The text that `snprintf` makes with `%d` and its wider forms -/
def decimal (n : Int) : Str := if n < 0 then 45 :: naturalText n.natAbs else naturalText n.natAbs

def isSpace (c : UInt8) : Bool := c == 32 || (9 ≤ c && c ≤ 13)

def isDigit (c : UInt8) : Bool := 48 ≤ c && c ≤ 57

/-- The digit loop; no result when the next digit overflows -/
def readDigits (max : Nat) : Nat → Str → Option Nat
  | val,[] => some val
  | val,c :: cs =>
    if isDigit c then
      if (max - (c.toNat - 48)) / 10 < val then none
      else readDigits max (val * 10 + (c.toNat - 48)) cs
    else some val

/-- `parse_i32` and `parse_i64` differ in the name in their messages and in the greatest value. -/
def parseInteger (name : String) (max : Nat) (s : Str) : Except String Int :=
  -- a buffer of 64 bytes with a terminator
  match (s.take 63).dropWhile isSpace with
  | [] => .error (name ++ ": empty or whitespace-only string")
  | c :: cs =>
    let body := if c = 45 ∨ c = 43 then cs else c :: cs
    match body with
    | [] => .error (name ++ ": invalid integer string")
    | d :: ds =>
      if isDigit d then
        match readDigits max 0 (d :: ds) with
        | none => .error (name ++ ": overflow")
        | some val => .ok (if c = 45 then -val else val)
      else .error (name ++ ": invalid integer string")

def parseI32 : Str → Except String Int := parseInteger "parse_i32" 2147483647

def parseI64 : Str → Except String Int := parseInteger "parse_i64" 9223372036854775807

/-! What a text of digits stands for -/

def digitsValue (val : Nat) (ds : List Nat) : Nat := ds.foldl (fun val d => val * 10 + d) val

theorem digitText_toNat {d : Nat} (small : d < 10) : (digitText d).toNat = 48 + d := by
  rw [digitText,UInt8.toNat_ofNat',Nat.mod_eq_of_lt]
  omega

theorem isDigit_digitText {d : Nat} (small : d < 10) : isDigit (digitText d) = true := by
  have is := digitText_toNat small
  simp only [isDigit,UInt8.le_iff_toNat_le,is,Bool.and_eq_true,decide_eq_true_eq]
  exact ⟨Nat.le_add_right 48 d,Nat.add_le_add_left (Nat.le_of_lt_succ small) 48⟩

theorem digitsValue_grows : ∀ (ds : List Nat) (val : Nat), val ≤ digitsValue val ds
  | [],_ => Nat.le_refl _
  | d :: ds,val => Nat.le_trans (by omega) (digitsValue_grows ds (val * 10 + d))

/-- The loop reads the value of the digits unless that is too large. -/
theorem readDigits_text {max : Nat} : ∀ (ds : List Nat) (val : Nat), (∀ d ∈ ds, d < 10) → 9 ≤ max →
    readDigits max val (ds.map digitText) =
      if digitsValue val ds ≤ max ∨ ds = [] then some (digitsValue val ds) else none
  | [],val,_,_ => by rw [if_pos (.inr rfl)]; rfl
  | d :: ds,val,small,room => by
    have first : d < 10 := small d List.mem_cons_self
    rw [List.map_cons,readDigits,if_pos (isDigit_digitText first),digitText_toNat first,Nat.add_sub_cancel_left]
    have value : digitsValue val (d :: ds) = digitsValue (val * 10 + d) ds := rfl
    have grows := digitsValue_grows ds (val * 10 + d)
    rw [value]
    by_cases fits : val * 10 + d ≤ max
    · rw [if_neg (by omega),readDigits_text ds _ (fun e member => small e (List.mem_cons_of_mem d member)) room]
      by_cases last : ds = []
      · subst last
        rw [if_pos (.inr rfl),if_pos (.inl fits)]
      · simp only [last,or_false,reduceCtorEq]
    · rw [if_pos (by omega),if_neg]
      rintro (all | no)
      · omega
      · cases no

theorem digitsValue_digits (n : Nat) : digitsValue 0 (Nat.digits 10 n).reverse = n := by
  rw [digitsValue,List.foldl_reverse]
  have same := Nat.ofDigits_digits 10 n
  rw [Nat.ofDigits_eq_foldr] at same
  refine Eq.trans (congrArg (fun f => List.foldr f 0 (Nat.digits 10 n)) ?_) same
  funext d val
  rw [Nat.cast_id,Nat.add_comm,Nat.mul_comm]

theorem naturalText_digits (n : Nat) : ∃ ds : List Nat, naturalText n = ds.map digitText ∧ ds ≠ [] ∧
    (∀ d ∈ ds, d < 10) ∧ digitsValue 0 ds = n ∧ (∀ k, 0 < k → n < 10^k → ds.length ≤ k) := by
  rw [naturalText]
  by_cases zero : n = 0
  · subst zero
    exact ⟨[0],rfl,List.cons_ne_nil _ _,fun d member => by rw [List.mem_singleton.mp member]; decide,rfl,
      fun k positive _ => positive⟩
  · rw [if_neg zero]
    refine ⟨_,rfl,?_,fun d member => ?_,digitsValue_digits n,fun k _ below => ?_⟩
    · exact fun empty => zero (Nat.digits_eq_nil_iff_eq_zero.mp (List.reverse_eq_nil_iff.mp empty))
    · exact Nat.digits_lt_base (by decide) (List.mem_reverse.mp member)
    · rw [List.length_reverse]
      exact (Nat.digits_length_le_iff (by decide) n).mpr below

/-- Different integers have different texts. -/
theorem decimal_injective : Function.Injective decimal := by
  have natural : ∀ {m n : Nat}, naturalText m = naturalText n → m = n := by
    intro m n same
    obtain ⟨ds,text,some,small,value,-⟩ := naturalText_digits m
    obtain ⟨es,text',-,small',value',-⟩ := naturalText_digits n
    have reads : readDigits (m + n + 9) 0 (ds.map digitText) = _ := readDigits_text ds 0 small (by omega)
    have reads' : readDigits (m + n + 9) 0 (es.map digitText) = _ := readDigits_text es 0 small' (by omega)
    rw [← text,same,text',reads',value,value',if_pos (.inl (by omega)),if_pos (.inl (by omega))] at reads
    exact (Option.some.inj reads).symm
  have minus : ∀ {m n : Nat}, naturalText m ≠ 45 :: naturalText n := by
    intro m n same
    obtain ⟨ds,text,some,small,-,-⟩ := naturalText_digits m
    cases ds with
    | nil => exact some rfl
    | cons d ds =>
      rw [text,List.map_cons,List.cons.injEq] at same
      have is := digitText_toNat (small d List.mem_cons_self)
      rw [same.1] at is
      have : (45 : UInt8).toNat = 45 := rfl
      omega
  intro m n same
  simp only [decimal] at same
  split at same <;> split at same
  · have := natural (List.cons.inj same).2
    omega
  · exact absurd same.symm minus
  · exact absurd same minus
  · have := natural same
    omega

theorem decimal_length {n : Int} (small : n.natAbs < 10^20) : (decimal n).length ≤ 21 := by
  obtain ⟨ds,text,-,-,-,length⟩ := naturalText_digits n.natAbs
  have few := length 20 (by decide) small
  rw [decimal,text]
  split
  · rw [List.length_cons,List.length_map]
    omega
  · rw [List.length_map]
    omega

/-- A parser reads back the printed integer unless its magnitude is too large. -/
theorem parseInteger_decimal (name : String) {max : Nat} (room : 9 ≤ max) {n : Int} (small : n.natAbs < 10^20) :
    parseInteger name max (decimal n) = if n.natAbs ≤ max then .ok n else .error (name ++ ": overflow") := by
  obtain ⟨ds,text,some,digits,value,-⟩ := naturalText_digits n.natAbs
  have reads := readDigits_text ds 0 digits room
  simp only [value,some,or_false] at reads
  rw [parseInteger,List.take_of_length_le (Nat.le_trans (decimal_length small) (by decide)),decimal,text]
  cases ds with
  | nil => exact absurd rfl some
  | cons d ds =>
    have first := digits d List.mem_cons_self
    have digit := isDigit_digitText first
    have is := digitText_toNat first
    have unspaced : isSpace (digitText d) = false := by
      rw [isSpace,← Bool.not_eq_true]
      simp only [Bool.or_eq_true,beq_iff_eq,Bool.and_eq_true,decide_eq_true_eq,UInt8.le_iff_toNat_le,← UInt8.toNat_inj,is]
      intro no
      have : (32 : UInt8).toNat = 32 := rfl
      have : (13 : UInt8).toNat = 13 := rfl
      omega
    have unsigned : ∀ c : UInt8, c.toNat < 48 → digitText d ≠ c := by
      intro c less same
      rw [← same,is] at less
      omega
    rw [List.map_cons] at reads ⊢
    by_cases negative : n < 0
    · rw [if_pos negative,List.dropWhile_cons_of_neg (by decide)]
      simp only [true_or,if_true,digit,reads]
      by_cases fits : n.natAbs ≤ max
      · rw [if_pos fits,if_pos fits]
        exact congrArg Except.ok (by omega)
      · rw [if_neg fits,if_neg fits]
    · rw [if_neg negative,List.dropWhile_cons_of_neg (by rw [unspaced]; exact Bool.false_ne_true)]
      simp only [unsigned 45 (by decide),unsigned 43 (by decide),or_self,if_false,digit,if_true,reads]
      by_cases fits : n.natAbs ≤ max
      · rw [if_pos fits,if_pos fits]
        exact congrArg Except.ok (by omega)
      · rw [if_neg fits,if_neg fits]

end Oscan.Runtime
