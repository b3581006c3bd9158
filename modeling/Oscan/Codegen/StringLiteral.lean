import Mathlib.Data.List.TakeWhile
import Oscan.Codegen.Expression
import Oscan.Runtime.Map

/-! String literals: how the C backend writes them, how a C compiler reads them, and what the object backend
puts into its data. -/
namespace Oscan.Codegen
open Library.Lockstep Oscan.Runtime

def utf8 (cs : List Char) : Str := cs.flatMap String.utf8EncodeChar

def backslash : Char := Char.ofNat 92
def quote : Char := Char.ofNat 34
def newline : Char := Char.ofNat 10

/-- What `escapeCString` writes for a character -/
def escapeCChar (c : Char) : List Char :=
  if c = newline then [backslash,'n']
  else if c = Char.ofNat 9 then [backslash,'t']
  else if c = Char.ofNat 13 then [backslash,'r']
  else if c = backslash then [backslash,backslash]
  else if c = quote then [backslash,quote]
  else if c = Char.ofNat 0 then [backslash,'0']
  else [c]

def escapedText (s : List Char) : List Char := s.flatMap escapeCChar

/-! The C compiler -/

def trigraph (c : Char) : Option Char :=
  if c = '=' then some '#'
  else if c = '/' then some backslash
  else if c = Char.ofNat 39 then some '^'
  else if c = '(' then some '['
  else if c = ')' then some ']'
  else if c = '!' then some '|'
  else if c = '<' then some (Char.ofNat 123)
  else if c = '>' then some (Char.ofNat 125)
  else if c = '-' then some '~'
  else none

/-- Translation phase 1 -/
def replaceTrigraphs : List Char → List Char
  | [] => []
  | [a] => [a]
  | [a,b] => [a,b]
  | a :: b :: c :: cs =>
    if a = '?' ∧ b = '?' then
      match trigraph c with
      | some d => d :: replaceTrigraphs cs
      | none => a :: replaceTrigraphs (b :: c :: cs)
    else a :: replaceTrigraphs (b :: c :: cs)

def simpleEscape (c : Char) : Option UInt8 :=
  if c = 'n' then some 10
  else if c = 't' then some 9
  else if c = 'r' then some 13
  else if c = 'a' then some 7
  else if c = 'b' then some 8
  else if c = 'f' then some 12
  else if c = 'v' then some 11
  else if c = backslash then some 92
  else if c = quote then some 34
  else if c = Char.ofNat 39 then some 39
  else if c = '?' then some 63
  else none

def octalDigit (c : Char) : Option Nat := if '0' ≤ c ∧ c ≤ '7' then some (c.toNat - 48) else none

def hexDigit (c : Char) : Option Nat :=
  if '0' ≤ c ∧ c ≤ '9' then some (c.toNat - 48)
  else if 'a' ≤ c ∧ c ≤ 'f' then some (c.toNat - 87)
  else if 'A' ≤ c ∧ c ≤ 'F' then some (c.toNat - 55)
  else none

/-- Where the scan of a literal is: in an octal escape that may take `left` more digits, in a hexadecimal one,
in a universal character name that needs `left` more digits, or behind the closing quote -/
inductive Scan where
  | plain
  | escape
  | octal (value left : Nat)
  | hex (value : Nat)
  | hexStart
  | universal (value left : Nat)
  | closed
deriving DecidableEq

def plainStep (c : Char) : Option (Str × Scan) :=
  if c = quote then some ([],.closed)
  else if c = backslash then some ([],.escape)
  else if c = newline then none
  else some (String.utf8EncodeChar c,.plain)

/-- A numeric escape ends before `c`. -/
def numberStep (value : Nat) (c : Char) : Option (Str × Scan) :=
  if value < 256 then (plainStep c).map fun r => (UInt8.ofNat value :: r.1,r.2) else none

/-- Universal character names stand for characters outside the basic set, and surrogates are none. -/
def universalChar (value : Nat) : Option Str :=
  if (value = 36 ∨ value = 64 ∨ value = 96 ∨ 160 ≤ value) ∧ value.isValidChar then
    some (String.utf8EncodeChar (Char.ofNat value))
  else none

def scanStep : Scan → Char → Option (Str × Scan)
  | .plain,c => plainStep c
  | .escape,c =>
    match simpleEscape c with
    | some value => some ([value],.plain)
    | none =>
      match octalDigit c with
      | some d => some ([],.octal d 2)
      | none =>
        if c = 'x' then some ([],.hexStart)
        else if c = 'u' then some ([],.universal 0 4)
        else if c = 'U' then some ([],.universal 0 8)
        else none
  | .octal value left,c =>
    match octalDigit c with
    | some d => if left = 0 then numberStep value c else some ([],.octal (value * 8 + d) (left - 1))
    | none => numberStep value c
  | .hexStart,c => (hexDigit c).map fun d => ([],.hex d)
  | .hex value,c =>
    match hexDigit c with
    | some d => some ([],.hex (value * 16 + d))
    | none => numberStep value c
  | .universal value left,c =>
    (hexDigit c).bind fun d =>
      if left = 1 then (universalChar (value * 16 + d)).map (·,.plain)
      else some ([],.universal (value * 16 + d) (left - 1))
  | .closed,_ => none

/-- The bytes of a literal that ends where the text does -/
def scan : Scan → List Char → Option Str
  | st,[] => if st = .closed then some [] else none
  | st,c :: cs => (scanStep st c).bind fun r => (scan r.2 cs).map (r.1 ++ ·)

/-- The dialects differ in the trigraphs: `-std=c99` replaces them, and `-std=gnu11` does not. -/
inductive Dialect where
  | c99
  | gnu11
deriving DecidableEq

def compileLiteral (dialect : Dialect) (text : List Char) : Option Str :=
  scan .plain (if dialect = .c99 then replaceTrigraphs (text ++ [quote]) else text ++ [quote])

/-- `strlen` stops at the first NUL, or at the one that ends the literal. -/
def strFromCstr (data : Str) : Outcome Str :=
  let s := data.takeWhile (· ≠ 0)
  if int32Max < s.length then .panic "string length exceeds i32 range" else .ok s

/-- The run-time string of a literal in the C backend -/
def literalInC (dialect : Dialect) (s : String) : Option (Outcome Str) :=
  (compileLiteral dialect (escapeCString s).toList).map strFromCstr

/-- The bytes with their NUL and the length in the header -/
structure StringData where
  bytes : Str
  len : Int32

def stringLiteralData (s : String) : StringData := ⟨utf8 s.toList ++ [0],Int32.ofNat (utf8 s.toList).length⟩

/-- The run-time string of a literal in the object backend -/
def literalInObject (s : String) : Str :=
  (stringLiteralData s).bytes.take (stringLiteralData s).len.toInt.toNat

/-- Both backends make the bytes of the string. -/
def LiteralKept (dialect : Dialect) (s : String) : Prop :=
  literalInC dialect s = some (.ok (utf8 s.toList)) ∧ literalInObject s = utf8 s.toList

/-- Two question marks and a character that completes a trigraph -/
def HasTrigraph (s : List Char) : Prop :=
  ∃ before c after, s = before ++ '?' :: '?' :: c :: after ∧ (trigraph c).isSome = true

/-! A literal without trigraphs is read as it was written. -/

theorem utf8_append (s t : List Char) : utf8 (s ++ t) = utf8 s ++ utf8 t := List.flatMap_append

theorem utf8_cons (c : Char) (s : List Char) : utf8 (c :: s) = String.utf8EncodeChar c ++ utf8 s := rfl

theorem scan_cons {st : Scan} {c : Char} {cs : List Char} :
    scan st (c :: cs) = (scanStep st c).bind fun r => (scan r.2 cs).map (r.1 ++ ·) := rfl

/-- A character is written as itself or as a backslash and a letter. -/
theorem escapeCChar_cases (c : Char) :
    (escapeCChar c = [c] ∧ plainStep c = some (String.utf8EncodeChar c,.plain)) ∨
    ∃ x, escapeCChar c = [backslash,x] ∧ (x.utf8Size = 1 ∧ x ≠ '?') ∧
      ((∃ v, simpleEscape x = some v ∧ String.utf8EncodeChar c = [v]) ∨ c = Char.ofNat 0 ∧ x = '0') := by
  rw [escapeCChar]
  split_ifs with nl tab cr back q nul
  · exact .inr ⟨_,rfl,⟨rfl,by decide⟩,.inl ⟨10,rfl,by rw [nl]; rfl⟩⟩
  · exact .inr ⟨_,rfl,⟨rfl,by decide⟩,.inl ⟨9,rfl,by rw [tab]; rfl⟩⟩
  · exact .inr ⟨_,rfl,⟨rfl,by decide⟩,.inl ⟨13,rfl,by rw [cr]; rfl⟩⟩
  · exact .inr ⟨_,rfl,⟨rfl,by decide⟩,.inl ⟨92,rfl,by rw [back]; rfl⟩⟩
  · exact .inr ⟨_,rfl,⟨rfl,by decide⟩,.inl ⟨34,rfl,by rw [q]; rfl⟩⟩
  · exact .inr ⟨_,rfl,⟨rfl,by decide⟩,.inr ⟨nul,rfl⟩⟩
  · exact .inl ⟨rfl,by rw [plainStep,if_neg q,if_neg back,if_neg nl]⟩

/-- A written character is read back, unless it is the octal escape of NUL. -/
theorem scan_escapeCChar {c : Char} (proper : c ≠ Char.ofNat 0) (cs : List Char) :
    scan .plain (escapeCChar c ++ cs) = (scan .plain cs).map (String.utf8EncodeChar c ++ ·) := by
  rcases escapeCChar_cases c with ⟨is,step⟩ | ⟨x,is,-,⟨v,simple,one⟩ | ⟨nul,-⟩⟩
  · rw [is,List.singleton_append,scan_cons,scanStep,step,Option.bind_some]
  · have back : scanStep .plain backslash = some ([],.escape) := rfl
    have letter : scanStep .escape x = some ([v],.plain) := by rw [scanStep,simple]
    rw [is,one,List.cons_append,List.singleton_append,scan_cons,back,Option.bind_some,scan_cons,letter,
      Option.bind_some,Option.map_map]
    rfl
  · exact absurd nul proper

theorem scan_escapedText : ∀ (s : List Char), Char.ofNat 0 ∉ s →
    scan .plain (escapedText s ++ [quote]) = some (utf8 s)
  | [],_ => rfl
  | c :: s,without => by
    have first : c ≠ Char.ofNat 0 := fun is => without (is ▸ List.mem_cons_self)
    have rest := scan_escapedText s fun member => without (List.mem_cons_of_mem c member)
    rw [escapedText,List.flatMap_cons,List.append_assoc,scan_escapeCChar first,← escapedText,rest,
      Option.map_some,utf8_cons]

theorem or_ne_zero {a b : UInt8} (some : b ≠ 0) : 0 ≠ a ||| b := fun none => some (UInt8.or_eq_zero_iff.mp none.symm).2

/-- Only NUL has a zero byte. -/
theorem zero_mem_utf8EncodeChar {c : Char} : 0 ∈ String.utf8EncodeChar c ↔ c = Char.ofNat 0 := by
  constructor
  · intro zero
    rw [String.utf8EncodeChar_eq_utf8EncodeCharFast] at zero
    simp only [String.utf8EncodeCharFast] at zero
    split_ifs at zero with ascii
    · rw [List.mem_singleton,← UInt8.toNat_inj,UInt32.toNat_toUInt8] at zero
      have small : c.val.toNat ≤ 127 := UInt32.le_iff_toNat_le.mp ascii
      have none : c.val.toNat = 0 := by
        have same : 0 = c.val.toNat % 2^8 := zero
        omega
      exact Char.ext (UInt32.toNat_inj.mp none)
    all_goals
      simp only [List.mem_cons,List.not_mem_nil,or_false] at zero
      simp only [or_ne_zero (show (0x80 : UInt8) ≠ 0 by decide),or_ne_zero (show (0xc0 : UInt8) ≠ 0 by decide),
        or_ne_zero (show (0xe0 : UInt8) ≠ 0 by decide),or_ne_zero (show (0xf0 : UInt8) ≠ 0 by decide),or_self] at zero
  · rintro rfl
    decide

theorem zero_mem_utf8 {s : List Char} : 0 ∈ utf8 s ↔ Char.ofNat 0 ∈ s := by
  rw [utf8,List.mem_flatMap]
  simp only [zero_mem_utf8EncodeChar,exists_eq_right]

/-! Trigraphs shorten what is read. -/

def trigraphHead (s : List Char) : Option (Char × List Char) :=
  match s with
  | a :: b :: c :: cs => if a = '?' ∧ b = '?' then (trigraph c).map (·,cs) else none
  | _ => none

theorem replaceTrigraphs_cons (a : Char) (cs : List Char) : replaceTrigraphs (a :: cs) =
    match trigraphHead (a :: cs) with
    | some r => r.1 :: replaceTrigraphs r.2
    | none => a :: replaceTrigraphs cs := by
  match cs with
  | [] => rfl
  | [b] => rfl
  | b :: c :: cs =>
    rw [replaceTrigraphs,trigraphHead]
    split
    · cases trigraph c <;> rfl
    · rfl

theorem trigraphHead_some {s rest : List Char} {d : Char} (head : trigraphHead s = some (d,rest)) :
    ∃ c, s = '?' :: '?' :: c :: rest ∧ trigraph c = some d := by
  match s with
  | [] | [_] | [_,_] => cases head
  | a :: b :: c :: cs =>
    rw [trigraphHead] at head
    split at head
    next both =>
      obtain ⟨d',is,same⟩ := Option.map_eq_some_iff.mp head
      cases same
      exact ⟨c,by rw [both.1,both.2],is⟩
    next => cases head

theorem trigraphHead_none {a b c : Char} {s : List Char} (other : a ≠ '?' ∨ b ≠ '?' ∨ trigraph c = none) :
    trigraphHead (a :: b :: c :: s) = none := by
  rw [trigraphHead]
  split
  next both =>
    have unmarked : trigraph c = none := (other.resolve_left fun no => no both.1).resolve_left fun no => no both.2
    rw [unmarked]
    rfl
  next => rfl

theorem hasTrigraph_cons {a : Char} {s : List Char} :
    HasTrigraph (a :: s) ↔ (trigraphHead (a :: s)).isSome = true ∨ HasTrigraph s := by
  constructor
  · rintro ⟨before,c,after,is,marks⟩
    cases before with
    | nil =>
      left
      rw [is,List.nil_append,trigraphHead,if_pos ⟨rfl,rfl⟩,Option.isSome_map]
      exact marks
    | cons e before =>
      right
      rw [List.cons_append,List.cons.injEq] at is
      exact ⟨before,c,after,is.2,marks⟩
  · rintro (head | ⟨before,c,after,rfl,marks⟩)
    · obtain ⟨⟨d,rest⟩,head⟩ := Option.isSome_iff_exists.mp head
      obtain ⟨c,is,marks⟩ := trigraphHead_some head
      exact ⟨[],c,rest,is,by rw [marks]; rfl⟩
    · exact ⟨a :: before,c,after,rfl,marks⟩

/-- The characters of trigraphs are written as themselves. -/
theorem escapeCChar_trigraph {c : Char} (marks : (trigraph c).isSome = true) : escapeCChar c = [c] := by
  revert marks
  rw [trigraph]
  split_ifs with h₁ h₂ h₃ h₄ h₅ h₆ h₇ h₈ h₉ <;> intro marks
  all_goals first | subst h₁ | subst h₂ | subst h₃ | subst h₄ | subst h₅ | subst h₆ | subst h₇ | subst h₈ | subst h₉ | cases marks
  all_goals rfl

/-- The literal as the compiler reads it under `-std=c99` -/
def replaced (s : List Char) : List Char := replaceTrigraphs (escapedText s ++ [quote])

theorem trigraphHead_ne {a : Char} (other : a ≠ '?') (s : List Char) : trigraphHead (a :: s) = none := by
  match s with
  | [] | [_] => rfl
  | b :: c :: s => exact trigraphHead_none (.inl other)

/-- What is written begins with a character of the string only if that needs no escape. -/
theorem escapedText_head (s : List Char) : ∃ e l, escapedText s ++ [quote] = e :: l ∧
    (e = '?' → ∃ s', s = '?' :: s' ∧ l = escapedText s' ++ [quote]) ∧
    ((trigraph e).isSome = true → ∃ s', s = e :: s') := by
  cases s with
  | nil => exact ⟨quote,[],rfl,fun no => absurd no (by decide),fun no => absurd no (by decide)⟩
  | cons a s =>
    rcases escapeCChar_cases a with ⟨is,-⟩ | ⟨x,is,-,-⟩
    · refine ⟨a,escapedText s ++ [quote],?_,fun same => ⟨s,by rw [same],rfl⟩,fun _ => ⟨s,rfl⟩⟩
      rw [escapedText,List.flatMap_cons,is]
      rfl
    · refine ⟨backslash,x :: (escapedText s ++ [quote]),?_,fun no => absurd no (by decide),fun no => absurd no (by decide)⟩
      rw [escapedText,List.flatMap_cons,is]
      rfl

theorem escapedText_unmarked {a : Char} {s : List Char} (head : trigraphHead (a :: s) = none) :
    trigraphHead (a :: (escapedText s ++ [quote])) = none := by
  obtain ⟨e,l,is,second,-⟩ := escapedText_head s
  by_cases first : a = '?'
  · by_cases both : e = '?'
    · obtain ⟨s',rfl,rfl⟩ := second both
      obtain ⟨e',l',is',-,third⟩ := escapedText_head s'
      rw [is,is']
      refine trigraphHead_none (.inr (.inr ?_))
      cases marks : trigraph e' with
      | none => rfl
      | some d =>
        obtain ⟨s'',rfl⟩ := third (by rw [marks]; rfl)
        rw [first,trigraphHead,if_pos ⟨rfl,rfl⟩,marks] at head
        cases head
    · rw [is]
      cases l with
      | nil => rfl
      | cons c l => exact trigraphHead_none (.inr (.inl both))
  · exact trigraphHead_ne first _

theorem replaced_none {a : Char} {s : List Char} (head : trigraphHead (a :: s) = none) :
    replaced (a :: s) = escapeCChar a ++ replaced s := by
  rw [replaced,escapedText,List.flatMap_cons,List.append_assoc,← escapedText]
  rcases escapeCChar_cases a with ⟨is,-⟩ | ⟨x,is,⟨-,other⟩,-⟩
  · rw [is,List.singleton_append,replaceTrigraphs_cons,escapedText_unmarked head]
    rfl
  · have first : backslash ≠ '?' := by decide
    rw [is,List.cons_append,List.singleton_append,replaceTrigraphs_cons,trigraphHead_ne first,replaceTrigraphs_cons,
      trigraphHead_ne other]
    rfl

theorem replaced_some {s rest : List Char} {d : Char} (head : trigraphHead s = some (d,rest)) :
    replaced s = d :: replaced rest := by
  obtain ⟨c,rfl,marks⟩ := trigraphHead_some head
  have mark : escapeCChar '?' = ['?'] := rfl
  have written : escapedText ('?' :: '?' :: c :: rest) = '?' :: '?' :: c :: escapedText rest := by
    rw [escapedText,List.flatMap_cons,List.flatMap_cons,List.flatMap_cons,mark,
      escapeCChar_trigraph (by rw [marks]; rfl),← escapedText]
    rfl
  have read : trigraphHead ('?' :: '?' :: c :: (escapedText rest ++ [quote])) =
      some (d,escapedText rest ++ [quote]) := by
    rw [trigraphHead,if_pos ⟨rfl,rfl⟩,marks]
    rfl
  rw [replaced,written,List.cons_append,List.cons_append,List.cons_append,replaceTrigraphs_cons,read]
  rfl

/-- How many bytes a state may still owe to what was read before -/
def Scan.owed : Scan → Nat
  | .plain | .closed => 0
  | .escape | .octal .. | .hex _ | .hexStart => 1
  | .universal _ left => 4 - left

theorem plainStep_bound {c : Char} {r : Str × Scan} (step : plainStep c = some r) :
    r.1.length + r.2.owed ≤ c.utf8Size ∧ (c = backslash → r = ([],.escape)) ∧ (c = quote → r = ([],.closed)) := by
  rw [plainStep] at step
  split_ifs at step with q back nl
  · cases step
    exact ⟨Nat.zero_le _,fun no => absurd (no.symm.trans q) (by decide),fun _ => rfl⟩
  · cases step
    exact ⟨c.utf8Size_pos,fun _ => rfl,fun no => absurd no q⟩
  · cases step
    exact ⟨Nat.le_of_eq (String.length_utf8EncodeChar c),fun no => absurd no back,fun no => absurd no q⟩

theorem numberStep_bound {value : Nat} {c : Char} {r : Str × Scan} (step : numberStep value c = some r) :
    r.1.length + r.2.owed ≤ 1 + c.utf8Size ∧ (c = backslash → r.1.length = 1 ∧ r.2 = .escape) ∧
      (c = quote → r.1.length = 1 ∧ r.2 = .closed) := by
  rw [numberStep] at step
  split at step
  next =>
    obtain ⟨r',plain,rfl⟩ := Option.map_eq_some_iff.mp step
    obtain ⟨bound,back,q⟩ := plainStep_bound plain
    refine ⟨?_,fun is => ?_,fun is => ?_⟩
    · simp only [List.length_cons]
      omega
    · rw [back is]
      exact ⟨rfl,rfl⟩
    · rw [q is]
      exact ⟨rfl,rfl⟩
  next => cases step

theorem universalChar_length {value : Nat} {b : Str} (is : universalChar value = some b) : b.length ≤ 4 := by
  rw [universalChar] at is
  split at is
  next =>
    cases is
    rw [String.length_utf8EncodeChar]
    exact Char.utf8Size_le_four _
  next => cases is

/-- No step makes more than it reads and the state owes. -/
theorem scanStep_bound {st : Scan} {c : Char} {r : Str × Scan} (step : scanStep st c = some r) :
    r.1.length + r.2.owed ≤ st.owed + c.utf8Size := by
  have some := c.utf8Size_pos
  cases st with
  | plain => exact (Nat.zero_add _).symm ▸ (plainStep_bound step).1
  | escape =>
    simp only [scanStep] at step
    split at step
    · cases step
      simp only [List.length_singleton,Scan.owed]
      omega
    · split at step
      · cases step
        simp only [List.length_nil,Scan.owed]
        omega
      · split_ifs at step <;> cases step <;> simp only [List.length_nil,Scan.owed] <;> omega
  | octal value left =>
    simp only [scanStep] at step
    split at step
    · split_ifs at step
      · exact (numberStep_bound step).1
      · cases step
        simp only [List.length_nil,Scan.owed]
        omega
    · exact (numberStep_bound step).1
  | hexStart =>
    obtain ⟨d,-,rfl⟩ := Option.map_eq_some_iff.mp step
    simp only [List.length_nil,Scan.owed]
    omega
  | hex value =>
    simp only [scanStep] at step
    split at step
    · cases step
      simp only [List.length_nil,Scan.owed]
      omega
    · exact (numberStep_bound step).1
  | universal value left =>
    obtain ⟨d,-,step⟩ := Option.bind_eq_some_iff.mp step
    split_ifs at step with last
    · obtain ⟨b,is,rfl⟩ := Option.map_eq_some_iff.mp step
      have few := universalChar_length is
      simp only [Scan.owed]
      omega
    · cases step
      simp only [List.length_nil,Scan.owed]
      omega
  | closed => cases step

/-- A backslash or a quote ends a number, and in an escape it stands for itself. -/
theorem scanStep_mark {st : Scan} {c : Char} {r : Str × Scan} (step : scanStep st c = some r)
    (mark : c = backslash ∨ c = quote) : r.1.length ≤ st.owed ∧ (c = backslash → r.2 = .plain ∨ r.2 = .escape) := by
  have nothex : hexDigit c = none := by rcases mark with rfl | rfl <;> rfl
  have notoctal : octalDigit c = none := by rcases mark with rfl | rfl <;> rfl
  have number : ∀ {value : Nat}, numberStep value c = some r →
      r.1.length ≤ 1 ∧ (c = backslash → r.2 = .plain ∨ r.2 = .escape) := by
    intro value step
    obtain ⟨-,back,q⟩ := numberStep_bound step
    rcases mark with is | is
    · exact ⟨Nat.le_of_eq (back is).1,fun _ => .inr (back is).2⟩
    · exact ⟨Nat.le_of_eq (q is).1,fun no => absurd (no.symm.trans is) (by decide)⟩
  cases st with
  | plain =>
    obtain ⟨-,back,q⟩ := plainStep_bound step
    rcases mark with is | is
    · rw [back is]
      exact ⟨Nat.le_refl _,fun _ => .inr rfl⟩
    · rw [q is]
      exact ⟨Nat.le_refl _,fun no => absurd (no.symm.trans is) (by decide)⟩
  | escape =>
    rcases mark with rfl | rfl <;> cases step
    · exact ⟨Nat.le_refl _,fun _ => .inl rfl⟩
    · exact ⟨Nat.le_refl _,fun no => absurd no (by decide)⟩
  | octal value left =>
    simp only [scanStep,notoctal] at step
    exact number step
  | hex value =>
    simp only [scanStep,nothex] at step
    exact number step
  | hexStart | universal => simp only [scanStep,nothex,Option.map_none,Option.bind_none,reduceCtorEq] at step
  | closed => cases step

theorem scanStep_letter {x : Char} {r : Str × Scan} {st : Scan} (synced : st = .plain ∨ st = .escape)
    (one : x.utf8Size = 1) (letter : (simpleEscape x).isSome = true ∨ x = '0') (step : scanStep st x = some r) :
    r.1.length + r.2.owed ≤ 1 := by
  rcases synced with rfl | rfl
  · rw [← one]
    exact (plainStep_bound step).1
  · rcases letter with simple | rfl
    · obtain ⟨v,is⟩ := Option.isSome_iff_exists.mp simple
      simp only [scanStep,is,Option.some.injEq] at step
      rw [← step]
      exact Nat.le_refl _
    · cases step
      exact Nat.le_refl _

theorem trigraph_one {c d : Char} (marks : trigraph c = some d) : d.utf8Size = 1 := by
  rw [trigraph] at marks
  split_ifs at marks <;> cases marks <;> rfl

theorem utf8_cons_length (c : Char) (s : List Char) : (utf8 (c :: s)).length = c.utf8Size + (utf8 s).length := by
  rw [utf8_cons,List.length_append,String.length_utf8EncodeChar]

theorem scan_some {st : Scan} {c : Char} {cs : List Char} {b : Str} (read : scan st (c :: cs) = some b) :
    ∃ r b', scanStep st c = some r ∧ scan r.2 cs = some b' ∧ b.length = r.1.length + b'.length := by
  obtain ⟨r,step,rest⟩ := Option.bind_eq_some_iff.mp read
  obtain ⟨b',later,rfl⟩ := Option.map_eq_some_iff.mp rest
  exact ⟨r,b',step,later,List.length_append⟩

/-- What is read from the literal is no longer than the string, and shorter when a trigraph was replaced. -/
theorem scan_replaced : ∀ (n : Nat) (s : List Char), s.length ≤ n → ∀ (st : Scan) (b : Str),
    scan st (replaced s) = some b → b.length ≤ (utf8 s).length + st.owed ∧
      (HasTrigraph s → b.length + 2 ≤ (utf8 s).length + st.owed) := by
  have ended : ∀ (st : Scan) (b : Str), scan st (replaced []) = some b → b.length ≤ st.owed := by
    intro st b read
    obtain ⟨r,b',step,later,length⟩ := scan_some read
    have bound := (scanStep_mark step (.inr rfl)).1
    rw [scan] at later
    split at later <;> cases later
    exact length ▸ bound
  have without : ¬ HasTrigraph [] := fun ⟨before,_,_,is,_⟩ =>
    absurd is.symm (List.append_ne_nil_of_right_ne_nil before (List.cons_ne_nil _ _))
  intro n
  induction n with
  | zero =>
    intro s short st b read
    rw [List.length_eq_zero_iff.mp (Nat.le_zero.mp short)] at read ⊢
    exact ⟨Nat.le_trans (ended st b read) (Nat.le_add_left ..),fun has => absurd has without⟩
  | succ n ih =>
    intro s short st b read
    cases s with
    | nil => exact ⟨Nat.le_trans (ended st b read) (Nat.le_add_left ..),fun has => absurd has without⟩
    | cons a s =>
      rw [List.length_cons] at short
      cases head : trigraphHead (a :: s) with
      | some found =>
        obtain ⟨c,is,marks⟩ := trigraphHead_some head
        rw [replaced_some head] at read
        obtain ⟨r,b',step,later,length⟩ := scan_some read
        have shorter : found.2.length ≤ n := by
          have sizes := congrArg List.length is
          simp only [List.length_cons] at sizes
          omega
        have rest := (ih found.2 shorter r.2 b' later).1
        have bound := scanStep_bound step
        have one := trigraph_one marks
        have lost : (utf8 (a :: s)).length = 1 + (1 + (c.utf8Size + (utf8 found.2).length)) := by
          rw [is,utf8_cons_length,utf8_cons_length,utf8_cons_length]
          rfl
        have some := c.utf8Size_pos
        constructor
        · omega
        · intro _
          omega
      | none =>
        have later : HasTrigraph (a :: s) → HasTrigraph s := fun has =>
          (hasTrigraph_cons.mp has).resolve_left (by rw [head]; exact Bool.false_ne_true)
        rw [replaced_none head] at read
        rw [utf8_cons_length]
        rcases escapeCChar_cases a with ⟨is,-⟩ | ⟨x,is,⟨one,-⟩,letter⟩
        · rw [is,List.singleton_append] at read
          obtain ⟨r,b',step,rest,length⟩ := scan_some read
          have bound := scanStep_bound step
          obtain ⟨all,fewer⟩ := ih s (by omega) r.2 b' rest
          constructor
          · omega
          · intro has
            have fewer := fewer (later has)
            omega
        · rw [is,List.cons_append,List.singleton_append] at read
          obtain ⟨r,b₁,step,rest,length⟩ := scan_some read
          obtain ⟨r',b',step',rest',length'⟩ := scan_some rest
          obtain ⟨owed,synced⟩ := scanStep_mark step (.inl rfl)
          have simple : (simpleEscape x).isSome = true ∨ x = '0' := by
            rcases letter with ⟨v,is,-⟩ | ⟨-,is⟩
            · exact .inl (by rw [is]; rfl)
            · exact .inr is
          have bound := scanStep_letter (synced rfl) one simple step'
          have some := a.utf8Size_pos
          obtain ⟨all,fewer⟩ := ih s (by omega) r'.2 b' rest'
          constructor
          · omega
          · intro has
            have fewer := fewer (later has)
            omega

/-- Without trigraphs nothing is replaced. -/
theorem replaced_without : ∀ (s : List Char), ¬ HasTrigraph s → replaced s = escapedText s ++ [quote]
  | [],_ => rfl
  | a :: s,without => by
    have none : trigraphHead (a :: s) = none := by
      cases head : trigraphHead (a :: s) with
      | none => rfl
      | some r => exact absurd (hasTrigraph_cons.mpr (.inl (by rw [head]; rfl))) without
    rw [replaced_none none,replaced_without s fun has => without (hasTrigraph_cons.mpr (.inr has)),
      ← List.append_assoc]
    rfl

theorem takeWhile_utf8 {s : List Char} (without : Char.ofNat 0 ∉ s) : (utf8 s).takeWhile (· ≠ 0) = utf8 s := by
  rw [List.takeWhile_eq_self_iff]
  intro c member
  refine decide_eq_true fun zero => without (zero_mem_utf8.mp ?_)
  rwa [← zero]

theorem literalInObject_short {s : String} (short : (utf8 s.toList).length ≤ int32Max) :
    literalInObject s = utf8 s.toList := by
  have length : (stringLiteralData s).len.toInt = (utf8 s.toList).length :=
    Int32.toInt_ofNat_of_lt (Nat.lt_succ_of_le short)
  rw [literalInObject,length,Int.toNat_natCast,stringLiteralData]
  exact List.take_left

theorem escapeCString_toList (s : String) : (escapeCString s).toList = escapedText s.toList := by
  rw [escapeCString,escapedText,String.toList_join,List.flatMap_map]
  refine congrArg (List.flatMap · s.toList) (funext fun c => ?_)
  rw [escapeCChar]
  split
  · rfl
  · rfl
  · rfl
  · rfl
  · rfl
  · rfl
  next nl tab cr back q nul =>
    rw [if_neg (show c ≠ newline from nl),if_neg (show c ≠ Char.ofNat 9 from tab),if_neg (show c ≠ Char.ofNat 13 from cr),
      if_neg (show c ≠ backslash from back),if_neg (show c ≠ quote from q),if_neg (show c ≠ Char.ofNat 0 from nul),
      Char.toString,String.toList_singleton]

/-- A literal keeps its bytes exactly if it is short enough for a string, has no NUL, and no trigraph
where the dialect replaces them. -/
theorem literal_kept_iff (dialect : Dialect) (s : String) : LiteralKept dialect s ↔
    (utf8 s.toList).length ≤ int32Max ∧ Char.ofNat 0 ∉ s.toList ∧ (dialect = .c99 → ¬ HasTrigraph s.toList) := by
  constructor
  · rintro ⟨kept,-⟩
    obtain ⟨data,compiled,same⟩ := Option.map_eq_some_iff.mp kept
    rw [strFromCstr] at same
    split_ifs at same with long
    have ends : data.takeWhile (· ≠ 0) = utf8 s.toList := Outcome.ok.inj same
    rw [ends] at long
    refine ⟨Nat.le_of_not_lt long,fun nul => ?_,fun is has => ?_⟩
    · have member : 0 ∈ data.takeWhile (· ≠ 0) := ends ▸ zero_mem_utf8.mpr nul
      exact absurd (List.mem_takeWhile_imp member) (by decide)
    · rw [compileLiteral,if_pos is,escapeCString_toList] at compiled
      have shorter := (scan_replaced s.toList.length s.toList (Nat.le_refl _) .plain data compiled).2 has
      have part := (List.takeWhile_prefix (l := data) (· ≠ 0)).length_le
      rw [ends] at part
      simp only [Scan.owed] at shorter
      omega
  · rintro ⟨short,without,unmarked⟩
    refine ⟨?_,literalInObject_short short⟩
    have read : compileLiteral dialect (escapeCString s).toList = some (utf8 s.toList) := by
      rw [compileLiteral,escapeCString_toList]
      split
      next is =>
        have same := replaced_without s.toList (unmarked is)
        rw [replaced] at same
        rw [same,scan_escapedText s.toList without]
      next => exact scan_escapedText s.toList without
    rw [literalInC,read,Option.map_some,strFromCstr,takeWhile_utf8 without]
    exact congrArg some (if_neg (Nat.not_lt_of_le short))

/-- The NUL of `"a\0b"` ends the string of the C backend. -/
theorem nul_lost : ¬ LiteralKept .gnu11 "a\x00b" := by
  rintro ⟨kept,-⟩
  revert kept
  decide

end Oscan.Codegen
