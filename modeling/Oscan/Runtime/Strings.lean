import Oscan.Library.CInt
import Oscan.Library.Splitting
import Oscan.Runtime.Map

/-! Searching, splitting, joining and replacing strings, with the lengths of results in 32 bits. -/
namespace Oscan.Runtime.Strings
open Library Library.Lockstep Library.Splitting

/-- `INT32_MAX` -/
def int32Max : Nat := 2147483647

/-- Signed arithmetic has no defined outcome where the exact result has more than 32 bits. -/
def int32 (v : Int) : Outcome Int := (CInt.exactly 32 v).map CInt.value

/-- The loops over the bytes of a needle, which end at the first difference -/
def matchAt (s d : Str) (i : Nat) : Bool := (List.range d.length).all fun j => s[i + j]? == d[j]?

def slice (s : Str) (start len : Nat) : Str := (s.drop start).take len

def strFind (haystack needle : Str) : Int :=
  if needle.length = 0 then 0
  else if haystack.length < needle.length then -1
  else
    let limit := haystack.length - needle.length
    match (List.range (limit + 1)).find? fun i => slice haystack i needle.length == needle with
    | some i => i
    | none => -1

def strContains (s sub : Str) : Bool :=
  if sub.length = 0 then true
  else if s.length < sub.length then false
  else (List.range (s.length - sub.length + 1)).any (matchAt s sub)

/-- `osc_array_push` of a part, whose bytes are copied -/
def arrayPush (arr : List Str) (part : Str) : Outcome (List Str) :=
  if arr.length = int32Max then .panic "array length overflow" else .ok (arr ++ [part])

/-- The loop of `osc_str_split` from a place on, and the last part -/
def splitFrom (s delim : Str) (some : delim ≠ []) (i start : Nat) (arr : List Str) : Outcome (List Str) :=
  if i + delim.length ≤ s.length then
    if matchAt s delim i then
      (arrayPush arr (slice s start (i - start))).bind fun arr =>
        splitFrom s delim some (i + delim.length) (i + delim.length) arr
    else splitFrom s delim some (i + 1) start arr
  else arrayPush arr (slice s start (s.length - start))
termination_by s.length + 1 - i
decreasing_by
  all_goals have := List.length_pos_iff.mpr some
  all_goals omega

def strSplit (s delim : Str) : Outcome (List Str) :=
  if trivial : delim = [] ∨ s = [] then arrayPush [] s
  else splitFrom s delim (fun none => trivial (.inl none)) 0 0 []

/-- The first loop of `osc_str_replace` -/
def countFrom (s old : Str) (some : old ≠ []) (i count : Nat) : Nat :=
  if i + old.length ≤ s.length then
    if matchAt s old i then countFrom s old some (i + old.length) (count + 1)
    else countFrom s old some (i + 1) count
  else count
termination_by s.length + 1 - i
decreasing_by
  all_goals have := List.length_pos_iff.mpr some
  all_goals omega

/-- Bytes written behind those that a buffer has already -/
def write (size : Nat) (out bytes : Str) : Outcome Str :=
  if out.length + bytes.length ≤ size then .ok (out ++ bytes) else .undefined

/-- The byte behind the last one is zero, and no part of the string. -/
def terminate (size : Nat) (out : Str) : Outcome Str := if out.length < size then .ok out else .undefined

/-- The second loop of `osc_str_replace` -/
def copyFrom (s old new : Str) (some : old ≠ []) (size i : Nat) (out : Str) : Outcome Str :=
  if i < s.length then
    if i + old.length ≤ s.length ∧ matchAt s old i then
      (write size out new).bind fun out => copyFrom s old new some size (i + old.length) out
    else (write size out (slice s i 1)).bind fun out => copyFrom s old new some size (i + 1) out
  else .ok out
termination_by s.length - i
decreasing_by
  all_goals have := List.length_pos_iff.mpr some
  all_goals omega

def strReplace (s old new : Str) : Outcome Str :=
  if none : old = [] then .ok s
  else
    (int32 (new.length - old.length)).bind fun longer =>
      (int32 (countFrom s old none 0 0 * longer)).bind fun growth =>
        (int32 (s.length + growth)).bind fun newLen =>
          (copyFrom s old new none (newLen.toNat + 1) 0 []).bind (terminate (newLen.toNat + 1))

def totalFrom (total : Int) : List Str → Outcome Int
  | [] => .ok total
  | part :: parts => (int32 (total + part.length)).bind fun total => totalFrom total parts

/-- The second loop of `osc_str_join`, behind its first round -/
def joinFrom (sep : Str) (size : Nat) (out : Str) : List Str → Outcome Str
  | [] => .ok out
  | part :: parts =>
    (write size out sep).bind fun out => (write size out part).bind fun out => joinFrom sep size out parts

def strJoin (arr : List Str) (sep : Str) : Outcome Str :=
  match arr with
  | [] => .ok []
  | first :: parts =>
    (totalFrom 0 arr).bind fun total =>
      (int32 (sep.length * parts.length)).bind fun between =>
        (int32 (total + between)).bind fun totalLen =>
          (write (totalLen.toNat + 1) [] first).bind fun out =>
            (joinFrom sep (totalLen.toNat + 1) out parts).bind (terminate (totalLen.toNat + 1))

/-- A result is the whole one, or its length is no `i32` and the operation panics. -/
def Exact {α : Type} (o : Outcome (List α)) (result : List α) : Prop :=
  if result.length ≤ int32Max then o = .ok result else ∃ message, o = .panic message

/-- The laws of the operations for a string, a delimiter and a replacement -/
structure Lawful (s d r : Str) : Prop where
  split : Exact (strSplit s d) (pieces d s)
  rejoined : ∀ parts, strSplit s d = .ok parts → strJoin parts d = .ok s
  joined : ∀ parts, strSplit s d = .ok parts → Exact (strJoin parts r) (r.intercalate parts)
  replaced : Exact (strReplace s d r) (r.intercalate (pieces d s))
  same : ∀ parts, strSplit s d = .ok parts → strReplace s d r = strJoin parts r
  least : ∀ i : Nat, strFind s d = i ↔ Occurs d s i ∧ ∀ k < i, ¬Occurs d s k
  absent : strFind s d = -1 ↔ strContains s d = false

/-- How many occurrences are replaced -/
def occurrences (d s : Str) : Nat := (pieces d s).length - 1

/-! Searching -/

theorem matchAt_iff (s d : Str) (i : Nat) : matchAt s d i = true ↔ Occurs d s i := by
  unfold matchAt Occurs
  rw [List.all_eq_true,List.prefix_iff_getElem?]
  simp only [List.mem_range,beq_iff_eq,List.getElem?_drop]
  constructor
  · intro all j inside
    rw [all j inside,List.getElem?_eq_getElem inside]
  · intro all j inside
    rw [all j inside,List.getElem?_eq_getElem inside]

theorem occurs_length {d s : Str} {i : Nat} (found : Occurs d s i) (some : d ≠ []) : i + d.length ≤ s.length := by
  have limit := found.length_le
  have positive := List.length_pos_iff.mpr some
  rw [List.length_drop] at limit
  omega

theorem slice_iff (s d : Str) (i : Nat) : (slice s i d.length == d) = true ↔ Occurs d s i := by
  rw [beq_iff_eq,slice,Occurs,List.prefix_iff_eq_take]
  exact eq_comm

/-- The first place that a search over a range finds -/
theorem find_range_iff (p : Nat → Bool) (n i : Nat) :
    (List.range n).find? p = some i ↔ p i = true ∧ i < n ∧ ∀ k < i, p k = false := by
  rw [List.find?_range_eq_some]
  simp [List.mem_range]

theorem strFind_eq (s d : Str) (some : d ≠ []) (i : Nat) :
    strFind s d = i ↔ Occurs d s i ∧ ∀ k < i, ¬Occurs d s k := by
  have positive := List.length_pos_iff.mpr some
  unfold strFind
  rw [if_neg (by omega)]
  split
  next short =>
    refine iff_of_false (by omega) fun found => ?_
    have limit := occurs_length found.1 some
    omega
  next =>
    simp only
    split
    next j found =>
      obtain ⟨here,-,before⟩ := (find_range_iff _ _ _).mp found
      rw [slice_iff] at here
      constructor
      · intro is
        obtain rfl : j = i := by exact_mod_cast is
        exact ⟨here,fun k less occurs => by simpa [(slice_iff s d k).mpr occurs] using before k less⟩
      · intro ⟨occurs,first⟩
        rcases Nat.lt_trichotomy i j with less | rfl | more
        · exact absurd occurs fun _ => by simpa [(slice_iff s d i).mpr occurs] using before i less
        · rfl
        · exact absurd here (first j more)
    next missing =>
      refine iff_of_false (by omega) fun found => ?_
      have limit := occurs_length found.1 some
      rw [List.find?_eq_none] at missing
      exact missing i (List.mem_range.mpr (by omega)) ((slice_iff s d i).mpr found.1)

theorem strContains_iff (s d : Str) (some : d ≠ []) : strContains s d = true ↔ ∃ i, Occurs d s i := by
  have positive := List.length_pos_iff.mpr some
  unfold strContains
  rw [if_neg (by omega)]
  split
  next short =>
    refine iff_of_false (by simp) fun ⟨i,found⟩ => ?_
    have limit := occurs_length found some
    omega
  next =>
    rw [List.any_eq_true]
    constructor
    · intro ⟨i,_,found⟩
      exact ⟨i,(matchAt_iff s d i).mp found⟩
    · intro ⟨i,found⟩
      have limit := occurs_length found some
      exact ⟨i,List.mem_range.mpr (by omega),(matchAt_iff s d i).mpr found⟩

theorem strFind_cases (s d : Str) : strFind s d = -1 ∨ ∃ i : Nat, strFind s d = i := by
  unfold strFind
  split
  next => exact .inr ⟨0,rfl⟩
  next =>
    split
    next => exact .inl rfl
    next =>
      simp only
      split
      next i _ => exact .inr ⟨i,rfl⟩
      next => exact .inl rfl

theorem strFind_absent (s d : Str) (some : d ≠ []) : strFind s d = -1 ↔ strContains s d = false := by
  rw [← Bool.not_eq_true,strContains_iff s d some]
  constructor
  · intro absent ⟨i,found⟩
    have first : ∃ i, Occurs d s i := ⟨i,found⟩
    rw [(strFind_eq s d some (Nat.find first)).mpr ⟨Nat.find_spec first,fun _ => Nat.find_min first⟩] at absent
    omega
  · intro none
    apply (strFind_cases s d).resolve_right
    intro ⟨i,is⟩
    exact none ⟨i,((strFind_eq s d some i).mp is).1⟩

/-! Splitting -/

/-- Parts pushed one after the other -/
def pushAll (arr parts : List Str) : Outcome (List Str) :=
  match parts with
  | [] => .ok arr
  | part :: parts => (arrayPush arr part).bind fun arr => pushAll arr parts

theorem pushAll_eq : ∀ (parts arr : List Str), arr.length ≤ int32Max → pushAll arr parts =
    if arr.length + parts.length ≤ int32Max then .ok (arr ++ parts) else .panic "array length overflow"
  | [],arr,fits => by simp [pushAll,fits]
  | part :: parts,arr,fits => by
    unfold pushAll arrayPush
    by_cases full : arr.length = int32Max
    · rw [if_pos full,if_neg (by simp; omega)]
      rfl
    · rw [if_neg full,Outcome.bind_ok,pushAll_eq parts _ (by simp; omega)]
      simp [Nat.add_assoc,Nat.add_comm 1]

theorem slice_zero (s : Str) (start : Nat) : slice s start 0 = [] := List.take_zero

theorem drop_cons {s : Str} {i : Nat} (inside : i < s.length) : s.drop i = s[i] :: s.drop (i + 1) :=
  List.drop_eq_getElem_cons inside

theorem slice_succ {s : Str} {start i : Nat} (order : start ≤ i) (inside : i < s.length) (more : Str) :
    slice s start (i - start) ++ s[i] :: more = slice s start (i + 1 - start) ++ more := by
  have next : (s.drop start)[i - start]? = some s[i] := by
    rw [List.getElem?_drop,Nat.add_sub_cancel' order,List.getElem?_eq_getElem inside]
  rw [slice,slice,Nat.succ_sub order,List.take_add_one,next]
  simp

theorem modifyHead_nothing (parts : List Str) : parts.modifyHead (([] : Str) ++ ·) = parts := by cases parts <;> rfl

theorem slice_rest {s : Str} {start i : Nat} (order : start ≤ i) :
    slice s start (i - start) ++ s.drop i = slice s start (s.length - start) := by
  have same : s.drop i = (s.drop start).drop (i - start) := by
    rw [List.drop_drop,Nat.add_sub_cancel' order]
  rw [same,slice,slice,List.take_append_drop,List.take_of_length_le (by simp)]

/-- The loop pushes the pieces of what is left, the first of them with what stands before it. -/
theorem splitFrom_eq {s d : Str} (some : d ≠ []) (i start : Nat) (arr : List Str) :
    start ≤ i → i ≤ s.length → splitFrom s d some i start arr =
      pushAll arr ((pieces d (s.drop i)).modifyHead (slice s start (i - start) ++ ·)) := by
  fun_induction splitFrom s d some i start arr with
  | case1 i start arr inside found ih =>
    intro order _
    have here : d <+: s.drop i := (matchAt_iff s d i).mp found
    rw [pieces_found some here,List.drop_drop,List.modifyHead_cons,pushAll,List.append_nil]
    refine congrArg _ (funext fun arr => ?_)
    rw [ih arr (Nat.le_refl _) inside,Nat.sub_self,slice_zero,modifyHead_nothing]
  | case2 i start arr inside missing ih =>
    intro order _
    have positive := List.length_pos_iff.mpr some
    have within : i < s.length := by omega
    have other : ¬d <+: s[i] :: s.drop (i + 1) := by
      rw [← drop_cons within]
      exact fun found => missing ((matchAt_iff s d i).mpr found)
    rw [ih (by omega) (by omega),drop_cons within,pieces_other other,List.modifyHead_modifyHead]
    refine congrArg _ (congrArg (fun f => List.modifyHead f _) (funext fun more => ?_))
    exact (slice_succ order within more).symm
  | case3 i start arr beyond =>
    intro order _
    rw [pieces_short (by rw [List.length_drop]; omega),List.modifyHead_cons,slice_rest order]
    simp only [pushAll]
    cases arrayPush arr _ <;> rfl

theorem strSplit_eq (s d : Str) (some : d ≠ []) : strSplit s d =
    if (pieces d s).length ≤ int32Max then .ok (pieces d s) else .panic "array length overflow" := by
  have pushed := pushAll_eq (pieces d s) [] (Nat.zero_le _)
  simp only [List.length_nil,Nat.zero_add,List.nil_append] at pushed
  rw [← pushed]
  unfold strSplit
  split
  next trivial =>
    have empty : s = [] := trivial.resolve_left some
    rw [empty,pieces_nil]
    rfl
  next other =>
    rw [splitFrom_eq some 0 0 [] (Nat.le_refl _) (Nat.zero_le _),slice_zero,modifyHead_nothing]
    rfl

/-! Joining -/

theorem int32_ok {v : Int} (fits : CInt.Fits 32 v) : int32 v = .ok v := by rw [int32,CInt.exactly_fits fits]; rfl

theorem int32_undefined {v : Int} (beyond : ¬CInt.Fits 32 v) : int32 v = .undefined := by
  rw [int32,CInt.exactly,dif_neg beyond]
  rfl

theorem int32_natural (n : Nat) : int32 n = if n ≤ int32Max then .ok (n : Int) else .undefined := by
  split
  next fits => exact int32_ok (by unfold CInt.Fits; unfold int32Max at fits; omega)
  next beyond => exact int32_undefined (by unfold CInt.Fits; unfold int32Max at beyond; omega)

theorem totalFrom_eq : ∀ (parts : List Str) (total : Nat), total ≤ int32Max → totalFrom total parts =
    if total + (parts.map List.length).sum ≤ int32Max then .ok ((total + (parts.map List.length).sum : Nat) : Int)
    else .undefined
  | [],total,fits => by simp [totalFrom,fits]
  | part :: parts,total,_ => by
    unfold totalFrom
    rw [← Nat.cast_add,int32_natural]
    by_cases fits : total + part.length ≤ int32Max
    · rw [if_pos fits,Outcome.bind_ok,totalFrom_eq parts _ fits]
      simp [Nat.add_assoc]
    · rw [if_neg fits,if_neg (by simp; omega)]
      rfl

theorem write_ok {size : Nat} {out bytes : Str} (room : (out ++ bytes).length ≤ size) :
    write size out bytes = .ok (out ++ bytes) := if_pos (by simpa using room)

theorem joinFrom_eq (sep : Str) (size : Nat) : ∀ (parts : List Str) (out : Str), parts ≠ [] →
    (out ++ sep ++ sep.intercalate parts).length ≤ size →
      joinFrom sep size out parts = .ok (out ++ sep ++ sep.intercalate parts)
  | [part],out,_,room => by
    rw [List.intercalate_singleton] at room ⊢
    unfold joinFrom
    rw [write_ok (by simp at room ⊢; omega),Outcome.bind_ok,write_ok room]
    rfl
  | part :: next :: parts,out,_,room => by
    rw [List.intercalate_cons_cons] at room ⊢
    have rest := joinFrom_eq sep size (next :: parts) (out ++ sep ++ part) (by simp) (by simpa using room)
    rw [joinFrom,write_ok (by simp at room ⊢; omega),Outcome.bind_ok,write_ok (by simp at room ⊢; omega),Outcome.bind_ok,
      rest]
    simp

theorem joinFrom_first (sep : Str) (size : Nat) (first : Str) (parts : List Str)
    (room : (sep.intercalate (first :: parts)).length ≤ size) :
    joinFrom sep size first parts = .ok (sep.intercalate (first :: parts)) := by
  cases parts with
  | nil =>
    rw [List.intercalate_singleton]
    rfl
  | cons next parts =>
    rw [List.intercalate_cons_cons] at room ⊢
    exact joinFrom_eq sep size (next :: parts) first (by simp) room

/-- Joining gives the whole text, or has no defined outcome because the length is no `i32`. -/
theorem strJoin_eq (parts : List Str) (sep : Str) : strJoin parts sep =
    if (sep.intercalate parts).length ≤ int32Max then .ok (sep.intercalate parts) else .undefined := by
  cases parts with
  | nil => rfl
  | cons first parts =>
    have length := intercalate_length sep (List.cons_ne_nil first parts)
    simp only [List.length_cons,Nat.add_sub_cancel] at length
    generalize total : ((first :: parts).map List.length).sum = sum at length
    have sums := totalFrom_eq (first :: parts) 0 (Nat.zero_le _)
    rw [total,Nat.zero_add] at sums
    unfold strJoin
    simp only
    rw [show ((0 : Nat) : Int) = 0 from rfl] at sums
    rw [sums,← Nat.cast_mul,int32_natural]
    by_cases fits : (sep.intercalate (first :: parts)).length ≤ int32Max
    · have room : first.length ≤ (sep.intercalate (first :: parts)).length := by
        rw [length,← total]
        simp only [List.map_cons,List.sum_cons]
        omega
      rw [if_pos fits,if_pos (by omega),if_pos (by omega),Outcome.bind_ok,Outcome.bind_ok,← Nat.cast_add,int32_natural,
        ← length,if_pos fits,Outcome.bind_ok,Int.toNat_natCast,write_ok (by simp only [List.nil_append]; omega),
        Outcome.bind_ok,List.nil_append,joinFrom_first sep _ first parts (by omega),Outcome.bind_ok]
      exact if_pos (by omega)
    · rw [if_neg fits]
      by_cases few : sum ≤ int32Max
      · rw [if_pos few,Outcome.bind_ok]
        by_cases short : sep.length * parts.length ≤ int32Max
        · rw [if_pos short,Outcome.bind_ok,← Nat.cast_add,int32_natural,← length,if_neg fits]
          rfl
        · rw [if_neg short]
          rfl
      · rw [if_neg few]
        rfl

/-! Replacing -/

theorem countFrom_eq {s d : Str} (some : d ≠ []) (i count : Nat) : i ≤ s.length →
    countFrom s d some i count + 1 = count + (pieces d (s.drop i)).length := by
  fun_induction countFrom s d some i count with
  | case1 i count inside found ih =>
    intro _
    have here : d <+: s.drop i := (matchAt_iff s d i).mp found
    rw [ih inside,pieces_found some here,List.drop_drop,List.length_cons]
    omega
  | case2 i count inside missing ih =>
    intro _
    have positive := List.length_pos_iff.mpr some
    have within : i < s.length := by omega
    have other : ¬d <+: s[i] :: s.drop (i + 1) := by
      rw [← drop_cons within]
      exact fun found => missing ((matchAt_iff s d i).mpr found)
    rw [ih within,drop_cons within,pieces_other other,List.length_modifyHead]
  | case3 i count beyond =>
    intro _
    rw [pieces_short (by rw [List.length_drop]; omega)]
    rfl

/-- The second loop writes the pieces of what is left with the replacement between them. -/
theorem copyFrom_eq {s d r : Str} (some : d ≠ []) (size i : Nat) (out : Str) : i ≤ s.length →
    (out ++ r.intercalate (pieces d (s.drop i))).length ≤ size →
      copyFrom s d r some size i out = .ok (out ++ r.intercalate (pieces d (s.drop i))) := by
  fun_induction copyFrom s d r some size i out with
  | case1 i out inside found ih =>
    intro _ room
    have here : d <+: s.drop i := (matchAt_iff s d i).mp found.2
    rw [pieces_found some here,List.drop_drop,List.intercalate_cons_of_ne_nil (pieces_ne_nil _ _),List.nil_append,
      ← List.append_assoc] at room ⊢
    rw [write_ok (by simp at room ⊢; omega),Outcome.bind_ok]
    exact ih _ found.1 room
  | case2 i out inside missing ih =>
    intro _ room
    have other : ¬d <+: s[i] :: s.drop (i + 1) := by
      rw [← drop_cons inside]
      intro found
      have occurs : Occurs d s i := found
      exact missing ⟨occurs_length occurs some,(matchAt_iff s d i).mpr occurs⟩
    have one : slice s i 1 = [s[i]] := by rw [slice,drop_cons inside]; rfl
    rw [drop_cons inside,pieces_other other,intercalate_grow (pieces_ne_nil _ _),List.append_cons] at room ⊢
    rw [one]
    rw [write_ok (by simp at room ⊢; omega),Outcome.bind_ok]
    exact ih _ inside room
  | case3 i out beyond =>
    intro inside _
    rw [List.drop_of_length_le (by omega),pieces_nil,List.intercalate_singleton,List.append_nil]

/-- Every occurrence takes away a word and brings the replacement. -/
theorem replaced_length (s d r : Str) :
    (r.intercalate (pieces d s)).length + occurrences d s * d.length = s.length + occurrences d s * r.length := by
  have whole := congrArg List.length (intercalate_pieces d s)
  rw [intercalate_length d (pieces_ne_nil d s)] at whole
  rw [intercalate_length r (pieces_ne_nil d s),occurrences,Nat.mul_comm r.length,← whole,Nat.mul_comm d.length]
  omega

theorem strReplace_eq {s d r : Str} (some : d ≠ []) (short : s.length ≤ int32Max) (shortWord : d.length ≤ int32Max)
    (shortReplacement : r.length ≤ int32Max) : strReplace s d r =
      if (r.intercalate (pieces d s)).length ≤ int32Max then .ok (r.intercalate (pieces d s)) else .undefined := by
  have counted : countFrom s d some 0 0 = occurrences d s := by
    have count := countFrom_eq some 0 0 (Nat.zero_le s.length)
    rw [List.drop_zero,Nat.zero_add] at count
    rw [occurrences,← count,Nat.add_sub_cancel]
  have balance : (s.length : Int) + occurrences d s * ((r.length : Int) - d.length) =
      (r.intercalate (pieces d s)).length := by
    have lengths : ((r.intercalate (pieces d s)).length : Int) + occurrences d s * d.length =
        s.length + occurrences d s * r.length := by exact_mod_cast replaced_length s d r
    rw [Int.mul_sub]
    omega
  have difference : CInt.Fits 32 ((r.length : Int) - d.length) := by
    unfold CInt.Fits
    unfold int32Max at shortWord shortReplacement
    omega
  unfold strReplace
  rw [dif_neg some,int32_ok difference,Outcome.bind_ok,counted]
  generalize growth : (occurrences d s : Int) * ((r.length : Int) - d.length) = more at balance ⊢
  by_cases fits : (r.intercalate (pieces d s)).length ≤ int32Max
  · have copied := copyFrom_eq (r := r) some ((r.intercalate (pieces d s)).length + 1) 0 [] (Nat.zero_le s.length)
      (by simp)
    rw [List.drop_zero,List.nil_append] at copied
    have inside : CInt.Fits 32 more := by
      unfold CInt.Fits
      unfold int32Max at fits short
      omega
    rw [if_pos fits,int32_ok inside,Outcome.bind_ok,balance,int32_natural,if_pos fits,Outcome.bind_ok,Int.toNat_natCast,
      copied,Outcome.bind_ok]
    exact if_pos (by omega)
  · rw [if_neg fits]
    by_cases inside : CInt.Fits 32 more
    · rw [int32_ok inside,Outcome.bind_ok,balance,int32_natural,if_neg fits]
      rfl
    · rw [int32_undefined inside]
      rfl

theorem exact_measured {α : Type} (result : List α) :
    Exact (if result.length ≤ int32Max then .ok result else .undefined) result ↔ result.length ≤ int32Max := by
  unfold Exact
  split
  next fits => exact iff_of_true rfl fits
  next beyond => exact iff_of_false (fun ⟨_,no⟩ => by cases no) beyond

/-- The laws hold for all strings and delimiters whose replacement makes no string that is too long for an `i32`. -/
theorem strings_lawful_iff (s d r : Str) (some : d ≠ []) (short : s.length ≤ int32Max)
    (shortWord : d.length ≤ int32Max) (shortReplacement : r.length ≤ int32Max) :
    Lawful s d r ↔ s.length + occurrences d s * r.length ≤ int32Max + occurrences d s * d.length := by
  have lengths := replaced_length s d r
  have fits_iff : s.length + occurrences d s * r.length ≤ int32Max + occurrences d s * d.length ↔
      (r.intercalate (pieces d s)).length ≤ int32Max := by omega
  have replaced := strReplace_eq some short shortWord shortReplacement
  have parts_of : ∀ parts, strSplit s d = .ok parts → parts = pieces d s := by
    intro parts split
    rw [strSplit_eq s d some] at split
    split at split
    next => exact (Outcome.ok.inj split).symm
    next => cases split
  rw [fits_iff]
  constructor
  · intro lawful
    have exact := lawful.replaced
    rw [replaced] at exact
    exact (exact_measured _).mp exact
  · intro fits
    refine ⟨?_,?_,?_,?_,?_,strFind_eq s d some,strFind_absent s d some⟩
    · rw [strSplit_eq s d some,Exact]
      split
      next => rfl
      next => exact ⟨_,rfl⟩
    · intro parts split
      rw [parts_of parts split,strJoin_eq,intercalate_pieces,if_pos short]
    · intro parts split
      rw [parts_of parts split,strJoin_eq]
      exact (exact_measured _).mpr fits
    · rw [replaced]
      exact (exact_measured _).mpr fits
    · intro parts split
      rw [parts_of parts split,strJoin_eq,replaced]

/-- `a,a` with `b` for the comma -/
theorem strings_lawful_comma : Lawful [97,44,97] [44] [98] :=
  (strings_lawful_iff [97,44,97] [44] [98] (by decide) (by decide) (by decide) (by decide)).mpr (by
    simp [int32Max])

theorem pieces_replicate (n : Nat) (a : UInt8) : pieces [a] (List.replicate n a) = List.replicate (n + 1) [] := by
  induction n with
  | zero => exact pieces_nil _
  | succ n ih =>
    rw [pieces_found (by simp) (by simp [List.replicate_succ])]
    simp [List.replicate_succ] at ih ⊢
    exact ih

def repeated (a : UInt8) : Str := List.replicate 65536 a

theorem repeated_length (a : UInt8) : (repeated a).length = 65536 := List.length_replicate

/-- 65536 bytes of 65536 each: the length of the result overflows, and nothing panics. -/
theorem strings_lawful_fails :
    strReplace (repeated 97) [97] (repeated 98) = .undefined ∧ ¬Lawful (repeated 97) [97] (repeated 98) := by
  have count : occurrences [97] (repeated 97) = 65536 := by
    rw [occurrences,repeated,pieces_replicate,List.length_replicate]
  have lengths := replaced_length (repeated 97) [97] (repeated 98)
  rw [count,repeated_length,repeated_length,List.length_singleton] at lengths
  have beyond : ¬((repeated 98).intercalate (pieces [97] (repeated 97))).length ≤ int32Max := by
    unfold int32Max
    omega
  have replaced := @strReplace_eq (repeated 97) [97] (repeated 98) (by simp) (by rw [repeated_length]; decide)
    (by decide) (by rw [repeated_length]; decide)
  rw [if_neg beyond] at replaced
  refine ⟨replaced,fun lawful => ?_⟩
  have exact := lawful.replaced
  rw [Exact,if_neg beyond,replaced] at exact
  obtain ⟨_,no⟩ := exact
  cases no

end Oscan.Runtime.Strings
