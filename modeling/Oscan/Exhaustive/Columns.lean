import Mathlib.Data.Finset.Card
import Mathlib.Data.Int.Interval
import Oscan.Exhaustive.Layered
import Oscan.Library.Coverage

/-! The columns of a match: the heads that the patterns of a column tell apart, and the
values that stand behind them. -/
namespace Oscan
open Semantic Semantic.Analyzer Coverage

/-- What a pattern can ask of a value; `other` is a value that no literal of the column names. -/
inductive Head where
  | int (n : Int)
  | float (x : Binary64)
  | bool (b : Bool)
  | str (s : String)
  | variant (enumName variant : String)
  | other
deriving DecidableEq

namespace Pattern

def intValue : Pattern → Option Int
  | .intLit value _ => some value
  | _ => none

def floatValue : Pattern → Option Binary64
  | .floatLit value _ => some value
  | _ => none

def stringValue : Pattern → Option String
  | .stringLit value _ => some value
  | _ => none

/-- The payload patterns of a pattern that asks for the head. -/
def split : Head → Pattern → Option (List Pattern)
  | .int n,.intLit value _ => if n = value then some [] else none
  | .float x,.floatLit value _ => if x.eq value = true then some [] else none
  | .bool b,.boolLit value _ => if b = value then some [] else none
  | .str s,.stringLit value _ => if s = value then some [] else none
  | .variant enumName variant,.enum name tag bindings _ =>
    if name = enumName ∧ tag = variant then some bindings else none
  | _,_ => none

end Pattern

mutual
/-- The number of literals and variants in a pattern. -/
def Pattern.weight : Pattern → Nat
  | .wildcard _ | .ident .. => 0
  | .intLit .. | .floatLit .. | .stringLit .. | .boolLit .. => 1
  | .enum _ _ bindings _ => 1+weights bindings
def weights : List Pattern → Nat
  | [] => 0
  | p :: ps => p.weight+weights ps
end

/-- The literals of a column of integers, and `other` unless they are all integers there are. -/
def intHeads (width : Nat) (column : List Pattern) : List (Head × List BcType) :=
  let listed := (column.filterMap Pattern.intValue).filter (inRange width)
  listed.map (fun n => (.int n,[])) ++ if listed.dedup.length = 2^width then [] else [(.other,[])]

def heads (info : SemanticInfo) (ty : BcType) (column : List Pattern) : List (Head × List BcType) :=
  match ty with
  | .i32 => intHeads 32 column
  | .i64 => intHeads 64 column
  | .f64 => (column.filterMap Pattern.floatValue).map (fun x => (.float x,[])) ++ [(.other,[])]
  | .str => (column.filterMap Pattern.stringValue).map (fun s => (.str s,[])) ++ [(.other,[])]
  | .bool => [(.bool true,[]),(.bool false,[])]
  | .enum name => ((info.enums.lookup name).map fun known => known.variants.map fun v =>
      (Head.variant name v.1,(known.variants.lookup v.1).getD [])).getD []
  | .result ok err => [(.variant "Result" "Ok",[ok]),(.variant "Result" "Err",[err])]
  | other => if vacant info other then [] else [(.other,[])]

/-- The patterns of the language over its values. -/
def patterns (info : SemanticInfo) : Patterns BcType Pattern Value Head where
  hasSort v ty := v.hasType info ty = true
  sat p v := p.matches v = true
  catchAll := isCatchAll
  wild := .wildcard default
  weight := Pattern.weight
  heads := heads info
  split := Pattern.split
  vacant := vacant info

theorem weights_eq : ∀ ps : List Pattern, weights ps = (ps.map Pattern.weight).sum
  | [] => rfl
  | p :: ps => by simp [weights,weights_eq ps]

/-- A value with the arguments behind its head. -/
inductive Carries : Head → List Value → Value → Prop
  | int (n : Int) : Carries (.int n) [] (.int n)
  | float (x : Binary64) : Carries (.float x) [] (.float x)
  | bool (b : Bool) : Carries (.bool b) [] (.bool b)
  | str (s : String) : Carries (.str s) [] (.str s)
  | enum (name variant : String) (payload : List Value) :
      Carries (.variant name variant) payload (.enum name variant payload)
  | ok (value : Value) : Carries (.variant "Result" "Ok") [value] (.ok value)
  | err (value : Value) : Carries (.variant "Result" "Err") [value] (.err value)

variable {info : SemanticInfo}

theorem admits_other {args : List Value} {p : Pattern} :
    (patterns info).admits .other args p ↔ isCatchAll p = true := by
  have closed : Pattern.split .other p = none := by cases p <;> rfl
  simp [Patterns.admits,patterns,closed]

theorem carries_admits {head : Head} {args : List Value} {v : Value} (carried : Carries head args v)
    (p : Pattern) : p.matches v = true ↔ (patterns info).admits head args p := by
  cases carried <;> cases p <;>
    simp [Patterns.admits,patterns,Pattern.matches,Pattern.split,isCatchAll,matchesAll_iff,and_assoc]

/-- Literals in the range are all integers of the range exactly when they are as many. -/
theorem listed_full {width : Nat} (positive : 0 < width) {listed : List Int}
    (within : ∀ n ∈ listed, inRange width n = true) :
    listed.dedup.length = 2^width ↔ ∀ n, inRange width n = true → n ∈ listed := by
  have range (n : Int) : n ∈ Finset.Ico (-2^(width-1) : Int) (2^(width-1)) ↔
      inRange width n = true := by simp [inRange]
  have size : (Finset.Ico (-2^(width-1) : Int) (2^(width-1))).card = 2^width := by
    obtain ⟨k,rfl⟩ : ∃ k, width = k+1 := ⟨width-1,by omega⟩
    rw [Int.card_Ico,Nat.add_sub_cancel,sub_neg_eq_add,← two_mul,← pow_succ']
    exact Int.toNat_natCast (2^(k+1))
  have inside : listed.toFinset ⊆ Finset.Ico (-2^(width-1) : Int) (2^(width-1)) := by
    intro n member
    exact (range n).mpr (within n (List.mem_toFinset.mp member))
  rw [← List.card_toFinset,← size]
  constructor
  · intro full n member
    rw [← List.mem_toFinset,Finset.eq_of_subset_of_card_le inside full.ge]
    exact (range n).mpr member
  · intro all
    rw [Finset.Subset.antisymm inside]
    intro n member
    exact List.mem_toFinset.mpr (all n ((range n).mp member))

private theorem length_le_sum {s : String} : ∀ {listed : List String}, s ∈ listed →
    s.length ≤ (listed.map String.length).sum
  | t :: rest,member => by
    simp only [List.map_cons,List.sum_cons]
    rcases List.mem_cons.mp member with rfl | later
    · omega
    · have := length_le_sum later
      omega

theorem fresh_string (listed : List String) : ∃ s : String, s ∉ listed := by
  refine ⟨String.ofList (List.replicate ((listed.map String.length).sum+1) 'a'),fun member => ?_⟩
  have bound := length_le_sum member
  rw [String.length_ofList,List.length_replicate] at bound
  omega

/-- Values that only a catch-all matches: those of no literal in the column. -/
theorem matches_other {v : Value} {p : Pattern} {args : List Value}
    (unnamed : p.matches v = true → isCatchAll p = true) :
    p.matches v = true ↔ (patterns info).admits .other args p := by
  rw [admits_other]
  refine ⟨unnamed,fun caught => ?_⟩
  cases p <;> simp_all [Pattern.matches,isCatchAll]

theorem matches_int {n : Int} {p : Pattern} (holds : p.matches (.int n) = true) :
    isCatchAll p = true ∨ p.intValue = some n := by
  cases p <;> simp_all [Pattern.matches,isCatchAll,Pattern.intValue]

theorem matches_str {s : String} {p : Pattern} (holds : p.matches (.str s) = true) :
    isCatchAll p = true ∨ p.stringValue = some s := by
  cases p <;> simp_all [Pattern.matches,isCatchAll,Pattern.stringValue]

theorem matches_float {x : Binary64} {p : Pattern} (holds : p.matches (.float x) = true) :
    isCatchAll p = true ∨ ∃ y, p.floatValue = some y ∧ x.eq y = true := by
  cases p <;> simp_all [Pattern.matches,isCatchAll,Pattern.floatValue]

theorem matches_float_congr {x y : Binary64} (same : x.eq y = true) (p : Pattern) :
    p.matches (.float x) = p.matches (.float y) := by
  cases p <;> simp [Pattern.matches,Binary64.eq_congr same]

/-- The head and the arguments tell of a value all that the patterns of the column ask. -/
def Behind (info : SemanticInfo) (column : List Pattern) (head : Head) (args : List Value)
    (v : Value) : Prop :=
  ∀ p ∈ column, p.matches v = true ↔ (patterns info).admits head args p

theorem Carries.behind {head : Head} {args : List Value} {v : Value} (carried : Carries head args v)
    (column : List Pattern) : Behind info column head args v :=
  fun p _ => carries_admits carried p

/-- Every value of the type stands behind a head of the column. -/
def Reaches (info : SemanticInfo) (ty : BcType) (column : List Pattern)
    (list : List (Head × List BcType)) : Prop :=
  ∀ v : Value, v.hasType info ty = true → ∃ head ∈ list, ∃ args,
    List.Forall₂ (fun v ty => v.hasType info ty = true) args head.2 ∧ Behind info column head.1 args v

/-- Every head of the column has a value of the type behind it. -/
def Builds (info : SemanticInfo) (ty : BcType) (column : List Pattern)
    (list : List (Head × List BcType)) : Prop :=
  ∀ head ∈ list, ∀ args, List.Forall₂ (fun v ty => v.hasType info ty = true) args head.2 →
    ∃ v : Value, v.hasType info ty = true ∧ Behind info column head.1 args v

section
variable {ty : BcType} {column : List Pattern}

theorem intHeads_exact {width : Nat} (positive : 0 < width)
    (ints : ∀ v : Value, v.hasType info ty = true ↔ ∃ n, v = .int n ∧ inRange width n = true) :
    Reaches info ty column (intHeads width column) ∧ Builds info ty column (intHeads width column) := by
  let listed := (column.filterMap Pattern.intValue).filter (inRange width)
  have within : ∀ n ∈ listed, inRange width n = true := fun n member => (List.mem_filter.mp member).2
  have full := listed_full positive within
  have unnamed {n : Int} (valid : inRange width n = true) (absent : n ∉ listed) :
      Behind info column .other [] (.int n) := by
    intro p member
    refine matches_other fun holds => (matches_int holds).resolve_right fun named => absent ?_
    exact List.mem_filter.mpr ⟨List.mem_filterMap.mpr ⟨p,member,named⟩,valid⟩
  constructor
  · intro v typed
    obtain ⟨n,rfl,valid⟩ := (ints v).mp typed
    by_cases named : n ∈ listed
    · refine ⟨(.int n,[]),?_,[],.nil,(Carries.int n).behind column⟩
      exact List.mem_append_left _ (List.mem_map_of_mem named)
    · have some_ : listed.dedup.length ≠ 2^width := fun all => named (full.mp all n valid)
      refine ⟨(.other,[]),?_,[],.nil,unnamed valid named⟩
      simp [intHeads,listed,some_]
  · intro head member args typed
    rcases List.mem_append.mp member with member | member
    · obtain ⟨n,named,rfl⟩ := List.mem_map.mp member
      cases typed
      exact ⟨.int n,(ints _).mpr ⟨n,rfl,within n named⟩,(Carries.int n).behind column⟩
    · split at member
      · simp at member
      next some_ =>
        obtain rfl := List.mem_singleton.mp member
        cases typed
        obtain ⟨n,missing⟩ := not_forall.mp (full.not.mp some_)
        obtain ⟨valid,absent⟩ := Classical.not_imp.mp missing
        exact ⟨.int n,(ints _).mpr ⟨n,rfl,valid⟩,unnamed valid absent⟩

theorem strHeads_exact : Reaches info .str column (heads info .str column) ∧
    Builds info .str column (heads info .str column) := by
  have unnamed {s : String} (absent : s ∉ column.filterMap Pattern.stringValue) :
      Behind info column .other [] (.str s) := by
    intro p member
    refine matches_other fun holds => (matches_str holds).resolve_right fun named => absent ?_
    exact List.mem_filterMap.mpr ⟨p,member,named⟩
  constructor
  · intro v typed
    cases v <;> simp [Value.hasType] at typed
    next s =>
      by_cases named : s ∈ column.filterMap Pattern.stringValue
      · refine ⟨(.str s,[]),?_,[],.nil,(Carries.str s).behind column⟩
        exact List.mem_append_left _ (List.mem_map_of_mem named)
      · exact ⟨(.other,[]),by simp [heads],[],.nil,unnamed named⟩
  · intro head member args typed
    rcases List.mem_append.mp member with member | member
    · obtain ⟨s,-,rfl⟩ := List.mem_map.mp member
      cases typed
      exact ⟨.str s,by simp [Value.hasType],(Carries.str s).behind column⟩
    · obtain rfl := List.mem_singleton.mp member
      cases typed
      obtain ⟨s,absent⟩ := fresh_string (column.filterMap Pattern.stringValue)
      exact ⟨.str s,by simp [Value.hasType],unnamed absent⟩

theorem floatHeads_exact : Reaches info .f64 column (heads info .f64 column) ∧
    Builds info .f64 column (heads info .f64 column) := by
  have unnamed {x : Binary64} (absent : ∀ y ∈ column.filterMap Pattern.floatValue, x.eq y = false) :
      Behind info column .other [] (.float x) := by
    intro p member
    refine matches_other fun holds => (matches_float holds).resolve_right ?_
    rintro ⟨y,named,same⟩
    have apart := absent y (List.mem_filterMap.mpr ⟨p,member,named⟩)
    simp [same] at apart
  constructor
  · intro v typed
    cases v <;> simp [Value.hasType] at typed
    next x =>
      by_cases named : ∃ y ∈ column.filterMap Pattern.floatValue, x.eq y = true
      · obtain ⟨y,named,same⟩ := named
        refine ⟨(.float y,[]),List.mem_append_left _ (List.mem_map_of_mem named),[],.nil,?_⟩
        intro p member
        rw [matches_float_congr same]
        exact carries_admits (.float y) p
      · refine ⟨(.other,[]),by simp [heads],[],.nil,unnamed fun y member => ?_⟩
        exact Bool.eq_false_iff.mpr fun same => named ⟨y,member,same⟩
  · intro head member args typed
    rcases List.mem_append.mp member with member | member
    · obtain ⟨x,-,rfl⟩ := List.mem_map.mp member
      cases typed
      exact ⟨.float x,by simp [Value.hasType],(Carries.float x).behind column⟩
    · obtain rfl := List.mem_singleton.mp member
      cases typed
      exact ⟨.float .nan,by simp [Value.hasType],unnamed fun y _ => Binary64.eq_nan y⟩

theorem boolHeads_exact : Reaches info .bool column (heads info .bool column) ∧
    Builds info .bool column (heads info .bool column) := by
  constructor
  · intro v typed
    cases v <;> simp [Value.hasType] at typed
    next b =>
      refine ⟨(.bool b,[]),?_,[],.nil,(Carries.bool b).behind column⟩
      cases b <;> simp [heads]
  · intro head member args typed
    simp only [heads,List.mem_cons,List.not_mem_nil,or_false] at member
    rcases member with rfl | rfl <;> cases typed
    · exact ⟨.bool true,by simp [Value.hasType],(Carries.bool true).behind column⟩
    · exact ⟨.bool false,by simp [Value.hasType],(Carries.bool false).behind column⟩

theorem enumHeads_exact {name : String} : Reaches info (.enum name) column (heads info (.enum name) column) ∧
    Builds info (.enum name) column (heads info (.enum name) column) := by
  constructor
  · intro v typed
    cases v with
    | enum enumName variant payload =>
      simp only [Value.hasType,Bool.and_eq_true,beq_iff_eq] at typed
      obtain ⟨rfl,typed⟩ := typed
      split at typed
      next types found =>
        obtain ⟨known,declared,found⟩ := Option.bind_eq_some_iff.mp found
        refine ⟨(.variant enumName variant,types),?_,payload,haveTypes_iff.mp typed,
          (Carries.enum enumName variant payload).behind column⟩
        simp only [heads,declared,Option.map_some,Option.getD_some]
        exact List.mem_map.mpr ⟨(variant,types),mem_of_lookup found,by rw [found,Option.getD_some]⟩
      next => simp at typed
    | _ => simp [Value.hasType] at typed
  · intro head member args typed
    cases declared : info.enums.lookup name with
    | none => simp [heads,declared] at member
    | some known =>
      simp only [heads,declared,Option.map_some,Option.getD_some] at member
      obtain ⟨⟨variant,_⟩,listed,rfl⟩ := List.mem_map.mp member
      obtain ⟨types,found⟩ := Option.isSome_iff_exists.mp (isSome_lookup listed)
      simp only [found,Option.getD_some] at typed
      refine ⟨.enum name variant args,?_,(Carries.enum name variant args).behind column⟩
      simp [Value.hasType,declared,found,haveTypes_iff.mpr typed]

theorem resultHeads_exact {ok err : BcType} :
    Reaches info (.result ok err) column (heads info (.result ok err) column) ∧
      Builds info (.result ok err) column (heads info (.result ok err) column) := by
  constructor
  · intro v typed
    cases v with
    | ok value =>
      rw [Value.hasType] at typed
      exact ⟨(.variant "Result" "Ok",[ok]),by simp [heads],[value],.cons typed .nil,
        (Carries.ok value).behind column⟩
    | err value =>
      rw [Value.hasType] at typed
      exact ⟨(.variant "Result" "Err",[err]),by simp [heads],[value],.cons typed .nil,
        (Carries.err value).behind column⟩
    | _ => simp [Value.hasType] at typed
  · intro head member args typed
    simp only [heads,List.mem_cons,List.not_mem_nil,or_false] at member
    rcases member with rfl | rfl <;>
      obtain ⟨value,_,typed,none_,rfl⟩ := List.forall₂_cons_right_iff.mp typed <;> cases none_
    · exact ⟨.ok value,by rwa [Value.hasType],(Carries.ok value).behind column⟩
    · exact ⟨.err value,by rwa [Value.hasType],(Carries.err value).behind column⟩

/-- No pattern but a catch-all matches the value. -/
def Value.plain : Value → Bool
  | .unit | .handle _ | .array _ | .map _ | .fn _ | .struct .. => true
  | _ => false

theorem matches_plain {v : Value} {p : Pattern} (plain : v.plain = true) (holds : p.matches v = true) :
    isCatchAll p = true := by
  cases p <;> first | rfl | (cases v <;> simp [Pattern.matches,Value.plain] at holds plain)

theorem plainHeads_exact (plain : ∀ v : Value, v.hasType info ty = true → v.plain = true)
    (exact : vacant info ty = true ↔ ¬HasValue info ty) :
    let list := if vacant info ty then [] else [(Head.other,[])]
    Reaches info ty column list ∧ Builds info ty column list := by
  intro list
  have behind {v : Value} (typed : v.hasType info ty = true) : Behind info column .other [] v :=
    fun p _ => matches_other (matches_plain (plain v typed))
  by_cases empty : vacant info ty = true
  · simp only [list,empty,if_true]
    exact ⟨fun v typed => absurd ⟨v,typed⟩ (exact.mp empty),fun head member => by simp at member⟩
  · obtain ⟨v,typed⟩ := not_not.mp (exact.not.mp empty)
    simp only [list,empty]
    constructor
    · exact fun v typed => ⟨_,List.mem_singleton_self _,[],.nil,behind typed⟩
    · intro head member args same
      obtain rfl := List.mem_singleton.mp member
      cases same
      exact ⟨v,typed,behind typed⟩

theorem heads_exact (exact : ∀ ty, vacant info ty = true ↔ ¬HasValue info ty) :
    Reaches info ty column (heads info ty column) ∧ Builds info ty column (heads info ty column) := by
  cases ty with
  | i32 =>
    refine intHeads_exact (by decide) fun v => ?_
    cases v <;> simp [Value.hasType]
  | i64 =>
    refine intHeads_exact (by decide) fun v => ?_
    cases v <;> simp [Value.hasType]
  | f64 => exact floatHeads_exact
  | str => exact strHeads_exact
  | bool => exact boolHeads_exact
  | enum name => exact enumHeads_exact
  | result ok err => exact resultHeads_exact
  | _ =>
    refine plainHeads_exact (fun v typed => ?_) (exact _)
    cases v <;> simp [Value.hasType,Value.plain] at typed ⊢

end

theorem patterns_measured (info : SemanticInfo) : (patterns info).Measured where
  wild_catchAll := rfl
  catchAll_weight p := by
    cases p <;> simp [patterns,Pattern.weight,isCatchAll]
  split_weight c p sub closed parts := by
    simp only [patterns] at closed parts ⊢
    unfold Pattern.split at parts
    split at parts <;> simp at parts <;> simp [Pattern.weight,parts.2,weights_eq]

/-- The laws of coverage hold of the patterns when the vacant types are those without values. -/
theorem patterns_lawful (exact : ∀ ty, vacant info ty = true ↔ ¬HasValue info ty) :
    (patterns info).Lawful where
  toMeasured := patterns_measured info
  catchAll_sat p v caught := by
    cases p <;> simp_all [patterns,Pattern.matches,isCatchAll]
  vacant_iff ty := (exact ty).trans not_exists
  reached ty column v typed := (heads_exact exact).1 v typed
  built ty column := (heads_exact exact).2

end Oscan
