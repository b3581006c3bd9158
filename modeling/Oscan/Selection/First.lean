import Oscan.Selection.Backends
import Oscan.Semantic.Inversion

/-! When the arm that a backend executes is the first one whose whole pattern matches. -/
namespace Oscan.Selection
open Semantic Semantic.Analyzer Ast

section Arms
variable {arms : List Pattern} {v : Value} {test : Pattern → Bool}

/-- The arm is the first that passes the test. -/
def IsFirst (test : Pattern → Bool) (arms : List Pattern) (a : Pattern × Nat) : Prop :=
  test a.1 = true ∧ ∀ x ∈ arms.zipIdx, x.2 < a.2 → test x.1 = false

theorem find_arm (test : Pattern → Bool) {a : Pattern × Nat} :
    (arms.zipIdx.find? fun x => test x.1) = some a ↔ a ∈ arms.zipIdx ∧ IsFirst test arms a := by
  rw [List.find?_eq_some_iff_getElem]
  constructor
  · rintro ⟨passes,i,bound,rfl,earlier⟩
    refine ⟨List.getElem_mem bound,passes,fun x member before => ?_⟩
    obtain ⟨j,bound',rfl⟩ := List.mem_iff_getElem.mp member
    simp only [List.getElem_zipIdx,Nat.zero_add] at before
    simpa using earlier j before
  · rintro ⟨member,passes,earlier⟩
    obtain ⟨i,bound,rfl⟩ := List.mem_iff_getElem.mp member
    refine ⟨passes,i,bound,rfl,fun j before => ?_⟩
    have inside : j < arms.zipIdx.length := Nat.lt_trans before bound
    have failed := earlier _ (List.getElem_mem inside) (by simpa using before)
    simpa using failed

theorem find_arm_none (test : Pattern → Bool) : (arms.zipIdx.find? fun x => test x.1) = none ↔ ∀ p ∈ arms, test p = false := by
  rw [List.find?_eq_none]
  constructor
  · intro all p member
    obtain ⟨i,bound,rfl⟩ := List.mem_iff_getElem.mp member
    simpa using all (arms[i],i) (List.mem_zipIdx_iff_getElem?.mpr (List.getElem?_eq_getElem bound))
  · intro all x member
    rw [all x.1 (List.fst_mem_of_mem_zipIdx member)]
    exact Bool.false_ne_true

/-- The arm is the last that passes the test. -/
def IsLast (test : Pattern → Bool) (arms : List Pattern) (a : Pattern × Nat) : Prop :=
  test a.1 = true ∧ ∀ x ∈ arms.zipIdx, a.2 < x.2 → test x.1 = false

theorem lastArm_eq {a : Pattern × Nat} :
    lastArm test arms = some a ↔ a ∈ arms.zipIdx ∧ IsLast test arms a := by
  rw [lastArm,List.find?_eq_some_iff_getElem]
  constructor
  · rintro ⟨passes,i,bound,rfl,later⟩
    refine ⟨List.mem_reverse.mp (List.getElem_mem bound),passes,fun x member behind => ?_⟩
    obtain ⟨k,bound',rfl⟩ := List.mem_iff_getElem.mp member
    simp only [List.length_reverse,List.length_zipIdx] at bound bound'
    simp only [List.getElem_reverse,List.getElem_zipIdx,List.length_zipIdx,Nat.zero_add] at behind
    have failed := later (arms.length - 1 - k) (by omega)
    simp only [List.getElem_reverse,List.length_zipIdx] at failed
    simpa [show arms.length - 1 - (arms.length - 1 - k) = k by omega] using failed
  · rintro ⟨member,passes,later⟩
    obtain ⟨k,bound,rfl⟩ := List.mem_iff_getElem.mp member
    simp only [List.length_zipIdx] at bound
    refine ⟨passes,arms.length - 1 - k,by simp; omega,?_,fun j before => ?_⟩
    · simp only [List.getElem_reverse,List.length_zipIdx]
      congr 1
      omega
    · have inside : arms.length - 1 - j < arms.zipIdx.length := by simp; omega
      have failed := later _ (List.getElem_mem inside) (by simp; omega)
      simpa [List.getElem_reverse] using failed

theorem lastArm_none : lastArm test arms = none ↔ ∀ p ∈ arms, test p = false := by
  rw [lastArm,List.find?_eq_none]
  simp only [List.mem_reverse]
  rw [← List.find?_eq_none (p := fun x : Pattern × Nat => test x.1)]
  exact find_arm_none _

end Arms
section Names

mutual
def names : Pattern → List String
  | .ident name _ => [name]
  | .enum _ _ bindings _ => namesAll bindings
  | _ => []
def namesAll : List Pattern → List String
  | [] => []
  | p :: ps => names p ++ namesAll ps
end

mutual
theorem bound_names : ∀ (p : Pattern) (v : Value), p.matches v = true → (bound p v).map (·.1) = names p
  | .wildcard _,v,_ | .ident .. ,v,_ | .intLit ..,v,_ | .floatLit ..,v,_ | .stringLit ..,v,_
  | .boolLit ..,v,_ => by
    unfold bound names
    rfl
  | .enum _ _ bindings _,v,holds => by
    cases v with
    | enum name tag payload =>
      simp only [Pattern.matches,Bool.and_eq_true] at holds
      exact boundAll_names bindings payload holds.2
    | ok value | err value =>
      simp only [Pattern.matches,Bool.and_eq_true] at holds
      exact boundAll_names bindings [value] holds.2
    | _ => simp [Pattern.matches] at holds
theorem boundAll_names : ∀ (ps : List Pattern) (vs : List Value), matchesAll ps vs = true →
    (boundAll ps vs).map (·.1) = namesAll ps
  | [],_,_ => by simp [boundAll,namesAll]
  | _ :: _,[],holds => by simp [matchesAll] at holds
  | p :: ps,v :: vs,holds => by
    simp only [matchesAll,Bool.and_eq_true] at holds
    simp only [boundAll,namesAll,List.map_append,bound_names p v holds.1,boundAll_names ps vs holds.2]
end

/-- A payload pattern is a name or holds none. -/
def plainPart : Pattern → Bool
  | .ident .. => true
  | p => (names p).isEmpty

/-- The names of a pattern are all in the first level of its payload. -/
def shallow : Pattern → Bool
  | .enum _ _ bindings _ => bindings.all plainPart
  | _ => true

def given (b : String × Value) : String × Option Value := (b.1,some b.2)

theorem bindEnumPayload_length (read : Reading) (variant : String) : ∀ (i k : Nat) (ps : List Pattern),
    (bindEnumPayload read variant i k ps).length ≤ (namesAll ps).length := by
  intro i k ps
  induction ps generalizing i k with
  | nil => exact Nat.le_refl _
  | cons p ps ih =>
    rw [namesAll,List.length_append]
    cases p with
    | ident name span =>
      have rest := ih (i + 1) (k + 1)
      simp only [bindEnumPayload,names,List.length_cons,List.length_nil]
      omega
    | _ =>
      have rest := ih (i + 1) k
      simp only [bindEnumPayload]
      omega

/-- The C bindings of a payload are the names of its patterns exactly when none lies deeper. -/
theorem bindEnumPayload_eq {name variant : String} {payload : List Value} : ∀ (i k : Nat) (ps : List Pattern),
    matchesAll ps (payload.drop i) = true →
    (bindEnumPayload (fun _ => .enum name variant payload) variant i k ps =
      (boundAll ps (payload.drop i)).map given ↔ ps.all plainPart = true) := by
  intro i k ps
  induction ps generalizing i k with
  | nil => simp [bindEnumPayload,boundAll]
  | cons p ps ih =>
    intro holds
    cases rest : payload.drop i with
    | nil => simp [rest,matchesAll] at holds
    | cons v vs =>
      rw [rest] at holds
      simp only [matchesAll,Bool.and_eq_true] at holds
      have here : payload[i]? = some v := by
        rw [← List.head?_drop,rest]
        rfl
      have next : payload.drop (i + 1) = vs := by
        rw [← List.tail_drop,rest]
        rfl
      rw [← next] at holds ⊢
      -- a pattern that is not a name itself adds nothing in C
      have other : bindEnumPayload (fun _ => .enum name variant payload) variant (i + 1) k ps =
          (bound p v ++ boundAll ps (payload.drop (i + 1))).map given ↔
          ((names p).isEmpty && ps.all plainPart) = true := by
        have quiet := bound_names p v holds.1
        rw [Bool.and_eq_true,List.isEmpty_iff]
        by_cases empty : names p = []
        · rw [empty,List.map_eq_nil_iff] at quiet
          rw [quiet,List.nil_append,ih (i + 1) k holds.2]
          exact ⟨fun plain => ⟨empty,plain⟩,And.right⟩
        · refine ⟨fun same => ?_,fun plain => absurd plain.1 empty⟩
          have short := bindEnumPayload_length (fun _ => .enum name variant payload) variant (i + 1) k ps
          have long := congrArg List.length (boundAll_names ps _ holds.2)
          have head := congrArg List.length quiet
          have positive := List.length_pos_iff.mpr empty
          rw [same] at short
          simp only [List.length_map,List.length_append] at short long head
          omega
      cases p with
      | ident name' span =>
        simp only [bindEnumPayload,boundAll,bound,List.singleton_append,List.map_cons,List.cons.injEq,
          List.all_cons,plainPart,Bool.true_and,given,payloadAt,if_true,here,true_and]
        exact ih (i + 1) (k + 1) holds.2
      | _ => exact other

end Names

section Accepted
variable {self : Analyzer} {E : Option BcType}

/-- What the checker asks of a pattern over the type of the scrutinee. -/
def Fits (ty : BcType) : Pattern → Prop
  | .wildcard _ | .ident .. => True
  | .intLit .. => ty = .i32 ∨ ty = .i64
  | .floatLit .. => ty = .f64
  | .stringLit .. => ty = .str
  | .boolLit .. => ty = .bool
  | .enum enumName variant bindings _ =>
    (enumName = "Result" ∧ (variant = "Ok" ∨ variant = "Err") ∧ bindings.length = 1 ∧ ∃ ok err, ty = .result ok err) ∨
      (enumName ≠ "Result" ∧ ty = .enum enumName)

theorem checkPatternCompat_fits {pat : Pattern} {scrutTy : BcType} {seen next : List String}
    {span armSpan : Span} {inner : Analyzer}
    (compatible : self.checkPatternCompat pat scrutTy seen span = .ok next)
    (bound : self.pushScope.bindPatternVars pat scrutTy armSpan = .ok inner) : Fits scrutTy pat := by
  cases pat with
  | wildcard | ident => trivial
  | intLit =>
    simp only [checkPatternCompat] at compatible
    split at compatible
    · exact .inl rfl
    · exact .inr rfl
    · simp at compatible
  | floatLit | stringLit | boolLit =>
    simp only [checkPatternCompat,unless_accepts] at compatible
    simpa [Fits] using compatible.1
  | enum enumName tag bindings patSpan =>
    simp only [checkPatternCompat] at compatible
    simp only [bindPatternVars] at bound
    split at compatible
    next named =>
      have named : enumName = "Result" := by simpa using named
      simp only [when_accepts,unless_accepts,pure_accepts] at compatible
      obtain ⟨variant,size,-⟩ := compatible
      simp only [named,beq_self_eq_true,if_true] at bound
      split at bound
      next ok err => exact .inl ⟨named,by simpa using variant,by simpa using size,ok,err,rfl⟩
      next => simp at bound
    next other =>
      split at compatible
      next ename =>
        simp only [unless_accepts] at compatible
        obtain ⟨same,-⟩ := compatible
        obtain rfl : enumName = ename := by simpa using same
        exact .inr ⟨by simpa using other,rfl⟩
      next => simp at compatible

theorem checkArms_fits {scrutTy : BcType} {span : Span} : ∀ {arms : List MatchArm} {seen : List String}
    {result : List (BcType × Span) × List String × List BcType},
    checkArms self scrutTy span E seen arms = .ok result → ∀ p ∈ arms.map (·.pattern), Fits scrutTy p
  | [],_,_,_ => nofun
  | .mk pattern body armSpan :: arms,_,_,accepted => by
    obtain ⟨seen',inner,bt,types,seen'',log,compatible,bound,-,rest,-⟩ := checkArms_cons accepted
    exact List.forall_mem_cons.mpr ⟨checkPatternCompat_fits compatible bound,checkArms_fits rest⟩

end Accepted

section EnumArms
variable {name tag : String} {payload : List Value} {arms : List Pattern} {valued : Bool}

def isName : Pattern → Bool
  | .ident .. => true
  | _ => false

/-- Where the switch executes the first arm that matches: the arm that names the variant, if there is
one, is that arm and binds no name below the first level, and else a default of a match with a value
binds no name at all. -/
structure SwitchAgrees (valued : Bool) (arms : List Pattern) (tag : String) (v : Value) : Prop where
  labels : (arms.map caseLabel).Nodup
  labelled : ∀ a ∈ arms.zipIdx, caseLabel a.1 = some tag → IsFirst (·.matches v) arms a ∧ shallow a.1 = true
  default : (∀ p ∈ arms, caseLabel p ≠ some tag) → valued = true → ∀ p ∈ arms, isName p = false

theorem caseLabel_matches {p : Pattern} (fits : Fits (.enum name) p) :
    (p.matches (.enum name tag payload) = true → caseLabel p = some tag ∨ caseLabel p = none) ∧
      (caseLabel p = none → p.matches (.enum name tag payload) = true) := by
  cases p with
  | wildcard | ident => simp [caseLabel,Pattern.matches]
  | intLit | floatLit | stringLit | boolLit => simp [Fits] at fits
  | enum enumName variant bindings span =>
    simp only [caseLabel,Pattern.matches,Bool.and_eq_true,beq_iff_eq,Option.some.injEq,reduceCtorEq,or_false,
      false_imp_iff,and_true]
    exact fun holds => holds.1.2

theorem zipIdx_unique {x y : Pattern × Nat} (first : x ∈ arms.zipIdx) (second : y ∈ arms.zipIdx)
    (same : x.2 = y.2) : x = y := by
  rw [List.mem_zipIdx_iff_getElem?] at first second
  rw [same,second] at first
  exact Prod.ext (Option.some.inj first).symm same

theorem label_unique (labels : (arms.map caseLabel).Nodup) {x y : Pattern × Nat} (first : x ∈ arms.zipIdx)
    (second : y ∈ arms.zipIdx) (same : caseLabel x.1 = caseLabel y.1) : x = y := by
  refine zipIdx_unique first second ?_
  rw [List.mem_zipIdx_iff_getElem?] at first second
  have left : (arms.map caseLabel)[x.2]? = some (caseLabel x.1) := by rw [List.getElem?_map,first]; rfl
  have right : (arms.map caseLabel)[y.2]? = some (caseLabel y.1) := by rw [List.getElem?_map,second]; rfl
  obtain ⟨inside,_⟩ := List.getElem?_eq_some_iff.mp left
  exact (List.getElem?_inj inside labels).mp (left.trans ((congrArg some same).trans right.symm))

theorem firstMatch_eq {v : Value} {c : Chosen} : firstMatch arms v = some c ↔
    ∃ a ∈ arms.zipIdx, IsFirst (·.matches v) arms a ∧ c = ⟨a.2,(bound a.1 v).map given⟩ := by
  rw [firstMatch,Option.map_eq_some_iff]
  constructor
  · rintro ⟨a,found,rfl⟩
    obtain ⟨member,first⟩ := (find_arm (·.matches v)).mp found
    exact ⟨a,member,first,rfl⟩
  · rintro ⟨a,member,first,rfl⟩
    exact ⟨a,(find_arm (·.matches v)).mpr ⟨member,first⟩,rfl⟩

theorem firstMatch_none {v : Value} : firstMatch arms v = none ↔ ∀ p ∈ arms, p.matches v = false := by
  rw [firstMatch,Option.map_eq_none_iff]
  exact find_arm_none (·.matches v)

/-- A backend that chooses an arm is right exactly when the arm is the first and its bindings are. -/
theorem chosen_iff {v : Value} {a : Pattern × Nat} (member : a ∈ arms.zipIdx)
    {bindings : List (String × Option Value)} : firstMatch arms v = some ⟨a.2,bindings⟩ ↔
      IsFirst (·.matches v) arms a ∧ bindings = (bound a.1 v).map given := by
  rw [firstMatch_eq]
  constructor
  · rintro ⟨b,other,first,same⟩
    obtain ⟨index,rfl⟩ := Chosen.mk.inj same
    obtain rfl := zipIdx_unique other member index.symm
    exact ⟨first,rfl⟩
  · rintro ⟨first,rfl⟩
    exact ⟨a,member,first,rfl⟩

theorem selectEnum_iff (fits : ∀ p ∈ arms, Fits (.enum name) p) :
    selectEnum valued arms (fun _ => .enum name tag payload) =
      some (firstMatch arms (.enum name tag payload)) ↔
    SwitchAgrees valued arms tag (.enum name tag payload) := by
  unfold selectEnum
  by_cases labels : (arms.map caseLabel).Nodup
  swap
  · rw [if_neg labels]
    exact ⟨nofun,fun agrees => absurd agrees.labels labels⟩
  rw [if_pos labels]
  simp only [Option.some.injEq]
  cases labelled : arms.zipIdx.find? fun a => decide (caseLabel a.1 = some tag) with
  | some a =>
    obtain ⟨member,label,-⟩ := (find_arm (fun p => decide (caseLabel p = some tag))).mp labelled
    have label : caseLabel a.1 = some tag := of_decide_eq_true label
    rw [Option.some_or,Option.map_some,eq_comm,chosen_iff member]
    have bindings : IsFirst (·.matches (.enum name tag payload)) arms a →
        (bindEnumArm valued (fun _ => .enum name tag payload) a.1 =
          (bound a.1 (.enum name tag payload)).map given ↔ shallow a.1 = true) := by
      rintro ⟨holds,-⟩
      obtain ⟨pattern,index⟩ := a
      cases pattern with
      | enum enumName variant bindings span =>
        simp only [Pattern.matches,Bool.and_eq_true,beq_iff_eq] at holds
        obtain ⟨⟨-,rfl⟩,inner⟩ := holds
        exact bindEnumPayload_eq 0 1 bindings inner
      | _ => cases label
    constructor
    · rintro ⟨first,same⟩
      refine ⟨labels,fun b other named => ?_,fun unnamed => absurd label (unnamed _ (List.fst_mem_of_mem_zipIdx member))⟩
      obtain rfl := label_unique labels other member (named.trans label.symm)
      exact ⟨first,(bindings first).mp same⟩
    · intro agrees
      obtain ⟨first,plain⟩ := agrees.labelled a member label
      exact ⟨first,(bindings first).mpr plain⟩
  | none =>
    have unlabelled := (find_arm_none (fun p => decide (caseLabel p = some tag))).mp labelled
    simp only [decide_eq_false_iff_not] at unlabelled
    have caught : ∀ p ∈ arms, p.matches (.enum name tag payload) = true ↔ caseLabel p = none := fun p member =>
      ⟨fun holds => ((caseLabel_matches (fits p member)).1 holds).resolve_left (unlabelled p member),
        (caseLabel_matches (fits p member)).2⟩
    rw [Option.none_or]
    cases default : arms.zipIdx.find? fun a => decide (caseLabel a.1 = none) with
    | none =>
      have absent := (find_arm_none (fun p => decide (caseLabel p = none))).mp default
      simp only [decide_eq_false_iff_not] at absent
      rw [Option.map_none,eq_comm,firstMatch_none]
      refine ⟨fun _ => ⟨labels,fun a member label => ?_,fun _ _ p member => ?_⟩,fun _ p member => ?_⟩
      · exact absurd label (unlabelled _ (List.fst_mem_of_mem_zipIdx member))
      · cases p with
        | ident => exact absurd rfl (absent _ member)
        | _ => rfl
      · exact Bool.eq_false_iff.mpr fun holds => absent p member ((caught p member).mp holds)
    | some a =>
      obtain ⟨member,label,earlier⟩ := (find_arm (fun p => decide (caseLabel p = none))).mp default
      have label : caseLabel a.1 = none := of_decide_eq_true label
      have first : IsFirst (·.matches (.enum name tag payload)) arms a := by
        refine ⟨(caught _ (List.fst_mem_of_mem_zipIdx member)).mpr label,fun x other before => ?_⟩
        have unlike := of_decide_eq_false (earlier x other before)
        exact Bool.eq_false_iff.mpr fun holds =>
          unlike ((caught _ (List.fst_mem_of_mem_zipIdx other)).mp holds)
      rw [Option.map_some,eq_comm,chosen_iff member]
      have bindings : bindEnumArm valued (fun _ => .enum name tag payload) a.1 =
          (bound a.1 (.enum name tag payload)).map given ↔ (valued = true → isName a.1 = false) := by
        obtain ⟨pattern,index⟩ := a
        cases pattern with
        | ident => cases valued <;> simp [bindEnumArm,bound,given,isName]
        | wildcard => simp [bindEnumArm,bound,isName]
        | enum => cases label
        | _ => exact absurd (fits _ (List.fst_mem_of_mem_zipIdx member)) (by simp [Fits])
      rw [bindings]
      constructor
      · rintro ⟨-,unnamed⟩
        refine ⟨labels,fun b other named => absurd named (unlabelled _ (List.fst_mem_of_mem_zipIdx other)),
          fun _ value p listed => ?_⟩
        obtain ⟨i,inside,rfl⟩ := List.mem_iff_getElem.mp listed
        by_contra isname
        have other : (arms[i],i) ∈ arms.zipIdx :=
          List.mem_zipIdx_iff_getElem?.mpr (List.getElem?_eq_getElem inside)
        have none : caseLabel arms[i] = none := by
          cases pattern : arms[i] with
          | ident => rfl
          | _ => simp [pattern,isName] at isname
        obtain rfl := label_unique labels other member (none.trans label.symm)
        exact isname (unnamed value)
      · intro agrees
        exact ⟨first,fun value => agrees.default unlabelled value _ (List.fst_mem_of_mem_zipIdx member)⟩

end EnumArms

section ResultArms
variable {ok err : BcType} {arms : List Pattern}

/-- Where a branch of a `Result` match executes the first arm that matches: the last arm that names the
constructor, if there is one, is that arm and binds no name below the first level, and else there is one
other arm at most, and it is no name. -/
structure BranchAgrees (constructor : String) (arms : List Pattern) (v : Value) : Prop where
  named : ∀ a ∈ arms.zipIdx, IsLast (isVariant constructor) arms a →
    IsFirst (·.matches v) arms a ∧ shallow a.1 = true
  other : (∀ p ∈ arms, isVariant constructor p = false) →
    (∀ a ∈ arms.zipIdx, ∀ b ∈ arms.zipIdx, isCatchAll a.1 = true → isCatchAll b.1 = true → a = b) ∧
      ∀ p ∈ arms, isName p = false

/-- A value under one of the constructors of `Result`, with its part. -/
def Built (constructor : String) (part : Value → Option Value) (v value : Value) : Prop :=
  constructor = "Ok" ∧ part = okOf ∧ v = .ok value ∨ constructor = "Err" ∧ part = errOf ∧ v = .err value

variable {constructor : String} {part : Value → Option Value} {v value : Value}

theorem isOther_iff {p : Pattern} (fits : Fits (.result ok err) p) : isOther p = isCatchAll p := by
  cases p with
  | wildcard | ident => rfl
  | enum enumName variant bindings span =>
    rcases fits with ⟨-,rfl | rfl,-⟩ | ⟨-,same⟩
    · rfl
    · rfl
    · cases same
  | _ => simp [Fits] at fits

theorem variant_matches {p : Pattern} (fits : Fits (.result ok err) p) (built : Built constructor part v value) :
    (p.matches v = true → isVariant constructor p = true ∨ isCatchAll p = true) ∧
      (isCatchAll p = true → p.matches v = true) := by
  cases p with
  | wildcard | ident => simp [isCatchAll,Pattern.matches]
  | enum enumName variant bindings span =>
    refine ⟨fun holds => .inl ?_,nofun⟩
    rcases built with ⟨rfl,-,rfl⟩ | ⟨rfl,-,rfl⟩
    all_goals
      simp only [Pattern.matches,Bool.and_eq_true] at holds
      exact holds.1.2
  | _ => simp [Fits] at fits

theorem bindResultArm_iff {p : Pattern} (fits : Fits (.result ok err) p) (built : Built constructor part v value)
    (holds : p.matches v = true) (named : isVariant constructor p = true) :
    bindResultArm part (fun _ => v) p = (bound p v).map given ↔ shallow p = true := by
  cases p with
  | enum enumName variant bindings span =>
    have single : ∃ q, bindings = [q] ∧ q.matches value = true := by
      have inner : matchesAll bindings [value] = true := by
        rcases built with ⟨-,-,rfl⟩ | ⟨-,-,rfl⟩ <;>
        · simp only [Pattern.matches,Bool.and_eq_true] at holds
          exact holds.2
      match bindings,inner with
      | [q],inner => exact ⟨q,rfl,by simpa [matchesAll] using inner⟩
    obtain ⟨q,rfl,inner⟩ := single
    have parts : bound (.enum enumName variant [q] span) v = bound q value ∧ part v = some value := by
      rcases built with ⟨-,rfl,rfl⟩ | ⟨-,rfl,rfl⟩ <;> simp [bound,boundAll,okOf,errOf]
    rw [parts.1]
    have quiet := bound_names q value inner
    cases q with
    | ident => simp [bindResultArm,bound,given,parts.2,shallow,plainPart]
    | _ =>
      simp only [bindResultArm,shallow,List.all_cons,List.all_nil,Bool.and_true,plainPart,List.isEmpty_iff]
      rw [← quiet,List.map_eq_nil_iff,eq_comm,List.map_eq_nil_iff]
  | _ => simp [isVariant] at named

theorem selectBranch_iff (fits : ∀ p ∈ arms, Fits (.result ok err) p) (built : Built constructor part v value) :
    selectBranch constructor part arms (fun _ => v) = firstMatch arms v ↔ BranchAgrees constructor arms v := by
  unfold selectBranch
  split
  · next a last =>
    obtain ⟨member,last⟩ := lastArm_eq.mp last
    have listed := List.fst_mem_of_mem_zipIdx member
    rw [eq_comm,chosen_iff member]
    constructor
    · rintro ⟨first,same⟩
      refine ⟨fun b other end' => ?_,fun unnamed => absurd last.1 (by rw [unnamed _ listed]; exact nofun)⟩
      have index : b.2 = a.2 := by
        rcases Nat.lt_trichotomy b.2 a.2 with before | same | behind
        · exact absurd last.1 (by rw [end'.2 a member before]; exact nofun)
        · exact same
        · exact absurd end'.1 (by rw [last.2 b other behind]; exact nofun)
      obtain rfl := zipIdx_unique other member index
      exact ⟨first,(bindResultArm_iff (fits _ listed) built first.1 last.1).mp same⟩
    · intro agrees
      obtain ⟨first,plain⟩ := agrees.named a member last
      exact ⟨first,(bindResultArm_iff (fits _ listed) built first.1 last.1).mpr plain⟩
  · next unnamed =>
    have unnamed := lastArm_none.mp unnamed
    have caught : ∀ p ∈ arms, p.matches v = isCatchAll p := fun p listed => by
      refine Bool.eq_iff_iff.mpr ⟨fun holds => ?_,(variant_matches (fits p listed) built).2⟩
      exact ((variant_matches (fits p listed) built).1 holds).resolve_left (by rw [unnamed p listed]; exact nofun)
    have vacuous : ∀ a ∈ arms.zipIdx, ¬ IsLast (isVariant constructor) arms a := fun a member last =>
      absurd last.1 (by rw [unnamed _ (List.fst_mem_of_mem_zipIdx member)]; exact nofun)
    cases last : lastArm isOther arms with
    | none =>
      have none := lastArm_none.mp last
      have uncaught : ∀ p ∈ arms, isCatchAll p = false := fun p listed => by
        rw [← isOther_iff (fits p listed)]
        exact none p listed
      rw [Option.map_none,eq_comm,firstMatch_none]
      constructor
      · refine fun _ => ⟨fun a member last => absurd last (vacuous a member),fun _ => ⟨fun a member b _ first => ?_,
          fun p listed => ?_⟩⟩
        · rw [uncaught _ (List.fst_mem_of_mem_zipIdx member)] at first
          cases first
        · cases p with
          | ident => cases uncaught _ listed
          | _ => rfl
      · exact fun _ p listed => (caught p listed).trans (uncaught p listed)
    | some a =>
      obtain ⟨member,other,later⟩ := lastArm_eq.mp last
      have listed := List.fst_mem_of_mem_zipIdx member
      have catches : isCatchAll a.1 = true := (isOther_iff (fits _ listed)).symm.trans other
      rw [Option.map_some,eq_comm,chosen_iff member]
      have nameless : [] = (bound a.1 v).map given ↔ isName a.1 = false := by
        obtain ⟨pattern,index⟩ := a
        cases pattern with
        | wildcard | ident => simp [bound,isName]
        | _ => cases catches
      rw [nameless]
      constructor
      · rintro ⟨first,plain⟩
        have only : ∀ b ∈ arms.zipIdx, isCatchAll b.1 = true → b = a := fun b inside too => by
          refine zipIdx_unique inside member ?_
          rcases Nat.lt_trichotomy b.2 a.2 with before | same | behind
          · have failed : b.1.matches v = false := first.2 b inside before
            rw [caught _ (List.fst_mem_of_mem_zipIdx inside),too] at failed
            cases failed
          · exact same
          · have failed := later b inside behind
            rw [isOther_iff (fits _ (List.fst_mem_of_mem_zipIdx inside)),too] at failed
            cases failed
        refine ⟨fun b inside last => absurd last (vacuous b inside),fun _ => ⟨fun b inside c inside' left right =>
          (only b inside left).trans (only c inside' right).symm,fun p inside => ?_⟩⟩
        obtain ⟨i,bound,rfl⟩ := List.mem_iff_getElem.mp inside
        have position : (arms[i],i) ∈ arms.zipIdx :=
          List.mem_zipIdx_iff_getElem?.mpr (List.getElem?_eq_getElem bound)
        cases pattern : arms[i] with
        | ident =>
          obtain rfl := only _ position (by rw [pattern]; rfl)
          rw [pattern] at plain
          exact plain
        | _ => rfl
      · intro agrees
        obtain ⟨unique,plain⟩ := agrees.other unnamed
        refine ⟨⟨(caught _ listed).trans catches,fun b inside before => ?_⟩,plain _ listed⟩
        refine (caught _ (List.fst_mem_of_mem_zipIdx inside)).trans ?_
        by_contra too
        obtain rfl := unique b inside a member (by simpa using too) catches
        exact absurd before (Nat.lt_irrefl _)

end ResultArms

section Chains
variable {ty : BcType} {v : Value}

/-- The first match of arms that begin at a position. -/
def firstFrom (v : Value) : Nat → List Pattern → Option Chosen
  | _,[] => none
  | i,p :: ps => if p.matches v then some ⟨i,(bound p v).map given⟩ else firstFrom v (i + 1) ps

theorem firstFrom_zipIdx (arms : List Pattern) (i : Nat) : firstFrom v i arms =
    ((arms.zipIdx i).find? fun a => a.1.matches v).map fun a => ⟨a.2,(bound a.1 v).map given⟩ := by
  induction arms generalizing i with
  | nil => rfl
  | cons p ps ih =>
    rw [firstFrom,List.zipIdx_cons,List.find?_cons]
    cases holds : p.matches v with
    | true => simp
    | false => simpa [holds] using ih (i + 1)

theorem firstMatch_from (arms : List Pattern) : firstMatch arms v = firstFrom v 0 arms :=
  (firstFrom_zipIdx arms 0).symm

theorem firstFrom_position {i : Nat} : ∀ {arms : List Pattern} {c : Chosen}, firstFrom v i arms = some c → i ≤ c.arm := by
  intro arms
  induction arms generalizing i with
  | nil => exact nofun
  | cons p ps ih =>
    intro c found
    rw [firstFrom] at found
    split at found
    · cases found
      exact Nat.le_refl _
    · exact Nat.le_of_succ_le (ih found)

/-- Up to the first arm that matches, the literals of C equal the value when the patterns match. -/
def literalsAgree (v : Value) : List Pattern → Bool
  | [] => true
  | p :: ps => isCatchAll p || (cEquals p v == p.matches v && (p.matches v || literalsAgree v ps))

theorem selectLiteral_position {read : Reading} {i : Nat} : ∀ {arms : List Pattern} {c : Chosen},
    selectLiteral read i arms = some c → i ≤ c.arm := by
  intro arms
  induction arms generalizing i with
  | nil => exact nofun
  | cons p ps ih =>
    intro c found
    cases p with
    | wildcard | ident =>
      cases found
      exact Nat.le_refl _
    | _ =>
      simp only [selectLiteral] at found
      split at found
      · cases found
        exact Nat.le_refl _
      · exact Nat.le_of_succ_le (ih found)

theorem bound_literal {p : Pattern} (fits : Fits ty p) (plain : isCatchAll p = false)
    (unbuilt : (∀ name, ty ≠ .enum name) ∧ ∀ ok err, ty ≠ .result ok err) : bound p v = [] := by
  cases p with
  | wildcard | ident => cases plain
  | enum =>
    rcases fits with ⟨-,-,-,ok,err,same⟩ | ⟨-,same⟩
    · exact absurd same (unbuilt.2 ok err)
    · exact absurd same (unbuilt.1 _)
  | _ => unfold bound; rfl

theorem selectLiteral_iff (unbuilt : (∀ name, ty ≠ .enum name) ∧ ∀ ok err, ty ≠ .result ok err) (i : Nat) :
    ∀ arms : List Pattern, (∀ p ∈ arms, Fits ty p) →
      (selectLiteral (fun _ => v) i arms = firstFrom v i arms ↔ literalsAgree v arms = true) := by
  intro arms
  induction arms generalizing i with
  | nil => exact fun _ => ⟨fun _ => rfl,fun _ => rfl⟩
  | cons p ps ih =>
    intro fits
    obtain ⟨here,rest⟩ := List.forall_mem_cons.mp fits
    have later := ih (i + 1) rest
    cases caught : isCatchAll p with
    | true =>
      rw [literalsAgree,caught]
      cases p with
      | wildcard | ident => simp [selectLiteral,firstFrom,Pattern.matches,bound,given]
      | _ => cases caught
    | false =>
      have literal : selectLiteral (fun _ => v) i (p :: ps) =
          if cEquals p v then some ⟨i,[]⟩ else selectLiteral (fun _ => v) (i + 1) ps := by
        cases p with
        | wildcard | ident => cases caught
        | _ => rfl
      rw [literal,firstFrom,literalsAgree,caught,bound_literal here caught unbuilt]
      cases tested : cEquals p v with
      | true =>
        cases holds : p.matches v with
        | true => simp
        | false =>
          simp only [if_true,Bool.false_eq_true,if_false,Bool.false_or]
          refine ⟨fun same => ?_,nofun⟩
          exact absurd (firstFrom_position same.symm) (Nat.not_succ_le_self i)
      | false =>
        cases holds : p.matches v with
        | true =>
          simp only [if_true,Bool.false_eq_true,if_false,Bool.false_or]
          refine ⟨fun same => ?_,nofun⟩
          exact absurd (selectLiteral_position same) (Nat.not_succ_le_self i)
        | false => simpa using later

/-- Whether the object backend has a test for a pattern: it has none for an integer of 64 bits. -/
def tested (scrutinee : BcType) : Pattern → Bool
  | .intLit .. => scrutinee == .i32
  | _ => true

/-- Up to the first arm that matches, the tests of the object backend hold when the patterns match; the
last arm, which has no test, has to match when no other does. The arm binds no name below the first
level. -/
def testsAgree (scrutinee : BcType) (v : Value) : List Pattern → Bool
  | [] => false
  | [p] => p.matches v && shallow p
  | p :: ps =>
    if objectTest scrutinee p v = some true then p.matches v && shallow p
    else !p.matches v && testsAgree scrutinee v ps

theorem bindFields_eq (variant : String) (v : Value) : ∀ (i k : Nat) (ps : List Pattern),
    bindFields variant v i ps = bindEnumPayload (fun _ => v) variant i k ps := by
  intro i k ps
  induction ps generalizing i k with
  | nil => rfl
  | cons p ps ih =>
    cases p with
    | ident name span => simp only [bindFields,bindEnumPayload,ih (i + 1) (k + 1)]
    | _ => exact ih (i + 1) k

/-- A typed value of a `Result` is under one of the constructors. -/
theorem result_built {info : SemanticInfo} {ok err : BcType} (typed : v.hasType info (.result ok err) = true) :
    ∃ constructor part value, Built constructor part v value := by
  cases v with
  | ok value => exact ⟨"Ok",okOf,value,.inl ⟨rfl,rfl,rfl⟩⟩
  | err value => exact ⟨"Err",errOf,value,.inr ⟨rfl,rfl,rfl⟩⟩
  | _ => simp [Value.hasType] at typed

theorem bindObject_iff {info : SemanticInfo} {p : Pattern} (fits : Fits ty p)
    (typed : v.hasType info ty = true) (holds : p.matches v = true) :
    bindObject v p = (bound p v).map given ↔ shallow p = true := by
  cases p with
  | ident => simp [bindObject,bound,given,shallow]
  | enum enumName variant bindings span =>
    rcases fits with ⟨rfl,named,single,ok,err,rfl⟩ | ⟨other,rfl⟩
    · obtain ⟨constructor,part,value,built⟩ := result_built typed
      have whole : Fits (.result ok err) (.enum "Result" variant bindings span) :=
        .inl ⟨rfl,named,single,ok,err,rfl⟩
      have same : isVariant constructor (.enum "Result" variant bindings span) = true :=
        ((variant_matches whole built).1 holds).resolve_right (by simp [isCatchAll])
      have parts : bindObject v (.enum "Result" variant bindings span) =
          bindResultArm part (fun _ => v) (.enum "Result" variant bindings span) := by
        obtain rfl : variant = constructor := by simpa [isVariant] using same
        obtain ⟨q,rfl⟩ := List.length_eq_one_iff.mp single
        rcases built with ⟨rfl,rfl,rfl⟩ | ⟨rfl,rfl,rfl⟩
        all_goals cases q <;> simp [bindObject,bindResultArm]
      rw [parts]
      exact bindResultArm_iff whole built holds same
    · cases v with
      | enum name tag payload =>
        simp only [Pattern.matches,Bool.and_eq_true,beq_iff_eq] at holds
        obtain ⟨⟨-,rfl⟩,inner⟩ := holds
        have parts : bindObject (.enum name variant payload) (.enum enumName variant bindings span) =
            bindFields variant (.enum name variant payload) 0 bindings := if_neg other
        rw [parts,bindFields_eq variant _ 0 0]
        exact bindEnumPayload_eq 0 0 bindings inner
      | _ => simp [Value.hasType] at typed
  | _ => simp [bindObject,bound,shallow]

/-- A test of a pattern that fits is refused for its type alone. -/
theorem objectTest_isSome {info : SemanticInfo} {p : Pattern} (fits : Fits ty p)
    (typed : v.hasType info ty = true) : (objectTest ty p v).isSome = tested ty p := by
  cases p with
  | wildcard | ident => simp [objectTest,tested]
  | intLit =>
    rcases fits with rfl | rfl
    all_goals cases v <;> simp [Value.hasType,objectTest,tested] at typed ⊢
  | floatLit | stringLit | boolLit =>
    rw [show ty = _ from fits] at typed ⊢
    cases v <;> simp [Value.hasType,objectTest,tested] at typed ⊢
  | enum =>
    rcases fits with ⟨-,-,-,ok,err,rfl⟩ | ⟨-,rfl⟩
    all_goals cases v <;> simp [Value.hasType,objectTest,tested] at typed ⊢

theorem selectObject_cons {i : Nat} {p q : Pattern} {ps : List Pattern} :
    selectObject ty v i (p :: q :: ps) = (objectTest ty p v).bind fun test =>
      (selectObject ty v (i + 1) (q :: ps)).map fun rest => if test then some ⟨i,bindObject v p⟩ else rest := by
  rw [selectObject]
  · cases objectTest ty p v with
    | none => rfl
    | some test => cases selectObject ty v (i + 1) (q :: ps) <;> rfl
  · exact nofun

theorem selectObject_position : ∀ {arms : List Pattern} {i : Nat} {c : Chosen},
    selectObject ty v i arms = some (some c) → i ≤ c.arm
  | [],_,_,found => nomatch found
  | [_],_,_,found => by
    cases found
    exact Nat.le_refl _
  | p :: q :: ps,i,c,found => by
    rw [selectObject_cons,Option.bind_eq_some_iff] at found
    obtain ⟨test,-,found⟩ := found
    obtain ⟨rest,found,chosen⟩ := Option.map_eq_some_iff.mp found
    split at chosen
    · cases chosen
      exact Nat.le_refl _
    · rw [chosen] at found
      exact Nat.le_of_succ_le (selectObject_position found)

/-- The object backend refuses no match whose tests it has. -/
theorem selectObject_isSome {info : SemanticInfo} (typed : v.hasType info ty = true) :
    ∀ (arms : List Pattern) (i : Nat), (∀ p ∈ arms, Fits ty p) →
      ((selectObject ty v i arms).isSome = true ↔ arms ≠ [] ∧ ∀ p ∈ arms.dropLast, tested ty p = true)
  | [],_,_ => by simp [selectObject]
  | [_],_,_ => by simp [selectObject]
  | p :: q :: ps,i,fits => by
    obtain ⟨here,rest⟩ := List.forall_mem_cons.mp fits
    have later := selectObject_isSome typed (q :: ps) (i + 1) rest
    rw [selectObject_cons,List.dropLast_cons_cons,List.forall_mem_cons,← objectTest_isSome here typed]
    cases objectTest ty p v with
    | none => simp
    | some test => simpa using later

theorem selectObject_iff {info : SemanticInfo} (typed : v.hasType info ty = true) :
    ∀ (arms : List Pattern) (i : Nat), (∀ p ∈ arms, Fits ty p) →
      (selectObject ty v i arms = some (firstFrom v i arms) ↔
        (∀ p ∈ arms.dropLast, tested ty p = true) ∧ testsAgree ty v arms = true)
  | [],_,_ => by simp [selectObject,testsAgree]
  | [p],i,fits => by
    have here := fits p List.mem_cons_self
    simp only [selectObject,firstFrom,List.dropLast_singleton,List.not_mem_nil,false_imp_iff,implies_true,true_and,
      testsAgree,Bool.and_eq_true,Option.some.injEq]
    cases holds : p.matches v with
    | true => simpa using bindObject_iff here typed holds
    | false => simp
  | p :: q :: ps,i,fits => by
    obtain ⟨here,rest⟩ := List.forall_mem_cons.mp fits
    have later := selectObject_iff typed (q :: ps) (i + 1) rest
    have emitted := selectObject_isSome typed (q :: ps) (i + 1) rest
    simp only [ne_eq,reduceCtorEq,not_false_eq_true,true_and] at emitted
    rw [selectObject_cons,List.dropLast_cons_cons,List.forall_mem_cons,← objectTest_isSome here typed,← emitted,
      firstFrom,testsAgree]
    swap
    · simp
    cases test : objectTest ty p v with
    | none => simp
    | some passes =>
      cases code : selectObject ty v (i + 1) (q :: ps) with
      | none => simp
      | some chosen =>
        cases passes with
        | true =>
          cases holds : p.matches v with
          | true => simpa using bindObject_iff here typed holds
          | false =>
            simp only [Option.bind_some,Option.map_some,if_true,Option.some.injEq,Bool.false_eq_true,if_false,
              Bool.false_and,and_false,iff_false]
            exact fun same => Nat.not_succ_le_self i (firstFrom_position same.symm)
        | false =>
          cases holds : p.matches v with
          | true =>
            simp only [Option.bind_some,Option.map_some,if_true,Option.some.injEq,Bool.false_eq_true,if_false,
              Bool.not_true,Bool.false_and,and_false,iff_false]
            rintro rfl
            exact Nat.not_succ_le_self i (selectObject_position code)
          | false =>
            rw [code] at later emitted
            simpa [← emitted] using later

end Chains

/-- Where the C backend executes the first arm whose whole pattern matches the value. -/
def CAgrees (scrutinee : BcType) (valued : Bool) (arms : List Pattern) (v : Value) : Prop :=
  match scrutinee,v with
  | .enum _,.enum _ tag _ => SwitchAgrees valued arms tag v
  | .result _ _,.ok _ => BranchAgrees "Ok" arms v
  | .result _ _,.err _ => BranchAgrees "Err" arms v
  | _,_ => arms ≠ [] ∧ (arms.takeWhile fun p => !isCatchAll p).all legalLiteral = true ∧ literalsAgree v arms = true

/-- Where the object backend does. -/
def ObjectAgrees (scrutinee : BcType) (arms : List Pattern) (v : Value) : Prop :=
  (∀ p ∈ arms.dropLast, tested scrutinee p = true) ∧ testsAgree scrutinee v arms = true

theorem selectC_iff {info : SemanticInfo} {ty : BcType} {v : Value} (typed : v.hasType info ty = true)
    {arms : List Pattern} (fits : ∀ p ∈ arms, Fits ty p) (valued : Bool) :
    selectC ty valued arms (fun _ => v) = some (firstMatch arms v) ↔ CAgrees ty valued arms v := by
  by_cases unbuilt : (∀ name, ty ≠ .enum name) ∧ ∀ ok err, ty ≠ .result ok err
  · have chain : selectC ty valued arms (fun _ => v) =
        if arms ≠ [] ∧ (arms.takeWhile fun p => !isCatchAll p).all legalLiteral = true then
          some (selectLiteral (fun _ => v) 0 arms) else none := by
      cases ty with
      | enum name => exact absurd rfl (unbuilt.1 name)
      | result ok err => exact absurd rfl (unbuilt.2 ok err)
      | _ => rfl
    have agrees : CAgrees ty valued arms v ↔ arms ≠ [] ∧
        (arms.takeWhile fun p => !isCatchAll p).all legalLiteral = true ∧ literalsAgree v arms = true := by
      cases ty with
      | enum name => exact absurd rfl (unbuilt.1 name)
      | result ok err => exact absurd rfl (unbuilt.2 ok err)
      | _ => cases v <;> rfl
    rw [chain,agrees,firstMatch_from,← selectLiteral_iff unbuilt 0 arms fits]
    split
    · next legal => simp [legal.1,legal.2]
    · next broken => exact ⟨by simp,fun all => absurd ⟨all.1,all.2.1⟩ broken⟩
  · cases ty with
    | enum name =>
      cases v with
      | enum known tag payload =>
        obtain rfl : known = name := by
          simp only [Value.hasType,Bool.and_eq_true,beq_iff_eq] at typed
          exact typed.1
        exact selectEnum_iff fits
      | _ => simp [Value.hasType] at typed
    | result ok err =>
      cases v with
      | ok value =>
        rw [show selectC (.result ok err) valued arms (fun _ => .ok value) =
          some (selectBranch "Ok" okOf arms fun _ => .ok value) from rfl,Option.some.injEq]
        exact selectBranch_iff fits (.inl ⟨rfl,rfl,rfl⟩)
      | err value =>
        rw [show selectC (.result ok err) valued arms (fun _ => .err value) =
          some (selectBranch "Err" errOf arms fun _ => .err value) from rfl,Option.some.injEq]
        exact selectBranch_iff fits (.inr ⟨rfl,rfl,rfl⟩)
      | _ => simp [Value.hasType] at typed
    | _ => exact absurd ⟨by simp,by simp⟩ unbuilt

private def place : Span := ⟨0,0⟩

/-- `enum Opt { Some(i32), None } fn get(o: Opt) -> i32 { match o { .. } }` -/
def getArms (arms : List MatchArm) : Program :=
  ⟨[.enum ⟨"Opt",[⟨"Some",[.primitive .i32 place],place⟩,⟨"None",[],place⟩],place⟩,
    .fn ⟨"get",[⟨"o",.named "Opt" place,place⟩],some (.primitive .i32 place),
      .mk [] (some (.matchExpr (.ident "o" place) arms place)) place,true,place⟩]⟩

/-- `Opt::Some(x) => x, _ => 0` -/
def someFirst : List MatchArm :=
  [.mk (.enum "Opt" "Some" [.ident "x" place] place) (.ident "x" place) place,
    .mk (.wildcard place) (.intLit 0 place) place]

/-- `_ => 0, Opt::None => 1` -/
def wildcardFirst : List MatchArm :=
  [.mk (.wildcard place) (.intLit 0 place) place,
    .mk (.enum "Opt" "None" [] place) (.intLit 1 place) place]

end Oscan.Selection
