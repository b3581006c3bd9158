import Oscan.Exhaustive.Columns

/-! The match expressions that the checker accepts, and which of them have an arm for every
value of the scrutinee. -/
namespace Oscan
open Semantic Semantic.Analyzer Coverage Ast

/-- Whether the patterns cover a type: literals do together or with a catch-all, a variant as
far as the patterns of its payload cover it, and a type without values needs no pattern. -/
def exhaustive (info : SemanticInfo) (ty : BcType) (rows : List Pattern) : Bool :=
  Patterns.covers (patterns_measured info) [ty] (rows.map ([·]))

/-- Every value of the type is matched by some pattern. -/
def Total (info : SemanticInfo) (ty : BcType) (rows : List Pattern) : Prop :=
  ∀ v : Value, v.hasType info ty = true → ∃ p ∈ rows, p.matches v = true

theorem exhaustive_iff {program : Program} {sa : Analyzer} (collected : collect program = .ok sa)
    (ty : BcType) (rows : List Pattern) :
    exhaustive sa.info ty rows = true ↔ Total sa.info ty rows := by
  have lawful := patterns_lawful (vacant_exact collected)
  have full : ∀ row ∈ rows.map ([·]), row.length = [ty].length := by
    simp only [List.forall_mem_map]
    exact fun _ _ => rfl
  rw [exhaustive,Patterns.covers_iff lawful [ty] (rows.map ([·])) full]
  constructor
  · intro all v typed
    obtain ⟨row,member,holds⟩ := all [v] (.cons typed .nil)
    obtain ⟨p,listed,rfl⟩ := List.mem_map.mp member
    cases holds with
    | cons first _ => exact ⟨p,listed,first⟩
  · intro total values sorted
    cases sorted with
    | cons typed rest =>
      cases rest
      obtain ⟨p,listed,holds⟩ := total _ typed
      exact ⟨[p],List.mem_map_of_mem listed,.cons holds .nil⟩

section
variable {self : Analyzer} {E : Option BcType}

/-- The payload patterns are names and wildcards. -/
def Pattern.flat : Pattern → Bool
  | .enum _ _ bindings _ => bindings.all isCatchAll
  | _ => true

/-- A variant of the scrutinee's type with as many payload patterns as it has payloads. -/
def Marks (info : SemanticInfo) (scrutTy : BcType) (variant : String) : Pattern → Prop
  | .enum enumName tag bindings _ => tag = variant ∧
    ((∃ ok err, scrutTy = .result ok err ∧ enumName = "Result" ∧ bindings.length = 1) ∨
      ∃ known payload, scrutTy = .enum enumName ∧ info.enums.lookup enumName = some known ∧
        known.variants.lookup variant = some payload ∧ bindings.length = payload.length)
  | _ => False

/-- A pattern marks a variant as seen only by naming it. -/
theorem checkPatternCompat_seen {pat : Pattern} {scrutTy : BcType} {seen next : List String}
    {span armSpan : Span} {inner : Analyzer}
    (compatible : self.checkPatternCompat pat scrutTy seen span = .ok next)
    (bound : self.pushScope.bindPatternVars pat scrutTy armSpan = .ok inner) {variant : String}
    (member : variant ∈ next) : variant ∈ seen ∨ Marks self.info scrutTy variant pat := by
  cases pat with
  | enum enumName tag bindings patSpan =>
    simp only [checkPatternCompat] at compatible
    simp only [bindPatternVars] at bound
    split at compatible
    next named =>
      have named : enumName = "Result" := by simpa using named
      simp only [when_accepts,unless_accepts,pure_accepts] at compatible
      obtain ⟨-,size,rfl⟩ := compatible
      have size : bindings.length = 1 := by simpa using size
      simp only [named,beq_self_eq_true,if_true] at bound
      split at bound
      next ok err =>
        rcases List.mem_cons.mp member with rfl | earlier
        · exact .inr ⟨rfl,.inl ⟨ok,err,rfl,named,size⟩⟩
        · exact .inl earlier
      next => simp at bound
    next =>
      split at compatible
      next ename =>
        simp only [unless_accepts] at compatible
        obtain ⟨same,compatible⟩ := compatible
        obtain rfl : enumName = ename := by simpa using same
        split at compatible
        next => simp at compatible
        next known declared =>
          split at compatible
          next => simp at compatible
          next payload found =>
            simp only [unless_accepts,pure_accepts] at compatible
            obtain ⟨size,rfl⟩ := compatible
            rcases List.mem_cons.mp member with rfl | earlier
            · exact .inr ⟨rfl,.inr ⟨known,payload,rfl,declared,found,by simpa using size⟩⟩
            · exact .inl earlier
      next => simp at compatible
  | _ =>
    simp only [checkPatternCompat] at compatible
    repeat (split at compatible)
    all_goals simp_all

theorem checkArms_seen {scrutTy : BcType} {span : Span} : ∀ {arms : List MatchArm}
    {seen next : List String} {types : List (BcType × Span)} {log : List BcType},
    checkArms self scrutTy span E seen arms = .ok (types,next,log) →
    ∀ {variant : String}, variant ∈ next → variant ∈ seen ∨
      ∃ arm ∈ arms, Marks self.info scrutTy variant arm.pattern
  | [],seen,next,_,_,accepted,variant,member => by
    simp only [checkArms,pure_accepts,Prod.mk.injEq] at accepted
    exact .inl (accepted.2.1 ▸ member)
  | .mk pattern body armSpan :: arms,seen,next,_,_,accepted,variant,member => by
    simp only [checkArms,bind_accepts,pure_accepts,Prod.exists,Prod.mk.injEq] at accepted
    obtain ⟨seen',compatible,inner,bound,armTy,-,types,last,log,rest,-,rfl,-⟩ := accepted
    rcases checkArms_seen rest member with earlier | ⟨arm,listed,names⟩
    · rcases checkPatternCompat_seen compatible bound earlier with first | names
      · exact .inl first
      · exact .inr ⟨_,List.mem_cons_self,names⟩
    · exact .inr ⟨arm,List.mem_cons_of_mem _ listed,names⟩

theorem matchesAll_flat {bindings : List Pattern} {values : List Value}
    (flat : bindings.all isCatchAll = true) (size : bindings.length = values.length) :
    matchesAll bindings values = true := by
  rw [matchesAll_iff,List.forall₂_iff_get]
  refine ⟨size,fun i before _ => ?_⟩
  have caught := List.all_eq_true.mp flat _ (List.get_mem bindings ⟨i,before⟩)
  generalize bindings.get ⟨i,before⟩ = p at caught
  cases p <;> simp_all [Pattern.matches,isCatchAll]

/-- A pattern that names the variant of a value matches it when its payload patterns are flat. -/
theorem Marks.matches {info : SemanticInfo} {name variant : String} {payload : List Value}
    {types : List BcType} {known : EnumInfo} {p : Pattern}
    (marks : Marks info (.enum name) variant p) (flat : p.flat = true)
    (declared : info.enums.lookup name = some known)
    (found : known.variants.lookup variant = some types) (size : payload.length = types.length) :
    p.matches (.enum name variant payload) = true := by
  cases p with
  | enum enumName tag bindings _ =>
    obtain ⟨rfl,⟨_,_,impossible,-⟩ | ⟨known',types',same,declared',found',size'⟩⟩ := marks
    · cases impossible
    · cases same
      rw [declared] at declared'
      cases declared'
      rw [found] at found'
      cases found'
      simp [Pattern.matches,matchesAll_flat flat (size'.trans size.symm)]
  | _ => exact marks.elim

theorem Marks.matchesResult {info : SemanticInfo} {ok err : BcType} {variant : String} {v value : Value}
    {p : Pattern} (marks : Marks info (.result ok err) variant p) (flat : p.flat = true)
    (shape : variant = "Ok" ∧ v = .ok value ∨ variant = "Err" ∧ v = .err value) :
    p.matches v = true := by
  cases p with
  | enum enumName tag bindings _ =>
    obtain ⟨rfl,⟨_,_,-,rfl,size⟩ | ⟨_,_,impossible,-⟩⟩ := marks
    · have inner : matchesAll bindings [value] = true := matchesAll_flat flat size
      rcases shape with ⟨rfl,rfl⟩ | ⟨rfl,rfl⟩ <;> simp [Pattern.matches,inner]
    · cases impossible
  | _ => exact marks.elim

theorem caught_total {arms : List MatchArm}
    (wildcard : (arms.any fun arm => isCatchAll arm.pattern) = true) (v : Value) :
    ∃ arm ∈ arms, arm.pattern.matches v = true := by
  obtain ⟨arm,listed,caught⟩ := List.any_eq_true.mp wildcard
  refine ⟨arm,listed,?_⟩
  generalize arm.pattern = p at caught
  cases p <;> simp_all [Pattern.matches,isCatchAll]

/-- Arms with flat payload patterns that the checker accepts leave out no value of an enum
or a Result. -/
theorem accepted_flat {scrutTy : BcType} {arms : List MatchArm} {seen : List String}
    {span : Span} {types : List (BcType × Span)} {log : List BcType}
    (checked : checkArms self scrutTy span E [] arms = .ok (types,seen,log))
    (listed : self.checkExhaustive scrutTy (arms.any fun arm => isCatchAll arm.pattern) seen span = .ok ())
    (constructed : (∃ name, scrutTy = .enum name) ∨ ∃ ok err, scrutTy = .result ok err)
    (flat : ∀ arm ∈ arms, arm.pattern.flat = true) :
    Total self.info scrutTy (arms.map (·.pattern)) := by
  intro v typed
  suffices ∃ arm ∈ arms, arm.pattern.matches v = true by
    obtain ⟨arm,member,holds⟩ := this
    exact ⟨_,List.mem_map_of_mem member,holds⟩
  have marked {variant : String} (member : variant ∈ seen) :
      ∃ arm ∈ arms, Marks self.info scrutTy variant arm.pattern :=
    (checkArms_seen checked member).resolve_left List.not_mem_nil
  cases wildcard : arms.any fun arm => isCatchAll arm.pattern with
  | true => exact caught_total wildcard v
  | false =>
    rw [wildcard] at listed
    rcases constructed with ⟨name,rfl⟩ | ⟨ok,err,rfl⟩
    · cases v with
      | enum enumName variant payload =>
        simp only [Value.hasType,Bool.and_eq_true,beq_iff_eq] at typed
        obtain ⟨rfl,typed⟩ := typed
        split at typed
        next payloadTypes found =>
          obtain ⟨known,declared,found⟩ := Option.bind_eq_some_iff.mp found
          have member : variant ∈ seen := by
            have present : variant ∈ known.variants.map (·.1) := List.mem_map_of_mem (mem_of_lookup found)
            have declared : self.enums.lookup enumName = some known := declared
            simp only [checkExhaustive,Bool.false_eq_true,if_false,declared,Option.map_some,
              Option.getD_some,when_accepts,List.isEmpty_iff,missingVariants] at listed
            have none_ := List.filter_eq_nil_iff.mp listed.1 variant present
            simpa using none_
          obtain ⟨arm,member,marks⟩ := marked member
          exact ⟨arm,member,marks.matches (flat arm member) declared found
            (haveTypes_iff.mp typed).length_eq⟩
        next => simp at typed
      | _ => simp [Value.hasType] at typed
    · have both : "Ok" ∈ seen ∧ "Err" ∈ seen := by
        simp only [checkExhaustive,Bool.false_or,when_accepts,Bool.and_eq_true] at listed
        simpa using listed.1
      cases v with
      | ok value =>
        obtain ⟨arm,member,marks⟩ := marked both.1
        exact ⟨arm,member,marks.matchesResult (flat arm member) (.inl ⟨rfl,rfl⟩)⟩
      | err value =>
        obtain ⟨arm,member,marks⟩ := marked both.2
        exact ⟨arm,member,marks.matchesResult (flat arm member) (.inr ⟨rfl,rfl⟩)⟩
      | _ => simp [Value.hasType] at typed

end

/-- The types of which a literal names one value among many. -/
def BcType.literal : BcType → Bool
  | .i32 | .i64 | .f64 | .str => true
  | _ => false

private theorem intValues_few {width : Nat} (wide : 32 ≤ width) {rows : List Pattern}
    (few : rows.length < 2^32) :
    ∃ n, inRange width n = true ∧ some n ∉ rows.map Pattern.intValue := by
  let listed := (rows.filterMap Pattern.intValue).filter (inRange width)
  have within : ∀ n ∈ listed, inRange width n = true := fun n member => (List.mem_filter.mp member).2
  have short : listed.dedup.length < 2^width := calc
    listed.dedup.length ≤ listed.length := (List.dedup_sublist listed).length_le
    _ ≤ (rows.filterMap Pattern.intValue).length := List.length_filter_le ..
    _ ≤ rows.length := List.length_filterMap_le ..
    _ < 2^32 := few
    _ ≤ 2^width := Nat.pow_le_pow_right (by decide) wide
  have missing := (listed_full (by omega) within).not.mp (Nat.ne_of_lt short)
  obtain ⟨n,missing⟩ := not_forall.mp missing
  obtain ⟨valid,absent⟩ := Classical.not_imp.mp missing
  refine ⟨n,valid,fun member => absent ?_⟩
  obtain ⟨p,member,named⟩ := List.mem_map.mp member
  exact List.mem_filter.mpr ⟨List.mem_filterMap.mpr ⟨p,member,named⟩,valid⟩

/-- Integers, doubles and strings are covered through a wildcard or a name only. -/
theorem literal_total {info : SemanticInfo} {ty : BcType} {rows : List Pattern}
    (literal : ty.literal = true) (few : rows.length < 2^32) (total : Total info ty rows) :
    rows.any isCatchAll = true := by
  have int (width : Nat) (wide : 32 ≤ width)
      (total : ∀ n, inRange width n = true → ∃ p ∈ rows, p.matches (.int n) = true) :
      rows.any isCatchAll = true := by
    obtain ⟨n,valid,absent⟩ := intValues_few wide few
    obtain ⟨p,member,holds⟩ := total n valid
    rcases matches_int holds with caught | named
    · exact List.any_eq_true.mpr ⟨p,member,caught⟩
    · exact absurd (List.mem_map.mpr ⟨p,member,named⟩) absent
  cases ty <;> simp only [BcType.literal,Bool.false_eq_true] at literal
  case i32 => exact int 32 (by decide) fun n valid => total (.int n) (by simpa [Value.hasType] using valid)
  case i64 => exact int 64 (by decide) fun n valid => total (.int n) (by simpa [Value.hasType] using valid)
  case f64 =>
    obtain ⟨p,member,holds⟩ := total (.float .nan) (by simp [Value.hasType])
    rcases matches_float holds with caught | ⟨y,-,same⟩
    · exact List.any_eq_true.mpr ⟨p,member,caught⟩
    · simp [Binary64.eq_nan] at same
  case str =>
    obtain ⟨s,absent⟩ := fresh_string (rows.filterMap Pattern.stringValue)
    obtain ⟨p,member,holds⟩ := total (.str s) (by simp [Value.hasType])
    rcases matches_str holds with caught | named
    · exact List.any_eq_true.mpr ⟨p,member,caught⟩
    · exact absurd (List.mem_filterMap.mpr ⟨p,member,named⟩) absent

/-- Acceptance asks for the names of the variants alone: an accepted match has an arm for every
value exactly when its patterns are exhaustive. -/
theorem accepted_match_total (program : Program) (sa : Analyzer) (collected : collect program = .ok sa)
    (self : Analyzer) (tables : self.info = sa.info) (expected : Option BcType) (scrutinee : Expr)
    (arms : List MatchArm) (span : Span) (t : Typing)
    (accepted : checkExpr self expected (.matchExpr scrutinee arms span) = .ok t) :
    ∃ st, checkExpr self none scrutinee = .ok st ∧
      (Total sa.info st.ty (arms.map (·.pattern)) ↔
        exhaustive sa.info st.ty (arms.map (·.pattern)) = true) ∧
      ((∃ name, st.ty = .enum name) ∨ (∃ ok err, st.ty = .result ok err) →
        (∀ arm ∈ arms, arm.pattern.flat = true) → Total sa.info st.ty (arms.map (·.pattern))) ∧
      (st.ty.literal = true → arms.length < 2^32 → Total sa.info st.ty (arms.map (·.pattern)) →
        ∃ arm ∈ arms, isCatchAll arm.pattern = true) := by
  obtain ⟨st,types,seen,log,_,typed,checked,listed,-⟩ := checkExpr_matchExpr accepted
  refine ⟨st,typed,(exhaustive_iff collected st.ty _).symm,fun constructed flat => ?_,
    fun literal few total => ?_⟩
  · rw [← tables]
    exact accepted_flat checked listed constructed flat
  · have caught := literal_total literal (by simpa using few) total
    obtain ⟨_,member,caught⟩ := List.any_eq_true.mp caught
    obtain ⟨arm,listed,rfl⟩ := List.mem_map.mp member
    exact ⟨arm,listed,caught⟩

private def point : Span := ⟨0,0⟩

/-- `match o { .. }` over the payload pattern of `Opt::Some` -/
def optArms (payload : Pattern) : List MatchArm :=
  [.mk (.enum "Opt" "Some" [payload] point) (.intLit 1 point) point,
    .mk (.enum "Opt" "None" [] point) (.intLit 0 point) point]

/-- `enum Opt { Some(i32), None } fn get(o: Opt) -> i32 { match o { .. } }` -/
def getOpt (payload : Pattern) : Program :=
  ⟨[.enum ⟨"Opt",[⟨"Some",[.primitive .i32 point],point⟩,⟨"None",[],point⟩],point⟩,
    .fn ⟨"get",[⟨"o",.named "Opt" point,point⟩],some (.primitive .i32 point),
      .mk [] (some (.matchExpr (.ident "o" point) (optArms payload) point)) point,true,point⟩]⟩

theorem accepted_match_total_getOpt : ∃ sa, collect (getOpt (.ident "x" point)) = .ok sa ∧
    Total sa.info (.enum "Opt") ((optArms (.ident "x" point)).map (·.pattern)) := by
  refine ⟨_,rfl,?_⟩
  let self : Analyzer := {Except.toOption (collect (getOpt (.ident "x" point))) |>.getD initial with
    scopes := [[("o",⟨.enum "Opt",false⟩)]]}
  obtain ⟨st,typed,-,flat,-⟩ := accepted_match_total (getOpt (.ident "x" point)) _ rfl self rfl none
    (.ident "o" point) (optArms (.ident "x" point)) point _ rfl
  cases typed
  exact flat (.inl ⟨"Opt",rfl⟩) (by decide)

/-- The checker accepts a literal in the payload as if it were a name. -/
theorem getOpt_misses : ∃ info, analyze (getOpt (.intLit 1 point)) = .ok info ∧
    ∃ v : Value, v.hasType info (.enum "Opt") = true ∧
      ∀ arm ∈ optArms (.intLit 1 point), arm.pattern.matches v = false :=
  ⟨_,rfl,.enum "Opt" "Some" [.int 2],by decide,by decide⟩

end Oscan
