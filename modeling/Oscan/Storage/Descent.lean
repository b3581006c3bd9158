import Mathlib.Data.Prod.Lex
import Oscan.Exhaustive.Layered
import Oscan.Order.Independent
import Oscan.Preservation.Size

/-! Types along a place. Every accessor leads to a smaller type, since a struct stands above all
types that its fields name, inside arrays too. -/
namespace Oscan.Storage
open Semantic Semantic.Analyzer Lowering

def fieldOf (structs : List (String × StructInfo)) : BcType → String → Option BcType
  | .struct name,field => (structs.lookup name).bind fun s => s.fields.lookup field
  | _,_ => none

/-- An accessor without its index expression -/
inductive Step where
  | field (name : String)
  | index
deriving DecidableEq

def astStep : Ast.PlaceAccessor → Step
  | .field field => .field field
  | .index _ => .index

def irStep : Ir.PlaceAccessor → Step
  | .field field => .field field
  | .index _ => .index

def placeStep (structs : List (String × StructInfo)) (ty : BcType) : Step → Option BcType
  | .field field => fieldOf structs ty field
  | .index => arrayElementType ty

def placeType (structs : List (String × StructInfo)) : BcType → List Step → Option BcType
  | ty,[] => some ty
  | ty,step :: steps => (placeStep structs ty step).bind fun part => placeType structs part steps

/-- The element types of the containers that a place indexes -/
def elementTypes (structs : List (String × StructInfo)) : BcType → List Step → List BcType
  | _,[] => []
  | ty,step :: steps =>
    match placeStep structs ty step with
    | none => []
    | some part =>
      match step with
      | .field _ => elementTypes structs part steps
      | .index => part :: elementTypes structs part steps

/-- How high a type stands, by its element types down to a name. -/
def elevation (rank : String → Nat) : BcType → Nat
  | .struct name => rank name + 1
  | .array elem | .fixedArray elem _ => elevation rank elem
  | _ => 0

structure Stacked (structs : List (String × StructInfo)) (rank : String → Nat) : Prop where
  fields : ∀ s ∈ structs, ∀ f ∈ s.2.fields, elevation rank f.2 ≤ rank s.1
  declared : ∀ name, (structs.lookup name).isSome = true → rank name < structs.length

variable {structs : List (String × StructInfo)} {rank rank' : String → Nat} {names : Names}
  {ty part : BcType}

theorem elevation_agree (agrees : ∀ name, names.struct name = true → rank' name = rank name) :
    ∀ ty : BcType, ty.defined names = true → elevation rank' ty = elevation rank ty
  | .struct name,known => congrArg (· + 1) (agrees name known)
  | .array elem,known => elevation_agree agrees elem (by simpa using known : elem.defined names = true)
  | .fixedArray elem _,known => elevation_agree agrees elem (by simpa using known : elem.defined names = true)
  | .i32,_ | .i64,_ | .f64,_ | .bool,_ | .str,_ | .unit,_ | .handle,_ | .map,_ | .mapStrI32,_ | .mapStrI64,_
  | .mapStrF64,_ | .mapI32Str,_ | .mapI32I32,_ | .enum _,_ | .result ..,_ | .fnPtr ..,_ => rfl

theorem elevation_le {bound : Nat} (below : ∀ name, names.struct name = true → rank name < bound) :
    ∀ ty : BcType, ty.defined names = true → elevation rank ty ≤ bound
  | .struct name,known => below name known
  | .array elem,known => elevation_le below elem (by simpa using known : elem.defined names = true)
  | .fixedArray elem _,known => elevation_le below elem (by simpa using known : elem.defined names = true)
  | .i32,_ | .i64,_ | .f64,_ | .bool,_ | .str,_ | .unit,_ | .handle,_ | .map,_ | .mapStrI32,_ | .mapStrI64,_
  | .mapStrF64,_ | .mapI32Str,_ | .mapI32I32,_ | .enum _,_ | .result ..,_ | .fnPtr ..,_ => Nat.zero_le bound

/-- A new struct goes on top of all structs declared so far. -/
theorem Stacked.declare (stacked : Stacked structs rank) (closed : ∀ name, names.struct name = (structs.lookup name).isSome)
    (old : ∀ s ∈ structs, ∀ f ∈ s.2.fields, f.2.defined names = true) {name : String}
    {fields : List (String × BcType)} (fresh : (structs.lookup name).isSome = false)
    (known : ∀ f ∈ fields, f.2.defined names = true) : ∃ rank', Stacked ((name,⟨fields⟩) :: structs) rank' := by
  let rank' : String → Nat := fun other => if other = name then structs.length else rank other
  have own : rank' name = structs.length := if_pos rfl
  have others (other : String) (declared : names.struct other = true) : rank' other = rank other := by
    refine if_neg ?_
    rintro rfl
    rw [closed,fresh] at declared
    cases declared
  have below (other : String) (declared : names.struct other = true) : rank other < structs.length :=
    stacked.declared other (closed other ▸ declared)
  refine ⟨rank',List.forall_mem_cons.mpr ⟨fun f member => ?_,fun s member f inside => ?_⟩,fun other declared => ?_⟩
  · rw [elevation_agree others f.2 (known f member),own]
    exact elevation_le below f.2 (known f member)
  · have kept := stacked.fields s member f inside
    have listed : names.struct s.1 = true := by
      rw [closed]
      exact List.lookup_isSome_iff.mpr ⟨s,member,beq_self_eq_true s.1⟩
    rwa [elevation_agree others f.2 (old s member f inside),others s.1 listed]
  · rw [List.length_cons]
    rcases isSome_cons.mp declared with rfl | declared
    · rw [own]
      omega
    · rw [others other (by rwa [closed])]
      have := stacked.declared other declared
      omega

theorem collectDecls_stacked : ∀ {decls : List Ast.TopDecl} {self next : Analyzer}, Settled self →
    (∃ rank, Stacked self.structs rank) → self.collectDecls decls = .ok next → ∃ rank, Stacked next.structs rank
  | [],self,next,_,stacked,accepted => by
    simp only [collectDecls,pure_accepts] at accepted
    exact accepted ▸ stacked
  | decl :: decls,self,next,settled,stacked,accepted => by
    simp only [collectDecls,bind_accepts] at accepted
    obtain ⟨middle,head,tail⟩ := accepted
    refine collectDecls_stacked (settled.collectDecl decl head) ?_ tail
    obtain ⟨rank,stacked⟩ := stacked
    cases decl with
    | struct s =>
      simp only [collectDecl,bind_accepts,unless_accepts,pure_accepts] at head
      obtain ⟨fields,collected,fresh,rfl⟩ := head
      exact stacked.declare (fun _ => rfl) settled.grounded.structs (by simpa only [Bool.not_eq_true] using fresh)
        (settled.grounded.collectFields collected).2
    | enum e =>
      simp only [collectDecl,bind_accepts,unless_accepts,pure_accepts] at head
      obtain ⟨variants,-,-,rfl⟩ := head
      exact ⟨rank,stacked⟩
    | fn f =>
      simp only [collectDecl,bind_accepts,unless_accepts,pure_accepts] at head
      obtain ⟨_,-,_,-,_,-,-,rfl⟩ := head
      exact ⟨rank,stacked⟩
    | letDecl l =>
      simp only [collectDecl,bind_accepts,unless_accepts,pure_accepts] at head
      obtain ⟨_,-,_,-,-,rfl⟩ := head
      exact ⟨rank,stacked⟩
    | externBlock eb => exact ⟨rank,(collectExterns_tables head).1 ▸ stacked⟩
    | useDecl =>
      simp only [collectDecl,pure_accepts] at head
      exact head ▸ ⟨rank,stacked⟩

theorem analyze_stacked {program : Ast.Program} {info : SemanticInfo} (accepted : analyze program = .ok info) :
    ∃ rank, Stacked info.structs rank := by
  obtain ⟨sa,collected,-,rfl⟩ := analyze_accepts.mp accepted
  have start : Settled initial := collect_settled (show collect ⟨[]⟩ = .ok initial from rfl)
  exact collectDecls_stacked start ⟨fun _ => 0,nofun,fun _ declared => by cases declared⟩ collected

def nesting : BcType → Nat
  | .array elem | .fixedArray elem _ => nesting elem + 1
  | _ => 0

/-- The measure along a place: a field lowers the elevation, and an index lowers the nesting. -/
def measure (rank : String → Nat) (ty : BcType) : ℕ ×ₗ ℕ := toLex (elevation rank ty,nesting ty)

theorem element_less {elem : BcType} (array : arrayElementType ty = some elem) :
    measure rank elem < measure rank ty := by
  have same : elevation rank elem = elevation rank ty := by
    cases ty <;> cases array <;> rfl
  have smaller : nesting elem < nesting ty := by
    cases ty <;> cases array <;> exact Nat.lt_succ_self _
  exact Prod.Lex.toLex_lt_toLex.mpr (.inr ⟨same,smaller⟩)

theorem field_less (stacked : Stacked structs rank) {field : String} (found : fieldOf structs ty field = some part) :
    measure rank part < measure rank ty := by
  cases ty with
  | struct name =>
    obtain ⟨s,known,inside⟩ := Option.bind_eq_some_iff.mp found
    have below := stacked.fields (name,s) (mem_of_lookup known) (field,part) (mem_of_lookup inside)
    exact Prod.Lex.toLex_lt_toLex.mpr (.inl (Nat.lt_succ_of_le below))
  | _ => cases found

theorem elementTypes_length : ∀ {steps : List Step} {ty final : BcType}, placeType structs ty steps = some final →
    (elementTypes structs ty steps).length = steps.count .index
  | [],_,_,_ => rfl
  | step :: steps,ty,final,type => by
    obtain ⟨part,found,rest⟩ := Option.bind_eq_some_iff.mp type
    have later := elementTypes_length rest
    cases step with
    | field field => simpa [elementTypes,found] using later
    | index => simpa [elementTypes,found] using later

/-- The checker follows the types along a place. -/
theorem checkPlace_type {self : Analyzer} {use : PlaceUse} : ∀ {accessors : List Ast.PlaceAccessor}
    {ty : BcType} {span : Span} {result : BcType × List BcType},
    checkPlace self use ty span accessors = .ok result → placeType self.structs ty (accessors.map astStep) = some result.1
  | [],ty,span,result,accepted => by
    rw [checkPlace_nil accepted]
    rfl
  | .field field :: accessors,ty,span,result,accepted => by
    obtain ⟨part,typed,rest⟩ := checkPlace_field accepted
    have step : fieldOf self.structs ty field = some part := by
      unfold Analyzer.fieldType at typed
      split at typed
      next name =>
        split at typed
        next => cases typed
        next s known =>
          split at typed
          next => cases typed
          next inside =>
            cases typed
            exact Option.bind_eq_some_iff.mpr ⟨s,known,inside⟩
      next => cases typed
    exact Option.bind_eq_some_iff.mpr ⟨part,step,checkPlace_type rest⟩
  | .index index :: accessors,ty,span,result,accepted => by
    obtain ⟨it,elem,log,-,-,array,rest,-⟩ := checkPlace_index accepted
    have later := checkPlace_type rest
    exact Option.bind_eq_some_iff.mpr ⟨elem,array,later⟩

theorem lowerAccessors_steps {lw : Lowering} : ∀ {accessors : List Ast.PlaceAccessor} {irs : List Ir.PlaceAccessor},
    lowerAccessors lw accessors = some irs → irs.map irStep = accessors.map astStep
  | [],irs,lowered => by
    cases lowered
    rfl
  | .field field :: accessors,irs,lowered => by
    simp only [lowerAccessors,bind_lowers,pure_lowers] at lowered
    obtain ⟨irs,lowered,rfl⟩ := lowered
    exact congrArg (Step.field field :: ·) (lowerAccessors_steps lowered)
  | .index index :: accessors,irs,lowered => by
    simp only [lowerAccessors,bind_lowers,pure_lowers] at lowered
    obtain ⟨index,-,irs,lowered,rfl⟩ := lowered
    exact congrArg (Step.index :: ·) (lowerAccessors_steps lowered)

end Oscan.Storage
