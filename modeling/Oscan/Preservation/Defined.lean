import Oscan.Preservation.Program
import Oscan.Verify

/-! Types whose names are declared. The tables that the first pass leaves behind hold no
other types, and the scopes keep to them. -/
namespace Oscan
open Ast Semantic Semantic.Analyzer

/-- The names that stand for structs and for enums. -/
structure Names where
  struct : String → Bool
  enum : String → Bool

def SemanticInfo.declared (info : SemanticInfo) : Names :=
  ⟨fun name => (info.structs.lookup name).isSome,fun name => (info.enums.lookup name).isSome⟩

namespace BcType

mutual
def defined (names : Names) : BcType → Bool
  | .struct name => names.struct name
  | .enum name => names.enum name
  | .array elem | .fixedArray elem _ => defined names elem
  | .result ok err => defined names ok && defined names err
  | .fnPtr params ret _ => definedAll names params && defined names ret
  | .i32 | .i64 | .f64 | .bool | .str | .unit | .handle | .map | .mapStrI32 | .mapStrI64
  | .mapStrF64 | .mapI32Str | .mapI32I32 => true
def definedAll (names : Names) : List BcType → Bool
  | [] => true
  | ty :: types => defined names ty && definedAll names types
end

attribute [simp] defined

variable {names : Names}

@[simp] theorem definedAll_iff (types : List BcType) :
    definedAll names types = true ↔ ∀ ty ∈ types, ty.defined names = true := by
  induction types with
  | nil => simp [definedAll]
  | cons ty types ih => simp [definedAll,ih]

theorem defined_compatible {a b : BcType} (compatible : a.isCompatibleWith b = true) :
    a.defined names = b.defined names := by
  rcases compatible_cases compatible with rfl | ⟨params,ret,rfl,rfl⟩
  · rfl
  · simp [defined]

theorem defined_element {ty elem : BcType} (array : arrayElementType ty = some elem) :
    ty.defined names = elem.defined names := by
  cases ty <;> simp_all [arrayElementType]

theorem defined_join {a b ty : BcType} {expected : Option BcType}
    (joined : a.compatibleJoin b expected = some ty) (first : a.defined names = true)
    (second : b.defined names = true) : ty.defined names = true := by
  rw [compatibleJoin_expected] at joined
  unfold compatibleJoin at joined
  simp only [Option.filter_none] at joined
  split at joined
  · exact Option.some.inj joined ▸ first
  · split at joined
    · exact Option.some.inj joined ▸ second
    · split at joined
      · exact Option.some.inj joined ▸ first
      · simp at joined

@[simp] theorem defined_core (core : CoreType) : core.bcType.defined names = true := by
  cases core <;> rfl

end BcType

/-- The structs and enums of the tables are among the names. -/
structure Covered (names : Names) (sa : Analyzer) : Prop where
  knownStruct : ∀ name, (sa.structs.lookup name).isSome = true → names.struct name = true
  knownEnum : ∀ name, (sa.enums.lookup name).isSome = true → names.enum name = true

/-- All types that the checker may look up are defined. -/
structure Grounded (names : Names) (sa : Analyzer) : Prop extends Covered names sa where
  structs : ∀ s ∈ sa.structs, ∀ f ∈ s.2.fields, f.2.defined names = true
  enums : ∀ e ∈ sa.enums, ∀ v ∈ e.2.variants, ∀ ty ∈ v.2, ty.defined names = true
  functions : ∀ f ∈ sa.functions,
    (∀ p ∈ f.2.params, p.2.defined names = true) ∧ f.2.returnType.defined names = true
  constants : ∀ c ∈ sa.constants, c.2.ty.defined names = true
  scopes : ∀ scope ∈ sa.scopes, ∀ b ∈ scope, b.2.ty.defined names = true
  ret : ∀ ty, sa.currentFnReturnType = some ty → ty.defined names = true

variable {names : Names} {self next : Analyzer}

theorem mem_of_lookup {α : Type} {name : String} {value : α} : ∀ {table : List (String × α)},
    table.lookup name = some value → (name,value) ∈ table
  | (key,v) :: table,found => by
    rw [List.lookup_cons] at found
    split at found
    next same => simp_all
    next => exact List.mem_cons_of_mem _ (mem_of_lookup found)

theorem mem_of_lookupScopes {α : Type} {name : String} {value : α} : ∀ {scopes : List (Scope α)},
    lookupScopes scopes name = some value → ∃ scope ∈ scopes, (name,value) ∈ scope
  | scope :: scopes,found => by
    simp only [lookupScopes,Option.or_eq_some_iff] at found
    rcases found with found | ⟨-,found⟩
    · exact ⟨scope,by simp,mem_of_lookup found⟩
    · obtain ⟨inner,member,holds⟩ := mem_of_lookupScopes found
      exact ⟨inner,List.mem_cons_of_mem _ member,holds⟩

mutual
/-- The names that a written type refers to are declared. -/
def Ast.Ty.declared (names : Names) : Ty → Bool
  | .primitive .. => true
  | .named name _ => names.struct name || names.enum name
  | .fixedArray elem _ _ | .dynamicArray elem _ => elem.declared names
  | .result ok err _ => ok.declared names && err.declared names
  | .fnPtr params ret _ _ => allDeclared names params && ret.declared names
def Ast.allDeclared (names : Names) : List Ty → Bool
  | [] => true
  | ty :: types => ty.declared names && allDeclared names types
end

mutual
theorem Covered.resolveType (covered : Covered names self) : ∀ (ty : Ty) {resolved : BcType},
    self.resolveType ty = .ok resolved → ty.declared names = true ∧ resolved.defined names = true
  | .primitive p _,resolved,accepted => by
    simp only [Analyzer.resolveType,pure_accepts] at accepted
    exact ⟨rfl,by cases p <;> simp [← accepted,primitive]⟩
  | .named name span,resolved,accepted => by
    simp only [Analyzer.resolveType] at accepted
    split at accepted
    next known =>
      obtain rfl := (pure_accepts _ _).mp accepted
      simp [Ty.declared,covered.knownStruct name known]
    next =>
      simp only [when_accepts,pure_accepts] at accepted
      obtain ⟨known,rfl⟩ := accepted
      simp [Ty.declared,covered.knownEnum name known]
  | .fixedArray elem size span,resolved,accepted => by
    simp only [Analyzer.resolveType,bind_accepts,unless_accepts,pure_accepts] at accepted
    obtain ⟨e,checked,-,rfl⟩ := accepted
    simpa [Ty.declared] using covered.resolveType elem checked
  | .dynamicArray elem span,resolved,accepted => by
    simp only [Analyzer.resolveType,bind_accepts,unless_accepts,pure_accepts] at accepted
    obtain ⟨e,checked,-,rfl⟩ := accepted
    simpa [Ty.declared] using covered.resolveType elem checked
  | .result ok err span,resolved,accepted => by
    simp only [Analyzer.resolveType,bind_accepts,pure_accepts] at accepted
    obtain ⟨o,checkedOk,e,checkedErr,rfl⟩ := accepted
    simp [Ty.declared,covered.resolveType ok checkedOk,covered.resolveType err checkedErr]
  | .fnPtr params ret isPure span,resolved,accepted => by
    simp only [Analyzer.resolveType,bind_accepts,pure_accepts] at accepted
    obtain ⟨ps,checkedParams,r,checkedRet,rfl⟩ := accepted
    obtain ⟨namedParams,definedParams⟩ := covered.resolveTypes params checkedParams
    obtain ⟨namedRet,definedRet⟩ := covered.resolveType ret checkedRet
    simp only [Ty.declared,namedParams,namedRet,BcType.defined,definedRet,Bool.and_true,
      Bool.and_self,true_and,BcType.definedAll_iff]
    exact definedParams
theorem Covered.resolveTypes (covered : Covered names self) : ∀ (types : List Ty)
    {resolved : List BcType}, self.resolveTypes types = .ok resolved →
    allDeclared names types = true ∧ ∀ ty ∈ resolved, ty.defined names = true
  | [],resolved,accepted => by
    simp only [Analyzer.resolveTypes,pure_accepts] at accepted
    simp [← accepted,allDeclared]
  | ty :: types,resolved,accepted => by
    simp only [Analyzer.resolveTypes,bind_accepts,pure_accepts] at accepted
    obtain ⟨t,checked,ts,checkedRest,rfl⟩ := accepted
    simpa [allDeclared,covered.resolveType ty checked] using covered.resolveTypes types checkedRest
end

theorem Covered.resolveReturn (covered : Covered names self) {ty : Option Ty} {resolved : BcType}
    (accepted : self.resolveReturn ty = .ok resolved) :
    (∀ t ∈ ty.toList, t.declared names = true) ∧ resolved.defined names = true := by
  cases ty with
  | none =>
    simp only [Analyzer.resolveReturn,pure_accepts] at accepted
    simp [← accepted]
  | some ty => simpa using covered.resolveType ty accepted

mutual
/-- Lowering resolves such a type to a defined one, be a name now a struct or an enum. -/
theorem resolveType_defined (lw : Lowering) : ∀ (ty : Ty), ty.declared lw.info.declared = true →
    (lw.resolveType ty).defined lw.info.declared = true
  | .primitive p _,_ => by cases p <;> rfl
  | .named name _,known => by
    simp only [Lowering.resolveType]
    split
    next isStruct => simpa [SemanticInfo.declared] using isStruct
    next notStruct => simpa [Ty.declared,SemanticInfo.declared,notStruct] using known
  | .fixedArray elem _ _,known | .dynamicArray elem _,known => by
    simpa [Lowering.resolveType] using resolveType_defined lw elem known
  | .result ok err _,known => by
    simp only [Ty.declared,Bool.and_eq_true] at known
    simp [Lowering.resolveType,resolveType_defined lw ok known.1,
      resolveType_defined lw err known.2]
  | .fnPtr params ret _ _,known => by
    simp only [Ty.declared,Bool.and_eq_true] at known
    simpa [Lowering.resolveType,resolveType_defined lw ret known.2] using
      resolveTypes_defined lw params known.1
theorem resolveTypes_defined (lw : Lowering) : ∀ (types : List Ty),
    allDeclared lw.info.declared types = true →
    ∀ ty ∈ lw.resolveTypes types, ty.defined lw.info.declared = true
  | [],_ => by simp [Lowering.resolveTypes]
  | ty :: types,known => by
    simp only [allDeclared,Bool.and_eq_true] at known
    simpa [Lowering.resolveTypes,resolveType_defined lw ty known.1] using
      resolveTypes_defined lw types known.2
end

namespace Grounded

variable (grounded : Grounded names self)
include grounded

theorem pushScope : Grounded names self.pushScope :=
  {grounded with scopes := by simpa [Analyzer.pushScope] using grounded.scopes}

theorem enterLoop : Grounded names self.enterLoop := {grounded with}

theorem lookupVar {name : String} {info : BindingInfo} (bound : self.lookupVar name = some info) :
    info.ty.defined names = true := by
  obtain ⟨scope,member,holds⟩ := mem_of_lookupScopes bound
  exact grounded.scopes scope member _ holds

theorem calledFunction {name : String} {func : FunctionInfo}
    (known : self.functions.lookup name = some func) :
    (∀ p ∈ func.params, p.2.defined names = true) ∧ func.returnType.defined names = true :=
  grounded.functions _ (mem_of_lookup known)

theorem payload {enumName variant : String} {info : EnumInfo} {types : List BcType}
    (known : self.enums.lookup enumName = some info)
    (found : info.variants.lookup variant = some types) : ∀ ty ∈ types, ty.defined names = true :=
  grounded.enums _ (mem_of_lookup known) _ (mem_of_lookup found)

theorem structField {name field : String} {info : StructInfo} {ty : BcType}
    (known : self.structs.lookup name = some info) (found : info.fields.lookup field = some ty) :
    ty.defined names = true :=
  grounded.structs _ (mem_of_lookup known) _ (mem_of_lookup found)

theorem identType {name : String} {span : Span} {ty : BcType}
    (accepted : self.identType name span = .ok ty) : ty.defined names = true := by
  unfold Analyzer.identType at accepted
  split at accepted
  next info bound =>
    obtain rfl := (pure_accepts _ _).mp accepted
    exact grounded.lookupVar bound
  next =>
    split at accepted
    next info known =>
      obtain rfl := (pure_accepts _ _).mp accepted
      exact grounded.constants _ (mem_of_lookup known)
    next =>
      split at accepted
      next func known =>
        simp only [unless_accepts,pure_accepts] at accepted
        obtain ⟨params,ret⟩ := grounded.calledFunction known
        simpa [← accepted.2,ret] using fun a b member => params (b,a) member
      next => simp at accepted

theorem fieldType {ty fieldTy : BcType} {field : String} {span : Span}
    (accepted : self.fieldType ty field span = .ok fieldTy) : fieldTy.defined names = true := by
  unfold Analyzer.fieldType at accepted
  split at accepted
  next name =>
    split at accepted
    next => simp at accepted
    next info known =>
      split at accepted
      next => simp at accepted
      next t found =>
        obtain rfl := (pure_accepts _ _).mp accepted
        exact grounded.structField known found
  next => simp at accepted

theorem inferResultType {E : Option BcType} {ty : BcType}
    (expected : ∀ e, E = some e → e.defined names = true)
    (inferred : self.inferResultType E = some ty) : ty.defined names = true := by
  unfold Analyzer.inferResultType at inferred
  split at inferred
  next ok err => exact Option.some.inj inferred ▸ expected _ rfl
  next =>
    split at inferred
    next ok err ret => exact Option.some.inj inferred ▸ grounded.ret _ ret
    next => simp at inferred

theorem bind {name : String} {ty : BcType} {isMut : Bool} {span : Span}
    (known : ty.defined names = true) (accepted : self.addBinding name ty isMut span = .ok next) :
    Grounded names next := by
  simp only [addBinding,bind_accepts,unless_accepts,pure_accepts] at accepted
  obtain ⟨-,-,-,rfl⟩ := accepted
  refine {grounded with scopes := ?_}
  have scopes := grounded.scopes
  cases frames : self.scopes with
  | nil => simp [insertBinding]
  | cons scope rest =>
    rw [frames] at scopes
    simp only [insertBinding,List.forall_mem_cons] at scopes ⊢
    exact ⟨⟨known,scopes.1⟩,scopes.2⟩

end Grounded

theorem Grounded.bindPayload : ∀ {bindings : List (Pattern × BcType)} {self : Analyzer},
    Grounded names self → (∀ b ∈ bindings, b.2.defined names = true) →
    self.bindPayload bindings = .ok next → Grounded names next
  | [],self,grounded,_,accepted => by
    simp only [Analyzer.bindPayload,pure_accepts] at accepted
    exact accepted ▸ grounded
  | (.ident name span,ty) :: rest,self,grounded,known,accepted => by
    simp only [Analyzer.bindPayload,bind_accepts] at accepted
    obtain ⟨middle,bound,tail⟩ := accepted
    simp only [List.forall_mem_cons] at known
    exact (grounded.bind known.1 bound).bindPayload known.2 tail
  | (.wildcard _,_) :: rest,self,grounded,known,accepted
  | (.intLit ..,_) :: rest,self,grounded,known,accepted
  | (.floatLit ..,_) :: rest,self,grounded,known,accepted
  | (.stringLit ..,_) :: rest,self,grounded,known,accepted
  | (.boolLit ..,_) :: rest,self,grounded,known,accepted
  | (.enum ..,_) :: rest,self,grounded,known,accepted => by
    simp only [Analyzer.bindPayload] at accepted
    simp only [List.forall_mem_cons] at known
    exact grounded.bindPayload known.2 accepted

theorem Grounded.bindPatternVars (grounded : Grounded names self) {pattern : Pattern}
    {scrutTy : BcType} {span : Span} (known : scrutTy.defined names = true)
    (accepted : self.bindPatternVars pattern scrutTy span = .ok next) : Grounded names next := by
  cases pattern with
  | wildcard | intLit | floatLit | stringLit | boolLit =>
    simp only [Analyzer.bindPatternVars,pure_accepts] at accepted
    exact accepted ▸ grounded
  | ident name => exact grounded.bind known accepted
  | enum enumName variant bindings =>
    unfold Analyzer.bindPatternVars at accepted
    dsimp only at accepted
    split at accepted
    next =>
      split at accepted
      next ok err =>
        simp only [BcType.defined,Bool.and_eq_true] at known
        have typed (ty : BcType) : ∀ b ∈ (bindings.take 1).map (·,ty), b.2 = ty := by
          intro b member
          obtain ⟨_,-,rfl⟩ := List.mem_map.mp member
          rfl
        split at accepted
        next => exact grounded.bindPayload (fun b member => typed ok b member ▸ known.1) accepted
        next =>
          split at accepted
          next => exact grounded.bindPayload (fun b member => typed err b member ▸ known.2) accepted
          next => simp at accepted
      next => simp at accepted
    next =>
      split at accepted
      next ename =>
        split at accepted
        next payload found =>
          obtain ⟨info,enumKnown,variantKnown⟩ := Option.bind_eq_some_iff.mp found
          have types := grounded.payload enumKnown variantKnown
          exact grounded.bindPayload (fun b member => types _ (List.of_mem_zip member).2) accepted
        next =>
          obtain rfl := (pure_accepts _ _).mp accepted
          exact grounded
      next =>
        obtain rfl := (pure_accepts _ _).mp accepted
        exact grounded

theorem Grounded.bindParams (grounded : Grounded names self) : ∀ {params : List Param}
    {frames done : List (Scope BindingInfo)},
    (∀ scope ∈ frames, ∀ b ∈ scope, b.2.ty.defined names = true) →
    self.bindParams frames params = .ok done →
    ∀ scope ∈ done, ∀ b ∈ scope, b.2.ty.defined names = true
  | [],frames,done,known,accepted => by
    simp only [Analyzer.bindParams,pure_accepts] at accepted
    exact accepted ▸ known
  | p :: params,frames,done,known,accepted => by
    simp only [Analyzer.bindParams,bind_accepts,unless_accepts] at accepted
    obtain ⟨-,-,ty,resolved,-,rest⟩ := accepted
    refine grounded.bindParams ?_ rest
    cases frames with
    | nil => simp [insertBinding]
    | cons scope frames =>
      simp only [insertBinding,List.forall_mem_cons] at known ⊢
      exact ⟨⟨(grounded.resolveType p.ty resolved).2,known.1⟩,known.2⟩

/-- The types written in the signature of a declaration. -/
def Ast.TopDecl.types : TopDecl → List Ty
  | .struct s => s.fields.map (·.ty)
  | .enum e => e.variants.flatMap (·.payloadTypes)
  | .fn f => f.params.map (·.ty) ++ f.returnType.toList
  | .letDecl l => [l.ty]
  | .externBlock eb => eb.decls.flatMap fun ef => ef.params.map (·.ty) ++ ef.returnType.toList
  | .useDecl .. => []

namespace Covered

variable (covered : Covered names self)
include covered

theorem collectFields : ∀ {fields : List Field} {done : List (String × BcType)},
    self.collectFields fields = .ok done →
    (∀ f ∈ fields, f.ty.declared names = true) ∧ ∀ f ∈ done, f.2.defined names = true
  | [],done,accepted => by
    simp only [Analyzer.collectFields,pure_accepts] at accepted
    simp [← accepted]
  | f :: fields,done,accepted => by
    simp only [Analyzer.collectFields,bind_accepts,unless_accepts,pure_accepts] at accepted
    obtain ⟨ty,resolved,-,rest,tail,rfl⟩ := accepted
    simp only [List.forall_mem_cons,covered.resolveType f.ty resolved,true_and]
    exact collectFields tail

theorem collectPayload : ∀ {types : List Ty} {done : List BcType},
    self.collectPayload types = .ok done →
    (∀ ty ∈ types, ty.declared names = true) ∧ ∀ ty ∈ done, ty.defined names = true
  | [],done,accepted => by
    simp only [Analyzer.collectPayload,pure_accepts] at accepted
    simp [← accepted]
  | ty :: types,done,accepted => by
    simp only [Analyzer.collectPayload,bind_accepts,unless_accepts,pure_accepts] at accepted
    obtain ⟨_,resolved,-,rest,tail,rfl⟩ := accepted
    simp only [List.forall_mem_cons,covered.resolveType ty resolved,true_and]
    exact collectPayload tail

theorem collectVariants : ∀ {variants : List Variant} {done : List (String × List BcType)},
    self.collectVariants variants = .ok done →
    (∀ v ∈ variants, ∀ ty ∈ v.payloadTypes, ty.declared names = true) ∧
      ∀ v ∈ done, ∀ ty ∈ v.2, ty.defined names = true
  | [],done,accepted => by
    simp only [Analyzer.collectVariants,pure_accepts] at accepted
    simp [← accepted]
  | v :: variants,done,accepted => by
    simp only [Analyzer.collectVariants,bind_accepts,pure_accepts] at accepted
    obtain ⟨payload,collected,rest,tail,rfl⟩ := accepted
    obtain ⟨written,resolved⟩ := covered.collectPayload collected
    obtain ⟨writtenRest,resolvedRest⟩ := collectVariants tail
    exact ⟨List.forall_mem_cons.mpr ⟨written,writtenRest⟩,
      List.forall_mem_cons.mpr ⟨resolved,resolvedRest⟩⟩

theorem collectParams : ∀ {params : List Param} {done : List (String × BcType)},
    self.collectParams params = .ok done →
    (∀ p ∈ params, p.ty.declared names = true) ∧ ∀ p ∈ done, p.2.defined names = true
  | [],done,accepted => by
    simp only [Analyzer.collectParams,pure_accepts] at accepted
    simp [← accepted]
  | p :: params,done,accepted => by
    simp only [Analyzer.collectParams,bind_accepts,pure_accepts] at accepted
    obtain ⟨ty,resolved,rest,tail,rfl⟩ := accepted
    simp only [List.forall_mem_cons,covered.resolveType p.ty resolved,true_and]
    exact collectParams tail

end Covered

theorem collectExterns_tables : ∀ {decls : List ExternFnDecl} {self next : Analyzer},
    self.collectExterns decls = .ok next →
    next.structs = self.structs ∧ next.enums = self.enums
  | [],self,next,accepted => by
    simp only [Analyzer.collectExterns,pure_accepts] at accepted
    simp [← accepted]
  | ef :: decls,self,next,accepted => by
    simp only [Analyzer.collectExterns,bind_accepts,unless_accepts] at accepted
    obtain ⟨-,-,_,-,_,-,-,rest⟩ := accepted
    have same := collectExterns_tables rest
    exact same

/-- The tables only grow. -/
theorem Covered.beforeDecl (covered : Covered names next) (decl : TopDecl)
    (accepted : self.collectDecl decl = .ok next) : Covered names self := by
  have grown {α : Type} (table : List (String × α)) (key name : String) (value : α)
      (known : (table.lookup name).isSome = true) :
      (List.lookup name ((key,value) :: table)).isSome = true := by
    rw [List.lookup_cons]
    split <;> simp [known]
  cases decl with
  | struct s =>
    simp only [collectDecl,bind_accepts,unless_accepts,pure_accepts] at accepted
    obtain ⟨_,-,-,rfl⟩ := accepted
    exact ⟨fun name known => covered.knownStruct name (grown _ _ _ _ known),covered.knownEnum⟩
  | enum e =>
    simp only [collectDecl,bind_accepts,unless_accepts,pure_accepts] at accepted
    obtain ⟨_,-,-,rfl⟩ := accepted
    exact ⟨covered.knownStruct,fun name known => covered.knownEnum name (grown _ _ _ _ known)⟩
  | fn f =>
    simp only [collectDecl,bind_accepts,unless_accepts,pure_accepts] at accepted
    obtain ⟨_,-,_,-,_,-,-,rfl⟩ := accepted
    exact ⟨covered.knownStruct,covered.knownEnum⟩
  | letDecl l =>
    simp only [collectDecl,bind_accepts,unless_accepts,pure_accepts] at accepted
    obtain ⟨_,-,_,-,-,rfl⟩ := accepted
    exact ⟨covered.knownStruct,covered.knownEnum⟩
  | externBlock eb =>
    obtain ⟨structs,enums⟩ := collectExterns_tables accepted
    exact ⟨fun name => structs ▸ covered.knownStruct name,fun name => enums ▸ covered.knownEnum name⟩
  | useDecl =>
    simp only [collectDecl,pure_accepts] at accepted
    exact accepted ▸ covered

theorem Grounded.collectExterns : ∀ {decls : List ExternFnDecl} {self next : Analyzer},
    Grounded names self → self.collectExterns decls = .ok next →
    Grounded names next ∧
      ∀ ef ∈ decls, ∀ ty ∈ ef.params.map (·.ty) ++ ef.returnType.toList, ty.declared names = true
  | [],self,next,grounded,accepted => by
    simp only [Analyzer.collectExterns,pure_accepts] at accepted
    exact ⟨accepted ▸ grounded,by simp⟩
  | ef :: decls,self,next,grounded,accepted => by
    simp only [Analyzer.collectExterns,bind_accepts,unless_accepts] at accepted
    obtain ⟨-,-,params,collected,ret,resolved,-,rest⟩ := accepted
    obtain ⟨writtenParams,definedParams⟩ := grounded.collectParams collected
    obtain ⟨writtenRet,definedRet⟩ := grounded.resolveReturn resolved
    have middle : Grounded names
        {self with functions := (ef.name,⟨params,ret,false,true⟩) :: self.functions} :=
      {grounded with
        functions := List.forall_mem_cons.mpr ⟨⟨definedParams,definedRet⟩,grounded.functions⟩}
    obtain ⟨last,written⟩ := middle.collectExterns rest
    refine ⟨last,List.forall_mem_cons.mpr ⟨?_,written⟩⟩
    simp only [List.forall_mem_append,List.forall_mem_map]
    exact ⟨writtenParams,writtenRet⟩

theorem Grounded.collectDecl (grounded : Grounded names self) (covered : Covered names next)
    (decl : TopDecl) (accepted : self.collectDecl decl = .ok next) :
    Grounded names next ∧ ∀ ty ∈ decl.types, ty.declared names = true := by
  cases decl with
  | struct s =>
    simp only [Analyzer.collectDecl,bind_accepts,unless_accepts,pure_accepts] at accepted
    obtain ⟨fields,collected,-,rfl⟩ := accepted
    obtain ⟨written,resolved⟩ := grounded.collectFields collected
    exact ⟨{grounded with
      toCovered := covered
      structs := List.forall_mem_cons.mpr ⟨resolved,grounded.structs⟩},
      by simpa [TopDecl.types] using written⟩
  | enum e =>
    simp only [Analyzer.collectDecl,bind_accepts,unless_accepts,pure_accepts] at accepted
    obtain ⟨variants,collected,-,rfl⟩ := accepted
    obtain ⟨written,resolved⟩ := grounded.collectVariants collected
    refine ⟨{grounded with
      toCovered := covered
      enums := List.forall_mem_cons.mpr ⟨resolved,grounded.enums⟩},?_⟩
    simp only [TopDecl.types,List.mem_flatMap]
    rintro ty ⟨v,member,inside⟩
    exact written v member ty inside
  | fn f =>
    simp only [Analyzer.collectDecl,bind_accepts,unless_accepts,pure_accepts] at accepted
    obtain ⟨-,-,params,collected,ret,resolved,-,rfl⟩ := accepted
    obtain ⟨writtenParams,definedParams⟩ := grounded.collectParams collected
    obtain ⟨writtenRet,definedRet⟩ := grounded.resolveReturn resolved
    refine ⟨{grounded with
      functions := List.forall_mem_cons.mpr ⟨⟨definedParams,definedRet⟩,grounded.functions⟩},?_⟩
    simp only [TopDecl.types,List.forall_mem_append,List.forall_mem_map]
    exact ⟨writtenParams,writtenRet⟩
  | letDecl l =>
    simp only [Analyzer.collectDecl,bind_accepts,unless_accepts,pure_accepts] at accepted
    obtain ⟨-,-,ty,resolved,-,rfl⟩ := accepted
    obtain ⟨written,known⟩ := grounded.resolveType l.ty resolved
    exact ⟨{grounded with constants := List.forall_mem_cons.mpr ⟨known,grounded.constants⟩},
      by simpa [TopDecl.types] using written⟩
  | externBlock eb =>
    obtain ⟨last,written⟩ := grounded.collectExterns accepted
    refine ⟨last,?_⟩
    simp only [TopDecl.types,List.mem_flatMap]
    rintro ty ⟨ef,member,inside⟩
    exact written ef member ty inside
  | useDecl =>
    simp only [Analyzer.collectDecl,pure_accepts] at accepted
    exact ⟨accepted ▸ grounded,by simp [TopDecl.types]⟩

theorem Covered.beforeDecls : ∀ {decls : List TopDecl} {self : Analyzer}, Covered names next →
    self.collectDecls decls = .ok next → Covered names self
  | [],self,covered,accepted => by
    simp only [collectDecls,pure_accepts] at accepted
    exact accepted ▸ covered
  | decl :: decls,self,covered,accepted => by
    simp only [collectDecls,bind_accepts] at accepted
    obtain ⟨middle,head,tail⟩ := accepted
    exact (covered.beforeDecls tail).beforeDecl decl head

theorem Grounded.collectDecls (covered : Covered names next) : ∀ {decls : List TopDecl}
    {self : Analyzer}, Grounded names self → self.collectDecls decls = .ok next →
    Grounded names next ∧ ∀ decl ∈ decls, ∀ ty ∈ decl.types, ty.declared names = true
  | [],self,grounded,accepted => by
    simp only [Analyzer.collectDecls,pure_accepts] at accepted
    exact ⟨accepted ▸ grounded,by simp⟩
  | decl :: decls,self,grounded,accepted => by
    simp only [Analyzer.collectDecls,bind_accepts] at accepted
    obtain ⟨middle,head,tail⟩ := accepted
    obtain ⟨stepped,written⟩ := grounded.collectDecl (covered.beforeDecls tail) decl head
    obtain ⟨last,writtenRest⟩ := Grounded.collectDecls covered stepped tail
    exact ⟨last,List.forall_mem_cons.mpr ⟨written,writtenRest⟩⟩

set_option maxRecDepth 4000 in
theorem registerBuiltins_defined : (registerBuiltins.all fun f =>
    f.2.params.all (fun p => p.2.defined names) && f.2.returnType.defined names) = true := rfl

/-- After the first pass every type in the tables and every written type is declared. -/
theorem collect_grounded {program : Program} {sa : Analyzer} (accepted : collect program = .ok sa) :
    Grounded sa.info.declared sa ∧
      ∀ decl ∈ program.decls, ∀ ty ∈ decl.types, ty.declared sa.info.declared = true := by
  have covered : Covered sa.info.declared sa := ⟨fun _ known => known,fun _ known => known⟩
  have builtins : ∀ f ∈ registerBuiltins, (∀ p ∈ f.2.params, p.2.defined sa.info.declared = true) ∧
      f.2.returnType.defined sa.info.declared = true := by
    have all := @registerBuiltins_defined sa.info.declared
    simpa only [List.all_eq_true,Bool.and_eq_true] using all
  have start : Grounded sa.info.declared initial :=
    {covered.beforeDecls accepted with
      structs := by simp [initial]
      enums := by simp [initial]
      functions := builtins
      constants := by simp [initial]
      scopes := by simp [initial]
      ret := by simp [initial]}
  exact start.collectDecls covered accepted

end Oscan
