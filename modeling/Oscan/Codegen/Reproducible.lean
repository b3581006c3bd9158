import Oscan.Codegen.Declarations
import Oscan.Preservation.Accepted

/-! Whether the C file depends on the order of the table of functions. Result types are declared in an
order of the source; the function-pointer types of the table come first and in the order of the table. -/
namespace Oscan.Codegen
open Library.Staged Ast Semantic Semantic.Analyzer

/-- The name under which a Result type is declared. -/
def pairName (p : BcType × BcType) : String := resultTypeName p.1 p.2

/-- A C file: the lines in front of the declarations, the declarations, and what follows. -/
structure CFile where
  includes : List String
  declarations : List Declaration
  definitions : List String

def CFile.text (file : CFile) : List String :=
  file.includes ++ file.declarations.flatMap (·.lines) ++ file.definitions

/-- `generate`, with the table of functions read in some order. Beside the collectors, the generator only
looks names up in its maps, so the other lines depend on the program alone. -/
def generate (emitIncludes emitDefinitions : Ir.Program → List String) (program : Ir.Program)
    (table : List FunctionInfo) : Option CFile :=
  (emitTypeDeclarations program table).map fun declarations =>
    ⟨emitIncludes program,declarations.map CTypeDecl.declaration,emitDefinitions program⟩

def functionTable (program : Ir.Program) : List FunctionInfo := program.functions.map (·.2)

/-- All orders of the table give the same file, declaration by declaration. -/
def Reproducible (program : Ir.Program) : Prop :=
  ∀ emitIncludes emitDefinitions (table other : List FunctionInfo), table.Perm (functionTable program) →
    other.Perm (functionTable program) →
    generate emitIncludes emitDefinitions program table = generate emitIncludes emitDefinitions program other

def pointerDecls (types : List BcType) : List Declaration := types.map fun ty => (CTypeDecl.fnPtr ty).declaration

/-- The declarations that do not depend on the order of the table. -/
def fixedDecls (program : Ir.Program) : List Declaration :=
  (sourceDecls program ++ resultDecls program []).map CTypeDecl.declaration

def tableGroups (table : List FunctionInfo) : List (List Declaration) := table.map fun f => pointerDecls (tableFnPtrs f)

def laterDecls (program : Ir.Program) : List Declaration := pointerDecls (laterFnPtrs program)

/-- No order of the table has an order of declarations, or functions that mention a function-pointer type
declare it alike, and in no stage of the loop two functions come first with different ready ones. -/
def OrderFree (program : Ir.Program) : Prop :=
  (∀ table : List FunctionInfo, table.Perm (functionTable program) →
    ¬ Orderable Declaration.name Declaration.needs
      (pending Declaration.name (fixedDecls program) (laterDecls program) (tableGroups table))) ∨
  Agree Declaration.name (tableGroups (functionTable program)) ∧
    NoChoice Declaration.name Declaration.needs (fixedDecls program) (laterDecls program)
      (tableGroups (functionTable program))

/-- Every Result type of the table has a name that the source brings as well, or one of the runtime. -/
def ResultsListed (program : Ir.Program) : Prop :=
  ∀ f ∈ functionTable program, ∀ p ∈ (signatureTypes f).flatMap resultVisits,
    isRuntimeResultType (pairName p) = true ∨ pairName p ∈ ((resultSources program).flatMap resultVisits).map pairName

variable {program : Ir.Program} {table : List FunctionInfo}

theorem resultDecls_order (listed : ResultsListed program) (sub : table ⊆ functionTable program) :
    resultDecls program table = resultDecls program [] := by
  let foreign : BcType × BcType → Bool := fun p => !isRuntimeResultType (pairName p)
  let known := (resultSources program).flatMap resultVisits
  have later : ∀ p ∈ (firstSeen id (known.map id ++ []) (table.flatMap fun f =>
      (signatureTypes f).flatMap resultVisits)).filter foreign,
      pairName p ∈ ((firstSeen id [] known).filter foreign).map pairName ++ [] := by
    intro p late
    obtain ⟨member,open'⟩ := List.mem_filter.mp late
    obtain ⟨f,among,visited⟩ := List.mem_flatMap.mp (firstSeen_sub member)
    rcases listed f (sub among) p visited with runtime | named
    · simp only [foreign,runtime,Bool.not_true,Bool.false_eq_true] at open'
    · obtain ⟨q,brought,same⟩ := List.mem_map.mp named
      have first : q ∈ (firstSeen id [] known).map id :=
        (mem_firstSeen_names known []).mpr ⟨List.mem_map_of_mem brought,List.not_mem_nil⟩
      rw [List.map_id] at first
      refine List.mem_append_left _ (List.mem_map.mpr ⟨q,List.mem_filter.mpr ⟨first,?_⟩,same⟩)
      simpa only [foreign,same] using open'
  show ((firstSeen pairName [] ((firstSeen id [] (known ++ _)).filter foreign)).map _) =
    (firstSeen pairName [] ((firstSeen id [] (known ++ [])).filter foreign)).map _
  rw [firstSeen_append,List.filter_append,firstSeen_append,firstSeen_known later,List.append_nil,List.append_nil]

theorem pendingDecls_pending (listed : ResultsListed program) (sub : table ⊆ functionTable program) :
    (pendingDecls program table).map CTypeDecl.declaration =
      pending Declaration.name (fixedDecls program) (laterDecls program) (tableGroups table) := by
  have apart : Function.Injective fun tag : String => "osc_" ++ tag := fun _ _ same => (String.append_right_inj _).mp same
  have pointers := @firstSeen_map _ _ _ Declaration.name _ _ _ (fun ty => (CTypeDecl.fnPtr ty).declaration) typeTag
    (fun tag => "osc_" ++ tag) (fun _ => rfl) apart (table.flatMap tableFnPtrs ++ laterFnPtrs program) []
  rw [pendingDecls,resultDecls_order listed sub,List.map_append,pending,fixedDecls,List.map_map]
  refine congrArg (_ ++ ·) (pointers.trans ?_)
  rw [List.map_append,List.map_nil]
  refine congrArg (fun groups => firstSeen Declaration.name [] (groups ++ _)) ?_
  rw [tableGroups,List.flatMap_def,List.map_flatten,List.map_map]
  rfl

theorem emitTypeDeclarations_pending (listed : ResultsListed program) (sub : table ⊆ functionTable program) :
    (emitTypeDeclarations program table).map (List.map CTypeDecl.declaration) =
      arrange Declaration.name Declaration.needs
        (pending Declaration.name (fixedDecls program) (laterDecls program) (tableGroups table)) := by
  rw [← pendingDecls_pending listed sub,arrange_map]
  rfl

theorem generate_declarations (emitIncludes emitDefinitions : Ir.Program → List String) :
    generate emitIncludes emitDefinitions program table =
      ((emitTypeDeclarations program table).map (List.map CTypeDecl.declaration)).map fun declarations =>
        ⟨emitIncludes program,declarations,emitDefinitions program⟩ := by
  rw [generate,Option.map_map]
  rfl

theorem generate_alike (listed : ResultsListed program) : Reproducible program ↔
    ∀ order other : List (List Declaration), order.Perm (tableGroups (functionTable program)) →
      other.Perm (tableGroups (functionTable program)) →
      arrange Declaration.name Declaration.needs
          (pending Declaration.name (fixedDecls program) (laterDecls program) order) =
        arrange Declaration.name Declaration.needs
          (pending Declaration.name (fixedDecls program) (laterDecls program) other) := by
  constructor
  · intro alike order other first second
    obtain ⟨table,perm,rfl⟩ := perm_of_map first
    obtain ⟨table',swapped,rfl⟩ := perm_of_map second
    have same := alike (fun _ => []) (fun _ => []) table table' perm swapped
    simp only [generate_declarations,emitTypeDeclarations_pending listed perm.subset,
      emitTypeDeclarations_pending listed swapped.subset] at same
    exact Option.map_injective (fun _ _ same => congrArg CFile.declarations same) same
  · intro alike emitIncludes emitDefinitions table other first second
    rw [generate_declarations,generate_declarations,emitTypeDeclarations_pending listed first.subset,
      emitTypeDeclarations_pending listed second.subset]
    exact congrArg _ (alike _ _ (first.map _) (second.map _))

theorem reproducible_listed (listed : ResultsListed program) : Reproducible program ↔ OrderFree program := by
  rw [generate_alike listed,arrange_alike_iff]
  refine or_congr_left ⟨fun stuck table perm => stuck _ (perm.map _),fun stuck order perm => ?_⟩
  obtain ⟨table,same,rfl⟩ := perm_of_map perm
  exact stuck table same

/-- Types that differ in what is a struct and what is an enum only. -/
def SameNames (t u : BcType) : Prop :=
  typeTag t = typeTag u ∧ (resultVisits t).map pairName = (resultVisits u).map pairName

variable {self : Analyzer} {lw : Lowering}

mutual
theorem resolveType_names : ∀ (ty : Ast.Ty) {resolved : BcType}, self.resolveType ty = .ok resolved →
    SameNames resolved (lw.resolveType ty)
  | .primitive p _,resolved,accepted => by
    cases accepted
    exact ⟨rfl,rfl⟩
  | .named name _,resolved,accepted => by
    have kinds : resolved = .struct name ∨ resolved = .enum name := by
      simp only [Analyzer.resolveType] at accepted
      split at accepted
      next => exact .inl ((pure_accepts _ _).mp accepted).symm
      next =>
        simp only [when_accepts,pure_accepts] at accepted
        exact .inr accepted.2.symm
    rw [Lowering.resolveType]
    split <;> rcases kinds with rfl | rfl <;> exact ⟨rfl,rfl⟩
  | .fixedArray elem size _,resolved,accepted => by
    simp only [Analyzer.resolveType,bind_accepts,unless_accepts,pure_accepts] at accepted
    obtain ⟨e,checked,-,rfl⟩ := accepted
    obtain ⟨tag,visits⟩ := resolveType_names elem checked
    exact ⟨by rw [Lowering.resolveType,typeTag,typeTag,tag],visits⟩
  | .dynamicArray elem _,resolved,accepted => by
    simp only [Analyzer.resolveType,bind_accepts,unless_accepts,pure_accepts] at accepted
    obtain ⟨e,checked,-,rfl⟩ := accepted
    obtain ⟨tag,visits⟩ := resolveType_names elem checked
    exact ⟨by rw [Lowering.resolveType,typeTag,typeTag,tag],visits⟩
  | .result ok err _,resolved,accepted => by
    simp only [Analyzer.resolveType,bind_accepts,pure_accepts] at accepted
    obtain ⟨o,checkedOk,e,checkedErr,rfl⟩ := accepted
    obtain ⟨okTag,okVisits⟩ := resolveType_names ok checkedOk
    obtain ⟨errTag,errVisits⟩ := resolveType_names err checkedErr
    refine ⟨by rw [Lowering.resolveType,typeTag,typeTag,okTag,errTag],?_⟩
    simp only [Lowering.resolveType,resultVisits,List.map_cons,List.map_append,okVisits,errVisits,pairName,
      resultTypeName,okTag,errTag]
  | .fnPtr params ret isPure _,resolved,accepted => by
    simp only [Analyzer.resolveType,bind_accepts,pure_accepts] at accepted
    obtain ⟨ps,checkedParams,r,checkedRet,rfl⟩ := accepted
    obtain ⟨paramTags,paramVisits⟩ := resolveTypes_names params checkedParams
    obtain ⟨retTag,retVisits⟩ := resolveType_names ret checkedRet
    refine ⟨by rw [Lowering.resolveType,typeTag,typeTag,paramTags,retTag],?_⟩
    simp only [Lowering.resolveType,resultVisits,List.map_append,paramVisits,retVisits]
theorem resolveTypes_names : ∀ (types : List Ast.Ty) {resolved : List BcType},
    self.resolveTypes types = .ok resolved → typeTags resolved = typeTags (lw.resolveTypes types) ∧
      (resultVisitsAll resolved).map pairName = (resultVisitsAll (lw.resolveTypes types)).map pairName
  | [],resolved,accepted => by
    cases accepted
    exact ⟨rfl,rfl⟩
  | ty :: types,resolved,accepted => by
    simp only [Analyzer.resolveTypes,bind_accepts,pure_accepts] at accepted
    obtain ⟨t,checked,ts,checkedRest,rfl⟩ := accepted
    obtain ⟨tag,visits⟩ := resolveType_names ty checked
    obtain ⟨tags,visitsRest⟩ := resolveTypes_names types checkedRest
    exact ⟨by rw [Lowering.resolveTypes,typeTags,typeTags,tag,tags],
      by simp only [Lowering.resolveTypes,resultVisitsAll,List.map_append,visits,visitsRest]⟩
end

theorem resolveReturn_names {ty : Option Ast.Ty} {resolved : BcType} (accepted : self.resolveReturn ty = .ok resolved) :
    SameNames resolved (lw.resolveReturn ty) := by
  cases ty with
  | none =>
    cases accepted
    exact ⟨rfl,rfl⟩
  | some ty => exact resolveType_names ty accepted

theorem collectParams_names : ∀ {params : List Param} {done : List (String × BcType)},
    self.collectParams params = .ok done →
    ((done.map (·.2)).flatMap resultVisits).map pairName =
      (((lw.lowerParams params).map (·.2)).flatMap resultVisits).map pairName
  | [],done,accepted => by
    cases accepted
    rfl
  | p :: params,done,accepted => by
    simp only [collectParams,bind_accepts,pure_accepts] at accepted
    obtain ⟨t,checked,rest,checkedRest,rfl⟩ := accepted
    have visits := (@resolveType_names _ lw p.ty _ checked).2
    have visitsRest := collectParams_names checkedRest
    simp only [Lowering.lowerParams,List.map_cons,List.flatMap_cons,List.map_append,visits] at visitsRest ⊢
    rw [visitsRest]

/-- The entry was made from a signature, under some tables. -/
def Signed (f : FunctionInfo) (params : List Param) (ret : Option Ast.Ty) : Prop :=
  ∃ self : Analyzer, self.collectParams params = .ok f.params ∧ self.resolveReturn ret = .ok f.returnType

theorem Signed.names {f : FunctionInfo} {params : List Param} {ret : Option Ast.Ty} (signed : Signed f params ret) :
    ((signatureTypes f).flatMap resultVisits).map pairName =
      (((lw.lowerParams params).map (·.2) ++ [lw.resolveReturn ret]).flatMap resultVisits).map pairName := by
  obtain ⟨self,checkedParams,checkedRet⟩ := signed
  have visits := (@resolveReturn_names _ lw _ _ checkedRet).2
  rw [signatureTypes,List.flatMap_append,List.map_append,@collectParams_names _ lw _ _ checkedParams,
    List.flatMap_append,List.map_append,List.flatMap_singleton,List.flatMap_singleton,visits]

/-- The entry comes from a declaration of the list. -/
def Comes (f : FunctionInfo) (decls : List TopDecl) : Prop :=
  (∃ d, .fn d ∈ decls ∧ Signed f d.params d.returnType) ∨
    ∃ block, .externBlock block ∈ decls ∧ ∃ d ∈ block.decls, Signed f d.params d.returnType

theorem collectExterns_entries : ∀ {decls : List ExternFnDecl} {self next : Analyzer},
    collectExterns self decls = .ok next → ∀ p ∈ next.functions,
    p ∈ self.functions ∨ ∃ d ∈ decls, Signed p.2 d.params d.returnType
  | [],self,next,accepted => by
    cases accepted
    exact fun p is => .inl is
  | ef :: decls,self,next,accepted => by
    simp only [collectExterns,bind_accepts,unless_accepts] at accepted
    obtain ⟨-,-,params,checkedParams,ret,checkedRet,-,collected⟩ := accepted
    intro p is
    rcases collectExterns_entries collected p is with before | ⟨d,member,signed⟩
    · rcases List.mem_cons.mp before with rfl | before
      · exact .inr ⟨ef,List.mem_cons_self,self,checkedParams,checkedRet⟩
      · exact .inl before
    · exact .inr ⟨d,List.mem_cons_of_mem _ member,signed⟩

theorem collectDecl_entries {decl : TopDecl} {next : Analyzer} (accepted : self.collectDecl decl = .ok next) :
    ∀ p ∈ next.functions, p ∈ self.functions ∨ Comes p.2 [decl] := by
  intro p is
  cases decl with
  | externBlock eb =>
    rcases collectExterns_entries accepted p is with before | signed
    · exact .inl before
    · exact .inr (.inr ⟨eb,List.mem_cons_self,signed⟩)
  | useDecl =>
    simp only [collectDecl,pure_accepts] at accepted
    exact .inl (accepted ▸ is)
  | fn f =>
    simp only [collectDecl,bind_accepts,unless_accepts,pure_accepts] at accepted
    obtain ⟨-,-,params,checkedParams,ret,checkedRet,-,rfl⟩ := accepted
    rcases List.mem_cons.mp is with rfl | before
    · exact .inr (.inl ⟨f,List.mem_cons_self,self,checkedParams,checkedRet⟩)
    · exact .inl before
  | struct s | enum s =>
    simp only [collectDecl,bind_accepts,unless_accepts,pure_accepts] at accepted
    obtain ⟨_,-,-,rfl⟩ := accepted
    exact .inl is
  | letDecl l =>
    simp only [collectDecl,bind_accepts,unless_accepts,pure_accepts] at accepted
    obtain ⟨-,-,_,-,-,rfl⟩ := accepted
    exact .inl is

theorem Comes.mono {f : FunctionInfo} {decls more : List TopDecl} (sub : decls ⊆ more) (comes : Comes f decls) :
    Comes f more := by
  rcases comes with ⟨d,member,signed⟩ | ⟨block,member,signed⟩
  · exact .inl ⟨d,sub member,signed⟩
  · exact .inr ⟨block,sub member,signed⟩

theorem collectDecls_entries : ∀ {decls : List TopDecl} {self next : Analyzer}, collectDecls self decls = .ok next →
    ∀ p ∈ next.functions, p ∈ self.functions ∨ Comes p.2 decls
  | [],self,next,accepted => by
    cases accepted
    exact fun p is => .inl is
  | decl :: decls,self,next,accepted => by
    simp only [collectDecls,bind_accepts] at accepted
    obtain ⟨middle,first,rest⟩ := accepted
    intro p is
    rcases collectDecls_entries rest p is with before | comes
    · rcases collectDecl_entries first p before with before | comes
      · exact .inl before
      · exact .inr (comes.mono (List.cons_subset_cons _ (List.nil_subset _)))
    · exact .inr (comes.mono (List.subset_cons_self _ _))

theorem builtin_results : ∀ p ∈ registerBuiltins, ∀ r ∈ (signatureTypes p.2).flatMap resultVisits,
    isRuntimeResultType (pairName r) = true := by
  decide +kernel

/-- What the definitions of a lowered program keep of their declarations. -/
structure Holds (lw : Lowering) (decls : List TopDecl) (part : Ir.Program) : Prop where
  fns : ∀ f, .fn f ∈ decls → ∃ d ∈ part.fnDefs, d.params = lw.lowerParams f.params ∧
    d.returnType = lw.resolveReturn f.returnType
  externs : ∀ eb, .externBlock eb ∈ decls → lw.lowerExternBlock eb ∈ part.externBlocks

theorem Holds.skip {decl : TopDecl} {decls : List TopDecl} {rest part : Ir.Program} (holds : Holds lw decls rest)
    (fns : part.fnDefs = rest.fnDefs) (externs : part.externBlocks = rest.externBlocks)
    (noFn : ∀ f, .fn f ≠ decl) (noExtern : ∀ eb, .externBlock eb ≠ decl) : Holds lw (decl :: decls) part :=
  ⟨fun f member => fns ▸ holds.fns f ((List.mem_cons.mp member).resolve_left (noFn f)),
    fun eb member => externs ▸ holds.externs eb ((List.mem_cons.mp member).resolve_left (noExtern eb))⟩

theorem lowerDecls_holds : ∀ {decls : List TopDecl} {part : Ir.Program}, lw.lowerDecls decls = some part →
    Holds lw decls part
  | [],part,_ => ⟨fun _ member => (List.not_mem_nil member).elim,fun _ member => (List.not_mem_nil member).elim⟩
  | .useDecl .. :: decls,part,lowered => by
    simp only [Lowering.lowerDecls] at lowered
    exact (lowerDecls_holds lowered).skip rfl rfl (by simp) (by simp)
  | .struct _ :: decls,part,lowered | .enum _ :: decls,part,lowered => by
    simp only [Lowering.lowerDecls,bind_lowers,pure_lowers] at lowered
    obtain ⟨rest,loweredRest,rfl⟩ := lowered
    exact (lowerDecls_holds loweredRest).skip rfl rfl (by simp) (by simp)
  | .letDecl _ :: decls,part,lowered => by
    simp only [Lowering.lowerDecls,bind_lowers,pure_lowers] at lowered
    obtain ⟨_,-,rest,loweredRest,rfl⟩ := lowered
    exact (lowerDecls_holds loweredRest).skip rfl rfl (by simp) (by simp)
  | .externBlock eb :: decls,part,lowered => by
    simp only [Lowering.lowerDecls,bind_lowers,pure_lowers] at lowered
    obtain ⟨rest,loweredRest,rfl⟩ := lowered
    have holds := lowerDecls_holds loweredRest
    refine ⟨fun f member => holds.fns f ((List.mem_cons.mp member).resolve_left (by simp)),fun other member => ?_⟩
    rcases List.mem_cons.mp member with same | member
    · cases same
      exact List.mem_cons_self
    · exact List.mem_cons_of_mem _ (holds.externs other member)
  | .fn f :: decls,part,lowered => by
    simp only [Lowering.lowerDecls,bind_lowers,pure_lowers] at lowered
    obtain ⟨d,loweredFn,rest,loweredRest,rfl⟩ := lowered
    have holds := lowerDecls_holds loweredRest
    refine ⟨fun other member => ?_,fun eb member => holds.externs eb ((List.mem_cons.mp member).resolve_left (by simp))⟩
    rcases List.mem_cons.mp member with same | member
    · cases same
      simp only [Lowering.lowerFn,bind_lowers,pure_lowers] at loweredFn
      obtain ⟨_,-,_,-,rfl⟩ := loweredFn
      exact ⟨_,List.mem_cons_self,rfl,rfl⟩
    · obtain ⟨d,among,same⟩ := holds.fns other member
      exact ⟨d,List.mem_cons_of_mem _ among,same⟩

theorem visits_mono {types more : List BcType} (sub : types ⊆ more) {name : String}
    (named : name ∈ (types.flatMap resultVisits).map pairName) : name ∈ (more.flatMap resultVisits).map pairName := by
  obtain ⟨p,visited,rfl⟩ := List.mem_map.mp named
  obtain ⟨t,member,inside⟩ := List.mem_flatMap.mp visited
  exact List.mem_map_of_mem (List.mem_flatMap.mpr ⟨t,sub member,inside⟩)

/-- In an accepted program the collector sees the Result types of the table elsewhere too. -/
theorem resultsListed {source : Ast.Program} {info : SemanticInfo} (accepted : analyze source = .ok info)
    (lowered : lowerProgram source info = some program) : ResultsListed program := by
  simp only [analyze,analyzeLog,bind_accepts,pure_accepts,Prod.exists,Prod.mk.injEq] at accepted
  obtain ⟨_,_,⟨sa,collected,_,-,rfl,-⟩,rfl⟩ := accepted
  have holds : Holds (declLowering sa.info) source.decls program := lowerDecls_holds lowered
  have shared : Over program sa := lowerDecls_over lowered
  intro f entry p visited
  obtain ⟨⟨name,_⟩,member,rfl⟩ := List.mem_map.mp entry
  rw [shared.functions] at member
  have named : pairName p ∈ ((signatureTypes _).flatMap resultVisits).map pairName := List.mem_map_of_mem visited
  rcases collectDecls_entries collected _ member with builtin | ⟨d,declared,signed⟩ | ⟨eb,declared,d,among,signed⟩
  · exact .inl (builtin_results _ builtin p visited)
  · obtain ⟨g,defined,params,ret⟩ := holds.fns d declared
    rw [@Signed.names (declLowering sa.info) _ _ _ signed,← params,← ret] at named
    refine .inr (visits_mono (fun t is => List.mem_append_left _ (List.mem_flatMap.mpr ⟨g,defined,?_⟩)) named)
    rcases List.mem_append.mp is with param | ret
    · exact List.mem_cons_of_mem _ (List.mem_append_left _ param)
    · rw [List.mem_singleton.mp ret]
      exact List.mem_cons_self
  · rw [@Signed.names (declLowering sa.info) _ _ _ signed] at named
    refine .inr (visits_mono (fun t is => List.mem_append_right _ (List.mem_append_right _ ?_)) named)
    exact List.mem_flatMap.mpr ⟨_,holds.externs eb declared,List.mem_flatMap.mpr ⟨_,List.mem_map_of_mem among,is⟩⟩

/-- The C file of an accepted program is the same for every order of the table exactly when the order
decides no stage of the loop. -/
theorem reproducible_iff {source : Ast.Program} {info : SemanticInfo} (accepted : analyze source = .ok info)
    (lowered : lowerProgram source info = some program) : Reproducible program ↔ OrderFree program :=
  reproducible_listed (resultsListed accepted lowered)

private def away : Span := ⟨0,0⟩

/-- `fn name(f: fn(of) -> of) {}` -/
def taking (name : String) (of : PrimitiveType) : TopDecl :=
  .fn ⟨name,[⟨"f",.fnPtr [.primitive of away] (.primitive of away) true away,away⟩],none,.mk [] none away,true,away⟩

/-- `fn a(f: fn(i32) -> i32) {}`, `fn b(f: fn(i64) -> i64) {}` and `fn! main() {}` -/
def takers : Ast.Program := ⟨[taking "a" .i32,taking "b" .i64,.fn ⟨"main",[],none,.mk [] none away,false,away⟩]⟩

/-- `takers` as they are lowered -/
def takersLowered : Ir.Program :=
  let pointer (t : BcType) : List (String × BcType) := [("f",.fnPtr [t] t true)]
  ⟨[],[],[("main",⟨[],.unit,false,false⟩),("b",⟨pointer .i64,.unit,true,false⟩),("a",⟨pointer .i32,.unit,true,false⟩)] ++
      registerBuiltins,[],[],[],[],[],
    [⟨"a",pointer .i32,.unit,.mk [] none away,true,away⟩,⟨"b",pointer .i64,.unit,.mk [] none away,true,away⟩,
      ⟨"main",[],.unit,.mk [] none away,false,away⟩]⟩

theorem takers_lower : ∃ info, analyze takers = .ok info ∧ lowerProgram takers info = some takersLowered :=
  ⟨_,rfl,rfl⟩

theorem reproducible_iff_takers : ∃ info, analyze takers = .ok info ∧
    lowerProgram takers info = some takersLowered ∧ (Reproducible takersLowered ↔ OrderFree takersLowered) := by
  obtain ⟨info,accepted,lowered⟩ := takers_lower
  exact ⟨info,accepted,lowered,reproducible_iff accepted lowered⟩

/-- Whether the pointers of `a` or of `b` are declared first is up to the order of the table. -/
theorem takers_irreproducible : ∃ info, analyze takers = .ok info ∧
    lowerProgram takers info = some takersLowered ∧ ¬ Reproducible takersLowered := by
  obtain ⟨info,accepted,lowered⟩ := takers_lower
  refine ⟨info,accepted,lowered,fun same => ?_⟩
  rcases (reproducible_listed (resultsListed accepted lowered)).mp same with stuck | ⟨-,only⟩
  · have free : ∀ d ∈ (tableGroups (functionTable takersLowered)).flatten ++ laterDecls takersLowered,
        d.needs = [] := by
      decide +kernel
    refine stuck _ (.refl _) ⟨_,.refl _,Ordered.of_free fun d is => ?_⟩
    rw [pending,show fixedDecls takersLowered = [] from rfl,List.nil_append] at is
    exact free d (firstSeen_sub is)
  · have first := only [] (fixedDecls takersLowered) [] .start rfl _ (List.mem_cons_of_mem _ (List.mem_cons_of_mem _ List.mem_cons_self))
      _ (List.mem_cons_of_mem _ List.mem_cons_self) _ _ rfl rfl
    cases first

end Oscan.Codegen
