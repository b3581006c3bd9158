import Oscan.Preservation.Verified

/-! Accepted programs whose contexts agree lower without a panic to IR that verifies. -/
namespace Oscan
open Ast Semantic Semantic.Analyzer Lowering

/-- The program is lowered over the tables of `sa`. -/
structure Over (program : Ir.Program) (sa : Analyzer) : Prop where
  structs : program.structs = sa.structs
  enums : program.enums = sa.enums
  functions : program.functions = sa.functions

variable {program part : Ir.Program} {self : Analyzer}

theorem Over.declared (shared : Over program self) : program.declared = self.info.declared := by
  simp [Ir.Program.declared,SemanticInfo.declared,Analyzer.info,shared.structs,shared.enums]

theorem lowerDecls_over : ∀ {decls : List TopDecl} {part : Ir.Program},
    (declLowering self.info).lowerDecls decls = some part → Over part self
  | [],part,lowered => by
    simp only [lowerDecls,Option.some.injEq] at lowered
    exact lowered ▸ ⟨rfl,rfl,rfl⟩
  | .useDecl .. :: decls,part,lowered => by
    simp only [lowerDecls] at lowered
    exact lowerDecls_over lowered
  | .struct _ :: decls,part,lowered | .enum _ :: decls,part,lowered
  | .externBlock _ :: decls,part,lowered => by
    simp only [lowerDecls,bind_lowers,pure_lowers] at lowered
    obtain ⟨rest,loweredRest,rfl⟩ := lowered
    have shared := lowerDecls_over loweredRest
    exact ⟨shared.structs,shared.enums,shared.functions⟩
  | .letDecl _ :: decls,part,lowered | .fn _ :: decls,part,lowered => by
    simp only [lowerDecls,bind_lowers,pure_lowers] at lowered
    obtain ⟨_,-,rest,loweredRest,rfl⟩ := lowered
    have shared := lowerDecls_over loweredRest
    exact ⟨shared.structs,shared.enums,shared.functions⟩

/-- Every definition of `part` passes the checks of the verifier on `program`. -/
structure Clean (program part : Ir.Program) : Prop where
  fns : ∀ d ∈ part.fnDefs, Ir.verifyFn program d = []
  structs : ∀ d ∈ part.structDefs, Ir.verifyTypes program d.name (d.fields.map (·.2)) = []
  enums : ∀ d ∈ part.enumDefs, ∀ v ∈ d.variants, Ir.verifyTypes program d.name v.2 = []
  externs : ∀ b ∈ part.externBlocks, ∀ d ∈ b.decls, Ir.verifyExtern program d = []
  consts : ∀ d ∈ part.constDefs, Ir.verifyConst program d = []

theorem Clean.verify (clean : Clean program program) : Ir.verify program = [] := by
  simp only [Ir.verify,List.append_eq_nil_iff,List.flatMap_eq_nil_iff]
  exact ⟨⟨⟨⟨clean.fns,clean.structs⟩,clean.enums⟩,clean.externs⟩,clean.consts⟩

section
variable (shared : Over program self) (grounded : Grounded self.info.declared self) (fresh : Fresh self)
include shared

theorem verifyTypes_written {types : List Ty} (c : String)
    (written : ∀ ty ∈ types, ty.declared self.info.declared = true) :
    Ir.verifyTypes program c (types.map (declLowering self.info).resolveType) = [] := by
  rw [verifyTypes_nil,shared.declared]
  simp only [List.forall_mem_map]
  exact fun ty member => resolveType_defined (declLowering self.info) ty (written ty member)

theorem verifyType_returned {ret : Option Ty} (c : String)
    (written : ∀ ty ∈ ret.toList, ty.declared self.info.declared = true) :
    Ir.verifyType program c ((declLowering self.info).resolveReturn ret) = [] := by
  rw [verifyType_nil,shared.declared]
  cases ret with
  | none => rfl
  | some ty => exact resolveType_defined (declLowering self.info) ty (written ty (by simp))

theorem verifyParams_written {params : List Param} (c : String)
    (written : ∀ ty ∈ params.map (·.ty), ty.declared self.info.declared = true) :
    Ir.verifyTypes program c (((declLowering self.info).lowerParams params).map (·.2)) = [] := by
  simpa [lowerParams,Function.comp_def] using verifyTypes_written shared c written

include grounded fresh

theorem verifyFn_lowered {f : FnDecl} {log : List BcType} {d : Ir.FnDef}
    (accepted : self.checkFn f = .ok log) (arity : Callable program f.body.calledNames)
    (written : ∀ ty ∈ (TopDecl.fn f).types, ty.declared self.info.declared = true)
    (lowered : (declLowering self.info).lowerFn f = some d) (same : d.body.types = log) :
    Ir.verifyFn program d = [] := by
  obtain ⟨returnType,frames,bt,lw,resolved,bound,checked,rfl,inner,shape⟩ :=
    checkFn_lowers fresh accepted
  simp only [shape,bind_lowers,pure_lowers] at lowered
  obtain ⟨body,loweredBody,rfl⟩ := lowered
  simp only [TopDecl.types,List.forall_mem_append] at written
  have returnKnown := (grounded.resolveReturn resolved).2
  have entered : Grounded self.info.declared (self.bodyState f returnType self.scopes) :=
    {grounded with ret := fun ty found => Option.some.inj found ▸ returnKnown}
  have scopes := entered.bindParams (by simp [fresh.scopes]) bound
  have ready : Ready program 0 (self.bodyState f returnType frames) :=
    ⟨shared.declared ▸ {entered with scopes},shared.functions,fresh.depth⟩
  have return_ : Ir.verifyType program f.name returnType = [] := by
    rw [verifyType_nil,shared.declared,returnKnown]
  simp only [Ir.verifyFn,return_,verifyParams_written shared f.name written.1,List.nil_append]
  exact lowerBlock_verified f.name f.body inner ready (.some (shared.declared ▸ returnKnown)) checked
    arity loweredBody same

theorem verifyConst_lowered {l : LetDecl} {log : List BcType} {d : Ir.ConstDef}
    (accepted : self.checkConst l = .ok log) (arity : Callable program l.value.calledNames)
    (lowered : (declLowering self.info).lowerConst l = some d) (same : d.value.types = log) :
    Ir.verifyConst program d = [] := by
  have start := declLowering_matches fresh
  simp only [checkConst,bind_accepts,unless_accepts,pure_accepts] at accepted
  obtain ⟨expected,resolved,t,checked,-,rfl⟩ := accepted
  simp only [lowerConst,start.resolveType l.ty resolved,bind_lowers,pure_lowers] at lowered
  obtain ⟨value,loweredValue,rfl⟩ := lowered
  have framed : Matches (declLowering self.info) self.pushScope .empty :=
    ⟨start.info,by simpa [Analyzer.pushScope] using start.lookup,start.ret,start.array,start.result⟩
  have known := shared.declared ▸ (grounded.resolveType l.ty resolved).2
  have ready : Ready program 0 self := ⟨shared.declared ▸ grounded,shared.functions,fresh.depth⟩
  simp only [Ir.verifyConst,(verifyType_nil program l.name expected).mpr known,List.nil_append]
  exact lowerExpr_verified l.name l.value (framed.withExpected expected) ready.pushScope (.some known)
    checked arity loweredValue same

theorem lowerDecls_clean : ∀ {decls : List TopDecl} {log : TypeLog} {part : Ir.Program},
    self.checkDecls decls = .ok log → Callable program (decls.flatMap (·.calledNames)) →
    (∀ decl ∈ decls, ∀ ty ∈ decl.types, ty.declared self.info.declared = true) →
    (declLowering self.info).lowerDecls decls = some part → part.typeLog = log → Clean program part
  | [],log,part,accepted,arity,written,lowered,same => by
    simp only [lowerDecls,Option.some.injEq] at lowered
    subst lowered
    constructor <;> simp
  | .useDecl .. :: decls,log,part,accepted,arity,written,lowered,same => by
    simp only [checkDecls] at accepted
    simp only [lowerDecls] at lowered
    simp only [List.forall_mem_cons] at written
    exact lowerDecls_clean accepted arity written.2 lowered same
  | .struct s :: decls,log,part,accepted,arity,written,lowered,same => by
    simp only [checkDecls] at accepted
    simp only [lowerDecls,bind_lowers,pure_lowers] at lowered
    obtain ⟨rest,loweredRest,rfl⟩ := lowered
    simp only [List.forall_mem_cons] at written
    have clean := lowerDecls_clean accepted arity written.2 loweredRest same
    refine {clean with structs := List.forall_mem_cons.mpr ⟨?_,clean.structs⟩}
    simpa [lowerStruct,TopDecl.types,Function.comp_def] using verifyTypes_written shared s.name written.1
  | .enum e :: decls,log,part,accepted,arity,written,lowered,same => by
    simp only [checkDecls] at accepted
    simp only [lowerDecls,bind_lowers,pure_lowers] at lowered
    obtain ⟨rest,loweredRest,rfl⟩ := lowered
    simp only [List.forall_mem_cons] at written
    have clean := lowerDecls_clean accepted arity written.2 loweredRest same
    refine {clean with enums := List.forall_mem_cons.mpr ⟨?_,clean.enums⟩}
    simp only [lowerEnum,List.forall_mem_map]
    intro v member
    exact verifyTypes_written shared e.name fun ty inside =>
      written.1 ty (List.mem_flatMap.mpr ⟨v,member,inside⟩)
  | .externBlock eb :: decls,log,part,accepted,arity,written,lowered,same => by
    simp only [checkDecls] at accepted
    simp only [lowerDecls,bind_lowers,pure_lowers] at lowered
    obtain ⟨rest,loweredRest,rfl⟩ := lowered
    simp only [List.forall_mem_cons] at written
    have clean := lowerDecls_clean accepted arity written.2 loweredRest same
    refine {clean with externs := List.forall_mem_cons.mpr ⟨?_,clean.externs⟩}
    simp only [lowerExternBlock,List.forall_mem_map]
    intro ef member
    have own : ∀ ty ∈ ef.params.map (·.ty) ++ ef.returnType.toList,
        ty.declared self.info.declared = true := fun ty inside =>
      written.1 ty (List.mem_flatMap.mpr ⟨ef,member,inside⟩)
    rw [List.forall_mem_append] at own
    simp only [Ir.verifyExtern,verifyParams_written shared ef.name own.1,
      verifyType_returned shared ef.name own.2,List.append_nil]
  | .letDecl l :: decls,log,part,accepted,arity,written,lowered,same => by
    simp only [checkDecls,bind_accepts,pure_accepts] at accepted
    obtain ⟨own,checked,rest,checkedRest,rfl⟩ := accepted
    simp only [lowerDecls,bind_lowers,pure_lowers] at lowered
    obtain ⟨d,loweredConst,rest,loweredRest,rfl⟩ := lowered
    simp only [List.flatMap_cons,callable_append] at arity
    simp only [List.forall_mem_cons] at written
    simp only [Ir.Program.typeLog,List.map_cons,TypeLog.mk.injEq,List.cons.injEq] at same
    have clean := lowerDecls_clean checkedRest arity.2 written.2 loweredRest
      (by simp [Ir.Program.typeLog,same.1.2,same.2])
    have const := verifyConst_lowered shared grounded fresh checked arity.1 loweredConst same.1.1
    exact {clean with consts := List.forall_mem_cons.mpr ⟨const,clean.consts⟩}
  | .fn f :: decls,log,part,accepted,arity,written,lowered,same => by
    simp only [checkDecls,bind_accepts,pure_accepts] at accepted
    obtain ⟨own,checked,rest,checkedRest,rfl⟩ := accepted
    simp only [lowerDecls,bind_lowers,pure_lowers] at lowered
    obtain ⟨d,loweredFn,rest,loweredRest,rfl⟩ := lowered
    simp only [List.flatMap_cons,callable_append] at arity
    simp only [List.forall_mem_cons] at written
    simp only [Ir.Program.typeLog,List.map_cons,TypeLog.mk.injEq,List.cons.injEq] at same
    have clean := lowerDecls_clean checkedRest arity.2 written.2 loweredRest
      (by simp [Ir.Program.typeLog,same.1,same.2.2])
    have fn := verifyFn_lowered shared grounded fresh checked arity.1 written.1 loweredFn same.2.1
    exact {clean with fns := List.forall_mem_cons.mpr ⟨fn,clean.fns⟩}

end

/-- Types that lowering shares with the checker are all that the verifier asks for, but for
the number of arguments of `len`, `push` and `pop`. -/
theorem lowered_verifies {source : Ast.Program} {info : SemanticInfo} {log : TypeLog}
    (accepted : analyzeLog source = .ok (info,log)) (arity : aritiesAgree source = true)
    {ir : Ir.Program} (lowered : lowerProgram source info = some ir) (same : ir.typeLog = log) :
    Ir.verify ir = [] := by
  simp only [analyzeLog,bind_accepts,pure_accepts,Prod.mk.injEq] at accepted
  obtain ⟨sa,collected,log,checked,rfl,rfl⟩ := accepted
  obtain ⟨grounded,written⟩ := collect_grounded collected
  have shared : Over ir sa := lowerDecls_over lowered
  have callable : Callable ir (source.decls.flatMap (·.calledNames)) := by
    simp only [aritiesAgree,collected,whenTyped_ok,List.all_eq_true] at arity
    simpa only [Callable,shared.functions] using arity
  exact (lowerDecls_clean shared grounded (collect_fresh collected) checked callable written lowered
    same).verify

/-- An accepted program whose contexts agree lowers without a panic and verifies. -/
theorem lowers_and_verifies (source : Ast.Program) (info : SemanticInfo)
    (accepted : analyze source = .ok info) (contexts : contextsAgree source = true)
    (arity : aritiesAgree source = true) :
    ∃ ir, lowerProgram source info = some ir ∧ Ir.verify ir = [] := by
  simp only [analyze,bind_accepts,pure_accepts,Prod.exists] at accepted
  obtain ⟨_,log,logged,rfl⟩ := accepted
  obtain ⟨ir,lowered,same⟩ := (lowerProgram_exact logged).mp contexts
  exact ⟨ir,lowered,lowered_verifies logged arity lowered same⟩

private def nowhere : Span := ⟨0,0⟩

/-- `fn pick(c: bool, xs: [i32]) -> [i32] { if c { first } else { xs } }` -/
def pick (first : Ast.Expr) : Ast.Program :=
  let array : Ast.Ty := .dynamicArray (.primitive .i32 nowhere) nowhere
  let branch (e : Ast.Expr) : Ast.Block := .mk [] (some e) nowhere
  ⟨[.fn ⟨"pick",[⟨"c",.primitive .bool nowhere,nowhere⟩,⟨"xs",array,nowhere⟩],some array,
    branch (.ifExpr (.ident "c" nowhere) (branch first) (some (.block (branch (.ident "xs" nowhere))))
      nowhere),true,nowhere⟩]⟩

theorem lowers_and_verifies_pick : ∃ info, analyze (pick (.ident "xs" nowhere)) = .ok info ∧
    ∃ ir, lowerProgram (pick (.ident "xs" nowhere)) info = some ir ∧ Ir.verify ir = [] :=
  ⟨_,rfl,lowers_and_verifies (pick (.ident "xs" nowhere)) _ rfl (by decide) (by decide)⟩

/-- The empty literal becomes a `[unit]`, which has no join with `[i32]`. -/
theorem lowering_pick_panics : ∃ info, analyze (pick (.arrayLit [] nowhere)) = .ok info ∧
    lowerProgram (pick (.arrayLit [] nowhere)) info = none :=
  ⟨_,rfl,by decide⟩

end Oscan
