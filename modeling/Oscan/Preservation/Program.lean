import Oscan.Preservation.Agreement

/-! Type preservation for whole programs: the types that the checker settles are the types
that lowering caches exactly when the two contexts agree. -/
namespace Oscan
open Ast Semantic Semantic.Analyzer Lowering

namespace Semantic.Analyzer

/-- What the first pass leaves alone. -/
structure Fresh (sa : Analyzer) : Prop where
  scopes : sa.scopes = []
  ret : sa.currentFnReturnType = none
  depth : sa.loopDepth = 0

theorem collectExterns_fresh : ∀ {decls : List ExternFnDecl} {sa next : Analyzer},
    collectExterns sa decls = .ok next → Fresh sa → Fresh next
  | [],sa,next,accepted,fresh => by
    simp only [collectExterns,pure_accepts] at accepted
    exact accepted ▸ fresh
  | ef :: decls,sa,next,accepted,fresh => by
    simp only [collectExterns,bind_accepts,unless_accepts] at accepted
    obtain ⟨-,-,params,-,returnType,-,-,rest⟩ := accepted
    exact collectExterns_fresh rest ⟨fresh.scopes,fresh.ret,fresh.depth⟩

theorem collectDecl_fresh {sa next : Analyzer} (fresh : Fresh sa) (decl : TopDecl)
    (accepted : sa.collectDecl decl = .ok next) : Fresh next := by
  cases decl with
  | externBlock eb => exact collectExterns_fresh accepted fresh
  | useDecl =>
    simp only [collectDecl,pure_accepts] at accepted
    exact accepted ▸ fresh
  | struct s =>
    simp only [collectDecl,bind_accepts,unless_accepts,pure_accepts] at accepted
    obtain ⟨_,-,-,rfl⟩ := accepted
    exact ⟨fresh.scopes,fresh.ret,fresh.depth⟩
  | enum e =>
    simp only [collectDecl,bind_accepts,unless_accepts,pure_accepts] at accepted
    obtain ⟨_,-,-,rfl⟩ := accepted
    exact ⟨fresh.scopes,fresh.ret,fresh.depth⟩
  | fn f =>
    simp only [collectDecl,bind_accepts,unless_accepts,pure_accepts] at accepted
    obtain ⟨_,-,_,-,_,-,-,rfl⟩ := accepted
    exact ⟨fresh.scopes,fresh.ret,fresh.depth⟩
  | letDecl l =>
    simp only [collectDecl,bind_accepts,unless_accepts,pure_accepts] at accepted
    obtain ⟨_,-,_,-,-,rfl⟩ := accepted
    exact ⟨fresh.scopes,fresh.ret,fresh.depth⟩

theorem collectDecls_fresh : ∀ {decls : List TopDecl} {sa next : Analyzer}, Fresh sa →
    collectDecls sa decls = .ok next → Fresh next
  | [],sa,next,fresh,accepted => by
    simp only [collectDecls,pure_accepts] at accepted
    exact accepted ▸ fresh
  | decl :: decls,sa,next,fresh,accepted => by
    simp only [collectDecls,bind_accepts] at accepted
    obtain ⟨middle,head,tail⟩ := accepted
    exact collectDecls_fresh (collectDecl_fresh fresh decl head) tail

theorem collect_fresh {program : Program} {sa : Analyzer} (accepted : collect program = .ok sa) :
    Fresh sa :=
  collectDecls_fresh ⟨rfl,rfl,rfl⟩ accepted

end Semantic.Analyzer

variable {lw : Lowering} {self : Analyzer} {ctx : Context}

theorem Matches.resolveReturn (same : Matches lw self ctx) {ty : Option Ty} {resolved : BcType}
    (accepted : self.resolveReturn ty = .ok resolved) : lw.resolveReturn ty = resolved := by
  cases ty with
  | none => simpa [Analyzer.resolveReturn,Lowering.resolveReturn] using accepted
  | some ty => exact same.resolveType ty accepted

theorem bindParams_matches {base : Lowering} : ∀ {params : List Param} {lw : Lowering}
    {frames done : List (Scope BindingInfo)}, self.bindParams frames params = .ok done →
    base.info = self.info → FramedMatch lw {self with scopes := frames} ctx →
    ∃ lw', lw.bindParams (base.lowerParams params) = some lw' ∧
      FramedMatch lw' {self with scopes := done} ctx
  | [],lw,frames,done,accepted,tables,same => by
    simp only [Analyzer.bindParams,pure_accepts] at accepted
    exact ⟨lw,rfl,accepted ▸ same⟩
  | p :: params,lw,frames,done,accepted,tables,same => by
    simp only [Analyzer.bindParams,bind_accepts,unless_accepts] at accepted
    obtain ⟨-,-,ty,resolved,-,rest⟩ := accepted
    have framed := same.lowFramed
    have next : FramedMatch {lw with scopes := insertBinding p.name ty lw.scopes}
        {self with scopes := insertBinding p.name ⟨ty,false⟩ frames} ctx := by
      refine ⟨⟨same.info,?_,same.ret,same.array,same.result⟩,insertBinding_framed framed _ _,
        insertBinding_framed same.framed _ _⟩
      intro other
      simp only [lookupScopes_insert framed,lookupScopes_insert same.framed]
      split
      · rfl
      · exact same.lookup other
    obtain ⟨lw',lowRest,last⟩ := bindParams_matches rest tables next
    refine ⟨lw',?_,last⟩
    have bound : lw.bindName p.name ty = some {lw with scopes := insertBinding p.name ty lw.scopes} := by
      unfold bindName
      split
      next empty => exact absurd empty framed
      next => rfl
    simp only [lowerParams,List.map_cons,resolveType_lowers tables p.ty resolved,Lowering.bindParams,bound]
    exact lowRest

/-- The state in which lowering takes up every declaration. -/
def declLowering (info : SemanticInfo) : Lowering := ⟨info,[],none,none,none⟩

theorem declLowering_matches (fresh : Fresh self) :
    Matches (declLowering self.info) self .empty where
  info := rfl
  lookup := by simp [declLowering,fresh.scopes,lookupScopes]
  ret := fresh.ret.symm
  array := rfl
  result := rfl

/-- The state in which the body of a function is checked. -/
def Semantic.Analyzer.bodyState (self : Analyzer) (f : FnDecl) (returnType : BcType)
    (scopes : List (Scope BindingInfo)) : Analyzer :=
  {self with currentFnReturnType := some returnType,inPureFn := f.isPure,scopes}

/-- Both sides reach the body of an accepted function in matching states. -/
theorem checkFn_lowers {f : FnDecl} {log : List BcType} (fresh : Fresh self)
    (accepted : self.checkFn f = .ok log) :
    ∃ returnType frames bt lw, self.resolveReturn f.returnType = .ok returnType ∧
      (self.bodyState f returnType self.scopes).bindParams ([] :: self.scopes) f.params =
        .ok frames ∧
      checkBlock (self.bodyState f returnType frames) f.body (some returnType) = .ok bt ∧
      log = bt.log ∧ FramedMatch lw (self.bodyState f returnType frames).pushScope .empty ∧
      (declLowering self.info).lowerFn f = (do
        return ⟨f.name,(declLowering self.info).lowerParams f.params,returnType,
          ← lowerBlock lw f.body,f.isPure,f.span⟩) := by
  have start := declLowering_matches fresh
  simp only [checkFn,bind_accepts,unless_accepts,pure_accepts] at accepted
  obtain ⟨returnType,resolved,frames,bound,bt,checked,-,rfl⟩ := accepted
  have entered : FramedMatch
      (Lowering.pushScope {declLowering self.info with currentFnReturnType := some returnType})
      {self with
        currentFnReturnType := some returnType,inPureFn := f.isPure,scopes := [] :: self.scopes}
      .empty :=
    ⟨⟨rfl,by simp [Lowering.pushScope,declLowering,fresh.scopes,lookupScopes],rfl,rfl,rfl⟩,
      by simp [Lowering.pushScope],by simp⟩
  obtain ⟨lw,lowParams,body⟩ := bindParams_matches bound
    (rfl : (declLowering self.info).info = _) entered
  have inner : FramedMatch lw (self.bodyState f returnType frames).pushScope .empty :=
    ⟨⟨body.info,by simpa [Analyzer.pushScope,bodyState] using body.lookup,body.ret,body.array,
      body.result⟩,body.lowFramed,by simp [Analyzer.pushScope]⟩
  exact ⟨returnType,frames,bt,lw,resolved,bound,checked,rfl,inner,
    by simp only [lowerFn,start.resolveReturn resolved,lowParams,Option.bind_eq_bind,Option.bind_some]⟩

theorem lowerFn_exact {f : FnDecl} {log : List BcType} (fresh : Fresh self)
    (accepted : self.checkFn f = .ok log) :
    self.agreeFn f = true ↔
      Exact (fun d => d.body.types) ((declLowering self.info).lowerFn f) log := by
  obtain ⟨returnType,frames,bt,lw,resolved,bound,checked,rfl,inner,lowered⟩ :=
    checkFn_lowers fresh accepted
  have agree : self.agreeFn f =
      agreeBlock (self.bodyState f returnType frames) (some returnType) .empty f.body := by
    simp only [agreeFn,resolved,whenTyped_ok]
    exact congrArg (whenTyped · _) bound
  rw [agree,lowered,lowerBlock_exact f.body inner checked]
  exact exact_map (fun _ => rfl)

theorem lowerConst_exact {l : LetDecl} {log : List BcType} (fresh : Fresh self)
    (accepted : self.checkConst l = .ok log) :
    self.agreeConst l = true ↔
      Exact (fun d => d.value.types) ((declLowering self.info).lowerConst l) log := by
  have start := declLowering_matches fresh
  simp only [checkConst,bind_accepts,unless_accepts,pure_accepts] at accepted
  obtain ⟨expected,resolved,t,checked,-,rfl⟩ := accepted
  have framed : Matches (declLowering self.info) self.pushScope .empty :=
    ⟨start.info,by simpa [Analyzer.pushScope] using start.lookup,start.ret,start.array,start.result⟩
  simp only [agreeConst,resolved,whenTyped_ok,lowerExpr_exact l.value (framed.withExpected expected)
    checked,lowerConst,start.resolveType l.ty resolved]
  exact exact_map (fun _ => rfl)

theorem lowerDecls_exact (fresh : Fresh self) : ∀ {decls : List TopDecl} {log : TypeLog},
    self.checkDecls decls = .ok log →
    (decls.all self.agreeDecl = true ↔
      ∃ ir, (declLowering self.info).lowerDecls decls = some ir ∧ ir.typeLog = log)
  | [],log,accepted => by
    simp only [checkDecls,pure_accepts] at accepted
    simp [← accepted,lowerDecls,Ir.Program.typeLog]
  | .useDecl .. :: decls,log,accepted => by
    simp only [checkDecls] at accepted
    simp only [List.all_cons,agreeDecl,Bool.true_and,lowerDecls_exact fresh accepted,lowerDecls]
  | .struct _ :: decls,log,accepted
  | .enum _ :: decls,log,accepted
  | .externBlock _ :: decls,log,accepted => by
    simp only [checkDecls] at accepted
    simp only [List.all_cons,agreeDecl,Bool.true_and,lowerDecls_exact fresh accepted,lowerDecls,
      bind_lowers,pure_lowers]
    constructor
    · rintro ⟨ir,lowRest,same⟩
      exact ⟨_,⟨ir,lowRest,rfl⟩,same⟩
    · rintro ⟨_,⟨ir,lowRest,rfl⟩,same⟩
      exact ⟨ir,lowRest,same⟩
  | .letDecl l :: decls,log,accepted => by
    simp only [checkDecls,bind_accepts,pure_accepts] at accepted
    obtain ⟨own,checked,rest,checkedRest,rfl⟩ := accepted
    simp only [List.all_cons,agreeDecl,Bool.and_eq_true,lowerConst_exact fresh checked,
      lowerDecls_exact fresh checkedRest,lowerDecls,bind_lowers,pure_lowers]
    constructor
    · rintro ⟨⟨d,lowConst,sameConst⟩,ir,lowRest,rfl⟩
      exact ⟨_,⟨d,lowConst,ir,lowRest,rfl⟩,by simp [Ir.Program.typeLog,← sameConst]⟩
    · rintro ⟨_,⟨d,lowConst,ir,lowRest,rfl⟩,same⟩
      simp only [Ir.Program.typeLog,List.map_cons,TypeLog.mk.injEq,List.cons.injEq] at same
      exact ⟨⟨d,lowConst,same.1.1⟩,ir,lowRest,by simp [Ir.Program.typeLog,same.1.2,same.2]⟩
  | .fn f :: decls,log,accepted => by
    simp only [checkDecls,bind_accepts,pure_accepts] at accepted
    obtain ⟨own,checked,rest,checkedRest,rfl⟩ := accepted
    simp only [List.all_cons,agreeDecl,Bool.and_eq_true,lowerFn_exact fresh checked,
      lowerDecls_exact fresh checkedRest,lowerDecls,bind_lowers,pure_lowers]
    constructor
    · rintro ⟨⟨d,lowFn,sameFn⟩,ir,lowRest,rfl⟩
      exact ⟨_,⟨d,lowFn,ir,lowRest,rfl⟩,by simp [Ir.Program.typeLog,← sameFn]⟩
    · rintro ⟨_,⟨d,lowFn,ir,lowRest,rfl⟩,same⟩
      simp only [Ir.Program.typeLog,List.map_cons,TypeLog.mk.injEq,List.cons.injEq] at same
      exact ⟨⟨d,lowFn,same.2.1⟩,ir,lowRest,by simp [Ir.Program.typeLog,same.1,same.2.2]⟩

theorem lowerProgram_exact {program : Program} {info : SemanticInfo} {log : TypeLog}
    (accepted : analyzeLog program = .ok (info,log)) :
    contextsAgree program = true ↔ ∃ ir, lowerProgram program info = some ir ∧ ir.typeLog = log := by
  simp only [analyzeLog,bind_accepts,pure_accepts,Prod.mk.injEq] at accepted
  obtain ⟨sa,collected,log,checked,rfl,rfl⟩ := accepted
  simp only [contextsAgree,collected,whenTyped_ok]
  exact lowerDecls_exact (collect_fresh collected) checked

end Oscan
