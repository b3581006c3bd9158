import Oscan.Preservation.Defined

/-! The checker settles on no type whose names are not declared. -/
namespace Oscan
open Ast Semantic Semantic.Analyzer

variable {names : Names} {self : Analyzer}

/-- A statement leaves the state alone, or it binds a name to a written type. -/
theorem checkStmt_next {stmt : Stmt} {next : Analyzer} {log : List BcType}
    (accepted : checkStmt self stmt = .ok (next,log)) :
    next = self ∨ ∃ name isMut ty expected span, self.resolveType ty = .ok expected ∧
      self.addBinding name expected isMut span = .ok next := by
  cases stmt with
  | letStmt name isMut ty value span =>
    obtain ⟨expected,vt,after,resolved,-,-,bound,⟨⟩⟩ := checkStmt_let accepted
    exact .inr ⟨name,isMut,ty,expected,span,resolved,bound⟩
  | assign target value span =>
    obtain ⟨name,accessors,placeSpan⟩ := target
    obtain ⟨_,_,_,_,-,-,-,-,⟨⟩⟩ := checkStmt_assign accepted
    exact .inl rfl
  | compoundAssign target op value span =>
    obtain ⟨name,accessors,placeSpan⟩ := target
    obtain ⟨_,_,_,_,_,-,-,-,-,⟨⟩⟩ := checkStmt_compoundAssign accepted
    exact .inl rfl
  | expr e span =>
    obtain ⟨_,-,⟨⟩⟩ := checkStmt_expr accepted
    exact .inl rfl
  | whileStmt condition body span =>
    obtain ⟨_,_,-,-,-,⟨⟩⟩ := checkStmt_while accepted
    exact .inl rfl
  | forStmt var start stop body span =>
    obtain ⟨_,_,_,_,-,-,-,-,-,-,⟨⟩⟩ := checkStmt_for accepted
    exact .inl rfl
  | forIn var iterable body span =>
    obtain ⟨_,_,_,_,-,-,-,-,⟨⟩⟩ := checkStmt_forIn accepted
    exact .inl rfl
  | returnStmt value span =>
    cases value with
    | none =>
      obtain ⟨-,⟨⟩⟩ := checkStmt_returnUnit accepted
      exact .inl rfl
    | some e =>
      obtain ⟨_,-,-,⟨⟩⟩ := checkStmt_return accepted
      exact .inl rfl
  | deferStmt e span =>
    obtain ⟨_,_,_,_,-,-,⟨⟩⟩ := checkStmt_defer accepted
    exact .inl rfl
  | breakStmt span =>
    obtain ⟨-,⟨⟩⟩ := checkStmt_break accepted
    exact .inl rfl
  | continueStmt span =>
    obtain ⟨-,⟨⟩⟩ := checkStmt_continue accepted
    exact .inl rfl

theorem checkStmt_grounded {stmt : Stmt} {next : Analyzer} {log : List BcType}
    (grounded : Grounded names self) (accepted : checkStmt self stmt = .ok (next,log)) :
    Grounded names next := by
  rcases checkStmt_next accepted with rfl | ⟨name,isMut,ty,expected,span,resolved,bound⟩
  · exact grounded
  · exact grounded.bind (grounded.resolveType ty resolved).2 bound

theorem checkStmts_grounded : ∀ {stmts : List Stmt} {self next : Analyzer} {log : List BcType},
    Grounded names self → checkStmts self stmts = .ok (next,log) → Grounded names next
  | [],self,next,log,grounded,accepted => by
    obtain ⟨⟩ := checkStmts_nil accepted
    exact grounded
  | stmt :: stmts,self,next,log,grounded,accepted => by
    obtain ⟨middle,_,last,_,head,tail,⟨⟩⟩ := checkStmts_cons accepted
    exact checkStmts_grounded (checkStmt_grounded grounded head) tail

/-- A collection call has a type made of that of its first argument. -/
private theorem collectionType_defined {intrinsic : CollectionIntrinsic} {ty : BcType}
    (known : ty.defined names = true) : (collectionType intrinsic ty).defined names = true := by
  have elem : ((arrayElementType ty).getD .unit).defined names = true := by
    cases found : arrayElementType ty with
    | none => rfl
    | some elem => rw [Option.getD_some,← BcType.defined_element found,known]
  cases op : intrinsic.op
  case map => cases target : intrinsic.target <;> simp [collectionType,op,target]
  all_goals simp [collectionType,op,known,elem]

private theorem matchType_defined {E : Option BcType} {types : List (BcType × Span)} {ty : BcType}
    (known : ∀ arm ∈ types, arm.1.defined names = true) (joined : matchType E types = .ok ty) :
    ty.defined names = true := by
  have join : ∀ (rest : List (BcType × Span)) (start : BcType),
      (∀ arm ∈ rest, arm.1.defined names = true) → start.defined names = true →
      joinArmTypes E start rest = .ok ty → ty.defined names = true := by
    intro rest
    induction rest with
    | nil =>
      intro start _ first joined
      simp only [joinArmTypes,pure_accepts] at joined
      exact joined ▸ first
    | cons arm rest ih =>
      intro start known first joined
      simp only [List.forall_mem_cons] at known
      simp only [joinArmTypes] at joined
      split at joined
      next => simp at joined
      next middle found => exact ih middle known.2 (BcType.defined_join found first known.1) joined
  cases types with
  | nil =>
    simp only [matchType,pure_accepts] at joined
    simp [← joined]
  | cons first rest =>
    simp only [List.forall_mem_cons] at known
    exact join rest first.1 known.2 known.1 joined

mutual
theorem checkExpr_defined : ∀ (e : Expr) {self : Analyzer} {E : Option BcType} {t : Typing},
    Grounded names self → (∀ ty, E = some ty → ty.defined names = true) →
    checkExpr self E e = .ok t → t.ty.defined names = true
  | .intLit ..,self,E,t,grounded,expected,accepted => by
    simp only [checkExpr,unless_accepts,pure_accepts] at accepted
    simp [← accepted.2,Typing.node]
  | .floatLit ..,self,E,t,grounded,expected,accepted
  | .stringLit ..,self,E,t,grounded,expected,accepted
  | .boolLit ..,self,E,t,grounded,expected,accepted => by
    simp only [checkExpr,pure_accepts] at accepted
    simp [← accepted,Typing.node]
  | .interpolatedString parts span,self,E,t,grounded,expected,accepted => by
    obtain ⟨_,_,_,-,rfl⟩ := checkExpr_interpolatedString accepted
    rfl
  | .ident name span,self,E,t,grounded,expected,accepted => by
    obtain ⟨ty,typed,rfl⟩ := checkExpr_ident accepted
    exact grounded.identType typed
  | .binaryOp op left right span,self,E,t,grounded,expected,accepted => by
    obtain ⟨lt,rt,ty,checkedLeft,-,typed,rfl⟩ := checkExpr_binaryOp accepted
    have known := checkExpr_defined left grounded (by simp) checkedLeft
    rw [← binaryOpType_lowers typed]
    cases op <;> simp [Lowering.binaryOpType,Typing.node,known]
  | .unaryOp op operand span,self,E,t,grounded,expected,accepted => by
    obtain ⟨ot,ty,checked,typed,rfl⟩ := checkExpr_unaryOp accepted
    have known := checkExpr_defined operand grounded (by simp) checked
    rw [← unaryOpType_lowers typed]
    cases op <;> simp [Lowering.unaryOpType,Typing.node,known]
  | .cast e ty span,self,E,t,grounded,expected,accepted => by
    obtain ⟨_,target,-,resolved,-,rfl⟩ := checkExpr_cast accepted
    exact (grounded.resolveType ty resolved).2
  | .call callee [] span,self,E,t,grounded,expected,accepted => by
    obtain ⟨name,_,rfl,checked⟩ := checkExpr_call accepted
    cases checked with
    | pointer free plain bound typed checked =>
      have pointer := grounded.lookupVar bound
      rw [typed] at pointer
      simp only [BcType.defined,Bool.and_eq_true] at pointer
      exact pointer.2
    | function free plain unbound known checked => exact (grounded.calledFunction known).2
  | .call callee (first :: rest) span,self,E,t,grounded,expected,accepted => by
    obtain ⟨name,_,rfl,checked⟩ := checkExpr_call accepted
    cases checked with
    | collection resolved head tail array =>
      refine collectionType_defined (checkExpr_defined first grounded ?_ head)
      intro ty same
      obtain ⟨source,-,rfl⟩ := Option.map_eq_some_iff.mp same
      simp
    | len => rfl
    | push => rfl
    | pop named target checked array =>
      have known := checkExpr_defined first grounded (by simp) checked
      rw [array] at known
      exact known
    | pointer free plain bound typed checked =>
      have pointer := grounded.lookupVar bound
      rw [typed] at pointer
      simp only [BcType.defined,Bool.and_eq_true] at pointer
      exact pointer.2
    | function free plain unbound known checked => exact (grounded.calledFunction known).2
  | .fieldAccess e field span,self,E,t,grounded,expected,accepted => by
    obtain ⟨_,_,-,typed,rfl⟩ := checkExpr_fieldAccess accepted
    exact grounded.fieldType typed
  | .index e index span,self,E,t,grounded,expected,accepted => by
    obtain ⟨et,_,ty,checked,-,-,typed,rfl⟩ := checkExpr_index accepted
    rcases typed with ⟨-,rfl⟩ | array
    · rfl
    · have known := checkExpr_defined e grounded (by simp) checked
      rwa [BcType.defined_element array] at known
  | .block b,self,E,t,grounded,expected,accepted => by
    obtain ⟨bt,checked,rfl⟩ := checkExpr_block accepted
    have known := checkBlock_defined b grounded expected checked
    exact known
  | .arena b span,self,E,t,grounded,expected,accepted => by
    obtain ⟨bt,checked,-,-,rfl⟩ := checkExpr_arena accepted
    have known := checkBlock_defined b grounded expected checked
    exact known
  | .ifExpr condition thenBlock none span,self,E,t,grounded,expected,accepted => by
    obtain ⟨_,_,-,-,-,-,rfl⟩ := checkExpr_ifThen accepted
    rfl
  | .ifExpr condition thenBlock (some elseExpr) span,self,E,t,grounded,expected,accepted => by
    obtain ⟨_,bt,et,ty,-,-,checkedThen,checkedElse,joined,rfl⟩ := checkExpr_ifElse accepted
    exact BcType.defined_join joined (checkBlock_defined thenBlock grounded expected checkedThen)
      (checkExpr_defined elseExpr grounded expected checkedElse)
  | .matchExpr scrutinee arms span,self,E,t,grounded,expected,accepted => by
    obtain ⟨st,types,seen,log,ty,checked,checkedArms,-,joined,rfl⟩ := checkExpr_matchExpr accepted
    have known := checkExpr_defined scrutinee grounded (by simp) checked
    exact matchType_defined (checkArms_defined arms grounded expected known checkedArms) joined
  | .tryExpr call span,self,E,t,grounded,expected,accepted => by
    obtain ⟨ct,ok,err,_,_,checked,typed,-,-,rfl⟩ := checkExpr_tryExpr accepted
    have known := checkExpr_defined call grounded (by simp) checked
    rw [typed] at known
    simp only [BcType.defined,Bool.and_eq_true] at known
    exact known.1
  | .arrayLit [] span,self,E,t,grounded,expected,accepted => by
    obtain ⟨elem,found,rfl⟩ := checkExpr_emptyArray accepted
    obtain ⟨ty,same,array⟩ := Option.bind_eq_some_iff.mp found
    simpa [Typing.node,BcType.defined_element array] using expected ty same
  | .arrayLit (first :: rest) span,self,E,t,grounded,expected,accepted => by
    obtain ⟨ft,log,checked,-,rfl⟩ := checkExpr_arrayLit accepted
    have known := checkExpr_defined first grounded (by simp) checked
    simp only [Typing.node,arrayLitType]
    split
    next => split <;> simpa using known
    next => simpa using known
  | .structLit name fields span,self,E,t,grounded,expected,accepted => by
    obtain ⟨info,_,_,known,-,-,rfl⟩ := checkExpr_structLit accepted
    exact grounded.knownStruct name (by simp [known])
  | .enumConstructor enumName variant args span,self,E,t,grounded,expected,accepted => by
    by_cases result : enumName = "Result"
    · subst result
      obtain ⟨_,ty,_,-,-,inferred,rfl⟩ := checkExpr_result accepted
      exact grounded.inferResultType expected inferred
    · obtain ⟨info,_,_,known,-,-,-,rfl⟩ := checkExpr_enumConstructor result accepted
      exact grounded.knownEnum enumName (by simp [known])
theorem checkArms_defined : ∀ (arms : List MatchArm) {self : Analyzer} {scrutTy : BcType}
    {span : Span} {E : Option BcType} {seen seen' : List String} {types : List (BcType × Span)}
    {log : List BcType}, Grounded names self → (∀ ty, E = some ty → ty.defined names = true) →
    scrutTy.defined names = true → checkArms self scrutTy span E seen arms = .ok (types,seen',log) →
    ∀ arm ∈ types, arm.1.defined names = true
  | [],self,scrutTy,span,E,seen,seen',types,log,grounded,expected,known,accepted => by
    simp only [checkArms,pure_accepts,Prod.mk.injEq] at accepted
    simp [← accepted.1]
  | .mk pattern body armSpan :: arms,self,scrutTy,span,E,seen,seen',types,log,grounded,expected,
      known,accepted => by
    obtain ⟨_,inner,bt,_,_,_,-,bound,checked,checkedRest,⟨⟩⟩ := checkArms_cons accepted
    have innerGrounded := grounded.pushScope.bindPatternVars known bound
    exact List.forall_mem_cons.mpr ⟨checkExpr_defined body innerGrounded expected checked,
      checkArms_defined arms grounded expected known checkedRest⟩
theorem checkBlock_defined : ∀ (b : Block) {self : Analyzer} {E : Option BcType} {t : Typing},
    Grounded names self → (∀ ty, E = some ty → ty.defined names = true) →
    checkBlock self b E = .ok t → t.ty.defined names = true
  | .mk stmts none span,self,E,t,grounded,expected,accepted => by
    obtain ⟨_,_,_,-,checked,rfl⟩ := checkBlock_shape accepted
    simp [checkTail_none checked]
  | .mk stmts (some e) span,self,E,t,grounded,expected,accepted => by
    obtain ⟨inner,_,_,checkedStmts,checked,rfl⟩ := checkBlock_shape accepted
    have innerGrounded := checkStmts_grounded grounded.pushScope checkedStmts
    have known := checkExpr_defined e innerGrounded expected (checkTail_some checked)
    exact known
end

end Oscan
