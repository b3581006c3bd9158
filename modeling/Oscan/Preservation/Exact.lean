import Oscan.Preservation.Matches

/-! Under agreeing contexts, and only then, lowering caches the types of the checker. -/
namespace Oscan
open Ast Semantic Semantic.Analyzer Lowering

/-- The lowering succeeds and caches exactly the types in `log`. -/
def Exact {α : Type} (types : α → List BcType) (lowered : Lower α) (log : List BcType) : Prop :=
  ∃ a, lowered = some a ∧ types a = log

section
variable {α β γ δ : Type} {ta : α → List BcType} {tb : β → List BcType} {tc : γ → List BcType}
  {td : δ → List BcType} {ra : Lower α} {la lb lc : List BcType} {P : Prop}

/-- One part under a constructor with no type of its own. -/
theorem exact_map {g : α → δ} (shape : ∀ a, td (g a) = ta a) :
    Exact ta ra la ↔ Exact td (ra >>= fun a => pure (g a)) la := by
  constructor
  · rintro ⟨a,first,same⟩
    exact ⟨g a,by simp [first],by rw [shape,same]⟩
  · rintro ⟨d,lowered,same⟩
    simp only [bind_lowers,pure_lowers] at lowered
    obtain ⟨a,first,rfl⟩ := lowered
    exact ⟨a,first,by rw [← shape,same]⟩

/-- Two parts one after the other, the second perhaps depending on the first. -/
theorem exact_seq {rb : α → Lower β} {rb' : Lower β}
    (size : ∀ a, ra = some a → (ta a).length = la.length)
    (next : ∀ a, ra = some a → ta a = la → rb a = rb') {td : δ → List BcType} {g : α → β → δ}
    (shape : ∀ a b, td (g a b) = ta a ++ tb b) :
    Exact ta ra la ∧ Exact tb rb' lb ↔
      Exact td (ra >>= fun a => rb a >>= fun b => pure (g a b)) (la ++ lb) := by
  constructor
  · rintro ⟨⟨a,first,sameA⟩,b,second,sameB⟩
    refine ⟨g a b,?_,by rw [shape,sameA,sameB]⟩
    simp only [bind_lowers,pure_lowers]
    exact ⟨a,first,b,(next a first sameA).symm ▸ second,rfl⟩
  · rintro ⟨d,lowered,same⟩
    simp only [bind_lowers,pure_lowers] at lowered
    obtain ⟨a,first,b,second,rfl⟩ := lowered
    rw [shape] at same
    obtain ⟨sameA,sameB⟩ := List.append_inj same (size a first)
    exact ⟨⟨a,first,sameA⟩,b,next a first sameA ▸ second,sameB⟩

theorem exact_seq3 {rb : Lower β} {rc : Lower γ} {g : α → β → γ → δ}
    (sizeA : ∀ a, ra = some a → (ta a).length = la.length)
    (sizeB : ∀ b, rb = some b → (tb b).length = lb.length)
    (shape : ∀ a b c, td (g a b c) = ta a ++ tb b ++ tc c) :
    Exact ta ra la ∧ Exact tb rb lb ∧ Exact tc rc lc ↔
      Exact td (ra >>= fun a => rb >>= fun b => rc >>= fun c => pure (g a b c))
        (la ++ lb ++ lc) := by
  constructor
  · rintro ⟨⟨a,first,sameA⟩,⟨b,second,sameB⟩,c,third,sameC⟩
    exact ⟨g a b c,by simp [first,second,third],by rw [shape,sameA,sameB,sameC]⟩
  · rintro ⟨d,lowered,same⟩
    simp only [bind_lowers,pure_lowers] at lowered
    obtain ⟨a,first,b,second,c,third,rfl⟩ := lowered
    rw [shape,List.append_assoc,List.append_assoc] at same
    obtain ⟨sameA,same⟩ := List.append_inj same (sizeA a first)
    obtain ⟨sameB,sameC⟩ := List.append_inj same (sizeB b second)
    exact ⟨⟨a,first,sameA⟩,⟨b,second,sameB⟩,c,third,sameC⟩

/-- One part, then the type of the node itself. -/
theorem exact_node {g : α → δ} {ty : α → BcType} {T : BcType}
    (shape : ∀ a, td (g a) = ta a ++ [ty a])
    (settled : ∀ a, ra = some a → ta a = la → (ty a = T ↔ P)) :
    Exact ta ra la ∧ P ↔ Exact td (ra >>= fun a => pure (g a)) (la ++ [T]) := by
  constructor
  · rintro ⟨⟨a,first,sameA⟩,p⟩
    refine ⟨g a,by simp [first],?_⟩
    rw [shape,sameA,(settled a first sameA).mpr p]
  · rintro ⟨d,lowered,same⟩
    simp only [bind_lowers,pure_lowers] at lowered
    obtain ⟨a,first,rfl⟩ := lowered
    rw [shape] at same
    obtain ⟨sameA,sameT⟩ := List.append_inj' same rfl
    exact ⟨⟨a,first,sameA⟩,(settled a first sameA).mp (by simpa using sameT)⟩

/-- Two parts, then the type of the node, which may depend on both. -/
theorem exact_node2 {rb : α → Lower β} {rb' : Lower β} {g : α → β → δ} {ty : α → β → BcType}
    {T : BcType} (size : ∀ a, ra = some a → (ta a).length = la.length)
    (next : ∀ a, ra = some a → ta a = la → rb a = rb')
    (shape : ∀ a b, td (g a b) = ta a ++ tb b ++ [ty a b])
    (settled : ∀ a b, ra = some a → ta a = la → rb' = some b → tb b = lb → (ty a b = T ↔ P)) :
    Exact ta ra la ∧ Exact tb rb' lb ∧ P ↔
      Exact td (ra >>= fun a => rb a >>= fun b => pure (g a b)) (la ++ lb ++ [T]) := by
  constructor
  · rintro ⟨⟨a,first,sameA⟩,⟨b,second,sameB⟩,p⟩
    refine ⟨g a b,?_,?_⟩
    · simp only [bind_lowers,pure_lowers]
      exact ⟨a,first,b,(next a first sameA).symm ▸ second,rfl⟩
    · rw [shape,sameA,sameB,(settled a b first sameA second sameB).mpr p]
  · rintro ⟨d,lowered,same⟩
    simp only [bind_lowers,pure_lowers] at lowered
    obtain ⟨a,first,b,second,rfl⟩ := lowered
    rw [shape] at same
    obtain ⟨same,sameT⟩ := List.append_inj' same rfl
    obtain ⟨sameA,sameB⟩ := List.append_inj same (size a first)
    have second' := next a first sameA ▸ second
    exact ⟨⟨a,first,sameA⟩,⟨b,second',sameB⟩,
      (settled a b first sameA second' sameB).mp (by simpa using sameT)⟩

/-- The type of the node follows from the parts. -/
theorem exact_typed {g : α → δ} {ty : α → BcType} {T : BcType}
    (shape : ∀ a, td (g a) = ta a ++ [ty a]) (settled : ∀ a, ra = some a → ta a = la → ty a = T) :
    Exact ta ra la ↔ Exact td (ra >>= fun a => pure (g a)) (la ++ [T]) := by
  simpa using exact_node shape fun a first same => iff_true_intro (settled a first same)

theorem exact_typed2 {rb : α → Lower β} {rb' : Lower β} {g : α → β → δ} {ty : α → β → BcType}
    {T : BcType} (size : ∀ a, ra = some a → (ta a).length = la.length)
    (next : ∀ a, ra = some a → ta a = la → rb a = rb')
    (shape : ∀ a b, td (g a b) = ta a ++ tb b ++ [ty a b])
    (settled : ∀ a b, ra = some a → ta a = la → rb' = some b → tb b = lb → ty a b = T) :
    Exact ta ra la ∧ Exact tb rb' lb ↔
      Exact td (ra >>= fun a => rb a >>= fun b => pure (g a b)) (la ++ lb ++ [T]) := by
  simpa using exact_node2 size next shape fun a b first sameA second sameB =>
    iff_true_intro (settled a b first sameA second sameB)

end

theorem Ir.Expr.types_last (e : Ir.Expr) : ∃ inner, e.types = inner ++ [e.ty] := by
  cases e with
  | intLit | floatLit | stringLit | boolLit | ident => exact ⟨[],rfl⟩
  | _ => exact ⟨_,rfl⟩

variable {self : Analyzer} {E : Option BcType} {t : Typing} {lw : Lowering} {ctx : Context}

theorem CallChecked.last {name : String} {args : List Expr} (checked : CallChecked self name args t) :
    ∃ inner, t = .node t.ty inner := by
  obtain ⟨_,log,ty,-,rfl⟩ := checked.args
  exact ⟨log,rfl⟩

theorem checkExpr_last {e : Expr} (accepted : checkExpr self E e = .ok t) :
    ∃ inner, t = .node t.ty inner := by
  cases e with
  | intLit =>
    simp only [checkExpr,unless_accepts,pure_accepts] at accepted
    exact ⟨[],by rw [← accepted.2]; rfl⟩
  | floatLit | stringLit | boolLit =>
    simp only [checkExpr,pure_accepts] at accepted
    exact ⟨[],by rw [← accepted]; rfl⟩
  | interpolatedString =>
    obtain ⟨_,_,_,-,rfl⟩ := checkExpr_interpolatedString accepted
    exact ⟨_,rfl⟩
  | ident =>
    obtain ⟨_,-,rfl⟩ := checkExpr_ident accepted
    exact ⟨_,rfl⟩
  | binaryOp =>
    obtain ⟨_,_,_,-,-,-,rfl⟩ := checkExpr_binaryOp accepted
    exact ⟨_,rfl⟩
  | unaryOp =>
    obtain ⟨_,_,-,-,rfl⟩ := checkExpr_unaryOp accepted
    exact ⟨_,rfl⟩
  | cast =>
    obtain ⟨_,_,-,-,-,rfl⟩ := checkExpr_cast accepted
    exact ⟨_,rfl⟩
  | call =>
    obtain ⟨_,_,-,checked⟩ := checkExpr_call accepted
    exact CallChecked.last checked
  | fieldAccess =>
    obtain ⟨_,_,-,-,rfl⟩ := checkExpr_fieldAccess accepted
    exact ⟨_,rfl⟩
  | index =>
    obtain ⟨_,_,_,-,-,-,-,rfl⟩ := checkExpr_index accepted
    exact ⟨_,rfl⟩
  | block =>
    obtain ⟨_,-,rfl⟩ := checkExpr_block accepted
    exact ⟨_,rfl⟩
  | arena =>
    obtain ⟨_,-,-,-,rfl⟩ := checkExpr_arena accepted
    exact ⟨_,rfl⟩
  | ifExpr condition thenBlock elseBranch =>
    cases elseBranch with
    | none =>
      obtain ⟨_,_,-,-,-,-,rfl⟩ := checkExpr_ifThen accepted
      exact ⟨_,rfl⟩
    | some =>
      obtain ⟨_,_,_,_,-,-,-,-,-,rfl⟩ := checkExpr_ifElse accepted
      exact ⟨_,rfl⟩
  | matchExpr =>
    obtain ⟨_,_,_,_,_,-,-,-,-,rfl⟩ := checkExpr_matchExpr accepted
    exact ⟨_,rfl⟩
  | tryExpr =>
    obtain ⟨_,_,_,_,_,-,-,-,-,rfl⟩ := checkExpr_tryExpr accepted
    exact ⟨_,rfl⟩
  | arrayLit elements =>
    cases elements with
    | nil =>
      obtain ⟨_,-,rfl⟩ := checkExpr_emptyArray accepted
      exact ⟨_,rfl⟩
    | cons =>
      obtain ⟨_,_,-,-,rfl⟩ := checkExpr_arrayLit accepted
      exact ⟨_,rfl⟩
  | structLit =>
    obtain ⟨_,_,_,-,-,-,rfl⟩ := checkExpr_structLit accepted
    exact ⟨_,rfl⟩
  | enumConstructor enumName =>
    by_cases result : enumName = "Result"
    · subst result
      obtain ⟨_,_,_,-,-,-,rfl⟩ := checkExpr_result accepted
      exact ⟨_,rfl⟩
    · obtain ⟨_,_,_,-,-,-,-,rfl⟩ := checkExpr_enumConstructor result accepted
      exact ⟨_,rfl⟩

/-- The last type of an expression is its own, so equal logs give equal types. -/
theorem ty_of_types {e : Expr} {ir : Ir.Expr} (accepted : checkExpr self E e = .ok t)
    (same : ir.types = t.log) : ir.ty = t.ty := by
  obtain ⟨inner,last⟩ := checkExpr_last accepted
  obtain ⟨lowInner,lowLast⟩ := ir.types_last
  rw [lowLast,last] at same
  have tail := (List.append_inj' same rfl).2
  simpa using tail

theorem ty_of_blockTypes {b : Block} {ir : Ir.Block} (accepted : checkBlock self b E = .ok t)
    (lowered : lowerBlock lw b = some ir) (same : ir.types = t.log) : ir.ty = t.ty := by
  obtain ⟨stmts,tail,span⟩ := b
  obtain ⟨inner,log,tt,checkedStmts,checkedTail,rfl⟩ := checkBlock_shape accepted
  simp only [lowerBlock,bind_lowers,pure_lowers,Prod.exists] at lowered
  obtain ⟨last,irs,loweredStmts,tailIr,loweredTail,rfl⟩ := lowered
  simp only [Ir.Block.types] at same
  replace same := (List.append_inj same (lowerStmts_size stmts checkedStmts loweredStmts)).2
  cases tail with
  | none =>
    simp only [lowerTail,Option.some.injEq] at loweredTail
    simp [checkTail_none checkedTail,← loweredTail,Ir.Block.ty,Ir.tailTy]
  | some e =>
    simp only [lowerTail,bind_lowers,pure_lowers] at loweredTail
    obtain ⟨ir,-,rfl⟩ := loweredTail
    simpa [Ir.Block.ty,Ir.tailTy] using ty_of_types (checkTail_some checkedTail) same

theorem armTypes_of_types : ∀ (arms : List MatchArm) {self : Analyzer} {scrutTy lowTy : BcType}
    {span : Span} {E : Option BcType} {seen : List String}
    {result : List (BcType × Span) × List String × List BcType} {lw : Lowering}
    {irs : List Ir.MatchArm}, checkArms self scrutTy span E seen arms = .ok result →
    lowerArms lw lowTy arms = some irs → Ir.armsTypes irs = result.2.2 →
    irs.map (fun arm => arm.body.ty) = result.1.map (·.1)
  | [],self,scrutTy,lowTy,span,E,seen,result,lw,irs,accepted,lowered,same => by
    simp only [checkArms,pure_accepts] at accepted
    simp only [lowerArms,Option.some.injEq] at lowered
    simp [← accepted,← lowered]
  | .mk pattern body armSpan :: arms,self,scrutTy,lowTy,span,E,seen,result,lw,irs,accepted,lowered,
      same => by
    obtain ⟨_,inner,bt,types,_,log,-,-,checked,checkedRest,rfl⟩ := checkArms_cons accepted
    simp only [lowerArms,bind_lowers,pure_lowers] at lowered
    obtain ⟨_,-,ir,loweredBody,irs,loweredRest,rfl⟩ := lowered
    simp only [Ir.armsTypes] at same
    obtain ⟨sameBody,sameRest⟩ := List.append_inj same (lowerExpr_size body checked loweredBody)
    have rest := armTypes_of_types arms checkedRest loweredRest sameRest
    rw [List.map_cons,rest,Ir.MatchArm.body,ty_of_types checked sameBody,List.map_cons]

/-- Both sides join the arm types in the same order, and the expected type does not matter. -/
theorem matchType_lowers {types : List (BcType × Span)} {ty : BcType}
    (accepted : Analyzer.matchType E types = .ok ty) :
    Lowering.matchType (types.map (·.1)) = some ty := by
  have join : ∀ (rest : List (BcType × Span)) (start : BcType),
      joinArmTypes E start rest = .ok ty → joinArms start (rest.map (·.1)) = some ty := by
    intro rest
    induction rest with
    | nil => intro start accepted; simpa [joinArmTypes,joinArms] using accepted
    | cons arm rest ih =>
      intro start accepted
      simp only [joinArmTypes,BcType.compatibleJoin_expected] at accepted
      split at accepted
      next => simp at accepted
      next joined found => simp [joinArms,found,ih joined accepted]
  cases types with
  | nil => simpa [Analyzer.matchType,Lowering.matchType] using accepted
  | cons first rest => exact join rest first.1 accepted

/-- What the contexts decide at a call of anything but a collection intrinsic. -/
theorem callChecked_named {name : String} {args : List Expr} (same : Matches lw self ctx)
    (free : CollectionIntrinsic.resolveWithAlias name = none)
    (checked : CallChecked self name args t) :
    ∃ log, ArgsChecked self (self.expectedArgs name args) args log ∧ t = .node t.ty log ∧
      (self.callTypeAgrees name args = true ↔ lw.namedCallType name = t.ty) := by
  have returned : lw.namedCallType name = if name = "len" then .i32 else
      if name = "push" then .unit else (self.lowering .empty).namedReturnType name := by
    simp [namedCallType,same.namedReturnType]
  have plainName (plain : isSpecialCall name = false) :
      name ≠ "len" ∧ name ≠ "push" ∧ name ≠ "pop" := by
    simpa [isSpecialCall,and_assoc] using plain
  rw [returned]
  cases checked with
  | collection resolved => simp [free] at resolved
  | @len arr at_ elem named checked array =>
    exact ⟨at_.log,by simpa [expectedArgs,named] using ArgsChecked.untyped checked .nil,rfl,
      by simp [callTypeAgrees,named,Typing.node]⟩
  | @push arr val at_ vt elem named target checked array value compatible =>
    have first : self.firstElem [arr,val] = some elem := by
      simp [firstElem,checked,array,arrayElementType]
    refine ⟨at_.log ++ vt.log,?_,rfl,by simp [callTypeAgrees,named,Typing.node]⟩
    simpa [expectedArgs,named,first] using
      ArgsChecked.untyped checked (.typed value (.inl compatible) .nil)
  | @pop arr at_ elem named target checked array =>
    have first : self.firstElem [arr] = some elem := by
      simp [firstElem,checked,array,arrayElementType]
    exact ⟨at_.log,by simpa [expectedArgs,named] using ArgsChecked.untyped checked .nil,rfl,
      by simp [callTypeAgrees,named,first,Typing.node]⟩
  | @pointer info params ret isPure args log free plain bound typed checked =>
    obtain ⟨notLen,notPush,notPop⟩ := plainName plain
    have signature : self.calledSignature name = some (params,ret) := by
      simp [calledSignature,bound,typed]
    exact ⟨log,by simpa [expectedArgs,notLen,notPush,notPop,signature] using checked,rfl,
      by simp [callTypeAgrees,notLen,notPush,notPop,signature,Typing.node]⟩
  | @function func args log free plain unbound known checked =>
    obtain ⟨notLen,notPush,notPop⟩ := plainName plain
    have signature : self.calledSignature name = some (func.params.map (·.2),func.returnType) := by
      simp [calledSignature,unbound,known]
    exact ⟨log,by simpa [expectedArgs,notLen,notPush,notPop,signature] using checked,rfl,
      by simp [callTypeAgrees,notLen,notPush,notPop,signature,Typing.node]⟩

theorem resultContext_lowers (same : Matches lw self ctx) :
    lw.resultContext = self.inferResultType ctx.resultType ∨
      self.inferResultType ctx.resultType = none ∧
        ∀ ok err, lw.resultContext ≠ some (.result ok err) := by
  unfold resultContext inferResultType
  rw [same.result,same.ret]
  obtain ⟨array,result⟩ := ctx
  cases result with
  | some pair => exact .inl rfl
  | none =>
    simp only [Context.resultType,Option.map_none,Option.none_or]
    cases self.currentFnReturnType with
    | none => exact .inl rfl
    | some ret => cases ret <;> simp

theorem lowerExprs_length : ∀ (es : List Expr) {irs : List Ir.Expr},
    lowerExprs lw es = some irs → irs.length = es.length
  | [],irs,lowered => by
    simp only [lowerExprs,Option.some.injEq] at lowered
    simp [← lowered]
  | e :: es,irs,lowered => by
    simp only [lowerExprs,bind_lowers,pure_lowers] at lowered
    obtain ⟨ir,-,irs,rest,rfl⟩ := lowered
    simp [lowerExprs_length es rest]

/-- A statement leaves the two in step, whatever types were cached. -/
theorem lowerStmt_next {stmt : Stmt} {next : Analyzer} {log : List BcType} {lw' : Lowering}
    {ir : Ir.Stmt} (same : FramedMatch lw self ctx) (accepted : checkStmt self stmt = .ok (next,log))
    (lowered : lowerStmt lw stmt = some (lw',ir)) : FramedMatch lw' next ctx := by
  have kept (low : lw = lw') (high : self = next) : FramedMatch lw' next ctx := low ▸ high ▸ same
  cases stmt with
  | letStmt name isMut ty value span =>
    obtain ⟨expected,vt,after,resolved,-,-,bound,⟨⟩⟩ := checkStmt_let accepted
    obtain ⟨lw₁,lowBound,nextSame⟩ := same.bind bound
    simp only [lowerStmt,same.resolveType ty resolved,bind_lowers,pure_lowers] at lowered
    obtain ⟨_,-,_,lowBound',⟨⟩⟩ := lowered
    obtain rfl := Option.some.inj (lowBound.symm.trans lowBound')
    exact nextSame
  | assign target value span =>
    obtain ⟨name,accessors,placeSpan⟩ := target
    obtain ⟨_,_,_,_,-,-,-,-,⟨⟩⟩ := checkStmt_assign accepted
    simp only [lowerStmt,bind_lowers,pure_lowers] at lowered
    obtain ⟨_,-,_,-,⟨⟩⟩ := lowered
    exact same
  | compoundAssign target op value span =>
    obtain ⟨name,accessors,placeSpan⟩ := target
    obtain ⟨_,_,_,_,_,-,-,-,-,⟨⟩⟩ := checkStmt_compoundAssign accepted
    simp only [lowerStmt,bind_lowers,pure_lowers] at lowered
    obtain ⟨_,-,_,-,⟨⟩⟩ := lowered
    exact same
  | expr e span =>
    obtain ⟨_,-,⟨⟩⟩ := checkStmt_expr accepted
    simp only [lowerStmt,bind_lowers,pure_lowers] at lowered
    obtain ⟨_,-,⟨⟩⟩ := lowered
    exact same
  | whileStmt condition body span =>
    obtain ⟨_,_,-,-,-,⟨⟩⟩ := checkStmt_while accepted
    simp only [lowerStmt,bind_lowers,pure_lowers] at lowered
    obtain ⟨_,-,_,-,⟨⟩⟩ := lowered
    exact same
  | forStmt var start stop body span =>
    obtain ⟨_,_,_,_,-,-,-,-,-,-,⟨⟩⟩ := checkStmt_for accepted
    simp only [lowerStmt,bind_lowers,pure_lowers] at lowered
    obtain ⟨_,-,_,-,_,-,_,-,⟨⟩⟩ := lowered
    exact same
  | forIn var iterable body span =>
    obtain ⟨_,_,_,_,-,-,-,-,⟨⟩⟩ := checkStmt_forIn accepted
    simp only [lowerStmt,bind_lowers,pure_lowers] at lowered
    obtain ⟨_,-,_,-,_,-,⟨⟩⟩ := lowered
    exact same
  | returnStmt value span =>
    simp only [lowerStmt,bind_lowers,pure_lowers] at lowered
    obtain ⟨_,-,⟨⟩⟩ := lowered
    cases value with
    | none =>
      obtain ⟨-,⟨⟩⟩ := checkStmt_returnUnit accepted
      exact same
    | some e =>
      obtain ⟨_,-,-,⟨⟩⟩ := checkStmt_return accepted
      exact same
  | deferStmt e span =>
    obtain ⟨_,_,_,_,-,-,⟨⟩⟩ := checkStmt_defer accepted
    simp only [lowerStmt,bind_lowers,pure_lowers] at lowered
    obtain ⟨_,-,⟨⟩⟩ := lowered
    exact same
  | breakStmt span =>
    obtain ⟨-,⟨⟩⟩ := checkStmt_break accepted
    simp only [lowerStmt,Option.some.injEq,Prod.mk.injEq] at lowered
    exact kept lowered.1 rfl
  | continueStmt span =>
    obtain ⟨-,⟨⟩⟩ := checkStmt_continue accepted
    simp only [lowerStmt,Option.some.injEq,Prod.mk.injEq] at lowered
    exact kept lowered.1 rfl

theorem lowerStmts_next : ∀ {stmts : List Stmt} {self next : Analyzer} {log : List BcType}
    {lw lw' : Lowering} {irs : List Ir.Stmt}, FramedMatch lw self ctx →
    checkStmts self stmts = .ok (next,log) → lowerStmts lw stmts = some (lw',irs) →
    FramedMatch lw' next ctx
  | [],self,next,log,lw,lw',irs,same,accepted,lowered => by
    obtain ⟨⟩ := checkStmts_nil accepted
    simp only [lowerStmts,Option.some.injEq,Prod.mk.injEq] at lowered
    exact lowered.1 ▸ same
  | stmt :: stmts,self,next,log,lw,lw',irs,same,accepted,lowered => by
    obtain ⟨middle,_,last,_,head,tail,⟨⟩⟩ := checkStmts_cons accepted
    simp only [lowerStmts,bind_lowers,pure_lowers,Prod.exists] at lowered
    obtain ⟨lw₁,_,lowHead,lw₂,_,lowTail,⟨⟩⟩ := lowered
    exact lowerStmts_next (lowerStmt_next same head lowHead) tail lowTail

end Oscan
