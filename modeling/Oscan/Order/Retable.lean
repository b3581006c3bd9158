import Oscan.Preservation.Typed

/-! The checker asks its symbol tables by name only: tables that answer alike may stand for
one another. -/
namespace Oscan.Semantic.Analyzer
open Ast

/-- The analyzer with other symbol tables. -/
def retable (self : Analyzer) (info : SemanticInfo) : Analyzer :=
  {self with
    structs   := info.structs
    enums     := info.enums
    functions := info.functions
    constants := info.constants}

/-- The tables answer as those of the analyzer do. -/
structure Agrees (info : SemanticInfo) (sa : Analyzer) : Prop where
  structs : ∀ name, info.structs.lookup name = sa.structs.lookup name
  enums : ∀ name, info.enums.lookup name = sa.enums.lookup name
  functions : ∀ name, info.functions.lookup name = sa.functions.lookup name
  constants : ∀ name, info.constants.lookup name = sa.constants.lookup name

variable {info : SemanticInfo} {self : Analyzer}

section
variable (info self)

@[simp] theorem retable_lookupVar (name : String) :
    (self.retable info).lookupVar name = self.lookupVar name := rfl

@[simp] theorem retable_inPureFn : (self.retable info).inPureFn = self.inPureFn := rfl

@[simp] theorem retable_loopDepth : (self.retable info).loopDepth = self.loopDepth := rfl

@[simp] theorem retable_currentFnReturnType :
    (self.retable info).currentFnReturnType = self.currentFnReturnType := rfl

@[simp] theorem retable_pushScope :
    (self.retable info).pushScope = self.pushScope.retable info := rfl

@[simp] theorem retable_enterLoop :
    (self.retable info).enterLoop = self.enterLoop.retable info := rfl

@[simp] theorem retable_inferResultType (expected : Option BcType) :
    (self.retable info).inferResultType expected = self.inferResultType expected := rfl

@[simp] theorem retable_requireMutable (calledName : String) (target : Expr) :
    (self.retable info).requireMutableCollectionTarget calledName target =
      self.requireMutableCollectionTarget calledName target := rfl

@[simp] theorem retable_checkMutatedTarget (intrinsic : CollectionIntrinsic) (calledName : String)
    (target : Expr) : checkMutatedTarget (self.retable info) intrinsic calledName target =
      checkMutatedTarget self intrinsic calledName target := rfl

@[simp] theorem retable_checkPlaceRoot (target : Place) (span : Span) :
    (self.retable info).checkPlaceRoot target span = self.checkPlaceRoot target span := rfl

@[simp] theorem retable_addBinding (name : String) (ty : BcType) (isMut : Bool) (span : Span) :
    (self.retable info).addBinding name ty isMut span =
      (·.retable info) <$> self.addBinding name ty isMut span := by
  cases reserved : rejectReservedCollectionName name span with
  | error e => simp [addBinding,reserved,bind,Except.bind,Functor.map,Except.map]
  | ok _ =>
    by_cases shadows : (self.scopes.any fun scope => (scope.lookup name).isSome) = true
    · simp [addBinding,reserved,retable,shadows,reject,bind,Except.bind,Functor.map,Except.map]
    · simp [addBinding,reserved,retable,shadows,bind,Except.bind,pure,Except.pure,Functor.map,
        Except.map]

end

theorem Agrees.push (agrees : Agrees info self) : Agrees info self.pushScope :=
  ⟨agrees.structs,agrees.enums,agrees.functions,agrees.constants⟩

theorem Agrees.loop (agrees : Agrees info self) : Agrees info self.enterLoop :=
  ⟨agrees.structs,agrees.enums,agrees.functions,agrees.constants⟩

theorem Agrees.bind {name : String} {ty : BcType} {isMut : Bool} {span : Span} {next : Analyzer}
    (agrees : Agrees info self) (bound : self.addBinding name ty isMut span = .ok next) :
    Agrees info next := by
  cases reserved : rejectReservedCollectionName name span with
  | error e => simp [addBinding,reserved,Bind.bind,Except.bind] at bound
  | ok _ =>
    simp only [addBinding,reserved,Bind.bind,Except.bind] at bound
    split at bound
    · simp [reject] at bound
    · obtain rfl : _ = next := by simpa [pure,Except.pure] using bound
      exact ⟨agrees.structs,agrees.enums,agrees.functions,agrees.constants⟩

section
variable (agrees : Agrees info self)
include agrees

private theorem retable_named (name : String) (span : Span) :
    (self.retable info).resolveType (.named name span) = self.resolveType (.named name span) := by
  simp only [resolveType,retable,agrees.structs,agrees.enums]

theorem retable_fieldType (ty : BcType) (field : String) (span : Span) :
    (self.retable info).fieldType ty field span = self.fieldType ty field span := by
  cases ty <;> simp [fieldType,retable,agrees.structs]

theorem retable_identType (name : String) (span : Span) :
    (self.retable info).identType name span = self.identType name span := by
  simp [identType,retable,lookupVar,agrees.constants,agrees.functions]

theorem retable_callTarget (name : String) (argCount : Nat) (span : Span) :
    (self.retable info).callTarget name argCount span = self.callTarget name argCount span := by
  simp [callTarget,retable,lookupVar,agrees.functions]

theorem retable_impureInHole (name : String) :
    (self.retable info).impureInHole name = self.impureInHole name := by
  simp [impureInHole,retable,lookupVar,agrees.functions]

theorem retable_checkPatternCompat (pat : Pattern) (scrutTy : BcType) (seen : List String)
    (span : Span) : (self.retable info).checkPatternCompat pat scrutTy seen span =
      self.checkPatternCompat pat scrutTy seen span := by
  cases pat <;> simp [checkPatternCompat,retable,agrees.enums]

theorem retable_checkExhaustive (scrutTy : BcType) (hasWildcard : Bool) (seen : List String)
    (span : Span) : (self.retable info).checkExhaustive scrutTy hasWildcard seen span =
      self.checkExhaustive scrutTy hasWildcard seen span := by
  cases scrutTy <;> simp [checkExhaustive,retable,agrees.enums]

end

mutual
theorem retable_resolveType (agrees : Agrees info self) : ∀ ty : Ty,
    (self.retable info).resolveType ty = self.resolveType ty
  | .primitive .. => rfl
  | .named name span => retable_named agrees name span
  | .fixedArray elem _ _ | .dynamicArray elem _ => by
    simp only [resolveType,retable_resolveType agrees elem]
  | .result ok err _ => by
    simp only [resolveType,retable_resolveType agrees ok,retable_resolveType agrees err]
  | .fnPtr params ret _ _ => by
    simp only [resolveType,retable_resolveTypes agrees params,retable_resolveType agrees ret]
theorem retable_resolveTypes (agrees : Agrees info self) : ∀ types : List Ty,
    (self.retable info).resolveTypes types = self.resolveTypes types
  | [] => rfl
  | ty :: types => by
    simp only [resolveTypes,retable_resolveType agrees ty,retable_resolveTypes agrees types]
end

mutual
theorem retable_exprPure (agrees : Agrees info self) : ∀ e : Expr,
    (self.retable info).ensureInterpolationExprPure e = self.ensureInterpolationExprPure e
  | .intLit .. | .floatLit .. | .stringLit .. | .boolLit .. | .ident .. => rfl
  | .interpolatedString parts _ => by
    simp only [ensureInterpolationExprPure,retable_partsPure agrees parts]
  | .binaryOp _ left right _ => by
    simp only [ensureInterpolationExprPure,retable_exprPure agrees left,retable_exprPure agrees right]
  | .unaryOp _ e _ | .cast e _ _ | .fieldAccess e _ _ | .tryExpr e _ => by
    simp only [ensureInterpolationExprPure,retable_exprPure agrees e]
  | .call callee args _ => by
    cases callee <;> simp only [ensureInterpolationExprPure,retable_impureInHole agrees,
      retable_exprsPure agrees args]
  | .index e i _ => by
    simp only [ensureInterpolationExprPure,retable_exprPure agrees e,retable_exprPure agrees i]
  | .block b | .arena b _ => by
    simp only [ensureInterpolationExprPure,retable_blockPure agrees b]
  | .ifExpr condition thenBlock elseBranch _ => by
    simp only [ensureInterpolationExprPure,retable_exprPure agrees condition,
      retable_blockPure agrees thenBlock,retable_optionPure agrees elseBranch]
  | .matchExpr scrutinee arms _ => by
    simp only [ensureInterpolationExprPure,retable_exprPure agrees scrutinee,
      retable_armsPure agrees arms]
  | .arrayLit elements _ => by
    simp only [ensureInterpolationExprPure,retable_exprsPure agrees elements]
  | .structLit _ fields _ => by
    simp only [ensureInterpolationExprPure,retable_fieldsPure agrees fields]
  | .enumConstructor _ _ args _ => by
    simp only [ensureInterpolationExprPure,retable_exprsPure agrees args]
theorem retable_optionPure (agrees : Agrees info self) : ∀ e : Option Expr,
    (self.retable info).ensureInterpolationOptionPure e = self.ensureInterpolationOptionPure e
  | none => rfl
  | some e => by simp only [ensureInterpolationOptionPure,retable_exprPure agrees e]
theorem retable_exprsPure (agrees : Agrees info self) : ∀ es : List Expr,
    (self.retable info).ensureInterpolationExprsPure es = self.ensureInterpolationExprsPure es
  | [] => rfl
  | e :: es => by
    simp only [ensureInterpolationExprsPure,retable_exprPure agrees e,retable_exprsPure agrees es]
theorem retable_partsPure (agrees : Agrees info self) : ∀ parts : List InterpolatedStringPart,
    (self.retable info).ensureInterpolationPartsPure parts = self.ensureInterpolationPartsPure parts
  | [] => rfl
  | .text _ :: parts => by
    simp only [ensureInterpolationPartsPure,retable_partsPure agrees parts]
  | .expr e :: parts => by
    simp only [ensureInterpolationPartsPure,retable_exprPure agrees e,retable_partsPure agrees parts]
theorem retable_fieldsPure (agrees : Agrees info self) : ∀ fields : List FieldInit,
    (self.retable info).ensureInterpolationFieldsPure fields =
      self.ensureInterpolationFieldsPure fields
  | [] => rfl
  | .mk _ value _ :: fields => by
    simp only [ensureInterpolationFieldsPure,retable_exprPure agrees value,
      retable_fieldsPure agrees fields]
theorem retable_armsPure (agrees : Agrees info self) : ∀ arms : List MatchArm,
    (self.retable info).ensureInterpolationArmsPure arms = self.ensureInterpolationArmsPure arms
  | [] => rfl
  | .mk _ body _ :: arms => by
    simp only [ensureInterpolationArmsPure,retable_exprPure agrees body,retable_armsPure agrees arms]
theorem retable_blockPure (agrees : Agrees info self) : ∀ b : Block,
    (self.retable info).ensureInterpolationBlockPure b = self.ensureInterpolationBlockPure b
  | .mk stmts tailExpr _ => by
    simp only [ensureInterpolationBlockPure,retable_stmtsPure agrees stmts,
      retable_optionPure agrees tailExpr]
theorem retable_stmtsPure (agrees : Agrees info self) : ∀ stmts : List Stmt,
    (self.retable info).ensureInterpolationStmtsPure stmts = self.ensureInterpolationStmtsPure stmts
  | [] => rfl
  | stmt :: stmts => by
    simp only [ensureInterpolationStmtsPure,retable_stmtPure agrees stmt,
      retable_stmtsPure agrees stmts]
theorem retable_stmtPure (agrees : Agrees info self) : ∀ stmt : Stmt,
    (self.retable info).ensureInterpolationStmtPure stmt = self.ensureInterpolationStmtPure stmt
  | .letStmt _ _ _ e _ | .assign _ e _ | .compoundAssign _ _ e _ | .expr e _ | .deferStmt e _ => by
    simp only [ensureInterpolationStmtPure,retable_exprPure agrees e]
  | .whileStmt condition body _ => by
    simp only [ensureInterpolationStmtPure,retable_exprPure agrees condition,
      retable_blockPure agrees body]
  | .forStmt _ start stop body _ => by
    simp only [ensureInterpolationStmtPure,retable_exprPure agrees start,
      retable_exprPure agrees stop,retable_blockPure agrees body]
  | .forIn _ iterable body _ => by
    simp only [ensureInterpolationStmtPure,retable_exprPure agrees iterable,
      retable_blockPure agrees body]
  | .returnStmt value _ => by
    simp only [ensureInterpolationStmtPure,retable_optionPure agrees value]
  | .breakStmt _ | .continueStmt _ => rfl
end


theorem bind_congr_ok {α β : Type} {x : Check α} {f g : α → Check β}
    (same : ∀ a, x = .ok a → f a = g a) : x >>= f = x >>= g := by
  cases x with
  | error e => rfl
  | ok a => exact same a rfl

theorem retable_bindPayload : ∀ (bindings : List (Pattern × BcType)) (self : Analyzer),
    (self.retable info).bindPayload bindings = (·.retable info) <$> self.bindPayload bindings
  | [],_ => rfl
  | (.ident name span,ty) :: rest,self => by
    simp only [bindPayload,retable_addBinding,bind_map_left,map_bind]
    exact bind_congr_ok fun next _ => retable_bindPayload rest next
  | (.wildcard _,_) :: rest,self | (.intLit ..,_) :: rest,self | (.floatLit ..,_) :: rest,self
  | (.stringLit ..,_) :: rest,self | (.boolLit ..,_) :: rest,self | (.enum ..,_) :: rest,self => by
    simp only [bindPayload]
    exact retable_bindPayload rest self

theorem retable_bindPatternVars (agrees : Agrees info self) (pat : Pattern) (scrutTy : BcType)
    (span : Span) : (self.retable info).bindPatternVars pat scrutTy span =
      (·.retable info) <$> self.bindPatternVars pat scrutTy span := by
  have enums : (self.retable info).enums = info.enums := rfl
  cases pat with
  | ident name ispan => exact retable_addBinding info self name scrutTy false ispan
  | enum enumName variant bindings _ =>
    simp only [bindPatternVars,enums,agrees.enums]
    split
    · cases scrutTy <;> simp only [retable_bindPayload] <;> repeat (first | rfl | split)
    · cases scrutTy <;> simp only [retable_bindPayload] <;> try rfl
      generalize (List.lookup _ self.enums).bind _ = payload
      cases payload <;> rfl
  | _ => rfl

theorem Agrees.bindPayload : ∀ {bindings : List (Pattern × BcType)} {self next : Analyzer},
    Agrees info self → self.bindPayload bindings = .ok next → Agrees info next
  | [],self,next,agrees,bound => by
    obtain rfl : self = next := by simpa [Analyzer.bindPayload,pure,Except.pure] using bound
    exact agrees
  | (.ident name span,ty) :: rest,self,next,agrees,bound => by
    simp only [Analyzer.bindPayload] at bound
    cases first : self.addBinding name ty false span with
    | error e => simp [first,Bind.bind,Except.bind] at bound
    | ok middle =>
      rw [first] at bound
      exact (agrees.bind first).bindPayload bound
  | (.wildcard _,_) :: rest,self,next,agrees,bound | (.intLit ..,_) :: rest,self,next,agrees,bound
  | (.floatLit ..,_) :: rest,self,next,agrees,bound | (.stringLit ..,_) :: rest,self,next,agrees,bound
  | (.boolLit ..,_) :: rest,self,next,agrees,bound | (.enum ..,_) :: rest,self,next,agrees,bound => by
    simp only [Analyzer.bindPayload] at bound
    exact agrees.bindPayload bound

theorem Agrees.patternVars {pat : Pattern} {scrutTy : BcType} {span : Span} {next : Analyzer}
    (agrees : Agrees info self) (bound : self.bindPatternVars pat scrutTy span = .ok next) :
    Agrees info next := by
  have kept (same : (pure self : Check Analyzer) = .ok next) : Agrees info next := by
    obtain rfl : self = next := by simpa [pure,Except.pure] using same
    exact agrees
  cases pat with
  | ident name ispan => exact agrees.bind bound
  | enum enumName variant bindings _ =>
    simp only [bindPatternVars] at bound
    repeat' (split at bound)
    all_goals first
      | exact agrees.bindPayload bound
      | exact kept bound
      | simp [reject] at bound
  | _ => exact kept bound


theorem Agrees.stmt {stmt : Stmt} {next : Analyzer} {log : List BcType} (agrees : Agrees info self)
    (accepted : checkStmt self stmt = .ok (next,log)) : Agrees info next := by
  rcases checkStmt_next accepted with rfl | ⟨_,_,_,_,_,-,bound⟩
  · exact agrees
  · exact agrees.bind bound

theorem Agrees.stmts : ∀ {stmts : List Stmt} {self : Analyzer} {result : Analyzer × List BcType},
    Agrees info self → checkStmts self stmts = .ok result → Agrees info result.1
  | [],_,_,agrees,accepted => by
    rw [checkStmts_nil accepted]
    exact agrees
  | stmt :: stmts,_,_,agrees,accepted => by
    obtain ⟨middle,_,last,rest,head,tail,same⟩ := checkStmts_cons accepted
    have kept : Agrees info (last,rest).1 := (agrees.stmt head).stmts tail
    rw [same]
    exact kept

mutual
theorem retable_checkExpr {self : Analyzer} (agrees : Agrees info self) : ∀ (expected : Option BcType) (e : Expr),
    checkExpr (self.retable info) expected e = checkExpr self expected e
  | _,.intLit .. | _,.floatLit .. | _,.stringLit .. | _,.boolLit .. => rfl
  | _,.interpolatedString parts _ => by
    simp only [checkExpr,retable_checkParts agrees parts]
    rfl
  | _,.ident .. => by simp only [checkExpr,retable_identType agrees]
  | _,.binaryOp _ left right _ => by
    simp only [checkExpr,retable_checkExpr agrees none left,retable_checkExpr agrees none right]
  | _,.unaryOp _ e _ => by simp only [checkExpr,retable_checkExpr agrees none e]
  | _,.cast e _ _ => by
    simp only [checkExpr,retable_checkExpr agrees none e,retable_resolveType agrees]
  | _,.call callee args span => by
    cases callee with
    | ident name _ =>
      simp only [checkExpr,retable_checkCollectionCall agrees _ name args span,
        retable_checkSpecialCall agrees name args span,retable_callTarget agrees,
        retable_checkArgs agrees name 1 _ args]
      rfl
    | _ => rfl
  | _,.fieldAccess e _ _ => by
    simp only [checkExpr,retable_checkExpr agrees none e,retable_fieldType agrees]
  | _,.index e i _ => by
    simp only [checkExpr,retable_checkExpr agrees none e,retable_checkExpr agrees none i]
  | expected,.block b => by simp only [checkExpr,retable_checkBlock agrees b expected]
  | expected,.arena b _ => by
    simp only [checkExpr,retable_checkBlock agrees b expected]
    rfl
  | expected,.ifExpr condition thenBlock elseBranch _ => by
    cases elseBranch with
    | none =>
      simp only [checkExpr,retable_checkExpr agrees none condition,
        retable_checkBlock agrees thenBlock expected]
    | some e =>
      have other := retable_checkExpr agrees expected e
      simp only [checkExpr,retable_checkExpr agrees none condition,
        retable_checkBlock agrees thenBlock expected,other]
  | expected,.matchExpr scrutinee arms span => by
    simp only [checkExpr,retable_checkExpr agrees none scrutinee,
      retable_checkArms agrees _ span expected _ arms,retable_checkExhaustive agrees]
  | _,.tryExpr e _ => by
    simp only [checkExpr,retable_checkExpr agrees none e,retable_currentFnReturnType]
  | expected,.arrayLit elements _ => by
    cases elements with
    | nil => rfl
    | cons e es =>
      have first := retable_checkExpr agrees none e
      have rest := fun ty => retable_checkElements agrees ty es
      simp only [checkExpr,first,rest]
  | _,.structLit name fields _ => by
    have structs : (self.retable info).structs = info.structs := rfl
    simp only [checkExpr,structs,agrees.structs,retable_checkFields agrees name _ _ fields]
  | expected,.enumConstructor enumName variant args _ => by
    have enums : (self.retable info).enums = info.enums := rfl
    have payload := fun types => retable_checkPayload agrees types args
    cases args with
    | nil =>
      unfold checkExpr
      simp only [enums,agrees.enums,payload]
      congr 1
      split <;> first | rfl | contradiction
    | cons e es =>
      have arg := fun expected => retable_checkExpr agrees expected e
      unfold checkExpr
      simp only [enums,agrees.enums,payload,retable_inferResultType]
      congr 1
      split
      all_goals first | rfl | (rename_i same; obtain ⟨rfl,rfl⟩ := List.cons.inj same; simp only [arg])
theorem retable_checkParts {self : Analyzer} (agrees : Agrees info self) : ∀ parts : List InterpolatedStringPart,
    checkParts (self.retable info) parts = checkParts self parts
  | [] => rfl
  | .text _ :: parts => by simp only [checkParts,retable_checkParts agrees parts]
  | .expr e :: parts => by
    simp only [checkParts,retable_exprPure agrees e,retable_checkExpr agrees none e,
      retable_checkParts agrees parts]
theorem retable_checkArms {self : Analyzer} (agrees : Agrees info self) (scrutTy : BcType) (span : Span)
    (expected : Option BcType) : ∀ (seen : List String) (arms : List MatchArm),
    checkArms (self.retable info) scrutTy span expected seen arms =
      checkArms self scrutTy span expected seen arms
  | _,[] => rfl
  | seen,.mk pattern body armSpan :: arms => by
    simp only [checkArms,retable_checkPatternCompat agrees,retable_pushScope,
      retable_bindPatternVars agrees.push,bind_map_left]
    refine bind_congr_ok fun seen _ => bind_congr_ok fun inner bound => ?_
    have head := retable_checkExpr (agrees.push.patternVars bound) expected body
    have rest := retable_checkArms agrees scrutTy span expected seen arms
    simp only [head,rest]
theorem retable_checkElements {self : Analyzer} (agrees : Agrees info self) (ty : BcType) : ∀ es : List Expr,
    checkElements (self.retable info) ty es = checkElements self ty es
  | [] => rfl
  | e :: es => by
    simp only [checkElements,retable_checkExpr agrees none e,retable_checkElements agrees ty es]
theorem retable_checkFields {self : Analyzer} (agrees : Agrees info self) (name : String) (known : StructInfo) :
    ∀ (provided : List String) (fields : List FieldInit),
    checkFields (self.retable info) name known provided fields =
      checkFields self name known provided fields
  | _,[] => rfl
  | provided,.mk fname value _ :: fields => by
    simp only [checkFields,fun ty => retable_checkExpr agrees (some ty) value,
      retable_checkFields agrees name known (fname :: provided) fields]
theorem retable_checkPayload {self : Analyzer} (agrees : Agrees info self) : ∀ (types : List BcType) (es : List Expr),
    checkPayload (self.retable info) types es = checkPayload self types es
  | [],[] | [],_ :: _ | _ :: _,[] => rfl
  | ty :: types,e :: es => by
    simp only [checkPayload,retable_checkExpr agrees (some ty) e,retable_checkPayload agrees types es]
theorem retable_checkArgs {self : Analyzer} (agrees : Agrees info self) (name : String) : ∀ (position : Nat)
    (types : List BcType) (es : List Expr),
    checkArgs (self.retable info) name position types es = checkArgs self name position types es
  | _,[],[] | _,[],_ :: _ | _,_ :: _,[] => rfl
  | position,ty :: types,e :: es => by
    simp only [checkArgs,retable_checkExpr agrees (some ty) e,
      retable_checkArgs agrees name (position+1) types es]
theorem retable_checkCollectionArgs {self : Analyzer} (agrees : Agrees info self) (name : String) :
    ∀ (position : Nat) (types : List BcType) (es : List Expr),
    checkCollectionArgs (self.retable info) name position types es =
      checkCollectionArgs self name position types es
  | _,[],[] | _,[],_ :: _ | _,_ :: _,[] => rfl
  | position,ty :: types,e :: es => by
    simp only [checkCollectionArgs,retable_checkExpr agrees (some ty) e,
      retable_checkCollectionArgs agrees name (position+1) types es]
theorem retable_checkSpecialCall {self : Analyzer} (agrees : Agrees info self) (name : String) :
    ∀ (es : List Expr) (span : Span),
    checkSpecialCall (self.retable info) name es span = checkSpecialCall self name es span
  | [],span => rfl
  | [e],span => by
    simp only [checkSpecialCall,retable_checkExpr agrees none e,retable_requireMutable]
    rfl
  | [e,e'],span => by
    have arg := fun expected => retable_checkExpr agrees expected e'
    simp only [checkSpecialCall,retable_checkExpr agrees none e,arg,retable_requireMutable]
    rfl
  | _ :: _ :: _ :: _,span => rfl
theorem retable_checkCollectionCall {self : Analyzer} (agrees : Agrees info self) (intrinsic : CollectionIntrinsic)
    (name : String) : ∀ (es : List Expr) (span : Span),
    checkCollectionCall (self.retable info) intrinsic name es span =
      checkCollectionCall self intrinsic name es span
  | [],span => rfl
  | [e],span => by
    have first := fun expected => retable_checkExpr agrees expected e
    simp only [checkCollectionCall,first,retable_checkMutatedTarget,
      fun types => retable_checkCollectionArgs agrees name 2 types []]
    rfl
  | e :: e' :: es,span => by
    have first := fun expected => retable_checkExpr agrees expected e
    have second := fun expected => retable_checkExpr agrees expected e'
    have rest := fun types => retable_checkCollectionArgs agrees name 2 types (e' :: es)
    cases es <;> simp only [checkCollectionCall,first,second,retable_checkMutatedTarget,rest] <;> rfl
theorem retable_checkBlock {self : Analyzer} (agrees : Agrees info self) : ∀ (b : Block) (expected : Option BcType),
    checkBlock (self.retable info) b expected = checkBlock self b expected
  | .mk stmts tailExpr _,expected => by
    simp only [checkBlock,retable_pushScope,retable_checkStmts agrees.push stmts,bind_map_left]
    refine bind_congr_ok fun result accepted => ?_
    rw [retable_checkTail (agrees.push.stmts accepted) expected tailExpr]
theorem retable_checkTail {self : Analyzer} (agrees : Agrees info self) (expected : Option BcType) :
    ∀ e : Option Expr, checkTail (self.retable info) expected e = checkTail self expected e
  | none => rfl
  | some e => by simp only [checkTail,retable_checkExpr agrees expected e]
theorem retable_checkStmts {self : Analyzer} (agrees : Agrees info self) : ∀ stmts : List Stmt,
    checkStmts (self.retable info) stmts =
      (fun result => (result.1.retable info,result.2)) <$> checkStmts self stmts
  | [] => rfl
  | stmt :: stmts => by
    simp only [checkStmts,retable_checkStmt agrees stmt,bind_map_left,map_bind]
    refine bind_congr_ok fun result accepted => ?_
    rw [retable_checkStmts (agrees.stmt accepted) stmts,bind_map_left]
    rfl
theorem retable_checkLoopBody {self : Analyzer} (agrees : Agrees info self) : ∀ b : Block,
    checkLoopBody (self.retable info) b = checkLoopBody self b
  | .mk stmts tailExpr _ => by
    simp only [checkLoopBody,retable_checkStmts agrees stmts,bind_map_left]
    refine bind_congr_ok fun result accepted => ?_
    rw [retable_checkTail (agrees.stmts accepted) none tailExpr]
theorem retable_checkPlace {self : Analyzer} (agrees : Agrees info self) (use : PlaceUse) :
    ∀ (ty : BcType) (span : Span) (accessors : List PlaceAccessor),
    checkPlace (self.retable info) use ty span accessors = checkPlace self use ty span accessors
  | _,_,[] => rfl
  | _,span,.field _ :: accessors => by
    simp only [checkPlace,retable_fieldType agrees,
      fun ty => retable_checkPlace agrees use ty span accessors]
  | _,span,.index e :: accessors => by
    simp only [checkPlace,retable_checkExpr agrees none e,
      fun ty => retable_checkPlace agrees use ty span accessors]
theorem retable_checkStmt {self : Analyzer} (agrees : Agrees info self) : ∀ stmt : Stmt,
    checkStmt (self.retable info) stmt =
      (fun result => (result.1.retable info,result.2)) <$> checkStmt self stmt
  | .letStmt name isMut ty value span => by
    simp only [checkStmt,retable_resolveType agrees,fun ty => retable_checkExpr agrees (some ty) value,
      retable_addBinding,map_bind]
    refine bind_congr_ok fun expected _ => bind_congr_ok fun actual _ => ?_
    split
    · rfl
    · cases self.addBinding name expected isMut span <;> rfl
  | .assign target value span => by
    obtain ⟨name,accessors,tspan⟩ := target
    simp only [checkStmt,retable_checkPlaceRoot,
      fun ty => retable_checkPlace agrees .assign ty span accessors,
      fun ty => retable_checkExpr agrees (some ty) value,map_bind]
    refine bind_congr_ok fun root _ => bind_congr_ok fun place _ => bind_congr_ok fun val _ => ?_
    split <;> rfl
  | .compoundAssign target op value span => by
    obtain ⟨name,accessors,tspan⟩ := target
    simp only [checkStmt,retable_checkPlaceRoot,
      fun ty => retable_checkPlace agrees .compound ty span accessors,
      fun ty => retable_checkExpr agrees (some ty) value,map_bind]
    rfl
  | .expr e _ => by
    simp only [checkStmt,retable_checkExpr agrees none e,map_bind]
    rfl
  | .whileStmt condition body _ => by
    simp only [checkStmt,retable_checkExpr agrees none condition,retable_enterLoop,
      retable_checkBlock agrees.loop body none,map_bind]
    refine bind_congr_ok fun ct _ => ?_
    split
    · rfl
    · cases checkBlock self.enterLoop body none <;> rfl
  | .forStmt var start stop body span => by
    simp only [checkStmt,retable_checkExpr agrees none start,retable_checkExpr agrees none stop,
      retable_pushScope,retable_addBinding,bind_map_left,map_bind,retable_enterLoop]
    refine bind_congr_ok fun st _ => bind_congr_ok fun et _ => ?_
    split
    · rfl
    · split
      · rfl
      · simp only [map_bind]
        refine bind_congr_ok fun inner bound => ?_
        rw [retable_checkLoopBody (agrees.push.bind bound).loop body]
        rfl
  | .forIn var iterable body span => by
    simp only [checkStmt,retable_checkExpr agrees none iterable,
      retable_pushScope,retable_addBinding,bind_map_left,map_bind,retable_enterLoop]
    refine bind_congr_ok fun it _ => ?_
    split
    · rfl
    · simp only [map_bind]
      refine bind_congr_ok fun inner bound => ?_
      rw [retable_checkLoopBody (agrees.push.bind bound).loop body]
      rfl
  | .breakStmt span | .continueStmt span => by
    by_cases outside : self.loopDepth = 0 <;>
      simp [checkStmt,outside,reject,Functor.map,Except.map,pure,Except.pure]
  | .returnStmt value span => by
    cases value with
    | none =>
      by_cases unit : self.currentFnReturnType.getD .unit = .unit <;>
        simp [checkStmt,unit,reject,Functor.map,Except.map,pure,Except.pure]
    | some e =>
      have returned := fun expected => retable_checkExpr agrees expected e
      simp only [checkStmt,retable_currentFnReturnType,returned,map_bind]
      refine bind_congr_ok fun t _ => ?_
      by_cases fits : t.ty.isCompatibleWith (self.currentFnReturnType.getD .unit) = true <;>
        simp [fits,reject,Functor.map,Except.map,pure,Except.pure]
  | .deferStmt e span => by
    cases e with
    | call callee args callSpan =>
      have deferred := retable_checkExpr agrees none (.call callee args callSpan)
      cases pureFn : self.inPureFn with
      | true => simp [checkStmt,pureFn,reject,Functor.map,Except.map]
      | false =>
        simp only [checkStmt,deferred,retable_inPureFn,pureFn]
        cases checkExpr self none (.call callee args callSpan) <;> rfl
    | _ =>
      cases pureFn : self.inPureFn <;> simp [checkStmt,pureFn,reject,Functor.map,Except.map]
end

section
variable (agrees : Agrees info self)
include agrees

theorem retable_resolveReturn (ty : Option Ty) :
    (self.retable info).resolveReturn ty = self.resolveReturn ty := by
  cases ty with
  | none => rfl
  | some ty => exact retable_resolveType agrees ty

theorem retable_bindParams (params : List Param) : ∀ scopes : List (Scope BindingInfo),
    (self.retable info).bindParams scopes params = self.bindParams scopes params := by
  induction params with
  | nil => exact fun _ => rfl
  | cons p params ih =>
    intro scopes
    simp only [bindParams,retable_resolveType agrees,ih]

/-- A function is checked alike under tables that answer alike. -/
theorem retable_checkFn (func : FnDecl) : (self.retable info).checkFn func = self.checkFn func := by
  unfold checkFn
  rw [retable_resolveReturn agrees]
  refine bind_congr_ok fun returnType _ => ?_
  let entered := {self with currentFnReturnType := some returnType,inPureFn := func.isPure}
  have inside (scopes : List (Scope BindingInfo)) : Agrees info {entered with scopes} :=
    ⟨agrees.structs,agrees.enums,agrees.functions,agrees.constants⟩
  have params := retable_bindParams (inside self.scopes) func.params
  have body := fun scopes => retable_checkBlock (inside scopes) func.body (some returnType)
  simp only [retable,entered] at params body ⊢
  simp only [params,body]

theorem retable_checkConst (l : LetDecl) : (self.retable info).checkConst l = self.checkConst l := by
  simp only [checkConst,retable_resolveType agrees,retable_pushScope,
    fun expected => retable_checkExpr agrees.push (some expected) l.value]

end

end Oscan.Semantic.Analyzer
