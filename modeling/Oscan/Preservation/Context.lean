import Oscan.Semantic.Inversion
import Oscan.Lower

/-! Where the checker and lowering are in step. Both thread a context to the places whose
type depends on it: the checker an expected type, lowering the type pushed last. The
predicates below walk a declaration with both and compare what they say at these places. -/
namespace Oscan

/-- The two context fields of lowering. -/
structure Context where
  array : Option BcType
  result : Option (BcType × BcType)

namespace Context

def empty : Context := ⟨none,none⟩

/-- What `push_expected_type` sets. -/
def push (ty : BcType) : Context :=
  match ty with
  | .array _ | .fixedArray .. => ⟨some ty,none⟩
  | .result ok err => ⟨none,some (ok,err)⟩
  | _ => empty

def resultType (ctx : Context) : Option BcType := ctx.result.map fun pair => .result pair.1 pair.2

end Context

namespace Semantic.Analyzer
open Ast

/-- The lowering state that stands where the checker stands. -/
def lowering (self : Analyzer) (ctx : Context) : Lowering :=
  ⟨self.info,self.scopes.map fun scope => scope.map fun b => (b.1,b.2.ty),
    self.currentFnReturnType,ctx.array,ctx.resultType⟩

/-- The parameter and return types that the checker finds for a called name. -/
def calledSignature (self : Analyzer) (name : String) : Option (List BcType × BcType) :=
  match self.lookupVar name with
  | some info =>
    match info.ty with
    | .fnPtr params ret _ => some (params,ret)
    | _ => none
  | none => (self.functions.lookup name).map fun f => (f.params.map (·.2),f.returnType)

/-- The parameter types that lowering pushes for the arguments of a called name. -/
def pushedParams (self : Analyzer) (name : String) : List BcType :=
  ((self.lowering .empty).namedParamTypes name).getD []

/-- The context of a returned value. -/
def returnContext (self : Analyzer) (ctx : Context) : Context :=
  match self.currentFnReturnType with
  | some ret => .push ret
  | none => ctx

/-- The condition under the type of an accepted expression; a rejected one sets none. -/
def whenTyped {α : Type} (checked : Check α) (p : α → Bool) : Bool :=
  match checked with
  | .ok a => p a
  | .error _ => true

@[simp] theorem whenTyped_ok {α : Type} (a : α) (p : α → Bool) : whenTyped (.ok a) p = p a := rfl

/-- The element type of the array that `push` and `pop` are called on. -/
def firstElem (self : Analyzer) (args : List Expr) : Option BcType :=
  args.head?.bind fun arr =>
    match checkExpr self none arr with
    | .ok at_ => arrayElementType at_.ty
    | .error _ => none

/-- The types under which the checker checks the arguments of a called name. -/
def expectedArgs (self : Analyzer) (name : String) (args : List Expr) : List (Option BcType) :=
  if name = "len" ∨ name = "pop" then [none]
  else if name = "push" then [none,self.firstElem args]
  else ((self.calledSignature name).map fun signature => signature.1.map some).getD []

/-- Lowering looks the result type of a called name up in its tables, also that of `pop`,
whose type the checker takes from the array. -/
def callTypeAgrees (self : Analyzer) (name : String) (args : List Expr) : Bool :=
  let found := (self.lowering .empty).namedReturnType name
  if name = "len" ∨ name = "push" then true
  else if name = "pop" then found == (self.firstElem args).getD .unit
  else ((self.calledSignature name).map fun signature => found == signature.2).getD true

mutual
def agreeExpr (self : Analyzer) (expected : Option BcType) (ctx : Context) : Expr → Bool
  | .intLit .. | .floatLit .. | .stringLit .. | .boolLit .. | .ident .. => true
  | .interpolatedString parts _ => agreeParts self ctx parts
  | .binaryOp _ left right _ => agreeExpr self none ctx left && agreeExpr self none ctx right
  | .unaryOp _ operand _ => agreeExpr self none ctx operand
  | .cast e _ _ => agreeExpr self none ctx e
  | .call callee args _ =>
    match callee with
    | .ident name _ =>
      match CollectionIntrinsic.resolveWithAlias name with
      | some intrinsic => agreeCollection self ctx intrinsic args
      | none =>
        self.callTypeAgrees name args &&
          agreeArgs self ctx (self.expectedArgs name args) (self.pushedParams name) args
    | _ => true
  | .fieldAccess e _ _ => agreeExpr self none ctx e
  | .index e index _ => agreeExpr self none ctx e && agreeExpr self none ctx index
  | .block b => agreeBlock self expected ctx b
  | .arena b _ => agreeBlock self expected ctx b
  | .ifExpr condition thenBlock elseBranch _ =>
    agreeExpr self none ctx condition && agreeBlock self expected ctx thenBlock &&
      agreeTail self expected ctx elseBranch
  | .matchExpr scrutinee arms _ =>
    agreeExpr self none ctx scrutinee &&
      whenTyped (checkExpr self none scrutinee) fun st => agreeArms self st.ty expected ctx arms
  | .tryExpr c _ => agreeExpr self none ctx c
  | .arrayLit elements _ =>
    match elements with
    | [] => (ctx.array.bind arrayElementType).getD .unit ==
        (expected.bind arrayElementType).getD .unit
    | first :: rest =>
      agreeExpr self none ctx first && agreeElements self ctx rest &&
        whenTyped (checkExpr self none first) fun ft =>
          arrayLitType ctx.array ft.ty (rest.length+1) ==
            arrayLitType expected ft.ty (rest.length+1)
  | .structLit name fields _ => agreeFields self ctx (self.structs.lookup name) fields
  | .enumConstructor enumName variant args _ =>
    if enumName == "Result" then
      self.inferResultType ctx.resultType == self.inferResultType expected &&
        agreeArgs self ctx ((self.resultPayload expected variant).toList.map some)
          (self.resultPayload expected variant).toList args
    else
      let payload := ((self.enums.lookup enumName).bind fun i => i.variants.lookup variant).getD []
      agreeArgs self ctx (payload.map some) payload args
def agreeParts (self : Analyzer) (ctx : Context) : List InterpolatedStringPart → Bool
  | [] => true
  | .text _ :: parts => agreeParts self ctx parts
  | .expr e :: parts => agreeExpr self none ctx e && agreeParts self ctx parts
def agreeElements (self : Analyzer) (ctx : Context) : List Expr → Bool
  | [] => true
  | e :: es => agreeExpr self none ctx e && agreeElements self ctx es
/-- Arguments, under the types the checker expects and the types lowering pushes; an
argument for which nothing is pushed keeps the context of the call. -/
def agreeArgs (self : Analyzer) (ctx : Context) :
    List (Option BcType) → List BcType → List Expr → Bool
  | expected :: types,pushed :: pushes,arg :: args =>
    agreeExpr self expected (.push pushed) arg && agreeArgs self ctx types pushes args
  | expected :: types,[],arg :: args =>
    agreeExpr self expected ctx arg && agreeArgs self ctx types [] args
  | _,_,_ => true
def agreeCollection (self : Analyzer) (ctx : Context) (intrinsic : CollectionIntrinsic) :
    List Expr → Bool
  | [] => true
  | first :: rest =>
    let expected := intrinsic.source.map fun source => BcType.array source.bcType
    agreeExpr self expected ((expected.map .push).getD ctx) first &&
      whenTyped (checkExpr self expected first) fun ft =>
        let types := restTypes intrinsic ((arrayElementType ft.ty).getD .unit)
        agreeArgs self ctx (types.map some) types rest
def agreeFields (self : Analyzer) (ctx : Context) (info : Option StructInfo) :
    List FieldInit → Bool
  | [] => true
  | .mk name value _ :: fields =>
    (match info.bind fun s => s.fields.lookup name with
      | some ty => agreeExpr self (some ty) (.push ty) value
      | none => true) && agreeFields self ctx info fields
def agreeArms (self : Analyzer) (scrutTy : BcType) (expected : Option BcType) (ctx : Context) :
    List MatchArm → Bool
  | [] => true
  | .mk pattern body span :: arms =>
    (whenTyped (self.pushScope.bindPatternVars pattern scrutTy span) fun inner =>
      agreeExpr inner expected ctx body) && agreeArms self scrutTy expected ctx arms
def agreeBlock (self : Analyzer) (expected : Option BcType) (ctx : Context) : Block → Bool
  | .mk stmts tail _ =>
    agreeStmts self.pushScope ctx stmts &&
      whenTyped (checkStmts self.pushScope stmts) fun done => agreeTail done.1 expected ctx tail
def agreeTail (self : Analyzer) (expected : Option BcType) (ctx : Context) : Option Expr → Bool
  | none => true
  | some e => agreeExpr self expected ctx e
def agreeStmts (self : Analyzer) (ctx : Context) : List Stmt → Bool
  | [] => true
  | stmt :: stmts =>
    agreeStmt self ctx stmt &&
      whenTyped (checkStmt self stmt) fun done => agreeStmts done.1 ctx stmts
def agreeLoopBody (self : Analyzer) (ctx : Context) : Block → Bool
  | .mk stmts tail _ =>
    agreeStmts self ctx stmts &&
      whenTyped (checkStmts self stmts) fun done => agreeTail done.1 none ctx tail
def agreeAccessors (self : Analyzer) (ctx : Context) : List PlaceAccessor → Bool
  | [] => true
  | .field _ :: accessors => agreeAccessors self ctx accessors
  | .index e :: accessors => agreeExpr self none ctx e && agreeAccessors self ctx accessors
def agreeStmt (self : Analyzer) (ctx : Context) : Stmt → Bool
  | .letStmt _ _ ty value _ =>
    whenTyped (self.resolveType ty) fun expected =>
      agreeExpr self (some expected) (.push expected) value
  | .assign target value span =>
    match target with
    | .mk name accessors placeSpan =>
      agreeAccessors self ctx accessors &&
        whenTyped (self.checkPlaceRoot (.mk name accessors placeSpan) span) fun root =>
          whenTyped (checkPlace self .assign root.ty span accessors) fun place =>
            agreeExpr self (some place.1) (.push place.1) value
  | .compoundAssign target _ value span =>
    match target with
    | .mk name accessors placeSpan =>
      agreeAccessors self ctx accessors &&
        whenTyped (self.checkPlaceRoot (.mk name accessors placeSpan) span) fun root =>
          whenTyped (checkPlace self .compound root.ty span accessors) fun place =>
            agreeExpr self (some place.1) ctx value
  | .expr e _ => agreeExpr self none ctx e
  | .whileStmt condition body _ =>
    agreeExpr self none ctx condition && agreeBlock self.enterLoop none ctx body
  | .forStmt var start stop body span =>
    agreeExpr self none ctx start && agreeExpr self none ctx stop &&
      whenTyped (self.pushScope.addBinding var .i32 false span) fun inner =>
        agreeLoopBody inner.enterLoop ctx body
  | .forIn var iterable body span =>
    agreeExpr self none ctx iterable &&
      whenTyped (checkExpr self none iterable) fun it =>
        whenTyped (self.pushScope.addBinding var ((arrayElementType it.ty).getD .unit) false span)
          fun inner => agreeLoopBody inner.enterLoop ctx body
  | .returnStmt value _ =>
    agreeTail self (some (self.currentFnReturnType.getD .unit)) (self.returnContext ctx) value
  | .deferStmt e _ => agreeExpr self none ctx e
  | .breakStmt _ | .continueStmt _ => true
end

attribute [local simp] agreeExpr agreeParts agreeElements agreeArgs agreeCollection
  agreeFields agreeArms agreeBlock agreeTail agreeStmts agreeLoopBody agreeAccessors
  agreeStmt

/-- A function body is lowered under no context at all. -/
def agreeFn (self : Analyzer) (func : FnDecl) : Bool :=
  whenTyped (self.resolveReturn func.returnType) fun returnType =>
    let entered := {self with currentFnReturnType := some returnType,inPureFn := func.isPure}
    whenTyped (entered.bindParams ([] :: self.scopes) func.params) fun scopes =>
      agreeBlock {entered with scopes} (some returnType) .empty func.body

def agreeConst (self : Analyzer) (l : LetDecl) : Bool :=
  whenTyped (self.resolveType l.ty) fun expected =>
    agreeExpr self.pushScope (some expected) (.push expected) l.value

def agreeDecl (self : Analyzer) : TopDecl → Bool
  | .fn f => self.agreeFn f
  | .letDecl l => self.agreeConst l
  | _ => true

end Semantic.Analyzer

open Semantic.Analyzer in
/-- The contexts of the checker and of lowering agree throughout the program. -/
def contextsAgree (program : Ast.Program) : Bool :=
  whenTyped (Semantic.collect program) fun sa => program.decls.all sa.agreeDecl

end Oscan
