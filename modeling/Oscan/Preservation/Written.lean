import Oscan.Preservation.Typed

/-! The named types that are written anywhere in a program. The checker looks all of them up, except for the
enums of patterns inside the payload of another pattern. -/
namespace Oscan
namespace Ast

/-- A written type, and whether it is the enum of a pattern inside a payload -/
structure Occurrence where
  ty : Ty
  inPayload : Bool

mutual
def patternOccurrences (inPayload : Bool) : Pattern → List Occurrence
  | .enum enumName _ bindings span =>
    (if enumName = "Result" then [] else [⟨.named enumName span,inPayload⟩]) ++ payloadOccurrences bindings
  | _ => []
def payloadOccurrences : List Pattern → List Occurrence
  | [] => []
  | p :: ps => patternOccurrences true p ++ payloadOccurrences ps
end

mutual
def Expr.occurrences : Expr → List Occurrence
  | .intLit .. | .floatLit .. | .stringLit .. | .boolLit .. | .ident .. => []
  | .interpolatedString parts _ => partsOccurrences parts
  | .binaryOp _ left right _ => left.occurrences ++ right.occurrences
  | .unaryOp _ operand _ => operand.occurrences
  | .cast e ty _ => ⟨ty,false⟩ :: e.occurrences
  | .call _ args _ => exprsOccurrences args
  | .fieldAccess e _ _ => e.occurrences
  | .index e index _ => e.occurrences ++ index.occurrences
  | .block b => b.occurrences
  | .ifExpr condition thenBlock elseBranch _ =>
    condition.occurrences ++ thenBlock.occurrences ++ tailOccurrences elseBranch
  | .matchExpr scrutinee arms _ => scrutinee.occurrences ++ armsOccurrences arms
  | .tryExpr call _ => call.occurrences
  | .arrayLit elements _ => exprsOccurrences elements
  | .structLit name fields span => ⟨.named name span,false⟩ :: fieldsOccurrences fields
  | .enumConstructor enumName _ args span =>
    (if enumName = "Result" then [] else [⟨.named enumName span,false⟩]) ++ exprsOccurrences args
  | .arena body _ => body.occurrences
def exprsOccurrences : List Expr → List Occurrence
  | [] => []
  | e :: es => e.occurrences ++ exprsOccurrences es
def partsOccurrences : List InterpolatedStringPart → List Occurrence
  | [] => []
  | .text _ :: parts => partsOccurrences parts
  | .expr e :: parts => e.occurrences ++ partsOccurrences parts
def fieldsOccurrences : List FieldInit → List Occurrence
  | [] => []
  | .mk _ value _ :: fields => value.occurrences ++ fieldsOccurrences fields
def armsOccurrences : List MatchArm → List Occurrence
  | [] => []
  | .mk pattern body _ :: arms => patternOccurrences false pattern ++ body.occurrences ++ armsOccurrences arms
def Block.occurrences : Block → List Occurrence
  | .mk stmts tailExpr _ => stmtsOccurrences stmts ++ tailOccurrences tailExpr
def tailOccurrences : Option Expr → List Occurrence
  | none => []
  | some e => e.occurrences
def stmtsOccurrences : List Stmt → List Occurrence
  | [] => []
  | stmt :: stmts => stmt.occurrences ++ stmtsOccurrences stmts
def accessorsOccurrences : List PlaceAccessor → List Occurrence
  | [] => []
  | .field _ :: accessors => accessorsOccurrences accessors
  | .index e :: accessors => e.occurrences ++ accessorsOccurrences accessors
def Place.occurrences : Place → List Occurrence
  | .mk _ accessors _ => accessorsOccurrences accessors
def Stmt.occurrences : Stmt → List Occurrence
  | .letStmt _ _ ty value _ => ⟨ty,false⟩ :: value.occurrences
  | .assign target value _ => target.occurrences ++ value.occurrences
  | .compoundAssign target _ value _ => target.occurrences ++ value.occurrences
  | .expr e _ => e.occurrences
  | .whileStmt condition body _ => condition.occurrences ++ body.occurrences
  | .forStmt _ start stop body _ => start.occurrences ++ stop.occurrences ++ body.occurrences
  | .forIn _ iterable body _ => iterable.occurrences ++ body.occurrences
  | .returnStmt value _ => tailOccurrences value
  | .deferStmt e _ => e.occurrences
  | .breakStmt _ | .continueStmt _ => []
end

attribute [local simp] Expr.occurrences exprsOccurrences partsOccurrences fieldsOccurrences armsOccurrences
  Block.occurrences tailOccurrences stmtsOccurrences accessorsOccurrences Place.occurrences Stmt.occurrences

def TopDecl.occurrences : TopDecl → List Occurrence
  | .fn f => f.body.occurrences
  | .letDecl l => l.value.occurrences
  | _ => []

end Ast
open Ast Semantic Semantic.Analyzer

variable {names : Names} {self : Analyzer}

/-- The types that the checker looks up are declared. -/
def LookedUp (names : Names) (found : List Occurrence) : Prop :=
  ∀ o ∈ found, o.inPayload = false → o.ty.declared names = true

@[simp] theorem lookedUp_nil : LookedUp names [] := fun _ member => nomatch member

@[simp] theorem lookedUp_append {found more : List Occurrence} :
    LookedUp names (found ++ more) ↔ LookedUp names found ∧ LookedUp names more := List.forall_mem_append

@[simp] theorem lookedUp_cons {ty : Ty} {found : List Occurrence} :
    LookedUp names (⟨ty,false⟩ :: found) ↔ ty.declared names = true ∧ LookedUp names found := by
  rw [LookedUp,List.forall_mem_cons]
  simp only [forall_const,LookedUp]

mutual
theorem inner_lookedUp : ∀ (p : Pattern), LookedUp names (patternOccurrences true p)
  | .enum enumName variant bindings span => by
    rw [patternOccurrences,lookedUp_append]
    refine ⟨?_,payload_lookedUp bindings⟩
    split
    · exact lookedUp_nil
    · exact fun o member outer => by rw [List.mem_singleton.mp member] at outer; cases outer
  | .wildcard _ | .ident .. | .intLit .. | .floatLit .. | .stringLit .. | .boolLit .. => lookedUp_nil
theorem payload_lookedUp : ∀ (patterns : List Pattern), LookedUp names (payloadOccurrences patterns)
  | [] => lookedUp_nil
  | p :: ps => by
    rw [payloadOccurrences,lookedUp_append]
    exact ⟨inner_lookedUp p,payload_lookedUp ps⟩
end

/-- The enum of an accepted pattern is that of the scrutinee. -/
theorem pattern_lookedUp {pattern : Pattern} {scrutTy : BcType} {seen seen' : List String} {span : Span}
    (covered : Covered names self) (accepted : self.checkPatternCompat pattern scrutTy seen span = .ok seen') :
    LookedUp names (patternOccurrences false pattern) := by
  cases pattern with
  | enum enumName variant bindings patSpan =>
    rw [patternOccurrences,lookedUp_append]
    refine ⟨?_,payload_lookedUp bindings⟩
    by_cases result : enumName = "Result"
    · rw [if_pos result]
      exact lookedUp_nil
    · simp only [checkPatternCompat,beq_iff_eq,result,if_false] at accepted
      cases scrutTy with
      | enum ename =>
        simp only [unless_accepts] at accepted
        obtain ⟨same,accepted⟩ := accepted
        cases known : self.enums.lookup ename with
        | none => simp only [known,reject_accepts] at accepted
        | some info =>
          have same : enumName = ename := by simpa using same
          have declared := covered.knownEnum ename (by rw [known]; rfl)
          rw [if_neg result,same,lookedUp_cons,Ty.declared,declared,Bool.or_true]
          exact ⟨rfl,lookedUp_nil⟩
      | _ => simp only [reject_accepts] at accepted
  | _ => exact lookedUp_nil

mutual
theorem checkExpr_written : ∀ (e : Expr) {self : Analyzer} {E : Option BcType} {t : Typing},
    Grounded names self → checkExpr self E e = .ok t → LookedUp names e.occurrences
  | .intLit ..,_,_,_,_,_ | .floatLit ..,_,_,_,_,_ | .stringLit ..,_,_,_,_,_ | .boolLit ..,_,_,_,_,_
  | .ident ..,_,_,_,_,_ => lookedUp_nil
  | .interpolatedString parts span,self,E,t,grounded,accepted => by
    obtain ⟨_,_,_,checked,-⟩ := checkExpr_interpolatedString accepted
    rw [Expr.occurrences]
    exact checkParts_written parts grounded checked
  | .binaryOp op left right span,self,E,t,grounded,accepted => by
    obtain ⟨_,_,_,checkedLeft,checkedRight,-⟩ := checkExpr_binaryOp accepted
    rw [Expr.occurrences,lookedUp_append]
    exact ⟨checkExpr_written left grounded checkedLeft,checkExpr_written right grounded checkedRight⟩
  | .unaryOp op operand span,self,E,t,grounded,accepted => by
    obtain ⟨_,_,checked,-⟩ := checkExpr_unaryOp accepted
    rw [Expr.occurrences]
    exact checkExpr_written operand grounded checked
  | .cast e ty span,self,E,t,grounded,accepted => by
    obtain ⟨_,_,checked,resolved,-⟩ := checkExpr_cast accepted
    rw [Expr.occurrences,lookedUp_cons]
    exact ⟨(grounded.resolveType ty resolved).1,checkExpr_written e grounded checked⟩
  | .call callee args span,self,E,t,grounded,accepted => by
    obtain ⟨name,_,rfl,called⟩ := checkExpr_call accepted
    obtain ⟨_,_,_,checked,-⟩ := called.args
    rw [Expr.occurrences]
    exact argsChecked_written args grounded checked
  | .fieldAccess e field span,self,E,t,grounded,accepted => by
    obtain ⟨_,_,checked,-⟩ := checkExpr_fieldAccess accepted
    rw [Expr.occurrences]
    exact checkExpr_written e grounded checked
  | .index e index span,self,E,t,grounded,accepted => by
    obtain ⟨_,_,_,checked,checkedIndex,-⟩ := checkExpr_index accepted
    rw [Expr.occurrences,lookedUp_append]
    exact ⟨checkExpr_written e grounded checked,checkExpr_written index grounded checkedIndex⟩
  | .block b,self,E,t,grounded,accepted => by
    obtain ⟨_,checked,-⟩ := checkExpr_block accepted
    rw [Expr.occurrences]
    exact checkBlock_written b grounded checked
  | .arena b span,self,E,t,grounded,accepted => by
    obtain ⟨_,checked,-⟩ := checkExpr_arena accepted
    rw [Expr.occurrences]
    exact checkBlock_written b grounded checked
  | .ifExpr condition thenBlock none span,self,E,t,grounded,accepted => by
    obtain ⟨_,_,checked,-,checkedThen,-⟩ := checkExpr_ifThen accepted
    rw [Expr.occurrences,lookedUp_append,lookedUp_append]
    exact ⟨⟨checkExpr_written condition grounded checked,
      checkBlock_written thenBlock grounded checkedThen⟩,lookedUp_nil⟩
  | .ifExpr condition thenBlock (some elseExpr) span,self,E,t,grounded,accepted => by
    obtain ⟨_,_,_,_,checked,-,checkedThen,checkedElse,-⟩ := checkExpr_ifElse accepted
    rw [Expr.occurrences,lookedUp_append,lookedUp_append]
    exact ⟨⟨checkExpr_written condition grounded checked,
      checkBlock_written thenBlock grounded checkedThen⟩,checkExpr_written elseExpr grounded checkedElse⟩
  | .matchExpr scrutinee arms span,self,E,t,grounded,accepted => by
    obtain ⟨_,_,_,_,_,checked,checkedArms,-⟩ := checkExpr_matchExpr accepted
    have known := checkExpr_defined scrutinee grounded (by simp) checked
    rw [Expr.occurrences,lookedUp_append]
    exact ⟨checkExpr_written scrutinee grounded checked,
      checkArms_written arms grounded known checkedArms⟩
  | .tryExpr call span,self,E,t,grounded,accepted => by
    obtain ⟨_,_,_,_,_,checked,-⟩ := checkExpr_tryExpr accepted
    rw [Expr.occurrences]
    exact checkExpr_written call grounded checked
  | .arrayLit [] span,self,E,t,grounded,accepted => lookedUp_nil
  | .arrayLit (first :: rest) span,self,E,t,grounded,accepted => by
    obtain ⟨_,_,checked,checkedRest,-⟩ := checkExpr_arrayLit accepted
    rw [Expr.occurrences,exprsOccurrences,lookedUp_append]
    exact ⟨checkExpr_written first grounded checked,
      checkElements_written rest grounded checkedRest⟩
  | .structLit name fields span,self,E,t,grounded,accepted => by
    obtain ⟨info,_,_,known,checked,-⟩ := checkExpr_structLit accepted
    have declared := grounded.knownStruct name (by rw [known]; rfl)
    rw [Expr.occurrences,lookedUp_cons]
    refine ⟨?_,checkFields_written fields grounded checked⟩
    rw [Ty.declared,declared,Bool.true_or]
  | .enumConstructor enumName variant args span,self,E,t,grounded,accepted => by
    rw [Expr.occurrences,lookedUp_append]
    by_cases result : enumName = "Result"
    · subst result
      obtain ⟨_,_,_,-,checked,-⟩ := checkExpr_result accepted
      exact ⟨lookedUp_nil,argsChecked_written args grounded checked⟩
    · obtain ⟨info,_,_,known,-,arity,checked,-⟩ := checkExpr_enumConstructor result accepted
      have declared := grounded.knownEnum enumName (by rw [known]; rfl)
      rw [if_neg result,lookedUp_cons,Ty.declared,declared,Bool.or_true]
      exact ⟨⟨rfl,lookedUp_nil⟩,argsChecked_written args grounded (checkPayload_args arity checked)⟩
theorem argsChecked_written : ∀ (args : List Expr) {self : Analyzer} {types : List (Option BcType)}
    {log : List BcType}, Grounded names self → ArgsChecked self types args log →
    LookedUp names (exprsOccurrences args)
  | [],_,_,_,_,_ => lookedUp_nil
  | arg :: args,self,types,log,grounded,accepted => by
    cases accepted with
    | cons checked fits rest =>
      rw [exprsOccurrences,lookedUp_append]
      exact ⟨checkExpr_written arg grounded checked,argsChecked_written args grounded rest⟩
theorem checkParts_written : ∀ (parts : List InterpolatedStringPart) {self : Analyzer}
    {result : Nat × Bool × List BcType}, Grounded names self → checkParts self parts = .ok result →
    LookedUp names (partsOccurrences parts)
  | [],_,_,_,_ => lookedUp_nil
  | .text text :: parts,self,result,grounded,accepted => by
    obtain ⟨_,_,rest⟩ := checkParts_text accepted
    rw [partsOccurrences]
    exact checkParts_written parts grounded rest
  | .expr e :: parts,self,result,grounded,accepted => by
    obtain ⟨_,_,_,_,checked,-,rest,-⟩ := checkParts_expr accepted
    rw [partsOccurrences,lookedUp_append]
    exact ⟨checkExpr_written e grounded checked,checkParts_written parts grounded rest⟩
theorem checkElements_written : ∀ (es : List Expr) {self : Analyzer} {firstTy : BcType} {log : List BcType},
    Grounded names self → checkElements self firstTy es = .ok log → LookedUp names (exprsOccurrences es)
  | [],_,_,_,_,_ => lookedUp_nil
  | e :: es,self,firstTy,log,grounded,accepted => by
    obtain ⟨_,_,checked,-,rest,-⟩ := checkElements_cons accepted
    rw [exprsOccurrences,lookedUp_append]
    exact ⟨checkExpr_written e grounded checked,checkElements_written es grounded rest⟩
theorem checkFields_written : ∀ (fields : List FieldInit) {self : Analyzer} {name : String} {info : StructInfo}
    {provided : List String} {result : List String × List BcType}, Grounded names self →
    checkFields self name info provided fields = .ok result → LookedUp names (fieldsOccurrences fields)
  | [],_,_,_,_,_,_,_ => lookedUp_nil
  | .mk fname value span :: fields,self,name,info,provided,result,grounded,accepted => by
    obtain ⟨_,_,_,_,-,checked,-,rest,-⟩ := checkFields_cons accepted
    rw [fieldsOccurrences,lookedUp_append]
    exact ⟨checkExpr_written value grounded checked,checkFields_written fields grounded rest⟩
theorem checkArms_written : ∀ (arms : List MatchArm) {self : Analyzer} {scrutTy : BcType} {span : Span}
    {E : Option BcType} {seen : List String} {result : List (BcType × Span) × List String × List BcType},
    Grounded names self → scrutTy.defined names = true →
    checkArms self scrutTy span E seen arms = .ok result → LookedUp names (armsOccurrences arms)
  | [],_,_,_,_,_,_,_,_,_ => lookedUp_nil
  | .mk pattern body armSpan :: arms,self,scrutTy,span,E,seen,result,grounded,known,accepted => by
    obtain ⟨_,inner,_,_,_,_,compatible,bound,checked,rest,-⟩ := checkArms_cons accepted
    have innerGrounded := grounded.pushScope.bindPatternVars known bound
    rw [armsOccurrences,lookedUp_append,lookedUp_append]
    exact ⟨⟨pattern_lookedUp grounded.toCovered compatible,
      checkExpr_written body innerGrounded checked⟩,checkArms_written arms grounded known rest⟩
theorem checkBlock_written : ∀ (b : Block) {self : Analyzer} {E : Option BcType} {t : Typing},
    Grounded names self → checkBlock self b E = .ok t → LookedUp names b.occurrences
  | .mk stmts tail span,self,E,t,grounded,accepted => by
    obtain ⟨inner,_,_,checkedStmts,checkedTail,-⟩ := checkBlock_shape accepted
    have innerGrounded := checkStmts_grounded grounded.pushScope checkedStmts
    rw [Block.occurrences,lookedUp_append]
    exact ⟨checkStmts_written stmts grounded.pushScope checkedStmts,
      checkTail_written tail innerGrounded checkedTail⟩
theorem checkTail_written : ∀ (tail : Option Expr) {self : Analyzer} {E : Option BcType} {t : Typing},
    Grounded names self → checkTail self E tail = .ok t → LookedUp names (tailOccurrences tail)
  | none,_,_,_,_,_ => lookedUp_nil
  | some e,self,E,t,grounded,accepted => by
    rw [tailOccurrences]
    exact checkExpr_written e grounded (checkTail_some accepted)
theorem checkStmts_written : ∀ (stmts : List Stmt) {self : Analyzer} {result : Analyzer × List BcType},
    Grounded names self → checkStmts self stmts = .ok result → LookedUp names (stmtsOccurrences stmts)
  | [],_,_,_,_ => lookedUp_nil
  | stmt :: stmts,self,result,grounded,accepted => by
    obtain ⟨next,_,_,_,head,rest,-⟩ := checkStmts_cons accepted
    rw [stmtsOccurrences,lookedUp_append]
    exact ⟨checkStmt_written stmt grounded head,
      checkStmts_written stmts (checkStmt_grounded grounded head) rest⟩
theorem checkPlace_written : ∀ (accessors : List PlaceAccessor) {self : Analyzer} {use : PlaceUse} {ty : BcType}
    {span : Span} {result : BcType × List BcType}, Grounded names self →
    checkPlace self use ty span accessors = .ok result → LookedUp names (accessorsOccurrences accessors)
  | [],_,_,_,_,_,_,_ => lookedUp_nil
  | .field field :: accessors,self,use,ty,span,result,grounded,accepted => by
    obtain ⟨_,-,rest⟩ := checkPlace_field accepted
    rw [accessorsOccurrences]
    exact checkPlace_written accessors grounded rest
  | .index index :: accessors,self,use,ty,span,result,grounded,accepted => by
    obtain ⟨_,_,_,checked,-,-,rest,-⟩ := checkPlace_index accepted
    rw [accessorsOccurrences,lookedUp_append]
    exact ⟨checkExpr_written index grounded checked,checkPlace_written accessors grounded rest⟩
theorem checkStmt_written : ∀ (stmt : Stmt) {self : Analyzer} {result : Analyzer × List BcType},
    Grounded names self → checkStmt self stmt = .ok result → LookedUp names stmt.occurrences
  | .letStmt name isMut ty value span,self,result,grounded,accepted => by
    obtain ⟨_,_,_,resolved,checked,-⟩ := checkStmt_let accepted
    rw [Stmt.occurrences,lookedUp_cons]
    exact ⟨(grounded.resolveType ty resolved).1,checkExpr_written value grounded checked⟩
  | .assign (.mk name accessors placeSpan) value span,self,result,grounded,accepted => by
    obtain ⟨_,_,_,_,-,place,checked,-⟩ := checkStmt_assign accepted
    rw [Stmt.occurrences,lookedUp_append,Place.occurrences]
    exact ⟨checkPlace_written accessors grounded place,checkExpr_written value grounded checked⟩
  | .compoundAssign (.mk name accessors placeSpan) op value span,self,result,grounded,accepted => by
    obtain ⟨_,_,_,_,_,-,place,checked,-⟩ := checkStmt_compoundAssign accepted
    rw [Stmt.occurrences,lookedUp_append,Place.occurrences]
    exact ⟨checkPlace_written accessors grounded place,checkExpr_written value grounded checked⟩
  | .expr e span,self,result,grounded,accepted => by
    obtain ⟨_,checked,-⟩ := checkStmt_expr accepted
    rw [Stmt.occurrences]
    exact checkExpr_written e grounded checked
  | .whileStmt condition body span,self,result,grounded,accepted => by
    obtain ⟨_,_,checked,-,checkedBody,-⟩ := checkStmt_while accepted
    rw [Stmt.occurrences,lookedUp_append]
    exact ⟨checkExpr_written condition grounded checked,
      checkBlock_written body grounded.enterLoop checkedBody⟩
  | .forStmt var start stop (.mk stmts tail bodySpan) span,self,result,grounded,accepted => by
    obtain ⟨_,_,inner,_,checkedStart,-,checkedStop,-,bound,body,-⟩ := checkStmt_for accepted
    obtain ⟨_,_,_,checkedStmts,checkedTail,-⟩ := checkLoopBody_shape body
    have innerGrounded := (grounded.pushScope.bind (by simp) bound).enterLoop
    rw [Stmt.occurrences,lookedUp_append,lookedUp_append,Block.occurrences,lookedUp_append]
    exact ⟨⟨checkExpr_written start grounded checkedStart,
      checkExpr_written stop grounded checkedStop⟩,⟨checkStmts_written stmts innerGrounded checkedStmts,
      checkTail_written tail (checkStmts_grounded innerGrounded checkedStmts) checkedTail⟩⟩
  | .forIn var iterable (.mk stmts tail bodySpan) span,self,result,grounded,accepted => by
    obtain ⟨_,_,inner,_,checked,array,bound,body,-⟩ := checkStmt_forIn accepted
    obtain ⟨_,_,_,checkedStmts,checkedTail,-⟩ := checkLoopBody_shape body
    have known := checkExpr_defined iterable grounded (by simp) checked
    rw [BcType.defined_element array] at known
    have innerGrounded := (grounded.pushScope.bind known bound).enterLoop
    rw [Stmt.occurrences,lookedUp_append,Block.occurrences,lookedUp_append]
    exact ⟨checkExpr_written iterable grounded checked,
      ⟨checkStmts_written stmts innerGrounded checkedStmts,
        checkTail_written tail (checkStmts_grounded innerGrounded checkedStmts) checkedTail⟩⟩
  | .returnStmt none span,_,_,_,_ => lookedUp_nil
  | .returnStmt (some value) span,self,result,grounded,accepted => by
    obtain ⟨_,checked,-⟩ := checkStmt_return accepted
    rw [Stmt.occurrences]
    exact checkExpr_written value grounded checked
  | .deferStmt e span,self,result,grounded,accepted => by
    obtain ⟨_,_,_,_,-,checked,-⟩ := checkStmt_defer accepted
    rw [Stmt.occurrences]
    exact checkExpr_written e grounded checked
  | .breakStmt _,_,_,_,_ | .continueStmt _,_,_,_,_ => lookedUp_nil
end

theorem checkFn_written {f : FnDecl} {log : List BcType} (grounded : Grounded names self) (bare : self.scopes = [])
    (accepted : self.checkFn f = .ok log) : LookedUp names f.body.occurrences := by
  simp only [checkFn,bind_accepts,unless_accepts,pure_accepts] at accepted
  obtain ⟨returnType,resolved,frames,bound,bt,checked,-⟩ := accepted
  have returnKnown := (grounded.resolveReturn resolved).2
  have entered : Grounded names {self with currentFnReturnType := some returnType,inPureFn := f.isPure} :=
    {grounded with ret := fun ty found => Option.some.inj found ▸ returnKnown}
  have scopes := entered.bindParams (by simp [bare]) bound
  have inside : Grounded names
      {self with currentFnReturnType := some returnType,inPureFn := f.isPure,scopes := frames} :=
    {entered with scopes}
  exact checkBlock_written f.body inside checked

theorem checkDecls_written (grounded : Grounded names self) (bare : self.scopes = []) :
    ∀ {decls : List TopDecl} {log : TypeLog}, self.checkDecls decls = .ok log →
      ∀ decl ∈ decls, LookedUp names decl.occurrences
  | [],_,_ => fun _ member => nomatch member
  | .fn f :: decls,log,accepted => by
    simp only [checkDecls,bind_accepts,pure_accepts] at accepted
    obtain ⟨_,checked,_,rest,-⟩ := accepted
    exact List.forall_mem_cons.mpr ⟨checkFn_written grounded bare checked,checkDecls_written grounded bare rest⟩
  | .letDecl l :: decls,log,accepted => by
    simp only [checkDecls,bind_accepts,pure_accepts] at accepted
    obtain ⟨_,checked,_,rest,-⟩ := accepted
    simp only [checkConst,bind_accepts,unless_accepts,pure_accepts] at checked
    obtain ⟨_,-,_,checked,-⟩ := checked
    exact List.forall_mem_cons.mpr ⟨checkExpr_written l.value grounded.pushScope checked,
      checkDecls_written grounded bare rest⟩
  | .struct _ :: decls,log,accepted | .enum _ :: decls,log,accepted | .externBlock _ :: decls,log,accepted
  | .useDecl .. :: decls,log,accepted => by
    simp only [checkDecls] at accepted
    exact List.forall_mem_cons.mpr ⟨lookedUp_nil,checkDecls_written grounded bare accepted⟩

end Oscan
