import Oscan.Semantic.Scope

/-! What may stand in a hole of an interpolated string. -/
namespace Oscan.Semantic.Analyzer
open Ast

variable (self : Analyzer)

/-- A call in a hole: no mutating built-in, impure pointer, `fn!` or external function. -/
def impureInHole (name : String) : Bool :=
  name == "push" || name == "pop" ||
  (CollectionIntrinsic.resolveWithAlias name).any (fun intrinsic => !intrinsic.isPure) ||
  (self.lookupVar name).any (fun binding =>
    match binding.ty with
    | .fnPtr _ _ false => true
    | _ => false) ||
  (name != "len" && (self.functions.lookup name).any fun func => !func.isPure || func.isExtern)

mutual
def ensureInterpolationExprPure : Expr → Check Unit
  | .intLit .. | .floatLit .. | .stringLit .. | .boolLit .. | .ident .. => return ()
  | .interpolatedString parts _ => ensureInterpolationPartsPure parts
  | .binaryOp _ left right _ => do
    ensureInterpolationExprPure left
    ensureInterpolationExprPure right
  | .unaryOp _ operand _ => ensureInterpolationExprPure operand
  | .cast e _ _ => ensureInterpolationExprPure e
  | .call callee args span =>
    match callee with
    | .ident name _ =>
      if self.impureInHole name then
        reject span s!"interpolated string expressions cannot call impure function '{name}'"
      else ensureInterpolationExprsPure args
    | _ => reject span "expected function name"
  | .fieldAccess e _ _ => ensureInterpolationExprPure e
  | .index e i _ => do
    ensureInterpolationExprPure e
    ensureInterpolationExprPure i
  | .block b => ensureInterpolationBlockPure b
  | .ifExpr condition thenBlock elseBranch _ => do
    ensureInterpolationExprPure condition
    ensureInterpolationBlockPure thenBlock
    ensureInterpolationOptionPure elseBranch
  | .matchExpr scrutinee arms _ => do
    ensureInterpolationExprPure scrutinee
    ensureInterpolationArmsPure arms
  | .tryExpr c _ => ensureInterpolationExprPure c
  | .arrayLit elements _ => ensureInterpolationExprsPure elements
  | .structLit _ fields _ => ensureInterpolationFieldsPure fields
  | .enumConstructor _ _ args _ => ensureInterpolationExprsPure args
  | .arena body _ => ensureInterpolationBlockPure body
def ensureInterpolationOptionPure : Option Expr → Check Unit
  | none => return ()
  | some e => ensureInterpolationExprPure e
def ensureInterpolationExprsPure : List Expr → Check Unit
  | [] => return ()
  | e :: es => do
    ensureInterpolationExprPure e
    ensureInterpolationExprsPure es
def ensureInterpolationPartsPure : List InterpolatedStringPart → Check Unit
  | [] => return ()
  | .text _ :: parts => ensureInterpolationPartsPure parts
  | .expr e :: parts => do
    ensureInterpolationExprPure e
    ensureInterpolationPartsPure parts
def ensureInterpolationFieldsPure : List FieldInit → Check Unit
  | [] => return ()
  | .mk _ value _ :: fields => do
    ensureInterpolationExprPure value
    ensureInterpolationFieldsPure fields
def ensureInterpolationArmsPure : List MatchArm → Check Unit
  | [] => return ()
  | .mk _ body _ :: arms => do
    ensureInterpolationExprPure body
    ensureInterpolationArmsPure arms
def ensureInterpolationBlockPure : Block → Check Unit
  | .mk stmts tailExpr _ => do
    ensureInterpolationStmtsPure stmts
    ensureInterpolationOptionPure tailExpr
def ensureInterpolationStmtsPure : List Stmt → Check Unit
  | [] => return ()
  | stmt :: stmts => do
    ensureInterpolationStmtPure stmt
    ensureInterpolationStmtsPure stmts
def ensureInterpolationStmtPure : Stmt → Check Unit
  | .letStmt _ _ _ value _ => ensureInterpolationExprPure value
  | .assign _ value _ => ensureInterpolationExprPure value
  | .compoundAssign _ _ value _ => ensureInterpolationExprPure value
  | .expr e _ => ensureInterpolationExprPure e
  | .whileStmt condition body _ => do
    ensureInterpolationExprPure condition
    ensureInterpolationBlockPure body
  | .forStmt _ start stop body _ => do
    ensureInterpolationExprPure start
    ensureInterpolationExprPure stop
    ensureInterpolationBlockPure body
  | .forIn _ iterable body _ => do
    ensureInterpolationExprPure iterable
    ensureInterpolationBlockPure body
  | .returnStmt value _ => ensureInterpolationOptionPure value
  | .breakStmt _ | .continueStmt _ => return ()
  | .deferStmt e _ => ensureInterpolationExprPure e
end

end Oscan.Semantic.Analyzer
