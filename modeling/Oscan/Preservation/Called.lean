import Oscan.Preservation.Defined

/-! The names a program calls, and the calls of `len`, `push` and `pop`: the checker takes
these from the language, the verifier from a function the program may have declared. -/
namespace Oscan
namespace Ast

mutual
def Expr.calledNames : Expr → List String
  | .intLit .. | .floatLit .. | .stringLit .. | .boolLit .. | .ident .. => []
  | .interpolatedString parts _ => partsCalledNames parts
  | .binaryOp _ left right _ => left.calledNames ++ right.calledNames
  | .unaryOp _ operand _ => operand.calledNames
  | .cast e _ _ => e.calledNames
  | .call callee args _ =>
    (match callee with
      | .ident name _ => [name]
      | _ => []) ++ exprsCalledNames args
  | .fieldAccess e _ _ => e.calledNames
  | .index e index _ => e.calledNames ++ index.calledNames
  | .block b => b.calledNames
  | .ifExpr condition thenBlock elseBranch _ =>
    condition.calledNames ++ thenBlock.calledNames ++ tailCalledNames elseBranch
  | .matchExpr scrutinee arms _ => scrutinee.calledNames ++ armsCalledNames arms
  | .tryExpr call _ => call.calledNames
  | .arrayLit elements _ => exprsCalledNames elements
  | .structLit _ fields _ => fieldsCalledNames fields
  | .enumConstructor _ _ args _ => exprsCalledNames args
  | .arena body _ => body.calledNames
def exprsCalledNames : List Expr → List String
  | [] => []
  | e :: es => e.calledNames ++ exprsCalledNames es
def partsCalledNames : List InterpolatedStringPart → List String
  | [] => []
  | .text _ :: parts => partsCalledNames parts
  | .expr e :: parts => e.calledNames ++ partsCalledNames parts
def fieldsCalledNames : List FieldInit → List String
  | [] => []
  | .mk _ value _ :: fields => value.calledNames ++ fieldsCalledNames fields
def armsCalledNames : List MatchArm → List String
  | [] => []
  | .mk _ body _ :: arms => body.calledNames ++ armsCalledNames arms
def Block.calledNames : Block → List String
  | .mk stmts tailExpr _ => stmtsCalledNames stmts ++ tailCalledNames tailExpr
def tailCalledNames : Option Expr → List String
  | none => []
  | some e => e.calledNames
def stmtsCalledNames : List Stmt → List String
  | [] => []
  | stmt :: stmts => stmt.calledNames ++ stmtsCalledNames stmts
def accessorsCalledNames : List PlaceAccessor → List String
  | [] => []
  | .field _ :: accessors => accessorsCalledNames accessors
  | .index e :: accessors => e.calledNames ++ accessorsCalledNames accessors
def Place.calledNames : Place → List String
  | .mk _ accessors _ => accessorsCalledNames accessors
def Stmt.calledNames : Stmt → List String
  | .letStmt _ _ _ value _ => value.calledNames
  | .assign target value _ => target.calledNames ++ value.calledNames
  | .compoundAssign target _ value _ => target.calledNames ++ value.calledNames
  | .expr e _ => e.calledNames
  | .whileStmt condition body _ => condition.calledNames ++ body.calledNames
  | .forStmt _ start stop body _ => start.calledNames ++ stop.calledNames ++ body.calledNames
  | .forIn _ iterable body _ => iterable.calledNames ++ body.calledNames
  | .returnStmt value _ => tailCalledNames value
  | .deferStmt e _ => e.calledNames
  | .breakStmt _ | .continueStmt _ => []
end

attribute [local simp] Expr.calledNames exprsCalledNames partsCalledNames fieldsCalledNames
  armsCalledNames Block.calledNames tailCalledNames stmtsCalledNames accessorsCalledNames
  Place.calledNames Stmt.calledNames

def TopDecl.calledNames : TopDecl → List String
  | .fn f => f.body.calledNames
  | .letDecl l => l.value.calledNames
  | _ => []

end Ast
open Ast Semantic Semantic.Analyzer

/-- The number of arguments of the calls that the checker treats by name. -/
def specialArity (name : String) : Option Nat :=
  if name = "len" ∨ name = "pop" then some 1
  else if name = "push" then some 2
  else none

/-- A function declared under such a name has as many parameters. -/
def arityAgrees (functions : List (String × FunctionInfo)) (name : String) : Bool :=
  match specialArity name,functions.lookup name with
  | some arity,some func => func.params.length == arity
  | _,_ => true

/-- The arities agree for all names that the program calls. -/
def aritiesAgree (program : Program) : Bool :=
  whenTyped (collect program) fun sa =>
    (program.decls.flatMap (·.calledNames)).all (arityAgrees sa.functions)

end Oscan
