import Oscan.Ir
import Oscan.Control.Scope

/-! The control flow of a function body: what the backends turn into jumps, scopes and loops. -/
namespace Oscan.Control
open Ir

mutual
inductive Flow where
  | work
  | seq (first second : Flow)
  | next (first second : Flow)
  | select (first second : Flow)
  | whileLoop (condition body : Flow)
  | forLoop (body : Flow)
  | matched (scrutinee : BcType) (arms : Arms)
  | arena (body : Flow)
  | update (place value : Flow)
  | brk
  | cont
  | ret (valued : Bool)
  | deferred (call : Flow)
  | propagate
inductive Arms where
  | nil
  | cons (pattern : Pattern) (body : Flow) (rest : Arms)
end

mutual
/-- The flow of an expression; it ends with the work that yields the value. -/
def Expr.flow : Expr → Flow
  | .intLit .. | .floatLit .. | .stringLit .. | .boolLit .. | .ident .. => .work
  | .interpolatedString parts _ => .seq (partsFlow parts) .work
  | .binaryOp op left right _ _ =>
    if op = .and ∨ op = .or then
      .seq (Expr.flow left) (.seq .work (.select (.seq (Expr.flow right) .work) .work))
    else .seq (Expr.flow left) (.seq (Expr.flow right) .work)
  | .unaryOp _ operand _ _ => .seq (Expr.flow operand) .work
  | .cast e _ _ => .seq (Expr.flow e) .work
  | .call _ args _ _ => .seq (exprsFlow args) .work
  | .fieldAccess e _ _ _ => .seq (Expr.flow e) .work
  | .index e index _ _ => .seq (Expr.flow e) (.seq (Expr.flow index) .work)
  | .block b => Block.flow b
  | .ifExpr condition thenBlock elseBranch _ _ =>
    .seq (Expr.flow condition) (.seq .work
      (.select (Block.flow thenBlock) (tailFlow elseBranch)))
  | .matchExpr scrutinee arms _ _ =>
    .seq (Expr.flow scrutinee) (.seq .work (.matched scrutinee.ty (armsFlow arms)))
  | .tryExpr call _ _ => .seq (Expr.flow call) (.seq .work .propagate)
  | .arrayLit elements _ _ _ => .seq (exprsFlow elements) .work
  | .structLit _ fields _ => .seq (fieldsFlow fields) .work
  | .enumConstructor _ _ args _ _ => .seq (exprsFlow args) .work
  | .arena body _ => .arena (Block.flow body)
def exprsFlow : List Expr → Flow
  | [] => .work
  | e :: es => .seq (Expr.flow e) (exprsFlow es)
def partsFlow : List InterpolatedStringPart → Flow
  | [] => .work
  | .text _ :: parts => partsFlow parts
  | .expr e :: parts => .seq (Expr.flow e) (partsFlow parts)
def fieldsFlow : List FieldInit → Flow
  | [] => .work
  | .mk _ value _ :: fields => .seq (Expr.flow value) (fieldsFlow fields)
def armsFlow : List MatchArm → Arms
  | [] => .nil
  | .mk pattern body _ :: arms => .cons pattern (Expr.flow body) (armsFlow arms)
def Block.flow : Block → Flow
  | .mk stmts tailExpr _ => stmtsFlow stmts (tailFlow tailExpr)
def tailFlow : Option Expr → Flow
  | none => .work
  | some e => .seq (Expr.flow e) .work
def stmtsFlow : List Stmt → Flow → Flow
  | [],tail => tail
  | stmt :: stmts,tail => .next (Stmt.flow stmt) (stmtsFlow stmts tail)
def accessorsFlow : List PlaceAccessor → Flow
  | [] => .work
  | .field _ :: accessors => accessorsFlow accessors
  | .index e :: accessors => .seq (Expr.flow e) (accessorsFlow accessors)
def Place.flow : Place → Flow
  | .mk _ accessors _ _ => accessorsFlow accessors
def Stmt.flow : Stmt → Flow
  | .letStmt _ _ _ value _ => .seq (Expr.flow value) .work
  | .assign target value _ => .seq (Expr.flow value) (.seq (Place.flow target) .work)
  | .compoundAssign target _ value _ => .update (Place.flow target) (Expr.flow value)
  | .expr e _ => .seq (Expr.flow e) .work
  | .whileStmt condition body _ =>
    .whileLoop (Expr.flow condition) (Block.flow body)
  | .forStmt _ start stop body _ =>
    .seq (Expr.flow start) (.seq (Expr.flow stop) (.seq .work
      (.forLoop (Block.flow body))))
  | .forIn _ iterable body _ =>
    .seq (Expr.flow iterable) (.seq .work (.forLoop (Block.flow body)))
  | .returnStmt none _ => .ret false
  | .returnStmt (some e) _ => .seq (Expr.flow e) (.ret true)
  | .deferStmt e _ => .deferred (Expr.flow e)
  | .breakStmt _ => .brk
  | .continueStmt _ => .cont
end

def isEnum : BcType → Bool
  | .enum _ => true
  | _ => false

mutual
/-- Every break and continue is bound to the loop that it is written in. The `switch` of a match on
an enum binds a break of C, the C loop of a `while` reaches over its condition, and a deferred call
is performed outside of the loop. -/
def Flow.binds (backend : Backend) (spot : Spot) : Flow → Bool
  | .work | .ret _ | .propagate => true
  | .seq a b | .next a b | .select a b | .update a b => a.binds backend spot && b.binds backend spot
  | .whileLoop condition body =>
    condition.binds backend (if backend = .c then spot.adrift else spot) && body.binds backend spot.inLoop
  | .forLoop body => body.binds backend spot.inLoop
  | .matched scrutinee arms =>
    arms.binds backend (if backend = .c ∧ isEnum scrutinee then spot.inSwitch else spot)
  | .arena body => body.binds backend spot
  | .brk => spot.breaks
  | .cont => spot.continues
  | .deferred call => call.binds backend spot.adrift
def Arms.binds (backend : Backend) (spot : Spot) : Arms → Bool
  | .nil => true
  | .cons _ body rest => body.binds backend spot && rest.binds backend spot
end

/-- The jumps of a function are bound to the loops that they are written in. -/
def BindsJumps (backend : Backend) (f : Ir.FnDef) : Prop :=
  (Block.flow f.body).binds backend ⟨0,false,false⟩ = true

end Oscan.Control
