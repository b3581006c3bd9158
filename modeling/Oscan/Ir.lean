import Oscan.Ast

/-! The typed IR. Every expression carries its resolved type; calls are pre-resolved. -/
namespace Oscan.Ir

inductive IdentKind where
  | value | fnRef
deriving DecidableEq

inductive Callee where
  | named (name : String)
  | var (name : String)
  | collection (intrinsic : CollectionIntrinsic)
deriving DecidableEq

mutual
inductive Expr where
  | intLit (value : Int) (span : Span)
  | floatLit (value : Binary64) (span : Span)
  | stringLit (value : String) (span : Span)
  | interpolatedString (parts : List InterpolatedStringPart) (span : Span)
  | boolLit (value : Bool) (span : Span)
  | ident (name : String) (kind : IdentKind) (ty : BcType) (span : Span)
  | binaryOp (op : BinOp) (left right : Expr) (ty : BcType) (span : Span)
  | unaryOp (op : UnaryOp) (operand : Expr) (ty : BcType) (span : Span)
  | cast (expr : Expr) (toTy : BcType) (span : Span)
  | call (callee : Callee) (args : List Expr) (ty : BcType) (span : Span)
  | fieldAccess (expr : Expr) (field : String) (ty : BcType) (span : Span)
  | index (expr index : Expr) (ty : BcType) (span : Span)
  | block (block : Block)
  | ifExpr (condition : Expr) (thenBlock : Block) (elseBranch : Option Expr) (ty : BcType)
      (span : Span)
  | matchExpr (scrutinee : Expr) (arms : List MatchArm) (ty : BcType) (span : Span)
  | tryExpr (call : Expr) (ty : BcType) (span : Span)
  | arrayLit (elements : List Expr) (elemTy ty : BcType) (span : Span)
  | structLit (name : String) (fields : List FieldInit) (span : Span)
  | enumConstructor (enumName variant : String) (args : List Expr) (ty : BcType) (span : Span)
  | arena (body : Block) (span : Span)
inductive InterpolatedStringPart where
  | text (text : String)
  | expr (expr : Expr)
inductive FieldInit where
  | mk (name : String) (value : Expr) (span : Span)
inductive MatchArm where
  | mk (pattern : Pattern) (body : Expr) (span : Span)
inductive Block where
  | mk (stmts : List Stmt) (tailExpr : Option Expr) (span : Span)
inductive Stmt where
  | letStmt (name : String) (isMut : Bool) (ty : BcType) (value : Expr) (span : Span)
  | assign (target : Place) (value : Expr) (span : Span)
  | compoundAssign (target : Place) (op : BinOp) (value : Expr) (span : Span)
  | expr (expr : Expr) (span : Span)
  | whileStmt (condition : Expr) (body : Block) (span : Span)
  | forStmt (var : String) (start stop : Expr) (body : Block) (span : Span)
  | forIn (var : String) (iterable : Expr) (body : Block) (span : Span)
  | returnStmt (value : Option Expr) (span : Span)
  | deferStmt (expr : Expr) (span : Span)
  | breakStmt (span : Span)
  | continueStmt (span : Span)
inductive Place where
  | mk (name : String) (accessors : List PlaceAccessor) (baseTy : BcType) (span : Span)
inductive PlaceAccessor where
  | field (name : String)
  | index (expr : Expr)
end

instance : Inhabited Expr := ⟨.boolLit false default⟩

mutual
def Expr.ty : Expr → BcType
  | .intLit .. => .i32
  | .floatLit .. => .f64
  | .stringLit .. => .str
  | .interpolatedString .. => .str
  | .boolLit .. => .bool
  | .ident _ _ ty _ | .binaryOp _ _ _ ty _ | .unaryOp _ _ ty _ | .call _ _ ty _
  | .fieldAccess _ _ ty _ | .index _ _ ty _ | .ifExpr _ _ _ ty _ | .matchExpr _ _ ty _
  | .tryExpr _ ty _ | .arrayLit _ _ ty _ | .enumConstructor _ _ _ ty _ => ty
  | .cast _ toTy _ => toTy
  | .block b => b.ty
  | .structLit name _ _ => .struct name
  | .arena body _ => body.ty
def Block.ty : Block → BcType
  | .mk _ tailExpr _ => tailTy tailExpr
def tailTy : Option Expr → BcType
  | some e => e.ty
  | none => .unit
end

def Block.span : Block → Span
  | .mk _ _ s => s

def MatchArm.body : MatchArm → Expr
  | .mk _ body _ => body

def Stmt.span : Stmt → Span
  | .letStmt _ _ _ _ s | .assign _ _ s | .compoundAssign _ _ _ s | .expr _ s
  | .whileStmt _ _ s | .forStmt _ _ _ _ s | .forIn _ _ _ s | .returnStmt _ s
  | .deferStmt _ s | .breakStmt s | .continueStmt s => s

def Expr.span : Expr → Span
  | .intLit _ s | .floatLit _ s | .stringLit _ s | .boolLit _ s | .interpolatedString _ s
  | .ident _ _ _ s | .binaryOp _ _ _ _ s | .unaryOp _ _ _ s | .cast _ _ s | .call _ _ _ s
  | .fieldAccess _ _ _ s | .index _ _ _ s | .ifExpr _ _ _ _ s | .matchExpr _ _ _ s
  | .tryExpr _ _ s | .arrayLit _ _ _ s | .structLit _ _ s | .enumConstructor _ _ _ _ s
  | .arena _ s => s
  | .block b => b.span

mutual
/-- The cached types of an expression and of everything inside it, in post-order; the
index expressions of a place come before the assigned value. -/
def Expr.types : Expr → List BcType
  | .intLit .. => [.i32]
  | .floatLit .. => [.f64]
  | .stringLit .. => [.str]
  | .boolLit .. => [.bool]
  | .ident _ _ ty _ => [ty]
  | .interpolatedString parts _ => partsTypes parts ++ [.str]
  | .binaryOp _ left right ty _ => left.types ++ right.types ++ [ty]
  | .unaryOp _ operand ty _ => operand.types ++ [ty]
  | .cast e toTy _ => e.types ++ [toTy]
  | .call _ args ty _ => exprsTypes args ++ [ty]
  | .fieldAccess e _ ty _ => e.types ++ [ty]
  | .index e index ty _ => e.types ++ index.types ++ [ty]
  | .block b => b.types ++ [b.ty]
  | .ifExpr condition thenBlock elseBranch ty _ =>
    condition.types ++ thenBlock.types ++ tailTypes elseBranch ++ [ty]
  | .matchExpr scrutinee arms ty _ => scrutinee.types ++ armsTypes arms ++ [ty]
  | .tryExpr call ty _ => call.types ++ [ty]
  | .arrayLit elements _ ty _ => exprsTypes elements ++ [ty]
  | .structLit name fields _ => fieldsTypes fields ++ [.struct name]
  | .enumConstructor _ _ args ty _ => exprsTypes args ++ [ty]
  | .arena body _ => body.types ++ [body.ty]
def exprsTypes : List Expr → List BcType
  | [] => []
  | e :: es => e.types ++ exprsTypes es
def partsTypes : List InterpolatedStringPart → List BcType
  | [] => []
  | .text _ :: parts => partsTypes parts
  | .expr e :: parts => e.types ++ partsTypes parts
def fieldsTypes : List FieldInit → List BcType
  | [] => []
  | .mk _ value _ :: fields => value.types ++ fieldsTypes fields
def armsTypes : List MatchArm → List BcType
  | [] => []
  | .mk _ body _ :: arms => body.types ++ armsTypes arms
def Block.types : Block → List BcType
  | .mk stmts tailExpr _ => stmtsTypes stmts ++ tailTypes tailExpr
def tailTypes : Option Expr → List BcType
  | none => []
  | some e => e.types
def stmtsTypes : List Stmt → List BcType
  | [] => []
  | stmt :: stmts => stmt.types ++ stmtsTypes stmts
def accessorsTypes : List PlaceAccessor → List BcType
  | [] => []
  | .field _ :: accessors => accessorsTypes accessors
  | .index e :: accessors => e.types ++ accessorsTypes accessors
def Place.types : Place → List BcType
  | .mk _ accessors _ _ => accessorsTypes accessors
def Stmt.types : Stmt → List BcType
  | .letStmt _ _ _ value _ => value.types
  | .assign target value _ => target.types ++ value.types
  | .compoundAssign target _ value _ => target.types ++ value.types
  | .expr e _ => e.types
  | .whileStmt condition body _ => condition.types ++ body.types
  | .forStmt _ start stop body _ => start.types ++ stop.types ++ body.types
  | .forIn _ iterable body _ => iterable.types ++ body.types
  | .returnStmt value _ => tailTypes value
  | .deferStmt e _ => e.types
  | .breakStmt _ | .continueStmt _ => []
end

attribute [local simp] Expr.types exprsTypes partsTypes fieldsTypes armsTypes Block.types tailTypes
  stmtsTypes accessorsTypes Place.types Stmt.types Expr.ty Block.ty tailTy

structure StructDef where
  name : String
  fields : List (String × BcType)
  span : Span

structure EnumDef where
  name : String
  variants : List (String × List BcType)
  span : Span

structure ExternFnDef where
  name : String
  params : List (String × BcType)
  returnType : BcType
  span : Span

structure ExternBlock where
  decls : List ExternFnDef
  span : Span

structure ConstDef where
  name : String
  ty : BcType
  value : Expr
  span : Span

structure FnDef where
  name : String
  params : List (String × BcType)
  returnType : BcType
  body : Block
  isPure : Bool
  span : Span

structure Program where
  structs : List (String × StructInfo)
  enums : List (String × EnumInfo)
  functions : List (String × FunctionInfo)
  constants : List (String × ConstInfo)
  structDefs : List StructDef
  enumDefs : List EnumDef
  externBlocks : List ExternBlock
  constDefs : List ConstDef
  fnDefs : List FnDef

def Program.typeLog (program : Program) : TypeLog :=
  ⟨program.constDefs.map (·.value.types),program.fnDefs.map (·.body.types)⟩

end Oscan.Ir
