import Oscan.Collection
import Oscan.Library.Binary64

/-! The abstract syntax that the parser produces, before name resolution. -/
namespace Oscan

structure Span where
  line : Nat
  column : Nat
deriving DecidableEq,Inhabited

inductive BinOp where
  | add | sub | mul | div | mod | eq | neq | lt | gt | ltEq | gtEq | and | or
deriving DecidableEq

instance : ToString BinOp := ⟨fun
  | .add => "Add" | .sub => "Sub" | .mul => "Mul" | .div => "Div" | .mod => "Mod"
  | .eq => "Eq" | .neq => "Neq" | .lt => "Lt" | .gt => "Gt" | .ltEq => "LtEq"
  | .gtEq => "GtEq" | .and => "And" | .or => "Or"⟩

inductive UnaryOp where
  | neg | not
deriving DecidableEq

instance : ToString UnaryOp := ⟨fun
  | .neg => "Neg" | .not => "Not"⟩

/-- Match patterns are the same in the syntax tree and in the typed IR. -/
inductive Pattern where
  | wildcard (span : Span)
  | ident (name : String) (span : Span)
  | intLit (value : Int) (span : Span)
  | floatLit (value : Binary64) (span : Span)
  | stringLit (value : String) (span : Span)
  | boolLit (value : Bool) (span : Span)
  | enum (enumName variant : String) (bindings : List Pattern) (span : Span)

namespace Ast

inductive PrimitiveType where
  | i32 | i64 | f64 | bool | str | unit | handle
  | map | mapStrI32 | mapStrI64 | mapStrF64 | mapI32Str | mapI32I32
deriving DecidableEq

inductive Ty where
  | primitive (p : PrimitiveType) (span : Span)
  | fixedArray (elem : Ty) (size : Int) (span : Span)
  | dynamicArray (elem : Ty) (span : Span)
  | result (ok err : Ty) (span : Span)
  | named (name : String) (span : Span)
  | fnPtr (params : List Ty) (ret : Ty) (isPure : Bool) (span : Span)

def Ty.span : Ty → Span
  | .primitive _ s | .fixedArray _ _ s | .dynamicArray _ s | .result _ _ s
  | .named _ s | .fnPtr _ _ _ s => s

mutual
inductive Expr where
  | intLit (value : Int) (span : Span)
  | floatLit (value : Binary64) (span : Span)
  | stringLit (value : String) (span : Span)
  | interpolatedString (parts : List InterpolatedStringPart) (span : Span)
  | boolLit (value : Bool) (span : Span)
  | ident (name : String) (span : Span)
  | binaryOp (op : BinOp) (left right : Expr) (span : Span)
  | unaryOp (op : UnaryOp) (operand : Expr) (span : Span)
  | cast (expr : Expr) (ty : Ty) (span : Span)
  | call (callee : Expr) (args : List Expr) (span : Span)
  | fieldAccess (expr : Expr) (field : String) (span : Span)
  | index (expr index : Expr) (span : Span)
  | block (block : Block)
  | ifExpr (condition : Expr) (thenBlock : Block) (elseBranch : Option Expr) (span : Span)
  | matchExpr (scrutinee : Expr) (arms : List MatchArm) (span : Span)
  | tryExpr (call : Expr) (span : Span)
  | arrayLit (elements : List Expr) (span : Span)
  | structLit (name : String) (fields : List FieldInit) (span : Span)
  | enumConstructor (enumName variant : String) (args : List Expr) (span : Span)
  | arena (body : Block) (span : Span)
inductive InterpolatedStringPart where
  | text (text : String)
  | expr (expr : Expr)
inductive FieldInit where
  | mk (name : String) (value : Expr) (span : Span)
inductive MatchArm where
  | mk (pattern : Pattern) (body : Expr) (span : Span)
inductive Block where
  | mk (stmts : List Stmt) (tailExpr : Option Expr) (span : Span)
inductive Stmt where
  | letStmt (name : String) (isMut : Bool) (ty : Ty) (value : Expr) (span : Span)
  | assign (target : Place) (value : Expr) (span : Span)
  | compoundAssign (target : Place) (op : BinOp) (value : Expr) (span : Span)
  | expr (expr : Expr) (span : Span)
  | whileStmt (condition : Expr) (body : Block) (span : Span)
  | forStmt (var : String) (start stop : Expr) (body : Block) (span : Span)
  | forIn (var : String) (iterable : Expr) (body : Block) (span : Span)
  | returnStmt (value : Option Expr) (span : Span)
  | deferStmt (expr : Expr) (span : Span)
  | breakStmt (span : Span)
  | continueStmt (span : Span)
inductive Place where
  | mk (name : String) (accessors : List PlaceAccessor) (span : Span)
inductive PlaceAccessor where
  | field (name : String)
  | index (expr : Expr)
end

def Block.span : Block → Span
  | .mk _ _ s => s

def Block.stmts : Block → List Stmt
  | .mk stmts _ _ => stmts

def Block.tailExpr : Block → Option Expr
  | .mk _ tail _ => tail

def MatchArm.pattern : MatchArm → Pattern
  | .mk pattern _ _ => pattern

def MatchArm.span : MatchArm → Span
  | .mk _ _ s => s

def Place.name : Place → String
  | .mk name _ _ => name

def Place.accessors : Place → List PlaceAccessor
  | .mk _ accessors _ => accessors

def Expr.span : Expr → Span
  | .intLit _ s | .floatLit _ s | .stringLit _ s | .boolLit _ s | .ident _ s
  | .binaryOp _ _ _ s | .unaryOp _ _ s | .cast _ _ s | .call _ _ s | .fieldAccess _ _ s
  | .index _ _ s | .interpolatedString _ s | .ifExpr _ _ _ s | .matchExpr _ _ s
  | .tryExpr _ s | .arrayLit _ s | .structLit _ _ s | .enumConstructor _ _ _ s
  | .arena _ s => s
  | .block b => b.span

structure Param where
  name : String
  ty : Ty
  span : Span

structure FnDecl where
  name : String
  params : List Param
  returnType : Option Ty
  body : Block
  isPure : Bool
  span : Span

structure Field where
  name : String
  ty : Ty
  span : Span

structure StructDecl where
  name : String
  fields : List Field
  span : Span

structure Variant where
  name : String
  payloadTypes : List Ty
  span : Span

structure EnumDecl where
  name : String
  variants : List Variant
  span : Span

structure LetDecl where
  name : String
  ty : Ty
  value : Expr
  span : Span

structure ExternFnDecl where
  name : String
  params : List Param
  returnType : Option Ty
  span : Span

structure ExternBlock where
  decls : List ExternFnDecl
  span : Span

inductive TopDecl where
  | fn (decl : FnDecl)
  | struct (decl : StructDecl)
  | enum (decl : EnumDecl)
  | letDecl (decl : LetDecl)
  | externBlock (block : ExternBlock)
  | useDecl (path : String) (asName : Option String)

structure Program where
  decls : List TopDecl

end Ast
end Oscan
