import Oscan.Library.Grammar
import Oscan.Syntax.Program

/-! The grammar of the language over tokens, with no order in which alternatives are tried. Where the text of a phrase
could go on, a restriction on the next token says that it does not. -/
namespace Oscan.Syntax
open Library.Grammar Ast

inductive Nonterminal where
  | expr | unary | postfix_ | ifExpr | block | ty | pattern

def Nonterminal.Value : Nonterminal → Type
  | .expr | .unary | .postfix_ | .ifExpr => Expr
  | .block => Block
  | .ty => Ty
  | .pattern => Pattern

abbrev Production := Rule Token Nonterminal.Value

namespace Grammar

def phrase (s : Nonterminal) : Production s.Value := .call s

def expr : Production Expr := phrase .expr
def unary : Production Expr := phrase .unary
def postfix_ : Production Expr := phrase .postfix_
def elseIf : Production Expr := phrase .ifExpr
def block : Production Block := phrase .block
def ty : Production Ty := phrase .ty
def pattern : Production Pattern := phrase .pattern

/-! Tokens -/

def tok (kind : TokenKind) : Production Span := .token fun t => if t.kind = kind then some t.span else none

def identWith (fits : String → Bool) : Production (String × Span) := .token fun t =>
  match t.kind with
  | .ident name => if fits name then some (name,t.span) else none
  | _ => none

def ident : Production (String × Span) := identWith fun _ => true

def next (fits : TokenKind → Bool) : Production Unit :=
  .ahead fun after => if fits (kindOf after) then some () else none

/-- Where the next token is -/
def here : Production Span := .ahead fun after => some (spanOf after)

/-- Whether a token is there, which is taken then -/
def optional (kind : TokenKind) : Production Bool :=
  .either (do let _ ← tok kind; return true) (do next (· != kind); return false)

/-! Lists -/

def commaList {α : Type} (close : TokenKind) (item : Production α) : Production (List α) :=
  .either
    (do next (· == close); return [])
    (do
      let first ← item
      let more ← .many (do let _ ← tok .comma; item)
      .either (next (· != .comma)) (do let _ ← tok .comma; next (· == close))
      return first :: more)

/-- What may stand in parentheses behind a variant -/
def payload {α : Type} (item : Production α) : Production (List α) := do
  if ← optional .lParen then
    let items ← commaList .rParen item
    let _ ← tok .rParen
    return items
  else return []

def closesBrace (kind : TokenKind) : Bool := kind == .rBrace || kind == .eof

def closesParams (kind : TokenKind) : Bool := kind == .rParen || kind == .eof

/-! Types -/

def resultType (span : Span) : Production Ty := do
  let _ ← tok .lt
  let okType ← ty
  let _ ← tok .comma
  let errType ← ty
  let _ ← tok .gt
  return .result okType errType span

def arrayType : Production Ty := do
  let span ← tok .lBracket
  let elemType ← ty
  if ← optional .semicolon then
    let size ← .token fun t => match t.kind with
      | .intLit size => some size
      | _ => none
    let _ ← tok .rBracket
    return .fixedArray elemType size span
  else
    let _ ← tok .rBracket
    return .dynamicArray elemType span

def paramTypes : Production (List Ty) :=
  .either
    (do next closesParams; return [])
    (do
      let first ← ty
      let more ← .many (do let _ ← tok .comma; ty)
      next closesParams
      return first :: more)

def returnType : Production (Option Ty) := do
  if ← optional .arrow then
    let t ← ty
    return some t
  else return none

def fnPtrType (kind : TokenKind) (isPure : Bool) : Production Ty := do
  let span ← tok kind
  let _ ← tok .lParen
  let params ← paramTypes
  let _ ← tok .rParen
  let ret ← returnType
  return .fnPtr params (ret.getD (.primitive .unit span)) isPure span

def namedType : Production Ty := do
  let (name,span) ← ident
  if name = "Result" then resultType span
  else
    match primitiveType name with
    | some p => return .primitive p span
    | none => return .named name span

def anyType : Production Ty := .oneOf arrayType [fnPtrType .fn true,fnPtrType .fnBang false,namedType]

/-! Patterns -/

def plainPattern : Production Pattern := .token fun t =>
  match t.kind with
  | .underscore => some (.wildcard t.span)
  | .true_ => some (.boolLit true t.span)
  | .false_ => some (.boolLit false t.span)
  | .intLit v => some (.intLit v t.span)
  | .floatLit v => some (.floatLit v t.span)
  | .stringLit s => some (.stringLit s t.span)
  | _ => none

def negativePattern : Production Pattern := do
  let _ ← tok .minus
  .token fun t => match t.kind with
    | .intLit v => some (.intLit (-v) t.span)
    | .floatLit v => some (.floatLit v.neg t.span)
    | _ => none

def enumPattern : Production Pattern := do
  let (enumName,span) ← ident
  let _ ← tok .colonColon
  let (variant,_) ← ident
  let bindings ← payload pattern
  return .enum enumName variant bindings span

def identPattern : Production Pattern := do
  let (name,span) ← ident
  next (· != .colonColon)
  return .ident name span

def namedPattern : Production Pattern := .either enumPattern identPattern

def anyPattern : Production Pattern := .oneOf plainPattern [negativePattern,namedPattern]

/-! Expressions -/

def literal : Production Expr := .token fun t =>
  match t.kind with
  | .intLit v => some (.intLit v t.span)
  | .floatLit v => some (.floatLit v t.span)
  | .stringLit s => some (.stringLit s t.span)
  | .true_ => some (.boolLit true t.span)
  | .false_ => some (.boolLit false t.span)
  | _ => none

/-- A hole and the text behind it, of a token that goes on with a hole or of one that ends the string -/
def hole (text : TokenKind → Option String) : Production (List InterpolatedStringPart) := do
  let e ← expr
  let behind ← .token fun t => text t.kind
  return .expr e :: textPart behind

def middleText : TokenKind → Option String
  | .interpStringMiddle text => some text
  | _ => none

def endText : TokenKind → Option String
  | .interpStringEnd text => some text
  | _ => none

def interpolatedString : Production Expr := do
  let (startText,span) ← .token fun t => match t.kind with
    | .interpStringStart text => some (text,t.span)
    | _ => none
  let holes ← .many (hole middleText)
  let last ← hole endText
  return .interpolatedString (holes.foldl (· ++ ·) (textPart startText) ++ last) span

def elseBranch : Production (Option Expr) := do
  if ← optional .else_ then
    .either (do let e ← elseIf; return some e) (do let b ← block; return some (.block b))
  else return none

def ifExpr : Production Expr := do
  let span ← tok .if_
  let condition ← expr
  let thenBlock ← block
  let elseBranch ← elseBranch
  return .ifExpr condition thenBlock elseBranch span

def matchArm : Production MatchArm := do
  let span ← here
  let pattern ← pattern
  let _ ← tok .fatArrow
  let body ← expr
  let _ ← tok .comma
  return .mk pattern body span

def matchExpr : Production Expr := do
  let span ← tok .match_
  let scrutinee ← expr
  let _ ← tok .lBrace
  let arms ← .many matchArm
  next closesBrace
  let _ ← tok .rBrace
  return .matchExpr scrutinee arms span

def tryExpr : Production Expr := do
  let span ← tok .try_
  let call ← postfix_
  return .tryExpr call span

def arrayLiteral : Production Expr := do
  let span ← tok .lBracket
  let elements ← commaList .rBracket expr
  let _ ← tok .rBracket
  return .arrayLit elements span

def parenthesized : Production Expr := do
  let _ ← tok .lParen
  let e ← expr
  let _ ← tok .rParen
  return e

def arenaExpr : Production Expr := do
  let span ← tok .arena
  let body ← block
  return .arena body span

def enumConstructor : Production Expr := do
  let (enumName,span) ← ident
  let _ ← tok .colonColon
  let (variant,_) ← ident
  let args ← payload expr
  return .enumConstructor enumName variant args span

def fieldInit : Production FieldInit := do
  let (name,span) ← ident
  let _ ← tok .colon
  let value ← expr
  return .mk name value span

section
-- The names of types, which tell a literal of a struct from a name before a block.
variable (names : List String)

def structLiteral : Production Expr := do
  let (name,span) ← identWith names.contains
  let _ ← tok .lBrace
  let fields ← commaList .rBrace fieldInit
  let _ ← tok .rBrace
  return .structLit name fields span

def name : Production Expr := do
  let (name,span) ← ident
  next fun kind => kind != .colonColon && !(kind == .lBrace && names.contains name)
  return .ident name span

def namedExpr : Production Expr := .oneOf enumConstructor [structLiteral names,name names]

def blockExpr : Production Expr := do
  let b ← block
  return .block b

def primaryExpr : Production Expr :=
  .oneOf literal [interpolatedString,ifExpr,matchExpr,tryExpr,blockExpr,arrayLiteral,parenthesized,arenaExpr,
    namedExpr names]

def callSuffix : Production (Expr → Expr) := do
  let _ ← tok .lParen
  let args ← commaList .rParen expr
  let _ ← tok .rParen
  return fun e => .call e args e.span

def indexSuffix : Production (Expr → Expr) := do
  let _ ← tok .lBracket
  let index ← expr
  let _ ← tok .rBracket
  return fun e => .index e index e.span

def fieldSuffix : Production (Expr → Expr) := do
  let _ ← tok .dot
  let (field,_) ← ident
  return fun e => .fieldAccess e field e.span

def suffix : Production (Expr → Expr) := .oneOf callSuffix [indexSuffix,fieldSuffix]

def beginsSuffix : TokenKind → Bool
  | .lParen | .lBracket | .dot => true
  | _ => false

def postfixExpr : Production Expr := do
  let e ← primaryExpr names
  let suffixes ← .many suffix
  next fun kind => !beginsSuffix kind
  return suffixes.foldl (fun e suffix => suffix e) e

def castExpr : Production Expr := do
  let e ← postfixExpr names
  let span ← here
  if ← optional .as_ then
    let t ← ty
    return .cast e t span
  else return e

def prefixed (kind : TokenKind) (op : UnaryOp) : Production Expr := do
  let span ← tok kind
  let operand ← unary
  return .unaryOp op operand span

def unaryExpr : Production Expr := .oneOf (prefixed .not_ .not) [prefixed .minus .neg,castExpr names]

end

def operator (opOf : TokenKind → Option BinOp) : Production (BinOp × Span) :=
  .token fun t => (opOf t.kind).map fun op => (op,t.span)

def noOperator (opOf : TokenKind → Option BinOp) : Production Unit := next fun kind => (opOf kind).isNone

/-- Operators that associate to the left -/
def level (opOf : TokenKind → Option BinOp) (operand : Production Expr) : Production Expr := do
  let left ← operand
  let more ← .many (do
    let (op,span) ← operator opOf
    let right ← operand
    return (op,right,span))
  noOperator opOf
  return more.foldl (fun left (op,right,span) => .binaryOp op left right span) left

/-- Operators that do not associate -/
def once (opOf : TokenKind → Option BinOp) (operand : Production Expr) : Production Expr := do
  let left ← operand
  .either
    (do
      let (op,span) ← operator opOf
      let right ← operand
      return .binaryOp op left right span)
    (do noOperator opOf; return left)

section
variable (names : List String)

def multExpr : Production Expr := level multOp (unaryExpr names)
def additiveExpr : Production Expr := level additiveOp (multExpr names)
def relationalExpr : Production Expr := once relationalOp (additiveExpr names)
def equalityExpr : Production Expr := once equalityOp (relationalExpr names)
def andExpr : Production Expr := level andOp (equalityExpr names)
def orExpr : Production Expr := level orOp (andExpr names)

end

/-! Statements -/

def letStmt : Production Stmt := do
  let span ← tok .let_
  let isMut ← optional .mut_
  let (name,_) ← ident
  let _ ← tok .colon
  let t ← ty
  let _ ← tok .eq
  let value ← expr
  let _ ← tok .semicolon
  return .letStmt name isMut t value span

def accessor : Production PlaceAccessor :=
  .either
    (do
      let _ ← tok .dot
      let (field,_) ← ident
      return .field field)
    (do
      let _ ← tok .lBracket
      let index ← expr
      let _ ← tok .rBracket
      return .index index)

def place : Production Place := do
  let (name,span) ← ident
  let accessors ← .many accessor
  next fun kind => kind != .dot && kind != .lBracket
  return .mk name accessors span

def assignStmt : Production Stmt := do
  let span ← here
  let target ← place
  .either
    (do
      let op ← .token fun t => compoundOp t.kind
      let value ← expr
      let _ ← tok .semicolon
      return .compoundAssign target op value span)
    (do
      let _ ← tok .eq
      let value ← expr
      let _ ← tok .semicolon
      return .assign target value span)

def whileStmt : Production Stmt := do
  let span ← tok .while_
  let condition ← expr
  let body ← block
  let _ ← optional .semicolon
  return .whileStmt condition body span

def forStmt : Production Stmt := do
  let span ← tok .for_
  let (var,_) ← ident
  let _ ← tok .in_
  let start ← expr
  if ← optional .dotDot then
    let stop ← expr
    let body ← block
    let _ ← optional .semicolon
    return .forStmt var start stop body span
  else
    let body ← block
    let _ ← optional .semicolon
    return .forIn var start body span

def returnStmt : Production Stmt := do
  let span ← tok .return_
  .either
    (do let _ ← tok .semicolon; return .returnStmt none span)
    (do
      let value ← expr
      let _ ← tok .semicolon
      return .returnStmt (some value) span)

def deferStmt : Production Stmt := do
  let span ← tok .defer_
  let e ← expr
  let _ ← tok .semicolon
  return .deferStmt e span

def jump (kind : TokenKind) (stmt : Span → Stmt) : Production Stmt := do
  let span ← tok kind
  let _ ← tok .semicolon
  return stmt span

def exprStmt : Production Stmt := do
  let e ← expr
  let _ ← tok .semicolon
  return .expr e e.span

def keywordStmt : Production Stmt :=
  .oneOf letStmt [whileStmt,forStmt,returnStmt,deferStmt,jump .break_ .breakStmt,jump .continue_ .continueStmt]

def stmt : Production Stmt := .oneOf keywordStmt [assignStmt,exprStmt]

def anyBlock : Production Block := do
  let span ← tok .lBrace
  let stmts ← .many stmt
  let tailExpr ← .either
    (do let e ← expr; next (· == .rBrace); return some e)
    (do next closesBrace; return none)
  let _ ← tok .rBrace
  return .mk stmts tailExpr span

end Grammar

/-- The productions, for these names of types -/
def grammar (names : List String) : (s : Nonterminal) → Production s.Value
  | .expr => Grammar.orExpr names
  | .unary => Grammar.unaryExpr names
  | .postfix_ => Grammar.postfixExpr names
  | .ifExpr => Grammar.ifExpr
  | .block => Grammar.anyBlock
  | .ty => Grammar.anyType
  | .pattern => Grammar.anyPattern

namespace Grammar

/-! Declarations -/

def typed : Production (String × Ty × Span) := do
  let (name,span) ← ident
  let _ ← tok .colon
  let t ← ty
  return (name,t,span)

def param : Production Param := do
  let (name,t,span) ← typed
  return ⟨name,t,span⟩

def field : Production Field := do
  let (name,t,span) ← typed
  return ⟨name,t,span⟩

def signature : Production (String × List Param × Option Ty) := do
  let (name,_) ← ident
  let _ ← tok .lParen
  let params ← commaList .rParen param
  let _ ← tok .rParen
  let ret ← returnType
  return (name,params,ret)

def fnDecl (kind : TokenKind) (isPure : Bool) : Production FnDecl := do
  let span ← tok kind
  let (name,params,ret) ← signature
  let body ← block
  return ⟨name,params,ret,body,isPure,span⟩

def structDecl : Production StructDecl := do
  let span ← tok .struct
  let (name,_) ← ident
  let _ ← tok .lBrace
  let fields ← commaList .rBrace field
  let _ ← tok .rBrace
  return ⟨name,fields,span⟩

def variant : Production Variant := do
  let (name,span) ← ident
  let payloadTypes ← payload ty
  return ⟨name,payloadTypes,span⟩

def enumDecl : Production EnumDecl := do
  let span ← tok .enum
  let (name,_) ← ident
  let _ ← tok .lBrace
  let variants ← commaList .rBrace variant
  let _ ← tok .rBrace
  return ⟨name,variants,span⟩

def topLetDecl : Production LetDecl := do
  let span ← tok .let_
  let (name,_) ← ident
  let _ ← tok .colon
  let t ← ty
  let _ ← tok .eq
  let value ← expr
  let _ ← tok .semicolon
  return ⟨name,t,value,span⟩

def externFnDecl : Production ExternFnDecl := do
  let span ← tok .fnBang
  let (name,params,ret) ← signature
  let _ ← tok .semicolon
  return ⟨name,params,ret,span⟩

def externBlock : Production ExternBlock := do
  let span ← tok .extern_
  let _ ← tok .lBrace
  let decls ← .many externFnDecl
  next closesBrace
  let _ ← tok .rBrace
  return ⟨decls,span⟩

def useDecl : Production TopDecl := do
  let _ ← tok .use_
  let path ← .token fun t => match t.kind with
    | .stringLit path => some path
    | _ => none
  if ← optional .as_ then
    let (name,_) ← ident
    return .useDecl path (some name)
  else return .useDecl path none

def topDecl : Production TopDecl :=
  .oneOf (do let decl ← fnDecl .fn true; return .fn decl)
    [do let decl ← fnDecl .fnBang false; return .fn decl,
    do let decl ← structDecl; return .struct decl,
    do let decl ← enumDecl; return .enum decl,
    do let decl ← topLetDecl; return .letDecl decl,
    do let decls ← externBlock; return .externBlock decls,
    useDecl]

def program : Production Program := do
  let decls ← .many topDecl
  next (· == .eof)
  return ⟨decls⟩

end Grammar

end Oscan.Syntax
