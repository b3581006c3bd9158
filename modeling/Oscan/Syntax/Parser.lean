import Oscan.Library.Parsing
import Oscan.Syntax.Token

/-! The parser: recursive descent with one token of lookahead, and a scan ahead where a statement may be an
assignment. -/
namespace Oscan.Syntax
open Library.Parsing Ast

abbrev Parse := Parser Token CompileError

/-- The parsers that others call again, at one depth of the recursion; `names` are the type names that have been
collected, and `rounds` is how often a loop may go round. -/
structure Parsers where
  names : List String
  shown : Binary64 → String
  rounds : Nat
  expr : Parse Expr
  unary : Parse Expr
  postfix_ : Parse Expr
  ifExpr : Parse Expr
  block : Parse Block
  ty : Parse Ty
  pattern : Parse Pattern

/-- Past the end there is nothing but the end. -/
def kindOf : List Token → TokenKind
  | [] => .eof
  | t :: _ => t.kind

def spanOf : List Token → Span
  | [] => ⟨0,0⟩
  | t :: _ => t.span

def peek : Parse TokenKind := do
  let rest ← look
  pure (kindOf rest)

def peekSpan : Parse Span := do
  let rest ← look
  pure (spanOf rest)

def peekAhead (offset : Nat) : Parse TokenKind := do
  let rest ← look
  pure (kindOf (rest.drop offset))

variable (self : Parsers)

/-- An error at the next token, which the message names -/
def failFound {α : Type} (expected : String) : Parse α := do
  let rest ← look
  fail ⟨spanOf rest,s!"expected {expected}, found '{(kindOf rest).display self.shown}'"⟩

def expect (kind : TokenKind) : Parse Span := do
  let rest ← look
  if kindOf rest = kind then do
    let _ ← advance
    pure (spanOf rest)
  else failFound self s!"'{kind.display self.shown}'"

def expectIdent : Parse (String × Span) := do
  let rest ← look
  match kindOf rest with
  | .ident name => do
    let _ ← advance
    pure (name,spanOf rest)
  | _ => failFound self "identifier"

/-- `if self.at(kind) { self.advance(); … }` -/
def accept (kind : TokenKind) : Parse Bool := do
  let found ← peek
  if found = kind then do
    let _ ← advance
    pure true
  else pure false

/-- Takes the token that has been looked at -/
def taking {α : Type} (value : α) : Parse α := do
  let _ ← advance
  pure value

/-- Items between commas, up to a closing token that is not taken; a comma may stand before it. -/
def listUntil {α : Type} (close : TokenKind) (item : Parse α) : Parse (List α) := do
  let found ← peek
  if found = close then pure []
  else do
    let first ← item
    iterate (fun items => do
      if ← accept .comma then do
        let found ← peek
        if found = close then pure (.stop items)
        else do
          let next ← item
          pure (.again (items ++ [next]))
      else pure (.stop items)) self.rounds [first]

def primitiveType : String → Option PrimitiveType
  | "i32" => some .i32
  | "i64" => some .i64
  | "f64" => some .f64
  | "bool" => some .bool
  | "str" => some .str
  | "unit" => some .unit
  | "handle" => some .handle
  | "map" => some .map
  | "map_str_i32" => some .mapStrI32
  | "map_str_i64" => some .mapStrI64
  | "map_str_f64" => some .mapStrF64
  | "map_i32_str" => some .mapI32Str
  | "map_i32_i32" => some .mapI32I32
  | _ => none

def parseResultType (span : Span) : Parse Ty := do
  let _ ← expect self .lt
  let okType ← self.ty
  let _ ← expect self .comma
  let errType ← self.ty
  let _ ← expect self .gt
  pure (.result okType errType span)

def parseArraySize (elemType : Ty) (span : Span) : Parse Ty := do
  let rest ← look
  match kindOf rest with
  | .intLit size => do
    let _ ← advance
    let _ ← expect self .rBracket
    pure (.fixedArray elemType size span)
  | _ => failFound self "integer literal for array size"

def parseArrayType : Parse Ty := do
  let span ← peekSpan
  let _ ← expect self .lBracket
  let elemType ← self.ty
  if ← accept .semicolon then parseArraySize self elemType span
  else do
    let _ ← expect self .rBracket
    pure (.dynamicArray elemType span)

/-- The types of the parameters; no comma may stand behind the last. -/
def parseParamTypes : Parse (List Ty) :=
  iterate (fun types => do
    let found ← peek
    if found = .rParen ∨ found = .eof then pure (.stop types)
    else do
      if types.isEmpty then pure () else do
        let _ ← expect self .comma
      let next ← self.ty
      pure (.again (types ++ [next]))) self.rounds []

def parseReturnType : Parse (Option Ty) := do
  if ← accept .arrow then do
    let ty ← self.ty
    pure (some ty)
  else pure none

def parseFnPtrType (isPure : Bool) : Parse Ty := do
  let span ← peekSpan
  let _ ← advance
  let _ ← expect self .lParen
  let params ← parseParamTypes self
  let _ ← expect self .rParen
  let ret ← parseReturnType self
  pure (.fnPtr params (ret.getD (.primitive .unit span)) isPure span)

def parseType : Parse Ty := do
  let rest ← look
  match kindOf rest with
  | .lBracket => parseArrayType self
  | .fn => parseFnPtrType self true
  | .fnBang => parseFnPtrType self false
  | .ident name => do
    let _ ← advance
    if name = "Result" then parseResultType self (spanOf rest)
    else
      match primitiveType name with
      | some p => pure (.primitive p (spanOf rest))
      | none => pure (.named name (spanOf rest))
  | _ => failFound self "type"

def parseEnumPattern : Parse Pattern := do
  let span ← peekSpan
  let (enumName,_) ← expectIdent self
  let _ ← expect self .colonColon
  let (variant,_) ← expectIdent self
  if ← accept .lParen then do
    let bindings ← listUntil self .rParen self.pattern
    let _ ← expect self .rParen
    pure (.enum enumName variant bindings span)
  else pure (.enum enumName variant [] span)

/-- What stands behind a minus sign in a pattern -/
def parseNegative : Parse Pattern := do
  let rest ← look
  match kindOf rest with
  | .intLit v => taking (.intLit (-v) (spanOf rest))
  | .floatLit v => taking (.floatLit v.neg (spanOf rest))
  | _ => failFound self "numeric literal after '-' in pattern"

def parsePattern : Parse Pattern := do
  let rest ← look
  let span := spanOf rest
  match kindOf rest with
  | .underscore => taking (.wildcard span)
  | .true_ => taking (.boolLit true span)
  | .false_ => taking (.boolLit false span)
  | .intLit v => taking (.intLit v span)
  | .floatLit v => taking (.floatLit v span)
  | .stringLit s => taking (.stringLit s span)
  | .ident name => if kindOf (rest.drop 1) = .colonColon then parseEnumPattern self else taking (.ident name span)
  | .minus => do
    let _ ← advance
    parseNegative self
  | _ => failFound self "pattern"

def parseArgList : Parse (List Expr) := listUntil self .rParen self.expr

/-- What may follow a primary expression: calls, indices and fields -/
def parsePostfixes (expr : Expr) : Parse Expr :=
  iterate (fun expr => do
    let found ← peek
    match found with
    | .lParen => do
      let _ ← advance
      let args ← parseArgList self
      let _ ← expect self .rParen
      pure (.again (.call expr args expr.span))
    | .lBracket => do
      let _ ← advance
      let index ← self.expr
      let _ ← expect self .rBracket
      pure (.again (.index expr index expr.span))
    | .dot => do
      let _ ← advance
      let (field,_) ← expectIdent self
      pure (.again (.fieldAccess expr field expr.span))
    | _ => pure (.stop expr)) self.rounds expr

/-- A text of a string, which is no part when it is empty -/
def textPart (text : String) : List InterpolatedStringPart := if text.isEmpty then [] else [.text text]

def parseInterpolatedStringExpr (startText : String) (span : Span) : Parse Expr := do
  let parts ← iterate (fun parts => do
    let expr ← self.expr
    let parts := parts ++ [.expr expr]
    let rest ← look
    match kindOf rest with
    | .interpStringMiddle text => taking (.again (parts ++ textPart text))
    | .interpStringEnd text => taking (.stop (parts ++ textPart text))
    | _ => fail ⟨spanOf rest,"unterminated interpolated string"⟩) self.rounds (textPart startText)
  pure (.interpolatedString parts span)

def parseElse : Parse (Option Expr) := do
  if ← accept .else_ then do
    let found ← peek
    if found = .if_ then do
      let e ← self.ifExpr
      pure (some e)
    else do
      let block ← self.block
      pure (some (.block block))
  else pure none

def parseIfExpr : Parse Expr := do
  let span ← peekSpan
  let _ ← expect self .if_
  let condition ← self.expr
  let thenBlock ← self.block
  let elseBranch ← parseElse self
  pure (.ifExpr condition thenBlock elseBranch span)

def parseMatchArm : Parse MatchArm := do
  let span ← peekSpan
  let pattern ← self.pattern
  let _ ← expect self .fatArrow
  let body ← self.expr
  let _ ← expect self .comma
  pure (.mk pattern body span)

/-- As many items as stand before the closing brace or the end of the tokens -/
def manyUntilBrace {α : Type} (item : Parse α) : Parse (List α) :=
  iterate (fun items => do
    let found ← peek
    if found = .rBrace ∨ found = .eof then pure (.stop items)
    else do
      let next ← item
      pure (.again (items ++ [next]))) self.rounds []

def parseMatchExpr : Parse Expr := do
  let span ← peekSpan
  let _ ← expect self .match_
  let scrutinee ← self.expr
  let _ ← expect self .lBrace
  let arms ← manyUntilBrace self (parseMatchArm self)
  let _ ← expect self .rBrace
  pure (.matchExpr scrutinee arms span)

def parseTryExpr : Parse Expr := do
  let span ← peekSpan
  let _ ← expect self .try_
  let call ← self.postfix_
  pure (.tryExpr call span)

def parseArrayLiteral : Parse Expr := do
  let span ← peekSpan
  let _ ← expect self .lBracket
  let elements ← listUntil self .rBracket self.expr
  let _ ← expect self .rBracket
  pure (.arrayLit elements span)

def parseFieldInit : Parse FieldInit := do
  let (name,span) ← expectIdent self
  let _ ← expect self .colon
  let value ← self.expr
  pure (.mk name value span)

def parseStructLiteral : Parse Expr := do
  let span ← peekSpan
  let (name,_) ← expectIdent self
  let _ ← expect self .lBrace
  let fields ← listUntil self .rBrace (parseFieldInit self)
  let _ ← expect self .rBrace
  pure (.structLit name fields span)

def parseEnumConstructor : Parse Expr := do
  let span ← peekSpan
  let (enumName,_) ← expectIdent self
  let _ ← expect self .colonColon
  let (variant,_) ← expectIdent self
  if ← accept .lParen then do
    let args ← parseArgList self
    let _ ← expect self .rParen
    pure (.enumConstructor enumName variant args span)
  else pure (.enumConstructor enumName variant [] span)

/-- The brackets that have been opened, closed again; the end of the tokens closes none. -/
def skipBrackets : Nat → List Token → Option (List Token)
  | 0,rest => some rest
  | _ + 1,[] => none
  | depth + 1,t :: rest =>
    match t.kind with
    | .lBracket => skipBrackets (depth + 2) rest
    | .rBracket => skipBrackets depth rest
    | .eof => none
    | _ => skipBrackets (depth + 1) rest

def isAssignOp : TokenKind → Bool
  | .eq | .plusEq | .minusEq | .starEq | .slashEq | .percentEq => true
  | _ => false

/-- The loop over what stands behind the name; each round takes a token at least. -/
def scanPlace : Nat → List Token → Bool
  | 0,_ => false
  | rounds + 1,rest =>
    match kindOf rest with
    | .dot =>
      match kindOf (rest.drop 1) with
      | .ident _ => scanPlace rounds (rest.drop 2)
      | _ => false
    | .lBracket =>
      match skipBrackets 1 (rest.drop 1) with
      | some rest => scanPlace rounds rest
      | none => false
    | kind => isAssignOp kind

def isAtAssign (rest : List Token) : Bool :=
  match kindOf rest with
  | .ident _ => scanPlace rest.length (rest.drop 1)
  | _ => false

def isAtStatementStart (rest : List Token) : Bool :=
  match kindOf rest with
  | .let_ | .while_ | .for_ | .return_ | .break_ | .continue_ | .defer_ => true
  | _ => isAtAssign rest

def parseLetStmt : Parse Stmt := do
  let span ← peekSpan
  let _ ← expect self .let_
  let isMut ← accept .mut_
  let (name,_) ← expectIdent self
  let _ ← expect self .colon
  let ty ← self.ty
  let _ ← expect self .eq
  let value ← self.expr
  let _ ← expect self .semicolon
  pure (.letStmt name isMut ty value span)

def parsePlace : Parse Place := do
  let (name,span) ← expectIdent self
  let accessors ← iterate (fun accessors => do
    let found ← peek
    match found with
    | .dot => do
      let _ ← advance
      let (field,_) ← expectIdent self
      pure (.again (accessors ++ [.field field]))
    | .lBracket => do
      let _ ← advance
      let index ← self.expr
      let _ ← expect self .rBracket
      pure (.again (accessors ++ [.index index]))
    | _ => pure (.stop accessors)) self.rounds []
  pure (.mk name accessors span)

def compoundOp : TokenKind → Option BinOp
  | .plusEq => some .add
  | .minusEq => some .sub
  | .starEq => some .mul
  | .slashEq => some .div
  | .percentEq => some .mod
  | _ => none

def parseAssignStmt : Parse Stmt := do
  let span ← peekSpan
  let target ← parsePlace self
  let found ← peek
  match compoundOp found with
  | some op => do
    let _ ← advance
    let value ← self.expr
    let _ ← expect self .semicolon
    pure (.compoundAssign target op value span)
  | none => do
    let _ ← expect self .eq
    let value ← self.expr
    let _ ← expect self .semicolon
    pure (.assign target value span)

def parseWhileStmt : Parse Stmt := do
  let span ← peekSpan
  let _ ← expect self .while_
  let condition ← self.expr
  let body ← self.block
  let _ ← accept .semicolon
  pure (.whileStmt condition body span)

def parseForStmt : Parse Stmt := do
  let span ← peekSpan
  let _ ← expect self .for_
  let (var,_) ← expectIdent self
  let _ ← expect self .in_
  let start ← self.expr
  if ← accept .dotDot then do
    let stop ← self.expr
    let body ← self.block
    let _ ← accept .semicolon
    pure (.forStmt var start stop body span)
  else do
    let body ← self.block
    let _ ← accept .semicolon
    pure (.forIn var start body span)

def parseReturnStmt : Parse Stmt := do
  let span ← peekSpan
  let _ ← expect self .return_
  let found ← peek
  if found = .semicolon then do
    let _ ← expect self .semicolon
    pure (.returnStmt none span)
  else do
    let value ← self.expr
    let _ ← expect self .semicolon
    pure (.returnStmt (some value) span)

def parseDeferStmt : Parse Stmt := do
  let span ← peekSpan
  let _ ← expect self .defer_
  let expr ← self.expr
  let _ ← expect self .semicolon
  pure (.deferStmt expr span)

/-- `break` and `continue` -/
def parseJump (stmt : Span → Stmt) : Parse Stmt := do
  let span ← peekSpan
  let _ ← advance
  let _ ← expect self .semicolon
  pure (stmt span)

def parseExprStmt : Parse Stmt := do
  let expr ← self.expr
  let _ ← expect self .semicolon
  pure (.expr expr expr.span)

def parseStmt : Parse Stmt := do
  let rest ← look
  match kindOf rest with
  | .let_ => parseLetStmt self
  | .while_ => parseWhileStmt self
  | .for_ => parseForStmt self
  | .return_ => parseReturnStmt self
  | .defer_ => parseDeferStmt self
  | .break_ => parseJump self .breakStmt
  | .continue_ => parseJump self .continueStmt
  | _ => if isAtAssign rest then parseAssignStmt self else parseExprStmt self

/-- One round of the loop of a block; behind the tail expression there is only the closing brace. -/
def parseBlockItem (stmts : List Stmt) (tailExpr : Option Expr) :
    Parse (Step (List Stmt × Option Expr) (List Stmt × Option Expr)) := do
  let rest ← look
  if kindOf rest = .rBrace ∨ kindOf rest = .eof then pure (.stop (stmts,tailExpr))
  else if isAtStatementStart rest then do
    let stmt ← parseStmt self
    pure (.again (stmts ++ [stmt],tailExpr))
  else do
    let expr ← self.expr
    let rest ← look
    match kindOf rest with
    | .semicolon => taking (.again (stmts ++ [.expr expr expr.span],tailExpr))
    | .rBrace => pure (.again (stmts,some expr))
    | _ => failFound self "';' or '\x7d' after expression"

def parseBlock : Parse Block := do
  let span ← peekSpan
  let _ ← expect self .lBrace
  let (stmts,tailExpr) ← iterate (fun (stmts,tailExpr) => parseBlockItem self stmts tailExpr) self.rounds ([],none)
  let _ ← expect self .rBrace
  pure (.mk stmts tailExpr span)

def parsePrimaryExpr : Parse Expr := do
  let rest ← look
  let span := spanOf rest
  match kindOf rest with
  | .intLit v => taking (.intLit v span)
  | .floatLit v => taking (.floatLit v span)
  | .stringLit s => taking (.stringLit s span)
  | .interpStringStart s => do
    let _ ← advance
    parseInterpolatedStringExpr self s span
  | .true_ => taking (.boolLit true span)
  | .false_ => taking (.boolLit false span)
  | .if_ => parseIfExpr self
  | .match_ => parseMatchExpr self
  | .try_ => parseTryExpr self
  | .lBrace => do
    let block ← parseBlock self
    pure (.block block)
  | .lBracket => parseArrayLiteral self
  | .lParen => do
    let _ ← advance
    let expr ← self.expr
    let _ ← expect self .rParen
    pure expr
  | .arena => do
    let _ ← advance
    let body ← self.block
    pure (.arena body span)
  | .ident name =>
    if kindOf (rest.drop 1) = .colonColon then parseEnumConstructor self
    else if kindOf (rest.drop 1) = .lBrace ∧ self.names.contains name then parseStructLiteral self
    else taking (.ident name span)
  | _ => failFound self "expression"

def parsePostfixExpr : Parse Expr := do
  let expr ← parsePrimaryExpr self
  parsePostfixes self expr

def parseCastExpr : Parse Expr := do
  let expr ← parsePostfixExpr self
  let span ← peekSpan
  if ← accept .as_ then do
    let ty ← self.ty
    pure (.cast expr ty span)
  else pure expr

def parseUnaryExpr : Parse Expr := do
  let rest ← look
  match kindOf rest with
  | .not_ => do
    let _ ← advance
    let operand ← self.unary
    pure (.unaryOp .not operand (spanOf rest))
  | .minus => do
    let _ ← advance
    let operand ← self.unary
    pure (.unaryOp .neg operand (spanOf rest))
  | _ => parseCastExpr self

/-- A level of operators that associate to the left -/
def parseLevel (opOf : TokenKind → Option BinOp) (next : Parse Expr) : Parse Expr := do
  let left ← next
  iterate (fun left => do
    let rest ← look
    match opOf (kindOf rest) with
    | none => pure (.stop left)
    | some op => do
      let _ ← advance
      let right ← next
      pure (.again (.binaryOp op left right (spanOf rest)))) self.rounds left

/-- A level of operators that do not associate -/
def parseOnce (opOf : TokenKind → Option BinOp) (next : Parse Expr) : Parse Expr := do
  let left ← next
  let rest ← look
  match opOf (kindOf rest) with
  | none => pure left
  | some op => do
    let _ ← advance
    let right ← next
    pure (.binaryOp op left right (spanOf rest))

def multOp : TokenKind → Option BinOp
  | .star => some .mul
  | .slash => some .div
  | .percent => some .mod
  | _ => none

def additiveOp : TokenKind → Option BinOp
  | .plus => some .add
  | .minus => some .sub
  | _ => none

def relationalOp : TokenKind → Option BinOp
  | .lt => some .lt
  | .gt => some .gt
  | .ltEq => some .ltEq
  | .gtEq => some .gtEq
  | _ => none

def equalityOp : TokenKind → Option BinOp
  | .eqEq => some .eq
  | .bangEq => some .neq
  | _ => none

def andOp : TokenKind → Option BinOp
  | .and_ => some .and
  | _ => none

def orOp : TokenKind → Option BinOp
  | .or_ => some .or
  | _ => none

def parseMultExpr : Parse Expr := parseLevel self multOp (parseUnaryExpr self)
def parseAdditiveExpr : Parse Expr := parseLevel self additiveOp (parseMultExpr self)
def parseRelationalExpr : Parse Expr := parseOnce relationalOp (parseAdditiveExpr self)
def parseEqualityExpr : Parse Expr := parseOnce equalityOp (parseRelationalExpr self)
def parseAndExpr : Parse Expr := parseLevel self andOp (parseEqualityExpr self)
def parseOrExpr : Parse Expr := parseLevel self orOp (parseAndExpr self)
def parseExpr : Parse Expr := parseOrExpr self

/-- The parsers that may call themselves as often as told -/
def parsers (names : List String) (shown : Binary64 → String) : Nat → Parsers
  | 0 => ⟨names,shown,0,unfinished,unfinished,unfinished,unfinished,unfinished,unfinished,unfinished⟩
  | depth + 1 =>
    let self := parsers names shown depth
    ⟨names,shown,depth + 2,parseExpr self,parseUnaryExpr self,parsePostfixExpr self,parseIfExpr self,parseBlock self,
      parseType self,parsePattern self⟩

end Oscan.Syntax
