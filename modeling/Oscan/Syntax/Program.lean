import Oscan.Syntax.Parser

/-! The parser's top level: the names of types are collected first, and then the declarations are read one by one. -/
namespace Oscan.Syntax
open Library.Parsing Ast

/-- Behind `struct` and `enum` a name is taken; the token there is passed over in any case. -/
def collectTypeName (names : List String) : Parse (Step (List String) (List String)) := do
  let found ← peek
  if found = .eof then pure (.stop ("Result" :: names))
  else do
    let _ ← advance
    if found = .struct ∨ found = .enum then do
      let next ← peek
      let _ ← advance
      match next with
      | .ident name => pure (.again (name :: names))
      | _ => pure (.again names)
    else pure (.again names)

def collectTypeNames (rounds : Nat) : Parse (List String) := iterate collectTypeName rounds []

section
variable (self : Parsers)

def parseNamedType : Parse (String × Ty × Span) := do
  let (name,span) ← expectIdent self
  let _ ← expect self .colon
  let ty ← self.ty
  pure (name,ty,span)

def parseParam : Parse Param := do
  let (name,ty,span) ← parseNamedType self
  pure ⟨name,ty,span⟩

def parseParamList : Parse (List Param) := listUntil self .rParen (parseParam self)

def parseField : Parse Field := do
  let (name,ty,span) ← parseNamedType self
  pure ⟨name,ty,span⟩

def parseFieldList : Parse (List Field) := listUntil self .rBrace (parseField self)

/-- The name, the parameters and the type of what is returned -/
def parseSignature : Parse (String × List Param × Option Ty) := do
  let (name,_) ← expectIdent self
  let _ ← expect self .lParen
  let params ← parseParamList self
  let _ ← expect self .rParen
  let returnType ← parseReturnType self
  pure (name,params,returnType)

def parseFnDecl (isPure : Bool) : Parse FnDecl := do
  let span ← peekSpan
  let _ ← advance
  let (name,params,returnType) ← parseSignature self
  let body ← self.block
  pure ⟨name,params,returnType,body,isPure,span⟩

def parseStructDecl : Parse StructDecl := do
  let span ← peekSpan
  let _ ← expect self .struct
  let (name,_) ← expectIdent self
  let _ ← expect self .lBrace
  let fields ← parseFieldList self
  let _ ← expect self .rBrace
  pure ⟨name,fields,span⟩

def parseVariant : Parse Variant := do
  let (name,span) ← expectIdent self
  if ← accept .lParen then do
    let payloadTypes ← listUntil self .rParen self.ty
    let _ ← expect self .rParen
    pure ⟨name,payloadTypes,span⟩
  else pure ⟨name,[],span⟩

def parseVariantList : Parse (List Variant) := listUntil self .rBrace (parseVariant self)

def parseEnumDecl : Parse EnumDecl := do
  let span ← peekSpan
  let _ ← expect self .enum
  let (name,_) ← expectIdent self
  let _ ← expect self .lBrace
  let variants ← parseVariantList self
  let _ ← expect self .rBrace
  pure ⟨name,variants,span⟩

def parseTopLetDecl : Parse LetDecl := do
  let span ← peekSpan
  let _ ← expect self .let_
  let (name,_) ← expectIdent self
  let _ ← expect self .colon
  let ty ← self.ty
  let _ ← expect self .eq
  let value ← self.expr
  let _ ← expect self .semicolon
  pure ⟨name,ty,value,span⟩

def parseExternFnDecl : Parse ExternFnDecl := do
  let span ← peekSpan
  let _ ← expect self .fnBang
  let (name,params,returnType) ← parseSignature self
  let _ ← expect self .semicolon
  pure ⟨name,params,returnType,span⟩

def parseExternBlock : Parse ExternBlock := do
  let span ← peekSpan
  let _ ← expect self .extern_
  let _ ← expect self .lBrace
  let decls ← manyUntilBrace self (parseExternFnDecl self)
  let _ ← expect self .rBrace
  pure ⟨decls,span⟩

/-- The name behind `as` -/
def parseNamespace : Parse String := do
  let rest ← look
  match kindOf rest with
  | .ident name => taking name
  | _ => failFound self "identifier after 'as'"

def parseUseDecl : Parse TopDecl := do
  let _ ← advance
  let rest ← look
  match kindOf rest with
  | .stringLit path => do
    let _ ← advance
    if ← accept .as_ then do
      let name ← parseNamespace self
      pure (.useDecl path (some name))
    else pure (.useDecl path none)
  | _ => failFound self "string literal after 'use'"

def parseTopDecl : Parse TopDecl := do
  let rest ← look
  match kindOf rest with
  | .fn => do
    let decl ← parseFnDecl self true
    pure (.fn decl)
  | .fnBang => do
    let decl ← parseFnDecl self false
    pure (.fn decl)
  | .struct => do
    let decl ← parseStructDecl self
    pure (.struct decl)
  | .enum => do
    let decl ← parseEnumDecl self
    pure (.enum decl)
  | .let_ => do
    let decl ← parseTopLetDecl self
    pure (.letDecl decl)
  | .extern_ => do
    let block ← parseExternBlock self
    pure (.externBlock block)
  | .use_ => parseUseDecl self
  | _ => failFound self "top-level declaration (fn, struct, enum, let, extern, use)"

def parseDecls : Parse Program :=
  iterate (fun decls => do
    let found ← peek
    if found = .eof then pure (.stop ⟨decls⟩)
    else do
      let decl ← parseTopDecl self
      pure (.again (decls ++ [decl]))) self.rounds []

end

/-- The whole of a program, with a recursion as deep and loops as long as the tokens may ask for -/
def parseProgram (shown : Binary64 → String) (tokens : List Token) : Reply Token CompileError Program :=
  match collectTypeNames (tokens.length + 1) tokens with
  | .ok names _ => parseDecls (parsers names shown (tokens.length + 1)) tokens
  | .error e => .error e
  | .outOfBounds => .outOfBounds
  | .unfinished => .unfinished

end Oscan.Syntax
