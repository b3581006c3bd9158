import Oscan.Syntax.Token

/-! The lexer: characters to tokens, with a stack of modes for string literals that have holes. -/
namespace Oscan.Syntax

inductive LexerMode where
  | stringContinuation
  | interpolation (braceDepth : Nat)
deriving DecidableEq

/-- What is left of the source, and the line and the column there -/
structure Cursor where
  rest : List Char
  span : Span
deriving DecidableEq

/-- The modes are a stack with its top first. -/
structure Lexer extends Cursor where
  modes : List LexerMode
deriving DecidableEq

/-- The last two are a count that would go below zero, and a loop that ran out of rounds. -/
inductive LexFault where
  | error (e : CompileError)
  | underflow
  | unfinished
deriving DecidableEq

abbrev Lexed (α : Type) := Except LexFault α

def failAt {α : Type} (span : Span) (message : String) : Lexed α := .error (.error ⟨span,message⟩)

def Lexer.new (source : String) : Lexer := ⟨⟨source.toList,⟨1,1⟩⟩,[]⟩

def Span.past (span : Span) (ch : Char) : Span :=
  if ch = '\n' then ⟨span.line + 1,1⟩ else ⟨span.line,span.column + 1⟩

namespace Cursor

def peek (c : Cursor) : Option Char := c.rest.head?

def peekAhead (c : Cursor) (offset : Nat) : Option Char := c.rest[offset]?

def advance : Cursor → Cursor
  | ⟨[],span⟩ => ⟨[],span⟩
  | ⟨ch :: rest,span⟩ => ⟨rest,Span.past span ch⟩

/-- The characters up to the first one that fails the test, and the cursor there -/
def takeWhile (c : Cursor) (test : Char → Bool) : List Char × Cursor :=
  (c.rest.takeWhile test,⟨c.rest.dropWhile test,(c.rest.takeWhile test).foldl Span.past c.span⟩)

end Cursor

def isAsciiWhitespace (ch : Char) : Bool := ch = ' ' || ch = '\t' || ch = '\n' || ch = '\r' || ch = '\x0c'

def isAsciiDigit (ch : Char) : Bool := '0' ≤ ch && ch ≤ '9'

def isAsciiAlphabetic (ch : Char) : Bool := ('a' ≤ ch && ch ≤ 'z') || ('A' ≤ ch && ch ≤ 'Z')

def isIdentifier (ch : Char) : Bool := isAsciiAlphabetic ch || isAsciiDigit ch || ch = '_'

def skipWhitespace (c : Cursor) : Cursor := (c.takeWhile isAsciiWhitespace).2

def skipLineComment (c : Cursor) : Cursor := (c.takeWhile (· ≠ '\n')).2

def skipBlockComment (startSpan : Span) : List Char → Span → Lexed Cursor
  | [],_ => failAt startSpan "unterminated block comment"
  | ch :: rest,span =>
    if ch = '*' ∧ rest.head? = some '/' then pure (Cursor.advance ⟨rest,Span.past span ch⟩)
    else skipBlockComment startSpan rest (Span.past span ch)

/-- The loop over whitespace and comments, which the lexer has in two places -/
def skipBlanks : Nat → Cursor → Lexed Cursor
  | 0,_ => .error .unfinished
  | rounds + 1,c =>
    let c := skipWhitespace c
    if c.peek = some '/' ∧ c.peekAhead 1 = some '/' then skipBlanks rounds (skipLineComment c.advance.advance)
    else if c.peek = some '/' ∧ c.peekAhead 1 = some '*' then do
      let c := c.advance.advance
      let c ← skipBlockComment c.span c.rest c.span
      skipBlanks rounds c
    else pure c

def readStringEscape (escSpan : Span) (ch : Char) : Lexed Char :=
  if ch = 'n' then pure '\n'
  else if ch = 't' then pure '\t'
  else if ch = 'r' then pure '\r'
  else if ch = '\\' then pure '\\'
  else if ch = '"' then pure '"'
  else if ch = '0' then pure '\x00'
  else failAt escSpan ("invalid escape sequence '\\" ++ String.ofList [ch] ++ "'")

def readStringSegment (startSpan : Span) (isInitial : Bool) (modes : List LexerMode) :
    List Char → Span → List Char → Lexed (Token × Lexer)
  | [],_,_ => failAt startSpan "unterminated string literal"
  | ch :: rest,span,s =>
    let next := Span.past span ch
    if ch = '"' then
      if isInitial then pure (⟨.stringLit (String.ofList s),startSpan⟩,⟨⟨rest,next⟩,modes⟩)
      else pure (⟨.interpStringEnd (String.ofList s),startSpan⟩,⟨⟨rest,next⟩,modes.tail⟩)
    else if ch = '\\' then
      match rest with
      | [] => failAt next "unterminated string literal"
      | esc :: rest => do
        let decoded ← readStringEscape next esc
        readStringSegment startSpan isInitial modes rest (Span.past next esc) (s ++ [decoded])
    else if ch = '\x7b' then
      match rest with
      | '\x7b' :: rest =>
        readStringSegment startSpan isInitial modes rest (Span.past next '\x7b') (s ++ ['\x7b'])
      | rest =>
        if isInitial then
          pure (⟨.interpStringStart (String.ofList s),startSpan⟩,
            ⟨⟨rest,next⟩,.interpolation 0 :: .stringContinuation :: modes⟩)
        else
          pure (⟨.interpStringMiddle (String.ofList s),startSpan⟩,⟨⟨rest,next⟩,.interpolation 0 :: modes⟩)
    else if ch = '\x7d' then
      match rest with
      | '\x7d' :: rest =>
        readStringSegment startSpan isInitial modes rest (Span.past next '\x7d') (s ++ ['\x7d'])
      | _ => failAt startSpan
          "single '\x7d' is not allowed in string literals; use '\x7d\x7d' for a literal brace"
    else if ch = '\n' then failAt startSpan "unterminated string literal"
    else readStringSegment startSpan isInitial modes rest next (s ++ [ch])

/-- The number that decimal digits write -/
def decimalValue (digits : List Char) : Nat := digits.foldl (fun n ch => n * 10 + (ch.toNat - 48)) 0

/-- A number, whose first digit is there -/
def readNumber (c : Cursor) : Lexed (Token × Cursor) :=
  let startSpan := c.span
  let (digits,behind) := c.takeWhile isAsciiDigit
  if digits.head? = some '0' ∧ 1 < digits.length then
    failAt startSpan "leading zeros are not allowed in integer literals"
  else if behind.peek = some '.' ∧ (behind.peekAhead 1).any isAsciiDigit then
    let (fraction,behind) := behind.advance.takeWhile isAsciiDigit
    pure (⟨.floatLit (Binary64.ofDecimal (decimalValue (digits ++ fraction)) fraction.length),startSpan⟩,behind)
  else if decimalValue digits < 2^63 then pure (⟨.intLit (decimalValue digits),startSpan⟩,behind)
  else failAt startSpan ("invalid integer literal '" ++ String.ofList digits ++ "'")

def keyword (ident : String) : TokenKind :=
  match ident with
  | "fn" => .fn
  | "let" => .let_
  | "mut" => .mut_
  | "struct" => .struct
  | "enum" => .enum
  | "if" => .if_
  | "else" => .else_
  | "while" => .while_
  | "for" => .for_
  | "in" => .in_
  | "match" => .match_
  | "return" => .return_
  | "try" => .try_
  | "extern" => .extern_
  | "as" => .as_
  | "and" => .and_
  | "or" => .or_
  | "not" => .not_
  | "true" => .true_
  | "false" => .false_
  | "break" => .break_
  | "continue" => .continue_
  | "use" => .use_
  | "defer" => .defer_
  | "arena" => .arena
  | "_" => .underscore
  | _ => .ident ident

def readIdentifierOrKeyword (c : Cursor) : Token × Cursor :=
  let (ident,behind) := c.takeWhile isIdentifier
  if String.ofList ident = "fn" ∧ behind.peek = some '!' then (⟨.fnBang,c.span⟩,behind.advance)
  else (⟨keyword (String.ofList ident),c.span⟩,behind)

/-- The token that a character begins with the one behind it, and whether it takes both -/
def symbol (ch : Char) (next : Option Char) : Option (TokenKind × Bool) :=
  match ch,next with
  | '/',some '=' => some (.slashEq,true)
  | '/',_ => some (.slash,false)
  | '+',some '=' => some (.plusEq,true)
  | '+',_ => some (.plus,false)
  | '-',some '>' => some (.arrow,true)
  | '-',some '=' => some (.minusEq,true)
  | '-',_ => some (.minus,false)
  | '*',some '=' => some (.starEq,true)
  | '*',_ => some (.star,false)
  | '%',some '=' => some (.percentEq,true)
  | '%',_ => some (.percent,false)
  | '=',some '=' => some (.eqEq,true)
  | '=',some '>' => some (.fatArrow,true)
  | '=',_ => some (.eq,false)
  | '!',some '=' => some (.bangEq,true)
  | '<',some '=' => some (.ltEq,true)
  | '<',_ => some (.lt,false)
  | '>',some '=' => some (.gtEq,true)
  | '>',_ => some (.gt,false)
  | '\x7b',_ => some (.lBrace,false)
  | '\x7d',_ => some (.rBrace,false)
  | '(',_ => some (.lParen,false)
  | ')',_ => some (.rParen,false)
  | '[',_ => some (.lBracket,false)
  | ']',_ => some (.rBracket,false)
  | ',',_ => some (.comma,false)
  | ':',some ':' => some (.colonColon,true)
  | ':',_ => some (.colon,false)
  | ';',_ => some (.semicolon,false)
  | '.',some '.' => some (.dotDot,true)
  | '.',_ => some (.dot,false)
  | _,_ => none

/-- The token that begins at the cursor, where there is no blank -/
def tokenAt (c : Cursor) (modes : List LexerMode) : Lexed (Token × Lexer) :=
  match c.peek with
  | none => pure (⟨.eof,c.span⟩,⟨c,modes⟩)
  | some ch =>
    if ch = '"' then readStringSegment c.span true modes c.advance.rest c.advance.span []
    else if isAsciiDigit ch then do
      let (token,c) ← readNumber c
      pure (token,⟨c,modes⟩)
    else if isAsciiAlphabetic ch || ch = '_' then
      let (token,c) := readIdentifierOrKeyword c
      pure (token,⟨c,modes⟩)
    else match symbol ch (c.peekAhead 1) with
      | some (kind,both) => pure (⟨kind,c.span⟩,⟨if both then c.advance.advance else c.advance,modes⟩)
      | none => failAt c.span ("unexpected character '" ++ String.ofList [ch] ++ "'")

def lexNormalToken (rounds : Nat) (c : Cursor) (modes : List LexerMode) : Lexed (Token × Lexer) := do
  let c ← skipBlanks rounds c
  tokenAt c modes

/-- A brace that closes a hole makes no token; the next one is read in the mode below. -/
def nextToken (rounds : Nat) : List LexerMode → Cursor → Lexed (Token × Lexer)
  | [],c => lexNormalToken rounds c []
  | .stringContinuation :: below,c =>
    readStringSegment c.span false (.stringContinuation :: below) c.rest c.span []
  | .interpolation braceDepth :: below,c => do
    let c ← skipBlanks rounds c
    if braceDepth = 0 ∧ c.peek = some '\x7d' then nextToken rounds below c.advance
    else if c.peek = some '\x7b' then
      pure (⟨.lBrace,c.span⟩,⟨c.advance,.interpolation (braceDepth + 1) :: below⟩)
    else if c.peek = some '\x7d' then
      match braceDepth with
      | 0 => .error .underflow
      | braceDepth + 1 => pure (⟨.rBrace,c.span⟩,⟨c.advance,.interpolation braceDepth :: below⟩)
    else lexNormalToken rounds c (.interpolation braceDepth :: below)

/-- The loop of `tokenize`, which also leaves the lexer behind -/
def Lexer.tokens (rounds : Nat) : Nat → Lexer → Lexed (List Token × Lexer)
  | 0,_ => .error .unfinished
  | n + 1,lexer => do
    let (token,lexer) ← nextToken rounds lexer.modes lexer.toCursor
    if token.kind = .eof then pure ([token],lexer)
    else do
      let (tokens,lexer) ← Lexer.tokens rounds n lexer
      pure (token :: tokens,lexer)

/-- Every round of a loop consumes a character or is the last one. -/
def tokenize (source : String) : Lexed (List Token × Lexer) :=
  (Lexer.new source).tokens (source.toList.length + 1) (source.toList.length + 1)

end Oscan.Syntax
