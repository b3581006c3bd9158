import Oscan.CompileError

/-! The tokens that the lexer makes and the parser reads. -/
namespace Oscan.Syntax

inductive TokenKind where
  | fn | fnBang | let_ | mut_ | struct | enum | if_ | else_ | while_ | for_ | in_ | match_ | return_ | try_
  | extern_ | as_ | and_ | or_ | not_ | true_ | false_ | break_ | continue_ | use_ | defer_ | arena
  | intLit (value : Int)
  | floatLit (value : Binary64)
  | stringLit (text : String)
  | interpStringStart (text : String)
  | interpStringMiddle (text : String)
  | interpStringEnd (text : String)
  | ident (name : String)
  | plus | minus | star | slash | percent
  | plusEq | minusEq | starEq | slashEq | percentEq
  | eqEq | bangEq | lt | gt | ltEq | gtEq | eq | fatArrow
  | lBrace | rBrace | lParen | rParen | lBracket | rBracket
  | comma | colon | semicolon | dot | dotDot | arrow | colonColon | underscore
  | eof
deriving DecidableEq

structure Token where
  kind : TokenKind
  span : Span
deriving DecidableEq

/-- How a token is shown in a message; `shown` is how the standard library shows a double. -/
def TokenKind.display (shown : Binary64 → String) : TokenKind → String
  | .fn => "fn" | .fnBang => "fn!" | .let_ => "let" | .mut_ => "mut" | .struct => "struct" | .enum => "enum"
  | .if_ => "if" | .else_ => "else" | .while_ => "while" | .for_ => "for" | .in_ => "in" | .match_ => "match"
  | .return_ => "return" | .try_ => "try" | .extern_ => "extern" | .as_ => "as" | .and_ => "and" | .or_ => "or"
  | .not_ => "not" | .true_ => "true" | .false_ => "false" | .break_ => "break" | .continue_ => "continue"
  | .use_ => "use" | .defer_ => "defer" | .arena => "arena"
  | .intLit v => toString v
  | .floatLit v => shown v
  | .stringLit s => "\"" ++ s ++ "\""
  | .interpStringStart s => "\"" ++ s ++ "\x7b"
  | .interpStringMiddle s => "\x7d" ++ s ++ "\x7b"
  | .interpStringEnd s => "\x7d" ++ s ++ "\""
  | .ident s => s
  | .plus => "+" | .minus => "-" | .star => "*" | .slash => "/" | .percent => "%"
  | .plusEq => "+=" | .minusEq => "-=" | .starEq => "*=" | .slashEq => "/=" | .percentEq => "%="
  | .eqEq => "==" | .bangEq => "!=" | .lt => "<" | .gt => ">" | .ltEq => "<=" | .gtEq => ">=" | .eq => "="
  | .fatArrow => "=>" | .lBrace => "\x7b" | .rBrace => "\x7d" | .lParen => "(" | .rParen => ")"
  | .lBracket => "[" | .rBracket => "]" | .comma => "," | .colon => ":" | .semicolon => ";" | .dot => "."
  | .dotDot => ".." | .arrow => "->" | .colonColon => "::" | .underscore => "_" | .eof => "EOF"

end Oscan.Syntax
