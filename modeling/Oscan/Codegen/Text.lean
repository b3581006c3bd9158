import Oscan.Library.Precedence

/-! C expression text and the tree that C reads in it. Text is a chain of operands and binary
operators; brackets come in pairs, so what stands between them is a text of its own. -/
namespace Oscan.Codegen
open Precedence

/-- The binary operators that occur in emitted expressions. -/
inductive COp where
  | mul | div | rem | add | sub | shl | shr | lt | gt | le | ge | eq | ne | band | bxor | bor
deriving DecidableEq

/-- All of them associate to the left. -/
def COp.level : COp → Nat
  | .mul | .div | .rem => 10
  | .add | .sub => 9
  | .shl | .shr => 8
  | .lt | .gt | .le | .ge => 7
  | .eq | .ne => 6
  | .band => 5
  | .bxor => 4
  | .bor => 3

inductive Prefix where
  | op (symbol : String)
  | cast (ty : String)

mutual
/-- An operand: prefixes bind less than suffixes. -/
inductive Operand where
  | mk (prefixes : List Prefix) (core : Core) (suffixes : List Suffix)
inductive Core where
  | word (text : String)
  | group (inner : Chain Operand COp)
  | compound (ty : String) (inits : List Init)
/-- A value of a compound literal behind its designator, inner braces included. -/
inductive Init where
  | mk (designator : String) (value : Chain Operand COp)
inductive Suffix where
  | field (name : String)
  | call (args : List (Chain Operand COp))
  | subscript (index : Chain Operand COp)
end

abbrev Text := Chain Operand COp

/-- C expression trees; parentheses are kept. -/
inductive CTree where
  | word (text : String)
  | paren (inner : CTree)
  | compound (ty : String) (inits : List (String × CTree))
  | member (object : CTree) (field : String)
  | apply (function : CTree) (args : List CTree)
  | subscript (array index : CTree)
  | pre (op : Prefix) (operand : CTree)
  | binary (op : COp) (left right : CTree)

def collapse : Tree CTree COp → CTree
  | .leaf t => t
  | .node l op r => .binary op (collapse l) (collapse r)

def readChain (c : Chain CTree COp) : CTree := collapse (c.parse COp.level)

mutual
def Operand.tree : Operand → CTree
  | .mk prefixes core suffixes => prefixes.foldr .pre (suffixTree core.tree suffixes)
def Core.tree : Core → CTree
  | .word text => .word text
  | .group inner => .paren (readChain (operandTrees inner))
  | .compound ty inits => .compound ty (initTrees inits)
def initTrees : List Init → List (String × CTree)
  | [] => []
  | .mk designator value :: inits => (designator,readChain (operandTrees value)) :: initTrees inits
def suffixTree : CTree → List Suffix → CTree
  | t,[] => t
  | t,.field name :: suffixes => suffixTree (.member t name) suffixes
  | t,.call args :: suffixes => suffixTree (.apply t (argTrees args)) suffixes
  | t,.subscript index :: suffixes => suffixTree (.subscript t (readChain (operandTrees index))) suffixes
def argTrees : List (Chain Operand COp) → List CTree
  | [] => []
  | arg :: args => readChain (operandTrees arg) :: argTrees args
def operandTrees : Chain Operand COp → Chain CTree COp
  | .one o => .one o.tree
  | .snoc c op o => .snoc (operandTrees c) op o.tree
end

/-- The tree that C's precedence and associativity give to a text. -/
def cParse (t : Text) : CTree := readChain (operandTrees t)

/-- What the format strings of the emitter are made of, for text and for trees alike. -/
structure Form (T : Type) where
  word : String → T
  group : T → T
  call : String → List T → T
  compound : String → List (String × T) → T
  pre : Prefix → T → T
  field : T → String → T
  subscript : T → T → T
  binary : COp → T → T → T

namespace Text

/-- Text written in front of another belongs to its first operand. -/
def pre (p : Prefix) : Text → Text
  | .one (.mk prefixes core suffixes) => .one (.mk (p :: prefixes) core suffixes)
  | .snoc c op o => .snoc (pre p c) op o

/-- Text written behind another belongs to its last operand. -/
def suffix (s : Suffix) : Text → Text
  | .one (.mk prefixes core suffixes) => .one (.mk prefixes core (suffixes ++ [s]))
  | .snoc c op (.mk prefixes core suffixes) => .snoc c op (.mk prefixes core (suffixes ++ [s]))

/-- Pieces of text are written one behind the other. -/
def form : Form Text where
  word text := .one (.mk [] (.word text) [])
  group t := .one (.mk [] (.group t) [])
  call function args := .one (.mk [] (.word function) [.call args])
  compound ty inits := .one (.mk [] (.compound ty (inits.map fun i => .mk i.1 i.2)) [])
  pre := pre
  field t name := t.suffix (.field name)
  subscript t index := t.suffix (.subscript index)
  binary op l r := l.append op r

end Text

/-- Every hole of a format string is filled with a subtree. -/
def CTree.form : Form CTree where
  word := .word
  group := .paren
  call function args := .apply (.word function) args
  compound := .compound
  pre := .pre
  field := .member
  subscript := .subscript
  binary := .binary

end Oscan.Codegen
