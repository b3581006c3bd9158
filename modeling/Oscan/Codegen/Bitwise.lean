import Oscan.Codegen.Reading
import Oscan.Library.Words

/-! The bitwise and shift functions in the C backend, and in the object backends over Cranelift and over LLVM. -/
namespace Oscan.Codegen
open Library Library.Lockstep Library.Words

/-- The built-in functions, each under its name. -/
inductive Bitwise where
  | band | bor | bxor | bshl | bshr | bnot
deriving DecidableEq

namespace Bitwise

def name : Bitwise → String
  | band => "band"
  | bor => "bor"
  | bxor => "bxor"
  | bshl => "bshl"
  | bshr => "bshr"
  | bnot => "bnot"

def arity : Bitwise → Nat
  | bnot => 1
  | _ => 2

def isShift : Bitwise → Bool
  | bshl | bshr => true
  | _ => false

end Bitwise

/-- What the operators of C do to integers of 32 bits; the rest is up to the tree. -/
def operator : COp → Option (CWord 32 → CWord 32 → Outcome (CWord 32))
  | .band => some fun a b => .ok (CWord.bitwise (· &&& ·) a b)
  | .bor => some fun a b => .ok (CWord.bitwise (· ||| ·) a b)
  | .bxor => some fun a b => .ok (CWord.bitwise (· ^^^ ·) a b)
  | .shl => some CWord.shiftLeft
  | .shr => some CWord.shiftRight
  | _ => none

def prefixed : Prefix → Option (CWord 32 → CWord 32)
  | .cast ty => if ty = "int32_t" then some .toSigned else if ty = "uint32_t" then some .toUnsigned else none
  | .op symbol => if symbol = "~" then some .complement else none

/-- The integer of a tree of C, given what the trees below its bit operators and conversions come to. -/
def evaluate (operand : CTree → Outcome (CWord 32)) (t : CTree) : Outcome (CWord 32) :=
  match t with
  | .paren inner => evaluate operand inner
  | .pre p inner =>
    match prefixed p with
    | some f => (evaluate operand inner).map f
    | none => operand t
  | .binary op l r =>
    match operator op with
    | some f => (evaluate operand l).bind fun a => (evaluate operand r).bind fun b => f a b
    | none => operand t
  | _ => operand t

/-- The instructions that a built-in function is lowered to -/
inductive Instruction where
  | band | bor | bxor | ishl | ushr | bnot

def lowerBitwise : Bitwise → Instruction
  | .band => .band
  | .bor => .bor
  | .bxor => .bxor
  | .bshl => .ishl
  | .bshr => .ushr
  | .bnot => .bnot

/-- What Cranelift does to operands of type `i32`; the complement has the first one only. -/
def Instruction.cranelift : Instruction → BitVec 32 → BitVec 32 → BitVec 32
  | band,x,y => x &&& y
  | bor,x,y => x ||| y
  | bxor,x,y => x ^^^ y
  | ishl,x,y => masking (· <<< ·) x y
  | ushr,x,y => masking (· >>> ·) x y
  | bnot,x,_ => ~~~x

/-- The binary operations of LLVM that are written for the instructions -/
inductive LlvmOp where
  | and | or | xor | shl | lshr

inductive LlvmOperand where
  | first | second
  | constant (n : Int)

structure LlvmLine where
  op : LlvmOp
  left : LlvmOperand
  right : LlvmOperand

def Instruction.emitLlvm : Instruction → LlvmLine
  | band => ⟨.and,.first,.second⟩
  | bor => ⟨.or,.first,.second⟩
  | bxor => ⟨.xor,.first,.second⟩
  | ishl => ⟨.shl,.first,.second⟩
  | ushr => ⟨.lshr,.first,.second⟩
  | bnot => ⟨.xor,.first,.constant (-1)⟩

def LlvmOperand.word (x y : BitVec 32) : LlvmOperand → BitVec 32
  | first => x
  | second => y
  | constant n => .ofInt 32 n

def LlvmOp.apply : LlvmOp → BitVec 32 → BitVec 32 → Outcome (BitVec 32)
  | and,x,y => .ok (x &&& y)
  | or,x,y => .ok (x ||| y)
  | xor,x,y => .ok (x ^^^ y)
  | shl,x,y => poisoning (· <<< ·) x y
  | lshr,x,y => poisoning (· >>> ·) x y

def LlvmLine.run (line : LlvmLine) (x y : BitVec 32) : Outcome (BitVec 32) :=
  line.op.apply (line.left.word x y) (line.right.word x y)

namespace Bitwise

/-- The C text of a call -/
def emitted (b : Bitwise) (functions : List (String × FunctionInfo)) (isVar : Bool) (elemTy : BcType) (l r : Text) :
    Text :=
  callForm Text.form (callShape functions b.name isVar) elemTy ([l,r].take b.arity)

def inCranelift (b : Bitwise) (x y : BitVec 32) : BitVec 32 := (lowerBitwise b).cranelift x y

def inLlvm (b : Bitwise) (x y : BitVec 32) : Outcome (BitVec 32) := (lowerBitwise b).emitLlvm.run x y

/-- One defined result in all three -/
def Agree (b : Bitwise) (inC : Outcome (CWord 32)) (x y : BitVec 32) : Prop :=
  ∃ result, inC = .ok (.signed result) ∧ b.inCranelift x y = result ∧ b.inLlvm x y = .ok result

end Bitwise

section Evaluation
variable {operand : CTree → Outcome (CWord 32)}

@[simp] theorem evaluate_group (t : CTree) : evaluate operand (CTree.form.group t) = evaluate operand t := by
  simp [CTree.form,evaluate]

@[simp] theorem evaluate_int32 (t : CTree) :
    evaluate operand (CTree.form.pre (.cast "int32_t") t) = (evaluate operand t).map .toSigned := by
  simp [CTree.form,evaluate,prefixed]

@[simp] theorem evaluate_uint32 (t : CTree) :
    evaluate operand (CTree.form.pre (.cast "uint32_t") t) = (evaluate operand t).map .toUnsigned := by
  simp [CTree.form,evaluate,prefixed]

@[simp] theorem evaluate_complement (t : CTree) :
    evaluate operand (CTree.form.pre (.op "~") t) = (evaluate operand t).map .complement := by
  simp [CTree.form,evaluate,prefixed]

theorem evaluate_binary (op : COp) (l r : CTree) : evaluate operand (CTree.form.binary op l r) =
    match operator op with
    | some f => (evaluate operand l).bind fun a => (evaluate operand r).bind fun b => f a b
    | none => operand (CTree.form.binary op l r) := by
  simp only [CTree.form,evaluate]

end Evaluation

/-- Built-in names go first. -/
theorem callShape_bitwise (b : Bitwise) (functions : List (String × FunctionInfo)) (isVar : Bool) :
    callShape functions b.name isVar =
      match b with
      | .band => .bits .band
      | .bor => .bits .bor
      | .bxor => .bits .bxor
      | .bshl => .shift .shl
      | .bshr => .shift .shr
      | .bnot => .bnot := by
  cases b <;> rfl

section Calls
variable {operand : CTree → Outcome (CWord 32)} {functions : List (String × FunctionInfo)} {isVar : Bool}
  {elemTy : BcType} {l r : Text} {x y : BitVec 32}

/-- What C computes for a call whose operands have come to the words -/
theorem evaluate_emitted (b : Bitwise) (left : evaluate operand (cParse l) = .ok (.signed x))
    (right : evaluate operand (cParse r) = .ok (.signed y)) :
    evaluate operand (cParse (b.emitted functions isVar elemTy l r)) =
      match b with
      | .band => .ok (.signed (x &&& y))
      | .bor => .ok (.signed (x ||| y))
      | .bxor => .ok (.signed (x ^^^ y))
      | .bshl => (CWord.shiftLeft (.unsigned x) (.signed y)).map .toSigned
      | .bshr => (CWord.shiftRight (.unsigned x) (.signed y)).map .toSigned
      | .bnot => .ok (.signed (~~~x)) := by
  rw [Bitwise.emitted,reads_callForm,callShape_bitwise]
  cases b with
  | bnot => simp [callForm,Bitwise.arity,left,CWord.toSigned,CWord.toUnsigned,CWord.complement,CWord.bits]
  | _ =>
    simp [callForm,Bitwise.arity,evaluate_binary,operator,left,right,CWord.toSigned,CWord.toUnsigned,CWord.bitwise,
      CWord.bits]

end Calls

/-- A shift in C, in Cranelift and in LLVM -/
theorem shift_agrees_iff (shift : BitVec 32 → Nat → BitVec 32) (x y : BitVec 32) :
    (∃ r, ((poisoning shift x y).map CWord.unsigned).map CWord.toSigned = .ok (.signed r) ∧
      masking shift x y = r ∧ poisoning shift x y = .ok r) ↔ y.toNat < 32 := by
  rw [← poisoning_masking_iff shift x y]
  constructor
  · intro ⟨r,_,agrees⟩
    exact ⟨r,agrees⟩
  · intro ⟨r,masked,done⟩
    refine ⟨r,?_,masked,done⟩
    rw [done]
    rfl

/-- The three agree on one defined result for all operands, except that a shift needs an amount from 0 to 31. -/
theorem bitwise_agree_iff (b : Bitwise) (operand : CTree → Outcome (CWord 32))
    (functions : List (String × FunctionInfo)) (isVar : Bool) (elemTy : BcType) (l r : Text) (x y : BitVec 32)
    (left : evaluate operand (cParse l) = .ok (.signed x)) (right : evaluate operand (cParse r) = .ok (.signed y)) :
    b.Agree (evaluate operand (cParse (b.emitted functions isVar elemTy l r))) x y ↔
      (b.isShift = true → 0 ≤ y.toInt ∧ y.toInt < 32) := by
  have amounts : (0 ≤ y.toInt ∧ y.toInt < 32) ↔ y.toNat < 32 := amount_iff y
  rw [evaluate_emitted b left right,amounts]
  cases b with
  | bshl =>
    rw [Words.shiftLeft_unsigned]
    exact (shift_agrees_iff _ x y).trans (by simp [Bitwise.isShift])
  | bshr =>
    rw [Words.shiftRight_unsigned]
    exact (shift_agrees_iff _ x y).trans (by simp [Bitwise.isShift])
  | bnot =>
    have flipped : x ^^^ BitVec.ofInt 32 (-1) = ~~~x := by
      rw [show BitVec.ofInt 32 (-1) = BitVec.allOnes 32 by decide,BitVec.xor_allOnes]
    refine iff_of_true ⟨~~~x,rfl,rfl,?_⟩ (by simp [Bitwise.isShift])
    exact congrArg Outcome.ok flipped
  | band | bor | bxor => exact iff_of_true ⟨_,rfl,rfl,rfl⟩ (by simp [Bitwise.isShift])

/-- Two variables, one and an amount -/
def shiftedOne (amount : BitVec 32) (t : CTree) : Outcome (CWord 32) :=
  match t with
  | .word name => .ok (.signed (if name = "n" then amount else 1))
  | _ => .undefined

/-- `bshl(a, n)` for one and 31 -/
theorem bitwise_agree_last :
    Bitwise.bshl.Agree (evaluate (shiftedOne 31) (cParse (Bitwise.bshl.emitted [] false .i32 (Text.form.word "a")
      (Text.form.word "n")))) 1 31 :=
  (bitwise_agree_iff .bshl (shiftedOne 31) [] false .i32 (Text.form.word "a") (Text.form.word "n") 1 31 rfl rfl).mpr
    fun _ => by decide

/-- `bshl(a, n)` for one and 32: C and LLVM define nothing, Cranelift answers one. -/
theorem bitwise_shift_differs :
    evaluate (shiftedOne 32) (cParse (Bitwise.bshl.emitted [] false .i32 (Text.form.word "a") (Text.form.word "n"))) =
      .undefined ∧
    Bitwise.bshl.inCranelift 1 32 = 1 ∧ Bitwise.bshl.inLlvm 1 32 = .undefined ∧
    ¬Bitwise.bshl.Agree (evaluate (shiftedOne 32) (cParse (Bitwise.bshl.emitted [] false .i32 (Text.form.word "a")
      (Text.form.word "n")))) 1 32 := by
  have undefinedC : evaluate (shiftedOne 32) (cParse (Bitwise.bshl.emitted [] false .i32 (Text.form.word "a")
      (Text.form.word "n"))) = .undefined := by
    rw [@evaluate_emitted _ [] false .i32 _ _ 1 32 .bshl rfl rfl]
    decide
  refine ⟨undefinedC,by decide,by decide,?_⟩
  intro ⟨result,defined,_⟩
  rw [undefinedC] at defined
  cases defined

end Oscan.Codegen
