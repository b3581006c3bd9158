import Mathlib.Algebra.Ring.Int.Defs
import Mathlib.Algebra.Ring.Nat
import Mathlib.Data.List.Basic
import Oscan.Ir

/-! The two evaluators of top-level constants: the one behind the static initialisers of the C backend and
the one behind the immediates of the object backend. Both compute in the host's 64-bit integers. -/
namespace Oscan.Constants
open Ir

/-- What an evaluator of the compiler does: it folds to a value, gives up, or panics. -/
inductive Folding (α : Type) where
  | value (a : α)
  | refused
  | panicked
deriving DecidableEq

namespace Folding

variable {α β : Type}

def bind (o : Folding α) (f : α → Folding β) : Folding β :=
  match o with
  | .value a => f a
  | .refused => .refused
  | .panicked => .panicked

def map (f : α → β) (o : Folding α) : Folding β := o.bind fun a => .value (f a)

@[simp] theorem bind_value (a : α) (f : α → Folding β) : (value a).bind f = f a := rfl
@[simp] theorem bind_refused (f : α → Folding β) : (refused : Folding α).bind f = .refused := rfl
@[simp] theorem bind_panicked (f : α → Folding β) : (panicked : Folding α).bind f = .panicked := rfl
@[simp] theorem map_value (f : α → β) (a : α) : (value a).map f = .value (f a) := rfl
@[simp] theorem map_refused (f : α → β) : (refused : Folding α).map f = .refused := rfl
@[simp] theorem map_panicked (f : α → β) : (panicked : Folding α).map f = .panicked := rfl

end Folding

/-- The integers of a width in two's complement -/
def fits (bits : Nat) (v : Int) : Prop := -2^(bits-1) ≤ v ∧ v < 2^(bits-1)

instance (bits : Nat) (v : Int) : Decidable (fits bits v) := inferInstanceAs (Decidable (_ ∧ _))

/-- The cast `as i64` of a double: toward zero, saturating, and zero for a NaN. -/
def truncate (x : Binary64) : Int :=
  if x.isNaN then 0
  else
    let exponent := x.magnitude / 2^52
    let significand : Nat := if exponent = 0 then x.magnitude % 2^52 else 2^52 + x.magnitude % 2^52
    let whole : Nat := if 1075 ≤ exponent then significand * 2^(exponent-1075) else significand / 2^(1075-exponent)
    if 2^63 ≤ x.bits.toNat then max (-2^63) (-(whole : Int)) else min (2^63-1) whole

/-- The arithmetic that both evaluators do on host integers. The division of the least one by -1 panics in
the host, and so does the remainder. -/
def foldOp (op : BinOp) (l r : Int) : Folding Int :=
  let checked (v : Int) : Folding Int := if fits 64 v then .value v else .refused
  match op with
  | .add => checked (l+r)
  | .sub => checked (l-r)
  | .mul => checked (l*r)
  | .div => if r = 0 then .refused else if l = -2^63 ∧ r = -1 then .panicked else .value (l.tdiv r)
  | .mod => if r = 0 then .refused else if l = -2^63 ∧ r = -1 then .panicked else .value (l.tmod r)
  | _ => .refused

def foldNeg (v : Int) : Folding Int := if fits 64 (-v) then .value (-v) else .refused

/-- The text of a folded constant: the digits of an integer, or a double with a point or an exponent. -/
inductive ConstText where
  | integer (v : Int)
  | float (x : Binary64)
deriving DecidableEq

/-- A double is never printed as an integer. -/
def ConstText.parse : ConstText → Folding Int
  | .integer v => .value v
  | .float _ => .refused

/-- The constants that are not on the stack of names being evaluated -/
def unvisited (consts : List ConstDef) (stack : List String) : Nat :=
  (consts.filter fun d => !stack.contains d.name).length

variable (consts : List ConstDef)

def find (name : String) : Option ConstDef := consts.find? (·.name == name)

variable {consts}

theorem find_name {name : String} {d : ConstDef} (found : find consts name = some d) : d.name = name := by
  simpa using List.find?_some found

theorem unvisited_push {stack : List String} {name : String} {d : ConstDef} (found : find consts name = some d)
    (fresh : name ∉ stack) : unvisited consts (name :: stack) < unvisited consts stack := by
  have member : d ∈ consts := List.mem_of_find?_eq_some found
  have named := find_name found
  have narrower : consts.filter (fun c => !(name :: stack).contains c.name) =
      (consts.filter fun c => !stack.contains c.name).filter fun c => c.name != name := by
    rw [List.filter_filter]
    refine List.filter_congr fun c _ => ?_
    rw [List.contains_cons]
    cases sameName : c.name == name <;> simp [sameName,bne]
  have inside : d ∈ consts.filter fun c => !stack.contains c.name := by
    simpa [member,named] using fresh
  unfold unvisited
  rw [narrower]
  exact List.length_filter_lt_length_iff_exists.mpr ⟨d,inside,by simp [named]⟩

variable (consts)

def tryConstEval (stack : List String) (e : Expr) : Folding ConstText :=
  match e with
  | .intLit v _ => .value (.integer v)
  | .floatLit x _ => .value (.float x)
  | .boolLit b _ => .value (.integer (if b then 1 else 0))
  | .ident name .value _ _ =>
    if fresh : name ∈ stack then .refused
    else match found : find consts name with
      | none => .refused
      | some d =>
        have := unvisited_push found fresh
        tryConstEval (name :: stack) d.value
  | .binaryOp op left right _ _ =>
    (tryConstEval stack left).bind fun l => (tryConstEval stack right).bind fun r =>
      l.parse.bind fun lv => r.parse.bind fun rv => (foldOp op lv rv).map .integer
  | .unaryOp .neg operand _ _ =>
    (tryConstEval stack operand).bind fun v => v.parse.bind fun iv => (foldNeg iv).map .integer
  | _ => .refused
termination_by (unvisited consts stack,sizeOf e)

def constEvalI64 (stack : List String) (e : Expr) : Folding Int :=
  match e with
  | .intLit v _ => .value v
  | .boolLit b _ => .value (if b then 1 else 0)
  | .floatLit x _ => .value (truncate x)
  | .ident name .value _ _ =>
    if fresh : name ∈ stack then .refused
    else match found : find consts name with
      | none => .refused
      | some d =>
        have := unvisited_push found fresh
        constEvalI64 (name :: stack) d.value
  | .binaryOp op left right _ _ =>
    (constEvalI64 stack left).bind fun l => (constEvalI64 stack right).bind fun r => foldOp op l r
  | .unaryOp .neg operand _ _ => (constEvalI64 stack operand).bind foldNeg
  | _ => .refused
termination_by (unvisited consts stack,sizeOf e)

/-- The value that a constant has in the program built -/
inductive Constant where
  | int (v : Int)
  | bool (b : Bool)
  | float (x : Binary64)
  | str (s : String)
  /-- What the C compiler computes from the text of the expression -/
  | computed (e : Expr)

/-- A 64-bit integer converted to a narrower signed type -/
def wrap (bits : Nat) (v : Int) : Int := (v + 2^(bits-1)) % 2^bits - 2^(bits-1)

/-- The operators that `emit_binary_op` writes as a call of the runtime, and the two that need a temporary.
The comparison of enumerations reads their tags. -/
def callsRuntime (op : BinOp) (ty : BcType) : Bool :=
  match op with
  | .and | .or => true
  | .add => ty == .i32 || ty == .i64 || ty == .str
  | .sub | .mul | .div | .mod => ty == .i32 || ty == .i64
  | .eq | .neq => match ty with | .str | .enum _ => true | _ => false
  | .lt | .gt | .ltEq | .gtEq => ty == .str

/-- The casts that `emit_cast` writes as a call of the runtime -/
def convertsAtRuntime (source target : BcType) : Bool :=
  match source,target with
  | .i32,.i64 | .i64,.i32 | .i32,.f64 | .i64,.f64 | .f64,.i32 | .f64,.i64 => true
  | _,_ => false

/-- The text of the expression is an arithmetic constant expression of C99: literals, enumeration
constants, operators and casts, without a call, a variable, a compound literal or a temporary. -/
def arithmeticConstant (enums : List (String × EnumInfo)) : Expr → Bool
  | .intLit .. | .floatLit .. | .boolLit .. => true
  | .binaryOp op left right _ _ =>
    !callsRuntime op left.ty && arithmeticConstant enums left && arithmeticConstant enums right
  | .unaryOp .not operand _ _ => arithmeticConstant enums operand
  | .unaryOp .neg operand _ _ => operand.ty != .i32 && operand.ty != .i64 && arithmeticConstant enums operand
  | .cast inner target _ => !convertsAtRuntime inner.ty target && arithmeticConstant enums inner
  | .enumConstructor enumName _ _ _ _ =>
    enumName != "Result" && !((enums.lookup enumName).any fun info => info.variants.any fun v => !v.2.isEmpty)
  | _ => false

/-- A static object may also be initialised with the address of a function. -/
def constantExpression (enums : List (String × EnumInfo)) (e : Expr) : Bool :=
  match e with
  | .ident _ .fnRef _ _ => true
  | e => arithmeticConstant enums e

/-- The value of `static const T name = text;` -/
def initialised (ty : BcType) (text : ConstText) : Folding Constant :=
  match ty,text with
  | .i32,.integer v => .value (.int (wrap 32 v))
  | .i64,.integer v => .value (.int (wrap 64 v))
  | .bool,.integer v => .value (.bool (v % 256 != 0))
  | .f64,.float x => .value (.float x)
  | _,_ => .refused

/-- The value that the C program has for a constant; the C compiler refuses what is not constant. -/
def emitTopLevelConstant (enums : List (String × EnumInfo)) (d : ConstDef) : Folding Constant :=
  match d.value with
  | .stringLit s _ => .value (.str s)
  | e =>
    match tryConstEval consts [] e with
    | .value text => initialised d.ty text
    | .panicked => .panicked
    | .refused => if constantExpression enums e then .value (.computed e) else .refused

inductive LType where
  | i8 | i32 | i64 | f64 | ptr
deriving DecidableEq

/-- The immediates of the LIR that a constant becomes -/
inductive LConst where
  | str (s : String)
  | f64const (x : Binary64)
  | iconst (ty : LType) (v : Int)

/-- `Repr::of(ty).lir_type()`; a unit has none, and `iconst` then takes an `I32`. -/
def lirType (enums : List (String × EnumInfo)) : BcType → LType
  | .i32 | .unit => .i32
  | .i64 => .i64
  | .f64 => .f64
  | .bool => .i8
  | .enum name =>
    if (enums.lookup name).any fun info => info.variants.any fun v => !v.2.isEmpty then .ptr else .i32
  | _ => .ptr

/-- The value of an immediate. An `iconst` of a floating type is an internal error of the backend. -/
def LConst.meaning : LConst → Folding Constant
  | .str s => .value (.str s)
  | .f64const x => .value (.float x)
  | .iconst .i8 v => .value (.bool (v % 256 != 0))
  | .iconst .i32 v => .value (.int (wrap 32 v))
  | .iconst .i64 v | .iconst .ptr v => .value (.int (wrap 64 v))
  | .iconst .f64 _ => .refused

/-- A constant that does not exist is an internal error. -/
def topLevelConstValue (enums : List (String × EnumInfo)) (stack : List String) (name : String) (ty : BcType) :
    Folding LConst :=
  if fresh : name ∈ stack then .refused
  else match found : find consts name with
    | none => .panicked
    | some d =>
      match d.value with
      | .stringLit s _ => .value (.str s)
      | .floatLit x _ => .value (.f64const x)
      | .ident other .value _ _ =>
        have := unvisited_push found fresh
        topLevelConstValue enums (name :: stack) other d.ty
      | e => (constEvalI64 consts [] e).map (.iconst (lirType enums ty))
termination_by unvisited consts stack

/-- The value that a use of the constant has in the object program -/
def objectConstant (enums : List (String × EnumInfo)) (d : ConstDef) : Folding Constant :=
  (topLevelConstValue consts enums [] d.name d.ty).bind LConst.meaning

end Oscan.Constants
