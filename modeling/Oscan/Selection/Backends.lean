import Mathlib.Algebra.Ring.Int.Defs
import Mathlib.Algebra.Ring.Nat
import Oscan.Value
import Oscan.Semantic.Pattern

/-! The arm of a match that each backend executes, and the variables that it binds. The C backend
reads the text of the scrutinee anew in every comparison and in every binding. -/
namespace Oscan.Selection
open Semantic.Analyzer (isCatchAll)

/-- What each evaluation of the scrutinee's text gives. -/
abbrev Reading := Nat → Value

/-- An arm by its position, and its variables; a variable without a value holds what the storage of
another variant holds there. -/
structure Chosen where
  arm : Nat
  bindings : List (String × Option Value)

mutual
/-- The variables of a pattern over the parts of the value that they stand for. -/
def bound : Pattern → Value → List (String × Value)
  | .ident name _,v => [(name,v)]
  | .enum _ _ bindings _,.enum _ _ payload => boundAll bindings payload
  | .enum _ _ bindings _,.ok value | .enum _ _ bindings _,.err value => boundAll bindings [value]
  | _,_ => []
def boundAll : List Pattern → List Value → List (String × Value)
  | p :: ps,v :: vs => bound p v ++ boundAll ps vs
  | _,_ => []
end

/-- The first arm whose whole pattern matches, with its variables. -/
def firstMatch (arms : List Pattern) (v : Value) : Option Chosen :=
  (arms.zipIdx.find? fun a => a.1.matches v).map fun a =>
    ⟨a.2,(bound a.1 v).map fun b => (b.1,some b.2)⟩

section C

/-- The `case` of an arm of a switch, or none for the default. -/
def caseLabel : Pattern → Option String
  | .enum _ variant _ _ => some variant
  | _ => none

def payloadAt (variant : String) (i : Nat) : Value → Option Value
  | .enum _ tag payload => if tag = variant then payload[i]? else none
  | _ => none

/-- `bind_enum_payload`, from a payload position and an evaluation of the text on. -/
def bindEnumPayload (read : Reading) (variant : String) : Nat → Nat → List Pattern → List (String × Option Value)
  | _,_,[] => []
  | i,k,.ident name _ :: ps =>
    (name,payloadAt variant i (read k)) :: bindEnumPayload read variant (i + 1) (k + 1) ps
  | i,k,_ :: ps => bindEnumPayload read variant (i + 1) k ps

/-- `emit_enum_arm_unit` and `emit_enum_arm_valued`: only the former binds the name of a default. -/
def bindEnumArm (valued : Bool) (read : Reading) : Pattern → List (String × Option Value)
  | .ident name _ => if valued then [] else [(name,some (read 1))]
  | .enum _ variant bindings _ => bindEnumPayload read variant 0 1 bindings
  | _ => []

/-- A `switch`, which C rejects when a label stands twice. -/
def selectEnum (valued : Bool) (arms : List Pattern) (read : Reading) : Option (Option Chosen) :=
  if (arms.map caseLabel).Nodup then
    match read 0 with
    | .enum _ tag _ =>
      let labelled := arms.zipIdx.find? fun a => caseLabel a.1 = some tag
      let default := arms.zipIdx.find? fun a => caseLabel a.1 = none
      some ((labelled.or default).map fun a => ⟨a.2,bindEnumArm valued read a.1⟩)
    | _ => none
  else none

def isVariant (name : String) : Pattern → Bool
  | .enum _ variant _ _ => variant == name
  | _ => false

/-- The arm that `emit_result_match_*` keeps for a branch: the last one of its kind. -/
def lastArm (test : Pattern → Bool) (arms : List Pattern) : Option (Pattern × Nat) :=
  arms.zipIdx.reverse.find? fun a => test a.1

def isOther (p : Pattern) : Bool := !isVariant "Ok" p && !isVariant "Err" p

def okOf : Value → Option Value
  | .ok value => some value
  | _ => none

def errOf : Value → Option Value
  | .err value => some value
  | _ => none

/-- Only the first payload pattern of an `Ok` or `Err` arm binds. -/
def bindResultArm (part : Value → Option Value) (read : Reading) : Pattern → List (String × Option Value)
  | .enum _ _ (.ident name _ :: _) _ => [(name,part (read 1))]
  | _ => []

def selectBranch (name : String) (part : Value → Option Value) (arms : List Pattern) (read : Reading) :
    Option Chosen :=
  match lastArm (isVariant name) arms with
  | some a => some ⟨a.2,bindResultArm part read a.1⟩
  | none => (lastArm isOther arms).map fun a => ⟨a.2,[]⟩

def selectResult (arms : List Pattern) (read : Reading) : Option (Option Chosen) :=
  match read 0 with
  | .ok _ => some (selectBranch "Ok" okOf arms read)
  | .err _ => some (selectBranch "Err" errOf arms read)
  | _ => none

def octal (c : Char) : Option Nat :=
  if '0' ≤ c ∧ c ≤ '7' then some (c.toNat - '0'.toNat) else none

/-- What `osc_str_from_cstr` makes of an escaped literal: a NUL, escaped as an octal `\0`, takes up
to two digits behind it, and ends the string when there are none but zeros. -/
def cString : List Char → List Char
  | [] => []
  | '\x00' :: a :: b :: cs =>
    match octal a,octal b with
    | some m,some n => if 8 * m + n = 0 then [] else Char.ofNat (8 * m + n) :: cString cs
    | some m,none => if m = 0 then [] else Char.ofNat m :: cString (b :: cs)
    | none,_ => []
  | ['\x00',a] =>
    match octal a with
    | some m => if m = 0 then [] else [Char.ofNat m]
    | none => []
  | ['\x00'] => []
  | c :: cs => c :: cString cs

/-- A float is printed without a point when it is integral, and no integer of C reaches 2^63. -/
def legalLiteral : Pattern → Bool
  | .floatLit x _ => decide (x.magnitude < 0x43E0000000000000)
  | _ => true

/-- `emit_comparison` with `pattern_to_c`. -/
def cEquals : Pattern → Value → Bool
  | .intLit value _,.int n => n == value
  | .floatLit value _,.float x => x.eq value
  | .stringLit value _,.str s => s.toList == cString value.toList
  | .boolLit value _,.bool b => b == value
  | _,_ => false

/-- `emit_literal_match_*`, from an evaluation of the text on. -/
def selectLiteral (read : Reading) : Nat → List Pattern → Option Chosen
  | _,[] => none
  | k,.wildcard _ :: _ => some ⟨k,[]⟩
  | k,.ident name _ :: _ => some ⟨k,[(name,some (read k))]⟩
  | k,p :: ps => if cEquals p (read k) then some ⟨k,[]⟩ else selectLiteral read (k + 1) ps

/-- `emit_match`; no arm at all leaves a brace over, which C rejects. -/
def selectC (scrutinee : BcType) (valued : Bool) (arms : List Pattern) (read : Reading) : Option (Option Chosen) :=
  match scrutinee with
  | .enum _ => selectEnum valued arms read
  | .result _ _ => selectResult arms read
  | _ =>
    if arms ≠ [] ∧ (arms.takeWhile fun p => !isCatchAll p).all legalLiteral then some (selectLiteral read 0 arms)
    else none

end C

section Object

/-- `imm as i32` -/
def wrap32 (n : Int) : Int := (n + 2^31) % 2^32 - 2^31

/-- `lower_pattern_test`; a comparison of an i64 with the i32 constant of the pattern is refused. -/
def objectTest (scrutinee : BcType) : Pattern → Value → Option Bool
  | .wildcard _,_ | .ident ..,_ => some true
  | .intLit value _,.int n => if scrutinee = .i32 then some (n == wrap32 value) else none
  | .floatLit value _,.float x => some (x.eq value)
  | .boolLit value _,.bool b => some (b == value)
  | .stringLit value _,.str s => some (s == value)
  | .enum _ variant _ _,.enum _ tag _ => some (tag == variant)
  | .enum _ variant _ _,.ok _ => some (variant == "Ok")
  | .enum _ variant _ _,.err _ => some (variant != "Ok")
  | _,_ => none

/-- The names directly in a payload position. -/
def bindFields (variant : String) (v : Value) : Nat → List Pattern → List (String × Option Value)
  | _,[] => []
  | i,.ident name _ :: ps => (name,payloadAt variant i v) :: bindFields variant v (i + 1) ps
  | i,_ :: ps => bindFields variant v (i + 1) ps

/-- `bind_pattern` -/
def bindObject (v : Value) : Pattern → List (String × Option Value)
  | .ident name _ => [(name,some v)]
  | .enum enumName variant bindings _ =>
    if enumName = "Result" then
      match bindings with
      | .ident name _ :: _ => [(name,if variant = "Ok" then okOf v else errOf v)]
      | _ => []
    else bindFields variant v 0 bindings
  | _ => []

/-- `lower_match`, from the arm of a position on: the last arm is executed without a test, and a test
that is refused leaves no code. -/
def selectObject (scrutinee : BcType) (v : Value) : Nat → List Pattern → Option (Option Chosen)
  | _,[] => none
  | i,[p] => some (some ⟨i,bindObject v p⟩)
  | i,p :: ps => do
    let test ← objectTest scrutinee p v
    let rest ← selectObject scrutinee v (i + 1) ps
    some (if test then some ⟨i,bindObject v p⟩ else rest)

end Object

end Oscan.Selection
