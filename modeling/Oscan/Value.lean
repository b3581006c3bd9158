import Mathlib.Algebra.Ring.Int.Defs
import Mathlib.Algebra.Ring.Nat
import Mathlib.Data.List.Forall2
import Oscan.Ast

/-! Run-time values, the types they have and the patterns they match. -/
namespace Oscan

/-- Arrays and maps are references: no pattern looks inside them. -/
inductive Value where
  | int (n : Int)
  | float (x : Binary64)
  | bool (b : Bool)
  | str (s : String)
  | unit
  | handle (bits : Int)
  | array (ref : Nat)
  | map (ref : Nat)
  | fn (name : String)
  | struct (name : String) (fields : List (String × Value))
  | enum (name variant : String) (payload : List Value)
  | ok (value : Value)
  | err (value : Value)

instance : Inhabited Value := ⟨.unit⟩

/-- The integers of `width` bits in two's complement. -/
def inRange (width : Nat) (n : Int) : Bool :=
  decide (-2^(width-1) ≤ n) && decide (n < 2^(width-1))

mutual
def Value.hasType (info : SemanticInfo) : Value → BcType → Bool
  | .int n,.i32 => inRange 32 n
  | .int n,.i64 => inRange 64 n
  | .float _,.f64 | .bool _,.bool | .str _,.str | .unit,.unit | .handle _,.handle => true
  | .map _,.map | .map _,.mapStrI32 | .map _,.mapStrI64 | .map _,.mapStrF64
  | .map _,.mapI32Str | .map _,.mapI32I32 => true
  | .array _,.array _ | .array _,.fixedArray .. | .fn _,.fnPtr .. => true
  | .struct name fields,.struct expected =>
    name == expected &&
      match info.structs.lookup expected with
      | some known => fieldsHaveTypes info fields known.fields
      | none => false
  | .enum name variant payload,.enum expected =>
    name == expected &&
      match (info.enums.lookup expected).bind fun known => known.variants.lookup variant with
      | some types => haveTypes info payload types
      | none => false
  | .ok value,.result ok _ => value.hasType info ok
  | .err value,.result _ err => value.hasType info err
  | _,_ => false
def haveTypes (info : SemanticInfo) : List Value → List BcType → Bool
  | [],[] => true
  | value :: values,ty :: types => value.hasType info ty && haveTypes info values types
  | _,_ => false
def fieldsHaveTypes (info : SemanticInfo) : List (String × Value) → List (String × BcType) → Bool
  | [],[] => true
  | (name,value) :: values,(field,ty) :: types =>
    name == field && value.hasType info ty && fieldsHaveTypes info values types
  | _,_ => false
end

mutual
/-- Whether the whole pattern matches, its payload patterns included. A literal or variant
at a payload of another type matches nothing. -/
def Pattern.matches : Pattern → Value → Bool
  | .wildcard _,_ | .ident ..,_ => true
  | .intLit value _,.int n => n == value
  | .floatLit value _,.float x => x.eq value
  | .stringLit value _,.str s => s == value
  | .boolLit value _,.bool b => b == value
  | .enum enumName variant bindings _,.enum name tag payload =>
    enumName == name && variant == tag && matchesAll bindings payload
  | .enum enumName variant bindings _,.ok value =>
    enumName == "Result" && variant == "Ok" && matchesAll bindings [value]
  | .enum enumName variant bindings _,.err value =>
    enumName == "Result" && variant == "Err" && matchesAll bindings [value]
  | _,_ => false
def matchesAll : List Pattern → List Value → Bool
  | [],[] => true
  | p :: ps,v :: vs => p.matches v && matchesAll ps vs
  | _,_ => false
end

variable {info : SemanticInfo}

theorem haveTypes_iff : ∀ {values : List Value} {types : List BcType},
    haveTypes info values types = true ↔
      List.Forall₂ (fun v ty => v.hasType info ty = true) values types
  | [],[] => by simp [haveTypes]
  | [],_ :: _ | _ :: _,[] => by simp [haveTypes]
  | v :: vs,ty :: types => by simp [haveTypes,haveTypes_iff]

theorem matchesAll_iff : ∀ {patterns : List Pattern} {values : List Value},
    matchesAll patterns values = true ↔ List.Forall₂ (fun p v => p.matches v = true) patterns values
  | [],[] => by simp [matchesAll]
  | [],_ :: _ | _ :: _,[] => by simp [matchesAll]
  | p :: ps,v :: vs => by simp [matchesAll,matchesAll_iff]

end Oscan
