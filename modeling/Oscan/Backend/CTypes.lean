import Oscan.Backend.WellFounded
import Oscan.Codegen.Declarations
import Oscan.Library.CLayout

/-! The types that the C file declares, and their layouts by the rule of C. -/
namespace Oscan.Backend
open Codegen Library.CLayout

/-- The declaration that a name stands for; a name that is declared twice stands for nothing. -/
def typedefOf (program : Ir.Program) (name : String) : Option CTypeDecl :=
  match (sourceDecls program).filter fun decl => typeDeclName decl == name with
  | [decl] => some decl
  | _ => none

/-- The layout of `typedef struct { int tag; union { … } data; } Name;`, with the offsets of the payload
fields of each variant. A variant without a payload has no member in the union. -/
structure CEnum where
  payloadOffset : Nat
  total : Extent
  fieldOffsets : List (String × List Nat)

section
variable (lay : BcType → Option Extent)

/-- `typedef struct { … } Name;` -/
def cStruct (fields : List (String × BcType)) : Option (List Nat × Extent) :=
  if (fields.map (·.1)).Nodup then (fields.mapM fun f => lay f.2).map memberLayout else none

def cPayload (v : String × List BcType) : Option (String × List Nat × Extent) :=
  (v.2.mapM lay).map fun members => (v.1,memberLayout members)

/-- Without payloads it is `typedef int Name;`. The tags of the variants are macros. -/
def cEnum (variants : List (String × List BcType)) : Option CEnum :=
  if (variants.map (·.1)).Nodup then
    if variants.any fun v => !v.2.isEmpty then do
      let payloads ← variants.mapM (cPayload lay)
      let data := unionExtent ((payloads.filter fun p => !p.2.1.isEmpty).map (·.2.2))
      let whole := taggedUnion (.scalar 4) data
      return ⟨whole.1,whole.2,payloads.map fun p => (p.1,p.2.1.map (· + whole.1))⟩
    else some ⟨0,.scalar 4,[]⟩
  else none

/-- The success of type unit is a `uint8_t`. -/
def cSuccess (ok : BcType) : Option Extent := if ok = .unit then some (.scalar 1) else lay ok

/-- `OSC_RESULT_DECL`: a `uint8_t` and a union of the arms -/
def cResult (ok err : BcType) : Option (Nat × Extent) := do
  let okMember ← cSuccess lay ok
  let errMember ← lay err
  return taggedUnion (.scalar 1) (unionExtent [okMember,errMember])

def cDeclared : CTypeDecl → Option Extent
  | .struct _ fields => (cStruct lay fields).map (·.2)
  | .enum _ variants => (cEnum lay variants).map (·.total)
  | _ => none

end

variable (program : Ir.Program)

/-- The extent of the type that `type_to_c` names; `void` is no type of a member. -/
def cLayoutOf : Nat → BcType → Option Extent
  | 0,_ => none
  | depth + 1,ty =>
    match ty with
    | .unit => none
    | .i32 => some (.scalar 4)
    | .i64 | .f64 => some (.scalar 8)
    | .bool => some (.scalar 1)
    | .str => some (memberLayout [.scalar 8,.scalar 4]).2
    | .handle | .map | .mapStrI32 | .mapStrI64 | .mapStrF64 | .mapI32Str | .mapI32I32 | .array _ | .fixedArray ..
    | .fnPtr .. => some (.scalar 8)
    | .struct name | .enum name => (typedefOf program name).bind (cDeclared (cLayoutOf depth))
    | .result ok err => (cResult (cLayoutOf depth) ok err).map (·.2)

variable {program}

section
variable {lay lay' : BcType → Option Extent}

theorem cStruct_extends (extended : Extends lay lay') {fields : List (String × BcType)} {r : List Nat × Extent}
    (found : cStruct lay fields = some r) : cStruct lay' fields = some r := by
  unfold cStruct at found ⊢
  split at found
  next distinct =>
    obtain ⟨members,collected,same⟩ := Option.map_eq_some_iff.mp found
    rw [if_pos distinct,mapM_extends (fun f l => extended f.2 l) collected,Option.map_some,same]
  next => cases found

theorem cPayload_extends (extended : Extends lay lay') (v : String × List BcType)
    (p : String × List Nat × Extent) (found : cPayload lay v = some p) : cPayload lay' v = some p := by
  obtain ⟨members,collected,same⟩ := Option.map_eq_some_iff.mp found
  rw [cPayload,mapM_extends extended collected,Option.map_some,same]

theorem cEnum_extends (extended : Extends lay lay') {variants : List (String × List BcType)} {r : CEnum}
    (found : cEnum lay variants = some r) : cEnum lay' variants = some r := by
  unfold cEnum at found ⊢
  split at found
  next distinct =>
    rw [if_pos distinct]
    split at found
    next payload =>
      simp only [Option.bind_eq_bind,Option.bind_eq_some_iff,Option.pure_def] at found
      obtain ⟨payloads,collected,same⟩ := found
      rw [if_pos payload,Option.bind_eq_bind,mapM_extends (cPayload_extends extended) collected]
      exact same
    next flat => exact (if_neg flat).trans found
  next => cases found

theorem cResult_extends (extended : Extends lay lay') {ok err : BcType} {r : Nat × Extent}
    (found : cResult lay ok err = some r) : cResult lay' ok err = some r := by
  simp only [cResult,Option.bind_eq_bind,Option.bind_eq_some_iff,Option.pure_def] at found ⊢
  obtain ⟨okMember,okFound,errMember,errFound,same⟩ := found
  refine ⟨okMember,?_,errMember,extended _ _ errFound,same⟩
  unfold cSuccess at okFound ⊢
  split at okFound
  next unit => exact (if_pos unit).trans okFound
  next value => exact (if_neg value).trans (extended _ _ okFound)

theorem cDeclared_extends (extended : Extends lay lay') {decl : CTypeDecl} {e : Extent}
    (found : cDeclared lay decl = some e) : cDeclared lay' decl = some e := by
  cases decl with
  | struct name fields =>
    obtain ⟨r,inner,same⟩ := Option.map_eq_some_iff.mp found
    exact Option.map_eq_some_iff.mpr ⟨r,cStruct_extends extended inner,same⟩
  | enum name variants =>
    obtain ⟨r,inner,same⟩ := Option.map_eq_some_iff.mp found
    exact Option.map_eq_some_iff.mpr ⟨r,cEnum_extends extended inner,same⟩
  | _ => cases found

end

theorem cLayoutOf_succ : ∀ depth, Extends (cLayoutOf program depth) (cLayoutOf program (depth + 1))
  | 0,_,_,found => nomatch found
  | depth + 1,ty,e,found => by
    have extended := cLayoutOf_succ depth
    cases ty with
    | struct name | enum name =>
      obtain ⟨decl,named,inner⟩ := Option.bind_eq_some_iff.mp found
      exact Option.bind_eq_some_iff.mpr ⟨decl,named,cDeclared_extends extended inner⟩
    | result ok err =>
      obtain ⟨r,inner,same⟩ := Option.map_eq_some_iff.mp found
      exact Option.map_eq_some_iff.mpr ⟨r,cResult_extends extended inner,same⟩
    | _ => exact found

end Oscan.Backend
