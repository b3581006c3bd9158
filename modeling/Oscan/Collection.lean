import Oscan.Types

/-! Collection intrinsics: the reserved `array_*` names and their signatures. -/
namespace Oscan

inductive CoreType where
  | bool | i32 | i64 | f64 | str
deriving DecidableEq

namespace CoreType

def fromSuffix : String → Option CoreType
  | "bool" => some .bool
  | "i32" => some .i32
  | "i64" => some .i64
  | "f64" => some .f64
  | "str" => some .str
  | _ => none

def suffix : CoreType → String
  | .bool => "bool"
  | .i32 => "i32"
  | .i64 => "i64"
  | .f64 => "f64"
  | .str => "str"

def bcType : CoreType → BcType
  | .bool => .bool
  | .i32 => .i32
  | .i64 => .i64
  | .f64 => .f64
  | .str => .str

end CoreType

inductive CollectionOp where
  | clone | repeat | reverse | fill | swap | clear | extend | insert | removeAt | slice
  | contains | indexOf | lastIndexOf | count | compare | sort
  | any | all | map | filter | fold | forEach
deriving DecidableEq

structure CollectionIntrinsic where
  op : CollectionOp
  source : Option CoreType
  target : Option CoreType
deriving DecidableEq

def arrayElementType : BcType → Option BcType
  | .array elem | .fixedArray elem _ => some elem
  | _ => none

/-- `str::strip_prefix`. -/
def stripPrefix (lead name : String) : Option String :=
  if lead.toList.isPrefixOf name.toList then
    some (String.ofList (name.toList.drop lead.toList.length))
  else none

private def splitAtFirst (sep : List Char) : List Char → Option (List Char × List Char)
  | [] => none
  | c :: cs =>
    if sep.isPrefixOf (c :: cs) then some ([],(c :: cs).drop sep.length)
    else (splitAtFirst sep cs).map fun parts => (c :: parts.1,parts.2)

/-- `str::split_once` with a non-empty separator. -/
def splitOnce (sep name : String) : Option (String × String) :=
  (splitAtFirst sep.toList name.toList).map fun parts =>
    (String.ofList parts.1,String.ofList parts.2)

namespace CollectionIntrinsic

def genericOp : String → Option CollectionOp
  | "array_clone" => some .clone
  | "array_repeat" => some .repeat
  | "array_reverse" => some .reverse
  | "array_fill" => some .fill
  | "array_swap" => some .swap
  | "array_clear" => some .clear
  | "array_extend" => some .extend
  | "array_insert" => some .insert
  | "array_remove_at" => some .removeAt
  | "array_slice" => some .slice
  | _ => none

def typedFamilies : List (String × CollectionOp) :=
  [("array_last_index_of_",.lastIndexOf),("array_index_of_",.indexOf),
   ("array_contains_",.contains),("array_compare_",.compare),
   ("array_for_each_",.forEach),("array_filter_",.filter),
   ("array_count_",.count),("array_sort_",.sort),("array_fold_",.fold),
   ("array_any_",.any),("array_all_",.all)]

def resolve (name : String) : Option CollectionIntrinsic :=
  match genericOp name with
  | some op => some ⟨op,none,none⟩
  | none =>
    match stripPrefix "array_map_" name with
    | some rest => do
      let (source,target) ← splitOnce "_to_" rest
      return ⟨.map,some (← CoreType.fromSuffix source),some (← CoreType.fromSuffix target)⟩
    | none => do
      let (op,suffix) ← typedFamilies.findSome? fun family =>
        (stripPrefix family.1 name).map fun suffix => (family.2,suffix)
      return ⟨op,some (← CoreType.fromSuffix suffix),none⟩

def resolveWithAlias (name : String) : Option CollectionIntrinsic :=
  resolve (match name with
    | "sort_i32" => "array_sort_i32"
    | "sort_i64" => "array_sort_i64"
    | "sort_f64" => "array_sort_f64"
    | "sort_str" => "array_sort_str"
    | _ => name)

variable (self : CollectionIntrinsic)

def arity : Nat :=
  match self.op with
  | .clone | .reverse | .clear | .sort => 1
  | .repeat | .fill | .extend | .removeAt | .contains | .indexOf | .lastIndexOf
  | .count | .compare | .any | .all | .map | .filter | .forEach => 2
  | .swap | .insert | .slice | .fold => 3

def isMutating : Bool :=
  match self.op with
  | .reverse | .fill | .swap | .clear | .extend | .insert | .removeAt | .sort => true
  | _ => false

def requiresDynamicArray : Bool :=
  match self.op with
  | .clear | .extend | .insert | .removeAt => true
  | _ => false

def isPure : Bool :=
  match self.op with
  | .contains | .indexOf | .lastIndexOf | .count | .compare | .any | .all | .fold => true
  | _ => false

def isHigherOrder : Bool :=
  match self.op with
  | .any | .all | .map | .filter | .fold | .forEach => true
  | _ => false

def callbackType : Option BcType := do
  let source ← self.source.map CoreType.bcType
  match self.op with
  | .any | .all | .filter => return .fnPtr [source] .bool true
  | .map => return .fnPtr [source] (← self.target).bcType true
  | .fold => return .fnPtr [source,source] source true
  | .forEach => return .fnPtr [source] .unit false
  | _ => none

/-- The runtime routine of an operation without a callback. -/
def runtimeSymbol : String :=
  let suffix := (self.source.map CoreType.suffix).getD ""
  match self.op with
  | .clone => "osc_array_clone"
  | .repeat => "osc_array_repeat"
  | .reverse => "osc_array_reverse"
  | .fill => "osc_array_fill"
  | .swap => "osc_array_swap"
  | .clear => "osc_array_clear"
  | .extend => "osc_array_extend"
  | .insert => "osc_array_insert"
  | .removeAt => "osc_array_remove_at"
  | .slice => "osc_array_slice"
  | .contains => "osc_array_contains_" ++ suffix
  | .indexOf => "osc_array_index_of_" ++ suffix
  | .lastIndexOf => "osc_array_last_index_of_" ++ suffix
  | .count => "osc_array_count_" ++ suffix
  | .compare => "osc_array_compare_" ++ suffix
  | .sort => "osc_array_sort_" ++ suffix
  | _ => ""

def callbackIndex : Option Nat :=
  match self.op with
  | .any | .all | .map | .filter | .forEach => some 1
  | .fold => some 2
  | _ => none

/-- The operations with no element type in their name. -/
def isGeneric : CollectionOp → Bool
  | .clone | .repeat | .reverse | .fill | .swap | .clear | .extend | .insert | .removeAt
  | .slice => true
  | _ => false

private theorem genericOp_generic {name : String} {op : CollectionOp}
    (found : genericOp name = some op) : isGeneric op = true := by
  unfold genericOp at found
  split at found <;> simp_all [isGeneric]
  all_goals subst found; rfl

private theorem typedFamilies_typed {family : String × CollectionOp}
    (member : family ∈ typedFamilies) : isGeneric family.2 = false ∧ family.2 ≠ .map := by
  simp only [typedFamilies,List.mem_cons,List.not_mem_nil,or_false] at member
  rcases member with rfl | rfl | rfl | rfl | rfl | rfl | rfl | rfl | rfl | rfl | rfl <;>
    simp [isGeneric]

/-- A generic operation has no element type, any other one has; `map` alone has a second. -/
theorem resolve_shape {name : String} {intrinsic : CollectionIntrinsic}
    (resolved : resolve name = some intrinsic) :
    (isGeneric intrinsic.op = true → intrinsic.source = none) ∧
    (isGeneric intrinsic.op = false → ∃ source, intrinsic.source = some source) ∧
    (intrinsic.op = .map → ∃ target, intrinsic.target = some target) := by
  unfold resolve at resolved
  split at resolved
  next op found =>
    have generic := genericOp_generic found
    obtain rfl := Option.some.inj resolved
    refine ⟨fun _ => rfl,fun typed => ?_,fun same => ?_⟩
    · simp [generic] at typed
    · dsimp only at same
      simp [same,isGeneric] at generic
  next =>
    split at resolved
    next rest _ =>
      simp only [Option.bind_eq_bind,Option.bind_eq_some_iff] at resolved
      obtain ⟨parts,-,source,-,target,-,made⟩ := resolved
      obtain rfl := Option.some.inj made
      exact ⟨by simp [isGeneric],fun _ => ⟨source,rfl⟩,fun _ => ⟨target,rfl⟩⟩
    next =>
      simp only [Option.bind_eq_bind,Option.bind_eq_some_iff,List.findSome?_eq_some_iff] at resolved
      obtain ⟨found,⟨before,family,after,split,suffix,-⟩,source,-,made⟩ := resolved
      obtain rfl := Option.some.inj made
      simp only [Option.map_eq_some_iff] at suffix
      obtain ⟨_,-,rfl⟩ := suffix
      have member : family ∈ typedFamilies := by simp [split]
      obtain ⟨typed,other⟩ := typedFamilies_typed member
      exact ⟨by simp [typed],fun _ => ⟨source,rfl⟩,fun same => absurd same other⟩

theorem resolveWithAlias_shape {name : String} {intrinsic : CollectionIntrinsic}
    (resolved : resolveWithAlias name = some intrinsic) :
    (isGeneric intrinsic.op = true → intrinsic.source = none) ∧
    (isGeneric intrinsic.op = false → ∃ source, intrinsic.source = some source) ∧
    (intrinsic.op = .map → ∃ target, intrinsic.target = some target) :=
  resolve_shape resolved

/-- The calls the checker knows by name are no collection intrinsics. -/
theorem resolve_special {name : String} (special : name = "len" ∨ name = "push" ∨ name = "pop") :
    resolveWithAlias name = none := by
  rcases special with rfl | rfl | rfl <;> decide

end CollectionIntrinsic

example : CollectionIntrinsic.resolveWithAlias "sort_str" =
    CollectionIntrinsic.resolve "array_sort_str" := by decide

end Oscan
