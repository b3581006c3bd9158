import Oscan.Preservation.Defined
import Oscan.Value

/-! Types without values. A declaration refers to earlier ones only, so that the search for
a value ends after as many steps as there are declarations. -/
namespace Oscan
open Ast Semantic Semantic.Analyzer

/-- When a type has no value, given the structs and enums that have none. -/
def vacantType (struct enum : String → Bool) : BcType → Bool
  | .struct name => struct name
  | .enum name => enum name
  | .result ok err => vacantType struct enum ok && vacantType struct enum err
  | _ => false

/-- The structs and the enums without values, as far as `depth` steps of unfolding tell. -/
def vacantNames (info : SemanticInfo) : Nat → (String → Bool) × (String → Bool)
  | 0 => (fun _ => false,fun _ => false)
  | depth+1 =>
    let inner := vacantType (vacantNames info depth).1 (vacantNames info depth).2
    (fun name => ((info.structs.lookup name).map fun known =>
        known.fields.any fun f => inner f.2).getD true,
      fun name => ((info.enums.lookup name).map fun known =>
        known.variants.all fun v => ((known.variants.lookup v.1).getD []).any inner).getD true)

def vacant (info : SemanticInfo) (ty : BcType) : Bool :=
  let names := vacantNames info (info.structs.length+info.enums.length+1)
  vacantType names.1 names.2 ty

/-- A rank for each declared name. -/
structure Rank where
  struct : String → Nat
  enum : String → Nat

def BcType.ranked (rank : Rank) (bound : Nat) : BcType → Prop
  | .struct name => rank.struct name < bound
  | .enum name => rank.enum name < bound
  | .result ok err => ok.ranked rank bound ∧ err.ranked rank bound
  | _ => True

/-- Declarations refer to names of a lower rank, and there are no more ranks than names. -/
structure Layered (info : SemanticInfo) (rank : Rank) : Prop where
  fields : ∀ s ∈ info.structs, ∀ f ∈ s.2.fields, f.2.ranked rank (rank.struct s.1)
  payloads : ∀ e ∈ info.enums, ∀ v ∈ e.2.variants, ∀ ty ∈ v.2, ty.ranked rank (rank.enum e.1)
  struct : ∀ name, (info.structs.lookup name).isSome = true →
    rank.struct name < info.structs.length+info.enums.length
  enum : ∀ name, (info.enums.lookup name).isSome = true →
    rank.enum name < info.structs.length+info.enums.length

variable {info : SemanticInfo} {rank : Rank}

/-- Some value has the type. -/
def HasValue (info : SemanticInfo) (ty : BcType) : Prop := ∃ v : Value, v.hasType info ty = true

theorem fields_hasValue : ∀ {fields : List (String × BcType)},
    (∃ values, fieldsHaveTypes info values fields = true) ↔ ∀ f ∈ fields, HasValue info f.2
  | [] => by simpa using ⟨[],rfl⟩
  | (name,ty) :: fields => by
    rw [List.forall_mem_cons,← fields_hasValue]
    constructor
    · rintro ⟨values,typed⟩
      cases values with
      | nil => simp [fieldsHaveTypes] at typed
      | cons value values =>
        simp only [fieldsHaveTypes,Bool.and_eq_true] at typed
        exact ⟨⟨_,typed.1.2⟩,values,typed.2⟩
    · rintro ⟨⟨value,head⟩,values,tail⟩
      exact ⟨(name,value) :: values,by simp [fieldsHaveTypes,head,tail]⟩

theorem types_hasValue {types : List BcType} :
    (∃ values, haveTypes info values types = true) ↔ ∀ ty ∈ types, HasValue info ty := by
  induction types with
  | nil => simpa using ⟨[],rfl⟩
  | cons ty types ih =>
    rw [List.forall_mem_cons,← ih]
    constructor
    · rintro ⟨values,typed⟩
      cases values with
      | nil => simp [haveTypes] at typed
      | cons value values =>
        simp only [haveTypes,Bool.and_eq_true] at typed
        exact ⟨⟨_,typed.1⟩,values,typed.2⟩
    · rintro ⟨⟨value,head⟩,values,tail⟩
      exact ⟨value :: values,by simp [haveTypes,head,tail]⟩

theorem struct_hasValue {name : String} : HasValue info (.struct name) ↔
    ∃ known, info.structs.lookup name = some known ∧ ∀ f ∈ known.fields, HasValue info f.2 := by
  constructor
  · rintro ⟨v,typed⟩
    cases v <;> simp only [Value.hasType,Bool.false_eq_true] at typed
    rw [Bool.and_eq_true] at typed
    cases found : info.structs.lookup name with
    | none => simp [found] at typed
    | some known => exact ⟨known,rfl,fields_hasValue.mp ⟨_,by simpa [found] using typed.2⟩⟩
  · rintro ⟨known,found,fields⟩
    obtain ⟨values,typed⟩ := fields_hasValue.mpr fields
    exact ⟨.struct name values,by simp [Value.hasType,found,typed]⟩

theorem enum_hasValue {name : String} : HasValue info (.enum name) ↔
    ∃ known, info.enums.lookup name = some known ∧ ∃ variant types,
      known.variants.lookup variant = some types ∧ ∀ ty ∈ types, HasValue info ty := by
  constructor
  · rintro ⟨v,typed⟩
    cases v <;> simp only [Value.hasType,Bool.false_eq_true] at typed
    next enumName variant payload =>
      rw [Bool.and_eq_true] at typed
      cases found : (info.enums.lookup name).bind fun known => known.variants.lookup variant with
      | none => simp [found] at typed
      | some types =>
        obtain ⟨known,enumFound,variantFound⟩ := Option.bind_eq_some_iff.mp found
        exact ⟨known,enumFound,variant,types,variantFound,
          types_hasValue.mp ⟨payload,by simpa [found] using typed.2⟩⟩
  · rintro ⟨known,found,variant,types,variantFound,inhabited⟩
    obtain ⟨payload,typed⟩ := types_hasValue.mpr inhabited
    exact ⟨.enum name variant payload,by simp [Value.hasType,found,variantFound,typed]⟩

theorem BcType.ranked.mono {k n : Nat} (less : k ≤ n) : ∀ {ty : BcType}, ty.ranked rank k →
    ty.ranked rank n
  | .struct _,deep | .enum _,deep => Nat.lt_of_lt_of_le deep less
  | .result _ _,⟨ok,err⟩ => ⟨ok.mono less,err.mono less⟩
  | .i32,_ | .i64,_ | .f64,_ | .bool,_ | .str,_ | .unit,_ | .handle,_ | .map,_ | .mapStrI32,_
  | .mapStrI64,_ | .mapStrF64,_ | .mapI32Str,_ | .mapI32I32,_ | .array _,_ | .fixedArray ..,_
  | .fnPtr ..,_ => trivial

theorem lookup_of_mem {α : Type} {name : String} {value : α} : ∀ {table : List (String × α)},
    (name,value) ∈ table → ∃ first, table.lookup name = some first
  | (key,v) :: table,member => by
    rw [List.lookup_cons]
    split
    next => exact ⟨v,rfl⟩
    next apart =>
      refine lookup_of_mem ((List.mem_cons.mp member).resolve_left ?_)
      rintro ⟨⟩
      simp at apart

private theorem occupied {ty : BcType} (v : Value) (typed : v.hasType info ty = true) :
    false = true ↔ ¬HasValue info ty := by
  simp only [Bool.false_eq_true,false_iff,not_not]
  exact ⟨v,typed⟩

/-- The answer for a type is right where the answers for the names below it are. -/
theorem vacantType_exact {struct enum : String → Bool} {bound : Nat}
    (structs : ∀ name, rank.struct name < bound → (struct name = true ↔ ¬HasValue info (.struct name)))
    (enums : ∀ name, rank.enum name < bound → (enum name = true ↔ ¬HasValue info (.enum name))) :
    ∀ ty : BcType, ty.ranked rank bound → (vacantType struct enum ty = true ↔ ¬HasValue info ty)
  | .struct name,below => structs name below
  | .enum name,below => enums name below
  | .result ok err,⟨belowOk,belowErr⟩ => by
    simp only [vacantType,Bool.and_eq_true,vacantType_exact structs enums ok belowOk,
      vacantType_exact structs enums err belowErr]
    constructor
    · rintro ⟨noOk,noErr⟩ ⟨v,typed⟩
      cases v <;> simp only [Value.hasType,Bool.false_eq_true] at typed
      · exact noOk ⟨_,typed⟩
      · exact noErr ⟨_,typed⟩
    · intro none
      exact ⟨fun ⟨v,typed⟩ => none ⟨.ok v,typed⟩,fun ⟨v,typed⟩ => none ⟨.err v,typed⟩⟩
  | .i32,_ | .i64,_ => occupied (.int 0) (by simp [Value.hasType,inRange])
  | .f64,_ => occupied (.float .nan) rfl
  | .bool,_ => occupied (.bool true) rfl
  | .str,_ => occupied (.str "") rfl
  | .unit,_ => occupied .unit rfl
  | .handle,_ => occupied (.handle 0) rfl
  | .map,_ | .mapStrI32,_ | .mapStrI64,_ | .mapStrF64,_ | .mapI32Str,_ | .mapI32I32,_ =>
    occupied (.map 0) rfl
  | .array _,_ | .fixedArray ..,_ => occupied (.array 0) rfl
  | .fnPtr ..,_ => occupied (.fn "") rfl

theorem vacantNames_exact (layered : Layered info rank) : ∀ depth,
    (∀ name, (info.structs.lookup name = none ∨ rank.struct name < depth) → 0 < depth →
      ((vacantNames info depth).1 name = true ↔ ¬HasValue info (.struct name))) ∧
    (∀ name, (info.enums.lookup name = none ∨ rank.enum name < depth) → 0 < depth →
      ((vacantNames info depth).2 name = true ↔ ¬HasValue info (.enum name))) := by
  intro depth
  induction depth with
  | zero => simp
  | succ depth ih =>
    have inner (ty : BcType) (below : ty.ranked rank depth) :
        vacantType (vacantNames info depth).1 (vacantNames info depth).2 ty = true ↔
          ¬HasValue info ty :=
      vacantType_exact (fun name less => ih.1 name (.inr less) (by omega))
        (fun name less => ih.2 name (.inr less) (by omega)) ty below
    have shallow {k n : Nat} {ty : BcType} (deep : ty.ranked rank k) (less : k ≤ n) :
        ty.ranked rank n := deep.mono less
    constructor
    · intro name known _
      rw [struct_hasValue]
      simp only [vacantNames]
      cases found : info.structs.lookup name with
      | none => simp
      | some declared =>
        have less : rank.struct name ≤ depth := by
          rcases known with missing | less
          · simp [found] at missing
          · omega
        have fields (f : String × BcType) (member : f ∈ declared.fields) :=
          inner f.2 (shallow (layered.fields _ (mem_of_lookup found) f member) less)
        simp only [Option.map_some,Option.getD_some,List.any_eq_true,Option.some.injEq,
          exists_eq_left',not_forall]
        constructor
        · rintro ⟨f,member,none⟩
          exact ⟨f,member,(fields f member).mp none⟩
        · rintro ⟨f,member,none⟩
          exact ⟨f,member,(fields f member).mpr none⟩
    · intro name known _
      rw [enum_hasValue]
      simp only [vacantNames]
      cases found : info.enums.lookup name with
      | none => simp
      | some declared =>
        have less : rank.enum name ≤ depth := by
          rcases known with missing | less
          · simp [found] at missing
          · omega
        have payloads {variant : String} {types : List BcType}
            (given : declared.variants.lookup variant = some types) (ty : BcType)
            (member : ty ∈ types) := inner ty
          (shallow (layered.payloads _ (mem_of_lookup found) _ (mem_of_lookup given) ty member) less)
        simp only [Option.map_some,Option.getD_some,List.all_eq_true,Option.some.injEq,
          exists_eq_left',not_exists,not_and,not_forall]
        constructor
        · intro all variant types given
          have none := all _ (mem_of_lookup given)
          simp only [given,Option.getD_some,List.any_eq_true] at none
          obtain ⟨ty,member,none⟩ := none
          exact ⟨ty,member,(payloads given ty member).mp none⟩
        · rintro all ⟨variant,listed⟩ member
          obtain ⟨types,given⟩ := lookup_of_mem member
          obtain ⟨ty,inside,none⟩ := all variant types given
          simp only [given,Option.getD_some,List.any_eq_true]
          exact ⟨ty,inside,(payloads given ty inside).mpr none⟩

end Oscan
