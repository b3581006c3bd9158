import Oscan.Backend.Emitted
import Oscan.Backend.Fitting

/-! The layouts of the object backends are those of the C file. -/
namespace Oscan.Backend
open Semantic Semantic.Analyzer Codegen Library.CLayout

section
variable (info : SemanticInfo) (program : Ir.Program)

/-- The fields lie behind `start` one after the other, aligned and inside the whole. -/
structure Placed (start : Nat) (offsets : List UInt32) (members : List Layout) (total : Layout) : Prop where
  each : offsets.length = members.length
  packed : Packed start ((offsets.map UInt32.toNat).zip (members.map Layout.extent)) total.size.toNat

/-- `struct_layout` and the declaration of the struct in C -/
def StructAgrees (name : String) : Prop :=
  ∃ depth s members offsets total fields, info.structs.lookup name = some s ∧
    s.fields.mapM (fun f => layoutOf info depth f.2) = some members ∧
    structLayout (layoutOf info depth) info name = some (offsets,total) ∧
    Placed 0 offsets members total ∧ total.align.toNat ∣ total.size.toNat ∧
    typedefOf program name = some (.struct name fields) ∧
    cStruct (cLayoutOf program depth) fields = some (offsets.map UInt32.toNat,total.extent)

def EnumLayout.inC (layout : EnumLayout) : CEnum :=
  ⟨layout.payloadOffset.toNat,layout.total.extent,
    layout.variantFieldOffsets.map fun v => (v.1,v.2.map UInt32.toNat)⟩

/-- The fields of the variants lie behind the tag, which is the first four bytes. -/
def PayloadsPlaced (lay : BcType → Option Layout) (variants : List (String × List BcType)) (layout : EnumLayout) :
    Prop :=
  4 ≤ layout.payloadOffset.toNat ∧ List.Forall₂ (fun v offsets => offsets.1 = v.1 ∧ ∃ members,
    v.2.mapM lay = some members ∧ Placed layout.payloadOffset.toNat offsets.2 members layout.total)
      variants layout.variantFieldOffsets

/-- `enum_layout` and the declaration of the enum in C -/
def EnumAgrees (name : String) : Prop :=
  ∃ depth e layout variants, info.enums.lookup name = some e ∧
    enumLayout (layoutOf info depth) info name = some layout ∧
    (layout.hasPayload = true → PayloadsPlaced (layoutOf info depth) e.variants layout) ∧
    4 ≤ layout.total.size.toNat ∧ layout.total.align.toNat ∣ layout.total.size.toNat ∧
    typedefOf program name = some (.enum name variants) ∧
    cEnum (cLayoutOf program depth) variants = some layout.inC

/-- `result_layout` and the declaration of the Result type in C -/
def ResultAgrees (ok err : BcType) : Prop :=
  ∃ depth r okLayout errLayout, resultLayout (layoutOf info depth) ok err = some r ∧
    layoutOf info depth ok = some okLayout ∧ layoutOf info depth err = some errLayout ∧
    Placed 1 [r.okOffset] [okLayout] r.total ∧ Placed 1 [r.errOffset] [errLayout] r.total ∧
    r.total.align.toNat ∣ r.total.size.toNat ∧ r.okOffset = r.payloadOffset ∧ r.errOffset = r.payloadOffset ∧
    cResult (cLayoutOf program depth) ok err = some (r.payloadOffset.toNat,r.total.extent)

def Agrees : BcType → Prop
  | .struct name => StructAgrees info program name
  | .enum name => EnumAgrees info program name
  | .result ok err => ResultAgrees info program ok err
  | _ => True

/-- The layouts of a type and of all types that it contains by value are those of C. -/
def LayoutsAgree (ty : BcType) : Prop :=
  ∀ part, Relation.ReflTransGen (Contains info) ty part → Agrees info program part

def Small (ty : BcType) : Prop := ∀ depth e, cLayoutOf program depth ty = some e → e.size < 2 ^ 32

/-- The type has a declaration in C, and a size below 2 ^ 32; the failure beside a success of type unit has
a size at all. -/
def Declarable : BcType → Prop
  | .struct name => Small program (.struct name) ∧ (typedefOf program name).isSome = true ∧
    ∀ s, info.structs.lookup name = some s → (s.fields.map (·.1)).Nodup ∧ ∀ f ∈ s.fields, f.2 ≠ .unit
  | .enum name => Small program (.enum name) ∧ (typedefOf program name).isSome = true ∧
    ∀ e, info.enums.lookup name = some e → (e.variants.map (·.1)).Nodup ∧ ∀ v ∈ e.variants, ∀ ty ∈ v.2, ty ≠ .unit
  | .result ok err => Small program (.result ok err) ∧ err ≠ .unit ∧
    (ok = .unit → ∀ depth e, cLayoutOf program depth err = some e → e.size ≠ 0)
  | _ => True

/-- Both sides know the type, and agree on size and alignment. -/
def Known (depth : Nat) (ty : BcType) : Prop :=
  ∃ l, layoutOf info depth ty = some l ∧ cLayoutOf program depth ty = some l.extent

end

variable {info : SemanticInfo} {program : Ir.Program} {depth : Nat}

theorem forall₂_of_mapM {α β : Type} {f : α → Option β} : ∀ {xs : List α} {ys : List β}, xs.mapM f = some ys →
    List.Forall₂ (fun x y => f x = some y) xs ys
  | [],ys,found => by
    cases found
    exact .nil
  | x :: xs,ys,found => by
    simp only [List.mapM_cons,Option.bind_eq_bind,Option.bind_eq_some_iff,Option.pure_def,Option.some.injEq] at found
    obtain ⟨y,head,rest,tail,rfl⟩ := found
    exact .cons head (forall₂_of_mapM tail)

theorem mapM_of_forall₂ {α β : Type} {f : α → Option β} {xs : List α} {ys : List β}
    (found : List.Forall₂ (fun x y => f x = some y) xs ys) : xs.mapM f = some ys := by
  induction found with
  | nil => rfl
  | cons head _ ih => rw [List.mapM_cons,head,ih]; rfl

theorem forall₂_exists {α β : Type} {R : α → β → Prop} : ∀ {xs : List α}, (∀ x ∈ xs, ∃ y, R x y) →
    ∃ ys, List.Forall₂ R xs ys
  | [],_ => ⟨[],.nil⟩
  | x :: xs,each => by
    have ⟨⟨y,here⟩,others⟩ := List.forall_mem_cons.mp each
    obtain ⟨ys,rest⟩ := forall₂_exists others
    exact ⟨y :: ys,.cons here rest⟩

theorem forall₂_right {α β : Type} {R : α → β → Prop} {P : β → Prop} {xs : List α} {ys : List β}
    (related : List.Forall₂ R xs ys) (each : ∀ x y, R x y → P y) : ∀ y ∈ ys, P y := by
  induction related with
  | nil => exact fun _ member => absurd member List.not_mem_nil
  | cons head _ ih => exact List.forall_mem_cons.mpr ⟨each _ _ head,ih⟩

theorem forall₂_mem {α β : Type} {R : α → β → Prop} {xs : List α} {ys : List β} (related : List.Forall₂ R xs ys) :
    List.Forall₂ (fun x y => R x y ∧ y ∈ ys) xs ys := by
  induction related with
  | nil => exact .nil
  | cons head _ ih =>
    exact .cons ⟨head,List.mem_cons_self⟩ (ih.imp fun _ _ found => ⟨found.1,List.mem_cons_of_mem _ found.2⟩)

section
variable {lay : BcType → Option Extent}

theorem cStruct_sound (sound : ∀ ty e, lay ty = some e → e.Sound 3) {fields : List (String × BcType)}
    {r : List Nat × Extent} (found : cStruct lay fields = some r) : r.2.Sound 3 := by
  unfold cStruct at found
  split at found
  · obtain ⟨members,collected,rfl⟩ := Option.map_eq_some_iff.mp found
    exact memberLayout_sound (forall₂_right (forall₂_of_mapM collected) fun f e laid => (sound f.2 e laid).power)
  · cases found

theorem cPayload_sound (sound : ∀ ty e, lay ty = some e → e.Sound 3) {v : String × List BcType}
    {p : String × List Nat × Extent} (found : cPayload lay v = some p) : p.2.2.Sound 3 := by
  obtain ⟨members,collected,rfl⟩ := Option.map_eq_some_iff.mp found
  exact memberLayout_sound (forall₂_right (forall₂_of_mapM collected) fun ty e laid => (sound ty e laid).power)

theorem four_power : (4 : Nat) ∣ 2 ^ 3 := ⟨2,rfl⟩

theorem cEnum_sound (sound : ∀ ty e, lay ty = some e → e.Sound 3) {variants : List (String × List BcType)}
    {c : CEnum} (found : cEnum lay variants = some c) : c.total.Sound 3 := by
  unfold cEnum at found
  split at found
  · split at found
    · simp only [Option.bind_eq_bind,Option.bind_eq_some_iff,Option.pure_def,Option.some.injEq] at found
      obtain ⟨payloads,collected,rfl⟩ := found
      have each := forall₂_right (forall₂_of_mapM collected) fun v p laid => (cPayload_sound sound laid).power
      refine taggedUnion_sound four_power (unionExtent_sound ?_).power
      exact List.forall_mem_map.mpr fun p member => each p (List.mem_filter.mp member).1
    · cases found
      exact ⟨four_power,Nat.dvd_refl _⟩
  · cases found

theorem cSuccess_sound (sound : ∀ ty e, lay ty = some e → e.Sound 3) {ok : BcType} {e : Extent}
    (found : cSuccess lay ok = some e) : e.Sound 3 := by
  unfold cSuccess at found
  split at found
  · cases found
    exact ⟨Nat.one_dvd _,Nat.dvd_refl _⟩
  · exact sound ok e found

theorem cResult_sound (sound : ∀ ty e, lay ty = some e → e.Sound 3) {ok err : BcType} {r : Nat × Extent}
    (found : cResult lay ok err = some r) : r.2.Sound 3 := by
  simp only [cResult,Option.bind_eq_bind,Option.bind_eq_some_iff,Option.pure_def,Option.some.injEq] at found
  obtain ⟨okMember,okFound,errMember,errFound,rfl⟩ := found
  refine taggedUnion_sound (Nat.one_dvd _) (unionExtent_sound ?_).power
  exact List.forall_mem_cons.mpr ⟨(cSuccess_sound sound okFound).power,
    List.forall_mem_singleton.mpr (sound err errMember errFound).power⟩

end

/-- Alignments in C divide 8. -/
theorem cLayoutOf_sound : ∀ {depth : Nat} {ty : BcType} {e : Extent}, cLayoutOf program depth ty = some e → e.Sound 3
  | 0,_,_,found => nomatch found
  | depth + 1,ty,e,found => by
    have sound := fun ty e found => @cLayoutOf_sound depth ty e found
    have scalar {bytes : Nat} (power : bytes ∣ 2 ^ 3) (same : some (Extent.scalar bytes) = some e) : e.Sound 3 := by
      cases same
      exact ⟨power,Nat.dvd_refl _⟩
    cases ty with
    | unit => cases found
    | i32 => exact scalar four_power found
    | bool => exact scalar (Nat.one_dvd _) found
    | str =>
      cases found
      exact memberLayout_sound (List.forall_mem_cons.mpr ⟨Nat.dvd_refl _,List.forall_mem_singleton.mpr four_power⟩)
    | struct name | enum name =>
      obtain ⟨decl,-,inner⟩ := Option.bind_eq_some_iff.mp found
      cases decl with
      | struct _ fields =>
        obtain ⟨r,collected,rfl⟩ := Option.map_eq_some_iff.mp inner
        exact cStruct_sound sound collected
      | enum _ variants =>
        obtain ⟨c,collected,rfl⟩ := Option.map_eq_some_iff.mp inner
        exact cEnum_sound sound collected
      | _ => cases inner
    | result ok err =>
      obtain ⟨r,collected,rfl⟩ := Option.map_eq_some_iff.mp found
      exact cResult_sound sound collected
    | _ => exact scalar (Nat.dvd_refl _) found

theorem Known.mono {more : Nat} {ty : BcType} (known : Known info program depth ty) (deeper : depth ≤ more) :
    Known info program more ty := by
  obtain ⟨l,laid,declared⟩ := known
  exact ⟨l,extends_mono layoutOf_succ deeper ty l laid,extends_mono cLayoutOf_succ deeper ty l.extent declared⟩

end Oscan.Backend
