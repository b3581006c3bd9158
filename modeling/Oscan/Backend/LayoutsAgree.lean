import Oscan.Backend.Agreement

/-! Which types have the same layouts on both sides. -/
namespace Oscan.Backend
open Semantic Semantic.Analyzer Codegen Library.CLayout

variable {info : SemanticInfo} {program : Ir.Program} {depth : Nat}

theorem Known.power {ty : BcType} {l : Layout} (declared : cLayoutOf program depth ty = some l.extent) :
    l.align.toNat ∣ 2 ^ 3 := (cLayoutOf_sound declared).power

/-- The layouts of types that are known, on both sides -/
theorem known_members {α : Type} {f : α → BcType} {xs : List α} (known : ∀ x ∈ xs, Known info program depth (f x)) :
    ∃ members : List Layout, xs.mapM (fun x => layoutOf info depth (f x)) = some members ∧
      xs.mapM (fun x => cLayoutOf program depth (f x)) = some (members.map Layout.extent) ∧
      ∀ m ∈ members, m.align.toNat ∣ 2 ^ 3 := by
  obtain ⟨members,both⟩ := forall₂_exists known
  refine ⟨members,mapM_of_forall₂ (both.imp fun _ _ found => found.1),mapM_of_forall₂ ?_,?_⟩
  · exact List.forall₂_map_right_iff.mpr (both.imp fun _ _ found => found.2)
  · exact forall₂_right both fun _ _ found => Known.power found.2

theorem extents_power {members : List Layout} (powers : ∀ m ∈ members, m.align.toNat ∣ 2 ^ 3) :
    ∀ m ∈ members.map Layout.extent, m.align ∣ 2 ^ 3 := List.forall_mem_map.mpr powers

theorem sequential_placed {members : List Layout} (powers : ∀ m ∈ members, m.align.toNat ∣ 2 ^ 3)
    (fits : (memberLayout (members.map Layout.extent)).2.size < 2 ^ 32) :
    Placed 0 (sequentialLayout members).1 members (sequentialLayout members).2 ∧
      (sequentialLayout members).2.align.toNat ∣ (sequentialLayout members).2.size.toNat := by
  obtain ⟨offsets,whole⟩ := sequential_extent powers fits
  have extents := extents_power powers
  have size : (sequentialLayout members).2.size.toNat = (memberLayout (members.map Layout.extent)).2.size :=
    congrArg Extent.size whole
  have sound := memberLayout_sound extents
  refine ⟨⟨?_,?_⟩,?_⟩
  · have count := congrArg List.length offsets
    rwa [List.length_map,memberLayout,placeMembers_length,List.length_map] at count
  · rw [offsets,size]
    exact memberLayout_packed extents
  · rw [← whole] at sound
    exact sound.whole

/-- The layouts of the payloads of the variants -/
theorem known_payloads {variants : List (String × List BcType)}
    (known : ∀ v ∈ variants, ∀ ty ∈ v.2, Known info program depth ty) :
    ∃ payloads : List (String × List Layout), List.Forall₂ (fun v p => p.1 = v.1 ∧
        v.2.mapM (layoutOf info depth) = some p.2 ∧
        v.2.mapM (cLayoutOf program depth) = some (p.2.map Layout.extent)) variants payloads ∧
      ∀ p ∈ payloads, ∀ m ∈ p.2, m.align.toNat ∣ 2 ^ 3 := by
  have each : ∀ v ∈ variants, ∃ p : String × List Layout, (p.1 = v.1 ∧ v.2.mapM (layoutOf info depth) = some p.2 ∧
      v.2.mapM (cLayoutOf program depth) = some (p.2.map Layout.extent)) ∧ ∀ m ∈ p.2, m.align.toNat ∣ 2 ^ 3 := by
    intro v member
    obtain ⟨members,laid,declared,powers⟩ := @known_members info program depth BcType id v.2 (known v member)
    exact ⟨(v.1,members),⟨rfl,laid,declared⟩,powers⟩
  obtain ⟨payloads,both⟩ := forall₂_exists each
  exact ⟨payloads,both.imp fun _ _ found => found.1,forall₂_right both fun _ _ found => found.2⟩

/-- The fields of a payload in a union that starts at `start` -/
theorem payload_placed {members : List Layout} {start : UInt32} {union : Extent} {total : Layout}
    (powers : ∀ m ∈ members, m.align.toNat ∣ 2 ^ 3)
    (size : (memberLayout (members.map Layout.extent)).2.size ≤ union.size)
    (align : (memberLayout (members.map Layout.extent)).2.align ∣ union.align) (aligned : union.align ∣ start.toNat)
    (within : start.toNat + union.size ≤ total.size.toNat) :
    ((sequentialLayout members).1.map (· + start)).map UInt32.toNat =
        (memberLayout (members.map Layout.extent)).1.map (· + start.toNat) ∧
      Placed start.toNat ((sequentialLayout members).1.map (· + start)) members total := by
  have extents := extents_power powers
  have bounded := total.size.toNat_lt
  obtain ⟨offsets,-⟩ := sequential_extent powers (by omega)
  have each := (sequential_placed powers (by omega)).1.each
  have moved : ((sequentialLayout members).1.map (· + start)).map UInt32.toNat =
      (memberLayout (members.map Layout.extent)).1.map (· + start.toNat) := by
    rw [← offsets,List.map_map,List.map_map]
    refine List.map_congr_left fun offset member => ?_
    have below : offset.toNat ≤ (memberLayout (members.map Layout.extent)).2.size :=
      memberLayout_offset_le extents _ (offsets ▸ List.mem_map_of_mem member)
    simp only [Function.comp_apply,UInt32.toNat_add]
    exact Nat.mod_eq_of_lt (by omega)
  refine ⟨moved,by rw [List.length_map,each],?_⟩
  have inside := (memberLayout_packed extents).shift start.toNat fun m member =>
    Nat.dvd_trans (memberLayout_align extents m.2 (List.of_mem_zip member).2) (Nat.dvd_trans align aligned)
  have place : (fun offset => offset + start.toNat) = (start.toNat + ·) := funext fun offset => Nat.add_comm ..
  rw [moved,place,List.zip_map_left]
  exact inside.mono (Nat.le_trans (Nat.add_le_add_left size _) within)

/-- The union of the payloads, and its extent in C -/
def payloadUnion (payloads : List (String × List Layout)) : Layout :=
  unionLayout (payloads.map fun p => (sequentialLayout p.2).2)

def payloadData (payloads : List (String × List Layout)) : Extent :=
  unionExtent (payloads.map fun p => (memberLayout (p.2.map Layout.extent)).2)

section
variable {payloads : List (String × List Layout)} (powers : ∀ p ∈ payloads, ∀ m ∈ p.2, m.align.toNat ∣ 2 ^ 3)
include powers

theorem payload_powers : ∀ m ∈ payloads.map fun p => (memberLayout (p.2.map Layout.extent)).2, m.align ∣ 2 ^ 3 :=
  List.forall_mem_map.mpr fun p member => (memberLayout_sound (extents_power (powers p member))).power

theorem payloadData_power : (payloadData payloads).align ∣ 2 ^ 3 := (unionExtent_sound (payload_powers powers)).power

theorem payloadData_member : ∀ p ∈ payloads,
    (memberLayout (p.2.map Layout.extent)).2.align ∣ (payloadData payloads).align ∧
      (memberLayout (p.2.map Layout.extent)).2.size ≤ (payloadData payloads).size := fun _ member =>
  unionExtent_member (payload_powers powers) _ (List.mem_map_of_mem member)

omit powers in
/-- A variant without a payload adds nothing to the union. -/
theorem payloadData_filter :
    unionExtent (((payloads.map fun p => (p.1,memberLayout (p.2.map Layout.extent))).filter
      fun p => !p.2.1.isEmpty).map (·.2.2)) = payloadData payloads := by
  rw [unionExtent_filter,List.map_map]
  · rfl
  · refine List.forall_mem_map.mpr fun p _ empty => ?_
    have none : p.2.map Layout.extent = [] := by
      rw [← List.length_eq_zero_iff,← @placeMembers_length _ ⟨0,1⟩,List.length_eq_zero_iff,← List.isEmpty_iff]
      exact Bool.not_inj (empty : _ = !true)
    simp only [none]
    rfl

theorem payloadUnion_extent (fits : (payloadData payloads).size < 2 ^ 32) :
    (payloadUnion payloads).extent.pad = payloadData payloads ∧ (payloadUnion payloads).align.toNat ∣ 2 ^ 3 := by
  have each : ∀ p ∈ payloads, (sequentialLayout p.2).2.extent = (memberLayout (p.2.map Layout.extent)).2 :=
    fun p member => (sequential_extent (powers p member)
      (Nat.lt_of_le_of_lt (payloadData_member powers p member).2 fits)).2
  have members : ∀ m ∈ payloads.map fun p => (sequentialLayout p.2).2, m.align.toNat ∣ 2 ^ 3 := by
    refine List.forall_mem_map.mpr fun p member => ?_
    have power := (memberLayout_sound (extents_power (powers p member))).power
    rw [← each p member] at power
    exact power
  refine ⟨(unionLayout_extent members).trans ?_,unionLayout_power members⟩
  rw [List.map_map]
  exact congrArg unionExtent (List.map_congr_left each)

/-- The tag and the union of the payloads, with everything in its place -/
theorem payload_tagged (fits : (taggedUnion (.scalar 4) (payloadData payloads)).2.size < 2 ^ 32) :
    (taggedLayout (.scalar 4) (payloadUnion payloads)).1.toNat = (taggedUnion (.scalar 4) (payloadData payloads)).1 ∧
      (taggedLayout (.scalar 4) (payloadUnion payloads)).2.extent =
        (taggedUnion (.scalar 4) (payloadData payloads)).2 ∧
      ∀ p ∈ payloads, ((sequentialLayout p.2).1.map
            (· + (taggedLayout (.scalar 4) (payloadUnion payloads)).1)).map UInt32.toNat =
          (memberLayout (p.2.map Layout.extent)).1.map (· + (taggedUnion (.scalar 4) (payloadData payloads)).1) ∧
        Placed (taggedLayout (.scalar 4) (payloadUnion payloads)).1.toNat
          ((sequentialLayout p.2).1.map (· + (taggedLayout (.scalar 4) (payloadUnion payloads)).1)) p.2
          (taggedLayout (.scalar 4) (payloadUnion payloads)).2 := by
  obtain ⟨-,aligned,within⟩ := @taggedUnion_inside 3 (.scalar 4) _ four_power (payloadData_power powers)
  obtain ⟨pad,power⟩ := payloadUnion_extent powers (by omega)
  have tagged := @tagged_extent (payloadUnion payloads) (.scalar 4) four_power power
  have tag : (Layout.scalar 4).extent = .scalar 4 := rfl
  rw [pad,tag] at tagged
  obtain ⟨offset,total⟩ := tagged fits
  refine ⟨offset,total,fun p member => ?_⟩
  obtain ⟨align,size⟩ := payloadData_member powers p member
  have whole : (taggedLayout (.scalar 4) (payloadUnion payloads)).2.size.toNat =
      (taggedUnion (.scalar 4) (payloadData payloads)).2.size := congrArg Extent.size total
  rw [← offset] at aligned within ⊢
  rw [← whole] at within
  exact payload_placed (powers p member) size align aligned within

end

/-- The success of a Result: a byte in C where the object backends have nothing. -/
theorem success_known {ok err : BcType} {e : Layout} (known : ok ≠ .unit → Known info program depth ok)
    (laid : layoutOf info depth err = some e) (sized : ok = .unit → e.size.toNat ≠ 0) :
    ∃ o m, layoutOf info depth ok = some o ∧ cSuccess (cLayoutOf program depth) ok = some m ∧
      m.align = o.align.toNat ∧ m.align ∣ 2 ^ 3 ∧ o.size.toNat ≤ m.size ∧
      max m.size e.size.toNat = max o.size.toNat e.size.toNat := by
  by_cases unit : ok = .unit
  · subst unit
    cases depth with
    | zero => cases laid
    | succ depth =>
      have some_ := sized rfl
      refine ⟨⟨0,1⟩,.scalar 1,rfl,if_pos rfl,rfl,Nat.one_dvd _,Nat.zero_le _,?_⟩
      simp only [Extent.scalar,UInt32.toNat_zero]
      omega
  · obtain ⟨o,laidOk,declared⟩ := known unit
    exact ⟨o,o.extent,laidOk,(if_neg unit).trans declared,rfl,Known.power declared,Nat.le_refl _,rfl⟩

theorem result_agrees {ok err : BcType} (declarable : Declarable info program (.result ok err))
    (knownOk : ok ≠ .unit → Known info program depth ok) (knownErr : Known info program depth err) :
    ResultAgrees info program ok err ∧ Known info program (depth + 1) (.result ok err) := by
  obtain ⟨small,-,sized⟩ := declarable
  obtain ⟨e,laidErr,declaredErr⟩ := knownErr
  obtain ⟨o,m,laidOk,declaredOk,align,powerOk,lessOk,sizes⟩ :=
    success_known knownOk laidErr fun unit => sized unit depth e.extent declaredErr
  have powerErr : e.extent.align ∣ 2 ^ 3 := Known.power declaredErr
  have powers : ∀ part ∈ [m,e.extent], part.align ∣ 2 ^ 3 :=
    List.forall_mem_cons.mpr ⟨powerOk,List.forall_mem_singleton.mpr powerErr⟩
  let union : Layout := ⟨max o.size e.size,max (max o.align e.align) 1⟩
  have unionSame : union.extent.pad = unionExtent [m,e.extent] := by
    have positive := positive_of_dvd_pow powerOk
    refine congrArg Extent.pad (congrArg₂ Extent.mk ?_ ?_)
    · simp only [union,max_toNat,← sizes,Layout.extent]
      omega
    · simp only [union,max_toNat,UInt32.toNat_one,← align,Layout.extent]
      omega
  have unionPower : union.align.toNat ∣ 2 ^ 3 := by
    have power := (unionExtent_sound powers).power
    rw [← unionSame] at power
    exact power
  have inC : cResult (cLayoutOf program depth) ok err = some (taggedUnion (.scalar 1) (unionExtent [m,e.extent])) := by
    rw [cResult,declaredOk,declaredErr]
    rfl
  have whole : cLayoutOf program (depth + 1) (.result ok err) =
      some (taggedUnion (.scalar 1) (unionExtent [m,e.extent])).2 :=
    congrArg (Option.map fun r : Nat × Extent => r.2) inC
  have tagged := @tagged_extent union (.scalar 1) (Nat.one_dvd _) unionPower
  have tag : (Layout.scalar 1).extent = .scalar 1 := rfl
  rw [unionSame,tag] at tagged
  obtain ⟨offset,total⟩ := tagged (small _ _ whole)
  obtain ⟨behind,aligned,within⟩ := @taggedUnion_inside 3 (.scalar 1) _ (Nat.one_dvd _) (unionExtent_sound powers).power
  have sound := @taggedUnion_sound 3 (.scalar 1) _ (Nat.one_dvd _) (unionExtent_sound powers).power
  rw [← total] at sound within
  rw [← offset] at behind aligned within
  have each := List.forall_mem_cons.mp (unionExtent_member powers)
  have placed {l : Layout} (divides : l.align.toNat ∣ (unionExtent [m,e.extent]).align)
      (less : l.size.toNat ≤ (unionExtent [m,e.extent]).size) :
      Placed 1 [(taggedLayout (.scalar 1) union).1] [l] (taggedLayout (.scalar 1) union).2 :=
    ⟨rfl,.cons behind (Nat.dvd_trans divides aligned)
      (.nil (Nat.le_trans (Nat.add_le_add_left less _) within))⟩
  have here : resultLayout (layoutOf info depth) ok err = some ⟨(taggedLayout (.scalar 1) union).1,
      (taggedLayout (.scalar 1) union).1,(taggedLayout (.scalar 1) union).1,(taggedLayout (.scalar 1) union).2⟩ := by
    rw [resultLayout,laidOk,laidErr]
    rfl
  have laidOut : layoutOf info (depth + 1) (.result ok err) = some (taggedLayout (.scalar 1) union).2 :=
    congrArg (Option.map ResultLayout.total) here
  refine ⟨⟨depth,_,o,e,here,laidOk,laidErr,placed (align ▸ each.1.1) (Nat.le_trans lessOk each.1.2),
    placed (each.2 _ List.mem_cons_self).1 (each.2 _ List.mem_cons_self).2,sound.whole,rfl,rfl,?_⟩,_,laidOut,?_⟩
  · rw [inC,offset,total]
  · rw [whole,total]

section
variable {source : Ast.Program} (accepted : analyze source = .ok info) (lowered : lowerProgram source info = some program)
include accepted lowered

omit lowered in
theorem contains_defined {ty part : BcType} (contains : Contains info ty part)
    (defined : ty.defined info.declared = true) : part.defined info.declared = true := by
  obtain ⟨sa,collected,-,rfl⟩ := analyze_accepts.mp accepted
  have grounded := (collect_settled collected).grounded
  cases contains with
  | field known member => exact grounded.structs _ (mem_of_lookup known) _ member
  | payload known variant member => exact grounded.enums _ (mem_of_lookup known) _ variant _ member
  | ok => exact (Bool.and_eq_true_iff.mp defined).1
  | err => exact (Bool.and_eq_true_iff.mp defined).2

theorem struct_agrees {name : String} {s : StructInfo} (known : info.structs.lookup name = some s)
    (declarable : Declarable info program (.struct name)) (inside : ∀ f ∈ s.fields, Known info program depth f.2) :
    StructAgrees info program name ∧ Known info program (depth + 1) (.struct name) := by
  obtain ⟨small,unique,members⟩ := declarable
  obtain ⟨fields,named,same⟩ := typedefOf_struct accepted lowered known unique
  obtain ⟨layouts,laid,declared,powers⟩ := known_members inside
  have inC : cStruct (cLayoutOf program depth) fields = some (memberLayout (layouts.map Layout.extent)) := by
    rw [same,cStruct,if_pos (members s known).1,declared,Option.map_some]
  have whole : cLayoutOf program (depth + 1) (.struct name) = some (memberLayout (layouts.map Layout.extent)).2 := by
    rw [cLayoutOf,named,Option.bind_some,cDeclared,inC,Option.map_some]
  have fits := small _ _ whole
  obtain ⟨offsets,total⟩ := sequential_extent powers fits
  obtain ⟨placed,multiple⟩ := sequential_placed powers fits
  have here : structLayout (layoutOf info depth) info name = some (sequentialLayout layouts) := by
    simp only [structLayout,known,laid,Option.map_some]
  have laidOut : layoutOf info (depth + 1) (.struct name) = some (sequentialLayout layouts).2 :=
    congrArg (Option.map fun r : List UInt32 × Layout => r.2) here
  refine ⟨⟨depth,s,layouts,(sequentialLayout layouts).1,(sequentialLayout layouts).2,fields,known,laid,here,placed,
    multiple,named,?_⟩,(sequentialLayout layouts).2,laidOut,?_⟩
  · rw [inC,offsets,total]
  · rw [whole,total]

theorem enum_agrees {name : String} {e : EnumInfo} (known : info.enums.lookup name = some e)
    (declarable : Declarable info program (.enum name))
    (inside : ∀ v ∈ e.variants, ∀ ty ∈ v.2, Known info program depth ty) :
    EnumAgrees info program name ∧ Known info program (depth + 1) (.enum name) := by
  obtain ⟨small,unique,members⟩ := declarable
  obtain ⟨variants,named,same⟩ := typedefOf_enum accepted lowered known unique
  have distinct := (members e known).1
  have declared {c : CEnum} (inC : cEnum (cLayoutOf program depth) variants = some c) :
      cLayoutOf program (depth + 1) (.enum name) = some c.total := by
    rw [cLayoutOf,named,Option.bind_some,cDeclared,inC,Option.map_some]
  cases payload : e.variants.any fun v => !v.2.isEmpty with
  | false =>
    have here : enumLayout (layoutOf info depth) info name = some ⟨false,0,.scalar 4,[]⟩ := by
      simp only [enumLayout,known,payload,Bool.false_eq_true,if_false]
    have inC : cEnum (cLayoutOf program depth) variants = some ⟨0,.scalar 4,[]⟩ := by
      rw [same,cEnum,if_pos distinct,payload]
      rfl
    have laidOut : layoutOf info (depth + 1) (.enum name) = some (.scalar 4) :=
      congrArg (Option.map EnumLayout.total) here
    exact ⟨⟨depth,e,_,variants,known,here,by simp,by decide,by decide,named,inC⟩,_,laidOut,declared inC⟩
  | true =>
    obtain ⟨payloads,both,powers⟩ := known_payloads inside
    have collected : e.variants.mapM (cPayload (cLayoutOf program depth)) =
        some (payloads.map fun p => (p.1,memberLayout (p.2.map Layout.extent))) := by
      refine mapM_of_forall₂ (List.forall₂_map_right_iff.mpr (both.imp fun v p found => ?_))
      rw [cPayload,found.2.2,Option.map_some,found.1]
    have laid : e.variants.mapM (fun v => (v.2.mapM (layoutOf info depth)).map
        fun fields => (v.1,sequentialLayout fields)) = some (payloads.map fun p => (p.1,sequentialLayout p.2)) := by
      refine mapM_of_forall₂ (List.forall₂_map_right_iff.mpr (both.imp fun v p found => ?_))
      rw [found.2.1,Option.map_some,found.1]
    have inC : cEnum (cLayoutOf program depth) variants = some ⟨(taggedUnion (.scalar 4) (payloadData payloads)).1,
        (taggedUnion (.scalar 4) (payloadData payloads)).2,payloads.map fun p => (p.1,
          (memberLayout (p.2.map Layout.extent)).1.map (· + (taggedUnion (.scalar 4) (payloadData payloads)).1))⟩ := by
      rw [same,cEnum,if_pos distinct,if_pos payload,Option.bind_eq_bind,collected,Option.bind_some,
        payloadData_filter]
      simp only [List.map_map]
      rfl
    have here : enumLayout (layoutOf info depth) info name = some ⟨true,
        (taggedLayout (.scalar 4) (payloadUnion payloads)).1,(taggedLayout (.scalar 4) (payloadUnion payloads)).2,
        payloads.map fun p => (p.1,(sequentialLayout p.2).1.map
          (· + (taggedLayout (.scalar 4) (payloadUnion payloads)).1))⟩ := by
      simp only [enumLayout,known,payload,if_true,Option.bind_eq_bind,laid,Option.bind_some,List.map_map]
      rfl
    have laidOut : layoutOf info (depth + 1) (.enum name) =
        some (taggedLayout (.scalar 4) (payloadUnion payloads)).2 := congrArg (Option.map EnumLayout.total) here
    have dataPower := payloadData_power powers
    obtain ⟨behind,-,within⟩ := @taggedUnion_inside 3 (.scalar 4) _ four_power dataPower
    obtain ⟨offset,total,each⟩ := payload_tagged powers (small _ _ (declared inC))
    have sound := @taggedUnion_sound 3 (.scalar 4) _ four_power dataPower
    rw [← total] at sound within
    rw [← offset] at behind within
    have same : cEnum (cLayoutOf program depth) variants = some (EnumLayout.inC ⟨true,
        (taggedLayout (.scalar 4) (payloadUnion payloads)).1,(taggedLayout (.scalar 4) (payloadUnion payloads)).2,
        payloads.map fun p => (p.1,(sequentialLayout p.2).1.map
          (· + (taggedLayout (.scalar 4) (payloadUnion payloads)).1))⟩) := by
      rw [inC,EnumLayout.inC,offset,total,List.map_map]
      refine congrArg (fun offsets => some (CEnum.mk _ _ offsets)) (List.map_congr_left fun p member => ?_)
      exact congrArg (Prod.mk p.1) (each p member).1.symm
    refine ⟨⟨depth,e,_,variants,known,here,fun _ => ⟨behind,?_⟩,?_,sound.whole,named,same⟩,_,laidOut,?_⟩
    · refine List.forall₂_map_right_iff.mpr ((forall₂_mem both).imp fun v p found => ?_)
      exact ⟨found.1.1,p.2,found.1.2.1,(each p found.2).2⟩
    · exact Nat.le_trans behind (Nat.le_trans (Nat.le_add_right _ _) within)
    · rw [declared inC,total]

theorem agrees_of_declarable : ∀ ty : BcType, ty.defined info.declared = true →
    (∀ part, Relation.ReflTransGen (Contains info) ty part → Declarable info program part) →
    Agrees info program ty ∧ (ty ≠ .unit → ∃ depth, Known info program depth ty) := by
  obtain ⟨sa,collected,-,same⟩ := analyze_accepts.mp accepted
  obtain ⟨-,rank,layered⟩ := collect_settled collected
  rw [same] at layered
  intro ty
  induction ty using (contains_wellFounded layered).induction with
  | _ ty ih =>
    intro defined declarable
    have inside : ∀ part, Contains info ty part → part.defined info.declared = true :=
      fun _ contains => contains_defined accepted contains defined
    have each : ∀ part ∈ parts info ty, ∃ depth, part ≠ .unit → Known info program depth part := by
      intro part member
      have contains := contains_iff_parts.mpr member
      have known := (ih part contains (inside part contains)
        fun deeper reach => declarable deeper (.head contains reach)).2
      by_cases unit : part = .unit
      · exact ⟨0,fun value => absurd unit value⟩
      · obtain ⟨depth,known⟩ := known unit
        exact ⟨depth,fun _ => known⟩
    obtain ⟨depth,known⟩ := common_depth
      (fun _ _ _ deeper known value => (known value).mono deeper) each
    have found : ∀ part, Contains info ty part → part ≠ .unit → Known info program depth part :=
      fun part contains => known part (contains_iff_parts.mp contains)
    have here := declarable ty .refl
    cases ty with
    | struct name =>
      obtain ⟨s,lookup⟩ := Option.isSome_iff_exists.mp defined
      obtain ⟨agrees,known⟩ := struct_agrees accepted lowered lookup here fun f member =>
        found f.2 (.field lookup member) ((here.2.2 s lookup).2 f member)
      exact ⟨agrees,fun _ => ⟨_,known⟩⟩
    | enum name =>
      obtain ⟨e,lookup⟩ := Option.isSome_iff_exists.mp defined
      obtain ⟨agrees,known⟩ := enum_agrees accepted lowered lookup here fun v variant part member =>
        found part (.payload lookup variant member) ((here.2.2 e lookup).2 v variant part member)
      exact ⟨agrees,fun _ => ⟨_,known⟩⟩
    | result ok err =>
      obtain ⟨agrees,known⟩ := result_agrees here (found ok .ok) (found err .err here.2.1)
      exact ⟨agrees,fun _ => ⟨_,known⟩⟩
    | unit => exact ⟨trivial,fun value => absurd rfl value⟩
    | _ => exact ⟨trivial,fun _ => ⟨1,_,rfl,rfl⟩⟩

end

/-- What a struct, an enum or a Result agrees on is its whole extent too. -/
theorem known_of_agrees : ∀ {ty : BcType}, Agrees info program ty → ty ≠ .unit → ∃ depth, Known info program depth ty
  | .struct name,⟨depth,_,_,offsets,total,_,_,_,laid,_,_,named,declared⟩,_ => by
    refine ⟨depth + 1,total,congrArg (Option.map fun r : List UInt32 × Layout => r.2) laid,?_⟩
    rw [cLayoutOf,named,Option.bind_some,cDeclared,declared,Option.map_some]
  | .enum name,⟨depth,_,layout,_,_,laid,_,_,_,named,declared⟩,_ => by
    refine ⟨depth + 1,layout.total,congrArg (Option.map EnumLayout.total) laid,?_⟩
    rw [cLayoutOf,named,Option.bind_some,cDeclared,declared,Option.map_some]
    rfl
  | .result ok err,⟨depth,r,_,_,laid,_,_,_,_,_,_,_,declared⟩,_ =>
    ⟨depth + 1,r.total,congrArg (Option.map ResultLayout.total) laid,
      congrArg (Option.map fun r : Nat × Extent => r.2) declared⟩
  | .unit,_,value => absurd rfl value
  | .i32,_,_ | .i64,_,_ | .f64,_,_ | .bool,_,_ | .str,_,_ | .handle,_,_ | .map,_,_ | .mapStrI32,_,_ | .mapStrI64,_,_
  | .mapStrF64,_,_ | .mapI32Str,_,_ | .mapI32I32,_,_ | .array _,_,_ | .fixedArray ..,_,_ | .fnPtr ..,_,_ =>
    ⟨1,_,rfl,rfl⟩

theorem small_of_agrees {ty : BcType} (agrees : Agrees info program ty) (value : ty ≠ .unit) : Small program ty := by
  intro depth e declared
  obtain ⟨_,l,-,known⟩ := known_of_agrees agrees value
  rw [extends_unique cLayoutOf_succ declared known]
  exact l.size.toNat_lt

theorem not_unit {ty : BcType} {e : Extent} (declared : cLayoutOf program depth ty = some e) : ty ≠ .unit := by
  rintro rfl
  cases depth with
  | zero => cases declared
  | succ depth => cases declared

theorem mapM_not_unit {α : Type} {f : α → BcType} {xs : List α} {members : List Extent}
    (declared : xs.mapM (fun x => cLayoutOf program depth (f x)) = some members) : ∀ x ∈ xs, f x ≠ .unit := by
  have found := forall₂_of_mapM declared
  exact forall₂_right found.flip fun _ _ declared => not_unit declared

/-- A union of nothing: the whole ends where the union starts. -/
theorem empty_union {align : UInt32} (power : align.toNat ∣ 2 ^ 3) :
    (taggedLayout (.scalar 1) ⟨0,align⟩).2.size = (taggedLayout (.scalar 1) ⟨0,align⟩).1 := by
  obtain ⟨k,below,same⟩ := (Nat.dvd_prime_pow Nat.prime_two).mp power
  obtain rfl : align = UInt32.ofNat (2 ^ k) := by rw [← same,UInt32.ofNat_toNat]
  have cases : k = 0 ∨ k = 1 ∨ k = 2 ∨ k = 3 := by omega
  rcases cases with rfl | rfl | rfl | rfl <;> decide

/-- With a success of type unit, C has a byte in the union. -/
theorem sized_of_agrees {err : BcType} (agrees : ResultAgrees info program .unit err) (inner : Agrees info program err)
    {depth : Nat} {e : Extent} (declared : cLayoutOf program depth err = some e) : e.size ≠ 0 := by
  intro empty
  obtain ⟨at_,r,o,l,laid,laidOk,laidErr,-,-,-,-,-,inC⟩ := agrees
  obtain ⟨_,l',laid',known⟩ := known_of_agrees inner (not_unit declared)
  obtain rfl := extends_unique layoutOf_succ laidErr laid'
  have extent := extends_unique cLayoutOf_succ declared known
  have power : l.align.toNat ∣ 2 ^ 3 := Known.power known
  obtain rfl : o = ⟨0,1⟩ := extends_unique layoutOf_succ laidOk (show layoutOf info 1 .unit = _ from rfl)
  have union : (⟨max 0 l.size,max (max 1 l.align) 1⟩ : Layout) = ⟨0,l.align⟩ := by
    have positive := positive_of_dvd_pow power
    have none : l.size.toNat = 0 := by rw [extent] at empty; exact empty
    refine congrArg₂ Layout.mk (UInt32.toNat_inj.mp ?_) (UInt32.toNat_inj.mp ?_)
    · rw [max_toNat,none]
      rfl
    · rw [max_toNat,max_toNat,UInt32.toNat_one]
      omega
  obtain rfl : r = ⟨(taggedLayout (.scalar 1) ⟨0,l.align⟩).1,(taggedLayout (.scalar 1) ⟨0,l.align⟩).1,
      (taggedLayout (.scalar 1) ⟨0,l.align⟩).1,(taggedLayout (.scalar 1) ⟨0,l.align⟩).2⟩ := by
    rw [resultLayout,laidOk,laidErr] at laid
    rw [← union]
    exact (Option.some.inj laid).symm
  simp only [cResult,Option.bind_eq_bind,Option.bind_eq_some_iff,Option.pure_def,Option.some.injEq] at inC
  obtain ⟨m,success,e',declared',whole⟩ := inC
  obtain rfl : Extent.scalar 1 = m := Option.some.inj ((if_pos rfl).symm.trans success)
  have powers : ∀ part ∈ [Extent.scalar 1,e'], part.align ∣ 2 ^ 3 :=
    List.forall_mem_cons.mpr ⟨Nat.one_dvd _,List.forall_mem_singleton.mpr (cLayoutOf_sound declared').power⟩
  have byte := (unionExtent_member powers _ List.mem_cons_self).2
  obtain ⟨-,-,within⟩ := @taggedUnion_inside 3 (.scalar 1) _ (Nat.one_dvd _) (unionExtent_sound powers).power
  rw [whole] at within
  have ends := congrArg UInt32.toNat (empty_union power)
  simp only [Layout.extent,ends,Extent.scalar] at within byte
  omega

section
variable {source : Ast.Program} (accepted : analyze source = .ok info) (lowered : lowerProgram source info = some program)
include accepted lowered

theorem declarable_of_agrees : ∀ {ty : BcType}, Agrees info program ty →
    (∀ part, Contains info ty part → Agrees info program part) → Declarable info program ty
  | .struct name,agrees,_ => by
    refine ⟨small_of_agrees agrees (by simp),?_⟩
    obtain ⟨depth,s,_,_,_,fields,known,_,_,_,_,named,declared⟩ := agrees
    have unique : (typedefOf program name).isSome = true := by rw [named]; rfl
    obtain ⟨fields',named',same⟩ := typedefOf_struct accepted lowered known unique
    obtain rfl : fields = fields' := by
      rw [named] at named'
      exact (CTypeDecl.struct.inj (Option.some.inj named')).2
    refine ⟨unique,fun s' known' => ?_⟩
    obtain rfl := Option.some.inj (known.symm.trans known')
    rw [same,cStruct] at declared
    split at declared
    next distinct =>
      obtain ⟨members,collected,-⟩ := Option.map_eq_some_iff.mp declared
      exact ⟨distinct,mapM_not_unit collected⟩
    next => cases declared
  | .enum name,agrees,_ => by
    refine ⟨small_of_agrees agrees (by simp),?_⟩
    obtain ⟨depth,e,_,variants,known,_,_,_,_,named,declared⟩ := agrees
    have unique : (typedefOf program name).isSome = true := by rw [named]; rfl
    obtain ⟨variants',named',same⟩ := typedefOf_enum accepted lowered known unique
    obtain rfl : variants = variants' := by
      rw [named] at named'
      exact (CTypeDecl.enum.inj (Option.some.inj named')).2
    refine ⟨unique,fun e' known' => ?_⟩
    obtain rfl := Option.some.inj (known.symm.trans known')
    rw [same,cEnum] at declared
    split at declared
    next distinct =>
      refine ⟨distinct,fun v variant ty member => ?_⟩
      split at declared
      next =>
        simp only [Option.bind_eq_bind,Option.bind_eq_some_iff] at declared
        obtain ⟨payloads,collected,-⟩ := declared
        have each := forall₂_of_mapM collected
        refine forall₂_right (P := fun v => ∀ ty ∈ v.2, ty ≠ .unit) each.flip (fun p v laid => ?_) v variant ty member
        obtain ⟨members,inside,-⟩ := Option.map_eq_some_iff.mp laid
        exact mapM_not_unit (f := id) inside
      next flat =>
        have none : v.2 = [] := by simpa using List.any_eq_false.mp (Bool.eq_false_iff.mpr flat) v variant
        rw [none] at member
        exact absurd member List.not_mem_nil
    next => cases declared
  | .result ok err,agrees,inner => by
    refine ⟨small_of_agrees agrees (by simp),?_,?_⟩
    · obtain ⟨depth,_,_,_,_,_,_,_,_,_,_,_,declared⟩ := agrees
      simp only [cResult,Option.bind_eq_bind,Option.bind_eq_some_iff] at declared
      obtain ⟨_,-,_,declared,-⟩ := declared
      exact not_unit declared
    · rintro rfl depth e declared
      exact sized_of_agrees agrees (inner err .err) declared
  | .unit,_,_ | .i32,_,_ | .i64,_,_ | .f64,_,_ | .bool,_,_ | .str,_,_ | .handle,_,_ | .map,_,_ | .mapStrI32,_,_
  | .mapStrI64,_,_ | .mapStrF64,_,_ | .mapI32Str,_,_ | .mapI32I32,_,_ | .array _,_,_ | .fixedArray ..,_,_
  | .fnPtr ..,_,_ => trivial

end

theorem small_of {ty : BcType} {e : Extent} (declared : cLayoutOf program depth ty = some e) (fits : e.size < 2 ^ 32) :
    Small program ty := fun _ _ found => extends_unique cLayoutOf_succ declared found ▸ fits

theorem reach_closed {types : List BcType} (closed : ∀ ty ∈ types, ∀ part ∈ parts info ty, part ∈ types)
    {ty part : BcType} (member : ty ∈ types) (reach : Relation.ReflTransGen (Contains info) ty part) :
    part ∈ types := by
  induction reach with
  | refl => exact member
  | tail _ contains ih => exact closed _ ih _ (contains_iff_parts.mp contains)

theorem placeMembers_replicate (words : Nat) : ∀ (count done : Nat),
    (placeMembers ⟨8 * done,8⟩ (List.replicate count ⟨8 * words,8⟩)).2 = ⟨8 * (done + count * words),8⟩
  | 0,done => by rw [Nat.zero_mul]; rfl
  | count + 1,done => by
    have next : (Extent.place ⟨8 * done,8⟩ ⟨8 * words,8⟩).2 = ⟨8 * (done + words),8⟩ := by
      simp only [Extent.place,alignUp_self (by decide : 0 < 8) (Nat.dvd_mul_right 8 done),Nat.mul_add,Nat.max_self]
    rw [List.replicate_succ,placeMembers,next]
    refine (placeMembers_replicate words count (done + words)).trans ?_
    exact congrArg (fun size => Extent.mk (8 * size) 8) (by rw [Nat.succ_mul]; omega)

theorem mapM_const {α β : Type} {f : α → Option β} {y : β} : ∀ {xs : List α}, (∀ x ∈ xs, f x = some y) →
    xs.mapM f = some (List.replicate xs.length y)
  | [],_ => rfl
  | x :: xs,each => by
    have ⟨here,others⟩ := List.forall_mem_cons.mp each
    rw [List.mapM_cons,here,mapM_const others]
    rfl

def letters : List String := ["a","b","c","d","e","f","g","h","i","j","k","l","m","n","o","p"]

/-- Sixteen fields of one type -/
theorem sixteen_fields {name : String} {ty : BcType} {words : Nat}
    (named : typedefOf program name = some (.struct name (letters.map (·,ty))))
    (inner : cLayoutOf program depth ty = some ⟨8 * words,8⟩) :
    cLayoutOf program (depth + 1) (.struct name) = some ⟨8 * (16 * words),8⟩ := by
  have distinct : ((letters.map (·,ty)).map (·.1)).Nodup := by
    rw [List.map_map]
    exact (by decide : letters.Nodup)
  have members : (letters.map (·,ty)).mapM (fun f => cLayoutOf program depth f.2) =
      some (List.replicate 16 ⟨8 * words,8⟩) := by
    exact mapM_const fun f member => by
      obtain ⟨letter,-,rfl⟩ := List.mem_map.mp member
      exact inner
  have whole : (memberLayout (List.replicate 16 ⟨8 * words,8⟩)).2 = ⟨8 * (16 * words),8⟩ := by
    have first : (Extent.place ⟨0,1⟩ ⟨8 * words,8⟩).2 = ⟨8 * words,8⟩ := by
      simp [Extent.place,alignUp]
    rw [memberLayout,List.replicate_succ,placeMembers,first]
    simp only [placeMembers_replicate,Extent.pad]
    rw [alignUp_self (by decide) (Nat.dvd_mul_right ..)]
    exact congrArg (Extent.mk · 8) (by omega)
  rw [cLayoutOf,named,Option.bind_some,cDeclared,cStruct,if_pos distinct,members,Option.map_some,Option.map_some,whole]

private def unmarked : Span := ⟨0,0⟩

def sixteen (name : String) (ty : Ast.Ty) : Ast.TopDecl :=
  .struct ⟨name,letters.map fun f => ⟨f,ty,unmarked⟩,unmarked⟩

/-- Seven structs of sixteen fields each, around strings of sixteen bytes: 2 ^ 32 bytes -/
def vast : Ast.Program :=
  ⟨[sixteen "A" (.primitive .str unmarked),sixteen "B" (.named "A" unmarked),sixteen "C" (.named "B" unmarked),
    sixteen "D" (.named "C" unmarked),sixteen "E" (.named "D" unmarked),sixteen "F" (.named "E" unmarked),
    sixteen "G" (.named "F" unmarked),mainDecl]⟩

def vastFields : List (String × BcType) :=
  [("A",.str),("B",.struct "A"),("C",.struct "B"),("D",.struct "C"),("E",.struct "D"),("F",.struct "E"),("G",.struct "F")]

def vastInfo : SemanticInfo :=
  ⟨vastFields.reverse.map fun s => (s.1,⟨letters.map (·,s.2)⟩),[],("main",⟨[],.unit,false,false⟩) :: registerBuiltins,[]⟩

deriving instance DecidableEq for StructInfo
deriving instance DecidableEq for EnumInfo
deriving instance DecidableEq for FunctionInfo
deriving instance DecidableEq for ConstInfo
deriving instance DecidableEq for SemanticInfo
deriving instance DecidableEq for CTypeDecl

theorem vast_accepted : analyze vast = .ok vastInfo := by
  have accepted : (analyze vast).toOption = some vastInfo := by decide +kernel
  cases result : analyze vast with
  | ok info => rw [result] at accepted; exact congrArg _ (Option.some.inj accepted)
  | error _ => rw [result] at accepted; cases accepted

theorem vast_lowered : ∃ program, lowerProgram vast vastInfo = some program ∧
    sourceDecls program = vastFields.map fun s => .struct s.1 (letters.map (·,s.2)) := by
  have decls : (lowerProgram vast vastInfo).map sourceDecls =
      some (vastFields.map fun s => .struct s.1 (letters.map (·,s.2))) := by decide +kernel
  exact Option.map_eq_some_iff.mp decls

end Oscan.Backend
