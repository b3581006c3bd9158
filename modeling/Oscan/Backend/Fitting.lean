import Oscan.Backend.Layout
import Oscan.Library.CLayout

/-! The layouts in 32 bits are those of the C rule as long as the whole fits. -/
namespace Oscan.Backend
open Library.CLayout

def Layout.extent (l : Layout) : Extent := ⟨l.size.toNat,l.align.toNat⟩

variable {value align : UInt32} {l m tag : Layout} {members : List Layout}

theorem max_toNat (a b : UInt32) : (max a b).toNat = max a.toNat b.toNat := by
  by_cases less : a ≤ b
  · rw [Nat.max_eq_right (UInt32.le_iff_toNat_le.mp less)]
    exact congrArg UInt32.toNat (if_pos less)
  · rw [Nat.max_eq_left (by rw [UInt32.le_iff_toNat_le] at less; omega)]
    exact congrArg UInt32.toNat (if_neg less)

theorem roundUp_toNat (power : align.toNat ∣ 2 ^ 3) (fits : alignUp align.toNat value.toNat < 2 ^ 32) :
    (roundUp value align).toNat = alignUp align.toNat value.toNat := by
  have positive := positive_of_dvd_pow power
  unfold roundUp
  split
  next least =>
    have one : align.toNat = 1 := by
      have below := UInt32.le_iff_toNat_le.mp least
      simp only [UInt32.toNat_one] at below
      omega
    rw [one,alignUp_self Nat.one_pos (Nat.one_dvd _)]
  next =>
    -- a multiple of the alignment below 2 ^ 32 leaves room for one more
    have room : alignUp align.toNat value.toNat + align.toNat ≤ 2 ^ 32 := by
      obtain ⟨j,multiple⟩ := alignUp_dvd align.toNat value.toNat
      obtain ⟨k,whole⟩ := Nat.dvd_trans power (Nat.pow_dvd_pow 2 (by omega : 3 ≤ 32))
      rw [multiple] at fits ⊢
      rw [whole] at fits ⊢
      rw [← Nat.mul_succ]
      exact Nat.mul_le_mul_left _ (Nat.succ_le_of_lt (Nat.lt_of_mul_lt_mul_left fits))
    have above := le_alignUp positive value.toNat
    have sum : (value + align - 1).toNat = value.toNat + align.toNat - 1 := by
      rw [UInt32.toNat_sub,UInt32.toNat_add,UInt32.toNat_one]
      omega
    rw [UInt32.toNat_mul,UInt32.toNat_div,sum]
    exact Nat.mod_eq_of_lt fits

theorem max_one (power : align.toNat ∣ 2 ^ 3) : (max align 1).toNat = align.toNat := by
  rw [max_toNat,UInt32.toNat_one,Nat.max_eq_left (positive_of_dvd_pow power)]

theorem place_extent (power : m.align.toNat ∣ 2 ^ 3) (fits : (l.extent.place m.extent).2.size < 2 ^ 32) :
    (l.place m).1.toNat = (l.extent.place m.extent).1 ∧ (l.place m).2.extent = (l.extent.place m.extent).2 := by
  have total : alignUp m.align.toNat l.size.toNat + m.size.toNat < 2 ^ 32 := fits
  have offset : (roundUp l.size (max m.align 1)).toNat = alignUp m.align.toNat l.size.toNat := by
    rw [roundUp_toNat,max_one power]
    · rwa [max_one power]
    · rw [max_one power]
      omega
  refine ⟨offset,?_⟩
  simp only [Layout.place,Layout.extent,Extent.place,max_toNat,UInt32.toNat_add,offset,
    Nat.mod_eq_of_lt total]

theorem placeAll_extent : ∀ {members : List Layout} {l : Layout}, (∀ m ∈ members, m.align.toNat ∣ 2 ^ 3) →
    (placeMembers l.extent (members.map Layout.extent)).2.size < 2 ^ 32 →
    (placeAll l members).1.map UInt32.toNat = (placeMembers l.extent (members.map Layout.extent)).1 ∧
      (placeAll l members).2.extent = (placeMembers l.extent (members.map Layout.extent)).2
  | [],_,_,_ => ⟨rfl,rfl⟩
  | m :: members,l,powers,fits => by
    have ⟨here,others⟩ := List.forall_mem_cons.mp powers
    have packed := @placeMembers_packed (members.map Layout.extent) (l.extent.place m.extent).2
      (List.forall_mem_map.mpr fun m member => positive_of_dvd_pow (others m member))
    obtain ⟨offset,next⟩ := place_extent here (Nat.lt_of_le_of_lt packed.le fits)
    have rest := @placeAll_extent members (l.place m).2 others
    rw [next] at rest
    obtain ⟨offsets,whole⟩ := rest fits
    exact ⟨congrArg₂ List.cons offset offsets,whole⟩

theorem finish_extent (power : l.align.toNat ∣ 2 ^ 3) (fits : l.extent.pad.size < 2 ^ 32) :
    l.finish.extent = l.extent.pad := by
  have size : (roundUp l.size (max l.align 1)).toNat = alignUp l.align.toNat l.size.toNat := by
    rw [roundUp_toNat,max_one power]
    · rwa [max_one power]
    · rw [max_one power]
      exact fits
  exact congrArg (Extent.mk · _) size

theorem sequential_extent (powers : ∀ m ∈ members, m.align.toNat ∣ 2 ^ 3)
    (fits : (memberLayout (members.map Layout.extent)).2.size < 2 ^ 32) :
    (sequentialLayout members).1.map UInt32.toNat = (memberLayout (members.map Layout.extent)).1 ∧
      (sequentialLayout members).2.extent = (memberLayout (members.map Layout.extent)).2 := by
  have whole := (@placeMembers_align 3 (members.map Layout.extent) ⟨0,1⟩ (Nat.one_dvd _)
    (List.forall_mem_map.mpr powers)).1
  have smaller := le_alignUp (positive_of_dvd_pow whole)
    (placeMembers ⟨0,1⟩ (members.map Layout.extent)).2.size
  obtain ⟨offsets,placed⟩ := @placeAll_extent members ⟨0,1⟩ powers (Nat.lt_of_le_of_lt smaller fits)
  have start : (⟨0,1⟩ : Layout).extent = ⟨0,1⟩ := rfl
  rw [start] at placed
  refine ⟨offsets,?_⟩
  have power : (placeAll ⟨0,1⟩ members).2.extent.align ∣ 2 ^ 3 := by
    rw [placed]
    exact whole
  rw [memberLayout,← placed] at fits ⊢
  exact finish_extent power fits

theorem tagged_extent (tagPower : tag.align.toNat ∣ 2 ^ 3) (power : m.align.toNat ∣ 2 ^ 3)
    (fits : (taggedUnion tag.extent m.extent.pad).2.size < 2 ^ 32) :
    (taggedLayout tag m).1.toNat = (taggedUnion tag.extent m.extent.pad).1 ∧
      (taggedLayout tag m).2.extent = (taggedUnion tag.extent m.extent.pad).2 := by
  have pad := @taggedUnion_pad 3 tag.extent m.extent tagPower power
  rw [pad] at fits ⊢
  have powers : ∀ part ∈ [tag,m], part.align.toNat ∣ 2 ^ 3 := by
    intro part member
    rcases List.mem_cons.mp member with rfl | member
    · exact tagPower
    · exact List.mem_singleton.mp member ▸ power
  obtain ⟨offsets,whole⟩ := sequential_extent powers fits
  exact ⟨congrArg (List.getLastD · 0) offsets,whole⟩

theorem union_extent : ∀ {members : List Layout} {l : Layout}, (∀ m ∈ members, m.align.toNat ∣ 2 ^ 3) →
    (members.foldl (fun union member =>
      (⟨max union.size member.size,max union.align (max member.align 1)⟩ : Layout)) l).extent =
    (members.map Layout.extent).foldl
      (fun e member => ⟨max e.size member.size,max e.align member.align⟩) l.extent
  | [],_,_ => rfl
  | m :: members,l,powers => by
    have ⟨here,others⟩ := List.forall_mem_cons.mp powers
    have step : (⟨max l.size m.size,max l.align (max m.align 1)⟩ : Layout).extent =
        ⟨max l.extent.size m.extent.size,max l.extent.align m.extent.align⟩ := by
      simp only [Layout.extent,max_toNat,max_one here]
    rw [List.foldl_cons,union_extent others,step]
    rfl

theorem unionLayout_extent (powers : ∀ m ∈ members, m.align.toNat ∣ 2 ^ 3) :
    (unionLayout members).extent.pad = unionExtent (members.map Layout.extent) :=
  congrArg Extent.pad (union_extent powers)

theorem unionLayout_power (powers : ∀ m ∈ members, m.align.toNat ∣ 2 ^ 3) :
    (unionLayout members).align.toNat ∣ 2 ^ 3 := by
  have power := (@unionExtent_sound 3 (members.map Layout.extent) (List.forall_mem_map.mpr powers)).power
  rw [← unionLayout_extent powers] at power
  exact power

end Oscan.Backend
