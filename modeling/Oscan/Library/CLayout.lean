import Mathlib.Algebra.Order.Group.Nat
import Mathlib.Data.List.Forall2
import Mathlib.Data.Nat.Prime.Basic

/-! The layout rule of C for structs and unions: every member at the next multiple of its alignment,
and the whole padded to a multiple of the largest alignment. -/
namespace Oscan.Library.CLayout

structure Extent where
  size : Nat
  align : Nat
deriving DecidableEq

/-- A scalar is aligned to its size. -/
def Extent.scalar (bytes : Nat) : Extent := ⟨bytes,bytes⟩

variable {bound : Nat}

/-- An object fits an array of its kind, and its alignment is a power of two up to the bound. -/
structure Extent.Sound (bound : Nat) (e : Extent) : Prop where
  power : e.align ∣ 2 ^ bound
  whole : e.align ∣ e.size

def alignUp (align value : Nat) : Nat := (value + align - 1) / align * align

theorem alignUp_dvd (align value : Nat) : align ∣ alignUp align value := Nat.dvd_mul_left ..

theorem le_alignUp {align : Nat} (positive : 0 < align) (value : Nat) : value ≤ alignUp align value := by
  have split := Nat.div_add_mod (value + align - 1) align
  have small := Nat.mod_lt (value + align - 1) positive
  rw [Nat.mul_comm] at split
  unfold alignUp
  omega

theorem alignUp_least {align value m : Nat} (positive : 0 < align) (multiple : align ∣ m) (above : value ≤ m) :
    alignUp align value ≤ m := by
  obtain ⟨k,rfl⟩ := multiple
  have below : value + align - 1 < (k + 1) * align := by
    rw [Nat.succ_mul,Nat.mul_comm k]
    omega
  have quotient : (value + align - 1) / align ≤ k := Nat.le_of_lt_succ ((Nat.div_lt_iff_lt_mul positive).mpr below)
  rw [Nat.mul_comm align k]
  exact Nat.mul_le_mul_right align quotient

theorem alignUp_mono {align value more : Nat} (positive : 0 < align) (less : value ≤ more) :
    alignUp align value ≤ alignUp align more :=
  alignUp_least positive (alignUp_dvd ..) (Nat.le_trans less (le_alignUp positive more))

theorem alignUp_self {align value : Nat} (positive : 0 < align) (multiple : align ∣ value) :
    alignUp align value = value :=
  Nat.le_antisymm (alignUp_least positive multiple (Nat.le_refl _)) (le_alignUp positive value)

theorem positive_of_dvd_pow {align : Nat} (power : align ∣ 2 ^ bound) : 0 < align :=
  Nat.pos_of_dvd_of_pos power (Nat.two_pow_pos bound)

/-- Of two powers of two the larger is a multiple of both. -/
theorem dvd_max_of_dvd_pow {a b : Nat} (powerA : a ∣ 2 ^ bound) (powerB : b ∣ 2 ^ bound) :
    a ∣ max a b ∧ b ∣ max a b := by
  obtain ⟨i,-,rfl⟩ := (Nat.dvd_prime_pow Nat.prime_two).mp powerA
  obtain ⟨j,-,rfl⟩ := (Nat.dvd_prime_pow Nat.prime_two).mp powerB
  rcases Nat.le_total i j with less | less
  · rw [Nat.max_eq_right (Nat.pow_le_pow_right Nat.two_pos less)]
    exact ⟨Nat.pow_dvd_pow 2 less,Nat.dvd_refl _⟩
  · rw [Nat.max_eq_left (Nat.pow_le_pow_right Nat.two_pos less)]
    exact ⟨Nat.dvd_refl _,Nat.pow_dvd_pow 2 less⟩

theorem max_dvd_pow {a b : Nat} (powerA : a ∣ 2 ^ bound) (powerB : b ∣ 2 ^ bound) : max a b ∣ 2 ^ bound := by
  rcases Nat.le_total a b with less | less
  · rwa [Nat.max_eq_right less]
  · rwa [Nat.max_eq_left less]

def Extent.pad (e : Extent) : Extent := ⟨alignUp e.align e.size,e.align⟩

/-- The extent with one more member, and the offset of that member -/
def Extent.place (e member : Extent) : Nat × Extent :=
  (alignUp member.align e.size,⟨alignUp member.align e.size + member.size,max e.align member.align⟩)

/-- The members behind `e`, before the padding -/
def placeMembers (e : Extent) : List Extent → List Nat × Extent
  | [] => ([],e)
  | member :: members =>
    let rest := placeMembers (e.place member).2 members
    ((e.place member).1 :: rest.1,rest.2)

def memberLayout (members : List Extent) : List Nat × Extent :=
  ((placeMembers ⟨0,1⟩ members).1,(placeMembers ⟨0,1⟩ members).2.pad)

/-- All members of a union start at its start. -/
def unionExtent (members : List Extent) : Extent :=
  (members.foldl (fun e member => ⟨max e.size member.size,max e.align member.align⟩) ⟨0,1⟩ : Extent).pad

/-- A struct of a tag and a union: where the union starts, and the whole -/
def taggedUnion (tag data : Extent) : Nat × Extent :=
  let whole := memberLayout [tag,data]
  (whole.1.getLastD 0,whole.2)

/-- The members lie behind each other, each aligned, from `start` up to `stop`. -/
inductive Packed : Nat → List (Nat × Extent) → Nat → Prop
  | nil {start stop : Nat} (within : start ≤ stop) : Packed start [] stop
  | cons {start stop offset : Nat} {member : Extent} {members : List (Nat × Extent)} (behind : start ≤ offset)
      (aligned : member.align ∣ offset) (rest : Packed (offset + member.size) members stop) :
      Packed start ((offset,member) :: members) stop

theorem Packed.le {start stop : Nat} {members : List (Nat × Extent)} (packed : Packed start members stop) :
    start ≤ stop := by
  induction packed with
  | nil within => exact within
  | cons behind _ _ ih => omega

theorem Packed.mono {start stop more : Nat} {members : List (Nat × Extent)} (packed : Packed start members stop)
    (less : stop ≤ more) : Packed start members more := by
  induction packed with
  | nil within => exact .nil (Nat.le_trans within less)
  | cons behind aligned _ ih => exact .cons behind aligned (ih less)

theorem Packed.inside {start stop : Nat} {members : List (Nat × Extent)} (packed : Packed start members stop) :
    ∀ m ∈ members, start ≤ m.1 ∧ m.2.align ∣ m.1 ∧ m.1 + m.2.size ≤ stop := by
  induction packed with
  | nil => exact fun _ member => absurd member List.not_mem_nil
  | cons behind aligned rest ih =>
    refine List.forall_mem_cons.mpr ⟨⟨behind,aligned,rest.le⟩,fun m member => ?_⟩
    obtain ⟨later,multiple,within⟩ := ih m member
    exact ⟨by omega,multiple,within⟩

/-- Each member ends before the later ones begin. -/
theorem Packed.disjoint {start stop : Nat} {members : List (Nat × Extent)} (packed : Packed start members stop) :
    members.Pairwise fun earlier later => earlier.1 + earlier.2.size ≤ later.1 := by
  induction packed with
  | nil => exact List.Pairwise.nil
  | cons behind aligned rest ih => exact List.Pairwise.cons (fun m member => (rest.inside m member).1) ih

/-- Packed members stay packed when the place of all of them moves by a multiple of their alignments. -/
theorem Packed.shift {start stop : Nat} {members : List (Nat × Extent)} (packed : Packed start members stop)
    (distance : Nat) (multiple : ∀ m ∈ members, m.2.align ∣ distance) :
    Packed (distance + start) (members.map fun m => (distance + m.1,m.2)) (distance + stop) := by
  induction packed with
  | nil within => exact .nil (Nat.add_le_add_left within distance)
  | cons behind aligned rest ih =>
    have ⟨here,others⟩ := List.forall_mem_cons.mp multiple
    have tail := ih others
    rw [← Nat.add_assoc] at tail
    exact .cons (Nat.add_le_add_left behind distance) (Nat.dvd_add here aligned) tail

section
variable {e : Extent} {members : List Extent}

@[simp] theorem placeMembers_length : ∀ {members : List Extent} {e : Extent},
    (placeMembers e members).1.length = members.length
  | [],_ => rfl
  | _ :: _,_ => congrArg (· + 1) placeMembers_length

theorem placeMembers_packed : ∀ {members : List Extent} {e : Extent}, (∀ m ∈ members, 0 < m.align) →
    Packed e.size ((placeMembers e members).1.zip members) (placeMembers e members).2.size
  | [],e,_ => .nil (Nat.le_refl _)
  | m :: members,e,positive => by
    have ⟨here,others⟩ := List.forall_mem_cons.mp positive
    exact .cons (le_alignUp here e.size) (alignUp_dvd ..) (@placeMembers_packed members (e.place m).2 others)

/-- The alignment of the whole is a multiple of the alignments of what is in it. -/
theorem placeMembers_align : ∀ {members : List Extent} {e : Extent}, e.align ∣ 2 ^ bound →
    (∀ m ∈ members, m.align ∣ 2 ^ bound) → (placeMembers e members).2.align ∣ 2 ^ bound ∧
      e.align ∣ (placeMembers e members).2.align ∧ ∀ m ∈ members, m.align ∣ (placeMembers e members).2.align
  | [],e,power,_ => ⟨power,Nat.dvd_refl _,fun _ member => absurd member List.not_mem_nil⟩
  | m :: members,e,power,powers => by
    have ⟨here,others⟩ := List.forall_mem_cons.mp powers
    obtain ⟨whole,upper,each⟩ := @placeMembers_align members (e.place m).2 (max_dvd_pow power here) others
    have both := dvd_max_of_dvd_pow power here
    exact ⟨whole,Nat.dvd_trans both.1 upper,List.forall_mem_cons.mpr ⟨Nat.dvd_trans both.2 upper,each⟩⟩

theorem Extent.pad_sound (power : e.align ∣ 2 ^ bound) : e.pad.Sound bound := ⟨power,alignUp_dvd ..⟩

theorem memberLayout_sound (powers : ∀ m ∈ members, m.align ∣ 2 ^ bound) : (memberLayout members).2.Sound bound :=
  Extent.pad_sound (placeMembers_align (Nat.one_dvd _) powers).1

theorem memberLayout_align (powers : ∀ m ∈ members, m.align ∣ 2 ^ bound) :
    ∀ m ∈ members, m.align ∣ (memberLayout members).2.align :=
  (placeMembers_align (Nat.one_dvd _) powers).2.2

theorem memberLayout_packed (powers : ∀ m ∈ members, m.align ∣ 2 ^ bound) :
    Packed 0 ((memberLayout members).1.zip members) (memberLayout members).2.size := by
  have positive := positive_of_dvd_pow (@placeMembers_align _ members ⟨0,1⟩ (Nat.one_dvd _) powers).1
  have packed := @placeMembers_packed members ⟨0,1⟩ fun m member => positive_of_dvd_pow (powers m member)
  exact packed.mono (le_alignUp positive _)

theorem placeMembers_offset_le : ∀ {members : List Extent} {e : Extent}, (∀ m ∈ members, 0 < m.align) →
    ∀ offset ∈ (placeMembers e members).1, offset ≤ (placeMembers e members).2.size
  | [],_,_ => fun _ member => absurd member List.not_mem_nil
  | m :: members,e,positive => by
    have ⟨here,others⟩ := List.forall_mem_cons.mp positive
    have later := (@placeMembers_packed members (e.place m).2 others).le
    exact List.forall_mem_cons.mpr ⟨Nat.le_trans (Nat.le_add_right _ m.size) later,placeMembers_offset_le others⟩

theorem memberLayout_offset_le (powers : ∀ m ∈ members, m.align ∣ 2 ^ bound) :
    ∀ offset ∈ (memberLayout members).1, offset ≤ (memberLayout members).2.size := by
  have positive := positive_of_dvd_pow (@placeMembers_align _ members ⟨0,1⟩ (Nat.one_dvd _) powers).1
  intro offset member
  exact Nat.le_trans (placeMembers_offset_le (fun m member => positive_of_dvd_pow (powers m member)) offset member)
    (le_alignUp positive _)

theorem union_foldl : ∀ {members : List Extent} {e : Extent}, e.align ∣ 2 ^ bound →
    (∀ m ∈ members, m.align ∣ 2 ^ bound) →
    let u : Extent := members.foldl (fun e member => ⟨max e.size member.size,max e.align member.align⟩) e
    u.align ∣ 2 ^ bound ∧ e.align ∣ u.align ∧ e.size ≤ u.size ∧
      ∀ m ∈ members, m.align ∣ u.align ∧ m.size ≤ u.size
  | [],e,power,_ => ⟨power,Nat.dvd_refl _,Nat.le_refl _,fun _ member => absurd member List.not_mem_nil⟩
  | m :: members,e,power,powers => by
    have ⟨here,others⟩ := List.forall_mem_cons.mp powers
    obtain ⟨whole,upper,larger,each⟩ :=
      @union_foldl members ⟨max e.size m.size,max e.align m.align⟩ (max_dvd_pow power here) others
    have both := dvd_max_of_dvd_pow power here
    refine ⟨whole,Nat.dvd_trans both.1 upper,Nat.le_trans (Nat.le_max_left ..) larger,?_⟩
    exact List.forall_mem_cons.mpr ⟨⟨Nat.dvd_trans both.2 upper,Nat.le_trans (Nat.le_max_right ..) larger⟩,each⟩

theorem unionExtent_sound (powers : ∀ m ∈ members, m.align ∣ 2 ^ bound) : (unionExtent members).Sound bound :=
  Extent.pad_sound (union_foldl (Nat.one_dvd _) powers).1

theorem unionExtent_member (powers : ∀ m ∈ members, m.align ∣ 2 ^ bound) :
    ∀ m ∈ members, m.align ∣ (unionExtent members).align ∧ m.size ≤ (unionExtent members).size := by
  obtain ⟨whole,-,-,each⟩ := @union_foldl bound members ⟨0,1⟩ (Nat.one_dvd _) powers
  intro m member
  obtain ⟨align,size⟩ := each m member
  exact ⟨align,Nat.le_trans size (le_alignUp (positive_of_dvd_pow whole) _)⟩

/-- The union lies behind the tag, aligned and inside the whole. -/
theorem taggedUnion_inside {tag data : Extent} (tagPower : tag.align ∣ 2 ^ bound) (dataPower : data.align ∣ 2 ^ bound) :
    tag.size ≤ (taggedUnion tag data).1 ∧ data.align ∣ (taggedUnion tag data).1 ∧
      (taggedUnion tag data).1 + data.size ≤ (taggedUnion tag data).2.size := by
  have powers : ∀ m ∈ [tag,data], m.align ∣ 2 ^ bound :=
    List.forall_mem_cons.mpr ⟨tagPower,List.forall_mem_singleton.mpr dataPower⟩
  cases memberLayout_packed powers with
  | cons _ _ rest =>
    cases rest with
    | cons behind aligned within => exact ⟨Nat.le_trans (Nat.le_add_left ..) behind,aligned,within.le⟩

theorem taggedUnion_sound {tag data : Extent} (tagPower : tag.align ∣ 2 ^ bound) (dataPower : data.align ∣ 2 ^ bound) :
    (taggedUnion tag data).2.Sound bound :=
  memberLayout_sound (List.forall_mem_cons.mpr ⟨tagPower,List.forall_mem_singleton.mpr dataPower⟩)

/-- The padding of the union is the padding of the whole. -/
theorem taggedUnion_pad {tag data : Extent} (tagPower : tag.align ∣ 2 ^ bound) (dataPower : data.align ∣ 2 ^ bound) :
    taggedUnion tag data.pad = taggedUnion tag data := by
  have positive := positive_of_dvd_pow dataPower
  have wholePower : max (max 1 tag.align) data.align ∣ 2 ^ bound :=
    max_dvd_pow (max_dvd_pow (Nat.one_dvd _) tagPower) dataPower
  have wholePositive := positive_of_dvd_pow wholePower
  have upper := (dvd_max_of_dvd_pow (max_dvd_pow (Nat.one_dvd _) tagPower) dataPower).2
  let start := alignUp data.align (alignUp tag.align 0 + tag.size)
  have same : alignUp (max (max 1 tag.align) data.align) (start + alignUp data.align data.size) =
      alignUp (max (max 1 tag.align) data.align) (start + data.size) := by
    refine Nat.le_antisymm (alignUp_least wholePositive (alignUp_dvd ..) ?_)
      (alignUp_mono wholePositive (Nat.add_le_add_left (le_alignUp positive _) _))
    have room := le_alignUp wholePositive (start + data.size)
    have multiple : data.align ∣ alignUp (max (max 1 tag.align) data.align) (start + data.size) - start :=
      Nat.dvd_sub (Nat.dvd_trans upper (alignUp_dvd ..)) (alignUp_dvd ..)
    have least := alignUp_least positive multiple (show data.size ≤ _ by omega)
    omega
  exact Prod.ext rfl (congrArg (Extent.mk · _) same)

/-- Members without size or alignment of their own add nothing to a union. -/
theorem unionExtent_filter {α : Type} {p : α → Bool} {f : α → Extent} {xs : List α}
    (empty : ∀ x ∈ xs, p x = false → f x = ⟨0,1⟩) :
    unionExtent ((xs.filter p).map f) = unionExtent (xs.map f) := by
  have fold : ∀ (xs : List α) (e : Extent), (∀ x ∈ xs, p x = false → f x = ⟨0,1⟩) → 1 ≤ e.align →
      ((xs.filter p).map f).foldl
          (fun e member => (⟨max e.size member.size,max e.align member.align⟩ : Extent)) e =
        (xs.map f).foldl (fun e member => ⟨max e.size member.size,max e.align member.align⟩) e := by
    intro xs
    induction xs with
    | nil => exact fun _ _ _ => rfl
    | cons x xs ih =>
      intro e empty aligned
      have ⟨here,others⟩ := List.forall_mem_cons.mp empty
      cases kept : p x with
      | true =>
        rw [List.filter_cons_of_pos kept]
        exact ih _ others (Nat.le_trans aligned (Nat.le_max_left ..))
      | false =>
        have same : (⟨max e.size (f x).size,max e.align (f x).align⟩ : Extent) = e := by
          rw [here kept,Nat.max_eq_left aligned]
          exact congrArg (Extent.mk · _) (Nat.max_eq_left (Nat.zero_le _))
        rw [List.filter_cons_of_neg (by simp [kept]),List.map_cons,List.foldl_cons,same]
        exact ih e others aligned
  exact congrArg Extent.pad (fold xs ⟨0,1⟩ empty (Nat.le_refl _))

end

end Oscan.Library.CLayout
