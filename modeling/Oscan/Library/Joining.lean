import Mathlib.Order.Bounds.Basic
import Mathlib.Data.List.Perm.Basic

/-! A join that some elements do not have. Folded over a list it gives the least upper bound of the elements, from
whichever side and in whichever order they come. -/
namespace Oscan.Library.Joining

variable {α : Type}

def joinFrom (join : α → α → Option α) : α → List α → Option α
  | a,[] => some a
  | a,b :: l => (join a b).bind fun c => joinFrom join c l

/-- The join from the last element on, as nested choices make it -/
def joinRight (join : α → α → Option α) : α → List α → Option α
  | a,[] => some a
  | a,b :: l => (joinRight join b l).bind fun c => join a c

variable [PartialOrder α]

/-- A result is the least upper bound of a set; without a result there is no upper bound. -/
structure Represents (s : Set α) (result : Option α) : Prop where
  least : ∀ c, result = some c → IsLUB s c
  bounded : result = none → ¬BddAbove s

/-- A join gives what two elements have as their least upper bound. -/
def IsJoin (join : α → α → Option α) : Prop := ∀ a b, Represents {a,b} (join a b)

theorem Represents.unique {s : Set α} {x y : Option α} (first : Represents s x) (second : Represents s y) : x = y := by
  cases x with
  | none =>
    cases y with
    | none => rfl
    | some d => exact absurd ⟨d,(second.least d rfl).1⟩ (first.bounded rfl)
  | some c =>
    cases y with
    | none => exact absurd ⟨c,(first.least c rfl).1⟩ (second.bounded rfl)
    | some d => exact congrArg some ((first.least c rfl).unique (second.least d rfl))

theorem Represents.single (a : α) : Represents {x | x ∈ [a]} (some a) := by
  have only : {x | x ∈ [a]} = {a} := Set.ext fun x => List.mem_singleton
  rw [only]
  exact ⟨fun c same => Option.some.inj same ▸ isLUB_singleton,fun none => by cases none⟩

/-- Sets with the same upper bounds are represented by the same results. -/
theorem Represents.transfer {s t : Set α} (same : upperBounds s = upperBounds t) {result : Option α}
    (represents : Represents s result) : Represents t result := by
  constructor
  · intro c found
    have least := represents.least c found
    rw [IsLUB,same] at least
    exact least
  · intro missing ⟨u,above⟩
    exact represents.bounded missing ⟨u,same ▸ above⟩

variable {join : α → α → Option α}

/-- The upper bounds of a list in which two parts are replaced by their join -/
theorem upperBounds_replaced {s t : Set α} {c : α} (least : IsLUB s c) :
    upperBounds ({c} ∪ t) = upperBounds (s ∪ t) := by
  rw [upperBounds_union,upperBounds_union,upperBounds_singleton,least.upperBounds_eq]

omit [PartialOrder α] in
theorem cons_eq_union (a : α) (l : List α) : {x | x ∈ a :: l} = {a} ∪ {x | x ∈ l} :=
  Set.ext fun _ => List.mem_cons

theorem joinFrom_represents (law : IsJoin join) (a : α) (l : List α) :
    Represents {x | x ∈ a :: l} (joinFrom join a l) := by
  induction l generalizing a with
  | nil => exact .single a
  | cons b l hypothesis =>
    have split : {x | x ∈ a :: b :: l} = {a,b} ∪ {x | x ∈ l} := by
      rw [cons_eq_union,cons_eq_union,← Set.union_assoc]
      rfl
    rw [joinFrom,split]
    cases joined : join a b with
    | none =>
      refine ⟨fun c found => (by cases found),fun _ bounded => ?_⟩
      exact (law a b).bounded joined (bounded.mono Set.subset_union_left)
    | some c =>
      have rest := hypothesis c
      rw [cons_eq_union] at rest
      exact rest.transfer (upperBounds_replaced ((law a b).least c joined))

theorem joinRight_represents (law : IsJoin join) (a : α) (l : List α) :
    Represents {x | x ∈ a :: l} (joinRight join a l) := by
  induction l generalizing a with
  | nil => exact .single a
  | cons b l hypothesis =>
    have rest := hypothesis b
    rw [joinRight,cons_eq_union]
    cases joined : joinRight join b l with
    | none =>
      refine ⟨fun c found => (by cases found),fun _ bounded => ?_⟩
      exact rest.bounded joined (bounded.mono Set.subset_union_right)
    | some c =>
      have both := upperBounds_replaced (t := {a}) (rest.least c joined)
      rw [Set.union_comm {c},Set.union_comm _ {a}] at both
      exact (law a c).transfer both

/-- The join of a list does not depend on its order. -/
theorem joinFrom_perm (law : IsJoin join) {a b : α} {l m : List α} (reordered : (a :: l).Perm (b :: m)) :
    joinFrom join a l = joinFrom join b m := by
  have same : {x | x ∈ a :: l} = {x | x ∈ b :: m} := Set.ext fun x => reordered.mem_iff
  have first := joinFrom_represents law a l
  rw [same] at first
  exact first.unique (joinFrom_represents law b m)

theorem joinRight_eq (law : IsJoin join) (a : α) (l : List α) : joinRight join a l = joinFrom join a l :=
  (joinRight_represents law a l).unique (joinFrom_represents law a l)

theorem joinFrom_above (law : IsJoin join) {a c : α} {l : List α} (joined : joinFrom join a l = some c) :
    ∀ x ∈ a :: l, x ≤ c := ((joinFrom_represents law a l).least c joined).1

end Oscan.Library.Joining
