import Mathlib.Algebra.Ring.Nat
import Mathlib.Data.List.Basic
import Mathlib.Data.List.Infix

/-! A list cut at the occurrences of a word, from the left and without overlaps, and put together again. -/
namespace Oscan.Library.Splitting

variable {α : Type}

theorem intercalate_grow {sep : List α} {a : α} {as : List (List α)} (some : as ≠ []) :
    sep.intercalate (as.modifyHead (a :: ·)) = a :: sep.intercalate as := by
  obtain ⟨b,bs,rfl⟩ := List.exists_cons_of_ne_nil some
  cases bs <;> simp

theorem intercalate_length (sep : List α) : ∀ {as : List (List α)}, as ≠ [] →
    (sep.intercalate as).length = (as.map List.length).sum + sep.length * (as.length - 1)
  | [a],_ => by simp
  | a :: b :: as,_ => by
    rw [List.intercalate_cons_cons]
    simp only [List.length_append,intercalate_length sep (List.cons_ne_nil b as),List.map_cons,List.sum_cons,
      List.length_cons,Nat.add_sub_cancel]
    rw [Nat.mul_succ]
    omega

variable [DecidableEq α]

/-- The word stands in the list at a place. -/
def Occurs (word as : List α) (i : Nat) : Prop := word <+: as.drop i

instance (word as : List α) (i : Nat) : Decidable (Occurs word as i) := inferInstanceAs (Decidable (word <+: _))

/-- What is between the occurrences of a word, which is not empty -/
def pieces (word as : List α) : List (List α) :=
  match as with
  | [] => [[]]
  | a :: as =>
    if word ≠ [] ∧ word <+: a :: as then [] :: pieces word ((a :: as).drop word.length)
    else (pieces word as).modifyHead (a :: ·)
termination_by as.length
decreasing_by
  · rename_i found
    have := List.length_pos_iff.mpr found.1
    simp only [List.length_drop,List.length_cons]
    omega
  · simp

variable {word : List α}

theorem pieces_nil (word : List α) : pieces word [] = [[]] := by rw [pieces]

theorem pieces_found {as : List α} (some : word ≠ []) (found : word <+: as) :
    pieces word as = [] :: pieces word (as.drop word.length) := by
  cases as with
  | nil => exact absurd (List.prefix_nil.mp found) some
  | cons a as => rw [pieces,if_pos ⟨some,found⟩]

theorem pieces_other {a : α} {as : List α} (other : ¬word <+: a :: as) :
    pieces word (a :: as) = (pieces word as).modifyHead (a :: ·) := by
  rw [pieces,if_neg fun found => other found.2]

theorem pieces_ne_nil (word as : List α) : pieces word as ≠ [] := by
  fun_induction pieces word as with
  | case1 => simp
  | case2 a as found ih => simp
  | case3 a as other ih => simpa [List.modifyHead_eq_nil_iff] using ih

/-- A word that is longer than the list does not occur. -/
theorem pieces_short {as : List α} (short : as.length < word.length) : pieces word as = [as] := by
  induction as with
  | nil => rw [pieces]
  | cons a as ih =>
    have other : ¬word <+: a :: as := fun found => absurd found.length_le (by omega)
    rw [pieces_other other,ih (by simp at short; omega)]
    rfl

/-- The pieces with the word between them are the list. -/
theorem intercalate_pieces (word as : List α) : word.intercalate (pieces word as) = as := by
  fun_induction pieces word as with
  | case1 => rw [List.intercalate_singleton]
  | case2 a as found ih =>
    rw [List.intercalate_cons_of_ne_nil (pieces_ne_nil _ _),ih,List.nil_append]
    exact List.prefix_append_drop found.2 |>.symm
  | case3 a as other ih => rw [intercalate_grow (pieces_ne_nil _ _),ih]

end Oscan.Library.Splitting
