import Mathlib.Data.List.Forall2
import Mathlib.Data.List.Lex
import Mathlib.Order.Defs.LinearOrder
import Mathlib.Order.Lattice

/-! Comparisons that answer -1, 0 or 1: those of linear orders, those by a key, and that of lists element by
element. -/
namespace Oscan.Library.Comparing

variable {α β : Type}

/-- The comparison of an order -/
def ofOrder [LinearOrder α] (a b : α) : Int := if a < b then -1 else if b < a then 1 else 0

/-- A comparison orders everything, up to elements that compare equal. -/
structure Comparison (cmp : α → α → Int) : Prop where
  answers : ∀ a b, cmp a b = -1 ∨ cmp a b = 0 ∨ cmp a b = 1
  flip : ∀ a b, cmp b a = -cmp a b
  trans : ∀ a b c, cmp a b ≤ 0 → cmp b c ≤ 0 → cmp a c ≤ 0

section Orders
variable [LinearOrder α]

theorem ofOrder_le_iff (a b : α) : ofOrder a b ≤ 0 ↔ a ≤ b := by
  unfold ofOrder
  rcases lt_trichotomy a b with less | rfl | more
  · simp [less,less.le]
  · simp
  · simp [more,more.not_gt,more.not_ge]

theorem ofOrder_eq_iff (a b : α) : ofOrder a b = 0 ↔ a = b := by
  unfold ofOrder
  rcases lt_trichotomy a b with less | rfl | more
  · simp [less,less.ne]
  · simp
  · simp [more,more.not_gt,more.ne']

theorem ofOrder_congr [LinearOrder β] {a b : α} {c d : β} (less : a < b ↔ c < d) (more : b < a ↔ d < c) :
    ofOrder a b = ofOrder c d := if_congr less rfl (if_congr more rfl rfl)

theorem ofOrder_comparison : Comparison (ofOrder : α → α → Int) where
  answers a b := by
    unfold ofOrder
    split
    next => exact .inl rfl
    next =>
      split
      next => exact .inr (.inr rfl)
      next => exact .inr (.inl rfl)
  flip a b := by
    unfold ofOrder
    rcases lt_trichotomy a b with less | rfl | more
    · simp [less,less.not_gt]
    · simp
    · simp [more,more.not_gt]
  trans a b c := by
    simp only [ofOrder_le_iff]
    exact le_trans

end Orders

namespace Comparison
variable {cmp : α → α → Int}

/-- Things may be compared by a key. -/
theorem comap (law : Comparison cmp) (key : β → α) : Comparison fun x y => cmp (key x) (key y) where
  answers _ _ := law.answers _ _
  flip _ _ := law.flip _ _
  trans _ _ _ := law.trans _ _ _

theorem refl (law : Comparison cmp) (a : α) : cmp a a = 0 := by
  have := law.flip a a
  omega

theorem total (law : Comparison cmp) (a b : α) : cmp a b ≤ 0 ∨ cmp b a ≤ 0 := by
  have := law.flip a b
  omega

theorem less_of_less_of_le (law : Comparison cmp) {a b c : α} (first : cmp a b < 0) (second : cmp b c ≤ 0) :
    cmp a c < 0 := by
  have whole := law.trans a b c (by omega) second
  have back : cmp a c = 0 → cmp b a ≤ 0 := fun same => law.trans b c a second (by rw [law.flip a c,same]; decide)
  have flip := law.flip a b
  omega

theorem less_of_le_of_less (law : Comparison cmp) {a b c : α} (first : cmp a b ≤ 0) (second : cmp b c < 0) :
    cmp a c < 0 := by
  have whole := law.trans a b c first (by omega)
  have back : cmp a c = 0 → cmp c b ≤ 0 := fun same => law.trans c a b (by rw [law.flip a c,same]; decide) first
  have flip := law.flip b c
  omega

theorem same_trans (law : Comparison cmp) {a b c : α} (first : cmp a b = 0) (second : cmp b c = 0) : cmp a c = 0 := by
  have whole := law.trans a b c (by omega) (by omega)
  have back := law.trans c b a (by rw [law.flip b c]; omega) (by rw [law.flip a b]; omega)
  have flip := law.flip a c
  omega

end Comparison

/-- The first difference decides, and without one the lengths do. -/
def lists (cmp : α → α → Int) : List α → List α → Int
  | a :: as,b :: bs => if cmp a b ≠ 0 then cmp a b else lists cmp as bs
  | as,bs => ofOrder as.length bs.length

section Lists
variable {cmp : α → α → Int}

theorem lists_cons_le_iff {a b : α} {as bs : List α} :
    lists cmp (a :: as) (b :: bs) ≤ 0 ↔ cmp a b < 0 ∨ cmp a b = 0 ∧ lists cmp as bs ≤ 0 := by
  rw [lists]
  split
  next apart => omega
  next same => omega

theorem lists_nil_le (bs : List α) : lists cmp [] bs ≤ 0 := by
  cases bs <;> simp [lists,ofOrder]

theorem lists_cons_nil (a : α) (as : List α) : lists cmp (a :: as) [] = 1 := by simp [lists,ofOrder]

theorem lists_flip (law : Comparison cmp) : ∀ as bs : List α, lists cmp bs as = -lists cmp as bs
  | [],[] => rfl
  | [],_ :: _ => by simp [lists,ofOrder]
  | _ :: _,[] => by simp [lists,ofOrder]
  | a :: as,b :: bs => by
    have flip := law.flip a b
    rw [lists,lists]
    by_cases same : cmp a b = 0
    · rw [if_neg (by omega),if_neg (by omega),lists_flip law as bs]
    · rw [if_pos (by omega),if_pos same,flip]

theorem lists_answers (law : Comparison cmp) :
    ∀ as bs : List α, lists cmp as bs = -1 ∨ lists cmp as bs = 0 ∨ lists cmp as bs = 1
  | [],[] => by simp [lists,ofOrder]
  | [],_ :: _ => by simp [lists,ofOrder]
  | _ :: _,[] => by simp [lists,ofOrder]
  | a :: as,b :: bs => by
    rw [lists]
    split
    next => exact law.answers a b
    next => exact lists_answers law as bs

theorem lists_trans (law : Comparison cmp) :
    ∀ as bs cs : List α, lists cmp as bs ≤ 0 → lists cmp bs cs ≤ 0 → lists cmp as cs ≤ 0
  | [],_,cs,_,_ => lists_nil_le cs
  | a :: as,[],_,first,_ => by
    rw [lists_cons_nil] at first
    omega
  | _ :: _,b :: bs,[],_,second => by
    rw [lists_cons_nil] at second
    omega
  | a :: as,b :: bs,c :: cs,first,second => by
    rw [lists_cons_le_iff] at first second ⊢
    rcases first with less | ⟨same,first⟩
    · exact .inl (law.less_of_less_of_le less (by omega))
    · rcases second with less | ⟨same',second⟩
      · exact .inl (law.less_of_le_of_less (by omega) less)
      · exact .inr ⟨law.same_trans same same',lists_trans law as bs cs first second⟩

theorem lists_comparison (law : Comparison cmp) : Comparison (lists cmp) :=
  ⟨lists_answers law,lists_flip law,lists_trans law⟩

/-- Lists compare equal when their elements do. -/
theorem lists_eq_zero_iff : ∀ as bs : List α, lists cmp as bs = 0 ↔ List.Forall₂ (fun a b => cmp a b = 0) as bs
  | [],[] => by simp [lists,ofOrder]
  | [],_ :: _ => by simp [lists,ofOrder]
  | _ :: _,[] => by simp [lists,ofOrder]
  | a :: as,b :: bs => by
    rw [lists,List.forall₂_cons,← lists_eq_zero_iff as bs]
    split
    next apart => exact iff_of_false apart fun no => apart no.1
    next same => exact (and_iff_right (not_not.mp same)).symm

/-- Over the comparison of an order it is the lexicographic one. -/
theorem lists_ofOrder [LinearOrder α] : ∀ as bs : List α, lists ofOrder as bs = ofOrder as bs
  | [],[] => by simp [lists,ofOrder]
  | [],_ :: _ => by simp [lists,ofOrder]
  | _ :: _,[] => by simp [lists,ofOrder]
  | a :: as,b :: bs => by
    rw [lists,lists_ofOrder as bs]
    by_cases same : a = b
    · subst same
      rw [if_neg (not_not.mpr ((ofOrder_eq_iff a a).mpr rfl))]
      exact ofOrder_congr (by simp) (by simp)
    · rw [if_pos (mt (ofOrder_eq_iff a b).mp same)]
      exact ofOrder_congr (by simp [List.cons_lt_cons_iff,same]) (by simp [List.cons_lt_cons_iff,Ne.symm same])

end Lists

end Oscan.Library.Comparing
