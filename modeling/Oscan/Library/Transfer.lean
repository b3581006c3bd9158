import Mathlib.Logic.Basic

/-! Calls that move a part of what they are asked to: each answers with a count or fails, and a loop asks again for
the rest. -/
namespace Oscan.Library.Transfer

/-- The answers of the calls to come: a failure, or how many more than one are moved, if that many are asked for -/
abbrev Answers := Nat → Option Nat

/-- The answers after the first -/
def later (answers : Answers) : Answers := fun i => answers (i + 1)

/-- What a call moves of the amount asked for -/
def moved (more amount : Nat) : Nat := min (more + 1) amount

/-- What the first answers allow together; a failure allows nothing. -/
def allowance (answers : Answers) : Nat → Nat
  | 0 => 0
  | m + 1 => (match answers 0 with | some more => more + 1 | none => 0) + allowance (later answers) m

/-- Some of the first answers, none of them a failure, allow the amount. -/
def Enough (answers : Answers) (amount : Nat) : Prop := ∃ m, (∀ i < m, answers i ≠ none) ∧ amount ≤ allowance answers m

theorem enough_zero (answers : Answers) : Enough answers 0 :=
  ⟨0,(fun _ below => absurd below (Nat.not_lt_zero _)),Nat.zero_le _⟩

theorem moved_pos {amount : Nat} (some_ : 0 < amount) (more : Nat) : 0 < moved more amount := by
  unfold moved
  omega

theorem moved_le (more amount : Nat) : moved more amount ≤ amount := Nat.min_le_right _ _

theorem not_enough {answers : Answers} {amount : Nat} (some_ : 0 < amount) (fails : answers 0 = none) :
    ¬Enough answers amount := by
  rintro ⟨m,given,allows⟩
  cases m with
  | zero =>
    rw [allowance] at allows
    omega
  | succ m => exact given 0 (Nat.succ_pos m) fails

/-- The first answer counts toward the amount, and those after it must allow the rest. -/
theorem enough_step {answers : Answers} {amount more : Nat} (some_ : 0 < amount) (first : answers 0 = some more) :
    Enough answers amount ↔ Enough (later answers) (amount - moved more amount) := by
  unfold moved
  constructor
  · rintro ⟨m,given,allows⟩
    cases m with
    | zero =>
      rw [allowance] at allows
      omega
    | succ m =>
      refine ⟨m,fun i below => given (i + 1) (by omega),?_⟩
      rw [allowance,first] at allows
      simp only at allows
      omega
  · rintro ⟨m,given,allows⟩
    refine ⟨m + 1,?_,?_⟩
    · intro i below
      cases i with
      | zero =>
        rw [first]
        exact Option.some_ne_none _
      | succ i => exact given i (by omega)
    · rw [allowance,first]
      simp only
      omega

theorem enough_one {answers : Answers} : Enough answers 1 ↔ answers 0 ≠ none := by
  constructor
  · intro enough fails
    exact not_enough Nat.one_pos fails enough
  · intro given
    obtain ⟨more,first⟩ := Option.ne_none_iff_exists'.mp given
    rw [enough_step Nat.one_pos first,moved,Nat.min_eq_right (by omega)]
    exact enough_zero _

/-- A loop over the rest of an amount: how much is moved when it ends -/
def retry (answers : Answers) (amount : Nat) : Nat :=
  if 0 < amount then
    match answers 0 with
    | none => 0
    | some more => moved more amount + retry (later answers) (amount - moved more amount)
  else 0
termination_by amount
decreasing_by
  have := moved_pos ‹_› more
  omega

theorem retry_fails {answers : Answers} {amount : Nat} (fails : answers 0 = none) : retry answers amount = 0 := by
  rw [retry]
  split
  · rw [fails]
  · rfl

theorem retry_step {answers : Answers} {amount more : Nat} (some_ : 0 < amount) (first : answers 0 = some more) :
    retry answers amount = moved more amount + retry (later answers) (amount - moved more amount) := by
  rw [retry,if_pos some_,first]

theorem retry_zero (answers : Answers) : retry answers 0 = 0 := by rw [retry,if_neg (Nat.lt_irrefl 0)]

theorem retry_le (answers : Answers) (amount : Nat) : retry answers amount ≤ amount := by
  induction amount using Nat.strongRecOn generalizing answers with
  | _ amount ih =>
    by_cases some_ : 0 < amount
    · cases first : answers 0 with
      | none =>
        rw [retry_fails first]
        exact Nat.zero_le _
      | some more =>
        have positive := moved_pos some_ more
        have most := moved_le more amount
        have rest := ih (amount - moved more amount) (by omega) (later answers)
        rw [retry_step some_ first]
        omega
    · have none : amount = 0 := Nat.eq_zero_of_not_pos some_
      subst none
      exact Nat.le_of_eq (retry_zero answers)

/-- The loop moves all of the amount exactly if the answers allow it before the first failure. -/
theorem retry_eq_iff (answers : Answers) (amount : Nat) : retry answers amount = amount ↔ Enough answers amount := by
  induction amount using Nat.strongRecOn generalizing answers with
  | _ amount ih =>
    by_cases some_ : 0 < amount
    · cases first : answers 0 with
      | none =>
        rw [retry_fails first]
        exact ⟨fun same => absurd same (by omega),fun enough => absurd enough (not_enough some_ first)⟩
      | some more =>
        have positive := moved_pos some_ more
        have most := moved_le more amount
        rw [retry_step some_ first,enough_step some_ first,← ih (amount - moved more amount) (by omega)]
        omega
    · rw [Nat.eq_zero_of_not_pos some_,retry_zero]
      exact ⟨fun _ => enough_zero _,fun _ => rfl⟩

end Oscan.Library.Transfer
