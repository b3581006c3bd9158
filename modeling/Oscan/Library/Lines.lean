import Mathlib.Data.List.Basic

/-! A list in segments, each ended by a separator, and what is behind the last of them; a reader that is asked for
one item after the other. -/
namespace Oscan.Library.Lines

section Segments
variable {α : Type} [DecidableEq α]

def segments (sep : α) : List α → List (List α) × List α
  | [] => ([],[])
  | a :: as =>
    let (ended,rest) := segments sep as
    if a = sep then ([] :: ended,rest)
    else match ended with
      | [] => ([],a :: rest)
      | l :: ended => ((a :: l) :: ended,rest)

variable {sep : α}

theorem segments_free {l : List α} (free : sep ∉ l) : segments sep l = ([],l) := by
  induction l with
  | nil => rfl
  | cons a l ih =>
    rw [List.mem_cons,not_or] at free
    rw [segments,ih free.2]
    exact if_neg (Ne.symm free.1)

theorem segments_ended {l : List α} (free : sep ∉ l) (rest : List α) :
    segments sep (l ++ sep :: rest) = (l :: (segments sep rest).1,(segments sep rest).2) := by
  induction l with
  | nil =>
    rw [List.nil_append,segments]
    exact if_pos rfl
  | cons a l ih =>
    rw [List.mem_cons,not_or] at free
    rw [List.cons_append,segments,ih free.2]
    exact if_neg (Ne.symm free.1)

/-- A list is one without the separator, or such a one before a separator and another list. -/
theorem segment_induction {P : List α → Prop} (last : ∀ l, sep ∉ l → P l)
    (ended : ∀ l rest, sep ∉ l → P rest → P (l ++ sep :: rest)) (s : List α) : P s := by
  induction size : s.length using Nat.strongRecOn generalizing s with
  | _ n ih =>
    by_cases found : sep ∈ s
    · obtain ⟨l,rest,rfl,free⟩ := List.eq_append_cons_of_mem found
      apply ended l rest free
      apply ih rest.length _ rest rfl
      rw [← size,List.length_append,List.length_cons]
      omega
    · exact last s found

end Segments

section Calls
variable {σ β : Type}

/-- What a reader answers, one call after the other -/
def calls (read : σ → β × σ) : Nat → σ → List β
  | 0,_ => []
  | n + 1,s => (read s).1 :: calls read n (read s).2

/-- The items in order, and then always the same -/
def padded (ending : β) : Nat → List β → List β
  | 0,_ => []
  | n + 1,[] => ending :: padded ending n []
  | n + 1,b :: bs => b :: padded ending n bs

theorem calls_at_end {read : σ → β × σ} {s : σ} {ending : β} (stays : read s = (ending,s)) (n : Nat) :
    calls read n s = padded ending n [] := by
  induction n with
  | zero => rfl
  | succ n ih => rw [calls,stays,ih,padded]

theorem padded_length (ending : β) (items : List β) : padded ending items.length items = items := by
  induction items with
  | nil => rfl
  | cons b bs ih => rw [List.length_cons,padded,ih]

/-- Behind the items there is the ending. -/
theorem padded_succ (ending : β) (items : List β) :
    padded ending (items.length + 1) items = items ++ [ending] := by
  induction items with
  | nil => rfl
  | cons b bs ih => rw [List.length_cons,padded,ih,List.cons_append]

/-- Two readers that answer alike and go on alike, as long as a condition holds, are not told apart. -/
theorem calls_eq {read read' : σ → β × σ} (P : σ → Prop) (same : ∀ s, P s → read s = read' s)
    (kept : ∀ s, P s → P (read s).2) (n : Nat) (s : σ) (holds : P s) : calls read n s = calls read' n s := by
  induction n generalizing s with
  | zero => rfl
  | succ n ih =>
    rw [calls,calls,← same s holds]
    exact congrArg _ (ih _ (kept s holds))

end Calls
end Oscan.Library.Lines
