import Mathlib.Data.List.Forall2
import Mathlib.Logic.Basic

/-! Two machines that take the same calls one by one: one stands for what the other is for.
A call answers, or panics with a message, or has no defined outcome; only an answer lets the run go on. -/
namespace Oscan.Library.Lockstep

inductive Outcome (α : Type) where
  | ok (result : α)
  | panic (message : String)
  | undefined
deriving DecidableEq

variable {σ τ ι ω α β : Type}

def Outcome.bind (o : Outcome α) (f : α → Outcome β) : Outcome β :=
  match o with
  | .ok a => f a
  | .panic message => .panic message
  | .undefined => .undefined

def Outcome.map (f : α → β) : Outcome α → Outcome β
  | .ok a => .ok (f a)
  | .panic message => .panic message
  | .undefined => .undefined

@[simp] theorem Outcome.bind_ok (a : α) (f : α → Outcome β) : (Outcome.ok a).bind f = f a := rfl
@[simp] theorem Outcome.map_ok (f : α → β) (a : α) : (Outcome.ok a).map f = .ok (f a) := rfl
@[simp] theorem Outcome.map_panic (f : α → β) (message : String) : (Outcome.panic message).map f = .panic message := rfl
@[simp] theorem Outcome.map_undefined (f : α → β) : (Outcome.undefined : Outcome α).map f = .undefined := rfl

theorem Outcome.bind_assoc {γ : Type} (o : Outcome α) (f : α → Outcome β) (g : β → Outcome γ) :
    (o.bind f).bind g = o.bind fun a => (f a).bind g := by
  cases o <;> rfl

theorem Outcome.map_eq_bind (f : α → β) (o : Outcome α) : o.map f = o.bind fun a => .ok (f a) := by
  cases o <;> rfl

theorem Outcome.bind_eq_ok {o : Outcome α} {f : α → Outcome β} {b : β} (done : o.bind f = .ok b) :
    ∃ a, o = .ok a ∧ f a = .ok b := by
  cases o with
  | ok a => exact ⟨a,rfl,done⟩
  | panic | undefined => cases done

section
variable (step : σ → ι → Outcome (ω × σ))

/-- What the caller sees, up to the first call that does not answer. -/
def answers : σ → List ι → List (Outcome ω)
  | _,[] => []
  | s,c :: cs =>
    match step s c with
    | .ok (a,s') => .ok a :: answers s' cs
    | .panic message => [.panic message]
    | .undefined => [.undefined]

/-- The state after all of the calls, when each of them answers. -/
def reached : σ → List ι → Option σ
  | s,[] => some s
  | s,c :: cs =>
    match step s c with
    | .ok (_,s') => reached s' cs
    | _ => none

/-- The condition holds before every call of the run. -/
def Always (C : σ → ι → Prop) (s : σ) (calls : List ι) : Prop :=
  ∀ before c rest s', calls = before ++ c :: rest → reached step s before = some s' → C s' c

end

/-- The same answer or the same panic, and related states after an answer -/
def Agrees (R : σ → τ → Prop) : Outcome (ω × σ) → Outcome (ω × τ) → Prop
  | .ok (a,s),.ok (b,t) => a = b ∧ R s t
  | .panic m,.panic n => m = n
  | _,_ => False

/-- The runs show the same, and every state reached stands for the one reached beside it. -/
structure Refines (step : σ → ι → Outcome (ω × σ)) (meaning : τ → ι → Outcome (ω × τ)) (R : σ → τ → Prop)
    (s : σ) (t : τ) (calls : List ι) : Prop where
  answers : answers step s calls = answers meaning t calls
  states : ∀ before rest s', calls = before ++ rest → reached step s before = some s' →
    ∃ t', reached meaning t before = some t' ∧ R s' t'

variable {step : σ → ι → Outcome (ω × σ)} {meaning : τ → ι → Outcome (ω × τ)} {C : σ → ι → Prop}
variable {R : σ → τ → Prop} {s : σ} {t : τ}

theorem always_cons {c : ι} {cs : List ι} : Always step C s (c :: cs) ↔
    C s c ∧ ∀ a s', step s c = .ok (a,s') → Always step C s' cs := by
  constructor
  · intro all
    refine ⟨all [] c cs s rfl rfl,fun a s' stepped before d rest s'' split later => ?_⟩
    refine all (c :: before) d rest s'' (by rw [split,List.cons_append]) ?_
    rw [reached,stepped]
    exact later
  · rintro ⟨now,after⟩ before d rest s'' split later
    cases before with
    | nil =>
      rw [List.nil_append,List.cons.injEq] at split
      obtain ⟨rfl,rfl⟩ := split
      cases later
      exact now
    | cons e before =>
      rw [List.cons_append,List.cons.injEq] at split
      obtain ⟨rfl,rfl⟩ := split
      rw [reached] at later
      split at later
      next a s' stepped => exact after a s' stepped before d rest s'' rfl later
      next => cases later

/-- Where every call meets the condition, the runs go on together. -/
theorem refines_of_always (keeps : ∀ s t c, R s t → C s c → Agrees R (step s c) (meaning t c)) :
    ∀ {calls : List ι} {s : σ} {t : τ}, R s t → Always step C s calls → Refines step meaning R s t calls := by
  intro calls
  induction calls with
  | nil =>
    intro s t related _
    refine ⟨rfl,fun before rest s' split later => ?_⟩
    obtain ⟨rfl,rfl⟩ := List.append_eq_nil_iff.mp split.symm
    cases later
    exact ⟨t,rfl,related⟩
  | cons c cs ih =>
    intro s t related all
    obtain ⟨now,after⟩ := always_cons.mp all
    have agrees := keeps _ _ _ related now
    refine ⟨?_,fun before rest s' split later => ?_⟩
    · rw [answers,answers]
      revert after agrees
      cases step s c with
      | ok r =>
        cases meaning t c with
        | ok r' =>
          rintro after ⟨same,next⟩
          simp only [same,(ih next (after r.1 r.2 rfl)).answers]
        | panic | undefined => exact fun _ no => no.elim
      | panic message =>
        cases meaning t c with
        | panic => exact fun _ same => by simp only [show message = _ from same]
        | ok | undefined => exact fun _ no => no.elim
      | undefined => exact fun _ no => no.elim
    · cases before with
      | nil =>
        cases later
        exact ⟨t,rfl,related⟩
      | cons d before =>
        rw [List.cons_append,List.cons.injEq] at split
        obtain ⟨rfl,rfl⟩ := split
        rw [reached] at later ⊢
        revert later
        revert agrees
        revert after
        cases step s c with
        | ok r =>
          cases meaning t c with
          | ok r' =>
            rintro after ⟨-,next⟩ later
            exact (ih next (after r.1 r.2 rfl)).states before rest s' rfl later
          | panic | undefined => exact fun _ no => no.elim
        | panic | undefined => exact fun _ _ no => nomatch no

/-- Where breaking the condition shows, the runs show the same only if every call meets it. -/
theorem always_of_answers (keeps : ∀ s t c, R s t → C s c → Agrees R (step s c) (meaning t c))
    (breaks : ∀ s t c, R s t → ¬ C s c → (step s c).map Prod.fst ≠ (meaning t c).map Prod.fst) :
    ∀ {calls : List ι} {s : σ} {t : τ}, R s t → answers step s calls = answers meaning t calls →
      Always step C s calls := by
  intro calls
  induction calls with
  | nil =>
    intro s t _ _ before c rest s' split _
    exact absurd split.symm (List.append_ne_nil_of_right_ne_nil _ (List.cons_ne_nil _ _))
  | cons c cs ih =>
    intro s t related same
    have first : (step s c).map Prod.fst = (meaning t c).map Prod.fst := by
      rw [answers,answers] at same
      revert same
      cases step s c <;> cases meaning t c <;> simp [Outcome.map]
      exact fun is _ => is
    have now : C s c := by
      by_contra broken
      exact breaks _ _ _ related broken first
    refine always_cons.mpr ⟨now,fun a s' stepped => ?_⟩
    have agrees := keeps _ _ _ related now
    rw [answers,answers,stepped] at same
    rw [stepped] at agrees
    revert same agrees
    cases meaning t c with
    | ok r =>
      rintro same ⟨-,next⟩
      simp only [List.cons.injEq] at same
      exact ih next same.2
    | panic | undefined => exact fun _ no => no.elim

theorem answers_iff (keeps : ∀ s t c, R s t → C s c → Agrees R (step s c) (meaning t c))
    (breaks : ∀ s t c, R s t → ¬ C s c → (step s c).map Prod.fst ≠ (meaning t c).map Prod.fst)
    {calls : List ι} (related : R s t) : answers step s calls = answers meaning t calls ↔ Always step C s calls :=
  ⟨always_of_answers keeps breaks related,fun all => (refines_of_always keeps related all).answers⟩

theorem refines_iff (keeps : ∀ s t c, R s t → C s c → Agrees R (step s c) (meaning t c))
    (breaks : ∀ s t c, R s t → ¬ C s c → (step s c).map Prod.fst ≠ (meaning t c).map Prod.fst)
    {Q : σ → τ → Prop} (weaker : ∀ {s t}, R s t → Q s t) {calls : List ι} (related : R s t) :
    Refines step meaning Q s t calls ↔ Always step C s calls := by
  constructor
  · exact fun refines => (answers_iff keeps breaks related).mp refines.answers
  · intro all
    obtain ⟨answers,states⟩ := refines_of_always keeps related all
    refine ⟨answers,fun before rest s' split later => ?_⟩
    obtain ⟨t',follows,next⟩ := states before rest s' split later
    exact ⟨t',follows,weaker next⟩

/-! Heaps: handles into lists of related objects -/

theorem forall₂_set {R : α → β → Prop} {xs : List α} {ys : List β} {a : α} {b : β} (all : List.Forall₂ R xs ys)
    (one : R a b) : ∀ i, List.Forall₂ R (xs.set i a) (ys.set i b) := by
  induction all with
  | nil => exact fun _ => .nil
  | cons first rest ih =>
    intro i
    cases i with
    | zero => exact .cons one rest
    | succ i => exact .cons first (ih i)

theorem forall₂_getElem? {R : α → β → Prop} {xs : List α} {ys : List β} (all : List.Forall₂ R xs ys) :
    ∀ i : Nat, xs[i]? = none ∧ ys[i]? = none ∨ ∃ x y, xs[i]? = some x ∧ ys[i]? = some y ∧ R x y := by
  induction all with
  | nil => exact fun _ => .inl ⟨rfl,rfl⟩
  | cons first rest ih =>
    intro i
    cases i with
    | zero => exact .inr ⟨_,_,rfl,rfl,first⟩
    | succ i => exact ih i

end Oscan.Library.Lockstep
