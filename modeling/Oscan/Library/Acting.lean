import Mathlib.Data.List.Basic

/-! Programs that act on a state. An action answers, panics where it stands, stops because memory has run out, or has
no defined ending. -/
namespace Oscan.Library.Acting

inductive Ending (σ α : Type) where
  | done (answer : α) (state : σ)
  | panics (message : String) (state : σ)
  | exhausted (state : σ)
  | undefined

def Act (σ α : Type) : Type := σ → Ending σ α

variable {σ τ α β ι : Type}

def Ending.andThen (e : Ending σ α) (f : α → Act σ β) : Ending σ β :=
  match e with
  | .done a s => f a s
  | .panics message s => .panics message s
  | .exhausted s => .exhausted s
  | .undefined => .undefined

instance : Monad (Act σ) where
  pure a := fun s => .done a s
  bind a f := fun s => (a s).andThen f

def panicWith (message : String) : Act σ α := fun s => .panics message s

def undefined : Act σ α := fun _ => .undefined

/-- A check that panics when it finds something -/
def refuse (found : Prop) [Decidable found] (message : String) : Act σ Unit :=
  if found then panicWith message else pure ()

/-- `for (k = 0; k < n; k++)` -/
def times : Nat → (Nat → Act σ Unit) → Act σ Unit
  | 0,_ => pure ()
  | n + 1,body => do
    times n body
    body n

theorem pure_apply (a : α) (s : σ) : (pure a : Act σ α) s = .done a s := rfl

theorem bind_apply (a : Act σ α) (f : α → Act σ β) (s : σ) : (a >>= f) s = (a s).andThen f := rfl

@[simp] theorem andThen_done (a : α) (s : σ) (f : α → Act σ β) : (Ending.done a s).andThen f = f a s := rfl

theorem bind_bind {γ : Type} (a : Act σ α) (f : α → Act σ β) (g : β → Act σ γ) :
    (a >>= f) >>= g = a >>= fun x => f x >>= g := by
  funext s
  rw [bind_apply,bind_apply,bind_apply]
  cases a s <;> rfl

theorem pure_bind (a : α) (f : α → Act σ β) : (pure a : Act σ α) >>= f = f a := rfl

theorem refuse_found {found : Prop} [Decidable found] {message : String} (yes : found) (f : Unit → Act σ α) (s : σ) :
    (refuse found message >>= f) s = .panics message s := by
  rw [bind_apply,refuse,if_pos yes]
  rfl

theorem refuse_passed {found : Prop} [Decidable found] {message : String} (no : ¬found) (f : Unit → Act σ α) (s : σ) :
    (refuse found message >>= f) s = f () s := by
  rw [bind_apply,refuse,if_neg no]
  rfl

/-- The action answers, unless memory runs out, and what it leaves behind is as told. -/
def Ensures (a : Act σ α) (s : σ) (post : α → σ → Prop) : Prop :=
  match a s with
  | .done x s' => post x s'
  | .exhausted _ => True
  | _ => False

theorem Ensures.pure {a : α} {s : σ} {post : α → σ → Prop} (holds : post a s) : Ensures (Pure.pure a) s post := holds

theorem Ensures.bind {a : Act σ α} {f : α → Act σ β} {s : σ} {middle : α → σ → Prop} {post : β → σ → Prop}
    (first : Ensures a s middle) (second : ∀ x s', middle x s' → Ensures (f x) s' post) :
    Ensures (a >>= f) s post := by
  unfold Ensures at first ⊢
  rw [bind_apply]
  cases ending : a s with
  | done x s' =>
    rw [ending] at first
    exact second x s' first
  | exhausted s' => trivial
  | panics | undefined =>
    rw [ending] at first
    exact first.elim

theorem Ensures.weaken {a : Act σ α} {s : σ} {post post' : α → σ → Prop} (ensured : Ensures a s post)
    (weaker : ∀ x s', post x s' → post' x s') : Ensures a s post' := by
  unfold Ensures at ensured ⊢
  cases ending : a s with
  | done x s' =>
    rw [ending] at ensured
    exact weaker x s' ensured
  | exhausted s' => trivial
  | panics | undefined =>
    rw [ending] at ensured
    exact ensured.elim

theorem Ensures.refuse {found : Prop} [Decidable found] {message : String} {f : Unit → Act σ α} {s : σ}
    {post : α → σ → Prop} (no : ¬found) (after : Ensures (f ()) s post) :
    Ensures (Acting.refuse found message >>= f) s post := by
  unfold Ensures at after ⊢
  rw [refuse_passed no]
  exact after

/-- What each round of a loop keeps -/
theorem Ensures.times {body : Nat → Act σ Unit} {s : σ} (holds : Nat → σ → Prop) (count : Nat) (start : holds 0 s)
    (keeps : ∀ k s', k < count → holds k s' → Ensures (body k) s' fun _ => holds (k + 1)) :
    Ensures (times count body) s fun _ => holds count := by
  induction count with
  | zero => exact start
  | succ n ih =>
    have earlier := ih fun k s' bound => keeps k s' (Nat.lt_succ_of_lt bound)
    exact earlier.bind fun _ s' reached => keeps n s' (Nat.lt_succ_self n) reached

/-- The same answer or the same panic, and related states after it; a call that has no meaning may do anything. -/
def Agrees (R : σ → τ → Prop) : Ending σ α → Ending τ α → Prop
  | _,.undefined => True
  | .exhausted _,_ => True
  | .done a s,.done b t => a = b ∧ R s t
  | .panics message s,.panics message' t => message = message' ∧ R s t
  | _,_ => False

variable {R : σ → τ → Prop}

theorem Agrees.panics {message : String} {s : σ} {t : τ} (related : R s t) :
    Agrees (α := α) R (.panics message s) (.panics message t) := ⟨rfl,related⟩

theorem Ensures.agrees {a : Act σ α} {s : σ} {b : α} {t : τ} (ensured : Ensures a s fun x s' => x = b ∧ R s' t) :
    Agrees R (a s) (.done b t) := by
  unfold Ensures at ensured
  cases ending : a s with
  | done x s' =>
    rw [ending] at ensured
    exact ensured
  | exhausted s' => trivial
  | panics | undefined =>
    rw [ending] at ensured
    exact ensured.elim

theorem Agrees.undefined {e : Ending σ α} : Agrees R e .undefined := by
  cases e <;> trivial

theorem Agrees.exhausted {s : σ} {e : Ending τ α} : Agrees R (.exhausted s) e := by
  cases e <;> trivial

theorem Agrees.bind {e : Ending σ α} {e' : Ending τ α} {f : α → Act σ β} {g : α → Act τ β} (first : Agrees R e e')
    (second : ∀ x s t, R s t → Agrees R (f x s) (g x t)) : Agrees R (e.andThen f) (e'.andThen g) := by
  cases e' with
  | undefined => exact .undefined
  | exhausted t =>
    cases e with
    | exhausted s => trivial
    | done | panics | undefined => exact first.elim
  | done b t =>
    cases e with
    | done a s =>
      obtain ⟨rfl,related⟩ := first
      exact second a s t related
    | exhausted s => exact .exhausted
    | panics | undefined => exact first.elim
  | panics message t =>
    cases e with
    | panics message' s => exact first
    | exhausted s => trivial
    | done | undefined => exact first.elim

/-- The answers to all of the calls, one after the other -/
def runs (act : ι → Act σ α) : List ι → Act σ (List α)
  | [] => pure []
  | c :: cs => do
    let a ← act c
    let rest ← runs act cs
    pure (a :: rest)

/-- Where every call agrees, whole runs do. -/
theorem runs_agree {act : ι → Act σ α} {meaning : ι → Act τ α}
    (each : ∀ c s t, R s t → Agrees R (act c s) (meaning c t)) :
    ∀ (calls : List ι) (s : σ) (t : τ), R s t → Agrees R (runs act calls s) (runs meaning calls t) := by
  intro calls
  induction calls with
  | nil => exact fun s t related => ⟨rfl,related⟩
  | cons c cs ih =>
    intro s t related
    rw [runs,runs,bind_apply,bind_apply]
    refine (each c s t related).bind fun a s' t' related' => ?_
    rw [bind_apply,bind_apply]
    exact (ih s' t' related').bind fun rest s'' t'' related'' => ⟨rfl,related''⟩

/-- The action only looks at the state. -/
def ReadOnly (a : Act σ α) : Prop := ∀ s, (∀ x s', a s = .done x s' → s' = s) ∧ ∀ message s', a s = .panics message s' → s' = s

/-- A panic comes before any change of the state. -/
def Steady (a : Act σ α) : Prop := ∀ s message s', a s = .panics message s' → s' = s

def Silent (a : Act σ α) : Prop := ∀ s message s', a s ≠ .panics message s'

theorem Silent.steady {a : Act σ α} (silent : Silent a) : Steady a :=
  fun s message s' panicked => absurd panicked (silent s message s')

theorem ReadOnly.steady {a : Act σ α} (readOnly : ReadOnly a) : Steady a := fun s => (readOnly s).2

theorem ReadOnly.pure {a : α} : ReadOnly (Pure.pure a : Act σ α) :=
  fun s => ⟨fun x s' same => by cases same; rfl,fun _ _ no => by cases no⟩

theorem Silent.pure {a : α} : Silent (Pure.pure a : Act σ α) := fun _ _ _ no => by cases no

theorem ReadOnly.panicWith {message : String} : ReadOnly (Acting.panicWith message : Act σ α) :=
  fun s => ⟨(fun _ _ no => by cases no),fun _ s' same => by cases same; rfl⟩

theorem ReadOnly.undefined : ReadOnly (Acting.undefined : Act σ α) :=
  fun s => ⟨(fun _ _ no => by cases no),fun _ _ no => by cases no⟩

theorem ReadOnly.refuse {found : Prop} [Decidable found] {message : String} :
    ReadOnly (Acting.refuse found message : Act σ Unit) := by
  unfold Acting.refuse
  split
  · exact .panicWith
  · exact .pure

theorem ReadOnly.bind {a : Act σ α} {f : α → Act σ β} (first : ReadOnly a) (second : ∀ x, ReadOnly (f x)) :
    ReadOnly (a >>= f) := by
  intro s
  rw [bind_apply]
  cases ending : a s with
  | done x s' =>
    have same := (first s).1 x s' ending
    subst same
    exact second x s'
  | panics message s' =>
    refine ⟨(fun _ _ no => by cases no),fun _ s'' same => ?_⟩
    cases same
    exact (first s).2 message s' ending
  | exhausted | undefined => exact ⟨(fun _ _ no => by cases no),fun _ _ no => by cases no⟩

theorem Steady.after {a : Act σ α} {f : α → Act σ β} (first : ReadOnly a) (second : ∀ x, Steady (f x)) :
    Steady (a >>= f) := by
  intro s message s' panicked
  rw [bind_apply] at panicked
  cases ending : a s with
  | done x s'' =>
    have same := (first s).1 x s'' ending
    subst same
    rw [ending] at panicked
    exact second x s'' message s' panicked
  | panics message' s'' =>
    rw [ending] at panicked
    cases panicked
    exact (first s).2 message s' ending
  | exhausted | undefined =>
    rw [ending] at panicked
    cases panicked

theorem Steady.before {a : Act σ α} {f : α → Act σ β} (first : Steady a) (second : ∀ x, Silent (f x)) :
    Steady (a >>= f) := by
  intro s message s' panicked
  rw [bind_apply] at panicked
  cases ending : a s with
  | done x s'' =>
    rw [ending] at panicked
    exact absurd panicked (second x s'' message s')
  | panics message' s'' =>
    rw [ending] at panicked
    cases panicked
    exact first s message s' ending
  | exhausted | undefined =>
    rw [ending] at panicked
    cases panicked

end Oscan.Library.Acting
