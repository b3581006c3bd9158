import Mathlib.Data.List.Basic

/-! Structured control code with loops that a break leaves, switches that catch a break, and calls.
A run is the list of its events and the way it ends; a triple says how a run moves a monitor that
watches the events. -/
namespace Oscan.Library.Control

variable {ε κ σ : Type}

inductive Code (ε κ : Type) where
  | skip
  | act (event : ε)
  | call (target : κ)
  | seq (first second : Code ε κ)
  | choice (first second : Code ε κ)
  | loop (head body next : Code ε κ)
  | switch (body : Code ε κ)
  | brk | cont | ret

/-- How a run ends; `cut` is a run that is only observed so far. -/
inductive Outcome where
  | done | broke | continued | returned | cut
  deriving DecidableEq

/-- A loop goes on to its next iteration after these ends of its body. -/
def Outcome.Repeats : Outcome → Prop
  | .done | .continued => True
  | .broke | .returned | .cut => False

/-- The end of a loop, from an end of its body that does not repeat. -/
def Outcome.leaving : Outcome → Outcome
  | .broke => .done
  | o => o

/-- What a call may do, as the events and the end (`done` or `cut`) of the callee. -/
abbrev Calls (ε κ : Type) := κ → List ε → Outcome → Prop

inductive Run (calls : Calls ε κ) : Code ε κ → List ε → Outcome → Prop where
  | cut {c} : Run calls c [] .cut
  | skip : Run calls .skip [] .done
  | act {e} : Run calls (.act e) [e] .done
  | brk : Run calls .brk [] .broke
  | cont : Run calls .cont [] .continued
  | ret : Run calls .ret [] .returned
  | call {k τ o} : calls k τ o → Run calls (.call k) τ o
  | seq {a b τ υ o} : Run calls a τ .done → Run calls b υ o → Run calls (.seq a b) (τ ++ υ) o
  | stop {a b τ o} : Run calls a τ o → o ≠ .done → Run calls (.seq a b) τ o
  | first {a b τ o} : Run calls a τ o → Run calls (.choice a b) τ o
  | second {a b τ o} : Run calls b τ o → Run calls (.choice a b) τ o
  | head {h a n τ o} : Run calls h τ o → o ≠ .done → Run calls (.loop h a n) τ o
  | leave {h a n τ υ o} : Run calls h τ .done → Run calls a υ o → ¬ o.Repeats →
      Run calls (.loop h a n) (τ ++ υ) o.leaving
  | within {h a n τ υ ρ o} : Run calls h τ .done → Run calls a υ o → o.Repeats → Run calls n ρ .cut →
      Run calls (.loop h a n) (τ ++ υ ++ ρ) .cut
  | again {h a n τ υ ρ φ o o'} : Run calls h τ .done → Run calls a υ o → o.Repeats →
      Run calls n ρ .done → Run calls (.loop h a n) φ o' → Run calls (.loop h a n) (τ ++ υ ++ ρ ++ φ) o'
  | switch {a τ o} : Run calls a τ o → Run calls (.switch a) τ o.leaving

/-- The calls of a program to a depth: a callee runs one of the bodies of its name. -/
def callsTo (bodies : κ → Code ε κ → Prop) : Nat → Calls ε κ
  | 0,_,_,_ => False
  | n + 1,k,τ,o => ∃ c, bodies k c ∧
      match o with
      | .done => Run (callsTo bodies n) c τ .done ∨ Run (callsTo bodies n) c τ .returned
      | .cut => Run (callsTo bodies n) c τ .cut
      | _ => False

/-- What holds at the ends of a piece of code, one assertion for each way out of it. -/
structure Post (σ : Type) where
  done : σ → Prop
  broke : σ → Prop
  continued : σ → Prop
  returned : σ → Prop

def Post.At (Q : Post σ) : Outcome → σ → Prop
  | .done => Q.done
  | .broke => Q.broke
  | .continued => Q.continued
  | .returned => Q.returned
  | .cut => fun _ => True

/-- From a state with `P`, the monitor accepts every run and is then in a state with `Q`. -/
def Triple (calls : Calls ε κ) (step : σ → ε → Option σ) (P : σ → Prop) (c : Code ε κ) (Q : Post σ) : Prop :=
  ∀ s τ o, P s → Run calls c τ o → ∃ s', τ.foldlM step s = some s' ∧ Q.At o s'

/-- The calls keep to a contract, from `pre` to `post` over the target. -/
def Meets (calls : Calls ε κ) (step : σ → ε → Option σ) (pre post : κ → σ → Prop) : Prop :=
  ∀ k s τ o, pre k s → calls k τ o →
    ∃ s', τ.foldlM step s = some s' ∧ (o = .done ∧ post k s' ∨ o = .cut)

section Rules
variable {calls : Calls ε κ} {step : σ → ε → Option σ} {P R J : σ → Prop} {Q : Post σ}
  {a b c : Code ε κ}

theorem tracked_append {s t u : σ} {τ υ : List ε} (first : τ.foldlM step s = some t)
    (second : υ.foldlM step t = some u) : (τ ++ υ).foldlM step s = some u := by
  rw [List.foldlM_append,first]
  exact second

theorem Triple.imp {P' : σ → Prop} {Q' : Post σ} (triple : Triple calls step P a Q)
    (pre : ∀ s, P' s → P s) (post : ∀ o s, Q.At o s → Q'.At o s) : Triple calls step P' a Q' := by
  intro s τ o start run
  obtain ⟨t,tracked,ended⟩ := triple s τ o (pre s start) run
  exact ⟨t,tracked,post o t ended⟩

theorem Triple.skip (hold : ∀ s, P s → Q.done s) : Triple calls step P .skip Q := by
  intro s τ o start run
  cases run with
  | cut => exact ⟨s,rfl,trivial⟩
  | skip => exact ⟨s,rfl,hold s start⟩

theorem Triple.act {e : ε} (hold : ∀ s, P s → ∃ t, step s e = some t ∧ Q.done t) :
    Triple calls step P (.act e) Q := by
  intro s τ o start run
  cases run with
  | cut => exact ⟨s,rfl,trivial⟩
  | act =>
    obtain ⟨t,stepped,ended⟩ := hold s start
    refine ⟨t,?_,ended⟩
    rw [List.foldlM_cons,stepped]
    rfl

theorem Triple.brk (hold : ∀ s, P s → Q.broke s) : Triple calls step P .brk Q := by
  intro s τ o start run
  cases run with
  | cut => exact ⟨s,rfl,trivial⟩
  | brk => exact ⟨s,rfl,hold s start⟩

theorem Triple.cont (hold : ∀ s, P s → Q.continued s) : Triple calls step P .cont Q := by
  intro s τ o start run
  cases run with
  | cut => exact ⟨s,rfl,trivial⟩
  | cont => exact ⟨s,rfl,hold s start⟩

theorem Triple.ret (hold : ∀ s, P s → Q.returned s) : Triple calls step P .ret Q := by
  intro s τ o start run
  cases run with
  | cut => exact ⟨s,rfl,trivial⟩
  | ret => exact ⟨s,rfl,hold s start⟩

theorem Triple.call {pre post : κ → σ → Prop} {k : κ} (meets : Meets calls step pre post)
    (start : ∀ s, P s → pre k s) (ends : ∀ s, post k s → Q.done s) :
    Triple calls step P (.call k) Q := by
  intro s τ o holds run
  cases run with
  | cut => exact ⟨s,rfl,trivial⟩
  | call called =>
    obtain ⟨t,tracked,⟨rfl,ended⟩ | rfl⟩ := meets k s τ o (start s holds) called
    · exact ⟨t,tracked,ends t ended⟩
    · exact ⟨t,tracked,trivial⟩

theorem Triple.seq (first : Triple calls step P a {Q with done := R})
    (second : Triple calls step R b Q) : Triple calls step P (.seq a b) Q := by
  intro s τ o start run
  cases run with
  | cut => exact ⟨s,rfl,trivial⟩
  | seq before after =>
    obtain ⟨t,before,middle⟩ := first s _ _ start before
    obtain ⟨u,after,ended⟩ := second t _ _ middle after
    exact ⟨u,tracked_append before after,ended⟩
  | stop before early =>
    obtain ⟨t,tracked,ended⟩ := first s τ o start before
    refine ⟨t,tracked,?_⟩
    cases o with
    | done => exact absurd rfl early
    | broke | continued | returned | cut => exact ended

theorem Triple.choice (first : Triple calls step P a Q) (second : Triple calls step P b Q) :
    Triple calls step P (.choice a b) Q := by
  intro s τ o start run
  cases run with
  | cut => exact ⟨s,rfl,trivial⟩
  | first run => exact first s τ o start run
  | second run => exact second s τ o start run

theorem Post.repeats {Q : Post σ} {o : Outcome} {s : σ} (ended : Post.At ⟨J,Q.done,J,Q.returned⟩ o s)
    (repeats : o.Repeats) : J s := by
  cases o with
  | done | continued => exact ended
  | broke | returned | cut => exact absurd repeats id

/-- `P` is the invariant of the loop, `R` holds behind its head and `J` behind its body. A way out
of the head is a way out of the whole loop. -/
theorem Triple.loop (head : Triple calls step P a {Q with done := R})
    (body : Triple calls step R b ⟨J,Q.done,J,Q.returned⟩)
    (next : Triple calls step J c {Q with done := P}) : Triple calls step P (.loop a b c) Q := by
  intro s τ o start run
  generalize same : Code.loop a b c = whole at run
  induction run generalizing s with
  | cut => exact ⟨s,rfl,trivial⟩
  | @head _ _ _ _ o run early _ =>
    cases same
    obtain ⟨t,tracked,ended⟩ := head s _ _ start run
    refine ⟨t,tracked,?_⟩
    cases o with
    | done => exact absurd rfl early
    | broke | continued | returned | cut => exact ended
  | @leave _ _ _ _ _ o first run once _ _ =>
    cases same
    obtain ⟨r,before,entered⟩ := head s _ _ start first
    obtain ⟨t,tracked,ended⟩ := body r _ _ entered run
    refine ⟨t,tracked_append before tracked,?_⟩
    cases o with
    | done | continued => exact absurd trivial once
    | broke | returned | cut => exact ended
  | within first run repeats started _ _ _ =>
    cases same
    obtain ⟨r,before,entered⟩ := head s _ _ start first
    obtain ⟨t,tracked,ended⟩ := body r _ _ entered run
    obtain ⟨u,after,_⟩ := next t _ _ (Post.repeats ended repeats) started
    exact ⟨u,tracked_append (tracked_append before tracked) after,trivial⟩
  | again first run repeats started _ _ _ _ ih =>
    cases same
    obtain ⟨r,before,entered⟩ := head s _ _ start first
    obtain ⟨t,tracked,ended⟩ := body r _ _ entered run
    obtain ⟨u,after,invariant⟩ := next t _ _ (Post.repeats ended repeats) started
    obtain ⟨v,last,ended⟩ := ih u invariant rfl
    exact ⟨v,tracked_append (tracked_append (tracked_append before tracked) after) last,ended⟩
  | _ => cases same

theorem Triple.switch (body : Triple calls step P a {Q with broke := Q.done}) :
    Triple calls step P (.switch a) Q := by
  intro s τ o start run
  cases run with
  | cut => exact ⟨s,rfl,trivial⟩
  | @switch _ _ o run =>
    obtain ⟨t,tracked,ended⟩ := body s τ o start run
    exact ⟨t,tracked,by cases o <;> exact ended⟩

end Rules

/-- Bodies that meet a contract when their calls do meet it to every depth of calls. -/
theorem meets_callsTo {bodies : κ → Code ε κ → Prop} {step : σ → ε → Option σ} {pre post : κ → σ → Prop}
    (sound : ∀ calls, Meets calls step pre post → ∀ k c, bodies k c →
      ∃ Q : Post σ, Q.done = post k ∧ Q.returned = post k ∧ Triple calls step (pre k) c Q)
    (n : Nat) : Meets (callsTo bodies n) step pre post := by
  induction n with
  | zero => exact fun _ _ _ _ _ => False.elim
  | succ n ih =>
    rintro k s τ o start ⟨c,listed,ran⟩
    obtain ⟨Q,done,returned,triple⟩ := sound _ ih k c listed
    cases o with
    | done =>
      rcases ran with ran | ran
      · obtain ⟨t,tracked,ended⟩ := triple s τ _ start ran
        exact ⟨t,tracked,.inl ⟨rfl,done ▸ ended⟩⟩
      · obtain ⟨t,tracked,ended⟩ := triple s τ _ start ran
        exact ⟨t,tracked,.inl ⟨rfl,returned ▸ ended⟩⟩
    | cut =>
      obtain ⟨t,tracked,_⟩ := triple s τ _ start ran
      exact ⟨t,tracked,.inr rfl⟩
    | broke | continued | returned => exact ran.elim

end Oscan.Library.Control
