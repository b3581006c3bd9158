import Mathlib.Data.List.Basic

/-! Programs that may fail and that record what they do. Two of them are alike when they do the same and come to the
same value, whatever they say of a failure; a program keeps to what is allowed when it does nothing else. -/
namespace Oscan.Library

structure Recorded (ε α : Type) where
  result : Except String α
  done : List ε

namespace Recorded
variable {ε α β : Type}

def andThen (p : Recorded ε α) (f : α → Recorded ε β) : Recorded ε β :=
  match p.result with
  | .ok a => ⟨(f a).result,p.done ++ (f a).done⟩
  | .error message => ⟨.error message,p.done⟩

instance : Monad (Recorded ε) where
  pure a := ⟨.ok a,[]⟩
  bind := andThen

def perform (e : ε) : Recorded ε Unit := ⟨.ok (),[e]⟩

/-- An answer that takes nothing to be done -/
def answer (result : Except String α) : Recorded ε α := ⟨result,[]⟩

def fail (message : String) : Recorded ε α := answer (.error message)

/-- The same program, with its failure as a value -/
def attempt (p : Recorded ε α) : Recorded ε (Except String α) := ⟨.ok p.result,p.done⟩

def relabel (message : String → String) (p : Recorded ε α) : Recorded ε α := ⟨p.result.mapError message,p.done⟩

@[simp] theorem pure_result (a : α) : (pure a : Recorded ε α).result = .ok a := rfl

@[simp] theorem pure_done (a : α) : (pure a : Recorded ε α).done = [] := rfl

@[simp] theorem attempt_result (p : Recorded ε α) : p.attempt.result = .ok p.result := rfl

theorem bind_ok {p : Recorded ε α} {a : α} (f : α → Recorded ε β) (ended : p.result = .ok a) :
    p >>= f = ⟨(f a).result,p.done ++ (f a).done⟩ := by
  change p.andThen f = _
  simp only [andThen,ended]

theorem bind_error {p : Recorded ε α} {message : String} (f : α → Recorded ε β) (failed : p.result = .error message) :
    p >>= f = ⟨.error message,p.done⟩ := by
  change p.andThen f = _
  simp only [andThen,failed]

instance : LawfulMonad (Recorded ε) := by
  refine LawfulMonad.mk' _ (fun p => ?_) (fun a f => ?_) (fun p f g => ?_)
  · change p.andThen pure = p
    rcases p with ⟨_ | a,done⟩
    · rfl
    · exact congrArg (Recorded.mk (.ok a)) (List.append_nil done)
  · exact bind_ok f rfl
  · cases first : p.result with
    | error message => rw [bind_error _ first,bind_error _ first,bind_error _ rfl]
    | ok a =>
      rw [bind_ok _ first,bind_ok _ first]
      cases second : (f a).result with
      | error message => rw [bind_error _ second,bind_error _ rfl]
      | ok b =>
        rw [bind_ok _ second,bind_ok _ rfl]
        simp only [List.append_assoc]

theorem bind_result {p : Recorded ε α} {f : α → Recorded ε β} {b : β} (ended : (p >>= f).result = .ok b) :
    ∃ a, p.result = .ok a ∧ (f a).result = .ok b := by
  cases first : p.result with
  | ok a =>
    rw [bind_ok f first] at ended
    exact ⟨a,rfl,ended⟩
  | error message =>
    rw [bind_error f first] at ended
    cases ended

theorem bind_result_congr {p q : Recorded ε α} {f g : α → Recorded ε β} (first : p.result = q.result)
    (second : ∀ a, (f a).result = (g a).result) : (p >>= f).result = (q >>= g).result := by
  cases ended : p.result with
  | ok a =>
    rw [bind_ok f ended,bind_ok g (first ▸ ended)]
    exact second a
  | error message => rw [bind_error f ended,bind_error g (first ▸ ended)]

section
variable (seen : ε → Bool)

/-- The same deeds, as far as they are seen, and the same value if there is one -/
def Alike (p q : Recorded ε α) : Prop :=
  p.done.filter seen = q.done.filter seen ∧ ∀ a, p.result = .ok a ↔ q.result = .ok a

namespace Alike
variable {seen} {p q r : Recorded ε α}

theorem refl (p : Recorded ε α) : Alike seen p p := ⟨rfl,fun _ => Iff.rfl⟩

theorem of_eq (same : p = q) : Alike seen p q := same ▸ refl p

theorem symm (alike : Alike seen p q) : Alike seen q p := ⟨alike.1.symm,fun a => (alike.2 a).symm⟩

theorem trans (first : Alike seen p q) (second : Alike seen q r) : Alike seen p r :=
  ⟨first.1.trans second.1,fun a => (first.2 a).trans (second.2 a)⟩

theorem fail (message message' : String) : Alike seen (.fail message : Recorded ε α) (.fail message') := by
  refine ⟨rfl,fun a => ⟨fun no => ?_,fun no => ?_⟩⟩ <;> cases no

theorem unseen {e : ε} (unseen : seen e = false) :
    Alike seen (Recorded.perform e) (Pure.pure () : Recorded ε Unit) := by
  refine ⟨?_,fun _ => Iff.rfl⟩
  simp only [Recorded.perform,List.filter_cons,unseen,List.filter_nil,Bool.false_eq_true,if_false,pure_done]

theorem bind {f g : α → Recorded ε β} (first : Alike seen p q) (second : ∀ a, Alike seen (f a) (g a)) :
    Alike seen (p >>= f) (q >>= g) := by
  cases ended : p.result with
  | ok a =>
    have ended' := (first.2 a).mp ended
    rw [bind_ok f ended,bind_ok g ended']
    refine ⟨?_,(second a).2⟩
    simp only [List.filter_append,first.1,(second a).1]
  | error message =>
    cases ended' : q.result with
    | ok b =>
      have no := (first.2 b).mpr ended'
      rw [ended] at no
      cases no
    | error message' =>
      rw [bind_error f ended,bind_error g ended']
      refine ⟨first.1,fun b => ⟨fun no => ?_,fun no => ?_⟩⟩ <;> cases no

end Alike
end

/-- Everything done is allowed, and a value is as promised. -/
structure Keeps (allowed : ε → Prop) (promised : α → Prop) (p : Recorded ε α) : Prop where
  within : ∀ e ∈ p.done, allowed e
  holds : ∀ a, p.result = .ok a → promised a

namespace Keeps
variable {allowed : ε → Prop} {promised : α → Prop} {p : Recorded ε α}

theorem pure {a : α} (holds : promised a) : Keeps allowed promised (Pure.pure a : Recorded ε α) := by
  refine ⟨fun e no => ?_,fun b ended => ?_⟩
  · cases no
  · cases ended
    exact holds

/-- A program comes to what it comes to. -/
theorem self (may : ∀ e ∈ p.done, allowed e) : Keeps allowed (fun a => p.result = .ok a) p := ⟨may,fun _ ended => ended⟩

theorem fail (message : String) : Keeps allowed promised (Recorded.fail message : Recorded ε α) := by
  refine ⟨fun e no => ?_,fun b no => ?_⟩ <;> cases no

theorem answer {result : Except String α} (holds : ∀ a, result = .ok a → promised a) :
    Keeps allowed promised (Recorded.answer result : Recorded ε α) :=
  ⟨fun _ no => absurd no List.not_mem_nil,holds⟩

theorem perform {e : ε} (may : allowed e) : Keeps allowed (fun _ => True) (Recorded.perform e) := by
  refine ⟨fun e' member => ?_,fun _ _ => trivial⟩
  obtain rfl := List.mem_singleton.mp member
  exact may

theorem weaken {allowed' : ε → Prop} {promised' : α → Prop} (keeps : Keeps allowed promised p)
    (wider : ∀ e, allowed e → allowed' e) (less : ∀ a, promised a → promised' a) : Keeps allowed' promised' p :=
  ⟨fun e member => wider e (keeps.within e member),fun a ended => less a (keeps.holds a ended)⟩

theorem attempt (keeps : Keeps allowed promised p) : Keeps allowed (fun _ => True) p.attempt :=
  ⟨keeps.within,fun _ _ => trivial⟩

theorem relabel (keeps : Keeps allowed promised p) (message : String → String) :
    Keeps allowed promised (p.relabel message) := by
  refine ⟨keeps.within,fun a ended => keeps.holds a ?_⟩
  cases result : p.result with
  | ok b =>
    simp only [Recorded.relabel,result,Except.mapError] at ended
    exact ended
  | error reason =>
    simp only [Recorded.relabel,result,Except.mapError] at ended
    cases ended

theorem bind {promised' : β → Prop} {f : α → Recorded ε β} (first : Keeps allowed promised p)
    (second : ∀ a, promised a → Keeps allowed promised' (f a)) : Keeps allowed promised' (p >>= f) := by
  cases ended : p.result with
  | ok a =>
    have next := second a (first.holds a ended)
    rw [bind_ok f ended]
    refine ⟨fun e member => ?_,next.holds⟩
    rcases List.mem_append.mp member with before | after
    · exact first.within e before
    · exact next.within e after
  | error message =>
    rw [bind_error f ended]
    refine ⟨first.within,fun b no => ?_⟩
    cases no

end Keeps
end Recorded
end Oscan.Library
