import Oscan.Runtime.Map
import Mathlib.Data.List.Forall2
import Mathlib.Data.Prod.Lex

/-! The matcher of glob patterns that goes back to the last star, in the builds without `fnmatch`. -/
namespace Oscan.Runtime.Glob

def star : UInt8 := 42

def question : UInt8 := 63

/-- What a pattern and a text were when a star was passed: the pattern behind the star, and the text that it leaves. -/
structure Saved where
  pattern : Str
  text : Str

/-- Since then one byte of the text went by for each of the pattern, and a star for a star only. -/
def Since (saved : Saved) (pattern text : Str) : Prop :=
  ∃ passed taken, saved = ⟨passed ++ pattern,taken ++ text⟩ ∧
    List.Forall₂ (fun p c => p = star → c = star) passed taken

/-- The cursors into the pattern and into the text, and those of the last star -/
structure State where
  pattern : Str
  text : Str
  saved : Option Saved
  since : ∀ s ∈ saved, Since s pattern text

theorem since_here (pattern text : Str) : Since ⟨pattern,text⟩ pattern text := ⟨[],[],rfl,.nil⟩

theorem Since.length {saved : Saved} {pattern text : Str} (since : Since saved pattern text) :
    text.length ≤ saved.text.length := by
  obtain ⟨passed,taken,rfl,-⟩ := since
  simp

theorem Since.pass {saved : Saved} {p c : UInt8} {pattern text : Str} (since : Since saved (p :: pattern) (c :: text))
    (same : p = star → c = star) : Since saved pattern text := by
  obtain ⟨passed,taken,rfl,lock⟩ := since
  refine ⟨passed ++ [p],taken ++ [c],by simp,?_⟩
  exact List.rel_append lock (.cons same .nil)

/-- The branch without a match: back to the last star, which takes one byte more -/
def retry : Option Saved → Bool ⊕ State
  | none => .inl false
  | some s =>
    .inr ⟨s.pattern,s.text.tail,some ⟨s.pattern,s.text.tail⟩,by
      intro saved known
      obtain rfl := Option.some.inj known
      exact since_here _ _⟩

/-- One round of the loop, or the answer behind it -/
def step (s : State) : Bool ⊕ State :=
  match s with
  | ⟨pattern,[],_,_⟩ => .inl (pattern.dropWhile (· == star)).isEmpty
  | ⟨[],_ :: _,saved,_⟩ => retry saved
  | ⟨p :: pattern,c :: text,saved,since⟩ =>
    if found : p = c ∨ p = question then
      .inr ⟨pattern,text,saved,fun s known => (since s known).pass fun is => by
        subst is
        exact (found.resolve_right (by decide)).symm⟩
    else if p = star then .inr ⟨pattern,c :: text,some ⟨pattern,c :: text⟩,by
      intro saved known
      obtain rfl := Option.some.inj known
      exact since_here _ _⟩
    else retry saved

/-- What gets less in every round: whether no star was passed, the text behind the last one, the text, the pattern -/
def State.measure (s : State) : Nat ×ₗ Nat ×ₗ Nat ×ₗ Nat :=
  toLex (if s.saved.isNone then 1 else 0,toLex (s.saved.elim 0 (·.text.length),toLex (s.text.length,s.pattern.length)))

theorem retry_less {s s' : State} (some : s.text ≠ []) (next : retry s.saved = .inr s') : s'.measure < s.measure := by
  obtain ⟨pattern,text,saved,since⟩ := s
  cases saved with
  | none => cases next
  | some last =>
    obtain rfl := Sum.inr.inj next
    have length := (since last rfl).length
    have positive := List.length_pos_iff.mpr some
    have nonempty : last.text.length - 1 < last.text.length := by
      simp only at length positive
      omega
    simp [State.measure,Prod.Lex.toLex_lt_toLex,nonempty]

theorem step_less {s s' : State} (next : step s = .inr s') : s'.measure < s.measure := by
  unfold step at next
  split at next
  next => cases next
  next => exact retry_less (by simp) next
  next p pattern c text saved since =>
    split at next
    next =>
      obtain rfl := Sum.inr.inj next
      simp [State.measure,Prod.Lex.toLex_lt_toLex]
    next =>
      split at next
      next =>
        obtain rfl := Sum.inr.inj next
        cases saved with
        | none => simp [State.measure,Prod.Lex.toLex_lt_toLex]
        | some last =>
          have length := (since last rfl).length
          rcases Nat.lt_or_eq_of_le length with less | same
          · simp only [List.length_cons] at less
            simp [State.measure,Prod.Lex.toLex_lt_toLex,less]
          · simp only [List.length_cons] at same
            simp [State.measure,Prod.Lex.toLex_lt_toLex,same]
      next => exact retry_less (by simp) next

/-- The loop ends from every state. -/
def run (s : State) : Bool :=
  match _h : step s with
  | .inl answer => answer
  | .inr s' => run s'
termination_by s.measure
decreasing_by exact step_less ‹_›

/-- `osc_str_to_cstr_buf` into 1024 bytes: what stands before the first zero byte -/
def buffer (s : Str) : Str := (s.take 1023).takeWhile (· != 0)

def globMatch (pattern text : Str) : Bool := run ⟨buffer pattern,buffer text,none,nofun⟩

end Oscan.Runtime.Glob
