import Mathlib.Logic.Function.Basic

/-! Actions of several parties on one state, in any order. An action that cannot happen in a state has no result;
a condition on the state before an action tells which runs are considered. -/
namespace Oscan.Library.Interleaving

variable {σ α : Type} (step : σ → α → Option σ) (admits : σ → α → Prop)

/-- The states that actions which meet the condition lead to -/
inductive Reaches (first : σ) : σ → Prop where
  | start : Reaches first first
  | next {s s' : σ} {a : α} (before : Reaches first s) (met : admits s a) (took : step s a = some s') :
    Reaches first s'

variable {step admits}

theorem Reaches.invariant {holds : σ → Prop} {first s : σ} (initial : holds first)
    (kept : ∀ s a s', holds s → admits s a → step s a = some s' → holds s') (reached : Reaches step admits first s) :
    holds s := by
  induction reached with
  | start => exact initial
  | next before met took hypothesis => exact kept _ _ _ hypothesis met took

/-- The state after some actions, when each of them can happen -/
def runAll (step : σ → α → Option σ) : σ → List α → Option σ
  | s,[] => some s
  | s,a :: actions => (step s a).bind fun s' => runAll step s' actions

end Oscan.Library.Interleaving
