import Oscan.Control.Emit
import Oscan.Control.Lower

/-! Activations of the functions of a program under either backend, and what a judgement on the
constructs says about their runs. -/
namespace Oscan.Control
open Library.Control

/-- The code that a backend emits for a function; the object backend may lower deferred calls to
any depth. -/
def Backend.Compiles (backend : Backend) (f : Ir.FnDef) (base : Frame) (code : Emitted) : Prop :=
  match backend with
  | .c => code = emitFunction f base
  | .object => ∃ depth, lowerFunction depth f base = some code

/-- A text that is evaluated may call every function of the program, on the frame around it. -/
def Backend.bodies (backend : Backend) (program : Ir.Program) (base : Frame) (code : Emitted) : Prop :=
  ∃ f ∈ program.fnDefs, backend.Compiles f base code

def Backend.calls (backend : Backend) (program : Ir.Program) : Nat → Calls Event Frame :=
  callsTo (backend.bodies program)

/-- The events of an activation of `f`, its calls included, and the way it ends. -/
def Activation (backend : Backend) (program : Ir.Program) (f : Ir.FnDef) (base : Frame)
    (events : List Event) (o : Outcome) : Prop :=
  ∃ code depth, backend.Compiles f base code ∧ Run (backend.calls program depth) code events o

/-- A text that makes no calls. -/
theorem evaluate_quiet (calls : Calls Event Frame) (s : Scope) :
    Run calls s.evaluate [.work s.here.arenas] .done :=
  .seq .act (.leave .skip (.stop (.first .brk) nofun) id)

section Tracked
variable {σ : Type} {step : σ → Event → Option σ} {inv : Frame → σ → Prop} {Q : Scope → Post σ}

/-- The monitor follows the code from the frame that it stands in, when it follows the calls. -/
def Sound (step : σ → Event → Option σ) (inv : Frame → σ → Prop) (Q : Scope → Post σ) (s : Scope)
    (c : Emitted) : Prop :=
  ∀ calls, Meets calls step inv inv → Triple calls step (inv s.here) c (Q s)

theorem compiles_good {strict : Prop} {Good : Scope → Emitted → Prop} (closed : Closed strict Good)
    {backend : Backend} {f : Ir.FnDef} (binds : strict → BindsJumps backend f) {base : Frame} {code : Emitted}
    (compiled : backend.Compiles f base code) : Good (Scope.function base) code := by
  cases backend with
  | c =>
    rw [show code = emitFunction f base from compiled]
    exact emitFunction_good closed binds base
  | object =>
    obtain ⟨depth,lowered⟩ := compiled
    exact lowerFunction_good closed binds lowered

theorem Activation.tracked {strict : Prop} (closed : Closed strict (Sound step inv Q))
    (done : ∀ s, (Q s).done = inv s.here) (returned : ∀ s, (Q s).returned = inv s.base) {backend : Backend}
    {program : Ir.Program} (binds : ∀ g ∈ program.fnDefs, strict → BindsJumps backend g) {f : Ir.FnDef}
    (member : f ∈ program.fnDefs) {base : Frame} {events : List Event} {o : Outcome}
    (activation : Activation backend program f base events o) {s : σ} (start : inv base s) :
    ∃ t, events.foldlM step s = some t ∧ (Q (Scope.function base)).At o t := by
  obtain ⟨code,depth,compiled,run⟩ := activation
  have meets : Meets (backend.calls program depth) step inv inv := by
    apply meets_callsTo
    rintro calls below base' code' ⟨g,listed,compiled'⟩
    exact ⟨_,done _,returned _,compiles_good closed (binds g listed) compiled' calls below⟩
  exact compiles_good closed (binds f member) compiled _ meets s events o start run

end Tracked

end Oscan.Control
