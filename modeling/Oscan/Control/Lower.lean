import Oscan.Control.Flow
import Oscan.Control.Scope

/-! The control code of the object backend. A deferred call is lowered anew at every exit, in the
scope of the exit. -/
namespace Oscan.Control
open Library.Control

/-- The state of the translator that lasts over statements; a deferred call keeps the number of the
loops that it is written in. -/
structure Lowering where
  defers : List (Nat × Flow)
  terminated : Bool

/-- `goto`: a new block is not terminated. -/
def Lowering.goto (st : Lowering) : Lowering := { st with terminated := false }

abbrev Lowered := Emitted × Lowering

/-- A way to lower a flow again. -/
abbrev Lower := Nat → Scope → Flow → Lowering → Option Lowered

def lowerDefers (lower : Lower) (s : Scope) : List (Nat × Flow) → Lowering → Option Lowered
  | [],st => some (.skip,st)
  | (level,call) :: calls,st => do
    let (first,st) ← lower level s call st
    let (rest,st) ← lowerDefers lower s calls st
    some (.seq first rest,st)

/-- `emit_return`: every deferred expression, last in first out, then the return. -/
def lowerReturn (lower : Lower) (s : Scope) (st : Lowering) : Option Lowered := do
  let (calls,st) ← lowerDefers lower s st.defers.reverse st
  some (.seq calls s.returnOut,{ st with terminated := true })

mutual
/-- The blocks of a flow inside `level` loops; `again` lowers the deferred calls. -/
def Flow.lower (again : Lower) (level : Nat) (s : Scope) : Flow → Lowering → Option Lowered
  | .work,st => some (s.evaluate,st)
  | .seq first second,st => do
    let (a,st) ← first.lower again level s st
    let (b,st) ← second.lower again level s st
    some (.seq a b,st)
  | .next first second,st => do
    let (a,st) ← first.lower again level s st
    -- the rest of a block is dropped behind a terminator
    if st.terminated then some (a,st) else
      let (b,st) ← second.lower again level s st
      some (.seq a b,st)
  | .select first second,st => do
    let (a,st) ← first.lower again level s st.goto
    let (b,st) ← second.lower again level s st.goto
    some (.choice a b,st.goto)
  | .whileLoop condition body,st => do
    let (c,st) ← condition.lower again level s st.goto
    let (b,st) ← body.lower again (level + 1) (s.enter (level + 1)) st.goto
    some (s.loop (level + 1) (.seq c s.evaluate) (.seq Scope.test b),st.goto)
  | .forLoop body,st => do
    let inner := s.enter (level + 1)
    let (b,st) ← body.lower again (level + 1) inner st.goto
    some (s.loop (level + 1) s.evaluate (.seq Scope.test (.seq inner.evaluate b)),st.goto)
  | .matched _ arms,st => do
    let (b,st) ← arms.lower again level s st
    some (b,st.goto)
  | .arena body,st => do
    let (b,st) ← body.lower again level s.arena st
    some (s.inArena b,st)
  | .update place value,st => do
    let (p,st) ← place.lower again level s st
    let (v,st) ← value.lower again level s st
    let (q,st) ← place.lower again level s st
    some (.seq p (.seq v (.seq s.evaluate q)),st)
  | .brk,st => s.breakTo.map fun _ => (s.breakOut level,{ st with terminated := true })
  | .cont,st => s.continueTo.map fun _ => (s.continueLoop level,{ st with terminated := true })
  | .ret _,st => lowerReturn again s st
  | .deferred call,st => some (.skip,{ st with defers := st.defers ++ [(level,call)] })
  | .propagate,st => do
    let (r,st) ← lowerReturn again s st.goto
    some (.choice (.seq s.evaluate r) .skip,st.goto)
/-- `lower_match`: a chain of tests, the last arm without one. -/
def Arms.lower (again : Lower) (level : Nat) (s : Scope) : Arms → Lowering → Option Lowered
  | .nil,st => some (.skip,st)
  | .cons _ body .nil,st => do
    let (b,st) ← body.lower again level s st
    some (.seq s.evaluate b,st)
  | .cons _ body rest,st => do
    let (b,st) ← body.lower again level s st.goto
    let (r,st) ← rest.lower again level s st.goto
    some (.seq s.evaluate (.choice (.seq s.evaluate b) r),st)
end

/-- Lowering in which deferred calls that return are lowered to a depth. -/
def lowerTo : Nat → Lower
  | 0 => fun _ _ _ _ => none
  | n + 1 => fun level s flow st => flow.lower (lowerTo n) level s st

/-- `translate_function`, in an activation that starts with the frame of its caller. -/
def lowerFunction (depth : Nat) (f : Ir.FnDef) (base : Frame) : Option Emitted := do
  let s := Scope.function base
  let (body,st) ← (Block.flow f.body).lower (lowerTo depth) 0 s ⟨[],false⟩
  if st.terminated then some body else
    let (ending,_) ← lowerReturn (lowerTo depth) s st
    some (.seq body ending)

section Kept
variable {strict : Prop} {Good : Scope → Emitted → Prop}

/-- The deferred calls may be lowered anywhere. -/
def Registered (strict : Prop) (st : Lowering) : Prop :=
  ∀ call ∈ st.defers, strict → call.2.binds .object ⟨call.1,false,false⟩ = true

def Lower.Keeps (strict : Prop) (Good : Scope → Emitted → Prop) (lower : Lower) : Prop :=
  ∀ level s flow st x, lower level s flow st = some x →
    (strict → flow.binds .object ⟨level,false,false⟩ = true) → Registered strict st →
    Good s x.1 ∧ Registered strict x.2

variable (closed : Closed strict Good) {again : Lower}
include closed

theorem lowerDefers_keeps (keeps : again.Keeps strict Good) (s : Scope) : ∀ calls st x,
    lowerDefers again s calls st = some x →
    (∀ call ∈ calls, strict → call.2.binds .object ⟨call.1,false,false⟩ = true) → Registered strict st →
    Good s x.1 ∧ Registered strict x.2 := by
  intro calls
  induction calls with
  | nil =>
    intro st x lowered _ registered
    cases lowered
    exact ⟨closed.skip s,registered⟩
  | cons call calls ih =>
    intro st x lowered binds registered
    simp only [lowerDefers,Option.bind_eq_bind,Option.bind_eq_some_iff,Option.some.injEq] at lowered
    obtain ⟨first,head,rest,tail,rfl⟩ := lowered
    obtain ⟨here,later⟩ := List.forall_mem_cons.mp binds
    obtain ⟨good,registered⟩ := keeps _ _ _ _ _ head here registered
    obtain ⟨good',registered⟩ := ih _ _ tail later registered
    exact ⟨closed.seq s _ _ good good',registered⟩

theorem lowerReturn_keeps (keeps : again.Keeps strict Good) {s : Scope} {st : Lowering} {x : Lowered}
    (lowered : lowerReturn again s st = some x) (registered : Registered strict st) :
    Good s x.1 ∧ Registered strict x.2 := by
  simp only [lowerReturn,Option.bind_eq_bind,Option.bind_eq_some_iff,Option.some.injEq] at lowered
  obtain ⟨calls,performed,rfl⟩ := lowered
  obtain ⟨good,after⟩ := lowerDefers_keeps closed keeps s _ _ _ performed
    (fun call member => registered call (List.mem_reverse.mp member)) registered
  exact ⟨closed.seq s _ _ good (closed.returnOut s),after⟩

mutual
theorem Flow.lower_keeps (keeps : again.Keeps strict Good) : ∀ (flow : Flow) (spot : Spot) (s : Scope)
    (st : Lowering) (x : Lowered), flow.lower again spot.level s st = some x →
    (strict → flow.binds .object spot = true) → (strict → spot.Fits s) → Registered strict st →
    Good s x.1 ∧ Registered strict x.2
  | .work,spot,s,st,x,lowered,_,_,registered => by
    cases lowered
    exact ⟨closed.evaluate s,registered⟩
  | .seq first second,spot,s,st,x,lowered,binds,fits,registered => by
    simp only [Flow.lower,Option.bind_eq_bind,Option.bind_eq_some_iff,Option.some.injEq] at lowered
    simp only [Flow.binds,Bool.and_eq_true] at binds
    obtain ⟨a,head,b,tail,rfl⟩ := lowered
    obtain ⟨good,registered⟩ :=
      first.lower_keeps keeps spot s _ _ head (fun bound => (binds bound).1) fits registered
    obtain ⟨good',registered⟩ :=
      second.lower_keeps keeps spot s _ _ tail (fun bound => (binds bound).2) fits registered
    exact ⟨closed.seq s _ _ good good',registered⟩
  | .next first second,spot,s,st,x,lowered,binds,fits,registered => by
    simp only [Flow.lower,Option.bind_eq_bind,Option.bind_eq_some_iff] at lowered
    simp only [Flow.binds,Bool.and_eq_true] at binds
    obtain ⟨a,head,rest⟩ := lowered
    obtain ⟨good,registered⟩ :=
      first.lower_keeps keeps spot s _ _ head (fun bound => (binds bound).1) fits registered
    split at rest
    · cases rest
      exact ⟨good,registered⟩
    · simp only [Option.bind_eq_some_iff,Option.some.injEq] at rest
      obtain ⟨b,tail,rfl⟩ := rest
      obtain ⟨good',registered⟩ :=
        second.lower_keeps keeps spot s _ _ tail (fun bound => (binds bound).2) fits registered
      exact ⟨closed.seq s _ _ good good',registered⟩
  | .select first second,spot,s,st,x,lowered,binds,fits,registered => by
    simp only [Flow.lower,Option.bind_eq_bind,Option.bind_eq_some_iff,Option.some.injEq] at lowered
    simp only [Flow.binds,Bool.and_eq_true] at binds
    obtain ⟨a,left,b,right,rfl⟩ := lowered
    obtain ⟨good,registered⟩ :=
      first.lower_keeps keeps spot s _ _ left (fun bound => (binds bound).1) fits registered
    obtain ⟨good',registered⟩ :=
      second.lower_keeps keeps spot s _ _ right (fun bound => (binds bound).2) fits registered
    exact ⟨closed.choice s _ _ good good',registered⟩
  | .whileLoop condition body,spot,s,st,x,lowered,binds,fits,registered => by
    simp only [Flow.lower,Option.bind_eq_bind,Option.bind_eq_some_iff,Option.some.injEq] at lowered
    simp only [Flow.binds,Bool.and_eq_true,reduceCtorEq,if_false] at binds
    obtain ⟨c,head,b,inside,rfl⟩ := lowered
    obtain ⟨good,registered⟩ :=
      condition.lower_keeps keeps spot s _ _ head (fun bound => (binds bound).1) fits registered
    obtain ⟨good',registered⟩ := body.lower_keeps keeps spot.inLoop _ _ _ inside
      (fun bound => (binds bound).2) (fun _ => spot.fits_enter s) registered
    exact ⟨closed.loop s _ _ _ (closed.seq s _ _ good (closed.evaluate s))
      (closed.seq _ _ _ (closed.test s _) good'),registered⟩
  | .forLoop body,spot,s,st,x,lowered,binds,fits,registered => by
    simp only [Flow.lower,Option.bind_eq_bind,Option.bind_eq_some_iff,Option.some.injEq] at lowered
    rw [Flow.binds] at binds
    obtain ⟨b,inside,rfl⟩ := lowered
    obtain ⟨good,registered⟩ := body.lower_keeps keeps spot.inLoop _ _ _ inside
      binds (fun _ => spot.fits_enter s) registered
    exact ⟨closed.loop s _ _ _ (closed.evaluate s) (closed.seq _ _ _ (closed.test s _)
      (closed.seq _ _ _ (closed.evaluate _) good)),registered⟩
  | .matched _ arms,spot,s,st,x,lowered,binds,fits,registered => by
    simp only [Flow.lower,Option.bind_eq_bind,Option.bind_eq_some_iff,Option.some.injEq] at lowered
    simp only [Flow.binds,reduceCtorEq,false_and,if_false] at binds
    obtain ⟨b,inside,rfl⟩ := lowered
    exact arms.lower_keeps keeps spot s _ b inside binds fits registered
  | .arena body,spot,s,st,x,lowered,binds,fits,registered => by
    simp only [Flow.lower,Option.bind_eq_bind,Option.bind_eq_some_iff,Option.some.injEq] at lowered
    rw [Flow.binds] at binds
    obtain ⟨b,inside,rfl⟩ := lowered
    obtain ⟨good,registered⟩ :=
      body.lower_keeps keeps spot _ _ _ inside binds (fun bound => (fits bound).arena) registered
    exact ⟨closed.arena s _ good,registered⟩
  | .update place value,spot,s,st,x,lowered,binds,fits,registered => by
    simp only [Flow.lower,Option.bind_eq_bind,Option.bind_eq_some_iff,Option.some.injEq] at lowered
    simp only [Flow.binds,Bool.and_eq_true] at binds
    obtain ⟨p,read,v,computed,q,stored,rfl⟩ := lowered
    obtain ⟨good,registered⟩ :=
      place.lower_keeps keeps spot s _ _ read (fun bound => (binds bound).1) fits registered
    obtain ⟨good',registered⟩ :=
      value.lower_keeps keeps spot s _ _ computed (fun bound => (binds bound).2) fits registered
    obtain ⟨good'',registered⟩ :=
      place.lower_keeps keeps spot s _ _ stored (fun bound => (binds bound).1) fits registered
    exact ⟨closed.seq s _ _ good (closed.seq s _ _ good' (closed.seq s _ _ (closed.evaluate s) good'')),
      registered⟩
  | .brk,spot,s,st,x,lowered,binds,fits,registered => by
    rw [Flow.binds] at binds
    obtain ⟨_,-,rfl⟩ := Option.map_eq_some_iff.mp lowered
    exact ⟨closed.breakOut s _ fun bound => (fits bound).1 (binds bound),registered⟩
  | .cont,spot,s,st,x,lowered,binds,fits,registered => by
    rw [Flow.binds] at binds
    obtain ⟨_,-,rfl⟩ := Option.map_eq_some_iff.mp lowered
    exact ⟨closed.continueLoop s _ fun bound => (fits bound).2 (binds bound),registered⟩
  | .ret _,spot,s,st,x,lowered,_,_,registered => lowerReturn_keeps closed keeps lowered registered
  | .deferred call,spot,s,st,x,lowered,binds,_,registered => by
    rw [Flow.binds] at binds
    cases lowered
    refine ⟨closed.skip s,fun other member => ?_⟩
    rcases List.mem_append.mp member with earlier | last
    · exact registered other earlier
    · rw [List.mem_singleton.mp last]
      exact binds
  | .propagate,spot,s,st,x,lowered,_,_,registered => by
    simp only [Flow.lower,Option.bind_eq_bind,Option.bind_eq_some_iff,Option.some.injEq] at lowered
    obtain ⟨r,returned,rfl⟩ := lowered
    obtain ⟨good,registered⟩ := lowerReturn_keeps closed keeps returned registered
    exact ⟨closed.choice s _ _ (closed.seq s _ _ (closed.evaluate s) good) (closed.skip s),registered⟩
theorem Arms.lower_keeps (keeps : again.Keeps strict Good) : ∀ (arms : Arms) (spot : Spot) (s : Scope)
    (st : Lowering) (x : Lowered), arms.lower again spot.level s st = some x →
    (strict → arms.binds .object spot = true) → (strict → spot.Fits s) → Registered strict st →
    Good s x.1 ∧ Registered strict x.2
  | .nil,spot,s,st,x,lowered,_,_,registered => by
    cases lowered
    exact ⟨closed.skip s,registered⟩
  | .cons _ body .nil,spot,s,st,x,lowered,binds,fits,registered => by
    simp only [Arms.lower,Option.bind_eq_bind,Option.bind_eq_some_iff,Option.some.injEq] at lowered
    simp only [Arms.binds,Bool.and_eq_true] at binds
    obtain ⟨b,inside,rfl⟩ := lowered
    obtain ⟨good,registered⟩ :=
      body.lower_keeps keeps spot s _ _ inside (fun bound => (binds bound).1) fits registered
    exact ⟨closed.seq s _ _ (closed.evaluate s) good,registered⟩
  | .cons _ body (.cons pattern next rest),spot,s,st,x,lowered,binds,fits,registered => by
    simp only [Arms.lower,Option.bind_eq_bind,Option.bind_eq_some_iff,Option.some.injEq] at lowered
    rw [Arms.binds] at binds
    simp only [Bool.and_eq_true] at binds
    obtain ⟨b,inside,r,others,rfl⟩ := lowered
    obtain ⟨good,registered⟩ :=
      body.lower_keeps keeps spot s _ _ inside (fun bound => (binds bound).1) fits registered
    obtain ⟨good',registered⟩ := Arms.lower_keeps keeps (.cons pattern next rest) spot s _ _ others
      (fun bound => (binds bound).2) fits registered
    exact ⟨closed.seq s _ _ (closed.evaluate s) (closed.choice s _ _
      (closed.seq s _ _ (closed.evaluate s) good) good'),registered⟩
end

theorem lowerTo_keeps : ∀ n, (lowerTo n).Keeps strict Good := by
  intro n
  induction n with
  | zero => exact fun _ _ _ _ _ lowered => nomatch lowered
  | succ n ih =>
    intro level s flow st x lowered binds registered
    exact Flow.lower_keeps closed ih flow ⟨level,false,false⟩ s st x lowered binds
      (fun _ => ⟨nofun,nofun⟩) registered

/-- A judgement that the constructs keep holds of every function of the object backend. -/
theorem lowerFunction_good {depth : Nat} {f : Ir.FnDef} (binds : strict → BindsJumps .object f)
    {base : Frame} {c : Emitted} (lowered : lowerFunction depth f base = some c) :
    Good (Scope.function base) c := by
  simp only [lowerFunction,Option.bind_eq_bind,Option.bind_eq_some_iff] at lowered
  obtain ⟨body,inside,rest⟩ := lowered
  obtain ⟨kept,registered⟩ := Flow.lower_keeps closed (lowerTo_keeps closed depth) _ ⟨0,false,false⟩ _ _ _
    inside binds (fun _ => ⟨nofun,nofun⟩) nofun
  split at rest
  · cases rest
    exact kept
  · simp only [Option.bind_eq_some_iff,Option.some.injEq] at rest
    obtain ⟨ending,returned,rfl⟩ := rest
    exact closed.seq _ _ _ kept (lowerReturn_keeps closed (lowerTo_keeps closed depth) returned registered).1

end Kept

end Oscan.Control
