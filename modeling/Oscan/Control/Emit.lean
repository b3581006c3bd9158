import Oscan.Control.Flow
import Oscan.Control.Scope
import Oscan.Selection.Backends

/-! The control code of the C backend. The deferred calls are texts that are captured where they are
registered and pasted, scopes and all, where they are performed. -/
namespace Oscan.Control
open Library.Control Selection
open Semantic.Analyzer (isCatchAll)

/-- A text with the scope in which it is read. -/
abbrev Pasted := Scope → Emitted

/-- The emission of a text, from the deferred calls before it to those behind it. -/
abbrev Emission := List Pasted → Pasted × List Pasted

namespace Emission

def text (pasted : Pasted) : Emission := fun deferred => (pasted,deferred)

def map (wrap : Pasted → Pasted) (e : Emission) : Emission := fun deferred =>
  (wrap (e deferred).1,(e deferred).2)

def both (combine : Pasted → Pasted → Pasted) (first second : Emission) : Emission := fun deferred =>
  let x := first deferred
  let y := second x.2
  (combine x.1 y.1,y.2)

def seq : Emission → Emission → Emission := both fun x y s => .seq (x s) (y s)

def choice : Emission → Emission → Emission := both fun x y s => .choice (x s) (y s)

def evaluate : Emission := text Scope.evaluate

/-- One of several texts, or else the last. -/
def oneOf (arms : List Emission) (last : Emission) : Emission := arms.foldr choice last

end Emission

open Emission

/-- `emit_deferred_calls`: last in, first out. -/
def emitDeferredCalls : Emission := fun deferred =>
  (fun s => deferred.reverse.foldr (fun code rest => .seq (code s) rest) .skip,deferred)

/-- `emit_deferred_before_return`: a function without a result does not return behind the calls. -/
def emitDeferredBeforeReturn (unit : Bool) : Emission := fun deferred =>
  if deferred.isEmpty then text Scope.returnOut deferred
  else if unit then emitDeferredCalls deferred
  else (evaluate.seq (emitDeferredCalls.seq (text Scope.returnOut))) deferred

def emitReturn (unit valued : Bool) : Emission :=
  if valued then emitDeferredBeforeReturn unit else emitDeferredCalls.seq (text Scope.returnOut)

def emitDefer (call : Emission) : Emission := fun deferred =>
  let captured := call.seq evaluate deferred
  (fun _ => .skip,captured.2 ++ [captured.1])

/-- `emit_try` returns the error past the deferred calls. -/
def emitTry : Emission :=
  evaluate.seq (choice (evaluate.seq (text Scope.returnOut)) (text fun _ => .skip))

def emitWhile (level : Nat) (condition body : Emission) : Emission :=
  both (fun c b s => s.loop level .skip
    (.seq (c (s.enter level)) (.seq (s.enter level).evaluate (.seq Scope.test (b (s.enter level))))))
    condition body

def emitFor (level : Nat) (body : Emission) : Emission :=
  body.map fun b s => s.loop level .skip
    (.seq (s.enter level).evaluate (.seq Scope.test (.seq (s.enter level).evaluate (b (s.enter level)))))

def emitArena (body : Emission) : Emission :=
  body.map fun b s => s.inArena (.seq (b s.arena) s.arena.evaluate)

/-- The text of an arm: its bindings, its body and the use of its value. -/
def emitArm (body : Emission) : Emission := evaluate.seq (body.seq evaluate)

/-- The last arm of a `Result` match whose pattern passes the test. -/
def resultArm (test : Pattern → Bool) (arms : List (Pattern × Emission)) : Option Emission :=
  ((arms.filter fun arm => test arm.1).getLast?).map (·.2)

/-- `emit_result_match_*`: the last arm named wins, and any other arm is the wildcard. -/
def emitResultMatch (arms : List (Pattern × Emission)) : Emission :=
  let okArm := resultArm (isVariant "Ok") arms
  let errArm := resultArm (isVariant "Err") arms
  let wildcardArm := resultArm isOther arms
  let branch (arm : Option Emission) : Emission := (arm.or wildcardArm).elim (text fun _ => .skip) emitArm
  (branch okArm).choice (branch errArm)

/-- `emit_literal_match_*`: the arms behind the first that catches all are not emitted. -/
def emitLiteralMatch : List (Pattern × Emission) → Emission
  | [] => text fun _ => .skip
  | (pattern,body) :: arms =>
    if isCatchAll pattern then emitArm body else (emitArm body).choice (emitLiteralMatch arms)

def emitMatch (scrutinee : BcType) (arms : List (Pattern × Emission)) : Emission :=
  match scrutinee with
  | .enum _ => (oneOf (arms.map fun arm => emitArm arm.2) (text fun _ => .skip)).map fun body s =>
      .switch (body s.switch)
  | .result _ _ => emitResultMatch arms
  | _ => emitLiteralMatch arms

mutual
/-- The text of a flow inside `level` loops of a function that returns unit or a value. -/
def Flow.emit (unit : Bool) (level : Nat) : Flow → Emission
  | .work => evaluate
  | .seq first second | .next first second => (first.emit unit level).seq (second.emit unit level)
  | .select first second => (first.emit unit level).choice (second.emit unit level)
  | .whileLoop condition body =>
    emitWhile (level + 1) (condition.emit unit level) (body.emit unit (level + 1))
  | .forLoop body => emitFor (level + 1) (body.emit unit (level + 1))
  | .matched scrutinee arms => emitMatch scrutinee (arms.emit unit level)
  | .arena body => emitArena (body.emit unit level)
  | .update place value => (value.emit unit level).seq ((place.emit unit level).seq evaluate)
  | .brk => text (Scope.breakOut · level)
  | .cont => text (Scope.continueLoop · level)
  | .ret valued => emitReturn unit valued
  | .deferred call => emitDefer (call.emit unit level)
  | .propagate => emitTry
def Arms.emit (unit : Bool) (level : Nat) : Arms → List (Pattern × Emission)
  | .nil => []
  | .cons pattern body rest => (pattern,body.emit unit level) :: rest.emit unit level
end

def hasTail : Ir.Block → Bool
  | .mk _ tailExpr _ => tailExpr.isSome

/-- What `emit_function` puts behind the body. -/
def emitEnding (f : Ir.FnDef) : Emission :=
  if hasTail f.body && f.returnType != .unit then emitDeferredBeforeReturn false else emitDeferredCalls

/-- `emit_function`, in an activation that starts with the frame of its caller. -/
def emitFunction (f : Ir.FnDef) (base : Frame) : Emitted :=
  (((Block.flow f.body).emit (f.returnType == .unit) 0).seq (emitEnding f) []).1 (Scope.function base)

section Kept
variable {strict : Prop} {Good : Scope → Emitted → Prop} {spot : Spot}

/-- Good in every scope that fits the place, or in every scope at all. -/
def Pasted.Kept (strict : Prop) (Good : Scope → Emitted → Prop) (spot : Spot) (code : Pasted) : Prop :=
  ∀ s, (strict → spot.Fits s) → Good s (code s)

def Deferred (Good : Scope → Emitted → Prop) (deferred : List Pasted) : Prop :=
  ∀ code ∈ deferred, ∀ s, Good s (code s)

def Emission.Keeps (strict : Prop) (Good : Scope → Emitted → Prop) (spot : Spot) (e : Emission) : Prop :=
  ∀ deferred, Deferred Good deferred →
    Pasted.Kept strict Good spot (e deferred).1 ∧ Deferred Good (e deferred).2

namespace Emission

theorem keeps_text {pasted : Pasted} (kept : Pasted.Kept strict Good spot pasted) :
    Keeps strict Good spot (text pasted) :=
  fun _ before => ⟨kept,before⟩

theorem Keeps.map {inner : Spot} {e : Emission} (keeps : Keeps strict Good inner e) {wrap : Pasted → Pasted}
    (wrapped : ∀ code, Pasted.Kept strict Good inner code → Pasted.Kept strict Good spot (wrap code)) :
    Keeps strict Good spot (e.map wrap) := by
  intro deferred before
  obtain ⟨kept,after⟩ := keeps deferred before
  exact ⟨wrapped _ kept,after⟩

theorem Keeps.both {left right : Spot} {first second : Emission} (keeps : Keeps strict Good left first)
    (keeps' : Keeps strict Good right second) {combine : Pasted → Pasted → Pasted}
    (combined : ∀ x y, Pasted.Kept strict Good left x → Pasted.Kept strict Good right y →
      Pasted.Kept strict Good spot (combine x y)) :
    Keeps strict Good spot (both combine first second) := by
  intro deferred before
  obtain ⟨kept,middle⟩ := keeps deferred before
  obtain ⟨kept',after⟩ := keeps' _ middle
  exact ⟨combined _ _ kept kept',after⟩

theorem keeps_resultArm (test : Pattern → Bool) {arms : List (Pattern × Emission)}
    (each : ∀ arm ∈ arms, Keeps strict Good spot arm.2) (e : Emission) (found : resultArm test arms = some e) :
    Keeps strict Good spot e := by
  obtain ⟨arm,last,rfl⟩ := Option.map_eq_some_iff.mp found
  exact each arm (List.mem_filter.mp (List.mem_of_getLast? last)).1

variable (closed : Closed strict Good)
include closed

theorem Keeps.seq {first second : Emission} (keeps : Keeps strict Good spot first)
    (keeps' : Keeps strict Good spot second) : Keeps strict Good spot (first.seq second) :=
  keeps.both keeps' fun _ _ x y s fits => closed.seq s _ _ (x s fits) (y s fits)

theorem Keeps.choice {first second : Emission} (keeps : Keeps strict Good spot first)
    (keeps' : Keeps strict Good spot second) : Keeps strict Good spot (first.choice second) :=
  keeps.both keeps' fun _ _ x y s fits => closed.choice s _ _ (x s fits) (y s fits)

theorem keeps_evaluate : Keeps strict Good spot evaluate := keeps_text fun s _ => closed.evaluate s

theorem keeps_nothing : Keeps strict Good spot (text fun _ => .skip) := keeps_text fun s _ => closed.skip s

theorem keeps_returnOut : Keeps strict Good spot (text Scope.returnOut) :=
  keeps_text fun s _ => closed.returnOut s

theorem keeps_oneOf {last : Emission} (ending : Keeps strict Good spot last) :
    ∀ arms : List Emission, (∀ e ∈ arms, Keeps strict Good spot e) → Keeps strict Good spot (oneOf arms last)
  | [],_ => ending
  | e :: arms,each => by
    obtain ⟨first,rest⟩ := List.forall_mem_cons.mp each
    exact first.choice closed (keeps_oneOf ending arms rest)

theorem keeps_deferredCalls : Keeps strict Good spot emitDeferredCalls := by
  intro deferred before
  refine ⟨fun s _ => ?_,before⟩
  have backwards : Deferred Good deferred.reverse := fun code member => before code (List.mem_reverse.mp member)
  show Good s (deferred.reverse.foldr (fun code rest => .seq (code s) rest) .skip)
  revert backwards
  induction deferred.reverse with
  | nil => exact fun _ => closed.skip s
  | cons code codes ih =>
    intro backwards
    obtain ⟨first,rest⟩ := List.forall_mem_cons.mp backwards
    exact closed.seq s _ _ (first s) (ih rest)

theorem keeps_deferredBeforeReturn (unit : Bool) : Keeps strict Good spot (emitDeferredBeforeReturn unit) := by
  intro deferred before
  unfold emitDeferredBeforeReturn
  split
  · exact keeps_returnOut closed deferred before
  · split
    · exact keeps_deferredCalls closed deferred before
    · exact (keeps_evaluate closed).seq closed
        ((keeps_deferredCalls closed).seq closed (keeps_returnOut closed)) deferred before

theorem keeps_return (unit valued : Bool) : Keeps strict Good spot (emitReturn unit valued) := by
  unfold emitReturn
  split
  · exact keeps_deferredBeforeReturn closed unit
  · exact (keeps_deferredCalls closed).seq closed (keeps_returnOut closed)

theorem Keeps.defer {call : Emission} (keeps : Keeps strict Good spot.adrift call) :
    Keeps strict Good spot (emitDefer call) := by
  intro deferred before
  obtain ⟨kept,after⟩ := keeps.seq closed (keeps_evaluate closed) deferred before
  refine ⟨fun s _ => closed.skip s,fun code member s => ?_⟩
  rcases List.mem_append.mp member with earlier | last
  · exact after code earlier s
  · rw [List.mem_singleton.mp last]
    exact kept s fun _ => spot.fits_adrift s

theorem keeps_try : Keeps strict Good spot emitTry :=
  (keeps_evaluate closed).seq closed (.choice closed
    ((keeps_evaluate closed).seq closed (keeps_returnOut closed)) (keeps_nothing closed))

theorem Keeps.while {condition body : Emission} (keeps : Keeps strict Good spot.adrift condition)
    (keeps' : Keeps strict Good spot.inLoop body) :
    Keeps strict Good spot (emitWhile (spot.level + 1) condition body) :=
  keeps.both keeps' fun _ _ c b s _ => closed.loop s _ _ _ (closed.skip s)
    (closed.seq _ _ _ (c _ fun _ => spot.fits_adrift _) (closed.seq _ _ _ (closed.evaluate _)
      (closed.seq _ _ _ (closed.test s _) (b _ fun _ => spot.fits_enter s))))

theorem Keeps.for {body : Emission} (keeps : Keeps strict Good spot.inLoop body) :
    Keeps strict Good spot (emitFor (spot.level + 1) body) :=
  keeps.map fun _ b s _ => closed.loop s _ _ _ (closed.skip s)
    (closed.seq _ _ _ (closed.evaluate _) (closed.seq _ _ _ (closed.test s _)
      (closed.seq _ _ _ (closed.evaluate _) (b _ fun _ => spot.fits_enter s))))

theorem Keeps.arena {body : Emission} (keeps : Keeps strict Good spot body) :
    Keeps strict Good spot (emitArena body) :=
  keeps.map fun _ b s fits => closed.arena s _
    (closed.seq _ _ _ (b _ fun bound => (fits bound).arena) (closed.evaluate _))

theorem Keeps.arm {body : Emission} (keeps : Keeps strict Good spot body) :
    Keeps strict Good spot (emitArm body) :=
  (keeps_evaluate closed).seq closed (keeps.seq closed (keeps_evaluate closed))

theorem keeps_resultMatch {arms : List (Pattern × Emission)}
    (each : ∀ arm ∈ arms, Keeps strict Good spot arm.2) : Keeps strict Good spot (emitResultMatch arms) := by
  have branch : ∀ test fallback, Keeps strict Good spot
      (((resultArm test arms).or (resultArm fallback arms)).elim (text fun _ => .skip) emitArm) := by
    intro test fallback
    cases found : (resultArm test arms).or (resultArm fallback arms) with
    | none => exact keeps_nothing closed
    | some e =>
      rcases Option.or_eq_some_iff.mp found with named | ⟨-,caught⟩
      · exact (keeps_resultArm test each e named).arm closed
      · exact (keeps_resultArm fallback each e caught).arm closed
  exact (branch _ _).choice closed (branch _ _)

theorem keeps_literalMatch : ∀ arms : List (Pattern × Emission),
    (∀ arm ∈ arms, Keeps strict Good spot arm.2) → Keeps strict Good spot (emitLiteralMatch arms)
  | [],_ => keeps_nothing closed
  | (pattern,body) :: arms,each => by
    obtain ⟨first,rest⟩ := List.forall_mem_cons.mp each
    unfold emitLiteralMatch
    split
    · exact first.arm closed
    · exact (first.arm closed).choice closed (keeps_literalMatch arms rest)

theorem keeps_match (scrutinee : BcType) {arms : List (Pattern × Emission)} (each : ∀ arm ∈ arms,
    Keeps strict Good (if Backend.c = .c ∧ isEnum scrutinee then spot.inSwitch else spot) arm.2) :
    Keeps strict Good spot (emitMatch scrutinee arms) := by
  cases scrutinee with
  | enum name =>
    refine Keeps.map (keeps_oneOf closed (keeps_nothing closed) _ fun e member => ?_)
      fun _ body s fits => closed.switch s _ (body _ fun bound => (fits bound).switch)
    obtain ⟨arm,listed,rfl⟩ := List.mem_map.mp member
    exact (each arm listed).arm closed
  | result ok err => exact keeps_resultMatch closed each
  | _ => exact keeps_literalMatch closed arms each

end Emission

open Emission

mutual
theorem Flow.emit_keeps (closed : Closed strict Good) (unit : Bool) : ∀ (flow : Flow) (spot : Spot),
    (strict → flow.binds .c spot = true) → Keeps strict Good spot (flow.emit unit spot.level)
  | .work,_,_ => keeps_evaluate closed
  | .seq first second,spot,binds | .next first second,spot,binds => by
    simp only [Flow.binds,Bool.and_eq_true] at binds
    exact (first.emit_keeps closed unit spot fun bound => (binds bound).1).seq closed
      (second.emit_keeps closed unit spot fun bound => (binds bound).2)
  | .select first second,spot,binds => by
    simp only [Flow.binds,Bool.and_eq_true] at binds
    exact (first.emit_keeps closed unit spot fun bound => (binds bound).1).choice closed
      (second.emit_keeps closed unit spot fun bound => (binds bound).2)
  | .whileLoop condition body,spot,binds => by
    simp only [Flow.binds,Bool.and_eq_true,if_pos] at binds
    exact (condition.emit_keeps closed unit spot.adrift fun bound => (binds bound).1).while closed
      (body.emit_keeps closed unit spot.inLoop fun bound => (binds bound).2)
  | .forLoop body,spot,binds => by
    simp only [Flow.binds] at binds
    exact (body.emit_keeps closed unit spot.inLoop binds).for closed
  | .matched scrutinee arms,spot,binds => by
    rw [Flow.binds] at binds
    refine keeps_match closed scrutinee ?_
    have same : (if Backend.c = .c ∧ isEnum scrutinee then spot.inSwitch else spot).level = spot.level := by
      split <;> rfl
    rw [← same]
    exact arms.emit_keeps closed unit _ binds
  | .arena body,spot,binds => by
    simp only [Flow.binds] at binds
    exact (body.emit_keeps closed unit spot binds).arena closed
  | .update place value,spot,binds => by
    simp only [Flow.binds,Bool.and_eq_true] at binds
    exact (value.emit_keeps closed unit spot fun bound => (binds bound).2).seq closed
      ((place.emit_keeps closed unit spot fun bound => (binds bound).1).seq closed (keeps_evaluate closed))
  | .brk,spot,binds => by
    simp only [Flow.binds] at binds
    exact keeps_text fun s fits => closed.breakOut s _ fun bound => (fits bound).1 (binds bound)
  | .cont,spot,binds => by
    simp only [Flow.binds] at binds
    exact keeps_text fun s fits => closed.continueLoop s _ fun bound => (fits bound).2 (binds bound)
  | .ret valued,_,_ => keeps_return closed unit valued
  | .deferred call,spot,binds => by
    simp only [Flow.binds] at binds
    exact (call.emit_keeps closed unit spot.adrift binds).defer closed
  | .propagate,_,_ => keeps_try closed
theorem Arms.emit_keeps (closed : Closed strict Good) (unit : Bool) : ∀ (arms : Arms) (spot : Spot),
    (strict → arms.binds .c spot = true) → ∀ arm ∈ arms.emit unit spot.level, Keeps strict Good spot arm.2
  | .nil,_,_ => nofun
  | .cons _ body rest,spot,binds => by
    simp only [Arms.binds,Bool.and_eq_true] at binds
    exact List.forall_mem_cons.mpr ⟨body.emit_keeps closed unit spot fun bound => (binds bound).1,
      rest.emit_keeps closed unit spot fun bound => (binds bound).2⟩
end

/-- A judgement that the constructs keep holds of every function of the C backend. -/
theorem emitFunction_good (closed : Closed strict Good) {f : Ir.FnDef} (binds : strict → BindsJumps .c f)
    (base : Frame) : Good (Scope.function base) (emitFunction f base) := by
  have body := Flow.emit_keeps closed (f.returnType == .unit) (Block.flow f.body) ⟨0,false,false⟩ binds
  have ending : Keeps strict Good ⟨0,false,false⟩ (emitEnding f) := by
    unfold emitEnding
    split
    · exact keeps_deferredBeforeReturn closed false
    · exact keeps_deferredCalls closed
  exact (body.seq closed ending [] nofun).1 _ fun _ => ⟨nofun,nofun⟩

end Kept

end Oscan.Control
