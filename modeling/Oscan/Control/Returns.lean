import Oscan.Lower
import Oscan.Semantic.Analyze

/-! What a return statement becomes in the two backends, and when its code evaluates the operand, performs
the pending deferred calls and leaves. -/
namespace Oscan.Returns
open Ir

/-- How a piece of code ends: behind its end, out of the function with a result, at another place by a jump,
or never. -/
inductive Ending (σ ν : Type) where
  | done (s : σ)
  | left (s : σ) (result : Option ν)
  | jumped (s : σ)
  | stuck

/-- What a run does, as far as expressions are concerned -/
inductive Part where
  | statements (e : Expr)
  | value (e : Expr)

/-- The code of expressions: the statements that come first, and the value they leave to compute. A panic
has no value. -/
structure Machine (σ ν : Type) where
  statements : Expr → σ → Ending σ ν
  value : Expr → σ → Option (ν × σ)

/-- The lines of C around a return statement; `discard` is the text of an expression as a statement. -/
inductive CLine where
  | statements (e : Expr)
  | discard (e : Expr)
  | save (e : Expr)
  | returnText (e : Expr)
  | returnTemp
  | returnNothing

/-- The text `(void)0` is not written as a statement; it computes nothing. -/
def captureDeferredExpr (e : Expr) : List CLine := [.statements e,.discard e]

def emitDeferredCalls (deferred : List (List CLine)) : List CLine := deferred.reverse.flatten

/-- The value of a function without a result is not saved. -/
def emitDeferredBefore (val : Option Expr) (unit : Bool) (deferred : List (List CLine)) : List CLine :=
  if deferred.isEmpty then
    match val with
    | some e => [.returnText e]
    | none => [.returnNothing]
  else
    match val with
    | some e => if !unit then .save e :: (emitDeferredCalls deferred ++ [.returnTemp]) else emitDeferredCalls deferred
    | none => emitDeferredCalls deferred

/-- `emit_stmt` of a return -/
def emitReturnStmt (f : FnDef) (value : Option Expr) (deferred : List (List CLine)) : List CLine :=
  match value with
  | some e => .statements e :: emitDeferredBefore (some e) (f.returnType == .unit) deferred
  | none => if deferred.isEmpty then [.returnNothing] else emitDeferredCalls deferred ++ [.returnNothing]

/-- The instructions around a return of the object backend; `evaluate` keeps the value of the expression. -/
inductive ObjectLine where
  | evaluate (e : Expr)
  | perform (e : Expr)
  | ret (valued : Bool)

/-- `lower_stmt` of a return: the operand, then `emit_return` -/
def lowerReturnStmt (value : Option Expr) (defers : List Expr) : List ObjectLine :=
  (match value with
    | some e => [.evaluate e]
    | none => []) ++ defers.reverse.map .perform ++ [.ret value.isSome]

variable {σ ν : Type} (m : Machine σ ν)

/-- A run goes on behind the end of a piece of code. -/
def Ending.next (o : Ending σ ν) (rest : σ → List Part × Ending σ ν) : List Part × Ending σ ν :=
  match o with
  | .done s => rest s
  | o => ([],o)

def observed (part : Part) (run : List Part × Ending σ ν) : List Part × Ending σ ν := (part :: run.1,run.2)

/-- The statements of an expression, and then what follows them -/
def Machine.enter (e : Expr) (s : σ) (rest : σ → List Part × Ending σ ν) : List Part × Ending σ ν :=
  observed (.statements e) ((m.statements e s).next rest)

/-- The value of an expression, and then what follows it -/
def Machine.compute (e : Expr) (s : σ) (rest : ν → σ → List Part × Ending σ ν) : List Part × Ending σ ν :=
  observed (.value e)
    (match m.value e s with
      | some (v,s) => rest v s
      | none => ([],.stuck))

/-- The result of a function that returns a value of its type; there is none of unit. -/
def resultOf (unit : Bool) (v : ν) : Option ν := if unit then none else some v

def runC (unit : Bool) : List CLine → Option ν → σ → List Part × Ending σ ν
  | [],_,s => ([],.done s)
  | .statements e :: lines,temp,s => m.enter e s (runC unit lines temp)
  | .discard e :: lines,temp,s => m.compute e s fun _ => runC unit lines temp
  | .save e :: lines,_,s => m.compute e s fun v => runC unit lines (some v)
  | .returnText e :: _,_,s => m.compute e s fun v s => ([],.left s (resultOf unit v))
  | .returnTemp :: _,temp,s => ([],.left s temp)
  | .returnNothing :: _,_,s => ([],.left s none)

def runObject (unit : Bool) : List ObjectLine → Option ν → σ → List Part × Ending σ ν
  | [],_,s => ([],.done s)
  | .evaluate e :: lines,_,s =>
    m.enter e s fun s => m.compute e s fun v => runObject unit lines (resultOf unit v)
  | .perform e :: lines,kept,s => m.enter e s fun s => m.compute e s fun _ => runObject unit lines kept
  | .ret _ :: _,kept,s => ([],.left s kept)

/-- The deferred calls one behind the other, and then `last`; a jump out of one of them goes astray. -/
def performing : List Expr → (σ → List Part × Ending σ ν) → σ → Option (List Part × Ending σ ν)
  | [],last,s => some (last s)
  | d :: ds,last,s =>
    match m.statements d s with
    | .done s =>
      match m.value d s with
      | some (_,s) => (performing ds last s).map fun run => observed (.statements d) (observed (.value d) run)
      | none => some ([.statements d,.value d],.stuck)
    | .stuck => some ([.statements d],.stuck)
    | .left .. | .jumped _ => none

/-- What a return statement stands for: its operand once, the pending calls, last in first out, and the way
out with the value of the operand. -/
def returning (unit : Bool) (value : Option Expr) (pending : List Expr) (s : σ) :
    Option (List Part × Ending σ ν) :=
  match value with
  | none => performing m pending.reverse (fun s => ([],.left s none)) s
  | some e =>
    match m.statements e s with
    | .done s =>
      match m.value e s with
      | some (v,s) =>
        (performing m pending.reverse (fun s => ([],.left s (resultOf unit v))) s).map fun run =>
          observed (.statements e) (observed (.value e) run)
      | none => some ([.statements e,.value e],.stuck)
    | o => some ([.statements e],o)

/-- From a state, the code of the return does what the return stands for, whatever code comes behind. -/
def CReturns (f : FnDef) (value : Option Expr) (pending : List Expr) (s : σ) : Prop :=
  ∀ behind, returning m (f.returnType == .unit) value pending s = some
    (runC m (f.returnType == .unit) (emitReturnStmt f value (pending.map captureDeferredExpr) ++ behind) none s)

def ObjectReturns (f : FnDef) (value : Option Expr) (pending : List Expr) (s : σ) : Prop :=
  returning m (f.returnType == .unit) value pending s = some
    (runObject m (f.returnType == .unit) (lowerReturnStmt value pending) none s)

/-- The pending calls, performed behind the operand, do not jump. -/
def CallsStay (value : Option Expr) (pending : List Expr) (s : σ) : Prop :=
  match value with
  | none => (performing m pending.reverse (fun s => ([],.done s)) s).isSome
  | some e => ∀ s' v s'', m.statements e s = .done s' → m.value e s' = some (v,s'') →
      (performing m pending.reverse (fun s => ([],.done s)) s'').isSome

variable {m} {unit : Bool} {s : σ}

theorem performing_isSome (last last' : σ → List Part × Ending σ ν) : ∀ (ds : List Expr) (s : σ),
    (performing m ds last s).isSome = (performing m ds last' s).isSome
  | [],_ => rfl
  | d :: ds,s => by
    unfold performing
    cases m.statements d s with
    | done s =>
      cases value : m.value d s with
      | none => simp [value]
      | some found =>
        have rest := performing_isSome last last' ds found.2
        simp only [value,Option.isSome_map,rest]
    | stuck | left | jumped => rfl

/-- The pasted texts of the deferred calls do what the calls do one behind the other. -/
theorem runC_performing {lines : List CLine} {temp : Option ν} : ∀ (ds : List Expr) {s : σ}
    {run : List Part × Ending σ ν}, performing m ds (runC m unit lines temp) s = some run →
      runC m unit (ds.flatMap captureDeferredExpr ++ lines) temp s = run
  | [],s,run,performed => Option.some.inj performed
  | d :: ds,s,run,performed => by
    unfold performing at performed
    simp only [List.flatMap_cons,captureDeferredExpr,List.cons_append,List.nil_append,runC,Machine.enter]
    cases entered : m.statements d s with
    | done s' =>
      simp only [entered,Ending.next,Machine.compute] at performed ⊢
      cases value : m.value d s' with
      | none =>
        simp only [value] at performed ⊢
        exact Option.some.inj performed
      | some found =>
        simp only [value] at performed ⊢
        obtain ⟨rest,later,rfl⟩ := Option.map_eq_some_iff.mp performed
        rw [runC_performing ds later]
    | stuck =>
      simp only [entered,Ending.next] at performed ⊢
      exact Option.some.inj performed
    | left | jumped => simp [entered] at performed

theorem runObject_performing {lines : List ObjectLine} {kept : Option ν} : ∀ (ds : List Expr) {s : σ}
    {run : List Part × Ending σ ν}, performing m ds (runObject m unit lines kept) s = some run →
      runObject m unit (ds.map .perform ++ lines) kept s = run
  | [],s,run,performed => Option.some.inj performed
  | d :: ds,s,run,performed => by
    unfold performing at performed
    simp only [List.map_cons,List.cons_append,runObject,Machine.enter]
    cases entered : m.statements d s with
    | done s' =>
      simp only [entered,Ending.next,Machine.compute] at performed ⊢
      cases value : m.value d s' with
      | none =>
        simp only [value] at performed ⊢
        exact Option.some.inj performed
      | some found =>
        simp only [value] at performed ⊢
        obtain ⟨rest,later,rfl⟩ := Option.map_eq_some_iff.mp performed
        rw [runObject_performing ds later]
    | stuck =>
      simp only [entered,Ending.next] at performed ⊢
      exact Option.some.inj performed
    | left | jumped => simp [entered] at performed

theorem emitDeferredCalls_captured (pending : List Expr) :
    emitDeferredCalls (pending.map captureDeferredExpr) = pending.reverse.flatMap captureDeferredExpr := by
  rw [emitDeferredCalls,← List.map_reverse,List.flatMap_def]

/-- A run of calls that stay ends as it does with any other ending. -/
theorem performing_some {ds : List Expr} (stay : (performing m ds (fun s => ([],.done s)) s).isSome)
    (last : σ → List Part × Ending σ ν) : ∃ run, performing m ds last s = some run := by
  rw [performing_isSome _ last] at stay
  exact Option.isSome_iff_exists.mp stay

variable {f : FnDef} {value : Option Expr} {pending : List Expr}

/-- What a return stands for, taken apart: either the operand does not come to a value, or the calls follow. -/
theorem returning_isSome : (returning m unit value pending s).isSome ↔ CallsStay m value pending s := by
  cases value with
  | none => simp only [returning,CallsStay,performing_isSome _ fun s => ([],.done s)]
  | some e =>
    simp only [returning,CallsStay]
    cases entered : m.statements e s with
    | done s' =>
      simp only [Ending.done.injEq]
      cases found : m.value e s' with
      | none =>
        refine iff_of_true rfl ?_
        rintro _ v s'' rfl same
        rw [found] at same
        cases same
      | some pair =>
        simp only [Option.isSome_map,performing_isSome _ fun s => ([],.done s)]
        constructor
        · rintro stay _ v s'' rfl same
          rw [found] at same
          obtain rfl := Option.some.inj same
          exact stay
        · exact fun stay => stay s' pair.1 pair.2 rfl found
    | stuck | left | jumped => simp

theorem objectReturns_iff : ObjectReturns m f value pending s ↔ CallsStay m value pending s := by
  rw [← @returning_isSome _ _ _ (f.returnType == .unit)]
  constructor
  · intro returns
    rw [returns]
    rfl
  · intro stay
    obtain ⟨run,stands⟩ := Option.isSome_iff_exists.mp stay
    unfold ObjectReturns
    rw [stands]
    refine congrArg _ ?_
    cases value with
    | none =>
      have performed := @runObject_performing _ _ m (f.returnType == .unit) [.ret false] none pending.reverse _ _ stands
      exact performed.symm
    | some e =>
      simp only [returning] at stands
      simp only [lowerReturnStmt,Option.isSome_some,List.cons_append,List.nil_append,runObject,Machine.enter,Machine.compute]
      cases entered : m.statements e s with
      | done s' =>
        simp only [entered,Ending.next] at stands ⊢
        cases found : m.value e s' with
        | none =>
          simp only [found] at stands ⊢
          exact (Option.some.inj stands).symm
        | some pair =>
          simp only [found] at stands ⊢
          obtain ⟨rest,later,rfl⟩ := Option.map_eq_some_iff.mp stands
          rw [@runObject_performing _ _ m _ [.ret true] _ pending.reverse _ _ later]
      | stuck | left | jumped =>
        simp only [entered,Ending.next] at stands ⊢
        exact (Option.some.inj stands).symm

/-- The code of C, apart from the operand that is dropped in front of deferred calls -/
theorem cReturns_of (stay : CallsStay m value pending s)
    (kept : ∀ e, value = some e → f.returnType = .unit → pending ≠ [] → ∀ s', m.statements e s ≠ .done s') :
    CReturns m f value pending s := by
  obtain ⟨run,stands⟩ := Option.isSome_iff_exists.mp ((@returning_isSome _ _ _ (f.returnType == .unit) _ _ _).mpr stay)
  intro behind
  rw [stands]
  refine congrArg _ ?_
  cases value with
  | none =>
    unfold emitReturnStmt
    cases pending with
    | nil => exact (Option.some.inj stands).symm
    | cons d ds =>
      simp only [List.map_cons,List.isEmpty_cons,Bool.false_eq_true,if_false]
      rw [← List.map_cons,emitDeferredCalls_captured,List.append_assoc]
      exact (@runC_performing _ _ m _ (.returnNothing :: behind) none _ _ _ stands).symm
  | some e =>
    simp only [returning] at stands
    simp only [emitReturnStmt,List.cons_append,runC,Machine.enter]
    cases entered : m.statements e s with
    | stuck | left | jumped =>
      simp only [entered,Ending.next] at stands ⊢
      exact (Option.some.inj stands).symm
    | done s' =>
      simp only [entered,Ending.next] at stands ⊢
      cases pending with
      | nil =>
        simp only [emitDeferredBefore,List.map_nil,List.isEmpty_nil,if_true,List.cons_append,runC,Machine.compute]
        cases found : m.value e s' with
        | none =>
          simp only [found] at stands ⊢
          exact (Option.some.inj stands).symm
        | some pair =>
          simp only [found] at stands ⊢
          exact (Option.some.inj stands).symm
      | cons d ds =>
        have valued : (f.returnType == .unit) = false := by
          rw [beq_eq_false_iff_ne]
          exact fun unit => kept e rfl unit (by simp) s' entered
        simp only [emitDeferredBefore,List.map_cons,List.isEmpty_cons,Bool.false_eq_true,if_false,valued,Bool.not_false,
          if_true,List.cons_append,runC,Machine.compute]
        rw [valued] at stands
        rw [← List.map_cons,emitDeferredCalls_captured,List.append_assoc]
        cases found : m.value e s' with
        | none =>
          simp only [found] at stands ⊢
          exact (Option.some.inj stands).symm
        | some pair =>
          simp only [found] at stands ⊢
          obtain ⟨rest,later,rfl⟩ := Option.map_eq_some_iff.mp stands
          have performed := @runC_performing _ _ m false (.returnTemp :: behind) (resultOf false pair.1) _ _ _ later
          exact congrArg (fun run => observed (.statements e) (observed (.value e) run)) performed.symm

/-- A unit operand in front of deferred calls is not computed, whatever comes behind. -/
theorem cReturns_dropped {e : Expr} {d : Expr} {ds : List Expr} {s' : σ} (unit : f.returnType = .unit)
    (entered : m.statements e s = .done s') : ¬CReturns m f (some e) (ds ++ [d]) s := by
  have emitted : emitReturnStmt f (some e) ((ds ++ [d]).map captureDeferredExpr) ++ [] =
      .statements e :: .statements d :: .discard d :: ds.reverse.flatMap captureDeferredExpr := by
    have some : ((ds ++ [d]).map captureDeferredExpr).isEmpty = false := by simp
    simp only [emitReturnStmt,emitDeferredBefore,some,unit,beq_self_eq_true,Bool.not_true,Bool.false_eq_true,if_false,
      emitDeferredCalls_captured,List.append_nil]
    simp [captureDeferredExpr]
  intro returns
  have stands := returns []
  rw [emitted] at stands
  simp only [returning,entered,runC,Machine.enter,Ending.next] at stands
  cases found : m.value e s' with
  | none => simp [found,observed] at stands
  | some pair =>
    simp only [found] at stands
    obtain ⟨rest,-,same⟩ := Option.map_eq_some_iff.mp stands
    simp [observed] at same

private def there : Span := ⟨0,0⟩

def printing (text : String) : Ast.Expr := .call (.ident "println" there) [.stringLit text there] there

/-- `fn! main() { defer println("bye"); return println("hello"); println("after"); }` -/
def greeting : Ast.Program :=
  ⟨[.fn ⟨"main",[],none,.mk [.deferStmt (printing "bye") there,.returnStmt (some (printing "hello")) there,
    .expr (printing "after") there] none there,false,there⟩]⟩

def printed (text : String) : Expr := .call (.named "println") [.stringLit text there] .unit there

/-- Expressions that always complete; the state counts them. -/
def counting : Machine Nat Unit := ⟨fun _ n => .done n,fun _ n => some ((),n+1)⟩

end Oscan.Returns
