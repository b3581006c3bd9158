import Mathlib.Algebra.Ring.Int.Defs
import Mathlib.Algebra.Ring.Nat
import Oscan.Semantic.Analyze
import Oscan.Semantic.Inversion
import Oscan.Library.Counted
import Oscan.Selection.Backends

/-! The turns of a `for` loop. The C backend puts the text of the range end, or of the iterable, into the
header of a C loop; the object backend evaluates it in front of the loop. -/
namespace Oscan.Iteration
open Ast Semantic Semantic.Analyzer Library.Counted Selection

variable {σ : Type}

/-- Arrays in a state: their length, an `int32_t`, and what their storage holds at an index. -/
structure Heap (σ : Type) where
  len : Nat → σ → Int
  raw : Nat → Int → σ → Value
  bounded : ∀ a s, len a s < 2^31

/-- The evaluation of a text; no result is a panic or an evaluation that does not end. -/
abbrev Text (σ : Type) := σ → Option (Value × σ)

inductive LoopHeader (σ : Type) where
  | range (stop : Text σ)
  | elements (fixed : Bool) (iterable : Text σ)

def isFixed : BcType → Bool
  | .fixedArray .. => true
  | _ => false

/-- The header of a loop, from the meaning of the texts behind what is hoisted in front of the loop. -/
def loopHeader (self : Analyzer) (text : Expr → Text σ) : Stmt → Option (LoopHeader σ)
  | .forStmt _ _ stop _ _ => some (.range (text stop))
  | .forIn _ iterable _ _ =>
    match checkExpr self none iterable with
    | .ok it => some (.elements (isFixed it.ty) (text iterable))
    | .error _ => none
  | _ => none

def asInt : Value → Option Int
  | .int n => some n
  | _ => none

def asArray : Value → Option Nat
  | .array ref => some ref
  | _ => none

/-- `for (int32_t v = start; v < end; v++)` -/
def rangeHeader (stop : Text σ) : Header σ Value := fun i s => do
  let (v,s) ← stop s
  let e ← asInt v
  some (if i < e then some (.int i) else none,s)

/-- `for (int32_t i = 0; i < arr->len; i++)` with `((T*)arr->data)[i]` at the head of the body -/
def elementHeader (heap : Heap σ) (iterable : Text σ) : Header σ Value := fun i s => do
  let (v,s) ← iterable s
  let a ← asArray v
  if i < heap.len a s then
    let (w,s) ← iterable s
    let b ← asArray w
    some (some (heap.raw b i s),s)
  else some (none,s)

/-- `emit_stmt` of `For` and `ForIn`; on a fixed array it subscripts the `osc_array` pointer, and C
rejects the initialiser. -/
def cHeader (heap : Heap σ) : LoopHeader σ → Option (Header σ Value)
  | .range stop => some (rangeHeader stop)
  | .elements true _ => none
  | .elements false iterable => some (elementHeader heap iterable)

def cachedRange (e : Int) : Header σ Value := fun i s => some (if i < e then some (.int i) else none,s)

/-- `osc_array_get` panics outside of the array. -/
def cachedElements (heap : Heap σ) (a : Nat) (len : Int) : Header σ Value := fun i s =>
  if i < len then
    if i < heap.len a s then some (some (heap.raw a i s),s) else none
  else some (none,s)

/-- `lower_for` and `lower_for_in`: the header behind the evaluation in front of the loop. -/
def objectHeader (heap : Heap σ) (s : σ) : LoopHeader σ → Option (Header σ Value × σ)
  | .range stop => do
    let (v,s) ← stop s
    let e ← asInt v
    some (cachedRange e,s)
  | .elements _ iterable => do
    let (v,s) ← iterable s
    let a ← asArray v
    some (cachedElements heap a (heap.len a s),s)

/-- The next value of a 32-bit counter -/
def increment (i : Int) : Int := wrap32 (i + 1)

/-- The turns of both backends are the same ones, state for state. -/
def RunsAlike (heap : Heap σ) (loop : LoopHeader σ) (body : Body σ Value) (i : Int) (s : σ) : Prop :=
  ∃ c, cHeader heap loop = some c ∧
    match objectHeader heap s loop with
    | some (o,t) => ∀ k, turn c body increment i s k = turn o body increment i t k
    | none => ∀ k, turn c body increment i s k = none

/-- The counter of a turn has a next value. -/
def CountsOn (header : Header σ Value) (body : Body σ Value) (i : Int) (s : σ) : Prop :=
  ∀ k j v t, turn header body increment i s k = some (j,some v,t) → increment j = j + 1

/-- The values of a text have the type of its expression. -/
def Sound (self : Analyzer) (text : Expr → Text σ) : Prop :=
  ∀ e t, checkExpr self none e = .ok t → ∀ s v u, text e s = some (v,u) → v.hasType self.info t.ty = true

def LoopHeader.Typed : LoopHeader σ → Prop
  | .range stop => ∀ s v t, stop s = some (v,t) → ∃ e, v = .int e ∧ inRange 32 e = true
  | .elements _ iterable => ∀ s v t, iterable s = some (v,t) → ∃ a, v = .array a

/-- The loop variable takes the same values in both backends, in the same states, and no counter wraps. -/
def IteratesAlike (heap : Heap σ) (loop : LoopHeader σ) (body : Body σ Value) (i : Int) (s : σ) : Prop :=
  RunsAlike heap loop body i s ∧ (∀ c, cHeader heap loop = some c → CountsOn c body i s) ∧
    ∀ o t, objectHeader heap s loop = some (o,t) → CountsOn o body i t

/-- Evaluated again at a header of the object backend's loop, the range end changes nothing and is on
the same side of the counter. -/
def RangeSteady (stop : Text σ) (e j : Int) (u : σ) : Prop :=
  ∃ e', stop u = some (.int e',u) ∧ (j < e' ↔ j < e)

/-- Evaluated again, once for the test and once for the element, the iterable changes nothing, is as long
with respect to the counter and has the same element there. -/
def ElementsSteady (heap : Heap σ) (iterable : Text σ) (a : Nat) (len j : Int) (s u : σ) : Prop :=
  if j < len then
    if j < heap.len a u then
      ∃ b t c, iterable s = some (.array b,t) ∧ j < heap.len b t ∧ iterable t = some (.array c,u) ∧
        heap.raw c j u = heap.raw a j u
    else iterable s = none ∨ ∃ b t, iterable s = some (.array b,t) ∧ j < heap.len b t ∧ iterable t = none
  else ∃ b, iterable s = some (.array b,u) ∧ ¬ j < heap.len b u

def Steady (heap : Heap σ) (loop : LoopHeader σ) (body : Body σ Value) (i : Int) (s : σ) : Prop :=
  match loop with
  | .range stop => ∀ e t, stop s = some (.int e,t) → ∀ k j u,
      visited (cachedRange e) body increment i t (k + 1) = some (j,u) → RangeSteady stop e j u
  | .elements fixed iterable => fixed = false ∧ ∀ a t, iterable s = some (.array a,t) →
      ElementsSteady heap iterable a (heap.len a t) i s t ∧ ∀ k j u,
        visited (cachedElements heap a (heap.len a t)) body increment i t (k + 1) = some (j,u) →
          ElementsSteady heap iterable a (heap.len a t) j u u

variable {heap : Heap σ} {body : Body σ Value} {i : Int} {s : σ}

theorem increment_range (i : Int) : -2^31 ≤ increment i ∧ increment i < 2^31 := by
  unfold increment wrap32
  omega

theorem visited_range {header : Header σ Value} (start : -2^31 ≤ i) : ∀ {k : Nat} {j : Int} {u : σ},
    visited header body increment i s k = some (j,u) → -2^31 ≤ j := by
  intro k
  cases k with
  | zero =>
    intro j u there
    cases there
    exact start
  | succ k =>
    intro j u there
    simp only [visited,advance,Option.bind_eq_some_iff,Option.map_eq_some_iff,Prod.mk.injEq] at there
    obtain ⟨p,-,_,-,_,-,_,-,rfl,-⟩ := there
    exact (increment_range p.1).1

theorem countsOn {header : Header σ Value} (start : -2^31 ≤ i)
    (bounded : ∀ j u v t, header j u = some (some v,t) → j + 1 < 2^31) : CountsOn header body i s := by
  intro k j v t turned
  simp only [turn,Option.bind_eq_some_iff,Option.map_eq_some_iff,Prod.mk.injEq] at turned
  obtain ⟨⟨_,u⟩,there,⟨_,_⟩,yields,rfl,rfl,rfl⟩ := turned
  have low := visited_range start there
  have high := bounded _ u v _ yields
  unfold increment wrap32
  simp only at low high ⊢
  omega

theorem asArray_some {v : Value} {a : Nat} (is : asArray v = some a) : v = .array a := by
  cases v <;> cases is
  rfl

/-- The value of a turn tells whether the loop goes on. -/
theorem ends_alike {e e' j : Int} :
    (if j < e' then some (Value.int j) else none) = (if j < e then some (.int j) else none) ↔
      (j < e' ↔ j < e) := by
  by_cases here : j < e' <;> by_cases cached : j < e
  · simp only [here,cached]
  · simp only [here,cached,if_true,if_false,reduceCtorEq,iff_false,not_true]
  · simp only [here,cached,if_true,if_false,reduceCtorEq,iff_true]
  · simp only [here,cached]

theorem range_agrees {stop : Text σ} {e j : Int} {u : σ}
    (typed : ∀ s v t, stop s = some (v,t) → ∃ e, v = .int e ∧ inRange 32 e = true) :
    rangeHeader stop j u = cachedRange e j u ↔ RangeSteady stop e j u := by
  constructor
  · intro agrees
    cases again : stop u with
    | none => simp only [rangeHeader,again,cachedRange,Option.bind_eq_bind,Option.bind_none,reduceCtorEq] at agrees
    | some r =>
      obtain ⟨v,t⟩ := r
      obtain ⟨e',rfl,-⟩ := typed u v t again
      simp only [rangeHeader,again,asInt,cachedRange,Option.bind_eq_bind,Option.bind_some,Option.some.injEq,
        Prod.mk.injEq] at agrees
      obtain ⟨side,rfl⟩ := agrees
      exact ⟨e',again,ends_alike.mp side⟩
  · rintro ⟨e',again,side⟩
    simp only [rangeHeader,again,asInt,cachedRange,Option.bind_eq_bind,Option.bind_some]
    rw [ends_alike.mpr side]

theorem elementHeader_none {iterable : Text σ} {j : Int}
    (typed : ∀ s v t, iterable s = some (v,t) → ∃ a, v = .array a) :
    elementHeader heap iterable j s = none ↔
      iterable s = none ∨ ∃ b t, iterable s = some (.array b,t) ∧ j < heap.len b t ∧ iterable t = none := by
  constructor
  · intro stuck
    cases again : iterable s with
    | none => exact .inl rfl
    | some r =>
      obtain ⟨v,t⟩ := r
      obtain ⟨b,rfl⟩ := typed s v t again
      refine .inr ⟨b,t,rfl,?_⟩
      simp only [elementHeader,again,asArray,Option.bind_eq_bind,Option.bind_some] at stuck
      split at stuck
      next within =>
        refine ⟨within,?_⟩
        cases last : iterable t with
        | none => rfl
        | some r =>
          obtain ⟨w,u⟩ := r
          obtain ⟨c,rfl⟩ := typed t w u last
          simp only [last,Option.bind_some,reduceCtorEq] at stuck
      next => cases stuck
  · rintro (again | ⟨b,t,again,within,last⟩)
    · simp only [elementHeader,again,Option.bind_eq_bind,Option.bind_none]
    · simp only [elementHeader,again,last,asArray,within,Option.bind_eq_bind,Option.bind_some,Option.bind_none,if_true]

theorem elementHeader_some {iterable : Text σ} {j : Int} {w : Value} {u : σ} :
    elementHeader heap iterable j s = some (some w,u) ↔
      ∃ b t c, iterable s = some (.array b,t) ∧ j < heap.len b t ∧ iterable t = some (.array c,u) ∧
        heap.raw c j u = w := by
  constructor
  · intro yields
    simp only [elementHeader,Option.bind_eq_bind,Option.bind_eq_some_iff] at yields
    obtain ⟨⟨v,t⟩,again,b,isArray,yields⟩ := yields
    split at yields
    next within =>
      simp only [Option.bind_eq_some_iff,Option.some.injEq,Prod.mk.injEq] at yields
      obtain ⟨⟨v',u'⟩,last,c,isLast,element,rfl⟩ := yields
      cases asArray_some isArray
      cases asArray_some isLast
      exact ⟨b,t,c,again,within,last,element⟩
    next => cases yields
  · rintro ⟨b,t,c,again,within,last,rfl⟩
    simp only [elementHeader,again,last,asArray,within,Option.bind_eq_bind,Option.bind_some,if_true]

theorem elementHeader_end {iterable : Text σ} {j : Int} {u : σ} :
    elementHeader heap iterable j s = some (none,u) ↔
      ∃ b, iterable s = some (.array b,u) ∧ ¬ j < heap.len b u := by
  constructor
  · intro ends
    simp only [elementHeader,Option.bind_eq_bind,Option.bind_eq_some_iff] at ends
    obtain ⟨⟨v,t⟩,again,b,isArray,ends⟩ := ends
    split at ends
    next =>
      simp only [Option.bind_eq_some_iff,Option.some.injEq,Prod.mk.injEq,reduceCtorEq,false_and,and_false,
        exists_false] at ends
    next outside =>
      cases ends
      cases asArray_some isArray
      exact ⟨b,again,outside⟩
  · rintro ⟨b,again,outside⟩
    simp only [elementHeader,again,asArray,outside,Option.bind_eq_bind,Option.bind_some,if_false]

theorem elements_agree {iterable : Text σ} {a : Nat} {len j : Int} {u : σ}
    (typed : ∀ s v t, iterable s = some (v,t) → ∃ a, v = .array a) :
    elementHeader heap iterable j s = cachedElements heap a len j u ↔
      ElementsSteady heap iterable a len j s u := by
  unfold cachedElements ElementsSteady
  split
  · split
    · exact elementHeader_some
    · exact elementHeader_none typed
  · exact elementHeader_end

theorem loopHeader_typed {self : Analyzer} {text : Expr → Text σ} {stmt : Stmt} {loop : LoopHeader σ}
    {result : Analyzer × List BcType} (sound : Sound self text) (accepted : checkStmt self stmt = .ok result)
    (isLoop : loopHeader self text stmt = some loop) : loop.Typed := by
  cases stmt with
  | forStmt var start stop body span =>
    cases isLoop
    obtain ⟨_,et,_,_,-,-,typing,same,-⟩ := checkStmt_for accepted
    intro s v t yields
    have typed := sound stop et typing s v t yields
    rw [same] at typed
    cases v <;> simp only [Value.hasType,Bool.false_eq_true] at typed
    exact ⟨_,rfl,typed⟩
  | forIn var iterable body span =>
    obtain ⟨it,elem,_,_,typing,array,-⟩ := checkStmt_forIn accepted
    simp only [loopHeader,typing,Option.some.injEq] at isLoop
    subst isLoop
    intro s v t yields
    have typed := sound iterable it typing s v t yields
    cases shape : it.ty <;> simp only [shape,arrayElementType,reduceCtorEq] at array
    all_goals
      rw [shape] at typed
      cases v <;> simp only [Value.hasType,Bool.false_eq_true] at typed
      exact ⟨_,rfl⟩
  | _ => cases isLoop

theorem runsAlike_iff {loop : LoopHeader σ} (typed : loop.Typed) :
    RunsAlike heap loop body i s ↔ Steady heap loop body i s := by
  cases loop with
  | range stop =>
    cases first : stop s with
    | none =>
      have stuck : rangeHeader stop i s = none := by
        simp only [rangeHeader,first,Option.bind_eq_bind,Option.bind_none]
      simp only [RunsAlike,Steady,cHeader,objectHeader,first,Option.bind_eq_bind,Option.bind_none,Option.some.injEq,
        exists_eq_left',reduceCtorEq,false_implies,implies_true,iff_true]
      exact turn_stuck stuck
    | some r =>
      obtain ⟨v,t⟩ := r
      obtain ⟨e,rfl,-⟩ := typed s v t first
      have start : rangeHeader stop i s = cachedRange e i t := by
        simp only [rangeHeader,first,asInt,cachedRange,Option.bind_eq_bind,Option.bind_some]
      simp only [RunsAlike,Steady,cHeader,objectHeader,first,asInt,Option.bind_eq_bind,Option.bind_some,
        Option.some.injEq,exists_eq_left',alike_iff,start,true_and,Prod.mk.injEq,Value.int.injEq,and_imp]
      constructor
      · rintro agree _ _ rfl rfl k j u there
        exact (range_agrees typed).mp (agree k j u there)
      · intro steady k j u there
        exact (range_agrees typed).mpr (steady e t rfl rfl k j u there)
  | elements fixed iterable =>
    cases fixed with
    | true => simp only [RunsAlike,Steady,cHeader,reduceCtorEq,false_and,exists_false]
    | false =>
      cases first : iterable s with
      | none =>
        have stuck : elementHeader heap iterable i s = none := (elementHeader_none typed).mpr (.inl first)
        simp only [RunsAlike,Steady,cHeader,objectHeader,first,Option.bind_eq_bind,Option.bind_none,
          Option.some.injEq,exists_eq_left',reduceCtorEq,false_implies,implies_true,and_true,iff_true]
        exact turn_stuck stuck
      | some r =>
        obtain ⟨v,t⟩ := r
        obtain ⟨a,rfl⟩ := typed s v t first
        simp only [RunsAlike,Steady,cHeader,objectHeader,first,asArray,Option.bind_eq_bind,Option.bind_some,
          Option.some.injEq,exists_eq_left',alike_iff,elements_agree typed,true_and,Prod.mk.injEq,
          Value.array.injEq,and_imp]
        constructor
        · rintro agrees _ _ rfl rfl
          exact agrees
        · intro steady
          exact steady a t rfl rfl

theorem cHeader_counts {loop : LoopHeader σ} (typed : loop.Typed) (start : -2^31 ≤ i) {c : Header σ Value}
    (made : cHeader heap loop = some c) : CountsOn c body i s := by
  refine countsOn start fun j u v t yields => ?_
  cases loop with
  | range stop =>
    cases made
    simp only [rangeHeader,Option.bind_eq_bind,Option.bind_eq_some_iff,Option.some.injEq,Prod.mk.injEq] at yields
    obtain ⟨⟨w,t'⟩,ends,e,isInt,goes,-⟩ := yields
    obtain ⟨e',rfl,bounds⟩ := typed u w t' ends
    cases isInt
    simp only [inRange,Bool.and_eq_true,decide_eq_true_eq] at bounds
    split at goes
    next below => omega
    next => cases goes
  | elements fixed iterable =>
    cases fixed with
    | true => cases made
    | false =>
      cases made
      obtain ⟨b,t',_,-,within,-⟩ := elementHeader_some.mp yields
      have := heap.bounded b t'
      omega

theorem objectHeader_counts {loop : LoopHeader σ} (typed : loop.Typed) (start : -2^31 ≤ i)
    {o : Header σ Value} {t : σ} (made : objectHeader heap s loop = some (o,t)) : CountsOn o body i t := by
  refine countsOn start fun j u v t' yields => ?_
  cases loop with
  | range stop =>
    simp only [objectHeader,Option.bind_eq_bind,Option.bind_eq_some_iff,Option.some.injEq,Prod.mk.injEq] at made
    obtain ⟨⟨w,_⟩,ends,e,isInt,rfl,-⟩ := made
    obtain ⟨e',rfl,bounds⟩ := typed s w _ ends
    cases isInt
    simp only [inRange,Bool.and_eq_true,decide_eq_true_eq] at bounds
    simp only [cachedRange,Option.some.injEq,Prod.mk.injEq] at yields
    have goes := yields.1
    split at goes
    next below => omega
    next => cases goes
  | elements fixed iterable =>
    simp only [objectHeader,Option.bind_eq_bind,Option.bind_eq_some_iff,Option.some.injEq,Prod.mk.injEq] at made
    obtain ⟨⟨_,t₀⟩,-,a,-,rfl,-⟩ := made
    simp only [cachedElements] at yields
    have := heap.bounded a t₀
    split at yields
    next within => omega
    next => cases yields

private def line : Span := ⟨0,0⟩

/-- `for i in 0..n { n = 5; }`, with or without the assignment -/
def upToN (body : List Stmt) : Stmt :=
  .forStmt "i" (.intLit 0 line) (.ident "n" line) (.mk body none line) line

/-- `fn! main() { let mut n: i32 = 3; .. }` -/
def counting (body : List Stmt) : Program :=
  ⟨[.fn ⟨"main",[],none,.mk [.letStmt "n" true (.primitive .i32 line) (.intLit 3 line) line,upToN body]
    none line,false,line⟩]⟩

def assignN : Stmt := .assign (.mk "n" [] line) (.intLit 5 line) line

/-- The state is the value of `n`. -/
def readN : Expr → Text Int
  | .ident name _ => fun n => if name = "n" then some (.int (wrap32 n),n) else none
  | _ => fun _ => none

def noArrays : Heap Int := ⟨fun _ _ => 0,fun _ _ _ => .unit,fun _ _ => by decide⟩

def scopeOfN : Analyzer := {initial with scopes := [[("n",⟨.i32,true⟩)]]}

theorem readN_sound : Sound scopeOfN readN := by
  intro e t typing n v u yields
  cases e with
  | ident name span =>
    by_cases isN : name = "n"
    · subst isN
      cases yields
      cases typing
      show inRange 32 (wrap32 n) = true
      have bounds := increment_range (n - 1)
      rw [increment,Int.sub_add_cancel] at bounds
      exact Bool.and_eq_true_iff.mpr ⟨decide_eq_true bounds.1,decide_eq_true bounds.2⟩
    · simp only [readN,if_neg isN,reduceCtorEq] at yields
  | _ => cases yields

end Oscan.Iteration
