import Mathlib.Algebra.Ring.Int.Defs
import Mathlib.Algebra.Ring.Nat
import Oscan.Constants.Fold

/-! Checked integer arithmetic at a given width on initialisers made of literals, constants and arithmetic,
with the reason where it stops, and what the stack of names does to it. -/
namespace Oscan.Constants
open Ir

/-- Why an initialiser has no value: `quotient` is the least integer divided by -1, also for the remainder. -/
inductive Fault where
  | overflow | zeroDivisor | quotient | circular | unsupported
deriving DecidableEq

def bounded (bits : Nat) (v : Int) : Except Fault Int := if fits bits v then .ok v else .error .overflow

def operate (bits : Nat) (op : BinOp) (l r : Int) : Except Fault Int :=
  match op with
  | .add => bounded bits (l+r)
  | .sub => bounded bits (l-r)
  | .mul => bounded bits (l*r)
  | .div =>
    if r = 0 then .error .zeroDivisor
    else if l = -2^(bits-1) ∧ r = -1 then .error .quotient
    else .ok (l.tdiv r)
  | .mod =>
    if r = 0 then .error .zeroDivisor
    else if l = -2^(bits-1) ∧ r = -1 then .error .quotient
    else .ok (l.tmod r)
  | _ => .error .unsupported

variable (bits : Nat) (consts : List ConstDef)

/-- The value in checked arithmetic at the width; a double stands for its integer part. -/
def arithmetic (stack : List String) (e : Expr) : Except Fault Int :=
  match e with
  | .intLit v _ => bounded bits v
  | .boolLit b _ => .ok (if b then 1 else 0)
  | .floatLit x _ => .ok (truncate x)
  | .ident name .value _ _ =>
    if fresh : name ∈ stack then .error .circular
    else match found : find consts name with
      | none => .error .unsupported
      | some d =>
        have := unvisited_push found fresh
        arithmetic (name :: stack) d.value
  | .binaryOp op left right _ _ => do
    let l ← arithmetic stack left
    let r ← arithmetic stack right
    operate bits op l r
  | .unaryOp .neg operand _ _ => do
    let v ← arithmetic stack operand
    bounded bits (-v)
  | _ => .error .unsupported
termination_by (unvisited consts stack,sizeOf e)

/-- What a chain of aliases ends in; a circular one has no end. -/
def target (stack : List String) (e : Expr) : Option Expr :=
  match e with
  | .ident name .value _ _ =>
    if fresh : name ∈ stack then none
    else match found : find consts name with
      | none => none
      | some d =>
        have := unvisited_push found fresh
        target (name :: stack) d.value
  | e => some e
termination_by unvisited consts stack

variable {bits} {consts} {stack : List String}

theorem arithmetic_ident {name : String} {ty : BcType} {span : Span} {d : ConstDef}
    (found : find consts name = some d) : arithmetic bits consts stack (.ident name .value ty span) =
      if name ∈ stack then .error .circular else arithmetic bits consts (name :: stack) d.value := by
  rw [arithmetic]
  split
  next => rfl
  next =>
    split
    next missing => simp [missing] at found
    next other =>
      obtain rfl := Option.some.inj (other.symm.trans found)
      rfl

theorem arithmetic_binaryOp {op : BinOp} {left right : Expr} {ty : BcType} {span : Span} :
    arithmetic bits consts stack (.binaryOp op left right ty span) =
      (arithmetic bits consts stack left).bind fun l => (arithmetic bits consts stack right).bind fun r =>
        operate bits op l r := by
  rw [arithmetic]
  rfl

theorem arithmetic_neg {operand : Expr} {ty : BcType} {span : Span} :
    arithmetic bits consts stack (.unaryOp .neg operand ty span) =
      (arithmetic bits consts stack operand).bind fun v => bounded bits (-v) := by
  rw [arithmetic]
  rfl

/-- The evaluation does not run into a circle. -/
def Settled (o : Except Fault Int) : Prop := o ≠ .error .circular

theorem settled_bind {α : Type} {o : Except Fault α} {f : α → Except Fault Int} (settled : Settled (o.bind f)) :
    o ≠ .error .circular ∧ ∀ v, o = .ok v → Settled (f v) := by
  cases o with
  | error fault =>
    refine ⟨fun same => settled ?_,by simp⟩
    cases same
    rfl
  | ok v =>
    refine ⟨by simp,fun w same => ?_⟩
    cases same
    exact settled

/-- With fewer names on the stack, an evaluation that did not run into a circle is the same. -/
theorem arithmetic_mono (e : Expr) : ∀ {fewer : List String}, (∀ name ∈ fewer, name ∈ stack) →
    Settled (arithmetic bits consts stack e) →
      arithmetic bits consts fewer e = arithmetic bits consts stack e := by
  fun_induction arithmetic bits consts stack e with
  | case4 stack name ty span seen => exact fun _ settled => absurd rfl settled
  | case5 stack name ty span seen missing =>
    intro fewer subset settled
    have unseen : name ∉ fewer := fun inside => seen (subset name inside)
    rw [arithmetic,dif_neg unseen]
    split
    next => rfl
    next found => simp [missing] at found
  | case6 stack name ty span seen d found smaller ih =>
    intro fewer subset settled
    have unseen : name ∉ fewer := fun inside => seen (subset name inside)
    rw [arithmetic_ident found,if_neg unseen]
    refine ih (fun other inside => ?_) settled
    rcases List.mem_cons.mp inside with rfl | inside
    · exact List.mem_cons_self
    · exact List.mem_cons_of_mem _ (subset other inside)
  | case7 stack op left right ty span ihLeft ihRight =>
    intro fewer subset settled
    rw [arithmetic_binaryOp]
    change Settled (Except.bind _ _) at settled
    obtain ⟨first,rest⟩ := settled_bind settled
    rw [ihLeft subset first]
    change _ = Except.bind _ _
    cases value : arithmetic bits consts stack left with
    | error => rfl
    | ok l =>
      have second := (settled_bind (rest l value)).1
      simp only [Except.bind]
      rw [ihRight subset second]
      rfl
  | case8 stack operand ty span ih =>
    intro fewer subset settled
    rw [arithmetic_neg]
    change Settled (Except.bind _ _) at settled
    rw [ih subset (settled_bind settled).1]
    rfl
  | case1 | case2 | case3 | case9 =>
    intro fewer subset settled
    simp only [arithmetic]

/-- One more name on the stack changes nothing, unless the evaluation visits that name; its definition is
then evaluated under it. -/
theorem arithmetic_push {a : String} {d : ConstDef} (known : find consts a = some d) (e : Expr)
    (settled : Settled (arithmetic bits consts stack e)) :
    arithmetic bits consts (a :: stack) e = arithmetic bits consts stack e ∨
      Settled (arithmetic bits consts [a] d.value) := by
  revert settled
  fun_induction arithmetic bits consts stack e with
  | case4 stack name ty span seen => exact fun settled => absurd rfl settled
  | case5 stack name ty span seen missing =>
    intro settled
    rw [arithmetic]
    have other : name ≠ a := by
      rintro rfl
      simp [known] at missing
    rw [dif_neg (by simp [other,seen])]
    split
    next => exact .inl rfl
    next found => simp [missing] at found
  | case6 stack name ty span seen c found smaller ih =>
    intro settled
    by_cases same : name = a
    · subst same
      obtain rfl := Option.some.inj (found.symm.trans known)
      refine .inr ?_
      rw [@arithmetic_mono bits consts (name :: stack) _ _ (by simp) settled]
      exact settled
    · rw [arithmetic_ident found,if_neg (by simp [same,seen])]
      refine (ih settled).imp_left fun pushed => ?_
      have swapped := @arithmetic_mono bits consts (a :: name :: stack) c.value (name :: a :: stack)
        (by simp +contextual [or_left_comm])
      rw [swapped (pushed ▸ settled),pushed]
  | case7 stack op left right ty span ihLeft ihRight =>
    intro settled
    change Settled (Except.bind _ _) at settled
    obtain ⟨first,rest⟩ := settled_bind settled
    rw [arithmetic_binaryOp]
    change _ = Except.bind _ _ ∨ _
    rcases ihLeft first with sameLeft | inside
    · rw [sameLeft]
      cases value : arithmetic bits consts stack left with
      | error => exact .inl rfl
      | ok l =>
        have second := (settled_bind (rest l value)).1
        rcases ihRight second with sameRight | inside
        · simp only [Except.bind]
          rw [sameRight]
          exact .inl rfl
        · exact .inr inside
    · exact .inr inside
  | case8 stack operand ty span ih =>
    intro settled
    change Settled (Except.bind _ _) at settled
    rw [arithmetic_neg]
    exact (ih (settled_bind settled).1).imp_left fun same => by rw [same]; rfl
  | case1 | case2 | case3 | case9 =>
    intro settled
    simp only [arithmetic,true_or]

/-- A constant's own name on the stack does not change the value of its initialiser. -/
theorem arithmetic_own {a : String} {d : ConstDef} (known : find consts a = some d) :
    arithmetic bits consts [a] d.value = arithmetic bits consts [] d.value := by
  have dropped (settled : Settled (arithmetic bits consts [a] d.value)) :
      arithmetic bits consts [] d.value = arithmetic bits consts [a] d.value :=
    arithmetic_mono d.value (by simp) settled
  by_cases settled : Settled (arithmetic bits consts [] d.value)
  · rcases arithmetic_push known d.value settled with same | inside
    · exact same
    · exact (dropped inside).symm
  · by_cases inside : Settled (arithmetic bits consts [a] d.value)
    · exact (dropped inside).symm
    · simp only [Settled,ne_eq,not_not] at settled inside
      rw [settled,inside]

/-- An alias has the value of what it names, whatever it is evaluated under. -/
theorem arithmetic_alias {name : String} {ty : BcType} {span : Span} {d : ConstDef}
    (found : find consts name = some d) :
    arithmetic bits consts [] (.ident name .value ty span) = arithmetic bits consts [] d.value := by
  rw [arithmetic_ident found,if_neg (by simp),arithmetic_own found]

theorem target_ident {name : String} {ty : BcType} {span : Span} {d : ConstDef}
    (found : find consts name = some d) : target consts stack (.ident name .value ty span) =
      if name ∈ stack then none else target consts (name :: stack) d.value := by
  rw [target]
  split
  next => rfl
  next =>
    split
    next missing => simp [missing] at found
    next other =>
      obtain rfl := Option.some.inj (other.symm.trans found)
      rfl

theorem arithmetic_target (e : Expr) {last : Expr} (ends : target consts stack e = some last) :
    arithmetic bits consts [] e = arithmetic bits consts [] last := by
  revert ends
  fun_induction target consts stack e with
  | case1 => intro ends; cases ends
  | case2 => intro ends; cases ends
  | case3 stack name ty span seen d found smaller ih =>
    intro ends
    rw [arithmetic_alias found,ih ends]
  | case4 stack e =>
    intro ends
    rw [Option.some.inj ends]

/-- A chain of aliases without an end has no value. -/
theorem arithmetic_endless (e : Expr) (endless : target consts stack e = none) :
    arithmetic bits consts stack e = .error .circular ∨ arithmetic bits consts stack e = .error .unsupported := by
  revert endless
  fun_induction target consts stack e with
  | case1 stack name ty span seen =>
    intro _
    left
    rw [arithmetic,dif_pos seen]
  | case2 stack name ty span seen missing =>
    intro _
    right
    rw [arithmetic,dif_neg seen]
    split
    next => rfl
    next found => simp [missing] at found
  | case3 stack name ty span seen d found smaller ih =>
    intro endless
    rw [arithmetic_ident found,if_neg seen]
    exact ih endless
  | case4 stack e =>
    intro endless
    cases endless

end Oscan.Constants
