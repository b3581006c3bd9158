import Oscan.Constants.Arithmetic
import Oscan.Semantic.Inversion

/-! Both evaluators read through checked arithmetic at 64 bits, on initialisers that are typed. -/
namespace Oscan.Constants
open Ir Semantic Semantic.Analyzer

def isNumeric : BcType → Bool
  | .i32 | .i64 | .f64 | .bool => true
  | _ => false

/-- Equal as far as one of them is numeric -/
def SameNumeric (a b : BcType) : Prop := a = b ∨ isNumeric a = false ∧ isNumeric b = false

theorem SameNumeric.eq {a b : BcType} (same : SameNumeric a b) (numeric : isNumeric a = true) : a = b := by
  rcases same with rfl | ⟨other,-⟩
  · rfl
  · simp [numeric] at other

theorem SameNumeric.symm {a b : BcType} (same : SameNumeric a b) : SameNumeric b a := by
  rcases same with rfl | ⟨left,right⟩
  · exact .inl rfl
  · exact .inr ⟨right,left⟩

variable (consts : List ConstDef)

/-- The type of an initialiser, as far as literals, constants and operators settle it -/
def Typed : Expr → BcType → Prop
  | .intLit v _,t => fits 32 v ∧ t = .i32
  | .floatLit ..,t => t = .f64
  | .stringLit ..,t => t = .str
  | .boolLit ..,t => t = .bool
  | .ident name .value _ _,t => ∃ d, find consts name = some d ∧ SameNumeric t d.ty
  | .binaryOp op left right _ span,t =>
    ∃ lt rt, Typed left lt ∧ Typed right rt ∧ binaryOpType op lt rt span = .ok t
  | .unaryOp op operand _ span,t => ∃ ot, Typed operand ot ∧ unaryOpType op ot span = .ok t
  | _,_ => True

/-- Every constant has an initialiser of its declared type. -/
def Sound : Prop := ∀ d ∈ consts, ∃ t, Typed consts d.value t ∧ SameNumeric t d.ty

variable {consts} {stack : List String}

theorem Sound.found (sound : Sound consts) {name : String} {d : ConstDef} (known : find consts name = some d) :
    ∃ t, Typed consts d.value t ∧ SameNumeric t d.ty := sound d (List.mem_of_find?_eq_some known)

/-- The operands of arithmetic have the type of its result. -/
theorem binaryOpType_arithmetic {op : BinOp} {lt rt t : BcType} {span : Span}
    (typed : binaryOpType op lt rt span = .ok t)
    (arithmetic : op = .add ∨ op = .sub ∨ op = .mul ∨ op = .div ∨ op = .mod) :
    lt = t ∧ rt = t ∧ (t = .i32 ∨ t = .i64 ∨ t = .f64) := by
  rcases arithmetic with rfl | rfl | rfl | rfl | rfl
  all_goals
    simp only [binaryOpType,unless_accepts] at typed
    obtain ⟨same,typed⟩ := typed
    simp only [bne_iff_ne,ne_eq,not_not] at same
    subst same
    cases lt <;> simp_all

theorem unaryOpType_neg {ot t : BcType} {span : Span} (typed : unaryOpType .neg ot span = .ok t) :
    ot = t ∧ (t = .i32 ∨ t = .i64 ∨ t = .f64) := by
  cases ot <;> simp_all [unaryOpType]

theorem fits_mono {v : Int} (narrow : fits 32 v) : fits 64 v := by
  simp only [fits] at narrow ⊢
  omega

/-- What an evaluator of the host makes of 64-bit arithmetic -/
def hosted : Except Fault Int → Folding Int
  | .ok v => .value v
  | .error .quotient => .panicked
  | .error _ => .refused

theorem hosted_bind (o : Except Fault Int) (f : Int → Except Fault Int) :
    hosted (o.bind f) = (hosted o).bind fun v => hosted (f v) := by
  cases o with
  | ok => rfl
  | error fault => cases fault <;> rfl

theorem foldOp_hosted (op : BinOp) (l r : Int) : foldOp op l r = hosted (operate 64 op l r) := by
  cases op <;> simp only [foldOp,operate,bounded,hosted]
  case add | sub | mul => split <;> rfl
  all_goals split <;> first | rfl | (split <;> rfl)

theorem foldNeg_hosted (v : Int) : foldNeg v = hosted (bounded 64 (-v)) := by
  simp only [foldNeg,bounded]
  split <;> rfl

theorem constEvalI64_hosted (sound : Sound consts) (e : Expr) : ∀ {t : BcType}, Typed consts e t →
    constEvalI64 consts stack e = hosted (arithmetic 64 consts stack e) := by
  fun_induction arithmetic 64 consts stack e with
  | case1 stack v span =>
    intro t typed
    rw [constEvalI64]
    simp only [Typed] at typed
    simp [bounded,hosted,fits_mono typed.1]
  | case4 stack name ty span seen =>
    intro t typed
    rw [constEvalI64,dif_pos seen]
    rfl
  | case5 stack name ty span seen missing =>
    intro t typed
    obtain ⟨d,found,-⟩ := typed
    simp [missing] at found
  | case6 stack name ty span seen d found smaller ih =>
    intro t typed
    rw [constEvalI64,dif_neg seen]
    split
    next missing => simp [missing] at found
    next other =>
      obtain rfl := Option.some.inj (other.symm.trans found)
      obtain ⟨_,inner,-⟩ := sound.found found
      exact ih inner
  | case7 stack op left right ty span ihLeft ihRight =>
    intro t typed
    obtain ⟨lt,rt,typedLeft,typedRight,-⟩ := typed
    rw [constEvalI64,ihLeft typedLeft,ihRight typedRight]
    change _ = hosted (Except.bind _ fun l => Except.bind _ fun r => operate 64 op l r)
    simp only [hosted_bind,foldOp_hosted]
  | case8 stack operand ty span ih =>
    intro t typed
    obtain ⟨ot,inner,-⟩ := typed
    rw [constEvalI64,ih inner]
    change _ = hosted (Except.bind _ _)
    rw [hosted_bind]
    exact congrArg _ (funext foldNeg_hosted)
  | case2 | case3 | case9 =>
    intro t typed
    simp only [constEvalI64]
    rfl

theorem foldOp_value {op : BinOp} {l r v : Int} (folded : foldOp op l r = .value v) :
    op = .add ∨ op = .sub ∨ op = .mul ∨ op = .div ∨ op = .mod := by
  cases op <;> simp_all [foldOp]

/-- What the C evaluator's outcome on a typed initialiser tells about the other one -/
def Reads (consts : List ConstDef) (stack : List String) (e : Expr) (t : BcType) : Folding ConstText → Prop
  | .value (.integer v) => constEvalI64 consts stack e = .value v ∧ (t = .i32 ∨ t = .bool)
  | .value (.float x) => (∃ v, constEvalI64 consts stack e = .value v) ∧ t = .f64 ∧
      ∃ span, target consts stack e = some (.floatLit x span)
  | .refused => ∀ v, constEvalI64 consts stack e = .value v → t = .f64
  | .panicked => constEvalI64 consts stack e = .panicked

theorem Reads.retype {e : Expr} {t t' : BcType} {o : Folding ConstText} (reads : Reads consts stack e t o)
    (same : isNumeric t = true → t = t') : Reads consts stack e t' o := by
  match o with
  | .value (.integer v) =>
    obtain ⟨folded,rfl | rfl⟩ := reads
    · exact ⟨folded,.inl (same rfl).symm⟩
    · exact ⟨folded,.inr (same rfl).symm⟩
  | .value (.float x) =>
    obtain ⟨folded,rfl,ends⟩ := reads
    exact ⟨folded,(same rfl).symm,ends⟩
  | .refused =>
    intro v folded
    obtain rfl := reads v folded
    exact (same rfl).symm
  | .panicked => exact reads

theorem constEvalI64_ident {name : String} {ty : BcType} {span : Span} {d : ConstDef}
    (found : find consts name = some d) (seen : name ∉ stack) :
    constEvalI64 consts stack (.ident name .value ty span) = constEvalI64 consts (name :: stack) d.value := by
  rw [constEvalI64,dif_neg seen]
  split
  next missing => simp [missing] at found
  next other =>
    obtain rfl := Option.some.inj (other.symm.trans found)
    rfl

theorem constEvalI64_binaryOp {op : BinOp} {left right : Expr} {ty : BcType} {span : Span} :
    constEvalI64 consts stack (.binaryOp op left right ty span) = (constEvalI64 consts stack left).bind fun l =>
      (constEvalI64 consts stack right).bind fun r => foldOp op l r := by
  rw [constEvalI64]

theorem constEvalI64_neg {operand : Expr} {ty : BcType} {span : Span} :
    constEvalI64 consts stack (.unaryOp .neg operand ty span) = (constEvalI64 consts stack operand).bind foldNeg := by
  rw [constEvalI64]

theorem Folding.bind_eq_value {α β : Type} {o : Folding α} {f : α → Folding β} {b : β} (folded : o.bind f = .value b) :
    ∃ a, o = .value a ∧ f a = .value b := by
  cases o with
  | value a => exact ⟨a,rfl,folded⟩
  | refused | panicked => cases folded

/-- Where arithmetic folds, both operands fold and have the type of the result. -/
theorem folded_operands {op : BinOp} {left right : Expr} {lt rt t ty : BcType} {span : Span} {v : Int}
    (typed : binaryOpType op lt rt span = .ok t)
    (folded : constEvalI64 consts stack (.binaryOp op left right ty span) = .value v) :
    ∃ l r, constEvalI64 consts stack left = .value l ∧ constEvalI64 consts stack right = .value r ∧
      foldOp op l r = .value v ∧ lt = t ∧ rt = t ∧ (t = .i32 ∨ t = .i64 ∨ t = .f64) := by
  rw [constEvalI64_binaryOp] at folded
  obtain ⟨l,left,folded⟩ := Folding.bind_eq_value folded
  obtain ⟨r,right,folded⟩ := Folding.bind_eq_value folded
  exact ⟨l,r,left,right,folded,binaryOpType_arithmetic typed (foldOp_value folded)⟩

/-- Both operands are folded to a text. -/
theorem reads_operands {op : BinOp} {left right : Expr} {lt rt t ty : BcType} {span : Span} {a b : ConstText}
    (typed : binaryOpType op lt rt span = .ok t) (readsLeft : Reads consts stack left lt (.value a))
    (readsRight : Reads consts stack right rt (.value b)) :
    Reads consts stack (.binaryOp op left right ty span) t
      (a.parse.bind fun l => b.parse.bind fun r => (foldOp op l r).map .integer) := by
  match a,b,readsLeft,readsRight with
  | .float x,_,⟨_,isFloat,_⟩,_ =>
    intro v folded
    obtain ⟨_,_,-,-,-,same,-⟩ := folded_operands typed folded
    exact same ▸ isFloat
  | .integer l,.float x,_,⟨_,isFloat,_⟩ =>
    intro v folded
    obtain ⟨_,_,-,-,-,-,same,-⟩ := folded_operands typed folded
    exact same ▸ isFloat
  | .integer l,.integer r,⟨valueLeft,narrow⟩,⟨valueRight,_⟩ =>
    have whole : constEvalI64 consts stack (.binaryOp op left right ty span) = foldOp op l r := by
      rw [constEvalI64_binaryOp,valueLeft,valueRight]
      rfl
    simp only [ConstText.parse,Folding.bind_value]
    cases folded : foldOp op l r with
    | value v =>
      refine ⟨whole.trans folded,?_⟩
      obtain ⟨_,_,-,-,-,same,-⟩ := folded_operands typed (whole.trans folded)
      exact same ▸ narrow
    | refused =>
      intro v value
      rw [whole,folded] at value
      cases value
    | panicked => exact whole.trans folded

theorem tryConstEval_reads (sound : Sound consts) (e : Expr) : ∀ {t : BcType}, Typed consts e t →
    Reads consts stack e t (tryConstEval consts stack e) := by
  fun_induction tryConstEval consts stack e with
  | case1 stack v span =>
    intro t typed
    exact ⟨by rw [constEvalI64],.inl typed.2⟩
  | case2 stack x span =>
    intro t typed
    exact ⟨⟨_,by rw [constEvalI64]⟩,typed,span,by rw [target]; simp⟩
  | case3 stack b span =>
    intro t typed
    exact ⟨by rw [constEvalI64],.inr typed⟩
  | case4 stack name ty span seen =>
    intro t typed v folded
    rw [constEvalI64,dif_pos seen] at folded
    cases folded
  | case5 stack name ty span seen missing =>
    intro t typed
    obtain ⟨d,found,-⟩ := typed
    simp [missing] at found
  | case6 stack name ty span seen d found smaller ih =>
    intro t typed
    obtain ⟨c,known,same⟩ := typed
    obtain rfl := Option.some.inj (known.symm.trans found)
    obtain ⟨own,inner,declared⟩ := sound.found found
    have reads : Reads consts (name :: stack) c.value t _ := (ih inner).retype fun numeric => by
      have first := declared.eq numeric
      rw [first] at numeric ⊢
      exact same.symm.eq numeric
    generalize tryConstEval consts (name :: stack) c.value = o at reads
    have value := @constEvalI64_ident _ _ _ ty span _ found seen
    have ends : target consts stack (.ident name .value ty span) = target consts (name :: stack) c.value := by
      rw [target_ident found,if_neg seen]
    cases o with
    | value text => cases text <;> simpa only [Reads,value,ends] using reads
    | refused => simpa only [Reads,value] using reads
    | panicked => simpa only [Reads,value] using reads
  | case7 stack op left right ty span ihLeft ihRight =>
    intro t typed
    obtain ⟨lt,rt,typedLeft,typedRight,typed⟩ := typed
    have readsLeft := ihLeft typedLeft
    have readsRight := ihRight typedRight
    generalize tryConstEval consts stack left = a at readsLeft
    generalize tryConstEval consts stack right = b at readsRight
    cases a with
    | panicked =>
      change constEvalI64 consts stack left = .panicked at readsLeft
      exact constEvalI64_binaryOp.trans (by rw [readsLeft]; rfl)
    | refused =>
      intro v folded
      obtain ⟨l,_,value,-,-,same,-⟩ := folded_operands typed folded
      exact same ▸ readsLeft l value
    | value text =>
      cases b with
      | panicked =>
        change constEvalI64 consts stack right = .panicked at readsRight
        have value : ∃ l, constEvalI64 consts stack left = .value l := by
          cases text with
          | integer l => exact ⟨l,readsLeft.1⟩
          | float => exact readsLeft.1
        obtain ⟨l,value⟩ := value
        exact constEvalI64_binaryOp.trans (by rw [value,readsRight]; rfl)
      | refused =>
        intro v folded
        obtain ⟨_,r,-,value,-,-,same,-⟩ := folded_operands typed folded
        exact same ▸ readsRight r value
      | value other => exact reads_operands typed readsLeft readsRight
  | case8 stack operand ty span ih =>
    intro t typed
    obtain ⟨ot,inner,typed⟩ := typed
    obtain ⟨rfl,wide⟩ := unaryOpType_neg typed
    have reads := ih inner
    generalize tryConstEval consts stack operand = a at reads
    have whole := @constEvalI64_neg consts stack operand ty span
    cases a with
    | panicked => exact whole.trans (by rw [show constEvalI64 consts stack operand = .panicked from reads]; rfl)
    | refused =>
      intro v folded
      obtain ⟨o,value,-⟩ := Folding.bind_eq_value (whole.symm.trans folded)
      exact reads o value
    | value text =>
      cases text with
      | float x => exact fun _ _ => reads.2.1
      | integer o =>
        obtain ⟨value,narrow⟩ := reads
        rw [value,Folding.bind_value] at whole
        simp only [Folding.bind_value,ConstText.parse]
        cases folded : foldNeg o with
        | value v => exact ⟨whole.trans folded,narrow⟩
        | refused =>
          intro v other
          rw [whole,folded] at other
          cases other
        | panicked => exact whole.trans folded
  | case9 stack e =>
    intro t typed v folded
    rw [constEvalI64] at folded
    all_goals first | cases folded | assumption

end Oscan.Constants
