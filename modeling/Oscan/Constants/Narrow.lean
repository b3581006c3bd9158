import Oscan.Constants.Evaluators

/-! Where checked arithmetic at 32 bits gives a value, 64 bits give the same one. -/
namespace Oscan.Constants
open Ir Semantic Semantic.Analyzer

variable {consts : List ConstDef} {stack : List String}

theorem bounded_ok {bits : Nat} {v w : Int} (value : bounded bits v = .ok w) : w = v ∧ fits bits v := by
  unfold bounded at value
  split at value
  next inside => exact ⟨(Except.ok.inj value).symm,inside⟩
  next => cases value

theorem bounded_wide {v w : Int} (value : bounded 32 v = .ok w) : bounded 64 v = .ok w ∧ fits 32 w := by
  obtain ⟨rfl,inside⟩ := bounded_ok value
  exact ⟨if_pos (fits_mono inside),inside⟩

theorem tdiv_fits {l r : Int} (narrow : fits 32 l) (nonzero : r ≠ 0) (safe : ¬(l = -2^(32-1) ∧ r = -1)) :
    fits 32 (l.tdiv r) := by
  have size : (l.tdiv r).natAbs = l.natAbs / r.natAbs := Int.natAbs_tdiv l r
  have less : l.natAbs / r.natAbs ≤ l.natAbs := Nat.div_le_self ..
  simp only [fits] at narrow ⊢
  by_cases least : l = -2^31
  · subst least
    rcases Nat.lt_trichotomy r.natAbs 1 with zero | one | more
    · omega
    · obtain rfl : r = 1 := by omega
      simp
    · have half : (-2^31 : Int).natAbs / r.natAbs ≤ (-2^31 : Int).natAbs / 2 := Nat.div_le_div_left more (by omega)
      omega
  · omega

theorem tmod_fits {l r : Int} (narrow : fits 32 r) (nonzero : r ≠ 0) : fits 32 (l.tmod r) := by
  have size : (l.tmod r).natAbs = l.natAbs % r.natAbs := Int.natAbs_tmod l r
  have less : l.natAbs % r.natAbs < r.natAbs := Nat.mod_lt _ (by omega)
  simp only [fits] at narrow ⊢
  omega

theorem operate_wide {op : BinOp} {l r v : Int} (narrowLeft : fits 32 l) (narrowRight : fits 32 r)
    (value : operate 32 op l r = .ok v) : operate 64 op l r = .ok v ∧ fits 32 v := by
  have safe : ¬(l = -2^(64-1) ∧ r = -1) := by
    simp only [fits] at narrowLeft
    omega
  cases op <;> simp only [operate] at value ⊢
  case add | sub | mul => exact bounded_wide value
  case div | mod =>
    split at value
    next => cases value
    next nonzero =>
      split at value
      next => cases value
      next apart =>
        obtain rfl := Except.ok.inj value
        rw [if_neg nonzero,if_neg safe]
        first
        | exact ⟨rfl,tdiv_fits narrowLeft nonzero apart⟩
        | exact ⟨rfl,tmod_fits narrowRight nonzero⟩
  all_goals cases value

theorem operate_arithmetic {bits : Nat} {op : BinOp} {l r v : Int} (value : operate bits op l r = .ok v) :
    op = .add ∨ op = .sub ∨ op = .mul ∨ op = .div ∨ op = .mod := by
  cases op <;> simp_all [operate]

theorem except_bind_ok {α β : Type} {o : Except Fault α} {f : α → Except Fault β} {b : β}
    (value : o.bind f = .ok b) : ∃ a, o = .ok a ∧ f a = .ok b := by
  cases o with
  | error => cases value
  | ok a => exact ⟨a,rfl,value⟩

theorem arithmetic_wide (sound : Sound consts) (e : Expr) : ∀ {t : BcType} {v : Int}, Typed consts e t →
    t = .i32 ∨ t = .bool → arithmetic 32 consts stack e = .ok v →
      arithmetic 64 consts stack e = .ok v ∧ fits 32 v ∧ (t = .bool → v = 0 ∨ v = 1) := by
  fun_induction arithmetic 32 consts stack e with
  | case1 stack number span =>
    intro t v typed _ value
    rw [arithmetic]
    obtain ⟨wide,inside⟩ := bounded_wide value
    obtain ⟨-,rfl⟩ := typed
    exact ⟨wide,inside,by simp⟩
  | case2 stack b span =>
    intro t v typed _ value
    rw [arithmetic]
    obtain rfl := Except.ok.inj value
    refine ⟨rfl,?_,fun _ => ?_⟩
    · cases b <;> decide
    · cases b <;> simp
  | case3 stack x span =>
    intro t v typed narrow value
    obtain rfl : t = .f64 := typed
    simp at narrow
  | case4 => intro _ _ _ _ value; cases value
  | case5 => intro _ _ _ _ value; cases value
  | case6 stack name ty span seen d found smaller ih =>
    intro t v typed narrow value
    obtain ⟨c,known,same⟩ := typed
    obtain rfl := Option.some.inj (known.symm.trans found)
    obtain ⟨own,inner,declared⟩ := sound.found found
    have numeric : isNumeric t = true := by rcases narrow with rfl | rfl <;> rfl
    have whole : t = own := (same.eq numeric).trans (declared.symm.eq (same.eq numeric ▸ numeric))
    rw [arithmetic_ident found,if_neg seen]
    exact whole ▸ ih inner (whole ▸ narrow) value
  | case7 stack op left right ty span ihLeft ihRight =>
    intro t v typed narrow value
    obtain ⟨lt,rt,typedLeft,typedRight,typed⟩ := typed
    change Except.bind _ _ = _ at value
    obtain ⟨l,valueLeft,value⟩ := except_bind_ok value
    change Except.bind _ _ = _ at value
    obtain ⟨r,valueRight,value⟩ := except_bind_ok value
    obtain ⟨rfl,rfl,number⟩ := binaryOpType_arithmetic typed (operate_arithmetic value)
    obtain ⟨wideLeft,fitsLeft,-⟩ := ihLeft typedLeft narrow valueLeft
    obtain ⟨wideRight,fitsRight,-⟩ := ihRight typedRight narrow valueRight
    obtain ⟨wide,inside⟩ := operate_wide fitsLeft fitsRight value
    rw [arithmetic_binaryOp,wideLeft,wideRight]
    exact ⟨wide,inside,fun isBool => by simp [isBool] at number⟩
  | case8 stack operand ty span ih =>
    intro t v typed narrow value
    obtain ⟨ot,inner,typed⟩ := typed
    obtain ⟨rfl,number⟩ := unaryOpType_neg typed
    change Except.bind _ _ = _ at value
    obtain ⟨o,operandValue,value⟩ := except_bind_ok value
    obtain ⟨wideOperand,-,-⟩ := ih inner narrow operandValue
    obtain ⟨wide,inside⟩ := bounded_wide value
    rw [arithmetic_neg,wideOperand]
    exact ⟨wide,inside,fun isBool => by simp [isBool] at number⟩
  | case9 => intro _ _ _ _ value; cases value

end Oscan.Constants
