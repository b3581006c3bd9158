import Oscan.Library.CInt

/-! The checked arithmetic of the runtime: guards come first, and what is computed behind them is C's own
arithmetic. -/
namespace Oscan.Runtime
open Library Library.Lockstep

variable {bits : Nat}

/-- A guard whose test is itself computed; it is tried on the condition only. -/
def guarded (condition : Prop) [Decidable condition] (limit : Outcome (CInt bits)) (beyond : CInt bits → Prop)
    [DecidablePred beyond] (message : String) (rest : Outcome (CInt bits)) : Outcome (CInt bits) :=
  if condition then limit.bind fun m => if beyond m then .panic message else rest else rest

def checkedAdd (above below : String) (a b : CInt bits) : Outcome (CInt bits) :=
  guarded (0 < b.value) ((CInt.greatest bits).sub b) (fun m => m.value < a.value) above <|
    guarded (b.value < 0) ((CInt.least bits).sub b) (fun m => a.value < m.value) below (a.add b)

def oscAddI32 : CInt 32 → CInt 32 → Outcome (CInt 32) := checkedAdd "i32 addition overflow" "i32 addition underflow"

def oscAddI64 : CInt 64 → CInt 64 → Outcome (CInt 64) := checkedAdd "i64 addition overflow" "i64 addition underflow"

def checkedSub (above below : String) (a b : CInt bits) : Outcome (CInt bits) :=
  guarded (b.value < 0) ((CInt.greatest bits).add b) (fun m => m.value < a.value) above <|
    guarded (0 < b.value) ((CInt.least bits).add b) (fun m => a.value < m.value) below (a.sub b)

def oscSubI32 : CInt 32 → CInt 32 → Outcome (CInt 32) :=
  checkedSub "i32 subtraction overflow" "i32 subtraction underflow"

def oscSubI64 : CInt 64 → CInt 64 → Outcome (CInt 64) :=
  checkedSub "i64 subtraction overflow" "i64 subtraction underflow"

def oscMulI32 (a b : CInt 32) : Outcome (CInt 32) :=
  (a.convert 64).bind fun x => (b.convert 64).bind fun y => (x.mul y).bind fun wide =>
    if (CInt.greatest 32).value < wide.value ∨ wide.value < (CInt.least 32).value then
      .panic "i32 multiplication overflow"
    else wide.convert 32

/-- The case analysis that does without a wider type -/
def oscMulI64 (a b : CInt 64) : Outcome (CInt 64) :=
  let overflow := "i64 multiplication overflow"
  let product := a.mul b
  if 0 < a.value then
    if 0 < b.value then guarded True ((CInt.greatest 64).div b) (fun m => m.value < a.value) overflow product
    else guarded (b.value < 0) ((CInt.least 64).div a) (fun m => b.value < m.value) overflow product
  else if a.value < 0 then
    if 0 < b.value then guarded True ((CInt.least 64).div b) (fun m => a.value < m.value) overflow product
    else guarded (b.value < 0 ∧ a.value ≠ 0) ((CInt.greatest 64).div a) (fun m => b.value < m.value) overflow product
  else product

def checkedDiv (zero above : String) (a b : CInt bits) : Outcome (CInt bits) :=
  if b.value = 0 then .panic zero
  else if a = .least bits ∧ b.value = -1 then .panic above
  else a.div b

def oscDivI32 : CInt 32 → CInt 32 → Outcome (CInt 32) :=
  checkedDiv "i32 division by zero" "i32 division overflow (MIN / -1)"

def oscDivI64 : CInt 64 → CInt 64 → Outcome (CInt 64) :=
  checkedDiv "i64 division by zero" "i64 division overflow (MIN / -1)"

def checkedMod (zero above : String) (a b : CInt bits) : Outcome (CInt bits) :=
  if b.value = 0 then .panic zero
  else if a = .least bits ∧ b.value = -1 then .panic above
  else a.mod b

def oscModI32 : CInt 32 → CInt 32 → Outcome (CInt 32) :=
  checkedMod "i32 modulo by zero" "i32 modulo overflow (MIN % -1)"

def oscModI64 : CInt 64 → CInt 64 → Outcome (CInt 64) :=
  checkedMod "i64 modulo by zero" "i64 modulo overflow (MIN % -1)"

def checkedNeg (above : String) (a : CInt bits) : Outcome (CInt bits) :=
  if a = .least bits then .panic above else a.neg

def oscNegI32 : CInt 32 → Outcome (CInt 32) := checkedNeg "i32 negation overflow (MIN_VALUE)"

def oscNegI64 : CInt 64 → Outcome (CInt 64) := checkedNeg "i64 negation overflow (MIN_VALUE)"

/-- The exact result when there is one that has the width, and else a panic -/
def Exact (result : Outcome (CInt bits)) (exact : Option Int) : Prop :=
  match exact.filter fun v => decide (CInt.Fits bits v) with
  | some v => ∃ r, result = .ok r ∧ r.value = v
  | none => ∃ message, result = .panic message

theorem exact_ok {result : Outcome (CInt bits)} {r : CInt bits} {v : Int} (done : result = .ok r) (same : r.value = v) :
    Exact result (some v) := by
  have inside : CInt.Fits bits v := same ▸ r.fits
  simp only [Exact,Option.filter,inside,decide_true,if_true]
  exact ⟨r,done,same⟩

theorem exact_panic {result : Outcome (CInt bits)} {v : Int} {message : String} (done : result = .panic message)
    (outside : ¬CInt.Fits bits v) : Exact result (some v) := by
  simp only [Exact,Option.filter,outside,decide_false,Bool.false_eq_true,if_false]
  exact ⟨message,done⟩

theorem exact_exactly {v : Int} (inside : CInt.Fits bits v) : Exact (CInt.exactly bits v) (some v) :=
  exact_ok (CInt.exactly_fits inside) rfl

section Guards
variable {condition : Prop} [Decidable condition] {limit rest : Outcome (CInt bits)} {beyond : CInt bits → Prop}
  [DecidablePred beyond] {message : String}

theorem guarded_skip (no : ¬condition) : guarded condition limit beyond message rest = rest := if_neg no

theorem guarded_exact {m : CInt bits} {v : Int} (yes : condition) (computed : limit = .ok m)
    (outside : beyond m → ¬CInt.Fits bits v) (inside : ¬beyond m → Exact rest (some v)) :
    Exact (guarded condition limit beyond message rest) (some v) := by
  unfold guarded
  rw [if_pos yes,computed,Outcome.bind_ok]
  split
  next far => exact exact_panic rfl (outside far)
  next near => exact inside near

end Guards

theorem checkedAdd_exact (above below : String) (a b : CInt bits) :
    Exact (checkedAdd above below a b) (some (a.value + b.value)) := by
  obtain ⟨low,high⟩ := a.fits
  obtain ⟨low',high'⟩ := b.fits
  have positive := CInt.half_pos bits
  have sum (inside : CInt.Fits bits (a.value + b.value)) : Exact (a.add b) (some (a.value + b.value)) :=
    exact_exactly inside
  unfold checkedAdd
  by_cases above : 0 < b.value
  · have limit : CInt.Fits bits ((CInt.greatest bits).value - b.value) := by
      rw [CInt.greatest_value]
      unfold CInt.Fits
      omega
    refine guarded_exact above (CInt.exactly_fits limit) ?_ ?_
    all_goals
      simp only [CInt.greatest_value]
      intro far
    · unfold CInt.Fits
      omega
    · rw [guarded_skip (by omega)]
      exact sum ⟨by omega,by omega⟩
  · rw [guarded_skip above]
    by_cases below : b.value < 0
    · have limit : CInt.Fits bits ((CInt.least bits).value - b.value) := by
        rw [CInt.least_value]
        unfold CInt.Fits
        omega
      refine guarded_exact below (CInt.exactly_fits limit) ?_ ?_
      all_goals
        simp only [CInt.least_value]
        intro far
      · unfold CInt.Fits
        omega
      · exact sum ⟨by omega,by omega⟩
    · rw [guarded_skip below]
      exact sum ⟨by omega,by omega⟩

theorem checkedSub_exact (above below : String) (a b : CInt bits) :
    Exact (checkedSub above below a b) (some (a.value - b.value)) := by
  obtain ⟨low,high⟩ := a.fits
  obtain ⟨low',high'⟩ := b.fits
  have positive := CInt.half_pos bits
  have difference (inside : CInt.Fits bits (a.value - b.value)) : Exact (a.sub b) (some (a.value - b.value)) :=
    exact_exactly inside
  unfold checkedSub
  by_cases below : b.value < 0
  · have limit : CInt.Fits bits ((CInt.greatest bits).value + b.value) := by
      rw [CInt.greatest_value]
      unfold CInt.Fits
      omega
    refine guarded_exact below (CInt.exactly_fits limit) ?_ ?_
    all_goals
      simp only [CInt.greatest_value]
      intro far
    · unfold CInt.Fits
      omega
    · rw [guarded_skip (by omega)]
      exact difference ⟨by omega,by omega⟩
  · rw [guarded_skip below]
    by_cases above : 0 < b.value
    · have limit : CInt.Fits bits ((CInt.least bits).value + b.value) := by
        rw [CInt.least_value]
        unfold CInt.Fits
        omega
      refine guarded_exact above (CInt.exactly_fits limit) ?_ ?_
      all_goals
        simp only [CInt.least_value]
        intro far
      · unfold CInt.Fits
        omega
      · exact difference ⟨by omega,by omega⟩
    · rw [guarded_skip above]
      exact difference ⟨by omega,by omega⟩

theorem eq_least {a : CInt bits} : a = .least bits ↔ a.value = -2^(bits - 1) :=
  ⟨fun same => congrArg CInt.value same,fun same => CInt.ext same⟩

theorem checkedDiv_exact (zero above : String) (a b : CInt bits) :
    Exact (checkedDiv zero above a b) (if b.value = 0 then none else some (a.value.tdiv b.value)) := by
  unfold checkedDiv
  split
  next => exact ⟨zero,rfl⟩
  next nonzero =>
    split
    next extreme =>
      refine exact_panic rfl ?_
      have positive := CInt.half_pos bits
      rw [eq_least.mp extreme.1,extreme.2,Int.tdiv_neg,Int.tdiv_one]
      unfold CInt.Fits
      omega
    next other =>
      rw [eq_least] at other
      exact exact_ok (CInt.div_ok nonzero other) rfl

theorem checkedMod_exact (zero above : String) (a b : CInt bits) : Exact (checkedMod zero above a b)
    (if b.value = 0 ∨ a = .least bits ∧ b.value = -1 then none else some (a.value.tmod b.value)) := by
  unfold checkedMod
  by_cases nonzero : b.value = 0
  · rw [if_pos nonzero,if_pos (.inl nonzero)]
    exact ⟨zero,rfl⟩
  · rw [if_neg nonzero]
    by_cases extreme : a = .least bits ∧ b.value = -1
    · rw [if_pos extreme,if_pos (.inr extreme)]
      exact ⟨above,rfl⟩
    · rw [if_neg extreme,if_neg (by simp [nonzero,extreme])]
      rw [eq_least] at extreme
      unfold CInt.mod
      rw [CInt.div_ok nonzero extreme,Outcome.bind_ok]
      exact exact_exactly (CInt.mod_fits nonzero)

theorem checkedNeg_exact (above : String) (a : CInt bits) : Exact (checkedNeg above a) (some (-a.value)) := by
  have positive := CInt.half_pos bits
  obtain ⟨low,high⟩ := a.fits
  unfold checkedNeg
  split
  next extreme =>
    refine exact_panic rfl ?_
    rw [eq_least.mp extreme]
    unfold CInt.Fits
    omega
  next other =>
    rw [eq_least] at other
    exact exact_exactly ⟨by omega,by omega⟩

theorem oscMulI32_exact (a b : CInt 32) : Exact (oscMulI32 a b) (some (a.value * b.value)) := by
  obtain ⟨low,high⟩ := a.fits
  obtain ⟨low',high'⟩ := b.fits
  norm_num at low high low' high'
  have wideFirst : CInt.Fits 64 a.value := by
    unfold CInt.Fits
    norm_num
    omega
  have wideSecond : CInt.Fits 64 b.value := by
    unfold CInt.Fits
    norm_num
    omega
  have magnitude : (a.value * b.value).natAbs ≤ 2147483648 * 2147483648 := by
    rw [Int.natAbs_mul]
    apply Nat.mul_le_mul
    all_goals omega
  have wide : CInt.Fits 64 (a.value * b.value) := by
    unfold CInt.Fits
    norm_num
    omega
  unfold oscMulI32 CInt.convert
  rw [CInt.exactly_fits wideFirst,Outcome.bind_ok,CInt.exactly_fits wideSecond,Outcome.bind_ok]
  unfold CInt.mul
  rw [CInt.exactly_fits wide,Outcome.bind_ok]
  split
  next beyond =>
    refine exact_panic rfl ?_
    simp only [CInt.greatest_value,CInt.least_value] at beyond
    unfold CInt.Fits
    omega
  next near =>
    simp only [CInt.greatest_value,CInt.least_value] at near
    have inside : CInt.Fits 32 (a.value * b.value) := by
      unfold CInt.Fits
      omega
    exact exact_exactly inside

theorem oscMulI64_exact (a b : CInt 64) : Exact (oscMulI64 a b) (some (a.value * b.value)) := by
  have product (inside : CInt.Fits 64 (a.value * b.value)) : Exact (a.mul b) (some (a.value * b.value)) :=
    exact_exactly inside
  have greatest : (CInt.greatest 64).value = 9223372036854775807 := by rfl
  have least : (CInt.least 64).value = -9223372036854775808 := by rfl
  have half : ((2 : Int)^(64 - 1)) = 9223372036854775808 := by rfl
  unfold oscMulI64
  simp only
  split
  next positive =>
    split
    next positive' =>
      have above := Int.mul_pos positive positive'
      have beyond := CInt.lt_mul_iff (y := a.value) positive' (m := 9223372036854775807) (by decide)
      rw [Int.mul_comm] at beyond
      refine guarded_exact trivial (CInt.div_ok (by omega) (by omega)) ?_ ?_
      all_goals
        simp only [greatest,← beyond]
        intro far
      · unfold CInt.Fits
        omega
      · exact product ⟨by omega,by omega⟩
    next other =>
      by_cases negative : b.value < 0
      · have below := Int.mul_neg_of_pos_of_neg positive negative
        have beyond := CInt.mul_lt_iff (y := b.value) positive (m := 9223372036854775808) (by decide)
        refine guarded_exact negative (CInt.div_ok (by omega) (by omega)) ?_ ?_
        all_goals
          simp only [least,← beyond]
          intro far
        · unfold CInt.Fits
          omega
        · exact product ⟨by omega,by omega⟩
      · obtain none : b.value = 0 := by omega
        rw [guarded_skip negative]
        apply product
        rw [none,Int.mul_zero]
        decide
  next notPositive =>
    split
    next negative =>
      split
      next positive =>
        have below := Int.mul_neg_of_neg_of_pos negative positive
        have beyond := CInt.mul_lt_iff (y := a.value) positive (m := 9223372036854775808) (by decide)
        rw [Int.mul_comm] at beyond
        refine guarded_exact trivial (CInt.div_ok (by omega) (by omega)) ?_ ?_
        all_goals
          simp only [least,← beyond]
          intro far
        · unfold CInt.Fits
          omega
        · exact product ⟨by omega,by omega⟩
      next other =>
        by_cases negative' : b.value < 0
        · have above := Int.mul_pos_of_neg_of_neg negative negative'
          have beyond := CInt.lt_mul_iff_neg (y := b.value) negative (m := 9223372036854775807) (by decide)
          refine guarded_exact ⟨negative',by omega⟩ (CInt.div_ok (by omega) (by omega)) ?_ ?_
          all_goals
            simp only [greatest,← beyond]
            intro far
          · unfold CInt.Fits
            omega
          · exact product ⟨by omega,by omega⟩
        · obtain none : b.value = 0 := by omega
          rw [guarded_skip (fun both => negative' both.1)]
          apply product
          rw [none,Int.mul_zero]
          decide
    next notNegative =>
      obtain none : a.value = 0 := by omega
      apply product
      rw [none,Int.zero_mul]
      decide

/-- The remainder of the least integer by minus one would be zero, and is refused. -/
def remainder (a b : CInt bits) : Option Int :=
  if b.value = 0 ∨ a = .least bits ∧ b.value = -1 then none else some (a.value.tmod b.value)

def quotient (a b : CInt bits) : Option Int := if b.value = 0 then none else some (a.value.tdiv b.value)

/-- Every routine gives the exact result where there is one of the width, and panics elsewhere; what its guards
compute is always defined. -/
theorem arithmetic_exact :
    (∀ a b : CInt 32, Exact (oscAddI32 a b) (some (a.value + b.value)) ∧ Exact (oscSubI32 a b) (some (a.value - b.value)) ∧
      Exact (oscMulI32 a b) (some (a.value * b.value)) ∧ Exact (oscDivI32 a b) (quotient a b) ∧
      Exact (oscModI32 a b) (remainder a b) ∧ Exact (oscNegI32 a) (some (-a.value))) ∧
    ∀ a b : CInt 64, Exact (oscAddI64 a b) (some (a.value + b.value)) ∧ Exact (oscSubI64 a b) (some (a.value - b.value)) ∧
      Exact (oscMulI64 a b) (some (a.value * b.value)) ∧ Exact (oscDivI64 a b) (quotient a b) ∧
      Exact (oscModI64 a b) (remainder a b) ∧ Exact (oscNegI64 a) (some (-a.value)) :=
  ⟨fun a b => ⟨checkedAdd_exact _ _ a b,checkedSub_exact _ _ a b,oscMulI32_exact a b,checkedDiv_exact _ _ a b,
      checkedMod_exact _ _ a b,checkedNeg_exact _ a⟩,
    fun a b => ⟨checkedAdd_exact _ _ a b,checkedSub_exact _ _ a b,oscMulI64_exact a b,checkedDiv_exact _ _ a b,
      checkedMod_exact _ _ a b,checkedNeg_exact _ a⟩⟩

/-- The exact remainder zero is an `i32`, and the routine panics. -/
theorem least_remainder_refused : CInt.Fits 32 ((CInt.least 32).value.tmod (-1)) ∧
    oscModI32 (.least 32) ⟨-1,by decide,by decide⟩ = .panic "i32 modulo overflow (MIN % -1)" ∧
    ¬Exact (oscModI32 (.least 32) ⟨-1,by decide,by decide⟩) (some ((CInt.least 32).value.tmod (-1))) := by
  have refused : oscModI32 (.least 32) ⟨-1,by decide,by decide⟩ = .panic "i32 modulo overflow (MIN % -1)" := by rfl
  refine ⟨by decide,refused,?_⟩
  rw [refused]
  intro exact_
  obtain ⟨r,done,-⟩ := exact_
  cases done

end Oscan.Runtime
