import Oscan.Constants.Accepted

/-! When the two backends give a constant the same value, the one of checked arithmetic. -/
namespace Oscan.Constants
open Ir Semantic Semantic.Analyzer

variable (consts : List ConstDef) (enums : List (String × EnumInfo))

/-- The value of a constant in the language's checked arithmetic at its declared type -/
def checkedValue (d : ConstDef) : Except Fault Constant :=
  match target consts [d.name] d.value with
  | some (.stringLit s _) => .ok (.str s)
  | some (.floatLit x _) => .ok (.float x)
  | _ =>
    match d.ty with
    | .i32 => (arithmetic 32 consts [] d.value).map .int
    | .bool => (arithmetic 32 consts [] d.value).map fun v => .bool (v != 0)
    | _ => .error .unsupported

/-- The backends do the same: the value of checked arithmetic, or a refusal, and no panic. -/
structure FoldsAlike (d : ConstDef) : Prop where
  same : emitTopLevelConstant consts enums d = objectConstant consts enums d
  checked : ∀ c, objectConstant consts enums d = .value c → checkedValue consts d = .ok c
  calm : objectConstant consts enums d ≠ .panicked

def isStringLit : Expr → Bool
  | .stringLit .. => true
  | _ => false

/-- The initialiser is a string, an alias of a double, or integer arithmetic that stays within 32 bits;
or it has no value at 64 bits either, without the least integer divided by -1, or it computes with doubles,
and its text is then no constant expression of C. -/
def Foldable (d : ConstDef) : Prop :=
  match target consts [d.name] d.value with
  | none => True
  | some (.stringLit ..) => isStringLit d.value = true
  | some (.floatLit ..) => True
  | some e =>
    match arithmetic 64 consts [] e with
    | .error .quotient => False
    | .error _ => constantExpression enums d.value = false
    | .ok _ =>
      if d.ty = .f64 then constantExpression enums d.value = false
      else ∃ v, arithmetic 32 consts [] e = .ok v

variable {consts} {enums} {stack : List String}

theorem target_mono (e : Expr) {last : Expr} : ∀ {fewer : List String}, (∀ name ∈ fewer, name ∈ stack) →
    target consts stack e = some last → target consts fewer e = some last := by
  fun_induction target consts stack e with
  | case1 => intro _ _ ends; cases ends
  | case2 => intro _ _ ends; cases ends
  | case3 stack name ty span seen d found smaller ih =>
    intro fewer subset ends
    have unseen : name ∉ fewer := fun inside => seen (subset name inside)
    rw [target_ident found,if_neg unseen]
    refine ih (fun other inside => ?_) ends
    rcases List.mem_cons.mp inside with rfl | inside
    · exact List.mem_cons_self
    · exact List.mem_cons_of_mem _ (subset other inside)
  | case4 stack e =>
    intro fewer _ ends
    rw [target]
    all_goals assumption

theorem target_float (e : Expr) {x : Binary64} {span : Span} (ends : target consts stack e = some (.floatLit x span)) :
    tryConstEval consts stack e = .value (.float x) := by
  revert ends
  fun_induction target consts stack e with
  | case1 => intro ends; cases ends
  | case2 => intro ends; cases ends
  | case3 stack name ty span seen d found smaller ih =>
    intro ends
    rw [tryConstEval,dif_neg seen]
    split
    next missing => simp [missing] at found
    next other =>
      obtain rfl := Option.some.inj (other.symm.trans found)
      exact ih ends
  | case4 stack e =>
    intro ends
    obtain rfl := Option.some.inj ends
    rw [tryConstEval]

theorem target_typed (sound : Sound consts) (e : Expr) {last : Expr} : ∀ {t : BcType}, Typed consts e t →
    target consts stack e = some last → ∃ t', Typed consts last t' ∧ SameNumeric t t' := by
  fun_induction target consts stack e with
  | case1 => intro _ _ ends; cases ends
  | case2 => intro _ _ ends; cases ends
  | case3 stack name ty span seen d found smaller ih =>
    intro t typed ends
    obtain ⟨c,known,same⟩ := typed
    obtain rfl := Option.some.inj (known.symm.trans found)
    obtain ⟨own,inner,declared⟩ := sound.found found
    obtain ⟨t',typed,last⟩ := ih inner ends
    exact ⟨t',typed,same.trans (declared.symm.trans last)⟩
  | case4 stack e =>
    intro t typed ends
    obtain rfl := Option.some.inj ends
    exact ⟨t,typed,.inl rfl⟩

/-- Only an alias has another end than itself. -/
theorem target_cases (stack : List String) (e : Expr) :
    (∃ name ty span, e = .ident name .value ty span) ∨ target consts stack e = some e := by
  cases e with
  | ident name kind ty span =>
    cases kind with
    | value => exact .inl ⟨name,ty,span,rfl⟩
    | fnRef => right; rw [target]; simp
  | _ => right; rw [target]; simp

/-- What the object backend makes of a constant, by the end of its chain of aliases -/
def lowered (consts : List ConstDef) (enums : List (String × EnumInfo)) (ty : BcType) : Option Expr → Folding LConst
  | none => .refused
  | some (.stringLit s _) => .value (.str s)
  | some (.floatLit x _) => .value (.f64const x)
  | some e => (constEvalI64 consts [] e).map (.iconst (lirType enums ty))

theorem topLevelConstValue_target (sound : Sound consts) {name : String} {ty : BcType} {d : ConstDef}
    (found : find consts name = some d) (fresh : name ∉ stack) (declared : SameNumeric ty d.ty) :
    ∃ ty', SameNumeric ty ty' ∧ topLevelConstValue consts enums stack name ty =
      lowered consts enums ty' (target consts (name :: stack) d.value) := by
  fun_induction topLevelConstValue consts enums stack name ty generalizing d with
  | case1 stack name ty seen => exact absurd seen fresh
  | case2 stack name ty unseen missing => simp [missing] at found
  | case3 stack name ty unseen c known s span shape =>
    obtain rfl := Option.some.inj (found.symm.trans known)
    refine ⟨ty,.inl rfl,?_⟩
    rw [shape,target]
    · rfl
    · simp
  | case4 stack name ty unseen c known x span shape =>
    obtain rfl := Option.some.inj (found.symm.trans known)
    refine ⟨ty,.inl rfl,?_⟩
    rw [shape,target]
    · rfl
    · simp
  | case5 stack name ty unseen c known other otherTy span shape smaller ih =>
    obtain rfl := Option.some.inj (found.symm.trans known)
    obtain ⟨t,typed,own⟩ := sound.found found
    rw [shape] at typed ⊢
    obtain ⟨next,knownNext,same⟩ := typed
    by_cases seen : other ∈ name :: stack
    · refine ⟨ty,.inl rfl,?_⟩
      rw [target_ident knownNext,if_pos seen,topLevelConstValue,dif_pos seen]
      rfl
    · obtain ⟨ty',first,value⟩ := ih knownNext seen (own.symm.trans same)
      rw [target_ident knownNext,if_neg seen]
      exact ⟨ty',declared.trans first,value⟩
  | case6 stack name ty unseen c known notString notFloat notAlias =>
    obtain rfl := Option.some.inj (found.symm.trans known)
    refine ⟨ty,.inl rfl,?_⟩
    rcases target_cases (name :: stack) d.value with ⟨_,_,_,shape⟩ | own
    · exact absurd shape (notAlias _ _ _)
    · rw [own]
      unfold lowered
      split <;> simp_all

theorem emit_text {d : ConstDef} {text : ConstText} (notString : isStringLit d.value = false)
    (folded : tryConstEval consts [] d.value = .value text) :
    emitTopLevelConstant consts enums d = initialised d.ty text := by
  unfold emitTopLevelConstant
  split
  next shape => simp [shape,isStringLit] at notString
  next => rw [folded]

theorem emit_expression {d : ConstDef} (notString : isStringLit d.value = false)
    (folded : tryConstEval consts [] d.value = .refused) : emitTopLevelConstant consts enums d =
      if constantExpression enums d.value then .value (.computed d.value) else .refused := by
  unfold emitTopLevelConstant
  split
  next shape => simp [shape,isStringLit] at notString
  next => rw [folded]

/-- Where neither evaluator folds, it remains whether the C compiler takes the text. -/
theorem foldsAlike_refused {d : ConstDef} (notString : isStringLit d.value = false)
    (folded : tryConstEval consts [] d.value = .refused) (object : objectConstant consts enums d = .refused) :
    FoldsAlike consts enums d ↔ constantExpression enums d.value = false := by
  have emitted := @emit_expression _ enums _ notString folded
  constructor
  · intro alike
    cases taken : constantExpression enums d.value with
    | false => rfl
    | true =>
      have same := alike.same
      rw [emitted,object,if_pos taken] at same
      cases same
  · intro taken
    rw [if_neg (by simp [taken])] at emitted
    exact ⟨emitted.trans object.symm,by simp [object],by simp [object]⟩

/-- An initialiser whose 64-bit value does not exist is not folded to a text. -/
theorem tryConstEval_refused (sound : Sound consts) {e : Expr} {t : BcType} {fault : Fault} (typed : Typed consts e t)
    (stops : arithmetic 64 consts [] e = .error fault) (ordinary : fault ≠ .quotient) :
    tryConstEval consts [] e = .refused := by
  have reads := @tryConstEval_reads _ [] sound e _ typed
  have other := @constEvalI64_hosted _ [] sound e _ typed
  have refused : constEvalI64 consts [] e = .refused := by
    rw [other,stops]
    cases fault <;> first | rfl | contradiction
  match outcome : tryConstEval consts [] e,reads with
  | .refused,_ => rfl
  | .panicked,reads =>
    rw [show constEvalI64 consts [] e = .panicked from reads] at refused
    cases refused
  | .value (.integer v),reads =>
    rw [reads.1] at refused
    cases refused
  | .value (.float x),reads =>
    obtain ⟨⟨v,value⟩,-⟩ := reads
    rw [value] at refused
    cases refused

theorem wrap_fits {v : Int} (inside : fits 32 v) : wrap 32 v = v := by
  simp only [fits] at inside
  simp only [wrap]
  omega

/-- An integer that both evaluators fold to is the checked one when 32 bits suffice. -/
theorem foldsAlike_integer (sound : Sound consts) {d : ConstDef} {t ty' : BcType} {last : Expr} {v : Int}
    (typed : Typed consts d.value t) (narrow : t = .i32 ∨ t = .bool) (declared : SameNumeric t d.ty)
    (same : SameNumeric d.ty ty') (ends : target consts [d.name] d.value = some last)
    (notString : isStringLit last = false) (notFloat : ∀ x span, last ≠ .floatLit x span)
    (value : arithmetic 64 consts [] d.value = .ok v) (emitted : emitTopLevelConstant consts enums d = initialised d.ty (.integer v))
    (object : objectConstant consts enums d = (LConst.iconst (lirType enums ty') v).meaning) :
    FoldsAlike consts enums d ↔ ∃ v, arithmetic 32 consts [] d.value = .ok v := by
  have numeric : isNumeric t = true := by rcases narrow with rfl | rfl <;> rfl
  obtain rfl := declared.eq numeric
  obtain rfl := same.eq numeric
  have spec : checkedValue consts d = match d.ty with
      | .i32 => (arithmetic 32 consts [] d.value).map .int
      | .bool => (arithmetic 32 consts [] d.value).map fun v => .bool (v != 0)
      | _ => .error .unsupported := by
    unfold checkedValue
    rw [ends]
    split
    next shape => simp [Option.some.inj shape,isStringLit] at notString
    next shape => exact absurd (Option.some.inj shape) (notFloat _ _)
    next => rfl
  have alike : emitTopLevelConstant consts enums d = objectConstant consts enums d ∧
      objectConstant consts enums d ≠ .panicked ∧ ∃ c, objectConstant consts enums d = .value c := by
    rcases narrow with kind | kind
    all_goals
      rw [kind] at emitted object
      exact ⟨emitted.trans object.symm,by simp [object,lirType,LConst.meaning],_,object⟩
  obtain ⟨agree,calm,c,held⟩ := alike
  constructor
  · intro folds
    have checked := folds.checked c held
    rw [spec] at checked
    cases narrowed : arithmetic 32 consts [] d.value with
    | ok v => exact ⟨v,rfl⟩
    | error fault =>
      rcases narrow with kind | kind
      all_goals
        rw [kind,narrowed] at checked
        cases checked
  · rintro ⟨w,narrowed⟩
    obtain ⟨wide,inside,boolean⟩ := arithmetic_wide sound d.value typed narrow narrowed
    obtain rfl := Except.ok.inj (wide.symm.trans value)
    refine ⟨agree,fun c held => ?_,calm⟩
    rw [spec,narrowed]
    rcases narrow with kind | kind
    · rw [kind] at object ⊢
      rw [object] at held
      simp only [lirType,LConst.meaning,wrap_fits inside,Folding.value.injEq] at held
      exact congrArg _ held
    · rw [kind] at object ⊢
      rw [object] at held
      simp only [lirType,LConst.meaning,Folding.value.injEq] at held
      rw [← held]
      rcases boolean kind with rfl | rfl <;> rfl

theorem not_string_of_end {d : ConstDef} {last : Expr} (ends : target consts [d.name] d.value = some last)
    (notString : isStringLit last = false) : isStringLit d.value = false := by
  rcases @target_cases consts [d.name] d.value with ⟨_,_,_,shape⟩ | own
  · rw [shape]
    rfl
  · rw [own] at ends
    exact Option.some.inj ends ▸ notString

/-- A chain of aliases is no constant expression of C. -/
theorem alias_text (d : ConstDef) : (∀ e, target consts [d.name] d.value = some e → e ≠ d.value) →
    isStringLit d.value = false ∧ constantExpression enums d.value = false := by
  intro apart
  rcases @target_cases consts [d.name] d.value with ⟨_,_,_,shape⟩ | own
  · rw [shape]
    exact ⟨rfl,rfl⟩
  · exact absurd rfl (apart _ own)

/-- The constant whose chain of aliases ends in the initialiser of another kind than a string or a double -/
theorem foldsAlike_end (declared : Declared consts) {d : ConstDef} (member : d ∈ consts) {last : Expr}
    (ends : target consts [d.name] d.value = some last) (notString : isStringLit last = false)
    (notFloat : ∀ x span, last ≠ .floatLit x span) {ty' : BcType} (same : SameNumeric d.ty ty')
    (object : topLevelConstValue consts enums [] d.name d.ty =
      (constEvalI64 consts [] last).map (.iconst (lirType enums ty'))) :
    FoldsAlike consts enums d ↔
      match arithmetic 64 consts [] last with
      | .error .quotient => False
      | .error _ => constantExpression enums d.value = false
      | .ok _ =>
        if d.ty = .f64 then constantExpression enums d.value = false
        else ∃ v, arithmetic 32 consts [] last = .ok v := by
  obtain ⟨t,typed,own⟩ := declared.sound d member
  obtain ⟨t',typedEnd,-⟩ := target_typed declared.sound d.value typed ends
  have stringFree := not_string_of_end ends notString
  have through (bits : Nat) := @arithmetic_target bits _ _ d.value _ ends
  have hosted := @constEvalI64_hosted _ [] declared.sound last _ typedEnd
  have hostedOwn := @constEvalI64_hosted _ [] declared.sound d.value _ typed
  have reads := @tryConstEval_reads _ [] declared.sound d.value _ typed
  rw [hosted] at object
  rw [through 64] at hostedOwn
  cases value : arithmetic 64 consts [] last with
  | error fault =>
    rw [value] at object
    by_cases quotient : fault = .quotient
    · subst quotient
      refine iff_of_false (fun alike => alike.calm ?_) id
      rw [objectConstant,object]
      rfl
    · have refused := tryConstEval_refused declared.sound typed ((through 64).trans value) quotient
      have object : objectConstant consts enums d = .refused := by
        rw [objectConstant,object]
        cases fault <;> first | rfl | contradiction
      rw [foldsAlike_refused stringFree refused object]
      cases fault <;> first | rfl | contradiction
  | ok v =>
    rw [value] at object hostedOwn
    by_cases floating : d.ty = .f64
    · rw [if_pos floating]
      have floatEnd : d.ty = ty' := same.eq (by simp [floating,isNumeric])
      have isFloat : t = .f64 := (own.symm.eq (by simp [floating,isNumeric])).symm.trans floating
      refine foldsAlike_refused stringFree ?_ ?_
      · cases outcome : tryConstEval consts [] d.value with
        | refused => rfl
        | panicked =>
          rw [outcome] at reads
          cases hostedOwn.symm.trans reads
        | value text =>
          rw [outcome] at reads
          cases text with
          | integer w =>
            have narrow := reads.2
            simp [isFloat] at narrow
          | float x =>
            obtain ⟨-,-,span,float⟩ := reads
            have here := @target_mono _ _ d.value _ [] (by simp) ends
            exact absurd (Option.some.inj (here.symm.trans float)) (notFloat _ _)
      · rw [objectConstant,object,← floatEnd,floating]
        rfl
    · rw [if_neg floating]
      have apart : t ≠ .f64 := by
        rintro rfl
        exact floating (own.eq rfl).symm
      cases outcome : tryConstEval consts [] d.value with
      | refused =>
        rw [outcome] at reads
        exact absurd (reads v hostedOwn) apart
      | panicked =>
        rw [outcome] at reads
        cases hostedOwn.symm.trans reads
      | value text =>
        rw [outcome] at reads
        cases text with
        | float x => exact absurd reads.2.1 apart
        | integer w =>
          obtain ⟨folded,narrow⟩ := reads
          obtain rfl := Folding.value.inj (hostedOwn.symm.trans folded)
          rw [← through 32]
          exact foldsAlike_integer declared.sound typed narrow own same ends notString notFloat
            ((through 64).trans value) (emit_text stringFree outcome) (by rw [objectConstant,object]; rfl)

theorem foldsAlike_string (sound : Sound consts) {d : ConstDef} {t : BcType} {s : String} {span : Span}
    (typed : Typed consts d.value t) (ends : target consts [d.name] d.value = some (.stringLit s span))
    (object : objectConstant consts enums d = .value (.str s)) :
    FoldsAlike consts enums d ↔ isStringLit d.value = true := by
  constructor
  · intro alike
    by_contra notLiteral
    have notString : isStringLit d.value = false := by simpa using notLiteral
    have text := (@alias_text consts enums d fun e other same => by
      obtain rfl := Option.some.inj (ends.symm.trans other)
      rw [← same] at notString
      cases notString).2
    have stops : arithmetic 64 consts [] d.value = .error .unsupported := by
      rw [arithmetic_target d.value ends,arithmetic]
      all_goals simp
    have refused := tryConstEval_refused sound typed stops (by simp)
    have emitted := alike.same
    rw [emit_expression notString refused,object,if_neg (by simp [text])] at emitted
    cases emitted
  · intro literal
    have own : d.value = .stringLit s span := by
      rcases @target_cases consts [d.name] d.value with ⟨_,_,_,shape⟩ | own
      · rw [shape] at literal
        cases literal
      · exact Option.some.inj (own.symm.trans ends)
    have emitted : emitTopLevelConstant consts enums d = .value (.str s) := by
      unfold emitTopLevelConstant
      rw [own]
    refine ⟨emitted.trans object.symm,fun c held => ?_,by simp [object]⟩
    obtain rfl := Folding.value.inj (object.symm.trans held)
    unfold checkedValue
    rw [ends]

theorem foldsAlike_float (sound : Sound consts) {d : ConstDef} {t : BcType} {x : Binary64} {span : Span}
    (typed : Typed consts d.value t) (declared : SameNumeric t d.ty)
    (ends : target consts [d.name] d.value = some (.floatLit x span))
    (object : objectConstant consts enums d = .value (.float x)) : FoldsAlike consts enums d := by
  obtain ⟨t',typedEnd,same⟩ := target_typed sound d.value typed ends
  obtain rfl : t' = .f64 := typedEnd
  have floating : d.ty = .f64 := (declared.symm.trans same).symm.eq rfl |>.symm
  have folded := target_float d.value (@target_mono _ _ d.value _ [] (by simp) ends)
  have emitted := @emit_text _ enums _ _ (not_string_of_end ends rfl) folded
  rw [floating] at emitted
  refine ⟨emitted.trans object.symm,fun c held => ?_,by simp [object]⟩
  obtain rfl := Folding.value.inj (object.symm.trans held)
  unfold checkedValue
  rw [ends]

private def somewhere : Span := ⟨1,1⟩

/-- `let LIMIT: i32 = left op right;` -/
def limit (op : BinOp) (left right : Int) : Ast.Program :=
  ⟨[.letDecl ⟨"LIMIT",.primitive .i32 somewhere,
    .binaryOp op (.intLit left somewhere) (.intLit right somewhere) somewhere,somewhere⟩]⟩

def loweredLimit (op : BinOp) (left right : Int) : ConstDef :=
  ⟨"LIMIT",.i32,.binaryOp op (.intLit left somewhere) (.intLit right somewhere) .i32 somewhere,somewhere⟩

end Oscan.Constants
