import Oscan.Preservation.Ready

/-! A construct that is lowered with the types of the checker passes the verifier. -/
namespace Oscan
open Ast Semantic Semantic.Analyzer Lowering

variable {program : Ir.Program}

/-- All names that a construct calls have the arity of the intrinsic they stand for. -/
def Callable (program : Ir.Program) (names : List String) : Prop :=
  ∀ name ∈ names, arityAgrees program.functions name = true

@[simp] theorem callable_append (first second : List String) :
    Callable program (first ++ second) ↔ Callable program first ∧ Callable program second :=
  List.forall_mem_append

theorem callable_call {name : String} {args : List String}
    (arity : Callable program (name :: args)) :
    arityAgrees program.functions name = true ∧ Callable program args :=
  List.forall_mem_cons.mp arity

/-- No context, or one that names a declared type. -/
def Expects (program : Ir.Program) (E : Option BcType) : Prop :=
  ∀ ty, E = some ty → ty.defined program.declared = true

theorem Expects.none : Expects program none := by simp [Expects]

theorem Expects.some {ty : BcType} (known : ty.defined program.declared = true) :
    Expects program (some ty) := fun _ same => Option.some.inj same ▸ known

theorem expectedArgs_known {depth : Nat} {self : Analyzer} (ready : Ready program depth self)
    (name : String) (args : List Expr) : ∀ E ∈ self.expectedArgs name args, Expects program E := by
  have elem : Expects program (self.firstElem args) := by
    intro ty found
    unfold firstElem at found
    obtain ⟨arr,-,found⟩ := Option.bind_eq_some_iff.mp found
    split at found
    next at_ checked =>
      rw [← BcType.defined_element found]
      exact checkExpr_defined arr ready.grounded (by simp) checked
    next => simp at found
  have signature : ∀ params ret, self.calledSignature name = some (params,ret) →
      ∀ ty ∈ params, ty.defined program.declared = true := by
    intro params ret found
    unfold calledSignature at found
    split at found
    next info bound =>
      split at found
      next _ _ _ typed =>
        have pointer := ready.grounded.lookupVar bound
        simp only [typed,BcType.defined,Bool.and_eq_true,BcType.definedAll_iff] at pointer
        simp only [Option.some.injEq,Prod.mk.injEq] at found
        exact found.1 ▸ pointer.1
      next => simp at found
    next =>
      obtain ⟨func,known,found⟩ := Option.map_eq_some_iff.mp found
      simp only [Prod.mk.injEq] at found
      simpa [← found.1] using fun a b member => (ready.grounded.calledFunction known).1 (b,a) member
  unfold expectedArgs
  split
  · simp [Expects]
  · split
    · simpa [Expects] using elem
    · cases found : self.calledSignature name with
      | none => simp
      | some pair => simpa [Expects] using signature pair.1 pair.2 found

mutual
theorem lowerExpr_verified (c : String) : ∀ (e : Expr) {depth : Nat} {self : Analyzer}
    {E : Option BcType} {t : Typing} {lw : Lowering} {ctx : Context} {ir : Ir.Expr},
    Matches lw self ctx → Ready program depth self → Expects program E →
    checkExpr self E e = .ok t → Callable program e.calledNames → lowerExpr lw e = some ir →
    ir.types = t.log → Ir.verifyExpr program c depth ir = []
  | .intLit ..,depth,self,E,t,lw,ctx,ir,_,ready,expected,accepted,_,lowered,sameTypes
  | .floatLit ..,depth,self,E,t,lw,ctx,ir,_,ready,expected,accepted,_,lowered,sameTypes
  | .stringLit ..,depth,self,E,t,lw,ctx,ir,_,ready,expected,accepted,_,lowered,sameTypes
  | .boolLit ..,depth,self,E,t,lw,ctx,ir,_,ready,expected,accepted,_,lowered,sameTypes
  | .ident ..,depth,self,E,t,lw,ctx,ir,_,ready,expected,accepted,_,lowered,sameTypes => by
    have own := verifyNode c ready expected accepted sameTypes
    simp only [lowerExpr,Option.some.injEq] at lowered
    subst lowered
    simp only [Ir.verifyExpr,own,List.nil_append]
  | .interpolatedString parts span,depth,self,E,t,lw,ctx,ir,same,ready,expected,accepted,arity,
      lowered,sameTypes => by
    have own := verifyNode c ready expected accepted sameTypes
    obtain ⟨_,_,log,checked,rfl⟩ := checkExpr_interpolatedString accepted
    simp only [lowerExpr,bind_lowers,pure_lowers] at lowered
    obtain ⟨irs,loweredParts,rfl⟩ := lowered
    have sameParts := (List.append_inj' sameTypes rfl).1
    simp only [Ir.verifyExpr,own,List.nil_append]
    exact lowerParts_verified c parts same ready checked arity loweredParts sameParts
  | .binaryOp op left right span,depth,self,E,t,lw,ctx,ir,same,ready,expected,accepted,arity,
      lowered,sameTypes => by
    have own := verifyNode c ready expected accepted sameTypes
    obtain ⟨lt,rt,ty,checkedLeft,checkedRight,typed,rfl⟩ := checkExpr_binaryOp accepted
    simp only [lowerExpr,bind_lowers,pure_lowers] at lowered
    obtain ⟨l,loweredLeft,r,loweredRight,rfl⟩ := lowered
    simp only [Expr.calledNames,callable_append] at arity
    obtain ⟨sameLeft,sameRight⟩ := List.append_inj (List.append_inj' sameTypes rfl).1
      (lowerExpr_size left checkedLeft loweredLeft)
    have settled : Lowering.binaryOpType op l.ty = Ir.binaryOpExpected op l.ty := by
      cases op <;> rfl
    rw [settled] at own
    simp only [Ir.verifyExpr,own,List.nil_append,settled,bne_self_eq_false,Bool.false_eq_true,
      if_false,List.append_nil,
      lowerExpr_verified c left same ready .none checkedLeft arity.1 loweredLeft sameLeft]
    exact lowerExpr_verified c right same ready .none checkedRight arity.2 loweredRight sameRight
  | .unaryOp op operand span,depth,self,E,t,lw,ctx,ir,same,ready,expected,accepted,arity,lowered,
      sameTypes => by
    have own := verifyNode c ready expected accepted sameTypes
    obtain ⟨ot,ty,checked,typed,rfl⟩ := checkExpr_unaryOp accepted
    simp only [lowerExpr,bind_lowers,pure_lowers] at lowered
    obtain ⟨o,loweredOperand,rfl⟩ := lowered
    have sameOperand := (List.append_inj' sameTypes rfl).1
    have settled : Lowering.unaryOpType op o.ty = Ir.unaryOpExpected op o.ty := by
      cases op <;> rfl
    rw [settled] at own
    simp only [Ir.verifyExpr,own,List.nil_append,settled,bne_self_eq_false,Bool.false_eq_true,
      if_false,List.append_nil]
    exact lowerExpr_verified c operand same ready .none checked arity loweredOperand sameOperand
  | .cast e ty span,depth,self,E,t,lw,ctx,ir,same,ready,expected,accepted,arity,lowered,
      sameTypes => by
    have own := verifyNode c ready expected accepted sameTypes
    obtain ⟨et,target,checked,-,-,rfl⟩ := checkExpr_cast accepted
    simp only [lowerExpr,bind_lowers,pure_lowers] at lowered
    obtain ⟨o,loweredExpr,rfl⟩ := lowered
    have sameExpr := (List.append_inj' sameTypes rfl).1
    simp only [Ir.verifyExpr,own,List.nil_append]
    exact lowerExpr_verified c e same ready .none checked arity loweredExpr sameExpr
  | .call callee [] span,depth,self,E,t,lw,ctx,ir,same,ready,expected,accepted,arity,lowered,
      sameTypes => by
    have own := verifyNode c ready expected accepted sameTypes
    obtain ⟨name,nameSpan,rfl,checked⟩ := checkExpr_call accepted
    obtain ⟨nameArity,-⟩ := callable_call arity
    cases free : CollectionIntrinsic.resolveWithAlias name with
    | some intrinsic =>
      obtain ⟨_,_,_,_,empty,-⟩ := checked.ofCollection free
      simp at empty
    | none =>
      simp only [lowerExpr_named free,bind_lowers,pure_lowers] at lowered
      obtain ⟨irs,loweredArgs,rfl⟩ := lowered
      have callee := verifyCallee_named c same ready free checked nameArity
        (lowerArgs_length loweredArgs)
      simp only [lowerArgs,Option.some.injEq] at loweredArgs
      subst loweredArgs
      simp only [Ir.verifyExpr,own,callee,List.nil_append,Ir.verifyExprs]
  | .call callee (first :: rest) span,depth,self,E,t,lw,ctx,ir,same,ready,expected,accepted,arity,
      lowered,sameTypes => by
    have own := verifyNode c ready expected accepted sameTypes
    obtain ⟨name,nameSpan,rfl,checked⟩ := checkExpr_call accepted
    obtain ⟨nameArity,argsArity⟩ : arityAgrees program.functions name = true ∧
        Callable program (exprsCalledNames (first :: rest)) := callable_call arity
    cases free : CollectionIntrinsic.resolveWithAlias name with
    | some intrinsic =>
      obtain ⟨_,_,ft,log,⟨⟩,head,tail,array,rfl⟩ := checked.ofCollection free
      have count : rest.length = (restTypes intrinsic .unit).length := by
        simpa [restTypes_length intrinsic _ .unit] using tail.length
      simp only [lowerExpr_collection free count,bind_lowers,pure_lowers] at lowered
      obtain ⟨f,loweredFirst,irs,loweredRest,rfl⟩ := lowered
      simp only [exprsCalledNames,callable_append] at argsArity
      simp only [Ir.Expr.types,Ir.exprsTypes,Typing.node] at sameTypes
      obtain ⟨sameFirst,sameRest⟩ := List.append_inj (List.append_inj' sameTypes rfl).1
        (lowerExpr_size first head loweredFirst)
      have source : Expects program
          (intrinsic.source.map fun source => BcType.array source.bcType) := by
        intro ty found
        obtain ⟨source,-,rfl⟩ := Option.map_eq_some_iff.mp found
        simp
      have firstKnown := checkExpr_defined first ready.grounded source head
      have elemKnown : ((arrayElementType ft.ty).getD .unit).defined program.declared = true := by
        cases found : arrayElementType ft.ty with
        | none => rfl
        | some elem => rwa [Option.getD_some,← BcType.defined_element found]
      have restKnown := restTypes_defined intrinsic elemKnown
      simp only [Ir.verifyExpr,own,Ir.verifyCallee,List.nil_append,Ir.verifyExprs,
        lowerExpr_verified c first (firstContext_matches same intrinsic) ready source head
          argsArity.1 loweredFirst sameFirst]
      exact lowerArgs_verified c rest same ready
        (by simpa [Expects] using restKnown) tail argsArity.2 loweredRest sameRest
    | none =>
      obtain ⟨log,args,last,-⟩ := callChecked_named same free checked
      simp only [lowerExpr_named free,bind_lowers,pure_lowers] at lowered
      obtain ⟨irs,loweredArgs,rfl⟩ := lowered
      rw [last] at sameTypes
      have sameArgs := (List.append_inj' sameTypes rfl).1
      have callee := verifyCallee_named c same ready free checked nameArity
        (lowerArgs_length loweredArgs)
      simp only [Ir.verifyExpr,own,callee,List.nil_append]
      exact lowerArgs_verified c (first :: rest) same ready
        (expectedArgs_known ready name _) args argsArity loweredArgs sameArgs
  | .fieldAccess e field span,depth,self,E,t,lw,ctx,ir,same,ready,expected,accepted,arity,lowered,
      sameTypes => by
    have own := verifyNode c ready expected accepted sameTypes
    obtain ⟨et,ty,checked,-,rfl⟩ := checkExpr_fieldAccess accepted
    simp only [lowerExpr,bind_lowers,pure_lowers] at lowered
    obtain ⟨o,loweredExpr,rfl⟩ := lowered
    have sameExpr := (List.append_inj' sameTypes rfl).1
    simp only [Ir.verifyExpr,own,List.nil_append]
    exact lowerExpr_verified c e same ready .none checked arity loweredExpr sameExpr
  | .index e index span,depth,self,E,t,lw,ctx,ir,same,ready,expected,accepted,arity,lowered,
      sameTypes => by
    have own := verifyNode c ready expected accepted sameTypes
    obtain ⟨et,it,ty,checked,checkedIndex,-,-,rfl⟩ := checkExpr_index accepted
    simp only [lowerExpr,bind_lowers,pure_lowers] at lowered
    obtain ⟨o,loweredExpr,i,loweredIndex,rfl⟩ := lowered
    simp only [Expr.calledNames,callable_append] at arity
    obtain ⟨sameExpr,sameIndex⟩ := List.append_inj (List.append_inj' sameTypes rfl).1
      (lowerExpr_size e checked loweredExpr)
    simp only [Ir.verifyExpr,own,List.nil_append,
      lowerExpr_verified c e same ready .none checked arity.1 loweredExpr sameExpr]
    exact lowerExpr_verified c index same ready .none checkedIndex arity.2 loweredIndex sameIndex
  | .block b,depth,self,E,t,lw,ctx,ir,same,ready,expected,accepted,arity,lowered,sameTypes => by
    have own := verifyNode c ready expected accepted sameTypes
    obtain ⟨bt,checked,rfl⟩ := checkExpr_block accepted
    simp only [lowerExpr,bind_lowers,pure_lowers] at lowered
    obtain ⟨o,loweredBlock,rfl⟩ := lowered
    have sameBlock := (List.append_inj' sameTypes rfl).1
    simp only [Ir.verifyExpr,own,List.nil_append]
    exact lowerBlock_verified c b same.pushScope ready expected checked arity loweredBlock sameBlock
  | .arena b span,depth,self,E,t,lw,ctx,ir,same,ready,expected,accepted,arity,lowered,
      sameTypes => by
    have own := verifyNode c ready expected accepted sameTypes
    obtain ⟨bt,checked,-,-,rfl⟩ := checkExpr_arena accepted
    simp only [lowerExpr,bind_lowers,pure_lowers] at lowered
    obtain ⟨o,loweredBlock,rfl⟩ := lowered
    have sameBlock := (List.append_inj' sameTypes rfl).1
    simp only [Ir.verifyExpr,own,List.nil_append]
    exact lowerBlock_verified c b same.pushScope ready expected checked arity loweredBlock sameBlock
  | .ifExpr condition thenBlock none span,depth,self,E,t,lw,ctx,ir,same,ready,expected,accepted,
      arity,lowered,sameTypes => by
    have own := verifyNode c ready expected accepted sameTypes
    obtain ⟨ct,bt,checked,-,checkedThen,-,rfl⟩ := checkExpr_ifThen accepted
    simp only [lowerExpr,bind_lowers,pure_lowers] at lowered
    obtain ⟨cond,loweredCond,b,loweredThen,rfl⟩ := lowered
    simp only [Expr.calledNames,callable_append] at arity
    simp only [Ir.Expr.types,Ir.tailTypes,List.append_nil,Typing.node] at sameTypes
    obtain ⟨sameCond,sameThen⟩ := List.append_inj (List.append_inj' sameTypes rfl).1
      (lowerExpr_size condition checked loweredCond)
    simp only [Ir.verifyExpr,own,List.nil_append,bne_self_eq_false,Bool.false_eq_true,if_false,
      List.append_nil,
      lowerExpr_verified c condition same ready .none checked arity.1.1 loweredCond sameCond]
    exact lowerBlock_verified c thenBlock same.pushScope ready expected checkedThen arity.1.2
      loweredThen sameThen
  | .ifExpr condition thenBlock (some elseExpr) span,depth,self,E,t,lw,ctx,ir,same,ready,expected,
      accepted,arity,lowered,sameTypes => by
    have own := verifyNode c ready expected accepted sameTypes
    obtain ⟨ct,bt,et,ty,checked,-,checkedThen,checkedElse,-,rfl⟩ := checkExpr_ifElse accepted
    simp only [lowerExpr,bind_lowers,pure_lowers] at lowered
    obtain ⟨cond,loweredCond,b,loweredThen,e,loweredElse,joinTy,joined,rfl⟩ := lowered
    simp only [Expr.calledNames,tailCalledNames,callable_append] at arity
    simp only [Ir.Expr.types,Ir.tailTypes,Typing.node,List.append_assoc] at sameTypes
    obtain ⟨sameCond,rest⟩ :=
      List.append_inj sameTypes (lowerExpr_size condition checked loweredCond)
    obtain ⟨sameThen,rest⟩ :=
      List.append_inj rest (lowerBlock_size thenBlock checkedThen loweredThen)
    have sameElse := (List.append_inj' rest rfl).1
    obtain ⟨thenFits,elseFits⟩ := compatible_join joined
    simp only [Ir.verifyExpr,own,List.nil_append,thenFits,elseFits,Bool.not_true,Bool.or_self,
      Bool.false_eq_true,if_false,List.append_nil,
      lowerExpr_verified c condition same ready .none checked arity.1.1 loweredCond sameCond,
      lowerBlock_verified c thenBlock same.pushScope ready expected checkedThen arity.1.2
        loweredThen sameThen]
    exact lowerExpr_verified c elseExpr same ready expected checkedElse arity.2 loweredElse sameElse
  | .matchExpr scrutinee arms span,depth,self,E,t,lw,ctx,ir,same,ready,expected,accepted,arity,
      lowered,sameTypes => by
    have own := verifyNode c ready expected accepted sameTypes
    obtain ⟨st,types,seen,log,ty,checked,checkedArms,-,-,rfl⟩ := checkExpr_matchExpr accepted
    simp only [lowerExpr,bind_lowers,pure_lowers] at lowered
    obtain ⟨s,loweredScrut,irs,loweredArms,joinTy,joined,rfl⟩ := lowered
    simp only [Expr.calledNames,callable_append] at arity
    obtain ⟨sameScrut,sameArms⟩ := List.append_inj (List.append_inj' sameTypes rfl).1
      (lowerExpr_size scrutinee checked loweredScrut)
    have known := checkExpr_defined scrutinee ready.grounded (by simp) checked
    have fits := compatible_matchType joined
    rw [ty_of_types checked sameScrut] at loweredArms
    simp only [Ir.verifyExpr,own,List.nil_append,
      lowerExpr_verified c scrutinee same ready .none checked arity.1 loweredScrut sameScrut]
    exact lowerArms_verified c arms same ready expected known checkedArms arity.2 loweredArms
      sameArms (by simpa using fits)
  | .tryExpr call span,depth,self,E,t,lw,ctx,ir,same,ready,expected,accepted,arity,lowered,
      sameTypes => by
    have own := verifyNode c ready expected accepted sameTypes
    obtain ⟨ct,ok,err,_,_,checked,typed,-,-,rfl⟩ := checkExpr_tryExpr accepted
    simp only [lowerExpr,bind_lowers,pure_lowers] at lowered
    obtain ⟨o,loweredExpr,rfl⟩ := lowered
    have sameExpr := (List.append_inj' sameTypes rfl).1
    have callTy : o.ty = .result ok err := by rw [ty_of_types checked sameExpr,typed]
    have payload : Ir.verifyTry c o.ty (tryType o.ty) = [] := by
      simp [callTy,tryType,Ir.verifyTry]
    simp only [Ir.verifyExpr,own,payload,List.nil_append,List.append_nil]
    exact lowerExpr_verified c call same ready .none checked arity loweredExpr sameExpr
  | .arrayLit [] span,depth,self,E,t,lw,ctx,ir,same,ready,expected,accepted,arity,lowered,
      sameTypes => by
    have own := verifyNode c ready expected accepted sameTypes
    simp only [lowerExpr,Option.some.injEq] at lowered
    subst lowered
    simp [Ir.verifyExpr,own,Ir.verifyExprs,Ir.verifyArrayLit]
  | .arrayLit (first :: rest) span,depth,self,E,t,lw,ctx,ir,same,ready,expected,accepted,arity,
      lowered,sameTypes => by
    have own := verifyNode c ready expected accepted sameTypes
    obtain ⟨ft,log,checked,checkedRest,rfl⟩ := checkExpr_arrayLit accepted
    simp only [lowerExpr,bind_lowers,pure_lowers] at lowered
    obtain ⟨h,loweredFirst,tail,loweredRest,rfl⟩ := lowered
    simp only [Expr.calledNames,exprsCalledNames,callable_append] at arity
    simp only [Ir.Expr.types,Ir.exprsTypes,Typing.node] at sameTypes
    obtain ⟨sameFirst,sameRest⟩ := List.append_inj (List.append_inj' sameTypes rfl).1
      (lowerExpr_size first checked loweredFirst)
    have literal : Ir.verifyArrayLit c (h :: tail) h.ty
        (lw.arrayLitType h.ty (h :: tail).length) = [] := by
      unfold Lowering.arrayLitType
      split
      next elem size _ =>
        by_cases fixed : (elem == h.ty && size == ((h :: tail).length : Int)) = true
        · rw [if_pos fixed]
          simp only [Bool.and_eq_true,beq_iff_eq] at fixed
          simp [Ir.verifyArrayLit,fixed.2]
        · rw [if_neg fixed]
          simp [Ir.verifyArrayLit]
      next => simp [Ir.verifyArrayLit]
    simp only [Ir.verifyExpr,own,List.nil_append,Ir.verifyExprs,literal,List.append_nil,
      lowerExpr_verified c first same ready .none checked arity.1 loweredFirst sameFirst]
    exact lowerExprs_verified c rest same ready checkedRest arity.2 loweredRest sameRest
  | .structLit name fields span,depth,self,E,t,lw,ctx,ir,same,ready,expected,accepted,arity,
      lowered,sameTypes => by
    have own := verifyNode c ready expected accepted sameTypes
    obtain ⟨info,provided,log,known,checked,-,rfl⟩ := checkExpr_structLit accepted
    simp only [lowerExpr,same.info,Analyzer.info,known,bind_lowers,pure_lowers] at lowered
    obtain ⟨irs,loweredFields,rfl⟩ := lowered
    have sameFields := (List.append_inj' sameTypes rfl).1
    have fieldsKnown : ∀ field ty, info.fields.lookup field = some ty →
        ty.defined program.declared = true :=
      fun field ty found => ready.grounded.structField known found
    simp only [Ir.verifyExpr,own,List.nil_append]
    exact lowerFields_verified c fields same ready fieldsKnown checked arity loweredFields sameFields
  | .enumConstructor enumName variant args span,depth,self,E,t,lw,ctx,ir,same,ready,expected,
      accepted,arity,lowered,sameTypes => by
    have own := verifyNode c ready expected accepted sameTypes
    simp only [lowerExpr,bind_lowers,pure_lowers] at lowered
    obtain ⟨irs,loweredArgs,rfl⟩ := lowered
    simp only [Ir.verifyExpr,own,List.nil_append]
    by_cases result : enumName = "Result"
    · subst result
      obtain ⟨payload,ty,log,paid,checked,inferred,rfl⟩ := checkExpr_result accepted
      have sameArgs := (List.append_inj' sameTypes rfl).1
      have known := ready.grounded.inferResultType expected inferred
      have payloadKnown : payload.defined program.declared = true := by
        obtain ⟨ok,err,rfl⟩ := inferResultType_result inferred
        simp only [BcType.defined,Bool.and_eq_true] at known
        simp only [resultPayload,inferred] at paid
        split at paid
        · exact Option.some.inj paid ▸ known.1
        · split at paid
          · exact Option.some.inj paid ▸ known.2
          · simp at paid
      exact lowerArgs_verified c args same ready (by simpa [Expects] using payloadKnown) checked
        arity loweredArgs sameArgs
    · obtain ⟨info,payload,log,known,found,count,checked,rfl⟩ :=
        checkExpr_enumConstructor result accepted
      have sameArgs := (List.append_inj' sameTypes rfl).1
      have payloadKnown := ready.grounded.payload known found
      exact lowerArgs_verified c args same ready (by simpa [Expects] using payloadKnown)
        (checkPayload_args count checked) arity loweredArgs sameArgs
theorem lowerParts_verified (c : String) : ∀ (parts : List InterpolatedStringPart) {depth : Nat}
    {self : Analyzer} {result : Nat × Bool × List BcType} {lw : Lowering} {ctx : Context}
    {irs : List Ir.InterpolatedStringPart}, Matches lw self ctx → Ready program depth self →
    checkParts self parts = .ok result → Callable program (partsCalledNames parts) →
    lowerParts lw parts = some irs → Ir.partsTypes irs = result.2.2 →
    Ir.verifyParts program c depth irs = []
  | [],depth,self,result,lw,ctx,irs,same,ready,accepted,arity,lowered,sameTypes => by
    simp only [lowerParts,Option.some.injEq] at lowered
    simp [← lowered,Ir.verifyParts]
  | .text text :: parts,depth,self,result,lw,ctx,irs,same,ready,accepted,arity,lowered,sameTypes => by
    obtain ⟨_,_,checked⟩ := checkParts_text accepted
    simp only [lowerParts,bind_lowers,pure_lowers] at lowered
    obtain ⟨rest,loweredRest,rfl⟩ := lowered
    simp only [Ir.verifyParts]
    exact lowerParts_verified c parts same ready checked arity loweredRest sameTypes
  | .expr e :: parts,depth,self,result,lw,ctx,irs,same,ready,accepted,arity,lowered,sameTypes => by
    obtain ⟨et,_,_,log,checkedExpr,-,checked,last⟩ := checkParts_expr accepted
    simp only [lowerParts,bind_lowers,pure_lowers] at lowered
    obtain ⟨ir,loweredExpr,rest,loweredRest,rfl⟩ := lowered
    simp only [partsCalledNames,callable_append] at arity
    rw [last] at sameTypes
    obtain ⟨sameExpr,sameRest⟩ := List.append_inj sameTypes (lowerExpr_size e checkedExpr loweredExpr)
    simp only [Ir.verifyParts,List.nil_append,
      lowerExpr_verified c e same ready .none checkedExpr arity.1 loweredExpr sameExpr]
    exact lowerParts_verified c parts same ready checked arity.2 loweredRest sameRest
theorem lowerExprs_verified (c : String) : ∀ (es : List Expr) {depth : Nat} {self : Analyzer}
    {firstTy : BcType} {log : List BcType} {lw : Lowering} {ctx : Context} {irs : List Ir.Expr},
    Matches lw self ctx → Ready program depth self → checkElements self firstTy es = .ok log →
    Callable program (exprsCalledNames es) → lowerExprs lw es = some irs →
    Ir.exprsTypes irs = log → Ir.verifyExprs program c depth irs = []
  | [],depth,self,firstTy,log,lw,ctx,irs,same,ready,accepted,arity,lowered,sameTypes => by
    simp only [lowerExprs,Option.some.injEq] at lowered
    simp [← lowered,Ir.verifyExprs]
  | e :: es,depth,self,firstTy,log,lw,ctx,irs,same,ready,accepted,arity,lowered,sameTypes => by
    obtain ⟨et,rest,checked,-,checkedRest,rfl⟩ := checkElements_cons accepted
    simp only [lowerExprs,bind_lowers,pure_lowers] at lowered
    obtain ⟨ir,loweredExpr,irs,loweredRest,rfl⟩ := lowered
    simp only [exprsCalledNames,callable_append] at arity
    obtain ⟨sameExpr,sameRest⟩ := List.append_inj sameTypes (lowerExpr_size e checked loweredExpr)
    simp only [Ir.verifyExprs,List.nil_append,
      lowerExpr_verified c e same ready .none checked arity.1 loweredExpr sameExpr]
    exact lowerExprs_verified c es same ready checkedRest arity.2 loweredRest sameRest
theorem lowerArgs_verified (c : String) : ∀ (args : List Expr) {depth : Nat} {self : Analyzer}
    {types : List (Option BcType)} {pushes log : List BcType} {lw : Lowering} {ctx : Context}
    {irs : List Ir.Expr}, Matches lw self ctx → Ready program depth self →
    (∀ E ∈ types, Expects program E) → ArgsChecked self types args log →
    Callable program (exprsCalledNames args) → lowerArgs lw pushes args = some irs →
    Ir.exprsTypes irs = log → Ir.verifyExprs program c depth irs = []
  | [],depth,self,types,pushes,log,lw,ctx,irs,same,ready,known,accepted,arity,lowered,sameTypes => by
    simp only [lowerArgs,Option.some.injEq] at lowered
    simp [← lowered,Ir.verifyExprs]
  | arg :: args,depth,self,types,pushes,log,lw,ctx,irs,same,ready,known,accepted,arity,lowered,
      sameTypes => by
    cases accepted with
    | cons checked fits rest =>
      simp only [List.forall_mem_cons] at known
      simp only [exprsCalledNames,callable_append] at arity
      cases pushes with
      | nil =>
        simp only [lowerArgs,bind_lowers,pure_lowers] at lowered
        obtain ⟨ir,loweredArg,irs,loweredRest,rfl⟩ := lowered
        obtain ⟨sameArg,sameRest⟩ := List.append_inj sameTypes (lowerExpr_size arg checked loweredArg)
        simp only [Ir.verifyExprs,List.nil_append,
          lowerExpr_verified c arg same ready known.1 checked arity.1 loweredArg sameArg]
        exact lowerArgs_verified c args same ready known.2 rest arity.2 loweredRest sameRest
      | cons pushed pushes =>
        simp only [lowerArgs,bind_lowers,pure_lowers] at lowered
        obtain ⟨ir,loweredArg,irs,loweredRest,rfl⟩ := lowered
        obtain ⟨sameArg,sameRest⟩ := List.append_inj sameTypes (lowerExpr_size arg checked loweredArg)
        simp only [Ir.verifyExprs,List.nil_append,lowerExpr_verified c arg
          (same.withExpected pushed) ready known.1 checked arity.1 loweredArg sameArg]
        exact lowerArgs_verified c args same ready known.2 rest arity.2 loweredRest sameRest
theorem lowerFields_verified (c : String) : ∀ (fields : List FieldInit) {depth : Nat}
    {self : Analyzer} {name : String} {si : StructInfo} {provided : List String}
    {result : List String × List BcType} {lw : Lowering} {ctx : Context}
    {irs : List Ir.FieldInit}, Matches lw self ctx → Ready program depth self →
    (∀ field ty, si.fields.lookup field = some ty → ty.defined program.declared = true) →
    checkFields self name si provided fields = .ok result →
    Callable program (fieldsCalledNames fields) → lowerFields lw (some si) fields = some irs →
    Ir.fieldsTypes irs = result.2 → Ir.verifyFields program c depth irs = []
  | [],depth,self,name,si,provided,result,lw,ctx,irs,same,ready,known,accepted,arity,lowered,
      sameTypes => by
    simp only [lowerFields,Option.some.injEq] at lowered
    simp [← lowered,Ir.verifyFields]
  | .mk fname value span :: fields,depth,self,name,si,provided,result,lw,ctx,irs,same,ready,known,
      accepted,arity,lowered,sameTypes => by
    obtain ⟨ty,vt,_,log,found,checked,-,checkedRest,rfl⟩ := checkFields_cons accepted
    simp only [lowerFields,Option.bind_some,found,bind_lowers,pure_lowers] at lowered
    obtain ⟨ir,loweredValue,irs,loweredRest,rfl⟩ := lowered
    simp only [fieldsCalledNames,callable_append] at arity
    obtain ⟨sameValue,sameRest⟩ :=
      List.append_inj sameTypes (lowerExpr_size value checked loweredValue)
    simp only [Ir.verifyFields,List.nil_append,lowerExpr_verified c value (same.withExpected ty)
      ready (.some (known fname ty found)) checked arity.1 loweredValue sameValue]
    exact lowerFields_verified c fields same ready known checkedRest arity.2 loweredRest sameRest
theorem lowerArms_verified (c : String) : ∀ (arms : List MatchArm) {depth : Nat} {self : Analyzer}
    {scrutTy joinTy : BcType} {span : Span} {E : Option BcType} {seen : List String}
    {result : List (BcType × Span) × List String × List BcType} {lw : Lowering} {ctx : Context}
    {irs : List Ir.MatchArm}, Matches lw self ctx → Ready program depth self → Expects program E →
    scrutTy.defined program.declared = true → checkArms self scrutTy span E seen arms = .ok result →
    Callable program (armsCalledNames arms) → lowerArms lw scrutTy arms = some irs →
    Ir.armsTypes irs = result.2.2 →
    (∀ arm ∈ irs, arm.body.ty.isCompatibleWith joinTy = true) →
    Ir.verifyArms program c depth joinTy irs = []
  | [],depth,self,scrutTy,joinTy,span,E,seen,result,lw,ctx,irs,same,ready,expected,known,accepted,
      arity,lowered,sameTypes,fits => by
    simp only [lowerArms,Option.some.injEq] at lowered
    simp [← lowered,Ir.verifyArms]
  | .mk pattern body armSpan :: arms,depth,self,scrutTy,joinTy,span,E,seen,result,lw,ctx,irs,same,
      ready,expected,known,accepted,arity,lowered,sameTypes,fits => by
    obtain ⟨_,inner,bt,types,_,log,compatible,bound,checked,checkedRest,rfl⟩ :=
      checkArms_cons accepted
    obtain ⟨lwInner,lowBound,innerSame⟩ := same.pushScope.bindArm compatible bound
    simp only [lowerArms,lowBound,bind_lowers,pure_lowers,Option.some.injEq] at lowered
    obtain ⟨_,rfl,ir,loweredBody,irs,loweredRest,rfl⟩ := lowered
    simp only [armsCalledNames,callable_append] at arity
    obtain ⟨sameBody,sameRest⟩ := List.append_inj sameTypes (lowerExpr_size body checked loweredBody)
    have innerReady : Ready program depth inner :=
      ready.pushScope.after (ready.grounded.pushScope.bindPatternVars known bound)
        (bindPatternVars_kept bound)
    simp only [List.forall_mem_cons,Ir.MatchArm.body] at fits
    simp only [Ir.verifyArms,List.nil_append,fits.1,Bool.not_true,Bool.false_eq_true,if_false,
      lowerExpr_verified c body innerSame.toMatches innerReady expected checked arity.1 loweredBody
        sameBody]
    exact lowerArms_verified c arms same ready expected known checkedRest arity.2 loweredRest
      sameRest fits.2
theorem lowerBlock_verified (c : String) : ∀ (b : Block) {depth : Nat} {self : Analyzer}
    {E : Option BcType} {t : Typing} {lw : Lowering} {ctx : Context} {ir : Ir.Block},
    FramedMatch lw self.pushScope ctx → Ready program depth self → Expects program E →
    checkBlock self b E = .ok t → Callable program b.calledNames → lowerBlock lw b = some ir →
    ir.types = t.log → Ir.verifyBlock program c depth ir = []
  | .mk stmts tail span,depth,self,E,t,lw,ctx,ir,same,ready,expected,accepted,arity,lowered,
      sameTypes => by
    obtain ⟨inner,log,tt,checkedStmts,checkedTail,rfl⟩ := checkBlock_shape accepted
    simp only [lowerBlock,bind_lowers,pure_lowers,Prod.exists] at lowered
    obtain ⟨lwInner,irs,lowStmts,tailIr,lowTail,rfl⟩ := lowered
    simp only [Block.calledNames,callable_append] at arity
    obtain ⟨sameStmts,sameTail⟩ :=
      List.append_inj sameTypes (lowerStmts_size stmts checkedStmts lowStmts)
    have innerSame := lowerStmts_next same checkedStmts lowStmts
    rw [verifyBlock_nil]
    refine ⟨lowerStmts_verified c stmts same ready.pushScope checkedStmts arity.1 lowStmts
      sameStmts,?_⟩
    exact lowerTail_verified c tail innerSame.toMatches (ready.pushScope.stmts checkedStmts) expected
      checkedTail arity.2 lowTail sameTail
theorem lowerLoopBody_verified (c : String) : ∀ (b : Block) {depth : Nat} {self : Analyzer}
    {log : List BcType} {lw : Lowering} {ctx : Context} {ir : Ir.Block}, FramedMatch lw self ctx →
    Ready program depth self → checkLoopBody self b = .ok log → Callable program b.calledNames →
    lowerBlock lw b = some ir → ir.types = log → Ir.verifyBlock program c depth ir = []
  | .mk stmts tail span,depth,self,log,lw,ctx,ir,same,ready,accepted,arity,lowered,sameTypes => by
    obtain ⟨inner,log,tt,checkedStmts,checkedTail,rfl⟩ := checkLoopBody_shape accepted
    simp only [lowerBlock,bind_lowers,pure_lowers,Prod.exists] at lowered
    obtain ⟨lwInner,irs,lowStmts,tailIr,lowTail,rfl⟩ := lowered
    simp only [Block.calledNames,callable_append] at arity
    obtain ⟨sameStmts,sameTail⟩ :=
      List.append_inj sameTypes (lowerStmts_size stmts checkedStmts lowStmts)
    have innerSame := lowerStmts_next same checkedStmts lowStmts
    rw [verifyBlock_nil]
    refine ⟨lowerStmts_verified c stmts same ready checkedStmts arity.1 lowStmts sameStmts,?_⟩
    exact lowerTail_verified c tail innerSame.toMatches (ready.stmts checkedStmts) .none checkedTail
      arity.2 lowTail sameTail
theorem lowerTail_verified (c : String) : ∀ (tail : Option Expr) {depth : Nat} {self : Analyzer}
    {E : Option BcType} {t : Typing} {lw : Lowering} {ctx : Context} {ir : Option Ir.Expr},
    Matches lw self ctx → Ready program depth self → Expects program E →
    checkTail self E tail = .ok t → Callable program (tailCalledNames tail) →
    lowerTail lw tail = some ir → Ir.tailTypes ir = t.log →
    ∀ last, ir = some last → Ir.verifyExpr program c depth last = []
  | none,depth,self,E,t,lw,ctx,ir,same,ready,expected,accepted,arity,lowered,sameTypes => by
    simp only [lowerTail,Option.some.injEq] at lowered
    simp [← lowered]
  | some e,depth,self,E,t,lw,ctx,ir,same,ready,expected,accepted,arity,lowered,sameTypes => by
    simp only [lowerTail,bind_lowers,pure_lowers] at lowered
    obtain ⟨ir,loweredExpr,rfl⟩ := lowered
    rintro last ⟨⟩
    exact lowerExpr_verified c e same ready expected (checkTail_some accepted) arity loweredExpr
      sameTypes
theorem lowerStmts_verified (c : String) : ∀ (stmts : List Stmt) {depth : Nat}
    {self next : Analyzer} {log : List BcType} {lw lw' : Lowering} {ctx : Context}
    {irs : List Ir.Stmt}, FramedMatch lw self ctx → Ready program depth self →
    checkStmts self stmts = .ok (next,log) → Callable program (stmtsCalledNames stmts) →
    lowerStmts lw stmts = some (lw',irs) → Ir.stmtsTypes irs = log →
    Ir.verifyStmts program c depth irs = []
  | [],depth,self,next,log,lw,lw',ctx,irs,same,ready,accepted,arity,lowered,sameTypes => by
    simp only [lowerStmts,Option.some.injEq,Prod.mk.injEq] at lowered
    simp [← lowered.2,Ir.verifyStmts]
  | stmt :: stmts,depth,self,next,log,lw,lw',ctx,irs,same,ready,accepted,arity,lowered,sameTypes => by
    obtain ⟨middle,log,last,rest,checked,checkedRest,⟨⟩⟩ := checkStmts_cons accepted
    simp only [lowerStmts,bind_lowers,pure_lowers,Prod.exists] at lowered
    obtain ⟨lw₁,ir,lowHead,lw₂,irs,lowRest,⟨⟩⟩ := lowered
    simp only [stmtsCalledNames,callable_append] at arity
    obtain ⟨sameHead,sameRest⟩ := List.append_inj sameTypes (lowerStmt_size stmt checked lowHead)
    simp only [Ir.verifyStmts,List.nil_append,
      lowerStmt_verified c stmt same ready checked arity.1 lowHead sameHead]
    exact lowerStmts_verified c stmts (lowerStmt_next same checked lowHead) (ready.stmt checked)
      checkedRest arity.2 lowRest sameRest
theorem lowerAccessors_verified (c : String) : ∀ (accessors : List PlaceAccessor) {depth : Nat}
    {self : Analyzer} {use : PlaceUse} {ty : BcType} {span : Span} {result : BcType × List BcType}
    {lw : Lowering} {ctx : Context} {irs : List Ir.PlaceAccessor}, Matches lw self ctx →
    Ready program depth self → checkPlace self use ty span accessors = .ok result →
    Callable program (accessorsCalledNames accessors) → lowerAccessors lw accessors = some irs →
    Ir.accessorsTypes irs = result.2 → Ir.verifyAccessors program c depth irs = []
  | [],depth,self,use,ty,span,result,lw,ctx,irs,same,ready,accepted,arity,lowered,sameTypes => by
    simp only [lowerAccessors,Option.some.injEq] at lowered
    simp [← lowered,Ir.verifyAccessors]
  | .field field :: accessors,depth,self,use,ty,span,result,lw,ctx,irs,same,ready,accepted,arity,
      lowered,sameTypes => by
    obtain ⟨_,-,checked⟩ := checkPlace_field accepted
    simp only [lowerAccessors,bind_lowers,pure_lowers] at lowered
    obtain ⟨rest,loweredRest,rfl⟩ := lowered
    simp only [Ir.verifyAccessors]
    exact lowerAccessors_verified c accessors same ready checked arity loweredRest sameTypes
  | .index e :: accessors,depth,self,use,ty,span,result,lw,ctx,irs,same,ready,accepted,arity,lowered,
      sameTypes => by
    obtain ⟨it,elem,rest,checkedIndex,-,-,checked,last⟩ := checkPlace_index accepted
    simp only [lowerAccessors,bind_lowers,pure_lowers] at lowered
    obtain ⟨ir,loweredIndex,irs,loweredRest,rfl⟩ := lowered
    simp only [accessorsCalledNames,callable_append] at arity
    rw [last] at sameTypes
    obtain ⟨sameIndex,sameRest⟩ :=
      List.append_inj sameTypes (lowerExpr_size e checkedIndex loweredIndex)
    simp only [Ir.verifyAccessors,List.nil_append,
      lowerExpr_verified c e same ready .none checkedIndex arity.1 loweredIndex sameIndex]
    exact lowerAccessors_verified c accessors same ready checked arity.2 loweredRest sameRest
theorem lowerStmt_verified (c : String) : ∀ (stmt : Stmt) {depth : Nat} {self next : Analyzer}
    {log : List BcType} {lw lw' : Lowering} {ctx : Context} {ir : Ir.Stmt},
    FramedMatch lw self ctx → Ready program depth self → checkStmt self stmt = .ok (next,log) →
    Callable program stmt.calledNames → lowerStmt lw stmt = some (lw',ir) →
    ir.types = log → Ir.verifyStmt program c depth ir = []
  | .letStmt name isMut ty value span,depth,self,next,log,lw,lw',ctx,ir,same,ready,accepted,arity,
      lowered,sameTypes => by
    obtain ⟨expected,vt,after,resolved,checked,-,bound,⟨⟩⟩ := checkStmt_let accepted
    simp only [lowerStmt,same.resolveType ty resolved,bind_lowers,pure_lowers] at lowered
    obtain ⟨v,loweredValue,_,-,⟨⟩⟩ := lowered
    have known := (ready.grounded.resolveType ty resolved).2
    simp only [Ir.verifyStmt,(verifyType_nil program c expected).mpr known,List.nil_append]
    exact lowerExpr_verified c value (same.withExpected expected) ready (.some known) checked arity
      loweredValue sameTypes
  | .assign (.mk name accessors placeSpan) value span,depth,self,next,log,lw,lw',ctx,ir,same,ready,
      accepted,arity,lowered,sameTypes => by
    obtain ⟨root,ty,placeLog,vt,found,place,checked,-,⟨⟩⟩ := checkStmt_assign accepted
    simp only [lowerStmt,same.placeFinalType found place,lowerPlace,bind_lowers,pure_lowers]
      at lowered
    obtain ⟨v,loweredValue,_,⟨irs,lowPlace,rfl⟩,⟨⟩⟩ := lowered
    simp only [Stmt.calledNames,Place.calledNames,callable_append] at arity
    obtain ⟨samePlace,sameValue⟩ :=
      List.append_inj sameTypes (lowerAccessors_size accessors place lowPlace)
    have rootKnown := ready.grounded.lookupVar (placeRoot_lookup found)
    have known := placeType_defined ready.grounded rootKnown place
    have base : (lw.lookupType name).getD .unit = root.ty := by
      simp [same.lookupType,placeRoot_lookup found]
    simp only [Ir.verifyStmt,Ir.verifyPlace,base,(verifyType_nil program c root.ty).mpr rootKnown,
      List.nil_append,
      lowerAccessors_verified c accessors same.toMatches ready place arity.1 lowPlace samePlace]
    exact lowerExpr_verified c value (same.withExpected ty) ready (.some known) checked arity.2
      loweredValue sameValue
  | .compoundAssign (.mk name accessors placeSpan) op value span,depth,self,next,log,lw,lw',ctx,ir,
      same,ready,accepted,arity,lowered,sameTypes => by
    obtain ⟨root,ty,placeLog,vt,_,found,place,checked,-,⟨⟩⟩ := checkStmt_compoundAssign accepted
    simp only [lowerStmt,lowerPlace,bind_lowers,pure_lowers] at lowered
    obtain ⟨v,loweredValue,_,⟨irs,lowPlace,rfl⟩,⟨⟩⟩ := lowered
    simp only [Stmt.calledNames,Place.calledNames,callable_append] at arity
    obtain ⟨samePlace,sameValue⟩ :=
      List.append_inj sameTypes (lowerAccessors_size accessors place lowPlace)
    have rootKnown := ready.grounded.lookupVar (placeRoot_lookup found)
    have known := placeType_defined ready.grounded rootKnown place
    have base : (lw.lookupType name).getD .unit = root.ty := by
      simp [same.lookupType,placeRoot_lookup found]
    simp only [Ir.verifyStmt,Ir.verifyPlace,base,(verifyType_nil program c root.ty).mpr rootKnown,
      List.nil_append,
      lowerAccessors_verified c accessors same.toMatches ready place arity.1 lowPlace samePlace]
    exact lowerExpr_verified c value same.toMatches ready (.some known) checked arity.2 loweredValue
      sameValue
  | .expr e span,depth,self,next,log,lw,lw',ctx,ir,same,ready,accepted,arity,lowered,sameTypes => by
    obtain ⟨et,checked,⟨⟩⟩ := checkStmt_expr accepted
    simp only [lowerStmt,bind_lowers,pure_lowers] at lowered
    obtain ⟨o,loweredExpr,⟨⟩⟩ := lowered
    exact lowerExpr_verified c e same.toMatches ready .none checked arity loweredExpr sameTypes
  | .whileStmt condition body span,depth,self,next,log,lw,lw',ctx,ir,same,ready,accepted,arity,
      lowered,sameTypes => by
    obtain ⟨ct,bt,checked,-,checkedBody,⟨⟩⟩ := checkStmt_while accepted
    simp only [lowerStmt,bind_lowers,pure_lowers] at lowered
    obtain ⟨cond,loweredCond,b,loweredBody,⟨⟩⟩ := lowered
    simp only [Stmt.calledNames,callable_append] at arity
    obtain ⟨sameCond,sameBody⟩ :=
      List.append_inj sameTypes (lowerExpr_size condition checked loweredCond)
    simp only [Ir.verifyStmt,List.nil_append,
      lowerExpr_verified c condition same.toMatches ready .none checked arity.1 loweredCond sameCond]
    exact lowerBlock_verified c body same.toMatches.enterLoop.pushScope ready.enterLoop .none
      checkedBody arity.2 loweredBody sameBody
  | .forStmt var start stop body span,depth,self,next,log,lw,lw',ctx,ir,same,ready,accepted,arity,
      lowered,sameTypes => by
    obtain ⟨st,et,inner,bodyLog,checkedStart,-,checkedStop,-,bound,checkedBody,⟨⟩⟩ :=
      checkStmt_for accepted
    obtain ⟨lwInner,lowBound,innerSame⟩ := same.pushScope.bind bound
    simp only [lowerStmt,lowBound,bind_lowers,pure_lowers,Option.some.injEq] at lowered
    obtain ⟨s,loweredStart,e,loweredStop,_,rfl,b,loweredBody,⟨⟩⟩ := lowered
    simp only [Stmt.calledNames,callable_append] at arity
    simp only [Ir.Stmt.types,List.append_assoc] at sameTypes
    obtain ⟨sameStart,rest⟩ :=
      List.append_inj sameTypes (lowerExpr_size start checkedStart loweredStart)
    obtain ⟨sameStop,sameBody⟩ := List.append_inj rest (lowerExpr_size stop checkedStop loweredStop)
    have innerReady := ready.pushScope.bind rfl bound
    simp only [Ir.verifyStmt,List.nil_append,
      lowerExpr_verified c start same.toMatches ready .none checkedStart arity.1.1 loweredStart
        sameStart,
      lowerExpr_verified c stop same.toMatches ready .none checkedStop arity.1.2 loweredStop sameStop]
    exact lowerLoopBody_verified c body innerSame.enterLoop innerReady.enterLoop checkedBody arity.2
      loweredBody sameBody
  | .forIn var iterable body span,depth,self,next,log,lw,lw',ctx,ir,same,ready,accepted,arity,
      lowered,sameTypes => by
    obtain ⟨it,elem,inner,bodyLog,checked,array,bound,checkedBody,⟨⟩⟩ := checkStmt_forIn accepted
    obtain ⟨lwInner,lowBound,innerSame⟩ := same.pushScope.bind bound
    simp only [lowerStmt,bind_lowers,pure_lowers] at lowered
    obtain ⟨i,loweredIterable,_,lowBound',b,loweredBody,⟨⟩⟩ := lowered
    simp only [Stmt.calledNames,callable_append] at arity
    obtain ⟨sameIterable,sameBody⟩ :=
      List.append_inj sameTypes (lowerExpr_size iterable checked loweredIterable)
    rw [ty_of_types checked sameIterable,array,Option.getD_some,lowBound] at lowBound'
    obtain rfl := Option.some.inj lowBound'
    have iterableKnown := checkExpr_defined iterable ready.grounded (by simp) checked
    have innerReady := ready.pushScope.bind
      (by rwa [← BcType.defined_element array]) bound
    simp only [Ir.verifyStmt,List.nil_append,lowerExpr_verified c iterable same.toMatches ready .none
      checked arity.1 loweredIterable sameIterable]
    exact lowerLoopBody_verified c body innerSame.enterLoop innerReady.enterLoop checkedBody arity.2
      loweredBody sameBody
  | .returnStmt none span,depth,self,next,log,lw,lw',ctx,ir,same,ready,accepted,arity,lowered,
      sameTypes => by
    simp only [lowerStmt,lowerTail,bind_lowers,pure_lowers] at lowered
    obtain ⟨_,⟨⟩,⟨⟩⟩ := lowered
    simp [Ir.verifyStmt]
  | .returnStmt (some value) span,depth,self,next,log,lw,lw',ctx,ir,same,ready,accepted,arity,
      lowered,sameTypes => by
    obtain ⟨vt,checked,-,⟨⟩⟩ := checkStmt_return accepted
    simp only [lowerStmt,lowerTail,bind_lowers,pure_lowers] at lowered
    obtain ⟨_,⟨v,loweredValue,rfl⟩,⟨⟩⟩ := lowered
    have known : (self.currentFnReturnType.getD .unit).defined program.declared = true := by
      cases found : self.currentFnReturnType with
      | none => rfl
      | some ret => exact ready.grounded.ret ret found
    exact lowerExpr_verified c value same.withReturn ready (.some known) checked arity loweredValue
      sameTypes
  | .deferStmt e span,depth,self,next,log,lw,lw',ctx,ir,same,ready,accepted,arity,lowered,
      sameTypes => by
    obtain ⟨_,_,_,et,-,checked,⟨⟩⟩ := checkStmt_defer accepted
    simp only [lowerStmt,bind_lowers,pure_lowers] at lowered
    obtain ⟨o,loweredExpr,⟨⟩⟩ := lowered
    exact lowerExpr_verified c e same.toMatches ready .none checked arity loweredExpr sameTypes
  | .breakStmt span,depth,self,next,log,lw,lw',ctx,ir,same,ready,accepted,arity,lowered,
      sameTypes => by
    obtain ⟨inside,-⟩ := checkStmt_break accepted
    simp only [lowerStmt,Option.some.injEq,Prod.mk.injEq] at lowered
    have deep : depth ≠ 0 := ready.depth ▸ Nat.pos_iff_ne_zero.mp inside
    simp [← lowered.2,Ir.verifyStmt,deep]
  | .continueStmt span,depth,self,next,log,lw,lw',ctx,ir,same,ready,accepted,arity,lowered,
      sameTypes => by
    obtain ⟨inside,-⟩ := checkStmt_continue accepted
    simp only [lowerStmt,Option.some.injEq,Prod.mk.injEq] at lowered
    have deep : depth ≠ 0 := ready.depth ▸ Nat.pos_iff_ne_zero.mp inside
    simp [← lowered.2,Ir.verifyStmt,deep]
end

end Oscan
