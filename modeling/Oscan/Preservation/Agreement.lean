import Oscan.Preservation.Exact

/-! The induction over expressions and statements: an accepted construct is lowered with
the types of the checker exactly when the contexts agree throughout it. -/
namespace Oscan
open Ast Semantic Semantic.Analyzer Lowering

theorem firstContext_matches {lw : Lowering} {self : Analyzer} {ctx : Context}
    (same : Matches lw self ctx) (intrinsic : CollectionIntrinsic) :
    Matches (lw.firstContext intrinsic) self
      (((intrinsic.source.map fun source => BcType.array source.bcType).map .push).getD ctx) := by
  unfold firstContext
  cases intrinsic.source with
  | none => exact same
  | some source => exact same.withExpected _

/-- The checker reads the element type off the array, lowering off the name where it can. -/
private theorem elemType_of_array {name : String} {intrinsic : CollectionIntrinsic} {ty : BcType}
    (resolved : CollectionIntrinsic.resolveWithAlias name = some intrinsic)
    (array : intrinsic.op ≠ .repeat → ∃ elem, arrayElementType ty = some elem ∧
      ∀ source, intrinsic.source = some source → elem = source.bcType) :
    elemType intrinsic ty = (arrayElementType ty).getD .unit := by
  unfold elemType
  cases sourced : intrinsic.source with
  | none => rfl
  | some source =>
    have single : intrinsic.op ≠ .repeat := fun repeated => by
      have unsourced := (CollectionIntrinsic.resolveWithAlias_shape resolved).1
        (by rw [repeated]; rfl)
      simp [sourced] at unsourced
    obtain ⟨elem,found,same⟩ := array single
    simp [found,same source sourced]

private theorem arrayLitType_context {lw : Lowering} {self : Analyzer} {ctx : Context}
    (same : Matches lw self ctx) (elemTy : BcType) (count : Nat) :
    lw.arrayLitType elemTy count = Analyzer.arrayLitType ctx.array elemTy count := by
  unfold Lowering.arrayLitType
  exact congrArg (fun context => Analyzer.arrayLitType context elemTy count) same.array

/-- A block from its statements and from its tail in the state they leave. -/
private theorem exact_block {lw : Lowering} {start inner : Analyzer} {ctx : Context}
    {stmts : List Stmt} {tail : Option Expr} {span : Span} {log tailLog : List BcType} {A B : Prop}
    (same : FramedMatch lw start ctx) (checkedStmts : checkStmts start stmts = .ok (inner,log))
    (stmtsIff : A ↔ Exact (fun done => Ir.stmtsTypes done.2) (lowerStmts lw stmts) log)
    (tailIff : ∀ lw', FramedMatch lw' inner ctx →
      (B ↔ Exact Ir.tailTypes (lowerTail lw' tail) tailLog)) :
    A ∧ B ↔ Exact Ir.Block.types (lowerBlock lw (.mk stmts tail span)) (log ++ tailLog) := by
  rw [stmtsIff]
  constructor
  · rintro ⟨⟨⟨lwInner,irs⟩,lowStmts,sameStmts⟩,agreeTail⟩
    have innerSame := lowerStmts_next same checkedStmts lowStmts
    obtain ⟨ir,lowTail,sameTail⟩ := (tailIff lwInner innerSame).mp agreeTail
    dsimp only at sameStmts
    exact ⟨.mk irs ir span,by simp [lowerBlock,lowStmts,lowTail],
      by simp only [Ir.Block.types,sameStmts,sameTail]⟩
  · rintro ⟨ir,lowered,sameTypes⟩
    simp only [lowerBlock,bind_lowers,pure_lowers,Prod.exists] at lowered
    obtain ⟨lwInner,irs,lowStmts,tailIr,lowTail,rfl⟩ := lowered
    simp only [Ir.Block.types] at sameTypes
    obtain ⟨sameStmts,sameTail⟩ :=
      List.append_inj sameTypes (lowerStmts_size stmts checkedStmts lowStmts)
    have innerSame := lowerStmts_next same checkedStmts lowStmts
    exact ⟨⟨_,lowStmts,sameStmts⟩,(tailIff lwInner innerSame).mpr ⟨_,lowTail,sameTail⟩⟩

/-- The value of an assignment is lowered before the place but recorded after it. -/
private theorem exact_assign {lw : Lowering} {accessors : List PlaceAccessor} {value : Lower Ir.Expr}
    {name : String} {placeSpan : Span} {log valueLog : List BcType} {A B : Prop}
    {g : Ir.Place → Ir.Expr → Lowering × Ir.Stmt}
    (size : ∀ irs, lowerAccessors lw accessors = some irs → (Ir.accessorsTypes irs).length = log.length)
    (placeIff : A ↔ Exact Ir.accessorsTypes (lowerAccessors lw accessors) log)
    (valueIff : B ↔ Exact Ir.Expr.types value valueLog)
    (shape : ∀ place v, (g place v).2.types = place.types ++ v.types) :
    A ∧ B ↔ Exact (fun done => Ir.Stmt.types done.2)
      (value >>= fun v => lowerPlace lw (.mk name accessors placeSpan) >>= fun place =>
        pure (g place v)) (log ++ valueLog) := by
  rw [placeIff,valueIff]
  constructor
  · rintro ⟨⟨irs,lowPlace,samePlace⟩,v,lowValue,sameValue⟩
    refine ⟨g (.mk name irs ((lw.lookupType name).getD .unit) placeSpan) v,?_,?_⟩
    · simp [lowValue,lowerPlace,lowPlace]
    · simp only [shape,Ir.Place.types,samePlace,sameValue]
  · rintro ⟨done,lowered,sameTypes⟩
    simp only [lowerPlace,bind_lowers,pure_lowers] at lowered
    obtain ⟨v,lowValue,_,⟨irs,lowPlace,rfl⟩,rfl⟩ := lowered
    simp only [shape,Ir.Place.types] at sameTypes
    obtain ⟨samePlace,sameValue⟩ := List.append_inj sameTypes (size irs lowPlace)
    exact ⟨⟨irs,lowPlace,samePlace⟩,v,lowValue,sameValue⟩

mutual
theorem lowerExpr_exact : ∀ (e : Expr) {self : Analyzer} {E : Option BcType} {t : Typing}
    {lw : Lowering} {ctx : Context}, Matches lw self ctx → checkExpr self E e = .ok t →
    (agreeExpr self E ctx e = true ↔ Exact Ir.Expr.types (lowerExpr lw e) t.log)
  | .intLit .., self, E, t, lw, ctx, same, accepted => by
    simp only [checkExpr,unless_accepts,pure_accepts] at accepted
    simp [← accepted.2,agreeExpr,Exact,lowerExpr,Ir.Expr.types,Typing.node]
  | .floatLit .., self, E, t, lw, ctx, same, accepted
  | .stringLit .., self, E, t, lw, ctx, same, accepted
  | .boolLit .., self, E, t, lw, ctx, same, accepted => by
    simp only [checkExpr,pure_accepts] at accepted
    simp [← accepted,agreeExpr,Exact,lowerExpr,Ir.Expr.types,Typing.node]
  | .ident name span, self, E, t, lw, ctx, same, accepted => by
    obtain ⟨ty,typed,rfl⟩ := checkExpr_ident accepted
    simp [agreeExpr,Exact,lowerExpr,Ir.Expr.types,Typing.node,same.identType typed]
  | .interpolatedString parts span, self, E, t, lw, ctx, same, accepted => by
    obtain ⟨_,_,log,checked,rfl⟩ := checkExpr_interpolatedString accepted
    simp only [agreeExpr,lowerExpr,lowerParts_exact parts same checked]
    exact exact_typed (fun _ => rfl) fun _ _ _ => rfl
  | .binaryOp op left right span, self, E, t, lw, ctx, same, accepted => by
    obtain ⟨lt,rt,ty,checkedLeft,checkedRight,typed,rfl⟩ := checkExpr_binaryOp accepted
    simp only [agreeExpr,Bool.and_eq_true,lowerExpr,lowerExpr_exact left same checkedLeft,
      lowerExpr_exact right same checkedRight]
    exact exact_typed2 (fun _ => lowerExpr_size left checkedLeft) (fun _ _ _ => rfl)
      (fun _ _ => rfl) fun l r _ sameLeft _ _ => by
        rw [ty_of_types checkedLeft sameLeft]
        exact binaryOpType_lowers typed
  | .unaryOp op operand span, self, E, t, lw, ctx, same, accepted => by
    obtain ⟨ot,ty,checked,typed,rfl⟩ := checkExpr_unaryOp accepted
    simp only [agreeExpr,lowerExpr,lowerExpr_exact operand same checked]
    exact exact_typed (fun _ => rfl) fun o _ sameOperand => by
      rw [ty_of_types checked sameOperand]
      exact unaryOpType_lowers typed
  | .cast e ty span, self, E, t, lw, ctx, same, accepted => by
    obtain ⟨et,target,checked,resolved,-,rfl⟩ := checkExpr_cast accepted
    simp only [agreeExpr,lowerExpr,lowerExpr_exact e same checked]
    exact exact_typed (fun _ => rfl) fun _ _ _ => same.resolveType ty resolved
  | .call callee [] span, self, E, t, lw, ctx, same, accepted => by
    obtain ⟨name,nameSpan,rfl,checked⟩ := checkExpr_call accepted
    cases resolved : CollectionIntrinsic.resolveWithAlias name with
    | some intrinsic =>
      obtain ⟨_,_,_,_,empty,-⟩ := checked.ofCollection resolved
      simp at empty
    | none =>
      obtain ⟨log,args,last,typed⟩ := callChecked_named same resolved checked
      simp only [agreeExpr,resolved,Bool.and_eq_true,lowerExpr_named resolved,typed,
        lowerArgs_exact [] same args,same.namedParamTypes]
      rw [last,and_comm]
      exact exact_node (fun _ => rfl) fun _ _ _ => Iff.rfl
  | .call callee (first :: rest) span, self, E, t, lw, ctx, same, accepted => by
    obtain ⟨name,nameSpan,rfl,checked⟩ := checkExpr_call accepted
    cases resolved : CollectionIntrinsic.resolveWithAlias name with
    | some intrinsic =>
      obtain ⟨_,_,ft,log,⟨⟩,head,tail,array,rfl⟩ := checked.ofCollection resolved
      have arity : rest.length = (restTypes intrinsic .unit).length := by
        simpa [restTypes_length intrinsic _ .unit] using tail.length
      simp only [agreeExpr,resolved,agreeCollection,head,whenTyped_ok,Bool.and_eq_true,
        lowerExpr_collection resolved arity,
        lowerExpr_exact first (firstContext_matches same intrinsic) head,
        lowerArgs_exact rest same tail]
      refine exact_typed2 (fun _ => lowerExpr_size first head) (fun f _ sameFirst => ?_)
        (fun _ _ => by simp only [Ir.Expr.types,Ir.exprsTypes]; rfl) fun f _ _ sameFirst _ _ => ?_
      · rw [ty_of_types head sameFirst,elemType_of_array resolved array]
      · rw [ty_of_types head sameFirst]
    | none =>
      obtain ⟨log,args,last,typed⟩ := callChecked_named same resolved checked
      simp only [agreeExpr,resolved,Bool.and_eq_true,lowerExpr_named resolved,typed,
        lowerArgs_exact (first :: rest) same args,same.namedParamTypes]
      rw [last,and_comm]
      exact exact_node (fun _ => rfl) fun _ _ _ => Iff.rfl
  | .fieldAccess e field span, self, E, t, lw, ctx, same, accepted => by
    obtain ⟨et,ty,checked,typed,rfl⟩ := checkExpr_fieldAccess accepted
    simp only [agreeExpr,lowerExpr,lowerExpr_exact e same checked]
    exact exact_typed (fun _ => rfl) fun o _ sameExpr => by
      rw [ty_of_types checked sameExpr]
      exact same.fieldType typed
  | .index e index span, self, E, t, lw, ctx, same, accepted => by
    obtain ⟨et,it,ty,checked,checkedIndex,-,typed,rfl⟩ := checkExpr_index accepted
    simp only [agreeExpr,Bool.and_eq_true,lowerExpr,lowerExpr_exact e same checked,
      lowerExpr_exact index same checkedIndex]
    exact exact_typed2 (fun _ => lowerExpr_size e checked) (fun _ _ _ => rfl)
      (fun _ _ => rfl) fun l r _ sameExpr _ _ => by
        rw [ty_of_types checked sameExpr]
        exact indexType_lowers typed
  | .block b, self, E, t, lw, ctx, same, accepted => by
    obtain ⟨bt,checked,rfl⟩ := checkExpr_block accepted
    simp only [agreeExpr,lowerExpr,lowerBlock_exact b same.pushScope checked]
    exact exact_typed (fun _ => rfl) fun o lowered sameBlock =>
      ty_of_blockTypes checked lowered sameBlock
  | .arena b span, self, E, t, lw, ctx, same, accepted => by
    obtain ⟨bt,checked,-,-,rfl⟩ := checkExpr_arena accepted
    simp only [agreeExpr,lowerExpr,lowerBlock_exact b same.pushScope checked]
    exact exact_typed (fun _ => rfl) fun o lowered sameBlock =>
      ty_of_blockTypes checked lowered sameBlock
  | .ifExpr condition thenBlock none span, self, E, t, lw, ctx, same, accepted => by
    obtain ⟨ct,bt,checked,-,checkedThen,-,rfl⟩ := checkExpr_ifThen accepted
    simp only [agreeExpr,agreeTail,Bool.and_true,Bool.and_eq_true,lowerExpr,
      lowerExpr_exact condition same checked,lowerBlock_exact thenBlock same.pushScope checkedThen]
    exact exact_typed2 (fun _ => lowerExpr_size condition checked) (fun _ _ _ => rfl)
      (fun _ _ => by simp [Ir.Expr.types,Ir.tailTypes]) fun _ _ _ _ _ _ => rfl
  | .ifExpr condition thenBlock (some elseExpr) span, self, E, t, lw, ctx, same, accepted => by
    obtain ⟨ct,bt,et,ty,checked,-,checkedThen,checkedElse,joined,rfl⟩ :=
      checkExpr_ifElse accepted
    rw [BcType.compatibleJoin_expected] at joined
    simp only [agreeExpr,agreeTail,Bool.and_eq_true,lowerExpr,
      lowerExpr_exact condition same checked,lowerBlock_exact thenBlock same.pushScope checkedThen,
      lowerExpr_exact elseExpr same checkedElse]
    constructor
    · rintro ⟨⟨⟨c,lowCond,sameCond⟩,b,lowThen,sameThen⟩,e,lowElse,sameElse⟩
      have join : b.ty.compatibleJoin e.ty none = some ty := by
        rw [ty_of_blockTypes checkedThen lowThen sameThen,ty_of_types checkedElse sameElse,joined]
      exact ⟨.ifExpr c b (some e) ty span,by simp [lowCond,lowThen,lowElse,join],
        by simp [Ir.Expr.types,Ir.tailTypes,Typing.node,sameCond,sameThen,sameElse]⟩
    · rintro ⟨ir,lowered,sameTypes⟩
      simp only [bind_lowers,pure_lowers] at lowered
      obtain ⟨c,lowCond,b,lowThen,e,lowElse,_,-,rfl⟩ := lowered
      simp only [Ir.Expr.types,Ir.tailTypes,Typing.node,List.append_assoc] at sameTypes
      obtain ⟨sameCond,rest⟩ :=
        List.append_inj sameTypes (lowerExpr_size condition checked lowCond)
      obtain ⟨sameThen,rest⟩ :=
        List.append_inj rest (lowerBlock_size thenBlock checkedThen lowThen)
      obtain ⟨sameElse,-⟩ := List.append_inj' rest rfl
      exact ⟨⟨⟨c,lowCond,sameCond⟩,b,lowThen,sameThen⟩,e,lowElse,sameElse⟩
  | .matchExpr scrutinee arms span, self, E, t, lw, ctx, same, accepted => by
    obtain ⟨st,types,seen,log,ty,checked,checkedArms,-,joined,rfl⟩ := checkExpr_matchExpr accepted
    simp only [agreeExpr,Bool.and_eq_true,checked,whenTyped_ok,lowerExpr,
      lowerExpr_exact scrutinee same checked,lowerArms_exact arms same checkedArms]
    constructor
    · rintro ⟨⟨s,lowScrut,sameScrut⟩,irs,lowArms,sameArms⟩
      have join : Lowering.matchType (irs.map fun arm => arm.body.ty) = some ty := by
        rw [armTypes_of_types arms checkedArms lowArms sameArms,matchType_lowers joined]
      rw [← ty_of_types checked sameScrut] at lowArms
      exact ⟨.matchExpr s irs ty span,by simp [lowScrut,lowArms,join],
        by simp [Ir.Expr.types,Typing.node,sameScrut,sameArms]⟩
    · rintro ⟨ir,lowered,sameTypes⟩
      simp only [bind_lowers,pure_lowers] at lowered
      obtain ⟨s,lowScrut,irs,lowArms,_,-,rfl⟩ := lowered
      simp only [Ir.Expr.types,Typing.node,List.append_assoc] at sameTypes
      obtain ⟨sameScrut,rest⟩ :=
        List.append_inj sameTypes (lowerExpr_size scrutinee checked lowScrut)
      obtain ⟨sameArms,-⟩ := List.append_inj' rest rfl
      rw [ty_of_types checked sameScrut] at lowArms
      exact ⟨⟨s,lowScrut,sameScrut⟩,irs,lowArms,sameArms⟩
  | .tryExpr call span, self, E, t, lw, ctx, same, accepted => by
    obtain ⟨ct,ok,err,_,_,checked,typed,-,-,rfl⟩ := checkExpr_tryExpr accepted
    simp only [agreeExpr,lowerExpr,lowerExpr_exact call same checked]
    exact exact_typed (fun _ => rfl) fun o _ sameExpr => by
      rw [ty_of_types checked sameExpr,typed]
      rfl
  | .arrayLit [] span, self, E, t, lw, ctx, same, accepted => by
    obtain ⟨elem,found,rfl⟩ := checkExpr_emptyArray accepted
    simp [agreeExpr,Exact,lowerExpr,Ir.Expr.types,Ir.exprsTypes,Typing.node,emptyElemType,
      same.array,found]
  | .arrayLit (first :: rest) span, self, E, t, lw, ctx, same, accepted => by
    obtain ⟨ft,log,checked,checkedRest,rfl⟩ := checkExpr_arrayLit accepted
    simp only [agreeExpr,Bool.and_eq_true,lowerExpr,lowerExpr_exact first same checked,
      lowerExprs_exact rest same checkedRest,checked,whenTyped_ok,beq_iff_eq,and_assoc]
    exact exact_node2 (fun _ => lowerExpr_size first checked) (fun _ _ _ => rfl)
      (fun _ _ => by simp only [Ir.Expr.types,Ir.exprsTypes]; rfl)
      fun h tail _ sameFirst lowered _ => by
        rw [ty_of_types checked sameFirst,List.length_cons,lowerExprs_length rest lowered,
          arrayLitType_context same]
        rfl
  | .structLit name fields span, self, E, t, lw, ctx, same, accepted => by
    obtain ⟨info,provided,log,known,checked,-,rfl⟩ := checkExpr_structLit accepted
    simp only [agreeExpr,lowerExpr,same.info,Analyzer.info,known,
      lowerFields_exact fields same checked]
    exact exact_typed (fun _ => rfl) fun _ _ _ => rfl
  | .enumConstructor enumName variant args span, self, E, t, lw, ctx, same, accepted => by
    by_cases result : enumName = "Result"
    · subst result
      obtain ⟨payload,ty,log,paid,checked,inferred,rfl⟩ := checkExpr_result accepted
      obtain ⟨ok,err,rfl⟩ := inferResultType_result inferred
      simp only [agreeExpr,beq_self_eq_true,if_true,Bool.and_eq_true,beq_iff_eq,inferred,paid,
        Option.toList_some,List.map_cons,List.map_nil,lowerArgs_exact args same checked,lowerExpr]
      by_cases agreed : self.inferResultType ctx.resultType = some (.result ok err)
      · have context : lw.resultContext = some (.result ok err) := by
          rcases resultContext_lowers same with found | ⟨missing,-⟩
          · rw [found,agreed]
          · simp [missing] at agreed
        have params : lw.payloadTypes "Result" variant = [payload] := by
          simp only [resultPayload,inferred] at paid
          split at paid
          next isOk => simp_all [Lowering.payloadTypes]
          next =>
            split at paid
            next isErr => simp_all [Lowering.payloadTypes]
            next => simp at paid
        simp only [agreed,true_and,params]
        exact exact_typed (fun _ => rfl) fun _ _ _ => by simp [constructorType,context]
      · simp only [agreed,false_and,false_iff]
        rintro ⟨ir,lowered,sameTypes⟩
        simp only [bind_lowers,pure_lowers] at lowered
        obtain ⟨irs,-,rfl⟩ := lowered
        have own := (List.append_inj' sameTypes rfl).2
        simp only [constructorType,beq_self_eq_true,if_true,List.cons.injEq,and_true] at own
        have context : lw.resultContext = some (.result ok err) := by
          cases found : lw.resultContext <;> simp_all
        rcases resultContext_lowers same with found | ⟨-,never⟩
        · exact agreed (found ▸ context)
        · exact never ok err context
    · obtain ⟨info,payload,log,known,found,arity,checked,rfl⟩ :=
        checkExpr_enumConstructor result accepted
      have args_ := checkPayload_args arity checked
      simp only [agreeExpr,beq_iff_eq,result,if_false,known,Option.bind_some,found,
        Option.getD_some,lowerArgs_exact args same args_,lowerExpr,Lowering.payloadTypes,same.info,
        Analyzer.info]
      exact exact_typed (fun _ => rfl) fun _ _ _ => by simp [constructorType,result]
theorem lowerParts_exact : ∀ (parts : List InterpolatedStringPart) {self : Analyzer}
    {result : Nat × Bool × List BcType} {lw : Lowering} {ctx : Context}, Matches lw self ctx →
    checkParts self parts = .ok result →
    (agreeParts self ctx parts = true ↔ Exact Ir.partsTypes (lowerParts lw parts) result.2.2)
  | [],self,result,lw,ctx,same,accepted => by
    simp only [checkParts,pure_accepts] at accepted
    simp [← accepted,agreeParts,Exact,lowerParts,Ir.partsTypes]
  | .text text :: parts,self,result,lw,ctx,same,accepted => by
    obtain ⟨_,_,checked⟩ := checkParts_text accepted
    simp only [agreeParts,lowerParts_exact parts same checked]
    constructor
    · rintro ⟨irs,lowParts,sameTypes⟩
      exact ⟨.text text :: irs,by simp [lowerParts,lowParts],sameTypes⟩
    · rintro ⟨irs,lowered,sameTypes⟩
      simp only [lowerParts,bind_lowers,pure_lowers] at lowered
      obtain ⟨rest,lowParts,rfl⟩ := lowered
      exact ⟨rest,lowParts,sameTypes⟩
  | .expr e :: parts,self,result,lw,ctx,same,accepted => by
    obtain ⟨et,_,_,log,checkedExpr,-,checked,last⟩ := checkParts_expr accepted
    simp only [agreeParts,Bool.and_eq_true,lowerParts,lowerExpr_exact e same checkedExpr,
      lowerParts_exact parts same checked]
    rw [last]
    exact exact_seq (fun _ => lowerExpr_size e checkedExpr) (fun _ _ _ => rfl)
      fun _ _ => rfl
theorem lowerExprs_exact : ∀ (es : List Expr) {self : Analyzer} {firstTy : BcType}
    {log : List BcType} {lw : Lowering} {ctx : Context}, Matches lw self ctx →
    checkElements self firstTy es = .ok log →
    (agreeElements self ctx es = true ↔ Exact Ir.exprsTypes (lowerExprs lw es) log)
  | [],self,firstTy,log,lw,ctx,same,accepted => by
    simp only [checkElements,pure_accepts] at accepted
    simp [← accepted,agreeElements,Exact,lowerExprs,Ir.exprsTypes]
  | e :: es,self,firstTy,log,lw,ctx,same,accepted => by
    obtain ⟨et,rest,checked,-,checkedRest,rfl⟩ := checkElements_cons accepted
    simp only [agreeElements,Bool.and_eq_true,lowerExprs,lowerExpr_exact e same checked,
      lowerExprs_exact es same checkedRest]
    exact exact_seq (fun _ => lowerExpr_size e checked) (fun _ _ _ => rfl) fun _ _ => rfl
theorem lowerArgs_exact : ∀ (args : List Expr) {self : Analyzer} {types : List (Option BcType)}
    {pushes log : List BcType} {lw : Lowering} {ctx : Context}, Matches lw self ctx →
    ArgsChecked self types args log →
    (agreeArgs self ctx types pushes args = true ↔
      Exact Ir.exprsTypes (lowerArgs lw pushes args) log)
  | [],self,types,pushes,log,lw,ctx,same,accepted => by
    cases accepted
    simp [agreeArgs,Exact,lowerArgs,Ir.exprsTypes]
  | arg :: args,self,types,pushes,log,lw,ctx,same,accepted => by
    cases accepted with
    | cons checked fits rest =>
      cases pushes with
      | nil =>
        simp only [agreeArgs,Bool.and_eq_true,lowerArgs,lowerExpr_exact arg same checked,
          lowerArgs_exact args same rest]
        exact exact_seq (fun _ => lowerExpr_size arg checked) (fun _ _ _ => rfl) fun _ _ => rfl
      | cons pushed pushes =>
        simp only [agreeArgs,Bool.and_eq_true,lowerArgs,
          lowerExpr_exact arg (same.withExpected pushed) checked,lowerArgs_exact args same rest]
        exact exact_seq (fun _ => lowerExpr_size arg checked) (fun _ _ _ => rfl) fun _ _ => rfl
theorem lowerFields_exact : ∀ (fields : List FieldInit) {self : Analyzer} {name : String}
    {known : StructInfo} {provided : List String} {result : List String × List BcType}
    {lw : Lowering} {ctx : Context}, Matches lw self ctx →
    checkFields self name known provided fields = .ok result →
    (agreeFields self ctx (some known) fields = true ↔
      Exact Ir.fieldsTypes (lowerFields lw (some known) fields) result.2)
  | [],self,name,known,provided,result,lw,ctx,same,accepted => by
    simp only [checkFields,pure_accepts] at accepted
    simp [← accepted,agreeFields,Exact,lowerFields,Ir.fieldsTypes]
  | .mk fname value span :: fields,self,name,known,provided,result,lw,ctx,same,accepted => by
    obtain ⟨ty,vt,_,log,found,checked,-,checkedRest,rfl⟩ := checkFields_cons accepted
    simp only [agreeFields,Option.bind_some,found,Bool.and_eq_true,lowerFields,
      lowerExpr_exact value (same.withExpected ty) checked,
      lowerFields_exact fields same checkedRest]
    exact exact_seq (fun _ => lowerExpr_size value checked) (fun _ _ _ => rfl) fun _ _ => rfl
theorem lowerArms_exact : ∀ (arms : List MatchArm) {self : Analyzer} {scrutTy : BcType}
    {span : Span} {E : Option BcType} {seen : List String}
    {result : List (BcType × Span) × List String × List BcType} {lw : Lowering} {ctx : Context},
    Matches lw self ctx → checkArms self scrutTy span E seen arms = .ok result →
    (agreeArms self scrutTy E ctx arms = true ↔
      Exact Ir.armsTypes (lowerArms lw scrutTy arms) result.2.2)
  | [],self,scrutTy,span,E,seen,result,lw,ctx,same,accepted => by
    simp only [checkArms,pure_accepts] at accepted
    simp [← accepted,agreeArms,Exact,lowerArms,Ir.armsTypes]
  | .mk pattern body armSpan :: arms,self,scrutTy,span,E,seen,result,lw,ctx,same,accepted => by
    obtain ⟨_,inner,bt,types,_,log,compatible,bound,checked,checkedRest,rfl⟩ :=
      checkArms_cons accepted
    obtain ⟨lwInner,lowBound,innerSame⟩ := same.pushScope.bindArm compatible bound
    simp only [agreeArms,bound,whenTyped_ok,Bool.and_eq_true,lowerArms,lowBound,
      lowerExpr_exact body innerSame.toMatches checked,lowerArms_exact arms same checkedRest]
    exact exact_seq (fun _ => lowerExpr_size body checked) (fun _ _ _ => rfl) fun _ _ => rfl
theorem lowerBlock_exact : ∀ (b : Block) {self : Analyzer} {E : Option BcType} {t : Typing}
    {lw : Lowering} {ctx : Context}, FramedMatch lw self.pushScope ctx →
    checkBlock self b E = .ok t →
    (agreeBlock self E ctx b = true ↔ Exact Ir.Block.types (lowerBlock lw b) t.log)
  | .mk stmts tail span,self,E,t,lw,ctx,same,accepted => by
    obtain ⟨inner,log,tt,checkedStmts,checkedTail,rfl⟩ := checkBlock_shape accepted
    simp only [agreeBlock,checkedStmts,whenTyped_ok,Bool.and_eq_true]
    exact exact_block same checkedStmts (lowerStmts_exact stmts same checkedStmts)
      fun _ innerSame => lowerTail_exact tail innerSame.toMatches checkedTail
theorem lowerLoopBody_exact : ∀ (b : Block) {self : Analyzer} {log : List BcType}
    {lw : Lowering} {ctx : Context}, FramedMatch lw self ctx → checkLoopBody self b = .ok log →
    (agreeLoopBody self ctx b = true ↔ Exact Ir.Block.types (lowerBlock lw b) log)
  | .mk stmts tail span,self,log,lw,ctx,same,accepted => by
    obtain ⟨inner,log,tt,checkedStmts,checkedTail,rfl⟩ := checkLoopBody_shape accepted
    simp only [agreeLoopBody,checkedStmts,whenTyped_ok,Bool.and_eq_true]
    exact exact_block same checkedStmts (lowerStmts_exact stmts same checkedStmts)
      fun _ innerSame => lowerTail_exact tail innerSame.toMatches checkedTail
theorem lowerTail_exact : ∀ (tail : Option Expr) {self : Analyzer} {E : Option BcType}
    {t : Typing} {lw : Lowering} {ctx : Context}, Matches lw self ctx →
    checkTail self E tail = .ok t →
    (agreeTail self E ctx tail = true ↔ Exact Ir.tailTypes (lowerTail lw tail) t.log)
  | none,self,E,t,lw,ctx,same,accepted => by
    simp [checkTail_none accepted,agreeTail,Exact,lowerTail,Ir.tailTypes]
  | some e,self,E,t,lw,ctx,same,accepted => by
    simp only [agreeTail,lowerExpr_exact e same (checkTail_some accepted)]
    constructor
    · rintro ⟨ir,lowExpr,sameTypes⟩
      exact ⟨some ir,by simp [lowerTail,lowExpr],sameTypes⟩
    · rintro ⟨ir,lowered,sameTypes⟩
      simp only [lowerTail,bind_lowers,pure_lowers] at lowered
      obtain ⟨ir,lowExpr,rfl⟩ := lowered
      exact ⟨ir,lowExpr,sameTypes⟩
theorem lowerStmts_exact : ∀ (stmts : List Stmt) {self next : Analyzer} {log : List BcType}
    {lw : Lowering} {ctx : Context}, FramedMatch lw self ctx →
    checkStmts self stmts = .ok (next,log) →
    (agreeStmts self ctx stmts = true ↔
      Exact (fun done => Ir.stmtsTypes done.2) (lowerStmts lw stmts) log)
  | [],self,next,log,lw,ctx,same,accepted => by
    obtain ⟨⟩ := checkStmts_nil accepted
    simp [agreeStmts,Exact,lowerStmts,Ir.stmtsTypes]
  | stmt :: stmts,self,next,log,lw,ctx,same,accepted => by
    obtain ⟨middle,log,last,rest,checked,checkedRest,⟨⟩⟩ := checkStmts_cons accepted
    have headIff := lowerStmt_exact stmt same checked
    simp only [agreeStmts,checked,whenTyped_ok,Bool.and_eq_true,headIff]
    constructor
    · rintro ⟨⟨⟨lw₁,ir⟩,lowHead,sameHead⟩,agreeRest⟩
      have middleSame := lowerStmt_next same checked lowHead
      obtain ⟨⟨lw₂,irs⟩,lowRest,sameRest⟩ :=
        (lowerStmts_exact stmts middleSame checkedRest).mp agreeRest
      refine ⟨(lw₂,ir :: irs),by simp [lowerStmts,lowHead,lowRest],?_⟩
      dsimp only at sameHead sameRest
      simp only [Ir.stmtsTypes,sameHead,sameRest]
    · rintro ⟨done,lowered,sameTypes⟩
      simp only [lowerStmts,bind_lowers,pure_lowers,Prod.exists] at lowered
      obtain ⟨lw₁,ir,lowHead,lw₂,irs,lowRest,rfl⟩ := lowered
      simp only [Ir.stmtsTypes] at sameTypes
      obtain ⟨sameHead,sameRest⟩ := List.append_inj sameTypes (lowerStmt_size stmt checked lowHead)
      have middleSame := lowerStmt_next same checked lowHead
      exact ⟨⟨_,lowHead,sameHead⟩,
        (lowerStmts_exact stmts middleSame checkedRest).mpr ⟨_,lowRest,sameRest⟩⟩
theorem lowerAccessors_exact : ∀ (accessors : List PlaceAccessor) {self : Analyzer}
    {use : PlaceUse} {ty : BcType} {span : Span} {result : BcType × List BcType}
    {lw : Lowering} {ctx : Context}, Matches lw self ctx →
    checkPlace self use ty span accessors = .ok result →
    (agreeAccessors self ctx accessors = true ↔
      Exact Ir.accessorsTypes (lowerAccessors lw accessors) result.2)
  | [],self,use,ty,span,result,lw,ctx,same,accepted => by
    simp [checkPlace_nil accepted,agreeAccessors,Exact,lowerAccessors,Ir.accessorsTypes]
  | .field field :: accessors,self,use,ty,span,result,lw,ctx,same,accepted => by
    obtain ⟨_,-,checked⟩ := checkPlace_field accepted
    simp only [agreeAccessors,lowerAccessors_exact accessors same checked]
    constructor
    · rintro ⟨irs,lowRest,sameTypes⟩
      exact ⟨.field field :: irs,by simp [lowerAccessors,lowRest],sameTypes⟩
    · rintro ⟨irs,lowered,sameTypes⟩
      simp only [lowerAccessors,bind_lowers,pure_lowers] at lowered
      obtain ⟨rest,lowRest,rfl⟩ := lowered
      exact ⟨rest,lowRest,sameTypes⟩
  | .index e :: accessors,self,use,ty,span,result,lw,ctx,same,accepted => by
    obtain ⟨it,elem,rest,checkedIndex,-,-,checked,last⟩ := checkPlace_index accepted
    simp only [agreeAccessors,Bool.and_eq_true,lowerAccessors,
      lowerExpr_exact e same checkedIndex,lowerAccessors_exact accessors same checked]
    rw [last]
    exact exact_seq (fun _ => lowerExpr_size e checkedIndex) (fun _ _ _ => rfl) fun _ _ => rfl
theorem lowerStmt_exact : ∀ (stmt : Stmt) {self next : Analyzer} {log : List BcType}
    {lw : Lowering} {ctx : Context}, FramedMatch lw self ctx →
    checkStmt self stmt = .ok (next,log) →
    (agreeStmt self ctx stmt = true ↔
      Exact (fun done => Ir.Stmt.types done.2) (lowerStmt lw stmt) log)
  | .letStmt name isMut ty value span,self,next,log,lw,ctx,same,accepted => by
    obtain ⟨expected,vt,after,resolved,checked,-,bound,⟨⟩⟩ := checkStmt_let accepted
    obtain ⟨lw₁,lowBound,-⟩ := same.bind bound
    simp only [agreeStmt,resolved,whenTyped_ok,
      lowerExpr_exact value (same.withExpected expected) checked]
    constructor
    · rintro ⟨ir,lowValue,sameTypes⟩
      exact ⟨(lw₁,.letStmt name isMut expected ir span),
        by simp [lowerStmt,same.resolveType ty resolved,lowValue,lowBound],sameTypes⟩
    · rintro ⟨done,lowered,sameTypes⟩
      simp only [lowerStmt,same.resolveType ty resolved,bind_lowers,pure_lowers] at lowered
      obtain ⟨ir,lowValue,_,-,rfl⟩ := lowered
      exact ⟨ir,lowValue,sameTypes⟩
  | .assign (.mk name accessors placeSpan) value span,self,next,log,lw,ctx,same,accepted => by
    obtain ⟨root,ty,placeLog,vt,found,place,checked,-,⟨⟩⟩ := checkStmt_assign accepted
    simp only [agreeStmt,found,place,whenTyped_ok,Bool.and_eq_true,lowerStmt,
      same.placeFinalType found place]
    exact exact_assign (fun _ => lowerAccessors_size accessors place)
      (lowerAccessors_exact accessors same.toMatches place)
      (lowerExpr_exact value (same.withExpected ty) checked) fun _ _ => rfl
  | .compoundAssign (.mk name accessors placeSpan) op value span,self,next,log,lw,ctx,same,
      accepted => by
    obtain ⟨root,ty,placeLog,vt,_,found,place,checked,-,⟨⟩⟩ := checkStmt_compoundAssign accepted
    simp only [agreeStmt,found,place,whenTyped_ok,Bool.and_eq_true,lowerStmt]
    exact exact_assign (fun _ => lowerAccessors_size accessors place)
      (lowerAccessors_exact accessors same.toMatches place)
      (lowerExpr_exact value same.toMatches checked) fun _ _ => rfl
  | .expr e span,self,next,log,lw,ctx,same,accepted => by
    obtain ⟨et,checked,⟨⟩⟩ := checkStmt_expr accepted
    simp only [agreeStmt,lowerExpr_exact e same.toMatches checked]
    exact exact_map (fun _ => rfl)
  | .whileStmt condition body span,self,next,log,lw,ctx,same,accepted => by
    obtain ⟨ct,bt,checked,-,checkedBody,⟨⟩⟩ := checkStmt_while accepted
    simp only [agreeStmt,Bool.and_eq_true,lowerStmt,
      lowerExpr_exact condition same.toMatches checked,
      lowerBlock_exact body same.toMatches.enterLoop.pushScope checkedBody]
    exact exact_seq (fun _ => lowerExpr_size condition checked) (fun _ _ _ => rfl) fun _ _ => rfl
  | .forStmt var start stop body span,self,next,log,lw,ctx,same,accepted => by
    obtain ⟨st,et,inner,bodyLog,checkedStart,-,checkedStop,-,bound,checkedBody,⟨⟩⟩ :=
      checkStmt_for accepted
    obtain ⟨lwInner,lowBound,innerSame⟩ := same.pushScope.bind bound
    simp only [agreeStmt,bound,whenTyped_ok,Bool.and_eq_true,and_assoc,lowerStmt,lowBound,
      lowerExpr_exact start same.toMatches checkedStart,
      lowerExpr_exact stop same.toMatches checkedStop,
      lowerLoopBody_exact body innerSame.enterLoop checkedBody]
    exact exact_seq3 (fun _ => lowerExpr_size start checkedStart)
      (fun _ => lowerExpr_size stop checkedStop) fun _ _ _ => rfl
  | .forIn var iterable body span,self,next,log,lw,ctx,same,accepted => by
    obtain ⟨it,elem,inner,bodyLog,checked,array,bound,checkedBody,⟨⟩⟩ := checkStmt_forIn accepted
    obtain ⟨lwInner,lowBound,innerSame⟩ := same.pushScope.bind bound
    simp only [agreeStmt,checked,array,Option.getD_some,bound,whenTyped_ok,Bool.and_eq_true,
      lowerExpr_exact iterable same.toMatches checked,
      lowerLoopBody_exact body innerSame.enterLoop checkedBody]
    constructor
    · rintro ⟨⟨i,lowIterable,sameIterable⟩,b,lowBody,sameBody⟩
      have elemTy : arrayElementType i.ty = some elem := by
        rw [ty_of_types checked sameIterable,array]
      exact ⟨(lw,.forIn var i b span),by simp [lowerStmt,lowIterable,elemTy,lowBound,lowBody],
        by simp only [Ir.Stmt.types,sameIterable,sameBody]⟩
    · rintro ⟨done,lowered,sameTypes⟩
      simp only [lowerStmt,bind_lowers,pure_lowers] at lowered
      obtain ⟨i,lowIterable,_,lowBound',b,lowBody,rfl⟩ := lowered
      simp only [Ir.Stmt.types] at sameTypes
      obtain ⟨sameIterable,sameBody⟩ :=
        List.append_inj sameTypes (lowerExpr_size iterable checked lowIterable)
      rw [ty_of_types checked sameIterable,array,Option.getD_some,lowBound] at lowBound'
      obtain rfl := Option.some.inj lowBound'
      exact ⟨⟨i,lowIterable,sameIterable⟩,b,lowBody,sameBody⟩
  | .returnStmt none span,self,next,log,lw,ctx,same,accepted => by
    obtain ⟨-,⟨⟩⟩ := checkStmt_returnUnit accepted
    simp [agreeStmt,agreeTail,Exact,lowerStmt,lowerTail,Ir.Stmt.types,Ir.tailTypes]
  | .returnStmt (some value) span,self,next,log,lw,ctx,same,accepted => by
    obtain ⟨vt,checked,-,⟨⟩⟩ := checkStmt_return accepted
    simp only [agreeStmt,agreeTail,lowerStmt,lowerTail,bind_assoc,pure_bind,
      lowerExpr_exact value same.withReturn checked]
    exact exact_map (fun _ => rfl)
  | .deferStmt e span,self,next,log,lw,ctx,same,accepted => by
    obtain ⟨_,_,_,et,-,checked,⟨⟩⟩ := checkStmt_defer accepted
    simp only [agreeStmt,lowerExpr_exact e same.toMatches checked]
    exact exact_map (fun _ => rfl)
  | .breakStmt span,self,next,log,lw,ctx,same,accepted => by
    obtain ⟨-,⟨⟩⟩ := checkStmt_break accepted
    simp [agreeStmt,Exact,lowerStmt,Ir.Stmt.types]
  | .continueStmt span,self,next,log,lw,ctx,same,accepted => by
    obtain ⟨-,⟨⟩⟩ := checkStmt_continue accepted
    simp [agreeStmt,Exact,lowerStmt,Ir.Stmt.types]
end

end Oscan
