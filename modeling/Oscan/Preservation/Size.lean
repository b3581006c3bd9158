import Oscan.Preservation.Context

/-! Lowering keeps the shape of what the checker accepted: both record as many types. No
context enters here, so the two may start from unrelated states. -/
namespace Oscan
open Ast Semantic Semantic.Analyzer

@[simp] theorem bind_lowers {α β : Type} (x : Lower α) (f : α → Lower β) (b : β) :
    (x >>= f) = some b ↔ ∃ a, x = some a ∧ f a = some b := by
  cases x <;> simp

@[simp] theorem pure_lowers {α : Type} (a b : α) : (pure a : Lower α) = some b ↔ a = b := by
  simp

namespace Lowering

variable {lw : Lowering}

theorem lowerIndexedArgs_eq : ∀ {types : List BcType} {args : List Expr},
    args.length = types.length → lowerIndexedArgs lw types args = lowerArgs lw types args
  | [],[],_ => by simp [lowerIndexedArgs,lowerArgs]
  | ty :: types,arg :: args,same => by
    have tail : lowerIndexedArgs lw types args = lowerArgs lw types args :=
      lowerIndexedArgs_eq (by simpa using same)
    simp [lowerIndexedArgs,lowerArgs,tail]

theorem restTypes_length (intrinsic : CollectionIntrinsic) (a b : BcType) :
    (restTypes intrinsic a).length = (restTypes intrinsic b).length := by
  unfold restTypes
  split <;> rfl

/-- The context of the first argument of a collection call. -/
def firstContext (lw : Lowering) (intrinsic : CollectionIntrinsic) : Lowering :=
  match intrinsic.source with
  | none => lw
  | some source => lw.withExpected (.array source.bcType)

/-- The element type by which lowering chooses the types of the further arguments. -/
def elemType (intrinsic : CollectionIntrinsic) (firstTy : BcType) : BcType :=
  (intrinsic.source.map CoreType.bcType).getD ((arrayElementType firstTy).getD .unit)

private theorem genericArgTypes_rest {intrinsic : CollectionIntrinsic}
    (generic : CollectionIntrinsic.isGeneric intrinsic.op = true) (elemTy : BcType) :
    genericArgTypes intrinsic.op elemTy = some (restTypes intrinsic elemTy) := by
  cases op : intrinsic.op <;> simp_all [CollectionIntrinsic.isGeneric,genericArgTypes,restTypes]

private theorem intrinsicParamTypes_rest {intrinsic : CollectionIntrinsic} {source : CoreType}
    (sourced : intrinsic.source = some source)
    (typed : CollectionIntrinsic.isGeneric intrinsic.op = false)
    (mapped : intrinsic.op = .map → ∃ target, intrinsic.target = some target) :
    intrinsicParamTypes intrinsic source =
      some (some (.array source.bcType :: restTypes intrinsic source.bcType)) := by
  cases op : intrinsic.op
  case map =>
    obtain ⟨target,known⟩ := mapped op
    simp [intrinsicParamTypes,restTypes,op,CollectionIntrinsic.callbackType,sourced,known]
  all_goals
    simp_all [CollectionIntrinsic.isGeneric,intrinsicParamTypes,restTypes,
      CollectionIntrinsic.callbackType]

/-- A collection call: its first argument, then the others under types that depend on it. -/
theorem lowerExpr_collection {name : String} {intrinsic : CollectionIntrinsic} {first : Expr}
    {rest : List Expr} {nameSpan span : Span}
    (resolved : CollectionIntrinsic.resolveWithAlias name = some intrinsic)
    (arity : rest.length = (restTypes intrinsic .unit).length) :
    lowerExpr lw (.call (.ident name nameSpan) (first :: rest) span) = (do
      let head ← lowerExpr (lw.firstContext intrinsic) first
      let tail ← lowerArgs lw (restTypes intrinsic (elemType intrinsic head.ty)) rest
      return .call (.collection intrinsic) (head :: tail) (collectionType intrinsic head.ty)
        span) := by
  obtain ⟨generic,typed,mapped⟩ := CollectionIntrinsic.resolveWithAlias_shape resolved
  have result (ty : BcType) : collectionResultType intrinsic ty =
      some (collectionType intrinsic ty) := by
    cases op : intrinsic.op
    case map =>
      obtain ⟨target,known⟩ := mapped op
      simp [collectionResultType,collectionType,op,known]
    all_goals simp [collectionResultType,collectionType,op]
  have size (ty : BcType) : rest.length = (restTypes intrinsic ty).length := by
    rw [arity,restTypes_length]
  simp only [lowerExpr,resolved,callResultType,resolveCallee]
  cases shape : CollectionIntrinsic.isGeneric intrinsic.op with
  | true =>
    obtain ⟨op,source,target⟩ := intrinsic
    obtain rfl : source = none := generic shape
    simp [lowerGenericCollectionArgs,genericArgTypes_rest shape,firstContext,elemType,
      lowerIndexedArgs_eq (size _),result,Option.bind_assoc]
  | false =>
    obtain ⟨source,sourced⟩ := typed shape
    have params : lw.paramTypesFor name =
        some (some (.array source.bcType :: restTypes intrinsic source.bcType)) := by
      simp [paramTypesFor,resolved,sourced,intrinsicParamTypes_rest sourced shape mapped]
    obtain ⟨op,_,target⟩ := intrinsic
    obtain rfl := sourced
    simp [params,lowerArgs,firstContext,elemType,result,Option.bind_assoc]

/-- The type lowering gives a call of anything but a collection intrinsic. -/
def namedCallType (lw : Lowering) (name : String) : BcType :=
  if name = "len" then .i32 else if name = "push" then .unit else lw.namedReturnType name

theorem lowerExpr_named {name : String} {args : List Expr} {nameSpan span : Span}
    (free : CollectionIntrinsic.resolveWithAlias name = none) :
    lowerExpr lw (.call (.ident name nameSpan) args span) = (do
      let lowered ← lowerArgs lw ((lw.namedParamTypes name).getD []) args
      return .call (lw.resolveCallee name) lowered (lw.namedCallType name) span) := by
  simp only [lowerExpr,free,paramTypesFor,callResultType,namedCallType]
  by_cases len : name = "len"
  · simp [len]
  · by_cases push : name = "push" <;> simp [len,push]

variable {self : Analyzer} {E : Option BcType} {t : Typing}

mutual
theorem lowerExpr_size : ∀ (e : Expr) {self : Analyzer} {E : Option BcType} {t : Typing}
    {lw : Lowering} {ir : Ir.Expr}, checkExpr self E e = .ok t → lowerExpr lw e = some ir →
    ir.types.length = t.log.length
  | .intLit .., self, E, t, lw, ir, accepted, lowered => by
    simp only [checkExpr,unless_accepts,pure_accepts] at accepted
    simp only [lowerExpr,Option.some.injEq] at lowered
    simp [← accepted.2,← lowered,Ir.Expr.types,Typing.node]
  | .floatLit .., self, E, t, lw, ir, accepted, lowered
  | .stringLit .., self, E, t, lw, ir, accepted, lowered
  | .boolLit .., self, E, t, lw, ir, accepted, lowered => by
    simp only [checkExpr,pure_accepts] at accepted
    simp only [lowerExpr,Option.some.injEq] at lowered
    simp [← accepted,← lowered,Ir.Expr.types,Typing.node]
  | .ident .., self, E, t, lw, ir, accepted, lowered => by
    obtain ⟨ty,-,rfl⟩ := checkExpr_ident accepted
    simp only [lowerExpr,Option.some.injEq] at lowered
    simp [← lowered,Ir.Expr.types,Typing.node]
  | .interpolatedString parts span, self, E, t, lw, ir, accepted, lowered => by
    obtain ⟨_,_,log,checked,rfl⟩ := checkExpr_interpolatedString accepted
    simp only [lowerExpr,bind_lowers,pure_lowers] at lowered
    obtain ⟨irs,loweredParts,rfl⟩ := lowered
    simp [Ir.Expr.types,Typing.node,lowerParts_size parts checked loweredParts]
  | .binaryOp op left right span, self, E, t, lw, ir, accepted, lowered => by
    obtain ⟨lt,rt,ty,checkedLeft,checkedRight,-,rfl⟩ := checkExpr_binaryOp accepted
    simp only [lowerExpr,bind_lowers,pure_lowers] at lowered
    obtain ⟨l,loweredLeft,r,loweredRight,rfl⟩ := lowered
    simp [Ir.Expr.types,Typing.node,lowerExpr_size left checkedLeft loweredLeft,
      lowerExpr_size right checkedRight loweredRight]
  | .unaryOp op operand span, self, E, t, lw, ir, accepted, lowered => by
    obtain ⟨ot,ty,checked,-,rfl⟩ := checkExpr_unaryOp accepted
    simp only [lowerExpr,bind_lowers,pure_lowers] at lowered
    obtain ⟨o,loweredOperand,rfl⟩ := lowered
    simp [Ir.Expr.types,Typing.node,lowerExpr_size operand checked loweredOperand]
  | .cast e ty span, self, E, t, lw, ir, accepted, lowered => by
    obtain ⟨et,target,checked,-,-,rfl⟩ := checkExpr_cast accepted
    simp only [lowerExpr,bind_lowers,pure_lowers] at lowered
    obtain ⟨o,loweredExpr,rfl⟩ := lowered
    simp [Ir.Expr.types,Typing.node,lowerExpr_size e checked loweredExpr]
  | .call callee [] span, self, E, t, lw, ir, accepted, lowered => by
    obtain ⟨name,nameSpan,rfl,checked⟩ := checkExpr_call accepted
    cases resolved : CollectionIntrinsic.resolveWithAlias name with
    | some intrinsic =>
      obtain ⟨_,_,_,_,empty,-⟩ := checked.ofCollection resolved
      simp at empty
    | none =>
      obtain ⟨types,log,ty,args,rfl⟩ := checked.args
      simp only [lowerExpr_named resolved,bind_lowers,pure_lowers] at lowered
      obtain ⟨irs,loweredArgs,rfl⟩ := lowered
      simp [Ir.Expr.types,Typing.node,lowerArgs_size [] args loweredArgs]
  | .call callee (first :: rest) span, self, E, t, lw, ir, accepted, lowered => by
    obtain ⟨name,nameSpan,rfl,checked⟩ := checkExpr_call accepted
    cases resolved : CollectionIntrinsic.resolveWithAlias name with
    | some intrinsic =>
      obtain ⟨_,_,ft,log,⟨⟩,head,tail,-,rfl⟩ := checked.ofCollection resolved
      have arity : rest.length = (restTypes intrinsic .unit).length := by
        simpa [restTypes_length intrinsic _ .unit] using tail.length
      simp only [lowerExpr_collection resolved arity,bind_lowers,pure_lowers] at lowered
      obtain ⟨f,loweredFirst,irs,loweredRest,rfl⟩ := lowered
      simp [Ir.Expr.types,Ir.exprsTypes,Typing.node,lowerExpr_size first head loweredFirst,
        lowerArgs_size rest tail loweredRest]
    | none =>
      obtain ⟨types,log,ty,args,rfl⟩ := checked.args
      simp only [lowerExpr_named resolved,bind_lowers,pure_lowers] at lowered
      obtain ⟨irs,loweredArgs,rfl⟩ := lowered
      simp [Ir.Expr.types,Typing.node,lowerArgs_size (first :: rest) args loweredArgs]
  | .fieldAccess e field span, self, E, t, lw, ir, accepted, lowered => by
    obtain ⟨et,ty,checked,-,rfl⟩ := checkExpr_fieldAccess accepted
    simp only [lowerExpr,bind_lowers,pure_lowers] at lowered
    obtain ⟨o,loweredExpr,rfl⟩ := lowered
    simp [Ir.Expr.types,Typing.node,lowerExpr_size e checked loweredExpr]
  | .index e index span, self, E, t, lw, ir, accepted, lowered => by
    obtain ⟨et,it,ty,checked,checkedIndex,-,-,rfl⟩ := checkExpr_index accepted
    simp only [lowerExpr,bind_lowers,pure_lowers] at lowered
    obtain ⟨l,loweredExpr,r,loweredIndex,rfl⟩ := lowered
    simp [Ir.Expr.types,Typing.node,lowerExpr_size e checked loweredExpr,
      lowerExpr_size index checkedIndex loweredIndex]
  | .block b, self, E, t, lw, ir, accepted, lowered => by
    obtain ⟨bt,checked,rfl⟩ := checkExpr_block accepted
    simp only [lowerExpr,bind_lowers,pure_lowers] at lowered
    obtain ⟨o,loweredBlock,rfl⟩ := lowered
    simp [Ir.Expr.types,Typing.node,lowerBlock_size b checked loweredBlock]
  | .arena b span, self, E, t, lw, ir, accepted, lowered => by
    obtain ⟨bt,checked,-,-,rfl⟩ := checkExpr_arena accepted
    simp only [lowerExpr,bind_lowers,pure_lowers] at lowered
    obtain ⟨o,loweredBlock,rfl⟩ := lowered
    simp [Ir.Expr.types,Typing.node,lowerBlock_size b checked loweredBlock]
  | .ifExpr condition thenBlock none span, self, E, t, lw, ir, accepted, lowered => by
    obtain ⟨ct,bt,checked,-,checkedThen,-,rfl⟩ := checkExpr_ifThen accepted
    simp only [lowerExpr,bind_lowers,pure_lowers] at lowered
    obtain ⟨c,loweredCond,b,loweredThen,rfl⟩ := lowered
    simp [Ir.Expr.types,Ir.tailTypes,Typing.node,lowerExpr_size condition checked loweredCond,
      lowerBlock_size thenBlock checkedThen loweredThen]
  | .ifExpr condition thenBlock (some elseExpr) span, self, E, t, lw, ir, accepted, lowered => by
    obtain ⟨ct,bt,et,ty,checked,-,checkedThen,checkedElse,-,rfl⟩ := checkExpr_ifElse accepted
    simp only [lowerExpr,bind_lowers,pure_lowers] at lowered
    obtain ⟨c,loweredCond,b,loweredThen,e,loweredElse,ty,-,rfl⟩ := lowered
    simp [Ir.Expr.types,Ir.tailTypes,Typing.node,lowerExpr_size condition checked loweredCond,
      lowerBlock_size thenBlock checkedThen loweredThen,
      lowerExpr_size elseExpr checkedElse loweredElse]
  | .matchExpr scrutinee arms span, self, E, t, lw, ir, accepted, lowered => by
    obtain ⟨st,types,seen,log,ty,checked,checkedArms,-,-,rfl⟩ := checkExpr_matchExpr accepted
    simp only [lowerExpr,bind_lowers,pure_lowers] at lowered
    obtain ⟨s,loweredScrutinee,irs,loweredArms,ty,-,rfl⟩ := lowered
    simp [Ir.Expr.types,Typing.node,lowerExpr_size scrutinee checked loweredScrutinee,
      lowerArms_size arms checkedArms loweredArms]
  | .tryExpr call span, self, E, t, lw, ir, accepted, lowered => by
    obtain ⟨ct,ok,err,_,_,checked,-,-,-,rfl⟩ := checkExpr_tryExpr accepted
    simp only [lowerExpr,bind_lowers,pure_lowers] at lowered
    obtain ⟨o,loweredExpr,rfl⟩ := lowered
    simp [Ir.Expr.types,Typing.node,lowerExpr_size call checked loweredExpr]
  | .arrayLit [] span, self, E, t, lw, ir, accepted, lowered => by
    obtain ⟨elem,-,rfl⟩ := checkExpr_emptyArray accepted
    simp only [lowerExpr,Option.some.injEq] at lowered
    simp [← lowered,Ir.Expr.types,Ir.exprsTypes,Typing.node]
  | .arrayLit (first :: rest) span, self, E, t, lw, ir, accepted, lowered => by
    obtain ⟨ft,log,checked,checkedRest,rfl⟩ := checkExpr_arrayLit accepted
    simp only [lowerExpr,bind_lowers,pure_lowers] at lowered
    obtain ⟨f,loweredFirst,irs,loweredRest,rfl⟩ := lowered
    simp [Ir.Expr.types,Ir.exprsTypes,Typing.node,lowerExpr_size first checked loweredFirst,
      lowerExprs_size rest checkedRest loweredRest]
  | .structLit name fields span, self, E, t, lw, ir, accepted, lowered => by
    obtain ⟨info,provided,log,-,checked,-,rfl⟩ := checkExpr_structLit accepted
    simp only [lowerExpr,bind_lowers,pure_lowers] at lowered
    obtain ⟨irs,loweredFields,rfl⟩ := lowered
    simp [Ir.Expr.types,Typing.node,lowerFields_size fields checked loweredFields]
  | .enumConstructor enumName variant args span, self, E, t, lw, ir, accepted, lowered => by
    simp only [lowerExpr,bind_lowers,pure_lowers] at lowered
    obtain ⟨irs,loweredArgs,rfl⟩ := lowered
    by_cases result : enumName = "Result"
    · subst result
      obtain ⟨payload,ty,log,-,checked,-,rfl⟩ := checkExpr_result accepted
      simp [Ir.Expr.types,Typing.node,lowerArgs_size args checked loweredArgs]
    · obtain ⟨info,payload,log,-,-,arity,checked,rfl⟩ :=
        checkExpr_enumConstructor result accepted
      simp [Ir.Expr.types,Typing.node,
        lowerArgs_size args (checkPayload_args arity checked) loweredArgs]
termination_by structural e => e
theorem lowerParts_size : ∀ (parts : List InterpolatedStringPart) {self : Analyzer}
    {result : Nat × Bool × List BcType} {lw : Lowering} {irs : List Ir.InterpolatedStringPart},
    checkParts self parts = .ok result → lowerParts lw parts = some irs →
    (Ir.partsTypes irs).length = result.2.2.length
  | [],self,result,lw,irs,accepted,lowered => by
    simp only [checkParts,pure_accepts] at accepted
    simp only [lowerParts,Option.some.injEq] at lowered
    simp [← accepted,← lowered,Ir.partsTypes]
  | .text text :: parts,self,result,lw,irs,accepted,lowered => by
    obtain ⟨_,_,checked⟩ := checkParts_text accepted
    simp only [lowerParts,bind_lowers,pure_lowers] at lowered
    obtain ⟨irs,loweredParts,rfl⟩ := lowered
    simp [Ir.partsTypes,lowerParts_size parts checked loweredParts]
  | .expr e :: parts,self,result,lw,irs,accepted,lowered => by
    obtain ⟨et,_,_,log,checkedExpr,-,checked,same⟩ := checkParts_expr accepted
    simp only [lowerParts,bind_lowers,pure_lowers] at lowered
    obtain ⟨ir,loweredExpr,irs,loweredParts,rfl⟩ := lowered
    simp [Ir.partsTypes,same,lowerExpr_size e checkedExpr loweredExpr,
      lowerParts_size parts checked loweredParts]
termination_by structural e => e
theorem lowerExprs_size : ∀ (es : List Expr) {self : Analyzer} {firstTy : BcType}
    {log : List BcType} {lw : Lowering} {irs : List Ir.Expr},
    checkElements self firstTy es = .ok log → lowerExprs lw es = some irs →
    (Ir.exprsTypes irs).length = log.length
  | [],self,firstTy,log,lw,irs,accepted,lowered => by
    simp only [checkElements,pure_accepts] at accepted
    simp only [lowerExprs,Option.some.injEq] at lowered
    simp [← accepted,← lowered,Ir.exprsTypes]
  | e :: es,self,firstTy,log,lw,irs,accepted,lowered => by
    obtain ⟨et,rest,checked,-,checkedRest,rfl⟩ := checkElements_cons accepted
    simp only [lowerExprs,bind_lowers,pure_lowers] at lowered
    obtain ⟨ir,loweredExpr,irs,loweredRest,rfl⟩ := lowered
    simp [Ir.exprsTypes,lowerExpr_size e checked loweredExpr,
      lowerExprs_size es checkedRest loweredRest]
termination_by structural e => e
theorem lowerArgs_size : ∀ (args : List Expr) {self : Analyzer} {types : List (Option BcType)}
    {pushes log : List BcType} {lw : Lowering} {irs : List Ir.Expr},
    ArgsChecked self types args log → lowerArgs lw pushes args = some irs →
    (Ir.exprsTypes irs).length = log.length
  | [],self,types,pushes,log,lw,irs,accepted,lowered => by
    cases accepted
    simp only [lowerArgs,Option.some.injEq] at lowered
    simp [← lowered,Ir.exprsTypes]
  | arg :: args,self,types,pushes,log,lw,irs,accepted,lowered => by
    cases accepted with
    | cons checked fits rest =>
      cases pushes with
      | nil =>
        simp only [lowerArgs,bind_lowers,pure_lowers] at lowered
        obtain ⟨ir,loweredExpr,irs,loweredRest,rfl⟩ := lowered
        simp [Ir.exprsTypes,lowerExpr_size arg checked loweredExpr,
          lowerArgs_size args rest loweredRest]
      | cons pushed pushes =>
        simp only [lowerArgs,bind_lowers,pure_lowers] at lowered
        obtain ⟨ir,loweredExpr,irs,loweredRest,rfl⟩ := lowered
        simp [Ir.exprsTypes,lowerExpr_size arg checked loweredExpr,
          lowerArgs_size args rest loweredRest]
termination_by structural e => e
theorem lowerFields_size : ∀ (fields : List FieldInit) {self : Analyzer} {name : String}
    {info : StructInfo} {provided : List String} {result : List String × List BcType}
    {lw : Lowering} {known : Option StructInfo} {irs : List Ir.FieldInit},
    checkFields self name info provided fields = .ok result →
    lowerFields lw known fields = some irs → (Ir.fieldsTypes irs).length = result.2.length
  | [],self,name,info,provided,result,lw,known,irs,accepted,lowered => by
    simp only [checkFields,pure_accepts] at accepted
    simp only [lowerFields,Option.some.injEq] at lowered
    simp [← accepted,← lowered,Ir.fieldsTypes]
  | .mk fname value span :: fields,self,name,info,provided,result,lw,known,irs,accepted,lowered => by
    obtain ⟨ty,vt,_,log,-,checked,-,checkedRest,rfl⟩ := checkFields_cons accepted
    simp only [lowerFields] at lowered
    split at lowered <;>
    · simp only [bind_lowers,pure_lowers] at lowered
      obtain ⟨ir,loweredExpr,irs,loweredRest,rfl⟩ := lowered
      simp [Ir.fieldsTypes,lowerExpr_size value checked loweredExpr,
        lowerFields_size fields checkedRest loweredRest]
termination_by structural e => e
theorem lowerArms_size : ∀ (arms : List MatchArm) {self : Analyzer} {scrutTy lowTy : BcType}
    {span : Span} {E : Option BcType} {seen : List String}
    {result : List (BcType × Span) × List String × List BcType} {lw : Lowering}
    {irs : List Ir.MatchArm}, checkArms self scrutTy span E seen arms = .ok result →
    lowerArms lw lowTy arms = some irs → (Ir.armsTypes irs).length = result.2.2.length
  | [],self,scrutTy,lowTy,span,E,seen,result,lw,irs,accepted,lowered => by
    simp only [checkArms,pure_accepts] at accepted
    simp only [lowerArms,Option.some.injEq] at lowered
    simp [← accepted,← lowered,Ir.armsTypes]
  | .mk pattern body armSpan :: arms,self,scrutTy,lowTy,span,E,seen,result,lw,irs,accepted,lowered => by
    obtain ⟨_,inner,bt,types,_,log,-,-,checked,checkedRest,rfl⟩ := checkArms_cons accepted
    simp only [lowerArms,bind_lowers,pure_lowers] at lowered
    obtain ⟨_,-,ir,loweredBody,irs,loweredRest,rfl⟩ := lowered
    simp [Ir.armsTypes,lowerExpr_size body checked loweredBody,
      lowerArms_size arms checkedRest loweredRest]
termination_by structural e => e
theorem lowerBlock_size : ∀ (b : Block) {self : Analyzer} {E : Option BcType} {t : Typing}
    {lw : Lowering} {ir : Ir.Block}, checkBlock self b E = .ok t → lowerBlock lw b = some ir →
    ir.types.length = t.log.length
  | .mk stmts tail span,self,E,t,lw,ir,accepted,lowered => by
    obtain ⟨inner,log,tt,checkedStmts,checkedTail,rfl⟩ := checkBlock_shape accepted
    simp only [lowerBlock,bind_lowers,pure_lowers,Prod.exists] at lowered
    obtain ⟨last,irs,loweredStmts,tailIr,loweredTail,rfl⟩ := lowered
    simp [Ir.Block.types,lowerStmts_size stmts checkedStmts loweredStmts,
      lowerTail_size tail checkedTail loweredTail]
termination_by structural e => e
theorem lowerLoopBody_size : ∀ (b : Block) {self : Analyzer} {log : List BcType}
    {lw : Lowering} {ir : Ir.Block}, checkLoopBody self b = .ok log → lowerBlock lw b = some ir →
    ir.types.length = log.length
  | .mk stmts tail span,self,log,lw,ir,accepted,lowered => by
    obtain ⟨inner,log,tt,checkedStmts,checkedTail,rfl⟩ := checkLoopBody_shape accepted
    simp only [lowerBlock,bind_lowers,pure_lowers,Prod.exists] at lowered
    obtain ⟨last,irs,loweredStmts,tailIr,loweredTail,rfl⟩ := lowered
    simp [Ir.Block.types,lowerStmts_size stmts checkedStmts loweredStmts,
      lowerTail_size tail checkedTail loweredTail]
termination_by structural e => e
theorem lowerTail_size : ∀ (tail : Option Expr) {self : Analyzer} {E : Option BcType}
    {t : Typing} {lw : Lowering} {ir : Option Ir.Expr}, checkTail self E tail = .ok t →
    lowerTail lw tail = some ir → (Ir.tailTypes ir).length = t.log.length
  | none,self,E,t,lw,ir,accepted,lowered => by
    obtain rfl := checkTail_none accepted
    simp only [lowerTail,Option.some.injEq] at lowered
    simp [← lowered,Ir.tailTypes]
  | some e,self,E,t,lw,ir,accepted,lowered => by
    have checked := checkTail_some accepted
    simp only [lowerTail,bind_lowers,pure_lowers] at lowered
    obtain ⟨ir,loweredExpr,rfl⟩ := lowered
    simp [Ir.tailTypes,lowerExpr_size e checked loweredExpr]
termination_by structural e => e
theorem lowerStmts_size : ∀ (stmts : List Stmt) {self : Analyzer}
    {result : Analyzer × List BcType} {lw : Lowering} {lowResult : Lowering × List Ir.Stmt},
    checkStmts self stmts = .ok result → lowerStmts lw stmts = some lowResult →
    (Ir.stmtsTypes lowResult.2).length = result.2.length
  | [],self,result,lw,lowResult,accepted,lowered => by
    obtain rfl := checkStmts_nil accepted
    simp only [lowerStmts,Option.some.injEq] at lowered
    simp [← lowered,Ir.stmtsTypes]
  | stmt :: stmts,self,result,lw,lowResult,accepted,lowered => by
    obtain ⟨next,log,last,rest,checked,checkedRest,rfl⟩ := checkStmts_cons accepted
    simp only [lowerStmts,bind_lowers,pure_lowers,Prod.exists] at lowered
    obtain ⟨lowNext,ir,loweredStmt,lowLast,irs,loweredRest,rfl⟩ := lowered
    have head := lowerStmt_size stmt checked loweredStmt
    have tail := lowerStmts_size stmts checkedRest loweredRest
    simp_all [Ir.stmtsTypes]
termination_by structural e => e
theorem lowerAccessors_size : ∀ (accessors : List PlaceAccessor) {self : Analyzer}
    {use : PlaceUse} {ty : BcType} {span : Span} {result : BcType × List BcType}
    {lw : Lowering} {irs : List Ir.PlaceAccessor},
    checkPlace self use ty span accessors = .ok result → lowerAccessors lw accessors = some irs →
    (Ir.accessorsTypes irs).length = result.2.length
  | [],self,use,ty,span,result,lw,irs,accepted,lowered => by
    obtain rfl := checkPlace_nil accepted
    simp only [lowerAccessors,Option.some.injEq] at lowered
    simp [← lowered,Ir.accessorsTypes]
  | .field field :: accessors,self,use,ty,span,result,lw,irs,accepted,lowered => by
    obtain ⟨_,-,checked⟩ := checkPlace_field accepted
    simp only [lowerAccessors,bind_lowers,pure_lowers] at lowered
    obtain ⟨irs,loweredRest,rfl⟩ := lowered
    simp [Ir.accessorsTypes,lowerAccessors_size accessors checked loweredRest]
  | .index e :: accessors,self,use,ty,span,result,lw,irs,accepted,lowered => by
    obtain ⟨it,elem,rest,checkedIndex,-,-,checked,same⟩ := checkPlace_index accepted
    simp only [lowerAccessors,bind_lowers,pure_lowers] at lowered
    obtain ⟨ir,loweredIndex,irs,loweredRest,rfl⟩ := lowered
    rw [same]
    simp [Ir.accessorsTypes,lowerExpr_size e checkedIndex loweredIndex,
      lowerAccessors_size accessors checked loweredRest]
termination_by structural e => e
theorem lowerStmt_size : ∀ (stmt : Stmt) {self : Analyzer} {result : Analyzer × List BcType}
    {lw : Lowering} {lowResult : Lowering × Ir.Stmt}, checkStmt self stmt = .ok result →
    lowerStmt lw stmt = some lowResult → lowResult.2.types.length = result.2.length
  | .letStmt name isMut ty value span,self,result,lw,lowResult,accepted,lowered => by
    obtain ⟨_,vt,next,-,checked,-,-,rfl⟩ := checkStmt_let accepted
    simp only [lowerStmt,bind_lowers,pure_lowers] at lowered
    obtain ⟨ir,loweredValue,_,-,rfl⟩ := lowered
    simp [Ir.Stmt.types,lowerExpr_size value checked loweredValue]
  | .assign (.mk name accessors placeSpan) value span,self,result,lw,lowResult,accepted,lowered => by
    obtain ⟨root,ty,log,vt,-,checkedPlace,checked,-,rfl⟩ := checkStmt_assign accepted
    simp only [lowerStmt,lowerPlace,bind_lowers,pure_lowers] at lowered
    obtain ⟨ir,loweredValue,_,⟨irs,loweredPlace,rfl⟩,rfl⟩ := lowered
    simp [Ir.Stmt.types,Ir.Place.types,lowerExpr_size value checked loweredValue,
      lowerAccessors_size accessors checkedPlace loweredPlace]
  | .compoundAssign (.mk name accessors placeSpan) op value span,self,result,lw,lowResult,accepted,
      lowered => by
    obtain ⟨root,ty,log,vt,_,-,checkedPlace,checked,-,rfl⟩ := checkStmt_compoundAssign accepted
    simp only [lowerStmt,lowerPlace,bind_lowers,pure_lowers] at lowered
    obtain ⟨ir,loweredValue,_,⟨irs,loweredPlace,rfl⟩,rfl⟩ := lowered
    simp [Ir.Stmt.types,Ir.Place.types,lowerExpr_size value checked loweredValue,
      lowerAccessors_size accessors checkedPlace loweredPlace]
  | .expr e span,self,result,lw,lowResult,accepted,lowered => by
    obtain ⟨et,checked,rfl⟩ := checkStmt_expr accepted
    simp only [lowerStmt,bind_lowers,pure_lowers] at lowered
    obtain ⟨ir,loweredExpr,rfl⟩ := lowered
    simp [Ir.Stmt.types,lowerExpr_size e checked loweredExpr]
  | .whileStmt condition body span,self,result,lw,lowResult,accepted,lowered => by
    obtain ⟨ct,bt,checked,-,checkedBody,rfl⟩ := checkStmt_while accepted
    simp only [lowerStmt,bind_lowers,pure_lowers] at lowered
    obtain ⟨c,loweredCond,b,loweredBody,rfl⟩ := lowered
    simp [Ir.Stmt.types,lowerExpr_size condition checked loweredCond,
      lowerBlock_size body checkedBody loweredBody]
  | .forStmt var start stop body span,self,result,lw,lowResult,accepted,lowered => by
    obtain ⟨st,et,inner,log,checkedStart,-,checkedStop,-,-,checkedBody,rfl⟩ :=
      checkStmt_for accepted
    simp only [lowerStmt,bind_lowers,pure_lowers] at lowered
    obtain ⟨s,loweredStart,e,loweredStop,_,-,b,loweredBody,rfl⟩ := lowered
    simp [Ir.Stmt.types,lowerExpr_size start checkedStart loweredStart,
      lowerExpr_size stop checkedStop loweredStop,lowerLoopBody_size body checkedBody loweredBody]
  | .forIn var iterable body span,self,result,lw,lowResult,accepted,lowered => by
    obtain ⟨it,elem,inner,log,checked,-,-,checkedBody,rfl⟩ := checkStmt_forIn accepted
    simp only [lowerStmt,bind_lowers,pure_lowers] at lowered
    obtain ⟨i,loweredIterable,_,-,b,loweredBody,rfl⟩ := lowered
    simp [Ir.Stmt.types,lowerExpr_size iterable checked loweredIterable,
      lowerLoopBody_size body checkedBody loweredBody]
  | .returnStmt none span,self,result,lw,lowResult,accepted,lowered => by
    obtain ⟨-,rfl⟩ := checkStmt_returnUnit accepted
    simp only [lowerStmt,lowerTail,bind_lowers,pure_lowers,Option.some.injEq] at lowered
    obtain ⟨_,rfl,rfl⟩ := lowered
    simp [Ir.Stmt.types,Ir.tailTypes]
  | .returnStmt (some value) span,self,result,lw,lowResult,accepted,lowered => by
    obtain ⟨vt,checked,-,rfl⟩ := checkStmt_return accepted
    simp only [lowerStmt,lowerTail,bind_lowers,pure_lowers] at lowered
    obtain ⟨_,⟨ir,loweredValue,rfl⟩,rfl⟩ := lowered
    simp [Ir.Stmt.types,Ir.tailTypes,lowerExpr_size value checked loweredValue]
  | .deferStmt e span,self,result,lw,lowResult,accepted,lowered => by
    obtain ⟨_,_,_,et,-,checked,rfl⟩ := checkStmt_defer accepted
    simp only [lowerStmt,bind_lowers,pure_lowers] at lowered
    obtain ⟨ir,loweredExpr,rfl⟩ := lowered
    simp [Ir.Stmt.types,lowerExpr_size e checked loweredExpr]
  | .breakStmt span,self,result,lw,lowResult,accepted,lowered => by
    obtain ⟨-,rfl⟩ := checkStmt_break accepted
    simp only [lowerStmt,Option.some.injEq] at lowered
    simp [← lowered,Ir.Stmt.types]
  | .continueStmt span,self,result,lw,lowResult,accepted,lowered => by
    obtain ⟨-,rfl⟩ := checkStmt_continue accepted
    simp only [lowerStmt,Option.some.injEq] at lowered
    simp [← lowered,Ir.Stmt.types]
termination_by structural e => e
end

end Lowering
end Oscan
