import Oscan.Semantic.Analyze

/-! What the checker has established when it accepts a construct, one lemma for each
constructor. Later proofs take an accepted construct apart with these and never unfold
the checker. -/
namespace Oscan.Semantic
open Ast

@[simp] theorem bind_accepts {α β : Type} (x : Check α) (f : α → Check β) (b : β) :
    (x >>= f) = .ok b ↔ ∃ a, x = .ok a ∧ f a = .ok b := by
  cases x <;> simp [bind,Except.bind]

@[simp] theorem map_accepts {α β : Type} (f : α → β) (x : Check α) (b : β) :
    (f <$> x) = .ok b ↔ ∃ a, x = .ok a ∧ f a = b := by
  cases x <;> simp [Functor.map,Except.map]

@[simp] theorem pure_accepts {α : Type} (a b : α) : (pure a : Check α) = .ok b ↔ a = b := by
  simp [pure,Except.pure]

@[simp] theorem reject_accepts {α : Type} (span : Span) (message : String) (a : α) :
    reject span message = .ok a ↔ False := by
  simp [reject]

@[simp] theorem unless_accepts {α : Type} (p : Prop) [Decidable p] (span : Span)
    (message : String) (x : Check α) (a : α) :
    (if p then reject span message else x) = .ok a ↔ ¬p ∧ x = .ok a := by
  split <;> simp [*,reject]

@[simp] theorem when_accepts {α : Type} (p : Prop) [Decidable p] (span : Span)
    (message : String) (x : Check α) (a : α) :
    (if p then x else reject span message) = .ok a ↔ p ∧ x = .ok a := by
  split <;> simp [*,reject]

namespace Analyzer

variable {self : Analyzer} {E : Option BcType} {t : Typing}

theorem checkExpr_interpolatedString {parts : List InterpolatedStringPart} {span : Span}
    (accepted : checkExpr self E (.interpolatedString parts span) = .ok t) :
    ∃ rendered numeric log, checkParts self parts = .ok (rendered,numeric,log) ∧
      t = .node .str log := by
  simp only [checkExpr,bind_accepts,unless_accepts,pure_accepts,Prod.exists] at accepted
  obtain ⟨rendered,numeric,log,parts,-,rfl⟩ := accepted
  exact ⟨rendered,numeric,log,parts,rfl⟩

theorem checkExpr_ident {name : String} {span : Span}
    (accepted : checkExpr self E (.ident name span) = .ok t) :
    ∃ ty, self.identType name span = .ok ty ∧ t = .node ty [] := by
  simp only [checkExpr,bind_accepts,pure_accepts] at accepted
  obtain ⟨ty,typed,rfl⟩ := accepted
  exact ⟨ty,typed,rfl⟩

theorem checkExpr_binaryOp {op : BinOp} {left right : Expr} {span : Span}
    (accepted : checkExpr self E (.binaryOp op left right span) = .ok t) :
    ∃ lt rt ty, checkExpr self none left = .ok lt ∧ checkExpr self none right = .ok rt ∧
      binaryOpType op lt.ty rt.ty span = .ok ty ∧ t = .node ty (lt.log ++ rt.log) := by
  simp only [checkExpr,bind_accepts,pure_accepts] at accepted
  obtain ⟨lt,left,rt,right,ty,typed,rfl⟩ := accepted
  exact ⟨lt,rt,ty,left,right,typed,rfl⟩

theorem checkExpr_unaryOp {op : UnaryOp} {operand : Expr} {span : Span}
    (accepted : checkExpr self E (.unaryOp op operand span) = .ok t) :
    ∃ ot ty, checkExpr self none operand = .ok ot ∧ unaryOpType op ot.ty span = .ok ty ∧
      t = .node ty ot.log := by
  simp only [checkExpr,bind_accepts,pure_accepts] at accepted
  obtain ⟨ot,operand,ty,typed,rfl⟩ := accepted
  exact ⟨ot,ty,operand,typed,rfl⟩

theorem checkExpr_cast {e : Expr} {ty : Ty} {span : Span}
    (accepted : checkExpr self E (.cast e ty span) = .ok t) :
    ∃ et target, checkExpr self none e = .ok et ∧ self.resolveType ty = .ok target ∧
      castType et.ty target span = .ok target ∧ t = .node target et.log := by
  simp only [checkExpr,bind_accepts,pure_accepts] at accepted
  obtain ⟨et,checked,target,resolved,ty',typed,rfl⟩ := accepted
  have same : ty' = target := by
    unfold castType at typed
    split at typed <;> simp_all
  subst same
  exact ⟨et,ty',checked,resolved,typed,rfl⟩

theorem checkExpr_fieldAccess {e : Expr} {field : String} {span : Span}
    (accepted : checkExpr self E (.fieldAccess e field span) = .ok t) :
    ∃ et ty, checkExpr self none e = .ok et ∧ self.fieldType et.ty field span = .ok ty ∧
      t = .node ty et.log := by
  simp only [checkExpr,bind_accepts,pure_accepts] at accepted
  obtain ⟨et,checked,ty,typed,rfl⟩ := accepted
  exact ⟨et,ty,checked,typed,rfl⟩

theorem checkExpr_index {e index : Expr} {span : Span}
    (accepted : checkExpr self E (.index e index span) = .ok t) :
    ∃ et it ty, checkExpr self none e = .ok et ∧ checkExpr self none index = .ok it ∧
      it.ty = .i32 ∧ (et.ty = .str ∧ ty = .i32 ∨ arrayElementType et.ty = some ty) ∧
      t = .node ty (et.log ++ it.log) := by
  simp only [checkExpr,bind_accepts,unless_accepts] at accepted
  obtain ⟨et,checked,it,index,number,accepted⟩ := accepted
  have number : it.ty = .i32 := by simpa using number
  split at accepted
  next text =>
    have text : et.ty = .str := by simpa using text
    simp only [pure_accepts] at accepted
    exact ⟨et,it,.i32,checked,index,number,.inl ⟨text,rfl⟩,accepted.symm⟩
  next =>
    simp only [bind_accepts,pure_accepts] at accepted
    obtain ⟨ty,typed,rfl⟩ := accepted
    refine ⟨et,it,ty,checked,index,number,.inr ?_,rfl⟩
    unfold elementType at typed
    split at typed <;> simp_all [arrayElementType]

theorem checkExpr_block {b : Block} (accepted : checkExpr self E (.block b) = .ok t) :
    ∃ bt, checkBlock self b E = .ok bt ∧ t = .node bt.ty bt.log := by
  simp only [checkExpr,bind_accepts,pure_accepts] at accepted
  obtain ⟨bt,checked,rfl⟩ := accepted
  exact ⟨bt,checked,rfl⟩

theorem checkExpr_arena {b : Block} {span : Span}
    (accepted : checkExpr self E (.arena b span) = .ok t) :
    ∃ bt, checkBlock self b E = .ok bt ∧ bt.ty.isArenaSafe = true ∧ self.inPureFn = false ∧
      t = .node bt.ty bt.log := by
  simp only [checkExpr,bind_accepts,unless_accepts,pure_accepts] at accepted
  obtain ⟨impure,bt,checked,safe,rfl⟩ := accepted
  exact ⟨bt,checked,by simpa using safe,by simpa using impure,rfl⟩

theorem checkExpr_ifThen {condition : Expr} {thenBlock : Block} {span : Span}
    (accepted : checkExpr self E (.ifExpr condition thenBlock none span) = .ok t) :
    ∃ ct bt, checkExpr self none condition = .ok ct ∧ ct.ty = .bool ∧
      checkBlock self thenBlock E = .ok bt ∧ bt.ty = .unit ∧
      t = .node .unit (ct.log ++ bt.log) := by
  simp only [checkExpr,bind_accepts,unless_accepts,pure_accepts] at accepted
  obtain ⟨ct,condition,boolean,bt,block,unit,rfl⟩ := accepted
  exact ⟨ct,bt,condition,by simpa using boolean,block,by simpa using unit,rfl⟩

theorem checkExpr_ifElse {condition elseExpr : Expr} {thenBlock : Block} {span : Span}
    (accepted : checkExpr self E (.ifExpr condition thenBlock (some elseExpr) span) = .ok t) :
    ∃ ct bt et ty, checkExpr self none condition = .ok ct ∧ ct.ty = .bool ∧
      checkBlock self thenBlock E = .ok bt ∧ checkExpr self E elseExpr = .ok et ∧
      bt.ty.compatibleJoin et.ty E = some ty ∧
      t = .node ty (ct.log ++ bt.log ++ et.log) := by
  simp only [checkExpr,bind_accepts,unless_accepts] at accepted
  obtain ⟨ct,condition,boolean,bt,block,et,checked,accepted⟩ := accepted
  split at accepted
  next ty joined =>
    simp only [pure_accepts] at accepted
    exact ⟨ct,bt,et,ty,condition,by simpa using boolean,block,checked,joined,accepted.symm⟩
  next => simp at accepted

/-- The type of a match whose arms have the types `types`. -/
def matchType (expected : Option BcType) : List (BcType × Span) → Check BcType
  | [] => return .unit
  | (first,_) :: rest => joinArmTypes expected first rest

theorem checkExpr_matchExpr {scrutinee : Expr} {arms : List MatchArm} {span : Span}
    (accepted : checkExpr self E (.matchExpr scrutinee arms span) = .ok t) :
    ∃ st types seen log ty, checkExpr self none scrutinee = .ok st ∧
      checkArms self st.ty span E [] arms = .ok (types,seen,log) ∧
      self.checkExhaustive st.ty (arms.any fun arm => isCatchAll arm.pattern) seen span = .ok () ∧
      matchType E types = .ok ty ∧ t = .node ty (st.log ++ log) := by
  simp only [checkExpr,bind_accepts,Prod.exists] at accepted
  obtain ⟨st,scrutinee,types,seen,log,arms,⟨⟩,exhaustive,accepted⟩ := accepted
  cases types with
  | nil =>
    simp only [pure_accepts] at accepted
    exact ⟨st,_,seen,log,.unit,scrutinee,arms,exhaustive,rfl,accepted.symm⟩
  | cons first rest =>
    obtain ⟨first,firstSpan⟩ := first
    simp only [bind_accepts,pure_accepts] at accepted
    obtain ⟨ty,joined,rfl⟩ := accepted
    exact ⟨st,_,seen,log,ty,scrutinee,arms,exhaustive,joined,rfl⟩

theorem checkExpr_tryExpr {call : Expr} {span : Span}
    (accepted : checkExpr self E (.tryExpr call span) = .ok t) :
    ∃ ct ok err fnOk fnErr, checkExpr self none call = .ok ct ∧ ct.ty = .result ok err ∧
      self.currentFnReturnType = some (.result fnOk fnErr) ∧
      err.isCompatibleWith fnErr = true ∧ t = .node ok ct.log := by
  simp only [checkExpr,bind_accepts] at accepted
  obtain ⟨ct,checked,accepted⟩ := accepted
  split at accepted
  next ok err result =>
    split at accepted
    next fnOk fnErr ret =>
      simp only [unless_accepts,pure_accepts] at accepted
      exact ⟨ct,ok,err,fnOk,fnErr,checked,result,ret,by simpa using accepted.1,accepted.2.symm⟩
    next => simp at accepted
  next => simp at accepted

theorem checkExpr_emptyArray {span : Span}
    (accepted : checkExpr self E (.arrayLit [] span) = .ok t) :
    ∃ elem, E.bind arrayElementType = some elem ∧ t = .node (.array elem) [] := by
  unfold checkExpr at accepted
  dsimp only at accepted
  split at accepted
  next elem =>
    exact ⟨elem,rfl,((pure_accepts _ _).mp accepted).symm⟩
  next elem size =>
    exact ⟨elem,rfl,((pure_accepts _ _).mp accepted).symm⟩
  next => simp at accepted

/-- The type of a literal of `count` elements of type `elemTy` under an expected type. -/
def arrayLitType (expected : Option BcType) (elemTy : BcType) (count : Nat) : BcType :=
  match expected with
  | some (.fixedArray elem size) =>
    if elem == elemTy && size == (count : Int) then .fixedArray elemTy size else .array elemTy
  | _ => .array elemTy

theorem checkExpr_arrayLit {first : Expr} {rest : List Expr} {span : Span}
    (accepted : checkExpr self E (.arrayLit (first :: rest) span) = .ok t) :
    ∃ ft log, checkExpr self none first = .ok ft ∧ checkElements self ft.ty rest = .ok log ∧
      t = .node (arrayLitType E ft.ty (first :: rest).length) (ft.log ++ log) := by
  unfold checkExpr at accepted
  simp only [bind_accepts,pure_accepts] at accepted
  obtain ⟨ft,head,log,tail,rfl⟩ := accepted
  exact ⟨ft,log,head,tail,rfl⟩

theorem checkExpr_structLit {name : String} {fields : List FieldInit} {span : Span}
    (accepted : checkExpr self E (.structLit name fields span) = .ok t) :
    ∃ info provided log, self.structs.lookup name = some info ∧
      checkFields self name info [] fields = .ok (provided,log) ∧
      (∀ f ∈ info.fields, f.1 ∈ provided) ∧ t = .node (.struct name) log := by
  simp only [checkExpr] at accepted
  split at accepted
  next => simp at accepted
  next info known =>
    simp only [bind_accepts,unless_accepts,pure_accepts,Prod.exists] at accepted
    obtain ⟨provided,log,checked,complete,rfl⟩ := accepted
    refine ⟨info,provided,log,known,checked,?_,rfl⟩
    intro f member
    have complete := (by simpa using complete : ∀ a, (∃ x, (a,x) ∈ info.fields) → a ∈ provided)
    exact complete f.1 ⟨f.2,member⟩

/-- The one payload type that a constructor of `Result` has under an expected type. -/
def resultPayload (self : Analyzer) (E : Option BcType) (variant : String) : Option BcType :=
  match self.inferResultType E with
  | some (.result ok err) =>
    if variant = "Ok" then some ok else if variant = "Err" then some err else none
  | _ => none

theorem inferResultType_result {ty : BcType} (inferred : self.inferResultType E = some ty) :
    ∃ ok err, ty = .result ok err := by
  unfold inferResultType at inferred
  split at inferred
  next ok err => exact ⟨ok,err,(Option.some.inj inferred).symm⟩
  next =>
    split at inferred
    next ok err _ => exact ⟨ok,err,(Option.some.inj inferred).symm⟩
    next => simp at inferred

theorem checkExpr_enumConstructor {enumName variant : String} {args : List Expr} {span : Span}
    (user : enumName ≠ "Result")
    (accepted : checkExpr self E (.enumConstructor enumName variant args span) = .ok t) :
    ∃ info payload log, self.enums.lookup enumName = some info ∧
      info.variants.lookup variant = some payload ∧ args.length = payload.length ∧
      checkPayload self payload args = .ok log ∧ t = .node (.enum enumName) log := by
  unfold checkExpr at accepted
  simp only [beq_iff_eq,user,if_false] at accepted
  split at accepted
  next => simp at accepted
  next info known =>
    split at accepted
    next => simp at accepted
    next payload found =>
      simp only [bind_accepts,unless_accepts,pure_accepts] at accepted
      obtain ⟨arity,log,checked,rfl⟩ := accepted
      exact ⟨info,payload,log,known,found,by simpa using arity,checked,rfl⟩

theorem checkParts_text {text : String} {parts : List InterpolatedStringPart}
    {result : Nat × Bool × List BcType}
    (accepted : checkParts self (.text text :: parts) = .ok result) :
    ∃ rendered numeric, checkParts self parts = .ok (rendered,numeric,result.2.2) := by
  simp only [checkParts,bind_accepts,pure_accepts,Prod.exists] at accepted
  obtain ⟨rendered,numeric,log,parts,rfl⟩ := accepted
  exact ⟨rendered,numeric,parts⟩

theorem checkParts_expr {e : Expr} {parts : List InterpolatedStringPart}
    {result : Nat × Bool × List BcType}
    (accepted : checkParts self (.expr e :: parts) = .ok result) :
    ∃ et rendered numeric log, checkExpr self none e = .ok et ∧
      (et.ty = .str ∨ et.ty = .bool ∨ et.ty = .i32 ∨ et.ty = .i64 ∨ et.ty = .f64) ∧
      checkParts self parts = .ok (rendered,numeric,log) ∧ result.2.2 = et.log ++ log := by
  simp only [checkParts,bind_accepts,pure_accepts,Prod.exists] at accepted
  obtain ⟨⟨⟩,-,et,checked,number,typed,rendered,numeric,log,parts,rfl⟩ := accepted
  refine ⟨et,rendered,numeric,log,checked,?_,parts,rfl⟩
  cases same : et.ty <;> simp_all [partIsNumeric]

theorem checkArms_cons {scrutTy : BcType} {span armSpan : Span} {seen : List String}
    {pattern : Pattern} {body : Expr} {arms : List MatchArm}
    {result : List (BcType × Span) × List String × List BcType}
    (accepted : checkArms self scrutTy span E seen (.mk pattern body armSpan :: arms) = .ok result) :
    ∃ seen' inner bt types seen'' log,
      self.checkPatternCompat pattern scrutTy seen span = .ok seen' ∧
      self.pushScope.bindPatternVars pattern scrutTy armSpan = .ok inner ∧
      checkExpr inner E body = .ok bt ∧
      checkArms self scrutTy span E seen' arms = .ok (types,seen'',log) ∧
      result = ((bt.ty,armSpan) :: types,seen'',bt.log ++ log) := by
  simp only [checkArms,bind_accepts,pure_accepts,Prod.exists] at accepted
  obtain ⟨seen',compat,inner,bound,bt,body,types,seen'',log,arms,rfl⟩ := accepted
  exact ⟨seen',inner,bt,types,seen'',log,compat,bound,body,arms,rfl⟩

theorem checkElements_cons {firstTy : BcType} {e : Expr} {es : List Expr} {log : List BcType}
    (accepted : checkElements self firstTy (e :: es) = .ok log) :
    ∃ et rest, checkExpr self none e = .ok et ∧ et.ty = firstTy ∧
      checkElements self firstTy es = .ok rest ∧ log = et.log ++ rest := by
  simp only [checkElements,bind_accepts,unless_accepts,pure_accepts] at accepted
  obtain ⟨et,checked,same,rest,elements,rfl⟩ := accepted
  exact ⟨et,rest,checked,by simpa using same,elements,rfl⟩

theorem checkFields_cons {name fname : String} {info : StructInfo} {provided : List String}
    {value : Expr} {span : Span} {fields : List FieldInit} {result : List String × List BcType}
    (accepted : checkFields self name info provided (.mk fname value span :: fields) = .ok result) :
    ∃ ty vt provided' log, info.fields.lookup fname = some ty ∧
      checkExpr self (some ty) value = .ok vt ∧ vt.ty.isCompatibleWith ty = true ∧
      checkFields self name info (fname :: provided) fields = .ok (provided',log) ∧
      result = (provided',vt.log ++ log) := by
  simp only [checkFields,unless_accepts] at accepted
  obtain ⟨-,accepted⟩ := accepted
  split at accepted
  next => simp at accepted
  next ty known =>
    simp only [bind_accepts,unless_accepts,pure_accepts,Prod.exists] at accepted
    obtain ⟨vt,checked,compatible,provided',log,fields,rfl⟩ := accepted
    exact ⟨ty,vt,provided',log,known,checked,by simpa using compatible,fields,rfl⟩

/-- What the type of an argument must be; only the source of `array_extend` and the other
array of `array_compare` may be a fixed array where a dynamic one is named. -/
def ArgFits (actual expected : BcType) : Prop :=
  actual.isCompatibleWith expected = true ∨
    ∃ elem actualElem, expected = .array elem ∧ arrayElementType actual = some actualElem ∧
      actualElem.isCompatibleWith elem = true

/-- Every argument is accepted under the expected type at its position, if there is one. -/
inductive ArgsChecked (self : Analyzer) :
    List (Option BcType) → List Expr → List BcType → Prop
  | nil : ArgsChecked self [] [] []
  | cons {expected : Option BcType} {types : List (Option BcType)} {arg : Expr}
      {args : List Expr} {at_ : Typing} {log : List BcType}
      (checked : checkExpr self expected arg = .ok at_)
      (fits : ∀ ty, expected = some ty → ArgFits at_.ty ty)
      (rest : ArgsChecked self types args log) :
      ArgsChecked self (expected :: types) (arg :: args) (at_.log ++ log)

theorem ArgsChecked.length : ∀ {types : List (Option BcType)} {args : List Expr}
    {log : List BcType}, ArgsChecked self types args log → args.length = types.length
  | _,_,_,.nil => rfl
  | _,_,_,.cons _ _ rest => congrArg (·+1) rest.length

theorem ArgsChecked.typed {ty : BcType} {types : List (Option BcType)} {arg : Expr}
    {args : List Expr} {at_ : Typing} {log : List BcType}
    (checked : checkExpr self (some ty) arg = .ok at_) (fits : ArgFits at_.ty ty)
    (rest : ArgsChecked self types args log) :
    ArgsChecked self (some ty :: types) (arg :: args) (at_.log ++ log) :=
  .cons checked (fun _ same => Option.some.inj same ▸ fits) rest

theorem ArgsChecked.untyped {types : List (Option BcType)} {arg : Expr} {args : List Expr}
    {at_ : Typing} {log : List BcType} (checked : checkExpr self none arg = .ok at_)
    (rest : ArgsChecked self types args log) :
    ArgsChecked self (none :: types) (arg :: args) (at_.log ++ log) :=
  .cons checked (by simp) rest

private theorem ArgsChecked.single {ty : BcType} {arg : Expr} {at_ : Typing}
    (checked : checkExpr self (some ty) arg = .ok at_) (fits : ArgFits at_.ty ty) :
    ArgsChecked self [some ty] [arg] at_.log := by
  simpa using ArgsChecked.typed checked fits .nil

theorem checkExpr_result {variant : String} {args : List Expr} {span : Span}
    (accepted : checkExpr self E (.enumConstructor "Result" variant args span) = .ok t) :
    ∃ payload ty log, self.resultPayload E variant = some payload ∧
      ArgsChecked self [some payload] args log ∧ self.inferResultType E = some ty ∧
      t = .node ty log := by
  unfold checkExpr at accepted
  simp only [beq_self_eq_true,if_true] at accepted
  split at accepted
  next arg =>
    split at accepted
    next ok err inferred =>
      simp only [bind_accepts,unless_accepts,pure_accepts] at accepted
      obtain ⟨at_,checked,compatible,rfl⟩ := accepted
      exact ⟨ok,_,_,by simp [resultPayload,inferred],
        .single checked (.inl (by simpa using compatible)),inferred,rfl⟩
    next => simp at accepted
  next => simp at accepted
  next arg =>
    split at accepted
    next ok err inferred =>
      simp only [bind_accepts,unless_accepts,pure_accepts] at accepted
      obtain ⟨at_,checked,compatible,rfl⟩ := accepted
      exact ⟨err,_,_,by simp [resultPayload,inferred],
        .single checked (.inl (by simpa using compatible)),inferred,rfl⟩
    next => simp at accepted
  next => simp at accepted
  next => simp at accepted

theorem checkPayload_args : ∀ {payload : List BcType} {args : List Expr} {log : List BcType},
    args.length = payload.length → checkPayload self payload args = .ok log →
    ArgsChecked self (payload.map some) args log
  | [],[],log,_,accepted => by
    simp only [checkPayload,pure_accepts] at accepted
    exact accepted ▸ .nil
  | ty :: payload,arg :: args,log,arity,accepted => by
    simp only [checkPayload,bind_accepts,unless_accepts,pure_accepts] at accepted
    obtain ⟨at_,checked,compatible,rest,payload,rfl⟩ := accepted
    exact .typed checked (.inl (by simpa using compatible)) (checkPayload_args (by simpa using arity) payload)

theorem checkArgs_args {name : String} : ∀ {position : Nat} {params : List BcType}
    {args : List Expr} {log : List BcType}, args.length = params.length →
    checkArgs self name position params args = .ok log →
    ArgsChecked self (params.map some) args log
  | _,[],[],log,_,accepted => by
    simp only [checkArgs,pure_accepts] at accepted
    exact accepted ▸ .nil
  | _,ty :: params,arg :: args,log,arity,accepted => by
    simp only [checkArgs,bind_accepts,unless_accepts,pure_accepts] at accepted
    obtain ⟨at_,checked,compatible,rest,params,rfl⟩ := accepted
    exact .typed checked (.inl (by simpa using compatible)) (checkArgs_args (by simpa using arity) params)

theorem checkCollectionArgs_args {name : String} : ∀ {position : Nat} {params : List BcType}
    {args : List Expr} {log : List BcType}, args.length = params.length →
    checkCollectionArgs self name position params args = .ok log →
    ArgsChecked self (params.map some) args log
  | _,[],[],log,_,accepted => by
    simp only [checkCollectionArgs,pure_accepts] at accepted
    exact accepted ▸ .nil
  | _,ty :: params,arg :: args,log,arity,accepted => by
    simp only [checkCollectionArgs,bind_accepts,unless_accepts,pure_accepts] at accepted
    obtain ⟨at_,checked,compatible,rest,params,rfl⟩ := accepted
    exact .typed checked (.inl (by simpa using compatible)) (checkCollectionArgs_args (by simpa using arity) params)

/-- The types under which a collection call checks the arguments after the first. -/
def restTypes (intrinsic : CollectionIntrinsic) (elemTy : BcType) : List BcType :=
  match intrinsic.op with
  | .clone | .reverse | .clear | .sort => []
  | .repeat | .removeAt => [.i32]
  | .swap | .slice => [.i32,.i32]
  | .fill | .contains | .indexOf | .lastIndexOf | .count => [elemTy]
  | .extend | .compare => [.array elemTy]
  | .insert => [.i32,elemTy]
  | .any | .all | .map | .filter | .forEach => [intrinsic.callbackType.getD .unit]
  | .fold => [elemTy,intrinsic.callbackType.getD .unit]

/-- The type of a collection call from the type of its first argument. -/
def collectionType (intrinsic : CollectionIntrinsic) (firstTy : BcType) : BcType :=
  let elemTy := (arrayElementType firstTy).getD .unit
  match intrinsic.op with
  | .clone => firstTy
  | .repeat => .array firstTy
  | .removeAt | .fold => elemTy
  | .slice | .filter => .array elemTy
  | .map => .array ((intrinsic.target.map CoreType.bcType).getD .unit)
  | .contains | .any | .all => .bool
  | .indexOf | .lastIndexOf | .count | .compare => .i32
  | .reverse | .fill | .swap | .clear | .extend | .insert | .sort | .forEach => .unit

theorem checkCollectionCall_shape {name calledName : String} {intrinsic : CollectionIntrinsic}
    {args : List Expr} {span : Span}
    (resolved : CollectionIntrinsic.resolveWithAlias name = some intrinsic)
    (accepted : checkCollectionCall self intrinsic calledName args span = .ok t) :
    ∃ first rest ft log, args = first :: rest ∧
      checkExpr self (intrinsic.source.map fun source => .array source.bcType) first = .ok ft ∧
      ArgsChecked self ((restTypes intrinsic ((arrayElementType ft.ty).getD .unit)).map some) rest log ∧
      (intrinsic.op ≠ .repeat → ∃ elem, arrayElementType ft.ty = some elem ∧
        ∀ source, intrinsic.source = some source → elem = source.bcType) ∧
      t = ⟨collectionType intrinsic ft.ty,ft.log ++ log⟩ := by
  obtain ⟨generic,-,-⟩ := CollectionIntrinsic.resolveWithAlias_shape resolved
  unfold checkCollectionCall at accepted
  dsimp only at accepted
  simp only [unless_accepts] at accepted
  obtain ⟨arity,-,accepted⟩ := accepted
  have arity : args.length = intrinsic.arity := by simpa using arity
  cases args with
  | nil => simp at accepted
  | cons first rest =>
    simp only [bind_accepts] at accepted
    obtain ⟨-,-,accepted⟩ := accepted
    split at accepted
    next repeated =>
      have repeated : intrinsic.op = .repeat := by simpa using repeated
      simp only [bind_accepts,pure_accepts] at accepted
      obtain ⟨ft,head,log,tail,rfl⟩ := accepted
      have size : rest.length = [BcType.i32].length := by
        simpa [CollectionIntrinsic.arity,repeated] using arity
      have unsourced : intrinsic.source = none :=
        generic (by simp [CollectionIntrinsic.isGeneric,repeated])
      refine ⟨first,rest,ft,log,rfl,by simpa [unsourced] using head,?_,absurd repeated,?_⟩
      · simpa [restTypes,repeated] using checkCollectionArgs_args size tail
      · simp [collectionType,repeated]
    next single =>
      have single : intrinsic.op ≠ .repeat := by simpa using single
      simp only [bind_accepts] at accepted
      obtain ⟨ft,head,accepted⟩ := accepted
      split at accepted
      next => simp at accepted
      next elemTy elem =>
        simp only [unless_accepts] at accepted
        obtain ⟨-,same,accepted⟩ := accepted
        have sourced : ∀ source, intrinsic.source = some source → elemTy = source.bcType := by
          intro source known
          simpa [known] using same
        have size : rest.length+1 = intrinsic.arity := by simpa using arity
        suffices tail : ∃ log, ArgsChecked self ((restTypes intrinsic elemTy).map some) rest log ∧
            t = ⟨collectionType intrinsic ft.ty,ft.log ++ log⟩ by
          obtain ⟨log,args,rfl⟩ := tail
          exact ⟨first,rest,ft,log,rfl,by simpa [Function.comp_def] using head,
            by simpa [elem] using args,fun _ => ⟨elemTy,elem,sourced⟩,rfl⟩
        cases op : intrinsic.op
        all_goals simp only [op,bind_accepts,pure_accepts,reject_accepts] at accepted
        case clone | reverse | clear | sort =>
          have empty : rest = [] := by
            simpa [CollectionIntrinsic.arity,op] using size
          exact ⟨[],by simpa [restTypes,op,empty] using .nil,by simp [collectionType,op,← accepted]⟩
        case extend =>
          split at accepted
          next source =>
            simp only [bind_accepts] at accepted
            obtain ⟨et,checked,accepted⟩ := accepted
            split at accepted
            next => simp at accepted
            next sourceElem sourced =>
              simp only [unless_accepts,pure_accepts] at accepted
              obtain ⟨compatible,rfl⟩ := accepted
              have fits : ArgFits et.ty (.array elemTy) :=
                .inr ⟨elemTy,sourceElem,rfl,sourced,by simpa using compatible⟩
              exact ⟨et.log,by simpa [restTypes,op] using ArgsChecked.single checked fits,
                by simp [collectionType,op]⟩
          next => simp at accepted
        case compare =>
          split at accepted
          next other =>
            simp only [bind_accepts,unless_accepts,pure_accepts] at accepted
            obtain ⟨et,checked,matching,rfl⟩ := accepted
            have fits : ArgFits et.ty (.array elemTy) :=
              .inr ⟨elemTy,elemTy,rfl,by simpa using matching,by simp [BcType.isCompatibleWith]⟩
            exact ⟨et.log,by simpa [restTypes,op] using ArgsChecked.single checked fits,
              by simp [collectionType,op]⟩
          next => simp at accepted
        all_goals
          obtain ⟨log,tail,rfl⟩ := accepted
          have count : rest.length = (restTypes intrinsic elemTy).length := by
            simp only [restTypes,CollectionIntrinsic.arity,op] at size ⊢
            simpa using size
          have tail : checkCollectionArgs self calledName 2 (restTypes intrinsic elemTy) rest =
              .ok log := by simpa [restTypes,op] using tail
          exact ⟨log,checkCollectionArgs_args count tail,by simp [collectionType,op,elem]⟩

/-- The ways in which a call is accepted, with the type and the log it gets. -/
inductive CallChecked (self : Analyzer) (name : String) : List Expr → Typing → Prop
  | collection {intrinsic : CollectionIntrinsic} {first : Expr} {rest : List Expr} {ft : Typing}
      {log : List BcType}
      (resolved : CollectionIntrinsic.resolveWithAlias name = some intrinsic)
      (head : checkExpr self (intrinsic.source.map fun source => .array source.bcType) first = .ok ft)
      (tail : ArgsChecked self
        ((restTypes intrinsic ((arrayElementType ft.ty).getD .unit)).map some) rest log)
      (array : intrinsic.op ≠ .repeat → ∃ elem, arrayElementType ft.ty = some elem ∧
        ∀ source, intrinsic.source = some source → elem = source.bcType) :
      CallChecked self name (first :: rest) (.node (collectionType intrinsic ft.ty) (ft.log ++ log))
  | len {arr : Expr} {at_ : Typing} {elem : BcType} (named : name = "len")
      (checked : checkExpr self none arr = .ok at_) (array : arrayElementType at_.ty = some elem) :
      CallChecked self name [arr] (.node .i32 at_.log)
  | push {arr val : Expr} {at_ vt : Typing} {elem : BcType} (named : name = "push")
      (target : self.requireMutableCollectionTarget "push" arr = .ok ())
      (checked : checkExpr self none arr = .ok at_) (array : at_.ty = .array elem)
      (value : checkExpr self (some elem) val = .ok vt)
      (compatible : vt.ty.isCompatibleWith elem = true) :
      CallChecked self name [arr,val] (.node .unit (at_.log ++ vt.log))
  | pop {arr : Expr} {at_ : Typing} {elem : BcType} (named : name = "pop")
      (target : self.requireMutableCollectionTarget "pop" arr = .ok ())
      (checked : checkExpr self none arr = .ok at_) (array : at_.ty = .array elem) :
      CallChecked self name [arr] (.node elem at_.log)
  | pointer {info : BindingInfo} {params : List BcType} {ret : BcType} {isPure : Bool}
      {args : List Expr} {log : List BcType}
      (free : CollectionIntrinsic.resolveWithAlias name = none)
      (plain : isSpecialCall name = false) (bound : self.lookupVar name = some info)
      (typed : info.ty = .fnPtr params ret isPure) (checked : ArgsChecked self (params.map some) args log) :
      CallChecked self name args (.node ret log)
  | function {func : FunctionInfo} {args : List Expr} {log : List BcType}
      (free : CollectionIntrinsic.resolveWithAlias name = none)
      (plain : isSpecialCall name = false) (unbound : self.lookupVar name = none)
      (known : self.functions.lookup name = some func)
      (checked : ArgsChecked self ((func.params.map (·.2)).map some) args log) :
      CallChecked self name args (.node func.returnType log)

/-- Whatever is called, its arguments are checked in order and the call comes last. -/
theorem CallChecked.args {name : String} {args : List Expr} (checked : CallChecked self name args t) :
    ∃ types log ty, ArgsChecked self types args log ∧ t = .node ty log := by
  cases checked with
  | @collection intrinsic _ _ _ _ resolved head tail array =>
    refine ⟨_,_,_,.cons head ?_ tail,rfl⟩
    intro ty same
    obtain ⟨source,sourced,rfl⟩ := Option.map_eq_some_iff.mp same
    have single : intrinsic.op ≠ .repeat := fun repeated => by
      have unsourced := (CollectionIntrinsic.resolveWithAlias_shape resolved).1
        (by rw [repeated]; rfl)
      simp [sourced] at unsourced
    obtain ⟨elem,typed,same⟩ := array single
    exact .inr ⟨_,elem,rfl,typed,by simp [BcType.isCompatibleWith,same source sourced]⟩
  | len named checked array => exact ⟨_,_,.i32,.untyped checked .nil,by simp⟩
  | push named target checked array value compatible =>
    exact ⟨_,_,.unit,.untyped checked (.typed value (.inl compatible) .nil),by simp⟩
  | @pop _ _ elem named target checked array => exact ⟨_,_,elem,.untyped checked .nil,by simp⟩
  | pointer free plain bound typed checked => exact ⟨_,_,_,checked,rfl⟩
  | function free plain unbound known checked => exact ⟨_,_,_,checked,rfl⟩

theorem CallChecked.ofCollection {name : String} {args : List Expr}
    {intrinsic : CollectionIntrinsic}
    (resolved : CollectionIntrinsic.resolveWithAlias name = some intrinsic)
    (checked : CallChecked self name args t) :
    ∃ first rest ft log, args = first :: rest ∧
      checkExpr self (intrinsic.source.map fun source => .array source.bcType) first = .ok ft ∧
      ArgsChecked self
        ((restTypes intrinsic ((arrayElementType ft.ty).getD .unit)).map some) rest log ∧
      (intrinsic.op ≠ .repeat → ∃ elem, arrayElementType ft.ty = some elem ∧
        ∀ source, intrinsic.source = some source → elem = source.bcType) ∧
      t = .node (collectionType intrinsic ft.ty) (ft.log ++ log) := by
  cases checked with
  | collection same head tail array =>
    obtain rfl := Option.some.inj (resolved.symm.trans same)
    exact ⟨_,_,_,_,rfl,head,tail,array,rfl⟩
  | len named => simp [CollectionIntrinsic.resolve_special (.inl named)] at resolved
  | push named => simp [CollectionIntrinsic.resolve_special (.inr (.inl named))] at resolved
  | pop named => simp [CollectionIntrinsic.resolve_special (.inr (.inr named))] at resolved
  | pointer free => simp [resolved] at free
  | function free => simp [resolved] at free

private theorem checkSpecialCall_checked {name : String} {args : List Expr} {span : Span}
    (special : isSpecialCall name = true)
    (accepted : checkSpecialCall self name args span = .ok t) :
    CallChecked self name args (.node t.ty t.log) := by
  unfold checkSpecialCall at accepted
  split at accepted
  next len =>
    have named : name = "len" := by simpa using len
    split at accepted
    next arr =>
      simp only [bind_accepts] at accepted
      obtain ⟨at_,checked,accepted⟩ := accepted
      split at accepted
      next elem array =>
        obtain rfl := (pure_accepts _ _).mp accepted
        have shape := CallChecked.len named checked (by rw [array]; rfl)
        exact shape
      next elem size array =>
        obtain rfl := (pure_accepts _ _).mp accepted
        have shape := CallChecked.len named checked (by rw [array]; rfl)
        exact shape
      next => simp at accepted
    next => simp at accepted
  next =>
    split at accepted
    next push =>
      have named : name = "push" := by simpa using push
      simp only [unless_accepts] at accepted
      replace accepted := accepted.2
      split at accepted
      next arr val =>
        simp only [bind_accepts] at accepted
        obtain ⟨⟨⟩,target,at_,checked,accepted⟩ := accepted
        split at accepted
        next elem array =>
          simp only [bind_accepts,unless_accepts,pure_accepts] at accepted
          obtain ⟨vt,value,compatible,rfl⟩ := accepted
          exact .push named target checked array value (by simpa using compatible)
        next => simp at accepted
      next => simp at accepted
    next len push =>
      have named : name = "pop" := by
        simpa [isSpecialCall,beq_eq_false_iff_ne.mpr (by simpa using len : name ≠ "len"),
          beq_eq_false_iff_ne.mpr (by simpa using push : name ≠ "push")] using special
      simp only [unless_accepts] at accepted
      replace accepted := accepted.2
      split at accepted
      next arr =>
        simp only [bind_accepts] at accepted
        obtain ⟨⟨⟩,target,at_,checked,accepted⟩ := accepted
        split at accepted
        next elem array =>
          obtain rfl := (pure_accepts _ _).mp accepted
          have shape := CallChecked.pop named target checked array
          exact shape
        next => simp at accepted
      next => simp at accepted

private theorem callTarget_checked {name : String} {args : List Expr} {span : Span}
    {target : CallTarget} {log : List BcType}
    (free : CollectionIntrinsic.resolveWithAlias name = none)
    (plain : isSpecialCall name = false)
    (found : self.callTarget name args.length span = .ok target)
    (checked : checkArgs self name 1 target.params args = .ok log) :
    CallChecked self name args (.node target.ret log) := by
  unfold callTarget at found
  split at found
  next info bound =>
    split at found
    next params ret isPure typed =>
      simp only [unless_accepts,pure_accepts] at found
      obtain ⟨arity,rfl⟩ := found
      exact .pointer free plain bound typed (checkArgs_args (by simpa using arity) checked)
    next => simp at found
  next unbound =>
    split at found
    next => simp at found
    next func known =>
      simp only [unless_accepts,pure_accepts] at found
      obtain ⟨-,arity,rfl⟩ := found
      exact .function free plain unbound known (checkArgs_args (by simpa using arity) checked)

theorem checkExpr_call {callee : Expr} {args : List Expr} {span : Span}
    (accepted : checkExpr self E (.call callee args span) = .ok t) :
    ∃ name nameSpan, callee = .ident name nameSpan ∧ CallChecked self name args t := by
  unfold checkExpr at accepted
  split at accepted
  next name nameSpan =>
    refine ⟨name,nameSpan,rfl,?_⟩
    split at accepted
    next intrinsic resolved =>
      simp only [bind_accepts,pure_accepts] at accepted
      obtain ⟨ct,checked,rfl⟩ := accepted
      obtain ⟨first,rest,ft,log,rfl,head,tail,array,rfl⟩ :=
        checkCollectionCall_shape resolved checked
      exact .collection resolved head tail array
    next free =>
      split at accepted
      next special =>
        simp only [bind_accepts,pure_accepts] at accepted
        obtain ⟨ct,checked,rfl⟩ := accepted
        exact checkSpecialCall_checked special checked
      next plain =>
        simp only [bind_accepts,unless_accepts,pure_accepts] at accepted
        obtain ⟨target,found,log,checked,-,rfl⟩ := accepted
        exact callTarget_checked free (by simpa using plain) found checked
  next => simp at accepted

theorem checkBlock_shape {stmts : List Stmt} {tail : Option Expr} {span : Span}
    (accepted : checkBlock self (.mk stmts tail span) E = .ok t) :
    ∃ inner log tt, checkStmts self.pushScope stmts = .ok (inner,log) ∧
      checkTail inner E tail = .ok tt ∧ t = ⟨tt.ty,log ++ tt.log⟩ := by
  simp only [checkBlock,bind_accepts,pure_accepts,Prod.exists] at accepted
  obtain ⟨inner,log,stmts,tt,tail,rfl⟩ := accepted
  exact ⟨inner,log,tt,stmts,tail,rfl⟩

theorem checkTail_none (accepted : checkTail self E none = .ok t) : t = ⟨.unit,[]⟩ := by
  simp only [checkTail,pure_accepts] at accepted
  exact accepted.symm

theorem checkTail_some {e : Expr} (accepted : checkTail self E (some e) = .ok t) :
    checkExpr self E e = .ok t := by
  simpa only [checkTail] using accepted

theorem checkStmts_nil {result : Analyzer × List BcType}
    (accepted : checkStmts self [] = .ok result) : result = (self,[]) := by
  simp only [checkStmts,pure_accepts] at accepted
  exact accepted.symm

theorem checkStmts_cons {stmt : Stmt} {stmts : List Stmt} {result : Analyzer × List BcType}
    (accepted : checkStmts self (stmt :: stmts) = .ok result) :
    ∃ next log last rest, checkStmt self stmt = .ok (next,log) ∧
      checkStmts next stmts = .ok (last,rest) ∧ result = (last,log ++ rest) := by
  simp only [checkStmts,bind_accepts,pure_accepts,Prod.exists] at accepted
  obtain ⟨next,log,head,last,rest,tail,rfl⟩ := accepted
  exact ⟨next,log,last,rest,head,tail,rfl⟩

theorem checkLoopBody_shape {stmts : List Stmt} {tail : Option Expr} {span : Span}
    {log : List BcType} (accepted : checkLoopBody self (.mk stmts tail span) = .ok log) :
    ∃ inner stmtsLog tt, checkStmts self stmts = .ok (inner,stmtsLog) ∧
      checkTail inner none tail = .ok tt ∧ log = stmtsLog ++ tt.log := by
  simp only [checkLoopBody,bind_accepts,pure_accepts,Prod.exists] at accepted
  obtain ⟨inner,log,stmts,tt,tail,rfl⟩ := accepted
  exact ⟨inner,log,tt,stmts,tail,rfl⟩

theorem checkPlace_nil {use : PlaceUse} {ty : BcType} {span : Span}
    {result : BcType × List BcType} (accepted : checkPlace self use ty span [] = .ok result) :
    result = (ty,[]) := by
  simp only [checkPlace,pure_accepts] at accepted
  exact accepted.symm

theorem checkPlace_field {use : PlaceUse} {ty : BcType} {span : Span} {field : String}
    {accessors : List PlaceAccessor} {result : BcType × List BcType}
    (accepted : checkPlace self use ty span (.field field :: accessors) = .ok result) :
    ∃ fieldTy, self.fieldType ty field span = .ok fieldTy ∧
      checkPlace self use fieldTy span accessors = .ok result := by
  simpa only [checkPlace,bind_accepts] using accepted

theorem checkPlace_index {use : PlaceUse} {ty : BcType} {span : Span} {index : Expr}
    {accessors : List PlaceAccessor} {result : BcType × List BcType}
    (accepted : checkPlace self use ty span (.index index :: accessors) = .ok result) :
    ∃ it elem rest, checkExpr self none index = .ok it ∧ it.ty = .i32 ∧
      arrayElementType ty = some elem ∧
      checkPlace self use elem span accessors = .ok (result.1,rest) ∧
      result = (result.1,it.log ++ rest) := by
  simp only [checkPlace,unless_accepts,bind_accepts,pure_accepts,Prod.exists] at accepted
  obtain ⟨-,it,checked,number,elem,typed,final,rest,tail,rfl⟩ := accepted
  refine ⟨it,elem,rest,checked,by simpa using number,?_,tail,rfl⟩
  unfold elementType at typed
  split at typed <;> simp_all [arrayElementType]

theorem checkStmt_let {name : String} {isMut : Bool} {ty : Ty} {value : Expr} {span : Span}
    {result : Analyzer × List BcType}
    (accepted : checkStmt self (.letStmt name isMut ty value span) = .ok result) :
    ∃ expected vt next, self.resolveType ty = .ok expected ∧
      checkExpr self (some expected) value = .ok vt ∧ vt.ty.isCompatibleWith expected = true ∧
      self.addBinding name expected isMut span = .ok next ∧ result = (next,vt.log) := by
  simp only [checkStmt,unless_accepts,bind_accepts,pure_accepts] at accepted
  obtain ⟨expected,resolved,vt,value,compatible,next,bound,rfl⟩ := accepted
  exact ⟨expected,vt,next,resolved,value,by simpa using compatible,bound,rfl⟩

theorem checkStmt_assign {name : String} {accessors : List PlaceAccessor} {value : Expr}
    {placeSpan span : Span} {result : Analyzer × List BcType}
    (accepted : checkStmt self (.assign (.mk name accessors placeSpan) value span) = .ok result) :
    ∃ root ty log vt, self.checkPlaceRoot (.mk name accessors placeSpan) span = .ok root ∧
      checkPlace self .assign root.ty span accessors = .ok (ty,log) ∧
      checkExpr self (some ty) value = .ok vt ∧ vt.ty.isCompatibleWith ty = true ∧
      result = (self,log ++ vt.log) := by
  simp only [checkStmt,unless_accepts,bind_accepts,pure_accepts,Prod.exists] at accepted
  obtain ⟨root,found,ty,log,place,vt,value,compatible,rfl⟩ := accepted
  exact ⟨root,ty,log,vt,found,place,value,by simpa using compatible,rfl⟩

theorem checkStmt_compoundAssign {name : String} {accessors : List PlaceAccessor} {op : BinOp}
    {value : Expr} {placeSpan span : Span} {result : Analyzer × List BcType}
    (accepted : checkStmt self (.compoundAssign (.mk name accessors placeSpan) op value span) =
      .ok result) :
    ∃ root ty log vt opTy, self.checkPlaceRoot (.mk name accessors placeSpan) span = .ok root ∧
      checkPlace self .compound root.ty span accessors = .ok (ty,log) ∧
      checkExpr self (some ty) value = .ok vt ∧ checkBinaryOpTypes op ty vt.ty span = .ok opTy ∧
      result = (self,log ++ vt.log) := by
  simp only [checkStmt,bind_accepts,pure_accepts,Prod.exists] at accepted
  obtain ⟨root,found,ty,log,place,vt,value,opTy,typed,rfl⟩ := accepted
  exact ⟨root,ty,log,vt,opTy,found,place,value,typed,rfl⟩

theorem checkStmt_expr {e : Expr} {span : Span} {result : Analyzer × List BcType}
    (accepted : checkStmt self (.expr e span) = .ok result) :
    ∃ et, checkExpr self none e = .ok et ∧ result = (self,et.log) := by
  simp only [checkStmt,bind_accepts,pure_accepts] at accepted
  obtain ⟨et,checked,rfl⟩ := accepted
  exact ⟨et,checked,rfl⟩

theorem checkStmt_while {condition : Expr} {body : Block} {span : Span}
    {result : Analyzer × List BcType}
    (accepted : checkStmt self (.whileStmt condition body span) = .ok result) :
    ∃ ct bt, checkExpr self none condition = .ok ct ∧ ct.ty = .bool ∧
      checkBlock self.enterLoop body none = .ok bt ∧ result = (self,ct.log ++ bt.log) := by
  simp only [checkStmt,unless_accepts,bind_accepts,pure_accepts] at accepted
  obtain ⟨ct,condition,boolean,bt,body,rfl⟩ := accepted
  exact ⟨ct,bt,condition,by simpa using boolean,body,rfl⟩

theorem checkStmt_for {var : String} {start stop : Expr} {body : Block} {span : Span}
    {result : Analyzer × List BcType}
    (accepted : checkStmt self (.forStmt var start stop body span) = .ok result) :
    ∃ st et inner log, checkExpr self none start = .ok st ∧ st.ty = .i32 ∧
      checkExpr self none stop = .ok et ∧ et.ty = .i32 ∧
      self.pushScope.addBinding var .i32 false span = .ok inner ∧
      checkLoopBody inner.enterLoop body = .ok log ∧ result = (self,st.log ++ et.log ++ log) := by
  simp only [checkStmt,unless_accepts,bind_accepts,pure_accepts] at accepted
  obtain ⟨st,start,et,stop,first,last,inner,bound,log,body,rfl⟩ := accepted
  exact ⟨st,et,inner,log,start,by simpa using first,stop,by simpa using last,bound,body,rfl⟩

theorem checkStmt_forIn {var : String} {iterable : Expr} {body : Block} {span : Span}
    {result : Analyzer × List BcType}
    (accepted : checkStmt self (.forIn var iterable body span) = .ok result) :
    ∃ it elem inner log, checkExpr self none iterable = .ok it ∧
      arrayElementType it.ty = some elem ∧
      self.pushScope.addBinding var elem false span = .ok inner ∧
      checkLoopBody inner.enterLoop body = .ok log ∧ result = (self,it.log ++ log) := by
  simp only [checkStmt,bind_accepts] at accepted
  obtain ⟨it,iterable,accepted⟩ := accepted
  split at accepted
  next => simp at accepted
  next elem array =>
    simp only [bind_accepts,pure_accepts] at accepted
    obtain ⟨inner,bound,log,body,rfl⟩ := accepted
    exact ⟨it,elem,inner,log,iterable,array,bound,body,rfl⟩

theorem checkStmt_return {value : Expr} {span : Span} {result : Analyzer × List BcType}
    (accepted : checkStmt self (.returnStmt (some value) span) = .ok result) :
    ∃ vt, checkExpr self (some (self.currentFnReturnType.getD .unit)) value = .ok vt ∧
      vt.ty.isCompatibleWith (self.currentFnReturnType.getD .unit) = true ∧
      result = (self,vt.log) := by
  simp only [checkStmt,unless_accepts,bind_accepts,pure_accepts] at accepted
  obtain ⟨vt,value,compatible,rfl⟩ := accepted
  exact ⟨vt,value,by simpa using compatible,rfl⟩

theorem checkStmt_returnUnit {span : Span} {result : Analyzer × List BcType}
    (accepted : checkStmt self (.returnStmt none span) = .ok result) :
    self.currentFnReturnType.getD .unit = .unit ∧ result = (self,[]) := by
  simp only [checkStmt,unless_accepts,pure_accepts] at accepted
  exact ⟨by simpa using accepted.1,accepted.2.symm⟩

theorem checkStmt_defer {e : Expr} {span : Span} {result : Analyzer × List BcType}
    (accepted : checkStmt self (.deferStmt e span) = .ok result) :
    ∃ callee args callSpan et, e = .call callee args callSpan ∧
      checkExpr self none e = .ok et ∧ result = (self,et.log) := by
  simp only [checkStmt,unless_accepts] at accepted
  replace accepted := accepted.2
  split at accepted
  next callee args callSpan =>
    simp only [bind_accepts,pure_accepts] at accepted
    obtain ⟨et,checked,rfl⟩ := accepted
    exact ⟨callee,args,callSpan,et,rfl,checked,rfl⟩
  next => simp at accepted

theorem checkStmt_break {span : Span} {result : Analyzer × List BcType}
    (accepted : checkStmt self (.breakStmt span) = .ok result) :
    0 < self.loopDepth ∧ result = (self,[]) := by
  simp only [checkStmt,unless_accepts,pure_accepts] at accepted
  exact ⟨Nat.pos_of_ne_zero (by simpa using accepted.1),accepted.2.symm⟩

theorem checkStmt_continue {span : Span} {result : Analyzer × List BcType}
    (accepted : checkStmt self (.continueStmt span) = .ok result) :
    0 < self.loopDepth ∧ result = (self,[]) := by
  simp only [checkStmt,unless_accepts,pure_accepts] at accepted
  exact ⟨Nat.pos_of_ne_zero (by simpa using accepted.1),accepted.2.symm⟩

end Analyzer
end Oscan.Semantic
