import Oscan.Preservation.Typed
import Oscan.Preservation.Called

/-! The verifier in terms of the checker: the types it accepts, the calls it counts the
arguments of, and the types it finds compatible. -/
namespace Oscan
open Ast Semantic Semantic.Analyzer Lowering

def Ir.Program.declared (program : Ir.Program) : Names :=
  ⟨fun name => (program.structs.lookup name).isSome,fun name => (program.enums.lookup name).isSome⟩

mutual
theorem verifyType_nil (program : Ir.Program) (c : String) : ∀ ty : BcType,
    Ir.verifyType program c ty = [] ↔ ty.defined program.declared = true
  | .struct name | .enum name => by simp [Ir.verifyType,Ir.Program.declared]
  | .array elem | .fixedArray elem _ => by simp [Ir.verifyType,verifyType_nil program c elem]
  | .result ok err => by
    simp [Ir.verifyType,verifyType_nil program c ok,verifyType_nil program c err]
  | .fnPtr params ret _ => by
    simp [Ir.verifyType,verifyType_nil program c ret,verifyTypes_nil program c params]
  | .i32 | .i64 | .f64 | .bool | .str | .unit | .handle | .map | .mapStrI32 | .mapStrI64
  | .mapStrF64 | .mapI32Str | .mapI32I32 => by simp [Ir.verifyType]
theorem verifyTypes_nil (program : Ir.Program) (c : String) : ∀ types : List BcType,
    Ir.verifyTypes program c types = [] ↔ ∀ ty ∈ types, ty.defined program.declared = true
  | [] => by simp [Ir.verifyTypes]
  | ty :: types => by
    simp [Ir.verifyTypes,verifyType_nil program c ty,verifyTypes_nil program c types]
end

theorem verifyBlock_nil (program : Ir.Program) (c : String) (depth : Nat) (stmts : List Ir.Stmt)
    (tail : Option Ir.Expr) (span : Span) :
    Ir.verifyBlock program c depth (.mk stmts tail span) = [] ↔
      Ir.verifyStmts program c depth stmts = [] ∧
        ∀ e, tail = some e → Ir.verifyExpr program c depth e = [] := by
  cases tail <;> simp [Ir.verifyBlock]

/-- What bindings leave alone. -/
structure Kept (sa next : Analyzer) : Prop where
  functions : next.functions = sa.functions
  depth : next.loopDepth = sa.loopDepth

/-- The program has the tables of the checker, all of whose types are defined, and the
verifier counts as many loops. -/
structure Ready (program : Ir.Program) (depth : Nat) (sa : Analyzer) : Prop where
  grounded : Grounded program.declared sa
  functions : program.functions = sa.functions
  depth : sa.loopDepth = depth

variable {program : Ir.Program} {depth : Nat} {self next : Analyzer} {lw : Lowering}
  {ctx : Context} {E : Option BcType} {t : Typing}

namespace Ready

theorem pushScope (ready : Ready program depth self) : Ready program depth self.pushScope :=
  ⟨ready.grounded.pushScope,ready.functions,ready.depth⟩

theorem enterLoop (ready : Ready program depth self) : Ready program (depth+1) self.enterLoop :=
  ⟨ready.grounded.enterLoop,ready.functions,congrArg (·+1) ready.depth⟩

theorem after (ready : Ready program depth self) (grounded : Grounded program.declared next)
    (kept : Kept self next) : Ready program depth next :=
  ⟨grounded,ready.functions.trans kept.functions.symm,kept.depth.trans ready.depth⟩

end Ready

theorem addBinding_kept {name : String} {ty : BcType} {isMut : Bool} {span : Span}
    (accepted : self.addBinding name ty isMut span = .ok next) :
    Kept self next := by
  simp only [addBinding,bind_accepts,unless_accepts,pure_accepts] at accepted
  obtain ⟨-,-,-,rfl⟩ := accepted
  exact ⟨rfl,rfl⟩

theorem bindPayload_kept : ∀ {bindings : List (Pattern × BcType)} {self : Analyzer},
    self.bindPayload bindings = .ok next →
    Kept self next
  | [],self,accepted => by
    simp only [Analyzer.bindPayload,pure_accepts] at accepted
    exact accepted ▸ ⟨rfl,rfl⟩
  | (.ident name span,ty) :: rest,self,accepted => by
    simp only [Analyzer.bindPayload,bind_accepts] at accepted
    obtain ⟨middle,bound,tail⟩ := accepted
    have head := addBinding_kept bound
    have rest := bindPayload_kept tail
    exact ⟨rest.functions.trans head.functions,rest.depth.trans head.depth⟩
  | (.wildcard _,_) :: rest,self,accepted | (.intLit ..,_) :: rest,self,accepted
  | (.floatLit ..,_) :: rest,self,accepted | (.stringLit ..,_) :: rest,self,accepted
  | (.boolLit ..,_) :: rest,self,accepted | (.enum ..,_) :: rest,self,accepted => by
    simp only [Analyzer.bindPayload] at accepted
    exact bindPayload_kept accepted

theorem bindPatternVars_kept {pattern : Pattern} {scrutTy : BcType} {span : Span}
    (accepted : self.bindPatternVars pattern scrutTy span = .ok next) :
    Kept self next := by
  have kept (same : self = next) : Kept self next := same ▸ ⟨rfl,rfl⟩
  unfold bindPatternVars at accepted
  split at accepted
  all_goals try exact kept ((pure_accepts _ _).mp accepted)
  · exact addBinding_kept accepted
  · split at accepted
    · split at accepted
      · split at accepted
        · exact bindPayload_kept accepted
        · split at accepted
          · exact bindPayload_kept accepted
          · simp at accepted
      · simp at accepted
    · split at accepted
      · split at accepted
        · exact bindPayload_kept accepted
        · exact kept ((pure_accepts _ _).mp accepted)
      · exact kept ((pure_accepts _ _).mp accepted)

theorem checkStmt_kept {stmt : Stmt} {log : List BcType}
    (accepted : checkStmt self stmt = .ok (next,log)) : Kept self next := by
  rcases checkStmt_next accepted with rfl | ⟨name,isMut,ty,expected,span,-,bound⟩
  · exact ⟨rfl,rfl⟩
  · exact addBinding_kept bound

theorem Ready.stmt {stmt : Stmt} {log : List BcType} (ready : Ready program depth self)
    (accepted : checkStmt self stmt = .ok (next,log)) : Ready program depth next :=
  ready.after (checkStmt_grounded ready.grounded accepted) (checkStmt_kept accepted)

theorem Ready.stmts : ∀ {stmts : List Stmt} {self : Analyzer} {log : List BcType},
    Ready program depth self → checkStmts self stmts = .ok (next,log) → Ready program depth next
  | [],self,log,ready,accepted => by
    obtain ⟨⟩ := checkStmts_nil accepted
    exact ready
  | stmt :: stmts,self,log,ready,accepted => by
    obtain ⟨middle,_,last,_,head,tail,⟨⟩⟩ := checkStmts_cons accepted
    exact (ready.stmt head).stmts tail

theorem Ready.bind {name : String} {ty : BcType} {isMut : Bool} {span : Span}
    (ready : Ready program depth self) (known : ty.defined program.declared = true)
    (accepted : self.addBinding name ty isMut span = .ok next) : Ready program depth next :=
  ready.after (ready.grounded.bind known accepted) (addBinding_kept accepted)

/-- The type cached on a node is the checked one, hence defined. -/
theorem verifyNode (c : String) {e : Expr} {ir : Ir.Expr} (ready : Ready program depth self)
    (expected : ∀ ty, E = some ty → ty.defined program.declared = true)
    (accepted : checkExpr self E e = .ok t) (same : ir.types = t.log) :
    Ir.verifyType program c ir.ty = [] := by
  rw [verifyType_nil,ty_of_types accepted same]
  exact checkExpr_defined e ready.grounded expected accepted

theorem lowerArgs_length : ∀ {args : List Expr} {types : List BcType} {irs : List Ir.Expr},
    lowerArgs lw types args = some irs → irs.length = args.length
  | [],types,irs,lowered => by
    simp only [lowerArgs,Option.some.injEq] at lowered
    simp [← lowered]
  | arg :: args,[],irs,lowered => by
    simp only [lowerArgs,bind_lowers,pure_lowers] at lowered
    obtain ⟨ir,-,rest,tail,rfl⟩ := lowered
    simp [lowerArgs_length tail]
  | arg :: args,ty :: types,irs,lowered => by
    simp only [lowerArgs,bind_lowers,pure_lowers] at lowered
    obtain ⟨ir,-,rest,tail,rfl⟩ := lowered
    simp [lowerArgs_length tail]

/-- A call that keeps a name is a call of the function declared under it. -/
theorem verifyCallee_named (c : String) {name : String} {args : List Expr} {irs : List Ir.Expr}
    (same : Matches lw self ctx) (ready : Ready program depth self)
    (free : CollectionIntrinsic.resolveWithAlias name = none)
    (checked : CallChecked self name args t)
    (arity : arityAgrees program.functions name = true) (size : irs.length = args.length) :
    Ir.verifyCallee program c (lw.resolveCallee name) irs.length = [] := by
  have direct (counted : ∀ func, self.functions.lookup name = some func →
      func.params.length = args.length) :
      Ir.verifyCallee program c (.named name) irs.length = [] := by
    unfold Ir.verifyCallee
    rw [ready.functions]
    cases known : self.functions.lookup name with
    | none => simp [known]
    | some func => simp [known,counted func known,size]
  have special {count : Nat} (named : specialArity name = some count)
      (given : args.length = count) (func : FunctionInfo)
      (known : self.functions.lookup name = some func) : func.params.length = args.length := by
    rw [ready.functions] at arity
    simpa [arityAgrees,named,known,given] using arity
  unfold resolveCallee
  rw [free,same.lookupType]
  cases checked with
  | collection resolved => simp [free] at resolved
  | len named =>
    dsimp only
    split
    next => rfl
    next => exact direct (special (by simp [specialArity,named]) rfl)
  | push named =>
    dsimp only
    split
    next => rfl
    next => exact direct (special (by simp [specialArity,named]) rfl)
  | pop named =>
    dsimp only
    split
    next => rfl
    next => exact direct (special (by simp [specialArity,named]) rfl)
  | pointer _ _ bound typed => simp [bound,typed,Ir.verifyCallee]
  | function _ _ unbound known checked =>
    dsimp only
    split
    next => rfl
    next =>
      refine direct fun func found => ?_
      obtain rfl := Option.some.inj (known.symm.trans found)
      simpa using checked.length.symm

/-- Both branch types of a join may stand for the joined type. -/
theorem compatible_join {a b ty : BcType} (joined : a.compatibleJoin b none = some ty) :
    a.isCompatibleWith ty = true ∧ b.isCompatibleWith ty = true := by
  have itself (x : BcType) : x.isCompatibleWith x = true := by simp [BcType.isCompatibleWith]
  unfold BcType.compatibleJoin at joined
  simp only [Option.filter_none] at joined
  split at joined
  next same =>
    obtain rfl : a = b := by simpa using same
    exact Option.some.inj joined ▸ ⟨itself a,itself a⟩
  next =>
    split at joined
    next compatible => exact Option.some.inj joined ▸ ⟨compatible,itself b⟩
    next =>
      split at joined
      next compatible => exact Option.some.inj joined ▸ ⟨itself a,compatible⟩
      next => simp at joined

theorem compatible_trans {a b d : BcType} (first : a.isCompatibleWith b = true)
    (second : b.isCompatibleWith d = true) : a.isCompatibleWith d = true := by
  rcases BcType.compatible_cases first with rfl | ⟨params,ret,rfl,rfl⟩
  · exact second
  · rcases BcType.compatible_cases second with rfl | ⟨_,_,impure,-⟩
    · exact first
    · simp at impure

theorem compatible_matchType {types : List BcType} {ty : BcType}
    (joined : Lowering.matchType types = some ty) : ∀ arm ∈ types, arm.isCompatibleWith ty = true := by
  have join : ∀ (rest : List BcType) (start : BcType), joinArms start rest = some ty →
      ∀ arm ∈ start :: rest, arm.isCompatibleWith ty = true := by
    intro rest
    induction rest with
    | nil =>
      intro start joined
      simp only [joinArms,Option.some.injEq] at joined
      simp [joined,BcType.isCompatibleWith]
    | cons arm rest ih =>
      intro start joined
      simp only [joinArms,bind_lowers] at joined
      obtain ⟨middle,found,joined⟩ := joined
      have later := ih middle joined
      simp only [List.forall_mem_cons] at later ⊢
      obtain ⟨first,second⟩ := compatible_join found
      exact ⟨compatible_trans first later.1,compatible_trans second later.1,later.2⟩
  cases types with
  | nil => simp
  | cons first rest => exact join rest first joined

theorem callback_defined {names : Names} (intrinsic : CollectionIntrinsic) :
    (intrinsic.callbackType.getD .unit).defined names = true := by
  unfold CollectionIntrinsic.callbackType
  cases intrinsic.op <;> cases intrinsic.source <;> cases intrinsic.target <;> simp

theorem restTypes_defined {names : Names} (intrinsic : CollectionIntrinsic) {elemTy : BcType}
    (known : elemTy.defined names = true) : ∀ ty ∈ restTypes intrinsic elemTy,
    ty.defined names = true := by
  have callback := @callback_defined names intrinsic
  cases op : intrinsic.op <;> simp [restTypes,op,known,callback]

theorem placeType_defined : ∀ {accessors : List PlaceAccessor} {use : PlaceUse} {ty : BcType}
    {span : Span} {result : BcType × List BcType}, Grounded program.declared self →
    ty.defined program.declared = true → checkPlace self use ty span accessors = .ok result →
    result.1.defined program.declared = true
  | [],use,ty,span,result,grounded,known,accepted => by
    simpa [checkPlace_nil accepted] using known
  | .field field :: accessors,use,ty,span,result,grounded,known,accepted => by
    obtain ⟨fieldTy,typed,rest⟩ := checkPlace_field accepted
    exact placeType_defined grounded (grounded.fieldType typed) rest
  | .index e :: accessors,use,ty,span,result,grounded,known,accepted => by
    obtain ⟨_,elem,_,-,-,array,rest,-⟩ := checkPlace_index accepted
    have last := placeType_defined grounded (by rwa [← BcType.defined_element array]) rest
    exact last

theorem placeRoot_lookup {name : String} {accessors : List PlaceAccessor} {placeSpan span : Span}
    {root : BindingInfo} (found : self.checkPlaceRoot (.mk name accessors placeSpan) span = .ok root) :
    self.lookupVar name = some root := by
  unfold checkPlaceRoot at found
  split at found
  next => simp at found
  next info known =>
    simp only [unless_accepts,pure_accepts] at found
    simpa [Place.name,found.2] using known

end Oscan
