import Oscan.Preservation.Size

/-! The states of the checker and of lowering that correspond to each other, and the
lookups on which they then agree. -/
namespace Oscan
open Ast Semantic Semantic.Analyzer

/-- The two stand at the same point under the context `ctx`. -/
structure Matches (lw : Lowering) (sa : Analyzer) (ctx : Context) : Prop where
  info : lw.info = sa.info
  lookup : ∀ name, lookupScopes lw.scopes name = (lookupScopes sa.scopes name).map (·.ty)
  ret : lw.currentFnReturnType = sa.currentFnReturnType
  array : lw.expectedArrayType = ctx.array
  result : lw.expectedResultType = ctx.resultType

/-- A frame to bind names in is open on both sides. -/
structure FramedMatch (lw : Lowering) (sa : Analyzer) (ctx : Context) : Prop
    extends Matches lw sa ctx where
  lowFramed : lw.scopes ≠ []
  framed : sa.scopes ≠ []

variable {lw : Lowering} {self : Analyzer} {ctx : Context}

theorem lookupScopes_map {α β : Type} (f : α → β) (scopes : List (Scope α)) (name : String) :
    lookupScopes (scopes.map fun scope => scope.map fun b => (b.1,f b.2)) name =
      (lookupScopes scopes name).map f := by
  have frame (scope : Scope α) :
      List.lookup name (scope.map fun b => (b.1,f b.2)) = (scope.lookup name).map f := by
    induction scope with
    | nil => rfl
    | cons b scope ih =>
      obtain ⟨key,value⟩ := b
      simp only [List.map_cons,List.lookup_cons,ih]
      split <;> rfl
  induction scopes with
  | nil => rfl
  | cons scope scopes ih =>
    simp only [List.map_cons,lookupScopes,frame,ih]
    cases scope.lookup name <;> simp

theorem lowering_matches (self : Analyzer) (ctx : Context) : Matches (self.lowering ctx) self ctx where
  info := rfl
  lookup := lookupScopes_map (fun b : BindingInfo => b.ty) self.scopes
  ret := rfl
  array := rfl
  result := rfl

mutual
theorem resolveType_lowers (tables : lw.info = self.info) : ∀ (ty : Ty) {resolved : BcType},
    self.resolveType ty = .ok resolved → lw.resolveType ty = resolved
  | .primitive p _,resolved,accepted => by
    simpa [Analyzer.resolveType,Lowering.resolveType] using accepted
  | .named name span,resolved,accepted => by
    simp only [Analyzer.resolveType] at accepted
    simp only [Lowering.resolveType,tables,Analyzer.info]
    split at accepted
    next known => simpa [known] using accepted
    next unknown =>
      simp only [when_accepts,pure_accepts] at accepted
      simpa [unknown] using accepted.2
  | .fixedArray elem size span,resolved,accepted => by
    simp only [Analyzer.resolveType,bind_accepts,unless_accepts,pure_accepts] at accepted
    obtain ⟨e,checked,-,rfl⟩ := accepted
    simp [Lowering.resolveType,resolveType_lowers tables elem checked]
  | .dynamicArray elem span,resolved,accepted => by
    simp only [Analyzer.resolveType,bind_accepts,unless_accepts,pure_accepts] at accepted
    obtain ⟨e,checked,-,rfl⟩ := accepted
    simp [Lowering.resolveType,resolveType_lowers tables elem checked]
  | .result ok err span,resolved,accepted => by
    simp only [Analyzer.resolveType,bind_accepts,pure_accepts] at accepted
    obtain ⟨o,checkedOk,e,checkedErr,rfl⟩ := accepted
    simp [Lowering.resolveType,resolveType_lowers tables ok checkedOk,resolveType_lowers tables err checkedErr]
  | .fnPtr params ret isPure span,resolved,accepted => by
    simp only [Analyzer.resolveType,bind_accepts,pure_accepts] at accepted
    obtain ⟨ps,checkedParams,r,checkedRet,rfl⟩ := accepted
    simp [Lowering.resolveType,resolveTypes_lowers tables params checkedParams,
      resolveType_lowers tables ret checkedRet]
theorem resolveTypes_lowers (tables : lw.info = self.info) : ∀ (types : List Ty)
    {resolved : List BcType}, self.resolveTypes types = .ok resolved →
    lw.resolveTypes types = resolved
  | [],resolved,accepted => by
    simpa [Analyzer.resolveTypes,Lowering.resolveTypes] using accepted
  | ty :: types,resolved,accepted => by
    simp only [Analyzer.resolveTypes,bind_accepts,pure_accepts] at accepted
    obtain ⟨t,checked,ts,checkedRest,rfl⟩ := accepted
    simp [Lowering.resolveTypes,resolveType_lowers tables ty checked,
      resolveTypes_lowers tables types checkedRest]
end

namespace Matches

theorem pushScope (same : Matches lw self ctx) : FramedMatch lw.pushScope self.pushScope ctx where
  info := same.info
  lookup name := by simpa [Lowering.pushScope,Analyzer.pushScope] using same.lookup name
  ret := same.ret
  array := same.array
  result := same.result
  lowFramed := by simp [Lowering.pushScope]
  framed := by simp [Analyzer.pushScope]

theorem enterLoop (same : Matches lw self ctx) : Matches lw self.enterLoop ctx :=
  ⟨same.info,same.lookup,same.ret,same.array,same.result⟩

theorem withExpected (same : Matches lw self ctx) (ty : BcType) :
    Matches (lw.withExpected ty) self (.push ty) := by
  cases ty <;> exact ⟨same.info,same.lookup,same.ret,rfl,rfl⟩

theorem withReturn (same : Matches lw self ctx) :
    Matches lw.withReturn self (self.returnContext ctx) := by
  unfold Lowering.withReturn returnContext
  rw [same.ret]
  cases self.currentFnReturnType with
  | some ret => exact same.withExpected ret
  | none => exact same

theorem lookupType (same : Matches lw self ctx) (name : String) :
    lw.lookupType name = ((self.lookupVar name).map (·.ty)).or
      ((self.constants.lookup name).map (·.ty)) := by
  simp [Lowering.lookupType,same.lookup,same.info,Analyzer.info,lookupVar]

/-- Lookups depend on the scopes and the tables alone. -/
theorem namedParamTypes (same : Matches lw self ctx) (name : String) :
    (lw.namedParamTypes name).getD [] = self.pushedParams name := by
  have mirror := lowering_matches self .empty
  simp only [Lowering.namedParamTypes,pushedParams,same.lookupType,mirror.lookupType,same.info,
    mirror.info]

theorem namedReturnType (same : Matches lw self ctx) (name : String) :
    lw.namedReturnType name = (self.lowering .empty).namedReturnType name := by
  have mirror := lowering_matches self .empty
  simp only [Lowering.namedReturnType,same.lookupType,mirror.lookupType,same.info,mirror.info]

theorem resolveType (same : Matches lw self ctx) (ty : Ty) {resolved : BcType}
    (accepted : self.resolveType ty = .ok resolved) : lw.resolveType ty = resolved :=
  resolveType_lowers same.info ty accepted

theorem identType (same : Matches lw self ctx) {name : String} {span : Span} {ty : BcType}
    (accepted : self.identType name span = .ok ty) : (lw.identKind name).2 = ty := by
  unfold Analyzer.identType at accepted
  unfold Lowering.identKind
  rw [same.lookupType]
  split at accepted
  next info bound => simpa [bound] using accepted
  next unbound =>
    split at accepted
    next info known => simpa [unbound,known] using accepted
    next unknown =>
      split at accepted
      next fi found =>
        simp only [unless_accepts,pure_accepts] at accepted
        simpa [unbound,unknown,same.info,Analyzer.info,found] using accepted.2
      next => simp at accepted

theorem fieldType (same : Matches lw self ctx) {ty fieldTy : BcType} {field : String}
    {span : Span} (accepted : self.fieldType ty field span = .ok fieldTy) :
    lw.fieldType ty field = fieldTy := by
  unfold Analyzer.fieldType at accepted
  split at accepted
  next name =>
    split at accepted
    next => simp at accepted
    next info known =>
      split at accepted
      next => simp at accepted
      next t found =>
        obtain rfl := (pure_accepts _ _).mp accepted
        simp [Lowering.fieldType,same.info,Analyzer.info,known,found]
  next => simp at accepted

/-- The type of an assigned place. -/
theorem placeFinalType (same : Matches lw self ctx) {name : String}
    {accessors : List PlaceAccessor} {placeSpan span : Span} {root : BindingInfo}
    {use : PlaceUse} {result : BcType × List BcType}
    (found : self.checkPlaceRoot (.mk name accessors placeSpan) span = .ok root)
    (accepted : checkPlace self use root.ty span accessors = .ok result) :
    lw.placeFinalType (.mk name accessors placeSpan) = result.1 := by
  have bound : self.lookupVar name = some root := by
    unfold checkPlaceRoot at found
    split at found
    next => simp at found
    next info known =>
      simp only [unless_accepts,pure_accepts] at found
      simpa [Place.name,found.2] using known
  have start : (lw.lookupType name).getD .unit = root.ty := by
    simp [same.lookupType,bound]
  unfold Lowering.placeFinalType
  simp only [Place.name,Place.accessors,start]
  clear found bound start
  generalize root.ty = ty at accepted
  induction accessors generalizing ty result with
  | nil => simp [checkPlace_nil accepted]
  | cons accessor accessors ih =>
    cases accessor with
    | field field =>
      obtain ⟨fieldTy,typed,rest⟩ := checkPlace_field accepted
      simpa [same.fieldType typed] using ih _ rest
    | index e =>
      obtain ⟨it,elem,log,-,-,typed,rest,-⟩ := checkPlace_index accepted
      simpa [typed] using ih _ rest

end Matches

theorem binaryOpType_lowers {op : BinOp} {lt rt ty : BcType} {span : Span}
    (accepted : binaryOpType op lt rt span = .ok ty) : Lowering.binaryOpType op lt = ty := by
  cases op <;> cases lt <;> simp_all [binaryOpType,Lowering.binaryOpType]

theorem unaryOpType_lowers {op : UnaryOp} {t ty : BcType} {span : Span}
    (accepted : unaryOpType op t span = .ok ty) : Lowering.unaryOpType op t = ty := by
  cases op <;> cases t <;> simp_all [unaryOpType,Lowering.unaryOpType]

theorem indexType_lowers {t ty : BcType}
    (typed : t = .str ∧ ty = .i32 ∨ arrayElementType t = some ty) : Lowering.indexType t = ty := by
  cases t <;> simp_all [arrayElementType,Lowering.indexType]

/-- A new binding on both sides keeps them in step. -/
theorem FramedMatch.bind (same : FramedMatch lw self ctx) {name : String} {ty : BcType}
    {isMut : Bool} {span : Span} {next : Analyzer}
    (accepted : self.addBinding name ty isMut span = .ok next) :
    ∃ lw', lw.bindName name ty = some lw' ∧ FramedMatch lw' next ctx := by
  have inserted : next = {self with scopes := insertBinding name ⟨ty,isMut⟩ self.scopes} := by
    simp only [addBinding,bind_accepts,unless_accepts,pure_accepts] at accepted
    obtain ⟨-,-,-,rfl⟩ := accepted
    rfl
  have framed := same.lowFramed
  refine ⟨{lw with scopes := insertBinding name ty lw.scopes},?_,?_⟩
  · unfold Lowering.bindName
    split
    next empty => exact absurd empty framed
    next => rfl
  · subst inserted
    refine ⟨⟨same.info,?_,same.ret,same.array,same.result⟩,insertBinding_framed framed _ _,
      insertBinding_framed same.framed _ _⟩
    intro other
    simp only [lookupScopes_insert framed,lookupScopes_insert same.framed]
    split
    · rfl
    · exact same.lookup other

theorem FramedMatch.enterLoop (same : FramedMatch lw self ctx) :
    FramedMatch lw self.enterLoop ctx :=
  ⟨same.toMatches.enterLoop,same.lowFramed,same.framed⟩

theorem FramedMatch.bindPayload : ∀ (bindings : List (Pattern × BcType)) {lw : Lowering}
    {self next : Analyzer}, FramedMatch lw self ctx → self.bindPayload bindings = .ok next →
    ∃ lw', lw.bindPayload bindings = some lw' ∧ FramedMatch lw' next ctx
  | [],lw,self,next,same,accepted => by
    simp only [Analyzer.bindPayload,pure_accepts] at accepted
    exact ⟨lw,rfl,accepted ▸ same⟩
  | (.ident name span,ty) :: rest,lw,self,next,same,accepted => by
    simp only [Analyzer.bindPayload,bind_accepts] at accepted
    obtain ⟨middle,bound,tail⟩ := accepted
    obtain ⟨lw₁,lowBound,middleSame⟩ := same.bind bound
    obtain ⟨lw₂,lowTail,lastSame⟩ := FramedMatch.bindPayload rest middleSame tail
    exact ⟨lw₂,by simp [Lowering.bindPayload,lowBound,lowTail],lastSame⟩
  | (.wildcard _,_) :: rest,lw,self,next,same,accepted
  | (.intLit ..,_) :: rest,lw,self,next,same,accepted
  | (.floatLit ..,_) :: rest,lw,self,next,same,accepted
  | (.stringLit ..,_) :: rest,lw,self,next,same,accepted
  | (.boolLit ..,_) :: rest,lw,self,next,same,accepted
  | (.enum ..,_) :: rest,lw,self,next,same,accepted => by
    simp only [Analyzer.bindPayload] at accepted
    simpa only [Lowering.bindPayload] using FramedMatch.bindPayload rest same accepted

/-- An accepted pattern binds the same names with the same types on both sides. -/
theorem FramedMatch.bindArm (same : FramedMatch lw self ctx) {pattern : Pattern}
    {scrutTy : BcType} {seen seen' : List String} {span armSpan : Span} {owner next : Analyzer}
    (compatible : owner.checkPatternCompat pattern scrutTy seen span = .ok seen')
    (accepted : self.bindPatternVars pattern scrutTy armSpan = .ok next) :
    ∃ lw', lw.bindArm pattern scrutTy = some lw' ∧ FramedMatch lw' next ctx := by
  cases pattern with
  | wildcard | intLit | floatLit | stringLit | boolLit =>
    simp only [bindPatternVars,pure_accepts] at accepted
    exact ⟨lw,by simp [Lowering.bindArm],accepted ▸ same⟩
  | ident name =>
    simp only [bindPatternVars] at accepted
    simpa only [Lowering.bindArm] using same.bind accepted
  | enum enumName variant bindings =>
    unfold bindPatternVars at accepted
    dsimp only at accepted
    split at accepted
    next =>
      split at accepted
      next ok err =>
        unfold Lowering.bindArm
        dsimp only
        split at accepted
        next isOk => simpa [isOk] using same.bindPayload _ accepted
        next notOk =>
          split at accepted
          next isErr => simpa [isErr,notOk] using same.bindPayload _ accepted
          next => simp at accepted
      next => simp at accepted
    next user =>
      obtain ⟨ename,rfl,named⟩ : ∃ ename, scrutTy = .enum ename ∧ enumName = ename := by
        unfold checkPatternCompat at compatible
        simp only [user,if_false,Bool.false_eq_true] at compatible
        split at compatible
        next ename =>
          simp only [unless_accepts] at compatible
          exact ⟨ename,rfl,by simpa using compatible.1⟩
        next => simp at compatible
      unfold Lowering.bindArm
      simp only [named,ite_self,same.info,Analyzer.info]
      dsimp only at accepted
      split at accepted
      next payload known => simpa only [known] using same.bindPayload _ accepted
      next unknown =>
        obtain rfl := (pure_accepts _ _).mp accepted
        exact ⟨lw,by simp only [unknown],same⟩

end Oscan
