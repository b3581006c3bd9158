import Oscan.Ir
import Oscan.Semantic.Scope

/-! Lowering of an accepted program to the typed IR. `none` is a panic: a failed
`expect`, an `unwrap` of nothing or an index out of bounds. -/
namespace Oscan

abbrev Lower := Option

structure Lowering where
  info : SemanticInfo
  scopes : List (Scope BcType)
  currentFnReturnType : Option BcType
  expectedArrayType : Option BcType
  expectedResultType : Option BcType

namespace Lowering

variable (self : Lowering)

def pushScope : Lowering := {self with scopes := [] :: self.scopes}

/-- Insertion into the innermost frame, of which there must be one. -/
def bindName (name : String) (ty : BcType) : Lower Lowering :=
  match self.scopes with
  | [] => none
  | _ :: _ => some {self with scopes := insertBinding name ty self.scopes}

def lookupType (name : String) : Option BcType :=
  (lookupScopes self.scopes name).or ((self.info.constants.lookup name).map (·.ty))

mutual
def resolveType : Ast.Ty → BcType
  | .primitive p _ => Semantic.primitive p
  | .named name _ =>
    if (self.info.structs.lookup name).isSome then .struct name else .enum name
  | .fixedArray elem size _ => .fixedArray (resolveType elem) size
  | .dynamicArray elem _ => .array (resolveType elem)
  | .result ok err _ => .result (resolveType ok) (resolveType err)
  | .fnPtr params ret isPure _ => .fnPtr (resolveTypes params) (resolveType ret) isPure
def resolveTypes : List Ast.Ty → List BcType
  | [] => []
  | p :: ps => resolveType p :: resolveTypes ps
end

def resolveReturn : Option Ast.Ty → BcType
  | some t => self.resolveType t
  | none => .unit

def resolveCallee (name : String) : Ir.Callee :=
  match CollectionIntrinsic.resolveWithAlias name with
  | some intrinsic => .collection intrinsic
  | none =>
    match self.lookupType name with
    | some (.fnPtr ..) => .var name
    | _ => .named name

/-- The parameter types of a typed collection intrinsic; the outer option is the panic. -/
def intrinsicParamTypes (intrinsic : CollectionIntrinsic) (source : CoreType) :
    Lower (Option (List BcType)) :=
  let arrayTy := BcType.array source.bcType
  match intrinsic.op with
  | .contains | .indexOf | .lastIndexOf | .count => some (some [arrayTy,source.bcType])
  | .compare => some (some [arrayTy,arrayTy])
  | .sort => some (some [arrayTy])
  | .any | .all | .map | .filter | .forEach => do
    let callback ← intrinsic.callbackType
    return some [arrayTy,callback]
  | .fold => do
    let callback ← intrinsic.callbackType
    return some [arrayTy,source.bcType,callback]
  | _ => some none

/-- What the scopes, the constants and the function table say of a called name. -/
def namedParamTypes (name : String) : Option (List BcType) :=
  match self.lookupType name with
  | some (.fnPtr params _ _) => some params
  | _ => (self.info.functions.lookup name).map fun f => f.params.map (·.2)

def paramTypesFor (name : String) : Lower (Option (List BcType)) :=
  match (CollectionIntrinsic.resolveWithAlias name).bind
      (fun intrinsic => intrinsic.source.map fun source => (intrinsic,source)) with
  | some (intrinsic,source) => intrinsicParamTypes intrinsic source
  | none => some (self.namedParamTypes name)

/-- `push_expected_type`; the old context comes back with the old value of `self`. -/
def withExpected (ty : BcType) : Lowering :=
  match ty with
  | .array _ | .fixedArray .. =>
    {self with expectedArrayType := some ty,expectedResultType := none}
  | .result .. => {self with expectedArrayType := none,expectedResultType := some ty}
  | _ => {self with expectedArrayType := none,expectedResultType := none}

/-- The context of a returned value. -/
def withReturn : Lowering :=
  match self.currentFnReturnType with
  | some ret => self.withExpected ret
  | none => self

/-- The result type of a collection intrinsic from the type of its first argument. -/
def collectionResultType (intrinsic : CollectionIntrinsic) (firstTy : BcType) : Lower BcType :=
  let elemTy := (arrayElementType firstTy).getD .unit
  match intrinsic.op with
  | .clone => some firstTy
  | .repeat => some (.array firstTy)
  | .removeAt | .fold => some elemTy
  | .slice | .filter => some (.array elemTy)
  | .map => intrinsic.target.map fun target => .array target.bcType
  | .contains | .any | .all => some .bool
  | .indexOf | .lastIndexOf | .count | .compare => some .i32
  | .reverse | .fill | .swap | .clear | .extend | .insert | .sort | .forEach => some .unit

/-- The result type of a called name, looked up as `namedParamTypes` looks up parameters. -/
def namedReturnType (name : String) : BcType :=
  match self.lookupType name with
  | some (.fnPtr _ ret _) => ret
  | _ => ((self.info.functions.lookup name).map (·.returnType)).getD .unit

def callResultType (name : String) (args : List Ir.Expr) : Lower BcType :=
  match CollectionIntrinsic.resolveWithAlias name with
  | some intrinsic => collectionResultType intrinsic ((args.head?.map Ir.Expr.ty).getD .unit)
  | none =>
    if name == "len" then some .i32
    else if name == "push" then some .unit
    else some (self.namedReturnType name)

/-- The type of a field; `unit` where there is none. -/
def fieldType (ty : BcType) (field : String) : BcType :=
  match ty with
  | .struct name =>
    ((self.info.structs.lookup name).bind fun s => s.fields.lookup field).getD .unit
  | _ => .unit

def placeFinalType (place : Ast.Place) : BcType :=
  place.accessors.foldl (fun ty accessor =>
    match accessor with
    | .field field => self.fieldType ty field
    | .index _ => (arrayElementType ty).getD .unit)
    ((self.lookupType place.name).getD .unit)

def identKind (name : String) : Ir.IdentKind × BcType :=
  match self.lookupType name with
  | some ty => (.value,ty)
  | none =>
    match self.info.functions.lookup name with
    | some fi => (.fnRef,.fnPtr (fi.params.map (·.2)) fi.returnType fi.isPure)
    | none => (.value,.unit)

def binaryOpType (op : BinOp) (left : BcType) : BcType :=
  match op with
  | .eq | .neq | .lt | .gt | .ltEq | .gtEq | .and | .or => .bool
  | _ => left

def unaryOpType (op : UnaryOp) (operand : BcType) : BcType :=
  match op with
  | .not => .bool
  | .neg => operand

/-- Indexing a string gives a code point. -/
def indexType : BcType → BcType
  | .array elem | .fixedArray elem _ => elem
  | .str => .i32
  | _ => .unit

def tryType : BcType → BcType
  | .result ok _ => ok
  | _ => .unit

/-- The element type that the context gives an empty array literal. -/
def emptyElemType : BcType :=
  (self.expectedArrayType.bind arrayElementType).getD .unit

def arrayLitType (elemTy : BcType) (count : Nat) : BcType :=
  match self.expectedArrayType with
  | some (.fixedArray expElem size) =>
    if expElem == elemTy && size == (count : Int) then .fixedArray elemTy size else .array elemTy
  | _ => .array elemTy

/-- The `Result` type of a constructor: the context, then the enclosing function. -/
def resultContext : Option BcType := self.expectedResultType.or self.currentFnReturnType

def payloadTypes (enumName variant : String) : List BcType :=
  if enumName == "Result" then
    match self.resultContext with
    | some (.result ok err) =>
      if variant == "Ok" then [ok] else if variant == "Err" then [err] else []
    | _ => []
  else ((self.info.enums.lookup enumName).bind fun info => info.variants.lookup variant).getD []

def constructorType (enumName : String) : BcType :=
  if enumName == "Result" then self.resultContext.getD .unit else .enum enumName

/-- The types that the arguments of a generic collection intrinsic after the first are
lowered under; `none` is its `unreachable!`. -/
def genericArgTypes (op : CollectionOp) (elemTy : BcType) : Lower (List BcType) :=
  match op with
  | .repeat | .removeAt => some [.i32]
  | .clone | .reverse | .clear => some []
  | .fill => some [elemTy]
  | .swap | .slice => some [.i32,.i32]
  | .extend => some [.array elemTy]
  | .insert => some [.i32,elemTy]
  | _ => none

/-- The names a payload pattern binds: the identifiers standing directly in it. -/
def bindPayload : Lowering → List (Pattern × BcType) → Lower Lowering
  | self,[] => some self
  | self,(.ident name _,ty) :: rest => do bindPayload (← self.bindName name ty) rest
  | self,_ :: rest => bindPayload self rest

def bindArm (pattern : Pattern) (scrutTy : BcType) : Lower Lowering :=
  match pattern,scrutTy with
  | .enum enumName variant bindings _,.enum ename =>
    let enumKey := if enumName.isEmpty then ename else enumName
    match (self.info.enums.lookup enumKey).bind fun info => info.variants.lookup variant with
    | some payload => self.bindPayload (bindings.zip payload)
    | none => some self
  | .enum _ variant bindings _,.result okTy errTy =>
    if variant == "Ok" then self.bindPayload ((bindings.take 1).map (·,okTy))
    else if variant == "Err" then self.bindPayload ((bindings.take 1).map (·,errTy))
    else some self
  | .ident name _,_ => self.bindName name scrutTy
  | _,_ => some self

/-- The join of the arms, from the first arm on. -/
def joinArms : BcType → List BcType → Lower BcType
  | ty,[] => some ty
  | ty,next :: rest => do joinArms (← ty.compatibleJoin next none) rest

def matchType : List BcType → Lower BcType
  | [] => some .unit
  | ty :: rest => joinArms ty rest

mutual
def lowerExpr (self : Lowering) : Ast.Expr → Lower Ir.Expr
  | .intLit value span => some (.intLit value span)
  | .floatLit value span => some (.floatLit value span)
  | .stringLit value span => some (.stringLit value span)
  | .boolLit value span => some (.boolLit value span)
  | .interpolatedString parts span => do return .interpolatedString (← lowerParts self parts) span
  | .ident name span =>
    let (kind,ty) := self.identKind name
    some (.ident name kind ty span)
  | .binaryOp op left right span => do
    let l ← lowerExpr self left
    let r ← lowerExpr self right
    return .binaryOp op l r (binaryOpType op l.ty) span
  | .unaryOp op operand span => do
    let o ← lowerExpr self operand
    return .unaryOp op o (unaryOpType op o.ty) span
  | .cast inner ty span => do
    let e ← lowerExpr self inner
    return .cast e (self.resolveType ty) span
  | .call callee args span => do
    let name := match callee with
      | .ident n _ => n
      | _ => "unknown"
    let loweredArgs ←
      match CollectionIntrinsic.resolveWithAlias name with
      | some ⟨op,none,_⟩ => lowerGenericCollectionArgs self op args
      | _ => do
        let paramTypes ← self.paramTypesFor name
        lowerArgs self (paramTypes.getD []) args
    let ty ← self.callResultType name loweredArgs
    return .call (self.resolveCallee name) loweredArgs ty span
  | .fieldAccess inner field span => do
    let e ← lowerExpr self inner
    return .fieldAccess e field (self.fieldType e.ty field) span
  | .index inner index span => do
    let e ← lowerExpr self inner
    let idx ← lowerExpr self index
    return .index e idx (indexType e.ty) span
  | .block b => do return .block (← lowerBlock self.pushScope b)
  | .ifExpr condition thenBlock elseBranch span => do
    let cond ← lowerExpr self condition
    let thenB ← lowerBlock self.pushScope thenBlock
    match elseBranch with
    | some elseExpr => do
      let elseB ← lowerExpr self elseExpr
      let ty ← thenB.ty.compatibleJoin elseB.ty none
      return .ifExpr cond thenB (some elseB) ty span
    | none => return .ifExpr cond thenB none .unit span
  | .matchExpr scrutinee arms span => do
    let scrut ← lowerExpr self scrutinee
    let loweredArms ← lowerArms self scrut.ty arms
    let ty ← matchType (loweredArms.map fun arm => arm.body.ty)
    return .matchExpr scrut loweredArms ty span
  | .tryExpr call span => do
    let c ← lowerExpr self call
    return .tryExpr c (tryType c.ty) span
  | .arrayLit elements span =>
    match elements with
    | [] => some (.arrayLit [] self.emptyElemType (.array self.emptyElemType) span)
    | first :: rest => do
      let head ← lowerExpr self first
      let tail ← lowerExprs self rest
      return .arrayLit (head :: tail) head.ty
        (self.arrayLitType head.ty (head :: tail).length) span
  | .structLit name fields span => do
    return .structLit name (← lowerFields self (self.info.structs.lookup name) fields) span
  | .enumConstructor enumName variant args span => do
    let loweredArgs ← lowerArgs self (self.payloadTypes enumName variant) args
    return .enumConstructor enumName variant loweredArgs (self.constructorType enumName) span
  | .arena body span => do return .arena (← lowerBlock self.pushScope body) span
def lowerParts (self : Lowering) :
    List Ast.InterpolatedStringPart → Lower (List Ir.InterpolatedStringPart)
  | [] => some []
  | .text text :: parts => do return .text text :: (← lowerParts self parts)
  | .expr e :: parts => do
    let lowered ← lowerExpr self e
    return .expr lowered :: (← lowerParts self parts)
def lowerExprs (self : Lowering) : List Ast.Expr → Lower (List Ir.Expr)
  | [] => some []
  | e :: es => do
    let lowered ← lowerExpr self e
    return lowered :: (← lowerExprs self es)
/-- An argument without a parameter type keeps the context of the call. -/
def lowerArgs (self : Lowering) : List BcType → List Ast.Expr → Lower (List Ir.Expr)
  | _,[] => some []
  | [],arg :: args => do
    let lowered ← lowerExpr self arg
    return lowered :: (← lowerArgs self [] args)
  | ty :: params,arg :: args => do
    let lowered ← lowerExpr (self.withExpected ty) arg
    return lowered :: (← lowerArgs self params args)
def lowerGenericCollectionArgs (self : Lowering) (op : CollectionOp) :
    List Ast.Expr → Lower (List Ir.Expr)
  | [] => none
  | first :: rest => do
    let array ← lowerExpr self first
    let types ← genericArgTypes op ((arrayElementType array.ty).getD .unit)
    return array :: (← lowerIndexedArgs self types rest)
/-- The arguments are read by position: a missing one panics, a further one is dropped. -/
def lowerIndexedArgs (self : Lowering) : List BcType → List Ast.Expr → Lower (List Ir.Expr)
  | [],_ => some []
  | _ :: _,[] => none
  | ty :: types,arg :: args => do
    let lowered ← lowerExpr (self.withExpected ty) arg
    return lowered :: (← lowerIndexedArgs self types args)
def lowerFields (self : Lowering) (info : Option StructInfo) :
    List Ast.FieldInit → Lower (List Ir.FieldInit)
  | [] => some []
  | .mk name value span :: fields => do
    let lowered ← match info.bind fun s => s.fields.lookup name with
      | some ty => lowerExpr (self.withExpected ty) value
      | none => lowerExpr self value
    return .mk name lowered span :: (← lowerFields self info fields)
def lowerArms (self : Lowering) (scrutTy : BcType) :
    List Ast.MatchArm → Lower (List Ir.MatchArm)
  | [] => some []
  | .mk pattern body span :: arms => do
    let inner ← self.pushScope.bindArm pattern scrutTy
    let lowered ← lowerExpr inner body
    return .mk pattern lowered span :: (← lowerArms self scrutTy arms)
/-- In the frame the caller has pushed. -/
def lowerBlock (self : Lowering) : Ast.Block → Lower Ir.Block
  | .mk stmts tailExpr span => do
    let (inner,lowered) ← lowerStmts self stmts
    return .mk lowered (← lowerTail inner tailExpr) span
def lowerTail (self : Lowering) : Option Ast.Expr → Lower (Option Ir.Expr)
  | none => some none
  | some e => do return some (← lowerExpr self e)
def lowerStmts (self : Lowering) : List Ast.Stmt → Lower (Lowering × List Ir.Stmt)
  | [] => some (self,[])
  | stmt :: stmts => do
    let (next,lowered) ← lowerStmt self stmt
    let (last,rest) ← lowerStmts next stmts
    return (last,lowered :: rest)
def lowerAccessors (self : Lowering) : List Ast.PlaceAccessor → Lower (List Ir.PlaceAccessor)
  | [] => some []
  | .field field :: accessors => do return .field field :: (← lowerAccessors self accessors)
  | .index idx :: accessors => do
    let lowered ← lowerExpr self idx
    return .index lowered :: (← lowerAccessors self accessors)
def lowerPlace (self : Lowering) : Ast.Place → Lower Ir.Place
  | .mk name accessors span => do
    let baseTy := (self.lookupType name).getD .unit
    return .mk name (← lowerAccessors self accessors) baseTy span
def lowerStmt (self : Lowering) : Ast.Stmt → Lower (Lowering × Ir.Stmt)
  | .letStmt name isMut ty value span => do
    let resolved := self.resolveType ty
    let lowered ← lowerExpr (self.withExpected resolved) value
    return (← self.bindName name resolved,.letStmt name isMut resolved lowered span)
  | .assign target value span => do
    let lowered ← lowerExpr (self.withExpected (self.placeFinalType target)) value
    return (self,.assign (← lowerPlace self target) lowered span)
  | .compoundAssign target op value span => do
    let lowered ← lowerExpr self value
    return (self,.compoundAssign (← lowerPlace self target) op lowered span)
  | .expr e span => do return (self,.expr (← lowerExpr self e) span)
  | .whileStmt condition body span => do
    let cond ← lowerExpr self condition
    return (self,.whileStmt cond (← lowerBlock self.pushScope body) span)
  | .forStmt var start stop body span => do
    let s ← lowerExpr self start
    let e ← lowerExpr self stop
    let inner ← self.pushScope.bindName var .i32
    return (self,.forStmt var s e (← lowerBlock inner body) span)
  | .forIn var iterable body span => do
    let it ← lowerExpr self iterable
    let inner ← self.pushScope.bindName var ((arrayElementType it.ty).getD .i32)
    return (self,.forIn var it (← lowerBlock inner body) span)
  | .returnStmt value span => do
    return (self,.returnStmt (← lowerTail self.withReturn value) span)
  | .deferStmt e span => do return (self,.deferStmt (← lowerExpr self e) span)
  | .breakStmt span => some (self,.breakStmt span)
  | .continueStmt span => some (self,.continueStmt span)
end

-- The equations of lowering, made once here for the modules that unfold it.
attribute [local simp] lowerExpr lowerParts lowerExprs lowerArgs lowerGenericCollectionArgs
  lowerIndexedArgs lowerFields lowerArms lowerBlock lowerTail lowerStmts lowerAccessors
  lowerPlace lowerStmt

def lowerParams (params : List Ast.Param) : List (String × BcType) :=
  params.map fun p => (p.name,self.resolveType p.ty)

def bindParams : Lowering → List (String × BcType) → Lower Lowering
  | self,[] => some self
  | self,(name,ty) :: params => do bindParams (← self.bindName name ty) params

def lowerStruct (s : Ast.StructDecl) : Ir.StructDef :=
  ⟨s.name,s.fields.map fun f => (f.name,self.resolveType f.ty),s.span⟩

def lowerEnum (e : Ast.EnumDecl) : Ir.EnumDef :=
  ⟨e.name,e.variants.map fun v => (v.name,v.payloadTypes.map self.resolveType),e.span⟩

def lowerExternBlock (eb : Ast.ExternBlock) : Ir.ExternBlock :=
  ⟨eb.decls.map fun ef =>
    ⟨ef.name,self.lowerParams ef.params,self.resolveReturn ef.returnType,ef.span⟩,eb.span⟩

def lowerConst (l : Ast.LetDecl) : Lower Ir.ConstDef := do
  let ty := self.resolveType l.ty
  return ⟨l.name,ty,← lowerExpr (self.withExpected ty) l.value,l.span⟩

/-- The body is lowered in the frame of the parameters, under whatever context is set. -/
def lowerFn (f : Ast.FnDecl) : Lower Ir.FnDef := do
  let returnType := self.resolveReturn f.returnType
  let params := self.lowerParams f.params
  let entered := {self with currentFnReturnType := some returnType}
  let inner ← entered.pushScope.bindParams params
  return ⟨f.name,params,returnType,← lowerBlock inner f.body,f.isPure,f.span⟩

/-- The definitions of each kind in source order, over the tables of the checker. -/
def lowerDecls : List Ast.TopDecl → Lower Ir.Program
  | [] => some ⟨self.info.structs,self.info.enums,self.info.functions,self.info.constants,
      [],[],[],[],[]⟩
  | .struct s :: decls => do
    let rest ← lowerDecls decls
    return {rest with structDefs := self.lowerStruct s :: rest.structDefs}
  | .enum e :: decls => do
    let rest ← lowerDecls decls
    return {rest with enumDefs := self.lowerEnum e :: rest.enumDefs}
  | .externBlock eb :: decls => do
    let rest ← lowerDecls decls
    return {rest with externBlocks := self.lowerExternBlock eb :: rest.externBlocks}
  | .letDecl l :: decls => do
    let def_ ← self.lowerConst l
    let rest ← lowerDecls decls
    return {rest with constDefs := def_ :: rest.constDefs}
  | .fn f :: decls => do
    let def_ ← self.lowerFn f
    let rest ← lowerDecls decls
    return {rest with fnDefs := def_ :: rest.fnDefs}
  | .useDecl .. :: decls => lowerDecls decls

end Lowering

def lowerProgram (program : Ast.Program) (info : SemanticInfo) : Lower Ir.Program :=
  Lowering.lowerDecls ⟨info,[],none,none,none⟩ program.decls

end Oscan
