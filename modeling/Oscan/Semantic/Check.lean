import Oscan.Semantic.Pattern
import Oscan.Semantic.Purity

/-! The type checker. An expression leaves the scope stack as it found it, so only a
statement returns a new analyzer. -/
namespace Oscan.Semantic
open Ast

/-- The type of a construct, and the types given to all expression occurrences inside
it in the order the checker settles them, its own last. -/
structure Typing where
  ty : BcType
  log : List BcType

def Typing.node (ty : BcType) (inner : List BcType) : Typing := ⟨ty,inner ++ [ty]⟩

def joinArmTypes (expected : Option BcType) :
    BcType → List (BcType × Span) → Check BcType
  | resultTy,[] => return resultTy
  | resultTy,(ty,span) :: rest =>
    match resultTy.compatibleJoin ty expected with
    | none => reject span s!"match arm type mismatch: {resultTy} vs {ty}"
    | some joined => joinArmTypes expected joined rest

/-- Whether an interpolated part of this type is rendered from a number. -/
def partIsNumeric (ty : BcType) (span : Span) : Check Bool :=
  match ty with
  | .str | .bool => return false
  | .i32 | .i64 | .f64 => return true
  | _ => reject span
      s!"interpolated string expressions must be str, i32, i64, f64, or bool, got {ty}"

/-- A place is walked from its root; the result is the type of the addressed cell. -/
inductive PlaceUse where
  | assign | compound
deriving DecidableEq

namespace Analyzer

/-- What `check_call` finds for a name that is not built into the checker. A call through
an impure pointer is rejected only after its arguments are checked. -/
structure CallTarget where
  params : List BcType
  ret : BcType
  impurePointer : Bool

def isSpecialCall (name : String) : Bool := name == "len" || name == "push" || name == "pop"

def callTarget (self : Analyzer) (name : String) (argCount : Nat) (span : Span) :
    Check CallTarget :=
  match self.lookupVar name with
  | some info =>
    match info.ty with
    | .fnPtr paramTypes retType isPure =>
      if argCount != paramTypes.length then
        reject span (s!"function pointer '{name}' expects {paramTypes.length} args, " ++
          s!"got {argCount}")
      else return ⟨paramTypes,retType,!isPure⟩
    | _ => reject span s!"'{name}' is not a function"
  | none =>
    match self.functions.lookup name with
    | none => reject span s!"undefined function '{name}'"
    | some func =>
      if self.inPureFn && (!func.isPure || func.isExtern) then
        reject span s!"pure function cannot call impure function '{name}'"
      else if argCount != func.params.length then
        reject span s!"'{name}' expects {func.params.length} args, got {argCount}"
      else return ⟨func.params.map (·.2),func.returnType,false⟩

def isDynamicArray : BcType → Bool
  | .array _ => true
  | _ => false

def checkMutatedTarget (self : Analyzer) (intrinsic : CollectionIntrinsic) (calledName : String)
    (target : Expr) : Check Unit :=
  if intrinsic.isMutating then self.requireMutableCollectionTarget calledName target
  else return ()

/-- The binding an assignment goes to. An index anywhere in the place lifts the
requirement that the root is mutable. -/
def checkPlaceRoot (self : Analyzer) (target : Place) (span : Span) : Check BindingInfo :=
  match self.lookupVar target.name with
  | none => reject span s!"undefined variable '{target.name}'"
  | some info =>
    let hasIndex := target.accessors.any fun
      | .index _ => true
      | .field _ => false
    if !info.isMut && !hasIndex then
      reject span s!"cannot assign to immutable variable '{target.name}'"
    else return info

mutual
def checkExpr (self : Analyzer) (expected : Option BcType) : Expr → Check Typing
  | .intLit value span =>
    if value < -2147483648 || value > 2147483647 then
      reject span ("integer literal out of range for i32; build larger i64 values from " ++
        "in-range i32 values with explicit casts")
    else return .node .i32 []
  | .floatLit .. => return .node .f64 []
  | .stringLit .. => return .node .str []
  | .interpolatedString parts span => do
    let (renderedParts,numeric,log) ← checkParts self parts
    let needsImpureOps := numeric || renderedParts > 1
    if self.inPureFn && needsImpureOps then
      reject span "pure function cannot use interpolated string that allocates"
    else return .node .str log
  | .boolLit .. => return .node .bool []
  | .ident name span => return .node (← self.identType name span) []
  | .binaryOp op left right span => do
    let lt ← checkExpr self none left
    let rt ← checkExpr self none right
    return .node (← binaryOpType op lt.ty rt.ty span) (lt.log ++ rt.log)
  | .unaryOp op operand span => do
    let t ← checkExpr self none operand
    return .node (← unaryOpType op t.ty span) t.log
  | .cast inner ty span => do
    let source ← checkExpr self none inner
    let target ← self.resolveType ty
    return .node (← castType source.ty target span) source.log
  | .call callee args span =>
    match callee with
    | .ident name _ =>
      -- `check_call` asks this first; asked here, every recursive call goes to a subterm.
      match CollectionIntrinsic.resolveWithAlias name with
      | some intrinsic => do
        let t ← checkCollectionCall self intrinsic name args span
        return .node t.ty t.log
      | none =>
        if isSpecialCall name then do
          let t ← checkSpecialCall self name args span
          return .node t.ty t.log
        else do
          let target ← self.callTarget name args.length span
          let log ← checkArgs self name 1 target.params args
          if self.inPureFn && target.impurePointer then
            reject span s!"pure function cannot call impure function pointer '{name}'"
          else return .node target.ret log
    | _ => reject span "expected function name"
  | .fieldAccess obj field span => do
    let t ← checkExpr self none obj
    return .node (← self.fieldType t.ty field span) t.log
  | .index arr index span => do
    let arrTy ← checkExpr self none arr
    let idxTy ← checkExpr self none index
    if idxTy.ty != .i32 then reject span s!"array index must be i32, got {idxTy.ty}"
    else if arrTy.ty == .str then return .node .i32 (arrTy.log ++ idxTy.log)
    else return .node (← elementType arrTy.ty span) (arrTy.log ++ idxTy.log)
  | .block b => do
    let t ← checkBlock self b expected
    return .node t.ty t.log
  | .arena body span =>
    if self.inPureFn then
      reject span "arena blocks are only allowed in impure functions (fn!)"
    else do
      let t ← checkBlock self body expected
      if !t.ty.isArenaSafe then
        reject span (s!"arena block cannot return arena-allocated type '{t.ty}'" ++
          " — only primitives can escape")
      else return .node t.ty t.log
  | .ifExpr condition thenBlock elseBranch span => do
    let condTy ← checkExpr self none condition
    if condTy.ty != .bool then
      reject condition.span s!"if condition must be bool, got {condTy.ty}"
    else do
      let thenTy ← checkBlock self thenBlock expected
      match elseBranch with
      | some elseExpr => do
        let elseTy ← checkExpr self expected elseExpr
        match thenTy.ty.compatibleJoin elseTy.ty expected with
        | some joined => return .node joined (condTy.log ++ thenTy.log ++ elseTy.log)
        | none => reject span s!"if/else type mismatch: {thenTy.ty} vs {elseTy.ty}"
      | none =>
        if thenTy.ty != .unit then reject span "if without else must have unit type"
        else return .node .unit (condTy.log ++ thenTy.log)
  | .matchExpr scrutinee arms span => do
    let scrutTy ← checkExpr self none scrutinee
    let (armTypes,seenVariants,log) ← checkArms self scrutTy.ty span expected [] arms
    let hasWildcard := arms.any fun arm => isCatchAll arm.pattern
    self.checkExhaustive scrutTy.ty hasWildcard seenVariants span
    match armTypes with
    | [] => return .node .unit (scrutTy.log ++ log)
    | (first,_) :: rest =>
      return .node (← joinArmTypes expected first rest) (scrutTy.log ++ log)
  | .tryExpr c span => do
    let callTy ← checkExpr self none c
    match callTy.ty with
    | .result okTy errTy =>
      match self.currentFnReturnType with
      | some (.result _ fnErr) =>
        if !errTy.isCompatibleWith fnErr then
          reject span s!"try error type mismatch: {errTy} vs {fnErr}"
        else return .node okTy callTy.log
      | _ => reject span "try can only be used in a function returning Result"
    | _ => reject span s!"try requires Result, got {callTy.ty}"
  | .arrayLit elements span =>
    match elements with
    | [] =>
      match expected with
      | some (.array elem) | some (.fixedArray elem _) => return .node (.array elem) []
      | _ => reject span "cannot infer element type of empty array"
    | first :: rest => do
      let firstTy ← checkExpr self none first
      let log ← checkElements self firstTy.ty rest
      let ty := match expected with
        | some (.fixedArray elem size) =>
          if elem == firstTy.ty && size == ((first :: rest).length : Int) then
            .fixedArray firstTy.ty size
          else .array firstTy.ty
        | _ => .array firstTy.ty
      return .node ty (firstTy.log ++ log)
  | .structLit name fields span =>
    match self.structs.lookup name with
    | none => reject span s!"undefined struct '{name}'"
    | some info => do
      let (provided,log) ← checkFields self name info [] fields
      let missing := (info.fields.map (·.1)).filter fun f => !provided.contains f
      if !missing.isEmpty then
        let names := ", ".intercalate (missing.map fun f => "\"" ++ f ++ "\"")
        reject span s!"missing fields: [{names}]"
      else return .node (.struct name) log
  | .enumConstructor enumName variant args span =>
    if enumName == "Result" then
      match variant,args with
      | "Ok",[arg] =>
        match self.inferResultType expected with
        | some (.result okTy errTy) => do
          let actual ← checkExpr self (some okTy) arg
          if !actual.ty.isCompatibleWith okTy then
            reject arg.span s!"Result::Ok: expected {okTy}, got {actual.ty}"
          else return .node (.result okTy errTy) actual.log
        | _ => do
          let _ ← checkExpr self none arg
          reject span "cannot infer Result error type"
      | "Ok",_ => reject span "Result::Ok takes 1 argument"
      | "Err",[arg] =>
        match self.inferResultType expected with
        | some (.result okTy errTy) => do
          let actual ← checkExpr self (some errTy) arg
          if !actual.ty.isCompatibleWith errTy then
            reject arg.span s!"Result::Err: expected {errTy}, got {actual.ty}"
          else return .node (.result okTy errTy) actual.log
        | _ => do
          let _ ← checkExpr self none arg
          reject span "cannot infer Result ok type"
      | "Err",_ => reject span "Result::Err takes 1 argument"
      | _,_ => reject span s!"Result has no variant '{variant}'"
    else
      match self.enums.lookup enumName with
      | none => reject span s!"undefined enum '{enumName}'"
      | some info =>
        match info.variants.lookup variant with
        | none => reject span s!"enum '{enumName}' has no variant '{variant}'"
        | some payload =>
          if args.length != payload.length then
            reject span (s!"'{enumName}::{variant}' expects {payload.length} args, " ++
              s!"got {args.length}")
          else do
            let log ← checkPayload self payload args
            return .node (.enum enumName) log
/-- Number of rendered parts, whether a number is rendered, and the log. -/
def checkParts (self : Analyzer) : List InterpolatedStringPart →
    Check (Nat × Bool × List BcType)
  | [] => return (0,false,[])
  | .text text :: parts => do
    let (rendered,numeric,log) ← checkParts self parts
    return (rendered + (if text.isEmpty then 0 else 1),numeric,log)
  | .expr e :: parts => do
    self.ensureInterpolationExprPure e
    let t ← checkExpr self none e
    let number ← partIsNumeric t.ty e.span
    let (rendered,numeric,log) ← checkParts self parts
    return (rendered+1,number || numeric,t.log ++ log)
def checkArms (self : Analyzer) (scrutTy : BcType) (span : Span) (expected : Option BcType)
    (seenVariants : List String) : List MatchArm →
    Check (List (BcType × Span) × List String × List BcType)
  | [] => return ([],seenVariants,[])
  | .mk pattern body armSpan :: arms => do
    let seenVariants ← self.checkPatternCompat pattern scrutTy seenVariants span
    let inner ← self.pushScope.bindPatternVars pattern scrutTy armSpan
    let armTy ← checkExpr inner expected body
    let (types,seenVariants,log) ← checkArms self scrutTy span expected seenVariants arms
    return ((armTy.ty,armSpan) :: types,seenVariants,armTy.log ++ log)
def checkElements (self : Analyzer) (firstTy : BcType) : List Expr → Check (List BcType)
  | [] => return []
  | e :: es => do
    let t ← checkExpr self none e
    if t.ty != firstTy then
      reject e.span s!"array element type mismatch: {firstTy} vs {t.ty}"
    else return t.log ++ (← checkElements self firstTy es)
def checkFields (self : Analyzer) (name : String) (info : StructInfo)
    (provided : List String) : List FieldInit → Check (List String × List BcType)
  | [] => return (provided,[])
  | .mk fname value span :: fields =>
    if provided.contains fname then reject span s!"duplicate field '{fname}'"
    else
      match info.fields.lookup fname with
      | none => reject span s!"struct '{name}' has no field '{fname}'"
      | some fieldTy => do
        let actual ← checkExpr self (some fieldTy) value
        if !actual.ty.isCompatibleWith fieldTy then
          reject span s!"field '{fname}': expected {fieldTy}, got {actual.ty}"
        else do
          let (provided,log) ← checkFields self name info (fname :: provided) fields
          return (provided,actual.log ++ log)
def checkPayload (self : Analyzer) : List BcType → List Expr → Check (List BcType)
  | expectedTy :: payload,arg :: args => do
    let actual ← checkExpr self (some expectedTy) arg
    if !actual.ty.isCompatibleWith expectedTy then
      reject arg.span s!"expected {expectedTy}, got {actual.ty}"
    else return actual.log ++ (← checkPayload self payload args)
  | _,_ => return []
/-- Arguments against the parameter types of a function or function pointer. -/
def checkArgs (self : Analyzer) (name : String) (position : Nat) :
    List BcType → List Expr → Check (List BcType)
  | expectedTy :: params,arg :: args => do
    let actual ← checkExpr self (some expectedTy) arg
    if !actual.ty.isCompatibleWith expectedTy then
      reject arg.span s!"arg {position} of '{name}': expected {expectedTy}, got {actual.ty}"
    else return actual.log ++ (← checkArgs self name (position+1) params args)
  | _,_ => return []
/-- `len`, `push` and `pop`, which `check_call` knows by name. -/
def checkSpecialCall (self : Analyzer) (name : String) (args : List Expr) (span : Span) :
    Check Typing :=
  if name == "len" then
    match args with
    | [arr] => do
      let arrTy ← checkExpr self none arr
      match arrTy.ty with
      | .array _ | .fixedArray .. => return ⟨.i32,arrTy.log⟩
      | _ => reject span s!"len() expects array, got {arrTy.ty}"
    | _ => reject span "len() takes 1 argument"
  else if name == "push" then
    if self.inPureFn then reject span "pure function cannot call 'push'"
    else match args with
      | [arr,val] => do
        self.requireMutableCollectionTarget "push" arr
        let arrTy ← checkExpr self none arr
        match arrTy.ty with
        | .array elemTy => do
          let valTy ← checkExpr self (some elemTy) val
          if !valTy.ty.isCompatibleWith elemTy then
            reject val.span
              s!"push element type mismatch: expected {elemTy}, got {valTy.ty}"
          else return ⟨.unit,arrTy.log ++ valTy.log⟩
        | _ => reject span s!"push() expects dynamic array, got {arrTy.ty}"
      | _ => reject span "push() takes 2 arguments"
  else
    if self.inPureFn then reject span "pure function cannot call 'pop'"
    else match args with
      | [arr] => do
        self.requireMutableCollectionTarget "pop" arr
        let arrTy ← checkExpr self none arr
        match arrTy.ty with
        | .array elem => return ⟨elem,arrTy.log⟩
        | _ => reject span s!"pop() expects dynamic array, got {arrTy.ty}"
      | _ => reject span "pop() takes 1 argument"
/-- The arity check comes first, so an argument list of another length is rejected there. -/
def checkCollectionCall (self : Analyzer) (intrinsic : CollectionIntrinsic)
    (calledName : String) (args : List Expr) (span : Span) : Check Typing :=
  let wrongArity : Check Typing :=
    reject span s!"'{calledName}' expects {intrinsic.arity} args, got {args.length}"
  if args.length != intrinsic.arity then wrongArity
  else if self.inPureFn && !intrinsic.isPure then
    reject span s!"pure function cannot call impure function '{calledName}'"
  else
    match args with
    | [] => wrongArity
    | first :: rest => do
      self.checkMutatedTarget intrinsic calledName first
      if intrinsic.op == .repeat then
        let elem ← checkExpr self none first
        let log ← checkCollectionArgs self calledName 2 [.i32] rest
        return ⟨.array elem.ty,elem.log ++ log⟩
      else
        let expectedSource := intrinsic.source.map CoreType.bcType
        let arr ← checkExpr self (expectedSource.map .array) first
        match arrayElementType arr.ty with
        | none => reject first.span s!"{calledName}() expects an array, got {arr.ty}"
        | some elemTy =>
          if intrinsic.requiresDynamicArray && !isDynamicArray arr.ty then
            reject first.span s!"{calledName}() expects a dynamic array, got {arr.ty}"
          else if expectedSource.any (fun e => elemTy != e) then
            let want := expectedSource.getD .unit
            reject first.span s!"{calledName}() expects an array of {want}, got {arr.ty}"
          else
            match intrinsic.op with
            | .clone => return arr
            | .reverse | .clear | .sort => return ⟨.unit,arr.log⟩
            | .fill => do
              let log ← checkCollectionArgs self calledName 2 [elemTy] rest
              return ⟨.unit,arr.log ++ log⟩
            | .swap => do
              let log ← checkCollectionArgs self calledName 2 [.i32,.i32] rest
              return ⟨.unit,arr.log ++ log⟩
            | .extend =>
              match rest with
              | [source] => do
                let sourceTy ← checkExpr self (some (.array elemTy)) source
                match arrayElementType sourceTy.ty with
                | none =>
                  reject source.span
                    s!"{calledName}() source must be an array, got {sourceTy.ty}"
                | some sourceElem =>
                  if !sourceElem.isCompatibleWith elemTy then
                    reject source.span (s!"{calledName}() source element type mismatch: " ++
                      s!"expected {elemTy}, got {sourceElem}")
                  else return ⟨.unit,arr.log ++ sourceTy.log⟩
              | _ => wrongArity
            | .insert => do
              let log ← checkCollectionArgs self calledName 2 [.i32,elemTy] rest
              return ⟨.unit,arr.log ++ log⟩
            | .removeAt => do
              let log ← checkCollectionArgs self calledName 2 [.i32] rest
              return ⟨elemTy,arr.log ++ log⟩
            | .slice => do
              let log ← checkCollectionArgs self calledName 2 [.i32,.i32] rest
              return ⟨.array elemTy,arr.log ++ log⟩
            | .contains => do
              let log ← checkCollectionArgs self calledName 2 [elemTy] rest
              return ⟨.bool,arr.log ++ log⟩
            | .indexOf | .lastIndexOf | .count => do
              let log ← checkCollectionArgs self calledName 2 [elemTy] rest
              return ⟨.i32,arr.log ++ log⟩
            | .compare =>
              match rest with
              | [other] => do
                let otherTy ← checkExpr self (some (.array elemTy)) other
                if arrayElementType otherTy.ty != some elemTy then
                  reject other.span
                    s!"{calledName}() expects arrays with matching element types"
                else return ⟨.i32,arr.log ++ otherTy.log⟩
              | _ => wrongArity
            | .any | .all | .map | .filter | .forEach => do
              let callback := intrinsic.callbackType.getD .unit
              let log ← checkCollectionArgs self calledName 2 [callback] rest
              let ty := match intrinsic.op with
                | .any | .all => BcType.bool
                | .map => .array ((intrinsic.target.map CoreType.bcType).getD .unit)
                | .filter => .array elemTy
                | _ => .unit
              return ⟨ty,arr.log ++ log⟩
            | .fold => do
              let callback := intrinsic.callbackType.getD .unit
              let log ← checkCollectionArgs self calledName 2 [elemTy,callback] rest
              return ⟨elemTy,arr.log ++ log⟩
            | .repeat => wrongArity
/-- `check_collection_arg`, for the arguments from `position` on. -/
def checkCollectionArgs (self : Analyzer) (calledName : String) (position : Nat) :
    List BcType → List Expr → Check (List BcType)
  | expectedTy :: params,arg :: args => do
    let actual ← checkExpr self (some expectedTy) arg
    if !actual.ty.isCompatibleWith expectedTy then
      reject arg.span
        s!"arg {position} of '{calledName}': expected {expectedTy}, got {actual.ty}"
    else return actual.log ++ (← checkCollectionArgs self calledName (position+1) params args)
  | _,_ => return []
def checkBlock (self : Analyzer) (b : Block) (expected : Option BcType) : Check Typing :=
  match b with
  | .mk stmts tailExpr _ => do
    let (inner,log) ← checkStmts self.pushScope stmts
    let tail ← checkTail inner expected tailExpr
    return ⟨tail.ty,log ++ tail.log⟩
def checkTail (self : Analyzer) (expected : Option BcType) : Option Expr → Check Typing
  | none => return ⟨.unit,[]⟩
  | some e => checkExpr self expected e
def checkStmts (self : Analyzer) : List Stmt → Check (Analyzer × List BcType)
  | [] => return (self,[])
  | stmt :: stmts => do
    let (next,log) ← checkStmt self stmt
    let (last,rest) ← checkStmts next stmts
    return (last,log ++ rest)
/-- The body of a `for` shares the frame of its loop variable. -/
def checkLoopBody (self : Analyzer) : Block → Check (List BcType)
  | .mk stmts tailExpr _ => do
    let (inner,log) ← checkStmts self stmts
    let tail ← checkTail inner none tailExpr
    return log ++ tail.log
def checkPlace (self : Analyzer) (use : PlaceUse) (ty : BcType) (span : Span) :
    List PlaceAccessor → Check (BcType × List BcType)
  | [] => return (ty,[])
  | .field fname :: accessors => do
    let ty ← self.fieldType ty fname span
    checkPlace self use ty span accessors
  | .index idx :: accessors =>
    if use == .assign && ty == .str then
      reject span "cannot assign to string index: strings are immutable"
    else do
      let idxTy ← checkExpr self none idx
      if idxTy.ty != .i32 then reject span s!"array index must be i32, got {idxTy.ty}"
      else do
        let ty ← elementType ty span
        let (final,log) ← checkPlace self use ty span accessors
        return (final,idxTy.log ++ log)
def checkStmt (self : Analyzer) : Stmt → Check (Analyzer × List BcType)
  | .letStmt name isMut ty value span => do
    let expected ← self.resolveType ty
    let actual ← checkExpr self (some expected) value
    if !actual.ty.isCompatibleWith expected then
      reject span s!"let '{name}': expected {expected}, got {actual.ty}"
    else return (← self.addBinding name expected isMut span,actual.log)
  | .assign target value span =>
    match target with
    | .mk name accessors tspan => do
      let root ← self.checkPlaceRoot (.mk name accessors tspan) span
      let (ty,log) ← checkPlace self .assign root.ty span accessors
      let val ← checkExpr self (some ty) value
      if !val.ty.isCompatibleWith ty then
        reject span s!"assignment type mismatch: expected {ty}, got {val.ty}"
      else return (self,log ++ val.log)
  | .compoundAssign target op value span =>
    match target with
    | .mk name accessors tspan => do
      let root ← self.checkPlaceRoot (.mk name accessors tspan) span
      let (ty,log) ← checkPlace self .compound root.ty span accessors
      let val ← checkExpr self (some ty) value
      let _ ← checkBinaryOpTypes op ty val.ty span
      return (self,log ++ val.log)
  | .expr e _ => do
    let t ← checkExpr self none e
    return (self,t.log)
  | .whileStmt condition body span => do
    let condTy ← checkExpr self none condition
    if condTy.ty != .bool then reject span s!"while condition must be bool, got {condTy.ty}"
    else do
      let t ← checkBlock self.enterLoop body none
      return (self,condTy.log ++ t.log)
  | .forStmt var start stop body span => do
    let startTy ← checkExpr self none start
    let endTy ← checkExpr self none stop
    if startTy.ty != .i32 then reject span s!"for range start must be i32, got {startTy.ty}"
    else if endTy.ty != .i32 then reject span s!"for range end must be i32, got {endTy.ty}"
    else do
      let inner ← self.pushScope.addBinding var .i32 false span
      let log ← checkLoopBody inner.enterLoop body
      return (self,startTy.log ++ endTy.log ++ log)
  | .forIn var iterable body span => do
    let arrTy ← checkExpr self none iterable
    match arrayElementType arrTy.ty with
    | none => reject span s!"for-in requires an array type, got {arrTy.ty}"
    | some elemTy => do
      let inner ← self.pushScope.addBinding var elemTy false span
      let log ← checkLoopBody inner.enterLoop body
      return (self,arrTy.log ++ log)
  | .breakStmt span =>
    if self.loopDepth == 0 then reject span "break used outside of a loop"
    else return (self,[])
  | .continueStmt span =>
    if self.loopDepth == 0 then reject span "continue used outside of a loop"
    else return (self,[])
  | .returnStmt value span =>
    let fnRet := self.currentFnReturnType.getD .unit
    match value with
    | some e => do
      let t ← checkExpr self (some fnRet) e
      if !t.ty.isCompatibleWith fnRet then
        reject span s!"return type mismatch: expected {fnRet}, got {t.ty}"
      else return (self,t.log)
    | none =>
      if fnRet != .unit then
        reject span s!"return without value in function returning {fnRet}"
      else return (self,[])
  | .deferStmt e span =>
    if self.inPureFn then reject span "defer is only allowed in impure functions (fn!)"
    else
      match e with
      | .call .. => do
        let t ← checkExpr self none e
        return (self,t.log)
      | _ => reject span "defer requires a function call expression"
end

-- The equations of the checker, made once here for the modules that unfold it.
attribute [local simp] checkExpr checkParts checkArms checkElements checkFields checkPayload
  checkArgs checkSpecialCall checkCollectionCall checkCollectionArgs checkBlock checkTail
  checkStmts checkLoopBody checkPlace checkStmt

end Analyzer
end Oscan.Semantic
