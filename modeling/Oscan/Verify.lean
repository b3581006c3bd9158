import Oscan.Ir

/-! The structural verifier of the typed IR. Its result is the list of its errors. -/
namespace Oscan.Ir

section
variable (program : Program)

mutual
def verifyType (ctx : String) : BcType → List String
  | .struct name =>
    if (program.structs.lookup name).isSome then []
    else [s!"internal error in '{ctx}': reference to undefined struct '{name}'"]
  | .enum name =>
    if (program.enums.lookup name).isSome then []
    else [s!"internal error in '{ctx}': reference to undefined enum '{name}'"]
  | .array e => verifyType ctx e
  | .fixedArray e _ => verifyType ctx e
  | .result ok err => verifyType ctx ok ++ verifyType ctx err
  | .fnPtr params ret _ => verifyTypes ctx params ++ verifyType ctx ret
  | .i32 | .i64 | .f64 | .bool | .str | .unit | .handle | .map | .mapStrI32 | .mapStrI64
  | .mapStrF64 | .mapI32Str | .mapI32I32 => []
def verifyTypes (ctx : String) : List BcType → List String
  | [] => []
  | t :: ts => verifyType ctx t ++ verifyTypes ctx ts
end

/-- The type the verifier expects on a binary operation. -/
def binaryOpExpected (op : BinOp) (leftTy : BcType) : BcType :=
  match op with
  | .eq | .neq | .lt | .gt | .ltEq | .gtEq | .and | .or => .bool
  | .add | .sub | .mul | .div | .mod => leftTy

def unaryOpExpected (op : UnaryOp) (operandTy : BcType) : BcType :=
  match op with
  | .not => .bool
  | .neg => operandTy

def verifyCallee (ctx : String) (callee : Callee) (argCount : Nat) : List String :=
  match callee with
  | .named name =>
    match program.functions.lookup name with
    | some fi =>
      if fi.params.length != argCount then
        [s!"internal error in '{ctx}': call to '{name}' passes {argCount} argument(s), " ++
          s!"expected {fi.params.length}"]
      else []
    | none => []
  | _ => []

def verifyArrayLit (ctx : String) (elements : List Expr) (elemTy ty : BcType) : List String :=
  (match elements with
    | first :: _ =>
      if first.ty != elemTy then
        [s!"internal error in '{ctx}': array literal elem_ty {elemTy} does not match " ++
          s!"first element's type {first.ty}"]
      else []
    | [] => []) ++
  match ty with
  | .array inner =>
    if inner != elemTy then
      [s!"internal error in '{ctx}': array literal cached type [{inner}] does not match " ++
        s!"elem_ty {elemTy}"]
    else []
  | .fixedArray inner size =>
    (if inner != elemTy then
      [s!"internal error in '{ctx}': array literal cached type [{inner}; {size}] does not " ++
        s!"match elem_ty {elemTy}"]
    else []) ++
    (if size != (elements.length : Int) then
      [s!"internal error in '{ctx}': fixed array literal cached size {size} does not match " ++
        s!"element count {elements.length}"]
    else [])
  | other => [s!"internal error in '{ctx}': array literal has non-array cached type {other}"]

def verifyTry (ctx : String) (callTy ty : BcType) : List String :=
  match callTy with
  | .result ok _ =>
    if ty != ok then
      [s!"internal error in '{ctx}': try cached type {ty} does not match Ok payload {ok}"]
    else []
  | other => [s!"internal error in '{ctx}': try applied to non-Result cached type {other}"]

mutual
def verifyExpr (ctx : String) (loopDepth : Nat) (e : Expr) : List String :=
  verifyType program ctx e.ty ++
  match e with
  | .intLit .. | .floatLit .. | .stringLit .. | .boolLit .. | .ident .. => []
  | .interpolatedString parts _ => verifyParts ctx loopDepth parts
  | .binaryOp op left right ty _ =>
    verifyExpr ctx loopDepth left ++ verifyExpr ctx loopDepth right ++
    (let want := binaryOpExpected op left.ty
      if ty != want then
        [s!"internal error in '{ctx}': binary op '{op}' cached type {ty} does not match " ++
          s!"expected {want}"]
      else [])
  | .unaryOp op operand ty _ =>
    verifyExpr ctx loopDepth operand ++
    (let want := unaryOpExpected op operand.ty
      if ty != want then
        [s!"internal error in '{ctx}': unary op '{op}' cached type {ty} does not match " ++
          s!"expected {want}"]
      else [])
  | .cast inner _ _ => verifyExpr ctx loopDepth inner
  | .call callee args _ _ =>
    verifyCallee program ctx callee args.length ++ verifyExprs ctx loopDepth args
  | .fieldAccess inner _ _ _ => verifyExpr ctx loopDepth inner
  | .index inner index _ _ => verifyExpr ctx loopDepth inner ++ verifyExpr ctx loopDepth index
  | .block b => verifyBlock ctx loopDepth b
  | .ifExpr condition thenBlock elseBranch ty _ =>
    verifyExpr ctx loopDepth condition ++ verifyBlock ctx loopDepth thenBlock ++
    (match elseBranch with
      | some eb =>
        verifyExpr ctx loopDepth eb ++
        (if !thenBlock.ty.isCompatibleWith ty || !eb.ty.isCompatibleWith ty then
          [s!"internal error in '{ctx}': if/else branch type mismatch: " ++
            s!"{thenBlock.ty} vs {eb.ty}"]
        else [])
      | none =>
        if ty != .unit then
          [s!"internal error in '{ctx}': if without else has cached type {ty}, expected unit"]
        else [])
  | .matchExpr scrutinee arms ty _ =>
    verifyExpr ctx loopDepth scrutinee ++ verifyArms ctx loopDepth ty arms
  | .tryExpr c ty _ => verifyExpr ctx loopDepth c ++ verifyTry ctx c.ty ty
  | .arrayLit elements elemTy ty _ =>
    verifyExprs ctx loopDepth elements ++ verifyArrayLit ctx elements elemTy ty
  | .structLit _ fields _ => verifyFields ctx loopDepth fields
  | .enumConstructor _ _ args _ _ => verifyExprs ctx loopDepth args
  | .arena body _ => verifyBlock ctx loopDepth body
def verifyExprs (ctx : String) (loopDepth : Nat) : List Expr → List String
  | [] => []
  | e :: es => verifyExpr ctx loopDepth e ++ verifyExprs ctx loopDepth es
def verifyParts (ctx : String) (loopDepth : Nat) : List InterpolatedStringPart → List String
  | [] => []
  | .text _ :: parts => verifyParts ctx loopDepth parts
  | .expr e :: parts => verifyExpr ctx loopDepth e ++ verifyParts ctx loopDepth parts
def verifyFields (ctx : String) (loopDepth : Nat) : List FieldInit → List String
  | [] => []
  | .mk _ value _ :: fields =>
    verifyExpr ctx loopDepth value ++ verifyFields ctx loopDepth fields
def verifyArms (ctx : String) (loopDepth : Nat) (ty : BcType) : List MatchArm → List String
  | [] => []
  | .mk _ body _ :: arms =>
    verifyExpr ctx loopDepth body ++
    (if !body.ty.isCompatibleWith ty then
      [s!"internal error in '{ctx}': match arm cached type {body.ty} does not match " ++
        s!"match's cached type {ty}"]
    else []) ++ verifyArms ctx loopDepth ty arms
def verifyBlock (ctx : String) (loopDepth : Nat) : Block → List String
  | .mk stmts tailExpr _ =>
    verifyStmts ctx loopDepth stmts ++
    (match tailExpr with
      | some e => verifyExpr ctx loopDepth e
      | none => [])
def verifyStmts (ctx : String) (loopDepth : Nat) : List Stmt → List String
  | [] => []
  | stmt :: stmts => verifyStmt ctx loopDepth stmt ++ verifyStmts ctx loopDepth stmts
def verifyStmt (ctx : String) (loopDepth : Nat) : Stmt → List String
  | .letStmt _ _ ty value _ => verifyType program ctx ty ++ verifyExpr ctx loopDepth value
  | .assign target value _ => verifyPlace ctx loopDepth target ++ verifyExpr ctx loopDepth value
  | .compoundAssign target _ value _ =>
    verifyPlace ctx loopDepth target ++ verifyExpr ctx loopDepth value
  | .expr e _ => verifyExpr ctx loopDepth e
  | .whileStmt condition body _ =>
    verifyExpr ctx loopDepth condition ++ verifyBlock ctx (loopDepth+1) body
  | .forStmt _ start stop body _ =>
    verifyExpr ctx loopDepth start ++ verifyExpr ctx loopDepth stop ++
    verifyBlock ctx (loopDepth+1) body
  | .forIn _ iterable body _ =>
    verifyExpr ctx loopDepth iterable ++ verifyBlock ctx (loopDepth+1) body
  | .returnStmt value _ =>
    match value with
    | some e => verifyExpr ctx loopDepth e
    | none => []
  | .deferStmt e _ => verifyExpr ctx loopDepth e
  | .breakStmt _ =>
    if loopDepth == 0 then
      [s!"internal error in '{ctx}': 'break' outside of a loop reached lowering"]
    else []
  | .continueStmt _ =>
    if loopDepth == 0 then
      [s!"internal error in '{ctx}': 'continue' outside of a loop reached lowering"]
    else []
def verifyPlace (ctx : String) (loopDepth : Nat) : Place → List String
  | .mk _ accessors baseTy _ =>
    verifyType program ctx baseTy ++ verifyAccessors ctx loopDepth accessors
def verifyAccessors (ctx : String) (loopDepth : Nat) : List PlaceAccessor → List String
  | [] => []
  | .field _ :: accessors => verifyAccessors ctx loopDepth accessors
  | .index e :: accessors => verifyExpr ctx loopDepth e ++ verifyAccessors ctx loopDepth accessors
end

def verifyFn (def_ : FnDef) : List String :=
  verifyType program def_.name def_.returnType ++
  verifyTypes program def_.name (def_.params.map (·.2)) ++
  verifyBlock program def_.name 0 def_.body

def verifyConst (def_ : ConstDef) : List String :=
  verifyType program def_.name def_.ty ++ verifyExpr program def_.name 0 def_.value

def verifyExtern (def_ : ExternFnDef) : List String :=
  verifyTypes program def_.name (def_.params.map (·.2)) ++
  verifyType program def_.name def_.returnType

/-- All errors in the order `verify` reports them; it accepts when there is none. -/
def verify : List String :=
  program.fnDefs.flatMap (verifyFn program) ++
  program.structDefs.flatMap (fun d => verifyTypes program d.name (d.fields.map (·.2))) ++
  program.enumDefs.flatMap (fun d =>
    d.variants.flatMap fun v => verifyTypes program d.name v.2) ++
  program.externBlocks.flatMap (fun b => b.decls.flatMap (verifyExtern program)) ++
  program.constDefs.flatMap (verifyConst program)

end
end Oscan.Ir
