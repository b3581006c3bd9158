import Oscan.Builtins
import Oscan.CompileError

/-! The state of the semantic analyzer, its scope stack and its type lookups. -/
namespace Oscan

structure BindingInfo where
  ty : BcType
  isMut : Bool

/-- One frame of bindings; a later binding stands before an earlier one. -/
abbrev Scope (α : Type) := List (String × α)

/-- Innermost frame first. -/
def lookupScopes {α : Type} : List (Scope α) → String → Option α
  | [],_ => none
  | scope :: scopes,name => (scope.lookup name).or (lookupScopes scopes name)

def insertBinding {α : Type} (name : String) (value : α) : List (Scope α) → List (Scope α)
  | [] => []
  | scope :: scopes => ((name,value) :: scope) :: scopes

@[simp] theorem lookupScopes_push {α : Type} (scopes : List (Scope α)) (name : String) :
    lookupScopes ([] :: scopes) name = lookupScopes scopes name := by
  simp [lookupScopes]

theorem lookupScopes_insert {α : Type} {scopes : List (Scope α)} (framed : scopes ≠ [])
    (name other : String) (value : α) :
    lookupScopes (insertBinding name value scopes) other =
      if other = name then some value else lookupScopes scopes other := by
  cases scopes with
  | nil => exact absurd rfl framed
  | cons scope scopes =>
    by_cases same : other = name
    · simp [insertBinding,lookupScopes,same]
    · simp [insertBinding,lookupScopes,List.lookup_cons,beq_eq_false_iff_ne.mpr same,same]

theorem insertBinding_framed {α : Type} {scopes : List (Scope α)} (framed : scopes ≠ [])
    (name : String) (value : α) : insertBinding name value scopes ≠ [] := by
  cases scopes <;> simp_all [insertBinding]

namespace Semantic

structure Analyzer where
  structs : List (String × StructInfo)
  enums : List (String × EnumInfo)
  functions : List (String × FunctionInfo)
  constants : List (String × ConstInfo)
  scopes : List (Scope BindingInfo)
  currentFnReturnType : Option BcType
  inPureFn : Bool
  loopDepth : Nat

abbrev Check := Except CompileError

def reject {α : Type} (span : Span) (message : String) : Check α :=
  .error ⟨span,message⟩

def primitive : Ast.PrimitiveType → BcType
  | .i32 => .i32
  | .i64 => .i64
  | .f64 => .f64
  | .bool => .bool
  | .str => .str
  | .unit => .unit
  | .handle => .handle
  | .map => .map
  | .mapStrI32 => .mapStrI32
  | .mapStrI64 => .mapStrI64
  | .mapStrF64 => .mapStrF64
  | .mapI32Str => .mapI32Str
  | .mapI32I32 => .mapI32I32

namespace Analyzer

variable (self : Analyzer)

mutual
def resolveType : Ast.Ty → Check BcType
  | .primitive p _ => return primitive p
  | .named name span =>
    if (self.structs.lookup name).isSome then return .struct name
    else if (self.enums.lookup name).isSome then return .enum name
    else reject span s!"undefined type '{name}'"
  | .fixedArray elem size span => do
    let e ← resolveType elem
    if e == .handle then reject span "handle type cannot be used as array element"
    else return .fixedArray e size
  | .dynamicArray elem span => do
    let e ← resolveType elem
    if e == .handle then reject span "handle type cannot be used as array element"
    else return .array e
  | .result ok err _ => do
    let o ← resolveType ok
    let e ← resolveType err
    return .result o e
  | .fnPtr params ret isPure _ => do
    let paramTypes ← resolveTypes params
    let retType ← resolveType ret
    return .fnPtr paramTypes retType isPure
def resolveTypes : List Ast.Ty → Check (List BcType)
  | [] => return []
  | p :: ps => do
    let t ← resolveType p
    let ts ← resolveTypes ps
    return t :: ts
end

/-- An absent return type is `unit`. -/
def resolveReturn : Option Ast.Ty → Check BcType
  | some t => self.resolveType t
  | none => return .unit

def pushScope : Analyzer := {self with scopes := [] :: self.scopes}

def enterLoop : Analyzer := {self with loopDepth := self.loopDepth+1}

def lookupVar (name : String) : Option BindingInfo := lookupScopes self.scopes name

def rejectReservedCollectionName (name : String) (span : Span) : Check Unit :=
  if (CollectionIntrinsic.resolveWithAlias name).isSome then
    reject span s!"'{name}' is reserved for a collection intrinsic"
  else return ()

def addBinding (name : String) (ty : BcType) (isMut : Bool) (span : Span) : Check Analyzer := do
  rejectReservedCollectionName name span
  if self.scopes.any fun scope => (scope.lookup name).isSome then
    reject span s!"'{name}' shadows an existing binding (anti-shadowing rule)"
  else return {self with scopes := insertBinding name ⟨ty,isMut⟩ self.scopes}

def fieldType (ty : BcType) (field : String) (span : Span) : Check BcType :=
  match ty with
  | .struct name =>
    match self.structs.lookup name with
    | none => reject span s!"undefined struct '{name}'"
    | some info =>
      match info.fields.lookup field with
      | none => reject span s!"struct '{name}' has no field '{field}'"
      | some t => return t
  | _ => reject span s!"field access on non-struct type {ty}"

def elementType (ty : BcType) (span : Span) : Check BcType :=
  match ty with
  | .array elem | .fixedArray elem _ => return elem
  | _ => reject span s!"index on non-array type {ty}"

/-- The type of a binary operation whose operands have types `lt` and `rt`. -/
def binaryOpType (op : BinOp) (lt rt : BcType) (span : Span) : Check BcType :=
  match op with
  | .add | .sub | .mul | .div =>
    if lt != rt then reject span s!"binary op type mismatch: {lt} vs {rt}"
    else match lt with
      | .i32 | .i64 | .f64 => return lt
      | _ => reject span s!"arithmetic not supported for {lt}"
  | .mod =>
    if lt != rt then reject span s!"modulo type mismatch: {lt} vs {rt}"
    else match lt with
      | .i32 | .i64 => return lt
      | _ => reject span s!"modulo not supported for {lt}"
  | .eq | .neq =>
    if lt != rt then reject span s!"equality type mismatch: {lt} vs {rt}"
    else return .bool
  | .lt | .gt | .ltEq | .gtEq =>
    if lt != rt then reject span s!"comparison type mismatch: {lt} vs {rt}"
    else match lt with
      | .i32 | .i64 | .f64 | .str => return .bool
      | _ => reject span s!"comparison not supported for {lt}"
  | .and | .or =>
    if lt != .bool then reject span s!"logical op expects bool, got {lt}"
    else if rt != .bool then reject span s!"logical op expects bool, got {rt}"
    else return .bool

/-- The check of a compound assignment. -/
def checkBinaryOpTypes (op : BinOp) (lt rt : BcType) (span : Span) : Check BcType :=
  match op with
  | .add | .sub | .mul | .div | .mod => binaryOpType op lt rt span
  | _ => reject span s!"compound assignment not supported for operator {op}"

def unaryOpType (op : UnaryOp) (t : BcType) (span : Span) : Check BcType :=
  match op with
  | .neg =>
    match t with
    | .i32 | .i64 | .f64 => return t
    | _ => reject span s!"negation not supported for {t}"
  | .not =>
    if t != .bool then reject span s!"'not' expects bool, got {t}"
    else return .bool

def castType (source target : BcType) (span : Span) : Check BcType :=
  match source,target with
  | .i32,.i64 | .i64,.i32 | .i32,.f64 | .i64,.f64 | .f64,.i32 | .f64,.i64
  | .handle,.i64 | .i64,.handle => return target
  | _,_ => reject span s!"invalid cast: {source} as {target}"

/-- A plain identifier: a local first, then a constant, then a function as a value. -/
def identType (name : String) (span : Span) : Check BcType :=
  match self.lookupVar name with
  | some info => return info.ty
  | none =>
    match self.constants.lookup name with
    | some info => return info.ty
    | none =>
      match self.functions.lookup name with
      | some fi =>
        if fi.isExtern then
          reject span s!"extern function '{name}' cannot be used as a value"
        else return .fnPtr (fi.params.map (·.2)) fi.returnType fi.isPure
      | none => reject span s!"undefined variable '{name}'"

def inferResultType (expected : Option BcType) : Option BcType :=
  match expected with
  | some (.result ok err) => some (.result ok err)
  | _ =>
    match self.currentFnReturnType with
    | some (.result ok err) => some (.result ok err)
    | _ => none

def baseName : Ast.Expr → Option String
  | .ident name _ => some name
  | .fieldAccess e _ _ | .index e _ _ => baseName e
  | _ => none

def requireMutableCollectionTarget (calledName : String) (target : Ast.Expr) : Check Unit :=
  match (baseName target).bind fun name => (self.lookupVar name).map fun info => (name,info) with
  | none => reject target.span s!"{calledName}() requires a mutable array binding"
  | some (name,info) =>
    if info.isMut then return ()
    else reject target.span
      s!"{calledName}() cannot mutate immutable binding '{name}'; declare it with 'let mut'"

end Analyzer
end Semantic
end Oscan
