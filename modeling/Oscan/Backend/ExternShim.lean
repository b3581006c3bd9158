import Oscan.Backend.SymbolsApart

/-! The C source of the shims through which an object file calls extern functions with strings, the signatures that
the object file declares for them and the calls that it makes. -/
namespace Oscan.ExternShim
open Ir Codegen Symbols
open Constants (LType)

structure NativeExternShim where
  externName : String
  realSymbol : String
  shimSymbol : String
  params : List (String × BcType)
  returnType : BcType

def shimOf (ef : ExternFnDef) : NativeExternShim where
  externName := ef.name
  realSymbol := mangleCName ef.name
  shimSymbol := Symbols.shimSymbol ef.name ef.params ef.returnType
  params := ef.params
  returnType := ef.returnType

inductive CType where
  | int32 | int64 | double | uint8 | oscStr | void | uintptr | oscMap | oscArray | strPointer | constStrPointer
deriving DecidableEq

inductive CName where
  | out
  | p (i : Nat)
deriving DecidableEq

structure CParam where
  type : CType
  name : CName

/-- An argument that the shim forwards -/
inductive CArg where
  | name (n : CName)
  | deref (n : CName)

inductive CBody where
  | call (args : List CArg)
  | assignOut (args : List CArg)
  | returnCall (args : List CArg)

structure Prototype where
  ret : CType
  name : String
  params : List CParam

structure ShimDefinition extends Prototype where
  real : String
  body : CBody

section Text

def CType.text : CType → String
  | .int32 => "int32_t"
  | .int64 => "int64_t"
  | .double => "double"
  | .uint8 => "uint8_t"
  | .oscStr => "osc_str"
  | .void => "void"
  | .uintptr => "uintptr_t"
  | .oscMap => "osc_map*"
  | .oscArray => "osc_array*"
  | .strPointer => "osc_str *"
  | .constStrPointer => "const osc_str *"

def CName.text : CName → String
  | .out => "out"
  | .p i => s!"p{i}"

def CParam.text : CParam → String
  | ⟨.strPointer,name⟩ => CType.strPointer.text ++ name.text
  | ⟨.constStrPointer,name⟩ => CType.constStrPointer.text ++ name.text
  | ⟨type,name⟩ => type.text ++ " " ++ name.text

def paramText (params : List CParam) : String :=
  if params.isEmpty then "void" else ", ".intercalate (params.map CParam.text)

def CArg.text : CArg → String
  | .name n => n.text
  | .deref n => "*" ++ n.text

def argText (args : List CArg) : String := ", ".intercalate (args.map CArg.text)

def CBody.text (real : String) : CBody → String
  | .call args => s!"    {real}({argText args});\n"
  | .assignOut args => s!"    *out = {real}({argText args});\n"
  | .returnCall args => s!"    return {real}({argText args});\n"

def Prototype.text (prototype : Prototype) : String :=
  s!"extern {prototype.ret.text} {prototype.name}({paramText prototype.params});\n"

def ShimDefinition.text (d : ShimDefinition) : String :=
  s!"{d.ret.text} {d.name}({paramText d.params}) \x7b\n" ++ d.body.text d.real ++ "\x7d\n"

end Text

section Generate
variable (enums : List (String × EnumInfo))

def cTypeForGeneratedShim : BcType → Except String CType
  | .i32 => .ok .int32
  | .i64 => .ok .int64
  | .f64 => .ok .double
  | .bool => .ok .uint8
  | .str => .ok .oscStr
  | .unit => .ok .void
  | .handle => .ok .uintptr
  | .map | .mapStrI32 | .mapStrI64 | .mapStrF64 | .mapI32Str | .mapI32I32 => .ok .oscMap
  | .array _ | .fixedArray .. => .ok .oscArray
  | .enum name =>
    if enumHasPayload enums name then .error "payload enums are aggregate C ABI values" else .ok .int32
  | .struct _ => .error "structs are aggregate C ABI values"
  | .result .. => .error "Result is an aggregate C ABI value"
  | .fnPtr .. => .error "function pointer typedefs are not emitted into generated shim translation units"

/-- The parameters from an index on, with strings by value -/
def realParams : Nat → List (String × BcType) → Except String (List CParam)
  | _,[] => .ok []
  | i,(_,ty) :: params => do
    let type ← cTypeForGeneratedShim enums ty
    let rest ← realParams (i + 1) params
    return ⟨type,.p i⟩ :: rest

def shimParamType (ty : BcType) : Except String CType :=
  if ty = .str then .ok .constStrPointer else cTypeForGeneratedShim enums ty

def shimParams : Nat → List (String × BcType) → Except String (List CParam)
  | _,[] => .ok []
  | i,(_,ty) :: params => do
    let type ← shimParamType enums ty
    let rest ← shimParams (i + 1) params
    return ⟨type,.p i⟩ :: rest

def shimParamList (shim : NativeExternShim) : Except String (List CParam) := do
  let params ← shimParams enums 0 shim.params
  return if shim.returnType = .str then ⟨.strPointer,.out⟩ :: params else params

def shimArgs : Nat → List (String × BcType) → List CArg
  | _,[] => []
  | i,(_,ty) :: params => (if ty = .str then .deref (.p i) else .name (.p i)) :: shimArgs (i + 1) params

def shimReturn (ty : BcType) : Except String CType := if ty = .str then .ok .void else cTypeForGeneratedShim enums ty

def shimBody (args : List CArg) : BcType → CBody
  | .unit => .call args
  | .str => .assignOut args
  | _ => .returnCall args

def emitShimDefinition (shim : NativeExternShim) : Except String ShimDefinition := do
  let ret ← shimReturn enums shim.returnType
  let params ← shimParamList enums shim
  return ⟨⟨ret,shim.shimSymbol,params⟩,shim.realSymbol,shimBody (shimArgs 0 shim.params) shim.returnType⟩

def realPrototype (shim : NativeExternShim) : Except String Prototype := do
  let ret ← cTypeForGeneratedShim enums shim.returnType
  let params ← realParams enums 0 shim.params
  return ⟨ret,shim.realSymbol,params⟩

def shimBefore (a b : NativeExternShim) : Bool :=
  decide (a.shimSymbol < b.shimSymbol) || (a.shimSymbol == b.shimSymbol && decide (a.externName ≤ b.externName))

structure CSource where
  prototypes : List Prototype
  definitions : List ShimDefinition

/-- The translation unit of some shims; without any there is none. -/
def generateSource (shims : List NativeExternShim) : Except String CSource := do
  let ordered := shims.mergeSort shimBefore
  let prototypes ← ordered.mapM (realPrototype enums)
  let definitions ← ordered.mapM (emitShimDefinition enums)
  return ⟨prototypes,definitions⟩

def CSource.text (source : CSource) : String :=
  "/* Generated by Oscan object backend: user extern str ABI shims. */\n" ++ "#include \"osc_runtime.h\"\n\n" ++
  String.join (source.prototypes.map Prototype.text) ++ "\n" ++
  String.join (source.definitions.map fun d => d.text ++ "\n")

end Generate

section Lowering
variable (enums : List (String × EnumInfo))

/-- `Repr::of` and the type of the value that represents it -/
def lirType : BcType → Option LType
  | .unit => none
  | .i32 => some .i32
  | .i64 => some .i64
  | .f64 => some .f64
  | .bool => some .i8
  | .enum name => if enumHasPayload enums name then some .ptr else some .i32
  | _ => some .ptr

def shimParamLir (p : String × BcType) : Option LType := if p.2 = .str then some .ptr else lirType enums p.2

def externShimSignature (params : List (String × BcType)) (returnType : BcType) : LSig where
  params := (if returnType = .str then [.ptr] else []) ++ params.filterMap (shimParamLir enums)
  ret := if returnType = .str then none else lirType enums returnType

def directExternFnSignature (params : List (String × BcType)) (returnType : BcType) : LSig :=
  ⟨params.filterMap fun p => lirType enums p.2,lirType enums returnType⟩

variable {Word : Type}

/-- The arguments of a call through a shim: an argument of type unit has no value, and a string is returned to a
new place. -/
def shimCallArgs (returnType : BcType) (out : Word) (argVals : List (Option Word)) : List Word :=
  if returnType = .str then out :: argVals.filterMap id else argVals.filterMap id

/-- The value of such a call, from what the shim returns -/
def shimCallValue (returnType : BcType) (out : Word) (returned : Option Word) : Option Word :=
  if returnType = .str then some out else returned

end Lowering

/-- The extern functions that a program is found to call through shims, in the order of their first calls; the module
may refuse a declaration. -/
def resolveExterns (program : Program) (declare : Declare) :
    List FuncDecl → List String → List ExternFnDef → List String → Except String (List ExternFnDef)
  | _,_,shims,[] => .ok shims
  | funcs,resolved,shims,name :: names =>
    if name ∈ resolved then resolveExterns program declare funcs resolved shims names
    else
      match (externDecls program).find? (·.name == name) with
      | none => .error s!"call to builtin function '{name}'"
      | some ef =>
        match classify program.enums ef with
        | .error reason => .error reason
        | .ok .direct =>
          match declare funcs (mangleCName name)
              ⟨.external name,directExternFnSignature program.enums ef.params ef.returnType⟩ with
          | .error e => .error s!"internal error declaring extern '{name}': {e}"
          | .ok (funcs,_) => resolveExterns program declare funcs (name :: resolved) shims names
        | .ok (.shim symbol) =>
          match declare funcs symbol ⟨.external name,externShimSignature program.enums ef.params ef.returnType⟩ with
          | .error e => .error s!"internal error declaring extern '{name}': {e}"
          | .ok (funcs,_) => resolveExterns program declare funcs (name :: resolved) (shims ++ [ef]) names

end Oscan.ExternShim
