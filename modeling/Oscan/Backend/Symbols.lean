import Mathlib.Algebra.Ring.Nat
import Oscan.Codegen.TypeName
import Oscan.Constants.Fold

/-! The names that an object file gives to the functions of a program, to the functions it calls from
outside and to its entry, and the handles that the LIR modules give out for names. -/
namespace Oscan.Symbols
open Ir Codegen
open Constants (LType)

def userFnSymbol (name : String) : String := if name = "main" then "oscan_main" else name

inductive TypeKind where
  | simple
  | str
  | unsupported (reason : String)

def enumHasPayload (enums : List (String × EnumInfo)) (name : String) : Bool :=
  (enums.lookup name).any fun info => info.variants.any fun v => !v.2.isEmpty

variable (enums : List (String × EnumInfo))

def nativeExternTypeKind : BcType → TypeKind
  | .str => .str
  | .struct _ => .unsupported ("structs still require an explicit C shim; " ++
      "native does not classify aggregate C ABI layouts directly")
  | .result .. => .unsupported ("Result still requires an explicit C shim; " ++
      "native does not classify aggregate C ABI layouts directly")
  | .enum name =>
    if enumHasPayload enums name then .unsupported ("payload enums still require an explicit C shim; " ++
      "native does not classify aggregate C ABI layouts directly")
    else .simple
  | .fnPtr .. => .unsupported ("an Oscan function value carries an implicit leading arena parameter, so it is " ++
      "not a C callback; passing one across an extern boundary needs an explicit trampoline that supplies the " ++
      "arena, which this backend does not generate")
  | _ => .simple

def signatureKey (realSymbol : String) (params : List (String × BcType)) (returnType : BcType) : String :=
  realSymbol ++ "(" ++ ",".intercalate (params.map fun p => typeTag p.2) ++ ")->" ++ typeTag returnType

def cIdentifierSuffix (value : String) : String :=
  let out := value.toList.map fun ch => if ch.isAlphanum || ch == '_' then ch else '_'
  match out with
  | [] => "_"
  | first :: _ => String.ofList (if first.isDigit then '_' :: out else out)

def fnv1a64 (bytes : List UInt8) : UInt64 :=
  bytes.foldl (fun hash byte => (hash ^^^ byte.toUInt64) * 0x100000001b3) 0xcbf29ce484222325

/-- The format `016x` of a hash -/
def hex16 (hash : UInt64) : String :=
  String.ofList ((List.range 16).reverse.map fun i => Nat.digitChar (hash.toNat / 16^i % 16))

inductive NativeExternAbi where
  | direct
  | shim (symbol : String)

def shimSymbol (name : String) (params : List (String × BcType)) (returnType : BcType) : String :=
  let realSymbol := mangleCName name
  let hash := fnv1a64 (signatureKey realSymbol params returnType).toUTF8.data.toList
  "__oscan_native_extern_shim_" ++ hex16 hash ++ "_" ++ cIdentifierSuffix realSymbol

/-- Whether one of the types is a string, when none of them is unsupported -/
def needsShim (name : String) : List (String × BcType) → BcType → Except String Bool
  | [],returnType =>
    match nativeExternTypeKind enums returnType with
    | .str => .ok true
    | .simple => .ok false
    | .unsupported reason => .error (s!"extern function '{name}' return type '{returnType}' is not supported by " ++
        s!"the LLVM/Cranelift object backends ({reason})")
  | (_,ty) :: params,returnType =>
    match nativeExternTypeKind enums ty with
    | .str => (needsShim name params returnType).map fun _ => true
    | .simple => needsShim name params returnType
    | .unsupported reason => .error (s!"extern function '{name}' parameter of type '{ty}' is not supported by " ++
        s!"the LLVM/Cranelift object backends ({reason})")

/-- The types of a generated shim are those that are supported, so that nothing is rejected behind this. -/
def classify (ef : ExternFnDef) : Except String NativeExternAbi :=
  (needsShim enums ef.name ef.params ef.returnType).map fun shim =>
    if shim then .shim (shimSymbol ef.name ef.params ef.returnType) else .direct

def externDecls (program : Program) : List ExternFnDef := program.externBlocks.flatMap (·.decls)

/-- How an extern function is called; an unsupported one cannot be. -/
def externAbi (program : Program) (name : String) : Option NativeExternAbi :=
  match (externDecls program).find? (·.name == name) with
  | none => none
  | some ef => (classify program.enums ef).toOption

/-- The symbol that a call of an extern function is resolved to -/
def externSymbol (program : Program) (name : String) : Option String :=
  (externAbi program name).map fun
    | .direct => mangleCName name
    | .shim symbol => symbol

/-- What a call of `declare_function` means -/
inductive Role where
  | user (name : String)
  | runtime (symbol : String)
  | external (name : String)
  | entry
deriving DecidableEq

def Role.symbol (program : Program) : Role → Option String
  | .user name => some (userFnSymbol name)
  | .runtime symbol => some symbol
  | .external name => externSymbol program name
  | .entry => some "main"

inductive Linkage where
  | own | imported | exported
deriving DecidableEq

def Role.linkage : Role → Linkage
  | .user _ => .own
  | .runtime _ | .external _ => .imported
  | .entry => .exported

structure LSig where
  params : List LType
  ret : Option LType
deriving DecidableEq

structure Request where
  role : Role
  sig : LSig

/-- A declared function, with the request that declared it -/
structure FuncDecl where
  symbol : String
  request : Request

abbrev Declare := List FuncDecl → String → Request → Except String (List FuncDecl × Nat)

/-- The Cranelift module gives an existing name's handle to whoever asks for the name. -/
def craneliftDeclare : Declare := fun funcs symbol request =>
  match funcs.findIdx? (·.symbol == symbol) with
  | some handle => .ok (funcs,handle)
  | none => .ok (funcs ++ [⟨symbol,request⟩],funcs.length)

/-- The LLVM module compares signature and linkage. -/
def llvmDeclare : Declare := fun funcs symbol request =>
  match funcs.findIdx? (·.symbol == symbol) with
  | some handle =>
    match funcs[handle]? with
    | none => .ok (funcs,handle)
    | some decl =>
      if decl.request.sig ≠ request.sig then .error s!"conflicting signatures for symbol '{symbol}'"
      else if decl.request.role.linkage ≠ request.role.linkage then
        .error s!"conflicting linkage for symbol '{symbol}'"
      else .ok (funcs,handle)
  | none => .ok (funcs ++ [⟨symbol,request⟩],funcs.length)

/-- The handles of a list of requests; an extern function that has no symbol ends the compilation. -/
def declareAll (program : Program) (declare : Declare) :
    List FuncDecl → List Request → Except String (List FuncDecl × List Nat)
  | funcs,[] => .ok (funcs,[])
  | funcs,request :: requests =>
    match request.role.symbol program with
    | none => .error "unsupported extern"
    | some symbol => do
      let (funcs,handle) ← declare funcs symbol request
      let (funcs,handles) ← declareAll program declare funcs requests
      return (funcs,handle :: handles)

end Oscan.Symbols
