import Oscan.Codegen.TypeName
import Oscan.Storage.Memory

/-! How the two backends store into a place and read it. In C the place is an lvalue, in the object
backend a walk over addresses and loaded pointers. -/
namespace Oscan.Storage
open Library.Regions Library.Lockstep Codegen

/-- The lvalues that `emit_place` writes; `get` is `(*(elemC*)osc_array_get(array, index))`, and an array is
`checked` on a line before. -/
inductive CLvalue where
  | name (name : String)
  | member (s : CLvalue) (field : String)
  | get (elemC : String) (array : CLvalue) (index : Ir.Expr)
  | checked (array : CLvalue)

/-- The element type that the C backend takes for an array of the given type -/
def elementC (arrTy : BcType) : String := typeToC ((arrayElementType arrTy).getD .i32)

def emitAccessors (baseTy storedTy : BcType) : CLvalue → List Ir.PlaceAccessor → CLvalue
  | s,[] => s
  | s,.field field :: accessors => emitAccessors baseTy storedTy (.member s field) accessors
  | s,.index index :: accessors =>
    let array := if !hasIndex accessors && !storedTy.isArenaSafe then .checked s else s
    emitAccessors baseTy storedTy (.get (elementC baseTy) array index) accessors

def emitPlace : Ir.Place → BcType → CLvalue
  | .mk name accessors baseTy _,storedTy => emitAccessors baseTy storedTy (.name name) accessors

/-- The expression that reads a place, as an lvalue -/
def emitRead : Ir.Expr → Option CLvalue
  | .ident name .value _ _ => some (.name name)
  | .fieldAccess e field _ _ => (emitRead e).map fun s => .member s field
  | .index e index _ _ => if e.ty = .str then none else (emitRead e).map fun s => .get (elementC e.ty) s index
  | _ => none

def CLvalue.casts : CLvalue → List String
  | .name _ => []
  | .member s _ | .checked s => s.casts
  | .get elemC array _ => array.casts ++ [elemC]

variable (structs : List (String × StructInfo)) (scope : String → Option BcType) (indices : Ir.Expr → Int)

/-- The cell of an lvalue and its type in C. To reach an element through another type has no meaning. -/
def evalLvalue (m : Memory) : CLvalue → Outcome (Cell × BcType)
  | .name name =>
    match scope name with
    | some ty => .ok (⟨.binding name,[]⟩,ty)
    | none => .undefined
  | .member s field => (evalLvalue m s).bind fun (cell,ty) =>
    match fieldOf structs ty field with
    | some part => .ok (cell.component field,part)
    | none => .undefined
  | .get elemC array index => (evalLvalue m array).bind fun (cell,_) =>
    (arrayOf (read m.cells cell)).bind fun id =>
      (m.arrayGet id (indices index)).bind fun element =>
        if elemC = typeToC id.elem then .ok (element,id.elem) else .undefined
  | .checked array => (evalLvalue m array).bind fun (cell,ty) =>
    (arrayOf (read m.cells cell)).bind fun id => (m.checkArenaStore id).bind fun _ => .ok (cell,ty)

/-- `target = value;` in C, where nothing has type `void` -/
def assignC (m : Memory) (place : Ir.Place) (storedTy : BcType) (v : Value) : Outcome Memory :=
  (evalLvalue structs scope indices m (emitPlace place storedTy)).bind fun (cell,ty) =>
    if ty = .unit then .undefined else .ok (m.store cell v)

def readC (m : Memory) (e : Ir.Expr) : Outcome Value :=
  match emitRead e with
  | none => .undefined
  | some s => (evalLvalue structs scope indices m s).map fun (cell,_) => read m.cells cell

/-- A value of the object backend: the address of an aggregate, or what a load has given. -/
inductive Operand where
  | address (cell : Cell)
  | loaded (v : Value)

def Operand.value (m : Memory) : Operand → Value
  | .address cell => read m.cells cell
  | .loaded v => v

/-- The array that an operand points to. An address of a cell is not a pointer to an array, and an array
has the elements that it was made with. -/
def Operand.array (elemTy : BcType) : Operand → Outcome ArrayId
  | .address _ => .undefined
  | .loaded v => (arrayOf v).bind fun id => if id.elem = elemTy then .ok id else .undefined

variable (info : SemanticInfo)

def isInlineAggregate : BcType → Bool
  | .str | .struct _ | .result .. => true
  | .enum name => (info.enums.lookup name).any fun e => e.variants.any fun v => !v.2.isEmpty
  | _ => false

def readAt (m : Memory) (cell : Cell) (ty : BcType) : Operand :=
  if isInlineAggregate info ty then .address cell else .loaded (read m.cells cell)

/-- A scalar is stored and an aggregate copied; there is nothing of type unit to write. -/
def writeAt (m : Memory) (cell : Cell) (ty : BcType) (v : Value) : Memory :=
  if ty = .unit then m else m.store cell v

def arrayElemPtr (m : Memory) (arr : Operand) (index : Ir.Expr) (elemTy : BcType) : Outcome Cell :=
  (arr.array elemTy).bind fun id => m.arrayGet id (indices index)

def arrayWrite (m : Memory) (arr : Operand) (index : Ir.Expr) (elemTy : BcType) (v : Value) : Outcome Memory :=
  (arr.array elemTy).bind fun id =>
    (if elemTy.isArenaSafe then .ok () else m.checkArenaStore id).bind fun _ =>
      (m.arrayGet id (indices index)).map fun cell => writeAt m cell elemTy v

/-- The loop of `store_place_value` from an accessor on. -/
def storePlaceValue (m : Memory) (finalTy : BcType) (v : Value) (ty : BcType) (addr : Operand) :
    List Ir.PlaceAccessor → Outcome Memory
  | [] => .ok m
  | .field field :: accessors =>
    match fieldOf info.structs ty field,addr with
    | some fieldTy,.address cell =>
      if accessors.isEmpty then .ok (writeAt m (cell.component field) fieldTy v)
      else storePlaceValue m finalTy v fieldTy (readAt info m (cell.component field) fieldTy) accessors
    | _,_ => .undefined
  | .index index :: accessors =>
    match arrayElementType ty with
    | none => .undefined
    | some elemTy =>
      if accessors.isEmpty then arrayWrite indices m addr index elemTy v
      else
        (addr.array elemTy).bind fun id =>
          (guardStore m (!finalTy.isArenaSafe) accessors id).bind fun _ =>
            (arrayElemPtr indices m addr index elemTy).bind fun element =>
              -- The address of the element goes on, also where the element is a pointer to be loaded.
              storePlaceValue m finalTy v elemTy (.address element) accessors

def assignObject (m : Memory) (v : Value) : Ir.Place → Outcome Memory
  | .mk name accessors baseTy _ =>
    match scope name,placeType info.structs baseTy (accessors.map irStep) with
    | some _,some finalTy =>
      let root : Cell := ⟨.binding name,[]⟩
      if accessors.isEmpty then .ok (writeAt m root baseTy v)
      else storePlaceValue indices info m finalTy v baseTy (readAt info m root baseTy) accessors
    | _,_ => .undefined

def lowerRead (m : Memory) : Ir.Expr → Outcome Operand
  | .ident name .value ty _ =>
    match scope name with
    | some _ => .ok (readAt info m ⟨.binding name,[]⟩ ty)
    | none => .undefined
  | .fieldAccess e field ty _ => (lowerRead m e).bind fun obj =>
    match fieldOf info.structs e.ty field,obj with
    | some _,.address cell => .ok (readAt info m (cell.component field) ty)
    | _,_ => .undefined
  | .index e index _ _ => (lowerRead m e).bind fun arr =>
    match arrayElementType e.ty with
    | some elemTy => (arrayElemPtr indices m arr index elemTy).map fun element => readAt info m element elemTy
    | none => .undefined
  | _ => .undefined

def readObject (m : Memory) (e : Ir.Expr) : Outcome Value := (lowerRead scope indices info m e).map (·.value m)

end Oscan.Storage
