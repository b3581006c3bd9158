import Oscan.Library.Lockstep
import Oscan.Library.Regions
import Oscan.Storage.Descent

/-! Variables and arrays in memory, and the cell that a place stands for. Structs lie inside the object
that holds them, and arrays are references. -/
namespace Oscan.Storage
open Library.Regions Library.Lockstep

/-- What identifies an array of the runtime; its cells are as wide as its element type. -/
structure ArrayId where
  elem : BcType
  number : Nat
deriving DecidableEq

inductive Root where
  | binding (name : String)
  | element (array : ArrayId) (index : Nat)
deriving DecidableEq

inductive Atom where
  | array (id : ArrayId)
  | word (bits : Nat)
deriving DecidableEq

abbrev Value := Tree String Atom
abbrev Cell := Location Root String

structure Memory where
  cells : Root → Value
  length : ArrayId → Nat
  owner : ArrayId → Nat
  arena : Nat

namespace Memory

def arrayGet (m : Memory) (id : ArrayId) (index : Int) : Outcome Cell :=
  if index < 0 ∨ index ≥ m.length id then .panic "array index out of bounds"
  else .ok ⟨.element id index.toNat,[]⟩

def checkArenaStore (m : Memory) (id : ArrayId) : Outcome Unit :=
  if m.arena = m.owner id then .ok ()
  else .panic "arena-backed value cannot be stored in an array owned by another arena"

def store (m : Memory) (cell : Cell) (v : Value) : Memory := {m with cells := write m.cells cell v}

end Memory

/-- The array that a value refers to. -/
def arrayOf (v : Value) : Outcome ArrayId :=
  match v [] with
  | .array id => .ok id
  | .word _ => .undefined

def hasIndex (accessors : List Ir.PlaceAccessor) : Bool := (accessors.map irStep).contains .index

/-- The check that guards the array of the last index, which is where the value goes. -/
def guardStore (m : Memory) (guarded : Bool) (later : List Ir.PlaceAccessor) (id : ArrayId) : Outcome Unit :=
  if guarded && !hasIndex later then m.checkArenaStore id else .ok ()

variable (indices : Ir.Expr → Int)

/-- The cell of a place, from the cell of its root, with the values of its index expressions given. -/
def locate (m : Memory) (guarded : Bool) : Cell → List Ir.PlaceAccessor → Outcome Cell
  | cell,[] => .ok cell
  | cell,.field field :: accessors => locate m guarded (cell.component field) accessors
  | cell,.index index :: accessors =>
    (arrayOf (read m.cells cell)).bind fun id =>
      (guardStore m guarded accessors id).bind fun _ =>
        (m.arrayGet id (indices index)).bind fun element => locate m guarded element accessors

/-- What an assignment does: the cell of the place takes the value. -/
def assign (m : Memory) (guarded : Bool) (name : String) (accessors : List Ir.PlaceAccessor) (v : Value) :
    Outcome Memory :=
  (locate indices m guarded ⟨.binding name,[]⟩ accessors).map fun cell => m.store cell v

variable (structs : List (String × StructInfo))

def typeAt : BcType → List String → Option BcType
  | ty,[] => some ty
  | ty,field :: path => (fieldOf structs ty field).bind fun part => typeAt part path

/-- Wherever the type says array, the value has a reference to an array of the elements. -/
def HasType (ty : BcType) (v : Value) : Prop :=
  ∀ path part elem, typeAt structs ty path = some part → arrayElementType part = some elem →
    ∃ number, v path = .array ⟨elem,number⟩

def rootType (scope : String → Option BcType) (m : Memory) : Root → Option BcType
  | .binding name => scope name
  | .element id index => if index < m.length id then some id.elem else none

def cellType (scope : String → Option BcType) (m : Memory) (cell : Cell) : Option BcType :=
  (rootType scope m cell.root).bind fun ty => typeAt structs ty cell.path

def WellTyped (scope : String → Option BcType) (m : Memory) : Prop :=
  ∀ root ty, rootType scope m root = some ty → HasType structs ty (m.cells root)

variable {indices structs} {scope : String → Option BcType} {m : Memory} {guarded : Bool} {ty part elem final : BcType}
  {v : Value} {cell target : Cell} {rank : String → Nat}

theorem typeAt_append : ∀ (path rest : List String) (ty : BcType),
    typeAt structs ty (path ++ rest) = (typeAt structs ty path).bind fun part => typeAt structs part rest
  | [],_,_ => rfl
  | field :: path,rest,ty => by
    simp only [List.cons_append,typeAt,Option.bind_assoc,typeAt_append path rest]

theorem typeAt_measure (stacked : Stacked structs rank) : ∀ {path : List String} {ty part : BcType},
    typeAt structs ty path = some part → measure rank part ≤ measure rank ty
  | [],ty,part,found => by
    cases found
    exact le_rfl
  | field :: path,ty,part,found => by
    obtain ⟨inner,step,rest⟩ := Option.bind_eq_some_iff.mp found
    exact (typeAt_measure stacked rest).trans (field_less stacked step).le

theorem WellTyped.at (typed : WellTyped structs scope m) (known : cellType structs scope m cell = some ty) :
    HasType structs ty (read m.cells cell) := by
  obtain ⟨rootTy,root,inside⟩ := Option.bind_eq_some_iff.mp known
  intro path part elem at_path array
  have found : typeAt structs rootTy (cell.path ++ path) = some part := by
    rw [typeAt_append,inside]
    exact at_path
  exact typed cell.root rootTy root (cell.path ++ path) part elem found array

theorem cellType_component {field : String} (known : cellType structs scope m cell = some ty)
    (found : fieldOf structs ty field = some part) : cellType structs scope m (cell.component field) = some part := by
  obtain ⟨rootTy,root,inside⟩ := Option.bind_eq_some_iff.mp known
  refine Option.bind_eq_some_iff.mpr ⟨rootTy,root,?_⟩
  rw [Location.component,typeAt_append,inside,Option.bind_some,typeAt,found]
  rfl

theorem WellTyped.array (typed : WellTyped structs scope m) (known : cellType structs scope m cell = some ty)
    (array : arrayElementType ty = some elem) : ∃ number, arrayOf (read m.cells cell) = .ok ⟨elem,number⟩ := by
  obtain ⟨number,is⟩ := typed.at known [] ty elem rfl array
  exact ⟨number,by rw [arrayOf,is]⟩

theorem arrayGet_ok {id : ArrayId} {index : Int} (inside : m.arrayGet id index = .ok cell) :
    cell = ⟨.element id index.toNat,[]⟩ ∧ index.toNat < m.length id := by
  unfold Memory.arrayGet at inside
  split at inside
  next => cases inside
  next within =>
    cases inside
    exact ⟨rfl,by omega⟩

theorem arrayGet_type {id : ArrayId} {index : Int} (inside : m.arrayGet id index = .ok cell) :
    cellType structs scope m cell = some id.elem := by
  obtain ⟨rfl,within⟩ := arrayGet_ok inside
  refine Option.bind_eq_some_iff.mpr ⟨id.elem,?_,rfl⟩
  rw [rootType,if_pos within]

/-- One index of a place: the array is known, the element has its type, and the rest goes on from there. -/
theorem locate_index (typed : WellTyped structs scope m) {index : Ir.Expr} {accessors : List Ir.PlaceAccessor}
    (known : cellType structs scope m cell = some ty) (array : arrayElementType ty = some elem)
    (located : locate indices m guarded cell (.index index :: accessors) = .ok target) :
    ∃ number element, arrayOf (read m.cells cell) = .ok ⟨elem,number⟩ ∧
      m.arrayGet ⟨elem,number⟩ (indices index) = .ok element ∧
      cellType structs scope m element = some elem ∧ locate indices m guarded element accessors = .ok target := by
  obtain ⟨number,is⟩ := typed.array known array
  rw [locate,is,Outcome.bind_ok] at located
  obtain ⟨_,-,located⟩ := Outcome.bind_eq_ok located
  obtain ⟨element,inside,located⟩ := Outcome.bind_eq_ok located
  exact ⟨number,element,is,inside,arrayGet_type inside,located⟩

theorem locate_type (typed : WellTyped structs scope m) : ∀ {accessors : List Ir.PlaceAccessor} {cell : Cell} {ty : BcType},
    cellType structs scope m cell = some ty → placeType structs ty (accessors.map irStep) = some final →
    locate indices m guarded cell accessors = .ok target → cellType structs scope m target = some final
  | [],cell,ty,known,type,located => by
    cases located
    cases type
    exact known
  | .field field :: accessors,cell,ty,known,type,located => by
    obtain ⟨part,found,rest⟩ := Option.bind_eq_some_iff.mp type
    exact locate_type typed (cellType_component known found) rest located
  | .index index :: accessors,cell,ty,known,type,located => by
    obtain ⟨elem,array,rest⟩ := Option.bind_eq_some_iff.mp type
    obtain ⟨number,element,-,-,inner,later⟩ := locate_index typed known array located
    exact locate_type typed inner rest later

/-- The cell that is written is a part of the starting cell, or it is in an array of smaller elements. -/
theorem locate_descends (stacked : Stacked structs rank) (typed : WellTyped structs scope m) :
    ∀ {accessors : List Ir.PlaceAccessor} {cell : Cell} {ty : BcType},
      cellType structs scope m cell = some ty → placeType structs ty (accessors.map irStep) = some final →
      locate indices m guarded cell accessors = .ok target →
      (target.root = cell.root ∧ hasIndex accessors = false) ∨
        ∃ id index, target.root = .element id index ∧ measure rank id.elem < measure rank ty
  | [],cell,ty,_,_,located => by
    cases located
    exact .inl ⟨rfl,rfl⟩
  | .field field :: accessors,cell,ty,known,type,located => by
    obtain ⟨part,found,rest⟩ := Option.bind_eq_some_iff.mp type
    have less := field_less stacked found
    rcases locate_descends stacked typed (cellType_component known found) rest located with
      ⟨same,none⟩ | ⟨id,index,root,smaller⟩
    · exact .inl ⟨same,none⟩
    · exact .inr ⟨id,index,root,smaller.trans less⟩
  | .index index :: accessors,cell,ty,known,type,located => by
    obtain ⟨elem,array,rest⟩ := Option.bind_eq_some_iff.mp type
    obtain ⟨number,element,-,inside,inner,later⟩ := locate_index typed known array located
    have less : measure rank elem < measure rank ty := element_less array
    have root := congrArg Location.root (arrayGet_ok inside).1
    rcases locate_descends stacked typed inner rest later with ⟨same,-⟩ | ⟨id,index,root,smaller⟩
    · exact .inr ⟨⟨elem,number⟩,_,same.trans root,less⟩
    · exact .inr ⟨id,index,root,smaller.trans less⟩

/-- After the store the place still leads to the cell that was written: the references on the way there
stand in arrays of larger elements. -/
theorem locate_store (stacked : Stacked structs rank) (typed : WellTyped structs scope m) :
    ∀ {accessors : List Ir.PlaceAccessor} {cell : Cell} {ty : BcType},
      cellType structs scope m cell = some ty → placeType structs ty (accessors.map irStep) = some final →
      locate indices m guarded cell accessors = .ok target →
      locate indices (m.store target v) false cell accessors = .ok target
  | [],cell,ty,_,_,located => located
  | .field field :: accessors,cell,ty,known,type,located => by
    obtain ⟨part,found,rest⟩ := Option.bind_eq_some_iff.mp type
    have later : locate indices (m.store target v) false (cell.component field) accessors = .ok target :=
      locate_store stacked typed (cellType_component known found) rest located
    exact later
  | .index index :: accessors,cell,ty,known,type,located => by
    have away : cell.root ≠ target.root := by
      intro same
      rcases locate_descends stacked typed known type located with ⟨-,none⟩ | ⟨id,index,root,smaller⟩
      · cases none
      · obtain ⟨rootTy,is,inside⟩ := Option.bind_eq_some_iff.mp known
        rw [same,root,rootType] at is
        split at is
        next =>
          cases is
          exact absurd (typeAt_measure stacked inside) (not_le_of_gt smaller)
        next => cases is
    obtain ⟨elem,array,rest⟩ := Option.bind_eq_some_iff.mp type
    obtain ⟨number,element,is,inside,inner,later⟩ := locate_index typed known array located
    have unchanged : read (m.store target v).cells cell = read m.cells cell := read_write_root m.cells v away
    have free : guardStore (m.store target v) false accessors ⟨elem,number⟩ = .ok () := rfl
    have inside' : (m.store target v).arrayGet ⟨elem,number⟩ (indices index) = .ok element := inside
    rw [locate,unchanged,is,Outcome.bind_ok,free,Outcome.bind_ok,inside',Outcome.bind_ok]
    exact locate_store stacked typed inner rest later

/-- A store of a value of the right type keeps the memory well typed. -/
theorem WellTyped.store (typed : WellTyped structs scope m) (known : cellType structs scope m target = some final)
    (right : HasType structs final v) : WellTyped structs scope (m.store target v) := by
  intro root ty rootTy path part elem found array
  have old := typed root ty rootTy path part elem found array
  show ∃ number, write m.cells target v root path = .array ⟨elem,number⟩
  rw [write]
  split
  next inside =>
    obtain ⟨rfl,rest,rfl⟩ := inside
    obtain ⟨_,same,at_target⟩ := Option.bind_eq_some_iff.mp known
    have is : ty = _ := Option.some.inj (rootTy.symm.trans same)
    rw [is,typeAt_append,at_target] at found
    rw [List.drop_left]
    exact right rest part elem found array
  next => exact old

end Oscan.Storage
