import Oscan.Library.Lockstep
import Oscan.Library.Probing

/-! The map of the runtime: string keys and values in a table with open addressing, tombstones and growth.
Handles are indices into the maps made so far, and any other handle is the null pointer. -/
namespace Oscan.Runtime
open Library.Lockstep Library.Probing

abbrev Str := List UInt8

def int32Max : Nat := 2147483647

inductive SlotState where
  | empty
  | occupied
  | tombstone
deriving DecidableEq

structure MapSlot where
  key : Str
  value : Str
  hash : UInt32
  state : SlotState

/-- A slot of zeroed memory -/
def MapSlot.zero : MapSlot := ⟨[],[],0,.empty⟩

structure OscMap where
  slots : Nat → MapSlot
  cap : Nat
  len : Nat

def mapFnv (data : Str) : UInt32 := data.foldl (fun h c => (h ^^^ c.toUInt32) * 16777619) 2166136261

def mapMask (cap : Nat) : UInt32 := UInt32.ofNat (cap - 1)

def slotIndex (cap : Nat) (h : UInt32) (i : Nat) : Nat :=
  (((h &&& mapMask cap) + UInt32.ofNat i) &&& mapMask cap).toNat

/-- `while (m->slots[idx].state != 0) idx = (idx + 1) & mask`, for at most `n` turns -/
def freeSlot (slots : Nat → MapSlot) (mask : UInt32) : Nat → UInt32 → Option Nat
  | 0,_ => none
  | n + 1,idx => if (slots idx.toNat).state = .empty then some idx.toNat else freeSlot slots mask n ((idx + 1) &&& mask)

/-- The first `n` old slots in the new table -/
def growFrom (old : Nat → MapSlot) (cap : Nat) : Nat → Option OscMap
  | 0 => some ⟨fun _ => .zero,cap,0⟩
  | n + 1 => (growFrom old cap n).bind fun m =>
    if (old n).state = .occupied then
      (freeSlot m.slots (mapMask cap) cap ((old n).hash &&& mapMask cap)).map fun idx =>
        { m with slots := Function.update m.slots idx (old n),len := m.len + 1 }
    else some m

def mapGrow (m : OscMap) : Outcome OscMap :=
  if int32Max < m.cap * 2 then .undefined
  else
    match growFrom m.slots (m.cap * 2) m.cap with
    | some grown => .ok grown
    -- no slot is free, and the loop has no end
    | none => .undefined

def mapNew : OscMap := ⟨fun _ => .zero,16,0⟩

def setFrom (m : OscMap) (key value : Str) : Nat → Nat → Option Nat → Outcome OscMap
  | 0,_,_ => .panic "map_set: map is full"
  | n + 1,i,firstTomb =>
    let si := slotIndex m.cap (mapFnv key) i
    match (m.slots si).state with
    | .empty => .ok
      { m with
        slots := Function.update m.slots (firstTomb.getD si) ⟨key,value,mapFnv key,.occupied⟩
        len := m.len + 1 }
    | .tombstone => setFrom m key value n (i + 1) (firstTomb.or (some si))
    | .occupied =>
      if (m.slots si).hash = mapFnv key ∧ (m.slots si).key = key then
        .ok { m with slots := Function.update m.slots si { m.slots si with value := value } }
      else setFrom m key value n (i + 1) firstTomb

def mapSet (m : OscMap) (key value : Str) : Outcome OscMap :=
  if int32Max < m.len * 4 ∨ int32Max < m.cap * 3 then .undefined
  else (if m.cap * 3 ≤ m.len * 4 then mapGrow m else .ok m).bind fun m => setFrom m key value m.cap 0 none

/-- The search that get, has, delete and the typed maps share -/
def findFrom (m : OscMap) (key : Str) : Nat → Nat → Option Nat
  | 0,_ => none
  | n + 1,i =>
    let si := slotIndex m.cap (mapFnv key) i
    if (m.slots si).state = .empty then none
    else if (m.slots si).state = .occupied ∧ (m.slots si).hash = mapFnv key ∧ (m.slots si).key = key then some si
    else findFrom m key n (i + 1)

def mapFindSlot (m : OscMap) (key : Str) : Option Nat := findFrom m key m.cap 0

def mapGet (m : OscMap) (key : Str) : Outcome Str :=
  match mapFindSlot m key with
  | some si => .ok (m.slots si).value
  | none => .panic "map_get: key not found"

def mapHas (m : OscMap) (key : Str) : Bool := (mapFindSlot m key).isSome

def mapDelete (m : OscMap) (key : Str) : OscMap :=
  match mapFindSlot m key with
  | some si => { m with slots := Function.update m.slots si { m.slots si with state := .tombstone },len := m.len - 1 }
  | none => m

def mapLen (m : OscMap) : Nat := m.len

inductive MapCall where
  | new
  | set (map : Nat) (key value : Str)
  | get (map : Nat) (key : Str)
  | has (map : Nat) (key : Str)
  | delete (map : Nat) (key : Str)
  | len (map : Nat)

inductive MapAnswer where
  | map (handle : Nat)
  | unit
  | str (s : Str)
  | bool (b : Bool)
  | int (n : Nat)
deriving DecidableEq

def performMap (maps : List OscMap) : MapCall → Outcome (MapAnswer × List OscMap)
  | .new => .ok (.map maps.length,maps ++ [mapNew])
  | .set map key value =>
    match maps[map]? with
    | none => .panic "map_set: map is NULL"
    | some m => (mapSet m key value).map fun m => (.unit,maps.set map m)
  | .get map key =>
    match maps[map]? with
    | none => .panic "map_get: map is NULL"
    | some m => (mapGet m key).map fun value => (.str value,maps)
  | .has map key =>
    match maps[map]? with
    | none => .ok (.bool false,maps)
    | some m => .ok (.bool (mapHas m key),maps)
  | .delete map key =>
    match maps[map]? with
    | none => .panic "map_delete: map is NULL"
    | some m => .ok (.unit,maps.set map (mapDelete m key))
  | .len map =>
    match maps[map]? with
    | none => .ok (.int 0,maps)
    | some m => .ok (.int (mapLen m),maps)

abbrev FiniteMap := Finmap fun _ : Str => Str

/-- What the operations mean for finite maps -/
def MapCall.meaning (maps : List FiniteMap) : MapCall → Outcome (MapAnswer × List FiniteMap)
  | .new => .ok (.map maps.length,maps ++ [∅])
  | .set map key value =>
    match maps[map]? with
    | none => .panic "map_set: map is NULL"
    | some f => .ok (.unit,maps.set map (f.insert key value))
  | .get map key =>
    match maps[map]? with
    | none => .panic "map_get: map is NULL"
    | some f =>
      match f.lookup key with
      | some value => .ok (.str value,maps)
      | none => .panic "map_get: key not found"
  | .has map key =>
    match maps[map]? with
    | none => .ok (.bool false,maps)
    | some f => .ok (.bool (f.lookup key).isSome,maps)
  | .delete map key =>
    match maps[map]? with
    | none => .panic "map_delete: map is NULL"
    | some f => .ok (.unit,maps.set map (f.erase key))
  | .len map =>
    match maps[map]? with
    | none => .ok (.int 0,maps)
    | some f => .ok (.int f.keys.card,maps)

/-- The slot is occupied by the key. -/
def OscMap.Live (m : OscMap) (j : Nat) (key : Str) : Prop := (m.slots j).state = .occupied ∧ (m.slots j).key = key

/-- The table is the finite map: every live key has one slot, on its way from its hash, and `len` counts them. -/
structure Tidy (m : OscMap) (f : FiniteMap) : Prop where
  holds : ∀ k v, f.lookup k = some v ↔ ∃ j < m.cap, m.Live j k ∧ (m.slots j).value = v
  once : ∀ j < m.cap, ∀ j' < m.cap, ∀ k, m.Live j k → m.Live j' k → j = j'
  reachable : ∀ j < m.cap, ∀ k, m.Live j k → ∃ i < m.cap, slotIndex m.cap (mapFnv k) i = j ∧
    ∀ i' < i, (m.slots (slotIndex m.cap (mapFnv k) i')).state ≠ .empty
  counted : m.len = f.keys.card

/-- The capacity fits, and the table grows, or a slot was never used, or the key is there. -/
def HasRoom (m : OscMap) (key : Str) : Prop :=
  m.cap ≤ 2^29 ∧ (m.cap * 3 ≤ m.len * 4 ∨ (∃ j < m.cap, (m.slots j).state = .empty) ∨ ∃ j < m.cap, m.Live j key)

def MapCall.Roomy (maps : List OscMap) : MapCall → Prop
  | .set map key _ => ∀ m, maps[map]? = some m → HasRoom m key
  | _ => True

end Oscan.Runtime
