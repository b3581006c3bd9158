import Mathlib.Data.Finset.Image
import Oscan.Runtime.Decimal
import Oscan.Runtime.Refinement

/-! The typed maps: wrappers that put keys and values as text into the map of strings. -/
namespace Oscan.Runtime
open Library.Lockstep Library.Probing

variable {K V : Type}

/-- One kind of typed map: how it writes keys, writes and reads values, and what a missing key gives -/
structure Coding (K V : Type) where
  key : K → Str
  encode : V → Str
  decode : Str → V
  default : V

section
variable (c : Coding K V)

def Coding.set (m : OscMap) (key : K) (value : V) : Outcome OscMap := mapSet m (c.key key) (c.encode value)

def Coding.get (m : OscMap) (key : K) : V :=
  match mapFindSlot m (c.key key) with
  | none => c.default
  | some s => c.decode (m.slots s).value

def Coding.has (m : OscMap) (key : K) : Bool := (mapFindSlot m (c.key key)).isSome

def Coding.delete (m : OscMap) (key : K) : OscMap := mapDelete m (c.key key)

end

/-- `.value.ok` of a result whatever its tag: of an error it reads the bytes of the message pointer. -/
def valueOk {α : Type} (ofInt : Int → α) (bytes : String → α) : Except String Int → α
  | .ok n => ofInt n
  | .error text => bytes text

def mapValToI32 (bytes : String → Int32) (s : Str) : Int32 := valueOk Int32.ofInt bytes (parseI32 s)

def mapValToI64 (bytes : String → Int64) (s : Str) : Int64 := valueOk Int64.ofInt bytes (parseI64 s)

def mapStrI32 (bytes : String → Int32) : Coding Str Int32 := ⟨id,fun v => decimal v.toInt,mapValToI32 bytes,0⟩

def mapStrI64 (bytes : String → Int64) : Coding Str Int64 := ⟨id,fun v => decimal v.toInt,mapValToI64 bytes,0⟩

def mapI32Str : Coding Int32 Str := ⟨fun k => decimal k.toInt,id,id,[]⟩

def mapI32I32 (bytes : String → Int32) : Coding Int32 Int32 :=
  ⟨fun k => decimal k.toInt,fun v => decimal v.toInt,mapValToI32 bytes,0⟩

inductive TypedCall (K V : Type) where
  | new
  | set (map : Nat) (key : K) (value : V)
  | get (map : Nat) (key : K)
  | has (map : Nat) (key : K)
  | delete (map : Nat) (key : K)
  | len (map : Nat)

inductive TypedAnswer (V : Type) where
  | map (handle : Nat)
  | unit
  | value (v : V)
  | bool (b : Bool)
  | int (n : Nat)
deriving DecidableEq

def performTyped (c : Coding K V) (maps : List OscMap) : TypedCall K V → Outcome (TypedAnswer V × List OscMap)
  | .new => .ok (.map maps.length,maps ++ [mapNew])
  | .set map key value =>
    match maps[map]? with
    | none => .panic "map_set: map is NULL"
    | some m => (c.set m key value).map fun m => (.unit,maps.set map m)
  | .get map key =>
    match maps[map]? with
    | none => .ok (.value c.default,maps)
    | some m => .ok (.value (c.get m key),maps)
  | .has map key =>
    match maps[map]? with
    | none => .ok (.bool false,maps)
    | some m => .ok (.bool (c.has m key),maps)
  | .delete map key =>
    match maps[map]? with
    | none => .panic "map_delete: map is NULL"
    | some m => .ok (.unit,maps.set map (c.delete m key))
  | .len map =>
    match maps[map]? with
    | none => .ok (.int 0,maps)
    | some m => .ok (.int (mapLen m),maps)

/-- What the operations mean for finite maps with a default -/
def TypedCall.meaning [DecidableEq K] (default : V) (maps : List (Finmap fun _ : K => V)) :
    TypedCall K V → Outcome (TypedAnswer V × List (Finmap fun _ : K => V))
  | .new => .ok (.map maps.length,maps ++ [∅])
  | .set map key value =>
    match maps[map]? with
    | none => .panic "map_set: map is NULL"
    | some f => .ok (.unit,maps.set map (f.insert key value))
  | .get map key =>
    match maps[map]? with
    | none => .ok (.value default,maps)
    | some f => .ok (.value ((f.lookup key).getD default),maps)
  | .has map key =>
    match maps[map]? with
    | none => .ok (.bool false,maps)
    | some f => .ok (.bool (f.lookup key).isSome,maps)
  | .delete map key =>
    match maps[map]? with
    | none => .panic "map_delete: map is NULL"
    | some f => .ok (.unit,maps.set map (f.erase key))
  | .len map =>
    match maps[map]? with
    | none => .ok (.int 0,maps)
    | some f => .ok (.int f.keys.card,maps)

/-- A set has room, and a get does not meet a text that cannot be read back. -/
def Coding.Roomy (c : Coding K V) (readable : Str → Prop) (maps : List OscMap) : TypedCall K V → Prop
  | .set map key _ => ∀ m, maps[map]? = some m → HasRoom m (c.key key)
  | .get map key => ∀ m, maps[map]? = some m → ∀ j < m.cap, m.Live j (c.key key) → readable (m.slots j).value
  | _ => True

/-- Keys do not interfere, and what a value is written as is read back if it is readable. -/
structure Coding.Faithful (c : Coding K V) (readable : Str → Prop) : Prop where
  apart : Function.Injective c.key
  reads : ∀ v, c.decode (c.encode v) = v ↔ readable (c.encode v)

section
variable [DecidableEq K]

/-- The map of strings holds the texts of the typed finite map. -/
structure Encodes (c : Coding K V) (f : Finmap fun _ : K => V) (g : FiniteMap) : Prop where
  lookup : ∀ k, g.lookup (c.key k) = (f.lookup k).map c.encode
  keys : g.keys = f.keys.image c.key

def Coding.Stands (c : Coding K V) (m : OscMap) (f : Finmap fun _ : K => V) : Prop :=
  ∃ g, Runtime.Stands m g ∧ Encodes c f g

variable {c : Coding K V} {f : Finmap fun _ : K => V} {g : FiniteMap} {key : K} {value : V} {m : OscMap}

theorem Encodes.empty : Encodes c ∅ ∅ := ⟨fun _ => rfl,rfl⟩

theorem Encodes.insert (encodes : Encodes c f g) (apart : Function.Injective c.key) :
    Encodes c (f.insert key value) (g.insert (c.key key) (c.encode value)) := by
  refine ⟨fun k => ?_,?_⟩
  · by_cases same : k = key
    · rw [same,Finmap.lookup_insert,Finmap.lookup_insert,Option.map_some]
    · rw [Finmap.lookup_insert_of_ne _ same,Finmap.lookup_insert_of_ne _ (apart.ne same),encodes.lookup]
  · rw [keys_insert,keys_insert,Finset.image_insert,encodes.keys]

theorem Encodes.erase (encodes : Encodes c f g) (apart : Function.Injective c.key) :
    Encodes c (f.erase key) (g.erase (c.key key)) := by
  refine ⟨fun k => ?_,?_⟩
  · by_cases same : k = key
    · rw [same,Finmap.lookup_erase,Finmap.lookup_erase,Option.map_none]
    · rw [Finmap.lookup_erase_ne same,Finmap.lookup_erase_ne (apart.ne same),encodes.lookup]
  · rw [Finmap.keys_erase,Finmap.keys_erase,encodes.keys,Finset.image_erase apart]

theorem Encodes.card (encodes : Encodes c f g) (apart : Function.Injective c.key) : g.keys.card = f.keys.card := by
  rw [encodes.keys,Finset.card_image_of_injective _ apart]

theorem Coding.Stands.set (stands : c.Stands m f) (value : V) (apart : Function.Injective c.key) (room : HasRoom m (c.key key)) :
    ∃ m', c.set m key value = .ok m' ∧ c.Stands m' (f.insert key value) := by
  obtain ⟨g,stands,encodes⟩ := stands
  obtain ⟨m',stored,stands'⟩ := stands.set (c.encode value) room
  exact ⟨m',stored,_,stands',encodes.insert apart⟩

theorem Coding.Stands.delete (stands : c.Stands m f) (apart : Function.Injective c.key) :
    c.Stands (c.delete m key) (f.erase key) := by
  obtain ⟨g,stands,encodes⟩ := stands
  exact ⟨_,stands.delete,encodes.erase apart⟩

theorem Coding.Stands.has (stands : c.Stands m f) : c.has m key = (f.lookup key).isSome := by
  obtain ⟨g,stands,encodes⟩ := stands
  have same : mapHas m (c.key key) = (g.lookup (c.key key)).isSome := stands.has
  rw [encodes.lookup,Option.isSome_map] at same
  exact same

/-- A get answers as the finite map exactly if the text under the key can be read. -/
theorem Coding.Stands.get (stands : c.Stands m f) {readable : Str → Prop} (faithful : c.Faithful readable) :
    c.get m key = (f.lookup key).getD c.default ↔
      ∀ j < m.cap, m.Live j (c.key key) → readable (m.slots j).value := by
  obtain ⟨g,stands,encodes⟩ := stands
  rw [Coding.get]
  cases found : mapFindSlot m (c.key key) with
  | none =>
    have absent := stands.find_none found
    have missing := (encodes.lookup key).symm.trans absent
    rw [Option.map_eq_none_iff.mp missing]
    refine ⟨fun _ j inside live => ?_,fun _ => rfl⟩
    have there := (stands.tidy.holds _ _).mpr ⟨j,inside,live,rfl⟩
    rw [absent] at there
    cases there
  | some s =>
    obtain ⟨inside,live,there⟩ := stands.find found
    rw [encodes.lookup] at there
    obtain ⟨v,is,text⟩ := Option.map_eq_some_iff.mp there
    rw [is,Option.getD_some]
    simp only [← text,faithful.reads]
    constructor
    · intro read j inside' live'
      rw [stands.tidy.once j inside' s inside _ live' live,← text]
      exact read
    · intro all
      rw [text]
      exact all s inside live

variable {maps : List OscMap} {finite : List (Finmap fun _ : K => V)} {call : TypedCall K V} {readable : Str → Prop}

theorem performTyped_agrees (faithful : c.Faithful readable) (stand : List.Forall₂ c.Stands maps finite)
    (room : c.Roomy readable maps call) :
    Agrees (List.Forall₂ c.Stands) (performTyped c maps call) (call.meaning c.default finite) := by
  cases call with
  | new =>
    exact ⟨congrArg TypedAnswer.map stand.length_eq,
      List.rel_append stand (.cons ⟨_,Runtime.Stands.new,Encodes.empty⟩ .nil)⟩
  | set map key value =>
    simp only [performTyped,TypedCall.meaning]
    rcases forall₂_getElem? stand map with ⟨none,none'⟩ | ⟨m,f,is,is',stands⟩
    · simp only [none,none',Agrees]
    · obtain ⟨m',stored,stands'⟩ := stands.set value faithful.apart (room m is)
      simp only [is,is',stored,Outcome.map_ok]
      exact ⟨rfl,forall₂_set stand stands' map⟩
  | get map key =>
    simp only [performTyped,TypedCall.meaning]
    rcases forall₂_getElem? stand map with ⟨none,none'⟩ | ⟨m,f,is,is',stands⟩
    · simp only [none,none',Agrees]
      exact ⟨trivial,stand⟩
    · simp only [is,is',(stands.get faithful).mpr (room m is)]
      exact ⟨rfl,stand⟩
  | has map key =>
    simp only [performTyped,TypedCall.meaning]
    rcases forall₂_getElem? stand map with ⟨none,none'⟩ | ⟨m,f,is,is',stands⟩
    · simp only [none,none',Agrees]
      exact ⟨trivial,stand⟩
    · simp only [is,is',stands.has]
      exact ⟨rfl,stand⟩
  | delete map key =>
    simp only [performTyped,TypedCall.meaning]
    rcases forall₂_getElem? stand map with ⟨none,none'⟩ | ⟨m,f,is,is',stands⟩
    · simp only [none,none',Agrees]
    · simp only [is,is']
      exact ⟨rfl,forall₂_set stand (stands.delete faithful.apart) map⟩
  | len map =>
    simp only [performTyped,TypedCall.meaning]
    rcases forall₂_getElem? stand map with ⟨none,none'⟩ | ⟨m,f,is,is',g,stands,encodes⟩
    · simp only [none,none',Agrees]
      exact ⟨trivial,stand⟩
    · simp only [is,is',stands.len,encodes.card faithful.apart]
      exact ⟨rfl,stand⟩

theorem performTyped_breaks (faithful : c.Faithful readable) (stand : List.Forall₂ c.Stands maps finite)
    (broken : ¬ c.Roomy readable maps call) :
    (performTyped c maps call).map Prod.fst ≠ (call.meaning c.default finite).map Prod.fst := by
  cases call with
  | set map key value =>
    simp only [Coding.Roomy,not_forall] at broken
    obtain ⟨m,is,full⟩ := broken
    simp only [performTyped,TypedCall.meaning]
    rcases forall₂_getElem? stand map with ⟨none,-⟩ | ⟨m',f,is',known,g,stands,-⟩
    · rw [is] at none
      cases none
    · rw [is] at is'
      cases is'
      simp only [is,known,Coding.set]
      rcases stands.set_full (c.encode value) full with stuck | stuck <;>
      · rw [stuck]
        exact nofun
  | get map key =>
    simp only [Coding.Roomy] at broken
    obtain ⟨m,broken⟩ := not_forall.mp broken
    obtain ⟨is,unread⟩ := Classical.not_imp.mp broken
    simp only [performTyped,TypedCall.meaning]
    rcases forall₂_getElem? stand map with ⟨none,-⟩ | ⟨m',f,is',known,stands⟩
    · rw [is] at none
      cases none
    · rw [is] at is'
      cases is'
      simp only [is,known,Outcome.map_ok,ne_eq,Outcome.ok.injEq,TypedAnswer.value.injEq]
      exact fun same => unread ((stands.get faithful).mp same)
  | new | has | delete | len => exact absurd trivial broken

theorem typed_iff (faithful : c.Faithful readable) (calls : List (TypedCall K V)) :
    answers (performTyped c) [] calls = answers (TypedCall.meaning c.default) [] calls ↔
      Always (performTyped c) (c.Roomy readable) [] calls := by
  apply answers_iff (R := List.Forall₂ c.Stands)
  · exact fun _ _ _ stand room => performTyped_agrees faithful stand room
  · exact fun _ _ _ stand broken => performTyped_breaks faithful stand broken
  · exact .nil

end

/-! The kinds -/

/-- The least integer is printed but not read: its magnitude overflows before the sign is applied. -/
theorem valueOk_decimal {α : Type} (name : String) {max : Nat} (room : 9 ≤ max) (small : max + 1 < 10^20)
    {ofInt : Int → α} {toInt : α → Int} (bytes : String → α) {least : α} (back : ∀ v, ofInt (toInt v) = v)
    (bounds : ∀ v, -(max + 1 : Int) ≤ toInt v ∧ toInt v ≤ max) (is : toInt least = -(max + 1 : Int)) (v : α) :
    valueOk ofInt bytes (parseInteger name max (decimal (toInt v))) = v ↔
      (decimal (toInt v) = decimal (toInt least) → bytes (name ++ ": overflow") = least) := by
  have within := bounds v
  rw [parseInteger_decimal name room (by omega)]
  by_cases lowest : toInt v = toInt least
  · have same : v = least := by rw [← back v,lowest,back]
    rw [if_neg (by omega),same]
    exact ⟨fun read _ => read,fun read => read rfl⟩
  · rw [if_pos (by omega)]
    exact ⟨fun _ text => absurd (decimal_injective text) lowest,fun _ => back v⟩

/-- No least integer is stored in the slot, or the bytes read in its place are those of that integer. -/
def readableI32 (bytes : String → Int32) (text : Str) : Prop :=
  text = decimal Int32.minValue.toInt → bytes "parse_i32: overflow" = Int32.minValue

def readableI64 (bytes : String → Int64) (text : Str) : Prop :=
  text = decimal Int64.minValue.toInt → bytes "parse_i64: overflow" = Int64.minValue

theorem mapValToI32_reads (bytes : String → Int32) (v : Int32) :
    mapValToI32 bytes (decimal v.toInt) = v ↔ readableI32 bytes (decimal v.toInt) :=
  valueOk_decimal "parse_i32" (by decide) (by decide) bytes (fun _ => Int32.ofInt_toInt _)
    (fun v => ⟨v.le_toInt,Int.le_of_lt_add_one v.toInt_lt⟩) rfl v

theorem mapValToI64_reads (bytes : String → Int64) (v : Int64) :
    mapValToI64 bytes (decimal v.toInt) = v ↔ readableI64 bytes (decimal v.toInt) :=
  valueOk_decimal "parse_i64" (by decide) (by decide) bytes (fun _ => Int64.ofInt_toInt _)
    (fun v => ⟨v.le_toInt,Int.le_of_lt_add_one v.toInt_lt⟩) rfl v

theorem i32Key_injective : Function.Injective fun k : Int32 => decimal k.toInt :=
  fun _ _ same => Int32.toInt_inj.mp (decimal_injective same)

/-- The answers of typed maps are those of finite maps exactly as long as every set has room
and no get meets the text of the least integer. -/
theorem typed_maps_iff (bytes32 : String → Int32) (bytes64 : String → Int64) :
    (∀ calls, answers (performTyped (mapStrI32 bytes32)) [] calls = answers (TypedCall.meaning 0) [] calls ↔
      Always (performTyped (mapStrI32 bytes32)) ((mapStrI32 bytes32).Roomy (readableI32 bytes32)) [] calls) ∧
    (∀ calls, answers (performTyped (mapStrI64 bytes64)) [] calls = answers (TypedCall.meaning 0) [] calls ↔
      Always (performTyped (mapStrI64 bytes64)) ((mapStrI64 bytes64).Roomy (readableI64 bytes64)) [] calls) ∧
    (∀ calls, answers (performTyped mapI32Str) [] calls = answers (TypedCall.meaning []) [] calls ↔
      Always (performTyped mapI32Str) (mapI32Str.Roomy fun _ => True) [] calls) ∧
    ∀ calls, answers (performTyped (mapI32I32 bytes32)) [] calls = answers (TypedCall.meaning 0) [] calls ↔
      Always (performTyped (mapI32I32 bytes32)) ((mapI32I32 bytes32).Roomy (readableI32 bytes32)) [] calls :=
  ⟨typed_iff ⟨Function.injective_id,mapValToI32_reads bytes32⟩,typed_iff ⟨Function.injective_id,mapValToI64_reads bytes64⟩,
    typed_iff ⟨i32Key_injective,fun _ => ⟨fun _ => trivial,fun _ => rfl⟩⟩,
    typed_iff ⟨i32Key_injective,mapValToI32_reads bytes32⟩⟩

/-- The bytes of a message pointer come back in place of the least integer. -/
theorem leastI32_lost : ¬ (answers (performTyped (mapStrI32 fun _ => 4210688)) []
      [.new,.set 0 [107] Int32.minValue,.get 0 [107]] =
    answers (TypedCall.meaning 0) [] [.new,.set 0 [107] Int32.minValue,.get 0 [107]]) := by
  decide +kernel

end Oscan.Runtime
