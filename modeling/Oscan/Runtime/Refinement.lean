import Mathlib.Data.Nat.Bitwise
import Oscan.Runtime.Map

/-! The map of the runtime stands for a finite map as long as a set has room. -/
namespace Oscan.Runtime
open Library.Lockstep Library.Probing

def MapSlot.cell (s : MapSlot) : Cell Str Str :=
  match s.state with
  | .empty => .vacant
  | .occupied => .live s.key s.value
  | .tombstone => .dead

def OscMap.cells (m : OscMap) (j : Nat) : Cell Str Str := (m.slots j).cell

def mapHome (key : Str) : Nat := (mapFnv key).toNat

structure Sane (m : OscMap) : Prop where
  power : ∃ k, 4 ≤ k ∧ k ≤ 30 ∧ m.cap = 2^k
  hashed : ∀ j, (m.slots j).state = .occupied → (m.slots j).hash = mapFnv (m.slots j).key
  load : m.len * 4 ≤ m.cap * 3

structure Stands (m : OscMap) (f : FiniteMap) : Prop extends Sane m where
  table : Represents m.cap mapHome m.cells m.len f

theorem mapMask_power {k : Nat} (small : k ≤ 30) : (mapMask (2^k)).toNat = 2^k - 1 := by
  have bound : 2^k ≤ 2^30 := Nat.pow_le_pow_right (by decide) small
  rw [mapMask,UInt32.toNat_ofNat',Nat.mod_eq_of_lt]
  omega

theorem masked {k : Nat} (small : k ≤ 30) (h : UInt32) : (h &&& mapMask (2^k)).toNat = h.toNat % 2^k := by
  rw [UInt32.toNat_and,mapMask_power small,Nat.and_two_pow_sub_one_eq_mod]

theorem wrapped {k : Nat} (small : k ≤ 30) (n : Nat) : n % 2^32 % 2^k = n % 2^k :=
  Nat.mod_mod_of_dvd n (Nat.pow_dvd_pow 2 (by omega))

theorem slotIndex_eq {cap : Nat} (power : ∃ k, 4 ≤ k ∧ k ≤ 30 ∧ cap = 2^k) (key : Str) (i : Nat) :
    slotIndex cap (mapFnv key) i = probe cap mapHome key i := by
  obtain ⟨k,-,small,rfl⟩ := power
  rw [slotIndex,probe,mapHome,masked small,UInt32.toNat_add,wrapped small,masked small,UInt32.toNat_ofNat',
    Nat.mod_add_mod,Nat.add_mod,wrapped small,← Nat.add_mod]

section
variable {s : MapSlot} {key : Str}

theorem cell_isVacant : s.cell.isVacant = true ↔ s.state = .empty := by
  rw [MapSlot.cell]
  cases s.state <;> simp [Cell.isVacant]

theorem cell_isDead : s.cell.isDead = true ↔ s.state = .tombstone := by
  rw [MapSlot.cell]
  cases s.state <;> simp [Cell.isDead]

theorem cell_isLive : s.cell.isLive = true ↔ s.state = .occupied := by
  rw [MapSlot.cell]
  cases s.state <;> simp [Cell.isLive]

theorem cell_has : s.cell.has key = true ↔ s.state = .occupied ∧ s.key = key := by
  rw [MapSlot.cell]
  cases s.state <;> simp [Cell.has]

theorem cell_live {k v : Str} : s.cell = .live k v ↔ (s.state = .occupied ∧ s.key = k) ∧ s.value = v := by
  rw [MapSlot.cell]
  cases s.state <;> simp

end

variable {m : OscMap} {f : FiniteMap} {key value : Str}

theorem Sane.matches (sane : Sane m) (j : Nat) :
    ((m.slots j).state = .occupied ∧ (m.slots j).hash = mapFnv key ∧ (m.slots j).key = key) ↔
      (m.cells j).has key = true := by
  rw [OscMap.cells,cell_has]
  constructor
  · exact fun ⟨occupied,_,same⟩ => ⟨occupied,same⟩
  · exact fun ⟨occupied,same⟩ => ⟨occupied,same ▸ sane.hashed j occupied,same⟩

theorem findFrom_eq (sane : Sane m) : ∀ (n i : Nat), findFrom m key n i = locate m.cap mapHome m.cells key n i := by
  intro n
  induction n with
  | zero => exact fun _ => rfl
  | succ n ih =>
    intro i
    have vacant := cell_isVacant (s := m.slots (probe m.cap mapHome key i))
    rw [findFrom,locate,slotIndex_eq sane.power]
    simp only [sane.matches,ih]
    rw [OscMap.cells]
    simp only [vacant]

theorem mapFindSlot_eq (sane : Sane m) : mapFindSlot m key = locate m.cap mapHome m.cells key m.cap 0 :=
  findFrom_eq sane m.cap 0

/-- The found slot is the slot of the key, and it holds what the finite map holds. -/
theorem Stands.find (stands : Stands m f) {j : Nat} (found : mapFindSlot m key = some j) :
    j < m.cap ∧ m.Live j key ∧ f.lookup key = some (m.slots j).value := by
  rw [mapFindSlot_eq stands.toSane] at found
  obtain ⟨inside,has⟩ := (locate_iff stands.table.sound).mp found
  have live := cell_has.mp has
  exact ⟨inside,live,(stands.table.holds _ _).mpr ⟨j,inside,cell_live.mpr ⟨live,rfl⟩⟩⟩

theorem Stands.find_none (stands : Stands m f) (missing : mapFindSlot m key = none) : f.lookup key = none := by
  rw [mapFindSlot_eq stands.toSane] at missing
  rw [Option.eq_none_iff_forall_not_mem]
  intro v is
  obtain ⟨j,inside,live⟩ := (stands.table.holds _ _).mp is
  have no := (locate_none stands.table.sound).mp missing j inside
  rw [live,Cell.has,decide_eq_true rfl] at no
  cases no

theorem Stands.get (stands : Stands m f) : mapGet m key =
    match f.lookup key with
    | some value => .ok value
    | none => .panic "map_get: key not found" := by
  rw [mapGet]
  cases found : mapFindSlot m key with
  | some j => rw [(stands.find found).2.2]
  | none => rw [stands.find_none found]

theorem Stands.has (stands : Stands m f) : mapHas m key = (f.lookup key).isSome := by
  rw [mapHas]
  cases found : mapFindSlot m key with
  | some j =>
    rw [(stands.find found).2.2]
    rfl
  | none =>
    rw [stands.find_none found]
    rfl

theorem Stands.len (stands : Stands m f) : mapLen m = f.keys.card := stands.table.keys.symm

theorem cells_update {j len : Nat} {s : MapSlot} :
    OscMap.cells ⟨Function.update m.slots j s,m.cap,len⟩ = Function.update m.cells j s.cell :=
  Function.comp_update ..

theorem Sane.update (sane : Sane m) {j len : Nat} {s : MapSlot}
    (hashed : s.state = .occupied → s.hash = mapFnv s.key) (load : len * 4 ≤ m.cap * 3) :
    Sane ⟨Function.update m.slots j s,m.cap,len⟩ := by
  refine ⟨sane.power,fun i occupied => ?_,load⟩
  by_cases same : i = j
  · subst same
    simp only [Function.update_self] at occupied ⊢
    exact hashed occupied
  · simp only [Function.update_of_ne same] at occupied ⊢
    exact sane.hashed i occupied

/-! The new table of a growing map -/

theorem freeSlot_eq {cap : Nat} (power : ∃ k, 4 ≤ k ∧ k ≤ 30 ∧ cap = 2^k) (slots : Nat → MapSlot) :
    ∀ (n i : Nat) (idx : UInt32), idx.toNat = probe cap mapHome key i →
      freeSlot slots (mapMask cap) n idx = settle cap mapHome (fun j => (slots j).cell) key n i := by
  intro n
  induction n with
  | zero => exact fun _ _ _ => rfl
  | succ n ih =>
    intro i idx here
    have next : ((idx + 1) &&& mapMask cap).toNat = probe cap mapHome key (i + 1) := by
      obtain ⟨k,-,small,rfl⟩ := power
      rw [masked small,UInt32.toNat_add,wrapped small,here,probe,probe,UInt32.toNat_one,Nat.mod_add_mod,Nat.add_assoc]
    rw [freeSlot,settle,here,ih (i + 1) _ next]
    simp only [cell_isVacant]

theorem growFrom_eq {cap : Nat} (power : ∃ k, 4 ≤ k ∧ k ≤ 30 ∧ cap = 2^k) (old : Nat → MapSlot)
    (hashed : ∀ j, (old j).state = .occupied → (old j).hash = mapFnv (old j).key) :
    ∀ (n : Nat) (cells : Nat → Cell Str Str), rehash cap mapHome (fun j => (old j).cell) n = some cells →
      ∃ m, growFrom old cap n = some m ∧ m.cap = cap ∧ m.cells = cells ∧
        (∀ j, (m.slots j).state = .occupied → (m.slots j).hash = mapFnv (m.slots j).key) ∧
        m.len = (livesIn n fun j => (old j).cell).card := by
  intro n
  induction n with
  | zero =>
    intro cells settled
    cases settled
    exact ⟨_,rfl,rfl,rfl,nofun,rfl⟩
  | succ n ih =>
    intro cells settled
    obtain ⟨before,done,settled⟩ := Option.bind_eq_some_iff.mp settled
    simp only at settled
    obtain ⟨m,grown,rfl,rfl,kept,count⟩ := ih before done
    rw [growFrom,grown,Option.bind_some,livesIn_succ]
    by_cases occupied : (old n).state = .occupied
    · have live : (old n).cell = .live (old n).key (old n).value := cell_live.mpr ⟨⟨occupied,rfl⟩,rfl⟩
      rw [live] at settled
      obtain ⟨j,found,rfl⟩ := Option.map_eq_some_iff.mp settled
      have start : ((old n).hash &&& mapMask m.cap).toNat = probe m.cap mapHome (old n).key 0 := by
        obtain ⟨k,-,small,is⟩ := power
        rw [is,masked small,hashed n occupied]
        rfl
      have free : freeSlot m.slots (mapMask m.cap) m.cap ((old n).hash &&& mapMask m.cap) = some j := by
        rw [freeSlot_eq power m.slots m.cap 0 _ start]
        exact found
      have outside : n ∉ livesIn n fun j => (old j).cell := fun member => Nat.lt_irrefl n (mem_livesIn.mp member).1
      rw [if_pos occupied,free,Option.map_some,if_pos (cell_isLive.mpr occupied),Finset.card_insert_of_notMem outside]
      refine ⟨_,rfl,rfl,by rw [cells_update,live],fun i is => ?_,by rw [count]⟩
      by_cases same : i = j
      · subst same
        simp only [Function.update_self] at is ⊢
        exact hashed n is
      · simp only [Function.update_of_ne same] at is ⊢
        exact kept i is
    · have other : (old n).cell.isLive ≠ true := fun is => occupied (cell_isLive.mp is)
      rw [if_neg occupied,if_neg other]
      refine ⟨m,rfl,rfl,?_,kept,count⟩
      revert settled other
      cases (old n).cell with
      | live => exact fun _ no => absurd rfl no
      | vacant | dead => exact fun same _ => Option.some.inj same

/-- A map that grows stands for the same finite map, without tombstones. -/
theorem Stands.grow (stands : Stands m f) (small : m.cap ≤ 2^29) :
    ∃ m', mapGrow m = .ok m' ∧ Stands m' f ∧ m'.cap = m.cap * 2 ∧ m'.len = m.len ∧
      ∀ j, (m'.cells j).isDead = false := by
  obtain ⟨k,least,-,is⟩ := stands.power
  have most : k ≤ 29 := (Nat.pow_le_pow_iff_right (by decide)).mp (is ▸ small)
  have positive : 0 < m.cap := is ▸ Nat.two_pow_pos k
  obtain ⟨cells,settled,clean,table⟩ := stands.table.rehash (show m.cap < m.cap * 2 by omega) mapHome
  have power : ∃ k, 4 ≤ k ∧ k ≤ 30 ∧ m.cap * 2 = 2^k := ⟨k + 1,by omega,by omega,by rw [is,Nat.pow_succ]⟩
  obtain ⟨m',grown,same,rfl,hashed,count⟩ := growFrom_eq power m.slots stands.hashed m.cap cells settled
  have len : m'.len = m.len := count.trans stands.table.lives
  refine ⟨m',?_,⟨⟨by rwa [same],hashed,?_⟩,by rwa [same,len]⟩,same,len,clean⟩
  · rw [mapGrow,if_neg (by rw [int32Max]; omega),grown]
  · have load := stands.load
    omega

/-! Setting a key -/

theorem setFrom_eq (sane : Sane m) : ∀ (n i : Nat) (tomb : Option Nat), setFrom m key value n i tomb =
    match place m.cap mapHome m.cells key n i tomb with
    | .room j => .ok ⟨Function.update m.slots j ⟨key,value,mapFnv key,.occupied⟩,m.cap,m.len + 1⟩
    | .taken j => .ok ⟨Function.update m.slots j { m.slots j with value := value },m.cap,m.len⟩
    | .full => .panic "map_set: map is full" := by
  intro n
  induction n with
  | zero => exact fun _ _ => rfl
  | succ n ih =>
    intro i tomb
    have has : (m.slots (probe m.cap mapHome key i)).cell.has key = true ↔ _ := (sane.matches _).symm
    rw [setFrom,place,slotIndex_eq sane.power]
    simp only [OscMap.cells,cell_isVacant,cell_isDead,has]
    cases state : (m.slots (probe m.cap mapHome key i)).state with
    | empty => simp only [if_true]
    | tombstone => simp only [reduceCtorEq,if_false,false_and,if_true,ih]
    | occupied =>
      simp only [reduceCtorEq,if_false,true_and,ih]
      split
      next => simp only [state]
      next => rfl

/-- Behind the load test a map stands for more keys if a slot was never used or the key is there. -/
theorem Stands.store (stands : Stands m f) (below : m.len * 4 < m.cap * 3)
    (room : (∃ j < m.cap, (m.cells j).isVacant = true) ∨ ∃ j < m.cap, (m.cells j).has key = true) :
    ∃ m', setFrom m key value m.cap 0 none = .ok m' ∧ Stands m' (f.insert key value) := by
  rw [setFrom_eq stands.toSane]
  cases placed : place m.cap mapHome m.cells key m.cap 0 none with
  | full =>
    have all := place_full_iff.mp placed
    rcases room with ⟨j,inside,vacant⟩ | ⟨j,inside,here⟩
    · rw [(all j inside).1] at vacant
      cases vacant
    · rw [(all j inside).2] at here
      cases here
  | taken j =>
    obtain ⟨inside,has⟩ := (locate_iff stands.table.sound).mp (place_taken.mp placed)
    have here : (m.slots j).state = .occupied ∧ (m.slots j).key = key := cell_has.mp has
    refine ⟨_,rfl,stands.toSane.update (fun is => stands.hashed j is) stands.load,?_⟩
    have stored : MapSlot.cell ⟨(m.slots j).key,value,(m.slots j).hash,(m.slots j).state⟩ = .live key value :=
      cell_live.mpr ⟨here,rfl⟩
    rw [cells_update,stored]
    exact stands.table.update inside has
  | room j =>
    obtain ⟨way,fresh⟩ := place_room_fresh stands.table.sound placed
    refine ⟨_,rfl,stands.toSane.update (fun _ => rfl) ?_,?_⟩
    · obtain ⟨k,least,-,is⟩ := stands.power
      have quarter : 4 ∣ m.cap := is ▸ Nat.pow_dvd_pow 2 (show 2 ≤ k by omega)
      omega
    · rw [cells_update]
      exact stands.table.insert way fresh

theorem Stands.set (stands : Stands m f) (value : Str) (room : HasRoom m key) :
    ∃ m', mapSet m key value = .ok m' ∧ Stands m' (f.insert key value) := by
  obtain ⟨small,room⟩ := room
  have load := stands.load
  rw [mapSet,if_neg (by rw [int32Max]; omega)]
  by_cases many : m.cap * 3 ≤ m.len * 4
  · obtain ⟨m',grown,stands',cap,len,clean⟩ := stands.grow small
    obtain ⟨k,-,-,is⟩ := stands.power
    have positive : 0 < m.cap := is ▸ Nat.two_pow_pos k
    rw [if_pos many,grown,Outcome.bind_ok]
    refine stands'.store (by omega) (.inl (exists_vacant stands'.table.lives ?_ clean))
    omega
  · rw [if_neg many,Outcome.bind_ok]
    refine stands.store (by omega) ?_
    rcases room.resolve_left many with ⟨j,inside,empty⟩ | ⟨j,inside,live⟩
    · exact .inl ⟨j,inside,cell_isVacant.mpr empty⟩
    · exact .inr ⟨j,inside,cell_has.mpr live⟩

/-- Without room a set of the key has no result. -/
theorem Stands.set_full (stands : Stands m f) (value : Str) (full : ¬ HasRoom m key) :
    mapSet m key value = .undefined ∨ mapSet m key value = .panic "map_set: map is full" := by
  obtain ⟨k,-,most,is⟩ := stands.power
  by_cases small : m.cap ≤ 2^29
  · have load := stands.load
    have few : ¬ m.cap * 3 ≤ m.len * 4 := fun many => full ⟨small,.inl many⟩
    have placed : place m.cap mapHome m.cells key m.cap 0 none = .full := place_full_iff.mpr fun j inside =>
      ⟨Bool.eq_false_iff.mpr fun vacant => full ⟨small,.inr (.inl ⟨j,inside,cell_isVacant.mp vacant⟩)⟩,
        Bool.eq_false_iff.mpr fun has => full ⟨small,.inr (.inr ⟨j,inside,cell_has.mp has⟩)⟩⟩
    right
    rw [mapSet,if_neg (by rw [int32Max]; omega),if_neg few,Outcome.bind_ok,setFrom_eq stands.toSane,placed]
  · left
    have large : 29 < k := (Nat.pow_lt_pow_iff_right (by decide : 1 < 2)).mp (is ▸ Nat.lt_of_not_le small)
    have huge : m.cap = 2^30 := by rw [is,show k = 30 by omega]
    rw [mapSet,if_pos (.inr (by rw [huge]; decide))]

theorem Stands.delete (stands : Stands m f) : Stands (mapDelete m key) (f.erase key) := by
  rw [mapDelete]
  cases found : mapFindSlot m key with
  | none =>
    rw [erase_absent (stands.find_none found)]
    exact stands
  | some j =>
    obtain ⟨inside,live,-⟩ := stands.find found
    have load := stands.load
    refine ⟨stands.toSane.update nofun (by omega),?_⟩
    rw [cells_update]
    exact stands.table.erase inside (cell_has.mpr live)

theorem Stands.new : Stands mapNew ∅ :=
  ⟨⟨⟨4,by decide,by decide,rfl⟩,nofun,by decide⟩,Represents.vacant⟩

theorem Stands.tidy (stands : Stands m f) : Tidy m f where
  holds k v := (stands.table.holds k v).trans (exists_congr fun _ => and_congr_right fun _ => cell_live)
  once j inside j' inside' k live live' :=
    stands.table.sound.single j inside j' inside' k _ _ (cell_live.mpr ⟨live,rfl⟩) (cell_live.mpr ⟨live',rfl⟩)
  reachable j inside k live := by
    obtain ⟨i,below,same,way⟩ := stands.table.sound.reachable j inside k _ (cell_live.mpr ⟨live,rfl⟩)
    refine ⟨i,below,by rw [slotIndex_eq stands.power,same],fun i' less empty => ?_⟩
    have used := way i' less
    rw [← slotIndex_eq stands.power,OscMap.cells,cell_isVacant.mpr empty] at used
    cases used
  counted := stands.len

/-! Runs -/

variable {maps : List OscMap} {finite : List FiniteMap} {call : MapCall}

/-- A call with room does to the maps what it means for the finite maps. -/
theorem performMap_agrees (stand : List.Forall₂ Stands maps finite) (room : call.Roomy maps) :
    Agrees (List.Forall₂ Stands) (performMap maps call) (call.meaning finite) := by
  cases call with
  | new =>
    exact ⟨congrArg MapAnswer.map stand.length_eq,List.rel_append stand (.cons Stands.new .nil)⟩
  | set map key value =>
    simp only [performMap,MapCall.meaning]
    rcases forall₂_getElem? stand map with ⟨none,none'⟩ | ⟨m,f,is,is',stands⟩
    · simp only [none,none',Agrees]
    · obtain ⟨m',stored,stands'⟩ := stands.set value (room m is)
      simp only [is,is',stored,Outcome.map_ok]
      exact ⟨rfl,forall₂_set stand stands' map⟩
  | get map key =>
    simp only [performMap,MapCall.meaning]
    rcases forall₂_getElem? stand map with ⟨none,none'⟩ | ⟨m,f,is,is',stands⟩
    · simp only [none,none',Agrees]
    · simp only [is,is',stands.get]
      cases f.lookup key with
      | none => exact rfl
      | some value => exact ⟨rfl,stand⟩
  | has map key =>
    simp only [performMap,MapCall.meaning]
    rcases forall₂_getElem? stand map with ⟨none,none'⟩ | ⟨m,f,is,is',stands⟩
    · simp only [none,none',Agrees]
      exact ⟨trivial,stand⟩
    · simp only [is,is',stands.has]
      exact ⟨rfl,stand⟩
  | delete map key =>
    simp only [performMap,MapCall.meaning]
    rcases forall₂_getElem? stand map with ⟨none,none'⟩ | ⟨m,f,is,is',stands⟩
    · simp only [none,none',Agrees]
    · simp only [is,is']
      exact ⟨rfl,forall₂_set stand stands.delete map⟩
  | len map =>
    simp only [performMap,MapCall.meaning]
    rcases forall₂_getElem? stand map with ⟨none,none'⟩ | ⟨m,f,is,is',stands⟩
    · simp only [none,none',Agrees]
      exact ⟨trivial,stand⟩
    · simp only [is,is',stands.len]
      exact ⟨rfl,stand⟩

/-- A set without room does not answer, and the finite map does. -/
theorem performMap_breaks (stand : List.Forall₂ Stands maps finite) (full : ¬ call.Roomy maps) :
    (performMap maps call).map Prod.fst ≠ (call.meaning finite).map Prod.fst := by
  cases call with
  | set map key value =>
    simp only [MapCall.Roomy,not_forall] at full
    obtain ⟨m,is,full⟩ := full
    simp only [performMap,MapCall.meaning]
    rcases forall₂_getElem? stand map with ⟨none,-⟩ | ⟨m',f,is',known,stands⟩
    · rw [is] at none
      cases none
    · rw [is] at is'
      cases is'
      simp only [is,known]
      rcases stands.set_full value full with stuck | stuck <;>
      · rw [stuck]
        exact nofun
  | new | get | has | delete | len => exact absurd trivial full

/-- Maps answer as finite maps do, and stay tidy, exactly as long as every set has room. -/
theorem map_refines_iff (calls : List MapCall) :
    Refines performMap MapCall.meaning (List.Forall₂ Tidy) [] [] calls ↔ Always performMap MapCall.Roomy [] calls := by
  apply refines_iff (R := List.Forall₂ Stands)
  · exact fun _ _ _ stand room => performMap_agrees stand room
  · exact fun _ _ _ stand full => performMap_breaks stand full
  · exact fun stand => stand.imp fun _ _ stands => stands.tidy
  · exact .nil

/-- Sixteen keys with slots of their own -/
def sixteenKeys : List Str := (List.range 16).map fun i => [UInt8.ofNat (97 + i)]

/-- Every key is set and deleted again, and then the first one is set once more. -/
def tombstones : List MapCall :=
  .new :: sixteenKeys.flatMap (fun key => [.set 0 key [],.delete 0 key]) ++ [.set 0 [97] []]

theorem tombstones_panic :
    ¬ Refines performMap MapCall.meaning (List.Forall₂ Tidy) [] [] tombstones := by
  intro refines
  have same := refines.answers
  revert same
  decide +kernel

end Oscan.Runtime
