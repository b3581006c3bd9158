import Mathlib.Data.Finset.Card
import Mathlib.Data.Finset.Range
import Mathlib.Data.Finmap
import Mathlib.Logic.Function.Basic

/-! Open addressing with tombstones: a key is looked for from its home on, slot by slot and around the end,
up to the first slot that was never used. -/
namespace Oscan.Library.Probing

variable {κ ν : Type}

inductive Cell (κ ν : Type) where
  | vacant
  | live (key : κ) (value : ν)
  | dead

def Cell.isVacant : Cell κ ν → Bool
  | .vacant => true
  | _ => false

def Cell.isLive : Cell κ ν → Bool
  | .live .. => true
  | _ => false

def Cell.isDead : Cell κ ν → Bool
  | .dead => true
  | _ => false

/-- The cell is live under the key. -/
def Cell.has [DecidableEq κ] (key : κ) : Cell κ ν → Bool
  | .live k _ => decide (k = key)
  | _ => false

inductive Place where
  | room (slot : Nat)
  | taken (slot : Nat)
  | full
deriving DecidableEq

/-- The slot of a probe -/
def probe (size : Nat) (home : κ → Nat) (key : κ) (i : Nat) : Nat := (home key + i) % size

theorem isVacant_iff {c : Cell κ ν} : c.isVacant = true ↔ c = .vacant := by
  cases c <;> simp [Cell.isVacant]

theorem probe_lt {size : Nat} {home : κ → Nat} {key : κ} (some : 0 < size) (i : Nat) : probe size home key i < size :=
  Nat.mod_lt _ some

/-- The probes visit every slot. -/
theorem probe_visits {size : Nat} (home : κ → Nat) (key : κ) {j : Nat} (inside : j < size) :
    ∃ i < size, probe size home key i = j := by
  have some : 0 < size := Nat.zero_lt_of_lt inside
  refine ⟨(j + (size - home key % size)) % size,Nat.mod_lt _ some,?_⟩
  have start : home key % size < size := Nat.mod_lt _ some
  have around : home key % size + (j + (size - home key % size)) = j + size := by omega
  rw [probe,Nat.add_mod_mod,← Nat.mod_add_mod,around,Nat.add_mod_right,Nat.mod_eq_of_lt inside]

section
variable [DecidableEq κ] (size : Nat) (home : κ → Nat) (cells : Nat → Cell κ ν)

/-- The next `n` probes from `i` on. -/
def locate (key : κ) : Nat → Nat → Option Nat
  | 0,_ => none
  | n + 1,i =>
    if (cells (probe size home key i)).isVacant then none
    else if (cells (probe size home key i)).has key then some (probe size home key i)
    else locate key n (i + 1)

/-- Where a key goes: into the first tombstone on the way, or else the vacant slot at its end. -/
def place (key : κ) : Nat → Nat → Option Nat → Place
  | 0,_,_ => .full
  | n + 1,i,tomb =>
    if (cells (probe size home key i)).isVacant then .room (tomb.getD (probe size home key i))
    else if (cells (probe size home key i)).has key then .taken (probe size home key i)
    else place key n (i + 1)
      (if (cells (probe size home key i)).isDead then tomb.or (some (probe size home key i)) else tomb)

/-- The first vacant slot of the next `n` probes -/
def settle (key : κ) : Nat → Nat → Option Nat
  | 0,_ => none
  | n + 1,i => if (cells (probe size home key i)).isVacant then some (probe size home key i) else settle key n (i + 1)

/-- Live keys are found on the way from their home, and each of them once. -/
structure Sound : Prop where
  reachable : ∀ j < size, ∀ k v, cells j = .live k v →
    ∃ i < size, probe size home k i = j ∧ ∀ i' < i, (cells (probe size home k i')).isVacant = false
  single : ∀ j < size, ∀ j' < size, ∀ k v v', cells j = .live k v → cells j' = .live k v' → j = j'

/-- A live slot holds the value under the key. -/
def Holds (key : κ) (value : ν) : Prop := ∃ j < size, cells j = .live key value

/-- The live slots -/
def livesIn : Finset Nat := (Finset.range size).filter fun j => (cells j).isLive = true

/-- The table is the finite map, and `count` is the number of its keys. -/
structure Represents (count : Nat) (f : Finmap fun _ : κ => ν) : Prop where
  sound : Sound size home cells
  holds : ∀ k v, f.lookup k = some v ↔ Holds size cells k v
  lives : (livesIn size cells).card = count
  keys : f.keys.card = count

end

variable [DecidableEq κ] {size : Nat} {home : κ → Nat} {cells : Nat → Cell κ ν} {key : κ} {value : ν}

theorem has_iff {c : Cell κ ν} : c.has key = true ↔ ∃ v, c = .live key v := by
  cases c with
  | live k v => simp only [Cell.has,decide_eq_true_eq,Cell.live.injEq]; exact ⟨fun same => ⟨v,same,rfl⟩,fun ⟨_,same,_⟩ => same⟩
  | vacant | dead => simp only [Cell.has,Bool.false_eq_true,reduceCtorEq,exists_false]

theorem locate_sound : ∀ {n i j : Nat}, locate size home cells key n i = some j →
    ∃ m < n, probe size home key (i + m) = j ∧ (cells j).has key = true := by
  intro n
  induction n with
  | zero => exact fun found => by cases found
  | succ n ih =>
    intro i j found
    rw [locate] at found
    split at found
    next => cases found
    next =>
      split at found
      next here =>
        cases found
        exact ⟨0,Nat.zero_lt_succ n,rfl,here⟩
      next =>
        obtain ⟨m,below,same,here⟩ := ih found
        exact ⟨m + 1,Nat.succ_lt_succ below,by rw [← same,Nat.add_assoc,Nat.add_comm 1],here⟩

theorem locate_complete : ∀ {n i m : Nat}, m < n → (cells (probe size home key (i + m))).has key = true →
    (∀ m' < m, (cells (probe size home key (i + m'))).isVacant = false) →
    (locate size home cells key n i).isSome = true := by
  intro n
  induction n with
  | zero => exact fun below => absurd below (Nat.not_lt_zero _)
  | succ n ih =>
    intro i m below here way
    have used : (cells (probe size home key i)).isVacant = false := by
      cases m with
      | zero =>
        obtain ⟨v,same⟩ := has_iff.mp here
        rw [Nat.add_zero] at same
        rw [same]
        rfl
      | succ m => exact way 0 (Nat.zero_lt_succ m)
    rw [locate,if_neg (by rw [used]; exact Bool.false_ne_true)]
    split
    next => rfl
    next elsewhere =>
      cases m with
      | zero => exact absurd here elsewhere
      | succ m =>
        refine ih (i := i + 1) (Nat.lt_of_succ_lt_succ below) ?_ fun m' less => ?_
        · rwa [Nat.add_assoc,Nat.add_comm 1]
        · rw [Nat.add_assoc,Nat.add_comm 1]
          exact way (m' + 1) (Nat.succ_lt_succ less)

/-- In a sound table the search finds exactly the slot of the key. -/
theorem locate_iff (sound : Sound size home cells) {j : Nat} :
    locate size home cells key size 0 = some j ↔ j < size ∧ (cells j).has key = true := by
  constructor
  · intro found
    obtain ⟨m,below,same,here⟩ := locate_sound found
    exact ⟨same ▸ probe_lt (Nat.zero_lt_of_lt below) _,here⟩
  · rintro ⟨inside,here⟩
    obtain ⟨v,live⟩ := has_iff.mp here
    obtain ⟨i,below,same,way⟩ := sound.reachable j inside key v live
    have found := locate_complete (i := 0) below (by rwa [Nat.zero_add,same]) fun m' less => by
      rw [Nat.zero_add]
      exact way m' less
    obtain ⟨j',found⟩ := Option.isSome_iff_exists.mp found
    obtain ⟨m,inside',same',here'⟩ := locate_sound found
    obtain ⟨v',live'⟩ := has_iff.mp here'
    rw [found,sound.single j' (same' ▸ probe_lt (Nat.zero_lt_of_lt inside') _) j inside key v' v live' live]

theorem locate_none (sound : Sound size home cells) :
    locate size home cells key size 0 = none ↔ ∀ j < size, (cells j).has key = false := by
  rw [Option.eq_none_iff_forall_not_mem]
  simp only [Option.mem_def,locate_iff sound,not_and,Bool.not_eq_true]

theorem place_taken : ∀ {n i : Nat} {tomb : Option Nat} {j : Nat},
    place size home cells key n i tomb = .taken j ↔ locate size home cells key n i = some j := by
  intro n
  induction n with
  | zero => exact ⟨nofun,nofun⟩
  | succ n ih =>
    intro i tomb j
    rw [place,locate]
    split
    next => exact ⟨nofun,nofun⟩
    next =>
      split
      next => rw [Place.taken.injEq,Option.some.injEq]
      next => exact ih

theorem place_full : ∀ {n i : Nat} {tomb : Option Nat}, place size home cells key n i tomb = .full ↔
    ∀ m < n, (cells (probe size home key (i + m))).isVacant = false ∧
      (cells (probe size home key (i + m))).has key = false := by
  intro n
  induction n with
  | zero => exact fun {_ _} => ⟨fun _ _ below => absurd below (Nat.not_lt_zero _),fun _ => rfl⟩
  | succ n ih =>
    intro i tomb
    rw [place]
    split
    next vacant =>
      refine ⟨nofun,fun all => ?_⟩
      have used := (all 0 (Nat.zero_lt_succ n)).1
      rw [Nat.add_zero,vacant] at used
      cases used
    next used =>
      split
      next here =>
        refine ⟨nofun,fun all => ?_⟩
        have other := (all 0 (Nat.zero_lt_succ n)).2
        rw [Nat.add_zero,here] at other
        cases other
      next other =>
        rw [ih]
        constructor
        · intro all m below
          cases m with
          | zero => exact ⟨Bool.eq_false_iff.mpr used,Bool.eq_false_iff.mpr other⟩
          | succ m =>
            have later := all m (Nat.lt_of_succ_lt_succ below)
            rwa [Nat.add_assoc,Nat.add_comm 1] at later
        · intro all m below
          rw [Nat.add_assoc,Nat.add_comm 1]
          exact all (m + 1) (Nat.succ_lt_succ below)

/-- The slot is on the way of the key, and nothing lives there. -/
def Open (size : Nat) (home : κ → Nat) (cells : Nat → Cell κ ν) (key : κ) (j : Nat) : Prop :=
  (cells j).isLive = false ∧ ∃ i < size, probe size home key i = j ∧
    ∀ i' < i, (cells (probe size home key i')).isVacant = false

theorem place_room : ∀ {n i : Nat} {tomb : Option Nat} {j : Nat}, i + n = size →
    (∀ i' < i, (cells (probe size home key i')).isVacant = false) →
    (∀ t, tomb = some t → Open size home cells key t) → place size home cells key n i tomb = .room j →
    Open size home cells key j := by
  intro n
  induction n with
  | zero => exact fun _ _ _ placed => by cases placed
  | succ n ih =>
    intro i tomb j all way known placed
    rw [place] at placed
    split at placed
    next vacant =>
      cases tomb with
      | some t =>
        cases placed
        exact known t rfl
      | none =>
        cases placed
        refine ⟨?_,i,by omega,rfl,way⟩
        rw [Option.getD_none,isVacant_iff.mp vacant]
        rfl
    next used =>
      split at placed
      next => cases placed
      next =>
        have further : ∀ i' < i + 1, (cells (probe size home key i')).isVacant = false := by
          intro i' below
          rcases Nat.lt_succ_iff_lt_or_eq.mp below with less | rfl
          · exact way i' less
          · exact Bool.eq_false_iff.mpr used
        refine ih (i := i + 1) (by omega) further (fun t is => ?_) placed
        split at is
        next dead =>
          cases tomb with
          | some t' => exact known t is
          | none =>
            cases is
            refine ⟨?_,i,by omega,rfl,way⟩
            revert dead
            cases cells (probe size home key i) <;> simp [Cell.isDead,Cell.isLive]
        next => exact known t is

theorem place_room_fresh (sound : Sound size home cells) {j : Nat}
    (placed : place size home cells key size 0 none = .room j) :
    Open size home cells key j ∧ ∀ i < size, (cells i).has key = false := by
  refine ⟨place_room (Nat.zero_add size) (fun _ less => absurd less (Nat.not_lt_zero _)) (fun t no => by cases no) placed,?_⟩
  rw [← locate_none sound]
  cases located : locate size home cells key size 0 with
  | none => rfl
  | some i =>
    rw [place_taken.mpr located] at placed
    cases placed

theorem place_full_iff : place size home cells key size 0 none = .full ↔
    ∀ j < size, (cells j).isVacant = false ∧ (cells j).has key = false := by
  rw [place_full]
  constructor
  · intro all j inside
    obtain ⟨i,below,same⟩ := probe_visits home key inside
    have here := all i below
    rwa [Nat.zero_add,same] at here
  · intro all m below
    exact all _ (probe_lt (Nat.zero_lt_of_lt below) _)

omit [DecidableEq κ] in
theorem settle_some : ∀ {n i j : Nat}, settle size home cells key n i = some j →
    (cells j).isVacant = true ∧ ∃ m < n, probe size home key (i + m) = j ∧
      ∀ m' < m, (cells (probe size home key (i + m'))).isVacant = false := by
  intro n
  induction n with
  | zero => exact fun settled => by cases settled
  | succ n ih =>
    intro i j settled
    rw [settle] at settled
    split at settled
    next vacant =>
      cases settled
      exact ⟨vacant,0,Nat.zero_lt_succ n,rfl,fun _ less => absurd less (Nat.not_lt_zero _)⟩
    next used =>
      obtain ⟨vacant,m,below,same,way⟩ := ih settled
      refine ⟨vacant,m + 1,Nat.succ_lt_succ below,by rw [← same,Nat.add_assoc,Nat.add_comm 1],fun m' less => ?_⟩
      cases m' with
      | zero => exact Bool.eq_false_iff.mpr used
      | succ m' =>
        have later := way m' (Nat.lt_of_succ_lt_succ less)
        rwa [Nat.add_assoc,Nat.add_comm 1] at later

omit [DecidableEq κ] in
theorem settle_none : ∀ {n i : Nat}, settle size home cells key n i = none →
    ∀ m < n, (cells (probe size home key (i + m))).isVacant = false := by
  intro n
  induction n with
  | zero => exact fun _ _ below => absurd below (Nat.not_lt_zero _)
  | succ n ih =>
    intro i settled m below
    rw [settle] at settled
    split at settled
    next => cases settled
    next used =>
      cases m with
      | zero => exact Bool.eq_false_iff.mpr used
      | succ m =>
        have later := ih settled m (Nat.lt_of_succ_lt_succ below)
        rwa [Nat.add_assoc,Nat.add_comm 1] at later

omit [DecidableEq κ] in
/-- Where a slot is vacant, a key settles. -/
theorem settle_open (home : κ → Nat) (key : κ) {j : Nat} (inside : j < size) (vacant : (cells j).isVacant = true) :
    ∃ j', settle size home cells key size 0 = some j' ∧ Open size home cells key j' := by
  cases settled : settle size home cells key size 0 with
  | none =>
    obtain ⟨i,below,same⟩ := probe_visits home key inside
    have used := settle_none settled i below
    rw [Nat.zero_add,same,vacant] at used
    cases used
  | some j' =>
    obtain ⟨here,m,below,same,way⟩ := settle_some settled
    refine ⟨j',rfl,by rw [isVacant_iff.mp here]; rfl,m,below,by rw [← same,Nat.zero_add],fun m' less => ?_⟩
    have used := way m' less
    rwa [Nat.zero_add] at used

omit [DecidableEq κ] in
theorem mem_livesIn {j : Nat} : j ∈ livesIn size cells ↔ j < size ∧ (cells j).isLive = true := by
  rw [livesIn,Finset.mem_filter,Finset.mem_range]

omit [DecidableEq κ] in
theorem livesIn_live {j : Nat} {k : κ} {v : ν} (inside : j < size) :
    livesIn size (Function.update cells j (.live k v)) = insert j (livesIn size cells) := by
  ext i
  rw [Finset.mem_insert,mem_livesIn,mem_livesIn]
  by_cases same : i = j
  · subst same
    simp only [Function.update_self,Cell.isLive,inside,true_and,true_or]
  · rw [Function.update_of_ne same]
    simp only [same,false_or]

omit [DecidableEq κ] in
theorem livesIn_dead {j : Nat} : livesIn size (Function.update cells j .dead) = (livesIn size cells).erase j := by
  ext i
  rw [Finset.mem_erase,mem_livesIn,mem_livesIn]
  by_cases same : i = j
  · subst same
    simp only [Function.update_self,Cell.isLive,Bool.false_eq_true,and_false,ne_eq,not_true,false_and]
  · rw [Function.update_of_ne same]
    simp only [ne_eq,same,not_false_iff,true_and]

theorem keys_insert (f : Finmap fun _ : κ => ν) (k : κ) (v : ν) : (f.insert k v).keys = insert k f.keys := by
  ext x
  rw [Finmap.mem_keys,Finmap.mem_insert,Finset.mem_insert,Finmap.mem_keys]

theorem erase_absent {f : Finmap fun _ : κ => ν} (absent : f.lookup key = none) : f.erase key = f := by
  refine Finmap.ext_lookup fun k => ?_
  by_cases same : k = key
  · rw [same,Finmap.lookup_erase,absent]
  · rw [Finmap.lookup_erase_ne same]

omit [DecidableEq κ] in
/-- Nothing on the way becomes vacant. -/
theorem used_update {j i : Nat} {c : Cell κ ν} (kept : c.isVacant = false) (used : (cells i).isVacant = false) :
    ((Function.update cells j c) i).isVacant = false := by
  by_cases same : i = j
  · subst same
    rwa [Function.update_self]
  · rwa [Function.update_of_ne same]

section
variable {count : Nat} {f : Finmap fun _ : κ => ν} {j : Nat}

omit [DecidableEq κ] in
theorem live_update {k : κ} {v : ν} {i : Nat} {key : κ} {value : ν} :
    Function.update cells j (.live key value) i = .live k v ↔
      i = j ∧ k = key ∧ v = value ∨ i ≠ j ∧ cells i = .live k v := by
  by_cases same : i = j
  · subst same
    simp only [Function.update_self,Cell.live.injEq,true_and,ne_eq,not_true,false_and,or_false]
    exact and_congr eq_comm eq_comm
  · simp only [Function.update_of_ne same,same,false_and,ne_eq,not_false_iff,true_and,false_or]

theorem Represents.vacant : Represents size home (fun _ => (.vacant : Cell κ ν)) 0 ∅ where
  sound := ⟨nofun,nofun⟩
  holds k v := by
    rw [Finmap.lookup_empty]
    exact ⟨nofun,fun ⟨_,_,live⟩ => nomatch live⟩
  lives := Finset.card_eq_zero.mpr (Finset.filter_eq_empty_iff.mpr fun _ _ => Bool.false_ne_true)
  keys := rfl

/-- A live slot takes another value of its key. -/
theorem Represents.update (table : Represents size home cells count f) (inside : j < size)
    (here : (cells j).has key = true) :
    Represents size home (Function.update cells j (.live key value)) count (f.insert key value) := by
  obtain ⟨old,live⟩ := has_iff.mp here
  have known : key ∈ f.keys := Finmap.mem_keys.mpr (Finmap.mem_iff.mpr ⟨old,(table.holds key old).mpr ⟨j,inside,live⟩⟩)
  refine ⟨⟨fun i within k v is => ?_,fun i within i' within' k v v' is is' => ?_⟩,fun k v => ?_,?_,?_⟩
  · have before : ∃ w, cells i = .live k w := by
      rcases live_update.mp is with ⟨rfl,rfl,-⟩ | ⟨-,same⟩
      · exact ⟨old,live⟩
      · exact ⟨v,same⟩
    obtain ⟨w,before⟩ := before
    obtain ⟨m,below,same,way⟩ := table.sound.reachable i within k w before
    exact ⟨m,below,same,fun i' less => used_update rfl (way i' less)⟩
  · have before : ∀ {i v}, Function.update cells j (.live key value) i = .live k v → ∃ w, cells i = .live k w := by
      intro i v is
      rcases live_update.mp is with ⟨rfl,rfl,-⟩ | ⟨-,same⟩
      · exact ⟨old,live⟩
      · exact ⟨v,same⟩
    obtain ⟨w,first⟩ := before is
    obtain ⟨w',second⟩ := before is'
    exact table.sound.single i within i' within' k w w' first second
  · by_cases same : k = key
    · subst same
      rw [Finmap.lookup_insert,Option.some.injEq]
      constructor
      · rintro rfl
        exact ⟨j,inside,Function.update_self ..⟩
      · rintro ⟨i,within,is⟩
        rcases live_update.mp is with ⟨-,-,same⟩ | ⟨other,before⟩
        · exact same.symm
        · exact absurd (table.sound.single i within j inside k v old before live) other
    · rw [Finmap.lookup_insert_of_ne _ same,table.holds]
      refine exists_congr fun i => and_congr_right fun within => ?_
      rw [live_update]
      constructor
      · intro is
        refine .inr ⟨fun eq => ?_,is⟩
        rw [eq,live] at is
        cases is
        exact same rfl
      · rintro (⟨-,eq,-⟩ | ⟨-,is⟩)
        · exact absurd eq same
        · exact is
  · rw [livesIn_live inside,Finset.insert_eq_self.mpr (mem_livesIn.mpr ⟨inside,by rw [live]; rfl⟩),table.lives]
  · rw [keys_insert,Finset.insert_eq_self.mpr known,table.keys]

/-- A new key goes to an open slot on its way. -/
theorem Represents.insert (table : Represents size home cells count f) (way : Open size home cells key j)
    (fresh : ∀ i < size, (cells i).has key = false) :
    Represents size home (Function.update cells j (.live key value)) (count + 1) (f.insert key value) := by
  obtain ⟨free,m,below,at_,path⟩ := way
  have inside : j < size := at_ ▸ probe_lt (Nat.zero_lt_of_lt below) m
  have absent : ∀ i < size, ∀ v, cells i ≠ .live key v := fun i within v is => by
    have no := fresh i within
    rw [has_iff.mpr ⟨v,is⟩] at no
    cases no
  have unknown : key ∉ f.keys := fun known => by
    obtain ⟨v,found⟩ := Finmap.mem_iff.mp (Finmap.mem_keys.mp known)
    obtain ⟨i,within,is⟩ := (table.holds key v).mp found
    exact absent i within v is
  refine ⟨⟨fun i within k v is => ?_,fun i within i' within' k v v' is is' => ?_⟩,fun k v => ?_,?_,?_⟩
  · rcases live_update.mp is with ⟨rfl,rfl,-⟩ | ⟨-,is⟩
    · exact ⟨m,below,at_,fun i' less => used_update rfl (path i' less)⟩
    · obtain ⟨m,below,same,way⟩ := table.sound.reachable i within k v is
      exact ⟨m,below,same,fun i' less => used_update rfl (way i' less)⟩
  · rcases live_update.mp is with ⟨rfl,rfl,-⟩ | ⟨-,first⟩
    · rcases live_update.mp is' with ⟨rfl,-,-⟩ | ⟨-,second⟩
      · rfl
      · exact absurd second (absent i' within' v')
    · rcases live_update.mp is' with ⟨rfl,rfl,-⟩ | ⟨-,second⟩
      · exact absurd first (absent i within v)
      · exact table.sound.single i within i' within' k v v' first second
  · by_cases same : k = key
    · subst same
      rw [Finmap.lookup_insert,Option.some.injEq]
      constructor
      · rintro rfl
        exact ⟨j,inside,Function.update_self ..⟩
      · rintro ⟨i,within,is⟩
        rcases live_update.mp is with ⟨-,-,same⟩ | ⟨-,before⟩
        · exact same.symm
        · exact absurd before (absent i within v)
    · rw [Finmap.lookup_insert_of_ne _ same,table.holds]
      refine exists_congr fun i => and_congr_right fun within => ?_
      rw [live_update]
      constructor
      · intro is
        refine .inr ⟨fun eq => ?_,is⟩
        rw [eq] at is
        rw [is] at free
        cases free
      · rintro (⟨-,eq,-⟩ | ⟨-,is⟩)
        · exact absurd eq same
        · exact is
  · have outside : j ∉ livesIn size cells := fun member => by
      rw [(mem_livesIn.mp member).2] at free
      cases free
    rw [livesIn_live inside,Finset.card_insert_of_notMem outside,table.lives]
  · rw [keys_insert,Finset.card_insert_of_notMem unknown,table.keys]

/-- A live slot becomes a tombstone. -/
theorem Represents.erase (table : Represents size home cells count f) (inside : j < size)
    (here : (cells j).has key = true) :
    Represents size home (Function.update cells j .dead) (count - 1) (f.erase key) := by
  obtain ⟨old,live⟩ := has_iff.mp here
  have known : key ∈ f.keys := Finmap.mem_keys.mpr (Finmap.mem_iff.mpr ⟨old,(table.holds key old).mpr ⟨j,inside,live⟩⟩)
  have stays : ∀ {i k v}, Function.update cells j .dead i = .live k v ↔ i ≠ j ∧ cells i = .live k v := by
    intro i k v
    by_cases same : i = j
    · subst same
      simp only [Function.update_self,reduceCtorEq,ne_eq,not_true,false_and]
    · simp only [Function.update_of_ne same,ne_eq,same,not_false_iff,true_and]
  refine ⟨⟨fun i within k v is => ?_,fun i within i' within' k v v' is is' => ?_⟩,fun k v => ?_,?_,?_⟩
  · obtain ⟨m,below,same,way⟩ := table.sound.reachable i within k v (stays.mp is).2
    exact ⟨m,below,same,fun i' less => used_update rfl (way i' less)⟩
  · exact table.sound.single i within i' within' k v v' (stays.mp is).2 (stays.mp is').2
  · by_cases same : k = key
    · subst same
      rw [Finmap.lookup_erase]
      refine ⟨nofun,fun ⟨i,within,is⟩ => ?_⟩
      exact absurd (table.sound.single i within j inside k v old (stays.mp is).2 live) (stays.mp is).1
    · rw [Finmap.lookup_erase_ne same,table.holds]
      refine exists_congr fun i => and_congr_right fun within => ?_
      rw [stays]
      refine ⟨fun is => ⟨fun eq => ?_,is⟩,fun is => is.2⟩
      rw [eq,live] at is
      cases is
      exact same rfl
  · rw [livesIn_dead,Finset.card_erase_of_mem (mem_livesIn.mpr ⟨inside,by rw [live]; rfl⟩),table.lives]
  · rw [Finmap.keys_erase,Finset.card_erase_of_mem known,table.keys]

end

/-- The live ones of the first `n` old cells, settled in a table without any other. -/
def rehash (size : Nat) (home : κ → Nat) (old : Nat → Cell κ ν) : Nat → Option (Nat → Cell κ ν)
  | 0 => some fun _ => .vacant
  | n + 1 => (rehash size home old n).bind fun cells =>
    match old n with
    | .live k v => (settle size home cells k size 0).map fun j => Function.update cells j (.live k v)
    | _ => some cells

omit [DecidableEq κ] in
theorem livesIn_succ {old : Nat → Cell κ ν} {n : Nat} : livesIn (n + 1) old =
    if (old n).isLive then insert n (livesIn n old) else livesIn n old := by
  rw [livesIn,Finset.range_add_one,Finset.filter_insert]
  rfl

omit [DecidableEq κ] in
/-- A table without tombstones has a vacant slot unless all of its slots are live. -/
theorem exists_vacant {count : Nat} (lives : (livesIn size cells).card = count) (fewer : count < size)
    (clean : ∀ j, (cells j).isDead = false) : ∃ j < size, (cells j).isVacant = true := by
  by_contra none
  have all : livesIn size cells = Finset.range size := by
    refine Finset.filter_eq_self.mpr fun j member => ?_
    have used : (cells j).isVacant ≠ true := fun vacant => none ⟨j,Finset.mem_range.mp member,vacant⟩
    have kept := clean j
    revert used kept
    cases cells j <;> simp [Cell.isVacant,Cell.isDead,Cell.isLive]
  rw [all,Finset.card_range] at lives
  omega

theorem rehash_represents (home : κ → Nat) {oldSize : Nat} {old : Nat → Cell κ ν} (more : oldSize < size)
    (single : ∀ j < oldSize, ∀ j' < oldSize, ∀ k v v', old j = .live k v → old j' = .live k v' → j = j') :
    ∀ {n : Nat}, n ≤ oldSize → ∃ cells, rehash size home old n = some cells ∧ (∀ j, (cells j).isDead = false) ∧
      ∃ g, Represents size home cells (livesIn n old).card g ∧
        ∀ k v, g.lookup k = some v ↔ ∃ j < n, old j = .live k v := by
  intro n
  induction n with
  | zero =>
    intro _
    refine ⟨_,rfl,fun _ => rfl,∅,Represents.vacant,fun k v => ?_⟩
    rw [Finmap.lookup_empty]
    exact ⟨nofun,fun ⟨_,below,_⟩ => absurd below (Nat.not_lt_zero _)⟩
  | succ n ih =>
    intro within
    obtain ⟨cells,done,clean,g,table,holds⟩ := ih (Nat.le_of_succ_le within)
    have extended : ∀ k v, (∃ j < n + 1, old j = .live k v) ↔ old n = .live k v ∨ ∃ j < n, old j = .live k v := by
      intro k v
      constructor
      · rintro ⟨j,below,is⟩
        rcases Nat.lt_succ_iff_lt_or_eq.mp below with less | rfl
        · exact .inr ⟨j,less,is⟩
        · exact .inl is
      · rintro (is | ⟨j,below,is⟩)
        · exact ⟨n,Nat.lt_succ_self n,is⟩
        · exact ⟨j,Nat.lt_succ_of_lt below,is⟩
    rw [rehash,done,Option.bind_some,livesIn_succ]
    cases here : old n with
    | live key value =>
      simp only
      have few : (livesIn n old).card < size := by
        have bound := Finset.card_filter_le (Finset.range n) fun j => (old j).isLive = true
        rw [Finset.card_range] at bound
        have : (livesIn n old).card ≤ n := bound
        omega
      obtain ⟨j₀,inside₀,vacant⟩ := exists_vacant table.lives few clean
      obtain ⟨j,settled,way⟩ := settle_open home key inside₀ vacant
      have fresh : ∀ i < size, (cells i).has key = false := by
        intro i inside
        refine Bool.eq_false_iff.mpr fun is => ?_
        obtain ⟨v,live⟩ := has_iff.mp is
        obtain ⟨i',below,before⟩ := (holds key v).mp ((table.holds key v).mpr ⟨i,inside,live⟩)
        exact absurd (single i' (by omega) n (by omega) key v value before here) (by omega)
      refine ⟨_,by rw [settled,Option.map_some],fun i => ?_,g.insert key value,?_,fun k v => ?_⟩
      · by_cases same : i = j
        · subst same
          rw [Function.update_self]
          rfl
        · rw [Function.update_of_ne same]
          exact clean i
      · have outside : n ∉ livesIn n old := fun member => Nat.lt_irrefl n (mem_livesIn.mp member).1
        rw [if_pos (show (Cell.live key value).isLive = true from rfl),Finset.card_insert_of_notMem outside]
        exact table.insert way fresh
      · rw [extended,here,Cell.live.injEq,← holds]
        by_cases same : k = key
        · subst same
          rw [Finmap.lookup_insert,Option.some.injEq]
          refine ⟨fun is => .inl ⟨rfl,is⟩,?_⟩
          rintro (⟨-,is⟩ | before)
          · exact is
          · obtain ⟨i,below,is⟩ := (holds k v).mp before
            exact absurd (single i (by omega) n (by omega) k v value is here) (by omega)
        · rw [Finmap.lookup_insert_of_ne _ same]
          exact ⟨.inr,fun is => is.resolve_left fun both => same both.1.symm⟩
    | vacant | dead =>
      refine ⟨cells,rfl,clean,g,table,fun k v => ?_⟩
      rw [extended,here,← holds]
      exact ⟨.inr,fun is => is.resolve_left nofun⟩

/-- A bigger table represents the same map after all live cells have settled. -/
theorem Represents.rehash {count bigger : Nat} {f : Finmap fun _ : κ => ν} (table : Represents size home cells count f)
    (more : size < bigger) (home' : κ → Nat) :
    ∃ grown, Probing.rehash bigger home' cells size = some grown ∧ (∀ j, (grown j).isDead = false) ∧
      Represents bigger home' grown count f := by
  obtain ⟨grown,done,clean,g,represents,holds⟩ := rehash_represents home' more table.sound.single (Nat.le_refl _)
  have same : g = f := Finmap.ext_lookup fun k => Option.ext fun v => by rw [holds,table.holds]; rfl
  rw [same,table.lives] at represents
  exact ⟨grown,done,clean,represents⟩

end Oscan.Library.Probing
