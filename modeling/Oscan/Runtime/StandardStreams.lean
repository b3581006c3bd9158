import Oscan.Library.Interleaving

/-! The standard descriptors on Windows without the C library: printing and reading lines go through a cache of three
handles of their own, and every other operation through the table of descriptors. -/
namespace Oscan.Runtime.StandardStreams
open Library.Interleaving

abbrev Handle := Nat

/-- The handles of the process, what the table answers for a closed descriptor, and what it begins with -/
structure Setup where
  std : Int → Handle
  invalid : Handle
  table : Int → Option Handle

/-- The table, the two arrays of the cache, and which descriptors an operation of the table has touched -/
structure Streams where
  table : Int → Option Handle
  handle : Int → Handle
  ready : Int → Bool
  touched : Int → Bool

variable (setup : Setup)

def first : Streams := ⟨setup.table,fun _ => 0,fun _ => false,fun _ => false⟩

/-- `l_win_fd_handle` -/
def winFdHandle (s : Streams) (fd : Int) : Handle := (s.table fd).getD setup.invalid

/-- `osc_std_fd_get`, with the cache it leaves -/
def stdFdGet (s : Streams) (fd : Int) : Handle × Streams :=
  if s.ready fd then (s.handle fd,s)
  else
    let handle := Function.update s.handle fd (setup.std fd)
    (handle fd,{ s with handle := handle,ready := Function.update s.ready fd true })

/-- `osc_std_fd_resync` -/
def stdFdResync (s : Streams) (fd : Int) : Streams :=
  if 0 ≤ fd ∧ fd ≤ 2 then
    { s with
      handle := Function.update s.handle fd (winFdHandle setup s fd)
      ready := Function.update s.ready fd true }
  else s

/-- An operation of the table sets a slot. -/
def setSlot (s : Streams) (fd : Int) (slot : Option Handle) : Streams :=
  { s with table := Function.update s.table fd slot,touched := Function.update s.touched fd true }

/-- A slot that the table chose and the handle that it put there -/
structure Opened where
  fd : Int
  handle : Handle

/-- The operations with what the table and the system answer; nothing stands for a failure. -/
inductive Operation where
  | fileOpen (opened : Option Opened)
  | transferFile (opened : Option Opened)
  | fdDup (opened : Option Opened)
  | fdDup2 (newfd : Int) (handle : Option Handle)
  | pipeCreate (opened : Option (Opened × Opened))
  | fileClose (fd : Int) (closed : Bool)
  | print
  | readLine
  | writeStr (fd : Int)

/-- `file_open_read`, `file_open_write`, `file_open_append` and `fd_dup`: the table takes a slot that is free. -/
def openSlot (s : Streams) : Option Opened → Option Streams
  | none => some s
  | some opened => if s.table opened.fd = none then some (setSlot s opened.fd (some opened.handle)) else none

/-- `read_file` and `write_file` close the file again, in the table alone. -/
def transferFile (s : Streams) : Option Opened → Option Streams
  | none => some s
  | some opened => (openSlot s (some opened)).map fun s => setSlot s opened.fd none

/-- `fd_dup2` replaces the slot and refreshes the cache, if it succeeds. -/
def fdDup2 (s : Streams) (newfd : Int) : Option Handle → Streams
  | none => s
  | some handle => stdFdResync setup (setSlot s newfd (some handle)) newfd

def pipeCreate (s : Streams) : Option (Opened × Opened) → Option Streams
  | none => some s
  | some (read,write) => (openSlot s (some read)).bind fun s => openSlot s (some write)

/-- `file_close` refreshes the cache whether the table closes the descriptor or not. -/
def fileClose (s : Streams) (fd : Int) (closed : Bool) : Streams :=
  stdFdResync setup (if closed then setSlot s fd none else { s with touched := Function.update s.touched fd true }) fd

/-- One operation, when the table can answer as it is said to -/
def step (s : Streams) : Operation → Option Streams
  | .fileOpen opened | .fdDup opened => openSlot s opened
  | .transferFile opened => transferFile s opened
  | .fdDup2 newfd handle => some (fdDup2 setup s newfd handle)
  | .pipeCreate opened => pipeCreate s opened
  | .fileClose fd closed => some (fileClose setup s fd closed)
  | .print => some (stdFdGet setup s 1).2
  | .readLine => some (stdFdGet setup s 0).2
  | .writeStr _ => some s

/-- A cached handle of a descriptor that was touched is the table's, and a print goes where a write to descriptor 1
does, once that was touched or if it began as the standard output. -/
structure Coherent (s : Streams) : Prop where
  cached : ∀ fd, 0 ≤ fd → fd ≤ 2 → s.touched fd = true → s.ready fd = true → s.handle fd = winFdHandle setup s fd
  printed : s.touched 1 = true ∨ setup.table 1 = some (setup.std 1) → (stdFdGet setup s 1).1 = winFdHandle setup s 1

/-- A slot that is taken is none of the three, unless it is given the handle that the cache has or will have. -/
def Apart (s : Streams) (fd : Int) (handle : Handle) : Prop :=
  0 ≤ fd → fd ≤ 2 → handle = (stdFdGet setup s fd).1

/-- No slot of a standard descriptor is taken by an operation that does not refresh the cache. -/
def TakesOthers (s : Streams) : Operation → Prop
  | .fileOpen (some opened) | .fdDup (some opened) => Apart setup s opened.fd opened.handle
  | .transferFile (some opened) => Apart setup s opened.fd setup.invalid
  | .pipeCreate (some (read,write)) => Apart setup s read.fd read.handle ∧ Apart setup s write.fd write.handle
  | _ => True

/-- A descriptor that was touched has the table's handle in the cache, or would get it; one that was not has its
slot of the beginning and the handle of the process. -/
structure SyncedAt (s : Streams) (fd : Int) : Prop where
  touched : s.touched fd = true → (stdFdGet setup s fd).1 = winFdHandle setup s fd
  untouched : s.touched fd = false → s.table fd = setup.table fd ∧ (stdFdGet setup s fd).1 = setup.std fd

/-- What every operation keeps -/
def Synced (s : Streams) : Prop := ∀ fd, 0 ≤ fd → fd ≤ 2 → SyncedAt setup s fd

theorem stdFdGet_ready {s : Streams} {fd : Int} (ready : s.ready fd = true) : (stdFdGet setup s fd).1 = s.handle fd := by
  rw [stdFdGet,if_pos ready]

theorem stdFdGet_unready {s : Streams} {fd : Int} (unready : s.ready fd = false) :
    (stdFdGet setup s fd).1 = setup.std fd := by
  rw [stdFdGet,if_neg (by rw [unready]; decide)]
  exact Function.update_self _ _ _

theorem synced_first : Synced setup (first setup) :=
  fun _ _ _ => ⟨(fun h => nomatch h),fun _ => ⟨rfl,stdFdGet_unready setup rfl⟩⟩

theorem Synced.coherent {s : Streams} (synced : Synced setup s) : Coherent setup s := by
  refine ⟨?_,?_⟩
  · intro fd low high touched ready
    rw [← stdFdGet_ready setup ready]
    exact (synced fd low high).touched touched
  · intro known
    cases touched : s.touched 1 with
    | true => exact (synced 1 (by decide) (by decide)).touched touched
    | false =>
      obtain ⟨slot,shown⟩ := (synced 1 (by decide) (by decide)).untouched touched
      have began : setup.table 1 = some (setup.std 1) := known.resolve_left (by rw [touched]; decide)
      rw [shown,winFdHandle,slot,began]
      rfl

/-- What is cached of a descriptor does not depend on the table. -/
theorem stdFdGet_congr {s s' : Streams} {fd : Int} (handle : s'.handle fd = s.handle fd) (ready : s'.ready fd = s.ready fd) :
    (stdFdGet setup s' fd).1 = (stdFdGet setup s fd).1 := by
  cases known : s.ready fd with
  | true => rw [stdFdGet_ready setup known,stdFdGet_ready setup (ready.trans known),handle]
  | false => rw [stdFdGet_unready setup known,stdFdGet_unready setup (ready.trans known)]

/-- Where a descriptor keeps its slot, its cache and its mark, it stays as it is. -/
theorem SyncedAt.congr {s s' : Streams} {fd : Int} (synced : SyncedAt setup s fd) (table : s'.table fd = s.table fd)
    (handle : s'.handle fd = s.handle fd) (ready : s'.ready fd = s.ready fd) (touched : s'.touched fd = s.touched fd) :
    SyncedAt setup s' fd := by
  have same := stdFdGet_congr setup handle ready
  refine ⟨?_,?_⟩
  · intro mark
    rw [same,winFdHandle,table]
    exact synced.touched (touched.symm.trans mark)
  · intro mark
    rw [same,table]
    exact synced.untouched (touched.symm.trans mark)

theorem setSlot_table (s : Streams) (fd : Int) (slot : Option Handle) : (setSlot s fd slot).table fd = slot :=
  Function.update_self _ _ _

theorem setSlot_touched (s : Streams) (fd : Int) (slot : Option Handle) : (setSlot s fd slot).touched fd = true :=
  Function.update_self _ _ _

theorem setSlot_get (s : Streams) (fd other : Int) (slot : Option Handle) :
    (stdFdGet setup (setSlot s fd slot) other).1 = (stdFdGet setup s other).1 := stdFdGet_congr setup rfl rfl

theorem setSlot_other (s : Streams) {fd other : Int} (slot : Option Handle) (differ : other ≠ fd)
    (synced : SyncedAt setup s other) : SyncedAt setup (setSlot s fd slot) other :=
  synced.congr setup (Function.update_of_ne differ _ _) rfl rfl (Function.update_of_ne differ _ _)

theorem setSlot_synced {s : Streams} (synced : Synced setup s) {fd : Int} {slot : Option Handle}
    (apart : Apart setup s fd (slot.getD setup.invalid)) : Synced setup (setSlot s fd slot) := by
  intro other low high
  by_cases same : other = fd
  · rw [same] at low high ⊢
    refine ⟨fun _ => ?_,fun unmarked => ?_⟩
    · rw [setSlot_get,← apart low high,winFdHandle,setSlot_table]
    · rw [setSlot_touched] at unmarked
      cases unmarked
  · exact setSlot_other setup s slot same (synced other low high)

/-- A descriptor that is refreshed has the table's handle in the cache, whatever was there. -/
theorem resync_synced {s : Streams} {fd : Int} (others : ∀ other, 0 ≤ other → other ≤ 2 → other ≠ fd → SyncedAt setup s other)
    (mark : s.touched fd = true) : Synced setup (stdFdResync setup s fd) := by
  intro other low high
  by_cases same : other = fd
  · rw [same] at low high ⊢
    have run : stdFdResync setup s fd = { s with
        handle := Function.update s.handle fd (winFdHandle setup s fd)
        ready := Function.update s.ready fd true } := if_pos ⟨low,high⟩
    have ready : (stdFdResync setup s fd).ready fd = true := by
      rw [run]
      exact Function.update_self _ _ _
    have stored : (stdFdResync setup s fd).handle fd = winFdHandle setup s fd := by
      rw [run]
      exact Function.update_self _ _ _
    refine ⟨fun _ => ?_,fun unmarked => ?_⟩
    · rw [stdFdGet_ready setup ready,stored,run]
      rfl
    · rw [run] at unmarked
      cases mark.symm.trans unmarked
  · have before := others other low high same
    unfold stdFdResync
    split
    · exact before.congr setup rfl (Function.update_of_ne same _ _) (Function.update_of_ne same _ _) rfl
    · exact before

/-- Filling the cache changes no handle that it answers. -/
theorem stdFdGet_fill (s : Streams) (fd other : Int) :
    (stdFdGet setup (stdFdGet setup s fd).2 other).1 = (stdFdGet setup s other).1 := by
  cases known : s.ready fd with
  | true =>
    have same : (stdFdGet setup s fd).2 = s := by rw [stdFdGet,if_pos known]
    rw [same]
  | false =>
    have run : (stdFdGet setup s fd).2 = { s with
        handle := Function.update s.handle fd (setup.std fd)
        ready := Function.update s.ready fd true } := by
      rw [stdFdGet,if_neg (by rw [known]; decide)]
    by_cases this : other = fd
    · have ready : (stdFdGet setup s fd).2.ready fd = true := by
        rw [run]
        exact Function.update_self _ _ _
      have stored : (stdFdGet setup s fd).2.handle fd = setup.std fd := by
        rw [run]
        exact Function.update_self _ _ _
      rw [this,stdFdGet_ready setup ready,stored,stdFdGet_unready setup known]
    · rw [run]
      exact stdFdGet_congr setup (Function.update_of_ne this _ _) (Function.update_of_ne this _ _)

theorem stdFdGet_synced {s : Streams} (synced : Synced setup s) (fd : Int) : Synced setup (stdFdGet setup s fd).2 := by
  intro other low high
  have before := synced other low high
  have same := stdFdGet_fill setup s fd other
  have table : (stdFdGet setup s fd).2.table = s.table := by
    unfold stdFdGet
    split <;> rfl
  have touched : (stdFdGet setup s fd).2.touched = s.touched := by
    unfold stdFdGet
    split <;> rfl
  refine ⟨fun mark => ?_,fun mark => ?_⟩
  · rw [touched] at mark
    rw [same,winFdHandle,table]
    exact before.touched mark
  · rw [touched] at mark
    rw [same,table]
    exact before.untouched mark

theorem openSlot_eq {s s' : Streams} {opened : Opened} (took : openSlot s (some opened) = some s') :
    s' = setSlot s opened.fd (some opened.handle) := by
  change (if s.table opened.fd = none then some (setSlot s opened.fd (some opened.handle)) else none) = some s' at took
  split at took
  · exact (Option.some.inj took).symm
  · cases took

theorem openSlot_synced {s s' : Streams} (synced : Synced setup s) {opened : Opened}
    (apart : Apart setup s opened.fd opened.handle) (took : openSlot s (some opened) = some s') : Synced setup s' := by
  rw [openSlot_eq took]
  exact setSlot_synced setup synced apart

/-- The second slot is set in the place that the first has left alone. -/
theorem pipe_apart {s s' : Streams} {read write : Opened} (apart : Apart setup s write.fd write.handle)
    (took : openSlot s (some read) = some s') : Apart setup s' write.fd write.handle := by
  rw [openSlot_eq took]
  intro low high
  rw [apart low high,setSlot_get]

theorem refresh_synced {s s' : Streams} (synced : Synced setup s) {fd : Int}
    (kept : ∀ other, other ≠ fd → SyncedAt setup s other → SyncedAt setup s' other) (mark : s'.touched fd = true) :
    Synced setup (stdFdResync setup s' fd) :=
  resync_synced setup (fun other low high differ => kept other differ (synced other low high)) mark

/-- One operation keeps the cache in step with the table, if it takes no slot of a standard descriptor behind the
cache's back. -/
theorem step_synced (s : Streams) (operation : Operation) (s' : Streams) (synced : Synced setup s)
    (met : TakesOthers setup s operation) (took : step setup s operation = some s') : Synced setup s' := by
  cases operation with
  | fileOpen opened | fdDup opened =>
    cases opened with
    | none =>
      cases took
      exact synced
    | some opened => exact openSlot_synced setup synced met took
  | transferFile opened =>
    cases opened with
    | none =>
      cases took
      exact synced
    | some opened =>
      obtain ⟨between,open_,rfl⟩ := Option.map_eq_some_iff.mp took
      have once : setSlot between opened.fd none = setSlot s opened.fd none := by
        rw [openSlot_eq open_]
        unfold setSlot
        rw [Function.update_idem,Function.update_idem]
      rw [once]
      exact setSlot_synced setup synced met
  | fdDup2 newfd handle =>
    cases took
    cases handle with
    | none => exact synced
    | some handle =>
      apply refresh_synced setup synced
      · intro other differ before
        exact setSlot_other setup s _ differ before
      · exact setSlot_touched _ _ _
  | pipeCreate opened =>
    cases opened with
    | none =>
      cases took
      exact synced
    | some both =>
      obtain ⟨between,open_,more⟩ := Option.bind_eq_some_iff.mp took
      have reading := openSlot_synced setup synced met.1 open_
      exact openSlot_synced setup reading (pipe_apart setup met.2 open_) more
  | fileClose fd closed =>
    cases took
    apply refresh_synced setup synced
    · intro other differ before
      cases closed with
      | true => exact setSlot_other setup s none differ before
      | false => exact before.congr setup rfl rfl rfl (Function.update_of_ne differ _ _)
    · cases closed with
      | true => exact setSlot_touched _ _ _
      | false => exact Function.update_self _ _ _
  | print | readLine =>
    cases took
    exact stdFdGet_synced setup synced _
  | writeStr fd =>
    cases took
    exact synced

/-- In every run in which no operation takes the slot of a standard descriptor without refreshing the cache, the
cache agrees with the table. -/
theorem streams_coherent {s : Streams} (reached : Reaches (step setup) (TakesOthers setup) (first setup) s) :
    Coherent setup s := by
  apply Synced.coherent
  apply Reaches.invariant _ _ reached
  · exact synced_first setup
  · exact step_synced setup

/-- Three streams of a process, numbered from ten -/
def console : Setup := ⟨fun fd => 10 + fd.toNat,0,fun fd => if 0 ≤ fd ∧ fd ≤ 2 then some (10 + fd.toNat) else none⟩

/-- Standard output goes to a file through `fd_dup2`, and a line is printed. -/
theorem streams_coherent_redirected : Coherent console
    (stdFdGet console (fdDup2 console (setSlot (first console) 3 (some 20)) 1 (some 21)) 1).2 := by
  apply streams_coherent
  apply Reaches.next (a := .print) _ trivial rfl
  apply Reaches.next (a := .fdDup2 1 (some 21)) _ trivial rfl
  apply Reaches.next (a := .fileOpen (some ⟨3,20⟩)) Reaches.start _ rfl
  intro _ high
  exact absurd high (by decide)

/-- A file that is opened after standard output was closed takes its slot, and a print goes to the closed handle. -/
theorem streams_incoherent :
    ¬∀ s, Reaches (step console) (fun _ _ => True) (first console) s → Coherent console s := by
  intro coherent
  have closed : Reaches (step console) (fun _ _ => True) (first console) (fileClose console (first console) 1 true) :=
    Reaches.next (a := .fileClose 1 true) Reaches.start trivial rfl
  have reopened : Reaches (step console) (fun _ _ => True) (first console)
      (setSlot (fileClose console (first console) 1 true) 1 (some 20)) :=
    Reaches.next (a := .fileOpen (some ⟨1,20⟩)) closed trivial rfl
  exact absurd ((coherent _ reopened).cached 1 (by decide) (by decide) rfl rfl) (by decide)

end Oscan.Runtime.StandardStreams
