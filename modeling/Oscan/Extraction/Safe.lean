import Oscan.Extraction.Protocol

/-! Safety of the extraction over all interleavings: while no check fails on a destination that is right, and no process
puts its file in place between another one's check and its removal, whatever a process has returned stays as it is. -/
namespace Oscan.Extraction
open Library.Interleaving

section Local
variable (cache : Cache)

/-- The path leads to a file of the expected length and hash. -/
def Verified (dest : Entry) : Prop :=
  ∃ c, dest.read = some c ∧ c.length = cache.asset.len ∧ cache.sha256Hex c = cache.asset.sha256

/-- A step that looks whether the destination is right -/
def Phase.Checking : Phase → Prop
  | .isFile | .reuseLength | .reuseHash | .exists _ | .againLength _ | .againHash _ => True
  | _ => False

/-- A process that found the destination wrong and is to remove it -/
def Phase.Removing : Phase → Prop
  | .rejectDestLast _ | .remove _ => True
  | _ => False

/-- A step that puts the temporary file in the place of the destination -/
def Phase.Installing : Phase → Prop
  | .rename | .retry _ => True
  | _ => False

/-- A destination that is right, if it is, holds the asset itself. -/
def Own (dest : Entry) : Prop := Verified cache dest → dest.read = some cache.asset.bytes

def Mine (temp : Option Content) : Prop := ∀ c, temp = some c → c = cache.asset.bytes

def Measured (dest : Entry) : Prop := ∀ c, dest.read = some c → c.length = cache.asset.len

/-- The asset is what its length and its hash say. -/
def Good : Prop := cache.asset.bytes.length = cache.asset.len ∧ cache.sha256Hex cache.asset.bytes = cache.asset.sha256

/-- The temporary file has been checked. -/
def Prepared (v : View) : Prop := Own cache v.dest ∧ Mine cache v.temp ∧ Good cache

/-- What is known when a process stands in a phase -/
def Known (v : View) : Prop :=
  match v.phase with
  | .rejectDest | .isFile | .reuseLength | .dropFailed _ | .failed _ => True
  | .reuseHash => Measured cache v.dest
  | .writeTemp => Own cache v.dest
  | .tempLength => Own cache v.dest ∧ Mine cache v.temp
  | .tempHash => Own cache v.dest ∧ Mine cache v.temp ∧ cache.asset.bytes.length = cache.asset.len
  | .rejectDestAgain | .rename | .exists _ | .againLength _ | .retry _ => Prepared cache v
  | .againHash _ => Prepared cache v ∧ Measured cache v.dest
  | .rejectDestLast _ | .remove _ => Prepared cache v ∧ ¬Verified cache v.dest
  | .dropTemp | .extracted | .returned => Verified cache v.dest

/-- How a step treats the destination -/
inductive Treats (answer : Answer) (v v' : View) : Prop where
  | leaves (same : v'.dest = v.dest)
  | installs (works : answer = .works) (installing : v.phase.Installing)
    (same : v'.dest = .file cache.asset.bytes) (own : Own cache v.dest) (good : Good cache)
  | removes (same : v'.dest = .missing) (wrong : ¬Verified cache v.dest)

variable {cache}

/-- Where there is something to read, the length check compares its length. -/
theorem lengthMatches_read {dest : Entry} {c : Content} (read : dest.read = some c) :
    lengthMatches cache dest .works = (c.length == cache.asset.len) := by
  cases dest with
  | missing | directory => cases read
  | file c' =>
    obtain rfl := Option.some.inj read
    rfl
  | symlink target =>
    change target = some c at read
    rw [read]
    rfl

theorem lengthMatches_measured {dest : Entry} {answer : Answer} (same : lengthMatches cache dest answer = true) :
    Measured cache dest := by
  intro c read
  cases answer with
  | fails error => cases same
  | works =>
    rw [lengthMatches_read read] at same
    exact beq_iff_eq.mp same

theorem hashMatches_verified {dest : Entry} {answer : Answer} (measured : Measured cache dest)
    (same : hashMatches cache dest answer = .ok true) : Verified cache dest := by
  unfold hashMatches at same
  split at same
  · cases same
  split at same
  · cases same
  · next c read => exact ⟨c,read,measured c read,beq_iff_eq.mp (Except.ok.inj same)⟩

theorem Verified.isSome {dest : Entry} (verified : Verified cache dest) : dest.read.isSome = true := by
  obtain ⟨c,read,_⟩ := verified
  rw [read,Option.isSome_some]

theorem Verified.length {dest : Entry} (verified : Verified cache dest) : lengthMatches cache dest .works = true := by
  obtain ⟨c,read,long,_⟩ := verified
  rw [lengthMatches_read read]
  exact beq_iff_eq.mpr long

theorem Verified.hash {dest : Entry} (verified : Verified cache dest) : hashMatches cache dest .works = .ok true := by
  obtain ⟨c,read,_,same⟩ := verified
  simp only [hashMatches,read,same,beq_self_eq_true]

theorem own_of_wrong {dest : Entry} (wrong : ¬Verified cache dest) : Own cache dest :=
  fun verified => absurd verified wrong

theorem verified_file (good : Good cache) : Verified cache (.file cache.asset.bytes) :=
  ⟨cache.asset.bytes,rfl,good.1,good.2⟩

/-- A check that does not fail on a right destination and says no tells that it is wrong. -/
theorem wrong_of_length {dest : Entry} {answer : Answer} (reliable : answer ≠ .works → ¬Verified cache dest)
    (different : ¬lengthMatches cache dest answer = true) : ¬Verified cache dest := by
  intro verified
  by_cases works : answer = .works
  · subst works
    exact different verified.length
  · exact reliable works verified

theorem wrong_of_hash {dest : Entry} {answer : Answer} (reliable : answer ≠ .works → ¬Verified cache dest)
    (different : hashMatches cache dest answer ≠ .ok true) : ¬Verified cache dest := by
  intro verified
  by_cases works : answer = .works
  · subst works
    exact different verified.hash
  · exact reliable works verified

theorem wrong_of_absent {dest : Entry} {answer : Answer} (reliable : answer ≠ .works → ¬Verified cache dest)
    (absent : ¬(answer = .works ∧ dest.read.isSome = true)) : ¬Verified cache dest := by
  intro verified
  by_cases works : answer = .works
  · exact absent ⟨works,verified.isSome⟩
  · exact reliable works verified

/-- The temporary file comes to the destination; it is the asset. -/
theorem renames_sound {v v' : View} (installing : v.phase.Installing) (prepared : Prepared cache v)
    (took : v.renames .extracted = some v') : Known cache v' ∧ Treats cache .works v v' := by
  obtain ⟨own,mine,good⟩ := prepared
  unfold View.renames at took
  split at took
  · cases took
  · cases took
  · next c written _ =>
    obtain rfl := Option.some.inj took
    obtain rfl := mine c written
    exact ⟨verified_file good,.installs rfl installing rfl own good⟩

theorem removed_cases (entry : Entry) (answer : Answer) : entry.removed answer = entry ∨ entry.removed answer = .missing := by
  cases answer with
  | fails error => exact .inl rfl
  | works =>
    cases entry with
    | file c => exact .inr rfl
    | symlink target => exact .inr rfl
    | missing | directory => exact .inl rfl

theorem tempMeasured_sound {temp : String} {v : View} (own : Own cache v.dest) (mine : Mine cache v.temp)
    (answer : Answer) : Known cache (tempMeasured cache temp v answer) ∧
      (tempMeasured cache temp v answer).dest = v.dest := by
  unfold tempMeasured
  split
  · exact ⟨trivial,rfl⟩
  split
  · exact ⟨trivial,rfl⟩
  next c written =>
  split
  · next long =>
    obtain rfl := mine c written
    exact ⟨⟨own,mine,long⟩,rfl⟩
  · exact ⟨trivial,rfl⟩

theorem tempChecked_sound {temp : String} {v : View} (own : Own cache v.dest) (mine : Mine cache v.temp)
    (long : cache.asset.bytes.length = cache.asset.len) (answer : Answer) :
    Known cache (tempChecked cache temp v answer) ∧ (tempChecked cache temp v answer).dest = v.dest := by
  unfold tempChecked
  split
  · exact ⟨trivial,rfl⟩
  split
  · exact ⟨trivial,rfl⟩
  next c written =>
  split
  · next same =>
    obtain rfl := mine c written
    exact ⟨⟨own,mine,long,same⟩,rfl⟩
  · exact ⟨trivial,rfl⟩

theorem getD_ok {result : Except String Bool} : result.toOption.getD false = true ↔ result = .ok true := by
  cases result with
  | error e =>
    constructor
    · intro no
      cases no
    · intro no
      cases no
  | ok same => exact ⟨fun yes => congrArg _ yes,fun yes => Except.ok.inj yes⟩

/-- A step keeps what is known of the process that takes it, as long as no check fails on a right destination. -/
theorem turn_sound {temp : String} {v v' : View} {answer : Answer} (known : Known cache v)
    (reliable : answer ≠ .works → v.phase.Checking → ¬Verified cache v.dest)
    (took : turn cache temp v answer = some v') : Known cache v' ∧ Treats cache answer v v' := by
  obtain ⟨dest,written,phase⟩ := v
  cases phase with
  | rejectDest =>
    obtain rfl := Option.some.inj took
    refine ⟨?_,.leaves rfl⟩
    cases rejects dest answer <;> exact trivial
  | isFile =>
    obtain rfl := Option.some.inj took
    refine ⟨?_,.leaves rfl⟩
    simp only [View.moves]
    split
    · exact trivial
    · next absent => exact own_of_wrong (wrong_of_absent (fun failed => reliable failed trivial) absent)
  | reuseLength =>
    obtain rfl := Option.some.inj took
    refine ⟨?_,.leaves rfl⟩
    simp only [View.moves]
    split
    · next same => exact lengthMatches_measured same
    · next different => exact own_of_wrong (wrong_of_length (fun failed => reliable failed trivial) different)
  | reuseHash =>
    simp only [turn] at took
    split at took
    · obtain rfl := Option.some.inj took
      exact ⟨trivial,.leaves rfl⟩
    · next same answered =>
      obtain rfl := Option.some.inj took
      refine ⟨?_,.leaves rfl⟩
      cases same with
      | true => exact hashMatches_verified known answered
      | false =>
        have different : hashMatches cache dest answer ≠ .ok true := by
          rw [answered]
          exact fun right => by cases right
        exact own_of_wrong (wrong_of_hash (fun failed => reliable failed trivial) different)
  | writeTemp =>
    cases answer with
    | works =>
      obtain rfl := Option.some.inj took
      exact ⟨⟨known,fun c same => (Option.some.inj same).symm⟩,.leaves rfl⟩
    | fails error =>
      obtain rfl := Option.some.inj took
      exact ⟨trivial,.leaves rfl⟩
  | tempLength =>
    obtain rfl := Option.some.inj took
    obtain ⟨after,same⟩ := tempMeasured_sound known.1 known.2 answer
    exact ⟨after,.leaves same⟩
  | tempHash =>
    obtain rfl := Option.some.inj took
    obtain ⟨after,same⟩ := tempChecked_sound known.1 known.2.1 known.2.2 answer
    exact ⟨after,.leaves same⟩
  | rejectDestAgain =>
    obtain rfl := Option.some.inj took
    refine ⟨?_,.leaves rfl⟩
    cases rejects dest answer with
    | true => exact trivial
    | false => exact known
  | rename =>
    cases answer with
    | works => exact renames_sound trivial known took
    | fails error =>
      obtain rfl := Option.some.inj took
      exact ⟨known,.leaves rfl⟩
  | «exists» error =>
    obtain rfl := Option.some.inj took
    refine ⟨?_,.leaves rfl⟩
    simp only [View.moves]
    split
    · exact known
    · next absent =>
      refine ⟨known,wrong_of_absent (fun failed => reliable failed trivial) fun ⟨works,readable⟩ => ?_⟩
      exact absent ⟨works,.inr readable⟩
  | againLength error =>
    obtain rfl := Option.some.inj took
    refine ⟨?_,.leaves rfl⟩
    simp only [View.moves]
    split
    · next same => exact ⟨known,lengthMatches_measured same⟩
    · next different => exact ⟨known,wrong_of_length (fun failed => reliable failed trivial) different⟩
  | againHash error =>
    obtain rfl := Option.some.inj took
    refine ⟨?_,.leaves rfl⟩
    simp only [View.moves]
    split
    · next same => exact hashMatches_verified known.2 (getD_ok.mp same)
    · next different =>
      have wrong : hashMatches cache dest answer ≠ .ok true := fun right => different (getD_ok.mpr right)
      exact ⟨known.1,wrong_of_hash (fun failed => reliable failed trivial) wrong⟩
  | dropTemp =>
    obtain rfl := Option.some.inj took
    exact ⟨known,.leaves rfl⟩
  | rejectDestLast error =>
    obtain rfl := Option.some.inj took
    refine ⟨?_,.leaves rfl⟩
    cases rejects dest answer with
    | true => exact trivial
    | false => exact known
  | remove error =>
    obtain rfl := Option.some.inj took
    obtain ⟨⟨own,mine,good⟩,wrong⟩ := known
    rcases removed_cases dest answer with same | gone
    · exact ⟨⟨by rw [same]; exact own,mine,good⟩,.leaves same⟩
    · refine ⟨⟨?_,mine,good⟩,.removes gone wrong⟩
      rw [gone]
      exact own_of_wrong fun ⟨_,read,_⟩ => by cases read
  | retry error =>
    cases answer with
    | works => exact renames_sound trivial known took
    | fails error =>
      obtain rfl := Option.some.inj took
      exact ⟨trivial,.leaves rfl⟩
  | dropFailed message =>
    obtain rfl := Option.some.inj took
    exact ⟨trivial,.leaves rfl⟩
  | extracted =>
    cases answer with
    | works =>
      obtain rfl := Option.some.inj took
      exact ⟨known,.leaves rfl⟩
    | fails error =>
      obtain rfl := Option.some.inj took
      exact ⟨trivial,.leaves rfl⟩
  | returned => cases took
  | failed message => cases took

end Local

section Interleavings
variable {Process : Type} [DecidableEq Process] (cache : Cache) (temp : Process → String)

/-- The steps that are considered: a check does not fail on a right destination, and a process that puts its file in
place does so while no other one is between its failed check and its removal. -/
def Admitted (s : State Process) : Action Process → Prop
  | .act p answer =>
    (answer ≠ .works → (s.phase p).Checking → ¬Verified cache s.dest) ∧
    (answer = .works → (s.phase p).Installing → ∀ q, q ≠ p → ¬(s.phase q).Removing)
  | .cleanup _ => True

def Sound (s : State Process) : Prop := ∀ p, Known cache (s.view p)

variable {cache} {temp}

theorem Known.replaced {v : View} (known : Known cache v) (good : Good cache) (kept : ¬v.phase.Removing) :
    Known cache { v with dest := .file cache.asset.bytes } := by
  have own : Own cache (.file cache.asset.bytes) := fun _ => rfl
  have measured : Measured cache (.file cache.asset.bytes) := fun c read => Option.some.inj read ▸ good.1
  obtain ⟨dest,written,phase⟩ := v
  cases phase with
  | rejectDest | isFile | reuseLength | dropFailed _ | failed _ => exact trivial
  | reuseHash => exact measured
  | writeTemp => exact own
  | tempLength => exact ⟨own,known.2⟩
  | tempHash => exact ⟨own,known.2⟩
  | rejectDestAgain | rename | «exists» _ | againLength _ | retry _ => exact ⟨own,known.2⟩
  | againHash _ => exact ⟨⟨own,known.1.2⟩,measured⟩
  | rejectDestLast _ | remove _ => exact absurd trivial kept
  | dropTemp | extracted | returned => exact verified_file good

theorem Known.gone {v : View} (known : Known cache v) (wrong : ¬Verified cache v.dest) :
    Known cache { v with dest := .missing } := by
  have still : ¬Verified cache .missing := fun ⟨_,read,_⟩ => by cases read
  have own : Own cache .missing := own_of_wrong still
  have measured : Measured cache .missing := fun c read => by cases read
  obtain ⟨dest,written,phase⟩ := v
  cases phase with
  | rejectDest | isFile | reuseLength | dropFailed _ | failed _ => exact trivial
  | reuseHash => exact measured
  | writeTemp => exact own
  | tempLength => exact ⟨own,known.2⟩
  | tempHash => exact ⟨own,known.2⟩
  | rejectDestAgain | rename | «exists» _ | againLength _ | retry _ => exact ⟨own,known.2⟩
  | againHash _ => exact ⟨⟨own,known.1.2⟩,measured⟩
  | rejectDestLast _ | remove _ => exact ⟨⟨own,known.1.2⟩,still⟩
  | dropTemp | extracted | returned => exact absurd known wrong

/-- The temporary file of a process can go at any time. -/
theorem Known.cleaned {v : View} (known : Known cache v) : Known cache { v with temp := none } := by
  have mine : Mine cache none := fun c same => by cases same
  obtain ⟨dest,written,phase⟩ := v
  cases phase with
  | rejectDest | isFile | reuseLength | dropFailed _ | failed _ => exact trivial
  | reuseHash | writeTemp | dropTemp | extracted | returned => exact known
  | tempLength => exact ⟨known.1,mine⟩
  | tempHash => exact ⟨known.1,mine,known.2.2⟩
  | rejectDestAgain | rename | «exists» _ | againLength _ | retry _ => exact ⟨known.1,mine,known.2.2⟩
  | againHash _ | rejectDestLast _ | remove _ => exact ⟨⟨known.1.1,mine,known.1.2.2⟩,known.2⟩

@[simp] theorem view_update_same (s : State Process) (p : Process) (v : View) : (s.update p v).view p = v := by
  simp only [State.view,State.update,Function.update_self]

theorem view_update_other (s : State Process) {p q : Process} (apart : q ≠ p) (v : View) :
    (s.update p v).view q = { s.view q with dest := v.dest } := by
  simp only [State.view,State.update,Function.update_of_ne apart]

theorem Sound.step {s s' : State Process} {a : Action Process} (sound : Sound cache s) (met : Admitted cache s a)
    (took : Extraction.step cache temp s a = some s') : Sound cache s' := by
  cases a with
  | cleanup p =>
    obtain rfl := Option.some.inj took
    intro q
    by_cases same : q = p
    · subst same
      have gone : (State.view { s with temp := Function.update s.temp q none } q) =
          { s.view q with temp := none } := by
        simp only [State.view,Function.update_self]
      rw [gone]
      exact (sound q).cleaned
    · have kept : (State.view { s with temp := Function.update s.temp p none } q) = s.view q := by
        simp only [State.view,Function.update_of_ne same]
      rw [kept]
      exact sound q
  | act p answer =>
    obtain ⟨v',turned,rfl⟩ := Option.map_eq_some_iff.mp took
    obtain ⟨known,treats⟩ := turn_sound (sound p) met.1 turned
    intro q
    by_cases same : q = p
    · rw [same,view_update_same]
      exact known
    rw [view_update_other s same]
    cases treats with
    | leaves kept =>
      rw [kept]
      exact sound q
    | installs works installing placed own good =>
      rw [placed]
      exact (sound q).replaced good (met.2 works installing q same)
    | removes gone wrong =>
      rw [gone]
      exact (sound q).gone wrong

omit [DecidableEq Process] in
theorem Sound.initial {s : State Process} (initial : s.Initial) : Sound cache s := by
  intro p
  have start : (s.view p).phase = .rejectDest := initial p
  rw [Known,start]
  exact trivial

/-- While a process has returned, a step leaves what is read at the destination as it is. -/
theorem Sound.keeps {s s' : State Process} {a : Action Process} (sound : Sound cache s) (met : Admitted cache s a)
    (took : Extraction.step cache temp s a = some s') {r : Process} (done : s.phase r = .returned) :
    s'.dest.read = s.dest.read := by
  have right : Verified cache s.dest := by
    have known := sound r
    rw [Known,State.view,done] at known
    exact known
  cases a with
  | cleanup p =>
    obtain rfl := Option.some.inj took
    rfl
  | act p answer =>
    obtain ⟨v',turned,rfl⟩ := Option.map_eq_some_iff.mp took
    obtain ⟨_,treats⟩ := turn_sound (sound p) met.1 turned
    cases treats with
    | leaves kept => exact congrArg Entry.read kept
    | installs works installing placed own good =>
      change v'.dest.read = s.dest.read
      rw [placed]
      exact (own right).symm
    | removes gone wrong => exact absurd right wrong

/-- In a run whose steps are all considered, a process that has returned has left a file with the expected hash at the
destination, and no later step changes what is read there. -/
theorem extraction_safe (cache : Cache) (temp : Process → String) (first s : State Process) (initial : first.Initial)
    (reached : Reaches (Extraction.step cache temp) (Admitted cache) first s) :
    (∀ p, s.phase p = .returned →
      ∃ c, s.dest.read = some c ∧ c.length = cache.asset.len ∧ cache.sha256Hex c = cache.asset.sha256) ∧
    (∀ a s', Admitted cache s a → Extraction.step cache temp s a = some s' → (∃ p, s.phase p = .returned) →
      s'.dest.read = s.dest.read) := by
  have sound : Sound cache s :=
    reached.invariant (Sound.initial initial) fun s a s' sound met took => sound.step met took
  constructor
  · intro p done
    have known := sound p
    rw [Known,State.view,done] at known
    exact known
  · intro a s' met took ⟨p,done⟩
    exact sound.keeps met took done

end Interleavings

section Runs

/-- The hash of the byte 1 and of nothing -/
def knownHash (c : Content) : String :=
  if c = [1] then "4bf5122f344554c53bde2ebb8cd2b7e3d1600ad631c385a5d7cce23c7785459a"
  else if c = [] then "e3b0c44298fc1c149afbf4c8996fb92427ae41e4649b934ca495991b7852b855"
  else ""

def oneByte : Cache := ⟨knownHash,⟨"ld.lld.exe",[1],1,knownHash [1]⟩,"set/ld.lld.exe",4096⟩

def tempOf (p : Bool) : String := if p then "set/.ld.lld.exe.2.tmp" else "set/.ld.lld.exe.1.tmp"

def starting (dest : Entry) : State Bool := ⟨dest,fun _ => none,fun _ => .rejectDest⟩

theorem starting_initial (dest : Entry) : (starting dest).Initial := fun _ => rfl

/-- A process finds the asset in place and returns. -/
theorem extraction_safe_reuse : ∃ s : State Bool, s.phase false = .returned ∧ ∃ c, s.dest.read = some c ∧
    c.length = oneByte.asset.len ∧ oneByte.sha256Hex c = oneByte.asset.sha256 := by
  have reached : Reaches (Extraction.step oneByte tempOf) (Admitted oneByte) (starting (.file [1]))
      (starting (.file [1])) := Reaches.start
  have calm (s : State Bool) (phase : Phase) (stands : s.phase false = phase) (settled : ¬phase.Installing) :
      Admitted oneByte s (.act false .works) :=
    ⟨fun failed => absurd rfl failed,fun _ installing => absurd (stands ▸ installing) settled⟩
  have first := reached.next (calm _ .rejectDest rfl id) rfl
  have second := first.next (calm _ .isFile rfl id) rfl
  have third := second.next (calm _ .reuseLength rfl id) rfl
  have fourth := third.next (calm _ .reuseHash rfl id) rfl
  have last := fourth.next (calm _ .extracted rfl id) rfl
  exact ⟨_,rfl,(extraction_safe oneByte tempOf _ _ (starting_initial (.file [1])) last).1 false rfl⟩

def act (p : Bool) (answers : List Answer) : List (Action Bool) := answers.map (.act p)

/-- Two processes find an empty file. The first one is held up until its temporary file is taken for stale, so that its
rename fails, and finds the destination wrong; the second one puts the asset in place and returns; then the first one
removes it. -/
def heldUp : List (Action Bool) :=
  act false [.works,.works,.works,.works,.works,.works,.works] ++ [.cleanup false] ++
    act true [.works,.works,.works,.works,.works,.works,.works] ++
    act false [.fails "No such file or directory (os error 2)",.works,.works,.works] ++ act true [.works,.works] ++
    act false [.works]

theorem extraction_unsafe : ∃ s, runAll (step oneByte tempOf) (starting (.file [])) heldUp = some s ∧
    s.phase true = .returned ∧ s.dest = .missing := ⟨_,rfl,rfl,rfl⟩

end Runs

end Oscan.Extraction
