import Oscan.Library.Interleaving

/-! The extraction of an embedded asset into the cache directory, as the steps of any number of compiler processes:
each call of the file system is one step, and each of them may fail. -/
namespace Oscan.Extraction

abbrev Content := List UInt8

structure EmbeddedAsset where
  name : String
  bytes : Content
  len : Nat
  sha256 : String

/-- What stands at the destination; a link leads to a file or to nothing. -/
inductive Entry where
  | missing
  | file (c : Content)
  | directory
  | symlink (target : Option Content)
deriving DecidableEq

/-- The contents that are read through a path -/
def Entry.read : Entry → Option Content
  | .file c => some c
  | .symlink target => target
  | .missing | .directory => none

inductive Phase where
  | rejectDest
  | isFile
  | reuseLength
  | reuseHash
  | writeTemp
  | tempLength
  | tempHash
  | rejectDestAgain
  | rename
  | exists (renameError : String)
  | againLength (renameError : String)
  | againHash (renameError : String)
  | dropTemp
  | rejectDestLast (renameError : String)
  | remove (renameError : String)
  | retry (renameError : String)
  | dropFailed (message : String)
  /-- The asset is in place; other assets and the marker remain. -/
  | extracted
  | returned
  | failed (message : String)
deriving DecidableEq

/-- How a call of the file system ends -/
inductive Answer where
  | works
  | fails (error : String)
deriving DecidableEq

/-- The machine: how files are hashed, where the destination is and how long a directory is said to be -/
structure Cache where
  sha256Hex : Content → String
  asset : EmbeddedAsset
  dest : String
  directoryLen : Nat

def symlinkRefused (path : String) : String :=
  s!"refusing to use native-asset cache path '{path}': it is a symlink/reparse point (junction on " ++
    "Windows), which this cache never follows or reuses (this is a defense-in-depth boundary " ++
    "against a same-user attacker pre-planting a redirect under the cache directory)"

/-- `reject_symlink`: what cannot be examined passes. -/
def rejects (entry : Entry) : Answer → Bool
  | .fails _ => false
  | .works =>
    match entry with
    | .symlink _ => true
    | _ => false

section
variable (cache : Cache)

/-- The length check of `verify_existing` -/
def lengthMatches (entry : Entry) : Answer → Bool
  | .fails _ => false
  | .works =>
    match entry with
    | .missing | .symlink none => false
    | .file c | .symlink (some c) => c.length == cache.asset.len
    | .directory => cache.directoryLen == cache.asset.len

def checksumError (path error : String) : String := s!"error reading '{path}' to verify its checksum: {error}"

/-- The hash check of `verify_existing`, which cannot be made where there is nothing to read -/
def hashMatches (entry : Entry) : Answer → Except String Bool
  | .fails error => .error (checksumError cache.dest error)
  | .works =>
    match entry.read with
    | none => .error (checksumError cache.dest "not found")
    | some c => .ok (cache.sha256Hex c == cache.asset.sha256)

def installError (error renameError : String) : String :=
  s!"error installing extracted asset '{cache.asset.name}' to '{cache.dest}': {error} (original rename error: " ++
    s!"{renameError})"

/-- What a process deals with: the destination, which all share, its own temporary file and where it stands -/
structure View where
  dest : Entry
  temp : Option Content
  phase : Phase

def View.moves (v : View) (phase : Phase) : View := { v with phase }

/-- The temporary file in the place of the destination; a directory is not replaced. -/
def View.renames (v : View) (phase : Phase) : Option View :=
  match v.temp,v.dest with
  | none,_ | _,.directory => none
  | some c,_ => some ⟨.file c,none,phase⟩

/-- `remove_file` of the destination, the result of which is not looked at -/
def Entry.removed (entry : Entry) : Answer → Entry
  | .fails _ => entry
  | .works =>
    match entry with
    | .file _ | .symlink _ => .missing
    | .missing | .directory => entry

variable (temp : String)

def tempMeasured (v : View) : Answer → View
  | .fails error => v.moves (.failed s!"error reading temp file metadata '{temp}': {error}")
  | .works =>
    match v.temp with
    | none => v.moves (.failed s!"error reading temp file metadata '{temp}': not found")
    | some c =>
      if c.length = cache.asset.len then v.moves .tempHash
      else ⟨v.dest,none,.failed (s!"internal error: embedded asset '{cache.asset.name}' wrote " ++
        s!"{c.length} bytes, expected {cache.asset.len}")⟩

def tempChecked (v : View) : Answer → View
  | .fails error => v.moves (.failed (checksumError temp error))
  | .works =>
    match v.temp with
    | none => v.moves (.failed (checksumError temp "not found"))
    | some c =>
      if cache.sha256Hex c = cache.asset.sha256 then v.moves .rejectDestAgain
      else ⟨v.dest,none,.failed (s!"internal error: embedded asset '{cache.asset.name}' sha256 mismatch " ++
        s!"after writing temp file (expected {cache.asset.sha256}, got {cache.sha256Hex c})")⟩

/-- A step of `extract_one`, and of what its caller does afterwards. The checks of the temporary file's path for links
are left out, since nobody else makes an entry there. -/
def turn (v : View) (answer : Answer) : Option View :=
  match v.phase with
  | .rejectDest =>
    some (v.moves (if rejects v.dest answer then .failed (symlinkRefused cache.dest) else .isFile))
  | .isFile => some (v.moves (if answer = .works ∧ v.dest.read.isSome then .reuseLength else .writeTemp))
  | .reuseLength => some (v.moves (if lengthMatches cache v.dest answer then .reuseHash else .writeTemp))
  | .reuseHash =>
    match hashMatches cache v.dest answer with
    | .error error => some (v.moves (.failed error))
    | .ok same => some (v.moves (if same then .extracted else .writeTemp))
  | .writeTemp =>
    match answer with
    | .works => some ⟨v.dest,some cache.asset.bytes,.tempLength⟩
    | .fails error => some (v.moves (.failed s!"error writing temp file '{temp}': {error}"))
  | .tempLength => some (tempMeasured cache temp v answer)
  | .tempHash => some (tempChecked cache temp v answer)
  | .rejectDestAgain =>
    some (v.moves (if rejects v.dest answer then .failed (symlinkRefused cache.dest) else .rename))
  | .rename =>
    match answer with
    | .works => v.renames .extracted
    | .fails error => some (v.moves (.exists error))
  | .exists error =>
    some (v.moves (if answer = .works ∧ (v.dest = .directory ∨ v.dest.read.isSome) then .againLength error
      else .rejectDestLast error))
  | .againLength error =>
    some (v.moves (if lengthMatches cache v.dest answer then .againHash error else .rejectDestLast error))
  | .againHash error =>
    -- an error counts as a destination that does not verify
    some (v.moves (if (hashMatches cache v.dest answer).toOption.getD false then .dropTemp
      else .rejectDestLast error))
  | .dropTemp => some ⟨v.dest,if answer = .works then none else v.temp,.extracted⟩
  | .rejectDestLast error =>
    some (v.moves (if rejects v.dest answer then .failed (symlinkRefused cache.dest) else .remove error))
  | .remove error => some ⟨v.dest.removed answer,v.temp,.retry error⟩
  | .retry renameError =>
    match answer with
    | .works => v.renames .extracted
    | .fails error => some (v.moves (.dropFailed (installError cache error renameError)))
  | .dropFailed message => some ⟨v.dest,if answer = .works then none else v.temp,.failed message⟩
  | .extracted =>
    match answer with
    | .works => some (v.moves .returned)
    | .fails error => some (v.moves (.failed error))
  | .returned | .failed _ => none

end

section
variable (Process : Type)

inductive Action where
  | act (p : Process) (answer : Answer)
  /-- Some process that starts takes the temporary file of another one for stale. -/
  | cleanup (p : Process)

structure State where
  dest : Entry
  /-- Temporary files have names of their own, with the process and a random number. -/
  temp : Process → Option Content
  phase : Process → Phase

end

variable {Process : Type} [DecidableEq Process]

def State.view (s : State Process) (p : Process) : View := ⟨s.dest,s.temp p,s.phase p⟩

def State.update (s : State Process) (p : Process) (v : View) : State Process :=
  ⟨v.dest,Function.update s.temp p v.temp,Function.update s.phase p v.phase⟩

def step (cache : Cache) (temp : Process → String) (s : State Process) : Action Process → Option (State Process)
  | .act p answer => (turn cache (temp p) (s.view p) answer).map (s.update p)
  | .cleanup p => some { s with temp := Function.update s.temp p none }

/-- No process has begun; anything may stand at the destination. -/
def State.Initial (s : State Process) : Prop := ∀ p, s.phase p = .rejectDest

end Oscan.Extraction
