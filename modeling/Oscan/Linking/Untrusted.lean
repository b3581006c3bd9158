import Oscan.Linking.Plan

/-! What a manifest that is not trusted can bring about in a link: nothing that it records of its compiler and of the
flags of the link is run or passed on. -/
namespace Oscan.Linking
open Library Library.Recorded Manifest

section
variable (machine : Machine)

def IntoTrustedRoot (cc : String) : Prop :=
  ∃ canonical, machine.canonicalize cc = some canonical ∧
    ∃ root ∈ trustedRoots machine, machine.platform.startsWith canonical root = true

def Untrusted (m : RuntimeArchiveManifest) : Prop := ∀ cc, m.cc = some cc → ¬IntoTrustedRoot machine cc

/-- A compiler that is found without any manifest -/
def Discovered (cmd : String) (source : CompilerSource) : Prop :=
  ∃ compiler, (findCCompiler machine).result = .ok (some compiler) ∧ gccOrClangCmd compiler = some (cmd,source)

def Overridden (cmd : String) : Prop := envVarNonempty machine "OSCAN_NATIVE_LINKER" = some cmd

/-- A selection that only the machine decides, but for the family of the linker -/
def OfMachine : LinkerSelection → Prop
  | .mingw (.override cmd) => Overridden machine cmd
  | .elf (.override cmd) => Overridden machine cmd
  | .compilerDriver driver => Discovered machine driver.cmd driver.source ∨ Overridden machine driver.cmd
  | _ => True

/-- The arguments of a compiler that is asked about itself or that compiles the shim -/
def OwnArgs (target : NativeTarget) (runtimeMode : RuntimeMode) (cmd : String) (args : List String) : Prop :=
  args ∈ [["-dumpmachine"],["--version"],["-print-libgcc-file-name"]] ∨
    ∃ runtimeDir, findRuntimeSourceDir machine = some runtimeDir ∧
      args = shimArgs cmd runtimeDir (machine.platform.join runtimeDir "osc_native_shim.c")
        (shimObject machine cmd (shimDir machine runtimeDir target) runtimeMode) runtimeMode

/-- A deed that no text of a manifest comes into -/
def Vouched (target : NativeTarget) (runtimeMode : RuntimeMode) : Deed → Prop
  | .say _ => True
  | .run i => .run i ∈ (findCCompiler machine).done ∨
      (((∃ source, Discovered machine i.program source) ∨ Overridden machine i.program) ∧
        OwnArgs machine target runtimeMode i.program i.args)

end

section
variable {machine : Machine} {target : NativeTarget} {runtimeMode : RuntimeMode}

theorem trustedManifestCc_none {cc : String} (foreign : ¬IntoTrustedRoot machine cc) :
    trustedManifestCc machine cc = none := by
  unfold trustedManifestCc
  split
  · rw [Option.filter_eq_none_iff]
    intro canonical found trusted
    obtain ⟨root,member,inside⟩ := List.any_eq_true.mp trusted
    exact foreign ⟨canonical,found,root,member,inside⟩
  · rfl

theorem Untrusted.recordedDriver {m : RuntimeArchiveManifest} (untrusted : Untrusted machine m) (archive : String) :
    recordedDriver machine archive target (some m) = pure none := by
  have none : m.cc.bind (trustedManifestCc machine) = none := by
    cases recorded : m.cc with
    | none => rfl
    | some cc => exact trustedManifestCc_none (untrusted cc recorded)
  simp only [Linking.recordedDriver,none]

end

section
variable {machine : Machine} {target : NativeTarget} {m m' : RuntimeArchiveManifest}

theorem validated_same (same : m.SameBuild m') (cmd : String) :
    validated machine cmd (some m') = validated machine cmd (some m) :=
  same.congr (f := fun m => validated machine cmd (some m)) fun _ _ _ => rfl

theorem driverFor_same (same : m.SameBuild m') (cmd : String) (source : CompilerSource) :
    driverFor machine cmd source target (some m') = driverFor machine cmd source target (some m) :=
  same.congr (f := fun m => driverFor machine cmd source target (some m)) fun _ _ _ => rfl

theorem discoveredDriver_same (same : m.SameBuild m') (discovered : Option (String × CompilerSource)) :
    discoveredDriver machine discovered target (some m') = discoveredDriver machine discovered target (some m) := by
  unfold discoveredDriver
  simp only [validated_same same,driverFor_same same]

theorem noDriver_alike (archive : String) (discovered : Option (String × CompilerSource))
    (manifest manifest' : Option RuntimeArchiveManifest) :
    Alike Deed.isRun (noDriver machine archive discovered manifest) (noDriver machine archive discovered manifest') := by
  unfold noDriver
  apply Alike.bind (Alike.refl _)
  intro found
  cases found with
  | some compiler => exact Alike.refl _
  | none => exact Alike.fail _ _

theorem findLinkerDriver_alike (same : m.SameBuild m') (untrusted : Untrusted machine m)
    (untrusted' : Untrusted machine m') (archive : String) :
    Alike Deed.isRun (findLinkerDriver machine archive target (some m))
      (findLinkerDriver machine archive target (some m')) := by
  unfold findLinkerDriver
  apply Alike.bind (Alike.refl _)
  intro found
  simp only [discoveredDriver_same same,untrusted.recordedDriver,untrusted'.recordedDriver]
  apply Alike.bind (Alike.refl _)
  intro driver
  cases driver with
  | some driver => exact Alike.refl _
  | none =>
    apply Alike.bind (Alike.refl _)
    intro recorded
    cases recorded with
    | some driver => exact Alike.refl _
    | none => exact noDriver_alike archive _ _ _

theorem driverSelection_alike (same : m.SameBuild m') (untrusted : Untrusted machine m)
    (untrusted' : Untrusted machine m') (archive : String) (note : Option String) :
    Alike Deed.isRun (driverSelection machine archive target (some m) note)
      (driverSelection machine archive target (some m') note) := by
  unfold driverSelection
  apply Alike.bind (Alike.refl _)
  intro allowed
  apply Alike.bind (Alike.refl _)
  intro noted
  exact Alike.bind (findLinkerDriver_alike same untrusted untrusted' archive) fun driver => Alike.refl _

theorem defaultSelection_alike (same : m.SameBuild m') (untrusted : Untrusted machine m)
    (untrusted' : Untrusted machine m') (runtimeMode : RuntimeMode) (mingwEligible elfEligible : Bool)
    (archive : String) (flavor : Option String) :
    Alike Deed.isRun (defaultSelection machine target runtimeMode mingwEligible elfEligible archive (some m) flavor)
      (defaultSelection machine target runtimeMode mingwEligible elfEligible archive (some m') flavor) := by
  have driver (note : Option String) : Alike Deed.isRun (driverSelection machine archive target (some m) note)
      (driverSelection machine archive target (some m') note) :=
    driverSelection_alike same untrusted untrusted' archive note
  unfold defaultSelection
  repeat' split
  all_goals first | exact driver _ | exact Alike.refl _

theorem overrideSelection_same (same : m.SameBuild m') (runtimeMode : RuntimeMode) (mingwEligible elfEligible : Bool)
    (cmd : String) (flavor : Option String) :
    overrideSelection machine target runtimeMode mingwEligible elfEligible (some m') cmd flavor =
      overrideSelection machine target runtimeMode mingwEligible elfEligible (some m) cmd flavor := by
  unfold overrideSelection
  simp only [driverFor_same same]

theorem resolveLinkerSelection_alike (same : m.SameBuild m') (untrusted : Untrusted machine m)
    (untrusted' : Untrusted machine m') (runtimeMode : RuntimeMode) (mingwEligible elfEligible : Bool)
    (archive : String) :
    Alike Deed.isRun (resolveLinkerSelection machine target runtimeMode mingwEligible elfEligible archive (some m))
      (resolveLinkerSelection machine target runtimeMode mingwEligible elfEligible archive (some m')) := by
  unfold resolveLinkerSelection
  apply Alike.bind
  · unfold resolveLinkerSelectionInner
    cases envVarNonempty machine "OSCAN_NATIVE_LINKER" with
    | some cmd => exact Alike.of_eq (overrideSelection_same same runtimeMode mingwEligible elfEligible cmd _).symm
    | none => exact defaultSelection_alike same untrusted untrusted' runtimeMode mingwEligible elfEligible archive _
  · intro selection
    exact Alike.refl _

theorem noteLinkFlags_silent (manifest : Option RuntimeArchiveManifest) :
    Alike Deed.isRun (noteLinkFlags manifest) (pure ()) := by
  unfold noteLinkFlags
  split
  · exact Alike.unseen rfl
  · exact Alike.refl _

theorem noteLinkFlags_alike (manifest manifest' : Option RuntimeArchiveManifest) :
    Alike Deed.isRun (noteLinkFlags manifest) (noteLinkFlags manifest') :=
  (noteLinkFlags_silent manifest).trans (noteLinkFlags_silent manifest').symm

variable {objectPath exePath archivePath : String} {options : NativeLinkOptions}

theorem buildPlan_alike (same : m.SameBuild m') (shimSource : ShimSource) (selection : LinkerSelection) :
    Alike Deed.isRun (buildPlan machine objectPath exePath target options archivePath (some m) shimSource selection)
      (buildPlan machine objectPath exePath target options archivePath (some m') shimSource selection) := by
  cases selection with
  | mingw source =>
    have checked : checkToolchainVersion machine (some m') = checkToolchainVersion machine (some m) :=
      same.congr (f := fun m => checkToolchainVersion machine (some m)) fun _ _ _ => rfl
    simp only [buildPlan,buildMingwPlan,checked]
    exact Alike.refl _
  | elf source => exact Alike.refl _
  | compilerDriver driver =>
    simp only [buildPlan,buildCompilerDriverPlan]
    apply Alike.bind (Alike.refl _)
    intro shims
    exact Alike.bind (noteLinkFlags_alike _ _) fun noted => Alike.refl _

theorem planLink_alike (same : m.SameBuild m') (untrusted : Untrusted machine m) (untrusted' : Untrusted machine m') :
    Alike Deed.isRun (planLink machine objectPath exePath target options archivePath (some m))
      (planLink machine objectPath exePath target options archivePath (some m')) := by
  have shim : machine.resolveShimSource options.runtimeMode archivePath (some m') =
      machine.resolveShimSource options.runtimeMode archivePath (some m) :=
    same.congr (f := fun m => machine.resolveShimSource options.runtimeMode archivePath (some m)) fun _ _ _ => rfl
  unfold planLink
  rw [shim]
  apply Alike.bind (Alike.refl _)
  intro shimSource
  apply Alike.bind (Alike.refl _)
  intro permitted
  apply Alike.bind (resolveLinkerSelection_alike same untrusted untrusted' _ _ _ _)
  intro selection
  exact buildPlan_alike same shimSource selection

theorem linkWith_alike (same : m.SameBuild m') (untrusted : Untrusted machine m) (untrusted' : Untrusted machine m') :
    Alike Deed.isRun (linkWith machine objectPath exePath target options archivePath (some m))
      (linkWith machine objectPath exePath target options archivePath (some m')) :=
  Alike.bind (planLink_alike same untrusted untrusted') fun _ => Alike.refl _

end

section
variable {machine : Machine} {target : NativeTarget} {runtimeMode : RuntimeMode}

theorem vouched_discovery {deed : Deed} (member : deed ∈ (findCCompiler machine).done) :
    Vouched machine target runtimeMode deed := by
  cases deed with
  | run i => exact .inl member
  | say text => trivial

theorem keeps_discovery : Keeps (Vouched machine target runtimeMode)
    (fun found => (findCCompiler machine).result = .ok found) (findCCompiler machine) :=
  Keeps.self fun _ member => vouched_discovery member

theorem keeps_say (text : String) : Keeps (Vouched machine target runtimeMode) (fun _ => True) (say text) :=
  Keeps.perform trivial

/-- The commands that a link may run on its own -/
def OwnCommand (machine : Machine) (cmd : String) : Prop := (∃ source, Discovered machine cmd source) ∨ Overridden machine cmd

theorem keeps_runProgram {i : Invocation} (own : OwnCommand machine i.program)
    (args : OwnArgs machine target runtimeMode i.program i.args) :
    Keeps (Vouched machine target runtimeMode) (fun _ => True) (runProgram machine i) := by
  unfold runProgram
  apply Keeps.bind (Keeps.perform (.inr ⟨own,args⟩))
  intro ran _
  exact Keeps.pure trivial

variable {cmd : String} (own : OwnCommand machine cmd)
include own

theorem keeps_validateTarget (m : RuntimeArchiveManifest) :
    Keeps (Vouched machine target runtimeMode) (fun _ => True) (validateTarget machine cmd m) := by
  unfold validateTarget
  split
  · exact Keeps.pure trivial
  · apply Keeps.bind (keeps_runProgram own (.inl (by simp)))
    intro ran _
    cases ran with
    | error e => exact Keeps.fail _
    | ok output =>
      dsimp only
      split
      · exact Keeps.fail _
      · exact Keeps.pure trivial

theorem keeps_validateVersion (m : RuntimeArchiveManifest) :
    Keeps (Vouched machine target runtimeMode) (fun _ => True) (validateVersion machine cmd m) := by
  unfold validateVersion
  split
  · exact Keeps.pure trivial
  · apply Keeps.bind (keeps_runProgram own (.inl (by simp)))
    intro ran _
    cases ran with
    | error e => exact Keeps.fail _
    | ok output =>
      dsimp only
      split
      · exact Keeps.fail _
      · exact Keeps.pure trivial

theorem keeps_validateManifestDriver (m : RuntimeArchiveManifest) :
    Keeps (Vouched machine target runtimeMode) (fun _ => True) (validateManifestDriver machine cmd m) := by
  have family : Keeps (Vouched machine target runtimeMode) (fun _ => True) (validateFamily machine cmd m) := by
    unfold validateFamily
    split
    · exact Keeps.pure trivial
    · dsimp only
      split
      · exact Keeps.fail _
      · exact Keeps.pure trivial
  unfold validateManifestDriver
  apply Keeps.bind family
  intro _ _
  apply Keeps.bind (keeps_validateTarget own m)
  intro _ _
  exact keeps_validateVersion own m

theorem keeps_validated (manifest : Option RuntimeArchiveManifest) :
    Keeps (Vouched machine target runtimeMode) (fun _ => True) (validated machine cmd manifest) := by
  cases manifest with
  | none => exact Keeps.pure trivial
  | some m =>
    apply Keeps.bind (keeps_validateManifestDriver own m).attempt
    intro ended _
    exact Keeps.pure trivial

theorem keeps_compileShimObject :
    Keeps (Vouched machine target runtimeMode) (fun _ => True) (compileShimObject machine cmd target runtimeMode) := by
  unfold compileShimObject
  split
  · exact Keeps.fail _
  · next runtimeDir found =>
    apply Keeps.bind (Keeps.answer fun _ _ => trivial)
    intro created _
    dsimp only
    split
    · apply Keeps.bind (keeps_runProgram own (.inr ⟨runtimeDir,found,rfl⟩))
      intro ran _
      cases ran with
      | error e => exact Keeps.fail _
      | ok output =>
        dsimp only
        split
        · exact Keeps.pure trivial
        · exact Keeps.fail _
    · exact Keeps.pure trivial

theorem keeps_findCompilerBuiltinsLib :
    Keeps (Vouched machine target runtimeMode) (fun _ => True) (findCompilerBuiltinsLib machine cmd) := by
  unfold findCompilerBuiltinsLib
  apply Keeps.bind (keeps_runProgram own (.inl (by simp)))
  intro ran _
  exact Keeps.pure trivial

end

section
variable {machine : Machine} {target : NativeTarget} {runtimeMode : RuntimeMode} {m : RuntimeArchiveManifest}

theorem keeps_discoveredDriver {found : Option CCompiler} (discovery : (findCCompiler machine).result = .ok found)
    (manifest : Option RuntimeArchiveManifest) :
    Keeps (Vouched machine target runtimeMode)
      (fun driver => ∀ d, driver = some d → Discovered machine d.cmd d.source)
      (discoveredDriver machine (found.bind gccOrClangCmd) target manifest) := by
  unfold discoveredDriver
  split
  · exact Keeps.pure fun d no => by cases no
  · next cmd source known =>
    obtain ⟨compiler,rfl,named⟩ := Option.bind_eq_some_iff.mp known
    have here : Discovered machine cmd source := ⟨compiler,discovery,named⟩
    apply Keeps.bind (keeps_validated (.inl ⟨source,here⟩) manifest)
    intro valid _
    split
    · apply Keeps.pure
      intro d made
      cases made
      exact here
    · exact Keeps.pure fun d no => by cases no

theorem keeps_noDriver (archive : String) (discovered : Option (String × CompilerSource))
    (manifest : Option RuntimeArchiveManifest) (promised : LinkerDriver → Prop) :
    Keeps (Vouched machine target runtimeMode) promised (noDriver machine archive discovered manifest) := by
  unfold noDriver
  apply Keeps.bind keeps_discovery
  intro found _
  cases found with
  | none => exact Keeps.fail _
  | some compiler =>
    dsimp only
    split
    · exact Keeps.fail _
    · exact Keeps.fail _

theorem keeps_findLinkerDriver (untrusted : Untrusted machine m) (archive : String) :
    Keeps (Vouched machine target runtimeMode) (fun driver => Discovered machine driver.cmd driver.source)
      (findLinkerDriver machine archive target (some m)) := by
  unfold findLinkerDriver
  apply Keeps.bind keeps_discovery
  intro found discovery
  apply Keeps.bind (keeps_discoveredDriver discovery (some m))
  intro driver made
  cases driver with
  | some driver => exact Keeps.pure (made driver rfl)
  | none =>
    simp only [untrusted.recordedDriver]
    exact keeps_noDriver archive _ _ _

theorem keeps_refuseIfStrict (what alternative : String) :
    Keeps (Vouched machine target runtimeMode) (fun _ => True) (refuseIfStrict machine what alternative) := by
  unfold refuseIfStrict
  split
  · exact Keeps.fail _
  · exact Keeps.pure trivial

theorem keeps_requireFlavorEligibility (flavor : String) (eligible : Bool) (mode : RuntimeMode) :
    Keeps (Vouched machine target runtimeMode) (fun _ => True)
      (requireFlavorEligibility flavor eligible target mode) := by
  unfold requireFlavorEligibility
  split
  · exact Keeps.pure trivial
  · exact Keeps.fail _

theorem keeps_driverSelection (untrusted : Untrusted machine m) (archive : String) (note : Option String) :
    Keeps (Vouched machine target runtimeMode) (OfMachine machine)
      (driverSelection machine archive target (some m) note) := by
  have noted : Keeps (Vouched machine target runtimeMode) (fun _ => True) (note.forM say) := by
    cases note with
    | none => exact Keeps.pure trivial
    | some text => exact keeps_say text
  unfold driverSelection
  apply Keeps.bind (keeps_refuseIfStrict _ _)
  intro _ _
  apply Keeps.bind noted
  intro _ _
  apply Keeps.bind (keeps_findLinkerDriver untrusted archive)
  intro driver discovered
  exact Keeps.pure (.inl discovered)

/-- A direct linker that the target and the build allow -/
theorem keeps_direct (flavor : String) (eligible : Bool) (mode : RuntimeMode) {selection : Doing LinkerSelection}
    (next : Keeps (Vouched machine target runtimeMode) (OfMachine machine) selection) :
    Keeps (Vouched machine target runtimeMode) (OfMachine machine)
      (do requireFlavorEligibility flavor eligible target mode; selection) := by
  apply Keeps.bind (keeps_requireFlavorEligibility flavor eligible mode)
  intro _ _
  exact next

theorem keeps_packaged {selection : LinkerSelection} (ofMachine : OfMachine machine selection) (message : String) :
    Keeps (Vouched machine target runtimeMode) (OfMachine machine)
      (if machine.packagedAssetsPresent then pure selection else .fail message) := by
  split
  · exact Keeps.pure ofMachine
  · exact Keeps.fail _

theorem keeps_defaultSelection (untrusted : Untrusted machine m) (mode : RuntimeMode)
    (mingwEligible elfEligible : Bool) (archive : String) (flavor : Option String) :
    Keeps (Vouched machine target runtimeMode) (OfMachine machine)
      (defaultSelection machine target mode mingwEligible elfEligible archive (some m) flavor) := by
  unfold defaultSelection
  split
  · exact keeps_driverSelection untrusted archive none
  · split
    · exact keeps_direct _ _ _ (keeps_packaged (by trivial) _)
    · split
      · exact keeps_direct _ _ _ (keeps_packaged (by trivial) _)
      · split
        · exact Keeps.fail _
        · split
          · exact Keeps.pure trivial
          · split
            · exact Keeps.pure trivial
            · exact keeps_driverSelection untrusted archive _

theorem keeps_overrideSelection (mode : RuntimeMode) (mingwEligible elfEligible : Bool)
    (manifest : Option RuntimeArchiveManifest) {cmd : String} (overridden : Overridden machine cmd)
    (flavor : Option String) :
    Keeps (Vouched machine target runtimeMode) (OfMachine machine)
      (overrideSelection machine target mode mingwEligible elfEligible manifest cmd flavor) := by
  unfold overrideSelection
  split
  · apply Keeps.bind (keeps_refuseIfStrict _ _)
    intro _ _
    apply Keeps.bind (keeps_say _)
    intro _ _
    exact Keeps.pure (.inr overridden)
  · split
    · apply Keeps.bind (keeps_refuseIfStrict _ _)
      intro _ _
      exact Keeps.pure (.inr overridden)
    · split
      · exact keeps_direct _ _ _ (keeps_packaged (by exact overridden) _)
      · split
        · exact keeps_direct _ _ _ (Keeps.pure overridden)
        · exact Keeps.fail _

theorem keeps_resolveLinkerSelection (untrusted : Untrusted machine m) (mode : RuntimeMode)
    (mingwEligible elfEligible : Bool) (archive : String) :
    Keeps (Vouched machine target runtimeMode) (OfMachine machine)
      (resolveLinkerSelection machine target mode mingwEligible elfEligible archive (some m)) := by
  have selected (flavor : Option String) : Keeps (Vouched machine target runtimeMode) (OfMachine machine)
      (resolveLinkerSelectionInner machine target mode mingwEligible elfEligible archive (some m)
        (envVarNonempty machine "OSCAN_NATIVE_LINKER") flavor) := by
    unfold resolveLinkerSelectionInner
    split
    · next cmd overridden => exact keeps_overrideSelection mode mingwEligible elfEligible (some m) overridden _
    · exact keeps_defaultSelection untrusted mode mingwEligible elfEligible archive _
  unfold resolveLinkerSelection
  apply Keeps.bind (selected _)
  intro selection ofMachine
  split
  · apply Keeps.bind (keeps_refuseIfStrict _ _)
    intro _ _
    exact Keeps.pure ofMachine
  · exact Keeps.pure ofMachine

theorem keeps_resolveShimSource (mode : RuntimeMode) (archivePath : String) (manifest : Option RuntimeArchiveManifest) :
    Keeps (Vouched machine target runtimeMode) (fun _ => True)
      (machine.resolveShimSource mode archivePath manifest) := by
  unfold Machine.resolveShimSource
  split
  · exact Keeps.pure trivial
  · cases mode with
    | freestanding => exact Keeps.fail _
    | hosted =>
      apply Keeps.bind (keeps_refuseIfStrict _ _)
      intro _ _
      apply Keeps.bind (keeps_say _)
      intro _ _
      exact Keeps.pure trivial

theorem keeps_checkCrossLink (mingwEligible elfEligible : Bool) :
    Keeps (Vouched machine target runtimeMode) (fun _ => True)
      (checkCrossLink machine target mingwEligible elfEligible) := by
  unfold checkCrossLink
  dsimp only
  split
  · exact Keeps.pure trivial
  · apply Keeps.bind (Keeps.answer fun _ _ => trivial)
    intro packagedTarget _
    split
    · exact Keeps.pure trivial
    · exact Keeps.fail _

theorem keeps_requireAsset (asset : Option String) (reason : String) :
    Keeps (Vouched machine target runtimeMode) (fun _ => True) (requireAsset asset reason) := by
  unfold requireAsset
  split
  · exact Keeps.pure trivial
  · exact Keeps.fail _

theorem keeps_embeddedLinker (extracted : LinkAssets) :
    Keeps (Vouched machine target runtimeMode) (fun _ => True) (embeddedLinker extracted) := by
  apply Keeps.bind (keeps_requireAsset _ _)
  intro path _
  exact Keeps.pure trivial

theorem keeps_resolveAssets (options : NativeLinkOptions) :
    Keeps (Vouched machine target runtimeMode) (fun _ => True) (resolveAssets machine target options) :=
  Keeps.answer fun _ _ => trivial

theorem keeps_systemLibs (extracted : LinkAssets) (names : List String) :
    Keeps (Vouched machine target runtimeMode) (fun _ => True) (names.mapM (resolveEmbeddedSystemLib extracted)) := by
  rw [← List.mapM'_eq_mapM]
  induction names with
  | nil => exact Keeps.pure trivial
  | cons name names ih =>
    have first : Keeps (Vouched machine target runtimeMode) (fun _ => True) (resolveEmbeddedSystemLib extracted name) := by
      apply Keeps.bind (keeps_requireAsset _ _)
      intro path _
      exact Keeps.pure trivial
    apply Keeps.bind first
    intro lib _
    apply Keeps.bind ih
    intro libs _
    exact Keeps.pure trivial

theorem keeps_checkToolchainVersion (manifest : Option RuntimeArchiveManifest) :
    Keeps (Vouched machine target runtimeMode) (fun _ => True) (checkToolchainVersion machine manifest) := by
  unfold checkToolchainVersion
  apply Keeps.bind (Keeps.answer fun _ _ => trivial)
  intro embedded _
  split
  · split
    · exact Keeps.fail _
    · exact Keeps.pure trivial
  · exact Keeps.pure trivial

variable {objectPath exePath archivePath : String} {options : NativeLinkOptions}

theorem keeps_buildMingwPlan (manifest : Option RuntimeArchiveManifest) (source : MingwLinkerSource) :
    Keeps (Vouched machine target runtimeMode) (fun _ => True)
      (buildMingwPlan machine objectPath exePath target options archivePath manifest source) := by
  have linker (extracted : LinkAssets) :
      Keeps (Vouched machine target runtimeMode) (fun _ => True) (mingwLinker extracted source) := by
    cases source with
    | embedded => exact keeps_embeddedLinker extracted
    | override command => exact Keeps.pure trivial
  unfold buildMingwPlan
  apply Keeps.bind (keeps_checkToolchainVersion manifest)
  intro _ _
  apply Keeps.bind (keeps_resolveAssets options)
  intro extracted _
  apply Keeps.bind (linker extracted)
  intro executable _
  apply Keeps.bind (keeps_systemLibs extracted _)
  intro systemLibs _
  apply Keeps.bind (keeps_requireAsset _ _)
  intro builtins _
  exact Keeps.pure trivial

theorem keeps_buildElfPlan (source : ElfLinkerSource) :
    Keeps (Vouched machine target runtimeMode) (fun _ => True)
      (buildElfPlan machine objectPath exePath target options archivePath source) := by
  have linker : Keeps (Vouched machine target runtimeMode) (fun _ => True) (elfLinker machine target options source) := by
    cases source with
    | embedded =>
      apply Keeps.bind (keeps_resolveAssets options)
      intro extracted _
      exact keeps_embeddedLinker extracted
    | override command => exact Keeps.pure trivial
  apply Keeps.bind linker
  intro executable _
  exact Keeps.pure trivial

theorem keeps_noteLinkFlags (manifest : Option RuntimeArchiveManifest) :
    Keeps (Vouched machine target runtimeMode) (fun _ => True) (noteLinkFlags manifest) := by
  unfold noteLinkFlags
  split
  · exact keeps_say _
  · exact Keeps.pure trivial

theorem noteLinkFlags_result (manifest : Option RuntimeArchiveManifest) : (noteLinkFlags manifest).result = .ok () := by
  unfold noteLinkFlags
  split
  · rfl
  · rfl

theorem keeps_buildCompilerDriverPlan (manifest : Option RuntimeArchiveManifest) {driver : LinkerDriver}
    (own : OwnCommand machine driver.cmd) (shimSource : ShimSource) :
    Keeps (Vouched machine target options.runtimeMode) (fun _ => True)
      (buildCompilerDriverPlan machine objectPath exePath target options archivePath manifest driver shimSource) := by
  have shims : Keeps (Vouched machine target options.runtimeMode) (fun _ => True)
      (shimObjects machine target options driver.cmd shimSource) := by
    cases shimSource with
    | compileLocally =>
      apply Keeps.bind (keeps_compileShimObject own)
      intro obj _
      exact Keeps.pure trivial
    | archiveMember => exact Keeps.pure trivial
  have builtins : Keeps (Vouched machine target options.runtimeMode) (fun _ => True)
      (builtinsFor machine target options driver.cmd) := by
    unfold builtinsFor
    split
    · exact keeps_findCompilerBuiltinsLib own
    · exact Keeps.pure trivial
  unfold buildCompilerDriverPlan
  apply Keeps.bind shims
  intro objects _
  apply Keeps.bind (keeps_noteLinkFlags manifest)
  intro _ _
  apply Keeps.bind builtins
  intro found _
  exact Keeps.pure trivial

theorem keeps_buildPlan (manifest : Option RuntimeArchiveManifest) (shimSource : ShimSource)
    {selection : LinkerSelection} (ofMachine : OfMachine machine selection) :
    Keeps (Vouched machine target options.runtimeMode) (fun _ => True)
      (buildPlan machine objectPath exePath target options archivePath manifest shimSource selection) := by
  cases selection with
  | mingw source => exact keeps_buildMingwPlan manifest source
  | elf source => exact keeps_buildElfPlan source
  | compilerDriver driver =>
    have own : OwnCommand machine driver.cmd := by
      rcases ofMachine with discovered | overridden
      · exact .inl ⟨driver.source,discovered⟩
      · exact .inr overridden
    exact keeps_buildCompilerDriverPlan manifest own shimSource

/-- A plan that is made with a manifest is made without it as well. -/
theorem buildPlan_without {manifest : Option RuntimeArchiveManifest} {shimSource : ShimSource}
    {selection : LinkerSelection} {plan : LinkPlan}
    (made : (buildPlan machine objectPath exePath target options archivePath manifest shimSource selection).result =
      .ok plan) :
    (buildPlan machine objectPath exePath target options archivePath none shimSource selection).result = .ok plan := by
  cases selection with
  | mingw source =>
    simp only [buildPlan,buildMingwPlan] at made ⊢
    obtain ⟨checked,passed,rest⟩ := bind_result made
    obtain ⟨embedded,known,_⟩ := bind_result passed
    have without : (checkToolchainVersion machine none).result = .ok () := by
      unfold checkToolchainVersion
      rw [bind_ok _ known]
      cases embedded <;> rfl
    rw [bind_ok _ without]
    exact rest
  | elf source => exact made
  | compilerDriver driver =>
    simp only [buildPlan,buildCompilerDriverPlan] at made ⊢
    rw [← made]
    apply bind_result_congr rfl
    intro shims
    refine bind_result_congr ?_ fun _ => rfl
    rw [noteLinkFlags_result,noteLinkFlags_result]

/-- A plan that the machine alone decides, but for the family of the linker and where the shim is from -/
def MadeByMachine (machine : Machine) (objectPath exePath : String) (target : NativeTarget) (options : NativeLinkOptions)
    (archivePath : String) (plan : LinkPlan) : Prop :=
  ∃ shimSource selection, OfMachine machine selection ∧
    (buildPlan machine objectPath (absolutePathFromCwd machine exePath) target options archivePath none shimSource
      selection).result = .ok plan

theorem keeps_planLink (untrusted : Untrusted machine m) :
    Keeps (Vouched machine target options.runtimeMode)
      (MadeByMachine machine objectPath exePath target options archivePath)
      (planLink machine objectPath exePath target options archivePath (some m)) := by
  unfold planLink
  apply Keeps.bind (keeps_resolveShimSource _ _ _)
  intro shimSource _
  dsimp only
  apply Keeps.bind (keeps_checkCrossLink _ _)
  intro _ _
  apply Keeps.bind (keeps_resolveLinkerSelection untrusted _ _ _ _)
  intro selection ofMachine
  refine ⟨(keeps_buildPlan _ shimSource ofMachine).within,fun plan made => ?_⟩
  exact ⟨shimSource,selection,ofMachine,buildPlan_without made⟩

end

section
variable (machine : Machine) (objectPath exePath : String) (target : NativeTarget) (options : NativeLinkOptions)
  (archivePath : String)

/-- No text of the manifest is a command, an argument of a command that is run, or an argument of the linker. -/
structure KeptOut (m : RuntimeArchiveManifest) : Prop where
  driver : ∀ driver, (findLinkerDriver machine archivePath target (some m)).result = .ok driver →
    Discovered machine driver.cmd driver.source
  probes : ∀ deed ∈ (findLinkerDriver machine archivePath target (some m)).done,
    Vouched machine target options.runtimeMode deed
  plan : ∀ plan, (planLink machine objectPath exePath target options archivePath (some m)).result = .ok plan →
    MadeByMachine machine objectPath exePath target options archivePath plan
  commands : ∀ deed ∈ (planLink machine objectPath exePath target options archivePath (some m)).done,
    Vouched machine target options.runtimeMode deed

theorem keptOut {m : RuntimeArchiveManifest} (untrusted : Untrusted machine m) :
    KeptOut machine objectPath exePath target options archivePath m := by
  have driver : Keeps (Vouched machine target options.runtimeMode) _
      (findLinkerDriver machine archivePath target (some m)) := keeps_findLinkerDriver untrusted archivePath
  have plan : Keeps _ _ (planLink machine objectPath exePath target options archivePath (some m)) :=
    keeps_planLink untrusted
  exact ⟨driver.holds,driver.within,plan.holds,plan.within⟩

/-- Manifests that differ only in the compiler they record and in their flags, and whose compilers are not in a trusted
root, lead to the same driver, the same plan with the same rendered arguments, and the same commands. -/
theorem manifests_indistinguishable {text text' : String} {object object' : Entries} {m m' : RuntimeArchiveManifest}
    (valid : machine.fromStr text = .ok (.object object)) (valid' : machine.fromStr text' = .ok (.object object'))
    (differ : DifferOnly object object') (parsed : parseRuntimeManifest machine.fromStr text = some m)
    (parsed' : parseRuntimeManifest machine.fromStr text' = some m') (untrusted : Untrusted machine m)
    (untrusted' : Untrusted machine m') :
    Alike Deed.isRun (findLinkerDriver machine archivePath target (some m))
        (findLinkerDriver machine archivePath target (some m')) ∧
      (∀ plan plan', (planLink machine objectPath exePath target options archivePath (some m)).result = .ok plan →
        (planLink machine objectPath exePath target options archivePath (some m')).result = .ok plan' →
        plan.linker.command = plan'.linker.command ∧ plan.render = plan'.render) ∧
      Alike Deed.isRun (linkWith machine objectPath exePath target options archivePath (some m))
        (linkWith machine objectPath exePath target options archivePath (some m')) ∧
      KeptOut machine objectPath exePath target options archivePath m ∧
      KeptOut machine objectPath exePath target options archivePath m' := by
  have same := sameBuild_of_differOnly valid valid' differ parsed parsed'
  refine ⟨findLinkerDriver_alike same untrusted untrusted' archivePath,?_,linkWith_alike same untrusted untrusted',
    keptOut machine objectPath exePath target options archivePath untrusted,
    keptOut machine objectPath exePath target options archivePath untrusted'⟩
  intro plan plan' planned planned'
  have alike : Alike Deed.isRun (planLink machine objectPath exePath target options archivePath (some m)) _ :=
    planLink_alike same untrusted untrusted'
  have other := (alike.2 plan).mp planned
  rw [planned'] at other
  cases other
  exact ⟨rfl,rfl⟩

end

section
open Library.FileTree

def unixParents : Nat → Path → List Path
  | 0,_ => []
  | n + 1,p => match p.parent with
    | some q => q :: unixParents n q
    | none => []

def unixFileName (path : String) : Option String :=
  match (Path.new path).components.getLast? with
  | some (.normal name) => some name
  | _ => none

/-- A name without its last extension; a dot at its beginning does not start one. -/
def unixStem (name : String) : String :=
  match (name.toList.splitOn '.').map String.ofList with
  | [] | [_] => name
  | "" :: [_] => name
  | pieces => ".".intercalate pieces.dropLast

def unixPlatform : Platform where
  windows := false
  os := "linux"
  host := some .linuxX64
  isAbsolute path := (Path.new path).absolute
  fileName := unixFileName
  fileStem path := (unixFileName path).map unixStem
  parents path :=
    let p := Path.new path
    (unixParents (p.pieces.length + 1) p).map Sidecar.displayPath
  join base path := Sidecar.displayPath ((Path.new base).join (Path.new path))
  startsWith path base := (Path.new path).startsWith (Path.new base)
  withExtension path extension :=
    let p := Path.new path
    match unixFileName path,p.parent with
    | some name,some q => Sidecar.displayPath (q.join ⟨false,[unixStem name ++ "." ++ extension]⟩)
    | _,_ => path

/-- A manifest as JSON, with what it says of the compiler and of the flags -/
def manifestEntries (cc flag : String) : Entries :=
  [("cc",.string cc),("contains_native_shim",.bool true),("link_flags",.array [.string flag])]

/-- A machine with a Clang on its path and no other compiler -/
def clangMachine : Machine where
  platform := unixPlatform
  env _ := none
  currentExe := some "/opt/oscan/oscan"
  currentDir := some "/work"
  exists_ _ := false
  isFile _ := false
  isDir _ := false
  canonicalize _ := none
  readToString _ := none
  directories _ := none
  createDirAll _ := .ok ()
  modified _ := none
  outputLength _ := .ok 4744
  output i := .ok ⟨i = ⟨"which",["clang"]⟩ || i.program = "clang","",""⟩
  responds _ := false
  fromStr text := .ok (.object (manifestEntries (if text = "tampered" then "/attacker/cc" else "/build/clang") text))
  cargoManifestDir := none
  repoRootCandidates := []
  packagedAssetsPresent := false
  packagedTarget := .ok none
  packagedToolchainVersion := .ok none
  resolveLinkAssets _ _ := .error "no assets"
  detectWindowsFeatureLibs _ := []
  toolchainFreeBuild := false
  compiledInList := "c, llvm"

def plainOptions : NativeLinkOptions := ⟨.freestanding,false,false,false,[],[],[],[]⟩

def recordedManifest (cc flag : String) : RuntimeArchiveManifest := ⟨some cc,none,none,none,none,[flag],true,none,none⟩

theorem clangMachine_untrusted (m : RuntimeArchiveManifest) : Untrusted clangMachine m := by
  intro cc _ inside
  obtain ⟨canonical,found,_⟩ := inside
  cases found

theorem manifestEntries_differ (cc cc' flag flag' : String) :
    DifferOnly (manifestEntries cc flag) (manifestEntries cc' flag') := by
  intro key other other'
  unfold manifestEntries
  simp only [List.lookup_cons,beq_eq_false_iff_ne.mpr other,beq_eq_false_iff_ne.mpr other']

theorem manifests_indistinguishable_tampered :
    let m := recordedManifest "/build/clang" "-static"
    let m' := recordedManifest "/attacker/cc" "tampered"
    Alike Deed.isRun (findLinkerDriver clangMachine "/lib/a.a" .linuxX64 (some m))
        (findLinkerDriver clangMachine "/lib/a.a" .linuxX64 (some m')) ∧
      (∀ plan plan', (planLink clangMachine "p.o" "p" .linuxX64 plainOptions "/lib/a.a" (some m)).result = .ok plan →
        (planLink clangMachine "p.o" "p" .linuxX64 plainOptions "/lib/a.a" (some m')).result = .ok plan' →
        plan.linker.command = plan'.linker.command ∧ plan.render = plan'.render) ∧
      Alike Deed.isRun (linkWith clangMachine "p.o" "p" .linuxX64 plainOptions "/lib/a.a" (some m))
        (linkWith clangMachine "p.o" "p" .linuxX64 plainOptions "/lib/a.a" (some m')) ∧
      KeptOut clangMachine "p.o" "p" .linuxX64 plainOptions "/lib/a.a" m ∧
      KeptOut clangMachine "p.o" "p" .linuxX64 plainOptions "/lib/a.a" m' :=
  manifests_indistinguishable clangMachine "p.o" "p" .linuxX64 plainOptions "/lib/a.a"
    (show clangMachine.fromStr "-static" = .ok (.object (manifestEntries "/build/clang" "-static")) from rfl)
    (show clangMachine.fromStr "tampered" = .ok (.object (manifestEntries "/attacker/cc" "tampered")) from rfl) (manifestEntries_differ _ _ _ _) rfl rfl (clangMachine_untrusted _)
    (clangMachine_untrusted _)

end
end Oscan.Linking
