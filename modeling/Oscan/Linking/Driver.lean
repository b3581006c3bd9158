import Oscan.Linking.Discovery
import Oscan.Linking.Manifest

/-! The choice of a linker: a direct linker of the build or of the environment, or a compiler that drives one. The
manifest of the runtime archive is not trusted in it. -/
namespace Oscan.Linking
open Library

inductive LinkerFamily where
  | gnuLd | lld
deriving DecidableEq

structure LinkerDriver where
  cmd : String
  source : CompilerSource
  linkerFamily : LinkerFamily
deriving DecidableEq

inductive MingwLinkerSource where
  | embedded
  | override (command : String)

inductive ElfLinkerSource where
  | embedded
  | override (command : String)

inductive LinkerSelection where
  | mingw (source : MingwLinkerSource)
  | elf (source : ElfLinkerSource)
  | compilerDriver (driver : LinkerDriver)

def RuntimeMode.asStr : RuntimeMode → String
  | .freestanding => "freestanding"
  | .hosted => "hosted"

section
variable (machine : Machine)

def compilerFamilyFromCommand (cmd : String) : String :=
  if containsText (lowerFileName machine cmd) "clang" then "clang" else "gcc"

/-- The toolchain beside the compiler and, in a build that carries no assets, the directory it was built in -/
def trustedRoots : List String :=
  ((findToolchainDir machine).bind machine.canonicalize).toList ++
    (if machine.packagedAssetsPresent then [] else (machine.cargoManifestDir.bind machine.canonicalize).toList)

def trustedManifestCc (cc : String) : Option String :=
  if machine.platform.isAbsolute cc then
    (machine.canonicalize cc).filter fun canonical => (trustedRoots machine).any (machine.platform.startsWith canonical)
  else none

def validateFamily (cmd : String) (manifest : RuntimeArchiveManifest) : Doing Unit :=
  match manifest.ccFamily with
  | none => return ()
  | some expected =>
    let actual := compilerFamilyFromCommand machine cmd
    if expected ≠ actual then
      .fail s!"runtime archive requires compiler family '{expected}', but '{cmd}' is '{actual}'"
    else return ()

def validateTarget (cmd : String) (manifest : RuntimeArchiveManifest) : Doing Unit :=
  match manifest.ccTarget with
  | none => return ()
  | some expected => do
    match ← runProgram machine ⟨cmd,["-dumpmachine"]⟩ with
    | .error e => .fail s!"failed to probe linker driver '{cmd}' target: {e}"
    | .ok output =>
      let actual := Sidecar.trimmed output.stdout
      if !output.success || !eqIgnoreAsciiCase actual expected then
        .fail (s!"runtime archive was built for compiler target '{expected}', but '{cmd}' reports " ++
          "'" ++ (if actual = "" then "<none>" else actual) ++ "'")
      else return ()

def validateVersion (cmd : String) (manifest : RuntimeArchiveManifest) : Doing Unit :=
  match manifest.ccVersion with
  | none => return ()
  | some expected => do
    match ← runProgram machine ⟨cmd,["--version"]⟩ with
    | .error e => .fail s!"failed to probe linker driver '{cmd}' version: {e}"
    | .ok output =>
      if !output.success || !containsText output.stdout expected then
        .fail (s!"runtime archive was built with compiler version '{expected}', but '{cmd}' reports " ++
          "'" ++ (lines output.stdout).head?.getD "<none>" ++ "'")
      else return ()

def validateManifestDriver (cmd : String) (manifest : RuntimeArchiveManifest) : Doing Unit := do
  validateFamily machine cmd manifest
  validateTarget machine cmd manifest
  validateVersion machine cmd manifest

def linkerFamilyFor (cmd : String) (target : NativeTarget) (manifest : Option RuntimeArchiveManifest) : LinkerFamily :=
  if manifest.bind (·.linkerFamily) = some "lld" ∨
      (target = .windowsX64 ∧ compilerFamilyFromCommand machine cmd = "clang") then .lld
  else .gnuLd

def driverFor (cmd : String) (source : CompilerSource) (target : NativeTarget)
    (manifest : Option RuntimeArchiveManifest) : LinkerDriver :=
  ⟨cmd,source,linkerFamilyFor machine cmd target manifest⟩

/-- Whether a discovered compiler is what the archive was built with, as far as its manifest says -/
def validated (cmd : String) : Option RuntimeArchiveManifest → Doing Bool
  | none => return true
  | some m => do
    return match ← (validateManifestDriver machine cmd m).attempt with
      | .ok _ => true
      | .error _ => false

/-- The discovered compiler, when it is valid -/
def discoveredDriver (discovered : Option (String × CompilerSource)) (target : NativeTarget)
    (manifest : Option RuntimeArchiveManifest) : Doing (Option LinkerDriver) :=
  match discovered with
  | none => return none
  | some (cmd,source) => do
    if ← validated machine cmd manifest then return some (driverFor machine cmd source target manifest)
    else return none

/-- The compiler that the manifest records, when its path is trusted -/
def recordedDriver (archive : String) (target : NativeTarget) (manifest : Option RuntimeArchiveManifest) :
    Doing (Option LinkerDriver) :=
  match manifest with
  | none => return none
  | some m =>
    match m.cc.bind (trustedManifestCc machine) with
    | none => return none
    | some trustedCc => do
      (validateManifestDriver machine trustedCc m).relabel fun error =>
        s!"the compiler recorded in runtime archive '{archive}' ('{trustedCc}') is a trusted path but incompatible: " ++
          error ++ "; install/use the packaged matching toolchain or set OSCAN_NATIVE_LINKER explicitly"
      return some (driverFor machine trustedCc .host target manifest)

def noDriver (archive : String) (discovered : Option (String × CompilerSource))
    (manifest : Option RuntimeArchiveManifest) : Doing LinkerDriver := do
  match ← findCCompiler machine with
  | some _ =>
    if discovered.isNone then
      .fail ("the LLVM/Cranelift object backends link object files with GCC or Clang (matching the toolchain used " ++
        "to build the runtime archive), but only an MSVC (cl.exe) toolchain was found on this host; install GCC or " ++
        "Clang (e.g. MinGW-w64, or LLVM), or set OSCAN_NATIVE_LINKER to a GCC/Clang command")
    else
      .fail (s!"the compiler recorded in runtime archive '{archive}' is untrusted or unavailable, and the discovered " ++
        "replacement is incompatible with it (family/version/target mismatch); install/use the packaged matching " ++
        "toolchain or set OSCAN_NATIVE_LINKER explicitly")
  | none =>
    let recorded := match manifest.bind (·.cc) with
      | some cc => s!"; the archive records compiler '{cc}', which is not a trusted path and was never executed"
      | none => ""
    .fail (s!"no trusted C compiler found to act as the LLVM/Cranelift object backends' linker (searched the same way " ++
      s!"--backend c does){recorded}; install GCC or a GNU-ABI Clang toolchain")

def findLinkerDriver (archive : String) (target : NativeTarget) (manifest : Option RuntimeArchiveManifest) :
    Doing LinkerDriver := do
  let discovered := (← findCCompiler machine).bind gccOrClangCmd
  match ← discoveredDriver machine discovered target manifest with
  | some driver => return driver
  | none =>
    match ← recordedDriver machine archive target manifest with
    | some driver => return driver
    | none => noDriver machine archive discovered manifest

inductive StrictSource where
  | build | environment

def parseFlag (value : String) : Bool :=
  toAsciiLowercase (Sidecar.trimmed value) ∈ ["1","true","yes","on"]

def strictSource : Option StrictSource :=
  if machine.toolchainFreeBuild then some .build
  else if (machine.env "OSCAN_NO_TOOLCHAIN").any parseFlag then some .environment
  else none

def refusalFor (source : StrictSource) (what alternative : String) : String :=
  match source with
  | .environment => s!"OSCAN_NO_TOOLCHAIN=1 (strict no-toolchain profile) refuses {what}, because it would require a " ++
      s!"C toolchain on this machine; {alternative}, or unset OSCAN_NO_TOOLCHAIN to allow it"
  | .build => "this compiler build does not include the C backend (it includes: " ++ machine.compiledInList ++
      s!"), so it refuses {what}, because it would require a C toolchain on this machine; {alternative}, or " ++
      "install a package that includes the C backend"

def refuseIfStrict (what alternative : String) : Doing Unit :=
  match strictSource machine with
  | some source => .fail (refusalFor machine source what alternative)
  | none => return ()

def refuseCompilerDriverIfStrict : Doing Unit :=
  refuseIfStrict machine "linking through an external C compiler driver"
    ("use a release build that embeds its own linker, or set OSCAN_NATIVE_LINKER together with " ++
      "OSCAN_NATIVE_LINKER_FLAVOR=mingw|elf to invoke a direct linker")

def requireFlavorEligibility (flavor : String) (eligible : Bool) (target : NativeTarget) (runtimeMode : RuntimeMode) :
    Doing Unit :=
  if eligible then return ()
  else
    let reason := if runtimeMode = .hosted then
        "a hosted (--libc) link needs the toolchain's CRT/libm, which a direct linker invocation does not provide"
      else
        "this target/input combination is not linkable by that flavor (a direct linker cannot compile user " ++
          "--extra-c sources, and each flavor handles only its own object format: 'mingw' links Windows COFF, 'elf' " ++
          "links Linux ELF)"
    .fail (s!"OSCAN_NATIVE_LINKER_FLAVOR={flavor} cannot be used for target '{target.tag}' in {runtimeMode.asStr} " ++
      s!"mode: {reason}. Unset OSCAN_NATIVE_LINKER_FLAVOR (or set it to 'compiler-driver') to link these inputs " ++
      "through a C compiler driver instead")

def unknownFlavor (other : String) : Doing LinkerSelection :=
  .fail s!"OSCAN_NATIVE_LINKER_FLAVOR='{other}' is not recognized (expected 'compiler-driver', 'mingw', or 'elf')"

/-- The linker of the environment, in the flavor that the environment names -/
def overrideSelection (target : NativeTarget) (runtimeMode : RuntimeMode) (mingwEligible elfEligible : Bool)
    (manifest : Option RuntimeArchiveManifest) (cmd : String) (flavor : Option String) : Doing LinkerSelection :=
  if flavor = none then do
    refuseCompilerDriverIfStrict machine
    say ("note: OSCAN_NATIVE_LINKER is being interpreted as a C compiler driver for backward compatibility; set " ++
      "OSCAN_NATIVE_LINKER_FLAVOR=mingw to invoke a direct ld.lld instead.")
    return .compilerDriver (driverFor machine cmd .override target manifest)
  else if flavor = some "compiler-driver" then do
    refuseCompilerDriverIfStrict machine
    return .compilerDriver (driverFor machine cmd .override target manifest)
  else if flavor = some "mingw" then do
    requireFlavorEligibility "mingw" mingwEligible target runtimeMode
    if machine.packagedAssetsPresent then return .mingw (.override cmd)
    else .fail ("OSCAN_NATIVE_LINKER_FLAVOR=mingw requires this oscan build to embed its own native-link import " ++
      "libraries/compiler-builtins (even when OSCAN_NATIVE_LINKER overrides the linker binary itself); this build " ++
      s!"has none embedded (a dev build) — unset OSCAN_NATIVE_LINKER_FLAVOR to use '{cmd}' as a compiler driver instead")
  else if flavor = some "elf" then do
    requireFlavorEligibility "elf" elfEligible target runtimeMode
    return .elf (.override cmd)
  else unknownFlavor (flavor.getD "")

def driverSelection (archive : String) (target : NativeTarget) (manifest : Option RuntimeArchiveManifest)
    (note : Option String) : Doing LinkerSelection := do
  refuseCompilerDriverIfStrict machine
  note.forM say
  return .compilerDriver (← findLinkerDriver machine archive target manifest)

def devBuildNote : String :=
  "note: this oscan build has no embedded native linker (dev build); using external C toolchain as linker driver"

/-- The linker that is found without an override -/
def defaultSelection (target : NativeTarget) (runtimeMode : RuntimeMode) (mingwEligible elfEligible : Bool)
    (archive : String) (manifest : Option RuntimeArchiveManifest) (flavor : Option String) : Doing LinkerSelection :=
  if flavor = some "compiler-driver" then driverSelection machine archive target manifest none
  else if flavor = some "mingw" then do
    requireFlavorEligibility "mingw" mingwEligible target runtimeMode
    if machine.packagedAssetsPresent then return .mingw .embedded
    else .fail ("OSCAN_NATIVE_LINKER_FLAVOR=mingw was set, but this oscan build has no embedded native " ++
      "linker/import libraries (a dev build); unset OSCAN_NATIVE_LINKER_FLAVOR, or set OSCAN_NATIVE_LINKER to a " ++
      "ld.lld-compatible binary as well")
  else if flavor = some "elf" then do
    requireFlavorEligibility "elf" elfEligible target runtimeMode
    if machine.packagedAssetsPresent then return .elf .embedded
    else .fail ("OSCAN_NATIVE_LINKER_FLAVOR=elf was set, but this oscan build has no embedded native linker (a dev " ++
      "build); unset OSCAN_NATIVE_LINKER_FLAVOR, or set OSCAN_NATIVE_LINKER to a GNU ld-compatible binary as well")
  else if flavor.isSome then unknownFlavor (flavor.getD "")
  else if mingwEligible ∧ machine.packagedAssetsPresent then return .mingw .embedded
  else if elfEligible ∧ machine.packagedAssetsPresent then return .elf .embedded
  else driverSelection machine archive target manifest
    (if (mingwEligible ∨ elfEligible) ∧ runtimeMode = .freestanding then some devBuildNote else none)

def resolveLinkerSelectionInner (target : NativeTarget) (runtimeMode : RuntimeMode) (mingwEligible elfEligible : Bool)
    (archive : String) (manifest : Option RuntimeArchiveManifest) (nativeLinker flavor : Option String) :
    Doing LinkerSelection :=
  match nativeLinker with
  | some cmd => overrideSelection machine target runtimeMode mingwEligible elfEligible manifest cmd flavor
  | none => defaultSelection machine target runtimeMode mingwEligible elfEligible archive manifest flavor

/-- A selected compiler is refused under the strict profile once more. -/
def resolveLinkerSelection (target : NativeTarget) (runtimeMode : RuntimeMode) (mingwEligible elfEligible : Bool)
    (archive : String) (manifest : Option RuntimeArchiveManifest) : Doing LinkerSelection := do
  let selection ← resolveLinkerSelectionInner machine target runtimeMode mingwEligible elfEligible archive manifest
    (envVarNonempty machine "OSCAN_NATIVE_LINKER") (envVarNonempty machine "OSCAN_NATIVE_LINKER_FLAVOR")
  match selection with
  | .compilerDriver _ => do
    refuseCompilerDriverIfStrict machine
    return selection
  | _ => return selection

def noSilentFallbackError (reason : String) : String :=
  s!"native link failed using this build's embedded linker: {reason}. This oscan build embeds its own linker and will " ++
    "not silently fall back to an external C toolchain. To override, set OSCAN_NATIVE_LINKER together with " ++
    "OSCAN_NATIVE_LINKER_FLAVOR (e.g. =mingw for a direct ld.lld, or =compiler-driver for the legacy path)."

end
end Oscan.Linking
