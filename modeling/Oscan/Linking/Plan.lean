import Oscan.Linking.Driver

/-! The plan of a link, how a plan is rendered for each flavor of linker, and the link itself from the runtime archive
on. -/
namespace Oscan.Linking
open Library

inductive LinkerFlavor where
  | mingwDirect | compilerDriver | elfDirect
deriving DecidableEq

inductive LinkerExecutable where
  | embedded (path : String)
  | override (command : String)
  | compilerDriver (command : String) (source : CompilerSource)
deriving DecidableEq

def LinkerExecutable.command : LinkerExecutable → String
  | .embedded path => path
  | .override command => command
  | .compilerDriver command _ => command

structure SystemLib where
  name : String
  archivePath : Option String
deriving DecidableEq

inductive ExtraLib where
  | path (path : String)
  | systemName (name : String)
deriving DecidableEq

def ExtraLib.arg : ExtraLib → String
  | .path file => file
  | .systemName name => "-l" ++ name

structure LinkPlan where
  flavor : LinkerFlavor
  linker : LinkerExecutable
  target : NativeTarget
  runtimeMode : RuntimeMode
  output : String
  objects : List String
  archives : List String
  systemLibs : List SystemLib
  builtins : Option String
  searchPaths : List String
  extraObjects : List String
  entry : Option String
  gcSections : Bool
  strip : Bool
  buildIdNone : Bool
  pie : Bool
  emulation : Option String
  useLldDriverFlag : Bool
  showWarnings : Bool
  extraCSources : List String
  includeDirs : List String
  passthroughCflags : List String
  staticLink : Bool
  extraLibs : List ExtraLib
deriving DecidableEq

/-- Arguments that stand only where something is so -/
def given (holds : Bool) (args : List String) : List String := if holds then args else []

namespace LinkPlan
variable (plan : LinkPlan)

/-- The inputs of a direct linker, which takes its libraries by their paths -/
def directInputs : List String :=
  ["-o",plan.output] ++ plan.objects ++ plan.extraObjects ++ plan.extraLibs.map ExtraLib.arg ++ plan.archives ++
    plan.systemLibs.filterMap SystemLib.archivePath ++ plan.builtins.toList

def emulationArgs : List String :=
  match plan.emulation with
  | some emulation => ["-m",emulation]
  | none => []

def renderMingwDirect : List String :=
  given plan.strip ["-s"] ++ plan.emulationArgs ++ ["-Bdynamic"] ++ given plan.gcSections ["--gc-sections"] ++
    given plan.buildIdNone ["--build-id=none"] ++ (plan.entry.map ("--entry=" ++ ·)).toList ++ plan.directInputs

def renderElfDirect : List String :=
  given plan.strip ["-s"] ++ plan.emulationArgs ++ ["-static"] ++ given plan.gcSections ["--gc-sections"] ++
    given plan.buildIdNone ["--build-id=none"] ++ plan.directInputs

/-- What a compiler is told for the C sources that it compiles with the link -/
def sourceArgs : List String :=
  if plan.extraCSources.isEmpty then []
  else
    (match plan.runtimeMode with
      | .freestanding => ["-std=gnu11","-ffreestanding","-fno-builtin"]
      | .hosted => ["-std=c99","-O2"]) ++
    given (!plan.showWarnings) ["-w"] ++ plan.includeDirs.map ("-I" ++ ·)

def renderCompilerDriver : List String :=
  given plan.useLldDriverFlag ["-fuse-ld=lld"] ++ given (plan.runtimeMode = .freestanding) ["-nostdlib"] ++
    given plan.strip ["-s"] ++
    given plan.gcSections [if plan.buildIdNone then "-Wl,--gc-sections,--build-id=none" else "-Wl,--gc-sections"] ++
    given (!plan.pie && plan.target ≠ .windowsX64) ["-no-pie"] ++ given plan.staticLink ["-static"] ++
    plan.sourceArgs ++ plan.objects ++ plan.extraObjects ++ plan.extraCSources ++ plan.extraLibs.map ExtraLib.arg ++
    plan.archives ++ plan.searchPaths.map ("-L" ++ ·) ++ ["-o",plan.output] ++
    plan.systemLibs.map (fun lib => "-l" ++ lib.name) ++ plan.passthroughCflags ++
    given (plan.runtimeMode = .freestanding ∧ plan.target = .windowsX64) plan.builtins.toList

def render : List String :=
  match plan.flavor with
  | .mingwDirect => plan.renderMingwDirect
  | .compilerDriver => plan.renderCompilerDriver
  | .elfDirect => plan.renderElfDirect

/-- The linker as it is run -/
def invocation : Invocation := ⟨plan.linker.command,plan.render⟩

end LinkPlan

structure NativeLinkOptions where
  runtimeMode : RuntimeMode
  debugInfo : Bool
  showWarnings : Bool
  allowElevatedNativeLink : Bool
  extraCFiles : List String
  extraCflags : List String
  extraObjects : List String
  extraLibs : List String

def optionalWindowsLibs : List String := ["ws2_32","user32","gdi32","secur32","crypt32"]

def isMingwEligible (target : NativeTarget) (runtimeMode : RuntimeMode) (extraCFilesEmpty : Bool) : Bool :=
  target = .windowsX64 && runtimeMode = .freestanding && extraCFilesEmpty

def isElfEligible (target : NativeTarget) (runtimeMode : RuntimeMode) (extraCFilesEmpty : Bool) : Bool :=
  (target = .linuxX64 || target = .linuxAarch64 || target = .linuxRiscv64) && runtimeMode = .freestanding &&
    extraCFilesEmpty

def explicitCrossOverride (elfEligible mingwEligible hasNativeLinkerOverride : Bool) (flavor : Option String) : Bool :=
  hasNativeLinkerOverride && ((elfEligible && flavor = some "elf") || (mingwEligible && flavor = some "mingw"))

def crossLinkPermitted (elfEligible mingwEligible hasNativeLinkerOverride : Bool) (flavor : Option String)
    (embeddedAssetsPresent embeddedTargetMatches : Bool) : Bool :=
  explicitCrossOverride elfEligible mingwEligible hasNativeLinkerOverride flavor ||
    (elfEligible && embeddedAssetsPresent && embeddedTargetMatches)

/-- A direct ELF link of any other target does not come about. -/
def elfEmulation : NativeTarget → String
  | .linuxX64 => "elf_x86_64"
  | .linuxAarch64 => "aarch64linux"
  | .linuxRiscv64 => "elf64lriscv"
  | .windowsX64 => ""

section
variable (machine : Machine)

def absolutePathFromCwd (path : String) : String :=
  if machine.platform.isAbsolute path then path
  else match machine.currentDir with
    | some cwd => machine.platform.join cwd path
    | none => path

def extraLibInput (value : String) : ExtraLib :=
  if isSystemLibraryName value then .systemName value else .path (absolutePathFromCwd machine value)

def Machine.resolveShimSource (runtimeMode : RuntimeMode) (archivePath : String) (manifest : Option RuntimeArchiveManifest) :
    Doing ShimSource :=
  if (manifest.map (·.containsNativeShim)).getD false then return .archiveMember
  else match runtimeMode with
    | .freestanding => .fail (s!"runtime archive '{archivePath}' predates the precompiled native shim (manifest " ++
        "contains_native_shim is false/absent); rebuild it with 'scripts/build-runtime-archive.ps1 -Mode " ++
        "freestanding' (or fetch a current release). The freestanding object backends no longer compile " ++
        "osc_native_shim.c locally.")
    | .hosted => do
      refuseIfStrict machine "compiling runtime/osc_native_shim.c locally for this hosted build"
        ("rebuild the runtime archive with a current 'scripts/build-runtime-archive.ps1|.sh -Mode hosted' so the " ++
          "shim ships inside it")
      say (s!"warning: runtime archive '{archivePath}' predates the precompiled native shim (manifest " ++
        "contains_native_shim is false/absent); falling back to compiling runtime/osc_native_shim.c locally for this " ++
        "hosted build (rebuild the archive with 'scripts/build-runtime-archive.ps1 -Mode hosted' to avoid this every " ++
        "time)")
      return .compileLocally

def findRuntimeSourceDir : Option String :=
  (machine.repoRootCandidates.flatMap fun base =>
      ["native-runtime","runtime"].map (machine.platform.join base)).find? fun candidate =>
    machine.isFile (machine.platform.join candidate "osc_native_shim.c") &&
      machine.isFile (machine.platform.join candidate "osc_runtime.h")

def findExtraIncludeDirs (runtimeDir : String) : List String :=
  match (machine.platform.parents runtimeDir).head? with
  | some projectRoot =>
    let laststanding := machine.platform.join (machine.platform.join projectRoot "deps") "laststanding"
    if machine.exists_ laststanding then [laststanding] else []
  | none => []

def shimDir (runtimeDir : String) (target : NativeTarget) : String :=
  let join := machine.platform.join
  join (join (join ((machine.platform.parents runtimeDir).head?.getD runtimeDir) "build") "runtime-archives") target.tag

def shimObject (cc outDir : String) (runtimeMode : RuntimeMode) : String :=
  let ccTag := (machine.platform.fileStem cc).getD "cc"
  machine.platform.join outDir s!"osc_native_shim.{runtimeMode.asStr}.{ccTag}.o"

/-- Whether the object is missing or older than its source -/
def needsBuild (obj src : String) : Bool :=
  match machine.modified obj,machine.modified src with
  | some objTime,some srcTime => srcTime > objTime
  | _,_ => true

def shimArgs (cc runtimeDir src obj : String) (runtimeMode : RuntimeMode) : List String :=
  let clang := containsText (toAsciiLowercase cc) "clang"
  (match runtimeMode with
    | .freestanding => ["-std=gnu11","-ffreestanding","-w"] ++
        given clang ["-Wno-error=implicit-function-declaration"] ++ [if clang then "-Oz" else "-Os","-fno-builtin",
          "-fno-asynchronous-unwind-tables","-fomit-frame-pointer","-fno-jump-tables"]
    | .hosted => ["-std=c99","-O2","-w"]) ++
  ["-ffunction-sections","-fdata-sections","-I" ++ runtimeDir,"-c",src,"-o",obj]

def compileShimObject (cc : String) (target : NativeTarget) (runtimeMode : RuntimeMode) : Doing String :=
  match findRuntimeSourceDir machine with
  | none => .fail ("osc_native_shim.c and osc_runtime.h were not found in native-runtime/ or runtime/ relative to the " ++
      "oscan binary or repository root")
  | some runtimeDir => do
    let src := machine.platform.join runtimeDir "osc_native_shim.c"
    let outDir := shimDir machine runtimeDir target
    Recorded.answer ((machine.createDirAll outDir).mapError fun e => s!"error creating '{outDir}': {e}")
    let obj := shimObject machine cc outDir runtimeMode
    if needsBuild machine obj src then
      match ← runProgram machine ⟨cc,shimArgs cc runtimeDir src obj runtimeMode⟩ with
      | .error e => .fail s!"failed to run '{cc}': {e}"
      | .ok output =>
        if output.success then return obj
        else .fail ("compiling runtime/osc_native_shim.c failed:\n" ++ output.stdout ++ output.stderr)
    else return obj

def findCompilerBuiltinsLib (cc : String) : Doing (Option String) := do
  return match ← runProgram machine ⟨cc,["-print-libgcc-file-name"]⟩ with
    | .error _ => none
    | .ok output => (some (Sidecar.trimmed output.stdout)).filter fun path => output.success && machine.isFile path

variable (objectPath exePath : String) (target : NativeTarget) (options : NativeLinkOptions) (archivePath : String)

/-- What the plans of all flavors have in common -/
def basePlan (flavor : LinkerFlavor) (linker : LinkerExecutable) : LinkPlan where
  flavor := flavor
  linker := linker
  target := target
  runtimeMode := options.runtimeMode
  output := exePath
  objects := [objectPath]
  archives := [archivePath]
  systemLibs := []
  builtins := none
  searchPaths := []
  extraObjects := options.extraObjects.map (absolutePathFromCwd machine)
  entry := none
  gcSections := true
  strip := !options.debugInfo
  buildIdNone := true
  pie := false
  emulation := none
  useLldDriverFlag := false
  showWarnings := false
  extraCSources := []
  includeDirs := []
  passthroughCflags := []
  staticLink := false
  extraLibs := options.extraLibs.map (extraLibInput machine)

/-- An asset that a direct link cannot do without -/
def requireAsset (asset : Option String) (reason : String) : Doing String :=
  match asset with
  | some path => return path
  | none => .fail (noSilentFallbackError reason)

def assetSourceStr : Sidecar.AssetSource → String
  | .embedded => "embedded"
  | .sidecar => "sidecar"

def missingRole (extracted : LinkAssets) (role : String) : String :=
  s!"this build's {assetSourceStr extracted.source} native-link asset set has no '{role}' role entry (asset set dir: " ++
    s!"'{extracted.dir}')"

def resolveEmbeddedSystemLib (extracted : LinkAssets) (name : String) : Doing SystemLib := do
  let path ← requireAsset (extracted.importLib name)
    (s!"this build's {assetSourceStr extracted.source} native-link asset set is missing the '{name}' import library " ++
      s!"(asset set dir: '{extracted.dir}')")
  return ⟨name,some path⟩

def resolveAssets : Doing LinkAssets :=
  .answer ((machine.resolveLinkAssets target options.allowElevatedNativeLink).mapError noSilentFallbackError)

/-- The toolchains of the embedded linker and of the archive are compared, where both are known. -/
def checkToolchainVersion (manifest : Option RuntimeArchiveManifest) : Doing Unit := do
  let embedded ← Recorded.answer machine.packagedToolchainVersion
  match embedded,manifest.bind (·.toolchainVersion) with
  | some embeddedVersion,some archiveVersion =>
    if embeddedVersion ≠ archiveVersion then
      .fail (s!"embedded linker toolchain (llvm-mingw {embeddedVersion}) does not match runtime archive toolchain " ++
        s!"(llvm-mingw {archiveVersion}); this oscan build and its runtime archives were produced from different toolchains")
    else return ()
  | _,_ => return ()

def embeddedLinker (extracted : LinkAssets) : Doing LinkerExecutable := do
  return .embedded (← requireAsset extracted.linker (missingRole extracted "linker"))

def mingwLinker (extracted : LinkAssets) : MingwLinkerSource → Doing LinkerExecutable
  | .embedded => embeddedLinker extracted
  | .override command => return .override command

def elfLinker : ElfLinkerSource → Doing LinkerExecutable
  | .embedded => do embeddedLinker (← resolveAssets machine target options)
  | .override command => return .override command

def buildMingwPlan (manifest : Option RuntimeArchiveManifest) (source : MingwLinkerSource) : Doing LinkPlan := do
  checkToolchainVersion machine manifest
  let extracted ← resolveAssets machine target options
  let linker ← mingwLinker extracted source
  let systemLibs ← ("kernel32" :: optionalWindowsLibs).mapM (resolveEmbeddedSystemLib extracted)
  let builtins ← requireAsset extracted.compilerBuiltins (missingRole extracted "compiler_builtins")
  return { basePlan machine objectPath exePath target options archivePath .mingwDirect linker with
    systemLibs
    builtins := some builtins
    emulation := some "i386pep" }

def buildElfPlan (source : ElfLinkerSource) : Doing LinkPlan := do
  let linker ← elfLinker machine target options source
  return { basePlan machine objectPath exePath target options archivePath .elfDirect linker with
    emulation := some (elfEmulation target) }

/-- The names of the system's libraries that a compiler is asked for -/
def neededNames (linkerFamily : LinkerFamily) : List String :=
  if target = .windowsX64 then
    "kernel32" :: match options.runtimeMode with
      | .hosted => optionalWindowsLibs
      | .freestanding =>
        if options.extraCFiles.isEmpty ∧ linkerFamily ≠ .lld then machine.detectWindowsFeatureLibs objectPath
        else optionalWindowsLibs
  else if options.runtimeMode = .hosted then ["m"]
  else []

def includeDirsFor : List String :=
  if options.extraCFiles.isEmpty then []
  else match findRuntimeSourceDir machine with
    | some runtimeDir => runtimeDir :: findExtraIncludeDirs machine runtimeDir
    | none => []

/-- The shim as a further object, unless the archive contains it -/
def shimObjects (cmd : String) : ShimSource → Doing (List String)
  | .compileLocally => do return [← compileShimObject machine cmd target options.runtimeMode]
  | .archiveMember => return []

def builtinsFor (cmd : String) : Doing (Option String) :=
  if options.runtimeMode = .freestanding ∧ target = .windowsX64 then findCompilerBuiltinsLib machine cmd
  else return none

/-- Of the flags in the manifest, only their number is read. -/
def noteLinkFlags (manifest : Option RuntimeArchiveManifest) : Doing Unit :=
  match (manifest.map (·.linkFlags.length)).filter (0 < ·) with
  | some n => say (s!"note: ignoring {n} link_flags entries recorded in this archive's manifest (they are no longer " ++
      "used for security reasons; if your archive relied on custom link flags, please open an issue — required flags " ++
      "are now derived internally)")
  | none => return ()

def buildCompilerDriverPlan (manifest : Option RuntimeArchiveManifest) (driver : LinkerDriver) (shimSource : ShimSource) :
    Doing LinkPlan := do
  let shims ← shimObjects machine target options driver.cmd shimSource
  noteLinkFlags manifest
  let builtins ← builtinsFor machine target options driver.cmd
  return { basePlan machine objectPath exePath target options archivePath .compilerDriver
      (.compilerDriver driver.cmd driver.source) with
    objects := objectPath :: shims
    systemLibs := (neededNames machine objectPath target options driver.linkerFamily).map fun name => ⟨name,none⟩
    builtins
    strip := options.runtimeMode = .freestanding && !options.debugInfo
    buildIdNone := options.runtimeMode = .freestanding
    useLldDriverFlag := driver.linkerFamily = .lld
    showWarnings := options.showWarnings
    extraCSources := options.extraCFiles
    includeDirs := includeDirsFor machine options
    passthroughCflags := options.extraCflags
    staticLink := target ≠ .windowsX64 && (options.runtimeMode = .freestanding || driver.source = .bundled) }

def buildPlan (manifest : Option RuntimeArchiveManifest) (shimSource : ShimSource) : LinkerSelection → Doing LinkPlan
  | .mingw source => buildMingwPlan machine objectPath exePath target options archivePath manifest source
  | .elf source => buildElfPlan machine objectPath exePath target options archivePath source
  | .compilerDriver driver =>
    buildCompilerDriverPlan machine objectPath exePath target options archivePath manifest driver shimSource

def packagedReason (packagedTarget : Option String) : String :=
  if machine.packagedAssetsPresent then
    match packagedTarget with
    | some tag =>
      if tag ≠ target.tag then s!"this oscan build has packaged assets for '{tag}', not '{target.tag}'"
      else "no matching packaged linker assets"
    | none => "packaged asset manifest is missing 'target' field"
  else "no packaged assets in this build"

/-- A link for another target than the host's takes packaged assets for it, or a direct linker of the environment. -/
def checkCrossLink (mingwEligible elfEligible : Bool) : Doing Unit := do
  let overridden := (envVarNonempty machine "OSCAN_NATIVE_LINKER").isSome
  let flavor := envVarNonempty machine "OSCAN_NATIVE_LINKER_FLAVOR"
  if machine.platform.host = some target ∨ explicitCrossOverride elfEligible mingwEligible overridden flavor then
    return ()
  else
    let packagedTarget ← Recorded.answer machine.packagedTarget
    if crossLinkPermitted elfEligible mingwEligible overridden flavor machine.packagedAssetsPresent
        (packagedTarget = some target.tag) then
      return ()
    else
      let hostTag := (machine.platform.host.map NativeTarget.tag).getD ""
      .fail (s!"'{target.tag}' is not the host target ({hostTag}); " ++
        "cross-linking requires a matching packaged ELF linker asset in this oscan build (" ++
        packagedReason machine target packagedTarget ++ ") (build with OSCAN_EMBED_ASSETS_DIR staged for " ++
        s!"'{target.tag}', or set OSCAN_NATIVE_LINKER + OSCAN_NATIVE_LINKER_FLAVOR=elf to use an external cross-linker)")

/-- The plan that a link comes to, with the compilers that it runs on the way -/
def planLink (manifest : Option RuntimeArchiveManifest) : Doing LinkPlan := do
  let shimSource ← machine.resolveShimSource options.runtimeMode archivePath manifest
  let mingwEligible := isMingwEligible target options.runtimeMode options.extraCFiles.isEmpty
  let elfEligible := isElfEligible target options.runtimeMode options.extraCFiles.isEmpty
  checkCrossLink machine target mingwEligible elfEligible
  let selection ← resolveLinkerSelection machine target options.runtimeMode mingwEligible elfEligible archivePath manifest
  buildPlan machine objectPath (absolutePathFromCwd machine exePath) target options archivePath manifest shimSource
    selection

def compilerSourceLabel : CompilerSource → String
  | .override => "override"
  | .bundled => "bundled"
  | .host => "host"

def linkerSourceLabel : LinkerExecutable → String
  | .embedded _ => "embedded"
  | .override _ => "override"
  | .compilerDriver _ source => compilerSourceLabel source

/-- `execute::run` -/
def runPlan (plan : LinkPlan) : Doing Unit := do
  say (s!"Linking {plan.runtimeMode.asStr} executable with {plan.linker.command} " ++
    s!"({linkerSourceLabel plan.linker})...")
  match ← runProgram machine plan.invocation with
  | .error e => .fail s!"failed to run '{plan.linker.command}': {e}"
  | .ok output =>
    if output.success then
      match machine.outputLength plan.output with
      | .error e => .fail s!"linker exited successfully but '{plan.output}' does not exist: {e}"
      | .ok 0 => .fail s!"linker exited successfully but '{plan.output}' is empty"
      | .ok _ => return ()
    else .fail ("linking failed:\n" ++ output.stdout ++ output.stderr)

def executePlan (plan : LinkPlan) : Doing Unit :=
  match plan.flavor with
  | .compilerDriver => runPlan machine plan
  | _ => (runPlan machine plan).relabel noSilentFallbackError

def readManifest : Option RuntimeArchiveManifest :=
  (machine.readToString (machine.platform.withExtension archivePath "json")).bind (parseRuntimeManifest machine.fromStr)

def linkWith (manifest : Option RuntimeArchiveManifest) : Doing Unit := do
  let plan ← planLink machine objectPath exePath target options archivePath manifest
  executePlan machine plan

/-- The link, once a runtime archive is found for it -/
def Machine.linkExecutable : Doing Unit :=
  linkWith machine objectPath exePath target options archivePath (readManifest machine archivePath)

end
end Oscan.Linking
