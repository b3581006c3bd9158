import Oscan.Library.Recorded
import Oscan.Linking.Capability
import Oscan.Sidecar.Package

/-! The discovery of a C compiler on the machine: an override in the environment, the bundled toolchain, and what the
host has installed. -/
namespace Oscan.Linking
open Library

/-- A run of another program -/
structure Invocation where
  program : String
  args : List String
deriving DecidableEq

inductive Deed where
  | run (invocation : Invocation)
  | say (text : String)

def Deed.isRun : Deed → Bool
  | .run _ => true
  | .say _ => false

structure ProcessOutput where
  success : Bool
  stdout : String
  stderr : String

/-- The paths of a platform, in its own spelling -/
structure Platform where
  windows : Bool
  os : String
  host : Option NativeTarget
  isAbsolute : String → Bool
  fileName : String → Option String
  fileStem : String → Option String
  /-- The parent, the parent's parent and so on -/
  parents : String → List String
  join : String → String → String
  startsWith : String → String → Bool
  withExtension : String → String → String

/-- The assets of a direct link, by their roles -/
structure LinkAssets where
  source : Sidecar.AssetSource
  dir : String
  linker : Option String
  compilerBuiltins : Option String
  importLib : String → Option String

/-- The machine that a link runs on, as the compiler finds it: its environment, its files and its other programs, and
what this build of the compiler carries along -/
structure Machine where
  platform : Platform
  env : String → Option String
  currentExe : Option String
  currentDir : Option String
  exists_ : String → Bool
  isFile : String → Bool
  isDir : String → Bool
  canonicalize : String → Option String
  readToString : String → Option String
  /-- The directories in a directory -/
  directories : String → Option (List String)
  createDirAll : String → Except String Unit
  /-- When a file was modified, if it exists and has that time -/
  modified : String → Option Nat
  outputLength : String → Except String Nat
  output : Invocation → Except String ProcessOutput
  /-- Whether a program ends well within three seconds -/
  responds : Invocation → Bool
  fromStr : String → Except String Sidecar.Json
  cargoManifestDir : Option String
  repoRootCandidates : List String
  packagedAssetsPresent : Bool
  packagedTarget : Except String (Option String)
  packagedToolchainVersion : Except String (Option String)
  resolveLinkAssets : NativeTarget → Bool → Except String LinkAssets
  detectWindowsFeatureLibs : String → List String
  toolchainFreeBuild : Bool
  compiledInList : String

inductive CompilerSource where
  | override | bundled | host
deriving DecidableEq

inductive CCompiler where
  | gcc (cmd : String) (source : CompilerSource)
  | clang (cmd : String) (source : CompilerSource)
  | msvc (clPath : String) (vcvars : Option String) (source : CompilerSource)
deriving DecidableEq

def gccOrClangCmd : CCompiler → Option (String × CompilerSource)
  | .gcc cmd source => some (cmd,source)
  | .clang cmd source => some (cmd,source)
  | .msvc _ _ _ => none

def toAsciiLowercase (s : String) : String := String.ofList (s.toList.map Char.toLower)

def eqIgnoreAsciiCase (s s' : String) : Bool := toAsciiLowercase s == toAsciiLowercase s'

/-- `str::contains` -/
def containsText (s part : String) : Bool := s.toList.tails.any (part.toList.isPrefixOf ·)

def lines (s : String) : List String := (Sources.lines s.toList).map String.ofList

/-- A program that runs others and says something to its user -/
abbrev Doing := Recorded Deed

def say (text : String) : Doing Unit := .perform (.say text)

section
variable (machine : Machine)

/-- `Command::output` -/
def runProgram (invocation : Invocation) : Doing (Except String ProcessOutput) := do
  Recorded.perform (.run invocation)
  return machine.output invocation

def commandExists (cmd : String) : Doing Bool := do
  let ran ← runProgram machine ⟨if machine.platform.windows then "where.exe" else "which",[cmd]⟩
  return match ran with
    | .ok output => output.success
    | .error _ => false

def envVarNonempty (name : String) : Option String :=
  ((machine.env name).map Sidecar.trimmed).filter (· ≠ "")

def resourceDirCandidates (resourceName : String) (explicit exePath : Option String) (includeCwd : Bool) : List String :=
  match explicit with
  | some path => [path]
  | none =>
    let beside := match exePath.bind fun path => (machine.platform.parents path).head? with
      | some exeDir => [machine.platform.join exeDir resourceName]
      | none => []
    if includeCwd then beside ++ [resourceName] else beside

def findFirstExistingDir (candidates : List String) : Option String := candidates.find? machine.isDir

def bundledToolchainPlatform : Option String :=
  if machine.platform.os = "windows" then some "windows"
  else if machine.platform.os = "linux" then some "linux" else none

def bundledToolchainBinDirs (toolchainDir platform : String) : List String :=
  let join := machine.platform.join
  (if platform = "windows" ∨ platform = "linux" then [join (join toolchainDir platform) "bin"] else []) ++
    [join toolchainDir "bin"]

def bundledCompilerNames (platform : String) : List String :=
  if platform = "windows" then ["clang.exe","gcc.exe","cl.exe"] else ["clang","gcc"]

def bundledCompilerCandidatePaths (toolchainDir platform : String) : List String :=
  (bundledToolchainBinDirs machine toolchainDir platform).flatMap fun binDir =>
    (bundledCompilerNames platform).map (machine.platform.join binDir)

def findVcvarsallFromCl (clPath : String) : Option String :=
  (machine.platform.parents clPath).findSome? fun parent =>
    let vcvars := machine.platform.join parent "Auxiliary\\Build\\vcvarsall.bat"
    if machine.platform.fileName parent = some "VC" ∧ machine.exists_ vcvars then some vcvars else none

def lowerFileName (cmd : String) : String := toAsciiLowercase ((machine.platform.fileName cmd).getD cmd)

def compilerFromCommand (cmd : String) (source : CompilerSource) : CCompiler :=
  let fileName := lowerFileName machine cmd
  if fileName = "cl" ∨ fileName = "cl.exe" then
    .msvc cmd (if machine.exists_ cmd then findVcvarsallFromCl machine cmd else none) source
  else if containsText fileName "clang" then .clang cmd source
  else .gcc cmd source

def compilerOverride (value : Option String) : Option CCompiler :=
  value.map fun cmd => compilerFromCommand machine cmd .override

def vswhere : String := "C:\\Program Files (x86)\\Microsoft Visual Studio\\Installer\\vswhere.exe"

/-- The last line that `vswhere` answers to a query -/
def askVswhere (query : List String) : Doing (Option String) := do
  if machine.exists_ vswhere then
    let ran ← runProgram machine ⟨vswhere,["-latest","-products","*","-requires",
      "Microsoft.VisualStudio.Component.VC.Tools.x86.x64"] ++ query⟩
    return match ran with
      | .ok output =>
        if output.success then
          (((lines output.stdout).filter fun line => Sidecar.trimmed line ≠ "").getLast?).map Sidecar.trimmed
        else none
      | .error _ => none
  else return none

def findVsClang : Doing (Option String) := do
  let answer ← askVswhere machine ["-property","installationPath"]
  return (answer.map (· ++ "\\VC\\Tools\\Llvm\\x64\\bin\\clang.exe")).filter machine.exists_

/-- The directories of the compilers of a Visual Studio, at the places it is installed to -/
def vcToolsDirs : List String :=
  ["C:\\Program Files\\Microsoft Visual Studio","C:\\Program Files (x86)\\Microsoft Visual Studio"].flatMap fun base =>
    ["2022","2019"].flatMap fun year =>
      ["Enterprise","Professional","Community","BuildTools"].map fun edition =>
        s!"{base}\\{year}\\{edition}\\VC\\Tools\\MSVC"

def withVcvars (cl : String) : String × Option String := (cl,findVcvarsallFromCl machine cl)

def clIn (vcTools : String) : Option String :=
  ((machine.directories vcTools).bind fun versions => (versions.mergeSort fun v w => decide (v ≤ w)).getLast?).bind
    fun latest =>
      let cl := machine.platform.join latest "bin\\Hostx64\\x64\\cl.exe"
      if machine.exists_ cl then some cl else none

def findMsvcCl : Doing (Option (String × Option String)) := do
  let answer ← askVswhere machine ["-find","VC\\Tools\\MSVC\\*\\bin\\Hostx64\\x64\\cl.exe"]
  match answer.filter machine.exists_ with
  | some cl => return some (withVcvars machine cl)
  | none => return (vcToolsDirs.findSome? (clIn machine)).map (withVcvars machine)

def compilerCanExecute (cmd : String) : Doing Bool := do
  Recorded.perform (.run ⟨cmd,["--version"]⟩)
  return machine.responds ⟨cmd,["--version"]⟩

def firstThatExecutes : List String → Doing (Option CCompiler)
  | [] => return none
  | candidate :: candidates => do
    if machine.isFile candidate then
      if ← compilerCanExecute machine candidate then return some (compilerFromCommand machine candidate .bundled)
      else firstThatExecutes candidates
    else firstThatExecutes candidates

def findBundledCCompilerInDir (toolchainDir platform : String) : Doing (Option CCompiler) :=
  firstThatExecutes machine (bundledCompilerCandidatePaths machine toolchainDir platform)

def findToolchainDir : Option String :=
  findFirstExistingDir machine
    (resourceDirCandidates machine "toolchain" (envVarNonempty machine "OSCAN_TOOLCHAIN_DIR") machine.currentExe false)

/-- A step of the discovery that only a host with Windows takes -/
def onWindows {α : Type} (step : Doing (Option α)) : Doing (Option α) :=
  if machine.platform.windows then step else return none

def findMsvcOnPath : Doing (Option CCompiler) := do
  if ← commandExists machine "cl.exe" then return some (.msvc "cl.exe" none .host)
  else return (← findMsvcCl machine).map fun (clPath,vcvars) => .msvc clPath vcvars .host

def findHostCCompiler : Doing (Option CCompiler) := do
  if ← commandExists machine "clang" then return some (.clang "clang" .host)
  else
    match ← onWindows machine (findVsClang machine) with
    | some clangPath => return some (.clang clangPath .host)
    | none =>
      if ← commandExists machine "gcc" then return some (.gcc "gcc" .host)
      else onWindows machine (findMsvcOnPath machine)

def findBundledCCompiler : Doing (Option CCompiler) :=
  match bundledToolchainPlatform machine, findToolchainDir machine with
  | some platform,some toolchainDir => findBundledCCompilerInDir machine toolchainDir platform
  | _,_ => return none

def findCCompiler : Doing (Option CCompiler) := do
  match compilerOverride machine (envVarNonempty machine "OSCAN_CC") with
  | some compiler => return some compiler
  | none =>
    match ← findBundledCCompiler machine with
    | some compiler => return some compiler
    | none => findHostCCompiler machine

end
end Oscan.Linking
