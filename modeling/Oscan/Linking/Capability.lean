import Oscan.Linking.RuntimeArchive

/-! The choice of the runtime archive by a scan of undefined symbols, for a link through a linker process and for a
link inside the compiler, and the definitions that either of them links against. -/
namespace Oscan.Linking

/-- A symbol of an object file; its name is missing where it cannot be read. -/
structure ObjectSymbol where
  name : Option String
  isUndefined : Bool

abbrev Bytes := List UInt8

/-- The machine that a link runs on, with the reader of object files and the compilers of C -/
structure Host where
  readFile : String → Except String Bytes
  parseObject : Bytes → Except String (List ObjectSymbol)
  /-- The objects in a library file -/
  members : Bytes → List Bytes
  /-- What the linker finds for a library that is named and not given by a path -/
  systemLibrary : String → Bytes
  compileC : String → Bytes
  /-- Whether the archive of a name contains the native shim, when there is such an archive -/
  runtimeArchive : String → Except String Bool
  /-- The refusal to run a C compiler, under the strict profile -/
  refuseIfStrict : String → String → Except String Unit
  /-- The target and the runtime archives that the compiler contains, by their profile -/
  assetsTarget : String
  assets : List String

structure LinkOptions where
  runtimeMode : RuntimeMode
  extraCFiles : List String
  extraCflags : List String
  extraObjects : List String
  extraLibs : List String

def fullPrefixes : List String := ["osc_img_","osc_svg_","osc_tt_"]

def graphicsPrefixes : List String := ["osc_gfx_","osc_canvas_","osc_clipboard_"]

def startsWithAny (prefixes : List String) (name : String) : Bool :=
  prefixes.any fun lead => lead.toList.isPrefixOf name.toList

/-- The loop over the names, which a name of the full profile ends -/
def scanSymbols : FreestandingProfile → List String → FreestandingProfile
  | profile,[] => profile
  | profile,name :: names =>
    if startsWithAny fullPrefixes name then .full
    else if startsWithAny graphicsPrefixes name then scanSymbols .graphics names
    else scanSymbols profile names

def profileForUndefinedSymbols (symbols : List String) : FreestandingProfile := scanSymbols .core symbols

def undefinedNames (symbols : List ObjectSymbol) : List String :=
  symbols.filterMap fun symbol => if symbol.isUndefined then symbol.name else none

variable (host : Host)

def freestandingProfile (objectPath : String) : FreestandingProfile :=
  match host.readFile objectPath with
  | .error _ => .full
  | .ok data =>
    match host.parseObject data with
    | .error _ => .full
    | .ok symbols => profileForUndefinedSymbols (undefinedNames symbols)

def freestandingProfileFromBytes (objectName : String) (data : Bytes) : Except String FreestandingProfile :=
  match host.parseObject data with
  | .error error => .error s!"failed to parse object '{objectName}': {error}"
  | .ok symbols => .ok (profileForUndefinedSymbols (undefinedNames symbols))

def isSystemLibraryName (value : String) : Bool :=
  match value.toList with
  | [] => false
  | first :: rest => first != '-' && (first :: rest).all fun c => c.isAlphanum || c == '_' || c == '+' || c == '-'

inductive ShimSource where
  | archiveMember | compileLocally

def resolveShimSource (mode : RuntimeMode) (archivePath : String) (containsShim : Bool) : Except String ShimSource :=
  if containsShim then .ok .archiveMember
  else match mode with
    | .freestanding => .error (s!"runtime archive '{archivePath}' predates the precompiled native shim (manifest " ++
        "contains_native_shim is false/absent); rebuild it with 'scripts/build-runtime-archive.ps1 -Mode " ++
        "freestanding' (or fetch a current release). The freestanding object backends no longer compile " ++
        "osc_native_shim.c locally.")
    | .hosted =>
      (host.refuseIfStrict "compiling runtime/osc_native_shim.c locally for this hosted build"
        ("rebuild the runtime archive with a current 'scripts/build-runtime-archive.ps1|.sh -Mode hosted' so the " ++
          "shim ships inside it")).map fun _ => .compileLocally

/-- What the archive of a name defines; one that predates the native shim is without it. -/
def archiveDefinitions (target : NativeTarget) (name : String) (containsShim : Bool) : List Definition :=
  match contract.find? (·.archiveName == name) with
  | none => []
  | some entry =>
    (entry.sources.filter fun source => containsShim || source != .nativeShim).flatMap (·.definitions target)

def linkProfile (objectPath : String) (options : LinkOptions) : FreestandingProfile :=
  if options.runtimeMode = .freestanding ∧ options.extraCFiles.isEmpty ∧ options.extraObjects.isEmpty ∧
      options.extraLibs.isEmpty then
    freestandingProfile host objectPath
  else .full

/-- The runtime definitions that the linker process is given, as far as a link comes to it -/
def linkExecutable (target : NativeTarget) (objectPath : String) (options : LinkOptions) :
    Except String (List Definition) :=
  let name := archiveName options.runtimeMode (linkProfile host objectPath options)
  match host.runtimeArchive name with
  | .error error => .error error
  | .ok containsShim =>
    (resolveShimSource host options.runtimeMode name containsShim).map fun
      | .archiveMember => archiveDefinitions target name containsShim
      | .compileLocally =>
        SourceFile.nativeShim.definitions target ++ archiveDefinitions target name containsShim

def readStrictInput (path : String) : Except String Bytes :=
  match host.readFile path with
  | .error error => .error s!"failed to read '{path}': {error}"
  | .ok bytes =>
    if "!<thin>\n".toUTF8.data.toList.isPrefixOf bytes then
      .error s!"thin archive '{path}' is not self-contained and cannot be used by the strict linker"
    else .ok bytes

def readLibraries : List String → Except String (List Bytes)
  | [] => .ok []
  | library :: libraries =>
    if isSystemLibraryName library then
      .error (s!"named library '{library}' is incompatible with the strict in-process linker; " ++
        "pass the archive's path")
    else
      match readStrictInput host library,readLibraries libraries with
      | .ok bytes,.ok rest => .ok (bytes :: rest)
      | .error error,_ => .error error
      | .ok _,.error error => .error error

def readObjects : List String → Except String (List Bytes)
  | [] => .ok []
  | object :: objects =>
    match readStrictInput host object,readObjects objects with
    | .ok bytes,.ok rest => .ok (bytes :: rest)
    | .error error,_ => .error error
    | .ok _,.error error => .error error

def NativeTarget.tag : NativeTarget → String
  | .windowsX64 => "windows-x86_64"
  | .linuxX64 => "linux-x86_64"
  | .linuxAarch64 => "linux-aarch64"
  | .linuxRiscv64 => "linux-riscv64"

def modeDefinitions (target : NativeTarget) (mode : String) : List Definition :=
  match contract.find? (·.mode == mode) with
  | none => []
  | some entry => entry.sources.flatMap (·.definitions target)

/-- The runtime definitions that the linker inside the compiler is given, as far as a link comes to it; only the
program's own object is scanned for the profile. -/
def linkInprocess (target : NativeTarget) (objectBytes : Bytes) (options : LinkOptions) :
    Except String (List Definition) :=
  if target ≠ .windowsX64 then
    .error s!"the in-process linker currently supports windows-x86_64 only, not {target.tag}"
  else if options.runtimeMode ≠ .freestanding then
    .error "the strict in-process linker supports freestanding runtime mode only"
  else if !options.extraCFiles.isEmpty || !options.extraCflags.isEmpty then
    .error "C inputs and C compiler flags are incompatible with the strict in-process linker"
  else if host.assetsTarget ≠ "windows-x86_64" then
    .error "the compiler does not contain windows-x86_64 link assets"
  else
    match freestandingProfileFromBytes host "program.o" objectBytes with
    | .error error => .error error
    | .ok profile =>
      match readObjects host options.extraObjects,readLibraries host options.extraLibs with
      | .ok _,.ok _ =>
        if profile.buildModeStr ∈ host.assets then .ok (modeDefinitions target profile.buildModeStr)
        else .error s!"the compiler does not contain the '{profile.buildModeStr}' runtime archive"
      | .error error,_ => .error error
      | .ok _,.error error => .error error

end Oscan.Linking
