import Oscan.Library.FileTree
import Oscan.Sources.Text

/-! The native-link assets that are staged beside the executable: their manifest, the checks on loading it, the
verification of the files and the guard for paths found elsewhere. -/
namespace Oscan.Sidecar
open Library.FileTree

inductive Json where
  | null
  | bool (b : Bool)
  /-- A number that is an unsigned 64-bit integer -/
  | unsigned (n : Nat)
  | number (text : String)
  | string (s : String)
  | array (items : List Json)
  | object (fields : List (String × Json))

namespace Json

def get (key : String) : Json → Option Json
  | object fields => fields.lookup key
  | _ => none

def asStr : Json → Option String
  | string s => some s
  | _ => none

def asU64 : Json → Option Nat
  | unsigned n => some n
  | _ => none

def asArray : Json → Option (List Json)
  | array items => some items
  | _ => none

end Json

/-- The file system and the libraries that the checks rely on; a file without contents cannot be read. -/
structure Host where
  tree : Library.FileTree.Tree (Option (List UInt8))
  fromStr : String → Except String Json
  sha256HexOfBytes : List UInt8 → String
  ioMessage : IoError → String
  debugStr : String → String

def displayPath (p : Path) : String := (if p.absolute then "/" else "") ++ "/".intercalate p.pieces

def displayPlace (place : Place) : String := "/" ++ "/".intercalate place

def sidecarDirName : String := "native-link"

def manifestFileName : String := "native-link-assets.json"

def supportedSchemaVersion : Nat := 1

def knownRoles : List String := ["linker","linker_runtime","import_lib","compiler_builtins"]

def requiredImportLibs : List String := ["kernel32","ws2_32","user32","gdi32","secur32","crypt32"]

structure RequiredAssets where
  named : List (String × String)
  compilerBuiltins : Bool
  importLibs : Bool
  siblingRuntime : Bool

def windowsX86_64Required : RequiredAssets :=
  ⟨[("linker","ld.lld.exe"),("linker_runtime","libLLVM-22.dll"),("linker_runtime","libc++.dll"),
    ("linker_runtime","libunwind.dll"),("linker_runtime","libwinpthread-1.dll"),("linker_runtime","libffi-8.dll")],
    true,true,true⟩

def linuxRequired : RequiredAssets := ⟨[],false,false,false⟩

def requiredAssetsFor (target : String) : RequiredAssets :=
  if target = "windows-x86_64" then windowsX86_64Required else linuxRequired

structure SidecarEntry where
  role : String
  name : String
  lib : Option String
  installSubpath : String
  sha256 : String
  path : Path
deriving DecidableEq

structure SidecarPackage where
  root : Path
  target : String
  toolchainVersion : Option String
  entries : List SidecarEntry
deriving DecidableEq

structure ExtractedAsset where
  role : String
  name : String
  lib : Option String
  path : Path
deriving DecidableEq

inductive AssetSource where
  | embedded | sidecar
deriving DecidableEq

structure ExtractedAssetSet where
  source : AssetSource
  dir : Path
  assets : List ExtractedAsset
deriving DecidableEq

namespace ExtractedAssetSet

def find (set : ExtractedAssetSet) (role : String) (lib : Option String) : Option ExtractedAsset :=
  set.assets.find? fun a => a.role == role && a.lib == lib

def linker (set : ExtractedAssetSet) : Option ExtractedAsset := set.find "linker" none

def compilerBuiltins (set : ExtractedAssetSet) : Option ExtractedAsset := set.find "compiler_builtins" none

def importLib (set : ExtractedAssetSet) (libName : String) : Option ExtractedAsset :=
  set.assets.find? fun a => a.role == "import_lib" && a.lib == some libName

end ExtractedAssetSet

def rootFor (exeDir : Path) : Path := exeDir.join (Path.new sidecarDirName)

def manifestPathFor (exeDir : Path) : Path := (rootFor exeDir).join (Path.new manifestFileName)

def sidecarError (path : Path) (reason : String) : String :=
  s!"packaged native-link assets are unusable: '{displayPath path}' {reason}. This compiler only uses " ++
    s!"native-link assets it can verify against '{sidecarDirName}/{manifestFileName}' " ++
    "beside its own executable, and never falls back to a C toolchain or to unverified files; reinstall this package"

/-- An error on a condition -/
def refuse (c : Prop) [Decidable c] (message : String) : Except String Unit := if c then .error message else .ok ()

/-- A check that is made on a condition -/
def required (c : Bool) (check : Except String Unit) : Except String Unit := if c then check else .ok ()

variable (host : Host)

def Host.read (p : Path) : Except IoError (List UInt8) :=
  (canonicalize host.tree p).bind fun place =>
    match host.tree.node place with
    | some (.file (some bytes)) => .ok bytes
    | some (.file none) => .error .permissionDenied
    | some .dir => .error .isADirectory
    | _ => .error .notFound

def Host.readToString (p : Path) : Except IoError String :=
  (host.read p).bind fun bytes =>
    match String.fromUTF8? ⟨bytes.toArray⟩ with
    | some text => .ok text
    | none => .error .invalidData

def sha256HexOfFile (path : Path) : Except String String :=
  match host.read path with
  | .ok bytes => .ok (host.sha256HexOfBytes bytes)
  | .error e => .error s!"error reading '{displayPath path}' to verify its checksum: {host.ioMessage e}"

def debugComponent : Component → String
  | .rootDir => "RootDir"
  | .curDir => "CurDir"
  | .parentDir => "ParentDir"
  | .normal name => s!"Normal({host.debugStr name})"

def validatedRelativeSubpath (installSubpath : String) : Except String Path :=
  let raw := Path.new installSubpath
  match raw.components.find? (fun c => !c matches .normal _) with
  | some other => .error (s!"'{installSubpath}' contains a disallowed path component ({debugComponent host other}); " ++
      "only a strict relative path with plain segments is permitted")
  | none => if raw.components = [] then .error s!"'{installSubpath}' is empty" else .ok raw

def trimmed (s : String) : String := String.ofList (Sources.trim s.toList)

def isHexDigit (c : Char) : Bool := c.isDigit || ('a' ≤ c && c ≤ 'f') || ('A' ≤ c && c ≤ 'F')

def field (manifestPath : Path) (raw : Json) (key : String) : Except String String :=
  match ((raw.get key).bind Json.asStr).map trimmed |>.filter (· ≠ "") with
  | some value => .ok value
  | none => .error (sidecarError manifestPath s!"one of its entries has no non-empty '{key}' field")

def readEntry (manifestPath : Path) (raw : Json) : Except String SidecarEntry := do
  let role ← field manifestPath raw "role"
  refuse (role ∉ knownRoles) (sidecarError manifestPath
    (s!"it declares an asset with unknown role '{role}' (known roles: " ++ ", ".intercalate knownRoles ++ ")"))
  let name ← field manifestPath raw "name"
  let installSubpath ← field manifestPath raw "install_subpath"
  let sha256 ← field manifestPath raw "sha256"
  refuse (sha256.utf8ByteSize ≠ 64 ∨ sha256.toList.all isHexDigit = false)
    (sidecarError manifestPath s!"asset '{name}' has a malformed sha256 value '{sha256}'")
  let lib := (raw.get "lib").bind Json.asStr
  let relative ← (validatedRelativeSubpath host installSubpath).mapError fun reason =>
    sidecarError manifestPath s!"asset '{name}' has an unusable install_subpath: {reason}"
  match manifestPath.parent with
  | none => throw "the manifest path always has the sidecar root as its parent"
  | some root => return ⟨role,name,lib,installSubpath,sha256,root.join relative⟩

def debugLib : Option String → String
  | none => "None"
  | some lib => s!"Some({host.debugStr lib})"

def readEntries (manifestPath : Path) : List SidecarEntry → List Json → Except String (List SidecarEntry)
  | entries,[] => .ok entries
  | entries,raw :: rest => do
    let entry ← readEntry host manifestPath raw
    refuse (∃ seen ∈ entries, seen.installSubpath = entry.installSubpath) (sidecarError manifestPath
      s!"it lists '{entry.installSubpath}' more than once; every asset must appear exactly once")
    refuse (∃ seen ∈ entries, seen.role = entry.role ∧ seen.lib = entry.lib ∧ seen.role ≠ "linker_runtime")
      (sidecarError manifestPath (s!"it lists two '{entry.role}' entries for the same library " ++
        s!"({debugLib host entry.lib}); the role/lib pair must identify exactly one asset"))
    readEntries manifestPath (entries ++ [entry]) rest

def checkStagedFile (canonicalRoot : Place) (entry : SidecarEntry) : Except String Unit :=
  match symlinkMetadata host.tree entry.path with
  | .error e => .error (sidecarError entry.path
      s!"native-link-assets.json declares it as '{entry.installSubpath}', but it cannot be read: {host.ioMessage e}")
  | .ok (.link _) => .error (sidecarError entry.path
      "it is a symlink/reparse point; sidecar assets are never followed through one")
  | .ok .dir => .error (sidecarError entry.path "it is not a regular file")
  | .ok (.file _) =>
    match canonicalize host.tree entry.path with
    | .error e => .error (sidecarError entry.path s!"cannot canonicalize it: {host.ioMessage e}")
    | .ok canonical =>
      if canonicalRoot.isPrefixOf canonical then .ok ()
      else .error (sidecarError entry.path (s!"it resolves to '{displayPlace canonical}', which is outside the " ++
        s!"sidecar root '{displayPlace canonicalRoot}'"))

def canonicalParent (path : Path) : Except String Place :=
  match path.parent with
  | none => .error (sidecarError path "it has no parent directory")
  | some parent => (canonicalize host.tree parent).mapError fun e =>
    sidecarError parent s!"cannot canonicalize it: {host.ioMessage e}"

namespace SidecarPackage
variable (package : SidecarPackage)

def ofRole (role : String) : List SidecarEntry := package.entries.filter (·.role == role)

def linkerEntry : Option SidecarEntry := package.entries.find? (·.role == "linker")

def checkRuntimePlacement (manifestPath : Path) : Except String Unit :=
  match package.linkerEntry with
  | none => .error (sidecarError manifestPath "it declares no 'linker' role asset")
  | some linker => do
    let linkerDir ← canonicalParent host linker.path
    (package.ofRole "linker_runtime").forM fun entry => do
      let entryDir ← canonicalParent host entry.path
      refuse (entryDir ≠ linkerDir) (sidecarError manifestPath
        (s!"it stages '{entry.name}' in '{entry.installSubpath}' but the linker " ++
          s!"'{linker.name}' in '{linker.installSubpath}'; every runtime library the linker loads implicitly must be " ++
          "its sibling in one directory, or the operating system will resolve it from somewhere else entirely"))

def checkRequiredAssets (manifestPath : Path) : Except String Unit := do
  let assets := requiredAssetsFor package.target
  assets.named.forM fun (role,name) =>
    refuse (¬∃ entry ∈ package.entries, entry.role = role ∧ entry.name = name) (sidecarError manifestPath
      (s!"it does not declare the required '{role}' asset '{name}' for target '{package.target}'; this package is " ++
        "incomplete"))
  required assets.siblingRuntime (package.checkRuntimePlacement host manifestPath)
  refuse (assets.compilerBuiltins = true ∧ ¬∃ entry ∈ package.entries, entry.role = "compiler_builtins")
    (sidecarError manifestPath ("it declares no 'compiler_builtins' asset, which target " ++
      s!"'{package.target}' requires; this package is incomplete"))
  required assets.importLibs (requiredImportLibs.forM fun lib =>
    refuse (¬∃ entry ∈ package.entries, entry.role = "import_lib" ∧ entry.lib = some lib) (sidecarError manifestPath
      (s!"it does not declare the '{lib}' import library, which every link for target '{package.target}' " ++
        "requests; this package is incomplete")))

def verifyEntry (entry : SidecarEntry) : Except String Unit := do
  let actual ← sha256HexOfFile host entry.path
  refuse (actual.toLower ≠ entry.sha256.toLower) (sidecarError entry.path
    (s!"its SHA-256 is {actual}, but native-link-assets.json declares {entry.sha256}; this package is corrupt or has " ++
      "been tampered with"))

def verifyAll : Except String ExtractedAssetSet := do
  let assets ← package.entries.mapM fun entry => do
    verifyEntry host entry
    return (⟨entry.role,entry.name,entry.lib,entry.path⟩ : ExtractedAsset)
  return ⟨.sidecar,package.root,assets⟩

def verifyRuntimeClosure : Except String Unit := (package.ofRole "linker_runtime").forM (verifyEntry host)

def runtimeDir : Option Place :=
  package.linkerEntry.bind fun linker =>
    linker.path.parent.bind fun parent => (canonicalize host.tree parent).toOption

def entryForPath (path : Path) : Option SidecarEntry :=
  match canonicalize host.tree path with
  | .error _ => none
  | .ok canonical =>
    package.entries.find? fun entry => (canonicalize host.tree entry.path).toOption == some canonical

end SidecarPackage

/-- What the manifest describes, when its file has been found -/
def loadManifest (root manifestPath : Path) : Except String SidecarPackage := do
  let canonicalRoot ← (canonicalize host.tree root).mapError fun e =>
    sidecarError root s!"cannot canonicalize it: {host.ioMessage e}"
  let text ← (host.readToString manifestPath).mapError fun e =>
    sidecarError manifestPath s!"cannot read it: {host.ioMessage e}"
  let value ← (host.fromStr text).mapError fun e => sidecarError manifestPath s!"it is not valid JSON: {e}"
  match (value.get "schema_version").bind Json.asU64 with
  | none => throw (sidecarError manifestPath "it has no numeric 'schema_version' field")
  | some version =>
    refuse (version ≠ supportedSchemaVersion) (sidecarError manifestPath
      (s!"it declares schema_version {version}, but this compiler only understands version " ++
        s!"{supportedSchemaVersion}"))
    match ((value.get "target").bind Json.asStr).map trimmed |>.filter (· ≠ "") with
    | none => throw (sidecarError manifestPath "it has no non-empty 'target' field")
    | some target =>
      let toolchainVersion := ((value.get "toolchain").bind (Json.get "version")).bind Json.asStr
      match value.get "linker",(value.get "assets").bind Json.asArray with
      | none,_ => throw (sidecarError manifestPath "it has no 'linker' entry")
      | _,none => throw (sidecarError manifestPath "it has no 'assets' array")
      | some linker,some assets =>
        let entries ← readEntries host manifestPath [] (linker :: assets)
        refuse (¬∃ entry ∈ entries, entry.role = "linker")
          (sidecarError manifestPath "it declares no 'linker' role asset")
        let package : SidecarPackage := ⟨root,target,toolchainVersion,entries⟩
        package.entries.forM (checkStagedFile host canonicalRoot)
        package.checkRequiredAssets host manifestPath
        return package

def loadFrom (exeDir : Path) : Except String (Option SidecarPackage) :=
  let root := rootFor exeDir
  let manifestPath := manifestPathFor exeDir
  if exeDir.absolute = false then
    .error (s!"refusing to look for native-link sidecar assets under relative path '{displayPath exeDir}': the " ++
      "sidecar root is always an absolute, executable-relative directory")
  else
    match symlinkMetadata host.tree root with
    | .ok (.link _) => .error (sidecarError root ("it is a symlink/reparse point (junction on Windows); the " ++
        "native-link directory is never followed through one"))
    | .ok (.file _) => .error (sidecarError root "it is not a directory")
    | .error .notFound => .ok none
    | .error e => .error (sidecarError root s!"cannot read its metadata: {host.ioMessage e}")
    | .ok .dir =>
      match symlinkMetadata host.tree manifestPath with
      | .error .notFound => .ok none
      | .error e => .error (sidecarError manifestPath s!"cannot read its metadata: {host.ioMessage e}")
      | .ok (.link _) => .error (sidecarError manifestPath
          "it is a symlink/reparse point; the sidecar manifest is never followed through one")
      | .ok .dir => .error (sidecarError manifestPath "it is not a regular file")
      | .ok (.file _) => (loadManifest host root manifestPath).map some

def canonicallyInside (root path : Path) : Bool :=
  match canonicalize host.tree root,canonicalize host.tree path with
  | .ok root,.ok path => root.isPrefixOf path
  | _,_ => false

/-- The guard for a path that was found in another way -/
def requireVerifiedIfInsideFrom (exeDir path : Path) : Except String Unit :=
  let root := rootFor exeDir
  let lexicallyInside := path.startsWith root
  let canonicallyInside := canonicallyInside host root path
  if lexicallyInside = false ∧ canonicallyInside = false then .ok ()
  else do
    refuse (lexicallyInside = true ∧ (canonicalize host.tree path).toBool = true ∧ canonicallyInside = false) (sidecarError path
      ("it lies inside the native-link sidecar directory but resolves outside it (a symlink/junction redirect); such " ++
        "a redirect is never followed"))
    refuse ((symlinkMetadata host.tree path).toOption matches some (.link _)) (sidecarError path
      "it is a symlink/reparse point (junction on Windows); sidecar assets are never loaded through one")
    match ← loadFrom host exeDir with
    | none => throw (sidecarError path ("it lies inside the native-link sidecar directory, but that directory has " ++
        "no native-link-assets.json to verify it against"))
    | some package =>
      match package.entryForPath host path with
      | none => throw (sidecarError path ("it lies inside the native-link sidecar directory, but " ++
          "native-link-assets.json does not declare it; unverified files there are never loaded"))
      | some entry =>
        refuse (entry.role ≠ "linker_runtime") (sidecarError path
          (s!"native-link-assets.json declares it with role '{entry.role}', not 'linker_runtime'; only the runtime " ++
            "libraries staged beside the linker are ever loaded as shared libraries"))
        match package.runtimeDir host with
        | none => package.verifyRuntimeClosure host
        | some runtimeDir =>
          let entryDir ← canonicalParent host entry.path
          refuse (entryDir ≠ runtimeDir) (sidecarError path ("it is not staged in the same directory as the packaged " ++
            "linker; the code generator and the linker must share one directory"))
          package.verifyRuntimeClosure host

end Oscan.Sidecar
