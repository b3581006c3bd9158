import Oscan.Sidecar.Package

/-! The manifest beside a runtime archive, as a link reads it. -/
namespace Oscan.Linking
open Sidecar (Json)

structure RuntimeArchiveManifest where
  cc : Option String
  ccFamily : Option String
  ccVersion : Option String
  ccTarget : Option String
  linkerFamily : Option String
  linkFlags : List String
  containsNativeShim : Bool
  nativeShimMember : Option String
  toolchainVersion : Option String
deriving DecidableEq

namespace Manifest

/-- The entries of a JSON object, by their names -/
abbrev Entries := List (String × Json)

def asObject : Json → Option Entries
  | .object entries => some entries
  | _ => none

/-- An entry that is an object itself -/
def objectAt (key : String) (entries : Entries) : Option Entries := (entries.lookup key).bind asObject

def strAt (key : String) (entries : Entries) : Option String := (entries.lookup key).bind Json.asStr

/-- The recorded compiler, unless it is no string -/
def readCc : Option Json → Option (Option String)
  | some (.string value) => if value ≠ "" then some (some value) else some none
  | none => some none
  | some _ => none

def readLinkFlags : Option Json → Option (List String)
  | some (.array values) => values.mapM Json.asStr
  | none => some []
  | some _ => none

/-- An archive that does not say so was built before it contained the shim. -/
def readContainsNativeShim : Option Json → Option Bool
  | some (.bool b) => some b
  | some _ => none
  | none => some false

end Manifest

open Manifest

def parseRuntimeManifest (fromStr : String → Except String Json) (text : String) : Option RuntimeArchiveManifest := do
  let value ← (fromStr text).toOption
  let object ← asObject value
  let cc ← readCc (object.lookup "cc")
  let toolchain := objectAt "toolchain" object
  let compiler := toolchain.bind (objectAt "compiler")
  let linker := toolchain.bind (objectAt "linker")
  let linkFlags ← readLinkFlags (object.lookup "link_flags")
  let containsNativeShim ← readContainsNativeShim (object.lookup "contains_native_shim")
  return {
    cc
    ccFamily := compiler.bind (strAt "family")
    ccVersion := compiler.bind (strAt "version")
    ccTarget := (compiler.bind (strAt "target")).orElse fun _ => strAt "cc_target" object
    linkerFamily := linker.bind (strAt "family")
    linkFlags
    containsNativeShim
    nativeShimMember := strAt "native_shim_member" object
    toolchainVersion := toolchain.bind (strAt "version") }

namespace RuntimeArchiveManifest

/-- Manifests that record the same, but for the compiler and the flags of the link -/
def SameBuild (m m' : RuntimeArchiveManifest) : Prop := m' = { m with cc := m'.cc, linkFlags := m'.linkFlags }

variable {m m' : RuntimeArchiveManifest}

theorem SameBuild.symm (same : m.SameBuild m') : m'.SameBuild m := by
  unfold SameBuild at same ⊢
  rw [same]

/-- What does not look at the compiler and the flags does not tell the manifests apart. -/
theorem SameBuild.congr {α : Type} (same : m.SameBuild m') {f : RuntimeArchiveManifest → α}
    (blind : ∀ m cc linkFlags, f { m with cc, linkFlags } = f m) : f m' = f m := by
  rw [same]
  exact blind m m'.cc m'.linkFlags

end RuntimeArchiveManifest

/-- Objects that differ only in `cc` and `link_flags` -/
def Manifest.DifferOnly (object object' : Entries) : Prop :=
  ∀ key, key ≠ "cc" → key ≠ "link_flags" → object.lookup key = object'.lookup key

theorem sameBuild_of_differOnly {fromStr : String → Except String Json} {text text' : String} {object object' : Entries}
    {m m' : RuntimeArchiveManifest} (valid : fromStr text = .ok (.object object))
    (valid' : fromStr text' = .ok (.object object')) (differ : DifferOnly object object')
    (parsed : parseRuntimeManifest fromStr text = some m) (parsed' : parseRuntimeManifest fromStr text' = some m') :
    m.SameBuild m' := by
  have toolchain := differ "toolchain" (by decide) (by decide)
  have target := differ "cc_target" (by decide) (by decide)
  have shim := differ "contains_native_shim" (by decide) (by decide)
  have named := differ "native_shim_member" (by decide) (by decide)
  unfold parseRuntimeManifest at parsed parsed'
  simp only [valid,valid',Except.toOption,asObject,Option.bind_eq_bind,Option.bind_some,
    Option.bind_eq_some_iff] at parsed parsed'
  obtain ⟨cc,_,linkFlags,_,contains,shimRead,made⟩ := parsed
  obtain ⟨cc',_,linkFlags',_,contains',shimRead',made'⟩ := parsed'
  have sameShim : contains = contains' := Option.some.inj (by rw [← shimRead,← shimRead',shim])
  cases made
  cases made'
  unfold RuntimeArchiveManifest.SameBuild
  simp only [objectAt,strAt,toolchain,target,named,sameShim]

end Oscan.Linking
