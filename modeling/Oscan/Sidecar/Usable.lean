import Mathlib
import Oscan.Sidecar.Loaded

/-! When a package that loads and verifies serves every later lookup, with every file declared once. -/
namespace Oscan.Sidecar
open Library.FileTree

variable {host : Host} {exeDir : Path} {package : SidecarPackage} {assets : ExtractedAssetSet} {canonicalRoot : Place}

/-- The file has the hash that is declared for it. -/
def HashMatches (host : Host) (entry : SidecarEntry) : Prop :=
  ∃ bytes, host.read entry.path = .ok bytes ∧ (host.sha256HexOfBytes bytes).toLower = entry.sha256.toLower

theorem verifyEntry_ok {entry : SidecarEntry} :
    SidecarPackage.verifyEntry host entry = .ok () ↔ HashMatches host entry := by
  unfold SidecarPackage.verifyEntry sha256HexOfFile HashMatches
  cases host.read entry.path with
  | error e => simp [bind,Except.bind]
  | ok bytes => simp [bind,Except.bind]

def assetOf (entry : SidecarEntry) : ExtractedAsset := ⟨entry.role,entry.name,entry.lib,entry.path⟩

theorem verifyAll_ok (verified : package.verifyAll host = .ok assets) :
    assets.assets = package.entries.map assetOf ∧ ∀ entry ∈ package.entries, HashMatches host entry := by
  have each : ∀ {entries : List SidecarEntry} {found : List ExtractedAsset},
      (entries.mapM fun entry => do
        SidecarPackage.verifyEntry host entry
        return (⟨entry.role,entry.name,entry.lib,entry.path⟩ : ExtractedAsset)) = .ok found →
      found = entries.map assetOf ∧ ∀ entry ∈ entries, HashMatches host entry := by
    intro entries
    induction entries with
    | nil =>
      intro found done
      cases done
      simp
    | cons entry entries later =>
      intro found done
      simp only [List.mapM_cons,bind_ok,pure_ok] at done
      obtain ⟨first,⟨_,own,rfl⟩,rest,others,rfl⟩ := done
      obtain ⟨rfl,all⟩ := later others
      exact ⟨rfl,List.forall_mem_cons.mpr ⟨verifyEntry_ok.mp own,all⟩⟩
  simp only [SidecarPackage.verifyAll,bind_ok,pure_ok] at verified
  obtain ⟨found,done,rfl⟩ := verified
  exact each done

theorem verifyAll_of (matches_ : ∀ entry ∈ package.entries, HashMatches host entry) :
    package.verifyAll host = .ok ⟨.sidecar,package.root,package.entries.map assetOf⟩ := by
  have each : ∀ {entries : List SidecarEntry}, (∀ entry ∈ entries, HashMatches host entry) →
      (entries.mapM fun entry => do
        SidecarPackage.verifyEntry host entry
        return (⟨entry.role,entry.name,entry.lib,entry.path⟩ : ExtractedAsset)) = .ok (entries.map assetOf) := by
    intro entries
    induction entries with
    | nil => exact fun _ => rfl
    | cons entry entries later =>
      intro all
      obtain ⟨own,rest⟩ := List.forall_mem_cons.mp all
      simp only [List.mapM_cons,bind_ok,pure_ok]
      exact ⟨_,⟨(),verifyEntry_ok.mpr own,rfl⟩,_,later rest,rfl⟩
  simp only [SidecarPackage.verifyAll,bind_ok,pure_ok]
  exact ⟨_,each matches_,rfl⟩

/-- The asset is the file of an entry, with the hash declared there. -/
def Checked (host : Host) (package : SidecarPackage) (a : ExtractedAsset) : Prop :=
  ∃ entry ∈ package.entries, a = assetOf entry ∧ HashMatches host entry

/-- Every lookup of the link succeeds on a file whose hash was checked, and no file is declared twice. -/
structure Usable (host : Host) (package : SidecarPackage) (assets : ExtractedAssetSet) : Prop where
  linker : ∃ a, assets.linker = some a ∧ Checked host package a
  builtins : (requiredAssetsFor package.target).compilerBuiltins = true →
    ∃ a, assets.compilerBuiltins = some a ∧ Checked host package a
  imports : (requiredAssetsFor package.target).importLibs = true →
    ∀ lib ∈ requiredImportLibs, ∃ a, assets.importLib lib = some a ∧ Checked host package a
  distinct : package.entries.Pairwise fun e e' => canonicalize host.tree e.path ≠ canonicalize host.tree e'.path

/-- The linker, and the builtins where they are required, are declared without a library; files of one name are
staged in different directories, however these are spelled. -/
structure WellDeclared (host : Host) (package : SidecarPackage) : Prop where
  linker : ∃ entry ∈ package.entries, entry.role = "linker" ∧ entry.lib = none
  builtins : (requiredAssetsFor package.target).compilerBuiltins = true →
    ∃ entry ∈ package.entries, entry.role = "compiler_builtins" ∧ entry.lib = none
  apart : package.entries.Pairwise fun e e' => e.path.pieces.getLast? = e'.path.pieces.getLast? →
    canonicalParent host e.path ≠ canonicalParent host e'.path

theorem found_iff (listed : assets.assets = package.entries.map assetOf)
    (matches_ : ∀ entry ∈ package.entries, HashMatches host entry) (wanted : ExtractedAsset → Bool) :
    (∃ a, assets.assets.find? wanted = some a ∧ Checked host package a) ↔
      ∃ entry ∈ package.entries, wanted (assetOf entry) = true := by
  rw [listed]
  constructor
  · intro ⟨a,found,_⟩
    obtain ⟨entry,member,rfl⟩ := List.mem_map.mp (List.mem_of_find?_eq_some found)
    exact ⟨entry,member,List.find?_some found⟩
  · intro ⟨entry,member,wants⟩
    have some_ : ((package.entries.map assetOf).find? wanted).isSome = true :=
      List.find?_isSome.mpr ⟨_,List.mem_map_of_mem member,wants⟩
    obtain ⟨a,found⟩ := Option.isSome_iff_exists.mp some_
    obtain ⟨own,inside,rfl⟩ := List.mem_map.mp (List.mem_of_find?_eq_some found)
    exact ⟨_,found,own,inside,rfl,matches_ own inside⟩

theorem wanted_iff {entry : SidecarEntry} {role : String} {lib : Option String} :
    ((assetOf entry).role == role && (assetOf entry).lib == lib) = true ↔ entry.role = role ∧ entry.lib = lib := by
  simp [assetOf]

theorem canonical_distinct {e e' : SidecarEntry} (staged : checkStagedFile host canonicalRoot e = .ok ())
    (staged' : checkStagedFile host canonicalRoot e' = .ok ()) :
    canonicalize host.tree e.path ≠ canonicalize host.tree e'.path ↔
      (e.path.pieces.getLast? = e'.path.pieces.getLast? → canonicalParent host e.path ≠ canonicalParent host e'.path) := by
  obtain ⟨_,before,name,place,file,-⟩ := checkStagedFile_staged staged
  obtain ⟨_,before',name',place',file',-⟩ := checkStagedFile_staged staged'
  rw [file.canonical,file'.canonical,canonicalParent_staged file,canonicalParent_staged file',file.pieces,file'.pieces]
  simp only [List.getLast?_concat,ne_eq,Except.ok.injEq,Option.some.injEq]
  constructor
  · rintro apart rfl rfl
    exact apart rfl
  · intro apart same
    obtain ⟨places,names⟩ := List.append_inj' same rfl
    exact apart (List.singleton_inj.mp names) places

theorem imports_declared (loaded : Loaded host exeDir package canonicalRoot)
    (needed : (requiredAssetsFor package.target).importLibs = true) {lib : String} (member : lib ∈ requiredImportLibs) :
    ∃ entry ∈ package.entries, entry.role = "import_lib" ∧ entry.lib = some lib := by
  have checks := loaded.required
  simp only [SidecarPackage.checkRequiredAssets,bind_ok,required_ok] at checks
  obtain ⟨_,-,_,-,_,-,each⟩ := checks
  simpa using forM_ok.mp (each needed) lib member

/-- A package that loads and verifies is usable exactly if it is well declared. -/
theorem usable_iff (host : Host) (exeDir : Path) (package : SidecarPackage) (assets : ExtractedAssetSet)
    (loaded : loadFrom host exeDir = .ok (some package)) (verified : package.verifyAll host = .ok assets) :
    Usable host package assets ↔ WellDeclared host package := by
  obtain ⟨canonicalRoot,loaded⟩ := loadFrom_loaded loaded
  obtain ⟨listed,matches_⟩ := verifyAll_ok verified
  have finds := found_iff listed matches_
  have apart : (package.entries.Pairwise fun e e' => canonicalize host.tree e.path ≠ canonicalize host.tree e'.path) ↔
      package.entries.Pairwise fun e e' => e.path.pieces.getLast? = e'.path.pieces.getLast? →
        canonicalParent host e.path ≠ canonicalParent host e'.path :=
    List.Pairwise.iff_of_mem fun first second =>
      canonical_distinct (loaded.staged _ first) (loaded.staged _ second)
  constructor
  · intro ⟨linker,builtins,_,distinct⟩
    refine ⟨?_,fun required => ?_,apart.mp distinct⟩
    · obtain ⟨entry,member,wanted⟩ := (finds _).mp linker
      exact ⟨entry,member,wanted_iff.mp wanted⟩
    · obtain ⟨entry,member,wanted⟩ := (finds _).mp (builtins required)
      exact ⟨entry,member,wanted_iff.mp wanted⟩
  · intro ⟨⟨entry,member,own⟩,builtins,different⟩
    refine ⟨(finds _).mpr ⟨entry,member,wanted_iff.mpr own⟩,fun required => ?_,fun required lib inside => ?_,
      apart.mpr different⟩
    · obtain ⟨entry,member,own⟩ := builtins required
      exact (finds _).mpr ⟨entry,member,wanted_iff.mpr own⟩
    · obtain ⟨entry,member,own⟩ := imports_declared loaded required inside
      exact (finds _).mpr ⟨entry,member,wanted_iff.mpr own⟩

/-- The hash of an empty file -/
def emptyHash : String := "e3b0c44298fc1c149afbf4c8996fb92427ae41e4649b934ca495991b7852b855"

def manifestEntry (role name lib : String) : String :=
  "\x7b\"role\":\"" ++ role ++ "\",\"name\":\"" ++ name ++ "\"" ++ lib ++ ",\"install_subpath\":\"bin/" ++ name ++
    "\",\"sha256\":\"" ++ emptyHash ++ "\"\x7d"

def manifestJson (role name : String) (lib : List (String × Json)) : Json :=
  .object ([("role",.string role),("name",.string name)] ++ lib ++
    [("install_subpath",.string ("bin/" ++ name)),("sha256",.string emptyHash)])

/-- A manifest with a linker and a runtime library -/
def manifestText (lib : String) : String :=
  "\x7b\"schema_version\":1,\"target\":\"linux-x86_64\",\"linker\":" ++ manifestEntry "linker" "ld" lib ++
    ",\"assets\":[" ++ manifestEntry "linker_runtime" "libz.so" "" ++ "]\x7d"

/-- A package under `/app` whose files are empty -/
def stagedHost (text : String) (lib : List (String × Json)) : Host where
  tree := Library.FileTree.Tree.ofList [([],.dir),(["app"],.dir),(["app","native-link"],.dir),(["app","native-link","bin"],.dir),
    (["app","native-link","native-link-assets.json"],.file (some text.toUTF8.data.toList)),
    (["app","native-link","bin","ld"],.file (some [])),(["app","native-link","bin","libz.so"],.file (some []))]
    [] rfl rfl (by simp [List.lookup])
  fromStr s := if s = text then .ok (.object [("schema_version",.unsigned 1),("target",.string "linux-x86_64"),
    ("linker",manifestJson "linker" "ld" lib),("assets",.array [manifestJson "linker_runtime" "libz.so" []])])
    else .error "expected value at line 1 column 1"
  sha256HexOfBytes _ := emptyHash
  ioMessage _ := "No such file or directory (os error 2)"
  debugStr s := "\"" ++ s ++ "\""

def stagedPackage (lib : Option String) : SidecarPackage :=
  ⟨⟨true,["app","native-link"]⟩,"linux-x86_64",none,
    [⟨"linker","ld",lib,"bin/ld",emptyHash,⟨true,["app","native-link","bin","ld"]⟩⟩,
      ⟨"linker_runtime","libz.so",none,"bin/libz.so",emptyHash,⟨true,["app","native-link","bin","libz.so"]⟩⟩]⟩

section Staged
variable (text : String) (json : List (String × Json))

theorem staged_root : rootFor ⟨true,["app"]⟩ = ⟨true,["app","native-link"]⟩ := by decide +kernel

theorem staged_manifest :
    manifestPathFor ⟨true,["app"]⟩ = ⟨true,["app","native-link","native-link-assets.json"]⟩ := by
  decide +kernel

theorem staged_text : (stagedHost text json).readToString (manifestPathFor ⟨true,["app"]⟩) = .ok text := by
  have bytes : (stagedHost text json).read (manifestPathFor ⟨true,["app"]⟩) = .ok text.toUTF8.data.toList := by
    rw [staged_manifest]
    rfl
  have decoded : String.fromUTF8? ⟨text.toUTF8.data.toList.toArray⟩ = some text := by
    rw [Array.toArray_toList]
    exact dif_pos text.isValidUTF8
  unfold Host.readToString
  rw [bytes]
  simp only [Except.bind,decoded]

theorem staged_loadFrom {package : SidecarPackage} (loaded : loadManifest (stagedHost text json) (rootFor ⟨true,["app"]⟩)
    (manifestPathFor ⟨true,["app"]⟩) = .ok package) :
    loadFrom (stagedHost text json) ⟨true,["app"]⟩ = .ok (some package) := by
  have root : symlinkMetadata (stagedHost text json).tree (rootFor ⟨true,["app"]⟩) = .ok .dir := by
    rw [staged_root]
    rfl
  have manifest : symlinkMetadata (stagedHost text json).tree (manifestPathFor ⟨true,["app"]⟩) =
      .ok (.file (some text.toUTF8.data.toList)) := by
    rw [staged_manifest]
    rfl
  unfold loadFrom
  rw [if_neg (by decide),root]
  simp only [manifest,loaded]
  rfl

end Staged

theorem staged_loads : loadFrom (stagedHost (manifestText "") []) ⟨true,["app"]⟩ = .ok (some (stagedPackage none)) := by
  apply staged_loadFrom
  unfold loadManifest
  rw [staged_text]
  decide +kernel

def stagedAssets (lib : Option String) : ExtractedAssetSet :=
  ⟨.sidecar,⟨true,["app","native-link"]⟩,(stagedPackage lib).entries.map assetOf⟩

theorem staged_verifies (text : String) (json : List (String × Json)) (lib : Option String) :
    (stagedPackage lib).verifyAll (stagedHost text json) = .ok (stagedAssets lib) := by
  apply verifyAll_of
  intro entry member
  rcases List.mem_cons.mp member with rfl | member
  · exact ⟨[],rfl,rfl⟩
  · obtain rfl := List.mem_singleton.mp member
    exact ⟨[],rfl,rfl⟩

theorem staged_usable : Usable (stagedHost (manifestText "") []) (stagedPackage none) (stagedAssets none) := by
  refine (usable_iff _ ⟨true,["app"]⟩ _ _ staged_loads (staged_verifies _ _ _)).mpr ⟨?_,?_,?_⟩
  · exact ⟨_,List.mem_cons_self,rfl,rfl⟩
  · exact fun needed => absurd needed (by decide)
  · exact List.pairwise_pair.mpr fun same => absurd same (by decide)

/-- A linker that is declared with a library loads and verifies, and is not found. -/
theorem labelled_lost : ∃ host package assets, loadFrom host ⟨true,["app"]⟩ = .ok (some package) ∧
    package.verifyAll host = .ok assets ∧ assets.linker = none ∧ ¬Usable host package assets := by
  have lost : (stagedAssets (some "gnu")).linker = none := rfl
  have loads : loadFrom (stagedHost (manifestText ",\"lib\":\"gnu\"") [("lib",.string "gnu")]) ⟨true,["app"]⟩ =
      .ok (some (stagedPackage (some "gnu"))) := by
    apply staged_loadFrom
    unfold loadManifest
    rw [staged_text]
    decide +kernel
  refine ⟨_,_,_,loads,staged_verifies _ _ _,lost,fun usable => ?_⟩
  obtain ⟨a,found,-⟩ := usable.linker
  rw [lost] at found
  cases found

end Oscan.Sidecar
