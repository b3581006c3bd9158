import Oscan.Sidecar.Usable

/-! What the guard for paths found elsewhere lets through, and that accepted subpaths stay inside the root. -/
namespace Oscan.Sidecar
open Library.FileTree

variable {host : Host} {exeDir : Path} {package : SidecarPackage} {canonicalRoot : Place}

/-- The path is not inside the root, as it is written and as it resolves. -/
def Outside (host : Host) (root path : Path) : Prop :=
  path.startsWith root = false ∧ ∀ place place', canonicalize host.tree root = .ok place →
    canonicalize host.tree path = .ok place' → ¬place <+: place'

/-- The path is a declared runtime library in the linker's directory, and all of these have their hashes. -/
structure Vouched (host : Host) (exeDir path : Path) (package : SidecarPackage) (entry linker : SidecarEntry) : Prop where
  loaded : loadFrom host exeDir = .ok (some package)
  declared : entry ∈ package.entries ∧ entry.role = "linker_runtime"
  same : ∃ place, canonicalize host.tree path = .ok place ∧ canonicalize host.tree entry.path = .ok place
  leading : linker ∈ package.entries ∧ linker.role = "linker"
  beside : ∃ place, canonicalParent host entry.path = .ok place ∧ canonicalParent host linker.path = .ok place
  closure : ∀ e ∈ package.entries, e.role = "linker_runtime" → HashMatches host e

theorem linkerEntry_some (loaded : Loaded host exeDir package canonicalRoot) :
    ∃ linker, package.linkerEntry = some linker ∧ linker ∈ package.entries ∧ linker.role = "linker" := by
  obtain ⟨entry,member,role⟩ := loaded.linker
  have some_ : package.linkerEntry.isSome = true := List.find?_isSome.mpr ⟨entry,member,by simp [role]⟩
  obtain ⟨linker,found⟩ := Option.isSome_iff_exists.mp some_
  exact ⟨linker,found,List.mem_of_find?_eq_some found,by simpa using List.find?_some found⟩

/-- The linker of a loaded package is staged, so that its directory is known. -/
theorem runtimeDir_some (loaded : Loaded host exeDir package canonicalRoot) :
    ∃ linker place, linker ∈ package.entries ∧ linker.role = "linker" ∧ canonicalParent host linker.path = .ok place ∧
      package.runtimeDir host = some place := by
  obtain ⟨linker,found,member,role⟩ := linkerEntry_some loaded
  obtain ⟨_,_,name,place,staged,-⟩ := checkStagedFile_staged (loaded.staged linker member)
  obtain ⟨directory,parent,leads⟩ := staged.canonical_parent
  refine ⟨linker,place,member,role,canonicalParent_staged staged,?_⟩
  simp only [SidecarPackage.runtimeDir,found,Option.bind_some,parent,leads]
  rfl

theorem closure_ok : package.verifyRuntimeClosure host = .ok () ↔
    ∀ e ∈ package.entries, e.role = "linker_runtime" → HashMatches host e := by
  unfold SidecarPackage.verifyRuntimeClosure SidecarPackage.ofRole
  rw [forM_ok]
  simp [verifyEntry_ok]

theorem entryForPath_some {path : Path} {entry : SidecarEntry} (found : package.entryForPath host path = some entry) :
    entry ∈ package.entries ∧
      ∃ place, canonicalize host.tree path = .ok place ∧ canonicalize host.tree entry.path = .ok place := by
  unfold SidecarPackage.entryForPath at found
  split at found
  next => cases found
  next place leads =>
    refine ⟨List.mem_of_find?_eq_some found,place,leads,?_⟩
    have same := List.find?_some found
    cases own : canonicalize host.tree entry.path with
    | error e => simp [own,Except.toOption] at same
    | ok place' => simpa [own,Except.toOption] using same

theorem outside_of_neither {root path : Path} (lexically : path.startsWith root = false)
    (canonically : canonicallyInside host root path = false) : Outside host root path := by
  refine ⟨lexically,fun place place' first second inside => ?_⟩
  simp only [canonicallyInside,first,second] at canonically
  rw [List.isPrefixOf_iff_prefix.mpr inside] at canonically
  cases canonically

theorem guard_ok {path : Path} (ok : requireVerifiedIfInsideFrom host exeDir path = .ok ()) :
    Outside host (rootFor exeDir) path ∨ ∃ package entry linker, Vouched host exeDir path package entry linker := by
  unfold requireVerifiedIfInsideFrom at ok
  simp only at ok
  split at ok
  next neither => exact .inl (outside_of_neither neither.1 neither.2)
  next =>
    right
    simp only [bind_ok,refuse_ok] at ok
    obtain ⟨_,-,_,-,found,loaded,ok⟩ := ok
    split at ok
    next => exact absurd ok throw_ok
    next package =>
      split at ok
      next => exact absurd ok throw_ok
      next entry declared =>
        simp only [bind_ok,refuse_ok,not_not] at ok
        obtain ⟨_,role,ok⟩ := ok
        obtain ⟨canonicalRoot,checked⟩ := loadFrom_loaded loaded
        obtain ⟨linker,place,member,linkerRole,parent,directory⟩ := runtimeDir_some checked
        rw [directory] at ok
        simp only [bind_ok,refuse_ok,not_not] at ok
        obtain ⟨place',own,_,rfl,closure⟩ := ok
        obtain ⟨inside,same⟩ := entryForPath_some declared
        exact ⟨package,entry,linker,loaded,⟨inside,role⟩,same,⟨member,linkerRole⟩,⟨place',own,parent⟩,closure_ok.mp closure⟩

theorem body_append (pieces more : List String) : Path.body (pieces ++ more) = Path.body pieces ++ Path.body more :=
  List.filterMap_append

theorem names_of_normal {cs : List Component} (all : ∀ c ∈ cs, ∃ name, c = .normal name) :
    ∃ names : List String, cs = names.map .normal := by
  induction cs with
  | nil => exact ⟨[],rfl⟩
  | cons c cs later =>
    obtain ⟨⟨name,rfl⟩,rest⟩ := List.forall_mem_cons.mp all
    obtain ⟨names,rfl⟩ := later rest
    exact ⟨name :: names,rfl⟩

/-- An accepted subpath is relative and has plain names only. -/
theorem validated_plain {subpath : String} {relative : Path}
    (accepted : validatedRelativeSubpath host subpath = .ok relative) : relative.absolute = false ∧
      relative.pieces.head? ≠ some "." ∧ ∃ names, names ≠ [] ∧ Path.body relative.pieces = names.map .normal := by
  unfold validatedRelativeSubpath at accepted
  simp only at accepted
  split at accepted
  next => cases accepted
  next normal =>
    split at accepted
    next => cases accepted
    next some_ =>
      cases accepted
      have all : ∀ c ∈ (Path.new subpath).components, ∃ name, c = .normal name := by
        intro c member
        have good := List.find?_eq_none.mp normal c member
        cases c with
        | normal name => exact ⟨name,rfl⟩
        | rootDir | curDir | parentDir => exact absurd rfl good
      have relative : (Path.new subpath).absolute = false := by
        by_contra absolute
        rw [Bool.not_eq_false] at absolute
        obtain ⟨name,same⟩ := all .rootDir (by simp [Path.components,absolute])
        cases same
      have head : (Path.new subpath).pieces.head? ≠ some "." := by
        intro dotted
        obtain ⟨name,same⟩ := all .curDir (by simp [Path.components,relative,dotted])
        cases same
      have only : (Path.new subpath).components = Path.body (Path.new subpath).pieces := by
        simp [Path.components,relative,head]
      rw [only] at all some_
      obtain ⟨names,same⟩ := names_of_normal all
      refine ⟨relative,head,names,?_,same⟩
      rintro rfl
      exact some_ same

theorem components_join {a : Bool} {before pieces : List String} (head : pieces.head? ≠ some ".") :
    (Library.FileTree.Path.mk a (before ++ pieces)).components = (Library.FileTree.Path.mk a before).components ++ Path.body pieces := by
  have dotted : (before ++ pieces).head? = some "." ↔ before.head? = some "." := by
    cases before with
    | nil => simpa using head
    | cons piece before => simp
  unfold Path.components
  cases a with
  | true => simp [body_append]
  | false =>
    simp only [Bool.false_eq_true,if_false,dotted,body_append]
    split <;> simp

/-- A separator at the end of a path adds nothing to it. -/
theorem components_separator {a : Bool} {before : List String} :
    (Library.FileTree.Path.mk a (before ++ [""])).components = (Library.FileTree.Path.mk a before).components := by
  have none : Path.body [""] = [] := rfl
  rw [components_join (by decide),none,List.append_nil]

theorem join_inside {root relative : Path} {names : List String} (rel : relative.absolute = false)
    (head : relative.pieces.head? ≠ some ".") (body : Path.body relative.pieces = names.map .normal) :
    (root.join relative).components = root.components ++ names.map .normal := by
  unfold Path.join
  rw [rel]
  simp only [Bool.false_eq_true,if_false]
  split
  next closed =>
    obtain ⟨before,pieces⟩ := List.getLast?_eq_some_iff.mp closed
    have same : root = ⟨root.absolute,before ++ [""]⟩ := by
      rw [← pieces]
    rw [same,components_separator,List.dropLast_concat,components_join head,body]
  next => rw [components_join head,body]

/-- The guard lets a path through only if it is outside the root or vouched for, and a subpath that the manifest
may give stays inside every root. -/
theorem sidecar_confined (host : Host) (exeDir path : Path) :
    (requireVerifiedIfInsideFrom host exeDir path = .ok () →
      Outside host (rootFor exeDir) path ∨ ∃ package entry linker, Vouched host exeDir path package entry linker) ∧
    ∀ (root relative : Path) (subpath : String), validatedRelativeSubpath host subpath = .ok relative →
      (root.join relative).startsWith root = true ∧
        ∃ names, names ≠ [] ∧ (root.join relative).components = root.components ++ names.map .normal := by
  refine ⟨guard_ok,fun root relative subpath accepted => ?_⟩
  obtain ⟨rel,head,names,some_,body⟩ := validated_plain accepted
  have inside : (root.join relative).components = root.components ++ names.map .normal := join_inside rel head body
  refine ⟨?_,names,some_,inside⟩
  unfold Path.startsWith
  rw [inside]
  exact List.isPrefixOf_iff_prefix.mpr (List.prefix_append _ _)

/-- `/app/native-link/bin//./libz.so` -/
def stagedLibrary : Path := ⟨true,["app","native-link","bin","",".","libz.so"]⟩

theorem staged_guarded :
    requireVerifiedIfInsideFrom (stagedHost (manifestText "") []) ⟨true,["app"]⟩ stagedLibrary = .ok () := by
  have found : (stagedPackage none).entryForPath (stagedHost (manifestText "") []) stagedLibrary =
      some ⟨"linker_runtime","libz.so",none,"bin/libz.so",emptyHash,⟨true,["app","native-link","bin","libz.so"]⟩⟩ := by
    decide +kernel
  have directory : (stagedPackage none).runtimeDir (stagedHost (manifestText "") []) =
      some ["app","native-link","bin"] := by
    decide +kernel
  have closure : (stagedPackage none).verifyRuntimeClosure (stagedHost (manifestText "") []) = .ok () := by
    refine closure_ok.mpr fun e member _ => ?_
    rcases List.mem_cons.mp member with rfl | member
    · exact ⟨[],rfl,rfl⟩
    · obtain rfl := List.mem_singleton.mp member
      exact ⟨[],rfl,rfl⟩
  unfold requireVerifiedIfInsideFrom
  rw [if_neg (by decide +kernel)]
  simp only [bind_ok,refuse_ok]
  refine ⟨(),by decide +kernel,(),by decide +kernel,_,staged_loads,?_⟩
  simp only [found,directory,bind_ok,refuse_ok]
  exact ⟨(),by decide,_,rfl,(),by decide,closure⟩

theorem staged_vouched : (Outside (stagedHost (manifestText "") []) (rootFor ⟨true,["app"]⟩) stagedLibrary ∨
      ∃ package entry linker,
        Vouched (stagedHost (manifestText "") []) ⟨true,["app"]⟩ stagedLibrary package entry linker) ∧
    ((⟨true,["app","native-link"]⟩ : Path).join ⟨false,["bin","","libz.so"]⟩).startsWith
      ⟨true,["app","native-link"]⟩ = true := by
  obtain ⟨guarded,inside⟩ := sidecar_confined (stagedHost (manifestText "") []) ⟨true,["app"]⟩ stagedLibrary
  exact ⟨guarded staged_guarded,(inside _ _ "bin//libz.so" (by decide +kernel)).1⟩

end Oscan.Sidecar
