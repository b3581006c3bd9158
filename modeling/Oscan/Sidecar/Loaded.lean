import Oscan.Sidecar.Package

/-! What is known of a package that loads: its entries are files in the tree, and no two of them have one role and
library. -/
namespace Oscan.Sidecar
open Library.FileTree

@[simp] theorem refuse_ok {c : Prop} [Decidable c] {message : String} {u : Unit} :
    refuse c message = .ok u ↔ ¬c := by
  unfold refuse
  split <;> simp [*]

@[simp] theorem required_ok {c : Bool} {check : Except String Unit} {u : Unit} :
    required c check = .ok u ↔ (c = true → check = .ok u) := by
  unfold required
  split <;> simp [*]

theorem bind_ok {ε α β : Type} {x : Except ε α} {f : α → Except ε β} {r : β} :
    (x >>= f) = .ok r ↔ ∃ a, x = .ok a ∧ f a = .ok r := by
  cases x <;> simp [bind,Except.bind]

theorem pure_ok {ε α : Type} {a r : α} : (pure a : Except ε α) = .ok r ↔ a = r := by
  simp [pure,Except.pure]

theorem mapError_ok {ε δ α : Type} {x : Except ε α} {f : ε → δ} {a : α} : x.mapError f = .ok a ↔ x = .ok a := by
  cases x <;> simp [Except.mapError]

theorem throw_ok {ε α : Type} {e : ε} {a : α} : ¬((throw e : Except ε α) = .ok a) := by
  intro same
  cases same

theorem forM_ok {ε α : Type} {f : α → Except ε Unit} : ∀ {as : List α}, as.forM f = .ok () ↔ ∀ a ∈ as, f a = .ok ()
  | [] => by simp [pure,Except.pure]
  | a :: as => by
    rw [List.forall_mem_cons,← forM_ok]
    change (f a >>= fun _ => as.forM f) = .ok () ↔ _
    rw [bind_ok]
    exact ⟨fun ⟨_,first,rest⟩ => ⟨first,rest⟩,fun ⟨first,rest⟩ => ⟨(),first,rest⟩⟩

variable {host : Host} {manifestPath : Path}

/-- What two entries of a manifest are checked for -/
def Differ (e e' : SidecarEntry) : Prop :=
  e.installSubpath ≠ e'.installSubpath ∧ (e.role = e'.role → e.lib = e'.lib → e.role = "linker_runtime")

theorem readEntries_differ : ∀ {raws : List Json} {entries entries' : List SidecarEntry},
    readEntries host manifestPath entries raws = .ok entries' → entries.Pairwise Differ → entries'.Pairwise Differ
  | [],entries,entries',done,differ => by
    cases done
    exact differ
  | raw :: raws,entries,entries',done,differ => by
    simp only [readEntries,bind_ok,refuse_ok] at done
    obtain ⟨entry,-,_,fresh,_,single,done⟩ := done
    refine readEntries_differ done (List.pairwise_append.mpr ⟨differ,List.pairwise_singleton _ _,?_⟩)
    intro seen member new only
    obtain rfl := List.mem_singleton.mp only
    refine ⟨fun same => fresh ⟨seen,member,same⟩,fun role lib => ?_⟩
    by_contra other
    exact single ⟨seen,member,role,lib,other⟩

/-- What the loading of a package establishes -/
structure Loaded (host : Host) (exeDir : Path) (package : SidecarPackage) (canonicalRoot : Place) : Prop where
  root : package.root = rootFor exeDir
  canonical : canonicalize host.tree (rootFor exeDir) = .ok canonicalRoot
  differ : package.entries.Pairwise Differ
  linker : ∃ entry ∈ package.entries, entry.role = "linker"
  staged : ∀ entry ∈ package.entries, checkStagedFile host canonicalRoot entry = .ok ()
  required : package.checkRequiredAssets host (manifestPathFor exeDir) = .ok ()

theorem loadManifest_loaded {exeDir : Path} {package : SidecarPackage}
    (loaded : loadManifest host (rootFor exeDir) (manifestPathFor exeDir) = .ok package) :
    ∃ canonicalRoot, Loaded host exeDir package canonicalRoot := by
  simp only [loadManifest,bind_ok,mapError_ok] at loaded
  obtain ⟨canonicalRoot,canonical,text,-,value,-,loaded⟩ := loaded
  split at loaded
  next => exact absurd loaded throw_ok
  next version _ =>
    simp only [bind_ok,refuse_ok] at loaded
    obtain ⟨_,-,loaded⟩ := loaded
    split at loaded
    next => exact absurd loaded throw_ok
    next target _ =>
      split at loaded
      next => exact absurd loaded throw_ok
      next => exact absurd loaded throw_ok
      next linker assets _ _ =>
        simp only [bind_ok,refuse_ok,not_not,pure_ok] at loaded
        obtain ⟨entries,read,_,linker,_,staged,_,required,rfl⟩ := loaded
        exact ⟨canonicalRoot,rfl,canonical,readEntries_differ read .nil,linker,forM_ok.mp staged,required⟩

theorem loadFrom_loaded {exeDir : Path} {package : SidecarPackage}
    (loaded : loadFrom host exeDir = .ok (some package)) : ∃ canonicalRoot, Loaded host exeDir package canonicalRoot := by
  unfold loadFrom at loaded
  simp only at loaded
  split at loaded
  next => cases loaded
  next =>
    split at loaded
    next => cases loaded
    next => cases loaded
    next => cases loaded
    next => cases loaded
    next =>
      split at loaded
      next => cases loaded
      next => cases loaded
      next => cases loaded
      next => cases loaded
      next =>
        cases read : loadManifest host (rootFor exeDir) (manifestPathFor exeDir) with
        | error e =>
          rw [read] at loaded
          cases loaded
        | ok package' =>
          rw [read] at loaded
          cases loaded
          exact loadManifest_loaded read

section Entries
variable {exeDir : Path} {package : SidecarPackage} {canonicalRoot : Place} {entry : SidecarEntry}

theorem checkStagedFile_staged (checked : checkStagedFile host canonicalRoot entry = .ok ()) :
    ∃ contents before name place, Staged host.tree entry.path contents before name place ∧
      canonicalRoot <+: place ++ [name] := by
  unfold checkStagedFile at checked
  split at checked
  next => cases checked
  next => cases checked
  next => cases checked
  next contents found =>
    obtain ⟨before,name,place,staged⟩ := staged_of_metadata found
    rw [staged.canonical] at checked
    simp only at checked
    split at checked
    next inside => exact ⟨contents,before,name,place,staged,List.isPrefixOf_iff_prefix.mp inside⟩
    next => cases checked

/-- The directory of a staged file -/
theorem canonicalParent_staged {contents : Option (List UInt8)} {before : List String} {name : String} {place : Place}
    {p : Path} (staged : Staged host.tree p contents before name place) : canonicalParent host p = .ok place := by
  obtain ⟨directory,parent,leads⟩ := staged.canonical_parent
  unfold canonicalParent
  rw [parent]
  simp only [leads]
  rfl

end Entries

end Oscan.Sidecar
