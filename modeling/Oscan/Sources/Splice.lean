import Oscan.Sources.Imports
import Mathlib.Data.List.Forall2

/-! What the lines of a file become when the files it imports are spliced in, in the order of the lines, and how the
resolution of imports builds the text and its records from that. -/
namespace Oscan.Sources

/-- A file that is spliced in is named; one that its scope has already is not, and has no lines. -/
inductive Splice (P : Type) where
  | done
  | kept (line : Text) (rest : Splice P)
  | flat (file : Option P) (inner rest : Splice P)
  | named (ns : Text) (file : Option P) (inner rest : Splice P)

/-- A line of the text, with the file it came from and its number there -/
abbrev Line (P : Type) := Text × Option (P × Nat)

def mangleLines {P : Type} (ns : Text) (ls : List (Line P)) : List (Line P) :=
  ls.map fun l => (mangleLine (sortedNames (findTopLevelNames (unlines (ls.map Prod.fst)))) ns l.1,l.2)

namespace Splice
variable {P : Type}

def lines (file : P) : Nat → Splice P → List (Line P)
  | _,done => []
  | index,kept line rest => (line,some (file,index + 1)) :: rest.lines file (index + 1)
  | index,flat file' inner rest =>
    (file'.elim [] fun p => inner.lines p 0) ++ ([],none) :: rest.lines file (index + 1)
  | index,named ns file' inner rest =>
    mangleLines ns (file'.elim [] fun p => inner.lines p 0) ++ ([],none) :: rest.lines file (index + 1)

/-- The namespaces in the order in which their uses are renamed -/
def namespaces : Splice P → List Text
  | done => []
  | kept _ rest => rest.namespaces
  | flat _ inner rest => inner.namespaces ++ rest.namespaces
  | named ns _ inner rest => ns :: inner.namespaces ++ rest.namespaces

/-- The files that the scope has visited at the end -/
def visit : List P → Splice P → List P
  | visited,done => visited
  | visited,kept _ rest => rest.visit visited
  | visited,flat file inner rest => rest.visit (inner.visit (file.toList ++ visited))
  | visited,named _ _ _ rest => rest.visit visited

/-- The files spliced in the scope: the flat imports -/
def scope : Splice P → List P
  | done => []
  | kept _ rest => rest.scope
  | flat file inner rest => file.toList ++ inner.scope ++ rest.scope
  | named _ _ _ rest => rest.scope

/-- The scopes that namespaced imports open, each with the file it begins with -/
def scopes : Splice P → List (List P)
  | done => []
  | kept _ rest => rest.scopes
  | flat _ inner rest => inner.scopes ++ rest.scopes
  | named _ file inner rest => (file.toList ++ inner.scope) :: inner.scopes ++ rest.scopes

variable (fs : FileSystem P)

/-- A path leads to a file, which the scope has visited already or whose text is spliced in. -/
def Enters (visited : List P) (path : P) (nothing : Prop) (own : P → Text → Prop) : Option P → Prop
  | none => (∃ canonical, fs.canonicalize path = .ok canonical ∧ canonical ∈ visited) ∧ nothing
  | some p => fs.canonicalize path = .ok p ∧ p ∉ visited ∧ ∃ source, fs.readToString p = .ok source ∧ own p source

/-- What the lines of a file in a directory become, in a scope that has visited some files -/
def Of (visited : List P) (baseDir : P) (ls : List Text) : Splice P → Prop
  | done => ls = []
  | kept line rest => ∃ later, ls = line :: later ∧ importOf line = none ∧ rest.Of visited baseDir later
  | flat file inner rest => ∃ line later path, ls = line :: later ∧ importOf line = some (path,none) ∧
      Enters fs visited (fs.join baseDir path) (inner = done)
        (fun p source => inner.Of (p :: visited) (fs.parent p) (Sources.lines source)) file ∧
      rest.Of (inner.visit (file.toList ++ visited)) baseDir later
  | named ns file inner rest => ∃ line later path, ls = line :: later ∧ importOf line = some (path,some ns) ∧
      Enters fs visited (fs.join baseDir path) (inner = done)
        (fun p source => inner.Of (p :: visited) (fs.parent p) (Sources.lines source)) file ∧
      rest.Of visited baseDir later

variable {fs} {visited : List P} {baseDir : P} {ls : List Text}

theorem mem_visit {q : P} {s : Splice P} : ∀ {visited : List P}, q ∈ s.visit visited ↔ q ∈ visited ∨ q ∈ s.scope := by
  induction s with
  | done => simp [visit,scope]
  | kept line rest later => exact later
  | flat file inner rest own later =>
    intro visited
    simp only [visit,scope,later,own,List.mem_append]
    tauto
  | named ns file inner rest own later => exact later

/-- No file is spliced in twice in one scope, nor one that was visited before. -/
theorem Of.scope_fresh {s : Splice P} : ∀ {visited : List P} {baseDir : P} {ls : List Text}, s.Of fs visited baseDir ls →
    s.scope.Nodup ∧ ∀ p ∈ s.scope, p ∉ visited := by
  induction s with
  | done => simp [scope]
  | kept line rest later =>
    intro visited baseDir ls ⟨_,_,_,of⟩
    exact later of
  | named ns file inner rest own later =>
    intro visited baseDir ls ⟨_,_,_,_,_,_,of⟩
    exact later of
  | flat file inner rest own later =>
    intro visited baseDir ls ⟨_,_,_,_,_,enters,of⟩
    obtain ⟨restNodup,restFresh⟩ := later of
    have entered : (file.toList ++ inner.scope).Nodup ∧ ∀ p ∈ file.toList ++ inner.scope, p ∉ visited := by
      cases file with
      | none =>
        obtain ⟨-,rfl⟩ := enters
        simp [scope]
      | some p =>
        obtain ⟨-,new,source,-,inside⟩ := enters
        obtain ⟨nodup,fresh⟩ := own inside
        refine ⟨?_,fun q member => ?_⟩
        · simp only [Option.toList_some,List.singleton_append,List.nodup_cons]
          exact ⟨fun member => fresh p member List.mem_cons_self,nodup⟩
        · rcases List.mem_cons.mp member with rfl | member
          · exact new
          · exact fun old => fresh q member (List.mem_cons_of_mem _ old)
    refine ⟨List.nodup_append.mpr ⟨entered.1,restNodup,fun p first q second same => ?_⟩,fun p member => ?_⟩
    · subst same
      refine restFresh p second (mem_visit.mpr ?_)
      rcases List.mem_append.mp first with here | inside
      · exact .inl (List.mem_append_left _ here)
      · exact .inr inside
    · rcases List.mem_append.mp member with first | second
      · exact entered.2 p first
      · exact fun old => restFresh p second (mem_visit.mpr (.inl (List.mem_append_right _ old)))

/-- What a path leads to is spliced at most once in the scope that it opens. -/
theorem Enters.nodup {path : P} {file : Option P} {inner : Splice P}
    (enters : Enters fs visited path (inner = done)
      (fun p source => inner.Of fs (p :: visited) (fs.parent p) (Sources.lines source)) file) :
    (file.toList ++ inner.scope).Nodup := by
  cases file with
  | none =>
    obtain ⟨-,rfl⟩ := enters
    simp [scope]
  | some p =>
    obtain ⟨-,-,source,-,inside⟩ := enters
    obtain ⟨nodup,fresh⟩ := inside.scope_fresh
    exact List.nodup_cons.mpr ⟨fun member => fresh p member List.mem_cons_self,nodup⟩

theorem Of.scopes_nodup {s : Splice P} : ∀ {visited : List P} {baseDir : P} {ls : List Text}, s.Of fs visited baseDir ls →
    ∀ files ∈ s.scopes, files.Nodup := by
  induction s with
  | done => simp [scopes]
  | kept line rest later =>
    intro visited baseDir ls ⟨_,_,_,of⟩
    exact later of
  | flat file inner rest own later =>
    intro visited baseDir ls ⟨_,_,_,_,_,enters,of⟩ files member
    rcases List.mem_append.mp member with first | second
    · cases file with
      | none =>
        obtain ⟨-,rfl⟩ := enters
        cases first
      | some p =>
        obtain ⟨-,-,source,-,inside⟩ := enters
        exact own inside files first
    · exact later of files second
  | named ns file inner rest own later =>
    intro visited baseDir ls ⟨_,_,_,_,_,enters,of⟩ files member
    rcases List.mem_cons.mp member with rfl | member
    · exact enters.nodup
    · rcases List.mem_append.mp member with first | second
      · cases file with
        | none =>
          obtain ⟨-,rfl⟩ := enters
          cases first
        | some p =>
          obtain ⟨-,-,source,-,inside⟩ := enters
          exact own inside files first
      · exact later of files second

end Splice

end Oscan.Sources
