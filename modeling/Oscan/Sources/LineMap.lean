import Oscan.Sources.Splice

/-! Import resolution ends, and its line records say of every line of the text where it came from. -/
namespace Oscan.Sources

/-- What is done to the text of a whole file or program, on one of its lines -/
inductive Renaming where
  | names (ns : Text) (declared : List Text)
  | uses (ns : Text)

def Renaming.apply (line : Text) : Renaming → Text
  | .names ns declared => mangleLine declared ns line
  | .uses ns => replaceNsDot line ns

theorem Renaming.apply_nil (r : Renaming) : r.apply [] = [] := by
  cases r with
  | uses => rfl
  | names ns declared =>
    unfold Renaming.apply mangleLine
    induction declared with
    | nil => rfl
    | cons name declared later => exact later

variable {P : Type}

/-- A line is a line of its file, renamed; a line without origin is empty. -/
def ComesFrom (fs : FileSystem P) (line : Text) : Option (P × Nat) → Prop
  | none => line = []
  | some (file,number) => ∃ source original renamings, fs.readToString file = .ok source ∧ 0 < number ∧
      (lines source)[number - 1]? = some original ∧ line = List.foldl Renaming.apply original renamings

variable {fs : FileSystem P}

theorem ComesFrom.rename {line : Text} {origin : Option (P × Nat)} (from_ : ComesFrom fs line origin) (r : Renaming) :
    ComesFrom fs (r.apply line) origin := by
  cases origin with
  | none =>
    obtain rfl := from_
    exact r.apply_nil
  | some place =>
    obtain ⟨source,original,renamings,read,positive,listed,rfl⟩ := from_
    exact ⟨source,original,renamings ++ [r],read,positive,listed,by rw [List.foldl_append]; rfl⟩

theorem ComesFrom.uses {line : Text} {origin : Option (P × Nat)} (from_ : ComesFrom fs line origin)
    (namespaces : List Text) : ComesFrom fs (namespaces.foldl replaceNsDot line) origin := by
  induction namespaces generalizing line with
  | nil => exact from_
  | cons ns namespaces later => exact later (from_.rename (.uses ns))

theorem mangleLines_from {ns : Text} {ls : List (Line P)} (each : ∀ l ∈ ls, ComesFrom fs l.1 l.2) :
    ∀ l ∈ mangleLines ns ls, ComesFrom fs l.1 l.2 := by
  intro l member
  obtain ⟨own,inside,rfl⟩ := List.mem_map.mp member
  exact (each own inside).rename (.names ns _)

theorem drop_line {ls later : List Text} {line : Text} {index : Nat} (same : ls.drop index = line :: later) :
    ls[index]? = some line ∧ ls.drop (index + 1) = later := by
  refine ⟨?_,?_⟩
  · rw [← Nat.add_zero index,← List.getElem?_drop,same]
    rfl
  · rw [← List.tail_drop,same]
    rfl

/-- Every line that is spliced in comes from the file and the line it is recorded with. -/
theorem Splice.Of.comes_from {s : Splice P} : ∀ {visited : List P} {baseDir file : P} {source : Text} {index : Nat},
    s.Of fs visited baseDir ((Sources.lines source).drop index) → fs.readToString file = .ok source →
      ∀ l ∈ s.lines file index, ComesFrom fs l.1 l.2 := by
  induction s with
  | done =>
    intro _ _ _ _ _ _ _ l member
    cases member
  | kept line rest later =>
    intro visited baseDir file source index ⟨behind,same,_,of⟩ read l member
    obtain ⟨here,rfl⟩ := drop_line same
    rcases List.mem_cons.mp member with rfl | member
    · exact ⟨source,line,[],read,Nat.succ_pos _,here,rfl⟩
    · exact later of read l member
  | flat file' inner rest own later =>
    intro visited baseDir file source index ⟨line,behind,path,same,_,enters,of⟩ read l member
    obtain ⟨-,rfl⟩ := drop_line same
    rcases List.mem_append.mp member with inside | member
    · cases file' with
      | none => cases inside
      | some p =>
        obtain ⟨-,-,source',read',of'⟩ := enters
        have start : inner.Of fs (p :: visited) (fs.parent p) ((Sources.lines source').drop 0) := of'
        exact own start read' l inside
    · rcases List.mem_cons.mp member with rfl | member
      · rfl
      · exact later of read l member
  | named ns file' inner rest own later =>
    intro visited baseDir file source index ⟨line,behind,path,same,_,enters,of⟩ read l member
    obtain ⟨-,rfl⟩ := drop_line same
    rcases List.mem_append.mp member with inside | member
    · cases file' with
      | none => cases inside
      | some p =>
        obtain ⟨-,-,source',read',of'⟩ := enters
        have start : inner.Of fs (p :: visited) (fs.parent p) ((Sources.lines source').drop 0) := of'
        exact mangleLines_from (own start read') l inside
    · rcases List.mem_cons.mp member with rfl | member
      · rfl
      · exact later of read l member

/-- No line that is spliced in has a newline. -/
theorem Splice.Of.lines_clean {s : Splice P} : ∀ {visited : List P} {baseDir file : P} {ls : List Text} {index : Nat},
    s.Of fs visited baseDir ls → (∀ line ∈ ls, '\n' ∉ line) → ∀ l ∈ s.lines file index, '\n' ∉ l.1 := by
  induction s with
  | done =>
    intro _ _ _ _ _ _ _ l member
    cases member
  | kept line rest later =>
    intro visited baseDir file ls index ⟨behind,same,_,of⟩ clean l member
    subst same
    obtain ⟨here,clean⟩ := List.forall_mem_cons.mp clean
    rcases List.mem_cons.mp member with rfl | member
    · exact here
    · exact later of clean l member
  | flat file' inner rest own later =>
    intro visited baseDir file ls index ⟨line,behind,path,same,_,enters,of⟩ clean l member
    subst same
    obtain ⟨-,clean⟩ := List.forall_mem_cons.mp clean
    rcases List.mem_append.mp member with inside | member
    · cases file' with
      | none => cases inside
      | some p =>
        obtain ⟨-,-,source',-,of'⟩ := enters
        exact own of' (fun _ member => Sources.lines_clean member) l inside
    · rcases List.mem_cons.mp member with rfl | member
      · exact List.not_mem_nil
      · exact later of clean l member
  | named ns file' inner rest own later =>
    intro visited baseDir file ls index ⟨line,behind,path,same,imports,enters,of⟩ clean l member
    subst same
    obtain ⟨-,clean⟩ := List.forall_mem_cons.mp clean
    rcases List.mem_append.mp member with inside | member
    · cases file' with
      | none => cases inside
      | some p =>
        obtain ⟨-,-,source',-,of'⟩ := enters
        obtain ⟨before,listed,rfl⟩ := List.mem_map.mp inside
        exact mangleLine_clean (importOf_clean imports) (fun _ member => sortedNames_ident member)
          (own of' (fun _ member => Sources.lines_clean member) before listed)
    · rcases List.mem_cons.mp member with rfl | member
      · exact List.not_mem_nil
      · exact later of clean l member

theorem Splice.Of.namespaces_clean {s : Splice P} : ∀ {visited : List P} {baseDir : P} {ls : List Text},
    s.Of fs visited baseDir ls → ∀ ns ∈ s.namespaces, '\n' ∉ ns := by
  induction s with
  | done =>
    intro _ _ _ _ ns member
    cases member
  | kept line rest later =>
    intro visited baseDir ls ⟨_,_,_,of⟩
    exact later of
  | flat file inner rest own later =>
    intro visited baseDir ls ⟨_,_,_,_,_,enters,of⟩ ns member
    rcases List.mem_append.mp member with inside | member
    · cases file with
      | none =>
        obtain ⟨-,rfl⟩ := enters
        cases inside
      | some p =>
        obtain ⟨-,-,source,-,of'⟩ := enters
        exact own of' ns inside
    · exact later of ns member
  | named ns file inner rest own later =>
    intro visited baseDir ls ⟨_,_,_,_,imports,enters,of⟩ used member
    rcases List.mem_cons.mp member with rfl | member
    · exact importOf_clean imports
    · rcases List.mem_append.mp member with inside | member
      · cases file with
        | none =>
          obtain ⟨-,rfl⟩ := enters
          cases inside
        | some p =>
          obtain ⟨-,-,source,-,of'⟩ := enters
          exact own of' used inside
      · exact later of used member

/-- A line's record names its file in the table of files. -/
def Recorded (files : List P) : Option (P × Nat) → Option SourceLine → Prop
  | none,none => True
  | some (file,number),some record => files[record.file]? = some file ∧ record.line = number
  | _,_ => False

theorem Recorded.blank (files : List P) : Recorded files none none := trivial

theorem Recorded.more {files : List P} {origin : Option (P × Nat)} {record : Option SourceLine}
    (recorded : Recorded files origin record) (further : List P) : Recorded (files ++ further) origin record := by
  unfold Recorded at *
  split at recorded
  next => trivial
  next file number record =>
    obtain ⟨inside,-⟩ := List.getElem?_eq_some_iff.mp recorded.1
    exact ⟨(List.getElem?_append_left inside).trans recorded.1,recorded.2⟩
  next => exact recorded.elim

def AllRecorded (files : List P) (ls : List (Line P)) (records : List (Option SourceLine)) : Prop :=
  List.Forall₂ (fun l record => Recorded files l.2 record) ls records

theorem AllRecorded.more {files : List P} {ls : List (Line P)} {records : List (Option SourceLine)}
    (recorded : AllRecorded files ls records) (further : List P) : AllRecorded (files ++ further) ls records :=
  recorded.imp fun _ _ here => here.more further

variable [DecidableEq P]

/-- What a call or a part of a loop adds to the text, its records and what is shared -/
structure Adds (first last : Visit P) (before after : ResolvedSource) (ls : List (Line P)) (visited : List P)
    (namespaces : List Text) : Prop where
  visited : last.visited = visited
  namespaces : last.namespaces = first.namespaces ++ namespaces
  files : ∃ further, last.sourceFiles.files = first.sourceFiles.files ++ further
  text : after.text = before.text ++ unlines (ls.map Prod.fst)
  records : ∃ records, after.lines = before.lines ++ records ∧ AllRecorded last.sourceFiles.files ls records

theorem Adds.nothing {st : Visit P} {result : ResolvedSource} : Adds st st result result [] st.visited [] where
  visited := rfl
  namespaces := by simp
  files := ⟨[],by simp⟩
  text := by simp [unlines]
  records := ⟨[],by simp,.nil⟩

theorem unlines_append (ls later : List Text) : unlines (ls ++ later) = unlines ls ++ unlines later :=
  List.flatMap_append

theorem Adds.line {first last : Visit P} {before after : ResolvedSource} {ls : List (Line P)} {visited : List P}
    {namespaces : List Text} {line : Text} {origin : Option (P × Nat)} {record : Option SourceLine}
    (recorded : Recorded first.sourceFiles.files origin record)
    (rest : Adds first last (before.pushLine line record) after ls visited namespaces) :
    Adds first last before after ((line,origin) :: ls) visited namespaces where
  visited := rest.visited
  namespaces := rest.namespaces
  files := rest.files
  text := by
    rw [rest.text]
    simp [ResolvedSource.pushLine,unlines]
  records := by
    obtain ⟨records,same,all⟩ := rest.records
    obtain ⟨further,files⟩ := rest.files
    refine ⟨record :: records,by simp [same,ResolvedSource.pushLine],.cons ?_ all⟩
    exact files ▸ recorded.more further

/-- An imported text comes first, and the loop goes on with what its call left. -/
theorem Adds.append {first middle last : Visit P} {before imported after : ResolvedSource} {own ls : List (Line P)}
    {visited visited' : List P} {namespaces namespaces' : List Text}
    (call : Adds first middle ⟨[],[]⟩ imported own visited namespaces)
    (rest : Adds middle last (before.append imported) after ls visited' namespaces') :
    Adds first last before after (own ++ ls) visited' (namespaces ++ namespaces') where
  visited := rest.visited
  namespaces := by rw [rest.namespaces,call.namespaces,List.append_assoc]
  files := by
    obtain ⟨further,files⟩ := call.files
    obtain ⟨further',files'⟩ := rest.files
    exact ⟨further ++ further',by rw [files',files,List.append_assoc]⟩
  text := by
    rw [rest.text,List.map_append,unlines_append,ResolvedSource.append,call.text]
    simp
  records := by
    obtain ⟨records,same,all⟩ := call.records
    obtain ⟨records',same',all'⟩ := rest.records
    obtain ⟨further,files⟩ := rest.files
    refine ⟨records ++ records',by simp [same',same,ResolvedSource.append],List.rel_append ?_ all'⟩
    exact files ▸ all.more further

/-- The text of a namespaced import is renamed line by line, and its scope is left. -/
theorem Adds.named {st inner : Visit P} {imported : ResolvedSource} {own : List (Line P)} {visited : List P}
    {namespaces : List Text} (ns : Text)
    (call : Adds { st with namespaces := [] } inner ⟨[],[]⟩ imported own visited namespaces) :
    Adds st ⟨st.visited,st.namespaces ++ ns :: inner.namespaces,inner.sourceFiles⟩ ⟨[],[]⟩
      { imported with text := mangleTopLevelNames imported.text ns } (mangleLines ns own) st.visited (ns :: namespaces) where
  visited := rfl
  namespaces := by rw [call.namespaces]; rfl
  files := call.files
  text := by
    have text : imported.text = unlines (own.map Prod.fst) := call.text
    rw [text,mangleTopLevelNames_unlines,mangleLines,List.map_map,List.map_map]
    rfl
  records := by
    obtain ⟨records,same,all⟩ := call.records
    exact ⟨records,same,List.forall₂_map_left_iff.mpr all⟩

/-- What a path leads to, and what that adds to the text -/
def Calls (fs : FileSystem P) (resolve : Resolve P) : Prop :=
  ∀ path st result st', resolve path st = .ok (result,st') → ∃ (file : Option P) (inner : Splice P),
    Splice.Enters fs st.visited path (inner = .done)
      (fun p source => inner.Of fs (p :: st.visited) (fs.parent p) (lines source)) file ∧
    Adds st st' ⟨[],[]⟩ result (file.elim [] fun p => inner.lines p 0) (inner.visit (file.toList ++ st.visited))
      inner.namespaces

theorem Adds.still {st st' : Visit P} {before after : ResolvedSource} {ls : List (Line P)} {visited : List P}
    {namespaces : List Text} (adds : Adds st st' before after ls visited namespaces) {id : Nat} {file : P}
    (known : st.sourceFiles.files[id]? = some file) : st'.sourceFiles.files[id]? = some file := by
  obtain ⟨further,files⟩ := adds.files
  obtain ⟨inside,-⟩ := List.getElem?_eq_some_iff.mp known
  rw [files,List.getElem?_append_left inside]
  exact known

theorem resolveLines_adds {resolve : Resolve P} (calls : Calls fs resolve) {baseDir file : P} {fileId : Nat} :
    ∀ {ls : List Text} {index : Nat} {before after : ResolvedSource} {st st' : Visit P},
      resolveLines fs resolve baseDir fileId index ls before st = .ok (after,st') →
      st.sourceFiles.files[fileId]? = some file →
      ∃ s : Splice P, s.Of fs st.visited baseDir ls ∧
        Adds st st' before after (s.lines file index) (s.visit st.visited) s.namespaces
  | [],index,before,after,st,st',done,_ => by
    simp only [resolveLines,Except.ok.injEq,Prod.mk.injEq] at done
    obtain ⟨rfl,rfl⟩ := done
    exact ⟨.done,rfl,.nothing⟩
  | line :: ls,index,before,after,st,st',done,known => by
    rw [resolveLines] at done
    split at done
    next path ns imports =>
      split at done
      next => cases done
      next imported inner called =>
        obtain ⟨file',own,enters,adds⟩ := calls _ _ _ _ called
        have entered := adds.named ns
        obtain ⟨s,of,rest⟩ := resolveLines_adds calls done (entered.still known)
        exact ⟨.named ns file' own s,⟨line,ls,path,rfl,imports,enters,of⟩,entered.append (rest.line (.blank _))⟩
    next path imports =>
      split at done
      next => cases done
      next imported middle called =>
        obtain ⟨file',own,enters,adds⟩ := calls _ _ _ _ called
        obtain ⟨s,of,rest⟩ := resolveLines_adds calls done (adds.still known)
        rw [adds.visited] at of rest
        exact ⟨.flat file' own s,⟨line,ls,path,rfl,imports,enters,of⟩,adds.append (rest.line (.blank _))⟩
    next kept =>
      split at done
      next small =>
        obtain ⟨s,of,rest⟩ := resolveLines_adds calls done known
        have recorded : Recorded st.sourceFiles.files (some (file,index + 1)) (some ⟨fileId,index + 1⟩) := ⟨known,rfl⟩
        exact ⟨.kept line s,⟨ls,rfl,kept,of⟩,rest.line recorded⟩
      next => cases done

theorem internFile_known {b b' : SourceMapBuilder P} {path : P} {id : Nat} (interned : b.internFile path = .ok (id,b')) :
    b'.files[id]? = some path ∧ ∃ further, b'.files = b.files ++ further := by
  unfold SourceMapBuilder.internFile at interned
  split at interned
  next id' found =>
    cases interned
    exact ⟨b.known path id found,[],by simp⟩
  next =>
    split at interned
    next =>
      cases interned
      exact ⟨by simp,_,rfl⟩
    next => cases interned

theorem resolveImports_calls : ∀ depth, Calls fs (resolveImports fs depth)
  | 0 => by
    intro path st result st' done
    cases done
  | depth + 1 => by
    intro path st result st' done
    rw [resolveImports] at done
    split at done
    next => cases done
    next canonical resolved =>
      split at done
      next old =>
        cases done
        exact ⟨none,.done,⟨⟨canonical,resolved,old⟩,rfl⟩,.nothing⟩
      next new =>
        split at done
        next => cases done
        next fileId sourceFiles interned =>
          split at done
          next => cases done
          next source read =>
            obtain ⟨known,further,files⟩ := internFile_known interned
            obtain ⟨s,of,adds⟩ := resolveLines_adds (resolveImports_calls depth) done known
            refine ⟨some canonical,s,⟨resolved,new,source,read,of⟩,?_⟩
            obtain ⟨further',files'⟩ := adds.files
            exact { adds with files := ⟨further ++ further',by rw [files',← List.append_assoc]; exact congrArg (· ++ further') files⟩ }

end Oscan.Sources
