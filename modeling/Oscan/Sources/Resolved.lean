import Oscan.Sources.LineMap

/-! Import resolution over the finitely many files of a file system: every nested call visits a file that its
callers have not, so that the calls are never nested deeper than there are files. -/
namespace Oscan.Sources

variable {P : Type}

theorem location_record {map : SourceMap P} {k column : Nat} {record : Option SourceLine}
    (listed : map.lines[k]? = some record) : map.location ⟨k + 1,column⟩ =
      record.map fun origin => ⟨origin.file,origin.line,min (max column 1) (UInt32.size - 1)⟩ := by
  unfold SourceMap.location
  simp only [Nat.add_sub_cancel,listed]
  cases record <;> simp

/-- What a source map says of a line: where it came from, or nothing of an empty one -/
def Locates (fs : FileSystem P) (map : SourceMap P) (line : Text) (column : Nat) : Option SourceLocation → Prop
  | none => line = []
  | some location => location.column = min (max column 1) (UInt32.size - 1) ∧
      ∃ file, map.files[location.file]? = some file ∧ ComesFrom fs line (some (file,location.line))

theorem AllRecorded.record {files : List P} {ls : List (Line P)} {records : List (Option SourceLine)}
    (all : AllRecorded files ls records) : ∀ {k : Nat} {l : Line P}, ls[k]? = some l →
      ∃ record, records[k]? = some record ∧ Recorded files l.2 record := by
  induction all with
  | nil =>
    intro k l listed
    cases listed
  | cons here _ later =>
    intro k l listed
    cases k with
    | zero =>
      obtain rfl := Option.some.inj listed
      exact ⟨_,rfl,here⟩
    | succ k => exact later listed

theorem locates {fs : FileSystem P} {map : SourceMap P} {line : Text} {k column : Nat} {origin : Option (P × Nat)}
    {record : Option SourceLine} (listed : map.lines[k]? = some record) (recorded : Recorded map.files origin record)
    (from_ : ComesFrom fs line origin) : Locates fs map line column (map.location ⟨k + 1,column⟩) := by
  rw [location_record listed]
  cases origin with
  | none =>
    cases record with
    | none => exact from_
    | some => exact recorded.elim
  | some place =>
    cases record with
    | none => exact recorded.elim
    | some found =>
      obtain ⟨known,same⟩ := recorded
      refine ⟨rfl,place.1,known,?_⟩
      change ComesFrom fs line (some (place.1,found.line))
      rw [same]
      exact from_

variable [DecidableEq P] (fs : FileSystem P)

/-- The number of files that are not visited -/
def unvisited (visited : List P) : Nat := (fs.files.filter (· ∉ visited)).length

theorem unvisited_more {visited more : List P} (kept : ∀ p ∈ visited, p ∈ more) :
    unvisited fs more ≤ unvisited fs visited := by
  unfold unvisited
  apply List.Sublist.length_le
  apply List.monotone_filter_right
  intro p new
  simp only [decide_eq_true_eq] at *
  exact fun old => new (kept p old)

theorem unvisited_visit {visited : List P} {canonical : P} (file : canonical ∈ fs.files) (new : canonical ∉ visited) :
    unvisited fs (canonical :: visited) < unvisited fs visited := by
  have narrower : fs.files.filter (· ∉ canonical :: visited) =
      (fs.files.filter (· ∉ visited)).filter (· ≠ canonical) := by
    rw [List.filter_filter]
    apply List.filter_congr
    intro p _
    simp
  unfold unvisited
  rw [narrower]
  exact List.length_filter_lt_length_iff_exists.mpr ⟨canonical,by simp [file,new],by simp⟩

theorem unvisited_le (visited : List P) : unvisited fs visited ≤ fs.files.length := List.length_filter_le _ _

variable {fs}

/-- Two ways to resolve agree, and have calls enough, where fewer files than a bound are unvisited. -/
def AgreeBelow (bound : Nat) (resolve resolve' : Resolve P) : Prop :=
  ∀ path st, unvisited fs st.visited < bound → resolve path st = resolve' path st ∧ resolve path st ≠ .error .depth

theorem Calls.fewer {resolve : Resolve P} (calls : Calls fs resolve) {path : P} {st st' : Visit P}
    {result : ResolvedSource} (called : resolve path st = .ok (result,st')) :
    unvisited fs st'.visited ≤ unvisited fs st.visited := by
  obtain ⟨file,inner,-,adds⟩ := calls path st result st' called
  apply unvisited_more
  intro p old
  rw [adds.visited]
  exact Splice.mem_visit.mpr (.inl (List.mem_append_right _ old))

theorem resolveLines_agree {bound : Nat} {resolve resolve' : Resolve P} (calls : Calls fs resolve)
    (agree : @AgreeBelow P _ fs bound resolve resolve') {baseDir : P} {fileId : Nat} :
    ∀ (ls : List Text) (index : Nat) (result : ResolvedSource) (st : Visit P), unvisited fs st.visited < bound →
      resolveLines fs resolve baseDir fileId index ls result st =
          resolveLines fs resolve' baseDir fileId index ls result st ∧
        resolveLines fs resolve baseDir fileId index ls result st ≠ .error .depth
  | [],index,result,st,_ => by simp [resolveLines]
  | line :: ls,index,result,st,below => by
    rw [resolveLines,resolveLines]
    cases imports : importOf line with
    | none =>
      simp only
      split
      next => exact resolveLines_agree calls agree ls _ _ _ below
      next => simp
    | some found =>
      obtain ⟨path,clause⟩ := found
      cases clause with
      | none =>
        obtain ⟨same,enough⟩ := agree (fs.join baseDir path) st below
        simp only [← same]
        cases called : resolve (fs.join baseDir path) st with
        | error e => exact ⟨rfl,fun depth => enough (called.trans (by cases depth; rfl))⟩
        | ok r => exact resolveLines_agree calls agree ls _ _ _ (Nat.lt_of_le_of_lt (calls.fewer called) below)
      | some ns =>
        obtain ⟨same,enough⟩ := agree (fs.join baseDir path) { st with namespaces := [] } below
        simp only [← same]
        cases called : resolve (fs.join baseDir path) { st with namespaces := [] } with
        | error e => exact ⟨rfl,fun depth => enough (called.trans (by cases depth; rfl))⟩
        | ok r => exact resolveLines_agree calls agree ls _ _ _ below

theorem internFile_panics (b : SourceMapBuilder P) (path : P) : b.internFile path ≠ .error .depth := by
  unfold SourceMapBuilder.internFile
  split
  · simp
  · split <;> simp

/-- Calls nested as deeply as there are files to visit are enough. -/
theorem resolveImports_agree : ∀ (depth more : Nat),
    @AgreeBelow P _ fs depth (resolveImports fs depth) (resolveImports fs (depth + more))
  | 0,more => by
    intro path st none
    exact absurd none (Nat.not_lt_zero _)
  | depth + 1,more => by
    intro path st below
    rw [show depth + 1 + more = depth + more + 1 by omega,resolveImports,resolveImports]
    cases resolved : fs.canonicalize path with
    | error e => simp
    | ok canonical =>
      simp only
      split
      next => simp
      next new =>
        cases interned : st.sourceFiles.internFile canonical with
        | error e => exact ⟨rfl,fun depth => internFile_panics _ _ (interned.trans (by cases depth; rfl))⟩
        | ok r =>
          simp only
          cases fs.readToString canonical with
          | error e => simp
          | ok source =>
            refine resolveLines_agree (resolveImports_calls depth) (resolveImports_agree depth more) _ _ _ _ ?_
            have fewer := unvisited_visit fs (fs.finite resolved) new
            exact Nat.lt_of_lt_of_le fewer (Nat.lt_succ_iff.mp below)

/-- The lines of the program's text -/
def Splice.final (s : Splice P) (file : P) : List Text :=
  (s.lines file 0).map fun l => s.namespaces.foldl replaceNsDot l.1

/-- The text consists of what the lines of the program's file become, and its source map is exact. -/
structure Splice.Exact (s : Splice P) (fs : FileSystem P) (path : P) (text : Text) (map : SourceMap P) (file : P) : Prop where
  entered : fs.canonicalize path = .ok file
  source : ∃ source, fs.readToString file = .ok source ∧ s.Of fs [file] (fs.parent file) (Sources.lines source)
  once : (file :: s.scope).Nodup ∧ ∀ files ∈ s.scopes, files.Nodup
  lines : text = unlines (s.final file)
  clean : ∀ line ∈ s.final file, '\n' ∉ line
  counted : text.count '\n' = map.lines.length ∧ (s.final file).length = map.lines.length
  located : ∀ k line, (s.final file)[k]? = some line → ∀ column, Locates fs map line column (map.location ⟨k + 1,column⟩)

theorem count_unlines {ls : List Text} (clean : ∀ line ∈ ls, '\n' ∉ line) : (unlines ls).count '\n' = ls.length := by
  induction ls with
  | nil => rfl
  | cons line ls later =>
    obtain ⟨own,rest⟩ := List.forall_mem_cons.mp clean
    have counted := later rest
    unfold unlines at *
    rw [List.flatMap_cons,List.count_append,List.count_append,counted,List.count_eq_zero.mpr own]
    simp [Nat.add_comm]

theorem uses_unlines : ∀ {namespaces : List Text}, (∀ ns ∈ namespaces, '\n' ∉ ns) → ∀ ls : List Text,
    namespaces.foldl replaceNsDot (unlines ls) = unlines (ls.map (namespaces.foldl replaceNsDot ·))
  | [],_,ls => by simp
  | ns :: namespaces,clean,ls => by
    obtain ⟨own,rest⟩ := List.forall_mem_cons.mp clean
    rw [List.foldl_cons,replaceNsDot_unlines own,uses_unlines rest,List.map_map]
    rfl

theorem uses_clean : ∀ {namespaces : List Text}, (∀ ns ∈ namespaces, '\n' ∉ ns) → ∀ {line : Text}, '\n' ∉ line →
    '\n' ∉ namespaces.foldl replaceNsDot line
  | [],_,_,clean => clean
  | ns :: namespaces,names,line,clean => by
    obtain ⟨own,rest⟩ := List.forall_mem_cons.mp names
    exact uses_clean rest (replaceNsDot_clean own clean)

theorem loadSource_map {depth : Nat} {path : P} {text : Text} {map : SourceMap P}
    (loaded : loadSource fs depth path = .ok (text,map)) : ∃ (s : Splice P) (file : P), s.Exact fs path text map file := by
  unfold loadSource at loaded
  split at loaded
  next => cases loaded
  next resolved st called =>
    simp only [Except.ok.injEq,Prod.mk.injEq] at loaded
    obtain ⟨rfl,rfl⟩ := loaded
    obtain ⟨file,s,enters,adds⟩ := resolveImports_calls depth _ _ _ _ called
    cases file with
    | none =>
      obtain ⟨⟨_,_,old⟩,-⟩ := enters
      cases old
    | some file =>
      obtain ⟨entered,-,source,read,of⟩ := enters
      have lineClean : ∀ l ∈ s.lines file 0, '\n' ∉ l.1 := of.lines_clean fun _ member => lines_clean member
      obtain ⟨nodup,fresh⟩ := of.scope_fresh
      obtain ⟨records,same,all⟩ := adds.records
      have clean : ∀ line ∈ s.final file, '\n' ∉ line := by
        intro line member
        obtain ⟨l,inside,rfl⟩ := List.mem_map.mp member
        exact uses_clean of.namespaces_clean (lineClean l inside)
      have text : st.namespaces.foldl replaceNsDot resolved.text = unlines (s.final file) := by
        rw [adds.namespaces,adds.text]
        exact (uses_unlines of.namespaces_clean _).trans (by rw [List.map_map]; rfl)
      have lines : resolved.lines = records := by simpa using same
      have counted : (s.final file).length = resolved.lines.length := by
        rw [lines,← all.length_eq]
        exact List.length_map _
      refine ⟨s,file,entered,⟨source,read,of⟩,⟨?_,of.scopes_nodup⟩,text,clean,⟨?_,counted⟩,?_⟩
      · exact List.nodup_cons.mpr ⟨fun member => fresh file member List.mem_cons_self,nodup⟩
      · rw [text,count_unlines clean]
        exact counted
      · intro k line listed column
        unfold Splice.final at listed
        rw [List.getElem?_map] at listed
        obtain ⟨l,own,rfl⟩ := Option.map_eq_some_iff.mp listed
        obtain ⟨record,here,recorded⟩ := all.record own
        have start : s.Of fs [file] (fs.parent file) ((Sources.lines source).drop 0) := of
        have origin := start.comes_from read l (List.mem_of_getElem? own)
        exact locates (lines ▸ here) recorded (origin.uses _)

/-- Two files that import each other, one of them under a namespace -/
def cyclic : FileSystem String where
  canonicalize path := if path ∈ ["a","b"] then .ok path else .error "not found"
  readToString path := .ok (if path = "a" then "use \"b\"\nlet x = 1\n".toList else "use \"a\" as m\n".toList)
  parent _ := ""
  join _ path := String.ofList path
  display path := path
  files := ["a","b"]
  finite found := by
    split at found
    next listed => exact Except.ok.inj found ▸ listed
    next => cases found

example : (loadSource cyclic 3 "a").toOption.map Prod.fst = some "\n\nlet x = 1\n".toList := by decide +kernel

end Oscan.Sources
