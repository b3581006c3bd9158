import Oscan.Sources.Text
import Oscan.Ast

/-! Import resolution: the lines of imported files take the place of the lines that import them, and every line of
the text is recorded with the file and the line that it came from. -/
namespace Oscan.Sources

/-- What import resolution asks of the file system. Canonical paths are those of its files, of which there are
finitely many. -/
structure FileSystem (P : Type) where
  canonicalize : P → Except String P
  readToString : P → Except String Text
  parent : P → P
  join : P → Text → P
  display : P → String
  files : List P
  finite : ∀ {path canonical}, canonicalize path = .ok canonical → canonical ∈ files

structure SourceLine where
  file : Nat
  line : Nat

structure SourceLocation where
  file : Nat
  line : Nat
  column : Nat

structure SourceMap (P : Type) where
  files : List P
  lines : List (Option SourceLine)

def SourceMap.location {P : Type} (map : SourceMap P) (span : Span) : Option SourceLocation :=
  if span.line = 0 then none
  else
    match map.lines[span.line - 1]? with
    | some (some origin) => some ⟨origin.file,origin.line,min (max span.column 1) (UInt32.size - 1)⟩
    | _ => none

inductive Failure where
  | error (message : String)
  | panic (message : String)
  /-- The calls are nested deeper than the model allows. -/
  | depth

variable {P : Type} [DecidableEq P]

/-- An identifier is the place of its file. -/
structure SourceMapBuilder (P : Type) [DecidableEq P] where
  files : List P
  fileIds : List (P × Nat)
  known : ∀ p id, fileIds.lookup p = some id → files[id]? = some p

namespace SourceMapBuilder

def empty : SourceMapBuilder P := ⟨[],[],by simp⟩

theorem known_push (b : SourceMapBuilder P) (path p : P) (id : Nat)
    (found : ((path,b.files.length) :: b.fileIds).lookup p = some id) : (b.files ++ [path])[id]? = some p := by
  rw [List.lookup_cons] at found
  split at found
  next same =>
    obtain rfl := Option.some.inj found
    rw [beq_iff_eq.mp same]
    simp
  next =>
    have old := b.known p id found
    obtain ⟨inside,-⟩ := List.getElem?_eq_some_iff.mp old
    rw [List.getElem?_append_left inside]
    exact old

def internFile (b : SourceMapBuilder P) (path : P) : Except Failure (Nat × SourceMapBuilder P) :=
  match b.fileIds.lookup path with
  | some id => .ok (id,b)
  | none =>
    if b.files.length < UInt32.size then
      .ok (b.files.length,⟨b.files ++ [path],(path,b.files.length) :: b.fileIds,b.known_push path⟩)
    else .error (.panic "too many source files for debug information")

def finish (b : SourceMapBuilder P) (lines : List (Option SourceLine)) : SourceMap P := ⟨b.files,lines⟩

end SourceMapBuilder

structure ResolvedSource where
  text : Text
  lines : List (Option SourceLine)

namespace ResolvedSource

def append (result other : ResolvedSource) : ResolvedSource := ⟨result.text ++ other.text,result.lines ++ other.lines⟩

def pushLine (result : ResolvedSource) (text : Text) (origin : Option SourceLine) : ResolvedSource :=
  ⟨result.text ++ text ++ ['\n'],result.lines ++ [origin]⟩

end ResolvedSource

/-- What the calls share -/
structure Visit (P : Type) [DecidableEq P] where
  visited : List P
  namespaces : List Text
  sourceFiles : SourceMapBuilder P

abbrev Resolve (P : Type) [DecidableEq P] := P → Visit P → Except Failure (ResolvedSource × Visit P)

/-- The loop over the lines of a file -/
def resolveLines (fs : FileSystem P) (resolve : Resolve P) (baseDir : P) (fileId : Nat) :
    Nat → List Text → ResolvedSource → Visit P → Except Failure (ResolvedSource × Visit P)
  | _,[],result,st => .ok (result,st)
  | lineIndex,line :: rest,result,st =>
    match importOf line with
    | some (importPath,some ns) =>
      match resolve (fs.join baseDir importPath) { st with namespaces := [] } with
      | .error e => .error e
      | .ok (imported,inner) =>
        let mangled := { imported with text := mangleTopLevelNames imported.text ns }
        resolveLines fs resolve baseDir fileId (lineIndex + 1) rest ((result.append mangled).pushLine [] none)
          ⟨st.visited,st.namespaces ++ ns :: inner.namespaces,inner.sourceFiles⟩
    | some (importPath,none) =>
      match resolve (fs.join baseDir importPath) st with
      | .error e => .error e
      | .ok (imported,next) =>
        resolveLines fs resolve baseDir fileId (lineIndex + 1) rest ((result.append imported).pushLine [] none) next
    | none =>
      if lineIndex + 1 < UInt32.size then
        resolveLines fs resolve baseDir fileId (lineIndex + 1) rest
          (result.pushLine line (some ⟨fileId,lineIndex + 1⟩)) st
      else .error (.panic "source file has too many lines for debug information")

/-- The number bounds how deeply calls are nested. -/
def resolveImports (fs : FileSystem P) : Nat → Resolve P
  | 0,_,_ => .error .depth
  | depth + 1,path,st =>
    match fs.canonicalize path with
    | .error e => .error (.error s!"cannot resolve {fs.display path}: {e}")
    | .ok canonical =>
      if canonical ∈ st.visited then .ok (⟨[],[]⟩,st)
      else
        match st.sourceFiles.internFile canonical with
        | .error e => .error e
        | .ok (fileId,sourceFiles) =>
          match fs.readToString canonical with
          | .error e => .error (.error s!"cannot read {fs.display path}: {e}")
          | .ok source =>
            resolveLines fs (resolveImports fs depth) (fs.parent canonical) fileId 0 (lines source) ⟨[],[]⟩
              ⟨canonical :: st.visited,st.namespaces,sourceFiles⟩

/-- The source text of a program, with its source map -/
def loadSource (fs : FileSystem P) (depth : Nat) (path : P) : Except Failure (Text × SourceMap P) :=
  match resolveImports fs depth path ⟨[],[],.empty⟩ with
  | .error e => .error e
  | .ok (resolved,st) => .ok (st.namespaces.foldl replaceNsDot resolved.text,st.sourceFiles.finish resolved.lines)

end Oscan.Sources
