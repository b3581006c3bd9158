import Mathlib.Data.List.DropRight

/-! A tree of files with symbolic links, and what a path leads to in it: the pieces between its separators are
followed one by one, and a link's target takes the link's place. -/
namespace Oscan.Library.FileTree

/-- A path as it is written: the pieces may be empty or dots. -/
structure Path where
  absolute : Bool
  pieces : List String
deriving DecidableEq

/-- A piece that stays where it is -/
def still (piece : String) : Bool := piece = "" || piece = "."

/-- A piece that is the name of an entry -/
def plain (piece : String) : Bool := !still piece && piece ≠ ".."

inductive Component where
  | rootDir
  | curDir
  | parentDir
  | normal (name : String)
deriving DecidableEq

namespace Path

def new (s : String) : Path :=
  match (s.toList.splitOn '/').map String.ofList with
  | "" :: piece :: pieces => ⟨true,piece :: pieces⟩
  | pieces => ⟨false,pieces⟩

def body (pieces : List String) : List Component :=
  pieces.filterMap fun piece =>
    if still piece then none else if piece = ".." then some .parentDir else some (.normal piece)

/-- A dot counts only at the beginning of a relative path. -/
def components (p : Path) : List Component :=
  if p.absolute then .rootDir :: body p.pieces
  else if p.pieces.head? = some "." then .curDir :: body p.pieces
  else body p.pieces

def startsWith (p base : Path) : Bool := base.components.isPrefixOf p.components

def join (base p : Path) : Path :=
  if p.absolute then p
  else if base.pieces.getLast? = some "" then ⟨base.absolute,base.pieces.dropLast ++ p.pieces⟩
  else ⟨base.absolute,base.pieces ++ p.pieces⟩

def parent (p : Path) : Option Path :=
  let dotted := p.absolute = false ∧ p.pieces.head? = some "."
  let kept := p.pieces.rdropWhile still
  if kept = [] then if dotted then some ⟨false,[""]⟩ else none
  else
    let before := kept.dropLast.rdropWhile still
    some ⟨p.absolute,if before ≠ [] then before else if dotted then ["."] else [""]⟩

end Path

/-- The names on the way from the root -/
abbrev Place := List String

inductive Node (γ : Type) where
  | dir
  | file (contents : γ)
  | link (target : Path)
deriving DecidableEq

def Node.isDir {γ : Type} : Node γ → Bool
  | .dir => true
  | _ => false

inductive IoError where
  | notFound
  | notADirectory
  | isADirectory
  | tooManyLinks
  | permissionDenied
  | invalidData
deriving DecidableEq

structure Tree (γ : Type) where
  node : Place → Option (Node γ)
  current : Place
  rooted : node [] = some .dir
  placed : node current = some .dir
  closed : ∀ {place name}, (node (place ++ [name])).isSome → node place = some .dir

variable {γ : Type}

/-- The tree of listed places, each of which is in a listed directory -/
def Tree.ofList (entries : List (Place × Node γ)) (current : Place) (rooted : entries.lookup [] = some .dir)
    (placed : entries.lookup current = some .dir)
    (closed : ∀ e ∈ entries, e.1 = [] ∨ entries.lookup e.1.dropLast = some .dir) : Tree γ where
  node place := entries.lookup place
  current := current
  rooted := rooted
  placed := placed
  closed {place name} found := by
    obtain ⟨node,found⟩ := Option.isSome_iff_exists.mp found
    have listed : (place ++ [name],node) ∈ entries := by
      obtain ⟨before,after,same,-⟩ := List.lookup_eq_some_iff.mp found
      simp [same]
    rcases closed _ listed with none | inside
    · simp at none
    · simpa using inside

variable (tree : Tree γ)

def start (p : Path) : Place := if p.absolute then [] else tree.current

/-- The pieces are followed from a directory, with so many links left to follow; a link is left to the caller. -/
def walkWith (follow : Place → Path → List String → Except IoError (Nat × Place)) (left : Nat) :
    Place → List String → Except IoError (Nat × Place)
  | place,[] => .ok (left,place)
  | place,piece :: rest =>
    if tree.node place |>.any Node.isDir then
      if piece = "" ∨ piece = "." then walkWith follow left place rest
      else if piece = ".." then walkWith follow left place.dropLast rest
      else
        match tree.node (place ++ [piece]) with
        | none => .error .notFound
        | some (.link target) => follow place target rest
        | some _ => walkWith follow left (place ++ [piece]) rest
    else .error .notADirectory

/-- A link's target is followed from the root or from the link's directory. -/
def walk : Nat → Place → List String → Except IoError (Nat × Place)
  | 0,place,pieces => walkWith tree (fun _ _ _ => .error .tooManyLinks) 0 place pieces
  | left + 1,place,pieces =>
    walkWith tree (fun here target rest => walk left (if target.absolute then [] else here) (target.pieces ++ rest))
      (left + 1) place pieces

/-- As many links as may be followed on the way -/
def maxLinks : Nat := 40

def canonicalize (p : Path) : Except IoError Place := (walk tree maxLinks (start tree p) p.pieces).map Prod.snd

/-- What a path names when a link at its end is not followed; behind a trailing separator or dot it is. -/
def symlinkMetadata (p : Path) : Except IoError (Node γ) :=
  let whole := (canonicalize tree p).bind fun place =>
    match tree.node place with
    | some node => .ok node
    | none => .error .notFound
  match p.pieces.getLast? with
  | none => whole
  | some last =>
    if last = "" ∨ last = "." ∨ last = ".." then whole
    else (walk tree maxLinks (start tree p) p.pieces.dropLast).bind fun r =>
      if tree.node r.2 |>.any Node.isDir then
        match tree.node (r.2 ++ [last]) with
        | some node => .ok node
        | none => .error .notFound
      else .error .notADirectory

variable {tree}

theorem walkWith_append {follow : Place → Path → List String → Except IoError (Nat × Place)}
    (later : Nat → Place → Except IoError (Nat × Place)) (left : Nat) (more : List String)
    (end_ : ∀ place, walkWith tree follow left place more = later left place)
    (links : ∀ place target rest, follow place target (rest ++ more) = (follow place target rest).bind fun r => later r.1 r.2) :
    ∀ (pieces : List String) (place : Place), walkWith tree follow left place (pieces ++ more) =
      (walkWith tree follow left place pieces).bind fun r => later r.1 r.2
  | [],place => by
    simp only [List.nil_append,walkWith,end_]
    rfl
  | piece :: pieces,place => by
    simp only [List.cons_append,walkWith]
    split
    next =>
      split
      next => exact walkWith_append later left more end_ links pieces place
      next =>
        split
        next => exact walkWith_append later left more end_ links pieces _
        next =>
          split
          next => rfl
          next => exact links _ _ _
          next => exact walkWith_append later left more end_ links pieces _
    next => rfl

/-- The pieces of a path may be followed in two parts. -/
theorem walk_append (more : List String) : ∀ (left : Nat) (place : Place) (pieces : List String),
    walk tree left place (pieces ++ more) = (walk tree left place pieces).bind fun r => walk tree r.1 r.2 more
  | 0,place,pieces => walkWith_append (walk tree · · more) 0 more (fun _ => rfl) (fun _ _ _ => rfl) pieces place
  | left + 1,place,pieces => by
    refine walkWith_append (walk tree · · more) (left + 1) more (fun _ => rfl) (fun here target rest => ?_) pieces place
    rw [← List.append_assoc,walk_append more left]

theorem walk_nil (left : Nat) (place : Place) : walk tree left place [] = .ok (left,place) := by
  cases left <;> rfl

theorem isDir_iff {place : Place} : (tree.node place).any Node.isDir = true ↔ tree.node place = some .dir := by
  cases tree.node place with
  | none => simp
  | some node => cases node <;> simp [Node.isDir]

section Pieces
variable {left : Nat} {place : Place} {piece : String} {rest : List String}

theorem walk_still (dir : tree.node place = some .dir) (stays : still piece = true) :
    walk tree left place (piece :: rest) = walk tree left place rest := by
  have here := isDir_iff.mpr dir
  simp only [still,Bool.or_eq_true,decide_eq_true_eq] at stays
  cases left <;> simp only [walk,walkWith,here,stays,if_true]

theorem walk_up (dir : tree.node place = some .dir) :
    walk tree left place (".." :: rest) = walk tree left place.dropLast rest := by
  have here := isDir_iff.mpr dir
  have other : ¬(".." = "" ∨ ".." = ".") := by decide
  cases left <;> simp only [walk,walkWith,here,other,if_true,if_false]

theorem walk_down (dir : tree.node place = some .dir) (named : plain piece = true) {node : Node γ}
    (found : tree.node (place ++ [piece]) = some node) (direct : ∀ target, node ≠ .link target) :
    walk tree left place (piece :: rest) = walk tree left (place ++ [piece]) rest := by
  have here := isDir_iff.mpr dir
  simp only [plain,still,Bool.and_eq_true,Bool.not_eq_true',Bool.or_eq_false_iff,decide_eq_false_iff_not,
    decide_eq_true_eq] at named
  obtain ⟨⟨some_,dot⟩,up⟩ := named
  cases node with
  | link target => exact absurd rfl (direct target)
  | dir => cases left <;> simp only [walk,walkWith,here,some_,dot,up,found,if_true,if_false,or_self]
  | file => cases left <;> simp only [walk,walkWith,here,some_,dot,up,found,if_true,if_false,or_self]

theorem walk_dir {r : Nat × Place} (walked : walk tree left place (piece :: rest) = .ok r) :
    tree.node place = some .dir := by
  by_contra other
  have blocked : ¬(tree.node place).any Node.isDir = true := mt isDir_iff.mp other
  cases left <;> simp [walk,walkWith,blocked] at walked

end Pieces

theorem dropLast_dir {place : Place} (dir : tree.node place = some .dir) : tree.node place.dropLast = some .dir := by
  rcases List.eq_nil_or_concat' place with rfl | ⟨before,name,rfl⟩
  · exact dir
  · have entry : (tree.node (before ++ [name])).isSome = true := by
      rw [dir]
      rfl
    rw [List.dropLast_concat]
    exact tree.closed entry

/-- Behind a separator, a dot or two of them stands a directory. -/
theorem walk_unnamed {left left' : Nat} {place place' : Place} {pieces : List String} {last : String}
    (unnamed : plain last = false) (walked : walk tree left place (pieces ++ [last]) = .ok (left',place')) :
    tree.node place' = some .dir := by
  rw [walk_append] at walked
  cases before : walk tree left place pieces with
  | error e =>
    rw [before] at walked
    cases walked
  | ok r =>
    rw [before] at walked
    have walked : walk tree r.1 r.2 [last] = .ok (left',place') := walked
    have dir := walk_dir walked
    cases stays : still last with
    | true =>
      rw [walk_still dir stays,walk_nil] at walked
      cases walked
      exact dir
    | false =>
      obtain rfl : last = ".." := by simpa [plain,stays] using unnamed
      rw [walk_up dir,walk_nil] at walked
      cases walked
      exact dropLast_dir dir

theorem start_dir (p : Path) : tree.node (start tree p) = some .dir := by
  unfold start
  split
  · exact tree.rooted
  · exact tree.placed

/-- A file that is no link is named by the last piece of its path, in the directory that the others lead to. -/
structure Staged (tree : Tree γ) (p : Path) (contents : γ) (before : List String) (name : String) (place : Place) :
    Prop where
  pieces : p.pieces = before ++ [name]
  named : plain name = true
  parent : ∃ left, walk tree maxLinks (start tree p) before = .ok (left,place)
  dir : tree.node place = some .dir
  file : tree.node (place ++ [name]) = some (.file contents)

theorem canonicalize_place {p : Path} {place : Place} (found : canonicalize tree p = .ok place) :
    ∃ left, walk tree maxLinks (start tree p) p.pieces = .ok (left,place) := by
  unfold canonicalize at found
  cases walked : walk tree maxLinks (start tree p) p.pieces with
  | error e =>
    rw [walked] at found
    cases found
  | ok r =>
    rw [walked] at found
    cases found
    exact ⟨r.1,rfl⟩

theorem whole_dir {p : Path} (unnamed : p.pieces = [] ∨ ∃ before last, p.pieces = before ++ [last] ∧ plain last = false)
    {place : Place} (found : canonicalize tree p = .ok place) : tree.node place = some .dir := by
  obtain ⟨left,walked⟩ := canonicalize_place found
  rcases unnamed with none | ⟨before,last,pieces,unnamed⟩
  · rw [none,walk_nil] at walked
    cases walked
    exact start_dir p
  · rw [pieces] at walked
    exact walk_unnamed unnamed walked

theorem whole_not_file {p : Path} {contents : γ}
    (unnamed : p.pieces = [] ∨ ∃ before last, p.pieces = before ++ [last] ∧ plain last = false) :
    ((canonicalize tree p).bind fun place =>
      match tree.node place with
      | some node => .ok node
      | none => .error .notFound) ≠ .ok (.file contents) := by
  intro found
  cases canonical : canonicalize tree p with
  | error e =>
    rw [canonical] at found
    cases found
  | ok place =>
    rw [canonical] at found
    simp only [Except.bind,whole_dir unnamed canonical] at found
    cases found

theorem staged_of_metadata {p : Path} {contents : γ} (found : symlinkMetadata tree p = .ok (.file contents)) :
    ∃ before name place, Staged tree p contents before name place := by
  unfold symlinkMetadata at found
  rcases List.eq_nil_or_concat' p.pieces with none | ⟨before,name,pieces⟩
  · simp only [none,List.getLast?_nil] at found
    exact absurd found (whole_not_file (.inl none))
  · simp only [pieces,List.getLast?_append,List.getLast?_singleton,Option.some_or,List.dropLast_concat] at found
    split at found
    next unnamed =>
      refine absurd found (whole_not_file (.inr ⟨before,name,pieces,?_⟩))
      rcases unnamed with rfl | rfl | rfl <;> rfl
    next named =>
      cases walked : walk tree maxLinks (start tree p) before with
      | error e =>
        rw [walked] at found
        cases found
      | ok r =>
        simp only [walked,Except.bind] at found
        split at found
        next dir =>
          split at found
          next node entry =>
            cases found
            refine ⟨before,name,r.2,pieces,?_,⟨r.1,walked⟩,isDir_iff.mp dir,entry⟩
            simp only [not_or] at named
            simp [plain,still,named]
          next => cases found
        next => cases found

theorem Staged.canonical {p : Path} {contents : γ} {before : List String} {name : String} {place : Place}
    (staged : Staged tree p contents before name place) : canonicalize tree p = .ok (place ++ [name]) := by
  obtain ⟨left,walked⟩ := staged.parent
  have last : walk tree left place [name] = .ok (left,place ++ [name]) := by
    rw [walk_down staged.dir staged.named staged.file (by simp),walk_nil]
  unfold canonicalize
  rw [staged.pieces,walk_append,walked]
  change (walk tree left place [name]).map Prod.snd = _
  rw [last]
  rfl

theorem walk_all_still {left : Nat} {place : Place} {r : Nat × Place} : ∀ {pieces : List String},
    (∀ piece ∈ pieces, still piece = true) → walk tree left place pieces = .ok r → r = (left,place)
  | [],_,walked => by
    rw [walk_nil] at walked
    cases walked
    rfl
  | piece :: pieces,stays,walked => by
    obtain ⟨here,later⟩ := List.forall_mem_cons.mp stays
    rw [walk_still (walk_dir walked) here] at walked
    exact walk_all_still later walked

/-- Separators and dots at the end of what leads to a directory change nothing. -/
theorem walk_trimmed {left left' : Nat} {place place' : Place} {pieces : List String}
    (walked : walk tree left place pieces = .ok (left',place')) :
    walk tree left place (pieces.rdropWhile still) = .ok (left',place') := by
  have whole : pieces.rdropWhile still ++ pieces.rtakeWhile still = pieces := List.rdropWhile_append_rtakeWhile
  rw [← whole,walk_append] at walked
  cases before : walk tree left place (pieces.rdropWhile still) with
  | error e =>
    rw [before] at walked
    cases walked
  | ok r =>
    rw [before] at walked
    have rest : walk tree r.1 r.2 (pieces.rtakeWhile still) = .ok (left',place') := walked
    rw [walk_all_still (fun piece member => List.mem_rtakeWhile_imp member) rest]

/-- The directory of a file is where its path's parent leads. -/
theorem Staged.canonical_parent {p : Path} {contents : γ} {before : List String} {name : String} {place : Place}
    (staged : Staged tree p contents before name place) :
    ∃ directory, p.parent = some directory ∧ canonicalize tree directory = .ok place := by
  have kept : p.pieces.rdropWhile still = before ++ [name] := by
    have named := staged.named
    simp only [plain,Bool.and_eq_true,Bool.not_eq_true'] at named
    rw [staged.pieces,List.rdropWhile_concat_neg _ _ _ (by simp [named.1])]
  obtain ⟨left,walked⟩ := staged.parent
  have trimmed := walk_trimmed walked
  have some_ : before ++ [name] ≠ [] := by simp
  refine ⟨_,by simp only [Path.parent,kept,some_,if_false]; rfl,?_⟩
  rw [List.dropLast_concat]
  have leads {pieces : List String} {left : Nat} (walked : walk tree maxLinks (start tree p) pieces = .ok (left,place)) :
      canonicalize tree ⟨p.absolute,pieces⟩ = .ok place := by
    have same : walk tree maxLinks (start tree ⟨p.absolute,pieces⟩) pieces = .ok (left,place) := walked
    unfold canonicalize
    rw [same]
    rfl
  by_cases none : before.rdropWhile still = []
  · rw [none,walk_nil] at trimmed
    obtain ⟨-,rfl⟩ := Prod.mk.inj (Except.ok.inj trimmed)
    have stays {piece : String} (still_ : still piece = true) :
        walk tree maxLinks (start tree p) [piece] = .ok (maxLinks,start tree p) := by
      rw [walk_still (start_dir p) still_,walk_nil]
    rw [none]
    simp only [ne_eq,not_true_eq_false,if_false]
    split
    · exact leads (stays rfl)
    · exact leads (stays rfl)
  · rw [if_pos none]
    exact leads trimmed

end Oscan.Library.FileTree
