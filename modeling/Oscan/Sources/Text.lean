import Oscan.Library.Rewriting
import Mathlib.Data.List.Sort

/-! Source text before it is lexed: its lines, the lines that import other files, and the renaming of what a
namespaced import declares. -/
namespace Oscan.Sources
open Library

abbrev Text := List Char

/-- `char::is_whitespace` -/
def isWhitespace (c : Char) : Bool :=
  let n := c.toNat
  (0x09 ≤ n && n ≤ 0x0d) || n = 0x20 || n = 0x85 || n = 0xa0 || n = 0x1680 || (0x2000 ≤ n && n ≤ 0x200a) ||
    n = 0x2028 || n = 0x2029 || n = 0x202f || n = 0x205f || n = 0x3000

def trim (s : Text) : Text :=
  (((s.dropWhile isWhitespace).reverse).dropWhile isWhitespace).reverse

/-- A line without its ending, from its characters in reverse order -/
def endLine : Text → Text
  | '\r' :: cs => cs.reverse
  | cs => cs.reverse

/-- `str::lines`: the characters read of the current line come in reverse order. -/
def linesFrom : Text → Text → List Text
  | [],[] => []
  | line@(_ :: _),[] => [line.reverse]
  | line,c :: cs => if c = '\n' then endLine line :: linesFrom [] cs else linesFrom (c :: line) cs

def lines (source : Text) : List Text := linesFrom [] source

def isIdentStart (c : Char) : Bool := c.isAlpha || c = '_'

def isIdent (c : Char) : Bool := c.isAlphanum || c = '_'

def parseAsClause (afterQuote : Text) : Option Text :=
  if "as ".toList.isPrefixOf afterQuote then
    let ns := trim (afterQuote.drop 3)
    match ns with
    | [] => none
    | first :: _ => if isIdentStart first && ns.all isIdent then some ns else none
  else none

/-- The path of an import line, and the namespace if it has one -/
def importOf (line : Text) : Option (Text × Option Text) :=
  let trimmed := trim line
  if "use \"".toList.isPrefixOf trimmed then
    let rest := trimmed.drop 5
    if '"' ∈ rest then
      some (rest.takeWhile (· ≠ '"'),parseAsClause (trim ((rest.dropWhile (· ≠ '"')).drop 1)))
    else none
  else none

def declarationKeywords : List Text := ["fn ".toList,"fn! ".toList,"struct ".toList,"enum ".toList,"let ".toList]

def topLevelName (line : Text) : Option Text :=
  match declarationKeywords.find? (·.isPrefixOf line) with
  | none => none
  | some kw =>
    let name := (line.drop kw.length).takeWhile isIdent
    if name = [] then none else some name

def findTopLevelNames (source : Text) : List Text := (lines source).filterMap topLevelName

def bytes (s : Text) : List UInt8 := s.flatMap String.utf8EncodeChar

def isIdentChar (b : UInt8) : Bool := isIdent (Char.ofNat b.toNat)

/-- `bytes[i] as char` -/
def byteChar (b : UInt8) : Char := Char.ofNat b.toNat

/-- The word is not part of a longer one. -/
def wordFound (word : List UInt8) : Option UInt8 → List UInt8 → Bool :=
  Rewriting.standing word (fun before => before.all (!isIdentChar ·)) fun after => after.all (!isIdentChar ·)

/-- No name of a declaration is empty. -/
def replaceWordBoundary (source word replacement : Text) : Text :=
  Rewriting.rewrite (wordFound (bytes word)) (bytes word).length replacement byteChar none 0 (bytes source)

def nsDotFound (nsDot : List UInt8) : Option UInt8 → List UInt8 → Bool :=
  Rewriting.standing nsDot (fun before => before.all (!isIdentChar ·)) fun after =>
    after.any fun b => isIdentStart (byteChar b)

def replaceNsDot (source ns : Text) : Text :=
  Rewriting.rewrite (nsDotFound (bytes (ns ++ ['.']))) (bytes (ns ++ ['.'])).length (ns ++ ['_']) byteChar none 0
    (bytes source)

/-- Longest first; `sort_by` is stable. -/
def sortedNames (names : List Text) : List Text := names.mergeSort fun a b => decide (b.length ≤ a.length)

def mangleTopLevelNames (source ns : Text) : Text :=
  (sortedNames (findTopLevelNames source)).foldl (fun result name => replaceWordBoundary result name (ns ++ '_' :: name))
    source

/-- The text that has the lines -/
def unlines (ls : List Text) : Text := ls.flatMap (· ++ ['\n'])

theorem ofNat_ten {n : Nat} (same : (10 : UInt8) = UInt8.ofNat n) : n % 256 = 10 := by
  have values := congrArg UInt8.toNat same
  rw [UInt8.toNat_ofNat'] at values
  exact values.symm

/-- Only a newline has the byte of a newline in its encoding. -/
theorem utf8_newline {c : Char} : (10 : UInt8) ∈ String.utf8EncodeChar c ↔ c = '\n' := by
  constructor
  · intro member
    unfold String.utf8EncodeChar at member
    simp only at member
    split at member
    next small =>
      have value := ofNat_ten (List.mem_singleton.mp member)
      apply Char.ext
      apply UInt32.toNat_inj.mp
      change c.val.toNat = 10
      omega
    next =>
      exfalso
      split at member
      · simp only [List.mem_cons,List.not_mem_nil,or_false] at member
        rcases member with same | same <;> have value := ofNat_ten same <;> omega
      · split at member
        · simp only [List.mem_cons,List.not_mem_nil,or_false] at member
          rcases member with same | same | same <;> have value := ofNat_ten same <;> omega
        · simp only [List.mem_cons,List.not_mem_nil,or_false] at member
          rcases member with same | same | same | same <;> have value := ofNat_ten same <;> omega
  · intro same
    subst same
    decide

theorem mem_bytes {s : Text} : (10 : UInt8) ∈ bytes s ↔ '\n' ∈ s := by
  unfold bytes
  rw [List.mem_flatMap]
  constructor
  · intro ⟨c,member,inside⟩
    exact utf8_newline.mp inside ▸ member
  · intro member
    exact ⟨'\n',member,utf8_newline.mpr rfl⟩

theorem bytes_ne_nil {s : Text} (some_ : s ≠ []) : bytes s ≠ [] := by
  cases s with
  | nil => exact absurd rfl some_
  | cons c s =>
    unfold bytes
    rw [List.flatMap_cons]
    intro none
    exact String.utf8EncodeChar_ne_nil (List.append_eq_nil_iff.mp none).1

theorem bytes_append (s t : Text) : bytes (s ++ t) = bytes s ++ bytes t := List.flatMap_append

theorem bytes_unlines (ls : List Text) : bytes (unlines ls) = (ls.map bytes).flatMap (· ++ [10]) := by
  induction ls with
  | nil => rfl
  | cons l ls later =>
    have ending : bytes ['\n'] = [10] := by decide
    unfold unlines at *
    rw [List.flatMap_cons,bytes_append,bytes_append,later,ending,List.map_cons,List.flatMap_cons]

theorem byteChar_newline {b : UInt8} : byteChar b = '\n' ↔ b = 10 := by
  have all : ∀ n < 256, Char.ofNat n = '\n' ↔ n = 10 := by decide +kernel
  unfold byteChar
  rw [all b.toNat b.toNat_lt,← UInt8.toNat_inj]
  rfl

/-- The lines of a text are rewritten one by one. -/
theorem replaceWordBoundary_unlines {word : Text} (some_ : word ≠ []) (inside : '\n' ∉ word) (replacement : Text)
    (ls : List Text) : replaceWordBoundary (unlines ls) word replacement =
      unlines (ls.map (replaceWordBoundary · word replacement)) := by
  have near : Rewriting.Local (wordFound (bytes word)) (bytes word).length 10 :=
    Rewriting.standing_local (bytes_ne_nil some_) (mt mem_bytes.mp inside) (by decide) (by decide)
  unfold replaceWordBoundary
  rw [bytes_unlines,Rewriting.rewrite_lines near,List.flatMap_map,unlines,List.flatMap_map,byteChar_newline.mpr rfl]

theorem replaceNsDot_unlines {ns : Text} (inside : '\n' ∉ ns) (ls : List Text) :
    replaceNsDot (unlines ls) ns = unlines (ls.map (replaceNsDot · ns)) := by
  have near : Rewriting.Local (nsDotFound (bytes (ns ++ ['.']))) (bytes (ns ++ ['.'])).length 10 := by
    refine Rewriting.standing_local (bytes_ne_nil (by simp)) (mt mem_bytes.mp ?_) (by decide) (by decide)
    simpa using inside
  unfold replaceNsDot
  rw [bytes_unlines,Rewriting.rewrite_lines near,List.flatMap_map,unlines,List.flatMap_map,byteChar_newline.mpr rfl]

theorem rewrite_newline_free {found : Option UInt8 → List UInt8 → Bool} {width : Nat} {replacement source : Text}
    (clean : '\n' ∉ source) (new : '\n' ∉ replacement) :
    '\n' ∉ Rewriting.rewrite found width replacement byteChar none 0 (bytes source) := by
  intro member
  rcases Rewriting.mem_rewrite member with inserted | ⟨b,inside,kept⟩
  · exact new inserted
  · rw [byteChar_newline.mp kept.symm] at inside
    exact clean (mem_bytes.mp inside)

theorem isIdent_clean {name : Text} (ident : ∀ c ∈ name, isIdent c = true) : '\n' ∉ name := by
  intro member
  exact absurd (ident '\n' member) (by decide)

theorem takeWhile_ident (s : Text) : ∀ c ∈ s.takeWhile isIdent, isIdent c = true :=
  List.all_eq_true.mp List.all_takeWhile

theorem topLevelName_ident {line name : Text} (found : topLevelName line = some name) :
    name ≠ [] ∧ '\n' ∉ name := by
  unfold topLevelName at found
  split at found
  next => cases found
  next kw _ =>
    simp only at found
    split at found
    next => cases found
    next some_ =>
      obtain rfl := Option.some.inj found
      exact ⟨some_,isIdent_clean (takeWhile_ident _)⟩

theorem sortedNames_ident {source name : Text} (member : name ∈ sortedNames (findTopLevelNames source)) :
    name ≠ [] ∧ '\n' ∉ name := by
  unfold sortedNames at member
  rw [List.mem_mergeSort] at member
  obtain ⟨line,-,found⟩ := List.mem_filterMap.mp member
  exact topLevelName_ident found

theorem parseAsClause_clean {s ns : Text} (parsed : parseAsClause s = some ns) : '\n' ∉ ns := by
  unfold parseAsClause at parsed
  split at parsed
  next =>
    simp only at parsed
    split at parsed
    next => cases parsed
    next =>
      split at parsed
      next clause =>
        obtain rfl := Option.some.inj parsed
        simp only [Bool.and_eq_true,List.all_eq_true] at clause
        exact isIdent_clean clause.2
      next => cases parsed
  next => cases parsed

theorem importOf_clean {line path ns : Text} (imports : importOf line = some (path,some ns)) : '\n' ∉ ns := by
  unfold importOf at imports
  simp only at imports
  split at imports
  next =>
    split at imports
    next =>
      simp only [Option.some.injEq,Prod.mk.injEq] at imports
      exact parseAsClause_clean imports.2
    next => cases imports
  next => cases imports

def mangleLine (names : List Text) (ns line : Text) : Text :=
  names.foldl (fun result name => replaceWordBoundary result name (ns ++ '_' :: name)) line

theorem mangleLine_unlines (ns : Text) : ∀ {names : List Text}, (∀ name ∈ names, name ≠ [] ∧ '\n' ∉ name) →
    ∀ ls : List Text, mangleLine names ns (unlines ls) = unlines (ls.map (mangleLine names ns))
  | [],_,ls => by
    change unlines ls = unlines (ls.map id)
    rw [List.map_id]
  | name :: names,good,ls => by
    obtain ⟨⟨some_,clean⟩,later⟩ := List.forall_mem_cons.mp good
    have rest := mangleLine_unlines ns later (ls.map (replaceWordBoundary · name (ns ++ '_' :: name)))
    unfold mangleLine at *
    rw [List.foldl_cons,replaceWordBoundary_unlines some_ clean,rest,List.map_map]
    rfl

/-- The names that a text declares are renamed line by line. -/
theorem mangleTopLevelNames_unlines (ns : Text) (ls : List Text) : mangleTopLevelNames (unlines ls) ns =
    unlines (ls.map (mangleLine (sortedNames (findTopLevelNames (unlines ls))) ns)) :=
  mangleLine_unlines ns (fun _ member => sortedNames_ident member) ls

theorem mangleLine_clean {ns : Text} (own : '\n' ∉ ns) : ∀ {names : List Text},
    (∀ name ∈ names, name ≠ [] ∧ '\n' ∉ name) → ∀ {line : Text}, '\n' ∉ line → '\n' ∉ mangleLine names ns line
  | [],_,_,clean => clean
  | name :: names,good,line,clean => by
    obtain ⟨⟨-,nameClean⟩,later⟩ := List.forall_mem_cons.mp good
    refine mangleLine_clean own later (rewrite_newline_free clean ?_)
    simp [own,nameClean]

theorem replaceNsDot_clean {ns line : Text} (own : '\n' ∉ ns) (clean : '\n' ∉ line) :
    '\n' ∉ replaceNsDot line ns :=
  rewrite_newline_free clean (by simp [own])

theorem endLine_subset {s : Text} {c : Char} (member : c ∈ endLine s) : c ∈ s := by
  unfold endLine at member
  split at member
  · exact List.mem_cons_of_mem _ (List.mem_reverse.mp member)
  · exact List.mem_reverse.mp member

theorem linesFrom_clean : ∀ {source started line : Text}, '\n' ∉ started → line ∈ linesFrom started source →
    '\n' ∉ line
  | [],[],_,_,member => by cases member
  | [],c :: cs,line,clean,member => by
    obtain rfl := List.mem_singleton.mp member
    exact fun inside => clean (List.mem_reverse.mp inside)
  | c :: cs,started,line,clean,member => by
    rw [linesFrom] at member
    split at member
    next =>
      rcases List.mem_cons.mp member with rfl | later
      · exact fun inside => clean (endLine_subset inside)
      · exact linesFrom_clean (by simp) later
    next other => exact linesFrom_clean (by simp [clean,Ne.symm other]) member

theorem lines_clean {source line : Text} (member : line ∈ lines source) : '\n' ∉ line :=
  linesFrom_clean (by simp) member

end Oscan.Sources
