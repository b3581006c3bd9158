import Oscan.Syntax.Embedding

/-! String literals with holes: written with their texts escaped and read again, they are the tokens of their texts and
holes. -/
namespace Oscan.Syntax
open Library.Parsing

/-- The lexer reads tokens one after the other, none of them the end. -/
def Reads (rounds : Nat) : Lexer → List TokenKind → Lexer → Prop
  | lexer,[],behind => lexer = behind
  | lexer,kind :: kinds,behind => kind ≠ .eof ∧ ∃ token middle,
      nextToken rounds lexer.modes lexer.toCursor = .ok (token,middle) ∧ token.kind = kind ∧ Reads rounds middle kinds behind

/-- The text between the braces of a hole, and its tokens -/
structure Hole where
  text : List Char
  kinds : List TokenKind

/-- On its own, the text with the closing brace behind it is read as its tokens and that brace, to the last character;
braces are balanced among the tokens, and none stands first in the text, where it would double the one that opens. -/
def Hole.Fits (hole : Hole) : Prop :=
  (∃ behind, Reads (hole.text.length + 2) ⟨⟨hole.text ++ ['\x7d'],⟨1,1⟩⟩,[]⟩ (hole.kinds ++ [.rBrace]) behind ∧
    behind.rest = [] ∧ behind.modes = []) ∧
  tracked bracing 0 hole.kinds = some 0 ∧ hole.text.head? ≠ some '\x7b'

/-- A literal: its first text, and its holes, each with the text behind it -/
structure Literal where
  first : List Char
  parts : List (Hole × List Char)

def escapeChar (ch : Char) : List Char :=
  if ch = '"' then ['\\','"']
  else if ch = '\\' then ['\\','\\']
  else if ch = '\x7b' then ['\x7b','\x7b']
  else if ch = '\x7d' then ['\x7d','\x7d']
  else if ch = '\n' then ['\\','n']
  else [ch]

def escape (text : List Char) : List Char := text.flatMap escapeChar

/-- What is written behind the first text -/
def writeParts : List (Hole × List Char) → List Char
  | [] => ['"']
  | (hole,text) :: parts => '\x7b' :: hole.text ++ '\x7d' :: escape text ++ writeParts parts

def Literal.write (literal : Literal) : List Char := '"' :: escape literal.first ++ writeParts literal.parts

def partKinds : List (Hole × List Char) → List TokenKind
  | [] => []
  | (hole,text) :: parts =>
    hole.kinds ++ (if parts = [] then .interpStringEnd (String.ofList text) else .interpStringMiddle (String.ofList text)) ::
      partKinds parts

/-- The tokens of the holes between the tokens of the texts -/
def Literal.kinds (literal : Literal) : List TokenKind :=
  (if literal.parts = [] then .stringLit (String.ofList literal.first)
    else .interpStringStart (String.ofList literal.first)) :: partKinds literal.parts

/-! A text that is escaped is read as itself -/

theorem readStringSegment_text (startSpan : Span) (isInitial : Bool) (modes : List LexerMode) (text tail : List Char) :
    ∀ (span : Span) (s : List Char), ∃ span', readStringSegment startSpan isInitial modes (escape text ++ tail) span s =
      readStringSegment startSpan isInitial modes tail span' (s ++ text) := by
  induction text with
  | nil => exact fun span s => ⟨span,by rw [List.append_nil]; rfl⟩
  | cons ch text ih =>
    intro span s
    have written : escape (ch :: text) ++ tail = escapeChar ch ++ (escape text ++ tail) := by
      rw [escape,List.flatMap_cons,List.append_assoc,escape]
    have read : ∃ behind, readStringSegment startSpan isInitial modes (escapeChar ch ++ (escape text ++ tail)) span s =
        readStringSegment startSpan isInitial modes (escape text ++ tail) behind (s ++ [ch]) := by
      unfold escapeChar
      split
      · next quote =>
        subst quote
        exact ⟨_,segment_escape '"'⟩
      · split
        · next slash =>
          subst slash
          exact ⟨_,segment_escape '\\'⟩
        · split
          · next opening =>
            subst opening
            exact ⟨_,segment_brace⟩
          · split
            · next closing =>
              subst closing
              exact ⟨_,segment_closing⟩
            · split
              · next feed =>
                subst feed
                exact ⟨_,segment_escape 'n'⟩
              · next quote slash opening closing feed =>
                exact ⟨_,segment_plain quote slash opening closing feed⟩
    obtain ⟨behind,read⟩ := read
    obtain ⟨span',later⟩ := ih behind (s ++ [ch])
    rw [written,read,later,List.append_assoc]
    exact ⟨span',rfl⟩

/-! The tokens of a hole -/

section Holes
variable {rounds more : Nat} {lexer behind : Lexer} {kinds : List TokenKind}

theorem Reads.append {first second : List TokenKind} : ∀ {lexer middle behind : Lexer}, Reads rounds lexer first middle →
    Reads rounds middle second behind → Reads rounds lexer (first ++ second) behind := by
  induction first with
  | nil =>
    intro lexer middle behind same later
    cases same
    exact later
  | cons kind first ih =>
    intro lexer middle behind read later
    obtain ⟨inside,token,next,step,same,rest⟩ := read
    exact ⟨inside,token,next,step,same,ih rest later⟩

/-- A token that is read is taken from the source. -/
theorem Reads.consumes {kind : TokenKind} {kinds : List TokenKind} (enough : lexer.rest.length < rounds)
    (read : Reads rounds lexer (kind :: kinds) behind) : ∃ token middle, token.kind = kind ∧
      nextToken rounds lexer.modes lexer.toCursor = .ok (token,middle) ∧ middle.rest <:+ lexer.rest ∧
      middle.rest.length < lexer.rest.length ∧ Reads rounds middle kinds behind := by
  obtain ⟨inside,token,middle,step,same,rest⟩ := read
  have advances : Advances lexer.rest (token,middle) := (nextToken_ends enough).ok step
  have consumes := advances.resolve_left fun last => inside (same.symm.trans last.1)
  exact ⟨token,middle,same,step,consumes.2.1,consumes.2.2,rest⟩

theorem Reads.some_left {last : TokenKind} (enough : lexer.rest.length < rounds)
    (read : Reads rounds lexer (kinds ++ [last]) behind) :
    lexer.rest ≠ [] := by
  cases kinds with
  | nil =>
    obtain ⟨_,_,_,_,_,fewer,_⟩ := read.consumes enough
    exact List.ne_nil_of_length_pos (by omega)
  | cons kind kinds =>
    obtain ⟨_,_,_,_,_,fewer,_⟩ := read.consumes enough
    exact List.ne_nil_of_length_pos (by omega)

theorem Gets.step {modes modes' : List LexerMode} {c : Cursor} {kind : TokenKind} {left : List Char}
    (gets : Gets (nextToken rounds modes c) kind left modes') (inside : kind ≠ .eof) : ∃ middle : Lexer,
      middle.rest = left ∧ middle.modes = modes' ∧ ∀ {kinds behind}, Reads rounds middle kinds behind →
        Reads rounds ⟨c,modes⟩ (kind :: kinds) behind := by
  obtain ⟨start,span,read⟩ := gets
  exact ⟨⟨⟨left,span⟩,modes'⟩,rfl,rfl,fun later => ⟨inside,_,_,read,rfl,later⟩⟩

theorem closing_read {c : Cursor} {modes modes' : List LexerMode} {left : List Char}
    (read : Gets (tokenAt c modes) .rBrace left modes') : c.peek = some '\x7d' ∧ c.advance.rest = left := by
  by_cases opening : c.peek = some '\x7b'
  · have brace : tokenAt c modes = .ok (⟨.lBrace,c.span⟩,⟨c.advance,modes⟩) := by
      rw [tokenAt,opening]
      rfl
    rw [brace] at read
    cases (gets_ok.mp read).1
  · by_cases closing : c.peek = some '\x7d'
    · have brace : tokenAt c modes = .ok (⟨.rBrace,c.span⟩,⟨c.advance,modes⟩) := by
        rw [tokenAt,closing]
        rfl
      rw [brace] at read
      exact ⟨closing,(gets_ok.mp read).2.1⟩
    · cases (tokenAt_neutral read opening closing).1 0

/-- A hole with no open brace gives no closing one. -/
theorem nextToken_hole_closed {below modes' : List LexerMode} {c : Cursor} {left : List Char}
    (read : Gets (nextToken rounds (holes [0] ++ below) c) .rBrace left modes') : False := by
  simp only [holes,List.cons_append,List.nil_append,nextToken] at read
  cases blanks : skipBlanks rounds c with
  | error fault =>
    obtain ⟨_,_,read⟩ := read
    rw [blanks] at read
    cases read
  | ok e =>
    rw [blanks,ok_bind] at read
    split at read
    · rcases readStringSegment_kind read with ⟨text,same⟩ | ⟨text,same⟩ <;> cases same
    · next inside =>
      split at read
      · cases (gets_ok.mp read).1
      · next noOpening =>
        have noClosing : e.peek ≠ some '\x7d' := fun closing => inside ⟨trivial,closing⟩
        rw [if_neg noClosing,lexNormalToken] at read
        cases rounds with
        | zero => cases blanks
        | succ rounds =>
          rw [skipBlanks_again blanks,ok_bind] at read
          cases (tokenAt_neutral read noOpening noClosing).1 0

/-- The tokens of a hole whose text is read on its own, up to the brace that closes it. -/
theorem kinds_read {tail : List Char} {others : List LexerMode} (le : rounds ≤ more) : ∀ {lexer : Lexer} {inner : List Nat}
    {depth : Nat} {d : Cursor}, lexer.modes = holes inner → Closed lexer.rest → lexer.rest.length < rounds →
      Reads rounds lexer (kinds ++ [.rBrace]) behind → behind.rest = [] →
        tracked bracing (depth + inner.sum) kinds = some 0 → d.rest = lexer.rest ++ tail →
          ∃ last : Lexer, Reads more ⟨d,holes (inner ++ [depth]) ++ others⟩ kinds last ∧ last.modes = holes [0] ++ others ∧
            ∃ e, skipBlanks more last.toCursor = .ok e ∧ e.rest = '\x7d' :: tail := by
  induction kinds with
  | nil =>
    intro lexer inner depth d nested closed enough read ended balanced longer
    obtain ⟨token,middle,same,step,-,-,rfl⟩ := read.consumes enough
    have none_open : depth + inner.sum = 0 := Option.some.inj balanced
    rw [nested] at step
    cases inner with
    | cons top below =>
      have zero : top = 0 := by
        rw [List.sum_cons] at none_open
        omega
      subst zero
      have brace : Gets (nextToken rounds (holes [0] ++ holes below) lexer.toCursor) .rBrace middle.rest middle.modes :=
        ⟨token.span,middle.span,by rw [← same]; exact step⟩
      exact (nextToken_hole_closed brace).elim
    | nil =>
      have zero : depth = 0 := none_open
      subst zero
      rw [holes,nextToken,lexNormalToken] at step
      cases blanks : skipBlanks rounds lexer.toCursor with
      | error fault =>
        rw [blanks] at step
        cases step
      | ok e =>
        rw [blanks,ok_bind] at step
        obtain ⟨closing,rest⟩ := closing_read (c := e) ⟨token.span,middle.span,by rw [← same]; exact step⟩
        have brace : e.rest = ['\x7d'] := by
          obtain ⟨rest',span⟩ := e
          cases rest' with
          | nil => cases closing
          | cons ch rest' =>
            cases closing
            rw [show rest' = [] from rest.trans ended]
        obtain ⟨e',blanks',longer'⟩ := skipBlanks_append blanks ⟨[],brace⟩ enough le longer
        exact ⟨⟨d,_⟩,rfl,rfl,e',blanks',by rw [longer',brace]; rfl⟩
  | cons kind kinds ih =>
    intro lexer inner depth d nested closed enough read ended balanced longer
    obtain ⟨token,middle,rfl,step,suffix,fewer,later⟩ := read.consumes enough
    rw [tracked,Option.bind_eq_some_iff] at balanced
    obtain ⟨count,braced,balanced⟩ := balanced
    rw [nested] at step
    have closed' := closed.suffix suffix (later.some_left (by omega))
    have here : Gets (nextToken rounds (holes inner) lexer.toCursor) token.kind middle.rest middle.modes :=
      ⟨token.span,middle.span,step⟩
    obtain ⟨inner',depth',nested',rfl,embeds⟩ := nextToken_embeds here closed' enough le longer braced
    obtain ⟨next,rest,modes,reads⟩ := (embeds others).step read.1
    obtain ⟨last,read',final⟩ := ih nested' closed' (by omega) later ended balanced rest
    rw [← modes] at read'
    exact ⟨last,reads read',final⟩

end Holes

section Literals
variable {rounds : Nat} {tail : List Char} {modes : List LexerMode}

theorem Hole.Fits.read {hole : Hole} (fits : hole.Fits) (modes : List LexerMode) {c : Cursor} (enough : c.rest.length < rounds)
    (whole : c.rest = hole.text ++ '\x7d' :: tail) : ∃ last : Lexer, Reads rounds ⟨c,holes [0] ++ modes⟩ hole.kinds last ∧
      last.modes = holes [0] ++ modes ∧ ∃ e, skipBlanks rounds last.toCursor = .ok e ∧ e.rest = '\x7d' :: tail := by
  obtain ⟨⟨behind,read,ended,-⟩,balanced,-⟩ := fits
  have longer : c.rest = (hole.text ++ ['\x7d']) ++ tail := by
    rw [whole,List.append_assoc]
    rfl
  have within : hole.text.length + 2 ≤ rounds := by
    rw [whole,List.length_append,List.length_cons] at enough
    omega
  have outside : ([] : List LexerMode) = holes [] := rfl
  have balanced' : tracked bracing (0 + ([] : List Nat).sum) hole.kinds = some 0 := balanced
  exact kinds_read within outside ⟨hole.text,rfl⟩ (by simp) read ended balanced' longer

/-- From the brace that closes a hole, the text behind it is read with what ends it. -/
theorem segment_behind {last : Lexer} {e : Cursor} {text behind : List Char}
    (nested : last.modes = holes [0] ++ modes) (blanks : skipBlanks rounds last.toCursor = .ok e)
    (whole : e.rest = '\x7d' :: (escape text ++ behind)) : ∃ startSpan span,
      nextToken rounds last.modes last.toCursor =
        readStringSegment startSpan false (.stringContinuation :: modes) behind span text := by
  obtain ⟨rest,span⟩ := e
  cases whole
  obtain ⟨span',read⟩ := readStringSegment_text (Span.past span '\x7d') false (.stringContinuation :: modes) text behind
    (Span.past span '\x7d') []
  refine ⟨Span.past span '\x7d',span',?_⟩
  rw [nested]
  simp only [holes,List.cons_append,List.nil_append,nextToken,blanks,ok_bind]
  rw [if_pos ⟨trivial,rfl⟩]
  exact read

theorem writeParts_cons (hole : Hole) (text : List Char) (parts : List (Hole × List Char)) :
    writeParts ((hole,text) :: parts) ++ tail =
      '\x7b' :: (hole.text ++ '\x7d' :: (escape text ++ (writeParts parts ++ tail))) := by
  simp only [writeParts,List.cons_append,List.append_assoc]

theorem Hole.Fits.single {hole : Hole} (fits : hole.Fits) : (hole.text ++ '\x7d' :: tail).head? ≠ some '\x7b' := by
  have apart := fits.2.2
  rw [List.head?_append]
  cases first : hole.text.head? with
  | none => simp
  | some ch =>
    rw [first] at apart
    exact apart

theorem parts_read {parts : List (Hole × List Char)} : ∀ {hole : Hole} {text : List Char} {c : Cursor},
    (∀ part ∈ (hole,text) :: parts, part.1.Fits) → c.rest.length < rounds →
      c.rest = hole.text ++ '\x7d' :: (escape text ++ (writeParts parts ++ tail)) →
        ∃ last : Lexer, Reads rounds ⟨c,holes [0] ++ modes⟩ (partKinds ((hole,text) :: parts)) last ∧
          last.modes = modes ∧ last.rest = tail := by
  induction parts with
  | nil =>
    intro hole text c fits enough whole
    obtain ⟨last,read,nested,e,blanks,closing⟩ := (fits _ List.mem_cons_self).read modes enough whole
    obtain ⟨startSpan,span,step⟩ := segment_behind nested blanks closing
    rw [writeParts,List.singleton_append,segment_quote] at step
    refine ⟨_,read.append ⟨by simp,_,_,step,rfl,rfl⟩,rfl,rfl⟩
  | cons part parts ih =>
    intro hole text c fits enough whole
    obtain ⟨next,text'⟩ := part
    obtain ⟨last,read,nested,e,blanks,closing⟩ := (fits _ List.mem_cons_self).read modes enough whole
    obtain ⟨startSpan,span,step⟩ := segment_behind nested blanks closing
    have later := (List.forall_mem_cons.mp fits).2
    rw [writeParts_cons] at step whole
    rw [segment_hole (later _ List.mem_cons_self).single] at step
    obtain ⟨final,rest,done_modes,left⟩ := ih (c := ⟨_,Span.past span '\x7b'⟩) later (by
      rw [whole] at enough
      simp only [List.length_append,List.length_cons] at enough ⊢
      omega) rfl
    have first : Reads rounds ⟨c,holes [0] ++ modes⟩ (hole.kinds ++ [.interpStringMiddle (String.ofList text)]) _ :=
      read.append ⟨by simp,_,_,step,rfl,rfl⟩
    refine ⟨final,?_,done_modes,left⟩
    rw [partKinds,if_neg (List.cons_ne_nil _ _),List.append_cons]
    exact first.append rest

theorem skipBlanks_quote {c : Cursor} (quote : c.peek = some '"') (enough : 0 < rounds) :
    skipBlanks rounds c = .ok c := by
  obtain ⟨rounds,rfl⟩ : ∃ m, rounds = m + 1 := Nat.exists_eq_succ_of_ne_zero (by omega)
  obtain ⟨rest,span⟩ := c
  cases rest with
  | nil => cases quote
  | cons ch rest =>
    cases quote
    rfl

/-- Where a token is expected, a quote begins a literal. -/
theorem nextToken_quote {c : Cursor} (expects : ∀ below, modes ≠ .stringContinuation :: below)
    (quote : c.peek = some '"') (enough : 0 < rounds) : nextToken rounds modes c =
      readStringSegment c.span true modes c.advance.rest c.advance.span [] := by
  have normal : lexNormalToken rounds c modes = readStringSegment c.span true modes c.advance.rest c.advance.span [] := by
    rw [lexNormalToken,skipBlanks_quote quote enough,ok_bind,tokenAt,quote]
    rfl
  cases modes with
  | nil => exact normal
  | cons mode below =>
    cases mode with
    | stringContinuation => exact absurd rfl (expects below)
    | interpolation depth =>
      rw [nextToken,skipBlanks_quote quote enough,ok_bind]
      simp only [quote,Option.some.injEq,Char.reduceEq,and_false,if_false]
      exact normal

/-- A literal is read as its tokens wherever a token is expected, and leaves the modes as they are. -/
theorem literal_read {literal : Literal} (fits : ∀ part ∈ literal.parts, part.1.Fits) {c : Cursor}
    (expects : ∀ below, modes ≠ .stringContinuation :: below) (whole : c.rest = literal.write ++ tail)
    (enough : c.rest.length < rounds) :
    ∃ last : Lexer, Reads rounds ⟨c,modes⟩ literal.kinds last ∧ last.modes = modes ∧ last.rest = tail := by
  obtain ⟨first,parts⟩ := literal
  obtain ⟨rest,span⟩ := c
  have written : rest = '"' :: (escape first ++ (writeParts parts ++ tail)) := by
    rw [show rest = _ from whole,Literal.write,List.cons_append,List.cons_append,List.append_assoc]
  subst written
  obtain ⟨span',text⟩ := readStringSegment_text span true modes first (writeParts parts ++ tail) (Span.past span '"') []
  have begins := nextToken_quote (c := ⟨'"' :: (escape first ++ (writeParts parts ++ tail)),span⟩) expects rfl
    (Nat.zero_lt_of_lt enough)
  have step := begins.trans text
  rw [Literal.kinds]
  cases parts with
  | nil =>
    rw [writeParts,List.singleton_append,segment_quote] at step
    exact ⟨_,⟨by simp,_,_,step,rfl,rfl⟩,rfl,rfl⟩
  | cons part parts =>
    obtain ⟨hole,text'⟩ := part
    rw [writeParts_cons] at step enough ⊢
    rw [segment_hole (fits _ List.mem_cons_self).single] at step
    obtain ⟨last,rest,done_modes,left⟩ := @parts_read rounds tail modes parts hole text' ⟨_,Span.past span' '\x7b'⟩ fits (by
      simp only [List.length_append,List.length_cons] at enough ⊢
      omega) rfl
    rw [if_neg (List.cons_ne_nil _ _)]
    exact ⟨last,⟨by simp,_,_,step,rfl,rest⟩,done_modes,left⟩

/-- Tokens that are read stand first among all that are made. -/
theorem Reads.tokens {kinds : List TokenKind} : ∀ {n : Nat} {lexer last behind : Lexer} {tokens : List Token},
    Reads rounds lexer kinds last → last.tokens rounds n = .ok (tokens,behind) →
      ∃ front, front.map (·.kind) = kinds ∧ lexer.tokens rounds (kinds.length + n) = .ok (front ++ tokens,behind) := by
  induction kinds with
  | nil =>
    intro n lexer last behind tokens same later
    cases same
    exact ⟨[],rfl,by rw [List.length_nil,Nat.zero_add]; exact later⟩
  | cons kind kinds ih =>
    intro n lexer last behind tokens read later
    obtain ⟨inside,token,middle,step,rfl,rest⟩ := read
    obtain ⟨front,same,made⟩ := ih rest later
    refine ⟨token :: front,by rw [List.map_cons,same],?_⟩
    rw [List.length_cons,Nat.add_right_comm,Lexer.tokens,step,ok_bind]
    dsimp only
    rw [if_neg inside,made]
    rfl

theorem Reads.length {kinds : List TokenKind} : ∀ {lexer last : Lexer}, Reads rounds lexer kinds last →
    lexer.rest.length < rounds → last.rest.length + kinds.length ≤ lexer.rest.length := by
  induction kinds with
  | nil =>
    intro lexer last same enough
    cases same
    exact Nat.le_refl _
  | cons kind kinds ih =>
    intro lexer last read enough
    obtain ⟨token,middle,-,-,-,fewer,later⟩ := read.consumes enough
    have rest := ih later (by omega)
    rw [List.length_cons]
    omega

end Literals

/-- The lexer ends on every source, with all of it consumed or an error of the source, and never counts braces below
zero. A literal with holes, written with the quotes, backslashes, braces and line feeds of its texts escaped, is read as
the tokens of its texts and holes, and leaves the stack of modes empty; within a source, it leaves the stack as it was. -/
theorem interpolation_round_trip :
    (∀ source, Ends (tokenize source) fun result => Proper AtEnd result.1 ∧ result.2.rest = []) ∧
    ∀ literal : Literal, (∀ part ∈ literal.parts, part.1.Fits) →
      (∃ tokens lexer, tokenize (String.ofList literal.write) = .ok (tokens,lexer) ∧
        tokens.map (·.kind) = literal.kinds ++ [.eof] ∧ lexer.modes = [] ∧ lexer.rest = []) ∧
      ∀ (modes : List LexerMode) (c : Cursor) (tail : List Char) (rounds : Nat),
        (∀ below, modes ≠ .stringContinuation :: below) → c.rest = literal.write ++ tail → c.rest.length < rounds →
          ∃ last : Lexer, Reads rounds ⟨c,modes⟩ literal.kinds last ∧ last.modes = modes ∧ last.rest = tail := by
  refine ⟨tokenize_ends,fun literal fits => ⟨?_,?_⟩⟩
  · obtain ⟨last,read,modes,rest⟩ := @literal_read (literal.write.length + 1) [] [] literal fits
      ⟨literal.write,⟨1,1⟩⟩ (by simp) (by simp) (Nat.lt_succ_self _)
    have fewer := read.length (Nat.lt_succ_self _)
    obtain ⟨⟨rest',span⟩,modes'⟩ := last
    cases rest
    cases modes
    have ended : Lexer.tokens (literal.write.length + 1) (literal.write.length - literal.kinds.length + 1)
        ⟨⟨[],span⟩,[]⟩ = .ok ([⟨.eof,span⟩],⟨⟨[],span⟩,[]⟩) := rfl
    obtain ⟨front,same,made⟩ := read.tokens ended
    refine ⟨front ++ [⟨.eof,span⟩],⟨⟨[],span⟩,[]⟩,?_,by simp [same],rfl,rfl⟩
    rw [tokenize,Lexer.new,String.toList_ofList]
    rw [show literal.kinds.length + (literal.write.length - literal.kinds.length + 1) = literal.write.length + 1 by
      rw [List.length_nil,Nat.zero_add] at fewer
      simp only at fewer
      omega] at made
    exact made
  · intro modes c tail rounds expects whole enough
    exact literal_read fits expects whole enough

private def nestedLiteral : Literal :=
  ⟨['a'],[(⟨['"','\x7b','y','\x7d','"'],[.interpStringStart "",.ident "y",.interpStringEnd ""]⟩,['\n'])]⟩

private theorem nested_fits : ∀ part ∈ nestedLiteral.parts, part.1.Fits := by
  intro part member
  obtain rfl := List.mem_singleton.mp member
  refine ⟨⟨⟨⟨[],⟨1,7⟩⟩,[]⟩,?_,rfl,rfl⟩,rfl,by simp⟩
  refine ⟨by simp,⟨.interpStringStart "",⟨1,1⟩⟩,
    ⟨⟨['y','\x7d','"','\x7d'],⟨1,3⟩⟩,[.interpolation 0,.stringContinuation]⟩,by decide +kernel,rfl,?_⟩
  refine ⟨by simp,⟨.ident "y",⟨1,3⟩⟩,⟨⟨['\x7d','"','\x7d'],⟨1,4⟩⟩,[.interpolation 0,.stringContinuation]⟩,
    by decide +kernel,rfl,?_⟩
  refine ⟨by simp,⟨.interpStringEnd "",⟨1,5⟩⟩,⟨⟨['\x7d'],⟨1,6⟩⟩,[]⟩,by decide +kernel,rfl,?_⟩
  exact ⟨by simp,⟨.rBrace,⟨1,6⟩⟩,⟨⟨[],⟨1,7⟩⟩,[]⟩,by decide +kernel,rfl,rfl⟩

theorem interpolation_round_trip_nested : ∃ tokens lexer, tokenize (String.ofList nestedLiteral.write) = .ok (tokens,lexer) ∧
    tokens.map (·.kind) = nestedLiteral.kinds ++ [.eof] ∧ lexer.modes = [] ∧ lexer.rest = [] :=
  (interpolation_round_trip.2 nestedLiteral nested_fits).1

/-- A line feed that is not escaped ends no literal, and a hole whose text begins with a brace is no hole. -/
theorem unwritten_literals :
    tokenize "\"\n\"" = .error (.error ⟨⟨1,1⟩,"unterminated string literal"⟩) ∧
    tokenize "\"\x7b\x7b\x7d\x7d\"" = .ok ([⟨.stringLit "\x7b\x7d",⟨1,1⟩⟩,⟨.eof,⟨1,7⟩⟩],⟨⟨[],⟨1,7⟩⟩,[]⟩) := by
  decide +kernel

end Oscan.Syntax
