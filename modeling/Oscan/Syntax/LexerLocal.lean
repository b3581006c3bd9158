import Mathlib.Data.List.DropRight
import Oscan.Syntax.LexerSound

/-! What the lexer reads in front of a closing brace does not depend on what stands behind the brace, nor on the place
of the cursor. -/
namespace Oscan.Syntax

/-- Text that ends with a closing brace -/
def Closed (rest : List Char) : Prop := ∃ front, rest = front ++ ['\x7d']

theorem Closed.nonempty {rest : List Char} (closed : Closed rest) : rest ≠ [] := by
  obtain ⟨front,rfl⟩ := closed
  simp

theorem Closed.of_suffix {left rest : List Char} (closed : Closed left) (suffix : left <:+ rest) : Closed rest := by
  obtain ⟨front,rfl⟩ := closed
  obtain ⟨before,rfl⟩ := suffix
  exact ⟨before ++ front,(List.append_assoc _ _ _).symm⟩

theorem Closed.suffix {left rest : List Char} (closed : Closed rest) (suffix : left <:+ rest) (some_left : left ≠ []) :
    Closed left := by
  obtain ⟨front,same⟩ := closed
  obtain ⟨before,rfl⟩ := suffix
  rw [← List.dropLast_append_getLast some_left,← List.append_assoc] at same
  have last := List.append_inj_right' same rfl
  exact ⟨left.dropLast,by rw [← last,List.dropLast_append_getLast some_left]⟩

/-- Behind another character than the brace, one more follows. -/
theorem Closed.follows {ch : Char} {rest : List Char} (closed : Closed (ch :: rest)) (other : ch ≠ '\x7d') : rest ≠ [] := by
  rintro rfl
  obtain ⟨front,same⟩ := closed
  cases front with
  | nil => exact other (List.cons.inj same).1
  | cons first front => simp at same

section Cursors
variable {c d : Cursor} {tail : List Char}

theorem peek_append (longer : d.rest = c.rest ++ tail) (left : c.rest ≠ []) : d.peek = c.peek := by
  rw [Cursor.peek,longer,List.head?_append_of_ne_nil _ left,Cursor.peek]

theorem peekAhead_append {offset : Nat} (longer : d.rest = c.rest ++ tail) (within : offset < c.rest.length) :
    d.peekAhead offset = c.peekAhead offset := by
  rw [Cursor.peekAhead,longer,List.getElem?_append_left within,Cursor.peekAhead]

theorem advance_append (longer : d.rest = c.rest ++ tail) (left : c.rest ≠ []) :
    d.advance.rest = c.advance.rest ++ tail := by
  obtain ⟨rest,span⟩ := c
  obtain ⟨rest',span'⟩ := d
  cases rest with
  | nil => exact absurd rfl left
  | cons ch rest =>
    cases longer
    rfl

theorem takeWhile_append {test : Char → Bool} (longer : d.rest = c.rest ++ tail)
    (left : (c.takeWhile test).2.rest ≠ []) : (d.takeWhile test).1 = (c.takeWhile test).1 ∧
      (d.takeWhile test).2.rest = (c.takeWhile test).2.rest ++ tail := by
  change c.rest.dropWhile test ≠ [] at left
  have short : (c.rest.takeWhile test).length ≠ c.rest.length := by
    have parts := congrArg List.length (List.takeWhile_append_dropWhile (p := test) (l := c.rest))
    have := List.length_pos_of_ne_nil left
    rw [List.length_append] at parts
    omega
  constructor
  · rw [Cursor.takeWhile,longer,List.takeWhile_append,if_neg short,Cursor.takeWhile]
  · rw [Cursor.takeWhile,longer,List.dropWhile_append,if_neg (by simpa using left),Cursor.takeWhile]

end Cursors

theorem skipBlockComment_append {startSpan : Span} (tail : List Char) : ∀ {rest : List Char} {span : Span} {c : Cursor},
    skipBlockComment startSpan rest span = .ok c → c.rest ≠ [] → ∀ startSpan' span',
      ∃ d, skipBlockComment startSpan' (rest ++ tail) span' = .ok d ∧ d.rest = c.rest ++ tail := by
  intro rest
  induction rest with
  | nil =>
    intro span c skipped
    cases skipped
  | cons ch rest ih =>
    intro span c skipped left startSpan' span'
    rw [skipBlockComment] at skipped
    rw [List.cons_append,skipBlockComment]
    have more : rest ≠ [] := by
      rintro rfl
      simp [skipBlockComment,failAt] at skipped
    rw [List.head?_append_of_ne_nil _ more]
    split at skipped
    · next closes =>
      cases skipped
      rw [if_pos closes]
      exact ⟨_,rfl,advance_append rfl more⟩
    · next inside =>
      rw [if_neg inside]
      exact ih skipped left startSpan' _

/-- What stands behind another character than the brace is there to be looked at. -/
theorem ahead_append {c d : Cursor} {tail : List Char} {ch : Char} (closed : Closed c.rest)
    (longer : d.rest = c.rest ++ tail) (there : c.peek = some ch) (other : ch ≠ '\x7d') :
    d.peekAhead 1 = c.peekAhead 1 := by
  rw [peekAhead_append longer]
  obtain ⟨rest,span⟩ := c
  cases rest with
  | nil => cases there
  | cons first rest =>
    cases there
    have more := List.length_pos_of_ne_nil (closed.follows other)
    rw [List.length_cons]
    omega

/-- A comment is open in front of more text exactly where it is open. -/
theorem opens_append {c d : Cursor} {tail : List Char} (closed : Closed c.rest) (longer : d.rest = c.rest ++ tail)
    (mark : Char) : (d.peek = some '/' ∧ d.peekAhead 1 = some mark) ↔
      (c.peek = some '/' ∧ c.peekAhead 1 = some mark) := by
  rw [peek_append longer closed.nonempty]
  exact and_congr_right fun slash => by rw [ahead_append closed longer slash (by decide)]

theorem skipBlanks_append {rounds : Nat} {tail : List Char} : ∀ {c d behind : Cursor} {more : Nat},
    skipBlanks rounds c = .ok behind → Closed behind.rest → c.rest.length < rounds → rounds ≤ more →
      d.rest = c.rest ++ tail → ∃ behind', skipBlanks more d = .ok behind' ∧ behind'.rest = behind.rest ++ tail := by
  induction rounds with
  | zero => exact fun _ _ no => absurd no (Nat.not_lt_zero _)
  | succ rounds ih =>
    intro c d behind more skipped closed enough le longer
    obtain ⟨more,rfl⟩ : ∃ m, more = m + 1 := Nat.exists_eq_succ_of_ne_zero (by omega)
    have fewer : (skipWhitespace c).rest <:+ c.rest := takeWhile_suffix c _
    have white (closed : Closed (skipWhitespace c).rest) : (skipWhitespace d).rest = (skipWhitespace c).rest ++ tail :=
      (takeWhile_append longer closed.nonempty).2
    rw [skipBlanks] at skipped ⊢
    dsimp only at skipped ⊢
    split at skipped
    · next slashes =>
      have opened := (advance_behind slashes.1).suffix fewer
      have line : (skipLineComment (skipWhitespace c).advance.advance).rest <:+ (skipWhitespace c).advance.advance.rest :=
        takeWhile_suffix _ _
      have within : (skipLineComment (skipWhitespace c).advance.advance).rest.length < rounds := by
        have first := line.length_le
        have second := (advance_suffix (skipWhitespace c).advance).length_le
        have third := opened.2
        omega
      have closedLine := closed.of_suffix ((skipBlanks_ends within).ok skipped)
      have closedSecond := closedLine.of_suffix line
      have closedFirst := closedSecond.of_suffix (advance_suffix _)
      have closedWhite := closedFirst.of_suffix (advance_suffix _)
      have longerWhite := white closedWhite
      rw [if_pos ((opens_append closedWhite longerWhite '/').mpr slashes)]
      have twice := advance_append (advance_append longerWhite closedWhite.nonempty) closedFirst.nonempty
      exact ih skipped closed within (by omega) (takeWhile_append twice closedLine.nonempty).2
    · next plain =>
      split at skipped
      · next star =>
        have opened := (advance_behind star.1).suffix fewer
        have second := advance_suffix (skipWhitespace c).advance
        cases comment : skipBlockComment (skipWhitespace c).advance.advance.span
            (skipWhitespace c).advance.advance.rest (skipWhitespace c).advance.advance.span with
        | error fault =>
          rw [comment] at skipped
          cases skipped
        | ok e =>
          rw [comment] at skipped
          have block := (skipBlockComment_ends _ _ _).ok comment
          have within : e.rest.length < rounds := by
            have first := block.length_le
            have third := second.length_le
            have fourth := opened.2
            omega
          have closedBlock : Closed e.rest := closed.of_suffix ((skipBlanks_ends within).ok skipped)
          have closedSecond := closedBlock.of_suffix block
          have closedFirst := closedSecond.of_suffix second
          have closedWhite := closedFirst.of_suffix (advance_suffix _)
          have longerWhite := white closedWhite
          rw [if_neg ((opens_append closedWhite longerWhite '/').not.mpr plain),
            if_pos ((opens_append closedWhite longerWhite '*').mpr star)]
          have twice := advance_append (advance_append longerWhite closedWhite.nonempty) closedFirst.nonempty
          obtain ⟨e',comment',longer'⟩ := skipBlockComment_append tail comment closedBlock.nonempty
            (skipWhitespace d).advance.advance.span (skipWhitespace d).advance.advance.span
          rw [twice,comment']
          exact ih skipped closed within (by omega) longer'
      · next noComment =>
        cases skipped
        have longerWhite := white closed
        rw [if_neg ((opens_append closed longerWhite '/').not.mpr plain),
          if_neg ((opens_append closed longerWhite '*').not.mpr noComment)]
        exact ⟨_,rfl,longerWhite⟩

/-- A token without its place, and the lexer behind it -/
def Gets (reading : Lexed (Token × Lexer)) (kind : TokenKind) (rest : List Char) (modes : List LexerMode) : Prop :=
  ∃ start span, reading = .ok (⟨kind,start⟩,⟨⟨rest,span⟩,modes⟩)

theorem gets_ok {token : Token} {c : Cursor} {modes modes' : List LexerMode} {kind : TokenKind} {rest : List Char} :
    Gets (.ok (token,⟨c,modes⟩)) kind rest modes' ↔ token.kind = kind ∧ c.rest = rest ∧ modes = modes' := by
  constructor
  · rintro ⟨start,span,same⟩
    cases same
    exact ⟨rfl,rfl,rfl⟩
  · rintro ⟨rfl,rfl,rfl⟩
    exact ⟨token.span,c.span,rfl⟩

theorem readStringEscape_spans {first second : Span} {ch decoded : Char} (read : readStringEscape first ch = .ok decoded) :
    readStringEscape second ch = .ok decoded := by
  unfold readStringEscape at read ⊢
  repeat' split at read
  all_goals first | cases read; done | skip
  all_goals simp_all

section Segments
variable {startSpan : Span} {isInitial : Bool} {modes : List LexerMode} {rest : List Char} {span : Span} {s : List Char}

theorem segment_quote : readStringSegment startSpan isInitial modes ('"' :: rest) span s =
    .ok (if isInitial then (⟨.stringLit (String.ofList s),startSpan⟩,⟨⟨rest,Span.past span '"'⟩,modes⟩)
      else (⟨.interpStringEnd (String.ofList s),startSpan⟩,⟨⟨rest,Span.past span '"'⟩,modes.tail⟩)) := by
  rw [readStringSegment.eq_def]
  cases isInitial <;> rfl

theorem segment_escape (esc : Char) : readStringSegment startSpan isInitial modes ('\\' :: esc :: rest) span s =
    readStringEscape (Span.past span '\\') esc >>= fun decoded =>
      readStringSegment startSpan isInitial modes rest (Span.past (Span.past span '\\') esc) (s ++ [decoded]) := by
  rw [readStringSegment.eq_def]
  rfl

theorem segment_brace : readStringSegment startSpan isInitial modes ('\x7b' :: '\x7b' :: rest) span s =
    readStringSegment startSpan isInitial modes rest (Span.past (Span.past span '\x7b') '\x7b') (s ++ ['\x7b']) := by
  rw [readStringSegment.eq_def]
  rfl

theorem segment_closing : readStringSegment startSpan isInitial modes ('\x7d' :: '\x7d' :: rest) span s =
    readStringSegment startSpan isInitial modes rest (Span.past (Span.past span '\x7d') '\x7d') (s ++ ['\x7d']) := by
  rw [readStringSegment.eq_def]
  rfl

theorem segment_hole (single : rest.head? ≠ some '\x7b') :
    readStringSegment startSpan isInitial modes ('\x7b' :: rest) span s =
      .ok (if isInitial then (⟨.interpStringStart (String.ofList s),startSpan⟩,
          ⟨⟨rest,Span.past span '\x7b'⟩,.interpolation 0 :: .stringContinuation :: modes⟩)
        else (⟨.interpStringMiddle (String.ofList s),startSpan⟩,
          ⟨⟨rest,Span.past span '\x7b'⟩,.interpolation 0 :: modes⟩)) := by
  rw [readStringSegment.eq_def]
  dsimp only
  rw [if_neg (by decide),if_neg (by decide),if_pos rfl]
  split
  · next tail => exact absurd rfl single
  · cases isInitial <;> rfl

theorem segment_plain {ch : Char} (quote : ch ≠ '"') (slash : ch ≠ '\\') (opening : ch ≠ '\x7b') (closing : ch ≠ '\x7d')
    (feed : ch ≠ '\n') : readStringSegment startSpan isInitial modes (ch :: rest) span s =
      readStringSegment startSpan isInitial modes rest (Span.past span ch) (s ++ [ch]) := by
  rw [readStringSegment.eq_def]
  simp only [quote,slash,opening,closing,feed,if_false]

end Segments

/-- What a token makes of the modes -/
def modesBehind : TokenKind → List LexerMode → List LexerMode
  | .interpStringStart _,modes => .interpolation 0 :: .stringContinuation :: modes
  | .interpStringMiddle _,modes => .interpolation 0 :: modes
  | .interpStringEnd _,modes => modes.tail
  | _,modes => modes

private theorem single_append {ch : Char} {rest tail : List Char} (single : ∀ rest', rest = ch :: rest' → False)
    (some_left : rest ≠ []) : (rest ++ tail).head? ≠ some ch := by
  cases rest with
  | nil => exact absurd rfl some_left
  | cons first rest =>
    intro same
    exact single rest (by rw [Option.some.inj same])

theorem readStringSegment_append {startSpan : Span} {isInitial : Bool} {modes : List LexerMode} {rest : List Char}
    {span : Span} {s left : List Char} {kind : TokenKind} {modes' : List LexerMode}
    (read : Gets (readStringSegment startSpan isInitial modes rest span s) kind left modes') (some_left : left ≠ []) :
    modes' = modesBehind kind modes ∧ ∀ startSpan' others span' tail,
      Gets (readStringSegment startSpan' isInitial others (rest ++ tail) span' s) kind (left ++ tail)
        (modesBehind kind others) := by
  fun_induction readStringSegment startSpan isInitial modes rest span s
  case case1 | case4 | case10 | case11 =>
    obtain ⟨_,_,read⟩ := read
    cases read
  case case2 initial _ =>
    obtain ⟨_,_,read⟩ := read
    cases read
    refine ⟨rfl,fun startSpan' others span' tail => ?_⟩
    rw [Gets,List.cons_append,segment_quote,if_pos initial]
    exact ⟨_,_,rfl⟩
  case case3 later _ =>
    obtain ⟨_,_,read⟩ := read
    cases read
    refine ⟨rfl,fun startSpan' others span' tail => ?_⟩
    rw [Gets,List.cons_append,segment_quote,if_neg later]
    exact ⟨_,_,rfl⟩
  case case5 esc rest next _ ih =>
    obtain ⟨start,behind,read⟩ := read
    cases escape : readStringEscape next esc with
    | error fault =>
      rw [escape] at read
      cases read
    | ok decoded =>
      rw [escape] at read
      obtain ⟨same,longer⟩ := ih decoded ⟨start,behind,read⟩
      refine ⟨same,fun startSpan' others span' tail => ?_⟩
      rw [List.cons_append,List.cons_append,segment_escape,readStringEscape_spans escape]
      exact longer startSpan' others _ tail
  case case6 ih =>
    obtain ⟨same,longer⟩ := ih read
    refine ⟨same,fun startSpan' others span' tail => ?_⟩
    rw [List.cons_append,List.cons_append,segment_brace]
    exact longer startSpan' others _ tail
  case case7 single initial _ _ _ =>
    obtain ⟨_,_,read⟩ := read
    cases read
    refine ⟨rfl,fun startSpan' others span' tail => ?_⟩
    rw [Gets,List.cons_append,segment_hole (single_append single some_left),if_pos initial]
    exact ⟨_,_,rfl⟩
  case case8 single later _ _ _ =>
    obtain ⟨_,_,read⟩ := read
    cases read
    refine ⟨rfl,fun startSpan' others span' tail => ?_⟩
    rw [Gets,List.cons_append,segment_hole (single_append single some_left),if_neg later]
    exact ⟨_,_,rfl⟩
  case case9 ih =>
    obtain ⟨same,longer⟩ := ih read
    refine ⟨same,fun startSpan' others span' tail => ?_⟩
    rw [List.cons_append,List.cons_append,segment_closing]
    exact longer startSpan' others _ tail
  case case12 quote slash opening closing feed ih =>
    obtain ⟨same,longer⟩ := ih read
    refine ⟨same,fun startSpan' others span' tail => ?_⟩
    rw [List.cons_append,segment_plain quote slash opening closing feed]
    exact longer startSpan' others _ tail

theorem readNumber_append {c d behind : Cursor} {token : Token} {tail : List Char}
    (read : readNumber c = .ok (token,behind)) (closed : Closed behind.rest) (longer : d.rest = c.rest ++ tail) :
    ∃ start behind', readNumber d = .ok (⟨token.kind,start⟩,behind') ∧ behind'.rest = behind.rest ++ tail := by
  unfold readNumber at read ⊢
  dsimp only at read ⊢
  have digits (closed : Closed (c.takeWhile isAsciiDigit).2.rest) := takeWhile_append longer closed.nonempty
  have points (closed : Closed (c.takeWhile isAsciiDigit).2.rest) :
      ((d.takeWhile isAsciiDigit).2.peek = some '.' ∧
        ((d.takeWhile isAsciiDigit).2.peekAhead 1).any isAsciiDigit = true) ↔
      ((c.takeWhile isAsciiDigit).2.peek = some '.' ∧
        ((c.takeWhile isAsciiDigit).2.peekAhead 1).any isAsciiDigit = true) := by
    rw [peek_append (digits closed).2 closed.nonempty]
    exact and_congr_right fun dot => by rw [ahead_append closed (digits closed).2 dot (by decide)]
  split at read
  · cases read
  · next leading =>
    split at read
    · next point =>
      cases read
      have closedPoint := closed.of_suffix (takeWhile_suffix _ _)
      have closedDigits := closedPoint.of_suffix (advance_suffix _)
      have fraction := takeWhile_append
        (advance_append (digits closedDigits).2 closedDigits.nonempty) closed.nonempty
      rw [(digits closedDigits).1,if_neg leading,if_pos ((points closedDigits).mpr point),fraction.1]
      exact ⟨_,_,rfl,fraction.2⟩
    · next integer =>
      split at read
      · next small =>
        cases read
        rw [(digits closed).1,if_neg leading,if_neg ((points closed).not.mpr integer),if_pos small]
        exact ⟨_,_,rfl,(digits closed).2⟩
      · cases read

theorem readIdentifierOrKeyword_append {c d : Cursor} {tail : List Char} (longer : d.rest = c.rest ++ tail)
    (some_left : (readIdentifierOrKeyword c).2.rest ≠ []) :
    (readIdentifierOrKeyword d).1.kind = (readIdentifierOrKeyword c).1.kind ∧
      (readIdentifierOrKeyword d).2.rest = (readIdentifierOrKeyword c).2.rest ++ tail := by
  have within : (c.takeWhile isIdentifier).2.rest ≠ [] := by
    intro no
    apply some_left
    unfold readIdentifierOrKeyword
    dsimp only
    split
    · exact List.suffix_nil.mp (no ▸ advance_suffix _)
    · exact no
  obtain ⟨same,behind⟩ := takeWhile_append longer within
  unfold readIdentifierOrKeyword
  dsimp only
  rw [same,peek_append behind within]
  split
  · exact ⟨rfl,advance_append behind within⟩
  · exact ⟨rfl,behind⟩

theorem keyword_modesBehind (ident : String) (modes : List LexerMode) : modesBehind (keyword ident) modes = modes := by
  unfold keyword
  split <;> rfl

theorem symbol_modesBehind {ch : Char} {next : Option Char} {kind : TokenKind} {both : Bool}
    (found : symbol ch next = some (kind,both)) (modes : List LexerMode) : modesBehind kind modes = modes := by
  unfold symbol at found
  split at found <;> cases found <;> rfl

theorem readNumber_modesBehind {c behind : Cursor} {token : Token} (read : readNumber c = .ok (token,behind))
    (modes : List LexerMode) : modesBehind token.kind modes = modes := by
  unfold readNumber at read
  dsimp only at read
  repeat' split at read
  all_goals cases read
  all_goals rfl

theorem readIdentifierOrKeyword_modesBehind (c : Cursor) (modes : List LexerMode) :
    modesBehind (readIdentifierOrKeyword c).1.kind modes = modes := by
  unfold readIdentifierOrKeyword
  dsimp only
  split
  · rfl
  · exact keyword_modesBehind _ _

/-- What is read where no blank stands -/
theorem tokenAt_append {c d : Cursor} {modes modes' : List LexerMode} {kind : TokenKind} {left tail : List Char}
    (read : Gets (tokenAt c modes) kind left modes') (closed : Closed left) (longer : d.rest = c.rest ++ tail) :
    modes' = modesBehind kind modes ∧ ∀ others, Gets (tokenAt d others) kind (left ++ tail) (modesBehind kind others) := by
  have some_left : c.rest ≠ [] := by
    obtain ⟨start,span,read⟩ := read
    rcases (tokenAt_ends c modes).ok read with ⟨-,consumed⟩ | consumes
    · exact absurd consumed closed.nonempty
    · exact (closed.of_suffix consumes.2.1).nonempty
  unfold tokenAt at read ⊢
  rw [peek_append longer some_left]
  cases there : c.peek with
  | none => exact absurd (List.head?_eq_none_iff.mp there) some_left
  | some ch =>
    rw [there] at read
    dsimp only at read ⊢
    split at read
    · next quote =>
      simp only [if_pos quote,advance_append longer some_left]
      obtain ⟨same,later⟩ := readStringSegment_append read closed.nonempty
      exact ⟨same,fun others => later _ others _ tail⟩
    · next noQuote =>
      simp only [if_neg noQuote]
      split at read
      · next digit =>
        simp only [if_pos digit]
        cases number : readNumber c with
        | error fault =>
          obtain ⟨_,_,read⟩ := read
          rw [number] at read
          cases read
        | ok result =>
          obtain ⟨token,behind⟩ := result
          rw [number] at read
          obtain ⟨rfl,rfl,rfl⟩ := gets_ok.mp read
          obtain ⟨start,behind',longer_read,rest⟩ := readNumber_append number closed longer
          refine ⟨(readNumber_modesBehind number modes).symm,fun others => ?_⟩
          rw [longer_read,readNumber_modesBehind number]
          exact gets_ok.mpr ⟨rfl,rest,rfl⟩
      · next noDigit =>
        simp only [if_neg noDigit]
        split at read
        · next letter =>
          obtain ⟨rfl,rfl,rfl⟩ := gets_ok.mp read
          obtain ⟨same,rest⟩ := readIdentifierOrKeyword_append longer closed.nonempty
          simp only [if_pos letter,readIdentifierOrKeyword_modesBehind]
          exact ⟨trivial,fun others => gets_ok.mpr ⟨same,rest,rfl⟩⟩
        · next noLetter =>
          simp only [if_neg noLetter]
          split at read
          · next found both symbolic =>
            obtain ⟨rfl,rest,rfl⟩ := gets_ok.mp read
            have behind : c.advance.rest ≠ [] := by
              cases both with
              | false => exact rest ▸ closed.nonempty
              | true => exact ((rest ▸ closed : Closed c.advance.advance.rest).of_suffix (advance_suffix _)).nonempty
            have within : 1 < c.rest.length := by
              have step := (advance_behind there).2
              have := List.length_pos_of_ne_nil behind
              omega
            simp only [peekAhead_append longer within,symbolic,symbol_modesBehind symbolic]
            refine ⟨trivial,fun others => gets_ok.mpr ⟨rfl,?_,rfl⟩⟩
            rw [← rest]
            have once := advance_append longer some_left
            cases both with
            | false => exact once
            | true => exact advance_append once behind
          · obtain ⟨_,_,read⟩ := read
            cases read

/-- The cursor that blanks leave stands before no blank. -/
theorem skipBlanks_again {rounds : Nat} : ∀ {c behind : Cursor}, skipBlanks rounds c = .ok behind → ∀ more,
    skipBlanks (more + 1) behind = .ok behind := by
  induction rounds with
  | zero =>
    intro c behind skipped
    cases skipped
  | succ rounds ih =>
    intro c behind skipped more
    rw [skipBlanks] at skipped
    dsimp only at skipped
    split at skipped
    · exact ih skipped more
    · next plain =>
      split at skipped
      · cases comment : skipBlockComment (skipWhitespace c).advance.advance.span
            (skipWhitespace c).advance.advance.rest (skipWhitespace c).advance.advance.span with
        | error fault =>
          rw [comment] at skipped
          cases skipped
        | ok e =>
          rw [comment] at skipped
          exact ih skipped more
      · next noComment =>
        cases skipped
        have still : skipWhitespace (skipWhitespace c) = skipWhitespace c := by
          have again : (c.rest.dropWhile isAsciiWhitespace).dropWhile isAsciiWhitespace =
              c.rest.dropWhile isAsciiWhitespace := List.dropWhile_idempotent _ _
          have stops := List.takeWhile_append_dropWhile (p := isAsciiWhitespace) (l := c.rest.dropWhile isAsciiWhitespace)
          rw [again,List.append_left_eq_self] at stops
          simp only [skipWhitespace,Cursor.takeWhile,again,stops,List.foldl_nil]
        rw [skipBlanks]
        dsimp only
        rw [still,if_neg plain,if_neg noComment]
        rfl

end Oscan.Syntax
