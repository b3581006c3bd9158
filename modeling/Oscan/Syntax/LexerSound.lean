import Oscan.Syntax.Lexer
import Oscan.Syntax.Sound

/-! The lexer ends on every source, with an error or with all of it consumed, and no count of braces falls below
zero. -/
namespace Oscan.Syntax
open Library.Parsing

/-- A reading that comes to an error of the source, or to a result -/
def Ends {α : Type} (reading : Lexed α) (result : α → Prop) : Prop :=
  match reading with
  | .ok a => result a
  | .error (.error _) => True
  | .error .underflow | .error .unfinished => False

section
variable {α β : Type} {p q : α → Prop}

theorem Ends.bind {x : Lexed α} {f : α → Lexed β} {r : β → Prop} (first : Ends x p) (second : ∀ a, p a → Ends (f a) r) :
    Ends (x >>= f) r := by
  cases x with
  | ok a => exact second a first
  | error fault =>
    cases fault with
    | error e => trivial
    | underflow | unfinished => exact first

theorem Ends.mono {x : Lexed α} (ends : Ends x p) (weaker : ∀ a, p a → q a) : Ends x q := by
  cases x with
  | ok a => exact weaker a ends
  | error fault =>
    cases fault with
    | error e => trivial
    | underflow | unfinished => exact ends

theorem Ends.ok {x : Lexed α} {a : α} (ends : Ends x p) (result : x = .ok a) : p a := by
  rw [result] at ends
  exact ends

theorem ends_failAt (span : Span) (message : String) : Ends (failAt span message) p := trivial

end

/-! What the parts of the lexer leave -/

/-- The cursor is further on in the source. -/
def Cursor.Behind (c : Cursor) (rest : List Char) : Prop := c.rest <:+ rest ∧ c.rest.length < rest.length

theorem Cursor.Behind.suffix {c : Cursor} {rest whole : List Char} (behind : c.Behind rest) (suffix : rest <:+ whole) :
    c.Behind whole := ⟨behind.1.trans suffix,Nat.lt_of_lt_of_le behind.2 suffix.length_le⟩

theorem Cursor.Behind.of_suffix {c : Cursor} {ch : Char} {rest : List Char} (suffix : c.rest <:+ rest) :
    c.Behind (ch :: rest) := by
  constructor
  · exact suffix.trans (List.suffix_cons ch rest)
  · exact Nat.lt_succ_of_le suffix.length_le

theorem advance_suffix (c : Cursor) : c.advance.rest <:+ c.rest := by
  obtain ⟨rest,span⟩ := c
  cases rest with
  | nil => exact List.suffix_rfl
  | cons ch rest => exact List.suffix_cons ch rest

theorem advance_behind {c : Cursor} {ch : Char} (there : c.peek = some ch) : c.advance.Behind c.rest := by
  obtain ⟨rest,span⟩ := c
  cases rest with
  | nil => cases there
  | cons ch rest => exact .of_suffix List.suffix_rfl

theorem takeWhile_suffix (c : Cursor) (test : Char → Bool) : (c.takeWhile test).2.rest <:+ c.rest :=
  List.dropWhile_suffix test

theorem takeWhile_behind {c : Cursor} {test : Char → Bool} {ch : Char} (there : c.peek = some ch)
    (passes : test ch = true) : (c.takeWhile test).2.Behind c.rest := by
  obtain ⟨rest,span⟩ := c
  cases rest with
  | nil => cases there
  | cons ch rest =>
    cases there
    have dropped : ((ch :: rest).dropWhile test) = rest.dropWhile test := List.dropWhile_cons_of_pos passes
    apply Cursor.Behind.of_suffix
    rw [Cursor.takeWhile,dropped]
    exact List.dropWhile_suffix test

theorem skipBlockComment_ends (startSpan : Span) : ∀ (rest : List Char) (span : Span),
    Ends (skipBlockComment startSpan rest span) (·.rest <:+ rest)
  | [],_ => trivial
  | ch :: rest,span => by
    rw [skipBlockComment]
    split
    · exact (advance_suffix ⟨rest,_⟩).trans (List.suffix_cons ch rest)
    · exact (skipBlockComment_ends startSpan rest _).mono fun c suffix => suffix.trans (List.suffix_cons ch rest)

theorem skipBlanks_ends {rounds : Nat} : ∀ {c : Cursor}, c.rest.length < rounds →
    Ends (skipBlanks rounds c) (·.rest <:+ c.rest) := by
  induction rounds with
  | zero => exact fun no => absurd no (Nat.not_lt_zero _)
  | succ rounds ih =>
    intro c enough
    have skipped : (skipWhitespace c).rest <:+ c.rest := takeWhile_suffix c _
    rw [skipBlanks]
    dsimp only
    split
    · next slashes =>
      have opened := (advance_behind slashes.1).suffix skipped
      have comment : (skipLineComment (skipWhitespace c).advance.advance).rest <:+ (skipWhitespace c).advance.rest :=
        (takeWhile_suffix _ _).trans (advance_suffix _)
      exact (ih (by have := comment.length_le; have := opened.2; omega)).mono fun _ suffix =>
        suffix.trans (comment.trans opened.1)
    · split
      · next star =>
        have opened := (advance_behind star.1).suffix skipped
        have second := advance_suffix (skipWhitespace c).advance
        refine (skipBlockComment_ends _ _ _).bind fun behind comment => ?_
        have all := comment.trans second
        exact (ih (by have := all.length_le; have := opened.2; omega)).mono fun _ suffix =>
          suffix.trans (all.trans opened.1)
      · exact skipped

theorem readStringEscape_ends (escSpan : Span) (ch : Char) : Ends (readStringEscape escSpan ch) fun _ => True := by
  unfold readStringEscape
  repeat' split
  all_goals trivial

/-- What a token is and leaves, when it is not the end -/
def Consumes (rest : List Char) (result : Token × Lexer) : Prop :=
  result.1.kind ≠ .eof ∧ result.2.toCursor.Behind rest

theorem Consumes.suffix {rest whole : List Char} {result : Token × Lexer} (consumes : Consumes rest result)
    (suffix : rest <:+ whole) : Consumes whole result := ⟨consumes.1,consumes.2.suffix suffix⟩

theorem readStringSegment_ends (startSpan : Span) (isInitial : Bool) (modes : List LexerMode) (rest : List Char)
    (span : Span) (s : List Char) :
    Ends (readStringSegment startSpan isInitial modes rest span s) (Consumes rest) := by
  fun_induction readStringSegment startSpan isInitial modes rest span s
  case case1 | case4 | case10 | case11 => trivial
  case case2 | case3 | case7 | case8 => exact ⟨by simp,.of_suffix List.suffix_rfl⟩
  case case5 esc rest next _ ih =>
    refine (readStringEscape_ends _ _).bind fun decoded _ => (ih decoded).mono fun _ consumes => ?_
    exact consumes.suffix ((List.suffix_cons esc rest).trans (List.suffix_cons _ _))
  case case6 ih | case9 ih =>
    exact ih.mono fun _ consumes => consumes.suffix ((List.suffix_cons _ _).trans (List.suffix_cons _ _))
  case case12 ih => exact ih.mono fun _ consumes => consumes.suffix (List.suffix_cons _ _)

theorem readNumber_ends {c : Cursor} {ch : Char} (there : c.peek = some ch) (digit : isAsciiDigit ch = true) :
    Ends (readNumber c) fun result => result.1.kind ≠ .eof ∧ result.2.Behind c.rest := by
  have behind := takeWhile_behind there digit
  unfold readNumber
  dsimp only
  split
  · exact ends_failAt _ _
  · split
    · refine ⟨by simp,?_⟩
      have fraction := (takeWhile_suffix (c.takeWhile isAsciiDigit).2.advance isAsciiDigit).trans (advance_suffix _)
      exact ⟨fraction.trans behind.1,Nat.lt_of_le_of_lt fraction.length_le behind.2⟩
    · split
      · exact ⟨by simp,behind⟩
      · exact ends_failAt _ _

theorem keyword_ne_eof (ident : String) : keyword ident ≠ .eof := by
  unfold keyword
  split <;> simp

theorem readIdentifierOrKeyword_behind {c : Cursor} {ch : Char} (there : c.peek = some ch)
    (letter : isIdentifier ch = true) : (readIdentifierOrKeyword c).1.kind ≠ .eof ∧
      (readIdentifierOrKeyword c).2.Behind c.rest := by
  have behind := takeWhile_behind there letter
  unfold readIdentifierOrKeyword
  dsimp only
  split
  · have bang := advance_suffix (c.takeWhile isIdentifier).2
    exact ⟨by simp,bang.trans behind.1,Nat.lt_of_le_of_lt bang.length_le behind.2⟩
  · exact ⟨keyword_ne_eof _,behind⟩

theorem symbol_ne_eof {ch : Char} {next : Option Char} {kind : TokenKind} {both : Bool}
    (found : symbol ch next = some (kind,both)) : kind ≠ .eof := by
  unfold symbol at found
  split at found <;> cases found <;> simp

/-- A token is the end exactly when nothing is left, and else it consumes. -/
def Advances (rest : List Char) (result : Token × Lexer) : Prop :=
  result.1.kind = .eof ∧ result.2.rest = [] ∨ Consumes rest result

theorem Advances.suffix {rest whole : List Char} {result : Token × Lexer} (advances : Advances rest result)
    (suffix : rest <:+ whole) : Advances whole result := advances.imp_right (·.suffix suffix)

theorem tokenAt_ends (c : Cursor) (modes : List LexerMode) : Ends (tokenAt c modes) (Advances c.rest) := by
  unfold tokenAt
  split
  · next none_left =>
    left
    exact ⟨rfl,List.head?_eq_none_iff.mp none_left⟩
  · next ch there =>
    have step := advance_behind there
    split
    · exact (readStringSegment_ends _ _ _ _ _ _).mono fun result consumes => .inr (consumes.suffix step.1)
    · split
      · next digit => exact (readNumber_ends there digit).bind fun result behind => .inr behind
      · split
        · next letter =>
          exact .inr (readIdentifierOrKeyword_behind there (by
            unfold isIdentifier
            rw [Bool.or_right_comm,letter,Bool.true_or]))
        · split
          · next kind both found =>
            refine .inr ⟨symbol_ne_eof found,?_⟩
            dsimp only
            split
            · have more := advance_suffix c.advance
              exact ⟨more.trans step.1,Nat.lt_of_le_of_lt more.length_le step.2⟩
            · exact step
          · exact ends_failAt _ _

theorem lexNormalToken_ends {rounds : Nat} {c : Cursor} (enough : c.rest.length < rounds) (modes : List LexerMode) :
    Ends (lexNormalToken rounds c modes) (Advances c.rest) :=
  (skipBlanks_ends enough).bind fun d suffix => (tokenAt_ends d modes).mono fun _ advances => advances.suffix suffix

theorem nextToken_ends {rounds : Nat} : ∀ {modes : List LexerMode} {c : Cursor}, c.rest.length < rounds →
    Ends (nextToken rounds modes c) (Advances c.rest) := by
  intro modes
  induction modes with
  | nil => exact fun enough => lexNormalToken_ends enough []
  | cons mode below ih =>
    intro c enough
    cases mode with
    | stringContinuation => exact (readStringSegment_ends _ _ _ _ _ _).mono fun result => .inr
    | interpolation braceDepth =>
      rw [nextToken]
      refine (skipBlanks_ends enough).bind fun d suffix => ?_
      have fewer := Nat.lt_of_le_of_lt suffix.length_le enough
      split
      · next closes =>
        have step := advance_behind closes.2
        exact (ih (Nat.lt_trans step.2 fewer)).mono fun result advances => advances.suffix (step.1.trans suffix)
      · next inside =>
        split
        · next opened => exact .inr ⟨by simp,(advance_behind opened).suffix suffix⟩
        · split
          · next closed =>
            cases braceDepth with
            | zero => exact absurd ⟨rfl,closed⟩ inside
            | succ braceDepth => exact .inr ⟨by simp,(advance_behind closed).suffix suffix⟩
          · exact (lexNormalToken_ends fewer _).mono fun result advances => advances.suffix suffix

theorem tokens_ends {rounds : Nat} : ∀ {n : Nat} {lexer : Lexer}, lexer.rest.length < n → lexer.rest.length < rounds →
    Ends (lexer.tokens rounds n) fun result => Proper AtEnd result.1 ∧ result.2.rest = [] := by
  intro n
  induction n with
  | zero => exact fun no => absurd no (Nat.not_lt_zero _)
  | succ n ih =>
    intro lexer enough within
    rw [Lexer.tokens]
    refine (nextToken_ends within).bind fun result advances => ?_
    obtain ⟨token,behind⟩ := result
    dsimp only
    split
    · next ended =>
      have consumed := advances.resolve_right fun consumes => consumes.1 ended
      exact ⟨⟨[],token,rfl,ended,by simp⟩,consumed.2⟩
    · next inside =>
      have consumes := advances.resolve_left fun last => inside last.1
      have fewer : behind.rest.length < lexer.rest.length := consumes.2.2
      refine (ih (by omega) (by omega)).bind fun result later => ?_
      obtain ⟨tokens,last⟩ := result
      obtain ⟨⟨body,e,rfl,mark,only⟩,consumed⟩ := later
      refine ⟨⟨token :: body,e,rfl,mark,?_⟩,consumed⟩
      exact List.forall_mem_cons.mpr ⟨inside,only⟩

/-- The lexer ends on every source: with an error of the source, or with all of it consumed and one end behind the
tokens. -/
theorem tokenize_ends (source : String) :
    Ends (tokenize source) fun result => Proper AtEnd result.1 ∧ result.2.rest = [] :=
  tokens_ends (Nat.lt_succ_self _) (Nat.lt_succ_self _)

end Oscan.Syntax
