import Oscan.Syntax.LexerLocal

/-! The tokens of a text of its own are the same tokens inside of a hole. -/
namespace Oscan.Syntax
open Library.Parsing

/-- How many braces are open behind a token -/
def bracing (d : Nat) : TokenKind → Option Nat
  | .lBrace => some (d + 1)
  | .rBrace => match d with
    | 0 => none
    | d + 1 => some d
  | _ => some d

def Neutral (kind : TokenKind) : Prop := ∀ d, bracing d kind = some d

/-- A segment ends the literal, or opens a hole; the first one is told from the later ones. -/
theorem readStringSegment_kind {startSpan : Span} {isInitial : Bool} {modes modes' : List LexerMode}
    {rest left : List Char} {span : Span} {s : List Char} {kind : TokenKind}
    (read : Gets (readStringSegment startSpan isInitial modes rest span s) kind left modes') :
    (∃ text, kind = if isInitial then .stringLit text else .interpStringEnd text) ∨
      ∃ text, kind = if isInitial then .interpStringStart text else .interpStringMiddle text := by
  fun_induction readStringSegment startSpan isInitial modes rest span s
  case case1 | case4 | case10 | case11 =>
    obtain ⟨_,_,read⟩ := read
    cases read
  case case2 initial _ =>
    left
    simp only [if_pos initial]
    exact ⟨_,(gets_ok.mp read).1.symm⟩
  case case3 later _ =>
    left
    simp only [if_neg later]
    exact ⟨_,(gets_ok.mp read).1.symm⟩
  case case5 esc rest next _ ih =>
    obtain ⟨start,behind,read⟩ := read
    cases escape : readStringEscape next esc with
    | error fault =>
      rw [escape] at read
      cases read
    | ok decoded =>
      rw [escape] at read
      exact ih decoded ⟨start,behind,read⟩
  case case6 ih | case9 ih => exact ih read
  case case7 initial _ _ _ =>
    right
    simp only [if_pos initial]
    exact ⟨_,(gets_ok.mp read).1.symm⟩
  case case8 later _ _ _ =>
    right
    simp only [if_neg later]
    exact ⟨_,(gets_ok.mp read).1.symm⟩
  case case12 ih => exact ih read

theorem keyword_neutral (ident : String) : Neutral (keyword ident) := by
  intro d
  unfold keyword
  split <;> rfl

theorem symbol_neutral {ch : Char} {next : Option Char} {kind : TokenKind} {both : Bool} (opening : ch ≠ '\x7b')
    (closing : ch ≠ '\x7d') (found : symbol ch next = some (kind,both)) : Neutral kind := by
  intro d
  unfold symbol at found
  split at found
  all_goals first
    | exact absurd rfl opening
    | exact absurd rfl closing
    | (cases found <;> rfl)

/-- Before another character than a brace, a token leaves the count of braces, and the modes but for a hole that it
opens. -/
theorem tokenAt_neutral {c : Cursor} {modes modes' : List LexerMode} {kind : TokenKind} {left : List Char}
    (read : Gets (tokenAt c modes) kind left modes') (opening : c.peek ≠ some '\x7b') (closing : c.peek ≠ some '\x7d') :
    Neutral kind ∧ ((∃ text, kind = .interpStringStart text) ∨ ∀ others, modesBehind kind others = others) := by
  unfold tokenAt at read
  cases there : c.peek with
  | none =>
    rw [there] at read
    obtain ⟨rfl,-,-⟩ := gets_ok.mp read
    exact ⟨fun d => rfl,.inr fun others => rfl⟩
  | some ch =>
    rw [there] at read opening closing
    dsimp only at read
    split at read
    · obtain ⟨text,same⟩ | ⟨text,same⟩ := readStringSegment_kind read
      · cases same
        exact ⟨fun d => rfl,.inr fun others => rfl⟩
      · cases same
        exact ⟨fun d => rfl,.inl ⟨text,rfl⟩⟩
    · split at read
      · cases number : readNumber c with
        | error fault =>
          obtain ⟨_,_,read⟩ := read
          rw [number] at read
          cases read
        | ok result =>
          obtain ⟨token,behind⟩ := result
          rw [number] at read
          obtain ⟨rfl,-,-⟩ := gets_ok.mp read
          refine ⟨?_,.inr (readNumber_modesBehind number)⟩
          intro d
          unfold readNumber at number
          dsimp only at number
          repeat' split at number
          all_goals cases number
          all_goals rfl
      · split at read
        · obtain ⟨rfl,-,-⟩ := gets_ok.mp read
          refine ⟨?_,.inr (readIdentifierOrKeyword_modesBehind c)⟩
          unfold readIdentifierOrKeyword
          dsimp only
          split
          · exact fun d => rfl
          · exact keyword_neutral _
        · split at read
          · next found both symbolic =>
            obtain ⟨rfl,-,-⟩ := gets_ok.mp read
            refine ⟨symbol_neutral ?_ ?_ symbolic,.inr (symbol_modesBehind symbolic)⟩
            · exact fun same => opening (congrArg some same)
            · exact fun same => closing (congrArg some same)
          · obtain ⟨_,_,read⟩ := read
            cases read

/-- The modes inside of holes, each with its open braces, the innermost first -/
def holes : List Nat → List LexerMode
  | [] => []
  | depth :: depths => .interpolation depth :: .stringContinuation :: holes depths

theorem holes_append (inner outer : List Nat) : holes (inner ++ outer) = holes inner ++ holes outer := by
  induction inner with
  | nil => rfl
  | cons depth inner ih => simp only [List.cons_append,holes,ih]

section Embedding
variable {rounds more : Nat} {c d : Cursor} {kind : TokenKind} {left tail : List Char} {modes' : List LexerMode}

theorem ok_bind {α β : Type} {a : α} {f : α → Lexed β} : (.ok a : Lexed α) >>= f = f a := rfl

/-- A token in a hole of a text of its own is the same token in the hole of a longer text. -/
theorem nextToken_hole {depth : Nat} {below : List LexerMode}
    (read : Gets (nextToken rounds (holes [depth] ++ below) c) kind left modes') (closed : Closed left)
    (enough : c.rest.length < rounds) (le : rounds ≤ more) (longer : d.rest = c.rest ++ tail) :
    ∃ front, modes' = holes front ++ below ∧ (∀ n, bracing (depth + n) kind = some (front.sum + n)) ∧
      ∀ others, Gets (nextToken more (holes [depth] ++ others) d) kind (left ++ tail) (holes front ++ others) := by
  obtain ⟨rounds,rfl⟩ : ∃ m, rounds = m + 1 := Nat.exists_eq_succ_of_ne_zero (by omega)
  obtain ⟨more,rfl⟩ : ∃ m, more = m + 1 := Nat.exists_eq_succ_of_ne_zero (by omega)
  simp only [holes,List.cons_append,List.nil_append,nextToken] at read ⊢
  cases blanks : skipBlanks (rounds + 1) c with
  | error fault =>
    obtain ⟨_,_,read⟩ := read
    rw [blanks] at read
    cases read
  | ok e =>
    rw [blanks,ok_bind] at read
    have longer_blanks (closed : Closed e.rest) := skipBlanks_append blanks closed enough le longer
    split at read
    · next closes =>
      obtain ⟨rfl,brace⟩ := closes
      have suffix : left <:+ e.advance.rest := by
        obtain ⟨_,_,read⟩ := read
        exact ((readStringSegment_ends _ _ _ _ _ _).ok read).2.1
      have closedBehind := closed.of_suffix suffix
      have closedHere := closedBehind.of_suffix (advance_suffix e)
      obtain ⟨e',blanks',longer'⟩ := longer_blanks closedHere
      obtain ⟨same,later⟩ := readStringSegment_append read closed.nonempty
      have others (modes : List LexerMode) : Gets (nextToken (more + 1) (holes [0] ++ modes) d) kind (left ++ tail)
          (modesBehind kind (.stringContinuation :: modes)) := by
        simp only [holes,List.cons_append,List.nil_append,nextToken,blanks',ok_bind,peek_append longer' closedHere.nonempty]
        rw [if_pos ⟨trivial,brace⟩,advance_append longer' closedHere.nonempty]
        exact later _ _ _ _
      rcases readStringSegment_kind read with ⟨text,ended⟩ | ⟨text,opened⟩
      · cases ended
        exact ⟨[],same,fun n => by simp [bracing],others⟩
      · cases opened
        exact ⟨[0],same,fun n => by simp [bracing],others⟩
    · next inside =>
      split at read
      · next opening =>
        obtain ⟨rfl,rfl,rfl⟩ := gets_ok.mp read
        have closedHere := closed.of_suffix (advance_suffix e)
        obtain ⟨e',blanks',longer'⟩ := longer_blanks closedHere
        refine ⟨[depth + 1],rfl,fun n => ?_,fun others => ?_⟩
        · simp only [bracing,List.sum_singleton]
          rw [Nat.add_right_comm]
        · simp only [blanks',ok_bind,peek_append longer' closedHere.nonempty]
          rw [if_neg inside,if_pos opening]
          exact gets_ok.mpr ⟨rfl,advance_append longer' closedHere.nonempty,rfl⟩
      · next noOpening =>
        split at read
        · next closing =>
          cases depth with
          | zero => exact absurd ⟨rfl,closing⟩ inside
          | succ depth =>
            obtain ⟨rfl,rfl,rfl⟩ := gets_ok.mp read
            have closedHere := closed.of_suffix (advance_suffix e)
            obtain ⟨e',blanks',longer'⟩ := longer_blanks closedHere
            refine ⟨[depth],rfl,fun n => ?_,fun others => ?_⟩
            · rw [Nat.add_right_comm,List.sum_singleton]
              rfl
            · simp only [blanks',ok_bind,peek_append longer' closedHere.nonempty]
              rw [if_neg inside,if_neg noOpening,if_pos closing]
              exact gets_ok.mpr ⟨rfl,advance_append longer' closedHere.nonempty,rfl⟩
        · next noClosing =>
          rw [lexNormalToken,skipBlanks_again blanks,ok_bind] at read
          have closedHere : Closed e.rest := by
            obtain ⟨_,_,token⟩ := read
            rcases (tokenAt_ends _ _).ok token with ⟨-,consumed⟩ | consumes
            · exact absurd consumed closed.nonempty
            · exact closed.of_suffix consumes.2.1
          obtain ⟨e',blanks',longer'⟩ := longer_blanks closedHere
          obtain ⟨same,later⟩ := tokenAt_append read closed longer'
          have others (modes : List LexerMode) : Gets (nextToken (more + 1) (holes [depth] ++ modes) d) kind (left ++ tail)
              (modesBehind kind (holes [depth] ++ modes)) := by
            simp only [holes,List.cons_append,List.nil_append,nextToken,blanks',ok_bind,
              peek_append longer' closedHere.nonempty]
            rw [if_neg inside,if_neg noOpening,if_neg noClosing,lexNormalToken,skipBlanks_again blanks']
            exact later _
          obtain ⟨neutral,⟨text,rfl⟩ | still⟩ := tokenAt_neutral read noOpening noClosing
          · refine ⟨[0,depth],same,fun n => ?_,others⟩
            simp [bracing]
          · refine ⟨[depth],same.trans (still _),fun n => ?_,fun modes => ?_⟩
            · rw [neutral,List.sum_singleton]
            · have whole := others modes
              rwa [still] at whole

/-- A token of a text of its own is the same token inside of a hole of a longer text, where a brace is counted. -/
theorem nextToken_base {depth count : Nat} (read : Gets (nextToken rounds [] c) kind left modes') (closed : Closed left)
    (enough : c.rest.length < rounds) (le : rounds ≤ more) (longer : d.rest = c.rest ++ tail)
    (braced : bracing depth kind = some count) :
    ∃ inner now, modes' = holes inner ∧ count = now + inner.sum ∧
      ∀ others, Gets (nextToken more (holes [depth] ++ others) d) kind (left ++ tail) (holes (inner ++ [now]) ++ others) := by
  obtain ⟨rounds,rfl⟩ : ∃ m, rounds = m + 1 := Nat.exists_eq_succ_of_ne_zero (by omega)
  obtain ⟨more,rfl⟩ : ∃ m, more = m + 1 := Nat.exists_eq_succ_of_ne_zero (by omega)
  rw [nextToken,lexNormalToken] at read
  cases blanks : skipBlanks (rounds + 1) c with
  | error fault =>
    obtain ⟨_,_,read⟩ := read
    rw [blanks] at read
    cases read
  | ok e =>
    rw [blanks,ok_bind] at read
    have closedHere : Closed e.rest := by
      obtain ⟨_,_,token⟩ := read
      rcases (tokenAt_ends _ _).ok token with ⟨-,consumed⟩ | consumes
      · exact absurd consumed closed.nonempty
      · exact closed.of_suffix consumes.2.1
    obtain ⟨e',blanks',longer'⟩ := skipBlanks_append blanks closedHere enough le longer
    have step := advance_append longer' closedHere.nonempty
    by_cases opening : e.peek = some '\x7b'
    · have symbol_read : tokenAt e [] = .ok (⟨.lBrace,e.span⟩,⟨e.advance,[]⟩) := by
        rw [tokenAt,opening]
        rfl
      rw [symbol_read] at read
      obtain ⟨rfl,rfl,rfl⟩ := gets_ok.mp read
      cases braced
      refine ⟨[],depth + 1,rfl,rfl,fun others => ?_⟩
      simp only [holes,List.cons_append,List.nil_append,nextToken,blanks',ok_bind,peek_append longer' closedHere.nonempty]
      rw [if_neg (by rw [opening]; simp),if_pos opening]
      exact gets_ok.mpr ⟨rfl,step,rfl⟩
    · by_cases closing : e.peek = some '\x7d'
      · have symbol_read : tokenAt e [] = .ok (⟨.rBrace,e.span⟩,⟨e.advance,[]⟩) := by
          rw [tokenAt,closing]
          rfl
        rw [symbol_read] at read
        obtain ⟨rfl,rfl,rfl⟩ := gets_ok.mp read
        cases depth with
        | zero => cases braced
        | succ depth =>
          cases braced
          refine ⟨[],count,rfl,rfl,fun others => ?_⟩
          simp only [holes,List.cons_append,List.nil_append,nextToken,blanks',ok_bind,
            peek_append longer' closedHere.nonempty]
          rw [if_neg (by simp),if_neg opening,if_pos closing]
          exact gets_ok.mpr ⟨rfl,step,rfl⟩
      · obtain ⟨same,later⟩ := tokenAt_append read closed longer'
        obtain ⟨neutral,started⟩ := tokenAt_neutral read opening closing
        obtain rfl : count = depth := Option.some.inj (braced.symm.trans (neutral depth))
        have others (modes : List LexerMode) : Gets (nextToken (more + 1) (holes [count] ++ modes) d) kind (left ++ tail)
            (modesBehind kind (holes [count] ++ modes)) := by
          simp only [holes,List.cons_append,List.nil_append,nextToken,blanks',ok_bind,
            peek_append longer' closedHere.nonempty]
          rw [if_neg (by simp [closing]),if_neg opening,if_neg closing,lexNormalToken,skipBlanks_again blanks']
          exact later _
        rcases started with ⟨text,rfl⟩ | still
        · exact ⟨[0],count,same,by simp,others⟩
        · refine ⟨[],count,same.trans (still _),by simp,fun modes => ?_⟩
          have whole := others modes
          rwa [still] at whole

/-- Inside of holes of its own or not, a token is the same one inside of a hole of a longer text. -/
theorem nextToken_embeds {inner : List Nat} {depth count : Nat} (read : Gets (nextToken rounds (holes inner) c) kind left modes')
    (closed : Closed left) (enough : c.rest.length < rounds) (le : rounds ≤ more) (longer : d.rest = c.rest ++ tail)
    (braced : bracing (depth + inner.sum) kind = some count) :
    ∃ inner' depth', modes' = holes inner' ∧ count = depth' + inner'.sum ∧
      ∀ others, Gets (nextToken more (holes (inner ++ [depth]) ++ others) d) kind (left ++ tail)
        (holes (inner' ++ [depth']) ++ others) := by
  cases inner with
  | nil => exact nextToken_base read closed enough le longer braced
  | cons top below =>
    have hole : Gets (nextToken rounds (holes [top] ++ holes below) c) kind left modes' := read
    obtain ⟨front,rfl,counted,others⟩ := nextToken_hole hole closed enough le longer
    refine ⟨front ++ below,depth,(holes_append front below).symm,?_,fun modes => ?_⟩
    · have all := counted (below.sum + depth)
      rw [List.sum_cons,show depth + (top + below.sum) = top + (below.sum + depth) by omega,all] at braced
      rw [List.sum_append,← Option.some.inj braced]
      omega
    · have whole := others (holes (below ++ [depth]) ++ modes)
      rw [List.append_assoc,holes_append front,List.append_assoc]
      exact whole

end Embedding

end Oscan.Syntax
