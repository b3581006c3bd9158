import Oscan.Syntax.Grammar
import Oscan.Syntax.Lookahead

/-! Each parser comes to a value exactly where the tokens begin with a phrase of its production. -/
namespace Oscan.Syntax
open Library.Parsing Library.Grammar Ast

variable {names : List String} {self : Parsers} {size : Nat} {rest : List Token} {α β : Type}

section
variable {r one other : Production α} {g : α → Production β} {fits more : TokenKind → Bool}

/-- Every phrase begins with a token of such a kind. -/
def Begins (names : List String) (fits : TokenKind → Bool) (r : Production α) : Prop :=
  ∀ seg after a, Derives AtEnd (grammar names) r seg after a → ∃ t tail, seg = t :: tail ∧ fits t.kind = true

theorem Begins.excludes (begins : Begins names fits r) (no : fits (kindOf rest) = false) :
    Excludes AtEnd (grammar names) r rest := by
  rintro seg after a rfl derived
  obtain ⟨t,tail,rfl,yes⟩ := begins seg after a derived
  rw [List.cons_append,kindOf] at no
  rw [no] at yes
  cases yes

theorem Begins.takes (begins : Begins names fits r) : Takes AtEnd (grammar names) r := by
  intro seg after a derived
  obtain ⟨t,tail,rfl,-⟩ := begins seg after a derived
  exact List.cons_ne_nil t tail

theorem Begins.bind (begins : Begins names fits r) : Begins names fits (r >>= g) := by
  intro seg after b derived
  obtain ⟨front,back,a,rfl,derived,-⟩ := derives_bind.mp derived
  obtain ⟨t,tail,rfl,yes⟩ := begins front _ a derived
  exact ⟨t,tail ++ back,rfl,yes⟩

theorem Begins.ahead {sees : List Token → Option α} (begins : ∀ a, Begins names fits (g a)) :
    Begins names fits (.ahead sees >>= g) := by
  intro seg after b derived
  obtain ⟨front,back,a,rfl,first,later⟩ := derives_bind.mp derived
  obtain ⟨rfl,-⟩ := derives_ahead.mp first
  exact begins a back after b later

theorem Begins.call {s : Nonterminal} (begins : Begins names fits (grammar names s)) :
    Begins names fits (Grammar.phrase s) := by
  intro seg after v derived
  exact begins seg after v (derives_call.mp derived)

theorem Begins.oneOf {others : List (Production α)} (begins : ∀ r ∈ one :: others, Begins names fits r) :
    Begins names fits (.oneOf one others) := by
  intro seg after a derived
  obtain ⟨r,member,derived⟩ := derives_oneOf.mp derived
  exact begins r member seg after a derived

theorem Begins.weaken (begins : Begins names fits r) (implies : ∀ kind, fits kind = true → more kind = true) :
    Begins names more r := by
  intro seg after a derived
  obtain ⟨t,tail,split,yes⟩ := begins seg after a derived
  exact ⟨t,tail,split,implies _ yes⟩

theorem begins_token {reads : Token → Option α} (implies : ∀ t a, reads t = some a → fits t.kind = true) :
    Begins names fits (.token reads) := by
  intro seg after a derived
  obtain ⟨t,rfl,read,-⟩ := derives_token.mp derived
  exact ⟨t,[],rfl,implies t a read⟩

theorem begins_tok (kind : TokenKind) : Begins names (· == kind) (Grammar.tok kind) := by
  apply begins_token
  intro t span read
  split at read
  · next found => simp [found]
  · cases read

def isIdent : TokenKind → Bool
  | .ident _ => true
  | _ => false

theorem begins_identWith (fits : String → Bool) : Begins names isIdent (Grammar.identWith fits) := by
  apply begins_token
  intro t found read
  split at read
  · next name here => rw [here,isIdent]
  · cases read

end

/-! The parsers of tokens -/

theorem decides_expect {kind : TokenKind} (inside : kind ≠ .eof) :
    Decides AtEnd (grammar names) size (expect self kind) (Grammar.tok kind) := by
  intro rest proper enough
  apply DecidesAt.token
  · rintro t tail span rfl read
    split at read
    · next found =>
      cases read
      refine ⟨inside_of_kind found inside,?_⟩
      have here : kindOf (t :: tail) = kind := found
      simp only [expect,bind_apply,look,Reply.andThen]
      rw [if_pos here]
      rfl
    · cases read
  · intro other span after given
    obtain ⟨t,split,found⟩ := expect_ok given
    have none := other t after split
    rw [if_pos found] at none
    cases none

theorem decides_expectIdent : Decides AtEnd (grammar names) size (expectIdent self) Grammar.ident := by
  intro rest proper enough
  apply DecidesAt.token
  · rintro t tail found rfl read
    split at read
    · next name here =>
      cases read
      refine ⟨inside_of_kind here (by simp),?_⟩
      simp only [expectIdent,bind_apply,look,Reply.andThen,kindOf,here,advance,pure_apply,spanOf]
    · cases read
  · intro other found after given
    obtain ⟨t,name,split,here⟩ := expectIdent_ok given
    have none := other t after split
    simp only [here,if_true] at none
    cases none

theorem DecidesAt.peek {f : TokenKind → Parse α} {r : Production α}
    (inner : DecidesAt AtEnd (grammar names) (f (kindOf rest)) r rest) :
    DecidesAt AtEnd (grammar names) (Syntax.peek >>= f) r rest := inner

theorem DecidesAt.next {fits : TokenKind → Bool} {p : Parse α} {g : Unit → Production α}
    (yes : fits (kindOf rest) = true) (inner : DecidesAt AtEnd (grammar names) p (g ()) rest) :
    DecidesAt AtEnd (grammar names) p (Grammar.next fits >>= g) rest :=
  DecidesAt.ahead (if_pos yes) inner

theorem excludes_next {fits : TokenKind → Bool} (no : fits (kindOf rest) = false) :
    Excludes AtEnd (grammar names) (Grammar.next fits) rest := by
  apply Excludes.ahead
  rw [no]
  rfl

theorem excludes_tok {kind : TokenKind} (other : kindOf rest ≠ kind) :
    Excludes AtEnd (grammar names) (Grammar.tok kind) rest :=
  (begins_tok kind).excludes (beq_false_of_ne other)

/-- A token that is there -/
theorem DecidesAt.tok {kind : TokenKind} {t : Token} {p : Parse β} {g : Span → Production β} (found : t.kind = kind)
    (inside : kind ≠ .eof) (later : DecidesAt AtEnd (grammar names) p (g t.span) rest) :
    DecidesAt AtEnd (grammar names) (advance >>= fun _ => p) (Grammar.tok kind >>= g) (t :: rest) :=
  DecidesAt.advance (if_pos found) (inside_of_kind found inside) later

theorem decides_accept {kind : TokenKind} (inside : kind ≠ .eof) :
    Decides AtEnd (grammar names) size (accept kind) (Grammar.optional kind) := by
  intro rest proper enough
  unfold accept Grammar.optional
  apply DecidesAt.peek
  split
  · next found =>
    apply DecidesAt.left
    · obtain ⟨t,tail,rfl,here⟩ := cons_of_kind found inside
      exact DecidesAt.tok here inside DecidesAt.pure
    · exact Excludes.bind (excludes_next (by simp [found]))
  · next other =>
    apply DecidesAt.right
    · exact DecidesAt.next (by simpa using other) DecidesAt.pure
    · exact Excludes.bind (excludes_tok other)

/-- Parsers that are called again and have as many rounds as a bound on the tokens asks for -/
structure Agrees (names : List String) (ps : Parsers) (size : Nat) : Prop where
  known : ps.names = names
  rounds : size + 1 < ps.rounds
  good : Good ps (size + 1)
  expr : Decides AtEnd (grammar names) size ps.expr Grammar.expr
  unary : Decides AtEnd (grammar names) size ps.unary Grammar.unary
  postfix_ : Decides AtEnd (grammar names) size ps.postfix_ Grammar.postfix_
  ifExpr : Decides AtEnd (grammar names) size ps.ifExpr Grammar.elseIf
  block : Decides AtEnd (grammar names) size ps.block Grammar.block
  ty : Decides AtEnd (grammar names) size ps.ty Grammar.ty
  pattern : Decides AtEnd (grammar names) size ps.pattern Grammar.pattern

theorem decides_pure {a : α} : Decides AtEnd (grammar names) size (pure a : Parse α) (pure a) :=
  fun _ _ _ => DecidesAt.pure

theorem DecidesAt.accepted {kind : TokenKind} {t : Token} {f : Bool → Parse α} {r : Production α} (found : t.kind = kind)
    (inside : kind ≠ .eof) (inner : DecidesAt AtEnd (grammar names) (advance >>= fun _ => f true) r (t :: rest)) :
    DecidesAt AtEnd (grammar names) (Syntax.accept kind >>= f) r (t :: rest) :=
  inner.parser (accept_found (show kindOf (t :: rest) = kind from found) inside f)

theorem DecidesAt.refused {kind : TokenKind} {f : Bool → Parse α} {r : Production α} (other : kindOf rest ≠ kind)
    (inner : DecidesAt AtEnd (grammar names) (f false) r rest) :
    DecidesAt AtEnd (grammar names) (Syntax.accept kind >>= f) r rest :=
  inner.parser (accept_other other f)

/-- A token that is expected before the rest, for which fewer tokens are left -/
theorem Decides.expect {kind : TokenKind} {f : Span → Parse α} {g : Span → Production α} (inside : kind ≠ .eof)
    (later : ∀ span, Decides AtEnd (grammar names) size (f span) (g span)) :
    Decides AtEnd (grammar names) (size + 1) (Syntax.expect self kind >>= f) (Grammar.tok kind >>= g) :=
  (decides_expect inside).then (begins_tok kind).takes later

theorem expect_here {kind : TokenKind} {f : Span → Parse α} :
    (do let span ← peekSpan; let _ ← Syntax.expect self kind; f span) = (Syntax.expect self kind >>= f) := by
  funext rest
  simp only [bind_apply,peekSpan,look,Reply.andThen,Syntax.expect,pure_apply]
  by_cases found : kindOf rest = kind
  · rw [if_pos found,bind_apply]
    cases rest with
    | nil => rfl
    | cons t tail => rfl
  · rw [if_neg found]
    rfl

theorem expectIdent_here {f : String → Span → Parse α} :
    (do let span ← peekSpan; let found ← expectIdent self; f found.1 span) =
      (expectIdent self >>= fun found => f found.1 found.2) := by
  funext rest
  simp only [bind_apply,peekSpan,look,Reply.andThen,expectIdent,pure_apply]
  cases rest with
  | nil => rfl
  | cons t tail =>
    rw [kindOf]
    cases t.kind with
    | _ => rfl

/-- The same where the place of the token has been looked up before -/
theorem Decides.expectHere {kind : TokenKind} {f : Span → Parse α} {g : Span → Production α} (inside : kind ≠ .eof)
    (later : ∀ span, Decides AtEnd (grammar names) size (f span) (g span)) :
    Decides AtEnd (grammar names) (size + 1) (do let span ← peekSpan; let _ ← Syntax.expect self kind; f span)
      (Grammar.tok kind >>= g) := by
  rw [expect_here]
  exact Decides.expect inside later

theorem Decides.expectIdent {f : String × Span → Parse α} {g : String × Span → Production α}
    (later : ∀ found, Decides AtEnd (grammar names) size (f found) (g found)) :
    Decides AtEnd (grammar names) (size + 1) (Syntax.expectIdent self >>= f) (Grammar.ident >>= g) :=
  decides_expectIdent.then (begins_identWith _).takes later

/-! Lists -/

theorem foldl_snoc (items : List α) : ∀ front : List α, items.foldl (fun xs x => xs ++ [x]) front = front ++ items := by
  induction items with
  | nil => exact fun front => (List.append_nil front).symm
  | cons x items ih =>
    intro front
    rw [List.foldl_cons,ih,List.append_assoc]
    rfl

/-- A list between commas is decided when its items are, and begin with no closing token. -/
theorem decides_listUntil {close : TokenKind} {p : Parse α} {item : Production α} {fits : TokenKind → Bool}
    (inside : close ≠ .comma) (decides : Decides AtEnd (grammar names) size p item) (begins : Begins names fits item)
    (apart : fits close = false) (enough : size < self.rounds) :
    Decides AtEnd (grammar names) size (listUntil self close p) (Grammar.commaList close item) := by
  have loop (first : α) : Decides AtEnd (grammar names) size
      (iterate (fun items => do
        if ← accept .comma then do
          let found ← peek
          if found = close then pure (.stop items)
          else do
            let next ← p
            pure (.again (items ++ [next]))
        else pure (.stop items)) self.rounds [first])
      (.loop (do let _ ← Grammar.tok .comma; item)
        (.either (Grammar.next (· != .comma)) (do let _ ← Grammar.tok .comma; Grammar.next (· == close)))
        (fun items x => items ++ [x]) (fun items _ => items) [first]) := by
    apply Decides.loop
    · intro items rest proper bound
      by_cases found : kindOf rest = .comma
      · obtain ⟨t,tail,rfl,comma⟩ := cons_of_kind found (by simp)
        have proper' := proper.tail (inside_of_kind comma (by simp))
        rw [List.length_cons] at bound
        apply DecidesAt.accepted comma (by simp)
        by_cases ended : kindOf tail = close
        · apply DecidesAt.right
          · apply DecidesAt.distrib
            apply DecidesAt.right
            · apply DecidesAt.assoc
              apply DecidesAt.tok comma (by simp)
              apply DecidesAt.peek
              rw [if_pos ended]
              exact DecidesAt.next (by simp [ended]) DecidesAt.pure
            · exact Excludes.bind (excludes_next (by simp [found]))
          · apply Excludes.bind
            apply Excludes.then
            intro _
            exact begins.excludes (by rw [ended,apart])
        · apply DecidesAt.left
          · apply DecidesAt.assoc
            apply DecidesAt.tok comma (by simp)
            apply DecidesAt.peek
            rw [if_neg ended]
            exact (decides.mono (by omega)).bind (fun _ => decides_pure) tail proper' (Nat.le_refl _)
          · apply Excludes.bind
            apply Excludes.either
            · exact excludes_next (by simp [found])
            · apply Excludes.then
              intro _
              exact excludes_next (by simpa using ended)
      · apply DecidesAt.refused found
        apply DecidesAt.right
        · apply DecidesAt.distrib
          apply DecidesAt.left
          · exact DecidesAt.next (by simpa using found) DecidesAt.pure
          · exact Excludes.bind (Excludes.bind (excludes_tok found))
        · exact Excludes.bind (Excludes.bind (excludes_tok found))
    · exact (Begins.bind (begins_tok .comma)).takes
    · exact enough
  intro rest proper bound
  unfold listUntil Grammar.commaList
  apply DecidesAt.peek
  split
  · next found =>
    apply DecidesAt.left
    · exact DecidesAt.next (by simp [found]) DecidesAt.pure
    · exact (Begins.bind begins).excludes (by rw [found,apart])
  · next other =>
    apply DecidesAt.right
    · refine (decides.bind fun first => ?_).at proper bound
      have same := loop first
      simp only [Rule.loop,foldl_snoc] at same
      exact same
    · exact Excludes.bind (excludes_next (by simpa using other))

end Oscan.Syntax
