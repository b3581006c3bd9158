import Oscan.Syntax.LexerSound
import Oscan.Syntax.Program

/-! The whole parser on a list of tokens with one end. -/
namespace Oscan.Syntax
open Library.Parsing Ast

section
variable {self : Parsers} {size n d : Nat} (good : Good self size)
include good

theorem sound_parseNamedType (le : n ≤ size) : Sound AtEnd nested n true d d (parseNamedType self) := by
  unfold parseNamedType
  apply Sound.then sound_expectIdent
  intro name smaller less
  apply Sound.bind (sound_expect (by simp) rfl).lax
  intro _
  exact Sound.bind (good.ty (by omega)).lax fun _ => Sound.pure

theorem sound_parseParamList (le : n < size) : Sound AtEnd nested n false d d (parseParamList self) :=
  sound_listUntil good le _ fun smaller le' =>
    Sound.then (sound_parseNamedType good (by omega)) fun _ _ _ => Sound.pure

theorem sound_parseFieldList (le : n < size) : Sound AtEnd nested n false d d (parseFieldList self) :=
  sound_listUntil good le _ fun smaller le' =>
    Sound.then (sound_parseNamedType good (by omega)) fun _ _ _ => Sound.pure

theorem sound_parseSignature (le : n ≤ size) : Sound AtEnd nested n true d d (parseSignature self) := by
  unfold parseSignature
  apply Sound.then sound_expectIdent
  intro name smaller less
  apply Sound.bind (sound_expect (by simp) rfl).lax
  intro _
  apply Sound.bind (sound_parseParamList good (by omega))
  intro params
  apply Sound.bind (sound_expect (by simp) rfl).lax
  intro _
  exact Sound.bind (sound_parseReturnType good (by omega)) fun _ => Sound.pure

theorem sound_parseFnDecl (le : n ≤ size) {rest : List Token} {kind : TokenKind} (found : kindOf rest = kind)
    (inside : kind ≠ .eof) (plain : nesting d kind = some d) (isPure : Bool) :
    SoundAt AtEnd nested n true d d (parseFnDecl self isPure) rest := by
  unfold parseFnDecl
  refine SoundAt.advance (f := fun _ => ?_) found inside plain fun _ smaller less => ?_
  apply Sound.bind (sound_parseSignature good (by omega)).lax
  intro signature
  exact Sound.bind (good.block (by omega)).lax fun _ => Sound.pure

theorem sound_parseStructDecl (le : n ≤ size) : Sound AtEnd nested n true d d (parseStructDecl self) := by
  unfold parseStructDecl
  apply Sound.peekSpan
  intro span
  apply Sound.then (sound_expect (by simp) rfl)
  intro _ smaller less
  apply Sound.bind sound_expectIdent.lax
  intro name
  apply Sound.bind (sound_expect (by simp) rfl).lax
  intro _
  apply Sound.bind (sound_parseFieldList good (by omega))
  intro fields
  exact Sound.bind (sound_expect (by simp) rfl).lax fun _ => Sound.pure

theorem sound_parseVariant (le : n ≤ size) : Sound AtEnd nested n true d d (parseVariant self) := by
  unfold parseVariant
  apply Sound.then sound_expectIdent
  intro name smaller less
  apply Sound.acceptIf (by simp) rfl
  · intro fewer fewer_less
    apply Sound.bind (sound_listUntil good (by omega) _ fun least le' => good.ty (by omega))
    intro payloadTypes
    exact Sound.bind (sound_expect (by simp) rfl).lax fun _ => Sound.pure
  · exact Sound.pure

theorem sound_parseEnumDecl (le : n ≤ size) : Sound AtEnd nested n true d d (parseEnumDecl self) := by
  unfold parseEnumDecl
  apply Sound.peekSpan
  intro span
  apply Sound.then (sound_expect (by simp) rfl)
  intro _ smaller less
  apply Sound.bind sound_expectIdent.lax
  intro name
  apply Sound.bind (sound_expect (by simp) rfl).lax
  intro _
  apply Sound.bind (sound_listUntil good (by omega) _ fun fewer le' => sound_parseVariant good (by omega))
  intro variants
  exact Sound.bind (sound_expect (by simp) rfl).lax fun _ => Sound.pure

theorem sound_parseTopLetDecl (le : n ≤ size) : Sound AtEnd nested n true d d (parseTopLetDecl self) := by
  unfold parseTopLetDecl
  apply Sound.peekSpan
  intro span
  apply Sound.then (sound_expect (by simp) rfl)
  intro _ smaller less
  apply Sound.bind sound_expectIdent.lax
  intro name
  apply Sound.bind (sound_expect (by simp) rfl).lax
  intro _
  apply Sound.bind (good.ty (by omega)).lax
  intro ty
  apply Sound.bind (sound_expect (by simp) rfl).lax
  intro _
  apply Sound.bind (good.expr (by omega)).lax
  intro value
  exact Sound.bind (sound_expect (by simp) rfl).lax fun _ => Sound.pure

theorem sound_parseExternFnDecl (le : n ≤ size) : Sound AtEnd nested n true d d (parseExternFnDecl self) := by
  unfold parseExternFnDecl
  apply Sound.peekSpan
  intro span
  apply Sound.then (sound_expect (by simp) rfl)
  intro _ smaller less
  apply Sound.bind (sound_parseSignature good (by omega)).lax
  intro signature
  exact Sound.bind (sound_expect (by simp) rfl).lax fun _ => Sound.pure

theorem sound_parseExternBlock (le : n ≤ size) : Sound AtEnd nested n true d d (parseExternBlock self) := by
  unfold parseExternBlock
  apply Sound.peekSpan
  intro span
  apply Sound.then (sound_expect (by simp) rfl)
  intro _ smaller less
  apply Sound.bind (sound_expect (by simp) rfl).lax
  intro _
  apply Sound.bind (sound_manyUntilBrace good (by omega) fun fewer le' => sound_parseExternFnDecl good (by omega))
  intro decls
  exact Sound.bind (sound_expect (by simp) rfl).lax fun _ => Sound.pure

omit good in
theorem sound_parseUseDecl {rest : List Token} (found : kindOf rest = .use_) :
    SoundAt AtEnd nested n true d d (parseUseDecl self) rest := by
  have named : Sound AtEnd nested n true d d (parseNamespace self) := by
    intro rest
    unfold parseNamespace
    apply SoundAt.look
    split
    · next found => exact sound_taking found (by simp) rfl
    · exact sound_failFound _ _
  unfold parseUseDecl
  apply SoundAt.advance found (by simp) rfl
  intro _ smaller less rest
  apply SoundAt.look
  split
  · next found =>
    refine (SoundAt.advance found (by simp) rfl fun _ fewer fewer_less => ?_).lax
    apply Sound.acceptIf (by simp) rfl
    · intro least least_less
      exact Sound.bind (named.mono (by omega)).lax fun _ => Sound.pure
    · exact Sound.pure
  · exact sound_failFound _ _

theorem sound_parseTopDecl (le : n ≤ size) : Sound AtEnd nested n true d d (parseTopDecl self) := by
  intro rest
  unfold parseTopDecl
  apply SoundAt.look
  split
  · next found =>
    have decl : SoundAt AtEnd nested n true d d (parseFnDecl self true) rest :=
      sound_parseFnDecl good le found (by simp) rfl true
    exact decl.then fun _ _ _ => Sound.pure
  · next found =>
    have decl : SoundAt AtEnd nested n true d d (parseFnDecl self false) rest :=
      sound_parseFnDecl good le found (by simp) rfl false
    exact decl.then fun _ _ _ => Sound.pure
  · exact Sound.then (sound_parseStructDecl good le) (fun _ _ _ => Sound.pure) rest
  · exact Sound.then (sound_parseEnumDecl good le) (fun _ _ _ => Sound.pure) rest
  · exact Sound.then (sound_parseTopLetDecl good le) (fun _ _ _ => Sound.pure) rest
  · exact Sound.then (sound_parseExternBlock good le) (fun _ _ _ => Sound.pure) rest
  · next found => exact sound_parseUseDecl found
  · exact sound_failFound _ _

end

theorem Proper.last {rest : List Token} (proper : Proper AtEnd rest) (ended : kindOf rest = .eof) :
    ∃ e, rest = [e] ∧ AtEnd e := by
  obtain ⟨body,e,rfl,mark,only⟩ := proper
  cases body with
  | nil => exact ⟨e,rfl,mark⟩
  | cons t body => exact absurd ended (only t List.mem_cons_self)

theorem collectTypeName_stops {rest : List Token} (ended : kindOf rest = .eof) (names : List String) :
    collectTypeName names rest = .ok (.stop ("Result" :: names)) rest := by
  simp only [collectTypeName,bind_apply,peek,look,Reply.andThen,pure_apply,ended,if_true]

theorem collectTypeName_goes {t : Token} {tail : List Token} (inside : ¬AtEnd t) (proper : Proper AtEnd tail)
    (names : List String) : ∃ names' rest', collectTypeName names (t :: tail) = .ok (.again names') rest' ∧
      (rest' = [] ∨ Proper AtEnd rest') ∧ rest'.length ≤ tail.length := by
  obtain ⟨u,us,rfl⟩ := List.exists_cons_of_ne_nil proper.nonempty
  have other : t.kind ≠ .eof := inside
  by_cases word : t.kind = .struct ∨ t.kind = .enum
  · have passed : us = [] ∨ Proper AtEnd us := by
      by_cases mark : AtEnd u
      · obtain ⟨e,same,_⟩ := Proper.last proper mark
        cases same
        exact .inl rfl
      · exact .inr (proper.tail mark)
    have shorter : us.length ≤ (u :: us).length := Nat.le_succ us.length
    by_cases named : ∃ name, u.kind = .ident name
    · obtain ⟨name,here⟩ := named
      refine ⟨name :: names,us,?_,passed,shorter⟩
      simp only [collectTypeName,bind_apply,peek,look,Reply.andThen,pure_apply,kindOf,other,if_false,advance,word,
        if_true,here]
    · refine ⟨names,us,?_,passed,shorter⟩
      simp only [collectTypeName,bind_apply,peek,look,Reply.andThen,pure_apply,kindOf,other,if_false,advance,word,
        if_true]
      cases here : u.kind <;> first | rfl | exact absurd ⟨_,here⟩ named
  · refine ⟨names,u :: us,?_,.inr proper,Nat.le_refl _⟩
    simp only [collectTypeName,bind_apply,peek,look,Reply.andThen,pure_apply,kindOf,other,if_false,advance,word]

/-- The scan for names may pass over the end itself, and then it stops behind it. -/
theorem collectTypeNames_ends {rounds : Nat} : ∀ {rest : List Token} (names : List String),
    rest = [] ∨ Proper AtEnd rest → rest.length < rounds →
      ∃ names' rest', iterate collectTypeName rounds names rest = .ok names' rest' := by
  induction rounds with
  | zero =>
    intro rest names _ no
    exact absurd no (Nat.not_lt_zero _)
  | succ rounds ih =>
    intro rest names shape enough
    rw [iterate,bind_apply]
    by_cases ended : kindOf rest = .eof
    · rw [collectTypeName_stops ended]
      exact ⟨_,_,rfl⟩
    · obtain ⟨t,tail,rfl,here⟩ := cons_of_kind rfl ended
      have proper : Proper AtEnd (t :: tail) := shape.resolve_left (List.cons_ne_nil t tail)
      obtain ⟨names',rest',step,shape',shorter⟩ := collectTypeName_goes ended (proper.tail ended) names
      rw [step]
      rw [List.length_cons] at enough
      exact ih names' shape' (by omega)

/-- A list of tokens with one end is read without a look behind it, in as many rounds as it has tokens; where it is
accepted, all of it but the end is consumed. -/
theorem parseProgram_sound (shown : Binary64 → String) {tokens : List Token} (proper : Proper AtEnd tokens) :
    match parseProgram shown tokens with
    | .ok _ rest => ∃ e, AtEnd e ∧ rest = [e] ∧ ∃ body, tokens = body ++ [e]
    | .error _ => True
    | .outOfBounds | .unfinished => False := by
  obtain ⟨names,rest,collected⟩ := collectTypeNames_ends [] (.inr proper) (Nat.lt_succ_self tokens.length)
  have good := parsers_good names shown (tokens.length + 1)
  have sound : Sound AtEnd nested tokens.length false 0 0 (parseDecls (parsers names shown (tokens.length + 1))) := by
    unfold parseDecls
    apply Sound.iterate
    · exact good.rounds
    · intro smaller less decls rest
      apply RoundAt.peek
      split
      · exact RoundAt.stop
      · exact SoundAt.round (Sound.then (sound_parseTopDecl good (by omega)) (fun _ _ _ => Sound.pure) rest)
  have inner := sound tokens proper (Nat.le_succ _)
  unfold parseProgram collectTypeNames
  rw [collected]
  dsimp only
  cases reply : parseDecls (parsers names shown (tokens.length + 1)) tokens with
  | ok program rest' =>
    rw [reply] at inner
    obtain ⟨seg,split,proper',_,_⟩ := inner
    have ended : kindOf rest' = .eof := by
      obtain ⟨decls,rest'',last⟩ := iterate_last reply
      by_cases here : kindOf rest'' = .eof
      · simp only [bind_apply,peek,look,Reply.andThen,pure_apply,here,if_true] at last
        cases last
        exact here
      · simp only [bind_apply,peek,look,Reply.andThen,pure_apply,here,if_false] at last
        cases decl : parseTopDecl (parsers names shown (tokens.length + 1)) rest'' with
        | _ =>
          rw [decl] at last
          cases last
    obtain ⟨e,rfl,mark⟩ := Proper.last proper' ended
    exact ⟨e,mark,rfl,seg,split⟩
  | error e => trivial
  | outOfBounds | unfinished =>
    rw [reply] at inner
    exact inner

/-- On what the lexer makes of a source, the parser never looks past the end, and no loop of it goes round more often
than there are tokens; where it accepts, it has consumed every token up to the end. -/
theorem parseProgram_whole (shown : Binary64 → String) {source : String} {tokens : List Token} {lexer : Lexer}
    (lexed : tokenize source = .ok (tokens,lexer)) :
    match parseProgram shown tokens with
    | .ok _ rest => ∃ body e, tokens = body ++ [e] ∧ AtEnd e ∧ rest = [e]
    | .error _ => True
    | .outOfBounds | .unfinished => False := by
  have sound := parseProgram_sound shown ((tokenize_ends source).ok lexed).1
  cases reply : parseProgram shown tokens with
  | ok program rest =>
    rw [reply] at sound
    obtain ⟨e,mark,left,body,whole⟩ := sound
    exact ⟨body,e,whole,mark,left⟩
  | error e => trivial
  | outOfBounds | unfinished =>
    rw [reply] at sound
    exact sound

private def mainTokens : List Token :=
  [⟨.fnBang,⟨1,1⟩⟩,⟨.ident "main",⟨1,5⟩⟩,⟨.lParen,⟨1,9⟩⟩,⟨.rParen,⟨1,10⟩⟩,⟨.lBrace,⟨1,12⟩⟩,⟨.rBrace,⟨1,14⟩⟩,
    ⟨.eof,⟨1,15⟩⟩]

theorem parseProgram_whole_main :
    match parseProgram (fun _ => "") mainTokens with
    | .ok _ rest => ∃ body e, mainTokens = body ++ [e] ∧ AtEnd e ∧ rest = [e]
    | .error _ => True
    | .outOfBounds | .unfinished => False :=
  parseProgram_whole (fun _ => "")
    (show tokenize "fn! main() \x7b \x7d" = .ok (mainTokens,⟨⟨[],⟨1,15⟩⟩,[]⟩) by decide +kernel)

end Oscan.Syntax
