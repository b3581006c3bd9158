import Oscan.Syntax.Parser

/-! The parsers stay inside of the tokens, end, and close the square brackets that they open. -/
namespace Oscan.Syntax
open Library.Parsing Ast

def AtEnd (t : Token) : Prop := t.kind = .eof

/-- How many square brackets are open behind a token -/
def nesting (d : Nat) : TokenKind → Option Nat
  | .lBracket => some (d + 1)
  | .rBracket => match d with
    | 0 => none
    | d + 1 => some d
  | _ => some d

def nested (d : Nat) (t : Token) : Option Nat := nesting d t.kind

section
variable {α β : Type} {size d m d' : Nat} {strict : Bool} {rest : List Token}

theorem cons_of_kind {kind : TokenKind} (found : kindOf rest = kind) (inside : kind ≠ .eof) :
    ∃ t tail, rest = t :: tail ∧ t.kind = kind := by
  cases rest with
  | nil => exact absurd found.symm inside
  | cons t tail => exact ⟨t,tail,rfl,found⟩

theorem SoundAt.advance {kind : TokenKind} {f : Token → Parse β} (found : kindOf rest = kind) (inside : kind ≠ .eof)
    (count : nesting d kind = some m)
    (after : ∀ t smaller, smaller < size → Sound AtEnd nested smaller false m d' (f t)) :
    SoundAt AtEnd nested size true d d' (Library.Parsing.advance >>= f) rest := by
  obtain ⟨t,tail,rfl,same⟩ := cons_of_kind found inside
  refine SoundAt.take ?_ ?_ (after t)
  · intro no
    exact inside (same.symm.trans no)
  · rw [nested,same,count]

theorem sound_taking {value : α} {kind : TokenKind} (found : kindOf rest = kind) (inside : kind ≠ .eof)
    (count : nesting d kind = some m) : SoundAt AtEnd nested size true d m (taking value) rest :=
  SoundAt.advance found inside count fun _ _ _ => Sound.pure

theorem Sound.peekSpan {f : Span → Parse β} (inner : ∀ span, Sound AtEnd nested size strict d d' (f span)) :
    Sound AtEnd nested size strict d d' (Syntax.peekSpan >>= f) :=
  fun rest => inner (spanOf rest) rest

theorem SoundAt.peek {f : TokenKind → Parse β} (inner : SoundAt AtEnd nested size strict d d' (f (kindOf rest)) rest) :
    SoundAt AtEnd nested size strict d d' (Syntax.peek >>= f) rest := inner

theorem Sound.peek {f : TokenKind → Parse β} (inner : ∀ kind, Sound AtEnd nested size strict d d' (f kind)) :
    Sound AtEnd nested size strict d d' (Syntax.peek >>= f) := fun rest => inner (kindOf rest) rest

theorem accept_found {kind : TokenKind} (found : kindOf rest = kind) (inside : kind ≠ .eof) (f : Bool → Parse β) :
    (Syntax.accept kind >>= f) rest = (Library.Parsing.advance >>= fun _ => f true) rest := by
  obtain ⟨t,tail,rfl,here⟩ := cons_of_kind found inside
  simp only [Syntax.accept,bind_apply,Syntax.peek,look,Reply.andThen,pure_apply,found,if_true,advance]

theorem accept_other {kind : TokenKind} (other : kindOf rest ≠ kind) (f : Bool → Parse β) :
    (Syntax.accept kind >>= f) rest = f false rest := by
  simp only [Syntax.accept,bind_apply,Syntax.peek,look,Reply.andThen,pure_apply,other,if_false]

theorem Sound.accept {kind : TokenKind} {f : Bool → Parse β} (inside : kind ≠ .eof) (count : nesting d kind = some d)
    (yes : ∀ smaller, smaller < size → Sound AtEnd nested smaller false d d' (f true))
    (no : Sound AtEnd nested size strict d d' (f false)) :
    Sound AtEnd nested size strict d d' (Syntax.accept kind >>= f) := by
  intro rest proper bound
  by_cases found : kindOf rest = kind
  · have taken : SoundAt AtEnd nested size true d d' (Library.Parsing.advance >>= fun _ => f true) rest :=
      SoundAt.advance found inside count fun _ => yes
    rw [accept_found found inside]
    cases strict with
    | true => exact taken proper bound
    | false => exact taken.lax proper bound
  · rw [accept_other found]
    exact no rest proper bound

theorem Sound.acceptIf {kind : TokenKind} {yes no : Parse β} (inside : kind ≠ .eof) (count : nesting d kind = some d)
    (taken : ∀ smaller, smaller < size → Sound AtEnd nested smaller false d d' yes)
    (other : Sound AtEnd nested size strict d d' no) :
    Sound AtEnd nested size strict d d' (Syntax.accept kind >>= fun found => if found = true then yes else no) :=
  Sound.accept inside count taken other

theorem RoundAt.peek {f : TokenKind → Parse (Step α β)} (inner : RoundAt AtEnd nested size d (f (kindOf rest)) rest) :
    RoundAt AtEnd nested size d (Syntax.peek >>= f) rest := inner

theorem RoundAt.accept {kind : TokenKind} {f : Bool → Parse (Step α β)} (inside : kind ≠ .eof)
    (count : nesting d kind = some d)
    (yes : ∀ smaller, smaller < size → Sound AtEnd nested smaller false d d (f true))
    (no : RoundAt AtEnd nested size d (f false) rest) :
    RoundAt AtEnd nested size d (Syntax.accept kind >>= f) rest := by
  intro proper bound
  by_cases found : kindOf rest = kind
  · have taken : SoundAt AtEnd nested size true d d (Library.Parsing.advance >>= fun _ => f true) rest :=
      SoundAt.advance found inside count fun _ => yes
    rw [accept_found found inside]
    exact taken.round proper bound
  · rw [accept_other found]
    exact no proper bound

end

variable {self : Parsers} {α β : Type} {size n d m : Nat}

theorem sound_failFound (expected : String) {strict : Bool} {d' : Nat} :
    Sound AtEnd nested n strict d d' (failFound self expected : Parse α) := fun _ _ _ => trivial

theorem sound_expect {kind : TokenKind} (inside : kind ≠ .eof) (count : nesting d kind = some m) :
    Sound AtEnd nested n true d m (expect self kind) := by
  intro rest
  unfold expect
  apply SoundAt.look
  split
  · next found => exact SoundAt.advance found inside count fun _ _ _ => Sound.pure
  · exact sound_failFound _ _

theorem sound_expectIdent : Sound AtEnd nested n true d d (expectIdent self) := by
  intro rest
  unfold expectIdent
  apply SoundAt.look
  split
  · next name found => exact SoundAt.advance found (by simp) rfl fun _ _ _ => Sound.pure
  · exact sound_failFound _ _

/-- Parsers that are called again, on fewer tokens than a bound -/
structure Good (ps : Parsers) (size : Nat) : Prop where
  rounds : size ≤ ps.rounds
  expr : ∀ {n d}, n < size → Sound AtEnd nested n true d d ps.expr
  unary : ∀ {n d}, n < size → Sound AtEnd nested n true d d ps.unary
  postfix_ : ∀ {n d}, n < size → Sound AtEnd nested n true d d ps.postfix_
  ifExpr : ∀ {n d}, n < size → Sound AtEnd nested n true d d ps.ifExpr
  block : ∀ {n d}, n < size → Sound AtEnd nested n true d d ps.block
  ty : ∀ {n d}, n < size → Sound AtEnd nested n true d d ps.ty
  pattern : ∀ {n d}, n < size → Sound AtEnd nested n true d d ps.pattern

variable (good : Good self size)
include good

theorem sound_listUntil (le : n < size) (close : TokenKind) {item : Parse α}
    (sound : ∀ smaller, smaller ≤ n → Sound AtEnd nested smaller true d d item) :
    Sound AtEnd nested n false d d (listUntil self close item) := by
  unfold listUntil
  apply Sound.peek
  intro kind
  split
  · exact Sound.pure
  · apply Sound.bind (sound n (Nat.le_refl n)).lax
    intro first
    apply Sound.iterate
    · have rounds := good.rounds
      omega
    · intro smaller less items rest
      apply RoundAt.accept (by simp) rfl
      · intro fewer fewer_less
        apply Sound.peek
        intro kind
        split
        · exact Sound.pure
        · exact Sound.bind (sound fewer (by omega)).lax fun _ => Sound.pure
      · exact RoundAt.stop

theorem sound_manyUntilBrace (le : n < size) {item : Parse α}
    (sound : ∀ smaller, smaller ≤ n → Sound AtEnd nested smaller true d d item) :
    Sound AtEnd nested n false d d (manyUntilBrace self item) := by
  unfold manyUntilBrace
  apply Sound.iterate
  · have rounds := good.rounds
    omega
  · intro smaller less items rest proper bound
    have round : RoundAt AtEnd nested smaller d (if kindOf rest = .rBrace ∨ kindOf rest = .eof then
        pure (.stop items) else item >>= fun next => pure (Step.again (items ++ [next]))) rest := by
      split
      · exact RoundAt.stop
      · exact SoundAt.round (Sound.then (sound smaller less) (fun _ _ _ => Sound.pure) rest)
    exact round proper bound

theorem sound_parseResultType (le : n ≤ size) (span : Span) :
    Sound AtEnd nested n true d d (parseResultType self span) := by
  unfold parseResultType
  apply Sound.then (sound_expect (by simp) rfl)
  intro _ smaller less
  apply Sound.bind (good.ty (by omega)).lax
  intro okType
  apply Sound.bind (sound_expect (by simp) rfl).lax
  intro _
  apply Sound.bind (good.ty (by omega)).lax
  intro errType
  exact Sound.bind (sound_expect (by simp) rfl).lax fun _ => Sound.pure

omit good in
theorem sound_parseArraySize (elemType : Ty) (span : Span) :
    Sound AtEnd nested n true (d + 1) d (parseArraySize self elemType span) := by
  intro rest
  unfold parseArraySize
  apply SoundAt.look
  split
  · next found =>
    apply SoundAt.advance found (by simp) rfl
    intro _ smaller less
    exact Sound.bind (sound_expect (by simp) rfl).lax fun _ => Sound.pure
  · exact sound_failFound _ _

theorem sound_parseArrayType (le : n ≤ size) : Sound AtEnd nested n true d d (parseArrayType self) := by
  unfold parseArrayType
  apply Sound.peekSpan
  intro span
  apply Sound.then (sound_expect (by simp) rfl)
  intro _ smaller less
  apply Sound.bind (good.ty (by omega)).lax
  intro elemType
  apply Sound.acceptIf (by simp) rfl
  · intro _ _
    exact (sound_parseArraySize elemType span).lax
  · exact Sound.bind (sound_expect (by simp) rfl).lax fun _ => Sound.pure

theorem sound_parseParamTypes (le : n < size) : Sound AtEnd nested n false d d (parseParamTypes self) := by
  unfold parseParamTypes
  apply Sound.iterate
  · have rounds := good.rounds
    omega
  · intro smaller less types rest
    apply RoundAt.peek
    split
    · exact RoundAt.stop
    · dsimp only
      split
      · exact SoundAt.round (Sound.then (good.ty (by omega)) (fun _ _ _ => Sound.pure) rest)
      · refine SoundAt.round (Sound.then (sound_expect (by simp) rfl) (fun _ fewer _ => ?_) rest)
        exact Sound.bind (good.ty (by omega)).lax fun _ => Sound.pure

theorem sound_parseReturnType (le : n ≤ size) : Sound AtEnd nested n false d d (parseReturnType self) := by
  unfold parseReturnType
  apply Sound.acceptIf (by simp) rfl
  · intro smaller less
    exact Sound.bind (good.ty (by omega)).lax fun _ => Sound.pure
  · exact Sound.pure

theorem sound_parseFnPtrType (le : n ≤ size) {rest : List Token} (isPure : Bool)
    (found : kindOf rest = .fn ∨ kindOf rest = .fnBang) :
    SoundAt AtEnd nested n true d d (parseFnPtrType self isPure) rest := by
  unfold parseFnPtrType
  have after (span : Span) (t : Token) (smaller : Nat) (less : smaller < n) :
      Sound AtEnd nested smaller false d d (do
        let _ ← expect self .lParen
        let params ← parseParamTypes self
        let _ ← expect self .rParen
        let ret ← parseReturnType self
        pure (Ty.fnPtr params (ret.getD (.primitive .unit span)) isPure span)) := by
    apply Sound.bind (sound_expect (by simp) rfl).lax
    intro _
    apply Sound.bind (sound_parseParamTypes good (by omega))
    intro params
    apply Sound.bind (sound_expect (by simp) rfl).lax
    intro _
    exact Sound.bind (sound_parseReturnType good (by omega)) fun _ => Sound.pure
  rcases found with found | found
  · exact SoundAt.advance found (by simp) rfl (after (spanOf rest))
  · exact SoundAt.advance found (by simp) rfl (after (spanOf rest))

theorem sound_parseType (le : n ≤ size) : Sound AtEnd nested n true d d (parseType self) := by
  intro rest
  unfold parseType
  apply SoundAt.look
  split
  · exact sound_parseArrayType good le rest
  · next found => exact sound_parseFnPtrType good le true (.inl found)
  · next found => exact sound_parseFnPtrType good le false (.inr found)
  · next name found =>
    apply SoundAt.advance found (by simp) rfl
    intro _ smaller less
    split
    · exact (sound_parseResultType good (by omega) _).lax
    · split
      · exact Sound.pure
      · exact Sound.pure
  · exact sound_failFound _ _

theorem sound_parseEnumPattern (le : n ≤ size) : Sound AtEnd nested n true d d (parseEnumPattern self) := by
  unfold parseEnumPattern
  apply Sound.peekSpan
  intro span
  apply Sound.then sound_expectIdent
  intro enumName smaller less
  apply Sound.bind (sound_expect (by simp) rfl).lax
  intro _
  apply Sound.bind sound_expectIdent.lax
  intro variant
  apply Sound.acceptIf (by simp) rfl
  · intro fewer fewer_less
    apply Sound.bind (sound_listUntil good (by omega) _ fun least le_least => good.pattern (by omega))
    intro bindings
    exact Sound.bind (sound_expect (by simp) rfl).lax fun _ => Sound.pure
  · exact Sound.pure

omit good in
theorem sound_parseNegative : Sound AtEnd nested n true d d (parseNegative self) := by
  intro rest
  unfold parseNegative
  apply SoundAt.look
  split
  · next found => exact sound_taking found (by simp) rfl
  · next found => exact sound_taking found (by simp) rfl
  · exact sound_failFound _ _

theorem sound_parsePattern (le : n ≤ size) : Sound AtEnd nested n true d d (parsePattern self) := by
  intro rest
  unfold parsePattern
  apply SoundAt.look
  dsimp only
  split
  · next found => exact sound_taking found (by simp) rfl
  · next found => exact sound_taking found (by simp) rfl
  · next found => exact sound_taking found (by simp) rfl
  · next found => exact sound_taking found (by simp) rfl
  · next found => exact sound_taking found (by simp) rfl
  · next found => exact sound_taking found (by simp) rfl
  · next found =>
    split
    · exact sound_parseEnumPattern good le rest
    · exact sound_taking found (by simp) rfl
  · next found => exact SoundAt.advance found (by simp) rfl fun _ _ _ => sound_parseNegative.lax
  · exact sound_failFound _ _

theorem sound_parseArgList (le : n < size) : Sound AtEnd nested n false d d (parseArgList self) :=
  sound_listUntil good (by omega) _ fun _ le' => good.expr (by omega)

theorem sound_parsePostfixes (le : n < size) (expr : Expr) :
    Sound AtEnd nested n false d d (parsePostfixes self expr) := by
  unfold parsePostfixes
  apply Sound.iterate
  · have rounds := good.rounds
    omega
  · intro smaller less expr rest
    apply RoundAt.peek
    split
    · next found =>
      apply SoundAt.round
      apply SoundAt.advance found (by simp) rfl
      intro _ fewer fewer_less
      apply Sound.bind (sound_parseArgList good (by omega))
      intro args
      exact Sound.bind (sound_expect (by simp) rfl).lax fun _ => Sound.pure
    · next found =>
      apply SoundAt.round
      apply SoundAt.advance found (by simp) rfl
      intro _ fewer fewer_less
      apply Sound.bind (good.expr (by omega)).lax
      intro index
      exact Sound.bind (sound_expect (by simp) rfl).lax fun _ => Sound.pure
    · next found =>
      apply SoundAt.round
      apply SoundAt.advance found (by simp) rfl
      intro _ fewer fewer_less
      exact Sound.bind sound_expectIdent.lax fun _ => Sound.pure
    · exact RoundAt.stop

theorem sound_parseInterpolated (le : n < size) (startText : String) (span : Span) :
    Sound AtEnd nested n false d d (parseInterpolatedStringExpr self startText span) := by
  unfold parseInterpolatedStringExpr
  refine Sound.bind (Sound.iterate ?_ ?_) fun _ => Sound.pure
  · have rounds := good.rounds
    omega
  · intro smaller less parts rest
    apply SoundAt.round
    refine Sound.then (good.expr (by omega)) (fun expr fewer fewer_less => ?_) rest
    intro rest
    apply SoundAt.look
    split
    · next found => exact (sound_taking found (by simp) rfl).lax
    · next found => exact (sound_taking found (by simp) rfl).lax
    · exact fun _ _ => trivial

theorem sound_parseElse (le : n ≤ size) : Sound AtEnd nested n false d d (parseElse self) := by
  unfold parseElse
  apply Sound.acceptIf (by simp) rfl
  · intro smaller less
    apply Sound.peek
    intro kind
    split
    · exact Sound.bind (good.ifExpr (by omega)).lax fun _ => Sound.pure
    · exact Sound.bind (good.block (by omega)).lax fun _ => Sound.pure
  · exact Sound.pure

theorem sound_parseIfExpr (le : n ≤ size) : Sound AtEnd nested n true d d (parseIfExpr self) := by
  unfold parseIfExpr
  apply Sound.peekSpan
  intro span
  apply Sound.then (sound_expect (by simp) rfl)
  intro _ smaller less
  apply Sound.bind (good.expr (by omega)).lax
  intro condition
  apply Sound.bind (good.block (by omega)).lax
  intro thenBlock
  exact Sound.bind (sound_parseElse good (by omega)) fun _ => Sound.pure

theorem sound_parseMatchArm (le : n < size) : Sound AtEnd nested n true d d (parseMatchArm self) := by
  unfold parseMatchArm
  apply Sound.peekSpan
  intro span
  apply Sound.then (good.pattern le)
  intro pattern smaller less
  apply Sound.bind (sound_expect (by simp) rfl).lax
  intro _
  apply Sound.bind (good.expr (by omega)).lax
  intro body
  exact Sound.bind (sound_expect (by simp) rfl).lax fun _ => Sound.pure

theorem sound_parseMatchExpr (le : n ≤ size) : Sound AtEnd nested n true d d (parseMatchExpr self) := by
  unfold parseMatchExpr
  apply Sound.peekSpan
  intro span
  apply Sound.then (sound_expect (by simp) rfl)
  intro _ smaller less
  apply Sound.bind (good.expr (by omega)).lax
  intro scrutinee
  apply Sound.bind (sound_expect (by simp) rfl).lax
  intro _
  apply Sound.bind (sound_manyUntilBrace good (by omega) fun fewer le' => sound_parseMatchArm good (by omega))
  intro arms
  exact Sound.bind (sound_expect (by simp) rfl).lax fun _ => Sound.pure

theorem sound_parseTryExpr (le : n ≤ size) : Sound AtEnd nested n true d d (parseTryExpr self) := by
  unfold parseTryExpr
  apply Sound.peekSpan
  intro span
  apply Sound.then (sound_expect (by simp) rfl)
  intro _ smaller less
  exact Sound.bind (good.postfix_ (by omega)).lax fun _ => Sound.pure

theorem sound_parseArrayLiteral (le : n ≤ size) : Sound AtEnd nested n true d d (parseArrayLiteral self) := by
  unfold parseArrayLiteral
  apply Sound.peekSpan
  intro span
  apply Sound.then (sound_expect (by simp) rfl)
  intro _ smaller less
  apply Sound.bind (sound_listUntil good (by omega) _ fun fewer le' => good.expr (by omega))
  intro elements
  exact Sound.bind (sound_expect (by simp) rfl).lax fun _ => Sound.pure

theorem sound_parseFieldInit (le : n ≤ size) : Sound AtEnd nested n true d d (parseFieldInit self) := by
  unfold parseFieldInit
  apply Sound.then sound_expectIdent
  intro name smaller less
  apply Sound.bind (sound_expect (by simp) rfl).lax
  intro _
  exact Sound.bind (good.expr (by omega)).lax fun _ => Sound.pure

theorem sound_parseStructLiteral (le : n ≤ size) : Sound AtEnd nested n true d d (parseStructLiteral self) := by
  unfold parseStructLiteral
  apply Sound.peekSpan
  intro span
  apply Sound.then sound_expectIdent
  intro name smaller less
  apply Sound.bind (sound_expect (by simp) rfl).lax
  intro _
  apply Sound.bind (sound_listUntil good (by omega) _ fun fewer le' => sound_parseFieldInit good (by omega))
  intro fields
  exact Sound.bind (sound_expect (by simp) rfl).lax fun _ => Sound.pure

theorem sound_parseEnumConstructor (le : n ≤ size) :
    Sound AtEnd nested n true d d (parseEnumConstructor self) := by
  unfold parseEnumConstructor
  apply Sound.peekSpan
  intro span
  apply Sound.then sound_expectIdent
  intro enumName smaller less
  apply Sound.bind (sound_expect (by simp) rfl).lax
  intro _
  apply Sound.bind sound_expectIdent.lax
  intro variant
  apply Sound.acceptIf (by simp) rfl
  · intro fewer fewer_less
    apply Sound.bind (sound_parseArgList good (by omega))
    intro args
    exact Sound.bind (sound_expect (by simp) rfl).lax fun _ => Sound.pure
  · exact Sound.pure

theorem sound_parseLetStmt (le : n ≤ size) : Sound AtEnd nested n true d d (parseLetStmt self) := by
  unfold parseLetStmt
  apply Sound.peekSpan
  intro span
  apply Sound.then (sound_expect (by simp) rfl)
  intro _ smaller less
  have later (isMut : Bool) (fewer : Nat) (fewer_le : fewer ≤ smaller) : Sound AtEnd nested fewer false d d (do
      let found ← expectIdent self
      let _ ← expect self .colon
      let ty ← self.ty
      let _ ← expect self .eq
      let value ← self.expr
      let _ ← expect self .semicolon
      pure (Stmt.letStmt found.1 isMut ty value span)) := by
    apply Sound.bind sound_expectIdent.lax
    intro name
    apply Sound.bind (sound_expect (by simp) rfl).lax
    intro _
    apply Sound.bind (good.ty (by omega)).lax
    intro ty
    apply Sound.bind (sound_expect (by simp) rfl).lax
    intro _
    apply Sound.bind (good.expr (by omega)).lax
    intro value
    exact Sound.bind (sound_expect (by simp) rfl).lax fun _ => Sound.pure
  apply Sound.accept (by simp) rfl
  · intro fewer fewer_less
    exact later true fewer (by omega)
  · exact later false smaller (Nat.le_refl smaller)

theorem sound_parsePlace (le : n ≤ size) : Sound AtEnd nested n true d d (parsePlace self) := by
  unfold parsePlace
  apply Sound.then sound_expectIdent
  intro name smaller less
  refine Sound.bind (Sound.iterate ?_ ?_) fun _ => Sound.pure
  · have rounds := good.rounds
    omega
  · intro fewer fewer_le accessors rest
    apply RoundAt.peek
    split
    · next found =>
      apply SoundAt.round
      apply SoundAt.advance found (by simp) rfl
      intro _ least least_less
      exact Sound.bind sound_expectIdent.lax fun _ => Sound.pure
    · next found =>
      apply SoundAt.round
      apply SoundAt.advance found (by simp) rfl
      intro _ least least_less
      apply Sound.bind (good.expr (by omega)).lax
      intro index
      exact Sound.bind (sound_expect (by simp) rfl).lax fun _ => Sound.pure
    · exact RoundAt.stop

/-- What follows the sign of an assignment -/
theorem sound_assigned (le : n < size) (stmt : Expr → Stmt) : Sound AtEnd nested n false d d (do
    let value ← self.expr
    let _ ← expect self .semicolon
    pure (stmt value)) := by
  apply Sound.bind (good.expr le).lax
  intro value
  exact Sound.bind (sound_expect (by simp) rfl).lax fun _ => Sound.pure

omit good in
theorem compoundOp_plain {kind : TokenKind} {op : BinOp} (compound : compoundOp kind = some op) :
    kind ≠ .eof ∧ nesting d kind = some d := by
  unfold compoundOp at compound
  split at compound
  all_goals first | exact ⟨by simp,rfl⟩ | cases compound

theorem sound_parseAssignStmt (le : n ≤ size) : Sound AtEnd nested n true d d (parseAssignStmt self) := by
  unfold parseAssignStmt
  apply Sound.peekSpan
  intro span
  apply Sound.then (sound_parsePlace good le)
  intro target smaller less rest
  apply SoundAt.peek
  split
  · next op compound =>
    obtain ⟨inside,plain⟩ := compoundOp_plain (d := d) compound
    refine (SoundAt.advance rfl inside plain fun _ fewer fewer_less => ?_).lax
    exact sound_assigned good (by omega) _
  · refine Sound.bind (sound_expect (by simp) rfl).lax (fun _ => ?_) rest
    exact sound_assigned good (by omega) _

theorem sound_parseWhileStmt (le : n ≤ size) : Sound AtEnd nested n true d d (parseWhileStmt self) := by
  unfold parseWhileStmt
  apply Sound.peekSpan
  intro span
  apply Sound.then (sound_expect (by simp) rfl)
  intro _ smaller less
  apply Sound.bind (good.expr (by omega)).lax
  intro condition
  apply Sound.bind (good.block (by omega)).lax
  intro body
  exact Sound.accept (by simp) rfl (fun _ _ => Sound.pure) Sound.pure

/-- The body of a loop, behind which a semicolon may stand -/
theorem sound_loopBody (le : n < size) (stmt : Block → Stmt) : Sound AtEnd nested n false d d (do
    let body ← self.block
    let _ ← accept .semicolon
    pure (stmt body)) := by
  apply Sound.bind (good.block le).lax
  intro body
  exact Sound.accept (by simp) rfl (fun _ _ => Sound.pure) Sound.pure

theorem sound_parseForStmt (le : n ≤ size) : Sound AtEnd nested n true d d (parseForStmt self) := by
  unfold parseForStmt
  apply Sound.peekSpan
  intro span
  apply Sound.then (sound_expect (by simp) rfl)
  intro _ smaller less
  apply Sound.bind sound_expectIdent.lax
  intro var
  apply Sound.bind (sound_expect (by simp) rfl).lax
  intro _
  apply Sound.bind (good.expr (by omega)).lax
  intro start
  apply Sound.acceptIf (by simp) rfl
  · intro fewer fewer_less
    apply Sound.bind (good.expr (by omega)).lax
    intro stop
    exact sound_loopBody good (by omega) _
  · exact sound_loopBody good (by omega) _

theorem sound_parseReturnStmt (le : n ≤ size) : Sound AtEnd nested n true d d (parseReturnStmt self) := by
  unfold parseReturnStmt
  apply Sound.peekSpan
  intro span
  apply Sound.then (sound_expect (by simp) rfl)
  intro _ smaller less
  apply Sound.peek
  intro kind
  split
  · exact Sound.bind (sound_expect (by simp) rfl).lax fun _ => Sound.pure
  · exact sound_assigned good (by omega) _

theorem sound_parseDeferStmt (le : n ≤ size) : Sound AtEnd nested n true d d (parseDeferStmt self) := by
  unfold parseDeferStmt
  apply Sound.peekSpan
  intro span
  apply Sound.then (sound_expect (by simp) rfl)
  intro _ smaller less
  exact sound_assigned good (by omega) _

omit good in
theorem sound_parseJump {rest : List Token} {kind : TokenKind} (found : kindOf rest = kind) (inside : kind ≠ .eof)
    (plain : nesting d kind = some d) (stmt : Span → Stmt) :
    SoundAt AtEnd nested n true d d (parseJump self stmt) rest := by
  unfold parseJump
  refine SoundAt.advance (f := fun _ => ?_) found inside plain fun _ smaller less => ?_
  exact Sound.bind (sound_expect (by simp) rfl).lax fun _ => Sound.pure

theorem sound_parseExprStmt (le : n < size) : Sound AtEnd nested n true d d (parseExprStmt self) := by
  unfold parseExprStmt
  apply Sound.then (good.expr le)
  intro expr smaller less
  exact Sound.bind (sound_expect (by simp) rfl).lax fun _ => Sound.pure

theorem sound_parseStmt (le : n < size) : Sound AtEnd nested n true d d (parseStmt self) := by
  intro rest
  unfold parseStmt
  apply SoundAt.look
  split
  · exact sound_parseLetStmt good (by omega) rest
  · exact sound_parseWhileStmt good (by omega) rest
  · exact sound_parseForStmt good (by omega) rest
  · exact sound_parseReturnStmt good (by omega) rest
  · exact sound_parseDeferStmt good (by omega) rest
  · next found => exact sound_parseJump found (by simp) rfl _
  · next found => exact sound_parseJump found (by simp) rfl _
  · split
    · exact sound_parseAssignStmt good (by omega) rest
    · exact sound_parseExprStmt good le rest

theorem sound_parseBlockItem (le : n < size) (stmts : List Stmt) (tailExpr : Option Expr) (rest : List Token) :
    RoundAt AtEnd nested n d (parseBlockItem self stmts tailExpr) rest := by
  unfold parseBlockItem
  apply RoundAt.look
  split
  · exact RoundAt.stop
  · split
    · exact SoundAt.round (Sound.then (sound_parseStmt good le) (fun _ _ _ => Sound.pure) rest)
    · apply SoundAt.round
      refine Sound.then (good.expr le) (fun expr smaller less => ?_) rest
      intro rest
      apply SoundAt.look
      split
      · next found => exact (sound_taking found (by simp) rfl).lax
      · exact Sound.pure rest
      · exact sound_failFound _ _

theorem sound_parseBlock (le : n ≤ size) : Sound AtEnd nested n true d d (parseBlock self) := by
  unfold parseBlock
  apply Sound.peekSpan
  intro span
  apply Sound.then (sound_expect (by simp) rfl)
  intro _ smaller less
  apply Sound.bind (m := d)
  · apply Sound.iterate
    · have rounds := good.rounds
      omega
    · intro fewer fewer_le items rest
      exact sound_parseBlockItem good (by omega) items.1 items.2 rest
  · intro items
    exact Sound.bind (sound_expect (by simp) rfl).lax fun _ => Sound.pure

theorem sound_parsePrimaryExpr (le : n ≤ size) : Sound AtEnd nested n true d d (parsePrimaryExpr self) := by
  intro rest
  unfold parsePrimaryExpr
  apply SoundAt.look
  dsimp only
  split
  · next found => exact sound_taking found (by simp) rfl
  · next found => exact sound_taking found (by simp) rfl
  · next found => exact sound_taking found (by simp) rfl
  · next found =>
    apply SoundAt.advance found (by simp) rfl
    intro _ smaller less
    exact sound_parseInterpolated good (by omega) _ _
  · next found => exact sound_taking found (by simp) rfl
  · next found => exact sound_taking found (by simp) rfl
  · exact sound_parseIfExpr good le rest
  · exact sound_parseMatchExpr good le rest
  · exact sound_parseTryExpr good le rest
  · exact Sound.then (sound_parseBlock good le) (fun _ _ _ => Sound.pure) rest
  · exact sound_parseArrayLiteral good le rest
  · next found =>
    apply SoundAt.advance found (by simp) rfl
    intro _ smaller less
    apply Sound.bind (good.expr (by omega)).lax
    intro expr
    exact Sound.bind (sound_expect (by simp) rfl).lax fun _ => Sound.pure
  · next found =>
    apply SoundAt.advance found (by simp) rfl
    intro _ smaller less
    exact Sound.bind (good.block (by omega)).lax fun _ => Sound.pure
  · next found =>
    split
    · exact sound_parseEnumConstructor good le rest
    · split
      · exact sound_parseStructLiteral good le rest
      · exact sound_taking found (by simp) rfl
  · exact sound_failFound _ _

theorem sound_parsePostfixExpr (le : n ≤ size) : Sound AtEnd nested n true d d (parsePostfixExpr self) := by
  unfold parsePostfixExpr
  apply Sound.then (sound_parsePrimaryExpr good le)
  intro expr smaller less
  exact sound_parsePostfixes good (by omega) expr

theorem sound_parseCastExpr (le : n ≤ size) : Sound AtEnd nested n true d d (parseCastExpr self) := by
  unfold parseCastExpr
  apply Sound.then (sound_parsePostfixExpr good le)
  intro expr smaller less
  apply Sound.peekSpan
  intro span
  apply Sound.acceptIf (by simp) rfl
  · intro fewer fewer_less
    exact Sound.bind (good.ty (by omega)).lax fun _ => Sound.pure
  · exact Sound.pure

theorem sound_parseUnaryExpr (le : n ≤ size) : Sound AtEnd nested n true d d (parseUnaryExpr self) := by
  intro rest
  unfold parseUnaryExpr
  apply SoundAt.look
  split
  · next found =>
    apply SoundAt.advance found (by simp) rfl
    intro _ smaller less
    exact Sound.bind (good.unary (by omega)).lax fun _ => Sound.pure
  · next found =>
    apply SoundAt.advance found (by simp) rfl
    intro _ smaller less
    exact Sound.bind (good.unary (by omega)).lax fun _ => Sound.pure
  · exact sound_parseCastExpr good le rest

omit good in
/-- A table of operators, of which none is the end or a bracket -/
def Plain (opOf : TokenKind → Option BinOp) : Prop :=
  ∀ d kind op, opOf kind = some op → kind ≠ .eof ∧ nesting d kind = some d

theorem sound_parseLevel (le : n ≤ size) {opOf : TokenKind → Option BinOp} (plain : Plain opOf)
    {next : Parse Expr} (sound : ∀ smaller, smaller ≤ n → Sound AtEnd nested smaller true d d next) :
    Sound AtEnd nested n true d d (parseLevel self opOf next) := by
  unfold parseLevel
  apply Sound.then (sound n (Nat.le_refl n))
  intro left smaller less
  apply Sound.iterate
  · have rounds := good.rounds
    omega
  · intro fewer fewer_le left rest
    apply RoundAt.look
    split
    · exact RoundAt.stop
    · next op found =>
      obtain ⟨inside,level⟩ := plain d _ _ found
      apply SoundAt.round
      apply SoundAt.advance rfl inside level
      intro _ least least_less
      exact Sound.bind (sound least (by omega)).lax fun _ => Sound.pure

omit good in
theorem sound_parseOnce {opOf : TokenKind → Option BinOp} (plain : Plain opOf) {next : Parse Expr}
    (sound : ∀ smaller, smaller ≤ n → Sound AtEnd nested smaller true d d next) :
    Sound AtEnd nested n true d d (parseOnce opOf next) := by
  unfold parseOnce
  apply Sound.then (sound n (Nat.le_refl n))
  intro left smaller less rest
  apply SoundAt.look
  split
  · exact Sound.pure rest
  · next op found =>
    obtain ⟨inside,level⟩ := plain d _ _ found
    refine (SoundAt.advance rfl inside level fun _ least least_less => ?_).lax
    exact Sound.bind (sound least (by omega)).lax fun _ => Sound.pure

omit good in
theorem operators_plain : Plain multOp ∧ Plain additiveOp ∧ Plain relationalOp ∧ Plain equalityOp ∧ Plain andOp ∧
    Plain orOp := by
  refine ⟨?_,?_,?_,?_,?_,?_⟩ <;> intro d kind op found <;> cases kind <;>
    first | (cases found; done) | exact ⟨by simp,rfl⟩

theorem sound_parseExpr (le : n ≤ size) : Sound AtEnd nested n true d d (parseExpr self) := by
  obtain ⟨mult,additive,relational,equality,and_,or_⟩ := operators_plain
  have products (smaller : Nat) (less : smaller ≤ n) : Sound AtEnd nested smaller true d d (parseMultExpr self) :=
    sound_parseLevel good (by omega) mult fun fewer le' => sound_parseUnaryExpr good (by omega)
  have sums (smaller : Nat) (less : smaller ≤ n) : Sound AtEnd nested smaller true d d (parseAdditiveExpr self) :=
    sound_parseLevel good (by omega) additive fun fewer le' => products fewer (by omega)
  have relations (smaller : Nat) (less : smaller ≤ n) : Sound AtEnd nested smaller true d d (parseRelationalExpr self) :=
    sound_parseOnce relational fun fewer le' => sums fewer (by omega)
  have equalities (smaller : Nat) (less : smaller ≤ n) : Sound AtEnd nested smaller true d d (parseEqualityExpr self) :=
    sound_parseOnce equality fun fewer le' => relations fewer (by omega)
  have ands (smaller : Nat) (less : smaller ≤ n) : Sound AtEnd nested smaller true d d (parseAndExpr self) :=
    sound_parseLevel good (by omega) and_ fun fewer le' => equalities fewer (by omega)
  exact sound_parseLevel good le or_ fun fewer le' => ands fewer le'

omit good in
/-- On fewer tokens than the recursion may go deep, the parsers are sound. -/
theorem parsers_good (names : List String) (shown : Binary64 → String) (depth : Nat) :
    Good (parsers names shown depth) depth := by
  induction depth with
  | zero => constructor <;> simp
  | succ depth ih =>
    constructor
    · exact Nat.le_succ (depth + 1)
    · exact fun less => sound_parseExpr ih (Nat.le_of_lt_succ less)
    · exact fun less => sound_parseUnaryExpr ih (Nat.le_of_lt_succ less)
    · exact fun less => sound_parsePostfixExpr ih (Nat.le_of_lt_succ less)
    · exact fun less => sound_parseIfExpr ih (Nat.le_of_lt_succ less)
    · exact fun less => sound_parseBlock ih (Nat.le_of_lt_succ less)
    · exact fun less => sound_parseType ih (Nat.le_of_lt_succ less)
    · exact fun less => sound_parsePattern ih (Nat.le_of_lt_succ less)

end Oscan.Syntax
