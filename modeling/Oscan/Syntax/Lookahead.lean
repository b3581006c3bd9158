import Oscan.Syntax.LexerSound

/-! The scan ahead at the start of a statement, beside the parser of places. -/
namespace Oscan.Syntax
open Library.Parsing Ast

variable {self : Parsers} {rest rest' : List Token}

/-! What the small parsers have taken where they come to a value -/

theorem not_gives_failFound {α : Type} {expected : String} {a : α} :
    ¬Gives (failFound self expected : Parse α) rest a rest' := by
  intro taken
  cases taken

theorem gives_peek {kind : TokenKind} : Gives peek rest kind rest' ↔ kindOf rest = kind ∧ rest = rest' := by
  rw [peek,gives_look,gives_pure]

theorem inside_of_kind {t : Token} {kind : TokenKind} (here : t.kind = kind) (inside : kind ≠ .eof) : ¬AtEnd t :=
  fun mark => inside (here.symm.trans mark)

theorem expect_ok {kind : TokenKind} {span : Span} (taken : Gives (expect self kind) rest span rest') :
    ∃ t, rest = t :: rest' ∧ t.kind = kind := by
  unfold expect at taken
  rw [gives_look] at taken
  split at taken
  · next found =>
    obtain ⟨t,middle,advanced,ended⟩ := gives_bind.mp taken
    obtain rfl := (gives_pure.mp ended).2
    obtain rfl := gives_advance.mp advanced
    exact ⟨t,rfl,found⟩
  · exact absurd taken not_gives_failFound

theorem expectIdent_ok {ident : String × Span} (taken : Gives (expectIdent self) rest ident rest') :
    ∃ t name, rest = t :: rest' ∧ t.kind = .ident name := by
  unfold expectIdent at taken
  rw [gives_look] at taken
  split at taken
  · next name found =>
    obtain ⟨t,middle,advanced,ended⟩ := gives_bind.mp taken
    obtain rfl := (gives_pure.mp ended).2
    obtain rfl := gives_advance.mp advanced
    exact ⟨t,name,rfl,found⟩
  · exact absurd taken not_gives_failFound

/-- A sound parser has taken tokens before the end, which leave the count of brackets. -/
theorem taken_of_sound {α : Type} {p : Parse α} {n d d' : Nat} {strict : Bool} {a : α}
    (sound : Sound AtEnd nested n strict d d' p) (proper : Proper AtEnd rest) (enough : rest.length ≤ n + 1)
    (taken : Gives p rest a rest') :
    ∃ seg, rest = seg ++ rest' ∧ Proper AtEnd rest' ∧ tracked nested d seg = some d' ∧ ∀ t ∈ seg, ¬AtEnd t := by
  have inner := sound rest proper enough
  rw [show p rest = .ok a rest' from taken] at inner
  obtain ⟨seg,rfl,proper',-,count⟩ := inner
  exact ⟨seg,rfl,proper',count,proper.front proper'.nonempty⟩

/-- Tokens that leave a count of brackets leave the scan over brackets at that count. -/
theorem skipBrackets_tracked {seg : List Token} : ∀ {d d' : Nat}, tracked nested d seg = some d' →
    (∀ t ∈ seg, ¬AtEnd t) → skipBrackets (d + 1) (seg ++ rest) = skipBrackets (d' + 1) rest := by
  induction seg with
  | nil =>
    intro d d' count _
    cases count
    rfl
  | cons t seg ih =>
    intro d d' count inside
    obtain ⟨here,later⟩ := List.forall_mem_cons.mp inside
    rw [tracked,Option.bind_eq_some_iff] at count
    obtain ⟨m,step,count⟩ := count
    rw [List.cons_append,skipBrackets,← ih count later]
    unfold nested nesting at step
    split at step
    · next opens =>
      cases step
      simp only [opens]
    · next closes =>
      split at step
      · cases step
      · cases step
        simp only [closes]
    · next noOpen noClose =>
      cases step
      split
      · next opens => exact absurd opens noOpen
      · next closes => exact absurd closes noClose
      · next mark => exact absurd mark here
      · rfl

/-- One round of the loop in `parsePlace` -/
private def placeRound (self : Parsers) (accessors : List PlaceAccessor) :
    Parse (Step (List PlaceAccessor) (List PlaceAccessor)) := do
  let found ← peek
  match found with
  | .dot => do
    let _ ← advance
    let (field,_) ← expectIdent self
    pure (.again (accessors ++ [.field field]))
  | .lBracket => do
    let _ ← advance
    let index ← self.expr
    let _ ← expect self .rBracket
    pure (.again (accessors ++ [.index index]))
  | _ => pure (.stop accessors)

/-- A round that comes to a value has passed over what the scan passes over. -/
theorem placeRound_ok {size n : Nat} (good : Good self size) {accessors : List PlaceAccessor}
    {step : Step (List PlaceAccessor) (List PlaceAccessor)} (proper : Proper AtEnd rest) (enough : rest.length ≤ size)
    (taken : Gives (placeRound self accessors) rest step rest') :
    (∃ more, step = .again more ∧ Proper AtEnd rest' ∧ rest'.length < rest.length ∧
      scanPlace (n + 1) rest = scanPlace n rest') ∨
    (∃ all, step = .stop all ∧ rest' = rest ∧ scanPlace (n + 1) rest = isAssignOp (kindOf rest)) := by
  unfold placeRound at taken
  obtain ⟨kind,same,peeked,taken⟩ := gives_bind.mp taken
  obtain ⟨found,rfl⟩ := gives_peek.mp peeked
  split at taken
  · obtain ⟨t,tail,opened,taken⟩ := gives_bind.mp taken
    obtain ⟨field,middle,named,ended⟩ := gives_bind.mp taken
    obtain ⟨rfl,rfl⟩ := gives_pure.mp ended
    obtain rfl := gives_advance.mp opened
    obtain ⟨u,name,rfl,here⟩ := expectIdent_ok named
    have first : t.kind = .dot := found
    refine .inl ⟨_,rfl,?_,by simp only [List.length_cons]; omega,?_⟩
    · exact (proper.tail (inside_of_kind first (by simp))).tail (inside_of_kind here (by simp))
    · simp only [scanPlace,kindOf,List.drop_succ_cons,List.drop_zero,first,here]
  · obtain ⟨t,tail,opened,taken⟩ := gives_bind.mp taken
    obtain ⟨index,middle,indexed,taken⟩ := gives_bind.mp taken
    obtain ⟨span,behind,closed,ended⟩ := gives_bind.mp taken
    obtain ⟨rfl,rfl⟩ := gives_pure.mp ended
    obtain rfl := gives_advance.mp opened
    obtain ⟨u,rfl,here⟩ := expect_ok closed
    have first : t.kind = .lBracket := found
    rw [List.length_cons] at enough
    obtain ⟨seg,rfl,proper',count,inside⟩ :=
      taken_of_sound (good.expr (n := size - 1) (d := 0) (by omega)) (proper.tail (inside_of_kind first (by simp)))
        (by omega) indexed
    refine .inl ⟨_,rfl,proper'.tail (inside_of_kind here (by simp)),?_,?_⟩
    · simp only [List.length_cons,List.length_append]
      omega
    · simp only [scanPlace,kindOf,List.drop_succ_cons,List.drop_zero,first,skipBrackets_tracked count inside]
      simp only [skipBrackets,here]
  · next noDot noBracket =>
    obtain ⟨rfl,rfl⟩ := gives_pure.mp taken
    refine .inr ⟨_,rfl,rfl,?_⟩
    rw [scanPlace,found]
    split
    · exact absurd rfl noDot
    · exact absurd rfl noBracket
    · rfl

/-- Where the loop over the parts of a place comes to its end, the scan has come to the same token. -/
theorem scanPlace_iterate {size rounds : Nat} (good : Good self size) : ∀ {n : Nat} {accessors all : List PlaceAccessor}
    {rest : List Token}, Proper AtEnd rest → rest.length ≤ n → rest.length ≤ size →
      Gives (iterate (placeRound self) rounds accessors) rest all rest' →
        scanPlace n rest = isAssignOp (kindOf rest') := by
  induction rounds with
  | zero =>
    intro n accessors all rest _ _ _ taken
    cases taken
  | succ rounds ih =>
    intro n accessors all rest proper rounds_left enough taken
    obtain ⟨n,rfl⟩ : ∃ m, n = m + 1 := Nat.exists_eq_succ_of_ne_zero (by
      have := List.length_pos_of_ne_nil proper.nonempty
      omega)
    rw [iterate] at taken
    obtain ⟨step,middle,round,later⟩ := gives_bind.mp taken
    rcases placeRound_ok (n := n) good proper enough round with ⟨more,rfl,proper',fewer,scan⟩ | ⟨last,rfl,rfl,scan⟩
    · rw [scan]
      exact ih proper' (by omega) (by omega) later
    · rw [scan,(gives_pure.mp later).2]

/-- Where a place is parsed, the scan ahead from its start answers whether an assignment's sign stands behind it. -/
theorem isAtAssign_place {size : Nat} (good : Good self size) {place : Place} (proper : Proper AtEnd rest)
    (enough : rest.length ≤ size + 1) (parsed : Gives (parsePlace self) rest place rest') :
    isAtAssign rest = isAssignOp (kindOf rest') := by
  unfold parsePlace at parsed
  obtain ⟨ident,middle,named,parsed⟩ := gives_bind.mp parsed
  obtain ⟨accessors,behind,looped,ended⟩ := gives_bind.mp parsed
  obtain rfl := (gives_pure.mp ended).2
  obtain ⟨t,name,rfl,here⟩ := expectIdent_ok named
  rw [List.length_cons] at enough
  have proper' := proper.tail (inside_of_kind here (by simp))
  rw [← scanPlace_iterate good proper' (Nat.le_succ _) (by omega) looped]
  simp only [isAtAssign,kindOf,here,List.drop_succ_cons,List.drop_zero,List.length_cons]

theorem isAssignOp_iff (kind : TokenKind) :
    isAssignOp kind = true ↔ kind = .eq ∨ (compoundOp kind).isSome = true := by
  cases kind <;> simp [isAssignOp,compoundOp]

private def increment : List Token :=
  [⟨.ident "x",⟨1,1⟩⟩,⟨.lBracket,⟨1,2⟩⟩,⟨.intLit 0,⟨1,3⟩⟩,⟨.rBracket,⟨1,4⟩⟩,⟨.plusEq,⟨1,6⟩⟩,⟨.intLit 1,⟨1,9⟩⟩,
    ⟨.semicolon,⟨1,10⟩⟩,⟨.eof,⟨1,11⟩⟩]

private def emptyIndex : List Token :=
  [⟨.ident "x",⟨1,1⟩⟩,⟨.lBracket,⟨1,2⟩⟩,⟨.rBracket,⟨1,3⟩⟩,⟨.eq,⟨1,5⟩⟩,⟨.intLit 1,⟨1,7⟩⟩,⟨.semicolon,⟨1,8⟩⟩,⟨.eof,⟨1,9⟩⟩]

end Oscan.Syntax
