import Oscan.Library.Parsing

/-! Grammars over tokens, as data: the right-hand sides of their productions stand for values, and may restrict what
follows a phrase. A parser decides a right-hand side when it comes to exactly the values of its phrases. -/
namespace Oscan.Library.Grammar
open Parsing

/-- The right-hand side of a production; `Val` is what the phrases of each nonterminal stand for. -/
inductive Rule (τ : Type) {σ : Type} (Val : σ → Type) : Type → Type 1 where
  | pure {α : Type} (a : α) : Rule τ Val α
  | bind {α β : Type} (first : Rule τ Val α) (next : α → Rule τ Val β) : Rule τ Val β
  | token {α : Type} (reads : τ → Option α) : Rule τ Val α
  | call (s : σ) : Rule τ Val (Val s)
  | ahead {α : Type} (sees : List τ → Option α) : Rule τ Val α
  | either {α : Type} (left right : Rule τ Val α) : Rule τ Val α
  | many {α : Type} (item : Rule τ Val α) : Rule τ Val (List α)

variable {τ σ ε α β γ : Type} {Val : σ → Type}

instance : Monad (Rule τ Val) where
  pure := .pure
  bind := .bind

/-- Any of these -/
def Rule.oneOf (first : Rule τ Val α) : List (Rule τ Val α) → Rule τ Val α
  | [] => first
  | second :: rest => .either first (Rule.oneOf second rest)

section
variable (ends : τ → Prop) (rules : (s : σ) → Rule τ Val (Val s))

/-- The tokens of a phrase, the tokens behind it and what it stands for; the mark at the end is in no phrase. -/
inductive Derives : {α : Type} → Rule τ Val α → List τ → List τ → α → Prop where
  | pure {α : Type} {a : α} {after : List τ} : Derives (.pure a) [] after a
  | bind {α β : Type} {first : Rule τ Val α} {next : α → Rule τ Val β} {front back after : List τ} {a : α} {b : β} :
      Derives first front (back ++ after) a → Derives (next a) back after b →
        Derives (.bind first next) (front ++ back) after b
  | token {α : Type} {reads : τ → Option α} {t : τ} {after : List τ} {a : α} :
      reads t = some a → ¬ends t → Derives (.token reads) [t] after a
  | call {s : σ} {seg after : List τ} {v : Val s} : Derives (rules s) seg after v → Derives (.call s) seg after v
  | ahead {α : Type} {sees : List τ → Option α} {after : List τ} {a : α} : sees after = some a → Derives (.ahead sees) [] after a
  | left {α : Type} {left right : Rule τ Val α} {seg after : List τ} {a : α} :
      Derives left seg after a → Derives (.either left right) seg after a
  | right {α : Type} {left right : Rule τ Val α} {seg after : List τ} {a : α} :
      Derives right seg after a → Derives (.either left right) seg after a
  | done {α : Type} {item : Rule τ Val α} {after : List τ} : Derives (.many item) [] after []
  | more {α : Type} {item : Rule τ Val α} {front back after : List τ} {a : α} {rest : List α} :
      Derives item front (back ++ after) a → Derives (.many item) back after rest →
        Derives (.many item) (front ++ back) after (a :: rest)

end

variable {ends : τ → Prop} {rules : (s : σ) → Rule τ Val (Val s)}

theorem Derives.inside {r : Rule τ Val α} {seg after : List τ} {a : α} (derived : Derives ends rules r seg after a) :
    ∀ t ∈ seg, ¬ends t := by
  induction derived with
  | pure | ahead | done => simp
  | token _ inside => simpa using inside
  | call _ ih | left _ ih | right _ ih => exact ih
  | bind _ _ first second | more _ _ first second =>
    intro t member
    rcases List.mem_append.mp member with here | there
    · exact first t here
    · exact second t there

/-- What a right-hand side says of a phrase, with the derivations of its parts -/
def Says (ends : τ → Prop) (rules : (s : σ) → Rule τ Val (Val s)) :
    {α : Type} → Rule τ Val α → List τ → List τ → α → Prop
  | _,.pure value,seg,_,a => seg = [] ∧ a = value
  | _,.bind first next,seg,after,b => ∃ front back a, seg = front ++ back ∧
      Derives ends rules first front (back ++ after) a ∧ Derives ends rules (next a) back after b
  | _,.token reads,seg,_,a => ∃ t, seg = [t] ∧ reads t = some a ∧ ¬ends t
  | _,.call s,seg,after,v => Derives ends rules (rules s) seg after v
  | _,.ahead sees,seg,after,a => seg = [] ∧ sees after = some a
  | _,.either left right,seg,after,a => Derives ends rules left seg after a ∨ Derives ends rules right seg after a
  | _,.many item,seg,after,values => (seg = [] ∧ values = []) ∨
      ∃ front back a rest, seg = front ++ back ∧ values = a :: rest ∧ Derives ends rules item front (back ++ after) a ∧
        Derives ends rules (.many item) back after rest

theorem Derives.says {r : Rule τ Val α} {seg after : List τ} {a : α} (derived : Derives ends rules r seg after a) :
    Says ends rules r seg after a := by
  cases derived with
  | pure | done => simp [Says]
  | bind first second => exact ⟨_,_,_,rfl,first,second⟩
  | token read inside => exact ⟨_,rfl,read,inside⟩
  | call inner => exact inner
  | ahead seen => exact ⟨rfl,seen⟩
  | left inner => exact .inl inner
  | right inner => exact .inr inner
  | more first later => exact .inr ⟨_,_,_,_,rfl,rfl,first,later⟩

section
variable {seg after : List τ} {a : α}

theorem derives_pure {value : α} :
    Derives ends rules (Pure.pure value : Rule τ Val α) seg after a ↔ seg = [] ∧ a = value := by
  constructor
  · exact fun derived => derived.says
  · rintro ⟨rfl,rfl⟩
    exact .pure

theorem derives_bind {first : Rule τ Val α} {next : α → Rule τ Val β} {b : β} :
    Derives ends rules (first >>= next) seg after b ↔ ∃ front back a, seg = front ++ back ∧
      Derives ends rules first front (back ++ after) a ∧ Derives ends rules (next a) back after b := by
  constructor
  · exact fun derived => derived.says
  · rintro ⟨front,back,a,rfl,first,second⟩
    exact .bind first second

theorem derives_token {reads : τ → Option α} : Derives ends rules (.token reads) seg after a ↔
    ∃ t, seg = [t] ∧ reads t = some a ∧ ¬ends t := by
  constructor
  · exact fun derived => derived.says
  · rintro ⟨t,rfl,read,inside⟩
    exact .token read inside

theorem derives_call {s : σ} {v : Val s} :
    Derives ends rules (.call s) seg after v ↔ Derives ends rules (rules s) seg after v :=
  ⟨fun derived => derived.says,.call⟩

theorem derives_ahead {sees : List τ → Option α} :
    Derives ends rules (.ahead sees) seg after a ↔ seg = [] ∧ sees after = some a := by
  constructor
  · exact fun derived => derived.says
  · rintro ⟨rfl,seen⟩
    exact .ahead seen

theorem derives_either {left right : Rule τ Val α} : Derives ends rules (.either left right) seg after a ↔
    Derives ends rules left seg after a ∨ Derives ends rules right seg after a :=
  ⟨fun derived => derived.says,fun either => either.elim .left .right⟩

theorem derives_many {item : Rule τ Val α} {values : List α} : Derives ends rules (.many item) seg after values ↔
    (seg = [] ∧ values = []) ∨ ∃ front back a rest, seg = front ++ back ∧ values = a :: rest ∧
      Derives ends rules item front (back ++ after) a ∧ Derives ends rules (.many item) back after rest := by
  constructor
  · exact fun derived => derived.says
  · rintro (⟨rfl,rfl⟩ | ⟨front,back,a,rest,rfl,rfl,first,later⟩)
    · exact .done
    · exact .more first later

end

/-! Parsers that decide a right-hand side -/

section
variable (ends) (rules)

/-- From these tokens, the parser comes to a value exactly where they begin with a phrase for it. -/
def DecidesAt (p : Parser τ ε α) (r : Rule τ Val α) (rest : List τ) : Prop :=
  ∀ a after, Gives p rest a after ↔ ∃ seg, rest = seg ++ after ∧ Derives ends rules r seg after a

def Decides (size : Nat) (p : Parser τ ε α) (r : Rule τ Val α) : Prop :=
  ∀ rest, Proper ends rest → rest.length ≤ size → DecidesAt ends rules p r rest

/-- No phrase begins here. -/
def Excludes (r : Rule τ Val α) (rest : List τ) : Prop :=
  ∀ seg after a, rest = seg ++ after → ¬Derives ends rules r seg after a

def Takes (r : Rule τ Val α) : Prop := ∀ seg after a, Derives ends rules r seg after a → seg ≠ []

end

theorem Proper.behind {seg after : List τ} (proper : Proper ends (seg ++ after)) (inside : ∀ t ∈ seg, ¬ends t) :
    Proper ends after := by
  induction seg with
  | nil => exact proper
  | cons t seg ih =>
    obtain ⟨here,later⟩ := List.forall_mem_cons.mp inside
    exact ih (proper.tail here) later

section
variable {p : Parser τ ε α} {r one other : Rule τ Val α} {f : α → Parser τ ε β} {g : α → Rule τ Val β}
  {rest : List τ} {size smaller : Nat}

theorem DecidesAt.pure {a : α} : DecidesAt ends rules (Pure.pure a : Parser τ ε α) (Pure.pure a : Rule τ Val α) rest := by
  intro b after
  rw [gives_pure]
  constructor
  · rintro ⟨rfl,rfl⟩
    exact ⟨[],rfl,.pure⟩
  · rintro ⟨seg,rfl,derived⟩
    obtain ⟨rfl,rfl⟩ := derives_pure.mp derived
    exact ⟨rfl,rfl⟩

theorem DecidesAt.fail {e : ε} (none : Excludes ends rules r rest) :
    DecidesAt ends rules (Parsing.fail e : Parser τ ε α) r rest := by
  intro a after
  constructor
  · intro taken
    exact absurd taken not_gives_fail
  · rintro ⟨seg,split,derived⟩
    exact absurd derived (none seg after a split)

theorem DecidesAt.bind (first : DecidesAt ends rules p r rest)
    (second : ∀ a seg after, rest = seg ++ after → Derives ends rules r seg after a →
      DecidesAt ends rules (f a) (g a) after) : DecidesAt ends rules (p >>= f) (r >>= g) rest := by
  intro b after
  rw [gives_bind]
  constructor
  · rintro ⟨a,middle,taken,later⟩
    obtain ⟨front,split,derived⟩ := (first a middle).mp taken
    obtain ⟨back,rfl,derived'⟩ := (second a front middle split derived b after).mp later
    exact ⟨front ++ back,by rw [split,List.append_assoc],derives_bind.mpr ⟨front,back,a,rfl,derived,derived'⟩⟩
  · rintro ⟨seg,split,derived⟩
    obtain ⟨front,back,a,rfl,derived,derived'⟩ := derives_bind.mp derived
    rw [List.append_assoc] at split
    exact ⟨a,back ++ after,(first a _).mpr ⟨front,split,derived⟩,
      (second a front _ split derived b after).mpr ⟨back,rfl,derived'⟩⟩

theorem DecidesAt.parser {p' : Parser τ ε α} (same : p rest = p' rest) (inner : DecidesAt ends rules p' r rest) :
    DecidesAt ends rules p r rest := by
  intro a after
  rw [Gives,same]
  exact inner a after

theorem DecidesAt.look {f : List τ → Parser τ ε α} (inner : DecidesAt ends rules (f rest) r rest) :
    DecidesAt ends rules (Parsing.look >>= f) r rest := inner

theorem DecidesAt.left (inner : DecidesAt ends rules p one rest) (none : Excludes ends rules other rest) :
    DecidesAt ends rules p (.either one other) rest := by
  intro a after
  rw [inner a after]
  constructor
  · rintro ⟨seg,split,derived⟩
    exact ⟨seg,split,.left derived⟩
  · rintro ⟨seg,split,derived⟩
    rcases derives_either.mp derived with derived | derived
    · exact ⟨seg,split,derived⟩
    · exact absurd derived (none seg after a split)

theorem DecidesAt.right (inner : DecidesAt ends rules p other rest) (none : Excludes ends rules one rest) :
    DecidesAt ends rules p (.either one other) rest := by
  intro a after
  rw [inner a after]
  constructor
  · rintro ⟨seg,split,derived⟩
    exact ⟨seg,split,.right derived⟩
  · rintro ⟨seg,split,derived⟩
    rcases derives_either.mp derived with derived | derived
    · exact absurd derived (none seg after a split)
    · exact ⟨seg,split,derived⟩

theorem DecidesAt.call {s : σ} {p : Parser τ ε (Val s)} (inner : DecidesAt ends rules p (rules s) rest) :
    DecidesAt ends rules p (.call s) rest := by
  intro v after
  rw [inner v after]
  simp only [derives_call]

/-- A token that is there is taken. -/
theorem DecidesAt.advance {t : τ} {reads : τ → Option α} {a : α} {p : Parser τ ε β} (read : reads t = some a)
    (inside : ¬ends t) (later : DecidesAt ends rules p (g a) rest) :
    DecidesAt ends rules (Parsing.advance >>= fun _ => p) (.token reads >>= g) (t :: rest) := by
  intro b after
  rw [gives_bind]
  constructor
  · rintro ⟨u,middle,taken,ended⟩
    obtain ⟨rfl,rfl⟩ := List.cons.inj (gives_advance.mp taken)
    obtain ⟨seg,rfl,derived⟩ := (later b after).mp ended
    exact ⟨t :: seg,rfl,derives_bind.mpr ⟨[t],seg,a,rfl,.token read inside,derived⟩⟩
  · rintro ⟨seg,split,derived⟩
    obtain ⟨front,back,a',rfl,first,derived⟩ := derives_bind.mp derived
    obtain ⟨u,rfl,read',-⟩ := derives_token.mp first
    obtain ⟨rfl,rfl⟩ := List.cons.inj split
    obtain rfl : a = a' := Option.some.inj (read.symm.trans read')
    exact ⟨t,back ++ after,gives_advance.mpr rfl,(later b after).mpr ⟨back,rfl,derived⟩⟩

/-- A parser of one token -/
theorem DecidesAt.token {reads : τ → Option α} (taken : ∀ t tail a, rest = t :: tail → reads t = some a →
      ¬ends t ∧ p rest = .ok a tail) (other : (∀ t tail, rest = t :: tail → reads t = none) → ∀ a after, ¬Gives p rest a after) :
    DecidesAt ends rules p (.token reads) rest := by
  intro a after
  constructor
  · intro given
    by_cases read : ∃ t tail b, rest = t :: tail ∧ reads t = some b
    · obtain ⟨t,tail,b,split,read⟩ := read
      obtain ⟨inside,reply⟩ := taken t tail b split read
      obtain ⟨rfl,rfl⟩ := (Reply.ok.injEq _ _ _ _).mp (reply.symm.trans given)
      exact ⟨[t],split,.token read inside⟩
    · refine absurd given (other ?_ a after)
      intro t tail split
      cases found : reads t with
      | none => rfl
      | some b => exact absurd ⟨t,tail,b,split,found⟩ read
  · rintro ⟨seg,split,derived⟩
    obtain ⟨t,rfl,read,-⟩ := derives_token.mp derived
    exact (taken t after a split read).2

theorem DecidesAt.ahead {sees : List τ → Option α} {a : α} {p : Parser τ ε β} (seen : sees rest = some a)
    (inner : DecidesAt ends rules p (g a) rest) : DecidesAt ends rules p (.ahead sees >>= g) rest := by
  intro b after
  rw [inner b after]
  constructor
  · rintro ⟨seg,rfl,derived⟩
    exact ⟨seg,rfl,derives_bind.mpr ⟨[],seg,a,rfl,.ahead seen,derived⟩⟩
  · rintro ⟨seg,rfl,derived⟩
    obtain ⟨front,back,a',rfl,first,later⟩ := derives_bind.mp derived
    obtain ⟨rfl,seen'⟩ := derives_ahead.mp first
    obtain rfl : a = a' := Option.some.inj (seen.symm.trans seen')
    exact ⟨back,rfl,later⟩

theorem Excludes.ahead {sees : List τ → Option α} (other : sees rest = none) :
    Excludes ends rules (.ahead sees : Rule τ Val α) rest := by
  rintro seg after a rfl derived
  obtain ⟨rfl,seen⟩ := derives_ahead.mp derived
  rw [List.nil_append] at other
  rw [other] at seen
  cases seen

theorem Excludes.token {reads : τ → Option α} (other : ∀ t tail, rest = t :: tail → reads t = none) :
    Excludes ends rules (.token reads : Rule τ Val α) rest := by
  rintro seg after a rfl derived
  obtain ⟨t,rfl,read,-⟩ := derives_token.mp derived
  rw [other t after rfl] at read
  cases read

/-- Behind a token, nothing that is asked for begins. -/
theorem Excludes.then {t : τ} {reads : τ → Option α} (later : ∀ a, Excludes ends rules (g a) rest) :
    Excludes ends rules (.token reads >>= g) (t :: rest) := by
  intro seg after b split derived
  obtain ⟨front,back,a,rfl,first,second⟩ := derives_bind.mp derived
  obtain ⟨u,rfl,-⟩ := derives_token.mp first
  obtain ⟨rfl,rfl⟩ := List.cons.inj split
  exact later a back after b rfl second

theorem Excludes.bind (first : Excludes ends rules r rest) : Excludes ends rules (r >>= g) rest := by
  rintro seg after b rfl derived
  obtain ⟨front,back,a,rfl,derived,-⟩ := derives_bind.mp derived
  exact first front (back ++ after) a (List.append_assoc _ _ _) derived

theorem Excludes.either (first : Excludes ends rules one rest) (second : Excludes ends rules other rest) :
    Excludes ends rules (.either one other) rest := by
  intro seg after a split derived
  rcases derives_either.mp derived with derived | derived
  · exact first seg after a split derived
  · exact second seg after a split derived

theorem Decides.at (decides : Decides ends rules size p r) (proper : Proper ends rest) (enough : rest.length ≤ size) :
    DecidesAt ends rules p r rest := decides rest proper enough

theorem Decides.mono (decides : Decides ends rules size p r) (le : smaller ≤ size) : Decides ends rules smaller p r :=
  fun rest proper enough => decides rest proper (by omega)

theorem Decides.bind (first : Decides ends rules size p r) (second : ∀ a, Decides ends rules size (f a) (g a)) :
    Decides ends rules size (p >>= f) (r >>= g) := by
  intro rest proper enough
  apply (first.at proper enough).bind
  rintro a seg after rfl derived
  rw [List.length_append] at enough
  exact second a after (Proper.behind proper derived.inside) (by omega)

/-- Behind a phrase that is not empty, fewer tokens are left. -/
theorem Decides.then (first : Decides ends rules (size + 1) p r) (takes : Takes ends rules r)
    (second : ∀ a, Decides ends rules size (f a) (g a)) : Decides ends rules (size + 1) (p >>= f) (r >>= g) := by
  intro rest proper enough
  apply (first.at proper enough).bind
  rintro a seg after rfl derived
  have taken := List.length_pos_of_ne_nil (takes seg after a derived)
  rw [List.length_append] at enough
  exact second a after (Proper.behind proper derived.inside) (by omega)

theorem Takes.token {reads : τ → Option α} : Takes ends rules (.token reads : Rule τ Val α) := by
  intro seg after a derived
  obtain ⟨t,rfl,-⟩ := derives_token.mp derived
  exact List.cons_ne_nil t []

theorem Takes.bind (takes : Takes ends rules r) : Takes ends rules (r >>= g) := by
  intro seg after b derived
  obtain ⟨front,back,a,rfl,derived,-⟩ := derives_bind.mp derived
  intro empty
  exact takes front _ a derived (List.append_eq_nil_iff.mp empty).1

theorem Takes.either (first : Takes ends rules one) (second : Takes ends rules other) :
    Takes ends rules (.either one other) := by
  intro seg after a derived
  rcases derives_either.mp derived with derived | derived
  · exact first seg after a derived
  · exact second seg after a derived

end

section
variable {r first chosen : Rule τ Val α} {others : List (Rule τ Val α)} {p : Parser τ ε α} {rest seg after : List τ} {a : α}

theorem derives_oneOf : Derives ends rules (.oneOf first others) seg after a ↔
    ∃ r ∈ first :: others, Derives ends rules r seg after a := by
  induction others generalizing first with
  | nil => simp [Rule.oneOf]
  | cons second others ih =>
    rw [Rule.oneOf,derives_either,ih]
    simp only [List.mem_cons,exists_eq_or_imp]

theorem derives_assoc {f : α → Rule τ Val β} {g : β → Rule τ Val γ} {c : γ} :
    Derives ends rules (r >>= f >>= g) seg after c ↔ Derives ends rules (r >>= fun a => f a >>= g) seg after c := by
  constructor
  · intro derived
    obtain ⟨both,back,b,rfl,derived,last⟩ := derives_bind.mp derived
    obtain ⟨front,middle,a,rfl,first,second⟩ := derives_bind.mp derived
    rw [List.append_assoc]
    rw [← List.append_assoc] at first
    exact .bind first (.bind second last)
  · intro derived
    obtain ⟨front,both,a,rfl,first,derived⟩ := derives_bind.mp derived
    obtain ⟨middle,back,b,rfl,second,last⟩ := derives_bind.mp derived
    rw [← List.append_assoc]
    rw [List.append_assoc] at first
    exact .bind (.bind first second) last

theorem derives_distrib {one other : Rule τ Val α} {g : α → Rule τ Val β} {b : β} :
    Derives ends rules (.either one other >>= g) seg after b ↔
      Derives ends rules (.either (one >>= g) (other >>= g)) seg after b := by
  simp only [derives_either,derives_bind]
  constructor
  · rintro ⟨front,back,a,rfl,first | first,second⟩
    · exact .inl ⟨front,back,a,rfl,first,second⟩
    · exact .inr ⟨front,back,a,rfl,first,second⟩
  · rintro (⟨front,back,a,rfl,first,second⟩ | ⟨front,back,a,rfl,first,second⟩)
    · exact ⟨front,back,a,rfl,.inl first,second⟩
    · exact ⟨front,back,a,rfl,.inr first,second⟩

theorem DecidesAt.congr {r' : Rule τ Val α} (same : ∀ seg after a, Derives ends rules r seg after a ↔
    Derives ends rules r' seg after a) (inner : DecidesAt ends rules p r rest) : DecidesAt ends rules p r' rest := by
  intro a after
  rw [inner a after]
  simp only [same]

theorem DecidesAt.assoc {f : α → Rule τ Val β} {g : β → Rule τ Val γ} {p : Parser τ ε γ}
    (inner : DecidesAt ends rules p (r >>= fun a => f a >>= g) rest) : DecidesAt ends rules p (r >>= f >>= g) rest :=
  inner.congr fun _ _ _ => derives_assoc.symm

theorem DecidesAt.distrib {one other : Rule τ Val α} {g : α → Rule τ Val β} {p : Parser τ ε β}
    (inner : DecidesAt ends rules p (.either (one >>= g) (other >>= g)) rest) :
    DecidesAt ends rules p (.either one other >>= g) rest :=
  inner.congr fun _ _ _ => derives_distrib.symm

/-- One of the alternatives is decided, where no other begins. -/
theorem DecidesAt.oneOf (inner : DecidesAt ends rules p chosen rest) (member : chosen ∈ first :: others)
    (none : ∀ r ∈ first :: others, r = chosen ∨ Excludes ends rules r rest) :
    DecidesAt ends rules p (.oneOf first others) rest := by
  intro a after
  rw [inner a after]
  constructor
  · rintro ⟨seg,split,derived⟩
    exact ⟨seg,split,derives_oneOf.mpr ⟨chosen,member,derived⟩⟩
  · rintro ⟨seg,split,derived⟩
    obtain ⟨r,member,derived⟩ := derives_oneOf.mp derived
    rcases none r member with rfl | excluded
    · exact ⟨seg,split,derived⟩
    · exact absurd derived (excluded seg after a split)

end

/-! Loops -/

section
variable {δ : Type} {item : Rule τ Val γ} {tail : Rule τ Val δ} {step : α → γ → α} {last : α → δ → β}

/-- As many items as there are, gathered from the left, and what stands behind them -/
def Rule.loop (item : Rule τ Val γ) (tail : Rule τ Val δ) (step : α → γ → α) (last : α → δ → β) (a : α) :
    Rule τ Val β := do
  let items ← .many item
  let d ← tail
  return last (items.foldl step a) d

theorem derives_loop {a : α} {seg after : List τ} {b : β} :
    Derives ends rules (.loop item tail step last a) seg after b ↔
      (∃ d, Derives ends rules tail seg after d ∧ b = last a d) ∨
      (∃ front back c, seg = front ++ back ∧ Derives ends rules item front (back ++ after) c ∧
        Derives ends rules (.loop item tail step last (step a c)) back after b) := by
  have ended {back : List τ} {items : List γ} {start : α} :
      Derives ends rules (do let d ← tail; return last (items.foldl step start) d) back after b ↔
        ∃ d, Derives ends rules tail back after d ∧ b = last (items.foldl step start) d := by
    rw [derives_bind]
    constructor
    · rintro ⟨front,back,d,rfl,derived,finished⟩
      obtain ⟨rfl,rfl⟩ := derives_pure.mp finished
      rw [List.nil_append] at derived
      rw [List.append_nil]
      exact ⟨d,derived,rfl⟩
    · rintro ⟨d,derived,rfl⟩
      exact ⟨back,[],d,(List.append_nil _).symm,derived,derives_pure.mpr ⟨rfl,rfl⟩⟩
  unfold Rule.loop
  rw [derives_bind]
  simp only [ended]
  constructor
  · rintro ⟨front,back,items,rfl,gathered,d,derived,rfl⟩
    rcases derives_many.mp gathered with ⟨rfl,rfl⟩ | ⟨first,more,c,items,rfl,rfl,found,later⟩
    · exact .inl ⟨d,derived,rfl⟩
    · refine .inr ⟨first,more ++ back,c,List.append_assoc _ _ _,?_,?_⟩
      · rw [List.append_assoc]
        exact found
      · exact derives_bind.mpr ⟨more,back,items,rfl,later,ended.mpr ⟨d,derived,rfl⟩⟩
  · rintro (⟨d,derived,rfl⟩ | ⟨first,back,c,rfl,found,later⟩)
    · exact ⟨[],seg,[],rfl,.done,d,derived,rfl⟩
    · obtain ⟨more,back,items,rfl,gathered,finished⟩ := derives_bind.mp later
      obtain ⟨d,derived,rfl⟩ := ended.mp finished
      refine ⟨first ++ more,back,c :: items,(List.append_assoc _ _ _).symm,?_,d,derived,rfl⟩
      rw [List.append_assoc] at found
      exact .more found gathered

/-- A loop gathers items when each round decides between an item and the end. -/
theorem Decides.loop {body : α → Parser τ ε (Step α β)} {size rounds : Nat}
    (round : ∀ a, Decides ends rules size (body a)
      (.either (do let c ← item; return .again (step a c)) (do let d ← tail; return .stop (last a d))))
    (takes : Takes ends rules item) (enough : size < rounds) (a : α) :
    Decides ends rules size (iterate body rounds a) (.loop item tail step last a) := by
  suffices from_here : ∀ {rounds : Nat} {a : α} {rest : List τ}, Proper ends rest → rest.length ≤ size →
      rest.length < rounds → DecidesAt ends rules (iterate body rounds a) (.loop item tail step last a) rest by
    intro rest proper bound
    exact from_here proper bound (by omega)
  intro rounds
  induction rounds with
  | zero =>
    intro a rest _ _ no
    exact absurd no (Nat.not_lt_zero _)
  | succ rounds ih =>
    intro a rest proper bound left b after
    have shorter {front back : List τ} {c : γ} (split : rest = front ++ back)
        (found : Derives ends rules item front back c) :
        DecidesAt ends rules (iterate body rounds (step a c)) (.loop item tail step last (step a c)) back := by
      subst split
      have taken := List.length_pos_of_ne_nil (takes front back c found)
      rw [List.length_append] at bound left
      exact ih (Proper.behind proper found.inside) (by omega) (by omega)
    rw [iterate,gives_bind]
    constructor
    · rintro ⟨next,middle,taken,later⟩
      obtain ⟨seg,split,derived⟩ := (round a rest proper bound next middle).mp taken
      rcases derives_either.mp derived with derived | derived
      · obtain ⟨front,back,c,rfl,found,finished⟩ := derives_bind.mp derived
        obtain ⟨rfl,rfl⟩ := derives_pure.mp finished
        rw [List.append_nil] at split
        rw [List.nil_append] at found
        obtain ⟨back,rfl,more⟩ := (shorter split found b after).mp later
        exact ⟨front ++ back,by rw [split,List.append_assoc],derives_loop.mpr (.inr ⟨front,back,c,rfl,found,more⟩)⟩
      · obtain ⟨front,back,d,rfl,found,finished⟩ := derives_bind.mp derived
        obtain ⟨rfl,rfl⟩ := derives_pure.mp finished
        rw [List.append_nil] at split
        rw [List.nil_append] at found
        obtain ⟨rfl,rfl⟩ := gives_pure.mp later
        exact ⟨front,split,derives_loop.mpr (.inl ⟨d,found,rfl⟩)⟩
    · rintro ⟨seg,split,derived⟩
      rcases derives_loop.mp derived with ⟨d,found,rfl⟩ | ⟨front,back,c,rfl,found,later⟩
      · refine ⟨.stop (last a d),after,(round a rest proper bound _ _).mpr ⟨seg,split,?_⟩,gives_pure.mpr ⟨rfl,rfl⟩⟩
        exact .right (derives_bind.mpr ⟨seg,[],d,(List.append_nil _).symm,found,derives_pure.mpr ⟨rfl,rfl⟩⟩)
      · rw [List.append_assoc] at split
        refine ⟨.again (step a c),back ++ after,(round a rest proper bound _ _).mpr ⟨front,split,?_⟩,
          (shorter split found b after).mpr ⟨back,rfl,later⟩⟩
        exact .left (derives_bind.mpr ⟨front,[],c,(List.append_nil _).symm,found,derives_pure.mpr ⟨rfl,rfl⟩⟩)

end

end Oscan.Library.Grammar
