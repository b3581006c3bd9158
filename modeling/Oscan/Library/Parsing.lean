import Mathlib.Data.List.Basic

/-! Recursive descent over a list of tokens, with recursion and loops that count their rounds. -/
namespace Oscan.Library.Parsing

/-- The last two are a read past the end of the tokens, and a recursion or a loop that ran out of rounds. -/
inductive Reply (τ ε α : Type) where
  | ok (value : α) (rest : List τ)
  | error (e : ε)
  | outOfBounds
  | unfinished

/-- The state is what is left of the tokens. -/
def Parser (τ ε α : Type) : Type := List τ → Reply τ ε α

variable {τ ε α β γ : Type}

def Reply.andThen (reply : Reply τ ε α) (f : α → Parser τ ε β) : Reply τ ε β :=
  match reply with
  | .ok a rest => f a rest
  | .error e => .error e
  | .outOfBounds => .outOfBounds
  | .unfinished => .unfinished

instance : Monad (Parser τ ε) where
  pure a := fun rest => .ok a rest
  bind p f := fun rest => (p rest).andThen f

def fail (e : ε) : Parser τ ε α := fun _ => .error e

def unfinished : Parser τ ε α := fun _ => .unfinished

/-- Takes a token, with no check that there is one. -/
def advance : Parser τ ε τ := fun
  | t :: rest => .ok t rest
  | [] => .outOfBounds

def look : Parser τ ε (List τ) := fun rest => .ok rest rest

inductive Step (α β : Type) where
  | again (a : α)
  | stop (b : β)

/-- A loop -/
def iterate (body : α → Parser τ ε (Step α β)) : Nat → α → Parser τ ε β
  | 0,_ => unfinished
  | rounds + 1,a => do
    match ← body a with
    | .again a => iterate body rounds a
    | .stop b => pure b

theorem pure_apply (a : α) (rest : List τ) : (pure a : Parser τ ε α) rest = .ok a rest := rfl

theorem bind_apply (p : Parser τ ε α) (f : α → Parser τ ε β) (rest : List τ) :
    (p >>= f) rest = (p rest).andThen f := rfl

/-- The last round of a loop that has come to a value -/
theorem iterate_last {body : α → Parser τ ε (Step α β)} {rounds : Nat} : ∀ {a : α} {rest rest' : List τ} {b : β},
    iterate body rounds a rest = .ok b rest' → ∃ a' rest'', body a' rest'' = .ok (.stop b) rest' := by
  induction rounds with
  | zero =>
    intro a rest rest' b ended
    cases ended
  | succ rounds ih =>
    intro a rest rest' b ended
    rw [iterate,bind_apply] at ended
    cases reply : body a rest with
    | ok step next =>
      rw [reply] at ended
      cases step with
      | again a' => exact ih ended
      | stop b' =>
        cases ended
        exact ⟨a,rest,reply⟩
    | error e =>
      rw [reply] at ended
      cases ended
    | outOfBounds =>
      rw [reply] at ended
      cases ended
    | unfinished =>
      rw [reply] at ended
      cases ended

/-- The parser comes to a value and leaves the tokens. -/
def Gives (p : Parser τ ε α) (rest : List τ) (a : α) (rest' : List τ) : Prop := p rest = .ok a rest'

section
variable {p : Parser τ ε α} {rest rest' : List τ} {a : α} {b : β}

theorem gives_pure {value : α} : Gives (pure value : Parser τ ε α) rest a rest' ↔ value = a ∧ rest = rest' := by
  rw [Gives,pure_apply,Reply.ok.injEq]

theorem gives_bind {f : α → Parser τ ε β} :
    Gives (p >>= f) rest b rest' ↔ ∃ a middle, Gives p rest a middle ∧ Gives (f a) middle b rest' := by
  unfold Gives
  rw [bind_apply]
  constructor
  · intro ended
    cases reply : p rest with
    | ok a middle =>
      rw [reply] at ended
      exact ⟨a,middle,rfl,ended⟩
    | error e | outOfBounds | unfinished =>
      rw [reply] at ended
      cases ended
  · rintro ⟨a,middle,first,second⟩
    rw [first]
    exact second

theorem gives_look {f : List τ → Parser τ ε β} :
    Gives (look >>= f) rest b rest' ↔ Gives (f rest) rest b rest' := Iff.rfl

theorem gives_advance {t : τ} : Gives (advance : Parser τ ε τ) rest t rest' ↔ rest = t :: rest' := by
  cases rest with
  | nil => simp [Gives,advance]
  | cons u tail => simp [Gives,advance]

theorem not_gives_fail {e : ε} : ¬Gives (fail e : Parser τ ε α) rest a rest' := by
  intro ended
  cases ended

end

section
variable (ends : τ → Prop) (track : Nat → τ → Option Nat)

/-- A list of tokens with one mark at its end -/
def Proper (rest : List τ) : Prop := ∃ body e, rest = body ++ [e] ∧ ends e ∧ ∀ t ∈ body, ¬ends t

/-- A count that is kept over tokens -/
def tracked : Nat → List τ → Option Nat
  | d,[] => some d
  | d,t :: ts => (track d t).bind fun d => tracked d ts

/-- A parser that stays inside of the tokens, ends within as many rounds as tokens are left, and takes the count from
`d` to `d'` over what it consumes, which is a token at least when it is strict. -/
def SoundAt (size : Nat) (strict : Bool) (d d' : Nat) (p : Parser τ ε α) (rest : List τ) : Prop :=
  Proper ends rest → rest.length ≤ size + 1 →
    match p rest with
    | .ok _ rest' => ∃ seg, rest = seg ++ rest' ∧ Proper ends rest' ∧ (strict = true → seg ≠ []) ∧
        tracked track d seg = some d'
    | .error _ => True
    | .outOfBounds | .unfinished => False

def Sound (size : Nat) (strict : Bool) (d d' : Nat) (p : Parser τ ε α) : Prop :=
  ∀ rest, SoundAt ends track size strict d d' p rest

end

variable {ends : τ → Prop} {track : Nat → τ → Option Nat} {size d m d' : Nat} {strict : Bool}

theorem tracked_append (d : Nat) (first second : List τ) :
    tracked track d (first ++ second) = (tracked track d first).bind fun d => tracked track d second := by
  induction first generalizing d with
  | nil => rfl
  | cons t ts ih =>
    rw [List.cons_append,tracked,tracked]
    cases track d t with
    | none => rfl
    | some d => exact ih d

theorem Proper.nonempty {rest : List τ} (proper : Proper ends rest) : rest ≠ [] := by
  obtain ⟨body,e,rfl,_⟩ := proper
  exact fun no => by simp at no

theorem Proper.tail {t : τ} {rest : List τ} (proper : Proper ends (t :: rest)) (inside : ¬ends t) : Proper ends rest := by
  obtain ⟨body,e,same,mark,only⟩ := proper
  cases body with
  | nil =>
    cases same
    exact absurd mark inside
  | cons b body =>
    cases same
    exact ⟨body,e,rfl,mark,fun t member => only t (List.mem_cons_of_mem _ member)⟩

/-- What stands before a part that is not empty holds no end. -/
theorem Proper.front {seg rest : List τ} (proper : Proper ends (seg ++ rest)) (left : rest ≠ []) : ∀ t ∈ seg, ¬ends t := by
  obtain ⟨body,e,same,_,only⟩ := proper
  rw [← List.dropLast_append_getLast left,← List.append_assoc] at same
  have front := (List.append_inj' same rfl).1
  intro t member
  exact only t (front ▸ List.mem_append_left _ member)

theorem Proper.suffix {whole rest : List τ} (proper : Proper ends whole) (suffix : rest <:+ whole) (left : rest ≠ []) :
    Proper ends rest := by
  obtain ⟨front,rfl⟩ := suffix
  induction front with
  | nil => exact proper
  | cons t front ih => exact ih (proper.tail (proper.front left t List.mem_cons_self))

theorem Sound.pure {a : α} : Sound ends track size false d d (Pure.pure a : Parser τ ε α) :=
  fun _ proper _ => ⟨[],rfl,proper,(fun no => by cases no),rfl⟩

theorem Sound.fail {e : ε} : Sound ends track size strict d d' (Parsing.fail e : Parser τ ε α) :=
  fun _ _ _ => trivial

theorem SoundAt.lax {p : Parser τ ε α} {rest : List τ} (sound : SoundAt ends track size strict d d' p rest) :
    SoundAt ends track size false d d' p rest := by
  intro proper bound
  have inner := sound proper bound
  cases reply : p rest with
  | ok a rest' =>
    rw [reply] at inner
    obtain ⟨seg,split,proper',_,count⟩ := inner
    exact ⟨seg,split,proper',(fun no => by cases no),count⟩
  | error e => trivial
  | outOfBounds | unfinished =>
    rw [reply] at inner
    exact inner

theorem Sound.lax {p : Parser τ ε α} (sound : Sound ends track size strict d d' p) :
    Sound ends track size false d d' p := fun rest => (sound rest).lax

theorem SoundAt.bind {p : Parser τ ε α} {f : α → Parser τ ε β} {rest : List τ}
    (first : SoundAt ends track size false d m p rest) (second : ∀ a, Sound ends track size strict m d' (f a)) :
    SoundAt ends track size strict d d' (p >>= f) rest := by
  intro proper bound
  have start := first proper bound
  rw [bind_apply]
  cases reply : p rest with
  | ok a rest' =>
    rw [reply] at start
    obtain ⟨seg,rfl,proper',_,count⟩ := start
    rw [List.length_append] at bound
    have next := second a rest' proper' (by omega)
    rw [Reply.andThen]
    cases reply' : f a rest' with
    | ok b rest'' =>
      rw [reply'] at next
      obtain ⟨seg',rfl,proper'',more,count'⟩ := next
      refine ⟨seg ++ seg',(List.append_assoc _ _ _).symm,proper'',fun yes empty => ?_,?_⟩
      · exact more yes (List.append_eq_nil_iff.mp empty).2
      · rw [tracked_append,count]
        exact count'
    | error e => trivial
    | outOfBounds | unfinished =>
      rw [reply'] at next
      exact next
  | error e => trivial
  | outOfBounds | unfinished =>
    rw [reply] at start
    exact start

/-- After a parser that consumes, fewer tokens are left. -/
theorem SoundAt.then {p : Parser τ ε α} {f : α → Parser τ ε β} {rest : List τ}
    (first : SoundAt ends track size true d m p rest)
    (second : ∀ a smaller, smaller < size → Sound ends track smaller false m d' (f a)) :
    SoundAt ends track size true d d' (p >>= f) rest := by
  intro proper bound
  have start := first proper bound
  rw [bind_apply]
  cases reply : p rest with
  | ok a rest' =>
    rw [reply] at start
    obtain ⟨seg,rfl,proper',some_taken,count⟩ := start
    have taken := List.length_pos_of_ne_nil (some_taken rfl)
    have left := List.length_pos_of_ne_nil proper'.nonempty
    rw [List.length_append] at bound
    have next := second a (size - 1) (by omega) rest' proper' (by omega)
    rw [Reply.andThen]
    cases reply' : f a rest' with
    | ok b rest'' =>
      rw [reply'] at next
      obtain ⟨seg',rfl,proper'',_,count'⟩ := next
      refine ⟨seg ++ seg',(List.append_assoc _ _ _).symm,proper'',fun _ empty => ?_,?_⟩
      · exact some_taken rfl (List.append_eq_nil_iff.mp empty).1
      · rw [tracked_append,count]
        exact count'
    | error e => trivial
    | outOfBounds | unfinished =>
      rw [reply'] at next
      exact next
  | error e => trivial
  | outOfBounds | unfinished =>
    rw [reply] at start
    exact start

theorem Sound.bind {p : Parser τ ε α} {f : α → Parser τ ε β} (first : Sound ends track size false d m p)
    (second : ∀ a, Sound ends track size strict m d' (f a)) : Sound ends track size strict d d' (p >>= f) :=
  fun rest => (first rest).bind second

theorem Sound.then {p : Parser τ ε α} {f : α → Parser τ ε β} (first : Sound ends track size true d m p)
    (second : ∀ a smaller, smaller < size → Sound ends track smaller false m d' (f a)) :
    Sound ends track size true d d' (p >>= f) := fun rest => (first rest).then second

theorem SoundAt.look {f : List τ → Parser τ ε β} {rest : List τ}
    (inner : SoundAt ends track size strict d d' (f rest) rest) :
    SoundAt ends track size strict d d' (Parsing.look >>= f) rest := inner

/-- A token that is there can be taken. -/
theorem SoundAt.take {t : τ} {rest : List τ} {f : τ → Parser τ ε β} (inside : ¬ends t) (count : track d t = some m)
    (after : ∀ smaller, smaller < size → Sound ends track smaller false m d' (f t)) :
    SoundAt ends track size true d d' (advance >>= f) (t :: rest) := by
  intro proper bound
  have proper' := proper.tail inside
  have left := List.length_pos_of_ne_nil proper'.nonempty
  rw [List.length_cons] at bound
  have next := after (size - 1) (by omega) rest proper' (by omega)
  rw [bind_apply,advance,Reply.andThen]
  cases reply : f t rest with
  | ok b rest' =>
    rw [reply] at next
    obtain ⟨seg,rfl,proper'',_,count'⟩ := next
    refine ⟨t :: seg,rfl,proper'',fun _ => List.cons_ne_nil _ _,?_⟩
    rw [tracked,count]
    exact count'
  | error e => trivial
  | outOfBounds | unfinished =>
    rw [reply] at next
    exact next

theorem Sound.mono {p : Parser τ ε α} {smaller : Nat} (sound : Sound ends track size strict d d' p)
    (le : smaller ≤ size) : Sound ends track smaller strict d d' p :=
  fun rest proper bound => sound rest proper (by omega)

section
variable (ends) (track)

/-- One round of a loop, which consumes unless it is the last -/
def RoundAt (size d : Nat) (p : Parser τ ε (Step α β)) (rest : List τ) : Prop :=
  Proper ends rest → rest.length ≤ size + 1 →
    match p rest with
    | .ok (.again _) rest' => ∃ seg, rest = seg ++ rest' ∧ Proper ends rest' ∧ seg ≠ [] ∧ tracked track d seg = some d
    | .ok (.stop _) rest' => ∃ seg, rest = seg ++ rest' ∧ Proper ends rest' ∧ tracked track d seg = some d
    | .error _ => True
    | .outOfBounds | .unfinished => False

end

theorem SoundAt.round {p : Parser τ ε (Step α β)} {rest : List τ}
    (sound : SoundAt ends track size true d d p rest) : RoundAt ends track size d p rest := by
  intro proper bound
  have inner := sound proper bound
  cases reply : p rest with
  | ok step rest' =>
    rw [reply] at inner
    obtain ⟨seg,split,proper',taken,count⟩ := inner
    cases step with
    | again a => exact ⟨seg,split,proper',taken rfl,count⟩
    | stop b => exact ⟨seg,split,proper',count⟩
  | error e => trivial
  | outOfBounds | unfinished =>
    rw [reply] at inner
    exact inner

theorem RoundAt.stop {b : β} {rest : List τ} :
    RoundAt ends track size d (Pure.pure (.stop b) : Parser τ ε (Step α β)) rest :=
  fun proper _ => ⟨[],rfl,proper,rfl⟩

theorem RoundAt.look {f : List τ → Parser τ ε (Step α β)} {rest : List τ}
    (inner : RoundAt ends track size d (f rest) rest) : RoundAt ends track size d (Parsing.look >>= f) rest := inner

/-- A loop ends when each round that is not the last consumes. -/
theorem Sound.iterate {body : α → Parser τ ε (Step α β)} {rounds : Nat} {a : α} (enough : size < rounds)
    (each : ∀ smaller, smaller ≤ size → ∀ a rest, RoundAt ends track smaller d (body a) rest) :
    Sound ends track size false d d (Parsing.iterate body rounds a) := by
  induction rounds generalizing size a with
  | zero => omega
  | succ rounds ih =>
    intro rest proper bound
    have now := each size (Nat.le_refl _) a rest proper bound
    rw [Parsing.iterate,bind_apply]
    cases reply : body a rest with
    | ok step rest' =>
      rw [reply] at now
      cases step with
      | again a' =>
        obtain ⟨seg,rfl,proper',some_taken,count⟩ := now
        have taken := List.length_pos_of_ne_nil some_taken
        have left := List.length_pos_of_ne_nil proper'.nonempty
        rw [List.length_append] at bound
        have sound : Sound ends track (size - 1) false d d (Parsing.iterate body rounds a') :=
          ih (by omega) fun smaller less => each smaller (by omega)
        have later := sound rest' proper' (by omega)
        rw [Reply.andThen]
        simp only
        cases reply' : Parsing.iterate body rounds a' rest' with
        | ok b rest'' =>
          rw [reply'] at later
          obtain ⟨seg',rfl,proper'',_,count'⟩ := later
          refine ⟨seg ++ seg',(List.append_assoc _ _ _).symm,proper'',(fun no => by cases no),?_⟩
          rw [tracked_append,count]
          exact count'
        | error e => trivial
        | outOfBounds | unfinished =>
          rw [reply'] at later
          exact later
      | stop b =>
        obtain ⟨seg,rfl,proper',count⟩ := now
        exact ⟨seg,rfl,proper',(fun no => by cases no),count⟩
    | error e => trivial
    | outOfBounds | unfinished =>
      rw [reply] at now
      exact now

end Oscan.Library.Parsing
