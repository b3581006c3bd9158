import Oscan.Runtime.TlsReceive

/-! The plaintext that a program receives is that of the records in order, whatever the boundaries of records, chunks
and calls. -/
namespace Oscan.Runtime.TlsReceive
open Library.Interleaving

variable {records : List Record} {decryptMessage : Nat → Str → Decrypted}

/-- What the buffers hold: ciphertext from the next record on, and plaintext that goes on where the program is. -/
structure Held (records : List Record) (c : Conn) (coming delivered : Str) : Prop where
  gathered : c.raw.length ≤ bufSize
  position : c.decPos ≤ c.decrypted.length ∧ c.decrypted.length ≤ bufSize
  stream : c.closed = false → c.raw ++ coming = (records.drop c.ctx).flatMap Record.bytes
  closed : c.closed = true → c.raw = []
  given : ∃ rest, plaintext records = delivered ++ c.decrypted.drop c.decPos ++ rest ∧
    (c.closed = false → rest = plaintext (records.drop c.ctx))

/-- A connection whose plaintext is used up, before a record is decrypted -/
structure Ready (records : List Record) (c : Conn) (coming delivered : Str) : Prop where
  gathered : c.raw.length ≤ bufSize
  empty : c.decrypted = [] ∧ c.decPos = 0
  opened : c.closed = false
  stream : c.raw ++ coming = (records.drop c.ctx).flatMap Record.bytes
  given : plaintext records = delivered ++ plaintext (records.drop c.ctx)

theorem Ready.held {c : Conn} {coming delivered : Str} (ready : Ready records c coming delivered) :
    Held records c coming delivered := by
  refine ⟨ready.gathered,?_,fun _ => ready.stream,fun closed => absurd closed ?_,_,?_,fun _ => rfl⟩
  · rw [ready.empty.1,ready.empty.2]
    exact ⟨Nat.le_refl _,Nat.zero_le _⟩
  · rw [ready.opened]
    decide
  · rw [ready.empty.1,List.drop_nil,List.append_nil]
    exact ready.given

/-- The buffer is empty, or ends within the next record, or has all of it. -/
theorem front {ctx : Nat} {raw coming : Str} (stream : raw ++ coming = (records.drop ctx).flatMap Record.bytes)
    (some_ : raw ≠ []) : ∃ r, records[ctx]? = some r ∧ records.drop ctx = r :: records.drop (ctx + 1) ∧
      (raw <+: r.bytes ∧ raw ≠ r.bytes ∨
        ∃ extra, raw = r.bytes ++ extra ∧ extra ++ coming = (records.drop (ctx + 1)).flatMap Record.bytes) := by
  have inside : ctx < records.length := by
    by_contra beyond
    rw [List.drop_eq_nil_of_le (by omega)] at stream
    exact some_ (List.append_eq_nil_iff.mp stream).1
  have next := List.drop_eq_getElem_cons inside
  refine ⟨records[ctx],List.getElem?_eq_getElem inside,next,?_⟩
  rw [next,List.flatMap_cons] at stream
  rcases List.append_eq_append_iff.mp stream with ⟨more,bytes,-⟩ | ⟨extra,whole,rest⟩
  · cases more with
    | nil => exact .inr ⟨[],by rw [bytes,List.append_nil,List.append_nil],by
        rw [bytes,List.append_nil] at stream
        exact List.append_cancel_left stream⟩
    | cons b more =>
      refine .inl ⟨⟨b :: more,bytes.symm⟩,fun same => ?_⟩
      have sizes := congrArg List.length bytes
      rw [List.length_append,List.length_cons,same] at sizes
      omega
  · exact .inr ⟨extra,whole,rest.symm⟩

/-- What a decryption does: nothing, as no record is complete; or it fails; or the connection is closed; or the next
record gives its plaintext and leaves what is behind it. -/
theorem decryptData_cases (decrypts : Decrypts records decryptMessage) {c : Conn} {coming delivered : Str}
    (ready : Ready records c coming delivered) :
    (decryptData decryptMessage c = (0,c) ∧ ¬Waits decryptMessage c ∧ c.raw.length < bufSize ∧
      (c.raw ≠ [] → ¬Ends decryptMessage c.ctx c.raw)) ∨
    (decryptData decryptMessage c = (-1,c) ∧ decryptMessage c.ctx c.raw = .failed) ∨
    decryptData decryptMessage c = (1,{ c with closed := true,raw := [] }) ∨
    ∃ place plain extra, decryptMessage c.ctx c.raw = .data place plain extra ∧
      decryptData decryptMessage c = (1,{ c with ctx := c.ctx + 1,decrypted := plain,raw := extra }) ∧
      plain.length ≤ bufSize ∧ extra.length < c.raw.length ∧
      extra ++ coming = (records.drop (c.ctx + 1)).flatMap Record.bytes ∧
      plaintext (records.drop c.ctx) = plain ++ plaintext (records.drop (c.ctx + 1)) := by
  by_cases none : c.raw = []
  · refine .inl ⟨if_pos none,fun waits => waits.1 none,?_,fun some_ => absurd none some_⟩
    rw [none]
    decide
  obtain ⟨r,listed,next,⟨partly,notAll⟩ | ⟨extra,whole,rest⟩⟩ := front ready.stream none
  · have answered := decrypts.part c.ctx r c.raw listed none partly notAll
    refine .inl ⟨?_,?_,?_,?_⟩
    · rw [decryptData,if_neg none,answered]
    · rintro ⟨-,place,plain,extra,data⟩
      rw [answered] at data
      cases data
    · have most := partly.length_le
      have short := r.short
      unfold bufSize
      omega
    · intro _ ends
      rw [Ends,answered] at ends
      exact ends
  · have answered := decrypts.whole c.ctx r extra listed
    rw [← whole] at answered
    have inside := r.inside
    unfold Record.answer at answered
    cases kind : r.kind with
    | expired =>
      rw [kind] at answered
      refine .inr (.inr (.inl ?_))
      rw [decryptData,if_neg none,answered]
    | failing =>
      rw [kind] at answered
      refine .inr (.inl ⟨?_,answered⟩)
      rw [decryptData,if_neg none,answered]
    | data place plain =>
      rw [kind] at answered inside
      simp only at answered inside
      have sizes := congrArg List.length whole
      rw [List.length_append] at sizes
      have nonempty := List.length_pos_iff.mpr r.some
      have short := r.short
      have fits : plain.length ≤ bufSize := by
        unfold bufSize
        omega
      refine .inr (.inr (.inr ⟨place,plain,extra,answered,?_,fits,by omega,rest,?_⟩))
      · have clamp : ¬(extra ≠ [] ∧ place < c.raw.length - extra.length ∧
            c.raw.length - extra.length < place + plain.length) := by
          rintro ⟨-,-,beyond⟩
          omega
        rw [decryptData,if_neg none,answered]
        simp only [if_neg clamp,ready.empty.1,List.length_nil,Nat.sub_zero,List.nil_append,
          if_neg (Nat.not_lt.mpr fits),List.take_length]
      · rw [next,plaintext,kind]

/-- How much plaintext a call takes of that which waits -/
theorem takeOut_eq (c : Conn) (maxLen : Nat) : ∃ n, takeOut c maxLen = ((c.decrypted.drop c.decPos).take n,
      if c.decrypted.length ≤ c.decPos + n then { c with decPos := 0,decrypted := [] }
      else { c with decPos := c.decPos + n }) ∧
    (0 < maxLen → c.decPos < c.decrypted.length → 0 < n) ∧ n ≤ c.decrypted.length - c.decPos := by
  refine ⟨min (c.decrypted.length - c.decPos) maxLen,?_,?_,Nat.min_le_left _ _⟩
  · have same : (if c.decrypted.length - c.decPos < maxLen then c.decrypted.length - c.decPos else maxLen) =
        min (c.decrypted.length - c.decPos) maxLen := by
      split <;> omega
    unfold takeOut
    simp only [same]
  · omega

/-- Taking out goes on where the program is. -/
theorem Held.takeOut {c : Conn} {coming delivered : Str} (held : Held records c coming delivered) {maxLen : Nat}
    (asked : 0 < maxLen) (left : c.decPos < c.decrypted.length) :
    (takeOut c maxLen).1 ≠ [] ∧ Held records (takeOut c maxLen).2 coming (delivered ++ (takeOut c maxLen).1) := by
  obtain ⟨n,taken,some_,most⟩ := takeOut_eq c maxLen
  have positive := some_ asked left
  obtain ⟨rest,whole,goes⟩ := held.given
  have split : (c.decrypted.drop c.decPos).take n ++ c.decrypted.drop (c.decPos + n) = c.decrypted.drop c.decPos := by
    rw [← List.drop_drop,List.take_append_drop]
  have position := held.position
  rw [taken]
  constructor
  · intro none
    have sizes := congrArg List.length none
    rw [List.length_take,List.length_drop,List.length_nil] at sizes
    omega
  · by_cases all : c.decrypted.length ≤ c.decPos + n
    · simp only [if_pos all]
      refine ⟨held.gathered,⟨Nat.le_refl _,Nat.zero_le _⟩,held.stream,held.closed,rest,?_,goes⟩
      rw [List.drop_eq_nil_of_le all,List.append_nil] at split
      rw [whole,split,List.drop_nil,List.append_nil]
    · simp only [if_neg all]
      refine ⟨held.gathered,⟨by simp only; omega,position.2⟩,held.stream,held.closed,rest,?_,goes⟩
      calc plaintext records = delivered ++ c.decrypted.drop c.decPos ++ rest := whole
        _ = delivered ++ ((c.decrypted.drop c.decPos).take n ++ c.decrypted.drop (c.decPos + n)) ++ rest := by
          rw [split]
        _ = _ := by rw [← List.append_assoc delivered]

/-- What every state of a run has -/
structure Steady (records : List Record) (decryptMessage : Nat → Str → Decrypted) (s : State) : Prop where
  held : Held records s.conn s.coming s.delivered
  receiving : ∀ maxLen attempts, s.phase = .receiving maxLen attempts →
    0 < maxLen ∧ attempts < 100 ∧ s.conn.raw.length < bufSize ∧ Ready records s.conn s.coming s.delivered
  emptied : ∀ ended, s.phase = .returned [] ended →
    (s.conn.closed = true ∨ ended = true ∨ decryptMessage s.conn.ctx s.conn.raw = .failed) ∧
      ¬Waits decryptMessage s.conn

theorem Steady.sound {s : State} (steady : Steady records decryptMessage s) : Sound records decryptMessage s := by
  obtain ⟨rest,whole,-⟩ := steady.held.given
  refine ⟨?_,steady.held.position,steady.held.gathered,steady.emptied⟩
  rw [whole,List.append_assoc]
  exact List.prefix_append _ _

theorem steady_out {s : State} {result : Str × Conn} (some_ : result.1 ≠ [])
    (held : Held records result.2 s.coming (s.delivered ++ result.1)) :
    Steady records decryptMessage (answer s false result) := by
  refine ⟨held,(fun _ _ h => nomatch h),?_⟩
  intro ended returned
  exact absurd (Phase.returned.inj returned).1 some_

theorem steady_empty {s : State} {c : Conn} {ended : Bool} (held : Held records c s.coming s.delivered)
    (why : c.closed = true ∨ ended = true ∨ decryptMessage c.ctx c.raw = .failed) (none : ¬Waits decryptMessage c) :
    Steady records decryptMessage (answer s ended ([],c)) := by
  refine ⟨?_,(fun _ _ h => nomatch h),?_⟩
  · rw [answer,List.append_nil]
    exact held
  · intro ended' returned
    have same := (Phase.returned.inj returned).2
    rw [← same]
    exact ⟨why,none⟩

theorem steady_receiving {s : State} {c : Conn} {maxLen attempts : Nat} (ready : Ready records c s.coming s.delivered)
    (asked : 0 < maxLen) (more : attempts < 100) (room : c.raw.length < bufSize) :
    Steady records decryptMessage (goOn s c maxLen attempts) := by
  have run : goOn s c maxLen attempts = { s with conn := c,phase := .receiving maxLen attempts } :=
    (if_pos more).trans (if_neg (by omega))
  rw [run]
  refine ⟨ready.held,?_,(fun _ h => nomatch h)⟩
  intro maxLen' attempts' same
  obtain ⟨rfl,rfl⟩ := Phase.receiving.inj same
  exact ⟨asked,more,room,ready⟩

/-- After a decryption the call ends rightly or goes on, if it may go on or the record ends it. -/
theorem steady_settle (decrypts : Decrypts records decryptMessage) {s : State} {c : Conn}
    (ready : Ready records c s.coming s.delivered) {maxLen attempts : Nat} (asked : 0 < maxLen)
    (served : attempts < 100 ∨ c.raw ≠ [] ∧ Ends decryptMessage c.ctx c.raw) :
    Steady records decryptMessage (settle s (decryptData decryptMessage c) maxLen attempts) := by
  obtain ⟨run,none,room,notEnding⟩ | ⟨run,failed⟩ | run | ⟨place,plain,extra,data,run,fits,shorter,rest,goes⟩ :=
    decryptData_cases decrypts ready
  · have more : attempts < 100 := served.resolve_right fun ends => notEnding ends.1 ends.2
    have step : settle s (decryptData decryptMessage c) maxLen attempts = goOn s c maxLen attempts := by
      simp only [run,settle]
      rw [if_neg (by omega),if_neg (by rw [ready.opened]; decide)]
    rw [step]
    exact steady_receiving ready asked more room
  · have step : settle s (decryptData decryptMessage c) maxLen attempts = answer s false ([],c) := by
      simp only [run,settle]
      rw [if_neg (by omega),if_pos (.inl (by decide))]
    rw [step]
    apply steady_empty ready.held (.inr (.inr failed))
    rintro ⟨-,_,_,_,data⟩
    cases failed.symm.trans data
  · have step : settle s (decryptData decryptMessage c) maxLen attempts =
        answer s false ([],{ c with closed := true,raw := [] }) := by
      simp only [run,settle]
      rw [if_neg (by rw [ready.empty.1]; exact fun both => Nat.lt_irrefl 0 both.2),if_pos (.inr trivial)]
    rw [step]
    apply steady_empty _ (.inl rfl) fun waits => waits.1 rfl
    refine ⟨Nat.zero_le _,ready.held.position,(fun h => nomatch h),fun _ => rfl,plaintext (records.drop c.ctx),?_,
      (fun h => nomatch h)⟩
    simp only [ready.empty.1,List.drop_nil,List.append_nil]
    exact ready.given
  · by_cases nothing : plain = []
    · have ready' : Ready records { c with ctx := c.ctx + 1,decrypted := plain,raw := extra } s.coming s.delivered := by
        refine ⟨by have := ready.gathered; simp only; omega,⟨nothing,ready.empty.2⟩,ready.opened,rest,?_⟩
        rw [ready.given,goes,nothing,List.nil_append]
      have more : attempts < 100 := by
        rcases served with more | ⟨-,ends⟩
        · exact more
        · rw [Ends,data] at ends
          exact absurd nothing ends
      have step : settle s (decryptData decryptMessage c) maxLen attempts =
          goOn s { c with ctx := c.ctx + 1,decrypted := plain,raw := extra } maxLen attempts := by
        simp only [run,settle]
        rw [if_neg (by rw [nothing]; exact fun both => Nat.lt_irrefl 0 both.2),
          if_neg (by rw [ready.opened]; decide)]
      rw [step]
      have gathered := ready.gathered
      exact steady_receiving ready' asked more (by simp only; omega)
    · have some_ := List.length_pos_iff.mpr nothing
      have step : settle s (decryptData decryptMessage c) maxLen attempts =
          answer s false (takeOut { c with ctx := c.ctx + 1,decrypted := plain,raw := extra } maxLen) := by
        simp only [run,settle]
        rw [if_pos ⟨by decide,some_⟩]
      have held : Held records { c with ctx := c.ctx + 1,decrypted := plain,raw := extra } s.coming s.delivered := by
        refine ⟨by have := ready.gathered; simp only; omega,⟨?_,fits⟩,fun _ => rest,?_,_,?_,fun _ => rfl⟩
        · simp only [ready.empty.2]
          exact Nat.zero_le _
        · intro closed
          exact absurd (ready.opened.symm.trans closed) (by decide)
        · simp only [ready.empty.2,List.drop_zero]
          rw [ready.given,goes,List.append_assoc]
      have out := held.takeOut asked (by simp only [ready.empty.2]; exact some_)
      rw [step]
      exact steady_out out.1 out.2

/-- A call begins with the plaintext that waits, or with the ciphertext that is there. -/
theorem steady_receive (decrypts : Decrypts records decryptMessage) {s : State}
    (steady : Steady records decryptMessage s) (maxLen : Int) :
    Steady records decryptMessage (receive decryptMessage s maxLen) := by
  have asked : 0 < (if maxLen ≤ 0 ∨ 65536 < maxLen then 4096 else maxLen.toNat) := by
    split
    · decide
    · omega
  unfold receive
  simp only
  split
  next left =>
    have out := steady.held.takeOut asked left
    exact steady_out out.1 out.2
  next used =>
    obtain ⟨rest,whole,goes⟩ := steady.held.given
    have done : s.conn.decrypted.drop s.conn.decPos = [] := List.drop_eq_nil_of_le (by omega)
    rw [done,List.append_nil] at whole
    split
    next closed =>
      have held : Held records { s.conn with decPos := 0,decrypted := [] } s.coming s.delivered := by
        refine ⟨steady.held.gathered,⟨Nat.le_refl _,Nat.zero_le _⟩,steady.held.stream,steady.held.closed,rest,?_,goes⟩
        rw [List.drop_nil,List.append_nil]
        exact whole
      exact steady_empty held (.inl closed) fun waits => waits.1 (steady.held.closed closed)
    next opened =>
      have opened : s.conn.closed = false := Bool.not_eq_true _ ▸ opened
      apply steady_settle decrypts _ asked (.inl (by decide))
      refine ⟨steady.held.gathered,⟨rfl,rfl⟩,opened,steady.held.stream opened,?_⟩
      rw [whole,goes opened]

theorem steady_step (decrypts : Decrypts records decryptMessage) (s : State) (action : Action) (s' : State)
    (steady : Steady records decryptMessage s) (served : Serves decryptMessage s action)
    (took : step decryptMessage s action = some s') : Steady records decryptMessage s' := by
  cases action with
  | call maxLen =>
    cases phase : s.phase with
    | receiving =>
      rw [step,phase] at took
      cases took
    | idle | returned =>
      rw [step,phase] at took
      cases took
      exact steady_receive decrypts steady maxLen
  | network received =>
    cases phase : s.phase with
    | idle | returned =>
      rw [step,phase] at took
      cases took
    | receiving maxLen attempts =>
      obtain ⟨asked,more,room,ready⟩ := steady.receiving maxLen attempts phase
      simp only [step,phase] at took
      cases received with
      | none =>
        cases took
        exact steady_empty steady.held (.inr (.inl rfl)) served
      | some r =>
        simp only at took
        split at took
        next fits =>
          cases took
          obtain ⟨some_,space,there⟩ := fits
          have size : (s.conn.raw ++ s.coming.take r).length = s.conn.raw.length + r := by
            rw [List.length_append,List.length_take,Nat.min_eq_left there]
          apply steady_settle decrypts _ asked
          · simp only [Serves,phase] at served
            exact served.imp_right fun ends => ⟨List.ne_nil_of_length_pos (by rw [size]; omega),ends⟩
          · refine ⟨by simp only; omega,ready.empty,ready.opened,?_,ready.given⟩
            rw [List.append_assoc,List.take_append_drop]
            exact ready.stream
        next => cases took

theorem steady_opened {leftOver coming : Str} (few : leftOver.length ≤ bufSize)
    (stream : leftOver ++ coming = records.flatMap Record.bytes) :
    Steady records decryptMessage (opened leftOver coming) :=
  ⟨⟨few,⟨Nat.le_refl _,Nat.zero_le _⟩,fun _ => stream,(fun h => nomatch h),_,rfl,fun _ => rfl⟩,
    (fun _ _ h => nomatch h),(fun _ h => nomatch h)⟩

/-- Whatever records the peer sends, however the network cuts them and whatever the program asks for: the answers are
the plaintext in order and an empty one ends it, if the network does not end while a complete record waits and no
call uses up its hundred attempts. -/
theorem stream_received (decrypts : Decrypts records decryptMessage) {leftOver coming : Str}
    (few : leftOver.length ≤ bufSize) (stream : leftOver ++ coming = records.flatMap Record.bytes) {s : State}
    (reached : Reaches (step decryptMessage) (Serves decryptMessage) (opened leftOver coming) s) :
    Sound records decryptMessage s := by
  apply Steady.sound
  apply Reaches.invariant _ _ reached
  · exact steady_opened few stream
  · exact steady_step decrypts

/-- A `DecryptMessage` of given records -/
def decryptOf (records : List Record) (i : Nat) (raw : Str) : Decrypted :=
  match records[i]? with
  | none => .failed
  | some r => if r.bytes <+: raw then r.answer (raw.drop r.bytes.length) else .incomplete

theorem decryptOf_decrypts (records : List Record) : Decrypts records (decryptOf records) := by
  refine ⟨?_,?_⟩
  · intro i r extra listed
    rw [decryptOf,listed]
    simp only
    rw [if_pos (List.prefix_append _ _),List.drop_left' rfl]
  · intro i r buf listed _ partly notAll
    rw [decryptOf,listed]
    simp only
    rw [if_neg]
    intro whole
    exact notAll (partly.eq_of_length (Nat.le_antisymm partly.length_le whole.length_le))

/-- A record without plaintext, and one with a letter -/
def silent : Record := ⟨[0],.data 1 [],by decide,by decide,by decide⟩

def letterA : Record := ⟨[1,65],.data 1 [65],by decide,by decide,by decide⟩

theorem stream_received_letter : ∃ s, s.delivered = [65] ∧ Sound [letterA] (decryptOf [letterA]) s := by
  have begun : Reaches (step (decryptOf [letterA])) (Serves (decryptOf [letterA])) (opened [] [1,65])
      (opened [] [1,65]) := Reaches.start
  have called := begun.next (a := Action.call 10) trivial rfl
  have given := called.next (a := Action.network (some 2)) (show 0 + 1 < 100 ∨ _ from .inl (by decide)) rfl
  exact ⟨_,rfl,stream_received (decryptOf_decrypts _) (by decide) rfl given⟩

/-- Both records arrive in one chunk, and the call goes back to the network with the second one in its buffer. -/
theorem stream_cut : ¬∀ s, Reaches (step (decryptOf [silent,letterA])) (fun _ _ => True) (opened [] [0,1,65]) s →
    Sound [silent,letterA] (decryptOf [silent,letterA]) s := by
  intro sound
  have begun : Reaches (step (decryptOf [silent,letterA])) (fun _ _ => True) (opened [] [0,1,65])
      (opened [] [0,1,65]) := Reaches.start
  have called := begun.next (a := Action.call 10) trivial rfl
  have given := called.next (a := Action.network (some 3)) trivial rfl
  have ended := given.next (a := Action.network none) trivial rfl
  exact ((sound _ ended).emptied true rfl).2 ⟨by decide,1,[65],[],rfl⟩

end Oscan.Runtime.TlsReceive
