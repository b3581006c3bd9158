import Oscan.Library.Utf8
import Oscan.Runtime.Strings

/-! The code points that text layout takes from the bytes of a string: the decoder of one of them, and the loop
of the width and the drawing of a text over it. -/
namespace Oscan.Runtime.TextLayout
open Library Library.Lockstep Library.Utf8 Strings
open String (utf8EncodeChar)

/-- The bytes of an `osc_str`, whose length is an `int32_t` -/
structure Text where
  data : Str
  short : data.length ≤ int32Max

/-- `s[i]`, which has no defined outcome past the end -/
def byteAt (s : Str) (i : Nat) : Outcome UInt8 :=
  match s[i]? with
  | some b => .ok b
  | none => .undefined

/-- `*i + more < len`, whose sum is made only after a lead byte of the form -/
def hasRoom (form : Bool) (len i more : Nat) : Outcome Bool :=
  if form then (int32 (i + more)).map fun last => decide (last < (len : Int)) else .ok false

/-- The code point with `*i += by` -/
def advance (cp i by' : Nat) : Outcome (Nat × Nat) := (int32 (i + by')).map fun i => (cp,i.toNat)

/-- `osc_tt__next_cp`: the code point, and `*i` past it -/
def nextCp (s : Str) (len i : Nat) : Outcome (Nat × Nat) :=
  (byteAt s i).bind fun c =>
  if c < 0x80 then advance c.toNat i 1
  else (hasRoom (c &&& 0xE0 == 0xC0) len i 1).bind fun two =>
  if two then
    (byteAt s (i + 1)).bind fun b => advance ((c &&& 0x1F).toNat <<< 6 ||| low b) i 2
  else (hasRoom (c &&& 0xF0 == 0xE0) len i 2).bind fun three =>
  if three then
    (byteAt s (i + 1)).bind fun b => (byteAt s (i + 2)).bind fun d =>
      advance ((c &&& 0x0F).toNat <<< 12 ||| low b <<< 6 ||| low d) i 3
  else (hasRoom (c &&& 0xF8 == 0xF0) len i 3).bind fun four =>
  if four then
    (byteAt s (i + 1)).bind fun b => (byteAt s (i + 2)).bind fun d => (byteAt s (i + 3)).bind fun e =>
      advance ((c &&& 0x07).toNat <<< 18 ||| low b <<< 12 ||| low d <<< 6 ||| low e) i 4
  else advance c.toNat i 1

theorem advance_ok {cp i by' : Nat} (small : i + by' ≤ int32Max) : advance cp i by' = .ok (cp,i + by') := by
  have sum : int32 ((i : Int) + by') = .ok ((i : Int) + by') := int32_ok (by
    unfold CInt.Fits
    unfold int32Max at small
    omega)
  simp only [advance,sum,Outcome.map_ok]
  rfl

theorem advance_eq {cp i by' : Nat} {result : Nat × Nat} (done : advance cp i by' = .ok result) :
    result = (cp,i + by') := by
  by_cases small : CInt.Fits 32 ((i : Int) + by')
  · simp only [advance,int32_ok small,Outcome.map_ok,Outcome.ok.injEq] at done
    rw [← done]
    rfl
  · simp only [advance,int32_undefined small,Outcome.map_undefined] at done
    cases done

theorem hasRoom_no (len i more : Nat) : hasRoom false len i more = .ok false := rfl

theorem hasRoom_yes {i more : Nat} (len : Nat) (small : i + more ≤ int32Max) :
    hasRoom true len i more = .ok (decide (i + more < len)) := by
  have sum : int32 ((i : Int) + more) = .ok ((i + more : Nat) : Int) := (int32_natural (i + more)).trans (if_pos small)
  rw [hasRoom,if_pos rfl,sum,Outcome.map_ok]
  exact congrArg Outcome.ok (decide_eq_decide.mpr (by omega))

theorem hasRoom_over {i more : Nat} (len : Nat) (large : ¬i + more ≤ int32Max) :
    hasRoom true len i more = .undefined := by
  have sum : int32 ((i : Int) + more) = .undefined := (int32_natural (i + more)).trans (if_neg large)
  rw [hasRoom,if_pos rfl,sum,Outcome.map_undefined]

theorem byteAt_lt {s : Str} {i : Nat} (inside : i < s.length) : byteAt s i = .ok s[i] := by
  rw [byteAt,List.getElem?_eq_getElem inside]

theorem slice_succ {s : Str} {i : Nat} (inside : i < s.length) (n : Nat) :
    slice s i (n + 1) = s[i] :: slice s (i + 1) n := by
  rw [slice,List.drop_eq_getElem_cons inside,List.take_succ_cons]
  rfl

theorem slice_none (s : Str) (i : Nat) : slice s i 0 = [] := List.take_zero

/-- Where the sequence announced ends within the text it is taken whole, and else only its first byte is. -/
theorem nextCp_eq (t : Text) {i : Nat} (inside : i < t.data.length) : nextCp t.data t.data.length i =
    if i + announced t.data[i] ≤ int32Max + 1 then
      if i + announced t.data[i] ≤ t.data.length then
        .ok (assembled (slice t.data i (announced t.data[i])),i + announced t.data[i])
      else .ok (t.data[i].toNat,i + 1)
    else .undefined := by
  have short := t.short
  have raw : advance t.data[i].toNat i 1 = .ok (t.data[i].toNat,i + 1) := advance_ok (by omega)
  have after := slice_succ (s := t.data) inside
  unfold nextCp
  rw [byteAt_lt inside,Outcome.bind_ok]
  rcases announced_cases t.data[i] with ⟨count,two,three,four⟩ | ⟨count,high,two,three,four⟩ |
    ⟨count,high,two,three,four⟩ | ⟨count,high,two,three,four⟩
  · rw [count,if_pos (show i + 1 ≤ int32Max + 1 by omega),if_pos (show i + 1 ≤ t.data.length by omega),after,
      slice_none,assembled,two,three,four,hasRoom_no,hasRoom_no,hasRoom_no,raw]
    exact ite_self _
  · rw [if_neg high,two,three,four,hasRoom_yes _ (show i + 1 ≤ int32Max by omega),hasRoom_no,hasRoom_no,raw,count,
      if_pos (show i + 2 ≤ int32Max + 1 by omega)]
    simp only [Outcome.bind_ok,Bool.false_eq_true,if_false,decide_eq_true_eq]
    split
    next room =>
      rw [if_pos (show i + 2 ≤ t.data.length by omega),byteAt_lt room,Outcome.bind_ok,advance_ok (by omega),after,
        slice_succ room,slice_none,assembled]
    next full => rw [if_neg (show ¬i + 2 ≤ t.data.length by omega)]
  · rw [if_neg high,two,three,four,hasRoom_no,hasRoom_no,raw,count]
    by_cases small : i + 2 ≤ int32Max
    · rw [hasRoom_yes _ small,if_pos (show i + 3 ≤ int32Max + 1 by omega)]
      simp only [Outcome.bind_ok,Bool.false_eq_true,if_false,decide_eq_true_eq]
      split
      next room =>
        have room' : i + 1 < t.data.length := by omega
        rw [if_pos (show i + 3 ≤ t.data.length by omega),byteAt_lt room,byteAt_lt room',Outcome.bind_ok,
          Outcome.bind_ok,advance_ok (by omega),after,slice_succ room',slice_succ room,slice_none,assembled]
      next full => rw [if_neg (show ¬i + 3 ≤ t.data.length by omega)]
    · rw [hasRoom_over _ small,if_neg (show ¬i + 3 ≤ int32Max + 1 by omega)]
      rfl
  · rw [if_neg high,two,three,four,hasRoom_no,hasRoom_no,raw,count]
    by_cases small : i + 3 ≤ int32Max
    · rw [hasRoom_yes _ small,if_pos (show i + 4 ≤ int32Max + 1 by omega)]
      simp only [Outcome.bind_ok,Bool.false_eq_true,if_false,decide_eq_true_eq]
      split
      next room =>
        have room' : i + 1 < t.data.length := by omega
        have room'' : i + 2 < t.data.length := by omega
        rw [if_pos (show i + 4 ≤ t.data.length by omega),byteAt_lt room,byteAt_lt room',byteAt_lt room'',
          Outcome.bind_ok,Outcome.bind_ok,Outcome.bind_ok,advance_ok (by omega),after,slice_succ room',
          slice_succ room'',slice_succ room,slice_none,assembled]
      next full => rw [if_neg (show ¬i + 4 ≤ t.data.length by omega)]
    · rw [hasRoom_over _ small,if_neg (show ¬i + 4 ≤ int32Max + 1 by omega)]
      rfl

theorem nextCp_ok {t : Text} {i : Nat} (inside : i < t.data.length) {cp next : Nat}
    (step : nextCp t.data t.data.length i = .ok (cp,next)) : i < next ∧ next ≤ t.data.length := by
  have positive := announced_pos t.data[i]
  rw [nextCp_eq t inside] at step
  split at step
  · split at step
    · cases step
      omega
    · cases step
      omega
  · cases step

/-- The loop over a text, with the places each code point begins and ends at -/
def textLoop (t : Text) (i : Nat) : Outcome (List (Nat × Nat × Nat)) :=
  if inside : i < t.data.length then
    match step : nextCp t.data t.data.length i with
    | .ok (cp,next) =>
      have := nextCp_ok inside step
      (textLoop t next).map fun seen => (cp,i,next) :: seen
    | .panic message => .panic message
    | .undefined => .undefined
  else .ok []
termination_by t.data.length - i
decreasing_by omega

theorem textLoop_end {t : Text} {i : Nat} (beyond : ¬i < t.data.length) : textLoop t i = .ok [] := by
  rw [textLoop,dif_neg beyond]

theorem textLoop_step {t : Text} {i : Nat} (inside : i < t.data.length) {cp next : Nat}
    (step : nextCp t.data t.data.length i = .ok (cp,next)) :
    textLoop t i = (textLoop t next).map fun seen => (cp,i,next) :: seen := by
  rw [textLoop,dif_pos inside]
  split
  next cp' next' step' =>
    rw [step] at step'
    cases step'
    rfl
  next step' => rw [step] at step'; cases step'
  next step' => rw [step] at step'; cases step'

/-- Each code point begins where the one before it ended, from the first place to the last. -/
def Covers : List (Nat × Nat × Nat) → Nat → Nat → Prop
  | [],i,stop => i = stop
  | (_,start,next) :: rest,i,stop => start = i ∧ i < next ∧ Covers rest next stop

/-- What layout needs of the decoder: every byte is consumed once, an encoded text gives its scalar values, and a
byte that begins no encoding stands for itself alone. -/
structure Decodes (t : Text) : Prop where
  consumed : ∃ seen, textLoop t 0 = .ok seen ∧ Covers seen 0 t.data.length
  faithful : ∀ chars : List Char, t.data = chars.flatMap utf8EncodeChar →
    ∃ seen, textLoop t 0 = .ok seen ∧ seen.map Prod.fst = chars.map fun c => c.val.toNat
  raw : ∀ (i : Nat) (inside : i < t.data.length), ¬StartsScalar (t.data.drop i) →
    nextCp t.data t.data.length i = .ok (t.data[i].toNat,i + 1)

/-- Each sequence announced that ends within the text is the encoding of a scalar value, and the last place
announced is a number of 32 bits. -/
def WellAnnounced (t : Text) : Prop :=
  ∀ (i : Nat) (inside : i < t.data.length), 2 ≤ announced t.data[i] →
    i + announced t.data[i] ≤ int32Max + 1 ∧
    (i + announced t.data[i] ≤ t.data.length → StartsScalar (t.data.drop i))

theorem nextCp_scalar {t : Text} {i : Nat} {c : Char} (begins : utf8EncodeChar c <+: t.data.drop i) :
    i < t.data.length ∧
      nextCp t.data t.data.length i = .ok (c.val.toNat,i + (utf8EncodeChar c).length) := by
  obtain ⟨lead,rest,split,sequence,count⟩ := taken begins
  have inside : i < t.data.length := by
    have positive := congrArg List.length split
    rw [List.length_drop,List.length_cons] at positive
    omega
  have first : t.data[i] = lead := by
    rw [List.drop_eq_getElem_cons inside] at split
    exact (List.cons.inj split).1
  have room := begins.length_le
  rw [List.length_drop] at room
  have short := t.short
  rw [nextCp_eq t inside,first,if_pos (by omega),if_pos (by omega),slice,sequence,assembled_encode,count]
  exact ⟨inside,rfl⟩

/-- The code points of an encoded text are its scalar values. -/
theorem textLoop_encoded (t : Text) (chars : List Char) (i : Nat) (rest : t.data.drop i = chars.flatMap utf8EncodeChar) :
    ∃ seen, textLoop t i = .ok seen ∧ seen.map Prod.fst = chars.map fun c => c.val.toNat := by
  induction chars generalizing i with
  | nil =>
    have beyond : ¬i < t.data.length := by
      have := List.drop_eq_nil_iff.mp rest
      omega
    exact ⟨[],textLoop_end beyond,rfl⟩
  | cons c chars ih =>
    rw [List.flatMap_cons] at rest
    obtain ⟨inside,step⟩ := nextCp_scalar ⟨_,rest.symm⟩
    have after : t.data.drop (i + (utf8EncodeChar c).length) = chars.flatMap utf8EncodeChar := by
      rw [← List.drop_drop,rest,List.drop_left']
      rfl
    obtain ⟨seen,loop,values⟩ := ih _ after
    refine ⟨(c.val.toNat,i,i + (utf8EncodeChar c).length) :: seen,?_,?_⟩
    · rw [textLoop_step inside step,loop,Outcome.map_ok]
    · rw [List.map_cons,List.map_cons,values]

theorem textLoop_covers (t : Text) (defined : ∀ (i : Nat) (inside : i < t.data.length),
    i + announced t.data[i] ≤ int32Max + 1) (i : Nat) (within : i ≤ t.data.length) :
    ∃ seen, textLoop t i = .ok seen ∧ Covers seen i t.data.length := by
  induction left : t.data.length - i using Nat.strong_induction_on generalizing i with
  | _ n ih =>
    by_cases inside : i < t.data.length
    · obtain ⟨cp,next,step⟩ : ∃ cp next, nextCp t.data t.data.length i = .ok (cp,next) := by
        rw [nextCp_eq t inside,if_pos (defined i inside)]
        split
        · exact ⟨_,_,rfl⟩
        · exact ⟨_,_,rfl⟩
      have := nextCp_ok inside step
      obtain ⟨seen,loop,covers⟩ := ih _ (by omega) next this.2 rfl
      refine ⟨(cp,i,next) :: seen,?_,?_⟩
      · rw [textLoop_step inside step,loop,Outcome.map_ok]
      · exact ⟨rfl,this.1,covers⟩
    · exact ⟨[],textLoop_end inside,by unfold Covers; omega⟩

theorem raw_iff (t : Text) {i : Nat} (inside : i < t.data.length) :
    nextCp t.data t.data.length i = .ok (t.data[i].toNat,i + 1) ↔
      announced t.data[i] = 1 ∨
      i + announced t.data[i] ≤ int32Max + 1 ∧ ¬i + announced t.data[i] ≤ t.data.length := by
  have positive := announced_pos t.data[i]
  have short := t.short
  rw [nextCp_eq t inside]
  by_cases one : announced t.data[i] = 1
  · have after := slice_succ (s := t.data) inside 0
    rw [one,if_pos (by omega),if_pos (by omega),after,slice_none,assembled]
    simp only [true_or]
  · constructor
    · intro same
      split at same
      next small =>
        split at same
        next room =>
          have ends : i + announced t.data[i] = i + 1 := congrArg Prod.snd (Outcome.ok.inj same)
          omega
        next full => exact .inr ⟨small,full⟩
      next => cases same
    · intro other
      obtain ⟨small,full⟩ := other.resolve_left one
      rw [if_pos small,if_neg full]

/-- Text layout decodes a text as it should exactly if each sequence that a byte announces in it and that ends
within it is well formed. -/
theorem text_decodes_iff (t : Text) : Decodes t ↔ WellAnnounced t := by
  have short := t.short
  constructor
  · intro decodes i inside many
    by_cases starts : StartsScalar (t.data.drop i)
    · obtain ⟨c,begins⟩ := starts
      obtain ⟨lead,rest,split,-,count⟩ := taken begins
      have first : t.data[i] = lead := by
        rw [List.drop_eq_getElem_cons inside] at split
        exact (List.cons.inj split).1
      have room := begins.length_le
      rw [List.length_drop] at room
      rw [first]
      exact ⟨by omega,fun _ => ⟨c,begins⟩⟩
    · obtain one | ⟨small,full⟩ := (raw_iff t inside).mp (decodes.raw i inside starts)
      · omega
      · exact ⟨small,fun room => absurd room full⟩
  · intro well
    refine ⟨?_,fun chars encoded => textLoop_encoded t chars 0 encoded,?_⟩
    · apply textLoop_covers t _ 0 (Nat.zero_le _)
      intro i inside
      have positive := announced_pos t.data[i]
      by_cases many : 2 ≤ announced t.data[i]
      · exact (well i inside many).1
      · omega
    · intro i inside malformed
      apply (raw_iff t inside).mpr
      have positive := announced_pos t.data[i]
      by_cases many : 2 ≤ announced t.data[i]
      · obtain ⟨small,whole⟩ := well i inside many
        exact .inr ⟨small,fun room => malformed (whole room)⟩
      · exact .inl (by omega)

/-- A lead byte of two without its continuation takes the letter after it away. -/
theorem text_swallowed : ¬Decodes ⟨[0xC3,0x41],by decide⟩ := by
  intro decodes
  have alone : ¬StartsScalar [0xC3,0x41] := by
    rintro ⟨c,begins⟩
    obtain ⟨lead,rest,split,sequence,count⟩ := taken begins
    have first : lead = 0xC3 := (List.cons.inj split).1.symm
    have encoded : utf8EncodeChar c = [0xC3,0x41] := by rw [← sequence,first]; rfl
    have value : c.val.toNat = 193 := by rw [← assembled_encode c,encoded]; rfl
    rw [encode_two c (by omega) (by omega),value] at encoded
    exact absurd encoded (by decide)
  exact absurd (decodes.raw 0 (by decide) alone) (by decide)

end Oscan.Runtime.TextLayout
