import Oscan.Library.Lines
import Oscan.Runtime.Map
import Mathlib.Data.List.TakeWhile

/-! The two readers of a line from standard input, each with a buffer of 4096 bytes: one reads byte by byte, the
other through `fgets` and `strlen`. -/
namespace Oscan.Runtime.ReadLine
open Library.Lines

/-- `sizeof(buf)` -/
def bufSize : Nat := 4096

def failed : Except String Str := .error "failed to read line from stdin"

/-- A carriage return at the end is cut off. -/
def stripCr (line : Str) : Str := if line.getLast? = some 13 then line.dropLast else line

/-- The loop that reads one byte at a time; nothing stands for the end of input before the first byte. -/
def readFrom (buf : Str) : Str → Option Str × Str
  | [] =>
    if buf.length < bufSize - 1 then
      if buf.length = 0 then (none,[]) else (some buf,[])
    else (some buf,[])
  | c :: stdin =>
    if buf.length < bufSize - 1 then
      if c = 10 then (some buf,stdin) else readFrom (buf ++ [c]) stdin
    else (some buf,c :: stdin)

/-- `osc_read_line` without the C library -/
def readLine (stdin : Str) : Except String Str × Str :=
  match readFrom [] stdin with
  | (none,stdin) => (failed,stdin)
  | (some buf,stdin) => (.ok (stripCr buf),stdin)

/-- What `fgets` stores for the room it has: the bytes up to a line feed, and that as well -/
def fgetsFrom : Nat → Str → Str × Str
  | 0,stdin => ([],stdin)
  | _ + 1,[] => ([],[])
  | room + 1,c :: stdin =>
    if c = 10 then ([c],stdin)
    else
      let (stored,stdin) := fgetsFrom room stdin
      (c :: stored,stdin)

def fgets (size : Nat) (stdin : Str) : Option Str × Str :=
  if stdin = [] then (none,[])
  else
    let (stored,stdin) := fgetsFrom (size - 1) stdin
    (some stored,stdin)

/-- The bytes that `strlen` counts -/
def cString (buf : Str) : Str := buf.takeWhile (· ≠ 0)

def stripLf (line : Str) : Str := if line.getLast? = some 10 then line.dropLast else line

/-- `osc_read_line` with the C library -/
def readLineLibc (stdin : Str) : Except String Str × Str :=
  match fgets bufSize stdin with
  | (none,stdin) => (failed,stdin)
  | (some buf,stdin) => (.ok (stripCr (stripLf (cString buf))),stdin)

/-- The lines of an input: a line feed ends one, with the carriage return before it, and so does the end of input
where something is left. -/
def lines (stdin : Str) : List Str :=
  (segments 10 stdin).1.map stripCr ++ if (segments 10 stdin).2 = [] then [] else [(segments 10 stdin).2]

/-- Both readers answer the lines in order and then always fail. -/
structure ReadsLines (stdin : Str) : Prop where
  freestanding : ∀ n, calls readLine n stdin = padded failed n ((lines stdin).map .ok)
  libc : ∀ n, calls readLineLibc n stdin = padded failed n ((lines stdin).map .ok)
  agree : ∀ n, calls readLine n stdin = calls readLineLibc n stdin

/-- No byte is zero, each line fits the buffer with what ends it, and the input does not end with a carriage
return. -/
structure LinesFit (stdin : Str) : Prop where
  noNul : 0 ∉ stdin
  short : ∀ line ∈ (segments 10 stdin).1, line.length ≤ 4094
  shortEnd : (segments 10 stdin).2.length ≤ 4095
  whole : (segments 10 stdin).2.getLast? ≠ some 13

theorem readFrom_ended {buf line : Str} (free : 10 ∉ line) (short : buf.length + line.length ≤ 4094) (rest : Str) :
    readFrom buf (line ++ 10 :: rest) = (some (buf ++ line),rest) := by
  induction line generalizing buf with
  | nil => rw [List.nil_append,readFrom,if_pos (by unfold bufSize; rw [List.length_nil] at short; omega),if_pos rfl,
      List.append_nil]
  | cons c line ih =>
    rw [List.mem_cons,not_or] at free
    rw [List.length_cons] at short
    rw [List.cons_append,readFrom,if_pos (by unfold bufSize; omega),if_neg (Ne.symm free.1),
      ih free.2 (by rw [List.length_append,List.length_singleton]; omega),List.append_assoc]
    rfl

theorem readFrom_last {buf line : Str} (free : 10 ∉ line) (some_ : buf ++ line ≠ [])
    (short : buf.length + line.length ≤ 4095) : readFrom buf line = (some (buf ++ line),[]) := by
  induction line generalizing buf with
  | nil =>
    rw [List.append_nil] at some_ ⊢
    rw [readFrom,if_neg fun none => some_ (List.length_eq_zero_iff.mp none),ite_self]
  | cons c line ih =>
    rw [List.mem_cons,not_or] at free
    rw [List.length_cons] at short
    rw [readFrom,if_pos (by unfold bufSize; omega),if_neg (Ne.symm free.1),
      ih free.2 (by simp) (by rw [List.length_append,List.length_singleton]; omega),List.append_assoc]
    rfl

/-- A full buffer ends the loop before the next byte. -/
theorem readFrom_full {buf line : Str} (free : 10 ∉ line) (full : buf.length + line.length = 4095) (rest : Str) :
    readFrom buf (line ++ rest) = (some (buf ++ line),rest) := by
  induction line generalizing buf with
  | nil =>
    have size : buf.length = 4095 := by simpa using full
    rw [List.nil_append,List.append_nil]
    cases rest with
    | nil => rw [readFrom,if_neg (by unfold bufSize; omega)]
    | cons c rest => rw [readFrom,if_neg (by unfold bufSize; omega)]
  | cons c line ih =>
    rw [List.mem_cons,not_or] at free
    rw [List.length_cons] at full
    rw [List.cons_append,readFrom,if_pos (by unfold bufSize; omega),if_neg (Ne.symm free.1),
      ih free.2 (by rw [List.length_append,List.length_singleton]; omega),List.append_assoc]
    rfl

/-- An input is at its end, or begins with a line that the buffer takes, or is the last line and fits, or begins
with as much of a line as the buffer takes. -/
theorem reading_cases (stdin : Str) :
    stdin = [] ∨
    (∃ line rest, stdin = line ++ 10 :: rest ∧ 10 ∉ line ∧ line.length ≤ 4094) ∨
    (stdin ≠ [] ∧ 10 ∉ stdin ∧ stdin.length ≤ 4095) ∨
    ∃ line rest, stdin = line ++ rest ∧ 10 ∉ line ∧ line.length = 4095 := by
  by_cases found : 10 ∈ stdin
  · obtain ⟨line,rest,rfl,free⟩ := List.eq_append_cons_of_mem found
    by_cases short : line.length ≤ 4094
    · exact .inr (.inl ⟨line,rest,rfl,free,short⟩)
    · refine .inr (.inr (.inr ⟨line.take 4095,line.drop 4095 ++ 10 :: rest,?_,?_,?_⟩))
      · rw [← List.append_assoc,List.take_append_drop]
      · exact fun member => free (List.mem_of_mem_take member)
      · rw [List.length_take]
        omega
  · by_cases short : stdin.length ≤ 4095
    · by_cases none : stdin = []
      · exact .inl none
      · exact .inr (.inr (.inl ⟨none,found,short⟩))
    · refine .inr (.inr (.inr ⟨stdin.take 4095,stdin.drop 4095,?_,?_,?_⟩))
      · rw [List.take_append_drop]
      · exact fun member => found (List.mem_of_mem_take member)
      · rw [List.length_take]
        omega

theorem readLine_ended {line : Str} (free : 10 ∉ line) (short : line.length ≤ 4094) (rest : Str) :
    readLine (line ++ 10 :: rest) = (.ok (stripCr line),rest) := by
  rw [readLine,readFrom_ended free (by rw [List.length_nil]; omega)]
  rfl

theorem readLine_last {line : Str} (free : 10 ∉ line) (some_ : line ≠ []) (short : line.length ≤ 4095) :
    readLine line = (.ok (stripCr line),[]) := by
  have run := readFrom_last free (List.append_ne_nil_of_right_ne_nil [] some_) (by rw [List.length_nil]; omega)
  rw [readLine,run]
  rfl

theorem readLine_full {line : Str} (free : 10 ∉ line) (full : line.length = 4095) (rest : Str) :
    readLine (line ++ rest) = (.ok (stripCr line),rest) := by
  rw [readLine,readFrom_full free (by rw [List.length_nil]; omega)]
  rfl

theorem fgetsFrom_ended {room : Nat} {line : Str} (free : 10 ∉ line) (short : line.length + 1 ≤ room) (rest : Str) :
    fgetsFrom room (line ++ 10 :: rest) = (line ++ [10],rest) := by
  induction line generalizing room with
  | nil =>
    obtain ⟨room,rfl⟩ := Nat.exists_eq_add_of_le' short
    rw [List.nil_append,List.length_nil,Nat.zero_add,fgetsFrom,if_pos rfl]
    rfl
  | cons c line ih =>
    rw [List.mem_cons,not_or] at free
    rw [List.length_cons] at short
    cases room with
    | zero => omega
    | succ room => rw [List.cons_append,fgetsFrom,if_neg (Ne.symm free.1),ih free.2 (by omega)]; rfl

theorem fgetsFrom_full {room : Nat} {line : Str} (free : 10 ∉ line) (full : line.length = room) (rest : Str) :
    fgetsFrom room (line ++ rest) = (line,rest) := by
  induction line generalizing room with
  | nil =>
    rw [← full]
    rfl
  | cons c line ih =>
    rw [List.mem_cons,not_or] at free
    rw [← full,List.length_cons,List.cons_append,fgetsFrom,if_neg (Ne.symm free.1),ih free.2 rfl]

theorem fgetsFrom_last {room : Nat} {line : Str} (free : 10 ∉ line) (short : line.length ≤ room) :
    fgetsFrom room line = (line,[]) := by
  induction line generalizing room with
  | nil => cases room <;> rfl
  | cons c line ih =>
    rw [List.mem_cons,not_or] at free
    rw [List.length_cons] at short
    cases room with
    | zero => omega
    | succ room => rw [fgetsFrom,if_neg (Ne.symm free.1),ih free.2 (by omega)]

theorem cString_clean {buf : Str} (clean : 0 ∉ buf) : cString buf = buf := by
  apply List.takeWhile_eq_self_iff.mpr
  intro c member
  exact decide_eq_true fun zero => clean (zero ▸ member)

theorem stripLf_free {line : Str} (free : 10 ∉ line) : stripLf line = line := by
  apply if_neg
  intro ends
  exact free (List.mem_of_getLast? ends)

theorem stripLf_ended (line : Str) : stripLf (line ++ [10]) = line := by
  rw [stripLf,if_pos List.getLast?_concat,List.dropLast_concat]

/-- Without a zero byte the two readers answer and go on alike. -/
theorem readLine_eq_libc {stdin : Str} (clean : 0 ∉ stdin) : readLine stdin = readLineLibc stdin := by
  obtain rfl | ⟨line,rest,rfl,free,short⟩ | ⟨some_,free,short⟩ | ⟨line,rest,rfl,free,full⟩ := reading_cases stdin
  · rfl
  · have cleanLine : 0 ∉ line ++ [10] := by
      intro member
      rcases List.mem_append.mp member with early | last
      · exact clean (List.mem_append_left _ early)
      · exact absurd (List.mem_singleton.mp last) (by decide)
    rw [readLine_ended free short,readLineLibc,fgets,if_neg (by simp),fgetsFrom_ended free (by unfold bufSize; omega)]
    change _ = ((Except.ok (stripCr (stripLf (cString (line ++ [10]))))),rest)
    rw [cString_clean cleanLine,stripLf_ended]
  · rw [readLine_last free some_ short,readLineLibc,fgets,if_neg some_,fgetsFrom_last free (by unfold bufSize; omega)]
    change _ = ((Except.ok (stripCr (stripLf (cString stdin)))),[])
    rw [cString_clean clean,stripLf_free free]
  · have some_ : line ++ rest ≠ [] := fun none => by
      have := congrArg List.length none
      rw [List.length_append,List.length_nil] at this
      omega
    rw [readLine_full free full,readLineLibc,fgets,if_neg some_,fgetsFrom_full free (by unfold bufSize; omega)]
    change _ = ((Except.ok (stripCr (stripLf (cString line)))),rest)
    rw [cString_clean fun zero => clean (List.mem_append_left _ zero),stripLf_free free]

theorem line_induction {P : Str → Prop} (last : ∀ line, 10 ∉ line → P line)
    (ended : ∀ line rest, 10 ∉ line → P rest → P (line ++ 10 :: rest)) (stdin : Str) : P stdin :=
  segment_induction last ended stdin

theorem lines_free {line : Str} (free : 10 ∉ line) : lines line = if line = [] then [] else [line] := by
  rw [lines,segments_free free]
  rfl

theorem lines_ended {line : Str} (free : 10 ∉ line) (rest : Str) :
    lines (line ++ 10 :: rest) = stripCr line :: lines rest := by
  rw [lines,segments_ended free]
  rfl

/-- What stands before a text makes at most one line more of it. -/
theorem lines_append {line : Str} (free : 10 ∉ line) (rest : Str) :
    (lines (line ++ rest)).length ≤ (lines rest).length + 1 := by
  have both {other : Str} (free' : 10 ∉ other) : 10 ∉ line ++ other := by
    rw [List.mem_append]
    exact not_or.mpr ⟨free,free'⟩
  induction rest using line_induction with
  | last other free' =>
    rw [lines_free (both free')]
    split
    · exact Nat.zero_le _
    · exact Nat.le_add_left _ _
  | ended other rest free' _ =>
    rw [← List.append_assoc,lines_ended (both free'),lines_ended free',List.length_cons,List.length_cons]
    omega

/-- A call does not fail as long as there are lines, and neither do those after it. -/
theorem calls_answer (n : Nat) (stdin : Str) (left : n ≤ (lines stdin).length) : failed ∉ calls readLine n stdin := by
  induction n generalizing stdin with
  | zero => exact List.not_mem_nil
  | succ n ih =>
    have go {line rest : Str} (step : readLine stdin = (.ok line,rest)) (more : n ≤ (lines rest).length) :
        failed ∉ calls readLine (n + 1) stdin := by
      rw [calls,step,List.mem_cons,not_or]
      exact ⟨by simp [failed],ih rest more⟩
    obtain rfl | ⟨line,rest,rfl,free,short⟩ | ⟨some_,free,short⟩ | ⟨line,rest,rfl,free,full⟩ := reading_cases stdin
    · cases left
    · apply go (readLine_ended free short rest)
      rw [lines_ended free,List.length_cons] at left
      omega
    · apply go (readLine_last free some_ short)
      rw [lines_free free,if_neg some_,List.length_singleton] at left
      omega
    · apply go (readLine_full free full rest)
      have := lines_append free rest
      omega

theorem readLine_answers {stdin : Str} (some_ : stdin ≠ []) : (readLine stdin).1 ≠ failed := by
  obtain none | ⟨line,rest,rfl,free,short⟩ | ⟨-,free,short⟩ | ⟨line,rest,rfl,free,full⟩ := reading_cases stdin
  · exact absurd none some_
  · rw [readLine_ended free short]
    exact fun h => nomatch h
  · rw [readLine_last free some_ short]
    exact fun h => nomatch h
  · rw [readLine_full free full]
    exact fun h => nomatch h

theorem stripCr_whole {line : Str} (whole : line.getLast? ≠ some 13) : stripCr line = line := if_neg whole

theorem stripCr_eq_self {line : Str} (same : stripCr line = line) : line.getLast? ≠ some 13 := by
  intro ends
  rw [stripCr,if_pos ends] at same
  have shorter := congrArg List.length same
  have some_ : line ≠ [] := by
    rintro rfl
    cases ends
  have := List.length_pos_iff.mpr some_
  rw [List.length_dropLast] at shorter
  omega

/-- What fits, apart from the zero bytes -/
structure Short (stdin : Str) : Prop where
  short : ∀ line ∈ (segments 10 stdin).1, line.length ≤ 4094
  shortEnd : (segments 10 stdin).2.length ≤ 4095
  whole : (segments 10 stdin).2.getLast? ≠ some 13

theorem short_free {line : Str} (free : 10 ∉ line) : Short line ↔ line.length ≤ 4095 ∧ line.getLast? ≠ some 13 := by
  have cut := segments_free free
  constructor
  · intro fits
    have shortEnd := fits.shortEnd
    have whole := fits.whole
    rw [cut] at shortEnd whole
    exact ⟨shortEnd,whole⟩
  · intro both
    refine ⟨?_,?_,?_⟩
    · rw [cut]
      exact fun _ absent => absurd absent List.not_mem_nil
    · rw [cut]
      exact both.1
    · rw [cut]
      exact both.2

theorem short_ended {line : Str} (free : 10 ∉ line) (rest : Str) :
    Short (line ++ 10 :: rest) ↔ line.length ≤ 4094 ∧ Short rest := by
  have cut := segments_ended free rest
  constructor
  · intro fits
    have short := fits.short
    have shortEnd := fits.shortEnd
    have whole := fits.whole
    rw [cut] at short shortEnd whole
    exact ⟨short line List.mem_cons_self,fun other listed => short other (List.mem_cons_of_mem _ listed),shortEnd,whole⟩
  · intro both
    refine ⟨?_,?_,?_⟩
    · rw [cut]
      exact List.forall_mem_cons.mpr ⟨both.1,both.2.short⟩
    · rw [cut]
      exact both.2.shortEnd
    · rw [cut]
      exact both.2.whole

/-- The reader without the C library answers the lines of an input that fits. -/
theorem calls_of_short (stdin : Str) (fits : Short stdin) (n : Nat) :
    calls readLine n stdin = padded failed n ((lines stdin).map .ok) := by
  have ending (n : Nat) : calls readLine n [] = padded failed n [] :=
    calls_at_end (show readLine [] = (failed,[]) from rfl) n
  induction stdin using line_induction generalizing n with
  | last line free =>
    obtain ⟨short,whole⟩ := (short_free free).mp fits
    rw [lines_free free]
    split
    next none =>
      rw [none]
      exact ending n
    next some_ =>
      cases n with
      | zero => rfl
      | succ n =>
        rw [calls,readLine_last free some_ short,stripCr_whole whole,ending]
        rfl
  | ended line rest free ih =>
    obtain ⟨short,fits'⟩ := (short_ended free rest).mp fits
    cases n with
    | zero => rfl
    | succ n =>
      rw [calls,readLine_ended free short,lines_ended free,ih fits' n]
      rfl

/-- Where the lines are answered they fit: one that is too long takes a call more than there are lines. -/
theorem short_of_calls (stdin : Str) (reads : ∀ n, calls readLine n stdin = padded failed n ((lines stdin).map .ok)) :
    Short stdin := by
  induction stdin using line_induction with
  | last line free =>
    by_cases none : line = []
    · rw [none]
      exact (short_free List.not_mem_nil).mpr ⟨Nat.zero_le _,(fun h => nomatch h)⟩
    rw [lines_free free,if_neg none] at reads
    by_cases short : line.length ≤ 4095
    · have first := reads 1
      rw [calls,readLine_last free none short] at first
      have same : stripCr line = line := Except.ok.inj (List.cons.inj first).1
      exact (short_free free).mpr ⟨short,stripCr_eq_self same⟩
    · have second := reads 2
      have free' : 10 ∉ line.take 4095 := fun member => free (List.mem_of_mem_take member)
      have step := readLine_full free' (by rw [List.length_take]; omega) (line.drop 4095)
      rw [List.take_append_drop] at step
      rw [calls,calls,step] at second
      have fails : (readLine (line.drop 4095)).1 = failed := (List.cons.inj (List.cons.inj second).2).1
      have more : line.drop 4095 ≠ [] := fun empty => by
        have := List.drop_eq_nil_iff.mp empty
        omega
      exact absurd fails (readLine_answers more)
  | ended line rest free ih =>
    rw [lines_ended free] at reads
    by_cases short : line.length ≤ 4094
    · refine (short_ended free rest).mpr ⟨short,ih ?_⟩
      intro n
      have next := reads (n + 1)
      rw [calls,readLine_ended free short] at next
      exact (List.cons.inj next).2
    · have free' : 10 ∉ line.take 4095 := fun member => free (List.mem_of_mem_take member)
      have freeDrop : 10 ∉ line.drop 4095 := fun member => free (List.mem_of_mem_drop member)
      have step := readLine_full free' (by rw [List.length_take]; omega) (line.drop 4095 ++ 10 :: rest)
      rw [← List.append_assoc,List.take_append_drop] at step
      have all := reads ((lines rest).length + 2)
      have count : (((stripCr line :: lines rest).map Except.ok : List (Except String Str))).length =
          (lines rest).length + 1 := by rw [List.length_map,List.length_cons]
      have expected := padded_succ failed ((stripCr line :: lines rest).map Except.ok)
      rw [count] at expected
      rw [expected,calls,step] at all
      have quiet := calls_answer ((lines rest).length + 1) (line.drop 4095 ++ 10 :: rest) (by
        rw [lines_ended freeDrop,List.length_cons])
      have tail := (List.cons.inj all).2
      rw [tail] at quiet
      exact absurd (List.mem_append_right _ (List.mem_singleton_self _)) quiet

theorem readLine_clean {stdin : Str} (clean : 0 ∉ stdin) : 0 ∉ (readLine stdin).2 := by
  obtain rfl | ⟨line,rest,rfl,free,short⟩ | ⟨some_,free,short⟩ | ⟨line,rest,rfl,free,full⟩ := reading_cases stdin
  · exact clean
  · rw [readLine_ended free short]
    exact fun zero => clean (List.mem_append_right _ (List.mem_cons_of_mem _ zero))
  · rw [readLine_last free some_ short]
    exact List.not_mem_nil
  · rw [readLine_full free full]
    exact fun zero => clean (List.mem_append_right _ zero)

theorem mem_stripCr {line : Str} {c : UInt8} (listed : c ∈ stripCr line) : c ∈ line := by
  unfold stripCr at listed
  split at listed
  · exact List.dropLast_subset _ listed
  · exact listed

theorem mem_stripLf {line : Str} {c : UInt8} (listed : c ∈ stripLf line) : c ∈ line := by
  unfold stripLf at listed
  split at listed
  · exact List.dropLast_subset _ listed
  · exact listed

/-- The C library's reader never answers a zero byte. -/
theorem libc_clean (stdin : Str) {line : Str} (answered : (readLineLibc stdin).1 = .ok line) : 0 ∉ line := by
  unfold readLineLibc at answered
  split at answered
  · cases answered
  · cases answered
    intro zero
    have inside := mem_stripLf (mem_stripCr zero)
    have visible := List.mem_takeWhile_imp inside
    exact absurd visible (by decide)

theorem calls_libc_clean (n : Nat) (stdin line : Str) (answered : .ok line ∈ calls readLineLibc n stdin) :
    0 ∉ line := by
  induction n generalizing stdin with
  | zero => exact absurd answered List.not_mem_nil
  | succ n ih =>
    rw [calls] at answered
    rcases List.mem_cons.mp answered with first | later
    · exact libc_clean stdin first.symm
    · exact ih _ later

theorem zero_of_stripCr {line : Str} (zero : 0 ∈ line) : 0 ∈ stripCr line := by
  unfold stripCr
  split
  next ends =>
    obtain ⟨before,rfl⟩ := List.getLast?_eq_some_iff.mp ends
    rw [List.dropLast_concat]
    rcases List.mem_append.mp zero with early | last
    · exact early
    · exact absurd (List.mem_singleton.mp last) (by decide)
  next => exact zero

/-- A zero byte of the input stands in one of its lines. -/
theorem zero_in_lines (stdin : Str) (clean : ∀ line ∈ lines stdin, 0 ∉ line) : 0 ∉ stdin := by
  induction stdin using line_induction with
  | last line free =>
    rw [lines_free free] at clean
    split at clean
    next none =>
      rw [none]
      exact List.not_mem_nil
    next => exact clean line (List.mem_singleton_self _)
  | ended line rest free ih =>
    rw [lines_ended free] at clean
    intro zero
    rcases List.mem_append.mp zero with early | late
    · exact clean _ List.mem_cons_self (zero_of_stripCr early)
    · rcases List.mem_cons.mp late with feed | later
      · exact absurd feed (by decide)
      · exact ih (fun other listed => clean other (List.mem_cons_of_mem _ listed)) later

/-- Both readers answer the lines of an input exactly if they fit. -/
theorem reads_lines_iff (stdin : Str) : ReadsLines stdin ↔ LinesFit stdin := by
  constructor
  · intro reads
    have short := short_of_calls stdin reads.freestanding
    refine ⟨?_,short.short,short.shortEnd,short.whole⟩
    apply zero_in_lines
    intro line listed
    apply calls_libc_clean (lines stdin).length stdin line
    have count : ((lines stdin).map Except.ok : List (Except String Str)).length = (lines stdin).length :=
      List.length_map _
    have all := padded_length failed ((lines stdin).map Except.ok)
    rw [count] at all
    rw [reads.libc,all]
    exact List.mem_map_of_mem listed
  · intro fits
    have free := calls_of_short stdin ⟨fits.short,fits.shortEnd,fits.whole⟩
    have same := fun n => calls_eq (fun s => 0 ∉ s) (fun _ => readLine_eq_libc) (fun _ => readLine_clean) n stdin
      fits.noNul
    exact ⟨free,fun n => (same n).symm.trans (free n),same⟩

/-- Behind a zero byte the C library's reader loses the line. -/
theorem reads_lines_lost : ¬ReadsLines [97,0,98,10] := by
  intro reads
  exact absurd (reads.agree 1) (by decide)

end Oscan.Runtime.ReadLine
