import Oscan.Library.Transfer
import Oscan.Runtime.Strings

/-! Whole files read and written, and texts written to a stream, where every call of the system may move a part of
what it is asked to or fail. -/
namespace Oscan.Runtime.FileTransfer
open Library.Transfer Strings

/-- An `osc_str` of the program, whose length is an `int32_t` -/
structure OscStr where
  data : Str
  short : data.length < 2^31

/-- An `osc_str` that a function makes: its bytes, and the number put into its length -/
structure Made where
  bytes : Str
  len : Int

/-- The file, whether it opens and its size is told, and what the calls that move bytes answer -/
structure System where
  content : Str
  opens : Bool
  stats : Bool
  answers : Answers

/-- The runtime on the system alone, or over the C library -/
inductive Mode where
  | freestanding
  | libc

/-- The amount of a call, which goes through `unsigned` in front of the C library -/
def Mode.amount : Mode → Nat → Nat
  | .freestanding,n => n
  | .libc,n => n % 2^32

/-- The count of a call, which the C library's callers keep in an `int` -/
def Mode.count : Mode → Nat → Int
  | .freestanding,n => n
  | .libc,n => Int.bmod n (2^32)

/-- `n` of a call for the bytes left, where a failure is -1 -/
def Mode.call (mode : Mode) (answers : Answers) (left : Nat) : Int :=
  match answers 0 with
  | some more => mode.count (moved more (mode.amount left))
  | none => -1

/-- The loop of `osc_read_file`, which ends at the first call that moves nothing -/
def readLoop (mode : Mode) (content : Str) (answers : Answers) (total : Nat) (buf : Str) : Nat × Str :=
  if total < content.length then
    let n := mode.call answers (content.length - total)
    if 0 < n then
      readLoop mode content (later answers) (total + n.toNat) (buf ++ slice content total n.toNat)
    else (total,buf)
  else (total,buf)
termination_by content.length - total
decreasing_by omega

/-- `osc_read_file`, with how many times it closes the file -/
def readFile (mode : Mode) (sys : System) : Except String Made × Nat :=
  if !sys.opens then (.error "read_file: cannot open file",0)
  else if !sys.stats then (.error "read_file: cannot stat file",1)
  else
    let (total,buf) := readLoop mode sys.content sys.answers 0 []
    (.ok ⟨buf,Int.bmod total (2^32)⟩,1)

/-- The loop of `osc_write_file`: what is in the file, and whether all of it is -/
def writeLoop (mode : Mode) (data : Str) (answers : Answers) (total : Nat) (written : Str) : Str × Bool :=
  if total < data.length then
    let n := mode.call answers (data.length - total)
    if 0 < n then
      writeLoop mode data (later answers) (total + n.toNat) (written ++ slice data total n.toNat)
    else (written,false)
  else (written,true)
termination_by data.length - total
decreasing_by omega

/-- `osc_write_file`, with what is in the file then and how many times it closes it -/
def writeFile (mode : Mode) (sys : System) (data : OscStr) : Except String Made × Str × Nat :=
  if !sys.opens then (.error "write_file: cannot open file",[],0)
  else
    match writeLoop mode data.data sys.answers 0 [] with
    | (written,false) => (.error "write_file: write failed",written,1)
    | (written,true) => (.ok ⟨[],0⟩,written,1)

/-- What one call writes of the bytes -/
def writeOnce (mode : Mode) (answers : Answers) (bytes : Str) : Str :=
  match answers 0 with
  | some more => bytes.take (moved more (mode.amount bytes.length))
  | none => []

/-- What `fwrite` and `fflush` write: the C library asks again for the rest until a call fails. -/
def flush (answers : Answers) (bytes : Str) : Str := bytes.take (retry answers bytes.length)

def writeStr (mode : Mode) (answers : Answers) (s : OscStr) : Str :=
  if 0 < s.data.length then writeOnce mode answers s.data else []

def print (mode : Mode) (answers : Answers) (s : OscStr) : Str :=
  match mode with
  | .freestanding => if 0 < s.data.length then writeOnce .freestanding answers s.data else []
  | .libc => flush answers s.data

def println (mode : Mode) (answers : Answers) (s : OscStr) : Str :=
  match mode with
  | .freestanding =>
    if 0 < s.data.length then
      writeOnce .freestanding answers s.data ++ writeOnce .freestanding (later answers) [10]
    else writeOnce .freestanding answers [10]
  | .libc => flush answers (s.data ++ [10])

inductive Operation where
  | readFile
  | writeFile (data : OscStr)
  | writeStr (s : OscStr)
  | print (s : OscStr)
  | println (s : OscStr)

/-- The file that was opened is closed once. -/
def closings (sys : System) : Nat := if sys.opens then 1 else 0

/-- No byte is lost: what is read is the file with its length, what is written is the data or an error, a text is
written once and whole, and a file that was opened is closed once. -/
def Lossless (mode : Mode) (sys : System) : Operation → Prop
  | .readFile =>
    (∀ made, (readFile mode sys).1 = .ok made → made.bytes = sys.content ∧ made.len = sys.content.length) ∧
      (readFile mode sys).2 = closings sys
  | .writeFile data =>
    (∀ made, (writeFile mode sys data).1 = .ok made → (writeFile mode sys data).2.1 = data.data) ∧
      (writeFile mode sys data).2.2 = closings sys
  | .writeStr s => writeStr mode sys.answers s = s.data
  | .print s => print mode sys.answers s = s.data
  | .println s => println mode sys.answers s = s.data ++ [10]

/-- The first call moves all that is asked for. -/
def AtOnce (answers : Answers) (amount : Nat) : Prop := ∃ more, answers 0 = some more ∧ amount ≤ more + 1

/-- What the calls must answer for an operation to lose nothing -/
def Answered (mode : Mode) (sys : System) : Operation → Prop
  | .readFile => sys.opens → sys.stats → sys.content.length < 2^31 ∧ Enough sys.answers sys.content.length
  | .writeFile _ => True
  | .writeStr s => s.data ≠ [] → AtOnce sys.answers s.data.length
  | .print s =>
    match mode with
    | .freestanding => s.data ≠ [] → AtOnce sys.answers s.data.length
    | .libc => Enough sys.answers s.data.length
  | .println s =>
    match mode with
    | .freestanding =>
      if s.data = [] then AtOnce sys.answers 1
      else AtOnce sys.answers s.data.length ∧ AtOnce (later sys.answers) 1
    | .libc => Enough sys.answers (s.data.length + 1)

theorem amount_small (mode : Mode) {n : Nat} (small : n < 2^31) : mode.amount n = n := by
  cases mode with
  | freestanding => rfl
  | libc => exact Nat.mod_eq_of_lt (by omega)

theorem bmod_small {n : Nat} (small : n < 2^31) : (n : Int).bmod (2^32) = n := by
  rw [Int.bmod_def]
  omega

theorem count_small (mode : Mode) {n : Nat} (small : n < 2^31) : mode.count n = n := by
  cases mode with
  | freestanding => rfl
  | libc =>
    unfold Mode.count
    exact bmod_small small

theorem call_none (mode : Mode) {answers : Answers} (fails : answers 0 = none) (left : Nat) :
    mode.call answers left = -1 := by
  rw [Mode.call,fails]

/-- A call for fewer than 2^31 bytes answers what it moves. -/
theorem call_some (mode : Mode) {answers : Answers} {more left : Nat} (first : answers 0 = some more)
    (small : left < 2^31) : mode.call answers left = moved more left := by
  have most := moved_le more left
  rw [Mode.call,first]
  simp only
  rw [amount_small mode small,count_small mode (by omega)]

theorem slice_grow (s : Str) (total n : Nat) : s.take total ++ slice s total n = s.take (total + n) :=
  List.take_add.symm

/-- As long as sizes fit an `int`, both loops move what the library's loop moves of the rest. -/
theorem readLoop_eq (mode : Mode) {content : Str} (small : content.length < 2^31) (answers : Answers) (total : Nat) :
    readLoop mode content answers total (content.take total) =
      (total + retry answers (content.length - total),content.take (total + retry answers (content.length - total))) := by
  induction left : content.length - total using Nat.strongRecOn generalizing answers total with
  | _ amount ih =>
    by_cases some_ : 0 < amount
    · cases first : answers 0 with
      | none =>
        rw [readLoop,if_pos (by omega),call_none mode first,retry_fails first]
        rfl
      | some more =>
        have positive := moved_pos some_ more
        have most := moved_le more amount
        have rest := ih (amount - moved more amount) (by omega) (later answers) (total + moved more amount) (by omega)
        rw [readLoop,if_pos (by omega),left,call_some mode first (by omega),retry_step some_ first]
        simp only [Int.toNat_natCast,slice_grow]
        rw [if_pos (by omega),rest,Nat.add_assoc]
    · rw [readLoop,if_neg (by omega),Nat.eq_zero_of_not_pos some_,retry_zero]
      rfl

theorem writeLoop_eq (mode : Mode) {data : Str} (small : data.length < 2^31) (answers : Answers) (total : Nat)
    (within : total ≤ data.length) : writeLoop mode data answers total (data.take total) =
      (data.take (total + retry answers (data.length - total)),
        decide (retry answers (data.length - total) = data.length - total)) := by
  induction left : data.length - total using Nat.strongRecOn generalizing answers total with
  | _ amount ih =>
    by_cases some_ : 0 < amount
    · cases first : answers 0 with
      | none =>
        rw [writeLoop,if_pos (by omega),call_none mode first,retry_fails first]
        rw [if_neg (by decide),decide_eq_false (by omega)]
        rfl
      | some more =>
        have positive := moved_pos some_ more
        have most := moved_le more amount
        have rest := ih (amount - moved more amount) (by omega) (later answers) (total + moved more amount) (by omega)
          (by omega)
        rw [writeLoop,if_pos (by omega),left,call_some mode first (by omega),retry_step some_ first]
        simp only [Int.toNat_natCast,slice_grow]
        rw [if_pos (by omega),rest,Nat.add_assoc]
        congr 1
        exact decide_eq_decide.mpr (by omega)
    · rw [writeLoop,if_neg (by omega),Nat.eq_zero_of_not_pos some_,retry_zero]
      rfl

theorem take_whole_iff {s : Str} {n : Nat} (within : n ≤ s.length) : s.take n = s ↔ n = s.length := by
  rw [List.take_eq_self_iff]
  omega

theorem writeOnce_iff (mode : Mode) (answers : Answers) {bytes : Str} (small : bytes.length < 2^31)
    (some_ : bytes ≠ []) : writeOnce mode answers bytes = bytes ↔ AtOnce answers bytes.length := by
  unfold writeOnce AtOnce
  cases first : answers 0 with
  | none =>
    constructor
    · intro same
      exact absurd same.symm some_
    · rintro ⟨more,given,-⟩
      cases given
  | some more =>
    rw [amount_small mode small]
    constructor
    · intro same
      refine ⟨more,rfl,?_⟩
      have whole := (take_whole_iff (moved_le more bytes.length)).mp same
      unfold moved at whole
      omega
    · rintro ⟨_,⟨⟩,enough⟩
      apply (take_whole_iff (moved_le more bytes.length)).mpr
      unfold moved
      omega

theorem flush_iff (answers : Answers) (bytes : Str) : flush answers bytes = bytes ↔ Enough answers bytes.length := by
  rw [flush,take_whole_iff (retry_le answers bytes.length),retry_eq_iff]

theorem lossless_readFile (mode : Mode) (sys : System) :
    Lossless mode sys .readFile ↔ Answered mode sys .readFile := by
  cases opens : sys.opens with
  | false =>
    have run : readFile mode sys = (.error "read_file: cannot open file",0) := if_pos (by rw [opens]; rfl)
    simp only [Lossless,Answered,run,closings,opens,Bool.false_eq_true,if_false,and_true,false_implies,iff_true]
    exact fun _ h => nomatch h
  | true =>
  cases stats : sys.stats with
  | false =>
    have run : readFile mode sys = (.error "read_file: cannot stat file",1) :=
      (if_neg (by rw [opens]; decide)).trans (if_pos (by rw [stats]; rfl))
    simp only [Lossless,Answered,run,closings,opens,stats,if_true,and_true,Bool.false_eq_true,false_implies,
      implies_true,iff_true]
    exact fun _ h => nomatch h
  | true =>
  have run : readFile mode sys = (.ok ⟨(readLoop mode sys.content sys.answers 0 []).2,
      Int.bmod (readLoop mode sys.content sys.answers 0 []).1 (2^32)⟩,1) :=
    (if_neg (by rw [opens]; decide)).trans (if_neg (by rw [stats]; decide))
  simp only [Lossless,Answered,run,closings,opens,stats,if_true,and_true,Except.ok.injEq,forall_eq',forall_const]
  by_cases small : sys.content.length < 2^31
  · have loop := readLoop_eq mode small sys.answers 0
    rw [List.take_zero,Nat.sub_zero,Nat.zero_add] at loop
    have most := retry_le sys.answers sys.content.length
    simp only [loop,small,true_and,← retry_eq_iff,bmod_small (show retry sys.answers sys.content.length < 2^31 by omega)]
    constructor
    · intro whole
      exact Int.ofNat_inj.mp whole.2
    · intro all
      exact ⟨(take_whole_iff most).mpr all,congrArg Nat.cast all⟩
  · constructor
    · intro whole
      have most := Int.bmod_lt (x := ((readLoop mode sys.content sys.answers 0 []).1 : Int)) (m := 2^32) (by decide)
      omega
    · intro both
      exact absurd both.1 small

theorem lossless_writeFile (mode : Mode) (sys : System) (data : OscStr) : Lossless mode sys (.writeFile data) := by
  simp only [Lossless,closings]
  cases opens : sys.opens with
  | false =>
    have run : writeFile mode sys data = (.error "write_file: cannot open file",[],0) := if_pos (by rw [opens]; rfl)
    rw [run]
    exact ⟨(fun _ h => nomatch h),rfl⟩
  | true =>
    have loop := writeLoop_eq mode data.short sys.answers 0 (Nat.zero_le _)
    rw [List.take_zero,Nat.sub_zero,Nat.zero_add] at loop
    by_cases all : retry sys.answers data.data.length = data.data.length
    · rw [decide_eq_true all,all,List.take_length] at loop
      have run : writeFile mode sys data = (.ok ⟨[],0⟩,data.data,1) := by
        rw [writeFile,if_neg (by rw [opens]; decide),loop]
      rw [run]
      exact ⟨fun _ _ => rfl,rfl⟩
    · rw [decide_eq_false all] at loop
      have run : writeFile mode sys data =
          (.error "write_file: write failed",data.data.take (retry sys.answers data.data.length),1) := by
        rw [writeFile,if_neg (by rw [opens]; decide),loop]
      rw [run]
      exact ⟨(fun _ h => nomatch h),rfl⟩

theorem lossless_writeStr (mode : Mode) (sys : System) (s : OscStr) :
    Lossless mode sys (.writeStr s) ↔ Answered mode sys (.writeStr s) := by
  simp only [Lossless,Answered,writeStr]
  by_cases some_ : s.data = []
  · rw [some_]
    simp only [List.length_nil,Nat.lt_irrefl,if_false,ne_eq,not_true_eq_false,false_implies]
  · rw [if_pos (List.length_pos_iff.mpr some_),writeOnce_iff mode _ s.short some_]
    exact ⟨fun done _ => done,fun done => done some_⟩

/-- The first call writes all of a text, or the text behind it is not where it should be. -/
theorem println_iff (answers : Answers) {s : OscStr} (some_ : s.data ≠ []) :
    writeOnce .freestanding answers s.data ++ writeOnce .freestanding (later answers) [10] = s.data ++ [10] ↔
      AtOnce answers s.data.length ∧ AtOnce (later answers) 1 := by
  have newline : writeOnce .freestanding (later answers) [10] = [10] ↔ AtOnce (later answers) 1 :=
    writeOnce_iff .freestanding (later answers) (by decide) (by decide)
  rw [← writeOnce_iff .freestanding answers s.short some_,← newline]
  constructor
  · intro both
    have sizes := congrArg List.length both
    have first : (writeOnce .freestanding answers s.data).length ≤ s.data.length := by
      unfold writeOnce
      split
      · rw [List.length_take]
        omega
      · exact Nat.zero_le _
    have second : (writeOnce .freestanding (later answers) [10]).length ≤ 1 := by
      unfold writeOnce
      split
      · rw [List.length_take,List.length_singleton]
        omega
      · exact Nat.zero_le _
    rw [List.length_append,List.length_append,List.length_singleton] at sizes
    exact List.append_inj both (by omega)
  · intro both
    rw [both.1,both.2]

/-- An operation loses no byte exactly if its calls answer as it takes for granted: a read does not fail before the
file is read, the file has a length, a text that is written in one call is moved at once. -/
theorem lossless_iff (mode : Mode) (sys : System) (operation : Operation) :
    Lossless mode sys operation ↔ Answered mode sys operation := by
  cases operation with
  | readFile => exact lossless_readFile mode sys
  | writeFile data => exact ⟨fun _ => trivial,fun _ => lossless_writeFile mode sys data⟩
  | writeStr s => exact lossless_writeStr mode sys s
  | print s =>
    cases mode with
    | freestanding => exact lossless_writeStr .freestanding sys s
    | libc => exact flush_iff sys.answers s.data
  | println s =>
    cases mode with
    | freestanding =>
      simp only [Lossless,Answered,println]
      by_cases some_ : s.data = []
      · simp only [some_,List.length_nil,Nat.lt_irrefl,if_false,if_true,List.nil_append]
        exact writeOnce_iff .freestanding _ (by decide) (by decide)
      · simp only [if_pos (List.length_pos_iff.mpr some_),if_neg some_]
        exact println_iff sys.answers some_
    | libc =>
      have whole := flush_iff sys.answers (s.data ++ [10])
      rw [List.length_append] at whole
      exact whole

/-- A file of one byte whose read fails is answered as an empty one. -/
theorem lossless_lost : ¬Lossless .freestanding ⟨[97],true,true,fun _ => none⟩ .readFile := by
  intro lossless
  have enough := ((lossless_readFile _ _).mp lossless rfl rfl).2
  exact not_enough (by decide) rfl enough

end Oscan.Runtime.FileTransfer
