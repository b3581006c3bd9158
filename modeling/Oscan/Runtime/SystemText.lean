import Oscan.Runtime.FileTransfer
import Oscan.Runtime.ReadLine

/-! The operations that hand text to the operating system: each copies its strings into buffers of fixed sizes as C
strings, and makes one call with them. -/
namespace Oscan.Runtime.SystemText
open FileTransfer (OscStr)
open ReadLine (cString)

/-- The runtime on the system alone, or over the C library of a POSIX system or of Windows -/
inductive Platform where
  | freestanding
  | posix
  | windows

inductive Access where
  | read
  | write
  | append

/-- What the system is asked, with the texts as it reads them -/
inductive Call where
  | openFile (path : Str) (access : Access)
  | unlink (path : Str)
  | rename (old new : Str)
  | access (path : Str)
  | stat (path : Str)
  | mkdir (path : Str)
  | rmdir (path : Str)
  | chdir (path : Str)
  | opendir (path : Str)
  | findFirst (pattern : Str)
  | getenv (name : Str)
  | setenv (name value : Str)
  | unsetenv (name : Str)
  | spawn (file : Str) (argv : List Str)
  | system (line : Str)

inductive Reply where
  | done
  | error (message : String)
  | value (v : Int)
deriving DecidableEq

/-- An operation as far as its call, and its reply to the answer when that tells of a failure -/
structure Handing where
  call : Call
  reply : Int → Reply

/-- `osc_path_to_cstr`: the bytes of the buffer -/
def pathToCstr (path : OscStr) (bufsz : Nat) : Str :=
  let len := path.data.length
  let len := if bufsz ≤ len then bufsz - 1 else len
  path.data.take len ++ [0]

/-- `osc_str_to_cstr_buf` -/
def strToCstrBuf (s : OscStr) (bufsz : Nat) : Str :=
  let len := if s.data.length < bufsz - 1 then s.data.length else bufsz - 1
  s.data.take len ++ [0]

/-- The operations differ in the call, in the answers that are failures and in what they reply to those. -/
def hand (call : Call) (fails : Int → Bool) (no : Reply) : Handing :=
  ⟨call,fun answer => if fails answer then no else .done⟩

def negative (answer : Int) : Bool := answer < 0

def nonzero (answer : Int) : Bool := answer ≠ 0

def fileOpenRead (path : OscStr) : Handing :=
  hand (.openFile (cString (pathToCstr path 4096)) .read) negative (.error "file_open_read: cannot open file")

def fileOpenWrite (path : OscStr) : Handing :=
  hand (.openFile (cString (pathToCstr path 4096)) .write) negative (.error "file_open_write: cannot open file")

def fileOpenAppend (path : OscStr) : Handing :=
  hand (.openFile (cString (strToCstrBuf path 1024)) .append) negative (.error "file_open_append: cannot open file")

def fileDelete (platform : Platform) (path : OscStr) : Handing :=
  hand (.unlink (cString (pathToCstr path 4096)))
    (match platform with | .freestanding => negative | .posix | .windows => nonzero)
    (.error "file_delete: cannot delete file")

def readFile (path : OscStr) : Handing :=
  hand (.openFile (cString (pathToCstr path 4096)) .read) negative (.error "read_file: cannot open file")

def writeFile (path : OscStr) : Handing :=
  hand (.openFile (cString (pathToCstr path 4096)) .write) negative (.error "write_file: cannot open file")

def fileRename (old new : OscStr) : Handing :=
  hand (.rename (cString (strToCstrBuf old 1024)) (cString (strToCstrBuf new 1024))) nonzero
    (.error "file_rename: cannot rename file")

def fileExists (path : OscStr) : Handing := hand (.access (cString (strToCstrBuf path 1024))) nonzero (.value 0)

def fileSize (path : OscStr) : Handing := hand (.stat (cString (strToCstrBuf path 1024))) nonzero (.value (-1))

def pathExists (path : OscStr) : Handing := hand (.stat (cString (strToCstrBuf path 4096))) nonzero (.value 0)

def pathIsDir (path : OscStr) : Handing := hand (.stat (cString (strToCstrBuf path 4096))) nonzero (.value 0)

def dirCreate (path : OscStr) : Handing :=
  hand (.mkdir (cString (strToCstrBuf path 1024))) nonzero (.error "dir_create: cannot create directory")

def dirRemove (path : OscStr) : Handing :=
  hand (.rmdir (cString (strToCstrBuf path 1024))) nonzero (.error "dir_remove: cannot remove directory")

def dirChange (path : OscStr) : Handing :=
  hand (.chdir (cString (strToCstrBuf path 1024))) nonzero (.error "dir_change: cannot change directory")

/-- The pattern on Windows is `%s\*` in a buffer of 1040 bytes; a directory that does not open has no entries. -/
def dirList (platform : Platform) (path : OscStr) : Handing :=
  let dir := cString (strToCstrBuf path 1024)
  match platform with
  | .freestanding | .posix => hand (.opendir dir) nonzero (.value 0)
  | .windows => hand (.findFirst ((dir ++ [92,42]).take 1039)) nonzero (.value 0)

/-- `osc_env_get` copies the name itself, as the helper does it. -/
def envGet (name : OscStr) : Handing :=
  let len := if name.data.length < 255 then name.data.length else 255
  hand (.getenv (cString (name.data.take len ++ [0]))) negative (.error "env_get: variable not found")

def envSet (name value : OscStr) : Handing :=
  hand (.setenv (cString (strToCstrBuf name 256)) (cString (strToCstrBuf value 4096))) nonzero
    (.error "env_set: cannot set environment variable")

def envDelete (name : OscStr) : Handing :=
  hand (.unsetenv (cString (strToCstrBuf name 256))) nonzero (.error "env_delete: cannot delete environment variable")

/-- The first 64 arguments, each in a buffer of 256 bytes -/
def argv (cmd : OscStr) (args : List OscStr) : List Str :=
  cString (strToCstrBuf cmd 1024) :: (args.take 64).map fun s => cString (strToCstrBuf s 256)

/-- On Windows the command goes to `system`, and the arguments nowhere. -/
def procRun (platform : Platform) (cmd : OscStr) (args : List OscStr) : Handing :=
  match platform with
  | .freestanding | .posix => hand (.spawn (cString (strToCstrBuf cmd 1024)) (argv cmd args)) negative (.value (-1))
  | .windows => hand (.system (cString (strToCstrBuf cmd 1024))) negative (.value (-1))

def procSpawn (cmd : OscStr) (args : List OscStr) : Handing :=
  hand (.spawn (cString (strToCstrBuf cmd 1024)) (argv cmd args)) negative (.value (-1))

inductive Operation where
  | fileOpenRead (path : OscStr)
  | fileOpenWrite (path : OscStr)
  | fileOpenAppend (path : OscStr)
  | fileDelete (path : OscStr)
  | readFile (path : OscStr)
  | writeFile (path : OscStr)
  | fileRename (old new : OscStr)
  | fileExists (path : OscStr)
  | fileSize (path : OscStr)
  | pathExists (path : OscStr)
  | pathIsDir (path : OscStr)
  | dirCreate (path : OscStr)
  | dirRemove (path : OscStr)
  | dirChange (path : OscStr)
  | dirList (path : OscStr)
  | envGet (name : OscStr)
  | envSet (name value : OscStr)
  | envDelete (name : OscStr)
  | procRun (cmd : OscStr) (args : List OscStr)
  | procSpawn (cmd : OscStr) (args : List OscStr)

def handing (platform : Platform) : Operation → Handing
  | .fileOpenRead path => fileOpenRead path
  | .fileOpenWrite path => fileOpenWrite path
  | .fileOpenAppend path => fileOpenAppend path
  | .fileDelete path => fileDelete platform path
  | .readFile path => readFile path
  | .writeFile path => writeFile path
  | .fileRename old new => fileRename old new
  | .fileExists path => fileExists path
  | .fileSize path => fileSize path
  | .pathExists path => pathExists path
  | .pathIsDir path => pathIsDir path
  | .dirCreate path => dirCreate path
  | .dirRemove path => dirRemove path
  | .dirChange path => dirChange path
  | .dirList path => dirList platform path
  | .envGet name => envGet name
  | .envSet name value => envSet name value
  | .envDelete name => envDelete name
  | .procRun cmd args => procRun platform cmd args
  | .procSpawn cmd args => procSpawn cmd args

/-- The texts of the program that a call stands for: a pattern is a directory and two signs, and the first of an
argument vector is the command again. -/
def Call.texts : Call → List Str
  | .openFile path _ | .unlink path | .access path | .stat path | .mkdir path | .rmdir path | .chdir path
  | .opendir path => [path]
  | .findFirst pattern => [pattern.take (pattern.length - 2)]
  | .rename old new => [old,new]
  | .getenv name | .unsetenv name => [name]
  | .setenv name value => [name,value]
  | .spawn file argv => file :: argv.drop 1
  | .system line => [line]

/-- The texts that the program gives an operation -/
def Operation.texts : Operation → List Str
  | .fileOpenRead path | .fileOpenWrite path | .fileOpenAppend path | .fileDelete path | .readFile path
  | .writeFile path | .fileExists path | .fileSize path | .pathExists path | .pathIsDir path | .dirCreate path
  | .dirRemove path | .dirChange path | .dirList path => [path.data]
  | .fileRename old new => [old.data,new.data]
  | .envGet name | .envDelete name => [name.data]
  | .envSet name value => [name.data,value.data]
  | .procRun cmd args | .procSpawn cmd args => cmd.data :: args.map OscStr.data

/-- Whatever the system answers, it was handed exactly the texts given, or the reply is a failure. -/
def Exact (platform : Platform) (operation : Operation) : Prop :=
  ∀ answer, (handing platform operation).call.texts = operation.texts ∨
    (handing platform operation).reply answer ≠ .done

/-- The string has no zero byte and leaves room for one in a buffer of the size. -/
def InBuffer (size : Nat) (s : OscStr) : Prop := s.data.length < size ∧ 0 ∉ s.data

/-- At most 64 arguments, each in its buffer -/
def ArgumentsFit (args : List OscStr) : Prop := args.length ≤ 64 ∧ ∀ s ∈ args, InBuffer 256 s

/-- What the buffers of an operation take -/
def TextsFit (platform : Platform) : Operation → Prop
  | .fileOpenRead path | .fileOpenWrite path | .fileDelete path | .readFile path | .writeFile path | .pathExists path
  | .pathIsDir path => InBuffer 4096 path
  | .fileOpenAppend path | .fileExists path | .fileSize path | .dirCreate path | .dirRemove path | .dirChange path
  | .dirList path => InBuffer 1024 path
  | .fileRename old new => InBuffer 1024 old ∧ InBuffer 1024 new
  | .envGet name | .envDelete name => InBuffer 256 name
  | .envSet name value => InBuffer 256 name ∧ InBuffer 4096 value
  | .procRun cmd args =>
    InBuffer 1024 cmd ∧
      match platform with
      | .freestanding | .posix => ArgumentsFit args
      | .windows => args = []
  | .procSpawn cmd args => InBuffer 1024 cmd ∧ ArgumentsFit args

theorem strToCstrBuf_eq (s : OscStr) (size : Nat) : strToCstrBuf s size = s.data.take (size - 1) ++ [0] := by
  unfold strToCstrBuf
  by_cases few : s.data.length < size - 1
  · simp only [if_pos few]
    rw [List.take_of_length_le (Nat.le_refl _),List.take_of_length_le (by omega)]
  · simp only [if_neg few]

theorem pathToCstr_eq (path : OscStr) {size : Nat} (some_ : 0 < size) : pathToCstr path size = strToCstrBuf path size := by
  rw [strToCstrBuf_eq,pathToCstr]
  by_cases many : size ≤ path.data.length
  · simp only [if_pos many]
  · simp only [if_neg many]
    rw [List.take_of_length_le (Nat.le_refl _),List.take_of_length_le (by omega)]

theorem cString_terminated (bytes : Str) : cString (bytes ++ [0]) = cString bytes := by
  induction bytes with
  | nil => rfl
  | cons c bytes ih =>
    by_cases zero : c = 0
    · rw [zero]
      rfl
    · have visible (rest : Str) : cString (c :: rest) = c :: cString rest :=
        List.takeWhile_cons_of_pos (decide_eq_true zero)
      rw [List.cons_append,visible,visible,ih]

/-- The system reads a copied string as it is exactly if the buffer takes it. -/
theorem cString_iff (s : OscStr) {size : Nat} (some_ : 0 < size) :
    cString (strToCstrBuf s size) = s.data ↔ InBuffer size s := by
  rw [strToCstrBuf_eq,cString_terminated]
  constructor
  · intro same
    have short : (cString (s.data.take (size - 1))).length ≤ (s.data.take (size - 1)).length :=
      (List.takeWhile_prefix _).length_le
    rw [same,List.length_take] at short
    refine ⟨by omega,?_⟩
    rw [List.take_of_length_le (by omega)] at same
    intro zero
    exact absurd (List.takeWhile_eq_self_iff.mp same 0 zero) (by decide)
  · intro fits
    rw [List.take_of_length_le (by have := fits.1; omega)]
    exact ReadLine.cString_clean fits.2

theorem path_iff (path : OscStr) {size : Nat} (some_ : 0 < size) :
    cString (pathToCstr path size) = path.data ↔ InBuffer size path := by
  rw [pathToCstr_eq path some_,cString_iff path some_]

/-- The directory stands in the pattern whole, before the two signs. -/
theorem pattern_texts (path : OscStr) : (dirList .windows path).call.texts = [cString (strToCstrBuf path 1024)] := by
  have short : (cString (strToCstrBuf path 1024)).length ≤ 1023 := by
    rw [strToCstrBuf_eq,cString_terminated]
    have inside : (cString (path.data.take (1024 - 1))).length ≤ (path.data.take (1024 - 1)).length :=
      (List.takeWhile_prefix _).length_le
    rw [List.length_take] at inside
    omega
  have whole : (cString (strToCstrBuf path 1024) ++ [92,42]).take 1039 = cString (strToCstrBuf path 1024) ++ [92,42] := by
    apply List.take_of_length_le
    rw [List.length_append]
    exact Nat.le_trans (Nat.add_le_add_right short 2) (by decide)
  simp only [dirList,hand,Call.texts,whole]
  rw [List.length_append]
  congr 1
  exact List.take_left' rfl

theorem arguments_iff (args : List OscStr) :
    ((args.take 64).map fun s => cString (strToCstrBuf s 256)) = args.map OscStr.data ↔ ArgumentsFit args := by
  constructor
  · intro same
    have count := congrArg List.length same
    rw [List.length_map,List.length_map,List.length_take] at count
    have few : args.length ≤ 64 := by omega
    rw [List.take_of_length_le few] at same
    refine ⟨few,fun s listed => ?_⟩
    exact (cString_iff s (by decide)).mp (List.map_inj_left.mp same s listed)
  · intro fits
    rw [List.take_of_length_le fits.1]
    exact List.map_inj_left.mpr fun s listed => (cString_iff s (by decide)).mpr (fits.2 s listed)

theorem spawn_iff (cmd : OscStr) (args : List OscStr) :
    (Call.spawn (cString (strToCstrBuf cmd 1024)) (argv cmd args)).texts = cmd.data :: args.map OscStr.data ↔
      InBuffer 1024 cmd ∧ ArgumentsFit args := by
  rw [← cString_iff cmd (show 0 < 1024 by decide),← arguments_iff,Call.texts,argv,List.drop_one,List.tail_cons,
    List.cons.injEq]

theorem pair_iff {a b c d : Str} : [a,b] = [c,d] ↔ a = c ∧ b = d := by
  rw [List.cons.injEq,List.singleton_inj]

/-- The texts that the call of an operation hands over are those given exactly if the buffers take them. -/
theorem texts_iff (platform : Platform) (operation : Operation) :
    (handing platform operation).call.texts = operation.texts ↔ TextsFit platform operation := by
  cases operation with
  | fileOpenRead path | fileOpenWrite path | readFile path | writeFile path =>
    exact List.singleton_inj.trans (path_iff path (by decide))
  | fileDelete path => exact List.singleton_inj.trans (path_iff path (by decide))
  | pathExists path | pathIsDir path => exact List.singleton_inj.trans (cString_iff path (by decide))
  | fileOpenAppend path | fileExists path | fileSize path | dirCreate path | dirRemove path | dirChange path =>
    exact List.singleton_inj.trans (cString_iff path (by decide))
  | envGet name | envDelete name => exact List.singleton_inj.trans (cString_iff name (show 0 < 256 by decide))
  | envSet name value => exact pair_iff.trans (and_congr (cString_iff name (by decide)) (cString_iff value (by decide)))
  | fileRename old new => exact pair_iff.trans (and_congr (cString_iff old (by decide)) (cString_iff new (by decide)))
  | dirList path =>
    cases platform with
    | freestanding | posix => exact List.singleton_inj.trans (cString_iff path (by decide))
    | windows =>
      change (dirList .windows path).call.texts = [path.data] ↔ InBuffer 1024 path
      rw [pattern_texts,List.singleton_inj,cString_iff path (by decide)]
  | procSpawn cmd args => exact spawn_iff cmd args
  | procRun cmd args =>
    cases platform with
    | freestanding | posix => exact spawn_iff cmd args
    | windows =>
      change [cString (strToCstrBuf cmd 1024)] = cmd.data :: args.map OscStr.data ↔ InBuffer 1024 cmd ∧ args = []
      rw [← cString_iff cmd (show 0 < 1024 by decide),List.cons.injEq,eq_comm (a := []),List.map_eq_nil_iff]

theorem reply_done (platform : Platform) (operation : Operation) : (handing platform operation).reply 0 = .done := by
  cases operation with
  | fileDelete | dirList | procRun => cases platform <;> rfl
  | _ => rfl

/-- An operation hands the system exactly what it is given, or fails, exactly if its buffers take the texts. -/
theorem exact_iff (platform : Platform) (operation : Operation) :
    Exact platform operation ↔ TextsFit platform operation := by
  rw [← texts_iff]
  constructor
  · intro exact_
    exact (exact_ 0).resolve_right fun failed => failed (reply_done platform operation)
  · intro same answer
    exact .inl same

/-- A zero byte ends the path that is deleted: `a` goes for `a` and a zero byte. -/
theorem deletes_other : ¬Exact .posix (.fileDelete ⟨[97,0],by decide⟩) := by
  intro exact_
  exact absurd (exact_ 0) (by decide)

end Oscan.Runtime.SystemText
