import Oscan.Library.Sha256
import Oscan.Runtime.Sha256
import Mathlib.Data.Nat.Bitwise

/-! The hash function of the runtime computes SHA-256. -/
namespace Oscan.Runtime.Sha256
open Library.Sha256

/-- The bits of bytes, the most significant first -/
def bitsOfBytes (data : Str) : List Bool := data.flatMap fun b => bitsOf 8 b.toNat

/-! The padded message -/

theorem stores_other {place : Nat → Nat} {byte : Nat → UInt8} {k : Nat} : ∀ (is : List Nat) (p : Str),
    (∀ i ∈ is, place i ≠ k) → (is.foldl (fun p i => p.set (place i) (byte i)) p)[k]? = p[k]?
  | [],_,_ => rfl
  | i :: is,p,other => by
    rw [List.foldl_cons,stores_other is _ fun j member => other j (List.mem_cons_of_mem _ member)]
    exact List.getElem?_set_ne (other i List.mem_cons_self)

theorem stores_length {place : Nat → Nat} {byte : Nat → UInt8} : ∀ (is : List Nat) (p : Str),
    (is.foldl (fun p i => p.set (place i) (byte i)) p).length = p.length
  | [],_ => rfl
  | i :: is,p => by rw [List.foldl_cons,stores_length is,List.length_set]

/-- A loop that stores once in each place leaves there what it stored. -/
theorem stores_here {place : Nat → Nat} {byte : Nat → UInt8} {i : Nat} : ∀ (is : List Nat) (p : Str), i ∈ is →
    is.Pairwise (fun i j => place i ≠ place j) → place i < p.length →
      (is.foldl (fun p i => p.set (place i) (byte i)) p)[place i]? = some (byte i)
  | j :: is,p,member,apart,inside => by
    rw [List.foldl_cons]
    rw [List.pairwise_cons] at apart
    by_cases later : i ∈ is
    · exact stores_here is _ later apart.2 (by rwa [List.length_set])
    · obtain rfl := (List.mem_cons.mp member).resolve_right later
      rw [stores_other is _ fun j inside => (apart.1 j inside).symm]
      simp [inside]

def lengthBytes (bits : Nat) : Str := (List.range 8).map fun i => UInt8.ofNat (bits >>> ((7 - i) * 8))

theorem padded_length (memory : Nat → UInt8) (data : Str) : (padded memory data).length = paddedLen data.length := by
  simp only [padded,stores_length,List.length_set,List.length_map,List.length_range]

theorem padded_eq (memory : Nat → UInt8) (data : Str) : padded memory data =
    data ++ 0x80 :: (List.replicate (paddedLen data.length - 9 - data.length) 0 ++
      lengthBytes (data.length * 8 % 2^64)) := by
  have room : data.length + 9 ≤ paddedLen data.length := by unfold paddedLen; omega
  have length := padded_length memory data
  generalize total : data.length * 8 % 2^64 = bits
  apply List.ext_getElem?
  intro k
  by_cases inside : k < paddedLen data.length
  · have stored {byte : Nat → UInt8} {is : List Nat} {p : Str} (member : k ∈ is) (apart : is.Nodup)
        (long : p.length = paddedLen data.length) :
        (is.foldl (fun p i => p.set i (byte i)) p)[k]? = some (byte k) :=
      @stores_here (fun i => i) byte k is p member apart (by omega)
    have kept {byte : Nat → UInt8} {is : List Nat} {p : Str} (other : k ∉ is) :
        (is.foldl (fun p i => p.set i (byte i)) p)[k]? = p[k]? :=
      @stores_other (fun i => i) byte k is p fun i member same => other (same ▸ member)
    have last {byte : Nat → UInt8} {p : Str} (before : k < paddedLen data.length - 8) :
        ((List.range 8).foldl (fun p i => p.set (paddedLen data.length - 1 - i) (byte i)) p)[k]? = p[k]? :=
      stores_other _ _ fun i member => by
        rw [List.mem_range] at member
        omega
    by_cases message : k < data.length
    · rw [padded,last (by omega),kept (by simp; omega),List.getElem?_set_ne (by omega),
        stored (List.mem_range.mpr message) List.nodup_range (by simp),List.getElem?_append_left message]
      simp [message]
    · rw [List.getElem?_append_right (by omega)]
      by_cases mark : k = data.length
      · subst mark
        rw [padded,last (by omega),kept (by simp)]
        simp [stores_length,inside]
      · obtain ⟨m,rfl⟩ : ∃ m, k = data.length + 1 + m := ⟨k - data.length - 1,by omega⟩
        rw [show data.length + 1 + m - data.length = m + 1 by omega,List.getElem?_cons_succ]
        by_cases clear : data.length + 1 + m < paddedLen data.length - 8
        · rw [padded,last clear,stored (by rw [List.mem_range'_1]; omega) List.nodup_range' (by simp [stores_length]),
            List.getElem?_append_left (by rw [List.length_replicate]; omega),List.getElem?_replicate,if_pos (by omega)]
        · obtain ⟨i,few,place⟩ : ∃ i, i < 8 ∧ data.length + 1 + m = paddedLen data.length - 1 - i :=
            ⟨paddedLen data.length - 1 - (data.length + 1 + m),by omega,by omega⟩
          have apart : (List.range 8).Pairwise fun i j =>
              paddedLen data.length - 1 - i ≠ paddedLen data.length - 1 - j := by
            rw [List.pairwise_iff_getElem]
            intro i j _ limit less
            simp only [List.getElem_range]
            simp only [List.length_range] at limit
            omega
          rw [place,padded,stores_here _ _ (List.mem_range.mpr few) apart (by simp [stores_length]; omega),
            List.getElem?_append_right (by rw [List.length_replicate]; omega),List.length_replicate,lengthBytes,
            show m - (paddedLen data.length - 9 - data.length) = 7 - i by omega,total,List.getElem?_map,
            List.getElem?_range (by omega)]
          simp [show 7 - (7 - i) = i by omega]
  · rw [List.getElem?_eq_none (by omega),List.getElem?_eq_none]
    simp [lengthBytes]
    omega

/-! The bits of the padded message -/

theorem bitsOf_append (width more n : Nat) : bitsOf (width + more) n = bitsOf width (n / 2^more) ++ bitsOf more n := by
  unfold bitsOf
  rw [List.range_add,List.map_append,List.map_map]
  refine congr (congrArg _ (List.map_congr_left fun i inside => ?_)) (List.map_congr_left fun i inside => ?_)
  · rw [List.mem_range] at inside
    rw [Nat.testBit_div_two_pow]
    congr 1
    omega
  · rw [List.mem_range] at inside
    simp only [Function.comp_apply]
    congr 1
    omega

theorem bitsOf_mod (width n : Nat) : bitsOf width (n % 2^width) = bitsOf width n := by
  refine List.map_congr_left fun i inside => ?_
  rw [List.mem_range] at inside
  rw [Nat.testBit_mod_two_pow]
  simp
  omega

theorem bitsOfBytes_cons (b : UInt8) (data : Str) : bitsOfBytes (b :: data) = bitsOf 8 b.toNat ++ bitsOfBytes data :=
  List.flatMap_cons

theorem bitsOfBytes_append (data more : Str) : bitsOfBytes (data ++ more) = bitsOfBytes data ++ bitsOfBytes more :=
  List.flatMap_append

theorem bitsOfBytes_length (data : Str) : (bitsOfBytes data).length = 8 * data.length := by
  induction data with
  | nil => rfl
  | cons b data ih =>
    rw [bitsOfBytes_cons,List.length_append,bitsOf_length,ih,List.length_cons]
    omega

theorem bitsOfBytes_zeros (n : Nat) : bitsOfBytes (List.replicate n 0) = List.replicate (8 * n) false := by
  induction n with
  | zero => rfl
  | succ n ih =>
    rw [List.replicate_succ,bitsOfBytes_cons,ih,Nat.mul_succ,Nat.add_comm,List.replicate_add]
    rfl

theorem byte_bits (n : Nat) : bitsOf 8 (UInt8.ofNat n).toNat = bitsOf 8 n := by
  rw [UInt8.toNat_ofNat']
  exact bitsOf_mod 8 n

theorem bitsOfBytes_lengthBytes (bits : Nat) : bitsOfBytes (lengthBytes (bits % 2^64)) = bitsOf 64 bits := by
  rw [← bitsOf_mod 64 bits]
  generalize bits % 2^64 = n
  have eight : bitsOfBytes (lengthBytes n) = bitsOf 8 (n / 2^56) ++ (bitsOf 8 (n / 2^48) ++ (bitsOf 8 (n / 2^40) ++
      (bitsOf 8 (n / 2^32) ++ (bitsOf 8 (n / 2^24) ++ (bitsOf 8 (n / 2^16) ++ (bitsOf 8 (n / 2^8) ++ bitsOf 8 n)))))) := by
    simp [bitsOfBytes,lengthBytes,List.range_succ,-UInt8.toNat_ofNat',byte_bits,Nat.shiftRight_eq_div_pow]
  rw [eight,← bitsOf_append 8 8,← bitsOf_append 8 16,← bitsOf_append 8 24,← bitsOf_append 8 32,← bitsOf_append 8 40,
    ← bitsOf_append 8 48,← bitsOf_append 8 56]

/-- The buffer holds the padded message of the standard. -/
theorem padded_bits (memory : Nat → UInt8) (data : Str) : bitsOfBytes (padded memory data) = pad (bitsOfBytes data) := by
  have mark : bitsOf 8 (0x80 : UInt8).toNat = true :: List.replicate 7 false := by decide
  have count : 7 + 8 * (paddedLen data.length - 9 - data.length) = zeros (8 * data.length) := by
    unfold zeros paddedLen
    omega
  rw [padded_eq,pad,bitsOfBytes_append,bitsOfBytes_length,← count,List.replicate_add,Nat.mul_comm 8 data.length]
  rw [bitsOfBytes_cons,bitsOfBytes_append,bitsOfBytes_zeros,bitsOfBytes_lengthBytes,mark]
  simp

/-! The words of a block -/

theorem drop_bits : ∀ (data : Str) (n : Nat), (bitsOfBytes data).drop (8 * n) = bitsOfBytes (data.drop n)
  | data,0 => rfl
  | [],n + 1 => by simp [bitsOfBytes]
  | b :: data,n + 1 => by
    rw [List.drop_succ_cons,← drop_bits data n,bitsOfBytes_cons,List.drop_append,bitsOf_length,
      List.drop_of_length_le (by rw [bitsOf_length]; omega),List.nil_append]
    exact congrArg (fun k => (bitsOfBytes data).drop k) (by omega)

theorem wordOf_bytes (b0 b1 b2 b3 : UInt8) (more : Str) : wordOf ((bitsOfBytes (b0 :: b1 :: b2 :: b3 :: more)).take 32) =
    BitVec.ofNat 32 (((b0.toNat * 256 + b1.toNat) * 256 + b2.toNat) * 256 + b3.toNat) := by
  have first : (bitsOfBytes (b0 :: b1 :: b2 :: b3 :: more)).take 32 = bitsOf 8 b0.toNat ++ (bitsOf 8 b1.toNat ++
      (bitsOf 8 b2.toNat ++ bitsOf 8 b3.toNat)) := by
    simp [bitsOfBytes_cons,List.take_append,List.take_of_length_le]
  have small (b : UInt8) : b.toNat % 2^8 = b.toNat := Nat.mod_eq_of_lt b.toNat_lt
  rw [first,wordOf]
  simp only [List.foldl_append,read_bits,small]
  exact congrArg (BitVec.ofNat 32) (by omega)

theorem shifted_bytes {b0 b1 b2 b3 : Nat} (small1 : b1 < 256) (small2 : b2 < 256) (small3 : b3 < 256) :
    b0 * 2^24 ||| b1 * 2^16 ||| b2 * 2^8 ||| b3 = ((b0 * 256 + b1) * 256 + b2) * 256 + b3 := by
  have first : b0 * 2^24 ||| b1 * 2^16 = 2^16 * (b0 * 256 + b1) := by
    have joined := Nat.two_pow_add_eq_or_of_lt (show b1 * 2^16 < 2^24 by omega) b0
    rw [Nat.mul_comm b0,← joined]
    omega
  have second : 2^16 * (b0 * 256 + b1) ||| b2 * 2^8 = 2^8 * ((b0 * 256 + b1) * 256 + b2) := by
    have joined := Nat.two_pow_add_eq_or_of_lt (show b2 * 2^8 < 2^16 by omega) (b0 * 256 + b1)
    rw [← joined]
    omega
  have third := Nat.two_pow_add_eq_or_of_lt (show b3 < 2^8 by omega) ((b0 * 256 + b1) * 256 + b2)
  rw [first,second,← third]
  omega

theorem loadWord_eq (p : Str) (i : Nat) : loadWord p i = BitVec.ofNat 32
    ((((p.getD i 0).toNat * 256 + (p.getD (i + 1) 0).toNat) * 256 + (p.getD (i + 2) 0).toNat) * 256 +
      (p.getD (i + 3) 0).toNat) := by
  have small (k : Nat) : (p.getD k 0).toNat < 256 := (p.getD k 0).toNat_lt
  apply BitVec.eq_of_toNat_eq
  have value (k : Nat) : (byteWord p k).toNat = (p.getD k 0).toNat := by
    have := small k
    simp only [byteWord,BitVec.toNat_setWidth,UInt8.toNat_toBitVec]
    omega
  have joined := @shifted_bytes (p.getD i 0).toNat _ _ _ (small (i + 1)) (small (i + 2)) (small (i + 3))
  have := small i
  have := small (i + 1)
  have := small (i + 2)
  have := small (i + 3)
  have shifted (k n : Nat) (few : n ≤ 24) : ((byteWord p k) <<< n).toNat = (p.getD k 0).toNat * 2^n := by
    rw [BitVec.toNat_shiftLeft,value,Nat.shiftLeft_eq,Nat.mod_eq_of_lt]
    calc
      (p.getD k 0).toNat * 2^n < 2^8 * 2^n := Nat.mul_lt_mul_of_pos_right (small k) (Nat.two_pow_pos n)
      _ = 2^(8 + n) := (Nat.pow_add 2 8 n).symm
      _ ≤ 2^32 := Nat.pow_le_pow_right (by decide) (by omega)
  simp only [loadWord,BitVec.toNat_or]
  rw [shifted _ 24 (by decide),shifted _ 16 (by decide),shifted _ 8 (by decide),value,joined,BitVec.toNat_ofNat,
    Nat.mod_eq_of_lt (by omega)]

/-- The words that are loaded from the buffer are those of the padded message. -/
theorem blockWord_eq (p : Str) (i t : Nat) (inside : 64 * i + 4 * t + 4 ≤ p.length) :
    blockWord (bitsOfBytes p) i t = loadWord p (64 * i + 4 * t) := by
  have split : p.drop (64 * i + 4 * t) = p.getD (64 * i + 4 * t) 0 :: p.getD (64 * i + 4 * t + 1) 0 ::
      p.getD (64 * i + 4 * t + 2) 0 :: p.getD (64 * i + 4 * t + 3) 0 :: p.drop (64 * i + 4 * t + 4) := by
    generalize 64 * i + 4 * t = k at inside ⊢
    rw [List.drop_eq_getElem_cons (show k < p.length by omega),
      List.drop_eq_getElem_cons (show k + 1 < p.length by omega),
      List.drop_eq_getElem_cons (show k + 1 + 1 < p.length by omega),
      List.drop_eq_getElem_cons (show k + 1 + 1 + 1 < p.length by omega)]
    simp only [List.getD_eq_getElem?_getD,List.getElem?_eq_getElem (show k < p.length by omega),
      List.getElem?_eq_getElem (show k + 1 < p.length by omega),List.getElem?_eq_getElem (show k + 2 < p.length by omega),
      List.getElem?_eq_getElem (show k + 3 < p.length by omega),Option.getD_some]
  rw [blockWord,show 512 * i + 32 * t = 8 * (64 * i + 4 * t) by omega,drop_bits,split,wordOf_bytes,loadWord_eq]

/-! The computation -/

theorem rotated {n m : Nat} (whole : n + m = 32) (positive : 0 < m) (x : BitVec 32) :
    (x >>> n) ||| (x <<< m) = rotr n x := by
  rw [rotr,BitVec.rotateRight_def,Nat.mod_eq_of_lt (by omega),show 32 - n = m by omega]

theorem constants : sha256K = (List.range 64).map constant := by decide +kernel

/-- The variables of the runtime as the working variables of the standard -/
def Variables.registers (v : Variables) : Registers := ⟨v.a,v.b,v.c,v.d,v.e,v.f,v.g,v.hh⟩

theorem start_registers : start.registers = initial := by
  simp only [start,Variables.registers,initial,Registers.mk.injEq]
  decide +kernel

theorem schedule_first {block : Nat → Word} {t : Nat} (first : t < 16) : schedule block t = block t := by
  rw [schedule,if_pos first]

theorem extendWords_eq {block : Nat → Word} {j : Nat} (later : 16 ≤ j) :
    extendWords ((List.range j).map (schedule block)) j = (List.range (j + 1)).map (schedule block) := by
  have known {k : Nat} (before : k < j) : ((List.range j).map (schedule block)).getD k 0 = schedule block k := by
    simp [before]
  have next : schedule block j = smallSigma1 (schedule block (j - 2)) + schedule block (j - 7) +
      smallSigma0 (schedule block (j - 15)) + schedule block (j - 16) := by
    rw [schedule,if_neg (by omega)]
  rw [List.range_succ,List.map_append,List.map_singleton,next,extendWords]
  simp only [known (show j - 15 < j by omega),known (show j - 2 < j by omega),known (show j - 16 < j by omega),
    known (show j - 7 < j by omega),rotated (show 7 + 25 = 32 from rfl) (by decide),
    rotated (show 18 + 14 = 32 from rfl) (by decide),rotated (show 17 + 15 = 32 from rfl) (by decide),
    rotated (show 19 + 13 = 32 from rfl) (by decide),smallSigma0,smallSigma1,shr]
  refine congrArg (fun w => _ ++ [w]) ?_
  ac_rfl

theorem extended {block : Nat → Word} : ∀ (n j : Nat), 16 ≤ j →
    (List.range' j n).foldl extendWords ((List.range j).map (schedule block)) =
      (List.range (j + n)).map (schedule block)
  | 0,_,_ => rfl
  | n + 1,j,later => by
    rw [List.range'_succ,List.foldl_cons,extendWords_eq later,extended n (j + 1) (by omega)]
    congr 2
    omega

theorem messageWords_eq (p : Str) (i : Nat) (inside : 64 * i + 64 ≤ p.length) :
    messageWords p (i * 64) = (List.range 64).map (schedule (blockWord (bitsOfBytes p) i)) := by
  have first : (List.range 16).map (fun j => loadWord p (i * 64 + j * 4)) =
      (List.range 16).map (schedule (blockWord (bitsOfBytes p) i)) := by
    refine List.map_congr_left fun j member => ?_
    rw [List.mem_range] at member
    rw [schedule_first member,blockWord_eq p i j (by omega)]
    congr 1
    omega
  rw [messageWords,first,extended 48 16 (Nat.le_refl 16)]

theorem round_eq {block : Nat → Word} {j : Nat} (inside : j < 64) (v : Variables) :
    (round ((List.range 64).map (schedule block)) v j).registers =
      Library.Sha256.round (constant j) (schedule block j) v.registers := by
  have word : ((List.range 64).map (schedule block)).getD j 0 = schedule block j := by simp [inside]
  have konst : sha256K.getD j 0 = constant j := by rw [constants]; simp [inside]
  simp only [round,word,konst,rotated (show 6 + 26 = 32 from rfl) (by decide),
    rotated (show 11 + 21 = 32 from rfl) (by decide),rotated (show 25 + 7 = 32 from rfl) (by decide),
    rotated (show 2 + 30 = 32 from rfl) (by decide),rotated (show 13 + 19 = 32 from rfl) (by decide),
    rotated (show 22 + 10 = 32 from rfl) (by decide)]
  rfl

theorem rounds_eq {block : Nat → Word} : ∀ (js : List Nat) (v : Variables), (∀ j ∈ js, j < 64) →
    (js.foldl (round ((List.range 64).map (schedule block))) v).registers =
      js.foldl (fun r t => Library.Sha256.round (constant t) (schedule block t) r) v.registers
  | [],_,_ => rfl
  | j :: js,v,inside => by
    rw [List.foldl_cons,List.foldl_cons,rounds_eq js _ fun k member => inside k (List.mem_cons_of_mem j member),
      round_eq (inside j List.mem_cons_self)]

theorem chunk_eq (p : Str) (h : Variables) (i : Nat) (inside : 64 * i + 64 ≤ p.length) :
    (chunk p h (i * 64)).registers = compress (blockWord (bitsOfBytes p) i) h.registers := by
  have rounds := @rounds_eq (blockWord (bitsOfBytes p) i) (List.range 64) h fun j => List.mem_range.mp
  rw [compress,← rounds,← messageWords_eq p i inside]
  simp only [chunk,Registers.add,Variables.registers,Registers.mk.injEq]
  exact ⟨BitVec.add_comm _ _,BitVec.add_comm _ _,BitVec.add_comm _ _,BitVec.add_comm _ _,BitVec.add_comm _ _,
    BitVec.add_comm _ _,BitVec.add_comm _ _,BitVec.add_comm _ _⟩

theorem chunks_eq (p : Str) : ∀ (is : List Nat) (h : Variables), (∀ i ∈ is, 64 * i + 64 ≤ p.length) →
    (is.foldl (fun h n => chunk p h (n * 64)) h).registers =
      is.foldl (fun value i => compress (blockWord (bitsOfBytes p) i) value) h.registers
  | [],_,_ => rfl
  | i :: is,h,inside => by
    rw [List.foldl_cons,List.foldl_cons,chunks_eq p is _ fun k member => inside k (List.mem_cons_of_mem i member),
      chunk_eq p h i (inside i List.mem_cons_self)]

/-! The text -/

theorem hexchars_eq : ∀ d < 16, hexchars.getD d 0 = hexDigit d := by decide

theorem hexByte_eq (n : Nat) : hexByte (UInt8.ofNat n) = [hexDigit (n / 16 % 16),hexDigit (n % 16)] := by
  have low : ((UInt8.ofNat n) &&& 0x0f).toNat = n % 16 := by
    rw [UInt8.toNat_and,UInt8.toNat_ofNat']
    have mask := Nat.and_two_pow_sub_one_eq_mod (n % 2^8) 4
    change n % 2^8 &&& 2^4 - 1 = n % 16
    rw [mask]
    omega
  have high : ((UInt8.ofNat n >>> 4) &&& 0x0f).toNat = n / 16 % 16 := by
    rw [UInt8.toNat_and,UInt8.toNat_shiftRight,UInt8.toNat_ofNat']
    have mask := Nat.and_two_pow_sub_one_eq_mod ((n % 2^8) >>> 4) 4
    change (n % 2^8) >>> 4 &&& 2^4 - 1 = n / 16 % 16
    rw [mask,Nat.shiftRight_eq_div_pow]
    omega
  rw [hexByte,low,high,hexchars_eq _ (Nat.mod_lt _ (by decide)),hexchars_eq _ (Nat.mod_lt _ (by decide))]

theorem hashBytes_hex (h : BitVec 32) : (hashBytes h).flatMap hexByte = hexWord h := by
  simp only [hashBytes,List.flatMap_cons,List.flatMap_nil,hexByte_eq,BitVec.toNat_ushiftRight,
    Nat.shiftRight_eq_div_pow,hexWord,List.range_succ,List.range_zero]
  simp [Nat.div_div_eq_div_mul]

/-- The result is the SHA-256 digest of the bytes in lower-case hexadecimal, whatever the memory held before. -/
theorem sha256_eq (memory : Nat → UInt8) (data : Str) : sha256 memory data = hexDigest (bitsOfBytes data) := by
  have length := padded_length memory data
  have blocks : (pad (bitsOfBytes data)).length / 512 = paddedLen data.length / 64 := by
    rw [← padded_bits memory,bitsOfBytes_length,length]
    omega
  have whole := chunks_eq (padded memory data) (List.range (paddedLen data.length / 64)) start fun i member => by
    rw [List.mem_range] at member
    omega
  rw [padded_bits,start_registers,← blocks] at whole
  change _ = Library.Sha256.hash (bitsOfBytes data) at whole
  rw [hexDigest,← whole,sha256,← blocks]
  simp only [Variables.registers,Registers.words,List.flatMap_cons,List.flatMap_nil,List.flatMap_append,hashBytes_hex]

end Oscan.Runtime.Sha256
