import Oscan.Runtime.Array

/-! What copying does to the elements of a block, and the loops of copies. -/
namespace Oscan.Runtime.Arrays
open Library.Acting

/-- The bytes of the element at an index -/
def Block.slot (b : Block) (es i : Nat) : List UInt8 := (List.range es).map fun k => b.byte (i * es + k)

theorem slot_length (b : Block) (es i : Nat) : (b.slot es i).length = es := by
  rw [Block.slot,List.length_map,List.length_range]

theorem inside_iff {es i j k : Nat} (bound : k < es) : i * es + k < j * es ↔ i < j := by
  constructor
  · intro below
    have less : i * es < j * es := by omega
    exact Nat.lt_of_mul_lt_mul_right less
  · intro less
    have next : (i + 1) * es ≤ j * es := Nat.mul_le_mul_right es less
    rw [Nat.succ_mul] at next
    omega

theorem slot_write (b : Block) (es j n i : Nat) (bytes : Nat → UInt8) :
    (b.write (j * es) (n * es) bytes).slot es i =
      if j ≤ i ∧ i < j + n then (List.range es).map fun k => bytes ((i - j) * es + k) else b.slot es i := by
  have here : ∀ k, k < es → ((j * es ≤ i * es + k ∧ i * es + k < j * es + n * es) ↔ j ≤ i ∧ i < j + n) := by
    intro k bound
    rw [← Nat.add_mul,inside_iff bound,← Nat.not_lt,inside_iff bound,Nat.not_lt]
  rw [Block.slot,Block.slot]
  split
  · next within =>
    apply List.map_congr_left
    intro k member
    have bound := List.mem_range.mp member
    simp only [Block.write]
    rw [if_pos ((here k bound).mpr within),Nat.sub_mul]
    have start : j * es ≤ i * es := Nat.mul_le_mul_right es within.1
    congr 1
    omega
  · next without =>
    apply List.map_congr_left
    intro k member
    simp only [Block.write]
    rw [if_neg fun within => without ((here k (List.mem_range.mp member)).mp within)]

theorem memcpy_ensures {h : Heap} {dst : Pointer} {src : Source} {n : Nat} {b : Block} {bytes : Nat → UInt8}
    (found : h.blocks[dst.block]? = some b) (reads : src.read h n = some bytes) (fits : dst.offset + n ≤ b.size)
    (clear : ¬src.overlaps n dst) : Ensures (memcpy dst src n) h fun _ h' =>
      h' = { h with blocks := h.blocks.set dst.block (b.write dst.offset n bytes) } := by
  unfold Ensures memcpy
  rw [reads,found]
  simp only
  rw [if_pos ⟨fits,clear⟩]

theorem read_inside {h : Heap} {p : Pointer} {n : Nat} {b : Block} (found : h.blocks[p.block]? = some b)
    (enough : p.offset + n ≤ b.size) : (Source.inside p).read h n = some fun k => b.byte (p.offset + k) := by
  rw [Source.read,found]
  exact if_pos enough

theorem bytesAt_slot {h : Heap} {a : Array} {b : Block} {i : Nat} (found : h.blocks[a.data]? = some b)
    (enough : (i + 1) * a.elemSize ≤ b.size) :
    bytesAt (a.at i) a.elemSize h = .done (b.slot a.elemSize i) h := by
  rw [Nat.succ_mul] at enough
  have place : h.blocks[(a.at i).block]? = some b := found
  rw [bytesAt,read_inside place enough]
  rfl

/-- The heap differs from another in one block only, whose elements are given. -/
structure Within (h h' : Heap) (data size es : Nat) (slots : Nat → List UInt8) : Prop where
  arrays : h'.arrays = h.arrays
  others : ∀ i, i ≠ data → h'.blocks[i]? = h.blocks[i]?
  block : ∃ b, h'.blocks[data]? = some b ∧ b.size = size ∧ ∀ i, b.slot es i = slots i

theorem Within.start {h : Heap} {data es : Nat} {b : Block} (found : h.blocks[data]? = some b) :
    Within h h data b.size es (b.slot es) := ⟨rfl,fun _ _ => rfl,b,found,rfl,fun _ => rfl⟩

/-- The memory at the source, as one element -/
def Source.Gives (h : Heap) (es : Nat) (src : Source) (item : List UInt8) : Prop :=
  ∃ bytes, src.read h es = some bytes ∧ (List.range es).map bytes = item

/-- Elements of one block are copied into another place. -/
theorem Within.copy {h h' : Heap} {data size es : Nat} {slots : Nat → List UInt8} (within : Within h h' data size es slots)
    {from_ q j n : Nat} {c : Block} (found : h'.blocks[from_]? = some c) (enough : (q + n) * es ≤ c.size)
    (fits : (j + n) * es ≤ size) (apart : from_ = data → q = j ∨ q + n ≤ j ∨ j + n ≤ q) :
    Ensures (memcpy ⟨data,j * es⟩ (.inside ⟨from_,q * es⟩) (n * es)) h' fun _ h'' =>
      Within h h'' data size es fun i => if j ≤ i ∧ i < j + n then c.slot es (q + (i - j)) else slots i := by
  obtain ⟨b,placed,large,known⟩ := within.block
  rw [Nat.add_mul] at enough fits
  have place : h'.blocks[(Pointer.mk from_ (q * es)).block]? = some c := found
  have reads := read_inside place enough
  have clear : ¬(Source.inside ⟨from_,q * es⟩).overlaps (n * es) ⟨data,j * es⟩ := by
    intro overlap
    simp only [Source.overlaps] at overlap
    obtain ⟨same,different,below,above⟩ := overlap
    rcases apart same with equal | before | after
    · exact different (by rw [equal])
    · have less := Nat.mul_le_mul_right es before
      rw [Nat.add_mul] at less
      omega
    · have less := Nat.mul_le_mul_right es after
      rw [Nat.add_mul] at less
      omega
  refine (memcpy_ensures placed reads (by rw [large]; exact fits) clear).weaken fun _ h'' after => ?_
  subst after
  refine ⟨within.arrays,fun i elsewhere => ?_,_,List.getElem?_set_self (List.getElem?_eq_some_iff.mp placed).1,large,?_⟩
  · show (h'.blocks.set data _)[i]? = h.blocks[i]?
    rw [List.getElem?_set_ne (Ne.symm elsewhere),within.others i elsewhere]
  · intro i
    show (b.write (j * es) (n * es) _).slot es i = _
    rw [slot_write]
    split
    · next inside =>
      rw [Block.slot]
      apply List.map_congr_left
      intro k _
      congr 1
      rw [Nat.add_mul,Nat.add_assoc]
    · exact known i

theorem Within.copySome {h h' : Heap} {data size es : Nat} {slots : Nat → List UInt8}
    (within : Within h h' data size es slots) {from_ q n : Nat} {c : Block} (found : h'.blocks[from_]? = some c)
    (enough : (q + n) * es ≤ c.size) (fits : n * es ≤ size) (apart : from_ ≠ data) :
    Ensures (copyElements ⟨data,0⟩ ⟨from_,q * es⟩ n es) h' fun _ h'' => ∃ slots', Within h h'' data size es slots' ∧
      ∀ i, i < n → slots' i = c.slot es (q + i) := by
  rw [copyElements]
  split
  · have copy := within.copy (j := 0) found enough (by rw [Nat.zero_add]; exact fits) fun same => absurd same apart
    rw [Nat.zero_mul] at copy
    refine copy.weaken fun _ h'' after => ⟨_,after,fun i less => ?_⟩
    rw [if_pos (by omega),Nat.sub_zero]
  · exact ⟨slots,within,fun i less => absurd less (by omega)⟩

/-- An element is copied, from wherever it is; the source gives it still. -/
theorem Within.place {h h' : Heap} {data size es : Nat} {slots : Nat → List UInt8} (within : Within h h' data size es slots)
    {src : Source} {item : List UInt8} {j : Nat} (gives : src.Gives h' es item) (fits : (j + 1) * es ≤ size)
    (clear : ¬src.overlaps es ⟨data,j * es⟩) :
    Ensures (memcpy ⟨data,j * es⟩ src es) h' fun _ h'' =>
      Within h h'' data size es (fun i => if i = j then item else slots i) ∧ src.Gives h'' es item := by
  obtain ⟨b,placed,large,known⟩ := within.block
  obtain ⟨bytes,reads,rfl⟩ := gives
  rw [Nat.succ_mul] at fits
  have bound := (List.getElem?_eq_some_iff.mp placed).1
  refine (memcpy_ensures placed reads (by rw [large]; exact fits) clear).weaken fun _ h'' after => ?_
  subst after
  have now : (h'.blocks.set data (b.write (j * es) es bytes))[data]? = some (b.write (j * es) es bytes) :=
    List.getElem?_set_self bound
  refine ⟨⟨within.arrays,fun i elsewhere => ?_,_,now,large,fun i => ?_⟩,?_⟩
  · show (h'.blocks.set data _)[i]? = h.blocks[i]?
    rw [List.getElem?_set_ne (Ne.symm elsewhere),within.others i elsewhere]
  · have written := slot_write b es j 1 i bytes
    rw [Nat.one_mul] at written
    rw [written]
    by_cases same : i = j
    · subst same
      rw [if_pos (by omega),if_pos rfl,Nat.sub_self,Nat.zero_mul]
      simp only [Nat.zero_add]
    · rw [if_neg (by omega),if_neg same,known i]
  · cases src with
    | outside memory => exact ⟨bytes,reads,rfl⟩
    | inside p =>
      by_cases same : p.block = data
      · obtain ⟨block,offset⟩ := p
        simp only at same
        subst same
        simp only [Source.read,placed] at reads
        split at reads
        · next enough =>
          cases reads
          refine ⟨fun k => (b.write (j * es) es fun k => b.byte (offset + k)).byte (offset + k),?_,?_⟩
          · simp only [Source.read,now]
            rw [if_pos]
            exact enough
          · apply List.map_congr_left
            intro k member
            have less := List.mem_range.mp member
            simp only [Source.overlaps,true_and] at clear
            simp only [Block.write]
            split
            · next inside =>
              have equal : offset = j * es := by
                by_contra different
                exact clear ⟨different,by omega,by omega⟩
              congr 1
              omega
            · rfl
        · cases reads
      · refine ⟨bytes,?_,rfl⟩
        simp only [Source.read] at reads ⊢
        rw [List.getElem?_set_ne (Ne.symm same)]
        exact reads

theorem Within.congr {h h' : Heap} {data size es : Nat} {slots slots' : Nat → List UInt8}
    (within : Within h h' data size es slots) (same : ∀ i, slots i = slots' i) : Within h h' data size es slots' := by
  obtain ⟨b,placed,large,known⟩ := within.block
  exact ⟨within.arrays,within.others,b,placed,large,fun i => (known i).trans (same i)⟩

/-- One element of the block is copied over another. -/
theorem Within.move {h h' : Heap} {data size es : Nat} {slots : Nat → List UInt8} (within : Within h h' data size es slots)
    {q j : Nat} (enough : (q + 1) * es ≤ size) (fits : (j + 1) * es ≤ size) :
    Ensures (memcpy ⟨data,j * es⟩ (.inside ⟨data,q * es⟩) es) h' fun _ h'' =>
      Within h h'' data size es fun i => if i = j then slots q else slots i := by
  obtain ⟨b,placed,large,known⟩ := within.block
  have copied := within.copy (n := 1) placed (by rw [large]; exact enough) fits fun _ => by omega
  rw [Nat.one_mul] at copied
  refine copied.weaken fun _ h'' after => after.congr fun i => ?_
  by_cases same : i = j
  · subst same
    rw [if_pos (by omega),if_pos rfl,Nat.sub_self,Nat.add_zero,known]
  · rw [if_neg (by omega),if_neg same]

section
variable {h : Heap} {a : Array} {b : Block}

theorem slot_fits {i n es size : Nat} (bound : i < n) (large : n * es ≤ size) : (i + 1) * es ≤ size :=
  Nat.le_trans (Nat.mul_le_mul_right es bound) large

theorem fill_loop {src : Source} {item : List UInt8} (count : Nat) (found : h.blocks[a.data]? = some b)
    (large : count * a.elemSize ≤ b.size) (gives : src.Gives h a.elemSize item)
    (clear : ∀ i, ¬src.overlaps a.elemSize (a.at i)) :
    Ensures (times count fun i => memcpy (a.at i) src a.elemSize) h fun _ h' =>
      Within h h' a.data b.size a.elemSize fun i => if i < count then item else b.slot a.elemSize i := by
  refine Ensures.weaken (Ensures.times (fun k h' =>
    Within h h' a.data b.size a.elemSize (fun i => if i < k then item else b.slot a.elemSize i) ∧
      src.Gives h' a.elemSize item) count ⟨(Within.start found).congr fun i => ?_,gives⟩ ?_) fun _ _ reached => reached.1
  · exact (if_neg (Nat.not_lt_zero i)).symm
  · intro k h' bound holds
    refine (holds.1.place holds.2 (slot_fits bound large) (clear k)).weaken fun _ h'' after => ⟨?_,after.2⟩
    refine after.1.congr fun i => ?_
    rcases Nat.lt_trichotomy i k with less | same | more
    · rw [if_neg (by omega),if_pos less,if_pos (by omega)]
    · rw [if_pos same,if_pos (by omega)]
    · rw [if_neg (by omega),if_neg (by omega),if_neg (by omega)]

/-- The loop of `osc_array_insert` -/
theorem up_loop {len index : Nat} (found : h.blocks[a.data]? = some b) (large : (len + 1) * a.elemSize ≤ b.size)
    (inside : index ≤ len) :
    Ensures (times (len - index) fun k => memcpy (a.at (len - k)) (.inside (a.at (len - k - 1))) a.elemSize) h
      fun _ h' => Within h h' a.data b.size a.elemSize fun i =>
        b.slot a.elemSize (if index < i ∧ i ≤ len then i - 1 else i) := by
  refine Ensures.weaken (Ensures.times (fun k h' => Within h h' a.data b.size a.elemSize fun i =>
    b.slot a.elemSize (if len - k < i ∧ i ≤ len then i - 1 else i)) (len - index) ?_ ?_)
    fun _ _ reached => reached.congr fun i => by rw [Nat.sub_sub_self inside]
  · refine (Within.start found).congr fun i => ?_
    rw [if_neg (by omega)]
  · intro k h' bound holds
    refine (holds.move (slot_fits (by omega) large) (slot_fits (by omega) large)).weaken fun _ h'' after => ?_
    refine after.congr fun i => ?_
    rcases Nat.lt_trichotomy i (len - k) with less | same | more
    · rw [if_neg (by omega),if_neg (by omega),if_neg (by omega)]
    · rw [if_pos same,if_neg (by omega),if_pos (by omega),same]
    · rw [if_neg (by omega)]
      congr 1
      by_cases old : i ≤ len
      · rw [if_pos (by omega),if_pos (by omega)]
      · rw [if_neg (by omega),if_neg (by omega)]

/-- The loop of `osc_array_remove_at` -/
theorem down_loop {len index : Nat} (found : h.blocks[a.data]? = some b) (large : len * a.elemSize ≤ b.size)
    (inside : index < len) :
    Ensures (times (len - 1 - index) fun k =>
        memcpy (a.at (index + k)) (.inside (a.at (index + k + 1))) a.elemSize) h
      fun _ h' => Within h h' a.data b.size a.elemSize fun i =>
        b.slot a.elemSize (if index ≤ i ∧ i + 1 < len then i + 1 else i) := by
  refine Ensures.weaken (Ensures.times (fun k h' => Within h h' a.data b.size a.elemSize fun i =>
    b.slot a.elemSize (if index ≤ i ∧ i < index + k then i + 1 else i)) (len - 1 - index) ?_ ?_)
    fun _ _ reached => reached.congr fun i => ?_
  · refine (Within.start found).congr fun i => ?_
    rw [if_neg (by omega)]
  · intro k h' bound holds
    refine (holds.move (slot_fits (by omega) large) (slot_fits (by omega) large)).weaken fun _ h'' after => ?_
    refine after.congr fun i => ?_
    rcases Nat.lt_trichotomy i (index + k) with less | same | more
    · rw [if_neg (by omega)]
      congr 1
      by_cases moved : index ≤ i
      · rw [if_pos (by omega),if_pos (by omega)]
      · rw [if_neg (by omega),if_neg (by omega)]
    · rw [if_pos same,if_neg (by omega),if_pos (by omega),same]
    · rw [if_neg (by omega),if_neg (by omega),if_neg (by omega)]
  · congr 1
    by_cases moved : index ≤ i ∧ i + 1 < len
    · rw [if_pos (by omega),if_pos moved]
    · rw [if_neg (by omega),if_neg moved]

theorem same_place {es i i' j k : Nat} (bound : j < es) (bound' : k < es) :
    (i' * es + k ≤ i * es + j ∧ i * es + j < i' * es + k + 1) ↔ i = i' ∧ j = k := by
  constructor
  · intro near
    have equal : i * es + j = i' * es + k := by omega
    have below : ¬i < i' := by
      intro less
      have apart := (inside_iff bound).mpr less
      omega
    have above : ¬i' < i := by
      intro less
      have apart := (inside_iff bound').mpr less
      omega
    have same : i = i' := by omega
    subst same
    exact ⟨rfl,by omega⟩
  · rintro ⟨rfl,rfl⟩
    omega

theorem Within.swapped {h h' h'' : Heap} {data size es : Nat} {slots : Nat → List UInt8} {c d : Block}
    {left right : Nat} (within : Within h h' data size es slots) (placed : h'.blocks[data]? = some c)
    (arrays : h''.arrays = h'.arrays) (others : ∀ i, i ≠ data → h''.blocks[i]? = h'.blocks[i]?)
    (now : h''.blocks[data]? = some d) (whole : d.size = c.size) (bytes : ∀ i j, j < es → d.byte (i * es + j) =
      if i = left then c.byte (right * es + j) else if i = right then c.byte (left * es + j) else c.byte (i * es + j)) :
    Within h h'' data size es fun i => if i = left then slots right else if i = right then slots left else slots i := by
  obtain ⟨c',placed',large,known⟩ := within.block
  rw [placed] at placed'
  cases placed'
  refine ⟨arrays.trans within.arrays,fun i elsewhere => (others i elsewhere).trans (within.others i elsewhere),d,now,
    whole.trans large,fun i => ?_⟩
  simp only [← known,Block.slot]
  split
  · next same =>
    apply List.map_congr_left
    intro j member
    rw [bytes i j (List.mem_range.mp member),if_pos same]
  · next different =>
    split
    · next same =>
      apply List.map_congr_left
      intro j member
      rw [bytes i j (List.mem_range.mp member),if_neg different,if_pos same]
    · next different' =>
      apply List.map_congr_left
      intro j member
      rw [bytes i j (List.mem_range.mp member),if_neg different,if_neg different']

/-- The loop of `osc_array_swap` -/
theorem swap_loop {h' : Heap} {data size es : Nat} {slots : Nat → List UInt8} {left right n : Nat}
    (within : Within h h' data size es slots) (large : n * es ≤ size) (first : left < n) (second : right < n)
    (different : left ≠ right) :
    Ensures (times es (swapByte ⟨data,left * es⟩ ⟨data,right * es⟩)) h' fun _ h'' =>
      Within h h'' data size es fun i => if i = left then slots right else if i = right then slots left else slots i := by
  obtain ⟨c,placed,whole,known⟩ := within.block
  have bound := (List.getElem?_eq_some_iff.mp placed).1
  have top := slot_fits first large
  have top' := slot_fits second large
  rw [Nat.succ_mul] at top top'
  -- the bytes of the two elements before the round are exchanged
  refine Ensures.weaken (Ensures.times (fun k h'' => h''.arrays = h'.arrays ∧ (∀ i, i ≠ data → h''.blocks[i]? = h'.blocks[i]?) ∧
    ∃ d, h''.blocks[data]? = some d ∧ d.size = c.size ∧ ∀ i j, j < es → d.byte (i * es + j) =
      if i = left ∧ j < k then c.byte (right * es + j) else
      if i = right ∧ j < k then c.byte (left * es + j) else c.byte (i * es + j)) es ?_ ?_) ?_
  · exact ⟨rfl,fun _ _ => rfl,c,placed,rfl,fun i j _ => by rw [if_neg (by omega),if_neg (by omega)]⟩
  · rintro k h'' less ⟨arrays,others,d,now,same,bytes⟩
    unfold Ensures swapByte
    simp only [now]
    rw [if_pos ⟨trivial,by rw [same,whole]; omega,by rw [same,whole]; omega⟩]
    have old : d.byte (left * es + k) = c.byte (left * es + k) := by
      rw [bytes left k less,if_neg (by omega),if_neg (by omega)]
    have old' : d.byte (right * es + k) = c.byte (right * es + k) := by
      rw [bytes right k less,if_neg (by omega),if_neg (by omega)]
    refine ⟨arrays,fun i elsewhere => ?_,_,List.getElem?_set_self (List.getElem?_eq_some_iff.mp now).1,same,?_⟩
    · show (h''.blocks.set data _)[i]? = h'.blocks[i]?
      rw [List.getElem?_set_ne (Ne.symm elsewhere),others i elsewhere]
    · intro i j bound'
      simp only [Block.write,same_place bound' less,old,old']
      by_cases here : i = right ∧ j = k
      · rw [if_pos here,if_neg (by omega),if_pos (by omega),here.2]
      · rw [if_neg here]
        by_cases there : i = left ∧ j = k
        · rw [if_pos there,if_pos (by omega),there.2]
        · have first : (i = left ∧ j < k + 1) ↔ (i = left ∧ j < k) := by omega
          have second : (i = right ∧ j < k + 1) ↔ (i = right ∧ j < k) := by omega
          rw [if_neg there,bytes i j bound']
          simp only [first,second]
  · rintro _ h'' ⟨arrays,others,d,now,same,bytes⟩
    refine within.swapped placed arrays others now same fun i j less => ?_
    rw [bytes i j less]
    simp only [less,and_true]

/-- Two elements of an array of the heap are exchanged; nothing else changes. -/
theorem swap_ensures {h' : Heap} {size n : Nat} {slots : Nat → List UInt8} {left right : Nat} (listed : h.arrays[n]? = some a)
    (within : Within h h' a.data size a.elemSize slots) (large : a.len * a.elemSize ≤ size) (first : left < a.len)
    (second : right < a.len) (different : left ≠ right) :
    Ensures (swap (some n) left right) h' fun _ h'' => Within h h'' a.data size a.elemSize fun i =>
      if i = left then slots right else if i = right then slots left else slots i := by
  have found : fields n h' = .done a h' := by
    rw [fields,within.arrays,listed]
  unfold Ensures swap
  rw [nonNull,bind_apply,pure_apply,andThen_done,bind_apply,found,andThen_done,refuse_passed (by omega),
    if_neg (by omega)]
  exact swap_loop within large first second different

/-- The loop of `osc_array_reverse` -/
theorem reverse_loop {n : Nat} (listed : h.arrays[n]? = some a) (found : h.blocks[a.data]? = some b)
    (large : a.len * a.elemSize ≤ b.size) :
    Ensures (times (a.len / 2) fun left => swap (some n) left (a.len - 1 - left : Nat)) h fun _ h' =>
      Within h h' a.data b.size a.elemSize fun i => b.slot a.elemSize (if i < a.len then a.len - 1 - i else i) := by
  refine Ensures.weaken (Ensures.times (fun k h' => Within h h' a.data b.size a.elemSize fun i =>
    b.slot a.elemSize (if i < k ∨ i < a.len ∧ a.len - k ≤ i then a.len - 1 - i else i)) (a.len / 2) ?_ ?_)
    fun _ _ reached => reached.congr fun i => ?_
  · refine (Within.start found).congr fun i => ?_
    rw [if_neg (by omega)]
  · intro k h' bound holds
    refine (swap_ensures listed holds large (by omega) (by omega) (by omega)).weaken fun _ h'' after => ?_
    refine after.congr fun i => ?_
    by_cases left : i = k
    · rw [if_pos left,if_neg (by omega),if_pos (by omega),left]
    · rw [if_neg left]
      by_cases right : i = a.len - 1 - k
      · rw [if_pos right,if_neg (by omega),if_pos (by omega)]
        congr 1
        omega
      · rw [if_neg right]
        congr 1
        by_cases outer : i < k ∨ i < a.len ∧ a.len - k ≤ i
        · rw [if_pos outer,if_pos (by omega)]
        · rw [if_neg outer,if_neg (by omega)]
  · congr 1
    by_cases inner : i < a.len
    · rw [if_pos inner]
      by_cases outer : i < a.len / 2 ∨ i < a.len ∧ a.len - a.len / 2 ≤ i
      · rw [if_pos outer]
      · rw [if_neg outer]
        omega
    · rw [if_neg inner,if_neg (by omega)]

end

end Oscan.Runtime.Arrays
