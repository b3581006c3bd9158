import Oscan.Runtime.ArrayMeaning
import Oscan.Runtime.ArrayMemory

/-! The arrays of a heap stand for the lists of their elements, and every call keeps it so. -/
namespace Oscan.Runtime.Arrays
open Library.Acting

/-- The array's block holds as many elements as its capacity says, and the first of them are the given ones. -/
structure Holds (h : Heap) (a : Array) (e : Elements) : Prop where
  size : e.size = a.elemSize
  positive : 0 < a.elemSize
  small : a.elemSize ≤ int32Max
  len : e.items.length = a.len
  fits : a.len ≤ a.capacity
  room : 0 < a.capacity
  bounded : a.capacity ≤ int32Max
  block : ∃ b, h.blocks[a.data]? = some b ∧ b.size = a.capacity * a.elemSize ∧
    ∀ i, i < a.len → e.items[i]? = some (b.slot a.elemSize i)

/-- Each array of the heap holds its elements, in a block of its own. -/
structure Stands (h : Heap) (t : Lists) : Prop where
  count : h.arrays.length = t.length
  each : ∀ (n : Nat) (a : Array) (e : Elements), h.arrays[n]? = some a → t[n]? = some e → Holds h a e
  apart : ∀ (n k : Nat) (a a' : Array), h.arrays[n]? = some a → h.arrays[k]? = some a' → n ≠ k → a.data ≠ a'.data

/-- No block that was there has changed. -/
def Keeps (h h' : Heap) : Prop := ∀ (i : Nat) (b : Block), h.blocks[i]? = some b → h'.blocks[i]? = some b

theorem Keeps.refl {h : Heap} : Keeps h h := fun _ _ found => found

theorem Keeps.alloc {h : Heap} {b : Block} : Keeps h { h with blocks := h.blocks ++ [b] } := by
  intro i c found
  have bound := (List.getElem?_eq_some_iff.mp found).1
  exact (List.getElem?_append_left bound).trans found

theorem Stands.elements {h : Heap} {t : Lists} {n : Nat} {a : Array} (stands : Stands h t)
    (listed : h.arrays[n]? = some a) : ∃ e, t[n]? = some e ∧ Holds h a e := by
  have bound := (List.getElem?_eq_some_iff.mp listed).1
  rw [stands.count] at bound
  have found := List.getElem?_eq_getElem bound
  exact ⟨_,found,stands.each n a _ listed found⟩

theorem Holds.keeps {h h' : Heap} {a : Array} {e : Elements} (holds : Holds h a e)
    (same : h'.blocks[a.data]? = h.blocks[a.data]?) : Holds h' a e := by
  obtain ⟨b,found,rest⟩ := holds.block
  exact ⟨holds.size,holds.positive,holds.small,holds.len,holds.fits,holds.room,holds.bounded,b,same.trans found,rest⟩

theorem set_cases {α : Type} {l : List α} {n k : Nat} {x y : α} (found : (l.set n x)[k]? = some y) :
    n = k ∧ y = x ∨ n ≠ k ∧ l[k]? = some y := by
  by_cases same : n = k
  · subst same
    have bound := (List.getElem?_eq_some_iff.mp found).1
    rw [List.length_set] at bound
    rw [List.getElem?_set_self bound] at found
    cases found
    exact .inl ⟨rfl,rfl⟩
  · rw [List.getElem?_set_ne same] at found
    exact .inr ⟨same,found⟩

/-- One array has come to hold other elements; the blocks of the others are as they were. -/
theorem Stands.change {h h' : Heap} {t : Lists} {n : Nat} {a a' : Array} {e' : Elements} (stands : Stands h t)
    (listed : h.arrays[n]? = some a) (arrays : h'.arrays = h.arrays.set n a')
    (others : ∀ (i : Nat) (b : Block), i ≠ a'.data → h.blocks[i]? = some b → h'.blocks[i]? = some b)
    (data : a'.data = a.data ∨ h.blocks.length ≤ a'.data) (holds : Holds h' a' e') : Stands h' (t.set n e') := by
  have bound := (List.getElem?_eq_some_iff.mp listed).1
  have elsewhere : ∀ (k : Nat) (c : Array), n ≠ k → h.arrays[k]? = some c → c.data ≠ a'.data := by
    intro k c different found
    obtain ⟨e,_,held⟩ := stands.elements found
    obtain ⟨b,placed,_⟩ := held.block
    have inside := (List.getElem?_eq_some_iff.mp placed).1
    rcases data with same | fresh
    · rw [same]
      exact (stands.apart n k a c listed found different).symm
    · omega
  refine ⟨?_,fun k c e found told => ?_,fun k j c d found found' different => ?_⟩
  · rw [arrays,List.length_set,List.length_set]
    exact stands.count
  · rw [arrays] at found
    rcases set_cases found with ⟨rfl,rfl⟩ | ⟨different,found⟩
    · rw [List.getElem?_set_self (by rw [← stands.count]; exact bound)] at told
      cases told
      exact holds
    · rw [List.getElem?_set_ne different] at told
      have held := stands.each k c e found told
      obtain ⟨b,placed,_⟩ := held.block
      exact held.keeps ((others _ b (elsewhere k c different found) placed).trans placed.symm)
  · rw [arrays] at found found'
    rcases set_cases found with ⟨rfl,rfl⟩ | ⟨other,older⟩
    · rcases set_cases found' with ⟨rfl,_⟩ | ⟨other,older⟩
      · exact absurd rfl different
      · exact (elsewhere j d other older).symm
    · rcases set_cases found' with ⟨rfl,rfl⟩ | ⟨_,older'⟩
      · exact elsewhere k c other older
      · exact stands.apart k j c d older older' different

/-- An array has come to be, with a block that was not there before. -/
theorem Stands.add {h h' : Heap} {t : Lists} {a : Array} {e : Elements} (stands : Stands h t)
    (arrays : h'.arrays = h.arrays ++ [a]) (kept : Keeps h h') (fresh : h.blocks.length ≤ a.data) (holds : Holds h' a e) :
    Stands h' (t ++ [e]) := by
  have elsewhere : ∀ (k : Nat) (c : Array), h.arrays[k]? = some c → c.data ≠ a.data := by
    intro k c found
    obtain ⟨e,_,held⟩ := stands.elements found
    obtain ⟨b,placed,_⟩ := held.block
    have inside := (List.getElem?_eq_some_iff.mp placed).1
    omega
  have split : ∀ (k : Nat) (c : Array), h'.arrays[k]? = some c →
      h.arrays[k]? = some c ∨ k = h.arrays.length ∧ c = a := by
    intro k c found
    rw [arrays,List.getElem?_append] at found
    split at found
    · exact .inl found
    · next beyond =>
      have last := List.getElem?_eq_some_iff.mp found
      have here : k = h.arrays.length := by
        have bound := last.1
        rw [List.length_singleton] at bound
        omega
      subst here
      rw [Nat.sub_self] at found
      cases found
      exact .inr ⟨rfl,rfl⟩
  refine ⟨?_,fun k c d found told => ?_,fun k j c d found found' different => ?_⟩
  · rw [arrays,List.length_append,List.length_append,stands.count]
    rfl
  · rcases split k c found with older | ⟨rfl,rfl⟩
    · have bound := (List.getElem?_eq_some_iff.mp older).1
      rw [List.getElem?_append_left (by rw [← stands.count]; exact bound)] at told
      have held := stands.each k c d older told
      obtain ⟨b,placed,_⟩ := held.block
      exact held.keeps ((kept _ b placed).trans placed.symm)
    · rw [stands.count,List.getElem?_append_right (Nat.le_refl _),Nat.sub_self] at told
      cases told
      exact holds
  · rcases split k c found with older | ⟨rfl,rfl⟩
    · rcases split j d found' with older' | ⟨rfl,rfl⟩
      · exact stands.apart k j c d older older' different
      · exact elsewhere k c older
    · rcases split j d found' with older' | ⟨rfl,rfl⟩
      · exact (elsewhere j d older').symm
      · exact absurd rfl different

/-- Only blocks that belong to no array have changed. -/
theorem Stands.blocks {h h' : Heap} {t : Lists} (stands : Stands h t) (arrays : h'.arrays = h.arrays)
    (same : ∀ (n : Nat) (a : Array), h.arrays[n]? = some a → h'.blocks[a.data]? = h.blocks[a.data]?) : Stands h' t := by
  refine ⟨by rw [arrays]; exact stands.count,fun n a e listed told => ?_,?_⟩
  · rw [arrays] at listed
    exact (stands.each n a e listed told).keeps (same n a listed)
  · rw [arrays]
    exact stands.apart

theorem Stands.known {h : Heap} {t : Lists} {n : Nat} {a : Array} (stands : Stands h t)
    (listed : h.arrays[n]? = some a) : a.data < h.blocks.length := by
  obtain ⟨e,_,held⟩ := stands.elements listed
  obtain ⟨b,placed,_⟩ := held.block
  exact (List.getElem?_eq_some_iff.mp placed).1

/-- After its block has been written to, an array holds what has been written. -/
theorem Stands.store {h h' : Heap} {t : Lists} {n : Nat} {a : Array} {slots : Nat → List UInt8} (stands : Stands h t)
    (listed : h.arrays[n]? = some a) (within : Within h h' a.data (a.capacity * a.elemSize) a.elemSize slots)
    (items : List (List UInt8)) (fits : items.length ≤ a.capacity)
    (known : ∀ i, i < items.length → items[i]? = some (slots i)) :
    Stands { h' with arrays := h'.arrays.set n { a with len := items.length } } (t.set n ⟨a.elemSize,items⟩) := by
  obtain ⟨e,_,held⟩ := stands.elements listed
  obtain ⟨b,placed,large,slot⟩ := within.block
  have arrays : ({ h' with arrays := h'.arrays.set n { a with len := items.length } } : Heap).arrays =
      h.arrays.set n { a with len := items.length } := by rw [← within.arrays]
  refine stands.change listed arrays ?_ (.inl rfl) ?_
  · intro i c elsewhere found
    exact (within.others i elsewhere).trans found
  · refine ⟨rfl,held.positive,held.small,rfl,fits,held.room,held.bounded,b,placed,large,fun i bound => ?_⟩
    rw [known i bound]
    exact congrArg _ (slot i).symm

theorem set_same {α : Type} {l : List α} {n : Nat} {x : α} (found : l[n]? = some x) : l.set n x = l := by
  obtain ⟨bound,rfl⟩ := List.getElem?_eq_some_iff.mp found
  exact List.set_getElem_self bound

/-- The bytes at a place that a call may copy from -/
structure Carries (h : Heap) (src : Source) (bytes : List UInt8) : Prop where
  reads : ∀ n, n ≤ bytes.length → src.Gives h n (bytes.take n)
  clear : ∀ (k : Nat) (a : Array), h.arrays[k]? = some a → ∀ i, ¬src.overlaps a.elemSize (a.at i)
  old : ∀ p, src = .inside p → p.block < h.blocks.length

theorem Source.Gives.keeps {h h' : Heap} {n : Nat} {src : Source} {item : List UInt8} (gives : src.Gives h n item)
    (kept : Keeps h h') : src.Gives h' n item := by
  obtain ⟨bytes,reads,same⟩ := gives
  refine ⟨bytes,?_,same⟩
  cases src with
  | outside memory => exact reads
  | inside p =>
    simp only [Source.read] at reads ⊢
    cases found : h.blocks[p.block]? with
    | none =>
      rw [found] at reads
      cases reads
    | some b =>
      rw [found] at reads
      rw [kept _ b found]
      exact reads

theorem Source.Gives.same {h h' : Heap} {n : Nat} {p : Pointer} {item : List UInt8}
    (gives : (Source.inside p).Gives h n item) (unchanged : h'.blocks[p.block]? = h.blocks[p.block]?) :
    (Source.inside p).Gives h' n item := by
  obtain ⟨bytes,reads,same⟩ := gives
  refine ⟨bytes,?_,same⟩
  rw [Source.read] at reads ⊢
  rw [unchanged]
  exact reads

/-- One array has room for more elements, in its old block or in a new one. -/
structure Grown (h h' : Heap) (n : Nat) (a a' : Array) (required : Nat) : Prop where
  arrays : h'.arrays = h.arrays.set n a'
  kept : Keeps h h'
  elemSize : a'.elemSize = a.elemSize
  len : a'.len = a.len
  enough : required ≤ a'.capacity
  data : a'.data = a.data ∨ h.blocks.length ≤ a'.data

theorem Grown.listed {h h' : Heap} {n required : Nat} {a a' : Array} (grown : Grown h h' n a a' required)
    (listed : h.arrays[n]? = some a) : h'.arrays[n]? = some a' := by
  rw [grown.arrays,List.getElem?_set_self (List.getElem?_eq_some_iff.mp listed).1]

theorem Keeps.length {h h' : Heap} (kept : Keeps h h') : h.blocks.length ≤ h'.blocks.length := by
  by_contra less
  have bound : h'.blocks.length < h.blocks.length := by omega
  have found := kept _ _ (List.getElem?_eq_getElem bound)
  exact absurd (List.getElem?_eq_some_iff.mp found).1 (Nat.lt_irrefl _)

theorem Carries.grown {h h' : Heap} {n required : Nat} {a a' : Array} {src : Source} {bytes : List UInt8}
    (carries : Carries h src bytes) (grown : Grown h h' n a a' required) (listed : h.arrays[n]? = some a) :
    Carries h' src bytes := by
  refine ⟨fun k bound => (carries.reads k bound).keeps grown.kept,fun k c found i => ?_,fun p same => ?_⟩
  · rw [grown.arrays] at found
    rcases set_cases found with ⟨rfl,rfl⟩ | ⟨_,found⟩
    · rcases grown.data with same | fresh
      · have clear := carries.clear n a listed i
        simp only [Array.at,grown.elemSize,same] at clear ⊢
        exact clear
      · cases src with
        | outside memory => exact id
        | inside p =>
          have old := carries.old p rfl
          simp only [Source.overlaps,Array.at]
          omega
    · exact carries.clear k c found i
  · have length := grown.kept.length
    have old := carries.old p same
    omega

theorem doubled_enough {required : Nat} (small : required ≤ int32Max) (rounds capacity : Nat)
    (near : 2^31 ≤ capacity * 2^rounds) (bounded : capacity ≤ int32Max) :
    ∃ c, doubled required (rounds + 1) capacity = some c ∧ required ≤ c ∧ c ≤ int32Max ∧ capacity ≤ c := by
  induction rounds generalizing capacity with
  | zero =>
    unfold int32Max at bounded
    omega
  | succ rounds ih =>
    rw [doubled]
    split
    · next less =>
      split
      · next large => exact ⟨required,rfl,Nat.le_refl _,small,by omega⟩
      · next modest =>
        have near' : 2^31 ≤ capacity * 2 * 2^rounds := by
          rw [Nat.mul_assoc,← Nat.pow_succ']
          exact near
        obtain ⟨c,ends,enough,fits,more⟩ := ih (capacity * 2) near' (by unfold int32Max at *; omega)
        exact ⟨c,ends,enough,fits,by omega⟩
    · next reached => exact ⟨capacity,rfl,by omega,bounded,Nat.le_refl _⟩

theorem size_fits {capacity es : Nat} (bounded : capacity ≤ int32Max) (small : es ≤ int32Max) (positive : 0 < es) :
    ¬capacity > (2^64 - 1) / es := by
  have product : capacity * es ≤ int32Max * int32Max := Nat.mul_le_mul bounded small
  have least : capacity ≤ (2^64 - 1) / es := by
    apply (Nat.le_div_iff_mul_le positive).mpr
    unfold int32Max at product
    omega
  omega

theorem arenaAlloc_ensures {m : Memory} {h : Heap} {owner size : Nat} :
    Ensures (arenaAlloc m owner size) h fun data h' => data = h.blocks.length ∧
      h' = { h with blocks := h.blocks ++ [⟨size,m.contents h owner⟩] } := by
  unfold Ensures arenaAlloc
  by_cases refused : m.refuses h owner size = true
  · rw [if_pos refused]
    trivial
  · rw [if_neg refused]
    exact ⟨rfl,rfl⟩

theorem fields_ensures {α : Type} {h : Heap} {n : Nat} {a : Array} {f : Array → Act Heap α} {post : α → Heap → Prop}
    (listed : h.arrays[n]? = some a) (after : Ensures (f a) h post) : Ensures (fields n >>= f) h post := by
  unfold Ensures at after ⊢
  rw [bind_apply,fields,listed]
  exact after

theorem reserve_ensures {m : Memory} {h : Heap} {t : Lists} {n required : Nat} {a : Array} (stands : Stands h t)
    (listed : h.arrays[n]? = some a) (small : required ≤ int32Max) :
    Ensures (reserve m n required) h fun _ h' => ∃ a', Grown h h' n a a' required ∧ Stands h' t := by
  obtain ⟨e,told,held⟩ := stands.elements listed
  obtain ⟨b,placed,large,slot⟩ := held.block
  have bounded := held.bounded
  have fits := held.fits
  apply fields_ensures listed
  refine .refuse (by omega) ?_
  split
  · next enough => exact ⟨a,⟨(set_same listed).symm,Keeps.refl,rfl,rfl,enough,.inl rfl⟩,stands⟩
  · next short =>
    have near : 2^31 ≤ a.capacity * 2^31 := Nat.le_mul_of_pos_left _ held.room
    obtain ⟨c,ends,enough,fits',more⟩ := doubled_enough small 31 a.capacity near bounded
    rw [ends]
    refine .refuse (by have ok := size_fits fits' held.small held.positive; omega) ?_
    refine arenaAlloc_ensures.bind fun data s' made => ?_
    obtain ⟨rfl,rfl⟩ := made
    generalize new : Block.mk (c * a.elemSize) (m.contents h a.owner) = block
    have whole : block.size = c * a.elemSize := by rw [← new]
    have last : (h.blocks ++ [block])[h.blocks.length]? = some block := by
      rw [List.getElem?_append_right (Nat.le_refl _),Nat.sub_self]
      rfl
    have source : (h.blocks ++ [block])[a.data]? = some b := Keeps.alloc _ b placed
    have bound := (List.getElem?_eq_some_iff.mp placed).1
    have within : Within { h with blocks := h.blocks ++ [block] } { h with blocks := h.blocks ++ [block] } h.blocks.length
        (c * a.elemSize) a.elemSize _ := whole ▸ Within.start last
    have here : (0 + a.len) * a.elemSize ≤ b.size := by
      rw [Nat.zero_add,large]
      exact Nat.mul_le_mul_right _ fits
    have copied := within.copySome source here (Nat.mul_le_mul_right _ (by omega)) (Nat.ne_of_lt bound)
    rw [Nat.zero_mul] at copied
    refine copied.bind fun _ s'' after => ?_
    obtain ⟨slots,within,same⟩ := after
    have kept : Keeps h { s'' with arrays := s''.arrays.set n { a with data := h.blocks.length, capacity := c } } := by
      intro i d older
      have bound := (List.getElem?_eq_some_iff.mp older).1
      have unchanged := within.others i (by omega)
      exact unchanged.trans (Keeps.alloc i d older)
    have arrays : s''.arrays.set n { a with data := h.blocks.length, capacity := c } =
        h.arrays.set n { a with data := h.blocks.length, capacity := c } := by rw [within.arrays]
    refine ⟨_,⟨arrays,kept,rfl,rfl,enough,.inr (Nat.le_refl _)⟩,?_⟩
    have still : Holds { s'' with arrays := s''.arrays.set n { a with data := h.blocks.length, capacity := c } }
        { a with data := h.blocks.length, capacity := c } e := by
      obtain ⟨d,now,size,known⟩ := within.block
      refine ⟨held.size,held.positive,held.small,held.len,?_,?_,fits',d,now,size,fun i less => ?_⟩
      · show a.len ≤ c
        omega
      · show 0 < c
        have room := held.room
        omega
      · rw [slot i less,known i,same i less,Nat.zero_add]
    have changed := stands.change listed arrays (fun i d _ older => kept i d older) (.inr (Nat.le_refl _)) still
    rw [set_same told] at changed
    exact changed

end Oscan.Runtime.Arrays
