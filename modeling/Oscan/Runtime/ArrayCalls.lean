import Oscan.Runtime.ArrayRefines

/-! Each call on dynamic arrays does to the elements what it is for. -/
namespace Oscan.Runtime.Arrays
open Library.Acting

variable {h : Heap} {t : Lists} {α β : Type}

/-- A value that is passed, beside its bytes -/
def Passed (h : Heap) : Option Source → Option (List UInt8) → Prop
  | none,none => True
  | some src,some bytes => Carries h src bytes
  | _,_ => False

theorem agrees_nonNull {r : Ref} {f : Nat → Act Heap α} {g : Nat → Act Lists α} (stands : Stands h t)
    (after : ∀ n, Agrees Stands (f n h) (g n t)) : Agrees Stands ((nonNull r >>= f) h) ((nonNull r >>= g) t) := by
  cases r with
  | none => exact .panics stands
  | some n => exact after n

theorem agrees_value {v : Option Source} {v' : Option (List UInt8)} {f : Source → Act Heap α}
    {g : List UInt8 → Act Lists α} (stands : Stands h t) (passed : Passed h v v')
    (after : ∀ src bytes, Carries h src bytes → Agrees Stands (f src h) (g bytes t)) :
    Agrees Stands ((nonNullValue v >>= f) h) ((nonNullValue v' >>= g) t) := by
  cases v with
  | none =>
    cases v' with
    | none => exact .panics stands
    | some bytes => exact passed.elim
  | some src =>
    cases v' with
    | none => exact passed.elim
    | some bytes => exact after src bytes passed

theorem agrees_fields {n : Nat} {f : Array → Act Heap α} {g : Elements → Act Lists α} (stands : Stands h t)
    (after : ∀ a e, h.arrays[n]? = some a → t[n]? = some e → Holds h a e → Agrees Stands (f a h) (g e t)) :
    Agrees Stands ((fields n >>= f) h) ((Meaning.elements n >>= g) t) := by
  rw [bind_apply,bind_apply,fields,Meaning.elements]
  cases told : t[n]? with
  | none => exact .undefined
  | some e =>
    have bound := (List.getElem?_eq_some_iff.mp told).1
    rw [← stands.count] at bound
    have listed := List.getElem?_eq_getElem bound
    rw [listed]
    exact after _ e listed told (stands.each n _ e listed told)

theorem agrees_refuse {p q : Prop} [Decidable p] [Decidable q] {message : String} {f : Unit → Act Heap α}
    {g : Unit → Act Lists α} (stands : Stands h t) (same : p ↔ q) (after : ¬p → Agrees Stands (f () h) (g () t)) :
    Agrees Stands ((refuse p message >>= f) h) ((refuse q message >>= g) t) := by
  by_cases found : p
  · rw [refuse_found found,refuse_found (same.mp found)]
    exact .panics stands
  · rw [refuse_passed found,refuse_passed (fun other => found (same.mpr other))]
    exact after found

theorem agrees_whole {size : Nat} {bytes : List UInt8} {x : Ending Heap α} {g : List UInt8 → Act Lists α}
    (after : size ≤ bytes.length → Agrees Stands x (g (bytes.take size) t)) :
    Agrees Stands x ((Meaning.whole size bytes >>= g) t) := by
  unfold Meaning.whole
  split
  · next enough => exact after enough
  · exact .undefined

theorem Stands.keep {h' : Heap} {n : Nat} {a : Array} {slots : Nat → List UInt8} (stands : Stands h t)
    (listed : h.arrays[n]? = some a) (within : Within h h' a.data (a.capacity * a.elemSize) a.elemSize slots)
    (items : List (List UInt8)) (same : items.length = a.len)
    (known : ∀ i, i < items.length → items[i]? = some (slots i)) : Stands h' (t.set n ⟨a.elemSize,items⟩) := by
  obtain ⟨e,_,held⟩ := stands.elements listed
  have stored := stands.store listed within items (by have fits := held.fits; omega) known
  rw [same,within.arrays,set_same listed] at stored
  have whole : ({ h' with arrays := h.arrays } : Heap) = h' := by rw [← within.arrays]
  rw [whole] at stored
  exact stored

theorem Holds.item {a : Array} {e : Elements} {b : Block} (held : Holds h a e) (placed : h.blocks[a.data]? = some b)
    (i : Nat) : e.items[i]? = if i < a.len then some (b.slot a.elemSize i) else none := by
  obtain ⟨c,found,_,known⟩ := held.block
  rw [placed] at found
  cases found
  split
  · next less => exact known i less
  · next beyond => exact List.getElem?_eq_none (by rw [held.len]; omega)

theorem Holds.placed {a : Array} {e : Elements} (held : Holds h a e) :
    ∃ b, h.blocks[a.data]? = some b ∧ b.size = a.capacity * a.elemSize := by
  obtain ⟨b,placed,large,_⟩ := held.block
  exact ⟨b,placed,large⟩

theorem Holds.room_for {a : Array} {e : Elements} {i : Nat} (held : Holds h a e) (inside : i ≤ a.len) :
    i * a.elemSize ≤ a.capacity * a.elemSize := Nat.mul_le_mul_right _ (Nat.le_trans inside held.fits)

/-- What stands in an array can be passed on. -/
theorem Stands.carries {n i : Nat} {a : Array} {b : Block} (stands : Stands h t) (listed : h.arrays[n]? = some a)
    (placed : h.blocks[a.data]? = some b) (fits : (i + 1) * a.elemSize ≤ b.size) :
    Carries h (.inside (a.at i)) (b.slot a.elemSize i) := by
  rw [Nat.succ_mul] at fits
  refine ⟨fun n bound => ?_,fun k c found j overlap => ?_,fun p same => ?_⟩
  · rw [slot_length] at bound
    refine ⟨fun k => b.byte (i * a.elemSize + k),?_,?_⟩
    · have place : h.blocks[(a.at i).block]? = some b := placed
      exact read_inside place (by show i * a.elemSize + n ≤ b.size; omega)
    · rw [Block.slot,← List.map_take,List.take_range,Nat.min_eq_left bound]
  · simp only [Source.overlaps,Array.at] at overlap
    obtain ⟨block,different,below,above⟩ := overlap
    by_cases same : n = k
    · subst same
      rw [listed] at found
      cases found
      rcases Nat.lt_trichotomy i j with less | equal | more
      · have apart : (i + 1) * a.elemSize ≤ j * a.elemSize := Nat.mul_le_mul_right _ less
        rw [Nat.succ_mul] at apart
        omega
      · exact different (by rw [equal])
      · have apart : (j + 1) * a.elemSize ≤ i * a.elemSize := Nat.mul_le_mul_right _ more
        rw [Nat.succ_mul] at apart
        omega
    · exact stands.apart n k a c listed found same block
  · cases same
    exact (List.getElem?_eq_some_iff.mp placed).1

theorem agrees_get {r : Ref} {index : Int} {f : Pointer → Act Heap α} {g : List UInt8 → Act Lists α}
    (stands : Stands h t) (after : ∀ n a b i, r = some n → h.arrays[n]? = some a → h.blocks[a.data]? = some b →
      (i + 1) * a.elemSize ≤ b.size → Agrees Stands (f (a.at i) h) (g (b.slot a.elemSize i) t)) :
    Agrees Stands ((get r index >>= f) h) ((Meaning.get r index >>= g) t) := by
  unfold get Meaning.get
  simp only [bind_bind,pure_bind]
  cases r with
  | none => exact .panics stands
  | some n =>
    simp only [nonNull,pure_bind]
    refine agrees_fields stands fun a e listed told held => ?_
    refine agrees_refuse stands (by rw [held.len]) fun inside => ?_
    obtain ⟨b,placed,large⟩ := held.placed
    have less : index.toNat < a.len := by omega
    rw [List.getD_eq_getElem?_getD,held.item placed,if_pos less]
    refine after n a b _ rfl listed placed ?_
    rw [large]
    exact held.room_for less

theorem pop_item {a : Array} {e : Elements} {b : Block} (held : Holds h a e) (placed : h.blocks[a.data]? = some b)
    (some_left : ¬a.len = 0) : e.items.getLastD [] = b.slot a.elemSize (a.len - 1) := by
  rw [List.getLastD_eq_getLast?,List.getLast?_eq_getElem?,held.len,held.item placed,if_pos (by omega)]
  rfl

theorem agrees_pop {r : Ref} {f : Pointer → Act Heap α} {g : List UInt8 → Act Lists α} (stands : Stands h t)
    (after : ∀ h' t' n a b i, r = some n → Stands h' t' → h'.arrays[n]? = some a → h'.blocks[a.data]? = some b →
      (i + 1) * a.elemSize ≤ b.size → Agrees Stands (f (a.at i) h') (g (b.slot a.elemSize i) t')) :
    Agrees Stands ((pop r >>= f) h) ((Meaning.pop r >>= g) t) := by
  unfold pop Meaning.pop
  simp only [bind_bind,pure_bind]
  cases r with
  | none => exact .panics stands
  | some n =>
    simp only [nonNull,pure_bind]
    refine agrees_fields stands fun a e listed told held => ?_
    refine agrees_refuse stands (by rw [held.len]) fun some_left => ?_
    obtain ⟨b,placed,large⟩ := held.placed
    have fits := held.fits
    have shorter : e.items.dropLast.length = a.len - 1 := by rw [List.length_dropLast,held.len]
    have start : Within h h a.data (a.capacity * a.elemSize) a.elemSize _ := large ▸ Within.start placed
    have stored := stands.store listed start e.items.dropLast (by omega) fun i less => ?_
    · rw [shorter] at stored
      rw [bind_apply,bind_apply,setFields,Meaning.put,andThen_done,andThen_done,pop_item held placed some_left,held.size]
      refine after _ _ n { a with len := a.len - 1 } b (a.len - 1) rfl stored ?_ placed ?_
      · exact List.getElem?_set_self (List.getElem?_eq_some_iff.mp listed).1
      · rw [large]
        exact held.room_for (by omega)
    · rw [List.getElem?_dropLast,if_pos (by rw [held.len]; omega),held.item placed,if_pos (by omega)]

/-- A value that is read or popped from an array is passed on like one from elsewhere. -/
theorem agrees_passed {v : Value} {f : Option Source → Act Heap α} {g : Option (List UInt8) → Act Lists α}
    (stands : Stands h t) (after : ∀ h' t' x x', Stands h' t' → Passed h' x x' → Agrees Stands (f x h') (g x' t')) :
    Agrees Stands ((value v >>= f) h) ((Meaning.value v >>= g) t) := by
  cases v with
  | null => exact after h t none none stands trivial
  | bytes bytes =>
    refine after h t (some (.outside bytes)) (some bytes) stands ⟨fun n enough => ?_,fun _ _ _ _ => id,?_⟩
    · refine ⟨_,if_pos enough,?_⟩
      apply List.ext_getElem?
      intro i
      rw [List.getElem?_map,List.getElem?_take]
      by_cases less : i < n
      · rw [List.getElem?_range less,if_pos less,Option.map_some,List.getD_eq_getElem?_getD,
          List.getElem?_eq_getElem (by omega)]
        rfl
      · rw [if_neg less,List.getElem?_eq_none (by rw [List.length_range]; omega)]
        rfl
    · exact fun _ no => by cases no
  | element r index =>
    unfold value Meaning.value
    simp only [bind_bind,pure_bind]
    refine agrees_get stands fun n a b i _ listed placed fits => ?_
    exact after h t _ _ stands (stands.carries listed placed fits)
  | popped r =>
    unfold value Meaning.value
    simp only [bind_bind,pure_bind]
    refine agrees_pop stands fun h' t' n a b i _ stands' listed placed fits => ?_
    exact after h' t' _ _ stands' (stands'.carries listed placed fits)

theorem agrees_set {r : Ref} {index : Int} {v : Option Source} {v' : Option (List UInt8)} (stands : Stands h t)
    (passed : Passed h v v') : Agrees Stands (set r index v h) (Meaning.set r index v' t) := by
  refine agrees_nonNull stands fun n => ?_
  refine agrees_fields stands fun a e listed told held => ?_
  refine agrees_refuse stands (by rw [held.len]) fun inside => ?_
  cases v' with
  | none => exact .undefined
  | some bytes =>
    cases v with
    | none => exact passed.elim
    | some src =>
      rw [held.size]
      refine agrees_whole fun enough => ?_
      obtain ⟨b,placed,large⟩ := held.placed
      have start : Within h h a.data (a.capacity * a.elemSize) a.elemSize _ := large ▸ Within.start placed
      have less : index.toNat < a.len := by omega
      have copied := start.place (passed.reads _ enough) (held.room_for less) (passed.clear n a listed index.toNat)
      refine Ensures.agrees (copied.weaken fun _ h' done => ⟨rfl,?_⟩)
      refine stands.keep listed done.1 (e.items.set index.toNat _) (by rw [List.length_set,held.len]) fun i bound => ?_
      rw [List.length_set,held.len] at bound
      rw [List.getElem?_set]
      by_cases same : i = index.toNat
      · rw [if_pos same.symm,if_pos (by rw [held.len]; omega),if_pos same]
      · rw [if_neg (Ne.symm same),if_neg same,held.item placed,if_pos bound]

theorem agrees_push {m : Memory} {r : Ref} {v : Option Source} {v' : Option (List UInt8)} (stands : Stands h t)
    (passed : Passed h v v') : Agrees Stands (push m r v h) (Meaning.push r v' t) := by
  refine agrees_nonNull stands fun n => ?_
  refine agrees_value stands passed fun src bytes carries => ?_
  refine agrees_fields stands fun a e listed told held => ?_
  refine agrees_refuse stands (by rw [held.len]) fun room => ?_
  rw [held.size]
  refine agrees_whole fun enough => ?_
  have fits := held.fits
  have bounded := held.bounded
  refine Ensures.agrees ((reserve_ensures stands listed (by omega)).bind fun _ h' grown => ?_)
  obtain ⟨a',grown,stands'⟩ := grown
  have listed' := grown.listed listed
  refine fields_ensures listed' ?_
  have held' := stands'.each n a' e listed' told
  obtain ⟨b,placed,large⟩ := held'.placed
  have start : Within h' h' a'.data (a'.capacity * a'.elemSize) a'.elemSize _ := large ▸ Within.start placed
  have carries' := carries.grown grown listed
  have more := grown.enough
  rw [← grown.len] at more
  rw [← grown.elemSize] at enough
  have copied := start.place (carries'.reads _ enough) (Nat.mul_le_mul_right _ more) (carries'.clear n a' listed' a'.len)
  refine copied.bind fun _ h'' done => ⟨rfl,?_⟩
  have length : (e.items ++ [bytes.take a'.elemSize]).length = a'.len + 1 := by
    rw [List.length_append,held'.len]
    rfl
  have stored := stands'.store listed' done.1 (e.items ++ [bytes.take a'.elemSize]) (by omega) fun i less => ?_
  · rw [length] at stored
    rw [← grown.elemSize]
    exact stored
  · rw [List.getElem?_append,held'.len]
    by_cases last : i = a'.len
    · rw [if_neg (by omega),if_pos last,last,Nat.sub_self]
      rfl
    · rw [if_pos (by omega),if_neg last,held'.item placed,if_pos (by omega)]

theorem agrees_fill {r : Ref} {v : Option Source} {v' : Option (List UInt8)} (stands : Stands h t)
    (passed : Passed h v v') : Agrees Stands (fill r v h) (Meaning.fill r v' t) := by
  refine agrees_nonNull stands fun n => ?_
  refine agrees_value stands passed fun src bytes carries => ?_
  refine agrees_fields stands fun a e listed told held => ?_
  rw [held.size]
  refine agrees_whole fun enough => ?_
  obtain ⟨b,placed,large⟩ := held.placed
  have filled := fill_loop a.len placed (large ▸ held.room_for (Nat.le_refl _)) (carries.reads _ enough)
    (carries.clear n a listed)
  rw [large] at filled
  refine Ensures.agrees (filled.weaken fun _ h' done => ⟨rfl,?_⟩)
  refine stands.keep listed done _ (by rw [List.length_replicate,held.len]) fun i less => ?_
  rw [List.length_replicate,held.len] at less
  rw [List.getElem?_replicate,if_pos (by rw [held.len]; exact less),if_pos less]

theorem agrees_clear {r : Ref} (stands : Stands h t) : Agrees Stands (clear r h) (Meaning.clear r t) := by
  refine agrees_nonNull stands fun n => ?_
  refine agrees_fields stands fun a e listed told held => ?_
  obtain ⟨b,placed,large⟩ := held.placed
  have start : Within h h a.data (a.capacity * a.elemSize) a.elemSize _ := large ▸ Within.start placed
  rw [held.size]
  exact ⟨rfl,stands.store listed start [] (Nat.zero_le _) fun i less => absurd less (Nat.not_lt_zero i)⟩

theorem agrees_len {r : Ref} (stands : Stands h t) : Agrees Stands (len r h) (Meaning.len r t) := by
  refine agrees_nonNull stands fun n => ?_
  refine agrees_fields stands fun a e listed told held => ?_
  exact ⟨held.len.symm,stands⟩

theorem exchange_item {items : List (List UInt8)} {left right i : Nat} (first : left < items.length)
    (second : right < items.length) : (Meaning.exchange items left right)[i]? =
      if i = left then items[right]? else if i = right then items[left]? else items[i]? := by
  rw [Meaning.exchange,List.getElem?_set,List.length_set,List.getElem?_set]
  have whole : ∀ k, k < items.length → some (items.getD k []) = items[k]? := by
    intro k less
    rw [List.getD_eq_getElem?_getD,List.getElem?_eq_getElem less]
    rfl
  by_cases right' : right = i
  · rw [if_pos right',if_pos (by omega),whole left first]
    by_cases left' : i = left
    · rw [if_pos left']
      congr 1
      omega
    · rw [if_neg left',if_pos right'.symm]
  · rw [if_neg right']
    by_cases left' : left = i
    · rw [if_pos left',if_pos (by omega),if_pos left'.symm,whole right second]
    · rw [if_neg left',if_neg (Ne.symm left'),if_neg (Ne.symm right')]

theorem exchange_same {items : List (List UInt8)} {i : Nat} (inside : i < items.length) :
    Meaning.exchange items i i = items := by
  apply List.ext_getElem?
  intro k
  rw [exchange_item inside inside]
  split
  · next same => rw [same]
  · rfl

theorem agrees_swap {r : Ref} {left right : Int} (stands : Stands h t) :
    Agrees Stands (swap r left right h) (Meaning.swap r left right t) := by
  refine agrees_nonNull stands fun n => ?_
  refine agrees_fields stands fun a e listed told held => ?_
  refine agrees_refuse stands (by rw [held.len]) fun inside => ?_
  have inside' : left.toNat < a.len ∧ right.toNat < a.len := by omega
  split
  · next same =>
    rw [same,exchange_same (by rw [held.len]; exact inside'.2)]
    refine ⟨rfl,?_⟩
    rw [set_same told]
    exact stands
  · next different =>
    obtain ⟨b,placed,large⟩ := held.placed
    have start : Within h h a.data (a.capacity * a.elemSize) a.elemSize _ := large ▸ Within.start placed
    have swapped := swap_loop start (held.room_for (Nat.le_refl _)) inside'.1 inside'.2 (by omega)
    refine Ensures.agrees (swapped.weaken fun _ h' done => ⟨rfl,?_⟩)
    rw [held.size]
    have length : (Meaning.exchange e.items left.toNat right.toNat).length = a.len := by
      rw [Meaning.exchange,List.length_set,List.length_set,held.len]
    refine stands.keep listed done _ length fun i less => ?_
    rw [length] at less
    rw [exchange_item (by rw [held.len]; omega) (by rw [held.len]; omega),held.item placed,held.item placed,
      held.item placed,if_pos less,if_pos inside'.1,if_pos inside'.2]
    split
    · rfl
    · split <;> rfl

theorem agrees_reverse {r : Ref} (stands : Stands h t) : Agrees Stands (reverse r h) (Meaning.reverse r t) := by
  refine agrees_nonNull stands fun n => ?_
  refine agrees_fields stands fun a e listed told held => ?_
  obtain ⟨b,placed,large⟩ := held.placed
  have reversed := reverse_loop listed placed (large ▸ held.room_for (Nat.le_refl _))
  rw [large] at reversed
  refine Ensures.agrees (reversed.weaken fun _ h' done => ⟨rfl,?_⟩)
  rw [held.size]
  refine stands.keep listed done e.items.reverse (by rw [List.length_reverse,held.len]) fun i less => ?_
  rw [List.length_reverse,held.len] at less
  rw [List.getElem?_reverse (by rw [held.len]; exact less),held.len,held.item placed,if_pos (by omega),if_pos less]

theorem agrees_extend {m : Memory} {destination source : Ref} (stands : Stands h t) :
    Agrees Stands (extend m destination source h) (Meaning.extend destination source t) := by
  refine agrees_nonNull stands fun n => ?_
  refine agrees_nonNull stands fun k => ?_
  refine agrees_fields stands fun d e listed told held => ?_
  refine agrees_fields stands fun s e' listed' told' held' => ?_
  refine agrees_refuse stands (by rw [held.size,held'.size]) fun alike => ?_
  have equal : d.elemSize = s.elemSize := not_not.mp alike
  have fits := held.fits
  have bounded := held.bounded
  have fits' := held'.fits
  have bounded' := held'.bounded
  split
  · next empty =>
    have none : e'.items = [] := List.eq_nil_of_length_eq_zero (by rw [held'.len,empty])
    rw [refuse_passed (by rw [held.len,none,List.length_nil]; omega),none,List.append_nil]
    refine ⟨rfl,?_⟩
    rw [set_same told]
    exact stands
  · next some_left =>
    refine agrees_refuse stands (by rw [held.len,held'.len]; omega) fun small => ?_
    refine Ensures.agrees ((reserve_ensures stands listed (by omega)).bind fun _ h' grown => ?_)
    obtain ⟨d',grown,stands'⟩ := grown
    refine fields_ensures (grown.listed listed) ?_
    obtain ⟨s',listed'',same,same'⟩ : ∃ s', h'.arrays[k]? = some s' ∧ s'.elemSize = s.elemSize ∧ s'.len = s.len := by
      by_cases self : n = k
      · subst self
        rw [listed] at listed'
        cases listed'
        exact ⟨d',grown.listed listed,grown.elemSize,grown.len⟩
      · exact ⟨s,by rw [grown.arrays,List.getElem?_set_ne self]; exact listed',rfl,rfl⟩
    refine fields_ensures listed'' ?_
    have heldd := stands'.each n d' e (grown.listed listed) told
    have helds := stands'.each k s' e' listed'' told'
    obtain ⟨b,placed,large⟩ := heldd.placed
    obtain ⟨c,placed',large'⟩ := helds.placed
    have start : Within h' h' d'.data (d'.capacity * d'.elemSize) d'.elemSize _ := large ▸ Within.start placed
    have more := grown.enough
    have same'' := grown.elemSize
    have length' := grown.len
    have alike' : s'.elemSize = d'.elemSize := by omega
    rw [alike'] at large'
    have copied := start.copy (q := 0) (j := d'.len) (n := s.len) placed' ?_ ?_ ?_
    · simp only [Array.at,alike']
      refine copied.bind fun _ h'' done => ?_
      refine ⟨trivial,?_⟩
      have length : (e.items ++ e'.items).length = d'.len + s.len := by
        rw [List.length_append,heldd.len,held'.len]
      have stored := stands'.store (grown.listed listed) done (e.items ++ e'.items) (by omega) fun i less => ?_
      · rw [length] at stored
        rw [held.size,← same'']
        exact stored
      · rw [List.getElem?_append,heldd.len,heldd.item placed,helds.item placed',alike']
        by_cases own : i < d'.len
        · rw [if_pos own,if_pos own,if_neg (by omega)]
        · rw [if_neg own,if_pos (by omega),if_pos (by omega),Nat.zero_add]
    · rw [Nat.zero_add,large']
      exact Nat.mul_le_mul_right _ (by have ok := helds.fits; omega)
    · exact Nat.mul_le_mul_right _ (by omega)
    · intro block
      by_cases self : n = k
      · subst self
        have one : some d' = some s' := (grown.listed listed).symm.trans listed''
        cases one
        omega
      · exact absurd block.symm (stands'.apart n k d' s' (grown.listed listed) listed'' self)

theorem agrees_removeAt {r : Ref} {index : Int} {outNull : Bool} (stands : Stands h t) :
    Agrees Stands (removeAt r index outNull h) (Meaning.removeAt r index outNull t) := by
  refine agrees_nonNull stands fun n => ?_
  refine agrees_refuse stands Iff.rfl fun _ => ?_
  refine agrees_fields stands fun a e listed told held => ?_
  refine agrees_refuse stands (by rw [held.len]) fun inside => ?_
  have less : index.toNat < a.len := by omega
  obtain ⟨b,placed,large⟩ := held.placed
  rw [bind_apply,bytesAt_slot placed (large ▸ held.room_for less),andThen_done]
  have item : e.items.getD index.toNat [] = b.slot a.elemSize index.toNat := by
    rw [List.getD_eq_getElem?_getD,held.item placed,if_pos less]
    rfl
  rw [item]
  have moved := down_loop placed (large ▸ held.room_for (Nat.le_refl _)) less
  rw [large] at moved
  refine Ensures.agrees (moved.bind fun _ h' done => ⟨rfl,?_⟩)
  have length : (e.items.eraseIdx index.toNat).length = a.len - 1 := by
    rw [List.length_eraseIdx,held.len,if_pos less]
  have fits := held.fits
  have stored := stands.store listed done (e.items.eraseIdx index.toNat) (by omega) fun i bound => ?_
  · rw [length] at stored
    rw [held.size]
    exact stored
  · rw [length] at bound
    rw [List.getElem?_eraseIdx,held.item placed,held.item placed]
    by_cases before : i < index.toNat
    · rw [if_pos before,if_pos (by omega),if_neg (by omega)]
    · rw [if_neg before,if_pos (by omega),if_pos (by omega)]

/-- `osc_array_insert` keeps a copy of the value before the elements move. -/
theorem keep_copy {m : Memory} {owner es : Nat} {src : Source} {bytes : List UInt8} {f : Nat → Act Heap α}
    {post : α → Heap → Prop} (stands : Stands h t) (carries : Carries h src bytes) (enough : es ≤ bytes.length)
    (after : ∀ h', Stands h' t → h'.arrays = h.arrays → h'.blocks.length = h.blocks.length + 1 →
      (Source.inside ⟨h.blocks.length,0⟩).Gives h' es (bytes.take es) →
      Ensures (f h.blocks.length) h' post) :
    Ensures (do
      let copy ← arenaAlloc m owner es
      memcpy ⟨copy,0⟩ src es
      f copy) h post := by
  refine arenaAlloc_ensures.bind fun copy h' made => ?_
  obtain ⟨rfl,rfl⟩ := made
  generalize same : Block.mk es (m.contents h owner) = b
  have size : b.size = es := by rw [← same]
  have last : (h.blocks ++ [b])[h.blocks.length]? = some b := by
    rw [List.getElem?_append_right (Nat.le_refl _),Nat.sub_self]
    rfl
  have start : Within { h with blocks := h.blocks ++ [b] } { h with blocks := h.blocks ++ [b] } h.blocks.length es es _ :=
    size ▸ Within.start last
  have gives : src.Gives { h with blocks := h.blocks ++ [b] } es (bytes.take es) :=
    (carries.reads es enough).keeps Keeps.alloc
  have clear : ¬src.overlaps es ⟨h.blocks.length,0 * es⟩ := by
    cases src with
    | outside memory => exact id
    | inside p =>
      have old := carries.old p rfl
      simp only [Source.overlaps]
      omega
  have copied := start.place gives (by omega) clear
  rw [Nat.zero_mul] at copied
  refine copied.bind fun _ h' done => ?_
  obtain ⟨within,_⟩ := done
  obtain ⟨c,now,whole,slots⟩ := within.block
  refine after h' ?_ within.arrays ?_ ?_
  · refine stands.blocks within.arrays fun n a listed => ?_
    have known := stands.known listed
    rw [within.others a.data (by omega)]
    exact List.getElem?_append_left known
  · have bound := (List.getElem?_eq_some_iff.mp now).1
    have beyond := within.others (h.blocks.length + 1) (by omega)
    have none : (h.blocks ++ [b])[h.blocks.length + 1]? = none := by
      apply List.getElem?_eq_none
      simp
    rw [none] at beyond
    have limit := List.getElem?_eq_none_iff.mp beyond
    omega
  · refine ⟨_,read_inside now (by show 0 + es ≤ c.size; omega),?_⟩
    have zero := slots 0
    rw [if_pos rfl,Block.slot,Nat.zero_mul] at zero
    exact zero

theorem agrees_insert {m : Memory} {r : Ref} {index : Int} {v : Option Source} {v' : Option (List UInt8)}
    (stands : Stands h t) (passed : Passed h v v') : Agrees Stands (insert m r index v h) (Meaning.insert r index v' t) := by
  refine agrees_nonNull stands fun n => ?_
  refine agrees_value stands passed fun src bytes carries => ?_
  refine agrees_fields stands fun a e listed told held => ?_
  refine agrees_refuse stands (by rw [held.len]) fun inside => ?_
  refine agrees_refuse stands (by rw [held.len]) fun room => ?_
  rw [held.size]
  refine agrees_whole fun enough => ?_
  have fits := held.fits
  have bounded := held.bounded
  have known := stands.known listed
  refine Ensures.agrees (keep_copy stands carries enough fun h' stands' arrays count gives => ?_)
  have listed' : h'.arrays[n]? = some a := by rw [arrays]; exact listed
  refine (reserve_ensures stands' listed' (by omega)).bind fun _ h'' grown => ?_
  obtain ⟨a',grown,stands''⟩ := grown
  have listed'' := grown.listed listed'
  refine fields_ensures listed'' ?_
  have held' := stands''.each n a' e listed'' told
  obtain ⟨b,placed,large⟩ := held'.placed
  have more := grown.enough
  have len := grown.len
  have fresh : a'.data ≠ h.blocks.length := by
    have data := grown.data
    omega
  have whole : (a'.len + 1) * a'.elemSize ≤ a'.capacity * a'.elemSize := Nat.mul_le_mul_right _ (by omega)
  have inside' : index.toNat ≤ a'.len := by omega
  have moved := up_loop placed (large ▸ whole) inside'
  rw [large] at moved
  refine moved.bind fun _ h''' done => ?_
  have gives' : (Source.inside ⟨h.blocks.length,0⟩).Gives h''' a'.elemSize (bytes.take a.elemSize) := by
    rw [grown.elemSize]
    exact (gives.keeps grown.kept).same (done.others _ (Ne.symm fresh))
  have clear : ¬(Source.inside ⟨h.blocks.length,0⟩).overlaps a'.elemSize ⟨a'.data,index.toNat * a'.elemSize⟩ := by
    simp only [Source.overlaps]
    omega
  refine (done.place gives' (Nat.le_trans (Nat.mul_le_mul_right _ (by omega)) whole) clear).bind fun _ h4 placed' => ?_
  refine ⟨rfl,?_⟩
  have length : (e.items.insertIdx index.toNat (bytes.take a.elemSize)).length = a'.len + 1 := by
    rw [List.length_insertIdx,held'.len,if_pos (by omega)]
  have stored := stands''.store listed'' placed'.1 _ (by rw [length]; omega) fun i less => ?_
  · rw [length] at stored
    rw [← grown.elemSize] at stored ⊢
    exact stored
  · rw [length] at less
    rw [List.getElem?_insertIdx,held'.item placed,held'.item placed,held'.len]
    by_cases before : i < index.toNat
    · rw [if_pos before,if_pos (by omega),if_neg (by omega),if_neg (by omega)]
    · rw [if_neg before]
      by_cases here : i = index.toNat
      · rw [if_pos here,if_pos (by omega),if_pos here]
      · rw [if_neg here,if_pos (by omega),if_neg here,if_pos (by omega)]

theorem int32_le (i : Int32) : i.toInt.toNat ≤ int32Max := by
  have bound := i.toInt_lt
  unfold int32Max
  omega

/-- A new array is empty, and nothing else has changed. -/
structure Added (h h' : Heap) (es capacity : Nat) (n : Nat) (a : Array) : Prop where
  number : n = h.arrays.length
  arrays : h'.arrays = h.arrays ++ [a]
  kept : Keeps h h'
  elemSize : a.elemSize = es
  empty : a.len = 0
  enough : capacity ≤ a.capacity
  fresh : h.blocks.length ≤ a.data

theorem Added.listed {h' : Heap} {es capacity n : Nat} {a : Array} (added : Added h h' es capacity n a) :
    h'.arrays[n]? = some a := by
  rw [added.arrays,added.number,List.getElem?_append_right (Nat.le_refl _),Nat.sub_self]
  rfl

theorem new_ensures {m : Memory} {arena : Nat} {elemSize capacity : Int} (stands : Stands h t) (positive : 0 < elemSize)
    (small : elemSize.toNat ≤ int32Max) (least : 0 ≤ capacity) (bounded : capacity.toNat ≤ int32Max) :
    Ensures (new m arena elemSize capacity) h fun n h' => ∃ a, Added h h' elemSize.toNat capacity.toNat n a ∧
      Stands h' (t ++ [⟨elemSize.toNat,[]⟩]) := by
  refine .refuse (by omega) (.refuse (by omega) ?_)
  refine arenaAlloc_ensures.bind fun _ h1 made => ?_
  obtain ⟨_,rfl⟩ := made
  generalize struct : Block.mk sizeOfArray (m.contents h arena) = b
  generalize chosen : (if capacity > 0 then capacity.toNat else 4) = c
  have enough : capacity.toNat ≤ c ∧ 0 < c ∧ c ≤ int32Max := by
    rw [← chosen]
    unfold int32Max at bounded ⊢
    split <;> omega
  refine .refuse (size_fits enough.2.2 small (by omega)) ?_
  refine arenaAlloc_ensures.bind fun data h2 made => ?_
  obtain ⟨rfl,rfl⟩ := made
  generalize block : Block.mk (c * elemSize.toNat) _ = d
  have size : d.size = c * elemSize.toNat := by rw [← block]
  have last : ((h.blocks ++ [b]) ++ [d])[(h.blocks ++ [b]).length]? = some d := by
    rw [List.getElem?_append_right (Nat.le_refl _),Nat.sub_self]
    rfl
  have kept : Keeps h ⟨(h.blocks ++ [b]) ++ [d],h.arrays ++ [⟨elemSize.toNat,0,c,(h.blocks ++ [b]).length,arena⟩]⟩ := by
    intro i x older
    have bound := (List.getElem?_eq_some_iff.mp older).1
    show ((h.blocks ++ [b]) ++ [d])[i]? = some x
    rw [List.append_assoc,List.getElem?_append_left bound]
    exact older
  have fresh : h.blocks.length ≤ (h.blocks ++ [b]).length := by
    rw [List.length_append]
    exact Nat.le_add_right _ _
  refine ⟨_,⟨rfl,rfl,kept,rfl,rfl,enough.1,fresh⟩,stands.add rfl kept fresh ?_⟩
  exact ⟨rfl,by show 0 < elemSize.toNat; omega,small,rfl,Nat.zero_le _,enough.2.1,enough.2.2,d,last,size,
    fun i less => absurd less (Nat.not_lt_zero i)⟩

theorem Added.filled {h' h'' : Heap} {es capacity n : Nat} {a : Array} {slots : Nat → List UInt8}
    (added : Added h h' es capacity n a) (stands : Stands h t) (stands' : Stands h' (t ++ [⟨es,[]⟩]))
    (within : Within h' h'' a.data (a.capacity * a.elemSize) a.elemSize slots) (items : List (List UInt8))
    (count : items.length = capacity) (known : ∀ i, i < items.length → items[i]? = some (slots i)) :
    n = t.length ∧ Stands { h'' with arrays := h''.arrays.set n { a with len := capacity } } (t ++ [⟨a.elemSize,items⟩]) := by
  have number : n = t.length := added.number.trans stands.count
  refine ⟨number,?_⟩
  have enough := added.enough
  have stored := stands'.store added.listed within items (by omega) known
  rw [count,number,List.set_append_right _ _ (Nat.le_refl _),Nat.sub_self] at stored
  rw [number]
  exact stored

/-- A new array takes some elements of an old one. -/
theorem copy_ensures {m : Memory} {arena k q count : Nat} {a : Array} {e : Elements} (stands : Stands h t)
    (listed : h.arrays[k]? = some a) (told : t[k]? = some e) (inside : q + count ≤ a.len) :
    Ensures (do
      let result ← new m arena a.elemSize count
      let b ← fields result
      copyElements (b.at 0) (a.at q) count a.elemSize
      setFields result { b with len := count }
      pure result) h fun n h' => n = t.length ∧ Stands h' (t ++ [⟨a.elemSize,(e.items.drop q).take count⟩]) := by
  have held := stands.each k a e listed told
  have fits := held.fits
  have bounded := held.bounded
  have positive := held.positive
  have made : Ensures (new m arena a.elemSize count) h _ := new_ensures stands (by omega)
    (by rw [Int.toNat_natCast]; exact held.small) (Int.natCast_nonneg _) (by rw [Int.toNat_natCast]; omega)
  refine made.bind fun n h' added => ?_
  simp only [Int.toNat_natCast] at added
  obtain ⟨b,added,stands'⟩ := added
  refine fields_ensures added.listed ?_
  obtain ⟨c,placed,large⟩ := held.placed
  obtain ⟨d,placed',large'⟩ := (stands'.elements added.listed).choose_spec.2.placed
  have start : Within h' h' b.data (b.capacity * b.elemSize) b.elemSize _ := large' ▸ Within.start placed'
  have known := stands.known listed
  have fresh := added.fresh
  have enough := added.enough
  have size := added.elemSize
  simp only [Array.at,Nat.zero_mul]
  rw [← size] at large ⊢
  have copied := start.copySome (q := q) (n := count) (added.kept _ c placed) (by rw [large]; exact Nat.mul_le_mul_right _ (by omega))
    (Nat.mul_le_mul_right _ enough) (by omega)
  refine copied.bind fun _ h'' done => ?_
  obtain ⟨slots,within,same⟩ := done
  have length : ((e.items.drop q).take count).length = count := by
    rw [List.length_take,List.length_drop,held.len]
    omega
  refine show n = t.length ∧ Stands _ _ from added.filled stands (size ▸ stands') within _ length fun i less => ?_
  rw [length] at less
  rw [List.getElem?_take,if_pos less,List.getElem?_drop,held.item placed,if_pos (by omega),same i less,size]

theorem agrees_clone {m : Memory} {arena : Nat} {r : Ref} (stands : Stands h t) :
    Agrees Stands (clone m arena r h) (Meaning.clone r t) := by
  refine agrees_nonNull stands fun n => ?_
  refine agrees_fields stands fun a e listed told held => ?_
  have inside : 0 + a.len ≤ a.len := Nat.le_of_eq (Nat.zero_add a.len)
  refine Ensures.agrees (Ensures.weaken (copy_ensures stands listed told inside) fun k h' done => ⟨done.1,?_⟩)
  have whole := done.2
  rw [List.drop_zero,← held.len,List.take_length,← held.size] at whole
  exact whole

theorem agrees_slice {m : Memory} {arena : Nat} {r : Ref} {start stop : Int} (stands : Stands h t) :
    Agrees Stands (slice m arena r start stop h) (Meaning.slice r start stop t) := by
  refine agrees_nonNull stands fun n => ?_
  refine agrees_fields stands fun a e listed told held => ?_
  refine agrees_refuse stands (by rw [held.len]) fun inside => ?_
  rw [held.size]
  exact Ensures.agrees (copy_ensures stands listed told (by omega))

theorem agrees_new {m : Memory} {arena : Nat} {elemSize capacity : Int32} (stands : Stands h t) :
    Agrees Stands (new m arena elemSize.toInt capacity.toInt h) (Meaning.new elemSize.toInt capacity.toInt [] t) := by
  by_cases positive : elemSize.toInt ≤ 0
  · rw [new,Meaning.new,refuse_found positive,refuse_found positive]
    exact .panics stands
  · by_cases least : capacity.toInt < 0
    · rw [new,Meaning.new,refuse_passed positive,refuse_passed positive,refuse_found least,refuse_found least]
      exact .panics stands
    · have made : Ensures (new m arena elemSize.toInt capacity.toInt) h _ :=
        new_ensures stands (by omega) (int32_le elemSize) (by omega) (int32_le capacity)
      rw [Meaning.new,refuse_passed positive,refuse_passed least]
      refine Ensures.agrees (made.weaken fun n h' added => ?_)
      obtain ⟨a,added,stands'⟩ := added
      exact ⟨added.number.trans stands.count,stands'⟩

theorem Carries.added {h' : Heap} {src : Source} {bytes : List UInt8} {es capacity n : Nat} {a : Array}
    (carries : Carries h src bytes) (added : Added h h' es capacity n a) : Carries h' src bytes := by
  refine ⟨fun k bound => (carries.reads k bound).keeps added.kept,fun k c listed i => ?_,fun p same => ?_⟩
  · rw [added.arrays,List.getElem?_append] at listed
    split at listed
    · exact carries.clear k c listed i
    · have last := List.getElem?_eq_some_iff.mp listed
      obtain ⟨bound,same⟩ := last
      rw [List.getElem_singleton] at same
      subst same
      cases src with
      | outside memory => exact id
      | inside p =>
        have old := carries.old p rfl
        have fresh := added.fresh
        simp only [Source.overlaps,Array.at]
        omega
  · have length := added.kept.length
    have old := carries.old p same
    omega

theorem agrees_repeat {m : Memory} {arena : Nat} {elemSize count : Int32} {v : Option Source}
    {v' : Option (List UInt8)} (stands : Stands h t) (passed : Passed h v v') :
    Agrees Stands (repeat' m arena elemSize.toInt v count.toInt h) (Meaning.repeat' elemSize.toInt v' count.toInt t) := by
  refine agrees_value stands passed fun src bytes carries => ?_
  refine agrees_refuse stands Iff.rfl fun least => ?_
  by_cases positive : elemSize.toInt ≤ 0
  · rw [new,bind_apply,refuse_found positive,refuse_found positive]
    exact .panics stands
  · rw [refuse_passed positive]
    refine agrees_whole fun enough => ?_
    have made : Ensures (new m arena elemSize.toInt count.toInt) h _ :=
      new_ensures stands (by omega) (int32_le elemSize) (by omega) (int32_le count)
    refine Ensures.agrees (made.bind fun n h' added => ?_)
    obtain ⟨b,added,stands'⟩ := added
    refine fields_ensures added.listed ?_
    obtain ⟨d,placed,large⟩ := (stands'.elements added.listed).choose_spec.2.placed
    have carries' := carries.added added
    have size := added.elemSize
    rw [← size] at enough ⊢
    have filled := fill_loop count.toInt.toNat placed (large ▸ Nat.mul_le_mul_right _ added.enough)
      (carries'.reads _ enough) (carries'.clear n b added.listed)
    rw [large] at filled
    refine filled.bind fun _ h'' within => ?_
    refine show n = t.length ∧ Stands _ _ from
      added.filled stands stands' within _ List.length_replicate fun i less => ?_
    rw [List.length_replicate] at less
    rw [List.getElem?_replicate,if_pos less,if_pos less]

end Oscan.Runtime.Arrays
