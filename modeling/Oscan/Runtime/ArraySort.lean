import Oscan.Runtime.TypedArray
import Mathlib.Data.List.Nodup

/-! The gapped insertion sort puts every array in order, and the searches, counts and comparisons agree with the
order. -/
namespace Oscan.Runtime.TypedArray
open Library Library.Comparing

variable {α : Type} {cmp : α → α → Int}

/-! The elements stay -/

/-- The element on its way is where the loop stands. -/
theorem place_perm {gap : Nat} {positive : 0 < gap} {value : α} {data : List α} {j : Nat} :
    j < data.length → (place cmp gap positive value data j).Perm (data.set j value) := by
  fun_induction place cmp gap positive value data j with
  | case1 data j far x known greater ih =>
    intro inside
    have before : j - gap < (data.set j value).length := by rw [List.length_set]; omega
    have here : j < (data.set j value).length := by rwa [List.length_set]
    have swapped := List.set_set_perm here before
    have own : (data.set j value)[j] = value := List.getElem_set_self _
    have other : (data.set j value)[j - gap] = x := by
      rw [List.getElem_set_of_ne (by omega)]
      exact (List.getElem?_eq_some_iff.mp known).2
    rw [own,other,List.set_set] at swapped
    exact (ih (by rw [List.length_set]; omega)).trans swapped
  | case2 => exact fun _ => .refl _
  | case3 data j far unknown =>
    intro inside
    rw [List.getElem?_eq_none_iff] at unknown
    omega
  | case4 => exact fun _ => .refl _

theorem placed_perm (gap : Nat) (positive : 0 < gap) (data : List α) (i : Nat) :
    (data[i]?.elim data fun value => place cmp gap positive value data i).Perm data := by
  cases known : data[i]? with
  | none => exact .refl _
  | some value =>
    obtain ⟨inside,rfl⟩ := List.getElem?_eq_some_iff.mp known
    have placed : (place cmp gap positive data[i] data i).Perm (data.set i data[i]) := place_perm inside
    rwa [List.set_getElem_self] at placed

theorem places_perm (gap : Nat) (positive : 0 < gap) : ∀ (is : List Nat) (data : List α),
    (is.foldl (fun data i => data[i]?.elim data fun value => place cmp gap positive value data i) data).Perm data
  | [],_ => .refl _
  | i :: is,data => (places_perm gap positive is _).trans (placed_perm gap positive data i)

theorem sortFrom_perm (gap : Nat) (data : List α) : (sortFrom cmp gap data).Perm data := by
  fun_induction sortFrom cmp gap data with
  | case1 gap data positive ih => exact ih.trans (places_perm gap positive _ data)
  | case2 => exact .refl _

/-! The last pass puts them in order -/

/-- The elements before a place are in order. -/
def OrderedTo (cmp : α → α → Int) (n : Nat) (data : List α) : Prop :=
  ∀ (k l : Nat) (a b : α), k < l → l < n → data[k]? = some a → data[l]? = some b → cmp a b ≤ 0

/-- All up to a place but the one that is free are in order, and those behind it are not below a value. -/
structure Room (cmp : α → α → Int) (value : α) (n j : Nat) (data : List α) : Prop where
  ordered : ∀ (k l : Nat) (a b : α), k < l → l ≤ n → k ≠ j → l ≠ j → data[k]? = some a → data[l]? = some b → cmp a b ≤ 0
  above : ∀ (l : Nat) (b : α), j < l → l ≤ n → data[l]? = some b → cmp value b ≤ 0

theorem set_some {data : List α} {j : Nat} {x y : α} (known : (data.set j x)[j]? = some y) : y = x := by
  rw [List.getElem?_set_self'] at known
  cases there : data[j]? with
  | none => simp [there] at known
  | some z => simpa [there] using known.symm

theorem set_other {data : List α} {j k : Nat} (x : α) (other : k ≠ j) : (data.set j x)[k]? = data[k]? :=
  List.getElem?_set_ne other.symm

theorem Room.fill {value : α} {n j : Nat} {data : List α} (room : Room cmp value n j data)
    (below : ∀ (k : Nat) (a : α), k < j → data[k]? = some a → cmp a value ≤ 0) :
    OrderedTo cmp (n + 1) (data.set j value) := by
  intro k l a b less limit first second
  by_cases own : k = j
  · subst own
    rw [set_other _ (by omega)] at second
    rw [set_some first]
    exact room.above l b less (by omega) second
  · rw [set_other _ own] at first
    by_cases last : l = j
    · subst last
      rw [set_some second]
      exact below k a less first
    · rw [set_other _ last] at second
      exact room.ordered k l a b less (by omega) own last first second

theorem Room.shift {value x : α} {n j : Nat} {data : List α} (room : Room cmp value n j data) (positive : 1 ≤ j)
    (known : data[j - 1]? = some x) (greater : cmp value x ≤ 0) : Room cmp value n (j - 1) (data.set j x) where
  ordered k l a b less limit notFirst notLast first second := by
    by_cases own : k = j
    · subst own
      rw [set_other _ (by omega)] at second
      rw [set_some first]
      exact room.ordered (k - 1) l x b (by omega) limit (by omega) (by omega) known second
    · rw [set_other _ own] at first
      by_cases last : l = j
      · subst last
        rw [set_some second]
        exact room.ordered k (l - 1) a x (by omega) (by omega) own (by omega) first known
      · rw [set_other _ last] at second
        exact room.ordered k l a b less limit own last first second
  above l b less limit second := by
    by_cases last : l = j
    · subst last
      rw [set_some second]
      exact greater
    · rw [set_other _ last] at second
      exact room.above l b (by omega) limit second

theorem place_ordered (law : Comparison cmp) {one : 0 < 1} {value : α} {n : Nat} {data : List α} {j : Nat} :
    j ≤ n → j < data.length → Room cmp value n j data → OrderedTo cmp (n + 1) (place cmp 1 one value data j) := by
  fun_induction place cmp 1 one value data j with
  | case1 data j far x known greater ih =>
    intro limit inside room
    have flip := law.flip x value
    exact ih (by omega) (by rw [List.length_set]; omega) (room.shift far known (by omega))
  | case2 data j far x known notGreater =>
    intro limit inside room
    refine room.fill fun k a less first => ?_
    by_cases last : k = j - 1
    · rw [last,known] at first
      obtain rfl := Option.some.inj first
      omega
    · have before := room.ordered k (j - 1) a x (by omega) (by omega) (by omega) (by omega) first known
      exact law.trans a x value before (by omega)
  | case3 data j far unknown =>
    intro limit inside
    rw [List.getElem?_eq_none_iff] at unknown
    omega
  | case4 data j near => exact fun _ _ room => room.fill fun k a less => absurd less (by omega)

theorem places_ordered (law : Comparison cmp) (one : 0 < 1) : ∀ (n s : Nat) (data : List α), s + n ≤ data.length →
    OrderedTo cmp s data → OrderedTo cmp (s + n)
      ((List.range' s n).foldl (fun data i => data[i]?.elim data fun value => place cmp 1 one value data i) data)
  | 0,_,_,_,ordered => ordered
  | n + 1,s,data,limit,ordered => by
    rw [List.range'_succ,List.foldl_cons]
    have inside : s < data.length := by omega
    have room : Room cmp data[s] s s data :=
      ⟨fun k l a b less limit _ notLast => ordered k l a b less (by omega),fun l b less limit => by omega⟩
    have placed : OrderedTo cmp (s + 1) (place cmp 1 one data[s] data s) :=
      place_ordered law (Nat.le_refl s) inside room
    have length : (place cmp 1 one data[s] data s).length = data.length := by
      rw [(place_perm inside).length_eq,List.length_set]
    rw [List.getElem?_eq_getElem inside,Option.elim_some,show s + (n + 1) = s + 1 + n by omega]
    exact places_ordered law one n (s + 1) _ (by omega) placed

theorem pass_ordered (law : Comparison cmp) (one : 0 < 1) (data : List α) :
    OrderedTo cmp data.length (pass cmp 1 one data) := by
  have start : OrderedTo cmp 1 data := fun k l a b less limit => by omega
  by_cases short : data.length ≤ 1
  · intro k l a b less limit
    omega
  · have passed := places_ordered law one (data.length - 1) 1 data (by omega) start
    rwa [show 1 + (data.length - 1) = data.length by omega] at passed

theorem sortFrom_ordered (law : Comparison cmp) (gap : Nat) (data : List α) :
    0 < gap → OrderedTo cmp data.length (sortFrom cmp gap data) := by
  fun_induction sortFrom cmp gap data with
  | case1 gap data positive ih =>
    intro _
    have length : (pass cmp gap positive data).length = data.length := (places_perm gap positive _ data).length_eq
    by_cases last : gap = 1
    · subst last
      have none : sortFrom cmp (1 / 2) (pass cmp 1 positive data) = pass cmp 1 positive data := by
        rw [sortFrom,dif_neg (by decide)]
      rw [none]
      exact pass_ordered law positive data
    · rw [← length]
      exact ih (by omega)
  | case2 gap data none => exact fun positive => absurd positive none

theorem arraySort_sorted (law : Comparison cmp) (arr : List α) :
    (arraySort cmp arr).Pairwise fun a b => cmp a b ≤ 0 := by
  have length : (arraySort cmp arr).length = arr.length := (sortFrom_perm _ arr).length_eq
  rw [List.pairwise_iff_getElem]
  intro k l inside limit less
  have ordered : OrderedTo cmp arr.length (arraySort cmp arr) := sortFrom_ordered law _ arr (by omega)
  exact ordered k l _ _ less (by omega) (List.getElem?_eq_getElem inside) (List.getElem?_eq_getElem limit)

/-! Searching -/

/-- The element at a place compares equal to a key. -/
def Equal (cmp : α → α → Int) (arr : List α) (key : α) (i : Nat) : Prop := ∃ a, arr[i]? = some a ∧ cmp a key = 0

theorem equals_iff (arr : List α) (key : α) (i : Nat) : equals cmp arr key i = true ↔ Equal cmp arr key i := by
  unfold equals Equal
  cases arr[i]? <;> simp

theorem Equal.inside {arr : List α} {key : α} {i : Nat} (same : Equal cmp arr key i) : i < arr.length := by
  obtain ⟨a,known,-⟩ := same
  exact (List.getElem?_eq_some_iff.mp known).1

/-- What a search over the places in some order answers -/
theorem searched_iff {arr : List α} {key : α} {places : List Nat} (all : ∀ i, i ∈ places ↔ i < arr.length) :
    places.find? (equals cmp arr key) = none ↔ ∀ i, ¬Equal cmp arr key i := by
  rw [List.find?_eq_none]
  constructor
  · intro none i same
    exact none i ((all i).mpr same.inside) ((equals_iff arr key i).mpr same)
  · intro none i _ same
    exact none i ((equals_iff arr key i).mp same)

theorem arrayIndexOf_absent (arr : List α) (key : α) : arrayIndexOf cmp arr key = -1 ↔ ∀ i, ¬Equal cmp arr key i := by
  rw [← searched_iff fun i => List.mem_range,arrayIndexOf]
  split
  next i found => simp [found]
  next missing => simp [missing]

theorem arrayIndexOf_iff (arr : List α) (key : α) (i : Nat) :
    arrayIndexOf cmp arr key = i ↔ Equal cmp arr key i ∧ ∀ k < i, ¬Equal cmp arr key k := by
  have found_iff (i : Nat) : (List.range arr.length).find? (equals cmp arr key) = some i ↔
      Equal cmp arr key i ∧ ∀ k < i, ¬Equal cmp arr key k := by
    rw [List.find?_range_eq_some]
    simp only [List.mem_range,Bool.not_eq_true',← Bool.not_eq_true,equals_iff]
    exact and_congr_right fun same => and_iff_right same.inside
  rw [← found_iff,arrayIndexOf]
  split
  next j found => simp [found]
  next missing => simp [missing]

theorem find_reverse_range (p : Nat → Bool) : ∀ n i : Nat,
    (List.range n).reverse.find? p = some i ↔ p i = true ∧ i < n ∧ ∀ k, i < k → k < n → p k = false
  | 0,i => by simp
  | n + 1,i => by
    rw [List.range_succ,List.reverse_append,List.reverse_singleton,List.singleton_append,List.find?_cons]
    split
    next last =>
      constructor
      · intro same
        obtain rfl := Option.some.inj same
        exact ⟨last,Nat.lt_succ_self n,fun k above below => by omega⟩
      · intro ⟨_,limit,above⟩
        by_cases own : i = n
        · rw [own]
        · exact absurd (above n (by omega) (Nat.lt_succ_self n)) (by simp [last])
    next other =>
      rw [find_reverse_range p n i]
      refine and_congr_right fun here => ?_
      have apart : i ≠ n := fun same => by simp [← same,here] at other
      constructor
      · intro ⟨limit,above⟩
        refine ⟨by omega,fun k more below => ?_⟩
        by_cases last : k = n
        · rw [last]
          simpa using other
        · exact above k more (by omega)
      · exact fun ⟨limit,above⟩ => ⟨by omega,fun k more below => above k more (by omega)⟩

theorem arrayLastIndexOf_absent (arr : List α) (key : α) :
    arrayLastIndexOf cmp arr key = -1 ↔ ∀ i, ¬Equal cmp arr key i := by
  rw [← searched_iff fun i => by rw [List.mem_reverse,List.mem_range],arrayLastIndexOf]
  split
  next i found => simp [found]
  next missing => simp [missing]

theorem arrayLastIndexOf_iff (arr : List α) (key : α) (i : Nat) :
    arrayLastIndexOf cmp arr key = i ↔ Equal cmp arr key i ∧ ∀ k, i < k → ¬Equal cmp arr key k := by
  have found_iff (i : Nat) : (List.range arr.length).reverse.find? (equals cmp arr key) = some i ↔
      Equal cmp arr key i ∧ ∀ k, i < k → ¬Equal cmp arr key k := by
    rw [find_reverse_range]
    simp only [← Bool.not_eq_true,equals_iff]
    refine and_congr_right fun same => ?_
    rw [and_iff_right same.inside]
    exact ⟨fun none k more also => none k more also.inside also,fun none k more _ => none k more⟩
  rw [← found_iff,arrayLastIndexOf]
  split
  next j found => simp [found]
  next missing => simp [missing]

theorem arrayContains_iff (arr : List α) (key : α) : arrayContains cmp arr key = true ↔ arrayIndexOf cmp arr key ≠ -1 := by
  rw [arrayContains,decide_eq_true_eq,arrayIndexOf]
  split <;> omega

theorem counted_eq (p : Nat → Bool) : ∀ (is : List Nat) (start : Int),
    is.foldl (fun count i => if p i then count + 1 else count) start = start + is.countP p
  | [],start => by simp
  | i :: is,start => by
    rw [List.foldl_cons,counted_eq p is]
    by_cases counts : p i = true
    · rw [if_pos counts,List.countP_cons_of_pos counts]
      omega
    · rw [if_neg counts,List.countP_cons_of_neg counts]

theorem arrayCount_zero (arr : List α) (key : α) : arrayCount cmp arr key = 0 ↔ ∀ i, ¬Equal cmp arr key i := by
  rw [arrayCount,counted_eq,Int.zero_add,Int.natCast_eq_zero,List.countP_eq_zero]
  simp only [List.mem_range,equals_iff]
  exact ⟨fun none i same => none i same.inside same,fun none i _ => none i⟩

/-! All operations over one comparison -/

structure Lawful (cmp : α → α → Int) : Prop where
  sorted : ∀ arr, (arraySort cmp arr).Perm arr ∧ (arraySort cmp arr).Pairwise fun a b => cmp a b ≤ 0
  first : ∀ (arr : List α) (key : α) (i : Nat),
    arrayIndexOf cmp arr key = i ↔ Equal cmp arr key i ∧ ∀ k < i, ¬Equal cmp arr key k
  noFirst : ∀ arr key, arrayIndexOf cmp arr key = -1 ↔ ∀ i, ¬Equal cmp arr key i
  last : ∀ (arr : List α) (key : α) (i : Nat),
    arrayLastIndexOf cmp arr key = i ↔ Equal cmp arr key i ∧ ∀ k, i < k → ¬Equal cmp arr key k
  noLast : ∀ arr key, arrayLastIndexOf cmp arr key = -1 ↔ ∀ i, ¬Equal cmp arr key i
  contains : ∀ arr key, arrayContains cmp arr key = true ↔ arrayIndexOf cmp arr key ≠ -1
  counted : ∀ arr key, arrayContains cmp arr key = true ↔ arrayCount cmp arr key ≠ 0
  compared : Comparison (arrayCompare cmp)
  equal : ∀ left right, arrayCompare cmp left right = 0 ↔ List.Forall₂ (fun a b => cmp a b = 0) left right

theorem lawful_of (law : Comparison cmp) : Lawful cmp where
  sorted arr := ⟨sortFrom_perm _ arr,arraySort_sorted law arr⟩
  first := arrayIndexOf_iff
  noFirst := arrayIndexOf_absent
  last := arrayLastIndexOf_iff
  noLast := arrayLastIndexOf_absent
  contains := arrayContains_iff
  counted arr key := by
    rw [arrayContains_iff,ne_eq,ne_eq,arrayIndexOf_absent,arrayCount_zero]
  compared := by
    rw [show arrayCompare cmp = lists cmp from funext fun l => funext fun r => arrayCompare_eq cmp l r]
    exact lists_comparison law
  equal left right := by
    rw [arrayCompare_eq]
    exact lists_eq_zero_iff left right

/-- A comparison by a key in a linear order -/
theorem comparison_of {β : Type} [LinearOrder β] (key : α → β) (same : ∀ a b, cmp a b = ofOrder (key a) (key b)) :
    Comparison cmp := by
  rw [show cmp = fun a b => ofOrder (key a) (key b) from funext fun a => funext fun b => same a b]
  exact ofOrder_comparison.comap key

/-- The operations are lawful for all five types of elements; NaNs are equal and behind every number, and strings are
ordered by their bytes with a proper prefix first. -/
theorem typedArrays_lawful :
    Lawful cmpBool ∧ Lawful cmpI32 ∧ Lawful cmpI64 ∧ Lawful cmpF64 ∧ Lawful cmpStr ∧
      (∀ a b : Binary64, a.isNaN = true → b.isNaN = true → cmpF64 a b = 0) ∧
      (∀ a b : Binary64, a.isNaN = false → b.isNaN = true → cmpF64 a b = -1) ∧
      (∀ a b : Binary64, a.isNaN = false → b.isNaN = false → cmpF64 a b = ofOrder a.rank b.rank) ∧
      ∀ a b : Str, cmpStr a b = ofOrder (a.map UInt8.toNat) (b.map UInt8.toNat) := by
  refine ⟨lawful_of (comparison_of UInt8.toNat cmpBool_eq),lawful_of (comparison_of CInt.value cmpI32_eq),
    lawful_of (comparison_of CInt.value cmpI64_eq),lawful_of (comparison_of floatKey cmpF64_eq),
    lawful_of (comparison_of (List.map UInt8.toNat) cmpStr_eq),?_,?_,?_,cmpStr_eq⟩
  · intro a b nan nan'
    simp [cmpF64,nan_iff,nan,nan']
  · intro a b number nan
    simp [cmpF64,nan_iff,number,nan]
  · intro a b number number'
    rw [cmpF64_eq,floatKey,floatKey,number,number']
    exact ofOrder_congr (by simp) (by simp)

end Oscan.Runtime.TypedArray
