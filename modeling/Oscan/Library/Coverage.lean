import Mathlib.Algebra.Ring.Nat
import Mathlib.Data.List.Forall2
import Mathlib.Tactic.Common

/-! Coverage of all values by the rows of a pattern matrix, for patterns of any kind whose
columns can be split into finitely many heads. A head stands for the values that the
patterns of the column cannot tell apart but by their arguments. -/
namespace Coverage

/-- Patterns over sorted values. `heads` lists the heads of a sort that matter in a column,
each with the sorts of its arguments; `split` takes a pattern apart at a head. -/
structure Patterns (S P V C : Type) where
  hasSort : V → S → Prop
  sat : P → V → Prop
  catchAll : P → Bool
  wild : P
  weight : P → Nat
  heads : S → List P → List (C × List S)
  split : C → P → Option (List P)
  vacant : S → Bool

namespace Patterns

variable {S P V C : Type} (L : Patterns S P V C)

/-- Whether a pattern admits the values with the head `c` and the arguments `args`. -/
def admits (c : C) (args : List V) (p : P) : Prop :=
  L.catchAll p = true ∨
    L.catchAll p = false ∧ ∃ sub, L.split c p = some sub ∧ List.Forall₂ L.sat sub args

/-- A pattern outweighs what it splits into, and nothing else weighs as little as a catch-all. -/
structure Measured : Prop where
  wild_catchAll : L.catchAll L.wild = true
  catchAll_weight : ∀ p, L.catchAll p = true ↔ L.weight p = 0
  split_weight : ∀ c p sub, L.catchAll p = false → L.split c p = some sub →
    (sub.map L.weight).sum < L.weight p

/-- The laws that relate the heads of a column to the values of its sort. -/
structure Lawful : Prop extends L.Measured where
  catchAll_sat : ∀ p v, L.catchAll p = true → L.sat p v
  vacant_iff : ∀ s, L.vacant s = true ↔ ∀ v, ¬L.hasSort v s
  reached : ∀ s column v, L.hasSort v s → ∃ head ∈ L.heads s column, ∃ args,
    List.Forall₂ L.hasSort args head.2 ∧ ∀ p ∈ column, L.sat p v ↔ L.admits head.1 args p
  built : ∀ s column, ∀ head ∈ L.heads s column, ∀ args, List.Forall₂ L.hasSort args head.2 →
    ∃ v, L.hasSort v s ∧ ∀ p ∈ column, L.sat p v ↔ L.admits head.1 args p

/-- A row seen from a head: its first pattern gives way to the patterns of the arguments. -/
def specialize (c : C) (arity : Nat) : List P → Option (List P)
  | [] => none
  | p :: row =>
    if L.catchAll p then some (List.replicate arity L.wild ++ row)
    else (L.split c p).bind fun sub => if sub.length = arity then some (sub ++ row) else none

/-- The rows that admit a head, seen from it. -/
def focus (head : C × List S) (rows : List (List P)) : List (List P) :=
  rows.filterMap (L.specialize head.1 head.2.length)

def open_ (row : List P) : Bool := (row.head?.map L.catchAll).getD true

def rowWeight (row : List P) : Nat := (row.map L.weight).sum

def totalWeight (rows : List (List P)) : Nat := (rows.map L.rowWeight).sum

variable {L}

section
variable (measured : L.Measured)
include measured

theorem specialize_weight {c : C} {arity : Nat} {row next : List P}
    (found : L.specialize c arity row = some next) :
    L.rowWeight next ≤ L.rowWeight row ∧
      (L.open_ row = false → L.rowWeight next < L.rowWeight row) := by
  cases row with
  | nil => simp [specialize] at found
  | cons p row =>
    simp only [specialize] at found
    split at found
    next caught =>
      obtain rfl := Option.some.inj found
      have light := (measured.catchAll_weight L.wild).mp measured.wild_catchAll
      refine ⟨?_,fun closed => ?_⟩
      · simp [rowWeight,light]
      · simp [open_,caught] at closed
    next refuted =>
      obtain ⟨sub,parts,found⟩ := Option.bind_eq_some_iff.mp found
      split at found
      next =>
        obtain rfl := Option.some.inj found
        have lighter := measured.split_weight c p sub (by simpa using refuted) parts
        have strict : L.rowWeight (sub ++ row) < L.rowWeight (p :: row) := by
          simpa [rowWeight] using lighter
        exact ⟨Nat.le_of_lt strict,fun _ => strict⟩
      next => simp at found

theorem focus_weight (head : C × List S) : ∀ (rows : List (List P)),
    L.totalWeight (L.focus head rows) ≤ L.totalWeight rows ∧
      (rows.all L.open_ = false → L.totalWeight (L.focus head rows) < L.totalWeight rows)
  | [] => by simp [totalWeight,focus]
  | row :: rows => by
    obtain ⟨smaller,strict⟩ := focus_weight head rows
    simp only [focus,totalWeight,List.all_cons,List.filterMap_cons,List.map_cons,List.sum_cons]
      at smaller strict ⊢
    cases found : L.specialize head.1 head.2.length row with
    | none =>
      refine ⟨by simp only; omega,fun closed => ?_⟩
      have weighty : 0 < L.rowWeight row ∨ rows.all L.open_ = false := by
        cases row with
        | nil => exact .inr (by simpa [open_] using closed)
        | cons p row =>
          cases caught : L.catchAll p with
          | true => exact .inr (by simpa [open_,caught] using closed)
          | false =>
            have heavy := (measured.catchAll_weight p).not.mp (by simp [caught])
            exact .inl (by simp only [rowWeight,List.map_cons,List.sum_cons]; omega)
      simp only
      rcases weighty with heavy | closed
      · omega
      · have := strict closed
        omega
    | some next =>
      obtain ⟨lighter,strictRow⟩ := specialize_weight measured found
      simp only [List.map_cons,List.sum_cons]
      refine ⟨by omega,fun closed => ?_⟩
      rcases Bool.and_eq_false_iff.mp closed with closed | closed
      · have := strictRow closed
        omega
      · have := strict closed
        omega

end

def remaining (rows : List (List P)) : List (List P) := rows.map List.tail

theorem remaining_weight : ∀ (rows : List (List P)),
    L.totalWeight (remaining rows) ≤ L.totalWeight rows
  | [] => by simp [remaining]
  | row :: rows => by
    have rest := remaining_weight rows
    have shorter : L.rowWeight row.tail ≤ L.rowWeight row := by
      cases row <;> simp [rowWeight]
    simp only [remaining,totalWeight,List.map_cons,List.sum_cons] at rest ⊢
    omega

/-- Whether the rows admit all vectors of values of the given sorts. -/
def covers (measured : L.Measured) : List S → List (List P) → Bool
  | [],rows => !rows.isEmpty
  | s :: sorts,rows =>
    if _closed : rows.all L.open_ = true then L.vacant s || covers measured sorts (remaining rows)
    else (L.heads s (rows.filterMap List.head?)).all fun head =>
      covers measured (head.2 ++ sorts) (L.focus head rows)
termination_by sorts rows => (L.totalWeight rows,sorts.length)
decreasing_by
  · have lighter : L.totalWeight (remaining rows) ≤ L.totalWeight rows := remaining_weight rows
    rcases Nat.lt_or_eq_of_le lighter with lt | eq
    · exact Prod.Lex.left _ _ lt
    · rw [eq]
      exact Prod.Lex.right _ (by simp)
  · exact Prod.Lex.left _ _ ((focus_weight measured head rows).2 (by simpa using _closed))

theorem focus_full {head : C × List S} {sorts : List S} {rows : List (List P)}
    (full : ∀ row ∈ rows, row.length = sorts.length+1) :
    ∀ row ∈ L.focus head rows, row.length = (head.2 ++ sorts).length := by
  intro next member
  obtain ⟨row,member,found⟩ := List.mem_filterMap.mp member
  have size := full row member
  cases row with
  | nil => simp [specialize] at found
  | cons p row =>
    simp only [List.length_cons,Nat.add_right_cancel_iff] at size
    simp only [specialize] at found
    split at found
    · simp [← Option.some.inj found,size]
    · obtain ⟨sub,-,found⟩ := Option.bind_eq_some_iff.mp found
      split at found
      next same => simp [← Option.some.inj found,size,same]
      next => simp at found

/-- Some row admits the values. -/
def Admitted (L : Patterns S P V C) (rows : List (List P)) (values : List V) : Prop :=
  ∃ row ∈ rows, List.Forall₂ L.sat row values

section
variable (lawful : L.Lawful)
include lawful

/-- What a row says of a value in front is what the specialized row says of its arguments. -/
theorem specialize_admits {c : C} {arity : Nat} {p : P} {row : List P} {args values : List V}
    (size : args.length = arity) :
    (∃ next, L.specialize c arity (p :: row) = some next ∧ List.Forall₂ L.sat next (args ++ values)) ↔
      L.admits c args p ∧ List.Forall₂ L.sat row values := by
  have split (front : List P) (same : front.length = args.length) :
      List.Forall₂ L.sat (front ++ row) (args ++ values) ↔
        List.Forall₂ L.sat front args ∧ List.Forall₂ L.sat row values := by
    constructor
    · intro both
      have first := List.forall₂_take front.length both
      have second := List.forall₂_drop front.length both
      rw [List.take_left,same,List.take_left] at first
      rw [List.drop_left,same,List.drop_left] at second
      exact ⟨first,second⟩
    · exact fun both => List.rel_append both.1 both.2
  simp only [specialize,admits]
  cases caught : L.catchAll p with
  | true =>
    have wilds : List.Forall₂ L.sat (List.replicate arity L.wild) args := by
      rw [List.forall₂_iff_get]
      refine ⟨by simp [size],fun i _ _ => ?_⟩
      simpa using lawful.catchAll_sat _ _ lawful.wild_catchAll
    simp [split _ (by simp [size] : (List.replicate arity L.wild).length = args.length),wilds]
  | false =>
    cases parts : L.split c p with
    | none => simp
    | some sub =>
      by_cases same : sub.length = arity
      · simp [same,split sub (same.trans size.symm)]
      · have apart : ¬List.Forall₂ L.sat sub args := fun both => same (both.length_eq.trans size)
        simp [same,apart]

/-- A value in front of others is admitted as the arguments of its head are. -/
theorem admitted_focus {head : C × List S} {rows : List (List P)} {args values : List V} {v : V}
    (sized : args.length = head.2.length)
    (told : ∀ p ∈ rows.filterMap List.head?, L.sat p v ↔ L.admits head.1 args p) :
    L.Admitted rows (v :: values) ↔ L.Admitted (L.focus head rows) (args ++ values) := by
  simp only [Admitted,focus,List.mem_filterMap]
  constructor
  · rintro ⟨row,member,holds⟩
    cases holds with
    | @cons p _ row _ first rest =>
      have admits := (told p (List.mem_filterMap.mpr ⟨_,member,rfl⟩)).mp first
      obtain ⟨next,found,holds⟩ := (specialize_admits lawful sized).mpr ⟨admits,rest⟩
      exact ⟨next,⟨_,member,found⟩,holds⟩
  · rintro ⟨next,⟨row,member,found⟩,holds⟩
    cases row with
    | nil => simp [specialize] at found
    | cons p row =>
      obtain ⟨admits,rest⟩ := (specialize_admits lawful sized).mp ⟨next,found,holds⟩
      exact ⟨p :: row,member,.cons ((told p (List.mem_filterMap.mpr ⟨_,member,rfl⟩)).mpr admits) rest⟩

/-- A column splits into its heads. -/
theorem admitted_heads {s : S} {rows : List (List P)} {values : List V} :
    (∀ v, L.hasSort v s → L.Admitted rows (v :: values)) ↔
      ∀ head ∈ L.heads s (rows.filterMap List.head?), ∀ args, List.Forall₂ L.hasSort args head.2 →
        L.Admitted (L.focus head rows) (args ++ values) := by
  constructor
  · intro all head member args sorted
    obtain ⟨v,hasSort,told⟩ := lawful.built s _ head member args sorted
    exact (admitted_focus lawful sorted.length_eq told).mp (all v hasSort)
  · intro all v hasSort
    obtain ⟨head,member,args,sorted,told⟩ :=
      lawful.reached s (rows.filterMap List.head?) v hasSort
    exact (admitted_focus lawful sorted.length_eq told).mpr (all head member args sorted)

/-- A column of patterns that catch everything says nothing, unless it has no values. -/
theorem admitted_open {s : S} {rows : List (List P)} {values : List V}
    (closed : rows.all L.open_ = true) (full : ∀ row ∈ rows, row ≠ []) :
    (∀ v, L.hasSort v s → L.Admitted rows (v :: values)) ↔
      L.vacant s = true ∨ L.Admitted (remaining rows) values := by
  have drop (v : V) : L.Admitted rows (v :: values) ↔ L.Admitted (remaining rows) values := by
    simp only [Admitted,remaining,List.mem_map]
    constructor
    · rintro ⟨row,member,holds⟩
      cases holds with
      | cons first rest => exact ⟨_,⟨_,member,rfl⟩,rest⟩
    · rintro ⟨_,⟨row,member,rfl⟩,rest⟩
      cases row with
      | nil => exact absurd rfl (full [] member)
      | cons p row =>
        have caught := List.all_eq_true.mp closed _ member
        have first := lawful.catchAll_sat p v (by simpa [open_] using caught)
        exact ⟨_,member,.cons first rest⟩
  simp only [drop,lawful.vacant_iff]
  by_cases empty : ∀ v, ¬L.hasSort v s
  · simp [empty]
  · obtain ⟨v,hasSort⟩ := not_forall_not.mp empty
    exact ⟨fun all => .inr (all v hasSort),fun either _ _ => either.resolve_left empty⟩

/-- The matrix covers exactly when some row admits each vector of values. -/
theorem covers_iff (sorts : List S) (rows : List (List P))
    (full : ∀ row ∈ rows, row.length = sorts.length) :
    covers lawful.toMeasured sorts rows = true ↔
      ∀ values, List.Forall₂ L.hasSort values sorts → L.Admitted rows values := by
  induction sorts,rows using covers.induct lawful.toMeasured with
  | case1 rows =>
    simp only [covers,Admitted]
    constructor
    · intro some_ values sorted
      obtain rfl := List.forall₂_nil_right_iff.mp sorted
      obtain ⟨row,member⟩ := List.exists_mem_of_ne_nil rows (by simpa using some_)
      obtain rfl := List.eq_nil_of_length_eq_zero (full row member)
      exact ⟨[],member,.nil⟩
    · intro all
      obtain ⟨row,member,-⟩ := all [] .nil
      simpa using List.ne_nil_of_mem member
  | case2 s sorts rows closed ih =>
    have shorter : ∀ row ∈ remaining rows, row.length = sorts.length := by
      simp only [remaining,List.forall_mem_map]
      intro row member
      simp [full row member]
    have nonempty : ∀ row ∈ rows, row ≠ [] := by
      rintro row member rfl
      simpa using full [] member
    rw [covers,dif_pos closed,Bool.or_eq_true,ih shorter]
    constructor
    · intro either values sorted
      cases sorted with
      | cons hasSort rest =>
        exact (admitted_open lawful closed nonempty).mpr (either.imp id fun all => all _ rest) _ hasSort
    · intro all
      by_cases empty : L.vacant s = true
      · exact .inl empty
      · refine .inr fun values rest => ?_
        have front := (admitted_open lawful closed nonempty).mp
          fun v hasSort => all (v :: values) (.cons hasSort rest)
        exact front.resolve_left empty
  | case3 s sorts rows closed ih =>
    rw [covers,dif_neg closed,List.all_eq_true]
    constructor
    · intro all values sorted
      cases sorted with
      | @cons v _ values _ hasSort rest =>
        refine (admitted_heads lawful).mpr (fun head member args argsSorted => ?_) v hasSort
        have focused := (ih head (focus_full (by simpa using full))).mp (all head member)
        exact focused _ (List.rel_append argsSorted rest)
    · intro all head member
      refine (ih head (focus_full (by simpa using full))).mpr fun values sorted => ?_
      have args := List.forall₂_take head.2.length sorted
      have rest := List.forall₂_drop head.2.length sorted
      rw [List.take_left] at args
      rw [List.drop_left] at rest
      rw [← List.take_append_drop head.2.length values]
      exact (admitted_heads lawful).mp (fun v hasSort => all _ (.cons hasSort rest)) head member _ args

end
end Patterns
end Coverage
