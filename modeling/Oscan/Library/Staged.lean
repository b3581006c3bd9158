import Mathlib.Data.List.Perm.Basic
import Mathlib.Data.List.Nodup

/-! Declarations in stages: of those that wait, the first one whose needs are available comes next.
What waits is collected from groups, and a name that was seen before is passed over. -/
namespace Oscan.Library.Staged

variable {α κ : Type} [DecidableEq κ]

section
variable (name : α → κ) (needs : α → List κ)

def ready (available : List κ) (d : α) : Bool := decide (∀ k ∈ needs d, k ∈ available)

/-- The first ready one, and the others in their order. -/
def take (available : List κ) : List α → Option (α × List α)
  | [] => none
  | d :: ds =>
    if ready needs available d then some (d,ds)
    else (take available ds).map fun r => (r.1,d :: r.2)

/-- At most `n` stages; no result when some wait and none is ready. -/
def stage : Nat → List κ → List α → Option (List α)
  | _,_,[] => some []
  | 0,_,_ :: _ => none
  | n + 1,available,d :: ds =>
    (take needs available (d :: ds)).bind fun r => (stage n (name r.1 :: available) r.2).map (r.1 :: ·)

def arrange (pending : List α) : Option (List α) := stage name needs pending.length [] pending

/-- Each one comes after what it needs. -/
def Ordered : List κ → List α → Prop
  | _,[] => True
  | available,d :: ds => ready needs available d = true ∧ Ordered (name d :: available) ds

def Orderable (pending : List α) : Prop := ∃ out : List α, out.Perm pending ∧ Ordered name needs [] out

/-- Names that were seen before are passed over. -/
def firstSeen (seen : List κ) : List α → List α
  | [] => []
  | d :: ds => if name d ∈ seen then firstSeen seen ds else d :: firstSeen (name d :: seen) ds

end

variable {name : α → κ} {needs : α → List κ} {available : List κ}

theorem ready_mono {more : List κ} {d : α} (grows : available ⊆ more) (is : ready needs available d = true) :
    ready needs more d = true := by
  simp only [ready,decide_eq_true_eq] at is ⊢
  exact fun k needed => grows (is k needed)

theorem take_some : ∀ {ds : List α} {d : α} {rest : List α}, take needs available ds = some (d,rest) →
    ready needs available d = true ∧ ∃ before after, ds = before ++ d :: after ∧ rest = before ++ after := by
  intro ds
  induction ds with
  | nil => exact fun taken => by cases taken
  | cons e es ih =>
    intro d rest taken
    rw [take] at taken
    split at taken
    next is =>
      cases taken
      exact ⟨is,[],es,rfl,rfl⟩
    next =>
      obtain ⟨⟨_,later⟩,inner,same⟩ := Option.map_eq_some_iff.mp taken
      cases same
      obtain ⟨is,before,after,rfl,rfl⟩ := ih inner
      exact ⟨is,e :: before,after,rfl,rfl⟩

theorem take_none : ∀ {ds : List α}, take needs available ds = none ↔ ∀ d ∈ ds, ready needs available d = false := by
  intro ds
  induction ds with
  | nil => simp only [take,List.not_mem_nil,false_implies,implies_true]
  | cons e es ih =>
    rw [take]
    split
    next is => simp only [reduceCtorEq,List.mem_cons,forall_eq_or_imp,is,Bool.true_eq_false,false_and]
    next isnt =>
      simp only [Option.map_eq_none_iff,ih,List.mem_cons,forall_eq_or_imp,Bool.not_eq_true] at isnt ⊢
      rw [and_iff_right isnt]

theorem take_append (xs ys : List α) : take needs available (xs ++ ys) =
    match take needs available xs with
    | some (d,rest) => some (d,rest ++ ys)
    | none => (take needs available ys).map fun r => (r.1,xs ++ r.2) := by
  induction xs with
  | nil => exact Option.map_id'.symm
  | cons x xs ih =>
    rw [List.cons_append,take,take]
    split
    · rfl
    · rw [ih]
      cases take needs available xs with
      | none => simp only [Option.map_none,Option.map_map,List.cons_append]; rfl
      | some r => rfl

theorem Ordered.mono : ∀ {out : List α} {available more : List κ}, available ⊆ more →
    Ordered name needs available out → Ordered name needs more out := by
  intro out
  induction out with
  | nil => exact fun _ _ => trivial
  | cons d ds ih => exact fun grows is => ⟨ready_mono grows is.1,ih (List.cons_subset_cons _ grows) is.2⟩

theorem Ordered.move : ∀ {before after : List α} {available : List κ} {d : α},
    Ordered name needs available (before ++ d :: after) →
      Ordered name needs (name d :: available) (before ++ after) := by
  intro before
  induction before with
  | nil => exact fun is => is.2
  | cons e es ih =>
    intro after available d is
    refine ⟨ready_mono (List.subset_cons_self _ _) is.1,(ih is.2).mono fun k known => ?_⟩
    simp only [List.mem_cons] at known ⊢
    exact or_left_comm.mp known

theorem Ordered.of_free : ∀ {ds : List α} {available : List κ}, (∀ d ∈ ds, needs d = []) →
    Ordered name needs available ds := by
  intro ds
  induction ds with
  | nil => exact fun _ => trivial
  | cons d ds ih =>
    intro available free
    refine ⟨?_,ih fun e is => free e (List.mem_cons_of_mem _ is)⟩
    rw [ready,free d List.mem_cons_self]
    exact decide_eq_true fun _ is => (List.not_mem_nil is).elim

/-- The stages bring every declaration once, each after what it needs. -/
theorem stage_sound : ∀ {n : Nat} {available : List κ} {pending out : List α},
    stage name needs n available pending = some out → out.Perm pending ∧ Ordered name needs available out := by
  intro n
  induction n with
  | zero =>
    intro available pending out staged
    cases pending with
    | nil =>
      cases staged
      exact ⟨.refl _,trivial⟩
    | cons d ds => cases staged
  | succ n ih =>
    intro available pending out staged
    cases pending with
    | nil =>
      cases staged
      exact ⟨.refl _,trivial⟩
    | cons d ds =>
      obtain ⟨⟨e,rest⟩,taken,staged⟩ := Option.bind_eq_some_iff.mp staged
      obtain ⟨later,inner,rfl⟩ := Option.map_eq_some_iff.mp staged
      obtain ⟨is,before,after,same,rfl⟩ := take_some taken
      obtain ⟨perm,ordered⟩ := ih inner
      rw [same]
      exact ⟨(perm.cons e).trans List.perm_middle.symm,is,ordered⟩

theorem stage_complete : ∀ {n : Nat} {available : List κ} {pending out : List α}, pending.length ≤ n →
    out.Perm pending → Ordered name needs available out → (stage name needs n available pending).isSome = true := by
  intro n
  induction n with
  | zero =>
    intro available pending out short _ _
    rw [List.length_eq_zero_iff.mp (Nat.le_zero.mp short)]
    rfl
  | succ n ih =>
    intro available pending out short perm ordered
    cases pending with
    | nil => rfl
    | cons d ds =>
      cases taken : take needs available (d :: ds) with
      | none =>
        have some : 0 < out.length := by
          rw [perm.length_eq]
          exact Nat.zero_lt_succ _
        obtain ⟨e,es,rfl⟩ := List.exists_cons_of_length_pos some
        have idle := take_none.mp taken e (perm.mem_iff.mp List.mem_cons_self)
        exact absurd ordered.1 (by rw [idle]; exact Bool.false_ne_true)
      | some r =>
        obtain ⟨e,rest⟩ := r
        obtain ⟨is,before,after,same,rfl⟩ := take_some taken
        have member : e ∈ out := perm.mem_iff.mpr (by rw [same]; exact List.mem_append_right _ List.mem_cons_self)
        obtain ⟨first,last,rfl⟩ := List.append_of_mem member
        rw [same] at perm
        have fewer : (before ++ after).Perm (first ++ last) :=
          ((List.perm_middle.symm.trans perm.symm).trans List.perm_middle).cons_inv
        have size := congrArg List.length same
        simp only [List.length_append,List.length_cons] at size short
        rw [stage,taken,Option.bind_some,Option.isSome_map]
        exact ih (by rw [List.length_append]; omega) fewer.symm ordered.move

/-- The stages come to an end exactly when the declarations can be ordered at all. -/
theorem arrange_isSome {pending : List α} :
    (arrange name needs pending).isSome = true ↔ Orderable name needs pending := by
  constructor
  · intro some
    obtain ⟨out,arranged⟩ := Option.isSome_iff_exists.mp some
    exact ⟨out,stage_sound arranged⟩
  · rintro ⟨out,perm,ordered⟩
    exact stage_complete (Nat.le_refl _) perm ordered

theorem firstSeen_congr : ∀ {ds : List α} {seen known : List κ}, (∀ k, k ∈ seen ↔ k ∈ known) →
    firstSeen name seen ds = firstSeen name known ds := by
  intro ds
  induction ds with
  | nil => exact fun _ => rfl
  | cons d ds ih =>
    intro seen known same
    rw [firstSeen,firstSeen]
    by_cases before : name d ∈ known
    · rw [if_pos ((same _).mpr before),if_pos before,ih same]
    · rw [if_neg fun seen => before ((same _).mp seen),if_neg before]
      exact congrArg (d :: ·) (ih fun k => by rw [List.mem_cons,List.mem_cons,same])

theorem firstSeen_append : ∀ (xs ys : List α) (seen : List κ), firstSeen name seen (xs ++ ys) =
    firstSeen name seen xs ++ firstSeen name (xs.map name ++ seen) ys := by
  intro xs
  induction xs with
  | nil => exact fun _ _ => rfl
  | cons x xs ih =>
    intro ys seen
    rw [List.cons_append,firstSeen,firstSeen]
    split
    next before =>
      rw [ih]
      refine congrArg (_ ++ ·) (firstSeen_congr fun k => ?_)
      simp only [List.map_cons,List.cons_append,List.mem_cons,List.mem_append]
      exact ⟨.inr,fun is => is.elim (fun same => .inr (same ▸ before)) id⟩
    next =>
      rw [ih,List.cons_append]
      refine congrArg (fun rest => x :: (_ ++ rest)) (firstSeen_congr fun k => ?_)
      simp only [List.map_cons,List.cons_append,List.mem_cons,List.mem_append]
      exact or_left_comm

theorem firstSeen_filter : ∀ (ds : List α) (seen more : List κ), firstSeen name (seen ++ more) ds =
    (firstSeen name more ds).filter fun d => decide (name d ∉ seen) := by
  intro ds
  induction ds with
  | nil => exact fun _ _ => rfl
  | cons d ds ih =>
    intro seen more
    rw [firstSeen,firstSeen]
    by_cases before : name d ∈ more
    · rw [if_pos before,if_pos (List.mem_append_right _ before),ih]
    · rw [if_neg before]
      by_cases early : name d ∈ seen
      · rw [if_pos (List.mem_append_left _ early),List.filter_cons_of_neg (by simpa using early),← ih]
        refine firstSeen_congr fun k => ?_
        simp only [List.mem_append,List.mem_cons]
        exact ⟨fun is => is.elim .inl fun later => .inr (.inr later),
          fun is => is.elim .inl fun is => is.elim (fun same => .inl (same ▸ early)) .inr⟩
      · rw [if_neg fun is => (List.mem_append.mp is).elim early before,
          List.filter_cons_of_pos (by simpa using early),← ih]
        refine congrArg (d :: ·) (firstSeen_congr fun k => ?_)
        simp only [List.mem_append,List.mem_cons]
        exact or_left_comm

theorem firstSeen_nodup : ∀ (ds : List α) (seen : List κ), ((firstSeen name seen ds).map name).Nodup ∧
    ∀ d ∈ firstSeen name seen ds, name d ∉ seen := by
  intro ds
  induction ds with
  | nil => exact fun _ => ⟨.nil,fun _ is => by cases is⟩
  | cons d ds ih =>
    intro seen
    rw [firstSeen]
    split
    next => exact ih seen
    next fresh =>
      obtain ⟨nodup,apart⟩ := ih (name d :: seen)
      refine ⟨List.nodup_cons.mpr ⟨fun is => ?_,nodup⟩,fun e is => ?_⟩
      · obtain ⟨e,is,same⟩ := List.mem_map.mp is
        exact apart e is (same ▸ List.mem_cons_self)
      · rcases List.mem_cons.mp is with rfl | is
        · exact fresh
        · exact fun before => apart e is (List.mem_cons_of_mem _ before)

theorem mem_firstSeen_names {k : κ} : ∀ (ds : List α) (seen : List κ),
    k ∈ (firstSeen name seen ds).map name ↔ k ∈ ds.map name ∧ k ∉ seen := by
  intro ds
  induction ds with
  | nil => simp only [firstSeen,List.map_nil,List.not_mem_nil,false_and,implies_true]
  | cons d ds ih =>
    intro seen
    rw [firstSeen]
    split
    next before =>
      rw [ih,List.map_cons,List.mem_cons]
      exact ⟨fun is => ⟨.inr is.1,is.2⟩,
        fun is => ⟨is.1.resolve_left fun same => is.2 (same ▸ before),is.2⟩⟩
    next fresh =>
      rw [List.map_cons,List.map_cons,List.mem_cons,List.mem_cons,ih,List.mem_cons,not_or]
      refine ⟨fun is => is.elim (fun same => ⟨.inl same,same ▸ fresh⟩) fun is => ⟨.inr is.1,is.2.2⟩,fun is => ?_⟩
      by_cases same : k = name d
      · exact .inl same
      · exact .inr ⟨is.1.resolve_left same,same,is.2⟩

theorem firstSeen_sub : ∀ {ds : List α} {seen : List κ} {d : α}, d ∈ firstSeen name seen ds → d ∈ ds := by
  intro ds
  induction ds with
  | nil => exact fun is => is
  | cons e es ih =>
    intro seen d is
    rw [firstSeen] at is
    split at is
    next => exact List.mem_cons_of_mem _ (ih is)
    next => exact (List.mem_cons.mp is).elim (· ▸ List.mem_cons_self) fun is => List.mem_cons_of_mem _ (ih is)

section
variable (name : α → κ) (needs : α → List κ) (base last : List α) (groups : List (List α))

/-- What waits at first: the fixed declarations, what the groups bring in their order, and the last ones. -/
def pending : List α := base ++ firstSeen name [] (groups.flatten ++ last)

/-- The first one of a group that is ready and not declared yet. -/
def lead (available done : List κ) (group : List α) : Option α :=
  (firstSeen name [] group).find? fun d => decide (name d ∉ done) && ready needs available d

/-- What is available, which fixed declarations still wait and which names of the others are declared
after some stages, whichever group is asked at each of them. -/
inductive Reached : List κ → List α → List κ → Prop
  | start : Reached [] base []
  | fixed {available rest done d rest'} : Reached available rest done →
      take needs available rest = some (d,rest') → Reached (name d :: available) rest' done
  | group {available rest done g d} : Reached available rest done → take needs available rest = none →
      g ∈ groups → lead name needs available done g = some d →
      Reached (name d :: available) rest (name d :: done)
  | last {available rest done d} : Reached available rest done → take needs available rest = none →
      (∀ g ∈ groups, lead name needs available done g = none) →
      lead name needs available (groups.flatten.map name ++ done) last = some d →
      Reached (name d :: available) rest (name d :: done)

/-- Groups that bring a name bring the same declaration of it. -/
def Agree : Prop :=
  ∀ g ∈ groups, ∀ h ∈ groups, ∀ d ∈ firstSeen name [] g, ∀ e ∈ firstSeen name [] h, name d = name e → d = e

/-- Where no fixed declaration is ready, no two groups have different ones to offer. -/
def NoChoice : Prop :=
  ∀ available rest done, Reached name needs base last groups available rest done →
    take needs available rest = none → ∀ g ∈ groups, ∀ h ∈ groups, ∀ d e,
      lead name needs available done g = some d → lead name needs available done h = some e → d = e

/-- What still waits beside the fixed declarations. -/
def waiting (done : List κ) : List α :=
  (firstSeen name [] (groups.flatten ++ last)).filter fun d => decide (name d ∉ done)

/-- What comes next, when the groups are asked in their order. -/
def next (available done : List κ) : Option α :=
  (groups.findSome? (lead name needs available done)).or
    (lead name needs available (groups.flatten.map name ++ done) last)

end

variable {base last : List α} {groups order : List (List α)} {done : List κ}

theorem take_filter : ∀ {ds : List α}, (ds.map name).Nodup →
    take needs available (ds.filter fun d => decide (name d ∉ done)) =
      (ds.find? fun d => decide (name d ∉ done) && ready needs available d).map fun d =>
        (d,ds.filter fun e => decide (name e ∉ name d :: done)) := by
  intro ds
  induction ds with
  | nil => exact fun _ => rfl
  | cons d ds ih =>
    intro nodup
    obtain ⟨fresh,nodup⟩ := List.nodup_cons.mp nodup
    by_cases before : name d ∈ done
    · rw [List.filter_cons_of_neg (by simpa using before),List.find?_cons_of_neg (by simp [before]),ih nodup]
      refine congrArg (Option.map · _) (funext fun e => ?_)
      rw [List.filter_cons_of_neg (by simp [before])]
    · rw [List.filter_cons_of_pos (by simpa using before),take]
      by_cases is : ready needs available d = true
      · rw [if_pos is,List.find?_cons_of_pos (by simp [before,is]),Option.map_some,
          List.filter_cons_of_neg (by simp)]
        refine congrArg (fun rest => some (d,rest)) (List.filter_congr fun e member => ?_)
        have other : name e ≠ name d := fun same => fresh (same ▸ List.mem_map_of_mem member)
        simp [other]
      · rw [if_neg is,List.find?_cons_of_neg (by simp [is]),ih nodup,Option.map_map]
        refine Option.map_congr fun e found => ?_
        have other : name d ≠ name e := fun same =>
          fresh (same ▸ List.mem_map_of_mem (List.mem_of_find?_eq_some found))
        rw [Function.comp_apply,List.filter_cons_of_pos (by simp [before,other])]

theorem waiting_nodup : ((firstSeen name [] (order.flatten ++ last)).map name).Nodup :=
  (firstSeen_nodup _ []).1

/-- A name that was seen before in a group without a ready declaration of it hides nothing. -/
theorem lead_seen {group : List α} {seen : List κ}
    (idle : ∀ d ∈ firstSeen name [] group, name d ∈ seen → name d ∉ done → ready needs available d = false) :
    ((firstSeen name seen group).find? fun d => decide (name d ∉ done) && ready needs available d) =
      lead name needs available done group := by
  rw [← List.append_nil seen,firstSeen_filter,lead,List.find?_filter,← List.head?_filter,← List.head?_filter]
  refine congrArg List.head? (List.filter_congr fun d member => ?_)
  by_cases early : name d ∈ seen
  · by_cases before : name d ∈ done
    · simp [before]
    · simp [idle d member early before]
  · simp [early]

theorem lead_congr {group : List α} {other : List κ} (same : ∀ k, k ∈ done ↔ k ∈ other) :
    lead name needs available done group = lead name needs available other group :=
  congrArg (List.find? · _) (funext fun d => by rw [decide_eq_decide.mpr (not_congr (same (name d)))])

theorem next_found (agree : Agree name groups) : ∀ {order : List (List α)}, order ⊆ groups → ∀ {seen : List κ},
    (∀ g ∈ groups, ∀ d ∈ firstSeen name [] g, name d ∈ seen → name d ∉ done → ready needs available d = false) →
    ((firstSeen name seen (order.flatten ++ last)).find? fun d =>
        decide (name d ∉ done) && ready needs available d) =
      (order.findSome? (lead name needs available done)).or
        (lead name needs available (order.flatten.map name ++ seen ++ done) last) := by
  intro order
  induction order with
  | nil =>
    intro _ seen _
    rw [List.flatten_nil,List.nil_append,List.findSome?_nil,Option.none_or,List.map_nil,List.nil_append,lead,
      ← List.append_nil seen,firstSeen_filter,List.find?_filter,List.append_nil]
    refine congrArg (List.find? · _) (funext fun d => ?_)
    simp only [List.mem_append,not_or,Bool.decide_and,Bool.decide_eq_true,Bool.and_assoc]
  | cons g order ih =>
    intro sub seen idle
    have member := sub List.mem_cons_self
    rw [List.flatten_cons,List.append_assoc,firstSeen_append,List.find?_append,lead_seen (idle g member),
      List.findSome?_cons]
    cases offered : lead name needs available done g with
    | some d => rfl
    | none =>
      rw [Option.none_or,ih (fun _ is => sub (List.mem_cons_of_mem _ is))]
      · refine congrArg (Option.or _) (lead_congr fun k => ?_)
        simp only [List.map_append,List.mem_append]
        tauto
      · intro h among e first early fresh
        rcases List.mem_append.mp early with brought | before
        · obtain ⟨d,leads,same⟩ := List.mem_map.mp ((mem_firstSeen_names g []).mpr ⟨brought,List.not_mem_nil⟩)
          obtain rfl := agree g member h among d leads e first same
          have idle := List.find?_eq_none.mp offered d leads
          simpa [fresh] using idle
        · exact idle h among e first before fresh

theorem take_waiting (agree : Agree name groups) (sub : order ⊆ groups) :
    take needs available (waiting name last order done) =
      (next name needs last order available done).map fun d => (d,waiting name last order (name d :: done)) := by
  rw [waiting,take_filter waiting_nodup,next_found agree sub fun _ _ _ _ early => absurd early List.not_mem_nil,
    List.append_nil]
  rfl

/-- What the groups offer does not depend on their order, unless two of them offer different ones. -/
theorem next_perm (same : order.Perm groups) (choice : ∀ g ∈ groups, ∀ h ∈ groups, ∀ d e,
      lead name needs available done g = some d → lead name needs available done h = some e → d = e) :
    next name needs last order available done = next name needs last groups available done := by
  have offers : order.findSome? (lead name needs available done) =
      groups.findSome? (lead name needs available done) := by
    cases first : order.findSome? (lead name needs available done) with
    | none =>
      refine (List.findSome?_eq_none_iff.mpr fun g member => ?_).symm
      exact List.findSome?_eq_none_iff.mp first g (same.mem_iff.mpr member)
    | some d =>
      obtain ⟨g,member,leads⟩ := List.exists_of_findSome?_eq_some first
      cases second : groups.findSome? (lead name needs available done) with
      | none =>
        have idle := List.findSome?_eq_none_iff.mp second g (same.mem_iff.mp member)
        rw [leads] at idle
        cases idle
      | some e =>
        obtain ⟨h,among,offered⟩ := List.exists_of_findSome?_eq_some second
        rw [choice g (same.mem_iff.mp member) h among d e leads offered]
  rw [next,next,offers]
  refine congrArg (Option.or _) (lead_congr fun k => ?_)
  rw [List.mem_append,List.mem_append,(same.flatten.map name).mem_iff]

theorem waiting_names {other : List (List α)} (same : order.Perm other) (k : κ) :
    k ∈ (firstSeen name [] (order.flatten ++ last)).map name ↔
      k ∈ (firstSeen name [] (other.flatten ++ last)).map name := by
  rw [mem_firstSeen_names,mem_firstSeen_names,List.map_append,List.map_append,List.mem_append,List.mem_append,
    (same.flatten.map name).mem_iff]

theorem waiting_nil {other : List (List α)} (same : order.Perm other)
    (none : waiting name last order done = []) : waiting name last other done = [] := by
  rw [waiting,List.filter_eq_nil_iff] at none ⊢
  intro d is
  obtain ⟨e,member,alike⟩ := List.mem_map.mp ((waiting_names same _).mpr (List.mem_map_of_mem is))
  rw [← alike]
  exact none e member

theorem append_waiting_nil {other : List (List α)} (same : order.Perm other) {rest : List α} :
    rest ++ waiting name last order done = [] ↔ rest ++ waiting name last other done = [] := by
  rw [List.append_eq_nil_iff,List.append_eq_nil_iff]
  exact and_congr_right fun _ => ⟨waiting_nil same,waiting_nil same.symm⟩

theorem stage_zero {ds : List α} (some : ds ≠ []) : stage name needs 0 available ds = none := by
  cases ds with
  | nil => exact absurd rfl some
  | cons => rfl

theorem stage_succ {n : Nat} {ds : List α} (some : ds ≠ []) : stage name needs (n + 1) available ds =
    (take needs available ds).bind fun r => (stage name needs n (name r.1 :: available) r.2).map (r.1 :: ·) := by
  cases ds with
  | nil => exact absurd rfl some
  | cons => rfl

/-- Without a choice the stages are the same for every order of the groups. -/
theorem stage_alike (agree : Agree name groups) (only : NoChoice name needs base last groups) :
    ∀ {n : Nat} {available done : List κ} {rest : List α},
    Reached name needs base last groups available rest done →
    ∀ {order other : List (List α)}, order.Perm groups → other.Perm groups →
    stage name needs n available (rest ++ waiting name last order done) =
      stage name needs n available (rest ++ waiting name last other done) := by
  intro n
  induction n with
  | zero =>
    intro available done rest _ order other first second
    have both : rest ++ waiting name last order done = [] ↔ rest ++ waiting name last other done = [] :=
      append_waiting_nil (first.trans second.symm)
    by_cases empty : rest ++ waiting name last order done = []
    · rw [empty,both.mp empty]
    · rw [stage_zero empty,stage_zero fun is => empty (both.mpr is)]
  | succ n ih =>
    intro available done rest reached order other first second
    have both : rest ++ waiting name last order done = [] ↔ rest ++ waiting name last other done = [] :=
      append_waiting_nil (first.trans second.symm)
    by_cases empty : rest ++ waiting name last order done = []
    · rw [empty,both.mp empty]
    · rw [stage_succ empty,stage_succ fun is => empty (both.mpr is),take_append,take_append]
      cases fixed : take needs available rest with
      | some r => exact congrArg (Option.map _) (ih (.fixed reached fixed) first second)
      | none =>
        have choice := only _ _ _ reached fixed
        rw [take_waiting agree first.subset,take_waiting agree second.subset,next_perm first choice,
          next_perm second choice]
        cases chosen : next name needs last groups available done with
        | none => rfl
        | some d =>
          refine congrArg (Option.map _) (ih ?_ first second)
          rcases Option.or_eq_some_iff.mp chosen with brought | ⟨idle,later⟩
          · obtain ⟨g,member,leads⟩ := List.exists_of_findSome?_eq_some brought
            exact .group reached fixed member leads
          · exact .last reached fixed (List.findSome?_eq_none_iff.mp idle) later

theorem stage_cons {n : Nat} {ds tail : List α} {d : α} (staged : stage name needs n available ds = some (d :: tail)) :
    ∃ m rest, take needs available ds = some (d,rest) ∧ stage name needs m (name d :: available) rest = some tail := by
  have some : ds ≠ [] := by
    rintro rfl
    cases n <;> cases staged
  cases n with
  | zero =>
    rw [stage_zero some] at staged
    cases staged
  | succ n =>
    rw [stage_succ some] at staged
    obtain ⟨⟨e,rest⟩,taken,staged⟩ := Option.bind_eq_some_iff.mp staged
    obtain ⟨later,inner,same⟩ := Option.map_eq_some_iff.mp staged
    cases same
    exact ⟨n,rest,taken,inner⟩

theorem stage_taken {n : Nat} {ds rest out : List α} {d : α} (staged : stage name needs n available ds = some out)
    (taken : take needs available ds = some (d,rest)) : ∃ tail, out = d :: tail := by
  cases out with
  | nil =>
    have empty := (stage_sound staged).1
    rw [List.nil_perm.mp empty] at taken
    cases taken
  | cons e tail =>
    obtain ⟨_,_,same,-⟩ := stage_cons staged
    rw [taken] at same
    cases same
    exact ⟨tail,rfl⟩

/-- After the stages of a state, every order of the groups goes on to the same end. -/
def Follows (name : α → κ) (needs : α → List κ) (last : List α) (groups : List (List α)) (out : List α)
    (available done : List κ) (rest : List α) : Prop :=
  ∃ before, ∀ order : List (List α), order.Perm groups → ∃ n after,
    stage name needs n available (rest ++ waiting name last order done) = some after ∧ out = before ++ after

/-- What one order takes next, every order takes. -/
theorem Follows.step {out rest rest' : List α} {d : α} {done' : List κ}
    (follows : Follows name needs last groups out available done rest)
    (takes : ∃ order : List (List α), order.Perm groups ∧
      ∃ later, take needs available (rest ++ waiting name last order done) = some (d,later))
    (same : ∀ order : List (List α), order.Perm groups → ∀ later,
      take needs available (rest ++ waiting name last order done) = some (d,later) →
        later = rest' ++ waiting name last order done') :
    Follows name needs last groups out (name d :: available) done' rest' := by
  obtain ⟨before,all⟩ := follows
  obtain ⟨first,perm,later,taken⟩ := takes
  obtain ⟨n,after,staged,rfl⟩ := all first perm
  obtain ⟨tail,rfl⟩ := stage_taken staged taken
  refine ⟨before ++ [d],fun order perm => ?_⟩
  obtain ⟨m,after,staged,alike⟩ := all order perm
  obtain rfl := List.append_cancel_left alike
  obtain ⟨k,rest,taken,inner⟩ := stage_cons staged
  rw [same order perm rest taken] at inner
  exact ⟨k,tail,inner,by rw [List.append_assoc,List.singleton_append]⟩

theorem in_front {group : List α} (member : group ∈ groups) :
    ∃ others, (group :: others).Perm groups := by
  obtain ⟨before,after,rfl⟩ := List.append_of_mem member
  exact ⟨before ++ after,List.perm_middle.symm⟩

theorem lead_front {group : List α} {others : List (List α)} {d : α} {rest : List α}
    (fixed : take needs available rest = none) (leads : lead name needs available done group = some d) :
    take needs available (rest ++ waiting name last (group :: others) done) =
      some (d,rest ++ waiting name last (group :: others) (name d :: done)) := by
  have first : (firstSeen name [] ((group :: others).flatten ++ last)).find? (fun e =>
      decide (name e ∉ done) && ready needs available e) = some d := by
    rw [List.flatten_cons,List.append_assoc,firstSeen_append,List.find?_append]
    rw [lead] at leads
    rw [leads,Option.some_or]
  rw [take_append,fixed,waiting,take_filter waiting_nodup,first]
  rfl

theorem taken_waiting {rest later : List α} {d : α} (fixed : take needs available rest = none)
    (taken : take needs available (rest ++ waiting name last order done) = some (d,later)) :
    later = rest ++ waiting name last order (name d :: done) := by
  rw [take_append,fixed,waiting,take_filter waiting_nodup] at taken
  simp only [Option.map_map,Option.map_eq_some_iff,Function.comp_apply,Prod.mk.injEq] at taken
  obtain ⟨_,-,rfl,rfl⟩ := taken
  rfl

/-- When the stages are the same for every order, they follow the same states. -/
theorem reached_follows {out : List α} (agree : Agree name groups)
    (arranged : ∀ order : List (List α), order.Perm groups →
      arrange name needs (pending name base last order) = some out)
    {rest : List α} (reached : Reached name needs base last groups available rest done) :
    Follows name needs last groups out available done rest := by
  induction reached with
  | start =>
    refine ⟨[],fun order perm => ⟨(pending name base last order).length,out,?_,rfl⟩⟩
    have all : waiting name last order [] = firstSeen name [] (order.flatten ++ last) :=
      List.filter_eq_self.mpr fun _ _ => by simp
    rw [all]
    exact arranged order perm
  | @fixed available rest done d rest' _ taken follows =>
    have taken : ∀ order : List (List α), take needs available (rest ++ waiting name last order done) =
        some (d,rest' ++ waiting name last order done) := fun order => by rw [take_append,taken]
    exact follows.step ⟨groups,.refl _,_,taken groups⟩ fun order _ later takes => by
      rw [taken order] at takes
      cases takes
      rfl
  | group _ idle member leads follows =>
    obtain ⟨others,perm⟩ := in_front member
    exact follows.step ⟨_,perm,_,lead_front idle leads⟩ fun _ _ _ taken => taken_waiting idle taken
  | @last available rest done d _ idle empty leads follows =>
    have chosen : next name needs last groups available done = some d := by
      rw [next,List.findSome?_eq_none_iff.mpr empty,Option.none_or]
      exact leads
    have taken : take needs available (rest ++ waiting name last groups done) =
        some (d,rest ++ waiting name last groups (name d :: done)) := by
      rw [take_append,idle,take_waiting agree (List.Subset.refl _),chosen]
      rfl
    exact follows.step ⟨groups,.refl _,_,taken⟩ fun _ _ _ taken => taken_waiting idle taken

/-- Declarations come out alike for all orders of the groups exactly when they cannot be ordered at all
or the order of the groups decides nothing. -/
theorem arrange_alike_iff :
    (∀ order other : List (List α), order.Perm groups → other.Perm groups →
      arrange name needs (pending name base last order) = arrange name needs (pending name base last other)) ↔
    (∀ order : List (List α), order.Perm groups → ¬ Orderable name needs (pending name base last order)) ∨
      Agree name groups ∧ NoChoice name needs base last groups := by
  constructor
  · intro alike
    cases arranged : arrange name needs (pending name base last groups) with
    | none =>
      refine .inl fun order perm orderable => ?_
      have some := arrange_isSome.mpr orderable
      rw [alike order groups perm (.refl _),arranged] at some
      cases some
    | some out =>
      have all : ∀ order : List (List α), order.Perm groups →
          arrange name needs (pending name base last order) = some out := fun order perm => by
        rw [alike order groups perm (.refl _),arranged]
      have agree : Agree name groups := by
        intro g member h among d leads e first same
        obtain ⟨others,perm⟩ := in_front member
        obtain ⟨rest,swapped⟩ := in_front among
        have both := (stage_sound (all _ perm)).1.symm.trans (stage_sound (all _ swapped)).1
        have seen := (List.perm_append_left_iff base).mp both
        have brought : d ∈ firstSeen name [] ((g :: others).flatten ++ last) := by
          rw [List.flatten_cons,List.append_assoc,firstSeen_append]
          exact List.mem_append_left _ leads
        have shown : e ∈ firstSeen name [] ((h :: rest).flatten ++ last) := by
          rw [List.flatten_cons,List.append_assoc,firstSeen_append]
          exact List.mem_append_left _ first
        exact List.inj_on_of_nodup_map waiting_nodup (seen.mem_iff.mp brought) shown same
      refine .inr ⟨agree,fun available rest done reached idle g member h among d e leads offered => ?_⟩
      obtain ⟨before,follows⟩ := reached_follows agree all reached
      obtain ⟨others,perm⟩ := in_front member
      obtain ⟨rest',swapped⟩ := in_front among
      obtain ⟨n,after,staged,rfl⟩ := follows _ perm
      obtain ⟨m,after',staged',same⟩ := follows _ swapped
      obtain rfl := List.append_cancel_left same
      obtain ⟨tail,rfl⟩ := stage_taken staged (lead_front idle leads)
      obtain ⟨_,_,taken,-⟩ := stage_cons staged'
      rw [lead_front idle offered] at taken
      cases taken
      rfl
  · rintro (stuck | ⟨agree,only⟩) order other first second
    · have none : ∀ order : List (List α), order.Perm groups →
          arrange name needs (pending name base last order) = none := fun order perm =>
        Option.not_isSome_iff_eq_none.mp fun some => stuck order perm (arrange_isSome.mp some)
      rw [none order first,none other second]
    · have unstaged : ∀ order : List (List α), waiting name last order [] = firstSeen name [] (order.flatten ++ last) :=
        fun order => List.filter_eq_self.mpr fun _ _ => by simp
      have sizes : (pending name base last order).length = (pending name base last other).length := by
        have members : ∀ k, k ∈ (firstSeen name [] (order.flatten ++ last)).map name ↔
          k ∈ (firstSeen name [] (other.flatten ++ last)).map name := waiting_names (first.trans second.symm)
        have names := (List.perm_ext_iff_of_nodup waiting_nodup waiting_nodup).mpr members
        have counts := names.length_eq
        rw [List.length_map,List.length_map] at counts
        rw [pending,pending,List.length_append,List.length_append,counts]
      have alike := stage_alike (n := (pending name base last order).length) agree only .start first second
      rw [unstaged,unstaged] at alike
      rw [arrange,arrange,← sizes]
      exact alike

theorem firstSeen_known : ∀ {ds : List α} {seen : List κ}, (∀ d ∈ ds, name d ∈ seen) → firstSeen name seen ds = [] := by
  intro ds
  induction ds with
  | nil => exact fun _ => rfl
  | cons d ds ih =>
    intro seen known
    rw [firstSeen,if_pos (known d List.mem_cons_self)]
    exact ih fun e is => known e (List.mem_cons_of_mem _ is)

/-- Keys that name the same things pass over the same ones. -/
theorem firstSeen_map {β ι : Type} [DecidableEq ι] {f : β → α} {key : β → ι} {named : ι → κ}
    (names : ∀ x, name (f x) = named (key x)) (apart : Function.Injective named) : ∀ (xs : List β) (seen : List ι),
    (firstSeen key seen xs).map f = firstSeen name (seen.map named) (xs.map f) := by
  intro xs
  induction xs with
  | nil => exact fun _ => rfl
  | cons x xs ih =>
    intro seen
    rw [firstSeen,List.map_cons,firstSeen]
    by_cases before : key x ∈ seen
    · rw [if_pos before,if_pos (names x ▸ List.mem_map_of_mem before),ih]
    · have fresh : name (f x) ∉ seen.map named := fun is => by
        obtain ⟨k,member,same⟩ := List.mem_map.mp is
        exact before (apart (same.trans (names x)) ▸ member)
      rw [if_neg before,if_neg fresh,List.map_cons,ih,List.map_cons,names]

/-- An order of images is the image of an order. -/
theorem perm_of_map {β γ : Type} {f : β → γ} : ∀ {xs : List β} {ys : List γ}, ys.Perm (xs.map f) →
    ∃ zs : List β, zs.Perm xs ∧ zs.map f = ys := by
  intro xs ys
  induction ys generalizing xs with
  | nil =>
    intro same
    exact ⟨[],by rw [List.map_eq_nil_iff.mp (List.nil_perm.mp same)],rfl⟩
  | cons y ys ih =>
    intro same
    obtain ⟨x,member,rfl⟩ := List.mem_map.mp (same.mem_iff.mp List.mem_cons_self)
    obtain ⟨before,after,rfl⟩ := List.append_of_mem member
    rw [List.map_append,List.map_cons] at same
    have fewer := (same.trans List.perm_middle).cons_inv
    rw [← List.map_append] at fewer
    obtain ⟨zs,perm,rfl⟩ := ih fewer
    exact ⟨x :: zs,(perm.cons x).trans List.perm_middle.symm,rfl⟩

theorem take_map {β : Type} {f : β → α} : ∀ ds : List β, take needs available (ds.map f) =
    (take (fun d => needs (f d)) available ds).map fun r => (f r.1,r.2.map f) := by
  intro ds
  induction ds with
  | nil => rfl
  | cons d ds ih =>
    rw [List.map_cons,take,take]
    split
    next is => rw [if_pos (show ready (fun d => needs (f d)) available d = true from is)]; rfl
    next isnt =>
      rw [if_neg (show ¬ ready (fun d => needs (f d)) available d = true from isnt),ih,Option.map_map,Option.map_map]
      rfl

theorem stage_map {β : Type} {f : β → α} : ∀ {n : Nat} {available : List κ} {ds : List β},
    stage name needs n available (ds.map f) =
      (stage (fun d => name (f d)) (fun d => needs (f d)) n available ds).map (List.map f) := by
  intro n
  induction n with
  | zero =>
    intro available ds
    cases ds <;> rfl
  | succ n ih =>
    intro available ds
    cases ds with
    | nil => rfl
    | cons d ds =>
      rw [stage_succ (List.cons_ne_nil d ds),stage_succ (by rw [List.map_cons]; exact List.cons_ne_nil _ _),take_map]
      cases take (fun d => needs (f d)) available (d :: ds) with
      | none => rfl
      | some r =>
        rw [Option.map_some,Option.bind_some,Option.bind_some,ih,Option.map_map,Option.map_map]
        rfl

/-- Declarations come in the same order as what is seen of them. -/
theorem arrange_map {β : Type} {f : β → α} (ds : List β) : arrange name needs (ds.map f) =
    (arrange (fun d => name (f d)) (fun d => needs (f d)) ds).map (List.map f) := by
  rw [arrange,List.length_map,stage_map,arrange]

end Oscan.Library.Staged
