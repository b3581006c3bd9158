import Oscan.Runtime.Glob
import Mathlib.Data.List.Infix
import Mathlib.Data.List.TakeWhile

/-! What the matcher of glob patterns accepts. -/
namespace Oscan.Runtime.Glob

/-- A star stands for any bytes, a question mark for one. -/
inductive Matches : Str → Str → Prop where
  | nil : Matches [] []
  | literal {p t : Str} (c : UInt8) (plain : c ≠ star) : Matches p t → Matches (c :: p) (c :: t)
  | any {p t : Str} (c : UInt8) : Matches p t → Matches (question :: p) (c :: t)
  | star {p t : Str} (taken : Str) : Matches p t → Matches (star :: p) (taken ++ t)

/-- A star that comes to a star of the text stands for just that. -/
inductive Pinned : Str → Str → Prop where
  | nil : Pinned [] []
  | literal {p t : Str} (c : UInt8) (plain : c ≠ star) : Pinned p t → Pinned (c :: p) (c :: t)
  | any {p t : Str} (c : UInt8) : Pinned p t → Pinned (question :: p) (c :: t)
  | pin {p t : Str} : Pinned p t → Pinned (star :: p) (star :: t)
  | star {p t : Str} (taken : Str) (free : (taken ++ t).head? ≠ some star) : Pinned p t → Pinned (star :: p) (taken ++ t)

theorem Pinned.matches {p t : Str} (pinned : Pinned p t) : Matches p t := by
  induction pinned with
  | nil => exact .nil
  | literal c plain _ ih => exact .literal c plain ih
  | any c _ ih => exact .any c ih
  | pin _ ih => exact .star [Glob.star] ih
  | star taken _ _ ih => exact .star taken ih

/-- In a text without stars every way of matching will do. -/
theorem Matches.pinned {p t : Str} (fits : Matches p t) (plain : Glob.star ∉ t) : Pinned p t := by
  induction fits with
  | nil => exact .nil
  | literal c other _ ih => exact .literal c other (ih fun inside => plain (List.mem_cons_of_mem _ inside))
  | any c _ ih => exact .any c (ih fun inside => plain (List.mem_cons_of_mem _ inside))
  | star taken _ ih =>
    refine .star taken (fun first => plain (List.mem_of_head? first)) (ih fun inside => ?_)
    exact plain (List.mem_append_right _ inside)

/-! One byte of the pattern at a time -/

theorem pinned_literal_iff {c : UInt8} (plain : c ≠ star) {p t : Str} : Pinned (c :: p) (c :: t) ↔ Pinned p t := by
  constructor
  · intro pinned
    generalize same : c :: t = text at pinned
    cases pinned with
    | literal _ _ rest => exact (List.cons.inj same).2 ▸ rest
    | any _ rest => exact (List.cons.inj same).2 ▸ rest
    | pin => exact absurd rfl plain
    | star => exact absurd rfl plain
  · exact .literal c plain

theorem pinned_any_iff {c : UInt8} {p t : Str} : Pinned (question :: p) (c :: t) ↔ Pinned p t := by
  constructor
  · intro pinned
    cases pinned with
    | literal _ _ rest => exact rest
    | any _ rest => exact rest
  · exact .any c

theorem pinned_pin_iff {p t : Str} : Pinned (star :: p) (star :: t) ↔ Pinned p t := by
  constructor
  · intro pinned
    generalize same : star :: t = text at pinned
    cases pinned with
    | literal _ plain => exact absurd rfl plain
    | pin rest => exact (List.cons.inj same).2 ▸ rest
    | star taken free =>
      rw [← same] at free
      exact absurd rfl free
  · exact .pin

/-- A star elsewhere leaves any end of the text. -/
theorem pinned_star_iff {p t : Str} (free : t.head? ≠ some star) : Pinned (star :: p) t ↔ ∃ u, u <:+ t ∧ Pinned p u := by
  constructor
  · intro pinned
    cases pinned with
    | literal _ plain => exact absurd rfl plain
    | pin rest => exact absurd rfl free
    | star taken _ rest => exact ⟨_,List.suffix_append _ _,rest⟩
  · intro ⟨u,⟨taken,same⟩,rest⟩
    subst same
    exact .star taken free rest

theorem pinned_star_suffix {p t : Str} (pinned : Pinned (star :: p) t) : ∃ u, u <:+ t ∧ Pinned p u := by
  by_cases free : t.head? = some star
  · obtain ⟨t',rfl⟩ : ∃ t', t = star :: t' := by
      cases t with
      | nil => cases free
      | cons c t' => exact ⟨t',by rw [Option.some.inj free]⟩
    exact ⟨t',List.suffix_cons _ _,pinned_pin_iff.mp pinned⟩
  · exact (pinned_star_iff free).mp pinned

theorem pinned_empty_iff : ∀ p : Str, Pinned p [] ↔ (p.dropWhile (· == star)).isEmpty = true
  | [] => iff_of_true .nil rfl
  | c :: p => by
    by_cases stars : c = star
    · subst stars
      rw [pinned_star_iff (by simp),List.dropWhile_cons_of_pos (by simp),← pinned_empty_iff p]
      constructor
      · intro ⟨u,suffix,rest⟩
        rwa [List.suffix_nil.mp suffix] at rest
      · exact fun rest => ⟨[],List.suffix_refl _,rest⟩
    · rw [List.dropWhile_cons_of_neg (by simpa using stars)]
      refine iff_of_false (fun pinned => ?_) (by simp)
      generalize nothing : ([] : Str) = text at pinned
      cases pinned with
      | literal | any | pin => cases nothing
      | star => exact stars rfl

/-- What was passed since a star comes no earlier to its end from a later place. -/
theorem pinned_later {p text : Str} : ∀ {passed taken : Str},
    List.Forall₂ (fun p c => p = star → c = star) passed taken →
      ∀ {u : Str}, u <:+ taken ++ text → Pinned (passed ++ p) u → ∃ v, v <:+ text ∧ Pinned p v
  | _,_,.nil,u,suffix,pinned => ⟨u,suffix,pinned⟩
  | e :: passed,c :: taken,.cons lock rest,u,suffix,pinned => by
    have shorter {c' : UInt8} {u' : Str} (within : c' :: u' <:+ c :: (taken ++ text)) : u' <:+ taken ++ text := by
      rcases List.suffix_cons_iff.mp within with same | inside
      · exact (List.cons.inj same).2 ▸ List.suffix_refl u'
      · exact (List.suffix_cons _ _).trans inside
    generalize whole : e :: passed ++ p = pattern at pinned
    cases pinned with
    | nil => cases whole
    | literal c' plain inner =>
      obtain ⟨-,rfl⟩ := List.cons.inj whole
      exact pinned_later rest (shorter suffix) inner
    | any c' inner =>
      obtain ⟨-,rfl⟩ := List.cons.inj whole
      exact pinned_later rest (shorter suffix) inner
    | pin inner =>
      obtain ⟨-,rfl⟩ := List.cons.inj whole
      exact pinned_later rest (shorter suffix) inner
    | @star _ t' skipped free inner =>
      obtain ⟨rfl,rfl⟩ := List.cons.inj whole
      -- The whole text begins with a star here, where a star is pinned.
      rcases List.suffix_cons_iff.mp suffix with same | inside
      · cases lock rfl
        exact absurd (congrArg List.head? same) free
      · exact pinned_later rest ((List.suffix_append _ _).trans inside) inner

/-! The loop -/

/-- The last star may still take more. -/
def Later (saved : Option Saved) : Prop := ∃ s ∈ saved, ∃ u, u <:+ s.text.tail ∧ Pinned s.pattern u

/-- What is left matches, or will when the last star takes more. -/
def Hope (s : State) : Prop := Pinned s.pattern s.text ∨ Later s.saved

theorem later_none : ¬Later none := fun ⟨_,known,_⟩ => by cases known

theorem later_some {s : Saved} : Later (some s) ↔ ∃ u, u <:+ s.text.tail ∧ Pinned s.pattern u := by
  constructor
  · intro ⟨s',known,later⟩
    exact Option.some.inj known ▸ later
  · exact fun later => ⟨s,rfl,later⟩

theorem tail_suffix_iff {t u : Str} (some : t ≠ []) : u <:+ t ↔ u = t ∨ u <:+ t.tail := by
  obtain ⟨c,cs,rfl⟩ := List.exists_cons_of_ne_nil some
  exact List.suffix_cons_iff

/-- What a star that was passed before leaves is no more than what one that is passed now leaves. -/
theorem Later.dominated {saved : Option Saved} {p t : Str} (since : ∀ s ∈ saved, Since s p t) (later : Later saved) :
    ∃ v, v <:+ t ∧ Pinned p v := by
  obtain ⟨s,known,u,suffix,pinned⟩ := later
  obtain ⟨passed,taken,rfl,lock⟩ := since s known
  exact pinned_later lock (suffix.trans (List.tail_suffix _)) pinned

theorem retry_hope {saved : Option Saved} {b : Bool} (some : ∀ s ∈ saved, s.text ≠ []) :
    (retry saved = .inl b → (b = true ↔ Later saved)) ∧
      ∀ s', retry saved = .inr s' → (Hope s' ↔ Later saved) := by
  cases saved with
  | none =>
    refine ⟨fun answer => ?_,fun s' next => by cases next⟩
    obtain rfl := Sum.inl.inj answer
    exact iff_of_false Bool.false_ne_true later_none
  | some last =>
    refine ⟨fun answer => by (cases answer),fun s' next => ?_⟩
    obtain rfl := Sum.inr.inj next
    rw [Hope,later_some,later_some]
    simp only
    constructor
    · rintro (now | ⟨u,suffix,pinned⟩)
      · exact ⟨_,List.suffix_refl _,now⟩
      · exact ⟨u,suffix.trans (List.tail_suffix _),pinned⟩
    · intro ⟨u,suffix,pinned⟩
      by_cases empty : last.text.tail = []
      · rw [empty] at suffix ⊢
        rw [List.suffix_nil.mp suffix] at pinned
        exact .inl pinned
      · rcases (tail_suffix_iff empty).mp suffix with rfl | inside
        · exact .inl pinned
        · exact .inr ⟨u,inside,pinned⟩

/-- A round keeps the hope, and the answer is whether there is any. -/
theorem step_hope (s : State) :
    (∀ b, step s = .inl b → (b = true ↔ Hope s)) ∧ ∀ s', step s = .inr s' → (Hope s' ↔ Hope s) := by
  obtain ⟨pattern,text,saved,since⟩ := s
  cases text with
  | nil =>
    refine ⟨fun b answer => ?_,fun s' next => by (cases next)⟩
    obtain rfl := Sum.inl.inj answer
    rw [Hope,← pinned_empty_iff]
    constructor
    · exact .inl
    · rintro (now | later)
      · exact now
      · obtain ⟨v,suffix,pinned⟩ := later.dominated since
        rwa [List.suffix_nil.mp suffix] at pinned
  | cons c text =>
    have left : ∀ s ∈ saved, s.text ≠ [] := by
      intro s known none
      have length := (since s known).length
      rw [none] at length
      simp at length
    have going (other : ¬Pinned pattern (c :: text)) (back : step ⟨pattern,c :: text,saved,since⟩ = retry saved) :
        (∀ b, step ⟨pattern,c :: text,saved,since⟩ = .inl b → (b = true ↔ Hope ⟨pattern,c :: text,saved,since⟩)) ∧
          ∀ s', step ⟨pattern,c :: text,saved,since⟩ = .inr s' → (Hope s' ↔ Hope ⟨pattern,c :: text,saved,since⟩) := by
      rw [back]
      have only : Hope ⟨pattern,c :: text,saved,since⟩ ↔ Later saved := or_iff_right other
      rw [only]
      exact ⟨fun b => (@retry_hope saved b left).1,(@retry_hope saved false left).2⟩
    cases pattern with
    | nil => exact going (fun no => by cases no) rfl
    | cons p pattern =>
      by_cases found : p = c ∨ p = question
      · have is : ∃ next, step ⟨p :: pattern,c :: text,saved,since⟩ = .inr next ∧ next.pattern = pattern ∧
            next.text = text ∧ next.saved = saved := by
          simp [step,found]
        obtain ⟨next,known,rfl,rfl,rfl⟩ := is
        rw [known]
        refine ⟨fun b answer => by (cases answer),fun s' same => ?_⟩
        obtain rfl := Sum.inr.inj same
        change _ ∨ _ ↔ Pinned (p :: next.pattern) (c :: next.text) ∨ Later next.saved
        refine or_congr_left ?_
        rcases found with rfl | rfl
        · by_cases stars : p = star
          · rw [stars]
            exact pinned_pin_iff.symm
          · exact (pinned_literal_iff stars).symm
        · exact pinned_any_iff.symm
      · by_cases stars : p = star
        · subst stars
          have free : (c :: text).head? ≠ some star := fun same => found (.inl (Option.some.inj same).symm)
          have is : ∃ next, step ⟨star :: pattern,c :: text,saved,since⟩ = .inr next ∧ next.pattern = pattern ∧
              next.text = c :: text ∧ next.saved = some ⟨pattern,c :: text⟩ := by
            simp [step,found]
          obtain ⟨next,known,rfl,same,behind⟩ := is
          rw [known]
          refine ⟨fun b answer => by (cases answer),fun s' reached => ?_⟩
          obtain rfl := Sum.inr.inj reached
          have anywhere : Hope next ↔ ∃ u, u <:+ c :: text ∧ Pinned next.pattern u := by
            rw [Hope,same,behind,later_some]
            simp only [List.tail_cons,List.suffix_cons_iff]
            constructor
            · rintro (now | ⟨u,suffix,pinned⟩)
              · exact ⟨_,.inl rfl,now⟩
              · exact ⟨u,.inr suffix,pinned⟩
            · rintro ⟨u,rfl | suffix,pinned⟩
              · exact .inl pinned
              · exact .inr ⟨u,suffix,pinned⟩
          rw [anywhere,Hope,pinned_star_iff free]
          refine (or_iff_left_of_imp fun later => ?_).symm
          obtain ⟨v,suffix,pinned⟩ := later.dominated since
          obtain ⟨u,inside,rest⟩ := pinned_star_suffix pinned
          exact ⟨u,inside.trans suffix,rest⟩
        · refine going (fun pinned => ?_) (by simp [step,found,stars])
          generalize same : c :: text = whole at pinned
          cases pinned with
          | literal => exact found (.inl (List.cons.inj same).1.symm)
          | any => exact found (.inr rfl)
          | pin => exact stars rfl
          | star => exact stars rfl

theorem run_hope (s : State) : run s = true ↔ Hope s := by
  fun_induction run s with
  | case1 s answer known => exact (step_hope s).1 answer known
  | case2 s s' known ih => exact ih.trans ((step_hope s).2 s' known)

theorem buffer_whole {s : Str} (short : s.length < 1024) (noNul : 0 ∉ s) : buffer s = s := by
  rw [buffer,List.take_of_length_le (by omega),List.takeWhile_eq_self_iff]
  intro c member
  simp only [bne_iff_ne]
  rintro rfl
  exact noNul member

theorem globMatch_iff {pattern text : Str} (shortPattern : pattern.length < 1024) (shortText : text.length < 1024)
    (noNulPattern : 0 ∉ pattern) (noNulText : 0 ∉ text) : globMatch pattern text = true ↔ Pinned pattern text := by
  have hope : globMatch pattern text = true ↔ Pinned (buffer pattern) (buffer text) :=
    (run_hope _).trans (or_iff_left later_none)
  rwa [buffer_whole shortPattern noNulPattern,buffer_whole shortText noNulText] at hope

/-- The matcher, which ends on all inputs, is right exactly when a text that matches does so with every star that comes
to a star of the text standing for just that. -/
theorem glob_right_iff (pattern text : Str) (shortPattern : pattern.length < 1024) (shortText : text.length < 1024)
    (noNulPattern : 0 ∉ pattern) (noNulText : 0 ∉ text) :
    (globMatch pattern text = true ↔ Matches pattern text) ↔ (Matches pattern text → Pinned pattern text) := by
  rw [globMatch_iff shortPattern shortText noNulPattern noNulText]
  constructor
  · exact fun same => same.mpr
  · exact fun pinned => ⟨Pinned.matches,pinned⟩

/-- `*a` and `ba` -/
theorem glob_right_plain : globMatch [42,97] [98,97] = true ↔ Matches [42,97] [98,97] :=
  (glob_right_iff [42,97] [98,97] (by decide) (by decide) (by decide) (by decide)).mpr
    fun fits => fits.pinned (by decide)

/-- `*` does not match `*a` to the matcher. -/
theorem glob_right_fails : ¬(globMatch [42] [42,97] = true ↔ Matches [42] [42,97]) := by
  intro same
  have fits : Matches [42] [42,97] := .star [42,97] .nil
  have answer := same.mpr fits
  rw [globMatch_iff (by decide) (by decide) (by decide) (by decide)] at answer
  have rest := pinned_pin_iff.mp answer
  cases rest

end Oscan.Runtime.Glob
