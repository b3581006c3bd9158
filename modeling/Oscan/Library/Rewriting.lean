import Mathlib.Data.List.Basic

/-! Rewriting a sequence from left to right: where a match is found, as many letters as it has give way to
its replacement. A match never crosses a separator, so that parts between separators are rewritten one by one. -/
namespace Oscan.Library.Rewriting

variable {α β : Type}

/-- `found` is asked about the letter before a place and what stands from there on; letters to be skipped belong
to the match before. -/
def rewrite (found : Option α → List α → Bool) (width : Nat) (replacement : List β) (keep : α → β) :
    Option α → Nat → List α → List β
  | _,_,[] => []
  | _,skip + 1,a :: as => rewrite found width replacement keep (some a) skip as
  | before,0,a :: as =>
    if found before (a :: as) then replacement ++ rewrite found width replacement keep (some a) (width - 1) as
    else keep a :: rewrite found width replacement keep (some a) 0 as

/-- What is found before a separator depends on nothing behind it. -/
structure Local (found : Option α → List α → Bool) (width : Nat) (separator : α) : Prop where
  start : ∀ as, found (some separator) as = found none as
  inside : ∀ before a as bs, found before (a :: (as ++ separator :: bs)) = found before (a :: as)
  fits : ∀ before as, found before as = true → width ≤ as.length
  never : ∀ before bs, found before (separator :: bs) = false

variable {found : Option α → List α → Bool} {width : Nat} {replacement : List β} {keep : α → β} {separator : α}

theorem rewrite_start (near : Local found width separator) (as : List α) :
    rewrite found width replacement keep (some separator) 0 as = rewrite found width replacement keep none 0 as := by
  cases as with
  | nil => rfl
  | cons a as => simp only [rewrite,near.start]

theorem rewrite_separator (near : Local found width separator) (bs : List α) : ∀ (as : List α) (before : Option α)
    (skip : Nat), skip ≤ as.length → rewrite found width replacement keep before skip (as ++ separator :: bs) =
      rewrite found width replacement keep before skip as ++
        keep separator :: rewrite found width replacement keep none 0 bs
  | [],before,skip,short => by
    obtain rfl : skip = 0 := by simpa using short
    simp only [List.nil_append,rewrite,near.never,Bool.false_eq_true,if_false,rewrite_start near]
  | a :: as,before,skip + 1,short => by
    simp only [List.cons_append,rewrite]
    exact rewrite_separator near bs as _ _ (by simpa using short)
  | a :: as,before,0,_ => by
    simp only [List.cons_append,rewrite,near.inside]
    split
    next hit =>
      have room := near.fits before _ hit
      rw [rewrite_separator near bs as _ _ (by simp only [List.length_cons] at room; omega),List.append_assoc]
    next => rw [rewrite_separator near bs as _ _ (Nat.zero_le _),List.cons_append]

/-- The parts between separators are rewritten one by one. -/
theorem rewrite_lines (near : Local found width separator) : ∀ ls : List (List α),
    rewrite found width replacement keep none 0 (ls.flatMap (· ++ [separator])) =
      ls.flatMap fun l => rewrite found width replacement keep none 0 l ++ [keep separator]
  | [] => rfl
  | l :: ls => by
    rw [List.flatMap_cons,List.flatMap_cons,List.append_assoc,List.singleton_append,
      rewrite_separator near _ l none 0 (Nat.zero_le _),rewrite_lines near ls,List.append_assoc,List.singleton_append]

theorem mem_rewrite {b : β} : ∀ {as : List α} {before : Option α} {skip : Nat},
    b ∈ rewrite found width replacement keep before skip as → b ∈ replacement ∨ ∃ a ∈ as, b = keep a
  | [],_,_,member => by cases member
  | a :: as,before,skip + 1,member => by
    rcases mem_rewrite (by simpa only [rewrite] using member) with new | ⟨c,inside,kept⟩
    · exact .inl new
    · exact .inr ⟨c,List.mem_cons_of_mem _ inside,kept⟩
  | a :: as,before,0,member => by
    have later {skip : Nat} (rest : b ∈ rewrite found width replacement keep (some a) skip as) :
        b ∈ replacement ∨ ∃ c ∈ a :: as, b = keep c := by
      rcases mem_rewrite rest with new | ⟨c,inside,kept⟩
      · exact .inl new
      · exact .inr ⟨c,List.mem_cons_of_mem _ inside,kept⟩
    simp only [rewrite] at member
    split at member
    · rcases List.mem_append.mp member with new | rest
      · exact .inl new
      · exact later rest
    · rcases List.mem_cons.mp member with rfl | rest
      · exact .inr ⟨a,List.mem_cons_self,rfl⟩
      · exact later rest

section Words
variable {word : List α} {before after : Option α → Bool}

theorem prefix_separator (apart : separator ∉ word) (as bs : List α) :
    word <+: as ++ separator :: bs ↔ word <+: as := by
  constructor
  · intro starts
    rcases List.prefix_or_prefix_of_prefix starts (List.prefix_append as (separator :: bs)) with short | long
    · exact short
    · obtain ⟨more,rfl⟩ := long
      obtain ⟨rest,same⟩ := starts
      rw [List.append_assoc,List.append_cancel_left_eq] at same
      cases more with
      | nil => simp
      | cons c more =>
        obtain ⟨rfl,-⟩ := List.cons.inj same
        exact absurd (by simp) apart
  · intro starts
    exact starts.trans (List.prefix_append as _)

theorem head_separator {as : List α} (bs : List α) (short : word.length ≤ as.length)
    (alike : after (some separator) = after none) :
    after ((as ++ separator :: bs).drop word.length).head? = after (as.drop word.length).head? := by
  rw [List.drop_append_of_le_length short]
  cases as.drop word.length with
  | nil => exact alike
  | cons => rfl

variable [BEq α] [LawfulBEq α]

/-- A word stands here, between letters that pass the two tests. -/
def standing (word : List α) (before after : Option α → Bool) (last : Option α) (rest : List α) : Bool :=
  word.isPrefixOf rest && before last && after (rest.drop word.length).head?

theorem standing_local (some_ : word ≠ []) (apart : separator ∉ word) (start : before (some separator) = before none)
    (alike : after (some separator) = after none) : Local (standing word before after) word.length separator where
  start as := by simp only [standing,start]
  inside last a as bs := by
    unfold standing
    rw [← List.cons_append]
    by_cases starts : word <+: a :: as
    · have same : word.isPrefixOf (a :: as ++ separator :: bs) = word.isPrefixOf (a :: as) := by
        rw [List.isPrefixOf_iff_prefix.mpr starts,
          List.isPrefixOf_iff_prefix.mpr ((prefix_separator apart (a :: as) bs).mpr starts)]
      rw [same,head_separator bs starts.length_le alike]
    · have short : word.isPrefixOf (a :: as) = false := by
        rw [← Bool.not_eq_true,List.isPrefixOf_iff_prefix]
        exact starts
      have long : word.isPrefixOf (a :: as ++ separator :: bs) = false := by
        rw [← Bool.not_eq_true,List.isPrefixOf_iff_prefix,prefix_separator apart]
        exact starts
      rw [short,long]
      rfl
  fits last as hit := by
    simp only [standing,Bool.and_eq_true] at hit
    exact (List.isPrefixOf_iff_prefix.mp hit.1.1).length_le
  never last bs := by
    have none : word.isPrefixOf (separator :: bs) = false := by
      rw [← Bool.not_eq_true,List.isPrefixOf_iff_prefix]
      intro starts
      cases word with
      | nil => exact some_ rfl
      | cons c cs =>
        obtain ⟨rfl,-⟩ := List.cons_prefix_cons.mp starts
        exact apart List.mem_cons_self
    rw [standing,none]
    rfl

end Words

end Oscan.Library.Rewriting
