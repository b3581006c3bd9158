import Oscan.Library.Joining
import Oscan.Preservation.Ready

/-! The join of arm types is a least upper bound, so that neither the order of the arms nor the expected type has any
influence on the type of a match or of a chain of branches. -/
namespace Oscan
open Semantic Library.Joining

namespace BcType

theorem isCompatibleWith_self (a : BcType) : a.isCompatibleWith a = true := by
  simp only [isCompatibleWith,beq_self_eq_true,Bool.true_or]

theorem isCompatibleWith_antisymm {a b : BcType} (forth : a.isCompatibleWith b = true)
    (back : b.isCompatibleWith a = true) : a = b := by
  rcases compatible_cases forth with same | ⟨_,_,_,impure⟩
  · exact same
  rcases compatible_cases back with same | ⟨_,_,pure,_⟩
  · exact same.symm
  · rw [impure] at pure
    cases pure

/-- A type is below those in whose place it may stand. -/
instance : PartialOrder BcType where
  le a b := a.isCompatibleWith b = true
  le_refl := isCompatibleWith_self
  le_trans _ _ _ first second := compatible_trans first second
  le_antisymm _ _ := isCompatibleWith_antisymm

theorem le_iff {a b : BcType} : a ≤ b ↔ a.isCompatibleWith b = true := Iff.rfl

/-- Two types below a third one are below one another, in one order or the other. -/
theorem comparable {a b u : BcType} (first : a ≤ u) (second : b ≤ u) : a ≤ b ∨ b ≤ a := by
  rcases compatible_cases first with rfl | ⟨params,ret,rfl,rfl⟩
  · exact .inr second
  rcases compatible_cases second with rfl | ⟨params',ret',rfl,same⟩
  · exact .inl first
  · cases same
    exact .inl (isCompatibleWith_self _)

theorem compatibleJoin_none {a b : BcType} (missing : a.compatibleJoin b none = none) : ¬(a ≤ b ∨ b ≤ a) := by
  unfold compatibleJoin at missing
  simp only [Option.filter_none] at missing
  split at missing
  · cases missing
  split at missing
  · cases missing
  next notBelow =>
  split at missing
  · cases missing
  next notAbove =>
  rintro (below | above)
  · exact notBelow below
  · exact notAbove above

theorem compatibleJoin_mem {a b c : BcType} (joined : a.compatibleJoin b none = some c) : c = a ∨ c = b := by
  unfold compatibleJoin at joined
  simp only [Option.filter_none] at joined
  split at joined
  · exact .inl (Option.some.inj joined).symm
  split at joined
  · exact .inr (Option.some.inj joined).symm
  split at joined
  · exact .inl (Option.some.inj joined).symm
  · cases joined

theorem compatibleJoin_isJoin (expected : Option BcType) : IsJoin fun a b : BcType => a.compatibleJoin b expected := by
  intro a b
  simp only [compatibleJoin_expected]
  constructor
  · intro c joined
    obtain ⟨first,second⟩ := compatible_join joined
    constructor
    · rintro x (rfl | rfl)
      · exact first
      · exact second
    · intro u above
      rcases compatibleJoin_mem joined with rfl | rfl
      · exact above (Set.mem_insert _ _)
      · exact above (Set.mem_insert_of_mem _ rfl)
  · intro missing ⟨u,above⟩
    exact compatibleJoin_none missing
      (comparable (above (Set.mem_insert _ _)) (above (Set.mem_insert_of_mem _ rfl)))

end BcType

/-- The arms of a match, joined by the checker -/
theorem joinArmTypes_joinFrom (expected : Option BcType) (arms : List (BcType × Span)) (first : BcType) :
    (joinArmTypes expected first arms).toOption =
      joinFrom (fun a b : BcType => a.compatibleJoin b expected) first (arms.map (·.1)) := by
  induction arms generalizing first with
  | nil => rfl
  | cons arm arms hypothesis =>
    obtain ⟨ty,span⟩ := arm
    rw [joinArmTypes,List.map_cons,joinFrom]
    cases joined : first.compatibleJoin ty expected with
    | none => rfl
    | some middle => exact hypothesis middle

theorem joinArms_joinFrom (rest : List BcType) (first : BcType) :
    Lowering.joinArms first rest = joinFrom (fun a b : BcType => a.compatibleJoin b none) first rest := by
  induction rest generalizing first with
  | nil => rfl
  | cons ty rest hypothesis =>
    rw [Lowering.joinArms,joinFrom]
    cases joined : first.compatibleJoin ty none with
    | none => rfl
    | some middle => exact hypothesis middle

/-- Every order of the arms gives the same type or none, as the checker and the lowering join them and as branches are
joined from the last one on, and every arm may stand for the joined type. -/
theorem arms_order_free (expected : Option BcType) (first first' : BcType) (rest rest' : List BcType)
    (reordered : (first :: rest).Perm (first' :: rest')) :
    joinFrom (fun a b : BcType => a.compatibleJoin b expected) first rest =
        joinFrom (fun a b : BcType => a.compatibleJoin b expected) first' rest' ∧
      (∀ ty, joinFrom (fun a b : BcType => a.compatibleJoin b expected) first rest = some ty →
        ∀ arm ∈ first :: rest, arm.isCompatibleWith ty = true) ∧
      joinRight (fun a b : BcType => a.compatibleJoin b expected) first rest =
        joinRight (fun a b : BcType => a.compatibleJoin b expected) first' rest' ∧
      (∀ arms arms' : List (BcType × Span), arms.map (·.1) = first :: rest → arms'.map (·.1) = first' :: rest' →
        (Analyzer.matchType expected arms).toOption = (Analyzer.matchType expected arms').toOption) ∧
      Lowering.matchType (first :: rest) = Lowering.matchType (first' :: rest') := by
  have same := joinFrom_perm (BcType.compatibleJoin_isJoin expected) reordered
  refine ⟨same,fun ty joined => joinFrom_above (BcType.compatibleJoin_isJoin expected) joined,?_,?_,?_⟩
  · rw [joinRight_eq (BcType.compatibleJoin_isJoin expected),joinRight_eq (BcType.compatibleJoin_isJoin expected)]
    exact same
  · intro arms arms' types types'
    have checked (arms : List (BcType × Span)) (a : BcType) (l : List BcType) (types : arms.map (·.1) = a :: l) :
        (Analyzer.matchType expected arms).toOption = joinFrom (fun a b : BcType => a.compatibleJoin b expected) a l := by
      cases arms with
      | nil => cases types
      | cons arm arms =>
        obtain ⟨head,tail⟩ := List.cons.inj types
        obtain ⟨ty,span⟩ := arm
        rw [Analyzer.matchType,joinArmTypes_joinFrom,tail]
        exact congrArg (joinFrom _ · l) head
    rw [checked arms first rest types,checked arms' first' rest' types']
    exact same
  · rw [Lowering.matchType,Lowering.matchType,joinArms_joinFrom,joinArms_joinFrom]
    exact joinFrom_perm (BcType.compatibleJoin_isJoin none) reordered

/-- A pure function, an impure one and the pure one again, in another order -/
theorem arms_order_free_functions :
    joinFrom (fun a b => BcType.compatibleJoin a b (some (.fnPtr [] .i32 false))) (.fnPtr [] .i32 true)
        [.fnPtr [] .i32 true,.fnPtr [] .i32 false] =
      joinFrom (fun a b => BcType.compatibleJoin a b (some (.fnPtr [] .i32 false))) (.fnPtr [] .i32 false)
        [.fnPtr [] .i32 true,.fnPtr [] .i32 true] :=
  (arms_order_free (some (.fnPtr [] .i32 false)) _ _ _ _ (by decide)).1

end Oscan
