import Mathlib.Logic.Relation
import Mathlib.Order.WellFounded
import Oscan.Backend.Layout
import Oscan.Exhaustive.Layered

/-! Containment by value is well-founded on the types of an accepted program, and a layout exists
wherever it is. -/
namespace Oscan.Backend
open Semantic Semantic.Analyzer

/-- The second type is a part of every value of the first. -/
inductive Contains (info : SemanticInfo) : BcType → BcType → Prop
  | field {name : String} {s : StructInfo} {f : String × BcType} (known : info.structs.lookup name = some s)
      (member : f ∈ s.fields) : Contains info (.struct name) f.2
  | payload {name : String} {e : EnumInfo} {v : String × List BcType} {ty : BcType}
      (known : info.enums.lookup name = some e) (variant : v ∈ e.variants) (member : ty ∈ v.2) :
      Contains info (.enum name) ty
  | ok {ok err : BcType} : Contains info (.result ok err) ok
  | err {ok err : BcType} : Contains info (.result ok err) err

def level (rank : Rank) : BcType → Nat
  | .struct name => rank.struct name + 1
  | .enum name => rank.enum name + 1
  | .result ok err => max (level rank ok) (level rank err)
  | _ => 0

variable {info : SemanticInfo} {rank : Rank}

theorem level_le {bound : Nat} : ∀ {ty : BcType}, ty.ranked rank bound → level rank ty ≤ bound
  | .struct _,deep | .enum _,deep => Nat.succ_le_of_lt deep
  | .result _ _,⟨ok,err⟩ => Nat.max_le_of_le_of_le (level_le ok) (level_le err)
  | .i32,_ | .i64,_ | .f64,_ | .bool,_ | .str,_ | .unit,_ | .handle,_ | .map,_ | .mapStrI32,_ | .mapStrI64,_
  | .mapStrF64,_ | .mapI32Str,_ | .mapI32I32,_ | .array _,_ | .fixedArray ..,_ | .fnPtr ..,_ => Nat.zero_le _

/-- A named type is above its parts; a result may stand beside them, and is the larger term then. -/
theorem contains_less (layered : Layered info rank) {t u : BcType} (contains : Contains info t u) :
    Prod.Lex (· < ·) (· < ·) (level rank u,sizeOf u) (level rank t,sizeOf t) := by
  have beside {ok err part : BcType} (lower : level rank part ≤ level rank (.result ok err))
      (smaller : sizeOf part < sizeOf (BcType.result ok err)) : Prod.Lex (· < ·) (· < ·)
        (level rank part,sizeOf part) (level rank (.result ok err),sizeOf (BcType.result ok err)) := by
    rcases Nat.lt_or_eq_of_le lower with less | same
    · exact Prod.Lex.left _ _ less
    · rw [same]
      exact Prod.Lex.right _ smaller
  cases contains with
  | field known member =>
    have below := level_le (layered.fields _ (mem_of_lookup known) _ member)
    exact Prod.Lex.left _ _ (Nat.lt_succ_of_le below)
  | payload known variant member =>
    have below := level_le (layered.payloads _ (mem_of_lookup known) _ variant _ member)
    exact Prod.Lex.left _ _ (Nat.lt_succ_of_le below)
  | ok => exact beside (Nat.le_max_left ..) (by simp only [BcType.result.sizeOf_spec]; omega)
  | err => exact beside (Nat.le_max_right ..) (by simp only [BcType.result.sizeOf_spec]; omega)

theorem contains_wellFounded (layered : Layered info rank) :
    WellFounded (Function.swap (Contains info)) := by
  have lex : WellFounded (Prod.Lex (· < ·) (· < ·) : Nat × Nat → Nat × Nat → Prop) :=
    (Prod.lex Nat.lt_wfRel Nat.lt_wfRel).wf
  have ordered := InvImage.wf (fun ty => (level rank ty,sizeOf ty)) lex
  exact Subrelation.wf (fun contains => contains_less layered contains) ordered

theorem contains_acyclic (founded : WellFounded (Function.swap (Contains info))) (ty : BcType) :
    ¬ Relation.TransGen (Contains info) ty ty := by
  intro cycle
  have back := Relation.transGen_swap.mpr cycle
  exact founded.transGen.irrefl.irrefl ty back

section
variable {α : Type}

def Extends (lay lay' : BcType → Option α) : Prop := ∀ ty l, lay ty = some l → lay' ty = some l

/-- What a bound finds, every larger bound finds. -/
theorem extends_mono {family : Nat → BcType → Option α} (grows : ∀ depth, Extends (family depth) (family (depth + 1)))
    {depth more : Nat} (deeper : depth ≤ more) : Extends (family depth) (family more) := by
  induction deeper with
  | refl => exact fun _ _ found => found
  | step _ ih => exact fun ty l found => grows _ ty l (ih ty l found)

theorem extends_unique {family : Nat → BcType → Option α}
    (grows : ∀ depth, Extends (family depth) (family (depth + 1))) {depth depth' : Nat} {ty : BcType} {l l' : α}
    (found : family depth ty = some l) (found' : family depth' ty = some l') : l = l' := by
  have both := (extends_mono grows (Nat.le_max_left depth depth') ty l found).symm.trans
    (extends_mono grows (Nat.le_max_right depth depth') ty l' found')
  exact Option.some.inj both

/-- A property of single types that deeper bounds keep holds of finitely many types at one bound. -/
theorem common_depth {P : Nat → BcType → Prop} (deeper : ∀ depth more ty, depth ≤ more → P depth ty → P more ty) :
    ∀ {types : List BcType}, (∀ ty ∈ types, ∃ depth, P depth ty) → ∃ depth, ∀ ty ∈ types, P depth ty
  | [],_ => ⟨0,fun _ member => absurd member List.not_mem_nil⟩
  | ty :: types,each => by
    have ⟨here,others⟩ := List.forall_mem_cons.mp each
    obtain ⟨first,found⟩ := here
    obtain ⟨rest,later⟩ := common_depth deeper others
    refine ⟨max first rest,List.forall_mem_cons.mpr ⟨?_,fun u member => ?_⟩⟩
    · exact deeper _ _ _ (Nat.le_max_left ..) found
    · exact deeper _ _ _ (Nat.le_max_right ..) (later u member)

theorem mapM_extends {β γ : Type} {f g : β → Option γ} (extended : ∀ x y, f x = some y → g x = some y) :
    ∀ {xs : List β} {ys : List γ}, xs.mapM f = some ys → xs.mapM g = some ys
  | [],ys,found => found
  | x :: xs,ys,found => by
    simp only [List.mapM_cons,Option.bind_eq_bind,Option.bind_eq_some_iff,Option.pure_def] at found ⊢
    obtain ⟨y,head,rest,tail,same⟩ := found
    exact ⟨y,extended x y head,rest,mapM_extends extended tail,same⟩

end

section
variable {lay lay' : BcType → Option Layout}

theorem structLayout_extends (extended : Extends lay lay') {name : String} {r : List UInt32 × Layout}
    (found : structLayout lay info name = some r) : structLayout lay' info name = some r := by
  unfold structLayout at found ⊢
  split at found
  · obtain ⟨layouts,collected,same⟩ := Option.map_eq_some_iff.mp found
    rw [mapM_extends (fun f l => extended f.2 l) collected,Option.map_some,same]
  · exact found

theorem enumLayout_extends (extended : Extends lay lay') {name : String} {r : EnumLayout}
    (found : enumLayout lay info name = some r) : enumLayout lay' info name = some r := by
  unfold enumLayout at found ⊢
  split at found
  · exact found
  · split at found
    next payload =>
      simp only [Option.bind_eq_bind,Option.bind_eq_some_iff,Option.pure_def] at found
      obtain ⟨variants,collected,same⟩ := found
      have grown : ∀ (v : String × List BcType) (y : String × List UInt32 × Layout),
          (v.2.mapM lay).map (fun fields => (v.1,sequentialLayout fields)) = some y →
          (v.2.mapM lay').map (fun fields => (v.1,sequentialLayout fields)) = some y := by
        intro v y mapped
        obtain ⟨layouts,collected,same⟩ := Option.map_eq_some_iff.mp mapped
        rw [mapM_extends extended collected,Option.map_some,same]
      rw [if_pos payload,Option.bind_eq_bind,mapM_extends grown collected]
      exact same
    next flat => exact (if_neg flat).trans found

theorem resultLayout_extends (extended : Extends lay lay') {ok err : BcType} {r : ResultLayout}
    (found : resultLayout lay ok err = some r) : resultLayout lay' ok err = some r := by
  simp only [resultLayout,Option.bind_eq_bind,Option.bind_eq_some_iff,Option.pure_def] at found ⊢
  obtain ⟨okLayout,okFound,errLayout,errFound,same⟩ := found
  exact ⟨okLayout,extended _ _ okFound,errLayout,extended _ _ errFound,same⟩

end

theorem layoutOf_succ : ∀ depth, Extends (layoutOf info depth) (layoutOf info (depth + 1))
  | 0,_,_,found => nomatch found
  | depth + 1,ty,l,found => by
    have extended := layoutOf_succ depth
    cases ty with
    | struct name =>
      obtain ⟨r,inner,same⟩ := Option.map_eq_some_iff.mp found
      exact Option.map_eq_some_iff.mpr ⟨r,structLayout_extends extended inner,same⟩
    | enum name =>
      obtain ⟨r,inner,same⟩ := Option.map_eq_some_iff.mp found
      exact Option.map_eq_some_iff.mpr ⟨r,enumLayout_extends extended inner,same⟩
    | result ok err =>
      obtain ⟨r,inner,same⟩ := Option.map_eq_some_iff.mp found
      exact Option.map_eq_some_iff.mpr ⟨r,resultLayout_extends extended inner,same⟩
    | _ => exact found

theorem mapM_isSome {α β : Type} {f : α → Option β} :
    ∀ {xs : List α}, (∀ x ∈ xs, (f x).isSome = true) → ∃ ys, xs.mapM f = some ys
  | [],_ => ⟨[],rfl⟩
  | x :: xs,all => by
    obtain ⟨y,head⟩ := Option.isSome_iff_exists.mp (all x List.mem_cons_self)
    obtain ⟨ys,tail⟩ := mapM_isSome fun z member => all z (List.mem_cons_of_mem _ member)
    exact ⟨y :: ys,by rw [List.mapM_cons,head,tail]; rfl⟩

theorem layoutOf_of_parts {depth : Nat} : ∀ {ty : BcType},
    (∀ part, Contains info ty part → (layoutOf info depth part).isSome = true) →
    (layoutOf info (depth + 1) ty).isSome = true
  | .struct name,parts => by
    rw [layoutOf,Option.isSome_map]
    unfold structLayout
    split
    next s known =>
      obtain ⟨layouts,collected⟩ := mapM_isSome fun f member => parts f.2 (.field known member)
      rw [collected]
      rfl
    next => rfl
  | .enum name,parts => by
    rw [layoutOf,Option.isSome_map]
    unfold enumLayout
    split
    next => rfl
    next e known =>
      split
      next =>
        have each : ∀ v ∈ e.variants, ((v.2.mapM (layoutOf info depth)).map
            fun fields => (v.1,sequentialLayout fields)).isSome = true := by
          intro v variant
          obtain ⟨layouts,collected⟩ := mapM_isSome fun ty member => parts ty (.payload known variant member)
          rw [collected]
          rfl
        obtain ⟨variants,collected⟩ := mapM_isSome each
        rw [Option.bind_eq_bind,collected]
        rfl
      next => rfl
  | .result ok err,parts => by
    obtain ⟨okLayout,okFound⟩ := Option.isSome_iff_exists.mp (parts ok .ok)
    obtain ⟨errLayout,errFound⟩ := Option.isSome_iff_exists.mp (parts err .err)
    rw [layoutOf,Option.isSome_map,resultLayout,okFound,errFound]
    rfl
  | .i32,_ | .i64,_ | .f64,_ | .bool,_ | .str,_ | .unit,_ | .handle,_ | .map,_ | .mapStrI32,_ | .mapStrI64,_
  | .mapStrF64,_ | .mapI32Str,_ | .mapI32I32,_ | .array _,_ | .fixedArray ..,_ | .fnPtr ..,_ => rfl

/-- The types that a layout is computed from -/
def parts (info : SemanticInfo) : BcType → List BcType
  | .struct name => match info.structs.lookup name with
    | some s => s.fields.map (·.2)
    | none => []
  | .enum name => match info.enums.lookup name with
    | some e => e.variants.flatMap (·.2)
    | none => []
  | .result ok err => [ok,err]
  | _ => []

theorem contains_iff_parts {ty part : BcType} : Contains info ty part ↔ part ∈ parts info ty := by
  constructor
  · intro contains
    cases contains with
    | field known member =>
      simp only [parts,known]
      exact List.mem_map_of_mem member
    | payload known variant member =>
      simp only [parts,known]
      exact List.mem_flatMap.mpr ⟨_,variant,member⟩
    | ok => exact List.mem_cons_self
    | err => exact List.mem_cons_of_mem _ List.mem_cons_self
  · intro member
    cases ty with
    | struct name =>
      simp only [parts] at member
      split at member
      next s known =>
        obtain ⟨f,inside,rfl⟩ := List.mem_map.mp member
        exact .field known inside
      next => cases member
    | enum name =>
      simp only [parts] at member
      split at member
      next e known =>
        obtain ⟨v,variant,inside⟩ := List.mem_flatMap.mp member
        exact .payload known variant inside
      next => cases member
    | result ok err =>
      rcases List.mem_cons.mp member with rfl | member
      · exact .ok
      · rw [List.mem_singleton.mp member]
        exact .err
    | _ => cases member

theorem layoutOf_terminates (founded : WellFounded (Function.swap (Contains info))) (ty : BcType) :
    ∃ depth, (layoutOf info depth ty).isSome = true := by
  induction ty using founded.induction with
  | _ ty ih =>
    have deeper : ∀ depth more (part : BcType), depth ≤ more → (layoutOf info depth part).isSome = true →
        (layoutOf info more part).isSome = true := by
      intro depth more part less known
      obtain ⟨l,known⟩ := Option.isSome_iff_exists.mp known
      rw [extends_mono layoutOf_succ less part l known]
      rfl
    obtain ⟨depth,found⟩ := common_depth deeper fun part member => ih part (contains_iff_parts.mpr member)
    exact ⟨depth + 1,layoutOf_of_parts fun part contains => found part (contains_iff_parts.mp contains)⟩

end Oscan.Backend
