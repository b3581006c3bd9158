import Oscan.Backend.CTypes
import Oscan.Preservation.Accepted

/-! What the C file declares is what the checker has collected: the lowering resolves the types once more,
and what it finds has the same name in C. -/
namespace Oscan.Backend
open Ast Semantic Semantic.Analyzer Codegen Library.CLayout

variable {program : Ir.Program} {self next : Analyzer} {lw : Lowering}

/-- The same member type in C -/
structure SameExtent (program : Ir.Program) (t u : BcType) : Prop where
  unit : t = .unit ↔ u = .unit
  extent : ∀ depth, cLayoutOf program depth t = cLayoutOf program depth u

theorem SameExtent.refl (t : BcType) : SameExtent program t t := ⟨Iff.rfl,fun _ => rfl⟩

theorem cResult_congr {depth : Nat} {ok ok' err err' : BcType} (sameOk : SameExtent program ok ok')
    (sameErr : SameExtent program err err') :
    cResult (cLayoutOf program depth) ok err = cResult (cLayoutOf program depth) ok' err' := by
  have success : cSuccess (cLayoutOf program depth) ok = cSuccess (cLayoutOf program depth) ok' := by
    rw [cSuccess,cSuccess,sameOk.extent depth]
    exact if_congr sameOk.unit rfl rfl
  rw [cResult,cResult,success,sameErr.extent depth]

theorem resolveType_extent : ∀ (ty : Ty) {resolved : BcType}, self.resolveType ty = .ok resolved →
    SameExtent program resolved (lw.resolveType ty)
  | .named name _,resolved,accepted => by
    have kinds : resolved = .struct name ∨ resolved = .enum name := by
      simp only [Analyzer.resolveType] at accepted
      split at accepted
      next => exact .inl ((pure_accepts _ _).mp accepted).symm
      next =>
        simp only [when_accepts,pure_accepts] at accepted
        exact .inr accepted.2.symm
    have alike : ∀ depth, cLayoutOf program depth (.struct name) = cLayoutOf program depth (.enum name) := by
      intro depth
      cases depth with
      | zero => rfl
      | succ depth => rfl
    rw [Lowering.resolveType]
    split
    · rcases kinds with rfl | rfl
      · exact .refl _
      · exact ⟨⟨by simp,by simp⟩,fun depth => (alike depth).symm⟩
    · rcases kinds with rfl | rfl
      · exact ⟨⟨by simp,by simp⟩,alike⟩
      · exact .refl _
  | .primitive p _,resolved,accepted => by
    cases accepted
    exact .refl _
  | .fixedArray elem size _,resolved,accepted => by
    simp only [Analyzer.resolveType,bind_accepts,unless_accepts,pure_accepts] at accepted
    obtain ⟨e,-,-,rfl⟩ := accepted
    exact ⟨⟨by simp,by simp [Lowering.resolveType]⟩,fun depth => by cases depth <;> rfl⟩
  | .dynamicArray elem _,resolved,accepted => by
    simp only [Analyzer.resolveType,bind_accepts,unless_accepts,pure_accepts] at accepted
    obtain ⟨e,-,-,rfl⟩ := accepted
    exact ⟨⟨by simp,by simp [Lowering.resolveType]⟩,fun depth => by cases depth <;> rfl⟩
  | .result ok err _,resolved,accepted => by
    simp only [Analyzer.resolveType,bind_accepts,pure_accepts] at accepted
    obtain ⟨o,checkedOk,e,checkedErr,rfl⟩ := accepted
    have sameOk := resolveType_extent ok checkedOk
    have sameErr := resolveType_extent err checkedErr
    refine ⟨⟨by simp,by simp [Lowering.resolveType]⟩,fun depth => ?_⟩
    cases depth with
    | zero => rfl
    | succ depth => exact congrArg (Option.map (·.2)) (cResult_congr sameOk sameErr)
  | .fnPtr params ret isPure _,resolved,accepted => by
    simp only [Analyzer.resolveType,bind_accepts,pure_accepts] at accepted
    obtain ⟨ps,-,r,-,rfl⟩ := accepted
    exact ⟨⟨by simp,by simp [Lowering.resolveType]⟩,fun depth => by cases depth <;> rfl⟩

/-- The written types, and what some state of the checker has found for them -/
def Collected (types : List Ty) (resolved : List BcType) : Prop :=
  List.Forall₂ (fun ty r => ∃ self : Analyzer, self.resolveType ty = .ok r) types resolved

theorem collectFields_collected : ∀ {fields : List Field} {done : List (String × BcType)},
    self.collectFields fields = .ok done → done.map (·.1) = fields.map (·.name) ∧
      Collected (fields.map (·.ty)) (done.map (·.2))
  | [],done,accepted => by
    simp only [Analyzer.collectFields,pure_accepts] at accepted
    exact accepted ▸ ⟨rfl,.nil⟩
  | f :: fields,done,accepted => by
    simp only [Analyzer.collectFields,bind_accepts,unless_accepts,pure_accepts] at accepted
    obtain ⟨ty,resolved,-,rest,tail,rfl⟩ := accepted
    obtain ⟨names,types⟩ := collectFields_collected tail
    exact ⟨congrArg (f.name :: ·) names,.cons ⟨self,resolved⟩ types⟩

theorem collectPayload_collected : ∀ {types : List Ty} {done : List BcType},
    self.collectPayload types = .ok done → Collected types done
  | [],done,accepted => by
    simp only [Analyzer.collectPayload,pure_accepts] at accepted
    exact accepted ▸ .nil
  | ty :: types,done,accepted => by
    simp only [Analyzer.collectPayload,bind_accepts,unless_accepts,pure_accepts] at accepted
    obtain ⟨_,resolved,-,rest,tail,rfl⟩ := accepted
    exact .cons ⟨self,resolved⟩ (collectPayload_collected tail)

theorem collectVariants_collected : ∀ {variants : List Variant} {done : List (String × List BcType)},
    self.collectVariants variants = .ok done →
    List.Forall₂ (fun (v : Variant) d => d.1 = v.name ∧ Collected v.payloadTypes d.2) variants done
  | [],done,accepted => by
    simp only [Analyzer.collectVariants,pure_accepts] at accepted
    exact accepted ▸ .nil
  | v :: variants,done,accepted => by
    simp only [Analyzer.collectVariants,bind_accepts,pure_accepts] at accepted
    obtain ⟨payload,collected,rest,tail,rfl⟩ := accepted
    exact .cons ⟨rfl,collectPayload_collected collected⟩ (collectVariants_collected tail)

/-- The declaration that an entry of the table of structs comes from -/
def StructFrom (decls : List TopDecl) (name : String) (s : StructInfo) : Prop :=
  ∃ d, .struct d ∈ decls ∧ d.name = name ∧ s.fields.map (·.1) = d.fields.map (·.name) ∧
    Collected (d.fields.map (·.ty)) (s.fields.map (·.2))

def EnumFrom (decls : List TopDecl) (name : String) (e : EnumInfo) : Prop :=
  ∃ d, .enum d ∈ decls ∧ d.name = name ∧
    List.Forall₂ (fun (v : Variant) c => c.1 = v.name ∧ Collected v.payloadTypes c.2) d.variants e.variants

theorem StructFrom.tail {decl : TopDecl} {decls : List TopDecl} {name : String} {s : StructInfo} :
    StructFrom decls name s → StructFrom (decl :: decls) name s := fun ⟨d,member,rest⟩ =>
  ⟨d,List.mem_cons_of_mem _ member,rest⟩

theorem EnumFrom.tail {decl : TopDecl} {decls : List TopDecl} {name : String} {e : EnumInfo} :
    EnumFrom decls name e → EnumFrom (decl :: decls) name e := fun ⟨d,member,rest⟩ =>
  ⟨d,List.mem_cons_of_mem _ member,rest⟩

theorem collectDecls_from : ∀ {decls : List TopDecl} {self : Analyzer}, self.collectDecls decls = .ok next →
    (∀ name s, next.structs.lookup name = some s → self.structs.lookup name = some s ∨ StructFrom decls name s) ∧
      ∀ name e, next.enums.lookup name = some e → self.enums.lookup name = some e ∨ EnumFrom decls name e
  | [],self,accepted => by
    simp only [collectDecls,pure_accepts] at accepted
    exact accepted ▸ ⟨fun _ _ found => .inl found,fun _ _ found => .inl found⟩
  | decl :: decls,self,accepted => by
    simp only [collectDecls,bind_accepts] at accepted
    obtain ⟨middle,head,tail⟩ := accepted
    obtain ⟨structs,enums⟩ := collectDecls_from tail
    have keptStructs : middle.structs = self.structs → ∀ name s, next.structs.lookup name = some s →
        self.structs.lookup name = some s ∨ StructFrom (decl :: decls) name s :=
      fun same name s found => (structs name s found).imp (same ▸ ·) .tail
    have keptEnums : middle.enums = self.enums → ∀ name e, next.enums.lookup name = some e →
        self.enums.lookup name = some e ∨ EnumFrom (decl :: decls) name e :=
      fun same name e found => (enums name e found).imp (same ▸ ·) .tail
    cases decl with
    | struct d =>
      simp only [collectDecl,bind_accepts,unless_accepts,pure_accepts] at head
      obtain ⟨fields,collected,-,rfl⟩ := head
      refine ⟨fun name s found => ?_,keptEnums rfl⟩
      rcases structs name s found with early | later
      · rw [List.lookup_cons] at early
        split at early
        next same =>
          obtain ⟨names,types⟩ := collectFields_collected collected
          cases early
          exact .inr ⟨d,List.mem_cons_self,(beq_iff_eq.mp same).symm,names,types⟩
        next => exact .inl early
      · exact .inr later.tail
    | enum d =>
      simp only [collectDecl,bind_accepts,unless_accepts,pure_accepts] at head
      obtain ⟨variants,collected,-,rfl⟩ := head
      refine ⟨keptStructs rfl,fun name e found => ?_⟩
      rcases enums name e found with early | later
      · rw [List.lookup_cons] at early
        split at early
        next same =>
          cases early
          exact .inr ⟨d,List.mem_cons_self,(beq_iff_eq.mp same).symm,collectVariants_collected collected⟩
        next => exact .inl early
      · exact .inr later.tail
    | fn f =>
      simp only [collectDecl,bind_accepts,unless_accepts,pure_accepts] at head
      obtain ⟨_,-,_,-,_,-,-,rfl⟩ := head
      exact ⟨keptStructs rfl,keptEnums rfl⟩
    | letDecl l =>
      simp only [collectDecl,bind_accepts,unless_accepts,pure_accepts] at head
      obtain ⟨_,-,_,-,-,rfl⟩ := head
      exact ⟨keptStructs rfl,keptEnums rfl⟩
    | externBlock eb =>
      obtain ⟨sameStructs,sameEnums⟩ := collectExterns_tables head
      exact ⟨keptStructs sameStructs,keptEnums sameEnums⟩
    | useDecl =>
      simp only [collectDecl,pure_accepts] at head
      exact ⟨keptStructs (head ▸ rfl),keptEnums (head ▸ rfl)⟩

theorem lowerDecls_source : ∀ {decls : List TopDecl} {part : Ir.Program}, lw.lowerDecls decls = some part →
    (∀ d, .struct d ∈ decls → .struct d.name (lw.lowerStruct d).fields ∈ sourceDecls part) ∧
      ∀ d, .enum d ∈ decls → .enum d.name (lw.lowerEnum d).variants ∈ sourceDecls part
  | [],_,_ => ⟨fun _ member => absurd member List.not_mem_nil,fun _ member => absurd member List.not_mem_nil⟩
  | .useDecl .. :: decls,part,lowered => by
    simp only [Lowering.lowerDecls] at lowered
    obtain ⟨structs,enums⟩ := lowerDecls_source lowered
    exact ⟨fun d member => structs d ((List.mem_cons.mp member).resolve_left (by simp)),
      fun d member => enums d ((List.mem_cons.mp member).resolve_left (by simp))⟩
  | .externBlock _ :: decls,part,lowered => by
    simp only [Lowering.lowerDecls,bind_lowers,pure_lowers] at lowered
    obtain ⟨rest,loweredRest,rfl⟩ := lowered
    obtain ⟨structs,enums⟩ := lowerDecls_source loweredRest
    exact ⟨fun d member => structs d ((List.mem_cons.mp member).resolve_left (by simp)),
      fun d member => enums d ((List.mem_cons.mp member).resolve_left (by simp))⟩
  | .letDecl _ :: decls,part,lowered | .fn _ :: decls,part,lowered => by
    simp only [Lowering.lowerDecls,bind_lowers,pure_lowers] at lowered
    obtain ⟨_,-,rest,loweredRest,rfl⟩ := lowered
    obtain ⟨structs,enums⟩ := lowerDecls_source loweredRest
    exact ⟨fun d member => structs d ((List.mem_cons.mp member).resolve_left (by simp)),
      fun d member => enums d ((List.mem_cons.mp member).resolve_left (by simp))⟩
  | .struct s :: decls,part,lowered => by
    simp only [Lowering.lowerDecls,bind_lowers,pure_lowers] at lowered
    obtain ⟨rest,loweredRest,rfl⟩ := lowered
    obtain ⟨structs,enums⟩ := lowerDecls_source loweredRest
    refine ⟨fun d member => ?_,fun d member => ?_⟩
    · rcases List.mem_cons.mp member with same | member
      · cases same
        exact List.mem_cons_self
      · exact List.mem_cons_of_mem _ (structs d member)
    · exact List.mem_cons_of_mem _ (enums d ((List.mem_cons.mp member).resolve_left (by simp)))
  | .enum e :: decls,part,lowered => by
    simp only [Lowering.lowerDecls,bind_lowers,pure_lowers] at lowered
    obtain ⟨rest,loweredRest,rfl⟩ := lowered
    obtain ⟨structs,enums⟩ := lowerDecls_source loweredRest
    have later {decl : CTypeDecl} (member : decl ∈ sourceDecls rest) :
        decl ∈ sourceDecls {rest with enumDefs := lw.lowerEnum e :: rest.enumDefs} := by
      rcases List.mem_append.mp member with struct | enum
      · exact List.mem_append_left _ struct
      · exact List.mem_append_right _ (List.mem_cons_of_mem _ enum)
    refine ⟨fun d member => later (structs d ((List.mem_cons.mp member).resolve_left (by simp))),fun d member => ?_⟩
    rcases List.mem_cons.mp member with same | member
    · cases same
      exact List.mem_append_right _ List.mem_cons_self
    · exact later (enums d member)

theorem typedefOf_eq {decl : CTypeDecl} (member : decl ∈ sourceDecls program)
    (unique : (typedefOf program (typeDeclName decl)).isSome = true) :
    typedefOf program (typeDeclName decl) = some decl := by
  have among : decl ∈ (sourceDecls program).filter fun other => typeDeclName other == typeDeclName decl :=
    List.mem_filter.mpr ⟨member,beq_self_eq_true _⟩
  unfold typedefOf at unique ⊢
  split
  next only same =>
    rw [same] at among
    rw [List.mem_singleton.mp among]
  next clash =>
    split at unique
    next only same => exact absurd same (clash only)
    next => cases unique

theorem mapM_congr {α β γ : Type} {f : α → Option γ} {g : β → Option γ} {xs : List α} {ys : List β}
    (same : List.Forall₂ (fun x y => f x = g y) xs ys) : xs.mapM f = ys.mapM g := by
  induction same with
  | nil => rfl
  | cons head _ ih => rw [List.mapM_cons,List.mapM_cons,head,ih]

theorem collected_extent {types : List Ty} {resolved : List BcType} (collected : Collected types resolved) :
    List.Forall₂ (SameExtent program) resolved (types.map lw.resolveType) := by
  induction collected with
  | nil => exact .nil
  | cons head _ ih =>
    obtain ⟨self,resolved⟩ := head
    exact .cons (resolveType_extent _ resolved) ih

theorem cStruct_congr {depth : Nat} {fields fields' : List (String × BcType)}
    (names : fields.map (·.1) = fields'.map (·.1))
    (same : List.Forall₂ (SameExtent program) (fields.map (·.2)) (fields'.map (·.2))) :
    cStruct (cLayoutOf program depth) fields = cStruct (cLayoutOf program depth) fields' := by
  have members : fields.mapM (fun f => cLayoutOf program depth f.2) =
      fields'.mapM (fun f => cLayoutOf program depth f.2) :=
    mapM_congr ((List.forall₂_map_right_iff.mp (List.forall₂_map_left_iff.mp same)).imp
      fun _ _ same => same.extent depth)
  rw [cStruct,cStruct,names,members]

/-- Variants with the same names and, in C, the same payloads -/
def SameVariants (program : Ir.Program) : List (String × List BcType) → List (String × List BcType) → Prop :=
  List.Forall₂ fun v v' => v.1 = v'.1 ∧ List.Forall₂ (SameExtent program) v.2 v'.2

theorem cEnum_congr {depth : Nat} {variants variants' : List (String × List BcType)}
    (same : SameVariants program variants variants') :
    cEnum (cLayoutOf program depth) variants = cEnum (cLayoutOf program depth) variants' := by
  have names : variants.map (·.1) = variants'.map (·.1) := by
    rw [← List.forall₂_eq_eq_eq]
    exact List.forall₂_map_left_iff.mpr (List.forall₂_map_right_iff.mpr (same.imp fun _ _ alike => alike.1))
  have payload : (variants.any fun v => !v.2.isEmpty) = variants'.any fun v => !v.2.isEmpty := by
    induction same with
    | nil => rfl
    | @cons v v' _ _ head _ ih =>
      have empty : v.2.isEmpty = v'.2.isEmpty := by
        rw [Bool.eq_iff_iff,List.isEmpty_iff_length_eq_zero,List.isEmpty_iff_length_eq_zero,head.2.length_eq]
      rw [List.any_cons,List.any_cons,empty,ih (List.cons.inj names).2]
  have payloads : variants.mapM (cPayload (cLayoutOf program depth)) =
      variants'.mapM (cPayload (cLayoutOf program depth)) := by
    refine mapM_congr (same.imp fun v v' alike => ?_)
    rw [cPayload,cPayload,alike.1,mapM_congr (alike.2.imp fun _ _ same => same.extent depth)]
  rw [cEnum,cEnum,names,payload,payloads]

section
variable {source : Ast.Program} {info : SemanticInfo} (accepted : analyze source = .ok info)
  (lowered : lowerProgram source info = some program)
include accepted lowered

/-- The C declaration of a struct, where the name has one. -/
theorem typedefOf_struct {name : String} {s : StructInfo} (known : info.structs.lookup name = some s)
    (unique : (typedefOf program name).isSome = true) : ∃ fields, typedefOf program name = some (.struct name fields) ∧
      ∀ depth, cStruct (cLayoutOf program depth) fields = cStruct (cLayoutOf program depth) s.fields := by
  obtain ⟨sa,collected,-,rfl⟩ := analyze_accepts.mp accepted
  obtain ⟨d,member,rfl,names,types⟩ := ((collectDecls_from collected).1 name s known).resolve_left nofun
  have emitted := (lowerDecls_source lowered).1 d member
  refine ⟨_,typedefOf_eq emitted unique,fun depth => (cStruct_congr ?_ ?_).symm⟩
  · rw [names,Lowering.lowerStruct,List.map_map]
    rfl
  · have extents := @collected_extent program ⟨sa.info,[],none,none,none⟩ _ _ types
    rw [List.map_map] at extents
    rwa [Lowering.lowerStruct,List.map_map]

theorem typedefOf_enum {name : String} {e : EnumInfo} (known : info.enums.lookup name = some e)
    (unique : (typedefOf program name).isSome = true) : ∃ variants, typedefOf program name = some (.enum name variants) ∧
      ∀ depth, cEnum (cLayoutOf program depth) variants = cEnum (cLayoutOf program depth) e.variants := by
  obtain ⟨sa,collected,-,rfl⟩ := analyze_accepts.mp accepted
  obtain ⟨d,member,rfl,variants⟩ := ((collectDecls_from collected).2 name e known).resolve_left nofun
  have emitted := (lowerDecls_source lowered).2 d member
  refine ⟨_,typedefOf_eq emitted unique,fun depth => (cEnum_congr ?_).symm⟩
  refine List.forall₂_map_right_iff.mpr (variants.flip.imp fun c v alike => ⟨alike.1,?_⟩)
  exact collected_extent alike.2

end

end Oscan.Backend
