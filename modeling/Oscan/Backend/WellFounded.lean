import Oscan.Backend.Contained
import Oscan.Order.Independent
import Oscan.Preservation.Written

/-! The types of an accepted program: their names, their declarations, and what they contain by value. -/
namespace Oscan.Backend
open Ast Semantic Semantic.Analyzer

def structNames (decls : List TopDecl) : List String :=
  decls.filterMap fun decl => match decl with | .struct s => some s.name | _ => none

def enumNames (decls : List TopDecl) : List String :=
  decls.filterMap fun decl => match decl with | .enum e => some e.name | _ => none

/-- The names that a program declares for its structs and for its enums -/
def declaredNames (program : Program) : Names :=
  ⟨fun name => decide (name ∈ structNames program.decls),fun name => decide (name ∈ enumNames program.decls)⟩

/-- The type environment of a program: `info` is what the checker has collected of it. -/
structure WellFoundedTypes (program : Program) (info : SemanticInfo) : Prop where
  unique : (structNames program.decls ++ enumNames program.decls).Nodup
  written : ∀ decl ∈ program.decls, (∀ ty ∈ decl.types, ty.declared (declaredNames program) = true) ∧
    ∀ o ∈ decl.occurrences, o.ty.declared (declaredNames program) = true
  fields : ∀ s ∈ info.structs, ∀ f ∈ s.2.fields, f.2.defined (declaredNames program) = true
  payloads : ∀ e ∈ info.enums, ∀ v ∈ e.2.variants, ∀ ty ∈ v.2, ty.defined (declaredNames program) = true
  acyclic : ∀ ty, ¬ Relation.TransGen (Contains info) ty ty
  terminates : ∀ ty, ∃ depth, (layoutOf info depth ty).isSome = true

/-- No struct has the name of an enum, and the enums in the payloads of patterns are declared. -/
structure NamesApart (program : Program) : Prop where
  apart : ∀ name ∈ structNames program.decls, name ∉ enumNames program.decls
  inPayloads : ∀ decl ∈ program.decls, ∀ o ∈ decl.occurrences, o.inPayload = true →
    o.ty.declared (declaredNames program) = true

/-- The second table is the first with entries for the names, none of which was there. -/
structure Grows {α : Type} (table grown : List (String × α)) (names : List String) : Prop where
  distinct : names.Nodup
  fresh : ∀ name ∈ names, table.lookup name = none
  keys : ∀ name, (grown.lookup name).isSome = true ↔ (table.lookup name).isSome = true ∨ name ∈ names

variable {program : Program} {info : SemanticInfo} {self next : Analyzer}

theorem Grows.refl {α : Type} (table : List (String × α)) : Grows table table [] :=
  ⟨List.nodup_nil,fun _ member => absurd member List.not_mem_nil,
    fun _ => ⟨.inl,fun known => known.resolve_right List.not_mem_nil⟩⟩

theorem Grows.cons {α : Type} {table grown : List (String × α)} {names : List String} {key : String} {value : α}
    (grows : Grows ((key,value) :: table) grown names) (fresh : table.lookup key = none) :
    Grows table grown (key :: names) := by
  have absent : ∀ name ∈ names, name ≠ key ∧ table.lookup name = none := by
    intro name member
    have none := grows.fresh name member
    rw [List.lookup_cons] at none
    split at none
    · cases none
    next other => exact ⟨fun same => by simp [same] at other,none⟩
  refine ⟨List.nodup_cons.mpr ⟨fun member => (absent key member).1 rfl,grows.distinct⟩,?_,fun name => ?_⟩
  · exact List.forall_mem_cons.mpr ⟨fresh,fun name member => (absent name member).2⟩
  · rw [grows.keys,isSome_cons,List.mem_cons,or_assoc,or_left_comm]

theorem collectDecls_grows : ∀ {decls : List TopDecl} {self : Analyzer}, self.collectDecls decls = .ok next →
    Grows self.structs next.structs (structNames decls) ∧ Grows self.enums next.enums (enumNames decls)
  | [],self,accepted => by
    simp only [collectDecls,pure_accepts] at accepted
    exact accepted ▸ ⟨.refl _,.refl _⟩
  | decl :: decls,self,accepted => by
    simp only [collectDecls,bind_accepts] at accepted
    obtain ⟨middle,head,tail⟩ := accepted
    obtain ⟨structs,enums⟩ := collectDecls_grows tail
    cases decl with
    | struct s =>
      simp only [collectDecl,bind_accepts,unless_accepts,pure_accepts] at head
      obtain ⟨fields,-,fresh,rfl⟩ := head
      exact ⟨structs.cons (Option.not_isSome_iff_eq_none.mp fresh),enums⟩
    | enum e =>
      simp only [collectDecl,bind_accepts,unless_accepts,pure_accepts] at head
      obtain ⟨variants,-,fresh,rfl⟩ := head
      exact ⟨structs,enums.cons (Option.not_isSome_iff_eq_none.mp fresh)⟩
    | fn f =>
      simp only [collectDecl,bind_accepts,unless_accepts,pure_accepts] at head
      obtain ⟨_,-,_,-,_,-,-,rfl⟩ := head
      exact ⟨structs,enums⟩
    | letDecl l =>
      simp only [collectDecl,bind_accepts,unless_accepts,pure_accepts] at head
      obtain ⟨_,-,_,-,-,rfl⟩ := head
      exact ⟨structs,enums⟩
    | externBlock eb =>
      obtain ⟨sameStructs,sameEnums⟩ := collectExterns_tables head
      rw [sameStructs] at structs
      rw [sameEnums] at enums
      exact ⟨structs,enums⟩
    | useDecl =>
      simp only [collectDecl,pure_accepts] at head
      exact head ▸ ⟨structs,enums⟩

theorem collect_declared {sa : Analyzer} (collected : collect program = .ok sa) :
    sa.info.declared = declaredNames program := by
  have ⟨structs,enums⟩ := collectDecls_grows collected
  have struct : ∀ name, (sa.structs.lookup name).isSome = decide (name ∈ structNames program.decls) :=
    fun name => Bool.eq_iff_iff.mpr (by simp [structs.keys,initial])
  have enum : ∀ name, (sa.enums.lookup name).isSome = decide (name ∈ enumNames program.decls) :=
    fun name => Bool.eq_iff_iff.mpr (by simp [enums.keys,initial])
  exact congrArg₂ Names.mk (funext struct) (funext enum)

theorem written_of_apart {sa : Analyzer} (collected : collect program = .ok sa) {log : TypeLog}
    (checked : sa.checkDecls program.decls = .ok log) (apart : NamesApart program) :
    ∀ decl ∈ program.decls, (∀ ty ∈ decl.types, ty.declared (declaredNames program) = true) ∧
      ∀ o ∈ decl.occurrences, o.ty.declared (declaredNames program) = true := by
  obtain ⟨grounded,types⟩ := collect_grounded collected
  have looked := checkDecls_written grounded (collect_fresh collected).scopes checked
  rw [collect_declared collected] at types looked
  intro decl member
  refine ⟨types decl member,fun o inside => ?_⟩
  cases payload : o.inPayload with
  | true => exact apart.inPayloads decl member o inside payload
  | false => exact looked decl member o inside payload

/-- What the checker accepts is a well-founded type environment, provided the structs and the enums have
different names and no pattern inside a payload names an enum that is not there. -/
theorem types_wellFounded_iff (accepted : analyze program = .ok info) :
    WellFoundedTypes program info ↔ NamesApart program := by
  obtain ⟨sa,collected,⟨log,checked⟩,rfl⟩ := analyze_accepts.mp accepted
  constructor
  · intro types
    exact ⟨fun name struct enum => (List.nodup_append.mp types.unique).2.2 name struct name enum rfl,
      fun decl member o inside _ => (types.written decl member).2 o inside⟩
  · intro apart
    have ⟨structs,enums⟩ := collectDecls_grows collected
    obtain ⟨grounded,rank,layered⟩ := collect_settled collected
    rw [collect_declared collected] at grounded
    have founded := contains_wellFounded layered
    exact {
      unique := List.nodup_append.mpr ⟨structs.distinct,enums.distinct,
        fun name struct other enum same => apart.apart name struct (same ▸ enum)⟩
      written := written_of_apart collected checked apart
      fields := grounded.structs
      payloads := grounded.enums
      acyclic := contains_acyclic founded
      terminates := layoutOf_terminates founded}

private def unplaced : Span := ⟨0,0⟩

def mainDecl : TopDecl := .fn ⟨"main",[],none,.mk [] none unplaced,false,unplaced⟩

def enclosing : Program :=
  ⟨[.struct ⟨"A",[⟨"x",.primitive .i32 unplaced,unplaced⟩],unplaced⟩,
    .enum ⟨"B",[⟨"C",[.named "A" unplaced],unplaced⟩],unplaced⟩,mainDecl]⟩

theorem enclosing_wellFounded : ∃ info, analyze enclosing = .ok info ∧ WellFoundedTypes enclosing info := by
  refine ⟨_,rfl,(types_wellFounded_iff rfl).mpr ⟨?_,?_⟩⟩
  · decide
  · decide

/-- A struct and an enum of one name -/
def homonymous : Program := ⟨[.struct ⟨"A",[],unplaced⟩,.enum ⟨"A",[],unplaced⟩,mainDecl]⟩

theorem homonymous_accepted : ∃ info, analyze homonymous = .ok info ∧ ¬ WellFoundedTypes homonymous info := by
  refine ⟨_,rfl,fun types => ?_⟩
  have unique := types.unique
  revert unique
  decide

end Oscan.Backend
