import Oscan.Exhaustive.Vacant

/-! The tables of an accepted program are layered: a type can only be declared after the
types it refers to. -/
namespace Oscan
open Ast Semantic Semantic.Analyzer

variable {info : SemanticInfo} {rank rank' : Rank} {names names' : Names} {self next : Analyzer}

theorem BcType.ranked.ofDefined {bound : Nat}
    (structs : ∀ name, names.struct name = true → rank.struct name < bound)
    (enums : ∀ name, names.enum name = true → rank.enum name < bound) :
    ∀ {ty : BcType}, ty.defined names = true → ty.ranked rank bound
  | .struct name,known => structs name known
  | .enum name,known => enums name known
  | .result _ _,known => by
    simp only [BcType.defined,Bool.and_eq_true] at known
    exact ⟨.ofDefined structs enums known.1,.ofDefined structs enums known.2⟩
  | .i32,_ | .i64,_ | .f64,_ | .bool,_ | .str,_ | .unit,_ | .handle,_ | .map,_ | .mapStrI32,_
  | .mapStrI64,_ | .mapStrF64,_ | .mapI32Str,_ | .mapI32I32,_ | .array _,_ | .fixedArray ..,_
  | .fnPtr ..,_ => trivial

/-- The ranks agree on the names. -/
structure Rank.Agrees (rank rank' : Rank) (names : Names) : Prop where
  struct : ∀ name, names.struct name = true → rank'.struct name = rank.struct name
  enum : ∀ name, names.enum name = true → rank'.enum name = rank.enum name

theorem BcType.ranked.agree (agrees : rank.Agrees rank' names) {bound : Nat} :
    ∀ {ty : BcType}, ty.defined names = true → ty.ranked rank bound → ty.ranked rank' bound
  | .struct name,known,deep => by simpa [BcType.ranked,agrees.struct name known] using deep
  | .enum name,known,deep => by simpa [BcType.ranked,agrees.enum name known] using deep
  | .result _ _,known,⟨ok,err⟩ => by
    simp only [BcType.defined,Bool.and_eq_true] at known
    exact ⟨.agree agrees known.1 ok,.agree agrees known.2 err⟩
  | .i32,_,_ | .i64,_,_ | .f64,_,_ | .bool,_,_ | .str,_,_ | .unit,_,_ | .handle,_,_ | .map,_,_
  | .mapStrI32,_,_ | .mapStrI64,_,_ | .mapStrF64,_,_ | .mapI32Str,_,_ | .mapI32I32,_,_
  | .array _,_,_ | .fixedArray ..,_,_ | .fnPtr ..,_,_ => trivial

theorem isSome_lookup {α : Type} {entry : String × α} {table : List (String × α)}
    (member : entry ∈ table) : (table.lookup entry.1).isSome = true := by
  obtain ⟨first,found⟩ := lookup_of_mem member
  simp [found]

theorem Layered.agree (layered : Layered self.info rank) (grounded : Grounded self.info.declared self)
    (agrees : rank.Agrees rank' self.info.declared) : Layered self.info rank' where
  fields s member f inside := by
    rw [agrees.struct s.1 (isSome_lookup member)]
    exact (layered.fields s member f inside).agree agrees (grounded.structs s member f inside)
  payloads e member v inside ty listed := by
    rw [agrees.enum e.1 (isSome_lookup member)]
    exact (layered.payloads e member v inside ty listed).agree agrees
      (grounded.enums e member v inside ty listed)
  struct name known := agrees.struct name known ▸ layered.struct name known
  enum name known := agrees.enum name known ▸ layered.enum name known

mutual
theorem defined_mono (structs : ∀ name, names.struct name = true → names'.struct name = true)
    (enums : ∀ name, names.enum name = true → names'.enum name = true) :
    ∀ {ty : BcType}, ty.defined names = true → ty.defined names' = true
  | .struct name,known => structs name known
  | .enum name,known => enums name known
  | .array elem,known | .fixedArray elem _,known => by
    simpa using defined_mono structs enums (by simpa using known : elem.defined names = true)
  | .result ok err,known => by
    simp only [BcType.defined,Bool.and_eq_true] at known ⊢
    exact ⟨defined_mono structs enums known.1,defined_mono structs enums known.2⟩
  | .fnPtr params ret _,known => by
    simp only [BcType.defined,Bool.and_eq_true] at known ⊢
    exact ⟨definedAll_mono structs enums known.1,defined_mono structs enums known.2⟩
  | .i32,_ | .i64,_ | .f64,_ | .bool,_ | .str,_ | .unit,_ | .handle,_ | .map,_ | .mapStrI32,_
  | .mapStrI64,_ | .mapStrF64,_ | .mapI32Str,_ | .mapI32I32,_ => rfl
theorem definedAll_mono (structs : ∀ name, names.struct name = true → names'.struct name = true)
    (enums : ∀ name, names.enum name = true → names'.enum name = true) :
    ∀ {types : List BcType}, BcType.definedAll names types = true →
    BcType.definedAll names' types = true
  | [],_ => rfl
  | ty :: types,known => by
    simp only [BcType.definedAll,Bool.and_eq_true] at known ⊢
    exact ⟨defined_mono structs enums known.1,definedAll_mono structs enums known.2⟩
end

theorem isSome_cons {α : Type} {table : List (String × α)} {key name : String} {value : α} :
    (List.lookup name ((key,value) :: table)).isSome = true ↔
      name = key ∨ (table.lookup name).isSome = true := by
  rw [List.lookup_cons]
  split
  next same => simp_all
  next apart => simp_all

/-- A new struct stands above all names declared so far. -/
theorem Layered.declareStruct (layered : Layered self.info rank)
    (grounded : Grounded self.info.declared self) {name : String} {fields : List (String × BcType)}
    (fresh : (self.structs.lookup name).isSome = false)
    (known : ∀ f ∈ fields, f.2.defined self.info.declared = true) :
    ∃ rank', Layered {self.info with structs := (name,⟨fields⟩) :: self.structs} rank' := by
  let top := self.structs.length+self.enums.length
  let rank' : Rank := {rank with struct := fun n => if n = name then top else rank.struct n}
  have agrees : rank.Agrees rank' self.info.declared := by
    refine ⟨fun n declared => ?_,fun _ _ => rfl⟩
    have other : n ≠ name := by
      rintro rfl
      simp [SemanticInfo.declared,Analyzer.info,fresh] at declared
    simp [rank',other]
  have old := layered.agree grounded agrees
  have own : rank'.struct name = top := by simp [rank']
  refine ⟨rank',List.forall_mem_cons.mpr ⟨fun f member => ?_,old.fields⟩,old.payloads,
    fun n declared => ?_,fun n declared => ?_⟩
  · rw [own]
    exact .ofDefined old.struct old.enum (known f member)
  · rcases isSome_cons.mp declared with rfl | declared
    · rw [own]
      simp only [top,List.length_cons,Analyzer.info]
      omega
    · have less := old.struct n declared
      simp only [List.length_cons,Analyzer.info] at less ⊢
      omega
  · have less := old.enum n declared
    simp only [List.length_cons,Analyzer.info] at less ⊢
    omega

theorem Layered.declareEnum (layered : Layered self.info rank)
    (grounded : Grounded self.info.declared self) {name : String}
    {variants : List (String × List BcType)} (fresh : (self.enums.lookup name).isSome = false)
    (known : ∀ v ∈ variants, ∀ ty ∈ v.2, ty.defined self.info.declared = true) :
    ∃ rank', Layered {self.info with enums := (name,⟨variants⟩) :: self.enums} rank' := by
  let top := self.structs.length+self.enums.length
  let rank' : Rank := {rank with enum := fun n => if n = name then top else rank.enum n}
  have agrees : rank.Agrees rank' self.info.declared := by
    refine ⟨fun _ _ => rfl,fun n declared => ?_⟩
    have other : n ≠ name := by
      rintro rfl
      simp [SemanticInfo.declared,Analyzer.info,fresh] at declared
    simp [rank',other]
  have old := layered.agree grounded agrees
  have own : rank'.enum name = top := by simp [rank']
  refine ⟨rank',old.fields,List.forall_mem_cons.mpr ⟨fun v member ty inside => ?_,old.payloads⟩,
    fun n declared => ?_,fun n declared => ?_⟩
  · rw [own]
    exact .ofDefined old.struct old.enum (known v member ty inside)
  · have less := old.struct n declared
    simp only [List.length_cons,Analyzer.info] at less ⊢
    omega
  · rcases isSome_cons.mp declared with rfl | declared
    · rw [own]
      simp only [top,List.length_cons,Analyzer.info]
      omega
    · have less := old.enum n declared
      simp only [List.length_cons,Analyzer.info] at less ⊢
      omega

theorem Grounded.mono (grounded : Grounded names self) (covered : Covered names' self)
    (structs : ∀ name, names.struct name = true → names'.struct name = true)
    (enums : ∀ name, names.enum name = true → names'.enum name = true) : Grounded names' self where
  toCovered := covered
  structs s member f inside := defined_mono structs enums (grounded.structs s member f inside)
  enums e member v inside ty listed :=
    defined_mono structs enums (grounded.enums e member v inside ty listed)
  functions f member := ⟨fun p inside => defined_mono structs enums ((grounded.functions f member).1 p inside),
    defined_mono structs enums (grounded.functions f member).2⟩
  constants c member := defined_mono structs enums (grounded.constants c member)
  scopes scope member b inside := defined_mono structs enums (grounded.scopes scope member b inside)
  ret ty found := defined_mono structs enums (grounded.ret ty found)

/-- What holds after each declaration of the first pass. -/
structure Settled (sa : Analyzer) : Prop where
  grounded : Grounded sa.info.declared sa
  layered : ∃ rank, Layered sa.info rank

theorem covered_self (sa : Analyzer) : Covered sa.info.declared sa :=
  ⟨fun _ known => known,fun _ known => known⟩

theorem Settled.collectDecl (settled : Settled self) (decl : TopDecl)
    (accepted : self.collectDecl decl = .ok next) : Settled next := by
  have before : Covered next.info.declared self := (covered_self next).beforeDecl decl accepted
  have grown : Grounded next.info.declared self :=
    settled.grounded.mono before before.knownStruct before.knownEnum
  refine ⟨(grown.collectDecl (covered_self next) decl accepted).1,?_⟩
  obtain ⟨rank,layered⟩ := settled.layered
  cases decl with
  | struct s =>
    simp only [Analyzer.collectDecl,bind_accepts,unless_accepts,pure_accepts] at accepted
    obtain ⟨fields,collected,fresh,rfl⟩ := accepted
    exact layered.declareStruct settled.grounded (by simpa only [Bool.not_eq_true] using fresh)
      (settled.grounded.collectFields collected).2
  | enum e =>
    simp only [Analyzer.collectDecl,bind_accepts,unless_accepts,pure_accepts] at accepted
    obtain ⟨variants,collected,fresh,rfl⟩ := accepted
    exact layered.declareEnum settled.grounded (by simpa only [Bool.not_eq_true] using fresh)
      (settled.grounded.collectVariants collected).2
  | fn f =>
    simp only [Analyzer.collectDecl,bind_accepts,unless_accepts,pure_accepts] at accepted
    obtain ⟨_,-,_,-,_,-,-,rfl⟩ := accepted
    exact ⟨rank,layered.fields,layered.payloads,layered.struct,layered.enum⟩
  | letDecl l =>
    simp only [Analyzer.collectDecl,bind_accepts,unless_accepts,pure_accepts] at accepted
    obtain ⟨_,-,_,-,-,rfl⟩ := accepted
    exact ⟨rank,layered.fields,layered.payloads,layered.struct,layered.enum⟩
  | externBlock eb =>
    obtain ⟨structs,enums⟩ := collectExterns_tables accepted
    have tables : next.info.structs = self.info.structs ∧ next.info.enums = self.info.enums :=
      ⟨structs,enums⟩
    exact ⟨rank,tables.1 ▸ layered.fields,tables.2 ▸ layered.payloads,
      by rw [tables.1,tables.2]; exact layered.struct,by rw [tables.1,tables.2]; exact layered.enum⟩
  | useDecl =>
    simp only [Analyzer.collectDecl,pure_accepts] at accepted
    exact accepted ▸ ⟨rank,layered⟩

theorem Settled.collectDecls : ∀ {decls : List TopDecl} {self : Analyzer}, Settled self →
    self.collectDecls decls = .ok next → Settled next
  | [],self,settled,accepted => by
    simp only [Analyzer.collectDecls,pure_accepts] at accepted
    exact accepted ▸ settled
  | decl :: decls,self,settled,accepted => by
    simp only [Analyzer.collectDecls,bind_accepts] at accepted
    obtain ⟨middle,head,tail⟩ := accepted
    exact (settled.collectDecl decl head).collectDecls tail

theorem collect_settled {program : Program} {sa : Analyzer} (accepted : collect program = .ok sa) :
    Settled sa := by
  have start : Settled initial := by
    refine ⟨?_,⟨fun _ => 0,fun _ => 0⟩,?_⟩
    · exact (@collect_grounded ⟨[]⟩ _ rfl).1
    · constructor <;> simp [initial,Analyzer.info]
  exact start.collectDecls accepted

private theorem ranked_flat : ∀ ty : BcType, ty.ranked ⟨fun _ => 0,fun _ => 0⟩ 1
  | .struct _ | .enum _ => by simp [BcType.ranked]
  | .result ok err => ⟨ranked_flat ok,ranked_flat err⟩
  | .i32 | .i64 | .f64 | .bool | .str | .unit | .handle | .map | .mapStrI32 | .mapStrI64
  | .mapStrF64 | .mapI32Str | .mapI32I32 | .array _ | .fixedArray .. | .fnPtr .. => trivial

/-- On the tables of an accepted program the search for a value is exact. -/
theorem vacant_exact {program : Program} {sa : Analyzer} (accepted : collect program = .ok sa)
    (ty : BcType) : vacant sa.info ty = true ↔ ¬HasValue sa.info ty := by
  obtain ⟨rank,layered⟩ := (collect_settled accepted).layered
  obtain ⟨structs,enums⟩ :=
    vacantNames_exact layered (sa.info.structs.length+sa.info.enums.length+1)
  -- Every name is either undeclared or of a rank that so many steps reach.
  refine @vacantType_exact _ ⟨fun _ => 0,fun _ => 0⟩ _ _ 1 (fun name _ => structs name ?_ (by omega))
    (fun name _ => enums name ?_ (by omega)) ty (ranked_flat ty)
  · cases found : sa.info.structs.lookup name with
    | none => exact .inl rfl
    | some _ => exact .inr (Nat.lt_succ_of_lt (layered.struct name (by simp [found])))
  · cases found : sa.info.enums.lookup name with
    | none => exact .inl rfl
    | some _ => exact .inr (Nat.lt_succ_of_lt (layered.enum name (by simp [found])))

end Oscan
