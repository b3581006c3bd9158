import Mathlib.Data.List.Nodup
import Oscan.Backend.ExternShimAgrees

/-! The extern functions that come to have shims in a compilation, when their symbols differ, and the condition under
which the generated source agrees with the object file. -/
namespace Oscan.ExternShim
open Ir Codegen Symbols

section Symbol

theorem digitChar_injective : ∀ a < 16, ∀ b < 16, Nat.digitChar a = Nat.digitChar b → a = b := by decide

/-- A number below a power of sixteen is known from its digits. -/
theorem mod_of_digits {a b : Nat} (k : Nat) (digits : ∀ i < k, a / 16^i % 16 = b / 16^i % 16) :
    a % 16^k = b % 16^k := by
  induction k with
  | zero => rw [Nat.pow_zero,Nat.mod_one,Nat.mod_one]
  | succ k hypothesis =>
    have lower := hypothesis fun i inside => digits i (Nat.lt_succ_of_lt inside)
    rw [Nat.mod_pow_succ,Nat.mod_pow_succ,lower,digits k (Nat.lt_succ_self k)]

theorem hex16_injective {a b : UInt64} (same : hex16 a = hex16 b) : a = b := by
  have chars := String.ofList_injective same
  have digits : ∀ i < 16, a.toNat / 16^i % 16 = b.toNat / 16^i % 16 := by
    intro i inside
    refine digitChar_injective _ (Nat.mod_lt _ (by decide)) _ (Nat.mod_lt _ (by decide)) ?_
    exact List.map_inj_left.mp chars i (List.mem_reverse.mpr (List.mem_range.mpr inside))
  have whole := mod_of_digits 16 digits
  have small (w : UInt64) : w.toNat % 16^16 = w.toNat := Nat.mod_eq_of_lt w.toNat_lt
  rw [small,small] at whole
  exact UInt64.toNat_inj.mp whole

theorem hex16_length (w : UInt64) : (hex16 w).toList.length = 16 := by
  rw [hex16,String.toList_ofList,List.length_map,List.length_reverse,List.length_range]

def keyHash (ef : ExternFnDef) : UInt64 :=
  fnv1a64 (signatureKey (mangleCName ef.name) ef.params ef.returnType).toUTF8.data.toList

/-- The C names of two extern functions are spelled differently, or the hashes of their signatures differ. -/
def SymbolsApart (a b : ExternFnDef) : Prop :=
  cIdentifierSuffix (mangleCName a.name) ≠ cIdentifierSuffix (mangleCName b.name) ∨ keyHash a ≠ keyHash b

/-- A symbol is known from its hash and its suffix, since all hashes are equally long. -/
theorem symbol_parts (first hash hash' suffix suffix' : String) (long : hash.toList.length = hash'.toList.length) :
    first ++ hash ++ "_" ++ suffix = first ++ hash' ++ "_" ++ suffix' ↔ suffix = suffix' ∧ hash = hash' := by
  constructor
  · intro same
    have texts := congrArg String.toList same
    simp only [String.toList_append,List.append_assoc] at texts
    obtain ⟨hashes,rest⟩ := List.append_inj (List.append_cancel_left texts) long
    exact ⟨String.toList_injective (List.append_cancel_left rest),String.toList_injective hashes⟩
  · intro ⟨suffixes,hashes⟩
    rw [suffixes,hashes]

theorem symbolOf_eq (ef : ExternFnDef) : symbolOf ef =
    "__oscan_native_extern_shim_" ++ hex16 (keyHash ef) ++ "_" ++ cIdentifierSuffix (mangleCName ef.name) := by
  unfold symbolOf Symbols.shimSymbol keyHash
  rfl

theorem symbolOf_ne_iff (a b : ExternFnDef) : symbolOf a ≠ symbolOf b ↔ SymbolsApart a b := by
  have long := (hex16_length (keyHash a)).trans (hex16_length (keyHash b)).symm
  have injective : hex16 (keyHash a) = hex16 (keyHash b) ↔ keyHash a = keyHash b :=
    ⟨hex16_injective,congrArg hex16⟩
  rw [SymbolsApart,Ne,symbolOf_eq,symbolOf_eq,symbol_parts _ _ _ _ _ long,injective,not_and_or]

end Symbol

section Resolve
variable (program : Program)

/-- A call of the name goes through a shim for the extern function. -/
def Through (name : String) (ef : ExternFnDef) : Prop :=
  (externDecls program).find? (·.name == name) = some ef ∧ ∃ symbol, classify program.enums ef = .ok (.shim symbol)

variable {program}

theorem Through.name {name : String} {ef : ExternFnDef} (through : Through program name ef) : ef.name = name := by
  have found := List.find?_some through.1
  exact beq_iff_eq.mp found

/-- The shims of a compilation are those of the names that it calls and that it has not met before. -/
theorem mem_resolveExterns {declare : Declare} : ∀ {names : List String} {funcs : List FuncDecl}
    {resolved : List String} {shims externs : List ExternFnDef},
    resolveExterns program declare funcs resolved shims names = .ok externs → ∀ ef,
      (ef ∈ externs ↔ ef ∈ shims ∨ ∃ name ∈ names, name ∉ resolved ∧ Through program name ef)
  | [],_,_,_,_,done,ef => by
    cases done
    simp only [List.not_mem_nil,false_and,exists_false,or_false]
  | name :: names,funcs,resolved,shims,externs,done,ef => by
    rw [resolveExterns] at done
    split at done
    · next met =>
      rw [mem_resolveExterns done ef]
      simp only [List.exists_mem_cons_iff,met,not_true_eq_false,false_and,false_or]
    next fresh =>
    split at done
    · cases done
    next found declared =>
    split at done
    · cases done
    · next direct =>
      have never (other : ExternFnDef) (through : Through program name other) : False := by
        obtain ⟨symbol,shim⟩ := through.2
        obtain rfl := Option.some.inj (declared.symm.trans through.1)
        rw [direct] at shim
        cases shim
      split at done
      · cases done
      next funcs' handle _ =>
      rw [mem_resolveExterns done ef]
      refine or_congr_right ?_
      simp only [List.mem_cons,not_or]
      constructor
      · rintro ⟨other,member,⟨_,unmet⟩,through⟩
        exact ⟨other,.inr member,unmet,through⟩
      · rintro ⟨other,member,unmet,through⟩
        have apart : other ≠ name := fun same => never ef (same ▸ through)
        exact ⟨other,member.resolve_left apart,⟨apart,unmet⟩,through⟩
    · next symbol shim =>
      have own : Through program name found := ⟨declared,symbol,shim⟩
      split at done
      · cases done
      next funcs' handle _ =>
      rw [mem_resolveExterns done ef]
      simp only [List.mem_append,List.mem_cons,List.not_mem_nil,or_false,not_or]
      constructor
      · rintro ((before | rfl) | ⟨other,member,⟨_,unmet⟩,through⟩)
        · exact .inl before
        · exact .inr ⟨name,.inl rfl,fresh,own⟩
        · exact .inr ⟨other,.inr member,unmet,through⟩
      · rintro (before | ⟨other,member,unmet,through⟩)
        · exact .inl (.inl before)
        · by_cases same : other = name
          · subst same
            exact .inl (.inr (Option.some.inj (through.1.symm.trans declared)))
          · exact .inr ⟨other,member.resolve_left same,⟨same,unmet⟩,through⟩

/-- No function comes to have two shims. -/
theorem resolveExterns_distinct {declare : Declare} : ∀ {names : List String} {funcs : List FuncDecl}
    {resolved : List String} {shims externs : List ExternFnDef},
    resolveExterns program declare funcs resolved shims names = .ok externs →
      (shims.map (·.name)).Nodup → (∀ ef ∈ shims, ef.name ∈ resolved) → (externs.map (·.name)).Nodup
  | [],_,_,_,_,done,distinct,_ => by
    cases done
    exact distinct
  | name :: names,funcs,resolved,shims,externs,done,distinct,known => by
    rw [resolveExterns] at done
    split at done
    · exact resolveExterns_distinct done distinct known
    next fresh =>
    have kept : ∀ ef ∈ shims, ef.name ∈ name :: resolved := fun ef member => List.mem_cons_of_mem _ (known ef member)
    split at done
    · cases done
    next found declared =>
    split at done
    · cases done
    · split at done
      · cases done
      exact resolveExterns_distinct done distinct kept
    · next symbol shim =>
      have own : Through program name found := ⟨declared,symbol,shim⟩
      split at done
      · cases done
      refine resolveExterns_distinct done ?_ ?_
      · rw [List.map_append,List.nodup_append]
        refine ⟨distinct,List.nodup_singleton _,fun other member last here same => ?_⟩
        obtain ⟨ef,inside,rfl⟩ := List.mem_map.mp member
        have named : last = found.name := List.mem_singleton.mp here
        rw [named,own.name] at same
        exact fresh (same ▸ known ef inside)
      · intro ef member
        rcases List.mem_append.mp member with before | last
        · exact kept ef before
        · rw [List.mem_singleton.mp last,own.name]
          exact List.mem_cons_self

/-- The types of the extern functions that have shims are those that a shim can have. -/
theorem resolved_supported {declare : Declare} {funcs : List FuncDecl} {called : List String}
    {externs : List ExternFnDef} (resolved : resolveExterns program declare funcs [] [] called = .ok externs) :
    AllSupported program.enums externs := by
  intro ef member
  rcases (mem_resolveExterns resolved ef).mp member with none | ⟨name,_,_,_,symbol,shim⟩
  · exact absurd none List.not_mem_nil
  · exact classify_supported shim

end Resolve

theorem nodup_iff {externs : List ExternFnDef} (distinct : (externs.map (·.name)).Nodup) :
    (externs.map symbolOf).Nodup ↔
      ∀ a ∈ externs, ∀ b ∈ externs, a.name ≠ b.name → SymbolsApart a b := by
  have named := List.inj_on_of_nodup_map distinct
  constructor
  · intro once a first b second apart
    refine (symbolOf_ne_iff a b).mp fun same => apart ?_
    exact congrArg _ (List.inj_on_of_nodup_map once first second same)
  · intro all
    refine List.Nodup.map_on (fun a first b second same => ?_) distinct.of_map
    by_contra apart
    exact (symbolOf_ne_iff a b).mpr (all a first b second fun equal => apart (named first second equal)) same

/-- The generated source agrees with the object file exactly when no function with a shim has a parameter of type unit
and any two of them have C names or signatures that keep their symbols apart. -/
theorem shims_agree_iff (program : Program) (declare : Declare) (funcs : List FuncDecl) (called : List String)
    {externs : List ExternFnDef} (resolved : resolveExterns program declare funcs [] [] called = .ok externs) :
    (∃ source, generateSource program.enums (externs.map shimOf) = .ok source ∧
        ShimsAgree program.enums externs source) ↔
      (∀ name ∈ called, ∀ ef, Through program name ef → ∀ p ∈ ef.params, p.2 ≠ .unit) ∧
      (∀ a ∈ called, ∀ b ∈ called, a ≠ b → ∀ efa efb, Through program a efa → Through program b efb →
        SymbolsApart efa efb) := by
  have member (ef : ExternFnDef) : ef ∈ externs ↔ ∃ name ∈ called, Through program name ef := by
    rw [mem_resolveExterns resolved ef]
    simp only [List.not_mem_nil,not_false_eq_true,true_and,false_or]
  have distinct := resolveExterns_distinct resolved List.nodup_nil fun ef none => absurd none List.not_mem_nil
  obtain ⟨source,generated,known⟩ := generateSource_ok (resolved_supported resolved)
  have once := known.names.nodup_iff.trans (nodup_iff distinct)
  constructor
  · rintro ⟨other,given,agrees⟩
    rw [generated] at given
    obtain rfl := Except.ok.inj given
    constructor
    · intro name inside ef through p typed unit
      obtain ⟨d,defined,shim⟩ := known.every ef ((member ef).mpr ⟨name,inside,through⟩)
      obtain ⟨param,listed,void⟩ := shim.void.mpr ⟨p,typed,unit⟩
      exact agrees.wellFormed.definitions d defined param listed void
    · intro a first b second apart efa efb throughA throughB
      refine once.mp agrees.wellFormed.once efa ((member efa).mpr ⟨a,first,throughA⟩) efb
        ((member efb).mpr ⟨b,second,throughB⟩) ?_
      rw [throughA.name,throughB.name]
      exact apart
  · rintro ⟨plain,apart⟩
    have valued : ∀ ef ∈ externs, ∀ p ∈ ef.params, p.2 ≠ .unit := by
      intro ef inside
      obtain ⟨name,call,through⟩ := (member ef).mp inside
      exact plain name call ef through
    refine ⟨source,generated,⟨?_,?_,?_⟩,?_⟩
    · intro prototype written param listed void
      obtain ⟨ef,inside,same⟩ := known.prototypes prototype written
      obtain ⟨p,typed,unit⟩ := same.mp ⟨param,listed,void⟩
      exact valued ef inside p typed unit
    · intro d defined param listed void
      obtain ⟨ef,inside,shim⟩ := known.definitions d defined
      obtain ⟨p,typed,unit⟩ := shim.void.mp ⟨param,listed,void⟩
      exact valued ef inside p typed unit
    · refine once.mpr fun a first b second different => ?_
      obtain ⟨nameA,callA,throughA⟩ := (member a).mp first
      obtain ⟨nameB,callB,throughB⟩ := (member b).mp second
      refine apart nameA callA nameB callB ?_ a b throughA throughB
      rw [← throughA.name,← throughB.name]
      exact different
    · intro ef inside
      obtain ⟨d,defined,shim⟩ := known.every ef inside
      obtain ⟨same,forwards⟩ := shim.agrees (valued ef inside)
      exact ⟨d,defined,shim.name,shim.real,same,forwards⟩

section Tests

def declares (params : List (String × BcType)) : Program :=
  ⟨[],[],[],[],[],[],[⟨[⟨"log",params,.i32,default⟩],default⟩],[],[]⟩

/-- `extern { fn! log(s: str) -> i32; }` with a call of it -/
theorem shims_agree_log : ∃ source,
    generateSource (declares [("s",.str)]).enums ([⟨"log",[("s",.str)],.i32,default⟩].map shimOf) = .ok source ∧
      ShimsAgree (declares [("s",.str)]).enums [⟨"log",[("s",.str)],.i32,default⟩] source := by
  refine (shims_agree_iff (declares [("s",.str)]) craneliftDeclare [] ["log"] rfl).mpr ⟨?_,?_⟩
  · intro name inside ef through p typed
    obtain rfl := List.mem_singleton.mp inside
    obtain rfl := Option.some.inj through.1
    rw [List.mem_singleton.mp typed]
    decide
  · intro a first b second apart
    rw [List.mem_singleton.mp first,List.mem_singleton.mp second] at apart
    exact absurd rfl apart

/-- `extern { fn! log(s: str, u: unit) -> i32; }` with a call of it: the shim has a parameter of type void. -/
theorem shims_disagree : ∃ externs,
    resolveExterns (declares [("s",.str),("u",.unit)]) craneliftDeclare [] [] [] ["log"] = .ok externs ∧
      ¬∃ source, generateSource (declares [("s",.str),("u",.unit)]).enums (externs.map shimOf) = .ok source ∧
        ShimsAgree (declares [("s",.str),("u",.unit)]).enums externs source := by
  have resolved : resolveExterns (declares [("s",.str),("u",.unit)]) craneliftDeclare [] [] [] ["log"] =
      .ok [⟨"log",[("s",.str),("u",.unit)],.i32,default⟩] := rfl
  refine ⟨_,resolved,fun ⟨source,given,agrees⟩ => ?_⟩
  obtain ⟨other,generated,known⟩ := generateSource_ok (resolved_supported resolved)
  rw [generated] at given
  obtain rfl := Except.ok.inj given
  obtain ⟨d,defined,shim⟩ := known.every _ (List.mem_singleton_self _)
  obtain ⟨param,listed,void⟩ := shim.void.mpr ⟨("u",.unit),List.mem_cons_of_mem _ List.mem_cons_self,rfl⟩
  exact agrees.wellFormed.definitions d defined param listed void

end Tests

end Oscan.ExternShim
