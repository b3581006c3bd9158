import Mathlib
import Oscan.Codegen.Node
import Oscan.Codegen.TypeName
import Oscan.Lower
import Oscan.Semantic.Analyze

/-! When the names of Result and function-pointer types tell them apart. -/
namespace Oscan.Codegen
open Semantic

/-- Equal C names stand for equal payload types, among the Results and among the function
pointers of a list of types. -/
structure NamesInjective (types : List BcType) : Prop where
  result : ∀ ok err ok' err', .result ok err ∈ types → .result ok' err' ∈ types →
    resultTypeName ok err = resultTypeName ok' err' → ok = ok' ∧ err = err'
  fnPtr : ∀ params ret isPure params' ret' isPure', .fnPtr params ret isPure ∈ types →
    .fnPtr params' ret' isPure' ∈ types →
    fnPtrTypedefName (.fnPtr params ret isPure) = fnPtrTypedefName (.fnPtr params' ret' isPure') →
    params = params' ∧ ret = ret'

/-- No two Results and no two function pointers with different payload types read alike word
by word. -/
structure ReadApart (types : List BcType) : Prop where
  result : ∀ ok err ok' err', .result ok err ∈ types → .result ok' err' ∈ types →
    words ok ++ words err = words ok' ++ words err' → ok = ok' ∧ err = err'
  fnPtr : ∀ params ret isPure params' ret' isPure', .fnPtr params ret isPure ∈ types →
    .fnPtr params' ret' isPure' ∈ types →
    words (.fnPtr params ret isPure) = words (.fnPtr params' ret' isPure') →
    params = params' ∧ ret = ret'

/-! ### Types that read apart by themselves -/

def builtinWords : List String :=
  ["i32","i64","f64","bool","str","unit","handle","map","arr","result"]

/-- Built from scalars, untyped maps, dynamic arrays, Results and user types of one word that is
not a built-in one. -/
def Plain : BcType → Prop
  | .mapStrI32 | .mapStrI64 | .mapStrF64 | .mapI32Str | .mapI32I32 | .fixedArray .. | .fnPtr .. => False
  | .struct name | .enum name => ∃ word ∉ builtinWords, nameWords name = [word]
  | .array e => Plain e
  | .result o e => Plain o ∧ Plain e
  | _ => True

def userType : BcType → Bool
  | .struct _ | .enum _ => true
  | _ => false

/-- No two user types have one word sequence. -/
def Separate (types : List BcType) : Prop :=
  ∀ s t, s ∈ types → t ∈ types → userType s → userType t → words s = words t → s = t

theorem parts_self (ty : BcType) : ty ∈ ty.parts := by
  unfold BcType.parts
  exact List.mem_cons_self ..

theorem user_word {ty : BcType} (plain : Plain ty) (user : userType ty = true) :
    ∃ word ∉ builtinWords, words ty = [word] := by
  cases ty <;> simp only [userType,Bool.false_eq_true] at user
  all_goals
    obtain ⟨word,fresh,same⟩ := plain
    exact ⟨word,fresh,by simpa only [words] using same⟩

theorem builtin_word {ty : BcType} (plain : Plain ty) (user : userType ty = false) :
    ∃ word ∈ builtinWords, ∃ rest, words ty = word :: rest := by
  cases ty <;> simp only [Plain,userType,Bool.true_eq_false] at plain user
  all_goals exact ⟨_,by simp [builtinWords],_,rfl⟩

/-- Words that begin alike belong both to user types or both to built-in ones. -/
theorem user_iff {s t : BcType} (plain : Plain s) (plain' : Plain t) {r r' : List String}
    (same : words s ++ r = words t ++ r') : userType s = userType t := by
  cases user : userType s <;> cases user' : userType t
  · rfl
  · obtain ⟨word,inside,rest,spelled⟩ := builtin_word plain user
    obtain ⟨word',fresh,spelled'⟩ := user_word plain' user'
    rw [spelled,spelled'] at same
    exact absurd ((List.cons.inj same).1 ▸ inside) fresh
  · obtain ⟨word,fresh,spelled⟩ := user_word plain user
    obtain ⟨word',inside,rest,spelled'⟩ := builtin_word plain' user'
    rw [spelled,spelled'] at same
    exact absurd ((List.cons.inj same).1 ▸ inside) fresh
  · rfl

theorem user_readable {types : List BcType} (separate : Separate types) {s t : BcType}
    (plain : Plain s) (plain' : Plain t) (inside : s ∈ types) (inside' : t ∈ types)
    (user : userType s = true) {r r' : List String} (same : words s ++ r = words t ++ r') :
    s = t ∧ r = r' := by
  have user' := user_iff plain plain' same ▸ user
  obtain ⟨word,-,spelled⟩ := user_word plain user
  obtain ⟨word',-,spelled'⟩ := user_word plain' user'
  have heads := same
  rw [spelled,spelled'] at heads
  obtain ⟨rfl,rfl⟩ := List.cons.inj heads
  exact ⟨separate s t inside inside' user user' (spelled.trans spelled'.symm),rfl⟩

/-- Plain types are a prefix code. -/
theorem plain_readable {types : List BcType} (separate : Separate types) :
    ∀ s t : BcType, Plain s → Plain t → s.parts ⊆ types → t.parts ⊆ types →
      ∀ {r r'}, words s ++ r = words t ++ r' → s = t ∧ r = r'
  | .struct name,t => fun plain plain' inside inside' _ _ same =>
    user_readable separate plain plain' (inside (parts_self _)) (inside' (parts_self _)) rfl same
  | .enum name,t => fun plain plain' inside inside' _ _ same =>
    user_readable separate plain plain' (inside (parts_self _)) (inside' (parts_self _)) rfl same
  | .array e,t => by
    intro plain plain' inside inside' r r' same
    have user := user_iff plain plain' same
    cases t <;> simp [Plain,userType,words] at plain plain' user same
    next e' =>
      simp only [BcType.parts,List.cons_subset] at inside inside'
      obtain ⟨rfl,rest⟩ := plain_readable separate e e' plain plain' inside.2 inside'.2 same
      exact ⟨rfl,rest⟩
  | .result o e,t => by
    intro plain plain' inside inside' r r' same
    have user := user_iff plain plain' same
    cases t <;> simp [Plain,userType,words] at plain plain' user same
    next o' e' =>
      simp only [BcType.parts,List.cons_subset,List.append_subset] at inside inside'
      obtain ⟨rfl,later⟩ :=
        plain_readable separate o o' plain.1 plain'.1 inside.2.1 inside'.2.1 same
      obtain ⟨rfl,rest⟩ :=
        plain_readable separate e e' plain.2 plain'.2 inside.2.2 inside'.2.2 later
      exact ⟨rfl,rest⟩
  | .i32,t | .i64,t | .f64,t | .bool,t | .str,t | .unit,t | .handle,t | .map,t => by
    intro plain plain' inside inside' r r' same
    have user := user_iff plain plain' same
    cases t <;> simp_all [Plain,userType,words]
  | .mapStrI32,_ | .mapStrI64,_ | .mapStrF64,_ | .mapI32Str,_ | .mapI32I32,_ | .fixedArray ..,_
  | .fnPtr ..,_ => nofun

mutual
theorem parts_trans : ∀ t s : BcType, s ∈ t.parts → s.parts ⊆ t.parts
  | .array e,s | .fixedArray e _,s => by
    intro member
    rw [BcType.parts] at member ⊢
    rcases List.mem_cons.mp member with rfl | inside
    · rw [BcType.parts]
      exact List.Subset.refl _
    · exact List.subset_cons_of_subset _ (parts_trans e s inside)
  | .result o e,s => by
    intro member
    rw [BcType.parts] at member ⊢
    rcases List.mem_cons.mp member with rfl | inside
    · rw [BcType.parts]
      exact List.Subset.refl _
    · apply List.subset_cons_of_subset
      rcases List.mem_append.mp inside with left | right
      · exact List.subset_append_of_subset_left _ (parts_trans o s left)
      · exact List.subset_append_of_subset_right _ (parts_trans e s right)
  | .fnPtr params ret _,s => by
    intro member
    rw [BcType.parts] at member ⊢
    rcases List.mem_cons.mp member with rfl | inside
    · rw [BcType.parts]
      exact List.Subset.refl _
    · apply List.subset_cons_of_subset
      rcases List.mem_append.mp inside with left | right
      · exact List.subset_append_of_subset_left _ (partsOf_trans params s left)
      · exact List.subset_append_of_subset_right _ (parts_trans ret s right)
  | .i32,s | .i64,s | .f64,s | .bool,s | .str,s | .unit,s | .handle,s | .map,s | .mapStrI32,s
  | .mapStrI64,s | .mapStrF64,s | .mapI32Str,s | .mapI32I32,s | .struct _,s | .enum _,s => by
    intro member
    obtain rfl := List.mem_singleton.mp member
    exact List.Subset.refl _
theorem partsOf_trans : ∀ (ts : List BcType) (s : BcType), s ∈ BcType.partsOf ts →
    s.parts ⊆ BcType.partsOf ts
  | [],_ => nofun
  | t :: ts,s => by
    intro member
    rw [BcType.partsOf] at member ⊢
    rcases List.mem_append.mp member with left | right
    · exact List.subset_append_of_subset_left _ (parts_trans t s left)
    · exact List.subset_append_of_subset_right _ (partsOf_trans ts s right)
end

theorem occurring_parts {program : Ir.Program} {t : BcType} (occurs : t ∈ program.occurring) :
    t.parts ⊆ program.occurring := by
  obtain ⟨root,written,inside⟩ := List.mem_flatMap.mp occurs
  intro s member
  exact List.mem_flatMap.mpr ⟨root,written,parts_trans root t inside member⟩

/-- Plain types read apart as soon as their user types do. -/
theorem readApart_of_plain (program : Ir.Program) (plain : ∀ t ∈ program.occurring, Plain t)
    (separate : Separate program.occurring) : ReadApart program.occurring := by
  constructor
  · intro ok err ok' err' occurs occurs' same
    have whole : words (.result ok err) ++ [] = words (.result ok' err') ++ [] := by
      rw [List.append_nil,List.append_nil,words,words,same]
    have equal := (plain_readable separate _ _ (plain _ occurs) (plain _ occurs')
      (occurring_parts occurs) (occurring_parts occurs') whole).1
    exact BcType.result.inj equal
  · intro params ret isPure _ _ _ occurs _ _
    exact (plain _ occurs).elim

private def startingPoint : Span := ⟨0,0⟩

/-- `struct Foo { a: i32 }  struct foo { b: i32 }  enum Either { A(Result<Foo, str>), B(Result<foo, str>) }` -/
def fooTwice : Ast.Program :=
  let primitive (p : Ast.PrimitiveType) : Ast.Ty := .primitive p startingPoint
  let struct (name field : String) : Ast.TopDecl :=
    .struct ⟨name,[⟨field,primitive .i32,startingPoint⟩],startingPoint⟩
  let variant (name payload : String) : Ast.Variant :=
    ⟨name,[.result (.named payload startingPoint) (primitive .str) startingPoint],startingPoint⟩
  ⟨[struct "Foo" "a",struct "foo" "b",
    .enum ⟨"Either",[variant "A" "Foo",variant "B" "foo"],startingPoint⟩]⟩

end Oscan.Codegen
