import Oscan.Preservation.Defined

/-! What a declaration puts into the symbol tables. It depends on the earlier declarations
through the kind of each type name alone. -/
namespace Oscan.Semantic
open Ast

inductive Kind where
  | struct | enum
deriving DecidableEq

/-- How a type name is seen after the declarations; a struct hides an enum. -/
def kindAt (before : List TopDecl) (name : String) : Option Kind :=
  if before.any (fun | .struct s => s.name == name | _ => false) then some .struct
  else if before.any (fun | .enum e => e.name == name | _ => false) then some .enum
  else none

mutual
def typeNames : Ty → List String
  | .primitive .. => []
  | .named name _ => [name]
  | .fixedArray elem _ _ | .dynamicArray elem _ => typeNames elem
  | .result ok err _ => typeNames ok ++ typeNames err
  | .fnPtr params ret _ _ => allTypeNames params ++ typeNames ret
def allTypeNames : List Ty → List String
  | [] => []
  | ty :: types => typeNames ty ++ allTypeNames types
end

theorem allTypeNames_eq : ∀ types : List Ty, allTypeNames types = types.flatMap typeNames
  | [] => rfl
  | ty :: types => by simp [allTypeNames,allTypeNames_eq types]

/-- The type names in the signature of a declaration. -/
def mentions (d : TopDecl) : List String := d.types.flatMap typeNames

inductive Entry where
  | struct (name : String) (info : StructInfo)
  | enum (name : String) (info : EnumInfo)
  | function (name : String) (info : FunctionInfo)
  | constant (name : String) (info : ConstInfo)

namespace Analyzer

section
variable (self : Analyzer)

def kindOf (name : String) : Option Kind :=
  if (self.structs.lookup name).isSome then some .struct
  else if (self.enums.lookup name).isSome then some .enum
  else none

def externContents : List ExternFnDecl → Check (List Entry)
  | [] => return []
  | ef :: decls => do
    rejectReservedCollectionName ef.name ef.span
    let params ← self.collectParams ef.params
    let returnType ← self.resolveReturn ef.returnType
    return .function ef.name ⟨params,returnType,false,true⟩ :: (← externContents decls)

/-- The entries of a declaration, before they are checked for duplicates. -/
def contents : TopDecl → Check (List Entry)
  | .struct s => do return [.struct s.name ⟨← self.collectFields s.fields⟩]
  | .enum e => do return [.enum e.name ⟨← self.collectVariants e.variants⟩]
  | .fn f => do
    rejectReservedCollectionName f.name f.span
    let params ← self.collectParams f.params
    let returnType ← self.resolveReturn f.returnType
    return [.function f.name ⟨params,returnType,f.isPure,false⟩]
  | .letDecl l => do
    rejectReservedCollectionName l.name l.span
    return [.constant l.name ⟨← self.resolveType l.ty⟩]
  | .externBlock eb => self.externContents eb.decls
  | .useDecl .. => return []

def holds : Entry → Bool
  | .struct name _ => (self.structs.lookup name).isSome
  | .enum name _ => (self.enums.lookup name).isSome
  | .function name _ => (self.functions.lookup name).isSome
  | .constant name _ => (self.constants.lookup name).isSome

def insert : Entry → Analyzer
  | .struct name info => {self with structs := (name,info) :: self.structs}
  | .enum name info => {self with enums := (name,info) :: self.enums}
  | .function name info => {self with functions := (name,info) :: self.functions}
  | .constant name info => {self with constants := (name,info) :: self.constants}

end

def insertAll : Analyzer → List Entry → Option Analyzer
  | self,[] => some self
  | self,e :: es => if self.holds e then none else insertAll (self.insert e) es

variable {self other : Analyzer}

theorem insertAll_cons {e : Entry} {es : List Entry} {next : Analyzer} :
    self.insertAll (e :: es) = some next ↔
      ¬self.holds e = true ∧ (self.insert e).insertAll es = some next := by
  rw [insertAll]
  split <;> simp [*]

theorem insertAll_single {e : Entry} {next : Analyzer} :
    self.insertAll [e] = some next ↔ ¬self.holds e = true ∧ self.insert e = next := by
  rw [insertAll_cons]
  simp [insertAll]

theorem resolveType_named (name : String) (span : Span) : self.resolveType (.named name span) =
    match self.kindOf name with
    | some .struct => return .struct name
    | some .enum => return .enum name
    | none => reject span s!"undefined type '{name}'" := by
  simp only [resolveType,kindOf]
  split
  · rfl
  · split <;> rfl

mutual
theorem resolveType_congr : ∀ ty : Ty, (∀ name ∈ typeNames ty, self.kindOf name = other.kindOf name) →
    self.resolveType ty = other.resolveType ty
  | .primitive .. ,_ => rfl
  | .named name span,alike => by
    rw [resolveType_named,resolveType_named,alike name (by simp [typeNames])]
  | .fixedArray elem _ _,alike | .dynamicArray elem _,alike => by
    simp only [resolveType,resolveType_congr elem alike]
  | .result ok err _,alike => by
    simp only [typeNames,List.forall_mem_append] at alike
    simp only [resolveType,resolveType_congr ok alike.1,resolveType_congr err alike.2]
  | .fnPtr params ret _ _,alike => by
    simp only [typeNames,List.forall_mem_append] at alike
    simp only [resolveType,resolveTypes_congr params alike.1,resolveType_congr ret alike.2]
theorem resolveTypes_congr : ∀ types : List Ty,
    (∀ name ∈ allTypeNames types, self.kindOf name = other.kindOf name) →
    self.resolveTypes types = other.resolveTypes types
  | [],_ => rfl
  | ty :: types,alike => by
    simp only [allTypeNames,List.forall_mem_append] at alike
    simp only [resolveTypes,resolveType_congr ty alike.1,resolveTypes_congr types alike.2]
end

mutual
/-- A written type tells by what it resolves to how its names are seen. -/
theorem resolveType_kinds : ∀ (ty : Ty) {resolved : BcType}, self.resolveType ty = .ok resolved →
    other.resolveType ty = .ok resolved → ∀ name ∈ typeNames ty, self.kindOf name = other.kindOf name
  | .primitive ..,_,_,_ => by simp [typeNames]
  | .named name span,resolved,first,second => by
    simp only [typeNames,List.forall_mem_singleton]
    rw [resolveType_named] at first second
    split at first <;> split at second <;> simp_all
    all_goals
      rw [← first] at second
      simp at second
  | .fixedArray elem _ _,resolved,first,second => by
    simp only [resolveType,bind_accepts,unless_accepts,pure_accepts] at first second
    obtain ⟨e,first,-,rfl⟩ := first
    obtain ⟨e',second,-,same⟩ := second
    cases same
    exact resolveType_kinds elem first second
  | .dynamicArray elem _,resolved,first,second => by
    simp only [resolveType,bind_accepts,unless_accepts,pure_accepts] at first second
    obtain ⟨e,first,-,rfl⟩ := first
    obtain ⟨e',second,-,same⟩ := second
    cases same
    exact resolveType_kinds elem first second
  | .result ok err _,resolved,first,second => by
    simp only [resolveType,bind_accepts,pure_accepts] at first second
    obtain ⟨o,firstOk,e,firstErr,rfl⟩ := first
    obtain ⟨o',secondOk,e',secondErr,same⟩ := second
    cases same
    simp only [typeNames,List.forall_mem_append]
    exact ⟨resolveType_kinds ok firstOk secondOk,resolveType_kinds err firstErr secondErr⟩
  | .fnPtr params ret _ _,resolved,first,second => by
    simp only [resolveType,bind_accepts,pure_accepts] at first second
    obtain ⟨ps,firstParams,r,firstRet,rfl⟩ := first
    obtain ⟨ps',secondParams,r',secondRet,same⟩ := second
    cases same
    simp only [typeNames,List.forall_mem_append]
    exact ⟨resolveTypes_kinds params firstParams secondParams,resolveType_kinds ret firstRet secondRet⟩
theorem resolveTypes_kinds : ∀ (types : List Ty) {resolved : List BcType},
    self.resolveTypes types = .ok resolved → other.resolveTypes types = .ok resolved →
    ∀ name ∈ allTypeNames types, self.kindOf name = other.kindOf name
  | [],_,_,_ => by simp [allTypeNames]
  | ty :: types,resolved,first,second => by
    simp only [resolveTypes,bind_accepts,pure_accepts] at first second
    obtain ⟨t,first,ts,firstRest,rfl⟩ := first
    obtain ⟨t',second,ts',secondRest,same⟩ := second
    cases same
    simp only [allTypeNames,List.forall_mem_append]
    exact ⟨resolveType_kinds ty first second,resolveTypes_kinds types firstRest secondRest⟩
end

/-- The analyzers see the names of the written types alike. -/
def SeeAlike (self other : Analyzer) (types : List Ty) : Prop :=
  ∀ ty ∈ types, ∀ name ∈ typeNames ty, self.kindOf name = other.kindOf name

theorem collectFields_congr : ∀ fields : List Field, SeeAlike self other (fields.map (·.ty)) →
    self.collectFields fields = other.collectFields fields
  | [],_ => rfl
  | f :: fields,alike => by
    obtain ⟨first,rest⟩ := List.forall_mem_cons.mp alike
    simp only [collectFields,resolveType_congr f.ty first,collectFields_congr fields rest]

theorem collectPayload_congr : ∀ types : List Ty, SeeAlike self other types →
    self.collectPayload types = other.collectPayload types
  | [],_ => rfl
  | ty :: types,alike => by
    obtain ⟨first,rest⟩ := List.forall_mem_cons.mp alike
    simp only [collectPayload,resolveType_congr ty first,collectPayload_congr types rest]

theorem collectVariants_congr : ∀ variants : List Variant,
    SeeAlike self other (variants.flatMap (·.payloadTypes)) →
    self.collectVariants variants = other.collectVariants variants
  | [],_ => rfl
  | v :: variants,alike => by
    obtain ⟨first,rest⟩ := List.forall_mem_append.mp alike
    simp only [collectVariants,collectPayload_congr v.payloadTypes first,
      collectVariants_congr variants rest]

theorem collectParams_congr : ∀ params : List Param, SeeAlike self other (params.map (·.ty)) →
    self.collectParams params = other.collectParams params
  | [],_ => rfl
  | p :: params,alike => by
    obtain ⟨first,rest⟩ := List.forall_mem_cons.mp alike
    simp only [collectParams,resolveType_congr p.ty first,collectParams_congr params rest]

theorem resolveReturn_congr (ty : Option Ty) (alike : SeeAlike self other ty.toList) :
    self.resolveReturn ty = other.resolveReturn ty := by
  cases ty with
  | none => rfl
  | some ty => exact resolveType_congr ty (alike ty (by simp))

theorem externContents_congr : ∀ decls : List ExternFnDecl,
    SeeAlike self other (decls.flatMap fun ef => ef.params.map (·.ty) ++ ef.returnType.toList) →
    self.externContents decls = other.externContents decls
  | [],_ => rfl
  | ef :: decls,alike => by
    obtain ⟨own,rest⟩ := List.forall_mem_append.mp alike
    obtain ⟨params,ret⟩ := List.forall_mem_append.mp own
    simp only [externContents,collectParams_congr ef.params params,
      resolveReturn_congr ef.returnType ret,externContents_congr decls rest]

theorem contents_congr (d : TopDecl) (alike : SeeAlike self other d.types) :
    self.contents d = other.contents d := by
  cases d with
  | struct s => simp only [contents,collectFields_congr s.fields alike]
  | enum e => simp only [contents,collectVariants_congr e.variants alike]
  | fn f =>
    obtain ⟨params,ret⟩ := List.forall_mem_append.mp alike
    simp only [contents,collectParams_congr f.params params,resolveReturn_congr f.returnType ret]
  | letDecl l => simp only [contents,resolveType_congr l.ty (alike l.ty (List.mem_singleton_self _))]
  | externBlock eb => exact externContents_congr eb.decls alike
  | useDecl => rfl

theorem collectFields_kinds : ∀ {fields : List Field} {done : List (String × BcType)},
    self.collectFields fields = .ok done → other.collectFields fields = .ok done →
    SeeAlike self other (fields.map (·.ty))
  | [],_,_,_ => by simp [SeeAlike]
  | f :: fields,_,first,second => by
    simp only [collectFields,bind_accepts,unless_accepts,pure_accepts] at first second
    obtain ⟨ty,first,-,tys,firstRest,rfl⟩ := first
    obtain ⟨ty',second,-,tys',secondRest,same⟩ := second
    cases same
    exact List.forall_mem_cons.mpr
      ⟨resolveType_kinds f.ty first second,collectFields_kinds firstRest secondRest⟩

theorem collectPayload_kinds : ∀ {types : List Ty} {done : List BcType},
    self.collectPayload types = .ok done → other.collectPayload types = .ok done →
    SeeAlike self other types
  | [],_,_,_ => by simp [SeeAlike]
  | ty :: types,_,first,second => by
    simp only [collectPayload,bind_accepts,unless_accepts,pure_accepts] at first second
    obtain ⟨t,first,-,ts,firstRest,rfl⟩ := first
    obtain ⟨t',second,-,ts',secondRest,same⟩ := second
    cases same
    exact List.forall_mem_cons.mpr
      ⟨resolveType_kinds ty first second,collectPayload_kinds firstRest secondRest⟩

theorem collectVariants_kinds : ∀ {variants : List Variant} {done : List (String × List BcType)},
    self.collectVariants variants = .ok done → other.collectVariants variants = .ok done →
    SeeAlike self other (variants.flatMap (·.payloadTypes))
  | [],_,_,_ => by simp [SeeAlike]
  | v :: variants,_,first,second => by
    simp only [collectVariants,bind_accepts,pure_accepts] at first second
    obtain ⟨payload,first,rest,firstRest,rfl⟩ := first
    obtain ⟨payload',second,rest',secondRest,same⟩ := second
    cases same
    exact List.forall_mem_append.mpr
      ⟨collectPayload_kinds first second,collectVariants_kinds firstRest secondRest⟩

theorem collectParams_kinds : ∀ {params : List Param} {done : List (String × BcType)},
    self.collectParams params = .ok done → other.collectParams params = .ok done →
    SeeAlike self other (params.map (·.ty))
  | [],_,_,_ => by simp [SeeAlike]
  | p :: params,_,first,second => by
    simp only [collectParams,bind_accepts,pure_accepts] at first second
    obtain ⟨ty,first,tys,firstRest,rfl⟩ := first
    obtain ⟨ty',second,tys',secondRest,same⟩ := second
    cases same
    exact List.forall_mem_cons.mpr
      ⟨resolveType_kinds p.ty first second,collectParams_kinds firstRest secondRest⟩

theorem resolveReturn_kinds {ty : Option Ty} {done : BcType} (first : self.resolveReturn ty = .ok done)
    (second : other.resolveReturn ty = .ok done) : SeeAlike self other ty.toList := by
  cases ty with
  | none => simp [SeeAlike]
  | some ty => exact List.forall_mem_singleton.mpr (resolveType_kinds ty first second)

theorem externContents_kinds : ∀ {decls : List ExternFnDecl} {done : List Entry},
    self.externContents decls = .ok done → other.externContents decls = .ok done →
    SeeAlike self other (decls.flatMap fun ef => ef.params.map (·.ty) ++ ef.returnType.toList)
  | [],_,_,_ => by simp [SeeAlike]
  | ef :: decls,_,first,second => by
    simp only [externContents,bind_accepts,pure_accepts] at first second
    obtain ⟨-,-,params,firstParams,ret,firstRet,rest,firstRest,rfl⟩ := first
    obtain ⟨-,-,params',secondParams,ret',secondRet,rest',secondRest,same⟩ := second
    cases same
    exact List.forall_mem_append.mpr ⟨List.forall_mem_append.mpr
      ⟨collectParams_kinds firstParams secondParams,resolveReturn_kinds firstRet secondRet⟩,
      externContents_kinds firstRest secondRest⟩

/-- The entries of a declaration tell how its type names are seen. -/
theorem contents_kinds {d : TopDecl} {es : List Entry} (first : self.contents d = .ok es)
    (second : other.contents d = .ok es) : SeeAlike self other d.types := by
  cases d with
  | struct s =>
    simp only [contents,bind_accepts,pure_accepts] at first second
    obtain ⟨fields,first,rfl⟩ := first
    obtain ⟨fields',second,same⟩ := second
    cases same
    exact collectFields_kinds first second
  | enum e =>
    simp only [contents,bind_accepts,pure_accepts] at first second
    obtain ⟨variants,first,rfl⟩ := first
    obtain ⟨variants',second,same⟩ := second
    cases same
    exact collectVariants_kinds first second
  | fn f =>
    simp only [contents,bind_accepts,pure_accepts] at first second
    obtain ⟨-,-,params,firstParams,ret,firstRet,rfl⟩ := first
    obtain ⟨-,-,params',secondParams,ret',secondRet,same⟩ := second
    cases same
    exact List.forall_mem_append.mpr
      ⟨collectParams_kinds firstParams secondParams,resolveReturn_kinds firstRet secondRet⟩
  | letDecl l =>
    simp only [contents,bind_accepts,pure_accepts] at first second
    obtain ⟨-,-,ty,first,rfl⟩ := first
    obtain ⟨-,-,ty',second,same⟩ := second
    cases same
    exact List.forall_mem_singleton.mpr (resolveType_kinds l.ty first second)
  | externBlock eb => exact externContents_kinds first second
  | useDecl => simp [SeeAlike,TopDecl.types]

/-- Functions are no types. -/
theorem insert_function_sees (name : String) (info : FunctionInfo) (types : List Ty) :
    SeeAlike (self.insert (.function name info)) self types := fun _ _ _ _ => rfl

theorem collectExterns_contents : ∀ {decls : List ExternFnDecl} {self next : Analyzer},
    self.collectExterns decls = .ok next ↔
      ∃ es, self.externContents decls = .ok es ∧ self.insertAll es = some next
  | [],self,next => by simp [collectExterns,externContents,insertAll]
  | ef :: decls,self,next => by
    simp only [collectExterns,externContents,bind_accepts,unless_accepts,pure_accepts]
    constructor
    · rintro ⟨reserved,free,params,collected,ret,resolved,fresh,rest⟩
      obtain ⟨es,listed,inserted⟩ := collectExterns_contents.mp rest
      refine ⟨_,⟨reserved,free,params,collected,ret,resolved,es,?_,rfl⟩,?_⟩
      · rw [← listed]
        exact (externContents_congr decls (insert_function_sees ef.name _ _)).symm
      · exact insertAll_cons.mpr ⟨fresh,inserted⟩
    · rintro ⟨_,⟨reserved,free,params,collected,ret,resolved,es,listed,rfl⟩,inserted⟩
      obtain ⟨fresh,inserted⟩ := insertAll_cons.mp inserted
      refine ⟨reserved,free,params,collected,ret,resolved,fresh,
        collectExterns_contents.mpr ⟨es,?_,inserted⟩⟩
      rw [← listed]
      exact externContents_congr decls (insert_function_sees ef.name _ _)

/-- A declaration is collected when its entries can be told and none is taken. -/
theorem collectDecl_contents {d : TopDecl} {next : Analyzer} : self.collectDecl d = .ok next ↔
    ∃ es, self.contents d = .ok es ∧ self.insertAll es = some next := by
  cases d with
  | externBlock eb => exact collectExterns_contents
  | useDecl => simp [collectDecl,contents,insertAll]
  | struct s =>
    simp only [collectDecl,contents,bind_accepts,unless_accepts,pure_accepts]
    constructor
    · rintro ⟨fields,collected,fresh,rfl⟩
      exact ⟨_,⟨fields,collected,rfl⟩,insertAll_single.mpr ⟨fresh,rfl⟩⟩
    · rintro ⟨_,⟨fields,collected,rfl⟩,inserted⟩
      exact ⟨fields,collected,insertAll_single.mp inserted⟩
  | enum e =>
    simp only [collectDecl,contents,bind_accepts,unless_accepts,pure_accepts]
    constructor
    · rintro ⟨variants,collected,fresh,rfl⟩
      exact ⟨_,⟨variants,collected,rfl⟩,insertAll_single.mpr ⟨fresh,rfl⟩⟩
    · rintro ⟨_,⟨variants,collected,rfl⟩,inserted⟩
      exact ⟨variants,collected,insertAll_single.mp inserted⟩
  | fn f =>
    simp only [collectDecl,contents,bind_accepts,unless_accepts,pure_accepts]
    constructor
    · rintro ⟨reserved,free,params,collected,ret,resolved,fresh,rfl⟩
      exact ⟨_,⟨reserved,free,params,collected,ret,resolved,rfl⟩,insertAll_single.mpr ⟨fresh,rfl⟩⟩
    · rintro ⟨_,⟨reserved,free,params,collected,ret,resolved,rfl⟩,inserted⟩
      exact ⟨reserved,free,params,collected,ret,resolved,insertAll_single.mp inserted⟩
  | letDecl l =>
    simp only [collectDecl,contents,bind_accepts,unless_accepts,pure_accepts]
    constructor
    · rintro ⟨reserved,free,ty,resolved,fresh,rfl⟩
      exact ⟨_,⟨reserved,free,ty,resolved,rfl⟩,insertAll_single.mpr ⟨fresh,rfl⟩⟩
    · rintro ⟨_,⟨reserved,free,ty,resolved,rfl⟩,inserted⟩
      exact ⟨reserved,free,ty,resolved,insertAll_single.mp inserted⟩

end Analyzer
end Oscan.Semantic
