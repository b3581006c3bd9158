import Oscan.Ir

/-! The C names of types. A tag flattens a type into words joined by underscores; identifiers
are ASCII, so lower-casing is that of ASCII. -/
namespace Oscan.Codegen

mutual
def typeTag : BcType → String
  | .i32 => "i32"
  | .i64 => "i64"
  | .f64 => "f64"
  | .bool => "bool"
  | .str => "str"
  | .unit => "unit"
  | .handle => "handle"
  | .map => "map"
  | .mapStrI32 => "map_str_i32"
  | .mapStrI64 => "map_str_i64"
  | .mapStrF64 => "map_str_f64"
  | .mapI32Str => "map_i32_str"
  | .mapI32I32 => "map_i32_i32"
  | .struct name => name.toLower
  | .enum name => name.toLower
  | .array e => "arr_" ++ typeTag e
  | .fixedArray e n => "arr_" ++ typeTag e ++ "_" ++ toString n
  | .result o e => "result_" ++ typeTag o ++ "_" ++ typeTag e
  | .fnPtr params ret _ => "fnptr_" ++ "_".intercalate (typeTags params) ++ "_" ++ typeTag ret
def typeTags : List BcType → List String
  | [] => []
  | t :: ts => typeTag t :: typeTags ts
end

def resultTypeName (ok err : BcType) : String := "osc_result_" ++ typeTag ok ++ "_" ++ typeTag err

def fnPtrTypedefName (ty : BcType) : String := "osc_" ++ typeTag ty

def typeToC : BcType → String
  | .i32 => "int32_t"
  | .i64 => "int64_t"
  | .f64 => "double"
  | .bool => "uint8_t"
  | .str => "osc_str"
  | .unit => "void"
  | .handle => "uintptr_t"
  | .map | .mapStrI32 | .mapStrI64 | .mapStrF64 | .mapI32Str | .mapI32I32 => "osc_map*"
  | .struct name => name
  | .enum name => name
  | .array _ | .fixedArray .. => "osc_array*"
  | .result ok err => resultTypeName ok err
  | .fnPtr params ret isPure => fnPtrTypedefName (.fnPtr params ret isPure)

def cSizeof : BcType → String
  | .i32 => "sizeof(int32_t)"
  | .i64 => "sizeof(int64_t)"
  | .f64 => "sizeof(double)"
  | .bool => "sizeof(uint8_t)"
  | .str => "sizeof(osc_str)"
  | .map | .mapStrI32 | .mapStrI64 | .mapStrF64 | .mapI32Str | .mapI32I32 => "sizeof(osc_map*)"
  | .struct name => "sizeof(" ++ name ++ ")"
  | .enum name => "sizeof(" ++ name ++ ")"
  | .array _ | .fixedArray .. => "sizeof(osc_array*)"
  | .result ok err => "sizeof(" ++ resultTypeName ok err ++ ")"
  | .fnPtr .. => "sizeof(void*)"
  | .unit => "1"
  | .handle => "sizeof(uintptr_t)"

def cReserved : List String :=
  ["auto","break","case","char","const","continue","default","do","double","else","enum","extern",
   "float","for","goto","if","int","long","register","return","short","signed","sizeof","static",
   "struct","switch","typedef","union","unsigned","void","volatile","while","inline","restrict"]

/-- Renames what clashes with a C keyword. -/
def mangleCName (name : String) : String :=
  if cReserved.contains name then name ++ "_" else name

/-- The words of a user-defined name. -/
def nameWords (name : String) : List String := (name.toLower.toList.splitOn '_').map String.ofList

mutual
/-- A type read in prefix order, one word for each constructor and literal; a function pointer
without parameters has an empty word in their place, its purity has none. -/
def words : BcType → List String
  | .i32 => ["i32"]
  | .i64 => ["i64"]
  | .f64 => ["f64"]
  | .bool => ["bool"]
  | .str => ["str"]
  | .unit => ["unit"]
  | .handle => ["handle"]
  | .map => ["map"]
  | .mapStrI32 => ["map","str","i32"]
  | .mapStrI64 => ["map","str","i64"]
  | .mapStrF64 => ["map","str","f64"]
  | .mapI32Str => ["map","i32","str"]
  | .mapI32I32 => ["map","i32","i32"]
  | .struct name => nameWords name
  | .enum name => nameWords name
  | .array e => "arr" :: words e
  | .fixedArray e n => "arr" :: (words e ++ [toString n])
  | .result o e => "result" :: (words o ++ words e)
  | .fnPtr params ret _ =>
    "fnptr" :: ((if params.isEmpty then [""] else wordsOf params) ++ words ret)
def wordsOf : List BcType → List String
  | [] => []
  | t :: ts => words t ++ wordsOf ts
end

theorem words_ne_nil (ty : BcType) : words ty ≠ [] := by
  cases ty <;> simp [words,nameWords,List.splitOn_ne_nil]

theorem wordsOf_ne_nil {types : List BcType} (some : types ≠ []) : wordsOf types ≠ [] := by
  cases types with
  | nil => exact absurd rfl some
  | cons t ts => simp [wordsOf,words_ne_nil]

private theorem joined (first : String) {rest : List String} (some : rest ≠ []) :
    "_".intercalate (first :: rest) = first ++ "_" ++ "_".intercalate rest :=
  String.intercalate_cons_of_ne_nil some

theorem nameWords_joined (name : String) : "_".intercalate (nameWords name) = name.toLower := by
  apply String.toList_injective
  rw [String.toList_intercalate]
  simp [nameWords,List.map_map,Function.comp_def,List.intercalate_splitOn]

mutual
theorem typeTag_words : ∀ ty : BcType, typeTag ty = "_".intercalate (words ty)
  | .i32 | .i64 | .f64 | .bool | .str | .unit | .handle | .map | .mapStrI32 | .mapStrI64
  | .mapStrF64 | .mapI32Str | .mapI32I32 => by decide
  | .struct name | .enum name => by simp only [typeTag,words,nameWords_joined]
  | .array e => by
    rw [typeTag,words,joined _ (words_ne_nil e),typeTag_words e]
    rfl
  | .fixedArray e n => by
    rw [typeTag,words,joined _ (by simp),
      String.intercalate_append_of_ne_nil (words_ne_nil e) (by simp),typeTag_words e]
    simp [String.append_assoc]
  | .result o e => by
    rw [typeTag,words,joined _ (by simp [words_ne_nil]),
      String.intercalate_append_of_ne_nil (words_ne_nil o) (words_ne_nil e),typeTag_words o,
      typeTag_words e]
    simp [String.append_assoc]
  | .fnPtr params ret _ => by
    rw [typeTag,words,joined _ (by simp [words_ne_nil]),typeTag_words ret]
    cases params with
    | nil =>
      rw [List.isEmpty_nil,if_pos rfl,String.intercalate_append_of_ne_nil (by simp) (words_ne_nil ret),
        String.intercalate_singleton,typeTags,String.intercalate_nil]
      simp only [String.append_assoc]
      rfl
    | cons t ts =>
      have some : wordsOf (t :: ts) ≠ [] := wordsOf_ne_nil (by simp)
      rw [List.isEmpty_cons,if_neg (by simp),String.intercalate_append_of_ne_nil some (words_ne_nil ret),
        typeTags_words (t :: ts)]
      simp [String.append_assoc]
theorem typeTags_words : ∀ types : List BcType,
    "_".intercalate (typeTags types) = "_".intercalate (wordsOf types)
  | [] => rfl
  | [t] => by simp [typeTags,wordsOf,typeTag_words t]
  | t :: t' :: ts => by
    have some : typeTags (t' :: ts) ≠ [] := by simp [typeTags]
    have rest : wordsOf (t' :: ts) ≠ [] := wordsOf_ne_nil (by simp)
    rw [typeTags,joined _ some,typeTags_words (t' :: ts),typeTag_words t,
      ← String.intercalate_append_of_ne_nil (words_ne_nil t) rest]
    rfl
end

/-! ### Words are free of underscores -/

theorem splitOn_free (cs : List Char) : ∀ piece ∈ cs.splitOn '_', '_' ∉ piece := by
  induction cs with
  | nil => simp [List.splitOn_nil]
  | cons c cs ih =>
    intro piece member
    rw [List.splitOn_cons_eq_if_modifyHead] at member
    split at member
    next =>
      rcases List.mem_cons.mp member with rfl | later
      · simp
      · exact ih piece later
    next other =>
      cases pieces : cs.splitOn '_' with
      | nil => exact absurd pieces (List.splitOn_ne_nil '_' cs)
      | cons first rest =>
        rw [pieces] at member ih
        simp only [List.modifyHead,List.mem_cons] at member
        rcases member with rfl | later
        · simp only [List.mem_cons,not_or]
          exact ⟨fun same => other (by simp [← same]),ih first (List.mem_cons_self ..)⟩
        · exact ih piece (List.mem_cons_of_mem _ later)

theorem numeral_free (n : Int) : '_' ∉ n.repr.toList := by
  rw [Int.repr_eq_if]
  split <;> simp [Nat.underscore_not_in_toDigits,Nat.repr]

def Free (parts : List String) : Prop := ∀ part ∈ parts, '_' ∉ part.toList

@[simp] theorem free_nil : Free [] := nofun

@[simp] theorem free_cons {part : String} {parts : List String} :
    Free (part :: parts) ↔ '_' ∉ part.toList ∧ Free parts := List.forall_mem_cons

@[simp] theorem free_append {parts parts' : List String} :
    Free (parts ++ parts') ↔ Free parts ∧ Free parts' := List.forall_mem_append

theorem nameWords_free (name : String) : Free (nameWords name) := by
  intro part member
  obtain ⟨piece,inside,rfl⟩ := List.mem_map.mp member
  rw [String.toList_ofList]
  exact splitOn_free _ piece inside

mutual
theorem words_free : ∀ ty : BcType, Free (words ty)
  | .i32 | .i64 | .f64 | .bool | .str | .unit | .handle | .map | .mapStrI32 | .mapStrI64
  | .mapStrF64 | .mapI32Str | .mapI32I32 => by simp [words]
  | .struct name | .enum name => nameWords_free name
  | .array e => by simp [words,words_free e]
  | .fixedArray e n => by simp [words,words_free e,numeral_free n]
  | .result o e => by simp [words,words_free o,words_free e]
  | .fnPtr params ret _ => by
    cases params with
    | nil => simp [words,words_free ret]
    | cons t ts =>
      have parts : Free (wordsOf (t :: ts)) := wordsOf_free (t :: ts)
      simp [words,words_free ret,parts]
theorem wordsOf_free : ∀ types : List BcType, Free (wordsOf types)
  | [] => by simp [wordsOf]
  | t :: ts => by simp [wordsOf,words_free t,wordsOf_free ts]
end

/-- Joining words loses nothing. -/
theorem joined_injective {parts parts' : List String} (free : Free parts) (free' : Free parts')
    (some : parts ≠ []) (some' : parts' ≠ [])
    (same : "_".intercalate parts = "_".intercalate parts') : parts = parts' := by
  have split (ws : List String) (free : Free ws) (some : ws ≠ []) :
      ("_".intercalate ws).toList.splitOn '_' = ws.map String.toList := by
    rw [String.toList_intercalate]
    apply List.splitOn_intercalate
    · simpa [Free] using free
    · simpa using some
  have lists := congrArg (fun s : String => s.toList.splitOn '_') same
  simp only [split parts free some,split parts' free' some'] at lists
  exact List.map_injective_iff.mpr (fun _ _ => String.toList_injective) lists

theorem typeTag_eq_iff (s t : BcType) : typeTag s = typeTag t ↔ words s = words t := by
  rw [typeTag_words,typeTag_words]
  exact ⟨joined_injective (words_free s) (words_free t) (words_ne_nil s) (words_ne_nil t),
    congrArg _⟩

theorem fnPtrTypedefName_eq_iff (s t : BcType) :
    fnPtrTypedefName s = fnPtrTypedefName t ↔ words s = words t := by
  rw [← typeTag_eq_iff,fnPtrTypedefName,fnPtrTypedefName]
  exact String.append_right_inj ..

theorem resultTypeName_eq_iff (ok err ok' err' : BcType) :
    resultTypeName ok err = resultTypeName ok' err' ↔
      words (.result ok err) = words (.result ok' err') := by
  have named (o e : BcType) : resultTypeName o e = "osc_" ++ typeTag (.result o e) := by
    simp only [resultTypeName,typeTag,← String.append_assoc]
    rfl
  rw [named,named,← typeTag_eq_iff]
  exact String.append_right_inj ..

end Oscan.Codegen
