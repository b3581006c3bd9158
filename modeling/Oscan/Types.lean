import Mathlib.Data.List.Basic

/-! Resolved Oscan types and the symbol tables that the checker hands to lowering.
A hash map is an association list here: keys are inserted once, and no result
below depends on an iteration order. -/
namespace Oscan

/-- A fully resolved type, as carried by every node of the typed IR. -/
inductive BcType where
  | i32 | i64 | f64 | bool | str | unit | handle
  | map | mapStrI32 | mapStrI64 | mapStrF64 | mapI32Str | mapI32I32
  | struct (name : String)
  | enum (name : String)
  | array (elem : BcType)
  | fixedArray (elem : BcType) (size : Int)
  | result (ok err : BcType)
  | fnPtr (params : List BcType) (ret : BcType) (isPure : Bool)
deriving Inhabited

namespace BcType

mutual
def beq : BcType → BcType → Bool
  | .i32,.i32 | .i64,.i64 | .f64,.f64 | .bool,.bool | .str,.str | .unit,.unit
  | .handle,.handle | .map,.map | .mapStrI32,.mapStrI32 | .mapStrI64,.mapStrI64
  | .mapStrF64,.mapStrF64 | .mapI32Str,.mapI32Str | .mapI32I32,.mapI32I32 => true
  | .struct a,.struct b => a == b
  | .enum a,.enum b => a == b
  | .array a,.array b => beq a b
  | .fixedArray a m,.fixedArray b n => beq a b && m == n
  | .result a b,.result c d => beq a c && beq b d
  | .fnPtr ps r p,.fnPtr qs s q => beqList ps qs && beq r s && p == q
  | _,_ => false
def beqList : List BcType → List BcType → Bool
  | [],[] => true
  | a :: as,b :: bs => beq a b && beqList as bs
  | _,_ => false
end

mutual
private theorem eq_of_beq : ∀ a b : BcType, beq a b = true → a = b
  | .i32,b | .i64,b | .f64,b | .bool,b | .str,b | .unit,b | .handle,b | .map,b
  | .mapStrI32,b | .mapStrI64,b | .mapStrF64,b | .mapI32Str,b | .mapI32I32,b => by
    cases b <;> simp [beq]
  | .struct _,b | .enum _,b => by cases b <;> simp [beq]
  | .array a,b => by
    cases b <;> simp only [beq,Bool.false_eq_true,false_implies,array.injEq]
    exact eq_of_beq a _
  | .fixedArray a m,b => by
    cases b <;> simp only [beq,Bool.false_eq_true,false_implies,fixedArray.injEq,
      Bool.and_eq_true,beq_iff_eq]
    exact fun same => ⟨eq_of_beq a _ same.1,same.2⟩
  | .result a c,b => by
    cases b <;> simp only [beq,Bool.false_eq_true,false_implies,result.injEq,Bool.and_eq_true]
    exact fun same => ⟨eq_of_beq a _ same.1,eq_of_beq c _ same.2⟩
  | .fnPtr ps r p,b => by
    cases b <;> simp only [beq,Bool.false_eq_true,false_implies,fnPtr.injEq,
      Bool.and_eq_true,beq_iff_eq]
    exact fun same => ⟨eq_of_beqList ps _ same.1.1,eq_of_beq r _ same.1.2,same.2⟩
private theorem eq_of_beqList : ∀ as bs : List BcType, beqList as bs = true → as = bs
  | [],bs => by cases bs <;> simp [beqList]
  | a :: as,bs => by
    cases bs <;> simp only [beqList,Bool.false_eq_true,false_implies,List.cons.injEq,
      Bool.and_eq_true]
    exact fun same => ⟨eq_of_beq a _ same.1,eq_of_beqList as _ same.2⟩
end

mutual
private theorem beq_refl : ∀ a : BcType, beq a a = true
  | .i32 | .i64 | .f64 | .bool | .str | .unit | .handle | .map | .mapStrI32
  | .mapStrI64 | .mapStrF64 | .mapI32Str | .mapI32I32 => rfl
  | .struct _ | .enum _ => by simp [beq]
  | .array a => by simp [beq,beq_refl a]
  | .fixedArray a _ => by simp [beq,beq_refl a]
  | .result a b => by simp [beq,beq_refl a,beq_refl b]
  | .fnPtr ps r _ => by simp [beq,beqList_refl ps,beq_refl r]
private theorem beqList_refl : ∀ as : List BcType, beqList as as = true
  | [] => rfl
  | a :: as => by simp [beqList,beq_refl a,beqList_refl as]
end

instance : DecidableEq BcType := fun a b =>
  decidable_of_iff (beq a b = true) ⟨eq_of_beq a b,fun same => same ▸ beq_refl a⟩

/-- A pure function pointer may stand where an impure one is expected. -/
def isCompatibleWith (self expected : BcType) : Bool :=
  self == expected ||
    match self,expected with
    | .fnPtr actualParams actualRet true,.fnPtr expectedParams expectedRet false =>
      actualParams == expectedParams && actualRet == expectedRet
    | _,_ => false

def compatibleJoin (self other : BcType) (expected : Option BcType) : Option BcType :=
  if self == other then some self
  else match expected.filter (fun e => self.isCompatibleWith e && other.isCompatibleWith e) with
    | some e => some e
    | none =>
      if self.isCompatibleWith other then some other
      else if other.isCompatibleWith self then some self
      else none

theorem compatible_cases {a b : BcType} (compatible : a.isCompatibleWith b = true) :
    a = b ∨ ∃ params ret, a = .fnPtr params ret true ∧ b = .fnPtr params ret false := by
  unfold isCompatibleWith at compatible
  by_cases same : a = b
  · exact .inl same
  · simp only [beq_iff_eq,same,Bool.or_eq_true,false_or] at compatible
    split at compatible
    next params ret params' ret' =>
      simp only [Bool.and_eq_true,beq_iff_eq] at compatible
      exact .inr ⟨params,ret,rfl,by rw [compatible.1,compatible.2]⟩
    next => simp at compatible

/-- The expected type admits no join that the branch types do not have by themselves. -/
theorem compatibleJoin_expected (a b : BcType) (expected : Option BcType) :
    a.compatibleJoin b expected = a.compatibleJoin b none := by
  unfold compatibleJoin
  by_cases same : a = b
  · simp [same]
  · simp only [beq_iff_eq,same,if_false]
    cases expected with
    | none => rfl
    | some e =>
      simp only [Option.filter]
      by_cases both : (a.isCompatibleWith e && b.isCompatibleWith e) = true
      · simp only [both,if_true]
        simp only [Bool.and_eq_true] at both
        rcases compatible_cases both.1 with rfl | ⟨params,ret,rfl,rfl⟩
        · rcases compatible_cases both.2 with rfl | ⟨params,ret,rfl,rfl⟩
          · exact absurd rfl same
          · simp [isCompatibleWith]
        · rcases compatible_cases both.2 with rfl | ⟨params',ret',rfl,same'⟩
          · simp [isCompatibleWith]
          · simp_all
      · simp [both]

def isArenaSafe : BcType → Bool
  | .i32 | .i64 | .f64 | .bool | .unit | .handle | .fnPtr .. => true
  | _ => false

mutual
/-- The text of a type in error messages. -/
def display : BcType → String
  | .i32 => "i32"
  | .i64 => "i64"
  | .f64 => "f64"
  | .bool => "bool"
  | .str => "str"
  | .unit => "unit"
  | .handle => "handle"
  | .map => "map"
  | .mapStrI32 => "map_str_i32"
  | .mapStrI64 => "map_str_i64"
  | .mapStrF64 => "map_str_f64"
  | .mapI32Str => "map_i32_str"
  | .mapI32I32 => "map_i32_i32"
  | .struct name => name
  | .enum name => name
  | .array elem => "[" ++ elem.display ++ "]"
  | .fixedArray elem size => "[" ++ elem.display ++ "; " ++ toString size ++ "]"
  | .result ok err => "Result<" ++ ok.display ++ ", " ++ err.display ++ ">"
  | .fnPtr params ret isPure =>
    (if isPure then "fn" else "fn!") ++ "(" ++ displayParams params ++ ") -> " ++ ret.display
def displayParams : List BcType → String
  | [] => ""
  | [p] => p.display
  | p :: ps => p.display ++ ", " ++ displayParams ps
end

instance : ToString BcType := ⟨display⟩

end BcType

structure StructInfo where
  fields : List (String × BcType)

structure EnumInfo where
  variants : List (String × List BcType)

structure FunctionInfo where
  params : List (String × BcType)
  returnType : BcType
  isPure : Bool
  isExtern : Bool

structure ConstInfo where
  ty : BcType

/-- The types of all expression occurrences of a program in post-order, one list for
each constant and one for each function. -/
structure TypeLog where
  consts : List (List BcType)
  fns : List (List BcType)

/-- What semantic analysis hands to lowering. -/
structure SemanticInfo where
  structs : List (String × StructInfo)
  enums : List (String × EnumInfo)
  functions : List (String × FunctionInfo)
  constants : List (String × ConstInfo)

end Oscan
