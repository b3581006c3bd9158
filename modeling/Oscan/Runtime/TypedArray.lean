import Oscan.Library.Binary64
import Oscan.Library.CInt
import Oscan.Library.Comparing
import Oscan.Runtime.Map

/-! Searching, counting, comparing and sorting the arrays of the five types of elements that have an order. -/
namespace Oscan.Runtime.TypedArray
open Library Library.Comparing

/-! How elements compare -/

def cmpBool (a b : UInt8) : Int := if a < b then -1 else if a > b then 1 else 0

def cmpI32 (a b : CInt 32) : Int := if a.value < b.value then -1 else if a.value > b.value then 1 else 0

def cmpI64 (a b : CInt 64) : Int := if a.value < b.value then -1 else if a.value > b.value then 1 else 0

def cmpF64 (a b : Binary64) : Int :=
  let aNan := !a.eq a
  let bNan := !b.eq b
  if aNan && bNan then 0
  else if aNan then 1
  else if bNan then -1
  else if a.lt b then -1 else if b.lt a then 1 else 0

/-- The loop over the bytes of two strings: the first difference decides, and else the lengths. -/
def cmpStr (a b : Str) : Int :=
  match a,b with
  | x :: xs,y :: ys => if x < y then -1 else if x > y then 1 else cmpStr xs ys
  | xs,ys => if xs.length < ys.length then -1 else if xs.length > ys.length then 1 else 0

section Operations
variable {α : Type} (cmp : α → α → Int)

def equals (arr : List α) (value : α) (i : Nat) : Bool := arr[i]?.any fun x => cmp x value == 0

def arrayIndexOf (arr : List α) (value : α) : Int :=
  match (List.range arr.length).find? (equals cmp arr value) with
  | some i => i
  | none => -1

def arrayContains (arr : List α) (value : α) : Bool := decide (0 ≤ arrayIndexOf cmp arr value)

def arrayLastIndexOf (arr : List α) (value : α) : Int :=
  match (List.range arr.length).reverse.find? (equals cmp arr value) with
  | some i => i
  | none => -1

def arrayCount (arr : List α) (value : α) : Int :=
  (List.range arr.length).foldl (fun count i => if equals cmp arr value i then count + 1 else count) 0

def arrayCompare (left right : List α) : Int :=
  match left,right with
  | a :: as,b :: bs => if cmp a b ≠ 0 then cmp a b else arrayCompare as bs
  | as,bs => if as.length < bs.length then -1 else if as.length > bs.length then 1 else 0

/-- The inner loop of the sort, and the element that is put where it stops -/
def place (gap : Nat) (positive : 0 < gap) (value : α) (data : List α) (j : Nat) : List α :=
  if gap ≤ j then
    match data[j - gap]? with
    | some x => if cmp x value > 0 then place gap positive value (data.set j x) (j - gap) else data.set j value
    | none => data
  else data.set j value
termination_by j

/-- The loop over the elements from the gap on -/
def pass (gap : Nat) (positive : 0 < gap) (data : List α) : List α :=
  (List.range' gap (data.length - gap)).foldl
    (fun data i => data[i]?.elim data fun value => place cmp gap positive value data i) data

/-- The loop over the gaps -/
def sortFrom (gap : Nat) (data : List α) : List α :=
  if positive : 0 < gap then sortFrom (gap / 2) (pass cmp gap positive data) else data
termination_by gap

def arraySort (arr : List α) : List α := sortFrom cmp (arr.length / 2) arr

end Operations

/-! The laws of the comparisons -/

theorem cmpBool_eq (a b : UInt8) : cmpBool a b = ofOrder a.toNat b.toNat :=
  if_congr UInt8.lt_iff_toNat_lt rfl (if_congr UInt8.lt_iff_toNat_lt rfl rfl)

theorem cmpI32_eq (a b : CInt 32) : cmpI32 a b = ofOrder a.value b.value := rfl

theorem cmpI64_eq (a b : CInt 64) : cmpI64 a b = ofOrder a.value b.value := rfl

/-- Numbers by their rank, and NaNs behind all of them -/
def floatKey (x : Binary64) : WithTop Int := if x.isNaN then ⊤ else x.rank

theorem nan_iff (x : Binary64) : (!x.eq x) = x.isNaN := by
  cases nan : x.isNaN <;> simp [Binary64.eq,nan]

theorem cmpF64_eq (a b : Binary64) : cmpF64 a b = ofOrder (floatKey a) (floatKey b) := by
  unfold cmpF64 ofOrder floatKey
  simp only [nan_iff]
  cases left : a.isNaN <;> cases right : b.isNaN <;> simp [Binary64.lt,left,right]

/-- Strings compare as the lists of their bytes do lexicographically, where a proper prefix is first. -/
theorem cmpStr_eq (a b : Str) : cmpStr a b = ofOrder (a.map UInt8.toNat) (b.map UInt8.toNat) := by
  rw [← lists_ofOrder]
  fun_induction cmpStr a b with
  | case1 x xs y ys less =>
    have less := UInt8.lt_iff_toNat_lt.mp less
    simp [lists,ofOrder,less]
  | case2 x xs y ys notLess more =>
    have more := UInt8.lt_iff_toNat_lt.mp more
    simp [lists,ofOrder,more,more.not_gt]
  | case3 x xs y ys notLess notMore ih =>
    have same : x.toNat = y.toNat := le_antisymm
      (not_lt.mp fun more => notMore (UInt8.lt_iff_toNat_lt.mpr more))
      (not_lt.mp fun less => notLess (UInt8.lt_iff_toNat_lt.mpr less))
    rw [ih,List.map_cons,List.map_cons,lists,if_neg (not_not.mpr ((ofOrder_eq_iff _ _).mpr same))]
  | case4 xs ys ends less | case5 xs ys ends notLess more | case6 xs ys ends notLess notMore =>
    rcases xs with _ | ⟨x,xs⟩
    · simp_all [lists,ofOrder]
    · rcases ys with _ | ⟨y,ys⟩
      · simp_all [lists,ofOrder]
      · exact absurd rfl (ends x xs y ys rfl)

theorem arrayCompare_eq {α : Type} (cmp : α → α → Int) : ∀ left right : List α, arrayCompare cmp left right = lists cmp left right
  | [],[] => rfl
  | [],_ :: _ => rfl
  | _ :: _,[] => rfl
  | a :: as,b :: bs => by rw [arrayCompare,lists,arrayCompare_eq cmp as bs]

end Oscan.Runtime.TypedArray
