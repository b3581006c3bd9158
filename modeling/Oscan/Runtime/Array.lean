import Mathlib.Algebra.Ring.Nat
import Oscan.Library.Acting

/-! The dynamic arrays of the runtime: a record beside a block of memory that is replaced by a larger one when it is
full. The arena never frees a block before its reset, so what has been read from an old block stays readable. -/
namespace Oscan.Runtime.Arrays
open Library.Acting

def int32Max : Nat := 2^31 - 1

structure Block where
  size : Nat
  byte : Nat → UInt8

structure Pointer where
  block : Nat
  offset : Nat

/-- What a `const void *` can point to: memory of the caller, or a place in a block. -/
inductive Source where
  | outside (bytes : List UInt8)
  | inside (pointer : Pointer)

structure Array where
  elemSize : Nat
  len : Nat
  capacity : Nat
  data : Nat
  owner : Nat

structure Heap where
  blocks : List Block
  arrays : List Array

/-- When an arena panics instead of giving memory, and what is in new memory -/
structure Memory where
  refuses : Heap → Nat → Nat → Bool
  contents : Heap → Nat → Nat → UInt8

/-- Which array is meant; the null pointer is none. -/
abbrev Ref := Option Nat

def Block.write (b : Block) (offset n : Nat) (bytes : Nat → UInt8) : Block :=
  { b with byte := fun x => if offset ≤ x ∧ x < offset + n then bytes (x - offset) else b.byte x }

/-- The bytes that are read, when there are enough of them. -/
def Source.read (h : Heap) (n : Nat) : Source → Option (Nat → UInt8)
  | .outside bytes => if n ≤ bytes.length then some fun k => bytes.getD k 0 else none
  | .inside p =>
    match h.blocks[p.block]? with
    | some b => if p.offset + n ≤ b.size then some fun k => b.byte (p.offset + k) else none
    | none => none

/-- Two different places that have bytes in common -/
def Source.overlaps (n : Nat) (dst : Pointer) : Source → Prop
  | .outside _ => False
  | .inside p => p.block = dst.block ∧ p.offset ≠ dst.offset ∧ p.offset < dst.offset + n ∧ dst.offset < p.offset + n

instance (n : Nat) (dst : Pointer) (src : Source) : Decidable (src.overlaps n dst) := by
  cases src <;> unfold Source.overlaps <;> infer_instance

/-- Copying memory onto itself leaves it as it is. -/
def memcpy (dst : Pointer) (src : Source) (n : Nat) : Act Heap Unit := fun h =>
  match src.read h n,h.blocks[dst.block]? with
  | some bytes,some b =>
    if dst.offset + n ≤ b.size ∧ ¬src.overlaps n dst then
      .done () { h with blocks := h.blocks.set dst.block (b.write dst.offset n bytes) }
    else .undefined
  | _,_ => .undefined

/-- `if (count > 0) memcpy(…)` -/
def copyElements (dst src : Pointer) (count elemSize : Nat) : Act Heap Unit :=
  if count > 0 then memcpy dst (.inside src) (count * elemSize) else pure ()

variable (m : Memory)

/-- `osc_arena_alloc` -/
def arenaAlloc (owner size : Nat) : Act Heap Nat := fun h =>
  if m.refuses h owner size then .exhausted h
  else .done h.blocks.length { h with blocks := h.blocks ++ [⟨size,m.contents h owner⟩] }

def sizeOfArray : Nat := 32

/-- Reads an array's fields, at any number of places in a function -/
def fields (n : Nat) : Act Heap Array := fun h =>
  match h.arrays[n]? with
  | some a => .done a h
  | none => .undefined

/-- `if (!arr) OSC_PANIC("array is NULL")` -/
def nonNull {σ : Type} (r : Ref) : Act σ Nat :=
  match r with
  | some n => pure n
  | none => panicWith "array is NULL"

def nonNullValue {σ α : Type} (value : Option α) : Act σ α :=
  match value with
  | some v => pure v
  | none => panicWith "array value is NULL"

def setFields (n : Nat) (a : Array) : Act Heap Unit := fun h => .done () { h with arrays := h.arrays.set n a }

def newArray (a : Array) : Act Heap Nat := fun h => .done h.arrays.length { h with arrays := h.arrays ++ [a] }

def new (arena : Nat) (elemSize initialCapacity : Int) : Act Heap Nat := do
  refuse (elemSize ≤ 0) "array elem_size must be > 0"
  refuse (initialCapacity < 0) "array initial_capacity must be >= 0"
  let _ ← arenaAlloc m arena sizeOfArray
  let capacity := if initialCapacity > 0 then initialCapacity.toNat else 4
  refuse (capacity > (2^64 - 1) / elemSize.toNat) "array capacity overflow"
  let data ← arenaAlloc m arena (capacity * elemSize.toNat)
  newArray ⟨elemSize.toNat,0,capacity,data,arena⟩

/-- The doubling loop of `osc_array_reserve`; it has not ended when the rounds run out. -/
def doubled (required : Nat) : Nat → Nat → Option Nat
  | 0,_ => none
  | rounds + 1,capacity =>
    if capacity < required then
      if capacity > int32Max / 2 then some required else doubled required rounds (capacity * 2)
    else some capacity

def reserve (n required : Nat) : Act Heap Unit := do
  let a ← fields n
  refuse (required > int32Max) "array capacity overflow"
  if required ≤ a.capacity then pure ()
  else
    match doubled required 32 a.capacity with
    | none => undefined
    | some capacity => do
      refuse (capacity < required ∨ capacity > (2^64 - 1) / a.elemSize) "array capacity overflow"
      let data ← arenaAlloc m a.owner (capacity * a.elemSize)
      copyElements ⟨data,0⟩ ⟨a.data,0⟩ a.len a.elemSize
      setFields n { a with data := data, capacity := capacity }

def Array.at (a : Array) (i : Nat) : Pointer := ⟨a.data,i * a.elemSize⟩

def get (r : Ref) (index : Int) : Act Heap Pointer := do
  let n ← nonNull r
  let a ← fields n
  refuse (index < 0 ∨ index ≥ a.len) "array index out of bounds"
  pure (a.at index.toNat)

/-- There is no check that the value is not the null pointer. -/
def set (r : Ref) (index : Int) (value : Option Source) : Act Heap Unit := do
  let n ← nonNull r
  let a ← fields n
  refuse (index < 0 ∨ index ≥ a.len) "array index out of bounds"
  match value with
  | none => undefined
  | some src => memcpy (a.at index.toNat) src a.elemSize

def push (r : Ref) (value : Option Source) : Act Heap Unit := do
  let n ← nonNull r
  let src ← nonNullValue value
  let a ← fields n
  refuse (a.len = int32Max) "array length overflow"
  reserve m n (a.len + 1)
  let a ← fields n
  memcpy (a.at a.len) src a.elemSize
  setFields n { a with len := a.len + 1 }

def pop (r : Ref) : Act Heap Pointer := do
  let n ← nonNull r
  let a ← fields n
  refuse (a.len = 0) "pop on empty array"
  setFields n { a with len := a.len - 1 }
  pure (a.at (a.len - 1))

def len (r : Ref) : Act Heap Nat := do
  let n ← nonNull r
  let a ← fields n
  pure a.len

def clone (arena : Nat) (r : Ref) : Act Heap Nat := do
  let n ← nonNull r
  let a ← fields n
  let result ← new m arena a.elemSize a.len
  let b ← fields result
  copyElements (b.at 0) (a.at 0) a.len a.elemSize
  setFields result { b with len := a.len }
  pure result

def repeat' (arena : Nat) (elemSize : Int) (value : Option Source) (count : Int) : Act Heap Nat := do
  let src ← nonNullValue value
  refuse (count < 0) "array repeat count must be >= 0"
  let result ← new m arena elemSize count
  let b ← fields result
  times count.toNat fun i => memcpy (b.at i) src elemSize.toNat
  setFields result { b with len := count.toNat }
  pure result

/-- One round of the loop over the bytes of two elements -/
def swapByte (a b : Pointer) (i : Nat) : Act Heap Unit := fun h =>
  match h.blocks[a.block]? with
  | none => .undefined
  | some block =>
    if a.block = b.block ∧ a.offset + i < block.size ∧ b.offset + i < block.size then
      let tmp := block.byte (a.offset + i)
      let swapped := (block.write (a.offset + i) 1 fun _ => block.byte (b.offset + i)).write (b.offset + i) 1 fun _ => tmp
      .done () { h with blocks := h.blocks.set a.block swapped }
    else .undefined

def swap (r : Ref) (left right : Int) : Act Heap Unit := do
  let n ← nonNull r
  let a ← fields n
  refuse (left < 0 ∨ left ≥ a.len ∨ right < 0 ∨ right ≥ a.len) "array index out of bounds"
  if left = right then pure ()
  else times a.elemSize (swapByte (a.at left.toNat) (a.at right.toNat))

/-- The two ends of the loop meet after half of the elements. -/
def reverse (r : Ref) : Act Heap Unit := do
  let n ← nonNull r
  let a ← fields n
  times (a.len / 2) fun left => swap (some n) left (a.len - 1 - left : Nat)

def fill (r : Ref) (value : Option Source) : Act Heap Unit := do
  let n ← nonNull r
  let src ← nonNullValue value
  let a ← fields n
  times a.len fun i => memcpy (a.at i) src a.elemSize

def clear (r : Ref) : Act Heap Unit := do
  let n ← nonNull r
  let a ← fields n
  setFields n { a with len := 0 }

def extend (destination source : Ref) : Act Heap Unit := do
  let n ← nonNull destination
  let k ← nonNull source
  let d ← fields n
  let s ← fields k
  refuse (d.elemSize ≠ s.elemSize) "array element size mismatch"
  if s.len = 0 then pure ()
  else
    refuse (d.len > int32Max - s.len) "array length overflow"
    reserve m n (d.len + s.len)
    let d ← fields n
    let s' ← fields k
    memcpy (d.at d.len) (.inside (s'.at 0)) (s.len * s'.elemSize)
    setFields n { d with len := d.len + s.len }

def insert (r : Ref) (index : Int) (value : Option Source) : Act Heap Unit := do
  let n ← nonNull r
  let src ← nonNullValue value
  let a ← fields n
  refuse (index < 0 ∨ index > a.len) "array index out of bounds"
  refuse (a.len = int32Max) "array length overflow"
  let copy ← arenaAlloc m a.owner a.elemSize
  memcpy ⟨copy,0⟩ src a.elemSize
  reserve m n (a.len + 1)
  let a ← fields n
  times (a.len - index.toNat) fun k => memcpy (a.at (a.len - k)) (.inside (a.at (a.len - k - 1))) a.elemSize
  memcpy (a.at index.toNat) (.inside ⟨copy,0⟩) a.elemSize
  setFields n { a with len := a.len + 1 }

/-- The bytes that a pointer is read for -/
def bytesAt (p : Pointer) (n : Nat) : Act Heap (List UInt8) := fun h =>
  match (Source.inside p).read h n with
  | some bytes => .done ((List.range n).map bytes) h
  | none => .undefined

/-- The element goes to memory of the caller. -/
def removeAt (r : Ref) (index : Int) (outNull : Bool) : Act Heap (List UInt8) := do
  let n ← nonNull r
  refuse (outNull = true) "array output is NULL"
  let a ← fields n
  refuse (index < 0 ∨ index ≥ a.len) "array index out of bounds"
  let out ← bytesAt (a.at index.toNat) a.elemSize
  times (a.len - 1 - index.toNat) fun k =>
    memcpy (a.at (index.toNat + k)) (.inside (a.at (index.toNat + k + 1))) a.elemSize
  setFields n { a with len := a.len - 1 }
  pure out

def slice (arena : Nat) (r : Ref) (start stop : Int) : Act Heap Nat := do
  let n ← nonNull r
  let a ← fields n
  refuse (start < 0 ∨ stop < start ∨ stop > a.len) "array slice out of bounds"
  let count := (stop - start).toNat
  let result ← new m arena a.elemSize count
  let b ← fields result
  copyElements (b.at 0) (a.at start.toNat) count a.elemSize
  setFields result { b with len := count }
  pure result

/-- Where the value of a call comes from: the null pointer, memory of the caller, or what `osc_array_get` or
`osc_array_pop` points to, of any array. -/
inductive Value where
  | null
  | bytes (bytes : List UInt8)
  | element (r : Ref) (index : Int32)
  | popped (r : Ref)

inductive Call where
  | new (arena : Nat) (elemSize initialCapacity : Int32)
  | push (r : Ref) (value : Value)
  | pop (r : Ref)
  | get (r : Ref) (index : Int32)
  | set (r : Ref) (index : Int32) (value : Value)
  | insert (r : Ref) (index : Int32) (value : Value)
  | removeAt (r : Ref) (index : Int32) (outNull : Bool)
  | extend (destination source : Ref)
  | slice (arena : Nat) (r : Ref) (start stop : Int32)
  | clone (arena : Nat) (r : Ref)
  | repeat' (arena : Nat) (elemSize : Int32) (value : Value) (count : Int32)
  | swap (r : Ref) (left right : Int32)
  | reverse (r : Ref)
  | fill (r : Ref) (value : Value)
  | clear (r : Ref)
  | len (r : Ref)

/-- What the caller gets: nothing, an array, a number, or the bytes of an element. -/
inductive Answer where
  | nothing
  | array (n : Nat)
  | number (n : Nat)
  | element (bytes : List UInt8)
deriving DecidableEq

def value : Value → Act Heap (Option Source)
  | .null => pure none
  | .bytes bytes => pure (some (.outside bytes))
  | .element r index => do
    let p ← get r index.toInt
    pure (some (.inside p))
  | .popped r => do
    let p ← pop r
    pure (some (.inside p))

/-- The element that a pointer into the array points to -/
def element (r : Ref) (p : Pointer) : Act Heap Answer := do
  let n ← nonNull r
  let a ← fields n
  let bytes ← bytesAt p a.elemSize
  pure (.element bytes)

def nothing (act : Act Heap Unit) : Act Heap Answer := do
  act
  pure .nothing

def perform : Call → Act Heap Answer
  | .new arena elemSize initialCapacity => do
    let n ← new m arena elemSize.toInt initialCapacity.toInt
    pure (.array n)
  | .push r v => do
    let v ← value v
    nothing (push m r v)
  | .pop r => do
    let p ← pop r
    element r p
  | .get r index => do
    let p ← get r index.toInt
    element r p
  | .set r index v => do
    let v ← value v
    nothing (set r index.toInt v)
  | .insert r index v => do
    let v ← value v
    nothing (insert m r index.toInt v)
  | .removeAt r index outNull => do
    let bytes ← removeAt r index.toInt outNull
    pure (.element bytes)
  | .extend destination source => nothing (extend m destination source)
  | .slice arena r start stop => do
    let n ← slice m arena r start.toInt stop.toInt
    pure (.array n)
  | .clone arena r => do
    let n ← clone m arena r
    pure (.array n)
  | .repeat' arena elemSize v count => do
    let v ← value v
    let n ← repeat' m arena elemSize.toInt v count.toInt
    pure (.array n)
  | .swap r left right => nothing (swap r left.toInt right.toInt)
  | .reverse r => nothing (reverse r)
  | .fill r v => do
    let v ← value v
    nothing (fill r v)
  | .clear r => nothing (clear r)
  | .len r => do
    let n ← len r
    pure (.number n)

end Oscan.Runtime.Arrays
