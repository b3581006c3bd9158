import Oscan.Runtime.Array

/-! What the calls on dynamic arrays are for: lists of elements of one size, with the checks that the calls make. -/
namespace Oscan.Runtime.Arrays
open Library.Acting

/-- The elements of an array, as bytes -/
structure Elements where
  size : Nat
  items : List (List UInt8)

abbrev Lists := List Elements

namespace Meaning

def elements (n : Nat) : Act Lists Elements := fun t =>
  match t[n]? with
  | some e => .done e t
  | none => .undefined

def put (n : Nat) (e : Elements) : Act Lists Unit := fun t => .done () (t.set n e)

def add (e : Elements) : Act Lists Nat := fun t => .done t.length (t ++ [e])

/-- As many bytes as an element has; it has no meaning to pass fewer. -/
def whole (size : Nat) (bytes : List UInt8) : Act Lists (List UInt8) :=
  if size ≤ bytes.length then pure (bytes.take size) else undefined

def new (elemSize initialCapacity : Int) (items : List (List UInt8)) : Act Lists Nat := do
  refuse (elemSize ≤ 0) "array elem_size must be > 0"
  refuse (initialCapacity < 0) "array initial_capacity must be >= 0"
  add ⟨elemSize.toNat,items⟩

def get (r : Ref) (index : Int) : Act Lists (List UInt8) := do
  let n ← nonNull r
  let e ← elements n
  refuse (index < 0 ∨ index ≥ e.items.length) "array index out of bounds"
  pure (e.items.getD index.toNat [])

def set (r : Ref) (index : Int) (value : Option (List UInt8)) : Act Lists Unit := do
  let n ← nonNull r
  let e ← elements n
  refuse (index < 0 ∨ index ≥ e.items.length) "array index out of bounds"
  match value with
  | none => undefined
  | some bytes => do
    let item ← whole e.size bytes
    put n { e with items := e.items.set index.toNat item }

def push (r : Ref) (value : Option (List UInt8)) : Act Lists Unit := do
  let n ← nonNull r
  let bytes ← nonNullValue value
  let e ← elements n
  refuse (e.items.length = int32Max) "array length overflow"
  let item ← whole e.size bytes
  put n { e with items := e.items ++ [item] }

def pop (r : Ref) : Act Lists (List UInt8) := do
  let n ← nonNull r
  let e ← elements n
  refuse (e.items.length = 0) "pop on empty array"
  put n { e with items := e.items.dropLast }
  pure (e.items.getLastD [])

def len (r : Ref) : Act Lists Nat := do
  let n ← nonNull r
  let e ← elements n
  pure e.items.length

def clone (r : Ref) : Act Lists Nat := do
  let n ← nonNull r
  let e ← elements n
  add e

def repeat' (elemSize : Int) (value : Option (List UInt8)) (count : Int) : Act Lists Nat := do
  let bytes ← nonNullValue value
  refuse (count < 0) "array repeat count must be >= 0"
  refuse (elemSize ≤ 0) "array elem_size must be > 0"
  let item ← whole elemSize.toNat bytes
  add ⟨elemSize.toNat,List.replicate count.toNat item⟩

/-- The elements at the two places, exchanged -/
def exchange (items : List (List UInt8)) (left right : Nat) : List (List UInt8) :=
  (items.set left (items.getD right [])).set right (items.getD left [])

def swap (r : Ref) (left right : Int) : Act Lists Unit := do
  let n ← nonNull r
  let e ← elements n
  refuse (left < 0 ∨ left ≥ e.items.length ∨ right < 0 ∨ right ≥ e.items.length) "array index out of bounds"
  put n { e with items := exchange e.items left.toNat right.toNat }

def reverse (r : Ref) : Act Lists Unit := do
  let n ← nonNull r
  let e ← elements n
  put n { e with items := e.items.reverse }

def fill (r : Ref) (value : Option (List UInt8)) : Act Lists Unit := do
  let n ← nonNull r
  let bytes ← nonNullValue value
  let e ← elements n
  let item ← whole e.size bytes
  put n { e with items := List.replicate e.items.length item }

def clear (r : Ref) : Act Lists Unit := do
  let n ← nonNull r
  let e ← elements n
  put n { e with items := [] }

def extend (destination source : Ref) : Act Lists Unit := do
  let n ← nonNull destination
  let k ← nonNull source
  let d ← elements n
  let s ← elements k
  refuse (d.size ≠ s.size) "array element size mismatch"
  refuse (d.items.length + s.items.length > int32Max) "array length overflow"
  put n { d with items := d.items ++ s.items }

def insert (r : Ref) (index : Int) (value : Option (List UInt8)) : Act Lists Unit := do
  let n ← nonNull r
  let bytes ← nonNullValue value
  let e ← elements n
  refuse (index < 0 ∨ index > e.items.length) "array index out of bounds"
  refuse (e.items.length = int32Max) "array length overflow"
  let item ← whole e.size bytes
  put n { e with items := e.items.insertIdx index.toNat item }

def removeAt (r : Ref) (index : Int) (outNull : Bool) : Act Lists (List UInt8) := do
  let n ← nonNull r
  refuse (outNull = true) "array output is NULL"
  let e ← elements n
  refuse (index < 0 ∨ index ≥ e.items.length) "array index out of bounds"
  put n { e with items := e.items.eraseIdx index.toNat }
  pure (e.items.getD index.toNat [])

def slice (r : Ref) (start stop : Int) : Act Lists Nat := do
  let n ← nonNull r
  let e ← elements n
  refuse (start < 0 ∨ stop < start ∨ stop > e.items.length) "array slice out of bounds"
  add { e with items := (e.items.drop start.toNat).take (stop - start).toNat }

def value : Value → Act Lists (Option (List UInt8))
  | .null => pure none
  | .bytes bytes => pure (some bytes)
  | .element r index => do
    let item ← get r index.toInt
    pure (some item)
  | .popped r => do
    let item ← pop r
    pure (some item)

def nothing (act : Act Lists Unit) : Act Lists Answer := do
  act
  pure .nothing

def perform : Call → Act Lists Answer
  | .new _ elemSize initialCapacity => do
    let n ← new elemSize.toInt initialCapacity.toInt []
    pure (.array n)
  | .push r v => do
    let v ← value v
    nothing (push r v)
  | .pop r => do
    let item ← pop r
    pure (.element item)
  | .get r index => do
    let item ← get r index.toInt
    pure (.element item)
  | .set r index v => do
    let v ← value v
    nothing (set r index.toInt v)
  | .insert r index v => do
    let v ← value v
    nothing (insert r index.toInt v)
  | .removeAt r index outNull => do
    let item ← removeAt r index.toInt outNull
    pure (.element item)
  | .extend destination source => nothing (extend destination source)
  | .slice _ r start stop => do
    let n ← slice r start.toInt stop.toInt
    pure (.array n)
  | .clone _ r => do
    let n ← clone r
    pure (.array n)
  | .repeat' _ elemSize v count => do
    let v ← value v
    let n ← repeat' elemSize.toInt v count.toInt
    pure (.array n)
  | .swap r left right => nothing (swap r left.toInt right.toInt)
  | .reverse r => nothing (reverse r)
  | .fill r v => do
    let v ← value v
    nothing (fill r v)
  | .clear r => nothing (clear r)
  | .len r => do
    let n ← len r
    pure (.number n)

end Meaning

end Oscan.Runtime.Arrays
