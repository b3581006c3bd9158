import Oscan.Types

/-! The memory layouts of the object backends: sizes, alignments and offsets in 32 bits.
The recursion over the declared types has a bound on its depth, and no result beyond it. -/
namespace Oscan.Backend

structure Layout where
  size : UInt32
  align : UInt32
deriving DecidableEq

def Layout.scalar (size : UInt32) : Layout := ⟨size,size⟩

def roundUp (value align : UInt32) : UInt32 := if align ≤ 1 then value else (value + align - 1) / align * align

/-- The offset of the field, and the layout with the field -/
def Layout.place (self field : Layout) : UInt32 × Layout :=
  let offset := roundUp self.size (max field.align 1)
  (offset,⟨offset + field.size,max self.align field.align⟩)

def Layout.finish (self : Layout) : Layout := ⟨roundUp self.size (max self.align 1),self.align⟩

def pointerSize : UInt32 := 8

/-- The offsets of the fields behind those placed before -/
def placeAll (layout : Layout) : List Layout → List UInt32 × Layout
  | [] => ([],layout)
  | field :: fields =>
    let rest := placeAll (layout.place field).2 fields
    ((layout.place field).1 :: rest.1,rest.2)

def sequentialLayout (fields : List Layout) : List UInt32 × Layout :=
  let placed := placeAll ⟨0,1⟩ fields
  (placed.1,placed.2.finish)

structure EnumLayout where
  hasPayload : Bool
  payloadOffset : UInt32
  total : Layout
  /-- The offsets of the payload fields of each variant, from the start of the whole -/
  variantFieldOffsets : List (String × List UInt32)

structure ResultLayout where
  payloadOffset : UInt32
  okOffset : UInt32
  errOffset : UInt32
  total : Layout

/-- A tag and a union behind it: the offset of the union, and the whole -/
def taggedLayout (tag union : Layout) : UInt32 × Layout :=
  let tagged := ((⟨0,1⟩ : Layout).place tag).2
  ((tagged.place union).1,(tagged.place union).2.finish)

def unionLayout (members : List Layout) : Layout :=
  members.foldl (fun union member => ⟨max union.size member.size,max union.align (max member.align 1)⟩) ⟨0,1⟩

section
variable (lay : BcType → Option Layout) (info : SemanticInfo)

def structLayout (name : String) : Option (List UInt32 × Layout) :=
  match info.structs.lookup name with
  | some s => (s.fields.mapM fun f => lay f.2).map sequentialLayout
  | none => some ([],⟨0,1⟩)

def enumLayout (name : String) : Option EnumLayout :=
  match info.enums.lookup name with
  | none => some ⟨false,0,.scalar 4,[]⟩
  | some e =>
    if e.variants.any fun v => !v.2.isEmpty then do
      let variants ← e.variants.mapM fun v => (v.2.mapM lay).map fun fields => (v.1,sequentialLayout fields)
      let tagged := taggedLayout (.scalar 4) (unionLayout (variants.map (·.2.2)))
      return ⟨true,tagged.1,tagged.2,variants.map fun v => (v.1,v.2.1.map (· + tagged.1))⟩
    else some ⟨false,0,.scalar 4,[]⟩

def resultLayout (ok err : BcType) : Option ResultLayout := do
  let okLayout ← lay ok
  let errLayout ← lay err
  let union : Layout := ⟨max okLayout.size errLayout.size,max (max okLayout.align errLayout.align) 1⟩
  let tagged := taggedLayout (.scalar 1) union
  return ⟨tagged.1,tagged.1,tagged.1,tagged.2⟩

end

variable (info : SemanticInfo)

def layoutOf : Nat → BcType → Option Layout
  | 0,_ => none
  | depth + 1,ty =>
    match ty with
    | .unit => some ⟨0,1⟩
    | .i32 => some (.scalar 4)
    | .i64 | .f64 => some (.scalar 8)
    | .bool => some (.scalar 1)
    | .handle => some (.scalar pointerSize)
    | .str => some (sequentialLayout [.scalar pointerSize,.scalar 4]).2
    | .map | .mapStrI32 | .mapStrI64 | .mapStrF64 | .mapI32Str | .mapI32I32 | .array _ | .fixedArray ..
    | .fnPtr .. => some (.scalar pointerSize)
    | .struct name => (structLayout (layoutOf depth) info name).map (·.2)
    | .enum name => (enumLayout (layoutOf depth) info name).map (·.total)
    | .result ok err => (resultLayout (layoutOf depth) ok err).map (·.total)

end Oscan.Backend
