import Oscan.Runtime.Strings

/-! The sizes of pixel arrays: what is checked before an array goes to the canvas, and the array that a decoded
picture becomes. -/
namespace Oscan.Runtime.Pixels
open Library Library.Lockstep Strings

/-- An array of pixels, whose length is an `int32_t` -/
structure PixelArray where
  data : List UInt32
  short : data.length < 2^31

/-- What a decoder gives: its width and height, and the memory of its pixels -/
structure Picture where
  w : CInt 32
  h : CInt 32
  pixels : Nat → UInt32

/-- The call of the canvas that gets an array; a blit has a place and the bytes of a row. -/
inductive Target where
  | blit (dx dy stride : CInt 32)
  | blitAlpha (dx dy stride : CInt 32)
  | icon

/-- An array that goes to the canvas as one of a width and a height -/
structure Passing where
  pixels : PixelArray
  w : CInt 32
  h : CInt 32
  target : Target

/-- What the program gets back: nothing, an error, an empty text, or an array -/
inductive Answer where
  | unit
  | error (message : String)
  | done
  | array (elements : List UInt32)

structure Reply where
  passed : Option Passing
  answer : Answer

/-- The decoders, the canvas, the memory that an arena still gives and what new memory holds -/
structure Platform where
  imgLoadMem : Str → Option Picture
  svgLoadMem : Str → CInt 32 → CInt 32 → Option Picture
  setIcon : Passing → Int
  gives : Nat → Bool
  fresh : Nat → UInt32

/-- `!(!pixels || w <= 0 || h <= 0 || pixels->len < w * h)`, with the array that passes -/
def checked (pixels : Option PixelArray) (w h : CInt 32) : Outcome (Option PixelArray) :=
  match pixels with
  | none => .ok none
  | some array =>
    if w.value ≤ 0 then .ok none
    else if h.value ≤ 0 then .ok none
    else (w.mul h).map fun area => if (array.data.length : Int) < area.value then none else some array

def four : CInt 32 := ⟨4,by decide,by decide⟩

/-- The array goes on with `w * 4` for its stride. -/
def blit (target : CInt 32 → Target) (w h : CInt 32) (pixels : Option PixelArray) : Outcome Reply :=
  (checked pixels w h).bind fun
  | none => .ok ⟨none,.unit⟩
  | some array => (w.mul four).map fun stride => ⟨some ⟨array,w,h,target stride⟩,.unit⟩

def gfxBlit (dx dy w h : CInt 32) (pixels : Option PixelArray) : Outcome Reply := blit (.blit dx dy) w h pixels

def gfxBlitAlpha (dx dy w h : CInt 32) (pixels : Option PixelArray) : Outcome Reply :=
  blit (.blitAlpha dx dy) w h pixels

def canvasSetIcon (p : Platform) (pixels : Option PixelArray) (w h : CInt 32) : Outcome Reply :=
  (checked pixels w h).map fun
  | none => ⟨none,.error "canvas_set_icon: invalid pixel buffer"⟩
  | some array =>
    if p.setIcon ⟨array,w,h,.icon⟩ = 0 then ⟨some ⟨array,w,h,.icon⟩,.done⟩
    else ⟨some ⟨array,w,h,.icon⟩,.error "canvas_set_icon: platform call failed"⟩

/-- The loop that copies the pixels from `i` on behind the two sizes -/
def copyPixels (pixels : Nat → UInt32) (area i : Nat) (d : List UInt32) : Outcome (List UInt32) :=
  if i < area then
    (int32 (i + 2)).bind fun place =>
    if place.toNat < d.length then copyPixels pixels area (i + 1) (d.set place.toNat (pixels i)) else .undefined
  else .ok d
termination_by area - i

/-- `osc_array_new` for four-byte elements: its record and its data come from the arena. -/
def arrayNew (p : Platform) (capacity : Int) : Outcome (List UInt32) :=
  if capacity < 0 then .panic "array initial_capacity must be >= 0"
  else
    let capacity := if 0 < capacity then capacity.toNat else 4
    if p.gives (capacity * 4) then .ok ((List.range capacity).map p.fresh) else .panic "out of memory"

def word (v : CInt 32) : UInt32 := UInt32.ofInt v.value

/-- `osc_img_load` and `osc_svg_load` behind their decoders -/
def loadPicture (p : Platform) (undecoded invalid : String) (decoded : Option Picture) : Outcome Reply :=
  match decoded with
  | none => .ok ⟨none,.error undecoded⟩
  | some picture =>
    if picture.w.value ≤ 0 then .ok ⟨none,.error invalid⟩
    else if picture.h.value ≤ 0 then .ok ⟨none,.error invalid⟩
    else
      -- the guard multiplies in 64 bits, and the sum after it in 32
      (CInt.exactly 64 (picture.w.value * picture.h.value)).bind fun product =>
      if 0x7FFFFFFE < product.value then .ok ⟨none,.error invalid⟩
      else
        (picture.w.mul picture.h).bind fun area =>
        (int32 (area.value + 2)).bind fun total =>
        (arrayNew p total).bind fun d =>
        (copyPixels picture.pixels area.value.toNat 0 ((d.set 0 (word picture.w)).set 1 (word picture.h))).map fun d =>
          ⟨none,.array (d.take total.toNat)⟩

def imgLoad (p : Platform) (data : Str) : Outcome Reply :=
  loadPicture p "img_load: failed to decode image" "img_load: invalid image dimensions" (p.imgLoadMem data)

def svgLoad (p : Platform) (data : Str) (width height : CInt 32) : Outcome Reply :=
  loadPicture p "svg_load: failed to rasterize SVG" "svg_load: invalid image dimensions"
    (p.svgLoadMem data width height)

inductive Call where
  | gfxBlit (dx dy w h : CInt 32) (pixels : Option PixelArray)
  | gfxBlitAlpha (dx dy w h : CInt 32) (pixels : Option PixelArray)
  | canvasSetIcon (pixels : Option PixelArray) (w h : CInt 32)
  | imgLoad (data : Str)
  | svgLoad (data : Str) (width height : CInt 32)

def perform (p : Platform) : Call → Outcome Reply
  | .gfxBlit dx dy w h pixels => gfxBlit dx dy w h pixels
  | .gfxBlitAlpha dx dy w h pixels => gfxBlitAlpha dx dy w h pixels
  | .canvasSetIcon pixels w h => canvasSetIcon p pixels w h
  | .imgLoad data => imgLoad p data
  | .svgLoad data width height => svgLoad p data width height

/-- The array has a pixel for each place of the sizes, and the stride is four bytes for each of a row. -/
def Covering (x : Passing) : Prop :=
  0 < x.w.value ∧ 0 < x.h.value ∧ x.w.value * x.h.value ≤ x.pixels.data.length ∧
    match x.target with
    | .blit _ _ stride | .blitAlpha _ _ stride => stride.value = x.w.value * 4
    | .icon => True

/-- The two sizes, and the pixels behind them -/
def elements (picture : Picture) : List UInt32 :=
  word picture.w :: word picture.h ::
    (List.range (picture.w.value * picture.h.value).toNat).map picture.pixels

/-- What the decoder of a call gives -/
def decoded (p : Platform) : Call → Option Picture
  | .imgLoad data => p.imgLoadMem data
  | .svgLoad data width height => p.svgLoadMem data width height
  | _ => none

/-- What is asked of a call: its arithmetic stays in range, only arrays that cover the sizes go to the canvas, and
an array that comes back is that of the decoded picture. -/
structure Sound (p : Platform) (call : Call) : Prop where
  defined : perform p call ≠ .undefined
  passed : ∀ reply x, perform p call = .ok reply → reply.passed = some x → Covering x
  loaded : ∀ reply array, perform p call = .ok reply → reply.answer = .array array →
    ∃ picture, decoded p call = some picture ∧ 0 < picture.w.value ∧ 0 < picture.h.value ∧
      array = elements picture ∧ (array.length : Int) = picture.w.value * picture.h.value + 2

/-- The product of two positive sizes is a number of 32 bits. -/
def AreaFits (w h : CInt 32) : Prop := 0 < w.value → 0 < h.value → w.value * h.value < 2^31

/-- Besides the product, the stride of an array that is passed on is a number of 32 bits. -/
def BlitFits (w h : CInt 32) (pixels : Option PixelArray) : Prop :=
  ∀ array, pixels = some array → AreaFits w h ∧
    (0 < w.value → 0 < h.value → w.value * h.value ≤ array.data.length → w.value < 2^29)

/-- The sum of the product and two is one as well. -/
def LoadFits (decoded : Option Picture) : Prop :=
  ∀ picture, decoded = some picture →
    0 < picture.w.value → 0 < picture.h.value → picture.w.value * picture.h.value ≠ 2^31 - 2

/-- The sizes of a call for which its guard is right -/
def SizesFit (p : Platform) : Call → Prop
  | .gfxBlit _ _ w h pixels | .gfxBlitAlpha _ _ w h pixels => BlitFits w h pixels
  | .canvasSetIcon pixels w h => ∀ array, pixels = some array → AreaFits w h
  | .imgLoad data => LoadFits (p.imgLoadMem data)
  | .svgLoad data width height => LoadFits (p.svgLoadMem data width height)

theorem mul_eq (a b : CInt 32) :
    (∃ r, a.mul b = .ok r ∧ r.value = a.value * b.value ∧ CInt.Fits 32 (a.value * b.value)) ∨
    a.mul b = .undefined ∧ ¬CInt.Fits 32 (a.value * b.value) := by
  by_cases inside : CInt.Fits 32 (a.value * b.value)
  · exact .inl ⟨_,CInt.exactly_fits inside,rfl,inside⟩
  · exact .inr ⟨dif_neg inside,inside⟩

/-- What the check lets through: an array that covers two positive sizes, if their product is a number at all -/
theorem checked_cases (pixels : Option PixelArray) (w h : CInt 32) :
    (∃ array, pixels = some array ∧ 0 < w.value ∧ 0 < h.value ∧ w.value * h.value < 2^31 ∧
      w.value * h.value ≤ array.data.length ∧ checked pixels w h = .ok (some array)) ∨
    checked pixels w h = .ok none ∧ (∀ array, pixels = some array → AreaFits w h) ∧
      (∀ array, pixels = some array → 0 < w.value → 0 < h.value → ¬w.value * h.value ≤ array.data.length) ∨
    checked pixels w h = .undefined ∧ ∃ array, pixels = some array ∧ ¬AreaFits w h := by
  cases pixels with
  | none => exact .inr (.inl ⟨rfl,(fun _ absent => nomatch absent),(fun _ absent => nomatch absent)⟩)
  | some array =>
    by_cases wide : w.value ≤ 0
    · refine .inr (.inl ⟨?_,fun _ _ positive => absurd positive (by omega),fun _ _ positive => absurd positive (by omega)⟩)
      rw [checked,if_pos wide]
    by_cases high : h.value ≤ 0
    · refine .inr (.inl ⟨?_,fun _ _ _ positive => absurd positive (by omega),
        fun _ _ _ positive => absurd positive (by omega)⟩)
      rw [checked,if_neg wide,if_pos high]
    have positive : 0 < w.value * h.value := Int.mul_pos (by omega) (by omega)
    obtain ⟨area,product,value,fits⟩ | ⟨product,beyond⟩ := mul_eq w h
    · have small : w.value * h.value < 2^31 := fits.2
      by_cases short : (array.data.length : Int) < area.value
      · refine .inr (.inl ⟨?_,fun _ _ _ _ => small,?_⟩)
        · rw [checked,if_neg wide,if_neg high,product,Outcome.map_ok,if_pos short]
        · rintro _ ⟨⟩ _ _
          omega
      · refine .inl ⟨array,rfl,by omega,by omega,small,by omega,?_⟩
        rw [checked,if_neg wide,if_neg high,product,Outcome.map_ok,if_neg short]
    · refine .inr (.inr ⟨?_,array,rfl,?_⟩)
      · rw [checked,if_neg wide,if_neg high,product,Outcome.map_undefined]
      · intro fits
        have small := fits (by omega) (by omega)
        exact beyond ⟨by omega,small⟩

theorem blit_cases (target : CInt 32 → Target) (w h : CInt 32) (pixels : Option PixelArray) :
    BlitFits w h pixels ∧ ((∃ array stride, 0 < w.value ∧ 0 < h.value ∧ w.value * h.value ≤ array.data.length ∧
        stride.value = w.value * 4 ∧ blit target w h pixels = .ok ⟨some ⟨array,w,h,target stride⟩,.unit⟩) ∨
      blit target w h pixels = .ok ⟨none,.unit⟩) ∨
    ¬BlitFits w h pixels ∧ blit target w h pixels = .undefined := by
  unfold blit
  obtain ⟨array,given,wide,high,small,enough,check⟩ | ⟨check,fits,short⟩ | ⟨check,array,given,beyond⟩ :=
    checked_cases pixels w h
  · rw [check,Outcome.bind_ok]
    obtain ⟨stride,product,value,inside⟩ | ⟨product,beyond⟩ := mul_eq w four
    · have row : w.value * 4 < 2^31 := inside.2
      refine .inl ⟨?_,.inl ⟨array,stride,wide,high,enough,value,?_⟩⟩
      · intro array' _
        exact ⟨fun _ _ => small,fun _ _ _ => by omega⟩
      · rw [product]
        rfl
    · refine .inr ⟨?_,?_⟩
      · intro fits
        have narrow := (fits array given).2 wide high enough
        have row : w.value * four.value = w.value * 4 := rfl
        exact beyond (by unfold CInt.Fits; omega)
      · rw [product]
        rfl
  · refine .inl ⟨?_,.inr ?_⟩
    · intro array given
      exact ⟨fits array given,fun wide high enough => absurd enough (short array given wide high)⟩
    · rw [check,Outcome.bind_ok]
  · refine .inr ⟨fun fits => beyond (fits array given).1,?_⟩
    rw [check]
    rfl

/-- Where nothing goes to the canvas and no array comes back, nothing is asked. -/
theorem sound_quiet {p : Platform} {call : Call} {reply : Reply} (performed : perform p call = .ok reply)
    (nothing : reply.passed = none) (plain : ∀ array, reply.answer ≠ .array array) : Sound p call := by
  refine ⟨?_,?_,?_⟩
  · rw [performed]
    exact fun h => nomatch h
  · intro reply' x same passed
    cases performed.symm.trans same
    cases nothing.symm.trans passed
  · intro reply' array same answered
    cases performed.symm.trans same
    exact absurd answered (plain array)

theorem sound_blit {p : Platform} {call : Call} (target : CInt 32 → Target) {w h : CInt 32} {pixels : Option PixelArray}
    (same : perform p call = blit target w h pixels) (row : ∀ array stride, stride.value = w.value * 4 →
      0 < w.value → 0 < h.value → w.value * h.value ≤ array.data.length → Covering ⟨array,w,h,target stride⟩) :
    Sound p call ↔ BlitFits w h pixels := by
  constructor
  · intro sound
    obtain ⟨fits,-⟩ | ⟨-,undefined⟩ := blit_cases target w h pixels
    · exact fits
    · exact absurd (same.trans undefined) sound.defined
  · intro fits
    obtain ⟨-,⟨array,stride,wide,high,enough,value,done⟩ | done⟩ | ⟨unfit,-⟩ := blit_cases target w h pixels
    · refine ⟨?_,?_,?_⟩
      · rw [same,done]
        exact fun h => nomatch h
      · intro reply x performed passed
        rw [same,done] at performed
        cases performed
        cases passed
        exact row array stride value wide high enough
      · intro reply elements performed answered
        rw [same,done] at performed
        cases performed
        cases answered
    · exact sound_quiet (same.trans done) rfl (fun _ h => nomatch h)
    · exact absurd fits unfit

theorem sound_setIcon (p : Platform) (pixels : Option PixelArray) (w h : CInt 32) :
    Sound p (.canvasSetIcon pixels w h) ↔ ∀ array, pixels = some array → AreaFits w h := by
  have same : perform p (.canvasSetIcon pixels w h) = canvasSetIcon p pixels w h := rfl
  unfold canvasSetIcon at same
  obtain ⟨array,given,wide,high,small,enough,check⟩ | ⟨check,fits,-⟩ | ⟨check,array,given,beyond⟩ :=
    checked_cases pixels w h
  · rw [check,Outcome.map_ok] at same
    simp only at same
    refine ⟨fun _ _ _ _ _ => small,fun _ => ⟨?_,?_,?_⟩⟩
    · rw [same]
      exact fun h => nomatch h
    · intro reply x performed passed
      rw [same,Outcome.ok.injEq] at performed
      have through : reply.passed = some ⟨array,w,h,.icon⟩ := by
        rw [← performed]
        split <;> rfl
      cases through.symm.trans passed
      exact ⟨wide,high,enough,trivial⟩
    · intro reply elements performed answered
      rw [same,Outcome.ok.injEq] at performed
      rw [← performed] at answered
      split at answered <;> cases answered
  · rw [check,Outcome.map_ok] at same
    exact ⟨fun _ => fits,fun _ => sound_quiet same rfl (fun _ h => nomatch h)⟩
  · rw [check,Outcome.map_undefined] at same
    exact ⟨fun sound => absurd same sound.defined,fun fits => absurd (fits array given) beyond⟩

/-- The loop stores each pixel two places behind its own and leaves the other places as they are. -/
theorem copyPixels_spec (pixels : Nat → UInt32) {area : Nat} (small : area + 2 < 2^31) (i : Nat) (d : List UInt32)
    (size : d.length = area + 2) : ∃ r, copyPixels pixels area i d = .ok r ∧ r.length = area + 2 ∧
      ∀ k, r[k]? = if i + 2 ≤ k ∧ k < area + 2 then some (pixels (k - 2)) else d[k]? := by
  induction left : area - i generalizing i d with
  | zero =>
    refine ⟨d,?_,size,?_⟩
    · rw [copyPixels,if_neg (by omega)]
    · intro k
      rw [if_neg (by omega)]
  | succ n ih =>
    have place : int32 ((i : Int) + 2) = .ok ((i : Int) + 2) := int32_ok (by unfold CInt.Fits; omega)
    have index : ((i : Int) + 2).toNat = i + 2 := by omega
    obtain ⟨r,loop,length,each⟩ := ih (i + 1) (d.set (i + 2) (pixels i)) (by rw [List.length_set,size]) (by omega)
    refine ⟨r,?_,length,?_⟩
    · rw [copyPixels,if_pos (by omega),place,Outcome.bind_ok,index,if_pos (by omega),loop]
    · intro k
      rw [each k,List.getElem?_set]
      by_cases here : i + 2 = k
      · rw [if_neg (by omega),if_pos here,if_pos (by omega),if_pos (by omega),← here]
        rfl
      · rw [if_neg here]
        by_cases later : i + 1 + 2 ≤ k ∧ k < area + 2
        · rw [if_pos later,if_pos (by omega)]
        · rw [if_neg later,if_neg (by omega)]

theorem elements_length (picture : Picture) :
    (elements picture).length = (picture.w.value * picture.h.value).toNat + 2 := by
  simp only [elements,List.length_cons,List.length_map,List.length_range]

/-- From an array with room for them all, the sizes and the loop make the elements. -/
theorem copyPixels_elements (picture : Picture) {area : Nat}
    (product : (picture.w.value * picture.h.value).toNat = area) (small : area + 2 < 2^31) (d : List UInt32)
    (size : d.length = area + 2) :
    copyPixels picture.pixels area 0 ((d.set 0 (word picture.w)).set 1 (word picture.h)) = .ok (elements picture) := by
  obtain ⟨r,loop,length,each⟩ := copyPixels_spec picture.pixels small 0
    ((d.set 0 (word picture.w)).set 1 (word picture.h)) (by rw [List.length_set,List.length_set,size])
  rw [loop]
  congr 1
  ext1 k
  rw [each k]
  match k with
  | 0 =>
    rw [if_neg (by omega),List.getElem?_set_ne (by decide),List.getElem?_set_self (by omega)]
    rfl
  | 1 =>
    rw [if_neg (by omega),List.getElem?_set_self (by rw [List.length_set]; omega)]
    rfl
  | k + 2 =>
    rw [elements,List.getElem?_cons_succ,List.getElem?_cons_succ,product,List.getElem?_map]
    by_cases inside : k < area
    · rw [if_pos (by omega),List.getElem?_range inside]
      rfl
    · rw [if_neg (by omega),List.getElem?_eq_none (by rw [List.length_set,List.length_set]; omega),
        List.getElem?_eq_none (by rw [List.length_range]; omega)]
      rfl

theorem loadPicture_cases (p : Platform) (undecoded invalid : String) (given : Option Picture) :
    LoadFits given ∧ ((∃ picture, given = some picture ∧ 0 < picture.w.value ∧ 0 < picture.h.value ∧
        loadPicture p undecoded invalid given = .ok ⟨none,.array (elements picture)⟩) ∨
      (∃ message, loadPicture p undecoded invalid given = .ok ⟨none,.error message⟩) ∨
      ∃ message, loadPicture p undecoded invalid given = .panic message) ∨
    ¬LoadFits given ∧ loadPicture p undecoded invalid given = .undefined := by
  cases given with
  | none => exact .inl ⟨(fun _ absent => nomatch absent),.inr (.inl ⟨_,rfl⟩)⟩
  | some picture =>
    by_cases wide : picture.w.value ≤ 0
    · refine .inl ⟨?_,.inr (.inl ⟨invalid,?_⟩)⟩
      · rintro _ ⟨⟩ positive
        omega
      · rw [loadPicture,if_pos wide]
    by_cases high : picture.h.value ≤ 0
    · refine .inl ⟨?_,.inr (.inl ⟨invalid,?_⟩)⟩
      · rintro _ ⟨⟩ - positive
        omega
      · rw [loadPicture,if_neg wide,if_pos high]
    have positive : 0 < picture.w.value * picture.h.value := Int.mul_pos (by omega) (by omega)
    have bound : picture.w.value * picture.h.value ≤ 2^31 * 2^31 :=
      Int.mul_le_mul (by have := picture.w.high; omega) (by have := picture.h.high; omega) (by omega) (by decide)
    have guard : CInt.exactly 64 (picture.w.value * picture.h.value) = .ok _ :=
      CInt.exactly_fits (by unfold CInt.Fits; omega)
    by_cases large : 0x7FFFFFFE < picture.w.value * picture.h.value
    · refine .inl ⟨?_,.inr (.inl ⟨invalid,?_⟩)⟩
      · rintro _ ⟨⟩ - -
        omega
      · rw [loadPicture,if_neg wide,if_neg high,guard,Outcome.bind_ok,if_pos large]
    have area : picture.w.mul picture.h = .ok _ := CInt.exactly_fits (by unfold CInt.Fits; omega)
    by_cases last : picture.w.value * picture.h.value = 2^31 - 2
    · refine .inr ⟨?_,?_⟩
      · intro fits
        exact fits picture rfl (by omega) (by omega) last
      · have sum : int32 (picture.w.value * picture.h.value + 2) = .undefined :=
          int32_undefined (by unfold CInt.Fits; omega)
        rw [loadPicture,if_neg wide,if_neg high,guard,Outcome.bind_ok,if_neg large,area,Outcome.bind_ok,sum]
        rfl
    · refine .inl ⟨?_,?_⟩
      · rintro _ ⟨⟩ - -
        exact last
      · have sum : int32 (picture.w.value * picture.h.value + 2) = .ok (picture.w.value * picture.h.value + 2) :=
          int32_ok (by unfold CInt.Fits; omega)
        rw [loadPicture,if_neg wide,if_neg high,guard,Outcome.bind_ok,if_neg large,area,Outcome.bind_ok,sum,
          Outcome.bind_ok,arrayNew,if_neg (show ¬picture.w.value * picture.h.value + 2 < 0 by omega)]
        simp only [if_pos (show 0 < picture.w.value * picture.h.value + 2 by omega)]
        by_cases memory : p.gives ((picture.w.value * picture.h.value + 2).toNat * 4)
        · refine .inl ⟨picture,rfl,by omega,by omega,?_⟩
          have copied := copyPixels_elements picture rfl (by omega)
            ((List.range (picture.w.value * picture.h.value + 2).toNat).map p.fresh)
            (by rw [List.length_map,List.length_range]; omega)
          rw [if_pos memory,Outcome.bind_ok,copied,Outcome.map_ok,List.take_of_length_le]
          rw [elements_length]
          omega
        · refine .inr (.inr ⟨"out of memory",?_⟩)
          rw [if_neg memory]
          rfl

theorem sound_load {p : Platform} {call : Call} {undecoded invalid : String} {given : Option Picture}
    (same : perform p call = loadPicture p undecoded invalid given) (source : decoded p call = given) :
    Sound p call ↔ LoadFits given := by
  obtain ⟨fits,⟨picture,from',wide,high,done⟩ | ⟨message,done⟩ | ⟨message,done⟩⟩ | ⟨unfit,done⟩ :=
    loadPicture_cases p undecoded invalid given
  · refine ⟨fun _ => fits,fun _ => ⟨?_,?_,?_⟩⟩
    · rw [same,done]
      exact fun h => nomatch h
    · intro reply x performed passed
      rw [same,done] at performed
      cases performed
      cases passed
    · intro reply array performed answered
      rw [same,done] at performed
      cases performed
      cases answered
      have positive : 0 < picture.w.value * picture.h.value := Int.mul_pos wide high
      exact ⟨picture,source.trans from',wide,high,rfl,by rw [elements_length]; omega⟩
  · exact ⟨fun _ => fits,fun _ => sound_quiet (same.trans done) rfl (fun _ h => nomatch h)⟩
  · refine ⟨fun _ => fits,fun _ => ⟨?_,?_,?_⟩⟩
    · rw [same,done]
      exact fun h => nomatch h
    · intro reply x performed
      rw [same,done] at performed
      cases performed
    · intro reply array performed
      rw [same,done] at performed
      cases performed
  · exact ⟨fun sound => absurd (same.trans done) sound.defined,fun fits => absurd fits unfit⟩

/-- A call of the canvas or of a decoder guards its sizes exactly if their product, the stride of a blit and the
length of a picture are numbers of 32 bits wherever it computes them. -/
theorem sizes_sound_iff (p : Platform) (call : Call) : Sound p call ↔ SizesFit p call := by
  cases call with
  | gfxBlit dx dy w h pixels =>
    apply sound_blit (.blit dx dy) rfl
    intro array stride value wide high enough
    exact ⟨wide,high,enough,value⟩
  | gfxBlitAlpha dx dy w h pixels =>
    apply sound_blit (.blitAlpha dx dy) rfl
    intro array stride value wide high enough
    exact ⟨wide,high,enough,value⟩
  | canvasSetIcon pixels w h => exact sound_setIcon p pixels w h
  | imgLoad data => exact sound_load rfl rfl
  | svgLoad data width height => exact sound_load rfl rfl

def quietPlatform : Platform := ⟨fun _ => none,fun _ _ _ => none,fun _ => 0,fun _ => false,fun _ => 0⟩

/-- Sixteen bits of width times sixteen of height -/
theorem sizes_overflow : ¬Sound quietPlatform (.gfxBlit ⟨0,by decide,by decide⟩ ⟨0,by decide,by decide⟩
    ⟨65536,by decide,by decide⟩ ⟨65536,by decide,by decide⟩ (some ⟨[0],by decide⟩)) := by
  intro sound
  exact sound.defined rfl

end Oscan.Runtime.Pixels
