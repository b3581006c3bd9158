import Mathlib.Algebra.Ring.Nat
import Mathlib.Data.List.Range
import Oscan.Library.Lockstep

/-! The arena allocator of the runtime: a list of blocks that regions are cut from one after the other, with a
reset that makes all of them empty. -/
namespace Oscan.Runtime.Arenas
open Library.Lockstep

def sizeMax : Nat := 2^64 - 1

def sizeOfBlock : Nat := 40

def sizeOfArena : Nat := 24

def pageSize : Nat := 4096

def pageRound (n : Nat) : Nat := (n + pageSize - 1) % 2^64 / pageSize * pageSize

inductive Mode where
  | hosted
  | freestanding

/-- A pointer to a block is the number of blocks made before it; `addr` is where the block itself is. -/
structure Block where
  addr : Nat
  data : Nat
  used : Nat
  capacity : Nat
  allocSize : Nat
  next : Option Nat
deriving DecidableEq

/-- The memory of a block, as starts and sizes -/
def Block.ranges (mode : Mode) (b : Block) : List (Nat × Nat) :=
  match mode with
  | .hosted => [(b.addr,sizeOfBlock),(b.data,b.capacity)]
  | .freestanding => [(b.addr,b.allocSize)]

/-- The blocks are all that were ever made for the arena. -/
structure Arena where
  addr : Nat
  blocks : List Block
  head : Option Nat
  current : Option Nat
  blockSize : Nat
deriving DecidableEq

/-- What `malloc` and `mmap` do: new memory is aligned, is apart from what is live, and does not wrap around. -/
structure Allocator where
  place : List (Nat × Nat) → Nat → Option Nat
  aligned : ∀ {live size start}, place live size = some start → start % 8 = 0
  bounded : ∀ {live size start}, place live size = some start → start + size < 2^64
  apart : ∀ {live size start}, place live size = some start →
    ∀ r ∈ live, start + size ≤ r.1 ∨ r.1 + r.2 ≤ start

variable (mode : Mode) (m : Allocator)

def blockNew (live : List (Nat × Nat)) (capacity : Nat) : Outcome Block :=
  match mode with
  | .freestanding =>
    if sizeMax - sizeOfBlock - (pageSize - 1) < capacity then .panic "arena allocation size overflow"
    else
      let total := pageRound ((sizeOfBlock + capacity) % 2^64)
      match m.place live total with
      | none => .panic "failed to mmap arena block"
      | some mem => .ok ⟨mem,mem + sizeOfBlock,0,total - sizeOfBlock,total,none⟩
  | .hosted =>
    match m.place live sizeOfBlock with
    | none => .panic "failed to allocate arena block struct"
    | some addr =>
      match m.place ((addr,sizeOfBlock) :: live) capacity with
      | none => .panic "failed to allocate arena block data"
      | some data => .ok ⟨addr,data,0,capacity,0,none⟩

def defaultCapacity : Nat := 1024 * 1024

def create (initialCapacity : Nat) : Outcome Arena :=
  let initialCapacity := if initialCapacity = 0 then defaultCapacity else initialCapacity
  match mode,m.place [] (match mode with | .hosted => sizeOfArena | .freestanding => pageRound sizeOfArena) with
  | .hosted,none => .panic "failed to allocate arena struct"
  | .freestanding,none => .panic "failed to mmap arena struct"
  | _,some addr =>
    (blockNew mode m [(addr,sizeOfArena)] initialCapacity).map fun block => ⟨addr,[block],some 0,some 0,initialCapacity⟩

def Arena.live (a : Arena) : List (Nat × Nat) := (a.addr,sizeOfArena) :: a.blocks.flatMap (Block.ranges mode)

def Arena.currentBlock (a : Arena) : Option (Nat × Block) := a.current.bind fun i => a.blocks[i]?.map fun b => (i,b)

/-- `(size + 7) & ~7` -/
def alignedSize (size : Nat) : Nat := (size + 7) % 2^64 / 8 * 8

/-- The difference of two sizes -/
def Block.room (b : Block) : Nat := (b.capacity + 2^64 - b.used) % 2^64

def alloc (a : Arena) (size : Nat) : Outcome (Nat × Arena) :=
  if sizeMax - 7 < size then .panic "arena allocation size overflow"
  else
    let aligned := alignedSize size
    match a.currentBlock with
    | none => .undefined
    | some (i,block) =>
      if aligned ≤ block.room then
        .ok (block.data + block.used,{ a with blocks := a.blocks.set i { block with used := block.used + aligned } })
      else
        (blockNew mode m (a.live mode) (if a.blockSize < aligned then aligned else a.blockSize)).map fun new =>
          (new.data,{ a with
            blocks := a.blocks.set i { block with next := some a.blocks.length } ++ [{ new with used := aligned }]
            current := some a.blocks.length })

/-- The blocks that a loop over the list visits; it ends within as many rounds as there are blocks, or never. -/
def chain (blocks : List Block) : Nat → Option Nat → Option (List Nat)
  | _,none => some []
  | 0,some _ => none
  | rounds + 1,some i => blocks[i]?.bind fun b => (chain blocks rounds b.next).map (i :: ·)

def reset (a : Arena) : Outcome Arena :=
  match chain a.blocks a.blocks.length a.head with
  | none => .undefined
  | some visited => .ok { a with
      blocks := a.blocks.mapIdx fun i b => if i ∈ visited then { b with used := 0 } else b
      current := a.head }

/-- The blocks that are freed, in order -/
def destroy (a : Arena) : Outcome (List Nat) :=
  match chain a.blocks a.blocks.length a.head with
  | none => .undefined
  | some visited => .ok visited

inductive Op where
  | alloc (size : Nat)
  | reset

/-- An operation, beside the regions that have been given out since the last reset -/
def step : Arena × List (Nat × Nat) → Op → Outcome (Option Nat × (Arena × List (Nat × Nat)))
  | (a,regions),.alloc size => (alloc mode m a size).map fun (start,a) => (some start,a,(start,size) :: regions)
  | (a,_),.reset => (reset a).map fun a => (none,a,[])

/-- Two regions have no byte in common. -/
def Apart (r r' : Nat × Nat) : Prop := r.1 + r.2 ≤ r'.1 ∨ r'.1 + r'.2 ≤ r.1

def Within (r r' : Nat × Nat) : Prop := r'.1 ≤ r.1 ∧ r.1 + r.2 ≤ r'.1 + r'.2

def Block.extent (b : Block) : Nat × Nat := (b.data,b.capacity)

/-- The regions are aligned and disjoint and lie in blocks that are reached from the head, and destroying the arena
frees each of its blocks once. -/
structure Sound (s : Arena × List (Nat × Nat)) : Prop where
  frees : ∃ freed, destroy s.1 = .ok freed ∧ freed.Nodup ∧ ∀ i, i ∈ freed ↔ i < s.1.blocks.length
  aligned : ∀ r ∈ s.2, r.1 % 8 = 0
  apart : s.2.Pairwise Apart
  inside : ∀ r ∈ s.2, ∃ freed i b, destroy s.1 = .ok freed ∧ i ∈ freed ∧ s.1.blocks[i]? = some b ∧ Within r b.extent

/-- An allocation for which the current block has no room comes only when that is the last block of the list. -/
def AtEnd (s : Arena × List (Nat × Nat)) : Op → Prop
  | .alloc size => ∀ i b, s.1.currentBlock = some (i,b) → alignedSize size ≤ b.room ∨ b.next = none
  | .reset => True

end Oscan.Runtime.Arenas
