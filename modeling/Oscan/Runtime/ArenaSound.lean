import Oscan.Runtime.Arena

/-! What stays true of an arena as long as no allocation leaves a block that has others behind it. -/
namespace Oscan.Runtime.Arenas
open Library.Lockstep

variable {mode : Mode} {m : Allocator}

theorem Apart.symm {r r' : Nat × Nat} (apart : Apart r r') : Apart r' r := Or.symm apart

theorem Within.trans {r r' r'' : Nat × Nat} (inner : Within r r') (outer : Within r' r'') : Within r r'' := by
  unfold Within at *
  omega

theorem Apart.within {r r' q q' : Nat × Nat} (apart : Apart q q') (inner : Within r q) (inner' : Within r' q') :
    Apart r r' := by
  unfold Within at *
  unfold Apart at *
  omega

/-- The part of a block that has been given out -/
def Block.taken (b : Block) : Nat × Nat := (b.data,b.used)

structure Block.Good (mode : Mode) (b : Block) : Prop where
  fits : b.used ≤ b.capacity
  whole : b.used % 8 = 0
  aligned : b.data % 8 = 0
  bounded : b.data + b.capacity < 2^64
  owned : ∃ r ∈ b.ranges mode, Within b.extent r

theorem Block.Good.taken_within {b : Block} (good : b.Good mode) : Within b.taken b.extent := by
  have fits := good.fits
  unfold Within Block.taken Block.extent
  simp only
  omega

theorem Block.Good.room {b : Block} (good : b.Good mode) : b.room = b.capacity - b.used := by
  have fits := good.fits
  have bounded := good.bounded
  unfold Block.room
  omega

theorem alignedSize_le {size : Nat} (small : ¬sizeMax - 7 < size) :
    size ≤ alignedSize size ∧ alignedSize size % 8 = 0 := by
  unfold sizeMax at small
  unfold alignedSize
  omega

structure Fresh (mode : Mode) (live : List (Nat × Nat)) (capacity : Nat) (b : Block) : Prop where
  good : b.Good mode
  unused : b.used = 0
  last : b.next = none
  large : capacity ≤ b.capacity
  apart : ∀ r ∈ live, Apart b.extent r

theorem blockNew_fresh {live : List (Nat × Nat)} {capacity : Nat} {b : Block}
    (made : blockNew mode m live capacity = .ok b) : Fresh mode live capacity b := by
  unfold blockNew at made
  cases mode with
  | freestanding =>
    simp only at made
    split at made
    · cases made
    · next small =>
      split at made
      · cases made
      · next mem placed =>
        cases made
        have rounded : 40 + capacity ≤ pageRound ((sizeOfBlock + capacity) % 2^64) := by
          unfold sizeMax sizeOfBlock pageSize at small
          unfold pageRound sizeOfBlock pageSize
          omega
        have start := m.aligned placed
        have top := m.bounded placed
        have elsewhere := m.apart placed
        generalize pageRound ((sizeOfBlock + capacity) % 2^64) = total at rounded top elsewhere
        refine ⟨⟨Nat.zero_le _,rfl,?_,?_,(mem,total),List.mem_singleton.mpr rfl,?_⟩,rfl,rfl,?_,fun r member => ?_⟩
        · simp only [sizeOfBlock]
          omega
        · simp only [sizeOfBlock]
          omega
        · simp only [Within,Block.extent,sizeOfBlock]
          omega
        · simp only [sizeOfBlock]
          omega
        · have around := elsewhere r member
          simp only [Apart,Block.extent,sizeOfBlock]
          omega
  | hosted =>
    simp only at made
    split at made
    · cases made
    · next addr placed =>
      split at made
      · cases made
      · next data given =>
        cases made
        have start := m.aligned given
        have top := m.bounded given
        refine ⟨⟨Nat.zero_le _,rfl,start,top,(data,capacity),?_,?_⟩,rfl,rfl,Nat.le_refl _,fun r member => ?_⟩
        · exact List.mem_cons_of_mem _ (List.mem_singleton.mpr rfl)
        · exact ⟨Nat.le_refl _,Nat.le_refl _⟩
        · exact m.apart given r (List.mem_cons_of_mem _ member)

/-- Where the pointer to the next block has to point -/
def following (count i : Nat) : Option Nat := if i + 1 < count then some (i + 1) else none

/-- The blocks stand in the order they were made in, each linked to the one made after it. -/
structure Formed (mode : Mode) (a : Arena) : Prop where
  head : a.head = some 0
  current : ∃ i, a.current = some i ∧ i < a.blocks.length
  linked : ∀ (i : Nat) (b : Block), a.blocks[i]? = some b → b.next = following a.blocks.length i
  good : ∀ (i : Nat) (b : Block), a.blocks[i]? = some b → b.Good mode
  apart : ∀ (i j : Nat) (b b' : Block), a.blocks[i]? = some b → a.blocks[j]? = some b' → i ≠ j → Apart b.extent b'.extent

theorem chain_linked {blocks : List Block}
    (linked : ∀ (i : Nat) (b : Block), blocks[i]? = some b → b.next = following blocks.length i) (count start : Nat)
    (whole : start + count = blocks.length) (some_left : 0 < count) :
    chain blocks count (some start) = some (List.range' start count) := by
  induction count generalizing start with
  | zero => omega
  | succ count ih =>
    have inside : start < blocks.length := by omega
    have found := List.getElem?_eq_getElem inside
    rw [chain,found,Option.bind_some,linked start _ found,following]
    rcases Nat.eq_zero_or_pos count with none_left | left
    · subst none_left
      rw [if_neg (by omega),chain]
      rfl
    · rw [if_pos (by omega),ih (start + 1) (by omega) left]
      rfl

theorem Formed.chain {a : Arena} (formed : Formed mode a) :
    chain a.blocks a.blocks.length a.head = some (List.range' 0 a.blocks.length) := by
  obtain ⟨i,_,inside⟩ := formed.current
  rw [formed.head]
  exact chain_linked formed.linked a.blocks.length 0 (Nat.zero_add _) (by omega)

theorem Formed.destroy {a : Arena} (formed : Formed mode a) :
    destroy a = .ok (List.range' 0 a.blocks.length) := by
  rw [Arenas.destroy,formed.chain]

theorem Formed.currentBlock {a : Arena} (formed : Formed mode a) :
    ∃ i b, a.current = some i ∧ a.blocks[i]? = some b ∧ a.currentBlock = some (i,b) := by
  obtain ⟨i,current,inside⟩ := formed.current
  refine ⟨i,a.blocks[i],current,List.getElem?_eq_getElem inside,?_⟩
  rw [Arena.currentBlock,current,Option.bind_some,List.getElem?_eq_getElem inside,Option.map_some]

/-- Where a region given out is -/
structure Given (a : Arena) (r : Nat × Nat) : Prop where
  aligned : r.1 % 8 = 0
  inside : ∃ (i : Nat) (b : Block), a.blocks[i]? = some b ∧ Within r b.taken

structure Inv (mode : Mode) (s : Arena × List (Nat × Nat)) : Prop where
  formed : Formed mode s.1
  given : ∀ r ∈ s.2, Given s.1 r
  apart : s.2.Pairwise Apart

theorem Inv.sound {s : Arena × List (Nat × Nat)} (inv : Inv mode s) : Sound s := by
  have freed := inv.formed.destroy
  have members : ∀ i, i ∈ List.range' 0 s.1.blocks.length ↔ i < s.1.blocks.length := by
    intro i
    rw [List.mem_range'_1]
    omega
  refine ⟨⟨_,freed,List.nodup_range',members⟩,fun r member => (inv.given r member).aligned,inv.apart,?_⟩
  intro r member
  obtain ⟨i,b,found,inside⟩ := (inv.given r member).inside
  have bound := (List.getElem?_eq_some_iff.mp found).1
  exact ⟨_,i,b,freed,(members i).mpr bound,found,inside.trans (inv.formed.good i b found).taken_within⟩

/-- A block changes in how much of it is used only. -/
theorem Formed.replace {a : Arena} {i used : Nat} {b : Block} (formed : Formed mode a) (found : a.blocks[i]? = some b)
    (good : ({ b with used := used } : Block).Good mode) :
    Formed mode { a with blocks := a.blocks.set i { b with used := used } } := by
  have similar : ∀ (j : Nat) (c' : Block), (a.blocks.set i { b with used := used })[j]? = some c' →
      ∃ c : Block, a.blocks[j]? = some c ∧ c'.next = c.next ∧ c'.extent = c.extent ∧ c'.Good mode := by
    intro j c' found'
    rw [List.getElem?_set] at found'
    split at found'
    · next same =>
      subst same
      split at found'
      · cases found'
        exact ⟨b,found,rfl,rfl,good⟩
      · cases found'
    · exact ⟨c',found',rfl,rfl,formed.good j c' found'⟩
  obtain ⟨c,current,inside⟩ := formed.current
  refine ⟨formed.head,⟨c,current,by rw [List.length_set]; exact inside⟩,fun j c' found' => ?_,fun j c' found' => ?_,?_⟩
  · obtain ⟨c,old,next,_,_⟩ := similar j c' found'
    rw [next,List.length_set]
    exact formed.linked j c old
  · obtain ⟨_,_,_,_,good'⟩ := similar j c' found'
    exact good'
  · intro j k c' d' found' found'' different
    obtain ⟨c,old,_,extent,_⟩ := similar j c' found'
    obtain ⟨d,old',_,extent',_⟩ := similar k d' found''
    rw [extent,extent']
    exact formed.apart j k c d old old' different

/-- What an allocation has to keep, for the arena after it and the region it gives out -/
structure Extends (mode : Mode) (a a' : Arena) (r : Nat × Nat) : Prop where
  formed : Formed mode a'
  given : Given a' r
  keeps : ∀ q, Given a q → Given a' q
  apart : ∀ q, Given a q → Apart r q

theorem Inv.extends {a a' : Arena} {regions : List (Nat × Nat)} {r : Nat × Nat} (inv : Inv mode (a,regions))
    (extended : Extends mode a a' r) : Inv mode (a',r :: regions) := by
  refine ⟨extended.formed,fun q member => ?_,List.pairwise_cons.mpr ⟨fun q member => ?_,inv.apart⟩⟩
  · rcases List.mem_cons.mp member with same | older
    · rw [same]
      exact extended.given
    · exact extended.keeps q (inv.given q older)
  · exact extended.apart q (inv.given q member)

/-- The current block has room. -/
theorem Formed.cut {a : Arena} {i size : Nat} {b : Block} (formed : Formed mode a) (found : a.blocks[i]? = some b)
    (small : ¬sizeMax - 7 < size) (fits : alignedSize size ≤ b.room) :
    Extends mode a { a with blocks := a.blocks.set i { b with used := b.used + alignedSize size } }
      (b.data + b.used,size) := by
  obtain ⟨covers,whole⟩ := alignedSize_le small
  have good := formed.good i b found
  have within := good.fits
  have multiple := good.whole
  have start := good.aligned
  rw [good.room] at fits
  have bound := (List.getElem?_eq_some_iff.mp found).1
  have after : ({ b with used := b.used + alignedSize size } : Block).Good mode := by
    refine ⟨?_,?_,start,good.bounded,good.owned⟩
    · show b.used + alignedSize size ≤ b.capacity
      omega
    · show (b.used + alignedSize size) % 8 = 0
      omega
  have placed : (a.blocks.set i { b with used := b.used + alignedSize size })[i]? =
      some { b with used := b.used + alignedSize size } := by
    rw [List.getElem?_set_self bound]
  refine ⟨formed.replace found after,⟨?_,i,_,placed,?_⟩,fun q given => ⟨given.aligned,?_⟩,fun q given => ?_⟩
  · show (b.data + b.used) % 8 = 0
    omega
  · simp only [Within,Block.taken]
    omega
  · obtain ⟨j,c,old,inside⟩ := given.inside
    rcases Nat.decEq i j with different | same
    · exact ⟨j,c,by rw [List.getElem?_set_ne different]; exact old,inside⟩
    · subst same
      rw [found] at old
      cases old
      refine ⟨i,_,placed,inside.trans ?_⟩
      simp only [Within,Block.taken]
      omega
  · obtain ⟨j,c,old,inside⟩ := given.inside
    rcases Nat.decEq i j with different | same
    · refine (formed.apart i j b c found old different).within ?_ (inside.trans (formed.good j c old).taken_within)
      simp only [Within,Block.extent]
      omega
    · subst same
      rw [found] at old
      cases old
      simp only [Within,Block.taken] at inside
      simp only [Apart]
      omega

/-- The current block, the last of the list, has no room, and a new block comes after it. -/
theorem Formed.grow {a : Arena} {i size capacity : Nat} {b new : Block} (formed : Formed mode a)
    (found : a.blocks[i]? = some b) (last : b.next = none) (small : ¬sizeMax - 7 < size)
    (fresh : Fresh mode (a.live mode) capacity new) (enough : alignedSize size ≤ capacity) :
    Extends mode a { a with
        blocks := a.blocks.set i { b with next := some a.blocks.length } ++ [{ new with used := alignedSize size }]
        current := some a.blocks.length } (new.data,size) := by
  obtain ⟨covers,whole⟩ := alignedSize_le small
  have large := fresh.large
  have bound := (List.getElem?_eq_some_iff.mp found).1
  have ends : i + 1 = a.blocks.length := by
    have linked := formed.linked i b found
    rw [last,following] at linked
    split at linked
    · cases linked
    · omega
  have elsewhere : ∀ (j : Nat) (c : Block), a.blocks[j]? = some c → Apart new.extent c.extent := by
    intro j c old
    obtain ⟨r,member,inside⟩ := (formed.good j c old).owned
    have live : r ∈ a.live mode := by
      exact List.mem_cons_of_mem _ (List.mem_flatMap.mpr ⟨c,List.mem_of_getElem? old,member⟩)
    exact (fresh.apart r live).within ⟨Nat.le_refl _,Nat.le_refl _⟩ inside
  have good : ({ new with used := alignedSize size } : Block).Good mode :=
    ⟨Nat.le_trans enough large,whole,fresh.good.aligned,fresh.good.bounded,fresh.good.owned⟩
  generalize stored : a.blocks.set i { b with next := some a.blocks.length } ++
    [{ new with used := alignedSize size }] = blocks
  have count : blocks.length = a.blocks.length + 1 := by
    rw [← stored,List.length_append,List.length_set,List.length_singleton]
  have newest : a.blocks.length < blocks.length := by omega
  have placed : blocks[a.blocks.length]? = some { new with used := alignedSize size } := by
    rw [← stored,List.getElem?_append_right (by rw [List.length_set]),List.length_set,Nat.sub_self]
    rfl
  have kept : ∀ (j : Nat) (c : Block), a.blocks[j]? = some c → ∃ c' : Block, blocks[j]? = some c' ∧ c'.taken = c.taken ∧
      c'.extent = c.extent ∧ c'.Good mode ∧ c'.next = following blocks.length j := by
    intro j c old
    have inside := (List.getElem?_eq_some_iff.mp old).1
    have good' := formed.good j c old
    rw [count,following,if_pos (by omega),← stored,List.getElem?_append_left (by rw [List.length_set]; exact inside)]
    rcases Nat.decEq i j with different | same
    · refine ⟨c,by rw [List.getElem?_set_ne different]; exact old,rfl,rfl,good',?_⟩
      rw [formed.linked j c old,following,if_pos (by omega)]
    · subst same
      rw [found] at old
      cases old
      refine ⟨_,List.getElem?_set_self bound,rfl,rfl,⟨good'.fits,good'.whole,good'.aligned,good'.bounded,good'.owned⟩,?_⟩
      rw [ends]
  have back : ∀ (j : Nat) (c' : Block), blocks[j]? = some c' → j = a.blocks.length ∨ ∃ c : Block, a.blocks[j]? = some c := by
    intro j c' found'
    have inside := (List.getElem?_eq_some_iff.mp found').1
    rcases Nat.lt_or_ge j a.blocks.length with older | newest
    · exact .inr ⟨_,List.getElem?_eq_getElem older⟩
    · exact .inl (by omega)
  have known : ∀ (j : Nat) (c' : Block), blocks[j]? = some c' → j ≠ a.blocks.length → ∃ c : Block, a.blocks[j]? = some c ∧
      c'.extent = c.extent ∧ c'.Good mode ∧ c'.next = following blocks.length j := by
    intro j c' found' older
    obtain ⟨c,old⟩ := (back j c' found').resolve_left older
    obtain ⟨d,found'',_,extent,good',linked⟩ := kept j c old
    rw [found'] at found''
    cases found''
    exact ⟨c,old,extent,good',linked⟩
  refine ⟨⟨formed.head,⟨a.blocks.length,rfl,newest⟩,fun j c' found' => ?_,fun j c' found' => ?_,?_⟩,?_,?_,?_⟩
  · by_cases last' : j = a.blocks.length
    · subst last'
      rw [placed] at found'
      cases found'
      show new.next = following blocks.length _
      rw [following,if_neg (by omega)]
      exact fresh.last
    · obtain ⟨_,_,_,_,linked⟩ := known j c' found' last'
      exact linked
  · by_cases last' : j = a.blocks.length
    · subst last'
      rw [placed] at found'
      cases found'
      exact good
    · obtain ⟨_,_,_,good',_⟩ := known j c' found' last'
      exact good'
  · intro j k c' d' found' found'' different
    by_cases last' : j = a.blocks.length
    · subst last'
      rw [placed] at found'
      cases found'
      obtain ⟨d,old,extent,_⟩ := known k d' found'' (Ne.symm different)
      rw [extent]
      exact elsewhere k d old
    · obtain ⟨c,old,extent,_⟩ := known j c' found' last'
      rw [extent]
      by_cases last'' : k = a.blocks.length
      · subst last''
        rw [placed] at found''
        cases found''
        exact (elsewhere j c old).symm
      · obtain ⟨d,old',extent',_⟩ := known k d' found'' last''
        rw [extent']
        exact formed.apart j k c d old old' different
  · exact ⟨fresh.good.aligned,_,_,placed,Nat.le_refl _,Nat.add_le_add_left covers _⟩
  · intro q given
    obtain ⟨j,c,old,inside⟩ := given.inside
    obtain ⟨c',found',taken,_⟩ := kept j c old
    exact ⟨given.aligned,j,c',found',taken ▸ inside⟩
  · intro q given
    obtain ⟨j,c,old,inside⟩ := given.inside
    refine (elsewhere j c old).within ⟨Nat.le_refl _,?_⟩ (inside.trans (formed.good j c old).taken_within)
    show new.data + size ≤ new.data + new.capacity
    omega

/-- Every block is empty again, and none of the old regions counts. -/
theorem Formed.rewind {a a' : Arena} (formed : Formed mode a) (rewound : reset a = .ok a') :
    Inv mode (a',[]) := by
  rw [reset,formed.chain] at rewound
  cases rewound
  have similar : ∀ (j : Nat) (c' : Block), (a.blocks.mapIdx fun i b =>
      if i ∈ List.range' 0 a.blocks.length then { b with used := 0 } else b)[j]? = some c' →
      ∃ c : Block, a.blocks[j]? = some c ∧ c' = { c with used := 0 } := by
    intro j c' found'
    rw [List.getElem?_mapIdx] at found'
    obtain ⟨c,found,same⟩ := Option.map_eq_some_iff.mp found'
    have bound := (List.getElem?_eq_some_iff.mp found).1
    rw [if_pos (by rw [List.mem_range'_1]; omega)] at same
    exact ⟨c,found,same.symm⟩
  obtain ⟨i,current,inside⟩ := formed.current
  refine ⟨⟨formed.head,⟨0,formed.head,?_⟩,fun j c' found' => ?_,fun j c' found' => ?_,?_⟩,?_,.nil⟩
  · show 0 < (List.mapIdx _ a.blocks).length
    rw [List.length_mapIdx]
    omega
  · obtain ⟨c,found,rfl⟩ := similar j c' found'
    show c.next = following (List.mapIdx _ a.blocks).length j
    rw [List.length_mapIdx]
    exact formed.linked j c found
  · obtain ⟨c,found,rfl⟩ := similar j c' found'
    have good := formed.good j c found
    exact ⟨Nat.zero_le _,rfl,good.aligned,good.bounded,good.owned⟩
  · intro j k c' d' found' found'' different
    obtain ⟨c,found,rfl⟩ := similar j c' found'
    obtain ⟨d,old,rfl⟩ := similar k d' found''
    exact formed.apart j k c d found old different
  · intro r member
    cases member

theorem Formed.reset_defined {a : Arena} (formed : Formed mode a) : ∃ a', reset a = .ok a' := by
  rw [reset,formed.chain]
  exact ⟨_,rfl⟩

/-- What one operation keeps -/
theorem Inv.step {s s' : Arena × List (Nat × Nat)} {op : Op} {out : Option Nat} (inv : Inv mode s) (safe : AtEnd s op)
    (stepped : step mode m s op = .ok (out,s')) : Inv mode s' := by
  obtain ⟨a,regions⟩ := s
  cases op with
  | reset =>
    obtain ⟨a',rewound⟩ := inv.formed.reset_defined
    rw [Arenas.step,rewound,Outcome.map_ok] at stepped
    cases stepped
    exact inv.formed.rewind rewound
  | alloc size =>
    obtain ⟨i,b,current,found,now⟩ := inv.formed.currentBlock
    rw [Arenas.step,alloc] at stepped
    split at stepped
    · cases stepped
    · next small =>
      simp only [now] at stepped
      split at stepped
      · next fits =>
        cases stepped
        exact inv.extends (inv.formed.cut found small fits)
      · next full =>
        have last := (safe i b now).resolve_left full
        generalize made : blockNew mode m (a.live mode)
          (if a.blockSize < alignedSize size then alignedSize size else a.blockSize) = new at stepped
        cases new with
        | panic | undefined => cases stepped
        | ok new =>
          cases stepped
          refine inv.extends (inv.formed.grow found last small (blockNew_fresh made) ?_)
          split <;> omega

theorem blockNew_defined {live : List (Nat × Nat)} {capacity : Nat} : blockNew mode m live capacity ≠ .undefined := by
  unfold blockNew
  cases mode with
  | freestanding =>
    simp only
    split
    · exact fun no => by cases no
    · split <;> exact fun no => by cases no
  | hosted =>
    simp only
    split
    · exact fun no => by cases no
    · split <;> exact fun no => by cases no

/-- Nothing is read that is not a block of the arena. -/
theorem Inv.defined {s : Arena × List (Nat × Nat)} (inv : Inv mode s) (op : Op) :
    Arenas.step mode m s op ≠ .undefined := by
  obtain ⟨a,regions⟩ := s
  cases op with
  | reset =>
    obtain ⟨a',rewound⟩ := inv.formed.reset_defined
    rw [Arenas.step,rewound]
    exact fun no => by cases no
  | alloc size =>
    obtain ⟨i,b,current,found,now⟩ := inv.formed.currentBlock
    rw [Arenas.step,alloc]
    split
    · exact fun no => by cases no
    · simp only [now]
      split
      · exact fun no => by cases no
      · generalize made : blockNew mode m (a.live mode)
          (if a.blockSize < alignedSize size then alignedSize size else a.blockSize) = new
        cases new with
        | undefined => exact absurd made blockNew_defined
        | ok | panic => exact fun no => by cases no

theorem first_inv {addr capacity : Nat} {a : Arena} (created : ((blockNew mode m [(addr,sizeOfArena)] capacity).map
    fun block => Arena.mk addr [block] (some 0) (some 0) capacity) = .ok a) : Inv mode (a,[]) := by
  generalize made : blockNew mode m [(addr,sizeOfArena)] capacity = block at created
  cases block with
  | panic | undefined => cases created
  | ok block =>
    cases created
    have fresh := blockNew_fresh made
    have only : ∀ (j : Nat) (c : Block), [block][j]? = some c → j = 0 ∧ c = block := by
      intro j c found
      obtain ⟨bound,same⟩ := List.getElem?_eq_some_iff.mp found
      have zero : j = 0 := by
        rw [List.length_singleton] at bound
        omega
      subst zero
      exact ⟨rfl,same.symm⟩
    refine ⟨⟨rfl,⟨0,rfl,Nat.one_pos⟩,fun j c found => ?_,fun j c found => ?_,?_⟩,?_,.nil⟩
    · obtain ⟨rfl,rfl⟩ := only j c found
      exact fresh.last
    · obtain ⟨_,rfl⟩ := only j c found
      exact fresh.good
    · intro j k c d found found' different
      exact absurd ((only j c found).1.trans (only k d found').1.symm) different
    · intro r member
      cases member

theorem create_inv {initialCapacity : Nat} {a : Arena} (created : create mode m initialCapacity = .ok a) :
    Inv mode (a,[]) := by
  unfold create at created
  cases mode with
  | hosted =>
    generalize m.place [] _ = placed at created
    cases placed with
    | none => cases created
    | some addr => exact first_inv created
  | freestanding =>
    generalize m.place [] _ = placed at created
    cases placed with
    | none => cases created
    | some addr => exact first_inv created

theorem Inv.reached {ops : List Op} {s s' : Arena × List (Nat × Nat)} (inv : Inv mode s)
    (safe : Always (Arenas.step mode m) AtEnd s ops) (later : reached (Arenas.step mode m) s ops = some s') :
    Inv mode s' := by
  induction ops generalizing s with
  | nil =>
    cases later
    exact inv
  | cons op ops ih =>
    obtain ⟨now,after⟩ := always_cons.mp safe
    rw [Library.Lockstep.reached] at later
    split at later
    · next out t stepped => exact ih (inv.step now stepped) (after out t stepped) later
    · cases later

/-- As long as an allocation that the current block has no room for comes only when that is the last block, an arena is
sound after every operation. -/
theorem arena_sound {initialCapacity : Nat} {a : Arena} {ops : List Op}
    (created : create mode m initialCapacity = .ok a) (safe : Always (step mode m) AtEnd (a,[]) ops)
    {before rest : List Op} {s : Arena × List (Nat × Nat)} (split : ops = before ++ rest)
    (run : reached (step mode m) (a,[]) before = some s) : Sound s ∧ ∀ op, step mode m s op ≠ .undefined := by
  have inv : Inv mode s := by
    refine (create_inv created).reached (fun first op later s' same => ?_) run
    exact safe first op (later ++ rest) s' (by rw [split,same,List.append_assoc,List.cons_append])
  exact ⟨inv.sound,inv.defined⟩

/-- The end of the memory in use -/
def top (live : List (Nat × Nat)) : Nat := live.foldr (fun r end_ => max (r.1 + r.2) end_) 4096

theorem le_top {live : List (Nat × Nat)} {r : Nat × Nat} (member : r ∈ live) : r.1 + r.2 ≤ top live := by
  induction live with
  | nil => cases member
  | cons q live ih =>
    rw [top,List.foldr_cons]
    rcases List.mem_cons.mp member with rfl | older
    · exact Nat.le_max_left _ _
    · exact Nat.le_trans (ih older) (Nat.le_max_right _ _)

/-- Memory that is given out upwards -/
def upwards : Allocator where
  place live size := if (top live + 7) / 8 * 8 + size < 2^64 then some ((top live + 7) / 8 * 8) else none
  aligned placed := by
    split at placed
    · cases placed
      exact Nat.mul_mod_left _ _
    · cases placed
  bounded placed := by
    split at placed
    · next fits =>
      cases placed
      exact fits
    · cases placed
  apart placed r member := by
    split at placed
    · cases placed
      have below := le_top member
      omega
    · cases placed

/-- The arena of 8 bytes that the examples below start from -/
def eight : Arena := ⟨4096,[⟨4120,4160,0,8,0,none⟩],some 0,some 0,8⟩

theorem arena_sound_eight : create .hosted upwards 8 = .ok eight ∧ ∃ s,
    reached (step .hosted upwards) (eight,[]) [.alloc 8,.alloc 8,.reset,.alloc 8] = some s ∧ s.2 = [(4160,8)] ∧
    Sound s ∧ ∀ op, step .hosted upwards s op ≠ .undefined := by
  have created : create .hosted upwards 8 = .ok eight := by decide
  have safe : Always (step .hosted upwards) AtEnd (eight,[]) [.alloc 8,.alloc 8,.reset,.alloc 8] := by
    refine always_cons.mpr ⟨fun i b now => ?_,fun _ _ stepped => ?_⟩
    · cases now
      exact .inl (by decide)
    · cases stepped
      refine always_cons.mpr ⟨fun i b now => ?_,fun _ _ stepped => ?_⟩
      · cases now
        exact .inr rfl
      · cases stepped
        refine always_cons.mpr ⟨trivial,fun _ _ stepped => always_cons.mpr ⟨fun i b now => ?_,?_⟩⟩
        · cases stepped
          cases now
          exact .inl (by decide)
        · intro _ _ _ before _ _ _ same _
          cases before <;> cases same
  exact ⟨created,_,rfl,rfl,arena_sound created safe (List.append_nil _).symm rfl⟩

/-- After a reset, an allocation that does not fit in the first block makes the arena lose the second. -/
theorem rewound_loses : create .hosted upwards 8 = .ok eight ∧ ∃ s,
    reached (step .hosted upwards) (eight,[]) [.alloc 8,.alloc 8,.reset,.alloc 16] = some s ∧
    s.1.blocks.length = 3 ∧ destroy s.1 = .ok [0,2] ∧ ¬Sound s := by
  refine ⟨by decide,_,rfl,by decide,by decide,fun sound => ?_⟩
  obtain ⟨freed,same,_,all⟩ := sound.frees
  cases same
  exact absurd ((all 1).mpr (by decide)) (by decide)

end Oscan.Runtime.Arenas
