import Oscan.Library.Control

/-! The control code that both backends emit, in terms of the arenas and the loops that are open
where it stands. -/
namespace Oscan.Control
open Library.Control

inductive Backend where
  | c | object
deriving DecidableEq

/-- The arenas and the loops that are open at a point of a run, those of the callers included. -/
structure Frame where
  arenas : Nat
  loops : Nat

inductive Event where
  | create (depth : Nat)
  | destroy (depth : Nat)
  | work (depth : Nat)
  | jump (source target : Nat)
  | next (level : Nat)
  | leave (level : Nat)
  | broke (wanted : Nat) (left : Option Nat)
  | continued (wanted : Nat) (resumed : Option Nat)
deriving DecidableEq

abbrev Emitted := Code Event Frame

/-- Where a jump out of a loop or a switch lands; a switch has no level. -/
structure Target where
  arenas : Nat
  level : Option Nat

structure Scope where
  base : Frame
  here : Frame
  breakTo : Option Target
  continueTo : Option Target

namespace Scope

def function (base : Frame) : Scope := ⟨base,base,none,none⟩

/-- The level of a loop of the source in this activation. -/
def level (s : Scope) (level : Nat) : Nat := s.base.loops + level

def enter (s : Scope) (level : Nat) : Scope :=
  let target : Target := ⟨s.here.arenas,some (s.level level)⟩
  { s with here := ⟨s.here.arenas,s.level level⟩, breakTo := some target, continueTo := some target }

def switch (s : Scope) : Scope := { s with breakTo := some ⟨s.here.arenas,none⟩ }

def arena (s : Scope) : Scope := { s with here := ⟨s.here.arenas + 1,s.here.loops⟩ }

/-- The evaluation of some text: it allocates from the arena in scope and makes any number of calls. -/
def evaluate (s : Scope) : Emitted :=
  .seq (.act (.work s.here.arenas)) (.loop .skip (.seq (.choice .brk .skip) (.call s.here)) .skip)

def loop (s : Scope) (level : Nat) (head body : Emitted) : Emitted :=
  .seq (.loop head body (.act (.next (s.level level)))) (.act (.leave (s.level level)))

/-- The exit of a loop whose test fails. -/
def test : Emitted := .choice .brk .skip

def inArena (s : Scope) (body : Emitted) : Emitted :=
  .seq (.act (.create (s.here.arenas + 1))) (.seq body (.act (.destroy (s.here.arenas + 1))))

/-- Outside of every loop the C compiler rejects the jump. -/
def breakOut (s : Scope) (level : Nat) : Emitted :=
  match s.breakTo with
  | none => .brk
  | some target => .seq (.act (.jump s.here.arenas target.arenas))
      (.seq (.act (.broke (s.level level) target.level)) .brk)

def continueLoop (s : Scope) (level : Nat) : Emitted :=
  match s.continueTo with
  | none => .cont
  | some target => .seq (.act (.jump s.here.arenas target.arenas))
      (.seq (.act (.continued (s.level level) target.level)) .cont)

def returnOut (s : Scope) : Emitted := .seq (.act (.jump s.here.arenas s.base.arenas)) .ret

end Scope

/-- The native jump out of a loop leaves the loop of a level. -/
def Binds (s : Scope) (level : Nat) (target : Option Target) : Prop :=
  target.map (·.level) = some (some (s.level level))

/-- A judgement on emitted code that every construct of the backends keeps; a strict one asks that
the jumps are bound to the loops that they are written in. -/
structure Closed (strict : Prop) (Good : Scope → Emitted → Prop) : Prop where
  skip : ∀ s : Scope, Good s .skip
  evaluate : ∀ s : Scope, Good s s.evaluate
  seq : ∀ (s : Scope) a b, Good s a → Good s b → Good s (.seq a b)
  choice : ∀ (s : Scope) a b, Good s a → Good s b → Good s (.choice a b)
  exit : ∀ (s : Scope) level, Good (s.enter level) .brk
  loop : ∀ (s : Scope) level head body, Good s head → Good (s.enter level) body → Good s (s.loop level head body)
  switch : ∀ (s : Scope) body, Good s.switch body → Good s (.switch body)
  arena : ∀ (s : Scope) body, Good s.arena body → Good s (s.inArena body)
  breakOut : ∀ (s : Scope) level, (strict → Binds s level s.breakTo) → Good s (s.breakOut level)
  continueLoop : ∀ (s : Scope) level, (strict → Binds s level s.continueTo) → Good s (s.continueLoop level)
  returnOut : ∀ s : Scope, Good s s.returnOut

theorem Closed.test {strict : Prop} {Good : Scope → Emitted → Prop} (closed : Closed strict Good) (s : Scope)
    (level : Nat) : Good (s.enter level) Scope.test :=
  closed.choice _ _ _ (closed.exit s level) (closed.skip _)

/-- A place in the source: the number of loops around it, and whether a break and a continue at it
are bound to the last of them. -/
structure Spot where
  level : Nat
  breaks : Bool
  continues : Bool

namespace Spot

def inLoop (spot : Spot) : Spot := ⟨spot.level + 1,true,true⟩

/-- A place whose code may stand anywhere. -/
def adrift (spot : Spot) : Spot := ⟨spot.level,false,false⟩

def inSwitch (spot : Spot) : Spot := ⟨spot.level,false,spot.continues⟩

def Fits (spot : Spot) (s : Scope) : Prop :=
  (spot.breaks → Binds s spot.level s.breakTo) ∧ (spot.continues → Binds s spot.level s.continueTo)

theorem fits_adrift (spot : Spot) (s : Scope) : spot.adrift.Fits s := ⟨nofun,nofun⟩

theorem fits_enter (spot : Spot) (s : Scope) : spot.inLoop.Fits (s.enter spot.inLoop.level) :=
  ⟨fun _ => rfl,fun _ => rfl⟩

theorem Fits.switch {spot : Spot} {s : Scope} (fits : spot.Fits s) : spot.inSwitch.Fits s.switch :=
  ⟨nofun,fits.2⟩

theorem Fits.arena {spot : Spot} {s : Scope} (fits : spot.Fits s) : spot.Fits s.arena := fits

end Spot

end Oscan.Control
