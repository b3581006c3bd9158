import Oscan.Control.Activation
import Oscan.Lower
import Oscan.Semantic.Analyze

/-! Loop control: what follows a break and a continue. The C backend leaves both to C, whose break
also leaves a switch and whose loops reach over the condition of a `while`. -/
namespace Oscan.Control
open Library.Control

/-- A break is followed by the exit of the loop that it wants to leave, and a continue by the next
iteration of the loop that it wants to resume. -/
def follow : Option Event → Event → Option (Option Event)
  | some due,e => if e = due then some none else none
  | none,.broke wanted _ => some (some (.leave wanted))
  | none,.continued wanted _ => some (some (.next wanted))
  | none,_ => some none

def LoopControl (events : List Event) : Prop := ∃ due, events.foldlM follow none = some due

/-- The event that is due behind a jump to the target. -/
def Due (event : Nat → Event) (target : Target) (due : Option Event) : Prop :=
  due = none ∨ ∃ level, target.level = some level ∧ due = some (event level)

def demanded (s : Scope) : Post (Option Event) where
  done due := due = none
  broke due := ∀ target ∈ s.breakTo, Due .leave target due
  continued due := ∀ target ∈ s.continueTo, Due .next target due
  returned due := due = none

def Settled (_ : Frame) (due : Option Event) : Prop := due = none

abbrev Demanded : Scope → Emitted → Prop := Sound follow Settled demanded

theorem follow_quiet {e : Event} {Q : Post (Option Event)} {calls : Calls Event Frame}
    (quiet : follow none e = some none) (ends : Q.done none) :
    Triple calls follow (· = none) (.act e) Q := by
  refine .act fun due settled => ?_
  rw [settled]
  exact ⟨none,quiet,ends⟩

theorem follow_due {event : Nat → Event} {level arenas : Nat} {Q : Post (Option Event)}
    {calls : Calls Event Frame} (quiet : follow none (event level) = some none) (ends : Q.done none) :
    Triple calls follow (Due event ⟨arenas,some level⟩) (.act (event level)) Q := by
  refine .act fun due after => ⟨none,?_,ends⟩
  rcases after with rfl | ⟨_,same,rfl⟩
  · exact quiet
  · cases same
    exact if_pos rfl

theorem demanded_closed : Closed True Demanded where
  skip s calls _ := .skip fun _ settled => settled
  evaluate s calls meets := by
    refine .seq (R := Settled s.here) (follow_quiet rfl rfl) ?_
    refine .loop (R := Settled s.here) (J := Settled s.here) (.skip fun _ settled => settled) ?_
      (.skip fun _ settled => settled)
    exact .seq (R := Settled s.here) (.choice (.brk fun _ settled => settled) (.skip fun _ settled => settled))
      (.call meets (fun _ settled => settled) fun _ settled => settled)
  seq s a b first second calls meets := .seq (first calls meets) (second calls meets)
  choice s a b first second calls meets := .choice (first calls meets) (second calls meets)
  exit s level calls _ := .brk fun _ settled _ _ => .inl settled
  loop s level head body first inside calls meets := by
    let target : Target := ⟨s.here.arenas,some (s.level level)⟩
    refine .seq (R := Due .leave target) (.loop (R := Settled s.here) (J := Due .next target) ?_ ?_
      (follow_due rfl rfl)) (follow_due rfl rfl)
    · refine (first calls meets).imp (fun _ settled => settled) fun o due ended => ?_
      cases o with
      | done | broke | continued | returned | cut => exact ended
    · refine (inside calls meets).imp (fun _ settled => settled) fun o due ended => ?_
      cases o with
      | done => exact .inl ended
      | broke | continued => exact ended _ rfl
      | returned | cut => exact ended
  switch s body inside calls meets := by
    refine .switch ((inside calls meets).imp (fun _ settled => settled) fun o due ended => ?_)
    cases o with
    | done | continued | returned | cut => exact ended
    | broke =>
      rcases ended _ rfl with settled | ⟨_,level,_⟩
      · exact settled
      · cases level
  arena s body inside calls meets := by
    refine .seq (R := Settled s.here) (follow_quiet rfl rfl)
      (.seq (R := Settled s.here) ?_ (follow_quiet rfl rfl))
    refine (inside calls meets).imp (fun _ settled => settled) fun o due ended => ?_
    cases o with
    | done | broke | continued | returned | cut => exact ended
  breakOut s level bound calls _ := by
    obtain ⟨target,inside,same⟩ := Option.map_eq_some_iff.mp (bound trivial)
    simp only [Scope.breakOut,inside]
    refine .seq (R := Settled s.here) (follow_quiet rfl rfl)
      (.seq (R := (· = some (.leave (s.level level)))) (.act fun due settled => ?_) (.brk fun due after other member => ?_))
    · rw [show due = none from settled]
      exact ⟨_,rfl,rfl⟩
    · cases inside.symm.trans member
      exact .inr ⟨_,same,after⟩
  continueLoop s level bound calls _ := by
    obtain ⟨target,inside,same⟩ := Option.map_eq_some_iff.mp (bound trivial)
    simp only [Scope.continueLoop,inside]
    refine .seq (R := Settled s.here) (follow_quiet rfl rfl)
      (.seq (R := (· = some (.next (s.level level)))) (.act fun due settled => ?_) (.cont fun due after other member => ?_))
    · rw [show due = none from settled]
      exact ⟨_,rfl,rfl⟩
    · cases inside.symm.trans member
      exact .inr ⟨_,same,after⟩
  returnOut s calls _ :=
    .seq (R := Settled s.here) (follow_quiet rfl rfl) (.ret fun _ settled => settled)

private def flat : Span := ⟨0,0⟩

private def outside : Frame := ⟨0,0⟩

/-- `enum E { A } fn! main() { while true { match E::A { E::A => { break; } }; } }` -/
def matching : Ast.Program :=
  ⟨[.enum ⟨"E",[⟨"A",[],flat⟩],flat⟩,.fn ⟨"main",[],none,.mk [.whileStmt (.boolLit true flat)
    (.mk [.expr (.matchExpr (.enumConstructor "E" "A" [] flat)
      [.mk (.enum "E" "A" [] flat) (.block (.mk [.breakStmt flat] none flat)) flat] flat) flat] none flat) flat]
    none flat,false,flat⟩]⟩

/-- `main` of `matching` as it is lowered -/
def matchingMain : Ir.FnDef :=
  ⟨"main",[],.unit,.mk [.whileStmt (.boolLit true flat)
    (.mk [.expr (.matchExpr (.enumConstructor "E" "A" [] (.enum "E") flat)
      [.mk (.enum "E" "A" [] flat) (.block (.mk [.breakStmt flat] none flat)) flat] .unit flat) flat] none flat) flat]
    none flat,false,flat⟩

end Oscan.Control
