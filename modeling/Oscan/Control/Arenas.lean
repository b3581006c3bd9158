import Oscan.Control.Activation
import Oscan.Lower
import Oscan.Semantic.Analyze

/-! Arena blocks: the arena of a block is created in front of it and destroyed behind it, and by
nothing else. A jump that leaves the block leaves its arena alive. -/
namespace Oscan.Control
open Library.Control

/-- The number of arena blocks around the point that control is at. -/
def locate (depth : Nat) : Event → Option Nat
  | .create k => if k = depth + 1 then some k else none
  | .destroy k => if k = depth then some (depth - 1) else none
  | .work k => if k = depth then some depth else none
  | .jump source target => if source = depth then some target else none
  | _ => some depth

/-- The number of live arenas. Control inside of `k` arena blocks has `k` of them, the arena that is
allocated from is the last, and it is also the one to be destroyed. -/
def watch (live : Nat) : Event → Option Nat
  | .create k => if k = live + 1 then some k else none
  | .destroy k => if k = live then some (live - 1) else none
  | .work k => if k = live then some live else none
  | .jump _ target => if target = live then some live else none
  | _ => some live

/-- A run keeps its arenas in balance when the watch accepts it and none is left at a return. -/
def Balanced (base : Frame) (events : List Event) (o : Outcome) : Prop :=
  ∃ live, events.foldlM watch base.arenas = some live ∧
    (o = .done ∨ o = .returned → live = base.arenas)

/-- Where control is behind each way out of some code. -/
def located (s : Scope) : Post Nat where
  done depth := depth = s.here.arenas
  broke depth := ∀ target ∈ s.breakTo, depth = target.arenas
  continued depth := ∀ target ∈ s.continueTo, depth = target.arenas
  returned depth := depth = s.base.arenas

def Standing (frame : Frame) (depth : Nat) : Prop := depth = frame.arenas

abbrev Located : Scope → Emitted → Prop := Sound locate Standing located

theorem located_jump {s : Scope} (target : Nat) (e : Event) (quiet : ∀ depth, locate depth e = some depth)
    {last : Emitted} {Q : Post Nat} {calls : Calls Event Frame}
    (ending : Triple calls locate (· = target) last Q) :
    Triple calls locate (Standing s.here) (.seq (.act (.jump s.here.arenas target)) (.seq (.act e) last)) Q := by
  refine .seq (R := (· = target)) (.act fun depth here => ⟨target,if_pos here.symm,rfl⟩) ?_
  exact .seq (.act fun depth there => ⟨depth,quiet depth,there⟩) ending

theorem located_closed : Closed False Located where
  skip s calls _ := .skip fun _ here => here
  evaluate s calls meets := by
    refine .seq (R := Standing s.here) (.act fun depth here => ⟨depth,if_pos here.symm,here⟩) ?_
    refine .loop (R := Standing s.here) (J := Standing s.here) (.skip fun _ here => here) ?_
      (.skip fun _ here => here)
    exact .seq (R := Standing s.here) (.choice (.brk fun _ here => here) (.skip fun _ here => here))
      (.call meets (fun _ here => here) fun _ here => here)
  seq s a b first second calls meets := .seq (first calls meets) (second calls meets)
  choice s a b first second calls meets := .choice (first calls meets) (second calls meets)
  exit s level calls _ := .brk fun _ here _ target => by
    cases target
    exact here
  loop s level head body first inside calls meets := by
    refine .seq (R := Standing s.here) (.loop (J := Standing s.here) (first calls meets) ?_ ?_)
      (.act fun depth here => ⟨depth,rfl,here⟩)
    · refine (inside calls meets).imp (fun _ here => here) fun o depth ended => ?_
      cases o with
      | done | returned | cut => exact ended
      | broke | continued => exact ended _ rfl
    · exact .act fun depth here => ⟨depth,rfl,here⟩
  switch s body inside calls meets := by
    refine .switch ((inside calls meets).imp (fun _ here => here) fun o depth ended => ?_)
    cases o with
    | done | continued | returned | cut => exact ended
    | broke => exact ended _ rfl
  arena s body inside calls meets := by
    refine .seq (R := Standing s.arena.here) (.act fun depth here => ?_) (.seq (R := Standing s.arena.here)
      ((inside calls meets).imp (fun _ here => here) fun o depth ended => ?_) (.act fun depth here => ?_))
    · have next : s.here.arenas + 1 = depth + 1 := congrArg (· + 1) here.symm
      exact ⟨_,if_pos next,rfl⟩
    · cases o with
      | done | broke | continued | returned | cut => exact ended
    · refine ⟨depth - 1,if_pos here.symm,?_⟩
      rw [show depth = s.here.arenas + 1 from here]
      rfl
  breakOut s level _ calls _ := by
    unfold Scope.breakOut
    split
    · next outside =>
      exact .brk fun _ _ target member => nomatch outside.symm.trans member
    · next target inside =>
      refine located_jump target.arenas _ (fun _ => rfl) (.brk fun depth there other member => ?_)
      cases inside.symm.trans member
      exact there
  continueLoop s level _ calls _ := by
    unfold Scope.continueLoop
    split
    · next outside =>
      exact .cont fun _ _ target member => nomatch outside.symm.trans member
    · next target inside =>
      refine located_jump target.arenas _ (fun _ => rfl) (.cont fun depth there other member => ?_)
      cases inside.symm.trans member
      exact there
  returnOut s calls _ := by
    exact .seq (R := (· = s.base.arenas)) (.act fun depth here => ⟨s.base.arenas,if_pos here.symm,rfl⟩)
      (.ret fun _ there => there)

/-- Along a run the count of the live arenas agrees with the place of control up to the first jump
that leaves an arena block. -/
theorem watch_located {events : List Event} {depth last : Nat} (tracked : events.foldlM locate depth = some last) :
    (∀ source target, .jump source target ∈ events → source = target) ∧ events.foldlM watch depth = some last ∨
      (∃ source target, .jump source target ∈ events ∧ source ≠ target) ∧ events.foldlM watch depth = none := by
  induction events generalizing depth with
  | nil => exact .inl ⟨nofun,tracked⟩
  | cons e events ih =>
    simp only [List.foldlM_cons,Option.bind_eq_bind] at tracked ⊢
    rw [Option.bind_eq_some_iff] at tracked
    obtain ⟨middle,stepped,rest⟩ := tracked
    by_cases leaves : ∃ source target, e = .jump source target ∧ source ≠ target
    · obtain ⟨source,target,rfl,apart⟩ := leaves
      refine .inr ⟨⟨source,target,List.mem_cons_self,apart⟩,?_⟩
      have here : source = depth := by
        by_contra elsewhere
        exact nomatch (if_neg elsewhere).symm.trans stepped
      have lost : watch depth (.jump source target) = none :=
        if_neg fun there => apart (here.trans there.symm)
      rw [lost]
      rfl
    · have same : watch depth e = some middle := by
        cases e with
        | jump source target =>
          have stays : source = target := by
            by_contra apart
            exact leaves ⟨source,target,rfl,apart⟩
          subst stays
          by_cases here : source = depth
          · exact (if_pos here).trans ((congrArg some here.symm).trans ((if_pos here).symm.trans stepped))
          · exact nomatch (if_neg here).symm.trans stepped
        | _ => exact stepped
      simp only [same,Option.bind_some]
      rcases ih rest with ⟨stays,watched⟩ | ⟨⟨source,target,member,apart⟩,lost⟩
      · refine .inl ⟨fun source target member => ?_,watched⟩
        rcases List.mem_cons.mp member with rfl | later
        · by_contra apart
          exact leaves ⟨source,target,rfl,apart⟩
        · exact stays source target later
      · exact .inr ⟨⟨source,target,List.mem_cons_of_mem _ member,apart⟩,lost⟩

/-- In both backends a run keeps its arenas in balance exactly when no jump of it (a break, a
continue, a return or a try that returns its error) leaves an arena block. -/
theorem arenas_balanced_iff {backend : Backend} {program : Ir.Program} {f : Ir.FnDef}
    (member : f ∈ program.fnDefs) {base : Frame} {events : List Event} {o : Outcome}
    (run : Activation backend program f base events o) :
    Balanced base events o ↔ ∀ source target, .jump source target ∈ events → source = target := by
  obtain ⟨last,tracked,ended⟩ :=
    run.tracked (s := base.arenas) located_closed (fun _ => rfl) (fun _ => rfl) (fun _ _ => False.elim) member rfl
  rcases watch_located tracked with ⟨stays,watched⟩ | ⟨⟨source,target,member,apart⟩,lost⟩
  · refine ⟨fun _ => stays,fun _ => ⟨last,watched,fun way => ?_⟩⟩
    rcases way with rfl | rfl <;> exact ended
  · constructor
    · rintro ⟨live,watched,-⟩
      rw [lost] at watched
      cases watched
    · exact fun stays => absurd (stays source target member) apart

private def ground : Span := ⟨0,0⟩

private def bottom : Frame := ⟨0,0⟩

/-- `fn! main() { arena { if true { return; }; }; }` -/
def leaving : Ast.Program :=
  ⟨[.fn ⟨"main",[],none,.mk [.expr (.arena (.mk [.expr (.ifExpr (.boolLit true ground)
    (.mk [.returnStmt none ground] none ground) none ground) ground] none ground) ground) ground] none ground,
    false,ground⟩]⟩

/-- `main` of `leaving` as it is lowered -/
def leavingMain : Ir.FnDef :=
  ⟨"main",[],.unit,.mk [.expr (.arena (.mk [.expr (.ifExpr (.boolLit true ground)
    (.mk [.returnStmt none ground] none ground) none .unit ground) ground] none ground) ground) ground] none ground,
    false,ground⟩

theorem arenas_balanced_iff_falling : ∃ program events,
    Activation .c program leavingMain bottom events .done ∧ Balanced bottom events .done := by
  let program : Ir.Program := ⟨[],[],[],[],[],[],[],[],[leavingMain]⟩
  have run : Activation .c program leavingMain bottom _ .done :=
    ⟨_,0,rfl,.seq (.seq (.seq (.seq .act (.seq (.seq (.seq (.seq (.seq (evaluate_quiet _ _)
      (.seq (evaluate_quiet _ _) (.second (evaluate_quiet _ _)))) (evaluate_quiet _ _)) (evaluate_quiet _ _))
      (evaluate_quiet _ _)) .act)) (evaluate_quiet _ _)) (evaluate_quiet _ _)) .skip⟩
  refine ⟨program,_,run,(arenas_balanced_iff List.mem_cons_self run).mpr fun source target member => ?_⟩
  simp at member

/-- The `return` inside the arena block runs past the destruction in both backends. -/
theorem leaving_leaks : ∃ info program events, Semantic.analyze leaving = .ok info ∧
    lowerProgram leaving info = some program ∧ program.fnDefs = [leavingMain] ∧
    (∀ backend, Activation backend program leavingMain bottom events .returned) ∧
    ¬ Balanced bottom events .returned := by
  refine ⟨_,_,[.create 1,.work 1,.work 1,.jump 1 0],rfl,rfl,rfl,fun backend => ?_,?_⟩
  · cases backend with
    | c =>
      refine ⟨_,0,rfl,?_⟩
      exact .stop (.stop (.stop (.seq .act (.stop (.stop (.stop (.stop (.seq (evaluate_quiet _ _)
        (.seq (evaluate_quiet _ _) (.first (.stop (.seq .skip (.seq .act .ret)) nofun)))) nofun) nofun)
        nofun) nofun)) nofun) nofun) nofun
    | object =>
      refine ⟨_,0,⟨1,rfl⟩,?_⟩
      exact .stop (.stop (.stop (.seq .act (.stop (.stop (.stop (.seq (evaluate_quiet _ _)
        (.seq (evaluate_quiet _ _) (.first (.seq .skip (.seq .act .ret))))) nofun) nofun)
        nofun)) nofun) nofun) nofun
  · rintro ⟨live,watched,-⟩
    cases watched

end Oscan.Control
