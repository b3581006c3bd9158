import Mathlib.Data.Option.Basic

/-! Loops that count: before each turn a header looks at the counter and the state, and yields the
value of the turn or ends the loop. Two of them run alike when their headers do. -/
namespace Oscan.Library.Counted

variable {σ ν : Type}

/-- No result is an evaluation that panics or does not end; no value is the end of the loop. -/
abbrev Header (σ ν : Type) := Int → σ → Option (Option ν × σ)

/-- No result is a body that leaves the loop. -/
abbrev Body (σ ν : Type) := ν → σ → Option σ

section
variable (header : Header σ ν) (body : Body σ ν) (next : Int → Int)

/-- From one header to the next. -/
def advance (p : Int × σ) : Option (Int × σ) :=
  (header p.1 p.2).bind fun r => r.1.bind fun v => (body v r.2).map fun s => (next p.1,s)

/-- The counter and the state at the header of a turn. -/
def visited (i : Int) (s : σ) : Nat → Option (Int × σ)
  | 0 => some (i,s)
  | k + 1 => (visited i s k).bind (advance header body next)

/-- What the header of a turn yields. -/
def turn (i : Int) (s : σ) (k : Nat) : Option (Int × Option ν × σ) :=
  (visited header body next i s k).bind fun p => (header p.1 p.2).map fun r => (p.1,r)

end

variable {header header' : Header σ ν} {body : Body σ ν} {next : Int → Int} {i : Int} {s t : σ}

theorem advance_congr {p q : Int × σ} (counter : p.1 = q.1) (same : header p.1 p.2 = header' q.1 q.2) :
    advance header body next p = advance header' body next q := by
  rw [advance,advance,same,counter]

theorem visited_congr (start : header i s = header' i t) {n : Nat}
    (agree : ∀ k < n, ∀ j u, visited header' body next i t (k + 1) = some (j,u) → header j u = header' j u) :
    ∀ k ≤ n, visited header body next i s (k + 1) = visited header' body next i t (k + 1) := by
  intro k
  induction k with
  | zero => exact fun _ => advance_congr rfl start
  | succ k ih =>
    intro before
    have same := ih (by omega)
    show (visited header body next i s (k + 1)).bind _ = (visited header' body next i t (k + 1)).bind _
    rw [same]
    cases there : visited header' body next i t (k + 1) with
    | none => rfl
    | some p => exact advance_congr rfl (agree k before p.1 p.2 there)

/-- What the header and the body both keep, every header finds. -/
theorem visited_keeps {I : σ → Prop} (first : I s)
    (headerKeeps : ∀ {j u r}, I u → header j u = some r → I r.2)
    (bodyKeeps : ∀ {v u t}, I u → body v u = some t → I t) :
    ∀ {k j u}, visited header body next i s k = some (j,u) → I u := by
  intro k
  induction k with
  | zero =>
    intro j u there
    cases there
    exact first
  | succ k ih =>
    intro j u there
    simp only [visited,advance,Option.bind_eq_some_iff,Option.map_eq_some_iff,Prod.mk.injEq] at there
    obtain ⟨p,before,r,yields,v,-,t,ran,-,rfl⟩ := there
    exact bodyKeeps (headerKeeps (ih before) yields) ran

theorem turn_stuck (stuck : header i s = none) : ∀ k, turn header body next i s k = none := by
  have never : ∀ k, visited header body next i s (k + 1) = none := by
    intro k
    induction k with
    | zero => simp only [visited,Option.bind_some,advance,stuck,Option.bind_none]
    | succ k ih => rw [visited,ih,Option.bind_none]
  intro k
  cases k with
  | zero => simp only [turn,visited,Option.bind_some,stuck,Option.map_none]
  | succ k => rw [turn,never,Option.bind_none]

/-- Loops with the same body run alike, turn by turn, exactly when their first headers yield the same and
the headers agree wherever the second loop comes. -/
theorem alike_iff : (∀ k, turn header body next i s k = turn header' body next i t k) ↔
    header i s = header' i t ∧
      ∀ k j u, visited header' body next i t (k + 1) = some (j,u) → header j u = header' j u := by
  constructor
  · intro alike
    have start : header i s = header' i t := by
      have first := alike 0
      simp only [turn,visited,Option.bind_some] at first
      exact Option.map_injective (fun _ _ same => (Prod.ext_iff.mp same).2) first
    refine ⟨start,fun k => ?_⟩
    induction k using Nat.strongRecOn with
    | ind k ih =>
      intro j u there
      have same := visited_congr start ih k (Nat.le_refl _)
      have turned := alike (k + 1)
      simp only [turn,same,there,Option.bind_some] at turned
      exact Option.map_injective (fun _ _ same => (Prod.ext_iff.mp same).2) turned
  · rintro ⟨start,agree⟩ k
    cases k with
    | zero => simp only [turn,visited,Option.bind_some,start]
    | succ k =>
      have same := visited_congr start (fun m _ => agree m) k (Nat.le_refl _)
      rw [turn,turn,same]
      cases there : visited header' body next i t (k + 1) with
      | none => rfl
      | some p => simp only [Option.bind_some,agree k p.1 p.2 there]

end Oscan.Library.Counted
