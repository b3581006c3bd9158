import Mathlib.Data.List.Basic
import Mathlib.Data.List.Infix

/-! Memory as disjoint objects, each a tree of components that is given by what stands at the end of
each path into it. A value is such a tree, and a location is an object with a path. -/
namespace Oscan.Library.Regions

variable {ρ κ α : Type}

abbrev Tree (κ α : Type) := List κ → α

/-- The component under a path. -/
def Tree.at (v : Tree κ α) (path : List κ) : Tree κ α := fun rest => v (path ++ rest)

@[simp] theorem Tree.at_nil (v : Tree κ α) : v.at [] = v := rfl

theorem Tree.at_append (v : Tree κ α) (path rest : List κ) : v.at (path ++ rest) = (v.at path).at rest := by
  funext q
  simp only [Tree.at,List.append_assoc]

@[ext] structure Location (ρ κ : Type) where
  root : ρ
  path : List κ
deriving DecidableEq

def Location.component (loc : Location ρ κ) (key : κ) : Location ρ κ := ⟨loc.root,loc.path ++ [key]⟩

@[simp] theorem component_root (loc : Location ρ κ) (key : κ) : (loc.component key).root = loc.root := rfl

/-- Neither location is inside the other. -/
def Apart (loc other : Location ρ κ) : Prop :=
  loc.root = other.root → ¬ loc.path <+: other.path ∧ ¬ other.path <+: loc.path

def read (cells : ρ → Tree κ α) (loc : Location ρ κ) : Tree κ α := (cells loc.root).at loc.path

@[simp] theorem read_component (cells : ρ → Tree κ α) (loc : Location ρ κ) (key : κ) :
    read cells (loc.component key) = (read cells loc).at [key] := Tree.at_append _ _ _

variable [DecidableEq ρ] [DecidableEq κ]

def write (cells : ρ → Tree κ α) (loc : Location ρ κ) (v : Tree κ α) : ρ → Tree κ α := fun root path =>
  if root = loc.root ∧ loc.path <+: path then v (path.drop loc.path.length) else cells root path

variable (cells : ρ → Tree κ α) {loc other : Location ρ κ} (v : Tree κ α)

@[simp] theorem read_write : read (write cells loc v) loc = v := by
  funext rest
  simp only [read,Tree.at,write,List.prefix_append,and_self,if_true,List.drop_left]

theorem write_root {root : ρ} (elsewhere : root ≠ loc.root) : write cells loc v root = cells root := by
  funext path
  exact if_neg fun both => elsewhere both.1

theorem read_write_root (elsewhere : other.root ≠ loc.root) : read (write cells loc v) other = read cells other := by
  simp only [read,write_root cells v elsewhere]

theorem read_write_apart (apart : Apart loc other) : read (write cells loc v) other = read cells other := by
  by_cases same : other.root = loc.root
  · obtain ⟨outside,inside⟩ := apart same.symm
    funext rest
    refine if_neg fun both => ?_
    -- Two paths that begin one path are one the beginning of the other.
    rcases List.prefix_or_prefix_of_prefix both.2 (List.prefix_append other.path rest) with first | second
    · exact outside first
    · exact inside second
  · exact read_write_root cells v same

end Oscan.Library.Regions
