import Mathlib.Tactic.Common

/-! Left-associative operators with levels: the tree that a chain of operands and operators
denotes, and the trees that are read back from their own chain. -/
namespace Precedence

/-- Operands joined by binary operators, without any grouping. -/
inductive Chain (α β : Type*) where
  | one (a : α)
  | snoc (c : Chain α β) (op : β) (a : α)

inductive Tree (α β : Type*) where
  | leaf (a : α)
  | node (left : Tree α β) (op : β) (right : Tree α β)

variable {α β : Type*}

/-- The two chains with an operator between them. -/
def Chain.append (c : Chain α β) (op : β) : Chain α β → Chain α β
  | .one a => .snoc c op a
  | .snoc d p a => .snoc (c.append op d) p a

namespace Tree

def chain : Tree α β → Chain α β
  | leaf a => .one a
  | node l op r => l.chain.append op r.chain

def root : Tree α β → Option β
  | leaf _ => none
  | node _ op _ => some op

@[simp] theorem root_leaf (a : α) : (leaf a : Tree α β).root = none := rfl

@[simp] theorem root_node (l : Tree α β) (op : β) (r : Tree α β) : (node l op r).root = some op := rfl

variable (level : β → Nat)

/-- Every operator takes at least its own level on its left and more than it on its right. -/
def Grouped : Tree α β → Prop
  | leaf _ => True
  | node l op r => l.Grouped ∧ r.Grouped ∧ (∀ p ∈ l.root, level op ≤ level p) ∧
      ∀ p ∈ r.root, level op < level p

/-- The tree with one more operator, whose right operand is `r`. -/
def graft : Tree α β → β → Tree α β → Tree α β
  | leaf a,op,r => node (leaf a) op r
  | node l p l',op,r => if level p < level op then node l p (l'.graft op r) else node (node l p l') op r

end Tree

/-- Operators are taken from left to right, each as far down the right spine as its level says. -/
def Chain.parse (level : β → Nat) : Chain α β → Tree α β
  | .one a => .leaf a
  | .snoc c op a => (c.parse level).graft level op (.leaf a)

namespace Tree
variable {level : β → Nat}

theorem chain_graft (t : Tree α β) (op : β) (r : Tree α β) :
    (t.graft level op r).chain = t.chain.append op r.chain := by
  induction t with
  | leaf a => rfl
  | node l p l' _ ih =>
    rw [graft]
    split
    · rw [chain,ih,chain]
      have assoc (c d : Chain α β) : ∀ e : Chain α β,
          c.append p (d.append op e) = (c.append p d).append op e := by
        intro e
        induction e with
        | one a => rfl
        | snoc e q a ih => simp only [Chain.append,ih]
      exact assoc ..
    · rfl

theorem root_graft (t : Tree α β) (op : β) (r : Tree α β) :
    ∀ p ∈ (t.graft level op r).root, p = op ∨ level p < level op ∧ p ∈ t.root := by
  cases t with
  | leaf a => simp [graft]
  | node l q l' =>
    rw [graft]
    split
    next lower =>
      intro p rooted
      obtain rfl := Option.some.inj rooted
      exact .inr ⟨lower,rfl⟩
    next => simp

theorem grouped_graft {t r : Tree α β} {op : β} (grouped : t.Grouped level) (right : r.Grouped level)
    (higher : ∀ p ∈ r.root, level op < level p) : (t.graft level op r).Grouped level := by
  induction t with
  | leaf a => exact ⟨trivial,right,by simp,higher⟩
  | node l p l' _ ih =>
    rw [graft]
    split
    next lower =>
      refine ⟨grouped.1,ih grouped.2.1,grouped.2.2.1,fun q rooted => ?_⟩
      rcases root_graft _ _ _ q rooted with rfl | ⟨-,inside⟩
      · exact lower
      · exact grouped.2.2.2 q inside
    next notLower =>
      refine ⟨grouped,right,fun q rooted => ?_,higher⟩
      obtain rfl := Option.some.inj rooted
      omega

/-- What binds tighter than a graft lands inside it. -/
theorem graft_graft (t r s : Tree α β) {op p : β} (tighter : level op < level p) :
    (t.graft level op r).graft level p s = t.graft level op (r.graft level p s) := by
  induction t with
  | leaf a => simp only [graft,tighter,if_true]
  | node l q l' _ ih =>
    by_cases lower : level q < level op
    · have low : level q < level p := by omega
      simp only [graft,lower,if_true,low,ih]
    · simp only [graft,lower,if_false,tighter,if_true]

theorem graft_node {l r : Tree α β} {op : β} (left : ∀ p ∈ l.root, level op ≤ level p) :
    l.graft level op r = node l op r := by
  cases l with
  | leaf a => rfl
  | node l' p r' =>
    have notLower : ¬level p < level op := Nat.not_lt.mpr (left p rfl)
    rw [graft,if_neg notLower]

end Tree

namespace Chain
variable (level : β → Nat)

theorem grouped_parse (c : Chain α β) : (c.parse level).Grouped level := by
  induction c with
  | one a => trivial
  | snoc c op a ih => exact Tree.grouped_graft ih trivial (by simp)

theorem chain_parse (c : Chain α β) : (c.parse level).chain = c := by
  induction c with
  | one a => rfl
  | snoc c op a ih =>
    rw [parse,Tree.chain_graft,ih]
    rfl

/-- The operators of a chain. -/
def ops : Chain α β → List β
  | one _ => []
  | snoc c op _ => c.ops ++ [op]

theorem ops_append (c : Chain α β) (op : β) (d : Chain α β) :
    (c.append op d).ops = c.ops ++ op :: d.ops := by
  induction d with
  | one a => rfl
  | snoc d p a ih => simp only [Chain.append,Chain.ops,ih,List.append_assoc,List.cons_append]

variable {level}

theorem root_parse (c : Chain α β) : ∀ p ∈ (c.parse level).root, p ∈ c.ops := by
  induction c with
  | one a => simp [parse]
  | snoc c op a ih =>
    intro p rooted
    rw [ops,List.mem_append]
    rcases Tree.root_graft _ _ _ p rooted with rfl | ⟨-,inside⟩
    · exact .inr (List.mem_singleton_self _)
    · exact .inl (ih p inside)

def operands : Chain α β → List α
  | one a => [a]
  | snoc c _ a => c.operands ++ [a]

theorem operands_append (c : Chain α β) (op : β) (d : Chain α β) :
    (c.append op d).operands = c.operands ++ d.operands := by
  induction d with
  | one a => rfl
  | snoc d p a ih => simp only [append,operands,ih,List.append_assoc]

theorem parse_append_graft (c d : Chain α β) {op : β} (tighter : ∀ p ∈ d.ops, level op < level p) :
    (c.append op d).parse level = (c.parse level).graft level op (d.parse level) := by
  induction d with
  | one a => rfl
  | snoc d p a ih =>
    have inside : level op < level p := tighter p (by simp [ops])
    rw [append,parse,ih fun q member => tighter q (by simp [ops,member]),
      Tree.graft_graft _ _ _ inside]
    rfl

end Chain

namespace Tree
variable {level : β → Nat}

/-- The root of a grouped tree is one of its loosest operators. -/
theorem root_loosest {t : Tree α β} (grouped : t.Grouped level) :
    ∀ p ∈ t.chain.ops, ∃ q ∈ t.root, level q ≤ level p := by
  induction t with
  | leaf a => simp [chain,Chain.ops]
  | node l op r ihl ihr =>
    intro p member
    rw [chain,Chain.ops_append,List.mem_append,List.mem_cons] at member
    refine ⟨op,rfl,?_⟩
    rcases member with left | rfl | right
    · obtain ⟨q,rooted,below⟩ := ihl grouped.1 p left
      have atMost := grouped.2.2.1 q rooted
      omega
    · exact Nat.le_refl _
    · obtain ⟨q,rooted,below⟩ := ihr grouped.2.1 p right
      have less := grouped.2.2.2 q rooted
      omega

/-- A tree is read back from its chain exactly when it is grouped by level from the left. -/
theorem parse_chain_iff (t : Tree α β) : t.chain.parse level = t ↔ t.Grouped level := by
  constructor
  · intro same
    rw [← same]
    exact Chain.grouped_parse level _
  · intro grouped
    induction t with
    | leaf a => rfl
    | node l op r ihl ihr =>
      have tighter : ∀ p ∈ r.chain.ops, level op < level p := by
        intro p member
        obtain ⟨q,rooted,below⟩ := root_loosest grouped.2.1 p member
        have above := grouped.2.2.2 q rooted
        omega
      rw [chain,Chain.parse_append_graft _ _ tighter,ihl grouped.1,ihr grouped.2.1,
        graft_node grouped.2.2.1]

end Tree

/-- The operands on the right spine of a parsed chain are its own. -/
theorem Chain.right_leaf {level : β → Nat} (c : Chain α β) {l : Tree α β} {op : β} {a : α}
    (parsed : c.parse level = .node l op (.leaf a)) : a ∈ c.operands := by
  have same := chain_parse level c
  rw [parsed] at same
  rw [← same,Tree.chain,operands_append]
  simp [Tree.chain,operands]

/-- Two chains are parsed apart when the operator between them is the loosest one, and on the
right the only one of its level. -/
theorem Chain.parse_append {level : β → Nat} (c d : Chain α β) {op : β}
    (left : ∀ p ∈ c.ops, level op ≤ level p) (right : ∀ p ∈ d.ops, level op < level p) :
    (c.append op d).parse level = .node (c.parse level) op (d.parse level) := by
  have same : (Tree.node (c.parse level) op (d.parse level)).chain = c.append op d := by
    rw [Tree.chain,chain_parse,chain_parse]
  rw [← same]
  exact (Tree.parse_chain_iff _).mpr ⟨grouped_parse level c,grouped_parse level d,
    fun p rooted => left p (root_parse c p rooted),fun p rooted => right p (root_parse d p rooted)⟩

end Precedence
