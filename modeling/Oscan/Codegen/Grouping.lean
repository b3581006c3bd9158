import Oscan.Codegen.Reading
import Oscan.Lower
import Oscan.Semantic.Analyze

/-! When C reads the emitted expressions as the trees they stand for. -/
namespace Oscan.Codegen
open Ir Precedence

/-- The types that may stand in a hole of a string. -/
def Interpolated (ty : BcType) : Prop := ty ∈ [BcType.str,.i32,.i64,.f64,.bool]

/-- The local rules of typing that the checker enforces on a node. -/
def Typed : Expr → Prop
  | .binaryOp op l r ty span => Semantic.Analyzer.binaryOpType op l.ty r.ty span = .ok ty
  | .unaryOp op operand ty span => Semantic.Analyzer.unaryOpType op operand.ty span = .ok ty
  | .cast inner toTy span => Semantic.Analyzer.castType inner.ty toTy span = .ok toTy
  | .interpolatedString parts _ => ∀ e, .expr e ∈ parts → Interpolated e.ty
  | .fieldAccess inner _ _ _ => ∃ name, inner.ty = .struct name
  | .call (.collection intrinsic) _ ty _ => intrinsic.op = .forEach → ty = .unit
  | _ => True

/-- An equality that comes out without brackets. -/
def bareEquality : Expr → Bool
  | .binaryOp .eq l _ _ _ | .binaryOp .neq l _ _ _ => l.ty != .str
  | _ => false

/-- Such an equality whose right operand is another one. -/
def rightEquality : Expr → Bool
  | .binaryOp .eq l r _ _ | .binaryOp .neq l r _ _ => l.ty != .str && bareEquality r
  | _ => false

/-- A comparison that comes out without brackets. -/
def bareComparison : Expr → Bool
  | .binaryOp op l _ _ _ =>
    match op with
    | .eq | .neq | .lt | .gt | .ltEq | .gtEq => l.ty != .str
    | _ => false
  | _ => false

theorem bareComparison_bool {e : Expr} (typed : Typed e) (other : e.ty ≠ .bool) :
    bareComparison e = false := by
  unfold bareComparison
  split
  next op l r ty span =>
    simp only [Typed,Expr.ty] at typed other
    cases op <;> simp only [Semantic.Analyzer.binaryOpType] at typed ⊢ <;> (repeat' split at typed) <;>
      first | (simp only [pure,Except.pure,Except.ok.injEq] at typed; exact absurd typed.symm other) |
        exact absurd typed (by simp [Semantic.reject])
  next => rfl

/-- Operands have one type, of numbers or strings unless they are compared for equality. -/
theorem operands_typed {op : BinOp} {lt rt ty : BcType} {span : Span}
    (typed : Semantic.Analyzer.binaryOpType op lt rt span = .ok ty)
    (compared : op ≠ .eq ∧ op ≠ .neq ∧ op ≠ .and ∧ op ≠ .or) :
    rt = lt ∧ lt ≠ .bool ∧ lt ≠ .unit := by
  obtain ⟨noEq,noNeq,noAnd,noOr⟩ := compared
  by_cases same : lt = rt
  · subst same
    cases op <;> cases lt <;> simp_all [Semantic.Analyzer.binaryOpType,Semantic.reject]
  · cases op <;> simp_all [Semantic.Analyzer.binaryOpType,Semantic.reject]

theorem equality_typed {op : BinOp} {lt rt ty : BcType} {span : Span}
    (typed : Semantic.Analyzer.binaryOpType op lt rt span = .ok ty) (equality : op = .eq ∨ op = .neq) :
    rt = lt := by
  by_contra other
  have apart : lt ≠ rt := fun same => other same.symm
  rcases equality with rfl | rfl <;> simp [Semantic.Analyzer.binaryOpType,Semantic.reject,apart] at typed

theorem negation_typed {operand ty : BcType} {span : Span}
    (typed : Semantic.Analyzer.unaryOpType .neg operand span = .ok ty) :
    operand ≠ .bool ∧ operand ≠ .unit := by
  constructor <;> rintro rfl <;> simp [Semantic.Analyzer.unaryOpType,Semantic.reject] at typed

theorem cast_typed {source target ty : BcType} {span : Span}
    (typed : Semantic.Analyzer.castType source target span = .ok ty) :
    source ≠ .bool ∧ source ≠ .unit := by
  constructor <;> rintro rfl <;> simp [Semantic.Analyzer.castType,Semantic.reject] at typed

theorem self_node (e : Expr) : .expr e ∈ e.nodes := by
  unfold Expr.nodes
  exact List.mem_cons_self ..

variable (em : Emitter)

theorem void_or_word (value : Prop) [Decidable value] (name : String) :
    Postfix (if value then void Text.form else Text.form.word name) ∨
      (if value then void Text.form else Text.form.word name) = void Text.form ∧ value := by
  split
  next unit => exact .inr ⟨rfl,unit⟩
  next => exact .inl (postfix_word _)

mutual
/-- Only comparisons come out as more than one operand, and only `(void)0` with a prefix. -/
theorem emit_postfix : ∀ e : Expr, (∀ x, .expr x ∈ e.nodes → Typed x) → bareComparison e = false →
    Postfix (em.emit Text.form e) ∨ em.emit Text.form e = void Text.form ∧ e.ty = .unit
  | .intLit .. | .floatLit .. | .boolLit .. | .ident _ .value _ _ | .ident _ .fnRef _ _ =>
    fun _ _ => .inl ⟨_,_,rfl⟩
  | .stringLit s _ => fun _ _ => .inl (postfix_string s)
  | .interpolatedString parts _ => by
    intro typed _
    simp only [Expr.nodes,List.mem_cons] at typed
    have holes : ∀ e, .expr e ∈ parts → Interpolated e.ty := typed _ (.inl rfl)
    rw [Emitter.emit]
    have texts := emitParts_postfix parts (fun x inside => typed x (.inr inside)) holes
    cases rendered : em.emitParts Text.form parts with
    | nil => exact .inl (postfix_call ..)
    | cons t ts => exact .inl (postfix_concat (texts t (by simp [rendered])) ts)
  | .binaryOp op l r ty span => by
    intro typed bare
    apply Or.inl
    cases op <;> simp only [bareComparison,bne_eq_false_iff_eq,Emitter.emit,binaryForm] at bare ⊢
    case and => exact postfix_word _
    case or => exact postfix_word _
    case add =>
      split
      · exact postfix_call ..
      · exact postfix_arithmetic ..
    case sub | mul | div | mod => exact postfix_arithmetic ..
    case eq =>
      rw [bare]
      exact postfix_call ..
    all_goals
      rw [bare]
      exact postfix_group _
  | .unaryOp op operand _ _ => fun _ _ => .inl (postfix_unary ..)
  | .cast inner toTy _ => fun _ _ => .inl (postfix_cast ..)
  | .call callee args ty _ => by
    intro typed _
    cases callee with
    | named name => exact .inl (postfix_named ..)
    | var name => exact .inl (postfix_named ..)
    | collection intrinsic =>
      have unit : intrinsic.op = .forEach → ty = .unit := typed _ (self_node _)
      by_cases forEach : intrinsic.op = .forEach
      · refine .inr ⟨?_,unit forEach⟩
        rw [Emitter.emit,collectionForm,forEach]
      · exact .inl (postfix_collection _ _ (postfix_word _) _ _ _ forEach)
  | .fieldAccess inner field _ _ => by
    intro typed _
    obtain ⟨name,struct⟩ := typed _ (self_node _)
    have inside : ∀ x, .expr x ∈ inner.nodes → Typed x := fun x member =>
      typed x (by simp [Expr.nodes,member])
    have self : Typed inner := inside inner (self_node _)
    rw [Emitter.emit]
    rcases emit_postfix inner inside (bareComparison_bool self (by simp [struct])) with bare | ⟨-,unit⟩
    · exact .inl (bare.field field)
    · rw [struct] at unit
      exact nomatch unit
  | .index arr index _ _ => fun _ _ => .inl (postfix_index ..)
  | .block body => by
    intro _ _
    rw [Emitter.emit]
    exact void_or_word ..
  | .ifExpr _ _ _ ty _ | .matchExpr _ _ ty _ => by
    intro _ _
    rw [Emitter.emit]
    exact void_or_word ..
  | .arena body _ => by
    intro _ _
    rw [Emitter.emit]
    exact void_or_word ..
  | .tryExpr call ty _ => fun _ _ => .inl (((postfix_word _).field _).field _)
  | .arrayLit elements elemTy _ _ => by
    intro _ _
    apply Or.inl
    rw [Emitter.emit]
    split
    · exact postfix_call ..
    · exact postfix_word _
  | .structLit name fields _ => fun _ _ => .inl (postfix_compound ..)
  | .enumConstructor enumName variant args ty _ => fun _ _ => .inl (postfix_constructor ..)
theorem emitParts_postfix : ∀ parts : List InterpolatedStringPart,
    (∀ x, .expr x ∈ partsNodes parts → Typed x) → (∀ e, .expr e ∈ parts → Interpolated e.ty) →
    ∀ t ∈ em.emitParts Text.form parts, Postfix t
  | [] => by simp [Emitter.emitParts]
  | .text s :: parts => by
    intro typed holes
    have rest := emitParts_postfix parts (by simpa [partsNodes] using typed)
      fun e member => holes e (List.mem_cons_of_mem _ member)
    rw [Emitter.emitParts]
    split
    · exact rest
    · intro t member
      rcases List.mem_cons.mp member with rfl | later
      · exact postfix_string s
      · exact rest t later
  | .expr e :: parts => by
    intro typed holes
    simp only [partsNodes,List.mem_append] at typed
    have rest := emitParts_postfix parts (fun x member => typed x (.inr member))
      fun e member => holes e (List.mem_cons_of_mem _ member)
    have hole : Interpolated e.ty := holes e (List.mem_cons_self ..)
    have self : Typed e := typed e (.inl (self_node _))
    rw [Emitter.emitParts]
    intro t member
    rcases List.mem_cons.mp member with rfl | later
    · simp only [Interpolated,List.mem_cons,List.not_mem_nil,or_false] at hole
      rcases hole with str | number | number | number | number
      · have plain := emit_postfix e (fun x member => typed x (.inl member))
          (bareComparison_bool self (by simp [str]))
        simpa [interpolatedPart,str] using plain
      all_goals simp [interpolatedPart,number]
    · exact rest t later
end


/-- What is neither compared nor of type unit is one operand that takes a suffix. -/
theorem emit_operand {e : Expr} (typed : ∀ x, .expr x ∈ e.nodes → Typed x) (value : e.ty ≠ .unit)
    (other : e.ty ≠ .bool) : Postfix (em.emit Text.form e) := by
  have self : Typed e := typed e (self_node e)
  rcases emit_postfix em e typed (bareComparison_bool self other) with bare | ⟨-,unit⟩
  · exact bare
  · exact absurd unit value

theorem emit_single {e : Expr} (typed : ∀ x, .expr x ∈ e.nodes → Typed x)
    (bare : bareComparison e = false) : Single (em.emit Text.form e) := by
  rcases emit_postfix em e typed bare with shown | ⟨unit,-⟩
  · exact shown.single
  · rw [unit]
    exact void_single

/-! ### Comparisons -/

def comparisonOp : BinOp → Option COp
  | .eq => some .eq
  | .neq => some .ne
  | .lt => some .lt
  | .gt => some .gt
  | .ltEq => some .le
  | .gtEq => some .ge
  | _ => none

/-- Enums are compared by their tags, for equality only. -/
def compared {T : Type} (F : Form T) (op : BinOp) (ty : BcType) (t : T) : T :=
  match op,ty with
  | .eq,.enum _ | .neq,.enum _ => F.field t "tag"
  | _,_ => t

theorem emit_comparison {T : Type} (F : Form T) {op : BinOp} {c : COp} {l : Expr}
    (compares : comparisonOp op = some c) (notStr : l.ty ≠ .str) (r : Expr) (ty : BcType) (span : Span) :
    em.emit F (.binaryOp op l r ty span) =
      F.binary c (compared F op l.ty (em.emit F l)) (compared F op l.ty (em.emit F r)) := by
  cases op <;> simp only [comparisonOp,Option.some.injEq,reduceCtorEq] at compares <;> subst compares <;>
    simp only [Emitter.emit,binaryForm] <;> cases known : l.ty <;>
    first | rfl | exact absurd known notStr

theorem ops_suffix (t : Text) (s : Suffix) : (t.suffix s).ops = t.ops := by
  cases t with
  | one o => cases o; rfl
  | snoc c op o => cases o; rfl

theorem ops_compared (op : BinOp) (ty : BcType) (t : Text) : (compared Text.form op ty t).ops = t.ops := by
  unfold compared
  split
  · exact ops_suffix ..
  · exact ops_suffix ..
  · rfl

theorem bareComparison_of_none {op : BinOp} (none : comparisonOp op = none) (l r : Expr) (ty : BcType)
    (span : Span) : bareComparison (.binaryOp op l r ty span) = false := by
  cases op <;> first | rfl | exact absurd none (by simp [comparisonOp])

theorem bareComparison_str {l : Expr} (str : l.ty = .str) (op : BinOp) (r : Expr) (ty : BcType)
    (span : Span) : bareComparison (.binaryOp op l r ty span) = false := by
  cases op <;> simp [bareComparison,str]

/-- An equality by its operator, an ordering by the types that it takes. -/
theorem comparison_cases {op : BinOp} {c : COp} {l r : Expr} {ty : BcType} {span : Span}
    (compares : comparisonOp op = some c) (typed : Typed (.binaryOp op l r ty span)) :
    r.ty = l.ty ∧ (c.level = 6 ∧ (op = .eq ∨ op = .neq) ∨
      c.level = 7 ∧ op ≠ .eq ∧ op ≠ .neq ∧ l.ty ≠ .bool ∧ l.ty ≠ .unit) := by
  cases op <;> simp only [comparisonOp,Option.some.injEq,reduceCtorEq] at compares <;> subst compares
  case eq => exact ⟨equality_typed typed (.inl rfl),.inl ⟨rfl,.inl rfl⟩⟩
  case neq => exact ⟨equality_typed typed (.inr rfl),.inl ⟨rfl,.inr rfl⟩⟩
  all_goals
    obtain ⟨same,notBool,notUnit⟩ := operands_typed typed (by decide)
    exact ⟨same,.inr ⟨rfl,nofun,nofun,notBool,notUnit⟩⟩

section Nodes
variable {op : BinOp} {l r : Expr} {ty : BcType} {span : Span} {P : Expr → Prop}

theorem left_nodes (all : ∀ x, .expr x ∈ (Expr.binaryOp op l r ty span).nodes → P x) :
    ∀ x, .expr x ∈ l.nodes → P x := fun x member => all x (by simp [Expr.nodes,member])

theorem right_nodes (all : ∀ x, .expr x ∈ (Expr.binaryOp op l r ty span).nodes → P x) :
    ∀ x, .expr x ∈ r.nodes → P x := fun x member => all x (by simp [Expr.nodes,member])

end Nodes

/-- The operators of a text stand at the level of equality or above it, and at that level only
for an equality. -/
theorem emit_ops : ∀ e : Expr, (∀ x, .expr x ∈ e.nodes → Typed x) →
    ∀ p ∈ (em.emit Text.form e).ops, 6 ≤ p.level ∧ (bareEquality e = false → 6 < p.level)
  | .binaryOp op l r ty span,typed => by
    intro p member
    cases compares : comparisonOp op with
    | none => simp [(emit_single em typed (bareComparison_of_none compares ..)).ops] at member
    | some c =>
      by_cases str : l.ty = .str
      · simp [(emit_single em typed (bareComparison_str str ..)).ops] at member
      · have left := emit_ops l (left_nodes typed)
        have right := emit_ops r (right_nodes typed)
        rw [emit_comparison em _ compares str] at member
        change p ∈ (Chain.append _ _ _).ops at member
        rw [Chain.ops_append,ops_compared,ops_compared,List.mem_append,List.mem_cons] at member
        obtain ⟨same,⟨level,equality⟩ | ⟨level,noEq,noNeq,notBool,notUnit⟩⟩ :=
          comparison_cases compares (typed _ (self_node _))
        · have shown : bareEquality (.binaryOp op l r ty span) = true := by
            rcases equality with rfl | rfl <;> simpa [bareEquality] using str
          rw [shown]
          refine ⟨?_,nofun⟩
          rcases member with first | rfl | second
          · exact (left p first).1
          · omega
          · exact (right p second).1
        · have leftOne := (emit_operand em (left_nodes typed) notUnit notBool).single.ops
          have rightOne := (emit_operand em (right_nodes typed) (same ▸ notUnit)
            (same ▸ notBool)).single.ops
          rw [leftOne,rightOne] at member
          have only : p = c := by simpa using member
          subst only
          omega
  | .intLit ..,typed | .floatLit ..,typed | .stringLit ..,typed | .interpolatedString ..,typed
  | .boolLit ..,typed | .ident ..,typed | .unaryOp ..,typed | .cast ..,typed | .call ..,typed
  | .fieldAccess ..,typed | .index ..,typed | .block _,typed | .ifExpr ..,typed
  | .matchExpr ..,typed | .tryExpr ..,typed | .arrayLit ..,typed | .structLit ..,typed
  | .enumConstructor ..,typed | .arena ..,typed => by
    intro p member
    simp [(emit_single em typed rfl).ops] at member

/-! ### Reading expressions -/

theorem reads_compared {op : BinOp} {ty : BcType} {t : Text} (bare : (∃ name, ty = .enum name) → Postfix t) :
    cParse (compared Text.form op ty t) = compared CTree.form op ty (cParse t) := by
  unfold compared
  split
  next name => exact reads_field (bare ⟨name,rfl⟩) _
  next name => exact reads_field (bare ⟨name,rfl⟩) _
  next => rfl

/-- Comparisons join chains: nothing regroups when no equality stands bare on the right. -/
theorem reads_comparison {op : BinOp} {c : COp} {l r : Expr} {ty : BcType} {span : Span}
    (compares : comparisonOp op = some c) (notStr : l.ty ≠ .str)
    (typed : ∀ x, .expr x ∈ (Expr.binaryOp op l r ty span).nodes → Typed x)
    (apart : rightEquality (.binaryOp op l r ty span) = false) :
    cParse (em.emit Text.form (.binaryOp op l r ty span)) =
      CTree.form.binary c (compared CTree.form op l.ty (cParse (em.emit Text.form l)))
        (compared CTree.form op l.ty (cParse (em.emit Text.form r))) := by
  obtain ⟨same,kind⟩ := comparison_cases compares (typed _ (self_node _))
  have tagged (e : Expr) (nodes : ∀ x, .expr x ∈ e.nodes → Typed x) (like : e.ty = l.ty) :
      (∃ name, l.ty = .enum name) → Postfix (em.emit Text.form e) := by
    rintro ⟨name,enum⟩
    exact emit_operand em nodes (by simp [like,enum]) (by simp [like,enum])
  have left := emit_ops em l (left_nodes typed)
  have right := emit_ops em r (right_nodes typed)
  rw [emit_comparison em _ compares notStr]
  have split : cParse (Text.form.binary c (compared Text.form op l.ty (em.emit Text.form l))
      (compared Text.form op l.ty (em.emit Text.form r))) = .binary c
        (cParse (compared Text.form op l.ty (em.emit Text.form l)))
        (cParse (compared Text.form op l.ty (em.emit Text.form r))) := by
    apply cParse_binary
    all_goals
      rw [ops_compared]
      intro p member
    · rcases kind with ⟨level,-⟩ | ⟨level,-,-,notBool,notUnit⟩
      · have above := (left p member).1
        omega
      · rw [(emit_operand em (left_nodes typed) notUnit notBool).single.ops] at member
        exact nomatch member
    · rcases kind with ⟨level,equality⟩ | ⟨level,-,-,notBool,notUnit⟩
      · have plain : bareEquality r = false := by
          rcases equality with rfl | rfl <;> simpa [rightEquality,notStr] using apart
        have above := (right p member).2 plain
        omega
      · rw [(emit_operand em (right_nodes typed) (same ▸ notUnit) (same ▸ notBool)).single.ops] at member
        exact nomatch member
  rw [split,reads_compared (tagged l (left_nodes typed) rfl),
    reads_compared (tagged r (right_nodes typed) same)]
  rfl

theorem reads_arithmeticOp {op : BinOp} {l r : Text} (ty : BcType) (other : comparisonOp op = none)
    (left : Single l) (right : Single r) :
    cParse (binaryForm Text.form op ty l r) = binaryForm CTree.form op ty (cParse l) (cParse r) := by
  cases op <;> simp only [comparisonOp,reduceCtorEq] at other
  case and | or => exact reads_word _
  case add =>
    simp only [binaryForm]
    split
    · rw [reads_call,List.map_cons,reads_word]
      rfl
    · exact reads_arithmetic _ _ _ left right
  all_goals exact reads_arithmetic _ _ _ left right

theorem reads_strings {op : BinOp} {c : COp} (compares : comparisonOp op = some c) (l r : Text) :
    cParse (binaryForm Text.form op .str l r) = binaryForm CTree.form op .str (cParse l) (cParse r) := by
  have ordered (c : COp) : cParse (relationForm Text.form c .str l r) =
      relationForm CTree.form c .str (cParse l) (cParse r) := by
    rw [relationForm,reads_group,reads_binary _ (postfix_call ..).single (postfix_word _).single,
      reads_call,reads_word]
    rfl
  cases op <;> simp only [comparisonOp,reduceCtorEq] at compares
  case eq => exact reads_call ..
  case neq =>
    simp only [binaryForm]
    rw [reads_group,reads_pre _ (postfix_call ..).single,reads_call]
    rfl
  all_goals exact ordered _

theorem reads_held (value : Prop) [Decidable value] (name : String) :
    cParse (if value then void Text.form else Text.form.word name) =
      if value then void CTree.form else CTree.form.word name := by
  split
  · exact reads_void
  · exact reads_word _

mutual
/-- Typed expressions without an equality on the right of another are read as they are meant. -/
theorem emit_reads : ∀ e : Expr, (∀ x, .expr x ∈ e.nodes → Typed x) →
    (∀ x, .expr x ∈ e.nodes → rightEquality x = false) →
    cParse (em.emit Text.form e) = em.emit CTree.form e
  | .intLit .. | .floatLit .. | .boolLit .. | .ident _ .value _ _ | .ident _ .fnRef _ _ =>
    fun _ _ => reads_word _
  | .stringLit s _ => fun _ _ => reads_string s
  | .interpolatedString parts _ => by
    intro typed apart
    simp only [Expr.nodes,List.mem_cons] at typed apart
    rw [Emitter.emit,reads_concat,emitParts_reads parts (fun x member => typed x (.inr member))
      fun x member => apart x (.inr member)]
    rfl
  | .binaryOp op l r ty span => by
    intro typed apart
    have left := emit_reads l (left_nodes typed) (left_nodes apart)
    have right := emit_reads r (right_nodes typed) (right_nodes apart)
    cases compares : comparisonOp op with
    | some c =>
      by_cases str : l.ty = .str
      · have strings := reads_strings compares (em.emit Text.form l) (em.emit Text.form r)
        rw [left,right] at strings
        cases op <;> simp only [comparisonOp,reduceCtorEq] at compares <;>
          simpa only [Emitter.emit,str] using strings
      · rw [reads_comparison em compares str typed (apart _ (self_node _)),left,right,
          emit_comparison em CTree.form compares str]
    | none =>
      by_cases short : op = .and ∨ op = .or
      · rcases short with rfl | rfl <;> exact reads_word _
      · have others : op ≠ .eq ∧ op ≠ .neq ∧ op ≠ .and ∧ op ≠ .or := by
          refine ⟨?_,?_,fun same => short (.inl same),fun same => short (.inr same)⟩ <;>
            rintro rfl <;> simp [comparisonOp] at compares
        obtain ⟨same,notBool,notUnit⟩ := operands_typed (typed _ (self_node _)) others
        have arithmetic := reads_arithmeticOp l.ty compares
          (emit_operand em (left_nodes typed) notUnit notBool).single
          (emit_operand em (right_nodes typed) (same ▸ notUnit) (same ▸ notBool)).single
        rw [left,right] at arithmetic
        cases op <;> simp only [comparisonOp,reduceCtorEq] at compares <;>
          simp_all only [Emitter.emit,true_or,or_true,not_true_eq_false]
  | .unaryOp op operand ty span => by
    intro typed apart
    have inner : ∀ x, .expr x ∈ operand.nodes → Typed x := fun x member =>
      typed x (by simp [Expr.nodes,member])
    have ih := emit_reads operand inner fun x member => apart x (by simp [Expr.nodes,member])
    rw [Emitter.emit,Emitter.emit,← ih]
    apply reads_unary
    rintro rfl
    obtain ⟨notBool,notUnit⟩ := negation_typed (typed _ (self_node _))
    exact (emit_operand em inner notUnit notBool).single
  | .cast operand toTy span => by
    intro typed apart
    have inner : ∀ x, .expr x ∈ operand.nodes → Typed x := fun x member =>
      typed x (by simp [Expr.nodes,member])
    have ih := emit_reads operand inner fun x member => apart x (by simp [Expr.nodes,member])
    obtain ⟨notBool,notUnit⟩ := cast_typed (typed _ (self_node _))
    rw [Emitter.emit,Emitter.emit,← ih]
    exact reads_cast _ _ (emit_operand em inner notUnit notBool).single
  | .call callee args ty _ => by
    intro typed apart
    simp only [Expr.nodes,List.mem_cons] at typed apart
    have values := emitExprs_reads args (fun x member => typed x (.inr member))
      fun x member => apart x (.inr member)
    cases callee with
    | named name => rw [Emitter.emit,reads_named,values,Emitter.emit]
    | var name => rw [Emitter.emit,reads_named,values,Emitter.emit]
    | collection intrinsic =>
      rw [Emitter.emit,reads_collection,values,Emitter.emit,reads_word,reads_word,List.map_map]
      · simp only [Function.comp_def,reads_word]
      · simp [(postfix_word _).single]
  | .fieldAccess inner field _ _ => by
    intro typed apart
    obtain ⟨name,struct⟩ := typed _ (self_node _)
    have inside : ∀ x, .expr x ∈ inner.nodes → Typed x := fun x member =>
      typed x (by simp [Expr.nodes,member])
    have ih := emit_reads inner inside fun x member => apart x (by simp [Expr.nodes,member])
    rw [Emitter.emit,Emitter.emit,← ih]
    exact reads_field (emit_operand em inside (by simp [struct]) (by simp [struct])) _
  | .index arr index _ _ => by
    intro typed apart
    have ih := emit_reads arr (fun x member => typed x (by simp [Expr.nodes,member]))
      fun x member => apart x (by simp [Expr.nodes,member])
    have ih' := emit_reads index (fun x member => typed x (by simp [Expr.nodes,member]))
      fun x member => apart x (by simp [Expr.nodes,member])
    rw [Emitter.emit,Emitter.emit,← ih,← ih']
    exact reads_index ..
  | .block body => by
    intro _ _
    rw [Emitter.emit,Emitter.emit]
    exact reads_held ..
  | .ifExpr _ _ _ ty _ | .matchExpr _ _ ty _ => by
    intro _ _
    rw [Emitter.emit,Emitter.emit]
    exact reads_held ..
  | .arena body _ => by
    intro _ _
    rw [Emitter.emit,Emitter.emit]
    exact reads_held ..
  | .tryExpr call ty _ => fun _ _ => by
    rw [Emitter.emit,reads_field ((postfix_word _).field _),reads_field (postfix_word _),reads_word]
    rfl
  | .arrayLit elements elemTy _ _ => by
    intro _ _
    rw [Emitter.emit,Emitter.emit]
    split
    · rw [reads_call]
      simp only [List.map_cons,List.map_nil,reads_word]
    · exact reads_word _
  | .structLit name fields _ => by
    intro typed apart
    simp only [Expr.nodes,List.mem_cons] at typed apart
    rw [Emitter.emit,Emitter.emit,reads_compound,emitFields_reads fields
      (fun x member => typed x (.inr member)) fun x member => apart x (.inr member)]
  | .enumConstructor enumName variant args ty _ => by
    intro typed apart
    have values := emitExprs_reads args
      (fun x member => typed x (by unfold Expr.nodes; exact List.mem_cons_of_mem _ member))
      fun x member => apart x (by unfold Expr.nodes; exact List.mem_cons_of_mem _ member)
    unfold Emitter.emit
    rw [reads_constructor,values]
theorem emitExprs_reads : ∀ es : List Expr, (∀ x, .expr x ∈ exprsNodes es → Typed x) →
    (∀ x, .expr x ∈ exprsNodes es → rightEquality x = false) →
    (em.emitExprs Text.form es).map cParse = em.emitExprs CTree.form es
  | [] => fun _ _ => rfl
  | e :: es => by
    intro typed apart
    simp only [exprsNodes,List.mem_append] at typed apart
    rw [Emitter.emitExprs,Emitter.emitExprs,List.map_cons,
      emit_reads e (fun x member => typed x (.inl member)) fun x member => apart x (.inl member),
      emitExprs_reads es (fun x member => typed x (.inr member)) fun x member => apart x (.inr member)]
theorem emitParts_reads : ∀ parts : List InterpolatedStringPart,
    (∀ x, .expr x ∈ partsNodes parts → Typed x) →
    (∀ x, .expr x ∈ partsNodes parts → rightEquality x = false) →
    (em.emitParts Text.form parts).map cParse = em.emitParts CTree.form parts
  | [] => fun _ _ => rfl
  | .text s :: parts => by
    intro typed apart
    rw [Emitter.emitParts,Emitter.emitParts]
    have rest := emitParts_reads parts (by simpa [partsNodes] using typed)
      (by simpa [partsNodes] using apart)
    split
    · exact rest
    · rw [List.map_cons,reads_string,rest]
  | .expr e :: parts => by
    intro typed apart
    simp only [partsNodes,List.mem_append] at typed apart
    rw [Emitter.emitParts,Emitter.emitParts,List.map_cons,reads_part,
      emit_reads e (fun x member => typed x (.inl member)) fun x member => apart x (.inl member),
      emitParts_reads parts (fun x member => typed x (.inr member)) fun x member => apart x (.inr member)]
theorem emitFields_reads : ∀ fields : List FieldInit,
    (∀ x, .expr x ∈ fieldsNodes fields → Typed x) →
    (∀ x, .expr x ∈ fieldsNodes fields → rightEquality x = false) →
    (em.emitFields Text.form fields).map (fun i => (i.1,cParse i.2)) = em.emitFields CTree.form fields
  | [] => fun _ _ => rfl
  | .mk name value _ :: fields => by
    intro typed apart
    simp only [fieldsNodes,List.mem_append] at typed apart
    rw [Emitter.emitFields,Emitter.emitFields,List.map_cons,
      emit_reads value (fun x member => typed x (.inl member)) fun x member => apart x (.inl member),
      emitFields_reads fields (fun x member => typed x (.inr member))
        fun x member => apart x (.inr member)]
end

/-! ### Regrouping -/

def CTree.isBinary : CTree → Bool
  | .binary .. => true
  | _ => false

theorem suffixTree_atom {t : CTree} (atom : t.isBinary = false) (suffixes : List Suffix) :
    (suffixTree t suffixes).isBinary = false := by
  induction suffixes generalizing t with
  | nil => rwa [suffixTree]
  | cons s suffixes ih => cases s <;> exact ih rfl

theorem operand_atom (o : Operand) : o.tree.isBinary = false := by
  obtain ⟨prefixes,core,suffixes⟩ := o
  rw [Operand.tree]
  cases prefixes with
  | nil =>
    apply suffixTree_atom
    cases core <;> rfl
  | cons p prefixes => rfl

theorem operandTrees_atoms (t : Text) : ∀ u ∈ (operandTrees t).operands, u.isBinary = false := by
  induction t with
  | one o => simp [operandTrees,Chain.operands,operand_atom]
  | snoc c op o ih =>
    intro u member
    rw [operandTrees,Chain.operands,List.mem_append,List.mem_singleton] at member
    rcases member with inside | rfl
    · exact ih u inside
    · exact operand_atom o

/-- What C reads on the right of an operator binds tighter. -/
theorem cParse_right {t : Text} {op p : COp} {l l' r' : CTree}
    (read : cParse t = .binary op l (.binary p l' r')) : op.level < p.level := by
  have grouped := Chain.grouped_parse COp.level (operandTrees t)
  rw [cParse,readChain] at read
  cases parsed : (operandTrees t).parse COp.level with
  | leaf a =>
    rw [parsed] at read
    have only := Chain.chain_parse COp.level (operandTrees t)
    rw [parsed] at only
    have atom := operandTrees_atoms t a (by simp [← only,Tree.chain,Chain.operands])
    rw [collapse] at read
    exact absurd atom (by simp [read,CTree.isBinary])
  | node L q R =>
    rw [parsed] at read grouped
    obtain ⟨rfl,-,right⟩ := CTree.binary.inj read
    cases R with
    | leaf a =>
      have atom := operandTrees_atoms t a (Chain.right_leaf _ parsed)
      rw [collapse] at right
      exact absurd atom (by simp [right,CTree.isBinary])
    | node L' q' R' =>
      obtain ⟨rfl,-,-⟩ := CTree.binary.inj right
      exact grouped.2.2.2 q' rfl

theorem bareEquality_cases {e : Expr} (bare : bareEquality e = true) :
    ∃ op c l r ty span, e = .binaryOp op l r ty span ∧ comparisonOp op = some c ∧ c.level = 6 ∧
      l.ty ≠ .str := by
  unfold bareEquality at bare
  split at bare
  next l r ty span => exact ⟨_,.eq,l,r,ty,span,rfl,rfl,rfl,by simpa using bare⟩
  next l r ty span => exact ⟨_,.ne,l,r,ty,span,rfl,rfl,rfl,by simpa using bare⟩
  next => exact absurd bare (by simp)

/-- An equality on the right of another is read as if it stood on the left. -/
theorem rightEquality_regroups {e : Expr} (typed : ∀ x, .expr x ∈ e.nodes → Typed x)
    (chained : rightEquality e = true) : cParse (em.emit Text.form e) ≠ em.emit CTree.form e := by
  have shown : bareEquality e = true := by
    unfold rightEquality at chained
    split at chained
    next => simp_all [bareEquality]
    next => simp_all [bareEquality]
    next => exact absurd chained (by simp)
  obtain ⟨op,c,l,r,ty,span,rfl,compares,level,notStr⟩ := bareEquality_cases shown
  have inner : bareEquality r = true := by
    cases op <;> simp_all [rightEquality]
  obtain ⟨op',c',l',r',ty',span',rfl,compares',level',notStr'⟩ := bareEquality_cases inner
  have sameTy := (comparison_cases compares (typed _ (self_node _))).1
  have boolTy : ty' = .bool := by
    by_contra other
    have bare := @bareComparison_bool (.binaryOp op' l' r' ty' span')
      (right_nodes typed _ (self_node _)) other
    cases op' <;> simp_all [bareComparison,comparisonOp]
  have bool : l.ty = .bool := sameTy.symm.trans boolTy
  have untagged (t : CTree) : compared CTree.form op .bool t = t := by cases op <;> rfl
  intro read
  rw [emit_comparison em CTree.form compares notStr,bool,untagged,untagged,
    emit_comparison em CTree.form compares' notStr'] at read
  have tighter := cParse_right read
  omega

/-- In a typed tree every expression is read by C as it is meant exactly when no bare equality
has another one as its right operand. -/
theorem emit_reads_iff (em : Emitter) (e : Expr) (typed : ∀ x, .expr x ∈ e.nodes → Typed x) :
    (∀ x, .expr x ∈ e.nodes → cParse (em.emit Text.form x) = em.emit CTree.form x) ↔
      ∀ x, .expr x ∈ e.nodes → rightEquality x = false := by
  have inside {x : Expr} (member : .expr x ∈ e.nodes) {y : Expr} (below : .expr y ∈ x.nodes) :
      .expr y ∈ e.nodes := e.nodes_trans _ member below
  constructor
  · intro reads x member
    by_contra chained
    exact rightEquality_regroups em (fun y below => typed y (inside member below))
      (by simpa using chained) (reads x member)
  · intro apart x member
    exact emit_reads em x (fun y below => typed y (inside member below))
      fun y below => apart y (inside member below)

private def spot : Span := ⟨0,0⟩

/-- `-x - y < 2.0` -/
def difference : Expr :=
  .binaryOp .lt (.binaryOp .sub (.unaryOp .neg (.ident "x" .value .f64 spot) .f64 spot)
    (.ident "y" .value .f64 spot) .f64 spot) (.floatLit ⟨0x4000000000000000⟩ spot) .bool spot

/-- `a == (b == c)` as the body of a function -/
def nestedEquality : Ast.Program :=
  let bool : Ast.Ty := .primitive .bool spot
  let name (n : String) : Ast.Expr := .ident n spot
  ⟨[.fn ⟨"same",[⟨"a",bool,spot⟩,⟨"b",bool,spot⟩,⟨"c",bool,spot⟩],some bool,
    .mk [] (some (.binaryOp .eq (name "a") (.binaryOp .eq (name "b") (name "c") spot) spot)) spot,
    true,spot⟩]⟩

private def plainEmitter : Emitter := ⟨[],[],fun _ => "_tmp_0",fun _ => "2.0"⟩

theorem emit_reads_difference :
    cParse (plainEmitter.emit Text.form difference) = plainEmitter.emit CTree.form difference := by
  refine (emit_reads_iff plainEmitter difference ?_).mpr ?_ _ (self_node _)
  all_goals
    intro x member
    simp only [difference,Expr.nodes,List.mem_cons,List.mem_append,List.not_mem_nil,or_false,
      Node.expr.injEq] at member
    rcases member with rfl | (rfl | (rfl | rfl) | rfl) | rfl <;> trivial

/-- The text `a == b == c` compares `c` with what `a == b` gives. -/
theorem nestedEquality_regroups : ∃ info, Semantic.analyze nestedEquality = .ok info ∧
    ∃ ir, lowerProgram nestedEquality info = some ir ∧ ∃ x, .expr x ∈ ir.nodes ∧ ∀ em : Emitter,
      cParse (em.emit Text.form x) ≠ em.emit CTree.form x := by
  let ident (n : String) : Expr := .ident n .value .bool spot
  let inner : Expr := .binaryOp .eq (ident "b") (ident "c") .bool spot
  let outer : Expr := .binaryOp .eq (ident "a") inner .bool spot
  refine ⟨_,rfl,_,rfl,outer,?_,fun em => rightEquality_regroups em ?_ rfl⟩
  · exact List.mem_append_right _ (List.mem_flatMap.mpr ⟨_,List.mem_singleton_self _,self_node outer⟩)
  · intro x member
    simp only [outer,inner,ident,Expr.nodes,List.mem_cons,List.mem_append,List.not_mem_nil,or_false,
      Node.expr.injEq] at member
    rcases member with rfl | rfl | rfl | rfl | rfl <;> trivial

end Oscan.Codegen
