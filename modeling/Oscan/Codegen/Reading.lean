import Mathlib.Data.List.GetD
import Oscan.Codegen.Expression

/-! How C reads the forms of emitted text: calls, groups and words are one operand each. -/
namespace Oscan.Codegen
open Ir Precedence

/-! ### Reading text -/

theorem readChain_one (t : CTree) : readChain (.one t) = t := rfl

theorem operandTrees_append (c : Text) (op : COp) (d : Text) :
    operandTrees (c.append op d) = (operandTrees c).append op (operandTrees d) := by
  induction d with
  | one o => simp only [Chain.append,operandTrees]
  | snoc d p o ih => simp only [Chain.append,operandTrees,ih]

theorem ops_operandTrees (c : Text) : (operandTrees c).ops = c.ops := by
  induction c with
  | one o => simp only [operandTrees,Chain.ops]
  | snoc c op o ih => simp only [operandTrees,Chain.ops,ih]

theorem cParse_binary {l r : Text} {op : COp} (left : ∀ p ∈ l.ops, op.level ≤ p.level)
    (right : ∀ p ∈ r.ops, op.level < p.level) :
    cParse (l.append op r) = .binary op (cParse l) (cParse r) := by
  rw [cParse,operandTrees_append,readChain,Chain.parse_append]
  · rfl
  · rwa [ops_operandTrees]
  · rwa [ops_operandTrees]

theorem suffixTree_append (t : CTree) (suffixes : List Suffix) (s : Suffix) :
    suffixTree t (suffixes ++ [s]) = suffixTree (suffixTree t suffixes) [s] := by
  induction suffixes generalizing t with
  | nil => simp only [List.nil_append,suffixTree]
  | cons s' suffixes ih => cases s' <;> simp only [List.cons_append,suffixTree,ih]

/-- Text of one operand. -/
def Single (t : Text) : Prop := ∃ o, t = .one o

/-- Text of one operand without prefixes. -/
def Postfix (t : Text) : Prop := ∃ core suffixes, t = .one (.mk [] core suffixes)

theorem Postfix.single {t : Text} (bare : Postfix t) : Single t := by
  obtain ⟨core,suffixes,rfl⟩ := bare
  exact ⟨_,rfl⟩

theorem Single.ops {t : Text} (single : Single t) : t.ops = [] := by
  obtain ⟨o,rfl⟩ := single
  rfl

theorem void_single : Single (void Text.form) := ⟨_,rfl⟩

theorem cParse_pre {t : Text} (p : Prefix) (single : Single t) :
    cParse (t.pre p) = .pre p (cParse t) := by
  obtain ⟨⟨prefixes,core,suffixes⟩,rfl⟩ := single
  simp only [Text.pre,cParse,operandTrees,readChain_one,Operand.tree,List.foldr_cons]

theorem cParse_field {t : Text} (name : String) (bare : Postfix t) :
    cParse (t.suffix (.field name)) = .member (cParse t) name := by
  obtain ⟨core,suffixes,rfl⟩ := bare
  simp only [Text.suffix,cParse,operandTrees,readChain_one,Operand.tree,List.foldr_nil,
    suffixTree_append,suffixTree]

theorem cParse_subscript {t : Text} (index : Text) (bare : Postfix t) :
    cParse (t.suffix (.subscript index)) = .subscript (cParse t) (cParse index) := by
  obtain ⟨core,suffixes,rfl⟩ := bare
  simp only [Text.suffix,cParse,operandTrees,readChain_one,Operand.tree,List.foldr_nil,
    suffixTree_append,suffixTree]

theorem argTrees_map (args : List Text) : argTrees args = args.map cParse := by
  induction args with
  | nil => rfl
  | cons arg args ih => rw [argTrees,ih,List.map_cons,cParse]

theorem initTrees_map (inits : List (String × Text)) :
    initTrees (inits.map fun i => .mk i.1 i.2) = inits.map fun i => (i.1,cParse i.2) := by
  induction inits with
  | nil => rfl
  | cons i inits ih => simp only [List.map_cons,initTrees,ih,cParse]

/-! ### The forms -/

theorem reads_word (text : String) : cParse (Text.form.word text) = CTree.form.word text := by
  simp [Text.form,CTree.form,cParse,operandTrees,readChain_one,Operand.tree,Core.tree,suffixTree]

theorem reads_group (t : Text) : cParse (Text.form.group t) = CTree.form.group (cParse t) := by
  simp [Text.form,CTree.form,cParse,operandTrees,readChain_one,Operand.tree,Core.tree,suffixTree]

theorem reads_call (function : String) (args : List Text) :
    cParse (Text.form.call function args) = CTree.form.call function (args.map cParse) := by
  simp [Text.form,CTree.form,cParse,operandTrees,readChain_one,Operand.tree,Core.tree,suffixTree,
    argTrees_map]

theorem reads_compound (ty : String) (inits : List (String × Text)) :
    cParse (Text.form.compound ty inits) =
      CTree.form.compound ty (inits.map fun i => (i.1,cParse i.2)) := by
  simp [Text.form,CTree.form,cParse,operandTrees,readChain_one,Operand.tree,Core.tree,suffixTree,
    initTrees_map]

/-! ### The shape of the text of an expression -/

theorem postfix_word (text : String) : Postfix (Text.form.word text) := ⟨_,_,rfl⟩

theorem postfix_group (t : Text) : Postfix (Text.form.group t) := ⟨_,_,rfl⟩

theorem postfix_call (function : String) (args : List Text) :
    Postfix (Text.form.call function args) := ⟨_,_,rfl⟩

theorem postfix_compound (ty : String) (inits : List (String × Text)) :
    Postfix (Text.form.compound ty inits) := ⟨_,_,rfl⟩

theorem Postfix.field {t : Text} (bare : Postfix t) (name : String) :
    Postfix (Text.form.field t name) := by
  obtain ⟨core,suffixes,rfl⟩ := bare
  exact ⟨_,_,rfl⟩

attribute [simp] postfix_word postfix_group postfix_call postfix_compound

theorem postfix_arithmetic (name : String) (op : COp) (ty : BcType) (l r : Text) :
    Postfix (arithmeticForm Text.form name op ty l r) := by
  unfold arithmeticForm
  split <;> simp

theorem postfix_unary (op : UnaryOp) (ty : BcType) (t : Text) : Postfix (unaryForm Text.form op ty t) := by
  unfold unaryForm
  repeat' split
  all_goals simp

theorem postfix_cast (source target : BcType) (t : Text) :
    Postfix (castForm Text.form source target t) := by
  unfold castForm
  split <;> simp

theorem postfix_index (ty : BcType) (arr index : Text) : Postfix (indexForm Text.form ty arr index) := by
  unfold indexForm
  split <;> simp

theorem postfix_callForm (shape : CallShape) (elemTy : BcType) (args : List Text) :
    Postfix (callForm Text.form shape elemTy args) := by
  unfold callForm
  cases shape <;> simp

theorem postfix_string (s : String) : Postfix (stringForm Text.form s) := by simp [stringForm]

theorem postfix_constructor (em : Emitter) (enumName variant : String) (ty : BcType)
    (values : List Text) : Postfix (em.constructorForm Text.form enumName variant ty values) := by
  unfold Emitter.constructorForm
  repeat' split
  all_goals simp

theorem postfix_named (em : Emitter) (name : String) (isVar : Bool) (args : List Expr)
    (values : List Text) : Postfix (em.emitNamed Text.form name isVar args values) := by
  unfold Emitter.emitNamed
  split
  · simp
  · exact postfix_callForm ..

theorem postfix_collection (intrinsic : CollectionIntrinsic) (ty : BcType) {result : Text}
    (held : Postfix result) (array : Text) (args temps : List Text)
    (valued : intrinsic.op ≠ .forEach) :
    Postfix (collectionForm Text.form intrinsic ty result array args temps) := by
  unfold collectionForm
  cases op : intrinsic.op <;> simp_all

theorem postfix_concat {t : Text} (first : Postfix t) (ts : List Text) :
    Postfix (concatForm Text.form (t :: ts)) := by
  unfold concatForm
  induction ts generalizing t with
  | nil => exact first
  | cons t' ts ih => exact ih (postfix_call ..)

/-! ### Reading the forms -/

theorem reads_pre {t : Text} (p : Prefix) (single : Single t) :
    cParse (Text.form.pre p t) = CTree.form.pre p (cParse t) := cParse_pre p single

theorem reads_field {t : Text} (bare : Postfix t) (name : String) :
    cParse (Text.form.field t name) = CTree.form.field (cParse t) name := cParse_field name bare

theorem reads_subscript {t : Text} (bare : Postfix t) (index : Text) :
    cParse (Text.form.subscript t index) = CTree.form.subscript (cParse t) (cParse index) :=
  cParse_subscript index bare

theorem reads_binary {l r : Text} (op : COp) (left : Single l) (right : Single r) :
    cParse (Text.form.binary op l r) = CTree.form.binary op (cParse l) (cParse r) := by
  apply cParse_binary <;> simp [left.ops,right.ops]

theorem single_pre {t : Text} (p : Prefix) (single : Single t) : Single (Text.form.pre p t) := by
  obtain ⟨⟨prefixes,core,suffixes⟩,rfl⟩ := single
  exact ⟨_,rfl⟩

theorem reads_void : cParse (void Text.form) = void CTree.form :=
  (reads_pre _ (postfix_word _).single).trans (by rw [reads_word]; rfl)

theorem reads_arithmetic (name : String) (op : COp) (ty : BcType) {l r : Text} (left : Single l)
    (right : Single r) : cParse (arithmeticForm Text.form name op ty l r) =
      arithmeticForm CTree.form name op ty (cParse l) (cParse r) := by
  unfold arithmeticForm
  split
  · exact reads_call ..
  · exact reads_call ..
  · rw [reads_group,reads_binary op left right]

theorem reads_unary (op : UnaryOp) (ty : BcType) {t : Text} (single : op = .neg → Single t) :
    cParse (unaryForm Text.form op ty t) = unaryForm CTree.form op ty (cParse t) := by
  cases op with
  | not =>
    rw [unaryForm,reads_group,reads_pre _ (postfix_group _).single,reads_group]
    rfl
  | neg =>
    unfold unaryForm
    simp only
    split
    · exact reads_call ..
    · exact reads_call ..
    · rw [reads_group,reads_pre _ (single rfl)]

theorem reads_cast (source target : BcType) {t : Text} (single : Single t) :
    cParse (castForm Text.form source target t) = castForm CTree.form source target (cParse t) := by
  unfold castForm
  split
  case h_7 | h_8 => rw [reads_group,reads_pre _ (postfix_group _).single,reads_group]
  case h_9 => rw [reads_group,reads_pre _ single]
  all_goals exact reads_call ..

theorem reads_index (ty : BcType) (arr index : Text) :
    cParse (indexForm Text.form ty arr index) = indexForm CTree.form ty (cParse arr) (cParse index) := by
  unfold indexForm
  split
  · rw [reads_group,reads_pre _ (single_pre _ (postfix_group _).single),
      reads_pre _ (postfix_group _).single,reads_group,reads_subscript ((postfix_group _).field _),
      reads_field (postfix_group _),reads_group,reads_call]
    rfl
  · rw [reads_group,reads_pre _ (single_pre _ (postfix_call ..).single),
      reads_pre _ (postfix_call ..).single,reads_call]
    rfl

theorem reads_getD (args : List Text) (i : Nat) :
    cParse (args.getD i (Text.form.word "")) = (args.map cParse).getD i (CTree.form.word "") := by
  rw [← reads_word,List.getD_map]

theorem reads_callForm (shape : CallShape) (elemTy : BcType) (args : List Text) :
    cParse (callForm Text.form shape elemTy args) =
      callForm CTree.form shape elemTy (args.map cParse) := by
  have unsigned (t : Text) : cParse (Text.form.pre (.cast "uint32_t") (Text.form.group t)) =
      CTree.form.pre (.cast "uint32_t") (CTree.form.group (cParse t)) := by
    rw [reads_pre _ (postfix_group _).single,reads_group]
  have unsignedOne (t : Text) : Single (Text.form.pre (.cast "uint32_t") (Text.form.group t)) :=
    single_pre _ (postfix_group _).single
  unfold callForm
  cases shape with
  | direct function arena =>
    rw [reads_call]
    cases arena
    · rfl
    · simp only [if_true,List.map_cons,reads_word]
  | bits op =>
    rw [reads_group,reads_pre _ (postfix_group _).single,reads_group,
      reads_binary _ (unsignedOne _) (unsignedOne _),unsigned,unsigned,reads_getD,reads_getD]
  | shift op =>
    rw [reads_group,reads_pre _ (postfix_group _).single,reads_group,
      reads_binary _ (unsignedOne _) (postfix_group _).single,unsigned,reads_group,reads_getD,reads_getD]
  | bnot =>
    rw [reads_group,reads_pre _ (postfix_group _).single,reads_group,reads_pre _ (unsignedOne _),
      unsigned,reads_getD]
  | pop =>
    rw [reads_group,reads_pre _ (single_pre _ (postfix_call ..).single),
      reads_pre _ (postfix_call ..).single,reads_call]

theorem reads_string (s : String) : cParse (stringForm Text.form s) = stringForm CTree.form s := by
  rw [stringForm,reads_call,List.map_cons,reads_word]
  rfl

theorem reads_part (ty : BcType) (t : Text) :
    cParse (interpolatedPart Text.form ty t) = interpolatedPart CTree.form ty (cParse t) := by
  unfold interpolatedPart
  split <;> simp only [reads_call,List.map_cons,List.map_nil,reads_word]

theorem reads_concat (ts : List Text) :
    cParse (concatForm Text.form ts) = concatForm CTree.form (ts.map cParse) := by
  cases ts with
  | nil =>
    rw [concatForm,reads_call,List.map_cons,reads_word]
    rfl
  | cons t ts =>
    simp only [concatForm,List.map_cons]
    induction ts generalizing t with
    | nil => rfl
    | cons t' ts ih =>
      rw [List.foldl_cons,ih,List.map_cons,List.foldl_cons,reads_call]
      simp only [List.map_cons,List.map_nil,reads_word]

theorem reads_headD (args : List Text) :
    cParse (args.headD (Text.form.word "")) = (args.map cParse).headD (CTree.form.word "") := by
  cases args with
  | nil => exact reads_word _
  | cons arg args => rfl

theorem reads_constructor (em : Emitter) (enumName variant : String) (ty : BcType) (values : List Text) :
    cParse (em.constructorForm Text.form enumName variant ty values) =
      em.constructorForm CTree.form enumName variant ty (values.map cParse) := by
  unfold Emitter.constructorForm
  repeat' split
  all_goals simp only [reads_compound,reads_word,List.map_cons,List.map_nil,reads_headD]
  all_goals simp [Function.comp_def,List.mapIdx_eq_zipIdx_map,List.zipIdx_map]

theorem reads_named (em : Emitter) (name : String) (isVar : Bool) (args : List Expr) (values : List Text) :
    cParse (em.emitNamed Text.form name isVar args values) =
      em.emitNamed CTree.form name isVar args (values.map cParse) := by
  unfold Emitter.emitNamed
  split
  · rw [reads_call]
    simp only [List.map_cons,List.map_nil,reads_word,reads_pre _ (postfix_word _).single]
  · exact reads_callForm ..

theorem reads_collection (intrinsic : CollectionIntrinsic) (ty : BcType) (result array : Text)
    (args temps : List Text) (held : ∀ t ∈ temps, Single t) :
    cParse (collectionForm Text.form intrinsic ty result array args temps) =
      collectionForm CTree.form intrinsic ty (cParse result) (cParse array) (args.map cParse)
        (temps.map cParse) := by
  have address (i : Nat) : cParse (Text.form.pre (.op "&") (temps.getD i (Text.form.word ""))) =
      CTree.form.pre (.op "&") ((temps.map cParse).getD i (CTree.form.word "")) := by
    rw [reads_pre,reads_getD]
    by_cases inside : i < temps.length
    · rw [List.getD_eq_getElem _ _ inside]
      exact held _ (List.getElem_mem inside)
    · rw [List.getD_eq_default _ _ (Nat.le_of_not_lt inside)]
      exact (postfix_word _).single
  unfold collectionForm
  cases intrinsic.op <;>
    simp only [reads_call,List.map_cons,List.map_nil,reads_word,reads_getD,address,reads_void]

end Oscan.Codegen
