import Oscan.Constants.Narrow
import Oscan.Preservation.Program
import Oscan.Order.Independent
import Mathlib.Data.List.Forall2

/-! The constants of an accepted program have distinct names and initialisers of their declared types. -/
namespace Oscan.Constants
open Ast Semantic Semantic.Analyzer Lowering

/-- The constants among the declarations -/
def letDecls : List TopDecl → List LetDecl
  | [] => []
  | .letDecl l :: decls => l :: letDecls decls
  | _ :: decls => letDecls decls

theorem resolveType_numeric {self other : Analyzer} {ty : Ty} {a b : BcType} (first : self.resolveType ty = .ok a)
    (second : other.resolveType ty = .ok b) : SameNumeric a b := by
  cases ty with
  | primitive p span =>
    simp only [Analyzer.resolveType,pure_accepts] at first second
    exact .inl (first.symm.trans second)
  | named name span =>
    have nominal {self : Analyzer} {t : BcType} (resolved : self.resolveType (.named name span) = .ok t) :
        isNumeric t = false := by
      rw [Analyzer.resolveType] at resolved
      split at resolved
      next => cases resolved; rfl
      next =>
        split at resolved
        next => cases resolved; rfl
        next => cases resolved
    exact .inr ⟨nominal first,nominal second⟩
  | fixedArray elem size span | dynamicArray elem span =>
    simp only [Analyzer.resolveType,bind_accepts,unless_accepts,pure_accepts] at first second
    obtain ⟨_,-,-,rfl⟩ := first
    obtain ⟨_,-,-,rfl⟩ := second
    exact .inr ⟨rfl,rfl⟩
  | result ok err span | fnPtr params ret isPure span =>
    simp only [Analyzer.resolveType,bind_accepts,pure_accepts] at first second
    obtain ⟨_,-,_,-,rfl⟩ := first
    obtain ⟨_,-,_,-,rfl⟩ := second
    exact .inr ⟨rfl,rfl⟩

theorem SameNumeric.trans {a b c : BcType} (first : SameNumeric a b) (second : SameNumeric b c) : SameNumeric a c := by
  rcases first with rfl | ⟨left,middle⟩
  · exact second
  · rcases second with rfl | ⟨-,right⟩
    · exact .inr ⟨left,middle⟩
    · exact .inr ⟨left,right⟩

theorem compatible_numeric {a b : BcType} (compatible : a.isCompatibleWith b = true) : SameNumeric a b := by
  rcases BcType.compatible_cases compatible with rfl | ⟨_,_,rfl,rfl⟩
  · exact .inl rfl
  · exact .inr ⟨rfl,rfl⟩

variable {self sa next : Analyzer}

theorem collectExterns_constants : ∀ {decls : List ExternFnDecl} {self next : Analyzer},
    collectExterns self decls = .ok next → next.constants = self.constants
  | [],self,next,collected => by
    simp only [collectExterns,pure_accepts] at collected
    rw [collected]
  | ef :: decls,self,next,collected => by
    simp only [collectExterns,bind_accepts,unless_accepts] at collected
    obtain ⟨-,-,_,-,_,-,-,rest⟩ := collected
    exact (collectExterns_constants rest).trans rfl

theorem collectDecl_constants {d : TopDecl} (collected : self.collectDecl d = .ok next) :
    next.constants = self.constants ∧ letDecls [d] = [] ∨
      ∃ l ty, d = .letDecl l ∧ self.resolveType l.ty = .ok ty ∧ self.constants.lookup l.name = none ∧
        next.constants = (l.name,⟨ty⟩) :: self.constants := by
  cases d with
  | letDecl l =>
    simp only [collectDecl,bind_accepts,unless_accepts,pure_accepts] at collected
    obtain ⟨_,-,ty,resolved,fresh,rfl⟩ := collected
    exact .inr ⟨l,ty,rfl,resolved,Option.not_isSome_iff_eq_none.mp fresh,rfl⟩
  | externBlock eb => exact .inl ⟨collectExterns_constants collected,rfl⟩
  | useDecl =>
    simp only [collectDecl,pure_accepts] at collected
    exact .inl ⟨by rw [collected],rfl⟩
  | struct s | enum e =>
    simp only [collectDecl,bind_accepts,unless_accepts,pure_accepts] at collected
    obtain ⟨_,-,-,rfl⟩ := collected
    exact .inl ⟨rfl,rfl⟩
  | fn f =>
    simp only [collectDecl,bind_accepts,unless_accepts,pure_accepts] at collected
    obtain ⟨_,-,_,-,_,-,-,rfl⟩ := collected
    exact .inl ⟨rfl,rfl⟩

theorem letDecls_cons (d : TopDecl) (ds : List TopDecl) : letDecls (d :: ds) = letDecls [d] ++ letDecls ds := by
  cases d <;> rfl

/-- The table of constants: no name is declared twice, and every entry has the type written for it. -/
theorem collectDecls_constants : ∀ {ds : List TopDecl} {self : Analyzer}, collectDecls self ds = .ok sa →
    ((letDecls ds).map (·.name)).Nodup ∧
    (∀ l ∈ letDecls ds, self.constants.lookup l.name = none) ∧
    ∀ name info, sa.constants.lookup name = some info → self.constants.lookup name = some info ∨
      ∃ l ∈ letDecls ds, l.name = name ∧ ∃ seer : Analyzer, seer.resolveType l.ty = .ok info.ty
  | [],self,collected => by
    simp only [collectDecls,pure_accepts] at collected
    subst collected
    exact ⟨List.nodup_nil,by simp [letDecls],fun _ _ found => .inl found⟩
  | d :: ds,self,collected => by
    simp only [collectDecls,bind_accepts] at collected
    obtain ⟨middle,first,rest⟩ := collected
    obtain ⟨distinct,fresh,told⟩ := collectDecls_constants rest
    rw [letDecls_cons]
    rcases collectDecl_constants first with ⟨same,none⟩ | ⟨l,ty,rfl,resolved,free,entered⟩
    · rw [same] at fresh told
      rw [none,List.nil_append]
      exact ⟨distinct,fresh,told⟩
    · rw [entered] at fresh told
      simp only [letDecls,List.cons_append,List.nil_append,List.map_cons,List.nodup_cons,List.mem_map,
        List.mem_cons,forall_eq_or_imp,exists_eq_or_imp]
      have other (l' : LetDecl) (member : l' ∈ letDecls ds) : l'.name ≠ l.name ∧ self.constants.lookup l'.name = .none := by
        have unseen := fresh l' member
        rw [List.lookup_cons] at unseen
        cases same : l'.name == l.name with
        | true => simp [same] at unseen
        | false =>
          rw [same] at unseen
          exact ⟨by simpa using same,unseen⟩
      refine ⟨⟨?_,distinct⟩,⟨free,fun l' member => (other l' member).2⟩,fun name info found => ?_⟩
      · rintro ⟨l',member,same⟩
        exact (other l' member).1 same
      · rcases told name info found with known | later
        · rw [List.lookup_cons] at known
          cases same : name == l.name with
          | true =>
            rw [same] at known
            obtain rfl := Option.some.inj known
            exact .inr (.inl ⟨(beq_iff_eq.mp same).symm,self,resolved⟩)
          | false =>
            rw [same] at known
            exact .inl known
        · exact .inr (.inr later)

/-- The constants are lowered in the order of the source. -/
theorem lowerDecls_constDefs {lw : Lowering} : ∀ {ds : List TopDecl} {ir : Ir.Program}, lowerDecls lw ds = some ir →
    List.Forall₂ (fun l d => lw.lowerConst l = some d) (letDecls ds) ir.constDefs
  | [],ir,lowered => by
    obtain rfl := Option.some.inj lowered
    exact .nil
  | .struct _ :: ds,ir,lowered | .enum _ :: ds,ir,lowered | .externBlock _ :: ds,ir,lowered => by
    simp only [lowerDecls,bind_lowers,pure_lowers] at lowered
    obtain ⟨rest,loweredRest,rfl⟩ := lowered
    have later := lowerDecls_constDefs loweredRest
    exact later
  | .letDecl l :: ds,ir,lowered => by
    simp only [lowerDecls,bind_lowers,pure_lowers] at lowered
    obtain ⟨d,own,rest,loweredRest,rfl⟩ := lowered
    have later := lowerDecls_constDefs loweredRest
    exact .cons own later
  | .fn f :: ds,ir,lowered => by
    simp only [lowerDecls,bind_lowers,pure_lowers] at lowered
    obtain ⟨_,-,rest,loweredRest,rfl⟩ := lowered
    have later := lowerDecls_constDefs loweredRest
    exact later
  | .useDecl .. :: ds,ir,lowered => @lowerDecls_constDefs _ ds ir lowered

/-- What the program's list of constants holds for each entry of the table. -/
def Listed (consts : List Ir.ConstDef) (self : Analyzer) : Prop :=
  ∀ name info, self.constants.lookup name = some info → ∃ d, find consts name = some d ∧ SameNumeric info.ty d.ty

variable {consts : List Ir.ConstDef} {ctx : Context} {lw : Lowering}

theorem lowerIdent_typed {name : String} {span : Span} {ty : BcType} (same : Matches lw self ctx)
    (noLocals : ∀ name, self.lookupVar name = none) (listed : Listed consts self)
    (accepted : self.identType name span = .ok ty) :
    Typed consts (.ident name (lw.identKind name).1 (lw.identKind name).2 span) ty := by
  unfold identKind
  rw [same.lookupType,noLocals]
  rw [identType,noLocals] at accepted
  cases known : self.constants.lookup name with
  | none =>
    simp only [known,Option.map_none,Option.or_none] at accepted ⊢
    have entry : lw.info.functions.lookup name = self.functions.lookup name := by
      rw [same.info]
      rfl
    rw [entry]
    cases called : self.functions.lookup name with
    | none => simp [called] at accepted
    | some fi => trivial
  | some info =>
    simp only [known,pure_accepts] at accepted
    subst accepted
    exact listed name info known

/-- The initialiser that a checked expression is lowered to is typed. -/
theorem lowerExpr_typed (noLocals : ∀ name, self.lookupVar name = none) (listed : Listed consts self) :
    ∀ (e : Expr) {E : Option BcType} {t : Typing} {ir : Ir.Expr}, Matches lw self ctx →
      checkExpr self E e = .ok t → lowerExpr lw e = some ir → Typed consts ir t.ty
  | .intLit v span,E,t,ir,_,accepted,lowered => by
    simp only [checkExpr,unless_accepts,pure_accepts] at accepted
    obtain ⟨range,rfl⟩ := accepted
    obtain rfl := Option.some.inj lowered
    refine ⟨?_,rfl⟩
    simp only [Bool.or_eq_true,decide_eq_true_eq] at range
    simp only [fits]
    omega
  | .floatLit x span,E,t,ir,_,accepted,lowered | .stringLit x span,E,t,ir,_,accepted,lowered
  | .boolLit x span,E,t,ir,_,accepted,lowered => by
    simp only [checkExpr,pure_accepts] at accepted
    subst accepted
    obtain rfl := Option.some.inj lowered
    rfl
  | .ident name span,E,t,ir,same,accepted,lowered => by
    obtain ⟨ty,typed,rfl⟩ := checkExpr_ident accepted
    obtain rfl := Option.some.inj lowered
    exact lowerIdent_typed same noLocals listed typed
  | .binaryOp op left right span,E,t,ir,same,accepted,lowered => by
    obtain ⟨lt,rt,ty,checkedLeft,checkedRight,typed,rfl⟩ := checkExpr_binaryOp accepted
    simp only [lowerExpr,bind_lowers,pure_lowers] at lowered
    obtain ⟨l,loweredLeft,r,loweredRight,rfl⟩ := lowered
    exact ⟨lt.ty,rt.ty,lowerExpr_typed noLocals listed left same checkedLeft loweredLeft,
      lowerExpr_typed noLocals listed right same checkedRight loweredRight,typed⟩
  | .unaryOp op operand span,E,t,ir,same,accepted,lowered => by
    obtain ⟨ot,ty,checked,typed,rfl⟩ := checkExpr_unaryOp accepted
    simp only [lowerExpr,bind_lowers,pure_lowers] at lowered
    obtain ⟨o,loweredOperand,rfl⟩ := lowered
    exact ⟨ot.ty,lowerExpr_typed noLocals listed operand same checked loweredOperand,typed⟩
  | .interpolatedString parts span,_,_,ir,_,_,lowered | .cast inner ty span,_,_,ir,_,_,lowered
  | .fieldAccess inner field span,_,_,ir,_,_,lowered | .block b,_,_,ir,_,_,lowered
  | .tryExpr call span,_,_,ir,_,_,lowered | .structLit name fields span,_,_,ir,_,_,lowered
  | .enumConstructor enumName variant args span,_,_,ir,_,_,lowered | .arena body span,_,_,ir,_,_,lowered => by
    simp only [lowerExpr,bind_lowers,pure_lowers] at lowered
    obtain ⟨_,-,rfl⟩ := lowered
    trivial
  | .call callee args span,_,_,ir,_,_,lowered => by
    simp only [lowerExpr] at lowered
    split at lowered
    all_goals
      simp only [bind_lowers,pure_lowers] at lowered
    · obtain ⟨_,-,_,-,rfl⟩ := lowered
      trivial
    · obtain ⟨_,-,_,-,_,-,rfl⟩ := lowered
      trivial
  | .index inner index span,_,_,ir,_,_,lowered => by
    simp only [lowerExpr,bind_lowers,pure_lowers] at lowered
    obtain ⟨_,-,_,-,rfl⟩ := lowered
    trivial
  | .matchExpr scrutinee arms span,_,_,ir,_,_,lowered => by
    simp only [lowerExpr,bind_lowers,pure_lowers] at lowered
    obtain ⟨_,-,_,-,_,-,rfl⟩ := lowered
    trivial
  | .ifExpr condition thenBlock none span,_,_,ir,_,_,lowered => by
    simp only [lowerExpr,bind_lowers,pure_lowers] at lowered
    obtain ⟨_,-,_,-,rfl⟩ := lowered
    trivial
  | .ifExpr condition thenBlock (some elseExpr) span,_,_,ir,_,_,lowered => by
    simp only [lowerExpr,bind_lowers,pure_lowers] at lowered
    obtain ⟨_,-,_,-,_,-,_,-,rfl⟩ := lowered
    trivial
  | .arrayLit [] span,_,_,ir,_,_,lowered => by
    obtain rfl := Option.some.inj lowered
    trivial
  | .arrayLit (first :: rest) span,_,_,ir,_,_,lowered => by
    simp only [lowerExpr,bind_lowers,pure_lowers] at lowered
    obtain ⟨_,-,_,-,rfl⟩ := lowered
    trivial

/-- The declared type of a lowered constant is the one that its initialiser was checked against. -/
theorem lowerConst_checked {l : LetDecl} {log : List BcType} {d : Ir.ConstDef} (fresh : Fresh self)
    (accepted : self.checkConst l = .ok log) (lowered : (declLowering self.info).lowerConst l = some d) :
    d.name = l.name ∧ self.resolveType l.ty = .ok d.ty ∧
      (Listed consts self → ∃ t, Typed consts d.value t ∧ SameNumeric t d.ty) := by
  have start := declLowering_matches fresh
  simp only [checkConst,bind_accepts,unless_accepts,pure_accepts] at accepted
  obtain ⟨expected,resolved,t,checked,compatible,rfl⟩ := accepted
  simp only [lowerConst,start.resolveType l.ty resolved,bind_lowers,pure_lowers] at lowered
  obtain ⟨value,loweredValue,rfl⟩ := lowered
  have framed : Matches (declLowering self.info) self.pushScope .empty :=
    ⟨start.info,by simpa [Analyzer.pushScope] using start.lookup,start.ret,start.array,start.result⟩
  have noLocals (name : String) : self.pushScope.lookupVar name = none := by
    simp [lookupVar,Analyzer.pushScope,fresh.scopes,lookupScopes]
  refine ⟨rfl,resolved,fun listed => ⟨t.ty,?_,compatible_numeric (by simpa using compatible)⟩⟩
  exact lowerExpr_typed noLocals listed l.value (framed.withExpected expected) checked loweredValue

/-- The constants of the program as both backends find them -/
structure Declared (consts : List Ir.ConstDef) : Prop where
  sound : Sound consts
  own : ∀ d ∈ consts, find consts d.name = some d

theorem find_own : ∀ {consts : List Ir.ConstDef}, (consts.map (·.name)).Nodup → ∀ d ∈ consts,
    find consts d.name = some d
  | [],_,d,member => by cases member
  | c :: consts,distinct,d,member => by
    rw [List.map_cons,List.nodup_cons] at distinct
    rw [find,List.find?_cons]
    rcases List.mem_cons.mp member with rfl | member
    · simp
    · have apart : (c.name == d.name) = false := by
        rw [beq_eq_false_iff_ne]
        intro same
        exact distinct.1 (same ▸ List.mem_map_of_mem member)
      rw [apart]
      exact find_own distinct.2 d member

theorem mem_letDecls {l : LetDecl} : ∀ {ds : List TopDecl}, l ∈ letDecls ds → .letDecl l ∈ ds
  | d :: ds,inside => by
    rw [letDecls_cons,List.mem_append] at inside
    rcases inside with here | later
    · cases d with
      | letDecl l' =>
        obtain rfl := List.mem_singleton.mp here
        exact List.mem_cons_self
      | _ => cases here
    · exact List.mem_cons_of_mem _ (mem_letDecls later)

theorem forall₂_left {α β : Type} {R : α → β → Prop} {xs : List α} {ys : List β} (related : List.Forall₂ R xs ys)
    {x : α} (member : x ∈ xs) : ∃ y ∈ ys, R x y := by
  induction related with
  | nil => cases member
  | cons first _ ih =>
    rcases List.mem_cons.mp member with rfl | member
    · exact ⟨_,List.mem_cons_self,first⟩
    · obtain ⟨y,inside,holds⟩ := ih member
      exact ⟨y,List.mem_cons_of_mem _ inside,holds⟩

theorem lowered_names {ls : List LetDecl} {ds : List Ir.ConstDef}
    (each : List.Forall₂ (fun l d => lw.lowerConst l = some d) ls ds) : ls.map (·.name) = ds.map (·.name) := by
  induction each with
  | nil => rfl
  | cons own _ ih =>
    simp only [lowerConst,bind_lowers,pure_lowers] at own
    obtain ⟨_,-,rfl⟩ := own
    rw [List.map_cons,List.map_cons,ih]

theorem lowered_declared {program : Program} {info : SemanticInfo} {ir : Ir.Program}
    (accepted : analyze program = .ok info) (lowered : lowerProgram program info = some ir) :
    Declared ir.constDefs := by
  obtain ⟨decls⟩ := program
  obtain ⟨sa,collected,checked,rfl⟩ := analyze_accepts.mp accepted
  have fresh := collect_fresh collected
  obtain ⟨distinct,-,told⟩ := collectDecls_constants collected
  have each := lowerDecls_constDefs lowered
  have checkedConst (l : LetDecl) (member : l ∈ letDecls decls) : ∃ log, sa.checkConst l = .ok log :=
    ((checkDecls_accepts decls).mp checked).2 l (mem_letDecls member)
  have named := lowered_names each
  have own := find_own (named ▸ distinct)
  have listed : Listed ir.constDefs sa := by
    intro name info known
    rcases told name info known with initially | ⟨l,member,rfl,seer,resolved⟩
    · cases initially
    · obtain ⟨d,inside,loweredConst⟩ := forall₂_left each member
      obtain ⟨log,accepted⟩ := checkedConst l member
      obtain ⟨same,declared,-⟩ := @lowerConst_checked _ ir.constDefs _ _ _ fresh accepted loweredConst
      exact ⟨d,same ▸ own d inside,resolveType_numeric resolved declared⟩
  refine ⟨fun d inside => ?_,own⟩
  obtain ⟨l,member,loweredConst⟩ := forall₂_left (List.Forall₂.flip each) inside
  obtain ⟨log,accepted⟩ := checkedConst l member
  exact (lowerConst_checked fresh accepted loweredConst).2.2 listed

end Oscan.Constants
