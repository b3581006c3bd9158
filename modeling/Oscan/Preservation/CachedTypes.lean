import Mathlib.Data.List.Forall2
import Oscan.Preservation.Program

/-! The types of the checker against the types cached in the IR, up to the purity of
function pointers. -/
namespace Oscan
open Semantic

/-- Equal, or function pointers of which one may stand for the other. -/
def sameType (a b : BcType) : Bool := a.isCompatibleWith b || b.isCompatibleWith a

def SameLog (a b : TypeLog) : Prop :=
  List.Forall₂ (List.Forall₂ fun s t => sameType s t = true) a.consts b.consts ∧
    List.Forall₂ (List.Forall₂ fun s t => sameType s t = true) a.fns b.fns

@[simp] theorem sameType_refl (a : BcType) : sameType a a = true := by
  simp [sameType,BcType.isCompatibleWith]

theorem SameLog.refl (log : TypeLog) : SameLog log log := by
  have row (types : List BcType) : List.Forall₂ (fun s t => sameType s t = true) types types :=
    List.forall₂_same.mpr fun t _ => sameType_refl t
  exact ⟨List.forall₂_same.mpr fun types _ => row types,
    List.forall₂_same.mpr fun types _ => row types⟩

/-- The cached types are those of the checker exactly when the contexts agree; in particular
they are then the same up to the purity of function pointers. -/
theorem cachedTypes_iff (program : Ast.Program) (info : SemanticInfo) (log : TypeLog)
    (accepted : analyzeLog program = .ok (info,log)) :
    (contextsAgree program = true ↔
      ∃ ir, lowerProgram program info = some ir ∧ ir.typeLog = log) ∧
    (contextsAgree program = true →
      ∃ ir, lowerProgram program info = some ir ∧ SameLog log ir.typeLog) := by
  have exact := lowerProgram_exact accepted
  refine ⟨exact,fun agree => ?_⟩
  obtain ⟨ir,lowered,same⟩ := exact.mp agree
  exact ⟨ir,lowered,same ▸ SameLog.refl log⟩

private def here : Span := ⟨0,0⟩

/-- `fn ones() -> [i32] { let xs: [i32] = [1]; xs }` -/
def letLiteral : Ast.Program :=
  ⟨[.fn ⟨"ones",[],some (.dynamicArray (.primitive .i32 here) here),
    .mk [.letStmt "xs" false (.dynamicArray (.primitive .i32 here) here)
      (.arrayLit [.intLit 1 here] here) here] (some (.ident "xs" here)) here,true,here⟩]⟩

theorem cachedTypes_letLiteral : ∃ info log, analyzeLog letLiteral = .ok (info,log) ∧
    ∃ ir, lowerProgram letLiteral info = some ir ∧ SameLog log ir.typeLog := by
  refine ⟨_,_,rfl,?_⟩
  exact (cachedTypes_iff letLiteral _ _ rfl).2 (by decide)

/-- `fn none() -> [i32] { [] }`: the checker takes the element type from the return type,
lowering enters the body with no context. -/
def tailLiteral : Ast.Program :=
  ⟨[.fn ⟨"none",[],some (.dynamicArray (.primitive .i32 here) here),
    .mk [] (some (.arrayLit [] here)) here,true,here⟩]⟩

theorem cachedTypes_tailLiteral : ∃ info log, analyzeLog tailLiteral = .ok (info,log) ∧
    ¬∃ ir, lowerProgram tailLiteral info = some ir ∧ SameLog log ir.typeLog := by
  refine ⟨_,_,rfl,?_⟩
  rintro ⟨ir,lowered,-,same⟩
  obtain rfl := Option.some.inj lowered
  cases same with
  | cons row _ =>
    cases row with
    | cons cell _ => exact absurd cell (by decide)

end Oscan
