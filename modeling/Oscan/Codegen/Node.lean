import Oscan.Ir

/-! The expressions and statements inside a program, and the types that they carry. -/
namespace Oscan.Ir

inductive Node where
  | expr (e : Expr)
  | stmt (s : Stmt)

mutual
def Expr.nodes (e : Expr) : List Node :=
  .expr e ::
    match e with
    | .intLit .. | .floatLit .. | .stringLit .. | .boolLit .. | .ident .. => []
    | .interpolatedString parts _ => partsNodes parts
    | .binaryOp _ left right _ _ => left.nodes ++ right.nodes
    | .unaryOp _ operand _ _ => operand.nodes
    | .cast e _ _ => e.nodes
    | .call _ args _ _ => exprsNodes args
    | .fieldAccess e _ _ _ => e.nodes
    | .index e index _ _ => e.nodes ++ index.nodes
    | .block b => b.nodes
    | .ifExpr condition thenBlock elseBranch _ _ =>
      condition.nodes ++ thenBlock.nodes ++ tailNodes elseBranch
    | .matchExpr scrutinee arms _ _ => scrutinee.nodes ++ armsNodes arms
    | .tryExpr call _ _ => call.nodes
    | .arrayLit elements _ _ _ => exprsNodes elements
    | .structLit _ fields _ => fieldsNodes fields
    | .enumConstructor _ _ args _ _ => exprsNodes args
    | .arena body _ => body.nodes
def exprsNodes : List Expr → List Node
  | [] => []
  | e :: es => e.nodes ++ exprsNodes es
def partsNodes : List InterpolatedStringPart → List Node
  | [] => []
  | .text _ :: parts => partsNodes parts
  | .expr e :: parts => e.nodes ++ partsNodes parts
def fieldsNodes : List FieldInit → List Node
  | [] => []
  | .mk _ value _ :: fields => value.nodes ++ fieldsNodes fields
def armsNodes : List MatchArm → List Node
  | [] => []
  | .mk _ body _ :: arms => body.nodes ++ armsNodes arms
def Block.nodes : Block → List Node
  | .mk stmts tailExpr _ => stmtsNodes stmts ++ tailNodes tailExpr
def tailNodes : Option Expr → List Node
  | none => []
  | some e => e.nodes
def stmtsNodes : List Stmt → List Node
  | [] => []
  | stmt :: stmts => stmt.nodes ++ stmtsNodes stmts
def accessorsNodes : List PlaceAccessor → List Node
  | [] => []
  | .field _ :: accessors => accessorsNodes accessors
  | .index e :: accessors => e.nodes ++ accessorsNodes accessors
def Place.nodes : Place → List Node
  | .mk _ accessors _ _ => accessorsNodes accessors
def Stmt.nodes (stmt : Stmt) : List Node :=
  .stmt stmt ::
    match stmt with
    | .letStmt _ _ _ value _ => value.nodes
    | .assign target value _ => target.nodes ++ value.nodes
    | .compoundAssign target _ value _ => target.nodes ++ value.nodes
    | .expr e _ => e.nodes
    | .whileStmt condition body _ => condition.nodes ++ body.nodes
    | .forStmt _ start stop body _ => start.nodes ++ stop.nodes ++ body.nodes
    | .forIn _ iterable body _ => iterable.nodes ++ body.nodes
    | .returnStmt value _ => tailNodes value
    | .deferStmt e _ => e.nodes
    | .breakStmt _ | .continueStmt _ => []
end

/-- The nodes below a node, itself included. -/
def Node.nodes : Node → List Node
  | .expr e => e.nodes
  | .stmt s => s.nodes

theorem rooted {n root : Node} {inside : List Node} (self : root.nodes = root :: inside)
    (trans : n ∈ inside → n.nodes ⊆ inside) : n ∈ root :: inside → n.nodes ⊆ root :: inside := by
  intro member
  rcases List.mem_cons.mp member with rfl | later
  · rw [self]
    exact List.Subset.refl _
  · exact List.subset_cons_of_subset _ (trans later)

theorem joined {n : Node} {left right : List Node} (first : n ∈ left → n.nodes ⊆ left)
    (second : n ∈ right → n.nodes ⊆ right) : n ∈ left ++ right → n.nodes ⊆ left ++ right := by
  intro member
  rcases List.mem_append.mp member with before | after
  · exact List.subset_append_of_subset_left _ (first before)
  · exact List.subset_append_of_subset_right _ (second after)

mutual
/-- What is inside a part of an expression is inside the expression. -/
theorem Expr.nodes_trans : ∀ (e : Expr) (n : Node), n ∈ e.nodes → n.nodes ⊆ e.nodes
  | .intLit ..,n | .floatLit ..,n | .stringLit ..,n | .boolLit ..,n | .ident ..,n => by
    unfold Expr.nodes
    exact rooted rfl nofun
  | .interpolatedString parts _,n => by
    unfold Expr.nodes
    exact rooted rfl (partsNodes_trans parts n)
  | .binaryOp _ left right _ _,n => by
    unfold Expr.nodes
    exact rooted rfl (joined (left.nodes_trans n) (right.nodes_trans n))
  | .unaryOp _ operand _ _,n => by
    unfold Expr.nodes
    exact rooted rfl (operand.nodes_trans n)
  | .cast e _ _,n => by
    unfold Expr.nodes
    exact rooted rfl (e.nodes_trans n)
  | .call _ args _ _,n => by
    unfold Expr.nodes
    exact rooted rfl (exprsNodes_trans args n)
  | .fieldAccess e _ _ _,n => by
    unfold Expr.nodes
    exact rooted rfl (e.nodes_trans n)
  | .index e index _ _,n => by
    unfold Expr.nodes
    exact rooted rfl (joined (e.nodes_trans n) (index.nodes_trans n))
  | .block b,n => by
    unfold Expr.nodes
    exact rooted rfl (b.nodes_trans n)
  | .ifExpr condition thenBlock elseBranch _ _,n => by
    unfold Expr.nodes
    exact rooted rfl (joined (joined (condition.nodes_trans n) (thenBlock.nodes_trans n))
      (tailNodes_trans elseBranch n))
  | .matchExpr scrutinee arms _ _,n => by
    unfold Expr.nodes
    exact rooted rfl (joined (scrutinee.nodes_trans n) (armsNodes_trans arms n))
  | .tryExpr call _ _,n => by
    unfold Expr.nodes
    exact rooted rfl (call.nodes_trans n)
  | .arrayLit elements _ _ _,n => by
    unfold Expr.nodes
    exact rooted rfl (exprsNodes_trans elements n)
  | .structLit _ fields _,n => by
    unfold Expr.nodes
    exact rooted rfl (fieldsNodes_trans fields n)
  | .enumConstructor _ _ args _ _,n => by
    unfold Expr.nodes
    exact rooted rfl (exprsNodes_trans args n)
  | .arena body _,n => by
    unfold Expr.nodes
    exact rooted rfl (body.nodes_trans n)
theorem exprsNodes_trans : ∀ (es : List Expr) (n : Node), n ∈ exprsNodes es → n.nodes ⊆ exprsNodes es
  | [],_ => nofun
  | e :: es,n => joined (e.nodes_trans n) (exprsNodes_trans es n)
theorem partsNodes_trans : ∀ (parts : List InterpolatedStringPart) (n : Node),
    n ∈ partsNodes parts → n.nodes ⊆ partsNodes parts
  | [],_ => nofun
  | .text _ :: parts,n => partsNodes_trans parts n
  | .expr e :: parts,n => joined (e.nodes_trans n) (partsNodes_trans parts n)
theorem fieldsNodes_trans : ∀ (fields : List FieldInit) (n : Node),
    n ∈ fieldsNodes fields → n.nodes ⊆ fieldsNodes fields
  | [],_ => nofun
  | .mk _ value _ :: fields,n => joined (value.nodes_trans n) (fieldsNodes_trans fields n)
theorem armsNodes_trans : ∀ (arms : List MatchArm) (n : Node),
    n ∈ armsNodes arms → n.nodes ⊆ armsNodes arms
  | [],_ => nofun
  | .mk _ body _ :: arms,n => joined (body.nodes_trans n) (armsNodes_trans arms n)
theorem Block.nodes_trans : ∀ (b : Block) (n : Node), n ∈ b.nodes → n.nodes ⊆ b.nodes
  | .mk stmts tailExpr _,n => joined (stmtsNodes_trans stmts n) (tailNodes_trans tailExpr n)
theorem tailNodes_trans : ∀ (tailExpr : Option Expr) (n : Node),
    n ∈ tailNodes tailExpr → n.nodes ⊆ tailNodes tailExpr
  | none,_ => nofun
  | some e,n => e.nodes_trans n
theorem stmtsNodes_trans : ∀ (stmts : List Stmt) (n : Node),
    n ∈ stmtsNodes stmts → n.nodes ⊆ stmtsNodes stmts
  | [],_ => nofun
  | stmt :: stmts,n => joined (stmt.nodes_trans n) (stmtsNodes_trans stmts n)
theorem accessorsNodes_trans : ∀ (accessors : List PlaceAccessor) (n : Node),
    n ∈ accessorsNodes accessors → n.nodes ⊆ accessorsNodes accessors
  | [],_ => nofun
  | .field _ :: accessors,n => accessorsNodes_trans accessors n
  | .index e :: accessors,n => joined (e.nodes_trans n) (accessorsNodes_trans accessors n)
theorem Place.nodes_trans : ∀ (place : Place) (n : Node), n ∈ place.nodes → n.nodes ⊆ place.nodes
  | .mk _ accessors _ _,n => accessorsNodes_trans accessors n
theorem Stmt.nodes_trans : ∀ (stmt : Stmt) (n : Node), n ∈ stmt.nodes → n.nodes ⊆ stmt.nodes
  | .letStmt _ _ _ value _,n => by
    unfold Stmt.nodes
    exact rooted rfl (value.nodes_trans n)
  | .assign target value _,n => by
    unfold Stmt.nodes
    exact rooted rfl (joined (target.nodes_trans n) (value.nodes_trans n))
  | .compoundAssign target _ value _,n => by
    unfold Stmt.nodes
    exact rooted rfl (joined (target.nodes_trans n) (value.nodes_trans n))
  | .expr e _,n => by
    unfold Stmt.nodes
    exact rooted rfl (e.nodes_trans n)
  | .whileStmt condition body _,n => by
    unfold Stmt.nodes
    exact rooted rfl (joined (condition.nodes_trans n) (body.nodes_trans n))
  | .forStmt _ start stop body _,n => by
    unfold Stmt.nodes
    exact rooted rfl (joined (joined (start.nodes_trans n) (stop.nodes_trans n)) (body.nodes_trans n))
  | .forIn _ iterable body _,n => by
    unfold Stmt.nodes
    exact rooted rfl (joined (iterable.nodes_trans n) (body.nodes_trans n))
  | .returnStmt value _,n => by
    unfold Stmt.nodes
    exact rooted rfl (tailNodes_trans value n)
  | .deferStmt e _,n => by
    unfold Stmt.nodes
    exact rooted rfl (e.nodes_trans n)
  | .breakStmt _,n | .continueStmt _,n => by
    unfold Stmt.nodes
    exact rooted rfl nofun
end

def Place.baseTy : Place → BcType
  | .mk _ _ ty _ => ty

/-- The types written in a node itself. -/
def Node.types : Node → List BcType
  | .expr (.arrayLit _ elemTy ty _) => [elemTy,ty]
  | .expr e => [e.ty]
  | .stmt (.letStmt _ _ ty _ _) => [ty]
  | .stmt (.assign target _ _) => [target.baseTy]
  | .stmt (.compoundAssign target _ _ _) => [target.baseTy]
  | .stmt _ => []

/-- The nodes of all constants and function bodies. -/
def Program.nodes (program : Program) : List Node :=
  program.constDefs.flatMap (·.value.nodes) ++ program.fnDefs.flatMap (·.body.nodes)

/-- The types of the declarations of a program. -/
def Program.declaredTypes (program : Program) : List BcType :=
  program.structDefs.flatMap (·.fields.map (·.2)) ++
  program.enumDefs.flatMap (·.variants.flatMap (·.2)) ++
  program.externBlocks.flatMap (·.decls.flatMap fun d => d.params.map (·.2) ++ [d.returnType]) ++
  program.constDefs.map (·.ty) ++
  program.fnDefs.flatMap fun f => f.params.map (·.2) ++ [f.returnType]

end Oscan.Ir

namespace Oscan.BcType

mutual
/-- A type and the types inside it. -/
def parts (ty : BcType) : List BcType :=
  ty ::
    match ty with
    | .array e | .fixedArray e _ => parts e
    | .result o e => parts o ++ parts e
    | .fnPtr params ret _ => partsOf params ++ parts ret
    | _ => []
def partsOf : List BcType → List BcType
  | [] => []
  | t :: ts => parts t ++ partsOf ts
end

end Oscan.BcType

namespace Oscan.Ir

/-- The types that occur in a program, in a declaration, on a node or inside another one. -/
def Program.occurring (program : Program) : List BcType :=
  (program.declaredTypes ++ program.nodes.flatMap Node.types).flatMap BcType.parts

end Oscan.Ir
