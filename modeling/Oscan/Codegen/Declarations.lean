import Oscan.Codegen.TypeName
import Oscan.Library.Staged

/-! The type declarations of the C file: the Result and function-pointer types that the collectors find,
and the loop that declares what is ready. The maps of the compiler have no order of their own, so what is
collected depends on the order in which the table of functions is read. -/
namespace Oscan.Codegen
open Library.Staged

def isRuntimeResultType (name : String) : Bool :=
  ["osc_result_str_str","osc_result_i32_str","osc_result_i64_str","osc_result_arr_i32_str",
    "osc_result_handle_str"].contains name

mutual
/-- `collect_result_types_from_bctype`: the Result types of a type in the order of the visits -/
def resultVisits : BcType → List (BcType × BcType)
  | .result ok err => (ok,err) :: (resultVisits ok ++ resultVisits err)
  | .array e | .fixedArray e _ => resultVisits e
  | .fnPtr params ret _ => resultVisitsAll params ++ resultVisits ret
  | _ => []
def resultVisitsAll : List BcType → List (BcType × BcType)
  | [] => []
  | t :: ts => resultVisits t ++ resultVisitsAll ts
end

mutual
/-- `collect_fn_ptr_from_bctype` looks only into parameters and results that are pointers themselves. -/
def fnPtrVisits : BcType → List BcType
  | .fnPtr params ret isPure => .fnPtr params ret isPure :: (fnPtrVisitsAll params ++ fnPtrVisits ret)
  | _ => []
def fnPtrVisitsAll : List BcType → List BcType
  | [] => []
  | t :: ts => fnPtrVisits t ++ fnPtrVisitsAll ts
end

mutual
/-- `collect_fn_ptr_from_bctype_deep` -/
def fnPtrVisitsDeep : BcType → List BcType
  | .fnPtr params ret isPure =>
    fnPtrVisits (.fnPtr params ret isPure) ++ (fnPtrVisitsDeepAll params ++ fnPtrVisitsDeep ret)
  | .array e | .fixedArray e _ => fnPtrVisitsDeep e
  | .result ok err => fnPtrVisitsDeep ok ++ fnPtrVisitsDeep err
  | _ => []
def fnPtrVisitsDeepAll : List BcType → List BcType
  | [] => []
  | t :: ts => fnPtrVisitsDeep t ++ fnPtrVisitsDeepAll ts
end

mutual
/-- The types that both collectors see in a block: those of its lets and of the lets of its loops. No
collector looks into an expression. -/
def blockTypes : Ir.Block → List BcType
  | .mk stmts _ _ => stmtsTypes stmts
def stmtsTypes : List Ir.Stmt → List BcType
  | [] => []
  | stmt :: stmts => stmtTypes stmt ++ stmtsTypes stmts
def stmtTypes : Ir.Stmt → List BcType
  | .letStmt _ _ ty _ _ => [ty]
  | .forStmt _ _ _ body _ | .forIn _ _ body _ | .whileStmt _ body _ => blockTypes body
  | _ => []
end

/-- The types of constants, fields, payloads and extern functions. -/
def sharedTypes (program : Ir.Program) : List BcType :=
  program.constDefs.map (·.ty) ++ program.structDefs.flatMap (fun s => s.fields.map (·.2)) ++
    program.enumDefs.flatMap (fun e => e.variants.flatMap (·.2)) ++
    program.externBlocks.flatMap fun block => block.decls.flatMap fun f => f.params.map (·.2) ++ [f.returnType]

def signatureTypes (f : FunctionInfo) : List BcType := f.params.map (·.2) ++ [f.returnType]

/-- Where `collect_result_types` looks before it comes to the table. -/
def resultSources (program : Ir.Program) : List BcType :=
  program.fnDefs.flatMap (fun f => f.returnType :: (f.params.map (·.2) ++ blockTypes f.body)) ++ sharedTypes program

/-- `collect_result_types`, with the table read in some order -/
def collectResultTypes (program : Ir.Program) (table : List FunctionInfo) : List (BcType × BcType) :=
  firstSeen id [] ((resultSources program).flatMap resultVisits ++
    table.flatMap fun f => (signatureTypes f).flatMap resultVisits)

/-- Where `collect_fn_ptr_types` looks behind the table. -/
def fnPtrSources (program : Ir.Program) : List BcType :=
  program.fnDefs.flatMap (fun f => f.params.map (·.2) ++ f.returnType :: blockTypes f.body) ++ sharedTypes program

/-- `CoreType::ALL` -/
def coreTypes : List CoreType := [.bool,.i32,.i64,.f64,.str]

def callbackTypes : List BcType :=
  coreTypes.flatMap fun source =>
    ([.any,.all,.filter,.fold,.forEach].map fun op => CollectionIntrinsic.mk op (some source) none).filterMap
        (·.callbackType) ++
      (coreTypes.map fun target => CollectionIntrinsic.mk .map (some source) (some target)).filterMap (·.callbackType)

/-- What `collect_fn_ptr_types` visits behind the table. -/
def laterFnPtrs (program : Ir.Program) : List BcType :=
  (fnPtrSources program).flatMap fnPtrVisitsDeep ++ callbackTypes.flatMap fnPtrVisits

def tableFnPtrs (f : FunctionInfo) : List BcType := (signatureTypes f).flatMap fnPtrVisitsDeep

/-- `collect_fn_ptr_types`, with the table read in some order -/
def collectFnPtrTypes (program : Ir.Program) (table : List FunctionInfo) : List BcType :=
  firstSeen typeTag [] (table.flatMap tableFnPtrs ++ laterFnPtrs program)

inductive CTypeDecl where
  | result (ok err : BcType)
  | struct (name : String) (fields : List (String × BcType))
  | enum (name : String) (variants : List (String × List BcType))
  | fnPtr (ty : BcType)

def typeDeclName : CTypeDecl → String
  | .result ok err => resultTypeName ok err
  | .struct name _ | .enum name _ => name
  | .fnPtr ty => fnPtrTypedefName ty

def cTypeIsAvailable (available : List String) : BcType → Bool
  | .struct name | .enum name => available.contains name
  | .result ok err => isRuntimeResultType (resultTypeName ok err) || available.contains (resultTypeName ok err)
  | .fnPtr params ret isPure => available.contains (fnPtrTypedefName (.fnPtr params ret isPure))
  | _ => true

def typeDeclIsReady (available : List String) : CTypeDecl → Bool
  | .result ok err => cTypeIsAvailable available ok && cTypeIsAvailable available err
  | .struct _ fields => fields.all fun f => cTypeIsAvailable available f.2
  | .enum _ variants => variants.all fun v => v.2.all (cTypeIsAvailable available)
  | .fnPtr (.fnPtr params ret _) => params.all (cTypeIsAvailable available) && cTypeIsAvailable available ret
  | .fnPtr _ => false

/-- Line `s` at a level of indentation -/
def indented (level : Nat) (s : String) : String := String.join (List.replicate level "    ") ++ s

def numbered {α β : Type} (f : Nat → α → β) (xs : List α) : List β := xs.zipIdx.map fun p => f p.2 p.1

def emitResultTypedef (ok err : BcType) : List String :=
  ["OSC_RESULT_DECL(" ++ (if ok = .unit then "uint8_t" else typeToC ok) ++ ", " ++ typeToC err ++ ", " ++
    resultTypeName ok err ++ ");",""]

def emitStructDef (name : String) (fields : List (String × BcType)) : List String :=
  "typedef struct \x7b" :: fields.map (fun f => indented 1 (typeToC f.2 ++ " " ++ f.1 ++ ";")) ++ ["\x7d " ++ name ++ ";",""]

def emitEnumDef (name : String) (variants : List (String × List BcType)) : List String :=
  numbered (fun i v => "#define " ++ name ++ "_TAG_" ++ v.1 ++ " " ++ toString i) variants ++ "" ::
    (if variants.any fun v => !v.2.isEmpty then
      "typedef struct \x7b" :: indented 1 "int tag;" :: indented 1 "union \x7b" ::
        (variants.filter fun v => !v.2.isEmpty).flatMap (fun v =>
          indented 2 "struct \x7b" :: numbered (fun i t => indented 3 (typeToC t ++ " _" ++ toString i ++ ";")) v.2 ++
            [indented 2 ("\x7d " ++ v.1 ++ ";")]) ++
        [indented 1 "\x7d data;","\x7d " ++ name ++ ";"]
    else ["typedef int " ++ name ++ ";"]) ++ [""]

def emitFnPtrTypedef : BcType → List String
  | .fnPtr params ret isPure =>
    ["typedef " ++ typeToC ret ++ " (*" ++ fnPtrTypedefName (.fnPtr params ret isPure) ++ ")(" ++
      ", ".intercalate ("osc_arena*" :: params.map typeToC) ++ ");",""]
  | _ => []

/-- The lines of a declaration, without the line markers of debug builds. -/
def emitTypeDecl : CTypeDecl → List String
  | .result ok err => emitResultTypedef ok err
  | .struct name fields => emitStructDef name fields
  | .enum name variants => emitEnumDef name variants
  | .fnPtr ty => emitFnPtrTypedef ty

def resultDecls (program : Ir.Program) (table : List FunctionInfo) : List CTypeDecl :=
  (firstSeen (fun p => resultTypeName p.1 p.2) [] ((collectResultTypes program table).filter fun p =>
    !isRuntimeResultType (resultTypeName p.1 p.2))).map fun p => .result p.1 p.2

def sourceDecls (program : Ir.Program) : List CTypeDecl :=
  program.structDefs.map (fun s => .struct s.name s.fields) ++
    program.enumDefs.map fun e => .enum e.name e.variants

/-- `pending` of `emit_type_declarations` -/
def pendingDecls (program : Ir.Program) (table : List FunctionInfo) : List CTypeDecl :=
  sourceDecls program ++ resultDecls program table ++ (collectFnPtrTypes program table).map .fnPtr

/-- The names that must be declared in front of a type. -/
def neededNames : BcType → List String
  | .struct name | .enum name => [name]
  | .result ok err => if isRuntimeResultType (resultTypeName ok err) then [] else [resultTypeName ok err]
  | .fnPtr params ret isPure => [fnPtrTypedefName (.fnPtr params ret isPure)]
  | _ => []

def declNeeds : CTypeDecl → List String
  | .result ok err => neededNames ok ++ neededNames err
  | .struct _ fields => fields.flatMap fun f => neededNames f.2
  | .enum _ variants => variants.flatMap fun v => v.2.flatMap neededNames
  | .fnPtr (.fnPtr params ret _) => params.flatMap neededNames ++ neededNames ret
  | .fnPtr _ => []

/-- A declaration as the loop and the reader of the C file see it: the purity of a pointer is gone. -/
structure Declaration where
  name : String
  needs : List String
  lines : List String
deriving DecidableEq

def CTypeDecl.declaration (d : CTypeDecl) : Declaration := ⟨typeDeclName d,declNeeds d,emitTypeDecl d⟩

/-- The loop of `emit_type_declarations`; no result is its panic. -/
def emitTypeDeclarations (program : Ir.Program) (table : List FunctionInfo) : Option (List CTypeDecl) :=
  arrange typeDeclName declNeeds (pendingDecls program table)

theorem cTypeIsAvailable_iff {available : List String} {ty : BcType} :
    cTypeIsAvailable available ty = true ↔ ∀ name ∈ neededNames ty, name ∈ available := by
  cases ty with
  | result ok err =>
    rw [cTypeIsAvailable,neededNames]
    cases isRuntimeResultType (resultTypeName ok err) <;> simp
  | _ => simp [cTypeIsAvailable,neededNames]

/-- Collected function-pointer types are function pointers. -/
def CTypeDecl.proper : CTypeDecl → Prop
  | .fnPtr ty => ∃ params ret isPure, ty = .fnPtr params ret isPure
  | _ => True

/-- A declaration is ready when what it needs is declared. -/
theorem typeDeclIsReady_iff {available : List String} {d : CTypeDecl} (proper : d.proper) :
    typeDeclIsReady available d = ready declNeeds available d := by
  rw [Bool.eq_iff_iff,ready,decide_eq_true_eq]
  cases d with
  | result ok err =>
    simp only [typeDeclIsReady,Bool.and_eq_true,cTypeIsAvailable_iff,declNeeds,
      List.mem_append,or_imp,forall_and]
  | struct name fields =>
    simp only [typeDeclIsReady,List.all_eq_true,cTypeIsAvailable_iff,declNeeds,
      List.mem_flatMap]
    constructor
    · rintro all k ⟨f,member,is⟩
      exact all f member k is
    · intro all f member k is
      exact all k ⟨f,member,is⟩
  | enum name variants =>
    simp only [typeDeclIsReady,List.all_eq_true,cTypeIsAvailable_iff,declNeeds,
      List.mem_flatMap]
    constructor
    · rintro all k ⟨v,member,t,among,is⟩
      exact all v member t among k is
    · intro all v member t among k is
      exact all k ⟨v,member,t,among,is⟩
  | fnPtr ty =>
    obtain ⟨params,ret,isPure,rfl⟩ := proper
    simp only [typeDeclIsReady,Bool.and_eq_true,List.all_eq_true,cTypeIsAvailable_iff,declNeeds,List.mem_append,List.mem_flatMap,or_imp,forall_and]
    refine and_congr_left fun _ => ⟨?_,?_⟩
    · rintro all k ⟨t,member,is⟩
      exact all t member k is
    · intro all t member k is
      exact all k ⟨t,member,is⟩

end Oscan.Codegen
