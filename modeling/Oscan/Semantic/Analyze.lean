import Oscan.Semantic.Check

/-! The two passes over the top-level declarations: collection, then checking. -/
namespace Oscan.Semantic
open Ast

namespace Analyzer

variable (self : Analyzer)

def collectFields : List Field → Check (List (String × BcType))
  | [] => return []
  | f :: fields => do
    let ty ← self.resolveType f.ty
    if ty == .handle then reject f.ty.span "handle type cannot be used in struct fields"
    else return (f.name,ty) :: (← collectFields fields)

def collectPayload : List Ty → Check (List BcType)
  | [] => return []
  | t :: ts => do
    let ty ← self.resolveType t
    if ty == .handle then reject t.span "handle type cannot be used in enum payloads"
    else return ty :: (← collectPayload ts)

def collectVariants : List Variant → Check (List (String × List BcType))
  | [] => return []
  | v :: variants => do
    let payload ← self.collectPayload v.payloadTypes
    return (v.name,payload) :: (← collectVariants variants)

def collectParams : List Param → Check (List (String × BcType))
  | [] => return []
  | p :: params => do
    let ty ← self.resolveType p.ty
    return (p.name,ty) :: (← collectParams params)

def collectExterns : Analyzer → List ExternFnDecl → Check Analyzer
  | self,[] => return self
  | self,ef :: decls => do
    rejectReservedCollectionName ef.name ef.span
    let params ← self.collectParams ef.params
    let returnType ← self.resolveReturn ef.returnType
    if (self.functions.lookup ef.name).isSome then
      reject ef.span s!"duplicate extern function '{ef.name}'"
    else
      collectExterns
        {self with functions := (ef.name,⟨params,returnType,false,true⟩) :: self.functions} decls

def collectDecl : TopDecl → Check Analyzer
  | .struct s => do
    let fields ← self.collectFields s.fields
    if (self.structs.lookup s.name).isSome then reject s.span s!"duplicate struct '{s.name}'"
    else return {self with structs := (s.name,⟨fields⟩) :: self.structs}
  | .enum e => do
    let variants ← self.collectVariants e.variants
    if (self.enums.lookup e.name).isSome then reject e.span s!"duplicate enum '{e.name}'"
    else return {self with enums := (e.name,⟨variants⟩) :: self.enums}
  | .fn f => do
    rejectReservedCollectionName f.name f.span
    let params ← self.collectParams f.params
    let returnType ← self.resolveReturn f.returnType
    if (self.functions.lookup f.name).isSome then reject f.span s!"duplicate function '{f.name}'"
    else return {self with
      functions := (f.name,⟨params,returnType,f.isPure,false⟩) :: self.functions}
  | .letDecl l => do
    rejectReservedCollectionName l.name l.span
    let ty ← self.resolveType l.ty
    if (self.constants.lookup l.name).isSome then
      reject l.span s!"duplicate constant '{l.name}'"
    else return {self with constants := (l.name,⟨ty⟩) :: self.constants}
  | .externBlock eb => self.collectExterns eb.decls
  | .useDecl .. => return self

def collectDecls : Analyzer → List TopDecl → Check Analyzer
  | self,[] => return self
  | self,decl :: decls => do collectDecls (← self.collectDecl decl) decls

/-- The parameters go into the frame of the function, with no check against other frames. -/
def bindParams : List (Scope BindingInfo) → List Param → Check (List (Scope BindingInfo))
  | scopes,[] => return scopes
  | scopes,p :: params => do
    rejectReservedCollectionName p.name p.span
    let ty ← self.resolveType p.ty
    if (scopes.head?.bind (·.lookup p.name)).isSome then
      reject p.span s!"duplicate parameter '{p.name}'"
    else bindParams (insertBinding p.name ⟨ty,false⟩ scopes) params

/-- The analyzer as it stands when the body of `func` is checked, and the log of the body. -/
def checkFn (func : FnDecl) : Check (List BcType) := do
  let returnType ← self.resolveReturn func.returnType
  let entered := {self with currentFnReturnType := some returnType,inPureFn := func.isPure}
  let scopes ← entered.bindParams ([] :: self.scopes) func.params
  let body ← checkBlock {entered with scopes} func.body (some returnType)
  if !body.ty.isCompatibleWith returnType then
    reject func.span s!"function '{func.name}': expected return type {returnType}, got {body.ty}"
  else return body.log

/-- A constant is checked in a frame of its own. -/
def checkConst (l : LetDecl) : Check (List BcType) := do
  let expected ← self.resolveType l.ty
  let actual ← checkExpr self.pushScope (some expected) l.value
  if !actual.ty.isCompatibleWith expected then
    reject l.span s!"constant '{l.name}': expected {expected}, got {actual.ty}"
  else return actual.log

def checkDecls : List TopDecl → Check TypeLog
  | [] => return ⟨[],[]⟩
  | .fn f :: decls => do
    let log ← self.checkFn f
    let rest ← checkDecls decls
    return {rest with fns := log :: rest.fns}
  | .letDecl l :: decls => do
    let log ← self.checkConst l
    let rest ← checkDecls decls
    return {rest with consts := log :: rest.consts}
  | _ :: decls => checkDecls decls

def info : SemanticInfo := ⟨self.structs,self.enums,self.functions,self.constants⟩

end Analyzer

def initial : Analyzer :=
  ⟨[],[],registerBuiltins,[],[],none,false,0⟩

/-- The analyzer after the first pass: every declaration collected, none checked. -/
def collect (program : Program) : Check Analyzer := initial.collectDecls program.decls

/-- Acceptance, with the types given to all expression occurrences. -/
def analyzeLog (program : Program) : Check (SemanticInfo × TypeLog) := do
  let sa ← collect program
  let log ← sa.checkDecls program.decls
  return (sa.info,log)

def analyze (program : Program) : Check SemanticInfo := do
  let (info,_) ← analyzeLog program
  return info

end Oscan.Semantic
