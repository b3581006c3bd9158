import Mathlib.Data.List.Forall2
import Oscan.Backend.ExternShim

/-! When the generated shims are C, have the parameters of their declarations and forward every argument. -/
namespace Oscan.ExternShim
open Ir Codegen Symbols
open Constants (LType)

section Meaning

/-- How a parameter of a C type is passed; a string by value has no place among the types of the LIR. -/
def CType.lir : CType → Option LType
  | .int32 => some .i32
  | .int64 => some .i64
  | .double => some .f64
  | .uint8 => some .i8
  | .uintptr | .oscMap | .oscArray | .strPointer | .constStrPointer => some .ptr
  | .oscStr | .void => none

/-- What a C function is given -/
inductive CValue (Word Str : Type) where
  | word (w : Word)
  | str (s : Str)

/-- A memory in which addresses hold strings -/
structure Memory (Word Str Mem : Type) where
  load : Mem → Word → Str
  store : Mem → Word → Str → Mem

variable {Word Str Mem : Type} (memory : Memory Word Str Mem)

/-- The extern function: what it returns, if anything, and the memory that it leaves -/
abbrev RealFunction (Word Str Mem : Type) := List (CValue Word Str) → Mem → Option (CValue Word Str) × Mem

def frame : List CParam → List Word → Option (List (CName × Word))
  | [],[] => some []
  | param :: params,arg :: args => (frame params args).map fun rest => (param.name,arg) :: rest
  | _,_ => none

def evalArg (env : List (CName × Word)) (mem : Mem) : CArg → Option (CValue Word Str)
  | .name n => (env.lookup n).map .word
  | .deref n => (env.lookup n).map fun address => .str (memory.load mem address)

def evalArgs (env : List (CName × Word)) (mem : Mem) : List CArg → Option (List (CValue Word Str))
  | [] => some []
  | arg :: args => do
    let value ← evalArg memory env mem arg
    let values ← evalArgs env mem args
    return value :: values

def evalBody (real : RealFunction Word Str Mem) (env : List (CName × Word)) (mem : Mem) :
    CBody → Option (Option Word × Mem)
  | .call args => do
    let values ← evalArgs memory env mem args
    return (none,(real values mem).2)
  | .assignOut args => do
    let values ← evalArgs memory env mem args
    let address ← env.lookup .out
    match real values mem with
    | (some (.str s),mem) => some (none,memory.store mem address s)
    | _ => none
  | .returnCall args => do
    let values ← evalArgs memory env mem args
    match real values mem with
    | (some (.word w),mem) => some (some w,mem)
    | _ => none

/-- A call of a shim, which needs an argument for every parameter and no other -/
def ShimDefinition.run (d : ShimDefinition) (real : RealFunction Word Str Mem) (args : List Word) (mem : Mem) :
    Option (Option Word × Mem) := do
  let env ← frame d.params args
  evalBody memory real env mem d.body

/-- What a C function of a return type returns -/
def Returns (ty : BcType) (result : Option (CValue Word Str)) : Prop :=
  if ty = .str then ∃ s, result = some (.str s)
  else if ty = .unit then result = none
  else ∃ w, result = some (.word w)

/-- The values of some parameters: only a unit has none. -/
def Valued (params : List (String × BcType)) (argVals : List (Option Word)) : Prop :=
  List.Forall₂ (fun p v => v = none ↔ p.2 = .unit) params argVals

/-- What the declared function is to be called with: each argument in its place, with strings by value -/
def forwarded (mem : Mem) : List (String × BcType) → List (Option Word) → List (CValue Word Str)
  | (_,ty) :: params,some w :: argVals =>
    (if ty = .str then .str (memory.load mem w) else .word w) :: forwarded mem params argVals
  | _ :: params,none :: argVals => forwarded mem params argVals
  | _,_ => []

/-- What a call of a declared function comes to, with a place for a string that it returns -/
def declaredCall (real : RealFunction Word Str Mem) (ef : ExternFnDef) (out : Word) (argVals : List (Option Word))
    (mem : Mem) : Option Word × Mem :=
  match real (forwarded memory mem ef.params argVals) mem with
  | (some (.str s),mem) => (some out,memory.store mem out s)
  | (some (.word w),mem) => (some w,mem)
  | (none,mem) => (none,mem)

end Meaning

/-- A definition has the parameters of the declared signature, in their order, and returns as it says. -/
def SameSignature (d : ShimDefinition) (sig : LSig) : Prop :=
  d.params.map (·.type.lir) = sig.params.map some ∧ d.ret.lir = sig.ret

/-- Every call passes what the shim takes, and the shim hands it on and stores or returns the result. -/
def Forwards (d : ShimDefinition) (ef : ExternFnDef) : Prop :=
  ∀ (Word Str Mem : Type) (memory : Memory Word Str Mem) (real : RealFunction Word Str Mem),
    (∀ values mem, Returns ef.returnType (real values mem).1) →
    ∀ (argVals : List (Option Word)), Valued ef.params argVals → ∀ (out : Word) (mem : Mem),
      (d.run memory real (shimCallArgs ef.returnType out argVals) mem).map
        (fun end' => (shimCallValue ef.returnType out end'.1,end'.2)) =
        some (declaredCall memory real ef out argVals mem)

/-- No parameter is of type void and no function is defined twice. -/
structure CSource.WellFormed (source : CSource) : Prop where
  prototypes : ∀ prototype ∈ source.prototypes, ∀ param ∈ prototype.params, param.type ≠ .void
  definitions : ∀ d ∈ source.definitions, ∀ param ∈ d.params, param.type ≠ .void
  once : (source.definitions.map (·.name)).Nodup

/-- The shims of some extern functions agree with what the object file makes of them. -/
structure ShimsAgree (enums : List (String × EnumInfo)) (externs : List ExternFnDef) (source : CSource) : Prop where
  wellFormed : source.WellFormed
  agree : ∀ ef ∈ externs, ∃ d ∈ source.definitions,
    d.name = Symbols.shimSymbol ef.name ef.params ef.returnType ∧ d.real = mangleCName ef.name ∧
    SameSignature d (externShimSignature enums ef.params ef.returnType) ∧ Forwards d ef

section Definition
variable {enums : List (String × EnumInfo)}

/-- A type that can be in the signature of a shim -/
def Supported (enums : List (String × EnumInfo)) (ty : BcType) : Prop := ∃ c, cTypeForGeneratedShim enums ty = .ok c

theorem kind_supported {ty : BcType} (known : ∀ reason, nativeExternTypeKind enums ty ≠ .unsupported reason) :
    Supported enums ty := by
  cases ty with
  | struct name => exact absurd rfl (known _)
  | result ok err => exact absurd rfl (known _)
  | fnPtr params ret pure => exact absurd rfl (known _)
  | enum name =>
    have plain : enumHasPayload enums name = false := by
      cases payload : enumHasPayload enums name with
      | false => rfl
      | true => exact absurd (by rw [nativeExternTypeKind,if_pos payload]) (known _)
    exact ⟨.int32,by simp only [cTypeForGeneratedShim,plain,Bool.false_eq_true,if_false]⟩
  | _ => exact ⟨_,rfl⟩

theorem needsShim_supported {name : String} : ∀ {params : List (String × BcType)} {returnType : BcType} {shim : Bool},
    needsShim enums name params returnType = .ok shim →
      (∀ p ∈ params, Supported enums p.2) ∧ Supported enums returnType
  | [],returnType,shim,checked => by
    refine ⟨by simp only [List.not_mem_nil,false_implies,implies_true],kind_supported fun reason refused => ?_⟩
    rw [needsShim,refused] at checked
    cases checked
  | (label,ty) :: params,returnType,shim,checked => by
    have first : Supported enums ty := by
      refine kind_supported fun reason refused => ?_
      rw [needsShim,refused] at checked
      cases checked
    have rest : ∃ shim, needsShim enums name params returnType = .ok shim := by
      rw [needsShim] at checked
      split at checked
      · cases inner : needsShim enums name params returnType with
        | error e => rw [inner] at checked; cases checked
        | ok shim => exact ⟨shim,rfl⟩
      · exact ⟨shim,checked⟩
      · cases checked
    obtain ⟨inner,checked⟩ := rest
    have later := needsShim_supported checked
    exact ⟨List.forall_mem_cons.mpr ⟨first,later.1⟩,later.2⟩

theorem classify_supported {ef : ExternFnDef} {symbol : String} (through : classify enums ef = .ok (.shim symbol)) :
    (∀ p ∈ ef.params, Supported enums p.2) ∧ Supported enums ef.returnType := by
  unfold classify at through
  cases checked : needsShim enums ef.name ef.params ef.returnType with
  | error e => rw [checked] at through; cases through
  | ok shim => exact needsShim_supported checked

/-- A supported type that is not a string is passed as its value is represented. -/
theorem cType_lir {ty : BcType} (other : ty ≠ .str) {c : CType} (supported : cTypeForGeneratedShim enums ty = .ok c) :
    c.lir = lirType enums ty := by
  cases ty with
  | str => exact absurd rfl other
  | struct name => cases supported
  | result ok err => cases supported
  | fnPtr params ret pure => cases supported
  | enum name =>
    simp only [cTypeForGeneratedShim] at supported
    split at supported
    · cases supported
    · next plain =>
      cases supported
      simp only [lirType,if_neg plain,CType.lir]
  | _ => cases supported; rfl

theorem cType_void {ty : BcType} {c : CType} (supported : cTypeForGeneratedShim enums ty = .ok c) :
    c = .void ↔ ty = .unit := by
  cases ty with
  | struct name => cases supported
  | result ok err => cases supported
  | fnPtr params ret pure => cases supported
  | enum name =>
    simp only [cTypeForGeneratedShim] at supported
    split at supported
    · cases supported
    · cases supported
      simp only [reduceCtorEq]
  | _ => cases supported; simp only [reduceCtorEq]

theorem shimParamType_ok {ty : BcType} (supported : Supported enums ty) :
    ∃ c, shimParamType enums ty = .ok c ∧ (c = .void ↔ ty = .unit) ∧
      c.lir = if ty = .str then some .ptr else lirType enums ty := by
  unfold shimParamType
  by_cases string : ty = .str
  · refine ⟨.constStrPointer,if_pos string,?_,(if_pos string).symm⟩
    subst string
    simp only [reduceCtorEq]
  · obtain ⟨c,given⟩ := supported
    exact ⟨c,by rw [if_neg string,given],cType_void given,by rw [if_neg string,cType_lir string given]⟩

def paramNames : Nat → List (String × BcType) → List CName
  | _,[] => []
  | i,_ :: params => .p i :: paramNames (i + 1) params

/-- The parameters of a shim are named by their place; one of type unit is written as void. -/
structure Parameters (enums : List (String × EnumInfo)) (i : Nat) (params : List (String × BcType))
    (ps : List CParam) : Prop where
  named : ps.map (·.name) = paramNames i params
  void : (∃ param ∈ ps, param.type = .void) ↔ ∃ p ∈ params, p.2 = .unit
  passed : (∀ p ∈ params, p.2 ≠ .unit) →
    ps.map (·.type.lir) = (params.filterMap (shimParamLir enums)).map some

theorem lirType_some {ty : BcType} (plain : ty ≠ .unit) : ∃ l, lirType enums ty = some l := by
  cases ty with
  | unit => exact absurd rfl plain
  | enum name =>
    by_cases payload : enumHasPayload enums name = true
    · exact ⟨.ptr,by rw [lirType,if_pos payload]⟩
    · exact ⟨.i32,by rw [lirType,if_neg payload]⟩
  | _ => exact ⟨_,rfl⟩

theorem shimParams_ok : ∀ (params : List (String × BcType)) (i : Nat), (∀ p ∈ params, Supported enums p.2) →
    ∃ ps, shimParams enums i params = .ok ps ∧ Parameters enums i params ps
  | [],i,_ => by
    refine ⟨[],rfl,rfl,?_,fun _ => rfl⟩
    simp only [List.not_mem_nil,false_and,exists_false]
  | (label,ty) :: params,i,supported => by
    obtain ⟨first,later⟩ := List.forall_mem_cons.mp supported
    obtain ⟨c,given,unit,passed⟩ := shimParamType_ok first
    obtain ⟨ps,rest,known⟩ := shimParams_ok params (i + 1) later
    refine ⟨⟨c,.p i⟩ :: ps,?_,?_,?_,?_⟩
    · simp only [shimParams,given,rest]
      rfl
    · rw [List.map_cons,known.named,paramNames]
    · simp only [List.exists_mem_cons_iff,unit,known.void]
    · intro plain
      obtain ⟨here,after⟩ := List.forall_mem_cons.mp plain
      have some' : ∃ l, (if ty = .str then some LType.ptr else lirType enums ty) = some l := by
        split
        · exact ⟨_,rfl⟩
        · exact lirType_some here
      obtain ⟨l,value⟩ := some'
      have first' : shimParamLir enums (label,ty) = some l := value
      rw [List.filterMap_cons_some first',List.map_cons,List.map_cons,known.passed after,passed]
      exact congrArg (· :: _) value

theorem paramNames_length (params : List (String × BcType)) (i : Nat) :
    (paramNames i params).length = params.length := by
  induction params generalizing i with
  | nil => rfl
  | cons p params hypothesis => rw [paramNames,List.length_cons,hypothesis,List.length_cons]

variable {Word Str Mem : Type}

theorem frame_zip : ∀ (params : List CParam) (args : List Word), params.length = args.length →
    frame params args = some ((params.map (·.name)).zip args)
  | [],[],_ => rfl
  | param :: params,arg :: args,same => by
    have rest := frame_zip params args (Nat.succ.inj same)
    rw [frame,rest]
    rfl

theorem lookup_paramNames (params : List (String × BcType)) (i : Nat) (words : List Word)
    (same : params.length = words.length) (k : Nat) :
    ((paramNames i params).zip words).lookup (.p (i + k)) = words[k]? := by
  induction params generalizing i words k with
  | nil =>
    obtain rfl := List.length_eq_zero_iff.mp same.symm
    rfl
  | cons p params hypothesis =>
    cases words with
    | nil => cases same
    | cons w words =>
      rw [paramNames,List.zip_cons_cons,List.lookup_cons]
      cases k with
      | zero => simp only [Nat.add_zero,beq_self_eq_true,List.getElem?_cons_zero]
      | succ k =>
        have apart : (CName.p (i + (k + 1)) == CName.p i) = false := by
          refine beq_false_of_ne fun equal => ?_
          have := CName.p.inj equal
          omega
        have shifted : i + (k + 1) = (i + 1) + k := by omega
        rw [apart,shifted,hypothesis (i + 1) words (Nat.succ.inj same) k,List.getElem?_cons_succ]

/-- The arguments of the real call are those of the declared function, as long as none of them is of type unit. -/
theorem evalArgs_forwarded (memory : Memory Word Str Mem) (mem : Mem) (env : List (CName × Word))
    {params : List (String × BcType)} {argVals : List (Option Word)} (valued : Valued params argVals)
    (plain : ∀ p ∈ params, p.2 ≠ .unit) (i : Nat)
    (found : ∀ k, env.lookup (.p (i + k)) = (argVals.filterMap id)[k]?) :
    evalArgs memory env mem (shimArgs i params) = some (forwarded memory mem params argVals) := by
  induction valued generalizing i with
  | nil => rfl
  | @cons p v params argVals known valued hypothesis =>
    obtain ⟨here,after⟩ := List.forall_mem_cons.mp plain
    cases v with
    | none => exact absurd (known.mp rfl) here
    | some w =>
      have first : env.lookup (.p i) = some w := found 0
      have later := hypothesis after (i + 1) (fun k => by
        have shifted : (i + 1) + k = i + (k + 1) := by omega
        rw [shifted,found (k + 1)]
        rfl)
      obtain ⟨label,ty⟩ := p
      have value : evalArg memory env mem (if ty = .str then .deref (.p i) else .name (.p i)) =
          some (if ty = .str then .str (memory.load mem w) else .word w) := by
        split
        · rw [evalArg,first]
          rfl
        · rw [evalArg,first]
          rfl
      rw [shimArgs,evalArgs,value,later]
      rfl

theorem valued_length {params : List (String × BcType)} {argVals : List (Option Word)}
    (valued : Valued params argVals) (plain : ∀ p ∈ params, p.2 ≠ .unit) :
    params.length = (argVals.filterMap id).length := by
  induction valued with
  | nil => rfl
  | @cons p v params argVals known valued hypothesis =>
    obtain ⟨here,after⟩ := List.forall_mem_cons.mp plain
    cases v with
    | none => exact absurd (known.mp rfl) here
    | some w => exact congrArg Nat.succ (hypothesis after)

theorem shimBody_other {ty : BcType} (string : ty ≠ .str) (unit : ty ≠ .unit) (args : List CArg) :
    shimBody args ty = .returnCall args := by
  cases ty with
  | str => exact absurd rfl string
  | unit => exact absurd rfl unit
  | _ => rfl

/-- The binding of the parameters of a shim to the arguments of a call -/
theorem shim_frame {params : List (String × BcType)} {ps : List CParam} (known : Parameters enums 0 params ps)
    (words : List Word) (same : params.length = words.length) :
    ∃ env, frame ps words = some env ∧ ∀ k, env.lookup (.p k) = words[k]? := by
  have count : ps.length = words.length := by
    rw [← same,← paramNames_length params 0,← known.named,List.length_map]
  refine ⟨_,frame_zip ps words count,fun k => ?_⟩
  rw [known.named,← lookup_paramNames params 0 words same k,Nat.zero_add]

theorem forwards_of (ef : ExternFnDef) (d : ShimDefinition) {ps : List CParam}
    (known : Parameters enums 0 ef.params ps)
    (params : d.params = if ef.returnType = .str then ⟨.strPointer,.out⟩ :: ps else ps)
    (body : d.body = shimBody (shimArgs 0 ef.params) ef.returnType) (plain : ∀ p ∈ ef.params, p.2 ≠ .unit) :
    Forwards d ef := by
  intro Word Str Mem memory real returns argVals valued out mem
  obtain ⟨env,framed,found⟩ := shim_frame known (argVals.filterMap id) (valued_length valued plain)
  have result := returns (forwarded memory mem ef.params argVals) mem
  have args (outer : List (CName × Word)) (same : ∀ k, outer.lookup (.p k) = env.lookup (.p k)) :
      evalArgs memory outer mem (shimArgs 0 ef.params) = some (forwarded memory mem ef.params argVals) :=
    evalArgs_forwarded memory mem outer valued plain 0 fun k => by rw [Nat.zero_add,same k,found k]
  cases answer : real (forwarded memory mem ef.params argVals) mem with
  | mk value after =>
    rw [answer] at result
    unfold ShimDefinition.run
    by_cases string : ef.returnType = .str
    · rw [Returns,if_pos string] at result
      obtain ⟨s,rfl⟩ := result
      have bound : frame d.params (shimCallArgs ef.returnType out argVals) = some ((.out,out) :: env) := by
        rw [params,shimCallArgs,if_pos string,if_pos string,frame,framed]
        rfl
      have ran : evalBody memory real ((.out,out) :: env) mem d.body = some (none,memory.store after out s) := by
        rw [body,string,shimBody,evalBody,args ((.out,out) :: env) fun _ => rfl]
        simp only [Option.bind_eq_bind,Option.bind_some,List.lookup_cons_self,answer]
      simp only [bound,ran,Option.bind_eq_bind,Option.bind_some,Option.map_some,declaredCall,answer,
        shimCallValue,if_pos string]
    · have bound : frame d.params (shimCallArgs ef.returnType out argVals) = some env := by
        rw [params,shimCallArgs,if_neg string,if_neg string,framed]
      by_cases unit : ef.returnType = .unit
      · rw [Returns,if_neg string,if_pos unit] at result
        subst result
        have ran : evalBody memory real env mem d.body = some (none,after) := by
          rw [body,unit,shimBody,evalBody,args env fun _ => rfl]
          simp only [Option.bind_eq_bind,Option.bind_some,answer,Option.pure_def]
        simp only [bound,ran,Option.bind_eq_bind,Option.bind_some,Option.map_some,declaredCall,answer,
          shimCallValue,if_neg string]
      · rw [Returns,if_neg string,if_neg unit] at result
        obtain ⟨w,rfl⟩ := result
        have ran : evalBody memory real env mem d.body = some (some w,after) := by
          rw [body,shimBody_other string unit,evalBody,args env fun _ => rfl]
          simp only [Option.bind_eq_bind,Option.bind_some,answer]
        simp only [bound,ran,Option.bind_eq_bind,Option.bind_some,Option.map_some,declaredCall,answer,
          shimCallValue,if_neg string]

/-- What is known of the shim of an extern function whose types are supported -/
structure Shim (enums : List (String × EnumInfo)) (ef : ExternFnDef) (d : ShimDefinition) : Prop where
  name : d.name = Symbols.shimSymbol ef.name ef.params ef.returnType
  real : d.real = mangleCName ef.name
  void : (∃ param ∈ d.params, param.type = .void) ↔ ∃ p ∈ ef.params, p.2 = .unit
  agrees : (∀ p ∈ ef.params, p.2 ≠ .unit) →
    SameSignature d (externShimSignature enums ef.params ef.returnType) ∧ Forwards d ef

theorem shimReturn_ok {ty : BcType} (supported : Supported enums ty) :
    ∃ c, shimReturn enums ty = .ok c ∧ c.lir = if ty = .str then none else lirType enums ty := by
  unfold shimReturn
  by_cases string : ty = .str
  · exact ⟨.void,if_pos string,(if_pos string).symm⟩
  · obtain ⟨c,given⟩ := supported
    exact ⟨c,by rw [if_neg string,given],by rw [if_neg string,cType_lir string given]⟩

theorem emitShimDefinition_ok {ef : ExternFnDef} (supported : ∀ p ∈ ef.params, Supported enums p.2)
    (returns : Supported enums ef.returnType) :
    ∃ d, emitShimDefinition enums (shimOf ef) = .ok d ∧ Shim enums ef d := by
  obtain ⟨ret,given,lowered⟩ := shimReturn_ok returns
  obtain ⟨ps,listed,known⟩ := shimParams_ok ef.params 0 supported
  let params := if ef.returnType = .str then ⟨.strPointer,.out⟩ :: ps else ps
  let d : ShimDefinition := ⟨⟨ret,Symbols.shimSymbol ef.name ef.params ef.returnType,params⟩,mangleCName ef.name,
    shimBody (shimArgs 0 ef.params) ef.returnType⟩
  refine ⟨d,?_,rfl,rfl,?_,fun plain => ?_⟩
  · simp only [emitShimDefinition,shimParamList,shimOf,given,listed]
    rfl
  · change (∃ param ∈ params, param.type = .void) ↔ _
    unfold params
    split
    · simp only [List.exists_mem_cons_iff,reduceCtorEq,false_or,known.void]
    · exact known.void
  · refine ⟨⟨?_,lowered⟩,forwards_of ef d known rfl rfl plain⟩
    change params.map (·.type.lir) = _
    unfold params
    simp only [externShimSignature]
    split
    · rw [List.map_cons,known.passed plain]
      rfl
    · rw [known.passed plain]
      rfl

theorem realParams_ok : ∀ (params : List (String × BcType)) (i : Nat), (∀ p ∈ params, Supported enums p.2) →
    ∃ ps, realParams enums i params = .ok ps ∧ ((∃ param ∈ ps, param.type = .void) ↔ ∃ p ∈ params, p.2 = .unit)
  | [],i,_ => by
    refine ⟨[],rfl,?_⟩
    simp only [List.not_mem_nil,false_and,exists_false]
  | (label,ty) :: params,i,supported => by
    obtain ⟨⟨c,given⟩,later⟩ := List.forall_mem_cons.mp supported
    obtain ⟨ps,rest,void⟩ := realParams_ok params (i + 1) later
    refine ⟨⟨c,.p i⟩ :: ps,?_,?_⟩
    · simp only [realParams,given,rest]
      rfl
    · simp only [List.exists_mem_cons_iff,cType_void given,void]

theorem realPrototype_ok {ef : ExternFnDef} (supported : ∀ p ∈ ef.params, Supported enums p.2)
    (returns : Supported enums ef.returnType) :
    ∃ prototype, realPrototype enums (shimOf ef) = .ok prototype ∧
      ((∃ param ∈ prototype.params, param.type = .void) ↔ ∃ p ∈ ef.params, p.2 = .unit) := by
  obtain ⟨ret,given⟩ := returns
  obtain ⟨ps,listed,void⟩ := realParams_ok ef.params 0 supported
  refine ⟨⟨ret,mangleCName ef.name,ps⟩,?_,void⟩
  simp only [realPrototype,shimOf,given,listed]
  rfl

end Definition

section Source

theorem mapM_ok {α β : Type} {f : α → Except String β} : ∀ (l : List α), (∀ a ∈ l, ∃ b, f a = .ok b) →
    ∃ bs, l.mapM f = .ok bs ∧ List.Forall₂ (fun a b => f a = .ok b) l bs
  | [],_ => ⟨[],rfl,.nil⟩
  | a :: l,all => by
    obtain ⟨⟨b,first⟩,later⟩ := List.forall_mem_cons.mp all
    obtain ⟨bs,rest,pointwise⟩ := mapM_ok l later
    refine ⟨b :: bs,?_,.cons first pointwise⟩
    rw [List.mapM_cons,first,rest]
    rfl

theorem Forall₂.right {α β : Type} {R : α → β → Prop} {as : List α} {bs : List β} (pointwise : List.Forall₂ R as bs) :
    ∀ b ∈ bs, ∃ a ∈ as, R a b := by
  induction pointwise with
  | nil => exact fun b none => absurd none List.not_mem_nil
  | cons here _ hypothesis =>
    intro b member
    rcases List.mem_cons.mp member with rfl | later
    · exact ⟨_,List.mem_cons_self,here⟩
    · obtain ⟨a,inside,related⟩ := hypothesis b later
      exact ⟨a,List.mem_cons_of_mem _ inside,related⟩

theorem Forall₂.left {α β : Type} {R : α → β → Prop} {as : List α} {bs : List β} (pointwise : List.Forall₂ R as bs) :
    ∀ a ∈ as, ∃ b ∈ bs, R a b := Forall₂.right pointwise.flip

variable {enums : List (String × EnumInfo)}

/-- Extern functions with types that a shim can have -/
def AllSupported (enums : List (String × EnumInfo)) (externs : List ExternFnDef) : Prop :=
  ∀ ef ∈ externs, (∀ p ∈ ef.params, Supported enums p.2) ∧ Supported enums ef.returnType

def symbolOf (ef : ExternFnDef) : String := Symbols.shimSymbol ef.name ef.params ef.returnType

/-- The source of the shims, of which each definition and prototype is that of one extern function -/
structure Generated (enums : List (String × EnumInfo)) (externs : List ExternFnDef) (source : CSource) : Prop where
  prototypes : ∀ prototype ∈ source.prototypes, ∃ ef ∈ externs,
    ((∃ param ∈ prototype.params, param.type = .void) ↔ ∃ p ∈ ef.params, p.2 = .unit)
  definitions : ∀ d ∈ source.definitions, ∃ ef ∈ externs, Shim enums ef d
  every : ∀ ef ∈ externs, ∃ d ∈ source.definitions, Shim enums ef d
  names : (source.definitions.map (·.name)).Perm (externs.map symbolOf)

theorem emit_shim {ef : ExternFnDef} {d : ShimDefinition} (supported : ∀ p ∈ ef.params, Supported enums p.2)
    (returns : Supported enums ef.returnType) (emitted : emitShimDefinition enums (shimOf ef) = .ok d) :
    Shim enums ef d := by
  obtain ⟨d',given,known⟩ := emitShimDefinition_ok supported returns
  rw [given] at emitted
  exact Except.ok.inj emitted ▸ known

theorem generateSource_ok {externs : List ExternFnDef} (supported : AllSupported enums externs) :
    ∃ source, generateSource enums (externs.map shimOf) = .ok source ∧ Generated enums externs source := by
  have perm := List.mergeSort_perm (externs.map shimOf) shimBefore
  have origin : ∀ shim ∈ (externs.map shimOf).mergeSort shimBefore, ∃ ef ∈ externs, shimOf ef = shim :=
    fun shim member => List.mem_map.mp (perm.mem_iff.mp member)
  obtain ⟨ps,prototypes,pointwisePs⟩ := mapM_ok (f := realPrototype enums) _ fun shim member => by
    obtain ⟨ef,inside,rfl⟩ := origin shim member
    obtain ⟨prototype,given,_⟩ := realPrototype_ok (supported ef inside).1 (supported ef inside).2
    exact ⟨prototype,given⟩
  obtain ⟨ds,definitions,pointwise⟩ := mapM_ok (f := emitShimDefinition enums) _ fun shim member => by
    obtain ⟨ef,inside,rfl⟩ := origin shim member
    obtain ⟨d,given,_⟩ := emitShimDefinition_ok (supported ef inside).1 (supported ef inside).2
    exact ⟨d,given⟩
  refine ⟨⟨ps,ds⟩,?_,?_,?_,?_,?_⟩
  · simp only [generateSource,prototypes,definitions]
    rfl
  · intro prototype member
    obtain ⟨shim,ordered,given⟩ := Forall₂.right pointwisePs prototype member
    obtain ⟨ef,inside,rfl⟩ := origin shim ordered
    obtain ⟨prototype',given',void⟩ := realPrototype_ok (supported ef inside).1 (supported ef inside).2
    rw [given'] at given
    exact ⟨ef,inside,Except.ok.inj given ▸ void⟩
  · intro d member
    obtain ⟨shim,ordered,given⟩ := Forall₂.right pointwise d member
    obtain ⟨ef,inside,rfl⟩ := origin shim ordered
    exact ⟨ef,inside,emit_shim (supported ef inside).1 (supported ef inside).2 given⟩
  · intro ef inside
    have ordered := perm.mem_iff.mpr (List.mem_map_of_mem (f := shimOf) inside)
    obtain ⟨d,member,given⟩ := Forall₂.left pointwise _ ordered
    exact ⟨d,member,emit_shim (supported ef inside).1 (supported ef inside).2 given⟩
  · have sorted : ds.map (·.name) = ((externs.map shimOf).mergeSort shimBefore).map (·.shimSymbol) := by
      have named : List.Forall₂ (fun shim d => (NativeExternShim.shimSymbol shim) = d.name)
          ((externs.map shimOf).mergeSort shimBefore) ds := by
        refine pointwise.imp fun shim d given => ?_
        simp only [emitShimDefinition,bind,Except.bind] at given
        split at given
        · cases given
        split at given
        · cases given
        · cases given
          rfl
      exact (List.forall₂_eq_eq_eq ▸ List.forall₂_map_left_iff.mpr (List.forall₂_map_right_iff.mpr named)).symm
    rw [sorted]
    have mapped := perm.map NativeExternShim.shimSymbol
    rw [List.map_map] at mapped
    exact mapped

end Source

end Oscan.ExternShim
