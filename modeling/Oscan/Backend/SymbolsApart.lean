import Oscan.Backend.Symbols
import Oscan.Preservation.Program
import Oscan.Order.Independent

/-! When the symbols of an object file are distinct, so that every handle stands for what was asked for. -/
namespace Oscan.Symbols
open Ast Semantic Semantic.Analyzer Lowering Codegen

/-- The functions that a declaration puts into the function table -/
def declared : TopDecl → List String
  | .fn f => [f.name]
  | .externBlock eb => eb.decls.map (·.name)
  | _ => []

def fnNames : List TopDecl → List String
  | [] => []
  | .fn f :: ds => f.name :: fnNames ds
  | _ :: ds => fnNames ds

def externNames : List TopDecl → List String
  | [] => []
  | .externBlock eb :: ds => eb.decls.map (·.name) ++ externNames ds
  | _ :: ds => externNames ds

variable {self next sa : Analyzer}

/-- The names are new to the function table, and are in the one that is left. -/
structure Enters (first last : Analyzer) (names : List String) : Prop where
  distinct : names.Nodup
  fresh : ∀ n ∈ names, first.functions.lookup n = none
  kept : ∀ n, last.functions.lookup n = none → first.functions.lookup n = none ∧ n ∉ names

theorem Enters.nothing (same : next.functions = self.functions) : Enters self next [] :=
  ⟨List.nodup_nil,by simp,fun n missing => ⟨same ▸ missing,by simp⟩⟩

theorem Enters.one {name : String} {info : FunctionInfo} (fresh : self.functions.lookup name = none)
    (same : next.functions = (name,info) :: self.functions) : Enters self next [name] := by
  refine ⟨by simp,by simpa using fresh,fun n missing => ?_⟩
  rw [same,List.lookup_cons] at missing
  cases here : n == name with
  | true => simp [here] at missing
  | false =>
    rw [here] at missing
    exact ⟨missing,by simpa using here⟩

theorem Enters.append {middle : Analyzer} {names later : List String} (first : Enters self middle names)
    (second : Enters middle next later) : Enters self next (names ++ later) := by
  have before (n : String) (member : n ∈ later) := first.kept n (second.fresh n member)
  refine ⟨?_,fun n member => ?_,fun n missing => ?_⟩
  · refine List.nodup_append.mpr ⟨first.distinct,second.distinct,fun n here n' there same => ?_⟩
    subst same
    exact (before n there).2 here
  · rcases List.mem_append.mp member with here | there
    · exact first.fresh n here
    · exact (before n there).1
  · obtain ⟨middle,notLater⟩ := second.kept n missing
    obtain ⟨start,notFirst⟩ := first.kept n middle
    exact ⟨start,by simp [notFirst,notLater]⟩

theorem collectExterns_enters : ∀ {decls : List ExternFnDecl} {self next : Analyzer},
    collectExterns self decls = .ok next → Enters self next (decls.map (·.name))
  | [],self,next,collected => by
    simp only [collectExterns,pure_accepts] at collected
    exact .nothing (by rw [collected])
  | ef :: decls,self,next,collected => by
    simp only [collectExterns,bind_accepts,unless_accepts] at collected
    obtain ⟨_,-,_,-,_,-,fresh,rest⟩ := collected
    have later := collectExterns_enters rest
    exact (Enters.one (Option.not_isSome_iff_eq_none.mp fresh) rfl).append later

theorem collectDecl_enters {d : TopDecl} (collected : self.collectDecl d = .ok next) :
    Enters self next (declared d) := by
  cases d with
  | fn f =>
    simp only [collectDecl,bind_accepts,unless_accepts,pure_accepts] at collected
    obtain ⟨_,-,_,-,_,-,fresh,rfl⟩ := collected
    exact .one (Option.not_isSome_iff_eq_none.mp fresh) rfl
  | externBlock eb => exact collectExterns_enters collected
  | letDecl l =>
    simp only [collectDecl,bind_accepts,unless_accepts,pure_accepts] at collected
    obtain ⟨_,-,_,-,-,rfl⟩ := collected
    exact .nothing rfl
  | useDecl =>
    simp only [collectDecl,pure_accepts] at collected
    exact .nothing (by rw [collected])
  | struct s | enum e =>
    simp only [collectDecl,bind_accepts,unless_accepts,pure_accepts] at collected
    obtain ⟨_,-,-,rfl⟩ := collected
    exact .nothing rfl

theorem collectDecls_enters : ∀ {ds : List TopDecl} {self : Analyzer}, collectDecls self ds = .ok sa →
    Enters self sa (ds.flatMap declared)
  | [],self,collected => by
    simp only [collectDecls,pure_accepts] at collected
    exact .nothing (by rw [collected])
  | d :: ds,self,collected => by
    simp only [collectDecls,bind_accepts] at collected
    obtain ⟨middle,first,rest⟩ := collected
    exact (collectDecl_enters first).append (collectDecls_enters rest)

theorem names_perm : ∀ ds : List TopDecl, (fnNames ds ++ externNames ds).Perm (ds.flatMap declared)
  | [] => .nil
  | .fn f :: ds => (names_perm ds).cons f.name
  | .externBlock eb :: ds => by
    have rest := (names_perm ds).append_left (eb.decls.map (·.name))
    have swapped : (fnNames ds ++ (eb.decls.map (·.name) ++ externNames ds)).Perm
        (eb.decls.map (·.name) ++ (fnNames ds ++ externNames ds)) := by
      rw [← List.append_assoc,← List.append_assoc]
      exact List.perm_append_comm.append_right _
    exact swapped.trans rest
  | .struct _ :: ds | .enum _ :: ds | .letDecl _ :: ds | .useDecl .. :: ds => names_perm ds

/-- The lowered functions have the names of the source. -/
theorem lowerDecls_names {lw : Lowering} : ∀ {ds : List TopDecl} {ir : Ir.Program}, lowerDecls lw ds = some ir →
    ir.fnDefs.map (·.name) = fnNames ds ∧ (externDecls ir).map (·.name) = externNames ds
  | [],ir,lowered => by
    obtain rfl := Option.some.inj lowered
    exact ⟨rfl,rfl⟩
  | .struct _ :: ds,ir,lowered | .enum _ :: ds,ir,lowered => by
    simp only [lowerDecls,bind_lowers,pure_lowers] at lowered
    obtain ⟨rest,loweredRest,rfl⟩ := lowered
    have later := lowerDecls_names loweredRest
    exact later
  | .letDecl l :: ds,ir,lowered => by
    simp only [lowerDecls,bind_lowers,pure_lowers] at lowered
    obtain ⟨_,-,rest,loweredRest,rfl⟩ := lowered
    have later := lowerDecls_names loweredRest
    exact later
  | .fn f :: ds,ir,lowered => by
    simp only [lowerDecls,bind_lowers,pure_lowers] at lowered
    obtain ⟨d,own,rest,loweredRest,rfl⟩ := lowered
    obtain ⟨fns,externs⟩ := lowerDecls_names loweredRest
    refine ⟨?_,externs⟩
    simp only [lowerFn,bind_lowers,pure_lowers] at own
    obtain ⟨_,-,_,-,rfl⟩ := own
    rw [List.map_cons,fns,fnNames]
  | .externBlock eb :: ds,ir,lowered => by
    simp only [lowerDecls,bind_lowers,pure_lowers] at lowered
    obtain ⟨rest,loweredRest,rfl⟩ := lowered
    obtain ⟨fns,externs⟩ := lowerDecls_names loweredRest
    refine ⟨fns,?_⟩
    simp only [externDecls,List.flatMap_cons,List.map_append,lowerExternBlock,List.map_map] at externs ⊢
    rw [externs,externNames]
    rfl
  | .useDecl .. :: ds,ir,lowered => @lowerDecls_names _ ds ir lowered

/-- No two functions of an accepted program, of its own or from outside, have the same name. -/
theorem lowered_names {program : Program} {info : SemanticInfo} {ir : Ir.Program}
    (accepted : analyze program = .ok info) (lowered : lowerProgram program info = some ir) :
    (ir.fnDefs.map (·.name) ++ (externDecls ir).map (·.name)).Nodup := by
  obtain ⟨decls⟩ := program
  obtain ⟨sa,collected,-,rfl⟩ := analyze_accepts.mp accepted
  obtain ⟨fns,externs⟩ := lowerDecls_names lowered
  rw [fns,externs]
  exact (names_perm decls).nodup_iff.mpr (collectDecls_enters collected).distinct

variable (ir : Ir.Program) (runtime called : List String)

/-- The functions that the object file names: the program's own, those of the runtime that its code asks
for, the extern functions that it calls, and its entry -/
def roles : List Role :=
  ir.fnDefs.map (.user ·.name) ++ runtime.map .runtime ++ called.map .external ++ [.entry]

/-- Distinct functions have distinct symbols, and every handle given out stands for the function it was
requested for. -/
structure Disjoint : Prop where
  distinct : ∀ r ∈ roles ir runtime called, ∀ r' ∈ roles ir runtime called, r.symbol ir = r'.symbol ir → r = r'
  denotes : ∀ declare, declare = craneliftDeclare ∨ declare = llvmDeclare → ∀ requests : List Request,
    (∀ request ∈ requests, request.role ∈ roles ir runtime called) → ∀ funcs handles,
      declareAll ir declare [] requests = .ok (funcs,handles) →
        List.Forall₂ (fun request handle => ∃ decl, funcs[handle]? = some decl ∧ decl.request.role = request.role)
          requests handles

/-- The extern function is called under its own name. -/
def CalledDirectly (name : String) : Prop := name ∈ called ∧ externAbi ir name = some .direct

/-- The extern function is called through the shim with the symbol. -/
def CalledThrough (name symbol : String) : Prop := name ∈ called ∧ externAbi ir name = some (.shim symbol)

/-- What the names of a program must not be -/
structure NamesApart : Prop where
  oscanMain : "oscan_main" ∉ ir.fnDefs.map (·.name) ∧ ¬CalledDirectly ir called "oscan_main"
  runtimeFree : (∀ f ∈ ir.fnDefs, f.name ∉ runtime) ∧
    ∀ name, CalledDirectly ir called name → mangleCName name ∉ runtime
  keywordFree : ∀ k ∈ cReserved, CalledDirectly ir called k →
    k ++ "_" ∉ ir.fnDefs.map (·.name) ∧ ¬CalledDirectly ir called (k ++ "_")
  shimFree : ∀ name symbol, CalledThrough ir called name symbol → symbol ∉ ir.fnDefs.map (·.name) ∧
    ¬CalledDirectly ir called symbol ∧ ∀ other, CalledThrough ir called other symbol → other = name

variable {ir} {runtime} {called}

section Declaring
variable {declare : Declare} {funcs funcs' : List FuncDecl} {handles : List Nat}

/-- What both modules do with a name -/
theorem declare_cases (known : declare = craneliftDeclare ∨ declare = llvmDeclare) {symbol : String} {request : Request}
    {handle : Nat} (declared : declare funcs symbol request = .ok (funcs',handle)) :
    (∃ decl, funcs' = funcs ∧ funcs[handle]? = some decl ∧ decl.symbol = symbol) ∨
      funcs' = funcs ++ [⟨symbol,request⟩] ∧ handle = funcs.length := by
  have found {i : Nat} (at_ : funcs.findIdx? (·.symbol == symbol) = some i) :
      ∃ decl, funcs[i]? = some decl ∧ decl.symbol = symbol := by
    obtain ⟨inside,holds,-⟩ := List.findIdx?_eq_some_iff_getElem.mp at_
    exact ⟨funcs[i],List.getElem?_eq_getElem inside,by simpa using holds⟩
  rcases known with rfl | rfl
  · unfold craneliftDeclare at declared
    split at declared
    next i at_ =>
      cases declared
      obtain ⟨decl,listed,same⟩ := found at_
      exact .inl ⟨decl,rfl,listed,same⟩
    next =>
      cases declared
      exact .inr ⟨rfl,rfl⟩
  · unfold llvmDeclare at declared
    split at declared
    next i at_ =>
      obtain ⟨decl,listed,same⟩ := found at_
      rw [listed] at declared
      simp only at declared
      split at declared
      next => cases declared
      next =>
        split at declared
        next => cases declared
        next =>
          cases declared
          exact .inl ⟨decl,rfl,listed,same⟩
    next =>
      cases declared
      exact .inr ⟨rfl,rfl⟩

/-- The declared functions are named by the roles they were requested for. -/
def Named (ir : Ir.Program) (present : List Role) (funcs : List FuncDecl) : Prop :=
  ∀ decl ∈ funcs, decl.request.role ∈ present ∧ decl.request.role.symbol ir = some decl.symbol

theorem declareAll_denotes {present : List Role} (known : declare = craneliftDeclare ∨ declare = llvmDeclare)
    (distinct : ∀ r ∈ present, ∀ r' ∈ present, r.symbol ir = r'.symbol ir → r = r') :
    ∀ {requests : List Request} {funcs funcs' : List FuncDecl} {handles : List Nat},
      (∀ request ∈ requests, request.role ∈ present) → Named ir present funcs →
      declareAll ir declare funcs requests = .ok (funcs',handles) →
        (∃ more, funcs' = funcs ++ more) ∧
        List.Forall₂ (fun request handle => ∃ decl, funcs'[handle]? = some decl ∧ decl.request.role = request.role)
          requests handles
  | [],funcs,funcs',handles,_,_,done => by
    cases done
    exact ⟨⟨[],by simp⟩,.nil⟩
  | request :: requests,funcs,funcs',handles,inside,named,done => by
    obtain ⟨own,later⟩ := List.forall_mem_cons.mp inside
    simp only [declareAll] at done
    split at done
    next => cases done
    next symbol symbolic =>
      cases first : declare funcs symbol request with
      | error => simp [first,bind,Except.bind] at done
      | ok result =>
        obtain ⟨middle,handle⟩ := result
        cases rest : declareAll ir declare middle requests with
        | error => simp [first,rest,bind,Except.bind] at done
        | ok result =>
          obtain ⟨last,others⟩ := result
          simp only [first,rest,bind,Except.bind,pure,Except.pure,Except.ok.injEq,Prod.mk.injEq] at done
          obtain ⟨rfl,rfl⟩ := done
          have entered : Named ir present middle ∧ (∃ more, middle = funcs ++ more) ∧
              ∃ decl, middle[handle]? = some decl ∧ decl.request.role = request.role := by
            rcases declare_cases known first with ⟨decl,rfl,listed,same⟩ | ⟨rfl,rfl⟩
            · obtain ⟨present,symbolic'⟩ := named decl (List.mem_of_getElem? listed)
              exact ⟨named,⟨[],by simp⟩,decl,listed,
                distinct _ present _ own (by rw [symbolic',symbolic,same])⟩
            · refine ⟨?_,⟨_,rfl⟩,⟨symbol,request⟩,by simp,rfl⟩
              intro decl member
              rcases List.mem_append.mp member with old | new
              · exact named decl old
              · obtain rfl := List.mem_singleton.mp new
                exact ⟨own,symbolic⟩
          obtain ⟨names,⟨more,rfl⟩,decl,listed,role⟩ := entered
          obtain ⟨⟨further,rfl⟩,each⟩ := declareAll_denotes known distinct later names rest
          refine ⟨⟨more ++ further,by simp⟩,.cons ⟨decl,?_,role⟩ each⟩
          have inRange : handle < (funcs ++ more).length := by
            by_contra beyond
            rw [List.getElem?_eq_none (by omega)] at listed
            cases listed
          rw [List.getElem?_append_left inRange]
          exact listed

theorem disjoint_of_distinct (distinct : ∀ r ∈ roles ir runtime called, ∀ r' ∈ roles ir runtime called,
    r.symbol ir = r'.symbol ir → r = r') : Disjoint ir runtime called :=
  ⟨distinct,fun _ known _ inside _ _ done =>
    (declareAll_denotes known distinct inside (fun _ member => by cases member) done).2⟩

end Declaring

theorem shimSymbol_prefixed (name : String) (params : List (String × BcType)) (returnType : BcType) :
    ∃ rest, shimSymbol name params returnType = "__oscan_native_extern_shim_" ++ rest := by
  unfold shimSymbol
  dsimp only
  rw [String.append_assoc,String.append_assoc]
  exact ⟨_,rfl⟩

theorem classify_shim {enums : List (String × EnumInfo)} {ef : Ir.ExternFnDef} {symbol : String}
    (through : classify enums ef = .ok (.shim symbol)) :
    shimSymbol ef.name ef.params ef.returnType = symbol := by
  unfold classify at through
  generalize shimSymbol ef.name ef.params ef.returnType = given at through ⊢
  cases shim : needsShim enums ef.name ef.params ef.returnType with
  | error => simp [shim,Except.map] at through
  | ok needed => cases needed <;> simp_all [Except.map]

theorem externAbi_shim {name symbol : String} (through : externAbi ir name = some (.shim symbol)) :
    ∃ rest, symbol = "__oscan_native_extern_shim_" ++ rest := by
  unfold externAbi at through
  split at through
  next => cases through
  next ef found =>
    cases classified : classify ir.enums ef with
    | error => simp [classified,Except.toOption] at through
    | ok abi =>
      simp only [classified,Except.toOption,Option.some.injEq] at through
      rw [through] at classified
      rw [← classify_shim classified]
      exact shimSymbol_prefixed _ _ _

theorem externAbi_declared {name : String} {abi : NativeExternAbi} (found : externAbi ir name = some abi) :
    name ∈ (externDecls ir).map (·.name) := by
  unfold externAbi at found
  split at found
  next => cases found
  next ef listed =>
    have same : ef.name = name := by simpa using List.find?_some listed
    exact same ▸ List.mem_map_of_mem (List.mem_of_find?_eq_some listed)

theorem mangled_reserved : ∀ k ∈ cReserved, k ++ "_" ∉ cReserved ∧ k ++ "_" ≠ "main" ∧ k ++ "_" ≠ "oscan_main" := by
  decide +kernel

theorem mangled_short : ∀ k ∈ cReserved, (k ++ "_").toList.take 8 ≠ "__oscan_".toList := by
  decide +kernel

theorem mangle_plain {name : String} (plain : name ∉ cReserved) : mangleCName name = name := by
  simp [mangleCName,plain]

theorem mangle_keyword {name : String} (keyword : name ∈ cReserved) : mangleCName name = name ++ "_" := by
  simp [mangleCName,keyword]

theorem mem_roles {r : Role} : r ∈ roles ir runtime called ↔
    match r with
    | .user name => name ∈ ir.fnDefs.map (·.name)
    | .runtime symbol => symbol ∈ runtime
    | .external name => name ∈ called
    | .entry => True := by
  cases r <;> simp [roles]

/-- Two names that are mangled to one are the same, or one of them is a keyword and the other its mangled form. -/
theorem mangle_cases {a b : String} (same : mangleCName a = mangleCName b) :
    a = b ∨ a ∈ cReserved ∧ b = a ++ "_" ∨ b ∈ cReserved ∧ a = b ++ "_" := by
  by_cases first : a ∈ cReserved
  · by_cases second : b ∈ cReserved
    · rw [mangle_keyword first,mangle_keyword second] at same
      exact .inl (String.append_left_inj _ |>.mp same)
    · rw [mangle_keyword first,mangle_plain second] at same
      exact .inr (.inl ⟨first,same.symm⟩)
  · by_cases second : b ∈ cReserved
    · rw [mangle_plain first,mangle_keyword second] at same
      exact .inr (.inr ⟨second,same⟩)
    · rw [mangle_plain first,mangle_plain second] at same
      exact .inl same

/-- What the compiler takes for granted: there is a function `main`, the names of functions are distinct, the
runtime's names begin with `osc_`, and a called extern function is supported. -/
structure Regular (ir : Ir.Program) (runtime called : List String) : Prop where
  names : (ir.fnDefs.map (·.name) ++ (externDecls ir).map (·.name)).Nodup
  main : "main" ∈ ir.fnDefs.map (·.name)
  osc : ∀ symbol ∈ runtime, ∃ rest, symbol = "osc_" ++ rest
  supported : ∀ name ∈ called, (externAbi ir name).isSome

theorem userFnSymbol_not_main (a : String) : userFnSymbol a ≠ "main" := by
  unfold userFnSymbol
  split
  next => decide
  next other => exact other

theorem user_user (apart : NamesApart ir runtime called) {a b : String} (first : a ∈ ir.fnDefs.map (·.name))
    (second : b ∈ ir.fnDefs.map (·.name)) (same : userFnSymbol a = userFnSymbol b) : a = b := by
  unfold userFnSymbol at same
  split at same <;> split at same
  next left right => rw [left,right]
  next left right => exact absurd (same ▸ second) apart.oscanMain.1
  next left right => exact absurd (same ▸ first) apart.oscanMain.1
  next => exact same

theorem user_shim (apart : NamesApart ir runtime called) {a name symbol : String}
    (first : a ∈ ir.fnDefs.map (·.name)) (through : CalledThrough ir called name symbol) :
    userFnSymbol a ≠ symbol := by
  intro same
  unfold userFnSymbol at same
  split at same
  next =>
    obtain ⟨rest,rfl⟩ := externAbi_shim through.2
    have letters := congrArg String.toList same
    simp at letters
  next => exact (apart.shimFree name symbol through).1 (same ▸ first)

theorem direct_direct (apart : NamesApart ir runtime called) {a b : String} (first : CalledDirectly ir called a)
    (second : CalledDirectly ir called b) (same : mangleCName a = mangleCName b) : a = b := by
  rcases mangle_cases same with equal | ⟨keyword,rfl⟩ | ⟨keyword,rfl⟩
  · exact equal
  · exact absurd second (apart.keywordFree a keyword first).2
  · exact absurd first (apart.keywordFree b keyword second).2

theorem direct_shim (apart : NamesApart ir runtime called) {a name symbol : String}
    (direct : CalledDirectly ir called a) (through : CalledThrough ir called name symbol) :
    mangleCName a ≠ symbol := by
  intro same
  by_cases keyword : a ∈ cReserved
  · obtain ⟨rest,shape⟩ := externAbi_shim through.2
    rw [mangle_keyword keyword,shape] at same
    have letters := congrArg (fun s => s.toList.take 8) same
    exact mangled_short a keyword (by simpa using letters)
  · rw [mangle_plain keyword] at same
    exact (apart.shimFree name symbol through).2.1 (same ▸ direct)

theorem shim_not_main {name symbol : String} (through : CalledThrough ir called name symbol) : symbol ≠ "main" := by
  obtain ⟨rest,rfl⟩ := externAbi_shim through.2
  intro same
  have letters := congrArg String.toList same
  simp at letters

theorem shim_plain {name symbol : String} (through : CalledThrough ir called name symbol) : symbol ∉ cReserved := by
  intro keyword
  obtain ⟨rest,rfl⟩ := externAbi_shim through.2
  exact mangled_short _ keyword (by simp)

section Families
variable (regular : Regular ir runtime called)
include regular

theorem Regular.apart {name : String} (own : name ∈ ir.fnDefs.map (·.name)) {abi : NativeExternAbi}
    (found : externAbi ir name = some abi) : False :=
  (List.nodup_append.mp regular.names).2.2 name own name (externAbi_declared found) rfl

theorem Regular.not_main {symbol : String} (member : symbol ∈ runtime) : symbol ≠ "main" ∧ symbol ≠ "oscan_main" := by
  obtain ⟨rest,rfl⟩ := regular.osc symbol member
  refine ⟨fun same => ?_,fun same => ?_⟩
  all_goals
    have letters := congrArg String.toList same
    simp at letters

theorem Regular.runtime_shim {symbol name shim : String} (member : symbol ∈ runtime)
    (through : CalledThrough ir called name shim) : symbol ≠ shim := by
  obtain ⟨rest,rfl⟩ := regular.osc symbol member
  obtain ⟨other,rfl⟩ := externAbi_shim through.2
  intro same
  have letters := congrArg String.toList same
  simp at letters

theorem Regular.user_runtime (apart : NamesApart ir runtime called) {a symbol : String}
    (first : a ∈ ir.fnDefs.map (·.name)) (member : symbol ∈ runtime) : userFnSymbol a ≠ symbol := by
  unfold userFnSymbol
  split
  next => exact (regular.not_main member).2.symm
  next =>
    intro same
    obtain ⟨f,listed,named⟩ := List.mem_map.mp first
    exact apart.runtimeFree.1 f listed (named ▸ same ▸ member)

theorem Regular.direct_symbol {name : String} (direct : externAbi ir name = some .direct) :
    mangleCName name ≠ "main" := by
  by_cases keyword : name ∈ cReserved
  · rw [mangle_keyword keyword]
    exact (mangled_reserved name keyword).2.1
  · rw [mangle_plain keyword]
    intro same
    exact regular.apart regular.main (same ▸ direct)

theorem Regular.user_direct (apart : NamesApart ir runtime called) {a name : String}
    (first : a ∈ ir.fnDefs.map (·.name)) (direct : CalledDirectly ir called name) :
    userFnSymbol a ≠ mangleCName name := by
  intro same
  by_cases keyword : name ∈ cReserved
  · rw [mangle_keyword keyword] at same
    unfold userFnSymbol at same
    split at same
    next => exact (mangled_reserved name keyword).2.2 same.symm
    next => exact (apart.keywordFree name keyword direct).1 (same ▸ first)
  · rw [mangle_plain keyword] at same
    unfold userFnSymbol at same
    split at same
    next => exact apart.oscanMain.2 (same ▸ direct)
    next => exact regular.apart (same ▸ first) direct.2

/-- A called extern function has one symbol, and is called in one of the two ways. -/
theorem Regular.extern_symbol {name : String} (member : name ∈ called) :
    CalledDirectly ir called name ∧ externSymbol ir name = some (mangleCName name) ∨
      ∃ symbol, CalledThrough ir called name symbol ∧ externSymbol ir name = some symbol := by
  obtain ⟨abi,found⟩ := Option.isSome_iff_exists.mp (regular.supported name member)
  cases abi with
  | direct => exact .inl ⟨⟨member,found⟩,by simp [externSymbol,found]⟩
  | shim symbol => exact .inr ⟨symbol,⟨member,found⟩,by simp [externSymbol,found]⟩

theorem Regular.user_external (apart : NamesApart ir runtime called) {a name : String}
    (first : a ∈ ir.fnDefs.map (·.name)) (member : name ∈ called) :
    some (userFnSymbol a) ≠ externSymbol ir name := by
  intro same
  rcases regular.extern_symbol member with ⟨direct,symbol⟩ | ⟨symbol',through,symbol⟩
  · exact regular.user_direct apart first direct (Option.some.inj (same.trans symbol))
  · exact user_shim apart first through (Option.some.inj (same.trans symbol))

theorem Regular.runtime_external (apart : NamesApart ir runtime called) {a name : String}
    (first : a ∈ runtime) (member : name ∈ called) : some a ≠ externSymbol ir name := by
  intro same
  rcases regular.extern_symbol member with ⟨direct,symbol⟩ | ⟨symbol',through,symbol⟩
  · exact apart.runtimeFree.2 name direct (Option.some.inj (same.trans symbol) ▸ first)
  · exact regular.runtime_shim first through (Option.some.inj (same.trans symbol))

theorem Regular.extern_entry {name : String} (member : name ∈ called) : externSymbol ir name ≠ some "main" := by
  intro same
  rcases regular.extern_symbol member with ⟨direct,symbol⟩ | ⟨symbol',through,symbol⟩
  · exact regular.direct_symbol direct.2 (Option.some.inj (symbol.symm.trans same))
  · exact shim_not_main through (Option.some.inj (symbol.symm.trans same))

theorem Regular.extern_external (apart : NamesApart ir runtime called) {a b : String} (first : a ∈ called)
    (second : b ∈ called) (same : externSymbol ir a = externSymbol ir b) : a = b := by
  rcases regular.extern_symbol first with ⟨direct,symbol⟩ | ⟨shim,through,symbol⟩
  · rcases regular.extern_symbol second with ⟨direct',symbol'⟩ | ⟨shim',through',symbol'⟩
    · exact direct_direct apart direct direct' (Option.some.inj (symbol.symm.trans (same.trans symbol')))
    · exact absurd (Option.some.inj (symbol.symm.trans (same.trans symbol'))) (direct_shim apart direct through')
  · rcases regular.extern_symbol second with ⟨direct',symbol'⟩ | ⟨shim',through',symbol'⟩
    · exact absurd (Option.some.inj (symbol.symm.trans (same.trans symbol'))).symm
        (direct_shim apart direct' through)
    · have shims := Option.some.inj (symbol.symm.trans (same.trans symbol'))
      exact ((apart.shimFree a shim through).2.2 b (shims ▸ through')).symm

theorem Regular.distinct (apart : NamesApart ir runtime called) : ∀ r ∈ roles ir runtime called,
    ∀ r' ∈ roles ir runtime called, r.symbol ir = r'.symbol ir → r = r' := by
  intro r present r' present' same
  rw [mem_roles] at present present'
  cases r with
  | user a =>
    cases r' with
    | user b => exact congrArg Role.user (user_user apart present present' (Option.some.inj same))
    | runtime symbol => exact absurd (Option.some.inj same) (regular.user_runtime apart present present')
    | external name => exact absurd same (regular.user_external apart present present')
    | entry => exact absurd (Option.some.inj same) (userFnSymbol_not_main a)
  | runtime symbol =>
    cases r' with
    | user b => exact absurd (Option.some.inj same).symm (regular.user_runtime apart present' present)
    | runtime symbol' => exact congrArg Role.runtime (Option.some.inj same)
    | external name => exact absurd same (regular.runtime_external apart present present')
    | entry => exact absurd (Option.some.inj same) (regular.not_main present).1
  | external name =>
    cases r' with
    | user b => exact absurd same.symm (regular.user_external apart present' present)
    | runtime symbol => exact absurd same.symm (regular.runtime_external apart present' present)
    | external name' => exact congrArg Role.external (regular.extern_external apart present present' same)
    | entry => exact absurd same (regular.extern_entry present)
  | entry =>
    cases r' with
    | user b => exact absurd (Option.some.inj same).symm (userFnSymbol_not_main b)
    | runtime symbol => exact absurd (Option.some.inj same).symm (regular.not_main present').1
    | external name => exact absurd same.symm (regular.extern_entry present')
    | entry => rfl

end Families

theorem userFnSymbol_other {name : String} (other : name ≠ "main") : userFnSymbol name = name := if_neg other

theorem direct_external {name : String} (direct : CalledDirectly ir called name) :
    (Role.external name).symbol ir = some (mangleCName name) := by
  simp [Role.symbol,externSymbol,direct.2]

theorem shim_external {name symbol : String} (through : CalledThrough ir called name symbol) :
    (Role.external name).symbol ir = some symbol := by
  simp [Role.symbol,externSymbol,through.2]

theorem user_present {name : String} (own : name ∈ ir.fnDefs.map (·.name)) : Role.user name ∈ roles ir runtime called :=
  mem_roles.mpr own

theorem runtime_present {symbol : String} (member : symbol ∈ runtime) :
    Role.runtime symbol ∈ roles ir runtime called :=
  mem_roles.mpr member

theorem extern_present {name : String} (member : name ∈ called) : Role.external name ∈ roles ir runtime called :=
  mem_roles.mpr member

/-- Each way in which names are not apart is two functions with one symbol. -/
theorem Regular.names_apart (regular : Regular ir runtime called)
    (distinct : ∀ r ∈ roles ir runtime called, ∀ r' ∈ roles ir runtime called, r.symbol ir = r'.symbol ir → r = r') :
    NamesApart ir runtime called := by
  have main := @user_present _ runtime called _ regular.main
  refine ⟨⟨fun own => ?_,fun direct => ?_⟩,⟨fun f member clash => ?_,fun name direct clash => ?_⟩,
    fun k keyword direct => ⟨fun own => ?_,fun other => ?_⟩,
    fun name symbol through => ⟨fun own => ?_,fun direct => ?_,fun other others => ?_⟩⟩
  · have same := distinct _ (user_present own) _ main rfl
    exact absurd (Role.user.inj same) (by decide)
  · have plain : mangleCName "oscan_main" = "oscan_main" := mangle_plain (by decide)
    cases distinct _ (extern_present direct.1) _ main (by rw [direct_external direct,plain]; rfl)
  · have own : f.name ∈ ir.fnDefs.map (·.name) := List.mem_map_of_mem member
    have other := (regular.not_main clash).1
    cases distinct _ (user_present own) _ (runtime_present clash) (congrArg some (userFnSymbol_other other))
  · cases distinct _ (extern_present direct.1) _ (runtime_present clash) (direct_external direct)
  · have symbol : userFnSymbol (k ++ "_") = mangleCName k := by
      rw [userFnSymbol_other (mangled_reserved k keyword).2.1,mangle_keyword keyword]
    cases distinct _ (extern_present direct.1) _ (user_present own) ((direct_external direct).trans (by rw [← symbol]; rfl))
  · have symbol : mangleCName (k ++ "_") = mangleCName k := by
      rw [mangle_plain (mangled_reserved k keyword).1,mangle_keyword keyword]
    have same := distinct _ (extern_present direct.1) _ (extern_present other.1)
      ((direct_external direct).trans (by rw [direct_external other,symbol]))
    have letters := congrArg String.length (Role.external.inj same)
    simp at letters
  · cases distinct _ (extern_present through.1) _ (user_present own)
      ((shim_external through).trans (congrArg some (userFnSymbol_other (shim_not_main through)).symm))
  · have plain : mangleCName symbol = symbol := mangle_plain (shim_plain through)
    have same := distinct _ (extern_present through.1) _ (extern_present direct.1)
      ((shim_external through).trans (by rw [direct_external direct,plain]))
    have both : some NativeExternAbi.direct = some (.shim symbol) := calc
      some NativeExternAbi.direct = externAbi ir symbol := direct.2.symm
      _ = externAbi ir name := by rw [Role.external.inj same]
      _ = some (.shim symbol) := through.2
    cases both
  · exact (Role.external.inj (distinct _ (extern_present through.1) _ (extern_present others.1)
      ((shim_external through).trans (shim_external others).symm))).symm

/-- The functions that the object file of an accepted program names have distinct symbols exactly if the
program's names are apart. -/
theorem disjoint_iff (program : Program) (info : SemanticInfo) (ir : Ir.Program) (runtime called : List String)
    (accepted : analyze program = .ok info) (lowered : lowerProgram program info = some ir)
    (main : "main" ∈ ir.fnDefs.map (·.name)) (osc : ∀ symbol ∈ runtime, ∃ rest, symbol = "osc_" ++ rest)
    (supported : ∀ name ∈ called, (externAbi ir name).isSome) :
    Disjoint ir runtime called ↔ NamesApart ir runtime called := by
  have regular : Regular ir runtime called := ⟨lowered_names accepted lowered,main,osc,supported⟩
  exact ⟨fun disjoint => regular.names_apart disjoint.distinct,fun apart => disjoint_of_distinct (regular.distinct apart)⟩

theorem not_through (direct : ∀ name ∈ called, externAbi ir name = some .direct) (name symbol : String) :
    ¬CalledThrough ir called name symbol := by
  intro through
  have both := (direct name through.1).symm.trans through.2
  cases both

private def unnamed : Span := ⟨0,0⟩

def empty (name : String) (isPure : Bool) : TopDecl := .fn ⟨name,[],none,.mk [] none unnamed,isPure,unnamed⟩

/-- `extern { fn tick(n: i32); }  fn helper() {}  fn! main() {}` -/
def helped : Program :=
  ⟨[.externBlock ⟨[⟨"tick",[⟨"n",.primitive .i32 unnamed,unnamed⟩],none,unnamed⟩],unnamed⟩,empty "helper" true,
    empty "main" false]⟩

def entryRuntime : List String := ["osc_arena_create","osc_arena_destroy"]

theorem helped_disjoint : ∃ info ir, analyze helped = .ok info ∧ lowerProgram helped info = some ir ∧
    Disjoint ir entryRuntime ["tick"] := by
  refine ⟨_,_,rfl,rfl,(disjoint_iff helped _ _ entryRuntime ["tick"] rfl rfl (by decide) ?_ (by decide)).mpr ?_⟩
  · intro symbol member
    rcases List.mem_cons.mp member with rfl | member
    · exact ⟨"arena_create",rfl⟩
    · obtain rfl := List.mem_singleton.mp member
      exact ⟨"arena_destroy",rfl⟩
  · refine ⟨⟨by decide,fun direct => ?_⟩,⟨by decide,fun name direct => ?_⟩,fun k keyword direct => ?_,
      fun name symbol through => ?_⟩
    · exact absurd (List.mem_singleton.mp direct.1) (by decide)
    · obtain rfl := List.mem_singleton.mp direct.1
      rw [mangle_plain (by decide)]
      decide
    · obtain rfl := List.mem_singleton.mp direct.1
      exact ⟨by decide,fun other => absurd (List.mem_singleton.mp other.1) (by decide)⟩
    · refine absurd through (not_through (fun external member => ?_) name symbol)
      rw [List.mem_singleton.mp member]
      rfl

/-- `fn osc_arena_create() {}  fn! main() {}` -/
def allocating : Program := ⟨[empty "osc_arena_create" true,empty "main" false]⟩

/-- The entry's request for the runtime's arena gets the handle of the program's own function. -/
theorem allocating_replaced : ∃ info ir, analyze allocating = .ok info ∧ lowerProgram allocating info = some ir ∧
    declareAll ir craneliftDeclare [] [⟨.user "osc_arena_create",⟨[.ptr],none⟩⟩,⟨.user "main",⟨[.ptr],none⟩⟩,
      ⟨.entry,⟨[.i32,.ptr],some .i32⟩⟩,⟨.runtime "osc_arena_create",⟨[.i64],some .ptr⟩⟩] =
        .ok ([⟨"osc_arena_create",⟨.user "osc_arena_create",⟨[.ptr],none⟩⟩⟩,⟨"oscan_main",⟨.user "main",⟨[.ptr],none⟩⟩⟩,
          ⟨"main",⟨.entry,⟨[.i32,.ptr],some .i32⟩⟩⟩],[0,1,2,0]) ∧
    ¬Disjoint ir entryRuntime [] := by
  refine ⟨_,_,rfl,rfl,rfl,fun disjoint => ?_⟩
  have same := disjoint.distinct (.user "osc_arena_create") (by decide) (.runtime "osc_arena_create") (by decide) rfl
  cases same

end Oscan.Symbols
