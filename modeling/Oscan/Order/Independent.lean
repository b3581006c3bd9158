import Oscan.Order.Contents
import Oscan.Order.Retable

/-! Declarations in another order. The tables that the first pass leaves behind answer as
before, and so does the second pass, when every declaration still sees its type names as it did. -/
namespace Oscan
open Ast Semantic Analyzer

/-- Every declaration sees the type names of its signature alike in both orders: as a struct
that stands before it, as an enum that does, or as neither. -/
def SeesAlike (ds ds' : List TopDecl) : Prop :=
  ∀ before d after before' after', ds = before ++ d :: after → ds' = before' ++ d :: after' →
    ∀ name ∈ mentions d, kindAt before name = kindAt before' name

/-- The tables resolve every struct, enum, function and constant alike. -/
structure SameTables (info info' : SemanticInfo) : Prop where
  structs : ∀ name, info.structs.lookup name = info'.structs.lookup name
  enums : ∀ name, info.enums.lookup name = info'.enums.lookup name
  functions : ∀ name, info.functions.lookup name = info'.functions.lookup name
  constants : ∀ name, info.constants.lookup name = info'.constants.lookup name

/-- The analyzers differ in their tables alone, and these answer alike. -/
structure Alike (a b : Analyzer) : Prop where
  tables : SameTables a.info b.info
  same : b = a.retable b.info

variable {a b sa : Analyzer} {es es' : List Entry} {ds ds' : List TopDecl}

theorem SameTables.refl (info : SemanticInfo) : SameTables info info :=
  ⟨fun _ => rfl,fun _ => rfl,fun _ => rfl,fun _ => rfl⟩

theorem SameTables.symm {info info' : SemanticInfo} (same : SameTables info info') :
    SameTables info' info :=
  ⟨fun n => (same.structs n).symm,fun n => (same.enums n).symm,fun n => (same.functions n).symm,
    fun n => (same.constants n).symm⟩

theorem SameTables.trans {info info' info'' : SemanticInfo} (first : SameTables info info')
    (second : SameTables info' info'') : SameTables info info'' :=
  ⟨fun n => (first.structs n).trans (second.structs n),fun n => (first.enums n).trans (second.enums n),
    fun n => (first.functions n).trans (second.functions n),
    fun n => (first.constants n).trans (second.constants n)⟩

theorem Alike.refl (a : Analyzer) : Alike a a := ⟨.refl _,rfl⟩

theorem Alike.trans {c : Analyzer} (first : Alike a b) (second : Alike b c) : Alike a c := by
  refine ⟨first.tables.trans second.tables,?_⟩
  rw [second.same,first.same]
  rfl

theorem Alike.agrees (alike : Alike a b) : Agrees b.info a :=
  ⟨alike.tables.symm.structs,alike.tables.symm.enums,alike.tables.symm.functions,
    alike.tables.symm.constants⟩

theorem Alike.holds (alike : Alike a b) (e : Entry) : a.holds e = b.holds e := by
  have structs := alike.tables.structs
  have enums := alike.tables.enums
  have functions := alike.tables.functions
  have constants := alike.tables.constants
  cases e <;> simp_all [Analyzer.holds,info]

private theorem lookup_cons_congr {α : Type} {table table' : List (String × α)} (key : String)
    (value : α) (same : ∀ name, table.lookup name = table'.lookup name) (name : String) :
    ((key,value) :: table).lookup name = ((key,value) :: table').lookup name := by
  rw [List.lookup_cons,List.lookup_cons,same]

theorem Alike.insert (alike : Alike a b) (e : Entry) : Alike (a.insert e) (b.insert e) := by
  have others (info : SemanticInfo) : ((a.retable info).insert e) =
      (a.insert e).retable ((a.retable info).insert e).info := by
    cases e <;> rfl
  refine ⟨?_,by rw [alike.same]; exact others b.info⟩
  cases e with
  | struct name info => exact {alike.tables with structs := lookup_cons_congr name info alike.tables.structs}
  | enum name info => exact {alike.tables with enums := lookup_cons_congr name info alike.tables.enums}
  | function name info =>
    exact {alike.tables with functions := lookup_cons_congr name info alike.tables.functions}
  | constant name info =>
    exact {alike.tables with constants := lookup_cons_congr name info alike.tables.constants}

theorem Alike.insertAll : ∀ {es : List Entry} {a b sa : Analyzer}, Alike a b →
    a.insertAll es = some sa → ∃ sb, b.insertAll es = some sb ∧ Alike sa sb
  | [],a,b,sa,alike,inserted => by
    obtain rfl : a = sa := by simpa [Analyzer.insertAll] using inserted
    exact ⟨b,rfl,alike⟩
  | e :: es,a,b,sa,alike,inserted => by
    obtain ⟨fresh,rest⟩ := insertAll_cons.mp inserted
    obtain ⟨sb,last,alikeLast⟩ := (alike.insert e).insertAll rest
    exact ⟨sb,insertAll_cons.mpr ⟨alike.holds e ▸ fresh,last⟩,alikeLast⟩

private theorem lookup_other {α : Type} {table : List (String × α)} {key name : String} {value : α}
    (apart : name ≠ key) : ((key,value) :: table).lookup name = table.lookup name := by
  rw [List.lookup_cons,beq_eq_false_iff_ne.mpr apart]

private theorem lookup_swap {α : Type} {table : List (String × α)} {key key' : String} {value value' : α}
    (apart : key ≠ key') (name : String) :
    ((key,value) :: (key',value') :: table).lookup name =
      ((key',value') :: (key,value) :: table).lookup name := by
  simp only [List.lookup_cons]
  by_cases first : name = key
  · have second : (name == key') = false := beq_eq_false_iff_ne.mpr (first ▸ apart)
    simp [first ▸ second,first]
  · simp [beq_eq_false_iff_ne.mpr first]

/-- Two entries that are both free may be inserted either way round. -/
theorem insert_swap {e e' : Entry} (fresh : ¬a.holds e = true) (fresh' : ¬(a.insert e).holds e' = true) :
    ¬a.holds e' = true ∧ ¬(a.insert e').holds e = true ∧
      Alike ((a.insert e).insert e') ((a.insert e').insert e) := by
  have taken {α : Type} {table : List (String × α)} {key key' : String} {value : α}
      (free : ¬(((key,value) :: table).lookup key').isSome = true) :
      key' ≠ key ∧ ¬(table.lookup key').isSome = true := by
    rw [List.lookup_cons] at free
    split at free
    next => simp at free
    next apart => exact ⟨by simpa using apart,free⟩
  have free {α : Type} {table : List (String × α)} {key key' : String} {value : α}
      (apart : key ≠ key') (free : ¬(table.lookup key).isSome = true) :
      ¬(((key',value) :: table).lookup key).isSome = true := by
    rwa [lookup_other apart]
  cases e <;> cases e'
  case struct.struct =>
    obtain ⟨apart,fresh'⟩ := taken fresh'
    exact ⟨fresh',free apart.symm fresh,{SameTables.refl _ with structs := lookup_swap apart},rfl⟩
  case enum.enum =>
    obtain ⟨apart,fresh'⟩ := taken fresh'
    exact ⟨fresh',free apart.symm fresh,{SameTables.refl _ with enums := lookup_swap apart},rfl⟩
  case function.function =>
    obtain ⟨apart,fresh'⟩ := taken fresh'
    exact ⟨fresh',free apart.symm fresh,{SameTables.refl _ with functions := lookup_swap apart},rfl⟩
  case constant.constant =>
    obtain ⟨apart,fresh'⟩ := taken fresh'
    exact ⟨fresh',free apart.symm fresh,{SameTables.refl _ with constants := lookup_swap apart},rfl⟩
  all_goals exact ⟨fresh',fresh,.refl _⟩

theorem insertAll_perm (perm : es.Perm es') : ∀ {a sa : Analyzer}, a.insertAll es = some sa →
    ∃ sa', a.insertAll es' = some sa' ∧ Alike sa sa' := by
  induction perm with
  | nil => exact fun inserted => ⟨_,inserted,.refl _⟩
  | cons e _ ih =>
    intro a sa inserted
    obtain ⟨fresh,rest⟩ := insertAll_cons.mp inserted
    obtain ⟨sa',rest,alike⟩ := ih rest
    exact ⟨sa',insertAll_cons.mpr ⟨fresh,rest⟩,alike⟩
  | swap e e' es =>
    intro a sa inserted
    obtain ⟨fresh',rest⟩ := insertAll_cons.mp inserted
    obtain ⟨fresh,rest⟩ := insertAll_cons.mp rest
    obtain ⟨first,second,alike⟩ := insert_swap fresh' fresh
    obtain ⟨sa',rest,alike⟩ := alike.insertAll rest
    exact ⟨sa',insertAll_cons.mpr ⟨first,insertAll_cons.mpr ⟨second,rest⟩⟩,alike⟩
  | trans _ _ first second =>
    intro a sa inserted
    obtain ⟨middle,inserted,alike⟩ := first inserted
    obtain ⟨sa',inserted,alike'⟩ := second inserted
    exact ⟨sa',inserted,alike.trans alike'⟩

theorem insertAll_append {es es' : List Entry} : ∀ {a : Analyzer}, a.insertAll (es ++ es') = some sa ↔
    ∃ middle, a.insertAll es = some middle ∧ middle.insertAll es' = some sa := by
  induction es with
  | nil => simp [Analyzer.insertAll]
  | cons e es ih =>
    intro a
    simp only [List.cons_append,insertAll_cons,ih]
    constructor
    · rintro ⟨fresh,middle,first,second⟩
      exact ⟨middle,⟨fresh,first⟩,second⟩
    · rintro ⟨middle,⟨fresh,first⟩,second⟩
      exact ⟨fresh,middle,first,second⟩

/-- The analyzer sees type names as they stand after the declarations. -/
def Shows (before : List TopDecl) (sa : Analyzer) : Prop := ∀ name, sa.kindOf name = kindAt before name

theorem kindOf_insert_function (name : String) (known : FunctionInfo) (other : String) :
    (a.insert (.function name known)).kindOf other = a.kindOf other := rfl

theorem externContents_kindOf : ∀ {decls : List ExternFnDecl} {now : List Entry} {b next : Analyzer},
    a.externContents decls = .ok now → b.insertAll now = some next →
    ∀ name, next.kindOf name = b.kindOf name
  | [],now,b,next,listed,inserted => by
    obtain rfl : [] = now := by simpa [externContents,pure,Except.pure] using listed
    obtain rfl : b = next := by simpa [Analyzer.insertAll] using inserted
    exact fun _ => rfl
  | ef :: decls,now,b,next,listed,inserted => by
    simp only [externContents,bind_accepts,pure_accepts] at listed
    obtain ⟨-,-,params,-,ret,-,rest,listed,rfl⟩ := listed
    have kept := externContents_kindOf listed (insertAll_cons.mp inserted).2
    exact kept

theorem kindAt_append (before : List TopDecl) (d : TopDecl) (name : String) :
    kindAt (before ++ [d]) name = match d with
      | .struct s => if s.name = name then some .struct else kindAt before name
      | .enum e => if e.name = name ∧ kindAt before name ≠ some .struct then some .enum
          else kindAt before name
      | _ => kindAt before name := by
  cases d <;> simp only [kindAt,List.any_append,List.any_cons,List.any_nil,Bool.or_false]
  case struct s =>
    by_cases same : s.name = name <;> simp [same]
  case enum e =>
    by_cases same : e.name = name
    · simp only [same,beq_self_eq_true,Bool.or_true,if_true]
      split <;> simp
    · simp [same]

theorem Shows.step {before : List TopDecl} {d : TopDecl} {now : List Entry} {next : Analyzer}
    (shown : Shows before a) (listed : a.contents d = .ok now) (inserted : a.insertAll now = some next) :
    Shows (before ++ [d]) next := by
  intro name
  rw [kindAt_append,← shown name]
  cases d with
  | struct s =>
    simp only [contents,bind_accepts,pure_accepts] at listed
    obtain ⟨fields,-,rfl⟩ := listed
    obtain ⟨-,rfl⟩ := insertAll_single.mp inserted
    by_cases same : name = s.name
    · simp [kindOf,Analyzer.insert,same]
    · have other : (a.insert (.struct s.name ⟨fields⟩)).structs.lookup name = a.structs.lookup name :=
        lookup_other same
      simp only [kindOf,other,Ne.symm same,if_false]
      rfl
  | enum e =>
    simp only [contents,bind_accepts,pure_accepts] at listed
    obtain ⟨variants,-,rfl⟩ := listed
    obtain ⟨-,rfl⟩ := insertAll_single.mp inserted
    by_cases same : name = e.name
    · cases hidden : (a.structs.lookup e.name).isSome <;>
        simp [kindOf,Analyzer.insert,same,hidden]
    · have other : (a.insert (.enum e.name ⟨variants⟩)).enums.lookup name = a.enums.lookup name :=
        lookup_other same
      simp only [kindOf,other,Ne.symm same,false_and,if_false]
      rfl
  | fn f =>
    simp only [contents,bind_accepts,pure_accepts] at listed
    obtain ⟨-,-,params,-,ret,-,rfl⟩ := listed
    obtain ⟨-,rfl⟩ := insertAll_single.mp inserted
    rfl
  | letDecl l =>
    simp only [contents,bind_accepts,pure_accepts] at listed
    obtain ⟨-,-,ty,-,rfl⟩ := listed
    obtain ⟨-,rfl⟩ := insertAll_single.mp inserted
    rfl
  | externBlock eb => exact externContents_kindOf listed inserted name
  | useDecl =>
    obtain rfl : [] = now := by simpa [contents,pure,Except.pure] using listed
    obtain rfl : a = next := by simpa [Analyzer.insertAll] using inserted
    rfl

/-- The entries of the declarations, each told as the type names are seen at its place. -/
def Gathers : List TopDecl → List TopDecl → List Entry → Prop
  | _,[],es => es = []
  | before,d :: ds,es => ∃ seer now later, Shows before seer ∧ seer.contents d = .ok now ∧
      Gathers (before ++ [d]) ds later ∧ es = now ++ later

theorem seeAlike_iff {d : TopDecl} : SeeAlike a b d.types ↔
    ∀ name ∈ mentions d, a.kindOf name = b.kindOf name := by
  simp only [SeeAlike,mentions,List.mem_flatMap]
  constructor
  · rintro alike name ⟨ty,member,inside⟩
    exact alike ty member name inside
  · exact fun alike ty member name inside => alike name ⟨ty,member,inside⟩

theorem Shows.contents {before : List TopDecl} (shown : Shows before a) (shown' : Shows before b)
    (d : TopDecl) : a.contents d = b.contents d :=
  contents_congr d (seeAlike_iff.mpr fun name _ => (shown name).trans (shown' name).symm)

theorem collectDecls_gathers : ∀ {ds before : List TopDecl} {a : Analyzer}, Shows before a →
    (collectDecls a ds = .ok sa ↔ ∃ es, Gathers before ds es ∧ a.insertAll es = some sa)
  | [],before,a,_ => by simp [collectDecls,Gathers,Analyzer.insertAll]
  | d :: ds,before,a,shown => by
    simp only [collectDecls,bind_accepts,collectDecl_contents]
    constructor
    · rintro ⟨next,⟨now,listed,inserted⟩,rest⟩
      obtain ⟨later,gathered,last⟩ := (collectDecls_gathers (shown.step listed inserted)).mp rest
      exact ⟨now ++ later,⟨a,now,later,shown,listed,gathered,rfl⟩,insertAll_append.mpr ⟨next,inserted,last⟩⟩
    · rintro ⟨_,⟨seer,now,later,seen,listed,gathered,rfl⟩,inserted⟩
      obtain ⟨next,first,last⟩ := insertAll_append.mp inserted
      rw [seen.contents shown] at listed
      exact ⟨next,⟨now,listed,first⟩,
        (collectDecls_gathers (shown.step listed first)).mpr ⟨later,gathered,last⟩⟩

theorem initial_shows : Shows [] initial := fun _ => rfl

section
variable {before : List TopDecl}

/-- The entries that a declaration has at any place of the list. -/
theorem Gathers.placed : ∀ {ds before : List TopDecl} {es : List Entry}, Gathers before ds es →
    ∀ front d back, ds = front ++ d :: back → ∃ seer now, Shows (before ++ front) seer ∧
      seer.contents d = .ok now ∧ ∀ e ∈ now, e ∈ es
  | [],before,es,_,front,d,back,split => by simp at split
  | d' :: ds,before,es,gathered,front,d,back,split => by
    obtain ⟨seer,now,later,seen,listed,gathered,rfl⟩ := gathered
    cases front with
    | nil =>
      obtain ⟨rfl,rfl⟩ := List.cons.inj split
      rw [List.append_nil]
      exact ⟨seer,now,seen,listed,fun e member => List.mem_append_left _ member⟩
    | cons _ front =>
      obtain ⟨rfl,rest⟩ := List.cons.inj split
      obtain ⟨seer',now',seen',listed',inside⟩ := Gathers.placed gathered front d back rest
      rw [List.append_assoc] at seen'
      exact ⟨seer',now',seen',listed',fun e member => List.mem_append_right _ (inside e member)⟩

theorem Gathers.unique : ∀ {ds before : List TopDecl} {es es' : List Entry}, Gathers before ds es →
    Gathers before ds es' → es = es'
  | [],_,_,_,first,second => first.trans second.symm
  | d :: ds,_,_,_,first,second => by
    obtain ⟨seer,now,later,seen,listed,gathered,rfl⟩ := first
    obtain ⟨seer',now',later',seen',listed',gathered',rfl⟩ := second
    rw [seen.contents seen',listed'] at listed
    rw [Except.ok.inj listed,Gathers.unique gathered gathered']

/-- Entries told at every place of the list are gathered. -/
theorem gathers_of_contents {told : TopDecl → List Entry} : ∀ {ds before : List TopDecl},
    (∀ front d back, ds = front ++ d :: back → ∃ seer, Shows (before ++ front) seer ∧
      seer.contents d = .ok (told d)) → Gathers before ds (ds.flatMap told)
  | [],before,_ => rfl
  | d :: ds,before,placed => by
    obtain ⟨seer,seen,listed⟩ := placed [] d ds rfl
    rw [List.append_nil] at seen
    refine ⟨seer,told d,ds.flatMap told,seen,listed,gathers_of_contents ?_,rfl⟩
    intro front d' back split
    obtain ⟨seer',seen',listed'⟩ := placed (d :: front) d' back (by rw [split]; rfl)
    rw [List.append_cons] at seen'
    exact ⟨seer',seen',listed'⟩

private def structNamed : TopDecl → Option (String × StructInfo)
  | .struct s => some (s.name,⟨[]⟩)
  | _ => none

private def enumNamed : TopDecl → Option (String × EnumInfo)
  | .enum e => some (e.name,⟨[]⟩)
  | _ => none

private def namesStruct (name : String) : TopDecl → Bool
  | .struct s => s.name == name
  | _ => false

private def namesEnum (name : String) : TopDecl → Bool
  | .enum e => e.name == name
  | _ => false

/-- There is an analyzer that sees type names as they stand after the declarations. -/
theorem exists_shows (before : List TopDecl) : ∃ seer, Shows before seer := by
  have found {α : Type} (pick : TopDecl → Option (String × α)) (test : String → TopDecl → Bool)
      (same : ∀ name d, test name d = (pick d).any (·.1 == name)) (name : String) :
      ((before.filterMap pick).lookup name).isSome = before.any (test name) := by
    induction before with
    | nil => rfl
    | cons d before ih =>
      rw [List.filterMap_cons,List.any_cons,same name d]
      cases picked : pick d with
      | none => simpa using ih
      | some entry =>
        obtain ⟨key,value⟩ := entry
        by_cases apart : name = key
        · simp [apart]
        · rw [lookup_other apart,ih]
          simp [Ne.symm apart]
  refine ⟨{initial with structs := before.filterMap structNamed,enums := before.filterMap enumNamed},fun name => ?_⟩
  have inStructs := found structNamed namesStruct (fun name d => by cases d <;> rfl) name
  have inEnums := found enumNamed namesEnum (fun name d => by cases d <;> rfl) name
  exact congrArg₂ (fun isStruct isEnum : Bool =>
    if isStruct then some Kind.struct else if isEnum then some Kind.enum else none) inStructs inEnums

end

/-- The analyzer's tables hold the entry. -/
def Stands (sa : Analyzer) : Entry → Prop
  | .struct name info => sa.structs.lookup name = some info
  | .enum name info => sa.enums.lookup name = some info
  | .function name info => sa.functions.lookup name = some info
  | .constant name info => sa.constants.lookup name = some info

theorem Stands.insert {e e' : Entry} (stands : Stands a e) (fresh : ¬a.holds e' = true) :
    Stands (a.insert e') e := by
  have kept {α : Type} {table : List (String × α)} {key key' : String} {value value' : α}
      (found : table.lookup key = some value) (fresh : ¬(table.lookup key').isSome = true) :
      ((key',value') :: table).lookup key = some value := by
    rw [lookup_other,found]
    rintro rfl
    simp [found] at fresh
  cases e <;> cases e'
  case struct.struct | enum.enum | function.function | constant.constant => exact kept stands fresh
  all_goals exact stands

theorem stands_insert (e : Entry) : Stands (a.insert e) e := by
  cases e <;> simp [Stands,Analyzer.insert]

theorem stands_insertAll : ∀ {es : List Entry} {a sa : Analyzer}, a.insertAll es = some sa →
    (∀ e ∈ es, Stands sa e) ∧ ∀ e, Stands a e → Stands sa e
  | [],a,sa,inserted => by
    obtain rfl : a = sa := by simpa [Analyzer.insertAll] using inserted
    exact ⟨by simp,fun _ stands => stands⟩
  | e :: es,a,sa,inserted => by
    obtain ⟨fresh,rest⟩ := insertAll_cons.mp inserted
    obtain ⟨inside,kept⟩ := stands_insertAll rest
    exact ⟨List.forall_mem_cons.mpr ⟨kept e (stands_insert e),inside⟩,
      fun e' stands => kept e' (stands.insert fresh)⟩

/-- The second pass: every function and every constant passes its check. -/
theorem checkDecls_accepts : ∀ ds : List TopDecl, (∃ log, sa.checkDecls ds = .ok log) ↔
    (∀ f, .fn f ∈ ds → ∃ log, sa.checkFn f = .ok log) ∧
      ∀ l, .letDecl l ∈ ds → ∃ log, sa.checkConst l = .ok log
  | [] => by simp [checkDecls]
  | d :: ds => by
    have rest := checkDecls_accepts ds
    cases d <;> simp only [checkDecls,bind_accepts,pure_accepts,List.mem_cons,reduceCtorEq,false_or,
      TopDecl.fn.injEq,TopDecl.letDecl.injEq,forall_eq_or_imp]
    case fn f =>
      rw [and_assoc,← rest]
      constructor
      · rintro ⟨_,own,first,logs,second,_⟩
        exact ⟨⟨own,first⟩,logs,second⟩
      · rintro ⟨⟨own,first⟩,logs,second⟩
        exact ⟨_,own,first,logs,second,rfl⟩
    case letDecl l =>
      rw [and_left_comm,← rest]
      constructor
      · rintro ⟨_,own,first,logs,second,_⟩
        exact ⟨⟨own,first⟩,logs,second⟩
      · rintro ⟨⟨own,first⟩,logs,second⟩
        exact ⟨_,own,first,logs,second,rfl⟩
    all_goals exact rest

theorem analyze_accepts {info : SemanticInfo} : analyze ⟨ds⟩ = .ok info ↔
    ∃ sa, collect ⟨ds⟩ = .ok sa ∧ (∃ log, sa.checkDecls ds = .ok log) ∧ sa.info = info := by
  simp only [analyze,analyzeLog,bind_accepts,pure_accepts,Prod.exists,Prod.mk.injEq]
  constructor
  · rintro ⟨_,_,⟨sa,collected,log,checked,rfl,-⟩,rfl⟩
    exact ⟨sa,collected,⟨log,checked⟩,rfl⟩
  · rintro ⟨sa,collected,⟨log,checked⟩,rfl⟩
    exact ⟨_,_,⟨sa,collected,log,checked,rfl,rfl⟩,rfl⟩

theorem Alike.checkDecls (alike : Alike a b) (perm : ds.Perm ds') :
    (∃ log, a.checkDecls ds = .ok log) ↔ ∃ log, b.checkDecls ds' = .ok log := by
  have fns := fun f => retable_checkFn alike.agrees f
  have consts := fun l => retable_checkConst alike.agrees l
  rw [← alike.same] at fns consts
  simp only [checkDecls_accepts,fns,consts,perm.mem_iff]

theorem SeesAlike.refl_of (perm : ds.Perm ds') (alike : SeesAlike ds ds') : SeesAlike ds ds := by
  intro before d after before' after' split split' name mention
  have member : d ∈ ds' := perm.mem_iff.mp (by simp [split])
  obtain ⟨front,back,placed⟩ := List.append_of_mem member
  rw [alike before d after front back split placed name mention,
    alike before' d after' front back split' placed name mention]

/-- Declarations that see their names alike have the same entries in both orders. -/
theorem Gathers.perm (gathered : Gathers [] ds es) (perm : ds.Perm ds') (alike : SeesAlike ds ds') :
    ∃ es', Gathers [] ds' es' ∧ es.Perm es' := by
  have told (d : TopDecl) : ∃ now, ∀ front back, ds = front ++ d :: back ∨ ds' = front ++ d :: back →
      ∀ seer, Shows front seer → seer.contents d = .ok now := by
    by_cases member : d ∈ ds
    · obtain ⟨front,back,split⟩ := List.append_of_mem member
      obtain ⟨seer,now,seen,listed,-⟩ := gathered.placed front d back split
      refine ⟨now,fun front' back' placed seer' seen' => ?_⟩
      rw [← listed]
      refine contents_congr d (seeAlike_iff.mpr fun name mention => ?_)
      rw [seen' name,seen name]
      rcases placed with placed | placed
      · exact alike.refl_of perm front' d back' front back placed split name mention
      · exact (alike front d back front' back' split placed name mention).symm
    · refine ⟨[],fun front back placed => absurd ?_ member⟩
      rcases placed with placed | placed
      · simp [placed]
      · exact perm.mem_iff.mpr (by simp [placed])
  choose told here using told
  have places (list : List TopDecl) (inside : list = ds ∨ list = ds') :
      Gathers [] list (list.flatMap told) := by
    refine gathers_of_contents fun front d back split => ?_
    obtain ⟨seer,seen⟩ := exists_shows front
    refine ⟨seer,seen,here d front back ?_ seer seen⟩
    rcases inside with rfl | rfl
    · exact .inl split
    · exact .inr split
  have same : es = ds.flatMap told := gathered.unique (places ds (.inl rfl))
  exact ⟨ds'.flatMap told,places ds' (.inr rfl),same ▸ perm.flatMap_right told⟩

theorem collect_alike {sa : Analyzer} (perm : ds.Perm ds') (alike : SeesAlike ds ds')
    (collected : collect ⟨ds⟩ = .ok sa) : ∃ sa', collect ⟨ds'⟩ = .ok sa' ∧ Alike sa sa' := by
  obtain ⟨es,gathered,inserted⟩ := (collectDecls_gathers initial_shows).mp collected
  obtain ⟨es',gathered',permuted⟩ := gathered.perm perm alike
  obtain ⟨sa',inserted',alike'⟩ := insertAll_perm permuted inserted
  exact ⟨sa',(collectDecls_gathers initial_shows).mpr ⟨es',gathered',inserted'⟩,alike'⟩

/-- A declaration whose entries stand in tables that answer alike has the same entries. -/
theorem contents_same {d : TopDecl} {now now' : List Entry} (tables : SameTables sa.info b.info)
    {seer seer' : Analyzer} (listed : seer.contents d = .ok now) (listed' : seer'.contents d = .ok now')
    (stands : ∀ e ∈ now, Stands sa e) (stands' : ∀ e ∈ now', Stands b e) : now = now' := by
  have found {α : Type} {table table' : List (String × α)} {name : String} {value value' : α}
      (same : ∀ name, table.lookup name = table'.lookup name) (first : table.lookup name = some value)
      (second : table'.lookup name = some value') : value = value' := by
    rw [same,second] at first
    exact (Option.some.inj first).symm
  cases d with
  | struct s =>
    simp only [contents,bind_accepts,pure_accepts] at listed listed'
    obtain ⟨fields,-,rfl⟩ := listed
    obtain ⟨fields',-,rfl⟩ := listed'
    simp only [List.forall_mem_singleton] at stands stands'
    rw [found tables.structs stands stands']
  | enum e =>
    simp only [contents,bind_accepts,pure_accepts] at listed listed'
    obtain ⟨variants,-,rfl⟩ := listed
    obtain ⟨variants',-,rfl⟩ := listed'
    simp only [List.forall_mem_singleton] at stands stands'
    rw [found tables.enums stands stands']
  | fn f =>
    simp only [contents,bind_accepts,pure_accepts] at listed listed'
    obtain ⟨-,-,params,-,ret,-,rfl⟩ := listed
    obtain ⟨-,-,params',-,ret',-,rfl⟩ := listed'
    simp only [List.forall_mem_singleton] at stands stands'
    rw [found tables.functions stands stands']
  | letDecl l =>
    simp only [contents,bind_accepts,pure_accepts] at listed listed'
    obtain ⟨-,-,ty,-,rfl⟩ := listed
    obtain ⟨-,-,ty',-,rfl⟩ := listed'
    simp only [List.forall_mem_singleton] at stands stands'
    rw [found tables.constants stands stands']
  | externBlock eb =>
    simp only [contents] at listed listed'
    generalize eb.decls = decls at listed listed'
    induction decls generalizing now now' with
    | nil =>
      simp only [externContents,pure_accepts] at listed listed'
      exact listed.symm.trans listed'
    | cons ef decls ih =>
      simp only [externContents,bind_accepts,pure_accepts] at listed listed'
      obtain ⟨-,-,params,-,ret,-,rest,listed,rfl⟩ := listed
      obtain ⟨-,-,params',-,ret',-,rest',listed',rfl⟩ := listed'
      obtain ⟨first,others⟩ := List.forall_mem_cons.mp stands
      obtain ⟨first',others'⟩ := List.forall_mem_cons.mp stands'
      rw [found tables.functions first first',ih others others' listed listed']
  | useDecl =>
    simp only [contents,pure_accepts] at listed listed'
    exact listed.symm.trans listed'

theorem seesAlike_of_tables {sa sa' : Analyzer} (collected : collect ⟨ds⟩ = .ok sa)
    (collected' : collect ⟨ds'⟩ = .ok sa') (tables : SameTables sa.info sa'.info) : SeesAlike ds ds' := by
  obtain ⟨es,gathered,inserted⟩ := (collectDecls_gathers initial_shows).mp collected
  obtain ⟨es',gathered',inserted'⟩ := (collectDecls_gathers initial_shows).mp collected'
  intro before d after before' after' split split' name mention
  obtain ⟨seer,now,seen,listed,inside⟩ := gathered.placed before d after split
  obtain ⟨seer',now',seen',listed',inside'⟩ := gathered'.placed before' d after' split'
  have stands := fun e member => (stands_insertAll inserted).1 e (inside e member)
  have stands' := fun e member => (stands_insertAll inserted').1 e (inside' e member)
  obtain rfl := contents_same tables listed listed' stands stands'
  have kinds := seeAlike_iff.mp (contents_kinds listed listed') name mention
  rwa [seen name,seen' name] at kinds

/-- The declarations of an accepted program may be reordered exactly when each of them still
sees the type names of its signature as before. -/
theorem declarations_reordered (ds ds' : List TopDecl) (perm : ds.Perm ds') (info : SemanticInfo)
    (accepted : analyze ⟨ds⟩ = .ok info) :
    (∃ info', analyze ⟨ds'⟩ = .ok info' ∧ SameTables info info') ↔ SeesAlike ds ds' := by
  obtain ⟨sa,collected,checked,rfl⟩ := analyze_accepts.mp accepted
  constructor
  · rintro ⟨info',accepted',tables⟩
    obtain ⟨sa',collected',-,rfl⟩ := analyze_accepts.mp accepted'
    exact seesAlike_of_tables collected collected' tables
  · intro alike
    obtain ⟨sa',collected',alike'⟩ := collect_alike perm alike collected
    exact ⟨sa'.info,analyze_accepts.mpr ⟨sa',collected',(alike'.checkDecls perm).mp checked,rfl⟩,
      alike'.tables⟩

private def origin : Span := ⟨0,0⟩

/-- `struct Inner { n: i32 }` -/
def innerDecl : TopDecl := .struct ⟨"Inner",[⟨"n",.primitive .i32 origin,origin⟩],origin⟩

/-- `struct Outer { inner: Inner }` -/
def outerDecl : TopDecl := .struct ⟨"Outer",[⟨"inner",.named "Inner" origin,origin⟩],origin⟩

/-- `let limit: i32 = 3;` -/
def limitDecl : TopDecl := .letDecl ⟨"limit",.primitive .i32 origin,.intLit 3 origin,origin⟩

theorem declarations_reordered_limit : SeesAlike [innerDecl,limitDecl] [limitDecl,innerDecl] :=
  (declarations_reordered [innerDecl,limitDecl] [limitDecl,innerDecl] (.swap ..) _ rfl).mp
    ⟨_,rfl,fun _ => rfl,fun _ => rfl,fun _ => rfl,fun _ => rfl⟩

/-- A struct may not refer to a struct that is declared after it. -/
theorem outer_before_inner : ∃ info, analyze ⟨[innerDecl,outerDecl]⟩ = .ok info ∧
    [innerDecl,outerDecl].Perm [outerDecl,innerDecl] ∧
    ∀ info', analyze ⟨[outerDecl,innerDecl]⟩ ≠ .ok info' :=
  ⟨_,rfl,.swap ..,fun _ => nofun⟩

end Oscan
