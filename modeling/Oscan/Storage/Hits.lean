import Oscan.Storage.Stores

/-! Stores through places hit the right cell, and the place reads back the value. -/
namespace Oscan.Storage
open Ast Semantic Semantic.Analyzer Lowering Library.Regions Library.Lockstep Codegen

/-- The expression that reads what the accessors lead to -/
def accessExpr (span : Span) : Expr → List PlaceAccessor → Expr
  | e,[] => e
  | e,.field field :: accessors => accessExpr span (.fieldAccess e field span) accessors
  | e,.index index :: accessors => accessExpr span (.index e index span) accessors

def accessIr (lw : Lowering) (span : Span) : Ir.Expr → List Ir.PlaceAccessor → Ir.Expr
  | e,[] => e
  | e,.field field :: accessors => accessIr lw span (.fieldAccess e field (lw.fieldType e.ty field) span) accessors
  | e,.index index :: accessors => accessIr lw span (.index e index (indexType e.ty) span) accessors

theorem lowerExpr_access {lw : Lowering} (span : Span) : ∀ {accessors : List PlaceAccessor} {e : Expr} {ir : Ir.Expr}
    {irs : List Ir.PlaceAccessor}, lowerExpr lw e = some ir → lowerAccessors lw accessors = some irs →
    lowerExpr lw (accessExpr span e accessors) = some (accessIr lw span ir irs)
  | [],e,ir,irs,lowered,loweredAccessors => by
    cases loweredAccessors
    exact lowered
  | .field field :: accessors,e,ir,irs,lowered,loweredAccessors => by
    simp only [lowerAccessors,bind_lowers,pure_lowers] at loweredAccessors
    obtain ⟨irs,rest,rfl⟩ := loweredAccessors
    have read : lowerExpr lw (.fieldAccess e field span) = some (.fieldAccess ir field (lw.fieldType ir.ty field) span) := by
      simp only [lowerExpr,bind_lowers,pure_lowers]
      exact ⟨ir,lowered,rfl⟩
    exact @lowerExpr_access lw span accessors _ _ irs read rest
  | .index index :: accessors,e,ir,irs,lowered,loweredAccessors => by
    simp only [lowerAccessors,bind_lowers,pure_lowers] at loweredAccessors
    obtain ⟨idx,loweredIndex,irs,rest,rfl⟩ := loweredAccessors
    have read : lowerExpr lw (.index e index span) = some (.index ir idx (indexType ir.ty) span) := by
      simp only [lowerExpr,bind_lowers,pure_lowers]
      exact ⟨ir,lowered,idx,loweredIndex,rfl⟩
    exact @lowerExpr_access lw span accessors _ _ irs read rest

variable {info : SemanticInfo} {lw : Lowering} {scope : String → Option BcType} {indices : Ir.Expr → Int} {m : Memory}
  {ty final : BcType} {cell target : Cell}

theorem fieldType_eq (tables : lw.info.structs = info.structs) {field : String} {part : BcType}
    (found : fieldOf info.structs ty field = some part) : lw.fieldType ty field = part := by
  cases ty with
  | struct name =>
    have found : ((info.structs.lookup name).bind fun s => s.fields.lookup field) = some part := found
    rw [Lowering.fieldType,tables,found]
    rfl
  | _ => cases found

theorem indexType_eq {elem : BcType} (array : arrayElementType ty = some elem) : indexType ty = elem := by
  cases ty <;> cases array <;> rfl

theorem readC_locates (span : Span) (tables : lw.info.structs = info.structs) (typed : WellTyped info.structs scope m) :
    ∀ {accessors : List Ir.PlaceAccessor} {e : Ir.Expr} {s : CLvalue} {cell : Cell}, emitRead e = some s →
      evalLvalue info.structs scope indices m s = .ok (cell,e.ty) → cellType info.structs scope m cell = some e.ty →
      placeType info.structs e.ty (accessors.map irStep) = some final →
      locate indices m false cell accessors = .ok target →
      ∃ s', emitRead (accessIr lw span e accessors) = some s' ∧
        evalLvalue info.structs scope indices m s' = .ok (target,final)
  | [],e,s,cell,emitted,evaluated,_,type,located => by
    cases located
    cases type
    exact ⟨s,emitted,evaluated⟩
  | .field field :: accessors,e,s,cell,emitted,evaluated,known,type,located => by
    obtain ⟨part,step,rest⟩ := Option.bind_eq_some_iff.mp type
    have found : fieldOf info.structs e.ty field = some part := step
    have same := fieldType_eq tables found
    have emitted' : emitRead (.fieldAccess e field part span) = some (.member s field) := by
      rw [emitRead,emitted]
      rfl
    have evaluated' : evalLvalue info.structs scope indices m (.member s field) = .ok (cell.component field,part) := by
      rw [evalLvalue,evaluated]
      simp only [Outcome.bind_ok,found]
    have located' : locate indices m false (cell.component field) accessors = .ok target := located
    rw [accessIr,same]
    exact readC_locates span tables typed emitted' evaluated' (cellType_component known found) rest located'
  | .index index :: accessors,e,s,cell,emitted,evaluated,known,type,located => by
    obtain ⟨elem,step,rest⟩ := Option.bind_eq_some_iff.mp type
    have array : arrayElementType e.ty = some elem := step
    obtain ⟨number,element,is,inside,known',later⟩ := locate_index typed known array located
    have list : e.ty ≠ .str := fun text => by rw [text] at array; cases array
    have cast : elementC e.ty = typeToC elem := by rw [elementC,array,Option.getD_some]
    have emitted' : emitRead (.index e index elem span) = some (.get (elementC e.ty) s index) := by
      rw [emitRead,if_neg list,emitted]
      rfl
    have evaluated' : evalLvalue info.structs scope indices m (.get (elementC e.ty) s index) = .ok (element,elem) := by
      rw [evalLvalue,evaluated]
      simp only [Outcome.bind_ok,is,inside,cast,if_true]
    rw [accessIr,indexType_eq array]
    exact readC_locates span tables typed emitted' evaluated' known' rest later

theorem readObject_locates (span : Span) (tables : lw.info.structs = info.structs) (typed : WellTyped info.structs scope m) :
    ∀ {accessors : List Ir.PlaceAccessor} {e : Ir.Expr} {cell : Cell},
      lowerRead scope indices info m e = .ok (readAt info m cell e.ty) → cellType info.structs scope m cell = some e.ty →
      placeType info.structs e.ty (accessors.map irStep) = some final →
      locate indices m false cell accessors = .ok target →
      lowerRead scope indices info m (accessIr lw span e accessors) = .ok (readAt info m target final)
  | [],e,cell,walked,_,type,located => by
    cases located
    cases type
    exact walked
  | .field field :: accessors,e,cell,walked,known,type,located => by
    obtain ⟨part,step,rest⟩ := Option.bind_eq_some_iff.mp type
    have found : fieldOf info.structs e.ty field = some part := step
    have front : Front m cell (readAt info m cell e.ty) (.field field :: accessors) := readAt_front type
    have front : readAt info m cell e.ty = .address cell := front
    have walked' : lowerRead scope indices info m (.fieldAccess e field part span) =
        .ok (readAt info m (cell.component field) part) := by
      rw [lowerRead,walked,front]
      simp only [Outcome.bind_ok,found]
    have located' : locate indices m false (cell.component field) accessors = .ok target := located
    rw [accessIr,fieldType_eq tables found]
    exact readObject_locates span tables typed walked' (cellType_component known found) rest located'
  | .index index :: accessors,e,cell,walked,known,type,located => by
    obtain ⟨elem,step,rest⟩ := Option.bind_eq_some_iff.mp type
    have array : arrayElementType e.ty = some elem := step
    obtain ⟨number,element,is,inside,known',later⟩ := locate_index typed known array located
    have front : Front m cell (readAt info m cell e.ty) (.index index :: accessors) := readAt_front type
    have front : readAt info m cell e.ty = .loaded (read m.cells cell) := front
    have walked' : lowerRead scope indices info m (.index e index elem span) = .ok (readAt info m element elem) := by
      rw [lowerRead,walked,front]
      simp only [Outcome.bind_ok,array,arrayElemPtr,loaded_array is,inside,Outcome.map_ok]
    rw [accessIr,indexType_eq array]
    exact readObject_locates span tables typed walked' known' rest later

section

variable (info : SemanticInfo) (self : Analyzer) (lw : Lowering) (name : String) (accessors : List PlaceAccessor)
  (root : BindingInfo)

def scopeOf (name : String) : Option BcType := (self.lookupVar name).map (·.ty)

/-- What a store to the place of the named variable has to do in both backends. -/
structure Hits (place : Ir.Place) (irs : List Ir.PlaceAccessor) (storedTy final : BcType) (e : Ir.Expr) : Prop where
  base : ∃ span, place = .mk name irs root.ty span
  casts : (emitPlace place storedTy).casts = (elementTypes info.structs root.ty (accessors.map astStep)).map typeToC
  stores : ∀ indices m v, WellTyped info.structs (scopeOf self) m → HasType info.structs final v →
    assignC info.structs (scopeOf self) indices m place storedTy v = assign indices m (!storedTy.isArenaSafe) name irs v ∧
    assignObject (scopeOf self) indices info m v place = assign indices m (!final.isArenaSafe) name irs v
  hits : ∀ indices m guarded v m', WellTyped info.structs (scopeOf self) m → HasType info.structs final v →
    assign indices m guarded name irs v = .ok m' → WellTyped info.structs (scopeOf self) m' ∧
      ∃ cell, locate indices m guarded ⟨.binding name,[]⟩ irs = .ok cell ∧ read m'.cells cell = v ∧
        (∀ other, Apart cell other → read m'.cells other = read m.cells other) ∧
        readC info.structs (scopeOf self) indices m' e = .ok v ∧ readObject (scopeOf self) indices info m' e = .ok v

/-- The places for which this is so. -/
structure Direct : Prop where
  base : (lw.lookupType name).getD .unit = root.ty
  elements : ∀ elem ∈ elementTypes info.structs root.ty (accessors.map astStep), typeToC elem = elementC root.ty
  apart : separated (accessors.map astStep) = true
  sized : placeType info.structs root.ty (accessors.map astStep) ≠ some .unit

end

/-- A value of the type in which every array is the first one of its kind -/
def sampleValue (structs : List (String × StructInfo)) (ty : BcType) : Value := fun path =>
  match (typeAt structs ty path).bind arrayElementType with
  | some elem => .array ⟨elem,0⟩
  | none => .word 0

def sampleMemory (structs : List (String × StructInfo)) (scope : String → Option BcType) : Memory where
  cells
    | .binding name => sampleValue structs ((scope name).getD .unit)
    | .element id _ => sampleValue structs id.elem
  length _ := 1
  owner _ := 0
  arena := 0

variable {structs : List (String × StructInfo)}

theorem sampleValue_typed : HasType structs ty (sampleValue structs ty) := by
  intro path part elem found array
  refine ⟨0,?_⟩
  rw [sampleValue,found,Option.bind_some,array]

theorem sampleMemory_typed : WellTyped structs scope (sampleMemory structs scope) := by
  intro root rootTy known
  cases root with
  | binding name =>
    have known : scope name = some rootTy := known
    have is : (sampleMemory structs scope).cells (.binding name) = sampleValue structs rootTy := by
      simp only [sampleMemory,known,Option.getD_some]
    exact is ▸ sampleValue_typed
  | element id index =>
    simp only [rootType] at known
    split at known
    next =>
      cases known
      exact sampleValue_typed
    next => cases known

theorem sample_locates (guarded : Bool) : ∀ {accessors : List Ir.PlaceAccessor} {cell : Cell} {ty : BcType},
    cellType structs scope (sampleMemory structs scope) cell = some ty →
    placeType structs ty (accessors.map irStep) = some final →
    ∃ target, locate (fun _ => 0) (sampleMemory structs scope) guarded cell accessors = .ok target
  | [],cell,_,_,_ => ⟨cell,rfl⟩
  | .field field :: accessors,cell,ty,known,type => by
    obtain ⟨part,found,rest⟩ := Option.bind_eq_some_iff.mp type
    have ⟨target,located⟩ := sample_locates guarded (cellType_component known found) rest
    exact ⟨target,located⟩
  | .index index :: accessors,cell,ty,known,type => by
    obtain ⟨elem,array,rest⟩ := Option.bind_eq_some_iff.mp type
    obtain ⟨number,is⟩ := sampleMemory_typed.array known array
    have free : guardStore (sampleMemory structs scope) guarded accessors ⟨elem,number⟩ = .ok () := by
      rw [guardStore]
      split <;> rfl
    have inside : (sampleMemory structs scope).arrayGet ⟨elem,number⟩ 0 = .ok ⟨.element ⟨elem,number⟩ 0,[]⟩ := rfl
    obtain ⟨target,located⟩ := sample_locates guarded (arrayGet_type inside) rest
    refine ⟨target,?_⟩
    rw [locate,is,Outcome.bind_ok,free,Outcome.bind_ok,inside,Outcome.bind_ok]
    exact located

section

variable {self : Analyzer} {name : String} {accessors : List PlaceAccessor} {irs : List Ir.PlaceAccessor}
  {root : BindingInfo} {storedTy : BcType} {e : Ir.Expr} {place : Ir.Place} {span : Span}

/-- A store that goes through and everything that is read after it. -/
theorem assign_hits {rank : String → Nat} {indices : Ir.Expr → Int} {m m' : Memory} {guarded : Bool} {v : Value}
    (stacked : Stacked info.structs rank) (tables : lw.info.structs = info.structs)
    (found : self.lookupVar name = some root)
    (type : placeType info.structs root.ty (irs.map irStep) = some final)
    (typed : WellTyped info.structs (scopeOf self) m) (right : HasType info.structs final v)
    (assigned : assign indices m guarded name irs v = .ok m') :
    WellTyped info.structs (scopeOf self) m' ∧
      ∃ cell, locate indices m guarded ⟨.binding name,[]⟩ irs = .ok cell ∧ read m'.cells cell = v ∧
        (∀ other, Apart cell other → read m'.cells other = read m.cells other) ∧
        readC info.structs (scopeOf self) indices m' (accessIr lw span (.ident name .value root.ty span) irs) = .ok v ∧
        readObject (scopeOf self) indices info m' (accessIr lw span (.ident name .value root.ty span) irs) = .ok v := by
  rw [assign,Outcome.map_eq_bind] at assigned
  obtain ⟨cell,located,stored⟩ := Outcome.bind_eq_ok assigned
  cases stored
  have inScope : scopeOf self name = some root.ty := by rw [scopeOf,found]; rfl
  have known (m : Memory) : cellType info.structs (scopeOf self) m ⟨.binding name,[]⟩ = some root.ty :=
    Option.bind_eq_some_iff.mpr ⟨root.ty,inScope,rfl⟩
  have typed' := typed.store (locate_type typed (known m) type located) right
  have again := locate_store (v := v) stacked typed (known m) type located
  have back : read (m.store cell v).cells cell = v := read_write m.cells v
  refine ⟨typed',cell,located,back,fun other apart => read_write_apart m.cells v apart,?_,?_⟩
  · have start : evalLvalue info.structs (scopeOf self) indices (m.store cell v) (.name name) =
        .ok (⟨.binding name,[]⟩,root.ty) := by rw [evalLvalue,inScope]
    obtain ⟨s,emitted,evaluated⟩ := @readC_locates _ _ _ _ _ _ _ span tables typed' _ (.ident name .value root.ty span) _ _ rfl start (known _)
      type again
    rw [readC,emitted]
    simp only [evaluated,Outcome.map_ok,back]
  · have start : lowerRead (scopeOf self) indices info (m.store cell v) (.ident name .value root.ty span) =
        .ok (readAt info (m.store cell v) ⟨.binding name,[]⟩ root.ty) := by rw [lowerRead,inScope]
    have walked := @readObject_locates _ _ _ _ _ _ _ span tables typed' _ (.ident name .value root.ty span) _ start (known _)
      type again
    rw [readObject,walked,Outcome.map_ok,readAt]
    split <;> exact congrArg Outcome.ok back

theorem hits_of_direct {placeSpan : Span} (accepted : ∃ rank, Stacked info.structs rank) (tables : lw.info.structs = info.structs)
    (found : self.lookupVar name = some root)
    (type : placeType info.structs root.ty (accessors.map astStep) = some final)
    (lowered : lowerPlace lw (.mk name accessors placeSpan) = some place)
    (loweredAccessors : lowerAccessors lw accessors = some irs)
    (read : lowerExpr lw (accessExpr span (.ident name span) accessors) = some e)
    (direct : Direct info lw name accessors root) :
    Hits info self name accessors root place irs storedTy final e := by
  have steps := lowerAccessors_steps loweredAccessors
  have typeIr := type
  rw [← steps] at typeIr
  have sized : final ≠ .unit := fun unit => direct.sized (unit ▸ type)
  have base : lw.lookupType name = some root.ty := by
    cases known : lw.lookupType name with
    | some ty => exact congrArg some (by simpa only [known,Option.getD_some] using direct.base)
    | none =>
      have unit := direct.base
      rw [known,Option.getD_none] at unit
      cases accessors with
      | nil => exact absurd (by rw [← unit]; rfl) direct.sized
      | cons accessor accessors => cases accessor <;> rw [← unit] at type <;> cases type
  simp only [lowerPlace,bind_lowers,pure_lowers,loweredAccessors,Option.some.injEq,exists_eq_left'] at lowered
  rw [base,Option.getD_some] at lowered
  subst lowered
  have ident : lowerExpr lw (.ident name span) = some (.ident name .value root.ty span) := by
    simp only [lowerExpr,identKind,base]
  rw [lowerExpr_access span ident loweredAccessors] at read
  cases read
  have elements : ∀ elem ∈ elementTypes info.structs root.ty (irs.map irStep), typeToC elem = elementC root.ty := by
    rw [steps]
    exact direct.elements
  have inScope : scopeOf self name = some root.ty := by rw [scopeOf,found]; rfl
  refine ⟨⟨_,rfl⟩,?_,fun indices m v typed right => ⟨assignC_eq typed inScope typeIr elements sized,?_⟩,
    fun indices m guarded v m' typed right assigned => ?_⟩
  · rw [emitPlace,emitAccessors_casts,CLvalue.casts,List.nil_append,steps,eq_comm,List.eq_replicate_iff,List.length_map,
      elementTypes_length type,List.forall_mem_map]
    exact ⟨rfl,direct.elements⟩
  · have known : cellType info.structs (scopeOf self) m ⟨.binding name,[]⟩ = some root.ty :=
      Option.bind_eq_some_iff.mpr ⟨root.ty,inScope,rfl⟩
    simp only [assignObject,inScope,typeIr]
    cases irs with
    | nil =>
      cases typeIr
      rw [List.isEmpty_nil,if_pos rfl,writeAt_sized sized]
      rfl
    | cons ir irs =>
      rw [List.isEmpty_cons,if_neg Bool.false_ne_true]
      exact storePlaceValue_stores typed sized (List.cons_ne_nil ir irs) known typeIr (steps ▸ direct.apart)
        (readAt_front typeIr)
  · obtain ⟨rank,stacked⟩ := accepted
    exact assign_hits stacked tables found typeIr typed right assigned

theorem direct_of_hits {placeSpan : Span} (found : self.lookupVar name = some root)
    (type : placeType info.structs root.ty (accessors.map astStep) = some final)
    (lowered : lowerPlace lw (.mk name accessors placeSpan) = some place)
    (loweredAccessors : lowerAccessors lw accessors = some irs)
    (hit : Hits info self name accessors root place irs storedTy final e) :
    Direct info lw name accessors root := by
  have steps := lowerAccessors_steps loweredAccessors
  obtain ⟨⟨span,rfl⟩,casts,stores,-⟩ := hit
  simp only [lowerPlace,bind_lowers,pure_lowers,loweredAccessors,Option.some.injEq,exists_eq_left',Ir.Place.mk.injEq]
    at lowered
  obtain ⟨-,-,base,-⟩ := lowered
  rw [emitPlace,emitAccessors_casts,CLvalue.casts,List.nil_append,eq_comm,List.eq_replicate_iff,List.forall_mem_map] at casts
  obtain ⟨-,elements⟩ := casts
  have typeIr := type
  rw [← steps] at typeIr
  have inScope : scopeOf self name = some root.ty := by rw [scopeOf,found]; rfl
  let m := sampleMemory info.structs (scopeOf self)
  let v := sampleValue info.structs final
  have typed : WellTyped info.structs (scopeOf self) m := sampleMemory_typed
  have known : cellType info.structs (scopeOf self) m ⟨.binding name,[]⟩ = some root.ty :=
    Option.bind_eq_some_iff.mpr ⟨root.ty,inScope,rfl⟩
  have both := stores (fun _ => 0) m v typed sampleValue_typed
  have goes (guarded : Bool) : ∃ m', assign (fun _ => 0) m guarded name irs v = .ok m' := by
    obtain ⟨cell,located⟩ := sample_locates guarded known typeIr
    exact ⟨m.store cell v,by rw [assign,located]; rfl⟩
  refine ⟨base,elements,?_,?_⟩
  · obtain ⟨m',done⟩ := goes (!final.isArenaSafe)
    have object := both.2.trans done
    rw [← steps]
    simp only [assignObject,inScope,typeIr] at object
    split at object
    next none => rw [List.isEmpty_iff.mp none]; rfl
    next => exact storePlaceValue_separated object
  · intro unit
    rw [type] at unit
    cases unit
    obtain ⟨m',done⟩ := goes (!storedTy.isArenaSafe)
    have c := both.1.trans done
    have start : evalLvalue info.structs (scopeOf self) (fun _ => 0) m (.name name) =
        .ok (⟨.binding name,[]⟩,root.ty) := by rw [evalLvalue,inScope]
    rw [assignC,emitPlace,emitAccessors_eval,start,Outcome.bind_ok,
      followC_locates typed known typeIr (steps ▸ elements)] at c
    cases located : locate (fun _ => 0) m (!storedTy.isArenaSafe) ⟨.binding name,[]⟩ irs <;> rw [located] at c <;> cases c

end

variable (info : SemanticInfo) (self : Analyzer) (lw : Lowering) (span : Span)

/-- The store as lowering leaves it hits the cell of the place, and the place is read again as an expression. -/
def StoresHit (target : Place) (place : Ir.Place) (storedTy : BcType) : Prop :=
  ∃ root final irs e, self.lookupVar target.name = some root ∧
    placeType info.structs root.ty (target.accessors.map astStep) = some final ∧
    lowerAccessors lw target.accessors = some irs ∧
    lowerExpr lw (accessExpr span (.ident target.name span) target.accessors) = some e ∧
    Hits info self target.name target.accessors root place irs storedTy final e

def DirectPlace (target : Place) : Prop :=
  ∃ root, self.lookupVar target.name = some root ∧ Direct info lw target.name target.accessors root

variable {info self lw span}

private def untraced : Span := ⟨0,0⟩

def mainOf (stmts : List Stmt) : TopDecl := .fn ⟨"main",[],none,.mk stmts none untraced,false,untraced⟩

/-- The two passes behind a declaration of a mutable variable -/
def checkerWith (info : SemanticInfo) (name : String) (ty : BcType) : Analyzer :=
  ⟨info.structs,info.enums,info.functions,info.constants,[[(name,⟨ty,true⟩)],[],[]],some .unit,false,0⟩

def loweringWith (info : SemanticInfo) (name : String) (ty : BcType) : Lowering :=
  ⟨info,[[(name,ty)],[],[]],some .unit,none,none⟩

def intAt (n : Nat) : PlaceAccessor := .index (.intLit n untraced)

/-- `let mut points: [Point] = [Point{x: 1}]; points[0].x = 5;` -/
def pointsStore : Stmt := .assign (.mk "points" [intAt 0,.field "x"] untraced) (.intLit 5 untraced) untraced

def points : Program :=
  ⟨[.struct ⟨"Point",[⟨"x",.primitive .i32 untraced,untraced⟩],untraced⟩,
    mainOf [.letStmt "points" true (.dynamicArray (.named "Point" untraced) untraced)
      (.arrayLit [.structLit "Point" [.mk "x" (.intLit 1 untraced) untraced] untraced] untraced) untraced,pointsStore]]⟩

/-- `let mut rows: [[i32]] = [[1]]; rows[0][0] = 7;` -/
def rowsStore : Stmt := .assign (.mk "rows" [intAt 0,intAt 0] untraced) (.intLit 7 untraced) untraced

def rows : Program :=
  ⟨[mainOf [.letStmt "rows" true (.dynamicArray (.dynamicArray (.primitive .i32 untraced) untraced) untraced)
      (.arrayLit [.arrayLit [.intLit 1 untraced] untraced] untraced) untraced,rowsStore]]⟩

end Oscan.Storage
