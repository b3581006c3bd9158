import Oscan.Storage.Backends

/-! Both backends follow a place to its cell, where the casts of C name the element types and no index
stands right behind an index. -/
namespace Oscan.Storage
open Library.Regions Library.Lockstep Codegen

/-- No index directly behind an index -/
def separated : List Step → Bool
  | .index :: .index :: _ => false
  | _ :: steps => separated steps
  | [] => true

variable {structs : List (String × StructInfo)} {scope : String → Option BcType} {indices : Ir.Expr → Int}
  {m : Memory} {baseTy storedTy ty part elem final : BcType} {cell target : Cell} {v : Value} {info : SemanticInfo}

section

variable (structs scope indices m baseTy storedTy)

/-- What the accessors do to an evaluated lvalue in C -/
def followC : List Ir.PlaceAccessor → Cell × BcType → Outcome (Cell × BcType)
  | [],p => .ok p
  | .field field :: accessors,(cell,ty) =>
    match fieldOf structs ty field with
    | some part => followC accessors (cell.component field,part)
    | none => .undefined
  | .index index :: accessors,(cell,_) => (arrayOf (read m.cells cell)).bind fun id =>
    (guardStore m (!storedTy.isArenaSafe) accessors id).bind fun _ =>
      (m.arrayGet id (indices index)).bind fun element =>
        if elementC baseTy = typeToC id.elem then followC accessors (element,id.elem) else .undefined

end

theorem emitAccessors_eval : ∀ (accessors : List Ir.PlaceAccessor) (s : CLvalue),
    evalLvalue structs scope indices m (emitAccessors baseTy storedTy s accessors) =
      (evalLvalue structs scope indices m s).bind (followC structs indices m baseTy storedTy accessors)
  | [],s => by
    simp only [emitAccessors]
    cases evalLvalue structs scope indices m s <;> rfl
  | .field field :: accessors,s => by
    rw [emitAccessors,emitAccessors_eval accessors,evalLvalue,Outcome.bind_assoc]
    congr 1
    funext p
    simp only [followC]
    cases fieldOf structs p.2 field <;> rfl
  | .index index :: accessors,s => by
    rw [emitAccessors,emitAccessors_eval accessors]
    have get (array : Outcome (Cell × BcType)) (s : CLvalue) (is : evalLvalue structs scope indices m s = array) :
        (evalLvalue structs scope indices m (.get (elementC baseTy) s index)).bind
          (followC structs indices m baseTy storedTy accessors) =
        array.bind fun p => (arrayOf (read m.cells p.1)).bind fun id =>
          (m.arrayGet id (indices index)).bind fun element =>
            if elementC baseTy = typeToC id.elem then
              followC structs indices m baseTy storedTy accessors (element,id.elem) else .undefined := by
      simp only [evalLvalue,is,Outcome.bind_assoc]
      congr 1
      funext p
      congr 1
      funext id
      congr 1
      funext element
      split <;> rfl
    cases guarded : !hasIndex accessors && !storedTy.isArenaSafe with
    | false =>
      have free (id : ArrayId) : guardStore m (!storedTy.isArenaSafe) accessors id = .ok () := by
        rw [guardStore,Bool.and_comm,guarded]
        rfl
      rw [if_neg Bool.false_ne_true,get _ s rfl]
      simp only [followC,free,Outcome.bind_ok]
    | true =>
      have check (id : ArrayId) : guardStore m (!storedTy.isArenaSafe) accessors id = m.checkArenaStore id := by
        rw [guardStore,Bool.and_comm,guarded]
        rfl
      rw [if_pos rfl,get _ (.checked s) rfl,evalLvalue,Outcome.bind_assoc]
      congr 1
      funext p
      -- The array is read for the check and again for the element.
      simp only [followC,check,Outcome.bind_assoc]
      cases found : arrayOf (read m.cells p.1) with
      | panic | undefined => rfl
      | ok id => simp only [Outcome.bind_ok,found]

theorem followC_locates (typed : WellTyped structs scope m) : ∀ {accessors : List Ir.PlaceAccessor} {cell : Cell}
    {ty : BcType}, cellType structs scope m cell = some ty → placeType structs ty (accessors.map irStep) = some final →
    (∀ elem ∈ elementTypes structs ty (accessors.map irStep), typeToC elem = elementC baseTy) →
    followC structs indices m baseTy storedTy accessors (cell,ty) =
      (locate indices m (!storedTy.isArenaSafe) cell accessors).map fun target => (target,final)
  | [],cell,ty,_,type,_ => by
    cases type
    rfl
  | .field field :: accessors,cell,ty,known,type,elements => by
    obtain ⟨part,found,rest⟩ := Option.bind_eq_some_iff.mp type
    have step : fieldOf structs ty field = some part := found
    simp only [List.map_cons,irStep,elementTypes,placeStep,step] at elements
    simp only [followC,step,locate]
    exact followC_locates typed (cellType_component known step) rest elements
  | .index index :: accessors,cell,ty,known,type,elements => by
    obtain ⟨elem,found,rest⟩ := Option.bind_eq_some_iff.mp type
    have array : arrayElementType ty = some elem := found
    simp only [List.map_cons,irStep,elementTypes,placeStep,array,List.forall_mem_cons] at elements
    obtain ⟨cast,elements⟩ := elements
    obtain ⟨number,is⟩ := typed.array known array
    simp only [followC,is,Outcome.bind_ok,locate,cast]
    cases guardStore m (!storedTy.isArenaSafe) accessors ⟨elem,number⟩ with
    | panic | undefined => rfl
    | ok =>
      cases inside : m.arrayGet ⟨elem,number⟩ (indices index) with
      | panic | undefined => rfl
      | ok element => exact followC_locates typed (arrayGet_type inside) rest elements

theorem assignC_eq (typed : WellTyped structs scope m) {name : String} {accessors : List Ir.PlaceAccessor} {span : Span}
    (known : scope name = some ty) (type : placeType structs ty (accessors.map irStep) = some final)
    (elements : ∀ elem ∈ elementTypes structs ty (accessors.map irStep), typeToC elem = elementC baseTy)
    (sized : final ≠ .unit) :
    assignC structs scope indices m (.mk name accessors baseTy span) storedTy v =
      assign indices m (!storedTy.isArenaSafe) name accessors v := by
  have root : cellType structs scope m ⟨.binding name,[]⟩ = some ty := Option.bind_eq_some_iff.mpr ⟨ty,known,rfl⟩
  have start : evalLvalue structs scope indices m (.name name) = .ok (⟨.binding name,[]⟩,ty) := by
    rw [evalLvalue,known]
  rw [assignC,emitPlace,emitAccessors_eval,start,Outcome.bind_ok,followC_locates typed root type elements,assign]
  cases locate indices m (!storedTy.isArenaSafe) ⟨.binding name,[]⟩ accessors with
  | panic | undefined => rfl
  | ok target => simp only [Outcome.map_ok,Outcome.bind_ok,if_neg sized]

theorem emitAccessors_casts : ∀ (accessors : List Ir.PlaceAccessor) (s : CLvalue),
    (emitAccessors baseTy storedTy s accessors).casts =
      s.casts ++ List.replicate ((accessors.map irStep).count .index) (elementC baseTy)
  | [],s => by simp [emitAccessors]
  | .field field :: accessors,s => by
    rw [emitAccessors,emitAccessors_casts accessors]
    simp [CLvalue.casts,irStep]
  | .index index :: accessors,s => by
    have array : (if !hasIndex accessors && !storedTy.isArenaSafe then CLvalue.checked s else s).casts = s.casts := by
      split <;> rfl
    rw [emitAccessors,emitAccessors_casts accessors]
    simp only [CLvalue.casts,array,List.map_cons,irStep,List.count_cons_self,List.replicate_succ,List.append_assoc,
      List.singleton_append]

/-- The operand with which the walk comes to the next accessor: an address of a struct, or a loaded array. -/
def Front (m : Memory) (cell : Cell) (addr : Operand) : List Ir.PlaceAccessor → Prop
  | [] => True
  | .field _ :: _ => addr = .address cell
  | .index _ :: _ => addr = .loaded (read m.cells cell)

theorem readAt_front : ∀ {accessors : List Ir.PlaceAccessor}, placeType structs ty (accessors.map irStep) = some final →
    Front m cell (readAt info m cell ty) accessors
  | [],_ => trivial
  | .field field :: _,type => by
    obtain ⟨part,found,-⟩ := Option.bind_eq_some_iff.mp type
    cases ty with
    | struct => rfl
    | _ => cases found
  | .index _ :: _,type => by
    obtain ⟨elem,found,-⟩ := Option.bind_eq_some_iff.mp type
    cases ty with
    | array | fixedArray => rfl
    | _ => cases found

theorem element_front : ∀ {accessors : List Ir.PlaceAccessor}, separated (.index :: accessors.map irStep) = true →
    Front m cell (.address cell) accessors ∧ separated (accessors.map irStep) = true
  | [],_ => ⟨trivial,rfl⟩
  | .field _ :: _,apart => ⟨rfl,apart⟩
  | .index _ :: _,apart => by cases apart

theorem writeAt_sized (sized : ty ≠ .unit) : writeAt m cell ty v = m.store cell v := if_neg sized

theorem loaded_array {id : ArrayId} (is : arrayOf v = .ok id) : (Operand.loaded v).array id.elem = .ok id := by
  rw [Operand.array,is,Outcome.bind_ok,if_pos rfl]

theorem storePlaceValue_stores (typed : WellTyped info.structs scope m) (sized : final ≠ .unit) :
    ∀ {accessors : List Ir.PlaceAccessor} {cell : Cell} {ty : BcType} {addr : Operand}, accessors ≠ [] →
      cellType info.structs scope m cell = some ty → placeType info.structs ty (accessors.map irStep) = some final →
      separated (accessors.map irStep) = true → Front m cell addr accessors →
      storePlaceValue indices info m final v ty addr accessors =
        (locate indices m (!final.isArenaSafe) cell accessors).map fun target => m.store target v
  | [],_,_,_,nonempty,_,_,_,_ => absurd rfl nonempty
  | .field field :: accessors,cell,ty,addr,_,known,type,apart,front => by
    obtain ⟨part,found,rest⟩ := Option.bind_eq_some_iff.mp type
    have step : fieldOf info.structs ty field = some part := found
    obtain rfl : addr = .address cell := front
    simp only [storePlaceValue,step,locate]
    cases accessors with
    | nil =>
      cases rest
      simp only [List.isEmpty_nil,if_true,writeAt_sized sized,locate,Outcome.map_ok]
    | cons accessor accessors =>
      rw [List.isEmpty_cons,if_neg Bool.false_ne_true]
      exact storePlaceValue_stores typed sized (List.cons_ne_nil _ _) (cellType_component known step) rest apart
        (readAt_front rest)
  | .index index :: accessors,cell,ty,addr,_,known,type,apart,front => by
    obtain ⟨elem,found,rest⟩ := Option.bind_eq_some_iff.mp type
    have array : arrayElementType ty = some elem := found
    obtain ⟨number,is⟩ := typed.array known array
    obtain rfl : addr = .loaded (read m.cells cell) := front
    have pointer := loaded_array is
    simp only [storePlaceValue,array,locate,is,Outcome.bind_ok]
    cases accessors with
    | nil =>
      cases rest
      have check : (if final.isArenaSafe = true then Outcome.ok () else m.checkArenaStore ⟨final,number⟩) =
          guardStore m (!final.isArenaSafe) [] ⟨final,number⟩ := by
        cases final.isArenaSafe <;> simp [guardStore,hasIndex]
      simp only [List.isEmpty_nil,if_true,arrayWrite,pointer,Outcome.bind_ok,check,writeAt_sized sized]
      cases guardStore m (!final.isArenaSafe) [] ⟨final,number⟩ with
      | panic | undefined => rfl
      | ok => cases m.arrayGet ⟨final,number⟩ (indices index) <;> rfl
    | cons accessor accessors =>
      simp only [List.isEmpty_cons,if_neg Bool.false_ne_true,pointer,Outcome.bind_ok,arrayElemPtr]
      cases guardStore m (!final.isArenaSafe) (accessor :: accessors) ⟨elem,number⟩ with
      | panic | undefined => rfl
      | ok =>
        cases inside : m.arrayGet ⟨elem,number⟩ (indices index) with
        | panic | undefined => rfl
        | ok element =>
          obtain ⟨front,apart⟩ := element_front apart
          exact storePlaceValue_stores typed sized (List.cons_ne_nil _ _) (arrayGet_type inside) rest apart front

/-- The walk gets nowhere when an index stands right behind an index. -/
theorem storePlaceValue_separated {m' : Memory} : ∀ {accessors : List Ir.PlaceAccessor} {ty : BcType} {addr : Operand},
    storePlaceValue indices info m final v ty addr accessors = .ok m' → separated (accessors.map irStep) = true
  | [],_,_,_ => rfl
  | .field field :: accessors,ty,addr,stored => by
    have later : separated (accessors.map irStep) = true := by
      simp only [storePlaceValue] at stored
      split at stored
      next =>
        split at stored
        next last => rw [List.isEmpty_iff.mp last]; rfl
        next => exact storePlaceValue_separated stored
      next => cases stored
    exact later
  | [.index _],_,_,_ => rfl
  | .index index :: .field field :: accessors,ty,addr,stored => by
    rw [storePlaceValue] at stored
    split at stored
    next => cases stored
    next =>
      rw [List.isEmpty_cons,if_neg Bool.false_ne_true] at stored
      obtain ⟨id,-,stored⟩ := Outcome.bind_eq_ok stored
      obtain ⟨_,-,stored⟩ := Outcome.bind_eq_ok stored
      obtain ⟨element,-,stored⟩ := Outcome.bind_eq_ok stored
      have later := storePlaceValue_separated stored
      exact later
  | .index index :: .index second :: accessors,ty,addr,stored => by
    rw [storePlaceValue] at stored
    split at stored
    next => cases stored
    next elem _ =>
      rw [List.isEmpty_cons,if_neg Bool.false_ne_true] at stored
      obtain ⟨id,-,stored⟩ := Outcome.bind_eq_ok stored
      obtain ⟨_,-,stored⟩ := Outcome.bind_eq_ok stored
      obtain ⟨element,-,stored⟩ := Outcome.bind_eq_ok stored
      rw [storePlaceValue] at stored
      split at stored
      next => cases stored
      next => split at stored <;> cases stored

end Oscan.Storage
