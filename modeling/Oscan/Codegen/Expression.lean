import Oscan.Codegen.Node
import Oscan.Codegen.Text
import Oscan.Codegen.TypeName
import Oscan.Collection

/-! The C expression that the emitter writes for an expression of the IR. Statements that it
writes in front (for blocks, branches, matches, short-circuits and the like) leave a temporary
behind, which is all that remains in the expression. -/
namespace Oscan.Codegen
open Ir

/-- The built-in functions that become one runtime call with the same arguments. -/
def plainBuiltins : List String :=
  ["print","println","print_i32","print_i64","print_f64","print_bool","str_len","str_eq",
   "str_find","abs_i32","abs_f64","mod_i32","math_sin","math_cos","math_sqrt","math_pow",
   "math_exp","math_log","math_atan2","math_floor","math_ceil","math_fmod","math_abs","math_pi",
   "math_e","math_ln2","math_sqrt2","file_open_read","file_open_write","read_byte","write_byte",
   "write_str","file_close","file_delete","socket_tcp","socket_connect","socket_bind",
   "socket_listen","socket_accept","socket_send","socket_close","socket_unix_connect",
   "socket_udp","socket_sendto","tls_connect","tls_send","tls_recv_byte","tls_close",
   "tls_cleanup","arg_count","char_is_alpha","char_is_digit","char_is_alnum","char_is_space",
   "char_is_upper","char_is_lower","char_is_print","char_is_xdigit","char_to_upper",
   "char_to_lower","abs_i64","parse_i32","parse_i64","str_from_bool","rand_seed","rand_i32",
   "time_now","sleep_ms","exit","errno_get","errno_str","file_rename","file_exists","dir_create",
   "dir_remove","dir_change","file_open_append","file_size","path_ext","path_exists",
   "path_is_dir","str_contains","str_starts_with","str_ends_with","str_compare","proc_run",
   "fd_dup","fd_dup2","proc_spawn","proc_wait","term_width","term_height","term_raw",
   "term_restore","read_nonblock","env_count","time_utc_year","time_utc_month","time_utc_day",
   "time_utc_hour","time_utc_min","time_utc_sec","glob_match","is_tty","env_set","env_delete",
   "canvas_open","canvas_close","canvas_alive","canvas_flush","canvas_clear","canvas_width",
   "canvas_height","canvas_scale","canvas_resized","canvas_set_icon","gfx_pixel","gfx_get_pixel",
   "gfx_line","gfx_rect","gfx_fill_rect","gfx_circle","gfx_fill_circle","gfx_draw_text",
   "gfx_draw_text_scaled","gfx_text_width","gfx_blit","gfx_blit_alpha","canvas_key",
   "canvas_mouse_x","canvas_mouse_y","canvas_mouse_btn","canvas_wheel","clipboard_set","rgb",
   "rgba","sort_i32","sort_i64","sort_str","sort_f64","map_get","map_has","map_delete","map_len",
   "map_str_i32_get","map_str_i32_has","map_str_i32_delete","map_str_i32_len","map_str_i64_get",
   "map_str_i64_has","map_str_i64_delete","map_str_i64_len","map_str_f64_get","map_str_f64_has",
   "map_str_f64_delete","map_str_f64_len","map_i32_str_get","map_i32_str_has",
   "map_i32_str_delete","map_i32_str_len","map_i32_i32_get","map_i32_i32_has",
   "map_i32_i32_delete","map_i32_i32_len","write_file","min_i32","max_i32","clamp_i32","min_i64",
   "max_i64","clamp_i64","min_f64","max_f64","clamp_f64","path_basename","tt_free","tt_ascent",
   "tt_descent","tt_line_gap","tt_line_height","tt_text_width","tt_draw_text"]

/-- The built-in functions whose runtime call takes the arena first. -/
def arenaBuiltins : List String :=
  ["read_line","str_concat","str_to_cstr","str_from_i32","str_slice","i32_to_str","socket_recv",
   "socket_recvfrom","tls_recv","arg_get","str_from_i64","str_from_f64","env_get","dir_current",
   "path_join","str_trim","str_split","str_to_upper","str_to_lower","str_replace","dir_list",
   "pipe_create","path_find_exec","env_key","env_value","str_from_i32_hex","str_from_i64_hex",
   "time_format","sha256","clipboard_get","map_new","map_set","map_str_i32_new",
   "map_str_i32_set","map_str_i64_new","map_str_i64_set","map_str_f64_new","map_str_f64_set",
   "map_i32_str_new","map_i32_str_set","map_i32_i32_new","map_i32_i32_set","read_file",
   "str_join","path_dirname","str_from_chars","str_to_chars","img_load","svg_load","tt_load"]

/-- The shapes of call that `emit_call` writes. -/
inductive CallShape where
  | direct (function : String) (arena : Bool)
  | bits (op : COp)
  | shift (op : COp)
  | bnot
  | pop

def namedShape (functions : List (String × FunctionInfo)) (name : String) : CallShape :=
  match functions.lookup name with
  | some info => .direct (mangleCName name) (!info.isExtern)
  | none => .direct (mangleCName name) true

/-- Built-in names go first, whatever the callee was resolved to. -/
def callShape (functions : List (String × FunctionInfo)) (name : String) (isVar : Bool) : CallShape :=
  if plainBuiltins.contains name then .direct ("osc_" ++ name) false
  else if arenaBuiltins.contains name then .direct ("osc_" ++ name) true
  else match name with
    | "len" => .direct "osc_array_len" false
    | "band" => .bits .band
    | "bor" => .bits .bor
    | "bxor" => .bits .bxor
    | "bshl" => .shift .shl
    | "bshr" => .shift .shr
    | "bnot" => .bnot
    | "pop" => .pop
    | _ => if isVar then .direct name true else namedShape functions name

/-- What the emitter knows of the program, the names of the temporaries that hold the values of
hoisted expressions, and the digits of a floating-point literal. -/
structure Emitter where
  functions : List (String × FunctionInfo)
  enums : List (String × EnumInfo)
  held : Expr → String
  digits : Binary64 → String

def escapeCString (s : String) : String :=
  String.join (s.toList.map fun
    | '\n' => "\\n"
    | '\t' => "\\t"
    | '\r' => "\\r"
    | '\\' => "\\\\"
    | '"' => "\\\""
    | '\x00' => "\\0"
    | c => c.toString)

/-- A checked operation on integers, an operator in parentheses on anything else. -/
def arithmeticForm {T : Type} (F : Form T) (name : String) (op : COp) (ty : BcType) (l r : T) : T :=
  match ty with
  | .i32 => F.call ("osc_" ++ name ++ "_i32") [l,r]
  | .i64 => F.call ("osc_" ++ name ++ "_i64") [l,r]
  | _ => F.group (F.binary op l r)

def relationForm {T : Type} (F : Form T) (op : COp) (ty : BcType) (l r : T) : T :=
  match ty with
  | .str => F.group (F.binary op (F.call "osc_str_compare" [l,r]) (F.word "0"))
  | _ => F.binary op l r

section Forms
variable {T : Type} (F : Form T)

/-- `emit_binary_op` without its short-circuits. The remainder of doubles, which the checker
rejects, would come out as `%%`. -/
def binaryForm (op : BinOp) (ty : BcType) (l r : T) : T :=
  match op with
  | .add =>
    match ty with
    | .str => F.call "osc_str_concat" [F.word "_arena",l,r]
    | _ => arithmeticForm F "add" .add ty l r
  | .sub => arithmeticForm F "sub" .sub ty l r
  | .mul => arithmeticForm F "mul" .mul ty l r
  | .div => arithmeticForm F "div" .div ty l r
  | .mod => arithmeticForm F "mod" .rem ty l r
  | .eq =>
    match ty with
    | .str => F.call "osc_str_eq" [l,r]
    | .enum _ => F.binary .eq (F.field l "tag") (F.field r "tag")
    | _ => F.binary .eq l r
  | .neq =>
    match ty with
    | .str => F.group (F.pre (.op "!") (F.call "osc_str_eq" [l,r]))
    | .enum _ => F.binary .ne (F.field l "tag") (F.field r "tag")
    | _ => F.binary .ne l r
  | .lt => relationForm F .lt ty l r
  | .gt => relationForm F .gt ty l r
  | .ltEq => relationForm F .le ty l r
  | .gtEq => relationForm F .ge ty l r
  | .and | .or => F.word ""

def unaryForm (op : UnaryOp) (ty : BcType) (val : T) : T :=
  match op with
  | .not => F.group (F.pre (.op "!") (F.group val))
  | .neg =>
    match ty with
    | .i32 => F.call "osc_neg_i32" [val]
    | .i64 => F.call "osc_neg_i64" [val]
    | _ => F.group (F.pre (.op "-") val)

def castForm (source target : BcType) (val : T) : T :=
  match source,target with
  | .i32,.i64 => F.call "osc_i32_to_i64" [val]
  | .i64,.i32 => F.call "osc_i64_to_i32" [val]
  | .i32,.f64 => F.call "osc_i32_to_f64" [val]
  | .i64,.f64 => F.call "osc_i64_to_f64" [val]
  | .f64,.i32 => F.call "osc_f64_to_i32" [val]
  | .f64,.i64 => F.call "osc_f64_to_i64" [val]
  | .handle,.i64 => F.group (F.pre (.cast "int64_t") (F.group val))
  | .i64,.handle => F.group (F.pre (.cast "uintptr_t") (F.group val))
  | _,_ => F.group (F.pre (.cast (typeToC target)) val)

def indexForm (arrTy : BcType) (arr index : T) : T :=
  match arrTy with
  | .str =>
    let byte := F.subscript (F.field (F.group arr) "data") (F.call "osc_str_check_index" [arr,index])
    F.group (F.pre (.cast "int32_t") (F.pre (.cast "unsigned char") (F.group byte)))
  | _ =>
    let elemC := typeToC ((arrayElementType arrTy).getD .i32)
    F.group (F.pre (.op "*") (F.pre (.cast (elemC ++ "*")) (F.call "osc_array_get" [arr,index])))

def void : T := F.pre (.cast "void") (F.word "0")

/-- The arguments are as many as the checker counted. -/
def callForm (shape : CallShape) (elemTy : BcType) (args : List T) : T :=
  let arg (i : Nat) : T := args.getD i (F.word "")
  let unsigned (t : T) : T := F.pre (.cast "uint32_t") (F.group t)
  let int32 (t : T) : T := F.group (F.pre (.cast "int32_t") (F.group t))
  match shape with
  | .direct function arena => F.call function (if arena then F.word "_arena" :: args else args)
  | .bits op => int32 (F.binary op (unsigned (arg 0)) (unsigned (arg 1)))
  | .shift op => int32 (F.binary op (unsigned (arg 0)) (F.group (arg 1)))
  | .bnot => int32 (F.pre (.op "~") (unsigned (arg 0)))
  | .pop =>
    F.group (F.pre (.op "*") (F.pre (.cast (typeToC elemTy ++ "*")) (F.call "osc_array_pop" args)))

/-- A collection intrinsic over its first argument, of type `firstTy` and held in `array`; values to be stored or looked up are
passed by the address of a temporary. -/
def collectionForm (intrinsic : CollectionIntrinsic) (firstTy : BcType) (result array : T)
    (args temps : List T) : T :=
  let arg (i : Nat) : T := args.getD i (F.word "")
  let address (i : Nat) : T := F.pre (.op "&") (temps.getD i (F.word ""))
  let arena := F.word "_arena"
  let symbol := intrinsic.runtimeSymbol
  match intrinsic.op with
  | .clone => F.call symbol [arena,array]
  | .repeat => F.call symbol [arena,F.word (cSizeof firstTy),address 0,arg 1]
  | .reverse | .clear | .sort => F.call symbol [array]
  | .fill => F.call symbol [array,address 1]
  | .swap => F.call symbol [array,arg 1,arg 2]
  | .extend => F.call symbol [arena,array,arg 1]
  | .insert => F.call symbol [arena,array,arg 1,address 2]
  | .removeAt => result
  | .slice => F.call symbol [arena,array,arg 1,arg 2]
  | .contains | .indexOf | .lastIndexOf | .count => F.call symbol [array,address 1]
  | .compare => F.call symbol [array,arg 1]
  | .any | .all | .map | .filter | .fold => result
  | .forEach => void F

def interpolatedPart (ty : BcType) (value : T) : T :=
  match ty with
  | .i32 => F.call "osc_str_from_i32" [F.word "_arena",value]
  | .i64 => F.call "osc_str_from_i64" [F.word "_arena",value]
  | .f64 => F.call "osc_str_from_f64" [F.word "_arena",value]
  | .bool => F.call "osc_str_from_bool" [value]
  | _ => value

def stringForm (s : String) : T := F.call "osc_str_from_cstr" [F.word ("\"" ++ escapeCString s ++ "\"")]

def concatForm : List T → T
  | [] => F.call "osc_str_from_cstr" [F.word "\"\""]
  | first :: rest => rest.foldl (fun acc t => F.call "osc_str_concat" [F.word "_arena",acc,t]) first

end Forms

namespace Emitter
variable {T : Type} (F : Form T) (em : Emitter)

def hasPayload (enumName : String) : Bool :=
  match em.enums.lookup enumName with
  | some info => info.variants.any fun v => !v.2.isEmpty
  | none => false

/-- A constructor over its payload values. -/
def constructorForm (enumName variant : String) (ty : BcType) (values : List T) : T :=
  if enumName == "Result" then
    match variant,ty with
    | "Ok",.result .unit _ => F.compound (typeToC ty) [(".is_ok",F.word "1")]
    | "Ok",_ => F.compound (typeToC ty) [(".is_ok",F.word "1"),(".value.ok",values.headD (F.word ""))]
    | "Err",_ => F.compound (typeToC ty) [(".is_ok",F.word "0"),(".value.err",values.headD (F.word ""))]
    | _,_ => F.word "0"
  else
    let tag := F.word (enumName ++ "_TAG_" ++ variant)
    if em.hasPayload enumName then
      F.compound enumName ((".tag",tag) ::
        values.mapIdx fun i v => (".data." ++ variant ++ "._" ++ toString i,v))
    else tag

/-- A call by name; what `push` appends goes through a temporary. -/
def emitNamed (name : String) (isVar : Bool) (args : List Expr) (values : List T) : T :=
  let first := args.headD (.boolLit false default)
  if name == "push" then
    let pushed := args.getD 1 (.boolLit false default)
    F.call "osc_array_push" [F.word "_arena",F.word (em.held first),
      F.pre (.op "&") (F.word (em.held pushed))]
  else
    let elemTy := match first.ty with | .array elem => elem | _ => .i32
    callForm F (callShape em.functions name isVar) elemTy values

mutual
/-- The text of `emit_expr`, or the tree it stands for. Literals of the source have no sign, so
each is one word. -/
def emit (e : Expr) : T :=
  match e with
  | .intLit v _ => F.word (toString v)
  | .floatLit v _ => F.word (em.digits v)
  | .stringLit s _ => stringForm F s
  | .interpolatedString parts _ => concatForm F (emitParts parts)
  | .boolLit b _ => F.word (if b then "1" else "0")
  | .ident name .fnRef _ _ => F.word (if name == "main" then "oscan_main" else mangleCName name)
  | .ident name .value _ _ => F.word name
  | .binaryOp op l r _ _ =>
    match op with
    | .and | .or => F.word (em.held e)
    | _ => binaryForm F op l.ty (emit l) (emit r)
  | .unaryOp op operand _ _ => unaryForm F op operand.ty (emit operand)
  | .cast inner toTy _ => castForm F inner.ty toTy (emit inner)
  | .call (.collection intrinsic) args _ _ =>
    let array := args.headD (.boolLit false default)
    collectionForm F intrinsic array.ty (F.word (em.held e))
      (F.word (em.held array)) (emitExprs args) (args.map fun a => F.word (em.held a))
  | .call (.named name) args _ _ => em.emitNamed F name false args (emitExprs args)
  | .call (.var name) args _ _ => em.emitNamed F name true args (emitExprs args)
  | .fieldAccess inner field _ _ => F.field (emit inner) field
  | .index arr index _ _ => indexForm F arr.ty (emit arr) (emit index)
  | .block body => if body.ty = .unit then void F else F.word (em.held e)
  | .ifExpr _ _ _ ty _ | .matchExpr _ _ ty _ => if ty = .unit then void F else F.word (em.held e)
  | .arena body _ => if body.ty = .unit then void F else F.word (em.held e)
  | .tryExpr .. => F.field (F.field (F.word (em.held e)) "value") "ok"
  | .arrayLit elements elemTy _ _ =>
    if elements.isEmpty then
      F.call "osc_array_new" [F.word "_arena",F.word (cSizeof elemTy),F.word "0"]
    else F.word (em.held e)
  | .structLit name fields _ => F.compound name (emitFields fields)
  | .enumConstructor enumName variant args ty _ =>
    em.constructorForm F enumName variant ty (emitExprs args)
def emitExprs : List Expr → List T
  | [] => []
  | e :: es => emit e :: emitExprs es
def emitParts : List InterpolatedStringPart → List T
  | [] => []
  | .text s :: parts => if s.isEmpty then emitParts parts else stringForm F s :: emitParts parts
  | .expr e :: parts => interpolatedPart F e.ty (emit e) :: emitParts parts
def emitFields : List FieldInit → List (String × T)
  | [] => []
  | .mk name value _ :: fields => ("." ++ name,emit value) :: emitFields fields
end

end Emitter

end Oscan.Codegen
