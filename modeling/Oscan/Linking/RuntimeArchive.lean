import Mathlib.Data.List.Basic
import Mathlib.Data.Nat.Basic
import Mathlib.Order.Basic

/-! The runtime archives: what each translation unit of the runtime defines, as the preprocessor leaves it, and
which units the archive of a mode is made of. -/
namespace Oscan.Linking

inductive NativeTarget where
  | windowsX64 | linuxX64 | linuxAarch64 | linuxRiscv64
deriving DecidableEq

inductive RuntimeMode where
  | freestanding | hosted
deriving DecidableEq

inductive FreestandingProfile where
  | full | graphics | core
deriving DecidableEq

def FreestandingProfile.buildModeStr : FreestandingProfile → String
  | .full => "freestanding"
  | .graphics => "freestanding_gfx"
  | .core => "freestanding_core"

/-- What `osc_runtime.c` defines in every configuration, without the typed array functions -/
def coreSymbols : List String :=
  ["osc_global_argc","osc_global_argv","osc_global_arena","osc_panic","osc_arena_create","osc_arena_alloc",
   "osc_arena_reset","osc_arena_destroy","osc_add_i32","osc_sub_i32","osc_mul_i32","osc_div_i32",
   "osc_mod_i32","osc_neg_i32","osc_add_i64","osc_sub_i64","osc_mul_i64","osc_div_i64","osc_mod_i64",
   "osc_neg_i64","osc_array_new","osc_array_get","osc_array_set","osc_array_push","osc_array_pop",
   "osc_array_len","osc_array_check_arena_store","osc_array_clone","osc_array_repeat","osc_array_swap",
   "osc_array_reverse","osc_array_fill","osc_array_clear","osc_array_extend","osc_array_insert",
   "osc_array_remove_at","osc_array_slice","osc_str_from_cstr","osc_str_concat","osc_str_len","osc_str_eq",
   "osc_str_to_cstr","osc_str_compare","osc_str_find","osc_str_from_i32","osc_str_slice",
   "osc_str_check_index","osc_print","osc_println","osc_print_i32","osc_print_i64","osc_print_f64",
   "osc_print_bool","osc_read_line","osc_file_open_read","osc_file_open_write","osc_read_byte",
   "osc_write_byte","osc_write_str","osc_file_close","osc_file_delete","osc_read_file","osc_write_file",
   "osc_i32_to_i64","osc_i64_to_i32","osc_i32_to_f64","osc_i64_to_f64","osc_f64_to_i32","osc_f64_to_i64",
   "osc_i32_to_str","osc_abs_i32","osc_abs_f64","osc_math_sin","osc_math_cos","osc_math_sqrt",
   "osc_math_pow","osc_math_exp","osc_math_log","osc_math_atan2","osc_math_floor","osc_math_ceil",
   "osc_math_fmod","osc_math_abs","osc_math_pi","osc_math_e","osc_math_ln2","osc_math_sqrt2",
   "osc_arg_count","osc_arg_get","osc_char_is_alpha","osc_char_is_digit","osc_char_is_alnum",
   "osc_char_is_space","osc_char_is_upper","osc_char_is_lower","osc_char_is_print","osc_char_is_xdigit",
   "osc_char_to_upper","osc_char_to_lower","osc_abs_i64","osc_min_i32","osc_max_i32","osc_clamp_i32",
   "osc_min_i64","osc_max_i64","osc_clamp_i64","osc_min_f64","osc_max_f64","osc_clamp_f64","osc_parse_i32",
   "osc_parse_i64","osc_str_from_i64","osc_str_from_f64","osc_str_from_bool","osc_env_get","osc_errno_get",
   "osc_errno_str","osc_rand_seed","osc_rand_i32","osc_time_now","osc_sleep_ms","osc_exit",
   "osc_file_rename","osc_file_exists","osc_dir_create","osc_dir_remove","osc_dir_current","osc_dir_change",
   "osc_file_open_append","osc_file_size","osc_path_join","osc_path_ext","osc_path_exists",
   "osc_path_is_dir","osc_path_basename","osc_path_dirname","osc_str_contains","osc_str_starts_with",
   "osc_str_ends_with","osc_str_trim","osc_str_split","osc_str_to_upper","osc_str_to_lower",
   "osc_str_replace","osc_str_from_chars","osc_str_to_chars","osc_str_join","osc_dir_list","osc_proc_run",
   "osc_fd_dup","osc_fd_dup2","osc_proc_spawn","osc_proc_wait","osc_pipe_create","osc_path_find_exec",
   "osc_term_width","osc_term_height","osc_term_raw","osc_term_restore","osc_read_nonblock","osc_env_count",
   "osc_env_key","osc_env_value","osc_str_from_i32_hex","osc_str_from_i64_hex","osc_sort_i64",
   "osc_sort_f64","osc_sort_str","osc_map_new","osc_map_set","osc_map_get","osc_map_has","osc_map_delete",
   "osc_map_len","osc_map_str_i32_new","osc_map_str_i32_set","osc_map_str_i32_get","osc_map_str_i32_has",
   "osc_map_str_i32_delete","osc_map_str_i32_len","osc_map_str_i64_new","osc_map_str_i64_set",
   "osc_map_str_i64_get","osc_map_str_i64_has","osc_map_str_i64_delete","osc_map_str_i64_len",
   "osc_map_str_f64_new","osc_map_str_f64_set","osc_map_str_f64_get","osc_map_str_f64_has",
   "osc_map_str_f64_delete","osc_map_str_f64_len","osc_map_i32_str_new","osc_map_i32_str_set",
   "osc_map_i32_str_get","osc_map_i32_str_has","osc_map_i32_str_delete","osc_map_i32_str_len",
   "osc_map_i32_i32_new","osc_map_i32_i32_set","osc_map_i32_i32_get","osc_map_i32_i32_has",
   "osc_map_i32_i32_delete","osc_map_i32_i32_len","osc_time_format","osc_time_utc_year",
   "osc_time_utc_month","osc_time_utc_day","osc_time_utc_hour","osc_time_utc_min","osc_time_utc_sec",
   "osc_glob_match","osc_sha256","osc_is_tty","osc_env_set","osc_env_delete","osc_sort_i32"]

def canvasSymbols : List String :=
  ["osc_canvas_open","osc_canvas_set_icon","osc_canvas_close","osc_canvas_alive","osc_canvas_flush",
   "osc_canvas_clear","osc_canvas_width","osc_canvas_height","osc_canvas_scale","osc_canvas_resized",
   "osc_gfx_pixel","osc_gfx_get_pixel","osc_gfx_line","osc_gfx_rect","osc_gfx_fill_rect","osc_gfx_circle",
   "osc_gfx_fill_circle","osc_gfx_draw_text","osc_gfx_draw_text_scaled","osc_gfx_text_width","osc_gfx_blit",
   "osc_gfx_blit_alpha","osc_canvas_key","osc_canvas_mouse_x","osc_canvas_mouse_y","osc_canvas_mouse_btn",
   "osc_canvas_wheel","osc_clipboard_set","osc_clipboard_get"]

def trueTypeSymbols : List String :=
  ["osc_tt_load","osc_tt_free","osc_tt_ascent","osc_tt_descent","osc_tt_line_gap","osc_tt_line_height",
   "osc_tt_text_width","osc_tt_draw_text"]

def socketSymbols : List String :=
  ["osc_socket_tcp","osc_socket_connect","osc_socket_bind","osc_socket_listen","osc_socket_accept",
   "osc_socket_send","osc_socket_recv","osc_socket_close","osc_socket_udp","osc_socket_sendto",
   "osc_socket_recvfrom","osc_socket_unix_connect"]

def tlsSymbols : List String :=
  ["osc_tls_connect","osc_tls_send","osc_tls_recv","osc_tls_recv_byte","osc_tls_close","osc_tls_cleanup"]

/-- The shims of `osc_native_shim.c` -/
def shimSymbols : List String :=
  ["osc_print_shim","osc_println_shim","osc_str_len_shim","osc_str_eq_shim","osc_str_compare_shim",
   "osc_str_find_shim","osc_str_contains_shim","osc_str_starts_with_shim","osc_str_ends_with_shim",
   "osc_str_check_index_shim","osc_str_concat_shim","osc_str_to_cstr_shim","osc_str_slice_shim",
   "osc_str_trim_shim","osc_str_to_upper_shim","osc_str_to_lower_shim","osc_str_replace_shim",
   "osc_str_from_i32_shim","osc_str_from_i64_shim","osc_str_from_f64_shim","osc_str_from_bool_shim",
   "osc_i32_to_str_shim","osc_str_from_i32_hex_shim","osc_str_from_i64_hex_shim","osc_parse_i32_shim",
   "osc_parse_i64_shim","osc_read_line_shim","osc_write_str_shim","osc_file_open_read_shim",
   "osc_file_open_write_shim","osc_read_file_shim","osc_write_file_shim","osc_file_exists_shim",
   "osc_path_exists_shim","osc_path_is_dir_shim","osc_dir_current_shim","osc_env_get_shim",
   "osc_errno_str_shim","osc_sha256_shim","osc_str_split_shim","osc_str_join_shim","osc_path_join_shim",
   "osc_path_basename_shim","osc_path_dirname_shim","osc_file_delete_shim","osc_file_size_shim",
   "osc_str_from_chars_shim","osc_str_to_chars_shim","osc_file_rename_shim","osc_path_ext_shim",
   "osc_dir_create_shim","osc_dir_remove_shim","osc_time_format_shim","osc_glob_match_shim",
   "osc_env_set_shim","osc_env_delete_shim","osc_arg_get_shim","osc_dir_list_shim","osc_dir_change_shim",
   "osc_file_open_append_shim","osc_proc_run_shim","osc_proc_spawn_shim","osc_path_find_exec_shim",
   "osc_term_raw_shim","osc_term_restore_shim","osc_env_key_shim","osc_env_value_shim",
   "osc_socket_tcp_shim","osc_socket_connect_shim","osc_socket_bind_shim","osc_socket_listen_shim",
   "osc_socket_accept_shim","osc_socket_send_shim","osc_socket_recv_shim","osc_socket_udp_shim",
   "osc_socket_sendto_shim","osc_socket_recvfrom_shim","osc_socket_unix_connect_shim",
   "osc_tls_connect_shim","osc_tls_send_shim","osc_tls_recv_shim","osc_gfx_draw_text_shim",
   "osc_gfx_draw_text_scaled_shim","osc_gfx_text_width_shim","osc_map_set_shim","osc_map_get_shim",
   "osc_map_has_shim","osc_map_delete_shim","osc_map_str_i32_set_shim","osc_map_str_i32_get_shim",
   "osc_map_str_i32_has_shim","osc_map_str_i32_delete_shim","osc_map_str_i64_set_shim",
   "osc_map_str_i64_get_shim","osc_map_str_i64_has_shim","osc_map_str_i64_delete_shim",
   "osc_map_str_f64_set_shim","osc_map_str_f64_get_shim","osc_map_str_f64_has_shim",
   "osc_map_str_f64_delete_shim","osc_map_i32_str_set_shim","osc_map_i32_str_get_shim",
   "osc_canvas_open_shim","osc_canvas_set_icon_shim","osc_clipboard_set_shim","osc_clipboard_get_shim",
   "osc_img_load_shim","osc_svg_load_shim","osc_tt_load_shim","osc_tt_text_width_shim",
   "osc_tt_draw_text_shim"]

def typedArraySymbols (suffix : String) : List String :=
  ["contains","index_of","last_index_of","count","compare","sort"].map fun operation =>
    "osc_array_" ++ operation ++ "_" ++ suffix

def colorSymbols : List String := ["osc_rgb","osc_rgba"]

inductive Macro where
  | oscFreestanding | hasGfx | hasImg | hasSvg | hasTt | hasSockets | externalGraphics | externalTls
deriving DecidableEq

inductive Body where
  /-- The feature itself -/
  | feature
  /-- A body that does nothing or returns the error `not supported` -/
  | stub
deriving DecidableEq

/-- A symbol that an object file defines -/
structure Definition where
  symbol : String
  body : Body
deriving DecidableEq

def define (body : Body) (symbols : List String) : List Definition := symbols.map fun symbol => ⟨symbol,body⟩

/-- A block `#ifdef feature … #elif !defined(OSC_RUNTIME_EXTERNAL_GRAPHICS) … #endif` of the graphics wrappers -/
def optional (macros : List Macro) (feature : Macro) (symbols : List String) : List Definition :=
  if feature ∈ macros then define .feature symbols
  else if .externalGraphics ∈ macros then []
  else define .stub symbols

def oscRuntimeGraphics (macros : List Macro) : List Definition :=
  optional macros .hasGfx canvasSymbols ++
  -- the stub block packs colors as the other one does
  (if .hasGfx ∉ macros ∧ .externalGraphics ∈ macros then [] else define .feature colorSymbols) ++
  optional macros .hasImg ["osc_img_load"] ++
  optional macros .hasSvg ["osc_svg_load"] ++
  optional macros .hasTt trueTypeSymbols

def oscRuntime (target : NativeTarget) (macros : List Macro) : List Definition :=
  define .feature coreSymbols ++
  define .feature (["bool","i32","i64","f64","str"].flatMap typedArraySymbols) ++
  (if .oscFreestanding ∈ macros then define .feature ["osc_freestanding_env_init"] else []) ++
  oscRuntimeGraphics macros ++
  define .feature socketSymbols ++
  (if .hasSockets ∈ macros then
    define (if target = .linuxX64 ∨ target = .windowsX64 then .feature else .stub) tlsSymbols
  else if .externalTls ∈ macros then [] else define .stub tlsSymbols)

inductive SourceFile where
  | freestanding | freestandingGfx | freestandingCore | hosted | hostedTls | hostedGfx | nativeShim
deriving DecidableEq

def SourceFile.definitions (target : NativeTarget) : SourceFile → List Definition
  | .freestanding => oscRuntime target [.oscFreestanding,.hasGfx,.hasImg,.hasSvg,.hasTt,.hasSockets]
  | .freestandingGfx => oscRuntime target [.oscFreestanding,.hasGfx,.hasSockets]
  | .freestandingCore => oscRuntime target [.oscFreestanding,.hasSockets]
  | .hosted => oscRuntime target ((if target = .windowsX64 then [.externalGraphics] else []) ++ [.externalTls])
  | .hostedTls => define .feature tlsSymbols
  | .hostedGfx => if target = .windowsX64 then oscRuntimeGraphics [.hasGfx,.hasImg,.hasSvg,.hasTt] else []
  | .nativeShim => define .feature shimSymbols

/-- An entry of `modes` of the archive contract -/
structure ArchiveMode where
  mode : String
  archiveName : String
  sources : List SourceFile

def contract : List ArchiveMode :=
  [⟨"hosted","libosc_runtime_hosted.a",[.hosted,.hostedTls,.hostedGfx,.nativeShim]⟩,
   ⟨"freestanding","libosc_runtime_freestanding.a",[.freestanding,.nativeShim]⟩,
   ⟨"freestanding_gfx","libosc_runtime_freestanding_gfx.a",[.freestandingGfx,.nativeShim]⟩,
   ⟨"freestanding_core","libosc_runtime_freestanding_core.a",[.freestandingCore,.nativeShim]⟩]

def archiveName : RuntimeMode → FreestandingProfile → String
  | .freestanding,.full => "libosc_runtime_freestanding.a"
  | .freestanding,.graphics => "libosc_runtime_freestanding_gfx.a"
  | .freestanding,.core => "libosc_runtime_freestanding_core.a"
  | .hosted,_ => "libosc_runtime_hosted.a"

/-- The symbols that the header declares for programs of a mode, with the shims for them; only freestanding
archives export the wrapper that initializes the environment table. -/
def runtimeSymbols (mode : RuntimeMode) : List String :=
  coreSymbols ++ ["bool","i32","i64","f64","str"].flatMap typedArraySymbols ++
  (if mode = .freestanding then ["osc_freestanding_env_init"] else []) ++
  canvasSymbols ++ colorSymbols ++ ["osc_img_load"] ++ ["osc_svg_load"] ++ trueTypeSymbols ++
  socketSymbols ++ tlsSymbols ++ shimSymbols

end Oscan.Linking
