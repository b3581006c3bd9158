import Oscan.Types

/-! The functions the checker knows before it reads a declaration. `len`, `push` and
`pop` are not among them: `checkCall` treats these three by name. -/
namespace Oscan

private def builtin (params : List (String × BcType)) (ret : BcType) (isPure : Bool) : FunctionInfo :=
  ⟨params,ret,isPure,false⟩

def registerBuiltins : List (String × FunctionInfo) :=
  [("print",builtin [("s",.str)] .unit false),
   ("println",builtin [("s",.str)] .unit false),
   ("print_i32",builtin [("n",.i32)] .unit false),
   ("print_i64",builtin [("n",.i64)] .unit false),
   ("print_f64",builtin [("n",.f64)] .unit false),
   ("print_bool",builtin [("b",.bool)] .unit false),
   ("read_line",builtin [] (.result .str .str) false),
   ("str_len",builtin [("s",.str)] .i32 true),
   ("str_eq",builtin [("a",.str),("b",.str)] .bool true),
   ("str_concat",builtin [("a",.str),("b",.str)] .str false),
   ("str_to_cstr",builtin [("s",.str)] .str false),
   ("str_find",builtin [("haystack",.str),("needle",.str)] .i32 true),
   ("str_from_i32",builtin [("n",.i32)] .str false),
   ("str_slice",builtin [("s",.str),("start",.i32),("end",.i32)] .str false),
   ("abs_i32",builtin [("n",.i32)] .i32 true),
   ("abs_f64",builtin [("n",.f64)] .f64 true),
   ("mod_i32",builtin [("a",.i32),("b",.i32)] .i32 true),
   ("math_sin",builtin [("x",.f64)] .f64 true),
   ("math_cos",builtin [("x",.f64)] .f64 true),
   ("math_sqrt",builtin [("x",.f64)] .f64 true),
   ("math_pow",builtin [("base",.f64),("exp",.f64)] .f64 true),
   ("math_exp",builtin [("x",.f64)] .f64 true),
   ("math_log",builtin [("x",.f64)] .f64 true),
   ("math_atan2",builtin [("y",.f64),("x",.f64)] .f64 true),
   ("math_floor",builtin [("x",.f64)] .f64 true),
   ("math_ceil",builtin [("x",.f64)] .f64 true),
   ("math_fmod",builtin [("x",.f64),("y",.f64)] .f64 true),
   ("math_abs",builtin [("x",.f64)] .f64 true),
   ("math_pi",builtin [] .f64 true),
   ("math_e",builtin [] .f64 true),
   ("math_ln2",builtin [] .f64 true),
   ("math_sqrt2",builtin [] .f64 true),
   ("band",builtin [("a",.i32),("b",.i32)] .i32 true),
   ("bor",builtin [("a",.i32),("b",.i32)] .i32 true),
   ("bxor",builtin [("a",.i32),("b",.i32)] .i32 true),
   ("bshl",builtin [("a",.i32),("n",.i32)] .i32 true),
   ("bshr",builtin [("a",.i32),("n",.i32)] .i32 true),
   ("bnot",builtin [("a",.i32)] .i32 true),
   ("i32_to_str",builtin [("n",.i32)] .str false),
   ("file_open_read",builtin [("path",.str)] (.result .i32 .str) false),
   ("file_open_write",builtin [("path",.str)] (.result .i32 .str) false),
   ("read_byte",builtin [("fd",.i32)] .i32 false),
   ("write_byte",builtin [("fd",.i32),("b",.i32)] .unit false),
   ("write_str",builtin [("fd",.i32),("s",.str)] .unit false),
   ("file_close",builtin [("fd",.i32)] .unit false),
   ("file_delete",builtin [("path",.str)] (.result .str .str) false),
   ("socket_tcp",builtin [] (.result .i32 .str) false),
   ("socket_connect",builtin [("sock",.i32),("addr",.str),("port",.i32)] (.result .str .str) false),
   ("socket_bind",builtin [("sock",.i32),("addr",.str),("port",.i32)] (.result .str .str) false),
   ("socket_listen",builtin [("sock",.i32),("backlog",.i32)] (.result .str .str) false),
   ("socket_accept",builtin [("sock",.i32)] (.result .i32 .str) false),
   ("socket_send",builtin [("sock",.i32),("data",.str)] (.result .i32 .str) false),
   ("socket_recv",builtin [("sock",.i32),("max_len",.i32)] .str false),
   ("socket_close",builtin [("sock",.i32)] .unit false),
   ("socket_udp",builtin [] (.result .i32 .str) false),
   ("socket_sendto",builtin [("sock",.i32),("data",.str),("addr",.str),("port",.i32)] .i32 false),
   ("socket_recvfrom",builtin [("sock",.i32),("max_len",.i32)] .str false),
   ("socket_unix_connect",builtin [("path",.str)] (.result .i32 .str) false),
   ("tls_connect",builtin [("host",.str),("port",.i32)] (.result .i32 .str) false),
   ("tls_send",builtin [("handle",.i32),("data",.str)] (.result .i32 .str) false),
   ("tls_recv",builtin [("handle",.i32),("max_len",.i32)] .str false),
   ("tls_recv_byte",builtin [("handle",.i32)] .i32 false),
   ("tls_close",builtin [("handle",.i32)] .unit false),
   ("tls_cleanup",builtin [] .unit false),
   ("arg_count",builtin [] .i32 false),
   ("arg_get",builtin [("i",.i32)] .str false),
   ("char_is_alpha",builtin [("c",.i32)] .bool true),
   ("char_is_digit",builtin [("c",.i32)] .bool true),
   ("char_is_alnum",builtin [("c",.i32)] .bool true),
   ("char_is_space",builtin [("c",.i32)] .bool true),
   ("char_is_upper",builtin [("c",.i32)] .bool true),
   ("char_is_lower",builtin [("c",.i32)] .bool true),
   ("char_is_print",builtin [("c",.i32)] .bool true),
   ("char_is_xdigit",builtin [("c",.i32)] .bool true),
   ("char_to_upper",builtin [("c",.i32)] .i32 true),
   ("char_to_lower",builtin [("c",.i32)] .i32 true),
   ("abs_i64",builtin [("n",.i64)] .i64 true),
   ("parse_i32",builtin [("s",.str)] (.result .i32 .str) true),
   ("parse_i64",builtin [("s",.str)] (.result .i64 .str) true),
   ("str_from_i64",builtin [("n",.i64)] .str false),
   ("str_from_f64",builtin [("n",.f64)] .str false),
   ("str_from_bool",builtin [("b",.bool)] .str true),
   ("rand_seed",builtin [("seed",.i32)] .unit false),
   ("rand_i32",builtin [] .i32 false),
   ("time_now",builtin [] .i64 false),
   ("sleep_ms",builtin [("ms",.i32)] .unit false),
   ("exit",builtin [("code",.i32)] .unit false),
   ("env_get",builtin [("name",.str)] (.result .str .str) false),
   ("errno_get",builtin [] .i32 false),
   ("errno_str",builtin [("code",.i32)] .str false),
   ("file_rename",builtin [("old",.str),("new_path",.str)] (.result .str .str) false),
   ("file_exists",builtin [("path",.str)] .bool false),
   ("dir_create",builtin [("path",.str)] (.result .str .str) false),
   ("dir_remove",builtin [("path",.str)] (.result .str .str) false),
   ("dir_current",builtin [] .str false),
   ("dir_change",builtin [("path",.str)] (.result .str .str) false),
   ("file_open_append",builtin [("path",.str)] (.result .i32 .str) false),
   ("file_size",builtin [("path",.str)] .i64 false),
   ("path_join",builtin [("dir",.str),("file",.str)] .str false),
   ("path_ext",builtin [("path",.str)] .str true),
   ("path_exists",builtin [("path",.str)] .bool false),
   ("path_is_dir",builtin [("path",.str)] .bool false),
   ("str_contains",builtin [("s",.str),("sub",.str)] .bool true),
   ("str_starts_with",builtin [("s",.str),("prefix",.str)] .bool true),
   ("str_ends_with",builtin [("s",.str),("suffix",.str)] .bool true),
   ("str_trim",builtin [("s",.str)] .str false),
   ("str_split",builtin [("s",.str),("delim",.str)] (.array .str) false),
   ("str_to_upper",builtin [("s",.str)] .str false),
   ("str_to_lower",builtin [("s",.str)] .str false),
   ("str_replace",builtin [("s",.str),("old",.str),("new_s",.str)] .str false),
   ("str_compare",builtin [("a",.str),("b",.str)] .i32 true),
   ("dir_list",builtin [("path",.str)] (.array .str) false),
   ("proc_run",builtin [("cmd",.str),("args",.array .str)] .i32 false),
   ("fd_dup",builtin [("fd",.i32)] .i32 false),
   ("fd_dup2",builtin [("oldfd",.i32),("newfd",.i32)] .i32 false),
   ("proc_spawn",builtin [("cmd",.str),("args",.array .str)] .i32 false),
   ("proc_wait",builtin [("pid",.i32)] .i32 false),
   ("pipe_create",builtin [] (.array .i32) false),
   ("path_find_exec",builtin [("name",.str)] (.result .str .str) false),
   ("term_width",builtin [] .i32 false),
   ("term_height",builtin [] .i32 false),
   ("term_raw",builtin [] (.result .str .str) false),
   ("term_restore",builtin [] (.result .str .str) false),
   ("read_nonblock",builtin [] .i32 false),
   ("env_count",builtin [] .i32 false),
   ("env_key",builtin [("i",.i32)] .str false),
   ("env_value",builtin [("i",.i32)] .str false),
   ("str_from_i32_hex",builtin [("n",.i32)] .str false),
   ("str_from_i64_hex",builtin [("n",.i64)] .str false),
   ("sort_i32",builtin [("arr",.array .i32)] .unit false),
   ("sort_i64",builtin [("arr",.array .i64)] .unit false),
   ("sort_str",builtin [("arr",.array .str)] .unit false),
   ("sort_f64",builtin [("arr",.array .f64)] .unit false),
   ("str_from_chars",builtin [("arr",.array .i32)] .str false),
   ("str_to_chars",builtin [("s",.str)] (.array .i32) false),
   ("time_format",builtin [("timestamp",.i64),("fmt",.str)] .str false),
   ("time_utc_year",builtin [("timestamp",.i64)] .i32 false),
   ("time_utc_month",builtin [("timestamp",.i64)] .i32 false),
   ("time_utc_day",builtin [("timestamp",.i64)] .i32 false),
   ("time_utc_hour",builtin [("timestamp",.i64)] .i32 false),
   ("time_utc_min",builtin [("timestamp",.i64)] .i32 false),
   ("time_utc_sec",builtin [("timestamp",.i64)] .i32 false),
   ("glob_match",builtin [("pattern",.str),("text",.str)] .bool true),
   ("sha256",builtin [("data",.str)] .str false),
   ("is_tty",builtin [] .bool true),
   ("env_set",builtin [("name",.str),("value",.str)] (.result .str .str) false),
   ("env_delete",builtin [("name",.str)] (.result .str .str) false),
   ("canvas_open",builtin [("width",.i32),("height",.i32),("title",.str)] (.result .str .str) false),
   ("canvas_close",builtin [] .unit false),
   ("canvas_alive",builtin [] .bool false),
   ("canvas_flush",builtin [] .unit false),
   ("canvas_clear",builtin [("color",.i32)] .unit false),
   ("canvas_width",builtin [] .i32 false),
   ("canvas_height",builtin [] .i32 false),
   ("canvas_scale",builtin [] .i32 false),
   ("canvas_resized",builtin [] .bool false),
   ("canvas_set_icon",builtin [("pixels",.array .i32),("w",.i32),("h",.i32)] (.result .str .str) false),
   ("gfx_pixel",builtin [("x",.i32),("y",.i32),("color",.i32)] .unit false),
   ("gfx_get_pixel",builtin [("x",.i32),("y",.i32)] .i32 false),
   ("gfx_line",builtin [("x0",.i32),("y0",.i32),("x1",.i32),("y1",.i32),("color",.i32)] .unit false),
   ("gfx_rect",builtin [("x",.i32),("y",.i32),("w",.i32),("h",.i32),("color",.i32)] .unit false),
   ("gfx_fill_rect",builtin [("x",.i32),("y",.i32),("w",.i32),("h",.i32),("color",.i32)] .unit false),
   ("gfx_circle",builtin [("cx",.i32),("cy",.i32),("r",.i32),("color",.i32)] .unit false),
   ("gfx_fill_circle",builtin [("cx",.i32),("cy",.i32),("r",.i32),("color",.i32)] .unit false),
   ("gfx_draw_text",builtin [("x",.i32),("y",.i32),("text",.str),("color",.i32),("font",.i32)] .i32 false),
   ("gfx_draw_text_scaled",builtin [("x",.i32),("y",.i32),("text",.str),("color",.i32),("sx",.i32),("sy",.i32),("font",.i32)] .i32 false),
   ("gfx_text_width",builtin [("text",.str),("font",.i32)] .i32 true),
   ("gfx_blit",builtin [("dx",.i32),("dy",.i32),("w",.i32),("h",.i32),("pixels",.array .i32)] .unit false),
   ("gfx_blit_alpha",builtin [("dx",.i32),("dy",.i32),("w",.i32),("h",.i32),("pixels",.array .i32)] .unit false),
   ("canvas_key",builtin [] .i32 false),
   ("canvas_mouse_x",builtin [] .i32 false),
   ("canvas_mouse_y",builtin [] .i32 false),
   ("canvas_mouse_btn",builtin [] .i32 false),
   ("canvas_wheel",builtin [] .i32 false),
   ("clipboard_set",builtin [("text",.str)] .i32 false),
   ("clipboard_get",builtin [] (.result .str .str) false),
   ("rgb",builtin [("r",.i32),("g",.i32),("b",.i32)] .i32 true),
   ("rgba",builtin [("r",.i32),("g",.i32),("b",.i32),("a",.i32)] .i32 true),
   ("img_load",builtin [("data",.str)] (.result (.array .i32) .str) false),
   ("svg_load",builtin [("data",.str),("width",.i32),("height",.i32)] (.result (.array .i32) .str) false),
   ("tt_load",builtin [("data",.str)] (.result .handle .str) false),
   ("tt_free",builtin [("font",.handle)] .unit false),
   ("tt_ascent",builtin [("font",.handle),("pixel_height",.f64)] .i32 false),
   ("tt_descent",builtin [("font",.handle),("pixel_height",.f64)] .i32 false),
   ("tt_line_gap",builtin [("font",.handle),("pixel_height",.f64)] .i32 false),
   ("tt_line_height",builtin [("font",.handle),("pixel_height",.f64)] .i32 false),
   ("tt_text_width",builtin [("font",.handle),("text",.str),("pixel_height",.f64)] .i32 false),
   ("tt_draw_text",builtin [("x",.i32),("y",.i32),("text",.str),("font",.handle),("pixel_height",.f64),("color",.i32)] .i32 false),
   ("map_new",builtin [] .map false),
   ("map_set",builtin [("m",.map),("key",.str),("value",.str)] .unit false),
   ("map_get",builtin [("m",.map),("key",.str)] .str false),
   ("map_has",builtin [("m",.map),("key",.str)] .bool true),
   ("map_delete",builtin [("m",.map),("key",.str)] .unit false),
   ("map_len",builtin [("m",.map)] .i32 true),
   ("map_str_i32_new",builtin [] .mapStrI32 false),
   ("map_str_i32_set",builtin [("m",.mapStrI32),("key",.str),("value",.i32)] .unit false),
   ("map_str_i32_get",builtin [("m",.mapStrI32),("key",.str)] .i32 false),
   ("map_str_i32_has",builtin [("m",.mapStrI32),("key",.str)] .bool true),
   ("map_str_i32_delete",builtin [("m",.mapStrI32),("key",.str)] .unit false),
   ("map_str_i32_len",builtin [("m",.mapStrI32)] .i32 true),
   ("map_str_i64_new",builtin [] .mapStrI64 false),
   ("map_str_i64_set",builtin [("m",.mapStrI64),("key",.str),("value",.i64)] .unit false),
   ("map_str_i64_get",builtin [("m",.mapStrI64),("key",.str)] .i64 false),
   ("map_str_i64_has",builtin [("m",.mapStrI64),("key",.str)] .bool true),
   ("map_str_i64_delete",builtin [("m",.mapStrI64),("key",.str)] .unit false),
   ("map_str_i64_len",builtin [("m",.mapStrI64)] .i32 true),
   ("map_str_f64_new",builtin [] .mapStrF64 false),
   ("map_str_f64_set",builtin [("m",.mapStrF64),("key",.str),("value",.f64)] .unit false),
   ("map_str_f64_get",builtin [("m",.mapStrF64),("key",.str)] .f64 false),
   ("map_str_f64_has",builtin [("m",.mapStrF64),("key",.str)] .bool true),
   ("map_str_f64_delete",builtin [("m",.mapStrF64),("key",.str)] .unit false),
   ("map_str_f64_len",builtin [("m",.mapStrF64)] .i32 true),
   ("map_i32_str_new",builtin [] .mapI32Str false),
   ("map_i32_str_set",builtin [("m",.mapI32Str),("key",.i32),("value",.str)] .unit false),
   ("map_i32_str_get",builtin [("m",.mapI32Str),("key",.i32)] .str false),
   ("map_i32_str_has",builtin [("m",.mapI32Str),("key",.i32)] .bool false),
   ("map_i32_str_delete",builtin [("m",.mapI32Str),("key",.i32)] .unit false),
   ("map_i32_str_len",builtin [("m",.mapI32Str)] .i32 true),
   ("map_i32_i32_new",builtin [] .mapI32I32 false),
   ("map_i32_i32_set",builtin [("m",.mapI32I32),("key",.i32),("value",.i32)] .unit false),
   ("map_i32_i32_get",builtin [("m",.mapI32I32),("key",.i32)] .i32 false),
   ("map_i32_i32_has",builtin [("m",.mapI32I32),("key",.i32)] .bool false),
   ("map_i32_i32_delete",builtin [("m",.mapI32I32),("key",.i32)] .unit false),
   ("map_i32_i32_len",builtin [("m",.mapI32I32)] .i32 true),
   ("read_file",builtin [("path",.str)] (.result .str .str) false),
   ("write_file",builtin [("path",.str),("data",.str)] (.result .str .str) false),
   ("min_i32",builtin [("a",.i32),("b",.i32)] .i32 true),
   ("max_i32",builtin [("a",.i32),("b",.i32)] .i32 true),
   ("clamp_i32",builtin [("v",.i32),("lo",.i32),("hi",.i32)] .i32 true),
   ("min_i64",builtin [("a",.i64),("b",.i64)] .i64 true),
   ("max_i64",builtin [("a",.i64),("b",.i64)] .i64 true),
   ("clamp_i64",builtin [("v",.i64),("lo",.i64),("hi",.i64)] .i64 true),
   ("min_f64",builtin [("a",.f64),("b",.f64)] .f64 true),
   ("max_f64",builtin [("a",.f64),("b",.f64)] .f64 true),
   ("clamp_f64",builtin [("v",.f64),("lo",.f64),("hi",.f64)] .f64 true),
   ("str_join",builtin [("arr",.array .str),("sep",.str)] .str false),
   ("path_basename",builtin [("path",.str)] .str true),
   ("path_dirname",builtin [("path",.str)] .str false)]

end Oscan
