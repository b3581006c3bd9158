import Oscan.Ast

/-! What a phase of the compiler rejects a program with. -/
namespace Oscan

structure CompileError where
  span : Span
  message : String
deriving DecidableEq

end Oscan
