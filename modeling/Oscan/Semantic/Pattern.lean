import Oscan.Semantic.Scope

/-! Patterns: which ones a scrutinee type admits, which variants they mark as seen,
and the names they bind. -/
namespace Oscan.Semantic.Analyzer

variable (self : Analyzer)

/-- Success carries the variants seen so far. Sub-patterns of a payload are not examined. -/
def checkPatternCompat (pat : Pattern) (scrutTy : BcType) (seenVariants : List String)
    (span : Span) : Check (List String) :=
  match pat with
  | .wildcard _ | .ident .. => return seenVariants
  | .intLit .. =>
    match scrutTy with
    | .i32 | .i64 => return seenVariants
    | _ => reject span s!"integer pattern on non-integer type {scrutTy}"
  | .floatLit .. =>
    if scrutTy != .f64 then reject span s!"float pattern on non-float type {scrutTy}"
    else return seenVariants
  | .stringLit .. =>
    if scrutTy != .str then reject span s!"string pattern on non-string type {scrutTy}"
    else return seenVariants
  | .boolLit .. =>
    if scrutTy != .bool then reject span s!"bool pattern on non-bool type {scrutTy}"
    else return seenVariants
  | .enum enumName variant bindings patSpan =>
    if enumName == "Result" then
      if variant == "Ok" || variant == "Err" then
        if bindings.length != 1 then reject patSpan s!"Result::{variant} pattern takes 1 binding"
        else return variant :: seenVariants
      else reject patSpan s!"Result has no variant '{variant}'"
    else
      match scrutTy with
      | .enum ename =>
        if enumName != ename then
          reject patSpan s!"pattern enum '{enumName}' doesn't match scrutinee enum '{ename}'"
        else
          match self.enums.lookup ename with
          | none => reject patSpan s!"undefined enum '{ename}'"
          | some info =>
            match info.variants.lookup variant with
            | none => reject patSpan s!"'{ename}' has no variant '{variant}'"
            | some payload =>
              if bindings.length != payload.length then
                reject patSpan (s!"'{ename}::{variant}' has {payload.length} fields, " ++
                  s!"got {bindings.length} bindings")
              else return variant :: seenVariants
      | _ => reject patSpan s!"enum pattern on non-enum type {scrutTy}"

/-- Only an identifier directly in a payload position is bound. -/
def bindPayload : Analyzer → List (Pattern × BcType) → Check Analyzer
  | self,[] => return self
  | self,(.ident name bspan,payloadTy) :: rest => do
    bindPayload (← self.addBinding name payloadTy false bspan) rest
  | self,_ :: rest => bindPayload self rest

def bindPatternVars (pat : Pattern) (scrutTy : BcType) (span : Span) : Check Analyzer :=
  match pat with
  | .wildcard _ | .intLit .. | .floatLit .. | .stringLit .. | .boolLit .. => return self
  | .ident name ispan => self.addBinding name scrutTy false ispan
  | .enum enumName variant bindings _ =>
    if enumName == "Result" then
      match scrutTy with
      | .result okTy errTy =>
        if variant == "Ok" then self.bindPayload ((bindings.take 1).map (·,okTy))
        else if variant == "Err" then self.bindPayload ((bindings.take 1).map (·,errTy))
        else reject span s!"Result has no variant '{variant}'"
      | _ => reject span "Result pattern on non-Result type"
    else
      match scrutTy with
      | .enum ename =>
        match (self.enums.lookup ename).bind fun info => info.variants.lookup variant with
        | some payload => self.bindPayload (bindings.zip payload)
        | none => return self
      | _ => return self

def isCatchAll : Pattern → Bool
  | .wildcard _ | .ident .. => true
  | _ => false

/-- The variants of an enum scrutinee that no arm names; `checkMatch` asks for none. -/
def missingVariants (info : EnumInfo) (seenVariants : List String) : List String :=
  (info.variants.map (·.1)).filter fun variant => !seenVariants.contains variant

def checkExhaustive (scrutTy : BcType) (hasWildcard : Bool) (seenVariants : List String)
    (span : Span) : Check Unit :=
  match scrutTy with
  | .enum name =>
    if hasWildcard then return ()
    else
      let missing := ((self.enums.lookup name).map fun info =>
        missingVariants info seenVariants).getD []
      if missing.isEmpty then return ()
      else
        let names := ", ".intercalate missing
        reject span s!"non-exhaustive match on '{name}', missing: {names}"
  | .result .. =>
    if hasWildcard || (seenVariants.contains "Ok" && seenVariants.contains "Err") then return ()
    else reject span "non-exhaustive match on Result: need both Ok and Err"
  | _ => return ()

end Oscan.Semantic.Analyzer
