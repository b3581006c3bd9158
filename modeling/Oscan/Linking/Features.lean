import Mathlib.Order.Lattice
import Oscan.Linking.Sufficient

/-! The inputs of a link and what the archives hold for the symbols that they leave undefined. -/
namespace Oscan.Linking

section Order

def FreestandingProfile.rank : FreestandingProfile → Nat
  | .core => 0
  | .graphics => 1
  | .full => 2

theorem FreestandingProfile.rank_injective : Function.Injective FreestandingProfile.rank := by
  intro left right same
  cases left <;> cases right <;> first | rfl | cases same

instance : LinearOrder FreestandingProfile := LinearOrder.lift' _ FreestandingProfile.rank_injective

/-- The least profile whose archive has the feature behind a symbol -/
def neededProfile (symbol : String) : FreestandingProfile :=
  if startsWithAny fullPrefixes symbol then .full
  else if startsWithAny graphicsPrefixes symbol then .graphics
  else .core

theorem core_le (profile : FreestandingProfile) : .core ≤ profile := Nat.zero_le profile.rank

theorem le_full (profile : FreestandingProfile) : profile ≤ .full := by
  change profile.rank ≤ 2
  cases profile <;> decide

/-- The scan computes the join of what the names need; the loop is never entered with the full profile. -/
theorem scanSymbols_le (names : List String) (profile bound : FreestandingProfile) (below : profile ≠ .full) :
    scanSymbols profile names ≤ bound ↔ profile ≤ bound ∧ ∀ name ∈ names, neededProfile name ≤ bound := by
  induction names generalizing profile with
  | nil => simp only [scanSymbols,List.not_mem_nil,false_implies,implies_true,and_true]
  | cons name names hypothesis =>
    simp only [scanSymbols,List.forall_mem_cons,neededProfile]
    split
    · constructor
      · intro full
        have top (other : FreestandingProfile) : other ≤ bound := (le_full other).trans full
        exact ⟨top _,top _,fun _ _ => top _⟩
      · exact fun all => all.2.1
    split
    · rw [hypothesis .graphics (by decide)]
      constructor
      · intro ⟨drawn,rest⟩
        refine ⟨?_,drawn,rest⟩
        cases profile with
        | full => exact absurd rfl below
        | graphics => exact drawn
        | core => exact core_le bound
      · exact fun all => ⟨all.2.1,all.2.2⟩
    · rw [hypothesis profile below]
      exact ⟨fun ⟨first,rest⟩ => ⟨first,core_le bound,rest⟩,fun ⟨first,_,rest⟩ => ⟨first,rest⟩⟩

theorem profileForUndefinedSymbols_le (names : List String) (bound : FreestandingProfile) :
    profileForUndefinedSymbols names ≤ bound ↔ ∀ name ∈ names, neededProfile name ≤ bound := by
  rw [profileForUndefinedSymbols,scanSymbols_le names .core bound (by decide)]
  exact and_iff_right (core_le bound)

theorem needed_le (names : List String) {name : String} (member : name ∈ names) :
    neededProfile name ≤ profileForUndefinedSymbols names :=
  (profileForUndefinedSymbols_le names _).mp (le_refl _) name member

end Order

section Inputs
variable (host : Host)

def fileObjects (path : String) : List Bytes :=
  match host.readFile path with
  | .error _ => []
  | .ok bytes => [bytes]

def libraryObjects (library : String) : List Bytes :=
  if isSystemLibraryName library then host.members (host.systemLibrary library)
  else (fileObjects host library).flatMap host.members

/-- The objects that a user brings into a link -/
def extraObjects (options : LinkOptions) : List Bytes :=
  options.extraCFiles.map host.compileC ++ options.extraObjects.flatMap (fileObjects host) ++
    options.extraLibs.flatMap (libraryObjects host)

def linkInputs (program : Bytes) (options : LinkOptions) : List Bytes := program :: extraObjects host options

end Inputs

/-- A compiler with all its assets, whose object files hold no symbol that can be read -/
def plainHost : Host where
  readFile _ := .ok []
  parseObject _ := .ok []
  members _ := []
  systemLibrary _ := []
  compileC _ := []
  runtimeArchive _ := .ok true
  refuseIfStrict _ _ := .ok ()
  assetsTarget := "windows-x86_64"
  assets := ["freestanding","freestanding_gfx","freestanding_core"]

def oneExtraObject : LinkOptions := ⟨.freestanding,[],[],["picture.o"],[]⟩

theorem imgLoad_known : "osc_img_load" ∈ runtimeSymbols .freestanding := by
  simp only [runtimeSymbols,List.mem_append,List.mem_singleton,true_or,or_true]

section Features

theorem stub_define (body : Body) (symbols : List String) (symbol : String) :
    ⟨symbol,.stub⟩ ∈ define body symbols ↔ body = .stub ∧ symbol ∈ symbols := by
  simp only [define,List.mem_map,Definition.mk.injEq]
  constructor
  · rintro ⟨_,member,same,empty⟩
    exact ⟨empty,same ▸ member⟩
  · rintro ⟨empty,member⟩
    exact ⟨symbol,member,rfl,empty⟩

theorem stub_feature (symbols : List String) (symbol : String) : ⟨symbol,.stub⟩ ∉ define .feature symbols := by
  rw [stub_define]
  exact fun stub => absurd stub.1 (by decide)

theorem stub_optional (macros : List Macro) (here : .externalGraphics ∉ macros) (feature : Macro)
    (symbols : List String) (symbol : String) :
    ⟨symbol,.stub⟩ ∈ optional macros feature symbols ↔ feature ∉ macros ∧ symbol ∈ symbols := by
  simp only [optional,if_neg here]
  split
  · next on => simp only [stub_feature,on,not_true_eq_false,false_and]
  · next off => simp only [stub_define,off,not_false_eq_true,true_and]

theorem needed_canvas : ∀ symbol ∈ canvasSymbols, neededProfile symbol = .graphics := by decide +kernel

theorem needed_color : ∀ symbol ∈ colorSymbols, neededProfile symbol = .core := by decide +kernel

def decoderSymbols : List String := ["osc_img_load"] ++ ["osc_svg_load"] ++ trueTypeSymbols

theorem needed_decoder : ∀ symbol ∈ decoderSymbols, neededProfile symbol = .full := by decide +kernel

theorem tls_undrawn : ∀ symbol ∈ tlsSymbols, symbol ∉ graphicsSymbols := by decide +kernel

theorem graphicsSymbols_cases {symbol : String} (drawn : symbol ∈ graphicsSymbols) :
    symbol ∈ canvasSymbols ∨ symbol ∈ colorSymbols ∨ symbol ∈ decoderSymbols := by
  simp only [graphicsSymbols,List.mem_append] at drawn
  simp only [decoderSymbols,List.mem_append]
  tauto

/-- The stubs of the graphics wrappers are those of the features that the macros leave out. -/
theorem stub_graphics (macros : List Macro) (here : .externalGraphics ∉ macros) (symbol : String) :
    ⟨symbol,.stub⟩ ∈ oscRuntimeGraphics macros ↔
      (.hasGfx ∉ macros ∧ symbol ∈ canvasSymbols) ∨ (.hasImg ∉ macros ∧ symbol ∈ ["osc_img_load"]) ∨
        (.hasSvg ∉ macros ∧ symbol ∈ ["osc_svg_load"]) ∨ (.hasTt ∉ macros ∧ symbol ∈ trueTypeSymbols) := by
  have colored : ¬(.hasGfx ∉ macros ∧ .externalGraphics ∈ macros) := fun both => here both.2
  simp only [oscRuntimeGraphics,List.mem_append,stub_optional macros here,if_neg colored,stub_feature,or_false]
  tauto

theorem stub_runtime (target : NativeTarget) (macros : List Macro) {symbol : String}
    (drawn : symbol ∈ graphicsSymbols) :
    ⟨symbol,.stub⟩ ∈ oscRuntime target macros ↔ ⟨symbol,.stub⟩ ∈ oscRuntimeGraphics macros := by
  have open' (body : Body) : ⟨symbol,.stub⟩ ∉ define body tlsSymbols := by
    rw [stub_define]
    exact fun stub => tls_undrawn symbol stub.2 drawn
  have wrapper : ⟨symbol,.stub⟩ ∉
      (if Macro.oscFreestanding ∈ macros then define .feature ["osc_freestanding_env_init"] else []) := by
    split
    · exact stub_feature _ _
    · exact List.not_mem_nil
  have secure : ⟨symbol,.stub⟩ ∉
      (if Macro.hasSockets ∈ macros then
        define (if target = .linuxX64 ∨ target = .windowsX64 then .feature else .stub) tlsSymbols
      else if .externalTls ∈ macros then [] else define .stub tlsSymbols) := by
    split
    · exact open' _
    split
    · exact List.not_mem_nil
    · exact open' _
  simp only [oscRuntime,List.mem_append,stub_feature,wrapper,secure,false_or,or_false]

theorem canvas_iff {symbol : String} (drawn : symbol ∈ graphicsSymbols) :
    symbol ∈ canvasSymbols ↔ neededProfile symbol = .graphics := by
  refine ⟨needed_canvas symbol,fun needed => ?_⟩
  rcases graphicsSymbols_cases drawn with canvas | color | decoder
  · exact canvas
  · exact absurd ((needed_color symbol color).symm.trans needed) (by decide)
  · exact absurd ((needed_decoder symbol decoder).symm.trans needed) (by decide)

theorem decoder_iff {symbol : String} (drawn : symbol ∈ graphicsSymbols) :
    symbol ∈ decoderSymbols ↔ neededProfile symbol = .full := by
  refine ⟨needed_decoder symbol,fun needed => ?_⟩
  rcases graphicsSymbols_cases drawn with canvas | color | decoder
  · exact absurd ((needed_canvas symbol canvas).symm.trans needed) (by decide)
  · exact absurd ((needed_color symbol color).symm.trans needed) (by decide)
  · exact decoder

theorem stub_profile (profile : FreestandingProfile) {symbol : String} (drawn : symbol ∈ graphicsSymbols) :
    ⟨symbol,.stub⟩ ∈ oscRuntimeGraphics (profileMacros profile) ↔ ¬neededProfile symbol ≤ profile := by
  have decoders : symbol ∈ ["osc_img_load"] ∨ symbol ∈ ["osc_svg_load"] ∨ symbol ∈ trueTypeSymbols ↔
      neededProfile symbol = .full := by
    rw [← decoder_iff drawn]
    simp only [decoderSymbols,List.mem_append,or_assoc]
  have canvas := canvas_iff drawn
  rw [stub_graphics _ (by cases profile <;> decide),canvas]
  cases profile with
  | full => simp only [profileMacros,List.mem_cons,reduceCtorEq,true_or,or_true,not_true_eq_false,false_and,
      or_self,le_full]
  | graphics =>
    simp only [profileMacros,List.mem_cons,reduceCtorEq,or_true,not_true_eq_false,false_and,false_or,
      List.not_mem_nil,or_false,not_false_eq_true,true_and]
    simp only [List.mem_cons,List.not_mem_nil,or_false] at decoders
    rw [decoders]
    generalize neededProfile symbol = needed
    cases needed <;> decide
  | core =>
    simp only [profileMacros,List.mem_cons,reduceCtorEq,List.not_mem_nil,or_self,or_false,not_false_eq_true,
      true_and]
    simp only [List.mem_cons,List.not_mem_nil,or_false] at decoders
    rw [decoders]
    generalize neededProfile symbol = needed
    cases needed <;> decide

theorem archiveSources_unit (target : NativeTarget) (profile : FreestandingProfile) (d : Definition) :
    d ∈ modeDefinitions target profile.buildModeStr ↔
      d ∈ oscRuntime target (profileMacros profile) ∨ d ∈ SourceFile.nativeShim.definitions target := by
  rw [modeDefinitions_eq]
  cases profile <;>
    simp only [archiveSources,List.flatMap_cons,List.flatMap_nil,List.append_nil,List.mem_append] <;> rfl

/-- The archive of a profile has a stub for a symbol exactly when the profile is below the one the symbol needs. -/
theorem stub_iff (target : NativeTarget) (profile : FreestandingProfile) {symbol : String}
    (drawn : symbol ∈ graphicsSymbols) :
    ⟨symbol,.stub⟩ ∈ modeDefinitions target profile.buildModeStr ↔ ¬neededProfile symbol ≤ profile := by
  have unshimmed : ⟨symbol,.stub⟩ ∉ SourceFile.nativeShim.definitions target := stub_feature _ _
  rw [archiveSources_unit,stub_runtime target _ drawn,stub_profile profile drawn]
  exact or_iff_left unshimmed

variable (host : Host) (undefinedSymbols : Bytes → List String)
  (scanned : ∀ bytes symbols, host.parseObject bytes = .ok symbols → undefinedNames symbols = undefinedSymbols bytes)

include scanned

theorem freestandingProfile_needed (objectPath : String) {program : Bytes}
    (found : host.readFile objectPath = .ok program) {symbol : String} (missing : symbol ∈ undefinedSymbols program) :
    neededProfile symbol ≤ freestandingProfile host objectPath := by
  simp only [freestandingProfile,found]
  split
  · exact le_full _
  · next symbols parsed =>
    exact needed_le _ (scanned program symbols parsed ▸ missing)

/-- An input that is not scanned selects the full profile. -/
theorem linkProfile_needed (objectPath : String) {program : Bytes}
    (found : host.readFile objectPath = .ok program) (options : LinkOptions) {input : Bytes}
    (member : input ∈ linkInputs host program options) {symbol : String} (missing : symbol ∈ undefinedSymbols input) :
    neededProfile symbol ≤ linkProfile host objectPath options := by
  unfold linkProfile
  split
  · next alone =>
    obtain ⟨_,sources,objects,libraries⟩ := alone
    have only : linkInputs host program options = [program] := by
      simp only [linkInputs,extraObjects,List.isEmpty_iff.mp sources,List.isEmpty_iff.mp objects,
        List.isEmpty_iff.mp libraries,List.map_nil,List.flatMap_nil,List.append_nil]
    rw [only,List.mem_singleton] at member
    exact freestandingProfile_needed host undefinedSymbols scanned objectPath found (member ▸ missing)
  · exact le_full _

/-- A freestanding link through a linker process takes no feature that an input uses from a stub. -/
theorem linkExecutable_features (target : NativeTarget) (objectPath : String) (program : Bytes)
    (found : host.readFile objectPath = .ok program) (options : LinkOptions)
    (freestanding : options.runtimeMode = .freestanding) {definitions : List Definition}
    (linked : linkExecutable host target objectPath options = .ok definitions) :
    ∀ input ∈ linkInputs host program options, ∀ symbol ∈ undefinedSymbols input, symbol ∈ graphicsSymbols →
      ⟨symbol,.stub⟩ ∉ definitions := by
  intro input member symbol missing drawn
  have needed := linkProfile_needed host undefinedSymbols scanned objectPath found options member missing
  simp only [linkExecutable,freestanding] at linked
  split at linked
  · cases linked
  · next containsShim _ =>
    cases containsShim with
    | false => cases linked
    | true =>
      have whole : modeDefinitions target (linkProfile host objectPath options).buildModeStr = definitions := by
        rw [modeDefinitions_eq,← Except.ok.inj linked,archiveDefinitions_eq]
        simp only [Bool.true_or,List.filter_true]
      rw [← whole,stub_iff target _ drawn,not_not]
      exact needed

/-- A link inside the compiler takes a feature from a stub when the program's own object needs a lower profile. -/
theorem linkInprocess_features_iff (target : NativeTarget) (program : Bytes) (options : LinkOptions)
    {definitions : List Definition} (linked : linkInprocess host target program options = .ok definitions)
    {symbol : String} (drawn : symbol ∈ graphicsSymbols) :
    ⟨symbol,.stub⟩ ∉ definitions ↔
      neededProfile symbol ≤ profileForUndefinedSymbols (undefinedSymbols program) := by
  obtain ⟨_,profile,chosen,same⟩ := linkInprocess_definitions host target program options linked
  have joined : profile = profileForUndefinedSymbols (undefinedSymbols program) := by
    unfold freestandingProfileFromBytes at chosen
    split at chosen
    · cases chosen
    · next symbols parsed =>
      rw [← Except.ok.inj chosen,scanned program symbols parsed]
  rw [same,stub_iff target _ drawn,not_not,joined]

end Features

end Oscan.Linking
