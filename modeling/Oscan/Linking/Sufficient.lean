import Oscan.Linking.Capability

/-! Whatever the profile, the archives that a link is given define every symbol of the runtime; the profile decides
which of them are the features and which are stubs. -/
namespace Oscan.Linking

def Defines (definitions : List Definition) (symbol : String) : Prop := ∃ d ∈ definitions, d.symbol = symbol

theorem defines_append (left right : List Definition) (symbol : String) :
    Defines (left ++ right) symbol ↔ Defines left symbol ∨ Defines right symbol := by
  simp only [Defines,List.mem_append,or_and_right,exists_or]

theorem defines_define (body : Body) (symbols : List String) (symbol : String) :
    Defines (define body symbols) symbol ↔ symbol ∈ symbols := by
  simp only [Defines,define,List.mem_map,exists_exists_and_eq_and,exists_eq_right]

theorem not_defines_nil (symbol : String) : ¬Defines [] symbol := by
  simp only [Defines,List.not_mem_nil,false_and,exists_false,not_false_eq_true]

theorem Defines.flatMap (target : NativeTarget) {sources : List SourceFile} {source : SourceFile}
    (member : source ∈ sources) {symbol : String} (defined : Defines (source.definitions target) symbol) :
    Defines (sources.flatMap (·.definitions target)) symbol := by
  obtain ⟨d,inside,named⟩ := defined
  exact ⟨d,List.mem_flatMap.mpr ⟨source,member,inside⟩,named⟩

theorem optional_defines (macros : List Macro) (here : .externalGraphics ∉ macros) (feature : Macro)
    (symbols : List String) (symbol : String) :
    Defines (optional macros feature symbols) symbol ↔ symbol ∈ symbols := by
  simp only [optional,if_neg here]
  split
  · exact defines_define _ _ _
  · exact defines_define _ _ _

def graphicsSymbols : List String :=
  canvasSymbols ++ colorSymbols ++ ["osc_img_load"] ++ ["osc_svg_load"] ++ trueTypeSymbols

theorem oscRuntimeGraphics_defines (macros : List Macro) (here : .externalGraphics ∉ macros) (symbol : String) :
    Defines (oscRuntimeGraphics macros) symbol ↔ symbol ∈ graphicsSymbols := by
  have colored : ¬(.hasGfx ∉ macros ∧ .externalGraphics ∈ macros) := fun both => here both.2
  simp only [oscRuntimeGraphics,graphicsSymbols,defines_append,optional_defines macros here,List.mem_append,
    if_neg colored,defines_define]

/-- The symbols that every configuration of the runtime has -/
def plainSymbols : List String :=
  coreSymbols ++ ["bool","i32","i64","f64","str"].flatMap typedArraySymbols ++ socketSymbols

theorem oscRuntime_plain (target : NativeTarget) (macros : List Macro) {symbol : String}
    (plain : symbol ∈ plainSymbols) : Defines (oscRuntime target macros) symbol := by
  simp only [plainSymbols,List.mem_append] at plain
  simp only [oscRuntime,defines_append,defines_define]
  tauto

theorem oscRuntime_graphics (target : NativeTarget) (macros : List Macro) {symbol : String}
    (drawn : Defines (oscRuntimeGraphics macros) symbol) : Defines (oscRuntime target macros) symbol := by
  simp only [oscRuntime,defines_append]
  tauto

theorem oscRuntime_tls (target : NativeTarget) (macros : List Macro) (sockets : .hasSockets ∈ macros)
    {symbol : String} (secure : symbol ∈ tlsSymbols) : Defines (oscRuntime target macros) symbol := by
  have last : Defines (define (if target = .linuxX64 ∨ target = .windowsX64 then .feature else .stub) tlsSymbols)
      symbol := (defines_define _ _ _).mpr secure
  simp only [oscRuntime,defines_append,if_pos sockets]
  exact Or.inr last

theorem oscRuntime_environment (target : NativeTarget) (macros : List Macro) (apart : .oscFreestanding ∈ macros) :
    Defines (oscRuntime target macros) "osc_freestanding_env_init" := by
  have wrapper : Defines (define .feature ["osc_freestanding_env_init"]) "osc_freestanding_env_init" :=
    (defines_define _ _ _).mpr (List.mem_singleton_self _)
  simp only [oscRuntime,defines_append,if_pos apart]
  tauto

theorem runtimeSymbols_cases {mode : RuntimeMode} {symbol : String} (known : symbol ∈ runtimeSymbols mode) :
    symbol ∈ plainSymbols ∨ symbol ∈ graphicsSymbols ∨ symbol ∈ tlsSymbols ∨ symbol ∈ shimSymbols ∨
      (mode = .freestanding ∧ symbol = "osc_freestanding_env_init") := by
  simp only [runtimeSymbols,List.mem_append] at known
  simp only [plainSymbols,graphicsSymbols,List.mem_append]
  have wrapper : symbol ∈ (if mode = .freestanding then ["osc_freestanding_env_init"] else []) →
      mode = .freestanding ∧ symbol = "osc_freestanding_env_init" := by
    intro inside
    split at inside
    · next apart => exact ⟨apart,List.mem_singleton.mp inside⟩
    · exact absurd inside List.not_mem_nil
  tauto

/-- The units that the archive of a mode and a profile is made of -/
def archiveSources : RuntimeMode → FreestandingProfile → List SourceFile
  | .freestanding,.full => [.freestanding,.nativeShim]
  | .freestanding,.graphics => [.freestandingGfx,.nativeShim]
  | .freestanding,.core => [.freestandingCore,.nativeShim]
  | .hosted,_ => [.hosted,.hostedTls,.hostedGfx,.nativeShim]

theorem archiveDefinitions_eq (target : NativeTarget) (mode : RuntimeMode) (profile : FreestandingProfile)
    (containsShim : Bool) :
    archiveDefinitions target (archiveName mode profile) containsShim =
      ((archiveSources mode profile).filter fun source => containsShim || source != .nativeShim).flatMap
        (·.definitions target) := by
  cases mode <;> cases profile <;> rfl

theorem modeDefinitions_eq (target : NativeTarget) (profile : FreestandingProfile) :
    modeDefinitions target profile.buildModeStr =
      (archiveSources .freestanding profile).flatMap (·.definitions target) := by
  cases profile <;> rfl

/-- The macros that the core unit of a freestanding profile is compiled with -/
def profileMacros : FreestandingProfile → List Macro
  | .full => [.oscFreestanding,.hasGfx,.hasImg,.hasSvg,.hasTt,.hasSockets]
  | .graphics => [.oscFreestanding,.hasGfx,.hasSockets]
  | .core => [.oscFreestanding,.hasSockets]

theorem archiveSources_freestanding (target : NativeTarget) (profile : FreestandingProfile) :
    ∃ source, source ≠ .nativeShim ∧ source ∈ archiveSources .freestanding profile ∧
      source.definitions target = oscRuntime target (profileMacros profile) := by
  cases profile with
  | full => exact ⟨.freestanding,by decide,by decide,rfl⟩
  | graphics => exact ⟨.freestandingGfx,by decide,by decide,rfl⟩
  | core => exact ⟨.freestandingCore,by decide,by decide,rfl⟩

theorem freestanding_defines (target : NativeTarget) (profile : FreestandingProfile) {symbol : String}
    (known : symbol ∈ runtimeSymbols .freestanding) (unshimmed : symbol ∉ shimSymbols) :
    Defines (oscRuntime target (profileMacros profile)) symbol := by
  have inner : Macro.externalGraphics ∉ profileMacros profile := by cases profile <;> decide
  have sockets : Macro.hasSockets ∈ profileMacros profile := by cases profile <;> decide
  have apart : Macro.oscFreestanding ∈ profileMacros profile := by cases profile <;> decide
  rcases runtimeSymbols_cases known with plain | drawn | secure | shim | ⟨_,rfl⟩
  · exact oscRuntime_plain target _ plain
  · exact oscRuntime_graphics target _ ((oscRuntimeGraphics_defines _ inner symbol).mpr drawn)
  · exact oscRuntime_tls target _ sockets secure
  · exact absurd shim unshimmed
  · exact oscRuntime_environment target _ apart

/-- On Windows the graphics come from a unit of their own, elsewhere from the core's stubs. -/
theorem hosted_defines (target : NativeTarget) {symbol : String} (known : symbol ∈ runtimeSymbols .hosted)
    (unshimmed : symbol ∉ shimSymbols) :
    ∃ source, source ≠ .nativeShim ∧ source ∈ archiveSources .hosted .full ∧
      Defines (source.definitions target) symbol := by
  rcases runtimeSymbols_cases known with plain | drawn | secure | shim | ⟨other,_⟩
  · exact ⟨.hosted,by decide,by decide,oscRuntime_plain target _ plain⟩
  · by_cases windows : target = .windowsX64
    · refine ⟨.hostedGfx,by decide,by decide,?_⟩
      rw [SourceFile.definitions,if_pos windows]
      exact (oscRuntimeGraphics_defines _ (by decide) symbol).mpr drawn
    · refine ⟨.hosted,by decide,by decide,?_⟩
      rw [SourceFile.definitions,if_neg windows]
      exact oscRuntime_graphics target _ ((oscRuntimeGraphics_defines _ (by decide) symbol).mpr drawn)
  · exact ⟨.hostedTls,by decide,by decide,(defines_define _ _ _).mpr secure⟩
  · exact absurd shim unshimmed
  · exact absurd other (by decide)

theorem archive_defines (target : NativeTarget) (mode : RuntimeMode) (profile : FreestandingProfile)
    {symbol : String} (known : symbol ∈ runtimeSymbols mode) (unshimmed : symbol ∉ shimSymbols) :
    ∃ source, source ≠ .nativeShim ∧ source ∈ archiveSources mode profile ∧
      Defines (source.definitions target) symbol := by
  cases mode with
  | freestanding =>
    obtain ⟨source,distinct,member,same⟩ := archiveSources_freestanding target profile
    exact ⟨source,distinct,member,same ▸ freestanding_defines target profile known unshimmed⟩
  | hosted => exact hosted_defines target known unshimmed

theorem shim_defines (target : NativeTarget) {symbol : String} (shim : symbol ∈ shimSymbols) :
    Defines (SourceFile.nativeShim.definitions target) symbol := (defines_define _ _ _).mpr shim

theorem archiveSources_shim (mode : RuntimeMode) (profile : FreestandingProfile) :
    .nativeShim ∈ archiveSources mode profile := by
  cases mode <;> cases profile <;> decide

variable (host : Host)

/-- Where a link through a linker process comes to the linker, the shim is in the archive or compiled beside it. -/
theorem linkExecutable_defines (target : NativeTarget) (objectPath : String) (options : LinkOptions)
    {symbol : String} (known : symbol ∈ runtimeSymbols options.runtimeMode) {definitions : List Definition}
    (linked : linkExecutable host target objectPath options = .ok definitions) : Defines definitions symbol := by
  unfold linkExecutable at linked
  generalize linkProfile host objectPath options = profile at linked
  have core (containsShim : Bool) (unshimmed : symbol ∉ shimSymbols) :
      Defines (archiveDefinitions target (archiveName options.runtimeMode profile) containsShim) symbol := by
    obtain ⟨source,distinct,member,defined⟩ :=
      archive_defines target options.runtimeMode profile known unshimmed
    rw [archiveDefinitions_eq]
    refine Defines.flatMap target (List.mem_filter.mpr ⟨member,?_⟩) defined
    simp only [bne_iff_ne.mpr distinct,Bool.or_true]
  simp only at linked
  split at linked
  · cases linked
  · next containsShim found =>
    cases containsShim with
    | true =>
      have same : archiveDefinitions target (archiveName options.runtimeMode profile) true = definitions := by
        simpa only [resolveShimSource,if_true,Except.map,Except.ok.injEq] using linked
      rw [← same]
      by_cases shim : symbol ∈ shimSymbols
      · rw [archiveDefinitions_eq]
        refine Defines.flatMap target (List.mem_filter.mpr ⟨archiveSources_shim _ _,?_⟩) (shim_defines target shim)
        rfl
      · exact core true shim
    | false =>
      have both : SourceFile.nativeShim.definitions target ++
          archiveDefinitions target (archiveName options.runtimeMode profile) false = definitions := by
        simp only [resolveShimSource,Bool.false_eq_true,if_false] at linked
        split at linked
        · cases linked
        · revert linked
          generalize host.refuseIfStrict _ _ = answer
          intro linked
          cases answer with
          | error message => cases linked
          | ok allowed => simpa only [Except.map,Except.ok.injEq] using linked
      rw [← both,defines_append]
      by_cases shim : symbol ∈ shimSymbols
      · exact Or.inl (shim_defines target shim)
      · exact Or.inr (core false shim)

theorem linkInprocess_definitions (target : NativeTarget) (objectBytes : Bytes) (options : LinkOptions)
    {definitions : List Definition} (linked : linkInprocess host target objectBytes options = .ok definitions) :
    options.runtimeMode = .freestanding ∧ ∃ profile,
      freestandingProfileFromBytes host "program.o" objectBytes = .ok profile ∧
      definitions = modeDefinitions target profile.buildModeStr := by
  unfold linkInprocess at linked
  split at linked
  · cases linked
  split at linked
  · cases linked
  next freestanding =>
  split at linked
  · cases linked
  split at linked
  · cases linked
  split at linked
  · cases linked
  next profile scanned =>
  split at linked
  · split at linked
    · exact ⟨not_not.mp freestanding,profile,scanned,(Except.ok.inj linked).symm⟩
    · cases linked
  · cases linked
  · cases linked

theorem linkInprocess_defines (target : NativeTarget) (objectBytes : Bytes) (options : LinkOptions)
    {symbol : String} (known : symbol ∈ runtimeSymbols options.runtimeMode) {definitions : List Definition}
    (linked : linkInprocess host target objectBytes options = .ok definitions) : Defines definitions symbol := by
  obtain ⟨freestanding,profile,_,same⟩ := linkInprocess_definitions host target objectBytes options linked
  rw [freestanding] at known
  rw [same,modeDefinitions_eq]
  by_cases shim : symbol ∈ shimSymbols
  · exact Defines.flatMap target (archiveSources_shim _ _) (shim_defines target shim)
  · obtain ⟨source,_,member,defined⟩ := archive_defines target .freestanding profile known shim
    exact Defines.flatMap target member defined

end Oscan.Linking
