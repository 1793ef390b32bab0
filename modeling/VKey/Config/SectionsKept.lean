import VKey.Config.AppSectionsKept

/-!
# When a save keeps the other sections

Every save but that of the typing configuration does.  That one writes `[features]` anew, without
the toggles of the hotkeys that a file from before the registry has there, and it does not write the
flag of `[debug]`.
-/

namespace VKey

namespace ConfigManager

open TomlTable

section Saves

variable [WideText] [WideCType]

/-! ## The saves of the applications -/

theorem tsfApps_kept (table : TomlTable) {apps : List (List WChar)}
    (h : apps.length ≤ kMaxAppListEntries) : (Save.tsfApps apps).Kept table := by
  have hagree {sections : List String} (hsections : ∀ key ∈ sections, key ∉ ["tsf_apps"]) :
      Agree sections table (saveTsfApps table apps) := Save.agree table (.tsfApps apps) hsections
  rw [Save.Kept, Save.apply, loaded_of_agree_settings (hagree (by decide)),
    loadAllExcludedApps_congr (hagree (by decide)), loadForcedVnApps_congr (hagree (by decide)),
    loadSmartSwitchApps_congr (hagree (by decide)), loadAppOverrides_congr (hagree (by decide)),
    loadTsfApps_saveTsfApps table h]
  rfl

theorem forcedVnApps_kept (table : TomlTable) {apps : List (List WChar)}
    (h : apps.length ≤ kMaxAppListEntries) : (Save.forcedVnApps apps).Kept table := by
  have hagree {sections : List String} (hsections : ∀ key ∈ sections, key ∉ ["excluded_apps"]) :
      Agree sections table (saveForcedVnApps table apps) :=
    Save.agree table (.forcedVnApps apps) hsections
  rw [Save.Kept, Save.apply, loaded_of_agree_settings (hagree (by decide)),
    loadAllExcludedApps_saveForcedVnApps, loadTsfApps_congr (hagree (by decide)),
    loadSmartSwitchApps_congr (hagree (by decide)), loadAppOverrides_congr (hagree (by decide)),
    loadForcedVnApps_saveForcedVnApps table h]
  rfl

theorem excludedApps_kept (table : TomlTable) {apps : List (List WChar)}
    (h : apps.length ≤ kMaxAppListEntries) : (Save.excludedApps apps).Kept table := by
  have hagree {sections : List String}
      (hsections : ∀ key ∈ sections, key ∉ ["excluded_apps", "excludedApps"]) :
      Agree sections table (saveExcludedApps table apps) :=
    Save.agree table (.excludedApps apps) hsections
  rw [Save.Kept, Save.apply, loaded_of_agree_settings (hagree (by decide)),
    loadForcedVnApps_saveExcludedApps, loadTsfApps_congr (hagree (by decide)),
    loadSmartSwitchApps_congr (hagree (by decide)), loadAppOverrides_congr (hagree (by decide)),
    loadAllExcludedApps_saveExcludedApps table h]
  rfl

theorem smartSwitchApps_kept (table : TomlTable) {apps : WideMap Bool}
    (h : (Save.smartSwitchApps apps).Within) : (Save.smartSwitchApps apps).Kept table := by
  have hagree {sections : List String} (hsections : ∀ key ∈ sections, key ∉ ["smart_switch"]) :
      Agree sections table (saveSmartSwitchApps table apps) :=
    Save.agree table (.smartSwitchApps apps) hsections
  have hload :
    (fun key => (loadSmartSwitchApps (saveSmartSwitchApps table apps)).lookup key) = apps.at? :=
    funext (loadSmartSwitchApps_saveSmartSwitchApps table h.1 h.2)
  rw [Save.Kept, Save.apply, loaded_of_agree_settings (hagree (by decide)),
    loadAllExcludedApps_congr (hagree (by decide)), loadForcedVnApps_congr (hagree (by decide)),
    loadTsfApps_congr (hagree (by decide)), loadAppOverrides_congr (hagree (by decide)), hload]
  rfl

theorem appOverrides_kept (table : TomlTable) {data : WideMap AppOverrideEntry}
    (h : data.entries.length ≤ kMaxPerAppEntries) : (Save.appOverrides data).Kept table := by
  have hagree {sections : List String} (hsections : ∀ key ∈ sections, key ∉ ["app_overrides"]) :
      Agree sections table (saveAppOverrides table data) :=
    Save.agree table (.appOverrides data) hsections
  rw [Save.Kept, Save.apply, loaded_of_agree_settings (hagree (by decide)),
    loadAllExcludedApps_congr (hagree (by decide)), loadForcedVnApps_congr (hagree (by decide)),
    loadTsfApps_congr (hagree (by decide)), loadSmartSwitchApps_congr (hagree (by decide)),
    loadAppOverrides_saveAppOverrides table h]
  rfl

/-! ## The save of the registry -/

section Registry

omit [WideText] [WideCType]

theorem saveHotkeyRegistry_features (table : TomlTable) (registry : HotkeyRegistry) :
    (saveHotkeyRegistry table registry).tableAt "features" =
      some (insertOrAssign "esc_restore_raw" (.boolean (escIsCancelTrigger registry))
        ((table.tableAt "features").getD [])) := by
  simp [saveHotkeyRegistry, TomlNode.asTable]

theorem hasHotkeyStateSection_saveHotkeyRegistry (table : TomlTable) (registry : HotkeyRegistry) :
    hasHotkeyStateSection (saveHotkeyRegistry table registry) = true := by
  simp [hasHotkeyStateSection, saveHotkeyRegistry]

theorem loadDebug_escRestoreRaw (table : TomlTable) (config : TypingConfig) (esc : Bool) :
    loadDebug table { config with escRestoreRawEnabled := esc } =
      { loadDebug table config with escRestoreRawEnabled := esc } := by
  rw [loadDebug, loadDebug]
  cases table.tableAt "debug" <;> rfl

end Registry

/-- A section of features that has only the mirror of Esc has the defaults of a file without one. -/
theorem loadFeatures_saveHotkeyRegistry (table : TomlTable) (registry : HotkeyRegistry)
    (inputMethod : InputMethod) (codeTable : CodeTable) (customKeyMap : Fin 128 → TypingAction) :
    loadFeatures (saveHotkeyRegistry table registry) { inputMethod, codeTable, customKeyMap } =
      { loadFeatures table { inputMethod, codeTable, customKeyMap } with
        escRestoreRawEnabled := escIsCancelTrigger registry } := by
  rw [loadFeatures, saveHotkeyRegistry_features, loadFeatures]
  cases table.tableAt "features" with
  | none => simp [boolOr, intOr, arrayAt, loadSpellExclusions, TomlNode.valueBool, UInt8.ofInt]
  | some features => simp [TomlNode.valueBool]

/-- A change of the features is one of the configuration if the flag of `[debug]` does not depend on
it. -/
theorem loadFromFile_of_agree {table table' : TomlTable}
    (h : Agree ["input", "UserDefinedKeyMap", "debug"] table table')
    {edit : TypingConfig → TypingConfig}
    (hfeatures : ∀ inputMethod codeTable customKeyMap,
      loadFeatures table' { inputMethod, codeTable, customKeyMap } =
        edit (loadFeatures table { inputMethod, codeTable, customKeyMap }))
    (hdebug : ∀ config, loadDebug table (edit config) = edit (loadDebug table config)) :
    loadFromFile table' = edit (loadFromFile table) := by
  have hinput : loadInput table' {} = loadInput table {} := by
    rw [loadInput, h.tableAt (by decide)]
    rfl
  have hkeyMap : ∀ config, loadKeyMap table' config = loadKeyMap table config := fun config => by
    rw [loadKeyMap, h.tableAt (by decide)]
    rfl
  have hdebug' : ∀ config, loadDebug table' config = loadDebug table config := fun config => by
    rw [loadDebug, h.tableAt (by decide)]
    rfl
  have hdefaults : ∃ inputMethod codeTable customKeyMap, loadKeyMap table (loadInput table {}) =
      { inputMethod, codeTable, customKeyMap } := by
    rw [loadInput, loadKeyMap]
    cases table.tableAt "input" <;> cases table.tableAt "UserDefinedKeyMap" <;> exact ⟨_, _, _, rfl⟩
  obtain ⟨inputMethod, codeTable, customKeyMap, hconfig⟩ := hdefaults
  rw [loadFromFile, loadFromFile, hinput, hkeyMap, hconfig, hdebug', hfeatures, hdebug]

theorem loadFromFile_saveHotkeyRegistry (table : TomlTable) (registry : HotkeyRegistry) :
    loadFromFile (saveHotkeyRegistry table registry) =
      { loadFromFile table with escRestoreRawEnabled := escIsCancelTrigger registry } := by
  have hagree :
    Agree ["input", "UserDefinedKeyMap", "debug"] table (saveHotkeyRegistry table registry) :=
    Save.agree table (.hotkeyRegistry registry) (by rw [Save.keys]; decide)
  exact loadFromFile_of_agree hagree (loadFeatures_saveHotkeyRegistry table registry)
    fun config => loadDebug_escRestoreRaw table config _

theorem hotkeyRegistry_kept (table : TomlTable) {registry : HotkeyRegistry} (h : registry.Within) :
    (Save.hotkeyRegistry registry).Kept table := by
  obtain ⟨htriggers, henabled⟩ := loadHotkeyRegistry_saveHotkeyRegistry table h
  have hstate := hasHotkeyStateSection_saveHotkeyRegistry table registry
  have horDefault : loadHotkeyRegistryOrDefault (saveHotkeyRegistry table registry) =
      loadHotkeyRegistry (saveHotkeyRegistry table registry) := if_pos hstate
  have hmigrated : migrateLegacyHotkeysIfNeeded (saveHotkeyRegistry table registry) =
      loadHotkeyRegistry (saveHotkeyRegistry table registry) := if_pos hstate
  have hagree : Agree (appKeys ++ otherKeys) table (saveHotkeyRegistry table registry) :=
    Save.agree table (.hotkeyRegistry registry) (by rw [Save.keys]; decide)
  rw [Save.Kept, Save.apply, loaded_of_agree_apps hagree,
    loadFromFile_saveHotkeyRegistry, horDefault, hmigrated, funext htriggers, funext henabled]
  rfl

/-! ## The save of the typing configuration -/

omit [WideCType] in
theorem readLegacyHotkeyToggles_saveToFile (table : TomlTable) (config : TypingConfig) :
    readLegacyHotkeyToggles (saveToFile table config) =
      .ofEsc config.escRestoreRawEnabled := by
  rw [readLegacyHotkeyToggles, saveToFile_features]
  simp [saveFeatures, TomlNode.valueBool, HotkeyRegistry.LegacyHotkeyToggles.ofEsc]

omit [WideCType] in
theorem migrateLegacyHotkeysIfNeeded_saveToFile (table : TomlTable) (config : TypingConfig) :
    migrateLegacyHotkeysIfNeeded (saveToFile table config) =
      if hasHotkeyStateSection table = true ∨ noTriggers (loadHotkeyRegistry table) = false then
        migrateLegacyHotkeysIfNeeded table
      else migrateLegacy (.ofEsc config.escRestoreRawEnabled) := by
  have hagree : Agree registryKeys table (saveToFile table config) :=
    Save.agree table (.toFile config) (by rw [Save.keys]; decide)
  have hstate : hasHotkeyStateSection (saveToFile table config) = hasHotkeyStateSection table := by
    rw [hasHotkeyStateSection, hasHotkeyStateSection, hagree "hotkey_state" (by decide)]
  rw [migrateLegacyHotkeysIfNeeded, migrateLegacyHotkeysIfNeeded,
    loadHotkeyRegistry_congr hagree, hstate, readLegacyHotkeyToggles_saveToFile]
  cases hasHotkeyStateSection table <;> cases noTriggers (loadHotkeyRegistry table) <;> simp

theorem loaded_saveToFile (table : TomlTable) {config : TypingConfig} (h : config.Within) :
    loaded (saveToFile table config) =
      { loaded table with
        typing := { config with perfHistogramEnabled := debugFlag table }
        migratedTriggers := (migrateLegacyHotkeysIfNeeded (saveToFile table config)).triggersFor
        migratedEnabled :=
          (migrateLegacyHotkeysIfNeeded (saveToFile table config)).isEnabled } := by
  have hagree {sections : List String}
      (hsections : ∀ key ∈ sections, key ∉ ["input", "UserDefinedKeyMap", "features"]) :
      Agree sections table (saveToFile table config) := Save.agree table (.toFile config) hsections
  rw [loaded_of_agree_apps (hagree (by decide)), loadFromFile_saveToFile table h,
    loadHotkeyRegistry_congr (hagree (by decide)),
      loadHotkeyRegistryOrDefault_congr (hagree (by decide))]
  rfl

theorem toFile_kept_iff (table : TomlTable) {config : TypingConfig} (h : config.Within) :
    (Save.toFile config).Kept table ↔ (Save.toFile config).Harmless table := by
  rw [Save.Kept, Save.apply, loaded_saveToFile table h, Save.expected, Save.Harmless,
    migrateLegacyHotkeysIfNeeded_saveToFile]
  constructor
  · intro hkept
    refine ⟨(congrArg (fun l => l.typing.perfHistogramEnabled) hkept).symm, ?_⟩
    by_cases hregistry :
      hasHotkeyStateSection table = true ∨ noTriggers (loadHotkeyRegistry table) = false
    · exact hregistry.imp_right Or.inl
    · have hmigrated :
        migrateLegacyHotkeysIfNeeded table = migrateLegacy (readLegacyHotkeyToggles table) := by
        rw [not_or, Bool.not_eq_true, Bool.not_eq_false] at hregistry
        rw [migrateLegacyHotkeysIfNeeded, hregistry.1, hregistry.2]
        rfl
      rw [if_neg hregistry] at hkept
      refine Or.inr (Or.inr (HotkeyRegistry.eq_of_alike_migrateLegacy ?_).symm)
      rw [← hmigrated]
      exact ⟨congrFun (congrArg Loaded.migratedTriggers hkept),
        congrFun (congrArg Loaded.migratedEnabled hkept)⟩
  · rintro ⟨hperf, hregistry⟩
    rw [← hperf]
    split_ifs with h
    · rfl
    · have hlegacy : readLegacyHotkeyToggles table = .ofEsc config.escRestoreRawEnabled :=
        (hregistry.resolve_left fun hstate => h (Or.inl hstate)).resolve_left fun hnone =>
          h (Or.inr hnone)
      rw [not_or, Bool.not_eq_true, Bool.not_eq_false] at h
      have hmigrated : migrateLegacyHotkeysIfNeeded table =
          migrateLegacy (.ofEsc config.escRestoreRawEnabled) := by
        rw [migrateLegacyHotkeysIfNeeded, h.1, h.2, hlegacy]
        rfl
      rw [← hmigrated]
      rfl

/-- A save keeps the sections unless it is that of the typing configuration on a file whose toggles
or whose flag of `[debug]` it does not know. -/
theorem kept_iff_harmless (table : TomlTable) (save : Save) (h : save.Within) :
    save.Kept table ↔ save.Harmless table := by
  cases save with
  | toFile config => exact toFile_kept_iff table h
  | hotkeyRegistry registry => exact iff_of_true (hotkeyRegistry_kept table h) trivial
  | excludedApps apps => exact iff_of_true (excludedApps_kept table h) trivial
  | forcedVnApps apps => exact iff_of_true (forcedVnApps_kept table h) trivial
  | smartSwitchApps apps => exact iff_of_true (smartSwitchApps_kept table h) trivial
  | tsfApps apps => exact iff_of_true (tsfApps_kept table h) trivial
  | appOverrides data => exact iff_of_true (appOverrides_kept table h) trivial

end Saves

/-! ## A file from before the registry -/

/-- The letters of a unit that is no ASCII character. -/
def escapeUnit (c : WChar) : List Char := List.replicate c 'a' ++ ['b']

def unescapeUnits : Nat → List Char → List WChar
  | _, [] => []
  | n, c :: rest => if c = 'b' then n :: unescapeUnits 0 rest else unescapeUnits (n + 1) rest

theorem unescapeUnits_escapeUnit (n c : Nat) (rest : List Char) :
    unescapeUnits n (escapeUnit c ++ rest) = (n + c) :: unescapeUnits 0 rest := by
  induction c generalizing n with
  | zero => exact if_pos rfl
  | succ c ih =>
      rw [escapeUnit] at ih
      rw [escapeUnit, List.replicate_succ, List.cons_append, List.cons_append, unescapeUnits,
        if_neg (by decide), ih, Nat.add_right_comm, Nat.add_assoc]

theorem unescapeUnits_flatMap (text : List WChar) :
    unescapeUnits 0 (text.flatMap escapeUnit) = text := by
  induction text with
  | nil => rfl
  | cons c rest ih => rw [List.flatMap_cons, unescapeUnits_escapeUnit, ih, Nat.zero_add]

/-- The conversions on ASCII strings, which UTF-8 keeps; other strings are escaped. -/
instance asciiText : WideText where
  wideToUtf8 text :=
    if text.all (· < 0x80) then String.ofList (text.map Char.ofNat)
    else String.ofList (Char.ofNat 0x80 :: text.flatMap escapeUnit)
  utf8ToWide str :=
    match str.toList with
    | [] => []
    | c :: rest => if c = Char.ofNat 0x80 then unescapeUnits 0 rest else (c :: rest).map Char.toNat
  utf8ToWide_wideToUtf8 text := by
    by_cases hascii : text.all (· < 0x80) = true
    · rw [if_pos hascii, String.toList_ofList]
      have hlt : ∀ c ∈ text, c < 0x80 := fun c hc =>
        of_decide_eq_true (List.all_eq_true.mp hascii c hc)
      have hcode : ∀ c ∈ text, (Char.ofNat c).toNat = c :=
        fun c hc => toNat_ofNat_code ⟨c, hlt c hc⟩
      cases text with
      | nil => rfl
      | cons c rest =>
          have hne : Char.ofNat c ≠ Char.ofNat 0x80 := fun heq => by
            have htoNat := congrArg Char.toNat heq
            rw [hcode c List.mem_cons_self] at htoNat
            exact absurd (hlt c List.mem_cons_self) (htoNat ▸ by decide)
          simp only [List.map_cons, if_neg hne]
          rw [← List.map_cons, ← List.map_cons, List.map_map]
          exact (List.map_congr_left hcode).trans (List.map_id _)
    · rw [if_neg hascii, String.toList_ofList]
      simp only [if_pos]
      exact unescapeUnits_flatMap text

/-- The toggle of the macros is on in a file without the sections of the registry. -/
def oldFile : TomlTable := [("features", .table [("temp_off_macro_esc", .boolean true)])]

/-- A file whose toggles the registry has taken over, with an application list. -/
def newFile : TomlTable :=
  [("features", .table [("temp_off_macro_esc", .boolean true)]), ("hotkey_state", .table []),
    ("tsf_apps", .table [])]

/-- Both saves keep the sections of the new file, and that of a list those of the old one too. -/
theorem kept_newFile :
    (Save.toFile {}).Kept newFile ∧ (Save.tsfApps [[L 'n', L 'v'], [L 'v', L 'i']]).Kept newFile ∧
      (Save.tsfApps [[L 'n', L 'v'], [L 'v', L 'i']]).Kept oldFile := by
  have happs : (Save.tsfApps [[L 'n', L 'v'], [L 'v', L 'i']]).Within := Nat.le_add_left 2 998
  refine ⟨?_, (kept_iff_harmless newFile _ happs).mpr trivial,
    (kept_iff_harmless oldFile _ happs).mpr trivial⟩
  exact (kept_iff_harmless newFile (.toFile {})
    ⟨fun _ hwide => absurd hwide List.not_mem_nil, rfl⟩).mpr
    ⟨by decide, Or.inl (by decide)⟩

/-- The toggle is gone after a save of the default configuration, and with it the trigger of the
macros. -/
theorem toFile_not_kept_oldFile :
    (Save.toFile {}).Within ∧ ¬(Save.toFile {}).Kept oldFile := by
  have hwithin : TypingConfig.Within {} := ⟨fun _ hwide => absurd hwide List.not_mem_nil, rfl⟩
  refine ⟨hwithin, fun hkept => ?_⟩
  obtain ⟨-, hregistry⟩ := (toFile_kept_iff oldFile hwithin).mp hkept
  revert hregistry
  decide

end ConfigManager

end VKey
