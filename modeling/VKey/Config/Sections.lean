import VKey.Config.AppSections
import VKey.Config.HotkeyRegistry
import VKey.Config.OtherSections
import VKey.Config.TypingRoundTrip

/-!
# The sections of the configuration file are independent

Every save writes its own sections, or its own keys of a section that it shares.  Only the save of
the typing configuration drops keys that another loader still falls back to.
-/

namespace VKey

namespace ConfigManager

open TomlTable

/-- The saves of the configuration file, with their data. -/
inductive Save where
  | toFile (config : TypingConfig)
  | hotkeyRegistry (registry : HotkeyRegistry)
  | excludedApps (apps : List (List WChar))
  | forcedVnApps (apps : List (List WChar))
  | smartSwitchApps (apps : WideMap Bool)
  | tsfApps (apps : List (List WChar))
  | appOverrides (data : WideMap AppOverrideEntry)

variable [WideText]

/-- The file that a save writes. -/
def Save.apply (table : TomlTable) : Save → TomlTable
  | toFile config => saveToFile table config
  | hotkeyRegistry registry => saveHotkeyRegistry table registry
  | excludedApps apps => saveExcludedApps table apps
  | forcedVnApps apps => saveForcedVnApps table apps
  | smartSwitchApps apps => saveSmartSwitchApps table apps
  | tsfApps apps => saveTsfApps table apps
  | appOverrides data => saveAppOverrides table data

/-- The sections that a save writes or drops. -/
def Save.keys : Save → List String
  | toFile _ => ["input", "UserDefinedKeyMap", "features"]
  | hotkeyRegistry _ => ["hotkeys", "hotkey_state", "features"]
  | excludedApps _ => ["excluded_apps", "excludedApps"]
  | forcedVnApps _ => ["excluded_apps"]
  | smartSwitchApps _ => ["smart_switch"]
  | tsfApps _ => ["tsf_apps"]
  | appOverrides _ => ["app_overrides"]

/-- The other sections stay. -/
theorem Save.find?_apply (table : TomlTable) (save : Save) {key : String} (h : key ∉ save.keys) :
    (save.apply table).find? key = table.find? key := by
  cases save with
  | toFile config =>
      simp only [keys, List.mem_cons, List.not_mem_nil, or_false, not_or] at h
      exact saveToFile_find? table config h.1 h.2.1 h.2.2
  | hotkeyRegistry registry =>
      simp only [keys, List.mem_cons, List.not_mem_nil, or_false, not_or] at h
      simp only [apply, saveHotkeyRegistry, find?_insertOrAssign, if_neg h.1,
        if_neg h.2.1, if_neg h.2.2]
  | excludedApps apps =>
      simp only [keys, List.mem_cons, List.not_mem_nil, or_false, not_or] at h
      simp only [apply, saveExcludedApps, find?_erase, if_neg h.2]
      cases table.tableAt "excluded_apps" <;> simp only [find?_insertOrAssign, if_neg h.1]
  | forcedVnApps apps =>
      rw [keys, List.mem_singleton] at h
      rw [apply, saveForcedVnApps]
      cases table.tableAt "excluded_apps" <;> simp only [find?_insertOrAssign, if_neg h]
  | smartSwitchApps apps =>
      rw [keys, List.mem_singleton] at h
      rw [apply, saveSmartSwitchApps, find?_insertOrAssign, if_neg h]
  | tsfApps apps =>
      rw [keys, List.mem_singleton] at h
      rw [apply, saveTsfApps, find?_insertOrAssign, if_neg h]
  | appOverrides data =>
      rw [keys, List.mem_singleton] at h
      rw [apply, saveAppOverrides, find?_insertOrAssign, if_neg h]

theorem Save.agree (table : TomlTable) (save : Save) {sections : List String}
    (h : ∀ key ∈ sections, key ∉ save.keys) : Agree sections table (save.apply table) :=
  fun key hkey => save.find?_apply table (h key hkey)

variable [WideCType]

/-- The data is inside the limits of its loader. -/
def Save.Within : Save → Prop
  | toFile config => config.Within
  | hotkeyRegistry registry => registry.Within
  | excludedApps apps => apps.length ≤ kMaxAppListEntries
  | forcedVnApps apps => apps.length ≤ kMaxAppListEntries
  | smartSwitchApps apps => apps.entries.length ≤ kMaxAppListEntries ∧
      ∀ key ∈ apps.entries.map Prod.fst, key ≠ [] ∧ key.map towlower = key
  | tsfApps apps => apps.length ≤ kMaxAppListEntries
  | appOverrides data => data.entries.length ≤ kMaxPerAppEntries

/-- What the loaders return; a registry is what can be asked of it, a map what it has at each
key. -/
structure Loaded where
  typing : TypingConfig
  registryTriggers : HotkeyRegistry.Intent → List HotkeyRegistry.Trigger
  registryEnabled : HotkeyRegistry.Intent → Bool
  orDefaultTriggers : HotkeyRegistry.Intent → List HotkeyRegistry.Trigger
  orDefaultEnabled : HotkeyRegistry.Intent → Bool
  migratedTriggers : HotkeyRegistry.Intent → List HotkeyRegistry.Trigger
  migratedEnabled : HotkeyRegistry.Intent → Bool
  excludedApps : List (List WChar)
  forcedVnApps : List (List WChar)
  smartSwitchApps : List WChar → Option Bool
  tsfApps : List (List WChar)
  appOverrides : List WChar → Option AppOverrideEntry
  ui : UIConfig
  hotkey : HotkeyConfig
  system : SystemConfig
  convert : ConvertConfig
  macros : List WChar → Option (List WChar)

def loaded (table : TomlTable) : Loaded where
  typing := loadFromFile table
  registryTriggers := (loadHotkeyRegistry table).triggersFor
  registryEnabled := (loadHotkeyRegistry table).isEnabled
  orDefaultTriggers := (loadHotkeyRegistryOrDefault table).triggersFor
  orDefaultEnabled := (loadHotkeyRegistryOrDefault table).isEnabled
  migratedTriggers := (migrateLegacyHotkeysIfNeeded table).triggersFor
  migratedEnabled := (migrateLegacyHotkeysIfNeeded table).isEnabled
  excludedApps := loadAllExcludedApps table
  forcedVnApps := loadForcedVnApps table
  smartSwitchApps := fun key => (loadSmartSwitchApps table).lookup key
  tsfApps := loadTsfApps table
  appOverrides := loadAppOverrides table
  ui := loadUIConfig table
  hotkey := loadHotkeyConfig table
  system := loadSystemConfig table
  convert := loadConvertConfig table
  macros := loadMacros utf8ToWide table

/-- What the loaders have to return after a save: the matching ones the saved data, the others what
they returned before.  `SaveHotkeyRegistry` also writes its mirror of the key Esc. -/
def Save.expected (before : Loaded) : Save → Loaded
  | toFile config => { before with typing := config }
  | hotkeyRegistry registry =>
      { before with
        typing := { before.typing with escRestoreRawEnabled := escIsCancelTrigger registry }
        registryTriggers := registry.triggersFor
        registryEnabled := registry.isEnabled
        orDefaultTriggers := registry.triggersFor
        orDefaultEnabled := registry.isEnabled
        migratedTriggers := registry.triggersFor
        migratedEnabled := registry.isEnabled }
  | excludedApps apps => { before with excludedApps := apps }
  | forcedVnApps apps => { before with forcedVnApps := apps }
  | smartSwitchApps apps => { before with smartSwitchApps := apps.at? }
  | tsfApps apps => { before with tsfApps := apps }
  | appOverrides data => { before with appOverrides := data.at? }

/-- The save round-trips and leaves the other sections as they are. -/
def Save.Kept (table : TomlTable) (save : Save) : Prop :=
  loaded (save.apply table) = save.expected (loaded table)

/-- The flag of `[debug]` is that of the file, and an old file has no toggles of the hotkeys but
those that the save writes. -/
def Save.Harmless (table : TomlTable) : Save → Prop
  | toFile config => config.perfHistogramEnabled = debugFlag table ∧
      (hasHotkeyStateSection table = true ∨ noTriggers (loadHotkeyRegistry table) = false ∨
        readLegacyHotkeyToggles table = .ofEsc config.escRestoreRawEnabled)
  | _ => True

/-! ## What the loaders read -/

def typingKeys : List String := ["input", "UserDefinedKeyMap", "features", "debug"]
def registryKeys : List String := ["hotkeys", "hotkey_state"]
def appKeys : List String :=
  ["excluded_apps", "excludedApps", "smart_switch", "tsf_apps", "app_overrides"]
def otherKeys : List String := ["ui", "hotkey", "system", "convert", "macros"]

section Reads

variable {table table' : TomlTable}

theorem loadFromFile_congr (h : Agree typingKeys table table') :
    loadFromFile table' = loadFromFile table := by
  have hinput : table'.tableAt "input" = table.tableAt "input" := h.tableAt (by decide)
  have hkeyMap : table'.tableAt "UserDefinedKeyMap" = table.tableAt "UserDefinedKeyMap" :=
    h.tableAt (by decide)
  have hfeatures : table'.tableAt "features" = table.tableAt "features" := h.tableAt (by decide)
  have hdebug : table'.tableAt "debug" = table.tableAt "debug" := h.tableAt (by decide)
  simp only [loadFromFile, loadInput, loadKeyMap, loadFeatures, loadDebug,
    hinput, hkeyMap, hfeatures, hdebug]

omit [WideText] [WideCType] in
theorem loadHotkeyRegistry_congr (h : Agree registryKeys table table') :
    loadHotkeyRegistry table' = loadHotkeyRegistry table := by
  rw [loadHotkeyRegistry, h.arrayAt (by decide), h.tableAt (by decide)]
  rfl

omit [WideText] [WideCType] in
theorem loadHotkeyRegistryOrDefault_congr (h : Agree registryKeys table table') :
    loadHotkeyRegistryOrDefault table' = loadHotkeyRegistryOrDefault table := by
  rw [loadHotkeyRegistryOrDefault, loadHotkeyRegistryOrDefault, loadHotkeyRegistry_congr h,
    hasHotkeyStateSection, hasHotkeyStateSection, h "hotkey_state" (by decide)]

omit [WideText] [WideCType] in
theorem migrateLegacyHotkeysIfNeeded_congr (h : Agree registryKeys table table')
    (hfeatures : table'.tableAt "features" = table.tableAt "features") :
    migrateLegacyHotkeysIfNeeded table' = migrateLegacyHotkeysIfNeeded table := by
  rw [migrateLegacyHotkeysIfNeeded, migrateLegacyHotkeysIfNeeded, loadHotkeyRegistry_congr h,
    hasHotkeyStateSection, hasHotkeyStateSection, h "hotkey_state" (by decide),
      readLegacyHotkeyToggles,
    readLegacyHotkeyToggles, hfeatures]

/-- The sections that none of the saves writes. -/
theorem others_congr (h : Agree otherKeys table table') :
    loadUIConfig table' = loadUIConfig table ∧ loadHotkeyConfig table' = loadHotkeyConfig table ∧
    loadSystemConfig table' = loadSystemConfig table ∧
    loadConvertConfig table' = loadConvertConfig table ∧
    loadMacros utf8ToWide table' = loadMacros utf8ToWide table := by
  refine ⟨?_, ?_, ?_, ?_, ?_⟩
  · rw [loadUIConfig, h.tableAt (by decide)]
    rfl
  · rw [loadHotkeyConfig, h.tableAt (by decide)]
    rfl
  · rw [loadSystemConfig, h.tableAt (by decide)]
    rfl
  · rw [loadConvertConfig, h.tableAt (by decide)]
    rfl
  · rw [loadMacros, h.tableAt (by decide)]
    rfl

theorem loaded_of_agree_settings
    (h : Agree (typingKeys ++ registryKeys ++ otherKeys) table table') :
    loaded table' = { loaded table with
      excludedApps := loadAllExcludedApps table'
      forcedVnApps := loadForcedVnApps table'
      smartSwitchApps := fun key => (loadSmartSwitchApps table').lookup key
      tsfApps := loadTsfApps table'
      appOverrides := loadAppOverrides table' } := by
  have hregistry : Agree registryKeys table table' := h.mono (by decide)
  have hmigrated := migrateLegacyHotkeysIfNeeded_congr hregistry (h.tableAt (by decide))
  obtain ⟨hui, hhotkey, hsystem, hconvert, hmacros⟩ := others_congr (h.mono (by decide))
  simp only [loaded, loadFromFile_congr (h.mono (by decide)), loadHotkeyRegistry_congr hregistry,
    loadHotkeyRegistryOrDefault_congr hregistry, hmigrated, hui, hhotkey,
      hsystem, hconvert, hmacros]

theorem loadAllExcludedApps_congr (h : Agree ["excluded_apps", "excludedApps"] table table') :
    loadAllExcludedApps table' = loadAllExcludedApps table := by
  rw [loadAllExcludedApps, mergeLegacyExcluded, h.tableAt (by decide), h.tableAt (by decide)]
  rfl

omit [WideCType] in
theorem loadForcedVnApps_congr (h : Agree ["excluded_apps"] table table') :
    loadForcedVnApps table' = loadForcedVnApps table := by
  rw [loadForcedVnApps, h.tableAt (by decide)]
  rfl

theorem loadSmartSwitchApps_congr (h : Agree ["smart_switch"] table table') :
    loadSmartSwitchApps table' = loadSmartSwitchApps table := by
  rw [loadSmartSwitchApps, h.tableAt (by decide)]
  rfl

omit [WideCType] in
theorem loadTsfApps_congr (h : Agree ["tsf_apps"] table table') :
    loadTsfApps table' = loadTsfApps table := by
  rw [loadTsfApps, h.tableAt (by decide)]
  rfl

omit [WideCType] in
theorem loadAppOverrides_congr (h : Agree ["app_overrides"] table table') :
    loadAppOverrides table' = loadAppOverrides table := by
  rw [loadAppOverrides, h.tableAt (by decide)]
  rfl

/-- A file in which only the typing configuration and the registry differ. -/
theorem loaded_of_agree_apps (h : Agree (appKeys ++ otherKeys) table table') :
    loaded table' = { loaded table with
      typing := loadFromFile table'
      registryTriggers := (loadHotkeyRegistry table').triggersFor
      registryEnabled := (loadHotkeyRegistry table').isEnabled
      orDefaultTriggers := (loadHotkeyRegistryOrDefault table').triggersFor
      orDefaultEnabled := (loadHotkeyRegistryOrDefault table').isEnabled
      migratedTriggers := (migrateLegacyHotkeysIfNeeded table').triggersFor
      migratedEnabled := (migrateLegacyHotkeysIfNeeded table').isEnabled } := by
  obtain ⟨hui, hhotkey, hsystem, hconvert, hmacros⟩ := others_congr (h.mono (by decide))
  simp only [loaded, loadAllExcludedApps_congr (h.mono (by decide)),
    loadForcedVnApps_congr (h.mono (by decide)), loadSmartSwitchApps_congr (h.mono (by decide)),
    loadTsfApps_congr (h.mono (by decide)),
      loadAppOverrides_congr (h.mono (by decide)), hui, hhotkey,
    hsystem, hconvert, hmacros]

end Reads

end ConfigManager

end VKey
