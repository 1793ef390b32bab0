import VKey.Config.SectionsKept

/-!
# The settings of the configuration file and their writers

A writer of the typing configuration changes one setting of the configuration that it has loaded and
saves all of it.  The other writers read and write under the lock.
-/

namespace VKey

namespace ConfigManager

open TomlTable

/-- The settings of the typing configuration that are on or off. -/
inductive Flag where
  | spellCheck | spellSuggest | beepOnSwitch | smartSwitch | excludeApps | tsfApps |
      hidePreeditUnderline
  | modernOrtho | autoCaps | allowZwjf | autoRestore | cjkAutoSwitch | macroEnabled | macroInEnglish
  | quickConsonant | quickStartConsonant | quickEndConsonant | escRestoreRaw | autoCapsMacro
  | macroUndoOnBackspace | macroTitleCase | allowEnglishBypass | suggestKeepChars | debugLog |
      enableToast
  | macroTriggerSpace | macroTriggerEnter | macroTriggerTab | macroTriggerDir
  deriving DecidableEq

inductive TypingSetting where
  | flag (f : Flag)
  | inputMethod
  | codeTable
  | optimizeLevel
  | spellExclusions
  | customKeyMap
  deriving DecidableEq

def TypingSetting.Value : TypingSetting → Type
  | flag _ => Bool
  | inputMethod => InputMethod
  | codeTable => CodeTable
  | optimizeLevel => UInt8
  | spellExclusions => List (List WChar)
  | customKeyMap => Fin 128 → TypingAction

namespace TypingConfig

def flag (config : TypingConfig) : Flag → Bool
  | .spellCheck => config.spellCheckEnabled
  | .spellSuggest => config.spellSuggestEnabled
  | .beepOnSwitch => config.beepOnSwitch
  | .smartSwitch => config.smartSwitch
  | .excludeApps => config.excludeApps
  | .tsfApps => config.tsfApps
  | .hidePreeditUnderline => config.hidePreeditUnderline
  | .modernOrtho => config.modernOrtho
  | .autoCaps => config.autoCaps
  | .allowZwjf => config.allowZwjf
  | .autoRestore => config.autoRestoreEnabled
  | .cjkAutoSwitch => config.cjkAutoSwitch
  | .macroEnabled => config.macroEnabled
  | .macroInEnglish => config.macroInEnglish
  | .quickConsonant => config.quickConsonant
  | .quickStartConsonant => config.quickStartConsonant
  | .quickEndConsonant => config.quickEndConsonant
  | .escRestoreRaw => config.escRestoreRawEnabled
  | .autoCapsMacro => config.autoCapsMacro
  | .macroUndoOnBackspace => config.macroUndoOnBackspace
  | .macroTitleCase => config.macroTitleCase
  | .allowEnglishBypass => config.allowEnglishBypass
  | .suggestKeepChars => config.suggestKeepChars
  | .debugLog => config.debugLogEnabled
  | .enableToast => config.enableToast
  | .macroTriggerSpace => config.macroTriggerSpace
  | .macroTriggerEnter => config.macroTriggerEnter
  | .macroTriggerTab => config.macroTriggerTab
  | .macroTriggerDir => config.macroTriggerDir

def setFlag (config : TypingConfig) (value : Bool) : Flag → TypingConfig
  | .spellCheck => { config with spellCheckEnabled := value }
  | .spellSuggest => { config with spellSuggestEnabled := value }
  | .beepOnSwitch => { config with beepOnSwitch := value }
  | .smartSwitch => { config with smartSwitch := value }
  | .excludeApps => { config with excludeApps := value }
  | .tsfApps => { config with tsfApps := value }
  | .hidePreeditUnderline => { config with hidePreeditUnderline := value }
  | .modernOrtho => { config with modernOrtho := value }
  | .autoCaps => { config with autoCaps := value }
  | .allowZwjf => { config with allowZwjf := value }
  | .autoRestore => { config with autoRestoreEnabled := value }
  | .cjkAutoSwitch => { config with cjkAutoSwitch := value }
  | .macroEnabled => { config with macroEnabled := value }
  | .macroInEnglish => { config with macroInEnglish := value }
  | .quickConsonant => { config with quickConsonant := value }
  | .quickStartConsonant => { config with quickStartConsonant := value }
  | .quickEndConsonant => { config with quickEndConsonant := value }
  | .escRestoreRaw => { config with escRestoreRawEnabled := value }
  | .autoCapsMacro => { config with autoCapsMacro := value }
  | .macroUndoOnBackspace => { config with macroUndoOnBackspace := value }
  | .macroTitleCase => { config with macroTitleCase := value }
  | .allowEnglishBypass => { config with allowEnglishBypass := value }
  | .suggestKeepChars => { config with suggestKeepChars := value }
  | .debugLog => { config with debugLogEnabled := value }
  | .enableToast => { config with enableToast := value }
  | .macroTriggerSpace => { config with macroTriggerSpace := value }
  | .macroTriggerEnter => { config with macroTriggerEnter := value }
  | .macroTriggerTab => { config with macroTriggerTab := value }
  | .macroTriggerDir => { config with macroTriggerDir := value }

def get (config : TypingConfig) : (setting : TypingSetting) → setting.Value
  | .flag f => config.flag f
  | .inputMethod => config.inputMethod
  | .codeTable => config.codeTable
  | .optimizeLevel => config.optimizeLevel
  | .spellExclusions => config.spellExclusions
  | .customKeyMap => config.customKeyMap

def set (config : TypingConfig) : (setting : TypingSetting) → setting.Value → TypingConfig
  | .flag f, value => config.setFlag value f
  | .inputMethod, value => { config with inputMethod := value }
  | .codeTable, value => { config with codeTable := value }
  | .optimizeLevel, value => { config with optimizeLevel := value }
  | .spellExclusions, value => { config with spellExclusions := value }
  | .customKeyMap, value => { config with customKeyMap := value }

theorem flag_setFlag_self (config : TypingConfig) (value : Bool) (f : Flag) :
    (config.setFlag value f).flag f = value := by
  cases f <;> rfl

theorem flag_setFlag_of_ne (config : TypingConfig) (value : Bool) {f g : Flag} (h : g ≠ f) :
    (config.setFlag value f).flag g = config.flag g := by
  cases f <;> cases g <;> first | rfl | exact absurd rfl h

/-- The settings that are no flags and the flag of `[debug]` stay when a flag is set. -/
theorem setFlag_eq (config : TypingConfig) (value : Bool) (f : Flag) :
    (config.setFlag value f).inputMethod = config.inputMethod ∧
    (config.setFlag value f).codeTable = config.codeTable ∧
    (config.setFlag value f).optimizeLevel = config.optimizeLevel ∧
    (config.setFlag value f).spellExclusions = config.spellExclusions ∧
    (config.setFlag value f).customKeyMap = config.customKeyMap ∧
    (config.setFlag value f).perfHistogramEnabled = config.perfHistogramEnabled := by
  cases f <;> exact ⟨rfl, rfl, rfl, rfl, rfl, rfl⟩

theorem get_set_self (config : TypingConfig) (setting : TypingSetting) (value : setting.Value) :
    (config.set setting value).get setting = value := by
  cases setting with
  | flag f => exact config.flag_setFlag_self value f
  | _ => rfl

theorem get_set_of_ne (config : TypingConfig) {setting other : TypingSetting}
    (value : setting.Value)
    (h : other ≠ setting) : (config.set setting value).get other = config.get other := by
  cases setting with
  | flag f =>
      obtain ⟨hmethod, htable, hlevel, hexclusions, hkeyMap, -⟩ := config.setFlag_eq value f
      cases other with
      | flag g => exact config.flag_setFlag_of_ne value fun hg => h (congrArg TypingSetting.flag hg)
      | inputMethod => exact hmethod
      | codeTable => exact htable
      | optimizeLevel => exact hlevel
      | spellExclusions => exact hexclusions
      | customKeyMap => exact hkeyMap
  | _ =>
      cases other with
      | flag g => cases g <;> rfl
      | _ => first | rfl | exact absurd rfl h

theorem perfHistogramEnabled_set (config : TypingConfig) (setting : TypingSetting)
    (value : setting.Value) :
    (config.set setting value).perfHistogramEnabled = config.perfHistogramEnabled := by
  cases setting with
  | flag f => exact (config.setFlag_eq value f).2.2.2.2.2
  | _ => rfl

end TypingConfig

/-- The settings of the whole file. -/
inductive Setting where
  | typing (setting : TypingSetting)
  | perfHistogram
  | registry
  | registryOrDefault
  | migratedRegistry
  | excludedApps
  | forcedVnApps
  | smartSwitchApps
  | tsfApps
  | appOverrides
  | ui
  | hotkey
  | system
  | convert
  | macros
  deriving DecidableEq

/-- What can be asked of a registry. -/
abbrev RegistryAnswers :=
  (HotkeyRegistry.Intent → List HotkeyRegistry.Trigger) × (HotkeyRegistry.Intent → Bool)

def Setting.Value : Setting → Type
  | typing setting => setting.Value
  | perfHistogram => Bool
  | registry => RegistryAnswers
  | registryOrDefault => RegistryAnswers
  | migratedRegistry => RegistryAnswers
  | excludedApps => List (List WChar)
  | forcedVnApps => List (List WChar)
  | smartSwitchApps => List WChar → Option Bool
  | tsfApps => List (List WChar)
  | appOverrides => List WChar → Option AppOverrideEntry
  | ui => UIConfig
  | hotkey => HotkeyConfig
  | system => SystemConfig
  | convert => ConvertConfig
  | macros => List WChar → Option (List WChar)

/-- The value of a setting that the loaders return. -/
def Loaded.get (loaded : Loaded) : (setting : Setting) → setting.Value
  | .typing setting => loaded.typing.get setting
  | .perfHistogram => loaded.typing.perfHistogramEnabled
  | .registry => (loaded.registryTriggers, loaded.registryEnabled)
  | .registryOrDefault => (loaded.orDefaultTriggers, loaded.orDefaultEnabled)
  | .migratedRegistry => (loaded.migratedTriggers, loaded.migratedEnabled)
  | .excludedApps => loaded.excludedApps
  | .forcedVnApps => loaded.forcedVnApps
  | .smartSwitchApps => loaded.smartSwitchApps
  | .tsfApps => loaded.tsfApps
  | .appOverrides => loaded.appOverrides
  | .ui => loaded.ui
  | .hotkey => loaded.hotkey
  | .system => loaded.system
  | .convert => loaded.convert
  | .macros => loaded.macros

/-- The saves of one section, with their data. -/
inductive SectionSave where
  | hotkeyRegistry (registry : HotkeyRegistry)
  | excludedApps (apps : List (List WChar))
  | forcedVnApps (apps : List (List WChar))
  | smartSwitchApps (apps : WideMap Bool)
  | tsfApps (apps : List (List WChar))
  | appOverrides (data : WideMap AppOverrideEntry)

def SectionSave.toSave : SectionSave → Save
  | hotkeyRegistry registry => .hotkeyRegistry registry
  | excludedApps apps => .excludedApps apps
  | forcedVnApps apps => .forcedVnApps apps
  | smartSwitchApps apps => .smartSwitchApps apps
  | tsfApps apps => .tsfApps apps
  | appOverrides data => .appOverrides data

/-- The writers of the file, with the values that they mean to give. -/
inductive Writer where
  /-- Loads the typing configuration, changes one setting and saves. -/
  | typing (setting : TypingSetting) (value : setting.Value)
  | saving (save : SectionSave)
  /-- `CommitLexiconUpdate` -/
  | lexicon (spellSuggestEnabled : Bool) (spellExclusions : List (List WChar))

/-- The value that a writer means to give the setting.  The save of the registry means to keep the
flag of Esc in step. -/
def Writer.meant : Writer → (setting : Setting) → Option setting.Value
  | typing setting value, .typing other => if h : setting = other then some (h ▸ value) else none
  | saving (.hotkeyRegistry registry), .registry => some (registry.triggersFor, registry.isEnabled)
  | saving (.hotkeyRegistry registry), .registryOrDefault =>
      some (registry.triggersFor, registry.isEnabled)
  | saving (.hotkeyRegistry registry), .migratedRegistry =>
      some (registry.triggersFor, registry.isEnabled)
  | saving (.hotkeyRegistry registry), .typing (.flag .escRestoreRaw) =>
      some (escIsCancelTrigger registry)
  | saving (.excludedApps apps), .excludedApps => some apps
  | saving (.forcedVnApps apps), .forcedVnApps => some apps
  | saving (.smartSwitchApps apps), .smartSwitchApps => some apps.at?
  | saving (.tsfApps apps), .tsfApps => some apps
  | saving (.appOverrides data), .appOverrides => some data.at?
  | lexicon spellSuggestEnabled _, .typing (.flag .spellSuggest) => some spellSuggestEnabled
  | lexicon _ spellExclusions, .typing .spellExclusions => some spellExclusions
  | _, _ => none

end ConfigManager

end VKey
