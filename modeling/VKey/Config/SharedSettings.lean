import VKey.Config.Settings
import VKey.Hook.ConfigSync

/-!
# The settings that the shared state publishes

The input method, the level of the spell check, the code table and the features are in the
configuration file and in the shared state.  The features are bits of one word there.
-/

namespace VKey

namespace ConfigManager

open TomlTable
open HookEngine.ConfigSync (FeatureFlag)

inductive SpellCheckLevel where
  | off
  | standard
  | advanced
  deriving DecidableEq, Repr

/-- The setting of the file that a feature is. -/
def featureFlag : FeatureFlag → Flag
  | .modernOrtho => .modernOrtho
  | .autoCaps => .autoCaps
  | .allowZwjf => .allowZwjf
  | .autoRestoreEnabled => .autoRestore
  | .cjkAutoSwitch => .cjkAutoSwitch
  | .escRestoreRawEnabled => .escRestoreRaw
  | .beepOnSwitch => .beepOnSwitch
  | .macroEnabled => .macroEnabled
  | .macroInEnglish => .macroInEnglish
  | .quickConsonant => .quickConsonant
  | .quickStartConsonant => .quickStartConsonant
  | .quickEndConsonant => .quickEndConsonant
  | .smartSwitch => .smartSwitch
  | .excludeApps => .excludeApps
  | .autoCapsMacro => .autoCapsMacro
  | .macroTitleCase => .macroTitleCase
  | .allowEnglishBypass => .allowEnglishBypass
  | .debugLogEnabled => .debugLog
  | .suggestKeepChars => .suggestKeepChars
  | .hidePreeditUnderline => .hidePreeditUnderline
  | .macroUndoOnBackspace => .macroUndoOnBackspace

/-- The features in the order of `EncodeFeatureFlags`. -/
def featureFlags : List FeatureFlag :=
  [.modernOrtho, .autoCaps, .allowZwjf, .autoRestoreEnabled, .cjkAutoSwitch, .escRestoreRawEnabled,
    .beepOnSwitch, .macroEnabled, .macroInEnglish, .quickConsonant,
      .quickStartConsonant, .quickEndConsonant,
    .smartSwitch, .excludeApps, .autoCapsMacro, .macroTitleCase,
      .allowEnglishBypass, .debugLogEnabled,
    .suggestKeepChars, .hidePreeditUnderline, .macroUndoOnBackspace]

theorem featureFlag_injective : Function.Injective featureFlag := by
  intro f g h
  cases f <;> cases g <;> first | rfl | cases h

theorem featureFlag_ne_spell (f : FeatureFlag) :
    featureFlag f ≠ .spellCheck ∧ featureFlag f ≠ .spellSuggest := by
  cases f <;> exact ⟨nofun, nofun⟩

theorem mem_featureFlags (f : FeatureFlag) : f ∈ featureFlags := by
  cases f <;> decide

theorem mask_and_mask {f g : FeatureFlag} (h : g ≠ f) : g.mask &&& f.mask = 0 := by
  cases f <;> cases g <;> first | rfl | exact absurd rfl h

theorem mask_ne_zero (f : FeatureFlag) : f.mask ≠ 0 := by
  cases f <;> decide

/-! ## The settings -/

/-- The settings that are in the shared state. -/
inductive SharedSetting where
  | inputMethod
  | spellCheck
  | codeTable
  | feature (f : FeatureFlag)
  deriving DecidableEq

abbrev SharedSetting.Value : SharedSetting → Type
  | inputMethod => InputMethod
  | spellCheck => SpellCheckLevel
  | codeTable => CodeTable
  | feature _ => Bool

/-- A value of every setting. -/
abbrev SharedValues := (setting : SharedSetting) → setting.Value

namespace TypingConfig

def getSpellCheckLevel (config : TypingConfig) : SpellCheckLevel :=
  if !config.spellCheckEnabled then .off
  else if config.spellSuggestEnabled then .advanced
  else .standard

def setSpellCheckLevel (config : TypingConfig) (level : SpellCheckLevel) : TypingConfig :=
  { config with spellCheckEnabled := level != .off, spellSuggestEnabled := level == .advanced }

def encodeFeatureFlags (config : TypingConfig) : Nat :=
  featureFlags.foldl
    (fun flags f => if config.flag (featureFlag f) then flags ||| f.mask else flags) 0

/-- The values of the settings in a configuration. -/
def values (config : TypingConfig) : SharedValues
  | .inputMethod => config.inputMethod
  | .spellCheck => config.getSpellCheckLevel
  | .codeTable => config.codeTable
  | .feature f => config.flag (featureFlag f)

/-- The user changes one of the settings. -/
def change (config : TypingConfig) : (setting : SharedSetting) → setting.Value → TypingConfig
  | .inputMethod, value => { config with inputMethod := value }
  | .spellCheck, value => config.setSpellCheckLevel value
  | .codeTable, value => { config with codeTable := value }
  | .feature f, value => config.setFlag value (featureFlag f)

theorem getSpellCheckLevel_setSpellCheckLevel (config : TypingConfig) (level : SpellCheckLevel) :
    (config.setSpellCheckLevel level).getSpellCheckLevel = level := by
  cases level <;> rfl

theorem getSpellCheckLevel_congr {config config' : TypingConfig}
    (hcheck : config'.flag .spellCheck = config.flag .spellCheck)
    (hsuggest : config'.flag .spellSuggest = config.flag .spellSuggest) :
    config'.getSpellCheckLevel = config.getSpellCheckLevel := by
  have hcheck' : config'.spellCheckEnabled = config.spellCheckEnabled := hcheck
  have hsuggest' : config'.spellSuggestEnabled = config.spellSuggestEnabled := hsuggest
  rw [getSpellCheckLevel, getSpellCheckLevel, hcheck', hsuggest']

/-- A change of one setting leaves the others. -/
theorem values_change (config : TypingConfig) (setting : SharedSetting) (value : setting.Value) :
    (config.change setting value).values = Function.update config.values setting value := by
  funext other
  by_cases hother : other = setting
  · subst hother
    rw [Function.update_self]
    cases other with
    | spellCheck => exact config.getSpellCheckLevel_setSpellCheckLevel value
    | feature f => exact config.flag_setFlag_self value (featureFlag f)
    | inputMethod | codeTable => rfl
  · rw [Function.update_of_ne hother]
    cases setting with
    | feature f =>
        obtain ⟨hmethod, htable, -⟩ := config.setFlag_eq value (featureFlag f)
        obtain ⟨hcheck, hsuggest⟩ := featureFlag_ne_spell f
        cases other with
        | inputMethod => exact hmethod
        | codeTable => exact htable
        | spellCheck =>
            exact getSpellCheckLevel_congr (config.flag_setFlag_of_ne value hcheck.symm)
              (config.flag_setFlag_of_ne value hsuggest.symm)
        | feature g =>
            refine config.flag_setFlag_of_ne value fun hg => hother ?_
            rw [featureFlag_injective hg]
    | spellCheck =>
        cases other with
        | spellCheck => exact absurd rfl hother
        | feature g => cases g <;> rfl
        | inputMethod | codeTable => rfl
    | inputMethod | codeTable =>
        cases other with
        | feature g => cases g <;> rfl
        | inputMethod | codeTable | spellCheck => first | rfl | exact absurd rfl hother

/-- The bits that were encoded. -/
theorem encodeFeatureFlags_and_mask (config : TypingConfig) (f : FeatureFlag) :
    (config.encodeFeatureFlags &&& f.mask != 0) = config.flag (featureFlag f) := by
  have hfold : ∀ (features : List FeatureFlag) (flags : Nat),
      features.foldl
        (fun flags f => if config.flag (featureFlag f) then flags ||| f.mask else flags) flags &&&
          f.mask = 0 ↔
        flags &&& f.mask = 0 ∧ ∀ g ∈ features, config.flag (featureFlag g) = true →
          g.mask &&& f.mask = 0 := by
    intro features
    induction features with
    | nil => simp
    | cons g features ih =>
        intro flags
        rw [List.foldl_cons, ih, List.forall_mem_cons]
        split_ifs with hg
        · rw [Nat.and_or_distrib_right, Nat.or_eq_zero_iff]
          exact ⟨fun h => ⟨h.1.1, fun _ => h.1.2, h.2⟩, fun h => ⟨⟨h.1, h.2.1 hg⟩, h.2.2⟩⟩
        · exact ⟨fun h => ⟨h.1, fun htrue => absurd htrue hg, h.2⟩, fun h => ⟨h.1, h.2.2⟩⟩
  have hzero : config.encodeFeatureFlags &&& f.mask = 0 ↔ config.flag (featureFlag f) = false := by
    rw [encodeFeatureFlags, hfold]
    constructor
    · rintro ⟨-, hall⟩
      rw [← Bool.not_eq_true]
      intro hset
      have hself := hall f (mem_featureFlags f) hset
      rw [Nat.and_self] at hself
      exact mask_ne_zero f hself
    · refine fun hunset => ⟨Nat.zero_and _, fun g _ hset => ?_⟩
      refine mask_and_mask fun heq => ?_
      rw [heq, hunset] at hset
      cases hset
  cases hflag : config.flag (featureFlag f) with
  | false =>
      rw [hzero.mpr hflag]
      rfl
  | true =>
      refine bne_iff_ne.mpr fun h => ?_
      rw [hzero.mp h] at hflag
      cases hflag

end TypingConfig

/-! ## The shared state -/

/-- The fields of the shared state that the settings write. -/
structure SharedFields where
  inputMethod : InputMethod
  spellCheck : SpellCheckLevel
  codeTable : CodeTable
  featureFlags : Nat
  diagFlags : Nat
  configGeneration : BitVec 8

namespace SharedFields

/-- The values of the settings in the shared state. -/
def values (state : SharedFields) : SharedValues
  | .inputMethod => state.inputMethod
  | .spellCheck => state.spellCheck
  | .codeTable => state.codeTable
  | .feature f => state.featureFlags &&& f.mask != 0

/-- The engine has something to load. -/
def bump (state : SharedFields) : SharedFields :=
  { state with configGeneration := state.configGeneration + 1 }

/-- What the writers of a configuration store over the state that they have read. -/
def publish (state : SharedFields) (config : TypingConfig) : SharedFields :=
  { state with
    inputMethod := config.inputMethod
    spellCheck := config.getSpellCheckLevel
    codeTable := config.codeTable
    featureFlags := config.encodeFeatureFlags }

theorem values_bump (state : SharedFields) : state.bump.values = state.values := by
  funext setting
  cases setting <;> rfl

/-- The shared state has the values of the configuration that was published. -/
theorem values_publish (state : SharedFields) (config : TypingConfig) :
    (state.publish config).values = config.values := by
  funext setting
  cases setting with
  | feature f => exact config.encodeFeatureFlags_and_mask f
  | _ => rfl

theorem values_codeTable (state : SharedFields) (codeTable : SharedSetting.codeTable.Value) :
    ({ state with codeTable := codeTable } : SharedFields).values =
      Function.update state.values .codeTable codeTable := by
  funext setting
  by_cases h : setting = .codeTable
  · subst h
    rw [Function.update_self]
    rfl
  · rw [Function.update_of_ne h]
    cases setting with
    | codeTable => exact absurd rfl h
    | inputMethod | spellCheck | feature f => rfl

theorem values_spellCheck (state : SharedFields) (level : SharedSetting.spellCheck.Value) :
    ({ state with spellCheck := level } : SharedFields).values =
      Function.update state.values .spellCheck level := by
  funext setting
  by_cases h : setting = .spellCheck
  · subst h
    rw [Function.update_self]
    rfl
  · rw [Function.update_of_ne h]
    cases setting with
    | spellCheck => exact absurd rfl h
    | inputMethod | codeTable | feature f => rfl

end SharedFields

/-! ## The file -/

section File

variable [WideText] [WideCType]

theorem loadFeatures_saveFeatures_eq {table : TomlTable} {config other : TypingConfig}
    (htable : table.tableAt "features" = some (saveFeatures config)) :
    loadFeatures table other =
      { config with
        inputMethod := other.inputMethod
        codeTable := other.codeTable
        customKeyMap := other.customKeyMap
        perfHistogramEnabled := other.perfHistogramEnabled
        spellExclusions := (loadFeatures table other).spellExclusions } := by
  rw [loadFeatures, htable]
  simp [saveFeatures, TomlNode.valueBool, TomlNode.asArray, valueInt_byte, ofInt_toNat_byte]

/-- The settings that were saved are loaded, whatever the lists and the key map are. -/
theorem values_saveToFile (table : TomlTable) (config : TypingConfig) :
    (loadFromFile (saveToFile table config)).values = config.values := by
  have hkeyMap : ∀ other : TypingConfig, ∃ customKeyMap,
      loadKeyMap (saveToFile table config) other = { other with customKeyMap } := by
    intro other
    rw [loadKeyMap]
    split <;> exact ⟨_, rfl⟩
  obtain ⟨customKeyMap, hkeyMap⟩ := hkeyMap (loadInput (saveToFile table config) {})
  rw [loadFromFile, hkeyMap, loadInput_saveToFile,
    loadFeatures_saveFeatures_eq (saveToFile_features table config), loadDebug_eq _ rfl]
  funext setting
  cases setting with
  | feature f => cases f <;> rfl
  | _ => rfl

end File

end ConfigManager

end VKey
