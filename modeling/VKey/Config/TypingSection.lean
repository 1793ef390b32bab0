import VKey.CodeTable.Tables
import VKey.Engine.State
import VKey.Support.TomlTable

/-!
# The typing configuration in the configuration file

`LoadFromFile` reads `[input]`, `[UserDefinedKeyMap]`, `[features]` and `[debug]`; `SaveToFile`
writes the first three anew.
-/

namespace VKey

/-- The conversions between wide strings and UTF-8; a wide string comes back as it was. -/
class WideText where
  wideToUtf8 : List WChar → String
  utf8ToWide : String → List WChar
  utf8ToWide_wideToUtf8 : ∀ text, utf8ToWide (wideToUtf8 text) = text

export WideText (wideToUtf8 utf8ToWide)

attribute [simp] WideText.utf8ToWide_wideToUtf8

namespace ConfigManager

open TomlTable (insertOrAssign erase)

def typingActionToString : TypingAction → String
  | .none => "None"
  | .clearTone => "ClearTone"
  | .toneAcute => "ToneAcute"
  | .toneGrave => "ToneGrave"
  | .toneHook => "ToneHook"
  | .toneTilde => "ToneTilde"
  | .toneDot => "ToneDot"
  | .circumflexA => "CircumflexA"
  | .circumflexE => "CircumflexE"
  | .circumflexO => "CircumflexO"
  | .hornW => "HornW"
  | .hornInsertO => "HornInsertO"
  | .hornInsertU => "HornInsertU"
  | .strokeD => "StrokeD"
  | .vniCircumflex => "VniCircumflex"
  | .vniHorn => "VniHorn"
  | .vniBreve => "VniBreve"
  | .vniStroke => "VniStroke"
  | .hornOrInsertU => "HornOrInsertU"
  | .hornOrInsertUNoStart => "HornOrInsertUNoStart"
  | .undoAllMarks => "UndoAllMarks"
  | .insertABreve => "InsertABreve"
  | .insertABreveUpper => "InsertABreveUpper"
  | .insertACircumflex => "InsertACircumflex"
  | .insertACircumflexUpper => "InsertACircumflexUpper"
  | .insertDStroke => "InsertDStroke"
  | .insertDStrokeUpper => "InsertDStrokeUpper"
  | .insertECircumflex => "InsertECircumflex"
  | .insertECircumflexUpper => "InsertECircumflexUpper"
  | .insertOCircumflex => "InsertOCircumflex"
  | .insertOCircumflexUpper => "InsertOCircumflexUpper"
  | .insertOHorn => "InsertOHorn"
  | .insertOHornUpper => "InsertOHornUpper"
  | .insertUHorn => "InsertUHorn"
  | .insertUHornUpper => "InsertUHornUpper"

/-- The actions that have a name, in the order of the comparisons. -/
def namedActions : List TypingAction :=
  [.clearTone, .toneAcute, .toneGrave, .toneHook, .toneTilde, .toneDot, .circumflexA,
   .circumflexE, .circumflexO, .hornW, .hornInsertO, .hornInsertU, .strokeD, .vniCircumflex,
   .vniHorn, .vniBreve, .vniStroke, .hornOrInsertU, .hornOrInsertUNoStart, .undoAllMarks,
   .insertABreve, .insertABreveUpper, .insertACircumflex, .insertACircumflexUpper,
   .insertDStroke, .insertDStrokeUpper, .insertECircumflex, .insertECircumflexUpper,
   .insertOCircumflex, .insertOCircumflexUpper, .insertOHorn, .insertOHornUpper, .insertUHorn,
   .insertUHornUpper]

def stringToTypingAction (s : String) : TypingAction :=
  (namedActions.find? fun action => s == typingActionToString action).getD .none

theorem stringToTypingAction_typingActionToString (action : TypingAction) :
    stringToTypingAction (typingActionToString action) = action := by
  cases action <;> decide

/-- The typing configuration as the file has it. -/
structure TypingConfig where
  inputMethod : InputMethod := .telex
  codeTable : CodeTable := .unicode
  spellCheckEnabled : Bool := true
  spellSuggestEnabled : Bool := false
  beepOnSwitch : Bool := false
  smartSwitch : Bool := false
  excludeApps : Bool := false
  tsfApps : Bool := false
  hidePreeditUnderline : Bool := false
  optimizeLevel : UInt8 := 0
  modernOrtho : Bool := true
  autoCaps : Bool := false
  allowZwjf : Bool := false
  autoRestoreEnabled : Bool := true
  cjkAutoSwitch : Bool := false
  macroEnabled : Bool := false
  macroInEnglish : Bool := false
  quickConsonant : Bool := false
  quickStartConsonant : Bool := false
  quickEndConsonant : Bool := false
  escRestoreRawEnabled : Bool := false
  autoCapsMacro : Bool := false
  macroUndoOnBackspace : Bool := false
  macroTitleCase : Bool := false
  allowEnglishBypass : Bool := false
  suggestKeepChars : Bool := false
  debugLogEnabled : Bool := false
  enableToast : Bool := true
  perfHistogramEnabled : Bool := false
  macroTriggerSpace : Bool := true
  macroTriggerEnter : Bool := true
  macroTriggerTab : Bool := true
  macroTriggerDir : Bool := true
  spellExclusions : List (List WChar) := []
  /-- The key map of the user, by ASCII code. -/
  customKeyMap : Fin 128 → TypingAction := fun _ => .none

def inputMethodOf (methodStr : String) : InputMethod :=
  if methodStr = "vni" then .vni
  else if methodStr = "simple_telex" then .simpleTelex
  else if methodStr = "combined" then .combined
  else if methodStr = "user_defined" then .userDefined
  else .telex

def methodStr : InputMethod → String
  | .telex => "telex"
  | .vni => "vni"
  | .simpleTelex => "simple_telex"
  | .combined => "combined"
  | .userDefined => "user_defined"

def codeTables : List CodeTable :=
  [.unicode, .tcvn3, .vniWindows, .unicodeCompound, .vietnameseLocale]

/-- The table of the number; a number without a table leaves the default. -/
def codeTableOf (value : Int) : CodeTable :=
  if 0 ≤ value then (codeTables[value.toNat]?).getD .unicode else .unicode

def codeTableNumber (table : CodeTable) : Nat := codeTables.idxOf table

theorem inputMethodOf_methodStr (method : InputMethod) :
    inputMethodOf (methodStr method) = method := by
  cases method <;> decide

theorem codeTableOf_codeTableNumber (table : CodeTable) :
    codeTableOf (codeTableNumber table) = table := by
  cases table <;> decide

variable [WideText]

/-- An entry of the key map: the first byte of the key is the key that is mapped. -/
def loadCustomKey (map : Fin 128 → TypingAction) (entry : String × TomlNode) :
    Fin 128 → TypingAction :=
  match entry.1.toList with
  | [] => map
  | k :: _ =>
      if h : k.toNat < 128 then
        match entry.2.asString with
        | some action => Function.update map ⟨k.toNat, h⟩ (stringToTypingAction action)
        | none => map
      else map

def loadCustomKeyMap (keyMap : TomlTable) (map : Fin 128 → TypingAction) : Fin 128 → TypingAction :=
  keyMap.foldl loadCustomKey map

/-- The key of an entry; that of the code 0 is the empty string. -/
def customKey (i : Fin 128) : String := if i = 0 then "" else String.singleton (Char.ofNat i)

def saveCustomKeyMap (map : Fin 128 → TypingAction) : TomlTable :=
  (List.finRange 128).foldl (fun keyMap i =>
    if map i = .none then keyMap
    else keyMap.insertOrAssign (customKey i) (.string (typingActionToString (map i)))) []

variable [WideCType]

/-- The exclusions of two units and more, lower-cased. -/
def loadSpellExclusions (items : List TomlNode) : List (List WChar) :=
  (items.filterMap fun item => item.asString.map utf8ToWide).filterMap fun wide =>
    if 2 ≤ wide.length then some (wide.map towlower) else none

def saveSpellExclusions (spellExclusions : List (List WChar)) : List TomlNode :=
  (spellExclusions.filter fun wide => 2 ≤ wide.length).map fun wide => .string (wideToUtf8 wide)

def loadInput (table : TomlTable) (config : TypingConfig) : TypingConfig :=
  match table.tableAt "input" with
  | some input =>
      { config with
        inputMethod := inputMethodOf (input.stringOr "method" "telex")
        codeTable := codeTableOf (input.intOr "code_table" 0) }
  | none => config

def loadKeyMap (table : TomlTable) (config : TypingConfig) : TypingConfig :=
  match table.tableAt "UserDefinedKeyMap" with
  | some keyMap => { config with customKeyMap := loadCustomKeyMap keyMap config.customKeyMap }
  | none => config

def loadFeatures (table : TomlTable) (config : TypingConfig) : TypingConfig :=
  match table.tableAt "features" with
  | some features =>
      { config with
        spellCheckEnabled := features.boolOr "spell_check" true
        spellSuggestEnabled := features.boolOr "spell_suggest" false
        beepOnSwitch := features.boolOr "beep_on_switch" false
        smartSwitch := features.boolOr "smart_switch" false
        excludeApps := features.boolOr "exclude_apps" false
        tsfApps := features.boolOr "tsf_apps" false
        hidePreeditUnderline := features.boolOr "hide_preedit_underline" false
        optimizeLevel := UInt8.ofInt (features.intOr "optimize_level" 0)
        modernOrtho := features.boolOr "modern_ortho" true
        autoCaps := features.boolOr "auto_caps" false
        allowZwjf := features.boolOr "allow_zwjf" false
        autoRestoreEnabled := features.boolOr "auto_restore" true
        cjkAutoSwitch := features.boolOr "cjk_auto_switch" false
        macroEnabled := features.boolOr "macro_enabled" false
        macroInEnglish := features.boolOr "macro_in_english" false
        quickConsonant := features.boolOr "quick_consonant" false
        quickStartConsonant := features.boolOr "quick_start_consonant" false
        quickEndConsonant := features.boolOr "quick_end_consonant" false
        escRestoreRawEnabled := features.boolOr "esc_restore_raw" false
        autoCapsMacro := features.boolOr "auto_caps_macro" false
        macroUndoOnBackspace := features.boolOr "macro_undo_on_backspace" false
        macroTitleCase := features.boolOr "macro_title_case" false
        allowEnglishBypass := features.boolOr "allow_english_bypass" false
        suggestKeepChars := features.boolOr "suggest_keep_chars" false
        debugLogEnabled := features.boolOr "debug_log" false
        enableToast := features.boolOr "enable_toast" true
        macroTriggerSpace := features.boolOr "macro_trigger_space" true
        macroTriggerEnter := features.boolOr "macro_trigger_enter" true
        macroTriggerTab := features.boolOr "macro_trigger_tab" true
        macroTriggerDir := features.boolOr "macro_trigger_dir" true
        spellExclusions :=
          config.spellExclusions ++ loadSpellExclusions
            ((features.arrayAt "spell_exclusions").getD []) }
  | none => config

def loadDebug (table : TomlTable) (config : TypingConfig) : TypingConfig :=
  match table.tableAt "debug" with
  | some dbg => { config with perfHistogramEnabled := dbg.boolOr "perf_histogram" false }
  | none => config

/-- `LoadFromFile`, on a file that has been parsed. -/
def loadFromFile (table : TomlTable) : TypingConfig :=
  loadDebug table (loadFeatures table (loadKeyMap table (loadInput table {})))

def saveInput (config : TypingConfig) : TomlTable :=
  ([] : TomlTable)
    |> insertOrAssign "method" (.string (methodStr config.inputMethod))
    |> insertOrAssign "code_table" (.integer (codeTableNumber config.codeTable))

def saveFeatures (config : TypingConfig) : TomlTable :=
  ([] : TomlTable)
    |> insertOrAssign "spell_check" (.boolean config.spellCheckEnabled)
    |> insertOrAssign "spell_suggest" (.boolean config.spellSuggestEnabled)
    |> insertOrAssign "beep_on_switch" (.boolean config.beepOnSwitch)
    |> insertOrAssign "smart_switch" (.boolean config.smartSwitch)
    |> insertOrAssign "exclude_apps" (.boolean config.excludeApps)
    |> insertOrAssign "tsf_apps" (.boolean config.tsfApps)
    |> insertOrAssign "hide_preedit_underline" (.boolean config.hidePreeditUnderline)
    |> insertOrAssign "optimize_level" (.integer config.optimizeLevel.toNat)
    |> insertOrAssign "modern_ortho" (.boolean config.modernOrtho)
    |> insertOrAssign "auto_caps" (.boolean config.autoCaps)
    |> insertOrAssign "allow_zwjf" (.boolean config.allowZwjf)
    |> insertOrAssign "auto_restore" (.boolean config.autoRestoreEnabled)
    |> insertOrAssign "cjk_auto_switch" (.boolean config.cjkAutoSwitch)
    -- HotkeyRegistry owns these triggers now
    |> erase "temp_off_method"
    |> erase "temp_off_macro_esc"
    |> erase "temp_off_by_alt"
    |> insertOrAssign "macro_enabled" (.boolean config.macroEnabled)
    |> insertOrAssign "macro_in_english" (.boolean config.macroInEnglish)
    |> insertOrAssign "quick_consonant" (.boolean config.quickConsonant)
    |> insertOrAssign "quick_start_consonant" (.boolean config.quickStartConsonant)
    |> insertOrAssign "quick_end_consonant" (.boolean config.quickEndConsonant)
    |> insertOrAssign "esc_restore_raw" (.boolean config.escRestoreRawEnabled)
    |> insertOrAssign "auto_caps_macro" (.boolean config.autoCapsMacro)
    |> insertOrAssign "macro_undo_on_backspace" (.boolean config.macroUndoOnBackspace)
    |> insertOrAssign "macro_title_case" (.boolean config.macroTitleCase)
    |> insertOrAssign "allow_english_bypass" (.boolean config.allowEnglishBypass)
    |> insertOrAssign "suggest_keep_chars" (.boolean config.suggestKeepChars)
    |> insertOrAssign "debug_log" (.boolean config.debugLogEnabled)
    |> insertOrAssign "enable_toast" (.boolean config.enableToast)
    |> insertOrAssign "macro_trigger_space" (.boolean config.macroTriggerSpace)
    |> insertOrAssign "macro_trigger_enter" (.boolean config.macroTriggerEnter)
    |> insertOrAssign "macro_trigger_tab" (.boolean config.macroTriggerTab)
    |> insertOrAssign "macro_trigger_dir" (.boolean config.macroTriggerDir)
    |> insertOrAssign "spell_exclusions" (.array (saveSpellExclusions config.spellExclusions))

/-- `SaveToFile`, on the file that it has read. -/
def saveToFile (table : TomlTable) (config : TypingConfig) : TomlTable :=
  let keyMap := saveCustomKeyMap config.customKeyMap
  let table := table.insertOrAssign "input" (.table (saveInput config))
  let table :=
    if keyMap.isEmpty then table.erase "UserDefinedKeyMap"
    else table.insertOrAssign "UserDefinedKeyMap" (.table keyMap)
  table.insertOrAssign "features" (.table (saveFeatures config))

end ConfigManager

end VKey
