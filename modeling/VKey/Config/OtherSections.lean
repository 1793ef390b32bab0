import VKey.Config.TypingSection
import VKey.Hook.HotkeyManager

/-!
# The other sections of the configuration file

The loaders of the sections that no save of the application lists, the registry or the typing
configuration writes.
-/

namespace VKey

namespace ConfigManager

structure UIConfig where
  showAdvanced : Bool := false
  backgroundOpacity : UInt8 := 80
  pinned : Bool := false

structure SystemConfig where
  runAtStartup : Bool := false
  runAsAdmin : Bool := false
  showOnStartup : Bool := true
  desktopShortcut : Bool := false
  forceLightTheme : Bool := false
  language : UInt8 := 0
  iconStyle : UInt8 := 0
  customColorV : UInt32 := 0
  customColorE : UInt32 := 0
  showTsfIndicator : Bool := false
  showFloatingIcon : Bool := false
  floatingIconX : Int32 := Int32.minValue
  floatingIconY : Int32 := Int32.minValue
  startupMode : UInt8 := 0
  autoCheckUpdate : Bool := true
  watchdogEnabled : Bool := false
  browserExtensionEnabled : Bool := false

/-- The options of the quick conversion. -/
structure ConvertConfig where
  allCaps : Bool := false
  allLower : Bool := false
  capsFirst : Bool := false
  capsEach : Bool := false
  removeMark : Bool := false
  alertDone : Bool := false
  autoPaste : Bool := false
  sequential : Bool := false
  enableLog : Bool := false
  sourceEncoding : UInt8 := 0
  destEncoding : UInt8 := 0
  hotkey : HotkeyConfig := {}

def kMaxMacroKeyLen : Nat := 32
def kMaxMacroValueLen : Nat := 20480

def loadUIConfig (table : TomlTable) : UIConfig :=
  match table.tableAt "ui" with
  | some ui =>
      { showAdvanced := ui.boolOr "show_advanced" false
        backgroundOpacity := UInt8.ofInt (ui.intOr "background_opacity" 80)
        pinned := ui.boolOr "pinned" false }
  | none => {}

def loadSystemConfig (table : TomlTable) : SystemConfig :=
  match table.tableAt "system" with
  | some system =>
      { runAtStartup := system.boolOr "run_at_startup" false
        runAsAdmin := system.boolOr "run_as_admin" false
        showOnStartup := system.boolOr "show_on_startup" false
        desktopShortcut := system.boolOr "desktop_shortcut" false
        language := UInt8.ofInt (system.intOr "language" 0)
        iconStyle := UInt8.ofInt (system.intOr "icon_style" 0)
        customColorV := UInt32.ofInt (system.int64Or "custom_color_v" 0)
        customColorE := UInt32.ofInt (system.int64Or "custom_color_e" 0)
        showTsfIndicator := system.boolOr "show_tsf_indicator" false
        showFloatingIcon := system.boolOr "show_floating_icon" false
        floatingIconX := Int32.ofInt (system.int64Or "floating_icon_x" (-0x80000000))
        floatingIconY := Int32.ofInt (system.int64Or "floating_icon_y" (-0x80000000))
        autoCheckUpdate := system.boolOr "auto_check_update" true
        startupMode := UInt8.ofInt (system.intOr "startup_mode" 0)
        forceLightTheme := system.boolOr "force_light_theme" false
        watchdogEnabled := system.boolOr "watchdog_enabled" false
        browserExtensionEnabled := system.boolOr "browser_extension_enabled" false }
  | none => {}

/-- An entry of `[macros]`, with a conversion of the text; the limits are in bytes. -/
def loadMacro {Wide : Type} [DecidableEq Wide] (toWide : String → List Wide)
    (data : List Wide → Option (List Wide)) (entry : String × TomlNode) :
    List Wide → Option (List Wide) :=
  match entry.2.asString with
  | none => data
  | some str =>
      if entry.1.utf8ByteSize > kMaxMacroKeyLen ∨ str.utf8ByteSize > kMaxMacroValueLen then data
      else Function.update data (toWide entry.1) (some (toWide str))

def loadMacros {Wide : Type} [DecidableEq Wide] (toWide : String → List Wide) (table : TomlTable) :
    List Wide → Option (List Wide) :=
  match table.tableAt "macros" with
  | some sectionTbl => sectionTbl.foldl (loadMacro toWide) fun _ => none
  | none => fun _ => none

variable [WideText]

variable [WideCType]

/-- The letter or digit of an older file. -/
def legacyKeyCharToVk (s : List WChar) : Nat :=
  match s with
  | [c] =>
      if (L 'A' ≤ towupper c ∧ towupper c ≤ L 'Z') ∨ (L '0' ≤ towupper c ∧ towupper c ≤ L '9') then
        towupper c
      else 0
  | _ => 0

/-- The key of a hotkey; older files have a letter in its place. -/
def hotkeyVk (hotkey : TomlTable) : Nat :=
  match (hotkey.find? "vk").bind TomlNode.asInteger with
  | some vk => (UInt32.ofInt vk).toNat
  | none =>
      let keyStr := hotkey.stringOr "key" ""
      if keyStr.isEmpty then 0 else legacyKeyCharToVk (utf8ToWide keyStr)

def loadHotkeyConfig (table : TomlTable) : HotkeyConfig :=
  match table.tableAt "hotkey" with
  | some hotkey =>
      { ctrl := hotkey.boolOr "ctrl" true
        shift := hotkey.boolOr "shift" true
        alt := hotkey.boolOr "alt" false
        win := hotkey.boolOr "win" false
        vk := hotkeyVk hotkey }
  | none => { ctrl := true, shift := true }

def loadConvertConfig (table : TomlTable) : ConvertConfig :=
  match table.tableAt "convert" with
  | some convert =>
      { allCaps := convert.boolOr "all_caps" false
        allLower := convert.boolOr "all_lower" false
        capsFirst := convert.boolOr "caps_first" false
        capsEach := convert.boolOr "caps_each" false
        removeMark := convert.boolOr "remove_mark" false
        alertDone := convert.boolOr "alert_done" false
        autoPaste := convert.boolOr "auto_paste" false
        sequential := convert.boolOr "sequential" false
        enableLog := convert.boolOr "enable_log" false
        sourceEncoding := UInt8.ofInt (convert.intOr "source_encoding" 0)
        destEncoding := UInt8.ofInt (convert.intOr "dest_encoding" 0)
        hotkey :=
          match convert.tableAt "hotkey" with
          | some hk =>
              { ctrl := hk.boolOr "ctrl" false
                shift := hk.boolOr "shift" false
                alt := hk.boolOr "alt" false
                win := hk.boolOr "win" false
                vk := hotkeyVk hk }
          | none => {} }
  | none => {}

end ConfigManager

end VKey
