import VKey.Support.TomlTable

/-!
# The registry of the hotkeys

`[[hotkeys]]` lists the triggers of the intents and `[hotkey_state]` says which of them are enabled.
A file without the second section is from before the registry; its toggles are in `[features]`.
-/

namespace VKey

namespace HotkeyRegistry

inductive Intent where
  | cancelComposition
  | skipMacro
  | toggleEnabled
  | toggleGameMode
  deriving DecidableEq, Repr

structure Trigger where
  vk : UInt32 := 0
  mods : UInt32 := 0
  doubleTap : Bool := false
  deriving DecidableEq, Repr

def kAllIntents : List Intent := [.cancelComposition, .skipMacro, .toggleEnabled, .toggleGameMode]

def kVkShift : UInt32 := 0x10
def kVkControl : UInt32 := 0x11
def kVkMenu : UInt32 := 0x12
def kVkLwin : UInt32 := 0x5B
def kVkRwin : UInt32 := 0x5C
def kVkEscape : UInt32 := 0x1B

def intentToString : Intent → String
  | .cancelComposition => "cancel-composition"
  | .skipMacro => "skip-macro"
  | .toggleEnabled => "toggle-enabled"
  | .toggleGameMode => "toggle-game-mode"

def parseIntent (s : String) : Option Intent :=
  if s = "cancel-composition" then some .cancelComposition
  else if s = "skip-macro" then some .skipMacro
  else if s = "toggle-enabled" then some .toggleEnabled
  else if s = "toggle-game-mode" then some .toggleGameMode
  else none

def intentStateKey : Intent → String
  | .cancelComposition => "cancel_composition"
  | .skipMacro => "skip_macro"
  | .toggleEnabled => "toggle_enabled"
  | .toggleGameMode => "toggle_game_mode"

theorem parseIntent_intentToString (intent : Intent) :
    parseIntent (intentToString intent) = some intent := by
  cases intent <;> decide

theorem intentStateKey_injective : Function.Injective intentStateKey := by
  intro a b h
  cases a <;> cases b <;> first | rfl | exact absurd h (by decide)

def isModifierKey (vk : UInt32) : Bool :=
  vk == kVkShift || vk == kVkControl || vk == kVkMenu || vk == kVkLwin || vk == kVkRwin

end HotkeyRegistry

open HotkeyRegistry

/-- The triggers of each intent, and whether it is enabled; an intent without a flag is. -/
structure HotkeyRegistry where
  triggers : Intent → List Trigger := fun _ => []
  enabled : Intent → Option Bool := fun _ => none

namespace HotkeyRegistry

open TomlTable (insertOrAssign)

def triggersFor (registry : HotkeyRegistry) (intent : Intent) : List Trigger :=
  registry.triggers intent

def addTrigger (registry : HotkeyRegistry) (intent : Intent) (trigger : Trigger) : HotkeyRegistry :=
  { registry with
    triggers := Function.update registry.triggers intent (registry.triggers intent ++ [trigger]) }

def isEnabled (registry : HotkeyRegistry) (intent : Intent) : Bool :=
  (registry.enabled intent).getD true

def setEnabled (registry : HotkeyRegistry) (intent : Intent) (enabled : Bool) : HotkeyRegistry :=
  { registry with enabled := Function.update registry.enabled intent (some enabled) }

/-- The trigger fires on the event. -/
def Trigger.fires (t : Trigger) (vk mods : UInt32) (isDoubleTap keyUp : Bool) : Bool :=
  if t.vk ≠ vk then false
  else if t.doubleTap then isDoubleTap && mods == t.mods
  else if isModifierKey t.vk then keyUp && !isDoubleTap && mods == t.mods
  else !keyUp && !isDoubleTap && mods == t.mods

def matchesTrigger (registry : HotkeyRegistry) (intent : Intent) (vk mods : UInt32)
    (isDoubleTap keyUp : Bool) : Bool :=
  registry.isEnabled intent &&
    (registry.triggers intent).any fun t => t.fires vk mods isDoubleTap keyUp

def defaults : HotkeyRegistry :=
  let cfg : HotkeyRegistry := {}
  let cfg := cfg.addTrigger .cancelComposition { vk := kVkEscape }
  let cfg := cfg.addTrigger .skipMacro { vk := kVkEscape }
  let cfg := cfg.addTrigger .toggleEnabled { vk := kVkControl }
  let cfg := cfg.addTrigger .toggleEnabled { vk := kVkMenu, doubleTap := true }
  let cfg := cfg.setEnabled .cancelComposition false
  let cfg := cfg.setEnabled .skipMacro false
  let cfg := cfg.setEnabled .toggleEnabled false
  cfg.setEnabled .toggleGameMode false

/-- The three toggles of a file from before the registry; `tempOffMethod` is 1 for two taps of Alt
and 2 for Ctrl. -/
structure LegacyHotkeyToggles where
  escRestoreRaw : Bool := false
  tempOffMacroEsc : Bool := false
  tempOffMethod : Fin 3 := 0
  deriving DecidableEq, Repr

/-- The toggles of a file in which only that of Esc is left. -/
def LegacyHotkeyToggles.ofEsc (escRestoreRaw : Bool) : LegacyHotkeyToggles := { escRestoreRaw }

def fromLegacyFields (legacy : LegacyHotkeyToggles) : HotkeyRegistry :=
  let cfg : HotkeyRegistry := {}
  let cfg := if legacy.escRestoreRaw then cfg.addTrigger .cancelComposition
    { vk := kVkEscape } else cfg
  let cfg := if legacy.tempOffMacroEsc then cfg.addTrigger .skipMacro { vk := kVkEscape } else cfg
  let cfg :=
    match legacy.tempOffMethod with
    | 1 => cfg.addTrigger .toggleEnabled { vk := kVkMenu, doubleTap := true }
    | 2 => cfg.addTrigger .toggleEnabled { vk := kVkControl }
    | _ => cfg
  let cfg := cfg.setEnabled .cancelComposition legacy.escRestoreRaw
  let cfg := cfg.setEnabled .skipMacro legacy.tempOffMacroEsc
  let cfg := cfg.setEnabled .toggleEnabled (legacy.tempOffMethod != 0)
  cfg.setEnabled .toggleGameMode false

/-- The trigger of a row; one without a key is rejected. -/
def parseTrigger (triggerTbl : TomlTable) : Option Trigger :=
  match (triggerTbl.find? "vk").bind TomlNode.asInteger with
  | none => none
  | some vk =>
      if UInt32.ofInt vk = 0 then none
      else some {
        vk := UInt32.ofInt vk
        mods := (((triggerTbl.find? "mods").bind TomlNode.asInteger).map UInt32.ofInt).getD 0
        doubleTap := ((triggerTbl.find? "double_tap").bind TomlNode.asBoolean).getD false }

/-- A row of `[[hotkeys]]`; what is no row of a known intent is skipped. -/
def parseRow (node : TomlNode) : Option (Intent × Trigger) := do
  let row ← node.asTable
  let intent ← ((row.find? "intent").bind TomlNode.asString).bind parseIntent
  let trigger ← ((row.find? "trigger").bind TomlNode.asTable).bind parseTrigger
  return (intent, trigger)

def load (registry : HotkeyRegistry) (cfg : List TomlNode) : HotkeyRegistry :=
  (cfg.filterMap parseRow).foldl (fun registry row => registry.addTrigger row.1 row.2)
    { registry with triggers := fun _ => [] }

def triggerTable (t : Trigger) : TomlTable :=
  let trig := ([] : TomlTable)
    |> insertOrAssign "vk" (.integer t.vk.toNat)
    |> insertOrAssign "mods" (.integer t.mods.toNat)
  if t.doubleTap then insertOrAssign "double_tap" (.boolean true) trig else trig

def rowNode (intent : Intent) (t : Trigger) : TomlNode :=
  .table (([] : TomlTable)
    |> insertOrAssign "intent" (.string (intentToString intent))
    |> insertOrAssign "trigger" (.table (triggerTable t)))

def save (registry : HotkeyRegistry) : List TomlNode :=
  kAllIntents.flatMap fun intent => (registry.triggers intent).map (rowNode intent)

def loadEnabled (registry : HotkeyRegistry) (tbl : TomlTable) : HotkeyRegistry :=
  { registry with
      enabled := fun intent => (tbl.find? (intentStateKey intent)).bind TomlNode.asBoolean }

def saveEnabled (registry : HotkeyRegistry) : TomlTable :=
  kAllIntents.foldl (fun tbl intent =>
    tbl.insertOrAssign (intentStateKey intent) (.boolean (registry.isEnabled intent))) []

/-- What can be asked of a registry. -/
def Alike (a b : HotkeyRegistry) : Prop :=
  (∀ intent, a.triggersFor intent = b.triggersFor intent) ∧
    ∀ intent, a.isEnabled intent = b.isEnabled intent

end HotkeyRegistry

namespace ConfigManager

open TomlTable (insertOrAssign)

def loadHotkeyRegistry (table : TomlTable) : HotkeyRegistry :=
  let registry : HotkeyRegistry := {}
  let registry :=
    match table.arrayAt "hotkeys" with
    | some arr => registry.load arr
    | none => registry
  match table.tableAt "hotkey_state" with
  | some stateTbl => registry.loadEnabled stateTbl
  | none => registry

/-- Esc alone cancels the composition. -/
def escIsCancelTrigger (registry : HotkeyRegistry) : Bool :=
  registry.matchesTrigger .cancelComposition kVkEscape 0 false false

def saveHotkeyRegistry (table : TomlTable) (registry : HotkeyRegistry) : TomlTable :=
  let table := table.insertOrAssign "hotkeys" (.array registry.save)
  let table := table.insertOrAssign "hotkey_state" (.table registry.saveEnabled)
  let features := (table.tableAt "features").getD []
  table.insertOrAssign "features"
    (.table (features.insertOrAssign "esc_restore_raw" (.boolean (escIsCancelTrigger registry))))

def hasHotkeyStateSection (table : TomlTable) : Bool := (table.find? "hotkey_state").isSome

/-- No intent that a file from before the registry can have bound is bound. -/
def noTriggers (registry : HotkeyRegistry) : Bool :=
  (registry.triggersFor .cancelComposition).isEmpty && (registry.triggersFor .skipMacro).isEmpty &&
    (registry.triggersFor .toggleEnabled).isEmpty

/-- `LoadHotkeyRegistryOrDefault`, on a file that has been parsed. -/
def loadHotkeyRegistryOrDefault (table : TomlTable) : HotkeyRegistry :=
  let registry := loadHotkeyRegistry table
  if hasHotkeyStateSection table then registry
  else if noTriggers registry then .defaults
  else registry

def readLegacyHotkeyToggles (table : TomlTable) : LegacyHotkeyToggles :=
  match table.tableAt "features" with
  | none => {}
  | some features =>
      { escRestoreRaw := features.boolOr "esc_restore_raw" false
        tempOffMacroEsc := features.boolOr "temp_off_macro_esc" false
        tempOffMethod :=
          match (features.find? "temp_off_method").bind TomlNode.valueInt64 with
          | some m => if m % 0x100000000 = 1 then 1 else if m % 0x100000000 = 2 then 2 else 0
          | none => if features.boolOr "temp_off_by_alt" false then 1 else 0 }

/-- The registry that the toggles stand for. -/
def migrateLegacy (legacy : LegacyHotkeyToggles) : HotkeyRegistry :=
  if legacy = {} then .defaults else .fromLegacyFields legacy

/-- The registry that `MigrateLegacyHotkeysIfNeeded` returns for an existing file. -/
def migrateLegacyHotkeysIfNeeded (table : TomlTable) : HotkeyRegistry :=
  if hasHotkeyStateSection table then loadHotkeyRegistry table
  else if !noTriggers (loadHotkeyRegistry table) then loadHotkeyRegistry table
  else migrateLegacy (readLegacyHotkeyToggles table)

end ConfigManager

namespace HotkeyRegistry

open TomlTable

theorem ofInt_toNat_word (n : UInt32) : UInt32.ofInt (n.toNat : Int) = n := by
  have hn : n.toNat < 0x100000000 := n.toNat_lt
  have hmod : ((n.toNat : Int) % 2 ^ 32).toNat = n.toNat := by omega
  rw [UInt32.ofInt, hmod, UInt32.ofNat_toNat]

theorem parseTrigger_triggerTable {t : Trigger} (h : t.vk ≠ 0) :
    parseTrigger (triggerTable t) = some t := by
  obtain ⟨vk, mods, doubleTap⟩ := t
  cases doubleTap <;>
    simp [parseTrigger, triggerTable, TomlNode.asInteger, TomlNode.asBoolean, ofInt_toNat_word, h]

theorem parseRow_rowNode {intent : Intent} {t : Trigger} (h : t.vk ≠ 0) :
    parseRow (rowNode intent t) = some (intent, t) := by
  simp [parseRow, rowNode, TomlNode.asTable, TomlNode.asString, parseIntent_intentToString,
    parseTrigger_triggerTable h]

theorem foldl_addTrigger (registry : HotkeyRegistry) (intent : Intent) (triggers : List Trigger) :
    (triggers.map (Prod.mk intent)).foldl
    (fun registry row => registry.addTrigger row.1 row.2) registry =
      { registry with
        triggers :=
        Function.update registry.triggers intent (registry.triggers intent ++ triggers) } := by
  induction triggers generalizing registry with
  | nil => rw [List.append_nil, Function.update_eq_self]; rfl
  | cons t rest ih =>
      rw [List.map_cons, List.foldl_cons, ih]
      simp only [addTrigger, Function.update_self, Function.update_idem, List.append_assoc,
        List.singleton_append]

/-- Every trigger has a key. -/
def Within (registry : HotkeyRegistry) : Prop := ∀ intent, ∀ t ∈ registry.triggers intent, t.vk ≠ 0

theorem load_save {registry other : HotkeyRegistry} (h : registry.Within) :
    other.load registry.save = { other with triggers := registry.triggers } := by
  have hrow : ∀ intent, ((registry.triggers intent).map (rowNode intent)).filterMap parseRow =
      (registry.triggers intent).map (Prod.mk intent) := by
    intro intent
    rw [List.filterMap_map, ← List.filterMap_eq_map]
    exact List.filterMap_congr fun t ht => parseRow_rowNode (h intent t ht)
  rw [load, save, List.filterMap_flatMap]
  simp only [hrow, kAllIntents, List.flatMap_cons, List.flatMap_nil,
    List.foldl_append, List.foldl_nil, foldl_addTrigger]
  congr 1
  funext intent
  cases intent <;> rfl

theorem find?_saveEnabled (registry : HotkeyRegistry) (intent : Intent) :
    registry.saveEnabled.find? (intentStateKey intent) =
      some (.boolean (registry.isEnabled intent)) := by
  simp only [saveEnabled, kAllIntents, List.foldl_cons, List.foldl_nil, find?_insertOrAssign,
    intentStateKey_injective.eq_iff]
  cases intent <;> rfl

theorem isEnabled_loadEnabled_saveEnabled (registry other : HotkeyRegistry) (intent : Intent) :
    (other.loadEnabled registry.saveEnabled).isEnabled intent = registry.isEnabled intent := by
  simp only [isEnabled, loadEnabled, find?_saveEnabled]
  rfl

/-- What the toggles of an old file bind and enable. -/
def bindings (registry : HotkeyRegistry) : List (List Trigger × Bool) :=
  [.cancelComposition, .skipMacro, .toggleEnabled].map fun intent =>
    (registry.triggersFor intent, registry.isEnabled intent)

theorem Alike.bindings_eq {a b : HotkeyRegistry} (h : a.Alike b) : a.bindings = b.bindings := by
  simp only [bindings, h.1, h.2]

theorem bindings_migrateLegacy : ∀ (esc esc' macroEsc macroEsc' : Bool) (method method' : Fin 3),
    (ConfigManager.migrateLegacy ⟨esc, macroEsc, method⟩).bindings =
        (ConfigManager.migrateLegacy ⟨esc', macroEsc', method'⟩).bindings →
      esc = esc' ∧ macroEsc = macroEsc' ∧ method = method' := by
  decide +kernel

/-- Different toggles stand for registries that can be told apart. -/
theorem eq_of_alike_migrateLegacy {legacy legacy' : LegacyHotkeyToggles}
    (h : Alike (ConfigManager.migrateLegacy legacy) (ConfigManager.migrateLegacy legacy')) :
    legacy = legacy' := by
  obtain ⟨esc, macroEsc, method⟩ := legacy
  obtain ⟨esc', macroEsc', method'⟩ := legacy'
  obtain ⟨rfl, rfl, rfl⟩ := bindings_migrateLegacy _ _ _ _ _ _ h.bindings_eq
  rfl

end HotkeyRegistry

namespace ConfigManager

open TomlTable

theorem loadHotkeyRegistry_saveHotkeyRegistry (table : TomlTable) {registry : HotkeyRegistry}
    (h : registry.Within) :
    (loadHotkeyRegistry (saveHotkeyRegistry table registry)).Alike registry := by
  have harray : (saveHotkeyRegistry table registry).arrayAt "hotkeys" = some registry.save := by
    simp [saveHotkeyRegistry, TomlNode.asArray]
  have hstate :
    (saveHotkeyRegistry table registry).tableAt "hotkey_state" = some registry.saveEnabled := by
    simp [saveHotkeyRegistry, TomlNode.asTable]
  simp only [loadHotkeyRegistry, harray, hstate, load_save h]
  exact ⟨fun _ => rfl, isEnabled_loadEnabled_saveEnabled registry _⟩

end ConfigManager

end VKey
