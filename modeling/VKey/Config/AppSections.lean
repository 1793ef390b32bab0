import VKey.Config.TypingSection

/-!
# The lists of applications in the configuration file

The loaders of the lists, of the modes of smart switch and of the settings per application, with the
keys of older files that they fall back to.
-/

namespace VKey

namespace ConfigManager

open TomlTable (insertOrAssign erase)

def kMaxPerAppEntries : Nat := 256
def kMaxAppListEntries : Nat := 1000

structure AppOverrideEntry where
  inputMethod : Int8 := -1
  encodingOverride : Int8 := -1
  sendMethod : Int8 := -1
  deriving DecidableEq

/-- An `unordered_map` with wide strings for keys. -/
structure WideMap (β : Type) where
  entries : List (List WChar × β)
  nodup : (entries.map Prod.fst).Nodup

/-- What the map has at a key. -/
def WideMap.at? {β : Type} (map : WideMap β) (key : List WChar) : Option β := map.entries.lookup key

variable [WideText]

/-- The strings of an array are added as long as there is room. -/
def collectApps (add : List (List WChar) → List WChar → List (List WChar)) (items : List TomlNode)
    (apps : List (List WChar)) : List (List WChar) :=
  items.foldl (fun apps item =>
    if apps.length ≥ kMaxAppListEntries then apps
    else
      match item.asString with
      | some str => add apps (utf8ToWide str)
      | none => apps) apps

def pushApp (apps : List (List WChar)) (wide : List WChar) : List (List WChar) := apps ++ [wide]

def pushUnique (apps : List (List WChar)) (wide : List WChar) : List (List WChar) :=
  if apps.contains wide then apps else apps ++ [wide]

def mergeUnique [WideCType] (apps : List (List WChar)) (wide : List WChar) : List (List WChar) :=
  pushUnique apps (wide.map towlower)

def stringArray (apps : List (List WChar)) : TomlNode :=
  .array (apps.map fun app => .string (wideToUtf8 app))

def loadForcedVnApps (table : TomlTable) : List (List WChar) :=
  match table.tableAt "excluded_apps" with
  | some sectionTbl => collectApps pushApp ((sectionTbl.arrayAt "force_vn").getD []) []
  | none => []

def saveForcedVnApps (table : TomlTable) (apps : List (List WChar)) : TomlTable :=
  match table.tableAt "excluded_apps" with
  | some sectionTbl =>
      table.insertOrAssign "excluded_apps"
        (.table (sectionTbl.insertOrAssign "force_vn" (stringArray apps)))
  | none =>
      table.insertOrAssign "excluded_apps"
        (.table (insertOrAssign "force_vn" (stringArray apps) ([] : TomlTable)))

def loadTsfApps (table : TomlTable) : List (List WChar) :=
  match table.tableAt "tsf_apps" with
  | some sectionTbl => collectApps pushApp ((sectionTbl.arrayAt "list").getD []) []
  | none => []

def saveTsfApps (table : TomlTable) (apps : List (List WChar)) : TomlTable :=
  table.insertOrAssign "tsf_apps"
    (.table (insertOrAssign "list" (stringArray apps) ([] : TomlTable)))

variable [WideCType]

/-- `[excludedApps]` of the files before the present name of the section, if it is not switched
off. -/
def mergeLegacyExcluded (table : TomlTable) (apps : List (List WChar)) : List (List WChar) :=
  match table.tableAt "excludedApps" with
  | some legacy =>
      if ((legacy.find? "enabled").bind TomlNode.asBoolean).getD true then
        collectApps mergeUnique ((legacy.arrayAt "list").getD []) apps
      else apps
  | none => apps

def loadAllExcludedApps (table : TomlTable) : List (List WChar) :=
  mergeLegacyExcluded table
    (match table.tableAt "excluded_apps" with
    | some sectionTbl =>
        collectApps pushUnique ((sectionTbl.arrayAt "soft").getD [])
          (collectApps pushApp ((sectionTbl.arrayAt "list").getD []) [])
    | none => [])

def saveExcludedApps (table : TomlTable) (apps : List (List WChar)) : TomlTable :=
  let table :=
    match table.tableAt "excluded_apps" with
    | some sectionTbl =>
        table.insertOrAssign "excluded_apps"
          (.table (sectionTbl.insertOrAssign "list" (stringArray apps) |> erase "soft"))
    | none =>
        table.insertOrAssign "excluded_apps"
          (.table (insertOrAssign "list" (stringArray apps) ([] : TomlTable)))
  table.erase "excludedApps"

def modeOf (modeStr : String) : Option Bool :=
  if modeStr = "english" then some false else if modeStr = "vietnamese" then some true else none

def modeName (isVietnamese : Bool) : String := if isVietnamese then "vietnamese" else "english"

/-- `emplace` keeps the first entry of a key. -/
def emplaceApp (apps : List (List WChar × Bool)) (key : List WChar) (isVietnamese : Bool) :
    List (List WChar × Bool) :=
  if (apps.map Prod.fst).contains key then apps else apps ++ [(key, isVietnamese)]

/-- An entry of `[smart_switch.apps]`. -/
def loadSmartSwitchApp (apps : List (List WChar × Bool)) (entry : String × TomlNode) :
    List (List WChar × Bool) :=
  if apps.length ≥ kMaxAppListEntries then apps
  else
    match entry.2.asString.bind modeOf with
    | none => apps
    | some isVietnamese =>
        let wideKey := (utf8ToWide entry.1).map towlower
        if wideKey.isEmpty then apps else emplaceApp apps wideKey isVietnamese

/-- An entry of the array that older files have. -/
def loadEnglishModeApp (apps : List (List WChar × Bool)) (item : TomlNode) :
    List (List WChar × Bool) :=
  if apps.length ≥ kMaxAppListEntries then apps
  else
    match item.asString with
    | none => apps
    | some str =>
        let wideKey := (utf8ToWide str).map towlower
        if wideKey.isEmpty then apps else emplaceApp apps wideKey false

def loadSmartSwitchApps (table : TomlTable) : List (List WChar × Bool) :=
  match table.tableAt "smart_switch" with
  | none => []
  | some smart =>
      match smart.tableAt "apps" with
      | some appsTbl => appsTbl.foldl loadSmartSwitchApp []
      | none => ((smart.arrayAt "english_mode_apps").getD []).foldl loadEnglishModeApp []

def saveSmartSwitchApp (apps : WideMap Bool) (appsTbl : TomlTable) (key : List WChar) : TomlTable :=
  match apps.at? key with
  | some isVietnamese => appsTbl |> TomlTable.insert (wideToUtf8 key)
        (.string (modeName isVietnamese))
  | none => appsTbl

/-- The keys are written in order. -/
def saveSmartSwitchApps (table : TomlTable) (apps : WideMap Bool) : TomlTable :=
  let sorted := (apps.entries.map Prod.fst).mergeSort
  let appsTbl : TomlTable := sorted.foldl (saveSmartSwitchApp apps) []
  table.insertOrAssign "smart_switch"
    (.table (TomlTable.insert "apps" (.table appsTbl) ([] : TomlTable)))

/-- An entry of `[app_overrides]`. -/
def loadAppOverride (data : List WChar → Option AppOverrideEntry) (entry : String × TomlNode) :
    List WChar → Option AppOverrideEntry :=
  match entry.2.asTable with
  | some values =>
      Function.update data (utf8ToWide entry.1) (some {
        inputMethod := Int8.ofInt (values.intOr "input_method" (-1))
        encodingOverride := Int8.ofInt (values.intOr "encoding" (-1))
        sendMethod := Int8.ofInt (values.intOr "send_method" (-1)) })
  | none => data

def loadAppOverrides (table : TomlTable) : List WChar → Option AppOverrideEntry :=
  match table.tableAt "app_overrides" with
  | some sectionTbl => (sectionTbl.take kMaxPerAppEntries).foldl loadAppOverride fun _ => none
  | none => fun _ => none

def overrideTable (e : AppOverrideEntry) : TomlTable :=
  ([] : TomlTable)
    |> insertOrAssign "input_method" (.integer e.inputMethod.toInt)
    |> insertOrAssign "encoding" (.integer e.encodingOverride.toInt)
    |> insertOrAssign "send_method" (.integer e.sendMethod.toInt)

def saveAppOverrides (table : TomlTable) (data : WideMap AppOverrideEntry) : TomlTable :=
  table.insertOrAssign "app_overrides" (.table (data.entries.foldl (fun sectionTbl entry =>
      insertOrAssign (wideToUtf8 entry.1) (.table (overrideTable entry.2)) sectionTbl)
    ([] : TomlTable)))

end ConfigManager

end VKey
