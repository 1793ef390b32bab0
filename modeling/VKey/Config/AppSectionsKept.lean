import VKey.Config.Sections
import VKey.Support.ListEdits

/-!
# The lists of applications round-trip

The saves of the lists, of the modes of smart switch and of the settings per application keep the
other sections, and what they write is read as it was.
-/

namespace VKey

namespace ConfigManager

open TomlTable

/-! ## Maps as tables -/

theorem WideMap.mem_entries {β : Type} (map : WideMap β) {key : List WChar} {value : β} :
    (key, value) ∈ map.entries ↔ map.at? key = some value :=
  (lookup_eq_some_iff_mem map.nodup).symm

theorem filterMap_at? {β : Type} (map : WideMap β) (keys : List (List WChar)) :
    ((keys.filterMap fun key => (map.at? key).map (Prod.mk key)).map Prod.fst).Sublist keys := by
  induction keys with
  | nil => exact List.Sublist.slnil
  | cons key rest ih =>
      rw [List.filterMap_cons]
      cases map.at? key with
      | none => exact ih.cons key
      | some value => exact ih.cons_cons key

/-- The entries in the order of the keys. -/
theorem perm_filterMap_at? {β : Type} (map : WideMap β) {keys : List (List WChar)}
    (h : keys.Perm (map.entries.map Prod.fst)) :
    (keys.filterMap fun key => (map.at? key).map (Prod.mk key)).Perm map.entries := by
  have hkeys : keys.Nodup := h.nodup_iff.mpr map.nodup
  have hnodup := (filterMap_at? map keys).nodup hkeys
  refine (List.perm_ext_iff_of_nodup (List.Nodup.of_map Prod.fst hnodup)
    (List.Nodup.of_map Prod.fst map.nodup)).mpr fun entry => ?_
  obtain ⟨key, value⟩ := entry
  rw [List.mem_filterMap, map.mem_entries]
  constructor
  · rintro ⟨other, -, heq⟩
    obtain ⟨found, hfound, hentry⟩ := Option.map_eq_some_iff.mp heq
    obtain ⟨rfl, rfl⟩ := Prod.mk.inj hentry
    exact hfound
  · intro hvalue
    have hmem := List.mem_map_of_mem (f := Prod.fst) (map.mem_entries.mpr hvalue)
    exact ⟨key, h.mem_iff.mpr hmem, by rw [hvalue, Option.map_some]⟩

def modeNode (isVietnamese : Bool) : TomlNode := .string (modeName isVietnamese)

theorem asString_modeNode (isVietnamese : Bool) :
    (modeNode isVietnamese).asString.bind modeOf = some isVietnamese := by
  cases isVietnamese <;> decide

theorem intOr_byte (n : Int8) :
    Int8.ofInt (((TomlNode.integer n.toInt).valueInt).getD (-1)) = n := by
  have hle : -128 ≤ n.toInt := n.le_toInt
  have hlt : n.toInt < 128 := n.toInt_lt
  rw [TomlNode.valueInt, TomlNode.valueInt64, Option.bind_some, if_pos (by omega), Option.getD_some,
    Int8.ofInt_toInt]

section Text

variable [WideText]

theorem wideToUtf8_injective : Function.Injective wideToUtf8 :=
  Function.LeftInverse.injective WideText.utf8ToWide_wideToUtf8

/-- The entry of a table for an entry of a map. -/
def tableEntry {β : Type} (node : β → TomlNode) (entry : List WChar × β) : String × TomlNode :=
  (wideToUtf8 entry.1, node entry.2)

theorem nodup_tableEntry {β : Type} (node : β → TomlNode) {entries : List (List WChar × β)}
    (hnodup : (entries.map Prod.fst).Nodup) :
    ((entries.map (tableEntry node)).map Prod.fst).Nodup := by
  have hmap :
    (entries.map (tableEntry node)).map Prod.fst = (entries.map Prod.fst).map wideToUtf8 := by
    rw [List.map_map, List.map_map]
    rfl
  rw [hmap]
  exact hnodup.map wideToUtf8_injective

/-- The table that is written for a map has its entries, in the order of the keys. -/
theorem exists_assignAll_nil {β : Type} (node : β → TomlNode) {entries : List (List WChar × β)}
    (hnodup : (entries.map Prod.fst).Nodup) :
    ∃ rows : List (List WChar × β), rows.Perm entries ∧
      assignAll [] (entries.map (tableEntry node)) = rows.map (tableEntry node) := by
  have hperm := perm_assignAll_nil (nodup_tableEntry node hnodup)
  obtain ⟨rows, htable, hrows⟩ :=
    (congrFun (congrFun (List.eq_map_comp_perm (tableEntry node)) _) entries).mpr hperm
  exact ⟨rows, hrows, htable⟩

/-! ## The lists -/

theorem collectApps_pushApp (apps before : List (List WChar))
    (h : before.length + apps.length ≤ kMaxAppListEntries) :
    collectApps pushApp (apps.map fun app => .string (wideToUtf8 app)) before = before ++ apps := by
  induction apps generalizing before with
  | nil => exact (List.append_nil before).symm
  | cons app rest ih =>
      rw [List.length_cons] at h
      have hroom : ¬before.length ≥ kMaxAppListEntries := by omega
      have hlength : (before ++ [app]).length + rest.length ≤ kMaxAppListEntries := by
        rw [List.length_append, List.length_singleton]
        omega
      have hrest := ih (before ++ [app]) hlength
      rw [List.append_assoc, List.singleton_append] at hrest
      rw [List.map_cons, collectApps, List.foldl_cons, if_neg hroom]
      simp only [TomlNode.asString, pushApp, WideText.utf8ToWide_wideToUtf8]
      exact hrest

theorem collectApps_stringArray {apps : List (List WChar)} (h : apps.length ≤ kMaxAppListEntries) :
    collectApps pushApp ((stringArray apps).asArray.getD []) [] = apps :=
  collectApps_pushApp apps [] (by rwa [List.length_nil, Nat.zero_add])

theorem loadTsfApps_saveTsfApps (table : TomlTable) {apps : List (List WChar)}
    (h : apps.length ≤ kMaxAppListEntries) : loadTsfApps (saveTsfApps table apps) = apps := by
  simp [loadTsfApps, saveTsfApps, TomlNode.asTable, collectApps_stringArray h]

theorem loadForcedVnApps_saveForcedVnApps (table : TomlTable) {apps : List (List WChar)}
    (h : apps.length ≤ kMaxAppListEntries) :
    loadForcedVnApps (saveForcedVnApps table apps) = apps := by
  rw [loadForcedVnApps, saveForcedVnApps]
  cases table.tableAt "excluded_apps" <;> simp [TomlNode.asTable, collectApps_stringArray h]

/-- The list of the excluded applications stays beside that of the forced ones in the section. -/
theorem loadForcedVnApps_saveExcludedApps (table : TomlTable) (apps : List (List WChar)) :
    loadForcedVnApps (saveExcludedApps table apps) = loadForcedVnApps table := by
  rw [loadForcedVnApps, saveExcludedApps, loadForcedVnApps]
  cases table.tableAt "excluded_apps" with
  | none => simp [TomlNode.asTable, arrayAt, collectApps]
  | some sectionTbl => simp [TomlNode.asTable]

/-! ## The modes of smart switch -/

theorem foldl_smartSwitch (apps : WideMap Bool) (keys : List (List WChar)) (appsTbl : TomlTable) :
    keys.foldl (saveSmartSwitchApp apps) appsTbl =
      ((keys.filterMap fun key => (apps.at? key).map (Prod.mk key)).map (tableEntry modeNode)).foldl
        (fun table entry => TomlTable.insert entry.1 entry.2 table) appsTbl := by
  induction keys generalizing appsTbl with
  | nil => rfl
  | cons key rest ih =>
      rw [List.foldl_cons, ih, List.filterMap_cons, saveSmartSwitchApp]
      cases apps.at? key <;> rfl

/-! ## The settings per application -/

theorem loadAppOverride_tableEntry (data : List WChar → Option AppOverrideEntry)
    (row : List WChar × AppOverrideEntry) :
    loadAppOverride data (tableEntry (fun e => .table (overrideTable e)) row) =
      Function.update data row.1 (some row.2) := by
  obtain ⟨key, inputMethod, encodingOverride, sendMethod⟩ := row
  simp [loadAppOverride, tableEntry, TomlNode.asTable, overrideTable, intOr_byte]

theorem foldl_loadAppOverride (rows : List (List WChar × AppOverrideEntry))
    (data : List WChar → Option AppOverrideEntry) :
    (rows.map (tableEntry fun e => .table (overrideTable e))).foldl loadAppOverride data =
      rows.foldl (fun (data : List WChar → Option AppOverrideEntry) row =>
        Function.update data row.1 (some row.2)) data := by
  rw [List.foldl_map]
  exact congrArg (fun step => rows.foldl step data) (funext₂ loadAppOverride_tableEntry)

theorem loadAppOverrides_saveAppOverrides (table : TomlTable) {data : WideMap AppOverrideEntry}
    (hlength : data.entries.length ≤ kMaxPerAppEntries) :
    loadAppOverrides (saveAppOverrides table data) = data.at? := by
  obtain ⟨rows, hperm, htable⟩ :=
    exists_assignAll_nil (fun e => .table (overrideTable e)) data.nodup
  have hnodup := (hperm.map Prod.fst).nodup_iff.mpr data.nodup
  have hsection : (saveAppOverrides table data).tableAt "app_overrides" =
      some (rows.map (tableEntry fun e => .table (overrideTable e))) := by
    rw [← htable, assignAll, List.foldl_map, saveAppOverrides, tableAt_insertOrAssign, if_pos rfl]
    rfl
  have htake : (rows.map (tableEntry fun e => .table (overrideTable e))).take kMaxPerAppEntries =
      rows.map (tableEntry fun e => .table (overrideTable e)) :=
    List.take_of_length_le (by rwa [List.length_map, hperm.length_eq])
  funext key
  rw [loadAppOverrides, hsection]
  simp only [htake, foldl_loadAppOverride, foldl_update_eq_lookup hnodup, Option.or_none]
  exact lookup_eq_of_perm hperm hnodup key

variable [WideCType]

theorem loadAllExcludedApps_saveForcedVnApps (table : TomlTable) (apps : List (List WChar)) :
    loadAllExcludedApps (saveForcedVnApps table apps) = loadAllExcludedApps table := by
  have hlegacy :
    (saveForcedVnApps table apps).tableAt "excludedApps" = table.tableAt "excludedApps" := by
    rw [saveForcedVnApps]
    cases table.tableAt "excluded_apps" <;> simp
  rw [loadAllExcludedApps, mergeLegacyExcluded, hlegacy, saveForcedVnApps, loadAllExcludedApps,
    mergeLegacyExcluded]
  cases table.tableAt "excluded_apps" with
  | none => simp [TomlNode.asTable, arrayAt, collectApps]
  | some sectionTbl => simp [TomlNode.asTable]

theorem loadAllExcludedApps_saveExcludedApps (table : TomlTable) {apps : List (List WChar)}
    (h : apps.length ≤ kMaxAppListEntries) :
    loadAllExcludedApps (saveExcludedApps table apps) = apps := by
  have hsoft : collectApps pushUnique [] apps = apps := rfl
  rw [loadAllExcludedApps, mergeLegacyExcluded, saveExcludedApps]
  cases table.tableAt "excluded_apps" with
  | none => simp [TomlNode.asTable, arrayAt, collectApps_stringArray h, hsoft]
  | some sectionTbl => simp [TomlNode.asTable, collectApps_stringArray h, hsoft]

/-! ## The loaders that lower-case -/

theorem foldl_loadSmartSwitchApp (rows before : List (List WChar × Bool))
    (hnodup : ((before ++ rows).map Prod.fst).Nodup)
    (hlength : before.length + rows.length ≤ kMaxAppListEntries)
    (hkeys : ∀ key ∈ rows.map Prod.fst, key ≠ [] ∧ key.map towlower = key) :
    (rows.map (tableEntry modeNode)).foldl loadSmartSwitchApp before = before ++ rows := by
  induction rows generalizing before with
  | nil => exact (List.append_nil before).symm
  | cons row rest ih =>
      obtain ⟨key, isVietnamese⟩ := row
      have hassoc :
        before ++ (key, isVietnamese) :: rest = (before ++ [(key, isVietnamese)]) ++ rest := by
        rw [List.append_assoc, List.singleton_append]
      obtain ⟨hne, hlower⟩ := hkeys key List.mem_cons_self
      have hnew : key ∉ before.map Prod.fst := by
        rw [List.map_append, List.nodup_append] at hnodup
        exact fun hmem => hnodup.2.2 key hmem key List.mem_cons_self rfl
      rw [List.length_cons] at hlength
      have hroom : ¬before.length ≥ kMaxAppListEntries := by omega
      have hstep : loadSmartSwitchApp before (tableEntry modeNode (key, isVietnamese)) =
          before ++ [(key, isVietnamese)] := by
        simp [loadSmartSwitchApp, tableEntry, asString_modeNode, hroom,
          hlower, hne, emplaceApp, hnew]
      rw [List.map_cons, List.foldl_cons, hstep, hassoc]
      refine ih _ (hassoc ▸ hnodup) ?_ fun other hother =>
        hkeys other (List.mem_cons_of_mem _ hother)
      rw [List.length_append, List.length_singleton]
      omega

theorem loadSmartSwitchApps_saveSmartSwitchApps (table : TomlTable) {apps : WideMap Bool}
    (hlength : apps.entries.length ≤ kMaxAppListEntries)
    (hkeys : ∀ key ∈ apps.entries.map Prod.fst, key ≠ [] ∧ key.map towlower = key)
    (key : List WChar) :
    (loadSmartSwitchApps (saveSmartSwitchApps table apps)).lookup key = apps.at? key := by
  have hsorted := perm_filterMap_at? apps (List.mergeSort_perm (apps.entries.map Prod.fst) (· ≤ ·))
  have hnodup := (hsorted.map Prod.fst).nodup_iff.mpr apps.nodup
  obtain ⟨rows, hrows, htable⟩ := exists_assignAll_nil modeNode hnodup
  have hperm : rows.Perm apps.entries := hrows.trans hsorted
  have hrowsNodup := (hperm.map Prod.fst).nodup_iff.mpr apps.nodup
  have hload : loadSmartSwitchApps (saveSmartSwitchApps table apps) = rows := by
    rw [loadSmartSwitchApps, saveSmartSwitchApps, foldl_smartSwitch,
      foldl_insert_nil (nodup_tableEntry modeNode hnodup), htable]
    simp only [tableAt_insertOrAssign, if_pos, TomlNode.asTable, TomlTable.insert, find?_nil,
      Option.isSome_none, Bool.false_eq_true, if_false]
    refine (foldl_loadSmartSwitchApp rows [] hrowsNodup ?_ ?_).trans (List.nil_append rows)
    · rwa [List.length_nil, Nat.zero_add, hperm.length_eq]
    · exact fun other hother => hkeys other ((hperm.map Prod.fst).mem_iff.mp hother)
  rw [hload]
  exact lookup_eq_of_perm hperm hrowsNodup key

end Text

end ConfigManager

end VKey
