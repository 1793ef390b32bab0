import Mathlib.Data.List.Nodup
import VKey.Config.TypingSection

/-!
# The typing configuration round-trips

What `SaveToFile` writes is what `LoadFromFile` reads, except for the flag of `[debug]`, which is
read and never written.
-/

namespace VKey

namespace ConfigManager

open TomlTable

/-- The data that the loader of the typing configuration does not change. -/
structure TypingConfig.Within [WideCType] (config : TypingConfig) : Prop where
  exclusions : ∀ wide ∈ config.spellExclusions, 2 ≤ wide.length ∧ wide.map towlower = wide
  customKeyMap : config.customKeyMap 0 = .none

theorem customKey_toList {i : Fin 128} (hi : i ≠ 0) : (customKey i).toList = [Char.ofNat i] := by
  rw [customKey, if_neg hi, String.toList_singleton]

theorem toNat_ofNat_code (i : Fin 128) : (Char.ofNat i).toNat = i := by
  revert i
  decide

theorem customKey_injective : Function.Injective customKey := by
  intro i j h
  by_cases hi : i = 0
  · by_cases hj : j = 0
    · exact hi.trans hj.symm
    · have hlist := customKey_toList hj
      rw [← h, customKey, if_pos hi] at hlist
      cases hlist
  · by_cases hj : j = 0
    · have hlist := customKey_toList hi
      rw [h, customKey, if_pos hj] at hlist
      cases hlist
    · have hlist := customKey_toList hi
      rw [h, customKey_toList hj, List.singleton_inj] at hlist
      have hcode := congrArg Char.toNat hlist
      rw [toNat_ofNat_code, toNat_ofNat_code] at hcode
      exact Fin.ext hcode.symm

/-- The entries that are written for a key map. -/
def customEntries (map : Fin 128 → TypingAction) : List (String × TomlNode) :=
  ((List.finRange 128).filter fun i => map i ≠ .none).map fun i =>
    (customKey i, .string (typingActionToString (map i)))

theorem saveCustomKeyMap_eq (map : Fin 128 → TypingAction) :
    saveCustomKeyMap map = assignAll [] (customEntries map) := by
  rw [saveCustomKeyMap, assignAll, customEntries, List.foldl_map, List.foldl_filter]
  congr 1
  funext keyMap i
  by_cases h : map i = .none
  · simp [h]
  · simp [h]

theorem nodup_customEntries (map : Fin 128 → TypingAction) :
    ((customEntries map).map Prod.fst).Nodup := by
  rw [customEntries, List.map_map]
  exact List.Nodup.map customKey_injective ((List.nodup_finRange 128).filter _)

theorem mem_saveCustomKeyMap {map : Fin 128 → TypingAction} {entry : String × TomlNode} :
    entry ∈ saveCustomKeyMap map ↔
      ∃ i, map i ≠ .none ∧ entry = (customKey i, .string (typingActionToString (map i))) := by
  rw [saveCustomKeyMap_eq, mem_assignAll_nil (nodup_customEntries map), customEntries, List.mem_map]
  constructor
  · rintro ⟨i, hi, rfl⟩
    exact ⟨i, of_decide_eq_true (List.mem_filter.mp hi).2, rfl⟩
  · rintro ⟨i, hi, rfl⟩
    exact ⟨i, List.mem_filter.mpr ⟨List.mem_finRange i, decide_eq_true hi⟩, rfl⟩

theorem loadCustomKey_entry (map other : Fin 128 → TypingAction) {i : Fin 128} (hi : i ≠ 0) :
    loadCustomKey other (customKey i, .string (typingActionToString (map i))) =
      Function.update other i (map i) := by
  rw [loadCustomKey, customKey_toList hi]
  simp only [toNat_ofNat_code, i.isLt, dif_pos, TomlNode.asString,
    stringToTypingAction_typingActionToString, Fin.eta]

/-- A table of entries of the key map gives the keys that it has their actions. -/
theorem loadCustomKeyMap_apply {map : Fin 128 → TypingAction} {keyMap : TomlTable}
    (h : ∀ entry ∈ keyMap, ∃ i, i ≠ 0 ∧
      entry = (customKey i, .string (typingActionToString (map i))))
    (other : Fin 128 → TypingAction) (j : Fin 128) :
    loadCustomKeyMap keyMap other j =
      if ∃ entry ∈ keyMap, entry.1 = customKey j then map j else other j := by
  induction keyMap generalizing other with
  | nil =>
      rw [if_neg (by rintro ⟨entry, hentry, -⟩; exact List.not_mem_nil hentry)]
      rfl
  | cons first rest ih =>
      obtain ⟨i, hi, rfl⟩ := h first List.mem_cons_self
      rw [loadCustomKeyMap, List.foldl_cons, loadCustomKey_entry map other hi]
      refine (ih (fun entry hentry => h entry (List.mem_cons_of_mem _ hentry)) _).trans ?_
      simp only [List.mem_cons, exists_eq_or_imp]
      by_cases hij : j = i
      · rw [hij, Function.update_self, ite_self, if_pos (Or.inl rfl)]
      · rw [Function.update_of_ne hij]
        have hkey : ¬customKey i = customKey j := fun heq => hij (customKey_injective heq).symm
        simp only [hkey, false_or]

theorem loadCustomKeyMap_saveCustomKeyMap {map : Fin 128 → TypingAction} (hzero : map 0 = .none) :
    loadCustomKeyMap (saveCustomKeyMap map) (fun _ => .none) = map := by
  have hentries : ∀ entry ∈ saveCustomKeyMap map,
      ∃ i, i ≠ 0 ∧ entry = (customKey i, .string (typingActionToString (map i))) := by
    intro entry hentry
    obtain ⟨i, hi, rfl⟩ := mem_saveCustomKeyMap.mp hentry
    refine ⟨i, ?_, rfl⟩
    rintro rfl
    exact hi hzero
  funext j
  rw [loadCustomKeyMap_apply hentries]
  split_ifs with h
  · rfl
  · by_contra hj
    exact h ⟨_, mem_saveCustomKeyMap.mpr ⟨j, fun hnone => hj hnone.symm, rfl⟩, rfl⟩

/-- A key map without actions is not written, and its section is dropped. -/
theorem saveCustomKeyMap_isEmpty {map : Fin 128 → TypingAction} :
    (saveCustomKeyMap map).isEmpty = true ↔ map = fun _ => .none := by
  rw [List.isEmpty_iff]
  constructor
  · intro h
    funext j
    by_contra hj
    have hmem := mem_saveCustomKeyMap.mpr ⟨j, hj, rfl⟩
    rw [h] at hmem
    exact List.not_mem_nil hmem
  · rintro rfl
    refine List.eq_nil_iff_forall_not_mem.mpr fun entry hentry => ?_
    obtain ⟨i, hi, -⟩ := mem_saveCustomKeyMap.mp hentry
    exact hi rfl

theorem valueInt_byte (n : UInt8) : (TomlNode.integer n.toNat).valueInt = some (n.toNat : Int) := by
  have hn : n.toNat < 256 := n.toNat_lt
  rw [TomlNode.valueInt, TomlNode.valueInt64, Option.bind_some, if_pos]
  omega

theorem ofInt_toNat_byte (n : UInt8) : UInt8.ofInt (n.toNat : Int) = n := by
  have hn : n.toNat < 256 := n.toNat_lt
  have hmod : ((n.toNat : Int) % 2 ^ 8).toNat = n.toNat := by omega
  rw [UInt8.ofInt, hmod, UInt8.ofNat_toNat]

/-- The flag that is read in `[debug]`. -/
def debugFlag (table : TomlTable) : Bool :=
  match table.tableAt "debug" with
  | some dbg => dbg.boolOr "perf_histogram" false
  | none => false

theorem loadDebug_eq (table : TomlTable) {config : TypingConfig}
    (h : config.perfHistogramEnabled = false) :
    loadDebug table config = { config with perfHistogramEnabled := debugFlag table } := by
  rw [loadDebug, debugFlag]
  cases table.tableAt "debug" with
  | none => rw [← h]
  | some dbg => rfl

variable [WideText]

theorem saveToFile_find? (table : TomlTable) (config : TypingConfig) {key : String}
    (hinput : key ≠ "input") (hkeyMap : key ≠ "UserDefinedKeyMap") (hfeatures : key ≠ "features") :
    (saveToFile table config).find? key = table.find? key := by
  simp only [saveToFile, find?_insertOrAssign, if_neg hfeatures]
  split_ifs with h
  · rw [find?_erase, if_neg hkeyMap, find?_insertOrAssign, if_neg hinput]
  · rw [find?_insertOrAssign, if_neg hkeyMap, find?_insertOrAssign, if_neg hinput]

theorem saveToFile_input (table : TomlTable) (config : TypingConfig) :
    (saveToFile table config).tableAt "input" = some (saveInput config) := by
  simp only [saveToFile]
  split_ifs with h
  · simp [TomlNode.asTable]
  · simp [TomlNode.asTable]

theorem saveToFile_features (table : TomlTable) (config : TypingConfig) :
    (saveToFile table config).tableAt "features" = some (saveFeatures config) := by
  simp [saveToFile, TomlNode.asTable]

theorem saveToFile_keyMap (table : TomlTable) (config : TypingConfig) :
    (saveToFile table config).tableAt "UserDefinedKeyMap" =
      if (saveCustomKeyMap config.customKeyMap).isEmpty then none
      else some (saveCustomKeyMap config.customKeyMap) := by
  simp only [saveToFile]
  split_ifs with h
  · simp
  · simp [TomlNode.asTable]

theorem loadInput_saveToFile (table : TomlTable) (config other : TypingConfig) :
    loadInput (saveToFile table config) other =
      { other with inputMethod := config.inputMethod, codeTable := config.codeTable } := by
  have hnumber : (TomlNode.integer (codeTableNumber config.codeTable)).valueInt =
      some (codeTableNumber config.codeTable : Int) := by
    cases config.codeTable <;> rfl
  rw [loadInput, saveToFile_input]
  simp [saveInput, TomlNode.asString, hnumber, inputMethodOf_methodStr, codeTableOf_codeTableNumber]

theorem loadKeyMap_saveToFile (table : TomlTable) {config : TypingConfig}
    (h : config.customKeyMap 0 = .none) {other : TypingConfig}
    (hother : other.customKeyMap = fun _ => .none) :
    loadKeyMap (saveToFile table config) other =
      { other with customKeyMap := config.customKeyMap } := by
  rw [loadKeyMap, saveToFile_keyMap]
  by_cases hempty : (saveCustomKeyMap config.customKeyMap).isEmpty = true
  · rw [if_pos hempty, saveCustomKeyMap_isEmpty.mp hempty, ← hother]
  · rw [if_neg hempty, hother]
    exact congrArg (fun map => { other with customKeyMap := map })
      (loadCustomKeyMap_saveCustomKeyMap h)

variable [WideCType]

theorem loadSpellExclusions_saveSpellExclusions {spellExclusions : List (List WChar)}
    (h : ∀ wide ∈ spellExclusions, 2 ≤ wide.length ∧ wide.map towlower = wide) :
    loadSpellExclusions (saveSpellExclusions spellExclusions) = spellExclusions := by
  have hlong : (spellExclusions.filter fun wide => 2 ≤ wide.length) = spellExclusions :=
    List.filter_eq_self.mpr fun wide hwide => decide_eq_true (h wide hwide).1
  rw [loadSpellExclusions, saveSpellExclusions, hlong, List.filterMap_map, List.filterMap_filterMap]
  refine (List.filterMap_congr fun wide hwide => ?_).trans List.filterMap_some
  obtain ⟨hlength, hlower⟩ := h wide hwide
  simp only [Function.comp_apply, TomlNode.asString, Option.map_some, Option.bind_some,
    WideText.utf8ToWide_wideToUtf8, if_pos hlength, hlower]

theorem loadFeatures_saveFeatures {table : TomlTable} {config : TypingConfig} (h : config.Within)
    {other : TypingConfig} (hother : other.spellExclusions = [])
    (htable : table.tableAt "features" = some (saveFeatures config)) :
    loadFeatures table other =
      { config with
        inputMethod := other.inputMethod
        codeTable := other.codeTable
        customKeyMap := other.customKeyMap
        perfHistogramEnabled := other.perfHistogramEnabled } := by
  rw [loadFeatures, htable]
  simp [saveFeatures, TomlNode.valueBool, TomlNode.asArray, hother, valueInt_byte, ofInt_toNat_byte,
    loadSpellExclusions_saveSpellExclusions h.exclusions]

/-- The configuration that was saved is the one that is loaded, but for the flag of `[debug]`. -/
theorem loadFromFile_saveToFile (table : TomlTable) {config : TypingConfig} (h : config.Within) :
    loadFromFile (saveToFile table config) =
      { config with perfHistogramEnabled := debugFlag table } := by
  have hdebug : debugFlag (saveToFile table config) = debugFlag table := by
    rw [debugFlag, debugFlag, tableAt, tableAt,
      saveToFile_find? table config (by decide) (by decide) (by decide)]
  rw [loadFromFile, loadInput_saveToFile, loadKeyMap_saveToFile table h.customKeyMap rfl,
    loadFeatures_saveFeatures h rfl (saveToFile_features table config), loadDebug_eq _ rfl, hdebug]

end ConfigManager

end VKey
