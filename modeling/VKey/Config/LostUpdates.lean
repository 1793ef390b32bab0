import VKey.Config.Settings
import VKey.Support.Run

/-!
# Updates of the configuration file that are not lost

Every setting has the value of the last writer that meant to change it as long as no writer saves a
typing configuration that is behind the file.
-/

namespace VKey

namespace ConfigManager

open TomlTable

/-! ## The lexicon update -/

/-- The generation that is stored with the file. -/
def wireGeneration (table : TomlTable) : Int :=
  match ((table.tableAt "internal").bind fun internal => internal.find? "wire_generation").bind
      TomlNode.asInteger with
  | some value => if value > 0 then value else 1
  | none => 1

theorem loadDebug_lexicon (table : TomlTable) (config : TypingConfig) (spellSuggestEnabled : Bool)
    (spellExclusions : List (List WChar)) :
    loadDebug table { config with spellSuggestEnabled, spellExclusions } =
      { loadDebug table config with spellSuggestEnabled, spellExclusions } := by
  rw [loadDebug, loadDebug]
  cases table.tableAt "debug" <;> rfl

section Updates

variable [WideText]

/-- The file that `CommitLexiconUpdate` commits. -/
def commitLexiconUpdate (table : TomlTable) (spellSuggestEnabled : Bool)
    (spellExclusions : List (List WChar)) : TomlTable :=
  let exclusions := spellExclusions.map fun entry => TomlNode.string (wideToUtf8 entry)
  let features := (table.tableAt "features").getD []
    |> insertOrAssign "spell_suggest" (.boolean spellSuggestEnabled)
    |> insertOrAssign "spell_exclusions" (.array exclusions)
  let internal := (table.tableAt "internal").getD []
    |> insertOrAssign "wire_generation" (.integer (wireGeneration table + 1))
  table
    |> insertOrAssign "features" (.table features)
    |> insertOrAssign "internal" (.table internal)

theorem commitLexiconUpdate_agree (table : TomlTable) (spellSuggestEnabled : Bool)
    (spellExclusions : List (List WChar)) {sections : List String}
    (h : ∀ key ∈ sections, key ∉ ["features", "internal"]) :
    Agree sections table (commitLexiconUpdate table spellSuggestEnabled spellExclusions) := by
  intro key hkey
  have hne := h key hkey
  simp only [List.mem_cons, List.not_mem_nil, or_false, not_or] at hne
  simp only [commitLexiconUpdate, find?_insertOrAssign, if_neg hne.1, if_neg hne.2]

theorem commitLexiconUpdate_features (table : TomlTable) (spellSuggestEnabled : Bool)
    (spellExclusions : List (List WChar)) :
    (commitLexiconUpdate table spellSuggestEnabled spellExclusions).tableAt "features" =
      some (insertOrAssign "spell_exclusions"
        (.array (spellExclusions.map fun entry => TomlNode.string (wideToUtf8 entry)))
        (insertOrAssign "spell_suggest" (.boolean spellSuggestEnabled)
          ((table.tableAt "features").getD []))) := by
  simp [commitLexiconUpdate, TomlNode.asTable]

theorem readLegacyHotkeyToggles_commitLexiconUpdate (table : TomlTable) (spellSuggestEnabled : Bool)
    (spellExclusions : List (List WChar)) :
    readLegacyHotkeyToggles (commitLexiconUpdate table spellSuggestEnabled spellExclusions) =
      readLegacyHotkeyToggles table := by
  rw [readLegacyHotkeyToggles, commitLexiconUpdate_features, readLegacyHotkeyToggles]
  cases table.tableAt "features" with
  | none => simp [boolOr]
  | some features => simp

theorem migrateLegacyHotkeysIfNeeded_commitLexiconUpdate (table : TomlTable)
    (spellSuggestEnabled : Bool) (spellExclusions : List (List WChar)) :
    migrateLegacyHotkeysIfNeeded (commitLexiconUpdate table spellSuggestEnabled spellExclusions) =
      migrateLegacyHotkeysIfNeeded table := by
  have hagree : Agree registryKeys table
      (commitLexiconUpdate table spellSuggestEnabled spellExclusions) :=
    commitLexiconUpdate_agree table _ _ (by decide)
  rw [migrateLegacyHotkeysIfNeeded, migrateLegacyHotkeysIfNeeded, loadHotkeyRegistry_congr hagree,
    hasHotkeyStateSection, hasHotkeyStateSection, hagree "hotkey_state" (by decide),
    readLegacyHotkeyToggles_commitLexiconUpdate]

variable [WideCType]

theorem loadFeatures_commitLexiconUpdate (table : TomlTable) (spellSuggestEnabled : Bool)
    {spellExclusions : List (List WChar)}
    (h : ∀ wide ∈ spellExclusions, 2 ≤ wide.length ∧ wide.map towlower = wide)
    (inputMethod : InputMethod) (codeTable : CodeTable) (customKeyMap : Fin 128 → TypingAction) :
    loadFeatures (commitLexiconUpdate table spellSuggestEnabled spellExclusions)
        { inputMethod, codeTable, customKeyMap } =
      { loadFeatures table { inputMethod, codeTable, customKeyMap } with
        spellSuggestEnabled, spellExclusions } := by
  have hlong : spellExclusions.map (fun entry => TomlNode.string (wideToUtf8 entry)) =
      saveSpellExclusions spellExclusions := by
    rw [saveSpellExclusions, List.filter_eq_self.mpr fun wide hwide =>
      decide_eq_true (h wide hwide).1]
  have hload := loadSpellExclusions_saveSpellExclusions h
  rw [loadFeatures, commitLexiconUpdate_features, hlong, loadFeatures]
  cases table.tableAt "features" with
  | none => simp [boolOr, intOr, TomlNode.valueBool, TomlNode.asArray, UInt8.ofInt, hload]
  | some features => simp [TomlNode.valueBool, TomlNode.asArray, hload]

theorem loadFromFile_commitLexiconUpdate (table : TomlTable) (spellSuggestEnabled : Bool)
    {spellExclusions : List (List WChar)}
    (h : ∀ wide ∈ spellExclusions, 2 ≤ wide.length ∧ wide.map towlower = wide) :
    loadFromFile (commitLexiconUpdate table spellSuggestEnabled spellExclusions) =
      { loadFromFile table with spellSuggestEnabled, spellExclusions } := by
  have hagree : Agree ["input", "UserDefinedKeyMap", "debug"] table
      (commitLexiconUpdate table spellSuggestEnabled spellExclusions) :=
    commitLexiconUpdate_agree table _ _ (by decide)
  exact loadFromFile_of_agree hagree (loadFeatures_commitLexiconUpdate table spellSuggestEnabled h)
    fun config => loadDebug_lexicon table config spellSuggestEnabled spellExclusions

theorem loaded_commitLexiconUpdate (table : TomlTable) (spellSuggestEnabled : Bool)
    {spellExclusions : List (List WChar)}
    (h : ∀ wide ∈ spellExclusions, 2 ≤ wide.length ∧ wide.map towlower = wide) :
    loaded (commitLexiconUpdate table spellSuggestEnabled spellExclusions) =
      { loaded table with
        typing := { (loaded table).typing with spellSuggestEnabled, spellExclusions } } := by
  have hagree {sections : List String}
    (hsections : ∀ key ∈ sections, key ∉ ["features", "internal"]) :
      Agree sections table (commitLexiconUpdate table spellSuggestEnabled spellExclusions) :=
    commitLexiconUpdate_agree table _ _ hsections
  rw [loaded_of_agree_apps (hagree (by decide)), loadFromFile_commitLexiconUpdate table _ h,
    loadHotkeyRegistry_congr (hagree (by decide)),
      loadHotkeyRegistryOrDefault_congr (hagree (by decide)),
    migrateLegacyHotkeysIfNeeded_commitLexiconUpdate]
  rfl

/-! ## What each writer gives the settings -/

theorem SectionSave.kept (table : TomlTable) {save : SectionSave} (h : save.toSave.Within) :
    save.toSave.Kept table := by
  cases save with
  | hotkeyRegistry registry => exact hotkeyRegistry_kept table h
  | excludedApps apps => exact excludedApps_kept table h
  | forcedVnApps apps => exact forcedVnApps_kept table h
  | smartSwitchApps apps => exact smartSwitchApps_kept table h
  | tsfApps apps => exact tsfApps_kept table h
  | appOverrides data => exact appOverrides_kept table h

theorem get_section (table : TomlTable) {save : SectionSave} (h : save.toSave.Within)
    (setting : Setting) :
    (loaded (save.toSave.apply table)).get setting =
      ((Writer.saving save).meant setting).getD ((loaded table).get setting) := by
  rw [SectionSave.kept table h]
  cases setting with
  | typing setting =>
      cases setting with
      | flag f => cases f <;> cases save <;> rfl
      | _ => cases save <;> rfl
  | _ => cases save <;> rfl

theorem get_lexicon (table : TomlTable) (spellSuggestEnabled : Bool)
    {spellExclusions : List (List WChar)}
    (h : ∀ wide ∈ spellExclusions, 2 ≤ wide.length ∧ wide.map towlower = wide) (setting : Setting) :
    (loaded (commitLexiconUpdate table spellSuggestEnabled spellExclusions)).get setting =
      ((Writer.lexicon spellSuggestEnabled spellExclusions).meant setting).getD
        ((loaded table).get setting) := by
  rw [loaded_commitLexiconUpdate table spellSuggestEnabled h]
  cases setting with
  | typing setting =>
      cases setting with
      | flag f => cases f <;> rfl
      | _ => rfl
  | _ => rfl

/-- The save of the typing configuration does if the configuration is that of the file but for the
setting. -/
theorem get_typing (table : TomlTable) {config : TypingConfig} {setting : TypingSetting}
    {value : setting.Value} (hwithin : config.Within)
    (hharmless : (Save.toFile config).Harmless table)
    (hconfig : config = (loadFromFile table).set setting value) (other : Setting) :
    (loaded (saveToFile table config)).get other =
      ((Writer.typing setting value).meant other).getD ((loaded table).get other) := by
  have hkept : loaded (saveToFile table config) = { loaded table with typing := config } :=
    (toFile_kept_iff table hwithin).mpr hharmless
  rw [hkept, hconfig]
  cases other with
  | typing other =>
      change ((loadFromFile table).set setting value).get other =
        (if h : setting = other then some (h ▸ value) else none).getD
          ((loadFromFile table).get other)
      by_cases h : setting = other
      · subst h
        rw [dif_pos rfl]
        exact (loadFromFile table).get_set_self setting value
      · rw [dif_neg h]
        exact (loadFromFile table).get_set_of_ne value (Ne.symm h)
  | perfHistogram => exact (loadFromFile table).perfHistogramEnabled_set setting value
  | _ => rfl

end Updates

/-! ## Writers that interleave -/

/-- Where a writer is; the configuration that it has loaded is held outside the lock. -/
inductive Phase where
  | start
  | loaded (config : TypingConfig)
  | done

structure World (ι : Type) where
  file : TomlTable
  phase : ι → Phase := fun _ => .start
  /-- The writers whose save has returned true, in their order. -/
  finished : List Writer := []

inductive Event (ι : Type) where
  | load (i : ι)
  | loadFails (i : ι)
  | save (i : ι)
  | saveFails (i : ι)

section Runs

variable {ι : Type} [DecidableEq ι] [WideText] [WideCType] {writer : ι → Writer} {w w' : World ι}

def World.setPhase (w : World ι) (i : ι) (phase : Phase) : World ι :=
  { w with phase := Function.update w.phase i phase }

/-- The save of a writer has replaced the file. -/
def World.finish (w : World ι) (i : ι) (writer : Writer) (file : TomlTable) : World ι :=
  { (w.setPhase i .done) with file, finished := w.finished ++ [writer] }

/-- The file is read and replaced under the lock, so a save is one step; `LoadOrDefault` is
another. -/
inductive Step (writer : ι → Writer) : World ι → Event ι → World ι → Prop
  | load {w : World ι} {i : ι} {setting : TypingSetting} {value : setting.Value}
      (hwriter : writer i = .typing setting value) (hphase : w.phase i = .start) :
      Step writer w (.load i) (w.setPhase i (.loaded (loadFromFile w.file)))
  | loadFails {w : World ι} {i : ι} {setting : TypingSetting} {value : setting.Value}
      (hwriter : writer i = .typing setting value) (hphase : w.phase i = .start) :
      Step writer w (.loadFails i) (w.setPhase i (.loaded {}))
  | saveToFile {w : World ι} {i : ι} {setting : TypingSetting} {value : setting.Value}
      {config : TypingConfig}
      (hwriter : writer i = .typing setting value) (hphase : w.phase i = .loaded config) :
      Step writer w (.save i)
        (w.finish i (writer i) (saveToFile w.file (config.set setting value)))
  | saveSection {w : World ι} {i : ι} {save : SectionSave} (hwriter : writer i = .saving save)
      (hphase : w.phase i = .start) :
      Step writer w (.save i) (w.finish i (writer i) (save.toSave.apply w.file))
  | commitLexiconUpdate {w : World ι} {i : ι} {spellSuggestEnabled : Bool}
      {spellExclusions : List (List WChar)}
      (hwriter : writer i = .lexicon spellSuggestEnabled spellExclusions)
      (hphase : w.phase i = .start) (hgeneration : wireGeneration w.file < 0x7FFFFFFFFFFFFFFF) :
      Step writer w (.save i)
        (w.finish i (writer i) (commitLexiconUpdate w.file spellSuggestEnabled spellExclusions))
  | saveFails {w : World ι} {i : ι} : Step writer w (.saveFails i) (w.setPhase i .done)

/-- A typing configuration that is saved is that of the file but for the setting that its writer
changes; and the data is inside the limits of the loaders. -/
def UpToDate (writer : ι → Writer) (w : World ι) : Event ι → Prop
  | .save i =>
      match writer i with
      | .typing setting value => ∀ config, w.phase i = .loaded config →
          config.set setting value = (loadFromFile w.file).set setting value ∧
          (config.set setting value).Within ∧
          (Save.toFile (config.set setting value)).Harmless w.file
      | .saving save => save.toSave.Within
      | .lexicon _ spellExclusions =>
          ∀ wide ∈ spellExclusions, 2 ≤ wide.length ∧ wide.map towlower = wide
  | .load _ => True
  | .loadFails _ => True
  | .saveFails _ => True

/-- A step gives the settings the values that the writer that it finishes means to, and no
others. -/
theorem Step.get {event : Event ι} (h : Step writer w event w')
    (hupToDate : UpToDate writer w event) :
    (w'.finished = w.finished ∧ w'.file = w.file) ∨
      ∃ i, w'.finished = w.finished ++ [writer i] ∧ ∀ setting,
        (loaded w'.file).get setting =
          ((writer i).meant setting).getD ((loaded w.file).get setting) := by
  cases h with
  | load => exact Or.inl ⟨rfl, rfl⟩
  | loadFails => exact Or.inl ⟨rfl, rfl⟩
  | saveFails => exact Or.inl ⟨rfl, rfl⟩
  | @saveToFile i setting value config hwriter hphase =>
      rw [UpToDate, hwriter] at hupToDate
      obtain ⟨hconfig, hwithin, hharmless⟩ := hupToDate config hphase
      refine Or.inr ⟨i, rfl, fun other => ?_⟩
      rw [hwriter]
      exact get_typing w.file hwithin hharmless hconfig other
  | @saveSection i save hwriter =>
      rw [UpToDate, hwriter] at hupToDate
      refine Or.inr ⟨i, rfl, fun setting => ?_⟩
      rw [hwriter]
      exact get_section w.file hupToDate setting
  | @commitLexiconUpdate i spellSuggestEnabled spellExclusions hwriter =>
      rw [UpToDate, hwriter] at hupToDate
      refine Or.inr ⟨i, rfl, fun setting => ?_⟩
      rw [hwriter]
      exact get_lexicon w.file spellSuggestEnabled hupToDate setting

end Runs

end ConfigManager

end VKey
