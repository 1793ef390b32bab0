import VKey.Config.MacroTable
import VKey.Support.ListEdits

/-!
# Which macro tables survive

A table comes back from the configuration file if no entry is longer in bytes than the loader reads,
and from an exported file if no key has what the text format takes for its own: a colon, or the sign
of a comment in front.
-/

namespace VKey

namespace MacroFiles

open ConfigManager (kMaxMacroKeyLen kMaxMacroValueLen)
open TomlTable
open WinStrings

/-! ## The texts of a macro -/

theorem MacroText.convertible {limit : Nat} {text : List Char16} (h : MacroText limit text) :
    Convertible text :=
  ⟨h.wellFormed, fun hzero => absurd (h.printable 0 hzero) (by decide)⟩

theorem MacroText.notMem_wideToUtf8 {limit : Nat} {text : List Char16}
    (h : MacroText limit text) {c : Char}
    (hc : c.toNat < 0x20) : c ∉ (WinStrings.wideToUtf8 text).toList := fun hmem => by
  have hunit := (h.convertible.mem_wideToUtf8 (hc.trans (by decide))).mp hmem
  have hle := h.printable _ hunit
  rw [toNat_unitOf (hc.trans (by decide))] at hle
  omega

theorem MacroText.toList_ne_nil {limit : Nat} {text : List Char16} (h : MacroText limit text) :
    (WinStrings.wideToUtf8 text).toList ≠ [] := fun hnil => by
  have htext := h.convertible.flatMap_wideToUtf8
  rw [hnil, List.flatMap_nil] at htext
  exact absurd h.length_pos (by rw [← htext]; decide)

theorem MacroText.isEmpty_eq_false {limit : Nat} {text : List Char16} (h : MacroText limit text) :
    text.isEmpty = false :=
  List.isEmpty_eq_false_iff.mpr (List.ne_nil_of_length_pos h.length_pos)

/-! ## The configuration file -/

/-- What the loader reads of an entry is not too long in bytes. -/
def FitsLoader (entry : List Char16 × List Char16) : Prop :=
  (WinStrings.wideToUtf8 entry.1).utf8ByteSize ≤ kMaxMacroKeyLen ∧
    (WinStrings.wideToUtf8 entry.2).utf8ByteSize ≤ kMaxMacroValueLen

instance (entry : List Char16 × List Char16) : Decidable (FitsLoader entry) :=
  inferInstanceAs (Decidable (_ ∧ _))

def macroNode (entry : List Char16 × List Char16) : String × TomlNode :=
  (WinStrings.wideToUtf8 entry.1, .string (WinStrings.wideToUtf8 entry.2))

/-- The section that is written has the entries of the table, in the order of the keys. -/
theorem exists_tableAt_saveMacros (table : TomlTable) (macros : AcceptedMacros) :
    ∃ rows : List (List Char16 × List Char16), rows.Perm macros.entries ∧
      (saveMacros table macros).tableAt "macros" = some (rows.map macroNode) := by
  have hnodup : ((macros.entries.map macroNode).map Prod.fst).Nodup := by
    have hkeys : (macros.entries.map macroNode).map Prod.fst =
        (macros.entries.map Prod.fst).map WinStrings.wideToUtf8 := by
      rw [List.map_map, List.map_map]
      rfl
    have hconvertible : ∀ key ∈ macros.entries.map Prod.fst, Convertible key := fun key hkey => by
      obtain ⟨entry, hentry, rfl⟩ := List.mem_map.mp hkey
      exact (macros.key entry hentry).convertible
    rw [hkeys]
    exact macros.nodup.map_on fun a ha b hb h => wideToUtf8_injOn (hconvertible a ha)
      (hconvertible b hb) h
  obtain ⟨rows, hrows, hperm⟩ :=
    (congrFun (congrFun (List.eq_map_comp_perm macroNode) _) macros.entries).mpr
      (perm_assignAll_nil hnodup)
  refine ⟨rows, hperm, ?_⟩
  rw [← hrows, assignAll, List.foldl_map, saveMacros, tableAt_insertOrAssign, if_pos rfl]
  rfl

theorem loadMacro_macroNode (data : Macros) {row : List Char16 × List Char16}
    (hkey : Convertible row.1) (hvalue : Convertible row.2) :
    ConfigManager.loadMacro WinStrings.utf8ToWide data (macroNode row) =
      if FitsLoader row then Function.update data row.1 (some row.2) else data := by
  have hlong : (WinStrings.wideToUtf8 row.1).utf8ByteSize > kMaxMacroKeyLen ∨
      (WinStrings.wideToUtf8 row.2).utf8ByteSize > kMaxMacroValueLen ↔ ¬FitsLoader row := by
    rw [FitsLoader, not_and_or, not_le, not_le]
  rw [ConfigManager.loadMacro, macroNode]
  simp only [TomlNode.asString, hlong, ite_not, hkey.utf8ToWide_wideToUtf8,
    hvalue.utf8ToWide_wideToUtf8]

theorem foldl_loadMacro {rows : List (List Char16 × List Char16)}
    (hrows : ∀ row ∈ rows, Convertible row.1 ∧ Convertible row.2) (data : Macros) :
    (rows.map macroNode).foldl (ConfigManager.loadMacro WinStrings.utf8ToWide) data =
      (rows.filter FitsLoader).foldl
      (fun (data : Macros) row => Function.update data row.1 (some row.2))
        data := by
  induction rows generalizing data with
  | nil => rfl
  | cons row rest ih =>
      obtain ⟨⟨hkey, hvalue⟩, hrest⟩ := List.forall_mem_cons.mp hrows
      rw [List.map_cons, List.foldl_cons, loadMacro_macroNode data hkey hvalue,
        ih hrest, List.filter_cons]
      by_cases hfits : FitsLoader row
      · rw [if_pos hfits, if_pos (decide_eq_true hfits), List.foldl_cons]
      · rw [if_neg hfits, if_neg (by simpa using hfits)]

theorem loadMacros_saveMacros_iff (table : TomlTable) (macros : AcceptedMacros) :
    loadMacros (saveMacros table macros) = macros.at? ↔
      ∀ entry ∈ macros.entries, FitsLoader entry := by
  obtain ⟨rows, hperm, hsection⟩ := exists_tableAt_saveMacros table macros
  have hrows : ∀ row ∈ rows, Convertible row.1 ∧ Convertible row.2 := fun row hrow =>
    have hentry := hperm.mem_iff.mp hrow
    ⟨(macros.key row hentry).convertible, (macros.value row hentry).convertible⟩
  have hnodup : (rows.map Prod.fst).Nodup := (hperm.map Prod.fst).nodup_iff.mpr macros.nodup
  have hfiltered : ((rows.filter FitsLoader).map Prod.fst).Nodup :=
    hnodup.sublist (List.filter_sublist.map Prod.fst)
  have hload (key : List Char16) :
      loadMacros (saveMacros table macros) key = (rows.filter FitsLoader).lookup key := by
    rw [loadMacros, ConfigManager.loadMacros, hsection]
    simp only [foldl_loadMacro hrows, foldl_update_eq_lookup hfiltered, Option.or_none]
  constructor
  · intro h entry hentry
    have hlookup : macros.at? entry.1 = some entry.2 :=
      (lookup_eq_some_iff_mem macros.nodup).mpr hentry
    rw [← h, hload] at hlookup
    exact of_decide_eq_true (List.mem_filter.mp ((lookup_eq_some_iff_mem hfiltered).mp hlookup)).2
  · intro h
    have hall : rows.filter FitsLoader = rows :=
      List.filter_eq_self.mpr fun row hrow => decide_eq_true (h row (hperm.mem_iff.mp hrow))
    funext key
    rw [hload, hall]
    exact lookup_eq_of_perm hperm hnodup key

/-! ## What a file can hold -/

/-- A key that the text format does not take for its own signs. -/
structure PlainKey (key : List Char16) : Prop where
  colon : unitOf ':' ∉ key
  semicolon : key.head? ≠ some (unitOf ';')
  hash : key.head? ≠ some (unitOf '#')

instance (key : List Char16) : Decidable (PlainKey key) :=
  decidable_of_iff (unitOf ':' ∉ key ∧ key.head? ≠ some (unitOf ';') ∧
    key.head? ≠ some (unitOf '#'))
    ⟨fun h => ⟨h.1, h.2.1, h.2.2⟩, fun h => ⟨h.1, h.2, h.3⟩⟩

theorem isSkipped_eq_false {line : List Char} :
    isSkipped line = false ↔ line ≠ [] ∧ line.head? ≠ some ';' ∧ line.head? ≠ some '#' := by
  rw [isSkipped, Bool.or_eq_false_iff, Bool.or_eq_false_iff, and_assoc, List.isEmpty_eq_false_iff,
    beq_eq_false_iff_ne, beq_eq_false_iff_ne]

theorem parseLines_induction {σ : Type} {handler : σ → List Char → σ} {P : σ → Prop}
    (hstep : ∀ s line, isSkipped line = false → P s → P (handler s line)) (firstLine : Bool)
    (lines : List (List Char)) {s : σ} (hs : P s) : P (parseLines handler firstLine lines s) := by
  induction lines generalizing firstLine s with
  | nil => exact hs
  | cons line rest ih =>
      rw [parseLines]
      refine ih false ?_
      split_ifs with hfirst hskipped hskipped
      · exact hs
      · exact hstep s _ (Bool.eq_false_of_not_eq_true hskipped) hs
      · exact hs
      · exact hstep s _ (Bool.eq_false_of_not_eq_true hskipped) hs

/-- The key of a line that is not skipped is plain. -/
theorem plainKey_of_splitAtColon {line : List Char} {key value : String}
    (hline : isSkipped line = false)
    (h : splitAtColon line = some (key, value)) : PlainKey (WinStrings.utf8ToWide key) := by
  obtain ⟨-, hsemicolon, hhash⟩ := isSkipped_eq_false.mp hline
  have hkey : key.toList = line.takeWhile (· ≠ ':') := by
    rw [splitAtColon] at h
    split_ifs at h
    rw [← (Prod.mk.inj (Option.some.inj h)).1, String.toList_ofList]
  have hhead : ∀ c, key.toList.head? = some c → line.head? = some c := fun c hc => by
    obtain ⟨rest, hrest⟩ := List.takeWhile_prefix (l := line) (· ≠ ':')
    rw [← hrest, ← hkey, List.head?_append, hc]
    rfl
  refine ⟨fun hcolon => ?_, fun hfirst => ?_, fun hfirst => ?_⟩
  · have hmem := mem_of_unitOf_mem_utf8ToWide (by decide) hcolon
    rw [hkey] at hmem
    exact absurd (List.mem_takeWhile_imp hmem) (by decide)
  · exact hsemicolon (hhead _ (head?_of_head?_utf8ToWide (by decide) hfirst))
  · exact hhash (hhead _ (head?_of_head?_utf8ToWide (by decide) hfirst))

namespace MacroDialog

/-- A line is left out or adds its entry. -/
theorem importLine_cases (dialog : MacroDialog) (macros : Macros) (line : List Char) :
    dialog.importLine macros line = macros ∨ ∃ key value, splitAtColon line = some (key, value) ∧
      dialog.importLine macros line =
        Function.update macros (WinStrings.utf8ToWide key)
        (some (WinStrings.utf8ToWide value)) := by
  cases dialog with
  | sciter =>
      rw [importLine, MacroTableDialog.importLine]
      rcases splitAtColon line with _ | ⟨key, value⟩
      · exact Or.inl rfl
      · dsimp only
        split_ifs
        · exact Or.inl rfl
        · exact Or.inl rfl
        · exact Or.inr ⟨key, value, rfl, rfl⟩
  | classic =>
      rw [importLine, ClassicMacroTableDialog.importLine]
      rcases splitAtColon line with _ | ⟨key, value⟩
      · exact Or.inl rfl
      · dsimp only
        split_ifs
        · exact Or.inr ⟨key, value, rfl, rfl⟩
        · exact Or.inl rfl

theorem importFile_some (dialog : MacroDialog) (macros : Macros) (file : List Char) :
    dialog.importFile macros true (some file) =
      parseConfigLines file dialog.importLine fun _ => none := by
  cases dialog <;> rfl

/-- A table that was read from a file has plain keys only. -/
theorem plainKey_of_importFile (dialog : MacroDialog) (macros : Macros) (file : List Char)
    {key value : List Char16} (h : dialog.importFile macros true (some file) key = some value) :
    PlainKey key := by
  rw [importFile_some, parseConfigLines] at h
  refine parseLines_induction
    (P := fun (macros : Macros) => ∀ key value, macros key = some value → PlainKey key)
    (fun macros line hline hplain key value hkey => ?_) true _
    (fun _ _ hnone => absurd hnone.symm (Option.some_ne_none _)) key value h
  rcases dialog.importLine_cases macros line with hsame | ⟨newKey, newValue, hsplit, hupdate⟩
  · exact hplain key value (hsame ▸ hkey)
  · rw [hupdate, Function.update_apply] at hkey
    split_ifs at hkey with heq
    · exact heq ▸ plainKey_of_splitAtColon hline hsplit
    · exact hplain key value hkey

end MacroDialog

/-! ## Exported files -/

theorem splitAtColon_macroLine {entry : List Char16 × List Char16}
    (hkey : MacroText kMaxMacroKeyLen entry.1) (hplain : PlainKey entry.1) :
    splitAtColon (macroLine entry) =
      some (WinStrings.wideToUtf8 entry.1, WinStrings.wideToUtf8 entry.2) := by
  have hcolon : ':' ∉ (WinStrings.wideToUtf8 entry.1).toList := fun hmem =>
    hplain.colon ((hkey.convertible.mem_wideToUtf8 (by decide)).mp hmem)
  have htake : (macroLine entry).takeWhile (· ≠ ':') = (WinStrings.wideToUtf8 entry.1).toList := by
    have hkept :
      ∀ c ∈ (WinStrings.wideToUtf8 entry.1).toList, decide (c ≠ ':') = true := fun c hc =>
      decide_eq_true fun heq => hcolon (heq ▸ hc)
    rw [macroLine, List.takeWhile_append_of_pos hkept]
    simp
  have hmem : ':' ∈ macroLine entry := by simp [macroLine]
  have hdrop : (macroLine entry).drop ((WinStrings.wideToUtf8 entry.1).toList.length + 1) =
      (WinStrings.wideToUtf8 entry.2).toList := by
    rw [macroLine, List.drop_length_add_append]
    rfl
  rw [splitAtColon]
  rw [htake, hdrop, if_neg (by simp [hmem, hkey.toList_ne_nil]), String.ofList_toList,
    String.ofList_toList]

theorem isSkipped_macroLine {entry : List Char16 × List Char16}
    (hkey : MacroText kMaxMacroKeyLen entry.1)
    (hplain : PlainKey entry.1) : isSkipped (macroLine entry) = false := by
  have hhead : (macroLine entry).head? = (WinStrings.wideToUtf8 entry.1).toList.head? := by
    rw [macroLine, List.head?_append_of_ne_nil _ hkey.toList_ne_nil]
  rw [isSkipped_eq_false, hhead]
  refine ⟨by simp [macroLine], fun h => ?_, fun h => ?_⟩
  · exact hplain.semicolon ((hkey.convertible.head?_wideToUtf8 (by decide)).mp h)
  · exact hplain.hash ((hkey.convertible.head?_wideToUtf8 (by decide)).mp h)

theorem notMem_macroLine {entry : List Char16 × List Char16}
    (hkey : MacroText kMaxMacroKeyLen entry.1)
    (hvalue : MacroText kMaxMacroValueLen entry.2) {c : Char} (hc : c.toNat < 0x20) :
    c ∉ macroLine entry := by
  rw [macroLine, List.mem_append, List.mem_cons]
  rintro (hmem | rfl | hmem)
  · exact hkey.notMem_wideToUtf8 hc hmem
  · exact absurd hc (by decide)
  · exact hvalue.notMem_wideToUtf8 hc hmem

theorem stripCr_of_notMem {line : List Char} (h : '\r' ∉ line) : stripCr line = line :=
  if_neg fun hlast => h (List.mem_of_getLast? hlast)

theorem parseLines_false {σ : Type} (handler : σ → List Char → σ) {lines : List (List Char)}
    (hlines : ∀ line ∈ lines, '\r' ∉ line ∧ isSkipped line = false) (s : σ) :
    parseLines handler false lines s = lines.foldl handler s := by
  induction lines generalizing s with
  | nil => rfl
  | cons line rest ih =>
      obtain ⟨⟨hcr, hskipped⟩, hrest⟩ := List.forall_mem_cons.mp hlines
      rw [parseLines, if_neg Bool.false_ne_true, stripCr_of_notMem hcr, hskipped,
        if_neg Bool.false_ne_true, ih hrest, List.foldl_cons]

theorem parseLines_macroHeader {σ : Type} (handler : σ → List Char → σ)
    (lines : List (List Char)) (s : σ) :
    parseLines handler true (macroHeader :: lines) s = parseLines handler false lines s := by
  have hskipped : isSkipped (stripBom (stripCr macroHeader)) = true := by decide
  rw [parseLines, if_pos rfl, hskipped, if_pos rfl]

namespace MacroDialog

theorem importLine_macroLine (dialog : MacroDialog) (macros : Macros)
    {entry : List Char16 × List Char16}
    (hkey : MacroText kMaxMacroKeyLen entry.1) (hvalue : MacroText kMaxMacroValueLen entry.2)
    (hplain : PlainKey entry.1) :
    dialog.importLine macros (macroLine entry) = Function.update macros entry.1 (some entry.2) := by
  have hsplit := splitAtColon_macroLine hkey hplain
  cases dialog with
  | sciter =>
      have hnonempty : (WinStrings.wideToUtf8 entry.2).isEmpty = false := by
        rw [String.isEmpty_eq_false_iff]
        exact fun h => hvalue.toList_ne_nil (String.toList_eq_nil_iff.mpr h)
      rw [importLine, MacroTableDialog.importLine, hsplit]
      simp only [hnonempty, hkey.convertible.utf8ToWide_wideToUtf8,
        hvalue.convertible.utf8ToWide_wideToUtf8,
        hkey.isEmpty_eq_false, hvalue.isEmpty_eq_false, Bool.or_false, Bool.false_eq_true, if_false]
  | classic =>
      have hkeyLe : entry.1.length ≤ 32 := hkey.length_le
      have hvalueLe : entry.2.length ≤ 20480 := hvalue.length_le
      rw [importLine, ClassicMacroTableDialog.importLine, hsplit]
      simp only [hkey.convertible.utf8ToWide_wideToUtf8, hvalue.convertible.utf8ToWide_wideToUtf8,
        hkey.isEmpty_eq_false, hvalue.isEmpty_eq_false, hkeyLe, hvalueLe,
          Bool.not_false, Bool.and_self,
        decide_true, if_true]

/-- An exported file gives the table back exactly if its keys are plain. -/
theorem importFile_exportFile_iff (dialog exporter : MacroDialog) (before : Macros)
    (macros : AcceptedMacros) :
    dialog.importFile before true (some (exporter.exportFile macros)) = macros.at? ↔
      ∀ entry ∈ macros.entries, PlainKey entry.1 := by
  constructor
  · intro h entry hentry
    have hlookup : macros.at? entry.1 = some entry.2 :=
      (lookup_eq_some_iff_mem macros.nodup).mpr hentry
    rw [← h] at hlookup
    exact plainKey_of_importFile dialog before _ hlookup
  · intro hplain
    have hperm : (macros.entries.mergeSort entryLe).Perm macros.entries := List.mergeSort_perm _ _
    have hnodup := (hperm.map Prod.fst).nodup_iff.mpr macros.nodup
    have hfile : exporter.exportFile macros = macroFile macros := by cases exporter <;> rfl
    have hsorted : ∀ entry ∈ macros.entries.mergeSort entryLe, MacroText kMaxMacroKeyLen entry.1 ∧
        MacroText kMaxMacroValueLen entry.2 ∧ PlainKey entry.1 := fun entry hentry =>
      have hmem := hperm.mem_iff.mp hentry
      ⟨macros.key entry hmem, macros.value entry hmem, hplain entry hmem⟩
    have hlines :
      ∀ line ∈ macroHeader :: (macros.entries.mergeSort entryLe).map macroLine, '\n' ∉ line := by
      refine List.forall_mem_cons.mpr ⟨by decide, fun line hline => ?_⟩
      obtain ⟨entry, hentry, rfl⟩ := List.mem_map.mp hline
      obtain ⟨hkey, hvalue, -⟩ := hsorted entry hentry
      exact notMem_macroLine hkey hvalue (by decide)
    have hhandled : ∀ line ∈ (macros.entries.mergeSort entryLe).map macroLine,
        '\r' ∉ line ∧ isSkipped line = false := fun line hline => by
      obtain ⟨entry, hentry, rfl⟩ := List.mem_map.mp hline
      obtain ⟨hkey, hvalue, hplain⟩ := hsorted entry hentry
      exact ⟨notMem_macroLine hkey hvalue (by decide), isSkipped_macroLine hkey hplain⟩
    funext key
    rw [importFile_some, hfile, parseConfigLines, macroFile, getLines_joinLines hlines,
      parseLines_macroHeader, parseLines_false _ hhandled, List.foldl_map,
      List.foldl_ext _
        (fun (macros : Macros) entry => Function.update macros entry.1 (some entry.2)) _
        fun macros entry hentry => importLine_macroLine dialog macros (hsorted entry hentry).1
          (hsorted entry hentry).2.1 (hsorted entry hentry).2.2,
      foldl_update_eq_lookup hnodup, Option.or_none]
    exact lookup_eq_of_perm hperm hnodup key

/-- The table is kept if no file is opened, unless it was cleared before. -/
theorem importFile_none_iff (dialog : MacroDialog) (macros : AcceptedMacros) :
    (∀ replace, dialog.importFile macros.at? replace none = macros.at?) ↔
      dialog = .classic ∨ macros.entries = [] := by
  cases dialog with
  | classic => exact iff_of_true (fun _ => rfl) (Or.inl rfl)
  | sciter =>
      rw [Bool.forall_bool, or_iff_right (by decide)]
      constructor
      · rintro ⟨-, hcleared⟩
        refine List.eq_nil_iff_forall_not_mem.mpr fun entry hentry => ?_
        have hlookup := (lookup_eq_some_iff_mem macros.nodup).mpr hentry
        exact Option.some_ne_none entry.2 ((congrFun hcleared entry.1).trans hlookup).symm
      · intro hnil
        have hnone : macros.at? = fun _ => none := by
          funext key
          rw [AcceptedMacros.at?, hnil, List.lookup_nil]
        exact ⟨rfl, hnone.symm⟩

end MacroDialog

/-! ## Tables that survive -/

/-- The table comes back from the configuration file and from an exported file, and stays if no file
is opened. -/
structure AcceptedMacros.Survives (macros : AcceptedMacros) (dialog : MacroDialog) : Prop where
  saved : ∀ table, loadMacros (saveMacros table macros) = macros.at?
  imported : ∀ (exporter : MacroDialog) (before : Macros),
    dialog.importFile before true (some (exporter.exportFile macros)) = macros.at?
  unopened : ∀ replace, dialog.importFile macros.at? replace none = macros.at?

/-- A table survives exactly if its entries fit the loader, its keys are plain and an import does
not clear it before the file is opened. -/
theorem AcceptedMacros.survives_iff (macros : AcceptedMacros) (dialog : MacroDialog) :
    macros.Survives dialog ↔
      (∀ entry ∈ macros.entries, FitsLoader entry ∧ PlainKey entry.1) ∧
        (dialog = .classic ∨ macros.entries = []) := by
  constructor
  · intro h
    have hfits := (loadMacros_saveMacros_iff [] macros).mp (h.saved [])
    have hplain :=
      (dialog.importFile_exportFile_iff dialog (fun _ => none) macros).mp (h.imported dialog _)
    exact ⟨fun entry hentry => ⟨hfits entry hentry, hplain entry hentry⟩,
      (dialog.importFile_none_iff macros).mp h.unopened⟩
  · rintro ⟨hentries, hdialog⟩
    exact {
      saved := fun table => (loadMacros_saveMacros_iff table macros).mpr fun entry hentry =>
        (hentries entry hentry).1
      imported := fun exporter before =>
        (dialog.importFile_exportFile_iff exporter before macros).mpr
        fun entry hentry => (hentries entry hentry).2
      unopened := (dialog.importFile_none_iff macros).mpr hdialog }

theorem printable_of_all {text : List Char16}
    (h : (text.all fun c => decide (0x20 ≤ c.toNat)) = true) : ∀ c ∈ text, 0x20 ≤ c.toNat :=
  fun c hc => of_decide_eq_true (List.all_eq_true.mp h c hc)

/-- A semicolon and sixteen letters of two bytes each, 33 bytes in all. -/
def semicolonKey : List Char16 := unitOf ';' :: List.replicate 16 0x111

def semicolonTable : AcceptedMacros where
  entries := [(semicolonKey, [unitOf 'x'])]
  nodup := List.nodup_singleton _
  key := List.forall_mem_singleton.mpr
    ⟨by decide, by decide, hasInvalidSurrogates_eq_false_iff.mp (by decide),
      printable_of_all (by decide)⟩
  value := List.forall_mem_singleton.mpr
    ⟨by decide, by decide, hasInvalidSurrogates_eq_false_iff.mp (by decide),
      printable_of_all (by decide)⟩

/-- The entry is not loaded, not imported and lost with a file that cannot be opened. -/
theorem not_survives :
    loadMacros (saveMacros [] semicolonTable) ≠ semicolonTable.at? ∧
      (∀ dialog : MacroDialog, dialog.importFile semicolonTable.at? true
        (some (dialog.exportFile semicolonTable)) ≠ semicolonTable.at?) ∧
      MacroDialog.sciter.importFile semicolonTable.at? true none ≠ semicolonTable.at? := by
  refine ⟨fun h => ?_, fun dialog h => ?_, fun h => ?_⟩
  · have hfits := (loadMacros_saveMacros_iff [] semicolonTable).mp h _ List.mem_cons_self
    revert hfits
    decide
  · have hplain :=
      (dialog.importFile_exportFile_iff dialog _ semicolonTable).mp h _ List.mem_cons_self
    revert hplain
    decide
  · exact absurd (congrFun h semicolonKey) (by decide)

end MacroFiles

end VKey
