import VKey.Hook.AutoCaps
import VKey.Hook.Dispatch

/-!
# The automaton against the scan

The state of the automaton can be read off the text: it is ready exactly where the scan finds the
start of a sentence or of a line, and behind a mark exactly where the text ends in one.  A key that
types the character of its transition keeps it so, and no stage of the key path leaves a word in the
engine while a capital is pending.
-/

namespace VKey

namespace HookEngine

/-! ## What the text says -/

/-- The state of the automaton that fits a text. -/
def specState (text : List WChar) : AutoCapState :=
  if computeShouldAutoCap text then .readyToCapitalize
  else if text.getLast?.any isSentenceMark then .afterPunct
  else .idle

/-- What a unit makes of the state. -/
def AutoCapState.afterUnit (state : AutoCapState) (c : WChar) : AutoCapState :=
  if c = L '\n' then .readyToCapitalize
  else if c = L ' ' then if state = .idle then .idle else .readyToCapitalize
  else if isSentenceMark c then .afterPunct
  else .idle

theorem specState_eq_ready_iff (text : List WChar) :
    specState text = .readyToCapitalize ↔ computeShouldAutoCap text = true := by
  rw [specState]
  split_ifs with hready
  · exact iff_of_true rfl hready
  · exact iff_of_false nofun hready
  · exact iff_of_false nofun hready

/-- Behind white space the scan finds a trigger exactly if the text before it does not say that the
automaton is idle. -/
theorem classifyBackwards_true_iff (text : List WChar) :
    classifyBackwards true text.reverse ≠ .none ↔ specState text ≠ .idle := by
  induction text using List.reverseRecOn with
  | nil => decide
  | append_singleton text c _ =>
      rw [specState, computeShouldAutoCap, classifyCapTrigger, List.reverse_append,
        List.reverse_singleton,
        List.singleton_append, List.getLast?_concat, classifyBackwards, classifyBackwards]
      by_cases hblank : c = L ' ' ∨ c = L '\t'
      · have hmark : isSentenceMark c = false := by
          rcases hblank with rfl | rfl <;> rfl
        rw [if_pos hblank, if_pos hblank]
        cases htrigger : classifyBackwards true text.reverse <;> simp [hmark]
      · rw [if_neg hblank, if_neg hblank]
        by_cases hline : c = L '\n' ∨ c = L '\r'
        · rw [if_pos hline, if_pos hline]
          exact iff_of_true nofun nofun
        · rw [if_neg hline, if_neg hline]
          cases hmark : isSentenceMark c <;> simp [hmark]

/-- The state of a longer text. -/
theorem specState_append (text : List WChar) {c : WChar} (htab : c ≠ L '\t')
    (hreturn : c ≠ L '\r') :
    specState (text ++ [c]) = (specState text).afterUnit c := by
  have hspec : specState (text ++ [c]) =
      if classifyBackwards false (c :: text.reverse) != .none then .readyToCapitalize
      else if isSentenceMark c then .afterPunct else .idle := by
    rw [specState, computeShouldAutoCap, classifyCapTrigger, List.reverse_append,
      List.reverse_singleton, List.singleton_append, List.getLast?_concat]
    rfl
  rw [hspec]
  by_cases hspace : c = L ' '
  · subst hspace
    have hscan :
      classifyBackwards false (L ' ' :: text.reverse) = classifyBackwards true text.reverse := rfl
    have hafter : (specState text).afterUnit (L ' ') =
        if specState text = .idle then .idle else .readyToCapitalize := rfl
    rw [hscan, hafter]
    by_cases hidle : specState text = .idle
    · have hnone : classifyBackwards true text.reverse = .none := by
        by_contra hnone
        exact (classifyBackwards_true_iff text).mp hnone hidle
      rw [hnone, if_pos hidle]
      rfl
    · rw [if_neg hidle, if_pos (bne_iff_ne.mpr ((classifyBackwards_true_iff text).mpr hidle))]
  · by_cases hline : c = L '\n'
    · subst hline
      rfl
    · have hscan : classifyBackwards false (c :: text.reverse) = .none := by
        rw [classifyBackwards, if_neg (by simp [hspace, htab]), if_neg (by simp [hline, hreturn]),
          Bool.and_false]
        rfl
      rw [hscan, AutoCapState.afterUnit, if_neg hline, if_neg hspace]
      rfl

/-! ## What a key says -/

/-- The automaton behind a key that no stage consumes: a letter uses a pending capital up. -/
def AutoCapState.afterKey (state : AutoCapState) (key : Key) : AutoCapState :=
  if isAlphaVk key.vkCode then .idle else state.move key

/-- The key is no `>` and no full stop of the numeric keypad. -/
structure TypesItsMark (key : Key) : Prop where
  notGreater : key.vkCode = vkOemPeriod → key.shift = false
  notDecimal : key.vkCode ≠ vkDecimal

theorem move_usLayout (state : AutoCapState) (shift : Bool) :
    ∀ entry ∈ usLayout, (entry.1 = vkOemPeriod → shift = false) → entry.1 ≠ vkDecimal →
      computeAutoCapStateTransition state entry.1 shift false false false =
        state.afterUnit (if shift then entry.2.2 else entry.2.1) := by
  cases state <;> cases shift <;> decide

theorem not_special_usLayout (shift : Bool) : ∀ entry ∈ usLayout,
    isAlphaVk entry.1 = false ∧ (if shift then entry.2.2 else entry.2.1) ≠ L '\t' ∧
      (if shift then entry.2.2 else entry.2.1) ≠ L '\r' := by
  cases shift <;> decide

theorem UsKey.exists_entry (us : UsKey) (halpha : isAlphaVk us.key.vkCode = false) :
    ∃ units, (us.key.vkCode, units) ∈ usLayout ∧
      us.key.typed = if us.key.shift then units.2 else units.1 := by
  have htypes := us.types.resolve_left (by rw [halpha]; exact Bool.false_ne_true)
  rw [usUnit, Option.map_eq_some_iff] at htypes
  obtain ⟨units, hlookup, htyped⟩ := htypes
  obtain ⟨front, back, hlayout, -⟩ := List.lookup_eq_some_iff.mp hlookup
  refine ⟨units, ?_, htyped.symm⟩
  rw [hlayout]
  exact List.mem_append_right _ List.mem_cons_self

theorem UsKey.ne_back (us : UsKey) : us.key.vkCode ≠ vkBack := by
  intro hback
  have halpha : isAlphaVk us.key.vkCode = false := by
    rw [hback]
    decide
  obtain ⟨units, hmem, -⟩ := us.exists_entry halpha
  have hkeys : vkBack ∈ usLayout.map Prod.fst := by
    rw [← hback]
    exact List.mem_map_of_mem hmem
  exact absurd hkeys (by decide)

theorem key_of_move_eq_ready {state : AutoCapState} {key : Key} (hplain : key.shortcut = false)
    (halpha : isAlphaVk key.vkCode = false) (h : state.move key = .readyToCapitalize) :
    key.vkCode = vkSpace ∨ key.vkCode = vkReturn := by
  rw [AutoCapState.move, computeAutoCapStateTransition,
    if_neg (by simpa [Key.shortcut] using hplain)] at h
  split_ifs at h with hpunct hspace hreturn
  · exact Or.inl hspace.1
  · exact Or.inr hreturn
  · exact absurd halpha (by simp_all)

/-- A letter keeps a pending capital only. -/
theorem move_of_isAlphaVk {state : AutoCapState} {key : Key} (hplain : key.shortcut = false)
    (halpha : isAlphaVk key.vkCode = true) :
    state.move key = if state = .readyToCapitalize then .readyToCapitalize else .idle := by
  have hne : ∀ {vkCode}, isAlphaVk vkCode = false → key.vkCode ≠ vkCode := by
    rintro vkCode hvk rfl
    exact Bool.false_ne_true (hvk.symm.trans halpha)
  have hperiod : key.vkCode ≠ vkOemPeriod := hne (by decide)
  have hslash : key.vkCode ≠ vkOem2 := hne (by decide)
  have hone : key.vkCode ≠ vk1 := hne (by decide)
  have hspace : key.vkCode ≠ vkSpace := hne (by decide)
  have hreturn : key.vkCode ≠ vkReturn := hne (by decide)
  rw [AutoCapState.move, computeAutoCapStateTransition,
    if_neg (by simpa [Key.shortcut] using hplain),
    if_neg (by simp [hperiod, hslash, hone]), if_neg fun h =>
      hspace h.1, if_neg hreturn, if_pos halpha]
  split_ifs with hready
  · exact hready
  · rfl

section Units

variable [WideCType]

theorem unit_of_isAlphaVk {key : Key} (h : isAlphaVk key.vkCode = true) :
    0x41 ≤ key.unit ∧ key.unit ≤ 0x7A := by
  obtain ⟨hlow, hhigh⟩ := of_decide_eq_true h
  have hlower : towlower key.vkCode = key.vkCode + 0x20 := by
    have hascii : key.vkCode < 0x80 := Nat.lt_of_le_of_lt hhigh (by decide)
    exact (WideCType.towlower_ascii _ hascii).trans (if_pos ⟨hlow, hhigh⟩)
  rw [Key.unit, if_pos h, Key.originalCh, hlower]
  split_ifs
  · exact ⟨hlow, Nat.le_trans hhigh (by decide)⟩
  · exact ⟨Nat.le_add_right_of_le hlow, Nat.add_le_add_right hhigh 0x20⟩

omit [WideCType] in
theorem ne_of_letter {c special : WChar} (hc : 0x41 ≤ c ∧ c ≤ 0x7A) (hspecial : special < 0x41) :
    c ≠ special := by
  rintro rfl
  exact absurd hspecial (Nat.not_lt.mpr hc.1)

theorem unit_of_not_isAlphaVk {key : Key} (h : isAlphaVk key.vkCode = false) :
    key.unit = key.typed :=
  if_neg (by rw [h]; exact Bool.false_ne_true)

theorem unit_of_return (us : UsKey) (h : us.key.vkCode = vkReturn) : us.key.unit = L '\n' := by
  have halpha : isAlphaVk us.key.vkCode = false := by rw [h]; decide
  have hlayout : ∀ entry ∈ usLayout, entry.1 = vkReturn → entry.2 = (L '\n', L '\n') := by decide
  obtain ⟨units, hmem, htyped⟩ := us.exists_entry halpha
  have hunits : units = (L '\n', L '\n') := hlayout _ hmem h
  rw [unit_of_not_isAlphaVk halpha, htyped, hunits]
  exact ite_self _

theorem unit_ne (us : UsKey) : us.key.unit ≠ L '\t' ∧ us.key.unit ≠ L '\r' := by
  cases halpha : isAlphaVk us.key.vkCode with
  | true =>
      have hunit := unit_of_isAlphaVk halpha
      exact ⟨ne_of_letter hunit (by decide), ne_of_letter hunit (by decide)⟩
  | false =>
      obtain ⟨units, hmem, htyped⟩ := us.exists_entry halpha
      rw [unit_of_not_isAlphaVk halpha, htyped]
      exact (not_special_usLayout us.key.shift _ hmem).2

/-- The automaton follows the unit that the key types. -/
theorem afterKey_eq (us : UsKey) (hmark : TypesItsMark us.key) (state : AutoCapState) :
    state.afterKey us.key = state.afterUnit us.key.unit := by
  rw [AutoCapState.afterKey]
  cases halpha : isAlphaVk us.key.vkCode with
  | true =>
      have hunit := unit_of_isAlphaVk halpha
      have hmarks : isSentenceMark us.key.unit = false := by
        have hperiod : us.key.unit ≠ L '.' := ne_of_letter hunit (by decide)
        have hquestion : us.key.unit ≠ L '?' := ne_of_letter hunit (by decide)
        have hexclamation : us.key.unit ≠ L '!' := ne_of_letter hunit (by decide)
        simp only [isSentenceMark, beq_eq_false_iff_ne.mpr hperiod,
          beq_eq_false_iff_ne.mpr hquestion, beq_eq_false_iff_ne.mpr hexclamation, Bool.or_false]
      rw [if_pos rfl, AutoCapState.afterUnit, if_neg (ne_of_letter hunit (by decide)),
        if_neg (ne_of_letter hunit (by decide)), if_neg (by rw [hmarks]; exact Bool.false_ne_true)]
  | false =>
      obtain ⟨units, hmem, htyped⟩ := us.exists_entry halpha
      have hplain := us.plain
      simp only [Key.shortcut, Bool.or_eq_false_iff] at hplain
      rw [if_neg Bool.false_ne_true, unit_of_not_isAlphaVk halpha, htyped, AutoCapState.move,
        hplain.1.1, hplain.1.2, hplain.2]
      exact move_usLayout state us.key.shift _ hmem hmark.notGreater hmark.notDecimal

end Units

/-! ## What the stages leave -/

namespace State

variable {E : Type} [InputEngine E] {config : Config} {s s' s'' : State E} {key : Key}

/-- No word comes into the engine, no word begins with a digit, and no committed word is primed,
where it has not been so before. -/
structure Settles (s s' : State E) : Prop where
  count : s.count = 0 → s'.count = 0
  digitLedWord : s.digitLedWord = false → s'.digitLedWord = false
  notPrimed : s.commitState.state ≠ .primed → s'.commitState.state ≠ .primed

theorem Settles.refl (s : State E) : Settles s s := ⟨id, id, id⟩

theorem Settles.trans (h : Settles s s') (h' : Settles s' s'') : Settles s s'' :=
  ⟨h'.count ∘ h.count, h'.digitLedWord ∘ h.digitLedWord, h'.notPrimed ∘ h.notPrimed⟩

theorem settles_beforeStages (config : Config) (key : Key) (s : State E) :
    Settles s (s.beforeStages config key) := by
  rw [beforeStages]
  split_ifs
  · exact ⟨id, id, fun _ => nofun⟩
  · exact ⟨id, id, fun _ => nofun⟩
  · exact ⟨id, id, id⟩
  · exact Settles.refl s

theorem settles_beforeFsm (key : Key) (s : State E) : Settles s (s.beforeFsm key) := by
  rw [beforeFsm, cancelStale]
  split_ifs
  · exact ⟨id, id, fun _ => nofun⟩
  · exact ⟨id, id, id⟩

theorem settles_handleReadyGap (key : Key) (s : State E) : Settles s (s.handleReadyGap key) := by
  rw [handleReadyGap]
  split_ifs with hstate
  · exact Settles.refl s
  · exact ⟨id, id, fun _ => nofun⟩
  · dsimp only
    split
    · exact ⟨id, id, id⟩
    · exact ⟨id, id, fun _ => nofun⟩
    · exact ⟨id, id, fun _ => nofun⟩

theorem settles_tryEscRestoreRaw (config : Config) (key : Key) (s : State E) :
    Settles s (s.tryEscRestoreRaw config key).1 := by
  rw [tryEscRestoreRaw]
  by_cases hcount : 0 < s.count
  · rw [if_pos hcount]
    dsimp only
    split
    · exact Settles.refl s
    · exact ⟨fun _ => count_reset s.engine, id, id⟩
  · rw [if_neg hcount]
    split
    · exact Settles.refl s
    · split
      · exact Settles.refl s
      · split
        · exact ⟨id, id, fun _ => nofun⟩
        · split
          · exact Settles.refl s
          · exact ⟨id, id, fun _ => nofun⟩

theorem settles_tryEscRestore (config : Config) (key : Key) (s : State E) :
    Settles s (s.tryEscRestore config key).1 := by
  rw [tryEscRestore]
  split_ifs
  · exact settles_tryEscRestoreRaw config key s
  · exact Settles.refl s

variable [WideCType]

theorem handleCommitUndoFsm_of_notPrimed (hback : key.vkCode ≠ vkBack)
    (hprimed : s.commitState.state ≠ .primed) :
    s.handleCommitUndoFsm config key = ((s.beforeFsm key).handleReadyGap key, .fallthrough) := by
  have hprimed' := (settles_beforeFsm key s).notPrimed hprimed
  simp only [handleCommitUndoFsm, hback, hprimed', false_and, and_false, if_false]

variable [AsciiCType] [WordBreaks]

omit [AsciiCType] in
theorem settles_tryExpandMacro (config : Config) (triggerChar : WChar) (s : State E) :
    Settles s (s.tryExpandMacro config triggerChar).1 := by
  rw [tryExpandMacro]
  dsimp only
  split_ifs
  · exact Settles.refl s
  · exact ⟨fun _ => count_reset s.engine, fun _ => rfl, fun _ => nofun⟩
  · exact ⟨fun _ => count_reset s.engine, fun _ => rfl, fun _ => nofun⟩

omit [AsciiCType] [WordBreaks] in
theorem settles_trackMacroKey (key : Key) (s : State E) : Settles s (s.trackMacroKey key) := by
  rw [trackMacroKey]
  split_ifs
  · dsimp only
    split
    · exact ⟨id, id, id⟩
    · exact ⟨id, id, id⟩
  · exact ⟨id, id, id⟩
  · exact Settles.refl s

omit [WideCType] [WordBreaks] in
theorem settles_cleanMacroBuffer (config : Config) (key : Key) (s : State E) :
    Settles s (s.cleanMacroBuffer config key) := by
  rw [cleanMacroBuffer]
  split_ifs
  · dsimp only
    split
    · exact ⟨id, id, id⟩
    · exact ⟨id, id, id⟩
  · exact Settles.refl s
  · exact ⟨id, id, id⟩
  · exact Settles.refl s
  · exact ⟨id, id, id⟩

theorem settles_handleMacroKey (config : Config) (key : Key) (s : State E) :
    Settles s (s.handleMacroKey config key).1 := by
  have htrack := settles_trackMacroKey key s
  rw [handleMacroKey]
  dsimp only
  split
  · exact ⟨htrack.count, htrack.digitLedWord, htrack.notPrimed⟩
  · have hexpand :
      Settles s (if !(s.trackMacroKey key).tempMacroOff && shouldTrigger config key.vkCode &&
        !(s.trackMacroKey key).rawMacroBuffer.isEmpty then
          (s.trackMacroKey key).tryExpandMacro config key.macroChar
        else (s.trackMacroKey key, .noMatch)).1 := by
      split
      · exact htrack.trans (settles_tryExpandMacro config key.macroChar _)
      · exact htrack
    split
    · exact hexpand
    · exact hexpand
    · exact hexpand.trans (settles_cleanMacroBuffer config key _)

theorem settles_handleMacro (config : Config) (hback : key.vkCode ≠ vkBack) (s : State E) :
    Settles s (s.handleMacro config key).1 := by
  have hcleared : Settles s { s with macroUndo := none } := ⟨id, id, id⟩
  rw [handleMacro]
  split
  · rw [if_neg fun h => hback h.1, if_neg hback]
    split
    · exact hcleared.trans (settles_handleMacroKey config key _)
    · exact hcleared
  · split
    · exact settles_handleMacroKey config key s
    · exact Settles.refl s

/-- The stages before the dispatch of a key other than Backspace. -/
theorem settles_preEngine (config : Config) (key : Key) (hback : key.vkCode ≠ vkBack)
    (hprimed : s.commitState.state ≠ .primed) :
    Settles s (s.preEngine config key).1 := by
  have hbefore := settles_beforeStages config key s
  have hundo : Settles s (((s.beforeStages config key).beforeFsm key).handleReadyGap key) :=
    (hbefore.trans (settles_beforeFsm key _)).trans (settles_handleReadyGap key _)
  have hmacro := hundo.trans (settles_handleMacro config hback _)
  rw [preEngine]
  dsimp only
  split
  · exact hbefore
  · rw [handleCommitUndoFsm_of_notPrimed hback (hbefore.notPrimed hprimed)]
    simp only [ne_eq, not_true_eq_false, if_false]
    split
    · exact hmacro
    · exact hmacro.trans (settles_tryEscRestore config key _)

/-! ## What the dispatch leaves -/

omit [WideCType] [AsciiCType] [WordBreaks] in
/-- A commit leaves the state of the undo window. -/
theorem state_commitComposition (config : Config) (verbatim : Bool) (s : State E) :
    (s.commitComposition config verbatim).1.commitState.state = s.commitState.state := by
  have hshown : (s.showCommitted config verbatim).commitState = s.commitState := by
    rw [showCommitted]
    split
    · exact commitState_replaceComposition _ _
    · rfl
  have hpushed : ∀ (quick : Bool) (raw text : List WChar) (shown : State E),
      (shown.pushCommitted quick raw text).commitState.state = shown.commitState.state := by
    intro quick raw text shown
    rw [pushCommitted]
    split
    · rfl
    · rfl
  change ((s.showCommitted config verbatim).pushCommitted _ _ _).commitState.state = _
  rw [hpushed, hshown]

omit [WideCType] [AsciiCType] [WordBreaks] in
theorem settles_commitComposition (config : Config) (verbatim : Bool) (s : State E) :
    Settles s (s.commitComposition config verbatim).1 :=
  ⟨fun _ => count_clearWordState, fun _ => rfl, fun h => by rwa [state_commitComposition]⟩

omit [InputEngine E] [AsciiCType] [WordBreaks] in
theorem deliver_eq (key : Key) (handled : State E × KeyOutcome) :
    ∃ host, deliver key handled = { handled.1 with host } := by
  rw [deliver]
  split
  · exact ⟨_, rfl⟩
  · exact ⟨_, rfl⟩

/-- The key leaves no word behind, and the next one does not begin with a digit. -/
structure EndsWord (s : State E) : Prop where
  count : s.count = 0
  digitLedWord : s.digitLedWord = false

omit [WordBreaks] in
/-- A trigger behind a word. -/
theorem ends_handleCommitTrigger (config : Config) (key : Key) (s : State E) :
    EndsWord (deliver key (s.handleCommitTrigger config key)) ∧
      (s.commitState.state ≠ .primed →
        (deliver key (s.handleCommitTrigger config key)).commitState.state ≠ .primed) := by
  obtain ⟨host, hdeliver, -⟩ := deliver_sendTrigger key
    (s.isAutoRestored (isVerbatimCommitTrigger key.macroChar)) (s.committedBy config key)
  rw [handleCommitTrigger, hdeliver]
  have hstate := state_commitComposition config (isVerbatimCommitTrigger key.macroChar) s
  have hcount : (s.commitComposition config (isVerbatimCommitTrigger key.macroChar)).1.count = 0 :=
    count_clearWordState
  have hdigit :
    (s.commitComposition config (isVerbatimCommitTrigger key.macroChar)).1.digitLedWord =
      false := rfl
  rw [committedBy]
  dsimp only
  generalize (s.commitComposition config (isVerbatimCommitTrigger key.macroChar)).1 = committed at *
  have hzero := count_clearNavigatedContext key hcount
  obtain ⟨engine, hnavigated⟩ := clearNavigatedContext_eq key committed
  rw [hnavigated] at hzero ⊢
  obtain ⟨buffer, cross, cap, hcarried⟩ := carryMacroBuffer_eq (s.savedMacroBuffer config key)
    s.wasFirstCharAutoCapped { committed with engine }
  rw [hcarried]
  refine ⟨⟨hzero, hdigit⟩, fun hprimed => ?_⟩
  rcases armCommitUndo_cases key committed.commitState with ⟨hidle, -⟩ | hsame | ⟨-, -, hready⟩
  · simp only [hidle]
    exact nofun
  · simp only [hsame, hstate]
    exact hprimed
  · simp only [hready]
    exact nofun

omit [AsciiCType] [WordBreaks] in
/-- Any other key. -/
theorem settles_handleOtherKey (config : Config) (key : Key) (s : State E) :
    Settles s (deliver key (s.handleOtherKey config key)) := by
  have hcommit := settles_commitComposition config false s
  rw [handleOtherKey]
  split
  · dsimp only
    split
    · exact ⟨hcommit.count, hcommit.digitLedWord, hcommit.notPrimed⟩
    · obtain ⟨engine, hnavigated⟩ :=
        clearNavigatedContext_eq key (s.commitComposition config false).1
      have hzero := count_clearNavigatedContext key
        (s := (s.commitComposition config false).1) count_clearWordState
      rw [hnavigated] at hzero ⊢
      exact ⟨fun _ => hzero, hcommit.digitLedWord, hcommit.notPrimed⟩
  · obtain ⟨engine, hnavigated⟩ := clearNavigatedContext_eq key s
    have hzero := fun hcount => count_clearNavigatedContext (s := s) key hcount
    rw [hnavigated] at hzero ⊢
    exact ⟨hzero, id, id⟩

omit [WordBreaks] in
/-- No key but Backspace primes a committed word. -/
theorem notPrimed_dispatchByKind (hback : key.vkCode ≠ vkBack)
    (hprimed : s.commitState.state ≠ .primed) :
    (deliver key (s.dispatchByKind config key)).commitState.state ≠ .primed := by
  rw [dispatchByKind]
  split
  · rw [(sameUndo_handleAlphaKey key).state]
    exact hprimed
  · split
    · rw [deliver_eat, (sameUndo_pushPunctuation _).state]
      exact hprimed
    · dsimp only
      split
      · rw [deliver_eat, (sameUndo_handleVniDigitKey key).state]
        exact hprimed
      · split
        · rw [deliver_eat, (sameUndo_pushPunctuation _).state]
          exact hprimed
        · rw [if_neg fun h => hback h.1]
          split
          · split
            · exact nofun
            · exact hprimed
          · split
            · exact (ends_handleCommitTrigger config key s).2 hprimed
            · exact (settles_handleOtherKey config key s).notPrimed hprimed

omit [WordBreaks] in
theorem notPrimed_dispatchKeyAction (hback : key.vkCode ≠ vkBack)
    (hprimed : s.commitState.state ≠ .primed) :
    (deliver key (s.dispatchKeyAction config key)).commitState.state ≠ .primed := by
  rw [dispatchKeyAction]
  split
  · exact nofun
  · split
    · exact hprimed
    · exact hprimed
    · exact hprimed
    · exact notPrimed_dispatchByKind (s := { s with digitLedWord := false }) hback hprimed
    · exact notPrimed_dispatchByKind hback hprimed

omit [WordBreaks] in
/-- Space and Enter end the word. -/
theorem ends_dispatchByKind (hkey : key.vkCode = vkSpace ∨ key.vkCode = vkReturn)
    (hdigit : s.digitLedWord = false) : EndsWord (deliver key (s.dispatchByKind config key)) := by
  have halpha : isAlphaVk key.vkCode = false := by rcases hkey with h | h <;> rw [h] <;> decide
  have hbracket : telexBracket config key = none := by
    rw [telexBracket, if_neg]
    rcases hkey with h | h <;> rw [h] <;> simp
  have hdigits : isDigitVk key.vkCode = false := by rcases hkey with h | h <;> rw [h] <;> decide
  have hbound : boundOemKey config key (s.count == 0) = none := by
    have hpunct : isOemPunctVk key.vkCode = false := by rcases hkey with h | h <;> rw [h] <;> decide
    rw [boundOemKey, if_neg fun h => Bool.false_ne_true (hpunct.symm.trans h.2.1)]
  have hback : key.vkCode ≠ vkBack := by rcases hkey with h | h <;> rw [h] <;> decide
  have hescape : key.vkCode ≠ vkEscape := by rcases hkey with h | h <;> rw [h] <;> decide
  have htrigger : isCommitTrigger key.vkCode = true := by
    rcases hkey with h | h <;> rw [h] <;> decide
  rw [dispatchByKind, if_neg (by rw [halpha]; exact Bool.false_ne_true), hbracket]
  dsimp only
  rw [if_neg fun h => Bool.false_ne_true (hdigits.symm.trans h.2.1), hbound]
  dsimp only
  rw [if_neg fun h => hback h.1, if_neg hescape]
  by_cases hcount : 0 < s.count
  · rw [if_pos ⟨htrigger, hcount⟩]
    exact (ends_handleCommitTrigger config key s).1
  · rw [if_neg fun h => hcount h.2]
    have hother := settles_handleOtherKey config key s
    exact ⟨hother.count (Nat.eq_zero_of_not_pos hcount), hother.digitLedWord hdigit⟩

omit [WordBreaks] in
theorem ends_dispatchKeyAction (hplain : key.shortcut = false)
    (hkey : key.vkCode = vkSpace ∨ key.vkCode = vkReturn) :
    EndsWord (deliver key (s.dispatchKeyAction config key)) := by
  have hdigits : isDigitVk key.vkCode = false := by rcases hkey with h | h <;> rw [h] <;> decide
  have hboundary : isDigitLedBoundary key.vkCode = true := by
    rcases hkey with h | h <;> rw [h] <;> decide
  rw [dispatchKeyAction, hplain, if_neg Bool.false_ne_true]
  cases harmed : s.digitLedWord with
  | true =>
      by_cases hcount : s.count = 0
      · have hdecide :
          decideDigitLed key.vkCode key.shift (s.count == 0) config.typing.inputMethod true =
            .reset := by
          simp [decideDigitLed, hcount, hboundary]
        rw [hdecide]
        exact ⟨hcount, rfl⟩
      · have hdecide :
          decideDigitLed key.vkCode key.shift (s.count == 0) config.typing.inputMethod true =
            .resetAndContinue := by
          simp [decideDigitLed, hcount]
        rw [hdecide]
        exact ends_dispatchByKind (s := { s with digitLedWord := false }) hkey rfl
  | false =>
      have hdecide :
        decideDigitLed key.vkCode key.shift (s.count == 0) config.typing.inputMethod false =
          .continue := by
        simp [decideDigitLed, hdigits]
      rw [hdecide]
      exact ends_dispatchByKind hkey harmed

theorem processKeyDown_eq_preEngine (config : Config) (key : Key) (s : State E) :
    s.processKeyDown config key =
      if (s.preEngine config key).2 = .fallthrough then
        (s.preEngine config key).1.dispatchKeyAction config key
      else s.preEngine config key := by
  rw [processKeyDown, preEngine]
  dsimp only
  by_cases hguarded : isTopGuarded key.vkCode = true
  · simp only [hguarded, if_true, reduceCtorEq, if_false]
  · simp only [hguarded, Bool.false_eq_true, if_false]
    by_cases hundo : ((s.beforeStages config key).handleCommitUndoFsm config key).2 = .fallthrough
    · simp only [hundo, ne_eq, not_true_eq_false, if_false, lateStages]
      split_ifs <;> simp_all
    · simp only [ne_eq, hundo, not_false_eq_true, if_true, if_false]

end State

/-! ## Runs -/

namespace CapsState

variable {E : Type} [InputEngine E] [WideCType] [AsciiCType] [WordBreaks]
  {config : Config} {s : CapsState E} {us : UsKey}

/-- A letter is capitalized exactly where the scan wants it to be. -/
def Agrees (s : CapsState E) (us : UsKey) : Prop :=
  isAlphaVk us.key.vkCode = true →
    (s.autoCapState.move us.key = .readyToCapitalize ↔ computeShouldAutoCap s.text = true)

/-- The key types the mark that the automaton takes it for, and a stage that consumes it before the
automaton does not keep a change from it. -/
structure Undisturbed (config : Config) (s : CapsState E) (us : UsKey) : Prop where
  mark : TypesItsMark us.key
  consumed : s.reachesAutomaton config us.key = false →
    s.autoCapState.afterKey us.key = s.autoCapState

/-- While a capital is pending, there is no word and none that begins with a digit; and no committed
word is primed. -/
structure Quiet (s : CapsState E) : Prop where
  pending : s.autoCapState = .readyToCapitalize → s.hook.EndsWord
  notPrimed : s.hook.commitState.state ≠ .primed

theorem hook_press_of_reaches (h : s.reachesAutomaton config us.key = true) :
    (s.press config us).hook = State.deliver (s.keyOf us.key)
      ((s.hook.preEngine config (s.keyOf us.key)).1.dispatchKeyAction config (s.keyOf us.key)) := by
  rw [press, State.press, State.processKeyDown_eq_preEngine, if_pos (beq_iff_eq.mp h)]

theorem hook_press_of_consumed (h : s.reachesAutomaton config us.key = false) :
    (s.press config us).hook =
      State.deliver (s.keyOf us.key) (s.hook.preEngine config (s.keyOf us.key)) := by
  rw [press, State.press, State.processKeyDown_eq_preEngine, if_neg (beq_eq_false_iff_ne.mp h)]

omit [WideCType] [AsciiCType] [WordBreaks] in
theorem reachesAlphaKey_of_endsWord (config : Config) (us : UsKey)
    (halpha : isAlphaVk us.key.vkCode = true)
    {before : State E} (hdigit : before.digitLedWord = false) :
    before.reachesAlphaKey config us.key = true := by
  have hdigits : isDigitVk us.key.vkCode = false := by
    have hrange := of_decide_eq_true halpha
    exact decide_eq_false fun h => absurd (Nat.le_trans hrange.1 h.2) (by decide)
  have hdecide :
    decideDigitLed us.key.vkCode us.key.shift (before.count == 0) config.typing.inputMethod
      before.digitLedWord = .continue := by
    simp [decideDigitLed, hdigit, hdigits]
  rw [State.reachesAlphaKey, us.plain, halpha, hdecide]
  rfl

/-- The automaton behind a key that reaches it. -/
theorem autoCapStep_of_reaches (h : Quiet s) (hreaches : s.reachesAutomaton config us.key = true) :
    s.autoCapStep config us.key = s.autoCapState.afterKey us.key := by
  have hsettles := State.settles_preEngine config (s.keyOf us.key) us.ne_back h.notPrimed
  rw [autoCapStep, if_pos hreaches, AutoCapState.afterKey]
  dsimp only
  cases halpha : isAlphaVk us.key.vkCode with
  | true =>
      have hmove : s.autoCapState.move us.key =
          if s.autoCapState = .readyToCapitalize then .readyToCapitalize else .idle :=
        move_of_isAlphaVk us.plain halpha
      rw [if_pos rfl, hmove]
      by_cases hready : s.autoCapState = .readyToCapitalize
      · have hends := h.pending hready
        have hreach := reachesAlphaKey_of_endsWord config us halpha
          (hsettles.digitLedWord hends.digitLedWord)
        rw [if_pos hready, hreach, hsettles.count hends.count]
        rfl
      · rw [if_neg hready]
        split
        · rfl
        · rfl
  | false =>
      have hreach :
        (s.hook.preEngine config (s.keyOf us.key)).1.reachesAlphaKey config us.key = false := by
        rw [State.reachesAlphaKey, halpha, Bool.and_false, Bool.false_and]
      rw [hreach, Bool.false_and, Bool.false_and, if_neg Bool.false_ne_true]

/-- A key keeps the state quiet, and moves the automaton as if no stage had consumed it. -/
theorem Quiet.press (h : Quiet s)
    (hconsumed : s.reachesAutomaton config us.key = false →
      s.autoCapState.afterKey us.key = s.autoCapState) :
    Quiet (s.press config us) ∧
    (s.press config us).autoCapState = s.autoCapState.afterKey us.key := by
  have hback : (s.keyOf us.key).vkCode ≠ vkBack := us.ne_back
  have hsettles := State.settles_preEngine config _ hback h.notPrimed
  cases hreaches : s.reachesAutomaton config us.key with
  | true =>
      have hstep : (s.press config us).autoCapState = s.autoCapState.afterKey us.key :=
        autoCapStep_of_reaches h hreaches
      refine ⟨⟨fun hready => ?_, ?_⟩, hstep⟩
      · rw [hook_press_of_reaches hreaches]
        rw [hstep, AutoCapState.afterKey] at hready
        split at hready
        · cases hready
        · have hkey := key_of_move_eq_ready us.plain (Bool.eq_false_of_not_eq_true ‹_›) hready
          exact State.ends_dispatchKeyAction us.plain hkey
      · rw [hook_press_of_reaches hreaches]
        exact State.notPrimed_dispatchKeyAction hback (hsettles.notPrimed h.notPrimed)
  | false =>
      have hkept : (s.press config us).autoCapState = s.autoCapState := by
        change s.autoCapStep config us.key = _
        rw [autoCapStep, hreaches, if_neg Bool.false_ne_true]
      obtain ⟨host, hdeliver⟩ := State.deliver_eq (s.keyOf us.key)
        (s.hook.preEngine config (s.keyOf us.key))
      refine ⟨⟨fun hready => ?_, ?_⟩, hkept.trans (hconsumed hreaches).symm⟩
      · have hends := h.pending (hkept.symm.trans hready)
        rw [hook_press_of_consumed hreaches, hdeliver]
        exact ⟨hsettles.count hends.count, hsettles.digitLedWord hends.digitLedWord⟩
      · rw [hook_press_of_consumed hreaches, hdeliver]
        exact hsettles.notPrimed h.notPrimed

/-- The automaton agrees with the text. -/
structure InStep (s : CapsState E) : Prop extends Quiet s where
  spec : s.autoCapState = specState s.text

theorem InStep.press (h : InStep s) (hundisturbed : Undisturbed config s us) :
    InStep (s.press config us) := by
  obtain ⟨hquiet, hstep⟩ := h.toQuiet.press hundisturbed.consumed
  have hunit := unit_ne us
  refine ⟨hquiet, ?_⟩
  rw [hstep, h.spec, afterKey_eq us hundisturbed.mark]
  exact (specState_append s.text hunit.1 hunit.2).symm

omit [WideCType] [AsciiCType] [WordBreaks] in
theorem InStep.agrees (h : InStep s) (us : UsKey) : Agrees s us := by
  intro halpha
  rw [move_of_isAlphaVk us.plain halpha, h.spec, ← specState_eq_ready_iff]
  split_ifs with hready
  · exact iff_of_true rfl hready
  · exact iff_of_false nofun hready

/-- Behind the first Enter the automaton agrees with the text. -/
theorem inStep_press_start (engine : E) (hreturn : us.key.vkCode = vkReturn)
    (hundisturbed : Undisturbed config (start engine) us) :
    InStep ((start engine).press config us) := by
  have hquiet : Quiet (start engine) := ⟨nofun, nofun⟩
  have hpress := hquiet.press hundisturbed.consumed
  have hunit := unit_ne us
  refine ⟨hpress.1, ?_⟩
  have hready : AutoCapState.idle.afterKey us.key = .readyToCapitalize := by
    have hnotAlpha : isAlphaVk us.key.vkCode = false := by rw [hreturn]; decide
    have hplain := us.plain
    simp only [Key.shortcut, Bool.or_eq_false_iff] at hplain
    rw [AutoCapState.afterKey, hnotAlpha, if_neg Bool.false_ne_true, AutoCapState.move, hreturn,
      hplain.1.1, hplain.1.2, hplain.2]
    cases us.key.shift <;> rfl
  have hline : us.key.unit = L '\n' := unit_of_return us hreturn
  rw [hpress.2]
  change AutoCapState.idle.afterKey us.key = specState ([] ++ [us.key.unit])
  rw [hready, hline]
  rfl

/-- Behind the first Enter, as long as every key is undisturbed, the automaton is ready to
capitalize at a letter exactly where the scan of the text finds the start of a sentence or of a
line. -/
theorem agrees_run (config : Config) (engine : E) (enter : UsKey)
    (hreturn : enter.key.vkCode = vkReturn) (keys : List UsKey)
    (h : EachStep (press config) (Undisturbed config) (start engine) (enter :: keys)) :
    EachStep (press config) Agrees ((start engine).press config enter) keys :=
  EachStep.imp InStep (fun _ us hstep _ => hstep.agrees us) (fun _ _ hstep => hstep.press)
    (inStep_press_start engine hreturn h.1) h.2

end CapsState

/-! ## A greater-than sign -/

namespace CapsState

/-- Enter. -/
def enterKey : UsKey := ⟨{ vkCode := vkReturn, typed := L '\n' }, rfl, Or.inr rfl⟩

/-- Shift and the key of the full stop. -/
def greaterKey : UsKey :=
  ⟨{ vkCode := vkOemPeriod, shift := true, typed := L '>' }, rfl, Or.inr rfl⟩

/-- The space bar, which has the space for its character. -/
def spaceKey : UsKey :=
  ⟨{ vkCode := vkSpace, macroChar := L ' ', space_iff := Iff.refl (vkSpace = vkSpace) }, rfl,
    Or.inr rfl⟩

/-- The letter A. -/
def letterKey : UsKey := ⟨{ vkCode := 0x41 }, rfl, Or.inl rfl⟩

/-- A letter behind Enter. -/
theorem agrees_run_letter :
    EachStep (press {}) (Undisturbed {}) (start (TypingEngine.new {})) [enterKey, letterKey] ∧
      EachStep (press {}) Agrees ((start (TypingEngine.new {})).press {} enterKey) [letterKey] := by
  have hundisturbed :
      EachStep (press {}) (Undisturbed {}) (start (TypingEngine.new {})) [enterKey, letterKey] :=
    ⟨⟨⟨by decide, by decide⟩, by decide⟩, ⟨⟨by decide, by decide⟩, by decide⟩, trivial⟩
  exact ⟨hundisturbed, agrees_run {} (TypingEngine.new {}) enterKey rfl [letterKey] hundisturbed⟩

/-- The automaton takes `>` for a full stop: the letter behind `> ` is capitalized, and the scan
finds nothing there. -/
theorem not_agrees_run :
    ¬ EachStep (press {}) Agrees ((start (TypingEngine.new {})).press {} enterKey)
      [greaterKey, spaceKey, letterKey] := by
  rintro ⟨-, -, hletter, -⟩
  exact absurd ((hletter rfl).mp (by decide)) (by decide)

end CapsState

end HookEngine

end VKey
