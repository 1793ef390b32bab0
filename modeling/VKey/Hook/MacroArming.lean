import VKey.Hook.EnglishMode
import VKey.Hook.ScreenLockstep

/-!
# What arms the undo of a macro

A key other than Backspace drops the undo of the last expansion before any stage sees it, and of
all the stages only an expansion arms it again.  So a hook that has an undo after such a key has
just expanded a macro, and the state behind the key is known.
-/

namespace VKey

namespace HookEngine

namespace State

variable {E : Type} [InputEngine E] [WideCType] {config : Config} {key : Key} {s : State E}

/-! ## The stages that leave the undo alone -/

omit [InputEngine E] [WideCType] in
@[simp] theorem macroUndo_clearMacroBuffer : s.clearMacroBuffer.macroUndo = s.macroUndo := rfl

omit [WideCType] in
@[simp] theorem macroUndo_clearWordState : s.clearWordState.macroUndo = s.macroUndo := rfl

omit [InputEngine E] [WideCType] in
@[simp] theorem macroUndo_replaceComposition (text : List WChar) (reinject : Option WChar) :
    (s.replaceComposition config text reinject).macroUndo = s.macroUndo := by
  unfold replaceComposition
  dsimp only
  split_ifs
  · rfl
  · rfl

@[simp] theorem macroUndo_pushLetter : (s.pushLetter key).macroUndo = s.macroUndo := by
  unfold pushLetter clearStale
  dsimp only
  split_ifs <;> rfl

@[simp] theorem macroUndo_handleAlphaKey :
    (s.handleAlphaKey config key).1.macroUndo = s.macroUndo := by
  unfold handleAlphaKey
  dsimp only
  split_ifs <;> simp

omit [WideCType] in
@[simp] theorem macroUndo_handleBackspace : (s.handleBackspace config).macroUndo = s.macroUndo := by
  unfold handleBackspace showShortened erasePrevious
  dsimp only
  split_ifs <;> simp [backspaced, appendHistory]

omit [WideCType] in
@[simp] theorem macroUndo_handleVniDigitKey :
    (s.handleVniDigitKey config key).macroUndo = s.macroUndo := by
  simp [handleVniDigitKey, appendHistory]

omit [WideCType] in
@[simp] theorem macroUndo_pushPunctuation (pushed : WChar × Option Bool) :
    (s.pushPunctuation config pushed).macroUndo = s.macroUndo := by
  simp [pushPunctuation, appendHistory]

omit [WideCType] in
@[simp] theorem macroUndo_replayCommittedChars (preference : CommittedTextRestorePreference) :
    (s.replayCommittedChars preference).1.macroUndo = s.macroUndo := by
  unfold replayCommittedChars
  split
  · rfl
  · dsimp only
    split_ifs <;> rfl

omit [InputEngine E] [WideCType] in
@[simp] theorem macroUndo_passOrReplace (n : Nat) (units : List WChar) :
    (s.passOrReplace key n units).1.macroUndo = s.macroUndo := by
  unfold passOrReplace
  split_ifs
  · rfl
  · rfl

theorem macroUndo_handlePrimed : (s.handlePrimed config key).1.macroUndo = s.macroUndo := by
  unfold handlePrimed
  cases s.primedAction config key with
  | replayAlpha | replayDigit | replayBackspace =>
      dsimp only
      split_ifs <;> simp
  | dropTop => rfl
  | exempt => rfl
  | trigger action =>
      cases action with
      | cancel => rfl
      | idle => rfl
      | reEnterReady => exact macroUndo_passOrReplace 0 [L ' ']

omit [WideCType] in
theorem macroUndo_handleReadyGap : (s.handleReadyGap key).macroUndo = s.macroUndo := by
  obtain ⟨commitState, hgap⟩ := handleReadyGap_eq key s
  rw [hgap]

omit [InputEngine E] [WideCType] in
theorem macroUndo_handleReadyBackspace :
    (s.handleReadyBackspace key).1.macroUndo = s.macroUndo := by
  unfold handleReadyBackspace
  split_ifs
  · rfl
  · exact macroUndo_passOrReplace 1 []

omit [WideCType] in
theorem beforeFsm_eq (key : Key) (s : State E) :
    ∃ commitState, s.beforeFsm key = { s with commitState } ∧
      (commitState.state = s.commitState.state ∨ commitState.state = .idle) := by
  unfold beforeFsm cancelStale
  split_ifs
  · exact ⟨_, rfl, Or.inr rfl⟩
  · exact ⟨_, rfl, Or.inl rfl⟩

omit [WideCType] in
theorem macroUndo_beforeFsm : (s.beforeFsm key).macroUndo = s.macroUndo := by
  obtain ⟨commitState, hbefore, -⟩ := beforeFsm_eq key s
  rw [hbefore]

theorem macroUndo_handleCommitUndoFsm :
    (s.handleCommitUndoFsm config key).1.macroUndo = s.macroUndo := by
  unfold handleCommitUndoFsm
  dsimp only
  split_ifs
  · exact macroUndo_handleReadyBackspace.trans macroUndo_beforeFsm
  · exact macroUndo_handleReadyGap.trans (macroUndo_handlePrimed.trans macroUndo_beforeFsm)
  · exact macroUndo_handlePrimed.trans macroUndo_beforeFsm
  · exact macroUndo_handleReadyGap.trans macroUndo_beforeFsm

omit [WideCType] in
theorem macroUndo_handleEnglishCommitUndoFsm :
    (s.handleEnglishCommitUndoFsm key).1.macroUndo = s.macroUndo := by
  unfold handleEnglishCommitUndoFsm
  dsimp only
  split_ifs
  · exact macroUndo_handleReadyBackspace.trans macroUndo_beforeFsm
  · exact macroUndo_handleReadyGap.trans macroUndo_beforeFsm

omit [WideCType] in
@[simp] theorem macroUndo_commitComposition (verbatim : Bool) :
    (s.commitComposition config verbatim).1.macroUndo = s.macroUndo := by
  unfold commitComposition showCommitted pushCommitted
  dsimp only
  split_ifs <;> simp

omit [WideCType] in
@[simp] theorem macroUndo_clearNavigatedContext :
    (s.clearNavigatedContext key).macroUndo = s.macroUndo := by
  unfold clearNavigatedContext
  split_ifs <;> rfl

omit [WideCType] in
theorem macroUndo_tryEscRestore : (s.tryEscRestore config key).1.macroUndo = s.macroUndo := by
  unfold tryEscRestore tryEscRestoreRaw
  cases s.commitState.stack with
  | nil =>
      dsimp only
      split_ifs <;> rfl
  | cons top rest =>
      dsimp only
      split_ifs <;> rfl

theorem macroUndo_handleOtherKey : (s.handleOtherKey config key).1.macroUndo = s.macroUndo := by
  unfold handleOtherKey
  dsimp only
  split_ifs <;> simp [injectKey]

variable [AsciiCType]

theorem macroUndo_handleCommitTrigger :
    (s.handleCommitTrigger config key).1.macroUndo = s.macroUndo := by
  unfold handleCommitTrigger sendTrigger committedBy carryMacroBuffer
  dsimp only
  split_ifs <;> simp [injectKey]

theorem macroUndo_dispatchByKind (hnone : s.macroUndo = none) :
    (s.dispatchByKind config key).1.macroUndo = none := by
  unfold dispatchByKind
  cases telexBracket config key with
  | some pushed =>
      dsimp only
      split_ifs
      · exact macroUndo_handleAlphaKey.trans hnone
      · exact (macroUndo_pushPunctuation pushed).trans hnone
  | none =>
      cases boundOemKey config key (s.count == 0) with
      | some pushed =>
          dsimp only
          split_ifs
          · exact macroUndo_handleAlphaKey.trans hnone
          · exact macroUndo_handleVniDigitKey.trans hnone
          · exact (macroUndo_pushPunctuation pushed).trans hnone
      | none =>
          dsimp only
          split_ifs
          · exact macroUndo_handleAlphaKey.trans hnone
          · exact macroUndo_handleVniDigitKey.trans hnone
          · exact macroUndo_handleBackspace.trans hnone
          · rfl
          · exact hnone
          · exact macroUndo_handleCommitTrigger.trans hnone
          · exact macroUndo_handleOtherKey.trans hnone

theorem macroUndo_dispatchKeyAction (hnone : s.macroUndo = none) :
    (s.dispatchKeyAction config key).1.macroUndo = none := by
  unfold dispatchKeyAction
  split_ifs
  · rfl
  split
  · exact hnone
  · exact hnone
  · exact hnone
  · exact macroUndo_dispatchByKind hnone
  · exact macroUndo_dispatchByKind hnone

/-! ## The macro stage -/

variable [WordBreaks] {undo : MacroUndoState}

omit [WideCType] [AsciiCType] [WordBreaks] [InputEngine E] in
theorem beforeStages_eq (config : Config) (s : State E) (hback : key.vkCode ≠ vkBack) :
    ∃ commitState, s.beforeStages config key = { s with macroUndo := none, commitState } := by
  unfold beforeStages
  dsimp only
  rw [if_pos (Or.inl hback)]
  split_ifs
  · exact ⟨_, rfl⟩
  · exact ⟨_, rfl⟩

omit [AsciiCType] [InputEngine E] [WordBreaks] in
theorem host_trackMacroKey : (s.trackMacroKey key).host = s.host := by
  unfold trackMacroKey
  dsimp only
  split_ifs <;> rfl

omit [AsciiCType] [InputEngine E] [WordBreaks] in
theorem macroUndo_trackMacroKey : (s.trackMacroKey key).macroUndo = s.macroUndo := by
  unfold trackMacroKey
  dsimp only
  split_ifs <;> rfl

omit [AsciiCType] [InputEngine E] [WordBreaks] in
theorem planInputs_trackMacroKey (commitState : CommitState) (macroUndo : Option MacroUndoState)
    (triggerChar : WChar) :
    ({ s with commitState, macroUndo }.trackMacroKey key).planInputs config triggerChar =
      (s.trackMacroKey key).planInputs config triggerChar := by
  unfold trackMacroKey
  dsimp only
  split_ifs <;> rfl

/-- An expansion that arms the undo. -/
structure Tried (config : Config) (key : Key) (s : State E) (handled : State E × KeyOutcome)
    (undo : MacroUndoState) : Prop where
  trigger : isCommitTrigger key.vkCode = true
  outcome : handled = ((s.tryExpandMacro config key.macroChar).1,
    if (s.tryExpandMacro config key.macroChar).2 = .expandedEatTrigger then .eat else .pass)
  armed : handled.1.macroUndo = some undo

omit [AsciiCType] [WordBreaks] [WideCType] in
theorem isCommitTrigger_of_shouldTrigger (h : shouldTrigger config key.vkCode = true) :
    isCommitTrigger key.vkCode = true := by
  unfold shouldTrigger at h
  split_ifs at h with _ htrigger
  all_goals simpa using htrigger

omit [InputEngine E] [WideCType] [WordBreaks] in
theorem macroUndo_cleanMacroBuffer : (s.cleanMacroBuffer config key).macroUndo = s.macroUndo := by
  unfold cleanMacroBuffer endMacroWord
  dsimp only
  split_ifs <;> rfl

omit [AsciiCType] in
theorem macroUndo_tryExpandMacro (hnone : s.macroUndo = none)
    (hmatch : (s.tryExpandMacro config key.macroChar).2 = .noMatch) :
    (s.tryExpandMacro config key.macroChar).1.macroUndo = none := by
  revert hmatch
  unfold tryExpandMacro
  dsimp only
  split_ifs
  · exact fun _ => hnone
  · nofun
  · nofun

theorem handleMacroKey_of_armed (hnone : s.macroUndo = none)
    (h : (s.handleMacroKey config key).1.macroUndo = some undo) :
    Tried config key (s.trackMacroKey key) (s.handleMacroKey config key) undo := by
  have htracked : (s.trackMacroKey key).macroUndo = none := macroUndo_trackMacroKey.trans hnone
  revert h
  unfold handleMacroKey
  dsimp only
  generalize s.trackMacroKey key = tracked at htracked
  split_ifs with hskip htrigger
  · intro h
    rw [htracked] at h
    cases h
  · simp only [Bool.and_eq_true] at htrigger
    cases hresult : (tracked.tryExpandMacro config key.macroChar).2 with
    | noMatch =>
        intro h
        rw [macroUndo_cleanMacroBuffer, macroUndo_tryExpandMacro htracked hresult] at h
        cases h
    | expandedEatTrigger =>
        exact fun h => ⟨isCommitTrigger_of_shouldTrigger htrigger.1.2, by rw [hresult]; rfl, h⟩
    | expandedPassTrigger =>
        exact fun h => ⟨isCommitTrigger_of_shouldTrigger htrigger.1.2, by rw [hresult]; rfl, h⟩
  · intro h
    rw [macroUndo_cleanMacroBuffer, htracked] at h
    cases h

omit [AsciiCType] [WordBreaks] [InputEngine E] in
theorem trackMacroKey_of_trigger (halpha : isAlphaVk key.vkCode = false)
    (htrigger : isCommitTrigger key.vkCode = true) :
    s.trackMacroKey key =
      if L ' ' < key.macroChar then
        { s with rawMacroBuffer := s.rawMacroBuffer ++ [key.macroChar] }
      else s := by
  unfold trackMacroKey
  rw [if_neg (by simp [halpha])]
  simp only [htrigger, true_and]

omit [AsciiCType] in
/-- In English a trigger is tracked as in Vietnamese. -/
theorem handleEnglishTrigger_of_armed (halpha : isAlphaVk key.vkCode = false)
    (htrigger : isCommitTrigger key.vkCode = true) (hnone : s.macroUndo = none)
    (h : (s.handleEnglishTrigger config key).1.macroUndo = some undo) :
    Tried config key (s.trackMacroKey key) (s.handleEnglishTrigger config key) undo := by
  have htracked : (s.trackMacroKey key).macroUndo = none := macroUndo_trackMacroKey.trans hnone
  revert h
  rw [handleEnglishTrigger, ← trackMacroKey_of_trigger halpha htrigger]
  generalize s.trackMacroKey key = tracked at htracked
  by_cases htries : (!tracked.rawMacroBuffer.isEmpty && shouldTrigger config key.vkCode) = true
  · rw [if_pos htries]
    exact fun h => ⟨htrigger, rfl, h⟩
  · rw [if_neg htries]
    intro h
    have hfree : some undo = none := by
      rw [← h]
      split_ifs
      · exact htracked
      · exact htracked
    cases hfree

omit [AsciiCType] in
theorem handleEnglishMacroKey_of_armed (hnone : s.macroUndo = none)
    (h : (s.handleEnglishMacroKey config key).1.macroUndo = some undo) :
    Tried config key (s.trackMacroKey key) (s.handleEnglishMacroKey config key) undo := by
  by_cases hactive : isAlphaVk key.vkCode = false ∧
      (config.skipMacro key.vkCode key.currentMods && s.rawMacroBuffer.isEmpty) = false ∧
      (isCommitTrigger key.vkCode && !s.tempMacroOff) = true
  · obtain ⟨halpha, hskip, htrigger⟩ := hactive
    have hhandled : s.handleEnglishMacroKey config key = s.handleEnglishTrigger config key := by
      rw [handleEnglishMacroKey, if_neg (by simp [halpha]), if_neg (by simp [hskip]),
        if_pos htrigger]
    rw [hhandled] at h ⊢
    rw [Bool.and_eq_true] at htrigger
    exact handleEnglishTrigger_of_armed halpha htrigger.1 hnone h
  · have hfree : some undo = none := by
      rw [← h, handleEnglishMacroKey]
      dsimp only
      split_ifs with halpha _ hskip htrigger
      any_goals exact hnone
      exact absurd ⟨by simpa using halpha, by simpa using hskip, htrigger⟩ hactive
    cases hfree

/-! ## The state behind an expansion -/

/-- What the trigger expands to. -/
def triggerPlan (config : Config) (key : Key) (s : State E) : Macro.MacroPlan :=
  Macro.plan ((s.trackMacroKey key).planInputs config key.macroChar) config.mapper

/-- A macro has been expanded, and the undo is armed: the planner has matched, and the key stands
behind the expansion unless it belongs to the macro. -/
structure Expanded (config : Config) (key : Key) (s s' : State E) (undo : MacroUndoState) :
    Prop where
  trigger : isCommitTrigger key.vkCode = true
  matched : (s.triggerPlan config key).matched = true
  arms : undoOfPlan config key.macroChar (s.triggerPlan config key) = some undo
  host : s'.host =
    if (s.triggerPlan config key).isPartOfMacro then
      deliverExpansion config (s.triggerPlan config key) s.host
    else key.press (deliverExpansion config (s.triggerPlan config key) s.host)
  armed : s'.macroUndo = some undo
  idle : s'.commitState.state = .idle

omit [AsciiCType] in
theorem tryExpandMacro_of_matched {triggerChar : WChar} {plan : Macro.MacroPlan}
    (hplan : Macro.plan (s.planInputs config triggerChar) config.mapper = plan)
    (hmatched : plan.matched = true) :
    s.tryExpandMacro config triggerChar =
      ({ { s with host := deliverExpansion config plan s.host }.clearWordState with
          commitState := { s.commitState with inputHistory := [] }.cancel
          macroUndo := undoOfPlan config triggerChar plan },
        if plan.isPartOfMacro then .expandedEatTrigger else .expandedPassTrigger) := by
  unfold tryExpandMacro
  rw [hplan]
  dsimp only
  rw [hmatched]
  rfl

omit [AsciiCType] in
theorem tryExpandMacro_of_not_matched {triggerChar : WChar}
    (h : (Macro.plan (s.planInputs config triggerChar) config.mapper).matched = false) :
    s.tryExpandMacro config triggerChar = (s, .noMatch) := by
  unfold tryExpandMacro
  dsimp only
  rw [h]
  rfl

omit [InputEngine E] [AsciiCType] [WordBreaks] in
theorem deliver_trigger (key : Key) (t : State E) (isPartOfMacro : Bool) :
    deliver key (t,
        if (if isPartOfMacro then MacroResult.expandedEatTrigger else .expandedPassTrigger) =
          .expandedEatTrigger then .eat else .pass) =
      if isPartOfMacro then t else t.injectKey key := by
  cases isPartOfMacro
  · rfl
  · rfl

omit [AsciiCType] in
theorem Tried.expanded {handled : State E × KeyOutcome} (hnone : s.macroUndo = none)
    (h : Tried config key (s.trackMacroKey key) handled undo) :
    Expanded config key s (deliver key handled) undo := by
  obtain ⟨htrigger, rfl, harmed⟩ := h
  have htracked : (s.trackMacroKey key).macroUndo = none := macroUndo_trackMacroKey.trans hnone
  have hhost : (s.trackMacroKey key).host = s.host := host_trackMacroKey
  cases hmatched : (s.triggerPlan config key).matched with
  | false =>
      rw [tryExpandMacro_of_not_matched hmatched] at harmed
      cases htracked.symm.trans harmed
  | true =>
      rw [tryExpandMacro_of_matched rfl hmatched] at harmed ⊢
      rw [deliver_trigger]
      refine ⟨htrigger, hmatched, harmed, ?_, ?_, ?_⟩
      · rw [apply_ite State.host, ← hhost]
        rfl
      · split_ifs
        · exact harmed
        · exact harmed
      · split_ifs
        · rfl
        · rfl

/-! ## The whole path -/

omit [AsciiCType] [WordBreaks] in
theorem handleCommitUndoFsm_fallthrough
    (hfall : (s.handleCommitUndoFsm config key).2 = .fallthrough) :
    ∃ commitState, (s.handleCommitUndoFsm config key).1 = { s with commitState } := by
  obtain ⟨opened, hopened, -⟩ := beforeFsm_eq key s
  obtain ⟨closed, hclosed, -⟩ := movesUndo_handleCommitUndoFsm config key s hfall
  exact ⟨closed, by rw [hclosed, hopened]⟩

omit [WideCType] [AsciiCType] [WordBreaks] in
theorem handleEnglishCommitUndoFsm_fallthrough
    (hfall : (s.handleEnglishCommitUndoFsm key).2 = .fallthrough) :
    ∃ commitState, (s.handleEnglishCommitUndoFsm key).1 = { s with commitState } := by
  obtain ⟨opened, hopened, -⟩ := beforeFsm_eq key s
  revert hfall
  unfold handleEnglishCommitUndoFsm
  dsimp only
  rw [hopened]
  split_ifs
  · unfold handleReadyBackspace passOrReplace
    split_ifs <;> exact nofun
  · obtain ⟨closed, hclosed⟩ := handleReadyGap_eq key { s with commitState := opened }
    exact fun _ => ⟨closed, hclosed⟩

/-- The macro stage of either language. -/
def macroStage (config : Config) (mode : Mode) (key : Key) (s : State E) : State E × KeyOutcome :=
  if mode.vietnameseMode then s.handleMacro config key
  else s.handleEnglishMacro config mode.macroInEnglish key

theorem handleMacro_of_armed (hnone : s.macroUndo = none)
    (h : (s.handleMacro config key).1.macroUndo = some undo) :
    Tried config key (s.trackMacroKey key) (s.handleMacro config key) undo := by
  unfold handleMacro at h ⊢
  rw [hnone] at h ⊢
  dsimp only at h ⊢
  split_ifs at h ⊢
  · exact handleMacroKey_of_armed hnone h
  · cases hnone.symm.trans h

omit [AsciiCType] in
theorem handleEnglishMacro_of_armed {macroInEnglish : Bool} (hnone : s.macroUndo = none)
    (h : (s.handleEnglishMacro config macroInEnglish key).1.macroUndo = some undo) :
    Tried config key (s.trackMacroKey key) (s.handleEnglishMacro config macroInEnglish key)
      undo := by
  unfold handleEnglishMacro at h ⊢
  rw [hnone] at h ⊢
  dsimp only at h ⊢
  split_ifs at h ⊢
  · exact handleEnglishMacroKey_of_armed hnone h
  · cases hnone.symm.trans h

omit [AsciiCType] in
theorem Tried.ne_fallthrough {handled : State E × KeyOutcome}
    (h : Tried config key s handled undo) :
    handled.2 ≠ .fallthrough := by
  rw [h.outcome]
  dsimp only
  split_ifs
  · nofun
  · nofun

/-- The stages behind the macro stage arm nothing. -/
theorem lateStages_of_armed (hnone : s.macroUndo = none)
    (h : (s.lateStages config key).1.macroUndo = some undo) :
    Tried config key (s.trackMacroKey key) (s.lateStages config key) undo := by
  have hstages : s.lateStages config key =
      if (s.handleMacro config key).2 ≠ .fallthrough then s.handleMacro config key
      else
        let restoreStage := (s.handleMacro config key).1.tryEscRestore config key
        if restoreStage.2 then (restoreStage.1, .eat)
        else restoreStage.1.dispatchKeyAction config key := rfl
  cases hmacro : (s.handleMacro config key).1.macroUndo with
  | none =>
      have hrestored : ((s.handleMacro config key).1.tryEscRestore config key).1.macroUndo = none :=
        macroUndo_tryEscRestore.trans hmacro
      have hfree : some undo = none := by
        rw [← h, hstages]
        dsimp only
        split_ifs
        · exact hmacro
        · exact hrestored
        · exact macroUndo_dispatchKeyAction hrestored
      cases hfree
  | some armed =>
      rw [hstages, if_pos (handleMacro_of_armed hnone hmacro).ne_fallthrough] at h ⊢
      exact handleMacro_of_armed hnone h

omit [AsciiCType] in
theorem lateEnglishStages_of_armed {macroInEnglish : Bool} (hnone : s.macroUndo = none)
    (h : (s.lateEnglishStages config macroInEnglish key).1.macroUndo = some undo) :
    Tried config key (s.trackMacroKey key) (s.lateEnglishStages config macroInEnglish key)
      undo := by
  have hstages : s.lateEnglishStages config macroInEnglish key =
      if (s.handleEnglishMacro config macroInEnglish key).2 ≠ .fallthrough then
        s.handleEnglishMacro config macroInEnglish key
      else
        let restoreStage :=
          (s.handleEnglishMacro config macroInEnglish key).1.tryEscRestore config key
        (restoreStage.1, if restoreStage.2 then .eat else .pass) := rfl
  cases hmacro : (s.handleEnglishMacro config macroInEnglish key).1.macroUndo with
  | none =>
      have hfree : some undo = none := by
        rw [← h, hstages]
        dsimp only
        split_ifs
        · exact hmacro
        · exact macroUndo_tryEscRestore.trans hmacro
        · exact macroUndo_tryEscRestore.trans hmacro
      cases hfree
  | some armed =>
      rw [hstages, if_pos (handleEnglishMacro_of_armed hnone hmacro).ne_fallthrough] at h ⊢
      exact handleEnglishMacro_of_armed hnone h

omit [AsciiCType] [InputEngine E] in
/-- What commit-undo and the dropped undo change is nothing to an expansion. -/
theorem Expanded.of_stage {s' : State E} (commitState : CommitState)
    (h : Expanded config key { s with macroUndo := none, commitState } s' undo) :
    Expanded config key s s' undo := by
  have hplan : State.triggerPlan config key { s with macroUndo := none, commitState } =
      s.triggerPlan config key := by
    rw [triggerPlan, planInputs_trackMacroKey, triggerPlan]
  exact ⟨h.trigger, hplan ▸ h.matched, hplan ▸ h.arms, hplan ▸ h.host, h.armed, h.idle⟩

omit [InputEngine E] [AsciiCType] [WordBreaks] in
theorem macroUndo_deliver (handled : State E × KeyOutcome) :
    (deliver key handled).macroUndo = handled.1.macroUndo := by
  unfold deliver
  split_ifs
  · rfl
  · rfl

theorem expanded_processKeyDown (hback : key.vkCode ≠ vkBack)
    (h : (s.processKeyDown config key).1.macroUndo = some undo) :
    Expanded config key s (deliver key (s.processKeyDown config key)) undo := by
  obtain ⟨opened, hbefore⟩ := beforeStages_eq config s hback
  revert h
  unfold processKeyDown
  dsimp only
  rw [hbefore]
  generalize hb : ({ s with macroUndo := none, commitState := opened } : State E) = b
  have hnone : b.macroUndo = none := by rw [← hb]
  split_ifs with hguard hfall
  · intro h
    cases hnone.symm.trans h
  · intro h
    cases (macroUndo_handleCommitUndoFsm.trans hnone).symm.trans h
  · intro h
    obtain ⟨commitState, hstage⟩ := handleCommitUndoFsm_fallthrough (not_not.mp hfall)
    rw [hstage, ← hb] at h ⊢
    exact ((lateStages_of_armed rfl h).expanded rfl).of_stage commitState

omit [AsciiCType] in
theorem expanded_processEnglishKeyDown {macroInEnglish : Bool} (hback : key.vkCode ≠ vkBack)
    (h : (s.processEnglishKeyDown config macroInEnglish key).1.macroUndo = some undo) :
    Expanded config key s (deliver key (s.processEnglishKeyDown config macroInEnglish key))
      undo := by
  obtain ⟨opened, hbefore⟩ := beforeStages_eq config s hback
  revert h
  unfold processEnglishKeyDown
  dsimp only
  rw [hbefore]
  generalize hb : ({ s with macroUndo := none, commitState := opened } : State E) = b
  have hnone : b.macroUndo = none := by rw [← hb]
  split_ifs with hguard hidle hfall
  · intro h
    cases hnone.symm.trans h
  · intro h
    cases (macroUndo_clearNavigatedContext.trans hnone).symm.trans h
  · intro h
    cases (macroUndo_handleEnglishCommitUndoFsm.trans hnone).symm.trans h
  · intro h
    obtain ⟨commitState, hstage⟩ := handleEnglishCommitUndoFsm_fallthrough (not_not.mp hfall)
    rw [hstage, ← hb] at h ⊢
    exact ((lateEnglishStages_of_armed rfl h).expanded rfl).of_stage commitState

theorem expanded_of_macroUndo {mode : Mode} (hback : key.vkCode ≠ vkBack)
    (h : (s.pressIn config mode key).macroUndo = some undo) :
    Expanded config key s (s.pressIn config mode key) undo := by
  unfold pressIn at h ⊢
  rw [macroUndo_deliver] at h
  unfold processKeyDownIn at h ⊢
  split_ifs at h ⊢
  · exact expanded_processKeyDown hback h
  · exact expanded_processEnglishKeyDown hback h

end State

end HookEngine

end VKey
