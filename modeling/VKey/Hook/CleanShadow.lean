import VKey.Hook.SessionReplay

/-!
# The shadow between words

Between two words the hook has no composition on screen.  Every key keeps this but the one that
restores the raw keys of a word: it leaves the composition of the word behind.
-/

namespace VKey

namespace HookEngine

namespace State

variable {E : Type} [InputEngine E] {config : Config} {s b r : State E} {key : Key}

/-- Without a word there is no composition on screen. -/
def Clean (s : State E) : Prop := s.count = 0 → s.previousComposition = []

theorem Clean.of_peek (h : s.previousComposition = InputEngine.peek s.engine) : s.Clean :=
  fun hcount => h.trans (peek_of_count s.engine hcount)

theorem Clean.congr (h : s.Clean) (hengine : b.engine = s.engine)
    (hprevious : b.previousComposition = s.previousComposition) : b.Clean := by
  intro hcount
  rw [hprevious]
  refine h ?_
  rw [count, ← hengine]
  exact hcount

theorem Clean.withCommitState (h : s.Clean) (commitState : CommitState) :
    State.Clean { s with commitState } := h

/-! ## The handlers -/

theorem clean_replaceComposition (reinject : Option WChar) :
    (s.replaceComposition config (InputEngine.peek s.engine) reinject).Clean := by
  refine .of_peek ?_
  rw [previousComposition_replaceComposition, engine_replaceComposition]

theorem clean_showShortened : (s.showShortened config).Clean := by
  have herased : (s.erasePrevious config).previousComposition = [] := by
    unfold erasePrevious
    dsimp only
    split_ifs with hempty
    · exact List.isEmpty_iff.mp hempty
    · rfl
    · rfl
  unfold showShortened
  dsimp only
  split_ifs
  · exact clean_replaceComposition none
  · exact fun _ => herased
  · exact fun _ => herased

theorem Clean.clearContext (h : s.Clean) (hcount : s.count = 0) :
    State.Clean { s with engine := InputEngine.clearContext s.engine } := fun _ => h hcount

theorem previousComposition_committedBy [AsciiCType] [WideCType] (key : Key) (s : State E) :
    (s.committedBy config key).previousComposition = [] := by
  unfold committedBy
  obtain ⟨engine, hnavigated⟩ := clearNavigatedContext_eq key
    (s.commitComposition config (isVerbatimCommitTrigger key.macroChar)).1
  dsimp only
  rw [hnavigated]
  obtain ⟨buffer, cross, cap, hcarried⟩ := carryMacroBuffer_eq (s.savedMacroBuffer config key)
    s.wasFirstCharAutoCapped
    { (s.commitComposition config (isVerbatimCommitTrigger key.macroChar)).1 with engine }
  rw [hcarried]
  rfl

section Keys

variable [WideCType]

theorem clean_handleAlphaKey (key : Key) (s : State E) :
    (deliver key (s.handleAlphaKey config key)).Clean := by
  unfold handleAlphaKey
  dsimp only
  split_ifs
  · exact .of_peek rfl
  · rw [deliver_eat]
    refine .of_peek ?_
    rw [previousComposition_replaceComposition, engine_replaceComposition]
  · rw [deliver_eat]
    exact clean_replaceComposition none

theorem Clean.injectKey (h : s.Clean) (key : Key) : (s.injectKey key).Clean := h

/-- A key that reaches the host or not leaves the shadow alone. -/
theorem Clean.deliver (h : s.Clean) (key : Key) (outcome : KeyOutcome) :
    (State.deliver key (s, outcome)).Clean := by
  unfold State.deliver
  split_ifs
  · exact h
  · exact h

theorem clean_handleCommitTrigger [AsciiCType] (key : Key) (s : State E) :
    (deliver key (s.handleCommitTrigger config key)).Clean := by
  obtain ⟨host, hdeliver, -⟩ := deliver_sendTrigger key
    (s.isAutoRestored (isVerbatimCommitTrigger key.macroChar)) (s.committedBy config key)
  unfold handleCommitTrigger
  rw [hdeliver]
  exact fun _ => previousComposition_committedBy key s

theorem Clean.handleOtherKey (h : s.Clean) (key : Key) :
    (State.deliver key (s.handleOtherKey config key)).Clean := by
  unfold State.handleOtherKey
  dsimp only
  split_ifs with hcount hrestored
  · exact fun _ => rfl
  · obtain ⟨engine, hnavigated⟩ :=
      clearNavigatedContext_eq key (s.commitComposition config false).1
    rw [hnavigated]
    exact fun _ => rfl
  · obtain ⟨engine, hnavigated⟩ := clearNavigatedContext_eq key s
    rw [hnavigated]
    exact fun _ => h (Nat.eq_zero_of_not_pos hcount)

/-! ## The dispatch -/

omit [WideCType] in
theorem clean_pushPunctuation (pushed : WChar × Option Bool) :
    (s.pushPunctuation config pushed).Clean := clean_replaceComposition none

theorem Clean.dispatchByKind [AsciiCType] (h : s.Clean) (key : Key) :
    (State.deliver key (s.dispatchByKind config key)).Clean := by
  unfold State.dispatchByKind
  by_cases halpha : isAlphaVk key.vkCode
  · rw [if_pos halpha]
    exact clean_handleAlphaKey key s
  rw [if_neg halpha]
  cases telexBracket config key with
  | some pushed => exact (clean_pushPunctuation pushed).deliver key _
  | none =>
      dsimp only
      by_cases hdigit : (config.typing.inputMethod = .vni ∨ config.typing.inputMethod = .combined ∨
          config.typing.inputMethod = .userDefined) ∧ isDigitVk key.vkCode ∧ 0 < s.count ∧
            key.shift = false
      · rw [if_pos hdigit]
        exact Clean.deliver (clean_replaceComposition none) key _
      rw [if_neg hdigit]
      cases boundOemKey config key (s.count == 0) with
      | some pushed => exact (clean_pushPunctuation pushed).deliver key _
      | none =>
          dsimp only
          split_ifs with hback hescape hcount htrigger
          · exact clean_showShortened.deliver key _
          · exact Clean.deliver (fun _ => rfl) key _
          · exact (h.clearContext (Nat.eq_zero_of_not_pos hcount)).deliver key _
          · exact clean_handleCommitTrigger key s
          · exact h.handleOtherKey key

theorem Clean.dispatchKeyAction [AsciiCType] (h : s.Clean) (key : Key) :
    (State.deliver key (s.dispatchKeyAction config key)).Clean := by
  unfold State.dispatchKeyAction
  split_ifs
  · exact Clean.deliver (fun _ => rfl) key _
  · cases decideDigitLed key.vkCode key.shift (s.count == 0) config.typing.inputMethod
      s.digitLedWord with
    | arm => exact Clean.deliver (s := { s with digitLedWord := true }) h key _
    | bypass => exact h.deliver key _
    | reset => exact Clean.deliver (s := { s with digitLedWord := false }) h key _
    | resetAndContinue => exact Clean.dispatchByKind (s := { s with digitLedWord := false }) h key
    | «continue» => exact h.dispatchByKind key

/-- The late stages, without the restore of raw keys. -/
theorem Clean.lateStages [AsciiCType] [WordBreaks] (h : s.Clean)
    (hoff : config.macroEnabled = false)
    (hundo : s.macroUndo = none) (hkept : cancelsComposition config key = false) :
    (State.deliver key (s.lateStages config key)).Clean := by
  have hrestore : s.tryEscRestore config key = (s, false) := by
    rw [tryEscRestore, hkept, Bool.false_and, if_neg Bool.false_ne_true]
  unfold State.lateStages
  rw [handleMacro_off hoff hundo]
  dsimp only
  rw [if_neg (by simp), hrestore, if_neg (by simp)]
  exact h.dispatchKeyAction key

/-! ## Commit-undo -/

omit [WideCType] in
/-- Commit-undo changes neither the engine nor the shadow while a key is in the gap. -/
theorem handleReadyGap_eq (key : Key) (s : State E) :
    ∃ commitState, s.handleReadyGap key = { s with commitState } := by
  unfold handleReadyGap
  split_ifs
  · exact ⟨s.commitState, rfl⟩
  · exact ⟨_, rfl⟩
  · dsimp only
    split
    · exact ⟨_, rfl⟩
    · exact ⟨_, rfl⟩
    · exact ⟨_, rfl⟩

section Stages

variable [AsciiCType] [WordBreaks]

theorem Clean.passOrReplace (h : s.Clean) (key : Key) (n : Nat) (units : List WChar) :
    (State.deliver key (continueStages config key (s.passOrReplace key n units))).Clean := by
  unfold State.passOrReplace
  split_ifs
  · exact Clean.deliver (s := { s with host := s.host.replace n units }) h key _
  · exact h.deliver key _

theorem Clean.handleReadyBackspace (h : s.Clean) (key : Key) :
    (State.deliver key (continueStages config key (s.handleReadyBackspace key))).Clean := by
  unfold State.handleReadyBackspace
  split_ifs
  · rw [continueStages_pass]
    exact (h.withCommitState _).deliver key _
  · exact Clean.passOrReplace (s := { s.clearMacroBuffer with commitState := _ }) h key 1 []

omit [WideCType] [AsciiCType] [WordBreaks] in
/-- A word that is brought back is on screen; one that is not leaves the shadow as it was. -/
theorem Clean.replayCommittedChars (h : s.Clean) (hzero : s.count = 0)
    (preference : CommittedTextRestorePreference) :
    (s.replayCommittedChars preference).1.Clean := by
  rcases hreplay : s.replayCommittedChars preference with ⟨r, _ | _⟩
  · have hr := unrevived_of_replayCommittedChars hzero hreplay
    exact fun _ => hr.previous.trans (h hzero)
  · cases hstack : s.commitState.stack with
    | nil =>
        rw [State.replayCommittedChars, hstack] at hreplay
        cases hreplay
    | cons entry rest =>
        have hreplayed := replayed_replayCommittedChars hstack preference
        rw [hreplay] at hreplayed
        cases hreplayed with
        | shown _ hstate hstack' hleading hhost hpeek hprevious hwidths =>
            exact .of_peek (hprevious.trans hpeek.symm)

/-- What follows a key right behind a committed word. -/
theorem Clean.handlePrimed (h : s.Clean) (hzero : s.count = 0) (hoff : config.macroEnabled = false)
    (hundo : s.macroUndo = none) (hkept : cancelsComposition config key = false) :
    (State.deliver key (continueStages config key (s.handlePrimed config key))).Clean := by
  unfold State.handlePrimed
  cases s.primedAction config key with
  | replayAlpha =>
      have hreplayed := h.replayCommittedChars hzero .replayHistory
      dsimp only
      split_ifs
      · rw [continueStages, if_pos (outcome_handleAlphaKey key _)]
        exact clean_handleAlphaKey key _
      · exact hreplayed.deliver key _
  | replayDigit =>
      have hreplayed := h.replayCommittedChars hzero .replayHistory
      dsimp only
      split_ifs
      · rw [continueStages_pass]
        exact (hreplayed.withCommitState _).deliver key _
      · exact Clean.deliver (clean_replaceComposition none) key _
  | replayBackspace =>
      have hreplayed := h.replayCommittedChars hzero .visibleText
      dsimp only
      split_ifs
      · exact clean_showShortened.deliver key _
      · exact hreplayed.deliver key _
  | dropTop => exact (h.withCommitState _).lateStages hoff hundo hkept
  | exempt => exact h.lateStages hoff hundo hkept
  | trigger action =>
      cases action with
      | cancel => exact (h.withCommitState _).lateStages hoff hundo hkept
      | idle => exact (h.withCommitState _).lateStages hoff hundo hkept
      | reEnterReady =>
          exact (h.withCommitState _).passOrReplace key 0 [L ' ']

/-- A key that does not restore the raw keys of a word leaves no composition behind. -/
theorem Clean.press (h : s.Clean) (hoff : config.macroEnabled = false)
    (hkept : cancelsComposition config key = false) : (s.press config key).Clean := by
  cases hguarded : isTopGuarded key.vkCode with
  | true =>
      have hstages : (s.beforeStages config key).Clean := by
        unfold beforeStages
        dsimp only
        split_ifs <;> exact h
      unfold State.press processKeyDown
      dsimp only
      rw [if_pos hguarded]
      exact hstages.deliver key _
  | false =>
      have hbegins := begins hoff key s
      have hb := h.congr hbegins.text.engine hbegins.text.previous
      unfold State.press
      rw [processKeyDown_eq hguarded]
      unfold handleCommitUndoFsm
      dsimp only
      generalize (s.beforeStages config key).beforeFsm key = b at hbegins hb
      by_cases hback : b.commitState.state = .ready ∧ key.vkCode = vkBack ∧ b.count = 0
      · rw [if_pos hback]
        exact hb.handleReadyBackspace key
      rw [if_neg hback]
      by_cases hprimed : b.commitState.state = .primed ∧ b.count = 0
      · rw [if_pos hprimed]
        have hdone := hb.handlePrimed hprimed.2 hoff hbegins.macroUndo hkept
        have hready := fallthrough_handlePrimed config key hprimed.1
        generalize b.handlePrimed config key = handled at hdone hready
        by_cases hfall : handled.2 = .fallthrough
        · rw [if_pos hfall, handleReadyGap, if_pos (hready hfall)]
          exact hdone
        · rw [if_neg hfall]
          exact hdone
      · rw [if_neg hprimed, continueStages_fallthrough]
        obtain ⟨commitState, hgap⟩ := handleReadyGap_eq key b
        rw [hgap]
        exact (hb.withCommitState commitState).lateStages hoff hbegins.macroUndo hkept

end Stages

end Keys

end State

end HookEngine

end VKey
