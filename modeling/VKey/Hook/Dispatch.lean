import VKey.Hook.WordOnScreen

/-!
# What the dispatch of a key does

A key that no stage has consumed does one of five things: it is added to the word, it takes the word
back, it commits the word, it resets everything, or it reaches the host while there is no word.  The
statements about whole runs use nothing else of the dispatch.
-/

namespace VKey

namespace HookEngine

/-! ## Keys and decisions -/

/-- The keys that open the undo window are the ones that type a character behind the word. -/
theorem typesCharacter_of_arm {vkCode : Nat} (htrigger : isCommitTrigger vkCode = true)
    (harm : decideCommitUndoArm vkCode = .arm) : typesCharacter vkCode = true := by
  have hboundary : isReplayContextBoundary vkCode = false := by
    cases h : isReplayContextBoundary vkCode with
    | false => rfl
    | true =>
        rw [decideCommitUndoArm, if_pos h] at harm
        cases harm
  have hskip : (isCaretNavigationKey vkCode || vkCode == vkEscape || vkCode == vkDelete ||
      vkCode == vkInsert) = false := by
    cases h : (isCaretNavigationKey vkCode || vkCode == vkEscape || vkCode == vkDelete ||
        vkCode == vkInsert) with
    | false => rfl
    | true =>
        rw [decideCommitUndoArm, if_neg (by simp [hboundary]), if_pos h] at harm
        cases harm
  simp only [isReplayContextBoundary, isCaretNavigationKey, vkReturn, vkTab,
    vkLeft, vkDown, vkHome, vkEnd,
    vkPrior, vkNext, vkEscape, vkDelete, vkInsert, Bool.or_eq_false_iff, decide_eq_false_iff_not,
    beq_eq_false_iff_ne] at hboundary hskip
  simp only [isCommitTrigger, isDigitVk, vkSpace, vkReturn, vkTab, vkLeft, vkDown,
    vkHome, vkEnd, vkPrior,
    vkNext, vkEscape, vkDelete, vkInsert, vkOem1, vkOem3, vkOem4, vkOem8, vkOemPlus, vkOemComma,
    vkOemMinus, vkOemPeriod, Bool.or_eq_true, decide_eq_true_eq, beq_iff_eq] at htrigger
  simp only [typesCharacter, isAlphaVk, isDigitVk, isOemPunctVk, vkSpace, vkOem1,
    vkOem3, vkOem4, vkOem8,
    vkOemPlus, vkOemComma, vkOemMinus, vkOemPeriod, vkOem102, Bool.or_eq_true, decide_eq_true_eq,
    beq_iff_eq]
  omega

namespace State

/-- What a commit trigger does to the undo window. -/
theorem armCommitUndo_cases (key : Key) (c : CommitState) :
    ((armCommitUndo key c).state = .idle ∧ (armCommitUndo key c).stack = []) ∨
    armCommitUndo key c = c ∨
    (c.pushedToStack = true ∧ decideCommitUndoArm key.vkCode = .arm ∧
      armCommitUndo key c =
        { c.setCommitUndoReady with gapEndsInGlyph := key.vkCode != vkSpace }) := by
  unfold armCommitUndo
  cases hpushed : c.pushedToStack with
  | false => exact Or.inr (Or.inl rfl)
  | true =>
      cases harm : decideCommitUndoArm key.vkCode with
      | arm =>
          by_cases hreplaced :
            c.wordOpenGlyph ≠ 0 ∧ isHostReplacedWord c.wordOpenGlyph key.macroChar
          · exact Or.inl (by simp [hreplaced, CommitState.cancel])
          · exact Or.inr (Or.inr (by simp [hreplaced]))
      | skip => exact Or.inr (Or.inl rfl)
      | clear => exact Or.inl ⟨rfl, rfl⟩

/-! ## The result of a dispatch -/

variable {E : Type} [InputEngine E] {config : Config} {s s' : State E}
  {pre : List WChar} {key : Key}

/-- The widths of the committed words belong to their texts. -/
def EntriesFit (config : Config) (stack : List CommitEntry) : Prop :=
  config.currentCodeTable ≠ .unicode →
    ∀ entry ∈ stack, entry.widths = entry.text.map (encodedWidth config)

theorem EntriesFit.of_subset {stack stack' : List CommitEntry} (h : EntriesFit config stack)
    (hsubset : stack' ⊆ stack) : EntriesFit config stack' :=
  fun htable entry hentry => h htable entry (hsubset hentry)

/-- The undo window after a key has committed a word. -/
inductive UndoAfterCommit (config : Config) (key : Key) (text : List WChar)
    (c c' : CommitState) : Prop
  /-- The committed words are dropped. -/
  | dropped (hstate : c'.state = .idle) (hstack : c'.stack = [])
  /-- The undo window is not opened. -/
  | kept (hstate : c'.state = c.state)
      (hentries : EntriesFit config c.stack → EntriesFit config c'.stack)
  /-- The undo window opens behind the word and the character of the key. -/
  | armed (entry : CommitEntry) (kept : List CommitEntry)
      (htypes : typesCharacter key.vkCode = true)
      (hstate : c'.state = .ready) (hpending : c'.pendingTriggerCount = 0)
      (hstack : c'.stack = entry :: kept) (hkept : kept <+: c.stack) (htext : entry.text = text)
      (hextra : entry.extraLeadingTriggers = c.leadingTriggersForCurrentWord)
      (hanchored : entry.anchored = true)
      (hwidths : config.currentCodeTable ≠ .unicode →
        entry.widths = entry.text.map (encodedWidth config))

section Results

variable [WideCType]

/-- The state after a key has committed a word. -/
structure AfterCommit (config : Config) (pre : List WChar) (key : Key) (s s' : State E) : Prop where
  count : s'.count = 0
  previous : s'.previousComposition = []
  widths : s'.previousEncodedWidths = []
  undo : ∃ text host, host.before = pre ++ onScreen config text ∧
    (s'.host = key.press host ∨ s'.host = host.insert [key.macroChar]) ∧
    UndoAfterCommit config key text s.commitState s'.commitState

/-- What a dispatch does. -/
inductive Dispatched (config : Config) (pre : List WChar) (key : Key) (s s' : State E) : Prop
  /-- The key is added to the word. -/
  | typed (hword : s'.Word config pre) (hundo : SameUndo s.commitState s'.commitState)
  /-- The key takes the last letter of the word. -/
  | backedOut (hcount : s.count ≠ 0) (hcount' : s'.count = 0) (hword : s'.Word config pre)
      (hundo : BackedOut s.commitState s'.commitState)
  /-- The key reaches the host while there is no word. -/
  | passed (hcount : s.count = 0) (hcount' : s'.count = 0)
      (hundo : SameUndo s.commitState s'.commitState)
      (hprevious : s'.previousComposition = s.previousComposition)
      (hwidths : s'.previousEncodedWidths = s.previousEncodedWidths)
      (hhost : s'.host = key.press s.host)
  /-- Everything is reset. -/
  | reset (hcount' : s'.count = 0) (hstate : s'.commitState.state = .idle)
      (hstack : s'.commitState.stack = []) (hprevious : s'.previousComposition = [])
      (hwidths : s'.previousEncodedWidths = []) (hhost : s'.host = key.press s.host)
  /-- The word is committed. -/
  | committed (hshortcut : key.shortcut = false) (hcount : s.count ≠ 0)
      (hafter : AfterCommit config pre key s s')

end Results

/-! ## Commits -/

theorem Pushed.entriesFit {c c' : CommitState} {text : List WChar} (h : Pushed config text c c')
    (hentries : EntriesFit config c.stack) : EntriesFit config c'.stack := by
  obtain ⟨entry, kept, hstack, hkept, -, -, -, hwidths⟩ := h.stack
  intro htable
  rw [hstack, List.forall_mem_cons]
  exact ⟨hwidths htable, fun other hother => hentries htable other (hkept.subset hother)⟩

/-- After a commit the key decides about the undo window. -/
theorem undoAfterCommit_armCommitUndo {c c' : CommitState} {text : List WChar}
    (htrigger : isCommitTrigger key.vkCode = true)
    (h : Pushed config text c c' ∨ SameUndo c c' ∧ c'.pushedToStack = false) :
    UndoAfterCommit config key text c (armCommitUndo key c') := by
  rcases armCommitUndo_cases key c' with ⟨hstate, hstack⟩ | hsame | ⟨hpushed, harm, hready⟩
  · exact .dropped hstate hstack
  · rw [hsame]
    rcases h with h | ⟨h, -⟩
    · exact .kept h.state h.entriesFit
    · exact .kept h.state fun hentries => by rwa [h.stack]
  · rcases h with h | ⟨-, hnot⟩
    · obtain ⟨entry, kept, hstack, hkept, htext, hextra, hanchored, hwidths⟩ := h.stack
      rw [hready]
      exact .armed entry kept (typesCharacter_of_arm htrigger harm) rfl h.leading hstack hkept htext
        hextra hanchored hwidths
    · exact absurd (hpushed.symm.trans hnot) (by decide)

theorem count_clearNavigatedContext (key : Key) (h : s.count = 0) :
    (s.clearNavigatedContext key).count = 0 := by
  unfold clearNavigatedContext
  split_ifs
  · exact count_clearContext s.engine h
  · exact h

theorem clearNavigatedContext_eq (key : Key) (s : State E) :
    ∃ engine, s.clearNavigatedContext key = { s with engine } := by
  unfold clearNavigatedContext
  split_ifs
  · exact ⟨_, rfl⟩
  · exact ⟨s.engine, rfl⟩

variable [WideCType]

omit [InputEngine E] in
theorem deliver_sendTrigger (key : Key) (restored : Bool) (s : State E) :
    ∃ host, deliver key (s.sendTrigger key restored) = { s with host } ∧
      (host = key.press s.host ∨ host = s.host.insert [key.macroChar]) := by
  unfold sendTrigger passOrReplace
  split_ifs
  · exact ⟨_, rfl, Or.inl rfl⟩
  · refine ⟨s.host.insert [key.macroChar], ?_, Or.inr rfl⟩
    rw [deliver_eat, CaretText.replace_zero]
  · exact ⟨_, rfl, Or.inl rfl⟩
  · exact ⟨_, rfl, Or.inl rfl⟩

omit [InputEngine E] [WideCType] in
theorem carryMacroBuffer_eq (saved : List WChar) (autoCapped : Bool) (s : State E) :
    ∃ buffer cross cap, s.carryMacroBuffer saved autoCapped =
      { s with
          rawMacroBuffer := buffer, macroCrossCommit := cross, wasFirstCharAutoCapped := cap } := by
  unfold carryMacroBuffer
  split_ifs
  · exact ⟨_, _, _, rfl⟩
  · exact ⟨_, _, _, rfl⟩

/-- A commit trigger commits the word. -/
theorem Word.handleCommitTrigger [AsciiCType] (h : s.Word config pre) (hcount : s.count ≠ 0)
    (htrigger : isCommitTrigger key.vkCode = true) :
    AfterCommit config pre key s (deliver key (s.handleCommitTrigger config key)) := by
  have hcommit := h.commitComposition hcount (isVerbatimCommitTrigger key.macroChar)
  obtain ⟨host, hdeliver, hhost⟩ := deliver_sendTrigger key
    (s.isAutoRestored (isVerbatimCommitTrigger key.macroChar)) (s.committedBy config key)
  unfold State.handleCommitTrigger
  rw [hdeliver]
  unfold committedBy at hhost ⊢
  dsimp only at hhost ⊢
  generalize (s.commitComposition config (isVerbatimCommitTrigger key.macroChar)).1 =
    t at hcommit hhost
  have hzero := count_clearNavigatedContext key hcommit.count
  obtain ⟨engine, hnavigated⟩ := clearNavigatedContext_eq key t
  rw [hnavigated] at hhost hzero ⊢
  obtain ⟨buffer, cross, cap, hcarried⟩ := carryMacroBuffer_eq (s.savedMacroBuffer config key)
    s.wasFirstCharAutoCapped { t with engine }
  rw [hcarried] at hhost ⊢
  obtain ⟨text, hbefore, hundo⟩ := hcommit.undo
  exact ⟨hzero, hcommit.previous, hcommit.widths, text, t.host, hbefore, hhost,
    undoAfterCommit_armCommitUndo htrigger hundo⟩

/-- Any other key commits the word and leaves the undo window closed. -/
theorem Word.handleOtherKey (h : s.Word config pre) (hcount : s.count ≠ 0) :
    AfterCommit config pre key s (deliver key (s.handleOtherKey config key)) := by
  have hcommit := h.commitComposition hcount false
  unfold State.handleOtherKey
  rw [if_pos (Nat.pos_of_ne_zero hcount)]
  dsimp only
  have hundo : ∀ {text : List WChar} {c : CommitState},
      Pushed config text s.commitState c ∨ SameUndo s.commitState c ∧ c.pushedToStack = false →
        UndoAfterCommit config key text s.commitState c := by
    rintro text c (hpushed | ⟨hsame, -⟩)
    · exact .kept hpushed.state hpushed.entriesFit
    · exact .kept hsame.state fun hentries => by rwa [hsame.stack]
  obtain ⟨text, hbefore, hcases⟩ := hcommit.undo
  split_ifs
  · exact ⟨hcommit.count, hcommit.previous, hcommit.widths, text, _, hbefore, Or.inl rfl,
      hundo hcases⟩
  · have hzero := count_clearNavigatedContext key hcommit.count
    obtain ⟨engine, hnavigated⟩ :=
      clearNavigatedContext_eq key (s.commitComposition config false).1
    rw [deliver_pass, hnavigated]
    rw [hnavigated] at hzero
    exact ⟨hzero, hcommit.previous, hcommit.widths, text, _, hbefore, Or.inl rfl, hundo hcases⟩

theorem Dispatched.handleOtherKey (hcount : s.count = 0) :
    Dispatched config pre key s (deliver key (s.handleOtherKey config key)) := by
  unfold State.handleOtherKey
  rw [if_neg (by simp [hcount]), deliver_pass]
  have hzero := count_clearNavigatedContext key hcount
  obtain ⟨engine, hnavigated⟩ := clearNavigatedContext_eq key s
  rw [hnavigated] at hzero ⊢
  exact .passed hcount hzero ⟨rfl, rfl, rfl, rfl⟩ rfl rfl rfl

/-! ## The dispatch -/

/-- The latch of words that begin with a digit is no part of what a dispatch does. -/
theorem Dispatched.of_digitLedWord {armed : Bool}
    (h : Dispatched config pre key { s with digitLedWord := armed } s') :
    Dispatched config pre key s s' := by
  cases h with
  | typed hword hundo => exact .typed hword hundo
  | backedOut hcount hcount' hword hundo => exact .backedOut hcount hcount' hword hundo
  | passed hcount hcount' hundo hprevious hwidths hhost =>
      exact .passed hcount hcount' hundo hprevious hwidths hhost
  | reset hcount' hstate hstack hprevious hwidths hhost =>
      exact .reset hcount' hstate hstack hprevious hwidths hhost
  | committed hshortcut hcount hafter =>
      exact .committed hshortcut hcount ⟨hafter.count, hafter.previous, hafter.widths, hafter.undo⟩

omit [WideCType] in
theorem decideDigitLed_of_nonempty (vkCode : Nat) (shift : Bool) (method : InputMethod)
    (armed : Bool) :
    decideDigitLed vkCode shift false method armed = .resetAndContinue ∨
      decideDigitLed vkCode shift false method armed = .continue := by
  cases armed with
  | true => exact Or.inl rfl
  | false =>
      refine Or.inr ?_
      rw [decideDigitLed, if_neg (by decide), if_pos (by simp)]

/-- The engine takes the key at the start of a word although it is no letter. -/
def startsWithPunctuation (config : Config) (key : Key) : Bool :=
  (telexBracket config key).isSome || (boundOemKey config key true).isSome

/-- A reset leaves no word and no committed words. -/
theorem Dispatched.resetComposition (s : State E) :
    Dispatched config pre key s (deliver key (s.resetComposition, .pass)) := by
  rw [deliver_pass]
  exact .reset count_resetComposition rfl rfl rfl rfl rfl

theorem Dispatched.pushPunctuation (h : s.Word config pre)
    (hclean : s.count = 0 → s.previousComposition = []) (pushed : WChar × Option Bool) :
    Dispatched config pre key s (deliver key (s.pushPunctuation config pushed, .eat)) := by
  rw [deliver_eat]
  exact .typed (h.pushPunctuation hclean pushed) (sameUndo_pushPunctuation pushed)

/-- Backspace in a word. -/
theorem Dispatched.handleBackspace (h : s.Word config pre) (hcount : s.count ≠ 0) :
    Dispatched config pre key s (deliver key (s.handleBackspace config, .eat)) := by
  rw [deliver_eat]
  by_cases hleft : (s.handleBackspace config).count = 0
  · exact .backedOut hcount hleft (h.handleBackspace hcount) (undo_handleBackspace.2 hleft)
  · exact .typed (h.handleBackspace hcount) (undo_handleBackspace.1 hleft)

theorem Dispatched.escape (s : State E) :
    Dispatched config pre key s
      (deliver key (if 0 < s.count then (s.resetComposition, .pass)
        else ({ s with engine := InputEngine.clearContext s.engine }, .pass))) := by
  split_ifs with hcount
  · exact .resetComposition s
  · have hzero := Nat.eq_zero_of_not_pos hcount
    rw [deliver_pass]
    exact .passed hzero (count_clearContext s.engine hzero) ⟨rfl, rfl, rfl, rfl⟩ rfl rfl rfl

/-- The dispatch by the kind of the key. -/
theorem Dispatched.dispatchByKind [AsciiCType] (h : s.Word config pre)
    (hshortcut : key.shortcut = false)
    (hclean : s.count = 0 → startsWithPunctuation config key = true → s.previousComposition = []) :
    Dispatched config pre key s (deliver key (s.dispatchByKind config key)) := by
  unfold State.dispatchByKind
  by_cases halpha : isAlphaVk key.vkCode
  · rw [if_pos halpha]
    exact .typed (h.handleAlphaKey halpha hshortcut) (sameUndo_handleAlphaKey key)
  rw [if_neg halpha]
  cases hbracket : telexBracket config key with
  | some pushed =>
      refine .pushPunctuation h (fun hzero => hclean hzero ?_) pushed
      rw [startsWithPunctuation, hbracket, Option.isSome_some, Bool.true_or]
  | none =>
      dsimp only
      by_cases hdigit : (config.typing.inputMethod = .vni ∨ config.typing.inputMethod = .combined ∨
          config.typing.inputMethod = .userDefined) ∧ isDigitVk key.vkCode ∧ 0 < s.count ∧
            key.shift = false
      · rw [if_pos hdigit, deliver_eat]
        exact .typed (h.handleVniDigitKey (Nat.pos_iff_ne_zero.mp hdigit.2.2.1) key)
          (sameUndo_handleVniDigitKey key)
      rw [if_neg hdigit]
      cases hbound : boundOemKey config key (s.count == 0) with
      | some pushed =>
          refine .pushPunctuation h (fun hzero => hclean hzero ?_) pushed
          rw [hzero, beq_self_eq_true] at hbound
          rw [startsWithPunctuation, hbound, Option.isSome_some, Bool.or_true]
      | none =>
          dsimp only
          by_cases hback : key.vkCode = vkBack ∧ 0 < s.count
          · rw [if_pos hback]
            exact .handleBackspace h (Nat.pos_iff_ne_zero.mp hback.2)
          rw [if_neg hback]
          by_cases hescape : key.vkCode = vkEscape
          · rw [if_pos hescape]
            exact .escape s
          rw [if_neg hescape]
          by_cases htrigger : isCommitTrigger key.vkCode ∧ 0 < s.count
          · have hcount := Nat.pos_iff_ne_zero.mp htrigger.2
            rw [if_pos htrigger]
            exact .committed hshortcut hcount (h.handleCommitTrigger hcount htrigger.1)
          rw [if_neg htrigger]
          by_cases hcount : s.count = 0
          · exact .handleOtherKey hcount
          · exact .committed hshortcut hcount (h.handleOtherKey hcount)

/-- The dispatch of a key. -/
theorem Dispatched.dispatchKeyAction [AsciiCType] (h : s.Word config pre)
    (hclean : s.count = 0 → startsWithPunctuation config key = true → s.previousComposition = []) :
    Dispatched config pre key s (deliver key (s.dispatchKeyAction config key)) := by
  unfold State.dispatchKeyAction
  cases hshortcut : key.shortcut with
  | true => exact .resetComposition s
  | false =>
      rw [if_neg (by decide)]
      have hpassed : ∀ armed, s.count = 0 →
          Dispatched config pre key s (deliver key ({ s with digitLedWord := armed }, .pass)) := by
        intro armed hcount
        rw [deliver_pass]
        exact .passed hcount hcount ⟨rfl, rfl, rfl, rfl⟩ rfl rfl rfl
      have hempty : ∀ decision,
          decideDigitLed key.vkCode key.shift (s.count == 0) config.typing.inputMethod
            s.digitLedWord = decision →
          decision ≠ .resetAndContinue → decision ≠ .continue → s.count = 0 := by
        intro decision hdecision hreset hcontinue
        by_contra hcount
        rw [beq_eq_false_iff_ne.mpr hcount] at hdecision
        rcases decideDigitLed_of_nonempty key.vkCode key.shift config.typing.inputMethod
          s.digitLedWord with h | h
        · exact hreset (hdecision.symm.trans h)
        · exact hcontinue (hdecision.symm.trans h)
      cases hdecision : decideDigitLed key.vkCode key.shift (s.count == 0)
          config.typing.inputMethod s.digitLedWord with
      | arm => exact hpassed true (hempty _ hdecision nofun nofun)
      | bypass => exact hpassed s.digitLedWord (hempty _ hdecision nofun nofun)
      | reset => exact hpassed false (hempty _ hdecision nofun nofun)
      | resetAndContinue =>
          exact Dispatched.of_digitLedWord (Dispatched.dispatchByKind
            ⟨h.shows, h.previous, h.empty, h.widths⟩ hshortcut hclean)
      | «continue» => exact .dispatchByKind h hshortcut hclean

end State

end HookEngine

end VKey
