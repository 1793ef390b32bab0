import VKey.Tsf.CompositionKept

/-!
# Revived and restored words

A word that is already in the document is composed again, to go on with it or to shorten it, or is
replaced by its keys.  The host may refuse any of the calls this takes.
-/

namespace VKey

open HookEngine

namespace TextService

variable {E : Type} [InputEngine E]

/-! ## Reviving a word -/

section Revive

variable (answers : SessionAnswers) (word rawInput : List WChar)

/-- A revived word that is shown, or has been given up, has its letters in a composition. -/
theorem steady_showRevived {s : TextService E} (hcomposing : s.isComposing = true) :
    (s.showRevived answers).Steady := by
  unfold showRevived
  by_cases hwrites : answers.writes = true
  · simp only [hwrites, if_true, setCompositionText_of_writes _ hcomposing hwrites]
    split_ifs with hbuffer
    · exact ⟨fun text htext => Option.some.inj htext, fun hnone =>
        absurd hnone (Option.some_ne_none _)⟩
    · have hcount : InputEngine.count s.engine = 0 :=
        hasEngineBuffer_eq_false (s := s).mp (Bool.not_eq_true _ ▸ hbuffer)
      refine .of_none (composition_endComposition _) ?_
      rw [engine_endComposition]
      exact hcount
  · simp only [if_neg hwrites]
    refine .of_none (composition_endComposition _) ?_
    rw [engine_endComposition]
    exact count_reset _

omit [InputEngine E] in
theorem startCompositionOnRange_engine (units : Nat) (s : TextService E) (engine : E) :
    ({ s with engine } : TextService E).startCompositionOnRange answers units word =
      { s.startCompositionOnRange answers units word with engine } := by
  unfold startCompositionOnRange endComposition
  split_ifs <;> first | rfl | contradiction

omit [InputEngine E] in
theorem startCompositionOnRange_of_starts {answers : SessionAnswers}
    {word : List WChar} (units : Nat)
    (s : TextService E) (hword : word ≠ []) (hstarts : answers.starts = true) :
    s.startCompositionOnRange answers units word =
      { s.endComposition with
        document := s.endComposition.document.composeOver units
        currentText := word } := by
  simp [startCompositionOnRange, hword, hstarts]

omit [InputEngine E] in
theorem startCompositionOnRange_of_not {answers : SessionAnswers} {word : List WChar} (units : Nat)
    (s : TextService E) (hword : word ≠ []) (hstarts : answers.starts = false) :
    s.startCompositionOnRange answers units word = s.endComposition := by
  simp [startCompositionOnRange, hword, hstarts]

theorem count_seedRevivedWord {engine : E}
    (h : (seedRevivedWord word rawInput engine).1 = .failed) :
    InputEngine.count (seedRevivedWord word rawInput engine).2 = 0 :=
  count_restoreCommittedText h

/-- A composition over units before the caret, with another engine. -/
def reopened (units : Nat) (engine : E) (s : TextService E) : TextService E :=
  { s.endComposition with
    document := s.endComposition.document.composeOver units
    currentText := word
    engine }

/-- What reviving a word comes to: nothing; a seed that has failed; a composition over the word; or
an edit of the document without one. -/
theorem reviveCompositionEditSession_cases (units : Nat) (s : TextService E) :
    let seeded := seedRevivedWord word rawInput s.engine
    let revived := s.reviveCompositionEditSession answers word rawInput units
    let shortened := InputEngine.backspace seeded.2
    revived = s ∨
      (seeded.1 = .failed ∧ revived = { s with engine := seeded.2 }) ∨
      (seeded.1 ≠ .failed ∧ word ≠ [] ∧ answers.starts = true ∧
        revived = (s.reopened word units shortened).showRevived answers) ∨
      (seeded.1 ≠ .failed ∧ word ≠ [] ∧ answers.starts = false ∧
        revived =
          { s.endComposition with
            document :=
              if answers.writes then
                s.endComposition.document.replaceBefore units (InputEngine.peek shortened)
              else s.endComposition.document
            engine := InputEngine.reset shortened }) := by
  intro seeded revived shortened
  by_cases hnone : (!answers.locks || word.isEmpty) = true
  · exact .inl (if_pos hnone)
  right
  have hword : word ≠ [] := by
    rintro rfl
    exact hnone (by simp)
  by_cases hfailed : seeded.1 = .failed
  · refine .inl ⟨hfailed, ?_⟩
    simp only [revived, reviveCompositionEditSession, if_neg hnone, if_pos hfailed, seeded]
  right
  have hrevived : revived =
      if answers.starts then
        ({ ({ s with
            engine := seeded.2 } : TextService E).startCompositionOnRange answers units word with
            engine := shortened } : TextService E).showRevived answers
      else
        { ({ s with
            engine := seeded.2 } : TextService E).startCompositionOnRange answers units word with
          document :=
            if answers.writes then
              (({ s with engine := seeded.2 } : TextService E).startCompositionOnRange answers units
                word).document.replaceBefore units (InputEngine.peek shortened)
            else
              (({ s with engine := seeded.2 } : TextService E).startCompositionOnRange answers units
                word).document
          engine := InputEngine.reset shortened } := by
    simp only [revived, reviveCompositionEditSession, if_neg hnone,
      if_neg hfailed, seeded, shortened, startCompositionOnRange_engine]
  rw [startCompositionOnRange_engine] at hrevived
  cases hstarts : answers.starts with
  | true =>
      refine .inl ⟨hfailed, hword, rfl, ?_⟩
      rw [hrevived, if_pos hstarts,
        startCompositionOnRange_of_starts units s hword hstarts, reopened]
  | false =>
      refine .inr ⟨hfailed, hword, rfl, ?_⟩
      rw [hrevived, if_neg (by simp [hstarts]),
        startCompositionOnRange_of_not units s hword hstarts]

/-- What going on with a word comes to. -/
theorem reviveAndTypeEditSession_cases (ch : WChar) (uppercase : Bool) (s : TextService E) :
    let seeded := seedRevivedWord word rawInput s.engine
    let revived := s.reviveAndTypeEditSession answers word rawInput ch uppercase
    let typed := InputEngine.pushKey seeded.2 ch uppercase
    revived = (s, false) ∨
      revived = ({ s with engine := InputEngine.reset seeded.2 }, false) ∨
      revived = ({ s.endComposition with engine := InputEngine.reset seeded.2 }, false) ∨
      (seeded.1 ≠ .failed ∧ word ≠ [] ∧ answers.starts = true ∧
        revived = ((s.reopened word word.length typed).showRevived answers, answers.writes)) := by
  intro seeded revived typed
  by_cases hnone : (!answers.locks || word.isEmpty || ch == 0) = true
  · exact .inl (if_pos hnone)
  right
  have hword : word ≠ [] := by
    rintro rfl
    exact hnone (by simp)
  by_cases hfailed : seeded.1 = .failed
  · refine .inl ?_
    simp only [revived, reviveAndTypeEditSession, if_neg hnone, if_pos hfailed, seeded]
  right
  cases hstarts : answers.starts with
  | false =>
      refine .inl ?_
      simp only [revived, reviveAndTypeEditSession, if_neg hnone, if_neg hfailed, seeded, hstarts,
        Bool.not_false, if_true]
      rw [startCompositionOnRange_engine, startCompositionOnRange_of_not _ s hword hstarts]
  | true =>
      refine .inr ⟨hfailed, hword, rfl, ?_⟩
      simp only [revived, reviveAndTypeEditSession, if_neg hnone, if_neg hfailed, seeded, hstarts,
        Bool.not_true, Bool.false_eq_true, if_false, startCompositionOnRange_engine]
      rw [startCompositionOnRange_of_starts _ s hword hstarts, reopened]

omit [InputEngine E] in
theorem isComposing_reopened (units : Nat) (engine : E) (s : TextService E) :
    (s.reopened word units engine).isComposing = true := rfl

theorem touches_showRevived (s : TextService E) : s.Touches (s.showRevived answers) := by
  unfold showRevived
  dsimp only
  split_ifs
  · exact s.touches_setCompositionText _ _
  · exact (s.touches_setCompositionText _ _).trans (touches_endComposition _)
  · exact (s.touches_engine _).trans (touches_endComposition _)

theorem steady_reviveCompositionEditSession (units : Nat) {s : TextService E} (h : s.Steady) :
    (s.reviveCompositionEditSession answers word rawInput units).Steady := by
  rcases s.reviveCompositionEditSession_cases answers word rawInput units with
    hsame | ⟨hfailed, hengine⟩ | ⟨-, -, -, hreopened⟩ | ⟨-, -, -, hedited⟩
  · rw [hsame]
    exact h
  · rw [hengine]
    exact h.of_touches (s.touches_engine _) (count_seedRevivedWord _ _ hfailed)
  · rw [hreopened]
    exact steady_showRevived _ (isComposing_reopened _ _ _ _)
  · rw [hedited]
    refine .of_none ?_ (count_reset _)
    split_ifs <;> exact composition_endComposition s

theorem steady_reviveAndTypeEditSession (ch : WChar) (uppercase : Bool)
    {s : TextService E} (h : s.Steady) :
    (s.reviveAndTypeEditSession answers word rawInput ch uppercase).1.Steady := by
  rcases s.reviveAndTypeEditSession_cases answers word rawInput ch uppercase with
    hsame | hengine | hended | ⟨-, -, -, hreopened⟩
  · rw [hsame]
    exact h
  · rw [hengine]
    exact h.of_touches (s.touches_engine _) (count_reset _)
  · rw [hended]
    exact h.of_touches (s.touches_endComposition.trans (touches_engine _ _)) (count_reset _)
  · rw [hreopened]
    exact steady_showRevived _ (isComposing_reopened _ _ _ _)

end Revive

/-! ## The parts of the two calls -/

theorem Steady.recoverDesync_eq {s : TextService E} (h : s.Steady) (answers : SessionAnswers) :
    s.recoverDesync answers =
      if s.isComposing && !s.hasEngineBuffer then s.commit answers else s := by
  unfold recoverDesync
  cases hcomposing : s.isComposing with
  | true => simp
  | false =>
      have hcount := hasEngineBuffer_eq_false.mpr (h.empty (isComposing_eq_false.mp hcomposing))
      simp [hcount]

theorem touches_recoverDesync (answers : SessionAnswers) (s : TextService E) :
    s.Touches (s.recoverDesync answers) := by
  unfold recoverDesync
  split_ifs
  · exact s.touches_reset
  · exact s.touches_commit _
  · exact .refl s

theorem Steady.recoverDesync {s : TextService E} (h : s.Steady) (answers : SessionAnswers) :
    (s.recoverDesync answers).Steady := by
  rw [h.recoverDesync_eq answers]
  split_ifs
  · exact h.of_touches (s.touches_commit _) (count_commit _ _)
  · exact h

theorem Steady.clearContext {s : TextService E} (h : s.Steady) : s.clearContext.Steady :=
  ⟨h.shown, fun hnone => count_clearContext_of_count (h.empty hnone)⟩

theorem Steady.resetCommitUndo {s : TextService E} (h : s.Steady) : s.resetCommitUndo.Steady :=
  ⟨s.touches_resetCommitUndo.shown h.shown, by
    rw [document_resetCommitUndo, engine_resetCommitUndo]
    exact h.empty⟩

omit [InputEngine E] in
/-- What restoring the keys of the last word comes to. -/
theorem tryRestoreLastCommitRaw_cases (answers : SessionAnswers)
    (within : Bool) (s : TextService E) :
    s.tryRestoreLastCommitRaw answers within = (s, false) ∨
      s.tryRestoreLastCommitRaw answers within = (s.resetCommitUndo, false) ∨
      (s.commitUndoState = .primed ∧
        s.document.before.rtake s.lastCommit.body.length = s.lastCommit.body ∧
        s.tryRestoreLastCommitRaw answers within =
          (({ s with
              document := s.document.replaceBefore s.lastCommit.body.length s.lastCommit.rawInput }
            : TextService E).resetCommitUndo, true)) := by
  unfold tryRestoreLastCommitRaw escRestoreLastCommitSession
  by_cases hprimed : s.commitUndoState = .primed
  · rw [if_neg (not_not_intro hprimed)]
    right
    by_cases hwithin :
      (!within || s.lastCommit.text.isEmpty || s.lastCommit.rawInput.isEmpty) = true
    · exact .inl (if_pos hwithin)
    rw [if_neg hwithin]
    by_cases hlocks : (!answers.locks || s.lastCommit.body.isEmpty || !answers.reads) = true
    · rw [if_pos hlocks]
      exact .inl rfl
    rw [if_neg hlocks]
    by_cases hthere : s.lastCommit.body.length ≤ s.document.before.length ∧
        s.document.before.rtake s.lastCommit.body.length = s.lastCommit.body ∧ answers.writes = true
    · rw [if_pos hthere]
      exact .inr ⟨hprimed, hthere.2.1, rfl⟩
    · rw [if_neg hthere]
      exact .inl rfl
  · exact .inl (if_pos hprimed)

omit [InputEngine E] in
@[simp] theorem engine_tryRestoreLastCommitRaw (answers : SessionAnswers) (within : Bool)
    (s : TextService E) : (s.tryRestoreLastCommitRaw answers within).1.engine = s.engine := by
  rcases s.tryRestoreLastCommitRaw_cases answers within with hcase | hcase | ⟨-, -, hcase⟩ <;>
    rw [hcase]
  · exact engine_resetCommitUndo s
  · exact engine_resetCommitUndo _

theorem Steady.tryRestoreLastCommitRaw {s : TextService E} (h : s.Steady) (answers : SessionAnswers)
    (within : Bool) : (s.tryRestoreLastCommitRaw answers within).1.Steady := by
  rcases s.tryRestoreLastCommitRaw_cases answers within with hcase | hcase | ⟨-, -, hcase⟩ <;>
    rw [hcase]
  · exact h
  · exact h.resetCommitUndo
  · exact Steady.resetCommitUndo ⟨h.shown, h.empty⟩

/-! ## Recovery, typing and Escape -/

section Actions

variable (settings : Settings E)

/-- Backspace shortens the word, or revives the one before the caret, or does nothing. -/
theorem handleBackspace_cases (answers : Answers) (s : TextService E) :
    (s.hasEngineBuffer = true ∧ handleBackspace settings answers s =
      s.processBackspace answers.edit) ∨
      (s.hasEngineBuffer = false ∧ handleBackspace settings answers s = s) ∨
      (s.hasEngineBuffer = false ∧ handleBackspace settings answers s =
        s.reviveCompositionEditSession answers.revive (s.document.wordBefore 16)
          (s.matchingRawForCommittedWord (s.document.wordBefore 16))
          (s.document.wordBefore 16).length) := by
  unfold handleBackspace
  cases hbuffer : s.hasEngineBuffer with
  | true => exact .inl ⟨rfl, rfl⟩
  | false =>
      have hprepared : prepareBackspaceRevive settings answers s = none ∨
          prepareBackspaceRevive settings answers s = some (s.document.wordBefore 16) := by
        unfold prepareBackspaceRevive
        dsimp only
        split_ifs
        · exact .inl rfl
        · exact .inl rfl
        · exact .inr rfl
      rcases hprepared with hnone | hsome
      · exact .inr (.inl ⟨rfl, by rw [hnone]; rfl⟩)
      · exact .inr (.inr ⟨rfl, by rw [hsome]; rfl⟩)

/-- A letter is typed, or goes on with the word before the caret, or is typed behind what that has
left. -/
theorem handleLetter_cases [WideCType] (answers : Answers) (ch : WChar) (uppercase isBracket : Bool)
    (s : TextService E) :
    let word := inspectedWord settings answers s
    let revived := s.reviveAndTypeEditSession answers.revive word
      (s.matchingRawForCommittedWord word) ch
      uppercase
    let handled := handleLetter settings answers ch uppercase isBracket s
    (handled = (s.pushEngineKey answers.edit ch uppercase).1) ∨
      (revived.2 = true ∧ handled = revived.1) ∨
      (∃ ch uppercase, handled = (revived.1.pushEngineKey answers.edit ch uppercase).1) := by
  intro word revived handled
  have hdef : handled =
      if !s.hasEngineBuffer && !s.isComposing && !settings.isScintillaApp then
        if revived.2 then revived.1
        else if settings.autoCaps && shouldAutoCap answers s then
          (revived.1.pushEngineKey answers.edit
            (if isBracket then ch else WideCType.towupper ch) true).1
        else (revived.1.pushEngineKey answers.edit ch uppercase).1
      else (s.pushEngineKey answers.edit ch uppercase).1 := rfl
  by_cases hboundary : (!s.hasEngineBuffer && !s.isComposing && !settings.isScintillaApp) = true
  · rw [if_pos hboundary] at hdef
    by_cases hrevived : revived.2 = true
    · exact .inr (.inl ⟨hrevived, by rw [hdef, if_pos hrevived]⟩)
    rw [if_neg hrevived] at hdef
    by_cases hauto : (settings.autoCaps && shouldAutoCap answers s) = true
    · exact .inr (.inr ⟨_, _, by rw [hdef, if_pos hauto]⟩)
    · exact .inr (.inr ⟨_, _, by rw [hdef, if_neg hauto]⟩)
  · exact .inl (by rw [hdef, if_neg hboundary])

/-- What Escape comes to: the word is committed by its keys, or as it is shown, or the last word is
given back by its keys, or nothing is. -/
theorem handleEscape_cases (answers : SessionAnswers) (within : Bool) (s : TextService E) :
    let escaped := handleEscape settings answers within s
    ((s.commitRawAndEnd answers).2 = true ∧ escaped = (s.commitRawAndEnd answers).1) ∨
      escaped = s.endCompositionVerbatim answers ∨
      (s.hasEngineBuffer = false ∧ settings.escRestoreRaw = true ∧
        (escaped = (s.tryRestoreLastCommitRaw answers within).1 ∨
          escaped = (s.tryRestoreLastCommitRaw answers within).1.clearContext)) ∨
      (s.hasEngineBuffer = false ∧ escaped = s.clearContext) := by
  intro escaped
  let restored : TextService E × Bool :=
    if !settings.escRestoreRaw then (s, false)
    else if s.hasEngineBuffer then s.commitRawAndEnd answers
    else if s.commitUndoState = .primed ∧ within then s.tryRestoreLastCommitRaw answers within
    else (s, false)
  have hdef : escaped =
      if restored.2 then restored.1
      else if restored.1.hasEngineBuffer then restored.1.endCompositionVerbatim answers
      else restored.1.clearContext := rfl
  have hnothing (hrestored : restored = (s, false)) :
      escaped = s.endCompositionVerbatim answers ∨
        s.hasEngineBuffer = false ∧ escaped = s.clearContext := by
    rw [hdef, hrestored, if_neg Bool.false_ne_true]
    cases hbuffer : s.hasEngineBuffer with
    | true => exact .inl rfl
    | false => exact .inr ⟨rfl, rfl⟩
  by_cases henabled : settings.escRestoreRaw = true
  · have hrestored : restored =
        if s.hasEngineBuffer then s.commitRawAndEnd answers
        else if s.commitUndoState = .primed ∧ within then s.tryRestoreLastCommitRaw answers within
        else (s, false) := if_neg (by simp [henabled])
    cases hbuffer : s.hasEngineBuffer with
    | true =>
        rw [hbuffer, if_pos rfl] at hrestored
        cases hraw : (s.commitRawAndEnd answers).2 with
        | true => exact .inl ⟨rfl, by rw [hdef, hrestored, if_pos hraw]⟩
        | false =>
            have hsame : s.commitRawAndEnd answers = (s, false) :=
              Prod.ext (commitRawAndEnd_of_false hraw) hraw
            exact .inr (.inl ((hnothing (hrestored.trans hsame)).resolve_right fun h =>
              absurd (hbuffer.symm.trans h.1) Bool.false_ne_true.symm))
    | false =>
        rw [hbuffer, if_neg Bool.false_ne_true] at hrestored
        by_cases hprimed : s.commitUndoState = .primed ∧ within = true
        · rw [if_pos hprimed] at hrestored
          have hkept : (s.tryRestoreLastCommitRaw answers within).1.hasEngineBuffer = false := by
            rw [hasEngineBuffer_eq_false, engine_tryRestoreLastCommitRaw]
            exact hasEngineBuffer_eq_false.mp hbuffer
          refine .inr (.inr (.inl ⟨rfl, henabled, ?_⟩))
          rw [hdef, hrestored, hkept]
          cases (s.tryRestoreLastCommitRaw answers within).2 with
          | true => exact .inl rfl
          | false => exact .inr rfl
        · rw [if_neg hprimed] at hrestored
          exact .inr (.inr (.inr ⟨rfl, by
            rw [hdef, hrestored, if_neg Bool.false_ne_true, hbuffer, if_neg Bool.false_ne_true]⟩))
  · have hrestored : restored = (s, false) := if_pos (by simp [henabled])
    exact .inr ((hnothing hrestored).imp_right .inr)

end Actions

end TextService

end VKey
