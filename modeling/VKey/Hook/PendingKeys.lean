import VKey.Hook.CleanShadow
import VKey.Hook.SynthEvents

/-!
# Keys that arrive before the synthetic events have come back

While something is pending the hook eats a key, and sends it again behind what is pending, or it
lets the key slip through.  The keys that slip through are those of a few returns of the key path
that do not ask for the count.
-/

namespace VKey

namespace HookEngine

namespace SynthState

variable {E : Type} [InputEngine E] [WideCType] {config : DispatchConfig} {d d' d'' : SynthState E}
  {key : KeyDown}

/-! ## Returns that do not ask -/

variable (config d key) in
/-- The key ends the dispatch: no word, and no key that the engine takes. -/
def slipsByKind : Bool :=
  !isAlphaVk key.vkCode && (State.telexBracket config.toConfig key.toKey).isNone
    && d.hook.count == 0 &&
    (State.boundOemKey config.toConfig key.toKey true).isNone && key.vkCode != vkBack

variable (config d key) in
/-- The engine is off for a while, or the word begins with a digit, or the key ends the dispatch. -/
def slipsDispatch : Bool :=
  d.tempEngineOff ||
    match d.digitLed config key with
    | .arm => true
    | .bypass => true
    | .reset => true
    | .resetAndContinue => d.slipsByKind config key
    | .continue => d.slipsByKind config key

variable (config d key) in
/-- The key neither restores raw keys nor switches the engine, and slips through the dispatch. -/
def slipsLate : Bool :=
  !(d.tryEscRestore config key).2 && !config.toggleEnabled key.vkCode key.toKey.currentMods &&
    (d.tryEscRestore config key).1.slipsDispatch config key

variable (config d key) in
/-- A committed word is to be brought back for the key, and cannot be. -/
def losesReplay : Bool :=
  match d.hook.primedAction config.toConfig key.toKey with
  | .replayAlpha => !(d.hook.replayCommittedChars .replayHistory).2
  | .replayDigit =>
      !(d.hook.replayCommittedChars .replayHistory).2 ||
        (d.hook.replayCommittedChars .replayHistory).1.count == 0
  | .replayBackspace => !(d.hook.replayCommittedChars .visibleText).2
  | _ => false

variable (config d key) in
/-- The key slips through commit-undo: it deletes an extra space of the gap, or a word does not come
back. -/
def slipsUndo : Bool :=
  let d := { d with hook := d.hook.beforeFsm key.toKey }
  if d.hook.commitState.state = .ready ∧ key.vkCode = vkBack ∧ d.hook.count = 0 then
    decide (0 < d.hook.commitState.pendingTriggerCount)
  else if d.hook.commitState.state = .primed ∧ d.hook.count = 0 then
    !d.guardsReplay config key && d.losesReplay config key
  else false

variable (config d key) in
/-- The key reaches the host whatever is pending. -/
def slips : Bool :=
  let d := { d with hook := d.hook.beforeStages config.toConfig key.toKey }
  let undoStage := d.handleCommitUndoFsm config key
  if undoStage.2 = .fallthrough then undoStage.1.slipsLate config key else d.slipsUndo config key

/-! ## The counter -/

/-- Events have been sent, and all of them are counted. -/
def Counted (d d' : SynthState E) : Prop :=
  ∃ n, d'.synthEventsPending = d.synthEventsPending + n ∧ d'.sent = d.sent + n

namespace Counted

omit [InputEngine E] [WideCType] in
theorem of_eq (hpending : d'.synthEventsPending = d.synthEventsPending) (hsent : d'.sent = d.sent) :
    Counted d d' :=
  ⟨0, hpending, hsent⟩

omit [InputEngine E] [WideCType] in
theorem trans (h : Counted d d') (h' : Counted d' d'') : Counted d d'' := by
  obtain ⟨n, hpending, hsent⟩ := h
  obtain ⟨n', hpending', hsent'⟩ := h'
  exact ⟨n + n', by omega, by omega⟩

omit [InputEngine E] [WideCType] in
theorem pending_pos (h : Counted d d') (hpending : 0 < d.synthEventsPending) :
    0 < d'.synthEventsPending := by
  obtain ⟨n, hn, -⟩ := h
  omega

omit [InputEngine E] [WideCType] in
theorem send (n : Nat) (d : SynthState E) : Counted d (d.send n) := ⟨n, rfl, rfl⟩

omit [InputEngine E] in
theorem injectKey (key : KeyDown) (d : SynthState E) : Counted d (d.injectKey key) := ⟨2, rfl, rfl⟩

omit [InputEngine E] [WideCType] in
theorem replaceComposition (newText : List WChar) (reinject : Option WChar) :
    Counted d (d.replaceComposition config key newText reinject) :=
  ⟨_, rfl, rfl⟩

theorem handleAlphaKey : Counted d (d.handleAlphaKey config key).1 := by
  unfold SynthState.handleAlphaKey
  dsimp only
  split_ifs
  · exact of_eq rfl rfl
  · exact replaceComposition _ _
  · exact replaceComposition _ _

omit [WideCType] in
theorem handleVniDigitKey : Counted d (d.handleVniDigitKey config key) := replaceComposition _ _

omit [WideCType] in
theorem pushPunctuation (pushed : WChar × Option Bool) :
    Counted d (d.pushPunctuation config key pushed) :=
  replaceComposition _ _

omit [WideCType] in
theorem handleBackspace : Counted d (d.handleBackspace config key) := by
  unfold SynthState.handleBackspace
  dsimp only
  split_ifs
  · exact replaceComposition _ _
  · exact send _ _

omit [WideCType] in
theorem commitComposition (verbatim : Bool) :
    Counted d (d.commitComposition config key verbatim).1 := send _ _

omit [WideCType] in
theorem tryEscRestore : Counted d (d.tryEscRestore config key).1 := by
  unfold SynthState.tryEscRestore SynthState.tryEscRestoreRaw
  dsimp only
  split_ifs
  · exact of_eq rfl rfl
  · exact send _ _
  · exact of_eq rfl rfl
  · exact of_eq rfl rfl

omit [InputEngine E] in
theorem sendTrigger (restored : Bool) : Counted d (d.sendTrigger key restored).1 := by
  unfold SynthState.sendTrigger
  split_ifs
  · exact injectKey key d
  · exact of_eq rfl rfl

theorem passKey : Counted d (d.passKey key).1 := by
  unfold SynthState.passKey
  dsimp only
  split_ifs
  · exact injectKey key _
  · exact of_eq rfl rfl

theorem handleCommitTrigger [AsciiCType] : Counted d (d.handleCommitTrigger config key).1 :=
  (commitComposition _).trans
    (sendTrigger (d := { (d.commitComposition config key _).1 with hook := _ }) _)

theorem handleOtherKey : Counted d (d.handleOtherKey config key).1 := by
  unfold SynthState.handleOtherKey
  dsimp only
  split_ifs
  · exact (commitComposition _).trans (injectKey key _)
  · exact (commitComposition _).trans passKey
  · exact passKey

theorem dispatchByKind [AsciiCType] (hescape : key.vkCode ≠ vkEscape) :
    Counted d (d.dispatchByKind config key).1 := by
  unfold SynthState.dispatchByKind
  refine iteInduction (motive := fun r : SynthState E × KeyOutcome => Counted d r.1)
    (fun _ => handleAlphaKey) fun _ => ?_
  cases State.telexBracket config.toConfig key.toKey with
  | some pushed => exact pushPunctuation pushed
  | none =>
      refine iteInduction (motive := fun r : SynthState E × KeyOutcome => Counted d r.1)
        (fun _ => handleVniDigitKey) fun _ => ?_
      cases State.boundOemKey config.toConfig key.toKey (d.hook.count == 0) with
      | some pushed => exact pushPunctuation pushed
      | none =>
          dsimp only
          rw [if_neg hescape]
          split_ifs
          · exact handleBackspace
          · exact handleCommitTrigger
          · exact handleOtherKey

omit [WideCType] in
theorem bypassTempOff : Counted d (d.bypassTempOff key) := by
  unfold SynthState.bypassTempOff
  dsimp only
  split_ifs
  · exact of_eq rfl rfl
  · exact of_eq rfl rfl

theorem dispatchKeyAction [AsciiCType] (hescape : key.vkCode ≠ vkEscape)
    (hshortcut : key.shortcut = false) : Counted d (d.dispatchKeyAction config key).1 := by
  unfold SynthState.dispatchKeyAction
  rw [hshortcut, if_neg Bool.false_ne_true]
  refine iteInduction (motive := fun r : SynthState E × KeyOutcome => Counted d r.1)
    (fun _ => bypassTempOff) fun _ => ?_
  have hlatch : ∀ armed, Counted d (d.setDigitLed armed) := fun _ => of_eq rfl rfl
  cases d.digitLed config key with
  | arm => exact hlatch true
  | bypass => exact of_eq rfl rfl
  | reset => exact hlatch false
  | resetAndContinue => exact (hlatch false).trans (dispatchByKind hescape)
  | «continue» => exact dispatchByKind hescape

omit [WideCType] in
theorem handlePreDispatch : Counted d (d.handlePreDispatch config key).1 := by
  unfold SynthState.handlePreDispatch
  dsimp only
  split_ifs
  · exact (commitComposition true).trans (of_eq rfl rfl)
  · exact of_eq rfl rfl
  · exact of_eq rfl rfl

theorem handlePrimed : Counted d (d.handlePrimed config key).1 := by
  unfold SynthState.handlePrimed
  refine iteInduction (motive := fun r : SynthState E × KeyOutcome => Counted d r.1)
    (fun _ => of_eq rfl rfl) fun _ => ?_
  have hhook : ∀ s : State E, Counted d { d with hook := s } := fun _ => of_eq rfl rfl
  cases d.hook.primedAction config.toConfig key.toKey with
  | replayAlpha =>
      dsimp only
      split_ifs
      · exact (hhook _).trans handleAlphaKey
      · exact hhook _
  | replayDigit =>
      dsimp only
      split_ifs
      · exact hhook _
      · exact (hhook _).trans handleVniDigitKey
  | replayBackspace =>
      dsimp only
      split_ifs
      · exact (hhook _).trans handleBackspace
      · exact hhook _
  | dropTop => exact hhook _
  | exempt => exact of_eq rfl rfl
  | trigger action =>
      cases action with
      | cancel => exact hhook _
      | idle => exact hhook _
      | reEnterReady =>
          dsimp only
          split_ifs
          · exact (hhook _).trans (injectKey key _)
          · exact hhook _

omit [InputEngine E] in
theorem handleReadyBackspace : Counted d (d.handleReadyBackspace key).1 := by
  unfold SynthState.handleReadyBackspace
  dsimp only
  split_ifs
  · exact of_eq rfl rfl
  · exact (of_eq rfl rfl : Counted d { d with hook := _ }).trans (injectKey key _)
  · exact of_eq rfl rfl

theorem handleCommitUndoFsm : Counted d (d.handleCommitUndoFsm config key).1 := by
  unfold SynthState.handleCommitUndoFsm
  have hbefore : Counted d { d with hook := d.hook.beforeFsm key.toKey } := of_eq rfl rfl
  dsimp only
  split_ifs
  · exact hbefore.trans handleReadyBackspace
  · exact (hbefore.trans handlePrimed).trans (of_eq rfl rfl)
  · exact hbefore.trans handlePrimed
  · exact of_eq rfl rfl

theorem lateStages [AsciiCType] (hescape : key.vkCode ≠ vkEscape)
    (hshortcut : key.shortcut = false) :
    Counted d (d.lateStages config key).1 := by
  unfold SynthState.lateStages
  dsimp only
  split_ifs
  · exact tryEscRestore
  · exact tryEscRestore.trans handlePreDispatch
  · exact (tryEscRestore.trans handlePreDispatch).trans (dispatchKeyAction hescape hshortcut)

theorem processKeyDown [AsciiCType] (hescape : key.vkCode ≠ vkEscape)
    (hshortcut : key.shortcut = false) : Counted d (d.processKeyDown config key).1 := by
  unfold SynthState.processKeyDown
  have hbefore : Counted d { d with hook := d.hook.beforeStages config.toConfig key.toKey } :=
    of_eq rfl rfl
  dsimp only
  split_ifs
  · exact hbefore
  · exact hbefore.trans handleCommitUndoFsm
  · exact (hbefore.trans handleCommitUndoFsm).trans (lateStages hescape hshortcut)

end Counted

/-! ## While something is pending -/

section Pending

/-- A letter key is not passed through. -/
theorem handleAlphaKey_eat (hpending : 0 < d.synthEventsPending) :
    (d.handleAlphaKey config key).2 = .eat := by
  have hzero : (d.synthEventsPending == 0) = false := by simpa using Nat.pos_iff_ne_zero.mp hpending
  unfold handleAlphaKey
  dsimp only
  rw [hzero, Bool.and_false, Bool.false_and, if_neg Bool.false_ne_true]
  split_ifs
  · rfl
  · rfl

/-- A trigger is sent again behind a word. -/
theorem handleCommitTrigger_eat [AsciiCType] (hpending : 0 < d.synthEventsPending) :
    (d.handleCommitTrigger config key).2 = .eat := by
  have hcommitted : 0 < (d.commitComposition config key
      (isVerbatimCommitTrigger key.macroChar)).1.synthEventsPending :=
    (Counted.commitComposition _).pending_pos hpending
  unfold handleCommitTrigger sendTrigger
  rw [if_pos (by simpa using Or.inr hcommitted)]

/-- The end of the dispatch keeps a Backspace back, and no other key. -/
theorem passKey_ne_eat_iff (hpending : 0 < d.synthEventsPending) :
    (d.passKey key).2 ≠ .eat ↔ key.vkCode ≠ vkBack := by
  unfold passKey
  dsimp only
  split_ifs with hback
  · exact iff_of_false (not_not_intro rfl) (not_not_intro hback.1)
  · exact iff_of_true (by simp) fun h => hback ⟨h, hpending⟩

theorem handleOtherKey_ne_eat_iff (hpending : 0 < d.synthEventsPending) :
    (d.handleOtherKey config key).2 ≠ .eat ↔ d.hook.count = 0 ∧ key.vkCode ≠ vkBack := by
  unfold handleOtherKey
  dsimp only
  split_ifs with hcount hrestored
  · exact iff_of_false (not_not_intro rfl) fun h => hcount.ne' h.1
  · have hcommitted : 0 < (d.commitComposition config key false).1.synthEventsPending :=
      (Counted.commitComposition _).pending_pos hpending
    exact absurd (by simpa using Or.inr hcommitted) hrestored
  · rw [passKey_ne_eat_iff hpending, and_iff_right (Nat.eq_zero_of_not_pos hcount)]

theorem dispatchByKind_ne_eat_iff [AsciiCType] (hescape : key.vkCode ≠ vkEscape)
    (hpending : 0 < d.synthEventsPending) :
    (d.dispatchByKind config key).2 ≠ .eat ↔ d.slipsByKind config key = true := by
  unfold dispatchByKind slipsByKind
  by_cases halpha : isAlphaVk key.vkCode = true
  · rw [if_pos halpha, handleAlphaKey_eat hpending]
    simp [halpha]
  rw [if_neg halpha]
  cases hbracket : State.telexBracket config.toConfig key.toKey with
  | some pushed => simp
  | none =>
      by_cases hzero : d.hook.count = 0
      · have hempty : (d.hook.count == 0) = true := by simpa using hzero
        dsimp only
        rw [if_neg (fun h => h.2.2.1.ne' hzero), hempty]
        cases hbound : State.boundOemKey config.toConfig key.toKey true with
        | some pushed => simp
        | none =>
            dsimp only
            rw [if_neg (fun h => h.2.ne' hzero), if_neg hescape, if_neg (fun h => h.2.ne' hzero),
              handleOtherKey_ne_eat_iff hpending]
            simp [halpha, hzero]
      · have hword : (d.hook.count == 0) = false := by simpa using hzero
        rw [hword, Bool.and_false, Bool.false_and, Bool.false_and]
        refine iff_of_false ?_ Bool.false_ne_true
        refine iteInduction (motive := fun r : SynthState E × KeyOutcome => ¬r.2 ≠ .eat)
          (fun _ => not_not_intro rfl) fun _ => ?_
        cases State.boundOemKey config.toConfig key.toKey false with
        | some pushed => simp
        | none =>
            dsimp only
            rw [if_neg hescape]
            split_ifs
            · simp
            · simp [handleCommitTrigger_eat hpending]
            · rw [handleOtherKey_ne_eat_iff hpending]
              exact fun h => hzero h.1

theorem dispatchKeyAction_ne_eat_iff [AsciiCType] (hescape : key.vkCode ≠ vkEscape)
    (hshortcut : key.shortcut = false) (hpending : 0 < d.synthEventsPending) :
    (d.dispatchKeyAction config key).2 ≠ .eat ↔ d.slipsDispatch config key = true := by
  unfold dispatchKeyAction slipsDispatch
  rw [hshortcut, if_neg Bool.false_ne_true]
  cases htemp : d.tempEngineOff with
  | true => simp
  | false =>
      rw [if_neg Bool.false_ne_true, Bool.false_or]
      cases d.digitLed config key with
      | arm => simp
      | bypass => simp
      | reset => simp
      | resetAndContinue =>
          exact dispatchByKind_ne_eat_iff (d := d.setDigitLed false) hescape hpending
      | «continue» => exact dispatchByKind_ne_eat_iff hescape hpending

theorem lateStages_ne_eat_iff [AsciiCType] (hescape : key.vkCode ≠ vkEscape)
    (hshortcut : key.shortcut = false) (hpending : 0 < d.synthEventsPending) :
    (d.lateStages config key).2 ≠ .eat ↔ d.slipsLate config key = true := by
  have hrestored : 0 < (d.tryEscRestore config key).1.synthEventsPending :=
    Counted.tryEscRestore.pending_pos hpending
  unfold lateStages slipsLate handlePreDispatch
  dsimp only
  cases (d.tryEscRestore config key).2 with
  | true => simp
  | false =>
      cases config.toggleEnabled key.vkCode key.toKey.currentMods with
      | true => simp
      | false => simpa using dispatchKeyAction_ne_eat_iff hescape hshortcut hrestored

/-- Right behind a committed word a key passes only if the word was to come back and does not. -/
theorem handlePrimed_pass_iff (hpending : 0 < d.synthEventsPending) :
    (d.handlePrimed config key).2 = .pass ↔
      (!d.guardsReplay config key && d.losesReplay config key) = true := by
  unfold handlePrimed losesReplay
  cases d.guardsReplay config key with
  | true => simp
  | false =>
      rw [if_neg Bool.false_ne_true, Bool.not_false, Bool.true_and]
      cases d.hook.primedAction config.toConfig key.toKey with
      | replayAlpha =>
          dsimp only
          cases (d.hook.replayCommittedChars .replayHistory).2 with
          | true =>
              have heat : (handleAlphaKey config key
                  { d with hook := (d.hook.replayCommittedChars .replayHistory).1 }).2 = .eat :=
                handleAlphaKey_eat hpending
              simp [heat]
          | false => simp
      | replayDigit =>
          dsimp only
          split_ifs with hfailed
          · exact iff_of_true rfl hfailed
          · exact iff_of_false (by decide) hfailed
      | replayBackspace =>
          dsimp only
          cases (d.hook.replayCommittedChars .visibleText).2 with
          | true => simp
          | false => simp
      | dropTop => simp
      | exempt => simp
      | trigger action =>
          cases action with
          | cancel => simp
          | idle => simp
          | reEnterReady => simp [hpending]

omit [InputEngine E] in
/-- In the gap a Backspace passes only if it deletes an extra space. -/
theorem handleReadyBackspace_pass_iff (hpending : 0 < d.synthEventsPending) :
    (d.handleReadyBackspace key).2 = .pass ↔ 0 < d.hook.commitState.pendingTriggerCount := by
  unfold handleReadyBackspace
  dsimp only
  rw [if_pos hpending]
  split_ifs with hextra
  · exact iff_of_true rfl hextra
  · exact iff_of_false (by decide) hextra

theorem handleCommitUndoFsm_pass_iff (hpending : 0 < d.synthEventsPending) :
    (d.handleCommitUndoFsm config key).2 = .pass ↔ d.slipsUndo config key = true := by
  unfold handleCommitUndoFsm slipsUndo
  dsimp only
  set before : SynthState E := { d with hook := d.hook.beforeFsm key.toKey } with hbefore
  have hcounter : 0 < before.synthEventsPending := hpending
  by_cases hready :
    before.hook.commitState.state = .ready ∧ key.vkCode = vkBack ∧ before.hook.count = 0
  · rw [if_pos hready, if_pos hready, handleReadyBackspace_pass_iff hcounter, decide_eq_true_eq]
  rw [if_neg hready, if_neg hready]
  by_cases hprimed : before.hook.commitState.state = .primed ∧ before.hook.count = 0
  · rw [if_pos hprimed, if_pos hprimed]
    exact handlePrimed_pass_iff hcounter
  · rw [if_neg hprimed, if_neg hprimed]
    simp

/-- A key that arrives while something is pending passes exactly if it slips through. -/
theorem processKeyDown_ne_eat_iff [AsciiCType] (hguarded : isTopGuarded key.vkCode = false)
    (hescape : key.vkCode ≠ vkEscape) (hshortcut : key.shortcut = false)
    (hpending : 0 < d.synthEventsPending) :
    (d.processKeyDown config key).2 ≠ .eat ↔ d.slips config key = true := by
  unfold processKeyDown slips
  dsimp only
  rw [hguarded, if_neg Bool.false_ne_true]
  set before : SynthState E := { d with hook := d.hook.beforeStages config.toConfig key.toKey }
  have hcounter : 0 < before.synthEventsPending := hpending
  have hundo : 0 < (before.handleCommitUndoFsm config key).1.synthEventsPending :=
    Counted.handleCommitUndoFsm.pending_pos hcounter
  by_cases hthrough : (before.handleCommitUndoFsm config key).2 = .fallthrough
  · rw [if_neg (not_not_intro hthrough), if_pos hthrough]
    exact lateStages_ne_eat_iff hescape hshortcut hundo
  · rw [if_pos hthrough, if_neg hthrough, ← handleCommitUndoFsm_pass_iff hcounter]
    cases houtcome : (before.handleCommitUndoFsm config key).2 with
    | «fallthrough» => exact absurd houtcome hthrough
    | eat => simp
    | pass => simp

end Pending

end SynthState

end HookEngine

end VKey
