import VKey.Hook.Composition

/-!
# Commit-undo

Backspace after a commit deletes the gap and then brings the committed word back into the engine,
where the next key can change it.  `handleCommitUndoFsm` sees every key before the macros and the
engine do.
-/

namespace VKey

namespace HookEngine

namespace State

variable {E : Type} [InputEngine E] [WideCType] (config : Config)

/-! ## Bringing a word back -/

/-- Type the keys of a history. -/
def replayHistory (history : List WChar) (engine : E) : E :=
  history.foldl (fun engine ch =>
    if ch = kBackspaceMarker then InputEngine.backspace engine
    else InputEngine.pushChar engine ch) engine

/-- Pop the last committed word and bring it back into the engine.  False if there is none, or if
the engine cannot show it. -/
def replayCommittedChars (preference : CommittedTextRestorePreference) (s : State E) :
    State E × Bool :=
  match s.commitState.stack with
  | [] => ({ s with commitState := { s.commitState with state := .idle } }, false)
  | entry :: stack =>
      let restored :=
        restoreCommittedText s.engine entry.text (replayHistory entry.history) preference
      let commit := { s.commitState with stack, state := .idle }
      if restored.1 = .failed then
        ({ s with engine := restored.2, commitState := { commit with inputHistory := [] } }, false)
      else
        let history := if restored.1 = .seededVisibleText then entry.text else entry.history
        ({ s with
          engine := restored.2
          previousComposition := entry.text
          previousEncodedWidths := entry.widths
          commitState :=
            { commit with
              inputHistory := history
              leadingTriggersForCurrentWord := entry.extraLeadingTriggers } }, true)

/-- Delete units and insert others through the synchronous channel, if there is one, and let the key
do it otherwise. -/
def passOrReplace (key : Key) (n : Nat) (units : List WChar) (s : State E) : State E × KeyOutcome :=
  if key.syncChannel then ({ s with host := s.host.replace n units }, .eat) else (s, .pass)

/-! ## A key right behind the committed word -/

/-- What the key does to the committed word. -/
inductive PrimedAction where
  | replayAlpha
  | replayDigit
  | replayBackspace
  | dropTop
  | exempt
  | trigger (action : PrimedTriggerAction)
  deriving DecidableEq, Repr

/-- The user's key map has the key change the word before the caret. -/
def isCustomModifier (key : Key) : Bool :=
  config.typing.inputMethod == .userDefined && key.macroChar != 0 && decide (key.macroChar < 128) &&
    isCommitUndoExemptAction (config.typing.customKeyMap key.macroChar)

/-- The key is for the word before the caret. -/
def isCommitUndoExempt (key : Key) : Bool :=
  isCommitUndoExemptKey key.vkCode config.typing.inputMethod key.shift
    (config.cancelComposition vkEscape 0) (isCustomModifier config key)

/-- The key is a letter that goes on with the committed word. -/
def isValidCommittedContinuation (key : Key) (s : State E) : Bool :=
  !isCommitUndoExempt config key && isAlphaVk key.vkCode &&
    match s.commitState.stack with
    | [] => false
    | top :: _ => InputEngine.shouldReplayCommittedKey s.engine top.rawInput key.originalCh

/-- Decide what the key does to the committed word. -/
def primedAction (key : Key) (s : State E) : PrimedAction :=
  let method := config.typing.inputMethod
  if isAlphaVk key.vkCode then
    if isCommitUndoExempt config key || s.isValidCommittedContinuation config key then .replayAlpha
    else .dropTop
  else if (method == .vni || method == .combined || method == .userDefined) &&
      isDigitVk key.vkCode && !key.shift then .replayDigit
  else if key.vkCode = vkBack then .replayBackspace
  else if isCommitUndoExempt config key then .exempt
  else
    let isTrigger := isCommitTrigger key.vkCode
    let triggerChar :=
      if key.vkCode = vkSpace then L ' ' else if isTrigger then key.macroChar else 0
    .trigger (decidePrimedTriggerAction isTrigger triggerChar)

/-- Handle a key right behind the committed word. -/
def handlePrimed (key : Key) (s : State E) : State E × KeyOutcome :=
  match s.primedAction config key with
  | .dropTop =>
      ({ s with commitState :=
          { s.commitState with stack := s.commitState.stack.tail, state := .idle } }, .fallthrough)
  | .replayAlpha =>
      let (s, replayed) := s.replayCommittedChars .replayHistory
      if replayed then s.handleAlphaKey config key else (s, .pass)
  | .replayDigit =>
      let (s, replayed) := s.replayCommittedChars .replayHistory
      if !replayed || s.count == 0 then
        ({ s with commitState := { s.commitState with state := .idle } }, .pass)
      else (s.handleVniDigitKey config key, .eat)
  | .replayBackspace =>
      let (s, replayed) := s.replayCommittedChars .visibleText
      if replayed then (s.handleBackspace config, .eat) else (s, .pass)
  | .exempt => (s, .fallthrough)
  | .trigger .cancel => ({ s with commitState := s.commitState.cancel }, .fallthrough)
  | .trigger .reEnterReady =>
      { s with
          commitState :=
            { s.commitState with
              pendingTriggerCount := 0
              gapEndsInGlyph := false
              state := .ready } }
        |>.passOrReplace key 0 [L ' ']
  | .trigger .idle =>
        ({ s with commitState := { s.commitState with state := .idle } }, .fallthrough)

/-! ## A key in the gap -/

/-- Handle a key in the gap behind the committed word. -/
def handleReadyGap (key : Key) (s : State E) : State E :=
  if s.commitState.state ≠ .ready then s
  else if isCaretNavigationKey key.vkCode || key.vkCode == vkDelete then
    { s with commitState := s.commitState.cancel }
  else
    let isTrigger := isCommitTrigger key.vkCode && s.count == 0
    match decideReadyGapKey isTrigger (if isTrigger then key.macroChar else 0)
        s.commitState.pendingTriggerCount s.commitState.gapEndsInGlyph with
    | .trackSpace => { s with commitState := s.commitState.incrementPendingTriggers }
    | .cancel => { s with commitState := s.commitState.cancel }
    | .startWord => { s with commitState := s.commitState.startWord }

/-- Backspace in the gap: it deletes an extra space, or it deletes the trigger and primes the
word. -/
def handleReadyBackspace (key : Key) (s : State E) : State E × KeyOutcome :=
  if 0 < s.commitState.pendingTriggerCount then
    ({ s with
        commitState :=
          { s.commitState with
            pendingTriggerCount := s.commitState.pendingTriggerCount - 1 } }, .pass)
  else
    { s.clearMacroBuffer with commitState := { s.commitState with state := .primed } }
      |>.passOrReplace key 1 []

/-! ## The state machine -/

/-- Remember the punctuation that opens a word. -/
def noteGlyphs (key : Key) (s : State E) : State E :=
  let c := s.commitState
  { s with commitState :=
      { c with
        wordOpenGlyph := if isAlphaVk key.vkCode && s.count ==
          0 then c.prevKeyGlyph else c.wordOpenGlyph
        prevKeyGlyph :=
          if vkOem1 ≤ key.vkCode ∧ isCommitTrigger key.vkCode then key.macroChar else 0 } }

/-- The undo window does not survive a shortcut, Enter or its time. -/
def isUndoStale (key : Key) (s : State E) : Bool :=
  (s.commitState.state != .idle && key.shortcut) ||
    (key.vkCode == vkReturn &&
      (s.commitState.state != .idle || !s.commitState.stack.isEmpty)) ||
    (s.commitState.state == .ready && key.commitUndoExpired)

/-- Drop an undo window that must not be used any more. -/
def cancelStale (key : Key) (s : State E) : State E :=
  if s.isUndoStale key then { s with commitState := s.commitState.cancel } else s

/-- The state in which the state machine decides about the key. -/
def beforeFsm (key : Key) (s : State E) : State E := (s.noteGlyphs key).cancelStale key

/-- The commit-undo state machine. -/
def handleCommitUndoFsm (key : Key) (s : State E) : State E × KeyOutcome :=
  let s := s.beforeFsm key
  if s.commitState.state = .ready ∧ key.vkCode = vkBack ∧ s.count = 0 then
    s.handleReadyBackspace key
  else if s.commitState.state = .primed ∧ s.count = 0 then
    let (s, outcome) := s.handlePrimed config key
    (if outcome = .fallthrough then s.handleReadyGap key else s, outcome)
  else (s.handleReadyGap key, .fallthrough)

end State

end HookEngine

end VKey
