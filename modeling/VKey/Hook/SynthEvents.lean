import VKey.Hook.KeyPath

/-!
# Synthetic events

What the hook sends goes behind the events that are already in the input queue, and comes back to
the hook before it reaches the application.  The hook counts the events that have not come back yet,
and most of the key path asks for the count before it lets a key pass.  Macros are off, and the
injector is the one for plain windows.  The functions do to the hook what those of the key path do;
the host of the hook is not read here.
-/

namespace VKey

namespace HookEngine

/-! ## The injector -/

/-- The most events of one batch. -/
def kMaxBatch : Nat := 256

/-- A key that goes down, with what its handling reads of the injector and of the modifiers. -/
structure KeyDown extends Key where
  /-- The last replacement was sent less than the settle budget ago. -/
  recentSynth : Bool := false
  /-- The Shift keys that a replacement releases and holds again. -/
  heldModifiers : Nat := 0

/-- The batch of a replacement: a key that leads it, the modifiers around it if it deletes anything,
and each Backspace and each unit pressed and released. -/
def KeyDown.batch (key : KeyDown) (reinject bsCount units : Nat) : Nat :=
  reinject + (if 0 < bsCount then 2 * key.heldModifiers else 0) + 2 * bsCount + 2 * units

/-- The events that a replacement sends: a batch that is too long is not sent at all. -/
def KeyDown.sent (key : KeyDown) (reinject bsCount units : Nat) : Nat :=
  if key.batch reinject bsCount units ≤ kMaxBatch then key.batch reinject bsCount units else 0

/-- The configuration, with the keys that switch the engine off for a while. -/
structure DispatchConfig extends Config where
  toggleEnabled : Nat → Nat → Bool := fun _ _ => false

/-- The hook with its counter, and whether the engine is off for a while. -/
structure SynthState (E : Type) where
  hook : State E
  /-- The events that have not come back yet. -/
  synthEventsPending : Nat := 0
  /-- All the events that have been sent.  Only the statements about the queue read this field. -/
  sent : Nat := 0
  tempEngineOff : Bool := false

namespace State

variable {E : Type} [InputEngine E] [WideCType] (config : Config)

/-- The events of `replaceComposition`. -/
def replaceEvents (key : KeyDown) (newText : List WChar) (reinject : Bool) (s : State E) : Nat :=
  let commonLen := commonLength s.previousComposition newText
  let added := newText.drop commonLen
  if config.currentCodeTable ≠ .unicode then
    key.sent 0 (s.previousEncodedWidths.drop commonLen).sum
      (added.flatMap fun ch =>
        (CodeTableConverter.convertChar ch config.currentCodeTable).units).length
  else key.sent (if reinject then 1 else 0) (s.previousComposition.length - commonLen) added.length

/-- The events of `erasePrevious`. -/
def eraseEvents (key : KeyDown) (s : State E) : Nat :=
  if s.previousComposition.isEmpty then 0
  else if config.currentCodeTable ≠ .unicode then key.sent 0 s.previousEncodedWidths.sum 0
  else key.sent 0 s.previousComposition.length 0

/-- The batch that puts the raw keys in place of the word, or of the word right before the caret. -/
def restoreBatch (key : KeyDown) (s : State E) : Nat :=
  if 0 < s.count then key.batch 0 s.count (InputEngine.peekRaw s.engine).length
  else
    match s.commitState.stack with
    | [] => 0
    | top :: _ =>
        key.batch 0 (if config.currentCodeTable ≠ .unicode then top.widths.sum else top.text.length)
          top.rawInput.length

end State

namespace SynthState

variable {E : Type} [InputEngine E] [WideCType] (config : DispatchConfig)

/-- Events go to the end of the queue. -/
def send (n : Nat) (d : SynthState E) : SynthState E :=
  { d with synthEventsPending := d.synthEventsPending + n, sent := d.sent + n }

/-- The key again, behind everything that has been sent. -/
def injectKey (key : KeyDown) (d : SynthState E) : SynthState E :=
  { d with hook := d.hook.injectKey key.toKey }.send 2

/-- Replace the composition on screen. -/
def replaceComposition (key : KeyDown) (newText : List WChar) (reinject : Option WChar)
    (d : SynthState E) : SynthState E :=
  { d with hook := d.hook.replaceComposition config.toConfig newText reinject }.send
    (d.hook.replaceEvents config.toConfig key newText reinject.isSome)

/-! ## Keys of the word -/

/-- A letter key: it is passed through only if nothing is pending. -/
def handleAlphaKey (key : KeyDown) (d : SynthState E) : SynthState E × KeyOutcome :=
  let autoCapped := d.hook.letter key.toKey != key.originalCh
  let d := { d with hook := d.hook.pushLetter key.toKey }
  let composition := InputEngine.peek d.hook.engine
  let isSimpleAppend := d.hook.isSimpleAppend key.toKey composition
  if !autoCapped && config.currentCodeTable == .unicode && !key.lockstep && !key.syncChannel &&
      d.synthEventsPending == 0 && isSimpleAppend then
    ({ d with hook := { d.hook with previousComposition := composition } }, .pass)
  else if key.gameReinject && !isSimpleAppend && !autoCapped &&
      config.currentCodeTable == .unicode && !key.syncChannel then
    (replaceComposition config key composition (some key.originalCh)
      { d with
        hook :=
          { d.hook with
            previousComposition := d.hook.previousComposition ++ [key.originalCh] } }, .eat)
  else (d.replaceComposition config key composition none, .eat)

/-- A digit key in the VNI methods. -/
def handleVniDigitKey (key : KeyDown) (d : SynthState E) : SynthState E :=
  let s := d.hook.appendHistory key.vkCode
  let s := { s with engine := InputEngine.pushChar s.engine key.vkCode }
  { d with hook := s }.replaceComposition config key (InputEngine.peek s.engine) none

/-- Give the engine a punctuation key. -/
def pushPunctuation (key : KeyDown) (pushed : WChar × Option Bool) (d : SynthState E) :
    SynthState E :=
  let s := d.hook.appendHistory pushed.1
  let engine :=
    match pushed.2 with
    | some uppercase => InputEngine.pushKey s.engine pushed.1 uppercase
    | none => InputEngine.pushChar s.engine pushed.1
  { d with hook := { s with engine } }.replaceComposition config key (InputEngine.peek engine) none

/-- Backspace in a word. -/
def handleBackspace (key : KeyDown) (d : SynthState E) : SynthState E :=
  let s := d.hook.backspaced
  if 0 < s.count then
    { d with hook := s }.replaceComposition config key (InputEngine.peek s.engine) none
  else { d with hook := s.showShortened config.toConfig }.send (s.eraseEvents config.toConfig key)

/-! ## The end of a word -/

/-- Commit the word.  True if the text on screen has been replaced. -/
def commitComposition (key : KeyDown) (verbatim : Bool) (d : SynthState E) : SynthState E × Bool :=
  let committed := d.hook.commitComposition config.toConfig verbatim
  let n :=
    if committed.2 then
      d.hook.replaceEvents config.toConfig key (d.hook.committedText verbatim) false
    else 0
  ({ d with hook := committed.1 }.send n, committed.2)

/-- Put the raw keys in place of the word, unless they do not fit into a batch. -/
def tryEscRestoreRaw (key : KeyDown) (d : SynthState E) : SynthState E × Bool :=
  let restored := d.hook.tryEscRestoreRaw config.toConfig key.toKey
  let batch := d.hook.restoreBatch config.toConfig key
  if !restored.2 then ({ d with hook := restored.1 }, false)
  else if batch ≤ kMaxBatch then ({ d with hook := restored.1 }.send batch, true)
  else (d, false)

/-- The restore stage of the key path; true if it has consumed the key. -/
def tryEscRestore (key : KeyDown) (d : SynthState E) : SynthState E × Bool :=
  if State.cancelsComposition config.toConfig key.toKey &&
      (decide (0 < d.hook.count) || d.hook.hasPrimedCommit) then
    d.tryEscRestoreRaw config key
  else (d, false)

/-- Send the trigger to the host: again if anything is in front of it, or as it is. -/
def sendTrigger (key : KeyDown) (restored : Bool) (d : SynthState E) : SynthState E × KeyOutcome :=
  if restored || decide (0 < d.synthEventsPending) then (d.injectKey key, .eat) else (d, .pass)

/-- A trigger behind a word: the word is committed. -/
def handleCommitTrigger [AsciiCType] (key : KeyDown) (d : SynthState E) :
    SynthState E × KeyOutcome :=
  let verbatim := isVerbatimCommitTrigger key.macroChar
  let committed := d.commitComposition config key verbatim
  { committed.1 with hook := d.hook.committedBy config.toConfig key.toKey }.sendTrigger
    key committed.2

/-- The end of the dispatch: a Backspace does not pass the pending events. -/
def passKey (key : KeyDown) (d : SynthState E) : SynthState E × KeyOutcome :=
  let d := { d with hook := d.hook.clearNavigatedContext key.toKey }
  if key.vkCode = vkBack ∧ 0 < d.synthEventsPending then (d.injectKey key, .eat) else (d, .pass)

/-- Any other key behind a word. -/
def handleOtherKey (key : KeyDown) (d : SynthState E) : SynthState E × KeyOutcome :=
  if 0 < d.hook.count then
    let (d, restored) := d.commitComposition config key false
    if restored || decide (0 < d.synthEventsPending) then (d.injectKey key, .eat) else d.passKey key
  else d.passKey key

/-- Escape finalizes the word.  A reset forgets the pending events, so they are looked at first. -/
def handleEscape (key : KeyDown) (d : SynthState E) : SynthState E × KeyOutcome :=
  let pending := d.synthEventsPending
  let d :=
    if 0 < d.hook.count then { d with hook := d.hook.resetComposition, synthEventsPending := 0 }
    else { d with hook := { d.hook with engine := InputEngine.clearContext d.hook.engine } }
  if 0 < pending then (d.injectKey key, .eat) else (d, .pass)

/-! ## Dispatch -/

/-- The dispatch by the kind of the key. -/
def dispatchByKind [AsciiCType] (key : KeyDown) (d : SynthState E) : SynthState E × KeyOutcome :=
  if isAlphaVk key.vkCode then d.handleAlphaKey config key
  else
    match State.telexBracket config.toConfig key.toKey with
    | some pushed => (d.pushPunctuation config key pushed, .eat)
    | none =>
        let method := config.typing.inputMethod
        if (method = .vni ∨ method = .combined ∨ method = .userDefined) ∧ isDigitVk key.vkCode ∧
            0 < d.hook.count ∧ key.shift = false then
          (d.handleVniDigitKey config key, .eat)
        else
          match State.boundOemKey config.toConfig key.toKey (d.hook.count == 0) with
          | some pushed => (d.pushPunctuation config key pushed, .eat)
          | none =>
              if key.vkCode = vkBack ∧ 0 < d.hook.count then (d.handleBackspace config key, .eat)
              else if key.vkCode = vkEscape then d.handleEscape key
              else if isCommitTrigger key.vkCode ∧ 0 < d.hook.count then
                d.handleCommitTrigger config key
              else d.handleOtherKey config key

/-- The key passes while the engine is off; the end of the word switches it on again. -/
def bypassTempOff (key : KeyDown) (d : SynthState E) : SynthState E :=
  let s := d.hook.clearNavigatedContext key.toKey
  if isCommitTrigger key.vkCode || (key.vkCode == vkBack && d.hook.count == 0) then
    { d with tempEngineOff := false, hook := { s with digitLedWord := false } }
  else { d with hook := s }

/-- What the rule of words that begin with a digit does with the key. -/
def digitLed (key : KeyDown) (d : SynthState E) : DigitLedDecision :=
  decideDigitLed key.vkCode key.shift (d.hook.count == 0)
    config.typing.inputMethod d.hook.digitLedWord

/-- Remember whether the word begins with a digit. -/
def setDigitLed (armed : Bool) (d : SynthState E) : SynthState E :=
  { d with hook := { d.hook with digitLedWord := armed } }

/-- The dispatch of a key that no stage has consumed. -/
def dispatchKeyAction [AsciiCType] (key : KeyDown) (d : SynthState E) : SynthState E × KeyOutcome :=
  if d.tempEngineOff then (d.bypassTempOff key, .pass)
  else if key.shortcut then
    ({ d with hook := d.hook.resetComposition, synthEventsPending := 0 }, .pass)
  else
    match d.digitLed config key with
    | .arm => (d.setDigitLed true, .pass)
    | .bypass => (d, .pass)
    | .reset => (d.setDigitLed false, .pass)
    | .resetAndContinue => (d.setDigitLed false).dispatchByKind config key
    | .continue => d.dispatchByKind config key

/-! ## The stages before the dispatch -/

/-- A toggle key switches the engine off for a while, or on again; true if the key is one. -/
def handlePreDispatch (key : KeyDown) (d : SynthState E) : SynthState E × Bool :=
  if config.toggleEnabled key.vkCode key.toKey.currentMods then
    let d := if 0 < d.hook.count then (d.commitComposition config key true).1 else d
    ({ d with
        tempEngineOff := !d.tempEngineOff
        hook := { d.hook with commitState := d.hook.commitState.cancel } }, true)
  else (d, false)

/-- Events that are on their way keep a committed word from coming back, unless the key goes on with
it. -/
def guardsReplay (key : KeyDown) (d : SynthState E) : Bool :=
  decide (0 < d.synthEventsPending) && key.recentSynth &&
    !(State.isCommitUndoExempt config.toConfig key.toKey ||
      d.hook.isValidCommittedContinuation config.toConfig key.toKey)

/-- Handle a key right behind the committed word. -/
def handlePrimed (key : KeyDown) (d : SynthState E) : SynthState E × KeyOutcome :=
  if d.guardsReplay config key then
    ({ d with hook := { d.hook with commitState := d.hook.commitState.cancel } }, .fallthrough)
  else
    match d.hook.primedAction config.toConfig key.toKey with
    | .replayAlpha =>
        let (s, replayed) := d.hook.replayCommittedChars .replayHistory
        if replayed then { d with hook := s }.handleAlphaKey config key else
          ({ d with hook := s }, .pass)
    | .replayDigit =>
        let (s, replayed) := d.hook.replayCommittedChars .replayHistory
        if !replayed || s.count == 0 then
          ({ d with
              hook := { s with commitState := { s.commitState with state := .idle } } }, .pass)
        else ({ d with hook := s }.handleVniDigitKey config key, .eat)
    | .replayBackspace =>
        let (s, replayed) := d.hook.replayCommittedChars .visibleText
        if replayed then ({ d with hook := s }.handleBackspace config key, .eat)
        else ({ d with hook := s }, .pass)
    | .trigger .reEnterReady =>
        let s := (d.hook.handlePrimed config.toConfig key.toKey).1
        if 0 < d.synthEventsPending then ({ d with hook := s }.injectKey key, .eat)
        else ({ d with hook := s }, .pass)
    | .dropTop =>
          ({ d with hook := (d.hook.handlePrimed config.toConfig key.toKey).1 }, .fallthrough)
    | .exempt => (d, .fallthrough)
    | .trigger .cancel =>
        ({ d with hook := (d.hook.handlePrimed config.toConfig key.toKey).1 }, .fallthrough)
    | .trigger .idle =>
        ({ d with hook := (d.hook.handlePrimed config.toConfig key.toKey).1 }, .fallthrough)

/-- Backspace in the gap: only the one that deletes the trigger waits for the pending events. -/
def handleReadyBackspace (key : KeyDown) (d : SynthState E) : SynthState E × KeyOutcome :=
  let s := (d.hook.handleReadyBackspace key.toKey).1
  if 0 < d.hook.commitState.pendingTriggerCount then ({ d with hook := s }, .pass)
  else if 0 < d.synthEventsPending then ({ d with hook := s }.injectKey key, .eat)
  else ({ d with hook := s }, .pass)

/-- The commit-undo state machine. -/
def handleCommitUndoFsm (key : KeyDown) (d : SynthState E) : SynthState E × KeyOutcome :=
  let d := { d with hook := d.hook.beforeFsm key.toKey }
  if d.hook.commitState.state = .ready ∧ key.vkCode = vkBack ∧ d.hook.count = 0 then
    d.handleReadyBackspace key
  else if d.hook.commitState.state = .primed ∧ d.hook.count = 0 then
    let (d, outcome) := d.handlePrimed config key
    (if outcome =
      .fallthrough then { d with hook := d.hook.handleReadyGap key.toKey } else d, outcome)
  else ({ d with hook := d.hook.handleReadyGap key.toKey }, .fallthrough)

/-! ## The whole path -/

/-- The stages behind commit-undo, and the dispatch. -/
def lateStages [AsciiCType] (key : KeyDown) (d : SynthState E) : SynthState E × KeyOutcome :=
  let restoreStage := d.tryEscRestore config key
  if restoreStage.2 then (restoreStage.1, .eat)
  else
    let preStage := restoreStage.1.handlePreDispatch config key
    if preStage.2 then (preStage.1, .eat) else preStage.1.dispatchKeyAction config key

/-- A key goes down. -/
def processKeyDown [AsciiCType] (key : KeyDown) (d : SynthState E) : SynthState E × KeyOutcome :=
  let d := { d with hook := d.hook.beforeStages config.toConfig key.toKey }
  if isTopGuarded key.vkCode then (d, .pass)
  else
    let undoStage := d.handleCommitUndoFsm config key
    if undoStage.2 ≠ .fallthrough then undoStage else undoStage.1.lateStages config key

end SynthState

end HookEngine

end VKey
