import VKey.Hook.CommitUndo
import VKey.Hook.MacroPath
import VKey.Support.Run

/-!
# The key path

A key goes through commit-undo, the macros and the restore of raw keys, and what none of them
consumes is dispatched by its kind.  A key that nobody eats reaches the host.  The hook is in
Vietnamese mode, and the key is not bound to one of its toggles.
-/

namespace VKey

namespace HookEngine

namespace State

variable {E : Type} [InputEngine E] [WideCType] (config : Config)

/-! ## Restoring the raw keys -/

/-- Put the raw keys in place of the word in the engine, or of the word right before the caret.
True if there is such a word. -/
def tryEscRestoreRaw (key : Key) (s : State E) : State E × Bool :=
  if 0 < s.count then
    let raw := InputEngine.peekRaw s.engine
    if raw.isEmpty then (s, false)
    else
      let s := { s with
        host := s.host.replace s.count raw, engine := InputEngine.reset s.engine }
      ({ s.clearMacroBuffer with tempMacroOff := false }, true)
  else if s.commitState.state ≠ .primed then (s, false)
  else
    match s.commitState.stack with
    | [] => (s, false)
    | top :: _ =>
        if key.commitUndoExpired then ({ s with commitState := s.commitState.cancel }, false)
        else if top.rawInput.isEmpty then (s, false)
        else
          let bsCount :=
            if config.currentCodeTable ≠ .unicode then top.widths.sum else top.text.length
          let s := { s with
            host := s.host.replace bsCount top.rawInput, commitState := s.commitState.cancel }
          ({ s.clearMacroBuffer with tempMacroOff := false }, true)

/-- The key cancels the composition. -/
def cancelsComposition (key : Key) : Bool := config.cancelComposition key.vkCode key.currentMods

/-- A committed word right before the caret has raw keys. -/
def hasPrimedCommit (s : State E) : Bool :=
  s.commitState.state == .primed &&
    match s.commitState.stack with
    | [] => false
    | top :: _ => !top.rawInput.isEmpty

/-- The restore stage of the key path; true if it has consumed the key. -/
def tryEscRestore (key : Key) (s : State E) : State E × Bool :=
  if cancelsComposition config key && (decide (0 < s.count) || s.hasPrimedCommit) then
    s.tryEscRestoreRaw config key
  else (s, false)

/-! ## Keys that the engine takes at the start of a word -/

/-- The key, its case and whether the case is given, for a punctuation key that is bound in the
user's key map. -/
def boundOemKey (key : Key) (engineEmpty : Bool) : Option (WChar × Option Bool) :=
  if config.typing.inputMethod = .userDefined ∧ isOemPunctVk key.vkCode ∧ key.macroChar ≠ 0 ∧
      key.macroChar < 128 then
    let canonical := canonicalBracketKey key.macroChar
    let direct := config.typing.customKeyMap key.macroChar
    let action :=
      if direct = .none ∧ canonical ≠ key.macroChar then config.typing.customKeyMap canonical
      else direct
    if action ≠ .none ∧ (!engineEmpty || isInsertTypeAction action) then
      if (action = .hornInsertO ∨ action = .hornInsertU) ∧
          (key.vkCode = vkOem4 ∨ key.vkCode = vkOem6) then
        let bracket := resolveBracketKey canonical key.shift key.capsLock
        some (bracket.1, some bracket.2)
      else some (key.macroChar, none)
    else none
  else none

/-- The key and its case for a bracket key of Telex. -/
def telexBracket (key : Key) : Option (WChar × Option Bool) :=
  if config.typing.inputMethod = .telex ∧ (key.vkCode = vkOem4 ∨ key.vkCode = vkOem6) then
    let bracket :=
      resolveBracketKey (if key.vkCode = vkOem4 then L '[' else L ']') key.shift key.capsLock
    some (bracket.1, some bracket.2)
  else none

/-- Give the engine a punctuation key. -/
def pushPunctuation (pushed : WChar × Option Bool) (s : State E) : State E :=
  let s := s.appendHistory pushed.1
  let engine :=
    match pushed.2 with
    | some uppercase => InputEngine.pushKey s.engine pushed.1 uppercase
    | none => InputEngine.pushChar s.engine pushed.1
  { s with engine }.replaceComposition config (InputEngine.peek engine) none

/-! ## Keys that end a word -/

/-- The raw keys that a commit carries over: those of a macro key with punctuation or spaces. -/
def savedMacroBuffer [AsciiCType] (key : Key) (s : State E) : List WChar :=
  if macrosOn config && !s.tempMacroOff && !s.rawMacroBuffer.isEmpty then
    if L ' ' < key.macroChar then s.rawMacroBuffer
    else if key.macroChar = L ' ' ∧ s.isSpaceMacroStart config then s.rawMacroBuffer ++ [L ' ']
    else []
  else []

/-- Open or drop the undo window after a commit. -/
def armCommitUndo (key : Key) (c : CommitState) : CommitState :=
  if c.pushedToStack then
    match decideCommitUndoArm key.vkCode with
    | .arm =>
        if c.wordOpenGlyph ≠ 0 ∧ isHostReplacedWord c.wordOpenGlyph key.macroChar then c.cancel
        else { c.setCommitUndoReady with gapEndsInGlyph := key.vkCode != vkSpace }
    | .clear => c.cancel
    | .skip => c
  else c

/-- Forget the context that a navigation key leaves. -/
def clearNavigatedContext (key : Key) (s : State E) : State E :=
  if isCaretNavigationKey key.vkCode then
    { s with engine := InputEngine.clearContext s.engine } else s

/-- The key again, behind everything that has been injected. -/
def injectKey (key : Key) (s : State E) : State E := { s with host := key.press s.host }

/-- Carry the raw keys of a macro over a commit. -/
def carryMacroBuffer (saved : List WChar) (autoCapped : Bool) (s : State E) : State E :=
  if saved.isEmpty then s
  else { s with
    rawMacroBuffer := saved, macroCrossCommit := true, wasFirstCharAutoCapped := autoCapped }

/-- The state behind a word that a trigger has committed. -/
def committedBy [AsciiCType] (key : Key) (s : State E) : State E :=
  let committed := (s.commitComposition config (isVerbatimCommitTrigger key.macroChar)).1
  let carried := (committed.clearNavigatedContext key).carryMacroBuffer
    (s.savedMacroBuffer config key) s.wasFirstCharAutoCapped
  { carried with commitState := armCommitUndo key carried.commitState }

/-- Send the trigger to the host: again, behind a text that has been replaced, through the
synchronous channel, or as it is. -/
def sendTrigger (key : Key) (restored : Bool) (s : State E) : State E × KeyOutcome :=
  if restored then (s.injectKey key, .eat)
  else if L ' ' ≤ key.macroChar then s.passOrReplace key 0 [key.macroChar]
  else (s, .pass)

/-- A trigger behind a word: the word is committed. -/
def handleCommitTrigger [AsciiCType] (key : Key) (s : State E) : State E × KeyOutcome :=
  (s.committedBy config key).sendTrigger key
    (s.isAutoRestored (isVerbatimCommitTrigger key.macroChar))

/-- Any other key behind a word. -/
def handleOtherKey (key : Key) (s : State E) : State E × KeyOutcome :=
  if 0 < s.count then
    let (s, restored) := s.commitComposition config false
    if restored then (s.injectKey key, .eat) else (s.clearNavigatedContext key, .pass)
  else (s.clearNavigatedContext key, .pass)

/-! ## Dispatch -/

/-- The dispatch by the kind of the key. -/
def dispatchByKind [AsciiCType] (key : Key) (s : State E) : State E × KeyOutcome :=
  if isAlphaVk key.vkCode then s.handleAlphaKey config key
  else
    match telexBracket config key with
    | some pushed => (s.pushPunctuation config pushed, .eat)
    | none =>
        let method := config.typing.inputMethod
        if (method = .vni ∨ method = .combined ∨ method = .userDefined) ∧ isDigitVk key.vkCode ∧
            0 < s.count ∧ key.shift = false then
          (s.handleVniDigitKey config key, .eat)
        else
          match boundOemKey config key (s.count == 0) with
          | some pushed => (s.pushPunctuation config pushed, .eat)
          | none =>
              if key.vkCode = vkBack ∧ 0 < s.count then (s.handleBackspace config, .eat)
              else if key.vkCode = vkEscape then
                if 0 < s.count then (s.resetComposition, .pass)
                else ({ s with engine := InputEngine.clearContext s.engine }, .pass)
              else if isCommitTrigger key.vkCode ∧ 0 < s.count then s.handleCommitTrigger config key
              else s.handleOtherKey config key

/-- The dispatch of a key that no stage has consumed. -/
def dispatchKeyAction [AsciiCType] (key : Key) (s : State E) : State E × KeyOutcome :=
  if key.shortcut then (s.resetComposition, .pass)
  else
    match decideDigitLed key.vkCode key.shift (s.count == 0) config.typing.inputMethod
        s.digitLedWord with
    | .arm => ({ s with digitLedWord := true }, .pass)
    | .bypass => (s, .pass)
    | .reset => ({ s with digitLedWord := false }, .pass)
    | .resetAndContinue => { s with digitLedWord := false }.dispatchByKind config key
    | .continue => s.dispatchByKind config key

/-! ## The whole path -/

/-- What a key drops before any stage sees it. -/
def beforeStages (key : Key) (s : State E) : State E :=
  let s :=
    if key.vkCode ≠ vkBack ∨ key.shortcut ∨ !config.macroEnabled ∨ !config.macroUndoOnBackspace ∨
        key.macroUndoExpired then
      { s with macroUndo := none }
    else s
  if isReplayContextBoundary key.vkCode then
    { s with commitState := s.commitState.discardReplayContext }
  else s

/-- The stages behind commit-undo, and the dispatch. -/
def lateStages [AsciiCType] [WordBreaks] (key : Key) (s : State E) : State E × KeyOutcome :=
  let macroStage := s.handleMacro config key
  if macroStage.2 ≠ .fallthrough then macroStage
  else
    let restoreStage := macroStage.1.tryEscRestore config key
    if restoreStage.2 then (restoreStage.1, .eat) else restoreStage.1.dispatchKeyAction config key

/-- A key goes down. -/
def processKeyDown [AsciiCType] [WordBreaks] (key : Key) (s : State E) : State E × KeyOutcome :=
  let s := s.beforeStages config key
  if isTopGuarded key.vkCode then (s, .pass)
  else
    let undoStage := s.handleCommitUndoFsm config key
    if undoStage.2 ≠ .fallthrough then undoStage else undoStage.1.lateStages config key

/-- A key that is not eaten reaches the host. -/
def deliver (key : Key) (handled : State E × KeyOutcome) : State E :=
  if handled.2 = .eat then handled.1 else handled.1.injectKey key

omit [InputEngine E] in
@[simp] theorem deliver_pass (key : Key) (s : State E) : deliver key (s, .pass) = s.injectKey key :=
  rfl

omit [InputEngine E] in
@[simp] theorem deliver_eat (key : Key) (s : State E) : deliver key (s, .eat) = s := rfl

/-- A key is pressed: the hook handles it, and the host gets what the hook lets pass. -/
def press [AsciiCType] [WordBreaks] (key : Key) (s : State E) : State E :=
  deliver key (s.processKeyDown config key)

end State

end HookEngine

end VKey
