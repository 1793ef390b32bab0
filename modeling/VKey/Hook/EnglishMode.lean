import VKey.Hook.KeyPath

/-!
# The hook in English mode

In English mode no word is composed and none is brought back.  Macros may be on: the hook keeps
the raw keys, and a trigger looks them up as it does in Vietnamese mode.  A key that is not eaten
reaches the host.
-/

namespace VKey

namespace HookEngine

/-- The language of the hook, and whether macros are on in English. -/
structure Mode where
  vietnameseMode : Bool := true
  macroInEnglish : Bool := false

namespace State

variable {E : Type} [InputEngine E] [WideCType] (config : Config)

/-- The commit-undo state machine in English mode. -/
def handleEnglishCommitUndoFsm (key : Key) (s : State E) : State E × KeyOutcome :=
  let s := s.beforeFsm key
  if s.commitState.state = .ready ∧ key.vkCode = vkBack ∧ s.count = 0 then
    s.handleReadyBackspace key
  else (s.handleReadyGap key, .fallthrough)

variable [AsciiCType] [WordBreaks]

/-- The trigger is added to the buffer, and the buffer is looked up; a trigger that is switched
off ends the word. -/
def handleEnglishTrigger (key : Key) (s : State E) : State E × KeyOutcome :=
  let s :=
    if L ' ' < key.macroChar then { s with rawMacroBuffer := s.rawMacroBuffer ++ [key.macroChar] }
    else s
  if !s.rawMacroBuffer.isEmpty && shouldTrigger config key.vkCode then
    let (s, result) := s.tryExpandMacro config key.macroChar
    (s, if result = .expandedEatTrigger then .eat else .pass)
  else if !shouldTrigger config key.vkCode then (s.endMacroWord, .pass)
  else (s, .pass)

/-- The macro stage in English mode with macros on. -/
def handleEnglishMacroKey (key : Key) (s : State E) : State E × KeyOutcome :=
  if isAlphaVk key.vkCode then
    let s := { s with rawMacroBuffer := s.rawMacroBuffer ++ [key.originalCh] }
    (if kMaxRawMacroBuffer < s.rawMacroBuffer.length then s.clearMacroBuffer else s, .pass)
  else if config.skipMacro key.vkCode key.currentMods && s.rawMacroBuffer.isEmpty then
    ({ s with tempMacroOff := true }, .pass)
  else if isCommitTrigger key.vkCode && !s.tempMacroOff then s.handleEnglishTrigger config key
  else if key.vkCode = vkBack ∧ s.rawMacroBuffer ≠ [] then
    let s := { s with rawMacroBuffer := s.rawMacroBuffer.dropLast }
    (if s.rawMacroBuffer.isEmpty then s.clearMacroBuffer else s, .pass)
  else if !isCommitTrigger key.vkCode then (s.endMacroWord, .pass)
  else (s, .pass)

/-- The macro stage in English mode. -/
def handleEnglishMacro (macroInEnglish : Bool) (key : Key) (s : State E) : State E × KeyOutcome :=
  let handle (s : State E) : State E × KeyOutcome :=
    if config.macroEnabled && macroInEnglish then s.handleEnglishMacroKey config key
    else (s, .fallthrough)
  match s.macroUndo with
  | some undo =>
      if key.vkCode = vkBack ∧ key.shortcut = false ∧ key.macroUndoExpired = false then
        (s.undoMacro undo, .eat)
      else handle (if key.vkCode = vkBack then s else { s with macroUndo := none })
  | none => handle s

/-- The stages behind commit-undo in English mode. -/
def lateEnglishStages (macroInEnglish : Bool) (key : Key) (s : State E) : State E × KeyOutcome :=
  let macroStage := s.handleEnglishMacro config macroInEnglish key
  if macroStage.2 ≠ .fallthrough then macroStage
  else
    let restoreStage := macroStage.1.tryEscRestore config key
    (restoreStage.1, if restoreStage.2 then .eat else .pass)

/-- A key goes down in English mode. -/
def processEnglishKeyDown (macroInEnglish : Bool) (key : Key) (s : State E) :
    State E × KeyOutcome :=
  let s := s.beforeStages config key
  if isTopGuarded key.vkCode then (s, .pass)
  else if s.commitState.state = .idle ∧ s.macroUndo.isNone = true ∧
      (config.macroEnabled && macroInEnglish) = false then
    (s.clearNavigatedContext key, .pass)
  else
    let undoStage := s.handleEnglishCommitUndoFsm key
    if undoStage.2 ≠ .fallthrough then undoStage
    else undoStage.1.lateEnglishStages config macroInEnglish key

/-- A key goes down in either language. -/
def processKeyDownIn (mode : Mode) (key : Key) (s : State E) : State E × KeyOutcome :=
  if mode.vietnameseMode then s.processKeyDown config key
  else s.processEnglishKeyDown config mode.macroInEnglish key

/-- A key is pressed in either language. -/
def pressIn (mode : Mode) (key : Key) (s : State E) : State E :=
  deliver key (s.processKeyDownIn config mode key)

end State

end HookEngine

end VKey
