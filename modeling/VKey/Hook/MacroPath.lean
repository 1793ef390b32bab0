import VKey.Hook.Composition

/-!
# Macros in the hook

The hook keeps the raw keys since the last word boundary.  A trigger looks them up, erases what they
have put on screen and types the expansion; Backspace right after it brings the shortcut back.
-/

namespace VKey

namespace HookEngine

/-- The longest macro buffer. -/
def kMaxRawMacroBuffer : Nat := 128

/-- The longest expansion that is typed and not pasted. -/
def kMacroClipboardThreshold : Nat := 200

/-! ## Typing an expansion -/

/-- A part of an expansion: a line break, or text. -/
inductive Segment where
  | ret
  | text (units : List WChar)
  deriving DecidableEq, Repr

/-- A segment for the text read so far, if there is any. -/
def flushSegment (cur : List WChar) : List Segment := if cur.isEmpty then [] else [.text cur]

/-- Split an expansion at its newline tokens and encode the text between them. -/
def buildSegmentsFrom [WideCType] (table : CodeTable) (cur : List WChar) : List WChar → List Segment
  | [] => flushSegment cur
  | [c] => flushSegment (cur ++ (CodeTableConverter.convertChar c table).units)
  | c :: d :: rest =>
      if c = L '\\' ∧ d = L 'n' then flushSegment cur ++ .ret :: buildSegmentsFrom table [] rest
      else
        buildSegmentsFrom table (cur ++ (CodeTableConverter.convertChar c table).units) (d :: rest)

/-- The segments of an expansion. -/
def buildSegments [WideCType] (expansion : List WChar) (table : CodeTable) : List Segment :=
  buildSegmentsFrom table [] expansion

/-- The expansion as the clipboard gets it. -/
def expandEscapesForClipboard : List WChar → List WChar
  | [] => []
  | [c] => [c]
  | c :: d :: rest =>
      if c = L '\\' ∧ d = L 'n' then L '\r' :: L '\n' :: expandEscapesForClipboard rest
      else c :: expandEscapesForClipboard (d :: rest)

/-- Units that may not be one Backspace on screen. -/
def isUncountedUnit (ch : WChar) : Bool :=
  decide (ch < 0x20) || decide (0xFFFF < ch) || decide (0xD800 ≤ ch ∧ ch ≤ 0xDFFF) ||
    decide (0x0300 ≤ ch ∧ ch ≤ 0x036F) || decide (0x1AB0 ≤ ch ∧ ch ≤ 0x1AFF) ||
    decide (0x1DC0 ≤ ch ∧ ch ≤ 0x1DFF) || decide (0x200C ≤ ch ∧ ch ≤ 0x200D) ||
    decide (0x20D0 ≤ ch ∧ ch ≤ 0x20FF) || decide (0xFE00 ≤ ch ∧ ch ≤ 0xFE2F)

/-- The expansion can be deleted unit by unit. -/
def canUndoWithBackspaces : List WChar → Bool
  | [] => true
  | [c] => !isUncountedUnit c
  | c :: d :: rest =>
      !isUncountedUnit c && !(c == L '\\' && d == L 'n') && canUndoWithBackspaces (d :: rest)

/-- Type the segments.  The first one that types anything erases the shortcut. -/
def typeSegments (pendingBs : Nat) (host : CaretText WChar) : List Segment → CaretText WChar
  | [] => host.eraseBefore pendingBs
  | .ret :: segments => typeSegments 0 ((host.eraseBefore pendingBs).insert [L '\n']) segments
  | .text units :: segments => typeSegments 0 (host.replace pendingBs units) segments

/-- The number of units the segments type. -/
def segmentsLength (segments : List Segment) : Nat :=
  (segments.map fun
    | .ret => 1
    | .text units => units.length).sum

/-! ## Expanding -/

/-- The key may expand a macro. -/
def shouldTrigger (config : Config) (vkCode : Nat) : Bool :=
  if vkCode = vkEscape then false
  else if !isCommitTrigger vkCode then false
  else if vkCode = vkSpace then config.macroTriggerSpace
  else if vkCode = vkReturn then config.macroTriggerEnter
  else if vkCode = vkTab then config.macroTriggerTab
  else if isCaretNavigationKey vkCode then config.macroTriggerDir
  else config.macroTriggerSpace || config.macroTriggerEnter

inductive MacroResult where
  | noMatch
  | expandedEatTrigger
  | expandedPassTrigger
  deriving DecidableEq, Repr

namespace State

variable {E : Type} [InputEngine E] [WideCType] [AsciiCType] [WordBreaks] (config : Config)

/-- What the planner is asked. -/
def planInputs (triggerChar : WChar) (s : State E) : Macro.PlanInputs where
  rawMacroBuffer := s.rawMacroBuffer
  previousComposition := s.previousComposition
  previousEncodedWidths := s.previousEncodedWidths
  macroTable := config.macroTable
  macroCrossCommit := s.macroCrossCommit
  currentCodeTable := config.currentCodeTable
  autoCapsEnabled := config.autoCapsMacro
  titleCaseEnabled := config.macroTitleCase
  wasFirstCharAutoCapped := s.wasFirstCharAutoCapped
  triggerChar
  clipboardThreshold := kMacroClipboardThreshold

/-- Erase the shortcut and put the expansion in its place. -/
def deliverExpansion (plan : Macro.MacroPlan) (host : CaretText WChar) : CaretText WChar :=
  if plan.useClipboard then
    (host.eraseBefore plan.bsCount).insert (expandEscapesForClipboard plan.expansion)
  else typeSegments plan.bsCount host (buildSegments plan.expansion config.currentCodeTable)

/-- The expansion that Backspace may take back. -/
def undoOfPlan (triggerChar : WChar) (plan : Macro.MacroPlan) : Option MacroUndoState :=
  if config.macroUndoOnBackspace && !plan.shortcut.isEmpty && decide (L ' ' ≤ triggerChar) &&
      !plan.useClipboard && config.currentCodeTable == .unicode &&
      canUndoWithBackspaces plan.expansion then
    some
      { shortcut := plan.shortcut
        expansionLength := segmentsLength (buildSegments plan.expansion config.currentCodeTable)
        hasTrailingTrigger := !plan.isPartOfMacro }
  else none

/-- Look the buffer up and expand it. -/
def tryExpandMacro (triggerChar : WChar) (s : State E) : State E × MacroResult :=
  let plan := Macro.plan (s.planInputs config triggerChar) config.mapper
  if !plan.matched then (s, .noMatch)
  else
    let s := { s with host := deliverExpansion config plan s.host }.clearWordState
    ({ s with
        commitState := s.commitState.cancel
        macroUndo := undoOfPlan config triggerChar plan },
      if plan.isPartOfMacro then .expandedEatTrigger else .expandedPassTrigger)

/-! ## The macro stage of the key path -/

/-- Macros are on and there are some. -/
def macrosOn (config : Config) : Bool := config.macroEnabled && !config.macroTable.entries.isEmpty

/-- Take an expansion back: the shortcut stands on screen and in the buffer again. -/
def undoMacro (undo : MacroUndoState) (s : State E) : State E :=
  let pendingBs := undo.expansionLength + if undo.hasTrailingTrigger then 1 else 0
  { s with
    host := s.host.replace pendingBs undo.shortcut
    macroUndo := none
    rawMacroBuffer := undo.shortcut
    macroCrossCommit := true
    tempMacroOff := true }

/-- Add a key to the buffer. -/
def trackMacroKey (key : Key) (s : State E) : State E :=
  if isAlphaVk key.vkCode then
    let s := { s with rawMacroBuffer := s.rawMacroBuffer ++ [key.originalCh] }
    if kMaxRawMacroBuffer < s.rawMacroBuffer.length then s.clearMacroBuffer else s
  else if isCommitTrigger key.vkCode ∧ L ' ' < key.macroChar then
    { s with rawMacroBuffer := s.rawMacroBuffer ++ [key.macroChar] }
  else s

/-- The index of the macro keys that contain a space. -/
def macroPrefixIndex (config : Config) : MacroPrefixIndex :=
  MacroPrefixIndex.new config.spaceMacroKeys

/-- The buffer and a space begin a macro key. -/
def isSpaceMacroStart (s : State E) : Bool :=
  (macroPrefixIndex config).containsPrefix (s.rawMacroBuffer ++ [L ' '])

/-- The trigger may be a part of a longer macro key. -/
def preservesMacroBuffer (key : Key) (s : State E) : Bool :=
  if key.vkCode = vkSpace then s.isSpaceMacroStart config
  else shouldTrigger config key.vkCode && decide (L ' ' < key.macroChar)

/-- Forget the keys of a macro, and that macros are off. -/
def endMacroWord (s : State E) : State E := { s.clearMacroBuffer with tempMacroOff := false }

/-- Cut the buffer after a key that has not expanded it. -/
def cleanMacroBuffer (key : Key) (s : State E) : State E :=
  if key.vkCode = vkBack ∧ s.rawMacroBuffer ≠ [] then
    let s := { s with rawMacroBuffer := s.rawMacroBuffer.dropLast }
    if s.rawMacroBuffer.isEmpty then s.clearMacroBuffer else s
  else if isCommitTrigger key.vkCode then
    if s.preservesMacroBuffer config key then s else s.endMacroWord
  else if isAlphaVk key.vkCode then s
  else s.endMacroWord

/-- The macro stage with macros on. -/
def handleMacroKey (key : Key) (s : State E) : State E × KeyOutcome :=
  let s := s.trackMacroKey key
  if config.skipMacro key.vkCode key.currentMods && s.count == 0 && s.rawMacroBuffer.isEmpty then
    ({ s with tempMacroOff := true }, .pass)
  else
    let (s, result) :=
      if !s.tempMacroOff && shouldTrigger config key.vkCode && !s.rawMacroBuffer.isEmpty then
        s.tryExpandMacro config key.macroChar
      else (s, .noMatch)
    match result with
    | .expandedEatTrigger => (s, .eat)
    | .expandedPassTrigger => (s, .pass)
    | .noMatch => (s.cleanMacroBuffer config key, .fallthrough)

/-- The macro stage. -/
def handleMacro (key : Key) (s : State E) : State E × KeyOutcome :=
  match s.macroUndo with
  | some undo =>
      if key.vkCode = vkBack ∧ key.shortcut = false ∧ key.macroUndoExpired = false then
        (s.undoMacro undo, .eat)
      else
        let s := if key.vkCode = vkBack then s else { s with macroUndo := none }
        if macrosOn config then s.handleMacroKey config key else (s, .fallthrough)
  | none => if macrosOn config then s.handleMacroKey config key else (s, .fallthrough)

end State

end HookEngine

end VKey
