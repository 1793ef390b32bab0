import VKey.Hook.MacroPath
import VKey.Macro.ContextMatch
import VKey.Macro.Segments

/-!
# Macros in a text service

A text service keeps the raw keys as the hook does, and edits the document itself.  A trigger
looks the keys and the composition up, and then the text before the caret.  The expansion takes
the place of the composition, or of a number of units before the caret; Backspace right after it
brings the shortcut back.
-/

namespace VKey

namespace EngineController

open HookEngine (MacroResult isCommitTrigger isDigitVk shouldTrigger vkSpace)

def kMaxRawMacroBuffer : Nat := 128

def kMacroClipboardThreshold : Nat := 200

/-- The settings, the flags of the shared state, and what is known of the focused document. -/
structure MacroSettings where
  config : HookEngine.Config
  macroInEnglish : Bool := false
  abiOk : Bool := true
  contextBlocked : Bool := false
  connected : Bool := true
  engineEnabled : Bool := true
  tsfActive : Bool := true
  vietnameseMode : Bool := true
  isScintillaApp : Bool := false

namespace MacroSettings

def isMacroTrackingEnabled (settings : MacroSettings) : Bool :=
  if !settings.abiOk || settings.contextBlocked || !settings.config.macroEnabled ||
      settings.config.macroTable.entries.isEmpty || !settings.connected then false
  else
    settings.engineEnabled && settings.tsfActive &&
      (settings.vietnameseMode || settings.macroInEnglish)

/-- The longest macro key. -/
def maxMacroKeyLen (settings : MacroSettings) : Nat :=
  settings.config.macroTable.longestMacroKeyLength

end MacroSettings

/-- A key that may expand a macro, with the character that it types. -/
structure Trigger where
  vkCode : Nat
  triggerChar : WChar
  shift : Bool := false

namespace Trigger

/-- The digits of a method that takes them. -/
def isEngineDigitKey (method : InputMethod) (trigger : Trigger) : Bool :=
  (method == .vni || method == .combined || method == .userDefined) && isDigitVk trigger.vkCode &&
    !trigger.shift

/-- The trigger is a space or a printable character. -/
def producesText (trigger : Trigger) : Bool :=
  trigger.vkCode == vkSpace || decide (L ' ' < trigger.triggerChar)

/-- The character that stands behind an expansion. -/
def passedChar (trigger : Trigger) : WChar :=
  if trigger.vkCode = vkSpace then L ' ' else trigger.triggerChar

end Trigger

/-- What Backspace takes back right after an expansion. -/
structure MacroUndoState where
  shortcut : List WChar
  expansion : List WChar
  expansionLength : Nat

/-- What a text service keeps of a macro, the document, and the units of its composition, which
stand before the caret. -/
structure MacroController (E : Type) where
  engine : E
  document : CaretText WChar := {}
  composition : Option Nat := none
  rawMacroBuffer : List WChar := []
  wasFirstCharAutoCapped : Bool := false
  macroCrossCommit : Bool := false
  tempMacroOff : Bool := false
  macroUndo : Option MacroUndoState := none

/-- Replace a number of units before the caret, if they are the expected ones. -/
def replacePrecedingText (characterCount : Nat) (replacement expected : List WChar)
    (document : CaretText WChar) : Option (CaretText WChar) :=
  if characterCount = 0 ∨ document.before.length < characterCount then none
  else if expected ≠ [] ∧
      (document.before.rtake characterCount).take expected.length ≠ expected then
    none
  else some (document.replace characterCount replacement)

namespace MacroController

variable {E : Type}

/-! ## Tracking -/

def clearMacroTracking (s : MacroController E) : MacroController E :=
  { s with
    macroUndo := none
    tempMacroOff := false
    rawMacroBuffer := []
    wasFirstCharAutoCapped := false
    macroCrossCommit := false }

def clearMacroTrackingAfterCommit (s : MacroController E) : MacroController E :=
  if s.macroCrossCommit then s else s.clearMacroTracking

def trackMacroCharacter (settings : MacroSettings) (ch : WChar) (s : MacroController E) :
    MacroController E :=
  if !settings.isMacroTrackingEnabled || ch == 0 then s
  else
    let s := { s with rawMacroBuffer := s.rawMacroBuffer ++ [ch] }
    if kMaxRawMacroBuffer < s.rawMacroBuffer.length then s.clearMacroTracking else s

def trackMacroBackspace (settings : MacroSettings) (s : MacroController E) : MacroController E :=
  if !settings.isMacroTrackingEnabled || s.rawMacroBuffer.isEmpty then s
  else
    let s := { s with rawMacroBuffer := s.rawMacroBuffer.dropLast }
    if s.rawMacroBuffer.isEmpty then s.clearMacroTracking else s

/-! ## Looking a macro up -/

/-- The text before the caret, as far as a macro key may reach. -/
def precedingText (settings : MacroSettings) (s : MacroController E) : List WChar :=
  if settings.isScintillaApp then []
  else s.document.before.rtake (min (settings.maxMacroKeyLen + 1) 64)

variable [WordBreaks]

/-- The search in the document. -/
def macroContext (settings : MacroSettings) (triggerChar : WChar) (s : MacroController E) :
    Macro.Context where
  precedingText := s.precedingText settings
  triggerChar
  macroTable := settings.config.macroTable
  autoCapsEnabled := settings.config.autoCapsMacro
  clipboardThreshold := kMacroClipboardThreshold
  mapper := settings.config.mapper
  titleCaseEnabled := settings.config.macroTitleCase

def lookupMacroInContext (settings : MacroSettings) (triggerChar : WChar) (s : MacroController E) :
    Option Macro.ContextMatch :=
  if settings.config.macroTable.entries.isEmpty || settings.maxMacroKeyLen == 0 then none
  else (s.macroContext settings triggerChar).matchInPrecedingText settings.maxMacroKeyLen

variable [InputEngine E]

/-- What the planner is asked.  The document counts in characters, whatever the code table. -/
def planInputs (settings : MacroSettings) (triggerChar : WChar) (s : MacroController E) :
    Macro.PlanInputs where
  rawMacroBuffer := s.rawMacroBuffer
  previousComposition := InputEngine.peek s.engine
  previousEncodedWidths := []
  macroTable := settings.config.macroTable
  macroCrossCommit := s.macroCrossCommit
  currentCodeTable := .unicode
  autoCapsEnabled := settings.config.autoCapsMacro
  titleCaseEnabled := settings.config.macroTitleCase
  wasFirstCharAutoCapped := s.wasFirstCharAutoCapped
  triggerChar
  clipboardThreshold := kMacroClipboardThreshold

def evaluateMacroPlan (settings : MacroSettings) (triggerChar : WChar) (s : MacroController E) :
    Macro.MacroPlan :=
  if s.rawMacroBuffer.isEmpty && (InputEngine.peek s.engine).isEmpty then {}
  else Macro.plan (s.planInputs settings triggerChar) settings.config.mapper

/-- The plan of the keys or of the composition, or that of the text before the caret, which is
committed text. -/
def findPlan (settings : MacroSettings) (triggerChar : WChar) (s : MacroController E) :
    MacroController E × Macro.MacroPlan :=
  let plan := s.evaluateMacroPlan settings triggerChar
  if plan.matched then (s, plan)
  else
    match s.lookupMacroInContext settings triggerChar with
    | some found => ({ s with macroCrossCommit := true }, found.plan)
    | none => (s, plan)

/-! ## Expanding -/

/-- Add the trigger to the keys, if there are any or a word is composed. -/
def trackTrigger (triggerChar : WChar) (s : MacroController E) : Option (MacroController E) :=
  if (!s.rawMacroBuffer.isEmpty || decide (0 < InputEngine.count s.engine)) &&
      decide (L ' ' < triggerChar) then
    let s := { s with rawMacroBuffer := s.rawMacroBuffer ++ [triggerChar] }
    if kMaxRawMacroBuffer < s.rawMacroBuffer.length then none else some s
  else some s

/-- Set the final text of the composition and end it. -/
def commitEditSession (finalText : List WChar) (s : MacroController E) : MacroController E :=
  match s.composition with
  | some units => { s with document := s.document.replace units finalText, composition := none }
  | none => s

/-- The word is committed as it is shown. -/
def commitShown (s : MacroController E) : MacroController E :=
  if s.composition.isSome then
    { s.commitEditSession (InputEngine.peek s.engine) with engine := InputEngine.reset s.engine }
  else s

/-- The text of an expansion, with the trigger if it does not belong to the macro. -/
def replacementOf (plan : Macro.MacroPlan) (trigger : Trigger) : List WChar :=
  Macro.expandEscapesForClipboard plan.expansion ++
    if !plan.isPartOfMacro && trigger.producesText then [trigger.passedChar] else []

/-- Put an expansion in the place of the shortcut. -/
def replaceShortcut (characterCount : Nat) (replacement : List WChar) (s : MacroController E) :
    Option (MacroController E) :=
  if s.macroCrossCommit || s.composition.isNone then
    let s := s.commitShown
    (replacePrecedingText characterCount replacement [] s.document).map fun document =>
      { s with document }
  else some (s.commitEditSession replacement)

/-- The expansion that Backspace may take back. -/
def undoOfPlan (config : HookEngine.Config) (trigger : Trigger) (plan : Macro.MacroPlan) :
    Option MacroUndoState :=
  if config.macroUndoOnBackspace && !plan.shortcut.isEmpty && trigger.producesText then
    some
      { shortcut := plan.shortcut
        expansion := replacementOf plan trigger
        expansionLength := (replacementOf plan trigger).length }
  else none

/-- Expand what has been found. -/
def expandPlan (config : HookEngine.Config) (trigger : Trigger) (plan : Macro.MacroPlan)
    (s : MacroController E) : MacroController E × MacroResult :=
  match s.replaceShortcut plan.bsCount (replacementOf plan trigger) with
  | none => (s.commitShown.clearMacroTracking, .noMatch)
  | some s =>
      ({ s.clearMacroTracking with
          engine := InputEngine.reset s.engine
          macroUndo := undoOfPlan config trigger plan },
        if plan.isPartOfMacro || trigger.producesText then .expandedEatTrigger
        else .expandedPassTrigger)

variable [AsciiCType]

/-- Keep the keys and a space, if they begin a macro key. -/
def keepSpace (config : HookEngine.Config) (trigger : Trigger) (s : MacroController E) :
    Option (MacroController E) :=
  if trigger.vkCode = vkSpace ∧ s.rawMacroBuffer ≠ [] ∧
      (HookEngine.State.macroPrefixIndex config).containsPrefix (s.rawMacroBuffer ++ [L ' ']) then
    some { s with rawMacroBuffer := s.rawMacroBuffer ++ [L ' '], macroCrossCommit := true }
  else none

/-- Keep the keys of a trigger that has found nothing, if they may be a part of a longer key. -/
def afterNoMatch (config : HookEngine.Config) (trigger : Trigger) (s : MacroController E) :
    MacroController E :=
  if trigger.vkCode = vkSpace ∧ s.rawMacroBuffer ≠ [] then
    (s.keepSpace config trigger).getD s.clearMacroTracking
  else if L ' ' < trigger.triggerChar ∧
      (trigger.isEngineDigitKey config.typing.inputMethod &&
        decide (0 < InputEngine.count s.engine)) = false then
    { s with macroCrossCommit := true }
  else s.clearMacroTracking

def handleMacroTrigger (settings : MacroSettings) (trigger : Trigger) (s : MacroController E) :
    MacroController E × MacroResult :=
  if !isCommitTrigger trigger.vkCode then (s, .noMatch)
  else if s.tempMacroOff || !settings.isMacroTrackingEnabled then (s.clearMacroTracking, .noMatch)
  else if !shouldTrigger settings.config trigger.vkCode then
    ((s.keepSpace settings.config trigger).getD s.clearMacroTracking, .noMatch)
  else
    match s.trackTrigger trigger.triggerChar with
    | none => (s.clearMacroTracking, .noMatch)
    | some s =>
        let (s, plan) := s.findPlan settings trigger.triggerChar
        if !plan.matched then (s.afterNoMatch settings.config trigger, .noMatch)
        else s.expandPlan settings.config trigger plan

/-! ## Taking an expansion back -/

def hasMacroUndo (settings : MacroSettings) (expired : Bool) (s : MacroController E) : Bool :=
  s.macroUndo.isSome && settings.config.macroUndoOnBackspace && settings.isMacroTrackingEnabled &&
    !expired

def undoMacro (settings : MacroSettings) (expired : Bool) (s : MacroController E) :
    MacroController E × Bool :=
  match s.macroUndo with
  | none => (s, false)
  | some undo =>
      if !s.hasMacroUndo settings expired then (s, false)
      else
        match replacePrecedingText undo.expansionLength undo.shortcut undo.expansion s.document with
        | none => ({ s with macroUndo := none }, false)
        | some document =>
            ({ s with
                document
                macroUndo := none
                rawMacroBuffer := undo.shortcut
                macroCrossCommit := true
                tempMacroOff := true }, true)

end MacroController

end EngineController

end VKey
