import VKey.CodeTable.Tables
import Mathlib.Data.List.Basic

/-!
# Planning a macro expansion

`plan` decides what a macro buffer expands to: it looks the buffer up in the macro table in an
order of preference, counts the characters on screen that the expansion replaces, and carries the
case of what was typed over to the expansion.
-/

namespace VKey

/-- The conversion of a buffer to uppercase or lowercase, in place. -/
structure CaseMapper where
  upper : List WChar → List WChar
  lower : List WChar → List WChar
  length_upper : ∀ s, (upper s).length = s.length
  length_lower : ∀ s, (lower s).length = s.length

/-- A macro table: what each key expands to. -/
structure MacroTable where
  entries : List (List WChar × List WChar)
  nodup : (entries.map Prod.fst).Nodup

namespace MacroTable

/-- The entry of a key. -/
def find (table : MacroTable) (key : List WChar) : Option (List WChar × List WChar) :=
  table.entries.find? (·.1 == key)

/-- The length of the longest key. -/
def longestMacroKeyLength (table : MacroTable) : Nat :=
  table.entries.foldl (fun longest entry => max longest entry.1.length) 0

end MacroTable

namespace Macro

/-! ## Case of the expansion -/

section Case

variable (mapper : CaseMapper)

/-- One character converted to lowercase. -/
def lowerChar (c : WChar) : WChar := (mapper.lower [c]).headD c

/-- One character converted to uppercase. -/
def upperChar (c : WChar) : WChar := (mapper.upper [c]).headD c

/-- The key has a character that is not in lowercase. -/
def hasUpper (s : List WChar) : Bool := s.any fun c => lowerChar mapper c != c

/-- How an expansion is capitalized. -/
inductive CapsStyle where
  | none
  | firstLetter
  | words
  | all
  deriving DecidableEq, Repr

/-- What is known of the letters read so far. -/
structure CapsScan where
  letters : Nat := 0
  allUpper : Bool := true
  initialUpper : Bool := false

/-- Read one more character. -/
def CapsScan.read (scan : CapsScan) (c : WChar) : CapsScan :=
  let lower := lowerChar mapper c
  let upper := upperChar mapper c
  if lower = upper then scan
  else
    { letters := scan.letters + 1
      initialUpper :=
        if scan.letters = 0 then c == upper else scan.initialUpper && c == lower
      allUpper := scan.allUpper && c == upper }

/-- The style that what was typed asks for. -/
def detectCaps (typed : List WChar) (enabled titleCase sentenceCapped : Bool) : CapsStyle :=
  let scan := typed.foldl (CapsScan.read mapper) {}
  if enabled && scan.allUpper && decide (1 < scan.letters) then .all
  else if enabled && scan.initialUpper then
    if titleCase && !sentenceCapped then .words else .firstLetter
  else if sentenceCapped then .firstLetter
  else .none

variable [WordBreaks]

/-- Capitalize one character: the character, whether a word starts behind it, and whether the
rest of the text stays as it is. -/
def capsChar (style : CapsStyle) (wordStart : Bool) (c : WChar) : WChar × Bool × Bool :=
  if style = .all then (upperChar mapper c, wordStart, false)
  else if iswspace c || (iswpunct c && c != L '\'' && c != 0x2019) then (c, true, false)
  else if lowerChar mapper c = upperChar mapper c then (c, wordStart, false)
  else
    (if style = .firstLetter || wordStart then upperChar mapper c else c, false,
      style == .firstLetter)

/-- Capitalize a text, except for its newline tokens. -/
def applyCapsFrom (style : CapsStyle) : Bool → List WChar → List WChar
  | _, [] => []
  | wordStart, [c] => [(capsChar mapper style wordStart c).1]
  | wordStart, c :: d :: rest =>
      if c = L '\\' ∧ d = L 'n' then c :: d :: applyCapsFrom style true rest
      else
        match capsChar mapper style wordStart c with
        | (c, _, true) => c :: d :: rest
        | (c, wordStart, false) => c :: applyCapsFrom style wordStart (d :: rest)

/-- Capitalize an expansion. -/
def applyCaps (style : CapsStyle) (text : List WChar) : List WChar :=
  if style = .none then text else applyCapsFrom mapper style true text

end Case

/-! ## The plan -/

/-- What a plan is made from. -/
structure PlanInputs where
  rawMacroBuffer : List WChar
  previousComposition : List WChar
  previousEncodedWidths : List Nat
  macroTable : MacroTable
  macroCrossCommit : Bool
  currentCodeTable : CodeTable
  autoCapsEnabled : Bool
  titleCaseEnabled : Bool := false
  wasFirstCharAutoCapped : Bool := false
  triggerChar : WChar
  clipboardThreshold : Nat

/-- What to expand. -/
structure MacroPlan where
  matched : Bool := false
  /-- The trigger belongs to the key. -/
  isPartOfMacro : Bool := false
  /-- Characters on screen to erase. -/
  bsCount : Nat := 0
  expansion : List WChar := []
  useClipboard : Bool := false
  /-- What was typed for the key. -/
  shortcut : List WChar := []

/-- A key that was found. -/
structure Match where
  entry : List WChar × List WChar
  typed : List WChar
  isPartOfMacro : Bool
  viaComposition : Bool

/-- Look a candidate up as it is, and then in lowercase. -/
def lookup (table : MacroTable) (mapper : CaseMapper) (candidate : List WChar) :
    Option (List WChar × List WChar) :=
  (table.find candidate).or (table.find (mapper.lower candidate))

/-- The trigger produces text. -/
def isTextTrigger (triggerChar : WChar) : Bool := decide (L ' ' < triggerChar)

namespace PlanInputs

/-- The key that wins: the whole buffer, the buffer without the trigger, the composition with the
trigger, the composition. -/
def findMatch (input : PlanInputs) (mapper : CaseMapper) : Option Match :=
  let isText := isTextTrigger input.triggerChar
  let raw := input.rawMacroBuffer
  let previous := input.previousComposition
  match lookup input.macroTable mapper raw with
  | some entry => some ⟨entry, raw, isText, false⟩
  | none =>
      let endsInTrigger :=
        isText && decide (1 < raw.length) && raw.getLast? == some input.triggerChar
      match if endsInTrigger then lookup input.macroTable mapper raw.dropLast else none with
      | some entry => some ⟨entry, raw.dropLast, false, false⟩
      | none =>
          if previous.isEmpty then none
          else
            let withTrigger := previous ++ [input.triggerChar]
            match if isText then lookup input.macroTable mapper withTrigger else none with
            | some entry => some ⟨entry, withTrigger, true, true⟩
            | none =>
                (lookup input.macroTable mapper previous).map fun entry =>
                  ⟨entry, previous, false, true⟩

/-- The characters on screen of the previous composition. -/
def compositionCount (input : PlanInputs) : Nat :=
  if input.currentCodeTable ≠ .unicode then input.previousEncodedWidths.foldl (· + ·) 0
  else input.previousComposition.length

/-- The characters on screen of the buffer. -/
def bufferCount (input : PlanInputs) : Nat :=
  if isTextTrigger input.triggerChar then input.rawMacroBuffer.length - 1
  else input.rawMacroBuffer.length

/-- The characters on screen that a match replaces. -/
def backspaces (input : PlanInputs) (found : Match) : Nat :=
  if found.viaComposition then input.compositionCount
  else if input.macroCrossCommit then input.bufferCount
  else if !input.previousComposition.isEmpty then input.compositionCount
  else input.bufferCount

end PlanInputs

/-- Without a composition, the buffer matches with the trigger or without it. -/
theorem PlanInputs.isSome_findMatch {input : PlanInputs} (hnone : input.previousComposition = [])
    (mapper : CaseMapper) :
    (input.findMatch mapper).isSome =
      ((lookup input.macroTable mapper input.rawMacroBuffer).isSome ||
        (isTextTrigger input.triggerChar && decide (1 < input.rawMacroBuffer.length) &&
          input.rawMacroBuffer.getLast? == some input.triggerChar &&
          (lookup input.macroTable mapper input.rawMacroBuffer.dropLast).isSome)) := by
  unfold findMatch
  dsimp only
  rw [hnone]
  cases lookup input.macroTable mapper input.rawMacroBuffer with
  | some entry => rfl
  | none =>
      cases isTextTrigger input.triggerChar && decide (1 < input.rawMacroBuffer.length) &&
          input.rawMacroBuffer.getLast? == some input.triggerChar with
      | false => rfl
      | true => cases lookup input.macroTable mapper input.rawMacroBuffer.dropLast <;> rfl

variable [WordBreaks]

/-- Decide what to expand. -/
def plan (input : PlanInputs) (mapper : CaseMapper) : MacroPlan :=
  match input.findMatch mapper with
  | none => {}
  | some found =>
      let style :=
        detectCaps mapper found.typed input.autoCapsEnabled input.titleCaseEnabled
          input.wasFirstCharAutoCapped
      let expansion :=
        if hasUpper mapper found.entry.1 then found.entry.2
        else applyCaps mapper style found.entry.2
      { matched := true
        isPartOfMacro := found.isPartOfMacro
        bsCount := input.backspaces found
        expansion
        useClipboard :=
          input.currentCodeTable == .unicode && decide (input.clipboardThreshold < expansion.length)
        shortcut := found.typed }

theorem matched_plan (input : PlanInputs) (mapper : CaseMapper) :
    (plan input mapper).matched = (input.findMatch mapper).isSome := by
  unfold plan
  cases input.findMatch mapper <;> rfl

end Macro

end VKey
