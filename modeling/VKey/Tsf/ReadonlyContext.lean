import Mathlib.Data.List.DropRight
import VKey.Hook.AutoCaps
import VKey.Ipc.StateBlock

/-!
# The anchor of a document

In read-only mode the text service looks at the text before the caret of the document that it serves
and publishes an anchor: whether a sentence, a line or a word begins at the caret, and the last word
as far as it has been typed.  A context that must not be read has an anchor that is marked
unavailable.
-/

namespace VKey

namespace ReadonlyContextProvider

open StateBlock HookEngine

/-! ## The document -/

/-- The input scopes that keep a context from being read, and all others. -/
inductive InputScope where
  | password
  | numericPassword
  | numericPin
  | alphanumericPin
  | alphanumericPinSet
  | emailUserName
  | emailSmtpEmailAddress
  | emailNameOrAddress
  | loginName
  | other
  deriving DecidableEq, Repr

/-- What a context answers during an edit.  A call that fails answers nothing. -/
structure Document where
  /-- The keyboard compartment of the context is set. -/
  keyboardDisabled : Bool := false
  inputScopes : Option (List InputScope) := none
  /-- The selection is a caret. -/
  selectionEmpty : Option Bool := some true
  /-- The text before the caret, back to the start of the document or to an embedded object. -/
  before : Option (List WChar)
  deriving DecidableEq, Repr

/-- `IsContextBlockedInline` -/
def Document.isBlocked (doc : Document) : Bool :=
  doc.keyboardDisabled || (doc.inputScopes.getD []).any (· != .other)

def kReadbackChars : Nat := 64

/-- `ReadPrecedingCharsInline`: nothing where a call fails or a text is selected. -/
def Document.precedingChars (doc : Document) : List WChar :=
  if doc.selectionEmpty = some true then (doc.before.getD []).rtake kReadbackChars else []

/-! ## The anchor -/

/-- A space, a tab or a line break. -/
def isBreakUnit (c : WChar) : Bool := c == L ' ' || c == L '\t' || c == L '\n' || c == L '\r'

/-- The caret stands behind whitespace or behind nothing. -/
def startsWord (preceding : List WChar) : Bool := preceding.getLast?.all isBreakUnit

/-- The last sixteen units of the word before the caret. -/
def syllableBefore (preceding : List WChar) : List WChar :=
  (preceding.rtakeWhile (!isBreakUnit ·)).rtake 16

/-- `DeriveAnchorFromPreceding`; the caller sets the availability. -/
def deriveAnchorFromPreceding (preceding : List WChar) (isAvailable : Nat) : Anchor
  | .isAvailable => isAvailable
  | .isSentenceStart =>
      if classifyCapTrigger preceding = .docStart ∨
          classifyCapTrigger preceding = .sentenceEnd then 1
      else 0
  | .isLineStart =>
      if classifyCapTrigger preceding = .docStart ∨
          classifyCapTrigger preceding = .lineStart then 1
      else 0
  | .isWordStart => if startsWord preceding then 1 else 0
  | .syllableLen => (syllableBefore preceding).length
  | .currentSyllable i => (syllableBefore preceding).getD i 0

/-- `HookContextAnchor{}`: not available, and every flag off. -/
def cleared : Anchor := fun _ => 0

/-- The anchor that `UpdateAnchor` computes for a document. -/
def Document.anchor (doc : Document) : Anchor :=
  if doc.isBlocked then cleared else deriveAnchorFromPreceding doc.precedingChars 1

/-- `AnchorPayloadEquals`: the flags and the units of the syllable. -/
def anchorPayloadEquals (a b : Anchor) : Bool :=
  a .isAvailable == b .isAvailable && a .isSentenceStart == b .isSentenceStart &&
    a .isLineStart == b .isLineStart && a .isWordStart == b .isWordStart &&
    a .syllableLen == b .syllableLen &&
    (List.range (a .syllableLen)).all fun k => a (.currentSyllable k) == b (.currentSyllable k)

/-- What a reader of the anchor looks at. -/
def IsPayload (syllableLen : Nat) : AnchorCell → Prop
  | .currentSyllable i => i < syllableLen
  | _ => True

theorem anchorPayloadEquals_iff {a b : Anchor} :
    anchorPayloadEquals a b = true ↔ ∀ cell, IsPayload (a .syllableLen) cell → a cell = b cell := by
  constructor
  · intro h
    simp only [anchorPayloadEquals, Bool.and_eq_true, beq_iff_eq,
      List.all_eq_true, List.mem_range] at h
    obtain ⟨⟨⟨⟨⟨havailable, hsentence⟩, hline⟩, hword⟩, hlen⟩, hunits⟩ := h
    intro cell hcell
    cases cell with
    | isAvailable => exact havailable
    | isSentenceStart => exact hsentence
    | isLineStart => exact hline
    | isWordStart => exact hword
    | syllableLen => exact hlen
    | currentSyllable i => exact hunits i hcell
  · intro h
    simp only [anchorPayloadEquals, Bool.and_eq_true, beq_iff_eq, List.all_eq_true, List.mem_range]
    exact ⟨⟨⟨⟨⟨h _ trivial, h _ trivial⟩, h _ trivial⟩, h _ trivial⟩, h _ trivial⟩,
      fun k hk => h _ hk⟩

theorem anchorPayloadEquals_trans {a b c : Anchor} (hab : anchorPayloadEquals a b = true)
    (hbc : anchorPayloadEquals b c = true) : anchorPayloadEquals a c = true := by
  rw [anchorPayloadEquals_iff] at hab hbc ⊢
  intro cell hcell
  have hlen : a .syllableLen = b .syllableLen := hab .syllableLen trivial
  exact (hab cell hcell).trans (hbc cell (hlen ▸ hcell))

theorem anchorPayloadEquals_symm {a b : Anchor} (hab : anchorPayloadEquals a b = true) :
    anchorPayloadEquals b a = true := by
  rw [anchorPayloadEquals_iff] at hab ⊢
  intro cell hcell
  have hlen : a .syllableLen = b .syllableLen := hab .syllableLen trivial
  exact (hab cell (hlen ▸ hcell)).symm

/-- An anchor that the writer has stored in full has the payload. -/
theorem anchorPayloadEquals_of_agree {a b : Anchor}
    (h : ∀ cell, AnchorClaimed cell → a cell = b cell)
    (hlen : b .syllableLen ≤ 16) : anchorPayloadEquals a b = true := by
  rw [anchorPayloadEquals_iff]
  intro cell hcell
  refine h cell ?_
  cases cell with
  | currentSyllable i =>
      have hle : a .syllableLen ≤ 16 := (h .syllableLen trivial).trans_le hlen
      exact lt_of_lt_of_le hcell hle
  | _ => trivial

theorem Document.syllableLen_le (doc : Document) : doc.anchor .syllableLen ≤ 16 := by
  unfold Document.anchor
  split_ifs
  · exact Nat.zero_le _
  · have hlen : (syllableBefore doc.precedingChars).length ≤ 16 := by
      rw [syllableBefore, List.rtake, List.length_drop]
      omega
    exact hlen

end ReadonlyContextProvider

end VKey
