import Mathlib.Data.List.DropRight
import VKey.Support.SortUnique
import VKey.Text.Utf8

/-!
# Canonical spell exclusions

A spell exclusion is trimmed, normalized and converted to lowercase, and accepted if it has a
sensible length and neither white space nor control characters.  A list of exclusions is sorted by
its UTF-8 bytes and freed of duplicates.

Normalization and lowercase are functions of the operating system, which may fail.
-/

namespace VKey

/-- The Unicode functions of the operating system. -/
class UnicodePlatform where
  /-- Normalization Form C. -/
  nfc : List Char16 → Option (List Char16)
  /-- Lowercase of the invariant locale. -/
  lowercase : List Char16 → Option (List Char16)

/-- ASCII lowercase. -/
def asciiLowercase (c : Char16) : Char16 :=
  if 0x41 ≤ c.toNat ∧ c.toNat ≤ 0x5A then UInt16.ofNat (c.toNat + 0x20) else c

/-- What the program does without a Unicode library. -/
@[reducible] def fallbackPlatform : UnicodePlatform where
  nfc input := some input
  lowercase input := some (input.map asciiLowercase)

/-- The value, or an error if there is none. -/
def orError {α ε : Type*} (value : Option α) (error : ε) : Except ε α :=
  match value with
  | some a => .ok a
  | none => .error error

theorem orError_eq_ok {α ε : Type*} {value : Option α} {error : ε} {a : α} :
    orError value error = .ok a ↔ value = some a := by
  cases value <;> simp [orError]

theorem except_bind_eq_ok {ε α β : Type} {value : Except ε α} {next : α → Except ε β} {b : β} :
    value >>= next = .ok b ↔ ∃ a, value = .ok a ∧ next a = .ok b := by
  cases value <;> simp [bind, Except.bind]

namespace SpellExclusionCanonicalizer

def kMaxSpellExclusionRows : Nat := 8
def kMinSpellExclusionScalars : Nat := 2
def kMaxSpellExclusionScalars : Nat := 128

inductive SpellExclusionErrorKind where
  | tooManyEntries
  | tooShort
  | tooLong
  | invalidEntry
  deriving DecidableEq, Repr

structure SpellExclusionError where
  kind : SpellExclusionErrorKind
  /-- Row of the rejected entry, from 1 on. -/
  row : Nat := 0
  /-- Number of distinct entries, if there are too many. -/
  count : Nat := 0
  /-- Number of scalars of the rejected entry. -/
  scalars : Nat := 0
  message : String
  deriving DecidableEq, Repr

/-! ## Characters -/

/-- White space. -/
def isUnicodeWhitespace (cp : Nat) : Bool :=
  [0x0009, 0x000A, 0x000B, 0x000C, 0x000D, 0x0020, 0x0085, 0x00A0, 0x1680, 0x2000, 0x2001, 0x2002,
    0x2003, 0x2004, 0x2005, 0x2006, 0x2007, 0x2008, 0x2009, 0x200A, 0x2028, 0x2029, 0x202F, 0x205F,
    0x3000].contains cp

/-- Control characters. -/
def isUnicodeControl (cp : Nat) : Bool := decide (cp ≤ 0x1F) || decide (0x7F ≤ cp ∧ cp ≤ 0x9F)

/-- A text without the white space around it. -/
def trimWhitespace (input : List Nat) : List Nat :=
  (input.dropWhile isUnicodeWhitespace).rdropWhile isUnicodeWhitespace

/-- Decode UTF-16 without lone surrogates. -/
def decodeUtf16 (input : List Char16) : Option (List Nat) :=
  if (utf16ToUtf32 input).2 then some (utf16ToUtf32 input).1 else none

/-! ## Normalization -/

section Normalization

variable [UnicodePlatform]

/-- Normalize to Form C. -/
def normalizeNfcUtf16 (input : List Char16) : Option (List Char16) :=
  if input.isEmpty then some [] else UnicodePlatform.nfc input

/-- Convert to lowercase. -/
def toLowercaseUtf16 (input : List Char16) : Option (List Char16) :=
  if input.isEmpty then some [] else UnicodePlatform.lowercase input

end Normalization

/-- An accepted exclusion: its scalars, which have a UTF-8 and a UTF-16 encoding. -/
structure Item where
  scalars : List Nat
  isScalar : ∀ cp ∈ scalars, isScalar cp = true

namespace Item

/-- The UTF-8 encoding. -/
def utf8 (item : Item) : List UInt8 := item.scalars.flatMap encodeUtf8

/-- The UTF-16 encoding. -/
def utf16 (item : Item) : List Char16 := item.scalars.flatMap encodeScalar

end Item

variable [UnicodePlatform]

/-- Trim, normalize and convert an exclusion, and check what comes out. -/
def normalizeAndValidate (input : List Nat) (row : Nat) : Except SpellExclusionError Item := do
  let invalid (what : String) : SpellExclusionError :=
    { kind := .invalidEntry, row, message := s!"spell exclusion row {row} " ++ what }
  let u16in ← orError (utf32ToUtf16 (trimWhitespace input)) (invalid "contains invalid scalar")
  let nfc1 ← orError (normalizeNfcUtf16 u16in) (invalid "could not be NFC-normalized")
  let lowered ← orError (toLowercaseUtf16 nfc1) (invalid "could not be lowercased")
  let nfc2 ← orError (normalizeNfcUtf16 lowered) (invalid "could not be NFC-normalized")
  let finalScalars ← orError (decodeUtf16 nfc2) (invalid "contains invalid UTF-16 surrogates")
  if finalScalars.length < kMinSpellExclusionScalars then
    .error
      { kind := .tooShort, row, scalars := finalScalars.length
        message := s!"spell exclusion row {row} is shorter than 2 scalars" }
  else if kMaxSpellExclusionScalars < finalScalars.length then
    .error
      { kind := .tooLong, row, scalars := finalScalars.length
        message := s!"spell exclusion row {row} has {finalScalars.length} scalars, " ++
          "exceeds the 128-scalar cap" }
  else if finalScalars.any fun cp => isUnicodeWhitespace cp || isUnicodeControl cp then
    .error (invalid "contains whitespace or control text")
  else if h : ∀ cp ∈ finalScalars, VKey.isScalar cp = true then .ok ⟨finalScalars, h⟩
  else .error (invalid "could not be encoded")

/-! ## Lists of exclusions -/

/-- Check the exclusions from a row on. -/
def normalizeRows (row : Nat) : List (List Char16) → Except SpellExclusionError (List Item)
  | [] => .ok []
  | entry :: entries => do
      let scalars ← orError (decodeUtf16 entry)
        { kind := .invalidEntry, row
          message := s!"spell exclusion row {row} contains invalid UTF-16 surrogates" }
      let item ← normalizeAndValidate scalars row
      let items ← normalizeRows (row + 1) entries
      return item :: items

/-- Check the UTF-8 exclusions from a row on. -/
def normalizeUtf8Rows (row : Nat) : List (List UInt8) → Except SpellExclusionError (List Item)
  | [] => .ok []
  | entry :: entries => do
      let scalars ← orError (utf8ToUtf32 entry)
        { kind := .invalidEntry, row
          message := s!"spell exclusion row {row} contains invalid UTF-8 bytes" }
      let item ← normalizeAndValidate scalars row
      let items ← normalizeUtf8Rows (row + 1) entries
      return item :: items

/-- The order of the exclusions. -/
def compareItems (a b : Item) : Ordering := compare a.utf8 b.utf8

/-- Check the exclusions, sort them and drop duplicates. -/
def canonicalize (entries : List (List Char16)) : Except SpellExclusionError (List Item) := do
  let items ← normalizeRows 1 entries
  let items := sortUnique compareItems items
  if kMaxSpellExclusionRows < items.length then
    .error
      { kind := .tooManyEntries, count := items.length
        message := s!"spell exclusions have {items.length} entries, exceeds the 8-entry cap" }
  else .ok items

/-- Check the UTF-8 exclusions, sort them and drop duplicates. -/
def canonicalizeUtf8 (entries : List (List UInt8)) : Except SpellExclusionError (List Item) := do
  let items ← normalizeUtf8Rows 1 entries
  let items := sortUnique compareItems items
  if kMaxSpellExclusionRows < items.length then
    .error
      { kind := .tooManyEntries, count := items.length
        message := s!"spell exclusions have {items.length} entries, exceeds the 8-entry cap" }
  else .ok items

end SpellExclusionCanonicalizer

end VKey
