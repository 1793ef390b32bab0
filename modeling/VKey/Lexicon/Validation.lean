import VKey.Lexicon.Canonicalizer
import VKey.Support.Lines

/-!
# Validation of the user dictionary and of spell exclusions

Words are validated one by one, and so are the texts that users import: a line is a word, unless
it is blank or a comment.  Both lists are written back as such a text.
-/

namespace VKey

/-- A rejected word or text: the line, or 0, and what is reported. -/
structure LexiconError where
  errorLine : Nat
  errorMessage : String
  deriving DecidableEq, Repr

/-- An accepted text. -/
structure LexiconImport where
  entries : List (List Char16)
  addedCount : Nat
  duplicateCount : Nat
  deriving DecidableEq, Repr

namespace LexiconValidator

open SpellExclusionCanonicalizer

def kMaxUserDictEntries : Nat := 1024
def kMaxUserDictWordScalars : Nat := 64
def kMaxUserDictUtf16Units : Nat := 65536

/-- An error in a line. -/
def lineError (lineNum : Nat) (message : String) : LexiconError :=
  { errorLine := lineNum
    errorMessage := (if 0 < lineNum then s!"Dòng {lineNum}: " else "") ++ message }

variable [UnicodePlatform]

/-! ## Words -/

/-- The first fault of a word's characters. -/
def characterFault (cp : Nat) : Option String :=
  if isUnicodeWhitespace cp then some "Từ không được chứa khoảng trắng."
  else if isUnicodeControl cp then some "Từ chứa ký tự điều khiển không hợp lệ."
  else if cp = 0xFFFD then some "Từ chứa ký tự Unicode không hợp lệ (U+FFFD)."
  else none

/-- Normalize and convert to lowercase; a step that fails is left out. -/
def normalizeWord (units : List Char16) : List Char16 :=
  let nfc1 := (normalizeNfcUtf16 units).getD units
  let lower := (toLowercaseUtf16 nfc1).getD nfc1
  (normalizeNfcUtf16 lower).getD lower

/-- Validate a word of the user dictionary and normalize it. -/
def validateUserDictWord (word : List Char16) (lineNum : Nat) :
    Except LexiconError (List Char16) := do
  let u32 ← orError (decodeUtf16 word)
    (lineError lineNum "Từ chứa mã UTF-16 surrogate không hợp lệ.")
  let u32 := trimWhitespace u32
  if u32.isEmpty then .error (lineError lineNum "Từ không được để trống.")
  else
    match u32.findSome? characterFault with
    | some message => .error (lineError lineNum message)
    | none =>
        if kMaxUserDictWordScalars < u32.length then
          .error (lineError lineNum
            (s!"Độ dài từ vượt quá {kMaxUserDictWordScalars} ký tự " ++
              s!"(hiện có {u32.length} ký tự)."))
        else do
          let utf16 ← orError (utf32ToUtf16 u32)
            (lineError lineNum "Không thể chuyển đổi sang UTF-16.")
          let finalUtf16 := normalizeWord utf16
          let finalU32 ← orError (decodeUtf16 finalUtf16)
            (lineError lineNum "Lỗi chuẩn hoá Unicode.")
          if finalU32.isEmpty then .error (lineError lineNum "Từ không được để trống.")
          else if kMaxUserDictWordScalars < finalU32.length then
            .error (lineError lineNum
              s!"Độ dài từ vượt quá {kMaxUserDictWordScalars} ký tự sau chuẩn hoá.")
          else .ok finalUtf16

/-- What is reported of a rejected exclusion. -/
def exclusionMessage (error : SpellExclusionError) : String :=
  match error.kind with
  | .tooShort => "Ngoại lệ chính tả phải có ít nhất 2 ký tự."
  | .tooLong => "Ngoại lệ chính tả vượt quá 128 ký tự."
  | _ =>
      if error.message.isEmpty then "Ngoại lệ chính tả chứa ký tự không hợp lệ." else error.message

/-- Validate a spell exclusion and normalize it. -/
def validateSpellExclusionWord (word : List Char16) (lineNum : Nat) :
    Except LexiconError (List Char16) := do
  let u32 ← orError (decodeUtf16 word)
    (lineError lineNum "Từ chứa mã UTF-16 surrogate không hợp lệ.")
  match normalizeAndValidate (trimWhitespace u32) lineNum with
  | .ok item => .ok item.utf16
  | .error error => .error (lineError lineNum (exclusionMessage error))

/-! ## Lines -/

/-- The lines of a text.  Carriage returns are left out. -/
def splitLines (text : List UInt8) : List (List UInt8) :=
  let split := splitLinesFrom 0x0D 0x0A [] text
  if !split.2.isEmpty || text.getLast? == some 0x0A then split.1 ++ [split.2] else split.1

/-- Validate the lines from a line on that are neither blank nor comments. -/
def parseLines (isComment : Nat → Bool)
    (validate : List Char16 → Nat → Except LexiconError (List Char16)) (lineNum : Nat) :
    List (List UInt8) → Except LexiconError (List (List Char16))
  | [] => .ok []
  | line :: lines => do
      let u32 ← orError (utf8ToUtf32 line)
        (lineError lineNum "Dòng không phải UTF-8 hợp lệ.")
      let u32 := trimWhitespace u32
      if u32.isEmpty || u32.head?.any isComment then
        parseLines isComment validate (lineNum + 1) lines
      else
        let lineUtf16 ← orError (utf32ToUtf16 u32) (lineError lineNum "Lỗi giải mã UTF-16.")
        let normalized ← validate lineUtf16 lineNum
        let rest ← parseLines isComment validate (lineNum + 1) lines
        return normalized :: rest

/-- Append the words that a list does not have yet, and count them and the others. -/
def appendNew (combined : List (List Char16)) (words : List (List Char16)) :
    List (List Char16) × Nat × Nat :=
  words.foldl
    (fun state word =>
      if state.1.contains word then (state.1, state.2.1, state.2.2 + 1)
      else (state.1 ++ [word], state.2.1 + 1, state.2.2))
    (combined, 0, 0)

/-- The UTF-8 encoding of a word, up to a lone surrogate. -/
def utf8Of (word : List Char16) : List UInt8 := (utf32ToUtf8 (utf16ToUtf32 word).1).1

/-- The number of UTF-16 units of a list of words. -/
def totalUtf16 (words : List (List Char16)) : Nat :=
  words.foldl (fun total word => total + word.length) 0

/-! ## Texts -/

/-- A `#` starts a comment in the text of the user dictionary. -/
def isUserDictComment (cp : Nat) : Bool := cp == 0x23

/-- A `;` or a `#` starts a comment in the text of the exclusions. -/
def isExclusionComment (cp : Nat) : Bool := cp == 0x3B || cp == 0x23

/-- Parse the text of a user dictionary; the words are appended to those that exist, or replace
them. -/
def parseAndValidateUserDictText (utf8Content : List UInt8) (existing : List (List Char16))
    (appendMode : Bool) : Except LexiconError LexiconImport := do
  let parsedWords ←
    parseLines isUserDictComment validateUserDictWord 1 (splitLines utf8Content)
  let kept := (appendNew [] (if appendMode then existing else [])).1
  let (combined, added, dupes) := appendNew kept parsedWords
  if kMaxUserDictEntries < combined.length then
    .error (lineError 0
      (s!"Danh sách từ cá nhân vượt quá giới hạn tối đa ({kMaxUserDictEntries} từ). " ++
        s!"Hiện có {combined.length} từ."))
  else if kMaxUserDictUtf16Units < totalUtf16 combined then
    .error (lineError 0
      ("Tổng kích thước danh sách từ cá nhân vượt quá giới hạn " ++
        s!"({kMaxUserDictUtf16Units} đơn vị UTF-16)."))
  else
    .ok
      { entries := combined.mergeSort fun a b => (compare (utf8Of a) (utf8Of b)).isLE
        addedCount := added
        duplicateCount := dupes }

/-- Parse the text of the spell exclusions; they are appended to those that exist, or replace
them. -/
def parseAndValidateSpellExclusionsText (utf8Content : List UInt8)
    (existing : List (List Char16)) (appendMode : Bool) : Except LexiconError LexiconImport := do
  let parsedExclusions ←
    parseLines isExclusionComment validateSpellExclusionWord 1 (splitLines utf8Content)
  let (candidates, added, dupes) := appendNew (if appendMode then existing else []) parsedExclusions
  match canonicalize candidates with
  | .ok items =>
      .ok { entries := items.map Item.utf16, addedCount := added, duplicateCount := dupes }
  | .error error =>
      if error.kind = .tooManyEntries then
        .error (lineError 0
          (s!"Danh sách ngoại lệ chính tả vượt quá giới hạn tối đa ({kMaxSpellExclusionRows} từ). "
            ++
            s!"Hiện có {error.count} từ."))
      else .error (lineError 0 error.message)

omit [UnicodePlatform]

/-- The bytes of an ASCII text. -/
def asciiBytes (text : String) : List UInt8 := text.toList.map fun c => UInt8.ofNat c.toNat

/-- The lines of a list of words below a header. -/
def formatText (header : String) (entries : List (List Char16)) : List UInt8 :=
  asciiBytes header ++ joinLines 0x0A (entries.map utf8Of)

/-- The text of a user dictionary. -/
def formatUserDictText (entries : List (List Char16)) : List UInt8 :=
  formatText "# VKey User Dictionary\n# One word per line\n" entries

/-- The text of the spell exclusions. -/
def formatSpellExclusionsText (entries : List (List Char16)) : List UInt8 :=
  formatText "# VKey Spell Exclusions\n# One exclusion prefix per line (max 8)\n" entries

end LexiconValidator

end VKey
