import VKey.Text.WideChar

/-!
# Shared Vietnamese lookup tables

The flat tables behind composition, tone placement and Vietnamese case conversion.  An index that
the source encodes as `int` with `-1` for "none" is an `Option Nat`.
-/

namespace VKey

variable [WideCType]

/-! ## Modifier lookup -/

/-- Base vowel + modifier: rows `a e o u`, columns circumflex, breve, horn; `0` where there is
no such letter. -/
def kModifiedVowel : List (List WChar) :=
  [[L 'â', L 'ă', 0],
   [L 'ê', 0, 0],
   [L 'ô', 0, L 'ơ'],
   [0, 0, L 'ư']]

/-- Row of a base vowel in `kModifiedVowel`. -/
def vowelBaseIndex (base : WChar) : Option Nat :=
  if base = L 'a' then some 0
  else if base = L 'e' then some 1
  else if base = L 'o' then some 2
  else if base = L 'u' then some 3
  else none

/-! ## Tone lookup -/

/-- Twelve (possibly modified) base vowels × five tones: acute, grave, hook, tilde, dot. -/
def kTonedVowel : List (List WChar) :=
  [[L 'á', L 'à', L 'ả', L 'ã', L 'ạ'],
   [L 'ấ', L 'ầ', L 'ẩ', L 'ẫ', L 'ậ'],
   [L 'ắ', L 'ằ', L 'ẳ', L 'ẵ', L 'ặ'],
   [L 'é', L 'è', L 'ẻ', L 'ẽ', L 'ẹ'],
   [L 'ế', L 'ề', L 'ể', L 'ễ', L 'ệ'],
   [L 'í', L 'ì', L 'ỉ', L 'ĩ', L 'ị'],
   [L 'ó', L 'ò', L 'ỏ', L 'õ', L 'ọ'],
   [L 'ố', L 'ồ', L 'ổ', L 'ỗ', L 'ộ'],
   [L 'ớ', L 'ờ', L 'ở', L 'ỡ', L 'ợ'],
   [L 'ú', L 'ù', L 'ủ', L 'ũ', L 'ụ'],
   [L 'ứ', L 'ừ', L 'ử', L 'ữ', L 'ự'],
   [L 'ý', L 'ỳ', L 'ỷ', L 'ỹ', L 'ỵ']]

/-- The untoned vowel of each row of `kTonedVowel`. -/
def kToneBase : List WChar :=
  [L 'a', L 'â', L 'ă', L 'e', L 'ê', L 'i', L 'o', L 'ô', L 'ơ', L 'u', L 'ư', L 'y']

/-- Row of a (possibly modified) vowel in `kTonedVowel`. -/
def toneBaseIndex (ch : WChar) : Option Nat :=
  kToneBase.findIdx? (· == ch)

/-- The row and the column of a lowercase toned vowel in `kTonedVowel`, in the order of the
source's nested search. -/
def findTonedVowel (low : WChar) : Option (Nat × Nat) :=
  (List.range 12).findSome? fun i =>
    ((kTonedVowel.getD i []).findIdx? (· == low)).map fun j => (i, j)

/-- Strip the tone of a Vietnamese vowel, keeping base and modifier. -/
def stripTone (ch : WChar) : WChar :=
  if (toneBaseIndex ch).isSome then ch
  else
    match findTonedVowel (towlower ch) with
    | some (i, _) => kToneBase.getD i 0
    | none => ch

/-! ## Case conversion -/

/-- Vietnamese-aware uppercase conversion. -/
def toUpperVietnamese (ch : WChar) : WChar :=
  if 0x00E0 ≤ ch ∧ ch ≤ 0x00F6 then ch - 0x20
  else if 0x00F8 ≤ ch ∧ ch ≤ 0x00FE then ch - 0x20
  else if ch = L 'ă' then L 'Ă'
  else if ch = L 'đ' then L 'Đ'
  else if ch = L 'ĩ' then L 'Ĩ'
  else if ch = L 'ũ' then L 'Ũ'
  else if ch = L 'ơ' then L 'Ơ'
  else if ch = L 'ư' then L 'Ư'
  else if 0x1EA0 ≤ ch ∧ ch ≤ 0x1EF9 then
    if ch % 2 = 1 then ch - 1 else ch
  else towupper ch

/-- Vietnamese-aware lowercase conversion.  The source has no case for the capitals of `ĩ` and
`ũ`, which are left to `towlower`. -/
def toLowerVietnamese (ch : WChar) : WChar :=
  if 0x00C0 ≤ ch ∧ ch ≤ 0x00D6 then ch + 0x20
  else if 0x00D8 ≤ ch ∧ ch ≤ 0x00DE then ch + 0x20
  else if ch = L 'Ă' then L 'ă'
  else if ch = L 'Đ' then L 'đ'
  else if ch = L 'Ơ' then L 'ơ'
  else if ch = L 'Ư' then L 'ư'
  else if 0x1EA0 ≤ ch ∧ ch ≤ 0x1EF9 ∧ ch % 2 = 0 then ch + 1
  else towlower ch

/-! ## Decomposition -/

/-- What `decomposeVietChar` reports of a letter.  `modIdx` is 0 circumflex, 1 breve, 2 horn,
3 stroke; `toneIdx` is a column of `kTonedVowel`. -/
structure Decomposed where
  base : WChar
  modIdx : Option Nat
  toneIdx : Option Nat
  isUpper : Bool
  deriving DecidableEq, Repr

/-- Decompose an untoned vowel into its base letter and its modifier index. -/
def decomposeToneBase (tb : WChar) : Option (WChar × Option Nat) :=
  if tb = L 'a' ∨ tb = L 'e' ∨ tb = L 'i' ∨ tb = L 'o' ∨ tb = L 'u' ∨ tb = L 'y' then
    some (tb, none)
  else if tb = L 'â' then some (L 'a', some 0)
  else if tb = L 'ă' then some (L 'a', some 1)
  else if tb = L 'ê' then some (L 'e', some 0)
  else if tb = L 'ô' then some (L 'o', some 0)
  else if tb = L 'ơ' then some (L 'o', some 2)
  else if tb = L 'ư' then some (L 'u', some 2)
  else none

/-- Decompose a Vietnamese letter; `none` for a character that is not a letter. -/
def decomposeVietChar (ch : WChar) : Option Decomposed :=
  let lower := toLowerVietnamese ch
  let isUpper := decide (lower ≠ ch)
  if lower = L 'đ' then some ⟨L 'd', some 3, none, isUpper⟩
  else
    match findTonedVowel lower with
    | some (i, j) =>
        (decomposeToneBase (kToneBase.getD i 0)).map fun p => ⟨p.1, p.2, some j, isUpper⟩
    | none =>
        match decomposeToneBase lower with
        | some p => some ⟨p.1, p.2, none, isUpper⟩
        | none =>
            if L 'a' ≤ lower ∧ lower ≤ L 'z' then some ⟨lower, none, none, isUpper⟩ else none

/-! ## Diphthong tone placement -/

/-- Row and column of a base vowel in the diphthong tables. -/
def diphthongVowelIndex (base : WChar) : Option Nat :=
  [L 'a', L 'e', L 'i', L 'o', L 'u', L 'y'].findIdx? (· == base)

/-- Classic placement.  0 no rule, 1 first vowel, 2 second vowel, 3 first without a coda and
second with one. -/
def kDiphthongClassic : List (List Nat) :=
  [[0, 0, 1, 1, 1, 1],
   [0, 0, 1, 1, 1, 0],
   [1, 0, 0, 0, 1, 0],
   [3, 3, 1, 0, 1, 0],
   [1, 1, 1, 0, 0, 3],
   [0, 0, 0, 0, 3, 0]]

/-- Modern placement: `oa`, `oe`, `ue`, `uo`, `uy` carry the tone on the second vowel. -/
def kDiphthongModern : List (List Nat) :=
  [[0, 0, 1, 1, 1, 1],
   [0, 0, 1, 1, 1, 0],
   [1, 0, 0, 0, 1, 0],
   [2, 2, 1, 0, 1, 0],
   [1, 2, 1, 2, 0, 2],
   [0, 0, 0, 0, 3, 0]]

/-- The rule of a vowel pair in the table of the chosen orthography. -/
def diphthongRule (modernOrtho : Bool) (fi li : Nat) : Nat :=
  ((if modernOrtho then kDiphthongModern else kDiphthongClassic).getD fi []).getD li 0

/-- Three vowels that carry the tone in the middle (modern orthography). -/
def isTriphthong (v1 v2 v3 : WChar) : Bool :=
  [(L 'o', L 'a', L 'i'), (L 'o', L 'e', L 'o'), (L 'u', L 'y', L 'a'),
   (L 'u', L 'y', L 'u'), (L 'o', L 'a', L 'o'), (L 'o', L 'a', L 'y')].contains (v1, v2, v3)

/-- The in-progress form `uye` of the triphthong `uyê`. -/
def isBareSmartTriphthongTail (v1 v2 v3 : WChar) : Bool :=
  v1 == L 'u' && v2 == L 'y' && v3 == L 'e'

/-- Vowel test in both cases, independent of the locale. -/
def isVowelChar (c : WChar) : Bool :=
  [L 'a', L 'e', L 'i', L 'o', L 'u', L 'y', L 'A', L 'E', L 'I', L 'O', L 'U', L 'Y'].contains c

end VKey
