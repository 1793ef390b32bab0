import Mathlib.Data.Nat.Basic
import Mathlib.Tactic.SplitIfs

/-!
# Wide characters and the platform's case conversion

The program works on `wchar_t` code units.  A unit is modelled by the natural number it holds; no
operation of the engine overflows one.  The case conversions `towlower`, `towupper` and the class
test `iswupper` belong to the C library and depend on the locale of the process, so they are a
parameter: `WideCType` bundles them with the documented behaviour the program relies on.
-/

namespace VKey

/-- A `wchar_t` code unit. -/
abbrev WChar := Nat

/-- The wide character literal `L'c'`. -/
abbrev L (c : Char) : WChar := c.toNat

/-! ## ASCII case conversion -/

/-- The part of `towlower` that every locale of the program shares. -/
def asciiLower (c : WChar) : WChar :=
  if L 'A' ≤ c ∧ c ≤ L 'Z' then c + 0x20 else c

/-- The part of `towupper` that every locale of the program shares. -/
def asciiUpper (c : WChar) : WChar :=
  if L 'a' ≤ c ∧ c ≤ L 'z' then c - 0x20 else c

theorem asciiLower_asciiLower (c : WChar) : asciiLower (asciiLower c) = asciiLower c := by
  simp only [asciiLower, WChar, L, Char.reduceToNat]
  split_ifs <;> omega

theorem asciiUpper_asciiUpper (c : WChar) : asciiUpper (asciiUpper c) = asciiUpper c := by
  simp only [asciiUpper, WChar, L, Char.reduceToNat]
  split_ifs <;> omega

theorem asciiLower_eq_zero {c : WChar} (h : asciiLower c = 0) : c = 0 := by
  simp only [asciiLower, WChar, L, Char.reduceToNat] at h
  split_ifs at h
  omega

theorem asciiUpper_eq_zero {c : WChar} (h : asciiUpper c = 0) : c = 0 := by
  simp only [asciiUpper, WChar, L, Char.reduceToNat] at h
  split_ifs at h <;> omega

theorem asciiLower_of_ge {c : WChar} (hc : 0x80 ≤ c) : asciiLower c = c := by
  simp only [asciiLower, WChar, L, Char.reduceToNat] at *
  split_ifs <;> omega

/-! ## The platform -/

/-- The lowercase Latin letters beyond ASCII that Vietnamese text uses, with the rest of their
Latin-1 block. -/
def IsLowerLatin (c : Nat) : Prop :=
  (0x00DF ≤ c ∧ c ≤ 0x00FF) ∨ c ∈ [L 'ă', L 'đ', L 'ĩ', L 'ũ', L 'ơ', L 'ư'] ∨
    (0x1EA1 ≤ c ∧ c ≤ 0x1EF9 ∧ c % 2 = 1)

instance : DecidablePred IsLowerLatin := fun _ =>
  inferInstanceAs (Decidable (_ ∨ _ ∨ _))

theorem IsLowerLatin.ge {c : Nat} (hc : IsLowerLatin c) : 0x80 ≤ c := by
  simp only [IsLowerLatin, WChar, L, Char.reduceToNat, List.mem_cons, List.not_mem_nil,
    or_false] at *
  omega

/-- The wide character functions of the C library in the locale of the process, together with
what is documented about them: on ASCII they are the usual conversions, a lowercase letter
stays as it is, converting twice is converting once, and only the null character converts to
the null character. -/
class WideCType where
  /-- `towlower`. -/
  towlower : WChar → WChar
  /-- `towupper`. -/
  towupper : WChar → WChar
  /-- `iswupper`. -/
  iswupper : WChar → Bool
  towlower_ascii : ∀ c, c < 0x80 → towlower c = asciiLower c
  towupper_ascii : ∀ c, c < 0x80 → towupper c = asciiUpper c
  iswupper_ascii : ∀ c, c < 0x80 → iswupper c = decide (L 'A' ≤ c ∧ c ≤ L 'Z')
  towlower_lower : ∀ c, IsLowerLatin c → towlower c = c
  towlower_towlower : ∀ c, towlower (towlower c) = towlower c
  towupper_towupper : ∀ c, towupper (towupper c) = towupper c
  towlower_eq_zero : ∀ c, towlower c = 0 → c = 0
  towupper_eq_zero : ∀ c, towupper c = 0 → c = 0

export WideCType (towlower towupper iswupper)

/-- The wide character functions of any locale, of which no more is known than that they follow the
rules of ASCII on ASCII. -/
class AsciiCType where
  /-- `towlower`. -/
  towlower : WChar → WChar
  /-- `iswupper`. -/
  iswupper : WChar → Bool
  towlower_ascii : ∀ c, c < 0x80 → towlower c = asciiLower c
  iswupper_ascii : ∀ c, c < 0x80 → iswupper c = decide (L 'A' ≤ c ∧ c ≤ L 'Z')

instance [WideCType] : AsciiCType where
  towlower := towlower
  iswupper := iswupper
  towlower_ascii := WideCType.towlower_ascii
  iswupper_ascii := WideCType.iswupper_ascii

/-- The white space and the punctuation of the locale. -/
class WordBreaks where
  /-- `iswspace`. -/
  iswspace : WChar → Bool
  /-- `iswpunct`. -/
  iswpunct : WChar → Bool

export WordBreaks (iswspace iswpunct)

/-- The white space and the punctuation of ASCII. -/
instance cWordBreaks : WordBreaks where
  iswspace c := decide (9 ≤ c ∧ c ≤ 13) || c == L ' '
  iswpunct c :=
    decide (0x21 ≤ c ∧ c ≤ 0x2F) || decide (0x3A ≤ c ∧ c ≤ 0x40) ||
      decide (0x5B ≤ c ∧ c ≤ 0x60) || decide (0x7B ≤ c ∧ c ≤ 0x7E)

/-- The C locale, in which a process starts: only ASCII letters convert. -/
instance cLocale : WideCType where
  towlower := asciiLower
  towupper := asciiUpper
  iswupper c := decide (L 'A' ≤ c ∧ c ≤ L 'Z')
  towlower_ascii _ _ := rfl
  towupper_ascii _ _ := rfl
  iswupper_ascii _ _ := rfl
  towlower_lower _ hc := asciiLower_of_ge hc.ge
  towlower_towlower := asciiLower_asciiLower
  towupper_towupper := asciiUpper_asciiUpper
  towlower_eq_zero _ := asciiLower_eq_zero
  towupper_eq_zero _ := asciiUpper_eq_zero

end VKey
