import Mathlib.Data.List.Basic
import VKey.Support.ByteMemory

/-!
# UTF-16

Strings of UTF-16 code units, the scalars they decode to, and their order.  Decoding is lenient: a
surrogate without its partner stands for itself, and a string is well formed if there is none.
-/

namespace VKey

/-- A `char16_t` code unit. -/
abbrev Char16 := UInt16

/-- A lead surrogate. -/
def isHighSurrogate (c : Nat) : Bool := decide (0xD800 ≤ c ∧ c ≤ 0xDBFF)

/-- A trail surrogate. -/
def isLowSurrogate (c : Nat) : Bool := decide (0xDC00 ≤ c ∧ c ≤ 0xDFFF)

/-- A surrogate. -/
def isSurrogate (c : Nat) : Bool := decide (0xD800 ≤ c ∧ c ≤ 0xDFFF)

/-- The scalar of a surrogate pair. -/
def combineSurrogates (high low : Nat) : Nat := 0x10000 + (high - 0xD800) * 0x400 + (low - 0xDC00)

/-- The scalars that `DecodeNextScalar` reads one after another. -/
def decodeScalars : List Char16 → List Nat
  | [] => []
  | [c] => [c.toNat]
  | c1 :: c2 :: str =>
      if isHighSurrogate c1.toNat && isLowSurrogate c2.toNat then
        combineSurrogates c1.toNat c2.toNat :: decodeScalars str
      else c1.toNat :: decodeScalars (c2 :: str)

/-- The code units of a scalar. -/
def encodeScalar (cp : Nat) : List Char16 :=
  if cp < 0x10000 then [UInt16.ofNat cp]
  else [UInt16.ofNat (0xD800 + (cp - 0x10000) / 0x400),
    UInt16.ofNat (0xDC00 + (cp - 0x10000) % 0x400)]

/-- Some surrogate has no partner. -/
def hasInvalidSurrogates (str : List Char16) : Bool := (decodeScalars str).any isSurrogate

/-- The number of scalars of a string. -/
def countUnicodeScalars (str : List Char16) : Nat := (decodeScalars str).length

/-- Compare two strings scalar by scalar; a prefix comes first. -/
def compareUtf16ByUnicodeScalar (a b : List Char16) : Ordering :=
  List.compareLex compare (decodeScalars a) (decodeScalars b)

/-! ## Decoding and encoding -/

theorem encodeScalar_toNat (c : Char16) : encodeScalar c.toNat = [c] := by
  unfold encodeScalar
  rw [if_pos c.toNat_lt, UInt16.ofNat_toNat]

theorem encodeScalar_combineSurrogates {c1 c2 : Char16} (h1 : isHighSurrogate c1.toNat = true)
    (h2 : isLowSurrogate c2.toNat = true) :
    encodeScalar (combineSurrogates c1.toNat c2.toNat) = [c1, c2] := by
  simp only [isHighSurrogate, isLowSurrogate, decide_eq_true_eq] at h1 h2
  have hhigh : 0xD800 + (combineSurrogates c1.toNat c2.toNat - 0x10000) / 0x400 = c1.toNat := by
    unfold combineSurrogates
    omega
  have hlow : 0xDC00 + (combineSurrogates c1.toNat c2.toNat - 0x10000) % 0x400 = c2.toNat := by
    unfold combineSurrogates
    omega
  unfold encodeScalar
  rw [if_neg (by unfold combineSurrogates; omega), hhigh, hlow, UInt16.ofNat_toNat,
    UInt16.ofNat_toNat]

theorem flatMap_encodeScalar_decodeScalars (str : List Char16) :
    (decodeScalars str).flatMap encodeScalar = str := by
  induction str using decodeScalars.induct with
  | case1 => rfl
  | case2 c => simp [decodeScalars, encodeScalar_toNat]
  | case3 c1 c2 str hpair ih =>
      rw [decodeScalars, if_pos hpair, List.flatMap_cons, ih]
      rw [Bool.and_eq_true] at hpair
      rw [encodeScalar_combineSurrogates hpair.1 hpair.2]
      rfl
  | case4 c1 c2 str hpair ih =>
      rw [decodeScalars, if_neg hpair, List.flatMap_cons, ih, encodeScalar_toNat]
      rfl

theorem decodeScalars_injective : Function.Injective decodeScalars := fun a b h => by
  rw [← flatMap_encodeScalar_decodeScalars a, h, flatMap_encodeScalar_decodeScalars b]

/-- A scalar takes one or two units. -/
theorem length_le_countUnicodeScalars (str : List Char16) :
    str.length ≤ 2 * countUnicodeScalars str := by
  unfold countUnicodeScalars
  induction str using decodeScalars.induct with
  | case1 => simp
  | case2 c => simp [decodeScalars]
  | case3 c1 c2 str hpair ih =>
      rw [decodeScalars, if_pos hpair]
      simp only [List.length_cons]
      omega
  | case4 c1 c2 str hpair ih =>
      rw [decodeScalars, if_neg hpair]
      simp only [List.length_cons] at ih ⊢
      omega

theorem length_pos_of_countUnicodeScalars {str : List Char16}
    (h : 1 ≤ countUnicodeScalars str) : 1 ≤ str.length := by
  cases str with
  | nil => simp [countUnicodeScalars, decodeScalars] at h
  | cons c str => simp

/-! ## Order -/

theorem compareUtf16ByUnicodeScalar_swap (a b : List Char16) :
    compareUtf16ByUnicodeScalar a b = (compareUtf16ByUnicodeScalar b a).swap := by
  have hswap : List.compareLex compare (decodeScalars a) (decodeScalars b) =
      (List.compareLex compare (decodeScalars b) (decodeScalars a)).swap :=
    Std.OrientedCmp.eq_swap
  exact hswap

theorem compareUtf16ByUnicodeScalar_trans {a b c : List Char16}
    (hab : (compareUtf16ByUnicodeScalar a b).isLE = true)
    (hbc : (compareUtf16ByUnicodeScalar b c).isLE = true) :
    (compareUtf16ByUnicodeScalar a c).isLE = true := by
  have htrans : (List.compareLex compare (decodeScalars a) (decodeScalars c)).isLE = true :=
    Std.TransCmp.isLE_trans hab hbc
  exact htrans

theorem compareUtf16ByUnicodeScalar_self (a : List Char16) :
    compareUtf16ByUnicodeScalar a a = .eq := by
  have hself : List.compareLex compare (decodeScalars a) (decodeScalars a) = .eq :=
    Std.ReflCmp.compare_self
  exact hself

theorem eq_of_compareUtf16ByUnicodeScalar {a b : List Char16}
    (h : compareUtf16ByUnicodeScalar a b = .eq) : a = b := by
  have heq : decodeScalars a = decodeScalars b := Std.LawfulEqCmp.eq_of_compare h
  exact decodeScalars_injective heq

instance : Std.TransCmp compareUtf16ByUnicodeScalar where
  eq_swap := compareUtf16ByUnicodeScalar_swap _ _
  isLE_trans := compareUtf16ByUnicodeScalar_trans

instance : Std.LawfulEqCmp compareUtf16ByUnicodeScalar where
  compare_self := compareUtf16ByUnicodeScalar_self _
  eq_of_compare := eq_of_compareUtf16ByUnicodeScalar

/-! ## Strings in memory -/

/-- The bytes of a string. -/
def unitBytes (str : List Char16) : List UInt8 := str.flatMap fun c => encodeLE 2 c.toNat

/-- The code units that pairs of bytes make. -/
def decodeUnits : List UInt8 → List Char16
  | b0 :: b1 :: bytes => UInt16.ofNat (decodeLE [b0, b1]) :: decodeUnits bytes
  | _ => []

@[simp] theorem length_unitBytes (str : List Char16) : (unitBytes str).length = 2 * str.length := by
  simp [unitBytes, List.length_flatMap, Nat.mul_comm]

theorem decodeUnits_unitBytes (str : List Char16) : decodeUnits (unitBytes str) = str := by
  induction str with
  | nil => rfl
  | cons c str ih =>
      have hbytes : unitBytes (c :: str) =
          UInt8.ofNat c.toNat :: UInt8.ofNat (c.toNat / 256) :: unitBytes str := rfl
      have hunit : decodeLE [UInt8.ofNat c.toNat, UInt8.ofNat (c.toNat / 256)] = c.toNat := by
        have hlt : c.toNat < 256 ^ 2 := c.toNat_lt
        exact (decodeLE_encodeLE 2 c.toNat).trans (Nat.mod_eq_of_lt hlt)
      rw [hbytes, decodeUnits, hunit, ih, UInt16.ofNat_toNat]

theorem unitBytes_append (a b : List Char16) : unitBytes (a ++ b) = unitBytes a ++ unitBytes b :=
  List.flatMap_append

/-- The `n` code units from an address on. -/
def Memory.readUnits (mem : Memory) (addr n : Nat) : List Char16 :=
  decodeUnits (mem.read addr (2 * n))

theorem Memory.readUnits_write (mem : Memory) (addr : Nat) (str : List Char16) (k n : Nat)
    (h : k + n ≤ str.length) :
    (mem.write addr (unitBytes str)).readUnits (addr + 2 * k) n = (str.drop k).take n := by
  have hunit : ∀ c : Char16, (encodeLE 2 c.toNat).length = 2 := fun c => length_encodeLE 2 c.toNat
  rw [readUnits, read_write_inside _ _ _ _ _ (by rw [length_unitBytes]; omega), unitBytes,
    drop_flatMap hunit, take_flatMap hunit]
  exact decodeUnits_unitBytes _

theorem Memory.readUnits_congr {mem mem' : Memory} {addr n : Nat}
    (h : ∀ a, addr ≤ a → a < addr + 2 * n → mem a = mem' a) :
    mem.readUnits addr n = mem'.readUnits addr n := by
  rw [readUnits, read_congr h, readUnits]

/-- Load code units. -/
def Memory.loadUnits (mem : Memory) (addr n : Nat) : Logged (List Char16) :=
  ⟨mem.readUnits addr n, [⟨addr, 2 * n⟩]⟩

end VKey
