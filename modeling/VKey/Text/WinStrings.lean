import Mathlib.Data.List.TakeWhile
import VKey.Text.Utf8Exact

/-!
# Wide strings and UTF-8 texts

The conversions of `WideCharToMultiByte` and `MultiByteToWideChar`, on the characters that a UTF-8
text has. Both stop in front of a zero.  Every character is converted by itself, an ASCII character
to itself.
-/

namespace VKey

namespace WinStrings

/-- The character of a scalar; a lone surrogate is replaced. -/
def charOf (cp : Nat) : Char := if isScalar cp then Char.ofNat cp else '\uFFFD'

def wideToUtf8 (wstr : List Char16) : String :=
  String.ofList ((decodeScalars (wstr.takeWhile (· ≠ 0))).map charOf)

def utf8ToWide (str : String) : List Char16 :=
  (str.toList.takeWhile (· ≠ '\x00')).flatMap fun c => encodeScalar c.toNat

/-- An ASCII character as a code unit. -/
def unitOf (c : Char) : Char16 := UInt16.ofNat c.toNat

/-! ## The units of a character -/

theorem toNat_unitOf {c : Char} (hc : c.toNat < 0x80) : (unitOf c).toNat = c.toNat :=
  toNat_ofNat_unit (by omega)

theorem encodeScalar_ne_nil (cp : Nat) : encodeScalar cp ≠ [] := by
  unfold encodeScalar
  split_ifs <;> exact List.cons_ne_nil _ _

/-- The unit of an ASCII character occurs in no other character. -/
theorem unitOf_mem_encodeScalar {c d : Char} (hc : c.toNat < 0x80) :
    unitOf c ∈ encodeScalar d.toNat ↔ d = c := by
  constructor
  · intro hmem
    have hlt : d.toNat < 0x110000 := by
      rcases d.valid with hd | ⟨-, hd⟩
      · exact hd.trans (by decide)
      · exact hd
    rw [encodeScalar] at hmem
    split_ifs at hmem with hplane
    · have hunit := congrArg UInt16.toNat (List.mem_singleton.mp hmem)
      rw [toNat_unitOf hc, toNat_ofNat_unit hplane] at hunit
      exact (Char.toNat_inj.mp hunit).symm
    · rcases List.mem_pair.mp hmem with hunit | hunit <;>
      · have hunit := congrArg UInt16.toNat hunit
        rw [toNat_unitOf hc, toNat_ofNat_unit (by omega)] at hunit
        omega
  · rintro rfl
    rw [encodeScalar, if_pos (by omega)]
    exact List.mem_singleton.mpr rfl

theorem unitOf_mem_flatMap {c : Char} (hc : c.toNat < 0x80) (text : List Char) :
    unitOf c ∈ text.flatMap (fun d => encodeScalar d.toNat) ↔ c ∈ text := by
  rw [List.mem_flatMap]
  constructor
  · rintro ⟨d, hd, hmem⟩
    rwa [← (unitOf_mem_encodeScalar hc).mp hmem]
  · exact fun hmem => ⟨c, hmem, (unitOf_mem_encodeScalar hc).mpr rfl⟩

/-- A text begins with an ASCII character where its units begin with the unit of it. -/
theorem head?_flatMap_eq_unitOf {c : Char} (hc : c.toNat < 0x80) (text : List Char) :
    (text.flatMap fun d => encodeScalar d.toNat).head? = some (unitOf c) ↔ text.head? = some c := by
  cases text with
  | nil => exact iff_of_false (by simp) (by simp)
  | cons d rest =>
      have hhead : ((d :: rest).flatMap fun d => encodeScalar d.toNat).head? =
          (encodeScalar d.toNat).head? := by
        rw [List.flatMap_cons, List.head?_append_of_ne_nil _ (encodeScalar_ne_nil _)]
      rw [hhead, List.head?_cons, Option.some_inj]
      constructor
      · exact fun h => (unitOf_mem_encodeScalar hc).mp (List.mem_of_mem_head? h)
      · rintro rfl
        rw [encodeScalar, if_pos (by omega)]
        rfl

/-! ## The conversions -/

/-- A text that the conversions keep. -/
structure Convertible (wstr : List Char16) : Prop where
  wellFormed : WellFormedUtf16 wstr
  zero_notMem : (0 : Char16) ∉ wstr

theorem Convertible.takeWhile_eq {wstr : List Char16} (h : Convertible wstr) :
    wstr.takeWhile (· ≠ 0) = wstr :=
  List.takeWhile_eq_self_iff.mpr fun c hc => by
    simpa using fun hzero : c = 0 => h.zero_notMem (hzero ▸ hc)

theorem flatMap_charOf {scalars : List Nat} (h : ∀ cp ∈ scalars, isScalar cp = true) :
    (scalars.map charOf).flatMap (fun c => encodeScalar c.toNat) =
      scalars.flatMap encodeScalar := by
  rw [List.flatMap_map]
  refine List.flatMap_congr fun cp hcp => ?_
  have hscalar := h cp hcp
  have hvalid : cp.isValidChar := by
    obtain ⟨hle, hsurrogate⟩ := isScalar_iff.mp hscalar
    simp only [Nat.isValidChar]
    omega
  rw [charOf, if_pos hscalar, Char.ofNat, dif_pos hvalid]
  rfl

theorem Convertible.flatMap_wideToUtf8 {wstr : List Char16} (h : Convertible wstr) :
    (wideToUtf8 wstr).toList.flatMap (fun c => encodeScalar c.toNat) = wstr := by
  have hscalars : ∀ cp ∈ decodeScalars wstr, isScalar cp = true := by
    rw [← utf16ToUtf32_snd (snd_utf16ToUtf32.mpr h.wellFormed)]
    exact isScalar_of_mem_utf16ToUtf32
  rw [wideToUtf8, h.takeWhile_eq, String.toList_ofList, flatMap_charOf hscalars,
    flatMap_encodeScalar_decodeScalars]

theorem Convertible.mem_wideToUtf8 {wstr : List Char16} (h : Convertible wstr) {c : Char}
    (hc : c.toNat < 0x80) : c ∈ (wideToUtf8 wstr).toList ↔ unitOf c ∈ wstr := by
  have hmem := unitOf_mem_flatMap hc (wideToUtf8 wstr).toList
  rw [h.flatMap_wideToUtf8] at hmem
  exact hmem.symm

theorem Convertible.head?_wideToUtf8 {wstr : List Char16} (h : Convertible wstr) {c : Char}
    (hc : c.toNat < 0x80) :
    (wideToUtf8 wstr).toList.head? = some c ↔ wstr.head? = some (unitOf c) := by
  have hhead := head?_flatMap_eq_unitOf hc (wideToUtf8 wstr).toList
  rw [h.flatMap_wideToUtf8] at hhead
  exact hhead.symm

theorem Convertible.utf8ToWide_wideToUtf8 {wstr : List Char16} (h : Convertible wstr) :
    utf8ToWide (wideToUtf8 wstr) = wstr := by
  have hzero : (wideToUtf8 wstr).toList.takeWhile (· ≠ '\x00') = (wideToUtf8 wstr).toList := by
    refine List.takeWhile_eq_self_iff.mpr fun c hc => ?_
    have hne : c ≠ '\x00' := by
      rintro rfl
      exact h.zero_notMem ((h.mem_wideToUtf8 (by decide)).mp hc)
    simpa using hne
  rw [utf8ToWide, hzero, h.flatMap_wideToUtf8]

theorem wideToUtf8_injOn : Set.InjOn wideToUtf8 {wstr | Convertible wstr} := fun a ha b hb h => by
  rw [← ha.utf8ToWide_wideToUtf8, h, hb.utf8ToWide_wideToUtf8]

theorem mem_of_unitOf_mem_utf8ToWide {c : Char} (hc : c.toNat < 0x80) {str : String}
    (h : unitOf c ∈ utf8ToWide str) : c ∈ str.toList :=
  (List.takeWhile_subset _) ((unitOf_mem_flatMap hc _).mp h)

theorem head?_of_head?_utf8ToWide {c : Char} (hc : c.toNat < 0x80) {str : String}
    (h : (utf8ToWide str).head? = some (unitOf c)) : str.toList.head? = some c := by
  have htake := (head?_flatMap_eq_unitOf hc _).mp h
  obtain ⟨rest, hrest⟩ := List.takeWhile_prefix (l := str.toList) (· ≠ '\x00')
  rw [← hrest, List.head?_append, htake]
  rfl

end WinStrings

end VKey
