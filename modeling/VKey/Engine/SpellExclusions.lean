import VKey.Engine.SpellCheck
import VKey.Lexicon.CanonicalForm

/-!
# Matching the spell exclusions

The engine compares the exclusions with a buffer of sixteen characters.  An exclusion that is longer
never matches, although the settings accept up to 128 scalars.
-/

namespace VKey

open SpellExclusionCanonicalizer (Item canonicalize)

/-- The engine's strings of an accepted list. -/
def exclusionsOf (items : List Item) : List (List WChar) :=
  items.map fun item => item.utf16.map UInt16.toNat

/-! ## Accepted exclusions -/

theorem length_le_length_utf16 (item : Item) : item.scalars.length ≤ item.utf16.length := by
  unfold Item.utf16
  induction item.scalars with
  | nil => exact Nat.le_refl 0
  | cons cp scalars ih =>
      have hpos : 1 ≤ (encodeScalar cp).length := by
        unfold encodeScalar
        split_ifs <;> simp
      rw [List.flatMap_cons, List.length_append, List.length_cons]
      omega

theorem two_le_length_of_canonicalize [UnicodePlatform] {entries : List (List Char16)}
    {items : List Item} (h : canonicalize entries = .ok items) :
    ∀ pat ∈ exclusionsOf items, 2 ≤ pat.length := by
  intro pat hpat
  obtain ⟨item, hitem, rfl⟩ := List.mem_map.mp hpat
  obtain ⟨rows, hrows, hform⟩ := SpellExclusionCanonicalizer.canonicalize_eq_ok.mp h
  rw [← hform.1, mem_sortUnique,
    mem_iff_of_forall₂ SpellExclusionCanonicalizer.acceptsBy_unique hrows] at hitem
  obtain ⟨entry, -, scalars, -, -, hadmissible⟩ := hitem
  have hlength := length_le_length_utf16 item
  have hmin : 2 ≤ item.scalars.length := hadmissible.min
  rw [List.length_map]
  omega

/-! ## Matching -/

section Matching

variable [WideCType]

/-- The lowercase text of the buffer. -/
def lowerText (states : List CharState) : List WChar := (composeAll states).map towlower

/-- The buffer is excluded exactly if its lowercase text starts with an exclusion. -/
def MatchesByPrefix (states : List CharState) (exclusions : List (List WChar)) : Prop :=
  isSpellExcluded states exclusions = true ↔ ∃ pat ∈ exclusions, pat <+: lowerText states

theorem buildExclusionBuf_none (states : List CharState) :
    buildExclusionBuf states none = (lowerText states).take kMaxBuf := by
  rw [lowerText, ← List.map_take]
  rfl

theorem isSpellExcluded_iff {states : List CharState} {exclusions : List (List WChar)}
    (hlong : ∀ pat ∈ exclusions, 2 ≤ pat.length) :
    isSpellExcluded states exclusions = true ↔
      ∃ pat ∈ exclusions, pat <+: lowerText states ∧ pat.length ≤ kMaxBuf := by
  unfold isSpellExcluded
  dsimp only
  rw [List.any_eq_true]
  refine exists_congr fun pat => and_congr_right fun hpat => ?_
  rw [Bool.and_eq_true, decide_eq_true_eq, and_iff_right (hlong pat hpat),
    List.isPrefixOf_iff_prefix, buildExclusionBuf_none, List.prefix_take_iff]

/-- Exclusions of more than sixteen characters are missed, unless a shorter one matches. -/
theorem matchesByPrefix_iff [UnicodePlatform] {entries : List (List Char16)} {items : List Item}
    (h : canonicalize entries = .ok items) (states : List CharState) :
    MatchesByPrefix states (exclusionsOf items) ↔
      ((∃ pat ∈ exclusionsOf items, pat <+: lowerText states ∧ kMaxBuf < pat.length) →
        ∃ pat ∈ exclusionsOf items, pat <+: lowerText states ∧ pat.length ≤ kMaxBuf) := by
  unfold MatchesByPrefix
  rw [isSpellExcluded_iff (two_le_length_of_canonicalize h)]
  constructor
  · rintro hiff ⟨pat, hpat, hprefix, -⟩
    exact hiff.mpr ⟨pat, hpat, hprefix⟩
  · refine fun hshort => ⟨fun ⟨pat, hpat, hprefix, _⟩ => ⟨pat, hpat, hprefix⟩, ?_⟩
    rintro ⟨pat, hpat, hprefix⟩
    rcases Nat.lt_or_ge kMaxBuf pat.length with hlong | hfits
    · exact hshort ⟨pat, hpat, hprefix, hlong⟩
    · exact ⟨pat, hpat, hprefix, hfits⟩

end Matching

/-- The exclusion `hđ` and a buffer that starts with it. -/
theorem matchesByPrefix_iff_hd :
    MatchesByPrefix [{ base := L 'h' }, { base := L 'd', mod := .stroke }, { base := L 't' }]
      [[L 'h', L 'đ']] := by
  let := fallbackPlatform
  have haccepted : canonicalize [[0x68, 0x111]] = .ok [⟨[0x68, 0x111], by decide⟩] := rfl
  refine (matchesByPrefix_iff haccepted _).mpr ?_
  rintro ⟨pat, hpat, -, hlong⟩
  obtain rfl := List.mem_singleton.mp hpat
  exact absurd hlong (by decide)

/-- An accepted exclusion of seventeen letters does not match the same letters in the buffer. -/
theorem not_matchesByPrefix_long :
    ∃ items, @canonicalize fallbackPlatform [List.replicate 17 0x62] = .ok items ∧
      ¬ MatchesByPrefix (List.replicate 17 { base := L 'b' }) (exclusionsOf items) := by
  refine ⟨[⟨List.replicate 17 0x62, by decide⟩], rfl, fun hiff => ?_⟩
  have hfalse : isSpellExcluded (List.replicate 17 { base := L 'b' })
      (exclusionsOf [⟨List.replicate 17 0x62, by decide⟩]) = false := by decide
  have hprefix : ∃ pat ∈ exclusionsOf [⟨List.replicate 17 0x62, by decide⟩],
      pat <+: lowerText (List.replicate 17 { base := L 'b' }) := by decide
  exact absurd (hfalse.symm.trans (hiff.mpr hprefix)) Bool.false_ne_true

end VKey
