import Mathlib.Data.List.GetD
import VKey.Engine.Phonology

/-!
# The nucleus table as a set of vowel sequences

The validator packs a nucleus into a key and searches a table of keys.  Here the keys are unpacked:
a nucleus is the list of its slots, each a base index with a modifier, and the searches are
membership in the list of nuclei.
-/

namespace VKey.Phonology

/-- A vowel slot: base index and modifier. -/
abbrev Slot := Nat × Nat

/-- The slot of a vowel. -/
def slotOf (s : CharState) : Slot := ((baseIndex s.base).getD 0, modOrdinal s.mod)

/-- The key of a list of slots. -/
def packed (slots : List Slot) : Nat := buildKey (slots.map fun p => vowelSlot p.1 p.2)

/-- The slot in a byte of a key. -/
def unpackSlot (byte : Nat) : Slot := (byte / 4, byte % 4)

/-- The slots of a key. -/
def unpacked (key : Nat) : List Slot :=
  if key / 0x1000000 = 1 then [unpackSlot (key % 0x100)]
  else if key / 0x1000000 = 2 then [unpackSlot (key / 0x100 % 0x100), unpackSlot (key % 0x100)]
  else
    [unpackSlot (key / 0x10000 % 0x100), unpackSlot (key / 0x100 % 0x100), unpackSlot (key % 0x100)]

/-- The nuclei of the table. -/
def nuclei : List (List Slot) := kVowelTable.map fun entry => unpacked entry.key

/-! ## Vowels -/

theorem modOrdinal_lt (mod : Modifier) : modOrdinal mod < 4 := by
  cases mod <;> decide

theorem baseIndex_lt {base : WChar} {i : Nat} (h : baseIndex base = some i) : i < 6 := by
  unfold baseIndex at h
  split_ifs at h <;> (obtain rfl := Option.some.inj h; decide)

theorem isSome_baseIndex {s : CharState} (h : s.isVowel = true) :
    (baseIndex s.base).isSome = true := by
  unfold CharState.isVowel at h
  simp only [Bool.or_eq_true, beq_iff_eq] at h
  rcases h with ((((h | h) | h) | h) | h) | h <;> rw [h] <;> rfl

/-- The bounds of a slot. -/
def IsSlot (p : Slot) : Prop := p.1 < 6 ∧ p.2 < 4

theorem isSlot_slotOf (s : CharState) : IsSlot (slotOf s) := by
  refine ⟨?_, modOrdinal_lt s.mod⟩
  cases h : baseIndex s.base with
  | none => simp [slotOf, h]
  | some i =>
      have hlt := baseIndex_lt h
      simpa [slotOf, h] using hlt

theorem isSlot_of_mem_map {vowels : List CharState} : ∀ p ∈ vowels.map slotOf, IsSlot p := by
  intro p hp
  obtain ⟨s, -, rfl⟩ := List.mem_map.mp hp
  exact isSlot_slotOf s

theorem slotParts_eq {vowels : List CharState} (h : ∀ s ∈ vowels, s.isVowel = true) :
    slotParts vowels = some (vowels.map slotOf) := by
  unfold slotParts
  induction vowels with
  | nil => rfl
  | cons s vowels ih =>
      obtain ⟨hs, hvowels⟩ := List.forall_mem_cons.mp h
      obtain ⟨i, hi⟩ := Option.isSome_iff_exists.mp (isSome_baseIndex hs)
      rw [List.mapM_cons, ih hvowels]
      simp [slotOf, hi]

/-! ## Keys -/

theorem vowelSlot_eq {p : Slot} (h : IsSlot p) : vowelSlot p.1 p.2 = 4 * p.1 + p.2 := by
  have hlt : p.2 < 2 ^ 2 := h.2
  rw [vowelSlot, ← Nat.shiftLeft_add_eq_or_of_lt hlt, Nat.shiftLeft_eq]
  omega

theorem key1_eq {s : Nat} (h : s < 0x100) : key1 s = 0x1000000 + s := by
  have hlt : s < 2 ^ 24 := by omega
  rw [key1, ← Nat.shiftLeft_add_eq_or_of_lt hlt, Nat.shiftLeft_eq]

theorem key2_eq {s0 s1 : Nat} (h0 : s0 < 0x100) (h1 : s1 < 0x100) :
    key2 s0 s1 = 0x2000000 + s0 * 0x100 + s1 := by
  have hlow : s0 <<< 8 ||| s1 = s0 * 0x100 + s1 := by
    have hlt : s1 < 2 ^ 8 := h1
    rw [← Nat.shiftLeft_add_eq_or_of_lt hlt, Nat.shiftLeft_eq]
  have hlt : s0 * 0x100 + s1 < 2 ^ 24 := by omega
  rw [key2, Nat.or_assoc, hlow, ← Nat.shiftLeft_add_eq_or_of_lt hlt, Nat.shiftLeft_eq]
  omega

theorem key3_eq {s0 s1 s2 : Nat} (h0 : s0 < 0x100) (h1 : s1 < 0x100) (h2 : s2 < 0x100) :
    key3 s0 s1 s2 = 0x3000000 + s0 * 0x10000 + s1 * 0x100 + s2 := by
  have hlow : s1 <<< 8 ||| s2 = s1 * 0x100 + s2 := by
    have hlt : s2 < 2 ^ 8 := h2
    rw [← Nat.shiftLeft_add_eq_or_of_lt hlt, Nat.shiftLeft_eq]
  have hmiddle : s0 <<< 16 ||| (s1 * 0x100 + s2) = s0 * 0x10000 + (s1 * 0x100 + s2) := by
    have hlt : s1 * 0x100 + s2 < 2 ^ 16 := by omega
    rw [← Nat.shiftLeft_add_eq_or_of_lt hlt, Nat.shiftLeft_eq]
  have hlt : s0 * 0x10000 + (s1 * 0x100 + s2) < 2 ^ 24 := by omega
  rw [key3, Nat.or_assoc, Nat.or_assoc, hlow, hmiddle, ← Nat.shiftLeft_add_eq_or_of_lt hlt,
    Nat.shiftLeft_eq]
  omega

theorem unpackSlot_eq {p : Slot} (h : IsSlot p) : unpackSlot (4 * p.1 + p.2) = p := by
  have hlt := h.2
  have hdiv : (4 * p.1 + p.2) / 4 = p.1 := by omega
  have hmod : (4 * p.1 + p.2) % 4 = p.2 := by omega
  rw [unpackSlot, hdiv, hmod]

/-- A key tells its slots. -/
theorem unpacked_packed {slots : List Slot} (hne : slots ≠ []) (hlength : slots.length ≤ 3)
    (h : ∀ p ∈ slots, IsSlot p) : unpacked (packed slots) = slots := by
  match slots, hne, hlength with
  | [p], _, _ =>
      have hp := h p (by simp)
      have hlt : 4 * p.1 + p.2 < 0x100 := by have := hp.1; have := hp.2; omega
      have hdiv : (0x1000000 + (4 * p.1 + p.2)) / 0x1000000 = 1 := by omega
      have hmod : (0x1000000 + (4 * p.1 + p.2)) % 0x100 = 4 * p.1 + p.2 := by omega
      rw [packed, List.map_singleton, buildKey, vowelSlot_eq hp, key1_eq hlt, unpacked, if_pos hdiv,
        hmod, unpackSlot_eq hp]
  | [p, q], _, _ =>
      have hp := h p (by simp)
      have hq := h q (by simp)
      have hltp : 4 * p.1 + p.2 < 0x100 := by have := hp.1; have := hp.2; omega
      have hltq : 4 * q.1 + q.2 < 0x100 := by have := hq.1; have := hq.2; omega
      rw [packed, List.map_cons, List.map_singleton, buildKey, vowelSlot_eq hp, vowelSlot_eq hq,
        key2_eq hltp hltq, unpacked]
      generalize hs : 4 * p.1 + p.2 = s at *
      generalize ht : 4 * q.1 + q.2 = t at *
      have hdiv : (0x2000000 + s * 0x100 + t) / 0x1000000 = 2 := by omega
      have hfirst : (0x2000000 + s * 0x100 + t) / 0x100 % 0x100 = s := by omega
      have hmod : (0x2000000 + s * 0x100 + t) % 0x100 = t := by omega
      rw [hdiv, if_neg (by decide), if_pos rfl, hfirst, hmod, ← hs, ← ht, unpackSlot_eq hp,
        unpackSlot_eq hq]
  | [p, q, r], _, _ =>
      have hp := h p (by simp)
      have hq := h q (by simp)
      have hr := h r (by simp)
      have hltp : 4 * p.1 + p.2 < 0x100 := by have := hp.1; have := hp.2; omega
      have hltq : 4 * q.1 + q.2 < 0x100 := by have := hq.1; have := hq.2; omega
      have hltr : 4 * r.1 + r.2 < 0x100 := by have := hr.1; have := hr.2; omega
      rw [packed, List.map_cons, List.map_cons, List.map_singleton, buildKey, vowelSlot_eq hp,
        vowelSlot_eq hq, vowelSlot_eq hr, key3_eq hltp hltq hltr, unpacked]
      generalize hs : 4 * p.1 + p.2 = s at *
      generalize ht : 4 * q.1 + q.2 = t at *
      generalize hu : 4 * r.1 + r.2 = u at *
      have hdiv : (0x3000000 + s * 0x10000 + t * 0x100 + u) / 0x1000000 = 3 := by omega
      have hfirst : (0x3000000 + s * 0x10000 + t * 0x100 + u) / 0x10000 % 0x100 = s := by omega
      have hsecond : (0x3000000 + s * 0x10000 + t * 0x100 + u) / 0x100 % 0x100 = t := by omega
      have hmod : (0x3000000 + s * 0x10000 + t * 0x100 + u) % 0x100 = u := by omega
      rw [hdiv, if_neg (by decide), if_neg (by decide), hfirst, hsecond, hmod, ← hs, ← ht, ← hu,
        unpackSlot_eq hp, unpackSlot_eq hq, unpackSlot_eq hr]

theorem packed_unpacked : ∀ entry ∈ kVowelTable, packed (unpacked entry.key) = entry.key := by
  decide

theorem findVowel_packed {slots : List Slot} (hne : slots ≠ []) (hlength : slots.length ≤ 3)
    (h : ∀ p ∈ slots, IsSlot p) {entry : VowelEntry}
    (hfind : findVowel (packed slots) = some entry) :
    entry ∈ kVowelTable ∧ unpacked entry.key = slots := by
  have hkey := List.find?_some hfind
  refine ⟨List.mem_of_find?_eq_some hfind, ?_⟩
  rw [beq_iff_eq] at hkey
  rw [hkey, unpacked_packed hne hlength h]

theorem isSome_findVowel_iff {slots : List Slot} (hne : slots ≠ []) (hlength : slots.length ≤ 3)
    (h : ∀ p ∈ slots, IsSlot p) : (findVowel (packed slots)).isSome = true ↔ slots ∈ nuclei := by
  constructor
  · intro hsome
    obtain ⟨entry, hentry⟩ := Option.isSome_iff_exists.mp hsome
    obtain ⟨hmem, hslots⟩ := findVowel_packed hne hlength h hentry
    exact List.mem_map.mpr ⟨entry, hmem, hslots⟩
  · intro hmem
    obtain ⟨entry, hentry, rfl⟩ := List.mem_map.mp hmem
    rw [findVowel, List.find?_isSome]
    exact ⟨entry, hentry, by simp [packed_unpacked entry hentry]⟩

/-! ## Prefixes of nuclei -/

theorem take_mem_nuclei : ∀ slots ∈ nuclei, ∀ n < 3, slots.take (n + 1) ∈ nuclei := by
  decide +kernel

theorem prefixEntry_mem_nuclei : ∀ entry ∈ kVowelTable,
    (2 ≤ entry.key >>> 24 →
      [unpackSlot (if entry.key >>> 24 = 2 then entry.key >>> 8 % 0x100
        else entry.key >>> 16 % 0x100)] ∈ nuclei) ∧
      (entry.key >>> 24 = 3 →
        [unpackSlot (entry.key >>> 8 % 0x10000 / 0x100), unpackSlot (entry.key >>> 8 % 0x100)] ∈
          nuclei) := by
  decide

/-- What starts a longer nucleus is a nucleus. -/
theorem mem_nuclei_of_isVowelPrefix {slots : List Slot} (hne : slots ≠ [])
    (hlength : slots.length ≤ 2) (h : ∀ p ∈ slots, IsSlot p)
    (hbegins : isVowelPrefix (packed slots) slots.length = true) : slots ∈ nuclei := by
  unfold isVowelPrefix at hbegins
  rw [List.any_eq_true] at hbegins
  obtain ⟨entry, hentry, htest⟩ := hbegins
  obtain ⟨hone, htwo⟩ := prefixEntry_mem_nuclei entry hentry
  match slots, hne, hlength with
  | [p], _, _ =>
      have hp := h p (by simp)
      have hlt : 4 * p.1 + p.2 < 0x100 := by have := hp.1; have := hp.2; omega
      have hpacked : packed [p] % 0x100 = 4 * p.1 + p.2 := by
        rw [packed, List.map_singleton, buildKey, vowelSlot_eq hp, key1_eq hlt]
        omega
      dsimp only [List.length_singleton] at htest
      by_cases hlong : 2 ≤ entry.key >>> 24
      · rw [if_pos ⟨rfl, hlong⟩, beq_iff_eq, hpacked] at htest
        have hmem := hone hlong
        rw [htest, unpackSlot_eq hp] at hmem
        exact hmem
      · rw [if_neg (fun hboth => hlong hboth.2), if_neg (fun hboth => absurd hboth.1 (by decide))]
          at htest
        cases htest
  | [p, q], _, _ =>
      have hp := h p (by simp)
      have hq := h q (by simp)
      have hltp : 4 * p.1 + p.2 < 0x100 := by have := hp.1; have := hp.2; omega
      have hltq : 4 * q.1 + q.2 < 0x100 := by have := hq.1; have := hq.2; omega
      have hpacked : packed [p, q] % 0x10000 = (4 * p.1 + p.2) * 0x100 + (4 * q.1 + q.2) := by
        rw [packed, List.map_cons, List.map_singleton, buildKey, vowelSlot_eq hp, vowelSlot_eq hq,
          key2_eq hltp hltq]
        omega
      dsimp only [List.length_cons, List.length_nil] at htest
      rw [if_neg (fun hboth => absurd hboth.1 (by decide))] at htest
      by_cases hlong : entry.key >>> 24 = 3
      · rw [if_pos ⟨rfl, hlong⟩, beq_iff_eq, hpacked] at htest
        have hmem := htwo hlong
        have hfirst : entry.key >>> 8 % 0x10000 / 0x100 = 4 * p.1 + p.2 := by omega
        have hsecond : entry.key >>> 8 % 0x100 = 4 * q.1 + q.2 := by omega
        rw [hfirst, hsecond, unpackSlot_eq hp, unpackSlot_eq hq] at hmem
        exact hmem
      · rw [if_neg (fun hboth => hlong hboth.2)] at htest
        cases htest

/-! ## Nuclei one modifier away -/

/-- A vowel sequence with one modifier more, or with both horns of a plain `uo` in three vowels. -/
inductive OneModifierMore (slots : List Slot) : List Slot → Prop
  | single {vi mod : Nat} (hvi : vi < slots.length) (hplain : (slots.getD vi (0, 0)).2 = kNone)
      (hpos : 0 < mod) (hlt : mod < 4) :
      OneModifierMore slots (slots.set vi ((slots.getD vi (0, 0)).1, mod))
  | pair {last : Slot} (hslots : slots = [(kU, kNone), (kO, kNone), last]) :
      OneModifierMore slots [(kU, kHorn), (kO, kHorn), last]

theorem mem_modifiedKeys {slots : List Slot} {key : Nat} :
    key ∈ modifiedKeys slots ↔ ∃ modified, OneModifierMore slots modified ∧
    key = packed modified := by
  unfold modifiedKeys
  dsimp only
  rw [List.mem_append, List.mem_flatMap]
  constructor
  · rintro (⟨vi, hvi, hkey⟩ | hkey)
    · split_ifs at hkey with hplain
      · cases hkey
      · obtain ⟨mod, hmod, rfl⟩ := List.mem_map.mp hkey
        have hbounds : 0 < mod ∧ mod < 4 := by
          simp only [List.mem_cons, List.not_mem_nil, or_false] at hmod
          omega
        exact ⟨_, .single (List.mem_range.mp hvi) (not_not.mp hplain) hbounds.1 hbounds.2, rfl⟩
    · split at hkey
      · rename_i b0 m0 b1 m1 b2 m2
        split_ifs at hkey with hpair
        · obtain ⟨rfl, rfl, rfl, rfl⟩ := hpair
          exact ⟨_, .pair rfl, List.mem_singleton.mp hkey⟩
        · cases hkey
      · cases hkey
  · rintro ⟨modified, hmodified, rfl⟩
    cases hmodified with
    | @single vi mod hvi hplain hpos hlt =>
        refine Or.inl ⟨vi, List.mem_range.mpr hvi, ?_⟩
        rw [if_neg (not_not.mpr hplain)]
        refine List.mem_map.mpr ⟨mod, ?_, rfl⟩
        simp only [List.mem_cons, List.not_mem_nil, or_false]
        omega
    | @pair last hslots =>
        subst hslots
        exact Or.inr (List.mem_singleton.mpr rfl)

theorem OneModifierMore.length_eq {slots modified : List Slot}
    (h : OneModifierMore slots modified) :
    modified.length = slots.length := by
  cases h with
  | single => rw [List.length_set]
  | pair hslots => rw [hslots]; rfl

theorem OneModifierMore.isSlot {slots modified : List Slot} (h : OneModifierMore slots modified)
    (hslots : ∀ p ∈ slots, IsSlot p) : ∀ p ∈ modified, IsSlot p := by
  cases h with
  | @single vi mod hvi hplain hpos hlt =>
      intro p hp
      rcases List.mem_or_eq_of_mem_set hp with hp | rfl
      · exact hslots p hp
      · refine ⟨?_, hlt⟩
        have hmem : slots.getD vi (0, 0) ∈ slots := by
          rw [List.getD_eq_getElem _ _ hvi]
          exact List.getElem_mem hvi
        exact (hslots _ hmem).1
  | @pair last heq =>
      subst heq
      intro p hp
      simp only [List.mem_cons, List.not_mem_nil, or_false] at hp
      rcases hp with rfl | rfl | rfl
      · exact ⟨by decide, by decide⟩
      · exact ⟨by decide, by decide⟩
      · exact hslots _ (by simp)

/-- Cutting a vowel sequence cuts what one modifier more makes of it. -/
theorem OneModifierMore.take {slots modified : List Slot} (h : OneModifierMore slots modified)
    (hmem : modified ∈ nuclei) {n : Nat} (hn : n < 3) :
    slots.take (n + 1) ∈ nuclei ∨
      ∃ cut, OneModifierMore (slots.take (n + 1)) cut ∧ cut ∈ nuclei := by
  have hcut := take_mem_nuclei _ hmem n hn
  cases h with
  | @single vi mod hvi hplain hpos hlt =>
      rw [List.take_set] at hcut
      by_cases hlong : vi < n + 1
      · refine Or.inr ⟨_, ?_, hcut⟩
        have hget : (slots.take (n + 1)).getD vi (0, 0) = slots.getD vi (0, 0) := by
          simp [List.getD, hlong]
        rw [← hget] at hplain ⊢
        exact .single (by rw [List.length_take]; omega) hplain hpos hlt
      · rw [List.set_eq_of_length_le (by rw [List.length_take]; omega)] at hcut
        exact Or.inl hcut
  | @pair last hslots =>
      subst hslots
      have hplain : ∀ n < 2, ([(kU, kNone), (kO, kNone)] : List Slot).take (n + 1) ∈ nuclei ∨
          ([(kU, kNone), (kO, kCirc)] : List Slot) ∈ nuclei ∧ n = 1 := by decide
      by_cases htwo : n < 2
      · have htake : ([(kU, kNone), (kO, kNone), last] : List Slot).take (n + 1) =
            ([(kU, kNone), (kO, kNone)] : List Slot).take (n + 1) := by
          have hlength : n + 1 ≤ ([(kU, kNone), (kO, kNone)] : List Slot).length := by
            rw [List.length_cons, List.length_singleton]
            omega
          exact @List.take_append_of_le_length _ _ [last] _ hlength
        rw [htake]
        rcases hplain n htwo with hmem | ⟨hmem, rfl⟩
        · exact Or.inl hmem
        · refine Or.inr ⟨_, ?_, hmem⟩
          exact @OneModifierMore.single [(kU, kNone), (kO, kNone)] 1 kCirc (by decide) rfl
            (by decide) (by decide)
      · have htwo : n = 2 := by omega
        subst htwo
        exact Or.inr ⟨_, .pair rfl, hcut⟩

end VKey.Phonology
