import Mathlib.Data.List.TakeWhile
import VKey.Engine.Nucleus

/-!
# Prefixes of buffers

A buffer that the validator does not reject has no rejected prefix, except that an `i` with a vowel
modifier is passed over as part of the onset `gi` but rejected as a vowel of its own.
-/

namespace VKey.Phonology

/-! ## Nuclei -/

/-- The vowels are a nucleus, or one modifier makes them one. -/
def StartsNucleus (slots : List Slot) : Prop :=
  slots ∈ nuclei ∨ ∃ modified, OneModifierMore slots modified ∧ modified ∈ nuclei

theorem StartsNucleus.take {slots : List Slot} (h : StartsNucleus slots) {n : Nat} (hn : n < 3) :
    StartsNucleus (slots.take (n + 1)) := by
  rcases h with hmem | ⟨modified, hmodified, hmem⟩
  · exact Or.inl (take_mem_nuclei slots hmem n hn)
  · exact hmodified.take hmem hn

/-- A run of one to three vowels. -/
structure IsVowelRun (vowels : List CharState) : Prop where
  vowel : ∀ s ∈ vowels, s.isVowel = true
  nonempty : vowels ≠ []
  max : vowels.length ≤ 3

namespace IsVowelRun

variable {vowels : List CharState}

theorem map_ne_nil (h : IsVowelRun vowels) : vowels.map slotOf ≠ [] := by
  simpa using h.nonempty

theorem map_length (h : IsVowelRun vowels) : (vowels.map slotOf).length ≤ 3 := by
  simpa using h.max

theorem take (h : IsVowelRun vowels) (n : Nat) : IsVowelRun (vowels.take (n + 1)) where
  vowel s hs := h.vowel s (List.mem_of_mem_take hs)
  nonempty := by
    simpa using h.nonempty
  max := Nat.le_trans (List.length_take_le' _ _) h.max

theorem isSome_findVowel_iff (h : IsVowelRun vowels) :
    (findVowel (packed (vowels.map slotOf))).isSome = true ↔ vowels.map slotOf ∈ nuclei :=
  Phonology.isSome_findVowel_iff h.map_ne_nil h.map_length isSlot_of_mem_map

/-- The search for a nucleus one modifier away. -/
theorem tryModifiedVowels_iff (h : IsVowelRun vowels) {pred : VowelEntry → Bool} :
    tryModifiedVowels vowels pred = true ↔
      ∃ modified entry, OneModifierMore (vowels.map slotOf) modified ∧
        findVowel (packed modified) = some entry ∧ pred entry = true := by
  have hlength : ¬(vowels.length < 1 ∨ 3 < vowels.length) := by
    have hpos := List.length_pos_iff.mpr h.nonempty
    have hmax := h.max
    omega
  rw [tryModifiedVowels, if_neg hlength, slotParts_eq h.vowel]
  dsimp only
  rw [List.any_eq_true]
  constructor
  · rintro ⟨key, hkey, hpred⟩
    obtain ⟨modified, hmodified, rfl⟩ := mem_modifiedKeys.mp hkey
    cases hfind : findVowel (packed modified) with
    | none => simp [hfind] at hpred
    | some entry => exact ⟨modified, entry, hmodified, hfind, by simpa [hfind] using hpred⟩
  · rintro ⟨modified, entry, hmodified, hfind, hpred⟩
    exact ⟨_, mem_modifiedKeys.mpr ⟨modified, hmodified, rfl⟩, by simpa [hfind] using hpred⟩

/-- Every vowel sequence that a modifier makes a nucleus of passes the search. -/
theorem exists_modified_iff (h : IsVowelRun vowels) :
    tryModifiedVowels vowels (fun _ => true) = true ↔
      ∃ modified, OneModifierMore (vowels.map slotOf) modified ∧ modified ∈ nuclei := by
  rw [h.tryModifiedVowels_iff]
  have hsome : ∀ modified, OneModifierMore (vowels.map slotOf) modified →
      ((findVowel (packed modified)).isSome = true ↔ modified ∈ nuclei) := by
    intro modified hmodified
    apply Phonology.isSome_findVowel_iff
    · rw [← List.length_pos_iff, hmodified.length_eq]
      exact List.length_pos_iff.mpr h.map_ne_nil
    · rw [hmodified.length_eq]
      exact h.map_length
    · exact hmodified.isSlot isSlot_of_mem_map
  constructor
  · rintro ⟨modified, entry, hmodified, hfind, -⟩
    exact ⟨modified, hmodified, (hsome modified hmodified).mp (by rw [hfind]; rfl)⟩
  · rintro ⟨modified, hmodified, hmem⟩
    obtain ⟨entry, hentry⟩ := Option.isSome_iff_exists.mp ((hsome modified hmodified).mpr hmem)
    exact ⟨modified, entry, hmodified, hentry, rfl⟩

end IsVowelRun

/-! ## Rhymes -/

/-- A rhyme: vowels, and what follows from the first other letter on. -/
structure IsRhyme (rhyme vowels coda : List CharState) : Prop where
  append : rhyme = vowels ++ coda
  run : IsVowelRun vowels
  consonant : ∀ s ∈ coda.head?, s.isVowel = false

theorem isRhyme_of_split {rhyme : List CharState} (hne : rhyme.takeWhile (·.isVowel) ≠ [])
    (hmax : (rhyme.takeWhile (·.isVowel)).length ≤ 3) :
    IsRhyme rhyme (rhyme.takeWhile (·.isVowel)) (rhyme.dropWhile (·.isVowel)) where
  append := List.takeWhile_append_dropWhile.symm
  run := ⟨fun _ hs => List.mem_takeWhile_imp hs, hne, hmax⟩
  consonant := by
    intro s hs
    have hhead := List.head?_dropWhile_not (·.isVowel) rhyme
    rw [Option.mem_def.mp hs] at hhead
    simpa using hhead

theorem IsRhyme.takeWhile_eq {rhyme vowels coda : List CharState} (h : IsRhyme rhyme vowels coda) :
    rhyme.takeWhile (·.isVowel) = vowels ∧ rhyme.dropWhile (·.isVowel) = coda := by
  have hcoda : coda.takeWhile (·.isVowel) = [] ∧ coda.dropWhile (·.isVowel) = coda := by
    cases coda with
    | nil => exact ⟨rfl, rfl⟩
    | cons s coda =>
        have hs := h.consonant s rfl
        simp [hs]
  rw [h.append, List.takeWhile_append_of_pos h.run.vowel, List.dropWhile_append_of_pos h.run.vowel,
    hcoda.1, hcoda.2, List.append_nil]
  exact ⟨rfl, rfl⟩

/-- The verdict on a rhyme. -/
theorem validateDecomposition_eq {states vowels coda : List CharState} {len : Nat}
    (h : IsRhyme (states.drop len) vowels coda) :
    validateDecomposition states len =
      match findVowel (packed (vowels.map slotOf)) with
      | some entry => validateCoda states vowels coda (packed (vowels.map slotOf)) entry
      | none =>
          if tryModifiedVowels vowels fun e =>
              coda.isEmpty ||
              (e.canEnd && parseFinalConsonant coda == coda.length) then .validPrefix
          else .invalid := by
  obtain ⟨hvowels, hcoda⟩ := h.takeWhile_eq
  have hne : (states.drop len).isEmpty = false := by
    rw [List.isEmpty_eq_false_iff, h.append]
    exact List.append_ne_nil_of_left_ne_nil h.run.nonempty coda
  have hlength : ¬(vowels.length = 0 ∨ 3 < vowels.length) := by
    have hpos := List.length_pos_iff.mpr h.run.nonempty
    have hmax := h.run.max
    omega
  unfold validateDecomposition
  dsimp only
  rw [hne, if_neg Bool.false_ne_true, hvowels, hcoda, if_neg hlength, slotParts_eq h.run.vowel]
  dsimp only
  rw [← packed]
  cases hfind : findVowel (packed (vowels.map slotOf)) with
  | some entry => rfl
  | none =>
      dsimp only
      rw [if_neg]
      rintro ⟨hmax, hbegins, -⟩
      rw [← List.length_map slotOf] at hmax hbegins
      have hmem := mem_nuclei_of_isVowelPrefix h.run.map_ne_nil hmax isSlot_of_mem_map hbegins
      have hsome := h.run.isSome_findVowel_iff.mpr hmem
      rw [hfind] at hsome
      cases hsome

/-- The rhyme of an accepted buffer starts a nucleus. -/
theorem startsNucleus_of_validateDecomposition {states vowels coda : List CharState} {len : Nat}
    (h : IsRhyme (states.drop len) vowels coda)
    (hok : validateDecomposition states len ≠ .invalid) : StartsNucleus (vowels.map slotOf) := by
  rw [validateDecomposition_eq h] at hok
  cases hfind : findVowel (packed (vowels.map slotOf)) with
  | some entry =>
      refine Or.inl (h.run.isSome_findVowel_iff.mp ?_)
      rw [hfind]
      rfl
  | none =>
      rw [hfind] at hok
      dsimp only at hok
      split_ifs at hok with htry
      · obtain ⟨modified, entry, hmodified, hentry, -⟩ := h.run.tryModifiedVowels_iff.mp htry
        refine Or.inr (h.run.exists_modified_iff.mp (h.run.tryModifiedVowels_iff.mpr ?_))
        exact ⟨modified, entry, hmodified, hentry, rfl⟩
      · exact absurd rfl hok

/-- A rhyme of vowels only that starts a nucleus is accepted. -/
theorem validateDecomposition_of_startsNucleus {states vowels : List CharState} {len : Nat}
    (h : IsRhyme (states.drop len) vowels []) (hstarts : StartsNucleus (vowels.map slotOf)) :
    validateDecomposition states len ≠ .invalid := by
  rw [validateDecomposition_eq h]
  rcases hstarts with hmem | hmodified
  · obtain ⟨entry, hentry⟩ := Option.isSome_iff_exists.mp (h.run.isSome_findVowel_iff.mpr hmem)
    rw [hentry]
    dsimp only
    unfold validateCoda
    rw [List.isEmpty_nil, if_pos rfl]
    split_ifs <;> exact fun hinvalid => SyllableState.noConfusion hinvalid
  · have htry := h.run.exists_modified_iff.mpr hmodified
    cases hfind : findVowel (packed (vowels.map slotOf)) with
    | some entry =>
        dsimp only
        unfold validateCoda
        rw [List.isEmpty_nil, if_pos rfl]
        split_ifs <;> exact fun hinvalid => SyllableState.noConfusion hinvalid
    | none =>
        dsimp only
        rw [if_pos (by simpa using htry)]
        exact fun hinvalid => SyllableState.noConfusion hinvalid

/-! ## Codas -/

namespace Final

/-- The letters of a final consonant. -/
def letters : Final → List WChar
  | .c => [L 'c']
  | .ch => [L 'c', L 'h']
  | .k => [L 'k']
  | .m => [L 'm']
  | .n => [L 'n']
  | .ng => [L 'n', L 'g']
  | .nh => [L 'n', L 'h']
  | .p => [L 'p']
  | .t => [L 't']

/-- The final consonants that one letter more makes of a final consonant. -/
def grown : Final → List Final
  | .c => [.ch]
  | .n => [.ng, .nh]
  | _ => []

/-- The stops. -/
def isStop : Final → Bool
  | .c | .ch | .k | .p | .t => true
  | _ => false

end Final

theorem isVowel_congr {s : CharState} {base : WChar} (h : s.base = base) :
    s.isVowel = CharState.isVowel { base } := by
  rw [CharState.isVowel, CharState.isVowel, h]

theorem parseFinalConsonant_le (coda : List CharState) : parseFinalConsonant coda ≤ 2 := by
  rw [parseFinalConsonant]
  split_ifs <;> decide

/-- A coda that is parsed as a whole is a final consonant. -/
theorem exists_final_of_parseFinalConsonant {coda : List CharState} (hne : coda ≠ [])
    (h : parseFinalConsonant coda = coda.length) : ∃ final : Final, bases coda = final.letters := by
  have hlength := parseFinalConsonant_le coda
  rw [h] at hlength
  match coda, hne with
  | [s], _ =>
      have hs : stateAt [s] 0 = s := rfl
      have hbase : [L 'c', L 'k', L 'm', L 'n', L 'p', L 't'].contains s.base = true := by
        by_contra hbase
        have hempty : ¬[s].length = 0 := by simp
        have hshort : ¬2 ≤ [s].length := by simp
        rw [parseFinalConsonant, hs, if_neg hempty] at h
        by_cases hvowel : s.isVowel = true
        · rw [if_pos hvowel] at h
          cases h
        · rw [if_neg hvowel, if_neg (fun hlong => hshort hlong.1), if_neg hbase] at h
          cases h
      simp only [List.contains_iff_mem, List.mem_cons, List.not_mem_nil, or_false] at hbase
      rcases hbase with hbase | hbase | hbase | hbase | hbase | hbase
      · exact ⟨.c, by simp [bases, hbase, Final.letters]⟩
      · exact ⟨.k, by simp [bases, hbase, Final.letters]⟩
      · exact ⟨.m, by simp [bases, hbase, Final.letters]⟩
      · exact ⟨.n, by simp [bases, hbase, Final.letters]⟩
      · exact ⟨.p, by simp [bases, hbase, Final.letters]⟩
      · exact ⟨.t, by simp [bases, hbase, Final.letters]⟩
  | [s0, s1], _ =>
      have hs0 : stateAt [s0, s1] 0 = s0 := rfl
      have hs1 : stateAt [s0, s1] 1 = s1 := rfl
      have hbases :
          [(L 'c', L 'h'), (L 'n', L 'g'), (L 'n', L 'h')].contains (s0.base, s1.base) = true := by
        by_contra hbases
        have hempty : ¬[s0, s1].length = 0 := by simp
        rw [parseFinalConsonant, hs0, hs1, if_neg hempty] at h
        by_cases hvowel : s0.isVowel = true
        · rw [if_pos hvowel] at h
          cases h
        · rw [if_neg hvowel, if_neg (fun hpair => hbases hpair.2.2)] at h
          split_ifs at h
          cases h
      simp only [List.contains_iff_mem, List.mem_cons, Prod.mk.injEq, List.not_mem_nil,
        or_false] at hbases
      rcases hbases with ⟨h0, h1⟩ | ⟨h0, h1⟩ | ⟨h0, h1⟩
      · exact ⟨.ch, by simp [bases, h0, h1, Final.letters]⟩
      · exact ⟨.ng, by simp [bases, h0, h1, Final.letters]⟩
      · exact ⟨.nh, by simp [bases, h0, h1, Final.letters]⟩
  | s0 :: s1 :: s2 :: coda, _ => simp at hlength

/-- What the source computes of a coda that is a final consonant. -/
theorem final_spec {coda : List CharState} {final : Final} (h : bases coda = final.letters) :
    parseFinalConsonant coda = coda.length ∧
      finalConsonantBit coda coda.length = some final ∧
      isStopFinal coda coda.length = final.isStop ∧
      (coda.length = 1 ∧ (stateAt coda 0).base = L 'k' ↔ final = .k) ∧
      (if coda.length = 1 then
        (if (stateAt coda 0).base = L 'c' then [Final.ch]
          else if (stateAt coda 0).base = L 'n' then [.ng, .nh] else [])
      else []) = final.grown := by
  cases final
  all_goals
    simp only [Final.letters, bases, List.map_eq_cons_iff, List.map_eq_nil_iff] at h
  case c | k | m | n | p | t =>
    obtain ⟨s0, rest, rfl, h0, rfl⟩ := h
    have hnext : [s0].getD 1 {} = {} := rfl
    simp only [parseFinalConsonant, finalConsonantBit, isStopFinal, stateAt, List.getD_cons_zero,
      hnext, isVowel_congr h0, h0, List.length_singleton, Final.isStop, Final.grown]
    decide
  case ch | ng | nh =>
    obtain ⟨s0, rest, rfl, h0, s1, rest', rfl, h1, rfl⟩ := h
    simp only [parseFinalConsonant, finalConsonantBit, isStopFinal, stateAt, List.getD_cons_zero,
      List.getD_cons_succ, isVowel_congr h0, isVowel_congr h1, h0, h1, List.length_cons,
      List.length_nil, Final.isStop, Final.grown]
    decide

theorem parseFinalConsonant_le_length (coda : List CharState) :
    parseFinalConsonant coda ≤ coda.length := by
  rw [parseFinalConsonant]
  split_ifs with hempty hvowel hpair <;> omega

theorem parseFinalConsonant_eq_length_iff {coda : List CharState} (hne : coda ≠ []) :
    parseFinalConsonant coda = coda.length ↔ ∃ final : Final, bases coda = final.letters := by
  constructor
  · exact exists_final_of_parseFinalConsonant hne
  · rintro ⟨final, hfinal⟩
    exact (final_spec hfinal).1

theorem Final.letters_ne_nil (final : Final) : final.letters ≠ [] := by
  cases final <;> exact List.cons_ne_nil _ _

theorem ne_nil_of_final {coda : List CharState} {final : Final} (h : bases coda = final.letters) :
    coda ≠ [] := by
  rintro rfl
  exact final.letters_ne_nil h.symm

/-- The tones that go with a stop. -/
def IsStopTone (tone : Tone) : Prop := tone = .none ∨ tone = .acute ∨ tone = .dot

instance (tone : Tone) : Decidable (IsStopTone tone) := inferInstanceAs (Decidable (_ ∨ _ ∨ _))

/-- The nucleus is `ă`, the only one that takes `k`. -/
def IsABreve (vowels : List CharState) : Prop :=
  vowels.length = 1 ∧ (stateAt vowels 0).base = L 'a' ∧ modOrdinal (stateAt vowels 0).mod = kBrev

instance (vowels : List CharState) : Decidable (IsABreve vowels) :=
  inferInstanceAs (Decidable (_ ∧ _ ∧ _))

section Coda

variable {states vowels coda : List CharState} {key : Nat} {entry : VowelEntry}

/-- The verdict on a final consonant behind a nucleus that takes one. -/
theorem validateCoda_final (hend : entry.canEnd = true) {final : Final}
    (hfinal : bases coda = final.letters) :
    validateCoda states vowels coda key entry =
      if final = .k ∧ ¬IsABreve vowels then .invalid
      else if getAllowedFinals key ≠ [] ∧ final ∉ getAllowedFinals key then
        if ∃ longer ∈ final.grown, longer ∈ getAllowedFinals key then .validPrefix else .invalid
      else if final.isStop = true ∧ ¬IsStopTone (getTone states) then .invalid
      else .valid := by
  obtain ⟨hparse, hbit, hstop, hk, hgrown⟩ := final_spec hfinal
  have hempty : coda.isEmpty = false := List.isEmpty_eq_false_iff.mpr (ne_nil_of_final hfinal)
  have hlength : ¬coda.length = 0 := by
    rw [List.length_eq_zero_iff]
    exact ne_nil_of_final hfinal
  unfold validateCoda
  dsimp only
  rw [hempty, if_neg Bool.false_ne_true, hend, if_neg (by simp), hparse, if_neg hlength,
    if_neg (Nat.lt_irrefl _), hbit, hstop, hgrown]
  have hguard : (coda.length = 1 ∧ (stateAt coda 0).base = L 'k' ∧ ¬IsABreve vowels) ↔
      final = .k ∧ ¬IsABreve vowels := by
    rw [← and_assoc, hk]
  have hallowed : ((!(getAllowedFinals key).isEmpty) = true ∧
      (some final).any (!(getAllowedFinals key).contains ·) = true) ↔
        getAllowedFinals key ≠ [] ∧ final ∉ getAllowedFinals key := by
    simp
  have hlonger : (final.grown.any (getAllowedFinals key).contains) = true ↔
      ∃ longer ∈ final.grown, longer ∈ getAllowedFinals key := by
    simp
  exact if_congr hguard rfl (if_congr hallowed (if_congr hlonger rfl rfl) rfl)

theorem validateCoda_not_final (hend : entry.canEnd = true) (hne : coda ≠ [])
    (hfinal : ¬∃ final : Final, bases coda = final.letters) :
    validateCoda states vowels coda key entry = .invalid := by
  have hempty : coda.isEmpty = false := List.isEmpty_eq_false_iff.mpr hne
  have hless : parseFinalConsonant coda < coda.length :=
    lt_of_le_of_ne (parseFinalConsonant_le_length coda)
      (mt (parseFinalConsonant_eq_length_iff hne).mp hfinal)
  unfold validateCoda
  dsimp only
  rw [hempty, if_neg Bool.false_ne_true, hend, if_neg (by simp), if_pos hless, ite_self]

theorem validateCoda_of_not_canEnd (hend : entry.canEnd = false) (hne : coda ≠ []) :
    validateCoda states vowels coda key entry =
      if tryModifiedVowels vowels fun e =>
        e.canEnd && parseFinalConsonant coda == coda.length then .validPrefix else .invalid := by
  have hempty : coda.isEmpty = false := List.isEmpty_eq_false_iff.mpr hne
  unfold validateCoda
  dsimp only
  rw [hempty, if_neg Bool.false_ne_true, hend, if_pos (by simp)]

end Coda

/-- A cut final consonant is one that the letters cut off make the final consonant of. -/
theorem Final.exists_take (final : Final) (n : Nat) :
    ∃ cut : Final, final.letters.take (n + 1) = cut.letters ∧
      (cut = final ∨ final ∈ cut.grown ∧ cut ≠ .k ∧ cut.isStop = final.isStop) := by
  have hself : ∀ final : Final, final.letters.length ≤ n + 1 → ∃ cut : Final,
      final.letters.take (n + 1) = cut.letters ∧
        (cut = final ∨ final ∈ cut.grown ∧ cut ≠ .k ∧ cut.isStop = final.isStop) :=
    fun final hlength => ⟨final, List.take_of_length_le hlength, Or.inl rfl⟩
  cases n with
  | succ n => exact hself final (by cases final <;> simp [letters])
  | zero =>
      cases final with
      | ch => exact ⟨.c, rfl, Or.inr (by decide)⟩
      | ng => exact ⟨.n, rfl, Or.inr (by decide)⟩
      | nh => exact ⟨.n, rfl, Or.inr (by decide)⟩
      | c | k | m | n | p | t => exact hself _ (Nat.le_refl 1)

theorem bases_take (coda : List CharState) (n : Nat) :
    bases (coda.take n) = (bases coda).take n := List.map_take

theorem getTone_take (states : List CharState) (n : Nat) :
    getTone (states.take n) = getTone states ∨ getTone (states.take n) = .none := by
  cases hfind : (states.take n).find? (·.hasTone) with
  | none => exact Or.inr (by rw [getTone, hfind]; rfl)
  | some s =>
      refine Or.inl ?_
      have hfull : states.find? (·.hasTone) = some s := by
        rw [← List.take_append_drop n states, List.find?_append, hfind]
        rfl
      rw [getTone, getTone, hfind, hfull]

theorem isStopTone_take {states : List CharState} (h : IsStopTone (getTone states)) (n : Nat) :
    IsStopTone (getTone (states.take n)) := by
  rcases getTone_take states n with heq | heq
  · rwa [heq]
  · exact Or.inl heq

theorem Final.grown_grown {final cut : Final} (h : final ∈ cut.grown) : final.grown = [] := by
  cases cut <;> cases final <;> simp_all [grown]

theorem parseFinalConsonant_take {coda : List CharState}
    (h : parseFinalConsonant coda = coda.length) (n : Nat) :
    parseFinalConsonant (coda.take (n + 1)) = (coda.take (n + 1)).length := by
  by_cases hne : coda = []
  · rw [hne, List.take_nil]
    rfl
  · obtain ⟨final, hfinal⟩ := (parseFinalConsonant_eq_length_iff hne).mp h
    obtain ⟨cut, hcut, -⟩ := final.exists_take n
    exact (final_spec (by rw [bases_take, hfinal, hcut])).1

theorem tryModifiedVowels_mono {vowels : List CharState} (h : IsVowelRun vowels)
    {p q : VowelEntry → Bool} (hpq : ∀ entry, p entry = true → q entry = true)
    (hp : tryModifiedVowels vowels p = true) : tryModifiedVowels vowels q = true := by
  obtain ⟨modified, entry, hmodified, hentry, hpred⟩ := h.tryModifiedVowels_iff.mp hp
  exact h.tryModifiedVowels_iff.mpr ⟨modified, entry, hmodified, hentry, hpq entry hpred⟩

/-- Cutting the coda does not make the validator reject it. -/
theorem validateCoda_take {states vowels coda : List CharState} {key : Nat} {entry : VowelEntry}
    (hrun : IsVowelRun vowels) (hne : coda ≠ [])
    (hok : validateCoda states vowels coda key entry ≠ .invalid) (m n : Nat) :
    validateCoda (states.take m) vowels (coda.take (n + 1)) key entry ≠ .invalid := by
  have hcutNe : coda.take (n + 1) ≠ [] := by
    simpa using hne
  cases hend : entry.canEnd with
  | false =>
      rw [validateCoda_of_not_canEnd hend hne] at hok
      rw [validateCoda_of_not_canEnd hend hcutNe]
      by_cases htry : tryModifiedVowels vowels (fun e =>
          e.canEnd && parseFinalConsonant coda == coda.length) = true
      · rw [if_pos]
        · exact fun hinvalid => SyllableState.noConfusion hinvalid
        · refine tryModifiedVowels_mono hrun ?_ htry
          intro e he
          rw [Bool.and_eq_true, beq_iff_eq] at he ⊢
          exact ⟨he.1, parseFinalConsonant_take he.2 n⟩
      · rw [if_neg htry] at hok
        exact absurd rfl hok
  | true =>
      by_cases hexists : ∃ final : Final, bases coda = final.letters
      · obtain ⟨final, hfinal⟩ := hexists
        obtain ⟨cut, hcut, hcases⟩ := final.exists_take n
        have hcutFinal : bases (coda.take (n + 1)) = cut.letters := by
          rw [bases_take, hfinal, hcut]
        rw [validateCoda_final hend hfinal] at hok
        rw [validateCoda_final hend hcutFinal]
        split_ifs at hok with hk hallowed hgrown hstop
        · exact absurd rfl hok
        · rcases hcases with rfl | ⟨hmem, -, -⟩
          · rw [if_neg hk, if_pos hallowed, if_pos hgrown]
            exact hok
          · obtain ⟨longer, hlonger, -⟩ := hgrown
            rw [Final.grown_grown hmem] at hlonger
            cases hlonger
        · exact absurd rfl hok
        · exact absurd rfl hok
        · have hcutStop : ¬(cut.isStop = true ∧ ¬IsStopTone (getTone (states.take m))) := by
            rintro ⟨hcutStop, htone⟩
            apply hstop
            refine ⟨?_, fun hfull => htone (isStopTone_take hfull m)⟩
            rcases hcases with rfl | ⟨-, -, hsame⟩
            · exact hcutStop
            · exact hsame ▸ hcutStop
          rcases hcases with rfl | ⟨hmem, hcutK, -⟩
          · rw [if_neg hk, if_neg hallowed, if_neg hcutStop]
            exact hok
          · rw [if_neg (fun hboth => hcutK hboth.1), if_neg hcutStop]
            split_ifs with hcutAllowed hlonger
            · exact fun hinvalid => SyllableState.noConfusion hinvalid
            · refine absurd ⟨final, hmem, ?_⟩ hlonger
              by_contra hnot
              exact hallowed ⟨hcutAllowed.1, hnot⟩
            · exact hok
      · exact absurd (validateCoda_not_final hend hne hexists) hok

/-! ## Decompositions -/

theorem validateDecomposition_nil {states : List CharState} {len : Nat}
    (h : states.drop len = []) : validateDecomposition states len = .validPrefix := by
  unfold validateDecomposition
  dsimp only
  rw [h, List.isEmpty_nil, if_pos rfl]

theorem exists_isRhyme {states : List CharState} {len : Nat} (hne : states.drop len ≠ [])
    (hok : validateDecomposition states len ≠ .invalid) :
    ∃ vowels coda, IsRhyme (states.drop len) vowels coda := by
  refine ⟨_, _, isRhyme_of_split ?_ ?_⟩ <;>
    (by_contra hbad
     apply hok
     unfold validateDecomposition
     dsimp only
     rw [if_neg (by simpa using hne), if_pos])
  · exact Or.inl (by simpa using hbad)
  · exact Or.inr (by omega)

/-- A prefix of an accepted decomposition is accepted. -/
theorem validateDecomposition_take {states : List CharState} {len : Nat}
    (hok : validateDecomposition states len ≠ .invalid) (n : Nat) :
    validateDecomposition (states.take n) len ≠ .invalid := by
  by_cases hcutNil : (states.take n).drop len = []
  · rw [validateDecomposition_nil hcutNil]
    exact fun hinvalid => SyllableState.noConfusion hinvalid
  · have hcut : (states.take n).drop len = (states.drop len).take (n - len) := List.drop_take ..
    have hne : states.drop len ≠ [] := by
      intro hnil
      rw [hcut, hnil, List.take_nil] at hcutNil
      exact hcutNil rfl
    obtain ⟨vowels, coda, hrhyme⟩ := exists_isRhyme hne hok
    have hstarts := startsNucleus_of_validateDecomposition hrhyme hok
    obtain ⟨m, hm⟩ : ∃ m, n - len = m + 1 := by
      refine Nat.exists_eq_succ_of_ne_zero fun hzero => hcutNil ?_
      rw [hcut, hzero, List.take_zero]
    by_cases hshort : m + 1 ≤ vowels.length
    · have hcutRhyme : IsRhyme ((states.take n).drop len) (vowels.take (m + 1)) [] :=
        { append := by
            rw [hcut, hm, hrhyme.append, List.take_append_of_le_length hshort, List.append_nil]
          run := hrhyme.run.take m
          consonant := by simp }
      apply validateDecomposition_of_startsNucleus hcutRhyme
      rw [List.map_take]
      have hmax := hrhyme.run.max
      exact hstarts.take (by omega)
    · have hcutRhyme : ∀ cutCoda, cutCoda = coda.take (m + 1 - vowels.length) →
          IsRhyme ((states.take n).drop len) vowels cutCoda := by
        rintro cutCoda rfl
        refine ⟨?_, hrhyme.run, ?_⟩
        · rw [hcut, hm, hrhyme.append, List.take_append, List.take_of_length_le (by omega)]
        · intro s hs
          apply hrhyme.consonant s
          rw [Option.mem_def] at hs ⊢
          rwa [List.head?_take, if_neg (by omega)] at hs
      obtain ⟨k, hk⟩ : ∃ k, m + 1 - vowels.length = k + 1 :=
        Nat.exists_eq_succ_of_ne_zero (by omega)
      cases hcoda : coda with
      | nil =>
          refine validateDecomposition_of_startsNucleus (hcutRhyme [] ?_) hstarts
          rw [hcoda, List.take_nil]
      | cons s rest =>
          have hcodaNe : coda ≠ [] := hcoda ▸ List.cons_ne_nil s rest
          have hcutEmpty : (coda.take (k + 1)).isEmpty = false := by simpa using hcodaNe
          rw [validateDecomposition_eq hrhyme] at hok
          rw [validateDecomposition_eq (hcutRhyme _ rfl), hk]
          cases hfind : findVowel (packed (vowels.map slotOf)) with
          | some entry =>
              rw [hfind] at hok
              exact validateCoda_take hrhyme.run hcodaNe hok n k
          | none =>
              rw [hfind] at hok
              dsimp only at hok ⊢
              rw [if_pos]
              · exact fun hinvalid => SyllableState.noConfusion hinvalid
              · by_contra htry
                refine hok (if_neg fun hfull => htry ?_)
                refine tryModifiedVowels_mono hrhyme.run ?_ hfull
                intro e he
                rw [List.isEmpty_eq_false_iff.mpr hcodaNe, Bool.false_or, Bool.and_eq_true,
                  beq_iff_eq] at he
                rw [hcutEmpty, Bool.false_or, Bool.and_eq_true, beq_iff_eq]
                exact ⟨he.1, parseFinalConsonant_take he.2 k⟩

/-! ## Onsets -/

theorem stateAt_take {states : List CharState} {n i : Nat} (h : i < n) :
    stateAt (states.take n) i = stateAt states i := by
  rw [stateAt, stateAt, List.getD_eq_getElem?_getD, List.getD_eq_getElem?_getD,
    List.getElem?_take_of_lt h]

theorem isD_not_vowel {s : CharState} (h : s.isD = true) : s.isVowel = false := by
  rw [CharState.isD, beq_iff_eq] at h
  rw [isVowel_congr h]
  decide

theorem parseInitialConsonant_of_vowel {states : List CharState} {allowZwjf : Bool}
    (h : (stateAt states 0).isVowel = true) : parseInitialConsonant states allowZwjf = 0 := by
  have hstroke : isStrokeD (stateAt states 0) = false := by
    cases hd : (stateAt states 0).isD with
    | false => simp [isStrokeD, hd]
    | true =>
        rw [isD_not_vowel hd] at h
        cases h
  rw [parseInitialConsonant, hstroke, h, if_neg Bool.false_ne_true, if_pos rfl, ite_self]

theorem parseInitialConsonant_of_plainD {states : List CharState} {allowZwjf : Bool}
    (hne : states.length ≠ 0) (hd : (stateAt states 0).isD = true)
    (hvowel : (stateAt states 0).isVowel = false) : parseInitialConsonant states allowZwjf ≠ 0 := by
  have hbase : (stateAt states 0).base = L 'd' := by
    simpa [CharState.isD] using hd
  have hinitial : isInitialConsonant allowZwjf (stateAt states 0).base = true := by
    rw [hbase]
    cases allowZwjf <;> rfl
  have hnot : ¬(stateAt states 0).isVowel = true := by
    rw [hvowel]
    exact Bool.false_ne_true
  rw [parseInitialConsonant, if_neg hne, if_neg hnot, if_pos hinitial]
  split_ifs <;> decide

theorem parseInitialConsonant_le_length (states : List CharState) (allowZwjf : Bool) :
    parseInitialConsonant states allowZwjf ≤ states.length := by
  rw [parseInitialConsonant]
  split_ifs <;> omega

theorem lt_length_of_isVowel {states : List CharState} {i : Nat}
    (h : (stateAt states i).isVowel = true) : i < states.length := by
  by_contra hlong
  rw [stateAt, List.getD_eq_getElem?_getD, List.getElem?_eq_none (by omega)] at h
  cases h

/-- The verdict on a buffer, with no special case for `d`. -/
theorem validateImpl_eq (states : List CharState) (allowZwjf : Bool) :
    validateImpl states allowZwjf =
      if states.length = 0 then .validPrefix
      else if parseInitialConsonant states allowZwjf = 0 ∧ (stateAt states 0).isVowel = false then
        .invalid
      else if 0 < parseInitialConsonant states allowZwjf ∧
          (stateAt states (parseInitialConsonant states allowZwjf)).isVowel = false then
        (if isValidConsonantPrefix states allowZwjf then .validPrefix else .invalid)
      else if violatesOnsetVowelRule states (parseInitialConsonant states allowZwjf) = true ∨
          violatesOeOaRule states (parseInitialConsonant states allowZwjf) = true then .invalid
      else validateDual states
        (validateDecomposition states (parseInitialConsonant states allowZwjf)) := by
  have hle := parseInitialConsonant_le_length states allowZwjf
  have hplain : states.length ≠ 0 → ¬(parseInitialConsonant states allowZwjf = 0 ∧
      (!(stateAt states 0).isVowel) = true ∧
        ((stateAt states 0).isD && (stateAt states 0).mod == .none) = true) := by
    rintro hne ⟨hzero, hvowel, hd⟩
    rw [Bool.and_eq_true] at hd
    exact parseInitialConsonant_of_plainD hne hd.1 (by simpa using hvowel) hzero
  unfold validateImpl
  dsimp only
  generalize parseInitialConsonant states allowZwjf = len at *
  by_cases hne : states.length = 0
  · rw [if_pos hne, if_pos hne]
  · rw [if_neg hne, if_neg hne, if_neg (hplain hne)]
    by_cases hstart : len = 0 ∧ (stateAt states 0).isVowel = false
    · rw [if_pos hstart, if_pos]
      refine ⟨hstart.1, by simp [hstart.2], ?_⟩
      by_contra hd
      exact hplain hne ⟨hstart.1, by simp [hstart.2], by simpa using hd⟩
    · rw [if_neg hstart, if_neg (fun hall => hstart ⟨hall.1, by simpa using hall.2.1⟩)]
      by_cases honset : 0 < len ∧ (stateAt states len).isVowel = false
      · rw [if_pos honset]
        by_cases hall : len = states.length
        · rw [if_pos ⟨honset.1, hall⟩]
        · rw [if_neg (fun hboth => hall hboth.2), if_pos ⟨honset.1, by omega, by simp [honset.2]⟩]
      · have hvowel : (stateAt states len).isVowel = true := by
          by_contra hnot
          rw [Bool.not_eq_true] at hnot
          by_cases hzero : len = 0
          · exact hstart ⟨hzero, hzero ▸ hnot⟩
          · exact honset ⟨Nat.pos_of_ne_zero hzero, hnot⟩
        have hlt := lt_length_of_isVowel hvowel
        rw [if_neg honset, if_neg (fun hboth => absurd hboth.2 (Nat.ne_of_lt hlt)),
          if_neg (fun hall => by simp [hvowel] at hall)]
        simp only [hlt, hvowel, true_and]

/-! ## Consonant prefixes -/

/-- The onsets of two letters. -/
abbrev pairOnsets : List (WChar × WChar) :=
  [(L 'c', L 'h'), (L 'g', L 'h'), (L 'k', L 'h'), (L 'n', L 'g'), (L 'n', L 'h'), (L 'p', L 'h'),
    (L 't', L 'h'), (L 't', L 'r')]

/-- The buffers of consonants that start a syllable. -/
inductive IsOnset (allowZwjf : Bool) : List CharState → Prop
  | nil : IsOnset allowZwjf []
  | single {s : CharState} (hvowel : s.isVowel = false)
      (h : isInitialConsonant allowZwjf s.base = true ∨ isStrokeD s = true) : IsOnset allowZwjf [s]
  | pair {s0 s1 : CharState} (h : (s0.base, s1.base) ∈ pairOnsets) : IsOnset allowZwjf [s0, s1]
  | ngh {s0 s1 s2 : CharState} (h0 : s0.base = L 'n') (h1 : s1.base = L 'g')
      (h2 : s2.base = L 'h') :
      IsOnset allowZwjf [s0, s1, s2]

theorem not_vowel_of_pairOnsets {s0 s1 : CharState} (h : (s0.base, s1.base) ∈ pairOnsets) :
    s0.isVowel = false ∧ s1.isVowel = false := by
  simp only [List.mem_cons, Prod.mk.injEq, List.not_mem_nil, or_false] at h
  rcases h with ⟨h0, h1⟩ | ⟨h0, h1⟩ | ⟨h0, h1⟩ | ⟨h0, h1⟩ | ⟨h0, h1⟩ | ⟨h0, h1⟩ | ⟨h0, h1⟩ |
    ⟨h0, h1⟩ <;> (rw [isVowel_congr h0, isVowel_congr h1]; decide)

theorem isValidConsonantPrefix_iff {states : List CharState} {allowZwjf : Bool} :
    isValidConsonantPrefix states allowZwjf = true ↔ IsOnset allowZwjf states := by
  match states with
  | [] => exact ⟨fun _ => .nil, fun _ => rfl⟩
  | [s] =>
      have hbegins : isValidConsonantPrefix [s] allowZwjf = true ↔
          s.isVowel = false ∧
            (isInitialConsonant allowZwjf s.base = true ∨ isStrokeD s = true) := by
        simp [isValidConsonantPrefix, stateAt]
      rw [hbegins]
      constructor
      · rintro ⟨hvowel, h⟩
        exact .single hvowel h
      · intro h
        cases h with
        | single hvowel h => exact ⟨hvowel, h⟩
  | [s0, s1] =>
      have hbegins : isValidConsonantPrefix [s0, s1] allowZwjf = true ↔
          (s0.isVowel = false ∧ s1.isVowel = false) ∧ (s0.base, s1.base) ∈ pairOnsets := by
        simp [isValidConsonantPrefix, stateAt]
      rw [hbegins]
      constructor
      · rintro ⟨-, h⟩
        exact .pair h
      · intro h
        cases h with
        | pair h => exact ⟨not_vowel_of_pairOnsets h, h⟩
  | [s0, s1, s2] =>
      have hbegins : isValidConsonantPrefix [s0, s1, s2] allowZwjf = true ↔
          (((s0.base = L 'n' ∧ s1.base = L 'g' ∧ s2.base = L 'h') ∧ s0.isVowel = false) ∧
            s1.isVowel = false) ∧ s2.isVowel = false := by
        simp [isValidConsonantPrefix, stateAt]
      rw [hbegins]
      constructor
      · rintro ⟨⟨⟨⟨h0, h1, h2⟩, -⟩, -⟩, -⟩
        exact .ngh h0 h1 h2
      · intro h
        cases h with
        | ngh h0 h1 h2 =>
            rw [isVowel_congr h0, isVowel_congr h1, isVowel_congr h2]
            exact ⟨⟨⟨⟨h0, h1, h2⟩, by decide⟩, by decide⟩, by decide⟩
  | s0 :: s1 :: s2 :: s3 :: states =>
      have hbegins : isValidConsonantPrefix (s0 :: s1 :: s2 :: s3 :: states) allowZwjf = false := by
        simp [isValidConsonantPrefix, stateAt]
      rw [hbegins]
      constructor
      · exact fun h => Bool.noConfusion h
      · intro h
        cases h

theorem IsOnset.take {states : List CharState} {allowZwjf : Bool} (h : IsOnset allowZwjf states)
    (n : Nat) : IsOnset allowZwjf (states.take n) := by
  have hinitial : ∀ base ∈ [L 'c', L 'g', L 'k', L 'n', L 'p', L 't'],
      isInitialConsonant allowZwjf base = true := by
    cases allowZwjf <;> decide
  match n, h with
  | 0, _ => exact .nil
  | n + 1, .nil => exact .nil
  | n + 1, .single hvowel h =>
      rw [List.take_of_length_le (by simp)]
      exact .single hvowel h
  | 1, .pair h =>
      refine .single (not_vowel_of_pairOnsets h).1 (Or.inl (hinitial _ ?_))
      simp only [List.mem_cons, Prod.mk.injEq, List.not_mem_nil, or_false] at h ⊢
      tauto
  | n + 2, .pair h =>
      rw [List.take_of_length_le (by simp)]
      exact .pair h
  | 1, .ngh h0 _ _ =>
      refine .single (by rw [isVowel_congr h0]; decide) (Or.inl (hinitial _ ?_))
      rw [h0]
      decide
  | 2, .ngh h0 h1 _ =>
      refine .pair ?_
      rw [h0, h1]
      decide
  | n + 3, .ngh h0 h1 h2 =>
      rw [List.take_of_length_le (by simp)]
      exact .ngh h0 h1 h2

theorem take_one {states : List CharState} (h : 1 ≤ states.length) :
    states.take 1 = [stateAt states 0] := by
  match states, h with
  | _ :: _, _ => rfl

theorem take_two {states : List CharState} (h : 2 ≤ states.length) :
    states.take 2 = [stateAt states 0, stateAt states 1] := by
  match states, h with
  | _ :: _ :: _, _ => rfl

theorem take_three {states : List CharState} (h : 3 ≤ states.length) :
    states.take 3 = [stateAt states 0, stateAt states 1, stateAt states 2] := by
  match states, h with
  | _ :: _ :: _ :: _, _ => rfl

/-- The parsed onset is one, if a vowel follows it. -/
theorem isOnset_take_parseInitialConsonant {states : List CharState} {allowZwjf : Bool}
    (hvowel : (stateAt states (parseInitialConsonant states allowZwjf)).isVowel = true) :
    IsOnset allowZwjf (states.take (parseInitialConsonant states allowZwjf)) := by
  have hlt := lt_length_of_isVowel hvowel
  unfold parseInitialConsonant at hvowel hlt ⊢
  dsimp only at hvowel hlt ⊢
  split_ifs at hvowel hlt ⊢ with hempty hstroke hfirst hngh hpair hinitial
  · exact .nil
  · rw [take_one (by omega)]
    refine .single (isD_not_vowel ?_) (Or.inr hstroke)
    rw [isStrokeD, Bool.and_eq_true] at hstroke
    exact hstroke.1
  · exact .nil
  · rw [take_three (by omega)]
    exact .ngh hngh.2.1 hngh.2.2.1 hngh.2.2.2.1
  · rw [take_two (by omega)]
    obtain ⟨-, hsecond, -, hbases⟩ := hpair
    refine .pair ?_
    have hsecond : (stateAt states 1).isVowel = false := by simpa using hsecond
    have hi : (stateAt states 1).base ≠ L 'i' := by
      intro hbase
      rw [isVowel_congr hbase] at hsecond
      cases hsecond
    have hu : (stateAt states 1).base ≠ L 'u' := by
      intro hbase
      rw [isVowel_congr hbase] at hsecond
      cases hsecond
    -- `gi` and `qu` end in a vowel
    exact List.mem_filter (p := fun p => p.2 != L 'i' && p.2 != L 'u') |>.mpr
      ⟨List.contains_iff_mem.mp hbases, by simp [hi, hu]⟩
  · rw [take_one (by omega)]
    exact .single (Bool.eq_false_iff.mpr hfirst) (Or.inl hinitial)
  · exact .nil

theorem length_take_of_lt (states : List CharState) {k n : Nat} (h : k < n) :
    k + 1 ≤ (states.take n).length ↔ k + 1 ≤ states.length := by
  rw [List.length_take]
  omega

theorem parseInitialConsonant_of_second_vowel {states : List CharState} {allowZwjf : Bool}
    (h : (stateAt states 1).isVowel = true) :
    parseInitialConsonant states allowZwjf =
      if isStrokeD (stateAt states 0) then 1
      else if (stateAt states 0).isVowel then 0
      else if isInitialConsonant allowZwjf (stateAt states 0).base then 1
      else 0 := by
  have hlength : ¬states.length = 0 := by
    have hlt := lt_length_of_isVowel h
    omega
  rw [parseInitialConsonant, if_neg hlength]
  simp only [h, Bool.not_true, Bool.false_eq_true, false_and, and_false, if_false]

/-- A prefix beyond the onset has the same onset, if a vowel follows it. -/
theorem parseInitialConsonant_take {states : List CharState} {allowZwjf : Bool} {n : Nat}
    (hvowel : (stateAt states (parseInitialConsonant states allowZwjf)).isVowel = true)
    (hn : parseInitialConsonant states allowZwjf < n) :
    parseInitialConsonant (states.take n) allowZwjf = parseInitialConsonant states allowZwjf := by
  have h0 : stateAt (states.take n) 0 = stateAt states 0 := stateAt_take (by omega)
  by_cases hlong : 2 < n
  · have h1 : stateAt (states.take n) 1 = stateAt states 1 := stateAt_take (by omega)
    have h2 : stateAt (states.take n) 2 = stateAt states 2 := stateAt_take hlong
    have hlength : (states.take n).length = 0 ↔ states.length = 0 := by
      rw [List.length_take]
      omega
    have htwo := length_take_of_lt states (k := 1) (n := n) (by omega)
    have hthree := length_take_of_lt states (k := 2) (n := n) hlong
    unfold parseInitialConsonant
    simp only [h0, h1, h2, hlength, htwo, hthree]
  · rcases Nat.eq_zero_or_pos (parseInitialConsonant states allowZwjf) with hzero | hpos
    · rw [hzero] at hvowel ⊢
      exact parseInitialConsonant_of_vowel (h0 ▸ hvowel)
    · have hone : parseInitialConsonant states allowZwjf = 1 := by omega
      rw [hone] at hvowel hn
      have h1 : stateAt (states.take n) 1 = stateAt states 1 := stateAt_take hn
      rw [parseInitialConsonant_of_second_vowel (h1 ▸ hvowel), h0,
        ← parseInitialConsonant_of_second_vowel hvowel]

theorem violatesOnsetVowelRule_take {states : List CharState} {len n : Nat} (h : len < n) :
    violatesOnsetVowelRule (states.take n) len = violatesOnsetVowelRule states len := by
  have hlen : stateAt (states.take n) len = stateAt states len := stateAt_take h
  have h0 : stateAt (states.take n) 0 = stateAt states 0 := stateAt_take (by omega)
  unfold violatesOnsetVowelRule
  dsimp only
  split_ifs with hone htwo hthree
  · rw [hlen, h0]
  · have h1 : stateAt (states.take n) 1 = stateAt states 1 := stateAt_take (by omega)
    rw [hlen, h0, h1]
  · have h1 : stateAt (states.take n) 1 = stateAt states 1 := stateAt_take (by omega)
    have h2 : stateAt (states.take n) 2 = stateAt states 2 := stateAt_take (by omega)
    rw [hlen, h0, h1, h2]
  · rfl

theorem violatesOeOaRule_take {states : List CharState} {len n : Nat} (h : len < n)
    (hok : violatesOeOaRule states len = false) : violatesOeOaRule (states.take n) len = false := by
  by_cases hlong : len + 1 < (states.take n).length
  · rw [List.length_take] at hlong
    have hlen : stateAt (states.take n) len = stateAt states len := stateAt_take h
    have hnext : stateAt (states.take n) (len + 1) = stateAt states (len + 1) :=
      stateAt_take (by omega)
    have h0 : stateAt (states.take n) 0 = stateAt states 0 := stateAt_take (by omega)
    have h1 : stateAt (states.take n) 1 = stateAt states 1 := stateAt_take (by omega)
    have hlength := length_take_of_lt states (k := len + 1) (n := n) (by omega)
    unfold violatesOeOaRule at hok ⊢
    rw [hlen, hnext, h0, h1]
    simp only [Nat.lt_iff_add_one_le, hlength] at hok ⊢
    exact hok
  · unfold violatesOeOaRule
    dsimp only
    rw [if_neg (fun hall => hlong hall.1)]

/-! ## Buffers -/

theorem improve_ne_invalid {result better : SyllableState} :
    result.improve better ≠ .invalid ↔ result ≠ .invalid ∨ better ≠ .invalid := by
  cases result <;> cases better <;> decide

/-- The buffer is an onset `g` and an `i` with a vowel modifier. -/
def IsMarkedGi (states : List CharState) : Prop :=
  states.length = 2 ∧ (stateAt states 0).base = L 'g' ∧ (stateAt states 1).base = L 'i' ∧
    modOrdinal (stateAt states 1).mod ≠ kNone

instance (states : List CharState) : Decidable (IsMarkedGi states) :=
  inferInstanceAs (Decidable (_ ∧ _ ∧ _ ∧ _))

/-- The buffer begins with `gi`. -/
def StartsGi (states : List CharState) : Prop :=
  2 ≤ states.length ∧ (stateAt states 0).base = L 'g' ∧ (stateAt states 1).base = L 'i'

/-- The buffer begins with `qu`. -/
def StartsQu (states : List CharState) : Prop :=
  2 ≤ states.length ∧ (stateAt states 0).base = L 'q' ∧ (stateAt states 1).base = L 'u'

/-- The letter behind `gi` or `qu` is a vowel. -/
def followedByVowel (states : List CharState) : Bool :=
  decide (2 < states.length) && (stateAt states 2).isVowel

theorem validateDual_gi {states : List CharState} (h : StartsGi states) (result : SyllableState)
    (hresult : result = validateDecomposition states 1) :
    validateDual states result ≠ .invalid ↔ validateDecomposition states 1 ≠ .invalid ∨
      followedByVowel states = true ∧ validateDecomposition states 2 ≠ .invalid := by
  have hvowel : (stateAt states 1).isVowel = true := by
    rw [isVowel_congr h.2.2]
    decide
  unfold validateDual
  dsimp only
  rw [if_pos ⟨h.1, h.2.1, h.2.2, hvowel⟩, hresult, ← followedByVowel]
  cases followedByVowel states <;> cases validateDecomposition states 1 <;>
    cases validateDecomposition states 2 <;> decide

theorem validateDual_qu {states : List CharState} (h : StartsQu states) (result : SyllableState) :
    validateDual states result ≠ .invalid ↔ states.length = 2 ∨ result ≠ .invalid ∨
      followedByVowel states = true ∧ validateDecomposition states 2 ≠ .invalid := by
  have hgi : ¬(2 ≤ states.length ∧ (stateAt states 0).base = L 'g' ∧
      (stateAt states 1).base = L 'i' ∧ (stateAt states 1).isVowel = true) := by
    rintro ⟨-, hbase, -⟩
    rw [h.2.1] at hbase
    revert hbase
    decide
  unfold validateDual
  dsimp only
  rw [if_neg hgi, if_pos ⟨h.1, h.2.1, h.2.2⟩, ← followedByVowel]
  by_cases hlength : states.length = 2
  · have hnone : followedByVowel states = false := by
      rw [followedByVowel, hlength]
      rfl
    simp [hnone, hlength]
  · cases hnext : followedByVowel states with
    | true =>
        rw [if_pos rfl, improve_ne_invalid]
        simp [hlength]
    | false =>
        rw [if_neg Bool.false_ne_true, if_neg hlength]
        simp [hlength]

theorem validateDual_other {states : List CharState} (hgi : ¬StartsGi states)
    (hqu : ¬StartsQu states) (result : SyllableState) : validateDual states result = result := by
  unfold validateDual
  dsimp only
  rw [if_neg (fun hall => hgi ⟨hall.1, hall.2.1, hall.2.2.1⟩),
    if_neg (fun hall => hqu ⟨hall.1, hall.2.1, hall.2.2⟩)]

theorem parseInitialConsonant_of_startsGi {states : List CharState} {allowZwjf : Bool}
    (h : StartsGi states) : parseInitialConsonant states allowZwjf = 1 := by
  have hfirst : isStrokeD (stateAt states 0) = false := by
    rw [isStrokeD, CharState.isD, h.2.1]
    rfl
  rw [parseInitialConsonant_of_second_vowel (by rw [isVowel_congr h.2.2]; decide), hfirst,
    isVowel_congr h.2.1, h.2.1]
  cases allowZwjf <;> decide

theorem parseInitialConsonant_of_startsQu {states : List CharState} {allowZwjf : Bool}
    (h : StartsQu states) : parseInitialConsonant states allowZwjf = 1 := by
  have hfirst : isStrokeD (stateAt states 0) = false := by
    rw [isStrokeD, CharState.isD, h.2.1]
    rfl
  rw [parseInitialConsonant_of_second_vowel (by rw [isVowel_congr h.2.2]; decide), hfirst,
    isVowel_congr h.2.1, h.2.1]
  cases allowZwjf <;> decide

/-- An onset is parsed as a whole. -/
theorem IsOnset.parseInitialConsonant_eq {states : List CharState} {allowZwjf : Bool}
    (h : IsOnset allowZwjf states) : parseInitialConsonant states allowZwjf = states.length := by
  cases h with
  | nil => rfl
  | @single s hvowel h =>
      have hs : stateAt [s] 0 = s := rfl
      have hshort : ¬3 ≤ [s].length ∧ ¬2 ≤ [s].length ∧ ¬[s].length = 0 := by simp
      rw [parseInitialConsonant, hs, if_neg hshort.2.2]
      simp only [hvowel, hshort.1, hshort.2.1, Bool.false_eq_true, false_and, if_false]
      rcases h with h | h
      · rw [if_pos h, ite_self]
        rfl
      · rw [if_pos h]
        rfl
  | @pair s0 s1 h =>
      have hs0 : stateAt [s0, s1] 0 = s0 := rfl
      have hs1 : stateAt [s0, s1] 1 = s1 := rfl
      simp only [List.mem_cons, Prod.mk.injEq, List.not_mem_nil, or_false] at h
      rcases h with ⟨h0, h1⟩ | ⟨h0, h1⟩ | ⟨h0, h1⟩ | ⟨h0, h1⟩ | ⟨h0, h1⟩ | ⟨h0, h1⟩ | ⟨h0, h1⟩ |
        ⟨h0, h1⟩ <;>
        (simp only [parseInitialConsonant, isStrokeD, CharState.isD, hs0, hs1, isVowel_congr h0,
          isVowel_congr h1, h0, h1, List.length_cons, List.length_nil]
         rfl)
  | @ngh s0 s1 s2 h0 h1 h2 =>
      have hs0 : stateAt [s0, s1, s2] 0 = s0 := rfl
      have hs1 : stateAt [s0, s1, s2] 1 = s1 := rfl
      have hs2 : stateAt [s0, s1, s2] 2 = s2 := rfl
      simp only [parseInitialConsonant, isStrokeD, CharState.isD, hs0, hs1, hs2, isVowel_congr h0,
        isVowel_congr h1, isVowel_congr h2, h0, h1, h2, List.length_cons, List.length_nil]
      rfl

theorem IsOnset.not_vowel {states : List CharState} {allowZwjf : Bool}
    (h : IsOnset allowZwjf states) :
    (stateAt states (parseInitialConsonant states allowZwjf)).isVowel = false := by
  by_contra hvowel
  rw [Bool.not_eq_false] at hvowel
  have hlt := lt_length_of_isVowel hvowel
  rw [h.parseInitialConsonant_eq] at hlt
  exact Nat.lt_irrefl _ hlt

/-- An accepted buffer is an onset, or an onset and a rhyme. -/
theorem validateImpl_ne_invalid_iff {states : List CharState} {allowZwjf : Bool} :
    validateImpl states allowZwjf ≠ .invalid ↔ IsOnset allowZwjf states ∨
      (stateAt states (parseInitialConsonant states allowZwjf)).isVowel = true ∧
        violatesOnsetVowelRule states (parseInitialConsonant states allowZwjf) = false ∧
        violatesOeOaRule states (parseInitialConsonant states allowZwjf) = false ∧
        validateDual states
          (validateDecomposition states (parseInitialConsonant states allowZwjf)) ≠ .invalid := by
  have honset : IsOnset allowZwjf states → states.length ≠ 0 →
      0 < parseInitialConsonant states allowZwjf := by
    intro h hne
    rw [h.parseInitialConsonant_eq]
    exact Nat.pos_of_ne_zero hne
  rw [validateImpl_eq]
  by_cases hempty : states.length = 0
  · rw [if_pos hempty, List.length_eq_zero_iff.mp hempty]
    exact ⟨fun _ => Or.inl .nil, fun _ hinvalid => SyllableState.noConfusion hinvalid⟩
  · rw [if_neg hempty]
    cases hvowel : (stateAt states (parseInitialConsonant states allowZwjf)).isVowel with
    | false =>
        by_cases hstart : parseInitialConsonant states allowZwjf = 0 ∧
            (stateAt states 0).isVowel = false
        · rw [if_pos hstart]
          constructor
          · exact fun h => absurd rfl h
          · rintro (h | ⟨h, -⟩)
            · exact absurd hstart.1 (Nat.ne_of_gt (honset h hempty))
            · cases h
        · have hpos : 0 < parseInitialConsonant states allowZwjf := by
            refine Nat.pos_of_ne_zero fun hzero => hstart ⟨hzero, ?_⟩
            rw [← hzero]
            exact hvowel
          rw [if_neg hstart, if_pos ⟨hpos, rfl⟩]
          by_cases hbegins : isValidConsonantPrefix states allowZwjf = true
          · rw [if_pos hbegins]
            exact ⟨fun _ => Or.inl (isValidConsonantPrefix_iff.mp hbegins),
              fun _ hinvalid => SyllableState.noConfusion hinvalid⟩
          · rw [if_neg hbegins]
            constructor
            · exact fun h => absurd rfl h
            · rintro (h | ⟨h, -⟩)
              · exact absurd (isValidConsonantPrefix_iff.mpr h) hbegins
              · cases h
    | true =>
        have hnotOnset : ¬IsOnset allowZwjf states := by
          intro h
          rw [h.not_vowel] at hvowel
          cases hvowel
        rw [if_neg, if_neg (fun hboth => Bool.noConfusion hboth.2)]
        · cases violatesOnsetVowelRule states (parseInitialConsonant states allowZwjf) <;>
            cases violatesOeOaRule states (parseInitialConsonant states allowZwjf) <;>
            simp [hnotOnset]
        · rintro ⟨hzero, hfirst⟩
          rw [hzero, hfirst] at hvowel
          cases hvowel

/-! ## Prefix closure -/

theorem followedByVowel_take {states : List CharState} {n : Nat} (h : 2 < n) :
    followedByVowel (states.take n) = followedByVowel states := by
  rw [followedByVowel, followedByVowel, stateAt_take h]
  congr 1
  rw [List.length_take, decide_eq_decide]
  omega

/-- The slot of an `i` starts a nucleus only without a modifier. -/
theorem startsNucleus_i_iff {mod : Nat} (h : mod < 4) :
    StartsNucleus [(kI, mod)] ↔ mod = kNone := by
  constructor
  · rintro (hmem | ⟨modified, hmodified, hmem⟩)
    · match mod, h with
      | 0, _ => rfl
      | 1, _ | 2, _ | 3, _ => exact absurd hmem (by decide)
    · cases hmodified with
      | @single vi mod' hvi hplain hpos hlt =>
          obtain rfl : vi = 0 := by simpa using hvi
          exact hplain
      | pair hslots => simp at hslots
  · rintro rfl
    exact Or.inl (by decide)

theorem isRhyme_gi {states : List CharState} (h : StartsGi states) (hlength : states.length = 2) :
    IsRhyme (states.drop 1) [stateAt states 1] [] where
  append := by
    match states, hlength with
    | [_, _], _ => rfl
  run :=
    { vowel := by
        intro s hs
        rw [List.mem_singleton.mp hs, isVowel_congr h.2.2]
        decide
      nonempty := List.cons_ne_nil _ _
      max := by simp }
  consonant := by simp

theorem map_slotOf_gi {states : List CharState} (h : StartsGi states) :
    [stateAt states 1].map slotOf = [(kI, modOrdinal (stateAt states 1).mod)] := by
  rw [List.map_singleton, slotOf, h.2.2]
  rfl

theorem validateDecomposition_gi {states : List CharState} (h : StartsGi states)
    (hlength : states.length = 2) :
    validateDecomposition states 1 = .invalid ↔ IsMarkedGi states := by
  have hrhyme := isRhyme_gi h hlength
  have hmarked : IsMarkedGi states ↔ modOrdinal (stateAt states 1).mod ≠ kNone :=
    ⟨fun hgi => hgi.2.2.2, fun hmod => ⟨hlength, h.2.1, h.2.2, hmod⟩⟩
  rw [hmarked, ← not_iff_not, not_not, ← startsNucleus_i_iff (modOrdinal_lt _), ← map_slotOf_gi h]
  exact ⟨startsNucleus_of_validateDecomposition hrhyme,
    validateDecomposition_of_startsNucleus hrhyme⟩

theorem IsMarkedGi.startsGi {states : List CharState} (h : IsMarkedGi states) : StartsGi states :=
  ⟨Nat.le_of_eq h.1.symm, h.2.1, h.2.2.1⟩

theorem IsOnset.not_startsGi {states : List CharState} {allowZwjf : Bool}
    (h : IsOnset allowZwjf states) : ¬StartsGi states := by
  intro hgi
  have hvowel := h.not_vowel
  rw [parseInitialConsonant_of_startsGi hgi, isVowel_congr hgi.2.2] at hvowel
  revert hvowel
  decide

theorem IsOnset.validateImpl_eq_invalid_iff {states : List CharState} {allowZwjf : Bool}
    (h : IsOnset allowZwjf states) :
    validateImpl states allowZwjf = .invalid ↔ IsMarkedGi states :=
  iff_of_false (validateImpl_ne_invalid_iff.mpr (Or.inl h)) fun hgi => h.not_startsGi hgi.startsGi

theorem startsGi_take {states : List CharState} {n : Nat} (h : 2 ≤ n) :
    StartsGi (states.take n) ↔ StartsGi states := by
  rw [StartsGi, StartsGi, stateAt_take (by omega), stateAt_take (by omega),
    length_take_of_lt _ (k := 1) h]

theorem startsQu_take {states : List CharState} {n : Nat} (h : 2 ≤ n) :
    StartsQu (states.take n) ↔ StartsQu states := by
  rw [StartsQu, StartsQu, stateAt_take (by omega), stateAt_take (by omega),
    length_take_of_lt _ (k := 1) h]

theorem two_lt_of_length_take {states : List CharState} {n : Nat} (hlong : 2 ≤ states.length)
    (hn : 2 ≤ n) (hlength : (states.take n).length ≠ 2) : 2 < n := by
  rw [List.length_take] at hlength
  omega

/-- A prefix of an accepted `gi` buffer. -/
theorem validateDual_take_gi {states : List CharState} {n : Nat} (hgi : StartsGi states)
    (hn : 2 ≤ n) (hok : validateDual states (validateDecomposition states 1) ≠ .invalid) :
    validateDual (states.take n) (validateDecomposition (states.take n) 1) = .invalid ↔
      IsMarkedGi (states.take n) := by
  have hcut := (startsGi_take hn).mpr hgi
  by_cases hlength : (states.take n).length = 2
  · have hnone : followedByVowel (states.take n) = false := by
      rw [followedByVowel, hlength]
      rfl
    rw [← validateDecomposition_gi hcut hlength, ← not_iff_not]
    change validateDual _ _ ≠ .invalid ↔ _
    rw [validateDual_gi hcut _ rfl, hnone]
    simp
  · have hlong := two_lt_of_length_take hgi.1 hn hlength
    refine iff_of_false ?_ fun hmarked => hlength hmarked.1
    change validateDual _ _ ≠ .invalid
    rw [validateDual_gi hgi _ rfl] at hok
    rw [validateDual_gi hcut _ rfl, followedByVowel_take hlong]
    rcases hok with hone | ⟨hvowel, htwo⟩
    · exact Or.inl (validateDecomposition_take hone n)
    · exact Or.inr ⟨hvowel, validateDecomposition_take htwo n⟩

/-- A prefix of an accepted `qu` buffer. -/
theorem validateDual_take_qu {states : List CharState} {n : Nat} (hqu : StartsQu states)
    (hn : 2 ≤ n) (hok : validateDual states (validateDecomposition states 1) ≠ .invalid) :
    validateDual (states.take n) (validateDecomposition (states.take n) 1) ≠ .invalid := by
  have hcut := (startsQu_take hn).mpr hqu
  rw [validateDual_qu hcut]
  by_cases hlength : (states.take n).length = 2
  · exact Or.inl hlength
  · have hlong := two_lt_of_length_take hqu.1 hn hlength
    rw [validateDual_qu hqu] at hok
    rw [followedByVowel_take hlong]
    rcases hok with hshort | hone | ⟨hvowel, htwo⟩
    · rw [List.length_take, hshort] at hlength
      omega
    · exact Or.inr (Or.inl (validateDecomposition_take hone n))
    · exact Or.inr (Or.inr ⟨hvowel, validateDecomposition_take htwo n⟩)

/-- A prefix of a buffer that the validator does not reject is rejected exactly if it is `gi` with a
vowel modifier on the `i`. -/
theorem validateImpl_take_eq_invalid_iff {states : List CharState} {allowZwjf : Bool}
    (hok : validateImpl states allowZwjf ≠ .invalid) (n : Nat) :
    validateImpl (states.take n) allowZwjf = .invalid ↔ IsMarkedGi (states.take n) := by
  rcases validateImpl_ne_invalid_iff.mp hok with honset | ⟨hvowel, hrule, hoeOa, hdual⟩
  · exact (honset.take n).validateImpl_eq_invalid_iff
  · by_cases hn : n ≤ parseInitialConsonant states allowZwjf
    · have honset := (isOnset_take_parseInitialConsonant hvowel).take n
      rw [List.take_take, Nat.min_eq_left hn] at honset
      exact honset.validateImpl_eq_invalid_iff
    · rw [not_le] at hn
      have hparse := parseInitialConsonant_take hvowel hn
      have hcutVowel : (stateAt (states.take n)
          (parseInitialConsonant (states.take n) allowZwjf)).isVowel = true := by
        rw [hparse, stateAt_take hn]
        exact hvowel
      have hnotOnset : ¬IsOnset allowZwjf (states.take n) := by
        intro honset
        rw [honset.not_vowel] at hcutVowel
        cases hcutVowel
      have hcut : validateImpl (states.take n) allowZwjf = .invalid ↔
          validateDual (states.take n) (validateDecomposition (states.take n)
            (parseInitialConsonant states allowZwjf)) = .invalid := by
        rw [← not_iff_not]
        change validateImpl _ _ ≠ .invalid ↔ _
        rw [validateImpl_ne_invalid_iff, hparse, violatesOnsetVowelRule_take hn, hrule,
          violatesOeOaRule_take hn hoeOa, ← hparse]
        simp [hnotOnset, hcutVowel]
      rw [hcut]
      by_cases hgi : StartsGi states
      · rw [parseInitialConsonant_of_startsGi hgi] at hn hdual ⊢
        exact validateDual_take_gi hgi hn hdual
      · by_cases hqu : StartsQu states
        · rw [parseInitialConsonant_of_startsQu hqu] at hn hdual ⊢
          refine iff_of_false (validateDual_take_qu hqu hn hdual) fun hmarked => ?_
          exact hgi ((startsGi_take hn).mp hmarked.startsGi)
        · have hcutGi : ¬StartsGi (states.take n) := by
            intro hcutGi
            have hlong := hcutGi.1
            rw [List.length_take] at hlong
            exact hgi ((startsGi_take (by omega)).mp hcutGi)
          have hcutQu : ¬StartsQu (states.take n) := by
            intro hcutQu
            have hlong := hcutQu.1
            rw [List.length_take] at hlong
            exact hqu ((startsQu_take (by omega)).mp hcutQu)
          rw [validateDual_other hgi hqu] at hdual
          rw [validateDual_other hcutGi hcutQu]
          exact iff_of_false (validateDecomposition_take hdual n)
            fun hmarked => hcutGi hmarked.startsGi

theorem checkToneModInvariant_iff {states : List CharState} :
    checkToneModInvariant states = true ↔
      ((states.filter (·.isVowel)).filter (·.hasTone)).length ≤ 1 ∧
        ∀ s ∈ (states.filter (·.isVowel)).filter (·.hasTone),
          (∃ vowel ∈ states.filter (·.isVowel), vowel.hasModifier = true) →
            s.hasModifier = true := by
  rw [checkToneModInvariant]
  generalize states.filter (·.isVowel) = vowels
  cases htoned : vowels.filter (·.hasTone) with
  | nil => simp
  | cons s rest =>
      cases rest with
      | nil => cases hmod : s.hasModifier <;> simp [hmod]
      | cons s' rest => simp

/-- Cutting letters off keeps the tone on a modified vowel, if there is one. -/
theorem checkToneModInvariant_take {states : List CharState}
    (h : checkToneModInvariant states = true) (n : Nat) :
    checkToneModInvariant (states.take n) = true := by
  have hvowels : ((states.take n).filter (·.isVowel)).Sublist (states.filter (·.isVowel)) :=
    (List.take_sublist n states).filter _
  have htoned := hvowels.filter (·.hasTone)
  rw [checkToneModInvariant_iff] at h ⊢
  refine ⟨Nat.le_trans htoned.length_le h.1, ?_⟩
  rintro s hs ⟨vowel, hvowel, hmod⟩
  exact h.2 s (htoned.subset hs) ⟨vowel, hvowels.subset hvowel, hmod⟩

theorem validateSyllableState_eq_invalid_iff {states : List CharState} {allowZwjf : Bool} :
    validateSyllableState states allowZwjf = .invalid ↔
      validateImpl states allowZwjf = .invalid ∨ checkToneModInvariant states = false := by
  rw [validateSyllableState]
  cases checkToneModInvariant states <;> cases validateImpl states allowZwjf <;> decide

/-- A prefix of an accepted buffer is rejected exactly if it is `gi` with a vowel modifier on the
`i`. -/
theorem validateSyllableState_take_eq_invalid_iff (states : List CharState) (allowZwjf : Bool)
    (hok : validateSyllableState states allowZwjf ≠ .invalid) (n : Nat) :
    validateSyllableState (states.take n) allowZwjf = .invalid ↔ IsMarkedGi (states.take n) := by
  rw [Ne, validateSyllableState_eq_invalid_iff, not_or, Bool.not_eq_false] at hok
  rw [validateSyllableState_eq_invalid_iff, checkToneModInvariant_take hok.2,
    validateImpl_take_eq_invalid_iff hok.1]
  simp

/-- `gi` with a circumflex on the `i`, and an `a`. -/
def markedGia : List CharState :=
  [{ base := L 'g' }, { base := L 'i', mod := .circumflex }, { base := L 'a' }]

/-- `nghiêng` with a tone. -/
def nghieng : List CharState :=
  [{ base := L 'n' }, { base := L 'g' }, { base := L 'h' }, { base := L 'i' },
    { base := L 'e', mod := .circumflex, tone := .hook }, { base := L 'n' }, { base := L 'g' }]

/-- Every prefix of `nghiểng` is accepted, and of `gîa` all but the marked `gi`. -/
theorem validateSyllableState_take_nghieng :
    (∀ n, validateSyllableState (nghieng.take n) false ≠ .invalid) ∧
      ∀ n, validateSyllableState (markedGia.take n) false = .invalid ↔ n = 2 := by
  have hnghieng : ∀ n < 7, ¬IsMarkedGi (nghieng.take n) := by decide
  have hgia : ∀ n < 3, (IsMarkedGi (markedGia.take n) ↔ n = 2) := by decide
  constructor
  · intro n hinvalid
    have hmarked :=
      (validateSyllableState_take_eq_invalid_iff nghieng false (by decide) n).mp hinvalid
    rcases Nat.lt_or_ge n 7 with hn | hn
    · exact hnghieng n hn hmarked
    · rw [List.take_of_length_le hn] at hmarked
      exact absurd hmarked (by decide)
  · intro n
    rw [validateSyllableState_take_eq_invalid_iff markedGia false (by decide) n]
    rcases Nat.lt_or_ge n 3 with hn | hn
    · exact hgia n hn
    · rw [List.take_of_length_le hn]
      exact iff_of_false (by decide) (by omega)

/-- The validator is not prefix-closed. -/
theorem not_validateSyllableState_prefix_closed :
    ¬∀ (states : List CharState)
    (allowZwjf : Bool), validateSyllableState states allowZwjf ≠ .invalid →
      ∀ n, validateSyllableState (states.take n) allowZwjf ≠ .invalid := by
  intro hclosed
  exact hclosed markedGia false (by decide) 2 (by decide)

end VKey.Phonology
