import VKey.Support.DeadPrefix
import VKey.Support.Spans
import VKey.Engine.EditModifier
import VKey.Engine.LiteralTyping
import VKey.Engine.SyllablePrefix

/-!
# Dead ends

A buffer is a dead end if no complete syllable begins with its letters, whatever marks they carry
and whatever letters follow.  A complete syllable is an onset, vowels and a final consonant; the
patterns of English protection are each shown to break one of these three blocks.
-/

namespace VKey

open Phonology

/-- The base of a letter is a vowel. -/
def isVowelBase (base : WChar) : Bool := CharState.isVowel { base }

theorem isVowelBase_base (s : CharState) : isVowelBase s.base = s.isVowel := rfl

/-- The letters of the complete syllables, without their marks. -/
def syllables (allowZwjf : Bool) : Set (List WChar) :=
  {word | ∃ states, bases states = word ∧ validateSyllableState states allowZwjf = .valid}

/-- No complete syllable begins with the letters of the buffer. -/
def IsDeadEnd (allowZwjf : Bool) (states : List CharState) : Prop :=
  IsDeadPrefix (syllables allowZwjf) (bases states)

/-! ## The blocks of a complete syllable -/

section Blocks

variable {allowZwjf : Bool} {states vowels coda : List CharState}

theorem not_vowel_of_mem_letters (final : Final) :
    ∀ base ∈ final.letters, isVowelBase base = false := by
  cases final <;> decide

/-- Behind a complete nucleus comes nothing or a final consonant. -/
theorem coda_of_validateCoda {key : Nat} {entry : VowelEntry}
    (h : validateCoda states vowels coda key entry = .valid) :
    coda = [] ∨ ∃ final : Final, bases coda = final.letters := by
  by_cases hne : coda = []
  · exact .inl hne
  · right
    by_contra hfinal
    cases hend : entry.canEnd with
    | true =>
        rw [validateCoda_not_final hend hne hfinal] at h
        cases h
    | false =>
        rw [validateCoda_of_not_canEnd hend hne] at h
        split_ifs at h

/-- A complete decomposition is a rhyme whose coda is a final consonant, if there is one. -/
theorem exists_rhyme_of_valid {len : Nat} (h : validateDecomposition states len = .valid) :
    ∃ vowels coda, IsRhyme (states.drop len) vowels coda ∧
      (coda = [] ∨ ∃ final : Final, bases coda = final.letters) := by
  have hne : states.drop len ≠ [] := by
    intro hnil
    rw [validateDecomposition_nil hnil] at h
    cases h
  obtain ⟨vowels, coda, hrhyme⟩ := exists_isRhyme hne (by rw [h]; exact SyllableState.noConfusion)
  refine ⟨vowels, coda, hrhyme, ?_⟩
  rw [validateDecomposition_eq hrhyme] at h
  split at h
  · exact coda_of_validateCoda h
  · split_ifs at h

theorem validateDual_gi_eq_valid (hgi : StartsGi states)
    (h : validateDual states (validateDecomposition states 1) = .valid) :
    validateDecomposition states 1 = .valid ∨ validateDecomposition states 2 = .valid := by
  have hvowel : (stateAt states 1).isVowel = true := by
    rw [isVowel_congr hgi.2.2]
    decide
  revert h
  unfold validateDual
  dsimp only
  rw [if_pos ⟨hgi.1, hgi.2.1, hgi.2.2, hvowel⟩, ← followedByVowel]
  cases followedByVowel states <;> cases validateDecomposition states 1 <;>
    cases validateDecomposition states 2 <;> decide

theorem validateDual_qu_eq_valid (hqu : StartsQu states)
    (h : validateDual states (validateDecomposition states 1) = .valid) :
    validateDecomposition states 1 = .valid ∨ validateDecomposition states 2 = .valid := by
  have hgi : ¬(2 ≤ states.length ∧ (stateAt states 0).base = L 'g' ∧
      (stateAt states 1).base = L 'i' ∧ (stateAt states 1).isVowel = true) := by
    rintro ⟨-, hbase, -⟩
    rw [hqu.2.1] at hbase
    revert hbase
    decide
  revert h
  unfold validateDual
  dsimp only
  rw [if_neg hgi, if_pos ⟨hqu.1, hqu.2.1, hqu.2.2⟩, ← followedByVowel]
  generalize states.length = length
  cases followedByVowel states <;> cases validateDecomposition states 1 <;>
    cases validateDecomposition states 2 <;> by_cases hlength : length = 2 <;>
    simp [hlength, SyllableState.improve]

/-- A complete buffer is complete behind the onset that is parsed, or behind `gi` or `qu`. -/
theorem exists_decomposition_of_valid (h : validateImpl states allowZwjf = .valid) :
    (stateAt states (parseInitialConsonant states allowZwjf)).isVowel = true ∧
      (validateDecomposition states (parseInitialConsonant states allowZwjf) = .valid ∨
        parseInitialConsonant states allowZwjf = 1 ∧ (stateAt states 1).isVowel = true ∧
          validateDecomposition states 2 = .valid) := by
  rw [validateImpl_eq] at h
  split_ifs at h with hempty hstart honset hbegins hrule
  refine ⟨?_, ?_⟩
  · by_contra hvowel
    rw [Bool.not_eq_true] at hvowel
    rcases Nat.eq_zero_or_pos (parseInitialConsonant states allowZwjf) with hzero | hpos
    · exact hstart ⟨hzero, hzero ▸ hvowel⟩
    · exact honset ⟨hpos, hvowel⟩
  by_cases hgi : StartsGi states
  · have hlen : parseInitialConsonant states allowZwjf = 1 := parseInitialConsonant_of_startsGi hgi
    have hvowel : (stateAt states 1).isVowel = true := by
      rw [isVowel_congr hgi.2.2]
      decide
    rw [hlen] at h ⊢
    exact (validateDual_gi_eq_valid hgi h).imp_right fun hsecond => ⟨rfl, hvowel, hsecond⟩
  · by_cases hqu : StartsQu states
    · have hlen : parseInitialConsonant states allowZwjf = 1 :=
        parseInitialConsonant_of_startsQu hqu
      have hvowel : (stateAt states 1).isVowel = true := by
        rw [isVowel_congr hqu.2.2]
        decide
      rw [hlen] at h ⊢
      exact (validateDual_qu_eq_valid hqu h).imp_right fun hsecond => ⟨rfl, hvowel, hsecond⟩
    · rw [validateDual_other hgi hqu] at h
      exact .inl h

theorem drop_eq_stateAt_cons {i : Nat} (h : i < states.length) :
    states.drop i = stateAt states i :: states.drop (i + 1) := by
  rw [List.drop_eq_getElem_cons h, stateAt, List.getD_eq_getElem _ _ h]

theorem not_vowel_of_mem_onset {onset : List CharState} (h : IsOnset allowZwjf onset) :
    ∀ base ∈ bases onset, isVowelBase base = false := by
  cases h with
  | nil => simp
  | single hvowel h => simpa [isVowelBase_base] using hvowel
  | pair h =>
      obtain ⟨h0, h1⟩ := not_vowel_of_pairOnsets h
      simpa [isVowelBase_base] using ⟨h0, h1⟩
  | ngh h0 h1 h2 =>
      simp only [bases, List.map_cons, List.map_nil, h0, h1, h2]
      decide

/-- A complete syllable is an onset, vowels, and a final consonant if there is one. -/
theorem exists_blocks_of_valid (h : validateSyllableState states allowZwjf = .valid) :
    ∃ onset nucleus coda,
      InBlocks isVowelBase (bases states) (bases onset) nucleus coda ∧ IsOnset allowZwjf onset ∧
        (coda = [] ∨ ∃ final : Final, coda = final.letters) := by
  have himpl : validateImpl states allowZwjf = .valid := by
    unfold validateSyllableState at h
    dsimp only at h
    split_ifs at h
    exact h
  obtain ⟨hvowel, hdecomposition⟩ := exists_decomposition_of_valid himpl
  have honset := isOnset_take_parseInitialConsonant hvowel
  have hlt := lt_length_of_isVowel hvowel
  generalize parseInitialConsonant states allowZwjf = len at hvowel hdecomposition honset hlt
  -- the vowels behind the onset, with the `i` of `gi` or the `u` of `qu` in front of them
  obtain ⟨nucleus, coda, hdrop, hne, hin, hfinal⟩ : ∃ nucleus coda : List CharState,
      states.drop len = nucleus ++ coda ∧ nucleus ≠ [] ∧ (∀ s ∈ nucleus, s.isVowel = true) ∧
        (coda = [] ∨ ∃ final : Final, bases coda = final.letters) := by
    rcases hdecomposition with hfirst | ⟨rfl, hsecond, hvalid⟩
    · obtain ⟨vowels, coda, hrhyme, hfinal⟩ := exists_rhyme_of_valid hfirst
      exact ⟨vowels, coda, hrhyme.append, hrhyme.run.nonempty, hrhyme.run.vowel, hfinal⟩
    · obtain ⟨vowels, coda, hrhyme, hfinal⟩ := exists_rhyme_of_valid hvalid
      refine ⟨stateAt states 1 :: vowels, coda, ?_, List.cons_ne_nil _ _, ?_, hfinal⟩
      · rw [drop_eq_stateAt_cons hlt, hrhyme.append, List.cons_append]
      · exact List.forall_mem_cons.mpr ⟨hsecond, hrhyme.run.vowel⟩
  refine ⟨states.take len, bases nucleus, bases coda,
    ⟨?_, not_vowel_of_mem_onset honset, ?_, ?_, ?_⟩, honset, ?_⟩
  · rw [← List.map_append, ← hdrop, ← List.map_append, List.take_append_drop]
  · simpa using hne
  · simpa [isVowelBase_base] using hin
  · rcases hfinal with rfl | ⟨final, hfinal⟩
    · simp
    · rw [hfinal]
      exact not_vowel_of_mem_letters final
  · exact hfinal.imp_left fun hnil => by rw [hnil]; rfl

end Blocks

/-! ## Patterns without a way out -/

section Patterns

variable {allowZwjf : Bool} {states later : List CharState} {run : List WChar} {a b c : WChar}

theorem IsDeadEnd.not_valid (h : IsDeadEnd allowZwjf states) (hbases : bases later = bases states) :
    validateSyllableState later allowZwjf ≠ .valid :=
  fun hvalid => IsDeadPrefix.not_mem h ⟨later, hbases, hvalid⟩

theorem IsDeadEnd.of_isPrefix (h : IsDeadEnd allowZwjf states)
    (hbegins : bases states <+: bases later) :
    IsDeadEnd allowZwjf later :=
  IsDeadPrefix.of_isPrefix h hbegins

theorem IsDeadEnd.congr (h : IsDeadEnd allowZwjf states) (hbases : bases later = bases states) :
    IsDeadEnd allowZwjf later :=
  h.of_isPrefix (by rw [hbases])

theorem IsDeadEnd.append (h : IsDeadEnd allowZwjf states) (tail : List CharState) :
    IsDeadEnd allowZwjf (states ++ tail) :=
  h.of_isPrefix (by rw [bases, bases, List.map_append]; exact List.prefix_append _ _)

theorem isDeadEnd_of_onset (hrun : ∀ base ∈ run, isVowelBase base = false)
    (hbegins : run <+: bases states)
    (hno : ∀ onset, IsOnset allowZwjf onset → ¬run <+: bases onset) :
    IsDeadEnd allowZwjf states := by
  rintro word ⟨later, rfl, hvalid⟩ hword
  obtain ⟨onset, nucleus, coda, hblocks, honset, -⟩ := exists_blocks_of_valid hvalid
  exact hno onset honset (hblocks.prefix_onset hrun (hbegins.trans hword))

theorem isDeadEnd_of_coda (front : List WChar) (ha : isVowelBase a = true)
    (hrun : ∀ base ∈ run, isVowelBase base = false) (hne : run ≠ [])
    (hbegins : front ++ a :: run <+: bases states)
    (hno : ∀ final : Final, ¬run <+: final.letters) : IsDeadEnd allowZwjf states := by
  rintro word ⟨later, rfl, hvalid⟩ hword
  obtain ⟨onset, nucleus, coda, hblocks, -, hcoda⟩ := exists_blocks_of_valid hvalid
  have hbegins' := hblocks.prefix_coda ha hrun (hbegins.trans hword)
  rcases hcoda with rfl | ⟨final, rfl⟩
  · exact hne (List.prefix_nil.mp hbegins')
  · exact hno final hbegins'

theorem isDeadEnd_of_return (ha : isVowelBase a = true) (hb : isVowelBase b = false)
    (hc : isVowelBase c = true) (hsub : [a, b, c].Sublist (bases states)) :
    IsDeadEnd allowZwjf states := by
  rintro word ⟨later, rfl, hvalid⟩ hword
  obtain ⟨onset, nucleus, coda, hblocks, -, -⟩ := exists_blocks_of_valid hvalid
  have hout := hblocks.no_return ha hb (hsub.trans hword.sublist)
  rw [hc] at hout
  cases hout

/-- Two consonants that an onset begins with are one. -/
theorem mem_pairOnsets_of_isPrefix {onset : List CharState} (h : IsOnset allowZwjf onset)
    (hbegins : [a, b] <+: bases onset) : (a, b) ∈ pairOnsets := by
  cases h with
  | nil => simp at hbegins
  | single hvowel h => simpa using hbegins.length_le
  | pair h =>
      simp only [bases, List.map_cons, List.map_nil, List.cons_prefix_cons, List.nil_prefix,
        and_true] at hbegins
      rw [hbegins.1, hbegins.2]
      exact h
  | ngh h0 h1 h2 =>
      simp only [bases, List.map_cons, List.map_nil, List.cons_prefix_cons, List.nil_prefix,
        and_true, h0, h1] at hbegins
      rw [hbegins.1, hbegins.2]
      decide

/-- An onset begins with an initial consonant. -/
theorem isInitialConsonant_of_isPrefix {onset : List CharState} (h : IsOnset allowZwjf onset)
    (hbegins : [a] <+: bases onset) : isInitialConsonant allowZwjf a = true := by
  have hpairs : ∀ p ∈ pairOnsets, isInitialConsonant allowZwjf p.1 = true := by
    cases allowZwjf <;> decide
  cases h with
  | nil => simp at hbegins
  | @single s hvowel h =>
      obtain rfl : a = s.base := by simpa [bases] using hbegins
      rcases h with h | hstroke
      · exact h
      · rw [isStrokeD, Bool.and_eq_true, CharState.isD, beq_iff_eq] at hstroke
        rw [hstroke.1]
        cases allowZwjf <;> rfl
  | @pair s0 s1 h =>
      obtain rfl : a = s0.base := by simpa [bases] using hbegins
      exact hpairs _ h
  | @ngh s0 s1 s2 h0 h1 h2 =>
      obtain rfl : a = s0.base := by simpa [bases] using hbegins
      rw [h0]
      cases allowZwjf <;> rfl

theorem isDeadEnd_of_initial (hbegins : [a] <+: bases states) (hvowel : isVowelBase a = false)
    (hinitial : isInitialConsonant allowZwjf a = false) : IsDeadEnd allowZwjf states := by
  refine isDeadEnd_of_onset (by simpa using hvowel) hbegins fun onset honset hbegins => ?_
  rw [isInitialConsonant_of_isPrefix honset hbegins] at hinitial
  cases hinitial

theorem head_prefix_bases (hne : states ≠ []) : [(stateAt states 0).base] <+: bases states := by
  obtain ⟨s, rest, rfl⟩ := List.exists_cons_of_ne_nil hne
  simp [stateAt]

theorem mem_of_prefix_letters {final : Final} (h : a :: run <+: final.letters) :
    a ∈ [L 'c', L 'k', L 'm', L 'n', L 'p', L 't'] := by
  cases final <;> simp only [Final.letters, List.cons_prefix_cons] at h <;> rw [h.1] <;> decide

theorem bases_split {i : Nat} (h : i < states.length) :
    bases states = bases (states.take i) ++ (stateAt states i).base ::
    bases (states.drop (i + 1)) := by
  conv_lhs => rw [← List.take_append_drop i states, drop_eq_stateAt_cons h]
  rw [bases, List.map_append, List.map_cons]

theorem exists_stateAt_of_mem_drop {i : Nat} {base : WChar} (h : base ∈ bases (states.drop i)) :
    ∃ j, i ≤ j ∧ j < states.length ∧ (stateAt states j).base = base := by
  obtain ⟨s, hs, rfl⟩ := List.mem_map.mp h
  obtain ⟨k, hk, rfl⟩ := List.getElem_of_mem hs
  rw [List.length_drop] at hk
  refine ⟨i + k, by omega, by omega, ?_⟩
  rw [stateAt, List.getD_eq_getElem _ _ (by omega), List.getElem_drop]

/-- Behind the last vowel stands something that no final consonant begins with. -/
theorem isDeadEnd_behind_vowel {i : Nat} (hvowel : (stateAt states i).isVowel = true)
    (hout : ∀ j, i < j → j < states.length → (stateAt states j).isVowel = false)
    (hno : ∀ final : Final, ¬bases (states.drop (i + 1)) <+: final.letters) :
    IsDeadEnd allowZwjf states := by
  have hne : bases (states.drop (i + 1)) ≠ [] := by
    intro hnil
    rw [hnil] at hno
    exact hno .c List.nil_prefix
  refine isDeadEnd_of_coda (bases (states.take i)) hvowel ?_ hne ?_ hno
  · intro base hbase
    obtain ⟨j, hj, hlt, rfl⟩ := exists_stateAt_of_mem_drop hbase
    exact hout j hj hlt
  · rw [bases_split (lt_length_of_isVowel hvowel)]

end Patterns

/-! ## The patterns of English protection -/

section English

variable [WideCType] {allowZwjf : Bool} {states : List CharState} {prot : EnglishProtectionState}

theorem towlower_of_small {c : WChar} (h : c < 0x80 ∧ asciiLower c = c) : towlower c = c := by
  rw [WideCType.towlower_ascii c h.1, h.2]

omit [WideCType] in
theorem small_of_mem_pairOnsets : ∀ p ∈ pairOnsets,
    (p.1 < 0x80 ∧ asciiLower p.1 = p.1) ∧ (p.2 < 0x80 ∧ asciiLower p.2 = p.2) := by
  decide

theorem not_cluster_of_mem_pairOnsets (p : WChar × WChar) (hp : p ∈ pairOnsets) :
    (isHardEnglishStart p.1 p.2 || isQWithoutU p.1 p.2) = false := by
  obtain ⟨hfirst, hsecond⟩ := small_of_mem_pairOnsets p hp
  rw [isHardEnglishStart, isQWithoutU, towlower_of_small hfirst, towlower_of_small hsecond]
  revert p
  decide

omit [WideCType] in
theorem pair_prefix_bases (h : 2 ≤ states.length) :
    [(stateAt states 0).base, (stateAt states 1).base] <+: bases states := by
  match states, h with
  | s0 :: s1 :: rest, _ => simp [stateAt]

theorem isDeadEnd_of_hasHardEnglishOnset (h : hasHardEnglishOnset states = true) :
    IsDeadEnd allowZwjf states := by
  simp only [hasHardEnglishOnset, Bool.and_eq_true, decide_eq_true_eq, Bool.not_eq_true'] at h
  obtain ⟨⟨⟨⟨hlen, hfirst⟩, hsecond⟩, -⟩, hcluster⟩ := h
  refine isDeadEnd_of_onset (by simpa [isVowelBase_base] using ⟨hfirst, hsecond⟩)
    (pair_prefix_bases hlen) fun onset honset hbegins => ?_
  rw [not_cluster_of_mem_pairOnsets _ (mem_pairOnsets_of_isPrefix honset hbegins)] at hcluster
  cases hcluster

omit [WideCType] in
theorem small_of_prefix_letters {final : Final} {run : List WChar} (h : run <+: final.letters) :
    ∀ base ∈ run, base < 0x80 ∧ asciiLower base = base := by
  have hall : ∀ base ∈ final.letters, base < 0x80 ∧ asciiLower base = base := by
    cases final <;> decide
  exact fun base hbase => hall base (h.subset hbase)

/-- Behind a vowel a letter that ends no Vietnamese word leads nowhere. -/
theorem isDeadEnd_of_hasHardEnglishFinal (h : hasHardEnglishFinal states = true) :
    IsDeadEnd allowZwjf states := by
  simp only [hasHardEnglishFinal, Bool.and_eq_true, decide_eq_true_eq, Bool.not_eq_true'] at h
  obtain ⟨⟨⟨⟨hlen, hlast⟩, -⟩, hvowel⟩, hend⟩ := h
  have hdrop : states.drop (states.length - 2 + 1) = [stateAt states (states.length - 1)] := by
    rw [show states.length - 2 + 1 = states.length - 1 by omega, drop_eq_stateAt_cons (by omega),
      List.drop_eq_nil_of_le (by omega)]
  refine isDeadEnd_behind_vowel hvowel (fun j hj hlt => ?_) fun final hbegins => ?_
  · obtain rfl : j = states.length - 1 := by omega
    exact hlast
  · rw [hdrop, bases, List.map_singleton] at hbegins
    have hmem := mem_of_prefix_letters hbegins
    have hsmall := small_of_prefix_letters hbegins _ (List.mem_singleton_self _)
    rw [isHardEnglishEnd, towlower_of_small hsmall] at hend
    generalize (stateAt states (states.length - 1)).base = base at hend hmem
    simp only [List.mem_cons, List.not_mem_nil, or_false] at hmem
    rcases hmem with rfl | rfl | rfl | rfl | rfl | rfl <;> exact absurd hend (by decide)

theorem pair_of_letters {final : Final} {x y : WChar} (h : [x, y] <+: final.letters) :
    [(L 'c', L 'h'), (L 'n', L 'g'), (L 'n', L 'h')].contains (towlower x, towlower y) = true := by
  have hx := small_of_prefix_letters h x (by simp)
  have hy := small_of_prefix_letters h y (by simp)
  rw [towlower_of_small hx, towlower_of_small hy]
  cases final <;> simp only [Final.letters, List.cons_prefix_cons, List.prefix_nil, reduceCtorEq,
    and_false, and_true] at h <;> rw [h.1, h.2] <;> decide

omit [WideCType] in
theorem length_letters_le (final : Final) : final.letters.length ≤ 2 := by
  cases final <;> decide

omit [WideCType] in
theorem isDeadEnd_of_d_consonant (hlen : 2 ≤ states.length) (hd : (stateAt states 0).isD = true)
    (hsecond : (stateAt states 1).isVowel = false) : IsDeadEnd allowZwjf states := by
  refine isDeadEnd_of_onset (by simpa [isVowelBase_base] using ⟨isD_not_vowel hd, hsecond⟩)
    (pair_prefix_bases hlen) fun onset honset hbegins => ?_
  have hfirst : ∀ p ∈ pairOnsets, p.1 ≠ L 'd' := by decide
  exact hfirst _ (mem_pairOnsets_of_isPrefix honset hbegins) (by simpa [CharState.isD] using hd)

/-- Consonants behind the last vowel that are no Vietnamese coda, or behind a leading `d`. -/
theorem isDeadEnd_of_isInvalidVietnameseCoda (h : isInvalidVietnameseCoda states = true) :
    IsDeadEnd allowZwjf states := by
  unfold isInvalidVietnameseCoda at h
  dsimp only at h
  split_ifs at h with hshort
  split at h
  · cases h
  rename_i i hscan
  obtain ⟨hi, hstop, hbehind⟩ := scanDown_eq_some hscan
  have hout : ∀ j, i < j → j < states.length → (stateAt states j).isVowel = false := by
    intro j hj hlt
    have hnone := hbehind j hj hlt
    rw [Bool.or_eq_false_iff] at hnone
    exact hnone.1
  split_ifs at h with hcoda hlong
  all_goals
    rw [Bool.or_eq_true, Bool.and_eq_true, beq_iff_eq] at hstop
    rcases hstop with hvowel | ⟨hd, rfl⟩
  · refine isDeadEnd_behind_vowel hvowel hout fun final hbegins => ?_
    have hle := hbegins.length_le.trans (length_letters_le final)
    rw [bases, List.length_map, List.length_drop] at hle
    omega
  · exact isDeadEnd_of_d_consonant (by omega) hd (hout 1 (by omega) (by omega))
  · refine isDeadEnd_behind_vowel hvowel hout fun final hbegins => ?_
    have hdrop : states.drop (i + 1) =
        [stateAt states (states.length - 2), stateAt states (states.length - 1)] := by
      rw [show i + 1 = states.length - 2 by omega, drop_eq_stateAt_cons (by omega),
        show states.length - 2 + 1 = states.length - 1 by omega, drop_eq_stateAt_cons (by omega),
        List.drop_eq_nil_of_le (by omega)]
    rw [hdrop, bases, List.map_cons, List.map_singleton] at hbegins
    rw [pair_of_letters hbegins] at h
    cases h
  · exact isDeadEnd_of_d_consonant (by omega) hd (hout 1 (by omega) (by omega))

theorem bias_checkEnglishBias (h : (checkEnglishBias states prot).bias = .hardEnglish) :
    prot.bias = .hardEnglish ∨ IsDeadEnd allowZwjf states := by
  unfold checkEnglishBias at h
  split_ifs at h with hvietnamese honset hfinal hcoda hsoft
  · exact .inl h
  · exact .inr (isDeadEnd_of_hasHardEnglishOnset honset)
  · exact .inr (isDeadEnd_of_hasHardEnglishFinal hfinal)
  · exact .inr (isDeadEnd_of_isInvalidVietnameseCoda hcoda)
  · exact .inl h

theorem isDeadEnd_of_recalcEnglishBias (h : (recalcEnglishBias states).bias = .hardEnglish) :
    IsDeadEnd allowZwjf states := by
  induction states using List.reverseRecOn with
  | nil => cases h
  | append_singleton states s ih =>
      rw [recalcEnglishBias_append] at h
      rcases bias_checkEnglishBias h with hbefore | hdead
      · exact (ih hbefore).append [s]
      · exact hdead

omit [WideCType] in
/-- A word that starts with one of `w z j f` is a dead end unless these are allowed. -/
theorem bias_checkZwjfInitialBias {config : TypingConfig}
    (h : (checkZwjfInitialBias states config prot).bias = .hardEnglish) :
    prot.bias = .hardEnglish ∨ IsDeadEnd config.allowZwjf states := by
  unfold checkZwjfInitialBias at h
  dsimp only at h
  split_ifs at h with hoff hvietnamese hvowel hletter
  · exact .inl h
  · exact .inl h
  · exact .inl h
  · right
    simp only [Bool.or_eq_true, Bool.not_eq_true', not_or, Bool.not_eq_true, Bool.not_eq_false,
      List.isEmpty_eq_false_iff] at hoff
    refine isDeadEnd_of_initial (head_prefix_bases hoff.2)
      (by simpa [isVowelBase_base] using hvowel) ?_
    rw [hoff.1.1]
    simp only [List.contains_iff_mem, List.mem_cons, List.not_mem_nil, or_false] at hletter
    rcases hletter with h0 | h0 | h0 | h0 <;> rw [h0] <;> rfl
  · exact .inl h

/-! ## Tone keys as letters -/

/-- A vowel, a consonant and a vowel, in this order. -/
def ReturnsToVowel (states : List CharState) : Prop :=
  ∃ a b c, isVowelBase a = true ∧ isVowelBase b = false ∧ isVowelBase c = true ∧
    [a, b, c].Sublist (bases states)

omit [WideCType] in
theorem ReturnsToVowel.isDeadEnd (h : ReturnsToVowel states) : IsDeadEnd allowZwjf states := by
  obtain ⟨a, b, c, ha, hb, hc, hsub⟩ := h
  exact isDeadEnd_of_return ha hb hc hsub

omit [WideCType] in
theorem exists_mem_takeWhile {p : CharState → Bool} {rest : List CharState} (hne : rest ≠ [])
    (hhead : ∀ s ∈ rest.head?, p s = true) : ∃ s ∈ rest.takeWhile p, p s = true := by
  obtain ⟨s, rest, rfl⟩ := List.exists_cons_of_ne_nil hne
  exact ⟨s, by simp [hhead s rfl], hhead s rfl⟩

omit [WideCType] in
theorem ReturnsToVowel.of_suffix {tail : List CharState} (h : ReturnsToVowel tail)
    (hsuffix : tail <:+ states) : ReturnsToVowel states := by
  obtain ⟨a, b, c, ha, hb, hc, hsub⟩ := h
  exact ⟨a, b, c, ha, hb, hc, hsub.trans (hsuffix.sublist.map _)⟩

omit [WideCType] in
/-- The scan finds a vowel, a consonant and a vowel. -/
theorem returnsToVowel_of_hasVCVFrom {fuel : Nat} (h : hasVCVFrom fuel states = true) :
    ReturnsToVowel states := by
  induction fuel generalizing states with
  | zero => cases h
  | succ fuel ih =>
      unfold hasVCVFrom at h
      dsimp only at h
      have hrest : states.dropWhile (!·.isVowel) <:+ states := List.dropWhile_suffix _
      have hvowels := stopsAt_dropWhile (p := fun s : CharState => !s.isVowel) states
      generalize states.dropWhile (!·.isVowel) = rest at h hrest hvowels
      have hgroup : rest.takeWhile (·.isVowel) ++ rest.dropWhile (·.isVowel) = rest :=
        List.takeWhile_append_dropWhile
      have hafter : rest.dropWhile (·.isVowel) <:+ rest := List.dropWhile_suffix _
      generalize rest.dropWhile (·.isVowel) = after at h hafter hgroup
      have hconsonants : after.takeWhile (!·.isVowel) ++ after.dropWhile (!·.isVowel) = after :=
        List.takeWhile_append_dropWhile
      have hnext : after.dropWhile (!·.isVowel) <:+ after := List.dropWhile_suffix _
      have hvowel := stopsAt_dropWhile (p := fun s : CharState => !s.isVowel) after
      split_ifs at h with hempty hreturn
      · simp only [Bool.and_eq_true, Bool.not_eq_true', List.isEmpty_eq_false_iff] at hreturn
        rw [List.isEmpty_iff] at hempty
        obtain ⟨a, ha, hain⟩ := exists_mem_takeWhile (p := (·.isVowel)) hempty
          (fun s hs => by simpa using hvowels s hs)
        obtain ⟨b, hb⟩ := List.exists_mem_of_ne_nil _ hreturn.1.1
        obtain ⟨c, next, hc⟩ := List.exists_cons_of_ne_nil hreturn.1.2
        have hcin : c.isVowel = true := by simpa using hvowel c (by rw [hc]; rfl)
        refine ReturnsToVowel.of_suffix ⟨a.base, b.base, c.base, hain, ?_, hcin, ?_⟩ hrest
        · simpa [isVowelBase_base] using List.mem_takeWhile_imp hb
        · rw [← hgroup, ← hconsonants, hc, bases, List.map_append, List.map_append]
          have hafirst : [a.base].Sublist (bases (rest.takeWhile (·.isVowel))) :=
            List.singleton_sublist.mpr (List.mem_map_of_mem ha)
          have hbfirst : [b.base].Sublist (bases (after.takeWhile (!·.isVowel))) :=
            List.singleton_sublist.mpr (List.mem_map_of_mem hb)
          exact hafirst.append (hbfirst.append ((List.nil_sublist _).cons_cons _))
      · exact (ih h).of_suffix ((hnext.trans hafter).trans hrest)

omit [WideCType] in
theorem returnsToVowel_of_hasStructuralVCVPattern (h : hasStructuralVCVPattern states = true) :
    ReturnsToVowel states := by
  unfold hasStructuralVCVPattern at h
  split_ifs at h
  exact returnsToVowel_of_hasVCVFrom h

/-- A vowel and a consonant behind it. -/
def PassesConsonant (states : List CharState) : Prop :=
  ∃ a b, isVowelBase a = true ∧ isVowelBase b = false ∧ [a, b].Sublist (bases states)

omit [WideCType] in
theorem PassesConsonant.isDeadEnd_append (h : PassesConsonant states) {s : CharState}
    (hs : s.isVowel = true) : IsDeadEnd allowZwjf (states ++ [s]) := by
  obtain ⟨a, b, ha, hb, hsub⟩ := h
  refine isDeadEnd_of_return ha hb hs ?_
  rw [bases, List.map_append, List.map_singleton]
  exact hsub.append (List.Sublist.refl [s.base])

omit [WideCType] in
/-- Behind a vowel a letter that is in no final consonant leads nowhere. -/
theorem isDeadEnd_append_of_vowel {s : CharState} (hvowel : ∃ s ∈ states, s.isVowel = true)
    (hs : s.isVowel = false) (hno : ∀ final : Final, s.base ∉ final.letters) :
    IsDeadEnd allowZwjf (states ++ [s]) := by
  have hlast : stateAt (states ++ [s]) states.length = s := by simp [stateAt]
  cases hscan : scanDown (fun i => (stateAt (states ++ [s]) i).isVowel) (states ++ [s]).length with
  | none =>
      obtain ⟨v, hv, hin⟩ := hvowel
      obtain ⟨i, hi, rfl⟩ := List.getElem_of_mem hv
      have hnone := scanDown_eq_none.mp hscan i (by simp; omega)
      have hget : stateAt (states ++ [s]) i = states[i] := by
        rw [stateAt, List.getD_eq_getElem _ _ (by simp; omega), List.getElem_append_left hi]
      rw [hget, hin] at hnone
      cases hnone
  | some i =>
      obtain ⟨hi, hin, hout⟩ := scanDown_eq_some hscan
      refine isDeadEnd_behind_vowel hin hout fun final hbegins => hno final (hbegins.subset ?_)
      have hlt : i < states.length := by
        rw [List.length_append, List.length_singleton] at hi
        refine lt_of_le_of_ne (by omega) fun heq => ?_
        rw [heq, hlast, hs] at hin
        cases hin
      rw [List.drop_append_of_le_length (by omega), bases, List.map_append]
      simp

omit [WideCType] in
theorem d_not_mem_tail_onset {onset : List CharState} (h : IsOnset allowZwjf onset) :
    L 'd' ∉ (bases onset).tail := by
  have hpairs : ∀ p ∈ pairOnsets, p.2 ≠ L 'd' := by decide
  cases h with
  | nil => simp
  | single hvowel h => simp
  | @pair s0 s1 h => simpa using fun hd => hpairs _ h hd.symm
  | ngh h0 h1 h2 =>
      simp only [bases, List.map_cons, List.map_nil, List.tail_cons, h1, h2]
      decide

omit [WideCType] in
/-- A `d` that is not the first letter leads nowhere. -/
theorem isDeadEnd_of_d_behind {i : Nat} (hpos : 0 < i) (hlt : i < states.length)
    (hd : (stateAt states i).isD = true) : IsDeadEnd allowZwjf states := by
  have hbase : (stateAt states i).base = L 'd' := by simpa [CharState.isD] using hd
  have hfinal : ∀ final : Final, L 'd' ∉ final.letters := by
    intro final
    cases final <;> decide
  -- the letters up to the `d`: with a vowel they end in no coda, without one they are no onset
  have htake : states.take (i + 1) = states.take i ++ [stateAt states i] := by
    rw [List.take_add_one, stateAt, List.getD_eq_getElem _ _ hlt, List.getElem?_eq_getElem hlt]
    rfl
  suffices h : IsDeadEnd allowZwjf (states.take (i + 1)) from
    h.of_isPrefix ((List.take_prefix _ _).map _)
  rw [htake]
  by_cases hvowel : ∃ s ∈ states.take i, s.isVowel = true
  · exact isDeadEnd_append_of_vowel hvowel (isD_not_vowel hd) (by rwa [hbase])
  · refine isDeadEnd_of_onset ?_ (List.prefix_refl (bases (states.take i ++ [stateAt states i])))
      fun onset honset hbegins => ?_
    · intro base hmem
      obtain ⟨s, hs, rfl⟩ := List.mem_map.mp hmem
      rcases List.mem_append.mp hs with hs | hs
      · simpa [isVowelBase_base] using fun hin => hvowel ⟨s, hs, hin⟩
      · rw [List.mem_singleton.mp hs]
        exact isD_not_vowel hd
    · have hne : states.take i ≠ [] := by
        intro hnil
        have hlength := congrArg List.length hnil
        rw [List.length_take, List.length_nil] at hlength
        omega
      obtain ⟨first, rest, hfirst⟩ := List.exists_cons_of_ne_nil hne
      obtain ⟨tail, htail⟩ := hbegins
      refine d_not_mem_tail_onset honset ?_
      rw [← htail, hfirst]
      simp [hbase]

omit [WideCType] in
/-- Where a stroke key marks the word as English, the word is a dead end. -/
theorem isDeadEnd_of_shouldBlockStrokeDAsEnglish {dTarget : Nat}
    (htarget : findStrokeDTarget states = some dTarget) (hlen : 3 ≤ states.length)
    (h : shouldBlockStrokeDAsEnglish states dTarget = true) : IsDeadEnd allowZwjf states := by
  have hd : (stateAt states dTarget).isD = true := by
    rw [CharState.isD, TypingEngine.stateAt_findStrokeDTarget htarget, beq_self_eq_true]
  rcases Nat.eq_zero_or_pos dTarget with rfl | hpos
  · rw [shouldBlockStrokeDAsEnglish, Bool.or_eq_true, Bool.and_eq_true] at h
    rcases h with hblocked | ⟨-, hreturn⟩
    · unfold isStrokeDBlockedByCoda at hblocked
      split_ifs at hblocked with hvowel
      refine isDeadEnd_of_d_consonant (by omega) hd ?_
      simpa using fun hin => hvowel ⟨rfl, by omega, hin⟩
    · exact (returnsToVowel_of_hasStructuralVCVPattern hreturn).isDeadEnd
  · refine isDeadEnd_of_d_behind hpos ?_ hd
    by_contra hle
    rw [stateAt_of_le (by omega)] at hd
    cases hd

end English

end VKey
