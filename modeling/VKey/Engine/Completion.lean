import Mathlib.Data.List.Sections
import Mathlib.Logic.Relation
import VKey.Engine.SyllablePrefix

/-!
# Continuations of a buffer

The validator calls a buffer a prefix if some letters, modifiers and tones could still make it
valid. Which buffers they can make valid is read off the tables: the vowels must become a nucleus
that takes the letters behind them as the beginning of a final consonant.
-/

namespace VKey.Phonology

/-! ## Continuations -/

/-- The modifiers of a vowel. -/
def legalModifiers (base : WChar) : List Modifier :=
  if base = L 'a' then [.circumflex, .breve]
  else if base = L 'e' then [.circumflex]
  else if base = L 'o' then [.circumflex, .horn]
  else if base = L 'u' then [.horn]
  else []

/-- One continuation: a letter more, a modifier on an unmodified vowel, or a tone. -/
inductive Continuation : List CharState → List CharState → Prop
  | letter (states : List CharState) (s : CharState) (hmod : s.mod = .none)
      (htone : s.tone = .none) :
      Continuation states (states ++ [s])
  | modifier (front back : List CharState) (s : CharState) (mod : Modifier) (hplain : s.mod = .none)
      (hlegal : mod ∈ legalModifiers s.base) :
      Continuation (front ++ s :: back) (front ++ { s with mod } :: back)
  | tone (front back : List CharState) (s : CharState) (tone : Tone) :
      Continuation (front ++ s :: back) (front ++ { s with tone } :: back)

/-- Some sequence of continuations. -/
abbrev Continues : List CharState → List CharState → Prop := Relation.ReflTransGen Continuation

/-- The modifiers a letter may come to carry. -/
def marks (s : CharState) : List Modifier :=
  if s.mod = .none then .none :: legalModifiers s.base else [s.mod]

theorem mod_mem_marks (s : CharState) : s.mod ∈ marks s := by
  rw [marks]
  split_ifs with h
  · rw [h]
    exact List.mem_cons_self
  · exact List.mem_singleton_self _

theorem none_mem_marks {s : CharState} (h : Modifier.none ∈ marks s) : s.mod = .none := by
  by_contra hmod
  rw [marks, if_neg hmod, List.mem_singleton] at h
  exact hmod h.symm

theorem mem_marks_of_consonant {s : CharState} (hvowel : s.isVowel = false) {mod : Modifier}
    (h : mod ∈ marks s) : mod = s.mod := by
  have hlegal : legalModifiers s.base = [] := by
    unfold CharState.isVowel at hvowel
    simp only [Bool.or_eq_false_iff, beq_eq_false_iff_ne] at hvowel
    obtain ⟨⟨⟨⟨⟨ha, he⟩, -⟩, ho⟩, hu⟩, -⟩ := hvowel
    rw [legalModifiers, if_neg ha, if_neg he, if_neg ho, if_neg hu]
  rw [marks, hlegal] at h
  split_ifs at h with hmod
  · rw [hmod]
    exact List.mem_singleton.mp h
  · exact List.mem_singleton.mp h

/-- What the continuations make of a letter. -/
def Grown (s later : CharState) : Prop := later.base = s.base ∧ later.mod ∈ marks s

theorem Grown.refl (s : CharState) : Grown s s := ⟨rfl, mod_mem_marks s⟩

theorem Grown.isVowel {s later : CharState} (h : Grown s later) : later.isVowel = s.isVowel := by
  rw [isVowel_congr h.1, CharState.isVowel, CharState.isVowel]

/-- What the continuations make of a buffer. -/
structure Extends (states later : List CharState) : Prop where
  length_le : states.length ≤ later.length
  grown : ∀ i < states.length, Grown (stateAt states i) (stateAt later i)

theorem Extends.refl (states : List CharState) : Extends states states :=
  ⟨Nat.le_refl _, fun _ _ => Grown.refl _⟩

theorem stateAt_append_left {front : List CharState} (back : List CharState) {i : Nat}
    (h : i < front.length) : stateAt (front ++ back) i = stateAt front i := by
  rw [stateAt, stateAt, List.getD_append _ _ _ _ h]

theorem stateAt_append_right {front : List CharState} (back : List CharState) {i : Nat}
    (h : front.length ≤ i) : stateAt (front ++ back) i = stateAt back (i - front.length) := by
  rw [stateAt, stateAt, List.getD_append_right _ _ _ _ h]

/-- A change of one letter that keeps the base and, unless it is a legal modifier, the modifier. -/
theorem Extends.set {states front back : List CharState} {s changed : CharState}
    (h : Extends states (front ++ s :: back)) (hbase : changed.base = s.base)
    (hmod : changed.mod = s.mod ∨ s.mod = .none ∧ changed.mod ∈ legalModifiers s.base) :
    Extends states (front ++ changed :: back) := by
  refine ⟨by simpa using h.length_le, ?_⟩
  intro i hi
  have hgrown := h.grown i hi
  by_cases hfront : i < front.length
  · rw [stateAt_append_left _ hfront] at hgrown ⊢
    exact hgrown
  · rw [stateAt_append_right _ (not_lt.mp hfront)] at hgrown ⊢
    cases hoffset : i - front.length with
    | zero =>
        rw [hoffset] at hgrown
        change Grown _ s at hgrown
        change Grown _ changed
        refine ⟨hbase.trans hgrown.1, ?_⟩
        rcases hmod with hmod | ⟨hplain, hlegal⟩
        · rw [hmod]
          exact hgrown.2
        · have hnone := none_mem_marks (hplain ▸ hgrown.2)
          rw [marks, if_pos hnone, ← hgrown.1]
          exact List.mem_cons_of_mem _ hlegal
    | succ offset =>
        rw [hoffset] at hgrown
        exact hgrown

theorem Extends.step {states later next : List CharState} (h : Extends states later)
    (hstep : Continuation later next) : Extends states next := by
  cases hstep with
  | letter _ s hmod htone =>
      refine ⟨Nat.le_trans h.length_le (by simp), ?_⟩
      intro i hi
      rw [stateAt_append_left _ (Nat.lt_of_lt_of_le hi h.length_le)]
      exact h.grown i hi
  | modifier front back s mod hplain hlegal => exact h.set rfl (Or.inr ⟨hplain, hlegal⟩)
  | tone front back s tone => exact h.set rfl (Or.inl rfl)

theorem extends_of_continues {states later : List CharState} (h : Continues states later) :
    Extends states later := by
  induction h with
  | refl => exact Extends.refl states
  | tail _ hstep ih => exact ih.step hstep

theorem Extends.forall₂ {states later : List CharState} (h : Extends states later) :
    List.Forall₂ Grown states (later.take states.length) := by
  rw [List.forall₂_iff_get]
  refine ⟨by rw [List.length_take, Nat.min_eq_left h.length_le], ?_⟩
  intro i hi hlater
  have hgrown := h.grown i hi
  rw [List.length_take] at hlater
  rw [stateAt, stateAt, List.getD_eq_getElem _ _ hi, List.getD_eq_getElem _ _ (by omega)] at hgrown
  simpa using hgrown

/-! ## Marking the letters -/

/-- A letter with one of its modifiers and without tone. -/
def Marked (s marked : CharState) : Prop :=
  ∃ mod ∈ marks s, marked = { s with mod, tone := .none }

theorem Marked.grown {s marked : CharState} (h : Marked s marked) : Grown s marked := by
  obtain ⟨mod, hmod, rfl⟩ := h
  exact ⟨rfl, hmod⟩

/-- A letter without its tone. -/
def untoned (s : CharState) : CharState := { s with tone := .none }

theorem marked_untoned (s : CharState) : Marked s (untoned s) := ⟨s.mod, mod_mem_marks s, rfl⟩

theorem forall₂_marked_untoned (states : List CharState) :
    List.Forall₂ Marked states (states.map untoned) := by
  rw [List.forall₂_map_right_iff, List.forall₂_same]
  exact fun s _ => marked_untoned s

/-- Every choice of modifiers is reached. -/
theorem continues_marked {states marked : List CharState} (h : List.Forall₂ Marked states marked)
    (front : List CharState) : Continues (front ++ states) (front ++ marked) := by
  induction h generalizing front with
  | nil => exact .refl
  | @cons s t states marked hmarked _ ih =>
      obtain ⟨mod, hmod, rfl⟩ := hmarked
      have hrest := ih (front ++ [{ s with mod, tone := .none }])
      rw [List.append_assoc, List.append_assoc] at hrest
      refine Relation.ReflTransGen.trans ?_ hrest
      have htone : Continues (front ++ s :: states) (front ++ untoned s :: states) :=
        .single (.tone front states s .none)
      by_cases hsame : mod = s.mod
      · subst hsame
        exact htone
      · rw [marks] at hmod
        split_ifs at hmod with hplain
        · rcases List.mem_cons.mp hmod with rfl | hlegal
          · exact absurd hplain.symm hsame
          · exact htone.tail (.modifier front states (untoned s) mod hplain hlegal)
        · exact absurd (List.mem_singleton.mp hmod) hsame

/-- A plain letter. -/
def plain (base : WChar) : CharState := { base }

theorem continues_append (states : List CharState) (letters : List WChar) :
    Continues states (states ++ letters.map plain) := by
  induction letters generalizing states with
  | nil =>
      rw [List.map_nil, List.append_nil]
  | cons base letters ih =>
      have hrest := ih (states ++ [plain base])
      rw [List.append_assoc] at hrest
      exact .head (.letter states (plain base) rfl rfl) hrest

/-! ## The condition -/

/-- The slots a vowel may come to be. -/
def slotChoices (s : CharState) : List Slot := (marks s).map fun mod => slotOf { s with mod }

/-- The final consonants a nucleus takes. -/
def takenFinals (slots : List Slot) : List Final :=
  match findVowel (packed slots) with
  | some entry =>
      if entry.canEnd then
        (getAllowedFinals (packed slots)).filter fun final => final != .k || slots == [(kA, kBrev)]
      else []
  | none => []

/-- Modifiers make the vowels a nucleus that takes the letters behind them as the beginning of a
final consonant. -/
def isCompletable (rhyme : List CharState) : Bool :=
  let vowels := rhyme.takeWhile (·.isVowel)
  let coda := rhyme.dropWhile (·.isVowel)
  (vowels.map slotChoices).sections.any fun slots =>
    nuclei.contains slots &&
      (coda.isEmpty || (takenFinals slots).any fun final => (bases coda).isPrefixOf final.letters)

/-- The buffer is the onset `qu`. -/
def IsBareQu (states : List CharState) : Prop := StartsQu states ∧ states.length = 2

instance (states : List CharState) : Decidable (IsBareQu states) :=
  inferInstanceAs (Decidable ((_ ∧ _ ∧ _) ∧ _))

instance (states : List CharState) : Decidable (StartsGi states) :=
  inferInstanceAs (Decidable (_ ∧ _ ∧ _))

instance (states : List CharState) : Decidable (StartsQu states) :=
  inferInstanceAs (Decidable (_ ∧ _ ∧ _))

/-- The lengths of the onset the validator tries. -/
def readings (states : List CharState) (allowZwjf : Bool) : List Nat :=
  parseInitialConsonant states allowZwjf ::
    if (StartsGi states ∨ StartsQu states) ∧ followedByVowel states then [2] else []

/-- The buffer is an onset, or modifiers and the rest of a final consonant make its rhyme one. -/
def Completable (states : List CharState) (allowZwjf : Bool) : Prop :=
  isValidConsonantPrefix states allowZwjf = true ∨ IsBareQu states ∨
    ∃ len ∈ readings states allowZwjf, isCompletable (states.drop len) = true

instance (states : List CharState) (allowZwjf : Bool) : Decidable (Completable states allowZwjf) :=
  inferInstanceAs (Decidable (_ ∨ _ ∨ _))

theorem isCompletable_iff {rhyme vowels coda : List CharState} (h : IsRhyme rhyme vowels coda) :
    isCompletable rhyme = true ↔
      ∃ slots ∈ nuclei, List.Forall₂ (· ∈ ·) slots (vowels.map slotChoices) ∧
        (coda = [] ∨ ∃ final ∈ takenFinals slots, bases coda <+: final.letters) := by
  rw [isCompletable]
  obtain ⟨hvowels, hcoda⟩ := h.takeWhile_eq
  simp only [hvowels, hcoda, List.any_eq_true, List.mem_sections, Bool.and_eq_true, Bool.or_eq_true,
    List.contains_iff_mem, List.isEmpty_iff, List.isPrefixOf_iff_prefix]
  constructor
  · rintro ⟨slots, hchoice, hmem, htaken⟩
    exact ⟨slots, hmem, hchoice, htaken⟩
  · rintro ⟨slots, hmem, hchoice, htaken⟩
    exact ⟨slots, hchoice, hmem, htaken⟩

/-- Only vowels are modified, so an onset stays one, and only an onset becomes one. -/
theorem isOnset_iff_of_grown {states later : List CharState} {allowZwjf : Bool}
    (h : List.Forall₂ Grown states later) : IsOnset allowZwjf later ↔ IsOnset allowZwjf states := by
  have hsingle :
    ∀ {s t : CharState}, Grown s t → s.isVowel = false → isStrokeD t = isStrokeD s := by
    intro s t hgrown hvowel
    rw [isStrokeD, isStrokeD, CharState.isD, CharState.isD, hgrown.1,
      mem_marks_of_consonant hvowel hgrown.2]
  constructor
  · intro honset
    cases honset with
    | nil =>
        cases h
        exact .nil
    | single hvowel hinitial =>
        obtain ⟨s, _, hgrown, hnil, rfl⟩ := List.forall₂_cons_right_iff.mp h
        cases hnil
        rw [hgrown.isVowel] at hvowel
        rw [hgrown.1, hsingle hgrown hvowel] at hinitial
        exact .single hvowel hinitial
    | pair hbases =>
        obtain ⟨s, _, hgrown, hrest, rfl⟩ := List.forall₂_cons_right_iff.mp h
        obtain ⟨s', _, hgrown', hnil, rfl⟩ := List.forall₂_cons_right_iff.mp hrest
        cases hnil
        rw [hgrown.1, hgrown'.1] at hbases
        exact .pair hbases
    | ngh h0 h1 h2 =>
        obtain ⟨s, _, hgrown, hrest, rfl⟩ := List.forall₂_cons_right_iff.mp h
        obtain ⟨s', _, hgrown', hrest', rfl⟩ := List.forall₂_cons_right_iff.mp hrest
        obtain ⟨s'', _, hgrown'', hnil, rfl⟩ := List.forall₂_cons_right_iff.mp hrest'
        cases hnil
        exact .ngh (hgrown.1 ▸ h0) (hgrown'.1 ▸ h1) (hgrown''.1 ▸ h2)
  · intro honset
    cases honset with
    | nil =>
        cases h
        exact .nil
    | single hvowel hinitial =>
        obtain ⟨t, _, hgrown, hnil, rfl⟩ := List.forall₂_cons_left_iff.mp h
        cases hnil
        rw [← hgrown.1, ← hsingle hgrown hvowel] at hinitial
        rw [← hgrown.isVowel] at hvowel
        exact .single hvowel hinitial
    | pair hbases =>
        obtain ⟨t, _, hgrown, hrest, rfl⟩ := List.forall₂_cons_left_iff.mp h
        obtain ⟨t', _, hgrown', hnil, rfl⟩ := List.forall₂_cons_left_iff.mp hrest
        cases hnil
        rw [← hgrown.1, ← hgrown'.1] at hbases
        exact .pair hbases
    | ngh h0 h1 h2 =>
        obtain ⟨t, _, hgrown, hrest, rfl⟩ := List.forall₂_cons_left_iff.mp h
        obtain ⟨t', _, hgrown', hrest', rfl⟩ := List.forall₂_cons_left_iff.mp hrest
        obtain ⟨t'', _, hgrown'', hnil, rfl⟩ := List.forall₂_cons_left_iff.mp hrest'
        cases hnil
        exact .ngh (hgrown.1.trans h0) (hgrown'.1.trans h1) (hgrown''.1.trans h2)

/-- An onset in front of a vowel is parsed as a whole. -/
theorem parseInitialConsonant_append {onset rest : List CharState}
    {s : CharState} {allowZwjf : Bool} (h : IsOnset allowZwjf onset) (hvowel : s.isVowel = true) :
    parseInitialConsonant (onset ++ s :: rest) allowZwjf = onset.length := by
  cases h with
  | nil => exact parseInitialConsonant_of_vowel hvowel
  | @single s0 hconsonant hinitial =>
      have h0 : stateAt ([s0] ++ s :: rest) 0 = s0 := rfl
      have h1 : (stateAt ([s0] ++ s :: rest) 1).isVowel = true := hvowel
      rw [parseInitialConsonant_of_second_vowel h1, h0, hconsonant, if_neg Bool.false_ne_true]
      rcases hinitial with hinitial | hstroke
      · rw [if_pos hinitial, ite_self]
        rfl
      · rw [if_pos hstroke]
        rfl
  | @pair s0 s1 hbases =>
      have h0 : stateAt ([s0, s1] ++ s :: rest) 0 = s0 := rfl
      have h1 : stateAt ([s0, s1] ++ s :: rest) 1 = s1 := rfl
      have h2 : stateAt ([s0, s1] ++ s :: rest) 2 = s := rfl
      have hlength : ([s0, s1] ++ s :: rest).length = rest.length + 3 := rfl
      simp only [List.mem_cons, Prod.mk.injEq, List.not_mem_nil, or_false] at hbases
      rcases hbases with ⟨hb0, hb1⟩ | ⟨hb0, hb1⟩ | ⟨hb0, hb1⟩ | ⟨hb0,
        hb1⟩ | ⟨hb0, hb1⟩ | ⟨hb0, hb1⟩ |
        ⟨hb0, hb1⟩ | ⟨hb0, hb1⟩ <;>
        (simp only [parseInitialConsonant, isStrokeD, CharState.isD, h0, h1, h2, isVowel_congr hb0,
          isVowel_congr hb1, hb0, hb1, hvowel, hlength, Bool.not_true,
            Bool.false_eq_true, and_false,
          if_false, Nat.le_add_left]
         rfl)
  | @ngh s0 s1 s2 hb0 hb1 hb2 =>
      have h0 : stateAt ([s0, s1, s2] ++ s :: rest) 0 = s0 := rfl
      have h1 : stateAt ([s0, s1, s2] ++ s :: rest) 1 = s1 := rfl
      have h2 : stateAt ([s0, s1, s2] ++ s :: rest) 2 = s2 := rfl
      have hlength : ([s0, s1, s2] ++ s :: rest).length = rest.length + 4 := rfl
      have hlong : 3 ≤ rest.length + 4 := by omega
      simp only [parseInitialConsonant, isStrokeD, CharState.isD, h0, h1, h2, isVowel_congr hb0,
        isVowel_congr hb1, isVowel_congr hb2, hb0, hb1, hb2, hlength, hlong]
      rfl

/-! ## Valid buffers -/

/-- A valid buffer has a vowel behind the onset. -/
theorem validateImpl_eq_valid_iff {states : List CharState} {allowZwjf : Bool} :
    validateImpl states allowZwjf = .valid ↔
      (stateAt states (parseInitialConsonant states allowZwjf)).isVowel = true ∧
        violatesOnsetVowelRule states (parseInitialConsonant states allowZwjf) = false ∧
        violatesOeOaRule states (parseInitialConsonant states allowZwjf) = false ∧
        validateDual states
          (validateDecomposition states (parseInitialConsonant states allowZwjf)) = .valid := by
  rw [validateImpl_eq]
  cases hvowel : (stateAt states (parseInitialConsonant states allowZwjf)).isVowel with
  | false =>
      constructor
      · intro h
        split_ifs at h with hempty hstart honset hbegins
        · have hzero : parseInitialConsonant states allowZwjf = 0 := by
            by_contra hpos
            exact honset ⟨Nat.pos_of_ne_zero hpos, rfl⟩
          rw [hzero] at hvowel
          exact absurd ⟨hzero, hvowel⟩ hstart
      · rintro ⟨h, -⟩
        cases h
  | true =>
      have hempty : ¬states.length = 0 := by
        have hlt := lt_length_of_isVowel hvowel
        omega
      have hstart : ¬(parseInitialConsonant states allowZwjf = 0 ∧
          (stateAt states 0).isVowel = false) := by
        rintro ⟨hzero, hfirst⟩
        rw [hzero, hfirst] at hvowel
        cases hvowel
      rw [if_neg hempty, if_neg hstart, if_neg (fun hboth => Bool.noConfusion hboth.2)]
      cases violatesOnsetVowelRule states (parseInitialConsonant states allowZwjf) <;>
        cases violatesOeOaRule states (parseInitialConsonant states allowZwjf) <;> simp

/-- The reading that makes a buffer valid. -/
theorem validateDual_eq_valid_iff {states : List CharState} {allowZwjf : Bool} :
    validateDual states (validateDecomposition states (parseInitialConsonant states allowZwjf)) =
        .valid ↔
      ¬IsBareQu states ∧
        ∃ len ∈ readings states allowZwjf, validateDecomposition states len = .valid := by
  by_cases hgi : StartsGi states
  · have hbare : ¬IsBareQu states := by
      rintro ⟨hqu, -⟩
      have hbase := hqu.2.1
      rw [hgi.2.1] at hbase
      revert hbase
      decide
    have hvowel : (stateAt states 1).isVowel = true := by
      rw [isVowel_congr hgi.2.2]
      decide
    rw [readings, parseInitialConsonant_of_startsGi hgi]
    unfold validateDual
    dsimp only
    rw [if_pos ⟨hgi.1, hgi.2.1, hgi.2.2, hvowel⟩, ← followedByVowel]
    cases followedByVowel states <;> cases h1 : validateDecomposition states 1 <;>
      cases h2 : validateDecomposition states 2 <;>
      simp [hgi, hbare, h1, h2, SyllableState.improve]
  · by_cases hqu : StartsQu states
    · have hnotGi : ¬(2 ≤ states.length ∧ (stateAt states 0).base = L 'g' ∧
          (stateAt states 1).base = L 'i' ∧ (stateAt states 1).isVowel = true) :=
        fun h => hgi ⟨h.1, h.2.1, h.2.2.1⟩
      have hbare : IsBareQu states ↔ states.length = 2 := ⟨fun h => h.2, fun h => ⟨hqu, h⟩⟩
      rw [readings, parseInitialConsonant_of_startsQu hqu, hbare]
      unfold validateDual
      dsimp only
      rw [if_neg hnotGi, if_pos ⟨hqu.1, hqu.2.1, hqu.2.2⟩, ← followedByVowel]
      cases hfollowed : followedByVowel states with
      | true =>
          have hlength : ¬states.length = 2 := by
            rw [followedByVowel, Bool.and_eq_true, decide_eq_true_eq] at hfollowed
            omega
          cases h1 : validateDecomposition states 1 <;> cases h2 :
            validateDecomposition states 2 <;>
            simp [hqu, hlength, h1, h2, SyllableState.improve]
      | false =>
          by_cases hlength : states.length = 2 <;> simp [hlength]
    · have hbare : ¬IsBareQu states := fun h => hqu h.1
      rw [validateDual_other hgi hqu, readings, if_neg (fun h => h.1.elim hgi hqu)]
      simp [hbare]

/-! ## Valid rhymes -/

theorem findVowel_mem {key : Nat} {entry : VowelEntry} (h : findVowel key = some entry) :
    entry ∈ kVowelTable ∧ entry.key = key := by
  rw [findVowel] at h
  exact ⟨List.mem_of_find?_eq_some h, by simpa using List.find?_some h⟩

theorem getAllowedFinals_ne_nil : ∀ entry ∈ kVowelTable, entry.canEnd = true →
    getAllowedFinals entry.key ≠ [] := by
  decide

theorem takenFinals_ne_nil : ∀ slots ∈ nuclei,
    (findVowel (packed slots)).any (·.requiresEnd) = true → takenFinals slots ≠ [] := by
  decide

theorem mem_takenFinals {slots : List Slot} {entry : VowelEntry} {final : Final}
    (h : findVowel (packed slots) = some entry) :
    final ∈ takenFinals slots ↔ entry.canEnd = true ∧ final ∈ getAllowedFinals (packed slots) ∧
      (final ≠ .k ∨ slots = [(kA, kBrev)]) := by
  rw [takenFinals, h]
  cases hend : entry.canEnd <;> simp [hend]

theorem isABreve_iff {vowels : List CharState} (h : IsVowelRun vowels) :
    IsABreve vowels ↔ vowels.map slotOf = [(kA, kBrev)] := by
  match vowels, h with
  | [s], h =>
      have hs := h.vowel s (List.mem_singleton_self s)
      have hbase : (baseIndex s.base).getD 0 = kA ↔ s.base = L 'a' := by
        constructor
        · intro hindex
          unfold CharState.isVowel at hs
          simp only [Bool.or_eq_true, beq_iff_eq] at hs
          rcases hs with ((((hs | hs) | hs) | hs) | hs) | hs
          · exact hs
          all_goals
            rw [hs] at hindex
            exact absurd hindex (by decide)
        · intro hbase
          rw [hbase]
          rfl
      have hstate : stateAt [s] 0 = s := rfl
      rw [IsABreve, hstate, List.map_singleton, List.singleton_inj, slotOf, Prod.mk.injEq, hbase]
      simp
  | s0 :: s1 :: vowels, _ => simp [IsABreve]

/-- The rhyme of a valid reading. -/
theorem rhyme_of_validateDecomposition {states vowels coda : List CharState} {len : Nat}
    (h : IsRhyme (states.drop len) vowels coda)
    (hvalid : validateDecomposition states len = .valid) :
    vowels.map slotOf ∈ nuclei ∧
      (coda = [] ∨ ∃ final ∈ takenFinals (vowels.map slotOf), bases coda = final.letters) := by
  rw [validateDecomposition_eq h] at hvalid
  cases hfind : findVowel (packed (vowels.map slotOf)) with
  | none =>
      rw [hfind] at hvalid
      dsimp only at hvalid
      split_ifs at hvalid
  | some entry =>
      rw [hfind] at hvalid
      refine ⟨h.run.isSome_findVowel_iff.mp (by rw [hfind]; rfl), ?_⟩
      by_cases hne : coda = []
      · exact Or.inl hne
      · right
        dsimp only at hvalid
        cases hend : entry.canEnd with
        | false =>
            rw [validateCoda_of_not_canEnd hend hne] at hvalid
            split_ifs at hvalid
        | true =>
            by_cases hexists : ∃ final : Final, bases coda = final.letters
            · obtain ⟨final, hfinal⟩ := hexists
              rw [validateCoda_final hend hfinal] at hvalid
              split_ifs at hvalid with hk hallowed hgrown hstop
              obtain ⟨hentry, hkey⟩ := findVowel_mem hfind
              have hrule := getAllowedFinals_ne_nil entry hentry hend
              rw [hkey] at hrule
              refine ⟨final, (mem_takenFinals hfind).mpr ⟨hend, ?_, ?_⟩, hfinal⟩
              · by_contra hnot
                exact hallowed ⟨hrule, hnot⟩
              · by_contra hboth
                rw [not_or, not_not, ← isABreve_iff h.run] at hboth
                exact hk hboth
            · rw [validateCoda_not_final hend hne hexists] at hvalid
              cases hvalid

/-- A nucleus with a final consonant it takes, or without one if it needs none. -/
theorem validateDecomposition_of_rhyme {states vowels coda : List CharState} {len : Nat}
    {entry : VowelEntry} (h : IsRhyme (states.drop len) vowels coda)
    (hfind : findVowel (packed (vowels.map slotOf)) = some entry) (htone : getTone states = .none)
    (hcoda : coda = [] ∧ entry.requiresEnd = false ∨
      ∃ final ∈ takenFinals (vowels.map slotOf), bases coda = final.letters) :
    validateDecomposition states len = .valid := by
  rw [validateDecomposition_eq h, hfind]
  dsimp only
  rcases hcoda with ⟨rfl, hend⟩ | ⟨final, htaken, hfinal⟩
  · rw [validateCoda, List.isEmpty_nil, if_pos rfl, hend, if_neg Bool.false_ne_true]
  · obtain ⟨hend, hallowed, hk⟩ := (mem_takenFinals hfind).mp htaken
    rw [← isABreve_iff h.run] at hk
    rw [validateCoda_final hend hfinal, if_neg, if_neg, if_neg]
    · rintro ⟨-, hstop⟩
      exact hstop (Or.inl htone)
    · rintro ⟨-, hnot⟩
      exact hnot hallowed
    · rintro ⟨hfinalK, hbreve⟩
      exact hk.elim (fun hne => hne hfinalK) hbreve

/-! ## Readings of a continuation -/

theorem parseInitialConsonant_of_take {states : List CharState} {allowZwjf : Bool} {n : Nat}
    (h : IsOnset allowZwjf (states.take n)) (hvowel : (stateAt states n).isVowel = true) :
    parseInitialConsonant states allowZwjf = n := by
  have hlt := lt_length_of_isVowel hvowel
  have hstate : stateAt states n = states.get ⟨n, hlt⟩ := List.getD_eq_getElem _ _ hlt
  have hsplit : states = states.take n ++ stateAt states n :: states.drop (n + 1) := by
    rw [hstate, List.get_eq_getElem, List.getElem_cons_drop, List.take_append_drop]
  have hparse :
    parseInitialConsonant (states.take n ++ stateAt states n :: states.drop (n + 1)) allowZwjf =
      (states.take n).length := parseInitialConsonant_append h hvowel
  rw [← hsplit, List.length_take, Nat.min_eq_left (Nat.le_of_lt hlt)] at hparse
  exact hparse

theorem Grown.slotOf_mem {s later : CharState} (h : Grown s later) :
    slotOf later ∈ slotChoices s := by
  rw [slotChoices, List.mem_map]
  refine ⟨later.mod, h.2, ?_⟩
  rw [slotOf, slotOf, h.1]

/-- What is a rhyme in the end was one before, unless the vowels have not all been typed. -/
theorem exists_isRhyme_of_grown {rhyme vowels coda : List CharState} (hrun : IsVowelRun vowels)
    (hconsonant : ∀ s ∈ coda.head?, s.isVowel = false) (hne : rhyme ≠ [])
    (h : List.Forall₂ Grown rhyme ((vowels ++ coda).take rhyme.length)) :
    ∃ typed rest, IsRhyme rhyme typed rest ∧
      List.Forall₂ Grown typed (vowels.take typed.length) ∧
      List.Forall₂ Grown rest (coda.take rest.length) ∧
      (rest = [] ∨ typed.length = vowels.length) := by
  have htyped := List.forall₂_take vowels.length h
  rw [List.take_take, List.take_append_of_le_length (Nat.min_le_left _ _),
    ← List.length_take] at htyped
  have hrest := List.forall₂_drop vowels.length h
  rw [List.drop_take, List.drop_left, ← List.length_drop] at hrest
  refine ⟨rhyme.take vowels.length, rhyme.drop vowels.length,
    ⟨?_, ⟨?_, ?_, ?_⟩, ?_⟩, htyped, hrest, ?_⟩
  · rw [List.take_append_drop]
  · intro s hs
    obtain ⟨i, hi, rfl⟩ := List.getElem_of_mem hs
    have hi' : i < (vowels.take (rhyme.take vowels.length).length).length := by
      rw [← htyped.length_eq]
      exact hi
    have hgrown := htyped.get hi hi'
    rw [List.get_eq_getElem, List.get_eq_getElem] at hgrown
    rw [← hgrown.isVowel]
    exact hrun.vowel _ (List.mem_of_mem_take (List.getElem_mem hi'))
  · intro hnil
    rcases List.take_eq_nil_iff.mp hnil with hzero | hnil
    · exact hrun.nonempty (List.length_eq_zero_iff.mp hzero)
    · exact hne hnil
  · exact Nat.le_trans (List.length_take_le _ _) hrun.max
  · intro s hs
    cases hcut : rhyme.drop vowels.length with
    | nil =>
        rw [hcut] at hs
        cases hs
    | cons s' rest =>
        rw [hcut] at hs hrest
        obtain rfl : s' = s := by simpa using hs
        obtain ⟨later, coda', hgrown, -, hcoda⟩ := List.forall₂_cons_left_iff.mp hrest
        rw [← hgrown.isVowel]
        apply hconsonant
        have hhead : (coda.take (s' :: rest).length).head? = some later := by
          rw [hcoda]
          rfl
        rwa [List.head?_take, if_neg (by simp)] at hhead
  · rcases Nat.lt_or_ge vowels.length rhyme.length with hlt | hle
    · right
      rw [List.length_take, Nat.min_eq_left (Nat.le_of_lt hlt)]
    · left
      exact List.drop_eq_nil_of_le hle

theorem bases_grown {states later : List CharState} (h : List.Forall₂ Grown states later) :
    bases later = bases states := by
  induction h with
  | nil => rfl
  | cons hgrown _ ih =>
        rw [bases, List.map_cons, hgrown.1, ← bases, ih, bases, bases, List.map_cons]

section Extends

variable {states later : List CharState} {allowZwjf : Bool}

theorem Extends.forall₂_take (h : Extends states later) {n : Nat} (hn : n ≤ states.length) :
    List.Forall₂ Grown (states.take n) (later.take n) := by
  have htake := List.forall₂_take n h.forall₂
  rwa [List.take_take, Nat.min_eq_left hn] at htake

theorem Extends.isOnset_take (h : Extends states later) {n : Nat} (hn : n ≤ states.length) :
    IsOnset allowZwjf (later.take n) ↔ IsOnset allowZwjf (states.take n) :=
  isOnset_iff_of_grown (h.forall₂_take hn)

theorem Extends.isVowel (h : Extends states later) {i : Nat} (hi : i < states.length) :
    (stateAt later i).isVowel = (stateAt states i).isVowel :=
  (h.grown i hi).isVowel

theorem Extends.base (h : Extends states later) {i : Nat} (hi : i < states.length) :
    (stateAt later i).base = (stateAt states i).base :=
  (h.grown i hi).1

theorem Extends.parseInitialConsonant_eq (h : Extends states later)
    (hvowel : (stateAt states (parseInitialConsonant states allowZwjf)).isVowel = true) :
    parseInitialConsonant later allowZwjf = parseInitialConsonant states allowZwjf := by
  have hlt := lt_length_of_isVowel hvowel
  apply parseInitialConsonant_of_take
  · rw [h.isOnset_take (Nat.le_of_lt hlt)]
    exact isOnset_take_parseInitialConsonant hvowel
  · rw [h.isVowel hlt]
    exact hvowel

/-- A buffer ends within the onset of its continuation or has the same onset. -/
theorem Extends.parseInitialConsonant_eq_or (h : Extends states later)
    (hvowel : (stateAt later (parseInitialConsonant later allowZwjf)).isVowel = true) :
    IsOnset allowZwjf states ∨ parseInitialConsonant later allowZwjf < states.length ∧
      parseInitialConsonant states allowZwjf = parseInitialConsonant later allowZwjf := by
  have honset := isOnset_take_parseInitialConsonant hvowel
  by_cases hlt : parseInitialConsonant later allowZwjf < states.length
  · right
    refine ⟨hlt, parseInitialConsonant_of_take ((h.isOnset_take (Nat.le_of_lt hlt)).mp honset) ?_⟩
    rw [← h.isVowel hlt]
    exact hvowel
  · left
    have htake := honset.take states.length
    rw [List.take_take, Nat.min_eq_left (not_lt.mp hlt),
      h.isOnset_take (Nat.le_refl _), List.take_length] at htake
    exact htake

theorem Extends.startsGi_iff (h : Extends states later) (hlength : 2 ≤ states.length) :
    StartsGi later ↔ StartsGi states := by
  have hle := h.length_le
  rw [StartsGi, StartsGi, h.base (by omega), h.base (by omega)]
  exact and_congr_left fun _ => iff_of_true (by omega) hlength

theorem Extends.startsQu_iff (h : Extends states later) (hlength : 2 ≤ states.length) :
    StartsQu later ↔ StartsQu states := by
  have hle := h.length_le
  rw [StartsQu, StartsQu, h.base (by omega), h.base (by omega)]
  exact and_congr_left fun _ => iff_of_true (by omega) hlength

theorem Extends.followedByVowel_eq (h : Extends states later) (hlength : 2 < states.length) :
    followedByVowel later = followedByVowel states := by
  have hle := h.length_le
  rw [followedByVowel, followedByVowel, h.isVowel hlength,
    decide_eq_true (Nat.lt_of_lt_of_le hlength hle), decide_eq_true hlength]

/-- The rhyme that a valid continuation makes of the rhyme. -/
theorem Extends.isCompletable (h : Extends states later) {len : Nat} (hlen : len < states.length)
    (hvalid : validateDecomposition later len = .valid) :
    Phonology.isCompletable (states.drop len) = true := by
  have hle := h.length_le
  have hlaterNe : later.drop len ≠ [] := by
    rw [Ne, List.drop_eq_nil_iff]
    omega
  have hne : states.drop len ≠ [] := by
    rw [Ne, List.drop_eq_nil_iff]
    omega
  have hok : validateDecomposition later len ≠ .invalid := by
    rw [hvalid]
    exact fun hinvalid => SyllableState.noConfusion hinvalid
  obtain ⟨vowels, coda, hrhyme⟩ := exists_isRhyme hlaterNe hok
  obtain ⟨hmem, hcoda⟩ := rhyme_of_validateDecomposition hrhyme hvalid
  have hgrown := List.forall₂_drop len h.forall₂
  rw [List.drop_take, hrhyme.append, ← List.length_drop] at hgrown
  obtain ⟨typed, rest, hcut, htyped, hrest, hwhole⟩ :=
    exists_isRhyme_of_grown hrhyme.run hrhyme.consonant hne hgrown
  obtain ⟨n, hn⟩ : ∃ n, typed.length = n + 1 :=
    Nat.exists_eq_succ_of_ne_zero (mt List.length_eq_zero_iff.mp hcut.run.nonempty)
  have hmax := hcut.run.max
  refine (isCompletable_iff hcut).mpr ⟨(vowels.take typed.length).map slotOf, ?_, ?_, ?_⟩
  · rw [List.map_take, hn]
    exact take_mem_nuclei _ hmem n (by omega)
  · rw [List.forall₂_map_left_iff, List.forall₂_map_right_iff]
    exact htyped.flip.imp fun _ _ hgrown => Grown.slotOf_mem hgrown
  · rcases hwhole with hnil | hlength
    · exact Or.inl hnil
    · rcases hcoda with hnil | ⟨final, hfinal, hbases⟩
      · left
        rw [hnil, List.take_nil] at hrest
        cases hrest
        rfl
      · right
        rw [hlength, List.take_length]
        refine ⟨final, hfinal, ?_⟩
        rw [← hbases, ← bases_grown hrest, bases_take]
        exact List.take_prefix _ _

end Extends

/-! ## What a valid continuation needs -/

theorem validateSyllableState_eq_iff {states : List CharState} {allowZwjf : Bool}
    {verdict : SyllableState} (h : verdict ≠ .invalid) :
    validateSyllableState states allowZwjf = verdict ↔
      validateImpl states allowZwjf = verdict ∧ checkToneModInvariant states = true := by
  rw [validateSyllableState]
  cases verdict <;> cases checkToneModInvariant states <;> cases validateImpl states allowZwjf <;>
    first | decide | exact absurd rfl h

theorem isCompletable_of_mem_nuclei {rhyme vowels : List CharState} (h : IsRhyme rhyme vowels [])
    (hmem : vowels.map slotOf ∈ nuclei) : isCompletable rhyme = true := by
  refine (isCompletable_iff h).mpr ⟨_, hmem, ?_, Or.inl rfl⟩
  rw [List.forall₂_map_left_iff, List.forall₂_map_right_iff, List.forall₂_same]
  exact fun s _ => (Grown.refl s).slotOf_mem

theorem isCompletable_gi {states : List CharState} (h : StartsGi states)
    (hlength : states.length = 2)
    (hplain : ¬IsMarkedGi states) : isCompletable (states.drop 1) = true := by
  apply isCompletable_of_mem_nuclei (isRhyme_gi h hlength)
  have hmod : modOrdinal (stateAt states 1).mod = kNone := by
    by_contra hmod
    exact hplain ⟨hlength, h.2.1, h.2.2, hmod⟩
  rw [map_slotOf_gi h, hmod]
  decide

/-- A buffer with a valid continuation is completable. -/
theorem completable_of_continues {states later : List CharState} {allowZwjf : Bool}
    (hbegins : validateSyllableState states allowZwjf = .validPrefix)
    (hcontinues : Continues states later)
    (hvalid : validateSyllableState later allowZwjf = .valid) : Completable states allowZwjf := by
  have hextends := extends_of_continues hcontinues
  obtain ⟨himpl, -⟩ := (validateSyllableState_eq_iff (by decide)).mp hbegins
  obtain ⟨hlater, -⟩ := (validateSyllableState_eq_iff (by decide)).mp hvalid
  obtain ⟨hvowel, -, -, hdual⟩ := validateImpl_eq_valid_iff.mp hlater
  obtain ⟨-, len, hlen, hreading⟩ := validateDual_eq_valid_iff.mp hdual
  rcases hextends.parseInitialConsonant_eq_or hvowel with honset | ⟨hlt, hparse⟩
  · exact Or.inl (isValidConsonantPrefix_iff.mpr honset)
  · right
    rw [readings] at hlen
    rcases List.mem_cons.mp hlen with rfl | hlen
    · right
      refine ⟨_, List.mem_cons_self, ?_⟩
      rw [hparse]
      exact hextends.isCompletable hlt hreading
    · split_ifs at hlen with hdualOnset
      · obtain rfl := List.mem_singleton.mp hlen
        have hone : parseInitialConsonant later allowZwjf = 1 :=
          hdualOnset.1.elim parseInitialConsonant_of_startsGi parseInitialConsonant_of_startsQu
        rw [hone] at hlt
        have hsame : StartsGi states ∨ StartsQu states :=
          hdualOnset.1.imp (hextends.startsGi_iff hlt).mp (hextends.startsQu_iff hlt).mp
        by_cases hlong : 2 < states.length
        · right
          refine ⟨2, ?_, hextends.isCompletable hlong hreading⟩
          rw [readings, if_pos ⟨hsame, (hextends.followedByVowel_eq hlong).symm.trans hdualOnset.2⟩]
          exact List.mem_cons_of_mem _ (List.mem_singleton_self 2)
        · have htwo : states.length = 2 := by omega
          rcases hsame with hgi | hqu
          · right
            have hne : validateImpl states allowZwjf ≠ .invalid := by
              rw [himpl]
              exact fun hinvalid => SyllableState.noConfusion hinvalid
            have hplain : ¬IsMarkedGi states := by
              have hcut := validateImpl_take_eq_invalid_iff hne states.length
              rw [List.take_length] at hcut
              exact mt hcut.mpr hne
            refine ⟨_, List.mem_cons_self, ?_⟩
            rw [hparse, hone]
            exact isCompletable_gi hgi htwo hplain
          · exact Or.inl ⟨hqu, htwo⟩
      · cases hlen

/-! ## Reaching a valid buffer -/

theorem getTone_of_untoned {states : List CharState} (h : ∀ s ∈ states, s.tone = .none) :
    getTone states = .none := by
  have hfind : states.find? (·.hasTone) = none := by
    rw [List.find?_eq_none]
    intro s hs
    simp [CharState.hasTone, h s hs]
  rw [getTone, hfind]
  rfl

theorem checkToneModInvariant_of_untoned {states : List CharState}
    (h : ∀ s ∈ states, s.tone = .none) :
    checkToneModInvariant states = true := by
  have hfilter : (states.filter (·.isVowel)).filter (·.hasTone) = [] := by
    rw [List.filter_eq_nil_iff]
    intro s hs
    simp [CharState.hasTone, h s (List.mem_of_mem_filter hs)]
  rw [checkToneModInvariant_iff, hfilter]
  simp

theorem validateSyllableState_of_reading {states : List CharState} {allowZwjf : Bool} {len : Nat}
    (htones : ∀ s ∈ states, s.tone = .none)
    (hvowel : (stateAt states (parseInitialConsonant states allowZwjf)).isVowel = true)
    (hrule : violatesOnsetVowelRule states (parseInitialConsonant states allowZwjf) = false)
    (hoeOa : violatesOeOaRule states (parseInitialConsonant states allowZwjf) = false)
    (hbare : ¬IsBareQu states) (hlen : len ∈ readings states allowZwjf)
    (hvalid : validateDecomposition states len = .valid) :
    validateSyllableState states allowZwjf = .valid := by
  rw [validateSyllableState_eq_iff (by decide)]
  refine ⟨?_, checkToneModInvariant_of_untoned htones⟩
  rw [validateImpl_eq_valid_iff, validateDual_eq_valid_iff]
  exact ⟨hvowel, hrule, hoeOa, hbare, len, hlen, hvalid⟩

theorem tone_of_mem_map_untoned {states : List CharState} :
    ∀ s ∈ states.map untoned, s.tone = .none := by
  intro s hs
  obtain ⟨s', -, rfl⟩ := List.mem_map.mp hs
  rfl

theorem tone_of_mem_map_plain (letters : List WChar) : ∀ s ∈ letters.map plain, s.tone = .none := by
  intro s hs
  obtain ⟨base, -, rfl⟩ := List.mem_map.mp hs
  rfl

theorem violatesOeOaRule_of_base {states : List CharState} {len : Nat}
    (h : (stateAt states len).base ≠ L 'o') : violatesOeOaRule states len = false := by
  unfold violatesOeOaRule
  dsimp only
  rw [if_neg (fun hall => h hall.2.1)]

/-- Vowels that make every onset a syllable. -/
def openVowels (onset : List CharState) : List WChar :=
  match bases onset with
  | [c] => if c = L 'k' then [L 'i'] else if c = L 'q' then [L 'u', L 'a'] else [L 'a']
  | [c, _] => if c = L 'g' then [L 'i'] else [L 'a']
  | [_, _, _] => [L 'i']
  | _ => [L 'a']

theorem openVowels_cases (onset : List CharState) : openVowels onset = [L 'a'] ∨
    openVowels onset = [L 'i'] ∨ openVowels onset = [L 'u', L 'a'] := by
  unfold openVowels
  split
  · split_ifs <;> simp
  · split_ifs <;> simp
  · simp
  · simp

theorem violatesOnsetVowelRule_openVowels {onset : List CharState} {allowZwjf : Bool}
    (h : IsOnset allowZwjf onset) :
    violatesOnsetVowelRule (onset ++ (openVowels onset).map plain) onset.length = false := by
  cases h with
  | nil => rfl
  | @single s _ _ =>
      by_cases hk : s.base = L 'k'
      · simp only [openVowels, bases, List.map_singleton, hk]
        simp only [violatesOnsetVowelRule, stateAt, List.length_singleton, List.cons_append,
          List.getD_cons_zero, hk]
        rfl
      · by_cases hq : s.base = L 'q'
        · simp only [openVowels, bases, List.map_singleton, hq]
          simp only [violatesOnsetVowelRule, stateAt, List.length_singleton, List.cons_append,
            List.getD_cons_zero, hq]
          rfl
        · have hvowels : openVowels [s] = [L 'a'] := by
            simp only [openVowels, bases, List.map_singleton, if_neg hk, if_neg hq]
          have h0 : stateAt ([s] ++ [plain (L 'a')]) 0 = s := rfl
          have h1 : stateAt ([s] ++ [plain (L 'a')]) 1 = plain (L 'a') := rfl
          rw [hvowels, List.map_singleton, violatesOnsetVowelRule,
            List.length_singleton, if_pos rfl,
            h0, h1, beq_eq_false_iff_ne.mpr hk, beq_eq_false_iff_ne.mpr hq]
          cases s.base == L 'c' <;> rfl
  | @pair s0 s1 _ =>
      by_cases hg : s0.base = L 'g'
      · have hvowels : openVowels [s0, s1] = [L 'i'] := by
          simp only [openVowels, bases, List.map_cons, List.map_nil, if_pos hg]
        have h2 : stateAt ([s0, s1] ++ [plain (L 'i')]) 2 = plain (L 'i') := rfl
        have hfront : isFrontBaseVowel (plain (L 'i')).base = true := by decide
        rw [hvowels, List.map_singleton, violatesOnsetVowelRule, if_neg (by simp), if_pos (by simp)]
        dsimp only [List.length_cons, List.length_nil]
        rw [h2, hfront, Bool.not_true, Bool.and_false]
      · have h0 : stateAt ([s0, s1] ++ (openVowels [s0, s1]).map plain) 0 = s0 := rfl
        rw [violatesOnsetVowelRule, if_neg (by simp), if_pos (by simp), h0,
          beq_eq_false_iff_ne.mpr hg, Bool.false_and, Bool.false_and]
  | @ngh s0 s1 s2 _ _ _ =>
      have h3 : stateAt ([s0, s1, s2] ++ [plain (L 'i')]) 3 = plain (L 'i') := rfl
      have hfront : isFrontBaseVowel (plain (L 'i')).base = true := by decide
      have hvowels : openVowels [s0, s1, s2] = [L 'i'] := rfl
      rw [hvowels, List.map_singleton, violatesOnsetVowelRule, if_neg (by simp), if_neg (by simp),
        if_pos (by simp)]
      dsimp only [List.length_cons, List.length_nil]
      rw [h3, hfront, Bool.not_true, Bool.and_false]

/-- The vowels behind an onset are a valid rhyme. -/
theorem exists_isRhyme_openVowels (onset : List CharState) :
    IsVowelRun ((openVowels onset).map plain) ∧
      ∃ entry, findVowel (packed (((openVowels onset).map plain).map slotOf)) = some entry ∧
        entry.requiresEnd = false := by
  have hrun : ∀ letters : List WChar, (∀ base ∈ letters, CharState.isVowel { base } = true) →
      letters ≠ [] → letters.length ≤ 3 → IsVowelRun (letters.map plain) := by
    intro letters hvowel hne hmax
    refine ⟨?_, by simpa using hne, by simpa using hmax⟩
    intro s hs
    obtain ⟨base, hbase, rfl⟩ := List.mem_map.mp hs
    exact hvowel base hbase
  rcases openVowels_cases onset with hvowels | hvowels | hvowels <;> rw [hvowels]
  · exact ⟨hrun _ (by decide) (by decide) (by decide), _, rfl, rfl⟩
  · exact ⟨hrun _ (by decide) (by decide) (by decide), _, rfl, rfl⟩
  · exact ⟨hrun _ (by decide) (by decide) (by decide), _, rfl, rfl⟩

/-- Every onset has a valid continuation. -/
theorem exists_valid_of_isOnset {states : List CharState} {allowZwjf : Bool}
    (h : IsOnset allowZwjf states) :
    ∃ later, Continues states later ∧ validateSyllableState later allowZwjf = .valid := by
  have honset : IsOnset allowZwjf (states.map untoned) :=
    (isOnset_iff_of_grown ((forall₂_marked_untoned states).imp fun _ _ hs => hs.grown)).mpr h
  have htones : ∀ s ∈ states.map untoned, s.tone = .none := tone_of_mem_map_untoned
  have hmarked := continues_marked (forall₂_marked_untoned states) []
  rw [List.nil_append, List.nil_append] at hmarked
  generalize states.map untoned = onset at honset htones hmarked
  have happend := continues_append onset (openVowels onset)
  refine ⟨_, hmarked.trans happend, ?_⟩
  obtain ⟨hrun, entry, hentry, hend⟩ := exists_isRhyme_openVowels onset
  have hrule := violatesOnsetVowelRule_openVowels honset
  obtain ⟨base, rest, hvowels, hbase, hbare⟩ : ∃ base rest, openVowels onset = base :: rest ∧
      base ≠ L 'o' ∧ (base = L 'u' → rest ≠ []) := by
    rcases openVowels_cases onset with hvowels | hvowels | hvowels
    · exact ⟨_, _, hvowels, by decide, by decide⟩
    · exact ⟨_, _, hvowels, by decide, by decide⟩
    · exact ⟨_, _, hvowels, by decide, by decide⟩
  rw [hvowels, List.map_cons] at hrun hentry hrule ⊢
  have hvowel : (plain base).isVowel = true := hrun.vowel _ List.mem_cons_self
  have hparse : parseInitialConsonant (onset ++ plain base :: rest.map plain) allowZwjf =
      onset.length := parseInitialConsonant_append honset hvowel
  have hstate : stateAt (onset ++ plain base :: rest.map plain) onset.length = plain base := by
    rw [stateAt_append_right _ (Nat.le_refl _), Nat.sub_self]
    rfl
  have hrhyme : IsRhyme ((onset ++ plain base :: rest.map plain).drop onset.length)
      (plain base :: rest.map plain) [] :=
    { append := by rw [List.drop_left, List.append_nil]
      run := hrun
      consonant := by simp }
  have hall : ∀ s ∈ onset ++ plain base :: rest.map plain, s.tone = .none := by
    intro s hs
    rcases List.mem_append.mp hs with hs | hs
    · exact htones s hs
    · exact tone_of_mem_map_plain (base :: rest) s hs
  apply validateSyllableState_of_reading hall
  · rw [hparse, hstate]
    exact hvowel
  · rw [hparse]
    exact hrule
  · apply violatesOeOaRule_of_base
    rw [hparse, hstate]
    exact hbase
  · rintro ⟨hqu, hlength⟩
    have hone : onset.length = 1 := hparse ▸ parseInitialConsonant_of_startsQu hqu
    have hu := hqu.2.2
    rw [← hone, hstate] at hu
    rw [List.length_append, hone, List.length_cons, List.length_map] at hlength
    exact hbare hu (List.length_eq_zero_iff.mp (by omega))
  · exact List.mem_cons_self
  · rw [hparse]
    exact validateDecomposition_of_rhyme hrhyme hentry (getTone_of_untoned hall)
      (Or.inl ⟨rfl, hend⟩)

/-- The onset `qu` has a valid continuation. -/
theorem exists_valid_of_isBareQu {states : List CharState} {allowZwjf : Bool}
    (h : IsBareQu states) :
    ∃ later, Continues states later ∧ validateSyllableState later allowZwjf = .valid := by
  match states, h with
  | [s0, s1], ⟨⟨_, h0, h1⟩, _⟩ =>
      change s0.base = L 'q' at h0
      change s1.base = L 'u' at h1
      have hmarked := continues_marked (forall₂_marked_untoned [s0, s1]) []
      have happend : Continues ([s0, s1].map untoned) ([s0, s1].map untoned ++ [plain (L 'a')]) :=
        continues_append ([s0, s1].map untoned) [L 'a']
      refine ⟨_, hmarked.trans happend, ?_⟩
      have hqu : StartsQu ([s0, s1].map untoned ++ [plain (L 'a')]) := ⟨by simp, h0, h1⟩
      have hparse : parseInitialConsonant ([s0, s1].map untoned ++ [plain (L 'a')]) allowZwjf = 1 :=
        parseInitialConsonant_of_startsQu hqu
      have hall : ∀ s ∈ [s0, s1].map untoned ++ [plain (L 'a')], s.tone = .none := by
        intro s hs
        rcases List.mem_append.mp hs with hs | hs
        · exact tone_of_mem_map_untoned s hs
        · exact tone_of_mem_map_plain [L 'a'] s hs
      have hrhyme : IsRhyme (([s0, s1].map untoned ++ [plain (L 'a')]).drop 2) [plain (L 'a')] [] :=
        { append := rfl
          run := ⟨by simp; decide, by simp, by simp⟩
          consonant := by simp }
      have hsecond : stateAt ([s0, s1].map untoned ++ [plain (L 'a')]) 1 = untoned s1 := rfl
      have hbase : (untoned s1).base = L 'u' := h1
      have hvalid : validateDecomposition ([s0, s1].map untoned ++ [plain (L 'a')]) 2 = .valid :=
        validateDecomposition_of_rhyme hrhyme rfl (getTone_of_untoned hall) (Or.inl ⟨rfl, rfl⟩)
      refine validateSyllableState_of_reading hall ?_ ?_ ?_ ?_ ?_ hvalid
      · rw [hparse, hsecond, isVowel_congr hbase]
        decide
      · have hfirst : stateAt ([s0, s1].map untoned ++ [plain (L 'a')]) 0 = untoned s0 := rfl
        have hbase0 : (untoned s0).base = L 'q' := h0
        rw [hparse, violatesOnsetVowelRule, hsecond, hfirst, hbase, hbase0]
        rfl
      · apply violatesOeOaRule_of_base
        rw [hparse, hsecond, hbase]
        decide
      · rintro ⟨-, hlength⟩
        simp at hlength
      · rw [readings, if_pos ⟨Or.inr hqu, rfl⟩]
        exact List.mem_cons_of_mem _ (List.mem_singleton_self 2)

theorem length_of_mem_nuclei : ∀ slots ∈ nuclei, slots ≠ [] ∧ slots.length ≤ 3 := by
  decide

theorem exists_isRhyme_of_isCompletable {rhyme : List CharState} (h : isCompletable rhyme = true) :
    ∃ vowels coda, IsRhyme rhyme vowels coda := by
  rw [isCompletable, List.any_eq_true] at h
  obtain ⟨slots, hsections, hmem⟩ := h
  rw [Bool.and_eq_true, List.contains_iff_mem] at hmem
  obtain ⟨hne, hmax⟩ := length_of_mem_nuclei slots hmem.1
  have hlength := List.mem_sections_length hsections
  rw [List.length_map] at hlength
  refine ⟨_, _, isRhyme_of_split ?_ (hlength ▸ hmax)⟩
  rw [← List.length_pos_iff, ← hlength]
  exact List.length_pos_iff.mpr hne

theorem exists_marked {slots : List Slot} {vowels : List CharState}
    (h : List.Forall₂ (· ∈ ·) slots (vowels.map slotChoices)) :
    ∃ marked, List.Forall₂ Marked vowels marked ∧ marked.map slotOf = slots := by
  rw [List.forall₂_map_right_iff] at h
  induction h with
  | nil => exact ⟨[], .nil, rfl⟩
  | @cons slot s slots vowels hslot _ ih =>
      obtain ⟨marked, hmarked, rfl⟩ := ih
      obtain ⟨mod, hmod, rfl⟩ := List.mem_map.mp hslot
      exact ⟨{ s with mod, tone := .none } :: marked, .cons ⟨mod, hmod, rfl⟩ hmarked, rfl⟩

theorem not_vowel_of_final {coda : List CharState} {final : Final}
    (h : bases coda = final.letters) :
    ∀ s ∈ coda, s.isVowel = false := by
  have hletters : ∀ final : Final, ∀ base ∈ final.letters, CharState.isVowel { base } = false := by
    intro final
    cases final <;> decide
  intro s hs
  rw [isVowel_congr rfl]
  apply hletters final
  rw [← h]
  exact List.mem_map_of_mem hs

theorem exists_codaLetters {slots : List Slot} {coda : List CharState} {entry : VowelEntry}
    (hmem : slots ∈ nuclei) (hentry : findVowel (packed slots) = some entry)
    (hcoda : coda = [] ∨ ∃ final ∈ takenFinals slots, bases coda <+: final.letters) :
    ∃ letters, bases coda <+: letters ∧ (letters = [] ∧ entry.requiresEnd = false ∨
      ∃ final ∈ takenFinals slots, letters = final.letters) := by
  rcases hcoda with rfl | ⟨final, hfinal, hbegins⟩
  · cases hend : entry.requiresEnd with
    | false => exact ⟨[], List.nil_prefix, Or.inl ⟨rfl, rfl⟩⟩
    | true =>
        have hne := takenFinals_ne_nil slots hmem (by rw [hentry]; exact hend)
        obtain ⟨final, hfinal⟩ := List.exists_mem_of_ne_nil _ hne
        exact ⟨final.letters, List.nil_prefix, Or.inr ⟨final, hfinal, rfl⟩⟩
  · exact ⟨_, hbegins, Or.inr ⟨final, hfinal, rfl⟩⟩

/-- Behind `oa` every final consonant is taken, so such a rhyme is no mere prefix. -/
theorem validateDecomposition_oa {states vowels coda : List CharState} {len : Nat}
    (h : IsRhyme (states.drop len) vowels coda)
    (hslots : vowels.map slotOf = [(kO, kNone), (kA, kNone)]) :
    validateDecomposition states len ≠ .validPrefix := by
  obtain ⟨entry, hfind, hend, hopen⟩ : ∃ entry,
      findVowel (packed [(kO, kNone), (kA, kNone)]) = some entry ∧ entry.canEnd = true ∧
        entry.requiresEnd = false := ⟨_, rfl, rfl, rfl⟩
  have hallowed : ∀ final :
    Final, final ∈ getAllowedFinals (packed [(kO, kNone), (kA, kNone)]) := by
    intro final
    cases final <;> decide
  rw [validateDecomposition_eq h, hslots, hfind]
  dsimp only
  by_cases hne : coda = []
  · rw [validateCoda, hne, List.isEmpty_nil, if_pos rfl, hopen, if_neg Bool.false_ne_true]
    exact fun hbegins => SyllableState.noConfusion hbegins
  · by_cases hexists : ∃ final : Final, bases coda = final.letters
    · obtain ⟨final, hfinal⟩ := hexists
      have hnot : ¬(getAllowedFinals (packed [(kO, kNone), (kA, kNone)]) ≠ [] ∧
          final ∉ getAllowedFinals (packed [(kO, kNone), (kA, kNone)])) :=
        fun hboth => hboth.2 (hallowed final)
      rw [validateCoda_final hend hfinal, if_neg hnot]
      split_ifs <;> exact fun hbegins => SyllableState.noConfusion hbegins
    · rw [validateCoda_not_final hend hne hexists]
      exact fun hbegins => SyllableState.noConfusion hbegins

theorem nuclei_oa : ∀ slots ∈ nuclei, [(kO, kNone), (kA, kBrev)] <+: slots →
    slots = [(kO, kNone), (kA, kBrev)] := by
  decide

theorem stateAt_drop (states : List CharState) (len i : Nat) :
    stateAt (states.drop len) i = stateAt states (len + i) := by
  rw [stateAt, stateAt, List.getD_eq_getElem?_getD, List.getD_eq_getElem?_getD, List.getElem?_drop]

theorem IsRhyme.two_le {rhyme vowels coda : List CharState} (h : IsRhyme rhyme vowels coda)
    (hvowel : (stateAt rhyme 1).isVowel = true) : 2 ≤ vowels.length := by
  match vowels, h with
  | [], h => exact absurd rfl h.run.nonempty
  | [s], h =>
      rw [h.append] at hvowel
      cases coda with
      | nil => cases hvowel
      | cons s' coda =>
          have hconsonant := h.consonant s' rfl
          change s'.isVowel = true at hvowel
          rw [hconsonant] at hvowel
          cases hvowel
  | _ :: _ :: _, _ => simp

/-- A continuation breaks the rule for `oe` and `oă` only if a breve makes `oă` of `oa`. -/
theorem Extends.violatesOeOaRule_eq_false_or {states later vowels coda marked rest : List CharState}
    {len : Nat} (h : Extends states later) (hrhyme : IsRhyme (states.drop len) vowels coda)
    (hlater : IsRhyme (later.drop len) marked rest) (hlength : marked.length = vowels.length)
    (hmem : marked.map slotOf ∈ nuclei) (hok : violatesOeOaRule states len = false) :
    violatesOeOaRule later len = false ∨
      (stateAt states len).base = L 'o' ∧ vowels.map slotOf = [(kO, kNone), (kA, kNone)] := by
  by_cases hall : len + 1 < later.length ∧ (stateAt later len).base = L 'o' ∧
      (stateAt later len).mod = .none ∧
        ((stateAt later (len + 1)).base = L 'e' ∧ (stateAt later (len + 1)).mod = .none ∨
          (stateAt later (len + 1)).base = L 'a' ∧ (stateAt later (len + 1)).mod = .breve)
  · have hsecond : (stateAt (later.drop len) 1).isVowel = true := by
      rw [stateAt_drop]
      rcases hall.2.2.2 with ⟨hbase, -⟩ | ⟨hbase, -⟩ <;> (rw [isVowel_congr hbase]; decide)
    have htwo := hlater.two_le hsecond
    match vowels, marked, hrhyme, hlater, hlength, htwo, hmem with
    | [], _, hrhyme, _, _, _, _ => exact absurd rfl hrhyme.run.nonempty
    | [_], marked, _, _, hlength, htwo, _ =>
        rw [hlength] at htwo
        simp at htwo
    | v0 :: v1 :: vowels, m0 :: m1 :: marked, hrhyme, hlater, hlength, _, hmem =>
        have hv0 : stateAt states len = v0 := by
          rw [← Nat.add_zero len, ← stateAt_drop, hrhyme.append]
          rfl
        have hv1 : stateAt states (len + 1) = v1 := by
          rw [← stateAt_drop, hrhyme.append]
          rfl
        have hm0 : stateAt later len = m0 := by
          rw [← Nat.add_zero len, ← stateAt_drop, hlater.append]
          rfl
        have hm1 : stateAt later (len + 1) = m1 := by
          rw [← stateAt_drop, hlater.append]
          rfl
        have hlong : len + 1 < states.length := by
          apply lt_length_of_isVowel
          rw [hv1]
          exact hrhyme.run.vowel v1 (by simp)
        have hgrown0 := h.grown len (by omega)
        have hgrown1 := h.grown (len + 1) hlong
        rw [hv0, hm0] at hgrown0
        rw [hv1, hm1] at hgrown1
        rw [hm0, hm1] at hall
        have hbase0 : v0.base = L 'o' := hgrown0.1 ▸ hall.2.1
        have hplain0 : v0.mod = .none := none_mem_marks (hall.2.2.1 ▸ hgrown0.2)
        by_cases hsame : v1.base = L 'e' ∧ v1.mod = .none ∨ v1.base = L 'a' ∧ v1.mod = .breve
        · left
          unfold violatesOeOaRule at hok ⊢
          rw [hv0, hv1, if_pos ⟨hlong, hbase0, hplain0, hsame⟩] at hok
          rw [hm0, hm1, if_pos hall]
          by_cases hzero : len = 0
          · rw [if_pos hzero]
          · rw [h.base (by omega), h.base (by omega)]
            exact hok
        · right
          rcases hall.2.2.2 with ⟨hbase, hmod⟩ | ⟨hbase, hmod⟩
          · rw [hgrown1.1] at hbase
            exact absurd (Or.inl ⟨hbase, none_mem_marks (hmod ▸ hgrown1.2)⟩) hsame
          · have hbase1 : v1.base = L 'a' := hgrown1.1 ▸ hbase
            have hplain1 : v1.mod = .none := by
              by_contra hmodified
              have hbreve := hgrown1.2
              rw [hmod, marks, if_neg hmodified, List.mem_singleton] at hbreve
              exact hsame (Or.inr ⟨hbase1, hbreve.symm⟩)
            have hslots : (m0 :: m1 :: marked).map slotOf =
                (kO, kNone) :: (kA, kBrev) :: marked.map slotOf := by
              rw [List.map_cons, List.map_cons, slotOf, slotOf, hall.2.1, hall.2.2.1, hbase, hmod]
              rfl
            rw [hslots] at hmem
            have hshort := nuclei_oa _ hmem ⟨marked.map slotOf, rfl⟩
            have hnil : vowels = [] := by
              rw [← List.length_eq_zero_iff]
              have hmarked : (marked.map slotOf).length = 0 := by
                rw [List.cons.injEq, List.cons.injEq] at hshort
                rw [hshort.2.2]
                rfl
              rw [List.length_map] at hmarked
              simp only [List.length_cons] at hlength
              omega
            refine ⟨hv0.symm ▸ hbase0, ?_⟩
            rw [hnil, List.map_cons, List.map_singleton, slotOf, slotOf, hbase0, hplain0, hbase1,
              hplain1]
            rfl
  · left
    unfold violatesOeOaRule
    exact if_neg hall

theorem Extends.violatesOnsetVowelRule_eq {states later : List CharState} {len : Nat}
    (h : Extends states later) (hlen : len < states.length) :
    violatesOnsetVowelRule later len = violatesOnsetVowelRule states len := by
  unfold violatesOnsetVowelRule
  dsimp only
  split_ifs with hone htwo hthree
  · rw [h.base hlen, h.base (by omega)]
  · rw [h.base hlen, h.base (by omega), h.base (by omega)]
  · rw [h.base hlen, h.base (by omega), h.base (by omega), h.base (by omega)]
  · rfl

/-- The readings of a buffer with a vowel behind the onset stay. -/
theorem Extends.mem_readings {states later : List CharState} {allowZwjf : Bool} {len : Nat}
    (h : Extends states later)
    (hvowel : (stateAt states (parseInitialConsonant states allowZwjf)).isVowel = true)
    (hlen : len ∈ readings states allowZwjf) : len ∈ readings later allowZwjf := by
  rw [readings] at hlen ⊢
  rw [h.parseInitialConsonant_eq hvowel]
  rcases List.mem_cons.mp hlen with rfl | hlen
  · exact List.mem_cons_self
  · split_ifs at hlen with hdual
    · have hlong : 2 < states.length := by
        have hfollowed := hdual.2
        rw [followedByVowel, Bool.and_eq_true, decide_eq_true_eq] at hfollowed
        exact hfollowed.1
      have htwo := Nat.le_of_lt hlong
      have hlater : (StartsGi later ∨ StartsQu later) ∧ followedByVowel later = true :=
        ⟨hdual.1.imp (h.startsGi_iff htwo).mpr (h.startsQu_iff htwo).mpr,
          (h.followedByVowel_eq hlong).trans hdual.2⟩
      rw [if_pos hlater]
      exact List.mem_cons_of_mem _ hlen
    · cases hlen

theorem base_ne_o_of_reading {states : List CharState} {allowZwjf : Bool} {len : Nat}
    (hlen : len ∈ readings states allowZwjf)
    (hother : len ≠ parseInitialConsonant states allowZwjf) :
    (stateAt states (parseInitialConsonant states allowZwjf)).base ≠ L 'o' := by
  rw [readings] at hlen
  rcases List.mem_cons.mp hlen with rfl | hlen
  · exact absurd rfl hother
  · split_ifs at hlen with hdual
    · rcases hdual.1 with hgi | hqu
      · rw [parseInitialConsonant_of_startsGi hgi, hgi.2.2]
        decide
      · rw [parseInitialConsonant_of_startsQu hqu, hqu.2.2]
        decide
    · cases hlen

theorem isVowelRun_of_marked {vowels marked : List CharState} (h : IsVowelRun vowels)
    (hmarked : List.Forall₂ Marked vowels marked) : IsVowelRun marked where
  vowel s hs := by
    obtain ⟨i, hi, rfl⟩ := List.getElem_of_mem hs
    have hi' : i < vowels.length := hmarked.length_eq.symm ▸ hi
    have hgrown := (hmarked.get hi' hi).grown
    rw [List.get_eq_getElem, List.get_eq_getElem] at hgrown
    rw [hgrown.isVowel]
    exact h.vowel _ (List.getElem_mem hi')
  nonempty := by
    rw [← List.length_pos_iff, ← hmarked.length_eq]
    exact List.length_pos_iff.mpr h.nonempty
  max := hmarked.length_eq ▸ h.max

/-- Behind an onset without a second reading the verdict is that on the rhyme. -/
theorem validateDecomposition_of_base_o {states : List CharState} {allowZwjf : Bool}
    (hbase : (stateAt states (parseInitialConsonant states allowZwjf)).base = L 'o')
    (hrule : violatesOnsetVowelRule states (parseInitialConsonant states allowZwjf) = false)
    (hoeOa : violatesOeOaRule states (parseInitialConsonant states allowZwjf) = false) :
    validateImpl states allowZwjf =
      validateDecomposition states (parseInitialConsonant states allowZwjf) := by
  have hvowel : (stateAt states (parseInitialConsonant states allowZwjf)).isVowel = true := by
    rw [isVowel_congr hbase]
    decide
  have hgi : ¬StartsGi states := by
    intro hgi
    rw [parseInitialConsonant_of_startsGi hgi, hgi.2.2] at hbase
    revert hbase
    decide
  have hqu : ¬StartsQu states := by
    intro hqu
    rw [parseInitialConsonant_of_startsQu hqu, hqu.2.2] at hbase
    revert hbase
    decide
  have hempty : ¬states.length = 0 := by
    have hlt := lt_length_of_isVowel hvowel
    omega
  have hstart : ¬(parseInitialConsonant states allowZwjf = 0 ∧
      (stateAt states 0).isVowel = false) := by
    rintro ⟨hzero, hfirst⟩
    rw [hzero, hfirst] at hvowel
    cases hvowel
  rw [validateImpl_eq, if_neg hempty, if_neg hstart, if_neg (by simp [hvowel]),
    if_neg (by simp [hrule, hoeOa]), validateDual_other hgi hqu]

/-- A buffer with a completable rhyme has a valid continuation. -/
theorem exists_valid_of_isCompletable {states : List CharState} {allowZwjf : Bool} {len : Nat}
    (hbegins : validateImpl states allowZwjf = .validPrefix) (hbare : ¬IsBareQu states)
    (hvowel : (stateAt states (parseInitialConsonant states allowZwjf)).isVowel = true)
    (hrule : violatesOnsetVowelRule states (parseInitialConsonant states allowZwjf) = false)
    (hoeOa : violatesOeOaRule states (parseInitialConsonant states allowZwjf) = false)
    (hlen : len ∈ readings states allowZwjf) (h : isCompletable (states.drop len) = true) :
    ∃ later, Continues states later ∧ validateSyllableState later allowZwjf = .valid := by
  obtain ⟨vowels, coda, hrhyme⟩ := exists_isRhyme_of_isCompletable h
  obtain ⟨slots, hmem, hchoice, hcoda⟩ := (isCompletable_iff hrhyme).mp h
  obtain ⟨marked, hmarked, rfl⟩ := exists_marked hchoice
  have hrun := isVowelRun_of_marked hrhyme.run hmarked
  obtain ⟨entry, hentry⟩ := Option.isSome_iff_exists.mp (hrun.isSome_findVowel_iff.mpr hmem)
  obtain ⟨letters, ⟨rest, rfl⟩, hfinal⟩ := exists_codaLetters hmem hentry hcoda
  -- the modifiers on the vowels, no tones, and the rest of the final consonant
  have hkept : Continues states
      ((states.take len).map untoned ++ (marked ++ coda.map untoned)) := by
    have hsplit : states.take len ++ (vowels ++ coda) = states := by
      rw [← hrhyme.append, List.take_append_drop]
    have hall : List.Forall₂ Marked (states.take len ++ (vowels ++ coda))
        ((states.take len).map untoned ++ (marked ++ coda.map untoned)) :=
      List.rel_append (forall₂_marked_untoned _)
        (List.rel_append hmarked (forall₂_marked_untoned coda))
    rw [hsplit] at hall
    exact continues_marked hall []
  have hcontinues := hkept.trans (continues_append _ rest)
  have htones : ∀ s ∈ (states.take len).map untoned ++ (marked ++ coda.map untoned) ++
      rest.map plain, s.tone = .none := by
    intro s hs
    rcases List.mem_append.mp hs with hs | hs
    · rcases List.mem_append.mp hs with hs | hs
      · exact tone_of_mem_map_untoned s hs
      · rcases List.mem_append.mp hs with hs | hs
        · obtain ⟨i, hi, rfl⟩ := List.getElem_of_mem hs
          obtain ⟨mod, -, hmod⟩ := hmarked.get (hmarked.length_eq.symm ▸ hi) hi
          rw [List.get_eq_getElem] at hmod
          rw [hmod]
        · exact tone_of_mem_map_untoned s hs
    · exact tone_of_mem_map_plain rest s hs
  have hlt : len < states.length := by
    by_contra hle
    have hnil := hrhyme.append
    rw [List.drop_eq_nil_of_le (not_lt.mp hle)] at hnil
    exact hrhyme.run.nonempty (List.append_eq_nil_iff.mp hnil.symm).1
  have hdrop : ((states.take len).map untoned ++ (marked ++ coda.map untoned) ++
      rest.map plain).drop len = marked ++ (coda.map untoned ++ rest.map plain) := by
    rw [List.append_assoc, List.append_assoc, List.drop_left']
    rw [List.length_map, List.length_take, Nat.min_eq_left (Nat.le_of_lt hlt)]
  have hbases : bases (coda.map untoned ++ rest.map plain) = bases coda ++ rest := by
    rw [bases, List.map_append, List.map_map, List.map_map]
    exact congrArg₂ _ rfl (List.map_id rest)
  generalize (states.take len).map untoned ++ (marked ++ coda.map untoned) ++ rest.map plain = later
    at hcontinues htones hdrop
  have hlater : IsRhyme (later.drop len) marked (coda.map untoned ++ rest.map plain) :=
    { append := hdrop
      run := hrun
      consonant := by
        intro s hs
        have hs := List.mem_of_mem_head? hs
        rcases hfinal with ⟨hnil, -⟩ | ⟨final, -, hletters⟩
        · rw [← hbases, List.map_eq_nil_iff] at hnil
          rw [hnil] at hs
          cases hs
        · exact not_vowel_of_final (hbases.trans hletters) s hs }
  have hextends := extends_of_continues hcontinues
  have hparse := hextends.parseInitialConsonant_eq hvowel
  have hparseLt := lt_length_of_isVowel hvowel
  refine ⟨later, hcontinues, ?_⟩
  apply validateSyllableState_of_reading htones _ _ _ _ (hextends.mem_readings hvowel hlen)
  · apply validateDecomposition_of_rhyme hlater hentry (getTone_of_untoned htones)
    rcases hfinal with ⟨hnil, hend⟩ | ⟨final, htaken, hletters⟩
    · rw [← hbases, List.map_eq_nil_iff] at hnil
      exact Or.inl ⟨hnil, hend⟩
    · exact Or.inr ⟨final, htaken, hbases.trans hletters⟩
  · rw [hparse, hextends.isVowel hparseLt]
    exact hvowel
  · rw [hparse, hextends.violatesOnsetVowelRule_eq hparseLt]
    exact hrule
  · rw [hparse]
    by_cases hsame : len = parseInitialConsonant states allowZwjf
    · rw [hsame] at hrhyme hlater
      rcases hextends.violatesOeOaRule_eq_false_or hrhyme hlater hmarked.length_eq.symm hmem hoeOa
        with hok | ⟨hbase, hoa⟩
      · exact hok
      · rw [validateDecomposition_of_base_o hbase hrule hoeOa] at hbegins
        exact absurd hbegins (validateDecomposition_oa hrhyme hoa)
    · apply violatesOeOaRule_of_base
      rw [hextends.base hparseLt]
      exact base_ne_o_of_reading hlen hsame
  · rintro ⟨hqu, hlength⟩
    have hone : parseInitialConsonant states allowZwjf = 1 :=
      hparse ▸ parseInitialConsonant_of_startsQu hqu
    have hle := hextends.length_le
    exact hbare ⟨(hextends.startsQu_iff (by omega)).mp hqu, by omega⟩

/-- A prefix has a valid continuation exactly if it is completable. -/
theorem exists_continuation_iff {states : List CharState} {allowZwjf : Bool}
    (hbegins : validateSyllableState states allowZwjf = .validPrefix) :
    (∃ later, Continues states later ∧ validateSyllableState later allowZwjf = .valid) ↔
      Completable states allowZwjf := by
  constructor
  · rintro ⟨later, hcontinues, hvalid⟩
    exact completable_of_continues hbegins hcontinues hvalid
  · intro h
    obtain ⟨himpl, -⟩ := (validateSyllableState_eq_iff (by decide)).mp hbegins
    have hne : validateImpl states allowZwjf ≠ .invalid := by
      rw [himpl]
      exact fun hinvalid => SyllableState.noConfusion hinvalid
    rcases validateImpl_ne_invalid_iff.mp hne with honset | ⟨hvowel, hrule, hoeOa, -⟩
    · exact exists_valid_of_isOnset honset
    · by_cases hbare : IsBareQu states
      · exact exists_valid_of_isBareQu hbare
      · rcases h with honset | hqu | ⟨len, hlen, hcompletable⟩
        · exact exists_valid_of_isOnset (isValidConsonantPrefix_iff.mp honset)
        · exact absurd hqu hbare
        · exact exists_valid_of_isCompletable himpl hbare hvowel hrule hoeOa hlen hcompletable

/-- `uam`, in which `ua` could still become `uâ`. -/
def uam : List CharState := [plain (L 'u'), plain (L 'a'), plain (L 'm')]

/-- `nguye`, which waits for its circumflex. -/
def nguye : List CharState :=
  [plain (L 'n'), plain (L 'g'), plain (L 'u'), plain (L 'y'), plain (L 'e')]

/-- `nguye` still becomes a valid syllable, and `uam` does not. -/
theorem exists_continuation_nguye :
    (validateSyllableState nguye false = .validPrefix ∧
      ∃ later, Continues nguye later ∧ validateSyllableState later false = .valid) ∧
    (validateSyllableState uam false = .validPrefix ∧
      ¬∃ later, Continues uam later ∧ validateSyllableState later false = .valid) := by
  have hnguye : validateSyllableState nguye false = .validPrefix := by decide
  have huam : validateSyllableState uam false = .validPrefix := by decide
  exact ⟨⟨hnguye, (exists_continuation_iff hnguye).mpr (by decide)⟩,
    ⟨huam, fun h => absurd ((exists_continuation_iff huam).mp h) (by decide)⟩⟩

/-- The verdict on `uam` is wrong: `uâ` does not take `m`. -/
theorem not_exists_continuation_of_validPrefix :
    ¬∀ (states : List CharState) (allowZwjf : Bool),
      validateSyllableState states allowZwjf = .validPrefix →
        ∃ later, Continues states later ∧ validateSyllableState later allowZwjf = .valid := by
  intro hsound
  have hbegins : validateSyllableState uam false = .validPrefix := by decide
  obtain ⟨later, hcontinues, hvalid⟩ := hsound uam false hbegins
  have hcompletable := completable_of_continues hbegins hcontinues hvalid
  revert hcompletable
  decide

end VKey.Phonology
