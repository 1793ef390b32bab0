import VKey.Engine.EditKey

/-!
# Well-formed compositions

A composition is well formed if at most one letter carries a tone, only vowels carry one, every
modifier sits on a base it is legal for, and no letter is empty.  The module proves that every run
keeps compositions well formed as long as no key puts a tone on a vowel beside a toned one and the
null character is not typed, and that the engine can be brought to put a second tone.
-/

namespace VKey

/-! ## Rendering without losses -/

section Rendering

theorem applyModifier_ne_zero {s : CharState} (h : s.base ≠ 0) : applyModifier s ≠ 0 := by
  unfold applyModifier
  split_ifs
  · split
    · dsimp only
      split_ifs with hmodified
      · exact hmodified
      · exact h
    · exact h
  · exact h

theorem kTonedVowel_ne_zero :
    ∀ ti < 12, ∀ si < 5, (kTonedVowel.getD ti []).getD si 0 ≠ 0 := by
  decide

theorem toneBaseIndex_lt {ch : WChar} {ti : Nat} (h : toneBaseIndex ch = some ti) : ti < 12 :=
  (List.findIdx?_eq_some_iff_getElem.mp h).1

theorem toneIndex_lt {tone : Tone} {si : Nat} (h : toneIndex tone = some si) : si < 5 := by
  cases tone <;> simp [toneIndex] at h <;> omega

theorem applyTone_ne_zero {ch : WChar} (h : ch ≠ 0) (tone : Tone) : applyTone ch tone ≠ 0 := by
  unfold applyTone
  split
  · rename_i ti si hti hsi
    exact kTonedVowel_ne_zero ti (toneBaseIndex_lt hti) si (toneIndex_lt hsi)
  · exact h

variable [WideCType]

theorem toUpperVietnamese_ne_zero {ch : Nat} (h : ch ≠ 0) : toUpperVietnamese ch ≠ 0 := by
  have htowupper : towupper ch ≠ 0 := fun h0 => h (WideCType.towupper_eq_zero ch h0)
  unfold toUpperVietnamese
  repeat' refine iteInduction (motive := fun c => c ≠ 0) (fun _ => ?_) (fun _ => ?_)
  all_goals first | exact htowupper | decide | (simp only [WChar, ne_eq] at *; omega)

theorem compose_ne_zero {s : CharState} (h : s.base ≠ 0) : compose s ≠ 0 := by
  have hch := applyTone_ne_zero (applyModifier_ne_zero h) s.tone
  unfold compose
  rw [if_neg h]
  split_ifs
  · decide
  · decide
  · exact toUpperVietnamese_ne_zero hch
  · exact hch

theorem length_composeAll {ss : List CharState} (h : ∀ s ∈ ss, s.base ≠ 0) :
    (composeAll ss).length = ss.length := by
  unfold composeAll
  rw [List.filter_eq_self.mpr, List.length_map]
  intro ch hch
  obtain ⟨s, hs, rfl⟩ := List.mem_map.mp hch
  simpa using compose_ne_zero (h s hs)

end Rendering

/-! ## Well-formed letters -/

/-- At most one letter carries a tone: of two letters one does not. -/
def HasSingleTone (ss : List CharState) : Prop :=
  ss.Pairwise fun a b => a.tone = .none ∨ b.tone = .none

/-- A letter is a lowercase character, with a tone only on a vowel, and a legal modifier. -/
structure StateWellFormed [WideCType] (s : CharState) : Prop where
  vowel : s.tone ≠ .none → s.isVowel = true
  legal : LegalMod s.base s.mod
  base_ne_zero : s.base ≠ 0
  lower : towlower s.base = s.base

/-- Every letter is well formed. -/
def LettersWellFormed [WideCType] (ss : List CharState) : Prop := ∀ s ∈ ss, StateWellFormed s

/-- A letter is well formed, except that it may be the null character if one was typed. -/
structure StateFits [WideCType] (nul : Prop) (s : CharState) : Prop where
  vowel : s.tone ≠ .none → s.isVowel = true
  legal : LegalMod s.base s.mod
  base_ne_zero : ¬ nul → s.base ≠ 0
  lower : towlower s.base = s.base

/-- Every letter is well formed, except for null characters. -/
def LettersFit [WideCType] (nul : Prop) (ss : List CharState) : Prop := ∀ s ∈ ss, StateFits nul s

theorem lettersFit_false_iff [WideCType] {ss : List CharState} :
    LettersFit False ss ↔ LettersWellFormed ss :=
  ⟨fun h s hs => ⟨(h s hs).vowel, (h s hs).legal, (h s hs).base_ne_zero id, (h s hs).lower⟩,
    fun h s hs => ⟨(h s hs).vowel, (h s hs).legal, fun _ => (h s hs).base_ne_zero, (h s hs).lower⟩⟩

/-- A symmetric relation that every letter has to the empty one holds pairwise in a list if it
holds between any two positions. -/
theorem pairwise_iff_stateAt {R : CharState → CharState → Prop} (hsymm : ∀ a b, R a b → R b a)
    (hempty : ∀ a, R a {}) {ss : List CharState} :
    ss.Pairwise R ↔ ∀ i j, i ≠ j → R (stateAt ss i) (stateAt ss j) := by
  rw [List.pairwise_iff_getElem]
  constructor
  · intro h i j hij
    by_cases hj : j < ss.length
    · by_cases hi : i < ss.length
      · rw [stateAt_eq_getElem hi, stateAt_eq_getElem hj]
        rcases Nat.lt_or_gt_of_ne hij with hlt | hlt
        · exact h i j hi hj hlt
        · exact hsymm _ _ (h j i hj hi hlt)
      · rw [stateAt_of_le (by omega)]
        exact hsymm _ _ (hempty _)
    · rw [stateAt_of_le (i := j) (by omega)]
      exact hempty _
  · intro h i j hi hj hlt
    rw [← stateAt_eq_getElem hi, ← stateAt_eq_getElem hj]
    exact h i j (by omega)

theorem hasSingleTone_iff {ss : List CharState} :
    HasSingleTone ss ↔
      ∀ i j, i ≠ j → (stateAt ss i).tone = .none ∨ (stateAt ss j).tone = .none :=
  pairwise_iff_stateAt (R := fun a b => a.tone = .none ∨ b.tone = .none) (fun _ _ => Or.symm)
    fun _ => .inr rfl

/-- Letters that are changed one by one, each keeping its tone or losing it. -/
theorem HasSingleTone.map {ss : List CharState} (h : HasSingleTone ss)
    {f : CharState → CharState} (hf : ∀ s, (f s).tone = s.tone ∨ (f s).tone = .none) :
    HasSingleTone (ss.map f) := by
  unfold HasSingleTone
  rw [List.pairwise_map]
  refine List.Pairwise.imp (fun {a b} hab => ?_) h
  rcases hf a with ha | ha
  · rcases hf b with hb | hb
    · rw [ha, hb]
      exact hab
    · exact .inr hb
  · exact .inl ha

theorem HasSingleTone.append {ss : List CharState} (h : HasSingleTone ss) {s : CharState}
    (hs : s.tone = .none) : HasSingleTone (ss ++ [s]) :=
  List.pairwise_append.mpr ⟨h, List.pairwise_singleton _ _, by simp [hs]⟩

theorem HasSingleTone.insertIdx {ss : List CharState} (h : HasSingleTone ss) {s : CharState}
    (hs : s.tone = .none) (i : Nat) : HasSingleTone (ss.insertIdx i s) := by
  by_cases hi : i ≤ ss.length
  · have hcons : HasSingleTone (s :: ss) := List.pairwise_cons.mpr ⟨by simp [hs], h⟩
    exact (List.Perm.pairwise_iff (fun hab => hab.symm)
      (List.perm_insertIdx s ss hi)).mpr hcons
  · rwa [List.insertIdx_of_length_lt (by omega)]

theorem hasSingleTone_setTone {ss : List CharState} {i : Nat}
    (h : ∀ j, j ≠ i → (stateAt ss j).tone = .none) (tone : Tone) (idx : Option Nat) :
    HasSingleTone (setTone ss i tone idx) := by
  rw [hasSingleTone_iff]
  have hother : ∀ j, j ≠ i → (stateAt (setTone ss i tone idx) j).tone = .none := by
    intro j hj
    unfold setTone
    rw [stateAt_modify, if_neg (by omega)]
    exact h j hj
  intro j k hjk
  by_cases hj : j = i
  · exact .inr (hother k (by omega))
  · exact .inl (hother j hj)

theorem HasSingleTone.modify {ss : List CharState} (h : HasSingleTone ss) (i : Nat)
    {f : CharState → CharState} (hf : ∀ s, (f s).tone = s.tone ∨ (f s).tone = .none) :
    HasSingleTone (ss.modify i f) := by
  rw [hasSingleTone_iff] at h ⊢
  have htone : ∀ j, (stateAt (ss.modify i f) j).tone = (stateAt ss j).tone ∨
      (stateAt (ss.modify i f) j).tone = .none := by
    intro j
    rw [stateAt_modify]
    split_ifs
    · exact hf _
    · exact .inl rfl
  intro j k hjk
  rcases htone j with hj | hj
  · rcases htone k with hk | hk
    · rw [hj, hk]
      exact h j k hjk
    · exact .inr hk
  · exact .inl hj

theorem HasSingleTone.clearTone {ss : List CharState} (h : HasSingleTone ss) (i : Nat) :
    HasSingleTone (setTone ss i .none none) :=
  h.modify i fun _ => .inr rfl

theorem HasSingleTone.map_shiftRaw {ss : List CharState} (h : HasSingleTone ss) (n : Nat) :
    HasSingleTone (ss.map (CharState.shiftRaw n)) :=
  h.map fun _ => .inl rfl

/-- Moving the only tone away from a letter. -/
theorem HasSingleTone.relocate {ss : List CharState} (h : HasSingleTone ss) {i j : Nat}
    (htoned : (stateAt ss i).hasTone = true) (hne : j ≠ i) {f g : CharState → CharState}
    (hg : ∀ s, (g s).tone = .none) : HasSingleTone ((ss.modify j f).modify i g) := by
  have htone : (stateAt ss i).tone ≠ .none := by simpa [CharState.hasTone] using htoned
  have hothers : ∀ k, k ≠ i → (stateAt ss k).tone = .none := fun k hk =>
    (hasSingleTone_iff.mp h i k (Ne.symm hk)).resolve_left htone
  have hclear : ∀ k, k ≠ j → (stateAt ((ss.modify j f).modify i g) k).tone = .none := by
    intro k hk
    rw [stateAt_modify]
    split_ifs with hi
    · exact hg _
    · rw [stateAt_modify, if_neg (by omega)]
      by_cases hki : k = i
      · subst hki
        rw [stateAt_of_le]
        simpa using hi
      · exact hothers k hki
  refine hasSingleTone_iff.mpr fun a b hab => ?_
  by_cases ha : a = j
  · exact .inr (hclear b (by omega))
  · exact .inl (hclear a ha)

/-! ## Edits keep letters well formed -/

section Edits

variable [WideCType]
variable {config : TypingConfig} {hz : Hazards} {key : WChar} {nul : Prop}

theorem IsLetter.fits {s : CharState} (h : IsLetter hz s) (hnul : hz.nul → nul) :
    StateFits nul s :=
  ⟨fun htone => absurd h.tone_eq htone, h.legal, fun hnot hzero => hnot (hnul (h.nul hzero)),
    h.lower⟩

theorem StateFits.of_eq {s s' : CharState} (h : StateFits nul s)
    (hbase : s'.base = s.base) (htone : s'.tone = s.tone ∨ s'.tone = .none)
    (hlegal : LegalMod s.base s'.mod) : StateFits nul s' := by
  refine ⟨fun hne => ?_, hbase ▸ hlegal, hbase ▸ h.base_ne_zero, hbase ▸ h.lower⟩
  have hvowel := h.vowel (htone.resolve_right hne ▸ hne)
  simpa only [CharState.isVowel, hbase] using hvowel

theorem StateFits.withTone {s : CharState} (h : StateFits nul s)
    (hvowel : s.isVowel = true) (tone : Tone) (idx : Option Nat) :
    StateFits nul { s with tone, toneRawIdx := idx } :=
  ⟨fun _ => hvowel, h.legal, h.base_ne_zero, h.lower⟩

theorem LettersFit.modify {ss : List CharState} (h : LettersFit nul ss) {i : Nat}
    {f : CharState → CharState}
    (hf : StateFits nul (stateAt ss i) → StateFits nul (f (stateAt ss i))) :
    LettersFit nul (ss.modify i f) := by
  refine forall_mem_modify h fun hi => ?_
  rw [← stateAt_eq_getElem hi]
  exact hf (stateAt_eq_getElem hi ▸ h _ (List.getElem_mem hi))

theorem LettersFit.clearTone {ss : List CharState} (h : LettersFit nul ss) (i : Nat) :
    LettersFit nul (setTone ss i .none none) :=
  h.modify fun hs => hs.of_eq rfl (.inr rfl) hs.legal

theorem LettersFit.append {ss : List CharState} (h : LettersFit nul ss) {s : CharState}
    (hs : StateFits nul s) : LettersFit nul (ss ++ [s]) := by
  simpa [LettersFit, or_imp, forall_and] using ⟨h, hs⟩

theorem LettersFit.insertIdx {ss : List CharState} (h : LettersFit nul ss)
    {s : CharState} (hs : StateFits nul s) (i : Nat) : LettersFit nul (ss.insertIdx i s) := by
  intro a ha
  rcases mem_of_mem_insertIdx ha with rfl | ha
  · exact hs
  · exact h a ha

theorem LettersFit.sublist {ss ss' : List CharState} (h : LettersFit nul ss)
    (hsub : ss'.Sublist ss) : LettersFit nul ss' := fun s hs => h s (hsub.subset hs)

theorem LettersFit.map {ss : List CharState} (h : LettersFit nul ss)
    {f : CharState → CharState} (hf : ∀ s, StateFits nul s → StateFits nul (f s)) :
    LettersFit nul (ss.map f) := by
  intro s' hs'
  obtain ⟨s, hs, rfl⟩ := List.mem_map.mp hs'
  exact hf s (h s hs)

theorem LettersFit.map_shiftRaw {ss : List CharState} (h : LettersFit nul ss) (n : Nat) :
    LettersFit nul (ss.map (CharState.shiftRaw n)) :=
  h.map fun _ hs => ⟨hs.vowel, hs.legal, hs.base_ne_zero, hs.lower⟩

theorem lettersFit_singleton {s : CharState} (hs : StateFits nul s) :
    LettersFit nul [s] := by
  simpa [LettersFit] using hs

/-- An edit keeps the letters of a draft well formed. -/
theorem Edit.lettersFit {d d' : Draft} (hedit : Edit config hz key d d')
    (hnul : hz.nul → nul) (h : LettersFit nul d.states) : LettersFit nul d'.states := by
  cases hedit with
  | append letter rawIdx_eq own => exact h.append (letter.fits hnul)
  | mark legal => exact h.modify fun hs => hs.of_eq rfl (.inl rfl) (hs.lower ▸ legal)
  | relocate toned ne vowel =>
      exact LettersFit.clearTone (h.modify fun hs => hs.withTone vowel _ _) _
  | hornRelocate toned ne vowel hazard =>
      refine LettersFit.modify (h.modify fun hs => ?_) fun hs => ?_
      · exact hs.withTone vowel _ _
      · exact hs.of_eq rfl (.inr rfl) hs.legal
  | clear => exact h.clearTone _
  | tone tone_ne vowel tone_eq only => exact h.modify fun hs => hs.withTone vowel _ _
  | putBack tone_ne toneRawIdx_eq lt tone_eq letter rawIdx_eq base_eq =>
      exact ((h.clearTone _).map_shiftRaw _).insertIdx (letter.fits hnul) _
  | literal ne_nil toneRawIdx_eq key_eq order letter rawIdx_eq base_eq =>
      exact (h.clearTone _).append (letter.fits hnul)
  | remove hazard => exact h.sublist (List.eraseIdx_sublist _ _)
  | swallow ne_nil lt kept hazard =>
      exact (h.sublist (List.dropLast_sublist _)).map_shiftRaw _
  | clearMarks hazard =>
      refine h.map fun s hs => ?_
      split_ifs
      · exact hs.of_eq rfl (.inr rfl) (legalMod_none _)
      · exact hs
  | restart letter rawIdx_eq hazard => exact lettersFit_singleton (letter.fits hnul)
  | revertStart tone_eq hazard =>
      refine h.modify fun _ => ⟨fun hne => absurd tone_eq hne, legalMod_none _, ?_, ?_⟩
      · exact fun _ => (by decide : L 'w' ≠ 0)
      · exact WideCType.towlower_ascii (L 'w') (by decide)
  | revertUse length_eq rawIdx_last length_le order letter rawIdx_eq hazard =>
      exact ((h.clearTone _).clearTone _).insertIdx (letter.fits hnul) _
  | unrevertUse length_eq base_eq length_le tone_eq only hazard =>
      refine h.modify fun hs => hs.withTone ?_ _ _
      simp [CharState.isVowel, hs.lower.symm.trans base_eq]

/-- An edit that puts on no second tone keeps at most one toned letter. -/
theorem Edit.hasSingleTone {d d' : Draft} (hedit : Edit config hz key d d')
    (hsecond : ¬ hz.secondTone) (h : HasSingleTone d.states) : HasSingleTone d'.states := by
  cases hedit with
  | append letter rawIdx_eq own => exact h.append letter.tone_eq
  | mark legal => exact h.modify _ fun _ => .inl rfl
  | relocate toned ne vowel => exact h.relocate toned ne fun _ => rfl
  | hornRelocate toned ne vowel hazard => exact h.relocate toned ne fun _ => rfl
  | clear => exact h.clearTone _
  | tone tone_ne vowel tone_eq only =>
      exact hasSingleTone_setTone (only.resolve_right hsecond) _ _
  | putBack tone_ne toneRawIdx_eq lt tone_eq letter rawIdx_eq base_eq =>
      exact ((h.clearTone _).map_shiftRaw _).insertIdx letter.tone_eq _
  | literal ne_nil toneRawIdx_eq key_eq order letter rawIdx_eq base_eq =>
      exact (h.clearTone _).append letter.tone_eq
  | remove hazard => exact List.Pairwise.sublist (List.eraseIdx_sublist _ _) h
  | swallow ne_nil lt kept hazard =>
      exact HasSingleTone.map_shiftRaw (List.Pairwise.sublist (List.dropLast_sublist _) h) _
  | clearMarks hazard =>
      refine h.map fun s => ?_
      split_ifs
      · exact .inr rfl
      · exact .inl rfl
  | restart letter rawIdx_eq hazard => exact List.pairwise_singleton _ _
  | revertStart tone_eq hazard => exact h.modify 0 fun _ => .inl rfl
  | revertUse length_eq rawIdx_last length_le order letter rawIdx_eq hazard =>
      exact ((h.clearTone _).clearTone _).insertIdx letter.tone_eq _
  | unrevertUse length_eq base_eq length_le tone_eq only hazard =>
      refine hasSingleTone_setTone (fun j hj => ?_) _ _
      by_cases h0 : j = 0
      · exact h0 ▸ only.resolve_right hsecond
      · rw [stateAt_of_le (by omega)]

theorem Edits.lettersFit {d d' : Draft} (hedits : Edits config hz key d d')
    (hnul : hz.nul → nul) (h : LettersFit nul d.states) : LettersFit nul d'.states := by
  induction hedits with
  | refl => exact h
  | tail _ hedit ih => exact hedit.lettersFit hnul ih

theorem Edits.hasSingleTone {d d' : Draft} (hedits : Edits config hz key d d')
    (hsecond : ¬ hz.secondTone) (h : HasSingleTone d.states) : HasSingleTone d'.states := by
  induction hedits with
  | refl => exact h
  | tail _ hedit ih => exact hedit.hasSingleTone hsecond ih

end Edits

namespace TypingEngine

section Runs

variable [WideCType]

/-! ## Runs -/

/-- The composition is well formed and rendered letter by letter. -/
structure HasWellFormedStates (e : TypingEngine) : Prop where
  single : HasSingleTone e.states
  vowel : ∀ s ∈ e.states, s.tone ≠ .none → s.isVowel = true
  legal : ∀ s ∈ e.states, LegalMod s.base s.mod
  base_ne_zero : ∀ s ∈ e.states, s.base ≠ 0
  peek_length : e.peek.length = e.count

theorem hasWellFormedStates_of_letters {e : TypingEngine} (h : LettersWellFormed e.states)
    (hsingle : HasSingleTone e.states) : e.HasWellFormedStates where
  single := hsingle
  vowel s hs := (h s hs).vowel
  legal s hs := (h s hs).legal
  base_ne_zero s hs := (h s hs).base_ne_zero
  peek_length := length_composeAll fun s hs => (h s hs).base_ne_zero

/-- An action types no null character and puts no tone on a vowel beside a toned letter. -/
def KeepsSingleTone (e : TypingEngine) : Op → Prop
  | .pushChar key => key ≠ 0 ∧ e.tonesSecondVowel key = false
  | .backspace => True

instance (e : TypingEngine) : (op : Op) → Decidable (e.KeepsSingleTone op)
  | .pushChar _ => inferInstanceAs (Decidable (_ ∧ _))
  | .backspace => inferInstanceAs (Decidable True)

theorem lettersFit_pushChar {nul : Prop} {e : TypingEngine} (h : LettersFit nul e.states)
    {key : WChar} (hkey : key = 0 → nul) : LettersFit nul (e.pushChar key).states := by
  obtain ⟨p', hpushed⟩ := pushed_pushChar e key
  exact hpushed.edits.lettersFit hkey h

theorem lettersWellFormed_pushChar {e : TypingEngine} (h : LettersWellFormed e.states)
    {key : WChar} (hkey : key ≠ 0) : LettersWellFormed (e.pushChar key).states :=
  lettersFit_false_iff.mp (lettersFit_pushChar (lettersFit_false_iff.mpr h) hkey)

theorem hasSingleTone_pushChar {e : TypingEngine} (h : HasSingleTone e.states) {key : WChar}
    (hsecond : e.tonesSecondVowel key = false) : HasSingleTone (e.pushChar key).states := by
  obtain ⟨p', hpushed⟩ := pushed_pushChar e key
  exact hpushed.edits.hasSingleTone (by simp [pushHazards, hsecond]) h

theorem lettersFit_backspace {nul : Prop} {e : TypingEngine} (h : LettersFit nul e.states) :
    LettersFit nul e.backspace.states := by
  obtain ⟨-, -, hcases⟩ := backspace_cases e 0
  rcases hcases with ⟨hstates, -, -⟩ | ⟨hkey, hstates, -⟩ | ⟨-, -, hedits⟩ | ⟨-, hstates, -⟩
  · rw [hstates]
    exact h
  · rw [hstates]
    have hletter : IsLetter undoHazards { base := towlower e.quickStartKey,
                                          isUpper := iswupper e.quickStartKey, rawIdx := 0 } :=
      isLetter_char (absurd · hkey)
    exact lettersFit_singleton (hletter.fits False.elim)
  · exact hedits.lettersFit False.elim h
  · rw [hstates]
    exact h.sublist (List.dropLast_sublist _)

theorem lettersWellFormed_backspace {e : TypingEngine} (h : LettersWellFormed e.states) :
    LettersWellFormed e.backspace.states :=
  lettersFit_false_iff.mp (lettersFit_backspace (lettersFit_false_iff.mpr h))

theorem hasSingleTone_backspace {e : TypingEngine} (h : HasSingleTone e.states) :
    HasSingleTone e.backspace.states := by
  obtain ⟨-, -, hcases⟩ := backspace_cases e 0
  rcases hcases with ⟨hstates, -, -⟩ | ⟨-, hstates, -⟩ | ⟨-, -, hedits⟩ | ⟨-, hstates, -⟩
  · rw [hstates]
    exact h
  · rw [hstates]
    exact List.pairwise_singleton _ _
  · exact hedits.hasSingleTone id h
  · rw [hstates]
    exact List.Pairwise.sublist (List.dropLast_sublist _) h

theorem wellFormed_perform {e : TypingEngine} (op : Op)
    (h : LettersWellFormed e.states ∧ HasSingleTone e.states) (hkeep : e.KeepsSingleTone op) :
    LettersWellFormed (e.perform op).states ∧ HasSingleTone (e.perform op).states := by
  cases op with
  | pushChar key =>
      exact ⟨lettersWellFormed_pushChar h.1 hkeep.1, hasSingleTone_pushChar h.2 hkeep.2⟩
  | backspace => exact ⟨lettersWellFormed_backspace h.1, hasSingleTone_backspace h.2⟩

/-- In every run that puts no second tone and types no null character, the composition is well
formed. -/
theorem hasWellFormedStates_of_run (e : TypingEngine) (ops : List Op)
    (hops : RunMeets KeepsSingleTone e.reset ops) :
    (e.reset.performAll ops).HasWellFormedStates := by
  have hreset : LettersWellFormed e.reset.states ∧ HasSingleTone e.reset.states :=
    ⟨by simp [LettersWellFormed, reset], List.Pairwise.nil⟩
  have h := performAll_induction
    (fun e => LettersWellFormed e.states ∧ HasSingleTone e.states)
    (fun _ op h hkeep => wellFormed_perform op h hkeep) hreset hops
  exact hasWellFormedStates_of_letters h.1 h.2

end Runs

/-- The composition of `vieejt` is well formed. -/
theorem hasWellFormedStates_of_typing_vieejt :
    ((new {}).reset.performAll (typing "vieejt")).HasWellFormedStates :=
  hasWellFormedStates_of_run _ _ (by decide +kernel)

/-- `i2e2` of VNI gives two vowels with a grave: not every composition is well formed. -/
theorem not_hasWellFormedStates_of_every_run :
    ¬ ∀ (config : TypingConfig) (ops : List Op),
      ((new config).reset.performAll ops).HasWellFormedStates := by
  intro h
  have hsingle := (h { inputMethod := .vni } (typing "i2e2")).single
  have htoned : (stateAt ((new { inputMethod := .vni }).reset.performAll
        (typing "i2e2")).states 0).tone = .grave ∧
      (stateAt ((new { inputMethod := .vni }).reset.performAll
        (typing "i2e2")).states 1).tone = .grave := by
    decide +kernel
  rcases hasSingleTone_iff.mp hsingle 0 1 (by decide) with h0 | h1
  · rw [htoned.1] at h0
    exact absurd h0 (by decide)
  · rw [htoned.2] at h1
    exact absurd h1 (by decide)

end TypingEngine

end VKey
