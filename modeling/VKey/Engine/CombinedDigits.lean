import VKey.Engine.CombinedMethod

/-!
# Digits in the combined method

On digits and on letters without a meaning in Telex the combined method does what VNI does.  The
Telex rules that the combined method adds search the word for letters that neither the keys nor the
quick consonants can put there.
-/

namespace VKey

variable [WideCType]

namespace TypingEngine

/-! ## Letters without a meaning in Telex -/

/-- The character is none of the Telex letters that a finished word is searched for. -/
def IsSilent (c : WChar) : Prop := towlower c ∉ [L 'w', L 'z', L 'j', L 'f', L 'e']

theorem IsSilent.towlower {c : WChar} (h : IsSilent c) : IsSilent (towlower c) := by
  rw [IsSilent, WideCType.towlower_towlower]
  exact h

/-- No letter and no raw key of the draft is one of them. -/
structure QuietDraft (d : Draft) : Prop where
  letters : TelexSilent d.states
  keys : ∀ keyChar ∈ d.rawInput, IsSilent keyChar

section Silent

variable {states : List CharState}

theorem TelexSilent.modify (h : TelexSilent states) (i : Nat) {f : CharState → CharState}
    (hf : ∀ s, (f s).base = s.base) : TelexSilent (states.modify i f) := by
  refine forall_mem_modify h fun hi => ?_
  rw [hf]
  exact h _ (List.getElem_mem hi)

theorem TelexSilent.setTone (h : TelexSilent states) (i : Nat) (tone : Tone)
    (toneRawIdx : Option Nat) :
    TelexSilent (setTone states i tone toneRawIdx) :=
  h.modify i fun _ => rfl

theorem TelexSilent.setMod (h : TelexSilent states) (i : Nat) (mod : Modifier) :
    TelexSilent (setMod states i mod) :=
  h.modify i fun _ => rfl

theorem TelexSilent.append (h : TelexSilent states) {s : CharState} (hs : IsSilent s.base) :
    TelexSilent (states ++ [s]) := by
  intro a ha
  rcases List.mem_append.mp ha with ha | ha
  · exact h a ha
  · rw [List.mem_singleton.mp ha]
    exact hs

theorem TelexSilent.map (h : TelexSilent states) {f : CharState → CharState}
    (hf : ∀ s, (f s).base = s.base) : TelexSilent (states.map f) := by
  intro a ha
  obtain ⟨s, hs, rfl⟩ := List.mem_map.mp ha
  rw [hf]
  exact h s hs

theorem TelexSilent.map_shiftRaw (h : TelexSilent states) (n : Nat) :
    TelexSilent (states.map (CharState.shiftRaw n)) :=
  h.map fun _ => rfl

theorem TelexSilent.insertIdx (h : TelexSilent states) {s : CharState}
    (hs : IsSilent s.base) (i : Nat) :
    TelexSilent (states.insertIdx i s) := by
  intro a ha
  rcases mem_of_mem_insertIdx ha with rfl | ha
  · exact hs
  · exact h a ha

end Silent

section Quiet

variable {config : TypingConfig} {hz : Hazards} {key : WChar}

/-- An edit that VNI makes brings in the key and the raw keys at most. -/
theorem Edit.quiet {d d' : Draft} (hedit : Edit config hz key d d') (hvni : ¬hz.beyondVni)
    (hkey : IsSilent key) (h : QuietDraft d) : QuietDraft d' := by
  cases hedit with
  | append letter rawIdx_eq own =>
      obtain ⟨-, hbase⟩ := own.resolve_right hvni
      refine ⟨h.letters.append ?_, h.keys⟩
      rw [hbase]
      exact hkey.towlower
  | mark legal => exact ⟨h.letters.modify _ fun _ => rfl, h.keys⟩
  | relocate toned ne vowel => exact ⟨(h.letters.setTone _ _ _).setTone _ _ _, h.keys⟩
  | hornRelocate toned ne vowel hazard =>
      refine ⟨TelexSilent.modify (h.letters.modify _ ?_) _ ?_, h.keys⟩
      · intro s
        rfl
      · intro s
        rfl
  | clear => exact ⟨h.letters.setTone _ _ _, h.keys⟩
  | tone tone_ne vowel tone_eq only => exact ⟨h.letters.setTone _ _ _, h.keys⟩
  | putBack tone_ne toneRawIdx_eq lt tone_eq letter rawIdx_eq base_eq =>
      refine ⟨((h.letters.setTone _ _ _).map_shiftRaw _).insertIdx ?_ _, ?_⟩
      · rw [base_eq]
        exact hkey.towlower
      · intro k hk
        rcases List.mem_or_eq_of_mem_set hk with hk | rfl
        · exact h.keys k (List.eraseIdx_subset hk)
        · exact hkey
  | literal ne_nil toneRawIdx_eq key_eq order letter rawIdx_eq base_eq =>
      refine ⟨(h.letters.setTone _ _ _).append ?_, h.keys⟩
      rw [base_eq]
      exact (h.keys _ (List.mem_of_getElem? key_eq)).towlower
  | remove hazard => exact absurd hazard hvni
  | swallow ne_nil lt kept hazard => exact absurd hazard hvni
  | clearMarks hazard => exact absurd hazard hvni
  | restart letter rawIdx_eq hazard => exact absurd hazard hvni
  | revertStart tone_eq hazard => exact absurd hazard hvni
  | revertUse length_eq rawIdx_last length_le order letter rawIdx_eq hazard =>
        exact absurd hazard hvni
  | unrevertUse length_eq base_eq length_le tone_eq only hazard => exact absurd hazard hvni

theorem Edits.quiet {d d' : Draft} (hedits : Edits config hz key d d') (hvni : ¬hz.beyondVni)
    (hkey : IsSilent key) (h : QuietDraft d) : QuietDraft d' := by
  induction hedits with
  | refl => exact h
  | tail _ hedit ih => exact Edit.quiet hedit hvni hkey ih

end Quiet

/-! ## The keys -/

/-- The letters that Telex gives no meaning. -/
def plainLetters : List WChar :=
  [L 'b', L 'c', L 'g', L 'h', L 'i', L 'k', L 'l', L 'm', L 'n', L 'p', L 'q',
    L 't', L 'u', L 'v', L 'y']

/-- The key is a digit or one of these letters, in either case. -/
def IsVniKey (keyChar : WChar) : Prop := IsDigitKey keyChar ∨ asciiLower keyChar ∈ plainLetters

instance : DecidablePred IsVniKey := fun _ => inferInstanceAs (Decidable (_ ∨ _))

/-- The lowercase of such a key. -/
def vniKeys : List WChar :=
  [L '0', L '1', L '2', L '3', L '4', L '5', L '6', L '7', L '8', L '9'] ++ plainLetters

theorem IsVniKey.lower_mem {keyChar : WChar} (h : IsVniKey keyChar) :
    towlower keyChar ∈ vniKeys := by
  rcases h with hdigit | hletter
  · have hascii : keyChar < 0x80 := lt_of_le_of_lt hdigit.2 (by decide)
    have hlower : asciiLower keyChar = keyChar := by
      have hlt : ¬(L 'A' ≤ keyChar ∧ keyChar ≤ L 'Z') := by
        rintro ⟨hge, -⟩
        exact absurd (Nat.le_trans hge hdigit.2) (by decide)
      rw [asciiLower, if_neg hlt]
    rw [WideCType.towlower_ascii _ hascii, hlower]
    refine List.mem_append_left _ ?_
    obtain ⟨hlow, hhigh⟩ := hdigit
    simp only [WChar, L, Char.reduceToNat, List.mem_cons, List.not_mem_nil, or_false]
      at hlow hhigh ⊢
    omega
  · have hascii : keyChar < 0x80 := by
      by_contra hge
      rw [asciiLower_of_ge (not_lt.mp hge)] at hletter
      have hlow : ∀ c ∈ plainLetters, c < 0x80 := by decide
      exact hge (hlow _ hletter)
    rw [WideCType.towlower_ascii _ hascii]
    exact List.mem_append_right _ hletter

omit [WideCType] in
theorem telexAction_vniKeys :
    ∀ lower ∈ vniKeys, telexAction (canonicalBracketKey lower) = .none := by
  decide

omit [WideCType] in
theorem quickStartLetters_vniKeys : ∀ lower ∈ vniKeys, quickStartLetters lower = none := by decide

theorem isSilent_of_ascii {c : WChar} (hascii : c < 0x80) (hlower : asciiLower c = c)
    (hc : c ∉ [L 'w', L 'z', L 'j', L 'f', L 'e']) : IsSilent c := by
  rw [IsSilent, WideCType.towlower_ascii c hascii, hlower]
  exact hc

theorem IsVniKey.isSilent {keyChar : WChar} (h : IsVniKey keyChar) : IsSilent keyChar := by
  have hkeys : ∀ lower ∈ vniKeys, lower ∉ [L 'w', L 'z', L 'j', L 'f', L 'e'] := by decide
  exact hkeys _ h.lower_mem

omit [WideCType] in
theorem classifyKey_vniKeys {lower : WChar} (h : lower ∈ vniKeys) (isTelex : Bool) :
    classifyKey lower isTelex true = vniAction (canonicalBracketKey lower) := by
  simp only [classifyKey, telexAction_vniKeys lower h, bne_self_eq_false, Bool.and_false,
    Bool.false_eq_true, if_false, if_true]

omit [WideCType] in
theorem not_isTelexModifierAction_vniAction (lower : WChar) :
    ¬(vniAction lower).isTelexModifierAction = true := by
  rw [vniAction]
  repeat'
    refine iteInduction
      (motive := fun action : TypingAction => ¬action.isTelexModifierAction = true)
      (fun _ => ?_) (fun _ => ?_)
  all_goals decide

/-! ## What a key does in VNI -/

/-- All hazards but the ones VNI does not have. -/
def vniHazards : Hazards where
  beyondVni := False
  nul := True
  outOfOrder := True
  hornTone := True
  foreignTone := True
  lostKey := True
  secondTone := True

/-- The word of a VNI engine that the Telex letters have never reached. -/
structure Quiet (e : TypingEngine) : Prop where
  method : e.config.inputMethod = .vni
  letters : TelexSilent e.states
  keys : ∀ keyChar ∈ e.rawInput, IsSilent keyChar
  lastKey : IsSilent e.qc.lastKey
  start : e.quickStartKey = 0

section Vni

variable {e e' : TypingEngine} {keyChar : WChar} {p p' : Bool}

theorem Quiet.edited (h : Quiet e) (hkey : IsSilent keyChar)
    (hedit : Edited vniHazards keyChar p p' e e') : Quiet e' := by
  have hdraft : QuietDraft ⟨p', e'.states, e'.rawInput⟩ :=
    Edits.quiet hedit.edits id hkey ⟨h.letters, h.keys⟩
  constructor
  · rw [hedit.config_eq]
    exact h.method
  · exact hdraft.letters
  · exact hdraft.keys
  · rw [hedit.qc_eq]
    exact h.lastKey
  · rw [hedit.quickStartKey_eq]
    exact h.start

theorem Quiet.same (h : Quiet e) (hsame : SameBuffer e e') : Quiet e' := by
  constructor
  · rw [hsame.config_eq]
    exact h.method
  · rw [hsame.states_eq]
    exact h.letters
  · rw [hsame.rawInput_eq]
    exact h.keys
  · rw [hsame.qc_eq]
    exact h.lastKey
  · rw [hsame.quickStartKey_eq]
    exact h.start

theorem Quiet.handled {r : TypingEngine × Bool} (h : Quiet e) (hkey : IsSilent keyChar)
    (hr : Handled vniHazards keyChar e r) : Quiet r.1 := by
  rcases Bool.eq_false_or_eq_true r.2 with htrue | hfalse
  · obtain ⟨p', hedit⟩ := hr.edited htrue
    exact h.edited hkey hedit
  · exact h.same (hr.same hfalse)

theorem Quiet.recordKey (h : Quiet e) (hkey : IsSilent keyChar) (uppercase : Bool) :
    Quiet (e.recordKey keyChar uppercase) := by
  refine ⟨h.method, h.letters, ?_, h.lastKey, h.start⟩
  intro k hk
  rcases List.mem_append.mp hk with hk | hk
  · exact h.keys k hk
  · rw [List.mem_singleton.mp hk]
    exact hkey

theorem Quiet.settled (h : Quiet e) (hkey : IsSilent keyChar) (uppercase : Bool) :
    Quiet (e.settled keyChar uppercase).1 :=
  (h.recordKey hkey uppercase).edited (p := true) hkey
    (edited_revertProvisionalOoTone fun _ _ => trivial)

theorem Quiet.processKeyChar (h : Quiet e) {c : WChar} (hc : IsSilent c) :
    Quiet (e.processKeyChar c) :=
  ⟨h.method, h.letters.append hc.towlower, h.keys, h.lastKey, h.start⟩

theorem Quiet.processChar (h : Quiet e) {c : WChar} (hc : IsSilent c) (isUpper : Bool) :
    Quiet (e.processChar (towlower c) isUpper) :=
  ⟨h.method, h.letters.append hc.towlower, h.keys, h.lastKey, h.start⟩

theorem Quiet.lettered (h : Quiet e) : TelexSilent e.lettered.states := by
  have hmarks : Marks e.config vniHazards 0 e.states e.lettered.states :=
    (marks_relocateToneToTarget _ _).trans (marks_applyAutoUO _ _)
  have hzero : IsSilent 0 := isSilent_of_ascii (by decide) rfl (by decide)
  exact (Edits.quiet (hmarks true e.rawInput) id hzero ⟨h.letters, h.keys⟩).letters

theorem Quiet.finishAgrees (h : Quiet e) : FinishAgrees e .combined := by
  have hstart : e.lettered.hasSyntheticEnglishStart = false := by
    have hmethod : e.lettered.config.inputMethod = .vni := h.method
    rw [hasSyntheticEnglishStart, hmethod]
    rfl
  constructor
  · rw [hstart]
    rfl
  · refine .inr ?_
    rw [revertSyntheticStart, hstart, if_neg Bool.false_ne_true]
    exact h.lettered

theorem Quiet.finalizeRegularChar (h : Quiet e) : Quiet e.finalizeRegularChar := by
  have hstart : e.lettered.revertSyntheticStart = e.lettered := by
    have hmethod : e.lettered.config.inputMethod = .vni := h.method
    have hnone : e.lettered.hasSyntheticEnglishStart = false := by
      rw [hasSyntheticEnglishStart, hmethod]
      rfl
    rw [revertSyntheticStart, hnone, if_neg Bool.false_ne_true]
  have huse : e.lettered.revertTonedUse = e.lettered := by
    rw [revertTonedUse, hasTonedUse_of_silent h.lettered, if_neg Bool.false_ne_true]
  rw [finalizeRegularChar_eq, hstart, huse]
  have hlettered : Quiet e.lettered := ⟨h.method, h.lettered, h.keys, h.lastKey, h.start⟩
  exact hlettered.same (sameBuffer_checkInitialBias _)

/-! ## Quick consonants in VNI -/

/-- The letters that quick consonants bring in. -/
theorem isSilent_quickReplacement {base lower replacement : WChar} (isUpper : Bool)
    (h : quickReplacement base lower = some replacement) :
    IsSilent (if isUpper then towupper replacement else replacement) := by
  have hmem : replacement ∈ [L 'h', L 'i', L 'g', L 'u'] := by
    revert h
    rw [quickReplacement]
    repeat'
      refine iteInduction (motive := fun r => r = some replacement →
        replacement ∈ [L 'h', L 'i', L 'g', L 'u']) (fun _ => ?_) (fun _ => ?_)
    all_goals first
      | exact fun hnone => absurd hnone (Option.some_ne_none _).symm
      | (intro hsome
         rw [← Option.some.inj hsome]
         decide)
  have hall : ∀ c ∈ [L 'h', L 'i', L 'g', L 'u'],
      c < 0x80 ∧ asciiLower c = c ∧ c ∉ [L 'w', L 'z', L 'j', L 'f', L 'e'] ∧
        asciiUpper c < 0x80 ∧ asciiLower (asciiUpper c) = c := by decide
  obtain ⟨hascii, hlower, hsilent, huascii, hulower⟩ := hall _ hmem
  cases isUpper with
  | false => exact isSilent_of_ascii hascii hlower hsilent
  | true =>
      rw [if_pos rfl, IsSilent, WideCType.towupper_ascii _ hascii,
        WideCType.towlower_ascii _ huascii, hulower]
      exact hsilent

theorem Quiet.recordExpansion (h : Quiet e) {lower : WChar} (hlower : IsSilent lower) :
    Quiet (e.recordExpansion lower) :=
  ⟨h.method, h.letters, h.keys, hlower, h.start⟩

theorem Quiet.expandedLetter (h : Quiet e) {l : TypingEngine} {lower : WChar} {isUpper : Bool}
    (hlower : IsSilent lower) (hl : e.expandedLetter lower isUpper = some l) : Quiet l := by
  rw [TypingEngine.expandedLetter] at hl
  split at hl
  · obtain ⟨replacement, hreplacement, rfl⟩ := Option.map_eq_some_iff.mp hl
    exact (h.recordExpansion hlower).processKeyChar (isSilent_quickReplacement isUpper hreplacement)
  · cases hl

theorem Quiet.clearQuickEscape (h : Quiet e) (lower : WChar) :
    Quiet (e.clearQuickEscape lower) := by
  refine ⟨h.method, h.letters, h.keys, ?_, h.start⟩
  change IsSilent (if e.qc.lastKey != 0 && lower == e.qc.lastKey then e.qc.lastKey else 0)
  split
  · exact h.lastKey
  · exact isSilent_of_ascii (by decide) rfl (by decide)

/-- Neither a doubled consonant nor `uu` brings in a Telex letter. -/
theorem Quiet.expandQuickConsonant (h : Quiet e) {lower : WChar} {isUpper : Bool}
    (hlower : IsSilent lower) (he' : e.expandQuickConsonant lower isUpper = some e') :
    Quiet e' := by
  by_cases hletter : ∃ l, e.expandedLetter lower isUpper = some l
  · obtain ⟨l, hl⟩ := hletter
    rw [expandQuickConsonant_of_letter hl] at he'
    rw [← Option.some.inj he']
    exact (h.expandedLetter hlower hl).finalizeRegularChar
  · rw [TypingEngine.expandQuickConsonant] at he'
    split at he'
    · rename_i hconsonant
      obtain ⟨replacement, hreplacement, -⟩ := Option.map_eq_some_iff.mp he'
      refine absurd ⟨(e.recordExpansion lower).processKeyChar
        (if isUpper then towupper replacement else replacement), ?_⟩ hletter
      rw [TypingEngine.expandedLetter, if_pos hconsonant, hreplacement, Option.map_some]
    · split at he'
      · rw [← Option.some.inj he']
        have ho : IsSilent (L 'o') := isSilent_of_ascii (by decide) rfl (by decide)
        have hletters := (h.letters.setMod (e.states.length - 1) .horn).append
          (s := { base := L 'o', mod := .horn, isUpper, rawIdx := e.nextRawIdx }) ho
        exact ⟨h.method, hletters, h.keys, hlower, h.start⟩
      · cases he'

theorem Quiet.undoQuickStart (h : Quiet e) (keyChar : WChar) : e.undoQuickStart keyChar = e := by
  rw [TypingEngine.undoQuickStart, if_pos h.start]

omit [WideCType] in
theorem quickStart_of_vniKey {lower : WChar} (h : lower ∈ vniKeys) : e.quickStart lower = none := by
  rw [quickStart, quickStartLetters_vniKeys lower h, ite_self]

theorem Quiet.handleQuickStartConsonant (h : Quiet e) {lower : WChar} (hlower : lower ∈ vniKeys)
    (hsilent : IsSilent lower) (keyChar : WChar) (isUpper : Bool) :
    Quiet (e.handleQuickStartConsonant keyChar lower isUpper).1 := by
  rw [handleQuickStartConsonant_eq, quickStart_of_vniKey hlower]
  change Quiet ((e.undoQuickStart keyChar).expandUnlessEscaped lower isUpper).1
  have hcleared := h.clearQuickEscape lower
  rw [h.undoQuickStart, expandUnlessEscaped]
  split
  · cases hexpanded : (e.clearQuickEscape lower).expandQuickConsonant lower isUpper with
    | none => exact hcleared
    | some expanded => exact hcleared.expandQuickConsonant hsilent hexpanded
  · exact hcleared

/-- The quick consonants leave a key they do not take as it is. -/
theorem Quiet.handleQuickStartConsonant_passed (h : Quiet e) {lower : WChar}
    (hlower : lower ∈ vniKeys) (keyChar : WChar) (isUpper : Bool)
    (hpassed : (e.handleQuickStartConsonant keyChar lower isUpper).2 = false) :
    (e.handleQuickStartConsonant keyChar lower isUpper).1 = e.clearQuickEscape lower := by
  rw [handleQuickStartConsonant_eq, quickStart_of_vniKey hlower] at hpassed ⊢
  change ((e.undoQuickStart keyChar).expandUnlessEscaped lower isUpper).2 = false at hpassed
  change ((e.undoQuickStart keyChar).expandUnlessEscaped lower isUpper).1 = _
  rw [h.undoQuickStart, expandUnlessEscaped] at hpassed ⊢
  split at hpassed
  · rename_i hexpands
    rw [if_pos hexpands]
    cases hexpanded : (e.clearQuickEscape lower).expandQuickConsonant lower isUpper with
    | none => rfl
    | some expanded =>
        rw [hexpanded] at hpassed
        cases hpassed
  · rename_i hexpands
    rw [if_neg hexpands]

theorem Quiet.quickLetter (h : Quiet e) {lower : WChar}
    (hsilent : IsSilent lower) {l : TypingEngine}
    {isUpper : Bool} (hl : e.quickLetter keyChar lower isUpper = some l) : Quiet l := by
  rw [TypingEngine.quickLetter, h.undoQuickStart] at hl
  split at hl
  · exact (h.clearQuickEscape lower).expandedLetter hsilent hl
  · cases hl

theorem isSilent_quickEndLetters {lower first second : WChar}
    (h : quickEndLetters lower = some (first, second)) : IsSilent first ∧ IsSilent second := by
  have hmem : first ∈ [L 'n', L 'c'] ∧ second ∈ [L 'g', L 'h'] := by
    revert h
    rw [quickEndLetters]
    repeat'
      refine iteInduction (motive := fun r => r = some (first, second) →
        first ∈ [L 'n', L 'c'] ∧ second ∈ [L 'g', L 'h']) (fun _ => ?_) (fun _ => ?_)
    all_goals first
      | exact fun hnone => absurd hnone (Option.some_ne_none _).symm
      | (intro hsome
         rw [← (Prod.mk.inj (Option.some.inj hsome)).1, ← (Prod.mk.inj (Option.some.inj hsome)).2]
         decide)
  have hall : ∀ c ∈ [L 'n', L 'c', L 'g', L 'h'],
      c < 0x80 ∧ asciiLower c = c ∧ c ∉ [L 'w', L 'z', L 'j', L 'f', L 'e'] := by decide
  have hsilent (c : WChar) (hc : c ∈ [L 'n', L 'c', L 'g', L 'h']) : IsSilent c := by
    obtain ⟨hascii, hlower, hnot⟩ := hall c hc
    exact isSilent_of_ascii hascii hlower hnot
  exact ⟨hsilent _ (List.mem_append_left [L 'g', L 'h'] hmem.1),
    hsilent _ (List.mem_append_right [L 'n', L 'c'] hmem.2)⟩

theorem Quiet.handleQuickEndConsonant (h : Quiet e) (lower : WChar) :
    Quiet (e.handleQuickEndConsonant lower).1 := by
  rw [TypingEngine.handleQuickEndConsonant]
  split
  · cases hletters : quickEndLetters lower with
    | none => exact h
    | some letters =>
        obtain ⟨hfirst, hsecond⟩ := isSilent_quickEndLetters hletters
        exact ((h.processKeyChar hfirst).processKeyChar hsecond).same
          (sameBuffer_updateSpellState _)
  · exact h

/-! ## The rules after classification in VNI -/

omit [WideCType] in
theorem states_eraseConsumedRaw (e : TypingEngine) (idx : Nat) :
    (e.eraseConsumedRaw idx).states = e.states ∨
      (e.eraseConsumedRaw idx).states = e.states.map (CharState.shiftRaw idx) := by
  rw [eraseConsumedRaw]
  split
  · exact .inl rfl
  · exact .inr rfl

theorem TelexSilent.eraseConsumedRaw (h : TelexSilent e.states) (idx : Nat) :
    TelexSilent (e.eraseConsumedRaw idx).states := by
  rcases states_eraseConsumedRaw e idx with hsame | hshifted
  · rw [hsame]
    exact h
  · rw [hshifted]
    exact h.map_shiftRaw idx

/-- The key of an escape is put back wherever it belongs. -/
theorem TelexSilent.restoreConsumedKeyInPlace (h : TelexSilent e.states) (hkey : IsSilent keyChar)
    (consumedRawIdx : Option Nat) :
    TelexSilent (e.restoreConsumedKeyInPlace consumedRawIdx keyChar).states := by
  cases consumedRawIdx with
  | none => exact h.append hkey.towlower
  | some idx =>
      rw [TypingEngine.restoreConsumedKeyInPlace]
      split_ifs
      · exact h.append hkey.towlower
      · exact (h.eraseConsumedRaw idx).append hkey.towlower
      · exact (h.eraseConsumedRaw _).insertIdx hkey.towlower _

/-- A tone key leaves no Telex letter behind. -/
theorem Quiet.tonedAgrees (h : Quiet e) (hkey : IsSilent keyChar) (tone : Tone) (lower : WChar) :
    TonedAgrees e .combined tone keyChar lower := by
  have hgated : TelexSilent (e.toneGates tone keyChar lower).1.states := by
    rw [(sameBuffer_toneGates e tone keyChar lower).states_eq]
    exact h.letters
  rw [TonedAgrees]
  generalize (e.toneGates tone keyChar lower).1 = gated at hgated
  refine .inr ?_
  rw [processTone]
  split
  · exact hgated
  · split
    · exact hgated
    · dsimp only
      split
      · exact (hgated.setTone _ _ _).restoreConsumedKeyInPlace hkey _
      · exact hgated.setTone _ _ _

/-- The key is the last raw key, and the action is the one that VNI gives it. -/
structure VniKeyed (e : TypingEngine) (keyChar : WChar) (action : TypingAction) : Prop where
  last : e.rawInput.getLast? = some keyChar
  action : action = .none ∨ action = methodAction e.config (towlower keyChar)

theorem VniKeyed.handled_applyToneRule {action : TypingAction} (h : VniKeyed e keyChar action)
    (isUpper : Bool) :
    Handled vniHazards keyChar e (e.applyToneRule action keyChar (towlower keyChar) isUpper) := by
  refine TypingEngine.handled_applyToneRule h.last (fun _ => trivial) (fun htone => ?_) isUpper
    fun _ _ _ _ _ => trivial
  rcases h.action with hnone | haction
  · rw [hnone] at htone
    exact absurd rfl htone
  · exact haction.symm

theorem Quiet.handleModifierAction (h : Quiet e) (hkey : IsSilent keyChar) {action : TypingAction}
    (haction : action = .none ∨ action = methodAction e.config (towlower keyChar)) (lower : WChar) :
    Quiet (e.handleModifierAction action keyChar lower).1 := by
  refine h.handled hkey (handled_handleModifierAction lower (fun hgate => ?_) ?_)
  · exact ⟨.inl (isVniModifierAction_of_modifierGates h.method hgate), fun _ => trivial,
      fun _ _ _ => trivial, fun _ _ _ => trivial, fun _ _ => trivial, fun _ _ _ _ => trivial⟩
  · rcases haction with rfl | rfl
    · intro hcircumflex
      exact absurd hcircumflex (by decide)
    · exact circumflexKeyNamesVowel _ _

theorem Quiet.dispatchPostClassify (h : Quiet e) (hkey : IsSilent keyChar) {action : TypingAction}
    (hkeyed : VniKeyed e keyChar action) (isUpper : Bool) :
    Quiet (e.dispatchPostClassify action keyChar (towlower keyChar) isUpper).1 := by
  have hhandled := hkeyed.handled_applyToneRule isUpper
  have htoned := h.handled hkey hhandled
  rw [TypingEngine.dispatchPostClassify]
  generalize e.applyToneRule action keyChar (towlower keyChar) isUpper = toned at hhandled htoned
  by_cases hconsumed : toned.2 = true
  · simp only [hconsumed, if_true]
    exact htoned
  · have hconfig := (hhandled.same (Bool.eq_false_iff.mpr hconsumed)).config_eq
    have haction : action = .none ∨ action = methodAction toned.1.config (towlower keyChar) := by
      rw [hconfig]
      exact hkeyed.action
    have hmodified := htoned.handleModifierAction hkey haction (towlower keyChar)
    simp only [hconsumed, Bool.false_eq_true, if_false]
    split
    · exact hmodified
    · exact hmodified.handleQuickEndConsonant _

/-! ## A key of VNI -/

/-- The key is a key of VNI. -/
theorem Quiet.keyAction_eq (h : Quiet e) (hkey : IsVniKey keyChar) {m : InputMethod}
    (history : List WChar) (hm : m = .vni ∨ m = .combined) :
    (e.swapped m history).keyAction keyChar (towlower keyChar) =
      if e.isVniDigitSequence keyChar then .none
      else vniAction (canonicalBracketKey (towlower keyChar)) := by
  have hvni : (e.swapped m history).config.isVniMode = e.config.isVniMode := by
    refine isVniMode_swapped ?_
    rw [h.method]
    rcases hm with rfl | rfl <;> rfl
  have hsequence :
    (e.swapped m history).isVniDigitSequence keyChar = e.isVniDigitSequence keyChar := by
    simp only [isVniDigitSequence, hvni]
    rfl
  have hmode : (e.swapped m history).config.isVniMode = true := by
    rw [hvni, TypingConfig.isVniMode, h.method]
    rfl
  have hmethod : (e.swapped m history).config.inputMethod ≠ .userDefined := by
    rw [swapped_inputMethod]
    rcases hm with rfl | rfl <;> decide
  rw [keyAction, hsequence, methodAction_eq_classifyKey hmethod, hmode,
    classifyKey_vniKeys hkey.lower_mem]

omit [WideCType] in
theorem alike_vni_combined : InputMethod.Alike .vni .combined := by
  constructor <;> decide

/-- A key of VNI is the same action in the combined method, and its letter is finished alike. -/
theorem Quiet.keyAgrees (h : Quiet e) (hlast : e.rawInput.getLast? = some keyChar)
    (hkey : IsVniKey keyChar) (uppercase : Bool) : KeyAgrees e .combined keyChar uppercase := by
  have hsilent := hkey.isSilent
  have hquick := h.handleQuickStartConsonant hkey.lower_mem hsilent.towlower keyChar uppercase
  have hpassed := h.handleQuickStartConsonant_passed hkey.lower_mem keyChar uppercase
  generalize hengine : (e.handleQuickStartConsonant keyChar (towlower keyChar) uppercase).1 = q
    at hquick hpassed
  have haction : q.keyAction keyChar (towlower keyChar) =
      if q.isVniDigitSequence keyChar then .none
      else vniAction (canonicalBracketKey (towlower keyChar)) := by
    have hself := hquick.keyAction_eq hkey q.escRawHistory (m := .vni) (.inl rfl)
    rw [← hquick.method, swapped_self] at hself
    exact hself
  refine ⟨⟨?_, ?_, ?_, ?_⟩, ?_⟩
  · intro l hl
    exact (h.quickLetter hsilent.towlower hl).finishAgrees
  · rw [hengine, hquick.keyAction_eq hkey [] (.inr rfl), haction]
  · rw [hengine, hquick.method]
    refine ⟨alike_vni_combined, fun htelex => ?_, fun _ => rfl⟩
    rw [haction] at htelex
    split at htelex
    · exact absurd htelex (by decide)
    · exact absurd htelex (not_isTelexModifierAction_vniAction _)
  · rw [hengine]
    exact hquick.tonedAgrees hsilent _ _
  · intro l hl
    obtain ⟨hopen, rfl⟩ := settledLetter_eq hl
    rw [hengine]
    refine Quiet.finishAgrees (Quiet.processChar ?_ hsilent uppercase)
    refine hquick.dispatchPostClassify hsilent ⟨?_, TypingEngine.keyAction_eq q _ _⟩ uppercase
    rw [hpassed hopen]
    exact hlast

theorem Quiet.pushSettled (h : Quiet e) (hlast : e.rawInput.getLast? = some keyChar)
    (hkey : IsVniKey keyChar) (uppercase : Bool) : Quiet (e.pushSettled keyChar uppercase) := by
  have hsilent := hkey.isSilent
  have hquick := h.handleQuickStartConsonant hkey.lower_mem hsilent.towlower keyChar uppercase
  have hpassed := h.handleQuickStartConsonant_passed hkey.lower_mem keyChar uppercase
  rw [TypingEngine.pushSettled]
  generalize e.handleQuickStartConsonant keyChar (towlower keyChar) uppercase =
    quick at hquick hpassed
  by_cases hconsumed : quick.2 = true
  · simp only [hconsumed, if_true]
    exact hquick
  · have hkeyed : VniKeyed quick.1 keyChar (quick.1.keyAction keyChar (towlower keyChar)) := by
      refine ⟨?_, TypingEngine.keyAction_eq _ _ _⟩
      rw [hpassed (Bool.eq_false_iff.mpr hconsumed)]
      exact hlast
    have hdispatched := hquick.dispatchPostClassify hsilent hkeyed uppercase
    simp only [hconsumed, Bool.false_eq_true, if_false]
    split
    · exact hdispatched
    · exact (hdispatched.processChar hsilent uppercase).finalizeRegularChar

theorem getLast?_settled (e : TypingEngine) (keyChar : WChar) (uppercase : Bool) :
    (e.settled keyChar uppercase).1.rawInput.getLast? = some keyChar := by
  rw [TypingEngine.settled, rawInput_revertProvisionalOoTone]
  exact List.getLast?_concat

theorem Quiet.pushChar (h : Quiet e) (hkey : IsVniKey keyChar) : Quiet (e.pushChar keyChar) := by
  have hsettled := h.settled hkey.isSilent (pushedUppercase keyChar)
  change Quiet (if (e.settled keyChar (pushedUppercase keyChar)).2 then _
    else (e.settled keyChar (pushedUppercase keyChar)).1.pushSettled keyChar
      (pushedUppercase keyChar))
  split
  · exact hsettled.same ⟨rfl, rfl, rfl, rfl, rfl⟩
  · exact hsettled.pushSettled (getLast?_settled e keyChar _) hkey _

theorem Quiet.pushChar_combined (h : Quiet e) (hkey : IsVniKey keyChar) (history : List WChar) :
    (e.swapped .combined history).pushChar keyChar =
      (e.pushChar keyChar).swapped .combined (history ++ [keyChar]) := by
  refine pushChar_swapped fun _ => ?_
  exact (h.settled hkey.isSilent _).keyAgrees (getLast?_settled e keyChar _) hkey _

theorem TelexSilent.undoHornU {states : List CharState} (h : TelexSilent states) (i : Nat) :
    TelexSilent (undoHornU states i) := by
  rw [VKey.undoHornU]
  split
  · exact h.setMod _ _
  · exact h

/-- The key that made an expansion comes back as a letter. -/
theorem Quiet.undoQuickConsonant (h : Quiet e) : Quiet e.undoQuickConsonant := by
  have hzero : IsSilent 0 := isSilent_of_ascii (by decide) rfl (by decide)
  have hpopped : Quiet { e with
      states := (VKey.undoHornU e.states (e.states.length - 1)).dropLast, qc :=
        e.qc.markEscaped } :=
    ⟨h.method, fun s hs => h.letters.undoHornU _ s (List.dropLast_subset _ hs),
      h.keys, hzero, h.start⟩
  refine Quiet.same (e := if e.qc.lastKey ≠ 0 then
    TypingEngine.processKeyChar { e with
      states := (VKey.undoHornU e.states (e.states.length - 1)).dropLast
      qc := e.qc.markEscaped } e.qc.lastKey
    else { e with
      states := (VKey.undoHornU e.states (e.states.length - 1)).dropLast
      qc := e.qc.markEscaped }) ?_ ⟨rfl, rfl, rfl, rfl, rfl⟩
  split
  · exact hpopped.processKeyChar h.lastKey
  · exact hpopped

theorem Quiet.backspace (h : Quiet e) : Quiet e.backspace := by
  have hzero : IsSilent 0 := isSilent_of_ascii (by decide) rfl (by decide)
  by_cases hempty : e.states.isEmpty = true
  · rw [TypingEngine.backspace, if_pos hempty]
    exact h
  · rw [backspace_of_ne (Bool.eq_false_iff.mpr hempty), if_neg fun hstart => hstart.1 h.start]
    split
    · exact Quiet.undoQuickConsonant (e := { e with escape := .none, quickStartKey := 0 })
        ⟨h.method, h.letters, h.keys, h.lastKey, rfl⟩
    · refine Quiet.same (e := { e with
        escape := .none, quickStartKey := 0, qc := e.qc.clearActive, states := e.states.dropLast
        rawInput := e.rawInput.take e.lastState.rawIdx }) ?_ ⟨rfl, rfl, rfl, rfl, rfl⟩
      refine ⟨h.method, fun s hs => h.letters s (List.dropLast_subset _ hs),
        fun k hk => h.keys k (List.take_subset _ _ hk), hzero, rfl⟩

theorem Quiet.backspace_combined (h : Quiet e) (history : List WChar) :
    ∃ history', (e.swapped .combined history).backspace = e.backspace.swapped .combined history' :=
  backspace_swapped (.inr h.backspace.letters)

/-- Every key of the actions is a key of VNI. -/
def VniKeysOnly (ops : List Op) : Prop := ∀ keyChar, Op.pushChar keyChar ∈ ops → IsVniKey keyChar

/-- On such keys VNI and the combined method agree throughout. -/
theorem Quiet.agreeThroughout {ops : List Op} (h : Quiet e) (hops : VniKeysOnly ops)
    (history : List WChar) : AgreeThroughout e (e.swapped .combined history) ops := by
  induction ops generalizing e history with
  | nil =>
      intro done hdone
      rw [List.prefix_nil.mp hdone]
      exact sameText_swapped e _ _
  | cons op ops ih =>
      have hrest : VniKeysOnly ops := fun keyChar hmem => hops keyChar (List.mem_cons_of_mem _ hmem)
      refine .cons (sameText_swapped e _ _) ?_
      cases op with
      | backspace =>
          obtain ⟨history', hback⟩ := h.backspace_combined history
          have hagree := ih h.backspace hrest history'
          rw [← hback] at hagree
          exact hagree
      | pushChar keyChar =>
          have hkey := hops keyChar List.mem_cons_self
          have hagree := ih (h.pushChar hkey) hrest (history ++ [keyChar])
          rw [← h.pushChar_combined hkey history] at hagree
          exact hagree

end Vni

/-! ## The combined method -/

/-- The engine with another method. -/
def withMethod (e : TypingEngine) (m : InputMethod) : TypingEngine :=
  { e with config := { e.config with inputMethod := m } }

theorem quiet_reset (e : TypingEngine) : Quiet (e.withMethod .vni).reset := by
  have hzero : IsSilent 0 := isSilent_of_ascii (by decide) rfl (by decide)
  constructor
  · rfl
  · intro s hs
    exact absurd hs List.not_mem_nil
  · intro keyChar hmem
    exact absurd hmem List.not_mem_nil
  · exact hzero
  · rfl

/-- From Reset, the combined method agrees with Telex on keys that are no digits, and with VNI on
digits and letters without a meaning in Telex, exactly when Telex never turns a leading `ư` back
into `w` while the keys are no digits. -/
theorem combined_agrees_iff (hdigits : DigitsOnlyFromDigits) (e : TypingEngine) (ops : List Op) :
    ((NoDigits ops →
        AgreeThroughout (e.withMethod .telex).reset (e.withMethod .combined).reset ops) ∧
      (VniKeysOnly ops →
        AgreeThroughout (e.withMethod .vni).reset (e.withMethod .combined).reset ops)) ↔
      (NoDigits ops → RunMeets KeepsStart (e.withMethod .telex).reset ops) := by
  have htelex (hops : NoDigits ops) :=
    @agreeThroughout_telex_iff _ (e.withMethod .telex).reset [] hdigits ops hops rfl
  have hvni (hops : VniKeysOnly ops) := (quiet_reset e).agreeThroughout hops []
  constructor
  · intro h hops
    exact (htelex hops).mp (h.1 hops)
  · intro h
    exact ⟨fun hops => (htelex hops).mpr (h hops), hvni⟩

end TypingEngine

end VKey

namespace VKey.TypingEngine

instance decidableKeepsStart (e : TypingEngine) : (op : Op) → Decidable (KeepsStart e op)
  | .pushChar keyChar => inferInstanceAs (Decidable (e.revertsStart keyChar = false))
  | .backspace => inferInstanceAs (Decidable True)

theorem digitsOnlyFromDigits_cLocale : DigitsOnlyFromDigits := by
  intro c hdigit
  change IsDigitKey (asciiLower c) at hdigit
  rw [asciiLower] at hdigit
  split at hdigit
  · rename_i hupper
    simp only [IsDigitKey, WChar, L, Char.reduceToNat] at hdigit hupper
    omega
  · exact hdigit

/-- The keys `t`, `a` and `s` turn no start back, and Telex and the combined method agree on
them. -/
theorem combined_agrees_tas :
    (NoDigits [.pushChar (L 't'), .pushChar (L 'a'), .pushChar (L 's')] →
        AgreeThroughout ((new {}).withMethod .telex).reset ((new {}).withMethod .combined).reset
          [.pushChar (L 't'), .pushChar (L 'a'), .pushChar (L 's')]) ∧
      (VniKeysOnly [.pushChar (L 't'), .pushChar (L 'a'), .pushChar (L 's')] →
        AgreeThroughout ((new {}).withMethod .vni).reset ((new {}).withMethod .combined).reset
          [.pushChar (L 't'), .pushChar (L 'a'), .pushChar (L 's')]) :=
  (combined_agrees_iff digitsOnlyFromDigits_cLocale (new {})
    [.pushChar (L 't'), .pushChar (L 'a'), .pushChar (L 's')]).mpr fun _ => by decide

/-- The letters `wh` read `wh` in Telex and `ưh` in the combined method. -/
theorem not_combined_agrees_wh : ¬∀ (e : TypingEngine) (ops : List Op), NoDigits ops →
    AgreeThroughout (e.withMethod .telex).reset (e.withMethod .combined).reset ops := by
  intro h
  have hdigits : NoDigits [.pushChar (L 'w'), .pushChar (L 'h')] := by
    intro keyChar hmem
    simp only [List.mem_cons, Op.pushChar.injEq, List.not_mem_nil, or_false] at hmem
    rcases hmem with rfl | rfl
    · decide
    · decide
  have hwh := (h (new {}) [.pushChar (L 'w'), .pushChar (L 'h')] hdigits
    [.pushChar (L 'w'), .pushChar (L 'h')] (List.prefix_refl _)).1
  revert hwh
  decide

end VKey.TypingEngine
