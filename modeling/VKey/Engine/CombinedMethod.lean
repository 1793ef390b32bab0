import VKey.Engine.MethodSwap

/-!
# Telex on letters, VNI on digits

The combined method has the keys of both methods.  Without digits it differs from Telex in one
place: a leading `ư` that was made from `w` is only turned back into `w` in Telex itself.  On digits
and on letters without a meaning in Telex it does not differ from VNI.
-/

namespace VKey

variable [WideCType]

namespace TypingEngine

/-! ## The same text throughout -/

/-- The words read and are committed alike. -/
def SameText (e e' : TypingEngine) : Prop := e.peek = e'.peek ∧ e.commit.1 = e'.commit.1

/-- The words read and are committed alike after every one of the actions. -/
def AgreeThroughout (e e' : TypingEngine) (ops : List Op) : Prop :=
  ∀ done, done <+: ops → SameText (e.performAll done) (e'.performAll done)

theorem AgreeThroughout.cons {e e' : TypingEngine} {op : Op} {ops : List Op} (h : SameText e e')
    (hrest : AgreeThroughout (e.perform op) (e'.perform op) ops) :
    AgreeThroughout e e' (op :: ops) := by
  intro done hdone
  cases done with
  | nil => exact h
  | cons first rest =>
      obtain ⟨rfl, hrest'⟩ := List.cons_prefix_cons.mp hdone
      exact hrest rest hrest'

theorem AgreeThroughout.tail {e e' : TypingEngine} {op : Op} {ops : List Op}
    (h : AgreeThroughout e e' (op :: ops)) : AgreeThroughout (e.perform op) (e'.perform op) ops :=
  fun done hdone => h (op :: done) (List.cons_prefix_cons.mpr ⟨rfl, hdone⟩)

theorem AgreeThroughout.head {e e' : TypingEngine} {op : Op} {ops : List Op}
    (h : AgreeThroughout e e' (op :: ops)) : SameText (e.perform op) (e'.perform op) :=
  h [op] (List.cons_prefix_cons.mpr ⟨rfl, List.nil_prefix⟩)

theorem sameText_swapped (e : TypingEngine) (m : InputMethod) (history : List WChar) :
    SameText e (e.swapped m history) :=
  ⟨rfl, commit_swapped.symm⟩

/-! ## Letters in Telex and in the combined method -/

section Telex

variable {e : TypingEngine} {history : List WChar}

/-- The key is one of the digits. -/
def IsDigitKey (keyChar : WChar) : Prop := L '0' ≤ keyChar ∧ keyChar ≤ L '9'

instance : DecidablePred IsDigitKey := fun _ => inferInstanceAs (Decidable (_ ∧ _))

/-- Only digits have a digit for lowercase. -/
def DigitsOnlyFromDigits : Prop := ∀ c, IsDigitKey (towlower c) → IsDigitKey c

omit [WideCType] in
theorem vniAction_of_not_digit {lower : WChar} (h : ¬IsDigitKey lower) :
    vniAction lower = .none := by
  have hne (digit : WChar) (hdigit : IsDigitKey digit) : lower ≠ digit := by
    rintro rfl
    exact h hdigit
  rw [vniAction, if_neg (hne _ (by decide)), if_neg (hne _ (by decide)), if_neg (hne _ (by decide)),
    if_neg (hne _ (by decide)), if_neg (hne _ (by decide)), if_neg (hne _ (by decide)),
    if_neg (hne _ (by decide)), if_neg (hne _ (by decide)), if_neg (hne _ (by decide)),
    if_neg (hne _ (by decide))]

omit [WideCType] in
theorem not_isDigitKey_canonicalBracketKey {lower : WChar} (h : ¬IsDigitKey lower) :
    ¬IsDigitKey (canonicalBracketKey lower) := by
  rw [canonicalBracketKey]
  split_ifs
  · decide
  · decide
  · exact h

omit [WideCType] in
theorem classifyKey_of_not_digit {lower : WChar} (h : ¬IsDigitKey lower) (isVni : Bool) :
    classifyKey lower true isVni = telexAction (canonicalBracketKey lower) := by
  have hvni := vniAction_of_not_digit (not_isDigitKey_canonicalBracketKey h)
  cases htelex : telexAction (canonicalBracketKey lower) with
  | none => simp only [classifyKey, htelex, hvni, bne_self_eq_false, Bool.and_false,
      Bool.false_eq_true, ite_self]
  | _ => simp only [classifyKey, htelex]; rfl

omit [WideCType] in
theorem keyAction_of_not_digit {keyChar lower : WChar} (hkey : ¬IsDigitKey keyChar)
    (hlower : ¬IsDigitKey lower) (hmethod : e.config.inputMethod ≠ .userDefined)
    (htelex : e.config.isTelexMode = true) :
    e.keyAction keyChar lower = telexAction (canonicalBracketKey lower) := by
  have hsequence : e.isVniDigitSequence keyChar = false := by
    have hdigit : decide (L '0' ≤ keyChar ∧ keyChar ≤ L '9') = false := decide_eq_false hkey
    rw [isVniDigitSequence, hdigit, Bool.and_false, Bool.false_and, Bool.false_and]
  rw [keyAction, hsequence, if_neg Bool.false_ne_true, methodAction_eq_classifyKey hmethod, htelex,
    classifyKey_of_not_digit hlower]

omit [WideCType] in
theorem not_isVniModifierAction_telexAction (lower : WChar) :
    ¬(telexAction lower).isVniModifierAction = true := by
  rw [telexAction]
  repeat'
    refine iteInduction (motive := fun action : TypingAction => ¬action.isVniModifierAction = true)
      (fun _ => ?_) (fun _ => ?_)
  all_goals decide

/-- The key makes Telex turn a leading `ư` back into `w`. -/
def revertsStart (e : TypingEngine) (keyChar : WChar) : Bool :=
  (e.finishedLetter keyChar).any (·.lettered.hasSyntheticEnglishStart)

omit [WideCType] in
theorem alike_telex_combined : InputMethod.Alike .telex .combined := by
  constructor <;> decide

theorem finishAgrees_of_keeps {l : TypingEngine} (hmethod : l.config.inputMethod = .telex)
    (hstart : l.lettered.hasSyntheticEnglishStart = false) : FinishAgrees l .combined := by
  constructor
  · rw [hstart]
    rfl
  · rw [hmethod]
    exact .inl rfl

/-- A key that is no digit is the same action in both methods. -/
theorem keyReaches_telex {keyChar : WChar} {uppercase : Bool}
    (hmethod : e.config.inputMethod = .telex)
    (hkey : ¬IsDigitKey keyChar) (hlower : ¬IsDigitKey (towlower keyChar))
    (hquick : ∀ l, e.quickLetter keyChar (towlower keyChar) uppercase = some l →
      l.lettered.hasSyntheticEnglishStart = false) :
    KeyReaches e .combined keyChar uppercase := by
  have hmethod' : (e.handleQuickStartConsonant keyChar (towlower keyChar)
      uppercase).1.config.inputMethod = .telex :=
    (handleQuickStartConsonant_inputMethod _ _ _).trans hmethod
  generalize hengine : (e.handleQuickStartConsonant keyChar (towlower keyChar) uppercase).1 = q
    at hmethod'
  have haction : q.keyAction keyChar (towlower keyChar) =
      telexAction (canonicalBracketKey (towlower keyChar)) := by
    refine keyAction_of_not_digit hkey hlower ?_ ?_
    · rw [hmethod']
      decide
    · rw [TypingConfig.isTelexMode, hmethod']
      rfl
  constructor
  · intro l hl
    exact finishAgrees_of_keeps ((congrArg TypingConfig.inputMethod (quickLetter_config hl)).trans
      hmethod) (hquick l hl)
  · rw [hengine, haction]
    refine keyAction_of_not_digit hkey hlower ?_ rfl
    rw [swapped_inputMethod]
    decide
  · rw [hengine, hmethod', haction]
    refine ⟨alike_telex_combined, fun _ => rfl, fun hvni => ?_⟩
    exact absurd hvni (not_isVniModifierAction_telexAction _)
  · rw [hengine, TonedAgrees, hmethod']
    exact .inl rfl

/-- A key that turns no start back leaves the two engines alike. -/
theorem pushChar_combined {keyChar : WChar} (hmethod : e.config.inputMethod = .telex)
    (hkey : ¬IsDigitKey keyChar) (hlower : ¬IsDigitKey (towlower keyChar))
    (hkeeps : e.revertsStart keyChar = false) :
    (e.swapped .combined history).pushChar keyChar =
      (e.pushChar keyChar).swapped .combined (history ++ [keyChar]) := by
  refine pushChar_swapped fun hsettled => ?_
  have hmethod' := (settled_inputMethod keyChar (pushedUppercase keyChar)).trans hmethod
  have hletters : ∀ l, ((e.settled keyChar (pushedUppercase keyChar)).1.quickLetter keyChar
      (towlower keyChar) (pushedUppercase keyChar)).or
        ((e.settled keyChar (pushedUppercase keyChar)).1.settledLetter keyChar
          (pushedUppercase keyChar)) = some l → l.lettered.hasSyntheticEnglishStart = false := by
    intro l hl
    rw [revertsStart, finishedLetter, if_neg (Bool.eq_false_iff.mp hsettled), hl] at hkeeps
    exact hkeeps
  generalize (e.settled keyChar (pushedUppercase keyChar)).1 = q at hmethod' hletters
  have hquick : ∀ l, q.quickLetter keyChar (towlower keyChar) (pushedUppercase keyChar) = some l →
      l.lettered.hasSyntheticEnglishStart = false :=
    fun l hl => hletters l (by rw [hl, Option.some_or])
  refine ⟨keyReaches_telex hmethod' hkey hlower hquick, fun l hl => ?_⟩
  refine finishAgrees_of_keeps ((settledLetter_inputMethod hl).trans hmethod') ?_
  cases hexpanded : q.quickLetter keyChar (towlower keyChar) (pushedUppercase keyChar) with
  | none => exact hletters l (by rw [hexpanded, Option.none_or, hl])
  | some expanded =>
      rw [settledLetter, handleQuickStartConsonant_of_letter hexpanded] at hl
      cases hl

/-! ## Where Telex turns a start back -/

/-- The first letters that Telex and the combined method show. -/
theorem compose_revertedStart {s : CharState} (hbase : s.base = L 'u') (hmod : s.mod = .horn)
    (htone : s.tone = .none) :
    compose { s with base := L 'w', mod := .none, synthetic := false } ≠ compose s ∧
      compose { s with base := L 'w', mod := .none, synthetic := false } ≠ 0 ∧ compose s ≠ 0 := by
  have hw : towupper (L 'w') = L 'W' := WideCType.towupper_ascii _ (by decide)
  have hupper : toUpperVietnamese (L 'w') = L 'W' := hw
  cases s with
  | mk base mod tone isUpper synthetic rawIdx toneRawIdx =>
      obtain rfl : base = L 'u' := hbase
      obtain rfl : mod = .horn := hmod
      obtain rfl : tone = .none := htone
      cases isUpper with
      | false =>
          change L 'w' ≠ L 'ư' ∧ L 'w' ≠ 0 ∧ L 'ư' ≠ 0
          decide
      | true =>
          change toUpperVietnamese (L 'w') ≠ L 'Ư' ∧ toUpperVietnamese (L 'w') ≠ 0 ∧ L 'Ư' ≠ 0
          rw [hupper]
          decide

omit [WideCType] in
theorem states_checkInitialBias (e : TypingEngine) : e.checkInitialBias.states = e.states :=
  (sameBuffer_checkInitialBias e).states_eq

/-- Telex shows `w` where the combined method shows `ư`. -/
theorem peek_finalizeRegularChar_ne (history : List WChar) {l : TypingEngine}
    (hstart : l.lettered.hasSyntheticEnglishStart = true) :
    l.finalizeRegularChar.peek ≠ (l.swapped .combined history).finalizeRegularChar.peek := by
  have htest := hstart
  simp only [hasSyntheticEnglishStart, Bool.and_eq_true, beq_iff_eq, Bool.not_eq_true',
    List.isEmpty_eq_false_iff] at htest
  obtain ⟨⟨⟨⟨⟨⟨⟨-, -⟩, hne⟩, -⟩, hbase⟩, hmod⟩, htone⟩, -⟩ := htest
  have htelex : l.finalizeRegularChar.states = l.lettered.states.modify 0 fun s =>
      { s with base := L 'w', mod := .none, synthetic := false } := by
    have huse : l.lettered.revertSyntheticStart.hasTonedUse = false := by
      rw [revertSyntheticStart, if_pos hstart]
      simp [hasTonedUse, setBias]
    rw [finalizeRegularChar_eq, states_checkInitialBias, revertTonedUse, huse,
      if_neg Bool.false_ne_true, revertSyntheticStart, if_pos hstart]
    rfl
  have hcombined :
    (l.swapped .combined history).finalizeRegularChar.states = l.lettered.states := by
    have hkeeps : (l.lettered.swapped .combined history).hasSyntheticEnglishStart = false := rfl
    have huse : (l.lettered.swapped .combined history).hasTonedUse = false := by
      simp [hasTonedUse, hmod]
    rw [finalizeRegularChar_eq, states_checkInitialBias, lettered_swapped,
      revertSyntheticStart, hkeeps,
      if_neg Bool.false_ne_true, revertTonedUse, huse, if_neg Bool.false_ne_true, swapped_states]
  obtain ⟨s, rest, hstates⟩ := List.exists_cons_of_ne_nil hne
  rw [hstates] at hbase hmod htone
  have hfirst : stateAt (s :: rest) 0 = s := rfl
  rw [hfirst] at hbase hmod htone
  obtain ⟨hdiffers, hw, hu⟩ := compose_revertedStart hbase hmod htone
  have hcons (first : CharState) (hne : compose first ≠ 0) :
      composeAll (first :: rest) = compose first :: composeAll rest := by
    have hkeep : (compose first != 0) = true := bne_iff_ne.mpr hne
    rw [composeAll, List.map_cons, List.filter_cons, if_pos hkeep, composeAll]
  rw [peek, peek, htelex, hcombined, hstates, List.modify_zero_cons, hcons _ hw, hcons _ hu]
  intro heq
  exact hdiffers (List.cons.inj heq).1

theorem finishedLetter_combined {l : TypingEngine} {keyChar : WChar}
    (hmethod : e.config.inputMethod = .telex) (hkey : ¬IsDigitKey keyChar)
    (hlower : ¬IsDigitKey (towlower keyChar)) (h : e.finishedLetter keyChar = some l) :
    (e.swapped .combined history).finishedLetter keyChar =
      some (l.swapped .combined (history ++ [keyChar])) := by
  have hsettled : (e.swapped .combined history).settled keyChar (pushedUppercase keyChar) =
      swappedResult (e.settled keyChar (pushedUppercase keyChar))
        .combined (history ++ [keyChar]) := by
    rw [settled, recordKey_swapped, revertProvisionalOoTone_swapped, settled]
  have hmethod' := (settled_inputMethod keyChar (pushedUppercase keyChar)).trans hmethod
  simp only [finishedLetter, hsettled, swappedResult_fst, swappedResult_snd,
    quickLetter_swapped] at h ⊢
  split at h
  · cases h
  · rename_i hopen
    rw [if_neg hopen]
    generalize (e.settled keyChar (pushedUppercase keyChar)).1 = q at h hmethod'
    rcases Option.or_eq_some_iff.mp h with hquick | ⟨hnone, hletter⟩
    · rw [hquick, Option.map_some, Option.some_or]
    · have hreaches : KeyReaches q .combined keyChar (pushedUppercase keyChar) := by
        refine keyReaches_telex hmethod' hkey hlower fun l hl => ?_
        rw [hnone] at hl
        cases hl
      rw [hnone, settledLetter_swapped hreaches, hletter, Option.map_none, Option.none_or,
        Option.map_some]

/-- The two methods show different words as soon as Telex turns a start back. -/
theorem not_sameText_of_revertsStart {keyChar : WChar} (hmethod : e.config.inputMethod = .telex)
    (hkey : ¬IsDigitKey keyChar) (hlower : ¬IsDigitKey (towlower keyChar))
    (hreverts : e.revertsStart keyChar = true) :
    ¬SameText (e.pushChar keyChar) ((e.swapped .combined history).pushChar keyChar) := by
  rw [revertsStart] at hreverts
  obtain ⟨l, hl, hstart⟩ := (Option.any_eq_true _ _).mp hreverts
  intro hsame
  refine peek_finalizeRegularChar_ne (history ++ [keyChar]) hstart ?_
  rw [← pushChar_of_letter hl,
    ← pushChar_of_letter (finishedLetter_combined hmethod hkey hlower hl)]
  exact hsame.1

/-- No key of the actions is a digit. -/
def NoDigits (ops : List Op) : Prop := ∀ keyChar, Op.pushChar keyChar ∈ ops → ¬IsDigitKey keyChar

/-- The action turns no start back. -/
def KeepsStart (e : TypingEngine) : Op → Prop
  | .pushChar keyChar => e.revertsStart keyChar = false
  | .backspace => True

/-- Without digits Telex and the combined method agree throughout exactly when Telex never turns a
start back. -/
theorem agreeThroughout_telex_iff (hdigits : DigitsOnlyFromDigits)
    {ops : List Op} (hops : NoDigits ops) (hmethod : e.config.inputMethod = .telex) :
    AgreeThroughout e (e.swapped .combined history) ops ↔ RunMeets KeepsStart e ops := by
  induction ops generalizing e history with
  | nil =>
      refine ⟨fun _ => trivial, fun _ done hdone => ?_⟩
      rw [List.prefix_nil.mp hdone]
      exact sameText_swapped e _ _
  | cons op ops ih =>
      have hrest : NoDigits ops := fun keyChar hmem => hops keyChar (List.mem_cons_of_mem _ hmem)
      cases op with
      | backspace =>
          have htelex : TelexAgrees e.config.inputMethod .combined e.backspace.states := by
            rw [hmethod]
            exact .inl rfl
          obtain ⟨history', hback⟩ := @backspace_swapped _ e .combined history htelex
          have hmethod' : e.backspace.config.inputMethod = .telex := by
            rw [(backspace_cases e 0).1]
            exact hmethod
          have hagree : AgreeThroughout e.backspace (e.backspace.swapped .combined history') ops ↔
              RunMeets KeepsStart e.backspace ops := ih hrest hmethod'
          rw [← hback] at hagree
          refine ⟨fun h => ⟨trivial, hagree.mp h.tail⟩, fun h => ?_⟩
          exact .cons (sameText_swapped e _ _) (hagree.mpr h.2)
      | pushChar keyChar =>
          have hkey := hops keyChar List.mem_cons_self
          have hlower : ¬IsDigitKey (towlower keyChar) := fun h => hkey (hdigits keyChar h)
          by_cases hreverts : e.revertsStart keyChar = true
          · refine ⟨fun h =>
              absurd h.head (not_sameText_of_revertsStart hmethod hkey hlower hreverts),
              fun h => ?_⟩
            exact absurd hreverts (Bool.eq_false_iff.mp h.1)
          · have hkeeps := Bool.eq_false_iff.mpr hreverts
            have hpush := @pushChar_combined _ e history keyChar hmethod hkey hlower hkeeps
            have hmethod' : (e.pushChar keyChar).config.inputMethod = .telex := by
              obtain ⟨p', hpushed⟩ := pushed_pushChar e keyChar
              rw [hpushed.config_eq]
              exact hmethod
            have hagree : AgreeThroughout (e.pushChar keyChar)
                ((e.pushChar keyChar).swapped .combined (history ++ [keyChar])) ops ↔
                RunMeets KeepsStart (e.pushChar keyChar) ops := ih hrest hmethod'
            rw [← hpush] at hagree
            refine ⟨fun h => ⟨hkeeps, hagree.mp h.tail⟩, fun h => ?_⟩
            exact .cons (sameText_swapped e _ _) (hagree.mpr h.2)

end Telex

end TypingEngine

end VKey
