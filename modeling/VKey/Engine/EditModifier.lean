import VKey.Engine.EditTone

/-!
# Modifier keys are edits

Each modifier handler either leaves the buffer alone or edits it by marks, by a letter, or by both.
-/

namespace VKey

namespace TypingEngine

section Targets

/-! ## The targets of the handlers -/

theorem legalMod_of_mem {base : WChar} {mod : Modifier} (h : base ∈ legalBases mod) :
    LegalMod base mod := Or.inr h

theorem stateAt_lastVowelWhere {ss : List CharState} {base : WChar} {test : Modifier → Bool}
    {i : Nat} (h : lastVowelWhere ss base test = some i) :
    (stateAt ss i).base = base := by
  have hi := (scanDown_eq_some h).2.1
  simp only [Bool.and_eq_true, beq_iff_eq] at hi
  exact hi.1.2

theorem legal_lastA {ss : List CharState} {i : Nat} {mod : Modifier} (hmod : L 'a' ∈ legalBases mod)
    (h : lastA ss = some i) : LegalMod (stateAt ss i).base mod := by
  rw [stateAt_lastVowelWhere h]
  exact legalMod_of_mem hmod

theorem stateAt_lastVowelPair {ss : List CharState} {first second : WChar} {i : Nat}
    (h : lastVowelPair ss first second = some i) :
    (stateAt ss i).base = first ∧ (stateAt ss (i + 1)).base = second := by
  have hi := (scanDown_eq_some h).2.1
  simp only [isVowelPairAt, Bool.and_eq_true, beq_iff_eq] at hi
  exact ⟨hi.1.2, hi.2⟩

theorem stateAt_firstPlainU {ss : List CharState} {i : Nat} (h : firstPlainU ss = some i) :
    (stateAt ss i).base = L 'u' := by
  have hi := (scanUp_eq_some h).2
  simp only [Bool.and_eq_true, beq_iff_eq] at hi
  exact hi.1.2

theorem stateAt_lastNucleusWhere {ss : List CharState} {test : CharState → Bool} {i : Nat}
    (h : lastNucleusWhere ss test = some i) : test (stateAt ss i) = true := by
  have hi := (scanDown_eq_some h).2.1
  simp only [Bool.and_eq_true] at hi
  exact hi.1.2

theorem legalMod_of_eligible {base : WChar} {mod : Modifier} (h : base ∈ eligibleBases mod) :
    LegalMod base mod := by
  cases mod <;> first | exact legalMod_of_mem h | simp [eligibleBases] at h

theorem legalMod_of_canSwitch {s : CharState} {mod : Modifier} (h : canSwitch s mod = true) :
    LegalMod s.base mod := by
  simp only [canSwitch, Bool.or_eq_true, Bool.and_eq_true, beq_iff_eq] at h
  rcases h with ⟨hbase, ⟨-, rfl⟩ | ⟨-, rfl⟩⟩ | ⟨hbase, ⟨-, rfl⟩ | ⟨-, rfl⟩⟩ <;>
    rw [hbase] <;> decide

theorem stateAt_findStrokeDTarget {ss : List CharState} {i : Nat}
    (h : findStrokeDTarget ss = some i) : (stateAt ss i).base = L 'd' := by
  unfold findStrokeDTarget at h
  split at h
  · simp at h
  · rename_i dIdx hscan
    dsimp only at h
    split_ifs at h
    obtain rfl : dIdx = i := by simpa using h
    simpa [CharState.isD] using (scanDown_eq_some hscan).2.1

theorem legal_insertedLetter {action : TypingAction} {base : WChar} {mod : Modifier}
    {upper : Bool} (h : insertedLetter action = some (base, mod, upper)) :
    LegalMod base mod ∧ base < 0x80 ∧ asciiLower base = base ∧ base ≠ 0 := by
  cases action <;>
    simp only [insertedLetter, Option.some.injEq, Prod.mk.injEq, reduceCtorEq] at h <;>
    obtain ⟨rfl, rfl, -⟩ := h <;> decide

/-- Changing the letter just appended. -/
theorem modify_last_append (ss : List CharState) (s : CharState) (f : CharState → CharState) :
    (ss ++ [s]).modify ((ss ++ [s]).length - 1) f = ss ++ [f s] := by
  induction ss with
  | nil => rfl
  | cons head ss ih =>
      have hlen : ((head :: ss) ++ [s]).length - 1 = ((ss ++ [s]).length - 1) + 1 := by simp
      rw [hlen, List.cons_append, List.modify_succ_cons, ih]
      rfl

/-! ## The actions of the methods -/

/-- One of the Telex circumflex keys. -/
def IsCircumflexAction (action : TypingAction) : Prop :=
  action = .circumflexA ∨ action = .circumflexE ∨ action = .circumflexO

instance (action : TypingAction) : Decidable (IsCircumflexAction action) :=
  inferInstanceAs (Decidable (_ ∨ _))

theorem telexAction_circumflex {c : WChar} (h : IsCircumflexAction (telexAction c)) :
    c ∈ legalBases .circumflex := by
  by_contra hc
  simp only [legalBases, List.mem_cons, List.not_mem_nil, or_false, not_or] at hc
  revert h
  unfold telexAction
  rw [if_neg hc.1, if_neg hc.2.1, if_neg hc.2.2]
  repeat'
    refine iteInduction (motive := fun a => ¬ IsCircumflexAction a) (fun _ => ?_) (fun _ => ?_)
  all_goals decide

theorem not_isCircumflexAction_vniAction (c : WChar) : ¬ IsCircumflexAction (vniAction c) := by
  unfold vniAction
  repeat'
    refine iteInduction (motive := fun a => ¬ IsCircumflexAction a) (fun _ => ?_) (fun _ => ?_)
  all_goals decide

theorem canonicalBracketKey_cases (c : WChar) :
    canonicalBracketKey c = c ∨ canonicalBracketKey c = L '[' ∨ canonicalBracketKey c = L ']' := by
  unfold canonicalBracketKey
  split_ifs <;> simp

theorem classifyKey_circumflex {c : WChar} {isTelex isVni : Bool}
    (h : IsCircumflexAction (classifyKey c isTelex isVni)) : c ∈ legalBases .circumflex := by
  unfold classifyKey at h
  dsimp only at h
  split at h
  · have hmem := telexAction_circumflex h
    rcases canonicalBracketKey_cases c with hc | hc | hc
    · exact hc ▸ hmem
    · exact absurd (hc ▸ hmem) (by decide)
    · exact absurd (hc ▸ hmem) (by decide)
  split at h
  · exact absurd h (not_isCircumflexAction_vniAction _)
  · exact absurd h (by decide)

theorem methodAction_eq_classifyKey {config : TypingConfig} (h : config.inputMethod ≠ .userDefined)
    (lower : WChar) :
    methodAction config lower = classifyKey lower config.isTelexMode config.isVniMode := by
  unfold methodAction overrideAction
  simp [h]

end Targets

section Modifier

variable [WideCType]
variable {hz : Hazards} {key : WChar} {e : TypingEngine}

/-! ## Inserting letters -/

/-- A key that inserts a modified letter, or takes one back with its raw key. -/
theorem handled_insertLetter {base : WChar} {mod : Modifier} (hbeyond : hz.beyondVni)
    (hnul : key = 0 → hz.nul)
    (hletter : LegalMod base mod ∧ base < 0x80 ∧ asciiLower base = base ∧ base ≠ 0)
    (hlost : e.takesInsertBack base mod key = true →
      (e.states.dropLast.any fun s => s.toneRawIdx == some e.lastState.rawIdx) = true →
      hz.lostKey)
    (isUpper : Bool) (kind : EscapeKind) :
    Handled hz key e (e.insertLetter base mod isUpper kind key) := by
  obtain ⟨hlegal, hascii, hlower, hne⟩ := hletter
  unfold insertLetter
  split_ifs with hback
  · have hnil : e.states ≠ [] := by
      intro hnil
      simp [takesInsertBack, hnil] at hback
    have hpop : Edits e.config hz key ⟨true, e.states, e.rawInput⟩
        ⟨true, e.states.dropLast, e.rawInput⟩ := by
      rw [← List.eraseIdx_length_sub_one]
      exact .single (.remove hbeyond)
    by_cases hlt : e.lastState.rawIdx < e.rawInput.length
    · have hkept : (∀ s ∈ e.states.dropLast, s.toneRawIdx ≠ some e.lastState.rawIdx) ∨
          hz.lostKey := by
        cases hany : e.states.dropLast.any fun s => s.toneRawIdx == some e.lastState.rawIdx with
        | true => exact .inr (hlost hback hany)
        | false => exact .inl (by simpa using hany)
      have hswallow : Edited hz key true false e
          ((e.withStates e.states.dropLast).eraseConsumedRaw e.lastState.rawIdx) := by
        unfold eraseConsumedRaw
        rw [if_neg (by simpa [withStates] using hlt)]
        exact ⟨rfl, rfl, rfl, .single (.swallow hnil hlt hkept hbeyond)⟩
      have hedit := hswallow.trans (edited_processKeyChar hnul (.inr hbeyond))
      exact .accept ⟨hedit.config_eq, hedit.qc_eq, hedit.quickStartKey_eq, hedit.edits⟩
    · have hkeep : (e.withStates e.states.dropLast).eraseConsumedRaw e.lastState.rawIdx =
          e.withStates e.states.dropLast := by
        unfold eraseConsumedRaw
        rw [if_pos (by simpa [withStates] using hlt)]
      dsimp only
      rw [hkeep]
      have hedit := (Edited.of_edits hpop).trans (edited_processKeyChar hnul (.inr hbeyond))
      exact .accept ⟨hedit.config_eq, hedit.qc_eq, hedit.quickStartKey_eq, hedit.edits⟩
  · refine .accept (edited_pushState ?_ (nextRawIdx_eq e) (.inr hbeyond))
    exact ⟨rfl, rfl, (WideCType.towlower_ascii base hascii).trans hlower, hlegal,
      fun h => absurd h hne⟩

theorem handled_handleHornInsert {action : TypingAction} (hbeyond : hz.beyondVni)
    (hnul : key = 0 → hz.nul)
    (hlost : e.takesInsertBack (if action = .hornInsertO then L 'o' else L 'u') .horn key = true →
      (e.states.dropLast.any fun s => s.toneRawIdx == some e.lastState.rawIdx) = true →
      hz.lostKey) :
    Handled hz key e (e.handleHornInsert action key) := by
  have hletter : ∀ base, base = L 'o' ∨ base = L 'u' → LegalMod base .horn ∧ base < 0x80 ∧
      asciiLower base = base ∧ base ≠ 0 := by
    rintro base (rfl | rfl) <;> decide
  unfold handleHornInsert
  split
  · exact .reject (.refl e)
  · exact handled_insertLetter hbeyond hnul (hletter _ (ite_eq_or_eq _ _ _)) hlost _ _

theorem handled_handleInsertChar {action : TypingAction} (hbeyond : hz.beyondVni)
    (hnul : key = 0 → hz.nul)
    (hlost : ∀ base mod upper, insertedLetter action = some (base, mod, upper) →
      e.takesInsertBack base mod key = true →
      (e.states.dropLast.any fun s => s.toneRawIdx == some e.lastState.rawIdx) = true →
      hz.lostKey) :
    Handled hz key e (e.handleInsertChar action key) := by
  unfold handleInsertChar
  split
  · exact .reject (.refl e)
  · rename_i base mod upper h
    exact handled_insertLetter hbeyond hnul (legal_insertedLetter h) (hlost base mod upper h) _ _

/-! ## Telex circumflex -/

theorem edited_relocated {p : Bool} {ss : List CharState}
    (h : Marks e.config hz key e.states ss) : Edited hz key p p e (e.relocated ss) :=
  .of_marks (h.trans (marks_relocateToneToTarget _ ss))

/-- Marks, and the key as a letter. -/
theorem edited_escapeTo_of_marks {ss : List CharState} {kind : EscapeKind}
    (h : Marks e.config hz key e.states ss) (hnul : key = 0 → hz.nul) :
    Edited hz key true false e (e.escapeTo ss key kind) :=
  edited_escapeTo (h true _) hnul (.inl ⟨rfl, rfl⟩)

theorem edited_unrevertUse (hbeyond : hz.beyondVni) (huse : e.isLiteralUse = true)
    (hforeign : actionToTone (methodAction e.config (towlower (e.rawInput.getD 1 0))) ≠ .acute →
      hz.foreignTone)
    (hsecond : (stateAt e.states 0).hasTone = true → hz.secondTone) :
    Edited hz key true true e e.unrevertUse := by
  simp only [isLiteralUse, Bool.and_eq_true, beq_iff_eq, decide_eq_true_eq] at huse
  obtain ⟨⟨⟨⟨⟨⟨⟨⟨⟨hlen, -⟩, -⟩, -⟩, hbase⟩, -⟩, hraw⟩, -⟩, -⟩, -⟩ := huse
  have hremove : Edited hz key true true e (e.withStates (e.states.eraseIdx 1)) :=
    .of_edits (.single (.remove hbeyond))
  have hmark : Marks e.config hz key (e.states.eraseIdx 1)
      (setVowelMod (e.states.eraseIdx 1) 1 .circumflex) := by
    apply marks_setVowelMod
    rw [stateAt_eraseIdx]
    exact hbase ▸ by decide
  have htone : Edit e.config hz key
      ⟨true, setVowelMod (e.states.eraseIdx 1) 1 .circumflex, e.rawInput⟩
      ⟨true, setTone (setVowelMod (e.states.eraseIdx 1) 1 .circumflex) 1 .acute (some 1),
        e.rawInput⟩ := by
    refine .unrevertUse ?_ ?_ hraw ?_ ?_ hbeyond
    · simp [List.length_eraseIdx, hlen]
    · rw [stateAt_setVowelMod_base, stateAt_eraseIdx]
      exact hbase
    · by_cases hclass : actionToTone (methodAction e.config (towlower (e.rawInput.getD 1 0))) =
          .acute
      · exact .inl hclass
      · exact .inr (hforeign hclass)
    · rw [stateAt_setVowelMod_tone, stateAt_eraseIdx]
      by_cases htoned : (stateAt e.states 0).tone = .none
      · exact .inl htoned
      · exact .inr (hsecond (by simpa [CharState.hasTone] using htoned))
  have hstates : Edited hz key true true e
      (e.withStates
        (setTone (setVowelMod (e.states.eraseIdx 1) 1 .circumflex) 1 .acute (some 1))) :=
    .of_edits ((hremove.edits.trans (hmark true _)).tail htone)
  unfold unrevertUse
  exact (hstates.trans (.of_marks (marks_relocateToneToTarget _ _))).trans
    (sameBuffer_setBias _ _).edited

theorem handled_circumflexLast {targetBase : WChar} (htarget : targetBase ∈ legalBases .circumflex)
    (hlast : e.lastState.base = targetBase) (hnul : key = 0 → hz.nul) :
    Handled hz key e (e.circumflexLast targetBase key) := by
  have hlegal : LegalMod (towlower (stateAt e.states (e.states.length - 1)).base) .circumflex :=
    (legalMod_of_mem (hlast ▸ htarget)).towlower
  have hescape : Edited hz key true false e
      ((e.withStates (setMod e.states (e.states.length - 1) .none)).processKeyChar key) :=
    (Edited.of_marks (marks_clearMod _ _)).trans (edited_processKeyChar hnul (.inl ⟨rfl, rfl⟩))
  unfold circumflexLast
  dsimp only
  split_ifs
  · exact .accept (Edited.refl (p := true) e)
  · exact .accept ⟨hescape.config_eq, hescape.qc_eq, hescape.quickStartKey_eq, hescape.edits⟩
  · exact .accept hescape
  · exact .reject (.refl e)
  · exact .reject (.refl e)
  · exact .accept (edited_relocated (p := true) (marks_setVowelMod hlegal))

theorem handled_freeMarkPlain {i : Nat} {targetBase : WChar}
    (hlegal : LegalMod (stateAt e.states i).base .circumflex) :
    Handled hz key e (e.freeMarkPlain i targetBase) := by
  have haccept : Handled hz key e (e.relocated (setMod e.states i .circumflex), true) :=
    .accept (edited_relocated (p := true) (marks_setMod hlegal))
  have hreject : Handled hz key e (e, false) := .reject (.refl e)
  have henglish : Handled hz key e (e.setBias .hardEnglish, false) :=
    .reject (sameBuffer_setBias e _)
  unfold freeMarkPlain
  dsimp only
  split_ifs <;> assumption

theorem handled_freeMark {targetBase : WChar} (htarget : targetBase ∈ legalBases .circumflex)
    (hnul : key = 0 → hz.nul) : Handled hz key e (e.freeMark targetBase key) := by
  have hreject : Handled hz key e (e, false) := .reject (.refl e)
  unfold freeMark
  dsimp only
  split_ifs
  · exact hreject
  split
  · exact hreject
  · rename_i i hscan
    have hi := (scanDown_eq_some hscan).2.1
    simp only [Bool.and_eq_true, beq_iff_eq] at hi
    have hlegal : LegalMod (stateAt e.states i).base .circumflex :=
      legalMod_of_mem (hi.2 ▸ htarget)
    split_ifs
    · exact hreject
    · exact .accept (edited_escapeTo_of_marks (marks_clearMod _ i) hnul)
    · exact .accept (edited_relocated (p := true) (marks_setMod hlegal))
    · exact .accept (edited_relocated (p := true) (marks_setVowelMod hlegal.towlower))
    · exact handled_freeMarkPlain hlegal
    · exact hreject

theorem handled_handleAdjacentCircumflex {action : TypingAction} (hbeyond : hz.beyondVni)
    (htarget : (if e.config.inputMethod = .userDefined then actionToVowel action
      else towlower key) ∈ legalBases .circumflex)
    (hnul : key = 0 → hz.nul)
    (huse : action = .circumflexE → e.isLiteralUse = true →
      (actionToTone (methodAction e.config (towlower (e.rawInput.getD 1 0))) ≠ .acute →
        hz.foreignTone) ∧ ((stateAt e.states 0).hasTone = true → hz.secondTone)) :
    Handled hz key e (e.handleAdjacentCircumflex action key) := by
  unfold handleAdjacentCircumflex
  dsimp only
  generalize (if e.config.inputMethod = .userDefined then actionToVowel action
    else towlower key) = targetBase at htarget ⊢
  split_ifs with hempty hliteral hlast
  · exact .reject (.refl e)
  · obtain ⟨hforeign, hsecond⟩ := huse hliteral.1 hliteral.2
    exact .accept (edited_unrevertUse hbeyond hliteral.2 hforeign hsecond)
  · exact handled_circumflexLast htarget hlast.2 hnul
  · exact handled_freeMark htarget hnul

/-! ## Telex horn -/

/-- What a horn key may do to the states. -/
def HornEffectEdits (hz : Hazards) (key : WChar) (e : TypingEngine) : HornEffect → Prop
  | .reject => True
  | .mark ss => Marks e.config hz key e.states ss
  | .relocate ss => Marks e.config hz key e.states ss
  | .takeBack ss c _ =>
      Edits e.config hz key ⟨true, e.states, e.rawInput⟩ ⟨true, ss, e.rawInput⟩ ∧ (c = 0 → hz.nul)
  | .insert s => IsLetter hz s ∧ s.rawIdx = e.rawInput.length - 1

theorem hornEdits_P1 {effect : HornEffect} (h : e.hornP1 = some effect) :
    HornEffectEdits hz key e effect := by
  unfold hornP1 at h
  split at h
  · rename_i uIdx _ hu
    obtain rfl := Option.some.inj h
    have hlegal : LegalMod (stateAt e.states uIdx).base .horn := by
      rw [stateAt_lastVowelWhere hu]
      decide
    exact (marks_setMod hlegal).trans (marks_clearCircumflexAt _ _)
  · simp at h

theorem hornEdits_P2 {effect : HornEffect} (hnul : key = 0 → hz.nul)
    (h : e.hornP2 key = some effect) : HornEffectEdits hz key e effect := by
  unfold hornP2 at h
  split at h
  · simp at h
  · rename_i u hpair
    obtain ⟨hu, ho⟩ := stateAt_lastVowelPair hpair
    have hlegalU : LegalMod (stateAt e.states u).base .horn := by rw [hu]; decide
    have hlegalO : LegalMod (stateAt e.states (u + 1)).base .horn := by rw [ho]; decide
    dsimp only at h
    split_ifs at h
    · obtain rfl := Option.some.inj h
      exact marks_setMod hlegalO
    · obtain rfl := Option.some.inj h
      exact (marks_setMod hlegalU).trans (marks_setMod (by simpa using hlegalO))
    · obtain rfl := Option.some.inj h
      exact marks_setMod hlegalO
    · obtain rfl := Option.some.inj h
      exact marks_setMod hlegalU
    · obtain rfl := Option.some.inj h
      exact ⟨(marks_clearMod _ _).trans (marks_clearMod _ _) true _, hnul⟩
    · obtain rfl := Option.some.inj h
      exact ⟨marks_clearMod _ _ true _, hnul⟩

theorem hornEdits_P3 {effect : HornEffect} (h : e.hornP3 = some effect) :
    HornEffectEdits hz key e effect := by
  unfold hornP3 at h
  split at h
  · rename_i aIdx _ ha
    obtain rfl := Option.some.inj h
    exact marks_setMod (legal_lastA (by decide) ha)
  · simp at h

theorem hornEdits_P4 {effect : HornEffect} (hbeyond : hz.beyondVni) (hnul : key = 0 → hz.nul)
    (h : e.hornP4 key = some effect) : HornEffectEdits hz key e effect := by
  unfold hornP4 at h
  split at h
  · dsimp only at h
    split_ifs at h
    · obtain rfl := Option.some.inj h
      exact ⟨.single (.remove hbeyond), fun h => hnul (WideCType.towupper_eq_zero key h)⟩
    · obtain rfl := Option.some.inj h
      exact ⟨.single (.remove hbeyond), fun h => hnul (WideCType.towlower_eq_zero key h)⟩
    · obtain rfl := Option.some.inj h
      exact ⟨(marks_undoHornU _ _).trans (marks_clearMod _ _) true _, hnul⟩
  · obtain rfl := Option.some.inj h
    exact ⟨marks_clearMod _ _ true _, hnul⟩
  · simp at h

theorem hornEdits_P5 {effect : HornEffect} (h : e.hornP5 = some effect) :
    HornEffectEdits hz key e effect := by
  unfold hornP5 at h
  split at h
  · simp at h
  · rename_i uIdx hu
    dsimp only at h
    have hbase : (stateAt e.states (if (lastVowelPair e.states (L 'u') (L 'u')).isSome = true then
        (firstPlainU e.states).getD uIdx else uIdx)).base = L 'u' := by
      split_ifs
      · cases hfirst : firstPlainU e.states with
        | none => exact stateAt_lastVowelWhere hu
        | some i => exact stateAt_firstPlainU hfirst
      · exact stateAt_lastVowelWhere hu
    generalize (if (lastVowelPair e.states (L 'u') (L 'u')).isSome = true then
      (firstPlainU e.states).getD uIdx else uIdx) = target at h hbase
    split_ifs at h
    · obtain rfl := Option.some.inj h
      trivial
    · obtain rfl := Option.some.inj h
      exact (marks_setMod (by rw [hbase]; decide)).trans (marks_clearCircumflexAt _ _)

theorem hornEdits_P6 {effect : HornEffect} (h : e.hornP6 = some effect) :
    HornEffectEdits hz key e effect := by
  unfold hornP6 at h
  split at h
  · rename_i oIdx ho _
    split_ifs at h
    · obtain rfl := Option.some.inj h
      trivial
    · obtain rfl := Option.some.inj h
      exact marks_setMod (by rw [stateAt_lastVowelWhere ho]; decide)
  · simp at h

theorem hornEdits_P7 {effect : HornEffect} (h : e.hornP7 = some effect) :
    HornEffectEdits hz key e effect := by
  unfold hornP7 at h
  split at h
  · simp at h
  · rename_i aIdx ha
    split_ifs at h
    · obtain rfl := Option.some.inj h
      trivial
    · obtain rfl := Option.some.inj h
      exact marks_setMod (legal_lastA (by decide) ha)

theorem hornEdits_P8 {effect : HornEffect} (h : e.hornP8 key = some effect) :
    HornEffectEdits hz key e effect := by
  unfold hornP8 at h
  split_ifs at h
  obtain rfl := Option.some.inj h
  have hlegal : LegalMod (L 'u') .horn := by decide
  have hne : L 'u' ≠ 0 := by decide
  have hlower : towlower (L 'u') = L 'u' := WideCType.towlower_ascii _ (by decide)
  exact ⟨⟨rfl, rfl, hlower, hlegal, fun h => absurd h hne⟩, nextRawIdx_eq e⟩

theorem hornEdits_hornEffect (hbeyond : hz.beyondVni) (hnul : key = 0 → hz.nul) :
    HornEffectEdits hz key e (e.hornEffect key) := by
  unfold hornEffect
  dsimp only
  split_ifs
  · trivial
  · cases hcase : (e.hornP1 <|> e.hornP2 key <|> e.hornP3 <|> e.hornP4 key <|> e.hornP5 <|>
        e.hornP6 <|> e.hornP7 <|> e.hornP8 key) with
    | none => trivial
    | some effect =>
        simp only [Option.orElse_eq_orElse, Option.orElse_eq_or, Option.or_eq_some_iff] at hcase
        rcases hcase with h | ⟨-, h | ⟨-, h | ⟨-, h | ⟨-, h | ⟨-, h | ⟨-, h | ⟨-, h⟩⟩⟩⟩⟩⟩⟩
        · exact hornEdits_P1 h
        · exact hornEdits_P2 hnul h
        · exact hornEdits_P3 h
        · exact hornEdits_P4 hbeyond hnul h
        · exact hornEdits_P5 h
        · exact hornEdits_P6 h
        · exact hornEdits_P7 h
        · exact hornEdits_P8 h

theorem handled_handleHornW (hbeyond : hz.beyondVni) (hnul : key = 0 → hz.nul)
    (hhorn : movesTone (e.hornEffect key) = true → hz.hornTone) :
    Handled hz key e (e.handleHornW key) := by
  have heffect := hornEdits_hornEffect (e := e) hbeyond hnul
  unfold handleHornW
  cases hcase : e.hornEffect key with
  | reject => exact .reject (.refl e)
  | mark ss =>
      rw [hcase] at heffect
      exact .accept (Edited.of_marks (p := true) heffect)
  | relocate ss =>
      rw [hcase] at heffect hhorn
      exact .accept (Edited.of_marks (p := true)
        (heffect.trans (marks_relocateToneToHornVowel hhorn)))
  | takeBack ss c kind =>
      rw [hcase] at heffect
      exact .accept (edited_escapeTo heffect.1 heffect.2 (.inr hbeyond))
  | insert s =>
      rw [hcase] at heffect
      exact .accept (edited_pushState (p := true) heffect.1 heffect.2 (.inr hbeyond))

/-! ## Stroke -/

theorem handled_handleStrokeD (hnul : key = 0 → hz.nul) :
    Handled hz key e (e.handleStrokeD key) := by
  have hreject : Handled hz key e (e, false) := .reject (.refl e)
  unfold handleStrokeD
  split_ifs
  · exact hreject
  split
  · exact hreject
  · rename_i dIdx hd
    have hlegal : LegalMod (stateAt e.states dIdx).base .stroke := by
      rw [stateAt_findStrokeDTarget hd]
      decide
    dsimp only
    split_ifs
    · exact .accept (Edited.of_marks (p := true) (marks_setMod hlegal))
    · exact hreject
    · exact hreject
    · exact .accept (edited_escapeTo_of_marks (marks_clearMod _ _) hnul)
    · exact hreject

/-! ## VNI vowel modifiers -/

theorem handled_processVniVowelModifier {targetMod : Modifier} (hnul : key = 0 → hz.nul) :
    Handled hz key e (e.processVniVowelModifier targetMod key) := by
  have hreject : Handled hz key e (e, false) := .reject (.refl e)
  unfold processVniVowelModifier
  dsimp only
  split
  · rename_i i hi
    have hplain := stateAt_lastNucleusWhere hi
    simp only [Bool.and_eq_true, List.contains_iff_mem] at hplain
    have hmarks : Marks e.config hz key e.states (setVowelMod e.states i targetMod) :=
      marks_setVowelMod (legalMod_of_eligible hplain.1).towlower
    split_ifs
    · exact hreject
    · exact hreject
    · exact .accept (edited_relocated (p := true) hmarks)
    · exact .accept (Edited.of_marks (p := true) hmarks)
  split
  · rename_i i hi
    have hlegal := legalMod_of_canSwitch (stateAt_lastNucleusWhere hi)
    exact .accept (edited_relocated (p := true) (marks_setVowelMod hlegal.towlower))
  split
  · exact .accept (edited_escapeTo_of_marks
      ((marks_undoHornU _ _).trans (marks_clearMod _ _)) hnul)
  · exact hreject

omit [WideCType] in
theorem legal_horn_of_base {ss : List CharState} {i : Nat}
    (h : (stateAt ss i).base = L 'u' ∨ (stateAt ss i).base = L 'o') :
    LegalMod (stateAt ss i).base .horn := by
  rcases h with h | h <;> rw [h] <;> decide

theorem handled_vniHornUO {r : TypingEngine × Bool} (hnul : key = 0 → hz.nul)
    (h : e.vniHornUO key = some r) : Handled hz key e r := by
  unfold vniHornUO at h
  split at h
  · rename_i u o hu ho
    have hlegalU : LegalMod (stateAt e.states u).base .horn :=
      legal_horn_of_base (.inl (by simpa using stateAt_lastNucleusWhere hu))
    have hlegalO : LegalMod (stateAt e.states o).base .horn :=
      legal_horn_of_base (.inr (by simpa using stateAt_lastNucleusWhere ho))
    dsimp only at h
    split_ifs at h
    · obtain rfl := Option.some.inj h
      exact .accept (edited_relocated (p := true) (marks_setMod hlegalO))
    · obtain rfl := Option.some.inj h
      exact .accept (edited_relocated (p := true)
        ((marks_setMod hlegalU).trans (marks_setMod (by simpa using hlegalO))))
    · obtain rfl := Option.some.inj h
      exact .accept (edited_relocated (p := true) (marks_setMod hlegalO))
    · obtain rfl := Option.some.inj h
      exact .accept (edited_relocated (p := true) (marks_setMod hlegalU))
    · obtain rfl := Option.some.inj h
      exact .accept (edited_escapeTo_of_marks
        ((marks_clearMod _ _).trans (marks_clearMod _ _)) hnul)
  · simp at h

theorem handled_vniHornUU {r : TypingEngine × Bool} (hnul : key = 0 → hz.nul)
    (h : e.vniHornUU key = some r) : Handled hz key e r := by
  unfold vniHornUU at h
  dsimp only at h
  split at h
  · rename_i firstU lastU hfirst _
    have hu := (scanUp_eq_some hfirst).2
    simp only [Bool.and_eq_true, beq_iff_eq] at hu
    split_ifs at h
    · obtain rfl := Option.some.inj h
      exact .accept (edited_relocated (p := true)
        (marks_setMod (legal_horn_of_base (.inl hu.1.1))))
    · obtain rfl := Option.some.inj h
      exact .accept (edited_escapeTo_of_marks (marks_clearMod _ _) hnul)
  · simp at h

theorem handled_handleVniHorn (hnul : key = 0 → hz.nul) :
    Handled hz key e (e.handleVniHorn key) := by
  unfold handleVniHorn
  cases hcase : (e.vniHornUO key <|> e.vniHornUU key) with
  | none => exact handled_processVniVowelModifier hnul
  | some r =>
      simp only [Option.orElse_eq_orElse, Option.orElse_eq_or, Option.or_eq_some_iff] at hcase
      rcases hcase with h | ⟨-, h⟩
      · exact handled_vniHornUO hnul h
      · exact handled_vniHornUU hnul h

/-! ## User-defined actions -/

/-- Taking an inserted letter back does not lengthen the buffer. -/
theorem length_insertLetter_of_takesInsertBack {base : WChar} {mod : Modifier}
    (h : e.takesInsertBack base mod key = true) (isUpper : Bool) (kind : EscapeKind) :
    (e.insertLetter base mod isUpper kind key).1.states.length ≤ e.states.length := by
  have hnil : e.states ≠ [] := by
    intro hnil
    simp [takesInsertBack, hnil] at h
  have hpos := List.length_pos_iff.mpr hnil
  unfold insertLetter
  rw [if_pos h]
  dsimp only [processKeyChar, processChar, pushState]
  have hlen : ((e.withStates e.states.dropLast).eraseConsumedRaw
      e.lastState.rawIdx).states.length = e.states.length - 1 := by
    unfold eraseConsumedRaw
    split_ifs <;> simp [withStates]
  simp only [List.length_append, hlen, List.length_singleton]
  omega

theorem handled_handleHornOrInsertU {action : TypingAction} (hbeyond : hz.beyondVni)
    (hnul : key = 0 → hz.nul)
    (hhorn : movesTone (e.hornEffect key) = true → hz.hornTone)
    (hlost : e.takesInsertBack (L 'u') .horn key = true →
      (e.states.dropLast.any fun s => s.toneRawIdx == some e.lastState.rawIdx) = true →
      hz.lostKey) :
    Handled hz key e (e.handleHornOrInsertU action key) := by
  have hhorned := handled_handleHornW hbeyond hnul hhorn
  have hreject : ∀ c, e.handleHornW key = (c, false) → c = e := by
    intro c hc
    unfold handleHornW at hc
    split at hc <;> simp_all
  unfold handleHornOrInsertU
  dsimp only
  split
  · exact .reject (.refl e)
  split
  · exact hhorned
  rename_i hconsumed
  have hsame : (e.handleHornW key).1 = e := hreject _ (Prod.ext rfl (by simpa using hconsumed))
  rw [hsame]
  split
  · exact .reject (.refl e)
  have hinsert : Handled hz key e (e.handleHornInsert .hornInsertU key) :=
    handled_handleHornInsert hbeyond hnul hlost
  split
  · rename_i hpushed
    unfold handleHornInsert at hpushed ⊢
    split at hpushed
    · simp at hpushed
    · rename_i hmethod
      have hback : ¬ e.takesInsertBack (L 'u') .horn key = true := fun hback =>
        absurd hpushed.2 (not_lt.mpr (length_insertLetter_of_takesInsertBack hback _ _))
      have hlegal : LegalMod (L 'u') .horn := by decide
      have hne : L 'u' ≠ 0 := by decide
      have hlower : towlower (L 'u') = L 'u' := WideCType.towlower_ascii _ (by decide)
      rw [if_neg hmethod]
      simp only [reduceCtorEq, if_false, insertLetter, if_neg hback, pushState,
        modify_last_append]
      exact .accept (Edited.of_edits (.single (.append
        ⟨rfl, rfl, hlower, hlegal, fun h => absurd h hne⟩ (nextRawIdx_eq e) (.inr hbeyond))))
  · exact hinsert

theorem handled_handleUndoAllMarks (hbeyond : hz.beyondVni) :
    Handled hz key e e.handleUndoAllMarks := by
  unfold handleUndoAllMarks
  split
  · exact ⟨true, rfl, rfl, rfl, .single (.clearMarks hbeyond)⟩
  · exact .reject (.refl e)

/-! ## Dispatch -/

/-- The hazards of a modifier key that has passed its gates. -/
structure ModifierHazards (hz : Hazards) (key : WChar) (e : TypingEngine) (action : TypingAction) :
    Prop where
  beyond : action.isVniModifierAction = true ∨ hz.beyondVni
  nul : key = 0 → hz.nul
  foreign : action = .circumflexE → e.isLiteralUse = true →
    actionToTone (methodAction e.config (towlower (e.rawInput.getD 1 0))) ≠ .acute → hz.foreignTone
  second : action = .circumflexE → e.isLiteralUse = true →
    (stateAt e.states 0).hasTone = true → hz.secondTone
  horn : isHornAction action = true → movesTone (e.hornEffect key) = true → hz.hornTone
  lost : ∀ letter, insertedBy action = some letter →
    e.takesInsertBack letter.1 letter.2 key = true →
    (e.states.dropLast.any fun s => s.toneRawIdx == some e.lastState.rawIdx) = true → hz.lostKey

/-- The vowel of a circumflex key is the one its action names. -/
def CircumflexKeyNamesVowel (config : TypingConfig) (key : WChar) (action : TypingAction) : Prop :=
  IsCircumflexAction action →
    (if config.inputMethod = .userDefined then actionToVowel action else towlower key) ∈
      legalBases .circumflex

theorem handled_insertAction {action : TypingAction} (h : ModifierHazards hz key e action)
    (hinserted : insertedBy action = (insertedLetter action).map fun letter =>
      (letter.1, letter.2.1)) (hbeyond : hz.beyondVni) :
    Handled hz key e (e.handleInsertChar action key) := by
  refine handled_handleInsertChar hbeyond h.nul fun base mod upper hletter => ?_
  exact h.lost (base, mod) (by rw [hinserted, hletter]; rfl)

/-- Every modifier key that passes its gates is left to be a letter or edits the buffer. -/
theorem handled_processModifier {action : TypingAction} (h : ModifierHazards hz key e action)
    (hvowel : CircumflexKeyNamesVowel e.config key action) :
    Handled hz key e (e.processModifier action key) := by
  cases action with
  | vniCircumflex | vniBreve => exact handled_processVniVowelModifier h.nul
  | vniHorn => exact handled_handleVniHorn h.nul
  | vniStroke | strokeD => exact handled_handleStrokeD h.nul
  | hornW => exact handled_handleHornW (h.beyond.resolve_left (by decide)) h.nul (h.horn rfl)
  | circumflexA | circumflexE | circumflexO =>
      exact handled_handleAdjacentCircumflex (h.beyond.resolve_left (by decide))
        (hvowel (by decide)) h.nul fun haction huse =>
          ⟨h.foreign haction huse, h.second haction huse⟩
  | hornInsertO | hornInsertU =>
      exact handled_handleHornInsert (h.beyond.resolve_left (by decide)) h.nul (h.lost _ rfl)
  | hornOrInsertU | hornOrInsertUNoStart =>
      exact handled_handleHornOrInsertU (h.beyond.resolve_left (by decide)) h.nul (h.horn rfl)
        (h.lost _ rfl)
  | undoAllMarks => exact handled_handleUndoAllMarks (h.beyond.resolve_left (by decide))
  | _ => exact handled_insertAction h rfl (h.beyond.resolve_left (by decide))

theorem edited_finishModifier {p : Bool} (e : TypingEngine) :
    Edited hz key p p e e.finishModifier := by
  unfold finishModifier
  exact (sameBuffer_setBias e _).edited.trans
    ((Edited.of_marks (marks_applyAutoUO _ _)).trans (sameBuffer_updateSpellState _).edited)

theorem handled_handleModifierAction {action : TypingAction} (lower : WChar)
    (h : (e.modifierGates action key lower).2 = true →
      ModifierHazards hz key (e.modifierGates action key lower).1 action)
    (hvowel : CircumflexKeyNamesVowel e.config key action) :
    Handled hz key e (e.handleModifierAction action key lower) := by
  have hgates := sameBuffer_modifierGates e action key lower
  unfold handleModifierAction
  generalize e.modifierGates action key lower = gated at h hgates ⊢
  dsimp only
  split
  · rename_i hpassed
    have happlied := handled_processModifier (h hpassed) (hgates.config_eq ▸ hvowel)
    generalize gated.1.processModifier action key = applied at happlied ⊢
    split
    · rename_i hconsumed
      obtain ⟨p', hedit⟩ := happlied.edited hconsumed
      exact .accept ((hgates.edited.trans hedit).trans (edited_finishModifier _))
    · exact .after hgates happlied
  · rename_i hblocked
    have hpair : gated = (gated.1, false) := Prod.ext rfl (by simpa using hblocked)
    rw [hpair]
    exact .reject hgates

/-- Outside the user-defined method a circumflex key is the vowel itself. -/
theorem circumflexKeyNamesVowel (config : TypingConfig) (key : WChar) :
    CircumflexKeyNamesVowel config key (methodAction config (towlower key)) := by
  intro haction
  split
  · rcases haction with h | h | h <;> rw [h] <;> decide
  · rename_i hmethod
    rw [methodAction_eq_classifyKey hmethod] at haction
    exact classifyKey_circumflex haction

end Modifier

end TypingEngine

end VKey
