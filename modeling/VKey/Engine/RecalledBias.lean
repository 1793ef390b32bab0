import VKey.Engine.EnglishLatch

/-!
# A forgotten verdict

A Backspace works the language of the word out anew from its letters, so it forgets a word that a
mark has made Vietnamese.  Two engines that differ in nothing but this verdict answer the next key
with the same letters, as long as neither takes the word for English.
-/

namespace VKey

/-- Both verdicts are the same, or one knows that the word is Vietnamese. -/
def Recalls (p q : EnglishProtectionState) : Prop :=
  p = q ∨ (p.bias = .hardEnglish ∧ q.bias = .hardEnglish) ∨ q.bias = .vietnamese

/-- The verdicts do not contradict each other.  Whether nothing need be known of a Vietnamese word
is left to `plain`. -/
def Concurs (plain : Prop) (p q : EnglishProtectionState) : Prop :=
  p = q ∨ (p.bias = .hardEnglish ∧ q.bias = .hardEnglish) ∨
    (q.bias = .vietnamese ∧ (p.bias = .vietnamese ∨ p.bias = .unknown ∧ plain))

instance (p q : EnglishProtectionState) : Decidable (Recalls p q) :=
  inferInstanceAs (Decidable (_ ∨ _ ∧ _ ∨ _))

instance (plain : Prop) [Decidable plain] (p q : EnglishProtectionState) :
    Decidable (Concurs plain p q) :=
  inferInstanceAs (Decidable (_ ∨ _ ∧ _ ∨ _ ∧ (_ ∨ _ ∧ _)))

section Verdicts

variable {plain : Prop} {p q : EnglishProtectionState}

theorem Concurs.recalls (h : Concurs plain p q) : Recalls p q :=
  h.imp_right (Or.imp_right And.left)

theorem Concurs.hardEnglish (h : Concurs plain p q) :
    (q.bias = .hardEnglish) = (p.bias = .hardEnglish) := by
  rcases h with rfl | ⟨hp, hq⟩ | ⟨hq, hp | ⟨hp, -⟩⟩
  · rfl
  · rw [hp, hq]
  · rw [hp, hq]
  · rw [hp, hq]
    exact propext ⟨LanguageBias.noConfusion, LanguageBias.noConfusion⟩

theorem Concurs.beq_hardEnglish (h : Concurs plain p q) :
    (q.bias == .hardEnglish) = (p.bias == .hardEnglish) := by
  rw [Bool.eq_iff_iff, beq_iff_eq, beq_iff_eq, h.hardEnglish]

/-- Counts of tone keys matter to a soft verdict only. -/
theorem Concurs.softEnglish (h : Concurs plain p q) :
    p = q ∨ (p.bias == .softEnglish) = false ∧ (q.bias == .softEnglish) = false := by
  rcases h with h | ⟨hp, hq⟩ | ⟨hq, hp | ⟨hp, -⟩⟩
  · exact .inl h
  all_goals exact .inr (by rw [hp, hq]; decide)

end Verdicts

namespace TypingEngine

/-- The engine with another verdict. -/
def guarded (e : TypingEngine) (engProt : EnglishProtectionState) : TypingEngine :=
  { e with engProt }

/-- The engines differ in their verdicts, and these are related. -/
def Guarded (R : EnglishProtectionState → EnglishProtectionState → Prop)
    (e e' : TypingEngine) : Prop :=
  ∃ q, e' = e.guarded q ∧ R e.engProt q

/-- So do the engines that a rule returns, which consumes the key in both or in neither. -/
def GuardedResult (R : EnglishProtectionState → EnglishProtectionState → Prop)
    (r r' : TypingEngine × Bool) : Prop :=
  Guarded R r.1 r'.1 ∧ r'.2 = r.2

/-- A rule treats engines alike whose verdicts do not contradict each other. -/
def Keeps (plain : Prop) (rule : TypingEngine → TypingEngine × Bool) : Prop :=
  ∀ ⦃e e' : TypingEngine⦄, Guarded (Concurs plain) e e' →
    GuardedResult (Concurs plain) (rule e) (rule e')

section Relations

variable {R : EnglishProtectionState → EnglishProtectionState → Prop} {e e' : TypingEngine}
variable {c : Prop} [Decidable c]

theorem Guarded.mono {S : EnglishProtectionState → EnglishProtectionState → Prop}
    (h : Guarded R e e')
    (hRS : ∀ p q, R p q → S p q) : Guarded S e e' := by
  obtain ⟨q, heq, hR⟩ := h
  exact ⟨q, heq, hRS _ _ hR⟩

/-- What does not ask for the verdict leaves it alone. -/
theorem Guarded.map {f : TypingEngine → TypingEngine}
    (hf : ∀ e q, f (e.guarded q) = (f e).guarded q)
    (h : Guarded R e e') : Guarded R (f e) (f e') := by
  obtain ⟨q, rfl, hR⟩ := h
  refine ⟨q, hf e q, ?_⟩
  have hself : f e = (f e).guarded e.engProt := hf e e.engProt
  have hkept : (f e).engProt = e.engProt := by
    rw [hself]
    rfl
  rw [hkept]
  exact hR

theorem Guarded.states (h : Guarded R e e') : e'.states = e.states := by
  obtain ⟨q, rfl, -⟩ := h
  rfl

theorem Guarded.result (h : Guarded R e e') (b : Bool) : GuardedResult R (e, b) (e', b) := ⟨h, rfl⟩

theorem Guarded.ite {a a' b b' : TypingEngine} (ht : c → Guarded R a a')
    (hf : ¬c → Guarded R b b') :
    Guarded R (if c then a else b) (if c then a' else b') := by
  split
  · exact ht ‹_›
  · exact hf ‹_›

theorem GuardedResult.ite {a a' b b' : TypingEngine × Bool} (ht : c → GuardedResult R a a')
    (hf : ¬c → GuardedResult R b b') :
    GuardedResult R (if c then a else b) (if c then a' else b') := by
  split
  · exact ht ‹_›
  · exact hf ‹_›

end Relations

variable [WideCType]

/-! ## Rules that do not ask for the verdict -/

section Unguarded

variable {R : EnglishProtectionState → EnglishProtectionState → Prop} {e e' : TypingEngine}

omit [WideCType] in
theorem Guarded.eraseConsumedRaw (h : Guarded R e e') (idx : Nat) :
    Guarded R (e.eraseConsumedRaw idx) (e'.eraseConsumedRaw idx) := by
  obtain ⟨q, rfl, hR⟩ := h
  exact .ite (fun _ => ⟨q, rfl, hR⟩) fun _ => ⟨q, rfl, hR⟩

theorem Guarded.processKeyChar (h : Guarded R e e') (c : WChar) :
    Guarded R (e.processKeyChar c)
    (e'.processKeyChar c) := h.map (f := (·.processKeyChar c)) fun _ _ => rfl

omit [WideCType] in
theorem Guarded.escaped (h : Guarded R e e') (escape : EscapeKind) :
    Guarded R { e with escape }
    { e' with escape } := h.map (f := ({ · with escape })) fun _ _ => rfl

theorem Guarded.updateSpellState (h : Guarded R e e') :
    Guarded R e.updateSpellState e'.updateSpellState :=
    h.map (f := (·.updateSpellState)) fun _ _ => rfl

theorem Guarded.restoreConsumedKeyInPlace (h : Guarded R e e')
    (consumedRawIdx : Option Nat) (c : WChar) :
    Guarded R (e.restoreConsumedKeyInPlace consumedRawIdx c)
      (e'.restoreConsumedKeyInPlace consumedRawIdx c) := by
  cases consumedRawIdx with
  | none => exact h.processKeyChar c
  | some idx =>
      obtain ⟨q, rfl, hR⟩ := h
      have herased (i : Nat) :
        Guarded R (e.eraseConsumedRaw i) ((e.guarded q).eraseConsumedRaw i) :=
        Guarded.eraseConsumedRaw ⟨q, rfl, hR⟩ i
      refine .ite (fun _ => ⟨q, rfl, hR⟩) fun _ =>
        .ite (fun _ => (herased idx).processKeyChar c) fun _ => ?_
      let restored : CharState := { base := towlower c, isUpper := iswupper c, rawIdx := idx }
      exact (herased (e.rawInput.length - 1)).map
        (f := fun e => { e with
          rawInput := e.rawInput.set idx c, states :=
            insertByRawIdx e.states restored }) fun _ _ => rfl

theorem Guarded.insertLetter (h : Guarded R e e') (base : WChar) (mod : Modifier) (isUpper : Bool)
    (kind : EscapeKind) (c : WChar) :
    GuardedResult R (e.insertLetter base mod isUpper kind c)
    (e'.insertLetter base mod isUpper kind c) := by
  obtain ⟨q, rfl, hR⟩ := h
  refine .ite (fun _ => ?_) fun _ => ⟨⟨q, rfl, hR⟩, rfl⟩
  have hpopped : Guarded R (e.withStates e.states.dropLast)
      ((e.guarded q).withStates e.states.dropLast) := ⟨q, rfl, hR⟩
  exact (((hpopped.eraseConsumedRaw e.lastState.rawIdx).processKeyChar c).escaped kind).result true

end Unguarded

/-! ## Modifier keys -/

section Modifiers

variable {plain : Prop} {e e' : TypingEngine}

omit [WideCType] in
theorem Guarded.setBias {bias : LanguageBias} (h : Guarded (Concurs plain) e e')
    (hbias : bias = .hardEnglish ∨ bias = .vietnamese) :
    Guarded (Concurs plain) (e.setBias bias) (e'.setBias bias) := by
  obtain ⟨q, rfl, -⟩ := h
  refine ⟨{ q with bias }, rfl, .inr ?_⟩
  rcases hbias with rfl | rfl
  · exact .inl ⟨rfl, rfl⟩
  · exact .inr ⟨rfl, .inl rfl⟩

theorem keeps_handleHornInsert (action : TypingAction) (c : WChar) :
    Keeps plain (·.handleHornInsert action c) := by
  rintro e _ ⟨q, rfl, hR⟩
  have hinserted := fun base => Guarded.insertLetter (R := Concurs plain) (e := e)
    ⟨q, rfl, hR⟩ base .horn
    e.activeKeyUppercase .horn c
  exact .ite (fun _ => ⟨⟨q, rfl, hR⟩, rfl⟩) fun _ => hinserted _

theorem keeps_handleInsertChar (action : TypingAction) (c : WChar) :
    Keeps plain (·.handleInsertChar action c) := by
  intro e e' h
  beta_reduce
  rw [TypingEngine.handleInsertChar, TypingEngine.handleInsertChar]
  cases insertedLetter action with
  | none => exact h.result false
  | some letter => exact h.insertLetter _ _ _ _ c

theorem keeps_circumflexLast (targetBase c : WChar) :
    Keeps plain (·.circumflexLast targetBase c) := by
  rintro e _ ⟨q, rfl, hR⟩
  refine .ite (fun _ => ⟨⟨q, rfl, hR⟩, rfl⟩) fun _ => .ite (fun _ => ⟨?_, rfl⟩) fun _ =>
    .ite (fun _ => ⟨⟨q, rfl, hR⟩, rfl⟩) fun _ => .ite (fun _ => ⟨⟨q, rfl, hR⟩, rfl⟩) fun _ =>
      ⟨⟨q, rfl, hR⟩, rfl⟩
  exact .ite (fun _ => ⟨q, rfl, hR⟩) fun _ => ⟨q, rfl, hR⟩

/-- A mark across a foreign letter makes the word English in both engines. -/
theorem keeps_freeMarkPlain (i : Nat) (targetBase : WChar) :
    Keeps plain (·.freeMarkPlain i targetBase) := by
  intro e e' h
  have henglish := (h.setBias (.inl rfl)).result false
  have hrejected := h.result false
  obtain ⟨q, rfl, hR⟩ := h
  have haccepted : GuardedResult (Concurs plain) (e.relocated (setMod e.states i .circumflex), true)
      ((e.guarded q).relocated (setMod e.states i .circumflex), true) := ⟨⟨q, rfl, hR⟩, rfl⟩
  refine .ite (fun _ => .ite (fun _ => .ite (fun _ => hrejected) fun _ => haccepted) fun _ =>
      .ite (fun _ => henglish) fun _ => haccepted) fun _ => .ite (fun _ =>
        ?_) fun _ => .ite (fun _ => ?_)
        fun _ => haccepted
  · exact .ite (fun _ => haccepted) fun _ => henglish
  · exact .ite (fun _ => haccepted) fun _ => hrejected

theorem keeps_freeMark (targetBase c : WChar) : Keeps plain (·.freeMark targetBase c) := by
  intro e e' h
  have hplain := fun i => keeps_freeMarkPlain i targetBase h
  obtain ⟨q, rfl, hR⟩ := h
  have hstates : (e.guarded q).states = e.states := rfl
  simp only [TypingEngine.freeMark, hstates]
  refine .ite (fun _ => ⟨⟨q, rfl, hR⟩, rfl⟩) fun _ => ?_
  split
  · exact ⟨⟨q, rfl, hR⟩, rfl⟩
  · exact .ite (fun _ => ⟨⟨q, rfl, hR⟩, rfl⟩) fun _ => .ite (fun _ => ⟨⟨q, rfl, hR⟩, rfl⟩) fun _ =>
      .ite (fun _ => ⟨⟨q, rfl, hR⟩, rfl⟩) fun _ => .ite (fun _ => ⟨⟨q, rfl, hR⟩, rfl⟩) fun _ =>
        .ite (fun _ => hplain _) fun _ => ⟨⟨q, rfl, hR⟩, rfl⟩

theorem keeps_handleAdjacentCircumflex (action : TypingAction) (c : WChar) :
    Keeps plain (·.handleAdjacentCircumflex action c) := by
  intro e e' h
  have hlast := fun base => keeps_circumflexLast base c h
  have hfree := fun base => keeps_freeMark base c h
  obtain ⟨q, rfl, hR⟩ := h
  have huse : Guarded (Concurs plain) e.unrevertUse (e.guarded q).unrevertUse :=
    Guarded.setBias (e := e.relocated (setTone (setVowelMod (e.states.eraseIdx 1) 1
      .circumflex) 1 .acute (some 1))) ⟨q, rfl, hR⟩ (.inr rfl)
  exact .ite (fun _ => ⟨⟨q, rfl, hR⟩, rfl⟩) fun _ => .ite (fun _ => huse.result true) fun _ =>
    .ite (fun _ => hlast _) fun _ => hfree _

theorem keeps_handleHornW (c : WChar) : Keeps plain (·.handleHornW c) := by
  rintro e _ ⟨q, rfl, hR⟩
  have heffect : (e.guarded q).hornEffect c = e.hornEffect c := rfl
  beta_reduce
  rw [TypingEngine.handleHornW, TypingEngine.handleHornW, heffect]
  cases e.hornEffect c <;> exact ⟨⟨q, rfl, hR⟩, rfl⟩

theorem keeps_handleStrokeD (c : WChar) : Keeps plain (·.handleStrokeD c) := by
  rintro e _ ⟨q, rfl, hR⟩
  have hstates : (e.guarded q).states = e.states := rfl
  simp only [TypingEngine.handleStrokeD, hstates]
  refine .ite (fun _ => ⟨⟨q, rfl, hR⟩, rfl⟩) fun _ => ?_
  split
  · exact ⟨⟨q, rfl, hR⟩, rfl⟩
  · exact .ite (fun _ => ⟨⟨q, rfl, hR⟩, rfl⟩) fun _ =>
      .ite (fun _ => .ite (fun _ => ⟨⟨q, rfl, hR⟩, rfl⟩)
      fun _ => .ite (fun _ => ⟨⟨q, rfl, hR⟩, rfl⟩) fun _ => ⟨⟨q, rfl, hR⟩, rfl⟩) fun _ =>
        ⟨⟨q, rfl, hR⟩, rfl⟩

theorem keeps_processVniVowelModifier (targetMod : Modifier) (key : WChar) :
    Keeps plain (·.processVniVowelModifier targetMod key) := by
  rintro e _ ⟨q, rfl, hR⟩
  have hstates : (e.guarded q).states = e.states := rfl
  simp only [TypingEngine.processVniVowelModifier, hstates]
  split
  · exact .ite (fun _ => ⟨⟨q, rfl, hR⟩, rfl⟩) fun _ => .ite (fun _ => ⟨⟨q, rfl, hR⟩, rfl⟩) fun _ =>
      .ite (fun _ => ⟨⟨q, rfl, hR⟩, rfl⟩) fun _ => ⟨⟨q, rfl, hR⟩, rfl⟩
  · split
    · exact ⟨⟨q, rfl, hR⟩, rfl⟩
    · split <;> exact ⟨⟨q, rfl, hR⟩, rfl⟩

omit [WideCType] in
/-- A branch of the key `7` that finds its vowels does not ask for the verdict. -/
theorem guardedResult_of_map {R : EnglishProtectionState → EnglishProtectionState → Prop}
    {f : TypingEngine → Option (TypingEngine × Bool)} {q : EnglishProtectionState}
    {r : TypingEngine × Bool}
    (hf : ∀ q, f (e.guarded q) = (f e).map fun r => (r.1.guarded q, r.2)) (hr : f e = some r)
    (hR : R e.engProt q) : GuardedResult R r (r.1.guarded q, r.2) := by
  have hself : f e = (f e).map fun r => (r.1.guarded e.engProt, r.2) := hf e.engProt
  rw [hr, Option.map_some] at hself
  have hkept : r.1.engProt = e.engProt := congrArg (·.1.engProt) (Option.some.inj hself)
  exact ⟨⟨q, rfl, hkept ▸ hR⟩, rfl⟩

theorem keeps_handleVniHorn (c : WChar) : Keeps plain (·.handleVniHorn c) := by
  intro e e' h
  have hvowel := keeps_processVniVowelModifier .horn c h
  obtain ⟨q, rfl, hR⟩ := h
  have hstates (q) : (e.guarded q).states = e.states := rfl
  have huo (q) : (e.guarded q).vniHornUO c = (e.vniHornUO c).map fun r => (r.1.guarded q, r.2) := by
    simp only [vniHornUO, hstates]
    split
    · simp only [apply_ite (Option.map fun r : TypingEngine × Bool => (r.1.guarded q, r.2))]
      rfl
    · rfl
  have huu (q) : (e.guarded q).vniHornUU c = (e.vniHornUU c).map fun r => (r.1.guarded q, r.2) := by
    simp only [vniHornUU, hstates]
    split
    · simp only [apply_ite (Option.map fun r : TypingEngine × Bool => (r.1.guarded q, r.2))]
      rfl
    · rfl
  beta_reduce
  rw [TypingEngine.handleVniHorn, TypingEngine.handleVniHorn, huo, huu]
  cases hcaseUO : e.vniHornUO c with
  | some r => exact guardedResult_of_map (f := (·.vniHornUO c)) (r := r) huo hcaseUO hR
  | none =>
      cases hcaseUU : e.vniHornUU c with
      | some r => exact guardedResult_of_map (f := (·.vniHornUU c)) (r := r) huu hcaseUU hR
      | none => exact hvowel

theorem keeps_handleHornOrInsertU (action : TypingAction) (c : WChar) :
    Keeps plain (·.handleHornOrInsertU action c) := by
  intro e e' h
  have hhorned := keeps_handleHornW c h
  have hinserted := keeps_handleHornInsert .hornInsertU c hhorned.1
  have hvowel : e'.hasNonClusterVowel = e.hasNonClusterVowel := by
    obtain ⟨q, rfl, -⟩ := h
    rfl
  simp only [TypingEngine.handleHornOrInsertU, h.states, hhorned.2, hvowel,
    hinserted.2, hhorned.1.states, hinserted.1.states]
  exact .ite (fun _ => h.result false) fun _ => .ite (fun _ => hhorned) fun _ =>
    .ite (fun _ => hhorned.1.result false) fun _ => .ite
      (fun _ => (hinserted.1.map (f := (·.withStates _)) fun _ _ => rfl).result true)
        fun _ => hinserted

theorem keeps_processModifier (action : TypingAction) (c : WChar) :
    Keeps plain (·.processModifier action c) := by
  intro e e' h
  cases action with
  | hornInsertO | hornInsertU => exact keeps_handleHornInsert _ c h
  | hornW => exact keeps_handleHornW c h
  | circumflexA | circumflexE | circumflexO => exact keeps_handleAdjacentCircumflex _ c h
  | strokeD | vniStroke => exact keeps_handleStrokeD c h
  | vniCircumflex | vniBreve => exact keeps_processVniVowelModifier _ c h
  | vniHorn => exact keeps_handleVniHorn c h
  | hornOrInsertU | hornOrInsertUNoStart => exact keeps_handleHornOrInsertU _ c h
  | undoAllMarks =>
      obtain ⟨q, rfl, hR⟩ := h
      exact .ite (fun _ => ⟨⟨q, rfl, hR⟩, rfl⟩) fun _ => ⟨⟨q, rfl, hR⟩, rfl⟩
  | _ => exact keeps_handleInsertChar _ c h

omit [WideCType] in
theorem Guarded.strokePrecheck (h : Guarded (Concurs plain) e e')
    (action strokeAction : TypingAction) :
    Guarded (Concurs plain) (e.strokePrecheck action strokeAction)
    (e'.strokePrecheck action strokeAction) := by
  have henglish := h.setBias (.inl rfl)
  obtain ⟨q, rfl, hR⟩ := h
  have hbias : (e.guarded q).engProt.bias = q.bias := rfl
  simp only [TypingEngine.strokePrecheck, hbias, ne_eq, hR.hardEnglish]
  exact .ite (fun _ => henglish) fun _ => ⟨q, rfl, hR⟩

theorem Guarded.finishModifier (h : Guarded (Concurs plain) e e') :
    Guarded (Concurs plain) e.finishModifier e'.finishModifier :=
  (h.setBias (.inr rfl)).map (f := fun e => (e.withStates
    (applyAutoUO e.config.modernOrtho e.states)).updateSpellState) fun _ _ => rfl

theorem keeps_modifierGates (action : TypingAction) (keyChar lower : WChar) :
    Keeps plain (·.modifierGates action keyChar lower) := by
  intro e e' h
  have htelex := h.strokePrecheck action .strokeD
  have hvni := h.strokePrecheck action .vniStroke
  obtain ⟨q, rfl, hR⟩ := h
  refine .ite (fun _ => ⟨htelex, ?_⟩) fun _ => .ite (fun _ => ⟨hvni, ?_⟩) fun _ =>
    .ite (fun _ => ⟨⟨q, rfl, hR⟩, ?_⟩) fun _ => ⟨⟨q, rfl, hR⟩, rfl⟩
  · obtain ⟨q', heq, hR'⟩ := htelex
    have hbias : (((e.strokePrecheck action .strokeD).guarded q').engProt.bias == .hardEnglish) =
        ((e.strokePrecheck action .strokeD).engProt.bias == .hardEnglish) := hR'.beq_hardEnglish
    dsimp only
    rw [heq, hbias]
    rfl
  · obtain ⟨q', heq, hR'⟩ := hvni
    have hbias : (((e.strokePrecheck action .vniStroke).guarded q').engProt.bias == .hardEnglish) =
        ((e.strokePrecheck action .vniStroke).engProt.bias == .hardEnglish) := hR'.beq_hardEnglish
    dsimp only
    rw [heq, hbias]
    rfl
  · have hbias : ((e.guarded q).engProt.bias == .hardEnglish) = (e.engProt.bias == .hardEnglish) :=
      hR.beq_hardEnglish
    dsimp only
    rw [hbias]
    rfl

theorem keeps_handleModifierAction (action : TypingAction) (keyChar lower : WChar) :
    Keeps plain (·.handleModifierAction action keyChar lower) := by
  intro e e' h
  have hgates := keeps_modifierGates action keyChar lower h
  have happlied := keeps_processModifier action keyChar hgates.1
  simp only [TypingEngine.handleModifierAction, hgates.2, happlied.2]
  exact .ite (fun _ => .ite (fun _ => happlied.1.finishModifier.result true) fun _ => happlied)
    fun _ => hgates

end Modifiers

/-! ## Tone keys -/

section Tones

variable {plain : Prop} {e e' : TypingEngine}

theorem keeps_processTone (newTone : Tone) (keyChar : WChar) :
    Keeps plain (·.processTone newTone keyChar) := by
  rintro e _ ⟨q, rfl, hR⟩
  have htarget : (e.guarded q).toneTarget = e.toneTarget := rfl
  beta_reduce
  rw [TypingEngine.processTone, TypingEngine.processTone, htarget]
  refine .ite (fun _ => ⟨⟨q, rfl, hR⟩, rfl⟩) fun _ => ?_
  cases e.toneTarget with
  | none => exact ⟨⟨q, rfl, hR⟩, rfl⟩
  | some i =>
      have hcleared : Guarded (Concurs plain) { e with states := setTone e.states i .none none }
          { e.guarded q with states := setTone e.states i .none none } := ⟨q, rfl, hR⟩
      exact .ite (fun _ =>
        ((hcleared.restoreConsumedKeyInPlace _ keyChar).escaped .tone).result true)
        fun _ => ⟨⟨q, rfl, hR⟩, rfl⟩

theorem keeps_processClearTone : Keeps plain (·.processClearTone) := by
  rintro e _ ⟨q, rfl, hR⟩
  have htarget : (e.guarded q).toneTarget = e.toneTarget := rfl
  beta_reduce
  rw [TypingEngine.processClearTone, TypingEngine.processClearTone, htarget]
  cases e.toneTarget with
  | none => exact ⟨⟨q, rfl, hR⟩, rfl⟩
  | some i => exact .ite (fun _ => ⟨⟨q, rfl, hR⟩, rfl⟩) fun _ => ⟨⟨q, rfl, hR⟩, rfl⟩

/-- Insistence counts under a soft verdict only, and then both engines have the same. -/
theorem keeps_englishGate (requestedTone : Tone) (keyChar : WChar) (isTelexTone : Bool) :
    Keeps plain (·.englishGate requestedTone keyChar isTelexTone) := by
  intro e e' h
  have hvietnamese := (h.setBias (.inr rfl)).result false
  have henglish := (h.setBias (.inl rfl)).result true
  obtain ⟨q, rfl, hR⟩ := h
  rcases hR.softEnglish with rfl | ⟨hp, hq⟩
  · exact ⟨⟨_, rfl, .inl rfl⟩, rfl⟩
  · have hprot : (e.guarded q).engProt = q := rfl
    simp only [TypingEngine.englishGate, hprot, hp, hq, hR.hardEnglish, Bool.false_eq_true,
      if_false, Bool.false_and]
    exact .ite (fun _ => ⟨⟨q, rfl, hR⟩, rfl⟩) fun _ => .ite (fun _ => hvietnamese) fun _ =>
      .ite (fun _ => ⟨⟨q, rfl, hR⟩, rfl⟩) fun _ => .ite (fun _ => henglish) fun _ =>
        ⟨⟨q, rfl, hR⟩, rfl⟩

theorem keeps_toneGates (requestedTone : Tone) (keyChar lower : WChar) :
    Keeps plain (·.toneGates requestedTone keyChar lower) := by
  intro e e' h
  have hgate :=
    keeps_englishGate requestedTone keyChar (!(decide (L '0' ≤ lower ∧ lower ≤ L '9'))) h
  have hstop : ((e'.englishGate requestedTone keyChar
    (!(decide (L '0' ≤ lower ∧ lower ≤ L '9')))).1.stopGateRejects
      requestedTone) = ((e.englishGate requestedTone keyChar
        (!(decide (L '0' ≤ lower ∧ lower ≤ L '9')))).1.stopGateRejects requestedTone) := by
    obtain ⟨q, hq, -⟩ := hgate.1
    rw [hq]
    rfl
  obtain ⟨q, rfl, hR⟩ := h
  refine .ite (fun _ => ⟨⟨q, rfl, hR⟩, rfl⟩) fun _ => .ite (fun _ => ⟨⟨q, rfl, hR⟩, rfl⟩) fun _ =>
    .ite (fun _ => ⟨⟨q, rfl, hR⟩, rfl⟩) fun _ => ?_
  dsimp only
  rw [hgate.2, hstop]
  exact .ite (fun _ => hgate) fun _ => hgate.1.result _

theorem Guarded.finishTone (h : Guarded (Concurs plain) e e') :
    Guarded (Concurs plain) e.finishTone e'.finishTone := by
  have hvietnamese := h.setBias (.inr rfl)
  obtain ⟨q, rfl, hR⟩ := h
  have hbias :
    Guarded (Concurs plain) (if e.escape.isEscaped then e.recalcBias else e.setBias .vietnamese)
      (if e.escape.isEscaped then (e.guarded q).recalcBias else
        (e.guarded q).setBias .vietnamese) :=
    .ite (fun _ => ⟨_, rfl, .inl rfl⟩) fun _ => hvietnamese
  exact hbias.map (f := fun e => { e with
    states := applyAutoUO e.config.modernOrtho e.states }.updateSpellState) fun _ _ => rfl

theorem keeps_handleTone (requestedTone : Tone) (keyChar lower : WChar) (isUpper : Bool) :
    Keeps plain (·.handleTone requestedTone keyChar lower isUpper) := by
  intro e e' h
  have hgates := keeps_toneGates requestedTone keyChar lower h
  have happlied := keeps_processTone requestedTone keyChar hgates.1
  simp only [TypingEngine.handleTone, hgates.2, happlied.2]
  refine .ite (fun _ => ?_) fun _ => .ite (fun _ => happlied.1.finishTone.result true) fun _ =>
    hgates.1.result false
  exact (hgates.1.map (f := fun e => (e.processChar lower isUpper).updateSpellState)
    fun _ _ => rfl).result true

theorem keeps_applyToneRule (action : TypingAction) (keyChar lower : WChar) (isUpper : Bool) :
    Keeps plain (·.applyToneRule action keyChar lower isUpper) := by
  intro e e' h
  have htoned := fun tone => keeps_handleTone tone keyChar lower isUpper h
  have hcleared := keeps_processClearTone h
  have hsame := h.result false
  obtain ⟨q, rfl, hR⟩ := h
  refine .ite (fun _ => hsame) fun _ => .ite (fun _ => hsame) fun _ => .ite (fun _ => ?_) fun _ =>
    .ite (fun _ => hsame) fun _ => htoned _
  refine .ite (fun _ => ⟨⟨q, rfl, hR⟩, rfl⟩) fun _ => ?_
  dsimp only
  rw [hcleared.2]
  exact .ite (fun _ => hcleared.1.updateSpellState.result true) fun _ => hsame

theorem keeps_handleQuickEndConsonant (lower : WChar) :
    Keeps plain (·.handleQuickEndConsonant lower) := by
  rintro e _ ⟨q, rfl, hR⟩
  refine .ite (fun _ => ?_) fun _ => ⟨⟨q, rfl, hR⟩, rfl⟩
  cases quickEndLetters lower <;> exact ⟨⟨q, rfl, hR⟩, rfl⟩

theorem keeps_dispatchPostClassify (action : TypingAction) (keyChar lower : WChar)
    (isUpper : Bool) : Keeps plain (·.dispatchPostClassify action keyChar lower isUpper) := by
  intro e e' h
  have htoned := keeps_applyToneRule action keyChar lower isUpper h
  have hmodified := keeps_handleModifierAction action keyChar lower htoned.1
  simp only [TypingEngine.dispatchPostClassify, htoned.2, hmodified.2]
  exact .ite (fun _ => htoned) fun _ => .ite (fun _ => hmodified) fun _ =>
    keeps_handleQuickEndConsonant lower hmodified.1

end Tones

/-! ## Finishing a letter -/

section Finish

variable {plain : Prop} {e e' : TypingEngine}

/-- The verdicts, one of which may be forgotten, agree on whether the word is English for sure. -/
def Agrees (p q : EnglishProtectionState) : Prop :=
  Recalls p q ∧ (q.bias == .hardEnglish) = (p.bias == .hardEnglish)

omit [WideCType] in
theorem Guarded.agrees (h : Guarded (Concurs plain) e e') : Guarded Agrees e e' :=
  h.mono fun _ _ hR => ⟨hR.recalls, hR.beq_hardEnglish⟩

theorem Guarded.revertSyntheticStart (h : Guarded Agrees e e') :
    Guarded Agrees e.revertSyntheticStart e'.revertSyntheticStart := by
  obtain ⟨q, rfl, hR⟩ := h
  have hstart : (e.guarded q).hasSyntheticEnglishStart = e.hasSyntheticEnglishStart := by
    have hbias : ((e.guarded q).engProt.bias == .hardEnglish) = (e.engProt.bias == .hardEnglish) :=
      hR.2
    simp only [hasSyntheticEnglishStart, bne, hbias]
    rfl
  rw [TypingEngine.revertSyntheticStart, TypingEngine.revertSyntheticStart, hstart]
  refine .ite (fun _ => ?_) fun _ => ⟨q, rfl, hR⟩
  exact ⟨{ q with bias := .hardEnglish }, rfl, .inr (.inl ⟨rfl, rfl⟩), rfl⟩

theorem Guarded.revertTonedUse (h : Guarded Agrees e e') :
    Guarded Agrees e.revertTonedUse e'.revertTonedUse := by
  obtain ⟨q, rfl, hR⟩ := h
  have huse : (e.guarded q).hasTonedUse = e.hasTonedUse := by
    have hbias : ((e.guarded q).engProt.bias == .hardEnglish) = (e.engProt.bias == .hardEnglish) :=
      hR.2
    simp only [hasTonedUse, bne, hbias]
    rfl
  rw [TypingEngine.revertTonedUse, TypingEngine.revertTonedUse, huse]
  refine .ite (fun _ => ?_) fun _ => ⟨q, rfl, hR⟩
  exact ⟨{ q with bias := .hardEnglish }, rfl, .inr (.inl ⟨rfl, rfl⟩), rfl⟩

omit [WideCType] in
/-- The letters `w z j f` do not make a Vietnamese word English. -/
theorem Guarded.checkInitialBias (h : Guarded Recalls e e') :
    Guarded Recalls e.checkInitialBias e'.checkInitialBias := by
  obtain ⟨q, rfl, hR⟩ := h
  refine .ite (fun _ => ⟨_, rfl, ?_⟩) fun _ => ⟨q, rfl, hR⟩
  change Recalls (checkZwjfInitialBias e.states e.config e.engProt)
    (checkZwjfInitialBias e.states e.config q)
  rcases hR with rfl | ⟨hp, hq⟩ | hq
  · exact .inl rfl
  · refine .inr (.inl ⟨?_, ?_⟩) <;> unfold checkZwjfInitialBias <;> dsimp only <;> split_ifs <;>
      first | assumption | rfl
  · refine .inr (.inr ?_)
    unfold checkZwjfInitialBias
    dsimp only
    split_ifs <;> assumption

theorem checkEnglishBias_vietnamese {prot : EnglishProtectionState} (h : prot.bias = .vietnamese)
    (states : List CharState) : checkEnglishBias states prot = prot := if_pos h

theorem checkEnglishBias_hardEnglish {prot : EnglishProtectionState} (h : prot.bias = .hardEnglish)
    (states : List CharState) : (checkEnglishBias states prot).bias = .hardEnglish := by
  unfold checkEnglishBias
  split_ifs <;> first | rfl | assumption | simp_all

/-- The letters `ue` are no English word. -/
theorem checkEnglishBias_ue {states : List CharState} {prot : EnglishProtectionState}
    (hunknown : prot.bias = .unknown) (hlen : states.length = 2)
    (hu : towlower (stateAt states 0).base = L 'u') :
    (checkEnglishBias states prot).bias ≠ .hardEnglish := by
  have hstart (c : WChar) : isHardEnglishStart (stateAt states 0).base c = false := by
    rw [Bool.eq_false_iff, ne_eq, isHardEnglishStart, List.contains_iff_mem, hu]
    intro hmem
    have hfirst := List.mem_map_of_mem (f := Prod.fst) hmem
    change L 'u' ∈ _ at hfirst
    revert hfirst
    decide
  have hq (c : WChar) : isQWithoutU (stateAt states 0).base c = false := by
    rw [isQWithoutU, hu]
    rfl
  have honset : hasHardEnglishOnset states = false := by
    rw [hasHardEnglishOnset, hstart, hq, Bool.or_false, Bool.and_false]
  have hfinal : hasHardEnglishFinal states = false := by
    rw [hasHardEnglishFinal, hlen]
    rfl
  have hcoda : isInvalidVietnameseCoda states = false := if_pos (by omega)
  rw [checkEnglishBias, honset, hfinal, hcoda, hunknown]
  split_ifs <;> simp_all

/-- Where the verdicts agree on what is English for sure, the marked letter is finished alike. -/
theorem Guarded.finish (h : Guarded Agrees e e') :
    Guarded Recalls e.revertSyntheticStart.revertTonedUse.checkInitialBias
      e'.revertSyntheticStart.revertTonedUse.checkInitialBias :=
  (h.revertSyntheticStart.revertTonedUse.mono fun _ _ => And.left).checkInitialBias

/-- Where one engine alone takes the word for English, neither takes a letter back. -/
theorem Guarded.finish_of_hardEnglish {q : EnglishProtectionState}
    (hsynthetic : (stateAt e.states 0).synthetic = false) (hhard : e.engProt.bias = .hardEnglish)
    (huse : (e.guarded q).hasTonedUse = false) (hvietnamese : q.bias = .vietnamese) :
    Guarded Recalls e.revertSyntheticStart.revertTonedUse.checkInitialBias
      (e.guarded q).revertSyntheticStart.revertTonedUse.checkInitialBias := by
  have hstart (prot) : (e.guarded prot).hasSyntheticEnglishStart = false := by
    have hfirst : (stateAt (e.guarded prot).states 0).synthetic = false := hsynthetic
    simp only [hasSyntheticEnglishStart, hfirst, Bool.and_false, Bool.false_and]
  have hstart' : e.hasSyntheticEnglishStart = false := hstart e.engProt
  have huse' : e.hasTonedUse = false := by
    simp only [hasTonedUse, hhard, bne_self_eq_false, Bool.and_false, Bool.false_and]
  have hkept : e.revertSyntheticStart.revertTonedUse = e := by
    rw [TypingEngine.revertSyntheticStart, hstart', if_neg Bool.false_ne_true,
      TypingEngine.revertTonedUse, huse', if_neg Bool.false_ne_true]
  have hkept' : (e.guarded q).revertSyntheticStart.revertTonedUse = e.guarded q := by
    rw [TypingEngine.revertSyntheticStart, hstart q, if_neg Bool.false_ne_true,
      TypingEngine.revertTonedUse, huse, if_neg Bool.false_ne_true]
  rw [hkept, hkept']
  exact Guarded.checkInitialBias ⟨q, rfl, .inr (.inr hvietnamese)⟩

/-- A letter is finished alike, unless the `ư` of a `w` may have to be taken back. -/
theorem Guarded.finalizeRegularChar (h : Guarded (Concurs plain) e e')
    (hplain : plain → (stateAt e.states 0).synthetic = false) :
    Guarded Recalls e.finalizeRegularChar e'.finalizeRegularChar := by
  obtain ⟨q, rfl, hR⟩ := h
  rw [finalizeRegularChar_eq, finalizeRegularChar_eq]
  have hl : (e.guarded q).lettered = e.lettered.guarded (checkEnglishBias e.lettered.states q) :=
    rfl
  have hp : e.lettered.engProt = checkEnglishBias e.lettered.states e.engProt := rfl
  rw [hl]
  rcases hR with rfl | ⟨hhard, hhard'⟩ | ⟨hvietnamese, hvietnamese' | ⟨hunknown, hplain'⟩⟩
  · exact ⟨_, rfl, .inl rfl⟩
  · refine Guarded.finish ⟨_, rfl, .inr (.inl ⟨?_, ?_⟩), ?_⟩
    · exact checkEnglishBias_hardEnglish hhard _
    · exact checkEnglishBias_hardEnglish hhard' _
    · rw [checkEnglishBias_hardEnglish hhard', hp, checkEnglishBias_hardEnglish hhard]
  · rw [checkEnglishBias_vietnamese hvietnamese]
    refine Guarded.finish ⟨q, rfl, .inr (.inr hvietnamese), ?_⟩
    rw [hvietnamese, hp, checkEnglishBias_vietnamese hvietnamese', hvietnamese']
  · rw [checkEnglishBias_vietnamese hvietnamese]
    -- the letter may tell the engine without a verdict that the word is English
    by_cases hhard : e.lettered.engProt.bias = .hardEnglish
    · refine Guarded.finish_of_hardEnglish ?_ hhard ?_ hvietnamese
      · exact (stateAt_of_map_eq (map_lettered markFree_synthetic e) 0).trans (hplain hplain')
      · rw [Bool.eq_false_iff]
        intro huse
        simp only [hasTonedUse, Bool.and_eq_true, beq_iff_eq] at huse
        obtain ⟨⟨⟨⟨⟨⟨⟨⟨⟨⟨⟨⟨-, -⟩, -⟩, hlen⟩, hu⟩, -⟩, -⟩, -⟩, -⟩, -⟩, -⟩, -⟩, -⟩ := huse
        exact checkEnglishBias_ue hunknown hlen hu hhard
    · refine Guarded.finish ⟨q, rfl, .inr (.inr hvietnamese), ?_⟩
      rw [hvietnamese, Bool.eq_iff_iff, beq_iff_eq, beq_iff_eq]
      exact ⟨LanguageBias.noConfusion, fun h => absurd h hhard⟩

end Finish

/-! ## A key -/

section Push

variable {plain : Prop} {e e' : TypingEngine} {keyChar : WChar}

omit [WideCType] in
theorem synthetic_append {states : List CharState} {s : CharState}
    (h : (stateAt states 0).synthetic = false) (hs : s.synthetic = false) :
    (stateAt (states ++ [s]) 0).synthetic = false := by
  cases states with
  | nil => exact hs
  | cons first states => exact h

theorem synthetic_undoQuickStart (h : (stateAt e.states 0).synthetic = false) :
    (stateAt (e.undoQuickStart keyChar).states 0).synthetic = false := by
  rcases undoQuickStart_cases e keyChar with ⟨hstates, -⟩ | ⟨-, hstates, -⟩
  · rw [hstates]
    exact h
  · rw [hstates]
    rfl

theorem Guarded.undoQuickStart (h : Guarded (Concurs plain) e e') (keyChar : WChar) :
    Guarded (Concurs plain) (e.undoQuickStart keyChar) (e'.undoQuickStart keyChar) := by
  obtain ⟨q, rfl, hR⟩ := h
  exact .ite (fun _ => ⟨q, rfl, hR⟩) fun _ => .ite (fun _ => ⟨q, rfl, hR⟩) fun _ => ⟨q, rfl, hR⟩

/-- Both engines expand the consonant, or neither does. -/
theorem Guarded.expandQuickConsonant (h : Guarded (Concurs plain) e e')
    (hplain : plain → (stateAt e.states 0).synthetic = false) (lower : WChar) (isUpper : Bool) :
    Option.Rel (Guarded Recalls) (e.expandQuickConsonant lower isUpper)
      (e'.expandQuickConsonant lower isUpper) := by
  obtain ⟨q, rfl, hR⟩ := h
  have hlast : (e.guarded q).lastState = e.lastState := rfl
  have htriphthong : (e.guarded q).endsInTriphthong = e.endsInTriphthong := rfl
  simp only [TypingEngine.expandQuickConsonant, hlast, htriphthong]
  split
  · cases quickReplacement e.lastState.base lower with
    | none => exact .none
    | some replacement =>
        have hletter : Guarded (Concurs plain) ((e.recordExpansion lower).processKeyChar
            (if isUpper then towupper replacement else replacement))
            (((e.guarded q).recordExpansion lower).processKeyChar
              (if isUpper then towupper replacement else replacement)) := ⟨q, rfl, hR⟩
        exact .some (hletter.finalizeRegularChar fun hp => synthetic_append (hplain hp) rfl)
  · split
    · exact .some ⟨q, rfl, hR.recalls⟩
    · exact .none

/-- Both engines consume the key, or leave it to the same rules. -/
structure QuickAlike (plain : Prop) (r r' : TypingEngine × Bool) : Prop where
  consumed : r'.2 = r.2
  recalls : Guarded Recalls r.1 r'.1
  left : r.2 = false →
    Guarded (Concurs plain) r.1 r'.1 ∧ (plain → (stateAt r.1.states 0).synthetic = false)

omit [WideCType] in
theorem QuickAlike.of_left (h : Guarded (Concurs plain) e e')
    (hplain : plain → (stateAt e.states 0).synthetic = false) :
    QuickAlike plain (e, false) (e', false) :=
  ⟨rfl, h.mono fun _ _ => Concurs.recalls, fun _ => ⟨h, hplain⟩⟩

omit [WideCType] in
theorem QuickAlike.of_consumed (h : Guarded Recalls e e') : QuickAlike plain (e, true) (e', true) :=
  ⟨rfl, h, fun hleft => Bool.noConfusion hleft⟩

theorem Guarded.expandUnlessEscaped (h : Guarded (Concurs plain) e e')
    (hplain : plain → (stateAt e.states 0).synthetic = false) (lower : WChar) (isUpper : Bool) :
    QuickAlike plain (e.expandUnlessEscaped lower isUpper)
    (e'.expandUnlessEscaped lower isUpper) := by
  have hcleared : Guarded (Concurs plain) (e.clearQuickEscape lower) (e'.clearQuickEscape lower) :=
    h.map (f := (·.clearQuickEscape lower)) fun _ _ => rfl
  have hexpanded := hcleared.expandQuickConsonant hplain lower isUpper
  have hleft :
    QuickAlike plain (e.clearQuickEscape lower, false) (e'.clearQuickEscape lower, false) :=
    .of_left hcleared hplain
  obtain ⟨q, rfl, -⟩ := h
  have hcond : (((e.guarded q).clearQuickEscape lower).config.quickConsonant &&
        !((e.guarded q).clearQuickEscape lower).states.isEmpty &&
          !(e.guarded q).isQuickEscaped lower) =
      ((e.clearQuickEscape lower).config.quickConsonant &&
        !(e.clearQuickEscape lower).states.isEmpty &&
        !e.isQuickEscaped lower) := rfl
  unfold TypingEngine.expandUnlessEscaped
  dsimp only
  rw [hcond]
  generalize (e.clearQuickEscape lower).expandQuickConsonant lower isUpper = expanded at hexpanded ⊢
  generalize ((e.guarded q).clearQuickEscape lower).expandQuickConsonant lower isUpper = expanded'
    at hexpanded ⊢
  split
  · cases hexpanded with
    | some hpair => exact .of_consumed hpair
    | none => exact hleft
  · exact hleft

/-- A quick consonant rule consumes the key in both engines, or leaves it to the same rules. -/
theorem Guarded.handleQuickStartConsonant (h : Guarded (Concurs plain) e e')
    (hplain : plain → (stateAt e.states 0).synthetic = false)
    (keyChar lower : WChar) (isUpper : Bool) :
    QuickAlike plain (e.handleQuickStartConsonant keyChar lower isUpper)
      (e'.handleQuickStartConsonant keyChar lower isUpper) := by
  have hstart : e'.quickStart lower = e.quickStart lower := by
    obtain ⟨q, rfl, -⟩ := h
    rfl
  rw [handleQuickStartConsonant_eq, handleQuickStartConsonant_eq, hstart]
  cases e.quickStart lower with
  | some letters =>
      obtain ⟨q, rfl, hR⟩ := h
      exact .of_consumed ⟨q, rfl, hR.recalls⟩
  | none =>
      exact (h.undoQuickStart keyChar).expandUnlessEscaped
        (fun hp => synthetic_undoQuickStart (hplain hp))
        lower isUpper

/-- The rules after classification leave a letter they do not consume to the buffer as it is. -/
theorem states_dispatchPostClassify (hlast : e.rawInput.getLast? = some keyChar) (isUpper : Bool)
    (hleft : (e.dispatchPostClassify (e.keyAction keyChar (towlower keyChar))
      keyChar (towlower keyChar)
      isUpper).2 = false) :
    (e.dispatchPostClassify (e.keyAction keyChar (towlower keyChar)) keyChar (towlower keyChar)
      isUpper).1.states = e.states :=
  ((handled_dispatch hlast isUpper).same hleft).states_eq

theorem Guarded.pushSettled (h : Guarded (Concurs plain) e e')
    (hplain : plain → (stateAt e.states 0).synthetic = false)
    (hlast : e.rawInput.getLast? = some keyChar) (uppercase : Bool) :
    Guarded Recalls (e.pushSettled keyChar uppercase) (e'.pushSettled keyChar uppercase) := by
  obtain ⟨hconsumed, htaken, hleft⟩ :=
    h.handleQuickStartConsonant hplain keyChar (towlower keyChar) uppercase
  have hlast' := getLast?_handleQuickStartConsonant hlast uppercase
  simp only [TypingEngine.pushSettled, hconsumed]
  generalize e.handleQuickStartConsonant keyChar (towlower keyChar) uppercase =
    quick at htaken hleft hlast' ⊢
  generalize e'.handleQuickStartConsonant keyChar (towlower keyChar) uppercase =
    quick' at htaken hleft ⊢
  refine .ite (fun _ => htaken) fun hnot => ?_
  rw [Bool.not_eq_true] at hnot
  obtain ⟨hd, hsynthetic⟩ := hleft hnot
  have haction : quick'.1.keyAction keyChar (towlower keyChar) = quick.1.keyAction keyChar
    (towlower keyChar) := by
    obtain ⟨q, hq, -⟩ := hd
    rw [hq]
    rfl
  have hdispatched :=
    keeps_dispatchPostClassify (quick.1.keyAction keyChar (towlower keyChar)) keyChar
    (towlower keyChar) uppercase hd
  beta_reduce at hdispatched
  have hstates := states_dispatchPostClassify (hlast' hnot) uppercase
  rw [haction, hdispatched.2]
  generalize quick.1.dispatchPostClassify (quick.1.keyAction keyChar (towlower keyChar)) keyChar
    (towlower keyChar) uppercase = dispatched at hdispatched hstates ⊢
  refine .ite (fun _ => hdispatched.1.mono fun _ _ => Concurs.recalls) fun hkept => ?_
  rw [Bool.not_eq_true] at hkept
  refine Guarded.finalizeRegularChar
    (hdispatched.1.map (f := (·.processChar (towlower keyChar) uppercase))
    fun _ _ => rfl) fun hp => synthetic_append ?_ rfl
  rw [hstates hkept]
  exact hsynthetic hp

theorem keeps_revertProvisionalOoTone (lower : WChar) :
    Keeps plain (·.revertProvisionalOoTone lower) := by
  rintro e _ ⟨q, rfl, hR⟩
  exact .ite (fun _ => .ite (fun _ => ⟨⟨q, rfl, hR⟩, rfl⟩) fun _ =>
    .ite (fun _ => ⟨⟨q, rfl, hR⟩, rfl⟩) fun _ => ⟨⟨q, rfl, hR⟩, rfl⟩) fun _ => ⟨⟨q, rfl, hR⟩, rfl⟩

theorem synthetic_revertProvisionalOoTone (h : (stateAt e.states 0).synthetic = false)
    (lower : WChar) :
    (stateAt (e.revertProvisionalOoTone lower).1.states 0).synthetic = false := by
  have hcleared :
    (stateAt (setTone e.states (e.states.length - 1) .none none) 0).synthetic = false :=
    (stateAt_of_map_eq (markFree_synthetic.map_setTone e.states _ .none none) 0).trans h
  unfold TypingEngine.revertProvisionalOoTone
  dsimp only
  split_ifs
  · exact hcleared
  · exact synthetic_append hcleared rfl
  · exact synthetic_append hcleared rfl
  · exact h

/-- A key makes the same letters of both engines, and the verdicts stay related. -/
theorem Guarded.pushChar (h : Guarded (Concurs plain) e e')
    (hplain : plain → (stateAt e.states 0).synthetic = false) (keyChar : WChar) :
    Guarded Recalls (e.pushChar keyChar) (e'.pushChar keyChar) := by
  have hrecorded : Guarded (Concurs plain) (e.recordKey keyChar (pushedUppercase keyChar))
      (e'.recordKey keyChar (pushedUppercase keyChar)) :=
    h.map (f := (·.recordKey keyChar (pushedUppercase keyChar))) fun _ _ => rfl
  have hsettled := keeps_revertProvisionalOoTone (towlower keyChar) hrecorded
  have hsynthetic : plain → (stateAt ((e.recordKey keyChar
      (pushedUppercase keyChar)).revertProvisionalOoTone (towlower
        keyChar)).1.states 0).synthetic = false :=
    fun hp => synthetic_revertProvisionalOoTone (e := e.recordKey keyChar (pushedUppercase keyChar))
      (hplain hp) _
  have hlast : ((e.recordKey keyChar (pushedUppercase keyChar)).revertProvisionalOoTone
      (towlower keyChar)).1.rawInput.getLast? = some keyChar := by
    rw [rawInput_revertProvisionalOoTone]
    exact List.getLast?_concat
  change Guarded Recalls (e.pushKey keyChar (pushedUppercase keyChar))
    (e'.pushKey keyChar (pushedUppercase keyChar))
  simp only [TypingEngine.pushKey, hsettled.2]
  refine .ite (fun _ => ?_) fun _ => hsettled.1.pushSettled hsynthetic hlast _
  obtain ⟨q, hq, -⟩ := hsettled.1
  rw [hq]
  exact ⟨_, rfl, .inl rfl⟩

end Push

end TypingEngine

end VKey
