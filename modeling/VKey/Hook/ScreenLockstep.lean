import VKey.Hook.CommitUndoCaret

/-!
# The hook and the screen in lockstep

While the hook has a word, the host has the text before the word and behind it the composition in
the code table.  A key that restores the raw keys puts them in place of the word, and no key deletes
text before the word.
-/

namespace VKey

namespace HookEngine

namespace State

variable {E : Type} [InputEngine E] [WideCType] {config : Config} {s b : State E} {pre : List WChar}
  {key : Key}

/-! ## The restore stage -/

/-- The restore stage consumes the key. -/
def isRestored [AsciiCType] [WordBreaks] (config : Config) (key : Key) (s : State E) : Bool :=
  let undoStage := (s.beforeStages config key).handleCommitUndoFsm config key
  let macroStage := undoStage.1.handleMacro config key
  !isTopGuarded key.vkCode && undoStage.2 == .fallthrough && macroStage.2 == .fallthrough &&
    (macroStage.1.tryEscRestore config key).2

/-- The state differs from another in the undo window only, and not even there while it is
primed. -/
def MovesUndo (b r : State E) : Prop :=
  ∃ commitState, r = { b with commitState } ∧
    (commitState.state = .primed → commitState = b.commitState)

omit [InputEngine E] [WideCType] in
theorem MovesUndo.refl (b : State E) : MovesUndo b b := ⟨b.commitState, rfl, fun _ => rfl⟩

omit [InputEngine E] [WideCType] in
theorem MovesUndo.of_not_primed {commitState : CommitState} (h : commitState.state ≠ .primed) :
    MovesUndo b { b with commitState } := ⟨commitState, rfl, fun hprimed => absurd hprimed h⟩

omit [WideCType] in
theorem movesUndo_handleReadyGap (key : Key) (s : State E) :
    MovesUndo s (s.handleReadyGap key) := by
  unfold handleReadyGap
  split_ifs with hready
  · exact .refl s
  · exact .of_not_primed nofun
  · have hstate : s.commitState.state = .ready := not_not.mp hready
    dsimp only
    split
    · exact .of_not_primed (by rw [CommitState.incrementPendingTriggers, hstate]; nofun)
    · exact .of_not_primed nofun
    · exact .of_not_primed nofun

theorem movesUndo_handlePrimed (key : Key) (s : State E)
    (hfall : (s.handlePrimed config key).2 = .fallthrough) :
    MovesUndo s (s.handlePrimed config key).1 := by
  revert hfall
  unfold handlePrimed
  cases s.primedAction config key with
  | replayAlpha =>
      dsimp only
      split_ifs
      · exact fun hfall => absurd hfall (outcome_handleAlphaKey key _)
      · exact nofun
  | replayDigit =>
      dsimp only
      split_ifs <;> exact nofun
  | replayBackspace =>
      dsimp only
      split_ifs <;> exact nofun
  | dropTop => exact fun _ => .of_not_primed nofun
  | exempt => exact fun _ => .refl s
  | trigger action =>
      cases action with
      | cancel => exact fun _ => .of_not_primed nofun
      | idle => exact fun _ => .of_not_primed nofun
      | reEnterReady =>
          dsimp only
          unfold passOrReplace
          split_ifs <;> exact nofun

/-- A key that commit-undo lets fall through has moved the undo window at most. -/
theorem movesUndo_handleCommitUndoFsm (config : Config) (key : Key) (s : State E)
    (hfall : (s.handleCommitUndoFsm config key).2 = .fallthrough) :
    MovesUndo (s.beforeFsm key) (s.handleCommitUndoFsm config key).1 := by
  by_cases hprimed : (s.beforeFsm key).commitState.state = .primed ∧ (s.beforeFsm key).count = 0
  · rw [handleCommitUndoFsm_primed hprimed.1 hprimed.2] at hfall ⊢
    exact movesUndo_handlePrimed key _ hfall
  revert hfall
  unfold handleCommitUndoFsm
  dsimp only
  generalize s.beforeFsm key = b at hprimed
  split_ifs
  · unfold State.handleReadyBackspace passOrReplace
    split_ifs <;> exact nofun
  · exact fun _ => movesUndo_handleReadyGap key b

/-! ## What the restore stage leaves -/

/-- A key that the restore stage consumes puts the raw keys in place of a text before the caret: the
word of the engine, or the last committed word. -/
theorem press_of_isRestored [AsciiCType] [WordBreaks] (hoff : config.macroEnabled = false)
    (h : s.isRestored config key = true) :
    (s.count ≠ 0 ∧ (s.press config key).host =
      s.host.replace s.count (InputEngine.peekRaw s.engine)) ∨
    ∃ top rest, s.count = 0 ∧
      ((s.beforeStages config key).beforeFsm key).commitState.state = .primed ∧
      ((s.beforeStages config key).beforeFsm key).commitState.stack = top :: rest ∧
      (s.press config key).host = s.host.replace
        (if config.currentCodeTable ≠ .unicode then top.widths.sum else top.text.length)
        top.rawInput := by
  have hbegins := begins hoff key s
  unfold isRestored at h
  simp only [Bool.and_eq_true, Bool.not_eq_true', beq_iff_eq] at h
  obtain ⟨⟨⟨hguarded, hfall⟩, hmacro⟩, hrestored⟩ := h
  have hmoves := movesUndo_handleCommitUndoFsm config key (s.beforeStages config key) hfall
  unfold press
  rw [processKeyDown_eq hguarded]
  generalize (s.beforeStages config key).handleCommitUndoFsm config key = undoStage at *
  generalize (s.beforeStages config key).beforeFsm key = b at *
  obtain ⟨commitState, hstage, hsame⟩ := hmoves
  have hundo : undoStage.1.macroUndo = none := by
    rw [hstage]
    exact hbegins.macroUndo
  have hlate : continueStages config key undoStage =
      ((undoStage.1.tryEscRestore config key).1, .eat) := by
    rw [handleMacro_off hoff hundo] at hrestored
    rw [continueStages, if_neg (not_not_intro hfall)]
    unfold State.lateStages
    rw [handleMacro_off hoff hundo]
    dsimp only at hrestored ⊢
    rw [if_neg (by simp), if_pos hrestored]
  rw [handleMacro_off hoff hundo] at hrestored
  dsimp only at hrestored
  rw [hlate, deliver_eat]
  have hcases := restored_tryEscRestore config key undoStage.1
  generalize undoStage.1.tryEscRestore config key = r at hcases hrestored
  rw [hstage] at hcases
  have hzero : State.count { b with commitState } = s.count := hbegins.text.count
  cases hcases with
  | none => cases hrestored
  | expired => cases hrestored
  | word s' hcancels hcount hraw hcount' hcommit hprevious hwidths hhost =>
      refine Or.inl ⟨hzero ▸ hcount, ?_⟩
      rw [hhost, hzero]
      dsimp only
      rw [hbegins.text.host, hbegins.text.engine]
  | entry s' top rest hcancels hcount hprimed hstack hcount' hcommit hprevious hwidths hhost =>
      obtain rfl := hsame hprimed
      refine Or.inr ⟨top, rest, hzero.symm.trans hcount, hprimed, hstack, ?_⟩
      rw [hhost]
      dsimp only
      rw [hbegins.text.host]

/-! ## Keys that delete nothing before the word -/

/-- The letter keys, the digit keys, the brackets and Backspace, and the keys that restore the raw
keys of a word and delete nothing on their own. -/
def IsTypingKey (config : Config) (key : Key) : Prop :=
  (key.shortcut = false ∧ (isAlphaVk key.vkCode = true ∨ isDigitVk key.vkCode = true ∨
    key.vkCode = vkOem4 ∨ key.vkCode = vkOem6 ∨ key.vkCode = vkBack)) ∨
  (cancelsComposition config key = true ∧
    ∀ host : CaretText WChar, host.before <+: (key.press host).before)

omit [InputEngine E] in
/-- A typing key other than Backspace deletes nothing. -/
theorem IsTypingKey.prefix_press (h : IsTypingKey config key) :
    (key.shortcut = false ∧ key.vkCode = vkBack) ∨
      ∀ host : CaretText WChar, host.before <+: (key.press host).before := by
  rcases h with ⟨hshortcut, hkind⟩ | ⟨-, hpress⟩
  · by_cases hback : key.vkCode = vkBack
    · exact Or.inl ⟨hshortcut, hback⟩
    · refine Or.inr fun host => ?_
      have htypes : typesCharacter key.vkCode = true := by
        rcases hkind with h | h | h | h | h
        · simp [typesCharacter, h]
        · simp [typesCharacter, h]
        · rw [h]
          decide
        · rw [h]
          decide
        · exact absurd h hback
      rw [Key.press_of_typesCharacter hshortcut htypes, CaretText.before_insert]
      exact List.prefix_append _ _
  · exact Or.inr hpress

/-- Backspace in a word shortens the word. -/
theorem dispatchKeyAction_back [AsciiCType] (config : Config) (hcount : s.count ≠ 0)
    (hback : key.vkCode = vkBack) (hshortcut : key.shortcut = false) :
    ∃ armed, s.dispatchKeyAction config key =
      (State.handleBackspace config { s with digitLedWord := armed }, .eat) := by
  have hkind : ∀ s : State E, s.count ≠ 0 →
      s.dispatchByKind config key = (s.handleBackspace config, .eat) := by
    intro s hcount
    have hbracket : telexBracket config key = none := by
      rw [telexBracket, if_neg]
      rintro ⟨-, hbracket | hbracket⟩ <;> exact absurd (hback.symm.trans hbracket) (by decide)
    have hbound : boundOemKey config key (s.count == 0) = none := by
      rw [boundOemKey, if_neg]
      rintro ⟨-, hpunct, -⟩
      rw [hback] at hpunct
      exact absurd hpunct (by decide)
    unfold dispatchByKind
    rw [if_neg (by rw [hback]; decide), hbracket]
    dsimp only
    rw [if_neg, hbound]
    · dsimp only
      rw [if_pos ⟨hback, Nat.pos_of_ne_zero hcount⟩]
    · rintro ⟨-, hdigit, -⟩
      rw [hback] at hdigit
      exact absurd hdigit (by decide)
  unfold dispatchKeyAction
  rw [if_neg (by simp [hshortcut]), beq_eq_false_iff_ne.mpr hcount]
  rcases decideDigitLed_of_nonempty key.vkCode key.shift
    config.typing.inputMethod s.digitLedWord with
    h | h
  · rw [h]
    exact ⟨false, hkind { s with digitLedWord := false } hcount⟩
  · rw [h]
    exact ⟨s.digitLedWord, hkind s hcount⟩

/-- A typing key that is dispatched in a word deletes nothing before the word. -/
theorem Word.prefix_dispatchKeyAction [AsciiCType] (h : s.Word config pre) (hcount : s.count ≠ 0)
    (hkey : IsTypingKey config key) :
    pre <+: (deliver key (s.dispatchKeyAction config key)).host.before := by
  rcases hkey.prefix_press with ⟨hshortcut, hback⟩ | hpress
  · obtain ⟨armed, hdispatch⟩ := dispatchKeyAction_back config hcount hback hshortcut
    rw [hdispatch, deliver_eat]
    have harmed : State.Word config pre { s with digitLedWord := armed } :=
      ⟨h.shows, h.previous, h.empty, h.widths⟩
    exact (harmed.handleBackspace hcount).prefix_before
  · have hdispatched : Dispatched config pre key s (deliver key (s.dispatchKeyAction config key)) :=
      .dispatchKeyAction h fun hzero => absurd hzero hcount
    generalize deliver key (s.dispatchKeyAction config key) = s' at hdispatched
    cases hdispatched with
    | typed hword hundo => exact hword.prefix_before
    | backedOut hbcount hcount' hword hundo => exact hword.prefix_before
    | passed hzero => exact absurd hzero hcount
    | reset hcount' hstate hstack hprevious hwidths hhost =>
        rw [hhost]
        exact h.prefix_before.trans (hpress s.host)
    | committed hshortcut hbcount hafter =>
        obtain ⟨text, host, hbefore, hhost, -⟩ := hafter.undo
        have hfront : pre <+: host.before := by
          rw [hbefore]
          exact List.prefix_append _ _
        rcases hhost with hhost | hhost
        · rw [hhost]
          exact hfront.trans (hpress host)
        · rw [hhost]
          exact hfront.trans (List.prefix_append _ _)

theorem handleCommitUndoFsm_of_count (config : Config) (key : Key)
    (hcount : (s.beforeFsm key).count ≠ 0) :
    (s.handleCommitUndoFsm config key).2 = .fallthrough := by
  unfold handleCommitUndoFsm
  dsimp only
  rw [if_neg fun hback => hcount hback.2.2, if_neg fun hprimed => hcount hprimed.2]

/-- A typing key in a word deletes nothing before the word. -/
theorem Word.prefix_press [AsciiCType] [WordBreaks] (h : s.Word config pre) (hcount : s.count ≠ 0)
    (hoff : config.macroEnabled = false) (hkey : IsTypingKey config key)
    (hunits : s.isRestored config key = true →
      (onScreen config (InputEngine.peek s.engine)).length = s.count) :
    pre <+: (s.press config key).host.before := by
  cases hguarded : isTopGuarded key.vkCode with
  | true =>
      have hhost : (s.press config key).host = s.host := by
        unfold press processKeyDown
        dsimp only
        rw [if_pos hguarded, deliver_pass, injectKey, Key.press_of_isTopGuarded hguarded]
        unfold beforeStages
        dsimp only
        split_ifs <;> rfl
      rw [hhost]
      exact h.prefix_before
  | false =>
      cases hrestored : s.isRestored config key with
      | true =>
          rcases press_of_isRestored hoff hrestored with ⟨-, hhost⟩ | ⟨top, rest, hzero, -⟩
          · rw [hhost, ← hunits hrestored, CaretText.before_replace h.before]
            exact List.prefix_append _ _
          · exact absurd hzero hcount
      | false =>
          have hbegins := begins hoff key s
          have hbcount : ((s.beforeStages config key).beforeFsm key).count ≠ 0 :=
            hbegins.text.count ▸ hcount
          have hfall := handleCommitUndoFsm_of_count config key hbcount
          have hmoves := movesUndo_handleCommitUndoFsm config key
            (s.beforeStages config key) hfall
          unfold isRestored at hrestored
          unfold press
          rw [processKeyDown_eq hguarded, continueStages, if_neg (not_not_intro hfall)]
          dsimp only at hrestored
          generalize (s.beforeStages config key).handleCommitUndoFsm config key = undoStage at *
          generalize (s.beforeStages config key).beforeFsm key = b at *
          obtain ⟨r, outcome⟩ := undoStage
          dsimp only at hfall hmoves hrestored ⊢
          obtain ⟨commitState, rfl, -⟩ := hmoves
          have htext : SameText s { b with commitState } :=
            ⟨hbegins.text.engine, hbegins.text.host, hbegins.text.previous, hbegins.text.widths⟩
          have hundo : State.macroUndo { b with commitState } = none := hbegins.macroUndo
          generalize State.mk _ _ _ _ _ _ _ _ _ _ _ = c at *
          have hstay : (c.tryEscRestore config key).2 = false := by
            rw [handleMacro_off hoff hundo] at hrestored
            simpa [hguarded, hfall] using hrestored
          unfold State.lateStages
          rw [handleMacro_off hoff hundo]
          dsimp only
          rw [if_neg (by simp), if_neg (by simp [hstay])]
          have hcases := restored_tryEscRestore config key c
          generalize c.tryEscRestore config key = restoreStage at hcases hstay
          cases hcases with
          | none =>
              exact (htext.word h).prefix_dispatchKeyAction (htext.count ▸ hcount) hkey
          | expired =>
              have hexpired : SameText s { c with commitState := c.commitState.cancel } :=
                ⟨htext.engine, htext.host, htext.previous, htext.widths⟩
              exact (hexpired.word h).prefix_dispatchKeyAction (hexpired.count ▸ hcount) hkey
          | word => cases hstay
          | entry => cases hstay

end State

/-! ## Runs -/

namespace Session

variable {E : Type} [InputEngine E] [WideCType] [AsciiCType] [WordBreaks]
  {config : Config} {key : Key} {t : Session E}

/-- The key meets what the screen relies on: a word whose raw keys are restored has as many units on
screen as characters in the engine, the shadow is empty where a punctuation key starts a word, and
the gap of a word that comes back, as it was or as its raw keys, has been counted. -/
structure Conforms (config : Config) (t : Session E) (key : Key) : Prop where
  units : t.hook.isRestored config key = true → t.hook.count ≠ 0 →
    (onScreen config (InputEngine.peek t.hook.engine)).length = t.hook.count
  clean : t.hook.count = 0 → State.startsWithPunctuation config key = true →
    t.hook.previousComposition = []
  counted : RevivesCounted config t key
  restored : t.hook.isRestored config key = true → t.hook.count = 0 →
    ∀ top ∈ t.hook.commitState.stack.head?, top.anchored = true

/-- The key puts raw keys in place of the word in the engine, or of the last committed word, and
deletes nothing before the word. -/
structure StaysInLockstep (config : Config) (t : Session E) (key : Key) : Prop where
  restored : t.hook.isRestored config key = true → t.hook.count ≠ 0 →
    (t.hook.press config key).host.before = t.preceding ++ InputEngine.peekRaw t.hook.engine
  restoredCommitted : t.hook.isRestored config key = true → t.hook.count = 0 →
    ∃ top ∈ t.hook.commitState.stack.head?, ∃ front,
      t.hook.host.before =
        front ++ CodeTableConverter.encodeString top.text config.currentCodeTable ∧
      (t.hook.press config key).host.before = front ++ top.rawInput
  kept : t.hook.count ≠ 0 → t.preceding <+: (t.hook.press config key).host.before
  revived : t.hook.replayedEntry config key ≠ none → t.hook.isReplayShown config key = true →
    t.front config key <+: (t.hook.press config key).host.before

theorem inStep_of_conforms {engine : E} {host : CaretText WChar} {keys : List Key}
    (hcount : InputEngine.count engine = 0) (hoff : config.macroEnabled = false)
    (h : Run (Meeting (Conforms config) (Step config)) (start engine host) keys t) :
    t.InStep config := by
  apply h.invariant
  · exact inStep_start hcount host
  · rintro s key s' hinstep ⟨hconforms, rfl⟩
    exact hinstep.press hoff hconforms.counted hconforms.clean

/-- The raw keys of the last committed word take its place. -/
theorem InStep.restoredCommitted (h : t.InStep config) (hoff : config.macroEnabled = false)
    (hconforms : Conforms config t key) (hrestored : t.hook.isRestored config key = true)
    (hzero : t.hook.count = 0) :
    ∃ top ∈ t.hook.commitState.stack.head?, ∃ front,
      t.hook.host.before =
        front ++ CodeTableConverter.encodeString top.text config.currentCodeTable ∧
      (t.hook.press config key).host.before = front ++ top.rawInput := by
  have hbegins := State.begins hoff key t.hook
  have hpressed := State.press_of_isRestored hoff hrestored
  generalize (t.hook.beforeStages config key).beforeFsm key = b at hbegins hpressed
  rcases hpressed with ⟨hne, -⟩ | ⟨top, rest, -, hprimed, hstack, hhost⟩
  · exact absurd hzero hne
  obtain ⟨-, hsame⟩ := hbegins.active (by rw [hprimed]; nofun)
  have hhead : top ∈ t.hook.commitState.stack.head? := by
    rw [← hsame.stack, hstack]
    rfl
  have hbzero : b.count = 0 := hbegins.text.count.trans hzero
  obtain ⟨front, hfront, -⟩ := hbegins.revived h hprimed hbzero hstack
    (hconforms.restored hrestored hzero top hhead)
  have hunits : (if config.currentCodeTable ≠ .unicode then top.widths.sum else top.text.length) =
      (onScreen config top.text).length := by
    split_ifs with htable
    · have hentries := (hbegins.inStep h).entries
      dsimp only at hentries
      rw [hstack] at hentries
      rw [hentries htable top List.mem_cons_self, length_onScreen]
    · rw [onScreen_unicode (not_not.mp htable)]
  refine ⟨top, hhead, front, hfront, ?_⟩
  rw [hhost, hunits, CaretText.before_replace hfront]

/-- In every run whose keys meet the condition, the host has the text before the word and the word
of the engine in the code table, and the next key keeps it so. -/
theorem lockstep_of_run {engine : E} {host : CaretText WChar} {keys : List Key}
    (hcount : InputEngine.count engine = 0) (hoff : config.macroEnabled = false)
    (h : Run (Meeting (Conforms config) (Step config)) (start engine host) keys t) :
    (t.hook.count ≠ 0 → t.hook.host.before = t.preceding ++
      CodeTableConverter.encodeString (InputEngine.peek t.hook.engine) config.currentCodeTable) ∧
    ∀ key, State.IsTypingKey config key → Conforms config t key → StaysInLockstep config t key := by
  have hinstep := inStep_of_conforms hcount hoff h
  refine ⟨fun _ => hinstep.word.before, fun key hkey hconforms => ?_⟩
  constructor
  · intro hrestored hne
    rcases State.press_of_isRestored hoff hrestored with ⟨-, hhost⟩ | ⟨top, rest, hzero, -⟩
    · rw [hhost, ← hconforms.units hrestored hne, CaretText.before_replace hinstep.word.before]
    · exact absurd hzero hne
  · exact hinstep.restoredCommitted hoff hconforms
  · intro hne
    exact hinstep.word.prefix_press hne hoff hkey fun hrestored => hconforms.units hrestored hne
  · intro hsome hshown
    rw [front_eq]
    exact (State.follows_press hinstep hoff hconforms.counted hconforms.clean).2 hsome hshown

end Session

/-- After `a`, Escape puts the raw key in place of the word. -/
theorem Session.lockstep_of_run_escape : ∃ t : Session TypingEngine,
    Run (Step {}) (start (TypingEngine.new {}) {}) [{ vkCode := 0x41, macroChar := L 'a' }] t ∧
      t.hook.isRestored {} { vkCode := vkEscape } = true ∧
      StaysInLockstep {} t { vkCode := vkEscape } := by
  have hrun : Run (Meeting (Conforms {}) (Step {})) (start (TypingEngine.new {}) {})
      [{ vkCode := 0x41, macroChar := L 'a' }] _ :=
    .single ⟨⟨by decide +kernel, by decide +kernel, by decide +kernel, by decide +kernel⟩, rfl⟩
  exact ⟨_, hrun.mono fun _ _ _ hstep => hstep.2, by decide +kernel,
    (lockstep_of_run rfl rfl hrun).2 _ (Or.inr ⟨by decide, fun _ => List.prefix_rfl⟩)
      ⟨by decide +kernel, by decide +kernel, by decide +kernel, by decide +kernel⟩⟩

/-- In the VNI table `á` has two units on screen, and restoring its raw keys deletes one of them. -/
theorem Session.not_lockstep_of_run :
    ¬∀ (config : Config) (host : CaretText WChar) (keys : List Key)
    (t : Session TypingEngine) (key : Key), config.macroEnabled = false →
      (∀ key ∈ keys, State.IsTypingKey config key) → State.IsTypingKey config key →
      Run (Step config) (start (TypingEngine.new config.typing) host) keys t →
      StaysInLockstep config t key := by
  intro h
  obtain ⟨t, ht⟩ : ∃ t : Session TypingEngine,
      t = [{ vkCode := 0x41, macroChar := L 'a' }, { vkCode := 0x53, macroChar := L 's' }].foldl
        (fun t key => t.press { currentCodeTable := .vniWindows } key)
        (start (TypingEngine.new {}) {}) := ⟨_, rfl⟩
  have hstays := h { currentCodeTable := .vniWindows } {}
    [{ vkCode := 0x41, macroChar := L 'a' }, { vkCode := 0x53, macroChar := L 's' }] t
    { vkCode := vkEscape } rfl
    (List.forall_mem_cons.mpr ⟨Or.inl ⟨rfl, Or.inl (by decide)⟩,
      List.forall_mem_singleton.mpr (Or.inl ⟨rfl, Or.inl (by decide)⟩)⟩)
    (Or.inr ⟨by decide, fun _ => List.prefix_rfl⟩) (ht ▸ run_foldl_press _ _ _)
  have hrestored :
    t.hook.isRestored { currentCodeTable := .vniWindows } { vkCode := vkEscape } = true := by
    rw [ht]
    decide +kernel
  have hcount : t.hook.count ≠ 0 := by
    rw [ht]
    decide +kernel
  have hraw := hstays.restored hrestored hcount
  rw [ht] at hraw
  exact absurd hraw (by decide +kernel)

end HookEngine

end VKey
