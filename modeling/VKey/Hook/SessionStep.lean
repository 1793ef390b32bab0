import VKey.Hook.Session

/-!
# One key of a session

Every key keeps the hook in step with the screen, as long as a key never brings back a word whose
gap has been lost and the shadow is empty where a punctuation key starts a word.  The macros are
off.
-/

namespace VKey

namespace HookEngine

namespace State

variable {E : Type} [InputEngine E] {config : Config} {s b s' : State E}
  {pre : List WChar} {key : Key}

/-! ## States with the same text -/

/-- The two states differ in the undo window at most. -/
structure SameText (s s' : State E) : Prop where
  engine : s'.engine = s.engine
  host : s'.host = s.host
  previous : s'.previousComposition = s.previousComposition
  widths : s'.previousEncodedWidths = s.previousEncodedWidths

omit [InputEngine E] in
theorem SameText.trans {s'' : State E} (h : SameText s s') (h' : SameText s' s'') :
    SameText s s'' :=
  ⟨h'.engine.trans h.engine, h'.host.trans h.host, h'.previous.trans h.previous,
    h'.widths.trans h.widths⟩

theorem SameText.count (h : SameText s s') : s'.count = s.count := by
  rw [State.count, h.engine, State.count]

omit [InputEngine E] in
theorem SameText.widthsFit (h : SameText s s') (hs : s.WidthsFit config) : s'.WidthsFit config := by
  intro htable
  rw [h.widths, h.previous]
  exact hs htable

theorem SameText.word (h : SameText s s') (hs : s.Word config pre) : s'.Word config pre where
  shows hcount := by
    rw [h.host, h.previous]
    exact hs.shows (h.count ▸ hcount)
  previous hcount := by
    rw [h.previous, h.engine]
    exact hs.previous (h.count ▸ hcount)
  empty hcount := by
    rw [h.host]
    exact hs.empty (h.count ▸ hcount)
  widths := h.widthsFit hs.widths

theorem gap_congr (hcount : s'.count = 0 ↔ s.count = 0)
    (hundo : SameUndo s.commitState s'.commitState) :
    s'.gap = s.gap := by
  unfold gap
  rw [hundo.state, hundo.pending, hundo.leading]
  by_cases hzero : s.count = 0
  · rw [if_neg (not_not_intro (hcount.mpr hzero)), if_neg (not_not_intro hzero)]
  · rw [if_pos (mt hcount.mp hzero), if_pos hzero]

theorem gap_of_count_ne (h : s.count ≠ 0) :
    s.gap = 1 + s.commitState.leadingTriggersForCurrentWord := if_pos h

theorem gap_of_count (h : s.count = 0) :
    s.gap = match s.commitState.state with
      | .ready => 1 + s.commitState.pendingTriggerCount
      | .primed => 0
      | .idle => 1 + s.commitState.leadingTriggersForCurrentWord := if_neg (not_not_intro h)

/-! ## What follows a key -/

section Follows

variable [WideCType]

/-- The state after a key, before the session takes the marks.  `pre` is the text before the
word. -/
structure Follows (config : Config) (key : Key) (pre : List WChar) (s s' : State E) : Prop where
  widths : s'.WidthsFit config
  word : s'.count ≠ 0 → s'.Word config pre
  ready : s'.commitState.state = .ready → s'.count = 0
  entries : EntriesFit config s'.commitState.stack
  layout : s.losesGap config key s' = false →
    LaidOut (if s'.count = 0 then s'.host.before else pre)
      (segments config s'.commitState.stack) s'.gap

theorem Follows.of_empty (hwidths : s'.WidthsFit config) (hcount : s'.count = 0)
    (hstack : s'.commitState.stack = []) : Follows config key pre s s' where
  widths := hwidths
  word hne := absurd hcount hne
  ready _ := hcount
  entries _ := by simp [hstack]
  layout _ := by
    rw [hstack, segments_nil]
    exact LaidOut.nil

theorem Follows.of_lost (hwidths : s'.WidthsFit config) (hcount : s'.count = 0)
    (hentries : EntriesFit config s'.commitState.stack) (hlost : s.losesGap config key s' = true) :
    Follows config key pre s s' where
  widths := hwidths
  word hne := absurd hcount hne
  ready _ := hcount
  entries := hentries
  layout hkept := absurd (hlost.symm.trans hkept) (by decide)

/-- A state without a word in which the words are laid out as the counters say. -/
theorem Follows.of_laidOut (hwidths : s'.WidthsFit config) (hcount : s'.count = 0)
    (hentries : EntriesFit config s'.commitState.stack)
    (hlayout : LaidOut s'.host.before (segments config s'.commitState.stack) s'.gap) :
    Follows config key pre s s' where
  widths := hwidths
  word hne := absurd hcount hne
  ready _ := hcount
  entries := hentries
  layout _ := by
    rw [if_pos hcount]
    exact hlayout

theorem Follows.of_word (hword : s'.Word config pre) (hcount : s'.count ≠ 0)
    (hstate : s'.commitState.state ≠ .ready) (hentries : EntriesFit config s'.commitState.stack)
    (hlayout : s.losesGap config key s' = false →
      LaidOut pre (segments config s'.commitState.stack)
        (1 + s'.commitState.leadingTriggersForCurrentWord)) :
    Follows config key pre s s' where
  widths := hword.widths
  word _ := hword
  ready hready := absurd hready hstate
  entries := hentries
  layout hkept := by
    rw [if_neg hcount, gap_of_count_ne hcount]
    exact hlayout hkept

/-! ### Keys that lose the gap -/

theorem losesGap_idle (hcount : s'.count = 0) (hstate : s'.commitState.state = .idle)
    (h : s'.host.before ≠ s.host.before ∨ s.count ≠ 0 ∨ s.commitState.state = .primed) :
    s.losesGap config key s' = true := by
  simp only [losesGap, Bool.or_eq_true, Bool.and_eq_true, beq_iff_eq, bne_iff_ne]
  exact Or.inl (Or.inl (Or.inl ⟨⟨hcount, hstate⟩, or_assoc.mpr h⟩))

theorem losesGap_primed (hcount : s'.count = 0) (hstate : s'.commitState.state = .primed)
    (hready : s.commitState.state ≠ .ready) (h : s'.host.before ≠ s.host.before ∨ s.count ≠ 0) :
    s.losesGap config key s' = true := by
  simp only [losesGap, Bool.or_eq_true, Bool.and_eq_true, beq_iff_eq, bne_iff_ne]
  exact Or.inl (Or.inl (Or.inr ⟨⟨⟨hcount, hstate⟩, hready⟩, h⟩))

theorem losesGap_start (hnone : s.replayedEntry config key = none)
    (hstate : s.commitState.state = .primed) (hcount : s.count = 0) (hcount' : s'.count ≠ 0) :
    s.losesGap config key s' = true := by
  simp only [losesGap, Bool.or_eq_true, Bool.and_eq_true, beq_iff_eq, bne_iff_ne, hnone,
    Option.isNone_none]
  exact Or.inl (Or.inr ⟨⟨⟨trivial, hstate⟩, hcount⟩, hcount'⟩)

theorem losesGap_full (hstate : s.commitState.state = .ready)
    (hstate' : s'.commitState.state = .ready) (hfull : 0xFF ≤ s.commitState.pendingTriggerCount)
    (hpending : s'.commitState.pendingTriggerCount = s.commitState.pendingTriggerCount)
    (hchanged : s'.host.before ≠ s.host.before) : s.losesGap config key s' = true := by
  simp only [losesGap, Bool.or_eq_true, Bool.and_eq_true, beq_iff_eq, bne_iff_ne, decide_eq_true_eq]
  exact Or.inr ⟨⟨⟨⟨hstate, hstate'⟩, hfull⟩, hpending⟩, hchanged⟩

/-! ### The dispatch -/

/-- The dispatch finds the hook in state `b`: the text is as it was before the key, and the
committed words are laid out in front of the caret, unless the key has just been refused right
behind a primed word. -/
structure Enters (config : Config) (pre : List WChar) (s b : State E) : Prop where
  text : SameText s b
  notReady : b.commitState.state ≠ .ready
  primed : b.commitState.state = .primed → s.commitState.state = .primed
  ready : s.count ≠ 0 → s.commitState.state ≠ .ready
  entries : EntriesFit config b.commitState.stack
  layout : (s.commitState.state = .primed ∧ s.count = 0 ∧ b.commitState.state = .idle) ∨
    LaidOut pre (segments config b.commitState.stack) b.gap

/-- A key without a word: it has left the text alone, or the gap is lost. -/
theorem Enters.follows_empty (h : Enters config pre s b) (hs : s.Word config pre)
    (hundo : SameUndo b.commitState s'.commitState) (hcount : s'.count = 0)
    (hwidths : s'.WidthsFit config) : Follows config key pre s s' := by
  have hentries : EntriesFit config s'.commitState.stack := by
    rw [hundo.stack]
    exact h.entries
  by_cases hlost : s.losesGap config key s' = true
  · exact .of_lost hwidths hcount hentries hlost
  have hzero : s.count = 0 := by
    by_contra hne
    cases hstate : s'.commitState.state with
    | idle => exact hlost (losesGap_idle hcount hstate (Or.inr (Or.inl hne)))
    | primed => exact hlost (losesGap_primed hcount hstate (h.ready hne) (Or.inr hne))
    | ready => exact h.notReady (hundo.state.symm.trans hstate)
  have hbefore : s'.host.before = pre := by
    by_contra hne
    rw [← hs.empty hzero] at hne
    cases hstate : s'.commitState.state with
    | idle => exact hlost (losesGap_idle hcount hstate (Or.inl hne))
    | primed =>
        have hprimed := h.primed (hundo.state.symm.trans hstate)
        exact hlost (losesGap_primed hcount hstate (by rw [hprimed]; nofun) (Or.inl hne))
    | ready => exact h.notReady (hundo.state.symm.trans hstate)
  refine .of_laidOut hwidths hcount hentries ?_
  rcases h.layout with ⟨hprimed, -, hidle⟩ | hlayout
  · exact absurd (losesGap_idle hcount (hundo.state.trans hidle) (Or.inr (Or.inr hprimed))) hlost
  · have hbzero : b.count = 0 := h.text.count.trans hzero
    rw [hbefore, hundo.stack, gap_congr ⟨fun _ => hbzero, fun _ => hcount⟩ hundo]
    exact hlayout

/-- A key of the word. -/
theorem Enters.follows_word (h : Enters config pre s b)
    (hnone : s.replayedEntry config key = none) (hword : s'.Word config pre)
    (hundo : SameUndo b.commitState s'.commitState) (hcount : s'.count ≠ 0) :
    Follows config key pre s s' := by
  refine .of_word hword hcount (hundo.state ▸ h.notReady) (hundo.stack ▸ h.entries) fun hkept => ?_
  have hkept : s.losesGap config key s' ≠ true := by simp [hkept]
  rw [hundo.stack, hundo.leading]
  rcases h.layout with ⟨hprimed, hzero, -⟩ | hlayout
  · exact absurd (losesGap_start hnone hprimed hzero hcount) hkept
  by_cases hbzero : b.count = 0
  · rw [gap_of_count hbzero] at hlayout
    cases hstate : b.commitState.state with
    | idle => simpa only [hstate] using hlayout
    | ready => exact absurd hstate h.notReady
    | primed =>
        exact absurd (losesGap_start hnone (h.primed hstate) (h.text.count ▸ hbzero) hcount) hkept
  · rwa [gap_of_count_ne hbzero] at hlayout

/-- A word that has been deleted opens the undo window of the words before it. -/
theorem Enters.follows_backedOut (h : Enters config pre s b) (hbcount : b.count ≠ 0)
    (hword : s'.Word config pre) (hcount : s'.count = 0)
    (hundo : BackedOut b.commitState s'.commitState) : Follows config key pre s s' := by
  by_cases hstack : b.commitState.stack = []
  · exact .of_empty hword.widths hcount (hundo.stack.trans hstack)
  refine .of_laidOut hword.widths hcount (hundo.stack ▸ h.entries) ?_
  rcases h.layout with ⟨-, hzero, -⟩ | hlayout
  · exact absurd (h.text.count.trans hzero) hbcount
  rw [hword.empty hcount, hundo.stack, gap_of_count hcount, hundo.state hstack,
    hundo.pending hstack]
  rwa [gap_of_count_ne hbcount] at hlayout

/-- A word that has been committed stands behind the words before it. -/
theorem Enters.follows_commit (h : Enters config pre s b) (hshortcut : key.shortcut = false)
    (hbcount : b.count ≠ 0) (hafter : AfterCommit config pre key b s') :
    Follows config key pre s s' := by
  have hne : s.count ≠ 0 := h.text.count ▸ hbcount
  have hwidths : s'.WidthsFit config := by
    intro _
    rw [hafter.widths, hafter.previous, List.map_nil]
  obtain ⟨text, host, hbefore, hhost, hundo⟩ := hafter.undo
  cases hundo with
  | dropped hstate hstack => exact .of_empty hwidths hafter.count hstack
  | kept hstate hentries =>
      refine .of_lost hwidths hafter.count (hentries h.entries) ?_
      cases hs' : s'.commitState.state with
      | idle => exact losesGap_idle hafter.count hs' (Or.inr (Or.inl hne))
      | primed => exact losesGap_primed hafter.count hs' (h.ready hne) (Or.inr hne)
      | ready => exact absurd (hstate.symm.trans hs') h.notReady
  | armed entry kept htypes hstate hpending hstack hkept htext hextra hanchored hentry =>
      have hunit : ∃ unit, s'.host.before = pre ++ onScreen config text ++ [unit] := by
        rcases hhost with hhost | hhost
        · refine ⟨key.unit, ?_⟩
          rw [hhost, Key.press_of_typesCharacter hshortcut htypes, CaretText.before_insert, hbefore]
        · refine ⟨key.macroChar, ?_⟩
          rw [hhost, CaretText.before_insert, hbefore]
      obtain ⟨unit, hunit⟩ := hunit
      refine .of_laidOut hwidths hafter.count ?_ ?_
      · intro htable
        rw [hstack, List.forall_mem_cons]
        exact ⟨hentry htable, fun other hother => h.entries htable other (hkept.subset hother)⟩
      · rcases h.layout with ⟨-, hzero, -⟩ | hlayout
        · exact absurd hzero hne
        rw [gap_of_count_ne hbcount] at hlayout
        have hbelow := hlayout.of_prefix (prefix_segments hkept)
        rw [hunit, hstack, segments_cons hanchored, gap_of_count hafter.count,
          hstate, hpending, htext, hextra]
        exact (hbelow.push _).append [unit]

/-- What follows a dispatch. -/
theorem Enters.follows (h : Enters config pre s b) (hs : s.Word config pre)
    (hnone : s.replayedEntry config key = none) (hdispatched : Dispatched config pre key b s') :
    Follows config key pre s s' := by
  cases hdispatched with
  | typed hword hundo =>
      by_cases hcount : s'.count = 0
      · exact h.follows_empty hs hundo hcount hword.widths
      · exact h.follows_word hnone hword hundo hcount
  | backedOut hbcount hcount hword hundo => exact h.follows_backedOut hbcount hword hcount hundo
  | passed hbcount hcount hundo hprevious hwidths hhost =>
      have hfit : s'.WidthsFit config := by
        intro htable
        rw [hwidths, hprevious]
        exact (h.text.word hs).widths htable
      exact h.follows_empty hs hundo hcount hfit
  | reset hcount hstate hstack hprevious hwidths hhost =>
      refine .of_empty (fun _ => ?_) hcount hstack
      rw [hwidths, hprevious, List.map_nil]
  | committed hshortcut hbcount hafter => exact h.follows_commit hshortcut hbcount hafter

/-! ### The late stages -/

theorem handleMacro_off [AsciiCType] [WordBreaks] (hoff : config.macroEnabled = false)
    (hundo : s.macroUndo = none) : s.handleMacro config key = (s, .fallthrough) := by
  unfold handleMacro
  simp only [hundo, macrosOn, hoff, Bool.false_and, Bool.false_eq_true, if_false]

/-- What the restore stage does. -/
inductive Restored (config : Config) (key : Key) (s : State E) : State E × Bool → Prop
  /-- Nothing to restore. -/
  | none : Restored config key s (s, false)
  /-- The committed words are too old. -/
  | expired : Restored config key s ({ s with commitState := s.commitState.cancel }, false)
  /-- The word in the engine is replaced by its raw keys. -/
  | word (s' : State E) (hcancels : cancelsComposition config key = true) (hcount : s.count ≠ 0)
      (hraw : InputEngine.peekRaw s.engine ≠ []) (hcount' : s'.count = 0)
      (hundo : s'.commitState = s.commitState)
      (hprevious : s'.previousComposition = s.previousComposition)
      (hwidths : s'.previousEncodedWidths = s.previousEncodedWidths)
      (hhost : s'.host = s.host.replace s.count (InputEngine.peekRaw s.engine)) :
      Restored config key s (s', true)
  /-- The committed word before the caret is replaced by its raw keys. -/
  | entry (s' : State E) (top : CommitEntry) (rest : List CommitEntry)
      (hcancels : cancelsComposition config key = true) (hcount : s.count = 0)
      (hprimed : s.commitState.state = .primed) (hstack : s.commitState.stack = top :: rest)
      (hcount' : s'.count = 0) (hundo : s'.commitState = s.commitState.cancel)
      (hprevious : s'.previousComposition = s.previousComposition)
      (hwidths : s'.previousEncodedWidths = s.previousEncodedWidths)
      (hhost : s'.host = s.host.replace
        (if config.currentCodeTable ≠ .unicode then top.widths.sum else top.text.length)
          top.rawInput) :
      Restored config key s (s', true)

omit [WideCType] in
theorem restored_tryEscRestore (config : Config) (key : Key) (s : State E) :
    Restored config key s (s.tryEscRestore config key) := by
  unfold tryEscRestore
  cases hcancels : cancelsComposition config key with
  | false => exact .none
  | true =>
      rw [Bool.true_and]
      split_ifs with hactive
      · unfold tryEscRestoreRaw
        by_cases hcount : 0 < s.count
        · rw [if_pos hcount]
          dsimp only
          split_ifs with hraw
          · exact .none
          · exact .word _ hcancels (Nat.pos_iff_ne_zero.mp hcount) (by simpa using hraw)
              (count_reset s.engine) rfl rfl rfl rfl
        · rw [if_neg hcount]
          by_cases hprimed : s.commitState.state = .primed
          · rw [if_neg (not_not_intro hprimed)]
            cases hstack : s.commitState.stack with
            | nil => exact .none
            | cons top rest =>
                dsimp only
                by_cases hexpired : key.commitUndoExpired = true
                · rw [if_pos hexpired]
                  exact .expired
                rw [if_neg hexpired]
                by_cases hraw : top.rawInput.isEmpty = true
                · rw [if_pos hraw]
                  exact .none
                · rw [if_neg hraw]
                  exact .entry _ top rest hcancels (Nat.eq_zero_of_not_pos hcount) hprimed hstack
                    (Nat.eq_zero_of_not_pos hcount) rfl rfl rfl rfl
          · rw [if_pos hprimed]
            exact .none
      · exact .none

omit [WideCType] in
/-- The words that have been dropped are laid out nowhere. -/
theorem Enters.cancel (h : Enters config pre s b) :
    Enters config pre s { b with commitState := b.commitState.cancel } where
  text := ⟨h.text.engine, h.text.host, h.text.previous, h.text.widths⟩
  notReady := nofun
  primed := nofun
  ready := h.ready
  entries _ := by simp [CommitState.cancel]
  layout := Or.inr LaidOut.nil

/-- What follows the late stages. -/
theorem Enters.lateStages [AsciiCType] [WordBreaks] (h : Enters config pre s b)
    (hs : s.Word config pre) (hoff : config.macroEnabled = false) (hundo : b.macroUndo = none)
    (hnone : s.replayedEntry config key = none)
    (hclean : s.count = 0 → startsWithPunctuation config key = true → s.previousComposition = []) :
    Follows config key pre s (deliver key (b.lateStages config key)) := by
  have hdispatch : ∀ c : State E, Enters config pre s c →
      Follows config key pre s (deliver key (c.dispatchKeyAction config key)) := by
    intro c hc
    refine hc.follows hs hnone (.dispatchKeyAction (hc.text.word hs) fun hzero hstarts => ?_)
    rw [hc.text.previous]
    exact hclean (hc.text.count ▸ hzero) hstarts
  unfold State.lateStages
  rw [handleMacro_off hoff hundo]
  dsimp only
  rw [if_neg (by simp)]
  have hrestored := restored_tryEscRestore config key b
  generalize b.tryEscRestore config key = r at hrestored
  cases hrestored with
  | none => exact hdispatch b h
  | expired => exact hdispatch _ h.cancel
  | word s' hcancels hcount hraw hcount' hcommit hprevious hwidths hhost =>
      have hfit : s'.WidthsFit config := by
        intro htable
        rw [hwidths, hprevious]
        exact (h.text.word hs).widths htable
      rw [if_pos rfl, deliver_eat]
      exact h.follows_empty hs (hcommit ▸ SameUndo.refl _) hcount' hfit
  | entry s' top rest hcancels hcount hprimed hstack hcount' hcommit hprevious hwidths hhost =>
      rw [if_pos rfl, deliver_eat]
      refine .of_empty (fun htable => ?_) hcount' (by rw [hcommit]; rfl)
      rw [hwidths, hprevious]
      exact (h.text.word hs).widths htable

/-! ### Before the state machine -/

/-- What the key drops before the state machine decides: nothing, or all committed words. -/
structure Begins (key : Key) (s b : State E) : Prop where
  text : SameText s b
  macroUndo : b.macroUndo = none
  undo : (SameUndo s.commitState b.commitState ∧
      (b.commitState.state ≠ .idle → key.shortcut = false)) ∨
    (b.commitState.state = .idle ∧ b.commitState.stack = [])

omit [WideCType] in
theorem begins (hoff : config.macroEnabled = false) (key : Key) (s : State E) :
    Begins key s ((s.beforeStages config key).beforeFsm key) := by
  have hstages :
    SameText s (s.beforeStages config key) ∧ (s.beforeStages config key).macroUndo = none ∧
      (SameUndo s.commitState (s.beforeStages config key).commitState ∨
        ((s.beforeStages config key).commitState.state = .idle ∧
          (s.beforeStages config key).commitState.stack = [])) := by
    have hdropped : key.vkCode ≠ vkBack ∨ key.shortcut ∨ !config.macroEnabled ∨
        !config.macroUndoOnBackspace ∨ key.macroUndoExpired := by simp [hoff]
    unfold beforeStages
    simp only [if_pos hdropped]
    split_ifs
    · exact ⟨⟨rfl, rfl, rfl, rfl⟩, rfl, Or.inr ⟨rfl, rfl⟩⟩
    · exact ⟨⟨rfl, rfl, rfl, rfl⟩, rfl, Or.inl ⟨rfl, rfl, rfl, rfl⟩⟩
  obtain ⟨htext, hmacro, hundo⟩ := hstages
  generalize s.beforeStages config key = t at htext hmacro hundo
  unfold beforeFsm cancelStale
  split_ifs with hstale
  · exact ⟨htext.trans ⟨rfl, rfl, rfl, rfl⟩, hmacro, Or.inr ⟨rfl, rfl⟩⟩
  · refine ⟨htext.trans ⟨rfl, rfl, rfl, rfl⟩, hmacro, ?_⟩
    rcases hundo with hsame | ⟨hstate, hstack⟩
    · refine Or.inl ⟨hsame.trans ⟨rfl, rfl, rfl, rfl⟩, fun hactive => ?_⟩
      by_contra hshortcut
      refine hstale ?_
      simp only [Bool.not_eq_false] at hshortcut
      simp [isUndoStale, hshortcut, hactive]
    · exact Or.inr ⟨hstate, hstack⟩

omit [WideCType] in
/-- The hook is in step with the screen in the state in which the state machine decides. -/
theorem Begins.inStep (hbegins : Begins key s b) (h : Session.InStep config ⟨s, pre⟩) :
    Session.InStep config ⟨b, pre⟩ where
  word := hbegins.text.word h.word
  ready hready := by
    rcases hbegins.undo with ⟨hsame, -⟩ | ⟨hidle, -⟩
    · exact hbegins.text.count.trans (h.ready (hsame.state.symm.trans hready))
    · exact absurd (hidle.symm.trans hready) (by decide)
  entries := by
    rcases hbegins.undo with ⟨hsame, -⟩ | ⟨-, hstack⟩
    · exact hsame.stack ▸ h.entries
    · exact fun _ => by simp [hstack]
  layout := by
    rcases hbegins.undo with ⟨hsame, -⟩ | ⟨-, hstack⟩
    · have hlayout := h.layout
      rw [← gap_congr (by rw [hbegins.text.count]) hsame, ← hsame.stack] at hlayout
      exact hlayout
    · change LaidOut pre (segments config b.commitState.stack) b.gap
      rw [hstack, segments_nil]
      exact LaidOut.nil

omit [InputEngine E] [WideCType] in
/-- While the undo window is open, the key comes without Ctrl, Alt and Win, and nothing has been
dropped. -/
theorem Begins.active (hbegins : Begins key s b) (hactive : b.commitState.state ≠ .idle) :
    key.shortcut = false ∧ SameUndo s.commitState b.commitState := by
  rcases hbegins.undo with ⟨hsame, hshortcut⟩ | ⟨hidle, -⟩
  · exact ⟨hshortcut hactive, hsame⟩
  · exact absurd hidle hactive

omit [WideCType] in
theorem Begins.enters (hbegins : Begins key s b) (h : Session.InStep config ⟨s, pre⟩)
    (hstate : b.commitState.state ≠ .ready) : Enters config pre s b where
  text := hbegins.text
  notReady := hstate
  primed hprimed := (hbegins.active (by rw [hprimed]; nofun)).2.state.symm.trans hprimed
  ready hcount hready := hcount (h.ready hready)
  entries := (hbegins.inStep h).entries
  layout := Or.inr (hbegins.inStep h).layout

/-- A key that only moves within the gap: the text grows or shrinks with the counter. -/
theorem Begins.follows_gap (hbegins : Begins key s b) (h : Session.InStep config ⟨s, pre⟩)
    (htext : SameText { b with host := s'.host } s') (hzero : b.count = 0)
    (hstack : s'.commitState.stack = b.commitState.stack)
    (hlayout : LaidOut b.host.before (segments config b.commitState.stack) b.gap →
      LaidOut s'.host.before (segments config b.commitState.stack) s'.gap) :
    Follows config key pre s s' := by
  have hb := hbegins.inStep h
  have hfit : s'.WidthsFit config := by
    intro htable
    rw [htext.widths, htext.previous]
    exact hb.word.widths htable
  refine .of_laidOut hfit (htext.count.trans hzero) (hstack ▸ hb.entries) ?_
  rw [hstack]
  refine hlayout ?_
  rw [hb.word.empty hzero]
  exact hb.layout

/-- Backspace in the gap deletes a unit of it. -/
theorem Begins.handleReadyBackspace (hbegins : Begins key s b) (h : Session.InStep config ⟨s, pre⟩)
    (hstate : b.commitState.state = .ready) (hback : key.vkCode = vkBack) (hzero : b.count = 0) :
    Follows config key pre s (deliver key (b.handleReadyBackspace key)) := by
  obtain ⟨hshortcut, -⟩ := hbegins.active (by rw [hstate]; nofun)
  have hgap : b.gap = 1 + b.commitState.pendingTriggerCount := by rw [gap_of_count hzero, hstate]
  unfold State.handleReadyBackspace passOrReplace
  split_ifs with hpending hchannel
  · refine hbegins.follows_gap h ⟨rfl, rfl, rfl, rfl⟩ hzero rfl fun hlayout => ?_
    rw [deliver_pass, injectKey, Key.press_back hshortcut hback, gap_of_count (by exact hzero)]
    rw [hgap, Nat.add_comm] at hlayout
    dsimp only
    rw [hstate]
    simpa [Nat.add_sub_cancel' hpending] using hlayout.rdrop_one
  · refine hbegins.follows_gap h ⟨rfl, rfl, rfl, rfl⟩ hzero rfl fun hlayout => ?_
    rw [hgap, Nat.eq_zero_of_not_pos hpending] at hlayout
    rw [deliver_eat, gap_of_count (by exact hzero)]
    simpa [CaretText.replace, CaretText.insert, clearMacroBuffer] using hlayout.rdrop_one
  · refine hbegins.follows_gap h ⟨rfl, rfl, rfl, rfl⟩ hzero rfl fun hlayout => ?_
    rw [hgap, Nat.eq_zero_of_not_pos hpending] at hlayout
    rw [deliver_pass, injectKey, Key.press_back hshortcut hback, gap_of_count (by exact hzero)]
    exact hlayout.rdrop_one

/-- A space right behind the word opens the undo window again. -/
theorem Begins.reEnterReady (hbegins : Begins key s b) (h : Session.InStep config ⟨s, pre⟩)
    (hstate : b.commitState.state = .primed) (hspace : key.vkCode = vkSpace) (hzero : b.count = 0) :
    Follows config key pre s (deliver key
      (State.passOrReplace key 0 [L ' '] { b with commitState :=
        { b.commitState with pendingTriggerCount := 0, gapEndsInGlyph := false, state := .ready }
          })) := by
  obtain ⟨hshortcut, -⟩ := hbegins.active (by rw [hstate]; nofun)
  have hgap : b.gap = 0 := by rw [gap_of_count hzero, hstate]
  unfold State.passOrReplace
  split_ifs with hchannel
  · refine hbegins.follows_gap h ⟨rfl, rfl, rfl, rfl⟩ hzero rfl fun hlayout => ?_
    rw [hgap] at hlayout
    rw [deliver_eat, gap_of_count (by exact hzero)]
    simpa [CaretText.replace_zero] using hlayout.append [L ' ']
  · refine hbegins.follows_gap h ⟨rfl, rfl, rfl, rfl⟩ hzero rfl fun hlayout => ?_
    rw [hgap] at hlayout
    rw [deliver_pass, injectKey, Key.press_of_typesCharacter hshortcut (by rw [hspace]; decide),
      gap_of_count (by exact hzero)]
    simpa using hlayout.append [key.unit]

/-- The space bar is no key of the engine. -/
theorem dispatchByKind_space [AsciiCType] (hzero : b.count = 0) (hspace : key.vkCode = vkSpace) :
    b.dispatchByKind config key = (b, .pass) := by
  have hbracket : telexBracket config key = none := by
    rw [telexBracket, if_neg]
    rintro ⟨-, hbracket | hbracket⟩ <;> exact absurd (hspace.symm.trans hbracket) (by decide)
  have hbound : boundOemKey config key (b.count == 0) = none := by
    rw [boundOemKey, if_neg]
    rintro ⟨-, hpunct, -⟩
    rw [hspace] at hpunct
    exact absurd hpunct (by decide)
  unfold dispatchByKind
  rw [if_neg (by rw [hspace]; decide), hbracket]
  dsimp only
  rw [if_neg (by simp [hzero]), hbound]
  dsimp only
  rw [if_neg (by simp [hzero]), if_neg (by rw [hspace]; decide),
    if_neg (by simp [hzero]), handleOtherKey,
    if_neg (by simp [hzero]), clearNavigatedContext, if_neg (by rw [hspace]; decide)]

/-- The space bar reaches the host while there is no word. -/
theorem dispatchKeyAction_space [AsciiCType] (hzero : b.count = 0) (hspace : key.vkCode = vkSpace)
    (hshortcut : key.shortcut = false) :
    ∃ armed, b.dispatchKeyAction config key = ({ b with digitLedWord := armed }, .pass) := by
  unfold dispatchKeyAction
  rw [if_neg (by simp [hshortcut]), hspace, hzero]
  cases hled : b.digitLedWord with
  | true => exact ⟨false, rfl⟩
  | false =>
      have hcontinue : decideDigitLed vkSpace key.shift (0 == 0) config.typing.inputMethod false =
          .continue := by
        rw [decideDigitLed, if_neg (by decide), if_pos]
        simp [isDigitVk, vkSpace]
      rw [hcontinue]
      exact ⟨b.digitLedWord, dispatchByKind_space hzero hspace⟩

theorem lateStages_space [AsciiCType] [WordBreaks] (hoff : config.macroEnabled = false)
    (hundo : b.macroUndo = none) (hzero : b.count = 0) (hstate : b.commitState.state = .ready)
    (hspace : key.vkCode = vkSpace) (hshortcut : key.shortcut = false) :
    ∃ armed, b.lateStages config key = ({ b with digitLedWord := armed }, .pass) := by
  have hrestore : b.tryEscRestore config key = (b, false) := by
    rw [tryEscRestore, if_neg (by simp [hzero, hasPrimedCommit, hstate])]
  unfold State.lateStages
  rw [handleMacro_off hoff hundo]
  dsimp only
  rw [if_neg (by simp), hrestore, if_neg (by simp)]
  exact dispatchKeyAction_space hzero hspace hshortcut

/-- An extra space widens the gap, and the counter counts it, unless it is full. -/
theorem Begins.trackSpace [AsciiCType] [WordBreaks] (hbegins : Begins key s b)
    (h : Session.InStep config ⟨s, pre⟩) (hoff : config.macroEnabled = false)
    (hstate : b.commitState.state = .ready) (hspace : key.vkCode = vkSpace) (hzero : b.count = 0) :
    Follows config key pre s (deliver key
      (State.lateStages config key
        { b with commitState := b.commitState.incrementPendingTriggers })) := by
  obtain ⟨hshortcut, hsame⟩ := hbegins.active (by rw [hstate]; nofun)
  have hpress := Key.press_of_typesCharacter hshortcut (by rw [hspace]; decide) b.host
  obtain ⟨armed, hlate⟩ := lateStages_space (b := { b with
      commitState := b.commitState.incrementPendingTriggers })
    hoff hbegins.macroUndo hzero hstate hspace hshortcut
  rw [hlate, deliver_pass]
  by_cases hfull : b.commitState.pendingTriggerCount < 0xFF
  · refine hbegins.follows_gap h ⟨rfl, rfl, rfl, rfl⟩ hzero rfl fun hlayout => ?_
    have hcounted : b.commitState.incrementPendingTriggers.pendingTriggerCount =
        b.commitState.pendingTriggerCount + 1 := if_pos hfull
    rw [gap_of_count hzero, hstate] at hlayout
    rw [injectKey, hpress, gap_of_count (by exact hzero)]
    change LaidOut _ _ (match b.commitState.state with
      | .ready => 1 + b.commitState.incrementPendingTriggers.pendingTriggerCount
      | .primed => 0
      | .idle => _)
    rw [hstate, hcounted, ← Nat.add_assoc]
    exact hlayout.append [key.unit]
  · have hcounted : b.commitState.incrementPendingTriggers.pendingTriggerCount =
        b.commitState.pendingTriggerCount := if_neg hfull
    refine .of_lost (hbegins.inStep h).word.widths hzero (hbegins.inStep h).entries
      (losesGap_full (hsame.state.symm.trans hstate) hstate ?_ ?_ ?_)
    · rw [← hsame.pending]
      exact Nat.not_lt.mp hfull
    · exact hcounted.trans hsame.pending
    · rw [injectKey, hpress, CaretText.before_insert, hbegins.text.host]
      simp

omit [WideCType] in
theorem Begins.enters_cancel (hbegins : Begins key s b) (h : Session.InStep config ⟨s, pre⟩) :
    Enters config pre s { b with commitState := b.commitState.cancel } where
  text := ⟨hbegins.text.engine, hbegins.text.host, hbegins.text.previous, hbegins.text.widths⟩
  notReady := nofun
  primed := nofun
  ready hcount hready := hcount (h.ready hready)
  entries _ := by simp [CommitState.cancel]
  layout := Or.inr LaidOut.nil

omit [WideCType] in
/-- A word that starts behind the gap keeps the committed words. -/
theorem Begins.enters_startWord (hbegins : Begins key s b) (h : Session.InStep config ⟨s, pre⟩)
    (hstate : b.commitState.state = .ready) :
    Enters config pre s { b with commitState := b.commitState.startWord } where
  text := ⟨hbegins.text.engine, hbegins.text.host, hbegins.text.previous, hbegins.text.widths⟩
  notReady := nofun
  primed := nofun
  ready hcount hready := hcount (h.ready hready)
  entries := (hbegins.inStep h).entries
  layout := by
    refine Or.inr ?_
    have hzero := (hbegins.inStep h).ready hstate
    have hlayout := (hbegins.inStep h).layout
    have hgap : b.gap = 1 + b.commitState.pendingTriggerCount := by rw [gap_of_count hzero, hstate]
    have hgap' : State.gap { b with commitState := b.commitState.startWord } = b.gap :=
      (gap_of_count (by exact hzero)).trans hgap.symm
    rw [hgap']
    exact hlayout

omit [InputEngine E] [WideCType] in
theorem of_trackSpace {isTrigger gapEndsInGlyph : Bool} {ch : WChar} {pending : Nat}
    (h : decideReadyGapKey isTrigger (if isTrigger then ch else 0)
      pending gapEndsInGlyph = .trackSpace) :
    isTrigger = true ∧ ch = L ' ' := by
  cases isTrigger with
  | true =>
      refine ⟨rfl, ?_⟩
      by_contra hch
      rw [decideReadyGapKey, if_pos rfl, if_pos rfl, if_neg hch] at h
      cases h
  | false =>
      rw [decideReadyGapKey, if_neg (by decide)] at h
      split_ifs at h

/-- What follows a key in the gap that is not Backspace. -/
theorem Begins.handleReadyGap [AsciiCType] [WordBreaks] (hbegins : Begins key s b)
    (h : Session.InStep config ⟨s, pre⟩) (hoff : config.macroEnabled = false)
    (hstate : b.commitState.state = .ready) (hnone : s.replayedEntry config key = none)
    (hclean : s.count = 0 → startsWithPunctuation config key = true → s.previousComposition = []) :
    Follows config key pre s (deliver key ((b.handleReadyGap key).lateStages config key)) := by
  have hcancel := (hbegins.enters_cancel h).lateStages h.word hoff hbegins.macroUndo hnone hclean
  unfold State.handleReadyGap
  rw [if_neg (not_not_intro hstate)]
  by_cases hleaves : isCaretNavigationKey key.vkCode || key.vkCode == vkDelete
  · rw [if_pos hleaves]
    exact hcancel
  rw [if_neg hleaves]
  dsimp only
  cases hdecision : decideReadyGapKey (isCommitTrigger key.vkCode && b.count == 0)
      (if (isCommitTrigger key.vkCode && b.count == 0) = true then key.macroChar else 0)
      b.commitState.pendingTriggerCount b.commitState.gapEndsInGlyph with
  | trackSpace =>
      obtain ⟨htrigger, hspace⟩ := of_trackSpace hdecision
      rw [Bool.and_eq_true, beq_iff_eq] at htrigger
      exact hbegins.trackSpace h hoff hstate (key.space_iff.mp hspace) htrigger.2
  | cancel => exact hcancel
  | startWord =>
      exact (hbegins.enters_startWord h hstate).lateStages h.word hoff
        hbegins.macroUndo hnone hclean

/-! ### Right behind a primed word -/

omit [WideCType] in
/-- A key refused right behind a primed word is dispatched, and the gap is lost. -/
theorem Begins.enters_idle (hbegins : Begins key s b) (h : Session.InStep config ⟨s, pre⟩)
    (hstate : b.commitState.state = .primed) (hzero : b.count = 0) {stack : List CommitEntry}
    (hstack : stack ⊆ b.commitState.stack) :
    Enters config pre s
      { b with commitState := { b.commitState with stack, state := .idle } } where
  text := ⟨hbegins.text.engine, hbegins.text.host, hbegins.text.previous, hbegins.text.widths⟩
  notReady := nofun
  primed := nofun
  ready hcount hready := hcount (h.ready hready)
  entries := (hbegins.inStep h).entries.of_subset hstack
  layout := Or.inl ⟨(hbegins.active (by rw [hstate]; nofun)).2.state.symm.trans hstate,
    hbegins.text.count.symm.trans hzero, rfl⟩

end Follows

end State

end HookEngine

end VKey
