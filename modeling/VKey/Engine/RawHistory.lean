import VKey.Engine.RecalledBias

/-!
# The history of all keys

Every key is appended to the history, and a Backspace that deletes a letter drops the last key,
whatever the deleted letter was made from.  Replaying the history rebuilds the word as long as each
deleted letter is the last key's own and the engine has not forgotten what the keys before it had
told.
-/

namespace VKey

variable [WideCType]

namespace TypingEngine

/-! ## The history grows by one key at a time -/

theorem pushChar_escRawHistory (e : TypingEngine) (keyChar : WChar) :
    (e.pushChar keyChar).escRawHistory = e.escRawHistory ++ [keyChar] := by
  have hpush := @pushChar_withHistory _ e e.escRawHistory keyChar
  rw [swapped_self] at hpush
  exact congrArg TypingEngine.escRawHistory hpush

theorem performAll_append (e : TypingEngine) (ops ops' : List Op) :
    e.performAll (ops ++ ops') = (e.performAll ops).performAll ops' :=
  List.foldl_append

theorem performAll_push_escRawHistory (e : TypingEngine) (keys : List WChar) :
    (e.performAll (keys.map .pushChar)).escRawHistory = e.escRawHistory ++ keys := by
  induction keys generalizing e with
  | nil => exact (List.append_nil _).symm
  | cons keyChar keys ih =>
      have hstep := ih (e.pushChar keyChar)
      rw [pushChar_escRawHistory, List.append_assoc, List.singleton_append] at hstep
      exact hstep

theorem config_perform (e : TypingEngine) (op : Op) : (e.perform op).config = e.config := by
  cases op with
  | pushChar keyChar =>
      obtain ⟨_, hpushed⟩ := pushed_pushChar e keyChar
      exact hpushed.config_eq
  | backspace => exact (backspace_cases e 0).1

theorem config_performAll (e : TypingEngine) (ops : List Op) :
    (e.performAll ops).config = e.config := by
  induction ops generalizing e with
  | nil => rfl
  | cons op ops ih => exact (ih (e.perform op)).trans (config_perform e op)

/-! ## Replaying -/

/-- A fresh engine after the keys. -/
def typed (config : TypingConfig) (keys : List WChar) : TypingEngine :=
  (new config).performAll (keys.map .pushChar)

/-- A fresh engine after the keys of the history. -/
def replayed (e : TypingEngine) : TypingEngine := typed e.config e.escRawHistory

theorem typed_append (config : TypingConfig) (keys : List WChar) (keyChar : WChar) :
    typed config (keys ++ [keyChar]) = (typed config keys).pushChar keyChar := by
  rw [typed, List.map_append, performAll_append]
  rfl

theorem typed_config (config : TypingConfig) (keys : List WChar) :
    (typed config keys).config = config :=
  config_performAll _ _

theorem typed_escRawHistory (config : TypingConfig) (keys : List WChar) :
    (typed config keys).escRawHistory = keys :=
  performAll_push_escRawHistory _ _

theorem replayed_pushChar (e : TypingEngine) (keyChar : WChar) :
    (e.pushChar keyChar).replayed = e.replayed.pushChar keyChar := by
  rw [replayed, pushChar_escRawHistory, typed_append]
  exact congrArg (fun config => (typed config e.escRawHistory).pushChar keyChar)
    (config_perform e (.pushChar keyChar))

/-! ## What a key and a Backspace must find -/

/-- A key has appended a letter and has done nothing else. -/
structure Appends (before after : TypingEngine) : Prop where
  states : after.states = before.states ++ [after.lastState]
  rawInput : before.rawInput <+: after.rawInput
  rawIdx : after.lastState.rawIdx = before.rawInput.length

instance (before after : TypingEngine) : Decidable (Appends before after) :=
  decidable_of_iff (_ ∧ _ ∧ _) ⟨fun ⟨h, h', h''⟩ => ⟨h, h', h''⟩, fun ⟨h, h', h''⟩ => ⟨h, h', h''⟩⟩

/-- No quick consonant can be taken back. -/
def QuickUnused (e : TypingEngine) : Prop := e.quickStartKey = 0 ∧ e.qc = {}

instance (e : TypingEngine) : Decidable e.QuickUnused := inferInstanceAs (Decidable (_ ∧ _))

/-- The letter a Backspace deletes is the one that the last key has appended, or the only one. -/
def DeletesLastKey (e : TypingEngine) : Prop :=
  e.states = [] ∨ e.QuickUnused ∧
    if e.states.length = 1 then e.lastState.rawIdx = 0
    else Appends (typed e.config e.escRawHistory.dropLast) e.replayed

instance (e : TypingEngine) : Decidable e.DeletesLastKey := inferInstanceAs (Decidable (_ ∨ _ ∧ _))

/-- Besides its letters the engine knows what a Backspace works out anew. -/
def Rests (e : TypingEngine) : Prop :=
  e.QuickUnused ∧ e.escape = .none ∧ e.updateSpellState.spellCheckDisabled = e.spellCheckDisabled ∧
    e.recalcBias.engProt = e.engProt

instance (e : TypingEngine) : Decidable e.Rests := inferInstanceAs (Decidable (_ ∧ _ ∧ _ ∧ _))

/-- Besides its letters the engine knows that, or that the word is Vietnamese. -/
def Settled (e : TypingEngine) : Prop :=
  e.QuickUnused ∧ e.escape = .none ∧ e.updateSpellState.spellCheckDisabled = e.spellCheckDisabled ∧
    Recalls e.recalcBias.engProt e.engProt

instance (e : TypingEngine) : Decidable e.Settled := inferInstanceAs (Decidable (_ ∧ _ ∧ _ ∧ _))

/-- The engine does not take a word for English that the replay knows to be Vietnamese, and where it
does not know so itself, the word does not start with the `ư` of a `w`. -/
def VerdictHolds (e : TypingEngine) : Prop :=
  Concurs ((stateAt e.states 0).synthetic = false) e.engProt e.replayed.engProt

instance (e : TypingEngine) : Decidable e.VerdictHolds :=
  inferInstanceAs (Decidable (Concurs _ _ _))

/-- What replaying needs of each step. -/
def Replays (e : TypingEngine) : Op → Prop
  | .pushChar _ => (e.Rests → e.replayed.Settled) ∧ e.VerdictHolds
  | .backspace => e.DeletesLastKey

instance (e : TypingEngine) : (op : Op) → Decidable (e.Replays op)
  | .pushChar _ => inferInstanceAs (Decidable (_ ∧ _))
  | .backspace => inferInstanceAs (Decidable e.DeletesLastKey)

/-! ## The engine and its replay -/

/-- The engine with another case for its last key. -/
def recased (e : TypingEngine) (uppercase : Bool) : TypingEngine :=
  { e with activeKeyUppercase := uppercase }

/-- Both engines have the same letters from the same keys. -/
def Spells (e q : TypingEngine) : Prop := q.states = e.states ∧ q.rawInput = e.rawInput

/-- The engines differ at most in a verdict that one may have forgotten. -/
def Follows (e q : TypingEngine) : Prop := Guarded Recalls (e.recased q.activeKeyUppercase) q

omit [WideCType] in
theorem Follows.spells {e q : TypingEngine} (h : Follows e q) : Spells e q := by
  obtain ⟨prot, hq, -⟩ := h
  rw [hq]
  exact ⟨rfl, rfl⟩

/-- A key brings its own case. -/
theorem Follows.pushChar {e q : TypingEngine} (h : Follows e q)
    (hverdict : Concurs ((stateAt e.states 0).synthetic = false) e.engProt q.engProt)
    (keyChar : WChar) :
    Follows (e.pushChar keyChar) (q.pushChar keyChar) := by
  obtain ⟨prot, hq, -⟩ := h
  have hprot : q.engProt = prot := congrArg TypingEngine.engProt hq
  have hguarded : Guarded (Concurs ((stateAt e.states 0).synthetic = false))
      (e.recased q.activeKeyUppercase) q := ⟨prot, hq, hprot ▸ hverdict⟩
  have hpushed : Guarded Recalls (e.pushChar keyChar) (q.pushChar keyChar) :=
    hguarded.pushChar id keyChar
  have hcase :
    (q.pushChar keyChar).activeKeyUppercase = (e.pushChar keyChar).activeKeyUppercase := by
    obtain ⟨prot', hq', -⟩ := hpushed
    rw [hq']
    rfl
  rw [Follows, hcase]
  exact hpushed

/-- A Backspace leaves what replaying the shorter history has, if nothing else has been
forgotten. -/
theorem Rests.follows {e : TypingEngine} (h : e.Rests) (hsettled : e.replayed.Settled)
    (hspells : Spells e e.replayed) : Follows e e.replayed := by
  have hconfig : e.replayed.config = e.config := typed_config _ _
  have hhistory : e.replayed.escRawHistory = e.escRawHistory := typed_escRawHistory _ _
  generalize e.replayed = q at hsettled hspells hconfig hhistory ⊢
  obtain ⟨⟨hstart, hqc⟩, hescape, hspell, hprot⟩ := h
  obtain ⟨⟨hstart', hqc'⟩, hescape', hspell', hrecalls⟩ := hsettled
  obtain ⟨hstates, hraw⟩ := hspells
  have hdisabled : q.spellCheckDisabled = e.spellCheckDisabled := by
    rw [← hspell', ← hspell, updateSpellState, updateSpellState, hconfig, hstates]
  have hrecalled : q.recalcBias.engProt = e.engProt := by
    rw [← hprot, recalcBias, recalcBias, hconfig, hstates]
  refine ⟨q.engProt, ?_, hrecalled ▸ hrecalls⟩
  cases q
  cases e
  simp only at hconfig hhistory hstart hqc hescape hstart' hqc' hescape' hstates hraw hdisabled
  simp only [guarded, recased, hconfig, hhistory, hstart, hqc, hescape, hstart', hqc',
    hescape', hstates, hraw, hdisabled]

/-- A Backspace deletes the letter of the last key from both. -/
theorem DeletesLastKey.backspace {e : TypingEngine} (h : e.DeletesLastKey) (hne : e.states ≠ [])
    (hspells : Spells e e.replayed) :
    e.backspace.Rests ∧ Spells e.backspace e.backspace.replayed := by
  obtain ⟨⟨hstart, hqc⟩, hlast⟩ := h.resolve_left hne
  have hback :
    e.backspace = { e with escape := .none, quickStartKey := 0, qc := {} }.popLetter := by
    rw [TypingEngine.backspace, if_neg (by simpa using hne), hstart, hqc]
    rfl
  have hhistory : e.backspace.escRawHistory =
      if e.states.dropLast.isEmpty then [] else e.escRawHistory.dropLast := by
    rw [hback]
    rfl
  have hstates : e.backspace.states = e.states.dropLast := by
    rw [hback]
    rfl
  have hraw : e.backspace.rawInput = e.rawInput.take e.lastState.rawIdx := by
    rw [hback]
    rfl
  have hconfig : e.backspace.config = e.config := config_perform e .backspace
  refine ⟨by rw [hback]; exact ⟨⟨rfl, rfl⟩, rfl, rfl, rfl⟩, ?_⟩
  rw [Spells, replayed, hconfig, hhistory, hstates, hraw]
  split at hlast
  · rename_i hlength
    have hnil : e.states.dropLast = [] :=
      List.eq_nil_of_length_eq_zero (by rw [List.length_dropLast, hlength])
    rw [hnil, hlast]
    exact ⟨rfl, rfl⟩
  · rename_i hlength
    have hlen : e.states.dropLast.length ≠ 0 := by
      have hpos := List.length_pos_iff.mpr hne
      rw [List.length_dropLast]
      omega
    have hkept : e.states.dropLast.isEmpty = false := by
      rw [Bool.eq_false_iff, ne_eq, List.isEmpty_iff_length_eq_zero]
      exact hlen
    have hlastState : e.replayed.lastState = e.lastState := by rw [lastState, lastState, hspells.1]
    have hletters := hlast.states
    have hprefix := List.prefix_iff_eq_take.mp hlast.rawInput
    rw [hspells.1] at hletters
    rw [hspells.2, ← hlast.rawIdx, hlastState] at hprefix
    rw [hkept, if_neg Bool.false_ne_true]
    exact ⟨by rw [hletters, List.dropLast_concat], hprefix⟩

/-- The word of the engine is that of its replay, or a Backspace has just shortened both. -/
def InStep (e : TypingEngine) : Prop :=
  Follows e e.replayed ∨ e.Rests ∧ Spells e e.replayed

theorem InStep.spells {e : TypingEngine} (h : InStep e) : Spells e e.replayed :=
  h.elim Follows.spells And.right

theorem InStep.perform {e : TypingEngine} (h : InStep e) {op : Op} (hop : e.Replays op) :
    InStep (e.perform op) := by
  cases op with
  | pushChar keyChar =>
      have hfollows : Follows e e.replayed :=
        h.elim id fun ⟨hrests, hspells⟩ => hrests.follows (hop.1 hrests) hspells
      have hpushed := hfollows.pushChar hop.2 keyChar
      rw [← replayed_pushChar] at hpushed
      exact .inl hpushed
  | backspace =>
      by_cases hempty : e.states = []
      · have hsame : e.backspace = e := by
          rw [TypingEngine.backspace, hempty]
          rfl
        change InStep e.backspace
        rwa [hsame]
      · exact .inr (hop.backspace hempty h.spells)

/-- Keys alone meet what replaying needs. -/
theorem runMeets_replays_of_keys {e : TypingEngine} {uppercase : Bool}
    (h : e.replayed = e.recased uppercase) (keys : List WChar) :
    RunMeets Replays e (keys.map .pushChar) := by
  induction keys generalizing e uppercase with
  | nil => trivial
  | cons keyChar keys ih =>
      have hpushed : (e.pushChar keyChar).replayed =
          (e.pushChar keyChar).recased (e.pushChar keyChar).activeKeyUppercase := by
        rw [replayed_pushChar, h]
        rfl
      refine ⟨⟨fun hrests => ?_, .inl ?_⟩, ih hpushed⟩
      · rw [h]
        exact ⟨hrests.1, hrests.2.1, hrests.2.2.1, .inl hrests.2.2.2⟩
      · rw [h]
        rfl

end TypingEngine

end VKey

namespace VKey.TypingEngine

end VKey.TypingEngine
