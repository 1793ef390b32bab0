import VKey.Engine.EditKey

/-!
# Raw indices

Every character state remembers the raw keystroke it was made at and, if it carries a tone, the
raw keystroke of the tone.  This module proves that the indices are in order, in range, and point
at a key of that tone, in every state of a run that never takes one of the branches which lose
track of a raw keystroke.  The branches are reachable, and the last section shows what one of them
does.
-/

namespace VKey

variable [WideCType]

/-- The indices of a state point below a bound, and the index of its tone at a key of the tone. -/
structure StateIndexed (config : TypingConfig) (raw : List WChar) (n : Nat) (s : CharState) :
    Prop where
  rawIdx_lt : s.rawIdx < n
  tone_iff : s.tone ≠ .none ↔ s.toneRawIdx ≠ none
  toneKey : ∀ t, s.toneRawIdx = some t →
    t < n ∧ actionToTone (TypingEngine.methodAction config (towlower (raw.getD t 0))) = s.tone

/-- The states are in the order of their raw indices, and each of them is indexed correctly. -/
structure RawIndexed (config : TypingConfig) (ss : List CharState) (raw : List WChar) (n : Nat) :
    Prop where
  sorted : ss.Pairwise fun a b => a.rawIdx ≤ b.rawIdx
  indexed : ∀ s ∈ ss, StateIndexed config raw n s

namespace TypingEngine

/-- The raw indices of an engine represent where its letters and tones come from. -/
def HasRawIndices (e : TypingEngine) : Prop :=
  RawIndexed e.config e.states e.rawInput e.rawInput.length

end TypingEngine

/-! ## Edits keep the indices -/

section Edits

variable {config : TypingConfig} {hz : Hazards} {key : WChar}

theorem StateIndexed.mono {raw : List WChar} {n m : Nat} {s : CharState}
    (h : StateIndexed config raw n s) (hnm : n ≤ m) : StateIndexed config raw m s :=
  ⟨Nat.lt_of_lt_of_le h.rawIdx_lt hnm, h.tone_iff, fun t ht =>
    ⟨Nat.lt_of_lt_of_le (h.toneKey t ht).1 hnm, (h.toneKey t ht).2⟩⟩

theorem RawIndexed.mono {ss : List CharState} {raw : List WChar} {n m : Nat}
    (h : RawIndexed config ss raw n) (hnm : n ≤ m) : RawIndexed config ss raw m :=
  ⟨h.sorted, fun s hs => (h.indexed s hs).mono hnm⟩

theorem stateIndexed_of_untoned {raw : List WChar} {n : Nat} {s : CharState}
    (hlt : s.rawIdx < n) (htone : s.tone = .none) (hidx : s.toneRawIdx = none) :
    StateIndexed config raw n s :=
  ⟨hlt, by simp [htone, hidx], by simp [hidx]⟩

theorem StateIndexed.withTone {raw : List WChar} {n : Nat} {s : CharState}
    (h : StateIndexed config raw n s) {tone : Tone} {idx : Option Nat}
    (hiff : tone ≠ .none ↔ idx ≠ none)
    (hkey : ∀ t, idx = some t →
      t < n ∧ actionToTone (TypingEngine.methodAction config (towlower (raw.getD t 0))) = tone) :
    StateIndexed config raw n { s with tone, toneRawIdx := idx } :=
  ⟨h.rawIdx_lt, hiff, hkey⟩

omit [WideCType] in
theorem pairwise_rawIdx_iff {ss : List CharState} :
    ss.Pairwise (fun a b => a.rawIdx ≤ b.rawIdx) ↔ (rawIdxs ss).Pairwise (· ≤ ·) := by
  rw [rawIdxs, List.pairwise_map]

theorem RawIndexed.modify {ss : List CharState} {raw : List WChar} {n i : Nat}
    {f : CharState → CharState} (h : RawIndexed config ss raw n)
    (hf : ∀ s, (f s).rawIdx = s.rawIdx)
    (hstate : i < ss.length → StateIndexed config raw n (f (stateAt ss i))) :
    RawIndexed config (ss.modify i f) raw n := by
  refine ⟨?_, forall_mem_modify h.indexed fun hi => ?_⟩
  · rw [pairwise_rawIdx_iff, rawIdxs_modify hf, ← pairwise_rawIdx_iff]
    exact h.sorted
  · rw [← stateAt_eq_getElem hi]
    exact hstate hi

theorem RawIndexed.stateAt {ss : List CharState} {raw : List WChar} {n i : Nat}
    (h : RawIndexed config ss raw n) (hi : i < ss.length) :
    StateIndexed config raw n (stateAt ss i) := by
  rw [stateAt_eq_getElem hi]
  exact h.indexed _ (List.getElem_mem hi)

theorem RawIndexed.clearTone {ss : List CharState} {raw : List WChar} {n : Nat}
    (h : RawIndexed config ss raw n) (i : Nat) :
    RawIndexed config (setTone ss i .none none) raw n :=
  h.modify (fun _ => rfl) fun hi => (h.stateAt hi).withTone (by simp) (by simp)

theorem RawIndexed.sublist {ss ss' : List CharState} {raw : List WChar} {n : Nat}
    (h : RawIndexed config ss raw n) (hsub : ss'.Sublist ss) : RawIndexed config ss' raw n :=
  ⟨h.sorted.sublist hsub, fun s hs => h.indexed s (hsub.subset hs)⟩

theorem RawIndexed.append {ss : List CharState} {raw : List WChar} {n : Nat} {s : CharState}
    (h : RawIndexed config ss raw n) (hs : StateIndexed config raw n s)
    (hle : ∀ a ∈ ss, a.rawIdx ≤ s.rawIdx) : RawIndexed config (ss ++ [s]) raw n := by
  refine ⟨List.pairwise_append.mpr ⟨h.sorted, List.pairwise_singleton _ _, ?_⟩, ?_⟩
  · simpa using hle
  · simpa [or_imp, forall_and] using ⟨h.indexed, hs⟩

theorem RawIndexed.le_last {ss : List CharState} {raw : List WChar} {n : Nat}
    (h : RawIndexed config ss raw n) (hne : ss ≠ []) :
    ∀ a ∈ ss, a.rawIdx ≤ (VKey.stateAt ss (ss.length - 1)).rawIdx := by
  intro a ha
  have hpos := List.length_pos_iff.mpr hne
  rw [stateAt_eq_getElem (by omega)]
  obtain ⟨i, hi, rfl⟩ := List.mem_iff_getElem.mp ha
  rcases Nat.lt_or_eq_of_le (Nat.le_sub_one_of_lt hi) with hlt | heq
  · exact List.pairwise_iff_getElem.mp h.sorted _ _ _ _ hlt
  · simp [heq]

/-- The bound of the indices of a draft: nothing refers to a pending key. -/
def Draft.bound (d : Draft) : Nat := if d.pending then d.rawInput.length - 1 else d.rawInput.length

/-- The indices of a draft are correct, and a pending key is its last raw keystroke. -/
structure Draft.Indexed (config : TypingConfig) (key : WChar) (d : Draft) : Prop where
  rawIndexed : RawIndexed config d.states d.rawInput d.bound
  ne_nil : d.rawInput ≠ []
  last : d.pending = true → d.rawInput.getLast? = some key

/-- None of the hazards that spoil raw indices. -/
def Hazards.KeepRawIndices (hz : Hazards) : Prop :=
  ¬ hz.outOfOrder ∧ ¬ hz.hornTone ∧ ¬ hz.foreignTone ∧ ¬ hz.lostKey

omit [WideCType] in
theorem Draft.bound_le (d : Draft) : d.bound ≤ d.rawInput.length := by
  unfold Draft.bound
  split_ifs <;> omega

omit [WideCType] in
theorem Draft.le_bound (d : Draft) : d.rawInput.length - 1 ≤ d.bound := by
  unfold Draft.bound
  split_ifs <;> omega

omit [WideCType] in
theorem getD_last {raw : List WChar} (h : raw.getLast? = some key) :
    raw.getD (raw.length - 1) 0 = key := by
  rw [List.getD_eq_getElem?_getD, ← List.getLast?_eq_getElem?, h]
  rfl

/-! ### Appending and marking -/

theorem Draft.Indexed.append {p : Bool} {ss : List CharState} {raw : List WChar} {s : CharState}
    (h : Draft.Indexed config key ⟨p, ss, raw⟩) (hletter : IsLetter hz s)
    (hidx : s.rawIdx = raw.length - 1) : Draft.Indexed config key ⟨false, ss ++ [s], raw⟩ := by
  have hpos := List.length_pos_iff.mpr h.ne_nil
  have hle : ∀ a ∈ ss, a.rawIdx ≤ s.rawIdx := by
    intro a ha
    have hlt := (h.rawIndexed.indexed a ha).rawIdx_lt
    have hb := Draft.bound_le ⟨p, ss, raw⟩
    dsimp only at hlt hb hpos
    omega
  refine ⟨?_, h.ne_nil, by simp⟩
  refine (h.rawIndexed.mono (Draft.bound_le _)).append ?_ hle
  exact stateIndexed_of_untoned (by dsimp only at hpos; simp; omega) hletter.tone_eq
    hletter.toneRawIdx_eq

theorem Draft.Indexed.withStates {p : Bool} {ss ss' : List CharState} {raw : List WChar}
    (h : Draft.Indexed config key ⟨p, ss, raw⟩)
    (h' : RawIndexed config ss' raw (Draft.bound ⟨p, ss, raw⟩)) :
    Draft.Indexed config key ⟨p, ss', raw⟩ :=
  ⟨h', h.ne_nil, h.last⟩

theorem RawIndexed.setMod {ss : List CharState} {raw : List WChar} {n : Nat}
    (h : RawIndexed config ss raw n) (i : Nat) (mod : Modifier) :
    RawIndexed config (setMod ss i mod) raw n :=
  h.modify (fun _ => rfl) fun hi =>
    ⟨(h.stateAt hi).rawIdx_lt, (h.stateAt hi).tone_iff, (h.stateAt hi).toneKey⟩

theorem RawIndexed.setTone {ss : List CharState} {raw : List WChar} {n : Nat}
    (h : RawIndexed config ss raw n) (i : Nat) {tone : Tone} {idx : Option Nat}
    (hiff : tone ≠ .none ↔ idx ≠ none)
    (hkey : ∀ t, idx = some t →
      t < n ∧ actionToTone (TypingEngine.methodAction config (towlower (raw.getD t 0))) = tone) :
    RawIndexed config (setTone ss i tone idx) raw n :=
  h.modify (fun _ => rfl) fun hi => (h.stateAt hi).withTone hiff hkey

theorem RawIndexed.relocate {ss : List CharState} {raw : List WChar} {n i : Nat}
    (h : RawIndexed config ss raw n) (htoned : (VKey.stateAt ss i).hasTone = true) (j : Nat) :
    RawIndexed config (VKey.setTone (VKey.setTone ss j (VKey.stateAt ss i).tone
      (VKey.stateAt ss i).toneRawIdx) i .none none) raw n := by
  have hi : i < ss.length := by
    by_contra hle
    rw [stateAt_of_le (by omega)] at htoned
    exact absurd htoned (by decide)
  have hs := h.stateAt hi
  exact (h.setTone j hs.tone_iff hs.toneKey).clearTone i

/-! ### The key as a tone -/

theorem Draft.Indexed.tone {ss : List CharState} {raw : List WChar} {i : Nat} {tone : Tone}
    (h : Draft.Indexed config key ⟨true, ss, raw⟩) (hne : tone ≠ .none)
    (hclass : actionToTone (TypingEngine.methodAction config (towlower key)) = tone) :
    Draft.Indexed config key ⟨false, VKey.setTone ss i tone (some (raw.length - 1)), raw⟩ := by
  have hpos := List.length_pos_iff.mpr h.ne_nil
  refine ⟨(h.rawIndexed.mono (Draft.bound_le _)).setTone i (by simp [hne]) ?_, h.ne_nil, by simp⟩
  rintro t ⟨⟩
  rw [getD_last (h.last rfl)]
  exact ⟨by dsimp only at hpos; simp; omega, hclass⟩

theorem RawIndexed.map_shiftRaw {ss : List CharState} {raw : List WChar} {n : Nat}
    (h : RawIndexed config ss raw n) : ss.map (CharState.shiftRaw n) = ss := by
  refine (List.map_congr_left fun s hs => ?_).trans (List.map_id' ss)
  have hs := h.indexed s hs
  exact CharState.shiftRaw_of_le (Nat.le_of_lt hs.rawIdx_lt) fun t ht =>
    Nat.le_of_lt (hs.toneKey t ht).1

theorem RawIndexed.insert {ss : List CharState} {raw : List WChar} {n : Nat} {s : CharState}
    (h : RawIndexed config ss raw n) (hs : StateIndexed config raw n s) :
    RawIndexed config (insertByRawIdx ss s) raw n := by
  refine ⟨?_, fun a ha => ?_⟩
  · exact pairwise_insertIdx_findIdx h.sorted (fun a _ hlt => by omega) (fun a hlt => by omega)
      fun a b hlt hle => by omega
  · rcases mem_of_mem_insertIdx ha with rfl | ha
    · exact hs
    · exact h.indexed a ha

theorem Draft.Indexed.putBack {ss : List CharState} {raw : List WChar} {i idx : Nat}
    {s : CharState} (h : Draft.Indexed config key ⟨true, ss, raw⟩)
    (htone : (stateAt ss i).tone ≠ .none) (htoneRawIdx : (stateAt ss i).toneRawIdx = some idx)
    (hclass : actionToTone (TypingEngine.methodAction config (towlower key)) =
      (stateAt ss i).tone) (hletter : IsLetter hz s) (hidx : s.rawIdx = idx) :
    Draft.Indexed config key
      ⟨false, insertByRawIdx ((VKey.setTone ss i .none none).map
        (CharState.shiftRaw (raw.length - 1))) s,
        (raw.eraseIdx (raw.length - 1)).set idx key⟩ := by
  have hpos := List.length_pos_iff.mpr h.ne_nil
  have hraw : RawIndexed config ss raw (raw.length - 1) := h.rawIndexed
  have hi : i < ss.length := by
    by_contra hle
    rw [stateAt_of_le (by omega)] at htone
    exact htone rfl
  obtain ⟨hlt, hkey⟩ := (hraw.stateAt hi).toneKey idx htoneRawIdx
  have hlen : (raw.eraseIdx (raw.length - 1)).length = raw.length - 1 :=
    List.length_eraseIdx_of_lt (by dsimp only at hpos; omega)
  have hget : ∀ t, t < raw.length - 1 →
      ((raw.eraseIdx (raw.length - 1)).set idx key).getD t 0 =
        if idx = t then key else raw.getD t 0 := by
    intro t ht
    rw [getD_set _ _ _ _ _ (by omega), getD_eraseIdx, if_pos ht]
  have hcleared := hraw.clearTone i
  rw [hcleared.map_shiftRaw]
  have hrest : RawIndexed config (VKey.setTone ss i .none none)
      ((raw.eraseIdx (raw.length - 1)).set idx key) (raw.length - 1) := by
    refine ⟨hcleared.sorted, fun a ha => ?_⟩
    have hstate := hcleared.indexed a ha
    refine ⟨hstate.rawIdx_lt, hstate.tone_iff, fun t ht => ?_⟩
    obtain ⟨htlt, htkey⟩ := hstate.toneKey t ht
    refine ⟨htlt, ?_⟩
    rw [hget t htlt]
    split_ifs with heq
    · rw [hclass, ← hkey, heq, htkey]
    · exact htkey
  refine ⟨?_, ?_, by simp⟩
  · have hbound : Draft.bound ⟨false, insertByRawIdx (VKey.setTone ss i .none none) s,
        (raw.eraseIdx (raw.length - 1)).set idx key⟩ = raw.length - 1 := by
      simp [Draft.bound]
    rw [hbound]
    exact hrest.insert (stateIndexed_of_untoned (by omega) hletter.tone_eq hletter.toneRawIdx_eq)
  · intro hnil
    have hzero := congrArg List.length hnil
    simp only [List.length_set, hlen, List.length_nil] at hzero
    omega

/-! ### Literals -/

theorem Draft.Indexed.literal {p : Bool} {ss : List CharState} {raw : List WChar} {t : Nat}
    {s : CharState} (h : Draft.Indexed config key ⟨p, ss, raw⟩) (hne : ss ≠ [])
    (htoneRawIdx : (stateAt ss (ss.length - 1)).toneRawIdx = some t)
    (horder : ¬ t < (stateAt ss (ss.length - 1)).rawIdx) (hletter : IsLetter hz s)
    (hidx : s.rawIdx = t) :
    Draft.Indexed config key ⟨p, VKey.setTone ss (ss.length - 1) .none none ++ [s], raw⟩ := by
  have hpos := List.length_pos_iff.mpr hne
  have hlt := ((h.rawIndexed.stateAt (by dsimp only; omega)).toneKey t htoneRawIdx).1
  refine h.withStates ((h.rawIndexed.clearTone _).append
    (stateIndexed_of_untoned (hidx ▸ hlt) hletter.tone_eq hletter.toneRawIdx_eq) ?_)
  intro a ha
  have hmem : a.rawIdx ∈ rawIdxs ss := by
    rw [← rawIdxs_setTone ss (ss.length - 1) .none none]
    exact List.mem_map_of_mem ha
  obtain ⟨b, hb, hab⟩ := List.mem_map.mp hmem
  have hlast := h.rawIndexed.le_last hne b hb
  dsimp only at hlast
  omega

/-! ### Erasing -/

/-- Erasing the raw key of the last letter, which no other tone came from. -/
theorem Draft.Indexed.swallow {ss : List CharState} {raw : List WChar}
    (h : Draft.Indexed config key ⟨true, ss, raw⟩) (hne : ss ≠ [])
    (hkept : ∀ s ∈ ss.dropLast, s.toneRawIdx ≠ some (stateAt ss (ss.length - 1)).rawIdx) :
    Draft.Indexed config key
      ⟨false, ss.dropLast.map (CharState.shiftRaw (stateAt ss (ss.length - 1)).rawIdx),
        raw.eraseIdx (stateAt ss (ss.length - 1)).rawIdx⟩ := by
  have hpos := List.length_pos_iff.mpr hne
  have hrawIndexed : RawIndexed config ss raw (raw.length - 1) := h.rawIndexed
  have hidx := (hrawIndexed.stateAt (i := ss.length - 1) (by omega)).rawIdx_lt
  have hlast := hrawIndexed.le_last hne
  generalize (stateAt ss (ss.length - 1)).rawIdx = idx at hkept hidx hlast ⊢
  have hdrop := hrawIndexed.sublist (List.dropLast_sublist ss)
  have hlen : (raw.eraseIdx idx).length = raw.length - 1 :=
    List.length_eraseIdx_of_lt (by omega)
  have hle : ∀ s ∈ ss.dropLast, (s.shiftRaw idx).rawIdx = s.rawIdx := by
    intro s hs
    have hs' := hlast s (List.dropLast_subset ss hs)
    unfold CharState.shiftRaw
    exact if_neg (by omega)
  refine ⟨⟨?_, ?_⟩, ?_, by simp⟩
  · rw [List.pairwise_map]
    refine hdrop.sorted.imp_of_mem fun {a b} ha hb hab => ?_
    rw [hle a ha, hle b hb]
    exact hab
  · intro s' hs'
    obtain ⟨s, hs, rfl⟩ := List.mem_map.mp hs'
    have hstate := hdrop.indexed s hs
    have hbound : Draft.bound ⟨false, ss.dropLast.map (CharState.shiftRaw idx),
        raw.eraseIdx idx⟩ = raw.length - 1 := hlen
    rw [hbound]
    refine ⟨by rw [hle s hs]; exact hstate.rawIdx_lt, ?_, ?_⟩
    · rw [show (s.shiftRaw idx).tone = s.tone from rfl, hstate.tone_iff]
      simp [CharState.shiftRaw]
    · intro t' ht'
      obtain ⟨t, ht, rfl⟩ := Option.map_eq_some_iff.mp ht'
      obtain ⟨hlt, hkey⟩ := hstate.toneKey t ht
      have htne : t ≠ idx := fun heq => hkept s hs (heq ▸ ht)
      refine ⟨by split_ifs <;> omega, ?_⟩
      rw [getD_eraseIdx]
      have hsame : (if (if idx < t then t - 1 else t) < idx then (if idx < t then t - 1 else t)
          else (if idx < t then t - 1 else t) + 1) = t := by
        split_ifs <;> omega
      rw [hsame]
      exact hkey
  · intro hnil
    have hzero := congrArg List.length hnil
    simp only [hlen, List.length_nil] at hzero
    omega

theorem RawIndexed.clearMarks {ss : List CharState} {raw : List WChar} {n : Nat}
    (h : RawIndexed config ss raw n) :
    RawIndexed config (ss.map fun s =>
      if s.hasModifier || s.hasTone then
        { s with mod := .none, tone := .none, toneRawIdx := none }
      else s) raw n := by
  have hidx : ∀ s : CharState, (if s.hasModifier || s.hasTone then
      { s with mod := .none, tone := .none, toneRawIdx := none } else s).rawIdx = s.rawIdx := by
    intro s
    split_ifs <;> rfl
  refine ⟨?_, fun s' hs' => ?_⟩
  · rw [List.pairwise_map]
    exact h.sorted.imp fun hab => by rwa [hidx, hidx]
  · obtain ⟨s, hs, rfl⟩ := List.mem_map.mp hs'
    have hstate := h.indexed s hs
    split_ifs
    · exact stateIndexed_of_untoned hstate.rawIdx_lt rfl rfl
    · exact hstate

/-! ### The word `use` -/

theorem Draft.Indexed.revertUse {p : Bool} {ss : List CharState} {raw : List WChar}
    {s : CharState} (h : Draft.Indexed config key ⟨p, ss, raw⟩) (hlen : ss.length = 2)
    (hlast : (stateAt ss 1).rawIdx = raw.length - 1) (hraw : 3 ≤ raw.length)
    (horder : ¬ 2 ≤ (stateAt ss 0).rawIdx) (hletter : IsLetter hz s) (hidx : s.rawIdx = 1) :
    Draft.Indexed config key
      ⟨p, (VKey.setTone (VKey.setTone ss 0 .none none) 1 .none none).insertIdx 1 s, raw⟩ := by
  have hcleared := (h.rawIndexed.clearTone 0).clearTone 1
  have hbound := Draft.le_bound ⟨p, ss, raw⟩
  obtain ⟨a, b, rfl⟩ : ∃ a b, ss = [a, b] := List.length_eq_two.mp hlen
  refine h.withStates ⟨?_, fun c hc => ?_⟩
  · have ha : a.rawIdx ≤ 1 := by
      simp only [stateAt, List.getD_cons_zero] at horder
      omega
    have hb : b.rawIdx = raw.length - 1 := hlast
    simp only [VKey.setTone, List.modify_zero_cons, List.modify_succ_cons, List.insertIdx_succ_cons,
      List.insertIdx_zero, List.pairwise_cons, List.mem_cons, List.not_mem_nil, or_false,
      forall_eq_or_imp, forall_eq, List.Pairwise.nil, and_true, false_imp_iff, implies_true]
    omega
  · rcases mem_of_mem_insertIdx hc with rfl | hc
    · exact stateIndexed_of_untoned (by dsimp only at hbound ⊢; omega) hletter.tone_eq
        hletter.toneRawIdx_eq
    · exact hcleared.indexed c hc

/-! ### All edits -/

/-- An edit that is no hazard keeps the indices of a draft. -/
theorem Edit.indexed {d d' : Draft} (hedit : Edit config hz key d d') (hkeep : hz.KeepRawIndices)
    (h : d.Indexed config key) : d'.Indexed config key := by
  obtain ⟨horder, hhorn, hforeign, hlost⟩ := hkeep
  cases hedit with
  | append letter rawIdx_eq own => exact h.append letter rawIdx_eq
  | mark legal => exact h.withStates (h.rawIndexed.setMod _ _)
  | relocate toned ne vowel => exact h.withStates (h.rawIndexed.relocate toned _)
  | hornRelocate toned ne vowel hazard => exact absurd hazard hhorn
  | clear => exact h.withStates (h.rawIndexed.clearTone _)
  | tone tone_ne vowel tone_eq only => exact h.tone tone_ne tone_eq
  | putBack tone_ne toneRawIdx_eq lt tone_eq letter rawIdx_eq base_eq =>
      exact h.putBack tone_ne toneRawIdx_eq tone_eq letter rawIdx_eq
  | literal ne_nil toneRawIdx_eq key_eq order letter rawIdx_eq base_eq =>
      exact h.literal ne_nil toneRawIdx_eq (fun hlt => horder (order hlt)) letter rawIdx_eq
  | remove hazard => exact h.withStates (h.rawIndexed.sublist (List.eraseIdx_sublist _ _))
  | swallow ne_nil lt kept hazard => exact h.swallow ne_nil (kept.resolve_right hlost)
  | clearMarks hazard => exact h.withStates h.rawIndexed.clearMarks
  | restart letter rawIdx_eq hazard =>
      refine ⟨⟨List.pairwise_singleton _ _, ?_⟩, by simp, by simp⟩
      simp only [List.mem_singleton, forall_eq]
      exact stateIndexed_of_untoned (by simp [rawIdx_eq, Draft.bound]) letter.tone_eq
        letter.toneRawIdx_eq
  | revertStart tone_eq hazard =>
      refine h.withStates (h.rawIndexed.modify (fun _ => rfl) fun hi => ?_)
      have hs := h.rawIndexed.stateAt hi
      exact ⟨hs.rawIdx_lt, hs.tone_iff, hs.toneKey⟩
  | revertUse length_eq rawIdx_last length_le order letter rawIdx_eq hazard =>
      exact h.revertUse length_eq rawIdx_last length_le (fun hle => horder (order hle)) letter
        rawIdx_eq
  | @unrevertUse p ss raw length_eq base_eq length_le tone_eq only hazard =>
      have hbound := Draft.le_bound ⟨p, ss, raw⟩
      refine h.withStates (h.rawIndexed.setTone 1 (by simp) ?_)
      rintro t ⟨⟩
      exact ⟨by dsimp only at hbound ⊢; omega, tone_eq.resolve_right hforeign⟩

theorem Edits.indexed {d d' : Draft} (hedits : Edits config hz key d d')
    (hkeep : hz.KeepRawIndices) (h : d.Indexed config key) : d'.Indexed config key := by
  induction hedits with
  | refl => exact h
  | tail _ hedit ih => exact hedit.indexed hkeep ih

end Edits

namespace TypingEngine

/-! ## Keys keep the indices -/

/-- An action takes none of the branches that lose track of a raw keystroke: a literal put back
out of order, a tone relocated to a horned vowel, an acute taken from a key that is none, and the
raw key of a remaining letter or tone taken away. -/
def KeepsRawKeys (e : TypingEngine) : Op → Prop
  | .pushChar key => e.putsLiteralOutOfOrder key = false ∧ e.relocatesToHorn key = false ∧
      e.takesForeignTone key = false ∧ e.takesToneKeyBack key = false
  | .backspace => e.strandsRawIndex = false

instance (e : TypingEngine) : (op : Op) → Decidable (e.KeepsRawKeys op)
  | .pushChar _ => inferInstanceAs (Decidable (_ ∧ _))
  | .backspace => inferInstanceAs (Decidable (_ = _))

/-- Recording a key leaves it pending. -/
theorem indexed_recordKey {e : TypingEngine} (h : e.HasRawIndices) (key : WChar)
    (uppercase : Bool) :
    Draft.Indexed e.config key ⟨true, (e.recordKey key uppercase).states,
      (e.recordKey key uppercase).rawInput⟩ := by
  have hbound : Draft.bound ⟨true, e.states, e.rawInput ++ [key]⟩ = e.rawInput.length := by
    simp [Draft.bound]
  refine ⟨⟨h.sorted, fun s hs => ?_⟩, by simp [recordKey], by simp [recordKey]⟩
  have hstate := h.indexed s hs
  refine ⟨hbound ▸ hstate.rawIdx_lt, hstate.tone_iff, fun t ht => ?_⟩
  obtain ⟨hlt, hkey⟩ := hstate.toneKey t ht
  refine ⟨hbound ▸ hlt, ?_⟩
  rw [show (e.recordKey key uppercase).rawInput = e.rawInput ++ [key] from rfl,
    getD_append_of_lt _ _ hlt]
  exact hkey

theorem hasRawIndices_of_indexed {e : TypingEngine} {key : WChar} {p : Bool}
    (h : Draft.Indexed e.config key ⟨p, e.states, e.rawInput⟩) : e.HasRawIndices :=
  h.rawIndexed.mono (Draft.bound_le _)

theorem hasRawIndices_pushChar {e : TypingEngine} (h : e.HasRawIndices) {key : WChar}
    (hkeep : e.KeepsRawKeys (.pushChar key)) : (e.pushChar key).HasRawIndices := by
  obtain ⟨p', hpushed⟩ := pushed_pushChar e key
  obtain ⟨horder, hhorn, hforeign, hlost⟩ := hkeep
  have hhazards : (e.pushHazards key).KeepRawIndices := by
    simp [Hazards.KeepRawIndices, pushHazards, horder, hhorn, hforeign, hlost]
  have hindexed := hpushed.edits.indexed hhazards (indexed_recordKey h key _)
  rw [← show (e.pushChar key).config = _ from hpushed.config_eq] at hindexed
  exact hasRawIndices_of_indexed hindexed

/-! ## Backspace keeps the indices -/

omit [WideCType] in
theorem keepRawIndices_undoHazards : undoHazards.KeepRawIndices := ⟨id, id, id, id⟩

/-- Deleting the last letter with its raw keys, where no other letter refers to them. -/
theorem rawIndexed_popLetter {e : TypingEngine} (h : e.HasRawIndices)
    (hdelete : e.deletesRawKeys = true) (hkeep : e.strandsRawIndex = false) :
    RawIndexed e.config e.states.dropLast (e.rawInput.take e.lastState.rawIdx)
      (e.rawInput.take e.lastState.rawIdx).length := by
  have hdrop := h.sublist (List.dropLast_sublist e.states)
  simp only [strandsRawIndex, hdelete, Bool.true_and, List.any_eq_false, Bool.or_eq_true,
    decide_eq_true_eq, not_or, not_le] at hkeep
  refine ⟨hdrop.sorted, fun s hs => ?_⟩
  have hstate := hdrop.indexed s hs
  obtain ⟨hraw, htone⟩ := hkeep s hs
  rw [List.length_take]
  refine ⟨lt_min hraw hstate.rawIdx_lt, hstate.tone_iff, fun t ht => ?_⟩
  obtain ⟨hlt, hkey⟩ := hstate.toneKey t ht
  rw [ht, Option.any_some, decide_eq_true_eq, not_le] at htone
  rw [getD_take _ _ _ _ htone]
  exact ⟨lt_min htone hlt, hkey⟩

theorem hasRawIndices_backspace {e : TypingEngine} (h : e.HasRawIndices)
    (hkeep : e.KeepsRawKeys .backspace) : e.backspace.HasRawIndices := by
  obtain ⟨hconfig, -, hcases⟩ := backspace_cases e 0
  unfold HasRawIndices
  rw [hconfig]
  rcases hcases with ⟨hstates, hraw, -⟩ | ⟨-, hstates, hraw⟩ | ⟨-, hne, hedits⟩ |
    ⟨hdelete, hstates, hraw⟩
  · rw [hstates, hraw]
    exact h
  · rw [hstates, hraw]
    refine ⟨List.pairwise_singleton _ _, ?_⟩
    simp only [List.mem_singleton, forall_eq]
    exact stateIndexed_of_untoned (by simp) rfl rfl
  · have hnil : e.rawInput ≠ [] := by
      obtain ⟨s, hs⟩ := List.exists_mem_of_ne_nil _ hne
      have hlt := (h.indexed s hs).rawIdx_lt
      exact List.ne_nil_of_length_pos (by omega)
    have hdraft : Draft.Indexed e.config 0 ⟨false, e.states, e.rawInput⟩ := ⟨h, hnil, by simp⟩
    exact (hedits.indexed keepRawIndices_undoHazards hdraft).rawIndexed
  · rw [hstates, hraw]
    exact rawIndexed_popLetter h hdelete hkeep

/-! ## Runs -/

theorem hasRawIndices_perform {e : TypingEngine} (op : Op) (h : e.HasRawIndices)
    (hkeep : e.KeepsRawKeys op) : (e.perform op).HasRawIndices := by
  cases op with
  | pushChar key => exact hasRawIndices_pushChar h hkeep
  | backspace => exact hasRawIndices_backspace h hkeep

theorem hasRawIndices_reset (e : TypingEngine) : e.reset.HasRawIndices :=
  ⟨List.Pairwise.nil, by simp [reset]⟩

/-- In every run whose actions keep track of the raw keystrokes, the raw indices are in order and
in range, and every tone has the index of a key of that tone. -/
theorem hasRawIndices_of_run (e : TypingEngine) (ops : List Op)
    (hops : RunMeets KeepsRawKeys e.reset ops) : (e.reset.performAll ops).HasRawIndices :=
  performAll_induction HasRawIndices (fun _ op h hkeep => hasRawIndices_perform op h hkeep)
    (hasRawIndices_reset e) hops

end TypingEngine

end VKey

namespace VKey.TypingEngine

/-- Typing `vieejt` keeps track of every raw keystroke. -/
theorem hasRawIndices_of_typing_vieejt :
    ((new {}).reset.performAll (typing "vieejt")).HasRawIndices :=
  hasRawIndices_of_run _ _ (by decide +kernel)

/-- Backspace after `an1` deletes the tone key together with the `n`, and the tone stays: the
representation of raw keystrokes is not an invariant of all runs. -/
theorem not_hasRawIndices_of_every_run :
    ¬ ∀ (config : TypingConfig)
    (ops : List Op), ((new config).reset.performAll ops).HasRawIndices := by
  intro h
  have hindexed := h { inputMethod := .vni } (typing "an1" ++ [.backspace])
  have hstranded : ∃ s ∈ ((new { inputMethod := .vni }).reset.performAll
      (typing "an1" ++ [.backspace])).states, s.toneRawIdx = some 2 ∧
      ((new { inputMethod := .vni }).reset.performAll
        (typing "an1" ++ [.backspace])).rawInput.length = 1 := by
    decide +kernel
  obtain ⟨s, hs, htone, hlen⟩ := hstranded
  have hlt := ((hindexed.indexed s hs).toneKey 2 htone).1
  omega

end VKey.TypingEngine
