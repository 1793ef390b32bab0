import Mathlib.Data.List.Forall2
import VKey.Engine.RawIndex
import VKey.Engine.WellFormed

/-!
# Typed letters at commit

A commit returns the composed text or the raw keystrokes.  With the VNI method and without quick
consonants either of them contains, in order, the letter of every state of the buffer, in every run
in which Backspace strands no raw index and no literal is put back out of order: every state then
has a raw keystroke of its own, in the order of the states.

The composed text always contains the letters.  What an unlucky Backspace costs is a letter of the
raw keystrokes, which the last section shows.
-/

namespace VKey

/-! ## Letters up to case and marks -/

/-- The marked forms of the letters that have any. -/
def markedForms : List (WChar × List Char) :=
  [(L 'a', ['á', 'à', 'ả', 'ã', 'ạ', 'ă', 'ắ', 'ằ', 'ẳ', 'ẵ', 'ặ', 'â', 'ấ', 'ầ', 'ẩ', 'ẫ',
     'ậ', 'Á', 'À', 'Ả', 'Ã', 'Ạ', 'Ă', 'Ắ', 'Ằ', 'Ẳ', 'Ẵ', 'Ặ', 'Â', 'Ấ', 'Ầ', 'Ẩ', 'Ẫ',
     'Ậ']),
   (L 'd', ['đ', 'Đ']),
   (L 'e', ['é', 'è', 'ẻ', 'ẽ', 'ẹ', 'ê', 'ế', 'ề', 'ể', 'ễ', 'ệ', 'É', 'È', 'Ẻ', 'Ẽ', 'Ẹ',
     'Ê', 'Ế', 'Ề', 'Ể', 'Ễ', 'Ệ']),
   (L 'i', ['í', 'ì', 'ỉ', 'ĩ', 'ị', 'Í', 'Ì', 'Ỉ', 'Ĩ', 'Ị']),
   (L 'o', ['ó', 'ò', 'ỏ', 'õ', 'ọ', 'ô', 'ố', 'ồ', 'ổ', 'ỗ', 'ộ', 'ơ', 'ớ', 'ờ', 'ở', 'ỡ',
     'ợ', 'Ó', 'Ò', 'Ỏ', 'Õ', 'Ọ', 'Ô', 'Ố', 'Ồ', 'Ổ', 'Ỗ', 'Ộ', 'Ơ', 'Ớ', 'Ờ', 'Ở', 'Ỡ',
     'Ợ']),
   (L 'u', ['ú', 'ù', 'ủ', 'ũ', 'ụ', 'ư', 'ứ', 'ừ', 'ử', 'ữ', 'ự', 'Ú', 'Ù', 'Ủ', 'Ũ', 'Ụ',
     'Ư', 'Ứ', 'Ừ', 'Ử', 'Ữ', 'Ự']),
   (L 'y', ['ý', 'ỳ', 'ỷ', 'ỹ', 'ỵ', 'Ý', 'Ỳ', 'Ỷ', 'Ỹ', 'Ỵ'])]

/-- The letter without its marks. -/
def baseLetter (ch : WChar) : WChar :=
  ((markedForms.find? fun forms => forms.2.any (L · == ch)).map Prod.fst).getD ch

/-- The capital of a character does not depend on the locale. -/
def hasUpperRule (ch : WChar) : Bool :=
  decide (ch < 0x80) || decide (0xE0 ≤ ch ∧ ch ≤ 0xF6) || decide (0xF8 ≤ ch ∧ ch ≤ 0xFE) ||
    [L 'ă', L 'đ', L 'ĩ', L 'ũ', L 'ơ', L 'ư'].contains ch || decide (0x1EA0 ≤ ch ∧ ch ≤ 0x1EF9)

/-- The vowels. -/
def vowels : List WChar := [L 'a', L 'e', L 'i', L 'o', L 'u', L 'y']

/-- A rendered vowel is the vowel without its marks, and so is its capital. -/
def showsVowel (base : WChar) (mod : Modifier) (tone : Tone) : Bool :=
  let ch := applyTone (applyModifier { base, mod }) tone
  let capital := @toUpperVietnamese cLocale ch
  hasUpperRule ch && baseLetter ch == base && decide (baseLetter capital < 0x80) &&
    asciiLower (baseLetter capital) == base

theorem showsVowel_of_mem_vowels (mod : Modifier) (tone : Tone) :
    ∀ base ∈ vowels, showsVowel base mod tone = true := by
  cases mod <;> cases tone <;> decide +kernel

variable [WideCType]

/-- Characters that the case conversions of the program lead into each other. -/
def CaseEq : WChar → WChar → Prop :=
  Relation.EqvGen fun a b => towlower a = b ∨ towupper a = b ∨ toUpperVietnamese a = b

theorem CaseEq.refl (a : WChar) : CaseEq a a := Relation.EqvGen.refl a

theorem CaseEq.symm {a b : WChar} (h : CaseEq a b) : CaseEq b a := Relation.EqvGen.symm _ _ h

theorem CaseEq.trans {a b c : WChar} (h : CaseEq a b) (h' : CaseEq b c) : CaseEq a c :=
  Relation.EqvGen.trans _ _ _ h h'

theorem caseEq_towlower (a : WChar) : CaseEq a (towlower a) := .rel _ _ (.inl rfl)

theorem caseEq_towupper (a : WChar) : CaseEq a (towupper a) := .rel _ _ (.inr (.inl rfl))

theorem caseEq_toUpperVietnamese (a : WChar) : CaseEq a (toUpperVietnamese a) :=
  .rel _ _ (.inr (.inr rfl))

/-- A character shows a letter, in any case and with any marks. -/
def ShowsLetter (letter ch : WChar) : Prop := CaseEq ch letter ∨ CaseEq (baseLetter ch) letter

/-- A text shows letters in their order. -/
def ShowsLetters (letters text : List WChar) : Prop := List.SublistForall₂ ShowsLetter letters text

/-! ## Rendered letters -/

theorem toUpperVietnamese_eq_cLocale {ch : WChar} (h : hasUpperRule ch = true) :
    toUpperVietnamese ch = @toUpperVietnamese cLocale ch := by
  unfold toUpperVietnamese
  repeat' refine ite_congr rfl (fun _ => rfl) fun _ => ?_
  by_cases hascii : ch < 0x80
  · exact WideCType.towupper_ascii ch hascii
  · simp_all [hasUpperRule]

omit [WideCType] in
theorem mem_vowels_iff (s : CharState) : s.isVowel = true ↔ s.base ∈ vowels := by
  simp [CharState.isVowel, vowels, or_assoc]

/-- A rendered vowel shows the vowel. -/
theorem showsLetter_compose_vowel {s : CharState} (hvowel : s.isVowel = true) (hne : s.base ≠ 0) :
    ShowsLetter s.base (compose s) := by
  have hmem := (mem_vowels_iff s).mp hvowel
  have hd : s.isD = false := by
    simp only [vowels, List.mem_cons, List.not_mem_nil, or_false] at hmem
    rcases hmem with h | h | h | h | h | h <;> (rw [CharState.isD, h]; decide)
  have hshows := showsVowel_of_mem_vowels s.mod s.tone s.base hmem
  have hmod : applyModifier { base := s.base, mod := s.mod } = applyModifier s := rfl
  simp only [showsVowel, hmod, Bool.and_eq_true, beq_iff_eq, decide_eq_true_eq] at hshows
  obtain ⟨⟨⟨hrule, hbase⟩, hascii⟩, hlower⟩ := hshows
  unfold compose
  rw [if_neg hne, if_neg (by simp [hd])]
  dsimp only
  split
  · rw [toUpperVietnamese_eq_cLocale hrule]
    refine .inr ?_
    have hcase := caseEq_towlower (baseLetter (@toUpperVietnamese cLocale
      (applyTone (applyModifier s) s.tone)))
    rw [WideCType.towlower_ascii _ hascii] at hcase
    exact hlower ▸ hcase
  · exact .inr (hbase ▸ CaseEq.refl _)

/-- A rendered letter shows the letter. -/
theorem showsLetter_compose {s : CharState} (h : StateWellFormed s) :
    ShowsLetter s.base (compose s) := by
  by_cases hvowel : s.isVowel = true
  · exact showsLetter_compose_vowel hvowel h.base_ne_zero
  · have htone : s.tone = .none := by
      by_contra htone
      exact hvowel (h.vowel htone)
    have hch : applyTone (applyModifier s) s.tone = s.base := by
      rw [htone, applyModifier, if_neg fun hmod => hvowel hmod.2]
      unfold applyTone
      cases toneBaseIndex s.base <;> rfl
    unfold compose
    rw [if_neg h.base_ne_zero, hch]
    split
    · rename_i hstroke
      have hd : s.base = L 'd' := by simpa [CharState.isD] using hstroke.1
      refine .inr ?_
      rw [hd]
      split <;> exact CaseEq.refl _
    dsimp only
    split
    · exact .inl (caseEq_toUpperVietnamese s.base).symm
    · exact .inl (CaseEq.refl _)

theorem showsLetters_composeAll {ss : List CharState} (h : LettersWellFormed ss) :
    ShowsLetters (ss.map CharState.base) (composeAll ss) := by
  have hall : (ss.map compose).filter (· != 0) = ss.map compose := by
    rw [List.filter_eq_self]
    intro ch hch
    obtain ⟨s, hs, rfl⟩ := List.mem_map.mp hch
    simpa using compose_ne_zero (h s hs).base_ne_zero
  refine List.sublistForall₂_iff.mpr ⟨ss.map compose, ?_, ?_⟩
  · rw [List.forall₂_map_left_iff, List.forall₂_map_right_iff, List.forall₂_same]
    exact fun s hs => showsLetter_compose (h s hs)
  · rw [composeAll, hall]

/-! ## Raw keystrokes of the letters -/

/-- The indices of a state are in range, and its raw keystroke is its letter. -/
structure StateKeyed (raw : List WChar) (n : Nat) (s : CharState) : Prop where
  rawIdx_lt : s.rawIdx < n
  key_eq : towlower (raw.getD s.rawIdx 0) = s.base
  toneRawIdx_lt : ∀ t, s.toneRawIdx = some t → t < n

/-- No two tones come from one raw keystroke. -/
def HasDistinctToneKeys (ss : List CharState) : Prop :=
  ss.Pairwise fun a b => a.toneRawIdx = none ∨ a.toneRawIdx ≠ b.toneRawIdx

/-- Every letter and every tone has a raw keystroke of its own, the letters in their order. -/
structure Keyed (ss : List CharState) (raw : List WChar) (n : Nat) : Prop where
  sorted : ss.Pairwise fun a b => a.rawIdx < b.rawIdx
  keyed : ∀ s ∈ ss, StateKeyed raw n s
  apart : ∀ s ∈ ss, ∀ s' ∈ ss, s.toneRawIdx ≠ some s'.rawIdx
  distinct : HasDistinctToneKeys ss

section Keys

variable {config : TypingConfig} {hz : Hazards} {key : WChar}

omit [WideCType] in
theorem hasDistinctToneKeys_iff {ss : List CharState} :
    HasDistinctToneKeys ss ↔ ∀ i j, i ≠ j →
      (stateAt ss i).toneRawIdx = none ∨ (stateAt ss i).toneRawIdx ≠ (stateAt ss j).toneRawIdx := by
  refine pairwise_iff_stateAt
    (R := fun a b => a.toneRawIdx = none ∨ a.toneRawIdx ≠ b.toneRawIdx) (fun a b h => ?_)
    fun a => ?_
  · rcases h with h | h
    · rw [h]
      exact (eq_or_ne b.toneRawIdx none)
    · exact .inr h.symm
  · exact eq_or_ne a.toneRawIdx none

omit [WideCType] in
theorem HasDistinctToneKeys.modify {ss : List CharState} (h : HasDistinctToneKeys ss) (i : Nat)
    {f : CharState → CharState}
    (hf : ∀ s, (f s).toneRawIdx = s.toneRawIdx ∨ (f s).toneRawIdx = none) :
    HasDistinctToneKeys (ss.modify i f) := by
  rw [hasDistinctToneKeys_iff] at h ⊢
  have hkey : ∀ j, (stateAt (ss.modify i f) j).toneRawIdx = (stateAt ss j).toneRawIdx ∨
      (stateAt (ss.modify i f) j).toneRawIdx = none := by
    intro j
    rw [stateAt_modify]
    split_ifs
    · exact hf _
    · exact .inl rfl
  intro j k hjk
  rcases hkey j with hj | hj
  · rw [hj]
    rcases hkey k with hk | hk
    · rw [hk]
      exact h j k hjk
    · rw [hk]
      exact eq_or_ne _ _
  · exact .inl hj

omit [WideCType] in
theorem stateAt_setTone_toneRawIdx (ss : List CharState) (i : Nat) (tone : Tone)
    (idx : Option Nat) (j : Nat) :
    (stateAt (setTone ss i tone idx) j).toneRawIdx =
      if i = j ∧ j < ss.length then idx else (stateAt ss j).toneRawIdx := by
  unfold setTone
  rw [stateAt_modify]
  split_ifs <;> rfl

omit [WideCType] in
/-- Moving a tone with its raw key. -/
theorem HasDistinctToneKeys.relocate {ss : List CharState} (h : HasDistinctToneKeys ss)
    (i j : Nat) (tone tone' : Tone) :
    HasDistinctToneKeys
      (setTone (setTone ss j tone (stateAt ss i).toneRawIdx) i tone' none) := by
  rw [hasDistinctToneKeys_iff] at h ⊢
  have hkey : ∀ k, (stateAt (setTone (setTone ss j tone (stateAt ss i).toneRawIdx) i tone' none)
      k).toneRawIdx = none ∨
      (stateAt (setTone (setTone ss j tone (stateAt ss i).toneRawIdx) i tone' none)
        k).toneRawIdx = (stateAt ss (if k = j then i else k)).toneRawIdx ∧ k ≠ i := by
    intro k
    rw [stateAt_setTone_toneRawIdx, stateAt_setTone_toneRawIdx, length_setTone]
    by_cases hlt : k < ss.length
    · by_cases hki : k = i
      · exact .inl (if_pos ⟨hki.symm, hlt⟩)
      · refine .inr ⟨?_, hki⟩
        rw [if_neg fun hk => hki hk.1.symm]
        by_cases hkj : k = j
        · rw [if_pos ⟨hkj.symm, hlt⟩, if_pos hkj]
        · rw [if_neg fun hk => hkj hk.1.symm, if_neg hkj]
    · rw [if_neg fun hk => hlt hk.2, if_neg fun hk => hlt hk.2, stateAt_of_le (by omega)]
      exact .inl rfl
  intro a b hab
  rcases hkey a with ha | ⟨ha, hai⟩
  · exact .inl ha
  · rw [ha]
    rcases hkey b with hb | ⟨hb, hbi⟩
    · rw [hb]
      exact eq_or_ne _ _
    · rw [hb]
      apply h
      split_ifs <;> omega

/-! ### Marks keep the keys -/

/-- The raw index and the base of every letter. -/
def letterKeys (ss : List CharState) : List (Nat × WChar) := ss.map fun s => (s.rawIdx, s.base)

omit [WideCType] in
theorem letterKeys_modify {f : CharState → CharState}
    (hf : ∀ s, (f s).rawIdx = s.rawIdx ∧ (f s).base = s.base) (ss : List CharState) (i : Nat) :
    letterKeys (ss.modify i f) = letterKeys ss := by
  apply List.ext_getElem
  · simp [letterKeys]
  · intro j h₁ h₂
    simp only [letterKeys, List.getElem_map, List.getElem_modify]
    split_ifs <;> simp [hf]

omit [WideCType] in
theorem letterKeys_setTone (ss : List CharState) (i : Nat) (tone : Tone) (idx : Option Nat) :
    letterKeys (setTone ss i tone idx) = letterKeys ss := by
  apply letterKeys_modify
  intro s
  exact ⟨rfl, rfl⟩

/-- States that keep the letters and whose tones come from the same raw keys. -/
theorem Keyed.of_letterKeys_eq {ss ss' : List CharState} {raw : List WChar} {n : Nat}
    (h : Keyed ss raw n) (hkeys : letterKeys ss' = letterKeys ss)
    (hsub : ∀ s' ∈ ss', ∀ t, s'.toneRawIdx = some t → ∃ s ∈ ss, s.toneRawIdx = some t)
    (hdistinct : HasDistinctToneKeys ss') : Keyed ss' raw n := by
  have hmem : ∀ s' ∈ ss', ∃ s ∈ ss, s.rawIdx = s'.rawIdx ∧ s.base = s'.base := by
    intro s' hs'
    have hpair : (s'.rawIdx, s'.base) ∈ letterKeys ss := by
      rw [← hkeys]
      exact List.mem_map_of_mem hs'
    obtain ⟨s, hs, heq⟩ := List.mem_map.mp hpair
    exact ⟨s, hs, congrArg Prod.fst heq, congrArg Prod.snd heq⟩
  refine ⟨?_, fun s' hs' => ?_, fun s' hs' s'' hs'' heq => ?_, hdistinct⟩
  · have hsorted : (letterKeys ss).Pairwise fun a b => a.1 < b.1 :=
      List.pairwise_map.mpr h.sorted
    rw [← hkeys, letterKeys, List.pairwise_map] at hsorted
    exact hsorted
  · obtain ⟨s, hs, hraw, hbase⟩ := hmem s' hs'
    have hkeyed := h.keyed s hs
    refine ⟨hraw ▸ hkeyed.rawIdx_lt, hraw ▸ hbase ▸ hkeyed.key_eq, fun t ht => ?_⟩
    obtain ⟨s₁, hs₁, ht₁⟩ := hsub s' hs' t ht
    exact (h.keyed s₁ hs₁).toneRawIdx_lt t ht₁
  · obtain ⟨s₁, hs₁, ht₁⟩ := hsub s' hs' _ heq
    obtain ⟨s₂, hs₂, hraw, -⟩ := hmem s'' hs''
    exact h.apart s₁ hs₁ s₂ hs₂ (hraw ▸ ht₁)

theorem Keyed.modify {ss : List CharState} {raw : List WChar} {n : Nat} (h : Keyed ss raw n)
    (i : Nat) {f : CharState → CharState}
    (hf : ∀ s, (f s).rawIdx = s.rawIdx ∧ (f s).base = s.base)
    (hkey : ∀ s, (f s).toneRawIdx = s.toneRawIdx ∨ (f s).toneRawIdx = none) :
    Keyed (ss.modify i f) raw n := by
  refine h.of_letterKeys_eq (letterKeys_modify hf ss i) ?_ (h.distinct.modify i hkey)
  refine forall_mem_modify (fun s hs t ht => ⟨s, hs, ht⟩) fun hi t ht => ?_
  refine ⟨ss[i], List.getElem_mem hi, ?_⟩
  rcases hkey ss[i] with hsame | hnone
  · exact hsame.symm.trans ht
  · rw [hnone] at ht
    exact absurd ht (by simp)

theorem Keyed.clearTone {ss : List CharState} {raw : List WChar} {n : Nat} (h : Keyed ss raw n)
    (i : Nat) : Keyed (setTone ss i .none none) raw n :=
  h.modify i (fun _ => ⟨rfl, rfl⟩) fun _ => .inr rfl

theorem Keyed.relocate {ss : List CharState} {raw : List WChar} {n : Nat} (h : Keyed ss raw n)
    {i : Nat} (htoned : (stateAt ss i).hasTone = true) (j : Nat) :
    Keyed (setTone (setTone ss j (stateAt ss i).tone (stateAt ss i).toneRawIdx) i .none none)
      raw n := by
  have hi : i < ss.length := by
    by_contra hle
    rw [stateAt_of_le (by omega)] at htoned
    exact absurd htoned (by decide)
  refine h.of_letterKeys_eq ?_ ?_ (h.distinct.relocate i j _ _)
  · rw [letterKeys_setTone, letterKeys_setTone]
  · refine forall_mem_modify (forall_mem_modify (fun s hs t ht => ⟨s, hs, ht⟩) ?_) ?_
    · intro hj t ht
      exact ⟨stateAt ss i, stateAt_eq_getElem hi ▸ List.getElem_mem hi, ht⟩
    · intro hi' t ht
      simp at ht

/-! ### Edits keep the keys -/

/-- Every letter and tone of a draft has a key of its own, and a pending key is the last one. -/
structure Draft.Keyed (key : WChar) (d : Draft) : Prop where
  keyed : VKey.Keyed d.states d.rawInput d.bound
  ne_nil : d.rawInput ≠ []
  last : d.pending = true → d.rawInput.getLast? = some key

theorem StateKeyed.mono {raw : List WChar} {n m : Nat} {s : CharState} (h : StateKeyed raw n s)
    (hnm : n ≤ m) : StateKeyed raw m s :=
  ⟨Nat.lt_of_lt_of_le h.rawIdx_lt hnm, h.key_eq, fun t ht =>
    Nat.lt_of_lt_of_le (h.toneRawIdx_lt t ht) hnm⟩

theorem Keyed.mono {ss : List CharState} {raw : List WChar} {n m : Nat} (h : Keyed ss raw n)
    (hnm : n ≤ m) : Keyed ss raw m :=
  ⟨h.sorted, fun s hs => (h.keyed s hs).mono hnm, h.apart, h.distinct⟩

/-- A letter behind the others, with a raw key no tone came from. -/
theorem Keyed.append {ss : List CharState} {raw : List WChar} {n : Nat} {s : CharState}
    (h : Keyed ss raw n) (hs : StateKeyed raw n s) (hnone : s.toneRawIdx = none)
    (hlt : ∀ a ∈ ss, a.rawIdx < s.rawIdx) (hapart : ∀ a ∈ ss, a.toneRawIdx ≠ some s.rawIdx) :
    Keyed (ss ++ [s]) raw n := by
  refine ⟨?_, ?_, ?_, ?_⟩
  · exact List.pairwise_append.mpr ⟨h.sorted, List.pairwise_singleton _ _, by simpa using hlt⟩
  · simpa [or_imp, forall_and] using ⟨h.keyed, hs⟩
  · intro a ha b hb
    rw [List.mem_append, List.mem_singleton] at ha hb
    rcases ha with ha | rfl
    · rcases hb with hb | rfl
      · exact h.apart a ha b hb
      · exact hapart a ha
    · simp [hnone]
  · refine List.pairwise_append.mpr ⟨h.distinct, List.pairwise_singleton _ _, ?_⟩
    intro a _ b hb
    rw [List.mem_singleton.mp hb, hnone]
    exact eq_or_ne _ _

/-- A letter inserted in its place, with a raw key nothing else refers to. -/
theorem Keyed.insert {ss : List CharState} {raw : List WChar} {n : Nat} {s : CharState}
    (h : Keyed ss raw n) (hs : StateKeyed raw n s) (hnone : s.toneRawIdx = none)
    (hne : ∀ a ∈ ss, a.rawIdx ≠ s.rawIdx) (hapart : ∀ a ∈ ss, a.toneRawIdx ≠ some s.rawIdx) :
    Keyed (insertByRawIdx ss s) raw n := by
  refine ⟨?_, ?_, ?_, ?_⟩
  · refine pairwise_insertIdx_findIdx h.sorted (fun a ha hnot => ?_) (fun a hlt => hlt)
      fun a b hlt hab => by omega
    have hne' := hne a ha
    omega
  · intro a ha
    rcases mem_of_mem_insertIdx ha with rfl | ha
    · exact hs
    · exact h.keyed a ha
  · intro a ha b hb
    rcases mem_of_mem_insertIdx ha with heq | ha'
    · rw [heq, hnone]
      simp
    · rcases mem_of_mem_insertIdx hb with heq | hb'
      · rw [heq]
        exact hapart a ha'
      · exact h.apart a ha' b hb'
  · have hcons : HasDistinctToneKeys (s :: ss) :=
      List.pairwise_cons.mpr ⟨fun _ _ => .inl hnone, h.distinct⟩
    unfold insertByRawIdx
    by_cases hle : (ss.findIdx? fun a => decide (s.rawIdx < a.rawIdx)).getD ss.length ≤ ss.length
    · refine (List.Perm.pairwise_iff (fun {a b} hab => ?_) (List.perm_insertIdx s ss hle)).mpr hcons
      rcases hab with hab | hab
      · rw [hab]
        exact eq_or_ne _ _
      · exact .inr hab.symm
    · rw [List.insertIdx_of_length_lt (by omega)]
      exact h.distinct

theorem Draft.Keyed.withStates {p : Bool} {ss ss' : List CharState} {raw : List WChar}
    (h : Draft.Keyed key ⟨p, ss, raw⟩)
    (h' : VKey.Keyed ss' raw (Draft.bound ⟨p, ss, raw⟩)) : Draft.Keyed key ⟨p, ss', raw⟩ :=
  ⟨h', h.ne_nil, h.last⟩

/-- The pending key as a letter. -/
theorem Draft.Keyed.append {ss : List CharState} {raw : List WChar} {s : CharState}
    (h : Draft.Keyed key ⟨true, ss, raw⟩) (hletter : IsLetter hz s)
    (hidx : s.rawIdx = raw.length - 1) (hbase : s.base = towlower key) :
    Draft.Keyed key ⟨false, ss ++ [s], raw⟩ := by
  have hpos := List.length_pos_iff.mpr h.ne_nil
  have hkeyed : VKey.Keyed ss raw (raw.length - 1) := h.keyed
  have hmono : VKey.Keyed ss raw raw.length := hkeyed.mono (Nat.sub_le _ _)
  refine ⟨hmono.append ⟨?_, ?_, ?_⟩ hletter.toneRawIdx_eq ?_ ?_, h.ne_nil, by simp⟩
  · rw [hidx]
    exact Nat.sub_lt hpos Nat.one_pos
  · rw [hidx, getD_last (h.last rfl), hbase]
  · simp [hletter.toneRawIdx_eq]
  · intro a ha
    rw [hidx]
    exact (hkeyed.keyed a ha).rawIdx_lt
  · intro a ha heq
    have hlt := (hkeyed.keyed a ha).toneRawIdx_lt _ heq
    omega

/-- The pending key as a tone. -/
theorem Draft.Keyed.tone {ss : List CharState} {raw : List WChar} (i : Nat) (tone : Tone)
    (h : Draft.Keyed key ⟨true, ss, raw⟩) :
    Draft.Keyed key ⟨false, setTone ss i tone (some (raw.length - 1)), raw⟩ := by
  have hpos := List.length_pos_iff.mpr h.ne_nil
  have hkeyed : VKey.Keyed ss raw (raw.length - 1) := h.keyed
  have hmono : VKey.Keyed ss raw raw.length := hkeyed.mono (by omega)
  have hfresh : ∀ a ∈ ss, a.toneRawIdx ≠ some (raw.length - 1) := by
    intro a ha heq
    have hlt := (hkeyed.keyed a ha).toneRawIdx_lt _ heq
    omega
  refine ⟨⟨?_, ?_, ?_, ?_⟩, h.ne_nil, by simp⟩
  · have hsorted : (letterKeys ss).Pairwise fun a b => a.1 < b.1 :=
      List.pairwise_map.mpr hkeyed.sorted
    rw [← letterKeys_setTone ss i tone (some (raw.length - 1)), letterKeys,
      List.pairwise_map] at hsorted
    exact hsorted
  · refine forall_mem_modify hmono.keyed fun hi => ?_
    have hs := hmono.keyed _ (List.getElem_mem hi)
    refine ⟨hs.rawIdx_lt, hs.key_eq, ?_⟩
    rintro t ⟨⟩
    dsimp only [Draft.bound] at hpos ⊢
    simp
    omega
  · have hidx : ∀ b ∈ setTone ss i tone (some (raw.length - 1)), b.rawIdx < raw.length - 1 ∧
        ∀ a ∈ ss, a.toneRawIdx ≠ some b.rawIdx := by
      refine forall_mem_modify (fun b hb => ⟨(hkeyed.keyed b hb).rawIdx_lt, fun a ha =>
        hkeyed.apart a ha b hb⟩) fun hi => ⟨?_, fun a ha => ?_⟩
      · exact (hkeyed.keyed _ (List.getElem_mem hi)).rawIdx_lt
      · exact hkeyed.apart a ha ss[i] (List.getElem_mem hi)
    refine forall_mem_modify (fun a ha b hb => (hidx b hb).2 a ha) fun hi b hb heq => ?_
    have hlt := (hidx b hb).1
    have hval : raw.length - 1 = b.rawIdx := by simpa using heq
    omega
  · rw [hasDistinctToneKeys_iff]
    have hdistinct := hasDistinctToneKeys_iff.mp hkeyed.distinct
    have hother : ∀ k, (stateAt ss k).toneRawIdx ≠ some (raw.length - 1) := by
      intro k
      by_cases hk : k < ss.length
      · rw [stateAt_eq_getElem hk]
        exact hfresh _ (List.getElem_mem hk)
      · rw [stateAt_of_le (by omega)]
        simp
    intro a b hab
    rw [stateAt_setTone_toneRawIdx, stateAt_setTone_toneRawIdx]
    by_cases ha : i = a ∧ a < ss.length
    · rw [if_pos ha, if_neg fun hb => hab (ha.1.symm.trans hb.1)]
      exact .inr (hother b).symm
    · rw [if_neg ha]
      by_cases hb : i = b ∧ b < ss.length
      · rw [if_pos hb]
        exact .inr (hother a)
      · rw [if_neg hb]
        exact hdistinct a b hab

theorem Keyed.map_shiftRaw {ss : List CharState} {raw : List WChar} {n : Nat}
    (h : VKey.Keyed ss raw n) : ss.map (CharState.shiftRaw n) = ss := by
  refine (List.map_congr_left fun s hs => ?_).trans (List.map_id' ss)
  have hs := h.keyed s hs
  exact CharState.shiftRaw_of_le (Nat.le_of_lt hs.rawIdx_lt) fun t ht =>
    Nat.le_of_lt (hs.toneRawIdx_lt t ht)

/-- Once its tone is cleared, nothing refers to the raw key of a tone. -/
theorem Keyed.clearTone_free {ss : List CharState} {raw : List WChar} {n i idx : Nat}
    (h : VKey.Keyed ss raw n) (hidx : (stateAt ss i).toneRawIdx = some idx) :
    ∀ a ∈ setTone ss i .none none, a.rawIdx ≠ idx ∧ a.toneRawIdx ≠ some idx := by
  have hi : i < ss.length := by
    by_contra hle
    rw [stateAt_of_le (by omega)] at hidx
    exact absurd hidx (by simp)
  have hmem : stateAt ss i ∈ ss := stateAt_eq_getElem hi ▸ List.getElem_mem hi
  intro a ha
  obtain ⟨k, hk, rfl⟩ := List.mem_iff_getElem.mp ha
  rw [← stateAt_eq_getElem hk]
  have hk' : k < ss.length := by simpa using hk
  refine ⟨fun heq => ?_, ?_⟩
  · rw [stateAt_rawIdx, rawIdxs_setTone, ← stateAt_rawIdx, stateAt_eq_getElem hk'] at heq
    exact h.apart _ hmem _ (List.getElem_mem hk') (heq ▸ hidx)
  · rw [stateAt_setTone_toneRawIdx]
    split_ifs with hik
    · simp
    · intro heq
      rcases hasDistinctToneKeys_iff.mp h.distinct k i (by omega) with hnone | hne
      · simp [hnone] at heq
      · exact hne (heq.trans hidx.symm)

/-- The pending key as a letter in the place of a tone it takes back. -/
theorem Draft.Keyed.putBack {ss : List CharState} {raw : List WChar} {i idx : Nat}
    {s : CharState} (h : Draft.Keyed key ⟨true, ss, raw⟩)
    (htoneRawIdx : (stateAt ss i).toneRawIdx = some idx) (hletter : IsLetter hz s)
    (hidx : s.rawIdx = idx) (hbase : s.base = towlower key) :
    Draft.Keyed key
      ⟨false, insertByRawIdx ((setTone ss i .none none).map
        (CharState.shiftRaw (raw.length - 1))) s,
        (raw.eraseIdx (raw.length - 1)).set idx key⟩ := by
  have hpos : 0 < raw.length := List.length_pos_iff.mpr h.ne_nil
  have hkeyed : VKey.Keyed ss raw (raw.length - 1) := h.keyed
  have hi : i < ss.length := by
    by_contra hle
    rw [stateAt_of_le (by omega)] at htoneRawIdx
    exact absurd htoneRawIdx (by simp)
  have hlt : idx < raw.length - 1 := by
    refine (hkeyed.keyed (stateAt ss i) ?_).toneRawIdx_lt idx htoneRawIdx
    exact stateAt_eq_getElem hi ▸ List.getElem_mem hi
  have hlen : (raw.eraseIdx (raw.length - 1)).length = raw.length - 1 :=
    List.length_eraseIdx_of_lt (by omega)
  have hget : ∀ t, t < raw.length - 1 →
      ((raw.eraseIdx (raw.length - 1)).set idx key).getD t 0 =
        if idx = t then key else raw.getD t 0 := by
    intro t ht
    rw [getD_set _ _ _ _ _ (by omega), getD_eraseIdx, if_pos ht]
  have hfree := hkeyed.clearTone_free htoneRawIdx
  have hcleared := hkeyed.clearTone i
  rw [hcleared.map_shiftRaw]
  have hrest : VKey.Keyed (setTone ss i .none none)
      ((raw.eraseIdx (raw.length - 1)).set idx key) (raw.length - 1) := by
    refine ⟨hcleared.sorted, fun a ha => ?_, hcleared.apart, hcleared.distinct⟩
    have hstate := hcleared.keyed a ha
    refine ⟨hstate.rawIdx_lt, ?_, hstate.toneRawIdx_lt⟩
    rw [hget _ hstate.rawIdx_lt, if_neg (hfree a ha).1.symm]
    exact hstate.key_eq
  refine ⟨?_, ?_, by simp⟩
  · have hbound : Draft.bound ⟨false, insertByRawIdx (setTone ss i .none none) s,
        (raw.eraseIdx (raw.length - 1)).set idx key⟩ = raw.length - 1 := by
      simp [Draft.bound]
    rw [hbound]
    refine hrest.insert ⟨hidx ▸ hlt, ?_, by simp [hletter.toneRawIdx_eq]⟩ hletter.toneRawIdx_eq
      (fun a ha => hidx ▸ (hfree a ha).1) fun a ha => hidx ▸ (hfree a ha).2
    rw [hidx, hget idx hlt, if_pos rfl, hbase]
  · intro hnil
    have hzero := congrArg List.length hnil
    simp only [List.length_set, hlen, List.length_nil] at hzero
    omega

/-- The key of the last letter's tone as a letter. -/
theorem Draft.Keyed.literal {p : Bool} {ss : List CharState} {raw : List WChar} {t : Nat}
    {k : WChar} {s : CharState} (h : Draft.Keyed key ⟨p, ss, raw⟩) (hne : ss ≠ [])
    (htoneRawIdx : (stateAt ss (ss.length - 1)).toneRawIdx = some t) (hkey : raw[t]? = some k)
    (horder : ¬ t < (stateAt ss (ss.length - 1)).rawIdx) (hletter : IsLetter hz s)
    (hidx : s.rawIdx = t) (hbase : s.base = towlower k) :
    Draft.Keyed key ⟨p, setTone ss (ss.length - 1) .none none ++ [s], raw⟩ := by
  have hpos := List.length_pos_iff.mpr hne
  have hlast : ss.length - 1 < ss.length := by omega
  have hmem : stateAt ss (ss.length - 1) ∈ ss :=
    stateAt_eq_getElem hlast ▸ List.getElem_mem hlast
  have hlt := (h.keyed.keyed _ hmem).toneRawIdx_lt t htoneRawIdx
  have hfree := h.keyed.clearTone_free htoneRawIdx
  refine h.withStates ((h.keyed.clearTone _).append ⟨hidx ▸ hlt, ?_, by simp
    [hletter.toneRawIdx_eq]⟩ hletter.toneRawIdx_eq (fun a ha =>
      ?_) fun a ha => hidx ▸ (hfree a ha).2)
  · rw [hidx, hbase]
    dsimp only
    rw [List.getD_eq_getElem?_getD, hkey, Option.getD_some]
  · have hneIdx := (hfree a ha).1
    have hle : a.rawIdx ≤ (stateAt ss (ss.length - 1)).rawIdx := by
      obtain ⟨j, hj, rfl⟩ := List.mem_iff_getElem.mp ha
      have hj' : j < ss.length := by simpa using hj
      rw [← stateAt_eq_getElem hj, stateAt_rawIdx, rawIdxs_setTone, ← stateAt_rawIdx,
        stateAt_eq_getElem hj', stateAt_eq_getElem hlast]
      rcases Nat.lt_or_eq_of_le (Nat.le_sub_one_of_lt hj') with hjlt | hjeq
      · exact Nat.le_of_lt (List.pairwise_iff_getElem.mp h.keyed.sorted _ _ hj' hlast hjlt)
      · simp [hjeq]
    omega

/-- An edit of the VNI method that puts no literal out of order leaves every letter and tone with
a raw key of its own. -/
theorem Edit.keyed {d d' : Draft} (hedit : Edit config hz key d d') (hvni : ¬ hz.beyondVni)
    (horder : ¬ hz.outOfOrder) (h : d.Keyed key) : d'.Keyed key := by
  cases hedit with
  | append letter rawIdx_eq own =>
      obtain ⟨rfl, hbase⟩ := own.resolve_right hvni
      exact h.append letter rawIdx_eq hbase
  | mark legal => exact h.withStates (h.keyed.modify _ (fun _ => ⟨rfl, rfl⟩) fun _ => .inl rfl)
  | relocate toned ne vowel => exact h.withStates (h.keyed.relocate toned _)
  | @hornRelocate p ss raw i j toned ne vowel hazard =>
      have hmoved := h.keyed.modify j (f := fun s => { s with tone := (stateAt ss i).tone })
        (fun _ => ⟨rfl, rfl⟩) fun _ => .inl rfl
      exact h.withStates (hmoved.modify i (fun _ => ⟨rfl, rfl⟩) fun _ => .inl rfl)
  | clear => exact h.withStates (h.keyed.clearTone _)
  | tone tone_ne vowel tone_eq only => exact h.tone _ _
  | putBack tone_ne toneRawIdx_eq lt tone_eq letter rawIdx_eq base_eq =>
      exact h.putBack toneRawIdx_eq letter rawIdx_eq base_eq
  | literal ne_nil toneRawIdx_eq key_eq order letter rawIdx_eq base_eq =>
      exact h.literal ne_nil toneRawIdx_eq key_eq (fun hlt => horder (order hlt)) letter rawIdx_eq
        base_eq
  | remove hazard => exact absurd hazard hvni
  | swallow ne_nil lt kept hazard => exact absurd hazard hvni
  | clearMarks hazard => exact absurd hazard hvni
  | restart letter rawIdx_eq hazard => exact absurd hazard hvni
  | revertStart tone_eq hazard => exact absurd hazard hvni
  | revertUse length_eq rawIdx_last length_le order letter rawIdx_eq hazard =>
      exact absurd hazard hvni
  | unrevertUse length_eq base_eq length_le tone_eq only hazard => exact absurd hazard hvni

theorem Edits.keyed {d d' : Draft} (hedits : Edits config hz key d d') (hvni : ¬ hz.beyondVni)
    (horder : ¬ hz.outOfOrder) (h : d.Keyed key) : d'.Keyed key := by
  induction hedits with
  | refl => exact h
  | tail _ hedit ih => exact hedit.keyed hvni horder ih

end Keys

namespace TypingEngine

/-! ## Keys and Backspace keep the keys -/

/-- Every letter and every tone of the buffer has a raw keystroke of its own. -/
def HasKeys (e : TypingEngine) : Prop := Keyed e.states e.rawInput e.rawInput.length

/-- An action loses no typed letter: no null character is typed, no literal is put back behind a
letter typed after it, and Backspace deletes no raw key that a remaining letter refers to. -/
def KeepsTypedLetters (e : TypingEngine) : Op → Prop
  | .pushChar key => key ≠ 0 ∧ e.putsLiteralOutOfOrder key = false
  | .backspace => e.strandsRawIndex = false

instance (e : TypingEngine) : (op : Op) → Decidable (e.KeepsTypedLetters op)
  | .pushChar _ => inferInstanceAs (Decidable (_ ∧ _))
  | .backspace => inferInstanceAs (Decidable (_ = _))

theorem keyed_recordKey {e : TypingEngine} (h : e.HasKeys) (key : WChar) (uppercase : Bool) :
    Draft.Keyed key ⟨true, (e.recordKey key uppercase).states,
      (e.recordKey key uppercase).rawInput⟩ := by
  have hbound : Draft.bound ⟨true, e.states, e.rawInput ++ [key]⟩ = e.rawInput.length := by
    simp [Draft.bound]
  refine ⟨⟨h.sorted, fun s hs => ?_, h.apart, h.distinct⟩, by simp [recordKey],
    by simp [recordKey]⟩
  have hstate := h.keyed s hs
  refine ⟨hbound ▸ hstate.rawIdx_lt, ?_, fun t ht => hbound ▸ hstate.toneRawIdx_lt t ht⟩
  rw [show (e.recordKey key uppercase).rawInput = e.rawInput ++ [key] from rfl,
    getD_append_of_lt _ _ hstate.rawIdx_lt]
  exact hstate.key_eq

theorem hasKeys_pushChar {e : TypingEngine} (h : e.HasKeys) (hplain : e.config.IsPlainVni)
    (hidle : QuickIdle e) {key : WChar} (horder : e.putsLiteralOutOfOrder key = false) :
    (e.pushChar key).HasKeys := by
  obtain ⟨p', hpushed⟩ := pushed_pushChar e key
  have hkeyed := hpushed.edits.keyed (by simp [pushHazards, hplain, hidle])
    (by simp [pushHazards, horder]) (keyed_recordKey h key _)
  exact hkeyed.keyed.mono (Draft.bound_le _)

/-- Deleting the last letter with its raw keys, where no other letter refers to them. -/
theorem keyed_popLetter {e : TypingEngine} (h : e.HasKeys) (hdelete : e.deletesRawKeys = true)
    (hkeep : e.strandsRawIndex = false) :
    Keyed e.states.dropLast (e.rawInput.take e.lastState.rawIdx)
      (e.rawInput.take e.lastState.rawIdx).length := by
  have hsub := List.dropLast_sublist e.states
  simp only [strandsRawIndex, hdelete, Bool.true_and, List.any_eq_false, Bool.or_eq_true,
    decide_eq_true_eq, not_or, not_le] at hkeep
  refine ⟨h.sorted.sublist hsub, fun s hs => ?_, fun s hs s' hs' => h.apart s (hsub.subset hs) s'
    (hsub.subset hs'), h.distinct.sublist hsub⟩
  have hstate := h.keyed s (hsub.subset hs)
  obtain ⟨hraw, htone⟩ := hkeep s hs
  rw [List.length_take]
  refine ⟨lt_min hraw hstate.rawIdx_lt, ?_, fun t ht => ?_⟩
  · rw [getD_take _ _ _ _ hraw]
    exact hstate.key_eq
  · rw [ht, Option.any_some, decide_eq_true_eq, not_le] at htone
    exact lt_min htone (hstate.toneRawIdx_lt t ht)

theorem hasKeys_backspace {e : TypingEngine} (h : e.HasKeys) (hidle : QuickIdle e)
    (hkeep : e.strandsRawIndex = false) : e.backspace.HasKeys := by
  obtain ⟨-, -, hcases⟩ := backspace_cases e 0
  unfold HasKeys
  rcases hcases with ⟨hstates, hraw, -⟩ | ⟨hstart, -, -⟩ | ⟨hbusy, -, -⟩ | ⟨hdelete, hstates, hraw⟩
  · rw [hstates, hraw]
    exact h
  · exact absurd hidle.1 hstart
  · exact absurd hidle hbusy
  · rw [hstates, hraw]
    exact keyed_popLetter h hdelete hkeep

/-! ## Runs -/

/-- What a run with the VNI method and without quick consonants preserves. -/
structure TypesPlainVni (e : TypingEngine) : Prop where
  plain : e.config.IsPlainVni
  idle : QuickIdle e
  keys : e.HasKeys
  letters : LettersWellFormed e.states

theorem typesPlainVni_perform {e : TypingEngine} (op : Op) (h : e.TypesPlainVni)
    (hkeep : e.KeepsTypedLetters op) : (e.perform op).TypesPlainVni := by
  cases op with
  | pushChar key =>
      obtain ⟨p', hpushed⟩ := pushed_pushChar e key
      have hconfig : (e.pushChar key).config = e.config := hpushed.config_eq
      refine ⟨?_, ?_, hasKeys_pushChar h.keys h.plain h.idle hkeep.2,
        lettersWellFormed_pushChar h.letters hkeep.1⟩
      · change (e.pushChar key).config.IsPlainVni
        rw [hconfig]
        exact h.plain
      · exact hpushed.idle ⟨h.plain.2.1, h.plain.2.2.1⟩ h.idle
  | backspace =>
      obtain ⟨hconfig, hidle, -⟩ := backspace_cases e 0
      refine ⟨?_, hidle h.idle, hasKeys_backspace h.keys h.idle hkeep,
        lettersWellFormed_backspace h.letters⟩
      change e.backspace.config.IsPlainVni
      rw [hconfig]
      exact h.plain

theorem typesPlainVni_reset {e : TypingEngine} (hplain : e.config.IsPlainVni) :
    e.reset.TypesPlainVni where
  plain := hplain
  idle := ⟨rfl, rfl⟩
  keys := ⟨List.Pairwise.nil, by simp [reset], by simp [reset], List.Pairwise.nil⟩
  letters := by simp [LettersWellFormed, reset]

/-! ## Commit -/

/-- A text contains letters in their order, in some case. -/
def TypesLetters (letters text : List WChar) : Prop :=
  List.SublistForall₂ (fun letter ch => CaseEq ch letter) letters text

theorem TypesLetters.showsLetters {letters text : List WChar} (h : TypesLetters letters text) :
    ShowsLetters letters text := by
  obtain ⟨l, hforall, hsub⟩ := List.sublistForall₂_iff.mp h
  exact List.sublistForall₂_iff.mpr ⟨l, hforall.imp fun _ _ hcase => .inl hcase, hsub⟩

theorem TypesLetters.capitalizedRaw {letters raw : List WChar} (h : TypesLetters letters raw)
    (composed : List WChar) : TypesLetters letters (capitalizedRaw raw composed) := by
  unfold TypingEngine.capitalizedRaw
  split
  · split_ifs
    · cases h with
      | nil => exact .nil
      | cons hcase hrest => exact .cons ((caseEq_towupper _).symm.trans hcase) hrest
      | cons_right hrest => exact .cons_right hrest
    · exact h
  · exact h

/-- The raw keystrokes contain the letters of the states in order. -/
theorem typesLetters_rawInput {ss : List CharState} {raw : List WChar}
    (h : Keyed ss raw raw.length) : TypesLetters (ss.map CharState.base) raw := by
  have hlt : ∀ s ∈ ss, s.rawIdx < raw.length := fun s hs => (h.keyed s hs).rawIdx_lt
  refine List.sublistForall₂_iff.mpr ⟨ss.map fun s => raw.getD s.rawIdx 0, ?_, ?_⟩
  · rw [List.forall₂_map_left_iff, List.forall₂_map_right_iff, List.forall₂_same]
    exact fun s hs => (h.keyed s hs).key_eq ▸ caseEq_towlower _
  · have hidx : (ss.pmap (fun s hs => (⟨s.rawIdx, hs⟩ : Fin raw.length)) hlt).Pairwise (· < ·) :=
      h.sorted.pmap hlt fun _ _ _ _ hab => hab
    have hsub := List.map_getElem_sublist hidx
    rw [List.map_pmap] at hsub
    have hget : ss.pmap (fun s hs => raw[(⟨s.rawIdx, hs⟩ : Fin raw.length)]) hlt =
        ss.map fun s => raw.getD s.rawIdx 0 := by
      refine (List.pmap_congr_left ss fun s _ hs _ => ?_).trans (List.pmap_eq_map hlt)
      simp [List.getD_eq_getElem?_getD, hs]
    exact hget ▸ hsub

/-- The composed text shows the letters that were there before the provisional tone is
settled. -/
theorem showsLetters_settled {e : TypingEngine} (h : LettersWellFormed e.states) :
    ShowsLetters (e.states.map CharState.base)
      (composeAll (e.revertProvisionalOoTone (L ' ')).1.states) := by
  have hcleared : ShowsLetters (e.states.map CharState.base)
      (composeAll (setTone e.states (e.states.length - 1) .none none)) := by
    have hbases : (setTone e.states (e.states.length - 1) .none none).map CharState.base =
        e.states.map CharState.base := by
      have hkeys := congrArg (List.map Prod.snd)
        (letterKeys_setTone e.states (e.states.length - 1) .none none)
      simp only [letterKeys, List.map_map] at hkeys
      exact hkeys
    have hcleared := (lettersFit_false_iff.mpr h).clearTone (e.states.length - 1)
    have hshows := showsLetters_composeAll (lettersFit_false_iff.mp hcleared)
    rwa [hbases] at hshows
  have hmore : ∀ more : List CharState, ShowsLetters (e.states.map CharState.base)
      (composeAll (setTone e.states (e.states.length - 1) .none none ++ more)) := by
    intro more
    obtain ⟨l, hforall, hsub⟩ := List.sublistForall₂_iff.mp hcleared
    refine List.sublistForall₂_iff.mpr ⟨l, hforall, hsub.trans ?_⟩
    simp only [composeAll, List.map_append, List.filter_append]
    exact List.sublist_append_left _ _
  unfold revertProvisionalOoTone
  split
  · dsimp only
    split_ifs
    · exact hcleared
    · exact hmore _
    · exact hmore _
  · exact showsLetters_composeAll h

/-- A commit returns the composed text, or the raw keystrokes with the case of the first
letter. -/
theorem committedText_cases (e : TypingEngine) :
    e.committedText = composeAll e.states ∨ e.committedText = e.rawInput ∨
      e.committedText = capitalizedRaw e.rawInput (composeAll e.states) := by
  unfold committedText
  dsimp only
  split_ifs <;> simp

/-- In every run with the VNI method and without quick consonants whose actions lose no typed
letter, the committed text contains the letter of every state of the buffer, in order. -/
theorem commit_shows_letters_of_run (e : TypingEngine) (ops : List Op)
    (hplain : e.config.IsPlainVni) (hops : RunMeets KeepsTypedLetters e.reset ops) :
    ShowsLetters ((e.reset.performAll ops).states.map CharState.base)
      (e.reset.performAll ops).commit.1 := by
  have hrun := performAll_induction TypesPlainVni
    (fun _ op h hkeep => typesPlainVni_perform op h hkeep) (typesPlainVni_reset hplain) hops
  have htyped := typesLetters_rawInput hrun.keys
  rw [← rawInput_revertProvisionalOoTone _ (L ' ')] at htyped
  unfold commit
  dsimp only
  rcases committedText_cases ((e.reset.performAll ops).revertProvisionalOoTone (L ' ')).1 with
    htext | htext | htext
  · exact htext ▸ showsLetters_settled hrun.letters
  · exact htext ▸ htyped.showsLetters
  · exact htext ▸ (htyped.capitalizedRaw _).showsLetters

end TypingEngine

end VKey

namespace VKey.TypingEngine

/-- Typing `vie65t` with the VNI method loses no letter. -/
theorem commit_shows_letters_of_typing_vie65t :
    ShowsLetters
      (((new { inputMethod := .vni }).reset.performAll (typing "vie65t")).states.map
        CharState.base)
      ((new { inputMethod := .vni }).reset.performAll (typing "vie65t")).commit.1 :=
  commit_shows_letters_of_run _ _ (by decide) (by decide +kernel)

/-- After `an1`, Backspace, `ng1` the buffer holds four letters and the commit restores three raw
keystrokes: not every run keeps the typed letters. -/
theorem not_commit_shows_letters_of_every_run :
    ¬ ∀ (config : TypingConfig) (ops : List Op), config.IsPlainVni →
      config.spellCheckEnabled = true → config.autoRestoreEnabled = true →
      ShowsLetters (((new config).reset.performAll ops).states.map CharState.base)
        ((new config).reset.performAll ops).commit.1 := by
  intro h
  have hshows := h { inputMethod := .vni } (typing "an1" ++ [.backspace] ++ typing "ng1")
    (by decide) (by decide) (by decide)
  obtain ⟨l, hforall, hsub⟩ := List.sublistForall₂_iff.mp hshows
  have hlost : ((new { inputMethod := .vni }).reset.performAll
      (typing "an1" ++ [.backspace] ++ typing "ng1")).commit.1.length <
      (((new { inputMethod := .vni }).reset.performAll
        (typing "an1" ++ [.backspace] ++ typing "ng1")).states.map CharState.base).length := by
    decide +kernel
  have hlen := hforall.length_eq
  have hle := hsub.length_le
  omega

end VKey.TypingEngine
