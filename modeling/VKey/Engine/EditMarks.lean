import VKey.Engine.Edit

/-!
# Marks are edits

The functions that change modifiers and tones of the states are sequences of edits, and they keep
the number of states and their raw indices.
-/

namespace VKey

/-! ## Reading changed states -/

theorem stateAt_eq_getElem {ss : List CharState} {i : Nat} (h : i < ss.length) :
    stateAt ss i = ss[i] := by
  simp [stateAt, h]

theorem stateAt_of_le {ss : List CharState} {i : Nat} (h : ss.length ≤ i) : stateAt ss i = {} := by
  simp [stateAt, h]

theorem stateAt_modify (ss : List CharState) (i : Nat) (f : CharState → CharState) (j : Nat) :
    stateAt (ss.modify i f) j =
      if i = j ∧ j < ss.length then f (stateAt ss j) else stateAt ss j := by
  by_cases hj : j < ss.length
  · have hj' : j < (ss.modify i f).length := by simpa using hj
    rw [stateAt_eq_getElem hj', stateAt_eq_getElem hj, List.getElem_modify]
    simp [hj]
  · rw [stateAt_of_le (by simpa using hj), stateAt_of_le (by simpa using hj)]
    simp [hj]

@[simp] theorem length_setMod (ss : List CharState) (i : Nat) (mod : Modifier) :
    (setMod ss i mod).length = ss.length := List.length_modify ..

@[simp] theorem length_setTone (ss : List CharState) (i : Nat) (tone : Tone)
    (toneRawIdx : Option Nat) : (setTone ss i tone toneRawIdx).length = ss.length :=
  List.length_modify ..

@[simp] theorem stateAt_setMod_base (ss : List CharState) (i : Nat) (mod : Modifier) (j : Nat) :
    (stateAt (setMod ss i mod) j).base = (stateAt ss j).base := by
  unfold setMod
  rw [stateAt_modify]
  split_ifs <;> rfl

@[simp] theorem stateAt_setMod_tone (ss : List CharState) (i : Nat) (mod : Modifier) (j : Nat) :
    (stateAt (setMod ss i mod) j).tone = (stateAt ss j).tone := by
  unfold setMod
  rw [stateAt_modify]
  split_ifs <;> rfl

@[simp] theorem length_undoHornU (ss : List CharState) (i : Nat) :
    (undoHornU ss i).length = ss.length := by
  unfold undoHornU
  split_ifs <;> simp

@[simp] theorem stateAt_undoHornU_base (ss : List CharState) (i j : Nat) :
    (stateAt (undoHornU ss i) j).base = (stateAt ss j).base := by
  unfold undoHornU
  split_ifs <;> simp

@[simp] theorem stateAt_undoHornU_tone (ss : List CharState) (i j : Nat) :
    (stateAt (undoHornU ss i) j).tone = (stateAt ss j).tone := by
  unfold undoHornU
  split_ifs <;> simp

@[simp] theorem length_setVowelMod (ss : List CharState) (i : Nat) (mod : Modifier) :
    (setVowelMod ss i mod).length = ss.length := by
  unfold setVowelMod
  split_ifs <;> simp

@[simp] theorem stateAt_setVowelMod_base (ss : List CharState) (i : Nat) (mod : Modifier)
    (j : Nat) : (stateAt (setVowelMod ss i mod) j).base = (stateAt ss j).base := by
  unfold setVowelMod
  split_ifs <;> simp

@[simp] theorem stateAt_setVowelMod_tone (ss : List CharState) (i : Nat) (mod : Modifier)
    (j : Nat) : (stateAt (setVowelMod ss i mod) j).tone = (stateAt ss j).tone := by
  unfold setVowelMod
  split_ifs <;> simp

theorem stateAt_eraseIdx (ss : List CharState) (i j : Nat) :
    stateAt (ss.eraseIdx i) j = stateAt ss (if j < i then j else j + 1) := by
  simp only [stateAt, List.getD_eq_getElem?_getD, List.getElem?_eraseIdx]
  split_ifs <;> rfl

/-! ## Raw indices -/

/-- Erasing a raw keystroke behind the ones a state refers to does not change the state. -/
theorem CharState.shiftRaw_of_le {s : CharState} {n : Nat} (hraw : s.rawIdx ≤ n)
    (htone : ∀ t, s.toneRawIdx = some t → t ≤ n) : s.shiftRaw n = s := by
  unfold CharState.shiftRaw
  rw [if_neg (by omega)]
  cases hidx : s.toneRawIdx with
  | none => cases s; simp_all
  | some t =>
      have ht := htone t hidx
      rw [Option.map_some, if_neg (by omega)]
      cases s
      simp_all

/-! ## What marks leave alone -/

section MarkFree

variable {β : Type} {f : CharState → β}

/-- The function does not depend on the marks of a letter. -/
structure MarkFree (f : CharState → β) : Prop where
  mod : ∀ s mod, f { s with mod } = f s
  tone : ∀ s tone toneRawIdx, f { s with tone, toneRawIdx } = f s

theorem map_modify_of_eq {g : CharState → CharState} (hg : ∀ s, f (g s) = f s)
    (ss : List CharState) (i : Nat) : (ss.modify i g).map f = ss.map f := by
  apply List.ext_getElem
  · simp
  · intro j h₁ h₂
    simp only [List.getElem_map, List.getElem_modify]
    split_ifs <;> simp [hg]

theorem MarkFree.map_setMod (h : MarkFree f) (ss : List CharState) (i : Nat) (mod : Modifier) :
    (setMod ss i mod).map f = ss.map f :=
  map_modify_of_eq (fun s => h.mod s mod) ss i

theorem MarkFree.map_setTone (h : MarkFree f) (ss : List CharState) (i : Nat) (tone : Tone)
    (toneRawIdx : Option Nat) : (setTone ss i tone toneRawIdx).map f = ss.map f :=
  map_modify_of_eq (fun s => h.tone s tone toneRawIdx) ss i

theorem MarkFree.map_hornLeadingU (h : MarkFree f) (ss : List CharState) (i : Nat) :
    (hornLeadingU ss i).map f = ss.map f := by
  unfold hornLeadingU
  split_ifs
  · exact h.map_setMod ss i .horn
  · rfl

end MarkFree

/-- The raw indices of the states. -/
def rawIdxs (ss : List CharState) : List Nat := ss.map CharState.rawIdx

theorem markFree_rawIdx : MarkFree CharState.rawIdx := ⟨fun _ _ => rfl, fun _ _ _ => rfl⟩

theorem rawIdxs_modify {f : CharState → CharState} (hf : ∀ s, (f s).rawIdx = s.rawIdx)
    (ss : List CharState) (i : Nat) : rawIdxs (ss.modify i f) = rawIdxs ss :=
  map_modify_of_eq hf ss i

@[simp] theorem rawIdxs_setTone (ss : List CharState) (i : Nat) (tone : Tone)
    (toneRawIdx : Option Nat) : rawIdxs (setTone ss i tone toneRawIdx) = rawIdxs ss :=
  markFree_rawIdx.map_setTone ss i tone toneRawIdx

/-! ## The tones found -/

theorem findTonedVowelIndex_spec {ss : List CharState} {i : Nat}
    (h : findTonedVowelIndex ss = some i) : (stateAt ss i).hasTone = true := by
  obtain ⟨hi, htoned, -⟩ := List.findIdx?_eq_some_iff_getElem.mp h
  simp only [Bool.and_eq_true] at htoned
  simpa [stateAt, List.getD_eq_getElem?_getD, hi] using htoned.2

theorem relocationToHornVowel_spec {ss : List CharState} {i j : Nat}
    (h : relocationToHornVowel ss = some (i, j)) :
    (stateAt ss i).hasTone = true ∧ j ≠ i ∧ (stateAt ss j).isVowel = true := by
  unfold relocationToHornVowel at h
  split at h
  · rename_i hornIdx tonedIdx hhorn htoned
    dsimp only at h
    split_ifs at h with hcond
    obtain ⟨rfl, rfl⟩ : tonedIdx = i ∧ hornIdx = j := by simpa using h
    have hi := (scanDown_eq_some htoned).2.1
    have hj := (scanDown_eq_some hhorn).2.1
    simp only [Bool.and_eq_true] at hi hj
    exact ⟨hi.2, hcond.1, hj.1⟩
  · simp at h

section Marks

variable [WideCType]
variable {config : TypingConfig} {hz : Hazards} {key : WChar} {p : Bool} {raw : List WChar}

/-- The states of a draft change from one list to another by edits of marks. -/
def Marks (config : TypingConfig) (hz : Hazards) (key : WChar) (ss ss' : List CharState) : Prop :=
  ∀ p raw, Edits config hz key ⟨p, ss, raw⟩ ⟨p, ss', raw⟩

theorem Marks.refl (ss : List CharState) : Marks config hz key ss ss :=
  fun _ _ => Relation.ReflTransGen.refl

theorem Marks.trans {ss ss' ss'' : List CharState} (h : Marks config hz key ss ss')
    (h' : Marks config hz key ss' ss'') : Marks config hz key ss ss'' :=
  fun p raw => (h p raw).trans (h' p raw)

/-! ## Modifiers -/

theorem marks_setMod {ss : List CharState} {i : Nat} {mod : Modifier}
    (h : LegalMod (stateAt ss i).base mod) : Marks config hz key ss (setMod ss i mod) :=
  fun _ _ => .single (.mark h.towlower)

theorem marks_clearMod (ss : List CharState) (i : Nat) :
    Marks config hz key ss (setMod ss i .none) :=
  marks_setMod (legalMod_none _)

theorem marks_clearTone (ss : List CharState) (i : Nat) :
    Marks config hz key ss (setTone ss i .none none) :=
  fun _ _ => .single .clear

theorem marks_undoHornU (ss : List CharState) (i : Nat) :
    Marks config hz key ss (undoHornU ss i) := by
  unfold undoHornU
  split_ifs
  · exact marks_clearMod ss (i - 1)
  · exact .refl ss

theorem marks_setVowelMod {ss : List CharState} {i : Nat} {mod : Modifier}
    (h : LegalMod (towlower (stateAt ss i).base) mod) :
    Marks config hz key ss (setVowelMod ss i mod) := by
  have hset : Marks config hz key ss (setMod ss i mod) := fun _ _ => .single (.mark h)
  unfold setVowelMod
  split_ifs
  · exact hset.trans (marks_undoHornU _ _)
  · exact hset

theorem marks_clearCircumflexAt (ss : List CharState) (i : Option Nat) :
    Marks config hz key ss (clearCircumflexAt ss i) := by
  cases i with
  | none => exact .refl ss
  | some i =>
      unfold clearCircumflexAt
      dsimp only
      split_ifs
      · exact marks_clearMod ss i
      · exact .refl ss

/-! ## The tone target -/

theorem nucleusIndices_spec {ss : List CharState} {i : Nat} (h : i ∈ nucleusIndices ss) :
    i < ss.length ∧ (stateAt ss i).isVowel = true := by
  have hmem := List.mem_of_mem_take h
  simp only [List.mem_filter, List.mem_range, Bool.and_eq_true] at hmem
  exact ⟨hmem.1, hmem.2.1.1⟩

/-- The tone target is a vowel of the buffer. -/
theorem findToneTarget_spec {modern : Bool} {ss : List CharState} {i : Nat}
    (h : findToneTarget modern ss = some i) : i < ss.length ∧ (stateAt ss i).isVowel = true := by
  unfold findToneTarget at h
  dsimp only at h
  split at h
  · simp at h
  · obtain ⟨vowelIdx, -, hidx⟩ := Option.bind_eq_some_iff.mp h
    exact nucleusIndices_spec (List.mem_of_getElem? hidx)

theorem relocationToTarget_spec {modern : Bool} {ss : List CharState} {i j : Nat}
    (h : relocationToTarget modern ss = some (i, j)) :
    (stateAt ss i).hasTone = true ∧ j ≠ i ∧ (stateAt ss j).isVowel = true := by
  unfold relocationToTarget at h
  split at h
  · rename_i tonedIdx targetIdx htoned htarget
    split_ifs at h with hne
    obtain ⟨rfl, rfl⟩ : tonedIdx = i ∧ targetIdx = j := by simpa using h
    exact ⟨findTonedVowelIndex_spec htoned, hne, (findToneTarget_spec htarget).2⟩
  · simp at h

theorem marks_relocateToneToTarget (modern : Bool) (ss : List CharState) :
    Marks config hz key ss (relocateToneToTarget modern ss) := by
  unfold relocateToneToTarget
  split
  · exact .refl ss
  · rename_i i j h
    obtain ⟨htoned, hne, hvowel⟩ := relocationToTarget_spec h
    exact fun _ _ => .single (.relocate htoned hne hvowel)

/-! ## The horned vowel -/

theorem marks_relocateToneToHornVowel {ss : List CharState}
    (hazard : (relocationToHornVowel ss).isSome = true → hz.hornTone) :
    Marks config hz key ss (relocateToneToHornVowel ss) := by
  unfold relocateToneToHornVowel
  split
  · exact .refl ss
  · rename_i i j h
    obtain ⟨htoned, hne, hvowel⟩ := relocationToHornVowel_spec h
    exact fun _ _ => .single (.hornRelocate htoned hne hvowel (hazard (by simp [h])))

/-! ## Completing `ươ` -/

theorem marks_hornLeadingU (ss : List CharState) (i : Nat) :
    Marks config hz key ss (hornLeadingU ss i) := by
  unfold hornLeadingU
  split_ifs with hu
  · exact marks_setMod (by rw [hu.1]; decide)
  · exact .refl ss

theorem marks_hornTrailingO (modern : Bool) (ss : List CharState) (i : Nat) :
    Marks config hz key ss (hornTrailingO modern ss i) := by
  unfold hornTrailingO
  split_ifs with ho
  · have hset : Marks config hz key ss (setMod ss (i + 1) .horn) :=
      marks_setMod (by rw [ho.2.2.1]; decide)
    exact hset.trans (marks_relocateToneToTarget modern _)
  · exact .refl ss

theorem marks_autoUOAt (modern : Bool) (ss : List CharState) (i : Nat) :
    Marks config hz key ss (autoUOAt modern ss i) := by
  unfold autoUOAt
  split_ifs
  · exact .refl ss
  · exact (marks_hornLeadingU ss i).trans (marks_hornTrailingO modern _ i)

theorem marks_applyAutoUO (modern : Bool) (ss : List CharState) :
    Marks config hz key ss (applyAutoUO modern ss) := by
  unfold applyAutoUO
  dsimp only
  generalize List.range' _ _ = positions
  induction positions generalizing ss with
  | nil => exact .refl ss
  | cons i positions ih => exact (marks_autoUOAt modern ss i).trans (ih _)

end Marks

/-! ## What marks keep -/

variable [WideCType]

namespace MarkFree

variable {β : Type} {f : CharState → β}

theorem map_relocateToneToTarget (h : MarkFree f) (modern : Bool) (ss : List CharState) :
    (relocateToneToTarget modern ss).map f = ss.map f := by
  unfold relocateToneToTarget
  split
  · rfl
  · dsimp only
    rw [h.map_setTone, h.map_setTone]

theorem map_hornTrailingO (h : MarkFree f) (modern : Bool) (ss : List CharState) (i : Nat) :
    (hornTrailingO modern ss i).map f = ss.map f := by
  unfold hornTrailingO
  split_ifs
  · rw [h.map_relocateToneToTarget, h.map_setMod]
  · rfl

theorem map_autoUOAt (h : MarkFree f) (modern : Bool) (ss : List CharState) (i : Nat) :
    (autoUOAt modern ss i).map f = ss.map f := by
  unfold autoUOAt
  split_ifs
  · rfl
  · rw [h.map_hornTrailingO, h.map_hornLeadingU]

theorem map_applyAutoUO (h : MarkFree f) (modern : Bool) (ss : List CharState) :
    (applyAutoUO modern ss).map f = ss.map f := by
  unfold applyAutoUO
  dsimp only
  generalize List.range' _ _ = positions
  induction positions generalizing ss with
  | nil => rfl
  | cons i positions ih => rw [List.foldl_cons, ih, h.map_autoUOAt]

end MarkFree

@[simp] theorem rawIdxs_relocateToneToTarget (modern : Bool) (ss : List CharState) :
    rawIdxs (relocateToneToTarget modern ss) = rawIdxs ss :=
  markFree_rawIdx.map_relocateToneToTarget modern ss

@[simp] theorem rawIdxs_applyAutoUO (modern : Bool) (ss : List CharState) :
    rawIdxs (applyAutoUO modern ss) = rawIdxs ss :=
  markFree_rawIdx.map_applyAutoUO modern ss

end VKey
