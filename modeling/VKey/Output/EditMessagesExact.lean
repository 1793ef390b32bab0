import VKey.Output.EditMessages
import VKey.Output.ModifierBalance

/-!
# When an edit is applied exactly once

A window that processes messages after they were reported as failed is edited more than once, and a
selection that stays when the messages are given up is deleted by the first backspace.  What a call
does to the document is told by the number of replacements that were processed and by whether units
are still selected.
-/

namespace VKey.Output

open SelectedText

/-! ## Retries -/

section Retry

variable {σ τ : Type} {f : Attempt → σ → Bool × σ} {g : Attempt → τ → Bool × τ}

/-- Attempts that do the same are retried in the same way. -/
theorem retryLoop_simulates {R : σ → τ → Prop}
    (hstep : ∀ attempt s t, R s t → (f attempt s).1 = (g attempt t).1 ∧
      R (f attempt s).2 (g attempt t).2)
    (attempts : Nat → Attempt) (remainingMs i : Nat) {s : σ} {t : τ} (h : R s t) :
    (retryLoop f attempts remainingMs i s).1 = (retryLoop g attempts remainingMs i t).1 ∧
      R (retryLoop f attempts remainingMs i s).2 (retryLoop g attempts remainingMs i t).2 := by
  induction remainingMs generalizing i s t with
  | zero =>
      obtain ⟨hreported, hR⟩ := hstep (attempts i) s t h
      unfold retryLoop
      rcases hf : f (attempts i) s with ⟨_ | _, s'⟩ <;> rcases hg :
        g (attempts i) t with ⟨_ | _, t'⟩ <;>
        simp_all
  | succ remainingMs ih =>
      obtain ⟨hreported, hR⟩ := hstep (attempts i) s t h
      unfold retryLoop
      rcases hf : f (attempts i) s with ⟨_ | _, s'⟩ <;> rcases hg :
        g (attempts i) t with ⟨_ | _, t'⟩
      · rw [hf, hg] at hR
        dsimp only
        split_ifs
        · exact ⟨rfl, hR⟩
        · exact ih (i + 1) hR
      · simp [hf, hg] at hreported
      · simp [hf, hg] at hreported
      · rw [hf, hg] at hR
        exact ⟨rfl, hR⟩

/-- What holds behind every attempt that is reported holds behind the loop if it is reported. -/
theorem retryLoop_reported {P Q : τ → Prop} (hkeep : ∀ attempt t, P t → P (g attempt t).2)
    (hreported : ∀ attempt t, P t → (g attempt t).1 = true → Q (g attempt t).2)
    (attempts : Nat → Attempt) (remainingMs i : Nat) {t : τ} (ht : P t)
    (h : (retryLoop g attempts remainingMs i t).1 = true) :
    Q (retryLoop g attempts remainingMs i t).2 := by
  induction remainingMs generalizing i t with
  | zero =>
      have hQ := hreported (attempts i) t ht
      unfold retryLoop at h ⊢
      rcases hg : g (attempts i) t with ⟨_ | _, t'⟩
      · simp [hg] at h
      · rw [hg] at hQ
        exact hQ rfl
  | succ remainingMs ih =>
      have hQ := hreported (attempts i) t ht
      have hP := hkeep (attempts i) t ht
      unfold retryLoop at h ⊢
      rcases hg : g (attempts i) t with ⟨_ | _, t'⟩
      · rw [hg] at h hP
        dsimp only at h ⊢
        split_ifs at h ⊢
        exact ih (i + 1) hP h
      · rw [hg] at hQ
        exact hQ rfl

end Retry

/-! ## What the window has processed -/

/-- A call in a window whose caret stands behind enough units. -/
structure EditRequest where
  before : List Char16
  after : List Char16 := []
  backspaceCount : UInt64
  text : List Char16
  count_le : backspaceCount.toNat ≤ before.length

/-- The number of replacements that were processed, and whether the units to replace are
selected. -/
structure Tally where
  edits : Nat := 0
  isSelected : Bool := false
  deriving DecidableEq

namespace EditRequest

variable (req : EditRequest)

def count : Nat := req.backspaceCount.toNat

/-- The window before the call. -/
def window : EditWindow := { doc := { before := req.before, after := req.after } }

/-- The document that is asked for. -/
def result : SelectedText Char16 where
  before := req.before.rdrop req.count ++ req.text
  after := req.after

/-- The text before the caret, once the selection is not there. -/
def front (edits : Nat) : List Char16 := replacedFront req.count req.text req.before edits

/-- The position of the caret. -/
def caret (edits : Nat) : Nat := req.before.length + edits * req.text.length - edits * req.count

/-- What an attempt adds to what was processed. -/
def tally (attempt : Attempt) (t : Tally) : Bool × Tally :=
  if req.count = 0 ∧ req.text = [] then (true, t)
  else if req.count = 0 then
    (attempt.replaceSel.isReported, if attempt.replaceSel =
      .lost then t else { edits := t.edits + 1 })
  else if !attempt.getSel.isReported || decide (req.count > req.caret t.edits) then (false, t)
  else
    match attempt.setSel, attempt.replaceSel with
    | .lost, _ => (false, t)
    | .late, _ | .processed, .lost => (false, { t with isSelected := true })
    | .processed, replaceSel => (replaceSel.isReported, { edits := t.edits + 1 })

/-- What was processed when the messages end. -/
def finalTally (host : EditHost) (branch : EditBranch) : Bool × Tally :=
  match branch with
  | .asyncRender => retryLoop req.tally host.attempts kAsyncRenderMaxWaitMs 0 {}
  | .clipboardPaste => req.tally (host.attempts 0) {}

/-- The document that belongs to a tally. -/
structure Shows (w : EditWindow) (t : Tally) : Prop where
  doc : w.doc = lastSelected (req.front t.edits) req.after (if t.isSelected then req.count else 0)
  enough : ∀ j < t.edits, req.count ≤ (req.front j).length
  selected : t.isSelected = true → 0 < req.count ∧ req.count ≤ (req.front t.edits).length

variable {req} {w : EditWindow} {t : Tally}

theorem caret_eq (h : ∀ j < t.edits, req.count ≤ (req.front j).length) :
    req.caret t.edits = (req.front t.edits).length := by
  have hlength := length_replacedFront h
  rw [caret]
  change _ = (replacedFront req.count req.text req.before t.edits).length
  omega

theorem Shows.of_doc_eq {w' : EditWindow} (h : req.Shows w t) (hdoc : w'.doc = w.doc) :
    req.Shows w' t :=
  ⟨hdoc.trans h.doc, h.enough, h.selected⟩

theorem doc_restoreRedraw (redrawSuppressed : Bool) (attempt : Attempt) (w : EditWindow) :
    (restoreRedraw redrawSuppressed attempt w).doc = w.doc := by
  unfold restoreRedraw sendMessageTimeout
  split_ifs <;> rfl

theorem doc_redrawOff (delivery : Delivery) (w : EditWindow) :
    (sendMessageTimeout delivery (wmSetRedraw false) w).2.doc = w.doc := by
  unfold sendMessageTimeout
  dsimp only
  split_ifs <;> rfl

theorem Shows.select (h : req.Shows w t) (hpos : 0 < req.count)
    (hle : req.count ≤ (req.front t.edits).length) :
    req.Shows (emSetSel (w.doc.selectionEnd - req.count) w.doc.selectionEnd w)
    { t with isSelected := true } := by
  refine ⟨?_, h.enough, fun _ => ⟨hpos, hle⟩⟩
  rw [emSetSel, h.doc, selectionEnd_lastSelected, select_lastSelected]
  rfl

/-- The selection is replaced, or nothing if no unit is to be replaced. -/
theorem Shows.replace (h : req.Shows w t) (hselected : t.isSelected = true ∨ req.count = 0) :
    req.Shows (emReplaceSel req.text w) { edits := t.edits + 1 } := by
  have hcount : (if t.isSelected then req.count else 0) = req.count := by
    rcases hselected with hselected | hzero
    · rw [if_pos hselected]
    · rw [hzero, ite_self]
  have hle : req.count ≤ (req.front t.edits).length := by
    rcases hselected with hselected | hzero
    · exact (h.selected hselected).2
    · rw [hzero]
      exact Nat.zero_le _
  refine ⟨?_, fun j hj => ?_, fun hfalse => absurd hfalse Bool.false_ne_true⟩
  · rw [emReplaceSel, h.doc, replaceSelection_lastSelected, hcount]
    rfl
  · rcases Nat.lt_succ_iff_lt_or_eq.mp hj with hlt | rfl
    · exact h.enough j hlt
    · exact hle

/-- An attempt does what is added to the tally. -/
theorem Shows.attempt (h : req.Shows w t) (attempt : Attempt) :
    (replaceByMessages attempt req.backspaceCount req.text w).1 = (req.tally attempt t).1 ∧
      req.Shows (replaceByMessages attempt req.backspaceCount req.text w).2
      (req.tally attempt t).2 := by
  have hzero : req.backspaceCount = 0 ↔ req.count = 0 := by
    rw [count, ← UInt64.toNat_inj]
    rfl
  have hend : w.doc.selectionEnd = req.caret t.edits := by
    rw [h.doc, selectionEnd_lastSelected, caret_eq h.enough]
  rw [replaceByMessages, tally]
  simp only [hzero]
  by_cases hnothing : req.count = 0 ∧ req.text = []
  · rw [if_pos hnothing, if_pos hnothing]
    exact ⟨rfl, h⟩
  rw [if_neg hnothing, if_neg hnothing]
  by_cases hcount : req.count = 0
  · rw [if_pos hcount, if_pos hcount]
    refine ⟨rfl, ?_⟩
    rw [sendMessageTimeout]
    split_ifs
    · exact h
    · exact h.replace (Or.inr hcount)
  rw [if_neg hcount, if_neg hcount]
  cases hget : attempt.getSel.isReported with
  | false => exact ⟨rfl, h⟩
  | true =>
      have htoNat : req.backspaceCount.toNat = req.count := rfl
      rw [hend, htoNat]
      by_cases hfar : req.count > req.caret t.edits
      · simp only [hfar, decide_true, Bool.or_true, if_true, Bool.not_true,
          Bool.false_eq_true, if_false]
        exact ⟨trivial, h⟩
      · have hle : req.count ≤ (req.front t.edits).length := by
          rw [← caret_eq h.enough]
          exact Nat.not_lt.mp hfar
        have hoff := h.of_doc_eq (doc_redrawOff attempt.redrawOff w)
        have hselect := hoff.select (Nat.pos_of_ne_zero hcount) hle
        rw [doc_redrawOff, hend] at hselect
        simp only [hfar, decide_false, Bool.or_false, Bool.not_true, Bool.false_eq_true, if_false]
        cases hset : attempt.setSel with
        | lost => exact ⟨rfl, hoff.of_doc_eq (doc_restoreRedraw _ _ _)⟩
        | late => exact ⟨rfl, hselect.of_doc_eq (doc_restoreRedraw _ _ _)⟩
        | processed =>
            have hreplace := hselect.replace (Or.inl rfl)
            cases hreplaceSel : attempt.replaceSel with
            | lost => exact ⟨rfl, hselect.of_doc_eq (doc_restoreRedraw _ _ _)⟩
            | late => exact ⟨rfl, hreplace.of_doc_eq (doc_restoreRedraw _ _ _)⟩
            | processed => exact ⟨rfl, hreplace.of_doc_eq (doc_restoreRedraw _ _ _)⟩

end EditRequest

/-! ## The key events behind failed messages -/

section Fallback

variable {d : EagerDesktop} {doc : SelectedText Char16}

theorem foldl_applyInput_released (keys : List Nat) :
    (keys.map fun vk => makeKeyEvent d.toDesktop vk true).foldl applyInput doc = doc := by
  rw [List.foldl_map]
  exact List.foldl_fixed' (fun _ => rfl) keys

theorem foldl_applyInput_pressed {keys : List Nat} (hkeys : vkBack ∉ keys) :
    (keys.map fun vk => makeKeyEvent d.toDesktop vk false).foldl applyInput doc = doc := by
  induction keys with
  | nil => rfl
  | cons vk keys ih =>
      rw [List.mem_cons, not_or] at hkeys
      obtain ⟨hvk, hrest⟩ := hkeys
      rw [List.map_cons, List.foldl_cons]
      have hsame : applyInput doc (makeKeyEvent d.toDesktop vk false) = doc := if_neg (Ne.symm hvk)
      rw [hsame, ih hrest]

theorem foldl_applyInput_backspaces (n : Nat) :
    ((List.replicate n (tapKey d.toDesktop vkBack)).flatten).foldl applyInput doc =
      backspace^[n] doc := by
  induction n generalizing doc with
  | zero => rfl
  | succ n ih =>
      rw [List.replicate_succ, List.flatten_cons, List.foldl_append, ih,
        Function.iterate_succ_apply]
      rfl

theorem foldl_applyInput_chars (text : List Char16) :
    ((text.map UInt16.toNat).flatMap tapChar).foldl applyInput doc =
      text.foldl (fun doc ch => doc.replaceSelection [ch]) doc := by
  induction text generalizing doc with
  | nil => rfl
  | cons ch text ih =>
      have htap : (tapChar ch.toNat).foldl applyInput doc = doc.replaceSelection [ch] := by
        change doc.replaceSelection [UInt16.ofNat (ch.toNat % 0x10000)] = _
        rw [Nat.mod_eq_of_lt ch.toNat_lt, UInt16.ofNat_toNat]
      rw [List.map_cons, List.flatMap_cons, List.foldl_append, htap, ih, List.foldl_cons]

/-- The modifiers that the batch releases and presses again. -/
def fallbackModifiers (d : Desktop) (backspaceCount : UInt64) (text : List Char16) :
    HeldModifiers :=
  Win32SendInputInjector.heldModifiers d backspaceCount (text.map UInt16.toNat) 0 {}

/-- The batch has room for the events. -/
def FitsBatch (d : Desktop) (backspaceCount : UInt64) (text : List Char16) : Prop :=
  2 * (fallbackModifiers d backspaceCount text).count + 2 * backspaceCount.toNat + 2
    * text.length ≤ kMaxBatch

instance (d : Desktop) (backspaceCount : UInt64) (text : List Char16) :
    Decidable (FitsBatch d backspaceCount text) :=
  inferInstanceAs (Decidable (_ ≤ _))

/-- All the events are taken if they fit. -/
theorem delivered_fallbackTrace (d : EagerDesktop) (backspaceCount : UInt64) (text : List Char16) :
    delivered (fallbackTrace d.toDesktop backspaceCount text).actions =
      if FitsBatch d.toDesktop backspaceCount text then
        neutrally d.toDesktop (fallbackModifiers d.toDesktop backspaceCount text).vks
          (typedEvents d.toDesktop false backspaceCount.toNat (text.map UInt16.toNat))
      else [] := by
  have hevents :
    replacementEvents d.toDesktop (fallbackModifiers d.toDesktop backspaceCount text) false
      backspaceCount.toNat (text.map UInt16.toNat) 0 =
      neutrally d.toDesktop (fallbackModifiers d.toDesktop backspaceCount text).vks
        (typedEvents d.toDesktop false backspaceCount.toNat (text.map UInt16.toNat)) := rfl
  have hlength :
    (replacementEvents d.toDesktop (fallbackModifiers d.toDesktop backspaceCount text) false
      backspaceCount.toNat (text.map UInt16.toNat) 0).length =
      2 * (fallbackModifiers d.toDesktop backspaceCount text).count + 2 * backspaceCount.toNat +
        2 * text.length := by
    have htap : ∀ ch, (tapChar ch).length = 2 := fun _ => rfl
    rw [hevents, neutrally, length_bracketed, typedEvents,
      if_neg Bool.false_ne_true, List.nil_append,
      List.length_append, List.length_flatten, List.map_replicate, List.sum_replicate_nat,
        List.length_flatMap,
      HeldModifiers.count]
    simp only [htap, List.map_const', List.length_map, List.sum_replicate_nat,
      tapKey, List.length_cons, List.length_nil]
    omega
  obtain ⟨new, hactions, -, hlong, hwhole⟩ :=
    fallbackInjector.replace_spec d.toDesktop backspaceCount
    (text.map UInt16.toNat) 0 {}
  have hreplace : fallbackInjector.replace d.toDesktop backspaceCount (text.map UInt16.toNat) 0 {} =
      if (replacementEvents d.toDesktop (fallbackModifiers d.toDesktop backspaceCount text) false
        backspaceCount.toNat (text.map UInt16.toNat) 0).length ≤ kMaxBatch then
        sendFilled d.toDesktop (fallbackModifiers d.toDesktop backspaceCount text)
          (replacementEvents d.toDesktop (fallbackModifiers d.toDesktop backspaceCount text) false
            backspaceCount.toNat (text.map UInt16.toNat) 0) 0 {}
      else (false, {}) :=
    fallbackInjector.replace_eq d.toDesktop backspaceCount (text.map UInt16.toNat) 0 {}
  rw [fallbackTrace, hactions, List.nil_append]
  split_ifs with hfits
  · refine (hwhole ?_).trans hevents
    rw [hreplace, if_pos (hlength ▸ hfits), sendFilled]
    split_ifs
    · rfl
    · rw [sendBatch]
      simp only [trackedSendInput, d.accepts_eq, beq_self_eq_true, Bool.not_true, Bool.false_and,
        Bool.false_eq_true, if_false]
  · have hnew := hlong (hlength ▸ Nat.not_le.mp hfits)
    rw [hnew.1]
    rfl

theorem sendInputFallback_eq (d : EagerDesktop) (backspaceCount : UInt64) (text : List Char16)
    (doc : SelectedText Char16) :
    sendInputFallback d.toDesktop backspaceCount text doc =
      if FitsBatch d.toDesktop backspaceCount text then
        text.foldl (fun doc ch => doc.replaceSelection [ch]) (backspace^[backspaceCount.toNat] doc)
      else doc := by
  rw [sendInputFallback, delivered_fallbackTrace]
  split_ifs with hfits
  · have hback : vkBack ∉ (fallbackModifiers d.toDesktop backspaceCount text).vks := fun hmem =>
      absurd ((fallbackModifiers d.toDesktop backspaceCount text).sublist.subset hmem) (by decide)
    rw [neutrally, bracketed, typedEvents, if_neg Bool.false_ne_true,
      List.nil_append, List.foldl_append,
      List.foldl_append, List.foldl_append, foldl_applyInput_released, foldl_applyInput_backspaces,
      foldl_applyInput_chars, foldl_applyInput_pressed hback]
  · rfl

end Fallback

namespace EditRequest

variable {req : EditRequest} {w : EditWindow} {t : Tally}

/-- The number of units that the backspaces of the key events delete. -/
def deleted (req : EditRequest) (t : Tally) : Nat :=
  if t.isSelected then 2 * req.count - 1 else req.count

/-- The backspaces delete one unit less than twice as many if the selection is deleted by the first
one. -/
theorem Shows.backspaces (h : req.Shows w t) :
    backspace^[req.count] w.doc = lastSelected ((req.front t.edits).rdrop (req.deleted t))
    req.after 0 := by
  rw [h.doc, deleted]
  cases hselected : t.isSelected with
  | false =>
      simp only [Bool.false_eq_true, if_false]
      exact iterate_backspace_zero req.count
  | true =>
      obtain ⟨hpos, hle⟩ := h.selected hselected
      simp only [if_true]
      rw [iterate_backspace hpos hle hpos]
      congr 2
      omega

theorem Shows.clipboardFallback (h : req.Shows w t) (isClipboardSet : Bool) :
    clipboardFallback isClipboardSet req.backspaceCount req.text w.doc =
      { before := (req.front t.edits).rdrop (req.deleted t) ++ req.text, after := req.after } := by
  have hback := h.backspaces
  rw [count] at hback
  rw [Output.clipboardFallback, hback]
  split_ifs with hempty hset
  · rw [hempty, List.append_nil, lastSelected_zero]
  · rw [replaceSelection_lastSelected, List.rdrop_zero, lastSelected_zero]
  · rw [foldl_replaceSelection, lastSelected_zero]

theorem Shows.sendInputFallback (h : req.Shows w t) (d : EagerDesktop) :
    sendInputFallback d.toDesktop req.backspaceCount req.text w.doc =
      if FitsBatch d.toDesktop req.backspaceCount req.text then
        { before := (req.front t.edits).rdrop (req.deleted t) ++ req.text, after := req.after }
      else w.doc := by
  have hback := h.backspaces
  rw [count] at hback
  rw [sendInputFallback_eq, hback, foldl_replaceSelection, lastSelected_zero]

/-! ## Exactly once -/

theorem Shows.fallback_eq_result_iff (h : req.Shows w t) :
    { before := (req.front t.edits).rdrop (req.deleted t) ++ req.text, after := req.after }
    = req.result ↔
      req.caret t.edits - req.deleted t = req.before.length - req.count := by
  have hdeleted : req.count ≤ req.deleted t := by
    unfold deleted
    split_ifs <;> omega
  rw [caret_eq h.enough, front, ← rdrop_replacedFront_eq_iff hdeleted,
    result, SelectedText.mk.injEq, List.append_left_inj]
  simp only [and_true]

/-- A replacement that is reported gives the document if it is the only one or replaces units by as
many. -/
theorem front_eq_result_iff (hpos : 1 ≤ t.edits)
    (henough : ∀ j < t.edits, req.count ≤ (req.front j).length) :
    req.front t.edits = req.before.rdrop req.count ++ req.text ↔ t.edits = 1 ∨
    req.text.length = req.count := by
  obtain ⟨k, hk⟩ : ∃ k, t.edits = k + 1 := ⟨t.edits - 1, by omega⟩
  rw [hk] at henough ⊢
  have hlength := length_replacedFront (k := k) fun j hj => henough j (Nat.lt_succ_of_lt hj)
  have hle : req.count ≤ (replacedFront req.count req.text req.before k).length :=
    henough k (Nat.lt_succ_self k)
  have hfirst : req.count ≤ req.before.length := req.count_le
  rw [front, replacedFront, List.append_left_inj, rdrop_replacedFront_eq_iff le_rfl]
  constructor
  · intro heq
    have hmul : k * req.text.length = k * req.count := by omega
    rcases Nat.eq_zero_or_pos k with rfl | hk
    · exact Or.inl rfl
    · exact Or.inr (Nat.eq_of_mul_eq_mul_left hk hmul)
  · rintro (hone | hsame)
    · obtain rfl : k = 0 := by omega
      rw [replacedFront]
    · rw [hsame] at hlength
      omega

theorem lastSelected_eq_iff {front before after : List Char16} {n : Nat}
    (hn : 0 < n → n ≤ front.length) :
    lastSelected front after n = { before, after } ↔ n = 0 ∧ front = before := by
  constructor
  · intro h
    have hselected := congrArg SelectedText.selected h
    have hzero : n = 0 := by
      by_contra hne
      have hlength := congrArg List.length hselected
      rw [lastSelected, List.rtake, List.length_drop, List.length_nil] at hlength
      have := hn (Nat.pos_of_ne_zero hne)
      omega
    rw [hzero, lastSelected_zero] at h
    exact ⟨hzero, congrArg SelectedText.before h⟩
  · rintro ⟨rfl, rfl⟩
    exact lastSelected_zero _ _

variable (req) (host : EditHost) (branch : EditBranch)

/-- The messages that are processed and the key events edit the document once: the only replacement
is reported, or the key events delete what is left to delete, or the edit may be repeated without a
difference. -/
def AppliedOnce : Prop :=
  let (isReported, t) := req.finalTally host branch
  if isReported then t.edits = 1 ∨ req.text.length = req.count
  else if branch = .clipboardPaste ∨
      FitsBatch host.desktop.toDesktop req.backspaceCount req.text then
    req.caret t.edits - req.deleted t = req.before.length - req.count
  else
    t.isSelected = false ∧
      if t.edits = 0 then req.before = req.before.rdrop req.count ++ req.text
      else t.edits = 1 ∨ req.text.length = req.count

theorem shows_window : req.Shows req.window {} :=
  ⟨(lastSelected_zero _ _).symm, fun _ hj => absurd hj (Nat.not_lt_zero _),
    fun hfalse => absurd hfalse Bool.false_ne_true⟩

theorem isSelected_tally (attempt : Attempt) (t : Tally) (h : t.isSelected = true → 0 < req.count) :
    (req.tally attempt t).2.isSelected = true → 0 < req.count := by
  rw [tally]
  split_ifs with hnothing hcount hlost hfailed
  · exact h
  · exact h
  · exact nofun
  · exact h
  · exact fun _ => Nat.pos_of_ne_zero hcount

/-- Behind a reported attempt nothing is selected, and a replacement was processed if there was one
to do. -/
theorem tally_reported (attempt : Attempt) (t : Tally) (h : t.isSelected = true → 0 < req.count)
    (hreported : (req.tally attempt t).1 = true) :
    (req.tally attempt t).2.isSelected = false ∧
      (1 ≤ (req.tally attempt t).2.edits ∨ req.count = 0 ∧ req.text = []) := by
  rw [tally] at hreported ⊢
  split_ifs at hreported ⊢ with hnothing hcount hlost hfailed
  · refine ⟨Bool.eq_false_of_not_eq_true fun hselected => ?_, Or.inr hnothing⟩
    exact absurd (h hselected) (by omega)
  · rw [hlost] at hreported
    exact absurd hreported Bool.false_ne_true
  · exact ⟨rfl, Or.inl (Nat.le_add_left 1 t.edits)⟩
  · cases hset : attempt.setSel <;> cases hreplace :
      attempt.replaceSel <;> rw [hset, hreplace] at hreported
    case processed.processed => exact ⟨rfl, Or.inl (Nat.le_add_left 1 t.edits)⟩
    all_goals exact absurd hreported Bool.false_ne_true

/-- The messages of a call do what the final tally tells. -/
theorem exists_shows_final :
    ∃ w, req.Shows w (req.finalTally host branch).2 ∧
      replaceUnicode host branch req.backspaceCount req.text req.window =
        if (req.finalTally host branch).1 then w.doc
        else match branch with
          | .asyncRender =>
              Output.sendInputFallback host.desktop.toDesktop req.backspaceCount req.text w.doc
          | .clipboardPaste =>
              Output.clipboardFallback host.isClipboardSet req.backspaceCount req.text w.doc := by
  cases branch with
  | asyncRender =>
      obtain ⟨hreported, hshows⟩ := retryLoop_simulates (R := fun w t => req.Shows w t)
        (f := fun attempt =>
          RichEditEmReplaceSelInjector.replace attempt req.backspaceCount req.text)
        (g := req.tally) (fun attempt w t h => h.attempt attempt) host.attempts
        kAsyncRenderMaxWaitMs 0
        req.shows_window
      refine ⟨_, hshows, ?_⟩
      rw [finalTally, ← hreported, replaceUnicode]
      rcases retryLoop _ _ _ _ _ with ⟨_ | _, w⟩ <;> rfl
  | clipboardPaste =>
      obtain ⟨hreported, hshows⟩ := req.shows_window.attempt (host.attempts 0)
      refine ⟨_, hshows, ?_⟩
      rw [finalTally, ← hreported, replaceUnicode, tryEditMessagePaste]
      rcases replaceByMessages _ _ _ _ with ⟨_ | _, w⟩ <;> rfl

theorem finalTally_reported (h : (req.finalTally host branch).1 = true) :
    (req.finalTally host branch).2.isSelected = false ∧
      (1 ≤ (req.finalTally host branch).2.edits ∨ req.count = 0 ∧ req.text = []) := by
  have hstart : ({} : Tally).isSelected = true → 0 < req.count := fun hfalse =>
    absurd hfalse Bool.false_ne_true
  cases branch with
  | asyncRender =>
      exact retryLoop_reported (g := req.tally) (P := fun t => t.isSelected = true → 0 < req.count)
        (Q := fun t => t.isSelected = false ∧ (1 ≤ t.edits ∨ req.count = 0 ∧ req.text = []))
        req.isSelected_tally req.tally_reported host.attempts kAsyncRenderMaxWaitMs 0 hstart h
  | clipboardPaste => exact req.tally_reported (host.attempts 0) {} hstart h

/-- The document behind a call is the one that is asked for exactly if the edit is applied once. -/
theorem replaceUnicode_eq_result_iff :
    replaceUnicode host branch req.backspaceCount req.text req.window = req.result ↔
      req.AppliedOnce host branch := by
  obtain ⟨w, hshows, hdoc⟩ := req.exists_shows_final host branch
  have hreported := req.finalTally_reported host branch
  rw [hdoc, AppliedOnce]
  rcases hfinal : req.finalTally host branch with ⟨isReported, t⟩
  rw [hfinal] at hshows hreported
  dsimp only at hshows hreported ⊢
  have hstays : w.doc = req.result ↔ t.isSelected = false ∧
      if t.edits = 0 then req.before = req.before.rdrop req.count ++ req.text
      else t.edits = 1 ∨ req.text.length = req.count := by
    have hselected : (if t.isSelected then req.count else 0) = 0 ↔ t.isSelected = false := by
      cases hsel : t.isSelected with
      | false => simp
      | true => simpa using (hshows.selected hsel).1.ne'
    rw [hshows.doc, result, lastSelected_eq_iff, hselected]
    · split_ifs with hedits
      · rw [hedits]
        rfl
      · rw [front_eq_result_iff (Nat.pos_of_ne_zero hedits) hshows.enough]
    · intro _
      split_ifs with hsel
      · exact (hshows.selected hsel).2
      · exact Nat.zero_le _
  cases isReported with
  | true =>
      obtain ⟨hselected, hedits⟩ := hreported rfl
      rw [if_pos rfl, if_pos rfl, hstays, and_iff_right hselected]
      split_ifs with hzero
      · obtain ⟨hcount, htext⟩ := hedits.resolve_left (by omega)
        rw [hcount, htext, List.rdrop_zero, List.append_nil]
        exact iff_of_true rfl (Or.inr rfl)
      · exact Iff.rfl
  | false =>
      rw [if_neg Bool.false_ne_true, if_neg Bool.false_ne_true]
      cases branch with
      | asyncRender =>
          dsimp only
          rw [hshows.sendInputFallback host.desktop]
          by_cases hfits : FitsBatch host.desktop.toDesktop req.backspaceCount req.text
          · rw [if_pos hfits, if_pos (Or.inr hfits)]
            exact hshows.fallback_eq_result_iff
          · rw [if_neg hfits, if_neg (not_or.mpr ⟨by decide, hfits⟩)]
            exact hstays
      | clipboardPaste =>
          dsimp only
          rw [hshows.clipboardFallback, if_pos (Or.inl rfl)]
          exact hshows.fallback_eq_result_iff

/-- A desktop without held keys. -/
def idleDesktop : EagerDesktop where
  mapVirtualKey := id
  keyDown := fun _ _ => false
  accepts := fun _ events => events.length
  accepts_le := fun _ _ => Nat.le_refl _
  hasSynthCounter := true
  accepts_eq := fun _ _ => rfl

/-- The replacement of the first attempt is processed after it was reported as failed. -/
def lateHost : EditHost where
  desktop := idleDesktop
  attempts i := if i = 0 then { replaceSel := .late } else {}

/-- Two of three letters are to be replaced by one. -/
def lateRequest : EditRequest where
  before := [0x61, 0x62, 0x63]
  backspaceCount := 2
  text := [0x78]
  count_le := by decide

/-- The second attempt replaces the letter that the first one has put there, and the one in front of
it. -/
theorem replaceUnicode_ne_result :
    (replaceUnicode lateHost .asyncRender lateRequest.backspaceCount lateRequest.text
      lateRequest.window).before =
        [0x78] ∧
      lateRequest.result.before = [0x61, 0x78] := by
  decide

end EditRequest

end VKey.Output
