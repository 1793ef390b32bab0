import Mathlib.Data.List.Basic

/-!
# Terminated lines

A text made of lines that each end with a separator.  Splitting is the inverse of joining exactly
for lines that do not contain the separator.
-/

namespace VKey

variable {α : Type*}

/-- Every line with a separator behind it. -/
def joinLines (sep : α) (lines : List (List α)) : List α := lines.flatMap (· ++ [sep])

theorem joinLines_cons (sep : α) (line : List α) (lines : List (List α)) :
    joinLines sep (line :: lines) = line ++ sep :: joinLines sep lines := by
  simp [joinLines]

/-- Joining encoded lines gives the encoded text, if the separator is encoded as one character. -/
theorem joinLines_map_flatMap {β : Type*} {encode : α → List β} (sep : α) {sep' : β}
    (hsep : encode sep = [sep']) (lines : List (List α)) :
    joinLines sep' (lines.map (·.flatMap encode)) = (joinLines sep lines).flatMap encode := by
  induction lines with
  | nil => rfl
  | cons line lines ih =>
      rw [List.map_cons, joinLines_cons, ih, joinLines_cons, List.flatMap_append, List.flatMap_cons,
        hsep]
      rfl

theorem mem_joinLines {sep c : α} {lines : List (List α)} (h : c ∈ joinLines sep lines) :
    c = sep ∨ ∃ line ∈ lines, c ∈ line := by
  obtain ⟨line, hline, hc⟩ := List.mem_flatMap.mp h
  rcases List.mem_append.mp hc with hc | hc
  · exact Or.inr ⟨line, hline, hc⟩
  · exact Or.inl (List.mem_singleton.mp hc)

variable [DecidableEq α]

/-- The lines of a text that end with a separator, where the first line has already begun. -/
def terminatedLines (sep : α) : List α → List α → List (List α)
  | _, [] => []
  | line, c :: text =>
      if c = sep then line :: terminatedLines sep [] text
      else terminatedLines sep (line ++ [c]) text

theorem length_terminatedLines (sep : α) (line text : List α) :
    (terminatedLines sep line text).length = text.count sep := by
  induction text generalizing line with
  | nil => rfl
  | cons c text ih =>
      unfold terminatedLines
      split_ifs with hsep
      · rw [hsep, List.count_cons_self, List.length_cons, ih]
      · rw [List.count_cons_of_ne hsep, ih]

theorem terminatedLines_append_of_notMem {sep : α} {line more : List α} (hmore : sep ∉ more)
    (text : List α) :
    terminatedLines sep line (more ++ sep :: text) =
      (line ++ more) :: terminatedLines sep [] text := by
  induction more generalizing line with
  | nil => simp [terminatedLines]
  | cons c more ih =>
      rw [List.mem_cons, not_or] at hmore
      rw [List.cons_append, terminatedLines, if_neg (Ne.symm hmore.1), ih hmore.2]
      simp

/-- Lines without the separator are split as they were joined. -/
theorem terminatedLines_joinLines {sep : α} {lines : List (List α)}
    (h : ∀ line ∈ lines, sep ∉ line) : terminatedLines sep [] (joinLines sep lines) = lines := by
  induction lines with
  | nil => rfl
  | cons line lines ih =>
      rw [joinLines_cons, terminatedLines_append_of_notMem (h line List.mem_cons_self),
        ih fun l hl => h l (List.mem_cons_of_mem _ hl), List.nil_append]

/-- As many separators as lines means that no line contains one. -/
theorem notMem_of_count_joinLines {sep : α} {lines : List (List α)}
    (h : (joinLines sep lines).count sep = lines.length) : ∀ line ∈ lines, sep ∉ line := by
  have hcount : (joinLines sep lines).count sep =
      lines.length + (lines.map fun line => line.count sep).sum := by
    clear h
    induction lines with
    | nil => rfl
    | cons line lines ih =>
        rw [joinLines_cons, List.count_append, List.count_cons_self, ih,
          List.map_cons, List.sum_cons, List.length_cons]
        omega
  intro line hline
  have hsum : (lines.map fun line => line.count sep).sum = 0 := by omega
  exact List.count_eq_zero.mp
    (List.sum_eq_zero_iff_forall_eq_nat.mp hsum _ (List.mem_map_of_mem hline))

/-- No line has a unit before its separator exactly if every separator stands behind separators
only. -/
theorem forall_terminatedLines_eq_nil_iff {sep : α} (text : List α) :
    (∀ line ∈ terminatedLines sep [] text, line = []) ↔
      text.Pairwise fun a b => b = sep → a = sep := by
  have hbegun : ∀ (line text : List α), line ≠ [] →
      ((∀ l ∈ terminatedLines sep line text, l = []) ↔ sep ∉ text) := by
    intro line text hline
    induction text generalizing line with
    | nil => simp [terminatedLines]
    | cons c text ih =>
        unfold terminatedLines
        split_ifs with hsep
        · simp [hsep, hline]
        · rw [ih (line ++ [c]) (by simp), List.mem_cons, not_or]
          exact ⟨fun h => ⟨Ne.symm hsep, h⟩, And.right⟩
  induction text with
  | nil => simp [terminatedLines]
  | cons c text ih =>
      unfold terminatedLines
      rw [List.pairwise_cons]
      split_ifs with hsep
      · rw [List.forall_mem_cons]
        exact ⟨fun h => ⟨fun _ _ _ => hsep, ih.mp h.2⟩, fun h => ⟨rfl, ih.mpr h.2⟩⟩
      · rw [hbegun _ _ (by simp)]
        constructor
        · intro hnot
          refine ⟨fun b hb heq => absurd (heq ▸ hb) hnot, ?_⟩
          exact List.pairwise_of_forall_mem_list fun a _ b hb heq => absurd (heq ▸ hb) hnot
        · intro hall hmem
          exact hsep (hall.1 sep hmem rfl)

/-! ## Lines of a stream -/

/-- The lines of a text, where the first one has already begun: the last one needs no separator
behind it unless it is empty. -/
def getLines (sep : α) : List α → List α → List (List α)
  | line, [] => if line = [] then [] else [line]
  | line, c :: text =>
      if c = sep then line :: getLines sep [] text else getLines sep (line ++ [c]) text

theorem getLines_append {sep : α} {line more : List α} (hmore : sep ∉ more) (text : List α) :
    getLines sep line (more ++ sep :: text) = (line ++ more) :: getLines sep [] text := by
  induction more generalizing line with
  | nil => simp [getLines]
  | cons c more ih =>
      rw [List.mem_cons, not_or] at hmore
      rw [List.cons_append, getLines, if_neg (Ne.symm hmore.1), ih hmore.2]
      simp

/-- Joined lines are read one by one. -/
theorem getLines_joinLines {sep : α} {lines : List (List α)} (h : ∀ line ∈ lines, sep ∉ line) :
    getLines sep [] (joinLines sep lines) = lines := by
  induction lines with
  | nil => rfl
  | cons line lines ih =>
      obtain ⟨hline, hlines⟩ := List.forall_mem_cons.mp h
      rw [joinLines_cons, getLines_append hline, ih hlines, List.nil_append]

/-! ## Lines with skipped characters -/

/-- The lines that end with a separator, where the first one has already begun, and the line after
the last separator.  One character is skipped everywhere. -/
def splitLinesFrom (skip sep : α) : List α → List α → List (List α) × List α
  | line, [] => ([], line)
  | line, c :: text =>
      if c = skip then splitLinesFrom skip sep line text
      else if c = sep then
        let rest := splitLinesFrom skip sep [] text
        (line :: rest.1, rest.2)
      else splitLinesFrom skip sep (line ++ [c]) text

theorem splitLinesFrom_cons (skip sep : α) (line : List α) (c : α) (text : List α) :
    splitLinesFrom skip sep line (c :: text) =
      if c = skip then splitLinesFrom skip sep line text
      else if c = sep then
        (line :: (splitLinesFrom skip sep [] text).1, (splitLinesFrom skip sep [] text).2)
      else splitLinesFrom skip sep (line ++ [c]) text := rfl

/-- Splitting a text in two steps. -/
theorem splitLinesFrom_append (skip sep : α) (line a b : List α) :
    splitLinesFrom skip sep line (a ++ b) =
      ((splitLinesFrom skip sep line a).1 ++
        (splitLinesFrom skip sep (splitLinesFrom skip sep line a).2 b).1,
      (splitLinesFrom skip sep (splitLinesFrom skip sep line a).2 b).2) := by
  induction a generalizing line with
  | nil => rfl
  | cons c a ih =>
      rw [List.cons_append, splitLinesFrom_cons _ _ _ _ (a ++ b), splitLinesFrom_cons _ _ _ _ a]
      split_ifs
      · exact ih line
      · rw [ih []]
        rfl
      · exact ih (line ++ [c])

/-- Splitting an encoded text gives the encoded lines, if the skipped character and the separator
are encoded as they are and occur in no other character. -/
theorem splitLinesFrom_flatMap {β : Type*} [DecidableEq β] {encode : α → List β} {skip sep : α}
    {skip' sep' : β} (hne : skip' ≠ sep') (hskip : encode skip = [skip'])
    (hsep : encode sep = [sep']) {line text : List α}
    (hother : ∀ c ∈ text, (skip' ∈ encode c → c = skip) ∧ (sep' ∈ encode c → c = sep)) :
    splitLinesFrom skip' sep' (line.flatMap encode) (text.flatMap encode) =
      ((splitLinesFrom skip sep line text).1.map (·.flatMap encode),
        (splitLinesFrom skip sep line text).2.flatMap encode) := by
  have hkeep : ∀ more line rest : List β, skip' ∉ more → sep' ∉ more →
      splitLinesFrom skip' sep' line (more ++ rest) =
        splitLinesFrom skip' sep' (line ++ more) rest := by
    intro more
    induction more with
    | nil => simp
    | cons b more ih =>
        intro line rest hs hp
        rw [List.mem_cons, not_or] at hs hp
        rw [List.cons_append, splitLinesFrom_cons, if_neg (Ne.symm hs.1), if_neg (Ne.symm hp.1),
          ih _ _ hs.2 hp.2, List.append_assoc]
        rfl
  induction text generalizing line with
  | nil => rfl
  | cons c text ih =>
      obtain ⟨hc, htext⟩ := List.forall_mem_cons.mp hother
      rw [List.flatMap_cons, splitLinesFrom_cons skip]
      split_ifs with h1 h2
      · rw [h1, hskip, List.cons_append, List.nil_append, splitLinesFrom_cons, if_pos rfl]
        exact ih htext
      · rw [h2, hsep, List.cons_append, List.nil_append, splitLinesFrom_cons, if_neg (Ne.symm hne),
          if_pos rfl]
        have hrest := @ih [] htext
        rw [List.flatMap_nil] at hrest
        rw [hrest]
        rfl
      · rw [hkeep _ _ _ (fun h => h1 (hc.1 h)) (fun h => h2 (hc.2 h))]
        have hrest := @ih (line ++ [c]) htext
        rw [List.flatMap_append, List.flatMap_singleton] at hrest
        exact hrest

end VKey
