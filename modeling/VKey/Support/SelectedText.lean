import Mathlib.Data.List.DropRight
import Mathlib.Logic.Function.Iterate

/-!
# Text with a selection

A text that is edited at its selection: what is typed replaces it, and a backspace deletes it or the
unit in front of it.  A replacement that selects the units before the caret first may be repeated;
what is left of the first text stays in front.
-/

namespace VKey

variable {α : Type}

/-- A text and a selection in it. -/
structure SelectedText (α : Type) where
  before : List α := []
  selected : List α := []
  after : List α := []
  deriving DecidableEq, Repr

namespace SelectedText

def text (t : SelectedText α) : List α := t.before ++ t.selected ++ t.after

def selectionEnd (t : SelectedText α) : Nat := t.before.length + t.selected.length

/-- Select the units between two positions. -/
def select (t : SelectedText α) (first last : Nat) : SelectedText α where
  before := t.text.take first
  selected := (t.text.take last).drop first
  after := t.text.drop last

/-- Put units in place of the selection. -/
def replaceSelection (t : SelectedText α) (units : List α) : SelectedText α where
  before := t.before ++ units
  after := t.after

/-- Delete the selection, or the unit before the caret if nothing is selected. -/
def backspace (t : SelectedText α) : SelectedText α where
  before := if t.selected.isEmpty then t.before.dropLast else t.before
  after := t.after

/-- The last units before the caret selected. -/
def lastSelected (front after : List α) (n : Nat) : SelectedText α where
  before := front.rdrop n
  selected := front.rtake n
  after

variable {front after : List α} {k n : Nat}

theorem rdrop_append_rtake (front : List α) (n : Nat) : front.rdrop n ++ front.rtake n = front :=
  List.take_append_drop _ front

theorem length_rdrop (front : List α) (n : Nat) : (front.rdrop n).length = front.length - n := by
  rw [List.rdrop, List.length_take]
  omega

theorem rdrop_rdrop (front : List α) (k n : Nat) :
    (front.rdrop k).rdrop n = front.rdrop (k + n) := by
  rw [List.rdrop, length_rdrop, List.rdrop, List.take_take, List.rdrop]
  congr 1
  omega

@[simp] theorem lastSelected_zero (front after : List α) :
    lastSelected front after 0 = { before := front, after } := by
  simp [lastSelected, List.rtake]

theorem text_lastSelected : (lastSelected front after n).text = front ++ after := by
  rw [text, lastSelected, rdrop_append_rtake]

theorem selectionEnd_lastSelected : (lastSelected front after n).selectionEnd = front.length := by
  rw [selectionEnd, lastSelected, ← List.length_append, rdrop_append_rtake]

theorem select_lastSelected :
    (lastSelected front after k).select (front.length - n) front.length =
      lastSelected front after n := by
  rw [select, text_lastSelected, List.take_left, List.drop_left,
    List.take_append_of_le_length (by omega)]
  rfl

theorem replaceSelection_lastSelected (units : List α) :
    (lastSelected front after n).replaceSelection units =
      lastSelected (front.rdrop n ++ units) after 0 := by
  rw [lastSelected_zero]
  rfl

/-- Units are typed one by one. -/
theorem foldl_replaceSelection (units : List α) :
    units.foldl (fun t c => t.replaceSelection [c]) (lastSelected front after 0) =
      lastSelected (front ++ units) after 0 := by
  induction units generalizing front with
  | nil => rw [List.foldl_nil, List.append_nil]
  | cons c units ih =>
      rw [List.foldl_cons, replaceSelection_lastSelected, ih, List.rdrop_zero, List.append_assoc]
      rfl

theorem backspace_lastSelected_zero :
    (lastSelected front after 0).backspace = lastSelected (front.rdrop 1) after 0 := by
  rw [lastSelected_zero, lastSelected_zero, backspace, List.rdrop, ← List.dropLast_eq_take]
  rfl

theorem backspace_lastSelected (hpos : 0 < n) (hle : n ≤ front.length) :
    (lastSelected front after n).backspace = lastSelected (front.rdrop n) after 0 := by
  have hselected : (front.rtake n).isEmpty = false := by
    rw [List.isEmpty_eq_false_iff, ← List.length_pos_iff, List.rtake, List.length_drop]
    omega
  rw [lastSelected_zero, backspace]
  simp only [lastSelected, hselected, Bool.false_eq_true, if_false]

theorem iterate_backspace_zero (n : Nat) :
    backspace^[n] (lastSelected front after 0) = lastSelected (front.rdrop n) after 0 := by
  induction n generalizing front with
  | zero => rw [Function.iterate_zero, id, List.rdrop_zero]
  | succ n ih =>
        rw [Function.iterate_succ_apply, backspace_lastSelected_zero, ih, rdrop_rdrop, Nat.add_comm]

/-- The first backspace deletes the selection, and the others what is in front of it. -/
theorem iterate_backspace (hpos : 0 < n) (hle : n ≤ front.length) (hcount : 0 < k) :
    backspace^[k]
    (lastSelected front after n) = lastSelected (front.rdrop (n + (k - 1))) after 0 := by
  obtain ⟨m, rfl⟩ : ∃ m, k = m + 1 := ⟨k - 1, by omega⟩
  rw [Function.iterate_succ_apply, backspace_lastSelected hpos hle,
    iterate_backspace_zero, rdrop_rdrop, Nat.add_sub_cancel]

end SelectedText

/-! ## Repeated replacements -/

/-- The text before the caret after replacements of its last units. -/
def replacedFront (n : Nat) (units : List α) (front : List α) : Nat → List α
  | 0 => front
  | k + 1 => (replacedFront n units front k).rdrop n ++ units

section Repeated

open SelectedText

variable {n : Nat} {units front : List α}

/-- The length is known as long as there were enough units to replace. -/
theorem length_replacedFront {k : Nat} (h : ∀ j < k, n ≤ (replacedFront n units front j).length) :
    (replacedFront n units front k).length + k * n = front.length + k * units.length := by
  induction k with
  | zero => rw [replacedFront, Nat.zero_mul, Nat.zero_mul]
  | succ k ih =>
      have hle := h k (Nat.lt_succ_self k)
      have hlength := ih fun j hj => h j (Nat.lt_succ_of_lt hj)
      rw [replacedFront, List.length_append, length_rdrop, Nat.succ_mul, Nat.succ_mul]
      omega

theorem rdrop_prefix (front : List α) (n : Nat) : front.rdrop n <+: front :=
  List.take_prefix _ front

/-- The units that stay of the first text, or all that is left of them, stand in front. -/
theorem prefix_rdrop_replacedFront (k : Nat) :
    (units.length ≤ n → (replacedFront n units front k).rdrop n <+: front.rdrop n) ∧
      (n ≤ units.length → front.rdrop n <+: (replacedFront n units front k).rdrop n) := by
  induction k with
  | zero => exact ⟨fun _ => List.prefix_rfl, fun _ => List.prefix_rfl⟩
  | succ k ih =>
      refine ⟨fun hle => (?_ : _ <+: _).trans (ih.1 hle), fun hle => (ih.2 hle).trans ?_⟩
      · rw [replacedFront, List.rdrop, List.length_append,
          List.take_append_of_le_length (by omega)]
        exact List.take_prefix _ _
      · rw [replacedFront, List.rdrop.eq_def (_ ++ _), List.length_append, Nat.add_sub_assoc hle,
          List.take_length_add_append]
        exact List.prefix_append _ _

/-- What is deleted in the end leaves the units that stay exactly if it leaves as many. -/
theorem rdrop_replacedFront_eq_iff {k d : Nat} (hd : n ≤ d) :
    (replacedFront n units front k).rdrop d = front.rdrop n ↔
      (replacedFront n units front k).length - d = front.length - n := by
  rw [← length_rdrop, ← length_rdrop]
  refine ⟨congrArg List.length, fun hlength => ?_⟩
  have hshort :
    (replacedFront n units front k).rdrop d <+: (replacedFront n units front k).rdrop n := by
    rw [← Nat.add_sub_cancel' hd, ← rdrop_rdrop]
    exact rdrop_prefix _ _
  rcases Nat.le_total units.length n with hle | hle
  · exact (hshort.trans ((prefix_rdrop_replacedFront k).1 hle)).eq_of_length hlength
  · exact (List.prefix_of_prefix_length_le hshort ((prefix_rdrop_replacedFront k).2 hle)
      hlength.le).eq_of_length hlength

end Repeated

end VKey
