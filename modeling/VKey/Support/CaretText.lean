import Mathlib.Data.List.DropRight
import Mathlib.Data.List.TakeWhile

/-!
# Text with a caret

A text that is edited at a caret, and two things an editor without sight of the text relies on: that
replacing what two versions of a word do not share turns the one into the other, and where the words
it remembers are laid out before the caret.
-/

namespace VKey

variable {α β : Type}

/-- A text and a caret in it. -/
structure CaretText (α : Type) where
  before : List α := []
  after : List α := []
  deriving DecidableEq, Repr

namespace CaretText

/-- Insert units at the caret. -/
def insert (t : CaretText α) (units : List α) : CaretText α :=
  { t with before := t.before ++ units }

/-- Delete units before the caret. -/
def eraseBefore (t : CaretText α) (n : Nat) : CaretText α :=
  { t with before := t.before.rdrop n }

/-- Delete the unit after the caret. -/
def eraseAfter (t : CaretText α) : CaretText α :=
  { t with after := t.after.tail }

/-- Put the caret after the first `n` units. -/
def moveTo (t : CaretText α) (n : Nat) : CaretText α where
  before := (t.before ++ t.after).take n
  after := (t.before ++ t.after).drop n

/-- Delete units before the caret and insert others. -/
def replace (t : CaretText α) (n : Nat) (units : List α) : CaretText α :=
  (t.eraseBefore n).insert units

@[simp] theorem before_insert (t : CaretText α) (units : List α) :
    (t.insert units).before = t.before ++ units := rfl

@[simp] theorem before_eraseBefore (t : CaretText α) (n : Nat) :
    (t.eraseBefore n).before = t.before.rdrop n := rfl

theorem replace_zero (t : CaretText α) (units : List α) : t.replace 0 units = t.insert units := by
  rw [replace, eraseBefore, List.rdrop_zero]

/-- Units at the end of the text before the caret are deleted, and no others. -/
theorem rdrop_append_length (front back : List α) : (front ++ back).rdrop back.length = front := by
  rw [List.rdrop, List.length_append, Nat.add_sub_cancel, List.take_left]

/-- A replacement that deletes the units at the end of the text. -/
theorem before_replace {t : CaretText α} {front back : List α} (h : t.before = front ++ back)
    (units : List α) : (t.replace back.length units).before = front ++ units := by
  rw [replace, before_insert, before_eraseBefore, h, rdrop_append_length]

end CaretText

/-! ## Text behind a front -/

/-- Behind `front` there are `n` units of the text, or at most `n` if nothing stands before them. -/
def Behind (front text : List α) (n : Nat) : Prop :=
  ∃ shown, text = front ++ shown ∧ (shown.length = n ∨ front = [] ∧ shown.length ≤ n)

/-- Deleting the units behind a front leaves the front. -/
theorem behind_iff {front text : List α} {n : Nat} :
    Behind front text n ↔ text.rdrop n = front := by
  constructor
  · rintro ⟨shown, rfl, rfl | ⟨rfl, hle⟩⟩
    · exact CaretText.rdrop_append_length front shown
    · rw [List.nil_append, List.rdrop, Nat.sub_eq_zero_of_le hle, List.take_zero]
  · rintro rfl
    refine ⟨text.rtake n, (List.take_append_drop _ _).symm, ?_⟩
    rw [List.rtake, List.length_drop, List.rdrop, List.take_eq_nil_iff]
    omega

/-! ## Replacing the difference of two words -/

section Difference

variable [DecidableEq α]

/-- The number of leading elements that two lists share. -/
def commonLength : List α → List α → Nat
  | a :: as, b :: bs => if a = b then commonLength as bs + 1 else 0
  | _, _ => 0

theorem take_commonLength (as bs : List α) :
    as.take (commonLength as bs) = bs.take (commonLength as bs) := by
  induction as, bs using commonLength.induct with
  | case1 a as bs ih => simp [commonLength, ih]
  | case2 a as b bs hne => simp [commonLength, hne]
  | case3 as bs hnone =>
      have hzero : commonLength as bs = 0 := by
        unfold commonLength
        split
        · exact absurd rfl (hnone _ _ _ _ rfl)
        · rfl
      simp [hzero]

/-- Both lists are what they share and a rest. -/
theorem exists_commonLength (as bs : List α) :
    ∃ shared, as = shared ++ as.drop (commonLength as bs) ∧
      bs = shared ++ bs.drop (commonLength as bs) := by
  refine ⟨as.take (commonLength as bs), (List.take_append_drop _ _).symm, ?_⟩
  rw [take_commonLength]
  exact (List.take_append_drop _ _).symm

/-- Replacing what two words do not share, each written unit by unit, turns one into the other. -/
theorem CaretText.before_replace_difference (units : α → List β) {t : CaretText β}
    {front : List β} {old : List α} (h : t.before = front ++ old.flatMap units) (new : List α) :
    (t.replace ((old.drop (commonLength old new)).flatMap units).length
      ((new.drop (commonLength old new)).flatMap units)).before = front ++ new.flatMap units := by
  obtain ⟨shared, hold, hnew⟩ := exists_commonLength old new
  have hsplit : t.before = (front ++ shared.flatMap units) ++
      (old.drop (commonLength old new)).flatMap units := by
    rw [h, List.append_assoc, ← List.flatMap_append, ← hold]
  rw [CaretText.before_replace hsplit, List.append_assoc, ← List.flatMap_append, ← hnew]

end Difference

/-! ## Words before the caret -/

/-- The text ends with the words of a stack, the last word first.  `gap` units stand behind the last
word, and each word comes with the number of units between it and the word before. -/
def LaidOut : List α → List (List α × Nat) → Nat → Prop
  | _, [], _ => True
  | text, (word, below) :: words, gap =>
      ∃ front back, text = front ++ word ++ back ∧ back.length = gap ∧ LaidOut front words below

namespace LaidOut

variable {text : List α} {words : List (List α × Nat)} {gap : Nat}

theorem nil : LaidOut text [] gap := trivial

/-- Text behind the words widens the gap. -/
theorem append (h : LaidOut text words gap) (units : List α) :
    LaidOut (text ++ units) words (gap + units.length) := by
  cases words with
  | nil => exact nil
  | cons entry words =>
      obtain ⟨front, back, rfl, hgap, hrest⟩ := h
      exact ⟨front, back ++ units, List.append_assoc _ _ _, by simp [hgap], hrest⟩

/-- Deleting a unit of the gap narrows it. -/
theorem rdrop_one (h : LaidOut text words (gap + 1)) : LaidOut (text.rdrop 1) words gap := by
  cases words with
  | nil => exact nil
  | cons entry words =>
      obtain ⟨front, back, rfl, hgap, hrest⟩ := h
      rcases List.eq_nil_or_concat' back with rfl | ⟨units, last, rfl⟩
      · exact absurd hgap (Nat.succ_ne_zero gap).symm
      refine ⟨front, units, ?_, by simpa using hgap, hrest⟩
      rw [← List.append_assoc, List.rdrop_concat_succ, List.rdrop_zero]

/-- A word written at the caret. -/
theorem push (h : LaidOut text words gap) (word : List α) :
    LaidOut (text ++ word) ((word, gap) :: words) 0 :=
  ⟨text, [], (List.append_nil _).symm, rfl, h⟩

/-- The last word stands at the caret. -/
theorem pop {word : List α} {below : Nat} (h : LaidOut text ((word, below) :: words) 0) :
    ∃ front, text = front ++ word ∧ LaidOut front words below := by
  obtain ⟨front, back, rfl, hgap, hrest⟩ := h
  obtain rfl := List.length_eq_zero_iff.mp hgap
  exact ⟨front, List.append_nil _, hrest⟩

/-- The words below the first `n` may be forgotten. -/
theorem take (h : LaidOut text words gap) (n : Nat) : LaidOut text (words.take n) gap := by
  induction words generalizing text gap n with
  | nil => simp [nil]
  | cons entry words ih =>
      cases n with
      | zero => exact nil
      | succ n =>
          obtain ⟨front, back, htext, hgap, hrest⟩ := h
          exact ⟨front, back, htext, hgap, ih hrest n⟩

/-- Only the first words are kept. -/
theorem of_prefix {kept : List (List α × Nat)} (h : LaidOut text words gap)
    (hkept : kept <+: words) : LaidOut text kept gap := by
  rw [List.prefix_iff_eq_take.mp hkept]
  exact h.take _

end LaidOut

end VKey
