import Mathlib.Data.List.TakeWhile

/-!
# Spans

A scanner passes over the elements of a class and stops at the first other one.  What it passes over
is a span of the class, and a list has only one division into a span and a rest at which the scanner
stops.
-/

namespace VKey

variable {α : Type} {p : α → Bool}

/-- Elements of a class, in a row. -/
@[ext] structure SpanOf (p : α → Bool) where
  items : List α
  all_items : ∀ a ∈ items, p a = true

/-- The list does not start with an element of the class. -/
def StopsAt (p : α → Bool) (rest : List α) : Prop := ∀ a ∈ rest.head?, p a = false

@[simp] theorem stopsAt_nil : StopsAt p [] := by
  simp [StopsAt]

@[simp] theorem stopsAt_cons {a : α} {rest : List α} : StopsAt p (a :: rest) ↔ p a = false := by
  simp [StopsAt]

theorem stopsAt_dropWhile (rest : List α) : StopsAt p (rest.dropWhile p) := by
  intro a ha
  have hnot := List.head?_dropWhile_not p rest
  rw [Option.mem_def.mp ha] at hnot
  simpa using hnot

namespace SpanOf

/-- The empty span. -/
def nil : SpanOf p := ⟨[], by simp⟩

@[simp] theorem items_nil : (nil : SpanOf p).items = [] := rfl

/-- A span of given elements. -/
def ofAll (items : List α) (h : items.all p = true) : SpanOf p := ⟨items, List.all_eq_true.mp h⟩

/-- The longest span at the start of a list. -/
def longest (p : α → Bool) (rest : List α) : SpanOf p :=
  ⟨rest.takeWhile p, fun _ ha => List.mem_takeWhile_imp ha⟩

theorem takeWhile_append (w : SpanOf p) {rest : List α} (hrest : StopsAt p rest) :
    (w.items ++ rest).takeWhile p = w.items := by
  rw [List.takeWhile_append_of_pos w.all_items]
  cases rest with
  | nil => simp
  | cons a rest =>
      have ha : p a = false := stopsAt_cons.mp hrest
      simp [ha]

theorem dropWhile_append (w : SpanOf p) {rest : List α} (hrest : StopsAt p rest) :
    (w.items ++ rest).dropWhile p = rest := by
  rw [List.dropWhile_append_of_pos w.all_items]
  cases rest with
  | nil => simp
  | cons a rest =>
      have ha : p a = false := stopsAt_cons.mp hrest
      simp [ha]

/-- A span of another class does not move the stop. -/
theorem stopsAt_append {q : α → Bool} (w : SpanOf q) {rest : List α}
    (hdisjoint : ∀ a, q a = true → p a = false) (hrest : StopsAt p rest) :
    StopsAt p (w.items ++ rest) := by
  rcases hw : w.items with - | ⟨a, tail⟩
  · simpa using hrest
  · have ha : a ∈ w.items := by simp [hw]
    simpa using hdisjoint a (w.all_items a ha)

/-- A list is divided in one way. -/
theorem append_inj {w w' : SpanOf p} {rest rest' : List α} (h : w.items ++ rest = w'.items ++ rest')
    (hrest : StopsAt p rest) (hrest' : StopsAt p rest') : w = w' ∧ rest = rest' := by
  constructor
  · ext1
    rw [← w.takeWhile_append hrest, h, w'.takeWhile_append hrest']
  · rw [← w.dropWhile_append hrest, h, w'.dropWhile_append hrest']

end SpanOf

/-- What a scanner leaves is what stops it behind a span. -/
theorem dropWhile_eq_iff {rest after : List α} :
    rest.dropWhile p = after ↔ StopsAt p after ∧ ∃ w : SpanOf p, rest = w.items ++ after := by
  constructor
  · rintro rfl
    exact ⟨stopsAt_dropWhile rest, SpanOf.longest p rest, List.takeWhile_append_dropWhile.symm⟩
  · rintro ⟨hstop, w, rfl⟩
    exact w.dropWhile_append hstop

end VKey
