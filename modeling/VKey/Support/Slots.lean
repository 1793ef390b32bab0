import Mathlib.Data.List.Perm.Basic

/-!
# Fixed arrays of slots

An array of a fixed length in which a slot holds a valid value or is free.  A value is put into the
first free slot, and the first value with a property is taken out.  Up to the order, the values in
use change by just that value.
-/

namespace VKey

/-- An array of slots. -/
structure Slots (α : Type) (n : Nat) where
  list : List α
  length_list : list.length = n

namespace Slots

variable {α : Type} {n : Nat} {valid p : α → Bool} {empty a : α} {slots slots' : Slots α n}

/-- An array without values. -/
def clear (empty : α) : Slots α n := ⟨List.replicate n empty, List.length_replicate⟩

/-- The values in use. -/
def occupied (valid : α → Bool) (slots : Slots α n) : List α := slots.list.filter valid

theorem mem_occupied : a ∈ slots.occupied valid ↔ a ∈ slots.list ∧ valid a = true := List.mem_filter

theorem occupied_clear (hempty : valid empty = false) :
    (clear empty : Slots α n).occupied valid = [] := by
  apply List.filter_eq_nil_iff.mpr
  intro slot hslot
  rw [List.eq_of_mem_replicate hslot, hempty]
  exact Bool.false_ne_true

theorem length_occupied_le : (slots.occupied valid).length ≤ n :=
  le_of_le_of_eq (List.length_filter_le valid slots.list) slots.length_list

/-! ## Filling a slot -/

/-- Put a value into the first free slot of a list. -/
def fillList (valid : α → Bool) (a : α) : List α → Option (List α)
  | [] => none
  | slot :: list =>
      if valid slot then (fillList valid a list).map (slot :: ·) else some (a :: list)

theorem length_fillList {list list' : List α} (h : fillList valid a list = some list') :
    list'.length = list.length := by
  induction list generalizing list' with
  | nil => cases h
  | cons slot list ih =>
      rw [fillList] at h
      split_ifs at h with hvalid
      · obtain ⟨rest, hrest, rfl⟩ := Option.map_eq_some_iff.mp h
        rw [List.length_cons, List.length_cons, ih hrest]
      · obtain rfl := Option.some.inj h
        rfl

theorem filter_fillList {list list' : List α} (ha : valid a = true)
    (h : fillList valid a list = some list') :
    (list'.filter valid).Perm (a :: list.filter valid) := by
  induction list generalizing list' with
  | nil => cases h
  | cons slot list ih =>
      rw [fillList] at h
      split_ifs at h with hvalid
      · obtain ⟨rest, hrest, rfl⟩ := Option.map_eq_some_iff.mp h
        rw [List.filter_cons_of_pos hvalid, List.filter_cons_of_pos hvalid]
        exact ((ih hrest).cons slot).trans (List.Perm.swap a slot _)
      · obtain rfl := Option.some.inj h
        rw [List.filter_cons_of_pos ha, List.filter_cons_of_neg hvalid]

theorem fillList_eq_none {list : List α} :
    fillList valid a list = none ↔ ∀ slot ∈ list, valid slot = true := by
  induction list with
  | nil => simp [fillList]
  | cons slot list ih =>
      rw [fillList, List.forall_mem_cons]
      split_ifs with hvalid
      · rw [Option.map_eq_none_iff, ih]
        exact ⟨fun h => ⟨hvalid, h⟩, And.right⟩
      · exact iff_of_false not_false fun h => hvalid h.1

theorem mem_fillList {list list' : List α} {slot : α} (h : fillList valid a list = some list')
    (hslot : slot ∈ list') : slot = a ∨ slot ∈ list := by
  induction list generalizing list' with
  | nil => cases h
  | cons first list ih =>
      rw [fillList] at h
      split_ifs at h
      · obtain ⟨rest, hrest, rfl⟩ := Option.map_eq_some_iff.mp h
        rcases List.mem_cons.mp hslot with rfl | hslot
        · exact Or.inr List.mem_cons_self
        · exact (ih hrest hslot).imp_right (List.mem_cons_of_mem first)
      · obtain rfl := Option.some.inj h
        exact (List.mem_cons.mp hslot).imp_right (List.mem_cons_of_mem first)

/-- Put a value into the first free slot, if there is one. -/
def fill (valid : α → Bool) (a : α) (slots : Slots α n) : Option (Slots α n) :=
  (fillList valid a slots.list).pmap (fun list h => ⟨list, h⟩)
    fun _ h => (length_fillList h).trans slots.length_list

theorem occupied_fill (ha : valid a = true) (h : slots.fill valid a = some slots') :
    (slots'.occupied valid).Perm (a :: slots.occupied valid) := by
  obtain ⟨list, _, hlist, rfl⟩ := Option.pmap_eq_some_iff.mp h
  exact filter_fillList ha hlist

theorem mem_fill {slot : α} (h : slots.fill valid a = some slots') (hslot : slot ∈ slots'.list) :
    slot = a ∨ slot ∈ slots.list := by
  obtain ⟨list, _, hlist, rfl⟩ := Option.pmap_eq_some_iff.mp h
  exact mem_fillList hlist hslot

/-- Only a full array refuses a value. -/
theorem fill_eq_none (h : slots.fill valid a = none) : (slots.occupied valid).length = n := by
  rw [fill, Option.pmap_eq_none_iff] at h
  rw [occupied, List.filter_eq_self.mpr (fillList_eq_none.mp h), slots.length_list]

/-! ## Taking a value out -/

/-- Take the first value with a property out of a list. -/
def takeList (p : α → Bool) (empty : α) : List α → Option (α × List α)
  | [] => none
  | slot :: list =>
      if p slot then some (slot, empty :: list)
      else (takeList p empty list).map fun taken => (taken.1, slot :: taken.2)

theorem length_takeList {list : List α} {taken : α × List α}
    (h : takeList p empty list = some taken) :
    taken.2.length = list.length := by
  induction list generalizing taken with
  | nil => cases h
  | cons slot list ih =>
      rw [takeList] at h
      split_ifs at h with hp
      · obtain rfl := Option.some.inj h
        rfl
      · obtain ⟨rest, hrest, rfl⟩ := Option.map_eq_some_iff.mp h
        rw [List.length_cons, List.length_cons, ih hrest]

theorem takeList_eq_none {list : List α} :
    takeList p empty list = none ↔ ∀ slot ∈ list, ¬p slot = true := by
  induction list with
  | nil => simp [takeList]
  | cons slot list ih =>
      rw [takeList, List.forall_mem_cons]
      split_ifs with hp
      · exact iff_of_false not_false fun h => h.1 hp
      · rw [Option.map_eq_none_iff, ih]
        exact ⟨fun h => ⟨hp, h⟩, And.right⟩

theorem mem_takeList {list : List α} {taken : α × List α} {slot : α}
    (h : takeList p empty list = some taken) (hslot : slot ∈ taken.2) :
    slot = empty ∨ slot ∈ list := by
  induction list generalizing taken with
  | nil => cases h
  | cons first list ih =>
      rw [takeList] at h
      split_ifs at h
      · obtain rfl := Option.some.inj h
        exact (List.mem_cons.mp hslot).imp_right (List.mem_cons_of_mem first)
      · obtain ⟨taken, htaken, rfl⟩ := Option.map_eq_some_iff.mp h
        rcases List.mem_cons.mp hslot with rfl | hslot
        · exact Or.inr List.mem_cons_self
        · exact (ih htaken hslot).imp_right (List.mem_cons_of_mem first)

/-- A valid value is taken out. -/
theorem filter_takeList {list : List α} {taken : α × List α} (hempty : valid empty = false)
    (hvalid : ∀ slot ∈ list, p slot = true → valid slot = true)
    (h : takeList p empty list = some taken) :
    p taken.1 = true ∧ (list.filter valid).Perm (taken.1 :: taken.2.filter valid) := by
  induction list generalizing taken with
  | nil => cases h
  | cons slot list ih =>
      obtain ⟨hfirst, hrest⟩ := List.forall_mem_cons.mp hvalid
      rw [takeList] at h
      split_ifs at h with hp
      · obtain rfl := Option.some.inj h
        refine ⟨hp, ?_⟩
        rw [List.filter_cons_of_pos (hfirst hp), List.filter_cons_of_neg]
        rw [hempty]
        exact Bool.false_ne_true
      · obtain ⟨taken, htaken, rfl⟩ := Option.map_eq_some_iff.mp h
        obtain ⟨hpick, hperm⟩ := ih hrest htaken
        refine ⟨hpick, ?_⟩
        by_cases hslot : valid slot = true
        · rw [List.filter_cons_of_pos hslot, List.filter_cons_of_pos hslot]
          exact (hperm.cons slot).trans (List.Perm.swap taken.1 slot _)
        · rw [List.filter_cons_of_neg hslot, List.filter_cons_of_neg hslot]
          exact hperm

/-- Take the first value with a property out of its slot. -/
def take (p : α → Bool) (empty : α) (slots : Slots α n) : Option (α × Slots α n) :=
  (takeList p empty slots.list).pmap (fun taken h => (taken.1, ⟨taken.2, h⟩))
    fun _ h => (length_takeList h).trans slots.length_list

theorem take_eq_none : slots.take p empty = none ↔ ∀ slot ∈ slots.list, ¬p slot = true := by
  rw [take, Option.pmap_eq_none_iff]
  exact takeList_eq_none

theorem mem_take {taken : α × Slots α n} {slot : α} (h : slots.take p empty = some taken)
    (hslot : slot ∈ taken.2.list) : slot = empty ∨ slot ∈ slots.list := by
  obtain ⟨pick, _, hpick, rfl⟩ := Option.pmap_eq_some_iff.mp h
  exact mem_takeList hpick hslot

theorem occupied_take {taken : α × Slots α n} (hempty : valid empty = false)
    (hvalid : ∀ slot ∈ slots.list, p slot = true → valid slot = true)
    (h : slots.take p empty = some taken) :
    p taken.1 = true ∧ (slots.occupied valid).Perm (taken.1 :: taken.2.occupied valid) := by
  obtain ⟨pick, _, hpick, rfl⟩ := Option.pmap_eq_some_iff.mp h
  exact filter_takeList hempty hvalid hpick

/-- Free the first slot with a property, if there is one. -/
def free (p : α → Bool) (empty : α) (slots : Slots α n) : Slots α n :=
  ((slots.take p empty).map Prod.snd).getD slots

theorem occupied_free [DecidableEq α] (hempty : valid empty = false)
    (hmem : a ∈ slots.occupied valid) :
    (slots.occupied valid).Perm (a :: (slots.free (· == a) empty).occupied valid) := by
  obtain ⟨hlist, ha⟩ := mem_occupied.mp hmem
  have hvalid : ∀ slot ∈ slots.list, (slot == a) = true → valid slot = true := by
    intro slot _ hslot
    rw [beq_iff_eq.mp hslot, ha]
  rw [free]
  cases htake : slots.take (· == a) empty with
  | none => exact absurd (beq_self_eq_true a) (take_eq_none.mp htake a hlist)
  | some taken =>
      obtain ⟨hpick, hperm⟩ := occupied_take hempty hvalid htake
      rw [beq_iff_eq.mp hpick] at hperm
      exact hperm

end Slots

end VKey
