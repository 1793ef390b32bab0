import Mathlib.Data.List.InsertIdx
import Mathlib.Data.List.Perm.Basic
import Mathlib.Logic.Function.Basic
import Mathlib.Tactic.SplitIfs

/-!
# Editing lists in place

Membership, order and lookup in lists after a single element has been changed, inserted or erased.
-/

namespace VKey

variable {α : Type*}

/-- A property of all elements survives a change that establishes it. -/
theorem forall_mem_modify {P : α → Prop} {l : List α} {i : Nat} {f : α → α}
    (h : ∀ a ∈ l, P a) (hf : ∀ hi : i < l.length, P (f l[i])) : ∀ a ∈ l.modify i f, P a := by
  intro a ha
  obtain ⟨j, hj, rfl⟩ := List.mem_iff_getElem.mp ha
  rw [List.getElem_modify]
  split_ifs with hij
  · subst hij
    exact hf (by simpa using hj)
  · exact h _ (List.getElem_mem _)

theorem mem_of_mem_insertIdx {l : List α} {i : Nat} {x a : α} (h : a ∈ l.insertIdx i x) :
    a = x ∨ a ∈ l := by
  by_cases hi : i ≤ l.length
  · exact (List.mem_insertIdx hi).mp h
  · rw [List.insertIdx_of_length_lt (by omega)] at h
    exact .inr h

/-- Inserting in front of the first element with a greater key keeps a list sorted by keys, where
the order of the list tells that the elements behind it have greater keys too. -/
theorem pairwise_insertIdx_findIdx {R : α → α → Prop} {f : α → Nat} {x : α} {l : List α}
    (h : l.Pairwise R) (hbefore : ∀ a ∈ l, ¬ f x < f a → R a x)
    (hat : ∀ a, f x < f a → R x a) (hbehind : ∀ a b, f x < f a → R a b → R x b) :
    (l.insertIdx ((l.findIdx? fun a => decide (f x < f a)).getD l.length) x).Pairwise R := by
  induction l with
  | nil => simp
  | cons a l ih =>
      obtain ⟨ha, hl⟩ := List.pairwise_cons.mp h
      by_cases hlt : f x < f a
      · simp only [List.findIdx?_cons, hlt, decide_true, if_true, Option.getD_some,
          List.insertIdx_zero, List.pairwise_cons, List.forall_mem_cons]
        exact ⟨⟨hat a hlt, fun b hb => hbehind a b hlt (ha b hb)⟩, ha, hl⟩
      · have hpos : ((a :: l).findIdx? fun a => decide (f x < f a)).getD (a :: l).length =
            (l.findIdx? fun a => decide (f x < f a)).getD l.length + 1 := by
          simp only [List.findIdx?_cons, hlt, decide_false, Bool.false_eq_true, if_false]
          cases l.findIdx? fun a => decide (f x < f a) <;> simp
        rw [hpos, List.insertIdx_succ_cons, List.pairwise_cons]
        refine ⟨fun b hb => ?_, ih hl fun b hb => hbefore b (List.mem_cons_of_mem a hb)⟩
        rcases mem_of_mem_insertIdx hb with rfl | hb
        · exact hbefore a List.mem_cons_self hlt
        · exact ha b hb

theorem getD_eraseIdx (l : List α) (i j : Nat) (d : α) :
    (l.eraseIdx i).getD j d = l.getD (if j < i then j else j + 1) d := by
  simp only [List.getD_eq_getElem?_getD, List.getElem?_eraseIdx]
  split_ifs <;> rfl

theorem getD_set (l : List α) (i j : Nat) (a d : α) (h : i < l.length) :
    (l.set i a).getD j d = if i = j then a else l.getD j d := by
  simp only [List.getD_eq_getElem?_getD, List.getElem?_set]
  split_ifs <;> simp_all

theorem getD_take (l : List α) (n j : Nat) (d : α) (h : j < n) :
    (l.take n).getD j d = l.getD j d := by
  simp [List.getD_eq_getElem?_getD, h]

theorem getD_append_of_lt {l : List α} (l' : List α) {j : Nat} (d : α) (h : j < l.length) :
    (l ++ l').getD j d = l.getD j d := by
  simp [List.getD_eq_getElem?_getD, List.getElem?_append, h]

/-- In a table without repeated keys a key is looked up to the entry that has it. -/
theorem lookup_eq_some_iff_mem {β : Type*} [BEq α] [LawfulBEq α] {l : List (α × β)}
    (hnodup : (l.map Prod.fst).Nodup) {key : α} {value : β} :
    l.lookup key = some value ↔ (key, value) ∈ l := by
  induction l with
  | nil =>
      exact iff_of_false (by rw [List.lookup_nil]; exact Option.some_ne_none value ∘ Eq.symm)
        List.not_mem_nil
  | cons entry rest ih =>
      obtain ⟨hentry, hrest⟩ := List.nodup_cons.mp hnodup
      rw [List.lookup_cons, List.mem_cons]
      by_cases hkey : key = entry.1
      · rw [beq_iff_eq.mpr hkey]
        constructor
        · intro h
          exact Or.inl (Prod.ext hkey (Option.some.inj h).symm)
        · rintro (rfl | hmem)
          · rfl
          · exact absurd (List.mem_map_of_mem hmem) (hkey ▸ hentry)
      · rw [beq_false_of_ne hkey]
        exact (ih hrest).trans (or_iff_right fun heq => hkey (congrArg Prod.fst heq)).symm

/-- The order of the entries does not matter. -/
theorem lookup_eq_of_perm {β : Type*} [BEq α] [LawfulBEq α] {l l' : List (α × β)} (h : l.Perm l')
    (hnodup : (l.map Prod.fst).Nodup) (key : α) : l.lookup key = l'.lookup key := by
  have hnodup' : (l'.map Prod.fst).Nodup := (h.map Prod.fst).nodup_iff.mp hnodup
  refine Option.ext fun value => ?_
  rw [lookup_eq_some_iff_mem hnodup, lookup_eq_some_iff_mem hnodup', h.mem_iff]

/-- What a map has at a key after it was given the entries of a table without repeated keys. -/
theorem foldl_update_eq_lookup {β : Type*} [BEq α] [LawfulBEq α] [DecidableEq α] {l : List (α × β)}
    (hnodup : (l.map Prod.fst).Nodup) (map : α → Option β) (key : α) :
    l.foldl (fun (map : α → Option β) entry => Function.update map entry.1 (some entry.2)) map key =
      (l.lookup key).or (map key) := by
  induction l generalizing map with
  | nil => rfl
  | cons entry rest ih =>
      obtain ⟨hentry, hrest⟩ := List.nodup_cons.mp hnodup
      rw [List.foldl_cons, ih hrest, List.lookup_cons]
      by_cases hkey : key = entry.1
      · have hnone : rest.lookup entry.1 = none :=
          Option.eq_none_iff_forall_ne_some.mpr fun value hvalue =>
            hentry (List.mem_map.mpr ⟨_, (lookup_eq_some_iff_mem hrest).mp hvalue, rfl⟩)
        rw [hkey, hnone, Function.update_self, beq_self_eq_true]
        rfl
      · rw [Function.update_of_ne hkey, beq_false_of_ne hkey]

end VKey
