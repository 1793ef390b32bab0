import Mathlib.Data.List.Sort

/-!
# Sorting and dropping duplicates

Sorting by a comparison and keeping the first element of every run of equal ones gives the strictly
increasing list of the elements.
-/

namespace VKey

variable {α : Type*}

/-- Keep the first element of every run of equal ones, where a run has already begun. -/
def uniqueFrom (cmp : α → α → Ordering) : α → List α → List α
  | a, [] => [a]
  | a, b :: l => if cmp a b = .eq then uniqueFrom cmp a l else a :: uniqueFrom cmp b l

/-- Keep the first element of every run of equal ones. -/
def unique (cmp : α → α → Ordering) : List α → List α
  | [] => []
  | a :: l => uniqueFrom cmp a l

/-- The elements in increasing order, each of them once. -/
def sortUnique (cmp : α → α → Ordering) (l : List α) : List α :=
  unique cmp (l.insertionSort fun a b => (cmp a b).isLE = true)

section Lawful

variable {cmp : α → α → Ordering} [Std.TransCmp cmp] [Std.LawfulEqCmp cmp]

omit [Std.TransCmp cmp] in
theorem mem_uniqueFrom {a x : α} {l : List α} : x ∈ uniqueFrom cmp a l ↔ x = a ∨ x ∈ l := by
  induction l generalizing a with
  | nil => simp [uniqueFrom]
  | cons b l ih =>
      unfold uniqueFrom
      split_ifs with heq
      · have hab : a = b := Std.LawfulEqCmp.eq_of_compare heq
        rw [ih, List.mem_cons, hab]
        tauto
      · rw [List.mem_cons, ih, List.mem_cons]

theorem pairwise_uniqueFrom {a : α} {l : List α}
    (h : (a :: l).Pairwise fun x y => (cmp x y).isLE = true) :
    (uniqueFrom cmp a l).Pairwise fun x y => cmp x y = .lt := by
  induction l generalizing a with
  | nil => exact List.pairwise_singleton _ _
  | cons b l ih =>
      obtain ⟨hhead, htail⟩ := List.pairwise_cons.mp h
      unfold uniqueFrom
      split_ifs with heq
      · refine ih (List.pairwise_cons.mpr ⟨fun x hx => ?_, (List.pairwise_cons.mp htail).2⟩)
        exact hhead x (List.mem_cons_of_mem _ hx)
      · refine List.pairwise_cons.mpr ⟨fun x hx => ?_, ih htail⟩
        have hab : cmp a b = .lt := by
          have hle := hhead b List.mem_cons_self
          cases hcmp : cmp a b <;> simp_all
        rcases mem_uniqueFrom.mp hx with rfl | hx
        · exact hab
        · exact Std.TransCmp.lt_of_lt_of_isLE hab ((List.pairwise_cons.mp htail).1 x hx)

omit [Std.TransCmp cmp] in
/-- Sorting and dropping duplicates keeps the elements. -/
theorem mem_sortUnique {x : α} {l : List α} : x ∈ sortUnique cmp l ↔ x ∈ l := by
  have hmem : ∀ sorted : List α, x ∈ unique cmp sorted ↔ x ∈ sorted := by
    intro sorted
    cases sorted with
    | nil => simp [unique]
    | cons a sorted => rw [unique, mem_uniqueFrom, List.mem_cons]
  rw [sortUnique, hmem, List.mem_insertionSort]

/-- The result is strictly increasing. -/
theorem pairwise_sortUnique (l : List α) :
    (sortUnique cmp l).Pairwise fun x y => cmp x y = .lt := by
  have htotal : Std.Total fun a b => (cmp a b).isLE = true :=
    ⟨fun a b => by
      have hswap : cmp b a = (cmp a b).swap := Std.OrientedCmp.eq_swap
      rw [hswap]
      cases cmp a b <;> simp⟩
  have htrans : IsTrans α fun a b => (cmp a b).isLE = true :=
    ⟨fun _ _ _ => Std.TransCmp.isLE_trans⟩
  have hsorted := List.pairwise_insertionSort (fun a b => (cmp a b).isLE = true) l
  unfold sortUnique
  cases hl : l.insertionSort fun a b => (cmp a b).isLE = true with
  | nil => exact List.Pairwise.nil
  | cons a l => exact pairwise_uniqueFrom (hl ▸ hsorted)

omit [Std.TransCmp cmp] in
theorem nodup_of_pairwise_lt {l : List α} (h : l.Pairwise fun x y => cmp x y = .lt) : l.Nodup :=
  h.imp fun {a b} hlt heq => by
    have hself : cmp b b = .eq := Std.ReflCmp.compare_self
    rw [heq, hself] at hlt
    exact absurd hlt (by decide)

theorem nodup_sortUnique (l : List α) : (sortUnique cmp l).Nodup :=
  nodup_of_pairwise_lt (pairwise_sortUnique l)

/-- Elements without duplicates are only rearranged. -/
theorem sortUnique_perm {l : List α} (h : l.Nodup) : (sortUnique cmp l).Perm l :=
  (List.perm_ext_iff_of_nodup (nodup_sortUnique l) h).mpr fun _ => mem_sortUnique

/-- Strictly increasing lists with the same elements are equal. -/
theorem eq_of_pairwise_lt {l l' : List α} (h : l.Pairwise fun x y => cmp x y = .lt)
    (h' : l'.Pairwise fun x y => cmp x y = .lt) (hmem : ∀ x, x ∈ l ↔ x ∈ l') : l = l' := by
  refine List.Perm.eq_of_pairwise (fun a b _ _ hab hba => ?_) h h'
    ((List.perm_ext_iff_of_nodup (nodup_of_pairwise_lt h) (nodup_of_pairwise_lt h')).mpr hmem)
  have hswap : cmp b a = (cmp a b).swap := Std.OrientedCmp.eq_swap
  rw [hswap, hab] at hba
  exact absurd hba (by decide)

/-- The result depends on the elements alone. -/
theorem sortUnique_congr {l l' : List α} (hmem : ∀ x, x ∈ l ↔ x ∈ l') :
    sortUnique cmp l = sortUnique cmp l' :=
  eq_of_pairwise_lt (pairwise_sortUnique l) (pairwise_sortUnique l') fun x => by
    rw [mem_sortUnique, mem_sortUnique, hmem x]

/-- A strictly increasing list is its own result. -/
theorem sortUnique_eq_self {l : List α} (h : l.Pairwise fun x y => cmp x y = .lt) :
    sortUnique cmp l = l :=
  eq_of_pairwise_lt (pairwise_sortUnique l) h fun _ => mem_sortUnique

end Lawful

end VKey
