import Mathlib.Data.List.Sort
import Mathlib.Data.List.Infix

/-!
# Searching sorted sequences

Binary search finds the partition point of a list whose first elements satisfy a test and whose
other elements do not.  In a list of keys in lexicographic order, the keys with a given prefix
stand side by side, so a search and a scan from its result find all of them.
-/

namespace VKey

variable {α β : Type*}

/-! ## Partition points -/

/-- The elements that satisfy a test come first. -/
def Partitioned (p : α → Bool) (xs : List α) : Prop :=
  xs.Pairwise fun a b => p b = true → p a = true

/-- Halve the range of `count` elements from `first` until it is empty. -/
def lowerBoundFrom (xs : List α) (p : α → Bool) (first count : Nat) : Nat :=
  if count = 0 then first
  else
    let step := count / 2
    if xs[first + step]?.any p then
      lowerBoundFrom xs p (first + step + 1) (count - (step + 1))
    else lowerBoundFrom xs p first step
termination_by count

/-- The position of the first element that fails a test, in a partitioned list. -/
def lowerBound (xs : List α) (p : α → Bool) : Nat := lowerBoundFrom xs p 0 xs.length

/-- An index separates the elements that satisfy a test from the others. -/
def Separates (p : α → Bool) (xs : List α) (n : Nat) : Prop :=
  (∀ i a, i < n → xs[i]? = some a → p a = true) ∧
    ∀ i a, n ≤ i → xs[i]? = some a → p a = false

theorem Partitioned.of_lt {p : α → Bool} {xs : List α} (h : Partitioned p xs) {i j : Nat} {a b : α}
    (ha : xs[i]? = some a) (hb : xs[j]? = some b) (hij : i ≤ j) (hp : p b = true) : p a = true := by
  obtain ⟨hi, rfl⟩ := List.getElem?_eq_some_iff.mp ha
  obtain ⟨hj, rfl⟩ := List.getElem?_eq_some_iff.mp hb
  rcases Nat.lt_or_eq_of_le hij with hlt | rfl
  · exact List.pairwise_iff_getElem.mp h i j hi hj hlt hp
  · exact hp

theorem lowerBoundFrom_separates {p : α → Bool} {xs : List α} (hpart : Partitioned p xs)
    {first count : Nat} (hle : first + count ≤ xs.length)
    (hlow : ∀ i a, i < first → xs[i]? = some a → p a = true)
    (hhigh : ∀ i a, first + count ≤ i → xs[i]? = some a → p a = false) :
    Separates p xs (lowerBoundFrom xs p first count) := by
  induction count using Nat.strong_induction_on generalizing first with
  | h count ih =>
      unfold lowerBoundFrom
      dsimp only
      split_ifs with hzero hmid
      · subst hzero
        exact ⟨hlow, hhigh⟩
      · obtain ⟨b, hb, hp⟩ := (Option.any_eq_true _ _).mp hmid
        apply ih _ (by omega) (by omega)
        · intro i a hi ha
          exact hpart.of_lt ha hb (by omega) hp
        · intro i a hi ha
          exact hhigh i a (by omega) ha
      · apply ih _ (by omega) (by omega) hlow
        intro i a hi ha
        have hmidlt : first + count / 2 < xs.length := by omega
        by_contra hp
        rw [Bool.not_eq_false] at hp
        apply hmid
        rw [List.getElem?_eq_getElem hmidlt, Option.any_some]
        exact hpart.of_lt (List.getElem?_eq_getElem hmidlt) ha hi hp

theorem lowerBound_separates {p : α → Bool} {xs : List α} (hpart : Partitioned p xs) :
    Separates p xs (lowerBound xs p) := by
  apply lowerBoundFrom_separates hpart (by omega)
  · intro i a hi
    exact absurd hi (by omega)
  · intro i a hi ha
    rw [List.getElem?_eq_none (by omega)] at ha
    exact absurd ha (by simp)

theorem Separates.drop_eq_dropWhile {p : α → Bool} {xs : List α} {n : Nat}
    (h : Separates p xs n) : xs.drop n = xs.dropWhile p := by
  induction xs generalizing n with
  | nil => simp
  | cons x xs ih =>
      cases n with
      | zero =>
          have hx : p x = false := h.2 0 x (Nat.le_refl 0) rfl
          rw [List.drop_zero, List.dropWhile_cons_of_neg (by simp [hx])]
      | succ n =>
          have hx : p x = true := h.1 0 x (Nat.succ_pos n) rfl
          rw [List.drop_succ_cons, List.dropWhile_cons_of_pos hx]
          apply ih
          constructor
          · intro i a hi ha
            exact h.1 (i + 1) a (by omega) (by simpa using ha)
          · intro i a hi ha
            exact h.2 (i + 1) a (by omega) (by simpa using ha)

/-- From the result of the search on, the list is what is left without the elements that satisfy
the test. -/
theorem drop_lowerBound {p : α → Bool} {xs : List α} (hpart : Partitioned p xs) :
    xs.drop (lowerBound xs p) = xs.dropWhile p :=
  (lowerBound_separates hpart).drop_eq_dropWhile

/-! ## Membership -/

section Membership

variable [LinearOrder α]

/-- Whether a value stands at the position of the search. -/
def binarySearch (xs : List α) (value : α) : Bool :=
  xs[lowerBound xs fun a => decide (a < value)]?.any fun a => !decide (value < a)

/-- In a sorted list, binary search finds the elements. -/
theorem binarySearch_eq_true_iff {xs : List α} (hsorted : xs.Pairwise (· ≤ ·)) {value : α} :
    binarySearch xs value = true ↔ value ∈ xs := by
  have hpart : Partitioned (fun a => decide (a < value)) xs :=
    hsorted.imp fun hab hb => decide_eq_true (lt_of_le_of_lt hab (of_decide_eq_true hb))
  obtain ⟨hlow, hhigh⟩ := lowerBound_separates hpart
  rw [binarySearch, Option.any_eq_true]
  constructor
  · rintro ⟨a, ha, hle⟩
    have hge := of_decide_eq_false (hhigh _ a (Nat.le_refl _) ha)
    simp only [Bool.not_eq_true', decide_eq_false_iff_not, not_lt] at hle
    rw [le_antisymm (not_lt.mp hge) hle]
    exact List.mem_of_getElem? ha
  · intro hmem
    obtain ⟨j, hj⟩ := List.getElem?_of_mem hmem
    have hle : lowerBound xs (fun a => decide (a < value)) ≤ j := by
      by_contra hlt
      exact absurd (of_decide_eq_true (hlow j value (by omega) hj)) (lt_irrefl value)
    obtain ⟨hjlt, rfl⟩ := List.getElem?_eq_some_iff.mp hj
    refine ⟨_, List.getElem?_eq_getElem (lt_of_le_of_lt hle hjlt), ?_⟩
    have hsmall := List.pairwise_iff_getElem.mp hsorted
    rcases Nat.lt_or_eq_of_le hle with hlt | heq
    · simpa using hsmall _ _ _ hjlt hlt
    · simp [heq]

end Membership

/-! ## Ranges of equal elements -/

/-- A comparison with a fixed value that increases along the list. -/
def Ascending (cmp : β → Ordering) (xs : List β) : Prop :=
  xs.Pairwise fun a b => (cmp b = .lt → cmp a = .lt) ∧ (cmp a = .gt → cmp b = .gt)

theorem Ascending.partitioned {cmp : β → Ordering} {xs : List β} (h : Ascending cmp xs) :
    Partitioned (fun b => cmp b == .lt) xs :=
  h.imp fun hab hb => beq_iff_eq.mpr (hab.1 (beq_iff_eq.mp hb))

/-- The equal elements follow the smaller ones. -/
theorem Ascending.takeWhile_dropWhile {cmp : β → Ordering} {xs : List β} (h : Ascending cmp xs) :
    (xs.dropWhile fun b => cmp b == .lt).takeWhile (fun b => cmp b == .eq) =
      xs.filter fun b => cmp b == .eq := by
  induction xs with
  | nil => rfl
  | cons x xs ih =>
      obtain ⟨hx, hxs⟩ := List.pairwise_cons.mp h
      cases hcmp : cmp x with
      | lt => simp [hcmp, ih hxs]
      | eq =>
          have hdrop : xs.dropWhile (fun b => cmp b == .lt) = xs := by
            cases xs with
            | nil => rfl
            | cons y ys =>
                refine List.dropWhile_cons_of_neg fun hy => ?_
                rw [(hx y List.mem_cons_self).1 (beq_iff_eq.mp hy)] at hcmp
                exact Ordering.noConfusion hcmp
          simp [hcmp, ← ih hxs, hdrop]
      | gt =>
          have hnone : xs.filter (fun b => cmp b == .eq) = [] := by
            rw [List.filter_eq_nil_iff]
            intro b hb heq
            rw [beq_iff_eq, (hx b hb).2 hcmp] at heq
            exact Ordering.noConfusion heq
          simp [hcmp, hnone]

/-- A search for the first element that is not smaller, and a scan from there, find the equal
elements. -/
theorem takeWhile_drop_lowerBound {cmp : β → Ordering} {xs : List β} (h : Ascending cmp xs) :
    (xs.drop (lowerBound xs fun b => cmp b == .lt)).takeWhile (fun b => cmp b == .eq) =
      xs.filter fun b => cmp b == .eq := by
  rw [drop_lowerBound h.partitioned, h.takeWhile_dropWhile]

/-! ## Keys with a prefix -/

section Prefixes

variable [Ord α]

/-- Compare the beginning of a key with a candidate of that length. -/
def compareStart (key candidate : List α) : Ordering :=
  compare (key.take candidate.length) candidate

theorem compareStart_nil_cons (c : α) (cs : List α) : compareStart [] (c :: cs) = .lt := rfl

theorem compareStart_cons_cons (k c : α) (ks cs : List α) :
    compareStart (k :: ks) (c :: cs) = (compare k c).then (compareStart ks cs) := by
  rw [compareStart, List.length_cons, List.take_succ_cons]
  exact List.compareLex_cons_cons

theorem compareStart_eq_iff [Std.LawfulEqOrd α] {key candidate : List α} :
    compareStart key candidate = .eq ↔ candidate <+: key := by
  rw [compareStart, Std.LawfulEqOrd.compare_eq_iff_eq, List.prefix_iff_eq_take, eq_comm]

variable [Std.TransOrd α] [Std.LawfulEqOrd α]

/-- A greater key does not compare smaller with a prefix. -/
theorem compareStart_monotone {k k' : List α} (hle : (compare k k').isLE = true) (q : List α) :
    (compareStart k' q = .lt → compareStart k q = .lt) ∧
      (compareStart k q = .gt → compareStart k' q = .gt) := by
  induction q generalizing k k' with
  | nil => exact ⟨fun h => Ordering.noConfusion h, fun h => Ordering.noConfusion h⟩
  | cons c cs ih =>
      cases k with
      | nil => exact ⟨fun _ => compareStart_nil_cons c cs, fun h => Ordering.noConfusion h⟩
      | cons a as =>
          cases k' with
          | nil => exact Bool.noConfusion hle
          | cons b bs =>
              have hcompare : compare (a :: as) (b :: bs) = (compare a b).then (compare as bs) :=
                List.compareLex_cons_cons
              rw [hcompare] at hle
              rw [compareStart_cons_cons, compareStart_cons_cons]
              cases hab : compare a b with
              | lt =>
                  constructor
                  · intro h
                    cases hbc : compare b c with
                    | lt => rw [Std.TransCmp.lt_trans hab hbc]; rfl
                    | eq => rw [Std.TransCmp.lt_of_lt_of_eq hab hbc]; rfl
                    | gt => rw [hbc] at h; exact Ordering.noConfusion h
                  · intro h
                    cases hac : compare a c with
                    | lt => rw [hac] at h; exact Ordering.noConfusion h
                    | eq =>
                        obtain rfl := Std.LawfulEqOrd.eq_of_compare hac
                        rw [Std.OrientedCmp.gt_of_lt hab]
                        rfl
                    | gt =>
                        rw [Std.TransCmp.gt_trans (Std.OrientedCmp.gt_of_lt hab) hac]
                        rfl
              | eq =>
                  obtain rfl := Std.LawfulEqOrd.eq_of_compare hab
                  rw [hab] at hle
                  obtain ⟨hlt, hgt⟩ := ih hle
                  cases compare a c with
                  | lt => exact ⟨fun _ => rfl, fun h => Ordering.noConfusion h⟩
                  | eq => exact ⟨hlt, hgt⟩
                  | gt => exact ⟨fun h => Ordering.noConfusion h, fun _ => rfl⟩
              | gt =>
                  rw [hab] at hle
                  exact Bool.noConfusion hle

/-- Sorted keys compare with a candidate in increasing order. -/
theorem compareStart_pairwise {xs : List β} {key : β → List α}
    (hsorted : xs.Pairwise fun a b => (compare (key a) (key b)).isLE = true) (q : List α) :
    Ascending (fun b => compareStart (key b) q) xs :=
  hsorted.imp fun hab => compareStart_monotone hab q

end Prefixes

end VKey
