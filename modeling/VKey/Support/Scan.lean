import Mathlib.Data.List.Basic
import Mathlib.Tactic.SplitIfs

/-!
# Bounded scans

Programs over indexed buffers search them with counting loops.  A downward scan returns the last
index below a bound that satisfies a test, an upward scan the first one.
-/

namespace VKey

/-- The last index below `n` that satisfies `p`. -/
def scanDown (p : Nat → Bool) : Nat → Option Nat
  | 0 => none
  | n + 1 => if p n then some n else scanDown p n

/-- The first index below `n` that satisfies `p`. -/
def scanUp (p : Nat → Bool) (n : Nat) : Option Nat :=
  (List.range n).find? p

theorem scanDown_eq_some {p : Nat → Bool} {n i : Nat} (h : scanDown p n = some i) :
    i < n ∧ p i = true ∧ ∀ j, i < j → j < n → p j = false := by
  induction n with
  | zero => simp [scanDown] at h
  | succ n ih =>
      unfold scanDown at h
      split_ifs at h with hp
      · obtain rfl : n = i := by simpa using h
        exact ⟨Nat.lt_succ_self n, hp, fun j hij hj => absurd hj (by omega)⟩
      · obtain ⟨hi, hpi, hmax⟩ := ih h
        refine ⟨Nat.lt_succ_of_lt hi, hpi, fun j hij hj => ?_⟩
        rcases Nat.lt_succ_iff_lt_or_eq.mp hj with hlt | rfl
        · exact hmax j hij hlt
        · simpa using hp

theorem scanDown_eq_none {p : Nat → Bool} {n : Nat} :
    scanDown p n = none ↔ ∀ i, i < n → p i = false := by
  induction n with
  | zero => simp [scanDown]
  | succ n ih =>
      unfold scanDown
      split_ifs with hp
      · refine ⟨fun h => by simp at h, fun h => ?_⟩
        have hn := h n (Nat.lt_succ_self n)
        simp [hp] at hn
      · rw [ih]
        refine ⟨fun h i hi => ?_, fun h i hi => h i (Nat.lt_succ_of_lt hi)⟩
        rcases Nat.lt_succ_iff_lt_or_eq.mp hi with hlt | rfl
        · exact h i hlt
        · simpa using hp

theorem scanUp_eq_some {p : Nat → Bool} {n i : Nat} (h : scanUp p n = some i) :
    i < n ∧ p i = true :=
  ⟨List.mem_range.mp (List.mem_of_find?_eq_some h), List.find?_some h⟩

theorem le_of_scanUp_eq_some {p : Nat → Bool} {n i j : Nat} (h : scanUp p n = some i)
    (hj : p j = true) : i ≤ j := by
  by_contra hlt
  have hbefore := (List.find?_range_eq_some.mp h).2.2 j (by omega)
  simp [hj] at hbefore

theorem scanUp_eq_none {p : Nat → Bool} {n : Nat} :
    scanUp p n = none ↔ ∀ i, i < n → p i = false := by
  simp [scanUp, List.find?_eq_none]

end VKey
