import Mathlib.Algebra.Ring.Nat
import Mathlib.Logic.Function.Basic

/-!
# Sequence locks

A writer counts up before and after it stores the cells of a memory, and a reader compares the
counts before and after it has loaded them.  The count is a machine word; `increments` is the number
of increments behind it.
-/

namespace VKey

namespace Seqlock

variable {Cell Value : Type}

/-- The values of the cells. -/
abbrev Memory (Cell Value : Type) := Cell → Value

/-- One store, of a value that may be computed from the memory. -/
abbrev Store (Cell Value : Type) := Cell × (Memory Cell Value → Value)

/-! ## Stores -/

section Stores

variable [DecidableEq Cell] {memory : Memory Cell Value} {cell : Cell}

def applyStore (memory : Memory Cell Value) (store : Store Cell Value) : Memory Cell Value :=
  Function.update memory store.1 (store.2 memory)

/-- The stores one after the other. -/
def applyStores (stores : List (Store Cell Value)) (memory : Memory Cell Value) :
    Memory Cell Value :=
  stores.foldl applyStore memory

theorem applyStores_cons (store : Store Cell Value) (stores : List (Store Cell Value))
    (memory : Memory Cell Value) :
    applyStores (store :: stores) memory = applyStores stores (applyStore memory store) := rfl

theorem applyStores_append (stores₁ stores₂ : List (Store Cell Value))
    (memory : Memory Cell Value) :
    applyStores (stores₁ ++ stores₂) memory = applyStores stores₂ (applyStores stores₁ memory) :=
  List.foldl_append

/-- Stores to other cells leave a cell as it is. -/
theorem applyStores_of_notMem {stores : List (Store Cell Value)}
    (h : ∀ store ∈ stores, store.1 ≠ cell) (memory : Memory Cell Value) :
    applyStores stores memory cell = memory cell := by
  induction stores generalizing memory with
  | nil => rfl
  | cons store stores ih =>
      obtain ⟨hstore, hstores⟩ := List.forall_mem_cons.mp h
      rw [applyStores_cons, ih hstores, applyStore, Function.update_of_ne hstore.symm]

/-- Stores that all give a cell the same value, if they give it one. -/
theorem applyStores_of_mem {stores : List (Store Cell Value)} {value : Value}
    (hvalue : ∀ store ∈ stores, store.1 = cell → ∀ memory, store.2 memory = value)
    (h : memory cell = value ∨ ∃ store ∈ stores, store.1 = cell) :
    applyStores stores memory cell = value := by
  induction stores generalizing memory with
  | nil =>
      rcases h with h | ⟨store, hmem, -⟩
      · exact h
      · exact absurd hmem List.not_mem_nil
  | cons store stores ih =>
      obtain ⟨hstore, hstores⟩ := List.forall_mem_cons.mp hvalue
      apply ih hstores
      by_cases hcell : store.1 = cell
      · left
        rw [applyStore, hcell, Function.update_self]
        exact hstore hcell memory
      · rcases h with h | ⟨other, hmem, hother⟩
        · left
          rw [applyStore, Function.update_of_ne (Ne.symm hcell), h]
        · right
          rcases List.mem_cons.mp hmem with rfl | hmem
          · exact absurd hother hcell
          · exact ⟨other, hmem, hother⟩

end Stores

/-! ## Reads -/

/-- A read under way: the increments before it, and the cells loaded so far. -/
structure Reading (Cell Value : Type) where
  begun : Nat
  loaded : List (Cell × Value)

/-- The cells loaded so far are those of the memory, unless the count has moved. -/
structure Reading.Valid (r : Reading Cell Value) (increments : Nat) (memory : Memory Cell Value) :
    Prop where
  even : r.begun % 2 = 0
  le : r.begun ≤ increments
  loaded : increments = r.begun → ∀ entry ∈ r.loaded, memory entry.1 = entry.2

namespace Reading.Valid

variable {r : Reading Cell Value} {increments : Nat} {memory : Memory Cell Value}

theorem begin (heven : increments % 2 = 0) (memory : Memory Cell Value) :
    (⟨increments, []⟩ : Reading Cell Value).Valid increments memory where
  even := heven
  le := Nat.le_refl _
  loaded _ _ hmem := absurd hmem List.not_mem_nil

theorem load (h : r.Valid increments memory) (cell : Cell) :
    Reading.Valid { r with loaded := (cell, memory cell) :: r.loaded } increments memory where
  even := h.even
  le := h.le
  loaded heq := List.forall_mem_cons.mpr ⟨rfl, h.loaded heq⟩

/-- A store while the count is odd. -/
theorem store (h : r.Valid increments memory) (hodd : increments % 2 = 1)
    (memory' : Memory Cell Value) : r.Valid increments memory' where
  even := h.even
  le := h.le
  loaded heq := by
    rw [heq, h.even] at hodd
    cases hodd

theorem increment (h : r.Valid increments memory) (memory' : Memory Cell Value) :
    r.Valid (increments + 1) memory' where
  even := h.even
  le := Nat.le_succ_of_le h.le
  loaded heq := by
    have hle := h.le
    omega

end Reading.Valid

/-- The word of the count shows whether it has moved, unless it has wrapped around. -/
theorem eq_of_word_eq {begun increments : Nat} (hle : begun ≤ increments)
    (hlt : increments - begun < 2 ^ 32)
    (h : BitVec.ofNat 32 increments = BitVec.ofNat 32 begun) : increments = begun := by
  have hmod := congrArg BitVec.toNat h
  rw [BitVec.toNat_ofNat, BitVec.toNat_ofNat] at hmod
  omega

/-- The parity of the count is that of its word. -/
theorem word_and_one_eq_zero_iff (increments : Nat) :
    BitVec.ofNat 32 increments &&& 1#32 = 0#32 ↔ increments % 2 = 0 := by
  rw [← BitVec.toNat_inj, BitVec.toNat_and, BitVec.toNat_ofNat]
  have hone : (1#32).toNat = 2 ^ 1 - 1 := rfl
  have hzero : (0#32).toNat = 0 := rfl
  rw [hone, Nat.and_two_pow_sub_one_eq_mod, hzero]
  omega

end Seqlock

end VKey
