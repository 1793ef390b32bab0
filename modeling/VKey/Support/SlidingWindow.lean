import Mathlib.Data.List.Induction
import Mathlib.Order.Defs.PartialOrder
import Mathlib.Tactic.SplitIfs

/-!
# Sliding windows

A limiter admits a call unless as many admitted calls as its capacity are still live.  It is
specified on the list of everything it has admitted; an implementation may forget a call once it is
no longer live, for it is not live at any later time either.  An array is compacted in place by
moving the entries that stay to its front.
-/

namespace VKey

variable {α : Type*}

/-! ## Compacting an array in place -/

/-- Entry `i` is moved to the next place of the front if it stays. -/
def compactEntry {n : Nat} (keep : α → Bool) (state : Vector α n × Nat) (i : Nat) :
    Vector α n × Nat :=
  match state.1[i]? with
  | some a => if keep a then (state.1.setIfInBounds state.2 a, state.2 + 1) else state
  | none => state

/-- The entries in front of `count` that stay are moved to the front. -/
def compact {n : Nat} (keep : α → Bool) (entries : Vector α n) (count : Nat) : Vector α n × Nat :=
  (List.range count).foldl (compactEntry keep) (entries, 0)

/-- The first `i` entries have been compacted, and those behind have not been touched. -/
structure Compacted {n : Nat} (keep : α → Bool) (entries : Vector α n) (i : Nat)
    (state : Vector α n × Nat) : Prop where
  le : state.2 ≤ i
  front : state.1.toList.take state.2 = (entries.toList.take i).filter keep
  behind : ∀ j, i ≤ j → state.1[j]? = entries[j]?

theorem Compacted.next {n : Nat} {keep : α → Bool} {entries : Vector α n} {i : Nat}
    {state : Vector α n × Nat} (h : Compacted keep entries i state) (hi : i < n) :
    Compacted keep entries (i + 1) (compactEntry keep state i) := by
  have hread : state.1[i]? = some entries[i] := by
    rw [h.behind i (Nat.le_refl i), Vector.getElem?_eq_getElem hi]
  have htake : entries.toList.take (i + 1) = entries.toList.take i ++ [entries[i]] := by
    rw [List.take_add_one]
    simp [hi]
  unfold compactEntry
  rw [hread]
  dsimp only
  split_ifs with hkeep
  · have hfree : state.2 < state.1.toList.length := by
      have hle := h.le
      simp only [Vector.length_toList]
      omega
    refine ⟨Nat.succ_le_succ h.le, ?_, fun j hj => ?_⟩
    · rw [htake, List.filter_append, ← h.front, List.filter_cons_of_pos hkeep, List.filter_nil]
      simp only [Vector.toList_setIfInBounds]
      rw [List.take_add_one, List.take_set_of_le (Nat.le_refl _), List.getElem?_set_self hfree]
      rfl
    · have hne : state.2 ≠ j := by
        have hle := h.le
        omega
      rw [Vector.getElem?_setIfInBounds_ne hne, h.behind j (by omega)]
  · refine ⟨Nat.le_succ_of_le h.le, ?_, fun j hj => h.behind j (by omega)⟩
    rw [htake, List.filter_append, ← h.front, List.filter_cons_of_neg hkeep, List.filter_nil,
      List.append_nil]

/-- Compacting filters the front of the array. -/
theorem compacted_compact {n : Nat} (keep : α → Bool) (entries : Vector α n) {count : Nat}
    (h : count ≤ n) : Compacted keep entries count (compact keep entries count) := by
  unfold compact
  induction count with
  | zero => exact ⟨Nat.le_refl 0, rfl, fun _ _ => rfl⟩
  | succ i ih =>
      rw [List.range_succ, List.foldl_append]
      exact (ih (by omega)).next (by omega)

/-! ## The limiter -/

section Limiter

variable (live : α → α → Bool) (cap : Nat)

/-- There is room for a call, given everything that was admitted before. -/
def hasRoom (admitted : List α) (now : α) : Bool := decide (admitted.countP (live now) < cap)

/-- Admit a call if there is room. -/
def offer (admitted : List α) (now : α) : List α :=
  if hasRoom live cap admitted now then admitted ++ [now] else admitted

/-- Everything that is admitted of some calls. -/
def admitted (calls : List α) : List α := calls.foldl (offer live cap) []

theorem admitted_concat (calls : List α) (now : α) :
    admitted live cap (calls ++ [now]) = offer live cap (admitted live cap calls) now :=
  List.foldl_append ..

theorem mem_of_mem_admitted {calls : List α} {a : α} (h : a ∈ admitted live cap calls) :
    a ∈ calls := by
  induction calls using List.reverseRecOn with
  | nil => exact h
  | append_singleton calls now ih =>
      rw [admitted_concat, offer] at h
      rw [List.mem_append]
      split_ifs at h
      · exact (List.mem_append.mp h).imp_left ih
      · exact Or.inl (ih h)

/-- Calls of which every earlier one is live at every later one are admitted up to the capacity. -/
theorem countP_admitted_le [LE α] {calls : List α} (hsorted : calls.Pairwise (· ≤ ·))
    {within : α → Bool}
    (hlive : ∀ a ∈ calls, ∀ b ∈ calls, a ≤ b → within a = true → within b = true →
      live b a = true) :
    (admitted live cap calls).countP within ≤ cap := by
  induction calls using List.reverseRecOn with
  | nil => exact Nat.zero_le cap
  | append_singleton calls now ih =>
      obtain ⟨hcalls, -, hlast⟩ := List.pairwise_append.mp hsorted
      have hbefore := ih hcalls fun a ha b hb =>
        hlive a (List.mem_append_left _ ha) b (List.mem_append_left _ hb)
      rw [admitted_concat, offer]
      split_ifs with hroom
      · rw [List.countP_append, List.countP_singleton]
        split_ifs with hnow
        · have hroom := of_decide_eq_true hroom
          have hle : (admitted live cap calls).countP within ≤
              (admitted live cap calls).countP (live now) :=
            List.countP_mono_left fun a ha hwithin => by
              have hcall := mem_of_mem_admitted live cap ha
              exact hlive a (List.mem_append_left _ hcall) now
                (List.mem_append_right _ List.mem_cons_self) (hlast a hcall now List.mem_cons_self)
                hwithin hnow
          omega
        · exact hbefore
      · exact hbefore

/-- An implementation keeps what is live from some time on. -/
def Keeps [LE α] (entries admitted : List α) (since : α) : Prop :=
  ∀ now, since ≤ now → entries.filter (live now) = admitted.filter (live now)

variable {live cap}

theorem Keeps.hasRoom_eq [LE α] {entries past : List α} {since now : α}
    (h : Keeps live entries past since) (hle : since ≤ now) :
    hasRoom live cap entries now = hasRoom live cap past now := by
  unfold hasRoom
  rw [List.countP_eq_length_filter, List.countP_eq_length_filter, h now hle]

theorem Keeps.mono [LE α] [IsTrans α (· ≤ ·)] {entries past : List α} {since later : α}
    (h : Keeps live entries past since) (hle : since ≤ later) : Keeps live entries past later :=
  fun now hnow => h now (IsTrans.trans _ _ _ hle hnow)

/-- What is no longer live may be forgotten. -/
theorem Keeps.forget [LE α] [IsTrans α (· ≤ ·)]
    (hlive : ∀ a now later, now ≤ later → live later a = true →
    live now a = true) {entries past : List α} {since now : α} (h : Keeps live entries past since)
    (hle : since ≤ now) : Keeps live (entries.filter (live now)) past now := by
  intro later hlater
  rw [List.filter_filter, ← h later (IsTrans.trans _ _ _ hle hlater)]
  refine List.filter_congr fun a _ => ?_
  rw [Bool.and_eq_left_iff_imp]
  exact hlive a now later hlater

theorem Keeps.concat [LE α] {entries past : List α} {since : α} (h : Keeps live entries past since)
    (a : α) : Keeps live (entries ++ [a]) (past ++ [a]) since := by
  intro now hle
  rw [List.filter_append, List.filter_append, h now hle]

end Limiter

end VKey
