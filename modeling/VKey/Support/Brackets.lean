import Mathlib.Data.List.Basic

/-!
# Bracketed batches

A batch of events opens some keys, does something, and closes the keys again.  A receiver that takes
only the first events of a batch leaves keys open.  Closing exactly those that are open turns what
was taken into a bracketed batch again, over the keys that had been opened.  Batches are collected
in a buffer of bounded size, group by group.
-/

namespace VKey

variable {K E : Type}

/-! ## Brackets -/

section Brackets

variable (opening closing : K → E)

/-- Open the keys, do something, and close them. -/
def bracketed (keys : List K) (body : List E) : List E :=
  keys.map opening ++ body ++ keys.map closing

/-- The keys whose opening is among the first `n` events of a batch and whose closing is not.  The
openings start at one position and the closings at another. -/
def leftOpen (keys : List K) (n openStart closeStart : Nat) : List K :=
  (keys.zipIdx.filter fun entry =>
    decide (openStart + entry.2 < n) && decide (n ≤ closeStart + entry.2)).map Prod.fst

theorem length_bracketed (keys : List K) (body : List E) :
    (bracketed opening closing keys body).length = 2 * keys.length + body.length := by
  simp only [bracketed, List.length_append, List.length_map]
  omega

omit opening closing in
theorem leftOpen_eq (keys : List K) (n openStart closeStart : Nat) :
    leftOpen keys n openStart closeStart = (keys.take (n - openStart)).drop (n - closeStart) := by
  have hfrom : ∀ i, ((keys.zipIdx i).filter fun entry =>
      decide (openStart + entry.2 < n) && decide (n ≤ closeStart + entry.2)).map Prod.fst =
      (keys.take (n - (openStart + i))).drop (n - (closeStart + i)) := by
    induction keys with
    | nil => simp
    | cons key keys ih =>
        intro i
        rw [List.zipIdx_cons, List.filter_cons]
        by_cases hopen : openStart + i < n
        · obtain ⟨m, hm⟩ : ∃ m, n - (openStart + i) = m + 1 := ⟨n - (openStart + i) - 1, by omega⟩
          have hm' : n - (openStart + (i + 1)) = m := by omega
          by_cases hclose : n ≤ closeStart + i
          · have hzero : n - (closeStart + i) = 0 := by omega
            have hzero' : n - (closeStart + (i + 1)) = 0 := by omega
            simp [hopen, hclose, ih, hm, hm', hzero, hzero']
          · obtain ⟨j, hj⟩ : ∃ j, n - (closeStart + i) = j + 1 :=
              ⟨n - (closeStart + i) - 1, by omega⟩
            have hj' : n - (closeStart + (i + 1)) = j := by omega
            simp [hclose, ih, hm, hm', hj, hj']
        · have hzero : n - (openStart + i) = 0 := by omega
          have hzero' : n - (openStart + (i + 1)) = 0 := by omega
          simp [hopen, ih, hzero, hzero']
  exact hfrom 0

/-- Closing the keys that the first `n` events leave open gives a bracketed batch again. -/
theorem take_append_leftOpen (lead : List E) (keys : List K) (body : List E) (n : Nat) :
    (lead ++ bracketed opening closing keys body).take n ++
        (leftOpen keys n lead.length (lead.length + keys.length + body.length)).map closing =
      lead.take n ++ bracketed opening closing (keys.take (n - lead.length))
        (body.take (n - lead.length - keys.length)) := by
  have hclosing : (keys.map closing).take (n - lead.length - keys.length - body.length) ++
      ((keys.take (n - lead.length)).drop (n - (lead.length + keys.length + body.length))).map
        closing = (keys.take (n - lead.length)).map closing := by
    have hstart : n - lead.length - keys.length - body.length =
        n - (lead.length + keys.length + body.length) := by omega
    have hle : n - (lead.length + keys.length + body.length) ≤ n - lead.length := by omega
    have htake : keys.take (n - (lead.length + keys.length + body.length)) =
        (keys.take (n - lead.length)).take (n - (lead.length + keys.length + body.length)) := by
      rw [List.take_take, Nat.min_eq_left hle]
    rw [hstart, ← List.map_take, ← List.map_append, htake, List.take_append_drop]
  have htaken : (lead ++ bracketed opening closing keys body).take n =
      lead.take n ++ ((keys.take (n - lead.length)).map opening ++
        body.take (n - lead.length - keys.length) ++
        (keys.map closing).take (n - lead.length - keys.length - body.length)) := by
    rw [bracketed, List.take_append, List.take_append, List.take_append, List.length_append,
      List.length_map, List.map_take, Nat.sub_add_eq]
  rw [leftOpen_eq, htaken, List.append_assoc, List.append_assoc, hclosing, bracketed]

/-- A bracketed batch over different keys, with nothing about a key in its middle, opens and closes
that key once or leaves it alone. -/
theorem filter_bracketed [DecidableEq K] {about : E → Bool} {key : K} {keys : List K}
    {body : List E} (hopening : ∀ x, about (opening x) = (x == key))
    (hclosing : ∀ x, about (closing x) = (x == key)) (hbody : ∀ e ∈ body, about e = false)
    (hkeys : keys.Nodup) :
    (bracketed opening closing keys body).filter about =
      if key ∈ keys then [opening key, closing key] else [] := by
  have hsingle : keys.filter (· == key) = if key ∈ keys then [key] else [] := by
    rw [List.filter_beq, hkeys.count]
    split_ifs <;> rfl
  have hmap : ∀ {event : K → E}, (∀ x, about (event x) = (x == key)) →
      (keys.map event).filter about = (keys.filter (· == key)).map event := by
    intro event hevent
    rw [List.filter_map]
    exact congrArg (List.map event) (List.filter_congr fun x _ => hevent x)
  have hnone : body.filter about = [] :=
    List.filter_eq_nil_iff.mpr fun e he => by simp [hbody e he]
  rw [bracketed, List.filter_append, List.filter_append, hmap hopening, hmap hclosing, hnone,
    hsingle]
  split_ifs <;> rfl

end Brackets

/-! ## Bounded buffers -/

section Buffer

variable (capacity : Nat)

/-- Append groups of events one by one; a group that does not fit makes the whole fail. -/
def pushAll (groups : List (List E)) (buf : List E) : Option (List E) :=
  groups.foldlM
    (fun buf group =>
      if buf.length + group.length ≤ capacity then some (buf ++ group) else none) buf

/-- All the groups fit, or the buffer is not filled at all. -/
theorem pushAll_eq {groups : List (List E)} {buf : List E} (hbuf : buf.length ≤ capacity) :
    pushAll capacity groups buf =
      if buf.length + groups.flatten.length ≤ capacity then some
      (buf ++ groups.flatten) else none := by
  induction groups generalizing buf with
  | nil => simp [pushAll, hbuf]
  | cons group groups ih =>
      rw [pushAll, List.foldlM_cons, List.flatten_cons, List.length_append]
      by_cases hfits : buf.length + group.length ≤ capacity
      · have hnext : (buf ++ group).length ≤ capacity := by rwa [List.length_append]
        rw [if_pos hfits]
        refine (ih hnext).trans ?_
        rw [List.length_append, List.append_assoc, Nat.add_assoc]
      · rw [if_neg hfits, if_neg (by omega)]
        rfl

theorem pushAll_append (first second : List (List E)) :
    pushAll capacity (first ++ second) =
      fun buf => (pushAll capacity first buf).bind (pushAll capacity second) :=
  funext fun _ => List.foldlM_append ..

end Buffer

end VKey
