import Mathlib.Algebra.Ring.Nat
import VKey.Support.SlidingWindow

/-!
# The restart throttle of the watchdog

The watchdog restarts the program unless it has done so too often within a window of time.  The
throttle keeps the times of the restarts it has allowed in an array, which every call compacts.  The
times are those of a monotonic clock.
-/

namespace VKey

/-- The times of the last restarts, in the front of an array. -/
structure RestartThrottle (cap : Nat) where
  times : Vector UInt64 cap
  count : Nat
  count_le : count ≤ cap
  windowMs : UInt64

namespace RestartThrottle

variable {cap : Nat}

/-- A throttle that has allowed no restart. -/
def new (cap : Nat) (windowMs : UInt64) : RestartThrottle cap where
  times := Vector.replicate cap 0
  count := 0
  count_le := Nat.zero_le cap
  windowMs := windowMs

/-- A restart is younger than the window. -/
def isRecent (windowMs nowMs time : UInt64) : Bool := decide (nowMs < time + windowMs)

/-- Compact out the times older than the trailing window. -/
def compactOut (t : RestartThrottle cap) (nowMs : UInt64) : RestartThrottle cap :=
  let kept := compact (isRecent t.windowMs nowMs) t.times t.count
  { t with
    times := kept.1
    count := kept.2
    count_le := Nat.le_trans (compacted_compact _ t.times t.count_le).le t.count_le }

/-- Record a restart, unless the window is full. -/
def allowRestart (t : RestartThrottle cap) (nowMs : UInt64) : Bool × RestartThrottle cap :=
  let t := t.compactOut nowMs
  if h : cap ≤ t.count then (false, t)
  else
    (true,
      { t with
        times := t.times.setIfInBounds t.count nowMs
        count := t.count + 1
        count_le := Nat.lt_of_not_le h })

def recentCount (t : RestartThrottle cap) : Nat := t.count

/-! ## Runs -/

/-- The throttle after some calls. -/
def after (t : RestartThrottle cap) (calls : List UInt64) : RestartThrottle cap :=
  calls.foldl (fun t nowMs => (t.allowRestart nowMs).2) t

/-- The times of the calls that are allowed. -/
def allowed (t : RestartThrottle cap) : List UInt64 → List UInt64
  | [] => []
  | nowMs :: calls =>
      let next := t.allowRestart nowMs
      if next.1 then nowMs :: next.2.allowed calls else next.2.allowed calls

theorem after_concat (t : RestartThrottle cap) (calls : List UInt64) (nowMs : UInt64) :
    t.after (calls ++ [nowMs]) = ((t.after calls).allowRestart nowMs).2 :=
  List.foldl_append ..

theorem allowed_concat (t : RestartThrottle cap) (calls : List UInt64) (nowMs : UInt64) :
    t.allowed (calls ++ [nowMs]) =
      if ((t.after calls).allowRestart nowMs).1 then t.allowed calls ++ [nowMs]
      else t.allowed calls := by
  induction calls generalizing t with
  | nil => rfl
  | cons first calls ih =>
      simp only [List.cons_append, allowed]
      have hafter : t.after (first :: calls) = (t.allowRestart first).2.after calls := rfl
      rw [ih, hafter]
      split_ifs <;> rfl

/-! ## One call -/

/-- The times that are kept. -/
def entries (t : RestartThrottle cap) : List UInt64 := t.times.toList.take t.count

theorem length_entries (t : RestartThrottle cap) : t.entries.length = t.count := by
  have hle := t.count_le
  simp [entries, hle]

theorem entries_new (cap : Nat) (windowMs : UInt64) : (new cap windowMs).entries = [] :=
  List.take_zero ..

theorem entries_compactOut (t : RestartThrottle cap) (nowMs : UInt64) :
    (t.compactOut nowMs).entries = t.entries.filter (isRecent t.windowMs nowMs) :=
  (compacted_compact _ t.times t.count_le).front

theorem allowRestart_fst (t : RestartThrottle cap) (nowMs : UInt64) :
    (t.allowRestart nowMs).1 = hasRoom (isRecent t.windowMs) cap t.entries nowMs := by
  rw [hasRoom, List.countP_eq_length_filter, ← entries_compactOut, length_entries, allowRestart]
  split_ifs with hfull
  · exact (decide_eq_false (Nat.not_lt.mpr hfull)).symm
  · exact (decide_eq_true (Nat.lt_of_not_le hfull)).symm

theorem entries_allowRestart (t : RestartThrottle cap) (nowMs : UInt64) :
    (t.allowRestart nowMs).2.entries =
      if (t.allowRestart nowMs).1 then t.entries.filter (isRecent t.windowMs nowMs) ++ [nowMs]
      else t.entries.filter (isRecent t.windowMs nowMs) := by
  rw [← entries_compactOut, allowRestart]
  split_ifs with hfull htrue htrue
  · exact htrue.elim
  · rfl
  · have hfree : (t.compactOut nowMs).count < (t.compactOut nowMs).times.toList.length := by
      rw [Vector.length_toList]
      omega
    unfold entries
    simp only [Vector.toList_setIfInBounds]
    rw [List.take_add_one, List.take_set_of_le (Nat.le_refl _), List.getElem?_set_self hfree]
    rfl
  · exact absurd rfl htrue

theorem windowMs_allowRestart (t : RestartThrottle cap) (nowMs : UInt64) :
    (t.allowRestart nowMs).2.windowMs = t.windowMs := by
  unfold allowRestart
  dsimp only
  split_ifs <;> rfl

theorem windowMs_after (t : RestartThrottle cap) (calls : List UInt64) :
    (t.after calls).windowMs = t.windowMs := by
  induction calls using List.reverseRecOn with
  | nil => rfl
  | append_singleton calls nowMs ih => rw [after_concat, windowMs_allowRestart, ih]

/-! ## The sliding window -/

instance : IsTrans UInt64 (· ≤ ·) := ⟨fun _ _ _ => UInt64.le_trans⟩

theorem isRecent_antitone (windowMs time nowMs later : UInt64) (hle : nowMs ≤ later)
    (h : isRecent windowMs later time = true) : isRecent windowMs nowMs time = true :=
  decide_eq_true (UInt64.lt_of_le_of_lt hle (of_decide_eq_true h))

variable (cap) (windowMs : UInt64)

/-- The throttle allows what the limiter admits, and keeps what is recent. -/
theorem refines_limiter {calls : List UInt64} (hsorted : calls.Pairwise (· ≤ ·)) :
    (new cap windowMs).allowed calls = admitted (isRecent windowMs) cap calls ∧
      ∀ since, (∀ time ∈ calls, time ≤ since) →
        Keeps (isRecent windowMs) ((new cap windowMs).after calls).entries
          (admitted (isRecent windowMs) cap calls) since := by
  induction calls using List.reverseRecOn with
  | nil =>
      refine ⟨rfl, fun since _ nowMs _ => ?_⟩
      exact congrArg (List.filter _) (entries_new cap windowMs)
  | append_singleton calls nowMs ih =>
      obtain ⟨hcalls, -, hlast⟩ := List.pairwise_append.mp hsorted
      obtain ⟨hallowed, hkeeps⟩ := ih hcalls
      have hnow := hkeeps nowMs fun time htime => hlast time htime nowMs List.mem_cons_self
      have hwindow : ((new cap windowMs).after calls).windowMs = windowMs := windowMs_after ..
      have hanswer : (((new cap windowMs).after calls).allowRestart nowMs).1 =
          hasRoom (isRecent windowMs) cap (admitted (isRecent windowMs) cap calls) nowMs := by
        rw [allowRestart_fst, hwindow]
        exact hnow.hasRoom_eq (UInt64.le_refl nowMs)
      have hforget := hnow.forget (isRecent_antitone windowMs) (UInt64.le_refl nowMs)
      rw [allowed_concat, admitted_concat, hallowed, offer, hanswer]
      refine ⟨rfl, fun since hsince => ?_⟩
      have hle : nowMs ≤ since := hsince nowMs (List.mem_append_right _ List.mem_cons_self)
      rw [after_concat, entries_allowRestart, hanswer, hwindow]
      split_ifs with hroom
      · exact (hforget.concat nowMs).mono hle
      · exact hforget.mono hle

theorem answer_eq {calls : List UInt64} {nowMs : UInt64}
    (hsorted : (calls ++ [nowMs]).Pairwise (· ≤ ·)) :
    (((new cap windowMs).after calls).allowRestart nowMs).1 =
      hasRoom (isRecent windowMs) cap (admitted (isRecent windowMs) cap calls) nowMs := by
  obtain ⟨hcalls, -, hlast⟩ := List.pairwise_append.mp hsorted
  have hkeeps := (refines_limiter cap windowMs hcalls).2 nowMs fun time htime =>
    hlast time htime nowMs List.mem_cons_self
  rw [allowRestart_fst, windowMs_after]
  exact hkeeps.hasRoom_eq (UInt64.le_refl nowMs)

/-- A call that is refused changes no later answer. -/
theorem answer_eq_of_refused {calls later : List UInt64} {nowMs next : UInt64}
    (hsorted : (calls ++ nowMs :: (later ++ [next])).Pairwise (· ≤ ·))
    (hrefused : (((new cap windowMs).after calls).allowRestart nowMs).1 = false) :
    (((new cap windowMs).after (calls ++ nowMs :: later)).allowRestart next).1 =
      (((new cap windowMs).after (calls ++ later)).allowRestart next).1 := by
  have hwith : ((calls ++ nowMs :: later) ++ [next]).Pairwise (· ≤ ·) := by
    rw [List.append_assoc]
    exact hsorted
  have hwithout : ((calls ++ later) ++ [next]).Pairwise (· ≤ ·) := by
    rw [List.append_assoc]
    exact hsorted.sublist ((List.sublist_cons_self nowMs _).append_left calls)
  have hthere : (calls ++ [nowMs]).Pairwise (· ≤ ·) :=
    hsorted.sublist ((List.cons_sublist_cons.mpr (List.nil_sublist _)).append_left calls)
  have hskipped : admitted (isRecent windowMs) cap (calls ++ nowMs :: later) =
      admitted (isRecent windowMs) cap (calls ++ later) := by
    rw [answer_eq cap windowMs hthere] at hrefused
    simp only [admitted, List.foldl_append, List.foldl_cons]
    rw [offer, ← admitted, hrefused, if_neg Bool.false_ne_true]
  rw [answer_eq cap windowMs hwith, answer_eq cap windowMs hwithout, hskipped]

variable {cap windowMs}

theorem isRecent_eq {nowMs time : UInt64} (hfits : time.toNat + windowMs.toNat < 2 ^ 64) :
    isRecent windowMs nowMs time = decide (nowMs.toNat < time.toNat + windowMs.toNat) := by
  simp only [isRecent, UInt64.lt_iff_toNat_lt, UInt64.toNat_add, Nat.mod_eq_of_lt hfits]

variable (cap windowMs)

/-- Of times of which the earlier ones are recent at the later ones, no more are allowed than the
capacity. -/
theorem countP_allowed_le {calls : List UInt64} (hsorted : calls.Pairwise (· ≤ ·))
    (hfits : ∀ time ∈ calls, time.toNat + windowMs.toNat < 2 ^ 64) (within : UInt64 → Bool)
    (hwithin : ∀ time later : UInt64, within time = true → within later = true →
      later.toNat < time.toNat + windowMs.toNat) :
    ((new cap windowMs).allowed calls).countP within ≤ cap := by
  rw [(refines_limiter cap windowMs hsorted).1]
  refine countP_admitted_le _ cap hsorted fun time hmem later _ _ htime hlater => ?_
  rw [isRecent_eq (hfits time hmem)]
  exact decide_eq_true (hwithin time later htime hlater)

/-- A call is refused if the trailing window holds as many allowed calls as the capacity; it never
holds more. -/
theorem answer_eq_false_iff {calls : List UInt64} {nowMs : UInt64}
    (hsorted : (calls ++ [nowMs]).Pairwise (· ≤ ·)) :
    (((new cap windowMs).after calls).allowRestart nowMs).1 = false ↔
      ((new cap windowMs).allowed calls).countP (isRecent windowMs nowMs) = cap := by
  obtain ⟨hcalls, -, hlast⟩ := List.pairwise_append.mp hsorted
  have hle : (admitted (isRecent windowMs) cap calls).countP (isRecent windowMs nowMs) ≤ cap :=
    countP_admitted_le _ cap hcalls fun time _ later hlater _ htime _ =>
      isRecent_antitone windowMs time later nowMs
        (hlast later hlater nowMs List.mem_cons_self) htime
  rw [answer_eq cap windowMs hsorted, (refines_limiter cap windowMs hcalls).1, hasRoom,
    decide_eq_false_iff_not]
  omega

/-- A call is refused exactly if the capacity has been used up later than one window ago; no
half-open window holds more allowed calls, a refused call is as if it had not been made, and no more
times than the capacity are kept. -/
theorem allowRestart_isSlidingWindow {calls : List UInt64} {nowMs : UInt64}
    (hsorted : (calls ++ [nowMs]).Pairwise (· ≤ ·))
    (hfits : ∀ time ∈ calls ++ [nowMs], time.toNat + windowMs.toNat < 2 ^ 64) :
    ((((new cap windowMs).after calls).allowRestart nowMs).1 = false ↔
      ((new cap windowMs).allowed calls).countP
        (fun time => decide (nowMs.toNat < time.toNat + windowMs.toNat)) = cap) ∧
    (∀ start : Nat,
      ((new cap windowMs).allowed (calls ++ [nowMs])).countP
          (fun time => decide (start ≤ time.toNat ∧ time.toNat < start + windowMs.toNat)) ≤ cap ∧
        ((new cap windowMs).allowed (calls ++ [nowMs])).countP
          (fun time => decide (start < time.toNat ∧ time.toNat ≤ start + windowMs.toNat)) ≤ cap) ∧
    (∀ later next, (calls ++ nowMs :: (later ++ [next])).Pairwise (· ≤ ·) →
      (((new cap windowMs).after calls).allowRestart nowMs).1 = false →
        (((new cap windowMs).after (calls ++ nowMs :: later)).allowRestart next).1 =
          (((new cap windowMs).after (calls ++ later)).allowRestart next).1) ∧
    ((new cap windowMs).after (calls ++ [nowMs])).recentCount ≤ cap := by
  refine ⟨?_, fun start => ⟨?_, ?_⟩, fun later next => answer_eq_of_refused cap windowMs,
    ((new cap windowMs).after (calls ++ [nowMs])).count_le⟩
  · obtain ⟨hcalls, -, -⟩ := List.pairwise_append.mp hsorted
    rw [answer_eq_false_iff cap windowMs hsorted, (refines_limiter cap windowMs hcalls).1]
    have hcount : ∀ time ∈ admitted (isRecent windowMs) cap calls, isRecent windowMs nowMs time =
        decide (nowMs.toNat < time.toNat + windowMs.toNat) := fun time htime =>
      isRecent_eq (hfits time (List.mem_append_left _ (mem_of_mem_admitted _ _ htime)))
    rw [List.countP_congr fun time htime => by rw [hcount time htime]]
  · refine countP_allowed_le cap windowMs hsorted hfits _ fun time later htime hlater => ?_
    simp only [decide_eq_true_eq] at htime hlater
    omega
  · refine countP_allowed_le cap windowMs hsorted hfits _ fun time later htime hlater => ?_
    simp only [decide_eq_true_eq] at htime hlater
    omega

/-- A fourth restart within ten seconds is refused. -/
theorem allowRestart_isSlidingWindow_burst :
    (((new 3 10000).after [0, 1000, 2000]).allowRestart 3000).1 = false ↔
      ((new 3 10000).allowed [0, 1000, 2000]).countP
        (fun time => decide ((3000 : UInt64).toNat < time.toNat + (10000 : UInt64).toNat)) = 3 :=
  (allowRestart_isSlidingWindow 3 10000 (by decide) (by simp)).1

example : (new 3 10000).allowed [0, 1000, 2000, 3000, 11000] = [0, 1000, 2000, 11000] := rfl

end RestartThrottle

end VKey
