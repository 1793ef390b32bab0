import Mathlib.Data.List.DropRight
import VKey.Support.Run
import VKey.Update.Files

/-!
# The deferred swap of the TSF library

A new TSF library that could not be put in place waits for the next start of the program.  The start
checks it, parks the old one and renames the new one.  Between the two renames there is no TSF
library: a run that is stopped there, or whose rollback fails, leaves a state that no later run gets
out of.
-/

namespace VKey

namespace Update

/-! ## The swap -/

/-- The digits of a hexadecimal number. -/
def isHexDigit (c : UInt8) : Bool :=
  decide (0x30 ≤ c ∧ c ≤ 0x39) || decide (0x41 ≤ c ∧ c ≤ 0x46) || decide (0x61 ≤ c ∧ c ≤ 0x66)

/-- Lowercase of ASCII. -/
def toLower (c : UInt8) : UInt8 := if 0x41 ≤ c ∧ c ≤ 0x5A then c + 0x20 else c

/-- The hash in a marker, without what stands around it; empty if it does not have the length of a
hash. -/
def markerHash (content : Bytes) : Bytes :=
  let hex := (content.dropWhile (!isHexDigit ·)).rdropWhile (!isHexDigit ·)
  if hex.length = 64 then hex.map toLower else []

/-- Read the hash of the marker; empty if there is no marker. -/
def readMarkerHash : FileProgram Bytes := do
  let content ← read .pendingMarker
  return (content.map markerHash).getD []

/-- The pending library is the one of the marker, and it is trusted. -/
def isPendingAuthentic : FileProgram Bool := do
  let expected ← readMarkerHash
  let actual ← computeFileSha256 .pending
  if expected.isEmpty || actual.isEmpty || expected != actual then return false
  else isExtensionTrusted .pending

inductive PendingDllState where
  | none
  | swapFailed
  | swapDoneNeedsReboot
  deriving DecidableEq, Repr

/-- Put the pending library in the place of the live one, which is parked. -/
def swapPending (parked : File) : FileProgram PendingDllState := do
  createOldVersionDir
  let released ← rename (.installed .tsf) parked
  if !released then return .swapFailed
  else
    let installed ← rename .pending (.installed .tsf)
    if !installed then
      let _ ← rename parked (.installed .tsf)
      return .swapFailed
    else
      remove .pendingMarker
      return .swapDoneNeedsReboot

/-- Apply a pending library at the start of the program; `stamp` is the time of the start. -/
def applyPendingDllUpdate (stamp : String) : FileProgram PendingDllState := do
  let waiting ← fileExists .pending
  if !waiting then
    remove .pendingMarker
    return .none
  else
    let authentic ← isPendingAuthentic
    if !authentic then
      remove .pending
      remove .pendingMarker
      return .none
    else swapPending (.parked stamp .pending)

/-! ## Runs -/

/-- A start of the program: its time, which operation it is stopped before, and which renames
fail. -/
structure Start where
  stamp : String
  stops : Call → Bool := fun _ => false
  renameFails : File → File → Bool := fun _ _ => false

namespace Start

/-- Only renames fail. -/
def faults (start : Start) : Faults where
  stops := start.stops
  fails
    | .rename src dst => start.renameFails src dst
    | _ => false

@[simp] theorem faults_stops (start : Start) : start.faults.stops = start.stops := rfl

@[simp] theorem faults_fails_rename (start : Start) (src dst : File) :
    start.faults.fails (.rename src dst) = start.renameFails src dst := rfl

@[simp] theorem faults_fails_computeFileSha256 (start : Start) (file : File) :
    start.faults.fails (.computeFileSha256 file) = false := rfl

/-- Nothing is stopped and nothing fails. -/
def Undisturbed (start : Start) : Prop :=
  (∀ c, start.stops c = false) ∧ ∀ src dst, start.renameFails src dst = false

/-- The run comes to the rename that parks the live library, and the rename does not fail. -/
def Parks (start : Start) : Prop :=
  (∀ c ∈ [Call.fileExists .pending, .read .pendingMarker, .computeFileSha256 .pending,
      .isExtensionTrusted .pending, .createOldVersionDir,
      .rename (.installed .tsf) (.parked start.stamp .pending)], start.stops c = false) ∧
    start.renameFails (.installed .tsf) (.parked start.stamp .pending) = false

/-- The pending library does not get the free name. -/
def MissesInstall (start : Start) : Prop :=
  start.stops (.rename .pending (.installed .tsf)) = true ∨
    start.renameFails .pending (.installed .tsf) = true

/-- The parked library does not get its name back. -/
def MissesRollback (start : Start) : Prop :=
  start.stops (.rename .pending (.installed .tsf)) = true ∨
    start.stops (.rename (.parked start.stamp .pending) (.installed .tsf)) = true ∨
    start.renameFails (.parked start.stamp .pending) (.installed .tsf) = true

/-- The run parks the live library, and neither is the pending one put in its place nor is the
parked one put back. -/
def LeavesVacant (start : Start) : Prop := start.Parks ∧ start.MissesInstall ∧ start.MissesRollback

end Start

variable (security : Security)

/-- The disk after a start. -/
def afterStart (disk : Disk) (start : Start) : Disk :=
  ((applyPendingDllUpdate start.stamp).exec (answer security start.faults) disk).2

/-- The pending library passes the check. -/
def Authentic (disk : Disk) : Prop :=
  ∃ content marker, disk .pending = some content ∧ disk .pendingMarker = some marker ∧
    markerHash marker = security.sha256 content ∧ markerHash marker ≠ [] ∧
    security.isExtensionTrusted content = true

/-! ## One start -/

section OneStart

variable {security} {disk : Disk} {start : Start} {parked : File} {old new : Bytes}

/-- The marker holds a hash, and it is that of the pending library. -/
def hashMatches (security : Security) (disk : Disk) : Bool :=
  let expected := ((disk .pendingMarker).map markerHash).getD []
  let actual := ((disk .pending).map security.sha256).getD []
  !(expected.isEmpty || actual.isEmpty || expected != actual)

theorem authentic_iff :
    Authentic security disk ↔
      hashMatches security disk = true ∧
      (disk .pending).any security.isExtensionTrusted = true := by
  cases hpending : disk .pending with
  | none => simp [Authentic, hashMatches, hpending]
  | some content =>
      cases hmarker : disk .pendingMarker with
      | none => simp [Authentic, hashMatches, hpending, hmarker]
      | some marker =>
          simp only [Authentic, hashMatches, hpending, hmarker, Option.some.injEq, exists_and_left,
            exists_eq_left', Option.map_some, Option.getD_some, Option.any_some, Bool.not_eq_true',
            Bool.or_eq_false_iff, bne_eq_false_iff_eq, List.isEmpty_eq_false_iff]
          grind

/-- The check changes nothing. -/
theorem exec_isPendingAuthentic {α : Type} (next : Bool → FileProgram α) :
    (isPendingAuthentic >>= next).exec (answer security start.faults) disk =
      if start.stops (.read .pendingMarker) then (none, disk)
      else if start.stops (.computeFileSha256 .pending) then (none, disk)
      else if !hashMatches security disk then
        (next false).exec (answer security start.faults) disk
      else if start.stops (.isExtensionTrusted .pending) then (none, disk)
      else (next ((disk .pending).any security.isExtensionTrusted)).exec
      (answer security start.faults)
        disk := by
  simp only [isPendingAuthentic, readMarkerHash, bind_assoc, pure_bind, exec_read,
    exec_computeFileSha256,
    Start.faults_stops, Start.faults_fails_computeFileSha256, Bool.false_eq_true, if_false,
    hashMatches, Bool.not_not]
  split_ifs with hread hhash hmatches htrusted
  · rfl
  · rfl
  · rw [pure_bind]
  · rw [exec_isExtensionTrusted, Start.faults_stops, if_pos htrusted]
  · rw [exec_isExtensionTrusted, Start.faults_stops, if_neg htrusted]

/-- The swap, by what happens to its calls. -/
theorem exec_swapPending (hparked : parked ≠ .pending)
    (hlive : disk (.installed .tsf) = some old) (hpending : disk .pending = some new) :
    let vacant := disk.renamed (.installed .tsf) parked old
    let installed := vacant.renamed .pending (.installed .tsf) new
    (swapPending parked).exec (answer security start.faults) disk =
      if start.stops .createOldVersionDir then (none, disk)
      else if start.stops (.rename (.installed .tsf) parked) then (none, disk)
      else if start.renameFails (.installed .tsf) parked then (some .swapFailed, disk)
      else if start.stops (.rename .pending (.installed .tsf)) then (none, vacant)
      else if start.renameFails .pending (.installed .tsf) then
        if start.stops (.rename parked (.installed .tsf)) then (none, vacant)
        else if start.renameFails parked (.installed .tsf) then (some .swapFailed, vacant)
        else (some .swapFailed, vacant.renamed parked (.installed .tsf) old)
      else if start.stops (.remove .pendingMarker) then (none, installed)
      else (some .swapDoneNeedsReboot, Function.update installed .pendingMarker none) := by
  intro vacant installed
  have hpending' : disk.renamed (.installed .tsf) parked old .pending = some new := by
    rw [← hpending, Disk.renamed, Function.update_of_ne hparked.symm,
      Function.update_of_ne File.noConfusion]
  have hparked' : disk.renamed (.installed .tsf) parked old parked = some old :=
    Function.update_self ..
  simp only [swapPending, exec_createOldVersionDir, exec_rename hlive, Start.faults_stops,
    Start.faults_fails_rename, Bool.not_false, Bool.not_true, Bool.false_eq_true, if_true, if_false,
    exec_rename hpending', exec_rename hparked', exec_remove, Program.exec_pure]
  rfl

/-! ## The states between two starts -/

/-- The old library is live, and the new one waits. -/
structure Waiting (security : Security) (old new : Bytes) (disk : Disk) : Prop where
  live : disk (.installed .tsf) = some old
  pending : disk .pending = some new
  authentic : Authentic security disk

/-- The new library is live. -/
structure Swapped (new : Bytes) (disk : Disk) : Prop where
  live : disk (.installed .tsf) = some new
  pending : disk .pending = none

/-- The new library waits, and no library is live. -/
structure Vacant (security : Security) (disk : Disk) : Prop where
  live : disk (.installed .tsf) = none
  authentic : Authentic security disk

theorem authentic_congr {disk' : Disk} (hpending : disk' .pending = disk .pending)
    (hmarker : disk' .pendingMarker = disk .pendingMarker) :
    Authentic security disk' ↔ Authentic security disk := by
  rw [Authentic, Authentic, hpending, hmarker]

/-- A start that finds an authentic library swaps it, unless it is stopped before. -/
theorem afterStart_of_authentic (h : Authentic security disk) (start : Start) :
    afterStart security disk start =
      if start.stops (.fileExists .pending) || start.stops (.read .pendingMarker) ||
          start.stops (.computeFileSha256 .pending) || start.stops
          (.isExtensionTrusted .pending) then disk
      else ((swapPending (.parked start.stamp .pending)).exec
        (answer security start.faults) disk).2 := by
  obtain ⟨hmatches, htrusted⟩ := authentic_iff.mp h
  obtain ⟨content, -, hpending, -⟩ := h
  have hwaiting : (disk .pending).isSome = true := by rw [hpending, Option.isSome_some]
  simp only [afterStart, applyPendingDllUpdate, exec_fileExists,
    exec_isPendingAuthentic, hmatches, htrusted,
    hwaiting, Start.faults_stops, Bool.not_true, Bool.false_eq_true, if_false]
  cases start.stops (.fileExists .pending)
  · cases start.stops (.read .pendingMarker)
    · cases start.stops (.computeFileSha256 .pending)
      · cases start.stops (.isExtensionTrusted .pending)
        · rfl
        · rfl
      · rfl
    · rfl
  · rfl

theorem exec_removed (file : File) (hfile : file ≠ .installed .tsf) :
    (((do
        remove file
        remove .pendingMarker
        return PendingDllState.none) : FileProgram PendingDllState).exec
      (answer security start.faults) disk).2 (.installed .tsf) = disk (.installed .tsf) := by
  rw [exec_remove, exec_remove]
  split_ifs
  · rfl
  · exact Function.update_of_ne hfile.symm _ _
  · simp [Function.update_of_ne hfile.symm]

/-- A start that finds no authentic library leaves the live one alone. -/
theorem afterStart_of_not_authentic (h : ¬Authentic security disk) :
    afterStart security disk start (.installed .tsf) = disk (.installed .tsf) := by
  rw [authentic_iff] at h
  rw [afterStart, applyPendingDllUpdate, exec_fileExists]
  split_ifs with hstopped hwaiting
  · rfl
  · rw [exec_remove]
    split_ifs
    · rfl
    · simp
  · rw [exec_isPendingAuthentic, Bool.not_false, if_pos rfl]
    split_ifs with hread hhash hmatches htrusted hrejected
    · rfl
    · rfl
    · exact exec_removed .pending (by simp)
    · rfl
    · exact exec_removed .pending (by simp)
    · rw [Bool.not_eq_true', Bool.not_eq_false] at hmatches hrejected
      exact absurd ⟨hmatches, hrejected⟩ h

theorem Waiting.afterStart_of_not_parks (h : Waiting security old new disk)
    (hparks : ¬start.Parks) :
    afterStart security disk start = disk := by
  rw [afterStart_of_authentic h.authentic start]
  split_ifs with hstopped
  · rfl
  · rw [exec_swapPending (by simp) h.live h.pending]
    simp only [Bool.or_eq_true, not_or, Bool.not_eq_true] at hstopped
    simp only [Start.Parks, List.forall_mem_cons, List.not_mem_nil, false_implies, implies_true,
      hstopped, true_and, and_true] at hparks
    split_ifs with hdir hpark hfails
    all_goals first | rfl | exact absurd (by simp_all) hparks

/-- A run that parks the live library goes on until the new library is installed or the old one is
back, or leaves neither. -/
theorem Waiting.afterStart_of_parks (h : Waiting security old new disk) (hparks : start.Parks) :
    let after := afterStart security disk start
    let vacant := disk.renamed (.installed .tsf) (.parked start.stamp .pending) old
    let installed := vacant.renamed .pending (.installed .tsf) new
    (start.MissesInstall ∧ start.MissesRollback ∧ after = vacant) ∨
      (start.MissesInstall ∧ ¬start.MissesRollback ∧
        after = vacant.renamed (.parked start.stamp .pending) (.installed .tsf) old) ∨
      (¬start.MissesInstall ∧
        (after = installed ∨ after = Function.update installed .pendingMarker none)) := by
  intro after vacant installed
  simp only [Start.Parks, List.forall_mem_cons, List.not_mem_nil, false_implies, implies_true,
    and_true] at hparks
  obtain ⟨⟨hexists, hread, hhash, htrusted, hdir, hpark⟩, hfails⟩ := hparks
  have hafter := afterStart_of_authentic h.authentic start
  rw [exec_swapPending (by simp) h.live h.pending] at hafter
  simp only [hexists, hread, hhash, htrusted, hdir, hpark, hfails,
    Bool.or_false, Bool.false_eq_true, if_false] at hafter
  simp only [Start.MissesInstall, Start.MissesRollback]
  split_ifs at hafter with hstop hmiss hstopBack hmissBack hstopMarker
  · exact Or.inl ⟨Or.inl hstop, Or.inl hstop, hafter⟩
  · exact Or.inl ⟨Or.inr hmiss, Or.inr (Or.inl hstopBack), hafter⟩
  · exact Or.inl ⟨Or.inr hmiss, Or.inr (Or.inr hmissBack), hafter⟩
  · exact Or.inr (Or.inl ⟨Or.inr hmiss, by simp [hstop, hstopBack, hmissBack], hafter⟩)
  · exact Or.inr (Or.inr ⟨by simp [hstop, hmiss], Or.inl hafter⟩)
  · exact Or.inr (Or.inr ⟨by simp [hstop, hmiss], Or.inr hafter⟩)

/-- The new library goes on waiting, or it becomes the live one, unless the run leaves none. -/
theorem Waiting.afterStart_cases (h : Waiting security old new disk) (start : Start) :
    start.LeavesVacant ∧ Vacant security (afterStart security disk start) ∨
      ¬start.LeavesVacant ∧ (Waiting security old new (afterStart security disk start) ∨
        Swapped new (afterStart security disk start)) := by
  by_cases hparks : start.Parks
  · rcases h.afterStart_of_parks hparks with
      ⟨hinstall, hrollback, hafter⟩ | ⟨hinstall, hrollback, hafter⟩ | ⟨hinstall, hafter⟩
    · refine Or.inl ⟨⟨hparks, hinstall, hrollback⟩, ?_, ?_⟩
      · rw [hafter]
        simp [Disk.renamed]
      · rw [hafter]
        exact (authentic_congr (by simp [Disk.renamed]) (by simp [Disk.renamed])).mpr h.authentic
    · refine Or.inr ⟨fun hvacant => hrollback hvacant.2.2, Or.inl ⟨?_, ?_, ?_⟩⟩
      · rw [hafter]
        exact Function.update_self ..
      · rw [hafter, ← h.pending]
        simp [Disk.renamed]
      · rw [hafter]
        exact (authentic_congr (by simp [Disk.renamed]) (by simp [Disk.renamed])).mpr h.authentic
    · refine Or.inr ⟨fun hvacant => hinstall hvacant.2.1, Or.inr ?_⟩
      rcases hafter with hafter | hafter
      · exact ⟨by rw [hafter]; simp [Disk.renamed], by rw [hafter]; simp [Disk.renamed]⟩
      · exact ⟨by rw [hafter]; simp [Disk.renamed], by rw [hafter]; simp [Disk.renamed]⟩
  · refine Or.inr ⟨fun hvacant => hparks hvacant.1, Or.inl ?_⟩
    rw [h.afterStart_of_not_parks hparks]
    exact h

theorem Waiting.afterStart_of_undisturbed (h : Waiting security old new disk)
    (hundisturbed : start.Undisturbed) :
    Swapped new (afterStart security disk start) ∧
      afterStart security disk start .pendingMarker = none := by
  have hafter := afterStart_of_authentic h.authentic start
  rw [exec_swapPending (by simp) h.live h.pending] at hafter
  simp only [hundisturbed.1, hundisturbed.2, Bool.or_false, Bool.false_eq_true, if_false] at hafter
  rw [hafter]
  exact ⟨⟨by simp [Disk.renamed], by simp [Disk.renamed]⟩, Function.update_self ..⟩

theorem Swapped.afterStart (h : Swapped new disk) :
    Swapped new (afterStart security disk start) := by
  rw [Update.afterStart, applyPendingDllUpdate, exec_fileExists, h.pending, Option.isSome_none,
    Bool.not_false, if_pos rfl, exec_remove]
  split_ifs
  · exact h
  · exact h
  · exact ⟨by simp [h.live], by simp [h.pending]⟩

theorem Swapped.marker_afterStart (h : Swapped new disk) (hundisturbed : start.Undisturbed) :
    Update.afterStart security disk start .pendingMarker = none := by
  rw [Update.afterStart, applyPendingDllUpdate, exec_fileExists, h.pending, Option.isSome_none,
    Bool.not_false, if_pos rfl, exec_remove, Start.faults_stops, hundisturbed.1, hundisturbed.1,
    if_neg Bool.false_ne_true, if_neg Bool.false_ne_true]
  simp

theorem Vacant.afterStart (h : Vacant security disk) :
    Update.afterStart security disk start (.installed .tsf) = none := by
  rw [afterStart_of_authentic h.authentic start, swapPending, exec_createOldVersionDir]
  split_ifs
  · exact h.live
  · exact h.live
  · rw [exec_rename_none h.live, Bool.not_false, if_pos rfl]
    split_ifs
    · exact h.live
    · exact h.live

/-- Only a library that was live before or that has passed the check is live after a run. -/
theorem live_afterStart {content : Bytes}
    (h : afterStart security disk start (.installed .tsf) = some content) :
    disk (.installed .tsf) = some content ∨
      disk .pending = some content ∧ Authentic security disk := by
  by_cases hauthentic : Authentic security disk
  · obtain ⟨new, -, hpending, -⟩ := id hauthentic
    cases hlive : disk (.installed .tsf) with
    | none =>
        rw [(Vacant.mk hlive hauthentic).afterStart] at h
        cases h
    | some old =>
        have hwaiting : Waiting security old new disk := ⟨hlive, hpending, hauthentic⟩
        rcases hwaiting.afterStart_cases start with
          ⟨-, hafter⟩ | ⟨-, hafter | hafter⟩
        · rw [hafter.live] at h
          cases h
        · exact Or.inl (hafter.live.symm.trans h)
        · exact Or.inr ⟨hpending.trans (hafter.live.symm.trans h), hauthentic⟩
  · exact Or.inl ((afterStart_of_not_authentic hauthentic).symm.trans h)

end OneStart

/-! ## Sequences of starts -/

/-- A run in which nothing goes wrong ends with one of the two libraries live, and nothing waits any
more if it is the new one. -/
def Recovers (old new : Bytes) (disk : Disk) : Prop :=
  ∀ start : Start, start.Undisturbed →
    ∃ content, afterStart security disk start (.installed .tsf) = some content ∧
      (content = old ∨ content = new) ∧
      (content = new → afterStart security disk start .pending = none ∧
        afterStart security disk start .pendingMarker = none)

/-- If a library waits, the start does not leave the directory without a live one. -/
def KeepsLive (disk : Disk) (start : Start) : Prop :=
  (disk .pending).isSome = true → ¬start.LeavesVacant

section Sequences

variable {security} {disk : Disk} {old new : Bytes}

theorem Waiting.recovers (h : Waiting security old new disk) : Recovers security old new disk :=
  fun _ hundisturbed =>
    have hafter := h.afterStart_of_undisturbed hundisturbed
    ⟨new, hafter.1.live, Or.inr rfl, fun _ => ⟨hafter.1.pending, hafter.2⟩⟩

theorem Swapped.recovers (h : Swapped new disk) : Recovers security old new disk :=
  fun _ hundisturbed =>
    ⟨new, h.afterStart.live, Or.inr rfl,
      fun _ => ⟨h.afterStart.pending, h.marker_afterStart hundisturbed⟩⟩

theorem Vacant.not_recovers (h : Vacant security disk) : ¬Recovers security old new disk := by
  intro hrecovers
  obtain ⟨content, hlive, -⟩ := hrecovers { stamp := "" } ⟨fun _ => rfl, fun _ _ => rfl⟩
  rw [h.afterStart] at hlive
  cases hlive

theorem recovers_iff_keepsLive (h : Waiting security old new disk ∨ Swapped new disk)
    (start : Start) :
    Recovers security old new (afterStart security disk start) ↔ KeepsLive disk start := by
  rcases h with h | h
  · rw [KeepsLive, h.pending, Option.isSome_some]
    rcases h.afterStart_cases start with ⟨hvacant, hafter⟩ | ⟨hvacant, hafter⟩
    · exact iff_of_false hafter.not_recovers fun hkeeps => hkeeps rfl hvacant
    · exact iff_of_true (hafter.elim Waiting.recovers Swapped.recovers) fun _ => hvacant
  · rw [KeepsLive, h.pending, Option.isSome_none]
    exact iff_of_true h.afterStart.recovers nofun

theorem KeepsLive.afterStart {start : Start} (hkeeps : KeepsLive disk start)
    (h : Waiting security old new disk ∨ Swapped new disk) :
    Waiting security old new (Update.afterStart security disk start) ∨
      Swapped new (Update.afterStart security disk start) := by
  rcases h with h | h
  · rcases h.afterStart_cases start with ⟨hvacant, -⟩ | ⟨-, hafter⟩
    · exact absurd hvacant (hkeeps (by rw [h.pending, Option.isSome_some]))
    · exact hafter
  · exact Or.inr h.afterStart

end Sequences

/-- However the runs are stopped and whichever renames fail, a run in which nothing goes wrong ends
well after each of them, exactly if none of them leaves the directory without a live library while
the new one waits.  A library that does not pass the check never becomes the live one. -/
theorem applyPendingDllUpdate_recovers_iff {old new : Bytes} {disk : Disk}
    (hlive : disk (.installed .tsf) = some old) (hpending : disk .pending = some new)
    (hauthentic : Authentic security disk) (starts : List Start) :
    ((Recovers security old new disk ∧
        EachStep (afterStart security) (fun disk start => Recovers security old new
          (afterStart security disk start)) disk starts) ↔
      EachStep (afterStart security) KeepsLive disk starts) ∧
    ∀ disk start content, afterStart security disk start (.installed .tsf) = some content →
      disk (.installed .tsf) = some content ∨
        disk .pending = some content ∧ Authentic security disk := by
  have hwaiting : Waiting security old new disk := ⟨hlive, hpending, hauthentic⟩
  refine ⟨?_, fun _ _ _ => live_afterStart⟩
  rw [and_iff_right hwaiting.recovers]
  exact eachStep_iff (fun disk => Waiting security old new disk ∨ Swapped new disk)
    (fun _ start h => recovers_iff_keepsLive h start) (fun _ _ h hkeeps => hkeeps.afterStart h)
    (Or.inl hwaiting) starts

/-- Every file is signed, and has the same hash. -/
def plainSecurity : Security where
  sha256 _ := List.replicate 64 0x30
  isExtensionTrusted _ := true

/-- A live library, another one that waits, and a marker with its hash. -/
def deferredDisk : Disk
  | .installed .tsf => some [1]
  | .pending => some [2]
  | .pendingMarker => some (List.replicate 64 0x30)
  | _ => none

/-- A run that is stopped between the two renames. -/
def stoppedBetween : Start where
  stamp := "_1"
  stops
    | .rename .pending _ => true
    | _ => false

theorem authentic_deferredDisk : Authentic plainSecurity deferredDisk :=
  ⟨[2], List.replicate 64 0x30, rfl, rfl, by decide, by decide, rfl⟩

theorem applyPendingDllUpdate_recovers_deferredDisk :
    EachStep (afterStart plainSecurity) KeepsLive deferredDisk [{ stamp := "_1" }] ∧
      Recovers plainSecurity [1] [2] (afterStart plainSecurity deferredDisk { stamp := "_1" }) := by
  have hkeeps : EachStep (afterStart plainSecurity) KeepsLive deferredDisk [{ stamp := "_1" }] :=
    ⟨fun _ h => by simp [Start.LeavesVacant, Start.MissesInstall] at h, trivial⟩
  exact ⟨hkeeps, ((applyPendingDllUpdate_recovers_iff plainSecurity rfl rfl authentic_deferredDisk
    [{ stamp := "_1" }]).1.mpr hkeeps).2.1⟩

/-- After the run that is stopped, a run in which nothing goes wrong leaves no live library. -/
theorem not_applyPendingDllUpdate_recovers :
    afterStart plainSecurity (afterStart plainSecurity deferredDisk stoppedBetween)
    { stamp := "_2" }
        (.installed .tsf) = none ∧
      ¬(Recovers plainSecurity [1] [2] deferredDisk ∧
        EachStep (afterStart plainSecurity) (fun disk start => Recovers plainSecurity [1] [2]
          (afterStart plainSecurity disk start)) deferredDisk [stoppedBetween]) := by
  have hlive : afterStart plainSecurity (afterStart plainSecurity deferredDisk stoppedBetween)
      { stamp := "_2" } (.installed .tsf) = none := by decide
  refine ⟨hlive, fun h => ?_⟩
  obtain ⟨content, hcontent, -⟩ := h.2.1 { stamp := "_2" } ⟨fun _ => rfl, fun _ _ => rfl⟩
  rw [hlive] at hcontent
  cases hcontent

end Update

end VKey
