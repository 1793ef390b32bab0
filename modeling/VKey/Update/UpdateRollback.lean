import VKey.Support.ListEdits
import VKey.Update.Installer

/-!
# What an update leaves

An update that succeeds leaves the files of the package.  One that fails puts the old files back as
far as they have been moved: a file that could not be moved and has been copied over is lost, a file
that was not there before stays, and an old file of an earlier update comes back.
-/

namespace VKey

namespace Update

open Program

/-! ## The steps, file by file -/

section Steps

variable {security : Security} {faults : Faults} {disk : Disk}

/-- The file can be moved to `_old_version`. -/
def movesAway (faults : Faults) (name : Name) : Bool :=
  !faults.fails (.move (.installed name) (.old name))

/-- An installed file is moved, or only the file that it would have replaced is removed. -/
theorem run_backUpFile (name : Name) :
    ((backUpFile name).run (perform security faults) disk).2 =
      match disk (.installed name) with
      | none => disk
      | some contents =>
          let removed : Disk := Function.update disk (.old name) none
          if movesAway faults name then removed.renamed (.installed name) (.old name) contents
          else removed := by
  rw [backUpFile, run_bind, run_fileExists]
  cases hinstalled : disk (.installed name) with
  | none => rfl
  | some contents =>
      have hinstalled' :
        Function.update disk (.old name) none (.installed name) = some contents := by
        rw [Function.update_of_ne File.noConfusion, hinstalled]
      simp only [Option.isSome_some, if_true, run_bind, run_remove, run_move hinstalled', run_pure,
        Function.update_self, Option.isSome_none, Bool.or_false, movesAway]
      by_cases hfails : faults.fails (.move (.installed name) (.old name)) = true
      · simp only [hfails, if_true, Bool.not_true, Bool.false_eq_true, if_false]
      · simp only [hfails, Bool.false_eq_true, if_false, Bool.not_false, if_true]

/-- What the backup leaves under a name in `_old_version`. -/
def backedUp (faults : Faults) (disk : Disk) (name : Name) : Option Bytes :=
  match disk (.installed name) with
  | none => disk (.old name)
  | some contents => if movesAway faults name then some contents else none

/-- What the backup leaves of an installed file. -/
def leftBehind (faults : Faults) (disk : Disk) (name : Name) : Option Bytes :=
  if movesAway faults name then none else disk (.installed name)

theorem run_backUpFile_old (name : Name) :
    ((backUpFile name).run (perform security faults) disk).2 (.old name) =
      backedUp faults disk name := by
  rw [run_backUpFile, backedUp]
  cases disk (.installed name) with
  | none => rfl
  | some contents => cases movesAway faults name <;> simp [Disk.renamed]

theorem run_backUpFile_installed (name : Name) :
    ((backUpFile name).run (perform security faults) disk).2 (.installed name) =
      leftBehind faults disk name := by
  rw [run_backUpFile, leftBehind]
  cases hinstalled : disk (.installed name) with
  | none => simp [hinstalled]
  | some contents => cases movesAway faults name <;> simp [Disk.renamed, hinstalled]

theorem run_backUpFile_of_ne {name : Name} {file : File} (hinstalled : file ≠ .installed name)
    (hold : file ≠ .old name) :
    ((backUpFile name).run (perform security faults) disk).2 file = disk file := by
  rw [run_backUpFile]
  cases disk (.installed name) with
  | none => rfl
  | some contents =>
      cases movesAway faults name <;>
        simp [Disk.renamed_of_ne hinstalled hold, Function.update_of_ne hold]

/-- The files that are backed up. -/
def backedUpNames : List Name := [.vkey, .vkeyClassic, .sciter]

theorem backUp_congr {disk' : Disk} {name : Name}
    (hinstalled : disk' (.installed name) = disk (.installed name))
    (hold : disk' (.old name) = disk (.old name)) :
    backedUp faults disk' name = backedUp faults disk name ∧
      leftBehind faults disk' name = leftBehind faults disk name := by
  rw [backedUp, backedUp, leftBehind, leftBehind, hinstalled, hold]
  exact ⟨rfl, rfl⟩

theorem backUp_after {name other : Name} (hne : name ≠ other) :
    let disk' := ((backUpFile other).run (perform security faults) disk).2
    backedUp faults disk' name = backedUp faults disk name ∧
      leftBehind faults disk' name = leftBehind faults disk name :=
  backUp_congr (run_backUpFile_of_ne (by simpa using hne) (by simp))
    (run_backUpFile_of_ne (by simp) (by simpa using hne))

theorem run_backUpFile_ne {name other : Name} (hne : name ≠ other) :
    ((backUpFile other).run (perform security faults) disk).2 (.old name) = disk (.old name) ∧
      ((backUpFile other).run (perform security faults) disk).2 (.installed name) =
        disk (.installed name) :=
  ⟨run_backUpFile_of_ne (by simp)
    (by simpa using hne), run_backUpFile_of_ne (by simpa using hne) (by simp)⟩

variable (security faults disk) in
theorem run_backUp {name : Name} (hname : name ∈ backedUpNames) :
    (backUp.run (perform security faults) disk).2 (.old name) = backedUp faults disk name ∧
      (backUp.run (perform security faults) disk).2 (.installed name) =
        leftBehind faults disk name := by
  simp only [backUp, run_bind]
  simp only [backedUpNames, List.mem_cons, List.not_mem_nil, or_false] at hname
  rcases hname with rfl | rfl | rfl
  · have hsciter : Name.vkey ≠ .sciter := by decide
    have hclassic : Name.vkey ≠ .vkeyClassic := by decide
    rw [(run_backUpFile_ne hsciter).1, (run_backUpFile_ne hsciter).2,
      (run_backUpFile_ne hclassic).1, (run_backUpFile_ne hclassic).2]
    exact ⟨run_backUpFile_old .vkey, run_backUpFile_installed .vkey⟩
  · have hsciter : Name.vkeyClassic ≠ .sciter := by decide
    have hvkey : Name.vkeyClassic ≠ .vkey := by decide
    rw [(run_backUpFile_ne hsciter).1, (run_backUpFile_ne hsciter).2, run_backUpFile_old,
      run_backUpFile_installed]
    exact backUp_after hvkey
  · have hclassic : Name.sciter ≠ .vkeyClassic := by decide
    have hvkey : Name.sciter ≠ .vkey := by decide
    rw [run_backUpFile_old, run_backUpFile_installed, (backUp_after hclassic).1,
      (backUp_after hclassic).2]
    exact backUp_after hvkey

theorem run_backUp_of_not_mem {file : File}
    (hinstalled : ∀ name ∈ backedUpNames, file ≠ .installed name)
    (hold : ∀ name ∈ backedUpNames, file ≠ .old name) :
    (backUp.run (perform security faults) disk).2 file = disk file := by
  simp only [backUp, run_bind]
  rw [run_backUpFile_of_ne (hinstalled _ (by decide)) (hold _ (by decide)),
    run_backUpFile_of_ne (hinstalled _ (by decide)) (hold _ (by decide)),
    run_backUpFile_of_ne (hinstalled _ (by decide)) (hold _ (by decide))]

/-! ## Copying the package -/

/-- What copying leaves under a name. -/
def copyLeaves (faults : Faults) : List (Name × Bytes) → Name → Option Bytes → Option Bytes
  | [], _, before => before
  | (entry, contents) :: entries, name, before =>
      if entry = .tsf then copyLeaves faults entries name before
      else
        let stored := faults.stored (.copy contents (.installed entry)) contents before
        let after := if entry = name then stored else before
        if faults.fails (.copy contents (.installed entry)) then after
        else copyLeaves faults entries name after

/-- Every file of the package can be copied. -/
def copiesAll (faults : Faults) (entries : List (Name × Bytes)) : Bool :=
  entries.all fun entry =>
    decide (entry.1 = .tsf) || !faults.fails (.copy entry.2 (.installed entry.1))

theorem run_copyDirectoryContents_cons {entry : Name} (htsf : entry ≠ .tsf)
    (hconfig : entry ≠ .config) (contents : Bytes) (entries : List (Name × Bytes)) (disk : Disk) :
    let stored : Disk := Function.update disk (.installed entry)
      (faults.stored (.copy contents (.installed entry)) contents (disk (.installed entry)))
    (copyDirectoryContents ((entry, contents) :: entries)).run (perform security faults) disk =
      if faults.fails (.copy contents (.installed entry)) then (false, stored)
      else (copyDirectoryContents entries).run (perform security faults) stored := by
  rw [copyDirectoryContents, if_neg htsf]
  simp only [run_bind, run_fileExists, hconfig, false_and, if_false, run_copy]
  cases faults.fails (.copy contents (.installed entry)) <;> rfl

/-- Copying goes through if every file can be copied, and leaves each file as the copies have made
it. -/
theorem run_copyDirectoryContents {entries : List (Name × Bytes)}
    (hconfig : Name.config ∉ entries.map Prod.fst) (name : Name) (disk : Disk) :
    ((copyDirectoryContents entries).run (perform security faults) disk).1 =
      copiesAll faults entries ∧
      ((copyDirectoryContents entries).run (perform security faults) disk).2 (.installed name) =
        copyLeaves faults entries name (disk (.installed name)) := by
  induction entries generalizing disk with
  | nil => exact ⟨rfl, rfl⟩
  | cons entry entries ih =>
      obtain ⟨entry, contents⟩ := entry
      simp only [List.map_cons, List.mem_cons, not_or] at hconfig
      obtain ⟨hentry, hentries⟩ := hconfig
      by_cases htsf : entry = .tsf
      · simpa [copyDirectoryContents, copyLeaves, copiesAll, htsf] using ih hentries disk
      · rw [run_copyDirectoryContents_cons htsf (Ne.symm hentry), copyLeaves,
          if_neg htsf, copiesAll, List.all_cons]
        have hstored : Function.update disk (.installed entry)
            (faults.stored (.copy contents (.installed entry)) contents (disk (.installed entry)))
            (.installed name) =
          if entry = name then
            faults.stored (.copy contents (.installed entry)) contents (disk (.installed name))
          else disk (.installed name) := by
          by_cases hname : entry = name
          · rw [hname, if_pos rfl, Function.update_self]
          · rw [if_neg hname, Function.update_of_ne (by simpa using Ne.symm hname)]
        by_cases hfails : faults.fails (.copy contents (.installed entry)) = true
        · simp only [hfails, if_true, htsf, decide_false, Bool.not_true,
            Bool.or_false, Bool.false_and, hstored, and_self]
        · simp only [hfails, Bool.false_eq_true, if_false, Bool.not_false,
            Bool.or_true, Bool.true_and]
          rw [← hstored]
          exact ih hentries _

theorem calls_copyDirectoryContents {file : File} (h : ∀ name, name ≠ .tsf → file ≠ .installed name)
    (entries : List (Name × Bytes)) :
    (copyDirectoryContents entries).Calls fun c => file ∉ c.touched := by
  induction entries with
  | nil => exact trivial
  | cons entry entries ih =>
      obtain ⟨entry, contents⟩ := entry
      rw [copyDirectoryContents]
      split_ifs with htsf
      · exact ih
      · refine calls_bind ⟨by simp [Call.touched], fun _ => trivial⟩ fun present => ?_
        split_ifs
        · exact ih
        · refine calls_bind ⟨by simpa [Call.touched] using h entry htsf, fun _ => trivial⟩
            fun copied => ?_
          split_ifs
          · exact ih
          · exact trivial

theorem copyLeaves_of_not_mem {entries : List (Name × Bytes)} {name : Name}
    (hname : name ∉ entries.map Prod.fst) (before : Option Bytes) :
    copyLeaves faults entries name before = before := by
  induction entries with
  | nil => rfl
  | cons entry entries ih =>
      simp only [List.map_cons, List.mem_cons, not_or] at hname
      simp only [copyLeaves, if_neg (Ne.symm hname.1), ih hname.2, ite_self]

/-- A package that can be copied is copied. -/
theorem copyLeaves_of_mem {entries : List (Name × Bytes)} (hnodup : (entries.map Prod.fst).Nodup)
    (hall : copiesAll faults entries = true) {name : Name} {contents : Bytes}
    (hmem : (name, contents) ∈ entries) (hname : name ≠ .tsf) (before : Option Bytes) :
    copyLeaves faults entries name before = some contents := by
  induction entries generalizing before with
  | nil => cases hmem
  | cons entry entries ih =>
      obtain ⟨entry, copy⟩ := entry
      rw [List.map_cons, List.nodup_cons] at hnodup
      simp only [copiesAll, List.all_cons, Bool.and_eq_true, Bool.or_eq_true, decide_eq_true_eq,
        Bool.not_eq_true'] at hall
      rcases List.mem_cons.mp hmem with heq | hmem
      · obtain ⟨rfl, rfl⟩ := Prod.mk.inj heq
        have hcopied := hall.1.resolve_left hname
        simp only [copyLeaves, if_neg hname, if_true, Faults.stored, hcopied,
          Bool.false_eq_true, if_false]
        exact copyLeaves_of_not_mem hnodup.1 _
      · have hne : entry ≠ name := by
          rintro rfl
          exact hnodup.1 (List.mem_map.mpr ⟨_, hmem, rfl⟩)
        simp only [copyLeaves, if_neg hne]
        split_ifs with htsf hfails
        · exact ih hnodup.2 hall.2 hmem before
        · rw [hall.1.resolve_left htsf] at hfails
          cases hfails
        · exact ih hnodup.2 hall.2 hmem before

/-! ## The TSF library -/

/-- The new TSF library can be left to the next start. -/
def defersTsf (security : Security) (faults : Faults) (newDll : Bytes) : Bool :=
  !faults.fails (.copy newDll .pending) && !faults.fails (.computeFileSha256 .pending) &&
    !(security.sha256 newDll).isEmpty && !faults.fails (.write [] .pendingMarker) &&
    !faults.fails (.write (security.sha256 newDll) .pendingMarker)

variable (security faults) in
theorem run_deferTsfDll (newDll : Bytes) (disk : Disk) :
    let result := (deferTsfDll newDll).run (perform security faults) disk
    result.1 = defersTsf security faults newDll ∧
      (result.1 = true → result.2 .pending = some newDll ∧
        result.2 .pendingMarker = some (security.sha256 newDll)) := by
  simp only [deferTsfDll, run_bind, run_copy, defersTsf]
  cases hstashed : faults.fails (.copy newDll .pending) with
  | true => simp
  | false =>
      have hstored :
        faults.stored (.copy newDll .pending) newDll (disk .pending) = some newDll := by
        rw [Faults.stored, hstashed, if_neg Bool.false_ne_true]
      simp only [Bool.not_false, Bool.not_true, Bool.false_eq_true, if_false, run_bind,
        run_computeFileSha256, Function.update_self, hstored, Option.map_some, Option.getD_some]
      cases hhash : faults.fails (.computeFileSha256 .pending) with
      | true => simp
      | false =>
          simp only [Bool.false_eq_true, if_false]
          cases hempty : (security.sha256 newDll).isEmpty with
          | true => simp
          | false =>
              simp only [Bool.false_eq_true, if_false, run_bind, run_write]
              cases hcreated : faults.fails (.write [] .pendingMarker) with
              | true => simp
              | false =>
                  simp only [Bool.not_false, Bool.not_true, Bool.false_eq_true, if_false, run_bind,
                    run_write]
                  cases hwrote : faults.fails (.write (security.sha256 newDll) .pendingMarker) with
                  | true => simp [run_bind]
                  | false => simp [Faults.stored, hwrote]

theorem calls_deferTsfDll (newDll : Bytes) {file : File} (hpending : file ≠ .pending)
    (hmarker : file ≠ .pendingMarker) : (deferTsfDll newDll).Calls fun c => file ∉ c.touched := by
  have hremoves : ∀ (target : File) (ok : Bool), file ≠ target →
      ((do
          remove target
          return ok) : FileProgram Bool).Calls fun c => file ∉ c.touched :=
    fun _ _ htarget => calls_bind ⟨by simpa [Call.touched] using htarget, fun _ => trivial⟩
      fun _ => trivial
  refine calls_bind ⟨by simpa [Call.touched] using hpending, fun _ => trivial⟩ fun stashed => ?_
  split_ifs
  · exact trivial
  · refine calls_bind ⟨by simp [Call.touched], fun _ => trivial⟩ fun sha => ?_
    split_ifs
    · exact hremoves _ _ hpending
    · refine calls_bind ⟨by simpa [Call.touched] using hmarker, fun _ => trivial⟩ fun created => ?_
      split_ifs
      · exact hremoves _ _ hpending
      · refine calls_bind ⟨by simpa [Call.touched] using hmarker, fun _ => trivial⟩ fun wrote => ?_
        split_ifs
        · refine calls_bind ⟨by simpa [Call.touched] using hmarker, fun _ => trivial⟩ fun _ => ?_
          exact hremoves _ _ hpending
        · exact trivial

/-- The installed TSF library can be parked and the new one copied in its place. -/
def parksTsf (faults : Faults) (stamp : String) (disk : Disk) : Bool :=
  !(faults.fails (.move (.installed .tsf) (.parked stamp .plain)) ||
    (disk (.parked stamp .plain)).isSome)

/-- The new TSF library can be copied. -/
def copiesTsf (faults : Faults) (newDll : Bytes) : Bool :=
  !faults.fails (.copy newDll (.installed .tsf))

/-- What stands in the place of a library that has been parked, when the new one cannot be
copied. -/
def unparked (faults : Faults) (stamp : String) (newDll old : Bytes) : Option Bytes :=
  match faults.left (.copy newDll (.installed .tsf)) none with
  | some part => some part
  | none => if faults.fails (.move (.parked stamp .plain) (.installed .tsf)) then none else some old

/-- The files that the exchange of the TSF library leaves alone. -/
theorem calls_handleTsfDllReplace (newDll : Bytes) (stamp : String) {file : File}
    (h : file ∉ [.installed .tsf, .parked stamp .plain, .pending, .pendingMarker]) :
    (handleTsfDllReplace newDll stamp).Calls fun c => file ∉ c.touched := by
  simp only [List.mem_cons, List.not_mem_nil, or_false, not_or] at h
  obtain ⟨hlive, hparked, hpending, hmarker⟩ := h
  have hdefer : ((do
      let deferred ← deferTsfDll newDll
      return (deferred, none)) : FileProgram (Bool × Option
        String)).Calls fun c => file ∉ c.touched :=
    calls_bind (calls_deferTsfDll newDll hpending hmarker) fun _ => trivial
  refine calls_bind ⟨by simp [Call.touched], fun _ => trivial⟩ fun _ => ?_
  refine calls_bind ⟨by simp [Call.touched], fun _ => trivial⟩ fun present => ?_
  split_ifs
  · exact calls_bind ⟨by simpa [Call.touched] using hlive, fun _ => trivial⟩ fun _ => trivial
  · refine calls_bind ⟨by simpa [Call.touched] using ⟨hlive, hparked⟩, fun _ => trivial⟩
      fun parked => ?_
    split_ifs
    · refine calls_bind ⟨by simpa [Call.touched] using hlive, fun _ => trivial⟩ fun copied => ?_
      split_ifs
      · refine calls_bind ⟨by simpa [Call.touched] using hpending, fun _ => trivial⟩ fun _ => ?_
        exact calls_bind ⟨by simpa [Call.touched] using hmarker, fun _ => trivial⟩ fun _ => trivial
      · refine calls_bind ⟨by simpa [Call.touched] using ⟨hparked, hlive⟩, fun _ => trivial⟩
          fun _ => ?_
        exact hdefer
    · exact hdefer

theorem run_handleTsfDllReplace_none (newDll : Bytes) (stamp : String)
    (hlive : disk (.installed .tsf) = none) :
    let result := (handleTsfDllReplace newDll stamp).run (perform security faults) disk
    result.1 = (copiesTsf faults newDll, none) ∧
      result.2 (.installed .tsf) =
        faults.stored (.copy newDll (.installed .tsf)) newDll none := by
  simp only [handleTsfDllReplace, run_bind, run_createOldVersionDir, run_fileExists, hlive,
    Option.isSome_none, Bool.not_false, if_true, run_copy, run_pure,
      Function.update_self, copiesTsf,
    and_self]

theorem run_deferTsfDll_of_ne (newDll : Bytes) (disk : Disk) {file : File}
    (hpending : file ≠ .pending) (hmarker : file ≠ .pendingMarker) :
    ((deferTsfDll newDll).run (perform security faults) disk).2 file = disk file :=
  run_of_not_touched (calls_deferTsfDll newDll hpending hmarker)

/-- Putting a parked library back. -/
theorem run_unpark (disk : Disk) (stamp : String) (newDll old : Bytes) :
    let vacant := disk.renamed (.installed .tsf) (.parked stamp .plain) old
    let partly : Disk := Function.update vacant (.installed .tsf)
      (faults.left (.copy newDll (.installed .tsf)) none)
    ((move (.parked stamp .plain) (.installed .tsf)).run (perform security faults) partly).2
      (.installed .tsf) = unparked faults stamp newDll old := by
  intro vacant partly
  have hparked : partly (.parked stamp .plain) = some old := by
    simp [partly, vacant, Disk.renamed]
  rw [run_move hparked, unparked]
  cases hleft : faults.left (.copy newDll (.installed .tsf)) none with
  | some part => simp [partly, hleft]
  | none =>
      cases faults.fails (.move (.parked stamp .plain) (.installed .tsf)) <;>
        simp [partly, hleft, Disk.renamed]

variable (security faults) in
/-- An installed library is exchanged, or the new one is left to the next start. -/
theorem run_handleTsfDllReplace_some (newDll : Bytes) (stamp : String) {old : Bytes}
    (hlive : disk (.installed .tsf) = some old) :
    let result := (handleTsfDllReplace newDll stamp).run (perform security faults) disk
    if parksTsf faults stamp disk && copiesTsf faults newDll then
      result.1 = (true, some stamp) ∧ result.2 (.installed .tsf) = some newDll ∧
        result.2 (.parked stamp .plain) = some old
    else
      result.1 = (defersTsf security faults newDll, none) ∧
        result.2 (.installed .tsf) =
          (if parksTsf faults stamp disk then unparked faults stamp newDll old else some old) ∧
        (result.1.1 = true → result.2 .pending = some newDll ∧
          result.2 .pendingMarker = some (security.sha256 newDll)) := by
  simp only [handleTsfDllReplace, run_bind, run_createOldVersionDir, run_fileExists, hlive,
    Option.isSome_some, Bool.not_true, Bool.false_eq_true, if_false, run_move hlive]
  by_cases hparks : parksTsf faults stamp disk = true
  · have hmoves : (faults.fails (.move (.installed .tsf) (.parked stamp .plain)) ||
        (disk (.parked stamp .plain)).isSome) = false := by
      rwa [parksTsf, Bool.not_eq_true'] at hparks
    simp only [hmoves, hparks, Bool.false_eq_true, if_false, if_true, run_bind,
      run_copy, Bool.true_and]
    have hvacant :
      disk.renamed (.installed .tsf) (.parked stamp .plain) old (.installed .tsf) = none := by
      simp [Disk.renamed]
    by_cases hcopies : copiesTsf faults newDll = true
    · have hcopied : faults.fails (.copy newDll (.installed .tsf)) = false := by
        rwa [copiesTsf, Bool.not_eq_true'] at hcopies
      simp only [hcopies, hcopied, Bool.not_false, if_true, run_bind, run_remove,
        run_pure, Faults.stored, Bool.false_eq_true, if_false]
      exact ⟨trivial, by simp, by simp [Disk.renamed]⟩
    · have hcopied : faults.fails (.copy newDll (.installed .tsf)) = true := by
        rwa [copiesTsf, Bool.not_eq_true', Bool.not_eq_false] at hcopies
      simp only [hcopies, hcopied, Bool.not_true, Bool.false_eq_true, if_false,
        if_true, run_bind, run_pure, Faults.stored, hvacant]
      have hdefer := run_deferTsfDll security faults newDll
      refine ⟨by rw [(hdefer _).1], ?_, (hdefer _).2⟩
      rw [run_deferTsfDll_of_ne newDll _ (by simp) (by simp)]
      exact run_unpark disk stamp newDll old
  · have hmoves : (faults.fails (.move (.installed .tsf) (.parked stamp .plain)) ||
        (disk (.parked stamp .plain)).isSome) = true := by
      rwa [parksTsf, Bool.not_eq_true', Bool.not_eq_false] at hparks
    simp only [hmoves, hparks, Bool.false_eq_true, if_true, if_false, run_bind,
      run_pure, Bool.false_and]
    have hdefer := run_deferTsfDll security faults newDll disk
    refine ⟨by rw [hdefer.1], ?_, hdefer.2⟩
    rw [run_deferTsfDll_of_ne newDll disk (by simp) (by simp), hlive]

end Steps

/-! ## The rollback -/

section Rollback

variable {disk : Disk} {parkedTsf : Option String} {failedStamp stamp : String}

theorem rollback_pending (restoreBackup : Bool) :
    rollbackRestoreAndExit restoreBackup parkedTsf failedStamp disk .pending = none ∧
      rollbackRestoreAndExit restoreBackup parkedTsf failedStamp disk .pendingMarker = none := by
  simp [rollbackRestoreAndExit]

theorem rollback_keeps (name : Name) :
    rollbackRestoreAndExit false none failedStamp disk (.installed name) =
      disk (.installed name) := by
  simp [rollbackRestoreAndExit]

theorem renameIfPresent_of_ne {file src dst : File} (hsrc : file ≠ src) (hdst : file ≠ dst) :
    renameIfPresent src dst disk file = disk file := by
  rw [renameIfPresent]
  cases disk src with
  | some contents => exact Disk.renamed_of_ne hsrc hdst contents
  | none => rfl

theorem rollback_restores {name : Name} (h : name ≠ .tsf ∨ parkedTsf = none) :
    rollbackRestoreAndExit true parkedTsf failedStamp disk (.installed name) =
      (disk (.old name)).or (disk (.installed name)) := by
  cases parkedTsf with
  | none => simp [rollbackRestoreAndExit, restoreOld]
  | some stamp =>
      have hname : name ≠ .tsf := h.resolve_right nofun
      have htsf : restoreTsf failedStamp stamp (restoreOld disk) (.installed name) =
          (disk (.old name)).or (disk (.installed name)) := by
        rw [restoreTsf, renameIfPresent_of_ne (by simp) (by simpa using hname),
          renameIfPresent_of_ne (by simpa using hname) (by simp)]
        rfl
      simpa [rollbackRestoreAndExit] using htsf

theorem rollback_restoresTsf {old : Bytes} (h : disk (.parked stamp .plain) = some old) :
    rollbackRestoreAndExit true (some stamp) failedStamp disk (.installed .tsf) = some old := by
  have hparked : renameIfPresent (.installed .tsf) (.parked failedStamp .failed) (restoreOld disk)
      (.parked stamp .plain) = some old := by
    rw [renameIfPresent_of_ne (by simp) (by simp)]
    exact h
  have htsf : restoreTsf failedStamp stamp (restoreOld disk) (.installed .tsf) = some old := by
    rw [restoreTsf, renameIfPresent, hparked]
    exact Function.update_self ..
  simpa [rollbackRestoreAndExit] using htsf

end Rollback

/-! ## When a failed update can be undone -/

section Undoable

variable (security : Security) (run : UpdateRun) (package : Package) (disk : Disk)

/-- An application file is back after a rollback: it could be moved away, or the copies leave it as
it was.  A file that was not installed has no leftover in `_old_version`, and is not created. -/
def FileReturns (name : Name) : Prop :=
  match disk (.installed name) with
  | some contents =>
      movesAway run.faults name = true ∨
        copyLeaves run.faults package.entries name (some contents) = some contents
  | none => disk (.old name) = none ∧ copyLeaves run.faults package.entries name none = none

/-- The old TSF library has been parked and the new one is in its place. -/
def exchangesTsf : Bool :=
  copiesAll run.faults package.entries && parksTsf run.faults run.stamp disk &&
    copiesTsf run.faults package.tsf

/-- The TSF library is back after a rollback: it has been exchanged, or nothing else has come into
its place. A library that was not installed has no leftover in `_old_version`, and is not
created. -/
def TsfReturns : Prop :=
  match disk (.installed .tsf) with
  | some contents =>
      exchangesTsf run package disk = true ∨
        (∀ leftover, disk (.old .tsf) = some leftover → leftover = contents) ∧
          (disk (.old .tsf) = none → copiesAll run.faults package.entries = true →
            parksTsf run.faults run.stamp disk = true →
              unparked run.faults run.stamp package.tsf contents = some contents)
  | none =>
      disk (.old .tsf) = none ∧
        (copiesAll run.faults package.entries = true →
          run.faults.stored (.copy package.tsf (.installed .tsf)) package.tsf none = none)

/-- The new TSF library is installed or can wait. -/
def tsfReplaced : Bool :=
  match disk (.installed .tsf) with
  | some _ =>
      parksTsf run.faults run.stamp disk && copiesTsf run.faults package.tsf ||
        defersTsf security run.faults package.tsf
  | none => copiesTsf run.faults package.tsf

/-- The new executable. -/
def newExecutable : Bytes := (package.entries.lookup run.edition.executable).getD []

/-- The new executable has a receipt and runs. -/
def launches : Bool :=
  let file := File.installed run.edition.executable
  !run.faults.fails (.computeFileSha256 file) &&
    !(security.sha256 (newExecutable run package)).isEmpty &&
    !run.faults.fails (.write (security.sha256 (newExecutable run package)) .updateSucceeded) &&
    !run.faults.fails (.launch file)

/-- No step behind the backup fails. -/
def completes : Bool :=
  copiesAll run.faults package.entries && tsfReplaced security run package disk &&
    launches security run package

/-- The run comes to the backup. -/
structure ReachesBackup : Prop where
  othersExited : run.othersExited = true
  packageVerified : run.packageVerified = true
  extracted : run.package = some package
  layout : verifyPackageLayout run.edition package = true

/-- If a step behind the backup fails, the files are back after the rollback. -/
def Undoable : Prop :=
  ∀ package, ReachesBackup run package → completes security run package disk = false →
    FileReturns run package disk run.edition.executable ∧ FileReturns run package disk .sciter ∧
      TsfReturns run package disk

/-- What an update leaves: after a rollback the old files, and after a success the new ones. -/
def LeavesOneVersion : Prop :=
  let result := runUpdateInstaller security run disk
  (∀ restoreBackup parkedTsf, result.1 = .rolledBack restoreBackup parkedTsf →
    (∀ name ∈ [run.edition.executable, .sciter, .tsf],
      result.2 (.installed name) = disk (.installed name)) ∧
    result.2 .pending = none ∧ result.2 .pendingMarker = none) ∧
  (result.1 = .succeeded → ∃ package, run.package = some package ∧
    (∀ name contents, (name, contents) ∈ package.entries → name ≠ .tsf →
      result.2 (.installed name) = some contents) ∧
    (result.2 (.installed .tsf) = some package.tsf ∨
      result.2 .pending = some package.tsf ∧
        result.2 .pendingMarker = some (security.sha256 package.tsf)))

end Undoable

/-! ## The exchange of the files -/

section Exchange

variable {security : Security} {run : UpdateRun} {package : Package} {disk : Disk}
  {parkedTsf : Option String}

/-- The launch writes the receipts only. -/
theorem calls_launchInstalled (executable : Name) {file : File}
    (hsucceeded : file ≠ .updateSucceeded) (hfailed : file ≠ .updateFailed) :
    (launchInstalled executable parkedTsf).Calls fun c => file ∉ c.touched := by
  refine calls_bind ⟨by simp [Call.touched], fun _ => trivial⟩ fun present => ?_
  split_ifs
  · exact trivial
  · refine calls_bind ⟨by simp [Call.touched], fun _ => trivial⟩ fun installedHash => ?_
    split_ifs
    · exact trivial
    · refine calls_bind ⟨by simpa [Call.touched] using hsucceeded, fun _ => trivial⟩
        fun written => ?_
      split_ifs
      · exact trivial
      · refine calls_bind ⟨by simpa [Call.touched] using hfailed, fun _ => trivial⟩ fun _ => ?_
        refine calls_bind ⟨by simp [Call.touched], fun _ => trivial⟩ fun launched => ?_
        split_ifs
        · exact trivial
        · exact trivial

theorem run_launchInstalled (package : Package)
    (hexecutable : disk (.installed run.edition.executable) =
      some (newExecutable run package)) :
    ((launchInstalled run.edition.executable parkedTsf).run (perform security run.faults) disk).1 =
      if launches security run package then .succeeded else .rolledBack true parkedTsf := by
  have hinstalled : ∀ receipt, Function.update (Function.update disk .updateSucceeded receipt)
      .updateFailed none (.installed run.edition.executable) =
        some (newExecutable run package) := by
    intro receipt
    simpa using hexecutable
  simp only [launchInstalled, run_bind, run_fileExists, hexecutable,
    Option.isSome_some, Bool.not_true,
    Bool.false_eq_true, if_false, run_computeFileSha256, Option.map_some,
      Option.getD_some, launches]
  by_cases hhash : run.faults.fails (.computeFileSha256 (.installed run.edition.executable)) = true
  · simp [hhash]
  · by_cases hempty : (security.sha256 (newExecutable run package)).isEmpty = true
    · simp [hhash, hempty]
    · by_cases hwritten : run.faults.fails
          (.write (security.sha256 (newExecutable run package)) .updateSucceeded) = true
      · simp [hhash, hempty, hwritten, run_bind]
      · simp only [hhash, hempty, hwritten, Bool.false_eq_true, if_false,
          Bool.not_false, Bool.not_true, run_bind, run_write, run_remove, run_launch, hinstalled,
            Option.isSome_some, Bool.true_and]
        by_cases hlaunched : run.faults.fails (.launch (.installed run.edition.executable)) = true
        · simp [hlaunched]
        · simp [hlaunched]

/-- The disk when the package has been copied. -/
def afterCopy (security : Security) (run : UpdateRun) (package : Package) (disk : Disk) : Disk :=
  ((copyDirectoryContents package.entries).run (perform security run.faults)
    (backUp.run (perform security run.faults) disk).2).2

/-- The exchange of the TSF library behind it. -/
def replaceTsf (security : Security) (run : UpdateRun) (package : Package) (disk : Disk) :
    (Bool × Option String) × Disk :=
  (handleTsfDllReplace package.tsf run.stamp).run (perform security run.faults)
    (afterCopy security run package disk)

theorem run_exchangeFiles (hconfig : Name.config ∉ package.entries.map Prod.fst) :
    (exchangeFiles run package).run (perform security run.faults) disk =
      if copiesAll run.faults package.entries then
        if (replaceTsf security run package disk).1.1 then
          (launchInstalled run.edition.executable (replaceTsf security run package disk).1.2).run
            (perform security run.faults) (replaceTsf security run package disk).2
        else
          (.rolledBack true (replaceTsf security run package disk).1.2,
            (replaceTsf security run package disk).2)
      else (.rolledBack true none, afterCopy security run package disk) := by
  simp only [exchangeFiles, run_bind, run_createOldVersionDir,
    (run_copyDirectoryContents hconfig .vkey _).1, replaceTsf, afterCopy]
  cases copiesAll run.faults package.entries with
  | false => rfl
  | true =>
      simp only [Bool.not_true, Bool.false_eq_true, if_false, if_true, run_bind]
      split_ifs <;> simp_all

variable (security run disk) in
theorem afterCopy_file (hconfig : Name.config ∉ package.entries.map Prod.fst) {name : Name}
    (hname : name ∈ backedUpNames) :
    afterCopy security run package disk (.old name) = backedUp run.faults disk name ∧
      afterCopy security run package disk (.installed name) =
        copyLeaves run.faults package.entries name (leftBehind run.faults disk name) := by
  have hbackUp := run_backUp security run.faults disk hname
  refine ⟨?_, ?_⟩
  · rw [← hbackUp.1]
    exact run_of_not_touched (calls_copyDirectoryContents (fun _ _ => File.noConfusion) _)
  · rw [← hbackUp.2]
    exact (run_copyDirectoryContents hconfig name _).2

theorem afterCopy_of_not_copied {file : File}
    (hinstalled : ∀ name, name ≠ .tsf → file ≠ .installed name)
    (hold : ∀ name ∈ backedUpNames, file ≠ .old name) :
    afterCopy security run package disk file = disk file := by
  rw [afterCopy, run_of_not_touched (calls_copyDirectoryContents hinstalled _)]
  refine run_backUp_of_not_mem (fun name hname => hinstalled name ?_) hold
  rintro rfl
  simp [backedUpNames] at hname

/-- The exchange of the TSF library and the launch leave the application files alone. -/
theorem exchangeFiles_of_not_touched (hconfig : Name.config ∉ package.entries.map Prod.fst)
    {file : File}
    (htsf : file ∉ [.installed .tsf, .parked run.stamp .plain, .pending, .pendingMarker])
    (hreceipt : file ∉ [.updateSucceeded, .updateFailed]) :
    ((exchangeFiles run package).run (perform security run.faults) disk).2 file =
      afterCopy security run package disk file := by
  have hreplaced : (replaceTsf security run package disk).2 file =
      afterCopy security run package disk file :=
    run_of_not_touched (calls_handleTsfDllReplace package.tsf run.stamp htsf)
  simp only [List.mem_cons, List.not_mem_nil, or_false, not_or] at hreceipt
  rw [run_exchangeFiles hconfig]
  split_ifs
  · rw [run_of_not_touched (calls_launchInstalled _ hreceipt.1 hreceipt.2)]
    exact hreplaced
  · exact hreplaced
  · rfl

variable (security run package disk) in
theorem afterCopy_tsf :
    afterCopy security run package disk (.installed .tsf) = disk (.installed .tsf) ∧
      afterCopy security run package disk (.parked run.stamp .plain) =
        disk (.parked run.stamp .plain) ∧
      afterCopy security run package disk (.old .tsf) = disk (.old .tsf) := by
  refine ⟨afterCopy_of_not_copied ?_ ?_, afterCopy_of_not_copied ?_ ?_,
    afterCopy_of_not_copied ?_ ?_⟩
  · intro name hname
    simpa using hname.symm
  all_goals simp [backedUpNames]

variable (security run package disk) in
/-- How the TSF library has been exchanged. -/
theorem replaceTsf_cases :
    let result := replaceTsf security run package disk
    match disk (.installed .tsf) with
    | none =>
        result.1 = (copiesTsf run.faults package.tsf, none) ∧
          result.2 (.installed .tsf) =
            run.faults.stored (.copy package.tsf (.installed .tsf)) package.tsf none
    | some old =>
        if parksTsf run.faults run.stamp disk && copiesTsf run.faults package.tsf then
          result.1 = (true, some run.stamp) ∧ result.2 (.installed .tsf) = some package.tsf ∧
            result.2 (.parked run.stamp .plain) = some old
        else
          result.1 = (defersTsf security run.faults package.tsf, none) ∧
            result.2 (.installed .tsf) =
              (if parksTsf run.faults run.stamp disk then
                unparked run.faults run.stamp package.tsf old else some old) ∧
            (result.1.1 = true → result.2 .pending = some package.tsf ∧
              result.2 .pendingMarker = some (security.sha256 package.tsf)) := by
  have htsf := afterCopy_tsf security run package disk
  have hparks : parksTsf run.faults run.stamp (afterCopy security run package disk) =
      parksTsf run.faults run.stamp disk := by
    rw [parksTsf, parksTsf, htsf.2.1]
  cases hlive : disk (.installed .tsf) with
  | none => exact run_handleTsfDllReplace_none _ _ (htsf.1.trans hlive)
  | some old =>
      have hresult := run_handleTsfDllReplace_some security run.faults package.tsf run.stamp
        (htsf.1.trans hlive)
      rw [hparks] at hresult
      exact hresult

theorem replaceTsf_fst :
    (replaceTsf security run package disk).1.1 = tsfReplaced security run package disk := by
  have h := replaceTsf_cases security run package disk
  rw [tsfReplaced]
  cases hlive : disk (.installed .tsf) with
  | none =>
      rw [hlive] at h
      rw [h.1]
  | some old =>
      rw [hlive] at h
      by_cases hexchanges :
        (parksTsf run.faults run.stamp disk && copiesTsf run.faults package.tsf) = true
      · have h' := (if_pos hexchanges).mp h
        rw [h'.1, hexchanges, Bool.true_or]
      · have h' := (if_neg hexchanges).mp h
        rw [h'.1, Bool.eq_false_of_not_eq_true hexchanges, Bool.false_or]

variable (security disk) in
theorem afterCopy_of_mem (hconfig : Name.config ∉ package.entries.map Prod.fst)
    (hall : copiesAll run.faults package.entries = true) {name : Name} {contents : Bytes}
    (hmem : (name, contents) ∈ package.entries) (hname : name ≠ .tsf) :
    afterCopy security run package disk (.installed name) = some contents := by
  rw [afterCopy, (run_copyDirectoryContents hconfig name _).2]
  exact copyLeaves_of_mem package.nodup hall hmem hname _

theorem replaceTsf_of_mem (hconfig : Name.config ∉ package.entries.map Prod.fst)
    (hall : copiesAll run.faults package.entries = true) {name : Name} {contents : Bytes}
    (hmem : (name, contents) ∈ package.entries) (hname : name ≠ .tsf) :
    (replaceTsf security run package disk).2 (.installed name) = some contents := by
  rw [← afterCopy_of_mem security disk hconfig hall hmem hname]
  exact run_of_not_touched (calls_handleTsfDllReplace package.tsf run.stamp (by simpa using hname))

variable (security disk) in
/-- How the exchange of the files ends. -/
theorem exchangeFiles_fst (hconfig : Name.config ∉ package.entries.map Prod.fst)
    (hexecutable : (run.edition.executable, newExecutable run package) ∈ package.entries) :
    ((exchangeFiles run package).run (perform security run.faults) disk).1 =
      if completes security run package disk then .succeeded
      else .rolledBack true (if copiesAll run.faults package.entries then
        (replaceTsf security run package disk).1.2 else none) := by
  rw [run_exchangeFiles hconfig, completes, replaceTsf_fst]
  cases hall : copiesAll run.faults package.entries with
  | false => rfl
  | true =>
      have hname : run.edition.executable ≠ .tsf := by cases run.edition <;> decide
      cases tsfReplaced security run package disk with
      | false => rfl
      | true =>
          rw [if_pos rfl, if_pos rfl, run_launchInstalled package
            (replaceTsf_of_mem hconfig hall hexecutable hname)]
          rfl

theorem exchangeFiles_old (hconfig : Name.config ∉ package.entries.map Prod.fst) (name : Name) :
    ((exchangeFiles run package).run (perform security run.faults) disk).2 (.old name) =
      afterCopy security run package disk (.old name) :=
  exchangeFiles_of_not_touched hconfig (by simp) (by simp)

variable (security run disk parkedTsf) in
theorem rollback_exchangeFiles (hconfig : Name.config ∉ package.entries.map Prod.fst) {name : Name}
    (hname : name ∈ backedUpNames) (failedStamp : String) :
    rollbackRestoreAndExit true parkedTsf failedStamp
        ((exchangeFiles run package).run (perform security run.faults) disk).2 (.installed name) =
      (backedUp run.faults disk name).or
        (copyLeaves run.faults package.entries name (leftBehind run.faults disk name)) := by
  have htsf : name ≠ .tsf := by
    rintro rfl
    simp [backedUpNames] at hname
  have hfile := afterCopy_file security run disk hconfig hname
  rw [rollback_restores (Or.inl htsf), exchangeFiles_old hconfig,
    exchangeFiles_of_not_touched hconfig (by simpa using htsf) (by simp), hfile.1, hfile.2]

theorem fileReturns_iff (name : Name) :
    (backedUp run.faults disk name).or
        (copyLeaves run.faults package.entries name (leftBehind run.faults disk name)) =
      disk (.installed name) ↔ FileReturns run package disk name := by
  rw [FileReturns, backedUp, leftBehind]
  cases disk (.installed name) with
  | none => simp only [ite_self, Option.or_eq_none_iff]
  | some contents =>
      cases movesAway run.faults name with
      | true => simp only [if_true, Option.some_or, true_or]
      | false => simp only [Bool.false_eq_true, if_false, Option.none_or, false_or]

/-- What a rollback finds in the place of the TSF library, unless it has been exchanged. -/
def tsfLeft (run : UpdateRun) (package : Package) (disk : Disk) : Option Bytes :=
  if copiesAll run.faults package.entries then
    match disk (.installed .tsf) with
    | none => run.faults.stored (.copy package.tsf (.installed .tsf)) package.tsf none
    | some contents =>
        if parksTsf run.faults run.stamp disk then
          unparked run.faults run.stamp package.tsf contents
        else some contents
  else disk (.installed .tsf)

theorem exchangeFiles_tsf (hconfig : Name.config ∉ package.entries.map Prod.fst)
    (hall : copiesAll run.faults package.entries = true) {file : File}
    (hsucceeded : file ≠ .updateSucceeded) (hfailed : file ≠ .updateFailed) :
    ((exchangeFiles run package).run (perform security run.faults) disk).2 file =
      (replaceTsf security run package disk).2 file := by
  rw [run_exchangeFiles hconfig, if_pos hall]
  split_ifs
  · exact run_of_not_touched (calls_launchInstalled _ hsucceeded hfailed)
  · rfl

variable (security) in
/-- How the TSF library stands where it has not been exchanged. -/
theorem replaceTsf_not_exchanged
    (h : ∀ contents, disk (.installed .tsf) = some contents →
      (parksTsf run.faults run.stamp disk && copiesTsf run.faults package.tsf) = false)
    (hall : copiesAll run.faults package.entries = true) :
    (replaceTsf security run package disk).1.2 = none ∧
      (replaceTsf security run package disk).2 (.installed .tsf) = tsfLeft run package disk := by
  have hcases := replaceTsf_cases security run package disk
  rw [tsfLeft, if_pos hall]
  cases hlive : disk (.installed .tsf) with
  | none =>
      rw [hlive] at hcases
      exact ⟨congrArg Prod.snd hcases.1, hcases.2⟩
  | some contents =>
      rw [hlive] at hcases
      have hcases' := (if_neg (by simp [h contents hlive])).mp hcases
      exact ⟨congrArg Prod.snd hcases'.1, hcases'.2.1⟩

variable (security) in
/-- What a rollback behind the backup makes of the TSF library. -/
theorem rollback_exchangeFiles_tsf (hconfig : Name.config ∉ package.entries.map Prod.fst)
    (failedStamp : String) :
    let result := (exchangeFiles run package).run (perform security run.faults) disk
    rollbackRestoreAndExit true (if copiesAll run.faults package.entries then
          (replaceTsf security run package disk).1.2 else
            none) failedStamp result.2 (.installed .tsf) =
      if (disk (.installed .tsf)).isSome && exchangesTsf run package
        disk then disk (.installed .tsf)
      else (disk (.old .tsf)).or (tsfLeft run package disk) := by
  intro result
  have hold : result.2 (.old .tsf) = disk (.old .tsf) :=
    (exchangeFiles_old hconfig .tsf).trans (afterCopy_tsf security run package disk).2.2
  by_cases hall : copiesAll run.faults package.entries = true
  · have hlater : ∀ file : File, file ≠ .updateSucceeded → file ≠ .updateFailed →
        result.2 file = (replaceTsf security run package disk).2 file :=
      fun _ => exchangeFiles_tsf hconfig hall
    rw [if_pos hall]
    by_cases hexchanged : ((disk (.installed .tsf)).isSome && exchangesTsf run package disk) = true
    · rw [if_pos hexchanged]
      simp only [exchangesTsf, hall, Bool.true_and, Bool.and_eq_true,
        Option.isSome_iff_exists] at hexchanged
      obtain ⟨⟨old, hlive⟩, hparks, hcopies⟩ := hexchanged
      have hcases := replaceTsf_cases security run package disk
      rw [hlive] at hcases
      have hcases' := (if_pos (by simp [hparks, hcopies])).mp hcases
      rw [hcases'.1, hlive]
      exact rollback_restoresTsf ((hlater _ (by simp) (by simp)).trans hcases'.2.2)
    · rw [if_neg hexchanged]
      have hexchange : ∀ contents, disk (.installed .tsf) = some contents →
          (parksTsf run.faults run.stamp disk && copiesTsf run.faults package.tsf) = false := by
        intro contents hlive
        simpa [hlive, exchangesTsf, hall] using hexchanged
      have hleft := replaceTsf_not_exchanged security hexchange hall
      rw [hleft.1, rollback_restores (Or.inr rfl), hold, hlater _ (by simp) (by simp), hleft.2]
  · have hcopied : result.2 = afterCopy security run package disk := by
      rw [show result = _ from run_exchangeFiles hconfig, if_neg hall]
    rw [if_neg hall, rollback_restores (Or.inr rfl), hold, hcopied,
      (afterCopy_tsf security run package disk).1, tsfLeft, if_neg hall]
    simp [exchangesTsf, hall]

/-- The TSF library that a rollback leaves is the old one exactly if it returns. -/
theorem tsfReturns_iff :
    (if (disk (.installed .tsf)).isSome && exchangesTsf run package disk then disk (.installed .tsf)
      else (disk (.old .tsf)).or (tsfLeft run package disk)) = disk (.installed .tsf) ↔
      TsfReturns run package disk := by
  rw [TsfReturns, tsfLeft]
  cases disk (.installed .tsf) with
  | none =>
      simp only [Option.isSome_none, Bool.false_and, Bool.false_eq_true,
        if_false, Option.or_eq_none_iff]
      cases copiesAll run.faults package.entries <;> simp
  | some contents =>
      cases exchangesTsf run package disk with
      | true => simp
      | false =>
          cases disk (.old .tsf) with
          | some leftover => simp
          | none =>
              cases copiesAll run.faults package.entries <;>
                cases parksTsf run.faults run.stamp disk <;> simp

/-- A rollback behind the backup puts the files back exactly if they return. -/
theorem exchangeFiles_undone_iff (hconfig : Name.config ∉ package.entries.map Prod.fst)
    (hexecutable : (run.edition.executable, newExecutable run package) ∈ package.entries)
    (hfails : completes security run package disk = false) (failedStamp : String) :
    let result := (exchangeFiles run package).run (perform security run.faults) disk
    (∀ restoreBackup parkedTsf, result.1 = .rolledBack restoreBackup parkedTsf →
      ∀ name ∈ [run.edition.executable, .sciter, .tsf],
        rollbackRestoreAndExit restoreBackup parkedTsf failedStamp result.2 (.installed name) =
          disk (.installed name)) ↔
      FileReturns run package disk run.edition.executable ∧ FileReturns run package disk .sciter ∧
        TsfReturns run package disk := by
  have hbackedUp : run.edition.executable ∈ backedUpNames := by
    cases run.edition <;> simp [Edition.executable, backedUpNames]
  have hsciterMem : Name.sciter ∈ backedUpNames := by simp [backedUpNames]
  intro result
  have hexit : result.1 = .rolledBack true (if copiesAll run.faults package.entries then
      (replaceTsf security run package disk).1.2 else none) := by
    rw [show result.1 = _ from exchangeFiles_fst security _ hconfig hexecutable, hfails]
    rfl
  have hexe :=
    rollback_exchangeFiles security run disk (if copiesAll run.faults package.entries then
      (replaceTsf security run package disk).1.2 else none) hconfig hbackedUp failedStamp
  have hsciter :=
    rollback_exchangeFiles security run disk (if copiesAll run.faults package.entries then
      (replaceTsf security run package disk).1.2 else none) hconfig hsciterMem failedStamp
  rw [← fileReturns_iff, ← fileReturns_iff, ← tsfReturns_iff,
    ← rollback_exchangeFiles_tsf security hconfig failedStamp, ← hexe, ← hsciter, hexit]
  constructor
  · intro h
    exact ⟨h _ _ rfl _ (by simp), h _ _ rfl _ (by simp), h _ _ rfl _ (by simp)⟩
  · rintro ⟨hexe, hsciter, htsf⟩ restoreBackup parkedTsf hrolled name hname
    obtain ⟨rfl, rfl⟩ := Exit.rolledBack.inj hrolled
    simp only [List.mem_cons, List.not_mem_nil, or_false] at hname
    rcases hname with rfl | rfl | rfl
    · exact hexe
    · exact hsciter
    · exact htsf

/-- A run that succeeds leaves the files of the package, and the new TSF library in its place or
waiting. -/
theorem exchangeFiles_succeeded (hconfig : Name.config ∉ package.entries.map Prod.fst)
    (hcompletes : completes security run package disk = true) :
    let result := (exchangeFiles run package).run (perform security run.faults) disk
    (∀ name contents, (name, contents) ∈ package.entries → name ≠ .tsf →
      result.2 (.installed name) = some contents) ∧
    (result.2 (.installed .tsf) = some package.tsf ∨
      result.2 .pending = some package.tsf ∧
        result.2 .pendingMarker = some (security.sha256 package.tsf)) := by
  intro result
  simp only [completes, Bool.and_eq_true] at hcompletes
  obtain ⟨⟨hall, hreplaced⟩, -⟩ := hcompletes
  have hlater : ∀ file : File, file ≠ .updateSucceeded → file ≠ .updateFailed →
      result.2 file = (replaceTsf security run package disk).2 file :=
    fun _ => exchangeFiles_tsf hconfig hall
  refine ⟨fun name contents hmem hname => ?_, ?_⟩
  · rw [hlater _ (by simp) (by simp)]
    exact replaceTsf_of_mem hconfig hall hmem hname
  · rw [hlater _ (by simp) (by simp), hlater _ (by simp) (by simp), hlater _ (by simp) (by simp)]
    rw [← replaceTsf_fst] at hreplaced
    have hcases := replaceTsf_cases security run package disk
    cases hlive : disk (.installed .tsf) with
    | none =>
        rw [hlive] at hcases
        have hcopied : copiesTsf run.faults package.tsf = true := by
          rw [hcases.1] at hreplaced
          exact hreplaced
        rw [copiesTsf, Bool.not_eq_true'] at hcopied
        rw [hcases.2, Faults.stored, hcopied]
        exact Or.inl rfl
    | some old =>
        rw [hlive] at hcases
        by_cases hexchanges :
            (parksTsf run.faults run.stamp disk && copiesTsf run.faults package.tsf) = true
        · exact Or.inl ((if_pos hexchanges).mp hcases).2.1
        · exact Or.inr (((if_neg hexchanges).mp hcases).2.2 hreplaced)

end Exchange

/-! ## The run -/

section Run

variable {security : Security} {run : UpdateRun} {package : Package} {disk : Disk}

theorem verifyPackageLayout_iff {edition : Edition}
    (h : verifyPackageLayout edition package = true) :
    Name.config ∉ package.entries.map Prod.fst ∧
      edition.executable ∈ package.entries.map Prod.fst := by
  simp only [verifyPackageLayout, Bool.and_eq_true, List.all_eq_true, List.contains_iff_mem] at h
  obtain ⟨⟨-, hall⟩, honly⟩ := h
  refine ⟨fun hconfig => ?_, hall _ ?_⟩
  · have hexpected := honly _ hconfig
    cases edition <;> simp [Edition.expected] at hexpected
  · cases edition <;> simp [Edition.expected, Edition.executable]

theorem mem_newExecutable (h : verifyPackageLayout run.edition package = true) :
    (run.edition.executable, newExecutable run package) ∈ package.entries := by
  obtain ⟨⟨name, contents⟩, hmem, hname⟩ := List.mem_map.mp (verifyPackageLayout_iff h).2
  have hlookup : package.entries.lookup run.edition.executable = some contents := by
    rw [← hname]
    exact (lookup_eq_some_iff_mem package.nodup).mpr hmem
  rw [newExecutable, hlookup, ← hname]
  exact hmem

/-- The disk when the files are exchanged: the receipt and a library that waited are gone. -/
def started (disk : Disk) : Disk :=
  Function.update (Function.update (Function.update disk .updateSucceeded none) .pending none)
    .pendingMarker none

theorem run_installUpdate_of_reaches (h : ReachesBackup run package) :
    (installUpdate run).run (perform security run.faults) disk =
      (exchangeFiles run package).run (perform security run.faults) (started disk) := by
  simp only [installUpdate, run_bind, run_remove, h.othersExited, h.packageVerified,
    h.extracted, h.layout, Bool.not_true, Bool.false_eq_true, if_false, started]

variable (security disk) in
/-- A run that does not come to the backup is abandoned or rolls nothing back. -/
theorem run_installUpdate_of_not_reaches (h : ∀ package, ¬ ReachesBackup run package) :
    let result := (installUpdate run).run (perform security run.faults) disk
    (result.1 = .abandoned ∨ result.1 = .rolledBack false none) ∧
      ∀ name, result.2 (.installed name) = disk (.installed name) := by
  simp only [installUpdate, run_bind, run_remove]
  by_cases hexited : run.othersExited = true
  · by_cases hverified : run.packageVerified = true
    · simp only [hexited, hverified, Bool.not_true, Bool.false_eq_true,
        if_false, run_bind, run_remove]
      cases hpackage : run.package with
      | none => exact ⟨Or.inr rfl, fun _ => rfl⟩
      | some package =>
          have hlayout : verifyPackageLayout run.edition package = false := by
            by_contra hlayout
            exact h package ⟨hexited, hverified, hpackage, Bool.eq_true_of_not_eq_false hlayout⟩
          simp only [hlayout, Bool.not_false, if_true]
          exact ⟨Or.inr rfl, fun _ => rfl⟩
    · simp only [hexited, hverified, Bool.not_true, Bool.not_false,
        Bool.false_eq_true, if_false, if_true]
      exact ⟨Or.inr rfl, fun _ => rfl⟩
  · simp only [hexited, Bool.not_false, if_true, run_bind, run_write]
    exact ⟨Or.inl rfl, fun _ => rfl⟩

theorem runUpdateInstaller_fst :
    (runUpdateInstaller security run disk).1 =
      ((installUpdate run).run (perform security run.faults) disk).1 := by
  rw [runUpdateInstaller]
  split
  · rfl
  · rfl

theorem runUpdateInstaller_rolledBack {restoreBackup : Bool} {parkedTsf : Option String}
    (h : ((installUpdate run).run (perform security run.faults) disk).1 =
      .rolledBack restoreBackup parkedTsf) :
    (runUpdateInstaller security run disk).2 =
      rollbackRestoreAndExit restoreBackup parkedTsf run.failedStamp
        ((installUpdate run).run (perform security run.faults) disk).2 := by
  rw [runUpdateInstaller]
  rw [h]

theorem runUpdateInstaller_succeeded
    (h : ((installUpdate run).run (perform security run.faults) disk).1 = .succeeded) :
    (runUpdateInstaller security run disk).2 =
      ((installUpdate run).run (perform security run.faults) disk).2 := by
  rw [runUpdateInstaller]
  rw [h]

/-- A run that does not come to the backup leaves everything in its place. -/
theorem leavesOneVersion_of_not_reaches (h : ∀ package, ¬ ReachesBackup run package) :
    LeavesOneVersion security run disk := by
  have hstays := run_installUpdate_of_not_reaches security disk h
  constructor
  · intro restoreBackup parkedTsf hrolled
    rw [runUpdateInstaller_fst] at hrolled
    have hexit : Exit.rolledBack restoreBackup parkedTsf = .rolledBack false none := by
      rcases hstays.1 with habandoned | hrolled'
      · rw [habandoned] at hrolled
        cases hrolled
      · exact hrolled.symm.trans hrolled'
    obtain ⟨rfl, rfl⟩ := Exit.rolledBack.inj hexit
    rw [runUpdateInstaller_rolledBack hrolled]
    exact ⟨fun name _ => (rollback_keeps name).trans (hstays.2 name), rollback_pending _⟩
  · intro hsucceeded
    rw [runUpdateInstaller_fst] at hsucceeded
    rcases hstays.1 with habandoned | hrolled
    · rw [habandoned] at hsucceeded
      cases hsucceeded
    · rw [hrolled] at hsucceeded
      cases hsucceeded

theorem leavesOneVersion_of_completes (h : ReachesBackup run package)
    (hcompletes : completes security run package disk = true) :
    LeavesOneVersion security run disk := by
  have hconfig := (verifyPackageLayout_iff h.layout).1
  have hexecutable := mem_newExecutable h.layout
  have hcompletes' : completes security run package (started disk) = true := hcompletes
  have hexit : ((installUpdate run).run (perform security run.faults) disk).1 = .succeeded := by
    rw [run_installUpdate_of_reaches h, exchangeFiles_fst security _ hconfig hexecutable,
      if_pos hcompletes']
  constructor
  · intro restoreBackup parkedTsf hrolled
    rw [runUpdateInstaller_fst, hexit] at hrolled
    cases hrolled
  · intro _
    rw [runUpdateInstaller_succeeded hexit, run_installUpdate_of_reaches h]
    exact ⟨package, h.extracted, exchangeFiles_succeeded hconfig hcompletes'⟩

/-- A run that fails behind the backup leaves the old version exactly if the files return. -/
theorem leavesOneVersion_of_fails (h : ReachesBackup run package)
    (hfails : completes security run package disk = false) :
    LeavesOneVersion security run disk ↔
      FileReturns run package disk run.edition.executable ∧ FileReturns run package disk .sciter ∧
        TsfReturns run package disk := by
  have hconfig := (verifyPackageLayout_iff h.layout).1
  have hexecutable := mem_newExecutable h.layout
  have hfails' : completes security run package (started disk) = false := hfails
  have hundone := exchangeFiles_undone_iff hconfig hexecutable hfails' run.failedStamp
  have hexit := exchangeFiles_fst security (started disk) hconfig hexecutable
  rw [hfails', if_neg Bool.false_ne_true] at hexit
  rw [← run_installUpdate_of_reaches h] at hexit hundone
  refine Iff.trans ?_ hundone
  constructor
  · intro hleaves restoreBackup parkedTsf hrolled name hname
    rw [← runUpdateInstaller_rolledBack hrolled]
    exact (hleaves.1 restoreBackup parkedTsf (runUpdateInstaller_fst.trans hrolled)).1 name hname
  · intro hfiles
    constructor
    · intro restoreBackup parkedTsf hrolled
      rw [runUpdateInstaller_fst] at hrolled
      rw [runUpdateInstaller_rolledBack hrolled]
      exact ⟨hfiles restoreBackup parkedTsf hrolled, rollback_pending _⟩
    · intro hsucceeded
      rw [runUpdateInstaller_fst, hexit] at hsucceeded
      cases hsucceeded

end Run

/-- An update leaves one version of the program, whatever fails and whatever earlier runs have left,
exactly if the files return wherever a step behind the backup fails. -/
theorem leavesOneVersion_iff (security : Security) (run : UpdateRun) (disk : Disk) :
    LeavesOneVersion security run disk ↔ Undoable security run disk := by
  by_cases hreaches : ∃ package, ReachesBackup run package
  · obtain ⟨package, hreaches⟩ := hreaches
    have hundoable : Undoable security run disk ↔ (completes security run package disk = false →
        FileReturns run package disk run.edition.executable ∧ FileReturns run package disk .sciter ∧
          TsfReturns run package disk) := by
      refine ⟨fun h => h package hreaches, fun h other hother => ?_⟩
      obtain rfl : package = other :=
        Option.some.inj (hreaches.extracted.symm.trans hother.extracted)
      exact h
    rw [hundoable]
    cases hcompletes : completes security run package disk with
    | true => exact iff_of_true (leavesOneVersion_of_completes hreaches hcompletes) nofun
    | false => exact (leavesOneVersion_of_fails hreaches hcompletes).trans (imp_iff_right rfl).symm
  · have hreaches' := not_exists.mp hreaches
    exact iff_of_true (leavesOneVersion_of_not_reaches hreaches')
      fun package hpackage => absurd hpackage (hreaches' package)

/-! ## A file that cannot be moved -/

/-- The package of the new version. -/
def newPackage : Package where
  entries := [(.notices, [10]), (.vkey, [11]), (.tsf, [12]), (.sciter, [13])]
  onlyRegularFiles := true
  nodup := by decide

/-- The files of the old version. -/
def oldVersion : Disk
  | .installed .vkey => some [1]
  | .installed .tsf => some [2]
  | .installed .sciter => some [3]
  | _ => none

/-- The old `sciter.dll` cannot be moved, and the new program does not start. -/
def lockedRun : UpdateRun where
  edition := .full
  stamp := "_1"
  failedStamp := "_2"
  othersExited := true
  packageVerified := true
  package := some newPackage
  faults := {
    fails := fun
      | .move (.installed .sciter) _ => true
      | .launch _ => true
      | _ => false }

/-- The rollback leaves the new `sciter.dll` beside the old executable. -/
theorem not_leavesOneVersion :
    (runUpdateInstaller { sha256 := id, isExtensionTrusted := fun _ => true }
      lockedRun oldVersion).2
        (.installed .sciter) = some [13] ∧
      ¬ LeavesOneVersion { sha256 := id, isExtensionTrusted := fun _ => true }
        lockedRun oldVersion := by
  have hsciter : (runUpdateInstaller { sha256 := id, isExtensionTrusted := fun _ => true } lockedRun
      oldVersion).2 (.installed .sciter) = some [13] := by decide
  refine ⟨hsciter, fun h => ?_⟩
  have hold := (h.1 true (some "_1") (by decide)).1 .sciter (by decide)
  rw [hsciter] at hold
  cases hold

end Update

end VKey
