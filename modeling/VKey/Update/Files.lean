import Mathlib.Logic.Function.Basic
import VKey.Lexicon.Journal
import VKey.Support.Program

/-!
# The files of an update

The updater moves the program to a directory of its own and copies the new files in its place.  The
TSF library is loaded by other programs: the old one is parked under a name with a time stamp, and a
new one that cannot be put in its place yet waits under a name of its own, with a marker that holds
its hash.
-/

namespace VKey

namespace Update

/-! ## The files -/

/-- The names of files. -/
inductive Name where
  /-- `VKey.exe`. -/
  | vkey
  /-- `VKeyClassic.exe`. -/
  | vkeyClassic
  /-- `sciter.dll`. -/
  | sciter
  /-- `VKeyTSF.dll`. -/
  | tsf
  /-- `THIRD_PARTY_NOTICES.txt`. -/
  | notices
  /-- `config.toml`. -/
  | config
  | other (name : String)
  deriving DecidableEq, Repr

/-- What stands behind the time stamp of a parked TSF library. -/
inductive ParkedSuffix where
  | plain
  /-- `_pending`. -/
  | pending
  /-- `_failed`. -/
  | failed
  deriving DecidableEq, Repr

/-- The files of the directory that the program is installed in. -/
inductive File where
  | installed (name : Name)
  /-- A file in `_old_version`. -/
  | old (name : Name)
  /-- A TSF library in `_old_version`: `VKeyTSF.dll` with a time stamp and a suffix. -/
  | parked (stamp : String) (suffix : ParkedSuffix)
  /-- `VKeyTSF.dll.pending`. -/
  | pending
  /-- `_pending_dll_update`. -/
  | pendingMarker
  /-- `_update_succeeded`. -/
  | updateSucceeded
  /-- `_update_failed`. -/
  | updateFailed
  deriving DecidableEq, Repr

/-- The contents of the files that exist. -/
abbrev Disk := File → Option Bytes

/-- What the operating system knows about the contents of a file. -/
structure Security where
  /-- The hash in hexadecimal digits. -/
  sha256 : Bytes → Bytes
  /-- The file is signed by the publisher of the TSF library. -/
  isExtensionTrusted : Bytes → Bool

/-! ## Operations -/

/-- An operation on the files. -/
inductive Call where
  | fileExists (file : File)
  | read (file : File)
  | computeFileSha256 (file : File)
  | isExtensionTrusted (file : File)
  | createOldVersionDir
  | remove (file : File)
  /-- Rename a file; a file of the new name is replaced. -/
  | rename (src dst : File)
  /-- Rename a file to a name that is free. -/
  | move (src dst : File)
  /-- Copy a file of the new version; a file of the name is replaced. -/
  | copy (contents : Bytes) (dst : File)
  | write (contents : Bytes) (dst : File)
  /-- Start the installed program. -/
  | launch (file : File)

/-- The answer to a call. -/
def Call.Answer : Call → Type
  | .fileExists _ => Bool
  | .read _ => Option Bytes
  | .computeFileSha256 _ => Bytes
  | .isExtensionTrusted _ => Bool
  | .createOldVersionDir => Unit
  | .remove _ => Unit
  | .rename _ _ => Bool
  | .move _ _ => Bool
  | .copy _ _ => Bool
  | .write _ _ => Bool
  | .launch _ => Bool

/-- The disk behind a file that has got another name. -/
def Disk.renamed (disk : Disk) (src dst : File) (contents : Bytes) : Disk :=
  Function.update (Function.update disk src none) dst (some contents)

theorem Disk.renamed_of_ne {disk : Disk} {file src dst : File}
    (hsrc : file ≠ src) (hdst : file ≠ dst)
    (contents : Bytes) : disk.renamed src dst contents file = disk file := by
  rw [Disk.renamed, Function.update_of_ne hdst, Function.update_of_ne hsrc]

/-- What happens to the calls of a run: which one it is stopped before, which ones fail, and what a
copy or a write that fails leaves of its target. -/
structure Faults where
  stops : Call → Bool := fun _ => false
  fails : Call → Bool := fun _ => false
  left : Call → Option Bytes → Option Bytes := fun _ contents => contents

variable (security : Security) (faults : Faults)

/-- The answer to a call that the run is not stopped before, and the disk behind it. -/
def perform : (c : Call) → Disk → c.Answer × Disk
  | .fileExists file, disk => ((disk file).isSome, disk)
  | .read file, disk => (disk file, disk)
  | .computeFileSha256 file, disk =>
      (if faults.fails (.computeFileSha256 file) then [] else
        ((disk file).map security.sha256).getD [], disk)
  | .isExtensionTrusted file, disk => ((disk file).any security.isExtensionTrusted, disk)
  | .createOldVersionDir, disk => ((), disk)
  | .remove file, disk => ((), Function.update disk file none)
  | .rename src dst, disk =>
      match disk src with
      | some contents =>
          if faults.fails (.rename src dst) then (false, disk)
          else (true, disk.renamed src dst contents)
      | none => (false, disk)
  | .move src dst, disk =>
      match disk src with
      | some contents =>
          if faults.fails (.move src dst) || (disk dst).isSome then (false, disk)
          else (true, disk.renamed src dst contents)
      | none => (false, disk)
  | .copy contents dst, disk =>
      if faults.fails (.copy contents dst) then
        (false, Function.update disk dst (faults.left (.copy contents dst) (disk dst)))
      else (true, Function.update disk dst (some contents))
  | .write contents dst, disk =>
      if faults.fails (.write contents dst) then
        (false, Function.update disk dst (faults.left (.write contents dst) (disk dst)))
      else (true, Function.update disk dst (some contents))
  | .launch file, disk => ((disk file).isSome && !faults.fails (.launch file), disk)

/-- The answer to a call in a run. -/
def answer (c : Call) (disk : Disk) : Option (c.Answer × Disk) :=
  if faults.stops c then none else some (perform security faults c disk)

/-! ## Calls as programs -/

abbrev FileProgram := Program Call Call.Answer

def fileExists (file : File) : FileProgram Bool := .call (.fileExists file) .done

def read (file : File) : FileProgram (Option Bytes) := .call (.read file) .done

/-- The hash of a file; empty if it cannot be read. -/
def computeFileSha256 (file : File) : FileProgram Bytes := .call (.computeFileSha256 file) .done

def isExtensionTrusted (file : File) : FileProgram Bool := .call (.isExtensionTrusted file) .done

def createOldVersionDir : FileProgram Unit := .call .createOldVersionDir .done

def remove (file : File) : FileProgram Unit := .call (.remove file) .done

def rename (src dst : File) : FileProgram Bool := .call (.rename src dst) .done

def move (src dst : File) : FileProgram Bool := .call (.move src dst) .done

def copy (contents : Bytes) (dst : File) : FileProgram Bool := .call (.copy contents dst) .done

def write (contents : Bytes) (dst : File) : FileProgram Bool := .call (.write contents dst) .done

def launch (file : File) : FileProgram Bool := .call (.launch file) .done

/-! ## What a call does to the rest of a program -/

section Execution

variable {security faults} {α : Type} {disk : Disk}

theorem exec_call (c : Call) (next : c.Answer → FileProgram α) :
    (Program.call c Program.done >>= next).exec (answer security faults) disk =
      if faults.stops c then (none, disk)
      else (next (perform security faults c disk).1).exec (answer security faults)
        (perform security faults c disk).2 := by
  rw [Program.exec_bind, Program.exec, answer]
  split_ifs
  · rfl
  · rfl

@[simp] theorem exec_fileExists (file : File) (next : Bool → FileProgram α) :
    (fileExists file >>= next).exec (answer security faults) disk =
      if faults.stops (.fileExists file) then (none, disk)
      else (next (disk file).isSome).exec (answer security faults) disk :=
  exec_call (.fileExists file) next

@[simp] theorem exec_read (file : File) (next : Option Bytes → FileProgram α) :
    (read file >>= next).exec (answer security faults) disk =
      if faults.stops (.read file) then (none, disk)
      else (next (disk file)).exec (answer security faults) disk :=
  exec_call (.read file) next

@[simp] theorem exec_computeFileSha256 (file : File) (next : Bytes → FileProgram α) :
    (computeFileSha256 file >>= next).exec (answer security faults) disk =
      if faults.stops (.computeFileSha256 file) then (none, disk)
      else (next (if faults.fails (.computeFileSha256 file) then []
        else ((disk file).map security.sha256).getD [])).exec (answer security faults) disk :=
  exec_call (.computeFileSha256 file) next

@[simp] theorem exec_isExtensionTrusted (file : File) (next : Bool → FileProgram α) :
    (isExtensionTrusted file >>= next).exec (answer security faults) disk =
      if faults.stops (.isExtensionTrusted file) then (none, disk)
      else (next ((disk file).any security.isExtensionTrusted)).exec
      (answer security faults) disk :=
  exec_call (.isExtensionTrusted file) next

@[simp] theorem exec_createOldVersionDir (next : Unit → FileProgram α) :
    (createOldVersionDir >>= next).exec (answer security faults) disk =
      if faults.stops .createOldVersionDir then (none, disk)
      else (next ()).exec (answer security faults) disk :=
  exec_call .createOldVersionDir next

@[simp] theorem exec_remove (file : File) (next : Unit → FileProgram α) :
    (remove file >>= next).exec (answer security faults) disk =
      if faults.stops (.remove file) then (none, disk)
      else (next ()).exec (answer security faults) (Function.update disk file none) :=
  exec_call (.remove file) next

theorem exec_rename {src dst : File} {contents : Bytes} (h : disk src = some contents)
    (next : Bool → FileProgram α) :
    (rename src dst >>= next).exec (answer security faults) disk =
      if faults.stops (.rename src dst) then (none, disk)
      else if faults.fails (.rename src dst) then (next false).exec (answer security faults) disk
      else (next true).exec (answer security faults) (disk.renamed src dst contents) := by
  refine (exec_call (.rename src dst) next).trans ?_
  simp only [perform, h]
  split_ifs
  · rfl
  · rfl
  · rfl

theorem exec_rename_none {src dst : File} (h : disk src = none) (next : Bool → FileProgram α) :
    (rename src dst >>= next).exec (answer security faults) disk =
      if faults.stops (.rename src dst) then (none, disk)
      else (next false).exec (answer security faults) disk := by
  refine (exec_call (.rename src dst) next).trans ?_
  simp only [perform, h]

end Execution

/-! ## Runs without interruption -/

section Total

variable {security faults} {disk : Disk}

@[simp] theorem run_fileExists (file : File) :
    (fileExists file).run (perform security faults) disk = ((disk file).isSome, disk) := rfl

@[simp] theorem run_computeFileSha256 (file : File) :
    (computeFileSha256 file).run (perform security faults) disk =
      (if faults.fails (.computeFileSha256 file) then [] else
        ((disk file).map security.sha256).getD [], disk) := rfl

@[simp] theorem run_createOldVersionDir :
    createOldVersionDir.run (perform security faults) disk = ((), disk) := rfl

@[simp] theorem run_remove (file : File) :
    (remove file).run (perform security faults) disk = ((), Function.update disk file none) := rfl

theorem run_move {src dst : File} {contents : Bytes} (h : disk src = some contents) :
    (move src dst).run (perform security faults) disk =
      if faults.fails (.move src dst) || (disk dst).isSome then (false, disk)
      else (true, disk.renamed src dst contents) := by
  change perform security faults (.move src dst) disk = _
  simp only [perform, h]
  rfl

/-- What a copy or a write leaves under the name of its target. -/
def Faults.stored (faults : Faults) (c : Call) (contents : Bytes) (before : Option Bytes) :
    Option Bytes :=
  if faults.fails c then faults.left c before else some contents

@[simp] theorem run_copy (contents : Bytes) (dst : File) :
    (copy contents dst).run (perform security faults) disk =
      (!faults.fails (.copy contents dst),
        Function.update disk dst (faults.stored (.copy contents dst) contents (disk dst))) := by
  change perform security faults (.copy contents dst) disk = _
  rw [perform, Faults.stored]
  cases faults.fails (.copy contents dst) <;> rfl

@[simp] theorem run_write (contents : Bytes) (dst : File) :
    (write contents dst).run (perform security faults) disk =
      (!faults.fails (.write contents dst),
        Function.update disk dst (faults.stored (.write contents dst) contents (disk dst))) := by
  change perform security faults (.write contents dst) disk = _
  rw [perform, Faults.stored]
  cases faults.fails (.write contents dst) <;> rfl

@[simp] theorem run_launch (file : File) :
    (launch file).run (perform security faults) disk =
      ((disk file).isSome && !faults.fails (.launch file), disk) := rfl

/-- The files that a call may change. -/
def Call.touched : Call → List File
  | .remove file => [file]
  | .rename src dst => [src, dst]
  | .move src dst => [src, dst]
  | .copy _ dst => [dst]
  | .write _ dst => [dst]
  | _ => []

theorem perform_of_not_touched {file : File} {c : Call} (h : file ∉ c.touched) :
    (perform security faults c disk).2 file = disk file := by
  cases c with
  | remove target => exact Function.update_of_ne (List.ne_of_not_mem_cons h) _ _
  | rename src dst =>
      simp only [Call.touched, List.mem_cons, List.not_mem_nil, or_false, not_or] at h
      simp only [perform]
      split
      · split_ifs
        · rfl
        · exact Disk.renamed_of_ne h.1 h.2 _
      · rfl
  | move src dst =>
      simp only [Call.touched, List.mem_cons, List.not_mem_nil, or_false, not_or] at h
      simp only [perform]
      split
      · split_ifs
        · rfl
        · exact Disk.renamed_of_ne h.1 h.2 _
      · rfl
  | copy contents target =>
      simp only [perform]
      split_ifs
      · exact Function.update_of_ne (List.ne_of_not_mem_cons h) _ _
      · exact Function.update_of_ne (List.ne_of_not_mem_cons h) _ _
  | write contents target =>
      simp only [perform]
      split_ifs
      · exact Function.update_of_ne (List.ne_of_not_mem_cons h) _ _
      · exact Function.update_of_ne (List.ne_of_not_mem_cons h) _ _
  | fileExists target => rfl
  | read target => rfl
  | computeFileSha256 target => rfl
  | isExtensionTrusted target => rfl
  | createOldVersionDir => rfl
  | launch target => rfl

/-- A program leaves the files alone that none of its calls touches. -/
theorem run_of_not_touched {α : Type} {p : FileProgram α} {file : File}
    (h : p.Calls fun c => file ∉ c.touched) :
    (p.run (perform security faults) disk).2 file = disk file :=
  h.run_invariant (fun later : Disk => later file = disk file)
    (fun _ _ htouched hsame => (perform_of_not_touched htouched).trans hsame) rfl

end Total

end Update

end VKey
