import VKey.Update.Files

/-!
# The installation of an update

The updater runs after the program has exited: it moves the old files to `_old_version`, copies the
new ones, exchanges the TSF library and starts the new program.  Where a step fails, a rollback
moves everything from `_old_version` back.
-/

namespace VKey

namespace Update

/-! ## The package -/

inductive Edition where
  | full
  | lite
  deriving DecidableEq, Repr

namespace Edition

/-- The executable of the application. -/
def executable : Edition → Name
  | .full => .vkey
  | .lite => .vkeyClassic

/-- The files of the package. -/
def expected : Edition → List Name
  | .full => [.notices, .vkey, .tsf, .sciter]
  | .lite => [.notices, .vkeyClassic, .tsf]

end Edition

/-- The extracted package: its files, in the order of the directory. -/
structure Package where
  entries : List (Name × Bytes)
  /-- No entry is a directory or a link. -/
  onlyRegularFiles : Bool
  nodup : (entries.map Prod.fst).Nodup

/-- The package has the files of the edition and no others. -/
def verifyPackageLayout (edition : Edition) (package : Package) : Bool :=
  package.onlyRegularFiles && edition.expected.all (package.entries.map Prod.fst).contains &&
    (package.entries.map Prod.fst).all edition.expected.contains

/-- The new TSF library. -/
def Package.tsf (package : Package) : Bytes := (package.entries.lookup .tsf).getD []

/-! ## The steps -/

/-- Move an application file that is installed out of the way. -/
def backUpFile (name : Name) : FileProgram Unit := do
  let installed ← fileExists (.installed name)
  if installed then
    remove (.old name)
    let _ ← move (.installed name) (.old name)
    return ()
  else return ()

/-- Move the application files out of the way. -/
def backUp : FileProgram Unit := do
  backUpFile .vkey
  backUpFile .vkeyClassic
  backUpFile .sciter

/-- Copy the files of the package, but for the TSF library and a configuration that exists. -/
def copyDirectoryContents : List (Name × Bytes) → FileProgram Bool
  | [] => return true
  | (name, contents) :: entries =>
      if name = .tsf then copyDirectoryContents entries
      else do
        let present ← fileExists (.installed name)
        if name = .config ∧ present = true then copyDirectoryContents entries
        else
          let copied ← copy contents (.installed name)
          if copied then copyDirectoryContents entries else return false

/-- Leave the new TSF library to the next start of the program. -/
def deferTsfDll (newDll : Bytes) : FileProgram Bool := do
  let stashed ← copy newDll .pending
  if !stashed then return false
  else
    let sha ← computeFileSha256 .pending
    if sha.isEmpty then
      remove .pending
      return false
    else
      let created ← write [] .pendingMarker
      if !created then
        remove .pending
        return false
      else
        let wrote ← write sha .pendingMarker
        if !wrote then
          remove .pendingMarker
          remove .pending
          return false
        else return true

/-- Exchange the TSF library.  The result says whether the new one is installed or waits, and the
stamp of the old one if it has been exchanged. -/
def handleTsfDllReplace (newDll : Bytes) (stamp : String) : FileProgram (Bool × Option String) := do
  createOldVersionDir
  let present ← fileExists (.installed .tsf)
  if !present then
    let copied ← copy newDll (.installed .tsf)
    return (copied, none)
  else
    let parked ← move (.installed .tsf) (.parked stamp .plain)
    if parked then
      let copied ← copy newDll (.installed .tsf)
      if copied then
        remove .pending
        remove .pendingMarker
        return (true, some stamp)
      else
        let _ ← move (.parked stamp .plain) (.installed .tsf)
        let deferred ← deferTsfDll newDll
        return (deferred, none)
    else
      let deferred ← deferTsfDll newDll
      return (deferred, none)

/-! ## The run -/

/-- How the updater ends. -/
inductive Exit where
  /-- The program did not exit. -/
  | abandoned
  /-- A rollback, with or without the files of `_old_version`, and the stamp of an exchanged TSF
  library. -/
  | rolledBack (restoreBackup : Bool) (parkedTsf : Option String)
  | succeeded
  deriving DecidableEq, Repr

/-- What a run of the updater meets. -/
structure UpdateRun where
  edition : Edition
  /-- The time stamp of the run. -/
  stamp : String
  /-- The time stamp of the rollback. -/
  failedStamp : String
  othersExited : Bool
  packageVerified : Bool
  /-- What has been extracted. -/
  package : Option Package
  faults : Faults

/-- The part of the run behind the exchange of the files. -/
def launchInstalled (executable : Name) (parkedTsf : Option String) : FileProgram Exit := do
  let present ← fileExists (.installed executable)
  if !present then return .rolledBack true parkedTsf
  else
    let installedHash ← computeFileSha256 (.installed executable)
    if installedHash.isEmpty then return .rolledBack true parkedTsf
    else
      let written ← write installedHash .updateSucceeded
      if !written then return .rolledBack true parkedTsf
      else
        remove .updateFailed
        let launched ← launch (.installed executable)
        if !launched then return .rolledBack true parkedTsf else return .succeeded

/-- The part of the run behind the check of the package. -/
def exchangeFiles (run : UpdateRun) (package : Package) : FileProgram Exit := do
  createOldVersionDir
  backUp
  let copied ← copyDirectoryContents package.entries
  if !copied then return .rolledBack true none
  else
    let (replaced, parkedTsf) ← handleTsfDllReplace package.tsf run.stamp
    if !replaced then return .rolledBack true parkedTsf
    else launchInstalled run.edition.executable parkedTsf

/-- The run up to its end or to a rollback. -/
def installUpdate (run : UpdateRun) : FileProgram Exit := do
  remove .updateSucceeded
  if !run.othersExited then
    let _ ← write [] .updateFailed
    return .abandoned
  else if !run.packageVerified then return .rolledBack false none
  else
    remove .pending
    remove .pendingMarker
    match run.package with
    | none => return .rolledBack false none
    | some package =>
        if !verifyPackageLayout run.edition package then return .rolledBack false none
        else exchangeFiles run package

/-! ## The rollback -/

/-- Every file of `_old_version` is moved back, but for the parked libraries.  The moves are
independent of each other, and they succeed. -/
def restoreOld (disk : Disk) : Disk
  | .installed name => (disk (.old name)).or (disk (.installed name))
  | .old _ => none
  | file => disk file

/-- Rename a file if it exists. -/
def renameIfPresent (src dst : File) (disk : Disk) : Disk :=
  match disk src with
  | some contents => disk.renamed src dst contents
  | none => disk

/-- The parked library is put back in its place, and the new one out of it. -/
def restoreTsf (failedStamp stamp : String) (disk : Disk) : Disk :=
  renameIfPresent (.parked stamp .plain) (.installed .tsf)
    (renameIfPresent (.installed .tsf) (.parked failedStamp .failed) disk)

/-- The rollback, whose own operations succeed. -/
def rollbackRestoreAndExit (restoreBackup : Bool) (parkedTsf : Option String) (failedStamp : String)
    (disk : Disk) : Disk :=
  let restored : Disk := if restoreBackup then restoreOld disk else disk
  let tsfRestored : Disk :=
    match parkedTsf with
    | some stamp => restoreTsf failedStamp stamp restored
    | none => restored
  let cleaned : Disk :=
    Function.update (Function.update tsfRestored .pending none) .pendingMarker none
  Function.update (Function.update cleaned .updateSucceeded none) .updateFailed (some [])

/-- The updater: how it ends, and the disk it leaves. -/
def runUpdateInstaller (security : Security) (run : UpdateRun) (disk : Disk) : Exit × Disk :=
  let result := (installUpdate run).run (perform security run.faults) disk
  match result.1 with
  | .rolledBack restoreBackup parkedTsf =>
      (result.1, rollbackRestoreAndExit restoreBackup parkedTsf run.failedStamp result.2)
  | _ => result

end Update

end VKey
