import Mathlib.Logic.Function.Basic
import VKey.Lexicon.Journal
import VKey.Support.Program

/-!
# The files of a lexicon transaction

A transaction replaces the config file and the user dictionary.  Each has a temporary file with the
new contents and a backup of the old ones beside it; the journal says how far the transaction has
come. Every operation on a file is one step, and may fail.
-/

namespace VKey

/-- The files that a transaction replaces. -/
inductive LexiconFile where
  | config
  | dict
  deriving DecidableEq, Repr

/-- The files of the directory. -/
inductive File where
  /-- The file that the program reads. -/
  | live (which : LexiconFile)
  | tmp (which : LexiconFile)
  | bak (which : LexiconFile)
  | journal
  | journalTmp
  /-- A journal that could not be read. -/
  | corrupt
  | other (path : Bytes)
  deriving DecidableEq, Repr

/-- The contents of the files that exist. -/
abbrev Disk := File → Option Bytes

/-- What the wire mapping is made of. -/
structure WireSnapshot where
  spellExclusions : List (List Char16)
  userDictionary : List (List Char16)
  generation : Nat
  spellSuggestEnabled : Bool

/-- A call to the operating system, or to the other processes. -/
inductive Call where
  | fileExists (file : File)
  | readFile (file : File)
  | durableWrite (file : File) (data : Bytes)
  | copyFile (src dst : File)
  | rename (src dst : File)
  /-- `ReplaceFileW`: the replaced file becomes the backup. -/
  | replaceFile (dst tmp bak : File)
  | remove (file : File)
  | acquireLock
  | openSharedState
  | publishGeneration (generation : UInt8)
  | publishWireMapping (snapshot : WireSnapshot)

/-- The answer to a call; `none` if it is not known whether a file exists. -/
def Call.Answer : Call → Type
  | .fileExists _ => Option Bool
  | .readFile _ => Bytes
  | _ => Bool

/-- What a call does when the file operations succeed.  The other processes answer as they like. -/
def succeeds : Program.Effect Call Call.Answer Disk
  | .fileExists file, disk, answer, disk' => answer = some (disk file).isSome ∧ disk' = disk
  | .readFile file, disk, answer, disk' => answer = (disk file).getD [] ∧ disk' = disk
  | .durableWrite file data, disk, answer, disk' =>
      answer = true ∧ disk' = Function.update disk file (some data)
  | .copyFile src dst, disk, answer, disk' =>
      match disk src with
      | some data => answer = true ∧ disk' = Function.update disk dst (some data)
      | none => answer = false ∧ disk' = disk
  | .rename src dst, disk, answer, disk' =>
      match disk src with
      | some data =>
          answer = true ∧ disk' = Function.update (Function.update disk src none) dst (some data)
      | none => answer = false ∧ disk' = disk
  | .replaceFile dst tmp bak, disk, answer, disk' =>
      match disk dst, disk tmp with
      | some old, some data =>
          answer = true ∧ disk' = Function.update
            (Function.update (Function.update disk tmp none) bak (some old)) dst (some data)
      | _, _ => answer = false ∧ disk' = disk
  | .remove file, disk, answer, disk' =>
      answer = (disk file).isSome ∧ disk' = Function.update disk file none
  | .acquireLock, disk, _, disk' => disk' = disk
  | .openSharedState, disk, _, disk' => disk' = disk
  | .publishGeneration _, disk, _, disk' => disk' = disk
  | .publishWireMapping _, disk, _, disk' => disk' = disk

/-- What a call does when the file operation fails.  A write or a copy may leave anything in its
target; `ReplaceFileW` may leave the replaced file under the name of the backup. -/
def fails : Program.Effect Call Call.Answer Disk
  | .fileExists _, disk, answer, disk' => answer = none ∧ disk' = disk
  | .readFile _, disk, answer, disk' => answer = [] ∧ disk' = disk
  | .durableWrite file _, disk, answer, disk' =>
      answer = false ∧ ∃ contents, disk' = Function.update disk file contents
  | .copyFile _ dst, disk, answer, disk' =>
      answer = false ∧ ∃ contents, disk' = Function.update disk dst contents
  | .rename _ _, disk, answer, disk' => answer = false ∧ disk' = disk
  | .replaceFile dst _ bak, disk, answer, disk' =>
      answer = false ∧ (disk' = disk ∨ ∃ old, disk dst = some old ∧
        disk' = Function.update (Function.update disk dst none) bak (some old))
  | .remove _, disk, answer, disk' => answer = false ∧ disk' = disk
  | .acquireLock, _, _, _ => False
  | .openSharedState, _, _, _ => False
  | .publishGeneration _, _, _, _ => False
  | .publishWireMapping _, _, _, _ => False

/-- What a call may do, where a failure has to be tolerated in the state before it. -/
def effect (tolerated : Call → Disk → Prop) : Program.Effect Call Call.Answer Disk :=
  fun c disk answer disk' =>
    succeeds c disk answer disk' ∨ tolerated c disk ∧ fails c disk answer disk'

/-- The calls when no file operation fails and the other processes agree. -/
def perform : (c : Call) → Disk → c.Answer × Disk
  | .fileExists file, disk => (some (disk file).isSome, disk)
  | .readFile file, disk => ((disk file).getD [], disk)
  | .durableWrite file data, disk => (true, Function.update disk file (some data))
  | .copyFile src dst, disk =>
      match disk src with
      | some data => (true, Function.update disk dst (some data))
      | none => (false, disk)
  | .rename src dst, disk =>
      match disk src with
      | some data => (true, Function.update (Function.update disk src none) dst (some data))
      | none => (false, disk)
  | .replaceFile dst tmp bak, disk =>
      match disk dst, disk tmp with
      | some old, some data =>
          (true, Function.update
            (Function.update (Function.update disk tmp none) bak (some old)) dst (some data))
      | _, _ => (false, disk)
  | .remove file, disk => ((disk file).isSome, Function.update disk file none)
  | .acquireLock, disk => (true, disk)
  | .openSharedState, disk => (true, disk)
  | .publishGeneration _, disk => (true, disk)
  | .publishWireMapping _, disk => (true, disk)

theorem succeeds_perform (c : Call) (disk : Disk) :
    succeeds c disk (perform c disk).1 (perform c disk).2 := by
  cases c with
  | copyFile src dst =>
      dsimp only [succeeds, perform]
      cases disk src with
      | none => exact ⟨rfl, rfl⟩
      | some data => exact ⟨rfl, rfl⟩
  | rename src dst =>
      dsimp only [succeeds, perform]
      cases disk src with
      | none => exact ⟨rfl, rfl⟩
      | some data => exact ⟨rfl, rfl⟩
  | replaceFile dst tmp bak =>
      dsimp only [succeeds, perform]
      cases disk dst with
      | none => exact ⟨rfl, rfl⟩
      | some old =>
          cases disk tmp with
          | none => exact ⟨rfl, rfl⟩
          | some data => exact ⟨rfl, rfl⟩
  | acquireLock => rfl
  | openSharedState => rfl
  | publishGeneration _ => rfl
  | publishWireMapping _ => rfl
  | _ => exact ⟨rfl, rfl⟩

/-! ## Calls as programs -/

abbrev FileProgram := Program Call Call.Answer

def fileExists (file : File) : FileProgram (Option Bool) := .call (.fileExists file) .done

/-- The contents of a file; nothing if it cannot be read. -/
def readFileBytes (file : File) : FileProgram Bytes := .call (.readFile file) .done

def durableWrite (file : File) (data : Bytes) : FileProgram Bool :=
  .call (.durableWrite file data) .done

def copyFile (src dst : File) : FileProgram Bool := .call (.copyFile src dst) .done

def durableAtomicRename (src dst : File) : FileProgram Bool := .call (.rename src dst) .done

def replaceFile (dst tmp bak : File) : FileProgram Bool := .call (.replaceFile dst tmp bak) .done

def remove (file : File) : FileProgram Bool := .call (.remove file) .done

def acquireLock : FileProgram Bool := .call .acquireLock .done

def openSharedState : FileProgram Bool := .call .openSharedState .done

def publishGeneration (generation : UInt8) : FileProgram Bool :=
  .call (.publishGeneration generation) .done

def publishWireMapping (snapshot : WireSnapshot) : FileProgram Bool :=
  .call (.publishWireMapping snapshot) .done

end VKey
