import VKey.Lexicon.FileSystem

/-!
# Lexicon transactions

The transaction that replaces the config file and the user dictionary, and the recovery of a
transaction that has not been finished.
-/

namespace VKey

open LexiconValidator (parseAndValidateUserDictText)
open SpellExclusionCanonicalizer (canonicalizeUtf8)

/-- The operating systems whose file operations differ. -/
inductive Platform where
  | windows
  | posix
  deriving DecidableEq, Repr

/-- The paths of the files as they stand in the journal.  A path in the journal is read back, and
has no line breaks. -/
structure JournalPaths where
  text : File → Bytes
  file : Bytes → File
  file_text : ∀ f, file (text f) = f
  oneLine : ∀ f, LexiconJournalRecord.IsOneLine (text f)

/-- The entries of the config file that the wire mapping is made of.  An exclusion that is no string
is `none`. -/
structure ConfigDocument where
  spellSuggest : Option Bool
  spellExclusions : Option (List (Option Bytes))
  wireGeneration : Option Int

/-- What a transaction finds outside the files. -/
structure TransactionEnv where
  platform : Platform
  paths : JournalPaths
  /-- The parser of the config file; `none` if the text is malformed. -/
  parseToml : Bytes → Option ConfigDocument
  /-- The generation of the wire mapping, if this process may write it. -/
  wireManagerGeneration : Option UInt64
  /-- There is a wire mapping to publish. -/
  hasWirePublisher : Bool
  /-- The generation is published without the shared state. -/
  testGenerationPublisher : Bool

namespace LexiconJournalRecord

/-- Did the file exist before the transaction? -/
def existedBefore (r : LexiconJournalRecord) : LexiconFile → Bool
  | .config => r.configExistedBefore
  | .dict => r.dictExistedBefore

/-- The hash of the file before the transaction. -/
def oldHash (r : LexiconJournalRecord) : LexiconFile → Bytes
  | .config => r.oldConfigHash
  | .dict => r.oldDictHash

end LexiconJournalRecord

/-! ## File operations -/

/-- Put a temporary file in the place of another one. -/
def replaceOrMove (platform : Platform) (tmp dst bak : File) (dstExisted : Bool) :
    FileProgram Bool :=
  match platform with
  | .windows =>
      if dstExisted then do
        let replaced ← replaceFile dst tmp bak
        if replaced then return true else durableAtomicRename tmp dst
      else durableAtomicRename tmp dst
  | .posix =>
      if dstExisted then do
        let _ ← copyFile dst bak
        durableAtomicRename tmp dst
      else durableAtomicRename tmp dst

/-- Remove several files. -/
def removeAll : List File → FileProgram Unit
  | [] => return ()
  | file :: files => do
      let _ ← remove file
      removeAll files

/-- Remove everything that a transaction may have left. -/
def cleanStaleArtifacts : FileProgram Unit :=
  removeAll
    [.journal, .journalTmp, .corrupt, .tmp .config, .bak .config, .tmp .dict, .bak .dict]

/-- Is the file as it was before the transaction? -/
def alreadyRestored (path : File) (existedBefore : Bool) (oldHash : Bytes) : FileProgram Bool := do
  let found ← fileExists path
  match found with
  | none => return false
  | some found =>
      if !existedBefore then return !found
      else if found && !oldHash.isEmpty then do
        let contents ← readFileBytes path
        return computeHash contents == oldHash
      else return false

/-- Restore one file. -/
def rollbackFile (record : LexiconJournalRecord) (which : LexiconFile) (bak : File) :
    FileProgram Bool :=
  if record.existedBefore which then do
    let backedUp ← fileExists bak
    if backedUp.getD false then durableAtomicRename bak (.live which)
    else alreadyRestored (.live which) true (record.oldHash which)
  else do
    let removed ← remove (.live which)
    if removed then return true
    else do
      let found ← fileExists (.live which)
      return !found.getD false

/-- Restore both files. -/
def rollbackToBackup (record : LexiconJournalRecord) (configBak dictBak : File) :
    FileProgram Bool := do
  let configRestored ← rollbackFile record .config configBak
  let dictRestored ← rollbackFile record .dict dictBak
  return configRestored && dictRestored

/-- Write the journal. -/
def transitionJournalState (record : LexiconJournalRecord) (newState : LexiconJournalState) :
    FileProgram Bool := do
  let written ← durableWrite .journalTmp { record with state := newState }.serialize
  if written then durableAtomicRename .journalTmp .journal else return false

/-! ## Recovery -/

section Recovery

variable [UnicodePlatform]

/-- The wire mapping for a config file and a user dictionary.  Exclusions that are not valid are
left out altogether. -/
def wireSnapshotOf (document : ConfigDocument) (words : List (List Char16)) (generation : Nat) :
    WireSnapshot where
  spellExclusions :=
    match document.spellExclusions with
    | none => []
    | some items => ((canonicalizeUtf8 (items.filterMap id)).toOption.getD []).map (·.utf16)
  userDictionary := words
  generation :=
    match document.wireGeneration with
    | some wireGeneration => if 0 < wireGeneration then wireGeneration.toNat else generation
    | none => generation
  spellSuggestEnabled := document.spellSuggest.getD true

/-- The words of a user dictionary, or none if it is not valid. -/
def dictWords (text : Bytes) : List (List Char16) :=
  match (parseAndValidateUserDictText text [] false).toOption with
  | some result => result.entries
  | none => []

/-- Publish the wire mapping for the restored files. -/
def restoreWireMapping (env : TransactionEnv) (record : LexiconJournalRecord) : FileProgram Bool :=
  if env.hasWirePublisher then do
    let config ← readFileBytes (.live .config)
    match env.parseToml config with
    | none => return false
    | some document => do
        let found ← fileExists (.live .dict)
        if found.getD false then do
          let dict ← readFileBytes (.live .dict)
          publishWireMapping (wireSnapshotOf document (dictWords dict) record.oldGeneration.toNat)
        else publishWireMapping (wireSnapshotOf document [] record.oldGeneration.toNat)
  else return true

/-- The path in the journal, or the usual one. -/
def pathOr (env : TransactionEnv) (path : Bytes) (file : File) : File :=
  if path.isEmpty then file else env.paths.file path

/-- Remove the temporary files, the backups and the journal. -/
def removeArtifacts (configTmp dictTmp configBak dictBak : File) : FileProgram Unit :=
  removeAll [configTmp, dictTmp, configBak, dictBak, .journal]

/-- The files are restored: from the backups if there is one, else they have to be as before. -/
def restoreFiles (record : LexiconJournalRecord) (configBak dictBak : File) : FileProgram Bool := do
  let configBackedUp ← fileExists configBak
  let dictBackedUp ←
    (if configBackedUp.getD false then pure (some true) else fileExists dictBak)
  if dictBackedUp.getD false then rollbackToBackup record configBak dictBak
  else do
    let curConfig ← readFileBytes (.live .config)
    let curDict ← readFileBytes (.live .dict)
    return (!record.configExistedBefore || computeHash curConfig == record.oldConfigHash) &&
      (!record.dictExistedBefore || computeHash curDict == record.oldDictHash)

/-- Publish a generation, if the transaction is announced at all. -/
def notifyGeneration (record : LexiconJournalRecord) (generation : UInt8) : FileProgram Bool :=
  if record.notifySharedState then publishGeneration generation else return true

/-- Recovery of a transaction that had begun to replace the files. -/
def recoverPrepared (record : LexiconJournalRecord) (configTmp dictTmp configBak dictBak : File) :
    FileProgram Bool := do
  let restored ← rollbackToBackup record configBak dictBak
  if !restored then return false
  else do
    removeArtifacts configTmp dictTmp configBak dictBak
    return true

/-- Recovery of a transaction that had replaced both files. -/
def recoverFilesReplaced (record : LexiconJournalRecord)
    (configTmp dictTmp configBak dictBak : File) : FileProgram Bool := do
  let curConfig ← readFileBytes (.live .config)
  let curDict ← readFileBytes (.live .dict)
  if computeHash curConfig ≠ record.newConfigHash ∨ computeHash curDict ≠ record.newDictHash then do
    let restored ← restoreFiles record configBak dictBak
    if !restored then return false
    else do
      let published ← notifyGeneration record record.oldGeneration
      if !published then do
        let _ ← transitionJournalState record .rollbackPending
        return false
      else do
        removeArtifacts configTmp dictTmp configBak dictBak
        return true
  else do
    let published ← notifyGeneration record record.newGeneration
    if !published then return false
    else do
      let written ← transitionJournalState record .generationPublished
      if !written then return false
      else do
        removeAll [configTmp, dictTmp, configBak, dictBak]
        let committed ← transitionJournalState record .committed
        if !committed then return false
        else do
          let _ ← remove .journal
          return true

/-- Recovery of a transaction that had published its generation. -/
def recoverGenerationPublished (record : LexiconJournalRecord)
    (configTmp dictTmp configBak dictBak : File) : FileProgram Bool := do
  removeAll [configTmp, dictTmp, configBak, dictBak]
  let committed ← transitionJournalState record .committed
  if !committed then return false
  else do
    let _ ← remove .journal
    return true

/-- Recovery of a transaction that was being rolled back. -/
def recoverRollbackPending (env : TransactionEnv) (record : LexiconJournalRecord)
    (configTmp dictTmp configBak dictBak : File) : FileProgram Bool := do
  let restored ← restoreFiles record configBak dictBak
  if !restored then return false
  else do
    let published ← notifyGeneration record record.oldGeneration
    if !published then return false
    else do
      let wireRestored ← restoreWireMapping env record
      if !wireRestored then return false
      else do
        removeArtifacts configTmp dictTmp configBak dictBak
        return true

/-- Recover the transaction of the journal, if there is one. -/
def recoverIfNeeded (env : TransactionEnv) : FileProgram Bool := do
  let quarantined ← fileExists .corrupt
  if quarantined.getD false then return false
  else do
    let pending ← fileExists .journal
    if !pending.getD false then return true
    else do
      let journalText ← readFileBytes .journal
      match LexiconJournalRecord.deserialize journalText with
      | none => do
          let moved ← durableAtomicRename .journal .corrupt
          if moved then return false
          else do
            let _ ← remove .journal
            return false
      | some record =>
          let configBak := pathOr env record.configBakPath (.bak .config)
          let dictBak := pathOr env record.dictBakPath (.bak .dict)
          let configTmp := pathOr env record.configTmpPath (.tmp .config)
          let dictTmp := pathOr env record.dictTmpPath (.tmp .dict)
          match record.state with
          | .prepared => recoverPrepared record configTmp dictTmp configBak dictBak
          | .filesReplaced => recoverFilesReplaced record configTmp dictTmp configBak dictBak
          | .generationPublished =>
              recoverGenerationPublished record configTmp dictTmp configBak dictBak
          | .committed => do
              removeArtifacts configTmp dictTmp configBak dictBak
              return true
          | .rollbackPending =>
              recoverRollbackPending env record configTmp dictTmp configBak dictBak
          | .unknown => do
              let _ ← remove .journal
              return true

end Recovery

/-! ## The transaction -/

/-- What a transaction is asked to do. -/
structure CommitRequest where
  newConfigToml : Bytes
  newUserDictText : Bytes
  oldGeneration : UInt8
  newGeneration : UInt8
  notifySharedState : Bool
  acquireLock : Bool

namespace CommitRequest

/-- The new contents of a file. -/
def newText (request : CommitRequest) : LexiconFile → Bytes
  | .config => request.newConfigToml
  | .dict => request.newUserDictText

end CommitRequest

section Commit

variable [UnicodePlatform]

/-- Check the new contents; the wire mapping for them. -/
def preflight (env : TransactionEnv) (request : CommitRequest) : Option WireSnapshot := do
  let document ← env.parseToml request.newConfigToml
  let rawExclusions ← (document.spellExclusions.getD []).mapM id
  let exclusions ←
    if rawExclusions.isEmpty then some [] else (canonicalizeUtf8 rawExclusions).toOption
  let dict ← (parseAndValidateUserDictText request.newUserDictText [] false).toOption
  let wireGeneration :=
    match document.wireGeneration with
    | some wireGeneration => if 0 < wireGeneration then wireGeneration.toNat else 0
    | none => 0
  return {
    spellExclusions := exclusions.map (·.utf16)
    userDictionary := dict.entries
    generation :=
      if wireGeneration = 0 then
        match env.wireManagerGeneration with
        | some generation => (generation + 1).toNat
        | none => request.newGeneration.toNat
      else wireGeneration
    spellSuggestEnabled := document.spellSuggest.getD true }

/-- The wire mapping for the files on the disk. -/
def oldWireSnapshot (env : TransactionEnv) (configExisted dictExisted : Bool)
    (oldGeneration : UInt8) : FileProgram WireSnapshot := do
  let document ←
    (if configExisted then do
      let config ← readFileBytes (.live .config)
      pure (env.parseToml config)
    else pure none)
  let words ←
    (if dictExisted then do
      let dict ← readFileBytes (.live .dict)
      pure (dictWords dict)
    else pure [])
  return wireSnapshotOf (document.getD ⟨none, none, none⟩) words oldGeneration.toNat

/-- Write the temporary files and copy the files that exist to their backups. -/
def writeAndBackUp (request : CommitRequest) (configExisted dictExisted : Bool) :
    FileProgram Bool := do
  let configWritten ← durableWrite (.tmp .config) request.newConfigToml
  if !configWritten then return false
  else do
    let dictWritten ← durableWrite (.tmp .dict) request.newUserDictText
    if !dictWritten then return false
    else do
      let configBackedUp ←
        (if configExisted then copyFile (.live .config) (.bak .config) else pure true)
      if !configBackedUp then return false
      else if dictExisted then copyFile (.live .dict) (.bak .dict)
      else return true

/-- The record of the transaction. -/
def prepareRecord (env : TransactionEnv) (request : CommitRequest)
    (configExisted dictExisted : Bool) : FileProgram LexiconJournalRecord := do
  let oldConfigHash ←
    (if configExisted then do
      let config ← readFileBytes (.live .config)
      pure (computeHash config)
    else pure [])
  let oldDictHash ←
    (if dictExisted then do
      let dict ← readFileBytes (.live .dict)
      pure (computeHash dict)
    else pure [])
  return {
    state := .prepared
    configExistedBefore := configExisted
    dictExistedBefore := dictExisted
    notifySharedState := request.notifySharedState
    oldGeneration := request.oldGeneration
    newGeneration := request.newGeneration
    oldConfigHash
    newConfigHash := computeHash request.newConfigToml
    oldDictHash
    newDictHash := computeHash request.newUserDictText
    configBakPath := env.paths.text (.bak .config)
    dictBakPath := env.paths.text (.bak .dict)
    configTmpPath := env.paths.text (.tmp .config)
    dictTmpPath := env.paths.text (.tmp .dict) }

/-- Put both new files in their places. -/
def replaceFiles (env : TransactionEnv) (configExisted dictExisted : Bool) : FileProgram Bool := do
  let configReplaced ←
    replaceOrMove env.platform (.tmp .config) (.live .config) (.bak .config) configExisted
  if !configReplaced then return false
  else replaceOrMove env.platform (.tmp .dict) (.live .dict) (.bak .dict) dictExisted

/-- Remove everything after a roll-back. -/
def removeRolledBack : FileProgram Unit :=
  removeAll
    [.tmp .config, .tmp .dict, .bak .config, .bak .dict, .journal, .journalTmp]

/-- Try three times to publish a generation. -/
def publishGenerationThrice (generation : UInt8) : FileProgram Bool := do
  let first ← publishGeneration generation
  if first then return true
  else do
    let second ← publishGeneration generation
    if second then return true else publishGeneration generation

/-- The wire mapping was not published. -/
def abortWire (record : LexiconJournalRecord) : FileProgram Bool := do
  let written ← transitionJournalState record .rollbackPending
  if !written then return false
  else do
    let restored ← rollbackToBackup record (.bak .config) (.bak .dict)
    if restored then do
      removeRolledBack
      return false
    else return false

/-- The generation was not published. -/
def abortGeneration (record : LexiconJournalRecord) (wirePublished : Bool) (old : WireSnapshot) :
    FileProgram Bool := do
  let written ← transitionJournalState record .rollbackPending
  if !written then return false
  else do
    let wireRestored ← (if wirePublished then publishWireMapping old else pure true)
    let oldGenRestored ← publishGenerationThrice record.oldGeneration
    let restored ← rollbackToBackup record (.bak .config) (.bak .dict)
    if oldGenRestored && restored && wireRestored then do
      removeRolledBack
      return false
    else return false

/-- Finish a transaction that is announced. -/
def finishCommit (record : LexiconJournalRecord) : FileProgram Bool := do
  let written ← transitionJournalState record .generationPublished
  if !written then return false
  else do
    removeAll [.bak .config, .bak .dict]
    let committed ← transitionJournalState record .committed
    if !committed then return false
    else do
      removeAll [.journal, .journalTmp]
      return true

/-- Announce the new files, first in the wire mapping and then in the shared state. -/
def announceCommit (env : TransactionEnv) (record : LexiconJournalRecord)
    (snapshot old : WireSnapshot) : FileProgram Bool :=
  if record.notifySharedState then do
    let wirePublished ←
      (if env.hasWirePublisher then publishWireMapping snapshot else pure true)
    if !wirePublished then abortWire record
    else do
      let published ← publishGeneration record.newGeneration
      if !published then abortGeneration record env.hasWirePublisher old
      else finishCommit record
  else finishCommit record

/-- Replace the files behind a prepared journal. -/
def replaceAndAnnounce (env : TransactionEnv) (record : LexiconJournalRecord)
    (snapshot old : WireSnapshot) : FileProgram Bool := do
  let replaced ← replaceFiles env record.configExistedBefore record.dictExistedBefore
  if !replaced then do
    let restored ← rollbackToBackup record (.bak .config) (.bak .dict)
    if restored then do
      cleanStaleArtifacts
      return false
    else return false
  else do
    let written ← transitionJournalState record .filesReplaced
    if !written then do
      let _ ← recoverIfNeeded env
      return false
    else announceCommit env record snapshot old

/-- Replace both files. -/
def commitTransactionImpl (env : TransactionEnv) (request : CommitRequest) : FileProgram Bool := do
  let locked ← (if request.acquireLock then acquireLock else pure true)
  if !locked then return false
  else do
    let recovered ← recoverIfNeeded env
    if !recovered then return false
    else do
      let connected ←
        (if env.platform = .windows ∧ request.notifySharedState ∧ !env.testGenerationPublisher then
          openSharedState
        else pure true)
      if !connected then return false
      else
        match preflight env request with
        | none => return false
        | some snapshot => do
            let configFound ← fileExists (.live .config)
            let dictFound ← fileExists (.live .dict)
            let configExisted := configFound.getD false
            let dictExisted := dictFound.getD false
            let old ← oldWireSnapshot env configExisted dictExisted request.oldGeneration
            let backedUp ← writeAndBackUp request configExisted dictExisted
            if !backedUp then do
              cleanStaleArtifacts
              return false
            else do
              let record ← prepareRecord env request configExisted dictExisted
              let prepared ← transitionJournalState record .prepared
              if !prepared then do
                cleanStaleArtifacts
                return false
              else replaceAndAnnounce env record snapshot old

end Commit

end VKey
