import VKey.Lexicon.Transaction

/-!
# Rolling a transaction back

As long as every file that existed is in its place or in its backup, rolling back restores the
files, whichever of its operations fail.
-/

namespace VKey

/-! ## Rules for calls -/

section Calls

variable {tolerated : Call → Disk → Prop} {mid : Disk → Prop} {disk : Disk}

theorem always_fileExists {post : Option Bool → Disk → Prop} {file : File} (hmid : mid disk)
    (hpost : post (some (disk file).isSome) disk)
    (hfail : tolerated (.fileExists file) disk → post none disk) :
    (fileExists file).Always (effect tolerated) mid post disk := by
  refine ⟨hmid, ?_⟩
  rintro answer disk' (⟨rfl, rfl⟩ | ⟨htolerated, rfl, rfl⟩)
  · exact ⟨hmid, hpost⟩
  · exact ⟨hmid, hfail htolerated⟩

/-- A check that fails only where there is no file. -/
theorem always_fileExists_getD {post : Option Bool → Disk → Prop} {file : File} (hmid : mid disk)
    (htolerated : tolerated (.fileExists file) disk → disk file = none)
    (hpost : ∀ found : Option Bool, found.getD false = (disk file).isSome → post found disk) :
    (fileExists file).Always (effect tolerated) mid post disk := by
  apply always_fileExists hmid
  · exact hpost _ rfl
  · intro hfail
    apply hpost
    rw [htolerated hfail]
    rfl

/-- A check whose answer does not matter. -/
theorem always_fileExists_any {post : Option Bool → Disk → Prop} {file : File} (hmid : mid disk)
    (hpost : ∀ found, post found disk) :
    (fileExists file).Always (effect tolerated) mid post disk :=
  always_fileExists hmid (hpost _) fun _ => hpost none

theorem always_readFileBytes {post : Bytes → Disk → Prop} {file : File} (hmid : mid disk)
    (hpost : post ((disk file).getD []) disk)
    (hfail : tolerated (.readFile file) disk → post [] disk) :
    (readFileBytes file).Always (effect tolerated) mid post disk := by
  refine ⟨hmid, ?_⟩
  rintro answer disk' (⟨rfl, rfl⟩ | ⟨htolerated, rfl, rfl⟩)
  · exact ⟨hmid, hpost⟩
  · exact ⟨hmid, hfail htolerated⟩

theorem always_durableWrite {post : Bool → Disk → Prop} {file : File}
    {data : Bytes} (hmid : mid disk)
    (hpost : mid (Function.update disk file (some data)) ∧
      post true (Function.update disk file (some data)))
    (hfail : tolerated (.durableWrite file data) disk → ∀ contents,
      mid (Function.update disk file contents) ∧ post false (Function.update disk file contents)) :
    (durableWrite file data).Always (effect tolerated) mid post disk := by
  refine ⟨hmid, ?_⟩
  rintro answer disk' (⟨rfl, rfl⟩ | ⟨htolerated, rfl, contents, rfl⟩)
  · exact hpost
  · exact hfail htolerated contents

theorem always_rename {post : Bool → Disk → Prop} {src dst : File} (hmid : mid disk)
    (hpost : ∀ data, disk src = some data →
      mid (Function.update (Function.update disk src none) dst (some data)) ∧
        post true (Function.update (Function.update disk src none) dst (some data)))
    (hfail : disk src = none ∨ tolerated (.rename src dst) disk → post false disk) :
    (durableAtomicRename src dst).Always (effect tolerated) mid post disk := by
  refine ⟨hmid, ?_⟩
  rintro answer disk' (hsucceeds | ⟨htolerated, rfl, rfl⟩)
  · dsimp only [succeeds] at hsucceeds
    cases hsrc : disk src with
    | none =>
        rw [hsrc] at hsucceeds
        obtain ⟨rfl, rfl⟩ := hsucceeds
        exact ⟨hmid, hfail (Or.inl hsrc)⟩
    | some data =>
        rw [hsrc] at hsucceeds
        obtain ⟨rfl, rfl⟩ := hsucceeds
        exact hpost data hsrc
  · exact ⟨hmid, hfail (Or.inr htolerated)⟩

theorem always_copyFile {post : Bool → Disk → Prop} {src dst : File} (hmid : mid disk)
    (hpost : ∀ data, disk src = some data →
      mid (Function.update disk dst (some data)) ∧ post true (Function.update disk dst (some data)))
    (hnone : disk src = none → post false disk)
    (hfail : tolerated (.copyFile src dst) disk → ∀ contents,
      mid (Function.update disk dst contents) ∧ post false (Function.update disk dst contents)) :
    (copyFile src dst).Always (effect tolerated) mid post disk := by
  refine ⟨hmid, ?_⟩
  rintro answer disk' (hsucceeds | ⟨htolerated, rfl, contents, rfl⟩)
  · dsimp only [succeeds] at hsucceeds
    cases hsrc : disk src with
    | none =>
        rw [hsrc] at hsucceeds
        obtain ⟨rfl, rfl⟩ := hsucceeds
        exact ⟨hmid, hnone hsrc⟩
    | some data =>
        rw [hsrc] at hsucceeds
        obtain ⟨rfl, rfl⟩ := hsucceeds
        exact hpost data hsrc
  · exact hfail htolerated contents

theorem always_replaceFile {post : Bool → Disk → Prop} {dst tmp bak : File} (hmid : mid disk)
    (hpost : ∀ old data, disk dst = some old → disk tmp = some data →
      mid (Function.update (Function.update (Function.update disk tmp none) bak (some old)) dst
          (some data)) ∧
        post true (Function.update
          (Function.update (Function.update disk tmp none) bak (some old)) dst
          (some data)))
    (hfail : post false disk)
    (hmoved : ∀ old, disk dst = some old →
      mid (Function.update (Function.update disk dst none) bak (some old)) ∧
        post false (Function.update (Function.update disk dst none) bak (some old))) :
    (replaceFile dst tmp bak).Always (effect tolerated) mid post disk := by
  refine ⟨hmid, ?_⟩
  rintro answer disk' (hsucceeds | ⟨-, rfl, rfl | ⟨old, hold, rfl⟩⟩)
  · dsimp only [succeeds] at hsucceeds
    cases hdst : disk dst with
    | none =>
        rw [hdst] at hsucceeds
        obtain ⟨rfl, rfl⟩ := hsucceeds
        exact ⟨hmid, hfail⟩
    | some old =>
        cases htmp : disk tmp with
        | none =>
            rw [hdst, htmp] at hsucceeds
            obtain ⟨rfl, rfl⟩ := hsucceeds
            exact ⟨hmid, hfail⟩
        | some data =>
            rw [hdst, htmp] at hsucceeds
            obtain ⟨rfl, rfl⟩ := hsucceeds
            exact hpost old data hdst htmp
  · exact ⟨hmid, hfail⟩
  · exact hmoved old hold

theorem always_remove {post : Bool → Disk → Prop} {file : File} (hmid : mid disk)
    (hpost : mid (Function.update disk file none) ∧
      post (disk file).isSome (Function.update disk file none))
    (hfail : tolerated (.remove file) disk → post false disk) :
    (remove file).Always (effect tolerated) mid post disk := by
  refine ⟨hmid, ?_⟩
  rintro answer disk' (⟨rfl, rfl⟩ | ⟨htolerated, rfl, rfl⟩)
  · exact hpost
  · exact ⟨hmid, hfail htolerated⟩

theorem always_acquireLock {post : Bool → Disk → Prop} (hmid : mid disk)
    (hpost : ∀ answer, post answer disk) :
    acquireLock.Always (effect tolerated) mid post disk := by
  refine ⟨hmid, ?_⟩
  rintro answer disk' (rfl | ⟨-, hfails⟩)
  · exact ⟨hmid, hpost answer⟩
  · exact hfails.elim

theorem always_openSharedState {post : Bool → Disk → Prop} (hmid : mid disk)
    (hpost : ∀ answer, post answer disk) :
    openSharedState.Always (effect tolerated) mid post disk := by
  refine ⟨hmid, ?_⟩
  rintro answer disk' (rfl | ⟨-, hfails⟩)
  · exact ⟨hmid, hpost answer⟩
  · exact hfails.elim

theorem always_publishGeneration {post : Bool → Disk → Prop} {generation : UInt8} (hmid : mid disk)
    (hpost : ∀ answer, post answer disk) :
    (publishGeneration generation).Always (effect tolerated) mid post disk := by
  refine ⟨hmid, ?_⟩
  rintro answer disk' (rfl | ⟨-, hfails⟩)
  · exact ⟨hmid, hpost answer⟩
  · exact hfails.elim

theorem always_publishWireMapping {post : Bool → Disk → Prop} {snapshot : WireSnapshot}
    (hmid : mid disk) (hpost : ∀ answer, post answer disk) :
    (publishWireMapping snapshot).Always (effect tolerated) mid post disk := by
  refine ⟨hmid, ?_⟩
  rintro answer disk' (rfl | ⟨-, hfails⟩)
  · exact ⟨hmid, hpost answer⟩
  · exact hfails.elim

/-- What the removal of each of some files keeps holds after their removal. -/
theorem always_removeAll {keeps : Disk → Prop} {files : List File}
    (hkeeps : ∀ file ∈ files, ∀ disk, keeps disk → keeps (Function.update disk file none))
    (hmid : ∀ disk, keeps disk → mid disk) (h : keeps disk) :
    (removeAll files).Always (effect tolerated) mid (fun _ disk => keeps disk) disk := by
  induction files generalizing disk with
  | nil => exact Program.always_pure (hmid disk h) h
  | cons file files ih =>
      obtain ⟨hfile, hfiles⟩ := List.forall_mem_cons.mp hkeeps
      apply Program.always_bind
      apply always_remove (hmid disk h)
      · exact ⟨hmid _ (hfile disk h), ih hfiles (hfile disk h)⟩
      · exact fun _ => ih hfiles h

end Calls

/-! ## States of a roll-back -/

/-- The state in the journal. -/
def journalState (disk : Disk) : Option LexiconJournalState :=
  ((disk .journal).bind LexiconJournalRecord.deserialize).map (·.state)

/-- Both files are as before. -/
def Restored (before : LexiconFile → Option Bytes) (disk : Disk) : Prop :=
  ∀ which, disk (.live which) = before which

/-- The journal may still fail to be written. -/
def JournalMayFail (disk : Disk) : Prop :=
  journalState disk ≠ some .filesReplaced ∧ journalState disk ≠ some .generationPublished

/-- The failures of file operations that the files survive. -/
def tolerable (before : LexiconFile → Option Bytes) : Call → Disk → Prop
  | .fileExists (.live which), disk =>
      disk (.live which) = none ∨ disk .journal ≠ none ∧ before which ≠ none
  | .fileExists file, disk => disk file = none
  | .durableWrite .journalTmp _, disk => JournalMayFail disk
  | .rename _ .journal, disk => JournalMayFail disk
  | .rename _ .corrupt, disk => Restored before disk
  | .copyFile _ _, disk => disk .journal = none
  | .remove (.live which), disk =>
      disk (.live which) = none ∨ journalState disk ≠ some .rollbackPending
  | _, _ => True

/-- The record belongs to a transaction that started from the given files. -/
structure IsRecordFor (env : TransactionEnv) (before : LexiconFile → Option Bytes)
    (record : LexiconJournalRecord) : Prop where
  existed : ∀ which, record.existedBefore which = (before which).isSome
  configBakPath : record.configBakPath = env.paths.text (.bak .config)
  dictBakPath : record.dictBakPath = env.paths.text (.bak .dict)
  configTmpPath : record.configTmpPath = env.paths.text (.tmp .config)
  dictTmpPath : record.dictTmpPath = env.paths.text (.tmp .dict)
  oneLine : record.TextsOneLine

/-- The journal holds the record, in the given state. -/
def JournalSays (record : LexiconJournalRecord) (state : LexiconJournalState)
    (disk : Disk) : Prop :=
  disk .journal = some ({ record with state } : LexiconJournalRecord).serialize

/-- A file that existed is in its backup, or without one in its place. -/
def Kept (before : Option Bytes) (disk : Disk) (which : LexiconFile) : Prop :=
  ∀ data, before = some data → disk (.bak which) = some data ∨
    disk (.bak which) = none ∧ disk (.live which) = some data

def Restorable (before : LexiconFile → Option Bytes) (disk : Disk) : Prop :=
  ∀ which, Kept (before which) disk which

/-- A file that did not exist does not exist. -/
def Gone (before : LexiconFile → Option Bytes) (disk : Disk) : Prop :=
  ∀ which, before which = none → disk (.live which) = none

/-- The files can be rolled back, or the recovery refuses to do anything. -/
def RollsBack (env : TransactionEnv) (before : LexiconFile → Option Bytes) (disk : Disk) : Prop :=
  (disk .corrupt).isSome = true ∨ disk .journal = none ∧ Restored before disk ∨
    ∃ record state, IsRecordFor env before record ∧ JournalSays record state disk ∧
      Restorable before disk ∧ (state = .prepared ∨ state = .rollbackPending)

/-- A recovery that finds no backup finds no file that did not exist. -/
def NoOrphan (before : LexiconFile → Option Bytes) (disk : Disk) : Prop :=
  journalState disk = some .rollbackPending →
    (disk (.bak .config)).isSome = true ∨ (disk (.bak .dict)).isSome = true ∨ Gone before disk

theorem Restored.gone {before : LexiconFile → Option Bytes} {disk : Disk}
    (h : Restored before disk) : Gone before disk := fun which hnone => by rw [h which, hnone]

theorem IsRecordFor.withState {env : TransactionEnv} {before : LexiconFile → Option Bytes}
    {record : LexiconJournalRecord} (h : IsRecordFor env before record)
    (state : LexiconJournalState) : IsRecordFor env before { record with state } where
  existed which := by
    rw [← h.existed which]
    cases which <;> rfl
  configBakPath := h.configBakPath
  dictBakPath := h.dictBakPath
  configTmpPath := h.configTmpPath
  dictTmpPath := h.dictTmpPath
  oneLine :=
    { oldConfigHash := h.oneLine.oldConfigHash
      newConfigHash := h.oneLine.newConfigHash
      oldDictHash := h.oneLine.oldDictHash
      newDictHash := h.oneLine.newDictHash
      configBakPath := h.oneLine.configBakPath
      dictBakPath := h.oneLine.dictBakPath
      configTmpPath := h.oneLine.configTmpPath
      dictTmpPath := h.oneLine.dictTmpPath }

/-- The journal is read back. -/
theorem JournalSays.deserialize {env : TransactionEnv} {before : LexiconFile → Option Bytes}
    {record : LexiconJournalRecord} {state : LexiconJournalState} {disk : Disk}
    (h : JournalSays record state disk) (hrecord : IsRecordFor env before record)
    (hstate : state ≠ .unknown) :
    (disk .journal).bind LexiconJournalRecord.deserialize = some { record with state } := by
  rw [h, Option.bind_some]
  exact LexiconJournalRecord.deserialize_serialize hstate (hrecord.withState state).oneLine

theorem JournalSays.journalState_eq {env : TransactionEnv} {before : LexiconFile → Option Bytes}
    {record : LexiconJournalRecord} {state : LexiconJournalState} {disk : Disk}
    (h : JournalSays record state disk) (hrecord : IsRecordFor env before record)
    (hstate : state ≠ .unknown) : journalState disk = some state := by
  rw [journalState, h.deserialize hrecord hstate]
  rfl

theorem journalState_of_none {disk : Disk} (h : disk .journal = none) :
    journalState disk = none := by
  rw [journalState, h]
  rfl

theorem journalState_congr {disk disk' : Disk} (h : disk' .journal = disk .journal) :
    journalState disk' = journalState disk := by
  rw [journalState, journalState, h]

/-! ## Restoring one file -/

section RollbackFile

variable {env : TransactionEnv} {before : LexiconFile → Option Bytes}
  {record : LexiconJournalRecord} {which : LexiconFile} {mid : Disk → Prop} {disk : Disk}

/-- Only the file and its backup differ. -/
def SameBeside (which : LexiconFile) (disk disk' : Disk) : Prop :=
  ∀ file, file ≠ .live which → file ≠ .bak which → disk' file = disk file

theorem SameBeside.refl (which : LexiconFile) (disk : Disk) : SameBeside which disk disk :=
  fun _ _ _ => rfl

/-- What restoring a file achieves. -/
structure FileRolledBack (before : LexiconFile → Option Bytes) (which : LexiconFile) (disk : Disk)
    (ok : Bool) (disk' : Disk) : Prop where
  same : SameBeside which disk disk'
  kept : Kept (before which) disk' which
  restored : ok = true → disk' (.live which) = before which
  gone : journalState disk = some .rollbackPending → before which = none →
    disk' (.live which) = none

theorem always_alreadyRestored {path : File} {existed : Bool} {oldHash : Bytes}
    {post : Bool → Disk → Prop} (hmid : mid disk) (hpost : ∀ ok, post ok disk) :
    (alreadyRestored path existed oldHash).Always (effect (tolerable before)) mid post disk := by
  apply Program.always_bind
  apply always_fileExists_any hmid
  intro found
  cases found with
  | none => exact Program.always_pure hmid (hpost false)
  | some found =>
      dsimp only
      split_ifs
      · exact Program.always_pure hmid (hpost _)
      · apply Program.always_bind
        apply always_readFileBytes hmid
        · exact Program.always_pure hmid (hpost _)
        · exact fun _ => Program.always_pure hmid (hpost _)
      · exact Program.always_pure hmid (hpost _)

theorem always_rollbackFile (hexisted : record.existedBefore which = (before which).isSome)
    (hkept : Kept (before which) disk which)
    (hmid : ∀ disk', SameBeside which disk disk' → Kept (before which) disk' which → mid disk') :
    (rollbackFile record which (.bak which)).Always (effect (tolerable before)) mid
      (FileRolledBack before which disk) disk := by
  have hsame := SameBeside.refl which disk
  have hnow := hmid disk hsame hkept
  rw [rollbackFile]
  cases hbefore : before which with
  | some data =>
      have htrue : record.existedBefore which = true := by rw [hexisted, hbefore]; rfl
      have hnotNone : before which ≠ none := by rw [hbefore]; exact Option.some_ne_none data
      rw [if_pos htrue]
      apply Program.always_bind
      refine always_fileExists_getD hnow id fun found hfound => ?_
      rw [hfound]
      rcases hkept data hbefore with hbak | ⟨hbak, hlive⟩
      · rw [hbak, Option.isSome_some, if_pos rfl]
        apply always_rename hnow
        · intro saved hsaved
          obtain rfl : data = saved := Option.some.inj (hbak.symm.trans hsaved)
          have hmoved : SameBeside which disk
              (Function.update (Function.update disk (.bak which) none)
                (.live which) (some data)) := by
            intro file hlive hbak
            rw [Function.update_of_ne hlive, Function.update_of_ne hbak]
          have hlive : Function.update (Function.update disk (.bak which) none) (.live which)
              (some data) (.live which) = some data := Function.update_self ..
          have hgone : Function.update (Function.update disk (.bak which) none) (.live which)
              (some data) (.bak which) = none := by simp
          have hkept' :
            Kept (before which) (Function.update (Function.update disk (.bak which) none)
              (.live which) (some data)) which := by
            intro data' hdata'
            rw [hlive, hgone, ← hbefore, hdata']
            exact Or.inr ⟨rfl, rfl⟩
          exact ⟨hmid _ hmoved hkept', hmoved, hkept', fun _ => hlive.trans hbefore.symm,
            fun _ hnone => absurd hnone hnotNone⟩
        · exact fun _ => ⟨hsame, hkept, fun hfalse => Bool.noConfusion hfalse,
            fun _ hnone => absurd hnone hnotNone⟩
      · rw [hbak, Option.isSome_none, if_neg Bool.false_ne_true]
        apply always_alreadyRestored hnow
        exact fun ok => ⟨hsame, hkept, fun _ => hlive.trans hbefore.symm,
          fun _ hnone => absurd hnone hnotNone⟩
  | none =>
      have hfalse : ¬record.existedBefore which = true := by rw [hexisted, hbefore]; simp
      have hkeptNone : ∀ disk', Kept (before which) disk' which := by
        intro disk' data hdata
        rw [hbefore] at hdata
        cases hdata
      rw [if_neg hfalse]
      apply Program.always_bind
      apply always_remove hnow
      · have hremoved : SameBeside which disk (Function.update disk (.live which) none) := by
          intro file hlive _
          rw [Function.update_of_ne hlive]
        have hnone : Function.update disk (.live which) none (.live which) = none :=
          Function.update_self ..
        have hmid' := hmid _ hremoved (hkeptNone _)
        have hpost :
          FileRolledBack before which disk true (Function.update disk (.live which) none) :=
          ⟨hremoved, hkeptNone _, fun _ => hnone.trans hbefore.symm, fun _ _ => hnone⟩
        refine ⟨hmid', ?_⟩
        split_ifs
        · exact Program.always_pure hmid' hpost
        · apply Program.always_bind
          refine always_fileExists_getD hmid' (fun _ => hnone) fun found hfound => ?_
          rw [hfound, hnone]
          exact Program.always_pure hmid' hpost
      · intro htolerated
        rw [if_neg Bool.false_ne_true]
        apply Program.always_bind
        refine always_fileExists_getD hnow (fun hchecked => hchecked.resolve_right fun hboth =>
          hboth.2 hbefore) fun found hfound => ?_
        rw [hfound]
        apply Program.always_pure hnow
        refine ⟨hsame, hkept, ?_, fun hpending _ =>
          htolerated.resolve_right fun hnotPending => hnotPending hpending⟩
        cases hlive : disk (.live which) with
        | none => exact fun _ => hbefore.symm
        | some data => exact fun hfalse => Bool.noConfusion hfalse

end RollbackFile

/-! ## Restoring both files -/

section Rollback

variable {env : TransactionEnv} {before : LexiconFile → Option Bytes}
  {record : LexiconJournalRecord} {mid : Disk → Prop} {disk : Disk}

/-- Only the two files and their backups differ. -/
def SameOutside (disk disk' : Disk) : Prop :=
  ∀ file, (∀ which, file ≠ .live which ∧ file ≠ .bak which) → disk' file = disk file

theorem SameOutside.refl (disk : Disk) : SameOutside disk disk := fun _ _ => rfl

theorem SameOutside.trans {disk disk' disk'' : Disk} (h : SameOutside disk disk')
    (h' : SameOutside disk' disk'') : SameOutside disk disk'' :=
  fun file hfile => (h' file hfile).trans (h file hfile)

theorem SameBeside.outside {which : LexiconFile} {disk disk' : Disk}
    (h : SameBeside which disk disk') : SameOutside disk disk' :=
  fun file hfile => h file (hfile which).1 (hfile which).2

theorem SameOutside.journal {disk disk' : Disk} (h : SameOutside disk disk') :
    disk' .journal = disk .journal := h .journal fun _ => ⟨File.noConfusion, File.noConfusion⟩

/-- Restoring one file does not touch the other one. -/
theorem SameBeside.kept {which other : LexiconFile} {disk disk' : Disk} {contents : Option Bytes}
    (h : SameBeside which disk disk') (hother : other ≠ which) (hkept : Kept contents disk other) :
    Kept contents disk' other := by
  intro data hdata
  have hlive : disk' (.live other) = disk (.live other) :=
    h _ (fun heq => hother (File.live.inj heq)) File.noConfusion
  have hbak : disk' (.bak other) = disk (.bak other) :=
    h _ File.noConfusion fun heq => hother (File.bak.inj heq)
  rw [hlive, hbak]
  exact hkept data hdata

theorem SameBeside.live {which other : LexiconFile} {disk disk' : Disk}
    (h : SameBeside which disk disk') (hother : other ≠ which) :
    disk' (.live other) = disk (.live other) :=
  h _ (fun heq => hother (File.live.inj heq)) File.noConfusion

/-- What restoring both files achieves. -/
structure RolledBack (before : LexiconFile → Option Bytes) (disk : Disk)
    (ok : Bool) (disk' : Disk) :
    Prop where
  same : SameOutside disk disk'
  restorable : Restorable before disk'
  restored : ok = true → Restored before disk'
  gone : journalState disk = some .rollbackPending → Gone before disk'

theorem always_rollbackToBackup (hrecord : IsRecordFor env before record)
    (hrestorable : Restorable before disk)
    (hmid : ∀ disk', SameOutside disk disk' → Restorable before disk' → mid disk') :
    (rollbackToBackup record (.bak .config) (.bak .dict)).Always (effect (tolerable before)) mid
      (RolledBack before disk) disk := by
  apply Program.always_bind
  have hconfig : ∀ disk', SameBeside .config disk disk' →
      Kept (before .config) disk' .config → Restorable before disk' := by
    intro disk' hsame hkept which
    cases which with
    | config => exact hkept
    | dict => exact hsame.kept (by decide) (hrestorable .dict)
  refine (always_rollbackFile (hrecord.existed .config) (hrestorable .config)
    fun disk' hsame hkept => hmid disk' hsame.outside (hconfig disk' hsame hkept)).post_mono ?_
  intro configRestored disk1 _ hdone1
  have hrestorable1 := hconfig disk1 hdone1.same hdone1.kept
  have hdict : ∀ disk', SameBeside .dict disk1 disk' →
      Kept (before .dict) disk' .dict → Restorable before disk' := by
    intro disk' hsame hkept which
    cases which with
    | config => exact hsame.kept (by decide) (hrestorable1 .config)
    | dict => exact hkept
  apply Program.always_bind
  refine (always_rollbackFile (hrecord.existed .dict) (hrestorable1 .dict)
    fun disk' hsame hkept => hmid disk' (hdone1.same.outside.trans hsame.outside)
      (hdict disk' hsame hkept)).post_mono ?_
  intro dictRestored disk2 hmid2 hdone2
  have hconfigLive : disk2 (.live .config) = disk1 (.live .config) := hdone2.same.live (by decide)
  apply Program.always_pure hmid2
  refine ⟨hdone1.same.outside.trans hdone2.same.outside,
    hdict disk2 hdone2.same hdone2.kept, ?_, ?_⟩
  · intro hok which
    rw [Bool.and_eq_true] at hok
    cases which with
    | config => exact hconfigLive.trans (hdone1.restored hok.1)
    | dict => exact hdone2.restored hok.2
  · intro hpending which hnone
    have hpending1 : journalState disk1 = some .rollbackPending := by
      rw [journalState_congr hdone1.same.outside.journal, hpending]
    cases which with
    | config => exact hconfigLive.trans (hdone1.gone hpending hnone)
    | dict => exact hdone2.gone hpending1 hnone

/-- The journal is that of a transaction that can be rolled back. -/
def JournalRollsBack (env : TransactionEnv) (before : LexiconFile → Option Bytes) (disk : Disk) :
    Prop :=
  ∃ record state, IsRecordFor env before record ∧ JournalSays record state disk ∧
    (state = .prepared ∨ state = .rollbackPending)

/-- Both files are restored; the journal and the backups may not be removed yet. -/
structure Settled (env : TransactionEnv) (before : LexiconFile → Option Bytes) (disk : Disk) :
    Prop where
  restored : Restored before disk
  restorable : Restorable before disk
  journal : disk .journal = none ∨ JournalRollsBack env before disk

theorem Settled.rollsBack (h : Settled env before disk) : RollsBack env before disk := by
  rcases h.journal with hnone | ⟨record, state, hrecord, hjournalled, hstate⟩
  · exact Or.inr (Or.inl ⟨hnone, h.restored⟩)
  · exact Or.inr (Or.inr ⟨record, state, hrecord, hjournalled, h.restorable, hstate⟩)

theorem Settled.noOrphan (h : Settled env before disk) : NoOrphan before disk :=
  fun _ => Or.inr (Or.inr h.restored.gone)

/-- Removing anything but the files keeps them restored. -/
theorem Settled.remove (h : Settled env before disk) {file : File}
    (hfile : ∀ which, file ≠ .live which) :
    Settled env before (Function.update disk file none) where
  restored which := by
    rw [Function.update_of_ne (hfile which).symm]
    exact h.restored which
  restorable which data hdata := by
    have hlive : Function.update disk file none (.live which) = some data := by
      rw [Function.update_of_ne (hfile which).symm, h.restored which, hdata]
    by_cases hbak : file = .bak which
    · right
      refine ⟨?_, hlive⟩
      rw [hbak, Function.update_self]
    · rw [hlive, Function.update_of_ne (Ne.symm hbak)]
      exact (h.restorable which data hdata).imp_right fun hboth => ⟨hboth.1, rfl⟩
  journal := by
    by_cases hjournal : file = .journal
    · left
      rw [hjournal, Function.update_self]
    · rw [JournalRollsBack]
      unfold JournalSays
      rw [Function.update_of_ne (Ne.symm hjournal)]
      exact h.journal

theorem always_removeAll_settled {files : List File}
    (hfiles : ∀ file ∈ files, ∀ which, file ≠ .live which) (h : Settled env before disk) :
    (removeAll files).Always (effect (tolerable before)) (RollsBack env before)
      (fun _ disk' => Settled env before disk') disk :=
  always_removeAll (fun file hfile _ hsettled => hsettled.remove (hfiles file hfile))
    (fun _ hsettled => hsettled.rollsBack) h

theorem RolledBack.settled {disk' : Disk} (h : RolledBack before disk true disk')
    (hjournal : JournalRollsBack env before disk) : Settled env before disk' where
  restored := h.restored rfl
  restorable := h.restorable
  journal := by
    right
    obtain ⟨record, state, hrecord, hjournalled, hstate⟩ := hjournal
    exact ⟨record, state, hrecord, h.same.journal.trans hjournalled, hstate⟩

/-- What a roll-back leaves can be rolled back again. -/
theorem RolledBack.rollsBack {ok : Bool} {disk' : Disk} (h : RolledBack before disk ok disk')
    (hjournal : JournalRollsBack env before disk) :
    RollsBack env before disk' ∧ NoOrphan before disk' := by
  obtain ⟨record, state, hrecord, hjournalled, hstate⟩ := hjournal
  have hjournalled' : JournalSays record state disk' := h.same.journal.trans hjournalled
  refine ⟨Or.inr (Or.inr ⟨record, state, hrecord, hjournalled', h.restorable, hstate⟩), ?_⟩
  intro hpending
  rw [journalState_congr h.same.journal] at hpending
  exact Or.inr (Or.inr (h.gone hpending))

theorem always_restoreFiles (hrecord : IsRecordFor env before record)
    (hrestorable : Restorable before disk) (hpending : journalState disk = some .rollbackPending)
    (hnoOrphan : NoOrphan before disk)
    (hmid : ∀ disk', SameOutside disk disk' → Restorable before disk' → mid disk') :
    (restoreFiles record (.bak .config) (.bak .dict)).Always (effect (tolerable before)) mid
      (RolledBack before disk) disk := by
  have hnow := hmid disk (SameOutside.refl disk) hrestorable
  have hrollback := always_rollbackToBackup hrecord hrestorable hmid
  apply Program.always_bind
  refine always_fileExists_getD hnow id fun configFound hconfigFound => ?_
  rw [hconfigFound]
  apply Program.always_bind
  cases hconfig : disk (.bak .config) with
  | some saved => exact Program.always_pure hnow hrollback
  | none =>
      refine always_fileExists_getD hnow id fun dictFound hdictFound => ?_
      rw [hdictFound]
      cases hdict : disk (.bak .dict) with
      | some saved => exact hrollback
      | none =>
          -- without backups the files are in their places
          have hgone : Gone before disk := by
            rcases hnoOrphan hpending with hsome | hsome | hgone
            · rw [hconfig] at hsome
              cases hsome
            · rw [hdict] at hsome
              cases hsome
            · exact hgone
          have hrestored : Restored before disk := by
            intro which
            cases hbefore : before which with
            | none => exact hgone which hbefore
            | some data =>
                rcases hrestorable which data hbefore with hbak | ⟨-, hlive⟩
                · cases which with
                  | config =>
                      rw [hconfig] at hbak
                      cases hbak
                  | dict =>
                      rw [hdict] at hbak
                      cases hbak
                · exact hlive
          have hpost : ∀ ok, RolledBack before disk ok disk := fun _ =>
            ⟨SameOutside.refl disk, hrestorable, fun _ => hrestored, fun _ => hgone⟩
          rw [Option.isSome_none, if_neg Bool.false_ne_true]
          apply Program.always_bind
          apply always_readFileBytes hnow
          · apply Program.always_bind
            apply always_readFileBytes hnow
            · exact Program.always_pure hnow (hpost _)
            · exact fun _ => Program.always_pure hnow (hpost _)
          · intro _
            apply Program.always_bind
            apply always_readFileBytes hnow
            · exact Program.always_pure hnow (hpost _)
            · exact fun _ => Program.always_pure hnow (hpost _)

/-! ## Recovery -/

/-- Both files are as before, and a journal that is left leads back to them. -/
structure Idle (env : TransactionEnv) (before : LexiconFile → Option Bytes)
    (disk : Disk) : Prop where
  restored : Restored before disk
  journal : disk .journal = none ∨ JournalRollsBack env before disk ∧ Restorable before disk

/-- What a recovery achieves. -/
structure Recovered (env : TransactionEnv) (before : LexiconFile → Option Bytes) (ok : Bool)
    (disk : Disk) : Prop where
  rollsBack : RollsBack env before disk
  noOrphan : NoOrphan before disk
  idle : ok = true → Idle env before disk

theorem Settled.idle (h : Settled env before disk) : Idle env before disk :=
  ⟨h.restored, h.journal.imp_right fun hjournal => ⟨hjournal, h.restorable⟩⟩

theorem Settled.recovered (h : Settled env before disk) (ok : Bool) :
    Recovered env before ok disk :=
  ⟨h.rollsBack, h.noOrphan, fun _ => h.idle⟩

theorem RolledBack.recovered {disk' : Disk} (h : RolledBack before disk false disk')
    (hjournal : JournalRollsBack env before disk) : Recovered env before false disk' :=
  ⟨(h.rollsBack hjournal).1, (h.rollsBack hjournal).2, fun hfalse => Bool.noConfusion hfalse⟩

/-- In the middle of a roll-back the files can be rolled back. -/
theorem rollsBack_of_sameOutside {disk' : Disk} (hjournal : JournalRollsBack env before disk)
    (hsame : SameOutside disk disk') (hrestorable : Restorable before disk') :
    RollsBack env before disk' := by
  obtain ⟨record, state, hrecord, hjournalled, hstate⟩ := hjournal
  exact Or.inr
    (Or.inr ⟨record, state, hrecord, hsame.journal.trans hjournalled, hrestorable, hstate⟩)

theorem always_recoverPrepared (hrecord : IsRecordFor env before record)
    (hjournal : JournalRollsBack env before disk) (hrestorable : Restorable before disk) :
    (recoverPrepared record (.tmp .config) (.tmp .dict) (.bak .config) (.bak .dict)).Always
      (effect (tolerable before)) (RollsBack env before) (Recovered env before) disk := by
  apply Program.always_bind
  refine (always_rollbackToBackup hrecord hrestorable
    fun disk' => rollsBack_of_sameOutside hjournal).post_mono ?_
  intro ok disk' hmid hdone
  cases ok with
  | false => exact Program.always_pure hmid (hdone.recovered hjournal)
  | true =>
      apply Program.always_bind
      refine (always_removeAll_settled (by simp) (hdone.settled hjournal)).post_mono ?_
      exact fun _ disk'' hmid' hsettled => Program.always_pure hmid' (hsettled.recovered true)

theorem always_notifyGeneration {generation : UInt8} {post : Bool → Disk → Prop} (hmid : mid disk)
    (hpost : ∀ answer, post answer disk) :
    (notifyGeneration record generation).Always (effect (tolerable before)) mid post disk := by
  rw [notifyGeneration]
  split_ifs
  · exact always_publishGeneration hmid hpost
  · exact Program.always_pure hmid (hpost true)

theorem pathOr_text (file : File) : pathOr env (env.paths.text file) file = file := by
  rw [pathOr]
  split_ifs
  · rfl
  · exact env.paths.file_text file

variable [UnicodePlatform]

theorem always_restoreWireMapping {post : Bool → Disk → Prop} (hmid : mid disk)
    (hpost : ∀ answer, post answer disk) :
    (restoreWireMapping env record).Always (effect (tolerable before)) mid post disk := by
  have hread : ∀ {file : File} {next : Bytes → FileProgram Bool},
      (∀ contents, (next contents).Always (effect (tolerable before)) mid post disk) →
        (readFileBytes file >>= next).Always (effect (tolerable before)) mid post disk := by
    intro file next hnext
    apply Program.always_bind
    exact always_readFileBytes hmid (hnext _) fun _ => hnext _
  rw [restoreWireMapping]
  split_ifs
  · apply hread
    intro config
    split
    · exact Program.always_pure hmid (hpost false)
    · apply Program.always_bind
      apply always_fileExists_any hmid
      intro found
      split_ifs
      · apply hread
        exact fun dict => always_publishWireMapping hmid hpost
      · exact always_publishWireMapping hmid hpost
  · exact Program.always_pure hmid (hpost true)

theorem always_recoverRollbackPending (hrecord : IsRecordFor env before record)
    (hjournal : JournalRollsBack env before disk) (hrestorable : Restorable before disk)
    (hpending : journalState disk = some .rollbackPending) (hnoOrphan : NoOrphan before disk) :
    (recoverRollbackPending env record (.tmp .config) (.tmp .dict) (.bak .config)
      (.bak .dict)).Always (effect (tolerable before)) (RollsBack env before) (Recovered
      env before) disk := by
  apply Program.always_bind
  refine (always_restoreFiles hrecord hrestorable hpending hnoOrphan
    fun disk' => rollsBack_of_sameOutside hjournal).post_mono ?_
  intro ok disk' hmid hdone
  cases ok with
  | false => exact Program.always_pure hmid (hdone.recovered hjournal)
  | true =>
      have hsettled := hdone.settled hjournal
      apply Program.always_bind
      apply always_notifyGeneration hmid
      intro published
      cases published with
      | false => exact Program.always_pure hmid (hsettled.recovered false)
      | true =>
          apply Program.always_bind
          apply always_restoreWireMapping hmid
          intro wireRestored
          cases wireRestored with
          | false => exact Program.always_pure hmid (hsettled.recovered false)
          | true =>
              apply Program.always_bind
              refine (always_removeAll_settled (by simp) hsettled).post_mono ?_
              exact fun _ disk'' hmid' hsettled' =>
                Program.always_pure hmid' (hsettled'.recovered true)

/-- A recovery of files that can be rolled back rolls them back, and leaves them so that they can be
rolled back if it fails. -/
theorem always_recoverIfNeeded (h : RollsBack env before disk) (hnoOrphan : NoOrphan before disk) :
    (recoverIfNeeded env).Always (effect (tolerable before)) (RollsBack env before)
    (Recovered env before)
      disk := by
  have hrefused : Recovered env before false disk :=
    ⟨h, hnoOrphan, fun hfalse => Bool.noConfusion hfalse⟩
  apply Program.always_bind
  refine always_fileExists_getD h id fun quarantined hquarantined => ?_
  rw [hquarantined]
  by_cases hcorrupt : (disk .corrupt).isSome = true
  · rw [if_pos hcorrupt]
    exact Program.always_pure h hrefused
  · rw [if_neg hcorrupt]
    apply Program.always_bind
    refine always_fileExists_getD h id fun pending hpending => ?_
    rw [hpending]
    rcases h.resolve_left hcorrupt with ⟨hnone, hrestored⟩ | ⟨record, state, hrecord,
      hjournalled, hrestorable, hstate⟩
    · rw [hnone]
      exact Program.always_pure h ⟨h, hnoOrphan, fun _ => ⟨hrestored, Or.inl hnone⟩⟩
    · have hknown : state ≠ .unknown := by
        rcases hstate with rfl | rfl <;> decide
      have hjournal : JournalRollsBack env before disk :=
        ⟨record, state, hrecord, hjournalled, hstate⟩
      have hrecord' := hrecord.withState state
      have hread := hjournalled.deserialize hrecord hknown
      have hsome : (disk .journal).isSome = true := by
        rw [hjournalled]
        rfl
      rw [hsome]
      apply Program.always_bind
      apply always_readFileBytes h
      · have htext : LexiconJournalRecord.deserialize ((disk .journal).getD []) =
            some { record with state } := by
          rw [hjournalled, Option.bind_some] at hread
          rw [hjournalled]
          exact hread
        rw [htext]
        dsimp only
        have hconfigBak : pathOr env record.configBakPath (.bak .config) = .bak .config := by
          rw [hrecord.configBakPath, pathOr_text]
        have hdictBak : pathOr env record.dictBakPath (.bak .dict) = .bak .dict := by
          rw [hrecord.dictBakPath, pathOr_text]
        have hconfigTmp : pathOr env record.configTmpPath (.tmp .config) = .tmp .config := by
          rw [hrecord.configTmpPath, pathOr_text]
        have hdictTmp : pathOr env record.dictTmpPath (.tmp .dict) = .tmp .dict := by
          rw [hrecord.dictTmpPath, pathOr_text]
        rw [hconfigBak, hdictBak, hconfigTmp, hdictTmp]
        rcases hstate with rfl | rfl
        · exact always_recoverPrepared hrecord' hjournal hrestorable
        · exact always_recoverRollbackPending hrecord' hjournal hrestorable
            (hjournalled.journalState_eq hrecord hknown) hnoOrphan
      · -- a journal that cannot be read is put aside
        intro _
        have hempty : LexiconJournalRecord.deserialize [] = none := rfl
        rw [hempty]
        dsimp only
        apply Program.always_bind
        apply always_rename h
        · intro data _
          have haside : Recovered env before false
              (Function.update (Function.update disk .journal none) .corrupt (some data)) := by
            refine ⟨Or.inl ?_, ?_, fun hfalse => Bool.noConfusion hfalse⟩
            · rw [Function.update_self]
              rfl
            · intro hpending
              rw [journalState_of_none (by simp)] at hpending
              cases hpending
          exact ⟨haside.rollsBack, Program.always_pure haside.rollsBack haside⟩
        · rintro (hnone | htolerated)
          · rw [hnone] at hsome
            cases hsome
          · -- and if that fails it is removed, if the files are as before
            have hsettled : Settled env before disk :=
              ⟨htolerated, hrestorable, Or.inr hjournal⟩
            have hremoved : Settled env before (Function.update disk .journal none) :=
              hsettled.remove fun _ => File.noConfusion
            rw [if_neg Bool.false_ne_true]
            apply Program.always_bind
            apply always_remove h
            · exact ⟨hremoved.rollsBack,
                Program.always_pure hremoved.rollsBack (hremoved.recovered false)⟩
            · exact fun _ => Program.always_pure h hrefused

end Rollback

end VKey
