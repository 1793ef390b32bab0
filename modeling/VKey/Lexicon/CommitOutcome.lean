import VKey.Lexicon.CommitSteps

/-!
# The outcome of a lexicon transaction

A transaction that reports success has installed the new contents of both files.  One that reports a
failure leaves files that the next recovery rolls back.  One that is stopped on the way leaves files
that the next recovery rolls back or completes, both of them.
-/

namespace VKey

/-! ## Replacing one file -/

section ReplaceFile

variable {before : LexiconFile → Option Bytes} {which : LexiconFile} {data : Bytes}
  {mid : Disk → Prop} {disk disk' disk'' : Disk}

/-- Only the file, its temporary file and its backup differ. -/
def SameApart (which : LexiconFile) (disk disk' : Disk) : Prop :=
  ∀ file, file ≠ .live which → file ≠ .tmp which → file ≠ .bak which → disk' file = disk file

theorem SameApart.refl (which : LexiconFile) (disk : Disk) : SameApart which disk disk :=
  fun _ _ _ _ => rfl

/-- What the replacement of a file achieves. -/
structure FileReplaced (before : LexiconFile → Option Bytes) (which : LexiconFile) (data : Bytes)
    (disk : Disk) (ok : Bool) (disk' : Disk) : Prop where
  same : SameApart which disk disk'
  backedUp : ∀ old, before which = some old → disk' (.bak which) = some old
  installed : ok = true → disk' (.live which) = some data

/-- The new contents are moved into their place. -/
theorem always_moveIn (hsame : SameApart which disk disk')
    (hbak : ∀ old, before which = some old → disk' (.bak which) = some old)
    (htmp : disk' (.tmp which) = some data)
    (hmid : ∀ disk', SameApart which disk disk' →
      (∀ old, before which = some old → disk' (.bak which) = some old) → mid disk') :
    (durableAtomicRename (.tmp which) (.live which)).Always (effect (tolerable before)) mid
      (FileReplaced before which data disk) disk' := by
  apply always_rename (hmid disk' hsame hbak)
  · intro data' hdata'
    obtain rfl := Option.some.inj (htmp.symm.trans hdata')
    have hmoved : SameApart which disk
        (Function.update (Function.update disk' (.tmp which) none) (.live which) (some data)) := by
      intro file hlive htmp hbak
      rw [Function.update_of_ne hlive, Function.update_of_ne htmp, hsame file hlive htmp hbak]
    have hbak' : ∀ old, before which = some old →
        Function.update (Function.update disk' (.tmp which) none) (.live which) (some data)
          (.bak which) = some old := by
      intro old hold
      rw [Function.update_of_ne File.noConfusion, Function.update_of_ne File.noConfusion,
        hbak old hold]
    exact ⟨hmid _ hmoved hbak', hmoved, hbak', fun _ => Function.update_self ..⟩
  · exact fun _ => ⟨hsame, hbak, fun hfalse => Bool.noConfusion hfalse⟩

/-- Behind a journal a file is replaced, and its old contents stay in the backup. -/
theorem always_replaceOrMove (platform : Platform) (hjournal : disk .journal ≠ none)
    (hlive : disk (.live which) = before which) (htmp : disk (.tmp which) = some data)
    (hbak : ∀ old, before which = some old → disk (.bak which) = some old)
    (hmid : ∀ disk', SameApart which disk disk' →
      (∀ old, before which = some old → disk' (.bak which) = some old) → mid disk') :
    (replaceOrMove platform (.tmp which) (.live which) (.bak which) (before which).isSome).Always
      (effect (tolerable before)) mid (FileReplaced before which data disk) disk := by
  have hrefl := SameApart.refl which disk
  cases hbefore : before which with
  | none =>
      have hmove := always_moveIn hrefl hbak htmp hmid
      cases platform with
      | windows => exact hmove
      | posix => exact hmove
  | some old =>
      have holds : ∀ old', before which = some old' → some old = some old' := by
        intro old' hold'
        rw [← hbefore, hold']
      cases platform with
      | windows =>
          apply Program.always_bind
          have hnow := hmid disk hrefl hbak
          apply always_replaceFile hnow
          · intro old' data' hold' hdata'
            obtain rfl := Option.some.inj (htmp.symm.trans hdata')
            obtain rfl := Option.some.inj ((hlive.trans hbefore).symm.trans hold')
            have hsame : SameApart which disk (Function.update (Function.update
                (Function.update disk (.tmp which) none) (.bak which) (some old)) (.live which)
                  (some data)) := by
              intro file hlive htmp hbak
              rw [Function.update_of_ne hlive, Function.update_of_ne hbak,
                Function.update_of_ne htmp]
            have hkept : ∀ old', before which = some old' → Function.update (Function.update
                (Function.update disk (.tmp which) none) (.bak which) (some old)) (.live which)
                  (some data) (.bak which) = some old' := by
              intro old' hold'
              rw [Function.update_of_ne File.noConfusion, Function.update_self]
              exact holds old' hold'
            have hmid' := hmid _ hsame hkept
            exact ⟨hmid', Program.always_pure hmid'
              ⟨hsame, hkept, fun _ => Function.update_self ..⟩⟩
          · exact always_moveIn hrefl hbak htmp hmid
          · intro old' hold'
            obtain rfl := Option.some.inj ((hlive.trans hbefore).symm.trans hold')
            have hsame : SameApart which disk
                (Function.update (Function.update disk (.live which) none) (.bak which)
                  (some old)) := by
              intro file hlive _ hbak
              rw [Function.update_of_ne hbak, Function.update_of_ne hlive]
            have hkept : ∀ old', before which = some old' →
                Function.update (Function.update disk (.live which) none) (.bak which) (some old)
                  (.bak which) = some old' := by
              intro old' hold'
              rw [Function.update_self]
              exact holds old' hold'
            have htmp' : Function.update (Function.update disk (.live which) none) (.bak which)
                (some old) (.tmp which) = some data := by
              rw [Function.update_of_ne File.noConfusion, Function.update_of_ne File.noConfusion,
                htmp]
            exact ⟨hmid _ hsame hkept, always_moveIn hsame hkept htmp' hmid⟩
      | posix =>
          apply Program.always_bind
          apply always_copyFile (hmid disk hrefl hbak)
          · intro data' hdata'
            obtain rfl := Option.some.inj ((hlive.trans hbefore).symm.trans hdata')
            have hsame : SameApart which disk
                (Function.update disk (.bak which) (some old)) := by
              intro file _ _ hbak
              rw [Function.update_of_ne hbak]
            have hkept : ∀ old', before which = some old' →
                Function.update disk (.bak which) (some old) (.bak which) = some old' := by
              intro old' hold'
              rw [Function.update_self]
              exact holds old' hold'
            have htmp' : Function.update disk (.bak which) (some old) (.tmp which) = some data := by
              rw [Function.update_of_ne File.noConfusion, htmp]
            exact ⟨hmid _ hsame hkept, always_moveIn hsame hkept htmp' hmid⟩
          · exact fun _ => always_moveIn hrefl hbak htmp hmid
          · exact fun hnone => absurd hnone hjournal

end ReplaceFile

/-! ## Replacing both files -/

section ReplaceFiles

variable {env : TransactionEnv} {before : LexiconFile → Option Bytes} {request : CommitRequest}
  {record : LexiconJournalRecord} {mid : Disk → Prop} {disk disk' : Disk}

/-- The new contents are in both files. -/
def Installed (request : CommitRequest) (disk : Disk) : Prop :=
  ∀ which, disk (.live which) = some (request.newText which)

/-- Only the two files, their temporary files and their backups differ. -/
def SameBeyond (disk disk' : Disk) : Prop :=
  ∀ file, (∀ which, file ≠ .live which ∧ file ≠ .tmp which ∧ file ≠ .bak which) →
    disk' file = disk file

theorem SameApart.beyond {which : LexiconFile} (h : SameApart which disk disk') :
    SameBeyond disk disk' :=
  fun file hfile => h file (hfile which).1 (hfile which).2.1 (hfile which).2.2

theorem SameBeyond.journal (h : SameBeyond disk disk') : disk' .journal = disk .journal :=
  h .journal fun _ => ⟨File.noConfusion, File.noConfusion, File.noConfusion⟩

/-- What the replacement of both files achieves. -/
structure FilesReplaced (before : LexiconFile → Option Bytes) (request : CommitRequest)
    (disk : Disk) (ok : Bool) (disk' : Disk) : Prop where
  same : SameBeyond disk disk'
  backedUp : BackedUp before disk'
  installed : ok = true → Installed request disk'

theorem always_replaceFiles (hjournal : disk .journal ≠ none) (hrestored : Restored before disk)
    (hstaged : Staged request disk) (hbackedUp : BackedUp before disk)
    (hmid : ∀ disk', SameBeyond disk disk' → BackedUp before disk' → mid disk') :
    (replaceFiles env (before .config).isSome (before .dict).isSome).Always
      (effect (tolerable before)) mid (FilesReplaced before request disk) disk := by
  have hconfig : ∀ disk', SameApart .config disk disk' →
      (∀ old, before .config = some old → disk' (.bak .config) = some old) →
        BackedUp before disk' := by
    intro disk' hsame hbak which
    cases which with
    | config => exact hbak
    | dict =>
        rw [hsame _ (by simp) (by simp) (by simp)]
        exact hbackedUp .dict
  apply Program.always_bind
  refine (always_replaceOrMove env.platform hjournal (hrestored .config) (hstaged .config)
    (hbackedUp .config) fun disk' hsame hbak =>
      hmid disk' hsame.beyond (hconfig disk' hsame hbak)).post_mono ?_
  intro configReplaced disk1 hmid1 hdone1
  have hbackedUp1 := hconfig disk1 hdone1.same hdone1.backedUp
  cases configReplaced with
  | false =>
      exact Program.always_pure hmid1
        ⟨hdone1.same.beyond, hbackedUp1, fun hfalse => Bool.noConfusion hfalse⟩
  | true =>
      have hother : ∀ file, file ≠ .live .config → file ≠ .tmp .config → file ≠ .bak .config →
          disk1 file = disk file := hdone1.same
      have hjournal1 : disk1 .journal ≠ none := by
        rw [hdone1.same.beyond.journal]
        exact hjournal
      have hlive1 : disk1 (.live .dict) = before .dict := by
        rw [hother _ (by simp) (by simp) (by simp)]
        exact hrestored .dict
      have htmp1 : disk1 (.tmp .dict) = some (request.newText .dict) := by
        rw [hother _ (by simp) (by simp) (by simp)]
        exact hstaged .dict
      have hdict : ∀ disk', SameApart .dict disk1 disk' →
          (∀ old, before .dict = some old → disk' (.bak .dict) = some old) →
            SameBeyond disk disk' ∧ BackedUp before disk' := by
        intro disk' hsame hbak
        constructor
        · intro file hfile
          rw [hsame.beyond file hfile, hdone1.same.beyond file hfile]
        · intro which
          cases which with
          | config =>
              rw [hsame _ (by simp) (by simp) (by simp)]
              exact hbackedUp1 .config
          | dict => exact hbak
      refine (always_replaceOrMove env.platform hjournal1 hlive1 htmp1 (hbackedUp1 .dict)
        fun disk' hsame hbak => hmid disk' (hdict disk' hsame hbak).1
          (hdict disk' hsame hbak).2).post_mono ?_
      intro dictReplaced disk2 _ hdone2
      obtain ⟨hsame2, hbackedUp2⟩ := hdict disk2 hdone2.same hdone2.backedUp
      refine ⟨hsame2, hbackedUp2, fun hok which => ?_⟩
      cases which with
      | config =>
          rw [hdone2.same _ (by simp) (by simp) (by simp)]
          exact hdone1.installed rfl
      | dict => exact hdone2.installed hok

end ReplaceFiles

/-! ## Files that hold the new contents -/

section Forward

variable {env : TransactionEnv} {before : LexiconFile → Option Bytes} {request : CommitRequest}
  {record : LexiconJournalRecord} {state : LexiconJournalState} {mid : Disk → Prop}
  {disk disk' : Disk}

/-- The record of the transaction that was asked for. -/
structure IsRecordOf (env : TransactionEnv) (before : LexiconFile → Option Bytes)
    (request : CommitRequest) (record : LexiconJournalRecord) : Prop where
  recordFor : IsRecordFor env before record
  newConfigHash : record.newConfigHash = computeHash request.newConfigToml
  newDictHash : record.newDictHash = computeHash request.newUserDictText

/-- The states of a transaction that has replaced both files. -/
def Replaces (state : LexiconJournalState) : Prop :=
  state = .filesReplaced ∨ state = .generationPublished ∨ state = .committed

theorem Replaces.known (h : Replaces state) : state ≠ .unknown := by
  rcases h with rfl | rfl | rfl <;> decide

/-- Both files hold the new contents, and a journal that is left leads forward. -/
structure RollsForward (env : TransactionEnv) (before : LexiconFile → Option Bytes)
    (request : CommitRequest) (disk : Disk) : Prop where
  installed : Installed request disk
  journal : disk .journal = none ∨ ∃ record state, IsRecordOf env before request record ∧
    JournalSays record state disk ∧ Replaces state

/-- What can be said of the files at every moment. -/
def AllOrNothing (env : TransactionEnv) (before : LexiconFile → Option Bytes)
    (request : CommitRequest) (disk : Disk) : Prop :=
  RollsBack env before disk ∨ RollsForward env before request disk

theorem RollsForward.of_entry (hinstalled : Installed request disk)
    (hrecord : IsRecordOf env before request record) (hjournalled : JournalSays record state disk)
    (hstate : Replaces state) : RollsForward env before request disk :=
  ⟨hinstalled, Or.inr ⟨record, state, hrecord, hjournalled, hstate⟩⟩

theorem Installed.congr (h : Installed request disk)
    (hsame : ∀ which, disk' (.live which) = disk (.live which)) : Installed request disk' := by
  intro which
  rw [hsame which]
  exact h which

theorem RollsForward.congr (h : RollsForward env before request disk)
    (hjournal : disk' .journal = disk .journal)
    (hsame : ∀ which, disk' (.live which) = disk (.live which)) :
    RollsForward env before request disk' := by
  refine ⟨h.installed.congr hsame, ?_⟩
  unfold JournalSays
  rw [hjournal]
  exact h.journal

theorem RollsForward.sameBut (h : RollsForward env before request disk) {file : File}
    (hjournal : file ≠ .journal) (hlive : ∀ which, file ≠ .live which)
    (hsame : SameBut file disk disk') : RollsForward env before request disk' :=
  h.congr (hsame _ hjournal.symm) fun which => hsame _ (hlive which).symm

theorem RollsForward.remove (h : RollsForward env before request disk) {file : File}
    (hlive : ∀ which, file ≠ .live which) :
    RollsForward env before request (Function.update disk file none) := by
  by_cases hjournal : file = .journal
  · refine ⟨h.installed.congr fun which => Function.update_of_ne (hlive which).symm _ _, Or.inl ?_⟩
    rw [hjournal, Function.update_self]
  · exact h.sameBut hjournal hlive (sameBut_update file disk none)

theorem always_removeAll_forward {tolerated : Call → Disk → Prop} {files : List File}
    (hfiles : ∀ file ∈ files, ∀ which, file ≠ .live which)
    (h : RollsForward env before request disk) :
    (removeAll files).Always (effect tolerated) (AllOrNothing env before request)
      (fun _ disk' => RollsForward env before request disk') disk :=
  always_removeAll (fun file hfile _ hforward => hforward.remove (hfiles file hfile))
    (fun _ hforward => Or.inr hforward) h

/-- Files other than the journal are removed while the journal stays. -/
theorem always_removeAll_entry {tolerated : Call → Disk → Prop} {files : List File}
    (hfiles : ∀ file ∈ files, file ≠ .journal ∧ ∀ which, file ≠ .live which)
    (h : RollsForward env before request disk) (hjournalled : JournalSays record state disk) :
    (removeAll files).Always (effect tolerated) (AllOrNothing env before request)
      (fun _ disk' => RollsForward env before request disk' ∧ JournalSays record state disk')
      disk := by
  have hkeeps : ∀ file ∈ files, ∀ disk',
      RollsForward env before request disk' ∧ JournalSays record state disk' →
        RollsForward env before request (Function.update disk' file none) ∧
          JournalSays record state (Function.update disk' file none) := by
    intro file hfile disk' hboth
    obtain ⟨hjournal, hlive⟩ := hfiles file hfile
    refine ⟨hboth.1.remove hlive, ?_⟩
    rw [JournalSays, Function.update_of_ne hjournal.symm]
    exact hboth.2
  exact always_removeAll hkeeps (fun _ hboth => Or.inr hboth.1) ⟨h, hjournalled⟩

/-- The journal goes on to another state of a transaction that has replaced both files. -/
theorem always_advance {next : LexiconJournalState} {post : Bool → Disk → Prop}
    (hrecord : IsRecordOf env before request record) (h : RollsForward env before request disk)
    (hnext : Replaces next)
    (hdone : ∀ disk', JournalSays record next disk' → RollsForward env before request disk' →
      post true disk')
    (hfail : JournalMayFail disk → ∀ disk', RollsForward env before request disk' →
      post false disk') :
    (transitionJournalState record next).Always (effect (tolerable before))
      (AllOrNothing env before request) post disk := by
  have hsame : ∀ {disk'}, SameBut .journalTmp disk disk' →
      RollsForward env before request disk' := by
    intro disk' hsame
    exact h.sameBut File.noConfusion (fun _ => File.noConfusion) hsame
  apply always_transitionJournalState
  · exact fun disk' hbut => Or.inr (hsame hbut)
  · intro disk' hentry hother
    have hforward : RollsForward env before request disk' := by
      refine RollsForward.of_entry (h.installed.congr fun which => ?_) hrecord hentry hnext
      exact hother _ File.noConfusion File.noConfusion
    exact ⟨Or.inr hforward, hdone disk' hentry hforward⟩
  · exact fun hmay disk' hbut => hfail hmay disk' (hsame hbut)

/-- A transaction that has been announced comes to its end. -/
theorem always_finishCommit (hrecord : IsRecordOf env before request record)
    (h : RollsForward env before request disk) (hentry : JournalSays record .filesReplaced disk) :
    (finishCommit record).Always (effect (tolerable before)) (AllOrNothing env before request)
      (fun ok disk' => ok = true ∧ RollsForward env before request disk') disk := by
  have hfixed : ∀ {state disk'}, JournalSays record state disk' →
      state = .filesReplaced ∨ state = .generationPublished → ¬JournalMayFail disk' := by
    rintro state disk' hentry' hstate ⟨hreplaced, hpublished⟩
    rcases hstate with rfl | rfl
    · exact hreplaced (hentry'.journalState_eq hrecord.recordFor (by decide))
    · exact hpublished (hentry'.journalState_eq hrecord.recordFor (by decide))
  apply Program.always_bind
  apply always_advance hrecord h (Or.inr (Or.inl rfl))
  · intro disk1 hentry1 h1
    apply Program.always_bind
    refine (always_removeAll_entry (by simp) h1 hentry1).post_mono ?_
    rintro - disk2 - ⟨h2, hentry2⟩
    apply Program.always_bind
    apply always_advance hrecord h2 (Or.inr (Or.inr rfl))
    · intro disk3 _ h3
      apply Program.always_bind
      refine (always_removeAll_forward (by simp) h3).post_mono ?_
      exact fun _ disk4 hmid4 h4 => Program.always_pure hmid4 ⟨rfl, h4⟩
    · exact fun hmay => absurd hmay (hfixed hentry2 (Or.inr rfl))
  · exact fun hmay => absurd hmay (hfixed hentry (Or.inl rfl))

end Forward

/-! ## Rolling back after the files have been replaced -/

section Abort

variable {env : TransactionEnv} {before : LexiconFile → Option Bytes} {request : CommitRequest}
  {record : LexiconJournalRecord} {disk disk' : Disk}

/-- The journal turns to rolling back. -/
theorem always_turnBack {post : Bool → Disk → Prop}
    (hrecord : IsRecordOf env before request record) (h : RollsForward env before request disk)
    (hentry : JournalSays record .filesReplaced disk) (hbackedUp : BackedUp before disk)
    (hdone : ∀ disk', JournalSays record .rollbackPending disk' → BackedUp before disk' →
      post true disk') :
    (transitionJournalState record .rollbackPending).Always (effect (tolerable before))
      (AllOrNothing env before request) post disk := by
  apply always_transitionJournalState
  · intro disk' hbut
    exact Or.inr (h.sameBut File.noConfusion (fun _ => File.noConfusion) hbut)
  · intro disk' hentry' hother
    have hbackedUp' : BackedUp before disk' := by
      intro which data hdata
      rw [hother _ File.noConfusion File.noConfusion]
      exact hbackedUp which data hdata
    have hback : RollsBack env before disk' := Or.inr (Or.inr
      ⟨record, .rollbackPending, hrecord.recordFor, hentry', hbackedUp'.restorable, Or.inr rfl⟩)
    exact ⟨Or.inl hback, hdone disk' hentry' hbackedUp'⟩
  · rintro ⟨hreplaced, -⟩
    exact absurd (hentry.journalState_eq hrecord.recordFor (by decide)) hreplaced

/-- The files are rolled back, and what is left is removed if that and the rest has succeeded. -/
theorem always_undo (cleans : Bool → Bool) {files : List File}
    (hcleans : ∀ restored, cleans restored = true → restored = true)
    (hfiles : ∀ file ∈ files, ∀ which, file ≠ .live which)
    (hrecord : IsRecordFor env before record) (hjournal : JournalRollsBack env before disk)
    (hrestorable : Restorable before disk) :
    (do
      let restored ← rollbackToBackup record (.bak .config) (.bak .dict)
      if cleans restored then do
        removeAll files
        return false
      else return false : FileProgram Bool).Always (effect (tolerable before))
      (AllOrNothing env before request)
      (fun ok disk' => ok = false ∧ Recovered env before false disk') disk := by
  apply Program.always_bind
  refine (always_rollbackToBackup hrecord hrestorable fun disk' hsame hrestorable' =>
    Or.inl (rollsBack_of_sameOutside hjournal hsame hrestorable')).post_mono ?_
  intro restored disk1 hmid1 hdone1
  by_cases hclean : cleans restored = true
  · rw [if_pos hclean]
    obtain rfl := hcleans restored hclean
    apply Program.always_bind
    refine ((always_removeAll_settled hfiles (hdone1.settled hjournal)).mono
      (fun _ hback => Or.inl hback) fun _ _ => id).post_mono ?_
    exact fun _ disk2 hmid2 hsettled => Program.always_pure hmid2 ⟨rfl, hsettled.recovered false⟩
  · rw [if_neg hclean]
    have hrecovered : Recovered env before false disk1 := by
      cases restored with
      | true => exact (hdone1.settled hjournal).recovered false
      | false => exact hdone1.recovered hjournal
    exact Program.always_pure hmid1 ⟨rfl, hrecovered⟩

theorem always_abortWire (hrecord : IsRecordOf env before request record)
    (h : RollsForward env before request disk) (hentry : JournalSays record .filesReplaced disk)
    (hbackedUp : BackedUp before disk) :
    (abortWire record).Always (effect (tolerable before)) (AllOrNothing env before request)
      (fun ok disk' => ok = false ∧ Recovered env before false disk') disk := by
  apply Program.always_bind
  apply always_turnBack hrecord h hentry hbackedUp
  intro disk' hentry' hbackedUp'
  exact always_undo id (fun _ => id) (by simp) hrecord.recordFor
    ⟨record, _, hrecord.recordFor, hentry', Or.inr rfl⟩ hbackedUp'.restorable

theorem always_publishGenerationThrice {generation : UInt8} {mid : Disk → Prop}
    {post : Bool → Disk → Prop} (hmid : mid disk) (hpost : ∀ answer, post answer disk) :
    (publishGenerationThrice generation).Always (effect (tolerable before)) mid post disk := by
  apply Program.always_bind
  refine always_publishGeneration hmid fun first => ?_
  split_ifs
  · exact Program.always_pure hmid (hpost true)
  · apply Program.always_bind
    refine always_publishGeneration hmid fun second => ?_
    split_ifs
    · exact Program.always_pure hmid (hpost true)
    · exact always_publishGeneration hmid hpost

theorem always_abortGeneration {wirePublished : Bool} {old : WireSnapshot}
    (hrecord : IsRecordOf env before request record)
    (h : RollsForward env before request disk) (hentry : JournalSays record .filesReplaced disk)
    (hbackedUp : BackedUp before disk) :
    (abortGeneration record wirePublished old).Always (effect (tolerable before))
      (AllOrNothing env before request)
      (fun ok disk' => ok = false ∧ Recovered env before false disk') disk := by
  apply Program.always_bind
  apply always_turnBack hrecord h hentry hbackedUp
  intro disk' hentry' hbackedUp'
  have hjournal : JournalRollsBack env before disk' :=
    ⟨record, _, hrecord.recordFor, hentry', Or.inr rfl⟩
  have hmid : AllOrNothing env before request disk' := Or.inl (Or.inr (Or.inr
    ⟨record, _, hrecord.recordFor, hentry', hbackedUp'.restorable, Or.inr rfl⟩))
  have hrest : ∀ wireRestored : Bool, (do
      let oldGenRestored ← publishGenerationThrice record.oldGeneration
      let restored ← rollbackToBackup record (.bak .config) (.bak .dict)
      if oldGenRestored && restored && wireRestored then do
        removeRolledBack
        return false
      else return false : FileProgram Bool).Always (effect (tolerable before))
      (AllOrNothing env before request)
      (fun ok disk' => ok = false ∧ Recovered env before false disk') disk' := by
    intro wireRestored
    apply Program.always_bind
    refine always_publishGenerationThrice hmid fun oldGenRestored => ?_
    refine always_undo (fun restored => oldGenRestored && restored && wireRestored) ?_ (by simp)
      hrecord.recordFor hjournal hbackedUp'.restorable
    intro restored hclean
    rw [Bool.and_eq_true, Bool.and_eq_true] at hclean
    exact hclean.1.2
  apply Program.always_bind
  split_ifs
  · exact always_publishWireMapping hmid hrest
  · exact Program.always_pure hmid (hrest true)

end Abort

/-! ## The whole transaction -/

section Commit

variable {env : TransactionEnv} {before : LexiconFile → Option Bytes} {request : CommitRequest}
  {record : LexiconJournalRecord} {disk : Disk}

/-- The failures of file operations that a transaction and its recovery survive. -/
def survivable (before : LexiconFile → Option Bytes) (c : Call) (disk : Disk) : Prop :=
  tolerable before c disk ∧
    match c with
    | .fileExists file => disk file = none
    | .readFile (.live _) => journalState disk ≠ some .filesReplaced
    | _ => True

/-- What a transaction achieves. -/
def Outcome (env : TransactionEnv) (before : LexiconFile → Option Bytes) (request : CommitRequest) :
    Bool → Disk → Prop
  | true, disk => RollsForward env before request disk
  | false, disk => Recovered env before false disk

theorem outcome_of_failed {ok : Bool} (h : ok = false ∧ Recovered env before false disk) :
    Outcome env before request ok disk := by
  obtain ⟨rfl, hrecovered⟩ := h
  exact hrecovered

theorem outcome_of_done {ok : Bool} (h : ok = true ∧ RollsForward env before request disk) :
    Outcome env before request ok disk := by
  obtain ⟨rfl, hforward⟩ := h
  exact hforward

theorem Recovered.failed {ok : Bool} (h : Recovered env before ok disk) :
    Recovered env before false disk :=
    ⟨h.rollsBack, h.noOrphan, fun hfalse => Bool.noConfusion hfalse⟩

theorem always_announceCommit {snapshot old : WireSnapshot}
    (hrecord : IsRecordOf env before request record) (h : RollsForward env before request disk)
    (hentry : JournalSays record .filesReplaced disk) (hbackedUp : BackedUp before disk) :
    (announceCommit env record snapshot old).Always (effect (tolerable before))
      (AllOrNothing env before request) (Outcome env before request) disk := by
  have hmid : AllOrNothing env before request disk := Or.inr h
  have hfinish : (finishCommit record).Always (effect (tolerable before))
      (AllOrNothing env before request) (Outcome env before request) disk :=
    (always_finishCommit hrecord h hentry).mono (fun _ => id) fun _ _ => outcome_of_done
  rw [announceCommit]
  by_cases hnotify : record.notifySharedState = true
  · rw [if_pos hnotify]
    have hpublish : ∀ wirePublished : Bool, (if !wirePublished then abortWire record
        else do
          let published ← publishGeneration record.newGeneration
          if !published then abortGeneration record env.hasWirePublisher old
          else finishCommit record : FileProgram Bool).Always (effect (tolerable before))
        (AllOrNothing env before request) (Outcome env before request) disk := by
      intro wirePublished
      cases wirePublished with
      | false =>
          exact (always_abortWire hrecord h hentry hbackedUp).mono (fun _ => id)
            fun _ _ => outcome_of_failed
      | true =>
          apply Program.always_bind
          refine always_publishGeneration hmid fun published => ?_
          cases published with
          | false =>
              exact (always_abortGeneration hrecord h hentry hbackedUp).mono (fun _ => id)
                fun _ _ => outcome_of_failed
          | true => exact hfinish
    apply Program.always_bind
    split_ifs
    · exact always_publishWireMapping hmid hpublish
    · exact Program.always_pure hmid (hpublish true)
  · rw [if_neg hnotify]
    exact hfinish

theorem isOneLine_computeHash (data : Bytes) :
    LexiconJournalRecord.IsOneLine (computeHash data) := by
  have hdigit : ∀ d < 16, hexDigit d ≠ 0x0A ∧ hexDigit d ≠ 0x0D := by decide
  have hmem : ∀ byte ∈ computeHash data, byte ≠ 0x0A ∧ byte ≠ 0x0D := by
    intro byte hbyte
    obtain ⟨i, -, rfl⟩ := List.mem_map.mp hbyte
    exact hdigit _ (Nat.mod_lt _ (by decide))
  exact ⟨fun h => (hmem _ h).1 rfl, fun h => (hmem _ h).2 rfl⟩

section Reads

variable {tolerated : Call → Disk → Prop} {mid : Disk → Prop}

/-- The hash of a file that exists, whatever has been read. -/
theorem always_oldHash {α : Type} {post : α → Disk → Prop} {existed : Bool} {which : LexiconFile}
    {next : Bytes → FileProgram α} (hmid : mid disk)
    (hnext : ∀ hash, LexiconJournalRecord.IsOneLine hash →
      (next hash).Always (effect tolerated) mid post disk) :
    ((if existed = true then do
        let contents ← readFileBytes (.live which)
        pure (computeHash contents)
      else pure [] : FileProgram Bytes) >>= next).Always (effect tolerated) mid post disk := by
  have hread : ∀ contents, (next (computeHash contents)).Always (effect tolerated) mid post disk :=
    fun contents => hnext _ (isOneLine_computeHash contents)
  apply Program.always_bind
  split_ifs
  · apply Program.always_bind
    apply always_readFileBytes hmid
    · exact Program.always_pure hmid (hread _)
    · exact fun _ => Program.always_pure hmid (hread _)
  · exact Program.always_pure hmid (hnext [] ⟨List.not_mem_nil, List.not_mem_nil⟩)

/-- The record of the transaction. -/
theorem always_prepareRecord {post : LexiconJournalRecord → Disk → Prop} (hmid : mid disk)
    (hpost : ∀ record, IsRecordOf env before request record → post record disk) :
    (prepareRecord env request (before .config).isSome (before .dict).isSome).Always
      (effect tolerated) mid post disk := by
  apply always_oldHash hmid
  intro oldConfigHash hconfig
  apply always_oldHash hmid
  intro oldDictHash hdict
  apply Program.always_pure hmid
  apply hpost
  refine ⟨⟨fun which => ?_, rfl, rfl, rfl, rfl, ?_⟩, rfl, rfl⟩
  · cases which <;> rfl
  · exact
      { oldConfigHash := hconfig
        newConfigHash := isOneLine_computeHash _
        oldDictHash := hdict
        newDictHash := isOneLine_computeHash _
        configBakPath := env.paths.oneLine _
        dictBakPath := env.paths.oneLine _
        configTmpPath := env.paths.oneLine _
        dictTmpPath := env.paths.oneLine _ }

end Reads

theorem effect_tolerable {c : Call} {answer : Call.Answer c} {disk disk' : Disk}
    (h : effect (survivable before) c disk answer disk') :
    effect (tolerable before) c disk answer disk' :=
  h.imp_right fun hboth => ⟨hboth.1.1, hboth.2⟩

/-- What is left of a transaction that has not replaced anything is removed. -/
theorem always_giveUp (h : Idle env before disk) :
    (do
      cleanStaleArtifacts
      return false : FileProgram Bool).Always (effect (survivable before))
      (AllOrNothing env before request) (Outcome env before request) disk := by
  have hremove : (cleanStaleArtifacts).Always (effect (survivable before))
      (AllOrNothing env before request) (fun _ disk' => Idle env before disk') disk := by
    refine always_removeAll ?_ (fun _ hidle => Or.inl hidle.rollsBack) h
    intro file hfile disk' hidle
    apply hidle.remove
    intro which hlive
    subst hlive
    simp at hfile
  apply Program.always_bind
  refine hremove.post_mono ?_
  exact fun _ disk' hmid hidle => Program.always_pure hmid (hidle.recovered false)

/-! ## Recovering forward -/

theorem IsRecordOf.withState (h : IsRecordOf env before request record)
    (state : LexiconJournalState) : IsRecordOf env before request { record with state } :=
  ⟨h.recordFor.withState state, h.newConfigHash, h.newDictHash⟩

theorem always_recoverGenerationPublished (hrecord : IsRecordOf env before request record)
    (h : RollsForward env before request disk) {state : LexiconJournalState}
    (hentry : JournalSays record state disk) :
    (recoverGenerationPublished record (.tmp .config) (.tmp .dict) (.bak .config)
      (.bak .dict)).Always (effect (tolerable before)) (AllOrNothing env before request)
      (fun _ disk' => RollsForward env before request disk') disk := by
  apply Program.always_bind
  refine (always_removeAll_entry (by simp) h hentry).post_mono ?_
  rintro - disk1 - ⟨h1, -⟩
  apply Program.always_bind
  apply always_advance hrecord h1 (Or.inr (Or.inr rfl))
  · intro disk2 _ h2
    have hremoved : RollsForward env before request (Function.update disk2 .journal none) :=
      h2.remove fun _ => File.noConfusion
    apply Program.always_bind
    apply always_remove (Or.inr h2)
    · exact ⟨Or.inr hremoved, Program.always_pure (Or.inr hremoved) hremoved⟩
    · exact fun _ => Program.always_pure (Or.inr h2) h2
  · exact fun _ disk2 h2 => Program.always_pure (Or.inr h2) h2

theorem always_recoverFilesReplaced (hrecord : IsRecordOf env before request record)
    (h : RollsForward env before request disk) (hentry : JournalSays record .filesReplaced disk) :
    (recoverFilesReplaced record (.tmp .config) (.tmp .dict) (.bak .config) (.bak .dict)).Always
      (effect (survivable before)) (AllOrNothing env before request)
      (fun _ disk' => RollsForward env before request disk') disk := by
  have hmid : AllOrNothing env before request disk := Or.inr h
  have hreadable : ∀ which, ¬survivable before (.readFile (.live which)) disk :=
    fun which hfails => hfails.2 (hentry.journalState_eq hrecord.recordFor (by decide))
  apply Program.always_bind
  apply always_readFileBytes hmid _ fun hfails => absurd hfails (hreadable .config)
  apply Program.always_bind
  apply always_readFileBytes hmid _ fun hfails => absurd hfails (hreadable .dict)
  have hsame : ¬(computeHash ((disk (.live .config)).getD []) ≠ record.newConfigHash ∨
      computeHash ((disk (.live .dict)).getD []) ≠ record.newDictHash) := by
    rw [h.installed .config, h.installed .dict, hrecord.newConfigHash, hrecord.newDictHash]
    simp [CommitRequest.newText]
  rw [if_neg hsame]
  apply Program.always_bind
  refine Program.Always.effect_mono ?_ fun _ _ _ _ => effect_tolerable
  apply always_notifyGeneration hmid
  rintro (_ | _)
  · exact Program.always_pure hmid h
  refine Program.Always.effect_mono ?_ fun _ _ _ _ => effect_tolerable
  apply Program.always_bind
  apply always_advance hrecord h (Or.inr (Or.inl rfl))
  · exact fun disk1 hentry1 h1 => always_recoverGenerationPublished hrecord h1 hentry1
  · exact fun _ disk1 h1 => Program.always_pure (Or.inr h1) h1

/-! ## The program of a transaction -/

variable [UnicodePlatform]

theorem always_replaceAndAnnounce {snapshot old : WireSnapshot}
    (hrecord : IsRecordOf env before request record) (hentry : JournalSays record .prepared disk)
    (hrestored : Restored before disk) (hstaged : Staged request disk)
    (hbackedUp : BackedUp before disk) :
    (replaceAndAnnounce env record snapshot old).Always (effect (tolerable before))
      (AllOrNothing env before request) (Outcome env before request) disk := by
  have hexisted : ∀ which, record.existedBefore which = (before which).isSome :=
    hrecord.recordFor.existed
  have hjournal : ∀ {disk'}, disk' .journal = disk .journal → JournalRollsBack env before disk' :=
    fun hsame => ⟨record, .prepared, hrecord.recordFor, hsame.trans hentry, Or.inl rfl⟩
  have hback : ∀ {disk'}, disk' .journal = disk .journal → BackedUp before disk' →
      RollsBack env before disk' := by
    intro disk' hsame hbackedUp'
    exact Or.inr (Or.inr ⟨record, .prepared, hrecord.recordFor, hsame.trans hentry,
      hbackedUp'.restorable, Or.inl rfl⟩)
  have hsome : disk .journal ≠ none := by
    rw [hentry]
    exact Option.some_ne_none _
  have hconfig : record.configExistedBefore = (before .config).isSome := hexisted .config
  have hdict : record.dictExistedBefore = (before .dict).isSome := hexisted .dict
  rw [replaceAndAnnounce, hconfig, hdict]
  apply Program.always_bind
  refine (always_replaceFiles hsome hrestored hstaged hbackedUp fun disk' hsame hbackedUp' =>
    Or.inl (hback hsame.journal hbackedUp')).post_mono ?_
  intro replaced disk1 hmid1 hdone1
  have hsame1 := hdone1.same.journal
  cases replaced with
  | false =>
      exact (always_undo id (fun _ => id) (by simp) hrecord.recordFor (hjournal hsame1)
        hdone1.backedUp.restorable).mono (fun _ => id) fun _ _ => outcome_of_failed
  | true =>
      apply Program.always_bind
      apply always_transitionJournalState
      · intro disk' hbut
        refine Or.inl (hback ((hbut _ File.noConfusion).trans hsame1) fun which data hdata => ?_)
        rw [hbut _ File.noConfusion]
        exact hdone1.backedUp which data hdata
      · intro disk' hentry' hother
        have hforward : RollsForward env before request disk' := by
          refine RollsForward.of_entry ((hdone1.installed rfl).congr fun which => ?_)
            hrecord hentry'
            (Or.inl rfl)
          exact hother _ File.noConfusion File.noConfusion
        have hbackedUp' : BackedUp before disk' := by
          intro which data hdata
          rw [hother _ File.noConfusion File.noConfusion]
          exact hdone1.backedUp which data hdata
        exact ⟨Or.inr hforward, always_announceCommit hrecord hforward hentry' hbackedUp'⟩
      · -- the journal still says that the transaction is prepared
        intro _ disk' hbut
        have hjournal' : disk' .journal = disk .journal := (hbut _ File.noConfusion).trans hsame1
        have hback' : RollsBack env before disk' := by
          refine hback hjournal' fun which data hdata => ?_
          rw [hbut _ File.noConfusion]
          exact hdone1.backedUp which data hdata
        have hnoOrphan : NoOrphan before disk' := by
          intro hpending
          rw [journalState_congr hjournal',
            hentry.journalState_eq hrecord.recordFor (by decide)] at hpending
          cases hpending
        apply Program.always_bind
        refine ((always_recoverIfNeeded hback' hnoOrphan).mono (fun _ hmid => Or.inl hmid)
          fun _ _ => id).post_mono ?_
        exact fun ok disk'' hmid hrecovered => Program.always_pure hmid hrecovered.failed

section Reads

variable {tolerated : Call → Disk → Prop} {mid : Disk → Prop}

/-- The wire mapping for the old files, whatever has been read. -/
theorem always_oldWireSnapshot {configExisted dictExisted : Bool} {oldGeneration : UInt8}
    {post : WireSnapshot → Disk → Prop} (hmid : mid disk) (hpost : ∀ old, post old disk) :
    (oldWireSnapshot env configExisted dictExisted oldGeneration).Always (effect tolerated) mid post
      disk := by
  have hread : ∀ {α : Type} {which : LexiconFile} {value : Bytes → α} {none : α} {existed : Bool}
      {next : α → FileProgram WireSnapshot},
      (∀ value, (next value).Always (effect tolerated) mid post disk) →
        ((if existed = true then do
            let contents ← readFileBytes (.live which)
            pure (value contents)
          else pure none : FileProgram α) >>= next).Always (effect tolerated) mid post disk := by
    intro α which value none existed next hnext
    apply Program.always_bind
    split_ifs
    · apply Program.always_bind
      apply always_readFileBytes hmid
      · exact Program.always_pure hmid (hnext _)
      · exact fun _ => Program.always_pure hmid (hnext _)
    · exact Program.always_pure hmid (hnext _)
  apply hread
  intro document
  apply hread
  intro words
  exact Program.always_pure hmid (hpost _)

end Reads

/-- A transaction leaves the old contents of both files or the new ones, at every moment and as it
reports. -/
theorem always_commitTransactionImpl (h : RollsBack env before disk)
    (hnoOrphan : NoOrphan before disk) :
    (commitTransactionImpl env request).Always (effect (survivable before))
      (AllOrNothing env before request) (Outcome env before request) disk := by
  have hmid : AllOrNothing env before request disk := Or.inl h
  have hrefused : Outcome env before request false disk :=
    ⟨h, hnoOrphan, fun hfalse => Bool.noConfusion hfalse⟩
  have hlocked : ∀ {next : Bool → FileProgram Bool},
      (∀ locked, (next locked).Always (effect (survivable before)) (AllOrNothing env before request)
        (Outcome env before request) disk) →
      ((if request.acquireLock then acquireLock else pure true) >>= next).Always
        (effect (survivable before)) (AllOrNothing env before request) (Outcome env before request)
          disk := by
    intro next hnext
    apply Program.always_bind
    split_ifs
    · exact always_acquireLock hmid hnext
    · exact Program.always_pure hmid (hnext true)
  apply hlocked
  rintro (_ | _)
  · exact Program.always_pure hmid hrefused
  apply Program.always_bind
  refine (((always_recoverIfNeeded h hnoOrphan).effect_mono fun _ _ _ _ => effect_tolerable).mono
    (fun _ hback => Or.inl hback) fun _ _ => id).post_mono ?_
  rintro (_ | _) disk1 hmid1 hrecovered1
  · exact Program.always_pure hmid1 hrecovered1
  have hidle1 := hrecovered1.idle rfl
  have hfailed1 : Outcome env before request false disk1 := hidle1.recovered false
  apply Program.always_bind
  have hconnected : ∀ {connect : FileProgram Bool} {post : Bool → Disk → Prop},
      connect = openSharedState ∨ connect = pure true → (∀ connected, post connected disk1) →
        connect.Always (effect (survivable before))
          (AllOrNothing env before request) post disk1 := by
    rintro connect post (rfl | rfl) hpost
    · exact always_openSharedState hmid1 hpost
    · exact Program.always_pure hmid1 (hpost true)
  refine hconnected (by split_ifs <;> simp) ?_
  rintro (_ | _)
  · exact Program.always_pure hmid1 hfailed1
  rw [Bool.not_true, if_neg Bool.false_ne_true]
  split
  · exact Program.always_pure hmid1 hfailed1
  next snapshot hpreflight =>
    apply Program.always_bind
    refine always_fileExists_getD hmid1 And.right fun configFound hconfigFound => ?_
    apply Program.always_bind
    refine always_fileExists_getD hmid1 And.right fun dictFound hdictFound => ?_
    rw [hidle1.restored .config] at hconfigFound
    rw [hidle1.restored .dict] at hdictFound
    dsimp only
    rw [hconfigFound, hdictFound]
    apply Program.always_bind
    refine always_oldWireSnapshot hmid1 fun old => ?_
    apply Program.always_bind
    refine ((always_writeAndBackUp hidle1 fun _ hidle => Or.inl hidle.rollsBack).effect_mono
      fun _ _ _ _ => effect_tolerable).post_mono ?_
    rintro (_ | _) disk2 hmid2 ⟨hidle2, hdone2⟩
    · exact always_giveUp hidle2
    obtain ⟨hstaged2, hbackedUp2⟩ := hdone2 rfl
    apply Program.always_bind
    refine always_prepareRecord hmid2 fun record hrecord => ?_
    apply Program.always_bind
    have hidle : ∀ {disk'}, SameBut .journalTmp disk2 disk' → Idle env before disk' :=
      fun hbut => hidle2.sameBut File.noConfusion (fun _ => File.noConfusion)
        (fun _ => File.noConfusion) hbut
    refine (always_transitionJournalState (fun disk' hbut => Or.inl (hidle hbut).rollsBack) ?_
      ?_).effect_mono fun _ _ _ _ => effect_tolerable
    · intro disk' hentry hother
      have hlive : Restored before disk' := by
        intro which
        rw [hother _ File.noConfusion File.noConfusion]
        exact hidle2.restored which
      have hstaged : Staged request disk' := by
        intro which
        rw [hother _ File.noConfusion File.noConfusion]
        exact hstaged2 which
      have hbackedUp : BackedUp before disk' := by
        intro which data hdata
        rw [hother _ File.noConfusion File.noConfusion]
        exact hbackedUp2 which data hdata
      have hback : RollsBack env before disk' := Or.inr (Or.inr
        ⟨record, .prepared, hrecord.recordFor, hentry, hbackedUp.restorable, Or.inl rfl⟩)
      exact ⟨Or.inl hback, (always_replaceAndAnnounce hrecord hentry hlive hstaged
        hbackedUp).effect_mono fun _ _ _ _ => effect_tolerable⟩
    · exact fun _ disk' hbut => always_giveUp (hidle hbut)

/-- A recovery of files that hold the new contents keeps them. -/
theorem always_recoverIfNeeded_forward (h : RollsForward env before request disk) :
    (recoverIfNeeded env).Always (effect (survivable before)) (AllOrNothing env before request)
      (fun _ disk' => RollsForward env before request disk') disk := by
  have hmid : AllOrNothing env before request disk := Or.inr h
  have hdone : ∀ ok : Bool, (pure ok : FileProgram Bool).Always (effect (survivable before))
      (AllOrNothing env before request)
        (fun _ disk' => RollsForward env before request disk') disk :=
    fun ok => Program.always_pure hmid h
  apply Program.always_bind
  refine always_fileExists_any hmid fun quarantined => ?_
  split_ifs
  · exact hdone false
  apply Program.always_bind
  refine always_fileExists_getD hmid And.right fun pending hpending => ?_
  rw [hpending]
  rcases h.journal with hnone | ⟨record, state, hrecord, hentry, hstate⟩
  · rw [hnone]
    exact hdone true
  have hread := hentry.deserialize hrecord.recordFor hstate.known
  have hsome : (disk .journal).isSome = true := by
    rw [hentry]
    rfl
  rw [hsome]
  apply Program.always_bind
  apply always_readFileBytes hmid
  · have htext : LexiconJournalRecord.deserialize ((disk .journal).getD []) =
        some { record with state } := by
      rw [hentry, Option.bind_some] at hread
      rw [hentry]
      exact hread
    rw [htext]
    dsimp only
    have hrecordFor := hrecord.recordFor
    have hconfigBak : pathOr env record.configBakPath (.bak .config) = .bak .config := by
      rw [hrecordFor.configBakPath, pathOr_text]
    have hdictBak : pathOr env record.dictBakPath (.bak .dict) = .bak .dict := by
      rw [hrecordFor.dictBakPath, pathOr_text]
    have hconfigTmp : pathOr env record.configTmpPath (.tmp .config) = .tmp .config := by
      rw [hrecordFor.configTmpPath, pathOr_text]
    have hdictTmp : pathOr env record.dictTmpPath (.tmp .dict) = .tmp .dict := by
      rw [hrecordFor.dictTmpPath, pathOr_text]
    rw [hconfigBak, hdictBak, hconfigTmp, hdictTmp]
    rcases hstate with rfl | rfl | rfl
    · exact always_recoverFilesReplaced (hrecord.withState _) h hentry
    · exact (always_recoverGenerationPublished (hrecord.withState _) h hentry).effect_mono
        fun _ _ _ _ => effect_tolerable
    · apply Program.always_bind
      refine (always_removeAll_forward (by simp) h).post_mono ?_
      exact fun _ disk1 hmid1 h1 => Program.always_pure hmid1 h1
  · -- a journal that cannot be read is put aside
    intro _
    have hempty : LexiconJournalRecord.deserialize [] = none := rfl
    rw [hempty]
    dsimp only
    have hremoved : RollsForward env before request (Function.update disk .journal none) :=
      h.remove fun _ => File.noConfusion
    apply Program.always_bind
    apply always_rename hmid
    · intro data _
      have haside := hremoved.sameBut File.noConfusion (fun _ => File.noConfusion)
        (sameBut_update .corrupt _ (some data))
      exact ⟨Or.inr haside, Program.always_pure (Or.inr haside) haside⟩
    · intro _
      apply Program.always_bind
      apply always_remove hmid
      · exact ⟨Or.inr hremoved, Program.always_pure (Or.inr hremoved) hremoved⟩
      · exact fun _ => hdone false

end Commit

/-! ## Runs -/

section Runs

variable {env : TransactionEnv} {request : CommitRequest}
  {disk crashed later after last : Disk} {ok : Bool}

/-- The contents of the files before a transaction. -/
def filesOf (disk : Disk) (which : LexiconFile) : Option Bytes := disk (.live which)

theorem rollsBack_of_none (h : disk .journal = none) :
    RollsBack env (filesOf disk) disk ∧ NoOrphan (filesOf disk) disk :=
  ⟨Or.inr (Or.inl ⟨h, fun _ => rfl⟩), fun _ => Or.inr (Or.inr fun _ => id)⟩

theorem noOrphan_of_both {before : LexiconFile → Option Bytes} (h : ∀ which, before which ≠ none)
    (disk : Disk) : NoOrphan before disk :=
  fun _ => Or.inr (Or.inr fun which hnone => absurd hnone (h which))

variable [UnicodePlatform]

/-- Recoveries that come to their end one after the other, whatever each of them returns. -/
def Recoveries (env : TransactionEnv) (before : LexiconFile → Option Bytes) : Disk → Disk → Prop :=
  Relation.ReflTransGen fun disk disk' =>
    ∃ ok, Program.Ends (effect (survivable before)) (recoverIfNeeded env) disk ok disk'

/-- A recovery leaves files that go back to the old ones so, and restores them if it returns
true. -/
theorem Recovered.recoverIfNeeded {before : LexiconFile → Option Bytes}
    (h : Recovered env before false after)
    (hends : Program.Ends (effect (survivable before)) (recoverIfNeeded env) after ok later) :
    Recovered env before ok later :=
  ((always_recoverIfNeeded h.rollsBack h.noOrphan).effect_mono fun _ _ _ _ => effect_tolerable).ends
    hends

theorem Recovered.recoveries {before : LexiconFile → Option Bytes}
    (h : Recovered env before false after) (hlater : Recoveries env before after later) :
    Recovered env before false later := by
  induction hlater with
  | refl => exact h
  | tail _ hends ih =>
      obtain ⟨ok, hends⟩ := hends
      exact (ih.recoverIfNeeded hends).failed

/-- A transaction that reports success has installed both new contents.  After one that reports a
failure, every later recovery that succeeds leaves both files as they were, whatever the recoveries
before it have returned. -/
theorem commitTransaction_reports (hjournal : disk .journal = none)
    (hcommit : Program.Ends (effect (survivable (filesOf disk))) (commitTransactionImpl env request)
      disk ok after) :
    (ok = true → Installed request after) ∧
      (ok = false → ∀ later last, Recoveries env (filesOf disk) after later →
        Program.Ends (effect (survivable (filesOf disk))) (recoverIfNeeded env) later true last →
          Restored (filesOf disk) last) := by
  obtain ⟨hback, hnoOrphan⟩ := @rollsBack_of_none env disk hjournal
  have houtcome : Outcome env (filesOf disk) request ok after :=
    (always_commitTransactionImpl hback hnoOrphan).ends hcommit
  constructor
  · rintro rfl
    exact RollsForward.installed houtcome
  · rintro rfl later last hlater hlast
    have hrecovered : Recovered env (filesOf disk) false after := houtcome
    exact (((hrecovered.recoveries hlater).recoverIfNeeded hlast).idle rfl).restored

/-- Where both files existed, a transaction is all or nothing: it may be stopped anywhere, and so
may any number of recoveries. -/
theorem commitTransaction_atomic (hjournal : disk .journal = none)
    (hboth : ∀ which, disk (.live which) ≠ none)
    (hcommit : Program.Stops (effect (survivable (filesOf disk)))
      (commitTransactionImpl env request) disk crashed)
    (hrecoveries : Relation.ReflTransGen
      (Program.Stops (effect (survivable (filesOf disk))) (recoverIfNeeded env)) crashed later)
    (hlast : Program.Ends (effect (survivable (filesOf disk))) (recoverIfNeeded env) later true
      last) :
    (Restored (filesOf disk) last ∨ Installed request last) ∧
      (journalState crashed = some .rollbackPending → Restored (filesOf disk) last) := by
  obtain ⟨hbefore, hnoOrphan⟩ := @rollsBack_of_none env disk hjournal
  have hback : ∀ {disk'}, RollsBack env (filesOf disk) disk' →
      (recoverIfNeeded env).Always (effect (survivable (filesOf disk)))
        (RollsBack env (filesOf disk)) (Recovered env (filesOf disk)) disk' :=
    fun h => (always_recoverIfNeeded h (noOrphan_of_both hboth _)).effect_mono
      fun _ _ _ _ => effect_tolerable
  have hcrashed : AllOrNothing env (filesOf disk) request crashed :=
    (always_commitTransactionImpl hbefore hnoOrphan).stops hcommit
  constructor
  · have hallOrNothing : AllOrNothing env (filesOf disk) request later := by
      refine Program.restarts_keep ?_ hrecoveries hcrashed
      rintro disk' (h | h)
      · exact ⟨_, (hback h).mono (fun _ => Or.inl) fun _ _ => id⟩
      · exact ⟨_, always_recoverIfNeeded_forward h⟩
    rcases hallOrNothing with h | h
    · exact Or.inl (((hback h).ends hlast).idle rfl).restored
    · exact Or.inr ((always_recoverIfNeeded_forward h).ends hlast).installed
  · intro hpending
    have hcrashed' : RollsBack env (filesOf disk) crashed := by
      refine hcrashed.resolve_right fun hforward => ?_
      rcases hforward.journal with hnone | ⟨record, state, hrecord, hentry, hstate⟩
      · rw [journalState_of_none hnone] at hpending
        cases hpending
      · rw [hentry.journalState_eq hrecord.recordFor hstate.known] at hpending
        obtain rfl := Option.some.inj hpending
        rcases hstate with hstate | hstate | hstate <;> cases hstate
    have hrollsBack : RollsBack env (filesOf disk) later :=
      Program.restarts_keep (fun _ h => ⟨_, hback h⟩) hrecoveries hcrashed'
    exact (((hback hrollsBack).ends hlast).idle rfl).restored

end Runs

/-! ## A transaction that is killed -/

/-- A byte in two letters. -/
def byteLetters (b : UInt8) : Bytes :=
  [UInt8.ofNat (0x41 + b.toNat / 16), UInt8.ofNat (0x41 + b.toNat % 16)]

def readLetters : Bytes → Bytes
  | high :: low :: rest =>
      UInt8.ofNat ((high.toNat - 0x41) * 16 + (low.toNat - 0x41)) :: readLetters rest
  | _ => []

theorem toNat_letter {n : Nat} (h : n < 16) : (UInt8.ofNat (0x41 + n)).toNat = 0x41 + n := by
  have hsize : UInt8.size = 256 := rfl
  exact UInt8.toNat_ofNat_of_lt' (by omega)

theorem readLetters_flatMap (path : Bytes) : readLetters (path.flatMap byteLetters) = path := by
  induction path with
  | nil => rfl
  | cons b path ih =>
      have hhigh : b.toNat / 16 < 16 := by
        have := b.toNat_lt
        omega
      have hlow : b.toNat % 16 < 16 := Nat.mod_lt _ (by omega)
      have hbyte : (0x41 + b.toNat / 16 - 0x41) * 16 + (0x41 + b.toNat % 16 - 0x41) = b.toNat := by
        omega
      rw [List.flatMap_cons]
      change (_ :: readLetters (path.flatMap byteLetters)) = _
      rw [ih, toNat_letter hhigh, toNat_letter hlow, hbyte, UInt8.ofNat_toNat]

theorem le_of_mem_flatMap {path : Bytes} {c : UInt8} (h : c ∈ path.flatMap byteLetters) :
    0x41 ≤ c.toNat := by
  obtain ⟨b, -, hc⟩ := List.mem_flatMap.mp h
  have hhigh : b.toNat / 16 < 16 := by
    have := b.toNat_lt
    omega
  have hlow : b.toNat % 16 < 16 := Nat.mod_lt _ (by omega)
  rcases List.mem_pair.mp hc with rfl | rfl
  · rw [toNat_letter hhigh]
    exact Nat.le_add_right _ _
  · rw [toNat_letter hlow]
    exact Nat.le_add_right _ _

/-- Paths in letters. -/
def letterPaths : JournalPaths where
  text
    | .live .config => [0x61]
    | .live .dict => [0x62]
    | .tmp .config => [0x63]
    | .tmp .dict => [0x64]
    | .bak .config => [0x65]
    | .bak .dict => [0x66]
    | .journal => [0x67]
    | .journalTmp => [0x68]
    | .corrupt => [0x69]
    | .other path => 0x6A :: path.flatMap byteLetters
  file
    | [0x61] => .live .config
    | [0x62] => .live .dict
    | [0x63] => .tmp .config
    | [0x64] => .tmp .dict
    | [0x65] => .bak .config
    | [0x66] => .bak .dict
    | [0x67] => .journal
    | [0x68] => .journalTmp
    | [0x69] => .corrupt
    | letters => .other (readLetters letters.tail)
  file_text f := by
    rcases f with (_ | _) | (_ | _) | (_ | _) | _ | _ | _ | path
    case other => exact congrArg File.other (readLetters_flatMap path)
    all_goals rfl
  oneLine f := by
    rcases f with (_ | _) | (_ | _) | (_ | _) | _ | _ | _ | path
    case other =>
      constructor
      · intro h
        rcases List.mem_cons.mp h with h | h
        · cases h
        · exact absurd (le_of_mem_flatMap h) (by decide)
      · intro h
        rcases List.mem_cons.mp h with h | h
        · cases h
        · exact absurd (le_of_mem_flatMap h) (by decide)
    all_goals exact ⟨by decide, by decide⟩

/-- Both files, and no journal. -/
def twoFiles : Disk
  | .live .config => some [0x61]
  | .live .dict => some [0x62, 0x63]
  | _ => none

def plainEnv : TransactionEnv where
  platform := .posix
  paths := letterPaths
  parseToml _ := some ⟨none, none, none⟩
  wireManagerGeneration := none
  hasWirePublisher := false
  testGenerationPublisher := true

def plainRequest : CommitRequest where
  newConfigToml := [0x78]
  newUserDictText := []
  oldGeneration := 1
  newGeneration := 2
  notifySharedState := true
  acquireLock := true

/-- The process is killed before the user dictionary is put in its place. -/
def killed : (c : Call) → Disk → Option (c.Answer × Disk)
  | .rename (.tmp .dict) _, _ => none
  | c, disk => some (perform c disk)

theorem killed_some {c : Call} {disk : Disk} {result : c.Answer × Disk}
    (h : killed c disk = some result) : result = perform c disk := by
  rw [killed.eq_def] at h
  split at h
  · cases h
  · exact (Option.some.inj h).symm

/-- The new config file is in its place and the old user dictionary in its own. -/
def killedDisk : Disk :=
  ((@commitTransactionImpl fallbackPlatform plainEnv plainRequest).exec killed twoFiles).2

def recoveredDisk : Disk := ((@recoverIfNeeded fallbackPlatform plainEnv).run perform killedDisk).2

theorem commitTransaction_atomic_killed :
    (Restored (filesOf twoFiles) recoveredDisk ∨ Installed plainRequest recoveredDisk) ∧
      (journalState killedDisk = some .rollbackPending →
        Restored (filesOf twoFiles) recoveredDisk) := by
  let _ := fallbackPlatform
  have hkilled : ∀ c disk result, killed c disk = some result →
      effect (survivable (filesOf twoFiles)) c disk result.1 result.2 := by
    intro c disk result hresult
    rw [killed_some hresult]
    exact Or.inl (succeeds_perform c disk)
  have hcommit : Program.Stops (effect (survivable (filesOf twoFiles)))
      (commitTransactionImpl plainEnv plainRequest) twoFiles killedDisk :=
    Program.stops_exec hkilled _ _
  have hok : ((recoverIfNeeded plainEnv).run perform killedDisk).1 = true := by decide +kernel
  have heffect : ∀ c disk,
      effect (survivable (filesOf twoFiles)) c disk (perform c disk).1 (perform c disk).2 :=
    fun c disk => Or.inl (succeeds_perform c disk)
  have hlast := Program.ends_run heffect (recoverIfNeeded plainEnv) killedDisk
  rw [hok] at hlast
  refine commitTransaction_atomic rfl ?_ hcommit .refl hlast
  rintro (_ | _)
  · exact Option.some_ne_none _
  · exact Option.some_ne_none _

/-- The new user dictionary cannot be moved to its place, nor the old config file back to its
own. -/
def locked : (c : Call) → Disk → c.Answer × Disk
  | .rename (.tmp .dict) (.live .dict), disk => (false, disk)
  | .rename (.bak .config) (.live .config), disk => (false, disk)
  | c, disk => perform c disk

/-- The transaction and the recovery behind it have reported a failure, and the config file holds
the new contents. -/
def lockedDisk : Disk :=
  ((@recoverIfNeeded fallbackPlatform plainEnv).run locked
    ((@commitTransactionImpl fallbackPlatform plainEnv plainRequest).run locked twoFiles).2).2

/-- The transaction that succeeds installs both files.  The one that fails, and a recovery that
fails too, leave the new config file behind; the recovery that succeeds brings the old one back. -/
theorem commitTransaction_reports_locked :
    Installed plainRequest
        ((@commitTransactionImpl fallbackPlatform plainEnv plainRequest).run perform twoFiles).2 ∧
      lockedDisk (.live .config) = some [0x78] ∧
      Restored (filesOf twoFiles)
        ((@recoverIfNeeded fallbackPlatform plainEnv).run perform lockedDisk).2 := by
  let _ := fallbackPlatform
  have heffect : ∀ c disk,
      effect (survivable (filesOf twoFiles)) c disk (perform c disk).1 (perform c disk).2 :=
    fun c disk => Or.inl (succeeds_perform c disk)
  have hlocked : ∀ c disk,
      effect (survivable (filesOf twoFiles)) c disk (locked c disk).1 (locked c disk).2 := by
    intro c disk
    unfold locked
    split
    · exact Or.inr ⟨⟨trivial, trivial⟩, rfl, rfl⟩
    · exact Or.inr ⟨⟨trivial, trivial⟩, rfl, rfl⟩
    · exact heffect _ _
  have hok : ((commitTransactionImpl plainEnv plainRequest).run perform twoFiles).1 = true := by
    decide +kernel
  have hfailed : ((commitTransactionImpl plainEnv plainRequest).run locked twoFiles).1 = false := by
    decide +kernel
  have hrecovered : ((recoverIfNeeded plainEnv).run perform lockedDisk).1 = true := by
    decide +kernel
  have hcommit := Program.ends_run heffect (commitTransactionImpl plainEnv plainRequest) twoFiles
  have hcommitLocked :=
    Program.ends_run hlocked (commitTransactionImpl plainEnv plainRequest) twoFiles
  have hlast := Program.ends_run heffect (recoverIfNeeded plainEnv) lockedDisk
  rw [hrecovered] at hlast
  exact ⟨(commitTransaction_reports rfl hcommit).1 hok, by decide +kernel,
    (commitTransaction_reports rfl hcommitLocked).2 hfailed _ _
      (.single ⟨_, Program.ends_run hlocked (recoverIfNeeded plainEnv) _⟩) hlast⟩

end VKey
