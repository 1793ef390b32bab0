import VKey.Lexicon.Rollback

/-!
# The steps of a lexicon transaction

Up to the journal entry that both files are replaced, the files can be rolled back.  From then on
they hold the new contents.
-/

namespace VKey

/-! ## Journal writes -/

section Transition

variable {before : LexiconFile → Option Bytes} {mid : Disk → Prop} {post : Bool → Disk → Prop}
  {disk : Disk}

/-- Only the file differs. -/
def SameBut (file : File) (disk disk' : Disk) : Prop :=
  ∀ other, other ≠ file → disk' other = disk other

theorem SameBut.refl (file : File) (disk : Disk) : SameBut file disk disk := fun _ _ => rfl

theorem sameBut_update (file : File) (disk : Disk) (contents : Option Bytes) :
    SameBut file disk (Function.update disk file contents) :=
  fun _ hother => Function.update_of_ne hother _ _

theorem always_transitionJournalState {record : LexiconJournalRecord}
    {state : LexiconJournalState} (hmid : ∀ disk', SameBut .journalTmp disk disk' → mid disk')
    (hdone : ∀ disk', JournalSays record state disk' →
      (∀ file, file ≠ .journal → file ≠ .journalTmp → disk' file = disk file) →
        mid disk' ∧ post true disk')
    (hfail : JournalMayFail disk → ∀ disk', SameBut .journalTmp disk disk' → post false disk') :
    (transitionJournalState record state).Always (effect (tolerable before)) mid post disk := by
  have hjournal : ∀ {disk'}, SameBut .journalTmp disk disk' →
      (JournalMayFail disk' ↔ JournalMayFail disk) := by
    intro disk' hsame
    rw [JournalMayFail, journalState_congr (hsame .journal File.noConfusion), ← JournalMayFail]
  apply Program.always_bind
  apply always_durableWrite (hmid disk (SameBut.refl _ disk))
  · have hwritten := sameBut_update .journalTmp disk
      (some ({ record with state } : LexiconJournalRecord).serialize)
    refine ⟨hmid _ hwritten, ?_⟩
    rw [if_pos rfl]
    apply always_rename (hmid _ hwritten)
    · intro data hdata
      rw [Function.update_self] at hdata
      obtain rfl := Option.some.inj hdata
      apply hdone
      · exact Function.update_self ..
      · intro file hnotJournal hnotTmp
        rw [Function.update_of_ne hnotJournal, Function.update_of_ne hnotTmp,
          Function.update_of_ne hnotTmp]
    · rintro (hnone | htolerated)
      · rw [Function.update_self] at hnone
        cases hnone
      · exact hfail ((hjournal hwritten).mp htolerated) _ hwritten
  · intro htolerated contents
    have hwritten := sameBut_update .journalTmp disk contents
    rw [if_neg Bool.false_ne_true]
    exact ⟨hmid _ hwritten, Program.always_pure (hmid _ hwritten) (hfail htolerated _ hwritten)⟩

end Transition

/-! ## Before the journal is written -/

section Staging

variable {env : TransactionEnv} {before : LexiconFile → Option Bytes} {request : CommitRequest}
  {mid : Disk → Prop} {disk : Disk}

theorem Idle.rollsBack (h : Idle env before disk) : RollsBack env before disk := by
  rcases h.journal with hnone | ⟨⟨record, state, hrecord, hjournalled, hstate⟩, hrestorable⟩
  · exact Or.inr (Or.inl ⟨hnone, h.restored⟩)
  · exact Or.inr (Or.inr ⟨record, state, hrecord, hjournalled, hrestorable, hstate⟩)

theorem Idle.recovered (h : Idle env before disk) (ok : Bool) : Recovered env before ok disk where
  rollsBack := h.rollsBack
  noOrphan _ := Or.inr (Or.inr h.restored.gone)
  idle _ := h

/-- Writing a file that is no backup changes nothing. -/
theorem Idle.write (h : Idle env before disk) {file : File} (hjournal : file ≠ .journal)
    (hlive : ∀ which, file ≠ .live which) (hbak : ∀ which, file ≠ .bak which)
    (contents : Option Bytes) : Idle env before (Function.update disk file contents) where
  restored which := by
    rw [Function.update_of_ne (hlive which).symm]
    exact h.restored which
  journal := by
    rw [JournalRollsBack]
    unfold JournalSays
    rw [Function.update_of_ne hjournal.symm]
    refine h.journal.imp_right fun hboth => ⟨hboth.1, fun which data hdata => ?_⟩
    rw [Function.update_of_ne (hbak which).symm, Function.update_of_ne (hlive which).symm]
    exact hboth.2 which data hdata

theorem Idle.sameBut (h : Idle env before disk) {file : File} {disk' : Disk}
    (hjournal : file ≠ .journal) (hlive : ∀ which, file ≠ .live which)
    (hbak : ∀ which, file ≠ .bak which) (hsame : SameBut file disk disk') :
    Idle env before disk' := by
  have hupdate : disk' = Function.update disk file (disk' file) := by
    funext other
    by_cases hother : other = file
    · rw [hother, Function.update_self]
    · rw [Function.update_of_ne hother, hsame other hother]
  rw [hupdate]
  exact h.write hjournal hlive hbak _

theorem Idle.remove (h : Idle env before disk) {file : File} (hlive : ∀ which, file ≠ .live which) :
    Idle env before (Function.update disk file none) := by
  rcases h.journal with hnone | ⟨hjournal, hrestorable⟩
  · refine ⟨fun which => ?_, Or.inl ?_⟩
    · rw [Function.update_of_ne (hlive which).symm]
      exact h.restored which
    · by_cases hfile : file = .journal
      · rw [hfile, Function.update_self]
      · rw [Function.update_of_ne (Ne.symm hfile), hnone]
  · exact (Settled.remove ⟨h.restored, hrestorable, Or.inr hjournal⟩ hlive).idle

/-- Every file that existed is in its backup. -/
def BackedUp (before : LexiconFile → Option Bytes) (disk : Disk) : Prop :=
  ∀ which data, before which = some data → disk (.bak which) = some data

theorem BackedUp.restorable (h : BackedUp before disk) : Restorable before disk :=
  fun which data hdata => Or.inl (h which data hdata)

/-- The new contents are in the temporary files. -/
def Staged (request : CommitRequest) (disk : Disk) : Prop :=
  ∀ which, disk (.tmp which) = some (request.newText which)

/-- Copy a file to its backup, if it exists. -/
theorem always_backUp (which : LexiconFile) (h : Idle env before disk)
    {post : Bool → Disk → Prop} (hmid : ∀ disk', Idle env before disk' → mid disk')
    (hdone : ∀ disk', Idle env before disk' → SameBut (.bak which) disk disk' →
      (∀ data, before which = some data → disk' (.bak which) = some data) → post true disk')
    (hfail : ∀ disk', Idle env before disk' → post false disk') :
    (if (before which).isSome = true then copyFile (.live which) (.bak which)
      else pure true : FileProgram Bool).Always (effect (tolerable before)) mid post disk := by
  have hrestored : ∀ contents, Restored before (Function.update disk (.bak which) contents) := by
    intro contents other
    rw [Function.update_of_ne File.noConfusion]
    exact h.restored other
  cases hbefore : before which with
  | none =>
      rw [Option.isSome_none, if_neg Bool.false_ne_true]
      apply Program.always_pure (hmid disk h)
      refine hdone disk h (SameBut.refl _ disk) fun data hdata => ?_
      cases hbefore.symm.trans hdata
  | some old =>
      rw [Option.isSome_some, if_pos rfl]
      apply always_copyFile (hmid disk h)
      · intro data hdata
        have hold : before which = some data := (h.restored which).symm.trans hdata
        have hcopied : Idle env before (Function.update disk (.bak which) (some data)) := by
          refine ⟨hrestored _, ?_⟩
          rw [JournalRollsBack]
          unfold JournalSays
          rw [Function.update_of_ne File.noConfusion]
          refine h.journal.imp_right fun hboth => ⟨hboth.1, fun other data' hdata' => ?_⟩
          by_cases hother : other = which
          · subst hother
            rw [Function.update_self, ← hold]
            exact Or.inl hdata'
          · rw [Function.update_of_ne (by simpa using hother),
              Function.update_of_ne File.noConfusion]
            exact hboth.2 other data' hdata'
        refine ⟨hmid _ hcopied, hdone _ hcopied (sameBut_update _ disk _) ?_⟩
        intro data' hdata'
        rw [Function.update_self, ← hold, hdata']
      · exact fun _ => hfail disk h
      · intro hnone contents
        have hcopied : Idle env before (Function.update disk (.bak which) contents) := by
          refine ⟨hrestored contents, Or.inl ?_⟩
          rw [Function.update_of_ne File.noConfusion]
          exact hnone
        exact ⟨hmid _ hcopied, hfail _ hcopied⟩

theorem always_writeAndBackUp (h : Idle env before disk)
    (hmid : ∀ disk', Idle env before disk' → mid disk') :
    (writeAndBackUp request (before .config).isSome (before .dict).isSome).Always
      (effect (tolerable before)) mid (fun ok disk' => Idle env before disk' ∧
        (ok = true → Staged request disk' ∧ BackedUp before disk')) disk := by
  have hwritten : ∀ {disk'} which contents, Idle env before disk' →
      Idle env before (Function.update disk' (.tmp which) contents) := by
    intro disk' which contents hdisk'
    exact hdisk'.write File.noConfusion (fun _ => File.noConfusion)
      (fun _ => File.noConfusion) contents
  have hfalse : ∀ {disk'}, Idle env before disk' → Idle env before disk' ∧
      (false = true → Staged request disk' ∧ BackedUp before disk') :=
    fun hdisk' => ⟨hdisk', fun hfalse => Bool.noConfusion hfalse⟩
  apply Program.always_bind
  apply always_durableWrite (hmid disk h)
  · have h1 := hwritten .config (some request.newConfigToml) h
    refine ⟨hmid _ h1, Program.always_bind ?_⟩
    apply always_durableWrite (hmid _ h1)
    · have h2 := hwritten .dict (some request.newUserDictText) h1
      refine ⟨hmid _ h2, Program.always_bind ?_⟩
      apply always_backUp .config h2 hmid
      · intro disk3 h3 hsame3 hbacked3
        apply always_backUp .dict h3 hmid
        · intro disk4 h4 hsame4 hbacked4
          refine ⟨h4, fun _ => ⟨fun which => ?_, fun which => ?_⟩⟩
          · rw [hsame4 _ File.noConfusion, hsame3 _ File.noConfusion]
            cases which with
            | config =>
                rw [Function.update_of_ne (by simp), Function.update_self]
                rfl
            | dict =>
                rw [Function.update_self]
                rfl
          · cases which with
            | config =>
                rw [hsame4 _ (by simp)]
                exact hbacked3
            | dict => exact hbacked4
        · exact fun disk4 h4 => hfalse h4
      · exact fun disk3 h3 => Program.always_pure (hmid disk3 h3) (hfalse h3)
    · intro _ contents
      have h2 := hwritten .dict contents h1
      exact ⟨hmid _ h2, Program.always_pure (hmid _ h2) (hfalse h2)⟩
  · intro _ contents
    have h1 := hwritten .config contents h
    exact ⟨hmid _ h1, Program.always_pure (hmid _ h1) (hfalse h1)⟩

end Staging

end VKey
