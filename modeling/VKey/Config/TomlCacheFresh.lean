import VKey.Config.TomlFileCache
import VKey.Support.Run

/-!
# The table that a load returns

A load that starts after a write has returned gets the table of that write, unless a slow load has
put the table of an older file back under the stamp of the new one.
-/

namespace VKey

namespace TomlFileCache

variable {Table ι : Type} {toml : Toml Table} {s s' : State Table ι}

/-- The table that a load has to return and that it has still to find or to read. -/
def Loading.awaited : Loading Table → Option Table
  | .started want => want
  | .sizing _ want => want
  | .missing want => want
  | .looking _ want => want
  | .parsing _ want => want
  | .opening _ _ want => want
  | _ => none

/-- What a load inserts is the table of the file if it has the stamp of the file, unless a write
will still drop the entry; and no write renames its file while a load still has to read the one
before it. -/
def Timely (toml : Toml Table) (s : State Table ι) : Event Table ι → Prop
  | .insert i => ∀ stamp parsed want, s.load i = .inserting stamp parsed want →
      (∃ table, s.write = .invalidating table) ∨
      ∀ file, s.file = some file → file.stamp = stamp →
        parsed = toml.parseConfigFile file.data.length (some file)
  | .rename _ => ∀ i, (s.load i).awaited = none
  | _ => True

/-- A write has renamed its file and has not dropped the entry. -/
def Writing.Invalidates (write : Writing Table) : Prop := ∃ table, write = .invalidating table

/-- The file holds the table, and no entry of it will be dropped. -/
structure Serves (toml : Toml Table) (s : State Table ι) (file : File) (table : Table) : Prop where
  current : s.file = some file
  holds : toml.Holds file table
  settled : ¬s.write.Invalidates

/-- A load that has to return a table has read of the file that holds it. -/
def Loading.Fresh (toml : Toml Table) (s : State Table ι) : Loading Table → Prop
  | .idle => True
  | .started want => ∀ table, want = some table → ∃ file, Serves toml s file table
  | .sizing mtime want => ∀ table, want = some table →
      ∃ file, Serves toml s file table ∧ mtime = file.mtime
  | .missing want => want = none
  | .looking stamp want => ∀ table, want = some table →
      ∃ file, Serves toml s file table ∧ stamp = file.stamp
  | .parsing _ want => ∀ table, want = some table → ∃ file, Serves toml s file table
  | .opening _ size want => ∀ table, want = some table →
      ∃ file, Serves toml s file table ∧ size = file.data.length
  | .inserting _ parsed want => ∀ table, want = some table → parsed = some table
  | .returned result want => ∀ table, want = some table → result = some table

/-- What a write has made of the file. -/
def Writing.Fresh (toml : Toml Table) (file : Option File) : Writing Table → Prop
  | .replacing table => (toml.print table).length ≤ kMaxConfigFileSizeBytes
  | .invalidating table => ∃ written, file = some written ∧ toml.Holds written table
  | .syncing table => ∃ written, file = some written ∧ toml.Holds written table
  | .removing table success =>
      success = true → ∃ written, file = some written ∧ toml.Holds written table
  | _ => True

structure Fresh (toml : Toml Table) (s : State Table ι) : Prop where
  /-- Between the writes the file holds the last table. -/
  stored : ∀ table, s.stored = some table → s.write = .idle ∧ ∃ file, Serves toml s file table
  write : s.write.Fresh toml s.file
  /-- An entry with the stamp of the file holds its table. -/
  entry : ¬s.write.Invalidates → ∀ entry file, s.entry = some entry → s.file = some file →
    entry.stamp = file.stamp → entry.table = toml.parseConfigFile file.data.length (some file)
  load : ∀ i, (s.load i).Fresh toml s

theorem Serves.of_eq {file : File} {table : Table} (h : Serves toml s file table)
    (hfile : s'.file = s.file) (hwrite : s'.write.Invalidates → s.write.Invalidates) :
    Serves toml s' file table where
  current := hfile.trans h.current
  holds := h.holds
  settled hinvalidates := h.settled (hwrite hinvalidates)

/-- The loads look at the file only, and at whether it will be invalidated. -/
theorem Loading.Fresh.of_eq {loading : Loading Table} (h : loading.Fresh toml s)
    (hfile : s'.file = s.file) (hwrite : s'.write.Invalidates → s.write.Invalidates) :
    loading.Fresh toml s' := by
  cases loading with
  | idle => trivial
  | started want =>
      intro table hwant
      obtain ⟨file, hserves⟩ := h table hwant
      exact ⟨file, hserves.of_eq hfile hwrite⟩
  | sizing mtime want =>
      intro table hwant
      obtain ⟨file, hserves, hread⟩ := h table hwant
      exact ⟨file, hserves.of_eq hfile hwrite, hread⟩
  | missing want => exact h
  | looking stamp want =>
      intro table hwant
      obtain ⟨file, hserves, hread⟩ := h table hwant
      exact ⟨file, hserves.of_eq hfile hwrite, hread⟩
  | parsing stamp want =>
      intro table hwant
      obtain ⟨file, hserves⟩ := h table hwant
      exact ⟨file, hserves.of_eq hfile hwrite⟩
  | opening stamp size want =>
      intro table hwant
      obtain ⟨file, hserves, hread⟩ := h table hwant
      exact ⟨file, hserves.of_eq hfile hwrite, hread⟩
  | inserting stamp parsed want => exact h
  | returned result want => exact h

theorem Loading.Fresh.of_awaited {loading : Loading Table} (h : loading.Fresh toml s)
    (hawaited : loading.awaited = none) : loading.Fresh toml s' := by
  cases loading with
  | idle => trivial
  | missing want => exact hawaited
  | inserting stamp parsed want => exact h
  | returned result want => exact h
  | started want | sizing mtime want | looking stamp want | parsing stamp want
  | opening stamp size want =>
      intro table hwant
      cases hawaited.symm.trans hwant

theorem Fresh.setEntry (h : Fresh toml s) {entry : Option (Entry Table)}
    (hentry : ¬s.write.Invalidates → ∀ new file, entry = some new → s.file = some file →
      new.stamp = file.stamp → new.table = toml.parseConfigFile file.data.length (some file)) :
    Fresh toml { s with entry := entry } where
  stored table hstored := by
    obtain ⟨hidle, file, hserves⟩ := h.stored table hstored
    exact ⟨hidle, file, hserves.of_eq rfl id⟩
  write := h.write
  entry := hentry
  load i := (h.load i).of_eq rfl id

theorem Fresh.drop (h : Fresh toml s) : Fresh toml { s with entry := none } :=
  h.setEntry fun _ _ _ hnone => by cases hnone

theorem Fresh.writeTo (h : Fresh toml s) {write : Writing Table} {stored : Option Table}
    (hwrite : write.Fresh toml s.file) (hsettled : ¬write.Invalidates)
    (hbefore : ¬s.write.Invalidates)
    (hstored : ∀ table, stored = some table → write = .idle ∧
      ∃ file, s.file = some file ∧ toml.Holds file table) :
    Fresh toml ({ s with stored := stored }.writeTo write) where
  stored table htable := by
    obtain ⟨hidle, file, hfile, hholds⟩ := hstored table htable
    exact ⟨hidle, file, hfile, hholds, hsettled⟩
  write := hwrite
  entry _ := h.entry hbefore
  load i := (h.load i).of_eq rfl fun hinvalidates => absurd hinvalidates hsettled

theorem Fresh.stored_eq_none (h : Fresh toml s) (hrunning : s.write ≠ .idle) {table : Table}
    (hstored : s.stored = some table) : False :=
  hrunning (h.stored table hstored).1

theorem Fresh.writeOn (h : Fresh toml s) {write : Writing Table} (hwrite : write.Fresh toml s.file)
    (hsettled : ¬write.Invalidates) (hbefore : ¬s.write.Invalidates) (hrunning : s.write ≠ .idle) :
    Fresh toml (s.writeTo write) :=
  h.writeTo hwrite hsettled hbefore fun _ hstored => (h.stored_eq_none hrunning hstored).elim

theorem Fresh.rename (h : Fresh toml s) {table : Table}
    (hwrite : s.write = .replacing table) (mtime : Nat)
    (hawaited : ∀ i, (s.load i).awaited = none) :
    Fresh toml ({ s with file := some ⟨mtime, toml.print table⟩ }.writeTo
      (.invalidating table)) where
  stored _ hstored := (h.stored_eq_none (by rw [hwrite]; nofun) hstored).elim
  write := by
    have hsize := h.write
    rw [hwrite] at hsize
    exact ⟨_, rfl, rfl, hsize⟩
  entry hsettled := absurd ⟨table, rfl⟩ hsettled
  load i := (h.load i).of_awaited (hawaited i)

theorem Fresh.invalidate (h : Fresh toml s) {table : Table}
    (hwrite : s.write = .invalidating table) :
    Fresh toml ({ s with entry := none }.writeTo (.syncing table)) where
  stored _ hstored := (h.stored_eq_none (by rw [hwrite]; nofun) hstored).elim
  write := by
    have hfile := h.write
    rw [hwrite] at hfile
    exact hfile
  entry _ _ _ hnone := by cases hnone
  load i := (h.load i).of_eq rfl fun ⟨_, hinvalidates⟩ => by cases hinvalidates

variable [DecidableEq ι]

/-- The step of a load that leaves the entry. -/
theorem Fresh.loadTo (h : Fresh toml s) {i : ι} {loading : Loading Table}
    (hloading : loading.Fresh toml s) : Fresh toml (s.loadTo i loading) where
  stored table hstored := by
    obtain ⟨hidle, file, hserves⟩ := h.stored table hstored
    exact ⟨hidle, file, hserves.of_eq rfl id⟩
  write := h.write
  entry := h.entry
  load j := by
    change Loading.Fresh toml _ (Function.update s.load i loading j)
    by_cases hj : j = i
    · rw [hj, Function.update_self]
      exact hloading.of_eq rfl id
    · rw [Function.update_of_ne hj]
      exact (h.load j).of_eq rfl id

theorem Fresh.step {event : Event Table ι} (h : Fresh toml s) (htimely : Timely toml s event)
    (hstep : Step toml s event s') : Fresh toml s' := by
  have hread : ∀ {i loading}, s.load i = loading → loading.Fresh toml s := by
    rintro i _ rfl
    exact h.load i
  cases hstep with
  | loadStart hi => exact h.loadTo fun table hwant => (h.stored table hwant).2
  | @lastWriteTime i want file hi hfile =>
      refine h.loadTo fun table hwant => ?_
      obtain ⟨served, hserves⟩ := hread hi table hwant
      obtain rfl := Option.some.inj (hfile.symm.trans hserves.current)
      exact ⟨file, hserves, rfl⟩
  | @noWriteTime i want hi hfile =>
      refine h.loadTo (Option.eq_none_iff_forall_ne_some.mpr fun table hwant => ?_)
      obtain ⟨served, hserves⟩ := hread hi table hwant
      cases hfile.symm.trans hserves.current
  | @fileSize i mtime want file hi hfile =>
      refine h.loadTo fun table hwant => ?_
      obtain ⟨served, hserves, rfl⟩ := hread hi table hwant
      obtain rfl := Option.some.inj (hfile.symm.trans hserves.current)
      exact ⟨file, hserves, rfl⟩
  | @noSize i mtime want hi hfile =>
      refine h.loadTo (Option.eq_none_iff_forall_ne_some.mpr fun table hwant => ?_)
      obtain ⟨served, hserves, -⟩ := hread hi table hwant
      cases hfile.symm.trans hserves.current
  | @erase i want hi =>
      refine h.drop.loadTo fun table hwant => ?_
      have hmissing : want = none := hread hi
      cases hmissing.symm.trans hwant
  | @hit i stamp want entry hi hentry hstamp =>
      refine h.loadTo fun table hwant => ?_
      obtain ⟨file, hserves, rfl⟩ := hread hi table hwant
      rw [h.entry hserves.settled entry file hentry hserves.current hstamp]
      exact hserves.holds.parseConfigFile
  | @miss i stamp want hi hmiss =>
      refine h.loadTo fun table hwant => ?_
      obtain ⟨file, hserves, -⟩ := hread hi table hwant
      exact ⟨file, hserves⟩
  | @parseSize i stamp want file hi hfile =>
      refine h.loadTo fun table hwant => ?_
      obtain ⟨served, hserves⟩ := hread hi table hwant
      obtain rfl := Option.some.inj (hfile.symm.trans hserves.current)
      exact ⟨file, hserves, rfl⟩
  | @noParseSize i stamp want hi hfile =>
      refine h.loadTo fun table hwant => ?_
      obtain ⟨served, hserves⟩ := hread hi table hwant
      cases hfile.symm.trans hserves.current
  | @parseOpen i stamp size want hi =>
      refine h.loadTo fun table hwant => ?_
      obtain ⟨file, hserves, rfl⟩ := hread hi table hwant
      rw [hserves.current]
      exact hserves.holds.parseConfigFile
  | @insert i stamp parsed want hi =>
      refine Fresh.loadTo (h.setEntry fun hsettled new file hnew hfile hstamp => ?_) (hread hi)
      obtain rfl := Option.some.inj hnew
      exact (htimely stamp parsed want hi).resolve_left hsettled file hfile hstamp.symm
  | loadReturn hi => exact h.loadTo trivial
  | @writeStart table hwrite =>
      exact h.writeTo trivial (fun ⟨_, hinvalidates⟩ => by cases hinvalidates)
        (fun ⟨_, hinvalidates⟩ => by cases hwrite.symm.trans hinvalidates)
          fun _ hstored => by cases hstored
  | @store table hwrite hsize =>
      exact h.writeOn hsize (fun ⟨_, hinvalidates⟩ => by cases hinvalidates)
        (fun ⟨_, hinvalidates⟩ => by cases hwrite.symm.trans hinvalidates) (by rw [hwrite]; nofun)
  | @storeReturns table hwrite =>
      exact h.writeOn trivial (fun ⟨_, hinvalidates⟩ => by cases hinvalidates)
        (fun ⟨_, hinvalidates⟩ => by cases hwrite.symm.trans hinvalidates) (by rw [hwrite]; nofun)
  | @storeFails table hwrite =>
      exact h.writeOn (fun hsuccess => by cases hsuccess)
        (fun ⟨_, hinvalidates⟩ => by cases hinvalidates)
        (fun ⟨_, hinvalidates⟩ => by cases hwrite.symm.trans hinvalidates) (by rw [hwrite]; nofun)
  | rename hwrite hmtime => exact h.rename hwrite _ htimely
  | @renameFails table hwrite =>
      exact h.writeOn (fun hsuccess => by cases hsuccess)
        (fun ⟨_, hinvalidates⟩ => by cases hinvalidates)
        (fun ⟨_, hinvalidates⟩ => by cases hwrite.symm.trans hinvalidates) (by rw [hwrite]; nofun)
  | invalidate hwrite => exact h.invalidate hwrite
  | @sync table success hwrite =>
      have hfile := h.write
      rw [hwrite] at hfile
      exact h.writeOn (fun _ => hfile) (fun ⟨_, hinvalidates⟩ => by cases hinvalidates)
        (fun ⟨_, hinvalidates⟩ => by cases hwrite.symm.trans hinvalidates) (by rw [hwrite]; nofun)
  | @remove table success hwrite =>
      have hfile := h.write
      rw [hwrite] at hfile
      refine h.writeTo trivial (fun ⟨_, hinvalidates⟩ => by cases hinvalidates)
        (fun ⟨_, hinvalidates⟩ => by cases hwrite.symm.trans hinvalidates) fun last hlast => ?_
      cases success with
      | false => cases hlast
      | true =>
          obtain rfl := Option.some.inj hlast
          exact ⟨rfl, hfile rfl⟩

omit [DecidableEq ι] in
theorem Fresh.initial (toml : Toml Table) (file : Option File) :
    Fresh toml (State.initial file : State Table ι) where
  stored _ hstored := by cases hstored
  write := trivial
  entry _ _ _ hnone := by cases hnone
  load _ := trivial

/-- Every load that starts after a write has returned, and before the next one starts, returns the
table of that write. -/
theorem served_of_run {file : Option File} {events : List (Event Table ι)}
    (h : Run (Meeting (Timely toml) (Step toml)) (State.initial file) events s) :
    ∀ i result table, s.load i = .returned result (some table) → result = some table := by
  have hfresh : Fresh toml s := by
    apply h.invariant (Fresh.initial toml file)
    exact fun _ _ _ hbefore hstep => hbefore.step hstep.1 hstep.2
  intro i result table hi
  have hload := hfresh.load i
  rw [hi] at hload
  exact hload table rfl

/-- Two tables of one byte each. -/
def twoTables : Toml Bool where
  print table := [if table then 1 else 0]
  parse data := if data = [1] then some true else if data = [0] then some false else none
  parse_print := by decide

/-- A write, and a load after it. -/
theorem served_of_run_once : ∃ (events : List (Event Bool Bool)) (s : State Bool Bool),
    Run (Step twoTables) (State.initial none) events s ∧
      s.load true = .returned (some true) (some true) ∧
      ∀ i result table, s.load i = .returned result (some table) → result = some table := by
  have hrun : Run (Meeting (Timely twoTables) (Step twoTables))
      (State.initial none : State Bool Bool)
      [.writeStart true, .store, .rename 0, .invalidate, .sync true, .remove, .loadStart true,
        .lastWriteTime true, .fileSize true, .find true, .parseSize true,
          .parseOpen true, .insert true] _ :=
    .cons ⟨trivial, .writeStart rfl⟩ (.cons ⟨trivial, .store rfl (by decide)⟩
      (.cons ⟨fun _ => rfl, .rename rfl (by nofun)⟩ (.cons ⟨trivial, .invalidate rfl⟩
        (.cons ⟨trivial, .sync rfl⟩ (.cons ⟨trivial, .remove rfl⟩ (.cons ⟨trivial, .loadStart rfl⟩
          (.cons ⟨trivial, .lastWriteTime rfl rfl⟩ (.cons ⟨trivial, .fileSize rfl rfl⟩
            (.cons ⟨trivial, .miss rfl (by nofun)⟩ (.cons ⟨trivial, .parseSize rfl rfl⟩
              (.cons ⟨trivial, .parseOpen rfl⟩ (.cons ⟨fun _ _ _ hi => Or.inr fun _ hfile _ => by
                cases hi; cases hfile; rfl, .insert rfl⟩ .nil))))))))))))
  exact ⟨_, _, hrun.mono fun _ _ _ hstep => hstep.2, rfl, served_of_run hrun⟩

/-- A load has parsed the file before the second write replaces it, by one of the same size and
time, and inserts its table after the entry is dropped: the next load gets the table that was
replaced. -/
theorem not_served_of_run : ¬∀ (events : List (Event Bool Bool)) (s : State Bool Bool),
    Run (Step twoTables) (State.initial none) events s →
      ∀ i result table, s.load i = .returned result (some table) → result = some table := by
  intro h
  have hrun : Run (Step twoTables) (State.initial none : State Bool Bool)
      [.writeStart false, .store, .rename 0, .invalidate, .sync true, .remove, .loadStart false,
        .lastWriteTime false, .fileSize false, .find false, .parseSize false, .parseOpen false,
        .writeStart true, .store, .rename 0, .invalidate, .sync true, .remove, .insert false,
        .loadStart true, .lastWriteTime true, .fileSize true, .find true] _ :=
    .cons (.writeStart rfl) (.cons (.store rfl (by decide)) (.cons (.rename rfl (by nofun))
      (.cons (.invalidate rfl) (.cons (.sync rfl) (.cons (.remove rfl) (.cons (.loadStart rfl)
        (.cons (.lastWriteTime rfl rfl) (.cons (.fileSize rfl rfl) (.cons (.miss rfl (by nofun))
          (.cons (.parseSize rfl rfl) (.cons (.parseOpen rfl) (.cons (.writeStart rfl)
            (.cons (.store rfl (by decide))
              (.cons (.rename rfl fun _ hfile => by cases hfile; exact Nat.le_refl 0)
              (.cons (.invalidate rfl) (.cons (.sync rfl) (.cons (.remove rfl)
                (.cons (.insert rfl) (.cons (.loadStart rfl) (.cons (.lastWriteTime rfl rfl)
                  (.cons (.fileSize rfl rfl) (.cons (.hit rfl rfl rfl) .nil))))))))))))))))))))))
  cases h _ _ hrun true (some false) true rfl

end TomlFileCache

end VKey
