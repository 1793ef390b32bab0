import VKey.Config.SharedSettings
import VKey.Support.Run

/-!
# The settings dialog, the tray and the shared state

The settings process publishes a change at once and saves it later from its own copy.  The tray
loads the file, changes one setting, saves and publishes.  Whoever writes the shared state writes
back what it has read before.  Every load, save, read and write is one step.
-/

namespace VKey

namespace ConfigManager

namespace SettingsSync

/-- Where the settings process stands. -/
inductive SettingsPhase where
  | idle
  /-- In `syncToSharedState`, before the shared state is read. -/
  | syncing
  | syncRead (state : SharedFields)
  /-- In `saveToToml`, after the save. -/
  | saved
  | savedRead (state : SharedFields)

/-- Where the main process stands. -/
inductive TrayPhase where
  | idle
  /-- The configuration with the change, before `ApplyConfigChange`. -/
  | loaded (config : TypingConfig)
  | saved (config : TypingConfig)
  | read (config : TypingConfig) (state : SharedFields)
  /-- The command for a code table has read the shared state. -/
  | tableRead (codeTable : CodeTable) (state : SharedFields)
  | tableWritten (codeTable : CodeTable)
  | tableLoaded (config : TypingConfig)
  /-- Before the message is posted. -/
  | posting

/-- Where a process stands in `SignalConfigChange`. -/
inductive SignalPhase where
  | idle
  /-- The level of the configuration that has been committed. -/
  | signalling (committedSpellLevel : Option SpellCheckLevel)
  | read (committedSpellLevel : Option SpellCheckLevel) (state : SharedFields)

structure World (ι : Type) where
  file : TomlTable
  shared : SharedFields
  /-- The copy of the settings process. -/
  config : TypingConfig
  configDirty : Bool
  settings : SettingsPhase
  tray : TrayPhase
  signal : ι → SignalPhase
  /-- The messages `WM_VKEY_CONFIG_CHANGED` that have been posted. -/
  messages : Nat
  /-- For each setting the value of the last user action that changed it. -/
  last : SharedValues

inductive Event (ι : Type) where
  | change (setting : SharedSetting) (value : setting.Value)
  | readSettings
  | writeSettings
  | save
  | reload
  | trayLoad (setting : SharedSetting) (value : setting.Value)
  | traySave
  | trayRead
  | trayWrite
  | tableRead (codeTable : CodeTable)
  | tableWrite
  | tableLoad
  | post
  | signal (i : ι)
  | signalCommitted (i : ι)
  | signalRead (i : ι)
  | signalWrite (i : ι)

namespace World

variable {ι : Type} [DecidableEq ι]

def setLast (w : World ι) (setting : SharedSetting) (value : setting.Value) : World ι :=
  { w with last := Function.update w.last setting value }

def setSignal (w : World ι) (i : ι) (signal : SignalPhase) : World ι :=
  { w with signal := Function.update w.signal i signal }

end World

section Steps

variable {ι : Type} [DecidableEq ι] [WideText] [WideCType]

/-- What `SignalConfigChange` writes. -/
def signalled (committedSpellLevel : Option SpellCheckLevel) (state : SharedFields) :
    SharedFields :=
  SharedFields.bump { state with spellCheck := committedSpellLevel.getD state.spellCheck }

inductive Step : World ι → Event ι → World ι → Prop
  | change {w : World ι} {setting : SharedSetting} {value : setting.Value}
      (hsettings : w.settings = .idle) :
      Step w (.change setting value)
        { w.setLast setting value with
            config := w.config.change setting value, settings := .syncing }
  | syncRead {w : World ι} (hsettings : w.settings = .syncing) :
      Step w .readSettings { w with settings := .syncRead w.shared }
  | syncWrite {w : World ι} {state : SharedFields} (hsettings : w.settings = .syncRead state) :
      Step w .writeSettings
        { w with shared := (state.publish w.config).bump, configDirty := true, settings := .idle }
  | save {w : World ι} (hsettings : w.settings = .idle) (hdirty : w.configDirty = true) :
      Step w .save
        { w with file := saveToFile w.file w.config, configDirty := false, settings := .saved }
  | savedRead {w : World ι} (hsettings : w.settings = .saved) :
      Step w .readSettings { w with settings := .savedRead w.shared }
  | savedWrite {w : World ι} {state : SharedFields} (hsettings : w.settings = .savedRead state) :
      Step w .writeSettings { w with shared := state.bump, settings := .idle }
  | reload {w : World ι} {messages : Nat} (hsettings : w.settings = .idle)
        (hmessages : w.messages = messages + 1) :
      Step w .reload { w with config := loadFromFile w.file, messages := messages }
  | trayLoad {w : World ι} {setting : SharedSetting} {value : setting.Value}
        (htray : w.tray = .idle) :
      Step w (.trayLoad setting value)
        { w.setLast setting value with
            tray := .loaded ((loadFromFile w.file).change setting value) }
  | traySave {w : World ι} {config : TypingConfig} (htray : w.tray = .loaded config) :
      Step w .traySave { w with file := saveToFile w.file config, tray := .saved config }
  | trayRead {w : World ι} {config : TypingConfig} (htray : w.tray = .saved config) :
      Step w .trayRead { w with tray := .read config w.shared }
  | trayWrite {w : World ι} {config : TypingConfig} {state : SharedFields}
        (htray : w.tray = .read config state) :
      Step w .trayWrite
        { w with
          shared := SharedFields.bump
            { state.publish config with
                diagFlags := if config.perfHistogramEnabled then 0x01 else 0 }
          tray := .posting }
  | tableRead {w : World ι} {codeTable : CodeTable} (htray : w.tray = .idle) :
      Step w (.tableRead codeTable)
        { w.setLast .codeTable codeTable with tray := .tableRead codeTable w.shared }
  | tableWrite {w : World ι} {codeTable : CodeTable} {state : SharedFields}
      (htray : w.tray = .tableRead codeTable state) :
      Step w .tableWrite
        { w with shared := { state with codeTable := codeTable }, tray := .tableWritten codeTable }
  | tableLoad {w : World ι} {codeTable : CodeTable} (htray : w.tray = .tableWritten codeTable) :
      Step w .tableLoad
        { w with tray := .tableLoaded ((loadFromFile w.file).change .codeTable codeTable) }
  | tableSave {w : World ι} {config : TypingConfig} (htray : w.tray = .tableLoaded config) :
      Step w .traySave { w with file := saveToFile w.file config, tray := .posting }
  | post {w : World ι} (htray : w.tray = .posting) :
      Step w .post { w with messages := w.messages + 1, tray := .idle }
  | signal {w : World ι} {i : ι} (hsignal : w.signal i = .idle) :
      Step w (.signal i) (w.setSignal i (.signalling none))
  | signalCommitted {w : World ι} {i : ι} (hsignal : w.signal i = .idle) :
      Step w (.signalCommitted i)
        (w.setSignal i (.signalling (some (loadFromFile w.file).getSpellCheckLevel)))
  | signalRead {w : World ι} {i : ι} {level : Option SpellCheckLevel}
        (hsignal : w.signal i = .signalling level) :
      Step w (.signalRead i) (w.setSignal i (.read level w.shared))
  | signalWrite {w : World ι} {i : ι} {level : Option SpellCheckLevel} {state : SharedFields}
      (hsignal : w.signal i = .read level state) :
      Step w (.signalWrite i) { w.setSignal i .idle with shared := signalled level state }

end Steps

/-! ## Steps in an order that loses nothing -/

/-- A change has not been published. -/
def SettingsPhase.Syncing : SettingsPhase → Prop
  | .syncing => True
  | .syncRead _ => True
  | _ => False

/-- The committed level that the process is about to publish. -/
def SignalPhase.level : SignalPhase → Option SpellCheckLevel
  | .signalling level => level
  | .read level _ => level
  | .idle => none

/-- The processes that read the shared state and write it back. -/
inductive Reader (ι : Type) where
  | settings
  | tray
  | signal (i : ι)

namespace World

variable {ι : Type}

/-- What a process has read of the shared state and not yet written back. -/
def snapshot (w : World ι) : Reader ι → Option SharedFields
  | .settings =>
      match w.settings with
      | .syncRead state => some state
      | .savedRead state => some state
      | _ => none
  | .tray =>
      match w.tray with
      | .read _ state => some state
      | .tableRead _ state => some state
      | _ => none
  | .signal i =>
      match w.signal i with
      | .read _ state => some state
      | _ => none

/-- The dialog has saved its changes. -/
def Saved (w : World ι) : Prop := w.settings = .idle ∧ w.configDirty = false

/-- Nobody is about to write the shared state. -/
def Unread (w : World ι) : Prop := ∀ reader, w.snapshot reader = none

/-- Nobody is about to publish a level that has been committed. -/
def Unlevelled (w : World ι) : Prop := ∀ i, (w.signal i).level = none

end World

section Runs

variable {ι : Type} {w w' : World ι}

/-- A change in the dialog begins when the tray has been reloaded, and one of the tray when the
dialog has been saved; and nobody reads the shared state between the read and the write of another
one. -/
def Orderly (w : World ι) : Event ι → Prop
  | .change _ _ => w.tray = .idle ∧ w.messages = 0 ∧ w.Unlevelled
  | .trayLoad _ _ => w.Saved ∧ w.Unlevelled
  | .tableRead _ => w.Saved ∧ w.Unlevelled ∧ w.Unread
  | .signalCommitted _ => w.Saved ∧ w.tray = .idle
  | .readSettings => w.Unread
  | .trayRead => w.Unread
  | .signalRead _ => w.Unread
  | _ => True

/-- What has been read is what the shared state is, and one process alone has read. -/
structure Exclusive (w : World ι) : Prop where
  current : ∀ reader state, w.snapshot reader = some state → state = w.shared
  alone : ∀ reader reader', w.snapshot reader ≠ none → w.snapshot reader' ≠ none → reader = reader'

/-- The settings of the file and of the shared state while the dialog has no change. -/
def TrayPhase.Fits (file shared last : SharedValues) : TrayPhase → Prop
  | .idle => file = last ∧ shared = last
  | .loaded config => config.values = last
  | .saved config => config.values = last ∧ file = last
  | .read config _ => config.values = last ∧ file = last
  | .tableRead codeTable _ =>
      Function.update file .codeTable codeTable = last ∧
      Function.update shared .codeTable codeTable = last
  | .tableWritten codeTable => Function.update file .codeTable codeTable = last ∧ shared = last
  | .tableLoaded config => config.values = last ∧ shared = last
  | .posting => file = last ∧ shared = last

/-- The three copies of the settings in the order of the steps. -/
structure Kept [WideText] [WideCType] (w : World ι) : Prop where
  exclusive : Exclusive w
  /-- While the dialog has a change the tray is idle. -/
  busy : w.settings.Syncing ∨ w.configDirty = true → w.tray = .idle ∧ w.messages = 0
  config : w.tray = .idle → w.messages = 0 → w.config.values = w.last
  level : ∀ i level, (w.signal i).level = some level → level = w.last .spellCheck
  published : ¬w.settings.Syncing → w.configDirty = true → w.shared.values = w.last
  tray : ¬w.settings.Syncing → w.configDirty = false →
    w.tray.Fits (loadFromFile w.file).values w.shared.values w.last

theorem Exclusive.same (h : Exclusive w) (hsnapshot : w'.snapshot = w.snapshot)
    (hshared : w'.shared = w.shared) :
    Exclusive w' := by
  constructor
  · rw [hsnapshot, hshared]
    exact h.current
  · rw [hsnapshot]
    exact h.alone

theorem Exclusive.read {reader : Reader ι} (hunread : w.Unread)
    (hothers : ∀ other, other ≠ reader → w'.snapshot other = w.snapshot other)
    (hread : w'.snapshot reader = some w'.shared) : Exclusive w' := by
  have heq : ∀ other, w'.snapshot other ≠ none → other = reader := by
    intro other hother
    by_contra hne
    exact hother ((hothers other hne).trans (hunread other))
  constructor
  · intro other state hstate
    obtain rfl := heq other (by rw [hstate]; nofun)
    exact Option.some.inj (hstate.symm.trans hread)
  · intro first second hfirst hsecond
    rw [heq first hfirst, heq second hsecond]

/-- The process that has read writes, and nobody else has. -/
theorem Exclusive.write {reader : Reader ι} (h : Exclusive w) (hread : w.snapshot reader ≠ none)
    (hothers : ∀ other, other ≠ reader → w'.snapshot other = w.snapshot other)
    (hwritten : w'.snapshot reader = none) : Exclusive w' := by
  have hnone : ∀ other, w'.snapshot other = none := by
    intro other
    by_cases hne : other = reader
    · rw [hne, hwritten]
    · rw [hothers other hne]
      by_contra hother
      exact hne (h.alone other reader hother hread)
  constructor
  · intro other state hstate
    rw [hnone other] at hstate
    cases hstate
  · intro first _ hfirst
    exact absurd (hnone first) hfirst

section Steps

variable [DecidableEq ι] [WideText] [WideCType]

omit [WideText] [WideCType] in
theorem snapshot_setSignal_of_ne (w : World ι) {i : ι} (signal : SignalPhase) {reader : Reader ι}
    (h : reader ≠ .signal i) : (w.setSignal i signal).snapshot reader = w.snapshot reader := by
  cases reader with
  | settings | tray => rfl
  | signal j =>
      have hj : j ≠ i := fun heq => h (congrArg Reader.signal heq)
      simp only [World.snapshot, World.setSignal, Function.update_of_ne hj]

omit [WideText] [WideCType] in
theorem snapshot_setSignal_self (w : World ι) (i : ι) (signal : SignalPhase) :
    (w.setSignal i signal).snapshot (.signal i) =
      match signal with
      | .read _ state => some state
      | _ => none := by
  simp only [World.snapshot, World.setSignal, Function.update_self]

omit [WideText] [WideCType] in
theorem level_setSignal {w : World ι} {i : ι} {signal : SignalPhase} {last : SpellCheckLevel}
    (h : ∀ i level, (w.signal i).level = some level → level = last)
    (hsignal : ∀ level, signal.level = some level → level = last) (j : ι) (level : SpellCheckLevel)
    (hlevel : ((w.setSignal i signal).signal j).level = some level) : level = last := by
  by_cases hj : j = i
  · subst hj
    simp only [World.setSignal, Function.update_self] at hlevel
    exact hsignal level hlevel
  · simp only [World.setSignal, Function.update_of_ne hj] at hlevel
    exact h j level hlevel

omit [WideText] [WideCType] in
theorem values_signalled {committedSpellLevel : Option SpellCheckLevel} {state : SharedFields}
    {last : SharedValues} (hstate : state.values = last)
    (hlevel : ∀ level, committedSpellLevel = some level → level = last .spellCheck) :
    (signalled committedSpellLevel state).values = last := by
  rw [signalled, SharedFields.values_bump, SharedFields.values_spellCheck, hstate]
  cases committedSpellLevel with
  | none =>
      rw [← hstate]
      exact Function.update_eq_self SharedSetting.spellCheck state.values
  | some level =>
      rw [Option.getD_some, hlevel level rfl]
      exact Function.update_eq_self SharedSetting.spellCheck last

omit [DecidableEq ι] [WideText] [WideCType] in
/-- A step of the dialog or the tray that neither reads nor writes the shared state. -/
theorem Exclusive.same_signals (h : Exclusive w)
    (hsettings : w'.snapshot .settings = w.snapshot .settings)
    (htray : w'.snapshot .tray = w.snapshot .tray) (hsignal : w'.signal = w.signal)
    (hshared : w'.shared = w.shared) : Exclusive w' := by
  refine h.same (funext fun reader => ?_) hshared
  cases reader with
  | settings => exact hsettings
  | tray => exact htray
  | signal i => simp only [World.snapshot, hsignal]

omit [DecidableEq ι] [WideText] [WideCType] in
theorem snapshot_of_ne_settings (w w' : World ι) (htray : w'.tray = w.tray)
    (hsignal : w'.signal = w.signal)
    {reader : Reader ι} (h : reader ≠ .settings) : w'.snapshot reader = w.snapshot reader := by
  cases reader with
  | settings => exact absurd rfl h
  | tray => simp only [World.snapshot, htray]
  | signal i => simp only [World.snapshot, hsignal]

omit [DecidableEq ι] [WideText] [WideCType] in
theorem snapshot_of_ne_tray (w w' : World ι) (hsettings : w'.settings = w.settings)
    (hsignal : w'.signal = w.signal)
    {reader : Reader ι} (h : reader ≠ .tray) : w'.snapshot reader = w.snapshot reader := by
  cases reader with
  | settings => simp only [World.snapshot, hsettings]
  | tray => exact absurd rfl h
  | signal i => simp only [World.snapshot, hsignal]

omit [DecidableEq ι] in
theorem Kept.fits_idle (h : Kept w) (hsaved : w.Saved) (htray : w.tray = .idle) :
    (loadFromFile w.file).values = w.last ∧ w.shared.values = w.last := by
  have hfits := h.tray (by rw [hsaved.1]; exact id) hsaved.2
  rw [htray] at hfits
  exact hfits

omit [DecidableEq ι] in
theorem Kept.saved_of_tray (h : Kept w) (htray : w.tray ≠ .idle) :
    ¬w.settings.Syncing ∧ w.configDirty = false := by
  rw [← Bool.not_eq_true]
  exact ⟨fun hsyncing => htray (h.busy (Or.inl hsyncing)).1, fun hdirty =>
    htray (h.busy (Or.inr hdirty)).1⟩

/-! ### The dialog -/

omit [DecidableEq ι] in
theorem Kept.change {setting : SharedSetting} {value : setting.Value} (h : Kept w)
    (hsettings : w.settings = .idle) (horderly : Orderly w (.change setting value)) :
    Kept { w.setLast setting value with
        config := w.config.change setting value, settings := .syncing } := by
  obtain ⟨htray, hmessages, hlevels⟩ := horderly
  refine ⟨h.exclusive.same_signals ?_ rfl rfl rfl, fun _ =>
    ⟨htray, hmessages⟩, fun _ _ => ?_, ?_, ?_, ?_⟩
  · simp only [World.snapshot, hsettings]
  · rw [TypingConfig.values_change, h.config htray hmessages]
    rfl
  · intro i level hlevel
    exact absurd ((hlevels i).symm.trans hlevel) (by nofun)
  · exact fun hidle => absurd trivial hidle
  · exact fun hidle => absurd trivial hidle

omit [DecidableEq ι] in
theorem Kept.syncRead (h : Kept w) (hsettings : w.settings = .syncing) (hunread : w.Unread) :
    Kept { w with settings := .syncRead w.shared } := by
  have hsyncing : w.settings.Syncing := by rw [hsettings]; trivial
  refine ⟨.read hunread (fun _ hne => snapshot_of_ne_settings w _ (by rfl) (by rfl) hne) rfl,
    fun _ => h.busy (Or.inl hsyncing), h.config, h.level, ?_, ?_⟩
  · exact fun hidle => absurd trivial hidle
  · exact fun hidle => absurd trivial hidle

omit [DecidableEq ι] in
theorem Kept.syncWrite {state : SharedFields} (h : Kept w)
    (hsettings : w.settings = .syncRead state) :
    Kept { w with
        shared := (state.publish w.config).bump, configDirty := true, settings := .idle } := by
  have hsyncing : w.settings.Syncing := by rw [hsettings]; trivial
  have hread : w.snapshot .settings ≠ none := by simp only [World.snapshot, hsettings]; nofun
  obtain ⟨htray, hmessages⟩ := h.busy (Or.inl hsyncing)
  refine ⟨h.exclusive.write hread
    (fun _ hne => snapshot_of_ne_settings w _ (by rfl) (by rfl) hne) rfl,
    fun _ => ⟨htray, hmessages⟩, h.config, h.level, fun _ _ => ?_, fun _ hclean => ?_⟩
  · rw [SharedFields.values_bump, SharedFields.values_publish]
    exact h.config htray hmessages
  · cases hclean

omit [DecidableEq ι] in
theorem Kept.save (h : Kept w) (hsettings : w.settings = .idle) (hdirty : w.configDirty = true) :
    Kept { w with
        file := saveToFile w.file w.config, configDirty := false, settings := .saved } := by
  obtain ⟨htray, hmessages⟩ := h.busy (Or.inr hdirty)
  refine ⟨h.exclusive.same_signals ?_ rfl rfl rfl, fun hbusy =>
    ?_, h.config, h.level, fun _ htrue => ?_, fun _ _ => ?_⟩
  · simp only [World.snapshot, hsettings]
  · exact hbusy.elim False.elim nofun
  · cases htrue
  · rw [htray]
    refine ⟨?_, h.published (by rw [hsettings]; exact id) hdirty⟩
    rw [values_saveToFile]
    exact h.config htray hmessages

omit [DecidableEq ι] in
theorem Kept.savedRead (h : Kept w) (hsettings : w.settings = .saved) (hunread : w.Unread) :
    Kept { w with settings := .savedRead w.shared } := by
  have hidle : ¬w.settings.Syncing := by rw [hsettings]; exact id
  refine ⟨.read hunread (fun _ hne => snapshot_of_ne_settings w _ (by rfl) (by rfl) hne) rfl,
    fun hbusy => ?_, h.config, h.level, fun _ => h.published hidle, fun _ => h.tray hidle⟩
  exact hbusy.elim False.elim fun hdirty => h.busy (Or.inr hdirty)

omit [DecidableEq ι] in
theorem Kept.savedWrite {state : SharedFields} (h : Kept w)
    (hsettings : w.settings = .savedRead state) :
    Kept { w with shared := state.bump, settings := .idle } := by
  have hidle : ¬w.settings.Syncing := by rw [hsettings]; exact id
  have hsnapshot : w.snapshot .settings = some state := by simp only [World.snapshot, hsettings]
  obtain rfl := h.exclusive.current .settings state hsnapshot
  have hread : w.snapshot .settings ≠ none := by rw [hsnapshot]; nofun
  refine ⟨h.exclusive.write hread (fun _ hne => snapshot_of_ne_settings w _ (by rfl) (by rfl) hne)
    rfl, fun hbusy => ?_, h.config, h.level, fun _ hdirty => ?_, fun _ hclean => ?_⟩
  · exact hbusy.elim False.elim fun hdirty => h.busy (Or.inr hdirty)
  · rw [SharedFields.values_bump]
    exact h.published hidle hdirty
  · rw [SharedFields.values_bump]
    exact h.tray hidle hclean

omit [DecidableEq ι] in
theorem Kept.reload {messages : Nat} (h : Kept w) (hsettings : w.settings = .idle)
    (hmessages : w.messages = messages + 1) :
    Kept { w with config := loadFromFile w.file, messages := messages } := by
  have hclean : w.configDirty = false := by
    rw [← Bool.not_eq_true]
    intro hdirty
    have hnone := (h.busy (Or.inr hdirty)).2
    omega
  refine ⟨h.exclusive.same_signals rfl rfl rfl rfl, fun hbusy => ?_, fun htray _ =>
    ?_, h.level, h.published, h.tray⟩
  · rw [hsettings, hclean] at hbusy
    exact hbusy.elim False.elim nofun
  · exact (h.fits_idle ⟨hsettings, hclean⟩ htray).1

/-! ### The tray -/

omit [DecidableEq ι] in
theorem Kept.trayLoad {setting : SharedSetting} {value : setting.Value} (h : Kept w)
    (htray : w.tray = .idle) (horderly : Orderly w (.trayLoad setting value)) :
    Kept { w.setLast setting value with
        tray := .loaded ((loadFromFile w.file).change setting value) } := by
  obtain ⟨hsaved, hlevels⟩ := horderly
  refine ⟨h.exclusive.same_signals rfl ?_ rfl rfl, fun hbusy =>
    ?_, nofun, ?_, fun _ hdirty => ?_, fun _ _ => ?_⟩
  · simp only [World.snapshot, htray]
  · have hidle : ¬(w.settings.Syncing ∨ w.configDirty = true) := by
      rw [hsaved.1, hsaved.2]
      exact fun hbusy => hbusy.elim False.elim nofun
    exact absurd hbusy hidle
  · intro i level hlevel
    exact absurd ((hlevels i).symm.trans hlevel) (by nofun)
  · exact absurd (hsaved.2.symm.trans hdirty) Bool.false_ne_true
  · show TypingConfig.values _ = _
    rw [TypingConfig.values_change, (h.fits_idle hsaved htray).1]
    rfl

omit [DecidableEq ι] in
theorem Kept.tray_step (h : Kept w) (htray : w.tray ≠ .idle) (hsettings : w'.settings = w.settings)
    (hdirty : w'.configDirty = w.configDirty) (hsignal : w'.signal = w.signal)
    (hlast : w'.last = w.last) (hexclusive : Exclusive w') (hidle : w'.tray ≠ .idle)
    (hfits : w'.tray.Fits (loadFromFile w'.file).values w'.shared.values w'.last) : Kept w' := by
  obtain ⟨hsyncing, hclean⟩ := h.saved_of_tray htray
  refine ⟨hexclusive, fun hbusy => ?_, fun htray' => absurd htray' hidle, ?_, fun _ hdirty' =>
    ?_, fun _ _ => hfits⟩
  · rw [hsettings, hdirty, hclean] at hbusy
    exact hbusy.elim (fun hbusy => absurd hbusy hsyncing) nofun
  · rw [hsignal, hlast]
    exact h.level
  · rw [hdirty, hclean] at hdirty'
    cases hdirty'

omit [DecidableEq ι] in
theorem Kept.fits (h : Kept w) (htray : w.tray ≠ .idle) :
    w.tray.Fits (loadFromFile w.file).values w.shared.values w.last :=
  h.tray (h.saved_of_tray htray).1 (h.saved_of_tray htray).2

omit [DecidableEq ι] in
theorem Kept.traySave {config : TypingConfig} (h : Kept w) (htray : w.tray = .loaded config) :
    Kept { w with file := saveToFile w.file config, tray := .saved config } := by
  have hbusy : w.tray ≠ .idle := by rw [htray]; nofun
  have hconfig : config.values = w.last := by
    have hfits := h.fits hbusy
    rwa [htray] at hfits
  refine h.tray_step hbusy rfl rfl rfl rfl (h.exclusive.same_signals rfl ?_ rfl rfl)
    nofun ⟨hconfig, ?_⟩
  · simp only [World.snapshot, htray]
  · rw [values_saveToFile, hconfig]

omit [DecidableEq ι] in
theorem Kept.trayRead {config : TypingConfig} (h : Kept w) (htray : w.tray = .saved config)
    (hunread : w.Unread) :
    Kept { w with tray := .read config w.shared } := by
  have hbusy : w.tray ≠ .idle := by rw [htray]; nofun
  have hfits := h.fits hbusy
  rw [htray] at hfits
  exact h.tray_step hbusy rfl rfl rfl rfl
    (.read hunread (fun _ hne => snapshot_of_ne_tray w _ (by rfl) (by rfl) hne) rfl) nofun
    hfits

omit [DecidableEq ι] in
theorem Kept.trayWrite {config : TypingConfig} {state : SharedFields} (h : Kept w)
    (htray : w.tray = .read config state) (diagFlags : Nat) :
    Kept { w with
      shared := SharedFields.bump { state.publish config with diagFlags }
      tray := .posting } := by
  have hbusy : w.tray ≠ .idle := by rw [htray]; nofun
  have hread : w.snapshot .tray ≠ none := by simp only [World.snapshot, htray]; nofun
  have hfits := h.fits hbusy
  rw [htray] at hfits
  refine h.tray_step hbusy rfl rfl rfl rfl
    (h.exclusive.write hread (fun _ hne => snapshot_of_ne_tray w _ (by rfl) (by rfl) hne) rfl)
      nofun ⟨hfits.2, ?_⟩
  rw [SharedFields.values_bump]
  exact (SharedFields.values_publish state config).trans hfits.1

omit [DecidableEq ι] in
theorem Kept.tableRead {codeTable : CodeTable} (h : Kept w) (htray : w.tray = .idle)
    (horderly : Orderly w (.tableRead codeTable)) :
    Kept { w.setLast .codeTable codeTable with tray := .tableRead codeTable w.shared } := by
  obtain ⟨hsaved, hlevels, hunread⟩ := horderly
  obtain ⟨hfile, hshared⟩ := h.fits_idle hsaved htray
  refine ⟨.read hunread (fun _ hne => snapshot_of_ne_tray w _ (by rfl) (by rfl) hne) rfl,
    fun hbusy => ?_, nofun, ?_, fun _ hdirty => ?_, fun _ _ => ⟨?_, ?_⟩⟩
  · have hidle : ¬(w.settings.Syncing ∨ w.configDirty = true) := by
      rw [hsaved.1, hsaved.2]
      exact fun hbusy => hbusy.elim False.elim nofun
    exact absurd hbusy hidle
  · intro i level hlevel
    exact absurd ((hlevels i).symm.trans hlevel) (by nofun)
  · exact absurd (hsaved.2.symm.trans hdirty) Bool.false_ne_true
  · exact congrArg (fun values => Function.update values SharedSetting.codeTable codeTable) hfile
  · exact congrArg (fun values => Function.update values SharedSetting.codeTable codeTable) hshared

omit [DecidableEq ι] in
theorem Kept.tableWrite {codeTable : CodeTable} {state : SharedFields} (h : Kept w)
    (htray : w.tray = .tableRead codeTable state) :
    Kept { w with
        shared := { state with codeTable := codeTable }, tray := .tableWritten codeTable } := by
  have hbusy : w.tray ≠ .idle := by rw [htray]; nofun
  have hsnapshot : w.snapshot .tray = some state := by simp only [World.snapshot, htray]
  have hread : w.snapshot .tray ≠ none := by rw [hsnapshot]; nofun
  obtain rfl := h.exclusive.current .tray state hsnapshot
  have hfits := h.fits hbusy
  rw [htray] at hfits
  refine h.tray_step hbusy rfl rfl rfl rfl
    (h.exclusive.write hread (fun _ hne => snapshot_of_ne_tray w _ (by rfl) (by rfl) hne) rfl)
      nofun ⟨hfits.1, ?_⟩
  exact (SharedFields.values_codeTable w.shared codeTable).trans hfits.2

omit [DecidableEq ι] in
theorem Kept.tableLoad {codeTable : CodeTable} (h : Kept w)
    (htray : w.tray = .tableWritten codeTable) :
    Kept { w with tray := .tableLoaded ((loadFromFile w.file).change .codeTable codeTable) } := by
  have hbusy : w.tray ≠ .idle := by rw [htray]; nofun
  have hfits := h.fits hbusy
  rw [htray] at hfits
  refine h.tray_step hbusy rfl rfl rfl rfl (h.exclusive.same_signals rfl ?_ rfl rfl)
    nofun ⟨?_, hfits.2⟩
  · simp only [World.snapshot, htray]
  · rw [TypingConfig.values_change]
    exact hfits.1

omit [DecidableEq ι] in
theorem Kept.tableSave {config : TypingConfig} (h : Kept w) (htray : w.tray = .tableLoaded config) :
    Kept { w with file := saveToFile w.file config, tray := .posting } := by
  have hbusy : w.tray ≠ .idle := by rw [htray]; nofun
  have hfits := h.fits hbusy
  rw [htray] at hfits
  refine h.tray_step hbusy rfl rfl rfl rfl (h.exclusive.same_signals rfl ?_ rfl rfl)
    nofun ⟨?_, hfits.2⟩
  · simp only [World.snapshot, htray]
  · rw [values_saveToFile]
    exact hfits.1

omit [DecidableEq ι] in
theorem Kept.post (h : Kept w) (htray : w.tray = .posting) :
    Kept { w with messages := w.messages + 1, tray := .idle } := by
  have hbusy : w.tray ≠ .idle := by rw [htray]; nofun
  obtain ⟨hsyncing, hclean⟩ := h.saved_of_tray hbusy
  have hfits := h.fits hbusy
  rw [htray] at hfits
  refine ⟨h.exclusive.same_signals rfl ?_ rfl rfl, fun hchange => ?_, nofun, h.level,
    h.published, fun _ _ => hfits⟩
  · simp only [World.snapshot, htray]
  · exact hchange.elim (fun hchange => absurd hchange hsyncing) fun hdirty =>
      absurd (hclean.symm.trans hdirty) Bool.false_ne_true

/-! ### The signals -/

theorem Kept.setSignal {i : ι} {signal : SignalPhase} (h : Kept w)
    (hexclusive : Exclusive (w.setSignal i signal))
    (hlevel : ∀ level, signal.level = some level → level = w.last .spellCheck) :
    Kept (w.setSignal i signal) :=
  ⟨hexclusive, h.busy, h.config, level_setSignal h.level hlevel, h.published, h.tray⟩

omit [WideText] [WideCType] in
theorem Exclusive.setSignal {i : ι} {signal : SignalPhase} (h : Exclusive w)
    (hbefore : w.snapshot (.signal i) = none)
    (hafter : (w.setSignal i signal).snapshot (.signal i) = none) :
    Exclusive (w.setSignal i signal) := by
  refine h.same (funext fun reader => ?_) rfl
  by_cases hne : reader = .signal i
  · rw [hne, hafter, hbefore]
  · exact snapshot_setSignal_of_ne w signal hne

theorem Kept.signal {i : ι} {level : Option SpellCheckLevel} (h : Kept w)
    (hsignal : w.signal i = .idle)
    (hlevel : ∀ committed, level = some committed → committed = w.last .spellCheck) :
    Kept (w.setSignal i (.signalling level)) := by
  refine h.setSignal (h.exclusive.setSignal ?_ ?_) hlevel
  · simp only [World.snapshot, hsignal]
  · rw [snapshot_setSignal_self]

theorem Kept.signalCommitted {i : ι} (h : Kept w) (hsignal : w.signal i = .idle) (hsaved : w.Saved)
    (htray : w.tray = .idle) :
    Kept (w.setSignal i (.signalling (some (loadFromFile w.file).getSpellCheckLevel))) := by
  refine h.signal hsignal fun committed hcommitted => ?_
  rw [← Option.some.inj hcommitted, ← (h.fits_idle hsaved htray).1]
  rfl

theorem Kept.signalRead {i : ι} {level : Option SpellCheckLevel} (h : Kept w)
    (hsignal : w.signal i = .signalling level) (hunread : w.Unread) :
    Kept (w.setSignal i (.read level w.shared)) := by
  refine h.setSignal (.read hunread (fun _ hne => snapshot_setSignal_of_ne w _ hne) ?_)
    fun committed hcommitted => ?_
  · rw [snapshot_setSignal_self]
    rfl
  · refine h.level i committed ?_
    rw [hsignal]
    exact hcommitted

theorem Kept.signalWrite {i : ι} {level : Option SpellCheckLevel}
    {state : SharedFields} (h : Kept w) (hsignal : w.signal i = .read level state) :
    Kept { w.setSignal i .idle with shared := signalled level state } := by
  have hsnapshot : w.snapshot (.signal i) = some state := by simp only [World.snapshot, hsignal]
  have hread : w.snapshot (.signal i) ≠ none := by rw [hsnapshot]; nofun
  obtain rfl := h.exclusive.current (.signal i) state hsnapshot
  have hlevel : ∀ committed, level = some committed → committed = w.last .spellCheck := by
    intro committed hcommitted
    refine h.level i committed ?_
    rw [hsignal]
    exact hcommitted
  have hexclusive : Exclusive { w.setSignal i .idle with shared := signalled level w.shared } := by
    refine h.exclusive.write hread (fun _ hne => ?_) ?_
    · exact (snapshot_setSignal_of_ne w .idle hne : _)
    · exact (snapshot_setSignal_self w i .idle : _)
  refine ⟨hexclusive, h.busy, h.config, level_setSignal h.level nofun, fun hidle hdirty => ?_,
    fun hidle hclean => ?_⟩
  · exact values_signalled (h.published hidle hdirty) hlevel
  · have hfits := h.tray hidle hclean
    show w.tray.Fits _ (signalled level w.shared).values _
    cases htray : w.tray with
    | tableRead codeTable tableState =>
        have htable : w.snapshot .tray ≠ none := by simp only [World.snapshot, htray]; nofun
        cases h.exclusive.alone _ _ hread htable
    | idle | tableWritten | tableLoaded | posting =>
        rw [htray] at hfits
        exact ⟨hfits.1, values_signalled hfits.2 hlevel⟩
    | loaded | saved | read =>
        rw [htray] at hfits
        exact hfits

/-- A step that meets the conditions keeps the copies in order. -/
theorem Kept.step {event : Event ι} (h : Kept w) (horderly : Orderly w event)
    (hstep : Step w event w') :
    Kept w' := by
  cases hstep with
  | change hsettings => exact h.change hsettings horderly
  | syncRead hsettings => exact h.syncRead hsettings horderly
  | syncWrite hsettings => exact h.syncWrite hsettings
  | save hsettings hdirty => exact h.save hsettings hdirty
  | savedRead hsettings => exact h.savedRead hsettings horderly
  | savedWrite hsettings => exact h.savedWrite hsettings
  | reload hsettings hmessages => exact h.reload hsettings hmessages
  | trayLoad htray => exact h.trayLoad htray horderly
  | traySave htray => exact h.traySave htray
  | trayRead htray => exact h.trayRead htray horderly
  | trayWrite htray => exact h.trayWrite htray _
  | tableRead htray => exact h.tableRead htray horderly
  | tableWrite htray => exact h.tableWrite htray
  | tableLoad htray => exact h.tableLoad htray
  | tableSave htray => exact h.tableSave htray
  | post htray => exact h.post htray
  | signal hsignal => exact h.signal hsignal nofun
  | signalCommitted hsignal => exact h.signalCommitted hsignal horderly.1 horderly.2
  | signalRead hsignal => exact h.signalRead hsignal horderly
  | signalWrite hsignal => exact h.signalWrite hsignal

end Steps

end Runs

/-- Nothing is left to be done. -/
def World.Settled {ι : Type} (w : World ι) : Prop :=
  w.Saved ∧ w.tray = .idle ∧ w.messages = 0 ∧ ∀ i, w.signal i = .idle

/-- The file and the shared state have the value of the last user action on every setting. -/
def World.Agrees [WideText] [WideCType] {ι : Type} (w : World ι) : Prop :=
  ∀ setting, (loadFromFile w.file).values setting = w.last setting ∧
    w.shared.values setting = w.last setting

/-- The three copies before the first action. -/
def World.start [WideText] [WideCType] {ι : Type} (file : TomlTable) (shared : SharedFields) :
    World ι where
  file := file
  shared := shared.publish (loadFromFile file)
  config := loadFromFile file
  configDirty := false
  settings := .idle
  tray := .idle
  signal _ := .idle
  messages := 0
  last := (loadFromFile file).values

theorem Kept.start [WideText] [WideCType] {ι : Type} (file : TomlTable) (shared : SharedFields) :
    Kept (World.start file shared : World ι) := by
  refine ⟨⟨?_, ?_⟩, fun _ => ⟨rfl, rfl⟩, fun _ _ => rfl, nofun, nofun, fun _ _ => ⟨rfl, ?_⟩⟩
  · intro reader state hstate
    cases reader <;> cases hstate
  · intro reader _ hreader
    cases reader <;> exact absurd rfl hreader
  · exact SharedFields.values_publish shared (loadFromFile file)

/-- After a run whose steps meet the conditions no setting is lost. -/
theorem agrees_of_run [WideText] [WideCType] {ι : Type} [DecidableEq ι] {file : TomlTable}
    {shared : SharedFields} {events : List (Event ι)} {w : World ι}
    (h : Run (Meeting Orderly Step) (World.start file shared) events w)
    (hsettled : w.Settled) : w.Agrees := by
  have hkept : Kept w := by
    apply h.invariant (Kept.start file shared)
    exact fun _ _ _ hbefore hstep => hbefore.step hstep.1 hstep.2
  obtain ⟨hfile, hshared⟩ := hkept.fits_idle hsettled.1 hsettled.2.1
  exact fun setting => ⟨congrFun hfile setting, congrFun hshared setting⟩

/-- A new installation. -/
def newInstallation : World Unit :=
  World.start [] ⟨.telex, .standard, .unicode, 0, 0, 0⟩

theorem World.unread_of_idle {w : World Unit} (hsettings : w.snapshot .settings = none)
    (htray : w.snapshot .tray = none) (hsignal : w.snapshot (.signal ()) = none) : w.Unread := by
  intro reader
  cases reader with
  | settings => exact hsettings
  | tray => exact htray
  | signal i => exact hsignal

/-- The dialog switches to VNI and saves, and then the tray switches smart switch on. -/
theorem agrees_of_run_oneByOne : ∃ (events : List (Event Unit)) (w : World Unit),
    Run Step newInstallation events w ∧ w.last .inputMethod = .vni ∧
    w.last (.feature .smartSwitch) = true ∧
      w.Agrees := by
  have hrun : Run (Meeting Orderly Step) newInstallation
      [.change .inputMethod .vni, .readSettings, .writeSettings, .save,
        .readSettings, .writeSettings, .trayLoad (.feature .smartSwitch) true, .traySave, .trayRead,
          .trayWrite, .post, .reload] _ :=
    .cons ⟨⟨rfl, rfl, fun _ => rfl⟩, .change rfl⟩
      (.cons ⟨World.unread_of_idle rfl rfl rfl, .syncRead rfl⟩
      (.cons ⟨trivial, .syncWrite rfl⟩ (.cons ⟨trivial, .save rfl rfl⟩
      (.cons ⟨World.unread_of_idle rfl rfl rfl, .savedRead rfl⟩ (.cons ⟨trivial, .savedWrite rfl⟩
      (.cons ⟨⟨⟨rfl, rfl⟩, fun _ => rfl⟩, .trayLoad rfl⟩ (.cons ⟨trivial, .traySave rfl⟩
      (.cons ⟨World.unread_of_idle rfl rfl rfl, .trayRead rfl⟩ (.cons ⟨trivial, .trayWrite rfl⟩
      (.cons ⟨trivial, .post rfl⟩ (.cons ⟨trivial, .reload rfl rfl⟩ .nil)))))))))))
  exact ⟨_, _, hrun.mono fun _ _ _ hstep => hstep.2, rfl, rfl,
    agrees_of_run hrun ⟨⟨rfl, rfl⟩, rfl, rfl, fun _ => rfl⟩⟩

/-- The dialog switches to VNI, and before it saves the tray switches smart switch on: the tray
publishes the input method of the file, and the dialog reloads it and saves it. -/
theorem not_agrees_of_run : ¬∀ (events : List (Event Unit)) (w : World Unit),
    Run Step newInstallation events w → w.Settled → w.Agrees := by
  intro h
  have hrun : Run Step newInstallation
      [.change .inputMethod .vni, .readSettings, .writeSettings,
        .trayLoad (.feature .smartSwitch) true, .traySave, .trayRead, .trayWrite, .post, .reload,
        .save, .readSettings, .writeSettings] _ :=
    .cons (.change rfl) (.cons (.syncRead rfl) (.cons (.syncWrite rfl)
      (.cons (.trayLoad rfl) (.cons (.traySave rfl) (.cons (.trayRead rfl) (.cons (.trayWrite rfl)
      (.cons (.post rfl) (.cons (.reload rfl rfl)
      (.cons (.save rfl rfl) (.cons (.savedRead rfl) (.cons (.savedWrite rfl) .nil)))))))))))
  obtain ⟨hfile, -⟩ := h _ _ hrun ⟨⟨rfl, rfl⟩, rfl, rfl, fun _ => rfl⟩ .inputMethod
  have hsaved := congrFun
    (values_saveToFile (saveToFile [] ((loadFromFile []).change (.feature .smartSwitch) true))
      (loadFromFile (saveToFile [] ((loadFromFile []).change (.feature .smartSwitch) true))))
    .inputMethod
  have htray := congrFun
    (values_saveToFile [] ((loadFromFile []).change (.feature .smartSwitch) true)) .inputMethod
  have htelex : InputMethod.telex = InputMethod.vni := (hsaved.trans htray).symm.trans hfile
  cases htelex

end SettingsSync

end ConfigManager

end VKey
