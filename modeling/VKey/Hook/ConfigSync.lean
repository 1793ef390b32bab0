import Mathlib.Algebra.Ring.Nat
import Mathlib.Logic.Function.Basic
import VKey.Support.Run

/-!
# The configuration of the hook engine

The settings write the shared state at once and the TOML file later.  Threads other than the hook
thread compare the epoch of the shared state with the last one they have seen, claim the new epoch
by a compare-and-swap and publish the configuration.  Every access of an atomic is one step.
-/

namespace VKey

namespace HookEngine

namespace ConfigSync

/-! ## Configurations -/

/-- The features of the configuration that have a bit in the shared state. -/
inductive FeatureFlag where
  | modernOrtho
  | autoCaps
  | allowZwjf
  | autoRestoreEnabled
  | cjkAutoSwitch
  | escRestoreRawEnabled
  | beepOnSwitch
  | macroEnabled
  | macroInEnglish
  | quickConsonant
  | quickStartConsonant
  | quickEndConsonant
  | smartSwitch
  | excludeApps
  | autoCapsMacro
  | macroTitleCase
  | allowEnglishBypass
  | debugLogEnabled
  | suggestKeepChars
  | hidePreeditUnderline
  | macroUndoOnBackspace
  deriving DecidableEq, Repr

def FeatureFlag.mask : FeatureFlag → Nat
  | .modernOrtho => 0x0001
  | .autoCaps => 0x0002
  | .allowZwjf => 0x0004
  | .autoRestoreEnabled => 0x0008
  | .cjkAutoSwitch => 0x0010
  | .escRestoreRawEnabled => 0x0020
  | .beepOnSwitch => 0x0080
  | .macroEnabled => 0x0100
  | .macroInEnglish => 0x0200
  | .quickConsonant => 0x0400
  | .quickStartConsonant => 0x0800
  | .quickEndConsonant => 0x1000
  | .smartSwitch => 0x4000
  | .excludeApps => 0x8000
  | .autoCapsMacro => 0x00010000
  | .allowEnglishBypass => 0x00020000
  | .debugLogEnabled => 0x00040000
  | .suggestKeepChars => 0x00080000
  | .hidePreeditUnderline => 0x00100000
  | .macroTitleCase => 0x00200000
  | .macroUndoOnBackspace => 0x00400000

/-- The fields that the engine follows, in the order in which it compares them. -/
inductive Field where
  | featureFlags
  | spellCheck
  | inputMethod
  | codeTable
  deriving DecidableEq, Repr

def Field.all : List Field := [.featureFlags, .spellCheck, .inputMethod, .codeTable]

/-- The values of the fields in the shared state. -/
abbrev Values := Field → Nat

/-- The part of `TypingConfig` that has a field in the shared state. -/
structure TypingConfig where
  inputMethod : Nat
  codeTable : Nat
  spellCheckEnabled : Bool
  spellSuggestEnabled : Bool
  features : FeatureFlag → Bool

namespace TypingConfig

def decodeFeatureFlags (flags : Nat) (config : TypingConfig) : TypingConfig :=
  { config with features := fun feature => flags &&& feature.mask != 0 }

/-- The levels are 0 for off, 1 for standard and 2 for advanced. -/
def setSpellCheckLevel (level : Nat) (config : TypingConfig) : TypingConfig :=
  { config with spellCheckEnabled := level != 0, spellSuggestEnabled := level == 2 }

/-- What `ReloadFromToml` takes from the shared state: not the code table. -/
def override (values : Values) (config : TypingConfig) : TypingConfig :=
  decodeFeatureFlags (values .featureFlags)
    (setSpellCheckLevel (values .spellCheck) { config with inputMethod := values .inputMethod })

/-- What `QuickSyncFromSharedState` takes from the shared state. -/
def decode (values : Values) (config : TypingConfig) : TypingConfig :=
  { setSpellCheckLevel (values .spellCheck) (decodeFeatureFlags (values .featureFlags) config) with
    inputMethod := values .inputMethod
    codeTable := values .codeTable }

end TypingConfig

/-! ## The state -/

/-- The shared state, with the number of increments of its epoch; it is odd during a write. -/
structure SharedState where
  epochs : Nat
  values : Values
  configGeneration : Nat

def SharedState.epoch (shared : SharedState) : BitVec 32 := BitVec.ofNat 32 shared.epochs

/-- Where the hook thread stands in `ApplyConfigOnHookThread`. -/
inductive Applying where
  | idle
  | loading
  | storing (targetMethod : Nat)
  deriving DecidableEq, Repr

/-- The atomics of the engine. -/
structure Engine where
  lastEpoch : BitVec 32
  lastConfigGeneration : Nat
  last : Values
  config : TypingConfig
  currentMethod : Nat
  currentCodeTable : Nat
  globalCodeTable : Nat
  /-- The bit of the mailbox. -/
  kConfigApply : Bool
  applying : Applying
  /-- The overrides of the application that has the focus. -/
  appInputMethodOverride : Option Nat
  appEncodingOverride : Option Nat
  /-- The increments of the epoch that was claimed last. -/
  claimed : Nat

/-- Where a thread stands in `QuickSyncFromSharedState`. -/
inductive Syncing where
  | idle
  /-- The fast path. -/
  | loadingEpoch
  | loadingSeen (epoch : BitVec 32)
  /-- The second comparison of the epochs. -/
  | reloadingEpoch
  | reloadingSeen (epoch : BitVec 32)
  | reading (seen : BitVec 32)
  | claiming (seen : BitVec 32) (state : SharedState)
  /-- After the claim, before the generations are compared. -/
  | claimed (state : SharedState)
  | storingGeneration (state : SharedState)
  /-- In `ReloadFromToml`. -/
  | loadingToml (state : SharedState)
  | overriding (state : SharedState) (config : TypingConfig)
  | publishing (state : SharedState) (config : TypingConfig)
  | reloadingCurrentTable (state : SharedState) (config : TypingConfig)
  | reloadingGlobalTable (state : SharedState) (config : TypingConfig)
  | reapplyingOverride (state : SharedState)
  | postingReload (state : SharedState)
  /-- The fields that are still to be compared, or to be stored. -/
  | comparing (state : SharedState) (fields : List Field)
  | storing (state : SharedState) (fields : List Field)
  | loadingConfig (state : SharedState)
  | loadingMethod (state : SharedState) (config : TypingConfig)
  | loadingTable (state : SharedState) (config : TypingConfig) (methodChanged : Bool)
  | storingConfig (state : SharedState) (config : TypingConfig)
        (methodChanged codeTableChanged : Bool)
  | posting (state : SharedState) (config : TypingConfig) (methodChanged codeTableChanged : Bool)
  | storingCurrentTable (state : SharedState) (config : TypingConfig) (codeTableChanged : Bool)
  | storingGlobalTable (state : SharedState) (config : TypingConfig)

/-- The steps of a run that a condition speaks about, and the others. -/
inductive Act where
  | claim
  | override (read : Option SharedState)
  | loadMethod
  | loadTable
  | other

/-- One step of a run. -/
inductive SyncStep (shared : SharedState) (toml : TypingConfig) :
    Engine → Syncing → Act → Engine → Syncing → Prop
  | call {e : Engine} : SyncStep shared toml e .idle .other e .loadingEpoch
  | loadEpoch {e : Engine} :
      SyncStep shared toml e .loadingEpoch .other e (.loadingSeen shared.epoch)
  | loadSeen {e : Engine} {epoch : BitVec 32} :
      SyncStep shared toml e (.loadingSeen epoch) .other e
        (if epoch = e.lastEpoch ∧ epoch &&& 1 = 0 then .idle else .reloadingEpoch)
  | reloadEpoch {e : Engine} :
      SyncStep shared toml e .reloadingEpoch .other e (.reloadingSeen shared.epoch)
  | reloadSeen {e : Engine} {epoch : BitVec 32} :
      SyncStep shared toml e (.reloadingSeen epoch) .other e
        (if epoch = e.lastEpoch ∧ epoch &&& 1 = 0 then .idle else .reading e.lastEpoch)
  | read {e : Engine} {seen : BitVec 32} (heven : shared.epochs % 2 = 0) :
      SyncStep shared toml e (.reading seen) .other e (.claiming seen shared)
  | readFails {e : Engine} {seen : BitVec 32} :
      SyncStep shared toml e (.reading seen) .other e .idle
  | claim {e : Engine} {seen : BitVec 32} {state : SharedState} (hseen : e.lastEpoch = seen) :
      SyncStep shared toml e (.claiming seen state) .claim
        { e with lastEpoch := state.epoch, claimed := state.epochs } (.claimed state)
  | claimFails {e : Engine} {seen : BitVec 32} {state : SharedState} (hseen : e.lastEpoch ≠ seen) :
      SyncStep shared toml e (.claiming seen state) .other e .idle
  | compareGeneration {e : Engine} {state : SharedState} :
      SyncStep shared toml e (.claimed state) .other e
        (if state.configGeneration = e.lastConfigGeneration then .comparing state Field.all
          else .storingGeneration state)
  | storeGeneration {e : Engine} {state : SharedState} :
      SyncStep shared toml e (.storingGeneration state) .other
        { e with lastConfigGeneration := state.configGeneration } (.loadingToml state)
  | loadToml {e : Engine} {state : SharedState} :
      SyncStep shared toml e (.loadingToml state) .other e (.overriding state toml)
  | override {e : Engine} {state : SharedState} {config : TypingConfig}
        (heven : shared.epochs % 2 = 0) :
      SyncStep shared toml e (.overriding state config) (.override (some shared)) e
        (.publishing state (config.override shared.values))
  | overrideFails {e : Engine} {state : SharedState} {config : TypingConfig} :
      SyncStep shared toml e (.overriding state config)
        (.override none) e (.publishing state config)
  | publish {e : Engine} {state : SharedState} {config : TypingConfig} :
      SyncStep shared toml e (.publishing state config) .other { e with config := config }
        (.reloadingCurrentTable state config)
  | reloadCurrentTable {e : Engine} {state : SharedState} {config : TypingConfig} :
      SyncStep shared toml e (.reloadingCurrentTable state config) .other
        { e with currentCodeTable := config.codeTable } (.reloadingGlobalTable state config)
  | reloadGlobalTable {e : Engine} {state : SharedState} {config : TypingConfig} :
      SyncStep shared toml e (.reloadingGlobalTable state config) .other
        { e with globalCodeTable := config.codeTable } (.reapplyingOverride state)
  | reapplyOverride {e : Engine} {state : SharedState} :
      SyncStep shared toml e (.reapplyingOverride state) .other
        { e with currentCodeTable := e.appEncodingOverride.getD e.globalCodeTable }
        (.postingReload state)
  /-- The application is excluded or leaves the keys to the text service. -/
  | skipOverride {e : Engine} {state : SharedState} :
      SyncStep shared toml e (.reapplyingOverride state) .other e (.postingReload state)
  | postReload {e : Engine} {state : SharedState} :
      SyncStep shared toml e (.postingReload state) .other { e with kConfigApply := true }
        (.comparing state Field.all)
  | compare {e : Engine} {state : SharedState} {field : Field} {fields : List Field} :
      SyncStep shared toml e (.comparing state (field :: fields)) .other e
        (if state.values field = e.last field then .comparing state fields
          else .storing state Field.all)
  | unchanged {e : Engine} {state : SharedState} :
      SyncStep shared toml e (.comparing state []) .other e .idle
  | store {e : Engine} {state : SharedState} {field : Field} {fields : List Field} :
      SyncStep shared toml e (.storing state (field :: fields)) .other
        { e with last := Function.update e.last field (state.values field) } (.storing state fields)
  | stored {e : Engine} {state : SharedState} :
      SyncStep shared toml e (.storing state []) .other e (.loadingConfig state)
  | loadConfig {e : Engine} {state : SharedState} :
      SyncStep shared toml e (.loadingConfig state) .other e
        (.loadingMethod state (e.config.decode state.values))
  | loadMethod {e : Engine} {state : SharedState} {config : TypingConfig} :
      SyncStep shared toml e (.loadingMethod state config) .loadMethod e
        (.loadingTable state config (e.currentMethod != config.inputMethod))
  | loadTable {e : Engine} {state : SharedState} {config : TypingConfig} {methodChanged : Bool} :
      SyncStep shared toml e (.loadingTable state config methodChanged) .loadTable e
        (.storingConfig state config methodChanged (e.currentCodeTable != config.codeTable))
  | storeConfig {e : Engine} {state : SharedState} {config : TypingConfig}
      {methodChanged codeTableChanged : Bool} :
      SyncStep shared toml e (.storingConfig state config methodChanged codeTableChanged) .other
        { e with config := config } (.posting state config methodChanged codeTableChanged)
  | post {e : Engine} {state : SharedState} {config : TypingConfig}
      {methodChanged codeTableChanged : Bool} :
      SyncStep shared toml e (.posting state config methodChanged codeTableChanged) .other
        { e with kConfigApply := e.kConfigApply || methodChanged }
        (.storingCurrentTable state config codeTableChanged)
  | storeCurrentTable {e : Engine} {state : SharedState} {config : TypingConfig} :
      SyncStep shared toml e (.storingCurrentTable state config true) .other
        { e with currentCodeTable := config.codeTable } (.storingGlobalTable state config)
  | tableUnchanged {e : Engine} {state : SharedState} {config : TypingConfig} :
      SyncStep shared toml e (.storingCurrentTable state config false) .other e .idle
  | storeGlobalTable {e : Engine} {state : SharedState} {config : TypingConfig} :
      SyncStep shared toml e (.storingGlobalTable state config) .other
        { e with globalCodeTable := config.codeTable } .idle

/-- One step of the hook thread. -/
inductive ApplyStep : Engine → Engine → Prop
  | take {e : Engine} (happlying : e.applying = .idle) (hbit : e.kConfigApply = true) :
      ApplyStep e { e with kConfigApply := false, applying := .loading }
  | load {e : Engine} (happlying : e.applying = .loading) :
      ApplyStep e
        { e with applying := .storing (e.appInputMethodOverride.getD e.config.inputMethod) }
  | store {e : Engine} {targetMethod : Nat} (happlying : e.applying = .storing targetMethod) :
      ApplyStep e { e with currentMethod := targetMethod, applying := .idle }

/-- The shared state, the TOML file, the engine and the threads. -/
structure State (ι : Type) where
  shared : SharedState
  toml : TypingConfig
  engine : Engine
  syncing : ι → Syncing

inductive Event (ι : Type) where
  | beginWrite
  | endWrite
  | saveToml
  | sync (i : ι) (act : Act)
  | apply

variable {ι : Type} [DecidableEq ι]

def State.sync (s : State ι) (i : ι) (engine : Engine) (place : Syncing) : State ι :=
  { s with engine := engine, syncing := Function.update s.syncing i place }

inductive Step : State ι → Event ι → State ι → Prop
  | beginWrite {s : State ι} (heven : s.shared.epochs % 2 = 0) :
      Step s .beginWrite { s with shared := { s.shared with epochs := s.shared.epochs + 1 } }
  | endWrite {s : State ι} (values : Values) (configGeneration : Nat)
      (hodd : s.shared.epochs % 2 = 1) :
      Step s .endWrite { s with shared := ⟨s.shared.epochs + 1, values, configGeneration⟩ }
  | saveToml {s : State ι} (toml : TypingConfig) : Step s .saveToml { s with toml := toml }
  | sync {s : State ι} {i : ι} {act : Act} {engine : Engine} {place : Syncing}
      (h : SyncStep s.shared s.toml s.engine (s.syncing i) act engine place) :
      Step s (.sync i act) (s.sync i engine place)
  | apply {s : State ι} {engine : Engine} (h : ApplyStep s.engine engine) :
      Step s .apply { s with engine := engine }

/-- The engine has been started with the configuration of the shared state, which has been created
and written once. -/
def State.initial (values : Values) (configGeneration : Nat) (toml config : TypingConfig)
    (appInputMethodOverride appEncodingOverride : Option Nat) : State ι where
  shared := ⟨4, values, configGeneration⟩
  toml := toml
  engine := {
    lastEpoch := 0
    lastConfigGeneration := configGeneration
    last := values
    config := config.decode values
    currentMethod := values .inputMethod
    currentCodeTable := values .codeTable
    globalCodeTable := values .codeTable
    kConfigApply := false
    applying := .idle
    appInputMethodOverride := appInputMethodOverride
    appEncodingOverride := appEncodingOverride
    claimed := 0 }
  syncing _ := .idle

end ConfigSync

end HookEngine

end VKey
