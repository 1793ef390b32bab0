import VKey.Tsf.EngineController

/-!
# The steps of a text service

The host calls the text service on its own thread; the application writes the shared state
meanwhile.  Every access of the shared state and every attempt of a promotion is one step.  An edit
session may leave the composition open or end it, and the host may end the composition during a
call.
-/

namespace VKey

namespace EngineController

/-! ## The calls that type -/

/-- What a call does to the engine, to the composition and to the macros. -/
inductive Action where
  | engineBuffer (count : Nat)
  | composition (isComposing : Bool)
  | rawMacroBuffer (buffer : List WChar)
  | macroCrossCommit
  | clearMacroTracking
  | clearMacroTrackingAfterCommit
  | pendingRevive (word : List WChar)
  | promote (attached : Bool)

def Host.act (b : Build) (h : Host) : Action → Host
  | .engineBuffer count => { h with engineBufferCount := count }
  | .composition isComposing => { h with isComposing := isComposing }
  | .rawMacroBuffer buffer => { h with rawMacroBuffer := buffer }
  | .macroCrossCommit => { h with macroCrossCommit := true }
  | .clearMacroTracking => h.clearMacroTracking
  | .clearMacroTrackingAfterCommit => h.clearMacroTrackingAfterCommit
  | .pendingRevive word => { h with pendingReviveWord := word }
  | .promote attached => h.tryPromotePendingConfig b attached

/-- The calls, with what the engine and the edit sessions answer. -/
inductive Call where
  | trackMacro (buffer : List WChar)
  | clearMacroTracking
  | pushEngineKey (count : Nat) (started : Bool)
  | pushDigit (count : Nat)
  | prepareBackspaceRevive (word : List WChar)
  | revive (count : Nat) (isComposing : Bool)
  | clearPendingRevive
  | processBackspace (buffer : List WChar) (count : Nat) (isComposing : Bool)
  | commit (isComposing : Bool)
  | commitWithChar (isComposing : Bool)
  | commitRawAndEnd (isComposing : Bool)
  | endCompositionVerbatim (isComposing : Bool)
  | keepMacroCandidate (buffer : List WChar)
  | expandMacro (isComposing engineReset : Bool)
  | undoMacro (shortcut : List WChar)
  | resetEngine
  | reset
  | keyNotHandled

/-- The actions of a call; the dictionary of a promotion is attached or refused. -/
def Call.actions (h : Host) (attached : Bool) : Call → List Action
  | .trackMacro buffer => [.rawMacroBuffer buffer]
  | .clearMacroTracking => [.clearMacroTracking]
  | .pushEngineKey count started =>
      if h.isComposing then [.engineBuffer count]
      else if started then [.engineBuffer count, .composition true]
      else [.engineBuffer count, .engineBuffer 0]
  | .pushDigit count => [.engineBuffer count]
  | .prepareBackspaceRevive word => [.pendingRevive [], .pendingRevive word]
  | .revive count isComposing => [.engineBuffer count, .composition isComposing]
  | .clearPendingRevive => [.pendingRevive []]
  | .processBackspace buffer count isComposing =>
      if count = 0 then
        [.rawMacroBuffer buffer, .engineBuffer 0, .composition isComposing, .promote attached]
      else [.rawMacroBuffer buffer, .engineBuffer count]
  | .commit isComposing =>
      [.engineBuffer 0, .composition isComposing, .clearMacroTracking, .promote attached]
  | .commitWithChar isComposing =>
      [.engineBuffer 0, .composition isComposing, .clearMacroTrackingAfterCommit, .promote attached]
  | .commitRawAndEnd isComposing =>
      [.composition isComposing, .engineBuffer 0, .clearMacroTracking, .promote attached]
  | .endCompositionVerbatim isComposing =>
      [.composition isComposing, .engineBuffer 0, .clearMacroTracking, .promote attached]
  | .keepMacroCandidate buffer => [.rawMacroBuffer buffer, .macroCrossCommit]
  | .expandMacro isComposing engineReset =>
      if engineReset then [.composition isComposing, .engineBuffer 0, .clearMacroTracking]
      else [.composition isComposing, .clearMacroTracking]
  | .undoMacro shortcut => [.rawMacroBuffer shortcut, .macroCrossCommit]
  | .resetEngine => [.engineBuffer 0]
  | .reset => [.clearMacroTracking, .engineBuffer 0, .composition false, .promote attached]
  | .keyNotHandled => [.promote attached]

/-! ## The places -/

/-- Who calls `ApplySharedState`. -/
inductive Caller where
  | constructor
  | checkConfigEvent
  | refreshFlags

inductive Place where
  | constructing
  /-- In a call that types, with the actions that are left; none are left between the calls. -/
  | calling (actions : List Action)
  /-- In `CheckConfigEvent`. -/
  | checking (allowMacroDiskRead : Bool)
  | connecting (allowMacroDiskRead : Bool)
  | checkingAbi (allowMacroDiskRead : Bool)
  | loadingEpoch (allowMacroDiskRead recoveredAbi : Bool)
  /-- The epoch is the last one. -/
  | refreshingLexicon (allowMacroDiskRead : Bool)
  | attaching (allowMacroDiskRead : Bool)
  | promotingAgain (allowMacroDiskRead : Bool)
  | reloadingMacros (allowMacroDiskRead : Bool)
  /-- The epoch is another one. -/
  | reading (allowMacroDiskRead recoveredAbi : Bool)
  /-- `CheckConfigEvent` has read the state or found its epoch unchanged, and returns; it may have
  reloaded the macros after the promotion. -/
  | checked (reloaded : Bool)
  /-- In `ApplySharedState`. -/
  | staging (state : SharedState) (allowMacroDiskRead : Bool) (caller : Caller)
  | stagingLexicon (state : SharedState) (allowMacroDiskRead wasVietnameseMode : Bool)
        (caller : Caller)
  | updatingMacros (state : SharedState) (allowMacroDiskRead wasVietnameseMode : Bool)
        (caller : Caller)
  | promoting (state : SharedState) (caller : Caller)
  /-- `ApplySharedState` has returned to the constructor. -/
  | constructed (state : SharedState)
  /-- In `RefreshFlags`. -/
  | refreshing

/-- Where `ApplySharedState` returns to. -/
def Caller.next (state : SharedState) : Caller → Place
  | .constructor => .constructed state
  | .checkConfigEvent => .checked false
  | .refreshFlags => .calling []

/-! ## The steps of the host -/

namespace Host

/-- The constructor without a state that it could read. -/
def useDefaults (connected abiOk wireOpened : Bool) (h : Host) : Host :=
  { createEngine
      { h with
        connected := connected
        abiOk := abiOk
        engineEnabled := connected
        activeConfig :=
          { h.activeConfig with
              inputMethod := .telex, spellCheckEnabled := false, optimizeLevel := 0 } } with
    wireReaderActive := wireOpened }

/-- The flags that `RefreshFlags` and `RefreshKeyRouting` take; a change ends the tracking of
macros. -/
def setFlags (engineEnabled tsfActive vietnameseMode : Bool) (h : Host) : Host :=
  let changed := h.engineEnabled != engineEnabled || h.tsfActive != tsfActive
    || h.vietnameseMode != vietnameseMode
  let h := if changed then h.clearMacroTracking else h
  { h with
      engineEnabled := engineEnabled, tsfActive := tsfActive, vietnameseMode := vietnameseMode }

/-- `RefreshFlags` without a state. -/
def disable (h : Host) : Host :=
  let h := if h.engineEnabled || h.tsfActive then h.clearMacroTracking else h
  { h with engineEnabled := false, tsfActive := false }

/-- `RefreshKeyRouting`; it stops at the first flag that sends the keys on. -/
def refreshKeyRouting (engineEnabled tsfActive vietnameseMode : Bool) (h : Host) : Host :=
  if !h.abiOk || !h.connected then h
  else if !engineEnabled then h.setFlags false h.tsfActive h.vietnameseMode
  else if !tsfActive then h.setFlags true false h.vietnameseMode
  else h.setFlags true true vietnameseMode

end Host

/-- One step of the host.  The mapping is compatible: its header is at most not readable yet. -/
inductive HostStep (b : Build) (shared : SharedState) : Host → Place → Host → Place → Prop
  | constructDefaults {h : Host} (connected abiOk wireOpened : Bool) :
      HostStep b shared h .constructing (h.useDefaults connected abiOk wireOpened) (.calling [])
  | constructRead {h : Host} (heven : shared.epochs % 2 = 0) :
      HostStep b shared h .constructing { h with connected := true, abiOk := true }
        (.staging shared true .constructor)
  | constructed {h : Host} {state : SharedState} (wireOpened : Bool) :
      HostStep b shared h (.constructed state)
        { h with lastEpoch := state.epoch, read := state.epochs, wireReaderActive := wireOpened }
        (.calling [])
  | call {h : Host} (call : Call) (attached : Bool) :
      HostStep b shared h (.calling []) h (.calling (call.actions h attached))
  | act {h : Host} {action : Action} {actions : List Action} :
      HostStep b shared h (.calling (action :: actions)) (h.act b action) (.calling actions)
  /-- The host ends the composition. -/
  | onCompositionTerminated {h : Host} {actions : List Action} (attached : Bool)
      (hcomposing : h.isComposing = true) :
      HostStep b shared h (.calling actions) { h with isComposing := false }
        (.calling (Call.reset.actions h attached ++ actions))
  | refreshKeyRouting {h : Host} :
      HostStep b shared h (.calling [])
        (h.refreshKeyRouting shared.engineEnabled shared.tsfActive shared.vietnameseMode)
          (.calling [])
  | check {h : Host} (allowMacroDiskRead : Bool) :
      HostStep b shared h (.calling []) h (.checking allowMacroDiskRead)
  | promoteFirst {h : Host} {allowMacroDiskRead : Bool} (attached : Bool) :
      HostStep b shared h (.checking allowMacroDiskRead) (h.tryPromotePendingConfig b attached)
        (.connecting allowMacroDiskRead)
  | connect {h : Host} {allowMacroDiskRead : Bool} :
      HostStep b shared h (.connecting allowMacroDiskRead) { h with connected := true }
        (.checkingAbi allowMacroDiskRead)
  | connectFails {h : Host} {allowMacroDiskRead : Bool} (hconnected : h.connected = false) :
      HostStep b shared h (.connecting allowMacroDiskRead) h (.calling [])
  | abiOk {h : Host} {allowMacroDiskRead : Bool} :
      HostStep b shared h (.checkingAbi allowMacroDiskRead) { h with abiOk := true }
        (.loadingEpoch allowMacroDiskRead !h.abiOk)
  | abiRetry {h : Host} {allowMacroDiskRead : Bool} (habi : h.abiOk = false) :
      HostStep b shared h (.checkingAbi allowMacroDiskRead) h (.calling [])
  | loadEpoch {h : Host} {allowMacroDiskRead recoveredAbi : Bool} :
      HostStep b shared h (.loadingEpoch allowMacroDiskRead recoveredAbi) h
        (if recoveredAbi = false ∧
          shared.epoch = h.lastEpoch then .refreshingLexicon allowMacroDiskRead
          else .reading allowMacroDiskRead recoveredAbi)
  | refreshLexicon {h : Host} {allowMacroDiskRead : Bool} (wire : Wire) (disk : Option Lexicon) :
      HostStep b shared h (.refreshingLexicon allowMacroDiskRead)
        (if b.useRustEngine && (h.userDictionaryNeedsReload || h.wireReaderActive) then
          h.refreshUserDictionarySnapshot h.userDictionaryGeneration allowMacroDiskRead wire disk
        else h)
        (.attaching allowMacroDiskRead)
  | attach {h : Host} {allowMacroDiskRead : Bool} (attached : Bool) :
      HostStep b shared h (.attaching allowMacroDiskRead)
        (if b.useRustEngine then h.tryAttachUserDictionary b attached else h)
        (.promotingAgain allowMacroDiskRead)
  | promoteAgain {h : Host} {allowMacroDiskRead : Bool} (attached : Bool) :
      HostStep b shared h (.promotingAgain allowMacroDiskRead)
        (h.tryPromotePendingConfig b attached)
        (.reloadingMacros allowMacroDiskRead)
  | reloadMacros {h : Host} {allowMacroDiskRead : Bool} (diskConfig : Option MacroTriggers) :
      HostStep b shared h (.reloadingMacros allowMacroDiskRead)
        (if allowMacroDiskRead && !h.macroConfigLoaded then h.reloadMacros
          h.macroGeneration diskConfig else h)
        (.checked (allowMacroDiskRead && !h.macroConfigLoaded))
  | read {h : Host} {allowMacroDiskRead recoveredAbi : Bool} (heven : shared.epochs % 2 = 0) :
      HostStep b shared h (.reading allowMacroDiskRead recoveredAbi)
        { h with lastEpoch := shared.epoch, read := shared.epochs }
        (.staging shared (allowMacroDiskRead || recoveredAbi) .checkConfigEvent)
  | readFails {h : Host} {allowMacroDiskRead recoveredAbi : Bool} :
      HostStep b shared h (.reading allowMacroDiskRead recoveredAbi) h (.calling [])
  | returned {h : Host} {reloaded : Bool} : HostStep b shared h (.checked reloaded) h (.calling [])
  | stage {h : Host} {state : SharedState} {allowMacroDiskRead : Bool} {caller : Caller} :
      HostStep b shared h (.staging state allowMacroDiskRead caller) (h.stage b state)
        (.stagingLexicon state allowMacroDiskRead h.vietnameseMode caller)
  | stageLexicon {h : Host} {state : SharedState} {allowMacroDiskRead wasVietnameseMode : Bool}
      {caller : Caller} (wire : Wire) (disk : Option Lexicon) :
      HostStep b shared h (.stagingLexicon state allowMacroDiskRead wasVietnameseMode caller)
        (if b.useRustEngine then
          h.refreshUserDictionarySnapshot state.fields.configGeneration allowMacroDiskRead wire disk
        else h)
        (.updatingMacros state allowMacroDiskRead wasVietnameseMode caller)
  | updateMacros {h : Host} {state : SharedState} {allowMacroDiskRead wasVietnameseMode : Bool}
      {caller : Caller} (diskConfig : Option MacroTriggers) :
      HostStep b shared h (.updatingMacros state allowMacroDiskRead wasVietnameseMode caller)
        (h.updateMacroTable wasVietnameseMode state.fields allowMacroDiskRead diskConfig)
        (.promoting state caller)
  | promoteStaged {h : Host} {state : SharedState} {caller : Caller} (attached : Bool) :
      HostStep b shared h (.promoting state caller) (h.tryPromotePendingConfig b attached)
        (caller.next state)
  | refresh {h : Host} : HostStep b shared h (.calling []) h .refreshing
  | refreshReads {h : Host} (heven : shared.epochs % 2 = 0) :
      HostStep b shared h .refreshing
        { h.setFlags shared.engineEnabled shared.tsfActive shared.vietnameseMode with
            connected := true }
        (if !h.engineEnabled && shared.engineEnabled then .staging shared true .refreshFlags
          else .calling [])
  | refreshFails {h : Host} : HostStep b shared h .refreshing h.disable (.calling [])

/-! ## The steps of the system -/

structure State where
  shared : SharedState
  host : Host
  place : Place

inductive Event where
  | beginWrite
  | endWrite
  | writeFlags
  | host
  deriving DecidableEq, Repr

inductive Step (b : Build) : State → Event → State → Prop
  | beginWrite {s : State} (heven : s.shared.epochs % 2 = 0) :
      Step b s .beginWrite { s with shared := { s.shared with epochs := s.shared.epochs + 1 } }
  | endWrite {s : State} (state : SharedState) (hodd : s.shared.epochs % 2 = 1)
      (hepochs : state.epochs = s.shared.epochs + 1) : Step b s .endWrite { s with shared := state }
  /-- The flags change without the epoch. -/
  | writeFlags {s : State} (engineEnabled tsfActive vietnameseMode : Bool) :
      Step b s .writeFlags
        { s with
          shared :=
            { s.shared with
              engineEnabled := engineEnabled
              tsfActive := tsfActive
              vietnameseMode := vietnameseMode } }
  | host {s : State} {host : Host} {place : Place}
      (h : HostStep b s.shared s.host s.place host place) : Step b s .host ⟨s.shared, host, place⟩

/-- The mapping has been created, and the constructor has not run. -/
structure State.Initial (s : State) : Prop where
  created : 2 ≤ s.shared.epochs
  host : s.host = Host.initial
  place : s.place = .constructing

end EngineController

end VKey
