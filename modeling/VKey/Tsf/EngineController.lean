import VKey.Config.SharedSettings
import VKey.Support.Run

/-!
# The configuration of a text service

A text service reads the settings of the shared state into a pending configuration.  The pending
configuration becomes active, and a new engine is created from it, when nothing is being typed.  The
macro table comes from the TOML file; the lexicon comes from the wire mapping or from the file, in
the builds that have the Rust engine.
-/

namespace VKey

namespace EngineController

open ConfigManager (featureFlag featureFlags)
open HookEngine.ConfigSync (FeatureFlag)

abbrev TypingConfig := ConfigManager.TypingConfig

/-! ## The shared state -/

/-- The fields of the shared state that a text service reads. -/
structure Fields where
  inputMethod : UInt8
  spellCheck : UInt8
  optimizeLevel : UInt8
  featureFlags : Nat
  configGeneration : UInt8
  deriving DecidableEq

/-- The shared state, with the number of increments of its epoch; it is odd during a write. -/
structure SharedState where
  epochs : Nat
  fields : Fields
  engineEnabled : Bool
  tsfActive : Bool
  vietnameseMode : Bool

def SharedState.epoch (shared : SharedState) : BitVec 32 := BitVec.ofNat 32 shared.epochs

/-- The enumerators in the order of their values. -/
def inputMethods : List InputMethod := [.telex, .vni, .simpleTelex, .combined, .userDefined]

/-- The method of `ApplySharedState`; it takes a value above 2 for an invalid one. -/
def newMethod (inputMethod : UInt8) : InputMethod :=
  if inputMethod ≤ 2 then (inputMethods[inputMethod.toNat]?).getD .telex else .telex

namespace TypingConfig

/-- The levels are 0 for off, 1 for standard and 2 for advanced. -/
def setSpellCheckLevel (config : TypingConfig) (level : UInt8) : TypingConfig :=
  { config with spellCheckEnabled := level != 0, spellSuggestEnabled := level == 2 }

def decodeFeatureFlags (flags : Nat) (config : TypingConfig) : TypingConfig :=
  featureFlags.foldl (fun config f => config.setFlag (flags &&& f.mask != 0) (featureFlag f)) config

/-- What `ApplySharedState` takes from the shared state. -/
def apply (config : TypingConfig) (fields : Fields) : TypingConfig :=
  decodeFeatureFlags fields.featureFlags
    { setSpellCheckLevel { config with
        inputMethod := newMethod fields.inputMethod } fields.spellCheck with
      optimizeLevel := if fields.optimizeLevel ≤ 2 then fields.optimizeLevel else 0 }

end TypingConfig

/-! ## The host -/

/-- How the library has been built, and whether it finds the Rust engine. -/
structure Build where
  useRustEngine : Bool
  libraryAvailable : Bool

/-- What the wire mapping or the file has for the spell checker. -/
structure Lexicon where
  spellSuggestEnabled : Bool
  spellExclusions : List (List WChar)
  userDictionary : List (List WChar)

/-- The choices of the TOML file that are not in the shared state. -/
structure MacroTriggers where
  macroTriggerSpace : Bool
  macroTriggerEnter : Bool
  macroTriggerTab : Bool
  macroTriggerDir : Bool

def setMacroTriggers (triggers : MacroTriggers) (config : TypingConfig) : TypingConfig :=
  { config with
    macroTriggerSpace := triggers.macroTriggerSpace
    macroTriggerEnter := triggers.macroTriggerEnter
    macroTriggerTab := triggers.macroTriggerTab
    macroTriggerDir := triggers.macroTriggerDir }

inductive MacroTableAction where
  | none
  | reload
  | keepStale
  deriving DecidableEq, Repr

def decideMacroTable (loaded : Bool) (loadedGen stateGen : UInt8) (allowDiskRead : Bool) :
    MacroTableAction :=
  if loaded && loadedGen == stateGen then .none
  else if allowDiskRead then .reload
  else if loadedGen != stateGen then .reload
  else .keepStale

/-- What the wire mapping gives. -/
inductive Wire where
  | unavailable
  | unchanged
  /-- The dictionary does not compile, or the exclusions do not decode. -/
  | malformed
  | updated (lexicon : Lexicon)

/-- An engine: the configuration of its creation, its number among the engines and the
dictionary. -/
structure Engine where
  config : TypingConfig
  number : Nat
  userDictionary : Option (List (List WChar))

structure Host where
  engine : Option Engine
  /-- The number of engines created so far. -/
  created : Nat
  /-- `engine_->Count()`. -/
  engineBufferCount : Nat
  isComposing : Bool
  rawMacroBuffer : List WChar
  macroCrossCommit : Bool
  pendingReviveWord : List WChar
  activeConfig : TypingConfig
  pendingConfig : Option TypingConfig
  engineNeedsRecreate : Bool
  connected : Bool
  abiOk : Bool
  lastEpoch : BitVec 32
  engineEnabled : Bool
  tsfActive : Bool
  vietnameseMode : Bool
  macroGeneration : UInt8
  macroConfigLoaded : Bool
  activeUserDictionary : Option (List (List WChar))
  pendingUserDictionary : Option (List (List WChar))
  userDictionaryGeneration : UInt8
  userDictionaryGenerationKnown : Bool
  userDictionaryNeedsReload : Bool
  pendingLexiconSnapshot : Bool
  wireReaderActive : Bool
  /-- The increments of the epoch of the state that a check of the configuration has read last. -/
  read : Nat
  /-- The state that has been applied last, with the increments of its epoch. -/
  applied : Option (Nat × Fields)
  /-- The settings of the lexicon that has been staged last. -/
  lexicon : Bool × List (List WChar)

namespace Host

/-- Before the constructor has run. -/
def initial : Host where
  engine := none
  created := 0
  engineBufferCount := 0
  isComposing := false
  rawMacroBuffer := []
  macroCrossCommit := false
  pendingReviveWord := []
  activeConfig := {}
  pendingConfig := none
  engineNeedsRecreate := false
  connected := false
  abiOk := false
  lastEpoch := 0
  engineEnabled := true
  tsfActive := false
  vietnameseMode := true
  macroGeneration := 0
  macroConfigLoaded := false
  activeUserDictionary := none
  pendingUserDictionary := none
  userDictionaryGeneration := 0
  userDictionaryGenerationKnown := false
  userDictionaryNeedsReload := false
  pendingLexiconSnapshot := false
  wireReaderActive := false
  read := 0
  applied := none
  lexicon := (false, [])

/-- `EngineFactory::Create`. -/
def createEngine (h : Host) : Host :=
  { h with
    engine := some ⟨h.activeConfig, h.created, none⟩
    created := h.created + 1
    engineBufferCount := 0 }

def clearMacroTracking (h : Host) : Host :=
  { h with rawMacroBuffer := [], macroCrossCommit := false }

def clearMacroTrackingAfterCommit (h : Host) : Host :=
  if h.macroCrossCommit then h else h.clearMacroTracking

/-! ## The promotion of the pending configuration -/

def canPromoteTsfConfig (h : Host) : Bool :=
  h.engineBufferCount == 0 && !h.isComposing && h.rawMacroBuffer.isEmpty &&
    h.pendingReviveWord.isEmpty

def canPromotePendingConfig (h : Host) : Bool := h.engine.isNone || h.canPromoteTsfConfig

def willUseRustEngine (b : Build) (config : TypingConfig) : Bool :=
  b.useRustEngine && config.spellSuggestEnabled && b.libraryAvailable

/-- The engine takes a dictionary, or refuses it. -/
def setUserDictionary (h : Host) (userDictionary : List (List WChar)) (attached : Bool) : Host :=
  if attached then
    { h with
        engine := h.engine.map fun engine => { engine with userDictionary := some userDictionary } }
  else h

def takeUserDictionary (h : Host) : Host :=
  match h.pendingUserDictionary with
  | some userDictionary =>
      { h with activeUserDictionary := some userDictionary, pendingUserDictionary := none }
  | none => h

def tryAttachUserDictionary (b : Build) (attached : Bool) (h : Host) : Host :=
  match h.pendingUserDictionary with
  | none => h
  | some userDictionary =>
      if h.engine.isNone || !h.canPromotePendingConfig || !willUseRustEngine b h.activeConfig then h
      else if attached then
        let h := (h.setUserDictionary userDictionary true).takeUserDictionary
        if h.pendingConfig.isNone && !h.userDictionaryNeedsReload then
          { h with pendingLexiconSnapshot := false }
        else h
      else h

/-- The pending configuration becomes the active one. -/
def activate (h : Host) : Host :=
  match h.pendingConfig with
  | some config => { h with activeConfig := config, pendingConfig := none }
  | none => h

/-- A new engine takes the pending dictionary, or the active one. -/
def recreateEngine (b : Build) (attached : Bool) (h : Host) : Host :=
  let h := { h.createEngine with engineNeedsRecreate := false }
  if willUseRustEngine b h.activeConfig then
    match h.pendingUserDictionary.or h.activeUserDictionary with
    | some userDictionary =>
        let h := h.setUserDictionary userDictionary attached
        if attached then h.takeUserDictionary else h
    | none => h
  else h.takeUserDictionary

def tryPromotePendingConfig (b : Build) (attached : Bool) (h : Host) : Host :=
  if !h.engineNeedsRecreate && h.pendingUserDictionary.isNone then h
  else if !h.canPromotePendingConfig then h
  else
    let h := h.activate
    let h :=
      if h.engineNeedsRecreate || h.engine.isNone then h.recreateEngine b attached
      else h.tryAttachUserDictionary b attached
    if h.pendingConfig.isNone && h.pendingUserDictionary.isNone && !h.userDictionaryNeedsReload then
      { h with pendingLexiconSnapshot := false }
    else h

/-! ## The macro table and the lexicon -/

/-- The file may be unreadable; the triggers live only in the file. -/
def reloadMacros (h : Host) (generation : UInt8) (diskConfig : Option MacroTriggers) : Host :=
  if h.macroConfigLoaded && h.macroGeneration == generation then h
  else
    match diskConfig with
    | none => { h with macroGeneration := generation }
    | some triggers =>
        let h := { h.clearMacroTracking with
            macroConfigLoaded := true, macroGeneration := generation }
        if !h.activeConfig.macroEnabled && !(h.pendingConfig.any fun config =>
          config.macroEnabled) then h
        else
          { h with
            activeConfig := setMacroTriggers triggers h.activeConfig
            pendingConfig := h.pendingConfig.map (setMacroTriggers triggers) }

/-- Both sources stage their lexicon in the same way; only another value needs a new engine. -/
def stageLexicon (lexicon : Lexicon) (h : Host) : Host :=
  let config := h.pendingConfig.getD h.activeConfig
  { h with
    pendingConfig := some
      { config with
        spellSuggestEnabled := lexicon.spellSuggestEnabled
        spellExclusions := lexicon.spellExclusions }
    engineNeedsRecreate := h.engineNeedsRecreate
      || config.spellSuggestEnabled != lexicon.spellSuggestEnabled
      || config.spellExclusions != lexicon.spellExclusions
    pendingUserDictionary := some lexicon.userDictionary
    pendingLexiconSnapshot := true
    userDictionaryNeedsReload := false
    lexicon := (lexicon.spellSuggestEnabled, lexicon.spellExclusions) }

/-- A new generation needs a new lexicon; a staged one keeps its dictionary. -/
def noteGeneration (generation : UInt8) (h : Host) : Host :=
  if !h.userDictionaryGenerationKnown || h.userDictionaryGeneration != generation then
    { h with
      userDictionaryGenerationKnown := true
      userDictionaryGeneration := generation
      userDictionaryNeedsReload := true
      pendingUserDictionary := if h.pendingLexiconSnapshot then h.pendingUserDictionary else none }
  else h

def refreshUserDictionarySnapshot (generation : UInt8) (allowDiskRead : Bool) (wire : Wire)
    (disk : Option Lexicon) (h : Host) : Host :=
  let h := h.noteGeneration generation
  match wire with
  | .unchanged => { h with wireReaderActive := true, userDictionaryNeedsReload := false }
  | .malformed => { h with wireReaderActive := true }
  | .updated lexicon => { h with wireReaderActive := true }.stageLexicon lexicon
  | .unavailable =>
      if allowDiskRead then
        match disk with
        | some lexicon => h.stageLexicon lexicon
        | none => h
      else h

/-! ## The application of the shared state -/

/-- The settings of the lexicon are those of the staged lexicon, or the active ones. -/
def keepLexicon (h : Host) (config : TypingConfig) : TypingConfig :=
  let lexiconConfig := if h.pendingLexiconSnapshot then h.pendingConfig.getD
    h.activeConfig else h.activeConfig
  { config with
    spellSuggestEnabled := lexiconConfig.spellSuggestEnabled
    spellExclusions := lexiconConfig.spellExclusions }

/-- The first part of `ApplySharedState`, up to the lexicon. -/
def stage (b : Build) (state : SharedState) (h : Host) : Host :=
  let newConfig := TypingConfig.apply h.activeConfig state.fields
  { h with
    engineEnabled := state.engineEnabled
    vietnameseMode := state.vietnameseMode
    pendingConfig := some (if b.useRustEngine then h.keepLexicon newConfig else newConfig)
    engineNeedsRecreate := true
    applied := some (state.epochs, state.fields) }

/-- The part of `ApplySharedState` between the lexicon and the promotion; the mode is that from
before the call. -/
def updateMacroTable (wasVietnameseMode : Bool) (fields : Fields) (allowMacroDiskRead : Bool)
    (diskConfig : Option MacroTriggers) (h : Host) : Host :=
  let newConfig := TypingConfig.apply h.activeConfig fields
  let h := if wasVietnameseMode != h.vietnameseMode then h.clearMacroTracking else h
  let h :=
    if h.activeConfig.macroEnabled != newConfig.macroEnabled then
      { h with macroConfigLoaded := false } else h
  match decideMacroTable h.macroConfigLoaded h.macroGeneration fields.configGeneration
    allowMacroDiskRead with
  | .none => h
  | .reload => h.reloadMacros fields.configGeneration diskConfig
  | .keepStale => h

end Host

end EngineController

end VKey
