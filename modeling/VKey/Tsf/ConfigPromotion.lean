import VKey.Tsf.ConfigSteps

/-!
# The settings are followed between words

The pending configuration, or the active one when none is pending, agrees with the state that has
been applied last.  A promotion makes it the configuration of the engine.
-/

namespace VKey

namespace EngineController

open ConfigManager (featureFlag featureFlags mem_featureFlags featureFlag_injective
  featureFlag_ne_spell)
open HookEngine.ConfigSync (FeatureFlag)

/-! ## Configurations -/

/-- The configuration without the choices that are not in the shared state. -/
def withoutTriggers (config : TypingConfig) : TypingConfig :=
  setMacroTriggers ⟨true, true, true, true⟩ config

/-- What a text service makes of the shared state and of a lexicon. -/
structure Follows (b : Build) (fields : Fields) (lexicon : Bool × List (List WChar))
    (config : TypingConfig) :
    Prop where
  inputMethod : config.inputMethod = newMethod fields.inputMethod
  spellCheckEnabled : config.spellCheckEnabled = (fields.spellCheck != 0)
  spellSuggestEnabled : config.spellSuggestEnabled =
    if b.useRustEngine then lexicon.1 else fields.spellCheck == 2
  features : ∀ f : FeatureFlag, config.flag (featureFlag f) = (fields.featureFlags &&& f.mask != 0)

theorem flag_withoutTriggers (config : TypingConfig) (f : FeatureFlag) :
    (withoutTriggers config).flag (featureFlag f) = config.flag (featureFlag f) := by
  cases f <;> rfl

theorem Follows.of_withoutTriggers {b : Build} {fields : Fields}
    {lexicon : Bool × List (List WChar)}
    {config other : TypingConfig} (h : Follows b fields lexicon config)
    (hsame : withoutTriggers other = withoutTriggers config) : Follows b fields lexicon other where
  inputMethod :=
    (congrArg (fun config : TypingConfig => config.inputMethod) hsame).trans h.inputMethod
  spellCheckEnabled :=
    (congrArg (fun config : TypingConfig => config.spellCheckEnabled) hsame).trans
      h.spellCheckEnabled
  spellSuggestEnabled :=
    (congrArg (fun config : TypingConfig => config.spellSuggestEnabled) hsame).trans
      h.spellSuggestEnabled
  features f := by
    rw [← flag_withoutTriggers other, hsame, flag_withoutTriggers]
    exact h.features f

theorem flag_foldl_setFlag {flags : Nat} (f : FeatureFlag) (features : List FeatureFlag)
    (config : TypingConfig) :
    (features.foldl (fun config g => config.setFlag (flags &&& g.mask != 0) (featureFlag g))
        config).flag (featureFlag f) =
      if f ∈ features then flags &&& f.mask != 0 else config.flag (featureFlag f) := by
  induction features generalizing config with
  | nil => rfl
  | cons g features ih =>
      rw [List.foldl_cons, ih]
      by_cases hf : f = g
      · subst hf
        rw [config.flag_setFlag_self, if_pos List.mem_cons_self, ite_self]
      · rw [config.flag_setFlag_of_ne _ fun h => hf (featureFlag_injective h)]
        simp only [List.mem_cons, hf, false_or]

theorem frame_foldl_setFlag {flags : Nat} (features : List FeatureFlag) (config : TypingConfig) :
    let decoded :=
    features.foldl (fun config g => config.setFlag (flags &&& g.mask != 0) (featureFlag g)) config
    decoded.inputMethod = config.inputMethod ∧
      decoded.spellCheckEnabled = config.spellCheckEnabled ∧
      decoded.spellSuggestEnabled = config.spellSuggestEnabled ∧
      decoded.spellExclusions = config.spellExclusions := by
  induction features generalizing config with
  | nil => exact ⟨rfl, rfl, rfl, rfl⟩
  | cons g features ih =>
      obtain ⟨hmethod, hcheck, hsuggest, hexclusions⟩ :=
        ih (config.setFlag (flags &&& g.mask != 0) (featureFlag g))
      obtain ⟨hmethod', -, -, hexclusions', -, -⟩ :=
        config.setFlag_eq (flags &&& g.mask != 0) (featureFlag g)
      obtain ⟨hne, hne'⟩ := featureFlag_ne_spell g
      exact ⟨hmethod.trans hmethod',
        hcheck.trans (config.flag_setFlag_of_ne _ hne.symm),
        hsuggest.trans (config.flag_setFlag_of_ne _ hne'.symm), hexclusions.trans hexclusions'⟩

theorem decodeFeatureFlags_spec (flags : Nat) (config : TypingConfig) :
    let decoded := TypingConfig.decodeFeatureFlags flags config
    (decoded.inputMethod = config.inputMethod ∧
      decoded.spellCheckEnabled = config.spellCheckEnabled ∧
      decoded.spellSuggestEnabled = config.spellSuggestEnabled ∧
      decoded.spellExclusions = config.spellExclusions) ∧
      ∀ f : FeatureFlag, decoded.flag (featureFlag f) = (flags &&& f.mask != 0) := by
  unfold TypingConfig.decodeFeatureFlags
  refine ⟨frame_foldl_setFlag featureFlags config, fun f => ?_⟩
  rw [flag_foldl_setFlag, if_pos (mem_featureFlags f)]

theorem apply_spec (config : TypingConfig) (fields : Fields) :
    let applied := TypingConfig.apply config fields
    applied.inputMethod = newMethod fields.inputMethod ∧
      applied.spellCheckEnabled = (fields.spellCheck != 0) ∧
      applied.spellSuggestEnabled = (fields.spellCheck == 2) ∧
      ∀ f : FeatureFlag, applied.flag (featureFlag f) = (fields.featureFlags &&& f.mask != 0) := by
  unfold TypingConfig.apply
  obtain ⟨⟨hmethod, hcheck, hsuggest, -⟩, hfeatures⟩ := decodeFeatureFlags_spec fields.featureFlags
    { TypingConfig.setSpellCheckLevel { config with inputMethod := newMethod fields.inputMethod }
        fields.spellCheck with
      optimizeLevel := if fields.optimizeLevel ≤ 2 then fields.optimizeLevel else 0 }
  exact ⟨hmethod, hcheck, hsuggest, hfeatures⟩

def lexiconOf (config : TypingConfig) : Bool × List (List WChar) :=
  (config.spellSuggestEnabled, config.spellExclusions)

theorem lexiconOf_congr {config other : TypingConfig}
    (hsame : withoutTriggers config = withoutTriggers other) :
    lexiconOf config = lexiconOf other := by
  have hlexicon : lexiconOf (withoutTriggers config) = lexiconOf (withoutTriggers other) :=
    congrArg lexiconOf hsame
  exact hlexicon

/-! ## What a promotion does -/

/-- What the promotion is about, and what has been read and applied. -/
structure Core where
  activeConfig : TypingConfig
  pendingConfig : Option TypingConfig
  engineNeedsRecreate : Bool
  engineConfig : Option TypingConfig
  lastEpoch : BitVec 32
  read : Nat
  applied : Option (Nat × Fields)
  lexicon : Bool × List (List WChar)

namespace Host

def core (h : Host) : Core where
  activeConfig := h.activeConfig
  pendingConfig := h.pendingConfig
  engineNeedsRecreate := h.engineNeedsRecreate
  engineConfig := h.engine.map Engine.config
  lastEpoch := h.lastEpoch
  read := h.read
  applied := h.applied
  lexicon := h.lexicon

/-- The configuration that a promotion makes active. -/
def latest (h : Host) : TypingConfig := h.pendingConfig.getD h.activeConfig

/-- Something is being typed. -/
def Busy (h : Host) : Prop := h.engineBufferCount ≠ 0 ∨ h.isComposing = true

theorem canPromoteTsfConfig_of_busy {h : Host} (hbusy : h.Busy) :
    h.canPromoteTsfConfig = false := by
  rcases hbusy with hcount | hcomposing
  · simp [canPromoteTsfConfig, hcount]
  · simp [canPromoteTsfConfig, hcomposing]

theorem core_setUserDictionary (h : Host) (userDictionary : List (List WChar)) (attached : Bool) :
    (h.setUserDictionary userDictionary attached).core = h.core := by
  cases attached with
  | false => rfl
  | true => simp [setUserDictionary, core, Function.comp_def]

theorem core_takeUserDictionary (h : Host) : h.takeUserDictionary.core = h.core := by
  unfold takeUserDictionary
  split <;> rfl

theorem pendingLexiconSnapshot_takeUserDictionary (h : Host) :
    h.takeUserDictionary.pendingLexiconSnapshot = h.pendingLexiconSnapshot := by
  unfold takeUserDictionary
  split <;> rfl

theorem core_tryAttachUserDictionary (b : Build) (attached : Bool) (h : Host) :
    (h.tryAttachUserDictionary b attached).core = h.core := by
  unfold tryAttachUserDictionary
  split
  · rfl
  · rename_i userDictionary _
    have hcore : (h.setUserDictionary userDictionary true).takeUserDictionary.core = h.core := by
      rw [core_takeUserDictionary, core_setUserDictionary]
    split
    · rfl
    split
    · dsimp only
      split
      · exact hcore
      · exact hcore
    · rfl

/-- The new engine has the active configuration. -/
theorem core_recreateEngine (b : Build) (attached : Bool) (h : Host) :
    (h.recreateEngine b attached).core =
      { h.core with engineNeedsRecreate := false, engineConfig := some h.activeConfig } := by
  unfold recreateEngine
  dsimp only
  split
  · split
    · split
      · rw [core_takeUserDictionary, core_setUserDictionary]
        rfl
      · rw [core_setUserDictionary]
        rfl
    · rfl
  · rw [core_takeUserDictionary]
    rfl

theorem core_activate (h : Host) :
    h.activate.core = { h.core with activeConfig := h.latest, pendingConfig := none } := by
  cases hpending : h.pendingConfig with
  | none => simp [activate, core, latest, hpending]
  | some config => simp [activate, core, latest, hpending]

/-- A promotion leaves everything as it is, or the latest configuration is active and nothing is
pending. -/
theorem core_tryPromotePendingConfig (b : Build) (attached : Bool) (h : Host) :
    (h.tryPromotePendingConfig b attached = h ∧
      (h.engineNeedsRecreate = false ∨ h.canPromotePendingConfig = false)) ∨
    (h.canPromotePendingConfig = true ∧ ∃ engineConfig,
      (h.tryPromotePendingConfig b attached).core =
        { h.core with
          activeConfig := h.latest
          pendingConfig := none
          engineNeedsRecreate := false
          engineConfig := some engineConfig } ∧
      (engineConfig = h.latest ∨
        h.engineNeedsRecreate = false ∧ h.core.engineConfig = some engineConfig)) := by
  unfold tryPromotePendingConfig
  split
  · rename_i hnothing
    rw [Bool.and_eq_true, Bool.not_eq_true'] at hnothing
    exact Or.inl ⟨rfl, Or.inl hnothing.1⟩
  split
  · rename_i hcannot
    exact Or.inl ⟨rfl, Or.inr (Bool.not_eq_true' _ |>.mp hcannot)⟩
  rename_i hcan
  rw [Bool.not_eq_true', Bool.not_eq_false] at hcan
  have hactivate := h.core_activate
  have hneeds : h.activate.engineNeedsRecreate = h.engineNeedsRecreate :=
    congrArg Core.engineNeedsRecreate hactivate
  have hconfig : h.activate.engine.map Engine.config = h.engine.map Engine.config :=
    congrArg Core.engineConfig hactivate
  have hactive : h.activate.activeConfig = h.latest := congrArg Core.activeConfig hactivate
  have hflag (k : Host) : (if k.pendingConfig.isNone && k.pendingUserDictionary.isNone &&
      !k.userDictionaryNeedsReload then { k with pendingLexiconSnapshot := false } else
        k).core = k.core := by
    split <;> rfl
  refine Or.inr ⟨hcan, ?_⟩
  dsimp only
  rw [hflag]
  split
  · refine ⟨h.latest, ?_, Or.inl rfl⟩
    rw [core_recreateEngine, hactivate, hactive]
  · rename_i hkept
    rw [Bool.or_eq_true, not_or, Bool.not_eq_true, hneeds] at hkept
    obtain ⟨engine, hengine⟩ : ∃ engine, h.activate.engine = some engine := by
      cases hengine : h.activate.engine with
      | none => exact absurd (congrArg Option.isNone hengine) hkept.2
      | some engine => exact ⟨engine, rfl⟩
    rw [hengine, Option.map_some] at hconfig
    refine ⟨engine.config, ?_, Or.inr ⟨hkept.1, hconfig.symm⟩⟩
    rw [core_tryAttachUserDictionary, hactivate, hkept.1.symm, core, hconfig]

/-- The configurations are right for what has been applied and staged. -/
structure Coherent (b : Build) (h : Host) : Prop where
  epoch : h.lastEpoch = BitVec.ofNat 32 h.read
  follows : ∀ epochs fields, h.applied = some (epochs, fields) → Follows b fields h.lexicon h.latest
  lexicon : b.useRustEngine = true → lexiconOf h.latest = h.lexicon
  /-- Without a staged lexicon the pending configuration has the lexicon of the active one. -/
  kept : b.useRustEngine = true → h.pendingLexiconSnapshot = false →
    lexiconOf h.latest = lexiconOf h.activeConfig
  engine : h.engineNeedsRecreate = false → ∀ config, h.core.engineConfig = some config →
    withoutTriggers config = withoutTriggers h.latest

/-- When a promotion is possible, none is due. -/
def Settled (h : Host) : Prop := h.canPromotePendingConfig = true → h.engineNeedsRecreate = false

theorem latest_of_pending_none {h : Host} (hpending : h.pendingConfig = none) :
    h.latest = h.activeConfig := by
  rw [latest, hpending]
  rfl

theorem latest_eq_of_core {h h' : Host} (hcore : h'.core = h.core) : h'.latest = h.latest := by
  have hactive : h'.activeConfig = h.activeConfig := congrArg Core.activeConfig hcore
  have hpending : h'.pendingConfig = h.pendingConfig := congrArg Core.pendingConfig hcore
  rw [latest, latest, hactive, hpending]

namespace Coherent

variable {b : Build} {h h' : Host}

theorem of_core (hcoherent : h.Coherent b) (hcore : h'.core = h.core)
    (hsnapshot : h'.pendingLexiconSnapshot = h.pendingLexiconSnapshot ∨ h'.pendingConfig = none) :
    h'.Coherent b := by
  have hlatest := latest_eq_of_core hcore
  have hlexicon : h'.lexicon = h.lexicon := congrArg Core.lexicon hcore
  have hactive : h'.activeConfig = h.activeConfig := congrArg Core.activeConfig hcore
  constructor
  · exact (congrArg Core.lastEpoch hcore).trans
      (hcoherent.epoch.trans (congrArg (fun c => BitVec.ofNat 32 c.read) hcore.symm))
  · intro epochs fields happlied
    rw [hlatest, hlexicon]
    exact hcoherent.follows epochs fields ((congrArg Core.applied hcore).symm.trans happlied)
  · intro hrust
    rw [hlatest, hlexicon]
    exact hcoherent.lexicon hrust
  · intro hrust hflag
    rcases hsnapshot with hsnapshot | hpending
    · rw [hlatest, hactive]
      exact hcoherent.kept hrust (hsnapshot ▸ hflag)
    · rw [latest_of_pending_none hpending]
  · intro hneeds config hconfig
    rw [hlatest]
    exact hcoherent.engine ((congrArg Core.engineNeedsRecreate hcore).symm.trans hneeds) config
      ((congrArg Core.engineConfig hcore).symm.trans hconfig)

theorem tryPromotePendingConfig (hcoherent : h.Coherent b) (attached : Bool) :
    (h.tryPromotePendingConfig b attached).Coherent b := by
  rcases core_tryPromotePendingConfig b attached h with ⟨hsame, -⟩ | ⟨-, config, hcore, hconfig⟩
  · rw [hsame]
    exact hcoherent
  generalize h.tryPromotePendingConfig b attached = h' at hcore
  have hpending : h'.pendingConfig = none := congrArg Core.pendingConfig hcore
  have hlatest : h'.latest = h.latest := by
    rw [latest_of_pending_none hpending]
    exact congrArg Core.activeConfig hcore
  have hlexicon : h'.lexicon = h.lexicon := congrArg Core.lexicon hcore
  constructor
  · exact (congrArg Core.lastEpoch hcore).trans
      (hcoherent.epoch.trans (congrArg (fun c => BitVec.ofNat 32 c.read) hcore.symm))
  · intro epochs fields happlied
    rw [hlatest, hlexicon]
    exact hcoherent.follows epochs fields ((congrArg Core.applied hcore).symm.trans happlied)
  · intro hrust
    rw [hlatest, hlexicon]
    exact hcoherent.lexicon hrust
  · intro _ _
    rw [latest_of_pending_none hpending]
  · intro _ config' hconfig'
    rw [hlatest]
    obtain rfl : config = config' :=
      Option.some_inj.mp ((congrArg Core.engineConfig hcore).symm.trans hconfig')
    rcases hconfig with rfl | ⟨hneeds, hold⟩
    · rfl
    · exact hcoherent.engine hneeds _ hold

end Coherent

theorem settled_tryPromotePendingConfig (b : Build) (attached : Bool) (h : Host) :
    (h.tryPromotePendingConfig b attached).Settled := by
  intro hcan
  rcases core_tryPromotePendingConfig b attached h with
    ⟨hsame, hneeds | hcannot⟩ | ⟨-, config, hcore, -⟩
  · rw [hsame]
    exact hneeds
  · rw [hsame, hcannot] at hcan
    exact absurd hcan Bool.false_ne_true
  · exact congrArg Core.engineNeedsRecreate hcore

/-! ## The macro table -/

/-- The configurations differ at most in the triggers of the macros. -/
structure SameButTriggers (h h' : Host) : Prop where
  core : ∃ activeConfig pendingConfig, h'.core =
    { h.core with activeConfig := activeConfig, pendingConfig := pendingConfig } ∧
    withoutTriggers activeConfig = withoutTriggers h.activeConfig ∧
    pendingConfig.map withoutTriggers = h.pendingConfig.map withoutTriggers
  pendingLexiconSnapshot : h'.pendingLexiconSnapshot = h.pendingLexiconSnapshot
  engine : h'.engine = h.engine
  engineBufferCount : h'.engineBufferCount = h.engineBufferCount
  isComposing : h'.isComposing = h.isComposing

namespace SameButTriggers

variable {b : Build} {h h' k : Host}

theorem refl (h : Host) : SameButTriggers h h :=
  ⟨⟨h.activeConfig, h.pendingConfig, rfl, rfl, rfl⟩, rfl, rfl, rfl, rfl⟩

theorem trans (h₁ : SameButTriggers h k) (h₂ : SameButTriggers k h') : SameButTriggers h h' := by
  obtain ⟨active, pending, hcore, hactive, hpending⟩ := h₁.core
  obtain ⟨active', pending', hcore', hactive', hpending'⟩ := h₂.core
  refine ⟨⟨active', pending', ?_, ?_, ?_⟩,
    h₂.pendingLexiconSnapshot.trans h₁.pendingLexiconSnapshot,
    h₂.engine.trans h₁.engine, h₂.engineBufferCount.trans h₁.engineBufferCount,
    h₂.isComposing.trans h₁.isComposing⟩
  · rw [hcore', hcore]
  · rw [hactive', show k.activeConfig = active from congrArg Core.activeConfig hcore, hactive]
  · rw [hpending', show k.pendingConfig = pending from congrArg Core.pendingConfig hcore, hpending]

theorem reloadMacros (h : Host) (generation : UInt8) (diskConfig : Option MacroTriggers) :
    SameButTriggers h (h.reloadMacros generation diskConfig) := by
  unfold Host.reloadMacros
  split
  · exact refl h
  split
  · exact ⟨⟨_, _, rfl, rfl, rfl⟩, rfl, rfl, rfl, rfl⟩
  · dsimp only
    split
    · exact ⟨⟨_, _, rfl, rfl, rfl⟩, rfl, rfl, rfl, rfl⟩
    · refine ⟨⟨_, _, rfl, rfl, ?_⟩, rfl, rfl, rfl, rfl⟩
      exact Option.map_map withoutTriggers _ _

theorem updateMacroTable (h : Host) (wasVietnameseMode : Bool) (fields : Fields)
    (allowMacroDiskRead : Bool) (diskConfig : Option MacroTriggers) :
    SameButTriggers h
    (h.updateMacroTable wasVietnameseMode fields allowMacroDiskRead diskConfig) := by
  have hclear : SameButTriggers h
      (if wasVietnameseMode != h.vietnameseMode then h.clearMacroTracking else h) := by
    split
    · exact ⟨⟨_, _, rfl, rfl, rfl⟩, rfl, rfl, rfl, rfl⟩
    · exact refl h
  unfold Host.updateMacroTable
  dsimp only
  generalize
    (if wasVietnameseMode != h.vietnameseMode then h.clearMacroTracking else h) = k at hclear
  have hloaded : SameButTriggers h (if k.activeConfig.macroEnabled !=
      (TypingConfig.apply h.activeConfig fields).macroEnabled then
        { k with macroConfigLoaded := false }
      else k) := by
    apply hclear.trans
    split
    · exact ⟨⟨_, _, rfl, rfl, rfl⟩, rfl, rfl, rfl, rfl⟩
    · exact refl k
  generalize (if k.activeConfig.macroEnabled !=
    (TypingConfig.apply h.activeConfig fields).macroEnabled then
    { k with macroConfigLoaded := false } else k) = l at hloaded
  split
  · exact hloaded
  · exact hloaded.trans (reloadMacros l _ diskConfig)
  · exact hloaded

theorem latest (hsame : SameButTriggers h h') :
    withoutTriggers h'.latest = withoutTriggers h.latest := by
  obtain ⟨active, pending, hcore, hactive, hpending⟩ := hsame.core
  have hactive' : h'.activeConfig = active := congrArg Core.activeConfig hcore
  have hpending' : h'.pendingConfig = pending := congrArg Core.pendingConfig hcore
  rw [Host.latest, Host.latest, hactive', hpending',
    ← Option.getD_map withoutTriggers, ← Option.getD_map withoutTriggers, hactive, hpending]

theorem coherent (hsame : SameButTriggers h h') (hcoherent : h.Coherent b) : h'.Coherent b := by
  have hlatest := hsame.latest
  have hlexiconOf : lexiconOf h'.latest = lexiconOf h.latest := lexiconOf_congr hlatest
  obtain ⟨active, pending, hcore, hactive, -⟩ := hsame.core
  have hactive' : h'.activeConfig = active := congrArg Core.activeConfig hcore
  have hlexicon : h'.lexicon = h.lexicon := congrArg Core.lexicon hcore
  constructor
  · exact (congrArg Core.lastEpoch hcore).trans
      (hcoherent.epoch.trans (congrArg (fun c => BitVec.ofNat 32 c.read) hcore.symm))
  · intro epochs fields happlied
    rw [hlexicon]
    exact (hcoherent.follows epochs fields
      ((congrArg Core.applied hcore).symm.trans happlied)).of_withoutTriggers hlatest
  · intro hrust
    rw [hlexiconOf, hlexicon]
    exact hcoherent.lexicon hrust
  · intro hrust hflag
    rw [hlexiconOf, hactive', hcoherent.kept hrust (hsame.pendingLexiconSnapshot.symm.trans hflag)]
    exact (lexiconOf_congr hactive).symm
  · intro hneeds config hconfig
    rw [hlatest]
    exact hcoherent.engine ((congrArg Core.engineNeedsRecreate hcore).symm.trans hneeds) config
      ((congrArg Core.engineConfig hcore).symm.trans hconfig)

end SameButTriggers

/-! ## The lexicon -/

/-- The hosts differ in nothing that a promotion is about. -/
structure SameCore (h h' : Host) : Prop where
  core : h'.core = h.core
  pendingLexiconSnapshot : h'.pendingLexiconSnapshot = h.pendingLexiconSnapshot
  engine : h'.engine = h.engine
  engineBufferCount : h'.engineBufferCount = h.engineBufferCount
  isComposing : h'.isComposing = h.isComposing

theorem refreshUserDictionarySnapshot_cases (generation : UInt8)
    (allowDiskRead : Bool) (wire : Wire) (disk : Option Lexicon) (h : Host) :
    ∃ k, SameCore h k ∧
      (h.refreshUserDictionarySnapshot generation allowDiskRead wire disk = k ∨
        ∃ lexicon, h.refreshUserDictionarySnapshot generation allowDiskRead wire disk =
          k.stageLexicon lexicon) := by
  have hnote : SameCore h (h.noteGeneration generation) := by
    unfold noteGeneration
    split
    · exact ⟨rfl, rfl, rfl, rfl, rfl⟩
    · exact ⟨rfl, rfl, rfl, rfl, rfl⟩
  unfold refreshUserDictionarySnapshot
  dsimp only
  generalize h.noteGeneration generation = k at hnote
  cases wire with
  | unchanged =>
      refine ⟨{ k with wireReaderActive := true, userDictionaryNeedsReload := false },
        ?_, Or.inl rfl⟩
      exact ⟨hnote.core, hnote.pendingLexiconSnapshot, hnote.engine, hnote.engineBufferCount,
        hnote.isComposing⟩
  | malformed =>
      refine ⟨{ k with wireReaderActive := true }, ?_, Or.inl rfl⟩
      exact ⟨hnote.core, hnote.pendingLexiconSnapshot, hnote.engine, hnote.engineBufferCount,
        hnote.isComposing⟩
  | updated lexicon =>
      refine ⟨{ k with wireReaderActive := true }, ?_, Or.inr ⟨lexicon, rfl⟩⟩
      exact ⟨hnote.core, hnote.pendingLexiconSnapshot, hnote.engine, hnote.engineBufferCount,
        hnote.isComposing⟩
  | unavailable =>
      refine ⟨k, hnote, ?_⟩
      cases allowDiskRead with
      | false => exact Or.inl rfl
      | true =>
          cases disk with
          | none => exact Or.inl rfl
          | some lexicon => exact Or.inr ⟨lexicon, rfl⟩

theorem latest_stageLexicon (lexicon : Lexicon) (h : Host) :
    (h.stageLexicon lexicon).latest =
      { h.latest with
        spellSuggestEnabled := lexicon.spellSuggestEnabled
        spellExclusions := lexicon.spellExclusions } := rfl

/-- An engine is kept when it has the lexicon. -/
theorem engineNeedsRecreate_stageLexicon {lexicon : Lexicon} {h : Host}
    (hneeds : (h.stageLexicon lexicon).engineNeedsRecreate = false) :
    h.engineNeedsRecreate = false ∧ (h.stageLexicon lexicon).latest = h.latest := by
  have hor : (h.engineNeedsRecreate || h.latest.spellSuggestEnabled !=
    lexicon.spellSuggestEnabled ||
    h.latest.spellExclusions != lexicon.spellExclusions) = false := hneeds
  rw [Bool.or_eq_false_iff, Bool.or_eq_false_iff, bne_eq_false_iff_eq, bne_eq_false_iff_eq] at hor
  obtain ⟨⟨hneeds', hsuggest⟩, hexclusions⟩ := hor
  refine ⟨hneeds', ?_⟩
  rw [latest_stageLexicon, ← hsuggest, ← hexclusions]

namespace Coherent

variable {b : Build} {h : Host}

theorem stageLexicon (hcoherent : h.Coherent b) (hrust : b.useRustEngine = true)
    (lexicon : Lexicon) :
    (h.stageLexicon lexicon).Coherent b := by
  constructor
  · exact hcoherent.epoch
  · intro epochs fields happlied
    obtain ⟨hmethod, hcheck, -, hfeatures⟩ := hcoherent.follows epochs fields happlied
    refine ⟨hmethod, hcheck, ?_, ?_⟩
    · rw [if_pos hrust]
      rfl
    · intro f
      rw [latest_stageLexicon, ← hfeatures f]
      cases f <;> rfl
  · intro _
    rfl
  · intro _ hflag
    exact absurd hflag Bool.noConfusion
  · intro hneeds config hconfig
    obtain ⟨hneeds', hlatest⟩ := engineNeedsRecreate_stageLexicon hneeds
    rw [hlatest]
    exact hcoherent.engine hneeds' config hconfig

theorem refreshUserDictionarySnapshot (hcoherent : h.Coherent b) (hrust : b.useRustEngine = true)
    (generation : UInt8) (allowDiskRead : Bool) (wire : Wire) (disk : Option Lexicon) :
    (h.refreshUserDictionarySnapshot generation allowDiskRead wire disk).Coherent b := by
  obtain ⟨k, hk, hsame | ⟨lexicon, hsame⟩⟩ :=
    refreshUserDictionarySnapshot_cases generation allowDiskRead wire disk h
  · rw [hsame]
    exact hcoherent.of_core hk.core (Or.inl hk.pendingLexiconSnapshot)
  · rw [hsame]
    exact (hcoherent.of_core hk.core (Or.inl hk.pendingLexiconSnapshot)).stageLexicon hrust lexicon

theorem flag_keepLexicon (h : Host) (config : TypingConfig) (f : FeatureFlag) :
    (h.keepLexicon config).flag (featureFlag f) = config.flag (featureFlag f) := by
  cases f <;> rfl

theorem stage (hcoherent : h.Coherent b) (state : SharedState) : (h.stage b state).Coherent b := by
  obtain ⟨hmethod, hcheck, hsuggest, hfeatures⟩ := apply_spec h.activeConfig state.fields
  have hkeep (hrust : b.useRustEngine = true) :
      lexiconOf (h.keepLexicon (TypingConfig.apply h.activeConfig state.fields)) =
        lexiconOf h.latest := by
    cases hflag : h.pendingLexiconSnapshot with
    | true => simp [keepLexicon, lexiconOf, hflag, latest]
    | false =>
        rw [hcoherent.kept hrust hflag]
        simp [keepLexicon, lexiconOf, hflag]
  have hlatest : (h.stage b state).latest = if b.useRustEngine then
      h.keepLexicon (TypingConfig.apply h.activeConfig state.fields)
      else TypingConfig.apply h.activeConfig state.fields := rfl
  constructor
  · exact hcoherent.epoch
  · intro epochs fields happlied
    obtain ⟨-, rfl⟩ := Prod.mk.inj (Option.some_inj.mp happlied)
    rw [hlatest]
    split
    · rename_i hrust
      refine ⟨hmethod, hcheck, ?_, ?_⟩
      · rw [if_pos hrust]
        exact congrArg Prod.fst ((hkeep hrust).trans (hcoherent.lexicon hrust))
      · intro f
        rw [← hfeatures f]
        exact flag_keepLexicon h _ f
    · rename_i hrust
      refine ⟨hmethod, hcheck, ?_, hfeatures⟩
      rw [if_neg hrust]
      exact hsuggest
  · intro hrust
    rw [hlatest, if_pos hrust, hkeep hrust]
    exact hcoherent.lexicon hrust
  · intro hrust hflag
    rw [hlatest, if_pos hrust, hkeep hrust]
    exact hcoherent.kept hrust hflag
  · intro hneeds
    exact absurd hneeds Bool.noConfusion

end Coherent

end Host

end EngineController

end VKey
