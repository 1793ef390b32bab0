import VKey.Tsf.ConfigPromotion

/-!
# A text service follows the shared settings

Every step keeps the configurations coherent and keeps what has been read no newer than what has
been applied.  The engine changes only in a promotion, which needs an empty engine and no
composition.
-/

namespace VKey

namespace EngineController

/-! ## What the places say -/

/-- The fields are those of the shared state when the epoch is. -/
def Current (shared : SharedState) (epochs : Nat) (fields : Fields) : Prop :=
  epochs ≤ shared.epochs ∧ (epochs = shared.epochs → fields = shared.fields)

/-- What has been read has been applied. -/
def Host.ReadApplied (h : Host) : Prop :=
  h.read = 0 ∨ ∃ epochs fields, h.applied = some (epochs, fields) ∧ h.read ≤ epochs

/-- A state that is being applied is what has been applied last. -/
def Host.Applying (h : Host) (state : SharedState) : Prop :=
  h.applied = some (state.epochs, state.fields) ∧ h.read ≤ state.epochs

def Place.Fits (shared : SharedState) (h : Host) : Place → Prop
  | .constructing => h = Host.initial
  | .staging state _ _ => Current shared state.epochs state.fields ∧ h.read ≤ state.epochs
  | .stagingLexicon state _ _ _ => h.Applying state
  | .updatingMacros state _ _ _ => h.Applying state
  | .promoting state _ => h.Applying state
  | .constructed state => h.Applying state
  | .reloadingMacros _ => h.ReadApplied ∧ h.Settled
  | .checked reloaded => h.ReadApplied ∧ (reloaded = false → h.Settled)
  | _ => h.ReadApplied

/-- The places before the first engine. -/
def Place.BeforeEngine (h : Host) : Place → Prop
  | .constructing => True
  | .staging _ _ .constructor => True
  | .stagingLexicon _ _ _ .constructor => h.engineNeedsRecreate = true
  | .updatingMacros _ _ _ .constructor => h.engineNeedsRecreate = true
  | .promoting _ .constructor => h.engineNeedsRecreate = true
  | _ => False

structure Invariant (b : Build) (s : State) : Prop where
  coherent : s.host.Coherent b
  created : 2 ≤ s.shared.epochs
  applied : ∀ epochs fields, s.host.applied = some (epochs, fields) → Current s.shared epochs fields
  fits : s.place.Fits s.shared s.host
  engine : s.host.engine = none → ¬ s.host.Busy ∧ s.place.BeforeEngine s.host

theorem Current.mono {shared shared' : SharedState} {epochs : Nat} {fields : Fields}
    (h : Current shared epochs fields)
    (hmono : shared.epochs < shared'.epochs ∨
      shared.epochs = shared'.epochs ∧
      shared.fields = shared'.fields) : Current shared' epochs fields := by
  obtain ⟨hle, hfields⟩ := h
  rcases hmono with hlt | ⟨hepochs, hsame⟩
  · exact ⟨by omega, fun hepochs => by omega⟩
  · exact ⟨by omega, fun h => (hfields (by omega)).trans hsame⟩

theorem Place.Fits.mono {shared shared' : SharedState} {h : Host} {place : Place}
    (hfits : place.Fits shared h)
    (hmono : shared.epochs < shared'.epochs ∨
      shared.epochs = shared'.epochs ∧ shared.fields = shared'.fields) : place.Fits shared' h := by
  cases place with
  | staging state allowMacroDiskRead caller => exact ⟨hfits.1.mono hmono, hfits.2⟩
  | _ => exact hfits

namespace Host

variable {h h' : Host}

/-- The host has read and applied nothing meanwhile. -/
def SameRead (h h' : Host) : Prop := h'.read = h.read ∧ h'.applied = h.applied

theorem SameRead.of_core (hcore : h'.core = h.core) : SameRead h h' :=
  ⟨congrArg Core.read hcore, congrArg Core.applied hcore⟩

theorem ReadApplied.of_sameRead (hread : h.ReadApplied) (hsame : SameRead h h') :
    h'.ReadApplied := by
  rw [ReadApplied, hsame.1, hsame.2]
  exact hread

theorem Applying.of_sameRead {state : SharedState} (happlying : h.Applying state)
    (hsame : SameRead h h') :
    h'.Applying state := by
  rw [Applying, hsame.1, hsame.2]
  exact happlying

theorem sameRead_tryPromotePendingConfig (b : Build) (attached : Bool) (h : Host) :
    SameRead h (h.tryPromotePendingConfig b attached) := by
  rcases core_tryPromotePendingConfig b attached h with ⟨hsame, -⟩ | ⟨-, config, hcore, -⟩
  · rw [hsame]
    exact ⟨rfl, rfl⟩
  · exact ⟨congrArg Core.read hcore, congrArg Core.applied hcore⟩

theorem sameRead_refreshUserDictionarySnapshot (generation : UInt8)
    (allowDiskRead : Bool) (wire : Wire) (disk : Option Lexicon) (h : Host) :
    SameRead h (h.refreshUserDictionarySnapshot generation allowDiskRead wire disk) := by
  obtain ⟨k, hk, hsame | ⟨lexicon, hsame⟩⟩ :=
    h.refreshUserDictionarySnapshot_cases generation allowDiskRead wire disk
  · rw [hsame]
    exact .of_core hk.core
  · rw [hsame]
    exact (SameRead.of_core hk.core : SameRead h k)

theorem engine_refreshUserDictionarySnapshot (generation : UInt8)
    (allowDiskRead : Bool) (wire : Wire) (disk : Option Lexicon) (h : Host) :
    (h.refreshUserDictionarySnapshot generation allowDiskRead wire disk).engine = h.engine := by
  obtain ⟨k, hk, hsame | ⟨lexicon, hsame⟩⟩ :=
    h.refreshUserDictionarySnapshot_cases generation allowDiskRead wire disk
  · rw [hsame]
    exact hk.engine
  · rw [hsame]
    exact hk.engine

/-- A lexicon that is staged leaves the typing alone, and a promotion that is due stays due. -/
theorem frame_refreshUserDictionarySnapshot (generation : UInt8)
    (allowDiskRead : Bool) (wire : Wire) (disk : Option Lexicon) (h : Host) :
    let refreshed := h.refreshUserDictionarySnapshot generation allowDiskRead wire disk
    refreshed.engineBufferCount = h.engineBufferCount ∧ refreshed.isComposing = h.isComposing ∧
      (h.engineNeedsRecreate = true → refreshed.engineNeedsRecreate = true) := by
  dsimp only
  obtain ⟨k, hk, hsame | ⟨lexicon, hsame⟩⟩ :=
    h.refreshUserDictionarySnapshot_cases generation allowDiskRead wire disk
  · rw [hsame]
    exact ⟨hk.engineBufferCount, hk.isComposing,
      fun hneeds => (congrArg Core.engineNeedsRecreate hk.core).trans hneeds⟩
  · rw [hsame]
    refine ⟨hk.engineBufferCount, hk.isComposing, fun hneeds => ?_⟩
    have hneeds' : k.engineNeedsRecreate = true :=
      (congrArg Core.engineNeedsRecreate hk.core).trans hneeds
    simp [stageLexicon, hneeds']

theorem SameButTriggers.sameRead (hsame : SameButTriggers h h') : SameRead h h' := by
  obtain ⟨active, pending, hcore, -⟩ := hsame.core
  exact ⟨congrArg Core.read hcore, congrArg Core.applied hcore⟩

theorem engine_tryPromotePendingConfig {b : Build} {attached : Bool}
    (hnone : (h.tryPromotePendingConfig b attached).engine = none) :
    h.engine = none ∧ h.engineNeedsRecreate = false := by
  rcases core_tryPromotePendingConfig b attached h with ⟨hsame, hneeds⟩ | ⟨-, config, hcore, -⟩
  · rw [hsame] at hnone
    refine ⟨hnone, hneeds.resolve_right fun hcannot => ?_⟩
    rw [canPromotePendingConfig, hnone] at hcannot
    exact Bool.noConfusion hcannot
  · have hconfig : (h.tryPromotePendingConfig b attached).engine.map Engine.config = some config :=
      congrArg Core.engineConfig hcore
    rw [hnone] at hconfig
    exact absurd hconfig (Option.some_ne_none config).symm

theorem engine_eq_none_of_core (hcore : h'.core = h.core) (hnone : h'.engine = none) :
    h.engine = none := by
  have hconfig : h'.engine.map Engine.config = h.engine.map Engine.config :=
    congrArg Core.engineConfig hcore
  rw [hnone] at hconfig
  exact Option.map_eq_none_iff.mp hconfig.symm

/-- An action that promotes nothing changes no configuration and no engine. -/
theorem act_cases (b : Build) (action : Action) (h : Host) :
    ((h.act b action).core = h.core ∧
      (h.act b action).pendingLexiconSnapshot = h.pendingLexiconSnapshot ∧
      (h.act b action).engine = h.engine) ∨
    ∃ attached, h.act b action = h.tryPromotePendingConfig b attached := by
  cases action with
  | promote attached => exact Or.inr ⟨attached, rfl⟩
  | clearMacroTrackingAfterCommit =>
      refine Or.inl ?_
      unfold act clearMacroTrackingAfterCommit
      dsimp only
      split
      · exact ⟨rfl, rfl, rfl⟩
      · exact ⟨rfl, rfl, rfl⟩
  | _ => exact Or.inl ⟨rfl, rfl, rfl⟩

theorem sameCore_setFlags (engineEnabled tsfActive vietnameseMode : Bool) (h : Host) :
    SameCore h (h.setFlags engineEnabled tsfActive vietnameseMode) := by
  unfold setFlags
  dsimp only
  split
  · exact ⟨rfl, rfl, rfl, rfl, rfl⟩
  · exact ⟨rfl, rfl, rfl, rfl, rfl⟩

theorem sameCore_disable (h : Host) : SameCore h h.disable := by
  unfold disable
  dsimp only
  split
  · exact ⟨rfl, rfl, rfl, rfl, rfl⟩
  · exact ⟨rfl, rfl, rfl, rfl, rfl⟩

theorem sameCore_refreshKeyRouting (engineEnabled tsfActive vietnameseMode : Bool) (h : Host) :
    SameCore h (h.refreshKeyRouting engineEnabled tsfActive vietnameseMode) := by
  unfold refreshKeyRouting
  split
  · exact ⟨rfl, rfl, rfl, rfl, rfl⟩
  split
  · exact sameCore_setFlags _ _ _ h
  split
  · exact sameCore_setFlags _ _ _ h
  · exact sameCore_setFlags _ _ _ h

theorem tryAttachUserDictionary_of_not_can {b : Build} {attached : Bool}
    (hcannot : h.canPromotePendingConfig = false) : h.tryAttachUserDictionary b attached = h := by
  unfold tryAttachUserDictionary
  split
  · rfl
  · rw [hcannot, Bool.not_false, Bool.or_true, Bool.true_or, if_pos rfl]

theorem pendingLexiconSnapshot_tryAttachUserDictionary (b : Build) (attached : Bool) (h : Host) :
    (h.tryAttachUserDictionary b attached).pendingLexiconSnapshot = h.pendingLexiconSnapshot ∨
      (h.tryAttachUserDictionary b attached).pendingConfig = none := by
  unfold tryAttachUserDictionary
  split
  · exact Or.inl rfl
  split
  · exact Or.inl rfl
  split
  · dsimp only
    split
    · rename_i hnone
      rw [Bool.and_eq_true, Option.isNone_iff_eq_none] at hnone
      exact Or.inr hnone.1
    · refine Or.inl ?_
      rw [pendingLexiconSnapshot_takeUserDictionary]
      rfl
  · exact Or.inl rfl

theorem Coherent.read {b : Build} (hcoherent : h.Coherent b) (state : SharedState) :
    Coherent b { h with lastEpoch := state.epoch, read := state.epochs } where
  epoch := rfl
  follows := hcoherent.follows
  lexicon := hcoherent.lexicon
  kept := hcoherent.kept
  engine := hcoherent.engine

theorem coherent_initial (b : Build) : initial.Coherent b where
  epoch := rfl
  follows _ _ happlied := absurd happlied (Option.some_ne_none _).symm
  lexicon _ := rfl
  kept _ _ := rfl
  engine _ _ hconfig := absurd hconfig (Option.some_ne_none _).symm

theorem coherent_useDefaults (b : Build) (connected abiOk wireOpened : Bool) :
    (initial.useDefaults connected abiOk wireOpened).Coherent b where
  epoch := rfl
  follows _ _ happlied := absurd happlied (Option.some_ne_none _).symm
  lexicon _ := rfl
  kept _ _ := rfl
  engine _ config hconfig := by
    obtain rfl := Option.some_inj.mp hconfig
    rfl

end Host

/-! ## The steps of the host -/

section HostStep

variable {b : Build} {shared : SharedState} {h h' : Host} {place place' : Place}

theorem HostStep.coherent (hstep : HostStep b shared h place h' place') (hcoherent : h.Coherent b)
    (hfits : place.Fits shared h) : h'.Coherent b := by
  cases hstep with
  | constructDefaults connected abiOk wireOpened =>
      obtain rfl : h = Host.initial := hfits
      exact Host.coherent_useDefaults b connected abiOk wireOpened
  | constructed wireOpened =>
      rename_i state
      exact (hcoherent.read state).of_core rfl (Or.inl rfl)
  | read => exact hcoherent.read shared
  | act =>
      rename_i action actions
      rcases h.act_cases b action with ⟨hcore, hsnapshot, -⟩ | ⟨attached, hact⟩
      · exact hcoherent.of_core hcore (Or.inl hsnapshot)
      · rw [hact]
        exact hcoherent.tryPromotePendingConfig attached
  | refreshKeyRouting =>
      have hsame :=
        h.sameCore_refreshKeyRouting shared.engineEnabled shared.tsfActive shared.vietnameseMode
      exact hcoherent.of_core hsame.core (Or.inl hsame.pendingLexiconSnapshot)
  | refreshReads =>
      have hsame := h.sameCore_setFlags shared.engineEnabled shared.tsfActive shared.vietnameseMode
      exact hcoherent.of_core hsame.core (Or.inl hsame.pendingLexiconSnapshot)
  | refreshFails =>
      exact hcoherent.of_core h.sameCore_disable.core
        (Or.inl h.sameCore_disable.pendingLexiconSnapshot)
  | promoteFirst attached => exact hcoherent.tryPromotePendingConfig attached
  | promoteAgain attached => exact hcoherent.tryPromotePendingConfig attached
  | promoteStaged attached => exact hcoherent.tryPromotePendingConfig attached
  | refreshLexicon wire disk =>
      split
      · rename_i hrust
        exact hcoherent.refreshUserDictionarySnapshot
          (Bool.and_eq_true_iff.mp hrust).1 _ _ wire disk
      · exact hcoherent
  | stageLexicon wire disk =>
      split
      · rename_i hrust
        exact hcoherent.refreshUserDictionarySnapshot hrust _ _ wire disk
      · exact hcoherent
  | attach attached =>
      split
      · exact hcoherent.of_core (h.core_tryAttachUserDictionary b attached)
          (h.pendingLexiconSnapshot_tryAttachUserDictionary b attached)
      · exact hcoherent
  | reloadMacros diskConfig =>
      split
      · exact (Host.SameButTriggers.reloadMacros h _ diskConfig).coherent hcoherent
      · exact hcoherent
  | stage => exact hcoherent.stage _
  | updateMacros diskConfig =>
      exact (Host.SameButTriggers.updateMacroTable h _ _ _ diskConfig).coherent hcoherent
  | call | check | connectFails | abiRetry | loadEpoch | readFails | returned | refresh =>
        exact hcoherent
  | _ => exact hcoherent.of_core rfl (Or.inl rfl)

/-- While something is typed, only the triggers of the macros change. -/
theorem HostStep.busy (hstep : HostStep b shared h place h' place')
    (hengine : h.engine = none → ¬ h.Busy) (hfits : place.Fits shared h) (hbusy : h.Busy) :
    h'.engine = h.engine ∧ withoutTriggers h'.activeConfig = withoutTriggers h.activeConfig := by
  have hcannot : h.canPromotePendingConfig = false := by
    rw [Host.canPromotePendingConfig, Host.canPromoteTsfConfig_of_busy hbusy, Bool.or_false,
      Option.isNone_eq_false_iff, ← Option.ne_none_iff_isSome]
    exact fun hnone => hengine hnone hbusy
  have hpromote (attached : Bool) : h.tryPromotePendingConfig b attached = h := by
    rcases Host.core_tryPromotePendingConfig b attached h with ⟨hsame, -⟩ | ⟨hcan, -⟩
    · exact hsame
    · exact absurd (hcan.symm.trans hcannot) Bool.noConfusion
  have hsameButTriggers {k : Host} (hsame : h.SameButTriggers k) :
      k.engine = h.engine ∧ withoutTriggers k.activeConfig = withoutTriggers h.activeConfig := by
    obtain ⟨active, pending, hcore, hactive, -⟩ := hsame.core
    have hactive' : k.activeConfig = active := congrArg Core.activeConfig hcore
    exact ⟨hsame.engine, hactive' ▸ hactive⟩
  have hsameCore {k : Host} (hsame : h.SameCore k) :
      k.engine = h.engine ∧ withoutTriggers k.activeConfig = withoutTriggers h.activeConfig :=
    ⟨hsame.engine, congrArg withoutTriggers (congrArg Core.activeConfig hsame.core)⟩
  have hrefresh (generation : UInt8) (allowDiskRead : Bool) (wire : Wire) (disk : Option Lexicon) :
      (h.refreshUserDictionarySnapshot generation allowDiskRead wire disk).engine = h.engine ∧
        withoutTriggers
          (h.refreshUserDictionarySnapshot generation allowDiskRead wire disk).activeConfig =
            withoutTriggers h.activeConfig := by
    obtain ⟨k, hk, hsame | ⟨lexicon, hsame⟩⟩ :=
      h.refreshUserDictionarySnapshot_cases generation allowDiskRead wire disk
    · rw [hsame]
      exact hsameCore hk
    · rw [hsame]
      exact ⟨hk.engine, congrArg withoutTriggers (congrArg Core.activeConfig hk.core)⟩
  cases hstep with
  | constructDefaults =>
      obtain rfl : h = Host.initial := hfits
      exact absurd hbusy (hengine rfl)
  | act =>
      rename_i action actions
      rcases h.act_cases b action with ⟨hcore, -, hsame⟩ | ⟨attached, hact⟩
      · exact ⟨hsame, congrArg withoutTriggers (congrArg Core.activeConfig hcore)⟩
      · rw [hact, hpromote]
        exact ⟨rfl, rfl⟩
  | refreshKeyRouting => exact hsameCore (h.sameCore_refreshKeyRouting _ _ _)
  | refreshReads =>
      obtain ⟨hengine', hactive⟩ := hsameCore
        (h.sameCore_setFlags shared.engineEnabled shared.tsfActive shared.vietnameseMode)
      exact ⟨hengine', hactive⟩
  | refreshFails => exact hsameCore h.sameCore_disable
  | promoteFirst attached =>
      rw [hpromote]
      exact ⟨rfl, rfl⟩
  | promoteAgain attached =>
      rw [hpromote]
      exact ⟨rfl, rfl⟩
  | promoteStaged attached =>
      rw [hpromote]
      exact ⟨rfl, rfl⟩
  | refreshLexicon wire disk =>
      split
      · exact hrefresh _ _ wire disk
      · exact ⟨rfl, rfl⟩
  | stageLexicon wire disk =>
      split
      · exact hrefresh _ _ wire disk
      · exact ⟨rfl, rfl⟩
  | attach attached =>
      split
      · rw [Host.tryAttachUserDictionary_of_not_can hcannot]
        exact ⟨rfl, rfl⟩
      · exact ⟨rfl, rfl⟩
  | reloadMacros diskConfig =>
      split
      · exact hsameButTriggers (Host.SameButTriggers.reloadMacros h _ diskConfig)
      · exact ⟨rfl, rfl⟩
  | updateMacros diskConfig =>
      exact hsameButTriggers (Host.SameButTriggers.updateMacroTable h _ _ _ diskConfig)
  | _ => exact ⟨rfl, rfl⟩

/-- Only `ApplySharedState` applies a state. -/
theorem HostStep.applied (hstep : HostStep b shared h place h' place') (hfits : place.Fits shared h)
    (happlied : ∀ epochs fields, h.applied = some (epochs, fields) → Current shared epochs fields) :
    ∀ epochs fields, h'.applied = some (epochs, fields) → Current shared epochs fields := by
  have hsame {k : Host} (hread : h.SameRead k) :
      ∀ epochs fields, k.applied = some (epochs, fields) → Current shared epochs fields := by
    intro epochs fields happlied'
    exact happlied epochs fields (hread.2.symm.trans happlied')
  cases hstep with
  | stage =>
      intro epochs fields happlied'
      obtain ⟨rfl, rfl⟩ := Prod.mk.inj (Option.some_inj.mp happlied')
      exact hfits.1
  | act =>
      rename_i action actions
      rcases h.act_cases b action with ⟨hcore, -⟩ | ⟨attached, hact⟩
      · exact hsame (.of_core hcore)
      · rw [hact]
        exact hsame (h.sameRead_tryPromotePendingConfig b attached)
  | refreshKeyRouting => exact hsame (.of_core (h.sameCore_refreshKeyRouting _ _ _).core)
  | refreshReads =>
      exact hsame (Host.SameRead.of_core (h.sameCore_setFlags shared.engineEnabled shared.tsfActive
        shared.vietnameseMode).core)
  | refreshFails => exact hsame (.of_core h.sameCore_disable.core)
  | promoteFirst attached => exact hsame (h.sameRead_tryPromotePendingConfig b attached)
  | promoteAgain attached => exact hsame (h.sameRead_tryPromotePendingConfig b attached)
  | promoteStaged attached => exact hsame (h.sameRead_tryPromotePendingConfig b attached)
  | refreshLexicon wire disk =>
      split
      · exact hsame (h.sameRead_refreshUserDictionarySnapshot _ _ wire disk)
      · exact happlied
  | stageLexicon wire disk =>
      split
      · exact hsame (h.sameRead_refreshUserDictionarySnapshot _ _ wire disk)
      · exact happlied
  | attach attached =>
      split
      · exact hsame (.of_core (h.core_tryAttachUserDictionary b attached))
      · exact happlied
  | reloadMacros diskConfig =>
      split
      · exact hsame (Host.SameButTriggers.reloadMacros h _ diskConfig).sameRead
      · exact happlied
  | updateMacros diskConfig =>
        exact hsame (Host.SameButTriggers.updateMacroTable h _ _ _ diskConfig).sameRead
  | _ => exact happlied

theorem HostStep.fits (hstep : HostStep b shared h place h' place') (hfits : place.Fits shared h)
    (happlied : ∀ epochs fields, h.applied = some (epochs, fields) → Current shared epochs fields) :
    place'.Fits shared h' := by
  have hcurrent : Current shared shared.epochs shared.fields := ⟨Nat.le_refl _, fun _ => rfl⟩
  have hread (hreadApplied : h.ReadApplied) : h.read ≤ shared.epochs := by
    rcases hreadApplied with hzero | ⟨epochs, fields, happlied', hle⟩
    · rw [hzero]
      exact Nat.zero_le _
    · exact hle.trans (happlied epochs fields happlied').1
  cases hstep with
  | constructDefaults =>
      obtain rfl : h = Host.initial := hfits
      exact Or.inl rfl
  | constructRead =>
      obtain rfl : h = Host.initial := hfits
      exact ⟨hcurrent, Nat.zero_le _⟩
  | constructed wireOpened =>
      rename_i state
      exact Or.inr ⟨state.epochs, state.fields, hfits.1, Nat.le_refl _⟩
  | act =>
      rename_i action actions
      rcases h.act_cases b action with ⟨hcore, -⟩ | ⟨attached, hact⟩
      · exact Host.ReadApplied.of_sameRead hfits (.of_core hcore)
      · rw [hact]
        exact Host.ReadApplied.of_sameRead hfits (h.sameRead_tryPromotePendingConfig b attached)
  | refreshKeyRouting =>
      exact Host.ReadApplied.of_sameRead hfits (.of_core (h.sameCore_refreshKeyRouting _ _ _).core)
  | promoteFirst attached =>
      exact Host.ReadApplied.of_sameRead hfits (h.sameRead_tryPromotePendingConfig b attached)
  | loadEpoch =>
      split
      · exact hfits
      · exact hfits
  | refreshLexicon wire disk =>
      split
      · exact Host.ReadApplied.of_sameRead hfits
          (h.sameRead_refreshUserDictionarySnapshot _ _ wire disk)
      · exact hfits
  | attach attached =>
      split
      · exact Host.ReadApplied.of_sameRead hfits
          (.of_core (h.core_tryAttachUserDictionary b attached))
      · exact hfits
  | promoteAgain attached =>
      exact ⟨Host.ReadApplied.of_sameRead hfits (h.sameRead_tryPromotePendingConfig b attached),
        h.settled_tryPromotePendingConfig b attached⟩
  | reloadMacros diskConfig =>
      constructor
      · split
        · exact Host.ReadApplied.of_sameRead hfits.1
            (Host.SameButTriggers.reloadMacros h _ diskConfig).sameRead
        · exact hfits.1
      · intro hreloaded
        rw [if_neg (Bool.eq_false_iff.mp hreloaded)]
        exact hfits.2
  | read => exact ⟨hcurrent, Nat.le_refl _⟩
  | returned => exact hfits.1
  | stage => exact ⟨rfl, hfits.2⟩
  | stageLexicon wire disk =>
      split
      · exact Host.Applying.of_sameRead hfits
          (h.sameRead_refreshUserDictionarySnapshot _ _ wire disk)
      · exact hfits
  | updateMacros diskConfig =>
      exact Host.Applying.of_sameRead hfits
        (Host.SameButTriggers.updateMacroTable h _ _ _ diskConfig).sameRead
  | promoteStaged attached =>
      rename_i state caller
      have happlying : (h.tryPromotePendingConfig b attached).Applying state :=
        Host.Applying.of_sameRead hfits (h.sameRead_tryPromotePendingConfig b attached)
      have hreadApplied : (h.tryPromotePendingConfig b attached).ReadApplied :=
        Or.inr ⟨state.epochs, state.fields, happlying⟩
      cases caller with
      | constructor => exact happlying
      | checkConfigEvent =>
            exact ⟨hreadApplied, fun _ => h.settled_tryPromotePendingConfig b attached⟩
      | refreshFlags => exact hreadApplied
  | refreshReads =>
      have hsame := Host.SameRead.of_core (h.sameCore_setFlags shared.engineEnabled shared.tsfActive
        shared.vietnameseMode).core
      split
      · exact ⟨hcurrent, hsame.1.symm ▸ hread hfits⟩
      · exact Host.ReadApplied.of_sameRead hfits hsame
  | refreshFails => exact Host.ReadApplied.of_sameRead hfits (.of_core h.sameCore_disable.core)
  | _ => exact hfits

/-- An engine stays until a promotion puts another in its place. -/
theorem HostStep.engine_none (hstep : HostStep b shared h place h' place')
    (hnone : h'.engine = none) :
    h.engine = none := by
  cases hstep with
  | constructDefaults => exact absurd hnone (Option.some_ne_none _)
  | act =>
      rename_i action actions
      rcases h.act_cases b action with ⟨-, -, hsame⟩ | ⟨attached, hact⟩
      · exact hsame.symm.trans hnone
      · rw [hact] at hnone
        exact (Host.engine_tryPromotePendingConfig hnone).1
  | refreshKeyRouting => exact (h.sameCore_refreshKeyRouting _ _ _).engine.symm.trans hnone
  | refreshReads =>
      exact (h.sameCore_setFlags shared.engineEnabled shared.tsfActive
        shared.vietnameseMode).engine.symm.trans
        hnone
  | refreshFails => exact h.sameCore_disable.engine.symm.trans hnone
  | promoteFirst attached => exact (Host.engine_tryPromotePendingConfig hnone).1
  | promoteAgain attached => exact (Host.engine_tryPromotePendingConfig hnone).1
  | promoteStaged attached => exact (Host.engine_tryPromotePendingConfig hnone).1
  | refreshLexicon wire disk =>
      split at hnone
      · exact (Host.engine_refreshUserDictionarySnapshot _ _ wire disk h).symm.trans hnone
      · exact hnone
  | stageLexicon wire disk =>
      split at hnone
      · exact (Host.engine_refreshUserDictionarySnapshot _ _ wire disk h).symm.trans hnone
      · exact hnone
  | attach attached =>
      split at hnone
      · exact Host.engine_eq_none_of_core (h.core_tryAttachUserDictionary b attached) hnone
      · exact hnone
  | reloadMacros diskConfig =>
      split at hnone
      · exact (Host.SameButTriggers.reloadMacros h _ diskConfig).engine.symm.trans hnone
      · exact hnone
  | updateMacros diskConfig =>
      exact (Host.SameButTriggers.updateMacroTable h _ _ _ diskConfig).engine.symm.trans hnone
  | _ => exact hnone

theorem HostStep.beforeEngine (hstep : HostStep b shared h place h' place')
    (hengine : h.engine = none → ¬ h.Busy ∧ place.BeforeEngine h) (hnone : h'.engine = none) :
    ¬ h'.Busy ∧ place'.BeforeEngine h' := by
  obtain ⟨hidle, hplace⟩ := hengine (hstep.engine_none hnone)
  cases hstep with
  | constructDefaults => exact absurd hnone (Option.some_ne_none _)
  | constructRead => exact ⟨hidle, trivial⟩
  | stage =>
      rename_i state allowMacroDiskRead caller
      cases caller with
      | constructor => exact ⟨hidle, rfl⟩
      | checkConfigEvent => exact hplace.elim
      | refreshFlags => exact hplace.elim
  | stageLexicon wire disk =>
      rename_i state allowMacroDiskRead wasVietnameseMode caller
      cases caller with
      | constructor =>
          split
          · obtain ⟨hcount, hcomposing, hneeds⟩ := Host.frame_refreshUserDictionarySnapshot
              state.fields.configGeneration allowMacroDiskRead wire disk h
            refine ⟨?_, hneeds hplace⟩
            rw [Host.Busy, hcount, hcomposing]
            exact hidle
          · exact ⟨hidle, hplace⟩
      | checkConfigEvent => exact hplace.elim
      | refreshFlags => exact hplace.elim
  | updateMacros diskConfig =>
      rename_i state allowMacroDiskRead wasVietnameseMode caller
      have hsame :=
        Host.SameButTriggers.updateMacroTable h wasVietnameseMode state.fields allowMacroDiskRead
        diskConfig
      cases caller with
      | constructor =>
          obtain ⟨active, pending, hcore, -⟩ := hsame.core
          refine ⟨?_, (congrArg Core.engineNeedsRecreate hcore).trans hplace⟩
          rw [Host.Busy, hsame.engineBufferCount, hsame.isComposing]
          exact hidle
      | checkConfigEvent => exact hplace.elim
      | refreshFlags => exact hplace.elim
  | promoteStaged attached =>
      rename_i state caller
      have hneeds := (Host.engine_tryPromotePendingConfig hnone).2
      cases caller with
      | constructor => exact absurd (hneeds.symm.trans hplace) Bool.noConfusion
      | checkConfigEvent => exact hplace.elim
      | refreshFlags => exact hplace.elim
  | _ => exact hplace.elim

end HostStep

/-! ## Runs -/

theorem Invariant.step {b : Build} {s t : State} {event : Event} (hinv : Invariant b s)
    (hstep : Step b s event t) : Invariant b t := by
  obtain ⟨hcoherent, hcreated, happlied, hfits, hengine⟩ := hinv
  cases hstep with
  | beginWrite heven =>
      have hmono : s.shared.epochs < s.shared.epochs + 1 := Nat.lt_succ_self _
      exact ⟨hcoherent, by dsimp only; omega,
        fun epochs fields h => (happlied epochs fields h).mono (Or.inl hmono),
          hfits.mono (Or.inl hmono),
        hengine⟩
  | endWrite state hodd hepochs =>
      have hmono : s.shared.epochs < state.epochs := by omega
      exact ⟨hcoherent, by dsimp only; omega,
        fun epochs fields h => (happlied epochs fields h).mono (Or.inl hmono),
          hfits.mono (Or.inl hmono),
        hengine⟩
  | writeFlags =>
      exact ⟨hcoherent, hcreated, fun epochs fields h =>
        (happlied epochs fields h).mono (Or.inr ⟨rfl, rfl⟩),
        hfits.mono (Or.inr ⟨rfl, rfl⟩), hengine⟩
  | host h =>
      exact ⟨h.coherent hcoherent hfits, hcreated, h.applied hfits happlied, h.fits hfits happlied,
        h.beforeEngine hengine⟩

theorem Invariant.initial {b : Build} {s : State} (hinitial : s.Initial) : Invariant b s := by
  obtain ⟨hcreated, hhost, hplace⟩ := hinitial
  constructor
  · rw [hhost]
    exact Host.coherent_initial b
  · exact hcreated
  · intro epochs fields happlied
    rw [hhost] at happlied
    exact absurd happlied (Option.some_ne_none _).symm
  · rw [hplace]
    exact hhost
  · intro _
    rw [hplace, hhost]
    refine ⟨?_, trivial⟩
    rintro (hcount | hcomposing)
    · exact hcount rfl
    · exact Bool.noConfusion hcomposing

theorem Invariant.of_run {b : Build} {start s : State} {events : List Event}
    (hinitial : start.Initial) (hrun : Run (Step b) start events s) : Invariant b s :=
  hrun.invariant (Invariant.initial hinitial) fun _ _ _ hinv hstep => hinv.step hstep

/-- Everything is read when the epoch of the shared state is the last one, unless the epoch has gone
round since. -/
theorem Invariant.stored {b : Build} {s : State} {engine : Engine} (hinv : Invariant b s)
    (hread : s.host.ReadApplied) (hepoch : s.shared.epoch = s.host.lastEpoch)
    (hround : s.shared.epochs < s.host.read + 2 ^ 32) (hneeds : s.host.engineNeedsRecreate = false)
    (hengine : s.host.engine = some engine) :
    Follows b s.shared.fields s.host.lexicon engine.config := by
  have hmod : s.shared.epochs % 2 ^ 32 = s.host.read % 2 ^ 32 := by
    rw [hinv.coherent.epoch] at hepoch
    have hnat := congrArg BitVec.toNat hepoch
    rwa [SharedState.epoch, BitVec.toNat_ofNat, BitVec.toNat_ofNat] at hnat
  have hcreated := hinv.created
  obtain hzero | ⟨epochs, fields, happlied, hle⟩ := hread
  · omega
  obtain ⟨hle', hfields⟩ := hinv.applied epochs fields happlied
  obtain rfl := hfields (by omega)
  refine (hinv.coherent.follows epochs _ happlied).of_withoutTriggers
    (hinv.coherent.engine hneeds engine.config ?_)
  rw [Host.core, hengine]
  rfl

end EngineController

end VKey
