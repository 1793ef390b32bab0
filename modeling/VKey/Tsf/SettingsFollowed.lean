import VKey.Tsf.ConfigFollowed

/-!
# The settings that an engine is created with

The engine and the configuration stay while something is typed.  When a check of the configuration
returns and nothing is typed, the engine has the settings of the shared state.  The choices of the
macro triggers come from the file at any time, and the settings of the lexicon from the lexicon.
-/

namespace VKey

namespace EngineController

/-! ## Whole calls -/

namespace Host

/-- `ApplySharedState`. -/
def applySharedState (b : Build) (state : SharedState)
    (allowMacroDiskRead attached : Bool) (wire : Wire)
    (disk : Option Lexicon) (diskConfig : Option MacroTriggers) (h : Host) : Host :=
  let staged := h.stage b state
  let staged := if b.useRustEngine then
      staged.refreshUserDictionarySnapshot state.fields.configGeneration
        allowMacroDiskRead wire disk
    else staged
  let updated := staged.updateMacroTable h.vietnameseMode state.fields allowMacroDiskRead diskConfig
  updated.tryPromotePendingConfig b attached

/-- The constructor that reads a state. -/
def construct (b : Build) (state : SharedState) (wire : Wire) (disk : Option Lexicon)
    (diskConfig : Option MacroTriggers) (h : Host) : Host :=
  { applySharedState b state true true wire disk diskConfig { h with
      connected := true, abiOk := true } with
    lastEpoch := state.epoch
    read := state.epochs
    wireReaderActive := false }

/-- The part of `CheckConfigEvent` before it compares the epochs. -/
def beginCheck (b : Build) (h : Host) : Host :=
  { h.tryPromotePendingConfig b true with connected := true, abiOk := true }

/-- The part of `CheckConfigEvent` after an epoch that is not the last one. -/
def checkChanged (b : Build) (state : SharedState) (allowMacroDiskRead : Bool) (wire : Wire)
    (disk : Option Lexicon) (diskConfig : Option MacroTriggers) (h : Host) : Host :=
  applySharedState b state allowMacroDiskRead true wire disk diskConfig
    { h with lastEpoch := state.epoch, read := state.epochs }

/-- The part of `CheckConfigEvent` after the last epoch, up to the macros. -/
def checkUnchanged (b : Build) (allowMacroDiskRead : Bool) (wire : Wire)
    (disk : Option Lexicon) (h : Host) :
    Host :=
  let refreshed := if b.useRustEngine && (h.userDictionaryNeedsReload || h.wireReaderActive) then
      h.refreshUserDictionarySnapshot h.userDictionaryGeneration allowMacroDiskRead wire disk
    else h
  let attached := if b.useRustEngine then refreshed.tryAttachUserDictionary b true else refreshed
  attached.tryPromotePendingConfig b true

/-- A call, without interruption. -/
def perform (b : Build) (h : Host) (call : Call) : Host := (call.actions h true).foldl (act b) h

end Host

section Calls

variable {b : Build} (shared : SharedState) {h : Host}

theorem run_applySharedState (state : SharedState) (allowMacroDiskRead : Bool)
    (caller : Caller) (wire : Wire) (disk : Option Lexicon) (diskConfig : Option MacroTriggers) :
    ∃ events, Run (Step b) ⟨shared, h, .staging state allowMacroDiskRead caller⟩ events
      ⟨shared, h.applySharedState b state allowMacroDiskRead true wire disk diskConfig,
        caller.next state⟩ :=
  ⟨_, .cons (.host .stage)
    (.cons (.host (.stageLexicon wire disk)) (.cons (.host (.updateMacros diskConfig))
    (.single (.host (.promoteStaged true)))))⟩

theorem run_construct (heven : shared.epochs % 2 = 0) (wire : Wire) (disk : Option Lexicon)
    (diskConfig : Option MacroTriggers) :
    ∃ events, Run (Step b) ⟨shared, h, .constructing⟩ events
      ⟨shared, h.construct b shared wire disk diskConfig, .calling []⟩ := by
  obtain ⟨events, hrun⟩ := run_applySharedState shared (b := b)
    (h := { h with connected := true, abiOk := true }) shared true .constructor wire disk diskConfig
  exact ⟨_, .cons (.host (.constructRead heven))
    (hrun.append (.single (.host (.constructed false))))⟩

theorem run_beginCheck (allowMacroDiskRead : Bool)
    (habi : (h.tryPromotePendingConfig b true).abiOk = true) :
    ∃ events, Run (Step b) ⟨shared, h, .calling []⟩ events
      ⟨shared, h.beginCheck b, .loadingEpoch allowMacroDiskRead false⟩ := by
  have hstep : Step b ⟨shared, { h.tryPromotePendingConfig b true with connected := true },
      .checkingAbi allowMacroDiskRead⟩ .host
      ⟨shared, h.beginCheck b, .loadingEpoch allowMacroDiskRead false⟩ := by
    have hnot : (!(h.tryPromotePendingConfig b true).abiOk) = false := by rw [habi, Bool.not_true]
    rw [← hnot]
    exact .host .abiOk
  exact ⟨_, .cons (.host (.check allowMacroDiskRead)) (.cons (.host (.promoteFirst true))
    (.cons (.host .connect) (.single hstep)))⟩

theorem run_checkUnchanged (allowMacroDiskRead : Bool)
    (hepoch : shared.epoch = h.lastEpoch) (wire : Wire) (disk : Option Lexicon) :
    ∃ events, Run (Step b) ⟨shared, h, .loadingEpoch allowMacroDiskRead false⟩ events
      ⟨shared, h.checkUnchanged b allowMacroDiskRead wire disk,
        .reloadingMacros allowMacroDiskRead⟩ := by
  have hstep : Step b ⟨shared, h, .loadingEpoch allowMacroDiskRead false⟩ .host
      ⟨shared, h, .refreshingLexicon allowMacroDiskRead⟩ := by
    have hload := Step.host (b := b)
      (s := ⟨shared, h, .loadingEpoch allowMacroDiskRead false⟩) .loadEpoch
    rwa [if_pos ⟨rfl, hepoch⟩] at hload
  exact ⟨_, .cons hstep (.cons (.host (.refreshLexicon wire disk)) (.cons (.host (.attach true))
    (.single (.host (.promoteAgain true)))))⟩

theorem run_checkChanged (allowMacroDiskRead : Bool) (hepoch : shared.epoch ≠ h.lastEpoch)
    (heven : shared.epochs % 2 = 0) (wire : Wire) (disk : Option Lexicon)
    (diskConfig : Option MacroTriggers) :
    ∃ events, Run (Step b) ⟨shared, h, .loadingEpoch allowMacroDiskRead false⟩ events
      ⟨shared, h.checkChanged b shared allowMacroDiskRead wire disk diskConfig,
        .checked false⟩ := by
  have hload := Step.host (b := b)
    (s := ⟨shared, h, .loadingEpoch allowMacroDiskRead false⟩) .loadEpoch
  rw [if_neg fun hsame => hepoch hsame.2] at hload
  have hread := Step.host (b := b)
    (s := ⟨shared, h, .reading allowMacroDiskRead false⟩) (.read heven)
  rw [Bool.or_false] at hread
  obtain ⟨events, hrun⟩ := run_applySharedState shared (b := b)
    (h := { h with lastEpoch := shared.epoch, read := shared.epochs }) shared allowMacroDiskRead
    .checkConfigEvent wire disk diskConfig
  exact ⟨_, .cons hload (.cons hread hrun)⟩

theorem run_actions (actions : List Action) :
    ∃ events, Run (Step b) ⟨shared, h, .calling actions⟩ events
      ⟨shared, actions.foldl (Host.act b) h, .calling []⟩ := by
  induction actions generalizing h with
  | nil => exact ⟨[], .nil⟩
  | cons action actions ih =>
      obtain ⟨events, hrun⟩ := @ih (h.act b action)
      exact ⟨_, .cons (.host .act) hrun⟩

theorem run_calls (calls : List Call) :
    ∃ events, Run (Step b) ⟨shared, h, .calling []⟩ events
      ⟨shared, calls.foldl (Host.perform b) h, .calling []⟩ := by
  induction calls generalizing h with
  | nil => exact ⟨[], .nil⟩
  | cons call calls ih =>
      obtain ⟨_, hcall⟩ := run_actions shared (b := b) (h := h) (call.actions h true)
      obtain ⟨_, hcalls⟩ := @ih (h.perform b call)
      exact ⟨_, (Run.cons (.host (.call call true)) hcall).append hcalls⟩

theorem run_write {s : State} (heven : s.shared.epochs % 2 = 0) (fields : Fields) :
    ∃ events, Run (Step b) s events
      { s with shared := { s.shared with epochs := s.shared.epochs + 2, fields := fields } } := by
  have hodd : (s.shared.epochs + 1) % 2 = 1 := by omega
  exact ⟨_, .cons (.beginWrite heven) (.single (.endWrite _ hodd rfl))⟩

theorem run_writes {s : State} (heven : s.shared.epochs % 2 = 0) (n : Nat) :
    ∃ events, Run (Step b) s events
      { s with shared := { s.shared with epochs := s.shared.epochs + 2 * n } } := by
  induction n with
  | zero => exact ⟨[], .nil⟩
  | succ n ih =>
      obtain ⟨events, hrun⟩ := ih
      have heven' : (s.shared.epochs + 2 * n) % 2 = 0 := by omega
      obtain ⟨events', hrun'⟩ := run_write (b := b)
        (s := { s with shared := { s.shared with epochs := s.shared.epochs + 2 * n } })
          heven' s.shared.fields
      exact ⟨_, hrun.append hrun'⟩

end Calls

/-- The configuration has the method, the level and the features that the shared state stores. -/
structure Stores (fields : Fields) (config : TypingConfig) : Prop where
  inputMethod : inputMethods[fields.inputMethod.toNat]? = some config.inputMethod
  spellCheckEnabled : config.spellCheckEnabled = (fields.spellCheck != 0)
  spellSuggestEnabled : config.spellSuggestEnabled = (fields.spellCheck == 2)
  features : ∀ f : HookEngine.ConfigSync.FeatureFlag,
    config.flag (ConfigManager.featureFlag f) = (fields.featureFlags &&& f.mask != 0)

/-- The same of the methods up to 2, with the suggestions of the lexicon where there is one. -/
structure StoresKnown (b : Build) (fields : Fields) (lexicon : Bool × List (List WChar))
    (config : TypingConfig) : Prop where
  inputMethod :
    fields.inputMethod ≤ 2 → inputMethods[fields.inputMethod.toNat]? = some config.inputMethod
  spellCheckEnabled : config.spellCheckEnabled = (fields.spellCheck != 0)
  spellSuggestEnabled : config.spellSuggestEnabled =
    if b.useRustEngine then lexicon.1 else fields.spellCheck == 2
  features : ∀ f : HookEngine.ConfigSync.FeatureFlag,
    config.flag (ConfigManager.featureFlag f) = (fields.featureFlags &&& f.mask != 0)

theorem getElem?_inputMethods {inputMethod : UInt8} (hle : inputMethod ≤ 2) :
    inputMethods[inputMethod.toNat]? = some (newMethod inputMethod) := by
  have hlt : inputMethod.toNat < inputMethods.length :=
    Nat.lt_of_le_of_lt (UInt8.le_iff_toNat_le.mp hle) (by decide)
  rw [newMethod, if_pos hle, List.getElem?_eq_getElem hlt]
  rfl

theorem settings_followed_between_words (b : Build) {start s : State} {events : List Event}
    (hinitial : start.Initial) (hrun : Run (Step b) start events s) :
    (∀ event t, Step b s event t → s.host.Busy →
      t.host.engine = s.host.engine ∧
        withoutTriggers t.host.activeConfig = withoutTriggers s.host.activeConfig) ∧
      (s.place = .checked false → s.shared.epoch = s.host.lastEpoch →
        s.shared.epochs < s.host.read + 2 ^ 32 → s.host.canPromoteTsfConfig = true →
        ∃ engine, s.host.engine = some engine ∧
          StoresKnown b s.shared.fields s.host.lexicon engine.config) := by
  have hinv := Invariant.of_run hinitial hrun
  constructor
  · intro event t hstep hbusy
    cases hstep with
    | host h => exact h.busy (fun hnone => (hinv.engine hnone).1) hinv.fits hbusy
    | _ => exact ⟨rfl, rfl⟩
  · intro hplace hepoch hround hidle
    have hfits := hinv.fits
    rw [hplace] at hfits
    obtain ⟨hread, hsettled⟩ := hfits
    obtain ⟨engine, hengine⟩ : ∃ engine, s.host.engine = some engine := by
      cases hengine : s.host.engine with
      | none =>
          have hbefore := (hinv.engine hengine).2
          rw [hplace] at hbefore
          exact hbefore.elim
      | some engine => exact ⟨engine, rfl⟩
    have hneeds : s.host.engineNeedsRecreate = false := by
      apply hsettled rfl
      rw [Host.canPromotePendingConfig, hidle, Bool.or_true]
    have hfollows := hinv.stored hread hepoch hround hneeds hengine
    refine ⟨engine, hengine, ?_, hfollows.spellCheckEnabled,
      hfollows.spellSuggestEnabled, hfollows.features⟩
    intro hle
    rw [hfollows.inputMethod]
    exact getElem?_inputMethods hle

/-- A check of the configuration that has read the epoch returns, and nothing is typed. -/
def Checked (b : Build) (s : State) : Prop :=
  (∃ start events, start.Initial ∧ Run (Step b) start events s) ∧
    (∃ reloaded, s.place = .checked reloaded) ∧
    s.shared.epoch = s.host.lastEpoch ∧ s.host.canPromoteTsfConfig = true

/-- The engine has been created with the settings that are stored. -/
def HasStored (s : State) : Prop :=
  ∃ engine, s.host.engine = some engine ∧ Stores s.shared.fields engine.config

/-- The engine and the active configuration stay while something is typed, and after every check the
engine has what is stored. -/
def FollowsSettings (b : Build) : Prop :=
  ∀ start s events, State.Initial start → Run (Step b) start events s →
    (∀ event t, Step b s event t → s.host.Busy →
      t.host.engine = s.host.engine ∧ t.host.activeConfig = s.host.activeConfig) ∧
    (Checked b s → HasStored s)

/-- The first state, with the fields that the mapping stores. -/
def mapped (fields : Fields) : State := ⟨⟨2, fields, true, true, true⟩, Host.initial, .constructing⟩

theorem initial_mapped (fields : Fields) : (mapped fields).Initial := ⟨Nat.le_refl 2, rfl, rfl⟩

theorem run_construct_check (b : Build) (fields : Fields) (habi : ((Host.initial.construct b
      (mapped fields).shared .unavailable none none).tryPromotePendingConfig b true).abiOk = true)
    (hepoch : (mapped fields).shared.epoch =
      ((Host.initial.construct b (mapped fields).shared .unavailable none
      none).beginCheck b).lastEpoch) :
    ∃ events, Run (Step b) (mapped fields) events
      ⟨(mapped fields).shared, ((Host.initial.construct b (mapped fields).shared .unavailable none
        none).beginCheck b).checkUnchanged b false .unavailable none, .checked false⟩ := by
  obtain ⟨_, hconstruct⟩ := run_construct (mapped fields).shared (b := b) (h := Host.initial)
    (Nat.mod_self 2) .unavailable none none
  obtain ⟨_, hbegin⟩ := run_beginCheck (mapped fields).shared false habi
  obtain ⟨_, hcheck⟩ := run_checkUnchanged (mapped fields).shared (b := b)
    false hepoch .unavailable none
  exact ⟨_, (hconstruct.append (hbegin.append hcheck)).snoc (.host (.reloadMacros none))⟩

theorem settings_followed_between_words_vni :
    ∃ start s events, State.Initial start ∧ Run (Step ⟨false, false⟩) start events s ∧
      s.place = .checked false ∧ s.shared.fields.inputMethod = 1 ∧
      ∃ engine, s.host.engine = some engine ∧
        StoresKnown ⟨false, false⟩ s.shared.fields s.host.lexicon engine.config := by
  obtain ⟨events, hrun⟩ := run_construct_check ⟨false, false⟩ ⟨1, 1, 0, 0, 0⟩ rfl rfl
  exact ⟨_, _, events, initial_mapped _, hrun, rfl, rfl,
    (settings_followed_between_words ⟨false, false⟩ (initial_mapped _) hrun).2
      rfl rfl (by decide) rfl⟩

theorem not_hasStored_combined :
    ∃ s, Checked ⟨false, false⟩ s ∧ s.shared.fields.inputMethod = 3 ∧ ¬ HasStored s := by
  obtain ⟨events, hrun⟩ := run_construct_check ⟨false, false⟩ ⟨3, 1, 0, 0, 0⟩ rfl rfl
  refine ⟨_, ⟨⟨_, events, initial_mapped _, hrun⟩, ⟨_, rfl⟩, rfl, rfl⟩, rfl, ?_⟩
  rintro ⟨engine, hengine, hmethod, -⟩
  obtain rfl := Option.some_inj.mp hengine
  exact absurd hmethod (by decide)

theorem not_hasStored_advanced :
    ∃ s, Checked ⟨true, true⟩ s ∧ s.shared.fields.spellCheck = 2 ∧ ¬ HasStored s := by
  obtain ⟨events, hrun⟩ := run_construct_check ⟨true, true⟩ ⟨0, 2, 0, 0, 0⟩ rfl rfl
  refine ⟨_, ⟨⟨_, events, initial_mapped _, hrun⟩, ⟨_, rfl⟩, rfl, rfl⟩, rfl, ?_⟩
  rintro ⟨engine, hengine, -, -, hsuggest, -⟩
  obtain rfl := Option.some_inj.mp hengine
  exact absurd hsuggest (by decide)

/-- After 2147483648 writes the epoch is the same again. -/
theorem not_hasStored_round : ∃ s, Checked ⟨false, false⟩ s ∧ s.place = .checked false ∧
    s.shared.epochs = s.host.read + 2 ^ 32 ∧ ¬ HasStored s := by
  obtain ⟨_, hconstruct⟩ := run_construct (mapped ⟨0, 1, 0, 0, 0⟩).shared (b := ⟨false, false⟩)
    (h := Host.initial) rfl .unavailable none none
  obtain ⟨_, hwrite⟩ := run_write (b := ⟨false, false⟩)
    (s := ⟨(mapped ⟨0, 1, 0, 0, 0⟩).shared, Host.initial.construct ⟨false, false⟩
      (mapped ⟨0, 1, 0, 0, 0⟩).shared .unavailable none none, .calling []⟩) rfl ⟨1, 1, 0, 0, 0⟩
  obtain ⟨_, hwrites⟩ := run_writes (b := ⟨false, false⟩)
    (s := ⟨⟨4, ⟨1, 1, 0, 0, 0⟩, true, true, true⟩, Host.initial.construct ⟨false, false⟩
      (mapped ⟨0, 1, 0, 0, 0⟩).shared .unavailable none none, .calling []⟩) rfl 2147483647
  obtain ⟨_, hbegin⟩ := run_beginCheck ⟨4 + 2 * 2147483647, ⟨1, 1, 0, 0, 0⟩, true, true, true⟩
    (b := ⟨false, false⟩)
      (h := Host.initial.construct ⟨false, false⟩ (mapped ⟨0, 1, 0, 0, 0⟩).shared
      .unavailable none none) false rfl
  obtain ⟨_, hcheck⟩ := run_checkUnchanged ⟨4 + 2 * 2147483647, ⟨1, 1, 0, 0, 0⟩, true, true, true⟩
    (b := ⟨false, false⟩)
      (h := (Host.initial.construct ⟨false, false⟩ (mapped ⟨0, 1, 0, 0, 0⟩).shared
      .unavailable none none).beginCheck ⟨false, false⟩) false (by decide) .unavailable none
  have hrun := ((hconstruct.append hwrite).append
    (hwrites.append (hbegin.append hcheck))).snoc (.host (.reloadMacros none))
  refine ⟨_, ⟨⟨_, _, initial_mapped _, hrun⟩, ⟨_, rfl⟩, by decide, rfl⟩, rfl, by decide, ?_⟩
  rintro ⟨engine, hengine, hmethod, -⟩
  obtain rfl := Option.some_inj.mp hengine
  exact absurd hmethod (by decide)

/-- The constructor reads a state with macros and finds the file. -/
def macroHost : Host :=
  Host.initial.construct ⟨false, false⟩ (mapped ⟨0, 0, 0, 0x0100, 0⟩).shared .unavailable none
    (some ⟨true, true, true, true⟩)

/-- A word is typed that a macro may continue. -/
def candidateHost : Host :=
  [.trackMacro [98], .pushEngineKey 1 true, .keepMacroCandidate [98, 32],
    .commitWithChar false].foldl
    (Host.perform ⟨false, false⟩) macroHost

/-- The settings turn the macros off. -/
def macrosOff : SharedState := ⟨4, ⟨0, 0, 0, 0, 0⟩, true, true, true⟩

/-- The check on the focus empties the buffer of the macros after its last attempt of a
promotion. -/
theorem not_hasStored_reloaded :
    ∃ s, Checked ⟨false, false⟩ s ∧ s.place = .checked true ∧ ¬ HasStored s := by
  obtain ⟨_, hconstruct⟩ := run_construct (mapped ⟨0, 0, 0, 0x0100, 0⟩).shared (b := ⟨false, false⟩)
    (h := Host.initial) rfl .unavailable none (some ⟨true, true, true, true⟩)
  obtain ⟨_, htype⟩ := run_calls (mapped ⟨0, 0, 0, 0x0100, 0⟩).shared (b := ⟨false, false⟩)
    (h := macroHost)
    [.trackMacro [98], .pushEngineKey 1 true, .keepMacroCandidate [98, 32], .commitWithChar false]
  obtain ⟨_, hwrite⟩ := run_write (b := ⟨false, false⟩)
    (s := ⟨(mapped ⟨0, 0, 0, 0x0100, 0⟩).shared, candidateHost, .calling []⟩) rfl ⟨0, 0, 0, 0, 0⟩
  obtain ⟨_, hbegin⟩ := run_beginCheck macrosOff (b := ⟨false, false⟩)
    (h := candidateHost) false rfl
  obtain ⟨_, hchanged⟩ := run_checkChanged macrosOff (b := ⟨false, false⟩)
    (h := candidateHost.beginCheck ⟨false, false⟩) false (by decide)
      (by decide) .unavailable none none
  obtain ⟨_, hbegin'⟩ := run_beginCheck macrosOff (b := ⟨false, false⟩)
    (h := (candidateHost.beginCheck ⟨false, false⟩).checkChanged ⟨false, false⟩
      macrosOff false .unavailable none
      none) true (by decide)
  obtain ⟨_, hunchanged⟩ := run_checkUnchanged macrosOff (b := ⟨false, false⟩)
    (h := ((candidateHost.beginCheck ⟨false, false⟩).checkChanged ⟨false, false⟩
      macrosOff false .unavailable none
      none).beginCheck ⟨false, false⟩) true rfl .unavailable none
  have hfirst := (hconstruct.append (htype.append hwrite)).append
    ((hbegin.append hchanged).snoc (.host .returned))
  have hrun := (hfirst.append (hbegin'.append hunchanged)).snoc
    (.host (.reloadMacros (some ⟨true, true, true, true⟩)))
  refine ⟨_, ⟨⟨_, _, initial_mapped _, hrun⟩, ⟨_, rfl⟩, rfl, rfl⟩, rfl, ?_⟩
  rintro ⟨engine, hengine, -, -, -, hfeatures⟩
  obtain rfl := Option.some_inj.mp hengine
  exact absurd (hfeatures .macroEnabled) (by decide)

/-- A word is typed. -/
def typedHost : Host := macroHost.perform ⟨false, false⟩ (.pushEngineKey 1 true)

/-- The settings publish another generation of the file. -/
def laterGeneration : SharedState := ⟨4, ⟨0, 0, 0, 0x0100, 1⟩, true, true, true⟩

/-- The macros are reloaded in the middle of the word. -/
theorem triggers_change_while_busy :
    ∃ start s t events event, start.Initial ∧ Run (Step ⟨false, false⟩) start events s ∧
      Step ⟨false, false⟩ s event t ∧ s.host.Busy ∧ s.host.activeConfig.macroTriggerSpace = true ∧
      t.host.activeConfig.macroTriggerSpace = false := by
  obtain ⟨_, hconstruct⟩ := run_construct (mapped ⟨0, 0, 0, 0x0100, 0⟩).shared (b := ⟨false, false⟩)
    (h := Host.initial) rfl .unavailable none (some ⟨true, true, true, true⟩)
  obtain ⟨_, htype⟩ := run_calls (mapped ⟨0, 0, 0, 0x0100, 0⟩).shared (b := ⟨false, false⟩)
    (h := macroHost) [.pushEngineKey 1 true]
  obtain ⟨_, hwrite⟩ := run_write (b := ⟨false, false⟩)
    (s := ⟨(mapped ⟨0, 0, 0, 0x0100, 0⟩).shared, typedHost, .calling []⟩)
      (by decide) ⟨0, 0, 0, 0x0100, 1⟩
  obtain ⟨_, hbegin⟩ := run_beginCheck laterGeneration (b := ⟨false, false⟩)
    (h := typedHost) false rfl
  have hread : Run (Step ⟨false, false⟩)
      ⟨laterGeneration, typedHost.beginCheck ⟨false, false⟩, .loadingEpoch false false⟩
      [.host, .host, .host, .host]
      ⟨laterGeneration, _, .updatingMacros laterGeneration false true .checkConfigEvent⟩ :=
    .cons (.host .loadEpoch) (.cons (.host (.read (by decide))) (.cons (.host .stage)
      (.single (.host (.stageLexicon .unavailable none)))))
  have hrun := (hconstruct.append (htype.append hwrite)).append (hbegin.append hread)
  exact ⟨_, _, _, _, .host, initial_mapped _, hrun,
    .host (.updateMacros (some ⟨false, true, true, true⟩)), Or.inl (by decide), rfl, rfl⟩

theorem not_followsSettings :
    ¬ FollowsSettings ⟨false, false⟩ ∧
      (∃ start s t events event, start.Initial ∧ Run (Step ⟨false, false⟩) start events s ∧
        Step ⟨false, false⟩ s event t ∧ s.host.Busy ∧ s.host.activeConfig.macroTriggerSpace = true ∧
        t.host.activeConfig.macroTriggerSpace = false) ∧
      (∃ s, Checked ⟨false, false⟩ s ∧ s.shared.fields.inputMethod = 3 ∧ ¬ HasStored s) ∧
      (∃ s, Checked ⟨true, true⟩ s ∧ s.shared.fields.spellCheck = 2 ∧ ¬ HasStored s) ∧
      (∃ s, Checked ⟨false, false⟩ s ∧ s.place = .checked false ∧
        s.shared.epochs = s.host.read + 2 ^ 32 ∧ ¬ HasStored s) ∧
      ∃ s, Checked ⟨false, false⟩ s ∧ s.place = .checked true ∧ ¬ HasStored s := by
  refine ⟨?_, triggers_change_while_busy, not_hasStored_combined, not_hasStored_advanced,
    not_hasStored_round, not_hasStored_reloaded⟩
  intro hfollows
  obtain ⟨s, hchecked, -, hnot⟩ := not_hasStored_combined
  obtain ⟨start, events, hinitial, hrun⟩ := hchecked.1
  exact hnot ((hfollows start s events hinitial hrun).2 hchecked)

end EngineController

end VKey
