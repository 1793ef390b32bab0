import VKey.Hook.ConfigSync

/-!
# The configuration converges to the shared state

When no run is under way and the last epoch is the present one, the configuration is that of the
shared state, if the runs have claimed their epochs one after the other and no reload has taken an
older value from the TOML file.
-/

namespace VKey

namespace HookEngine

namespace ConfigSync

variable {ι : Type}

/-! ## The configuration that is in force -/

/-- The configuration has the values of the shared state. -/
def Agrees (config : TypingConfig) (values : Values) : Prop := config.decode values = config

/-- The method is that of the configuration or of the application. -/
def Engine.Follows (e : Engine) (method : Nat) : Prop :=
  method = e.config.inputMethod ∨ e.appInputMethodOverride = some method

/-- The hook thread has the method of the configuration, or will have it. -/
def Engine.MethodLive (e : Engine) : Prop :=
  e.kConfigApply = true ∨ e.applying = .loading ∨
    (∃ method, e.applying = .storing method ∧ e.Follows method) ∨
      e.applying = .idle ∧ e.Follows e.currentMethod

/-- The configuration, the code table and the method have the values. -/
structure Engine.Matches (e : Engine) (values : Values) : Prop where
  config : Agrees e.config values
  codeTable : e.globalCodeTable = values .codeTable
  method : e.MethodLive

/-- A reload with this TOML file and this shared state publishes the values. -/
def Reloads (toml : TypingConfig) (values : Values) : Option SharedState → Prop
  | some shared => toml.codeTable = values .codeTable ∧
      ∀ field, field ≠ .codeTable → shared.values field = values field
  | none => Agrees toml values

/-- The hook thread is not about to store another method. -/
def Engine.Settled (e : Engine) (method : Nat) : Prop :=
  (e.kConfigApply = true ∨ e.applying = .loading → e.config.inputMethod = method) ∧
    ∀ target, e.applying = .storing target →
      target = method ∨ e.appInputMethodOverride = some target

/-- The thread has claimed an epoch and is not done with it. -/
def Syncing.Busy : Syncing → Prop
  | .idle => False
  | .loadingEpoch => False
  | .loadingSeen _ => False
  | .reloadingEpoch => False
  | .reloadingSeen _ => False
  | .reading _ => False
  | .claiming _ _ => False
  | _ => True

/-- The runs do not overlap and the epoch does not wrap around; a reload publishes the values of its
claim, unless they will be compared and published again; and where a run finds the method or the
code table unchanged, the hook thread will not change the method, and the code table is not that of
the application alone. -/
def Undisturbed (s : State ι) : Event ι → Prop
  | .beginWrite => s.shared.epochs + 1 < s.engine.claimed + 2 ^ 32
  | .endWrite => s.shared.epochs + 1 < s.engine.claimed + 2 ^ 32
  | .sync i .claim => (∀ j, ¬(s.syncing j).Busy) ∧
      ∀ seen state, s.syncing i = .claiming seen state →
      s.shared.epochs < state.epochs + 2 ^ 32
  | .sync i (.override read) => ∀ state config, s.syncing i = .overriding state config →
      state.values = s.engine.last → Reloads config state.values read
  | .sync i .loadMethod => ∀ state config, s.syncing i = .loadingMethod state config →
      s.engine.currentMethod = config.inputMethod → s.engine.Settled config.inputMethod
  | .sync i .loadTable => ∀ state config methodChanged,
      s.syncing i = .loadingTable state config methodChanged →
        s.engine.currentCodeTable = config.codeTable → s.engine.globalCodeTable = config.codeTable
  | _ => True

theorem agrees_decode (values : Values) (config : TypingConfig) :
    Agrees (config.decode values) values := rfl

theorem Agrees.codeTable {config : TypingConfig} {values : Values} (h : Agrees config values) :
    config.codeTable = values .codeTable := (congrArg TypingConfig.codeTable h).symm

theorem agrees_override {toml : TypingConfig} {values : Values} {shared : SharedState}
    (h : Reloads toml values (some shared)) : Agrees (toml.override shared.values) values := by
  obtain ⟨htable, hvalues⟩ := h
  rw [Agrees, TypingConfig.decode, TypingConfig.override, ← hvalues .featureFlags (by nofun),
    ← hvalues .spellCheck (by nofun), ← hvalues .inputMethod (by nofun), ← htable]
  rfl

/-! ## The hook thread -/

/-- The hook thread has the method and will keep it. -/
def Engine.Holds (e : Engine) (method : Nat) : Prop :=
  e.Settled method ∧ (e.currentMethod = method ∨ e.appInputMethodOverride = some e.currentMethod)

theorem Engine.Holds.methodLive {e : Engine} {config : TypingConfig}
    (h : e.Holds config.inputMethod) :
    Engine.MethodLive { e with config := config } := by
  cases happlying : e.applying with
  | idle => exact Or.inr (Or.inr (Or.inr ⟨rfl, h.2⟩))
  | loading => exact Or.inr (Or.inl rfl)
  | storing target => exact Or.inr (Or.inr (Or.inl ⟨target, rfl, h.1.2 target happlying⟩))

/-- What a step of the hook thread keeps. -/
structure Kept (e e' : Engine) : Prop where
  lastEpoch : e'.lastEpoch = e.lastEpoch
  claimed : e'.claimed = e.claimed
  last : e'.last = e.last
  config : e'.config = e.config
  globalCodeTable : e'.globalCodeTable = e.globalCodeTable
  methodLive : e.MethodLive → e'.MethodLive
  holds : ∀ method, e.Holds method → e'.Holds method

theorem ApplyStep.kept {e e' : Engine} (h : ApplyStep e e') : Kept e e' := by
  cases h with
  | take happlying hbit =>
      refine ⟨rfl, rfl, rfl, rfl, rfl, fun _ => Or.inr (Or.inl rfl), fun method hholds => ?_⟩
      exact ⟨⟨fun _ => hholds.1.1 (Or.inl hbit), by nofun⟩, hholds.2⟩
  | load happlying =>
      have hfollows : ∀ method, e.config.inputMethod = method →
          e.appInputMethodOverride.getD e.config.inputMethod = method ∨
            e.appInputMethodOverride =
              some (e.appInputMethodOverride.getD e.config.inputMethod) := by
        rintro method rfl
        cases e.appInputMethodOverride with
        | none => exact Or.inl rfl
        | some target => exact Or.inr rfl
      refine ⟨rfl, rfl, rfl, rfl, rfl, fun _ => ?_, fun method hholds => ?_⟩
      · exact Or.inr (Or.inr (Or.inl ⟨_, rfl, hfollows _ rfl⟩))
      · have hmethod := hholds.1.1 (Or.inr happlying)
        refine ⟨⟨fun _ => hmethod, fun target htarget => ?_⟩, hholds.2⟩
        obtain rfl := Applying.storing.inj htarget
        exact hfollows method hmethod
  | @store targetMethod happlying =>
      refine ⟨rfl, rfl, rfl, rfl, rfl, fun hlive => ?_, fun method hholds => ?_⟩
      · rcases hlive with hbit | hloading | ⟨target, hstoring, hfollows⟩ | ⟨hidle, -⟩
        · exact Or.inl hbit
        · cases happlying.symm.trans hloading
        · obtain rfl := Applying.storing.inj (happlying.symm.trans hstoring)
          exact Or.inr (Or.inr (Or.inr ⟨rfl, hfollows⟩))
        · cases happlying.symm.trans hidle
      · refine ⟨⟨fun hdue => ?_, by nofun⟩, hholds.1.2 targetMethod happlying⟩
        exact hholds.1.1 (Or.inl (hdue.resolve_right (by nofun)))

/-! ## The places of a run -/

/-- What holds of the engine while a thread stands at a place of its run. -/
def At (e : Engine) : Syncing → Prop
  | .claimed state => state.epochs = e.claimed ∧ e.Matches e.last
  | .storingGeneration state => state.epochs = e.claimed ∧ e.Matches e.last
  | .loadingToml state => state.epochs = e.claimed ∧ e.Matches e.last
  | .overriding state _ => state.epochs = e.claimed ∧ e.Matches e.last
  | .publishing state config =>
      state.epochs = e.claimed ∧ (state.values = e.last → Agrees config state.values)
  | .reloadingCurrentTable state config =>
      state.epochs = e.claimed ∧ (state.values = e.last → Agrees config state.values) ∧
        e.config = config
  | .reloadingGlobalTable state config =>
      state.epochs = e.claimed ∧ (state.values = e.last → Agrees config state.values) ∧
        e.config = config
  | .reapplyingOverride state =>
      state.epochs = e.claimed ∧ (state.values = e.last →
        Agrees e.config state.values ∧ e.globalCodeTable = state.values .codeTable)
  | .postingReload state =>
      state.epochs = e.claimed ∧ (state.values = e.last →
        Agrees e.config state.values ∧ e.globalCodeTable = state.values .codeTable)
  | .comparing state fields =>
      state.epochs = e.claimed ∧ (state.values = e.last → e.Matches state.values) ∧
        ∀ field, field ∉ fields → state.values field = e.last field
  | .storing state fields =>
      state.epochs = e.claimed ∧ ∀ field, field ∉ fields → e.last field = state.values field
  | .loadingConfig state => state.epochs = e.claimed ∧ e.last = state.values
  | .loadingMethod state config =>
      state.epochs = e.claimed ∧ e.last = state.values ∧ Agrees config state.values
  | .loadingTable state config methodChanged =>
      state.epochs = e.claimed ∧ e.last = state.values ∧ Agrees config state.values ∧
        (methodChanged = false → e.Holds config.inputMethod)
  | .storingConfig state config methodChanged codeTableChanged =>
      state.epochs = e.claimed ∧ e.last = state.values ∧ Agrees config state.values ∧
        (methodChanged = false → e.Holds config.inputMethod) ∧
          (codeTableChanged = false → e.globalCodeTable = config.codeTable)
  | .posting state config methodChanged codeTableChanged =>
      state.epochs = e.claimed ∧ e.last = state.values ∧ Agrees config state.values ∧
        e.config = config ∧ (methodChanged = false → e.MethodLive) ∧
          (codeTableChanged = false → e.globalCodeTable = config.codeTable)
  | .storingCurrentTable state config codeTableChanged =>
      state.epochs = e.claimed ∧ e.last = state.values ∧ Agrees config state.values ∧
        e.config = config ∧ e.MethodLive ∧
          (codeTableChanged = false → e.globalCodeTable = config.codeTable)
  | .storingGlobalTable state config =>
      state.epochs = e.claimed ∧ e.last = state.values ∧ Agrees config state.values ∧
        e.config = config ∧ e.MethodLive
  | _ => True

theorem Kept.matches {e e' : Engine} (hkept : Kept e e') {values : Values} (h : e.Matches values) :
    e'.Matches values :=
  ⟨hkept.config ▸ h.config, hkept.globalCodeTable.trans h.codeTable, hkept.methodLive h.method⟩

/-- The hook thread does not disturb a run. -/
theorem Kept.at {e e' : Engine} (hkept : Kept e e') {place : Syncing} (h : At e place) :
    At e' place := by
  have hmatches : ∀ values, e.Matches values → e'.Matches values := fun _ => hkept.matches
  have hlive := hkept.methodLive
  have hholds := hkept.holds
  cases place <;>
    simp only [At, hkept.claimed, hkept.last, hkept.config, hkept.globalCodeTable] at h ⊢
  case claimed | storingGeneration | loadingToml | overriding => exact h.imp_right (hmatches _)
  case comparing => exact ⟨h.1, fun heq => hmatches _ (h.2.1 heq), h.2.2⟩
  case loadingTable =>
    exact ⟨h.1, h.2.1, h.2.2.1, fun hchanged => hholds _ (h.2.2.2 hchanged)⟩
  case storingConfig =>
    exact ⟨h.1, h.2.1, h.2.2.1, fun hchanged => hholds _ (h.2.2.2.1 hchanged), h.2.2.2.2⟩
  case posting =>
    exact ⟨h.1, h.2.1, h.2.2.1, h.2.2.2.1, fun hchanged =>
      hlive (h.2.2.2.2.1 hchanged), h.2.2.2.2.2⟩
  case storingCurrentTable =>
    exact ⟨h.1, h.2.1, h.2.2.1, h.2.2.2.1, hlive h.2.2.2.2.1, h.2.2.2.2.2⟩
  case storingGlobalTable => exact ⟨h.1, h.2.1, h.2.2.1, h.2.2.2.1, hlive h.2.2.2.2⟩
  all_goals exact h

/-! ## One step of a run -/

/-- What the end of a run leaves. -/
structure Done (e : Engine) (state : SharedState) : Prop where
  claimed : state.epochs = e.claimed
  last : e.last = state.values
  agrees : e.Matches e.last

def Syncing.snapshot : Syncing → Option SharedState
  | .claiming _ state => some state
  | .claimed state => some state
  | .storingGeneration state => some state
  | .loadingToml state => some state
  | .overriding state _ => some state
  | .publishing state _ => some state
  | .reloadingCurrentTable state _ => some state
  | .reloadingGlobalTable state _ => some state
  | .reapplyingOverride state => some state
  | .postingReload state => some state
  | .comparing state _ => some state
  | .storing state _ => some state
  | .loadingConfig state => some state
  | .loadingMethod state _ => some state
  | .loadingTable state _ _ => some state
  | .storingConfig state _ _ _ => some state
  | .posting state _ _ _ => some state
  | .storingCurrentTable state _ _ => some state
  | .storingGlobalTable state _ => some state
  | _ => none

/-- What a step needs of the engine. -/
def Allowed (e : Engine) (place : Syncing) : Act → Prop
  | .override read => ∀ state config, place = .overriding state config →
      state.values = e.last → Reloads config state.values read
  | .loadMethod => ∀ state config, place = .loadingMethod state config →
      e.currentMethod = config.inputMethod → e.Settled config.inputMethod
  | .loadTable => ∀ state config methodChanged, place = .loadingTable state config methodChanged →
      e.currentCodeTable = config.codeTable → e.globalCodeTable = config.codeTable
  | _ => True

theorem mem_all (field : Field) : field ∈ Field.all := by
  cases field <;> decide

/-- A run that has claimed an epoch goes on, or ends with the configuration of its snapshot. -/
theorem At.step {shared : SharedState} {toml : TypingConfig} {e e' : Engine}
    {place place' : Syncing}
    {act : Act} (h : At e place) (hbusy : place.Busy) (hallowed : Allowed e place act)
    (hstep : SyncStep shared toml e place act e' place') :
    e'.lastEpoch = e.lastEpoch ∧ e'.claimed = e.claimed ∧
      (place'.Busy ∧ place'.snapshot = place.snapshot ∧ At e' place' ∨
        place' = .idle ∧ ∃ state, place.snapshot = some state ∧ Done e' state) := by
  cases hstep with
  | call | loadEpoch | loadSeen | reloadEpoch | reloadSeen | read | readFails | claim
  | claimFails =>
      exact hbusy.elim
  | @compareGeneration state =>
      refine ⟨rfl, rfl, Or.inl ?_⟩
      split_ifs with hsame
      · refine ⟨trivial, rfl, h.1, fun heq => ?_, fun field hfield => absurd (mem_all field) hfield⟩
        rw [heq]
        exact h.2
      · exact ⟨trivial, rfl, h⟩
  | storeGeneration =>
        exact ⟨rfl, rfl, Or.inl ⟨trivial, rfl, h.1, h.2.config, h.2.codeTable, h.2.method⟩⟩
  | loadToml => exact ⟨rfl, rfl, Or.inl ⟨trivial, rfl, h⟩⟩
  | override heven =>
      exact ⟨rfl, rfl, Or.inl ⟨trivial, rfl, h.1,
        fun heq => agrees_override (hallowed _ _ rfl heq)⟩⟩
  | overrideFails => exact ⟨rfl, rfl, Or.inl ⟨trivial, rfl, h.1, hallowed _ _ rfl⟩⟩
  | publish => exact ⟨rfl, rfl, Or.inl ⟨trivial, rfl, h.1, h.2, rfl⟩⟩
  | reloadCurrentTable => exact ⟨rfl, rfl, Or.inl ⟨trivial, rfl, h⟩⟩
  | reloadGlobalTable =>
      obtain ⟨hclaimed, hagrees, hconfig⟩ := h
      refine ⟨rfl, rfl, Or.inl ⟨trivial, rfl, hclaimed, fun heq => ⟨?_, (hagrees heq).codeTable⟩⟩⟩
      dsimp only
      rw [hconfig]
      exact hagrees heq
  | reapplyOverride => exact ⟨rfl, rfl, Or.inl ⟨trivial, rfl, h⟩⟩
  | skipOverride => exact ⟨rfl, rfl, Or.inl ⟨trivial, rfl, h⟩⟩
  | postReload =>
      exact ⟨rfl, rfl, Or.inl ⟨trivial, rfl, h.1, fun heq => ⟨(h.2 heq).1, (h.2 heq).2, Or.inl rfl⟩,
        fun field hfield => absurd (mem_all field) hfield⟩⟩
  | @compare state field fields =>
      obtain ⟨hclaimed, hmatches, hequal⟩ := h
      refine ⟨rfl, rfl, Or.inl ?_⟩
      split_ifs with hsame
      · refine ⟨trivial, rfl, hclaimed, hmatches, fun other hother => ?_⟩
        rcases eq_or_ne other field with rfl | hne
        · exact hsame
        · exact hequal other fun hmem => (List.mem_cons.mp hmem).elim hne hother
      · exact ⟨trivial, rfl, hclaimed, fun other hother => absurd (mem_all other) hother⟩
  | @unchanged state =>
      obtain ⟨hclaimed, hmatches, hequal⟩ := h
      have hvalues : state.values = e.last := funext fun field => hequal field List.not_mem_nil
      exact ⟨rfl, rfl, Or.inr ⟨rfl, state, rfl, hclaimed, hvalues.symm, hvalues ▸ hmatches hvalues⟩⟩
  | @store state field fields =>
      refine ⟨rfl, rfl, Or.inl ⟨trivial, rfl, h.1, fun other hother => ?_⟩⟩
      rcases eq_or_ne other field with rfl | hne
      · exact Function.update_self ..
      · refine (Function.update_of_ne hne ..).trans (h.2 other ?_)
        exact fun hmem => (List.mem_cons.mp hmem).elim hne hother
  | stored =>
      exact ⟨rfl, rfl, Or.inl ⟨trivial, rfl, h.1, funext fun field => h.2 field List.not_mem_nil⟩⟩
  | loadConfig => exact ⟨rfl, rfl, Or.inl ⟨trivial, rfl, h.1, h.2, agrees_decode _ _⟩⟩
  | @loadMethod state config =>
      refine ⟨rfl, rfl, Or.inl ⟨trivial, rfl, h.1, h.2.1, h.2.2, fun hchanged => ?_⟩⟩
      have hmethod : e.currentMethod = config.inputMethod := bne_eq_false_iff_eq.mp hchanged
      exact ⟨hallowed _ _ rfl hmethod, Or.inl hmethod⟩
  | @loadTable state config methodChanged =>
      refine ⟨rfl, rfl, Or.inl ⟨trivial, rfl, h.1, h.2.1, h.2.2.1, h.2.2.2, fun hchanged => ?_⟩⟩
      exact hallowed _ _ _ rfl (bne_eq_false_iff_eq.mp hchanged)
  | storeConfig =>
      obtain ⟨hclaimed, hlast, hagrees, hholds, htable⟩ := h
      exact ⟨rfl, rfl, Or.inl ⟨trivial, rfl, hclaimed, hlast, hagrees, rfl,
        fun hchanged => (hholds hchanged).methodLive, htable⟩⟩
  | @post state config methodChanged codeTableChanged =>
      obtain ⟨hclaimed, hlast, hagrees, hconfig, hlive, htable⟩ := h
      refine ⟨rfl, rfl, Or.inl ⟨trivial, rfl, hclaimed, hlast, hagrees, hconfig, ?_, htable⟩⟩
      cases methodChanged with
      | false =>
          rw [Bool.or_false]
          exact hlive rfl
      | true => exact Or.inl (Bool.or_true _)
  | storeCurrentTable =>
      exact ⟨rfl, rfl, Or.inl ⟨trivial, rfl, h.1, h.2.1, h.2.2.1, h.2.2.2.1, h.2.2.2.2.1⟩⟩
  | @tableUnchanged state config =>
      obtain ⟨hclaimed, hlast, hagrees, hconfig, hlive, htable⟩ := h
      refine ⟨rfl, rfl, Or.inr ⟨rfl, state, rfl, hclaimed, hlast, ?_⟩⟩
      rw [hlast]
      exact ⟨hconfig ▸ hagrees, (htable rfl).trans hagrees.codeTable, hlive⟩
  | @storeGlobalTable state config =>
      obtain ⟨hclaimed, hlast, hagrees, hconfig, hlive⟩ := h
      refine ⟨rfl, rfl, Or.inr ⟨rfl, state, rfl, hclaimed, hlast, ?_⟩⟩
      dsimp only
      rw [hlast]
      exact ⟨hconfig ▸ hagrees, hagrees.codeTable, hlive⟩

/-- A run that has not claimed an epoch changes nothing, until it claims one. -/
theorem SyncStep.of_not_busy {shared : SharedState} {toml : TypingConfig} {e e' : Engine}
    {place place' : Syncing} {act : Act} (hbusy : ¬place.Busy)
    (hstep : SyncStep shared toml e place act e' place') :
    e' = e ∧ ¬place'.Busy ∧ (∀ state, place'.snapshot = some state → place.snapshot = some state ∨
        state = shared) ∨
      act = .claim ∧ ∃ seen state, place = .claiming seen state ∧ place' = .claimed state ∧
        e' = { e with lastEpoch := state.epoch, claimed := state.epochs } := by
  cases hstep with
  | call | loadEpoch | reloadEpoch | readFails | claimFails =>
      exact Or.inl ⟨rfl, id, by nofun⟩
  | loadSeen | reloadSeen =>
      left
      split_ifs
      · exact ⟨rfl, id, by nofun⟩
      · exact ⟨rfl, id, by nofun⟩
  | read heven => exact Or.inl ⟨rfl, id, fun state hstate => Or.inr (Option.some.inj hstate).symm⟩
  | claim hseen => exact Or.inr ⟨rfl, _, _, rfl, rfl, rfl⟩
  | _ => exact absurd trivial hbusy

/-! ## Runs -/

/-- A snapshot is not newer than the shared state, and is the shared state if no write has come
since. -/
def Fresh (shared state : SharedState) : Prop :=
  state.epochs ≤ shared.epochs ∧ (state.epochs = shared.epochs → state.values = shared.values)

theorem Fresh.write {shared state : SharedState} (h : Fresh shared state) (values : Values)
    (configGeneration : Nat) : Fresh ⟨shared.epochs + 1, values, configGeneration⟩ state :=
  ⟨Nat.le_succ_of_le h.1, fun heq => absurd heq (Nat.ne_of_lt (Nat.lt_succ_of_le h.1))⟩

/-- One run at most is under way; what it knows holds; and when there is none the configuration is
that of the last snapshot. -/
structure Coherent (s : State ι) : Prop where
  snapshots : ∀ i state, (s.syncing i).snapshot = some state → Fresh s.shared state
  lastEpoch : s.engine.lastEpoch = BitVec.ofNat 32 s.engine.claimed
  claimed_le : s.engine.claimed ≤ s.shared.epochs
  near : s.shared.epochs < s.engine.claimed + 2 ^ 32
  alone : ∀ i j, (s.syncing i).Busy → (s.syncing j).Busy → j = i
  busy : ∀ i, (s.syncing i).Busy → At s.engine (s.syncing i)
  rest : (∀ i, ¬(s.syncing i).Busy) → s.engine.Matches s.engine.last ∧
    (s.engine.claimed = s.shared.epochs → s.engine.last = s.shared.values)

theorem Coherent.initial (values : Values) (configGeneration : Nat) (toml config : TypingConfig)
    (appInputMethodOverride appEncodingOverride : Option Nat) :
    Coherent (State.initial values configGeneration toml config appInputMethodOverride
      appEncodingOverride : State ι) where
  snapshots _ _ := by nofun
  lastEpoch := rfl
  claimed_le := Nat.zero_le 4
  near := by
    change 4 < 0 + 2 ^ 32
    decide
  alone _ _ := by nofun
  busy _ := by nofun
  rest _ := ⟨⟨agrees_decode _ _, rfl, Or.inr (Or.inr (Or.inr ⟨rfl, Or.inl rfl⟩))⟩, fun _ => rfl⟩

theorem Coherent.write {s : State ι} (h : Coherent s)
    (hnear : s.shared.epochs + 1 < s.engine.claimed + 2 ^ 32) (values : Values)
    (configGeneration : Nat) :
    Coherent { s with shared := ⟨s.shared.epochs + 1, values, configGeneration⟩ } where
  snapshots i state hstate := (h.snapshots i state hstate).write values configGeneration
  lastEpoch := h.lastEpoch
  claimed_le := Nat.le_succ_of_le h.claimed_le
  near := hnear
  alone := h.alone
  busy := h.busy
  rest hnone := ⟨(h.rest hnone).1,
    fun heq => absurd heq (Nat.ne_of_lt (Nat.lt_succ_of_le h.claimed_le))⟩

theorem Coherent.apply {s : State ι} (h : Coherent s) {engine : Engine}
    (hkept : Kept s.engine engine) :
    Coherent { s with engine := engine } where
  snapshots := h.snapshots
  lastEpoch := by
    dsimp only
    rw [hkept.lastEpoch, hkept.claimed, h.lastEpoch]
  claimed_le := by
    dsimp only
    rw [hkept.claimed]
    exact h.claimed_le
  near := by
    dsimp only
    rw [hkept.claimed]
    exact h.near
  alone := h.alone
  busy i hi := hkept.at (h.busy i hi)
  rest hnone := by
    dsimp only
    rw [hkept.last, hkept.claimed]
    exact ⟨hkept.matches (h.rest hnone).1, (h.rest hnone).2⟩

variable [DecidableEq ι]

theorem syncing_sync_self (s : State ι) (i : ι) (engine : Engine) (place : Syncing) :
    (s.sync i engine place).syncing i = place := Function.update_self ..

theorem syncing_sync_of_ne (s : State ι) {i j : ι} (h : j ≠ i) (engine : Engine) (place : Syncing) :
    (s.sync i engine place).syncing j = s.syncing j := Function.update_of_ne h ..

theorem Coherent.snapshots_sync {s : State ι} (h : Coherent s) {i : ι} {engine : Engine}
    {place : Syncing} (hplace : ∀ state, place.snapshot = some state →
      (s.syncing i).snapshot = some state ∨ state = s.shared) (j : ι) (state : SharedState)
    (hstate : ((s.sync i engine place).syncing j).snapshot = some state) :
    Fresh s.shared state := by
  rcases eq_or_ne j i with rfl | hne
  · rw [syncing_sync_self] at hstate
    rcases hplace state hstate with hold | rfl
    · exact h.snapshots j state hold
    · exact ⟨Nat.le_refl _, fun _ => rfl⟩
  · rw [syncing_sync_of_ne s hne] at hstate
    exact h.snapshots j state hstate

/-- A step of a run before its claim. -/
theorem Coherent.sync_quiet {s : State ι} (h : Coherent s) {i : ι} {place : Syncing}
    (hi : ¬(s.syncing i).Busy) (hplace : ¬place.Busy) (hsnapshot : ∀ state,
      place.snapshot = some state → (s.syncing i).snapshot = some state ∨ state = s.shared) :
    Coherent (s.sync i s.engine place) := by
  have hbusy : ∀ j, ((s.sync i s.engine place).syncing j).Busy ↔ (s.syncing j).Busy := by
    intro j
    rcases eq_or_ne j i with rfl | hne
    · rw [syncing_sync_self]
      exact iff_of_false hplace hi
    · rw [syncing_sync_of_ne s hne]
  refine ⟨h.snapshots_sync hsnapshot, h.lastEpoch, h.claimed_le, h.near, fun j k hj hk => ?_,
    fun j hj => ?_, fun hnone => h.rest fun j hj => hnone j ((hbusy j).mpr hj)⟩
  · exact h.alone j k ((hbusy j).mp hj) ((hbusy k).mp hk)
  · have hne : j ≠ i := by
      rintro rfl
      exact hi ((hbusy j).mp hj)
    rw [syncing_sync_of_ne s hne]
    exact h.busy j ((hbusy j).mp hj)

/-- An epoch is claimed while no other run is under way. -/
theorem Coherent.claim {s : State ι} (h : Coherent s) {i : ι} {seen : BitVec 32}
    {state : SharedState}
    (hi : s.syncing i = .claiming seen state) (hnone : ∀ j, ¬(s.syncing j).Busy)
    (hnear : s.shared.epochs < state.epochs + 2 ^ 32) :
    Coherent (s.sync i { s.engine with lastEpoch := state.epoch, claimed := state.epochs }
      (.claimed state)) := by
  have hsnapshot : (s.syncing i).snapshot = some state := by
    rw [hi]
    rfl
  have honly : ∀ j, ((s.sync i { s.engine with lastEpoch := state.epoch, claimed := state.epochs }
      (.claimed state)).syncing j).Busy → j = i := by
    intro j hj
    by_contra hne
    rw [syncing_sync_of_ne s hne] at hj
    exact hnone j hj
  obtain ⟨hmatches, -⟩ := h.rest hnone
  refine ⟨h.snapshots_sync fun other hother => Or.inl ?_, rfl,
    (h.snapshots i state hsnapshot).1, hnear,
    fun j k hj hk => (honly k hk).trans (honly j hj).symm, fun j hj => ?_, fun hnone' => ?_⟩
  · rw [hsnapshot]
    exact hother
  · obtain rfl := honly j hj
    rw [syncing_sync_self]
    exact ⟨rfl, hmatches.config, hmatches.codeTable, hmatches.method⟩
  · refine absurd ?_ (hnone' i)
    rw [syncing_sync_self]
    trivial

/-- A step of a run after its claim. -/
theorem Coherent.sync_busy {s : State ι} (h : Coherent s) {i : ι} {act : Act} {engine : Engine}
    {place : Syncing} (hi : (s.syncing i).Busy) (hallowed : Allowed s.engine (s.syncing i) act)
    (hstep : SyncStep s.shared s.toml s.engine (s.syncing i) act engine place) :
    Coherent (s.sync i engine place) := by
  obtain ⟨hepoch, hclaimed, hplace⟩ := (h.busy i hi).step hi hallowed hstep
  have hsnapshot : ∀ state, place.snapshot = some state → (s.syncing i).snapshot = some state := by
    intro state hstate
    rcases hplace with ⟨-, hsame, -⟩ | ⟨rfl, -⟩
    · exact hsame ▸ hstate
    · cases hstate
  have honly : ∀ j, ((s.sync i engine place).syncing j).Busy → j = i := by
    intro j hj
    by_contra hne
    rw [syncing_sync_of_ne s hne] at hj
    exact hne (h.alone i j hi hj)
  refine ⟨h.snapshots_sync fun state hstate => Or.inl (hsnapshot state hstate), ?_, ?_, ?_,
    fun j k hj hk => (honly k hk).trans (honly j hj).symm, fun j hj => ?_, fun hnone => ?_⟩
  · exact (hepoch.trans h.lastEpoch).trans (congrArg (BitVec.ofNat 32) hclaimed.symm)
  · exact hclaimed.trans_le h.claimed_le
  · exact h.near.trans_eq (congrArg (· + 2 ^ 32) hclaimed.symm)
  · obtain rfl := honly j hj
    rw [syncing_sync_self] at hj ⊢
    rcases hplace with ⟨-, -, hat⟩ | ⟨rfl, -⟩
    · exact hat
    · exact hj.elim
  · rcases hplace with ⟨hbusy, -⟩ | ⟨-, state, hstate, hdone⟩
    · refine absurd ?_ (hnone i)
      rw [syncing_sync_self]
      exact hbusy
    · exact ⟨hdone.agrees, fun heq =>
        hdone.last.trans ((h.snapshots i state hstate).2 (hdone.claimed.trans heq))⟩

theorem Coherent.step {s s' : State ι} {event : Event ι} (h : Coherent s)
    (hundisturbed : Undisturbed s event) (hstep : Step s event s') : Coherent s' := by
  cases hstep with
  | beginWrite heven => exact h.write hundisturbed _ _
  | endWrite values configGeneration hodd => exact h.write hundisturbed _ _
  | saveToml toml => exact ⟨h.snapshots, h.lastEpoch, h.claimed_le, h.near, h.alone, h.busy, h.rest⟩
  | apply happly => exact h.apply happly.kept
  | @sync i act engine place hsync =>
      by_cases hi : (s.syncing i).Busy
      · apply h.sync_busy hi _ hsync
        cases act with
        | override read => exact hundisturbed
        | loadMethod => exact hundisturbed
        | loadTable => exact hundisturbed
        | _ => trivial
      · rcases hsync.of_not_busy hi with
          ⟨rfl, hplace, hsnapshot⟩ | ⟨rfl, seen, state, hclaiming, rfl, rfl⟩
        · exact h.sync_quiet hi hplace hsnapshot
        · exact h.claim hclaiming hundisturbed.1 (hundisturbed.2 seen state hclaiming)

/-- The configuration that is in force is that of the shared state. -/
def Converged (s : State ι) : Prop :=
  (∀ i, s.syncing i = .idle) → s.shared.epochs % 2 = 0 → s.engine.lastEpoch = s.shared.epoch →
    s.engine.Matches s.shared.values

/-- In an undisturbed run the configuration converges to the shared state. -/
theorem converged_of_run {values : Values} {configGeneration : Nat} {toml config : TypingConfig}
    {appInputMethodOverride appEncodingOverride : Option Nat}
    {events : List (Event ι)} {s : State ι}
    (hrun : Run (Meeting Undisturbed Step) (State.initial values configGeneration toml config
      appInputMethodOverride appEncodingOverride) events s) : Converged s := by
  have hcoherent : Coherent s := by
    apply hrun.invariant (.initial values configGeneration toml config _ _)
    exact fun s event s' h hstep => h.step hstep.1 hstep.2
  intro hidle _ hepoch
  have hnone : ∀ i, ¬(s.syncing i).Busy := fun i hi => by
    rw [hidle i] at hi
    exact hi
  obtain ⟨hmatches, hlast⟩ := hcoherent.rest hnone
  have hclaimed : s.shared.epochs = s.engine.claimed := by
    have hle := hcoherent.claimed_le
    have hlt := hcoherent.near
    have hword := congrArg BitVec.toNat (hepoch.symm.trans hcoherent.lastEpoch)
    rw [SharedState.epoch, BitVec.toNat_ofNat, BitVec.toNat_ofNat] at hword
    omega
  exact hlast hclaimed.symm ▸ hmatches

/-- Values with a code table and zeros. -/
def exampleValues (codeTable : Nat) : Values
  | .codeTable => codeTable
  | _ => 0

/-- A configuration of the TOML file. -/
def exampleConfig (codeTable : Nat) : TypingConfig where
  inputMethod := 0
  codeTable := codeTable
  spellCheckEnabled := false
  spellSuggestEnabled := false
  features _ := false

/-- The settings write another code table, and a run publishes it. -/
theorem converged_of_run_codeTable : ∃ (events : List (Event Unit)) (s : State Unit),
    Run (Meeting Undisturbed Step)
      (State.initial (exampleValues 0) 0 (exampleConfig 0) (exampleConfig 0) none none) events s ∧
      (∀ i, s.syncing i = .idle) ∧ s.engine.lastEpoch = s.shared.epoch ∧ Converged s := by
  have hrun : Run (Meeting Undisturbed Step)
      (State.initial (exampleValues 0) 0 (exampleConfig 0) (exampleConfig 0) none none : State Unit)
      [.beginWrite, .endWrite, .sync () .other, .sync () .other, .sync () .other, .sync () .other,
        .sync () .other, .sync () .other, .sync () .claim, .sync () .other, .sync () .other,
        .sync () .other, .sync () .other, .sync () .other, .sync () .other, .sync () .other,
        .sync () .other, .sync () .other, .sync () .other, .sync () .other, .sync () .loadMethod,
        .sync () .loadTable, .sync () .other, .sync () .other, .sync ()
          .other, .sync () .other] _ :=
    .cons ⟨show 5 < 2 ^ 32 by decide, .beginWrite rfl⟩
      (.cons ⟨show 6 < 2 ^ 32 by decide, .endWrite (exampleValues 1) 0 rfl⟩
        (.cons ⟨trivial, .sync .call⟩ (.cons ⟨trivial, .sync .loadEpoch⟩
          (.cons ⟨trivial, .sync .loadSeen⟩ (.cons ⟨trivial, .sync .reloadEpoch⟩
            (.cons ⟨trivial, .sync .reloadSeen⟩ (.cons ⟨trivial, .sync (.read rfl)⟩
              (.cons ⟨⟨fun _ => id, by rintro _ _ ⟨⟩; exact show 6 < 6 + 2 ^ 32 by decide⟩,
                .sync (.claim rfl)⟩
                (.cons ⟨trivial, .sync .compareGeneration⟩ (.cons ⟨trivial, .sync .compare⟩
                  (.cons ⟨trivial, .sync .compare⟩ (.cons ⟨trivial, .sync .compare⟩
                    (.cons ⟨trivial, .sync .compare⟩ (.cons ⟨trivial, .sync .store⟩
                      (.cons ⟨trivial, .sync .store⟩ (.cons ⟨trivial, .sync .store⟩
                        (.cons ⟨trivial, .sync .store⟩ (.cons ⟨trivial, .sync .stored⟩
                          (.cons ⟨trivial, .sync .loadConfig⟩
                            (.cons ⟨by rintro _ _ ⟨⟩ _; exact ⟨fun _ => rfl, by nofun⟩,
                              .sync .loadMethod⟩
                              (.cons ⟨by rintro _ _ _ ⟨⟩ h; exact (Nat.zero_ne_one h).elim,
                                .sync .loadTable⟩
                                (.cons ⟨trivial, .sync .storeConfig⟩ (.cons ⟨trivial, .sync .post⟩
                                  (.cons ⟨trivial, .sync .storeCurrentTable⟩
                                    (.cons ⟨trivial, .sync .storeGlobalTable⟩
                                      .nil)))))))))))))))))))))))))
  exact ⟨_, _, hrun, fun _ => rfl, rfl, converged_of_run hrun⟩

/-- The TOML file has an older code table than the shared state.  The settings save another file:
the reload takes the code table of the TOML file, and the comparison finds nothing to do. -/
theorem not_converged_of_run :
    ¬∀ (values : Values) (configGeneration : Nat) (toml config : TypingConfig)
    (appInputMethodOverride appEncodingOverride : Option Nat) (events : List (Event Unit))
    (s : State Unit), Run Step (State.initial values configGeneration toml config
      appInputMethodOverride appEncodingOverride) events s → Converged s := by
  intro h
  have hrun : Run Step
      (State.initial (exampleValues 1) 0 (exampleConfig 0) (exampleConfig 1) none none : State Unit)
      [.beginWrite, .endWrite, .sync () .other, .sync () .other, .sync () .other, .sync () .other,
        .sync () .other, .sync () .other, .sync () .claim, .sync () .other, .sync () .other,
        .sync () .other, .sync () (.override (some ⟨6, exampleValues 1, 1⟩)), .sync () .other,
        .sync () .other, .sync () .other, .sync () .other, .sync () .other, .sync () .other,
        .sync () .other, .sync () .other, .sync () .other, .sync () .other] _ :=
    .cons (.beginWrite rfl) (.cons (.endWrite (exampleValues 1) 1 rfl) (.cons (.sync .call)
      (.cons (.sync .loadEpoch) (.cons (.sync .loadSeen) (.cons (.sync .reloadEpoch)
        (.cons (.sync .reloadSeen) (.cons (.sync (.read rfl)) (.cons (.sync (.claim rfl))
          (.cons (.sync .compareGeneration) (.cons (.sync .storeGeneration)
            (.cons (.sync .loadToml) (.cons (.sync (.override rfl)) (.cons (.sync .publish)
              (.cons (.sync .reloadCurrentTable) (.cons (.sync .reloadGlobalTable)
                (.cons (.sync .reapplyOverride) (.cons (.sync .postReload) (.cons (.sync .compare)
                  (.cons (.sync .compare) (.cons (.sync .compare) (.cons (.sync .compare)
                    (.cons (.sync .unchanged) .nil))))))))))))))))))))))
  have hmatches := h _ _ _ _ _ _ _ _ hrun (fun _ => rfl) rfl rfl
  exact Nat.zero_ne_one (show 0 = 1 from hmatches.codeTable)

end ConfigSync

end HookEngine

end VKey
