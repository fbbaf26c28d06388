import Qtrade.Engine.TradingEngine
import Qtrade.Lib.Runs

/-!
# Ready under a configuration

`OnEngineConfig` answers a configuration that it refuses by asking for `frozen`. During `Init` the
engine is in a state that has no edge to `frozen`, and `Init` goes on.
-/

namespace Qtrade.Engine

/-! ## Risk and compliance -/

theorem riskConfigure_cases (s : Risk.RiskManager) (limits : Risk.RiskLimits) :
    ((s.configure limits).1 ≠ .success ∧ (s.configure limits).2 = s) ∨
      (Risk.RiskManager.validLimits limits = true ∧ s.configure limits = (.success, { s with limits })) := by
  unfold Risk.RiskManager.configure
  split
  · exact Or.inl ⟨by simp, rfl⟩
  · split
    · exact Or.inl ⟨by simp, rfl⟩
    · rename_i hvalid _
      exact Or.inr ⟨by simpa using hvalid, rfl⟩

theorem complianceConfigure_of_validLimits {config : EngineConfig} {s : Cms.ComplianceManager}
    (hvalid : Risk.RiskManager.validLimits config.limits = true) (hv : s.rules.version ≤ config.version) :
    s.configure config.rules = (.success, { rules := config.rules }) := by
  have hnotional : ¬config.riskBudget.maxNotional < 0 := by
    intro hneg
    simp [Risk.RiskManager.validLimits, EngineConfig.limits, hneg] at hvalid
  have hnew : ¬config.version < s.rules.version := by
    rw [UInt64.not_lt]
    exact hv
  unfold Cms.ComplianceManager.configure EngineConfig.rules
  dsimp only
  rw [if_neg, if_neg]
  · exact fun h => hnew h.2
  · have hprice : ¬(0 : Double) < 0 := by decide
    simp [hnotional, hprice]

/-- The states in which no `Init` has succeeded since the last `Stop`. -/
def EngineState.idle (state : EngineState) : Bool := state == .new || state == .stopped || state == .failed

namespace TradingEngine

/-! ## One configuration -/

/-- `OnEngineConfig` asks for `frozen`. -/
def refuses (s : TradingEngine) (config : EngineConfig) (nowMs : Int) : Bool :=
  config.version == 0 || !config.identifies s.bootstrapConfig.identity || config.expired nowMs ||
    (decide (s.runtimeConfigVersion < config.version) &&
      (s.running && s.runtimeConfigVersion != 0 || (s.riskManager.configure config.limits).1 != .success))

/-- The configuration and all that is derived from it. -/
def adopt (s : TradingEngine) (config : EngineConfig) : TradingEngine :=
  { s with
    riskManager.limits := config.limits
    compliance.rules := config.rules
    runtimeConfig := config
    runtimeConfigVersion := config.version
    subscribedInstruments := config.desiredInstruments }

theorem onEngineConfig_cases {s : TradingEngine} (hv : s.compliance.rules.version = s.runtimeConfigVersion)
    (config : EngineConfig) (nowMs : Int) :
    (s.refuses config nowMs = true ∧ ∃ reason, s.onEngineConfig config nowMs = s.request .frozen reason) ∨
    (s.refuses config nowMs = false ∧ config.version ≤ s.runtimeConfigVersion ∧
      s.onEngineConfig config nowMs = s) ∨
    (s.refuses config nowMs = false ∧ s.runtimeConfigVersion < config.version ∧
      s.onEngineConfig config nowMs = s.adopt config) := by
  unfold onEngineConfig refuses
  by_cases hzero : config.version = 0
  · exact Or.inl ⟨by simp [hzero], _, by rw [if_pos hzero]⟩
  rw [if_neg hzero]
  by_cases hid : config.identifies s.bootstrapConfig.identity = true
  swap
  · exact Or.inl ⟨by simp [hid], _, by rw [if_pos (by simp [hid])]⟩
  rw [if_neg (by simp [hid])]
  by_cases hexp : config.expired nowMs = true
  · exact Or.inl ⟨by simp [hexp], _, by rw [if_pos hexp]⟩
  rw [if_neg hexp]
  by_cases hstale : config.version ≤ s.runtimeConfigVersion
  · refine Or.inr (Or.inl ⟨?_, hstale, by rw [if_pos hstale]⟩)
    have hnot : ¬s.runtimeConfigVersion < config.version := by simpa using hstale
    simp [hzero, hid, hexp, hnot]
  rw [if_neg hstale]
  have hnew : s.runtimeConfigVersion < config.version := by simpa using hstale
  by_cases hrestart : (s.running && s.runtimeConfigVersion != 0) = true
  · refine Or.inl ⟨?_, _, by rw [if_pos hrestart]⟩
    simp only [hrestart, hnew]
    simp
  rw [if_neg hrestart]
  rcases riskConfigure_cases s.riskManager config.limits with ⟨hcode, hsame⟩ | ⟨hvalid, hrisk⟩
  · refine Or.inl ⟨?_, "RISK_CONFIG_INVALID", ?_⟩
    · simp [hnew, hcode]
    · dsimp only
      rw [if_pos hcode, hsame]
  · refine Or.inr (Or.inr ⟨?_, hnew, ?_⟩)
    · simp [hzero, hid, hexp, hrestart, hrisk]
    · have hrules := complianceConfigure_of_validLimits (s := s.compliance) hvalid
        (by rw [hv]; exact Std.le_of_lt hnew)
      simp [hrisk, hrules, adopt]

/-! ## What is in force -/

/-- What is in force, and whose it has to be. -/
structure Settings where
  version : UInt64
  config : EngineConfig
  limits : Risk.RiskLimits
  rules : Cms.ComplianceRules
  identity : EngineIdentity

def settings (s : TradingEngine) : Settings where
  version := s.runtimeConfigVersion
  config := s.runtimeConfig
  limits := s.riskManager.limits
  rules := s.compliance.rules
  identity := s.bootstrapConfig.identity

variable {s : TradingEngine}

/-- A step on the way through a pipeline that does not reach its end. -/
structure Rests (s s' : TradingEngine) : Prop where
  initialized : s'.initialized = s.initialized
  running : s'.running = s.running
  idle : s.lifecycle.state.idle = true → s'.lifecycle.state.idle = true

/-- A step that leaves the settings alone, too. -/
structure Keeps (s s' : TradingEngine) : Prop extends Rests s s' where
  settings : s'.settings = s.settings

theorem Rests.trans {s' s'' : TradingEngine} (h : Rests s s') (h' : Rests s' s'') : Rests s s'' :=
  ⟨h'.initialized.trans h.initialized, h'.running.trans h.running, fun hs => h'.idle (h.idle hs)⟩

theorem Keeps.refl (s : TradingEngine) : Keeps s s := ⟨⟨rfl, rfl, fun h => h⟩, rfl⟩

theorem Keeps.trans {s' s'' : TradingEngine} (h : Keeps s s') (h' : Keeps s' s'') : Keeps s s'' :=
  ⟨h.toRests.trans h'.toRests, h'.settings.trans h.settings⟩

theorem rests_of_request {s' : TradingEngine} {target : EngineState} {reason : String}
    (hi : s'.initialized = s.initialized) (hr : s'.running = s.running)
    (hl : s'.lifecycle = (s.lifecycle.transition target reason).2) (ht : target ≠ .initiated) : Rests s s' := by
  refine ⟨hi, hr, fun hs => ?_⟩
  rw [hl]
  unfold EngineLifecycle.transition
  split
  · exact hs
  · cases h : s.lifecycle.state <;> cases target <;> simp_all [EngineState.idle, isAllowedTransition]

theorem request_keeps (s : TradingEngine) {target : EngineState} (ht : target ≠ .initiated) (reason : String) :
    Keeps s (s.request target reason) :=
  ⟨rests_of_request rfl rfl rfl ht, rfl⟩

theorem validateSupportBridges_keeps (s : TradingEngine) : Keeps s s.validateSupportBridges.2 := by
  unfold validateSupportBridges
  split
  · exact request_keeps s (by simp) _
  · split
    · exact request_keeps s (by simp) _
    · split
      · exact request_keeps s (by simp) _
      · exact .refl s

theorem validateSupportBridges_success (h : s.validateSupportBridges.1 = .success) :
    s.validateSupportBridges.2 = s := by
  unfold validateSupportBridges at h ⊢
  split at h
  · cases h
  · split at h
    · cases h
    · split at h
      · cases h
      · rename_i hconfig haccount hrisk
        rw [if_neg hconfig, if_neg haccount, if_neg hrisk]

theorem onEngineConfig_rests (s : TradingEngine) (config : EngineConfig) (nowMs : Int) :
    Rests s (s.onEngineConfig config nowMs) := by
  unfold onEngineConfig
  dsimp only
  repeat' split
  case isFalse.isFalse.isFalse.isTrue => exact (Keeps.refl s).toRests
  case isFalse.isFalse.isFalse.isFalse.isFalse.isFalse.isFalse => exact ⟨rfl, rfl, fun h => h⟩
  all_goals exact rests_of_request rfl rfl rfl (by simp)

theorem fetchRuntimeConfig_rests (s : TradingEngine) (answer : Result EngineConfig) (nowMs : Int) :
    Rests s (s.fetchRuntimeConfig answer nowMs).2 := by
  unfold fetchRuntimeConfig
  split
  · exact (Keeps.refl s).toRests
  · split
    · exact onEngineConfig_rests s _ nowMs
    · exact (request_keeps s (by simp) _).toRests

theorem initEngineModules_keeps (s : TradingEngine) : Keeps s s.initEngineModules.2 := by
  unfold initEngineModules
  dsimp only
  split
  · exact ⟨rests_of_request rfl rfl rfl (by simp), rfl⟩
  · exact ⟨⟨rfl, rfl, fun h => h⟩, rfl⟩

theorem initAdapters_keeps (s : TradingEngine) : Keeps s s.initAdapters.2 := by
  unfold initAdapters
  split
  · exact .refl s
  · split
    · exact .refl s
    · exact request_keeps s (by simp) _

theorem onMarketHealthChanged_keeps (s : TradingEngine) (healthy : Bool) :
    Keeps s (s.onMarketHealthChanged healthy) := by
  unfold onMarketHealthChanged
  repeat' split
  all_goals first | exact .refl s | exact request_keeps s (by simp) _

theorem startAdapters_keeps (s : TradingEngine) (world : Surroundings) : Keeps s (s.startAdapters world).2 := by
  unfold startAdapters
  dsimp only
  split
  · split
    · exact (initAdapters_keeps s).trans (request_keeps _ (by simp) _)
    · exact initAdapters_keeps s
  · split
    · exact request_keeps s (by simp) _
    · split
      · exact request_keeps s (by simp) _
      · exact .refl s

theorem syncBrokerSnapshot_keeps (s : TradingEngine) (world : Surroundings) :
    Keeps s (s.syncBrokerSnapshot world).2 := by
  unfold syncBrokerSnapshot
  dsimp only
  generalize (if (!(s.traderApi && world.traderConnected)) = true then _ else _ : ErrorCode × Books) = result
  split
  · exact ⟨rests_of_request rfl rfl rfl (by simp), rfl⟩
  · exact ⟨⟨rfl, rfl, fun h => h⟩, rfl⟩

theorem andThen_success {result : ErrorCode × TradingEngine} {next : TradingEngine → ErrorCode × TradingEngine}
    (h : result.1 = .success) : andThen result next = next result.2 := if_pos h

theorem andThen_failure {result : ErrorCode × TradingEngine} {next : TradingEngine → ErrorCode × TradingEngine}
    (h : result.1 ≠ .success) : andThen result next = result := if_neg h

theorem andThen_elim {P Q : TradingEngine → Prop} {result : ErrorCode × TradingEngine}
    {next : TradingEngine → ErrorCode × TradingEngine} (h : P result.2) (hstop : ∀ s, P s → Q s)
    (hnext : ∀ s, P s → Q (next s).2) : Q (andThen result next).2 := by
  unfold andThen
  split
  · exact hnext _ h
  · exact hstop _ h

/-! ## `Init` -/

/-- The engine when the stages of `Init` begin. -/
def boot (s : TradingEngine) (config : BootstrapConfig) (clock : Clock) : TradingEngine :=
  ({ s with engineEpoch := clock.seconds } : TradingEngine).applyBootstrapConfig config

end TradingEngine

/-- A configuration that `Init` has got, and whether `OnEngineConfig` refuses it. -/
structure Fetch where
  config : EngineConfig
  nowMs : Int
  refused : Bool

namespace TradingEngine

variable {s : TradingEngine}

/-- What `Init` gets from the configuration bridge. -/
def fetch? (s : TradingEngine) (config : BootstrapConfig) (clock : Clock) (answer : Result EngineConfig) :
    Option Fetch :=
  let s := s.boot config clock
  if s.validateSupportBridges.1 = .success ∧ s.configBridge ∧ answer.errorCode = .success then
    answer.data.map fun config =>
      { config, nowMs := clock.nowMs, refused := s.refuses config clock.nowMs }
  else none

/-- The settings after `FetchRuntimeConfig`. -/
def fetchedSettings (s : TradingEngine) (config : BootstrapConfig) (clock : Clock) (answer : Result EngineConfig) :
    Settings :=
  match s.fetch? config clock answer with
  | some fetch => ((s.boot config clock).onEngineConfig fetch.config fetch.nowMs).settings
  | none => (s.boot config clock).settings

theorem fetchRuntimeConfig_settings {config : BootstrapConfig} {clock : Clock}
    (hvalid : (s.boot config clock).validateSupportBridges.1 = .success) (answer : Result EngineConfig) :
    ((s.boot config clock).fetchRuntimeConfig answer clock.nowMs).2.settings =
      s.fetchedSettings config clock answer := by
  unfold fetchedSettings fetch? fetchRuntimeConfig
  by_cases hbridge : (s.boot config clock).configBridge = true
  · by_cases hcode : answer.errorCode = .success
    · obtain ⟨_, data⟩ := answer
      obtain rfl : _ = ErrorCode.success := hcode
      cases data with
      | none =>
        simp [hvalid, hbridge]
        rfl
      | some config => simp [hvalid, hbridge]
    · obtain ⟨code, data⟩ := answer
      cases code <;> first | exact absurd rfl hcode | (simp [hvalid, hbridge]; rfl)
  · simp [hbridge]

theorem fetch?_accepted {config : BootstrapConfig} {clock : Clock} {answer : Result EngineConfig} {fetch : Fetch}
    (h : s.fetch? config clock answer = some fetch) (hrefused : fetch.refused = false) :
    fetch.config.version ≠ 0 ∧ fetch.config.identifies config.identity = true ∧
      fetch.config.expired fetch.nowMs = false := by
  unfold fetch? at h
  dsimp only at h
  split at h
  case isFalse => cases h
  case isTrue =>
    obtain ⟨fetched, _, rfl⟩ := Option.map_eq_some_iff.mp h
    simp only [refuses, Bool.or_eq_false_iff, beq_eq_false_iff_ne, Bool.not_eq_false'] at hrefused
    exact ⟨hrefused.1.1.1, hrefused.1.1.2, hrefused.1.2⟩

theorem fetchedSettings_cases (hv : s.compliance.rules.version = s.runtimeConfigVersion) (config : BootstrapConfig)
    (clock : Clock) (answer : Result EngineConfig) :
    (s.fetchedSettings config clock answer = (s.boot config clock).settings ∧
      ∀ fetch, s.fetch? config clock answer = some fetch → fetch.refused = true ∨
        fetch.config.version ≤ s.runtimeConfigVersion) ∨
    ∃ fetch, s.fetch? config clock answer = some fetch ∧ fetch.refused = false ∧
      s.fetchedSettings config clock answer = ((s.boot config clock).adopt fetch.config).settings := by
  unfold fetchedSettings
  cases hfetch : s.fetch? config clock answer with
  | none => exact Or.inl ⟨rfl, by simp⟩
  | some fetch =>
    have hrefused : fetch.refused = (s.boot config clock).refuses fetch.config fetch.nowMs := by
      unfold fetch? at hfetch
      dsimp only at hfetch
      split at hfetch
      case isFalse => cases hfetch
      case isTrue =>
        obtain ⟨fetched, _, rfl⟩ := Option.map_eq_some_iff.mp hfetch
        rfl
    have hboot : (s.boot config clock).compliance.rules.version = (s.boot config clock).runtimeConfigVersion := hv
    rcases onEngineConfig_cases hboot fetch.config fetch.nowMs with ⟨hr, reason, h⟩ | ⟨hr, hstale, h⟩ | ⟨hr, _, h⟩
    · refine Or.inl ⟨by dsimp only; rw [h]; rfl, ?_⟩
      rintro _ ⟨⟩
      exact Or.inl (hrefused.trans hr)
    · refine Or.inl ⟨by dsimp only; rw [h], ?_⟩
      rintro _ ⟨⟩
      exact Or.inr hstale
    · exact Or.inr ⟨fetch, rfl, hrefused.trans hr, by dsimp only; rw [h]⟩

theorem becomeInitiated_settings (s : TradingEngine) : s.becomeInitiated.2.settings = s.settings := by
  unfold becomeInitiated
  split <;> rfl

theorem release_keeps (s : TradingEngine) : Keeps s s.release := ⟨⟨rfl, rfl, fun h => h⟩, rfl⟩

theorem init_eq (hs : s.initialized = false) (config : BootstrapConfig) (clock : Clock)
    (answer : Result EngineConfig) : s.init config clock answer =
      if ((s.boot config clock).initStages answer clock.nowMs).1 = .success then
        (s.boot config clock).initStages answer clock.nowMs
      else
        (((s.boot config clock).initStages answer clock.nowMs).1,
          ((s.boot config clock).initStages answer clock.nowMs).2.release) := by
  unfold init
  rw [if_neg (by simp [hs])]
  rfl

theorem initStages_settings (config : BootstrapConfig) (clock : Clock) (answer : Result EngineConfig) :
    ((s.boot config clock).initStages answer clock.nowMs).2.settings = s.fetchedSettings config clock answer := by
  unfold initStages
  by_cases hvalid : (s.boot config clock).validateSupportBridges.1 = .success
  · rw [andThen_success hvalid, validateSupportBridges_success hvalid]
    refine andThen_elim (P := fun s' => s'.settings = s.fetchedSettings config clock answer)
      (fetchRuntimeConfig_settings hvalid answer) (fun _ h => h) fun s₁ h₁ => ?_
    refine andThen_elim (P := fun s' => s'.settings = s.fetchedSettings config clock answer)
      ((initEngineModules_keeps s₁).settings.trans h₁) (fun _ h => h) fun s₂ h₂ => ?_
    refine andThen_elim (P := fun s' => s'.settings = s.fetchedSettings config clock answer)
      ((initAdapters_keeps s₂).settings.trans h₂) (fun _ h => h) fun s₃ h₃ => ?_
    exact (becomeInitiated_settings s₃).trans h₃
  · rw [andThen_failure hvalid, (validateSupportBridges_keeps _).settings]
    simp [fetchedSettings, fetch?, hvalid]

theorem init_settings (hs : s.initialized = false) (config : BootstrapConfig) (clock : Clock)
    (answer : Result EngineConfig) :
    (s.init config clock answer).2.settings = s.fetchedSettings config clock answer := by
  rw [init_eq hs]
  split
  · exact initStages_settings config clock answer
  · exact (release_keeps _).settings.trans (initStages_settings config clock answer)

/-- `Init` ends in `initiated` with the flag set, or in an idle state without it. -/
def Placed (s : TradingEngine) : Prop :=
  (s.initialized = false ∧ s.lifecycle.state.idle = true) ∨
    (s.initialized = true ∧ s.lifecycle.state = .initiated)

theorem becomeInitiated_placed (hs : s.initialized = false) (hidle : s.lifecycle.state.idle = true) :
    s.becomeInitiated.2.Placed := by
  unfold becomeInitiated
  split
  · exact Or.inl ⟨hs, (request_keeps s (by simp) _).idle hidle⟩
  case isFalse hcode =>
    refine Or.inr ⟨rfl, ?_⟩
    unfold request
    unfold EngineLifecycle.transition at hcode ⊢
    split at hcode
    · simp at hcode
    · rename_i hallowed
      dsimp only
      rw [if_neg hallowed]

theorem becomeInitiated_running (s : TradingEngine) : s.becomeInitiated.2.running = s.running := by
  unfold becomeInitiated
  split <;> rfl

/-- What holds before the last stage of `Init`. -/
structure Resting (s s' : TradingEngine) : Prop where
  initialized : s'.initialized = false
  idle : s'.lifecycle.state.idle = true
  running : s'.running = s.running

theorem Resting.step {s' s'' : TradingEngine} (h : Resting s s') (hs : Rests s' s'') : Resting s s'' :=
  ⟨hs.initialized.trans h.initialized, hs.idle h.idle, hs.running.trans h.running⟩

theorem initStages_placed {s' : TradingEngine} (h : Resting s s') (answer : Result EngineConfig) (nowMs : Int) :
    (s'.initStages answer nowMs).2.Placed ∧ (s'.initStages answer nowMs).2.running = s.running := by
  have hstop : ∀ s', Resting s s' → s'.Placed ∧ s'.running = s.running :=
    fun s' h' => ⟨Or.inl ⟨h'.initialized, h'.idle⟩, h'.running⟩
  unfold initStages
  refine andThen_elim (Q := fun s' => s'.Placed ∧ s'.running = s.running)
    (h.step (validateSupportBridges_keeps s').toRests) hstop fun s₁ h₁ => ?_
  refine andThen_elim (Q := fun s' => s'.Placed ∧ s'.running = s.running)
    (h₁.step (fetchRuntimeConfig_rests s₁ answer nowMs)) hstop fun s₂ h₂ => ?_
  refine andThen_elim (Q := fun s' => s'.Placed ∧ s'.running = s.running)
    (h₂.step (initEngineModules_keeps s₂).toRests) hstop fun s₃ h₃ => ?_
  refine andThen_elim (Q := fun s' => s'.Placed ∧ s'.running = s.running)
    (h₃.step (initAdapters_keeps s₃).toRests) hstop fun s₄ h₄ => ?_
  exact ⟨becomeInitiated_placed h₄.initialized h₄.idle, (becomeInitiated_running s₄).trans h₄.running⟩

theorem init_placed (hs : s.initialized = false) (hidle : s.lifecycle.state.idle = true) (config : BootstrapConfig)
    (clock : Clock) (answer : Result EngineConfig) :
    (s.init config clock answer).2.Placed ∧ (s.init config clock answer).2.running = s.running := by
  have hresting : Resting s (s.boot config clock) := ⟨hs, hidle, rfl⟩
  have hstages := initStages_placed hresting answer clock.nowMs
  rw [init_eq hs]
  split
  · exact hstages
  · exact hstages

/-! ## `Start` and `Stop` -/

theorem start_keeps (s : TradingEngine) (world : Surroundings) :
    (s.start world).2.settings = s.settings ∧ (s.start world).2.initialized = s.initialized ∧
      (s.initialized = false → (s.start world).2 = s) := by
  unfold start
  split
  · exact ⟨rfl, rfl, fun _ => rfl⟩
  case isFalse hinit =>
    have hinit : s.initialized = true := by simpa using hinit
    rw [hinit]
    split
    · exact ⟨rfl, hinit, by simp⟩
    · split
      · exact ⟨rfl, hinit, by simp⟩
      · have hstages : ∀ {s' : TradingEngine}, Keeps s s' → s'.settings = s.settings ∧ s'.initialized = true :=
          fun h => ⟨h.settings, h.initialized.trans hinit⟩
        rw [← and_assoc]
        refine ⟨?_, by simp⟩
        refine andThen_elim (Q := fun s' => s'.settings = s.settings ∧ s'.initialized = true)
          (startAdapters_keeps s world) (fun _ h => hstages h) fun s₁ h₁ => ?_
        refine andThen_elim (Q := fun s' => s'.settings = s.settings ∧ s'.initialized = true)
          (h₁.trans (syncBrokerSnapshot_keeps s₁ world)) (fun _ h => hstages h) fun s₂ h₂ => ?_
        unfold advanceReadyGates
        split
        · have hhealth := onMarketHealthChanged_keeps s₂.startEngineModules true
          exact ⟨hhealth.settings.trans h₂.settings, hhealth.initialized.trans (h₂.initialized.trans hinit)⟩
        · exact ⟨h₂.settings, h₂.initialized.trans hinit⟩

theorem stop_keeps (s : TradingEngine) :
    s.stop.2.settings = s.settings ∧ s.stop.2.initialized = false ∧ s.stop.2.running = false ∧
      s.stop.2.lifecycle.state = .stopped := by
  unfold stop
  dsimp only
  cases hr : s.running <;> cases hs : s.lifecycle.state <;>
    simp [request, release, EngineLifecycle.transition, isAllowedTransition, settings, hr, hs]

end TradingEngine

/-! ## Every run of the engine -/

/-- What is done to an engine object, and the market data's health, in any order. -/
inductive Action
  | setConfigBridge (present : Bool)
  | setAccountBridge (present : Bool)
  | setAccountRiskBridge (present : Bool)
  | setQuoteApi (present : Bool)
  | setTraderApi (present : Bool)
  | init (config : BootstrapConfig) (clock : Clock) (answer : Result EngineConfig)
  | start (world : Surroundings)
  | stop
  | marketHealth (healthy : Bool)

/-- For each `Init`, the latest first, what it got from the configuration bridge. -/
structure Lifetime where
  engine : TradingEngine := {}
  fetches : List (Option Fetch) := []

namespace Lifetime

def step (s : Lifetime) : Action → Option Lifetime
  | .setConfigBridge present => some { s with engine.configBridge := present }
  | .setAccountBridge present => some { s with engine.accountBridge := present }
  | .setAccountRiskBridge present => some { s with engine.accountRiskBridge := present }
  | .setQuoteApi present => some (if s.engine.running then s else { s with engine.quoteApi := present })
  | .setTraderApi present => some (if s.engine.running then s else { s with engine.traderApi := present })
  | .init config clock answer =>
    some
      { engine := (s.engine.init config clock answer).2
        fetches := if s.engine.initialized then s.fetches else s.engine.fetch? config clock answer :: s.fetches }
  | .start world => some { s with engine := (s.engine.start world).2 }
  | .stop => some { s with engine := s.engine.stop.2 }
  | .marketHealth healthy => some { s with engine := s.engine.onMarketHealthChanged healthy }

/-- The configuration in force is the engine's own, was valid when it was fetched, and the limits and
rules come from it. -/
structure Governed (s : Lifetime) : Prop where
  version : s.engine.runtimeConfig.version ≠ 0
  engineId : s.engine.runtimeConfig.engineId = s.engine.bootstrapConfig.identity.engineId
  tenantId : s.engine.runtimeConfig.tenantId = s.engine.bootstrapConfig.identity.tenantId
  accountId : s.engine.runtimeConfig.accountId = s.engine.bootstrapConfig.identity.accountId
  fetched : ∃ fetch, some fetch ∈ s.fetches ∧ fetch.config = s.engine.runtimeConfig ∧
    fetch.config.expired fetch.nowMs = false
  limits : s.engine.riskManager.limits = s.engine.runtimeConfig.limits
  rules : s.engine.compliance.rules = s.engine.runtimeConfig.rules

/-- The configuration that `Init` gets is not refused, and where it is no newer than the one in force,
that one is the engine's own. -/
def accepts (s : Lifetime) : Action → Bool
  | .init config clock answer =>
    s.engine.initialized ||
      match s.engine.fetch? config clock answer with
      | some fetch => !fetch.refused &&
          (decide (s.engine.runtimeConfigVersion < fetch.config.version) ||
            s.engine.runtimeConfig.identifies config.identity)
      | none => true
  | _ => true

/-- What holds of the settings at any time. -/
structure Coherent (settings : TradingEngine.Settings) (fetches : List (Option Fetch)) : Prop where
  version : settings.config.version = settings.version
  rulesVersion : settings.rules.version = settings.version
  inForce : settings.version ≠ 0 → settings.limits = settings.config.limits ∧
    settings.rules = settings.config.rules ∧
    ∃ fetch, some fetch ∈ fetches ∧ fetch.config = settings.config ∧ fetch.config.expired fetch.nowMs = false

/-- The latest `Init` took or kept a configuration of the engine's own. -/
def Settled (settings : TradingEngine.Settings) (fetches : List (Option Fetch)) : Prop :=
  ∀ fetch, fetches.head? = some (some fetch) →
    fetch.refused = false ∧ settings.version ≠ 0 ∧ settings.config.identifies settings.identity = true

structure Inv (s : Lifetime) : Prop where
  idle : s.engine.initialized = false → s.engine.lifecycle.state.idle = true
  running : s.engine.running = true → s.engine.initialized = true
  coherent : Coherent s.engine.settings s.fetches
  settled : s.engine.initialized = true → Settled s.engine.settings s.fetches

variable {s : Lifetime}

theorem Coherent.cons {settings : TradingEngine.Settings} {fetches : List (Option Fetch)}
    (h : Coherent settings fetches) (fetch? : Option Fetch) : Coherent settings (fetch? :: fetches) := by
  refine ⟨h.version, h.rulesVersion, fun hv => ?_⟩
  obtain ⟨hlimits, hrules, fetch, hmem, hfetch⟩ := h.inForce hv
  exact ⟨hlimits, hrules, fetch, List.mem_cons_of_mem _ hmem, hfetch⟩

theorem coherent_boot (h : Coherent s.engine.settings s.fetches) (config : BootstrapConfig) (clock : Clock)
    (fetch? : Option Fetch) : Coherent (s.engine.boot config clock).settings (fetch? :: s.fetches) := by
  have hboot : Coherent (s.engine.boot config clock).settings s.fetches := ⟨h.version, h.rulesVersion, h.inForce⟩
  exact hboot.cons fetch?

theorem fetchedSettings_coherent (h : Coherent s.engine.settings s.fetches) (config : BootstrapConfig) (clock : Clock)
    (answer : Result EngineConfig) :
    Coherent (s.engine.fetchedSettings config clock answer) (s.engine.fetch? config clock answer :: s.fetches) := by
  have hboot := coherent_boot h config clock (s.engine.fetch? config clock answer)
  rcases TradingEngine.fetchedSettings_cases h.rulesVersion config clock answer with
    ⟨hsame, _⟩ | ⟨fetch, hfetch, hrefused, hadopt⟩
  · rw [hsame]
    exact hboot
  · rw [hadopt]
    refine ⟨rfl, rfl, fun _ => ⟨rfl, rfl, fetch, ?_, rfl, (TradingEngine.fetch?_accepted hfetch hrefused).2.2⟩⟩
    rw [hfetch]
    exact List.mem_cons_self

theorem fetchedSettings_settled (h : Coherent s.engine.settings s.fetches) {config : BootstrapConfig} {clock : Clock}
    {answer : Result EngineConfig} (hs : s.engine.initialized = false)
    (hok : s.accepts (.init config clock answer) = true) :
    Settled (s.engine.fetchedSettings config clock answer) (s.engine.fetch? config clock answer :: s.fetches) := by
  intro fetch hhead
  have hfetch : s.engine.fetch? config clock answer = some fetch := Option.some.inj hhead
  simp only [accepts, hs, hfetch, Bool.false_or, Bool.and_eq_true, Bool.not_eq_true', Bool.or_eq_true,
    decide_eq_true_eq] at hok
  obtain ⟨hrefused, hversion⟩ := hok
  obtain ⟨hnonzero, hidentity, _⟩ := TradingEngine.fetch?_accepted hfetch hrefused
  refine ⟨hrefused, ?_⟩
  rcases TradingEngine.fetchedSettings_cases h.rulesVersion config clock answer with
    ⟨hsame, hkept⟩ | ⟨fetch', hfetch', _, hadopt⟩
  · rcases hkept fetch hfetch with hyes | hstale
    · rw [hrefused] at hyes; cases hyes
    · rcases hversion with hnew | hidentified
      · exact absurd hnew (by simpa using hstale)
      · rw [hsame]
        refine ⟨fun hzero => hnonzero ?_, hidentified⟩
        have hzero : s.engine.runtimeConfigVersion = 0 := hzero
        rw [hzero] at hstale
        exact UInt64.le_zero_iff.mp hstale
  · obtain rfl : fetch' = fetch := Option.some.inj (hfetch'.symm.trans hfetch)
    rw [hadopt]
    exact ⟨hnonzero, hidentity⟩

theorem step_inv {s' : Lifetime} (h : Inv s) {a : Action} (hok : s.accepts a = true) (hs : s.step a = some s') :
    Inv s' := by
  cases a with
  | setConfigBridge present => cases hs; exact ⟨h.idle, h.running, h.coherent, h.settled⟩
  | setAccountBridge present => cases hs; exact ⟨h.idle, h.running, h.coherent, h.settled⟩
  | setAccountRiskBridge present => cases hs; exact ⟨h.idle, h.running, h.coherent, h.settled⟩
  | setQuoteApi present =>
    cases hs
    split
    · exact h
    · exact ⟨h.idle, h.running, h.coherent, h.settled⟩
  | setTraderApi present =>
    cases hs
    split
    · exact h
    · exact ⟨h.idle, h.running, h.coherent, h.settled⟩
  | init config clock answer =>
    cases hs
    by_cases hinit : s.engine.initialized = true
    · have hsame : (s.engine.init config clock answer).2 = s.engine := by simp [TradingEngine.init, hinit]
      rw [hsame, if_pos hinit]
      exact h
    · have hinit : s.engine.initialized = false := by simpa using hinit
      obtain ⟨hplaced, hrunning⟩ := TradingEngine.init_placed hinit (h.idle hinit) config clock answer
      have hsettings := TradingEngine.init_settings hinit config clock answer
      have hstopped : s.engine.running ≠ true := fun hr => by simpa [hinit] using h.running hr
      rw [hinit]
      refine ⟨fun hno => ?_, fun hr => absurd (hrunning ▸ hr) hstopped, ?_, fun _ => ?_⟩
      · rcases hplaced with ⟨_, hidle⟩ | ⟨hyes, _⟩
        · exact hidle
        · rw [hno] at hyes; cases hyes
      · dsimp only
        rw [hsettings]
        exact fetchedSettings_coherent h.coherent config clock answer
      · dsimp only
        rw [hsettings]
        exact fetchedSettings_settled h.coherent hinit hok
  | start world =>
    cases hs
    obtain ⟨hsettings, hinit, hsame⟩ := TradingEngine.start_keeps s.engine world
    by_cases hno : s.engine.initialized = false
    · rw [hsame hno]
      exact h
    · refine ⟨fun hf => absurd (hinit.symm.trans hf) hno, fun _ => ?_, ?_, fun hi => ?_⟩
      · dsimp only
        rw [hinit]
        simpa using hno
      · dsimp only
        rw [hsettings]
        exact h.coherent
      · dsimp only
        rw [hsettings]
        exact h.settled (hinit ▸ hi)
  | stop =>
    cases hs
    obtain ⟨hsettings, hinit, hrunning, hstate⟩ := TradingEngine.stop_keeps s.engine
    refine ⟨fun _ => ?_, fun hr => ?_, ?_, fun hi => ?_⟩
    · dsimp only
      rw [hstate]
      rfl
    · rw [hrunning] at hr; cases hr
    · dsimp only
      rw [hsettings]
      exact h.coherent
    · rw [hinit] at hi; cases hi
  | marketHealth healthy =>
    cases hs
    have hkeeps := TradingEngine.onMarketHealthChanged_keeps s.engine healthy
    refine ⟨fun hno => hkeeps.idle (h.idle (hkeeps.initialized ▸ hno)), fun hr => ?_, ?_, fun hi => ?_⟩
    · dsimp only
      rw [hkeeps.initialized]
      exact h.running (hkeeps.running ▸ hr)
    · dsimp only
      rw [hkeeps.settings]
      exact h.coherent
    · dsimp only
      rw [hkeeps.settings]
      exact h.settled (hkeeps.initialized ▸ hi)

/-- In every run whose configurations are all accepted, a ready engine whose latest `Init` got a
configuration is governed by one that is its own. -/
theorem ready_governed (h : Runs.Reaches step (fun s a => s.accepts a = true) {} s)
    (hready : s.engine.isReady = true) {fetch : Fetch} (hfetch : s.fetches.head? = some (some fetch)) :
    fetch.refused = false ∧ s.Governed := by
  have hinv : s.Inv := by
    refine h.invariant ?_ fun _ _ _ hi hok hs => step_inv hi hok hs
    exact ⟨fun _ => rfl, nofun, ⟨rfl, rfl, fun hv => absurd rfl hv⟩, nofun⟩
  have hinit : s.engine.initialized = true := by
    by_contra hno
    have hidle := hinv.idle (by simpa using hno)
    unfold TradingEngine.isReady at hready
    rw [beq_iff_eq.mp hready] at hidle
    cases hidle
  obtain ⟨hrefused, hversion, hidentity⟩ := hinv.settled hinit fetch hfetch
  obtain ⟨hlimits, hrules, hfetched⟩ := hinv.coherent.inForce hversion
  simp only [EngineConfig.identifies, Bool.and_eq_true, beq_iff_eq] at hidentity
  refine ⟨hrefused, ?_, hidentity.1.1, hidentity.1.2, hidentity.2, hfetched, hlimits, hrules⟩
  exact fun hzero => hversion (hinv.coherent.version.symm.trans hzero)

/-! ## A configuration of version 0 -/

/-- A caller's start of a fresh engine. -/
def startup (config : EngineConfig) : List Action :=
  [.setConfigBridge true, .setAccountBridge true, .setAccountRiskBridge true, .setQuoteApi true, .setTraderApi true,
    .init {} ⟨1, 1⟩ { data := some config }, .start {}, .marketHealth true]

def firstConfig : EngineConfig :=
  { engineId := "default", tenantId := "default", version := 1, riskBudget := { maxNotional := .ofInt 100 } }

theorem ready_governed_first : ∃ s : Lifetime,
    Runs.Reaches step (fun s a => s.accepts a = true) {} s ∧ s.engine.isReady = true ∧ s.Governed := by
  have hrun : ∃ s ∈ Runs.execWhile step (fun s a => s.accepts a = true) {} (startup firstConfig),
      s.engine.isReady = true ∧ s.fetches.head?.join.isSome := by decide +kernel
  obtain ⟨s, hs, hready, hsome⟩ := hrun
  obtain ⟨fetch, hjoin⟩ := Option.isSome_iff_exists.mp hsome
  have hfetch : s.fetches.head? = some (some fetch) := Option.join_eq_some_iff.mp hjoin
  have hreach := Runs.reaches_of_execWhile _ hs
  exact ⟨s, hreach, hready, (ready_governed hreach hready hfetch).2⟩

/-- An empty configuration is refused, and the engine gets ready on its default limits. -/
theorem ready_ungoverned : ¬ ∀ (s : Lifetime) (fetch : Fetch), Runs.Reaches step Runs.anyStep {} s →
    s.engine.isReady = true → s.fetches.head? = some (some fetch) → s.Governed := by
  intro hall
  have hrun : ∃ s ∈ Runs.exec step {} (startup {}), s.engine.isReady = true ∧ s.fetches.head?.join.isSome ∧
      s.engine.runtimeConfig.version = 0 := by decide +kernel
  obtain ⟨s, hs, hready, hsome, hzero⟩ := hrun
  obtain ⟨fetch, hjoin⟩ := Option.isSome_iff_exists.mp hsome
  exact (hall s fetch (Runs.reaches_of_exec _ hs) hready (Option.join_eq_some_iff.mp hjoin)).version hzero

end Lifetime

end Qtrade.Engine
