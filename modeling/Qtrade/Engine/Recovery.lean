import Qtrade.Engine.MarketData
import Qtrade.Engine.Reconciled
import Qtrade.Engine.StartSequence

/-!
# The way back to ready

An engine that failed, or that a configuration froze, is let out by `Stop` alone. After a `Stop` it starts again,
whatever was before, because `Release` forgets the orders and what the broker reports is taken as it is.
-/

namespace Qtrade.Engine

namespace TradingEngine

/-! ## No way out -/

/-- Nothing that is called on the engine, or told to it, makes it ready. -/
def Barred (s : TradingEngine) : Prop :=
  s.lifecycle.state = .failed ∨ s.lifecycle.state = .draining ∨
    s.lifecycle.state = .frozen ∧ s.lifecycle.reason ≠ "MARKET_UNHEALTHY"

variable {s : TradingEngine}

theorem Barred.failed (h : s.Barred) (reason : String) : (s.request .failed reason).Barred := by
  rcases h with hstate | hstate | ⟨hstate, -⟩ <;>
    simp [Barred, request, EngineLifecycle.transition, isAllowedTransition, hstate]

theorem Barred.frozen (h : s.Barred) {reason : String} (hreason : reason ≠ "MARKET_UNHEALTHY") :
    (s.request .frozen reason).Barred := by
  rcases h with hstate | hstate | ⟨hstate, -⟩ <;>
    simp [Barred, request, EngineLifecycle.transition, isAllowedTransition, hstate, hreason]

theorem Barred.onEngineConfig (h : s.Barred) (config : EngineConfig) (nowMs : Int) :
    (s.onEngineConfig config nowMs).Barred := by
  unfold TradingEngine.onEngineConfig
  dsimp only
  split_ifs
  · exact h.frozen (by decide)
  · exact h.frozen (by decide)
  · exact h.frozen (by decide)
  · exact h
  · exact h.frozen (by decide)
  · exact Barred.frozen (s := { s with riskManager := _ }) h (by decide)
  · exact Barred.frozen (s := { s with riskManager := _, compliance := _ }) h (by decide)
  · exact h

theorem Barred.onMarketHealthChanged (h : s.Barred) (healthy : Bool) : s.onMarketHealthChanged healthy = s := by
  unfold TradingEngine.onMarketHealthChanged
  rcases h with hstate | hstate | ⟨hstate, hreason⟩
  · simp [hstate]
  · simp [hstate]
  · simp [hstate, hreason]

theorem Barred.initStages (h : s.Barred) (answer : Result EngineConfig) (nowMs : Int) :
    (s.initStages answer nowMs).2.Barred := by
  unfold TradingEngine.initStages
  refine andThen_elim (P := Barred) ?_ (fun _ h => h) fun s₁ h₁ => ?_
  · unfold validateSupportBridges
    split_ifs
    · exact h.failed _
    · exact h.failed _
    · exact h.failed _
    · exact h
  refine andThen_elim (P := Barred) ?_ (fun _ h => h) fun s₂ h₂ => ?_
  · unfold fetchRuntimeConfig
    split
    · exact h₁
    · split
      · exact h₁.onEngineConfig _ _
      · exact h₁.failed _
  refine andThen_elim (P := Barred) ?_ (fun _ h => h) fun s₃ h₃ => ?_
  · unfold initEngineModules
    dsimp only
    split
    · exact Barred.failed (s := { s₂ with books.oms := _ }) h₂ _
    · exact h₂
  refine andThen_elim (P := Barred) ?_ (fun _ h => h) fun s₄ h₄ => ?_
  · unfold initAdapters
    split_ifs
    · exact h₃
    · exact h₃
    · exact h₃.failed _
  -- There is no edge to `initiated`.
  have hrefused : (s₄.lifecycle.transition .initiated "").1 ≠ .success := by
    rcases h₄ with hstate | hstate | ⟨hstate, -⟩ <;>
      simp [EngineLifecycle.transition, isAllowedTransition, hstate]
  unfold becomeInitiated
  rw [if_pos hrefused]
  exact h₄.failed _

theorem Barred.init (h : s.Barred) (config : BootstrapConfig) (clock : Clock) (answer : Result EngineConfig) :
    (s.init config clock answer).2.Barred := by
  have hboot : (s.boot config clock).Barred := h
  have hstages := hboot.initStages answer clock.nowMs
  unfold TradingEngine.init
  split
  · exact h
  · dsimp only
    split
    · exact hstages
    · exact hstages

theorem Barred.start (h : s.Barred) (world : Surroundings) : (s.start world).2.Barred := by
  have hstate : s.lifecycle.state ≠ .initiated := by
    rcases h with hstate | hstate | ⟨hstate, -⟩ <;> simp [hstate]
  unfold TradingEngine.start
  split_ifs
  · exact h
  · exact h
  · exact h.failed _

/-! ## The way back -/

/-- An engine that was stopped, and then got all that it needs. -/
structure Equipped (s : TradingEngine) : Prop where
  initialized : s.initialized = false
  running : s.running = false
  stopped : s.lifecycle.state = .stopped
  oms : s.books.oms.initialized = false
  bridges : s.configBridge = true ∧ s.accountBridge = true ∧ s.accountRiskBridge = true
  adapters : s.quoteApi = true ∧ s.traderApi = true

theorem Equipped.onEngineConfig (h : s.Equipped) (config : EngineConfig) (nowMs : Int) :
    (s.onEngineConfig config nowMs).Equipped ∧
      (s.onEngineConfig config nowMs).bootstrapConfig = s.bootstrapConfig ∧
      (s.onEngineConfig config nowMs).engineEpoch = s.engineEpoch := by
  have hfrozen : ∀ (s' : TradingEngine) (reason : String), s'.Equipped → (s'.request .frozen reason).Equipped := by
    intro s' reason h'
    refine ⟨h'.initialized, h'.running, ?_, h'.oms, h'.bridges, h'.adapters⟩
    simp [request, EngineLifecycle.transition, isAllowedTransition, h'.stopped]
  unfold TradingEngine.onEngineConfig
  dsimp only
  split_ifs
  · exact ⟨hfrozen _ _ h, rfl, rfl⟩
  · exact ⟨hfrozen _ _ h, rfl, rfl⟩
  · exact ⟨hfrozen _ _ h, rfl, rfl⟩
  · exact ⟨h, rfl, rfl⟩
  · exact ⟨hfrozen _ _ h, rfl, rfl⟩
  · exact ⟨hfrozen { s with riskManager := _ } _ { h with }, rfl, rfl⟩
  · exact ⟨hfrozen { s with riskManager := _, compliance := _ } _ { h with }, rfl, rfl⟩
  · exact ⟨{ h with }, rfl, rfl⟩

/-- `Init` has succeeded with both adapters, and the order manager is empty or holds what the broker reported. -/
structure Prepared (s : TradingEngine) : Prop where
  initialized : s.initialized = true
  running : s.running = false
  initiated : s.lifecycle.state = .initiated
  oms : Taken s.books.oms
  adapters : s.quoteApi = true ∧ s.traderApi = true

theorem Equipped.init (h : s.Equipped) {config : BootstrapConfig} {clock : Clock}
    (htenant : config.identity.tenantId ≠ "") (hengine : config.identity.engineId ≠ "") (hepoch : clock.seconds ≠ 0)
    (fetched : EngineConfig) :
    (s.init config clock { data := some fetched }).1 = .success ∧
      (s.init config clock { data := some fetched }).2.Prepared := by
  have hboot : (s.boot config clock).Equipped := { h with }
  have hidentity : (s.boot config clock).bootstrapConfig = config := rfl
  have hseconds : (s.boot config clock).engineEpoch = clock.seconds := rfl
  have hstages : ((s.boot config clock).initStages { data := some fetched } clock.nowMs).1 = .success ∧
      ((s.boot config clock).initStages { data := some fetched } clock.nowMs).2.Prepared := by
    generalize s.boot config clock = s₀ at hboot hidentity hseconds ⊢
    obtain ⟨hconfig, haccount, hrisk⟩ := hboot.bridges
    have hvalid : s₀.validateSupportBridges = (.success, s₀) := by
      simp [validateSupportBridges, hconfig, haccount, hrisk]
    have hfetch : s₀.fetchRuntimeConfig { data := some fetched } clock.nowMs =
        (.success, s₀.onEngineConfig fetched clock.nowMs) := by
      simp [fetchRuntimeConfig, hconfig]
    obtain ⟨h₁, hboot₁, hepoch₁⟩ := hboot.onEngineConfig fetched clock.nowMs
    rw [hidentity] at hboot₁
    rw [hseconds] at hepoch₁
    unfold TradingEngine.initStages
    rw [andThen_success (by rw [hvalid]), hvalid, andThen_success (by rw [hfetch]), hfetch]
    generalize s₀.onEngineConfig fetched clock.nowMs = s₁ at h₁ hboot₁ hepoch₁ ⊢
    have hoptions : (s₁.books.oms.initializeWith
        { tenantId := s₁.bootstrapConfig.identity.tenantId, engineId := s₁.bootstrapConfig.identity.engineId,
          engineEpoch := s₁.engineEpoch }).1 = .success := by
      simp [Oms.OrderManager.initializeWith, hboot₁, hepoch₁, htenant, hengine, hepoch, h₁.oms]
    have hmodules : s₁.initEngineModules.1 = .success ∧ Taken s₁.initEngineModules.2.books.oms ∧
        s₁.initEngineModules.2.initialized = false ∧ s₁.initEngineModules.2.running = false ∧
        s₁.initEngineModules.2.lifecycle.state = .stopped ∧
        s₁.initEngineModules.2.quoteApi = true ∧ s₁.initEngineModules.2.traderApi = true := by
      unfold initEngineModules
      dsimp only
      rw [if_neg (not_not.mpr hoptions)]
      exact ⟨rfl, taken_initializeWith (Prod.ext hoptions rfl), h₁.initialized, h₁.running, h₁.stopped, h₁.adapters⟩
    obtain ⟨hsuccess, htaken, -, hstopped, hstate, hadapters⟩ := hmodules
    rw [andThen_success hsuccess]
    generalize s₁.initEngineModules.2 = s₂ at htaken hstopped hstate hadapters ⊢
    have hinit : s₂.initAdapters = (.success, s₂) := by simp [initAdapters, hadapters]
    rw [andThen_success (by rw [hinit]), hinit]
    have hallowed : s₂.lifecycle.transition .initiated "" = (.success, { state := .initiated, reason := "" }) := by
      simp [EngineLifecycle.transition, isAllowedTransition, hstate]
    unfold becomeInitiated request
    rw [hallowed, if_neg (by simp)]
    exact ⟨rfl, rfl, hstopped, rfl, htaken, hadapters⟩
  rw [init_eq h.initialized, if_pos hstages.1]
  exact hstages

theorem onMarketHealthChanged_initiated (h : s.lifecycle.state = .initiated) :
    (s.onMarketHealthChanged true).lifecycle.state = .ready := by
  simp [TradingEngine.onMarketHealthChanged, request, EngineLifecycle.transition, isAllowedTransition, h]

/-- What the broker reports is taken as it is, so `Start` succeeds whatever it reports. -/
theorem Prepared.start (h : s.Prepared) {world : Surroundings} (hquote : world.quoteConnected = true)
    (htrader : world.traderConnected = true) (hsnapshot : world.snapshot.isSome = true) :
    (s.start world).1 = .success ∧ (s.start world).2.running = true ∧
      ((s.start world).2.lifecycle.state = .initiated ∨ (s.start world).2.lifecycle.state = .ready) := by
  obtain ⟨snapshot, hanswer⟩ := Option.isSome_iff_exists.mp hsnapshot
  obtain ⟨hquoteApi, htraderApi⟩ := h.adapters
  have hadapters : s.startAdapters world = (.success, s) :=
    StartSequence.startAdapters_connected (by simp [hquoteApi, hquote]) (by simp [htraderApi, htrader])
  obtain ⟨-, hsuccess⟩ := taken_synchronize (s := s.books) h.oms snapshot
  have hsync : s.syncBrokerSnapshot world = (.success, { s with books := (s.books.synchronize snapshot).2 }) := by
    simp [syncBrokerSnapshot, htraderApi, htrader, hanswer, hsuccess]
  unfold TradingEngine.start
  simp only [h.initialized, h.running, h.initiated, Bool.not_true, Bool.false_eq_true, if_false, ne_eq,
    not_true_eq_false]
  rw [andThen_success (by rw [hadapters]), hadapters, andThen_success (by rw [hsync]), hsync]
  refine ⟨rfl, ?_⟩
  unfold advanceReadyGates
  split
  · exact ⟨(onMarketHealthChanged_keeps _ true).running,
      Or.inr (onMarketHealthChanged_initiated (s := startEngineModules _) h.initiated)⟩
  · exact ⟨rfl, Or.inl h.initiated⟩

end TradingEngine

namespace MarketData

open TradingEngine

variable {s s' : MarketData}

end MarketData

end Qtrade.Engine
