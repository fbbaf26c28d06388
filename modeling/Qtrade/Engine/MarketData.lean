import Qtrade.Engine.Applied

/-!
# What the quote adapter is subscribed to

`StartMarketData`, `SubscribeQuote`, `UnsubscribeQuote` and what `OnEngineConfig` does for a running engine. The
configuration in force names the instruments, and the compliance rules are made from the same names.
-/

namespace Qtrade.Engine

/-- The engine and the subscriptions of its quote adapter. An adapter is set without any. -/
structure MarketData where
  engine : TradingEngine := {}
  subscriptions : Finset String := ∅

namespace MarketData

/-- `answer` is what `Subscribe` of the adapter returns. -/
def subscribeQuote (s : MarketData) (instruments : Finset String) (answer : ErrorCode) : MarketData :=
  if !s.engine.running || !s.engine.quoteApi then s
  else if answer = .success then { s with subscriptions := s.subscriptions ∪ instruments }
  else s

def unsubscribeQuote (s : MarketData) (instruments : Finset String) : MarketData :=
  if !s.engine.running || !s.engine.quoteApi then s
  else { s with subscriptions := s.subscriptions \ instruments }

def startMarketData (s : MarketData) (answer : ErrorCode) : MarketData :=
  if s.engine.subscribedInstruments ≠ ∅ then s.subscribeQuote s.engine.subscribedInstruments answer else s

/-- The differences are empty where the configuration is not taken. -/
def onEngineConfig (s : MarketData) (config : EngineConfig) (nowMs : Int) (answer : ErrorCode) : MarketData :=
  let engine := s.engine.onEngineConfig config nowMs
  let toSubscribe := engine.subscribedInstruments \ s.engine.subscribedInstruments
  let toUnsubscribe := s.engine.subscribedInstruments \ engine.subscribedInstruments
  let s := { s with engine }
  if !s.engine.running then s
  else
    let s := if toUnsubscribe ≠ ∅ then s.unsubscribeQuote toUnsubscribe else s
    if toSubscribe ≠ ∅ then s.subscribeQuote toSubscribe answer else s

/-- A running engine keeps its adapter. -/
def setQuoteApi (s : MarketData) (present : Bool) : MarketData :=
  if s.engine.running then s else { engine := { s.engine with quoteApi := present } }

/-- `StartMarketData` comes before `AdvanceReadyGates`, which changes nothing that it looks at. -/
def start (s : MarketData) (world : Surroundings) (answer : ErrorCode) : MarketData :=
  let result := s.engine.start world
  let s := { s with engine := result.2 }
  if result.1 = .success then s.startMarketData answer else s

/-- Where `Init` fails, it lets the adapter go. -/
def init (s : MarketData) (config : BootstrapConfig) (clock : Clock) (answer : Result EngineConfig) : MarketData :=
  let result := s.engine.init config clock answer
  { engine := result.2, subscriptions := if result.1 = .success then s.subscriptions else ∅ }

def stop (s : MarketData) : MarketData := { engine := s.engine.stop.2 }

/-! ## Runs -/

/-- What is done to the engine. A configuration is fetched by `init`, or comes to a running engine. -/
inductive Action
  | setBridges (configBridge accountBridge accountRiskBridge : Bool)
  | setTraderApi (present : Bool)
  | setQuoteApi (present : Bool)
  | init (config : BootstrapConfig) (clock : Clock) (answer : Result EngineConfig)
  | start (world : Surroundings) (answer : ErrorCode)
  | onEngineConfig (config : EngineConfig) (nowMs : Int) (answer : ErrorCode)
  | marketHealth (healthy : Bool)
  | stop

def step (s : MarketData) : Action → Option MarketData
  | .setBridges configBridge accountBridge accountRiskBridge =>
    some { s with engine := { s.engine with configBridge, accountBridge, accountRiskBridge } }
  | .setTraderApi present => some (if s.engine.running then s else { s with engine.traderApi := present })
  | .setQuoteApi present => some (s.setQuoteApi present)
  | .init config clock answer => some (s.init config clock answer)
  | .start world answer => some (s.start world answer)
  | .onEngineConfig config nowMs answer => some (s.onEngineConfig config nowMs answer)
  | .marketHealth healthy => some { s with engine := s.engine.onMarketHealthChanged healthy }
  | .stop => some s.stop

end MarketData

namespace TradingEngine

/-! ## What is derived from the configuration -/

/-- The instruments are those of the configuration in force. -/
structure Derived (s : TradingEngine) : Prop where
  version : s.compliance.rules.version = s.runtimeConfigVersion
  subscribed : s.subscribedInstruments = s.runtimeConfig.desiredInstruments
  allowed : s.compliance.rules.allowedInstruments = s.runtimeConfig.desiredInstruments

variable {s s' : TradingEngine}

theorem derived_fresh : Derived {} := ⟨rfl, rfl, rfl⟩

theorem Derived.of_applied (h : s.Derived) (happlied : s'.applied = s.applied) : s'.Derived := by
  have hrules : s'.compliance.rules = s.compliance.rules := congrArg Applied.rules happlied
  have hconfig : s'.runtimeConfig = s.runtimeConfig := congrArg Applied.runtimeConfig happlied
  have hversion : s'.runtimeConfigVersion = s.runtimeConfigVersion := congrArg Applied.runtimeConfigVersion happlied
  have hsubscribed : s'.subscribedInstruments = s.subscribedInstruments :=
    congrArg Applied.subscribedInstruments happlied
  exact ⟨by rw [hrules, hversion, h.version], by rw [hsubscribed, hconfig, h.subscribed],
    by rw [hrules, hconfig, h.allowed]⟩

theorem Derived.onEngineConfig (h : s.Derived) (config : EngineConfig) (nowMs : Int) :
    (s.onEngineConfig config nowMs).Derived := by
  rcases onEngineConfig_cases h.version config nowMs with ⟨-, reason, hs⟩ | ⟨-, -, hs⟩ | ⟨-, -, hs⟩
  · rw [hs]
    exact h.of_applied (applied_request s .frozen reason)
  · rw [hs]
    exact h
  · rw [hs]
    exact ⟨rfl, rfl, rfl⟩

theorem Derived.initStages (h : s.Derived) (answer : Result EngineConfig) (nowMs : Int) :
    (s.initStages answer nowMs).2.Derived := by
  unfold TradingEngine.initStages
  refine andThen_elim (P := Derived) ?_ (fun _ h => h) fun s₁ h₁ => ?_
  · refine h.of_applied ?_
    unfold validateSupportBridges
    split_ifs <;> rfl
  refine andThen_elim (P := Derived) ?_ (fun _ h => h) fun s₂ h₂ => ?_
  · unfold fetchRuntimeConfig
    split
    · exact h₁
    · split
      · exact h₁.onEngineConfig _ _
      · exact h₁.of_applied rfl
  refine andThen_elim (P := Derived) ?_ (fun _ h => h) fun s₃ h₃ => ?_
  · refine h₂.of_applied ?_
    unfold initEngineModules
    dsimp only
    split <;> rfl
  refine andThen_elim (P := Derived) ?_ (fun _ h => h) fun s₄ h₄ => ?_
  · refine h₃.of_applied ?_
    unfold initAdapters
    split_ifs <;> rfl
  refine h₄.of_applied ?_
  unfold becomeInitiated
  split <;> rfl

theorem Derived.init (h : s.Derived) (config : BootstrapConfig) (clock : Clock) (answer : Result EngineConfig) :
    (s.init config clock answer).2.Derived := by
  unfold TradingEngine.init
  split
  · exact h
  · have hboot : (s.boot config clock).Derived := h.of_applied rfl
    have hstages := hboot.initStages answer clock.nowMs
    dsimp only
    split
    · exact hstages
    · exact hstages.of_applied rfl

theorem Derived.onMarketHealthChanged (h : s.Derived) (healthy : Bool) :
    (s.onMarketHealthChanged healthy).Derived := by
  refine h.of_applied ?_
  unfold TradingEngine.onMarketHealthChanged
  split_ifs <;> rfl

/-- What a stage of `Start` leaves alone. -/
def outline (s : TradingEngine) : Applied × Bool × Bool × Bool := (s.applied, s.initialized, s.quoteApi, s.running)

theorem startAdapters_cases (s : TradingEngine) (world : Surroundings) :
    ((s.startAdapters world).1 ≠ .success ∧ (s.startAdapters world).2.outline = s.outline) ∨
      (s.startAdapters world = (.success, s) ∧ s.quoteApi = true) := by
  have hadapters : s.initAdapters.2.outline = s.outline := by
    unfold initAdapters
    split_ifs <;> rfl
  unfold startAdapters
  dsimp only
  split_ifs with herror hfailed hquote htrader
  · exact Or.inl ⟨herror, hadapters⟩
  · exact Or.inl ⟨herror, hadapters⟩
  · exact Or.inl ⟨by simp, rfl⟩
  · exact Or.inl ⟨by simp, rfl⟩
  · simp only [Bool.not_eq_true', Bool.not_eq_false, Bool.and_eq_true] at hquote
    exact Or.inr ⟨rfl, hquote.1⟩

theorem syncBrokerSnapshot_outline (s : TradingEngine) (world : Surroundings) :
    (s.syncBrokerSnapshot world).2.outline = s.outline := by
  unfold syncBrokerSnapshot
  dsimp only
  generalize (if (!(s.traderApi && world.traderConnected)) = true then _ else _ : ErrorCode × Books) = result
  split <;> rfl

theorem advanceReadyGates_outline (s : TradingEngine) (world : Surroundings) :
    (s.advanceReadyGates world).outline = s.outline := by
  unfold advanceReadyGates onMarketHealthChanged
  split_ifs <;> rfl

theorem start_cases (s : TradingEngine) (world : Surroundings) :
    ((s.start world).1 ≠ .success ∧ (s.start world).2.outline = s.outline) ∨
      ((s.start world).1 = .success ∧ s.initialized = true ∧ s.running = false ∧ s.quoteApi = true ∧
        (s.start world).2.outline = (s.applied, true, true, true)) := by
  unfold start
  by_cases hinit : s.initialized = true
  case neg => exact Or.inl (by simp [hinit])
  by_cases hrunning : s.running = true
  case pos => exact Or.inl (by simp [hinit, hrunning])
  by_cases hstate : s.lifecycle.state = .initiated
  case neg => exact Or.inl (by simp [hinit, hrunning, hstate]; rfl)
  simp only [hinit, hrunning, hstate, Bool.not_true, Bool.false_eq_true, if_false, ne_eq, not_true_eq_false]
  rcases startAdapters_cases s world with ⟨herror, houtline⟩ | ⟨hadapters, hquote⟩
  · rw [andThen_failure herror]
    exact Or.inl ⟨herror, houtline⟩
  · rw [andThen_success (by rw [hadapters]), hadapters]
    have hsync := syncBrokerSnapshot_outline s world
    by_cases hsnapshot : (s.syncBrokerSnapshot world).1 = .success
    · rw [andThen_success hsnapshot]
      refine Or.inr ⟨rfl, trivial, by simp, hquote, ?_⟩
      rw [advanceReadyGates_outline]
      have hmodules : ∀ s' : TradingEngine, s'.startEngineModules.outline =
          (s'.outline.1, s'.outline.2.1, s'.outline.2.2.1, true) := fun _ => rfl
      rw [hmodules, hsync]
      simp [outline, hinit, hquote]
    · rw [andThen_failure hsnapshot]
      exact Or.inl ⟨hsnapshot, hsync⟩

theorem init_running (s : TradingEngine) (config : BootstrapConfig) (clock : Clock) (answer : Result EngineConfig) :
    (s.init config clock answer).2.running = s.running := by
  have hstages : ((s.boot config clock).initStages answer clock.nowMs).2.running = s.running := by
    unfold initStages
    refine andThen_elim (P := fun s' => s'.running = s.running) ?_ (fun _ h => h) fun s₁ h₁ => ?_
    · exact (validateSupportBridges_keeps (s.boot config clock)).running
    refine andThen_elim (P := fun s' => s'.running = s.running) ?_ (fun _ h => h) fun s₂ h₂ => ?_
    · exact (fetchRuntimeConfig_rests s₁ answer clock.nowMs).running.trans h₁
    refine andThen_elim (P := fun s' => s'.running = s.running) ?_ (fun _ h => h) fun s₃ h₃ => ?_
    · exact (initEngineModules_keeps s₂).running.trans h₂
    refine andThen_elim (P := fun s' => s'.running = s.running) ?_ (fun _ h => h) fun s₄ h₄ => ?_
    · exact (initAdapters_keeps s₃).running.trans h₃
    exact (becomeInitiated_running s₄).trans h₄
  unfold init
  split
  · rfl
  · dsimp only
    split
    · exact hstages
    · exact hstages

end TradingEngine

namespace MarketData

/-! ## Subscribed while it runs -/

/-- The adapter takes its subscriptions. -/
def Subscribes (_ : MarketData) : Action → Prop
  | .start _ answer => answer = .success
  | .onEngineConfig _ _ answer => answer = .success
  | _ => True

instance (s : MarketData) (a : Action) : Decidable (s.Subscribes a) := by
  cases a <;> unfold Subscribes <;> infer_instance

structure Inv (s : MarketData) : Prop where
  derived : s.engine.Derived
  running : s.engine.running = true → s.engine.initialized = true ∧ s.engine.quoteApi = true
  subscriptions : s.subscriptions = if s.engine.running then s.engine.subscribedInstruments else ∅

variable {s s' : MarketData}

theorem inv_fresh : Inv {} := ⟨TradingEngine.derived_fresh, by simp, rfl⟩

theorem Inv.start (h : s.Inv) (world : Surroundings) : (s.start world .success).Inv := by
  unfold MarketData.start
  dsimp only
  rcases TradingEngine.start_cases s.engine world with ⟨herror, houtline⟩ | ⟨hcode, hinit, hstopped, hquote, houtline⟩
  · simp only [TradingEngine.outline, Prod.mk.injEq] at houtline
    obtain ⟨happlied, hinit, hquote, hrunning⟩ := houtline
    have hsubscribed : (s.engine.start world).2.subscribedInstruments = s.engine.subscribedInstruments :=
      congrArg Applied.subscribedInstruments happlied
    rw [if_neg herror]
    refine ⟨h.derived.of_applied happlied, fun hruns => ?_, ?_⟩
    · rw [hinit, hquote]
      exact h.running (hrunning ▸ hruns)
    · dsimp only
      rw [hrunning, hsubscribed, h.subscriptions]
  · simp only [TradingEngine.outline, Prod.mk.injEq] at houtline
    obtain ⟨happlied, hinit', hquote', hrunning⟩ := houtline
    have hnone : s.subscriptions = ∅ := by rw [h.subscriptions, hstopped]; rfl
    rw [if_pos hcode]
    unfold startMarketData subscribeQuote
    simp only [hrunning, hquote', hnone, Bool.not_true, Bool.or_self, Bool.false_eq_true, if_false, if_true,
      Finset.empty_union]
    split
    case isTrue =>
      exact ⟨h.derived.of_applied happlied, fun _ => ⟨hinit', hquote'⟩, by simp [hrunning]⟩
    case isFalse hempty =>
      refine ⟨h.derived.of_applied happlied, fun _ => ⟨hinit', hquote'⟩, ?_⟩
      dsimp only
      rw [hrunning, if_pos rfl, not_not.mp hempty]

theorem Inv.init (h : s.Inv) (config : BootstrapConfig) (clock : Clock) (answer : Result EngineConfig) :
    (s.init config clock answer).Inv := by
  unfold MarketData.init
  dsimp only
  have hderived := h.derived.init config clock answer
  have hrunning := s.engine.init_running config clock answer
  by_cases hinit : s.engine.initialized = true
  · have hsame : s.engine.init config clock answer = (.success, s.engine) := by simp [TradingEngine.init, hinit]
    rw [hsame]
    exact h
  · have hstopped : s.engine.running = false := by
      rw [← Bool.not_eq_true]
      exact fun hruns => hinit (h.running hruns).1
    have hnone : s.subscriptions = ∅ := by rw [h.subscriptions, hstopped]; rfl
    refine ⟨hderived, fun hruns => ?_, ?_⟩
    · rw [hrunning, hstopped] at hruns
      cases hruns
    · dsimp only
      rw [hrunning, hstopped, hnone]
      simp

theorem unsubscribeQuote_running (hrunning : s.engine.running = true) (hquote : s.engine.quoteApi = true)
    (instruments : Finset String) :
    (if instruments ≠ ∅ then s.unsubscribeQuote instruments else s) =
      { s with subscriptions := s.subscriptions \ instruments } := by
  split
  case isTrue => simp [unsubscribeQuote, hrunning, hquote]
  case isFalse hempty => simp [not_not.mp hempty]

theorem subscribeQuote_running (hrunning : s.engine.running = true) (hquote : s.engine.quoteApi = true)
    (instruments : Finset String) :
    (if instruments ≠ ∅ then s.subscribeQuote instruments .success else s) =
      { s with subscriptions := s.subscriptions ∪ instruments } := by
  split
  case isTrue => simp [subscribeQuote, hrunning, hquote]
  case isFalse hempty => simp [not_not.mp hempty]

theorem Inv.onEngineConfig (h : s.Inv) (config : EngineConfig) (nowMs : Int) :
    (s.onEngineConfig config nowMs .success).Inv := by
  have hderived := h.derived.onEngineConfig config nowMs
  have hrests := TradingEngine.onEngineConfig_rests s.engine config nowMs
  have hquote : (s.engine.onEngineConfig config nowMs).quoteApi = s.engine.quoteApi := by
    unfold TradingEngine.onEngineConfig
    dsimp only
    split_ifs <;> rfl
  unfold MarketData.onEngineConfig
  dsimp only
  cases hrunning : s.engine.running with
  | false =>
    have hstopped := hrests.running.trans hrunning
    rw [hstopped, Bool.not_false, if_pos rfl]
    refine ⟨hderived, fun hruns => absurd hruns (by simp [hstopped]), ?_⟩
    dsimp only
    rw [h.subscriptions, hrunning, hstopped]
    rfl
  | true =>
    have hruns := hrests.running.trans hrunning
    obtain ⟨hinit, hpresent⟩ := h.running hrunning
    have hpresent' := hquote.trans hpresent
    have hold : s.subscriptions = s.engine.subscribedInstruments := by rw [h.subscriptions, hrunning]; rfl
    rw [hruns, Bool.not_true, if_neg Bool.false_ne_true, unsubscribeQuote_running hruns hpresent',
      subscribeQuote_running hruns hpresent']
    refine ⟨hderived, fun _ => ⟨hrests.initialized.trans hinit, hpresent'⟩, ?_⟩
    dsimp only
    rw [hruns, if_pos rfl, hold]
    ext instrument
    simp only [Finset.mem_union, Finset.mem_sdiff]
    tauto

theorem step_inv (h : s.Inv) {a : Action} (hok : s.Subscribes a) (hs : s.step a = some s') : s'.Inv := by
  cases a with
  | setBridges configBridge accountBridge accountRiskBridge =>
    cases hs
    exact ⟨h.derived.of_applied rfl, h.running, h.subscriptions⟩
  | setTraderApi present =>
    cases hs
    split
    · exact h
    · exact ⟨h.derived.of_applied rfl, h.running, h.subscriptions⟩
  | setQuoteApi present =>
    cases hs
    unfold setQuoteApi
    split
    · exact h
    case isFalse hstopped =>
      exact ⟨h.derived.of_applied rfl, fun hruns => absurd hruns hstopped, by simp [hstopped]⟩
  | init config clock answer =>
    cases hs
    exact h.init config clock answer
  | start world answer =>
    cases hs
    cases hok
    exact h.start world
  | onEngineConfig config nowMs answer =>
    cases hs
    cases hok
    exact h.onEngineConfig config nowMs
  | marketHealth healthy =>
    cases hs
    have hkeeps := TradingEngine.onMarketHealthChanged_keeps s.engine healthy
    have hquote : (s.engine.onMarketHealthChanged healthy).quoteApi = s.engine.quoteApi := by
      unfold TradingEngine.onMarketHealthChanged
      split_ifs <;> rfl
    have hsubscribed : (s.engine.onMarketHealthChanged healthy).subscribedInstruments =
        s.engine.subscribedInstruments := by
      unfold TradingEngine.onMarketHealthChanged
      split_ifs <;> rfl
    refine ⟨h.derived.onMarketHealthChanged healthy, fun hruns => ?_, ?_⟩
    · dsimp only
      rw [hkeeps.initialized, hquote]
      exact h.running (hkeeps.running ▸ hruns)
    · dsimp only
      rw [hkeeps.running, hsubscribed, h.subscriptions]
  | stop =>
    cases hs
    obtain ⟨-, -, hstopped, -⟩ := TradingEngine.stop_keeps s.engine
    refine ⟨h.derived.of_applied ?_, fun hruns => ?_, ?_⟩
    · unfold stop TradingEngine.stop
      dsimp only
      split <;> rfl
    · rw [stop, hstopped] at hruns
      cases hruns
    · rw [stop, hstopped]
      rfl

theorem checkOrder_allowed {compliance : Cms.ComplianceManager} {request : OrderRequest}
    (h : compliance.checkOrder request = .success) :
    compliance.rules.allowedInstruments = ∅ ∨ request.instrument ∈ compliance.rules.allowedInstruments := by
  unfold Cms.ComplianceManager.checkOrder at h
  dsimp only at h
  split_ifs at h with _ _ hrefused
  by_contra hno
  rw [not_or] at hno
  exact hrefused (by simp only [ne_eq, hno, not_false_eq_true, and_self, true_or, or_true])

/-- While the engine runs, the adapter is subscribed to the instruments of the configuration in force, and only an
order for one of these passes compliance, unless the configuration names none. -/
theorem orders_subscribed (h : Runs.Reaches step Subscribes {} s) :
    (s.engine.running = true → s.subscriptions = s.engine.runtimeConfig.desiredInstruments ∧
      (s.subscriptions ≠ ∅ → ∀ request, s.engine.compliance.checkOrder request = .success →
        request.instrument ∈ s.subscriptions)) ∧
    (s.engine.running = false → s.subscriptions = ∅) := by
  have hinv : s.Inv := h.invariant inv_fresh fun _ _ _ hinv hok hs => step_inv hinv hok hs
  refine ⟨fun hrunning => ?_, fun hstopped => by rw [hinv.subscriptions, hstopped]; rfl⟩
  have hdesired : s.subscriptions = s.engine.runtimeConfig.desiredInstruments := by
    rw [hinv.subscriptions, hrunning, if_pos rfl, hinv.derived.subscribed]
  refine ⟨hdesired, fun hnone request hpasses => ?_⟩
  have hallowed : s.engine.compliance.rules.allowedInstruments = s.subscriptions := by
    rw [hinv.derived.allowed, hdesired]
  rw [← hallowed] at hnone ⊢
  exact (checkOrder_allowed hpasses).resolve_left hnone

/-- A running engine, under a configuration with one instrument. -/
theorem orders_subscribed_first : ∃ s : MarketData, Runs.Reaches step Subscribes {} s ∧ s.engine.running = true ∧
    s.subscriptions = {"a"} := by
  have hrun : ∃ s ∈ Runs.execWhile step Subscribes {} [.setBridges true true true, .setTraderApi true,
      .setQuoteApi true, .init {} ⟨1, 1⟩ { data := some { Lifetime.firstConfig with
        strategies := [{ enabled := true, instruments := ["a"] }, { instruments := ["b"] }] } },
      .start {} .success], s.engine.running = true ∧ s.engine.runtimeConfig.desiredInstruments = {"a"} := by
    decide +kernel
  obtain ⟨s, hs, hrunning, hdesired⟩ := hrun
  have hreach := Runs.reaches_of_execWhile _ hs
  exact ⟨s, hreach, hrunning, ((orders_subscribed hreach).1 hrunning).1.trans hdesired⟩

end MarketData

end Qtrade.Engine
