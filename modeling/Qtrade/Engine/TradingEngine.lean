import Qtrade.Cms
import Qtrade.Engine.BrokerState
import Qtrade.Risk

/-!
# The life of the trading engine

`engine_lifecycle.cpp` and the life cycle of `trading_engine.cpp`: `Init`, `Start`, `Stop`, the
configuration that `Init` fetches and the health of the market data.
-/

namespace Qtrade.Engine

inductive EngineState
  | new | initiated | ready | frozen | draining | stopped | failed
deriving DecidableEq

def isAllowedTransition (source target : EngineState) : Bool :=
  match source with
  | .new => target == .initiated || target == .failed || target == .stopped
  | .stopped => target == .initiated
  | .initiated =>
    target == .ready || target == .frozen || target == .draining || target == .failed || target == .stopped
  | .ready => target == .frozen || target == .draining || target == .failed || target == .stopped
  | .frozen => target == .ready || target == .draining || target == .failed || target == .stopped
  | .draining => target == .stopped || target == .failed
  | .failed => target == .stopped

structure EngineLifecycle where
  state : EngineState := .new
  reason : String := ""
deriving DecidableEq

/-- A state that is asked for again takes the new reason. -/
def EngineLifecycle.transition (s : EngineLifecycle) (target : EngineState) (reason : String) :
    ErrorCode × EngineLifecycle :=
  if s.state ≠ target ∧ !isAllowedTransition s.state target then (.invalidState, s)
  else (.success, { state := target, reason })

/-! ## Configuration -/

structure EngineIdentity where
  tenantId : String := "default"
  engineId : String := "default"
  accountId : String := ""
deriving DecidableEq

/-- The three flags are `enabled` of the support services. -/
structure BootstrapConfig where
  identity : EngineIdentity := {}
  configService : Bool := true
  accountService : Bool := true
  accountRiskService : Bool := true

structure RiskBudget where
  version : UInt64 := 0
  maxNotional : Double := 0
  maxOpenOrders : UInt64 := 0
  safetyBuffer : Double := 0

structure StrategyConfig where
  enabled : Bool := false
  instruments : List String := []

structure EngineConfig where
  engineId : String := ""
  tenantId : String := ""
  accountId : String := ""
  strategies : List StrategyConfig := []
  riskBudget : RiskBudget := {}
  validUntilUnixMs : Int := 0
  version : UInt64 := 0

namespace EngineConfig

def identifies (config : EngineConfig) (identity : EngineIdentity) : Bool :=
  config.engineId == identity.engineId && config.tenantId == identity.tenantId &&
    config.accountId == identity.accountId

def expired (config : EngineConfig) (nowMs : Int) : Bool :=
  decide (0 < config.validUntilUnixMs) && decide (config.validUntilUnixMs ≤ nowMs)

def limits (config : EngineConfig) : Risk.RiskLimits where
  version := if config.riskBudget.version ≠ 0 then config.riskBudget.version else config.version
  maxOrderNotional := config.riskBudget.maxNotional
  maxTotalNotional := config.riskBudget.maxNotional
  maxOpenOrders := config.riskBudget.maxOpenOrders
  safetyBuffer := config.riskBudget.safetyBuffer

def desiredInstruments (config : EngineConfig) : Finset String :=
  (((config.strategies.filter (·.enabled)).flatMap (·.instruments)).filter (· ≠ "")).toFinset

def rules (config : EngineConfig) : Cms.ComplianceRules where
  version := config.version
  allowedInstruments := config.desiredInstruments
  maxNotional := config.riskBudget.maxNotional

end EngineConfig

/-! ## The engine -/

/-- The bridges and the two adapters are pointers, and the flags say whether they are set. -/
structure TradingEngine where
  initialized : Bool := false
  running : Bool := false
  engineEpoch : UInt64 := 0
  runtimeConfigVersion : UInt64 := 0
  lifecycle : EngineLifecycle := {}
  bootstrapConfig : BootstrapConfig := {}
  runtimeConfig : EngineConfig := {}
  subscribedInstruments : Finset String := ∅
  quoteApi : Bool := false
  traderApi : Bool := false
  compliance : Cms.ComplianceManager := {}
  riskManager : Risk.RiskManager := {}
  books : Books := {}
  configBridge : Bool := false
  accountBridge : Bool := false
  accountRiskBridge : Bool := false

/-- What the clocks show during `Init`: `time` and `UnixMillisNow`. -/
structure Clock where
  seconds : UInt64
  nowMs : Int

/-- What `Start` finds outside the engine. Without a snapshot, one of the four queries failed. -/
structure Surroundings where
  quoteConnected : Bool := true
  traderConnected : Bool := true
  snapshot : Option BrokerSnapshot := some {}
  healthy : Bool := false

namespace TradingEngine

/-- Asks for a state and ignores the answer. -/
def request (s : TradingEngine) (target : EngineState) (reason : String := "") : TradingEngine :=
  { s with lifecycle := (s.lifecycle.transition target reason).2 }

def isReady (s : TradingEngine) : Bool := s.lifecycle.state == .ready

/-- The next stage of a pipeline runs when the one before it succeeded. -/
def andThen (result : ErrorCode × TradingEngine) (next : TradingEngine → ErrorCode × TradingEngine) :
    ErrorCode × TradingEngine :=
  if result.1 = .success then next result.2 else result

/-! ### Callbacks -/

/-- What a new configuration means for the running subscriptions is left to the quote adapter. -/
def onEngineConfig (s : TradingEngine) (config : EngineConfig) (nowMs : Int) : TradingEngine :=
  if config.version = 0 then s.request .frozen "CONFIG_SNAPSHOT_INVALID"
  else if !config.identifies s.bootstrapConfig.identity then s.request .frozen "CONFIG_IDENTITY_MISMATCH"
  else if config.expired nowMs then s.request .frozen "CONFIG_EXPIRED"
  else if config.version ≤ s.runtimeConfigVersion then s
  else if s.running && s.runtimeConfigVersion != 0 then s.request .frozen "CONFIG_RESTART_REQUIRED"
  else
    let risk := s.riskManager.configure config.limits
    let s := { s with riskManager := risk.2 }
    if risk.1 ≠ .success then s.request .frozen "RISK_CONFIG_INVALID"
    else
      let compliance := s.compliance.configure config.rules
      let s := { s with compliance := compliance.2 }
      if compliance.1 ≠ .success then s.request .frozen "COMPLIANCE_CONFIG_INVALID"
      else
        { s with
          runtimeConfig := config
          runtimeConfigVersion := config.version
          subscribedInstruments := config.desiredInstruments }

def onMarketHealthChanged (s : TradingEngine) (healthy : Bool) : TradingEngine :=
  if !healthy then
    if s.lifecycle.state = .ready then s.request .frozen "MARKET_UNHEALTHY" else s
  else if s.lifecycle.state = .initiated then s.request .ready
  else if s.lifecycle.state = .frozen ∧ s.lifecycle.reason = "MARKET_UNHEALTHY" then s.request .ready
  else s

/-! ### `Init` -/

/-- The managers and adapters are let go. The configuration in force is not. -/
def release (s : TradingEngine) : TradingEngine :=
  { s with books.oms := s.books.oms.shutdown, quoteApi := false, traderApi := false }

/-- The default limit on stale market data is always valid. -/
def applyBootstrapConfig (s : TradingEngine) (config : BootstrapConfig) : TradingEngine :=
  { s with bootstrapConfig := config }

def validateSupportBridges (s : TradingEngine) : ErrorCode × TradingEngine :=
  if s.bootstrapConfig.configService && !s.configBridge then
    (.notInitialized, s.request .failed "CONFIG_BRIDGE_MISSING")
  else if s.bootstrapConfig.accountService && !s.accountBridge then
    (.notInitialized, s.request .failed "ACCOUNT_BRIDGE_MISSING")
  else if s.bootstrapConfig.accountRiskService && !s.accountRiskBridge then
    (.notInitialized, s.request .failed "ACCOUNT_RISK_BRIDGE_MISSING")
  else (.success, s)

/-- `answer` is what `GetEngineConfig` returns. Without data, its code is returned as it is. -/
def fetchRuntimeConfig (s : TradingEngine) (answer : Result EngineConfig) (nowMs : Int) :
    ErrorCode × TradingEngine :=
  if !s.configBridge then (.success, s)
  else
    match answer with
    | { errorCode := .success, data := some config } => (.success, s.onEngineConfig config nowMs)
    | { errorCode, .. } => (errorCode, s.request .failed "GET_ENGINE_CONFIG_FAILED")

def initEngineModules (s : TradingEngine) : ErrorCode × TradingEngine :=
  let oms := s.books.oms.initializeWith
    { tenantId := s.bootstrapConfig.identity.tenantId
      engineId := s.bootstrapConfig.identity.engineId
      engineEpoch := s.engineEpoch }
  let s := { s with books.oms := oms.2 }
  if oms.1 ≠ .success then (oms.1, s.request .failed "ORDER_MANAGER_INIT_FAILED")
  else
    (.success, { s with riskManager.openOrdersProvider := true, riskManager.notionalProvider := true })

def initAdapters (s : TradingEngine) : ErrorCode × TradingEngine :=
  if s.quoteApi && s.traderApi then (.success, s)
  else if !s.bootstrapConfig.configService then (.success, s)
  else (.notInitialized, s.request .failed "ADAPTER_NOT_INJECTED")

def becomeInitiated (s : TradingEngine) : ErrorCode × TradingEngine :=
  if (s.lifecycle.transition .initiated "").1 ≠ .success then
    (.systemError, s.request .failed "INIT_STATE_TRANSITION_FAILED")
  else (.success, { s.request .initiated with initialized := true })

def initStages (s : TradingEngine) (answer : Result EngineConfig) (nowMs : Int) : ErrorCode × TradingEngine :=
  andThen s.validateSupportBridges fun s =>
  andThen (s.fetchRuntimeConfig answer nowMs) fun s =>
  andThen s.initEngineModules fun s =>
  andThen s.initAdapters becomeInitiated

/-- Any stage that fails releases what there is. -/
def init (s : TradingEngine) (config : BootstrapConfig) (clock : Clock) (answer : Result EngineConfig) :
    ErrorCode × TradingEngine :=
  if s.initialized then (.success, s)
  else
    let s := ({ s with engineEpoch := clock.seconds } : TradingEngine).applyBootstrapConfig config
    let result := s.initStages answer clock.nowMs
    if result.1 = .success then result else (result.1, result.2.release)

/-! ### `Start` and `Stop` -/

def startAdapters (s : TradingEngine) (world : Surroundings) : ErrorCode × TradingEngine :=
  let result := s.initAdapters
  if result.1 ≠ .success then
    (result.1,
      if result.2.lifecycle.state ≠ .failed then result.2.request .failed "ADAPTER_NOT_READY" else result.2)
  else if !(s.quoteApi && world.quoteConnected) then (.connectionError, s.request .failed "QUOTE_NOT_CONNECTED")
  else if !(s.traderApi && world.traderConnected) then
    (.connectionError, s.request .failed "TRADER_NOT_CONNECTED")
  else (.success, s)

def syncBrokerSnapshot (s : TradingEngine) (world : Surroundings) : ErrorCode × TradingEngine :=
  let result :=
    if !(s.traderApi && world.traderConnected) then (.connectionError, s.books)
    else
      match world.snapshot with
      | some snapshot => s.books.synchronize snapshot
      | none => (.notSupported, s.books)
  let s := { s with books := result.2 }
  if result.1 ≠ .success then (result.1, s.request .failed "BROKER_RECONCILIATION_FAILED") else (.success, s)

def startEngineModules (s : TradingEngine) : TradingEngine := { s with running := true }

def advanceReadyGates (s : TradingEngine) (world : Surroundings) : TradingEngine :=
  if world.healthy then s.onMarketHealthChanged true else s

def start (s : TradingEngine) (world : Surroundings) : ErrorCode × TradingEngine :=
  if !s.initialized then (.notInitialized, s)
  else if s.running then (.alreadyStarted, s)
  else if s.lifecycle.state ≠ .initiated then (.invalidState, s.request .failed "INVALID_START_STATE")
  else
    andThen (s.startAdapters world) fun s =>
    andThen (s.syncBrokerSnapshot world) fun s =>
    (.success, s.startEngineModules.advanceReadyGates world)

def stop (s : TradingEngine) : ErrorCode × TradingEngine :=
  let drained := if s.running then { s.request .draining with running := false } else s
  (if s.running then .success else .systemError,
    { drained.release with initialized := false }.request .stopped)

end TradingEngine

end Qtrade.Engine
