import Qtrade.Engine.Configured
import Qtrade.Engine.StartSequence
import Qtrade.Engine.Strategies
import Qtrade.Lib.Journal

/-!
# The lanes, their handlers and the life of the engine

`event_lanes.cpp`, the handlers of its two reactors and the calls of `trading_engine.cpp` that subscribe and
drop them. One thread makes the calls. Where the reactor threads may run meanwhile, a call becomes operations
that are performed one by one, and where they cannot, it is one step. Each thread takes an event, takes the
mutex of the handlers and calls them in turn. A call of a handler is one step, since the dispatcher holds its
own mutex for as long and is destroyed under it.
-/

namespace Qtrade.Engine

/-! ## The reactors -/

inductive EventType
  | tickData | barData | orderUpdate | tradeUpdate
deriving DecidableEq

inductive Lane
  | quote | trader
deriving DecidableEq

def EventType.lane : EventType → Lane
  | .tickData | .barData => .quote
  | .orderUpdate | .tradeUpdate => .trader

/-- Of a tick and of a bar, the dispatcher reads the instrument. -/
inductive Event
  | tick (instrument : String)
  | bar (instrument : String)
  | report (callback : Callback)
deriving DecidableEq

namespace Event

def type : Event → EventType
  | .tick _ => .tickData
  | .bar _ => .barData
  | .report (.order _) => .orderUpdate
  | .report (.trade _) => .tradeUpdate

def instrument : Event → String
  | .tick instrument | .bar instrument => instrument
  | .report (.order order) => order.instrument
  | .report (.trade trade) => trade.instrument

end Event

/-- `OnTraderOrderReport` and `OnTraderTradeReport`, or the `On` method of a dispatcher. -/
inductive Handler
  | books
  | strategies (dispatcher : Nat)
deriving DecidableEq

def Handler.isStrategies : Handler → Bool
  | .books => false
  | .strategies _ => true

/-- `holding` is before `HandleEvent` has the mutex of the handlers. -/
inductive LanePc
  | absent
  | waiting
  | holding (event : Ticket Event)
  | handling (event : Ticket Event) (rest : List Handler)
  | exited
deriving DecidableEq

/-- The event that the thread has in hand. -/
def LanePc.event? : LanePc → Option (Ticket Event)
  | .holding event | .handling event _ => some event
  | .absent | .waiting | .exited => none

structure EventReactor where
  policy : LanePolicy := {}
  running : Bool := false
  accepting : Bool := false
  queue : List (Ticket Event) := []
  thread : LanePc := .absent
  handlers : EventType → List Handler := fun _ => []

namespace EventReactor

def publish (s : EventReactor) (event : Ticket Event) : EventReactor :=
  if !s.accepting then s
  else if s.policy.capacity ≤ s.queue.length then
    if s.policy.dropOldestOnFull then { s with queue := s.queue.tail ++ [event] } else s
  else { s with queue := s.queue ++ [event] }

/-- `RunOnce`: the thread waits, leaves its loop or has an event. -/
def runOnce (s : EventReactor) : Option EventReactor :=
  match s.thread, s.queue with
  | .waiting, event :: queue => some { s with queue, thread := .holding event }
  | .waiting, [] => if s.running then none else some { s with thread := .exited }
  | _, _ => none

/-- `HandleEvent` takes the mutex. -/
def enter (s : EventReactor) : Option EventReactor :=
  match s.thread with
  | .holding event => some { s with thread := .handling event (s.handlers event.item.type) }
  | _ => none

/-- The mutex of the handlers is taken. -/
def isHandling (s : EventReactor) : Bool :=
  match s.thread with
  | .handling _ _ => true
  | _ => false

def subscribe (s : EventReactor) (type : EventType) (handler : Handler) : EventReactor :=
  { s with handlers := fun k => if k = type then s.handlers k ++ [handler] else s.handlers k }

end EventReactor

/-! ## The calls -/

/-- What a call does beside the reactors, piece by piece. -/
inductive Op
  | makeDispatcher
  | startStrategies
  | subscribe (type : EventType)
  | activate
  | subscribeBooks (type : EventType)
  | startLane (lane : Lane)
  | accept (lane : Lane)
  | spawn (lane : Lane)
  | startEngine
  | advanceReadyGates (world : Surroundings)
  | deactivate
  | clearStrategies
  | stopLane (lane : Lane)
  | refuse (lane : Lane)
  | join (lane : Lane)
  | clearQueue (lane : Lane)
  | clearHandlers (lane : Lane)
  | releaseModules
  | becomeStopped

namespace Op

/-- `SetRouting` comes with the dispatcher, and then `Subscribe`. -/
def dispatcherOps : List Op :=
  [.makeDispatcher, .subscribe .tickData, .subscribe .barData, .subscribe .orderUpdate, .subscribe .tradeUpdate]

/-- From `StartEventLanes` on. -/
def startOps (world : Surroundings) : List Op :=
  [.subscribeBooks .orderUpdate, .subscribeBooks .tradeUpdate, .startLane .quote, .startLane .trader,
    .startStrategies, .startEngine, .advanceReadyGates world]

/-- `Release`. `Stop` of a reactor that does not run still clears the handlers. -/
def releaseOps : List Op :=
  [.deactivate, .clearStrategies, .stopLane .trader, .clearHandlers .trader, .stopLane .quote,
    .clearHandlers .quote, .releaseModules]

end Op

/-- What the reactors called. A call of strategies records whether the dispatcher was there and whom it told. -/
inductive Happening
  | booked (event : Ticket Event)
  | called (dispatcher : Nat) (alive : Bool) (event : Ticket Event) (told : List String)
deriving DecidableEq

/-- The engine with its lanes. `pending` is what is left of the call being made, and the log has the latest
first. -/
structure EventLanes where
  engine : TradingEngine := {}
  manager : StrategyManager := {}
  lanes : Lane → EventReactor := fun _ => {}
  pending : List Op := []
  published : Nat := 0
  log : List Happening := []

/-- What is set from outside, each by its own `Set` method. -/
inductive Injected
  | configBridge | accountBridge | accountRiskBridge | quoteApi | traderApi
deriving DecidableEq

inductive LaneAction
  | set (part : Injected) (present : Bool)
  | marketHealth (healthy : Bool)
  | init (config : BootstrapConfig) (clock : Clock) (answer : Result EngineConfig)
  | addStrategy (config : NamedStrategy) (given : Bool) (inits : Bool)
  | loadStrategiesFromPlugins (directory : String) (plugins : Plugins) (strategies : List NamedStrategy)
  | start (world : Surroundings)
  | stop
  | control
  | publish (event : Event)
  | runOnce (lane : Lane)
  | enter (lane : Lane)
  | call (lane : Lane)

namespace TradingEngine

def set (s : TradingEngine) (present : Bool) : Injected → TradingEngine
  | .configBridge => { s with configBridge := present }
  | .accountBridge => { s with accountBridge := present }
  | .accountRiskBridge => { s with accountRiskBridge := present }
  | .quoteApi => if s.running then s else { s with quoteApi := present }
  | .traderApi => if s.running then s else { s with traderApi := present }

/-- `Start` up to the lanes. -/
def prepareStart (s : TradingEngine) (world : Surroundings) : ErrorCode × TradingEngine :=
  if !s.initialized then (.notInitialized, s)
  else if s.running then (.alreadyStarted, s)
  else if s.lifecycle.state ≠ .initiated then (.invalidState, s.request .failed "INVALID_START_STATE")
  else andThen (s.startAdapters world) fun s => s.syncBrokerSnapshot world

def beginStop (s : TradingEngine) : TradingEngine :=
  if s.running then { s.request .draining with running := false } else s

def becomeStopped (s : TradingEngine) : TradingEngine := { s with initialized := false }.request .stopped

end TradingEngine

namespace EventLanes

def onLane (s : EventLanes) (lane : Lane) (f : EventReactor → EventReactor) : EventLanes :=
  { s with lanes := fun k => if k = lane then f (s.lanes k) else s.lanes k }

/-! ### The calls up to where they meet the lanes -/

def init (s : EventLanes) (config : BootstrapConfig) (clock : Clock) (answer : Result EngineConfig) :
    ErrorCode × EventLanes :=
  if s.engine.initialized then (.success, s)
  else
    let result := (s.engine.boot config clock).initStages answer clock.nowMs
    (result.1,
      { s with engine := result.2, pending := if result.1 = .success then [] else Op.releaseOps })

/-- `given` is false for a null pointer, and `inits` is what the strategy's own `Init` answers. -/
def addStrategy (s : EventLanes) (config : NamedStrategy) (given inits : Bool) : ErrorCode × EventLanes :=
  if !s.engine.initialized then (.notInitialized, s)
  else if s.engine.running then (.alreadyStarted, s)
  else if !given || config.strategyId == "" then (.invalidArgument, s)
  else if !config.enabled then (.success, s)
  else if !inits then (.internalError, s)
  else
    let result := s.manager.registerStrategy config.strategyId config.instruments
    (if result.1 = .success then .success else .systemError, { s with manager := result.2 })

/-- `strategies` are those of the runtime configuration. -/
def loadStrategiesFromPlugins (s : EventLanes) (directory : String) (plugins : Plugins)
    (strategies : List NamedStrategy) : ErrorCode × EventLanes :=
  if !s.engine.initialized then (.notInitialized, s)
  else if s.engine.running then (.alreadyStarted, s)
  else if directory = "" then (.invalidArgument, s)
  else if s.manager.running then (.alreadyStarted, s)
  else if !plugins.loads then (.dynamicLibraryLoadError, s)
  else
    let result := s.manager.initStrategies plugins strategies
    (result.1,
      { s with manager := result.2, pending := if result.1 = .success then Op.dispatcherOps else [] })

def start (s : EventLanes) (world : Surroundings) : ErrorCode × EventLanes :=
  let result := s.engine.prepareStart world
  (result.1,
    { s with engine := result.2, pending := if result.1 = .success then Op.startOps world else [] })

def stop (s : EventLanes) : ErrorCode × EventLanes :=
  (if s.engine.running then .success else .systemError,
    { s with engine := s.engine.beginStop, pending := Op.releaseOps ++ [.becomeStopped] })

/-! ### Their operations -/

def subscribe (s : EventLanes) (type : EventType) (handler : Handler) : Option EventLanes :=
  if (s.lanes type.lane).isHandling then none else some (s.onLane type.lane (·.subscribe type handler))

/-- Performs an operation that was taken from `pending`. -/
def perform (s : EventLanes) : Op → Option EventLanes
  | .makeDispatcher => some { s with manager := s.manager.makeDispatcher }
  | .startStrategies =>
    some
      (if s.manager.running then s
      else
        { s with
          pending := (if s.manager.dispatcher.isSome then [] else Op.dispatcherOps) ++ .activate :: s.pending })
  | .subscribe type =>
    match s.manager.dispatcher with
    | some number => s.subscribe type (.strategies number)
    | none => none
  | .activate => some { s with manager := s.manager.activate }
  | .subscribeBooks type => s.subscribe type .books
  | .startLane lane =>
    some
      (if (s.lanes lane).running then s
      else
        { s.onLane lane fun r => { r with running := true } with
          pending := [.accept lane, .spawn lane] ++ s.pending })
  | .accept lane => some (s.onLane lane fun r => { r with accepting := true })
  | .spawn lane => some (s.onLane lane fun r => { r with thread := .waiting })
  | .startEngine => some { s with engine := s.engine.startEngineModules }
  | .advanceReadyGates world => some { s with engine := s.engine.advanceReadyGates world }
  | .deactivate => some { s with manager := s.manager.deactivate }
  | .clearStrategies => some { s with manager := s.manager.clear }
  | .stopLane lane =>
    some
      (if (s.lanes lane).running then
        { s.onLane lane fun r => { r with running := false } with
          pending := [.refuse lane, .join lane, .clearQueue lane] ++ s.pending }
      else s)
  | .refuse lane => some (s.onLane lane fun r => { r with accepting := false })
  | .join lane =>
    if (s.lanes lane).thread = .exited then some (s.onLane lane fun r => { r with thread := .absent }) else none
  | .clearQueue lane => some (s.onLane lane fun r => { r with queue := [] })
  | .clearHandlers lane =>
    if (s.lanes lane).isHandling then none else some (s.onLane lane fun r => { r with handlers := fun _ => [] })
  | .releaseModules => some { s with engine := s.engine.release }
  | .becomeStopped => some { s with engine := s.engine.becomeStopped }

/-! ### Steps -/

/-- A reactor calls one handler. The books' handler is subscribed to reports only. -/
def called (s : EventLanes) (event : Ticket Event) : Handler → EventLanes
  | .books =>
    match event.item with
    | .report callback =>
      { s with engine.books := s.engine.books.handleEvent callback, log := .booked event :: s.log }
    | _ => s
  | .strategies number =>
    { s with
      log := .called number (s.manager.isAlive number) event (s.manager.told number event.item.instrument) :: s.log }

def callNext (s : EventLanes) (lane : Lane) : Option EventLanes :=
  match (s.lanes lane).thread with
  | .handling event (handler :: rest) =>
    some ((s.called event handler).onLane lane fun r => { r with thread := .handling event rest })
  | .handling _ [] => some (s.onLane lane fun r => { r with thread := .waiting })
  | _ => none

/-- The next call is made when the one before it has returned. -/
def atRest (s : EventLanes) (result : ErrorCode × EventLanes) : Option EventLanes :=
  if s.pending.isEmpty then some result.2 else none

def step (s : EventLanes) : LaneAction → Option EventLanes
  | .set part present => some { s with engine := s.engine.set present part }
  | .marketHealth healthy => some { s with engine := s.engine.onMarketHealthChanged healthy }
  | .init config clock answer => s.atRest (s.init config clock answer)
  | .addStrategy config given inits => s.atRest (s.addStrategy config given inits)
  | .loadStrategiesFromPlugins directory plugins strategies =>
    s.atRest (s.loadStrategiesFromPlugins directory plugins strategies)
  | .start world => s.atRest (s.start world)
  | .stop => s.atRest s.stop
  | .control =>
    match s.pending with
    | op :: rest => { s with pending := rest }.perform op
    | [] => none
  | .publish event =>
    some { s.onLane event.type.lane (·.publish ⟨s.published, event⟩) with published := s.published + 1 }
  | .runOnce lane => (s.lanes lane).runOnce.map fun r => s.onLane lane fun _ => r
  | .enter lane => (s.lanes lane).enter.map fun r => s.onLane lane fun _ => r
  | .call lane => s.callNext lane

end EventLanes

end Qtrade.Engine
