import Qtrade.Engine.EventLanes

/-!
# Strategies and what they are told

`strategy_manager.cpp` and `strategy_event_dispatcher.cpp` with the strategies as objects, the table of the routes
and the handlers that a dispatcher subscribes. A map has no order, and so has the list that is built from it.
-/

namespace Qtrade.Strategy

open Engine (NamedStrategy Event EventType)

/-- A strategy, known by its address. -/
structure IStrategy where
  address : Nat
deriving DecidableEq

/-! ## The dispatcher -/

structure StrategyEventDispatcher where
  number : Nat
  active : Bool := false
  subscribed : Bool := false
  instrumentRoutes : Table String IStrategy := ∅
  strategies : Multiset IStrategy := 0

namespace StrategyEventDispatcher

def setRouting (s : StrategyEventDispatcher) (instrumentRoutes : Table String IStrategy)
    (strategies : Multiset IStrategy) : StrategyEventDispatcher :=
  { s with instrumentRoutes, strategies }

def setActive (s : StrategyEventDispatcher) (active : Bool) : StrategyEventDispatcher := { s with active }

/-- The strategies that are told. What one of them throws does not keep it from the others. -/
def recipients (s : StrategyEventDispatcher) (instrument : String) : Multiset IStrategy :=
  if !s.active then 0
  else
    match s.instrumentRoutes.lookup instrument with
    | some strategy => {strategy}
    | none => s.strategies

def onTick (s : StrategyEventDispatcher) (instrument : String) : Multiset IStrategy := s.recipients instrument

def onBar (s : StrategyEventDispatcher) (instrument : String) : Multiset IStrategy := s.recipients instrument

def onOrder (s : StrategyEventDispatcher) (order : Order) : Multiset IStrategy := s.recipients order.instrument

def onTrade (s : StrategyEventDispatcher) (trade : Trade) : Multiset IStrategy := s.recipients trade.instrument

/-- What the handlers that `Subscribe` makes do. -/
def handle (s : StrategyEventDispatcher) : Event → Multiset IStrategy
  | .tick instrument => s.onTick instrument
  | .bar instrument => s.onBar instrument
  | .report (.order order) => s.onOrder order
  | .report (.trade trade) => s.onTrade trade

theorem handle_eq (s : StrategyEventDispatcher) (event : Event) : s.handle event = s.recipients event.instrument := by
  cases event with
  | report callback => cases callback <;> rfl
  | _ => rfl

end StrategyEventDispatcher

/-! ## The manager -/

structure StrategyEntry where
  strategy : IStrategy
  instruments : List String
deriving DecidableEq

/-- A strategy of the configuration, and what comes of its `Create` and of its own `Init`. -/
structure PluginStrategy extends NamedStrategy where
  created : Option IStrategy := none
  initialized : ErrorCode := .success

/-- `handlers` are those on the lanes, each with the number of its dispatcher, and `made` is how many dispatchers
there were. -/
structure StrategyManager where
  running : Bool := false
  strategies : Table String StrategyEntry := ∅
  instrumentRoutes : Table String IStrategy := ∅
  dispatcher : Option StrategyEventDispatcher := none
  made : Nat := 0
  handlers : EventType → List Nat := fun _ => []

namespace StrategyManager

def buildStrategyList (s : StrategyManager) : Multiset IStrategy := Table.valuesBy (·.strategy) s.strategies

def pushRoutingToDispatcher (s : StrategyManager) : StrategyManager :=
  { s with dispatcher := s.dispatcher.map (·.setRouting s.instrumentRoutes s.buildStrategyList) }

/-- A null pointer is `none`. -/
def registerStrategy (s : StrategyManager) (strategyId : String) (strategy : Option IStrategy)
    (instruments : List String) : ErrorCode × StrategyManager :=
  match strategy with
  | none => (.invalidArgument, s)
  | some raw =>
    if strategyId = "" then (.invalidArgument, s)
    else if s.running then (.alreadyStarted, s)
    else if (s.strategies.lookup strategyId).isSome then (.systemError, s)
    else if instruments.any fun instrument => instrument == "" || (s.instrumentRoutes.lookup instrument).isSome then
      (.systemError, s)
    else
      (.success, pushRoutingToDispatcher
        { s with
          instrumentRoutes :=
            instruments.foldl (fun routes instrument => routes.insert instrument raw) s.instrumentRoutes
          strategies := s.strategies.insert strategyId { strategy := raw, instruments } })

/-- The loop of `Init`. -/
def initStrategies (s : StrategyManager) : List PluginStrategy → ErrorCode × StrategyManager
  | [] => (.success, s)
  | config :: configs =>
    if !config.enabled then s.initStrategies configs
    else
      match config.created with
      | none => (.dynamicLibrarySymbolNotFound, s)
      | some raw =>
        if config.initialized ≠ .success then (.internalError, s)
        else
          let result := s.registerStrategy config.strategyId (some raw) config.instruments
          if result.1 ≠ .success then (.systemError, result.2) else result.2.initStrategies configs

/-- `StrategyEventDispatcher::Subscribe`: a handler for each type of event. -/
def subscribe (s : StrategyManager) : StrategyManager :=
  match s.dispatcher with
  | some dispatcher =>
    if dispatcher.subscribed then s
    else
      { s with
        dispatcher := some { dispatcher with subscribed := true }
        handlers := fun type => s.handlers type ++ [dispatcher.number] }
  | none => s

/-- The one that it replaces is destroyed, and its handlers stay. -/
def makeDispatcher (s : StrategyManager) : StrategyManager :=
  (pushRoutingToDispatcher { s with dispatcher := some { number := s.made }, made := s.made + 1 }).subscribe

/-- `loaded` is what `LoadStrategyPlugin` answers. -/
def init (s : StrategyManager) (loaded : ErrorCode) (strategies : List PluginStrategy) :
    ErrorCode × StrategyManager :=
  if s.running then (.alreadyStarted, s)
  else if loaded ≠ .success then (.dynamicLibraryLoadError, s)
  else
    let result := s.initStrategies strategies
    if result.1 ≠ .success then result else (.success, result.2.makeDispatcher)

/-- What a strategy's own `Start` answers is only logged. -/
def start (s : StrategyManager) : ErrorCode × StrategyManager :=
  if s.running then (.alreadyStarted, s)
  else
    let s := if s.dispatcher.isNone then s.makeDispatcher else s
    (.success, { s with dispatcher := s.dispatcher.map (·.setActive true), running := true })

def stop (s : StrategyManager) : StrategyManager :=
  { s with dispatcher := none, running := false, strategies := ∅, instrumentRoutes := ∅ }

/-- `TradingEngine::Release`: the lanes stop after the strategies, and drop their handlers. -/
def release (s : StrategyManager) : StrategyManager := { s.stop with handlers := fun _ => [] }

/-- What a handler does. It must not be called when its dispatcher is gone. -/
def call (s : StrategyManager) (event : Event) (number : Nat) : Option (Multiset IStrategy) :=
  match s.dispatcher with
  | some dispatcher => if dispatcher.number = number then some (dispatcher.handle event) else none
  | none => none

/-- The strategies that an event on its lane is told to. -/
def told (s : StrategyManager) (event : Event) : Option (Multiset IStrategy) :=
  ((s.handlers event.type).mapM (s.call event)).map List.sum

end StrategyManager

end Qtrade.Strategy
