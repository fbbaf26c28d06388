import Mathlib.Data.Fintype.Sum
import Qtrade.Lib.Locks

/-!
# The mutexes of the engine

Every function of the engine with the mutexes it takes, the threads it joins, where it sleeps and the functions it
calls. A branch may go either way and a loop may take any number of rounds. Strategies, adapters and bridges are
called as the source calls them: a strategy may send orders, an adapter may call back, a bridge answers. Whether
anyone notifies a thread that sleeps is not said here.
-/

namespace Qtrade.Engine.Mutexes

open Locks (Code Item Move State WaitsFor Asleep next step idle held)
open Locks.Code

inductive Mutex
  | runtimeConfig | strategies | plugins | quoteHandlers | traderHandlers | dispatcher | quoteQueue | traderQueue
  | compliance | risk | orders | execution | account | positions | lifecycle | quoteHealth
deriving DecidableEq

inductive Worker
  | execution | quoteLane | traderLane | quoteHealth
deriving DecidableEq

instance : Fintype Worker where
  elems := {.execution, .quoteLane, .traderLane, .quoteHealth}
  complete := fun worker => by cases worker <;> decide

/-- Any number of callers beside the engine's own threads. -/
abbrev Party (n : Nat) := Fin n ⊕ Worker

variable {n : Nat}

/-! ## Functions of one mutex

A function that calls nobody with the mutex may also return before it takes it. -/

def ComplianceManager.call : Code Mutex (Party n) := may (critical .compliance)

def OrderManager.call : Code Mutex (Party n) := may (critical .orders)

def AccountManager.call : Code Mutex (Party n) := may (critical .account)

/-- The queries take a shared lock, here the same as the others. -/
def PositionManager.call : Code Mutex (Party n) := may (critical .positions)

def StrategyPluginLoader.call : Code Mutex (Party n) := may (critical .plugins)

def EngineLifecycle.transition : Code Mutex (Party n) := may (critical .lifecycle)

def EngineLifecycle.reason : Code Mutex (Party n) := critical .lifecycle

namespace RiskManager

def configure : Code Mutex (Party n) := may (critical .risk)

def version : Code Mutex (Party n) := critical .risk

def setStateProviders : Code Mutex (Party n) := critical .risk

/-- The limits are copied, and the order manager is asked without the mutex. -/
def checkOrder : Code Mutex (Party n) := may (all [critical .risk, OrderManager.call, OrderManager.call])

end RiskManager

/-! ## Orders -/

namespace ExecutionManager

/-- `SetTraderApi`, `SetOrderApi`, `SetAccountRiskBridge` and `SetAccountRiskIdentity`. -/
def set : Code Mutex (Party n) := critical .execution

/-- `Enqueue` and `EnqueueCancel` notify without the mutex. -/
def enqueue : Code Mutex (Party n) := critical .execution

def start : Code Mutex (Party n) := critical .execution

def stop : Code Mutex (Party n) :=
  upTo [critical .execution, may (join (.inr .execution)), critical .execution]

end ExecutionManager

namespace OrderPipeline

/-- The account-risk bridge is asked between these. -/
def submit : Code Mutex (Party n) :=
  upTo [ComplianceManager.call, RiskManager.checkOrder, OrderManager.call, may RiskManager.version,
    -- `CreateOrder`, `GetLifecycleState` and `MarkEmsQueued`.
    OrderManager.call, OrderManager.call, OrderManager.call,
    ExecutionManager.enqueue, OrderManager.call]

def submitBatch : Code Mutex (Party n) := loop submit

/-- `GetOrder`, `CancelOrder`, `EnqueueCancel` and `RecordCancelResult`. -/
def cancel : Code Mutex (Party n) :=
  upTo [OrderManager.call, OrderManager.call, ExecutionManager.enqueue, OrderManager.call]

end OrderPipeline

/-- What `MakeOrderSender` makes: `IsReady` needs no mutex. -/
def orderSender : Code Mutex (Party n) := may OrderPipeline.submitBatch

/-- What the code of a strategy can do. -/
def strategy : Code Mutex (Party n) := loop orderSender

/-! ## Lanes

A lane has the mutex of its queue, the mutex of its handlers and a thread. -/

namespace EventReactorLoop

def publish (queue : Mutex) : Code Mutex (Party n) := critical queue

def stop (queue : Mutex) (thread : Worker) : Code Mutex (Party n) :=
  may (all [may (join (.inr thread)), critical queue])

/-- An event is handled without the mutex of the queue. -/
def runLoop (queue : Mutex) (handleEvent : Code Mutex (Party n)) : Code Mutex (Party n) :=
  loop (upTo [await queue, handleEvent])

end EventReactorLoop

namespace EventReactor

def subscribe (handlers : Mutex) : Code Mutex (Party n) := critical handlers

/-- The handlers run with their mutex held. -/
def handleEvent (handlers : Mutex) (handler : Code Mutex (Party n)) : Code Mutex (Party n) :=
  hold handlers (loop handler)

def stop (queue handlers : Mutex) (thread : Worker) : Code Mutex (Party n) :=
  all [EventReactorLoop.stop queue thread, critical handlers]

end EventReactor

/-- Lane-T before Lane-Q. -/
def EventLanes.stop : Code Mutex (Party n) :=
  all [EventReactor.stop .traderQueue .traderHandlers .traderLane,
    EventReactor.stop .quoteQueue .quoteHandlers .quoteLane]

/-! ## Strategies -/

namespace StrategyEventDispatcher

/-- `OnTick`, `OnBar`, `OnOrder` and `OnTrade`: to one strategy or to all. -/
def onEvent : Code Mutex (Party n) := hold .dispatcher (may (either strategy (loop strategy)))

def setRouting : Code Mutex (Party n) := critical .dispatcher

def destroy : Code Mutex (Party n) := critical .dispatcher

def subscribe : Code Mutex (Party n) :=
  may (all [EventReactor.subscribe .quoteHandlers, EventReactor.subscribe .quoteHandlers,
    EventReactor.subscribe .traderHandlers, EventReactor.subscribe .traderHandlers])

end StrategyEventDispatcher

namespace StrategyManager

def pushRoutingToDispatcherLocked : Code Mutex (Party n) := may StrategyEventDispatcher.setRouting

/-- A dispatcher that was there before is destroyed. -/
def makeDispatcher : Code Mutex (Party n) :=
  all [may StrategyEventDispatcher.destroy, pushRoutingToDispatcherLocked, StrategyEventDispatcher.subscribe]

def registerStrategy : Code Mutex (Party n) := may (hold .strategies (may pushRoutingToDispatcherLocked))

def init : Code Mutex (Party n) :=
  upTo [critical .strategies, StrategyPluginLoader.call,
    -- `Create`, the strategy's own `Init`, its registration, and its end where one of these fails.
    loop (upTo [StrategyPluginLoader.call, strategy, registerStrategy, strategy]),
    hold .strategies makeDispatcher]

def start : Code Mutex (Party n) := hold .strategies (may (all [may makeDispatcher, loop strategy]))

/-- The strategies stop and are destroyed with the mutex held, the plugins are unloaded after it. -/
def stop : Code Mutex (Party n) :=
  all [hold .strategies (all [may StrategyEventDispatcher.destroy, loop strategy]), StrategyPluginLoader.call]

end StrategyManager

/-! ## Market health and adapters -/

def onMarketHealthChanged : Code Mutex (Party n) :=
  all [may EngineLifecycle.reason, EngineLifecycle.transition]

namespace QuoteHealthMonitor

/-- The handler is copied and called without the mutex. -/
def notifyHealthChanged : Code Mutex (Party n) := all [critical .quoteHealth, may onMarketHealthChanged]

/-- `OnValidTick` and `OnInvalidTick`. -/
def onTick : Code Mutex (Party n) := may notifyHealthChanged

def configure : Code Mutex (Party n) := may (critical .quoteHealth)

def setHealthChangedHandler : Code Mutex (Party n) := critical .quoteHealth

def start : Code Mutex (Party n) := critical .quoteHealth

def stop : Code Mutex (Party n) := upTo [critical .quoteHealth, may (join (.inr .quoteHealth))]

/-- The wait ends after the interval at the latest. -/
def watchHealth : Code Mutex (Party n) := loop (upTo [awaitFor .quoteHealth, may onMarketHealthChanged])

end QuoteHealthMonitor

def tickCallback : Code Mutex (Party n) :=
  may (upTo [QuoteHealthMonitor.onTick, EventReactorLoop.publish .quoteQueue])

def barCallback : Code Mutex (Party n) := may (EventReactorLoop.publish .quoteQueue)

/-- The callback for orders and the one for trades. -/
def traderCallback : Code Mutex (Party n) := may (EventReactorLoop.publish .traderQueue)

/-- An adapter may call back before it returns. -/
def adapter : Code Mutex (Party n) := loop (either tickCallback (either barCallback traderCallback))

/-! ## The engine's threads -/

def onTraderOrderReport : Code Mutex (Party n) :=
  all [OrderManager.call, OrderManager.call, may AccountManager.call]

def onTraderTradeReport : Code Mutex (Party n) :=
  all [OrderManager.call, AccountManager.call, PositionManager.call, OrderManager.call]

/-- `CancelOrder` and its result, or `MarkSendPending`, `SendOrder` and its result. -/
def ExecutionManager.handle : Code Mutex (Party n) :=
  either (all [adapter, OrderManager.call]) (all [OrderManager.call, adapter, OrderManager.call])

def ExecutionManager.run : Code Mutex (Party n) := loop (upTo [await .execution, ExecutionManager.handle])

def Worker.run : Worker → Code Mutex (Party n)
  | .execution => ExecutionManager.run
  | .quoteLane =>
    EventReactorLoop.runLoop .quoteQueue (EventReactor.handleEvent .quoteHandlers StrategyEventDispatcher.onEvent)
  | .traderLane =>
    EventReactorLoop.runLoop .traderQueue (EventReactor.handleEvent .traderHandlers
      (either onTraderOrderReport (either onTraderTradeReport StrategyEventDispatcher.onEvent)))
  | .quoteHealth => QuoteHealthMonitor.watchHealth

/-! ## `TradingEngine` -/

namespace TradingEngine

/-- `SubscribeQuote` and `UnsubscribeQuote`. -/
def subscribeQuote : Code Mutex (Party n) := may adapter

def getRuntimeConfig : Code Mutex (Party n) := critical .runtimeConfig

/-- Only the check of the version moves the lifecycle with the mutex held. -/
def onEngineConfig : Code Mutex (Party n) :=
  upTo [EngineLifecycle.transition, hold .runtimeConfig EngineLifecycle.transition,
    RiskManager.configure, EngineLifecycle.transition, ComplianceManager.call, EngineLifecycle.transition,
    critical .runtimeConfig, subscribeQuote, subscribeQuote]

/-- The adapters are disconnected before the lanes stop, and destroyed at the end. -/
def release : Code Mutex (Party n) :=
  all [StrategyManager.stop, QuoteHealthMonitor.stop, ExecutionManager.stop, adapter, EventLanes.stop,
    OrderManager.call, adapter]

def applyBootstrapConfig : Code Mutex (Party n) :=
  all [QuoteHealthMonitor.configure, either EngineLifecycle.transition QuoteHealthMonitor.setHealthChangedHandler]

def fetchRuntimeConfig : Code Mutex (Party n) := may (either EngineLifecycle.transition onEngineConfig)

def initEngineModules : Code Mutex (Party n) :=
  all [OrderManager.call, either EngineLifecycle.transition
    (all [RiskManager.setStateProviders, ExecutionManager.set,
      may (all [ExecutionManager.set, ExecutionManager.set])])]

/-- With `ValidateSupportBridges` and `InitAdapters`, which only move the lifecycle. -/
def init : Code Mutex (Party n) :=
  may (all [
    upTo [applyBootstrapConfig, EngineLifecycle.transition, fetchRuntimeConfig, initEngineModules,
      EngineLifecycle.transition, EngineLifecycle.transition, EngineLifecycle.reason, EngineLifecycle.transition],
    may release])

def startAdapters : Code Mutex (Party n) :=
  all [EngineLifecycle.transition, EngineLifecycle.transition, adapter, EngineLifecycle.transition]

def synchronizeBrokerState : Code Mutex (Party n) :=
  upTo [adapter,
    loop (all [OrderManager.call, OrderManager.call, may (all [OrderManager.call, AccountManager.call])]),
    loop (all [OrderManager.call, OrderManager.call, may OrderManager.call]),
    PositionManager.call, AccountManager.call, OrderManager.call]

def syncBrokerSnapshot : Code Mutex (Party n) := all [synchronizeBrokerState, EngineLifecycle.transition]

def startEventLanes : Code Mutex (Party n) :=
  all [EventReactor.subscribe .traderHandlers, EventReactor.subscribe .traderHandlers, QuoteHealthMonitor.start]

def startEngineModules : Code Mutex (Party n) :=
  all [StrategyManager.start, ExecutionManager.set, ExecutionManager.start]

def startMarketData : Code Mutex (Party n) := all [critical .runtimeConfig, may subscribeQuote]

def start : Code Mutex (Party n) :=
  upTo [EngineLifecycle.transition, startAdapters, syncBrokerSnapshot, startEventLanes, startEngineModules,
    startMarketData, may onMarketHealthChanged]

def stop : Code Mutex (Party n) := all [EngineLifecycle.transition, release, EngineLifecycle.transition]

/-- The members stop once more, the last one first. -/
def destroy : Code Mutex (Party n) :=
  all [stop, ExecutionManager.stop, OrderManager.call, adapter, QuoteHealthMonitor.stop, StrategyManager.stop,
    EventLanes.stop]

/-- The strategy is destroyed where it is not registered. -/
def addStrategy : Code Mutex (Party n) := upTo [strategy, StrategyManager.registerStrategy, strategy]

def loadStrategiesFromPlugins : Code Mutex (Party n) := upTo [getRuntimeConfig, StrategyManager.init]

end TradingEngine

/-- What is called from outside: the engine and what its accessors give, the callbacks from the adapters' own threads,
and the orders that strategies send from theirs. -/
def entries : List (Code Mutex (Party n)) :=
  [TradingEngine.init, TradingEngine.start, TradingEngine.stop, TradingEngine.destroy, TradingEngine.addStrategy,
    TradingEngine.loadStrategiesFromPlugins, TradingEngine.onEngineConfig, TradingEngine.getRuntimeConfig,
    TradingEngine.subscribeQuote, tickCallback, barCallback, traderCallback, orderSender, OrderPipeline.submitBatch,
    OrderPipeline.cancel, EngineLifecycle.reason, StrategyManager.init, StrategyManager.registerStrategy,
    StrategyManager.start, StrategyManager.stop, OrderManager.call, AccountManager.call, PositionManager.call,
    EventReactor.subscribe .quoteHandlers, EventReactor.subscribe .traderHandlers, EventLanes.stop,
    EventReactorLoop.publish .quoteQueue, EventReactorLoop.publish .traderQueue]

/-- What a party may enter: a caller one of these, and a thread of the engine its loop. -/
def offered : Party n → List (Code Mutex (Party n))
  | .inl _ => entries
  | .inr worker => [worker.run]

def Enters (_ : State Mutex (Party n)) (a : Party n × Move Mutex (Party n)) : Prop :=
  match a.2 with
  | .enter code => code ∈ offered a.1
  | .go | .turn | .wake => True

instance (s : State Mutex (Party n)) (a : Party n × Move Mutex (Party n)) : Decidable (Enters s a) := by
  unfold Enters
  split <;> infer_instance

/-! ## The order of the mutexes -/

def rank : Mutex → Nat
  | .runtimeConfig | .strategies => 0
  | .quoteHandlers | .traderHandlers => 1
  | .dispatcher => 2
  | _ => 3

/-- Only a caller joins, and only a thread of the engine sleeps. -/
def level : Party n → Nat
  | .inl _ => 1
  | .inr _ => 0

theorem entries_ordered : ∀ code ∈ entries (n := n), code.ordered rank level 1 0 = true :=
  List.all_eq_true.mp rfl

theorem run_ordered (worker : Worker) : (worker.run (n := n)).ordered rank level 0 0 = true := by
  cases worker <;> rfl

theorem enters_ordered (s : State Mutex (Party n)) (a : Party n × Move Mutex (Party n)) (h : Enters s a) :
    Locks.Enters rank level s a := by
  obtain ⟨party, move⟩ := a
  cases move with
  | enter code =>
    cases party with
    | inl caller => exact entries_ordered code h
    | inr worker =>
      rw [List.mem_singleton.mp h]
      exact run_ordered worker
  | go => trivial
  | turn => trivial
  | wake => trivial

theorem rank_lt (mutex : Mutex) : rank mutex < 4 := by
  cases mutex <;> decide

/-- Whoever waits for a mutex, which it does not hold, waits, perhaps through others, for one that goes on. Whoever
waits at all waits for such a one or for one that sleeps, and that is a thread of the engine that holds nothing. -/
theorem no_deadlock {s : State Mutex (Party n)} (h : Runs.Reaches step Enters idle s) (party : Party n) :
    (∀ mutex body rest, s party = .run (.hold mutex body) :: rest → mutex ∉ held rest ∧
      ∃ other, Relation.ReflTransGen (WaitsFor s) party other ∧ (next s other .go).isSome = true) ∧
    (s party ≠ [] → ∃ other, Relation.ReflTransGen (WaitsFor s) party other ∧
      ((next s other .go).isSome = true ∨ Asleep s other)) ∧
    (Asleep s party → held (s party) = [] ∧ ∃ worker, party = .inr worker) := by
  have hdisciplined := Locks.disciplined_reaches (h.mono enters_ordered)
  refine ⟨fun mutex body rest htop => ?_, hdisciplined.goes_on rank_lt _ party rfl, fun hasleep => ?_⟩
  · exact ⟨hdisciplined.not_again htop, hdisciplined.taker_goes_on rank_lt htop⟩
  · obtain ⟨hheld, hlevel⟩ := hdisciplined.asleep_unheld hasleep
    refine ⟨hheld, ?_⟩
    cases party with
    | inl caller => cases hlevel
    | inr worker => exact ⟨worker, rfl⟩

def moves (party : Party n) : List (Move Mutex (Party n)) → List (Party n × Move Mutex (Party n)) :=
  List.map (party, ·)

/-- Stops the engine while a strategy sends an order for a quote and somebody else is in the order manager. Lane-T has
nothing to do. -/
def stopWhileTrading : List (Party 2 × Move Mutex (Party 2)) :=
  moves (.inr .traderLane) (.enter Worker.traderLane.run :: List.replicate 8 .go) ++
    moves (.inl 1) [.enter OrderManager.call, .go, .go] ++
    moves (.inr .quoteLane) ([.enter Worker.quoteLane.run, .go, .go, .go, .turn] ++ List.replicate 27 .go) ++
    moves (.inl 0) ([.enter TradingEngine.stop, .go, .turn] ++ List.replicate 7 .go)

theorem no_deadlock_stopWhileTrading : ∃ s : State Mutex (Party 2), Runs.Reaches step Enters idle s ∧
    WaitsFor s (.inl 0) (.inr .quoteLane) ∧ WaitsFor s (.inr .quoteLane) (.inl 1) ∧ Asleep s (.inr .traderLane) ∧
    ∃ other, Relation.ReflTransGen (WaitsFor s) (.inl 0) other ∧ (next s other .go).isSome = true := by
  have hrun : ∃ s ∈ Runs.execWhile step Enters idle stopWhileTrading,
      ((s (.inl 0)).head? = some (.run (critical .dispatcher)) ∧ .dispatcher ∈ held (s (.inr .quoteLane))) ∧
        ((s (.inr .quoteLane)).head? = some (.run (critical .orders)) ∧ .orders ∈ held (s (.inl 1))) ∧
        (s (.inr .traderLane)).head? = some (.run .sleep) := by
    decide +kernel
  obtain ⟨s, hs, ⟨hcaller, hdispatcher⟩, ⟨hlane, horders⟩, hasleep⟩ := hrun
  have hreach := Runs.reaches_of_execWhile _ hs
  obtain ⟨rest, hcaller⟩ := List.head?_eq_some_iff.mp hcaller
  obtain ⟨laneRest, hlane⟩ := List.head?_eq_some_iff.mp hlane
  exact ⟨s, hreach, .lock hcaller hdispatcher, .lock hlane horders, List.head?_eq_some_iff.mp hasleep,
    ((no_deadlock hreach (.inl 0)).1 _ _ _ hcaller).2⟩

end Qtrade.Engine.Mutexes
