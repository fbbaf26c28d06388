import Qtrade.Engine.Lane
import Qtrade.Engine.TradingEngine
import Qtrade.Engine.Venue
import Qtrade.Lib.Runs

/-!
# `Start` beside a venue that does not wait

The steps of `TradingEngine::Start` that touch the books, one by one, beside a venue whose orders
are filled and ended meanwhile. Each of these events calls back once, at any time after it happened.
-/

namespace Qtrade.Engine

open Qtrade.Oms
open Qtrade.Oms.OrderManager

/-! ## Lane-T -/

namespace Books

/-- The release of the reservation that may follow goes to the bridge. -/
def onTraderOrderReport (s : Books) (report : Order) : Books :=
  let s := { s with oms := s.oms.applyOrderReport report }
  match s.local? report.orderId report.clientOrderId with
  | some known => { s with account := s.account.applyOrder known }
  | none => s

def onTraderTradeReport (s : Books) (report : Trade) : Books :=
  { oms := s.oms.applyTradeReport report
    account := s.account.applyTrade report
    position := s.position.applyTrade report }

def handleEvent (s : Books) : Callback → Books
  | .order report => s.onTraderOrderReport report
  | .trade report => s.onTraderTradeReport report

end Books

/-! ## The steps of `Start` -/

inductive Stage
  | queryOrders | queryTrades | queryPositions | queryAsset | applySnapshot | startEventLanes
  | startEngineModules | finished | failed
deriving DecidableEq

def Stage.rank : Stage → Nat
  | .queryOrders => 0
  | .queryTrades => 1
  | .queryPositions => 2
  | .queryAsset => 3
  | .applySnapshot => 4
  | .startEventLanes => 5
  | .startEngineModules => 6
  | .finished => 7
  | .failed => 8

/-- The last three numbers say how many fills had happened when the queries were answered. -/
structure StartSequence where
  venue : Venue
  inFlight : List Callback := []
  stage : Stage := .queryOrders
  snapshot : BrokerSnapshot := {}
  books : Books := {}
  lane : EventReactorLoop := {}
  running : Bool := false
  ordersSeen : Nat := 0
  tradesSeen : Nat := 0
  positionsSeen : Nat := 0

inductive StartAction
  | fill (trade : Trade)
  | finish (orderId : String) (status : OrderStatusType)
  | deliver (callback : Callback)
  | queryOrders
  | queryTrades
  | queryPositions (positions : List Qtrade.Position)
  | queryAsset (asset : AccountAsset)
  | applySnapshot
  | startEventLanes
  | startEngineModules
  | handle

namespace StartSequence

def isValid : Callback → Bool
  | .order report => isValidOrder report
  | .trade report => isValidTrade report

/-- What the broker says of positions and funds is up to the broker. -/
def step (s : StartSequence) : StartAction → Option StartSequence
  | .fill trade =>
    (s.venue.fill trade).map fun venue => { s with venue, inFlight := s.inFlight ++ [.trade trade] }
  | .finish orderId status =>
    (s.venue.finish orderId status).map fun r =>
      { s with venue := r.1, inFlight := s.inFlight ++ [.order r.2] }
  | .deliver callback =>
    if callback ∈ s.inFlight then
      some { s with
        inFlight := s.inFlight.erase callback
        lane := if s.running && isValid callback then s.lane.publish callback else s.lane }
    else none
  | .queryOrders =>
    if s.stage = .queryOrders then
      some { s with
        stage := .queryTrades
        snapshot.orders := s.venue.orders
        ordersSeen := s.venue.trades.length }
    else none
  | .queryTrades =>
    if s.stage = .queryTrades then
      some { s with
        stage := .queryPositions
        snapshot.trades := s.venue.trades
        tradesSeen := s.venue.trades.length }
    else none
  | .queryPositions positions =>
    if s.stage = .queryPositions then
      some { s with
        stage := .queryAsset
        snapshot.positions := positions
        positionsSeen := s.venue.trades.length }
    else none
  | .queryAsset asset =>
    if s.stage = .queryAsset then some { s with stage := .applySnapshot, snapshot.asset := asset } else none
  | .applySnapshot =>
    if s.stage = .applySnapshot then
      let result := s.books.synchronize s.snapshot
      some { s with books := result.2, stage := if result.1 = .success then .startEventLanes else .failed }
    else none
  | .startEventLanes =>
    if s.stage = .startEventLanes then
      some { s with stage := .startEngineModules, lane.accepting := true }
    else none
  | .startEngineModules =>
    if s.stage = .startEngineModules then some { s with stage := .finished, running := true } else none
  | .handle =>
    match s.lane.queue with
    | event :: rest =>
      if s.lane.accepting then
        some { s with lane.queue := rest, books := s.books.handleEvent event }
      else none
    | [] => none

/-! ## `Start` undisturbed -/

/-- `SyncBrokerSnapshot`, query by query. -/
def synchronizing (positions : List Qtrade.Position) (asset : AccountAsset) : List StartAction :=
  [.queryOrders, .queryTrades, .queryPositions positions, .queryAsset asset, .applySnapshot]

theorem startAdapters_connected {engine : TradingEngine} {world : Surroundings}
    (hquote : (engine.quoteApi && world.quoteConnected) = true)
    (htrader : (engine.traderApi && world.traderConnected) = true) :
    engine.startAdapters world = (.success, engine) := by
  obtain ⟨hq, hqc⟩ := Bool.and_eq_true_iff.mp hquote
  obtain ⟨ht, htc⟩ := Bool.and_eq_true_iff.mp htrader
  simp [TradingEngine.startAdapters, TradingEngine.initAdapters, hq, hqc, ht, htc]

theorem advanceReadyGates_books (engine : TradingEngine) (world : Surroundings) :
    (engine.advanceReadyGates world).books = engine.books := by
  unfold TradingEngine.advanceReadyGates TradingEngine.onMarketHealthChanged
  repeat' split
  all_goals rfl

/-- Beside a venue that waits, the steps are those of `Start`. -/
theorem exec_synchronizing {s : StartSequence} {engine : TradingEngine} {world : Surroundings}
    {positions : List Qtrade.Position} {asset : AccountAsset} (hstage : s.stage = .queryOrders)
    (hbooks : s.books = engine.books) (hinit : engine.initialized = true) (hrunning : engine.running = false)
    (hstate : engine.lifecycle.state = .initiated)
    (hquote : (engine.quoteApi && world.quoteConnected) = true)
    (htrader : (engine.traderApi && world.traderConnected) = true)
    (hsnapshot : world.snapshot =
      some { orders := s.venue.orders, trades := s.venue.trades, positions, asset }) :
    ∃ s', Runs.exec step s (synchronizing positions asset) = some s' ∧
      s'.books = (engine.start world).2.books ∧
      (s'.stage = .startEventLanes ↔ (engine.start world).1 = .success) := by
  refine ⟨_, by simp [Runs.exec, synchronizing, step, hstage]; rfl, ?_⟩
  simp only [TradingEngine.start, hinit, hrunning, hstate, TradingEngine.andThen,
    startAdapters_connected hquote htrader, TradingEngine.syncBrokerSnapshot, htrader, hsnapshot, hbooks]
  generalize engine.books.synchronize _ = result
  obtain ⟨code, books⟩ := result
  by_cases hok : code = .success
  · subst hok
    constructor
    · simp [advanceReadyGates_books, TradingEngine.startEngineModules]
    · simp
  · constructor
    · simp [hok, TradingEngine.request]
    · simp [hok]

end StartSequence

end Qtrade.Engine
