import Qtrade.Account
import Qtrade.Cms
import Qtrade.Ems
import Qtrade.Lib.Calls
import Qtrade.Oms.OrderManager
import Qtrade.Position
import Qtrade.Risk

/-!
# The trading threads

Calls of `OrderPipeline::Submit` and `OrderPipeline::Cancel`, the EMS worker and Lane-T run
beside each other. One step is what a thread does under one lock, or one call across a border
(bridge or trader); the answers at the borders are inputs. Events of the borders are logged.
-/

namespace Qtrade.Trading

open Qtrade.Ems (WorkItem ExecutionManager)
open Qtrade.Oms (OrderManager OrderLifecycleState)
open Qtrade.Risk (RiskManager)

/-! ## Program counters -/

inductive SubmitPc
  | compliance (request : OrderRequest)
  | risk (request : OrderRequest)
  | riskOpenOrders (request : OrderRequest) (budget : RiskManager)
  | riskNotional (request : OrderRequest) (budget : RiskManager)
  | duplicate (request : OrderRequest)
  | allocate (request : OrderRequest)
  | reserve (request : OrderRequest) (orderId : String)
  | query (request : OrderRequest) (orderId : String)
  | create (request : OrderRequest) (orderId : String)
  | lifecycle (request : OrderRequest) (order : Order)
  | markQueued (request : OrderRequest) (order : Order)
  | enqueue (request : OrderRequest) (order : Order)
  | recordFailure (request : OrderRequest) (order : Order) (rc : ErrorCode)
  | release (request : OrderRequest) (orderId : String) (rc : ErrorCode)
  | done (request : OrderRequest) (rc : ErrorCode)
  | threw (request : OrderRequest)
deriving DecidableEq

inductive CancelPc
  | getOrder (orderId : String)
  | cancelOrder (orderId : String) (order : Order)
  | enqueueCancel (orderId : String) (order : Order)
  | recordFailure (orderId : String) (rc : ErrorCode)
  | done (orderId : String) (rc : ErrorCode)
deriving DecidableEq

inductive CallPc
  | submit (pc : SubmitPc)
  | cancel (pc : CancelPc)
deriving DecidableEq

inductive WorkerPc
  | idle
  | cancelling (request : CancelOrderRequest)
  | cancelled (request : CancelOrderRequest) (rc : ErrorCode)
  | dequeued (order : Order)
  | refused (order : Order) (rc : ErrorCode)
  | marked (order : Order)
  | sending (order : Order)
  | returned (order : Order) (rc : ErrorCode)
  | releasing (orderId : String)
deriving DecidableEq

inductive LanePc
  | idle
  | orderApplied (report : Order)
  | accountOrder (report known : Order)
  | tradeApplied (report : Trade)
  | accountTraded (report : Trade)
  | positionTraded (report : Trade)
  | releasing (orderId : String) (reason : ReleaseReason)
deriving DecidableEq

/-! ## The shared state -/

inductive Event
  | compliance (call : Nat) (request : OrderRequest) (answer : ErrorCode)
  | risk (call : Nat) (request : OrderRequest) (answer : ErrorCode)
  | reserve (intent : OrderIntent) (answer : Result ReserveOrderResult)
  | query (orderId : String) (answer : Result Reservation)
  | created (call : Nat) (orderId : String) (order : Order)
  | enqueue (order : Order) (answer : ErrorCode) (lifecycle : Option OrderLifecycleState)
  | sent (orderId : String) (request : OrderRequest)
  | released (orderId : String) (reason : ReleaseReason) (lifecycle : Option OrderLifecycleState)
deriving DecidableEq

/-- `bridge` says whether an account-risk bridge is set. The newest event comes first. -/
structure Shared where
  engineId : String := ""
  bridge : Bool := false
  compliance : Cms.ComplianceManager := {}
  risk : RiskManager := {}
  oms : OrderManager := {}
  ems : ExecutionManager := {}
  account : Account.AccountManager := {}
  position : Position.PositionManager := {}
  worker : WorkerPc := .idle
  lane : LanePc := .idle
  log : List Event := []

namespace Shared

def emit (s : Shared) (event : Event) : Shared := { s with log := event :: s.log }

/-- `ReleaseOrder`, with the lifecycle that the order has at this moment. -/
def release (s : Shared) (orderId : String) (reason : ReleaseReason) : Shared :=
  if s.bridge && orderId != "" then s.emit (.released orderId reason (s.oms.getLifecycleState orderId))
  else s

/-! ## `Submit` -/

def intent (s : Shared) (request : OrderRequest) (orderId : String) : OrderIntent where
  orderId
  engineId := s.engineId
  instrumentId := request.instrument
  side := toString request.side.code
  price := request.price
  quantity := UInt64.ofInt request.volume
  estimatedNotional := request.price * Double.ofInt request.volume

/-- The outcome of the reservation is not known and has to be asked for. -/
def reserveUnknown (answer : Result ReserveOrderResult) : Bool :=
  answer.errorCode == .timeout ||
    (answer.errorCode == .success && answer.data.any (·.decision == .unknown))

def reserveApproved (answer : Result ReserveOrderResult) : Bool :=
  answer.errorCode == .success && answer.data.any (·.decision == .approved)

def queryReserved (answer : Result Reservation) : Bool :=
  answer.errorCode == .success && answer.data.any (·.status == "reserved")

inductive Answer
  | silent
  | reserved (answer : Result ReserveOrderResult)
  | queried (answer : Result Reservation)
deriving DecidableEq

def submitNext (s : Shared) (call : Nat) : SubmitPc → Answer → Option (Shared × SubmitPc)
  | .compliance request, .silent =>
    let rc := s.compliance.checkOrder request
    some (s.emit (.compliance call request rc), if rc = .success then .risk request else .done request rc)
  | .risk request, .silent =>
    let rc := s.risk.checkRequest request
    if rc = .success then some (s, .riskOpenOrders request s.risk)
    else some (s.emit (.risk call request rc), .done request rc)
  | .riskOpenOrders request budget, .silent =>
    let rc := budget.checkOpenOrders s.oms.getActiveOrderCount
    if rc = .success then some (s, .riskNotional request budget)
    else some (s.emit (.risk call request rc), .done request rc)
  | .riskNotional request budget, .silent =>
    let rc := budget.checkTotalNotional request s.oms.getOpenNotional
    some (s.emit (.risk call request rc), if rc = .success then .duplicate request else .done request rc)
  | .duplicate request, .silent =>
    if request.clientOrderId ≠ 0 ∧ (s.oms.getOrderByClientId request.clientOrderId).isSome then
      some (s, .done request .success)
    else some (s, .allocate request)
  | .allocate request, .silent =>
    let allocated := s.oms.allocateOrderId
    some ({ s with oms := allocated.2 },
      if s.bridge then .reserve request allocated.1 else .create request allocated.1)
  | .reserve request orderId, .reserved answer =>
    some (s.emit (.reserve (s.intent request orderId) answer),
      if reserveUnknown answer then .query request orderId
      else if reserveApproved answer then .create request orderId
      else .done request (if answer.errorCode = .success then .internalError else answer.errorCode))
  | .query request orderId, .queried answer =>
    some (s.emit (.query orderId answer),
      if queryReserved answer then .create request orderId
      else .done request (if answer.errorCode = .notFound then .timeout else answer.errorCode))
  | .create request orderId, .silent =>
    match s.oms.createOrder request orderId with
    | (.ok (some order), oms) =>
      some ({ s with oms }.emit (.created call orderId order), .lifecycle request order)
    | (.ok none, oms) => some ({ s with oms }, .release request orderId .notInitialized)
    | (.error _, oms) => some ({ s with oms }, .threw request)
  | .lifecycle request order, .silent =>
    if (s.oms.getLifecycleState order.orderId).any (· ≠ .prepared) then some (s, .done request .success)
    else some (s, .markQueued request order)
  | .markQueued request order, .silent =>
    let marked := s.oms.markEmsQueued order.orderId
    some ({ s with oms := marked.2 },
      if marked.1 = .success then .enqueue request order else .release request order.orderId marked.1)
  | .enqueue request order, .silent =>
    let queued := s.ems.enqueue order
    some ({ s with ems := queued.2 }.emit
        (.enqueue order queued.1 (s.oms.getLifecycleState order.orderId)),
      if queued.1 = .success then .done request .success else .recordFailure request order queued.1)
  | .recordFailure request order rc, .silent =>
    some ({ s with oms := (s.oms.recordSendResult order.orderId rc).2 }, .release request order.orderId rc)
  | .release request orderId rc, .silent => some (s.release orderId .emsEnqueueFailed, .done request rc)
  | _, _ => none

/-! ## `Cancel` -/

def cancelNext (s : Shared) : CancelPc → Option (Shared × CancelPc)
  | .getOrder orderId =>
    match s.oms.getOrder orderId with
    | none => some (s, .done orderId .notFound)
    | some order => some (s, .cancelOrder orderId order)
  | .cancelOrder orderId order =>
    let cancelled := s.oms.cancelOrder orderId
    some ({ s with oms := cancelled.2 },
      if cancelled.1 = .success then .enqueueCancel orderId order else .done orderId cancelled.1)
  | .enqueueCancel orderId order =>
    let queued := s.ems.enqueueCancel { orderId, brokerOrderId := order.brokerOrderId }
    some ({ s with ems := queued.2 },
      if queued.1 = .success then .done orderId .success else .recordFailure orderId queued.1)
  | .recordFailure orderId rc =>
    some ({ s with oms := (s.oms.recordCancelResult orderId rc).2 }, .done orderId rc)
  | .done _ _ => none

/-! ## The EMS worker -/

/-- What the worker does by itself. Without a trader both calls fail at once. -/
def workerStep (s : Shared) : Option Shared :=
  match s.worker with
  | .idle =>
    match s.ems.pendingItems with
    | [] => none
    | .cancel request :: rest =>
      some { s with ems := { s.ems with pendingItems := rest }, worker := .cancelling request }
    | .send order :: rest =>
      some { s with ems := { s.ems with pendingItems := rest }, worker := .dequeued order }
  | .cancelling request =>
    if s.ems.traderApi then none else some { s with worker := .cancelled request .notInitialized }
  | .cancelled request rc =>
    some { s with oms := (s.oms.recordCancelResult request.orderId rc).2, worker := .idle }
  | .dequeued order =>
    let marked := s.oms.markSendPending order.orderId
    some { s with
      oms := marked.2
      worker := if marked.1 = .success then .marked order else .refused order marked.1 }
  | .refused order rc =>
    some { s with
      oms := (s.oms.recordSendResult order.orderId rc).2
      worker := .releasing order.orderId }
  | .marked order =>
    if s.ems.traderApi then
      some ({ s with worker := .sending order }.emit
        (.sent order.orderId (ExecutionManager.sendRequest order)))
    else some { s with worker := .returned order .notInitialized }
  | .sending _ => none
  | .returned order rc =>
    some { s with
      oms := (s.oms.recordSendResult order.orderId rc).2
      worker := if rc = .success then .idle else .releasing order.orderId }
  | .releasing orderId => some ({ s with worker := .idle }.release orderId .emsEnqueueFailed)

/-- `SendOrder` or `CancelOrder` returns. -/
def traderReturns (s : Shared) (rc : ErrorCode) : Option Shared :=
  match s.worker with
  | .cancelling request =>
    if s.ems.traderApi then some { s with worker := .cancelled request rc } else none
  | .sending order => some { s with worker := .returned order rc }
  | _ => none

/-! ## Lane-T -/

/-- The order that the handlers look up after a report was applied. -/
def followUp (s : Shared) (orderId : String) (clientOrderId : UInt32) : Option Order :=
  if orderId = "" then s.oms.getOrderByClientId clientOrderId else s.oms.getOrder orderId

/-- The lane takes the next report. The trader callbacks let only valid ones through. -/
def orderReport (s : Shared) (report : Order) : Option Shared :=
  if s.lane = .idle ∧ isValidOrder report then
    some { s with oms := s.oms.applyOrderReport report, lane := .orderApplied report }
  else none

def tradeReport (s : Shared) (report : Trade) : Option Shared :=
  if s.lane = .idle ∧ isValidTrade report then
    some { s with oms := s.oms.applyTradeReport report, lane := .tradeApplied report }
  else none

def laneStep (s : Shared) : Option Shared :=
  match s.lane with
  | .idle => none
  | .orderApplied report =>
    match s.followUp report.orderId report.clientOrderId with
    | none => some { s with lane := .idle }
    | some known => some { s with lane := .accountOrder report known }
  | .accountOrder report known =>
    some { s with
      account := s.account.applyOrder known
      lane :=
        if report.status = .canceled then .releasing known.orderId .canceled
        else if report.status = .rejected then .releasing known.orderId .rejectedByVenue
        else .idle }
  | .tradeApplied report =>
    some { s with account := s.account.applyTrade report, lane := .accountTraded report }
  | .accountTraded report =>
    some { s with position := s.position.applyTrade report, lane := .positionTraded report }
  | .positionTraded report =>
    match s.followUp report.orderId report.clientOrderId with
    | none => some { s with lane := .idle }
    | some known =>
      some { s with lane := if known.status = .filled then .releasing known.orderId .settled else .idle }
  | .releasing orderId reason => some ({ s with lane := .idle }.release orderId reason)

end Shared

/-! ## The whole -/

inductive Call
  | submit (request : OrderRequest)
  | cancel (orderId : String)
deriving DecidableEq

/-- What the worker, the lane and the world outside do. -/
inductive EngineEvent
  | worker
  | traderReturns (rc : ErrorCode)
  | orderReport (report : Order)
  | tradeReport (report : Trade)
  | lane
deriving DecidableEq

abbrev System := Calls.Config Shared CallPc
abbrev Action := Calls.Action Call Shared.Answer EngineEvent

def callEntry : Call → CallPc
  | .submit request => .submit (.compliance request)
  | .cancel orderId => .cancel (.getOrder orderId)

def callNext (s : Shared) (call : Nat) (pc : CallPc) (answer : Shared.Answer) : Option (Shared × CallPc) :=
  match pc with
  | .submit pc => (s.submitNext call pc answer).map fun r => (r.1, .submit r.2)
  | .cancel pc =>
    if answer = .silent then (s.cancelNext pc).map fun r => (r.1, .cancel r.2) else none

def engineStep (s : Shared) : EngineEvent → Option Shared
  | .worker => s.workerStep
  | .traderReturns rc => s.traderReturns rc
  | .orderReport report => s.orderReport report
  | .tradeReport report => s.tradeReport report
  | .lane => s.laneStep

def program : Calls.Program Shared Call CallPc Shared.Answer EngineEvent where
  entry := callEntry
  next := callNext
  environment := engineStep

abbrev step : System → Action → Option System := program.step

end Qtrade.Trading
