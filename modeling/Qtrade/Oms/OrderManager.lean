import Qtrade.Lib.Table
import Qtrade.Oms.Lifecycle

/-!
# The order manager

`order_manager.cpp`. The order table, its client id index, the fills already applied and the
orders already reconciled. Each function here runs under the manager's mutex, so it is one
atomic step.
-/

namespace Qtrade.Oms

structure OrderEntry where
  order : Order
  lifecycleState : OrderLifecycleState := .prepared
deriving DecidableEq

structure OrderManagerOptions where
  tenantId : String
  engineId : String
  engineEpoch : UInt64

structure OrderManager where
  orders : Table String OrderEntry := ∅
  clientOrderIndex : Table UInt32 String := ∅
  appliedTradeIds : Finset String := ∅
  reconciledOrderIds : Finset String := ∅
  orderIdCounter : UInt64 := 0
  tenantId : String := ""
  engineId : String := ""
  engineEpoch : UInt64 := 1
  initialized : Bool := false

/-- What `unordered_map::at` throws on a missing key. -/
inductive OutOfRange
  | at
deriving DecidableEq

/-! ## One entry -/

def applyTransition (entry : OrderEntry) (target : OrderLifecycleState) : ErrorCode × OrderEntry :=
  if canTransition entry.lifecycleState target then
    (.success, { entry with lifecycleState := target })
  else (.systemError, entry)

/-- Takes over what the report says. Ids, instrument, market, price and volume are only taken
where the report has them. -/
def mergeOrderSnapshot (entry : OrderEntry) (report : Order) : OrderEntry :=
  { entry with
    order := { entry.order with
      brokerOrderId := if report.brokerOrderId ≠ 0 then report.brokerOrderId else entry.order.brokerOrderId
      exchangeOrderId :=
        if report.exchangeOrderId = "" then entry.order.exchangeOrderId else report.exchangeOrderId
      instrument := if report.instrument = "" then entry.order.instrument else report.instrument
      market :=
        if report.market ≠ .unknown ∧ report.market ≠ .init then report.market else entry.order.market
      price := if report.price > 0 then report.price else entry.order.price
      volume := if report.volume > 0 then report.volume else entry.order.volume
      status := report.status
      submitStatus := report.submitStatus
      tradedVolume := report.tradedVolume
      leftVolume := report.leftVolume
      tradeAmount := report.tradeAmount
      errorMessage := report.errorMessage
      side := report.side
      priceType := report.priceType
      positionEffect := report.positionEffect
      businessType := report.businessType } }

/-- A success means `working`, a timeout `sendUnknown`, any other failure `rejected`. An order
that is past sending keeps its state. -/
def sendResultEntry (entry : OrderEntry) (result : ErrorCode) : ErrorCode × OrderEntry :=
  if entry.lifecycleState = .sendPending ∨ (entry.lifecycleState = .emsQueued ∧ result ≠ .success) then
    if result = .timeout then
      applyTransition { entry with order.status := .unknown } .sendUnknown
    else if result ≠ .success then
      applyTransition
        { entry with order.status := .rejected, order.submitStatus := .insertRejected } .rejected
    else applyTransition entry .working
  else applyTransition entry entry.lifecycleState

def cancelResultEntry (entry : OrderEntry) (result : ErrorCode) : ErrorCode × OrderEntry :=
  if result = .success ∨ result = .timeout then applyTransition entry .cancelPending
  else
    applyTransition { entry with order.submitStatus := .cancelRejected }
      (if entry.order.tradedVolume > 0 then .partiallyFilled else .working)

/-- The entry after an order report, and whether the report was accepted. -/
def orderReportEntry (entry : OrderEntry) (report : Order) : ErrorCode × OrderEntry :=
  let updated := mergeOrderSnapshot entry report
  applyTransition updated (lifecycleFromOrderStatus report.status updated.lifecycleState)

/-- The entry after a fill, and whether the fill was accepted. -/
def tradeReportEntry (entry : OrderEntry) (report : Trade) : ErrorCode × OrderEntry :=
  let tradedVolume := entry.order.tradedVolume + report.volume
  let leftVolume := max 0 (entry.order.volume - tradedVolume)
  applyTransition
    { entry with
      order := { entry.order with
        tradedVolume := tradedVolume
        leftVolume := leftVolume
        tradeAmount := entry.order.tradeAmount + report.tradeAmount
        status := if leftVolume = 0 then .filled else .partiallyFilled } }
    (if leftVolume = 0 then .filled else .partiallyFilled)

/-- The fields of a new order, as the request has them. -/
def newEntry (request : OrderRequest) (orderId : String) : OrderEntry where
  order :=
    { orderId
      clientOrderId := request.clientOrderId
      instrument := request.instrument
      market := request.market
      price := request.price
      volume := request.volume
      leftVolume := request.volume
      priceType := request.priceType
      side := request.side
      positionEffect := request.positionEffect
      businessType := request.businessType
      status := .new
      submitStatus := .init }
  lifecycleState := .prepared

/-- An order taken over from the broker under a local id. -/
def adoptedEntry (report : Order) (orderId : String) : OrderEntry where
  order := { report with orderId }
  lifecycleState := lifecycleFromOrderStatus report.status .working

/-! ## The manager -/

namespace OrderManager

def initializeWith (s : OrderManager) (options : OrderManagerOptions) : ErrorCode × OrderManager :=
  if options.tenantId = "" ∨ options.engineId = "" ∨ options.engineEpoch = 0 then (.systemError, s)
  else if s.initialized then (.systemError, s)
  else
    (.success,
      { tenantId := options.tenantId
        engineId := options.engineId
        engineEpoch := options.engineEpoch
        initialized := true })

def shutdown (s : OrderManager) : OrderManager :=
  { s with
    orders := ∅
    clientOrderIndex := ∅
    appliedTradeIds := ∅
    reconciledOrderIds := ∅
    initialized := false }

/-- The id that the next call of `AllocateOrderId` returns. -/
def nextOrderId (s : OrderManager) : String :=
  s.tenantId ++ "-" ++ s.engineId ++ "-" ++ toString s.engineEpoch.toNat ++ "-" ++
    toString (s.orderIdCounter + 1).toNat

def allocateOrderId (s : OrderManager) : String × OrderManager :=
  (s.nextOrderId, { s with orderIdCounter := s.orderIdCounter + 1 })

/-- Stores an entry under an id. -/
def store (s : OrderManager) (orderId : String) (entry : OrderEntry) : OrderManager :=
  { s with orders := s.orders.insert orderId entry }

/-- Points a nonzero client id at an order. -/
def index (s : OrderManager) (clientOrderId : UInt32) (orderId : String) : OrderManager :=
  if clientOrderId ≠ 0 then
    { s with clientOrderIndex := s.clientOrderIndex.insert clientOrderId orderId }
  else s

/-- A client id that is already known gets the order it stands for, whatever the request says. -/
def createOrder (s : OrderManager) (request : OrderRequest) (orderId : String) :
    Except OutOfRange (Option Order) × OrderManager :=
  if !s.initialized || orderId == "" then (.ok none, s)
  else
    match if request.clientOrderId ≠ 0 then s.clientOrderIndex.lookup request.clientOrderId else none with
    | some existing =>
      match s.orders.lookup existing with
      | some entry => (.ok (some entry.order), s)
      | none => (.error .at, s)
    | none =>
      (.ok (some (newEntry request orderId).order),
        (s.store orderId (newEntry request orderId)).index request.clientOrderId orderId)

/-- The overload without an order id. -/
def createOrderAllocating (s : OrderManager) (request : OrderRequest) :
    Except OutOfRange (Option Order) × OrderManager :=
  s.allocateOrderId.2.createOrder request s.allocateOrderId.1

def getOrderByClientId (s : OrderManager) (clientOrderId : UInt32) : Option Order :=
  match s.clientOrderIndex.lookup clientOrderId with
  | some orderId => (s.orders.lookup orderId).map (·.order)
  | none => none

def getOrder (s : OrderManager) (orderId : String) : Option Order :=
  (s.orders.lookup orderId).map (·.order)

def getLifecycleState (s : OrderManager) (orderId : String) : Option OrderLifecycleState :=
  (s.orders.lookup orderId).map (·.lifecycleState)

/-- The shape that the status functions share: find the order, change its entry in place. -/
def update (s : OrderManager) (orderId : String) (change : OrderEntry → ErrorCode × OrderEntry) :
    ErrorCode × OrderManager :=
  match s.orders.lookup orderId with
  | none => (.notFound, s)
  | some entry => ((change entry).1, s.store orderId (change entry).2)

def cancelOrder (s : OrderManager) (orderId : String) : ErrorCode × OrderManager :=
  s.update orderId fun entry => applyTransition entry .cancelPending

def markEmsQueued (s : OrderManager) (orderId : String) : ErrorCode × OrderManager :=
  s.update orderId fun entry => applyTransition entry .emsQueued

/-- The submit status is written before the move is checked. -/
def markSendPending (s : OrderManager) (orderId : String) : ErrorCode × OrderManager :=
  s.update orderId fun entry =>
    applyTransition { entry with order.submitStatus := .insertSubmitted } .sendPending

def recordSendResult (s : OrderManager) (orderId : String) (result : ErrorCode) :
    ErrorCode × OrderManager :=
  s.update orderId (sendResultEntry · result)

def recordCancelResult (s : OrderManager) (orderId : String) (result : ErrorCode) :
    ErrorCode × OrderManager :=
  s.update orderId (cancelResultEntry · result)

/-! ## Queries -/

/-- The entries that `GetActiveOrderCount` and `GetOpenNotional` go through. -/
def activeEntries (s : OrderManager) : Multiset OrderEntry :=
  (s.orders.entries.map (·.2)).filter (!isTerminalLifecycle ·.lifecycleState)

def getActiveOrderCount (s : OrderManager) : Nat := s.activeEntries.card

def getOpenNotional (s : OrderManager) : Double :=
  (s.activeEntries.map fun entry => entry.order.price * Double.ofInt entry.order.leftVolume).sum

def getOrdersRequiringReconciliation (s : OrderManager) : Multiset Order :=
  ((s.orders.entries.map (·.2)).filter fun entry =>
    entry.order.orderId ∉ s.reconciledOrderIds ∧
      (entry.lifecycleState = .sendPending ∨ entry.lifecycleState = .sendUnknown ∨
        entry.lifecycleState = .working ∨ entry.lifecycleState = .cancelPending)).map (·.order)

def markReconciled (s : OrderManager) (orderId : String) : OrderManager :=
  if orderId ∈ s.orders then { s with reconciledOrderIds := insert orderId s.reconciledOrderIds } else s

/-! ## Reports -/

/-- The order that a report means: by order id, or else by a nonzero client id. -/
def findOrderLocked (s : OrderManager) (orderId : String) (clientOrderId : UInt32) :
    Option (String × OrderEntry) :=
  match s.orders.lookup orderId with
  | some entry => some (orderId, entry)
  | none =>
    if clientOrderId ≠ 0 then
      match s.clientOrderIndex.lookup clientOrderId with
      | some key => (s.orders.lookup key).map (key, ·)
      | none => none
    else none

/-- A report that the state graph refuses leaves no trace. -/
def applyOrderReport (s : OrderManager) (report : Order) : OrderManager :=
  match s.findOrderLocked report.orderId report.clientOrderId with
  | none => s
  | some (key, entry) =>
    let updated := orderReportEntry entry report
    if updated.1 = .success then s.store key updated.2 else s

def applyTradeReport (s : OrderManager) (report : Trade) : OrderManager :=
  if generateTradeDedupKey report ∈ s.appliedTradeIds then s
  else
    match s.findOrderLocked report.orderId report.clientOrderId with
    | none => s
    | some (key, entry) =>
      let updated := tradeReportEntry entry report
      if updated.1 = .success then
        { s.store key updated.2 with
          appliedTradeIds := insert (generateTradeDedupKey report) s.appliedTradeIds }
      else s

/-- Stores a broker order that has no local one. -/
def adopt (s : OrderManager) (report : Order) (orderId : String) : OrderManager :=
  let s := (s.store orderId (adoptedEntry report orderId)).index report.clientOrderId orderId
  { s with reconciledOrderIds := insert orderId s.reconciledOrderIds }

def reconcileBrokerOrder (s : OrderManager) (report : Order) : OrderManager :=
  if !s.initialized then s
  else
    match s.findOrderLocked report.orderId report.clientOrderId with
    | none =>
      if report.orderId ≠ "" then s.adopt report report.orderId
      else if report.clientOrderId = 0 then s
      else s.allocateOrderId.2.adopt report s.allocateOrderId.1
    | some (key, entry) =>
      let updated := orderReportEntry entry report
      if updated.1 = .success then
        { s.store key updated.2 with
          reconciledOrderIds := insert updated.2.order.orderId s.reconciledOrderIds }
      else s

end OrderManager

end Qtrade.Oms
