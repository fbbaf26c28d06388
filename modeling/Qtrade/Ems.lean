import Qtrade.Sdk

/-!
# The execution manager's queue

`execution_manager.cpp`: what `Enqueue` and `EnqueueCancel` put into the deque and what the
worker takes out. The worker's own steps are in `Qtrade.Trading.System`.
-/

namespace Qtrade.Ems

inductive WorkItem
  | send (order : Order)
  | cancel (request : CancelOrderRequest)
deriving DecidableEq

/-- `traderApi` says whether a trader has been set. -/
structure ExecutionManager where
  pendingItems : List WorkItem := []
  running : Bool := false
  traderApi : Bool := false
deriving DecidableEq

def queueCapacity : Nat := 8192

namespace ExecutionManager

/-- What both enqueue functions check first. -/
def admits (s : ExecutionManager) : ErrorCode :=
  if !s.running || !s.traderApi then .notInitialized
  else if queueCapacity ≤ s.pendingItems.length then .resourceExhausted
  else .success

def enqueue (s : ExecutionManager) (order : Order) : ErrorCode × ExecutionManager :=
  if s.admits = .success then (.success, { s with pendingItems := s.pendingItems ++ [.send order] })
  else (s.admits, s)

/-- A cancel goes to the front. -/
def enqueueCancel (s : ExecutionManager) (request : CancelOrderRequest) : ErrorCode × ExecutionManager :=
  if s.admits = .success then (.success, { s with pendingItems := .cancel request :: s.pendingItems })
  else (s.admits, s)

/-- The request that the worker assembles from an order. -/
def sendRequest (order : Order) : OrderRequest where
  clientOrderId := order.clientOrderId
  brokerOrderId := order.brokerOrderId
  instrument := order.instrument
  market := order.market
  price := order.price
  volume := order.volume
  priceType := order.priceType
  side := order.side
  positionEffect := order.positionEffect
  businessType := order.businessType

end ExecutionManager

end Qtrade.Ems
