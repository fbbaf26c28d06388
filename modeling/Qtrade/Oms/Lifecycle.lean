import Qtrade.Sdk

/-!
# The life of an order inside the engine

The states of an order, the edges between them, and the state a broker status stands for.
-/

namespace Qtrade.Oms

inductive OrderLifecycleState
  | prepared | emsQueued | sendPending | working | partiallyFilled | filled | cancelPending
  | canceled | rejected | sendUnknown
deriving DecidableEq

def isTerminalLifecycle (state : OrderLifecycleState) : Bool :=
  state == .filled || state == .canceled || state == .rejected

/-- The table of allowed moves. Staying where one is always counts as allowed. -/
def canTransition (source target : OrderLifecycleState) : Bool :=
  source == target ||
  match source with
  | .prepared => target == .emsQueued || target == .rejected || target == .cancelPending
  | .emsQueued => target == .sendPending || target == .rejected || target == .cancelPending
  | .sendPending =>
    target == .working || target == .rejected || target == .sendUnknown ||
      target == .partiallyFilled || target == .filled
  | .sendUnknown =>
    target == .working || target == .rejected || target == .partiallyFilled ||
      target == .filled || target == .canceled
  | .working =>
    target == .partiallyFilled || target == .filled || target == .cancelPending ||
      target == .canceled || target == .rejected
  | .partiallyFilled => target == .filled || target == .cancelPending || target == .canceled
  | .cancelPending =>
    target == .canceled || target == .working || target == .partiallyFilled ||
      target == .filled || target == .rejected
  | .filled | .canceled | .rejected => false

/-- The state that a broker status stands for. A status that says nothing about fills or the
end of the order keeps the fallback. -/
def lifecycleFromOrderStatus (status : OrderStatusType) (fallback : OrderLifecycleState) :
    OrderLifecycleState :=
  match status with
  | .filled => .filled
  | .partiallyFilled | .partiallyFilledNotQueueing => .partiallyFilled
  | .canceled => .canceled
  | .rejected => .rejected
  | .unknown => .sendUnknown
  | .new | .notTradedQueueing | .noTradeNotQueueing =>
    if fallback = .prepared then .working else fallback

/-! ## The shape of the state graph -/

@[simp]
theorem canTransition_self (l : OrderLifecycleState) : canTransition l l = true := by
  cases l <;> rfl

theorem eq_of_terminal {l l' : OrderLifecycleState} (h : canTransition l l' = true)
    (hl : isTerminalLifecycle l = true) : l' = l := by
  cases l <;> cases l' <;> simp_all [canTransition, isTerminalLifecycle]

/-- How far an order has come on the way to the venue. -/
def OrderLifecycleState.rank : OrderLifecycleState → Nat
  | .prepared => 0
  | .emsQueued => 1
  | .sendPending => 2
  | _ => 3

theorem rank_le_three (l : OrderLifecycleState) : l.rank ≤ 3 := by
  cases l <;> decide

theorem rank_le_of_canTransition {l l' : OrderLifecycleState} (h : canTransition l l' = true) :
    l.rank ≤ l'.rank := by
  cases l <;> cases l' <;> simp_all [canTransition, OrderLifecycleState.rank]

theorem lifecycleFromOrderStatus_rank (status : OrderStatusType) (l : OrderLifecycleState)
    (h : (lifecycleFromOrderStatus status l).rank < 3) : lifecycleFromOrderStatus status l = l := by
  cases status <;> cases l <;> simp_all [lifecycleFromOrderStatus, OrderLifecycleState.rank]

theorem lifecycleFromOrderStatus_ne_prepared (status : OrderStatusType) (l : OrderLifecycleState) :
    lifecycleFromOrderStatus status l ≠ .prepared := by
  cases status <;> cases l <;> simp [lifecycleFromOrderStatus]

end Qtrade.Oms
