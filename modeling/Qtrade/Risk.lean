import Qtrade.Sdk

/-!
# Pre-trade risk

`risk_manager.cpp`. `CheckOrder` copies the limits and the two state providers under its lock,
then calls the providers one after the other, so it is three steps for whoever runs beside it.
-/

namespace Qtrade.Risk

structure RiskLimits where
  version : UInt64 := 0
  maxOrderVolume : Int := 9223372036854775807
  maxOrderNotional : Double := 0
  maxTotalNotional : Double := 0
  maxOpenOrders : UInt64 := 0
  safetyBuffer : Double := 0
deriving DecidableEq

/-- The two flags say whether a provider has been set. -/
structure RiskManager where
  limits : RiskLimits := {}
  openOrdersProvider : Bool := false
  notionalProvider : Bool := false
deriving DecidableEq

namespace RiskManager

/-- The budget is valid on its own. -/
def validLimits (limits : RiskLimits) : Bool :=
  !(limits.maxOrderVolume ≤ 0 || limits.maxOrderNotional < 0 || limits.maxTotalNotional < 0 ||
    limits.safetyBuffer < 0 ||
    (0 < limits.maxTotalNotional && limits.maxTotalNotional ≤ limits.safetyBuffer))

/-- Limits with a version may not be older than the limits in force. -/
def configure (s : RiskManager) (limits : RiskLimits) : ErrorCode × RiskManager :=
  if !validLimits limits then (.systemError, s)
  else if limits.version ≠ 0 ∧ limits.version < s.limits.version then (.systemError, s)
  else (.success, { s with limits })

/-! ## `CheckOrder`, stage by stage -/

def orderNotional (request : OrderRequest) : Double := request.price * Double.ofInt request.volume

/-- The request's own fields, then the limits on a single order. -/
def checkRequest (s : RiskManager) (request : OrderRequest) : ErrorCode :=
  if request.instrument = "" ∨ request.volume ≤ 0 ∨ !request.price.isFinite ∨ request.price < 0 ∨
      (request.priceType = .limit ∧ request.price ≤ 0) then .systemError
  else if !(orderNotional request).isFinite ∨ s.limits.maxOrderVolume < request.volume ∨
      (0 < s.limits.maxOrderNotional ∧ s.limits.maxOrderNotional < orderNotional request) then
    .resourceExhausted
  else .success

/-- `openOrders` is what the provider returns when it is called. -/
def checkOpenOrders (s : RiskManager) (openOrders : Nat) : ErrorCode :=
  if 0 < s.limits.maxOpenOrders ∧ s.openOrdersProvider ∧ s.limits.maxOpenOrders.toNat ≤ openOrders then
    .resourceExhausted
  else .success

/-- `notional` is what the provider returns when it is called. -/
def checkTotalNotional (s : RiskManager) (request : OrderRequest) (notional : Double) : ErrorCode :=
  if 0 < s.limits.maxTotalNotional ∧ s.notionalProvider ∧
      s.limits.maxTotalNotional - s.limits.safetyBuffer < notional + orderNotional request then
    .resourceExhausted
  else .success

end RiskManager

end Qtrade.Risk
