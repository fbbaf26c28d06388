import Mathlib.Data.Finset.Basic
import Qtrade.Sdk

/-!
# Compliance

`compliance_manager.cpp`: static rules on a single request.
-/

namespace Qtrade.Cms

structure ComplianceRules where
  version : UInt64 := 0
  enabled : Bool := true
  minVolume : Int := 1
  maxVolume : Int := 9223372036854775807
  minPrice : Double := 0
  maxPrice : Double := 0
  maxNotional : Double := 0
  allowedInstruments : Finset String := ∅
  allowedSides : Finset SideType := ∅
  allowedPriceTypes : Finset PriceType := ∅
deriving DecidableEq

structure ComplianceManager where
  rules : ComplianceRules := {}
deriving DecidableEq

namespace ComplianceManager

/-- Rules with a version may not be older than the rules in force. -/
def configure (s : ComplianceManager) (rules : ComplianceRules) : ErrorCode × ComplianceManager :=
  if rules.minVolume ≤ 0 ∨ rules.maxVolume < rules.minVolume ∨ rules.minPrice < 0 ∨ rules.maxPrice < 0 ∨
      (0 < rules.maxPrice ∧ rules.maxPrice < rules.minPrice) ∨ rules.maxNotional < 0 then
    (.systemError, s)
  else if rules.version ≠ 0 ∧ rules.version < s.rules.version then (.systemError, s)
  else (.success, { rules })

def checkOrder (s : ComplianceManager) (request : OrderRequest) : ErrorCode :=
  if request.instrument = "" ∨ !request.price.isFinite ∨ request.price < 0 ∨ request.side = .unknown ∨
      request.priceType = .unknown ∨ request.positionEffect = .unknown ∨ request.businessType = .unknown then
    .systemError
  else if !s.rules.enabled then .notInitialized
  else
    let rules := s.rules
    let notional := request.price * Double.ofInt request.volume
    if request.volume < rules.minVolume ∨ rules.maxVolume < request.volume ∨
        (request.priceType = .limit ∧ request.price ≤ 0) ∨
        (0 < rules.minPrice ∧ request.price < rules.minPrice) ∨
        (0 < rules.maxPrice ∧ rules.maxPrice < request.price) ∨ !notional.isFinite ∨
        (0 < rules.maxNotional ∧ rules.maxNotional < notional) ∨
        (rules.allowedInstruments ≠ ∅ ∧ request.instrument ∉ rules.allowedInstruments) ∨
        (rules.allowedSides ≠ ∅ ∧ request.side ∉ rules.allowedSides) ∨
        (rules.allowedPriceTypes ≠ ∅ ∧ request.priceType ∉ rules.allowedPriceTypes) then
      .systemError
    else .success

end ComplianceManager

end Qtrade.Cms
