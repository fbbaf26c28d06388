import Qtrade.Lib.Table
import Qtrade.Sdk

/-!
# The account view

`account_manager.cpp`: funds frozen by open orders and the cash flow of fills.
-/

namespace Qtrade.Account

structure AccountManager where
  orderFrozenAmounts : Table String Double := ∅
  appliedTradeIds : Finset String := ∅
  asset : AccountAsset := {}
  hasAssetSnapshot : Bool := false
  frozenAmount : Double := 0
  netCashFlow : Double := 0
  filledAmount : Double := 0

def terminalStatus (status : OrderStatusType) : Bool :=
  status == .filled || status == .canceled || status == .rejected

def consumesCash (side : SideType) : Bool :=
  side == .buy || side == .marginTrade || side == .purchase

def frozenFor (order : Order) : Double :=
  if !terminalStatus order.status && consumesCash order.side && order.price.isFinite &&
      (0 : Double) < order.price then
    order.price * Double.ofInt (max 0 order.leftVolume)
  else 0

namespace AccountManager

def applyAssetSnapshot (s : AccountManager) (asset : AccountAsset) : AccountManager :=
  { s with asset, hasAssetSnapshot := true, netCashFlow := 0 }

/-- The frozen total moves by the difference to what this order froze before. -/
def applyOrder (s : AccountManager) (order : Order) : AccountManager :=
  if order.orderId = "" then s
  else
    let frozen := frozenFor order
    let previous := (s.orderFrozenAmounts.lookup order.orderId).getD 0
    { s with
      frozenAmount := Double.max 0 (s.frozenAmount + frozen - previous)
      orderFrozenAmounts :=
        if terminalStatus order.status then s.orderFrozenAmounts.erase order.orderId
        else s.orderFrozenAmounts.insert order.orderId frozen }

def applyTrade (s : AccountManager) (trade : Trade) : AccountManager :=
  if trade.volume ≤ 0 ∨ !trade.price.isFinite then s
  else
    let dedupKey := generateTradeDedupKey trade
    let amount := if 0 < trade.tradeAmount then trade.tradeAmount else trade.price * Double.ofInt trade.volume
    if dedupKey ∈ s.appliedTradeIds then s
    else
      { s with
        appliedTradeIds := insert dedupKey s.appliedTradeIds
        filledAmount := s.filledAmount + amount
        netCashFlow :=
          if consumesCash trade.side then s.netCashFlow - amount
          else if trade.side = .sell ∨ trade.side = .shortSell ∨ trade.side = .redemption then
            s.netCashFlow + amount
          else s.netCashFlow }

/-- The broker's buying power, what the fills since then brought in or cost, and what is frozen. -/
def getAvailableFunds (s : AccountManager) : Double :=
  (if s.hasAssetSnapshot then s.asset.buyingPower else 0) + s.netCashFlow - s.frozenAmount

end AccountManager

end Qtrade.Account
