import Qtrade.Lib.Table
import Qtrade.Sdk

/-!
# The position table

`position_manager.cpp`: one position per instrument and direction. A position stores its total
and the part from before today.
-/

namespace Qtrade.Position

structure PositionManager where
  positions : Table String (Table PositionDirectionType Qtrade.Position) := ∅
  appliedTradeIds : Finset String := ∅

/-! ## One position -/

/-- What is left of today's and of yesterday's part after a close. Without a say on the part,
yesterday's goes first. -/
def reduceTodayYesterday (today yesterday : Int) (effect : PositionEffectType) (volume : Int) : Int × Int :=
  if effect = .closeToday then (max 0 (today - volume), yesterday)
  else if effect = .closeYesterday then (today, max 0 (yesterday - volume))
  else
    let fromYesterday := min yesterday volume
    (max 0 (today - (volume - fromYesterday)), yesterday - fromYesterday)

def addAveragePrice (currentAverage : Double) (currentVolume : Int) (tradePrice : Double)
    (tradeVolume : Int) : Double :=
  if currentVolume + tradeVolume = 0 then 0
  else
    (currentAverage * Double.ofInt currentVolume + tradePrice * Double.ofInt tradeVolume) /
      Double.ofInt (currentVolume + tradeVolume)

def reducePosition (position : Qtrade.Position) (effect : PositionEffectType) (volume : Int) :
    Qtrade.Position :=
  let parts :=
    reduceTodayYesterday (position.totalVolume - position.yesterdayVolume) position.yesterdayVolume
      effect volume
  let totalVolume := parts.2 + max 0 parts.1
  { position with
    yesterdayVolume := parts.2
    totalVolume
    avgPrice := if totalVolume = 0 then 0 else position.avgPrice }

def openPosition (position : Qtrade.Position) (tradePrice : Double) (tradeVolume : Int) :
    Qtrade.Position :=
  { position with
    avgPrice := addAveragePrice position.avgPrice position.totalVolume tradePrice tradeVolume
    totalVolume := position.totalVolume + tradeVolume }

/-! ## The table -/

namespace PositionManager

/-- `positions_[instrument]`, which is empty where nothing is stored. -/
def directions (s : PositionManager) (instrument : String) : Table PositionDirectionType Qtrade.Position :=
  (s.positions.lookup instrument).getD ∅

def getPosition (s : PositionManager) (instrument : String) (direction : PositionDirectionType) :
    Option Qtrade.Position :=
  (s.directions instrument).lookup direction

def setPosition (s : PositionManager) (instrument : String) (direction : PositionDirectionType)
    (position : Qtrade.Position) : PositionManager :=
  { s with
    positions := s.positions.insert instrument ((s.directions instrument).insert direction position) }

def applyPositionSnapshot (s : PositionManager) (positions : List Qtrade.Position) : PositionManager :=
  positions.foldl
    (fun s source =>
      if source.instrument = "" ∨ source.totalVolume < 0 then s
      else s.setPosition source.instrument source.direction source)
    { s with positions := ∅ }

/-- `operator[]` makes a default position where there is none yet. -/
def openTrade (s : PositionManager) (direction : PositionDirectionType) (trade : Trade) : PositionManager :=
  s.setPosition trade.instrument direction
    (openPosition ((s.getPosition trade.instrument direction).getD {}) trade.price trade.volume)

def closeTrade (s : PositionManager) (direction : PositionDirectionType) (trade : Trade) : PositionManager :=
  match s.getPosition trade.instrument direction with
  | none => s
  | some position =>
    s.setPosition trade.instrument direction (reducePosition position trade.positionEffect trade.volume)

def applyTrade (s : PositionManager) (trade : Trade) : PositionManager :=
  if trade.instrument = "" ∨ trade.volume ≤ 0 ∨ !trade.price.isFinite then s
  else if generateTradeDedupKey trade ∈ s.appliedTradeIds then s
  else
    let s := { s with appliedTradeIds := insert (generateTradeDedupKey trade) s.appliedTradeIds }
    if trade.positionEffect = .open ∨ (trade.positionEffect = .init ∧ trade.side = .buy) then
      if trade.side = .buy then s.openTrade .long trade
      else if trade.side = .sell then s.openTrade .short trade
      else s
    else if trade.side = .sell then s.closeTrade .long trade
    else if trade.side = .buy then s.closeTrade .short trade
    else s

/-- A net record wins over the records of the two sides. -/
def getNetPosition (s : PositionManager) (instrument : String) : Int :=
  match s.positions.lookup instrument with
  | none => 0
  | some directions =>
    match directions.lookup .net with
    | some position => position.totalVolume
    | none =>
      directions.sumBy fun direction position =>
        match direction with
        | .long => position.totalVolume
        | .short => -position.totalVolume
        | _ => 0

end PositionManager

end Qtrade.Position
