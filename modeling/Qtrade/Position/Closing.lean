import Qtrade.Position.Trades
import Mathlib.Algebra.Order.Group.MinMax
import Mathlib.Algebra.Order.Ring.Int

/-!
# Closing a position

`ReducePosition` splits a position into today's and yesterday's part, takes a closing trade from them and adds
them up again. How much that takes away depends on how the two stored numbers stand to each other.
-/

namespace Qtrade.Position

/-! ## One position -/

/-- How much of a position a closing trade may take away. -/
def closable (position : Qtrade.Position) (effect : PositionEffectType) : Int :=
  if effect = .closeToday then max 0 (position.totalVolume - position.yesterdayVolume)
  else if effect = .closeYesterday then min position.yesterdayVolume position.totalVolume
  else position.totalVolume

/-- The two stored numbers are as a close of this volume needs them. Yesterday's part lies between nothing and the
total, except where the close uses it up. -/
def addsUp (position : Qtrade.Position) (effect : PositionEffectType) (volume : Int) : Bool :=
  decide (0 ≤ position.totalVolume) &&
    if effect = .closeToday then
      decide (position.yesterdayVolume ≤ position.totalVolume) &&
        (decide (0 ≤ position.yesterdayVolume) || decide (volume ≤ position.totalVolume))
    else if effect = .closeYesterday then
      decide (0 ≤ position.yesterdayVolume) &&
        (decide (position.yesterdayVolume ≤ position.totalVolume) || decide (position.yesterdayVolume ≤ volume))
    else decide (position.yesterdayVolume ≤ position.totalVolume) || decide (position.yesterdayVolume ≤ volume)

variable {position : Qtrade.Position} {volume : Int}

theorem reducePosition_total (position : Qtrade.Position) (effect : PositionEffectType) (volume : Int) :
    (reducePosition position effect volume).totalVolume =
      if effect = .closeToday then
        position.yesterdayVolume + max 0 (position.totalVolume - position.yesterdayVolume - volume)
      else if effect = .closeYesterday then
        max 0 (position.yesterdayVolume - volume) + max 0 (position.totalVolume - position.yesterdayVolume)
      else
        position.yesterdayVolume - min position.yesterdayVolume volume +
          max 0 (position.totalVolume - position.yesterdayVolume -
            (volume - min position.yesterdayVolume volume)) := by
  unfold reducePosition reduceTodayYesterday
  split_ifs <;> simp

theorem reducePosition_exact_iff (effect : PositionEffectType) (hvolume : 0 < volume) :
    (0 ≤ (reducePosition position effect volume).totalVolume ∧
        (reducePosition position effect volume).totalVolume ≤ position.totalVolume ∧
        position.totalVolume - (reducePosition position effect volume).totalVolume =
          min volume (closable position effect)) ↔ addsUp position effect volume = true := by
  rw [reducePosition_total]
  unfold closable addsUp
  split_ifs <;> simp only [Bool.and_eq_true, Bool.or_eq_true, decide_eq_true_eq] <;> omega

/-! ## The manager -/

namespace PositionManager

variable {s : PositionManager} {trade : Trade} {direction : PositionDirectionType}

inductive Operation
  | applyPositionSnapshot (positions : List Qtrade.Position)
  | applyTrade (trade : Trade)

def perform (s : PositionManager) : Operation → PositionManager
  | .applyPositionSnapshot positions => s.applyPositionSnapshot positions
  | .applyTrade trade => s.applyTrade trade

/-- An accepted trade closes a stored position. Whatever the manager has stored, it takes what it may take away and
no more, if and only if the parts of the position add up. -/
theorem close_exact_iff (stored : s.getPosition trade.instrument direction = some position)
    (hits : s.touches trade.instrument direction trade = true) (closing : isOpening trade = false) :
    (∃ after, (s.applyTrade trade).getPosition trade.instrument direction = some after ∧
        0 ≤ after.totalVolume ∧ after.totalVolume ≤ position.totalVolume ∧
        position.totalVolume - after.totalVolume = min trade.volume (closable position trade.positionEffect)) ↔
      addsUp position trade.positionEffect trade.volume = true := by
  have hvolume : 0 < trade.volume := (accepts_iff.mp (touches_accepts hits)).2.1
  rw [getPosition_applyTrade, if_pos hits, stored, ← reducePosition_exact_iff _ hvolume]
  simp [traded, closing]

/-- Five from yesterday. -/
def fiveYesterday : PositionManager :=
  ({} : PositionManager).applyPositionSnapshot [{ instrument := "i", totalVolume := 5, yesterdayVolume := 5 }]

def closeThree : Trade := { instrument := "i", volume := 3, side := .sell, positionEffect := .closeYesterday }

theorem close_exact_yesterday :
    ∃ after, (fiveYesterday.applyTrade closeThree).getPosition "i" .long = some after ∧
      0 ≤ after.totalVolume ∧ after.totalVolume ≤ 5 ∧ 5 - after.totalVolume = min 3 5 := by
  have hstored : fiveYesterday.getPosition closeThree.instrument .long =
      some { instrument := "i", totalVolume := 5, yesterdayVolume := 5 } := by decide +kernel
  exact (close_exact_iff hstored (by decide +kernel) rfl).mpr (by decide)

/-- A broker that reports yesterday's position at the start of the day beside the total of now. -/
def startOfDay : List Operation :=
  [.applyPositionSnapshot [{ instrument := "i", totalVolume := 5, yesterdayVolume := 10 }]]

def closeTwo : Trade :=
  { tradeId := "t", instrument := "i", price := .fin 1, volume := 2, side := .sell, positionEffect := .close }

/-- A close of 2 makes 8 out of 5. -/
theorem close_enlarges : ¬∀ (operations : List Operation) (trade : Trade) (direction : PositionDirectionType)
    (position : Qtrade.Position),
    (operations.foldl perform {}).getPosition trade.instrument direction = some position →
    (operations.foldl perform {}).touches trade.instrument direction trade = true → isOpening trade = false →
    ∃ after, ((operations.foldl perform {}).applyTrade trade).getPosition trade.instrument direction = some after ∧
      0 ≤ after.totalVolume ∧ after.totalVolume ≤ position.totalVolume ∧
      position.totalVolume - after.totalVolume = min trade.volume (closable position trade.positionEffect) := by
  intro hall
  obtain ⟨after, hafter, -, hle, -⟩ := hall startOfDay closeTwo .long
    { instrument := "i", totalVolume := 5, yesterdayVolume := 10 } (by decide +kernel) (by decide +kernel) rfl
  have henlarged : ((startOfDay.foldl perform {}).applyTrade closeTwo).getPosition "i" .long =
      some { instrument := "i", totalVolume := 8, yesterdayVolume := 8 } := by decide +kernel
  cases henlarged.symm.trans hafter
  revert hle
  decide

end PositionManager

end Qtrade.Position
