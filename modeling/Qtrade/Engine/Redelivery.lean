import Qtrade.Engine.StartSequence
import Qtrade.Lib.Folds

/-!
# Trades that come again after the start

`SynchronizeBrokerState` gives the trades of the day to the order manager alone. The account and the
position table take their figures from the broker, and do not know which trades are in them.
-/

namespace Qtrade.Position

/-- Nothing can be taken off the position. -/
def spent (position : Qtrade.Position) (effect : PositionEffectType) : Bool :=
  (if effect = .closeToday then position.totalVolume == position.yesterdayVolume
    else if effect = .closeYesterday then
      position.yesterdayVolume == 0 && decide (0 ≤ position.totalVolume)
    else position.yesterdayVolume == 0 && position.totalVolume == 0) &&
  (position.totalVolume != 0 || position.avgPrice == 0)

theorem reducePosition_eq_iff {position : Qtrade.Position} {effect : PositionEffectType} {volume : Int}
    (hvolume : 0 < volume) : reducePosition position effect volume = position ↔ spent position effect = true := by
  obtain ⟨instrument, total, yesterday, average, direction⟩ := position
  -- The parts stay if and only if nothing is taken off them.
  have hparts : (reduceTodayYesterday (total - yesterday) yesterday effect volume).2 = yesterday ∧
      (reduceTodayYesterday (total - yesterday) yesterday effect volume).2 +
          max 0 (reduceTodayYesterday (total - yesterday) yesterday effect volume).1 = total ↔
      (if effect = .closeToday then total == yesterday
        else if effect = .closeYesterday then yesterday == 0 && decide (0 ≤ total)
        else yesterday == 0 && total == 0) = true := by
    unfold reduceTodayYesterday
    by_cases htoday : effect = .closeToday
    · simp only [htoday, if_true, true_and, beq_iff_eq]
      omega
    · by_cases hyesterday : effect = .closeYesterday
      · simp only [hyesterday, reduceCtorEq, if_false, if_true, Bool.and_eq_true, beq_iff_eq, decide_eq_true_eq]
        omega
      · simp only [htoday, hyesterday, if_false, Bool.and_eq_true, beq_iff_eq]
        omega
  unfold reducePosition spent
  rw [Bool.and_eq_true, ← hparts]
  generalize reduceTodayYesterday (total - yesterday) yesterday effect volume = parts
  simp only [Qtrade.Position.mk.injEq, true_and, and_true, Bool.or_eq_true, bne_iff_ne, ne_eq, beq_iff_eq]
  constructor
  · rintro ⟨htotal, hyesterday, haverage⟩
    refine ⟨⟨hyesterday, htotal⟩, ?_⟩
    rw [htotal] at haverage
    by_cases hzero : total = 0
    · rw [if_pos hzero] at haverage
      exact Or.inr haverage.symm
    · exact Or.inl hzero
  · rintro ⟨⟨hyesterday, htotal⟩, hrest⟩
    refine ⟨htotal, hyesterday, ?_⟩
    rw [htotal]
    split
    case isTrue hzero => exact (hrest.resolve_left (not_not.mpr hzero)).symm
    case isFalse => rfl

namespace PositionManager

/-- The trade leaves the table as it is: it opens nothing, and finds nothing that it could close. -/
def spares (s : PositionManager) (trade : Trade) : Bool :=
  if trade.positionEffect = .open ∨ (trade.positionEffect = .init ∧ trade.side = .buy) then
    trade.side != .buy && trade.side != .sell
  else if trade.side = .sell then (s.getPosition trade.instrument .long).all (spent · trade.positionEffect)
  else if trade.side = .buy then (s.getPosition trade.instrument .short).all (spent · trade.positionEffect)
  else true

variable {s : PositionManager} {instrument : String} {direction : PositionDirectionType}
  {position : Qtrade.Position} {trade : Trade}

theorem setPosition_eq_iff : (s.setPosition instrument direction position).positions = s.positions ↔
    s.getPosition instrument direction = some position := by
  unfold setPosition getPosition
  constructor
  · intro h
    have hinstrument := congrArg (·.lookup instrument) h
    simp only [Finmap.lookup_insert] at hinstrument
    unfold directions
    rw [← hinstrument, Option.getD_some, Finmap.lookup_insert]
  · intro h
    unfold directions at h ⊢
    cases hs : s.positions.lookup instrument with
    | none => simp [hs] at h
    | some table =>
      rw [hs, Option.getD_some] at h
      rw [Option.getD_some, Table.store_same h, Table.store_same hs]

theorem openTrade_ne (hvolume : 0 < trade.volume) : (s.openTrade direction trade).positions ≠ s.positions := by
  unfold openTrade
  rw [ne_eq, setPosition_eq_iff]
  intro h
  cases hp : s.getPosition trade.instrument direction with
  | none =>
    rw [hp] at h
    cases h
  | some position =>
    rw [hp, Option.getD_some, Option.some.injEq] at h
    have htotal : position.totalVolume = position.totalVolume + trade.volume :=
      congrArg Qtrade.Position.totalVolume h
    omega

theorem closeTrade_eq_iff (hvolume : 0 < trade.volume) : (s.closeTrade direction trade).positions = s.positions ↔
    (s.getPosition trade.instrument direction).all (spent · trade.positionEffect) = true := by
  unfold closeTrade
  cases hp : s.getPosition trade.instrument direction with
  | none => simp
  | some position =>
    dsimp only
    rw [setPosition_eq_iff, hp, Option.all_some, ← reducePosition_eq_iff hvolume, Option.some.injEq, eq_comm]

theorem applyTrade_eq_iff (hnew : generateTradeDedupKey trade ∉ s.appliedTradeIds)
    (hvalid : isValidTrade trade = true) :
    (s.applyTrade trade).positions = s.positions ↔ s.spares trade = true := by
  simp only [isValidTrade, Bool.and_eq_true, Bool.not_eq_true', beq_eq_false_iff_ne, decide_eq_true_eq] at hvalid
  obtain ⟨⟨⟨⟨hinstrument, hvolume⟩, hfinite⟩, _⟩, _⟩ := hvalid
  unfold applyTrade spares
  rw [if_neg (by simp [hinstrument, hfinite]; omega), if_neg hnew]
  dsimp only
  -- The dedup keys are no part of the table.
  have hopen : ∀ direction keys, (openTrade { s with appliedTradeIds := keys } direction trade).positions ≠
      s.positions := fun direction keys => openTrade_ne (s := { s with appliedTradeIds := keys }) hvolume
  have hclose : ∀ direction keys, (closeTrade { s with appliedTradeIds := keys } direction trade).positions =
      s.positions ↔ (s.getPosition trade.instrument direction).all (spent · trade.positionEffect) = true :=
    fun direction keys => closeTrade_eq_iff (s := { s with appliedTradeIds := keys }) hvolume
  split
  · by_cases hbuy : trade.side = .buy
    · simp [hbuy, hopen]
    · by_cases hsell : trade.side = .sell
      · simp [hsell, hopen]
      · simp [hbuy, hsell]
  · by_cases hsell : trade.side = .sell
    · simp only [hsell, if_true, hclose]
    · by_cases hbuy : trade.side = .buy
      · simp only [hbuy, reduceCtorEq, if_false, if_true, hclose]
      · simp [hbuy, hsell]

theorem applyTrade_known (hknown : generateTradeDedupKey trade ∈ s.appliedTradeIds) : s.applyTrade trade = s := by
  unfold applyTrade
  rw [if_pos hknown, ite_self]

end PositionManager

end Qtrade.Position

namespace Qtrade.Account.AccountManager

/-- The trade is worth nothing. -/
def worthless (trade : Trade) : Bool := trade.price == 0 && !decide (0 < trade.tradeAmount)

/-- What a trade may change of the account. -/
structure SameFunds (s s' : AccountManager) : Prop where
  filledAmount : s'.filledAmount = s.filledAmount
  netCashFlow : s'.netCashFlow = s.netCashFlow
  availableFunds : s'.getAvailableFunds = s.getAvailableFunds

variable {s : AccountManager} {trade : Trade}

theorem applyTrade_worthless (hvalid : isValidTrade trade = true) (h : worthless trade = true) :
    SameFunds s (s.applyTrade trade) := by
  simp only [isValidTrade, Bool.and_eq_true, Bool.not_eq_true', beq_eq_false_iff_ne, decide_eq_true_eq] at hvalid
  obtain ⟨⟨⟨⟨_, hvolume⟩, hfinite⟩, _⟩, _⟩ := hvalid
  simp only [worthless, Bool.and_eq_true, beq_iff_eq, Bool.not_eq_true', decide_eq_false_iff_not] at h
  obtain ⟨hprice, hamount⟩ := h
  have hzero : trade.price * Double.ofInt trade.volume = 0 :=
    (Double.mul_ofInt_eq_zero hfinite (by omega)).mpr hprice
  unfold applyTrade
  rw [if_neg hamount, hzero]
  split
  · exact ⟨rfl, rfl, rfl⟩
  · dsimp only
    split
    · exact ⟨rfl, rfl, rfl⟩
    · have hcash : (if consumesCash trade.side then s.netCashFlow - 0
          else if trade.side = .sell ∨ trade.side = .shortSell ∨ trade.side = .redemption then s.netCashFlow + 0
          else s.netCashFlow) = s.netCashFlow := by
        rw [Double.sub_zero, add_zero, ite_self, ite_self]
      refine ⟨add_zero _, hcash, ?_⟩
      unfold getAvailableFunds
      dsimp only
      rw [hcash]

theorem worthless_of_applyTrade (hnew : generateTradeDedupKey trade ∉ s.appliedTradeIds)
    (hfilled : s.filledAmount = 0) (hvalid : isValidTrade trade = true)
    (h : (s.applyTrade trade).filledAmount = 0) : worthless trade = true := by
  simp only [isValidTrade, Bool.and_eq_true, Bool.not_eq_true', beq_eq_false_iff_ne, decide_eq_true_eq] at hvalid
  obtain ⟨⟨⟨⟨_, hvolume⟩, hfinite⟩, _⟩, _⟩ := hvalid
  unfold applyTrade at h
  rw [if_neg (by simp [hfinite]; omega), if_neg hnew] at h
  dsimp only at h
  rw [hfilled, zero_add] at h
  unfold worthless
  split at h
  case isTrue hpositive =>
    rw [h] at hpositive
    exact absurd hpositive (by decide)
  case isFalse hno =>
    have hprice := (Double.mul_ofInt_eq_zero hfinite (by omega)).mp h
    simp [hprice, hno]

end Qtrade.Account.AccountManager

namespace Qtrade.Oms.OrderManager

/-- The manager knows the trade, or holds no order for it, or the state graph refuses it. -/
def skips (s : OrderManager) (trade : Trade) : Bool :=
  decide (generateTradeDedupKey trade ∈ s.appliedTradeIds) ||
    (s.findOrderLocked trade.orderId trade.clientOrderId).all fun found =>
      (tradeReportEntry found.2 trade).1 != .success

variable {s : OrderManager} {trade : Trade}

theorem applyTradeReport_skips (h : s.skips trade = true) : s.applyTradeReport trade = s := by
  unfold applyTradeReport
  split
  · rfl
  case isFalse hnew =>
    simp only [skips, hnew, decide_false, Bool.false_or] at h
    split
    · rfl
    case h_2 key e hf =>
      rw [hf] at h
      exact if_neg (by simpa using h)

theorem skips_of_applyTradeReport (hvolume : 0 < trade.volume)
    (h : (s.applyTradeReport trade).orders = s.orders) : s.skips trade = true := by
  by_contra hno
  simp only [skips, Bool.or_eq_true, decide_eq_true_eq, not_or] at hno
  obtain ⟨hnew, hno⟩ := hno
  cases hf : s.findOrderLocked trade.orderId trade.clientOrderId with
  | none => simp [hf] at hno
  | some found =>
    obtain ⟨key, e⟩ := found
    have hok : (tradeReportEntry e trade).1 = .success := by simpa [hf] using hno
    have hlookup := lookup_applyTradeReport s trade key
    rw [if_pos ⟨hnew, reportKey_eq_some.mpr ⟨e, hf⟩⟩, h, (findOrderLocked_some hf).1] at hlookup
    simp only [Option.map_some, kept, hok, if_true, Option.some.injEq] at hlookup
    have htraded := (tradeReportEntry_success hok).2.1
    rw [← hlookup] at htraded
    omega

end Qtrade.Oms.OrderManager

namespace Qtrade.Engine

open Qtrade.Oms
open Qtrade.Account.AccountManager (SameFunds worthless)

namespace Books

/-- A trade comes in on Lane-T. The trader callback lets only valid ones through. -/
def redeliver (s : Books) (trade : Trade) : Books :=
  if isValidTrade trade then s.onTraderTradeReport trade else s

/-- Nobody notices the trade when it comes in. -/
def ignores (s : Books) (trade : Trade) : Bool :=
  !isValidTrade trade || (worthless trade && s.position.spares trade && s.oms.skips trade)

/-- What may not change when a trade comes in again. -/
structure Unchanged (s s' : Books) : Prop extends SameFunds s.account s'.account where
  orders : s'.oms.orders = s.oms.orders
  positions : s'.position.positions = s.position.positions

variable {s s' : Books} {trade : Trade}

/-- The order manager and all that the trade could change elsewhere. -/
structure Untouched (s s' : Books) : Prop extends SameFunds s.account s'.account where
  oms : s'.oms = s.oms
  positions : s'.position.positions = s.position.positions

theorem spares_congr {t t' : Position.PositionManager} (h : t'.positions = t.positions) (trade : Trade) :
    t'.spares trade = t.spares trade := by
  unfold Position.PositionManager.spares Position.PositionManager.getPosition Position.PositionManager.directions
  rw [h]

theorem Untouched.ignores (h : Untouched s s') (trade : Trade) : s'.ignores trade = s.ignores trade := by
  unfold Books.ignores
  rw [h.oms, spares_congr h.positions]

theorem redeliver_untouched (h : s.ignores trade = true) : Untouched s (s.redeliver trade) := by
  unfold redeliver
  split
  case isFalse => exact ⟨⟨rfl, rfl, rfl⟩, rfl, rfl⟩
  case isTrue hvalid =>
    simp only [Books.ignores, hvalid, Bool.not_true, Bool.false_or, Bool.and_eq_true] at h
    obtain ⟨⟨hworthless, hspares⟩, hskips⟩ := h
    refine ⟨Account.AccountManager.applyTrade_worthless hvalid hworthless,
      OrderManager.applyTradeReport_skips hskips, ?_⟩
    by_cases hknown : generateTradeDedupKey trade ∈ s.position.appliedTradeIds
    · exact congrArg _ (Position.PositionManager.applyTrade_known hknown)
    · exact (Position.PositionManager.applyTrade_eq_iff hknown hvalid).mpr hspares

theorem redeliver_all (replay : List Trade) (h : ∀ trade ∈ replay, s.ignores trade = true) :
    Untouched s (replay.foldl redeliver s) := by
  induction replay generalizing s with
  | nil => exact ⟨⟨rfl, rfl, rfl⟩, rfl, rfl⟩
  | cons trade rest ih =>
    have hfirst := redeliver_untouched (h trade (by simp))
    have hrest := ih (s := s.redeliver trade) fun t ht => by
      rw [hfirst.ignores]
      exact h t (by simp [ht])
    refine ⟨⟨?_, ?_, ?_⟩, ?_, ?_⟩
    · exact hrest.filledAmount.trans hfirst.filledAmount
    · exact hrest.netCashFlow.trans hfirst.netCashFlow
    · exact hrest.availableFunds.trans hfirst.availableFunds
    · exact hrest.oms.trans hfirst.oms
    · exact hrest.positions.trans hfirst.positions

/-- Account and position table have seen no trade yet. -/
structure Unaware (s : Books) : Prop where
  filledAmount : s.account.filledAmount = 0
  account : s.account.appliedTradeIds = ∅
  position : s.position.appliedTradeIds = ∅

theorem ignores_of_unchanged (h : Unaware s) (hsame : Unchanged s (s.redeliver trade)) : s.ignores trade = true := by
  by_cases hvalid : isValidTrade trade = true
  swap
  · simp [Books.ignores, hvalid]
  have hredeliver : s.redeliver trade = s.onTraderTradeReport trade := if_pos hvalid
  rw [hredeliver] at hsame
  have hvolume : 0 < trade.volume := by
    simp only [isValidTrade, Bool.and_eq_true, decide_eq_true_eq] at hvalid
    exact hvalid.1.1.1.2
  have hworthless := Account.AccountManager.worthless_of_applyTrade (by simp [h.account]) h.filledAmount hvalid
    (hsame.filledAmount.trans h.filledAmount)
  have hspares := (Position.PositionManager.applyTrade_eq_iff (by simp [h.position]) hvalid).mp hsame.positions
  have hskips := OrderManager.skips_of_applyTradeReport hvolume hsame.orders
  simp [Books.ignores, hworthless, hspares, hskips]

/-! ## After the start -/

theorem unaware_applyPositionSnapshot (positions : List Qtrade.Position) (s : Position.PositionManager) :
    (s.applyPositionSnapshot positions).appliedTradeIds = s.appliedTradeIds := by
  unfold Position.PositionManager.applyPositionSnapshot
  apply Folds.invariant_foldl fun t : Position.PositionManager => t.appliedTradeIds = s.appliedTradeIds
  · intro t position ht
    split
    · exact ht
    · exact ht
  · rfl

theorem Unaware.takeOrder (h : Unaware s) (report : Order) : Unaware (s.takeOrder report) := by
  unfold Books.takeOrder
  dsimp only
  split
  case h_2 => exact ⟨h.filledAmount, h.account, h.position⟩
  case h_1 known _ =>
    refine ⟨?_, ?_, h.position⟩
    · unfold Account.AccountManager.applyOrder
      dsimp only
      split
      · exact h.filledAmount
      · exact h.filledAmount
    · unfold Account.AccountManager.applyOrder
      dsimp only
      split
      · exact h.account
      · exact h.account

theorem Unaware.takeTrade (h : Unaware s) (report : Trade) : Unaware (s.takeTrade report) := by
  unfold Books.takeTrade
  dsimp only
  split
  · exact ⟨h.filledAmount, h.account, h.position⟩
  · exact ⟨h.filledAmount, h.account, h.position⟩

theorem Unaware.synchronize (h : Unaware s) (snapshot : BrokerSnapshot) : Unaware (s.synchronize snapshot).2 := by
  have htaken : Unaware ((s.takeOrders snapshot.orders).takeTrades snapshot.trades) := by
    unfold takeTrades takeOrders
    apply Folds.invariant_foldl Unaware (fun _ report h => h.takeTrade report)
    exact Folds.invariant_foldl Unaware (fun _ report h => h.takeOrder report) h snapshot.orders
  refine ⟨htaken.filledAmount, htaken.account, ?_⟩
  exact (unaware_applyPositionSnapshot _ _).trans htaken.position

/-- For every snapshot taken by an engine with fresh books, redelivering its trades on Lane-T, in any order
and any number of times, changes nothing if and only if each of them is one that nobody notices: the
callback drops it, or it is worth nothing, neither opens nor closes a position, and the order manager
skips it. -/
theorem redelivery_harmless_iff (oms : OrderManager) (snapshot : BrokerSnapshot) :
    (∀ replay : List Trade, (∀ trade ∈ replay, trade ∈ snapshot.trades) →
      Unchanged (({ oms } : Books).synchronize snapshot).2
        (replay.foldl redeliver (({ oms } : Books).synchronize snapshot).2)) ↔
      ∀ trade ∈ snapshot.trades, (({ oms } : Books).synchronize snapshot).2.ignores trade = true := by
  have hstart : Unaware ({ oms } : Books) := ⟨rfl, rfl, rfl⟩
  have hunaware := hstart.synchronize snapshot
  constructor
  · intro hall trade htrade
    apply ignores_of_unchanged hunaware
    exact hall [trade] fun t ht => by rwa [List.mem_singleton.mp ht]
  · intro hignores replay hreplay
    have h := redeliver_all replay fun trade ht => hignores trade (hreplay trade ht)
    exact ⟨h.toSameFunds, congrArg _ h.oms, h.positions⟩

/-- Positions and buying power are what the listed trades have made of those before. -/
structure Reflects (snapshot : BrokerSnapshot) : Prop extends Consistent snapshot where
  positions : ∃ before : List Qtrade.Position,
    (snapshot.trades.foldl Position.PositionManager.applyTrade
        (({} : Position.PositionManager).applyPositionSnapshot before)).positions =
      (({} : Position.PositionManager).applyPositionSnapshot snapshot.positions).positions
  buyingPower : ∃ before : Double, snapshot.asset.buyingPower =
    before + (snapshot.trades.foldl Account.AccountManager.applyTrade {}).netCashFlow

/-- A buy of which four are filled, and the books that go with it. -/
def boughtFour : BrokerSnapshot :=
  { day .partiallyFilled with
    positions := [{ instrument := "i", totalVolume := 4, avgPrice := .fin 10, direction := .long }]
    asset := { buyingPower := .fin 960 } }

theorem boughtFour_reflects : Reflects boughtFour := by
  have hday := day_consistent .partiallyFilled
  refine ⟨⟨hday.orderIds, hday.identified, hday.tradeIds, hday.tradedVolume, hday.leftVolume, hday.tradeAmount⟩, ?_, ?_⟩
  · exact ⟨[{ instrument := "i" }], by decide +kernel⟩
  · exact ⟨.fin 1000, by decide +kernel⟩

/-- The fill comes again, and is paid for a second time. -/
theorem redelivery_charged : ¬ ∀ (s₀ oms : OrderManager) (options : OrderManagerOptions) (snapshot : BrokerSnapshot),
    s₀.initializeWith options = (.success, oms) → Reflects snapshot →
    ∀ replay : List Trade, (∀ trade ∈ replay, trade ∈ snapshot.trades) →
      Unchanged (({ oms } : Books).synchronize snapshot).2
        (replay.foldl redeliver (({ oms } : Books).synchronize snapshot).2) := by
  intro hall
  have hsame := (hall {} fresh ⟨"q", "e", 1⟩ boughtFour fresh_initialized boughtFour_reflects boughtFour.trades
    fun _ ht => ht).availableFunds
  exact absurd hsame (by decide +kernel)

end Books

end Qtrade.Engine
