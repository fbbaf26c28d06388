import Qtrade.Account.View
import Qtrade.Position.Net
import Qtrade.Engine.StartSequence

/-!
# Cash and holdings

`OnTraderTradeReport` gives a trade to the account and to the position table. Six sides move cash in the account.
The table knows a buy and a sell only.
-/

namespace Qtrade

variable {trade : Trade}

/-! ## The account -/

namespace Account

/-- A side that brings cash in. -/
def bringsCash (side : SideType) : Bool := side == .sell || side == .shortSell || side == .redemption

namespace AccountManager

variable {s : AccountManager}

/-- The trade is a new one and costs cash. -/
def debits (s : AccountManager) (trade : Trade) : Bool :=
  decide (generateTradeDedupKey trade ∉ s.appliedTradeIds) && consumesCash trade.side &&
    decide (0 < tradeAmount trade)

/-- The trade is a new one and brings cash in. -/
def credits (s : AccountManager) (trade : Trade) : Bool :=
  decide (generateTradeDedupKey trade ∉ s.appliedTradeIds) && bringsCash trade.side &&
    decide (0 < tradeAmount trade)

theorem netCashFlow_applyTrade (hvalid : isValidTrade trade = true)
    (hnew : generateTradeDedupKey trade ∉ s.appliedTradeIds) :
    (s.applyTrade trade).netCashFlow =
      if consumesCash trade.side then s.netCashFlow - tradeAmount trade
      else if bringsCash trade.side then s.netCashFlow + tradeAmount trade
      else s.netCashFlow := by
  simp only [isValidTrade, Bool.and_eq_true, decide_eq_true_eq] at hvalid
  unfold applyTrade
  rw [if_neg (by simp [hvalid.1.1.1.2, hvalid.1.1.2])]
  dsimp only
  rw [if_neg hnew]
  simp [tradeAmount, bringsCash, or_assoc]

theorem isAmount_tradeAmount {amount : ℚ} (hvalid : isValidTrade trade = true)
    (hamount : tradeAmount trade = .fin amount) : 0 ≤ amount := by
  simp only [isValidTrade, Bool.and_eq_true, decide_eq_true_eq] at hvalid
  obtain ⟨⟨⟨⟨-, hvolume⟩, hfinite⟩, hprice⟩, -⟩ := hvalid
  unfold tradeAmount at hamount
  split at hamount
  case isTrue hgiven =>
    rw [hamount, Double.zero_def, Double.fin_lt] at hgiven
    exact hgiven.le
  case isFalse =>
    cases hp : trade.price with
    | fin p =>
      rw [hp, Double.zero_def, Double.fin_le] at hprice
      rw [hp, Double.fin_mul_ofInt] at hamount
      cases hamount
      exact mul_nonneg hprice (by exact_mod_cast hvolume.le)
    | _ => simp [hp, Double.isFinite] at hfinite

theorem netCashFlow_moves {flow amount : ℚ} (hvalid : isValidTrade trade = true) (hflow : s.netCashFlow = .fin flow)
    (hamount : tradeAmount trade = .fin amount) :
    ((s.applyTrade trade).netCashFlow < s.netCashFlow ↔ s.debits trade = true) ∧
      (s.netCashFlow < (s.applyTrade trade).netCashFlow ↔ s.credits trade = true) := by
  by_cases hnew : generateTradeDedupKey trade ∈ s.appliedTradeIds
  · have hsame : s.applyTrade trade = s := by
      unfold applyTrade
      split
      · rfl
      · exact if_pos hnew
    rw [hsame, hflow]
    simp [Double.fin_lt, debits, credits, hnew]
  · have hnonneg := isAmount_tradeAmount hvalid hamount
    rw [netCashFlow_applyTrade hvalid hnew, hflow, hamount, Double.fin_sub, Double.fin_add]
    unfold debits credits
    rw [hamount, Double.zero_def]
    -- No side is of both kinds.
    cases trade.side <;> simp [hnew, consumesCash, bringsCash, Double.fin_lt, hnonneg]

end AccountManager

end Account

/-! ## The positions -/

namespace Position.PositionManager

variable {s : PositionManager}

/-- The table moves the long position as the trade's cash moves. It knows no other sides than buy and sell, so the
others move it rightly only where nothing is to be moved. -/
def movesWithCash (s : PositionManager) (trade : Trade) : Bool :=
  match trade.side with
  | .marginTrade | .purchase => false
  | .sell =>
    (s.getPosition trade.instrument .long).all fun position =>
      decide (position.yesterdayVolume ≤ position.totalVolume) || decide (position.yesterdayVolume ≤ trade.volume)
  | .shortSell | .redemption => decide (s.held trade.instrument .long = 0)
  | _ => true

theorem held_unsided (hbuy : trade.side ≠ .buy) (hsell : trade.side ≠ .sell) (instrument : String)
    (direction : PositionDirectionType) :
    (s.applyTrade trade).held instrument direction = s.held instrument direction := by
  apply held_other
  simp [touches, target?, hbuy, hsell]

theorem held_sold_iff (haccepts : s.accepts trade = true) (hcash : trade.positionEffect = .init)
    (hsell : trade.side = .sell) :
    (s.applyTrade trade).held trade.instrument .long =
        s.held trade.instrument .long - min trade.volume (s.held trade.instrument .long) ↔
      s.movesWithCash trade = true := by
  have hclosing : isOpening trade = false := by simp [isOpening, hcash, hsell]
  have hvolume := (accepts_iff.mp haccepts).2.1
  rw [held_applyTrade, if_pos (by simp [touches, haccepts, target?, hsell, hclosing])]
  unfold held movesWithCash traded
  rw [hsell, hclosing, hcash]
  cases s.getPosition trade.instrument .long with
  | none => simp [hvolume.le]
  | some position =>
    simp only [Option.map_some, if_false, Bool.false_eq_true, Option.getD_some, reducePosition_total,
      reduceCtorEq, Option.all_some, Bool.or_eq_true, decide_eq_true_eq]
    omega

end Position.PositionManager

/-! ## A trade report -/

namespace Engine

open Account Position

namespace Books

/-- A valid trade in cash business that neither manager has seen. -/
structure New (s : Books) (trade : Trade) : Prop where
  valid : isValidTrade trade = true
  cash : trade.positionEffect = .init
  account : generateTradeDedupKey trade ∉ s.account.appliedTradeIds
  position : generateTradeDedupKey trade ∉ s.position.appliedTradeIds

/-- Where the trade costs cash the long position grows by its volume, and where it brings cash in that much of the
long position goes. -/
structure HoldingFollows (s : Books) (trade : Trade) : Prop where
  debit : s.account.debits trade = true →
    (s.handleEvent (.trade trade)).position.held trade.instrument .long =
      s.position.held trade.instrument .long + trade.volume
  credit : s.account.credits trade = true →
    (s.handleEvent (.trade trade)).position.held trade.instrument .long =
      s.position.held trade.instrument .long - min trade.volume (s.position.held trade.instrument .long)

variable {s : Books}

theorem New.accepts (h : s.New trade) : s.position.accepts trade = true := by
  have hvalid := h.valid
  simp only [isValidTrade, Bool.and_eq_true, decide_eq_true_eq, Bool.not_eq_true', beq_eq_false_iff_ne] at hvalid
  exact PositionManager.accepts_iff.mpr ⟨hvalid.1.1.1.1, hvalid.1.1.1.2, hvalid.1.1.2, h.position⟩

theorem New.follows_iff (h : s.New trade) :
    s.HoldingFollows trade ↔ ¬0 < tradeAmount trade ∨ s.position.movesWithCash trade = true := by
  have hvolume := (PositionManager.accepts_iff.mp h.accepts).2.1
  have hheld : (s.handleEvent (.trade trade)).position = s.position.applyTrade trade := rfl
  by_cases hamount : 0 < tradeAmount trade
  case neg =>
    refine iff_of_true ⟨?_, ?_⟩ (Or.inl hamount) <;>
      simp [AccountManager.debits, AccountManager.credits, hamount]
  case pos =>
    have hiff : s.HoldingFollows trade ↔
        (consumesCash trade.side = true → (s.position.applyTrade trade).held trade.instrument .long =
          s.position.held trade.instrument .long + trade.volume) ∧
        (bringsCash trade.side = true → (s.position.applyTrade trade).held trade.instrument .long =
          s.position.held trade.instrument .long - min trade.volume (s.position.held trade.instrument .long)) := by
      have hmoves : s.account.debits trade = consumesCash trade.side ∧
          s.account.credits trade = bringsCash trade.side := by
        simp [AccountManager.debits, AccountManager.credits, hamount, h.account]
      constructor
      · rintro ⟨hdebit, hcredit⟩
        rw [hmoves.1, hheld] at hdebit
        rw [hmoves.2, hheld] at hcredit
        exact ⟨hdebit, hcredit⟩
      · rintro ⟨hdebit, hcredit⟩
        refine ⟨?_, ?_⟩
        · rwa [hmoves.1, hheld]
        · rwa [hmoves.2, hheld]
    rw [hiff, or_iff_right (not_not.mpr hamount)]
    cases hside : trade.side with
    | buy =>
      have hopening : isOpening trade = true := by simp [isOpening, h.cash, hside]
      have hopened : (s.position.applyTrade trade).held trade.instrument .long =
          s.position.held trade.instrument .long + trade.volume :=
        PositionManager.held_opened h.accepts (by simp [target?, hside, hopening]) hopening
      simp [consumesCash, bringsCash, PositionManager.movesWithCash, hside, hopened]
    | sell => simp [consumesCash, bringsCash, PositionManager.held_sold_iff h.accepts h.cash hside]
    | marginTrade | purchase =>
      have hsame : (s.position.applyTrade trade).held trade.instrument .long =
          s.position.held trade.instrument .long :=
        PositionManager.held_unsided (by simp [hside]) (by simp [hside]) _ _
      simp [consumesCash, bringsCash, PositionManager.movesWithCash, hside, hsame, hvolume.ne']
    | shortSell | redemption =>
      have hsame : (s.position.applyTrade trade).held trade.instrument .long =
          s.position.held trade.instrument .long :=
        PositionManager.held_unsided (by simp [hside]) (by simp [hside]) _ _
      have hnone : s.position.held trade.instrument .long =
            s.position.held trade.instrument .long - min trade.volume (s.position.held trade.instrument .long) ↔
          s.position.held trade.instrument .long = 0 := by omega
      simp [consumesCash, bringsCash, PositionManager.movesWithCash, hside, hsame, hnone]
    | _ => simp [consumesCash, bringsCash, PositionManager.movesWithCash, hside]

/-- In any run from any books, the holdings follow the cash at every trade if and only if each trade moves no cash or
is one with which the table moves. -/
theorem holdings_follow_iff (s : Books) (callbacks : List Callback) :
    (∀ past trade rest, callbacks = past ++ .trade trade :: rest →
      (past.foldl handleEvent s).New trade → (past.foldl handleEvent s).HoldingFollows trade) ↔
    ∀ past trade rest, callbacks = past ++ .trade trade :: rest →
      (past.foldl handleEvent s).New trade →
      ¬0 < tradeAmount trade ∨ (past.foldl handleEvent s).position.movesWithCash trade = true := by
  constructor
  · intro hfollows past trade rest hrun hnew
    exact hnew.follows_iff.mp (hfollows past trade rest hrun hnew)
  · intro hmoves past trade rest hrun hnew
    exact hnew.follows_iff.mpr (hmoves past trade rest hrun hnew)

/-- A hundred bought on margin, at ten. -/
def marginBuy : Trade :=
  { tradeId := "t", orderId := "o", instrument := "i", price := .fin 10, volume := 100, side := .marginTrade }

/-- The cash for it goes, and nothing is held. -/
theorem marginBuy_unheld : ¬∀ (callbacks : List Callback) (trade : Trade),
    (callbacks.foldl handleEvent {}).New trade → (callbacks.foldl handleEvent {}).HoldingFollows trade := by
  intro hall
  have hheld := (hall [] marginBuy ⟨by decide +kernel, rfl, by decide, by decide⟩).debit (by decide +kernel)
  revert hheld
  decide +kernel

end Books

end Engine

end Qtrade
