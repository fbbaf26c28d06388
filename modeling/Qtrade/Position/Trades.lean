import Qtrade.Position

/-!
# What a trade does to the positions

`ApplyTrade` changes one position, which it opens or closes. Beside it, everything stays.
-/

namespace Qtrade.Position

/-- An opening trade, or a buy in cash business. -/
def isOpening (trade : Trade) : Bool :=
  trade.positionEffect == .open || (trade.positionEffect == .init && trade.side == .buy)

/-- The side whose position a trade changes: its own one where it opens, the other one where it closes. -/
def target? (trade : Trade) : Option PositionDirectionType :=
  if trade.side = .buy then some (if isOpening trade then .long else .short)
  else if trade.side = .sell then some (if isOpening trade then .short else .long)
  else none

/-- What a trade makes of the position that it changes. -/
def traded (trade : Trade) (position : Option Qtrade.Position) : Option Qtrade.Position :=
  if isOpening trade then some (openPosition (position.getD {}) trade.price trade.volume)
  else position.map (reducePosition · trade.positionEffect trade.volume)

namespace PositionManager

/-- The trade passes the first checks, and its key is new. -/
def accepts (s : PositionManager) (trade : Trade) : Bool :=
  trade.instrument != "" && decide (0 < trade.volume) && trade.price.isFinite &&
    decide (generateTradeDedupKey trade ∉ s.appliedTradeIds)

/-- The trade is accepted and changes this position. -/
def touches (s : PositionManager) (instrument : String) (direction : PositionDirectionType) (trade : Trade) : Bool :=
  s.accepts trade && trade.instrument == instrument && target? trade == some direction

variable {s : PositionManager} {instrument instrument' : String} {direction direction' : PositionDirectionType}
  {trade : Trade} {position : Qtrade.Position}

theorem accepts_iff : s.accepts trade = true ↔
    trade.instrument ≠ "" ∧ 0 < trade.volume ∧ trade.price.isFinite = true ∧
      generateTradeDedupKey trade ∉ s.appliedTradeIds := by
  simp [accepts, and_assoc]

theorem touches_accepts (h : s.touches instrument direction trade = true) : s.accepts trade = true := by
  unfold touches at h
  simp_all

theorem getPosition_setPosition :
    (s.setPosition instrument' direction' position).getPosition instrument direction =
      if instrument' = instrument ∧ direction' = direction then some position
      else s.getPosition instrument direction := by
  unfold getPosition directions setPosition
  rw [Table.lookup_store]
  split
  case isTrue hi =>
    subst hi
    rw [Option.getD_some, Table.lookup_store]
    simp [directions, eq_comm]
  case isFalse hi =>
    rw [if_neg]
    rintro ⟨rfl, -⟩
    exact hi rfl

@[simp]
theorem getPosition_openTrade :
    (s.openTrade direction' trade).getPosition instrument direction =
      if trade.instrument = instrument ∧ direction' = direction then
        some (openPosition ((s.getPosition instrument direction).getD {}) trade.price trade.volume)
      else s.getPosition instrument direction := by
  unfold openTrade
  rw [getPosition_setPosition]
  split
  case isTrue h =>
    obtain ⟨rfl, rfl⟩ := h
    rfl
  case isFalse => rfl

@[simp]
theorem getPosition_closeTrade :
    (s.closeTrade direction' trade).getPosition instrument direction =
      if trade.instrument = instrument ∧ direction' = direction then
        (s.getPosition instrument direction).map (reducePosition · trade.positionEffect trade.volume)
      else s.getPosition instrument direction := by
  unfold closeTrade
  split
  case h_1 hnone =>
    split
    case isTrue h =>
      obtain ⟨rfl, rfl⟩ := h
      rw [hnone, Option.map_none]
    case isFalse => rfl
  case h_2 position hsome =>
    rw [getPosition_setPosition]
    split
    case isTrue h =>
      obtain ⟨rfl, rfl⟩ := h
      rw [hsome, Option.map_some]
    case isFalse => rfl

theorem applyTrade_refused (h : s.accepts trade = false) : s.applyTrade trade = s := by
  unfold applyTrade
  split
  · rfl
  · split
    · rfl
    · simp_all [accepts]

theorem applyTrade_accepted (h : s.accepts trade = true) :
    s.applyTrade trade =
      let s := { s with appliedTradeIds := insert (generateTradeDedupKey trade) s.appliedTradeIds }
      match target? trade with
      | none => s
      | some direction => if isOpening trade then s.openTrade direction trade else s.closeTrade direction trade := by
  obtain ⟨hinstrument, hvolume, hprice, hnew⟩ := accepts_iff.mp h
  have hvalid : ¬(trade.instrument = "" ∨ trade.volume ≤ 0 ∨ (!trade.price.isFinite) = true) := by
    rintro (hempty | hnone | hbad)
    · exact hinstrument hempty
    · omega
    · simp [hprice] at hbad
  unfold applyTrade
  rw [if_neg hvalid, if_neg hnew]
  unfold target? isOpening
  by_cases hbuy : trade.side = .buy
  · simp only [hbuy]
    split_ifs <;> simp_all
  · by_cases hsell : trade.side = .sell
    · simp only [hsell]
      split_ifs <;> simp_all
    · simp [hbuy, hsell]

theorem appliedTradeIds_applyTrade (h : s.accepts trade = true) :
    (s.applyTrade trade).appliedTradeIds = insert (generateTradeDedupKey trade) s.appliedTradeIds := by
  rw [applyTrade_accepted h]
  dsimp only
  split
  · rfl
  · split
    · rfl
    · unfold closeTrade
      split <;> rfl

/-- A trade that is accepted changes the position that it is about, and no other one. -/
theorem getPosition_applyTrade (s : PositionManager) (trade : Trade) (instrument : String)
    (direction : PositionDirectionType) :
    (s.applyTrade trade).getPosition instrument direction =
      if s.touches instrument direction trade then traded trade (s.getPosition instrument direction)
      else s.getPosition instrument direction := by
  unfold touches traded
  cases h : s.accepts trade with
  | false => simp [applyTrade_refused h]
  | true =>
    have hkeys : ∀ keys, getPosition { s with appliedTradeIds := keys } instrument direction =
        s.getPosition instrument direction := fun _ => rfl
    rw [applyTrade_accepted h]
    cases htarget : target? trade with
    | none => simp [hkeys]
    | some side =>
      cases isOpening trade <;> simp [hkeys]

/-! ## Trades that count -/

/-- The trades that change this position. -/
def aimed (trades : List Trade) (instrument : String) (direction : PositionDirectionType) : List Trade :=
  trades.filter fun trade => trade.instrument == instrument && target? trade == some direction

/-- These trades and no others, each under a new key, have made `s` from `base`. -/
structure Took (base s : PositionManager) (taken : List Trade) : Prop where
  distinct : (taken.map generateTradeDedupKey).Nodup
  new : ∀ trade ∈ taken, generateTradeDedupKey trade ∉ base.appliedTradeIds
  keys : ∀ key, key ∈ s.appliedTradeIds ↔ key ∈ base.appliedTradeIds ∨ key ∈ taken.map generateTradeDedupKey
  positions : ∀ instrument direction, s.getPosition instrument direction =
    (aimed taken instrument direction).foldl (fun position trade => traded trade position)
      (base.getPosition instrument direction)

theorem Took.refl (s : PositionManager) : s.Took s [] :=
  ⟨List.nodup_nil, by simp, by simp, fun _ _ => rfl⟩

theorem Took.accepted {base : PositionManager} {taken : List Trade} (h : base.Took s taken)
    (haccepts : s.accepts trade = true) : base.Took (s.applyTrade trade) (taken ++ [trade]) := by
  obtain ⟨-, -, -, hnew⟩ := accepts_iff.mp haccepts
  rw [h.keys, not_or] at hnew
  refine ⟨?_, ?_, fun key => ?_, fun instrument direction => ?_⟩
  · rw [List.map_append, List.map_singleton]
    exact h.distinct.append (List.nodup_singleton _) (by simpa using hnew.2)
  · intro trade' hmem
    rcases List.mem_append.mp hmem with hmem | hmem
    · exact h.new trade' hmem
    · rw [List.mem_singleton.mp hmem]
      exact hnew.1
  · rw [appliedTradeIds_applyTrade haccepts, Finset.mem_insert, h.keys, List.map_append, List.mem_append,
      List.map_singleton, List.mem_singleton]
    tauto
  · have hposition := getPosition_applyTrade s trade instrument direction
    rw [h.positions] at hposition
    have haimed : aimed (taken ++ [trade]) instrument direction = aimed taken instrument direction ++
        if s.touches instrument direction trade = true then [trade] else [] := by
      unfold aimed touches
      rw [List.filter_append, haccepts, Bool.true_and, List.filter_singleton, Bool.cond_eq_ite]
    rw [hposition, haimed, List.foldl_append]
    split <;> rfl

end PositionManager

end Qtrade.Position
