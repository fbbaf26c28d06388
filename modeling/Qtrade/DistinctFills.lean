import Qtrade.Lib.Dedup
import Qtrade.Lib.Joined
import Qtrade.Account
import Qtrade.Position.Trades

/-!
# Fills and their keys

`trade_dedup.hpp`: the account and the position table know a fill by its trade id, or else by a text that joins
ids and numbers with colons. The ids are texts that may contain colons themselves.
-/

namespace Qtrade

/-- The reports are about one fill: they have the same trade id, or none and the same ids and number. -/
def sameFill (trade trade' : Trade) : Bool :=
  if trade.tradeId ≠ "" then trade.tradeId == trade'.tradeId
  else
    trade'.tradeId == "" && trade.orderId == trade'.orderId && trade.clientOrderId == trade'.clientOrderId &&
      trade.brokerOrderId == trade'.brokerOrderId && trade.exchangeOrderId == trade'.exchangeOrderId &&
      trade.reportIndex == trade'.reportIndex && trade.instrument == trade'.instrument

/-- How often the separator of the joined text occurs. -/
def separators (text : String) : Nat := text.toList.count ':'

/-- Two of the three texts in the joined key have equally many separators in both reports. -/
def aligned (trade trade' : Trade) : Bool :=
  (separators trade.orderId == separators trade'.orderId &&
      separators trade.exchangeOrderId == separators trade'.exchangeOrderId) ||
    (separators trade.orderId == separators trade'.orderId &&
      separators trade.instrument == separators trade'.instrument) ||
    (separators trade.exchangeOrderId == separators trade'.exchangeOrderId &&
      separators trade.instrument == separators trade'.instrument)

/-- Colons in the ids cannot be taken for the ones between them. Reports without a trade id are aligned, and a trade
id has not as many separators as the joined text of a report without one. -/
structure Separated (trades : List Trade) : Prop where
  joined : ∀ trade ∈ trades, ∀ trade' ∈ trades, trade.tradeId = "" → trade'.tradeId = "" →
    aligned trade trade' = true
  named : ∀ trade ∈ trades, ∀ trade' ∈ trades, trade.tradeId ≠ "" → trade'.tradeId = "" →
    separators trade.tradeId ≠
      separators trade'.orderId + separators trade'.exchangeOrderId + separators trade'.instrument + 5

variable {trade trade' : Trade}

/-! ## The joined key -/

theorem key_named (h : trade.tradeId ≠ "") : generateTradeDedupKey trade = trade.tradeId := by
  unfold generateTradeDedupKey
  exact if_pos h

theorem toList_key (h : trade.tradeId = "") :
    (generateTradeDedupKey trade).toList =
      trade.orderId.toList ++ ':' :: ((toString trade.clientOrderId.toNat).toList ++
        ':' :: ((toString trade.brokerOrderId.toNat).toList ++ ':' :: (trade.exchangeOrderId.toList ++
          ':' :: ((toString trade.reportIndex.toNat).toList ++ ':' :: trade.instrument.toList)))) := by
  unfold generateTradeDedupKey
  simp [h]

theorem count_toString (n : Nat) : (toString n).toList.count ':' = 0 := by
  rw [List.count_eq_zero]
  intro hmem
  have hdigit := Joined.mem_toString hmem
  revert hdigit
  decide

theorem separators_key (h : trade.tradeId = "") :
    separators (generateTradeDedupKey trade) =
      separators trade.orderId + separators trade.exchangeOrderId + separators trade.instrument + 5 := by
  unfold separators
  rw [toList_key h]
  simp only [List.count_append, List.count_cons_self, count_toString]
  omega

theorem key_joined_iff (h : trade.tradeId = "") (h' : trade'.tradeId = "") (haligned : aligned trade trade' = true) :
    generateTradeDedupKey trade = generateTradeDedupKey trade' ↔ sameFill trade trade' = true := by
  have hsame : sameFill trade trade' = true ↔ trade.orderId = trade'.orderId ∧
      trade.clientOrderId = trade'.clientOrderId ∧ trade.brokerOrderId = trade'.brokerOrderId ∧
      trade.exchangeOrderId = trade'.exchangeOrderId ∧ trade.reportIndex = trade'.reportIndex ∧
      trade.instrument = trade'.instrument := by
    simp [sameFill, h, h', and_assoc]
  rw [hsame]
  constructor
  · intro hkey
    have htotal := congrArg separators hkey
    rw [separators_key h, separators_key h'] at htotal
    -- With the total equal, two equal counts make the third one equal.
    have hcounts : separators trade.orderId = separators trade'.orderId ∧
        separators trade.exchangeOrderId = separators trade'.exchangeOrderId := by
      simp only [aligned, Bool.or_eq_true, Bool.and_eq_true, beq_iff_eq] at haligned
      omega
    have hlist := congrArg String.toList hkey
    rw [toList_key h, toList_key h', Joined.append_cons_inj_of_count hcounts.1] at hlist
    obtain ⟨horder, hlist⟩ := hlist
    rw [Joined.append_cons_inj_of_count (by rw [count_toString, count_toString])] at hlist
    obtain ⟨hclient, hlist⟩ := hlist
    rw [Joined.append_cons_inj_of_count (by rw [count_toString, count_toString])] at hlist
    obtain ⟨hbroker, hlist⟩ := hlist
    rw [Joined.append_cons_inj_of_count hcounts.2] at hlist
    obtain ⟨hexchange, hlist⟩ := hlist
    rw [Joined.append_cons_inj_of_count (by rw [count_toString, count_toString])] at hlist
    obtain ⟨hreport, hinstrument⟩ := hlist
    exact ⟨String.toList_inj.mp horder,
      UInt32.toNat.inj (Joined.toString_injective (String.toList_inj.mp hclient)),
      UInt64.toNat.inj (Joined.toString_injective (String.toList_inj.mp hbroker)), String.toList_inj.mp hexchange,
      UInt64.toNat.inj (Joined.toString_injective (String.toList_inj.mp hreport)), String.toList_inj.mp hinstrument⟩
  · rintro ⟨horder, hclient, hbroker, hexchange, hreport, hinstrument⟩
    unfold generateTradeDedupKey
    simp [h, h', horder, hclient, hbroker, hexchange, hreport, hinstrument]

theorem Separated.key_iff {trades : List Trade} (h : Separated trades) (ht : trade ∈ trades) (ht' : trade' ∈ trades) :
    generateTradeDedupKey trade = generateTradeDedupKey trade' ↔ sameFill trade trade' = true := by
  by_cases hid : trade.tradeId = ""
  · by_cases hid' : trade'.tradeId = ""
    · exact key_joined_iff hid hid' (h.joined _ ht _ ht' hid hid')
    · refine iff_of_false (fun hkey => ?_) (by simp [sameFill, hid, hid'])
      rw [key_named hid'] at hkey
      exact h.named _ ht' _ ht hid' hid (by rw [← hkey, separators_key hid])
  · by_cases hid' : trade'.tradeId = ""
    · refine iff_of_false (fun hkey => ?_) (by simp [sameFill, hid, hid'])
      rw [key_named hid] at hkey
      exact h.named _ ht _ ht' hid hid' (by rw [hkey, separators_key hid'])
    · rw [key_named hid, key_named hid']
      simp [sameFill, hid]

/-! ## The account and the position table -/

namespace Account.AccountManager

/-- Takes a trade as one that it does not know. -/
def count (s : AccountManager) (trade : Trade) : AccountManager :=
  applyTrade { s with appliedTradeIds := s.appliedTradeIds.erase (generateTradeDedupKey trade) } trade

theorem takesOnce (h : isValidTrade trade = true) :
    Dedup.TakesOnce generateTradeDedupKey AccountManager.appliedTradeIds applyTrade count trade := by
  simp only [isValidTrade, Bool.and_eq_true, decide_eq_true_eq] at h
  have hvalid : ¬(trade.volume ≤ 0 ∨ (!trade.price.isFinite) = true) := by
    rintro (hnone | hbad)
    · omega
    · simp [h.1.1.2] at hbad
  refine ⟨fun s hseen => ?_, fun s hnew => ?_, fun s hnew => ?_⟩
  · unfold applyTrade
    rw [if_neg hvalid]
    exact if_pos hseen
  · rw [count, Finset.erase_eq_of_notMem hnew]
  · rw [count, Finset.erase_eq_of_notMem hnew]
    unfold applyTrade
    rw [if_neg hvalid]
    dsimp only
    rw [if_neg hnew]

end Account.AccountManager

namespace Position.PositionManager

/-- Takes a trade as one that it does not know. -/
def count (s : PositionManager) (trade : Trade) : PositionManager :=
  applyTrade { s with appliedTradeIds := s.appliedTradeIds.erase (generateTradeDedupKey trade) } trade

theorem takesOnce (h : isValidTrade trade = true) :
    Dedup.TakesOnce generateTradeDedupKey PositionManager.appliedTradeIds applyTrade count trade := by
  simp only [isValidTrade, Bool.and_eq_true, decide_eq_true_eq, Bool.not_eq_true', beq_eq_false_iff_ne] at h
  have haccepts : ∀ s : PositionManager, generateTradeDedupKey trade ∉ s.appliedTradeIds → s.accepts trade = true :=
    fun s hnew => accepts_iff.mpr ⟨h.1.1.1.1, h.1.1.1.2, h.1.1.2, hnew⟩
  refine ⟨fun s hseen => ?_, fun s hnew => ?_, fun s hnew => ?_⟩
  · apply applyTrade_refused
    simp [accepts, hseen]
  · rw [count, Finset.erase_eq_of_notMem hnew]
  · rw [count, Finset.erase_eq_of_notMem hnew]
    exact appliedTradeIds_applyTrade (haccepts s hnew)

end Position.PositionManager

open Account (AccountManager)
open Position (PositionManager)

/-- The keys tell the fills apart, and the two managers count each fill once: a fresh one comes to what it comes to
when it gets the first report of each fill and takes them all. -/
structure ToldApart (same : Trade → Trade → Bool) (trades : List Trade) : Prop where
  keys : ∀ trade ∈ trades, ∀ trade' ∈ trades,
    generateTradeDedupKey trade = generateTradeDedupKey trade' ↔ same trade trade' = true
  account : ∀ s : AccountManager, s.appliedTradeIds = ∅ →
    trades.foldl AccountManager.applyTrade s = (Dedup.firsts same trades).foldl AccountManager.count s
  position : ∀ s : PositionManager, s.appliedTradeIds = ∅ →
    trades.foldl PositionManager.applyTrade s = (Dedup.firsts same trades).foldl PositionManager.count s

/-- Any valid reports whose colons are not mistaken: each fill is counted once, however often it is reported. -/
theorem fills_told_apart {trades : List Trade} (valid : ∀ trade ∈ trades, isValidTrade trade = true)
    (separated : Separated trades) : ToldApart sameFill trades := by
  have hkeys : ∀ trade ∈ trades, ∀ trade' ∈ trades,
      generateTradeDedupKey trade = generateTradeDedupKey trade' ↔ sameFill trade trade' = true :=
    fun _ ht _ ht' => separated.key_iff ht ht'
  refine ⟨hkeys, fun s hnone => ?_, fun s hnone => ?_⟩
  · exact Dedup.foldl_eq_firsts (fun trade ht => AccountManager.takesOnce (valid trade ht)) hkeys hnone
  · exact Dedup.foldl_eq_firsts (fun trade ht => PositionManager.takesOnce (valid trade ht)) hkeys hnone

/-- A fill with a trade id and one without, whose ids have colons. The first one comes twice. -/
def threeReports : List Trade :=
  [{ tradeId := "SH:1", orderId := "o", instrument := "i", price := .fin 10, volume := 1 },
    { orderId := "t:o", exchangeOrderId := "1:2", instrument := "i", price := .fin 10, volume := 2 },
    { tradeId := "SH:1", orderId := "o", instrument := "i", price := .fin 10, volume := 1 }]

theorem fills_told_apart_three :
    (threeReports.foldl AccountManager.applyTrade {}).filledAmount = .fin 30 := by
  have hseparated : Separated threeReports := ⟨by decide, by decide⟩
  rw [(fills_told_apart (by decide +kernel) hseparated).account {} rfl]
  decide +kernel

/-- The fills of different markets are different ones, too. -/
def sameFillInMarket (trade trade' : Trade) : Bool :=
  sameFill trade trade' && (trade.tradeId == "" || trade.market == trade'.market)

/-- One trade id in Shanghai and in Shenzhen. -/
def twoMarkets : List Trade :=
  [{ tradeId := "1", orderId := "a", instrument := "i", market := .shA, price := .fin 10, volume := 1 },
    { tradeId := "1", orderId := "b", instrument := "j", market := .szA, price := .fin 10, volume := 2 }]

/-- The colon that ends one part is taken for one within it. -/
def shiftedColon : List Trade :=
  [{ orderId := "o", exchangeOrderId := "e:1", reportIndex := 2, instrument := "i", price := .fin 10, volume := 1 },
    { orderId := "o", exchangeOrderId := "e", reportIndex := 1, instrument := "2:i", price := .fin 10, volume := 2 }]

/-- Two fills under one key. The second one is left out. -/
theorem fills_merged :
    (¬∀ trades : List Trade, (∀ trade ∈ trades, isValidTrade trade = true) → ToldApart sameFillInMarket trades) ∧
      ¬∀ trades : List Trade, (∀ trade ∈ trades, isValidTrade trade = true) → ToldApart sameFill trades := by
  constructor
  · intro hall
    have hamount := congrArg AccountManager.filledAmount
      ((hall twoMarkets (by decide +kernel)).account {} rfl)
    revert hamount
    decide +kernel
  · intro hall
    have hposition := congrArg (·.getPosition "2:i" .long)
      ((hall shiftedColon (by decide +kernel)).position {} rfl)
    revert hposition
    decide +kernel

end Qtrade
