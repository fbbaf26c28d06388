import Qtrade.Account
import Qtrade.Oms.Fills
import Qtrade.Oms.Startup
import Qtrade.Position

/-!
# Taking over the broker's state

`TradingEngine::SynchronizeBrokerState`: the broker's orders are reconciled, then the trades of the
day are applied one by one, then positions and asset are replaced.
-/

namespace Qtrade.Engine

open Qtrade.Oms
open Qtrade.Oms.OrderManager

/-- The answers to the four queries. -/
structure BrokerSnapshot where
  orders : List Order := []
  trades : List Trade := []
  positions : List Qtrade.Position := []
  asset : AccountAsset := {}

/-- The managers that keep the account's books. -/
structure Books where
  oms : OrderManager := {}
  account : Account.AccountManager := {}
  position : Position.PositionManager := {}

namespace Books

/-- The order that is looked up after a report was applied. -/
def local? (s : Books) (orderId : String) (clientOrderId : UInt32) : Option Order :=
  if orderId = "" then s.oms.getOrderByClientId clientOrderId else s.oms.getOrder orderId

def takeOrder (s : Books) (report : Order) : Books :=
  let s := { s with oms := s.oms.reconcileBrokerOrder report }
  match s.local? report.orderId report.clientOrderId with
  | some known =>
    { s with oms := s.oms.markReconciled known.orderId, account := s.account.applyOrder known }
  | none => s

def takeTrade (s : Books) (report : Trade) : Books :=
  let s := { s with oms := s.oms.applyTradeReport report }
  match s.local? report.orderId report.clientOrderId with
  | some known => { s with oms := s.oms.markReconciled known.orderId }
  | none => s

def takeOrders (s : Books) (orders : List Order) : Books := orders.foldl takeOrder s

def takeTrades (s : Books) (trades : List Trade) : Books := trades.foldl takeTrade s

/-- What follows the queries. -/
def synchronize (s : Books) (snapshot : BrokerSnapshot) : ErrorCode × Books :=
  let s := (s.takeOrders snapshot.orders).takeTrades snapshot.trades
  let s := { s with
    position := s.position.applyPositionSnapshot snapshot.positions
    account := s.account.applyAssetSnapshot snapshot.asset }
  (if s.oms.getOrdersRequiringReconciliation.card = 0 then .success else .internalError, s)

end Books

/-! ## Consistent snapshots -/

/-- The trade is about the order: by its order id if an order has that, or else by its client id. -/
def names (orders : List Order) (trade : Trade) (order : Order) : Bool :=
  if orders.any (·.orderId == trade.orderId) then order.orderId == trade.orderId
  else trade.clientOrderId != 0 && order.clientOrderId == trade.clientOrderId

/-- What a broker that keeps its books in order answers. -/
structure Consistent (snapshot : BrokerSnapshot) : Prop where
  orderIds : (snapshot.orders.map (·.orderId)).Nodup
  identified : ∀ order ∈ snapshot.orders, order.orderId ≠ ""
  tradeIds : (snapshot.trades.map (·.tradeId)).Nodup
  tradedVolume : ∀ order ∈ snapshot.orders, order.tradedVolume =
    ((snapshot.trades.filter (names snapshot.orders · order)).map (·.volume)).sum
  leftVolume : ∀ order ∈ snapshot.orders, order.leftVolume = order.volume - order.tradedVolume
  tradeAmount : ∀ order ∈ snapshot.orders, order.tradeAmount =
    ((snapshot.trades.filter (names snapshot.orders · order)).map (·.tradeAmount)).sum

/-- The table holds the broker's orders with the figures that the broker reported. -/
structure Reproduces (s : OrderManager) (orders : List Order) : Prop where
  keys : ∀ orderId, (∃ e, s.orders.lookup orderId = some e) ↔ ∃ order ∈ orders, order.orderId = orderId
  figures : ∀ order ∈ orders, ∃ e, s.orders.lookup order.orderId = some e ∧
    e.order.volume = order.volume ∧ e.order.tradedVolume = order.tradedVolume ∧
    e.order.leftVolume = order.leftVolume ∧ e.order.tradeAmount = order.tradeAmount ∧
    e.order.status = order.status ∧ e.lifecycleState = lifecycleFromOrderStatus order.status .working

/-- No two orders have the same client id. -/
def DistinctClients (orders : List Order) : Prop :=
  ∀ o ∈ orders, ∀ o' ∈ orders, o.clientOrderId ≠ 0 → o'.clientOrderId = o.clientOrderId → o' = o

/-- The state graph refuses the trade for the order as the broker reports it. -/
def spares (order : Order) (trade : Trade) : Bool :=
  order.status == .canceled || order.status == .rejected ||
    (order.status == .filled && decide (order.tradedVolume + trade.volume < order.volume))

/-! ## One report -/

variable {s : Books} {oms : OrderManager} {orders : List Order} {orderId : String} {e : OrderEntry}

/-- All but the marks on reconciled orders. -/
structure SameTables (s s' : OrderManager) : Prop where
  orders : s'.orders = s.orders
  clientOrderIndex : s'.clientOrderIndex = s.clientOrderIndex
  appliedTradeIds : s'.appliedTradeIds = s.appliedTradeIds
  initialized : s'.initialized = s.initialized

theorem SameTables.refl (s : OrderManager) : SameTables s s := ⟨rfl, rfl, rfl, rfl⟩

theorem markReconciled_same (oms : OrderManager) (orderId : String) :
    SameTables oms (oms.markReconciled orderId) := by
  unfold OrderManager.markReconciled
  split <;> exact ⟨rfl, rfl, rfl, rfl⟩

theorem takeOrder_same (s : Books) (report : Order) :
    SameTables (s.oms.reconcileBrokerOrder report) (s.takeOrder report).oms := by
  unfold Books.takeOrder
  dsimp only
  split
  · exact markReconciled_same _ _
  · exact .refl _

theorem takeTrade_same (s : Books) (report : Trade) :
    SameTables (s.oms.applyTradeReport report) (s.takeTrade report).oms := by
  unfold Books.takeTrade
  dsimp only
  split
  · exact markReconciled_same _ _
  · exact .refl _

theorem takeOrder_startup (h : OrderManager.Startup s.oms) {report : Order} (hid : report.orderId ≠ "") :
    OrderManager.Startup (s.takeOrder report).oms := by
  have hreconciled := h.brokerOrder report fun hempty => absurd hempty hid
  unfold Books.takeOrder
  dsimp only
  split
  · exact hreconciled.reconciled _
  · exact hreconciled

theorem takeTrade_startup (h : OrderManager.Startup s.oms) (report : Trade) :
    OrderManager.Startup (s.takeTrade report).oms := by
  unfold Books.takeTrade
  dsimp only
  split
  · exact (h.brokerTrade report).reconciled _
  · exact h.brokerTrade report

theorem reconcileBrokerOrder_origin {report : Order} (hid : report.orderId ≠ "")
    (he : (oms.reconcileBrokerOrder report).orders.lookup orderId = some e) :
    (∃ e₀, oms.orders.lookup orderId = some e₀ ∧ e₀.Advances e) ∨
      (orderId = report.orderId ∧ e = adoptedEntry report orderId) := by
  unfold OrderManager.reconcileBrokerOrder at he
  split at he
  · exact Or.inl ⟨e, he, OrderEntry.Advances.refl e⟩
  · split at he
    case h_1 hf =>
      simp only [adopt, orders_index, store, Table.lookup_store] at he
      split at he
      case isTrue hkey => cases he; exact Or.inr ⟨hkey, by rw [hkey]⟩
      case isFalse => exact Or.inl ⟨e, he, OrderEntry.Advances.refl e⟩
    case h_2 key e₀ hf =>
      have he₀ := (findOrderLocked_some hf).1
      have hset := orderReport_settles e₀ report
      unfold kept at hset
      dsimp only at he
      split at he
      case isTrue hok =>
        rw [if_pos hok] at hset
        simp only [store, Table.lookup_store] at he
        split at he
        case isTrue hkey => cases he; exact Or.inl ⟨e₀, hkey ▸ he₀, hset.toAdvances⟩
        case isFalse => exact Or.inl ⟨e, he, OrderEntry.Advances.refl e⟩
      case isFalse => exact Or.inl ⟨e, he, OrderEntry.Advances.refl e⟩

/-! ## Client ids -/

/-- Every entry has the client id of the broker order under its key. -/
def Owned (oms : OrderManager) (orders : List Order) : Prop :=
  ∀ orderId e, oms.orders.lookup orderId = some e →
    ∃ order ∈ orders, order.orderId = orderId ∧ e.order.clientOrderId = order.clientOrderId

theorem takeOrders_owned (taken : List Order) (hin : ∀ order ∈ taken, order ∈ orders ∧ order.orderId ≠ "")
    (hs : OrderManager.Startup s.oms) (ho : Owned s.oms orders) :
    OrderManager.Startup (s.takeOrders taken).oms ∧ Owned (s.takeOrders taken).oms orders := by
  induction taken generalizing s with
  | nil => exact ⟨hs, ho⟩
  | cons report rest ih =>
    obtain ⟨hmem, hid⟩ := hin report (by simp)
    refine ih (fun order h => hin order (by simp [h])) (takeOrder_startup hs hid) fun orderId e he => ?_
    rw [(takeOrder_same s report).orders] at he
    rcases reconcileBrokerOrder_origin hid he with ⟨e₀, he₀, ha⟩ | ⟨rfl, rfl⟩
    · obtain ⟨order, h, hkey, hc⟩ := ho orderId e₀ he₀
      exact ⟨order, h, hkey, ha.clientOrderId.trans hc⟩
    · exact ⟨report, hmem, rfl, rfl⟩

theorem takeTrades_owned (trades : List Trade) (hs : OrderManager.Startup s.oms) (ho : Owned s.oms orders) :
    OrderManager.Startup (s.takeTrades trades).oms ∧ Owned (s.takeTrades trades).oms orders := by
  induction trades generalizing s with
  | nil => exact ⟨hs, ho⟩
  | cons report rest ih =>
    refine ih (takeTrade_startup hs report) fun orderId e he => ?_
    rw [(takeTrade_same s report).orders] at he
    obtain ⟨e₀, he₀, hset⟩ := (applyTradeReport_evolves s.oms report).origin he
    obtain ⟨order, h, hkey, hc⟩ := ho orderId e₀ he₀
    exact ⟨order, h, hkey, hset.clientOrderId.trans hc⟩

theorem Owned.distinctClients (ho : Owned oms orders) (hwf : oms.WellFormed)
    (hids : (orders.map (·.orderId)).Nodup)
    (hkeys : ∀ order ∈ orders, ∃ e, oms.orders.lookup order.orderId = some e) : DistinctClients orders := by
  have hown : ∀ order ∈ orders, ∃ e, oms.orders.lookup order.orderId = some e ∧
      e.order.clientOrderId = order.clientOrderId := by
    intro order h
    obtain ⟨e, he⟩ := hkeys order h
    obtain ⟨order', h', hkey, hc⟩ := ho _ e he
    obtain rfl := List.inj_on_of_nodup_map hids h' h hkey
    exact ⟨e, he, hc⟩
  intro o h o' h' hc hsame
  obtain ⟨e, he, hec⟩ := hown o h
  obtain ⟨e', he', hec'⟩ := hown o' h'
  have hid := hwf.unique he he' (hec ▸ hc) (by rw [hec, hec', hsame])
  exact List.inj_on_of_nodup_map hids h' h hid

/-! ## The order loop -/

/-- Exactly these orders have been adopted, and no trade has been applied. -/
structure Book (oms : OrderManager) (orders : List Order) : Prop where
  initialized : oms.initialized = true
  entries : ∀ orderId e, oms.orders.lookup orderId = some e ↔
    ∃ order ∈ orders, order.orderId = orderId ∧ e = adoptedEntry order orderId
  index : ∀ clientOrderId orderId, oms.clientOrderIndex.lookup clientOrderId = some orderId ↔
    clientOrderId ≠ 0 ∧ ∃ order ∈ orders, order.clientOrderId = clientOrderId ∧ order.orderId = orderId
  applied : oms.appliedTradeIds = ∅

theorem Book.same {oms' : OrderManager} (h : Book oms orders) (hs : SameTables oms oms') : Book oms' orders := by
  refine ⟨hs.initialized.trans h.initialized, ?_, ?_, hs.appliedTradeIds.trans h.applied⟩
  · rw [hs.orders]; exact h.entries
  · rw [hs.clientOrderIndex]; exact h.index

theorem Book.reconcile_eq (h : Book oms orders) {report : Order} (hid : report.orderId ≠ "")
    (hnew : ∀ order ∈ orders, order.orderId ≠ report.orderId)
    (hclient : report.clientOrderId ≠ 0 → ∀ order ∈ orders, order.clientOrderId ≠ report.clientOrderId) :
    oms.reconcileBrokerOrder report = oms.adopt report report.orderId := by
  have hnone : oms.orders.lookup report.orderId = none := by
    cases he : oms.orders.lookup report.orderId with
    | none => rfl
    | some e =>
      obtain ⟨order, hmem, hkey, _⟩ := (h.entries _ e).mp he
      exact absurd hkey (hnew order hmem)
  have hfree : report.clientOrderId ≠ 0 → oms.clientOrderIndex.lookup report.clientOrderId = none := by
    intro hc
    cases hi : oms.clientOrderIndex.lookup report.clientOrderId with
    | none => rfl
    | some id =>
      obtain ⟨_, order, hmem, hsame, _⟩ := (h.index _ id).mp hi
      exact absurd hsame (hclient hc order hmem)
  have hfind : oms.findOrderLocked report.orderId report.clientOrderId = none := by
    unfold findOrderLocked
    rw [hnone]
    dsimp only
    split
    case isTrue hc => rw [hfree hc]
    case isFalse => rfl
  simp [OrderManager.reconcileBrokerOrder, h.initialized, hfind, hid]

theorem Book.reconcile (h : Book oms orders) {report : Order} (hid : report.orderId ≠ "")
    (hnew : ∀ order ∈ orders, order.orderId ≠ report.orderId)
    (hclient : report.clientOrderId ≠ 0 → ∀ order ∈ orders, order.clientOrderId ≠ report.clientOrderId) :
    Book (oms.reconcileBrokerOrder report) (orders ++ [report]) := by
  rw [h.reconcile_eq hid hnew hclient]
  refine ⟨?_, fun orderId e => ?_, fun clientOrderId orderId => ?_, ?_⟩
  · simp [adopt, store, h.initialized]
  · simp only [adopt, orders_index, store, Table.lookup_store, List.mem_append, List.mem_singleton]
    by_cases hkey : orderId = report.orderId
    · subst hkey
      rw [if_pos rfl]
      constructor
      · rintro ⟨⟩; exact ⟨report, Or.inr rfl, rfl, rfl⟩
      · rintro ⟨order, hmem | rfl, hkey, rfl⟩
        · exact absurd hkey (hnew order hmem)
        · rfl
    · rw [if_neg hkey, h.entries]
      constructor
      · rintro ⟨order, hmem, heq⟩; exact ⟨order, Or.inl hmem, heq⟩
      · rintro ⟨order, hmem | rfl, hsame, heq⟩
        · exact ⟨order, hmem, hsame, heq⟩
        · exact absurd hsame.symm hkey
  · simp only [adopt, lookup_index, List.mem_append, List.mem_singleton]
    by_cases hc : report.clientOrderId ≠ 0 ∧ clientOrderId = report.clientOrderId
    · rw [if_pos hc]
      obtain ⟨hne, rfl⟩ := hc
      constructor
      · rintro ⟨⟩; exact ⟨hne, report, Or.inr rfl, rfl, rfl⟩
      · rintro ⟨_, order, hmem | rfl, hsame, rfl⟩
        · exact absurd hsame (hclient hne order hmem)
        · rfl
    · rw [if_neg hc]
      have hold := h.index clientOrderId orderId
      simp only [store]
      rw [hold]
      refine and_congr_right fun hne => ⟨?_, ?_⟩
      · rintro ⟨order, hmem, heq⟩; exact ⟨order, Or.inl hmem, heq⟩
      · rintro ⟨order, hmem | rfl, hsame, heq⟩
        · exact ⟨order, hmem, hsame, heq⟩
        · exact absurd ⟨hsame ▸ hne, hsame.symm⟩ hc
  · have happlied : (oms.adopt report report.orderId).appliedTradeIds = oms.appliedTradeIds := by
      unfold OrderManager.adopt OrderManager.index
      dsimp only
      split <;> rfl
    rw [happlied, h.applied]

theorem takeOrders_book (taken rest : List Order) (h : Book s.oms taken)
    (hids : ((taken ++ rest).map (·.orderId)).Nodup) (hne : ∀ order ∈ rest, order.orderId ≠ "")
    (hclients : DistinctClients (taken ++ rest)) : Book (s.takeOrders rest).oms (taken ++ rest) := by
  induction rest generalizing s taken with
  | nil => rw [List.append_nil]; exact h
  | cons report rest ih =>
    have hsplit : taken ++ report :: rest = taken ++ [report] ++ rest := by simp
    have hnew : ∀ order ∈ taken, order.orderId ≠ report.orderId := by
      rw [List.map_append, List.nodup_append] at hids
      intro order hmem
      exact hids.2.2 _ (List.mem_map_of_mem hmem) _ (List.mem_map_of_mem (by simp))
    have hclient : report.clientOrderId ≠ 0 → ∀ order ∈ taken, order.clientOrderId ≠ report.clientOrderId := by
      intro hc order hmem hsame
      have heq := hclients report (by simp) order (by simp [hmem]) hc hsame
      exact hnew order hmem (congrArg Order.orderId heq)
    have hbook := (h.reconcile (hne report (by simp)) hnew hclient).same (takeOrder_same s report)
    rw [hsplit] at hids hclients ⊢
    exact ih (taken ++ [report]) hbook hids (fun order hmem => hne order (by simp [hmem])) hclients

/-! ## The trade loop -/

theorem any_orderId {orders : List Order} {orderId : String} :
    orders.any (·.orderId == orderId) = true ↔ ∃ order ∈ orders, order.orderId = orderId := by
  simp

theorem Book.named (h : Book oms orders) {trade : Trade} {key : String}
    (hf : oms.findOrderLocked trade.orderId trade.clientOrderId = some (key, e)) :
    ∃ order ∈ orders, names orders trade order = true ∧ order.orderId = key ∧ e = adoptedEntry order key := by
  unfold findOrderLocked at hf
  cases he : oms.orders.lookup trade.orderId with
  | some e' =>
    rw [he] at hf
    cases hf
    obtain ⟨order, hmem, hkey, heq⟩ := (h.entries _ _).mp he
    refine ⟨order, hmem, ?_, hkey, heq⟩
    rw [names, if_pos (any_orderId.mpr ⟨order, hmem, hkey⟩), hkey]
    exact beq_self_eq_true _
  | none =>
    have hunknown : ¬orders.any (·.orderId == trade.orderId) = true := by
      rw [any_orderId]
      rintro ⟨order, hmem, hkey⟩
      have hlookup := (h.entries trade.orderId _).mpr ⟨order, hmem, hkey, rfl⟩
      rw [he] at hlookup
      cases hlookup
    rw [he] at hf
    dsimp only at hf
    split at hf
    case isFalse => cases hf
    case isTrue hc =>
      cases hi : oms.clientOrderIndex.lookup trade.clientOrderId with
      | none => rw [hi] at hf; cases hf
      | some key' =>
        rw [hi] at hf
        obtain ⟨e', he', heq⟩ := Option.map_eq_some_iff.mp hf
        cases heq
        obtain ⟨_, order, hmem, hsame, hkey⟩ := (h.index _ _).mp hi
        obtain ⟨order', hmem', hkey', heq⟩ := (h.entries _ _).mp he'
        have hadopted := (h.entries key _).mpr ⟨order, hmem, hkey, rfl⟩
        rw [he'] at hadopted
        refine ⟨order, hmem, ?_, hkey, Option.some.inj hadopted⟩
        rw [names, if_neg hunknown]
        simp [hc, hsame]

theorem Book.findOrder (h : Book oms orders) {trade : Trade} {order : Order} (hmem : order ∈ orders)
    (hn : names orders trade order = true) :
    oms.findOrderLocked trade.orderId trade.clientOrderId =
      some (order.orderId, adoptedEntry order order.orderId) := by
  have hadopted := (h.entries order.orderId _).mpr ⟨order, hmem, rfl, rfl⟩
  unfold names at hn
  unfold findOrderLocked
  split at hn
  case isTrue =>
    rw [beq_iff_eq] at hn
    rw [← hn, hadopted]
  case isFalse hunknown =>
    simp only [Bool.and_eq_true, bne_iff_ne, beq_iff_eq] at hn
    obtain ⟨hc, hsame⟩ := hn
    have hnone : oms.orders.lookup trade.orderId = none := by
      cases he : oms.orders.lookup trade.orderId with
      | none => rfl
      | some e =>
        obtain ⟨order', hmem', hkey, _⟩ := (h.entries _ _).mp he
        exact absurd (any_orderId.mpr ⟨order', hmem', hkey⟩) hunknown
    have hindex := (h.index trade.clientOrderId order.orderId).mpr ⟨hc, order, hmem, hsame, rfl⟩
    rw [hnone]
    simp [hc, hindex, hadopted]

theorem tradeReportEntry_adopted (order : Order) (key : String) (trade : Trade) :
    (tradeReportEntry (adoptedEntry order key) trade).1 = .success ↔ spares order trade = false := by
  have hcan : ∀ entry target, (applyTransition entry target).1 = .success ↔
      canTransition entry.lifecycleState target = true := by
    intro entry target
    rcases applyTransition_cases entry target with ⟨hedge, h⟩ | ⟨hedge, h⟩ <;> simp [h, hedge]
  unfold tradeReportEntry spares
  rw [hcan]
  dsimp only [adoptedEntry]
  by_cases hpart : order.tradedVolume + trade.volume < order.volume
  · have hleft : ¬max 0 (order.volume - (order.tradedVolume + trade.volume)) = 0 := by omega
    cases order.status <;> simp [hpart, hleft, lifecycleFromOrderStatus, canTransition]
  · have hleft : max 0 (order.volume - (order.tradedVolume + trade.volume)) = 0 := by omega
    cases order.status <;> simp [hpart, hleft, lifecycleFromOrderStatus, canTransition]

theorem Book.spared (h : Book oms orders) {trade : Trade}
    (hs : ∀ order ∈ orders, names orders trade order = true → spares order trade = true) :
    oms.applyTradeReport trade = oms := by
  unfold OrderManager.applyTradeReport
  split
  · rfl
  · split
    · rfl
    case h_2 key e hf =>
      obtain ⟨order, hmem, hn, _, rfl⟩ := h.named hf
      have hrefused : ¬(tradeReportEntry (adoptedEntry order key) trade).1 = .success := by
        rw [tradeReportEntry_adopted, hs order hmem hn]
        simp
      dsimp only
      rw [if_neg hrefused]

theorem takeTrades_book (trades : List Trade) (h : Book s.oms orders)
    (hs : ∀ trade ∈ trades, ∀ order ∈ orders, names orders trade order = true → spares order trade = true) :
    Book (s.takeTrades trades).oms orders := by
  induction trades generalizing s with
  | nil => exact h
  | cons trade rest ih =>
    refine ih (Book.same ?_ (takeTrade_same s trade)) fun t ht => hs t (by simp [ht])
    rw [h.spared (hs trade (by simp))]
    exact h

theorem Book.reproduces (h : Book oms orders) : Reproduces oms orders := by
  constructor
  · intro orderId
    constructor
    · rintro ⟨e, he⟩
      obtain ⟨order, hmem, hkey, _⟩ := (h.entries _ _).mp he
      exact ⟨order, hmem, hkey⟩
    · rintro ⟨order, hmem, hkey⟩
      exact ⟨_, (h.entries orderId _).mpr ⟨order, hmem, hkey, rfl⟩⟩
  · intro order hmem
    exact ⟨adoptedEntry order order.orderId, (h.entries _ _).mpr ⟨order, hmem, rfl, rfl⟩, rfl, rfl, rfl, rfl, rfl, rfl⟩

/-! ## A trade counted twice -/

/-- The entry under a key has more traded volume than a bound. -/
def Ahead (oms : OrderManager) (key : String) (bound : Int) : Prop :=
  ∃ e, oms.orders.lookup key = some e ∧ bound < e.order.tradedVolume

theorem Ahead.trade {key : String} {bound : Int} (h : Ahead oms key bound) {trade : Trade}
    (hv : 0 < trade.volume) : Ahead (oms.applyTradeReport trade) key bound := by
  obtain ⟨e, he, hb⟩ := h
  unfold Ahead
  rw [lookup_applyTradeReport]
  split
  case isFalse => exact ⟨e, he, hb⟩
  case isTrue =>
    rw [he]
    refine ⟨kept e (tradeReportEntry e trade), rfl, ?_⟩
    unfold kept
    split
    case isFalse => exact hb
    case isTrue hok =>
      rw [(tradeReportEntry_success hok).2.1]
      omega

theorem Ahead.trades {key : String} {bound : Int} (trades : List Trade) (h : Ahead s.oms key bound)
    (hv : ∀ trade ∈ trades, 0 < trade.volume) : Ahead (s.takeTrades trades).oms key bound := by
  induction trades generalizing s with
  | nil => exact h
  | cons trade rest ih =>
    refine ih ?_ fun t ht => hv t (by simp [ht])
    unfold Ahead
    rw [(takeTrade_same s trade).orders]
    exact h.trade (hv trade (by simp))

theorem Book.ahead (h : Book oms orders) {trade : Trade} {order : Order} (hmem : order ∈ orders)
    (hn : names orders trade order = true) (hs : spares order trade = false) (hv : 0 < trade.volume) :
    Ahead (oms.applyTradeReport trade) order.orderId order.tradedVolume := by
  have hf := h.findOrder hmem hn
  have hok := (tradeReportEntry_adopted order order.orderId trade).mpr hs
  have hnew : generateTradeDedupKey trade ∉ oms.appliedTradeIds := by simp [h.applied]
  refine ⟨(tradeReportEntry (adoptedEntry order order.orderId) trade).2, ?_, ?_⟩
  · rw [lookup_applyTradeReport, if_pos ⟨hnew, reportKey_eq_some.mpr ⟨_, hf⟩⟩, (findOrderLocked_some hf).1]
    simp [kept, hok]
  · rw [(tradeReportEntry_success hok).2.1]
    have hreported : (adoptedEntry order order.orderId).order.tradedVolume = order.tradedVolume := rfl
    omega

theorem takeTrades_ahead (trades : List Trade) (h : Book s.oms orders) (hv : ∀ trade ∈ trades, 0 < trade.volume)
    (hs : ¬∀ trade ∈ trades, ∀ order ∈ orders, names orders trade order = true → spares order trade = true) :
    ∃ order ∈ orders, Ahead (s.takeTrades trades).oms order.orderId order.tradedVolume := by
  induction trades generalizing s with
  | nil => simp at hs
  | cons trade rest ih =>
    have hrest : ∀ t ∈ rest, 0 < t.volume := fun t ht => hv t (by simp [ht])
    by_cases hfirst : ∀ order ∈ orders, names orders trade order = true → spares order trade = true
    · refine ih (Book.same ?_ (takeTrade_same s trade)) hrest fun hall => hs ?_
      · rw [h.spared hfirst]
        exact h
      · intro t ht
        rcases List.mem_cons.mp ht with rfl | ht
        · exact hfirst
        · exact hall t ht
    · push Not at hfirst
      obtain ⟨order, hmem, hn, hns⟩ := hfirst
      refine ⟨order, hmem, Ahead.trades rest ?_ hrest⟩
      unfold Ahead
      rw [(takeTrade_same s trade).orders]
      exact h.ahead hmem hn (by simpa using hns) (hv trade (by simp))

/-! ## The order book of the broker -/

theorem book_initializeWith {s₀ : OrderManager} {options : OrderManagerOptions}
    (h : s₀.initializeWith options = (.success, oms)) : Book oms [] := by
  unfold initializeWith at h
  split at h
  · cases h
  · split at h
    · cases h
    · cases h
      constructor <;> simp

theorem owned_initializeWith {s₀ : OrderManager} {options : OrderManagerOptions}
    (h : s₀.initializeWith options = (.success, oms)) (orders : List Order) : Owned oms orders := by
  intro orderId e he
  obtain ⟨_, hmem, _⟩ := ((book_initializeWith h).entries orderId e).mp he
  simp at hmem

/-- After `SynchronizeBrokerState` the table is the broker's order book when every trade of the day
is refused by the orders that it names and no two orders have the same client id. Where all trades
have a volume, only then. -/
theorem synchronize_reproduces_iff {s₀ : OrderManager} {options : OrderManagerOptions} {snapshot : BrokerSnapshot}
    (hinit : s₀.initializeWith options = (.success, s.oms)) (hc : Consistent snapshot) :
    (DistinctClients snapshot.orders ∧
        (∀ trade ∈ snapshot.trades, ∀ order ∈ snapshot.orders, names snapshot.orders trade order = true →
          spares order trade = true) →
      Reproduces (s.synchronize snapshot).2.oms snapshot.orders) ∧
    ((∀ trade ∈ snapshot.trades, 0 < trade.volume) →
      Reproduces (s.synchronize snapshot).2.oms snapshot.orders →
      DistinctClients snapshot.orders ∧
        (∀ trade ∈ snapshot.trades, ∀ order ∈ snapshot.orders, names snapshot.orders trade order = true →
          spares order trade = true)) := by
  have homs : (s.synchronize snapshot).2.oms = ((s.takeOrders snapshot.orders).takeTrades snapshot.trades).oms := rfl
  have hbook : DistinctClients snapshot.orders → Book (s.takeOrders snapshot.orders).oms snapshot.orders := fun hd =>
    takeOrders_book [] snapshot.orders (book_initializeWith hinit) hc.orderIds hc.identified hd
  rw [homs]
  constructor
  · rintro ⟨hd, hs⟩
    exact (takeTrades_book snapshot.trades (hbook hd) hs).reproduces
  · intro hv hr
    have hids : ∀ order ∈ snapshot.orders, order ∈ snapshot.orders ∧ order.orderId ≠ "" :=
      fun order hmem => ⟨hmem, hc.identified order hmem⟩
    obtain ⟨hstart, howned⟩ := takeOrders_owned snapshot.orders hids
      (OrderManager.Startup.initialized options hinit) (owned_initializeWith hinit snapshot.orders)
    obtain ⟨hstart, howned⟩ := takeTrades_owned snapshot.trades hstart howned
    have hd := howned.distinctClients hstart.started.wellFormed hc.orderIds fun order hmem =>
      (hr.keys order.orderId).mpr ⟨order, hmem, rfl⟩
    refine ⟨hd, ?_⟩
    by_contra hs
    obtain ⟨order, hmem, e, he, hahead⟩ := takeTrades_ahead snapshot.trades (hbook hd) hv hs
    obtain ⟨e', he', _, htraded, _⟩ := hr.figures order hmem
    obtain rfl : e' = e := Option.some.inj (he'.symm.trans he)
    omega

/-! ## An order with one fill -/

def day (status : OrderStatusType) : BrokerSnapshot where
  orders := [{ orderId := "o", clientOrderId := 1, instrument := "i", price := .ofInt 10, volume := 10
               tradedVolume := 4, leftVolume := 6, tradeAmount := .ofInt 40, status := status }]
  trades := [{ tradeId := "t", orderId := "o", instrument := "i", price := .ofInt 10, volume := 4
               tradeAmount := .ofInt 40 }]

theorem day_consistent (status : OrderStatusType) : Consistent (day status) where
  orderIds := by simp [day]
  identified := by simp [day]
  tradeIds := by simp [day]
  tradedVolume := by simp [day, names]
  leftVolume := by simp [day]
  tradeAmount := by simp [day, names]

def fresh : OrderManager := { tenantId := "q", engineId := "e", engineEpoch := 1, initialized := true }

theorem fresh_initialized : ({} : OrderManager).initializeWith ⟨"q", "e", 1⟩ = (.success, fresh) := by
  simp [initializeWith, fresh]

/-- A canceled order spares its fill, one that is still working does not. -/
theorem synchronize_reproduces_canceled :
    Reproduces (({ oms := fresh } : Books).synchronize (day .canceled)).2.oms (day .canceled).orders ∧
      ¬Reproduces (({ oms := fresh } : Books).synchronize (day .partiallyFilled)).2.oms
        (day .partiallyFilled).orders := by
  constructor
  · refine (synchronize_reproduces_iff (s := { oms := fresh }) fresh_initialized (day_consistent .canceled)).1 ⟨?_, ?_⟩
    · intro o ho o' ho' _ _
      rw [List.mem_singleton.mp ho, List.mem_singleton.mp ho']
    · intro trade _ order ho _
      rw [List.mem_singleton.mp ho]
      rfl
  · intro hr
    obtain ⟨_, hs⟩ := (synchronize_reproduces_iff (s := { oms := fresh }) fresh_initialized
      (day_consistent .partiallyFilled)).2 (by simp [day]) hr
    have hspared := hs _ (List.mem_singleton_self _) _ (List.mem_singleton_self _) (by decide)
    cases hspared

/-- While the order works, its fill is in the order's figures and comes again as a trade. -/
theorem trade_counted_twice : ¬ ∀ (s₀ : OrderManager) (options : OrderManagerOptions) (s : Books)
    (snapshot : BrokerSnapshot), s₀.initializeWith options = (.success, s.oms) → Consistent snapshot →
    Reproduces (s.synchronize snapshot).2.oms snapshot.orders := by
  intro hall
  have hr := hall {} ⟨"q", "e", 1⟩ { oms := fresh } (day .partiallyFilled) fresh_initialized
    (day_consistent .partiallyFilled)
  have htwice : ∃ e ∈ (({ oms := fresh } : Books).synchronize (day .partiallyFilled)).2.oms.orders.lookup "o",
      e.order.tradedVolume = 8 := by decide +kernel
  obtain ⟨e, he, height⟩ := htwice
  obtain ⟨e', he', _, hfour, _⟩ := hr.figures _ (List.mem_singleton_self _)
  obtain rfl : e' = e := Option.some.inj (he'.symm.trans he)
  rw [height] at hfour
  cases hfour

end Qtrade.Engine
