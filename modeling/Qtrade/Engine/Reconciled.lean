import Qtrade.Engine.BrokerState
import Qtrade.Engine.Lookup
import Qtrade.Lib.Folds

/-!
# The gate after reconciling

`SynchronizeBrokerState` answers with success where no order is left that still requires
reconciliation. An adopted order counts as reconciled whatever its status says.
-/

namespace Qtrade.Engine

open Qtrade.Oms
open Qtrade.Oms.OrderManager

/-- An entry of a snapshot, as the two loops of `SynchronizeBrokerState` take it. -/
def Books.take (s : Books) : Order ⊕ Trade → Books
  | .inl report => s.takeOrder report
  | .inr report => s.takeTrade report

/-- The entries of a snapshot in the order in which they are taken. -/
def BrokerSnapshot.entries (snapshot : BrokerSnapshot) : List (Order ⊕ Trade) :=
  snapshot.orders.map .inl ++ snapshot.trades.map .inr

/-- The state that a broker order is brought into: the state of the order that it means is kept where
the status says nothing, and an adopted order works. -/
def broughtInto (s : OrderManager) (report : Order) (l : OrderLifecycleState) : OrderLifecycleState :=
  lifecycleFromOrderStatus report.status
    (if (s.reportKey report.orderId report.clientOrderId).isSome then l else .working)

/-- The order that an entry brings in with a status that leaves its fate open. -/
def leavesUnknown (s : Books) : Order ⊕ Trade → Option String
  | .inl report =>
    if (s.oms.reportKey report.orderId report.clientOrderId).isNone ∧ report.status = .unknown then
      Report.resolved s.oms (.brokerOrder report)
    else none
  | .inr _ => none

/-- The entry is about the order, and says what became of it. -/
def settlesUnknown (orderId : String) (s : Books) : Order ⊕ Trade → Bool
  | .inl report => Report.resolved s.oms (.brokerOrder report) == some orderId &&
      broughtInto s.oms report .sendUnknown != .sendUnknown
  | .inr report => Report.resolved s.oms (.trade report) == some orderId &&
      !(generateTradeDedupKey report ∈ s.oms.appliedTradeIds)

/-- The entry is adopted as the order, or its status is merged into it. -/
def confirms (orderId : String) (s : Books) (report : Order) : Bool :=
  Report.resolved s.oms (.brokerOrder report) == some orderId &&
    (s.oms.findOrderLocked report.orderId report.clientOrderId).all fun found =>
      (orderReportEntry found.2 report).1 == .success

/-- The order's fate is unknown. -/
def Unknown (orderId : String) (s : Books) : Prop :=
  ∃ e, s.oms.orders.lookup orderId = some e ∧ e.lifecycleState = .sendUnknown

variable {s : Books} {oms : OrderManager} {orderId : String} {e : OrderEntry}

/-! ## One entry -/

theorem lookup_reconcileBrokerOrder (h : oms.initialized = true) (report : Order) (orderId : String) :
    (oms.reconcileBrokerOrder report).orders.lookup orderId =
      if Report.resolved oms (.brokerOrder report) = some orderId then
        match oms.findOrderLocked report.orderId report.clientOrderId with
        | some found => some (kept found.2 (orderReportEntry found.2 report))
        | none => some (adoptedEntry report orderId)
      else oms.orders.lookup orderId := by
  unfold Report.resolved reportKey
  cases hf : oms.findOrderLocked report.orderId report.clientOrderId with
  | none =>
    rw [lookup_reconcileBrokerOrder_new h hf]
    simp [adoptionId, h, hf]
  | some found =>
    rw [lookup_reconcileBrokerOrder_found h hf]
    simp only [hf, Option.map_some, Option.some.injEq, eq_comm (b := orderId)]

/-- What the two loops rely on: nothing waits to be sent, and every order counts as reconciled. -/
structure Taken (oms : OrderManager) : Prop where
  initialized : oms.initialized = true
  pastSending : ∀ id e, oms.orders.lookup id = some e → e.lifecycleState.rank = 3
  reconciled : ∀ id e, oms.orders.lookup id = some e → e.order.orderId ∈ oms.reconciledOrderIds

theorem Taken.markReconciled (h : Taken oms) (id : String) : Taken (oms.markReconciled id) := by
  have hsame := markReconciled_same oms id
  refine ⟨hsame.initialized.trans h.initialized, ?_, ?_⟩
  · rw [hsame.orders]
    exact h.pastSending
  · rw [hsame.orders]
    intro key e he
    unfold OrderManager.markReconciled
    split
    · exact Finset.mem_insert_of_mem (h.reconciled key e he)
    · exact h.reconciled key e he

theorem rank_of_advances {e e' : OrderEntry} (h : e.Advances e') (he : e.lifecycleState.rank = 3) :
    e'.lifecycleState.rank = 3 := by
  have hle := h.rank_le
  rw [he] at hle
  cases hl : e'.lifecycleState <;> simp_all [OrderLifecycleState.rank]

theorem Taken.adopt (h : Taken oms) (report : Order) (id : String) : Taken (oms.adopt report id) := by
  refine ⟨?_, ?_, ?_⟩
  · unfold OrderManager.adopt
    simp only [initialized_index]
    exact h.initialized
  · intro key e he
    rw [lookup_adopt] at he
    split at he
    · cases he
      exact lifecycleFromOrderStatus_working report.status
    · exact h.pastSending key e he
  · intro key e he
    rw [lookup_adopt] at he
    have hids : (oms.adopt report id).reconciledOrderIds = insert id oms.reconciledOrderIds := by
      unfold OrderManager.adopt OrderManager.index
      split <;> rfl
    rw [hids]
    split at he
    · cases he
      exact Finset.mem_insert_self _ _
    · exact Finset.mem_insert_of_mem (h.reconciled key e he)

theorem Taken.reconcileBrokerOrder (h : Taken oms) (report : Order) : Taken (oms.reconcileBrokerOrder report) := by
  rcases reconcileBrokerOrder_cases oms report with
    ⟨key, e, hf, hok, hs⟩ | ⟨_, _, _, hs⟩ | ⟨_, hs⟩ | ⟨_, hs⟩
  · have he := (findOrderLocked_some hf).1
    have hset := orderReport_settles e report
    rw [kept, if_pos hok] at hset
    rw [hs]
    refine ⟨h.initialized, ?_, ?_⟩ <;> intro id e' he' <;> simp only [store, Table.lookup_store] at he' <;>
      split at he'
    · cases he'
      exact rank_of_advances hset.toAdvances (h.pastSending key e he)
    · exact h.pastSending id e' he'
    · cases he'
      exact Finset.mem_insert_self _ _
    · exact Finset.mem_insert_of_mem (h.reconciled id e' he')
  · rw [hs]
    exact h.adopt report report.orderId
  · rw [hs]
    have hallocated : Taken oms.allocateOrderId.2 := ⟨h.initialized, h.pastSending, h.reconciled⟩
    exact hallocated.adopt report oms.nextOrderId
  · rw [hs]
    exact h

theorem Taken.applyTradeReport (h : Taken oms) (report : Trade) : Taken (oms.applyTradeReport report) := by
  have hevolves := applyTradeReport_evolves oms report
  refine ⟨hevolves.initialized.trans h.initialized, ?_, ?_⟩
  · intro id e' he'
    obtain ⟨e, he, hset⟩ := hevolves.origin he'
    exact rank_of_advances hset.toAdvances (h.pastSending id e he)
  · intro id e' he'
    obtain ⟨e, he, hset⟩ := hevolves.origin he'
    rw [reconciledOrderIds_applyTradeReport, hset.orderId]
    exact h.reconciled id e he

theorem Taken.take (h : Taken s.oms) (entry : Order ⊕ Trade) : Taken (s.take entry).oms := by
  induction entry with
  | inl report =>
    unfold Books.take Books.takeOrder
    dsimp only
    split
    · exact (h.reconcileBrokerOrder report).markReconciled _
    · exact h.reconcileBrokerOrder report
  | inr report =>
    unfold Books.take Books.takeTrade
    dsimp only
    split
    · exact (h.applyTradeReport report).markReconciled _
    · exact h.applyTradeReport report

theorem taken_initializeWith {s₀ : OrderManager} {options : OrderManagerOptions}
    (h : s₀.initializeWith options = (.success, oms)) : Taken oms := by
  have hbook := book_initializeWith h
  have hnone : ∀ id e, oms.orders.lookup id ≠ some e := by
    intro id e he
    obtain ⟨_, hmem, _⟩ := (hbook.entries id e).mp he
    cases hmem
  exact ⟨hbook.initialized, fun id e he => absurd he (hnone id e), fun id e he => absurd he (hnone id e)⟩

theorem Taken.requiring (h : Taken oms) : oms.getOrdersRequiringReconciliation.card = 0 := by
  unfold getOrdersRequiringReconciliation
  rw [Multiset.card_map, Multiset.card_eq_zero, Multiset.filter_eq_nil]
  rintro e hmem ⟨hrequires, _⟩
  obtain ⟨⟨id, e⟩, hentry, rfl⟩ := Multiset.mem_map.mp hmem
  exact hrequires (h.reconciled id e (Finmap.mem_lookup_iff.mpr hentry))

theorem synchronize_oms (s : Books) (snapshot : BrokerSnapshot) :
    (s.synchronize snapshot).2.oms = (snapshot.entries.foldl Books.take s).oms := by
  rw [BrokerSnapshot.entries, List.foldl_append, List.foldl_map, List.foldl_map]
  rfl

theorem taken_synchronize (h : Taken s.oms) (snapshot : BrokerSnapshot) :
    Taken (s.synchronize snapshot).2.oms ∧ (s.synchronize snapshot).1 = .success := by
  have htaken : Taken (s.synchronize snapshot).2.oms := by
    rw [synchronize_oms]
    exact Folds.invariant_foldl (fun s : Books => Taken s.oms) (fun _ entry h => h.take entry) h _
  refine ⟨htaken, ?_⟩
  exact if_pos htaken.requiring

/-! ## Orders whose fate is unknown -/

theorem kept_sendUnknown (hrank : e.lifecycleState.rank = 3) (report : Order) :
    (kept e (orderReportEntry e report)).lifecycleState = .sendUnknown ↔
      e.lifecycleState = .sendUnknown ∧ lifecycleFromOrderStatus report.status .sendUnknown = .sendUnknown := by
  rw [kept_orderReport]
  cases hs : e.lifecycleState <;> cases report.status <;>
    simp_all [lifecycleFromOrderStatus, canTransition, OrderLifecycleState.rank]

theorem kept_trade_sendUnknown (e : OrderEntry) (report : Trade) :
    (kept e (tradeReportEntry e report)).lifecycleState ≠ .sendUnknown := by
  unfold tradeReportEntry
  simp only [kept_applyTransition]
  by_cases hleft : max 0 (e.order.volume - (e.order.tradedVolume + report.volume)) = 0
  all_goals
    simp only [hleft, if_true, if_false]
    intro h
    split at h
    case isTrue => cases h
    case isFalse hrefused => simp [h, canTransition] at hrefused

theorem unknown_reconcile (h : Taken s.oms) (report : Order) (orderId : String) :
    (∃ e, (s.oms.reconcileBrokerOrder report).orders.lookup orderId = some e ∧
        e.lifecycleState = .sendUnknown) ↔
      leavesUnknown s (.inl report) = some orderId ∨
        Unknown orderId s ∧ settlesUnknown orderId s (.inl report) = false := by
  rw [lookup_reconcileBrokerOrder h.initialized]
  unfold leavesUnknown settlesUnknown Unknown broughtInto
  dsimp only
  by_cases hkey : Report.resolved s.oms (.brokerOrder report) = some orderId
  · rw [if_pos hkey, hkey]
    cases hf : s.oms.findOrderLocked report.orderId report.clientOrderId with
    | none =>
      have hnone : s.oms.reportKey report.orderId report.clientOrderId = none := by simp [reportKey, hf]
      cases hstatus : report.status <;>
        simp [hnone, hstatus, adoptedEntry, lifecycleFromOrderStatus]
    | some found =>
      obtain ⟨key, e⟩ := found
      have hsome : s.oms.reportKey report.orderId report.clientOrderId = some key := by simp [reportKey, hf]
      obtain rfl : key = orderId := by simpa [Report.resolved, hsome] using hkey
      have he := (findOrderLocked_some hf).1
      simp [hsome, he, kept_sendUnknown (h.pastSending key e he)]
  · rw [if_neg hkey]
    simp [hkey]

theorem unknown_trade (s : Books) (report : Trade) (orderId : String) :
    (∃ e, (s.oms.applyTradeReport report).orders.lookup orderId = some e ∧ e.lifecycleState = .sendUnknown) ↔
      Unknown orderId s ∧ settlesUnknown orderId s (.inr report) = false := by
  rw [lookup_applyTradeReport]
  unfold settlesUnknown Unknown Report.resolved
  by_cases hnew : generateTradeDedupKey report ∉ s.oms.appliedTradeIds ∧
      s.oms.reportKey report.orderId report.clientOrderId = some orderId
  · rw [if_pos hnew]
    simp [hnew.1, hnew.2, kept_trade_sendUnknown]
  · rw [if_neg hnew]
    refine (and_iff_left ?_).symm
    rw [not_and_or, not_not] at hnew
    rcases hnew with hold | hother
    · simp [hold]
    · simp [hother]

theorem unknown_take (h : Taken s.oms) (entry : Order ⊕ Trade) (orderId : String) :
    Unknown orderId (s.take entry) ↔
      leavesUnknown s entry = some orderId ∨ Unknown orderId s ∧ settlesUnknown orderId s entry = false := by
  induction entry with
  | inl report =>
    rw [← unknown_reconcile h report orderId, ← (takeOrder_same s report).orders]
    rfl
  | inr report =>
    have htrade := unknown_trade s report orderId
    rw [← (takeTrade_same s report).orders] at htrade
    rw [leavesUnknown]
    simp only [reduceCtorEq, false_or]
    exact htrade

/-! ## Orders that an entry confirms -/

theorem confirmed_take (h : Taken s.oms) (report : Order) {orderId : String}
    (hin : orderId ∈ (s.takeOrder report).oms.orders) :
    orderId ∈ s.oms.orders ∨ confirms orderId s report = true := by
  rw [(takeOrder_same s report).orders, Table.mem_iff_lookup, lookup_reconcileBrokerOrder h.initialized] at hin
  rw [Table.mem_iff_lookup]
  split at hin
  case isFalse => exact Or.inl hin
  case isTrue hkey =>
    cases hf : s.oms.findOrderLocked report.orderId report.clientOrderId with
    | none =>
      right
      simp [confirms, hkey, hf]
    | some found =>
      left
      obtain ⟨key, e⟩ := found
      have hsome : s.oms.reportKey report.orderId report.clientOrderId = some key := by simp [reportKey, hf]
      obtain rfl : key = orderId := by simpa [Report.resolved, hsome] using hkey
      exact ⟨e, (findOrderLocked_some hf).1⟩

theorem takeTrades_keys (s : Books) (trades : List Trade) {orderId : String}
    (hin : orderId ∈ (s.takeTrades trades).oms.orders) : orderId ∈ s.oms.orders := by
  induction trades generalizing s with
  | nil => exact hin
  | cons report rest ih =>
    have hrest := ih (s.takeTrade report) hin
    rw [(takeTrade_same s report).orders, (applyTradeReport_evolves s.oms report).mem_iff] at hrest
    exact hrest

/-- What the gate is to guarantee: no order's fate is unknown, and each order that is still open has
been confirmed by a broker order. -/
structure Settled (s : Books) (snapshot : BrokerSnapshot) : Prop where
  known : ∀ orderId e, (s.synchronize snapshot).2.oms.orders.lookup orderId = some e →
    e.lifecycleState ≠ .sendUnknown
  confirmed : ∀ orderId e, (s.synchronize snapshot).2.oms.orders.lookup orderId = some e →
    isTerminalLifecycle e.lifecycleState = false →
      Folds.meets Books.takeOrder (confirms orderId) s snapshot.orders = true

/-- For every snapshot and a manager that was initialised just now, `SynchronizeBrokerState` succeeds,
and its success means what it should if and only if each broker order that is adopted with an unknown
status is followed by an entry that settles it. -/
theorem synchronize_settled_iff {s₀ : OrderManager} {options : OrderManagerOptions} {snapshot : BrokerSnapshot}
    (hinit : s₀.initializeWith options = (.success, s.oms)) :
    ((s.synchronize snapshot).1 = .success → Settled s snapshot) ↔
      Folds.answered Books.take leavesUnknown settlesUnknown s snapshot.entries = true := by
  have htaken := taken_initializeWith hinit
  have hbook := book_initializeWith hinit
  have hnothing : ∀ orderId, ¬orderId ∈ s.oms.orders := by
    intro orderId hmem
    obtain ⟨e, he⟩ := (Table.mem_iff_lookup _ _).mp hmem
    obtain ⟨_, hmem, _⟩ := (hbook.entries orderId e).mp he
    cases hmem
  have hclosed := Folds.closed_iff (fun s : Books => Taken s.oms) Unknown
    (fun _ entry h => h.take entry) (fun s entry orderId h => unknown_take h entry orderId) htaken snapshot.entries
  have hstart : ∀ orderId, Unknown orderId s →
      Folds.meets Books.take (settlesUnknown orderId) s snapshot.entries = true := by
    rintro orderId ⟨e, he, _⟩
    exact absurd (Finmap.mem_of_lookup_eq_some he) (hnothing orderId)
  have hflags : (∀ orderId e, (s.synchronize snapshot).2.oms.orders.lookup orderId = some e →
      e.lifecycleState ≠ .sendUnknown) ↔ ∀ orderId, ¬Unknown orderId (snapshot.entries.foldl Books.take s) := by
    rw [synchronize_oms]
    constructor
    · rintro h orderId ⟨e, he, hl⟩
      exact h orderId e he hl
    · exact fun h orderId e he hl => h orderId ⟨e, he, hl⟩
  constructor
  · intro hgate
    exact (hclosed.mp (hflags.mp (hgate (taken_synchronize htaken snapshot).2).known)).2
  · intro hanswered _
    refine ⟨hflags.mpr (hclosed.mpr ⟨hstart, hanswered⟩), fun orderId e he _ => ?_⟩
    have hin := takeTrades_keys (s.takeOrders snapshot.orders) snapshot.trades (Finmap.mem_of_lookup_eq_some he)
    have hmet := Folds.meets_of_appears (fun s : Books => Taken s.oms) (fun s : Books => orderId ∈ s.oms.orders)
      (fun _ report h => h.take (.inl report)) (fun _ report h hin => confirmed_take h report hin) htaken
      snapshot.orders hin
    exact hmet.resolve_left (hnothing orderId)

/-- An order that is first reported with an unknown status and then as canceled. -/
def unknownThen (later : List Order) : BrokerSnapshot where
  orders := { orderId := "o", volume := 10, leftVolume := 10, status := .unknown } :: later

theorem synchronize_settled_canceled :
    Settled { oms := fresh } (unknownThen [{ orderId := "o", volume := 10, status := .canceled }]) :=
  (synchronize_settled_iff (s := { oms := fresh }) fresh_initialized).mpr (by decide +kernel) (by decide +kernel)

/-- One order with an unknown status, and the gate opens. -/
theorem synchronize_unsettled : ¬ ∀ (s₀ : OrderManager) (options : OrderManagerOptions) (s : Books)
    (snapshot : BrokerSnapshot), s₀.initializeWith options = (.success, s.oms) →
    (s.synchronize snapshot).1 = .success → Settled s snapshot := by
  intro hall
  have hrun : (({ oms := fresh } : Books).synchronize (unknownThen [])).1 = .success ∧
      ∃ e ∈ (({ oms := fresh } : Books).synchronize (unknownThen [])).2.oms.orders.lookup "o",
        e.lifecycleState = .sendUnknown := by decide +kernel
  obtain ⟨hsuccess, e, he, hl⟩ := hrun
  exact (hall {} ⟨"q", "e", 1⟩ { oms := fresh } (unknownThen []) fresh_initialized hsuccess).known "o" e he hl

end Qtrade.Engine
