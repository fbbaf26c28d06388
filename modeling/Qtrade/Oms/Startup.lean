import Qtrade.Oms.Spec

/-!
# The order table when trading starts

`TradingEngine::Init` initialises an empty manager and `TradingEngine::Start` takes over the
broker's orders and trades. What comes out holds only orders that are past sending.
-/

namespace Qtrade.Oms

open OrderEntry

namespace OrderManager

variable {s : OrderManager} {id key : String} {e : OrderEntry}

/-- The managers that `Initialize` and the loops of `SynchronizeBrokerState` lead to. Where the
broker gives no order id, the allocated one is not a key yet. -/
inductive Startup : OrderManager → Prop
  | initialized {s s' : OrderManager} (options : OrderManagerOptions)
      (h : s.initializeWith options = (.success, s')) : Startup s'
  | brokerOrder {s : OrderManager} (h : Startup s) (report : Order)
      (hfresh : report.orderId = "" → s.orders.lookup s.nextOrderId = none) :
      Startup (s.reconcileBrokerOrder report)
  | brokerTrade {s : OrderManager} (h : Startup s) (report : Trade) : Startup (s.applyTradeReport report)
  | reconciled {s : OrderManager} (h : Startup s) (orderId : String) : Startup (s.markReconciled orderId)

/-- What the trading threads rely on when they start. -/
structure Started (s : OrderManager) : Prop where
  wellFormed : s.WellFormed
  initialized : s.initialized = true
  pastSending : ∀ id e, s.orders.lookup id = some e → e.lifecycleState.rank = 3
  filled : ∀ id e, s.orders.lookup id = some e → e.order.status = .filled → e.lifecycleState = .filled

theorem Started.evolves {s' : OrderManager} (h : s.Started) (hs : Evolves Settles s s') : s'.Started := by
  refine ⟨h.wellFormed.evolves (hs.mono fun _ _ ha => ha.toAdvances), hs.initialized.trans h.initialized, ?_, ?_⟩
  · intro id e' he'
    obtain ⟨e, he, ha⟩ := hs.origin he'
    have hr := ha.rank_le
    rw [h.pastSending id e he] at hr
    cases hl : e'.lifecycleState <;> simp_all [OrderLifecycleState.rank]
  · intro id e' he' hf
    obtain ⟨e, he, ha⟩ := hs.origin he'
    rcases ha.filled hf with hf | hf
    · have hl := h.filled id e he hf
      rw [ha.terminal (by simp [hl, isTerminalLifecycle]), hl]
    · exact hf

theorem Started.congr {s' : OrderManager} (h : s.Started) (ho : s'.orders = s.orders)
    (hc : s'.clientOrderIndex = s.clientOrderIndex) (hi : s'.initialized = s.initialized) : s'.Started :=
  h.evolves ⟨hc, hi, fun id => ho ▸ (Evolves.refl Settles.refl s).entries id⟩

theorem started_initializeWith {s' : OrderManager} {options : OrderManagerOptions}
    (h : s.initializeWith options = (.success, s')) : s'.Started := by
  unfold initializeWith at h
  split at h
  · simp at h
  · split at h
    · simp at h
    · cases h
      refine ⟨⟨?_, ?_⟩, rfl, ?_, ?_⟩ <;> simp

theorem lifecycleFromOrderStatus_working (status : OrderStatusType) :
    (lifecycleFromOrderStatus status .working).rank = 3 := by
  cases status <;> rfl

theorem findOrderLocked_none {orderId : String} {clientOrderId : UInt32} (hs : s.WellFormed)
    (h : s.findOrderLocked orderId clientOrderId = none) :
    s.orders.lookup orderId = none ∧
      (clientOrderId ≠ 0 → s.clientOrderIndex.lookup clientOrderId = none) := by
  unfold findOrderLocked at h
  cases he : s.orders.lookup orderId with
  | some e => simp [he] at h
  | none =>
    refine ⟨rfl, fun hc => ?_⟩
    cases hi : s.clientOrderIndex.lookup clientOrderId with
    | none => rfl
    | some key =>
      obtain ⟨_, e, hkey, _⟩ := (hs.index _ _).mp hi
      simp [he, hc, hi, hkey] at h

theorem Started.adopt (h : s.Started) (report : Order) (hid : id ≠ "") (hfresh : s.orders.lookup id = none)
    (hc : report.clientOrderId ≠ 0 → s.clientOrderIndex.lookup report.clientOrderId = none) :
    (s.adopt report id).Started := by
  have hwf := h.wellFormed.store_index (e := adoptedEntry report id) hid hfresh rfl hc
  have hlookup : ∀ id', (s.adopt report id).orders.lookup id' =
      if id' = id then some (adoptedEntry report id) else s.orders.lookup id' := fun id' => by
    simp [OrderManager.adopt, store, Table.lookup_store]
  refine ⟨⟨hwf.key, hwf.index⟩, ?_, ?_, ?_⟩
  · simp [OrderManager.adopt, store, h.initialized]
  · intro id' e' he'
    rw [hlookup] at he'
    split at he'
    · cases he'; exact lifecycleFromOrderStatus_working _
    · exact h.pastSending id' e' he'
  · intro id' e' he' hf
    rw [hlookup] at he'
    split at he'
    · cases he'
      have hf : report.status = .filled := hf
      simp [adoptedEntry, hf, lifecycleFromOrderStatus]
    · exact h.filled id' e' he' hf

theorem Started.reconcileBrokerOrder (h : s.Started) (report : Order)
    (hfresh : report.orderId = "" → s.orders.lookup s.nextOrderId = none) :
    (s.reconcileBrokerOrder report).Started := by
  unfold OrderManager.reconcileBrokerOrder
  simp only [h.initialized, Bool.not_true]
  cases hf : s.findOrderLocked report.orderId report.clientOrderId with
  | none =>
    obtain ⟨hnone, hc⟩ := findOrderLocked_none h.wellFormed hf
    by_cases hid : report.orderId = ""
    · by_cases hzero : report.clientOrderId = 0
      · simpa [hid, hzero] using h
      · simp only [hid, ne_eq, not_true_eq_false, if_false, hzero, Bool.false_eq_true]
        exact (h.evolves (allocateOrderId_evolves s)).adopt report (nextOrderId_ne_empty s) (hfresh hid) hc
    · simpa [hid] using h.adopt report hid hnone hc
  | some found =>
    obtain ⟨key, e⟩ := found
    have he := (findOrderLocked_some hf).1
    have hkept := orderReport_settles e report
    unfold kept at hkept
    dsimp only
    split
    case isTrue => simpa using h
    case isFalse =>
      split at hkept
      case isTrue hok =>
        rw [if_pos hok]
        exact (h.evolves (store_evolves Settles.refl he hkept)).congr rfl rfl rfl
      case isFalse hno => rw [if_neg hno]; exact h

theorem Started.markReconciled (h : s.Started) (orderId : String) : (s.markReconciled orderId).Started := by
  unfold OrderManager.markReconciled
  split
  · exact h.congr rfl rfl rfl
  · exact h

/-- Whatever the broker reports, no order is left on its way to the venue. -/
theorem Startup.started (h : Startup s) : s.Started := by
  induction h with
  | initialized options h => exact started_initializeWith h
  | brokerOrder _ report hfresh ih => exact ih.reconcileBrokerOrder report hfresh
  | brokerTrade _ report ih => exact ih.evolves (applyTradeReport_evolves _ report)
  | reconciled _ orderId ih => exact ih.markReconciled orderId

end OrderManager

end Qtrade.Oms
