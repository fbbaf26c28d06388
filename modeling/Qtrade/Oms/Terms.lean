import Qtrade.Oms.Operations

/-!
# What was ordered

A report is merged into the order it means. Ids, instrument, market, price and volume are taken from it
where it has them, the side and the three kinds as they are, set or not.
-/

namespace Qtrade

/-- What an order is, whatever becomes of it at the venue. -/
def Order.ordered (order : Order) : Order where
  orderId := order.orderId
  clientOrderId := order.clientOrderId
  side := order.side
  priceType := order.priceType
  positionEffect := order.positionEffect
  businessType := order.businessType

/-- The report has the side and the kinds of the order. -/
def Order.repeats (order report : Order) : Bool :=
  report.side == order.side && report.priceType == order.priceType &&
    report.positionEffect == order.positionEffect && report.businessType == order.businessType

theorem Order.ordered_eq_iff (order order' : Order) : order'.ordered = order.ordered ↔
    order'.orderId = order.orderId ∧ order'.clientOrderId = order.clientOrderId ∧
      order.repeats order' = true := by
  simp only [Order.ordered, Order.repeats, Order.mk.injEq, Bool.and_eq_true, beq_iff_eq]
  tauto

end Qtrade

namespace Qtrade.Oms

open OrderEntry

theorem OrderEntry.Restated.ordered {e e' : OrderEntry} (h : e.Restated e') :
    e'.order.ordered = e.order.ordered := by
  rw [h]
  rfl

theorem mergeOrderSnapshot_repeats (e : OrderEntry) (report : Order) :
    e.order.repeats (mergeOrderSnapshot e report).order = e.order.repeats report := rfl

theorem ordered_mergeOrderSnapshot_iff (e : OrderEntry) (report : Order) :
    (mergeOrderSnapshot e report).order.ordered = e.order.ordered ↔ e.order.repeats report = true := by
  rw [Order.ordered_eq_iff, mergeOrderSnapshot_repeats]
  exact ⟨fun h => h.2.2, fun h => ⟨rfl, rfl, h⟩⟩

theorem ordered_tradeReport (e : OrderEntry) (report : Trade) :
    (kept e (tradeReportEntry e report)).order.ordered = e.order.ordered := by
  unfold tradeReportEntry
  simp only [kept_applyTransition]
  split <;> split <;> rfl

/-- The report is refused, or it repeats what was ordered. -/
def rewritesNothing (e : OrderEntry) (report : Order) : Bool :=
  !canTransition e.lifecycleState (lifecycleFromOrderStatus report.status e.lifecycleState) || e.order.repeats report

theorem ordered_orderReport_iff (e : OrderEntry) (report : Order) :
    (kept e (orderReportEntry e report)).order.ordered = e.order.ordered ↔ rewritesNothing e report = true := by
  rw [kept_orderReport, rewritesNothing]
  split
  case isTrue hedge =>
    rw [hedge]
    exact ordered_mergeOrderSnapshot_iff e report
  case isFalse hno => simp [hno]

theorem ordered_adoptedEntry_iff (order report : Order) :
    (adoptedEntry report order.orderId).order.ordered = order.ordered ↔
      report.clientOrderId = order.clientOrderId ∧ order.repeats report = true := by
  rw [Order.ordered_eq_iff]
  exact ⟨fun h => h.2, fun h => ⟨rfl, h⟩⟩

namespace OrderManager

/-- `CreateOrder` stores a new entry. -/
def stores (s : OrderManager) (request : OrderRequest) (orderId : String) : Bool :=
  s.initialized && orderId != "" &&
    (request.clientOrderId == 0 || (s.clientOrderIndex.lookup request.clientOrderId).isNone)

/-- What an operation writes under the id of the order, other than states, statuses and fills, is what
was ordered. -/
def respects (order : Order) (s : OrderManager) : Operation → Bool
  | .createOrder request orderId =>
    orderId != order.orderId || !s.stores request orderId ||
      decide ((newEntry request orderId).order.ordered = order.ordered)
  | .createOrderAllocating request =>
    s.nextOrderId != order.orderId || !s.stores request s.nextOrderId ||
      decide ((newEntry request s.nextOrderId).order.ordered = order.ordered)
  | .applyOrderReport report =>
    (s.findOrderLocked report.orderId report.clientOrderId).all fun found =>
      found.1 != order.orderId || rewritesNothing found.2 report
  | .reconcileBrokerOrder report =>
    !s.initialized ||
      ((s.findOrderLocked report.orderId report.clientOrderId).all fun found =>
        found.1 != order.orderId || rewritesNothing found.2 report) &&
      (s.adoptionId report != some order.orderId ||
        report.clientOrderId == order.clientOrderId && order.repeats report)
  | _ => true

variable {order : Order} {s s' : OrderManager} {id : String} {e : OrderEntry}

/-- The order, where it still is, is what was ordered. -/
def Honours (order : Order) (s : OrderManager) : Prop :=
  ∀ e, s.orders.lookup order.orderId = some e → e.order.ordered = order.ordered

theorem Honours.evolves {R : OrderEntry → OrderEntry → Prop} (h : Honours order s) (hs : Evolves R s s')
    (hR : ∀ e e', R e e' → e'.order.ordered = e.order.ordered) : Honours order s' := by
  intro e' he'
  obtain ⟨e, he, hr⟩ := hs.origin he'
  exact (hR e e' hr).trans (h e he)

theorem honours_of_lookup_none (h : s.orders.lookup order.orderId = none) : Honours order s := by
  intro e he
  rw [h] at he
  cases he

theorem honours_stored_iff (h : Honours order s) (hs : ∀ id', s'.orders.lookup id' =
    if id' = id then some e else s.orders.lookup id') :
    Honours order s' ↔ id ≠ order.orderId ∨ e.order.ordered = order.ordered := by
  unfold Honours
  rw [hs]
  by_cases hid : order.orderId = id
  · simp [hid]
  · simp only [hid, if_false, Ne.symm hid, ne_eq, not_false_eq_true, true_or, iff_true]
    exact h

theorem honours_update (h : Honours order s) (id : String) {change : OrderEntry → ErrorCode × OrderEntry}
    (hchange : ∀ e : OrderEntry, e.Restated (change e).2) : Honours order (s.update id change).2 :=
  h.evolves (update_evolves Restated.refl s id hchange) fun _ _ hr => hr.ordered

theorem createOrder_stores_iff (s : OrderManager) (request : OrderRequest) (orderId : String) :
    (s.stores request orderId = true ∧ (s.createOrder request orderId).2 = s.born request orderId) ∨
      (s.stores request orderId = false ∧ (s.createOrder request orderId).2 = s) := by
  unfold stores createOrder
  cases hinit : s.initialized
  · simp
  · by_cases hid : orderId = ""
    · simp [hid]
    · by_cases hc : request.clientOrderId = 0
      · simp [hid, hc, OrderManager.born]
      · cases hi : s.clientOrderIndex.lookup request.clientOrderId with
        | none => simp [hid, hc, OrderManager.born]
        | some existing =>
          simp only [hc, ne_eq, not_false_eq_true, Option.isNone_some, Bool.or_false, if_true]
          right
          refine ⟨by simp [hc], ?_⟩
          split
          · cases s.orders.lookup existing <;> rfl
          · cases s.orders.lookup existing <;> rfl

theorem honours_createOrder_iff (h : Honours order s) (request : OrderRequest) (orderId : String) :
    Honours order (s.createOrder request orderId).2 ↔
      orderId ≠ order.orderId ∨ s.stores request orderId = false ∨
        (newEntry request orderId).order.ordered = order.ordered := by
  rcases createOrder_stores_iff s request orderId with ⟨hstores, hs⟩ | ⟨hstores, hs⟩
  · rw [hs, honours_stored_iff h (lookup_born s request orderId), hstores]
    simp
  · rw [hs]
    simp [hstores, h]

theorem honours_found_iff {report : Order} (h : Honours order s) (he : s.orders.lookup id = some e)
    (hs : ∀ id', s'.orders.lookup id' =
      if id' = id then some (kept e (orderReportEntry e report)) else s.orders.lookup id') :
    Honours order s' ↔ id ≠ order.orderId ∨ rewritesNothing e report = true := by
  rw [honours_stored_iff h hs, ← ordered_orderReport_iff]
  by_cases hid : id = order.orderId
  · subst hid
    rw [h e he]
  · simp [hid]

theorem honours_reconcileBrokerOrder_iff (h : Honours order s) (report : Order) :
    Honours order (s.reconcileBrokerOrder report) ↔ s.respects order (.reconcileBrokerOrder report) = true := by
  rw [respects]
  cases hinit : s.initialized with
  | false =>
    have hsame : s.reconcileBrokerOrder report = s := by simp [OrderManager.reconcileBrokerOrder, hinit]
    rw [hsame]
    simp [h]
  | true =>
    cases hf : s.findOrderLocked report.orderId report.clientOrderId with
    | some found =>
      have hk : s.adoptionId report = none := by simp [adoptionId, hf]
      rw [honours_found_iff h (findOrderLocked_some hf).1 (lookup_reconcileBrokerOrder_found hinit hf), hk]
      simp
    | none =>
      cases hk : s.adoptionId report with
      | none =>
        have hsame : Honours order (s.reconcileBrokerOrder report) := by
          intro e he
          rw [lookup_reconcileBrokerOrder_new hinit hf, hk] at he
          exact h e he
        simp [hsame]
      | some id =>
        have hstored : ∀ id', (s.reconcileBrokerOrder report).orders.lookup id' =
            if id' = id then some (adoptedEntry report id) else s.orders.lookup id' := by
          intro id'
          rw [lookup_reconcileBrokerOrder_new hinit hf, hk]
          by_cases hid : id' = id
          · rw [hid, if_pos rfl, if_pos rfl]
          · rw [if_neg fun heq => hid (Option.some.inj heq).symm, if_neg hid]
        rw [honours_stored_iff h hstored]
        by_cases hid : id = order.orderId
        · rw [hid, ordered_adoptedEntry_iff]
          simp
        · simp [hid]

/-- An operation keeps what was ordered if and only if it respects it. -/
theorem perform_honours_iff (h : Honours order s) (a : Operation) :
    Honours order (s.perform a) ↔ s.respects order a = true := by
  cases a with
  | initializeWith options =>
    refine iff_of_true ?_ rfl
    rw [perform]
    unfold OrderManager.initializeWith
    split
    · exact h
    · split
      · exact h
      · exact honours_of_lookup_none rfl
  | shutdown => exact iff_of_true (honours_of_lookup_none rfl) rfl
  | allocateOrderId => exact iff_of_true h rfl
  | createOrder request orderId =>
    rw [perform, honours_createOrder_iff h, respects]
    simp [or_assoc]
  | createOrderAllocating request =>
    have hallocated : Honours order s.allocateOrderId.2 := h
    rw [perform, OrderManager.createOrderAllocating, honours_createOrder_iff hallocated, respects]
    have hsame : s.allocateOrderId.2.stores request s.allocateOrderId.1 = s.stores request s.nextOrderId := rfl
    rw [hsame]
    simp [or_assoc, OrderManager.allocateOrderId]
  | reconcileBrokerOrder report => exact honours_reconcileBrokerOrder_iff h report
  | applyOrderReport report =>
    rw [perform, respects]
    cases hf : s.findOrderLocked report.orderId report.clientOrderId with
    | none =>
      have hsame : s.applyOrderReport report = s := by simp [OrderManager.applyOrderReport, hf]
      rw [hsame]
      simp [h]
    | some found =>
      rw [honours_found_iff h (findOrderLocked_some hf).1 (lookup_applyOrderReport_found hf)]
      simp
  | applyTradeReport report =>
    refine iff_of_true ?_ rfl
    intro e' he'
    rw [perform, lookup_applyTradeReport] at he'
    split at he'
    · obtain ⟨e, he, rfl⟩ := Option.map_eq_some_iff.mp he'
      exact (ordered_tradeReport e report).trans (h e he)
    · exact h e' he'
  | markReconciled orderId =>
    refine iff_of_true ?_ rfl
    rw [perform]
    unfold OrderManager.markReconciled
    split <;> exact h
  | cancelOrder orderId =>
    refine iff_of_true (honours_update h orderId fun e => ?_) rfl
    exact applyTransition_restated e e.order.status e.order.submitStatus .cancelPending
  | markEmsQueued orderId =>
    refine iff_of_true (honours_update h orderId fun e => ?_) rfl
    exact applyTransition_restated e e.order.status e.order.submitStatus .emsQueued
  | markSendPending orderId =>
    refine iff_of_true (honours_update h orderId fun e => ?_) rfl
    exact applyTransition_restated e e.order.status .insertSubmitted .sendPending
  | recordSendResult orderId result =>
    exact iff_of_true (honours_update h orderId fun e => sendResultEntry_restated e result) rfl
  | recordCancelResult orderId result =>
    exact iff_of_true (honours_update h orderId fun e => cancelResultEntry_restated e result) rfl

/-- In every run after `CreateOrder` has stored an order, as long as each report for it that is not refused
repeats its side and its kinds, and nothing else is stored under its id, the order that the table has is
the one that was requested. -/
theorem ordered_kept {request : OrderRequest} {orderId : String}
    (hcreated : (s.createOrder request orderId).2.orders.lookup orderId = some (newEntry request orderId))
    (h : Runs.Reaches run (fun s a => s.respects (newEntry request orderId).order a = true)
      (s.createOrder request orderId).2 s') :
    ∀ e, s'.orders.lookup orderId = some e →
      e.order.orderId = orderId ∧ e.order.clientOrderId = request.clientOrderId ∧ e.order.side = request.side ∧
        e.order.priceType = request.priceType ∧ e.order.positionEffect = request.positionEffect ∧
        e.order.businessType = request.businessType := by
  have hstart : Honours (newEntry request orderId).order (s.createOrder request orderId).2 := by
    intro e he
    obtain rfl := Option.some.inj (hcreated.symm.trans he)
    rfl
  have hend : Honours (newEntry request orderId).order s' := by
    apply h.invariant hstart
    rintro s₁ a _ hs₁ hok ⟨⟩
    exact (perform_honours_iff hs₁ a).mpr hok
  intro e he
  have hordered := hend e he
  simp only [Order.ordered, Order.mk.injEq, newEntry, and_true, true_and] at hordered
  obtain ⟨hid, hclient, hprice, hside, heffect, hbusiness⟩ := hordered
  exact ⟨hid, hclient, hside, hprice, heffect, hbusiness⟩

/-- A limit order to sell. -/
def limitSell : OrderRequest :=
  { clientOrderId := 7, instrument := "600000", price := .fin 10, volume := 4, priceType := .best5OrCancel,
    side := .sell }

/-- The manager that has it. -/
def selling : OrderManager := (({} : OrderManager).initializeWith ⟨"t", "e", 1⟩).2

/-- The acknowledgement of the broker has all fields. -/
theorem ordered_kept_acknowledged : ∃ s',
    Runs.Reaches run (fun s a => s.respects (newEntry limitSell "o").order a = true)
      (selling.createOrder limitSell "o").2 s' ∧
    ∃ e ∈ s'.orders.lookup "o", e.order.status = .notTradedQueueing ∧ e.order.side = .sell := by
  have hrun : ∃ s' ∈ Runs.execWhile run (fun s a => s.respects (newEntry limitSell "o").order a = true)
      (selling.createOrder limitSell "o").2 [.markEmsQueued "o", .markSendPending "o", .recordSendResult "o" .success,
        .applyOrderReport
          { clientOrderId := 7, status := .notTradedQueueing, priceType := .best5OrCancel, side := .sell }],
      ∃ e ∈ s'.orders.lookup "o", e.order.status = .notTradedQueueing := by decide +kernel
  obtain ⟨s', hs', e, he, hstatus⟩ := hrun
  have hreach := Runs.reaches_of_execWhile _ hs'
  refine ⟨s', hreach, e, he, hstatus, ?_⟩
  exact (ordered_kept (by decide +kernel) hreach e he).2.2.1

/-- A report that only says that the order is queued, and the sell order is one to buy. -/
theorem sell_rewritten : ¬∀ (s s' : OrderManager) (request : OrderRequest) (orderId : String),
    Runs.Reaches run Runs.anyStep {} s →
    (s.createOrder request orderId).2.orders.lookup orderId = some (newEntry request orderId) →
    Runs.Reaches run Runs.anyStep (s.createOrder request orderId).2 s' →
    ∀ e, s'.orders.lookup orderId = some e → e.order.side = request.side := by
  intro hall
  have hstart : ∃ s ∈ Runs.exec run {} [.initializeWith ⟨"t", "e", 1⟩],
      (s.createOrder limitSell "o").2.orders.lookup "o" = some (newEntry limitSell "o") ∧
      ∃ s' ∈ Runs.exec run (s.createOrder limitSell "o").2
        [.markEmsQueued "o", .markSendPending "o", .recordSendResult "o" .success,
          .applyOrderReport { clientOrderId := 7, volume := 4, leftVolume := 4, status := .notTradedQueueing }],
        ∃ e ∈ s'.orders.lookup "o", e.order.side = .buy := by decide +kernel
  obtain ⟨s, hs, hcreated, s', hs', e, he, hbuy⟩ := hstart
  have hside := hall s s' limitSell "o" (Runs.reaches_of_exec _ hs) hcreated (Runs.reaches_of_exec _ hs') e he
  rw [hbuy] at hside
  cases hside

end OrderManager

end Qtrade.Oms
