import Qtrade.Oms.OrderManager

/-!
# What one operation does to the order table

One spec per operation: how far it can move an entry, and which entry it moves. Everything
that is proved about runs rests on these and never unfolds an operation again.
-/

namespace Qtrade

/-- What a request asks for. The broker's number is not part of it. -/
def OrderRequest.terms (request : OrderRequest) : OrderRequest := { request with brokerOrderId := 0 }

/-- What an order asks for, in the words of a request. -/
def Order.terms (order : Order) : OrderRequest where
  clientOrderId := order.clientOrderId
  instrument := order.instrument
  market := order.market
  price := order.price
  volume := order.volume
  priceType := order.priceType
  side := order.side
  positionEffect := order.positionEffect
  businessType := order.businessType

end Qtrade

namespace Qtrade.Oms

/-! ## One entry -/

namespace OrderEntry

/-- What any operation may do to an entry it finds. -/
structure Advances (e e' : OrderEntry) : Prop where
  orderId : e'.order.orderId = e.order.orderId
  clientOrderId : e'.order.clientOrderId = e.order.clientOrderId
  edge : canTransition e.lifecycleState e'.lifecycleState = true
  prepared : e'.lifecycleState = .prepared → e'.order.terms = e.order.terms
  filled : e'.order.status = .filled → e.order.status = .filled ∨ e'.lifecycleState = .filled

/-- What every operation but the two marks may do: it brings no order nearer to the venue. -/
structure Settles (e e' : OrderEntry) : Prop extends Advances e e' where
  quiet : e'.lifecycleState.rank < 3 → e'.lifecycleState = e.lifecycleState

/-- Of the order itself at most the two status fields differ. -/
def Restated (e e' : OrderEntry) : Prop :=
  e'.order = { e.order with status := e'.order.status, submitStatus := e'.order.submitStatus }

theorem Restated.refl (e : OrderEntry) : e.Restated e := rfl

theorem Advances.refl (e : OrderEntry) : e.Advances e :=
  ⟨rfl, rfl, canTransition_self _, fun _ => rfl, Or.inl⟩

theorem Settles.refl (e : OrderEntry) : e.Settles e := ⟨Advances.refl e, fun _ => rfl⟩

theorem Advances.rank_le {e e' : OrderEntry} (h : e.Advances e') :
    e.lifecycleState.rank ≤ e'.lifecycleState.rank :=
  rank_le_of_canTransition h.edge

theorem Advances.terminal {e e' : OrderEntry} (h : e.Advances e')
    (he : isTerminalLifecycle e.lifecycleState = true) : e'.lifecycleState = e.lifecycleState :=
  eq_of_terminal h.edge he

theorem Advances.eq_prepared {e e' : OrderEntry} (h : e.Advances e') (he : e'.lifecycleState = .prepared) :
    e.lifecycleState = .prepared := by
  have := h.rank_le
  rw [he] at this
  cases hl : e.lifecycleState <;> simp_all [OrderLifecycleState.rank]

end OrderEntry

open OrderEntry

theorem applyTransition_cases (e : OrderEntry) (target : OrderLifecycleState) :
    (canTransition e.lifecycleState target = true ∧
      applyTransition e target = (.success, { e with lifecycleState := target })) ∨
    (canTransition e.lifecycleState target = false ∧ applyTransition e target = (.systemError, e)) := by
  unfold applyTransition
  cases h : canTransition e.lifecycleState target
  · exact Or.inr ⟨rfl, by simp⟩
  · exact Or.inl ⟨rfl, by simp⟩

theorem applyTransition_success {e : OrderEntry} {target : OrderLifecycleState}
    (h : (applyTransition e target).1 = .success) :
    (applyTransition e target).2 = { e with lifecycleState := target } := by
  rcases applyTransition_cases e target with ⟨_, ht⟩ | ⟨_, ht⟩
  · rw [ht]
  · rw [ht] at h; cases h

theorem applyTransition_advances (e : OrderEntry) (status : OrderStatusType)
    (submitStatus : OrderSubmitStatusType) (target : OrderLifecycleState)
    (hstatus : status = .filled → e.order.status = .filled) :
    e.Advances (applyTransition
      { e with order.status := status, order.submitStatus := submitStatus } target).2 := by
  rcases applyTransition_cases
    { e with order.status := status, order.submitStatus := submitStatus } target with ⟨hedge, h⟩ | ⟨_, h⟩
  · rw [h]
    exact ⟨rfl, rfl, hedge, fun _ => rfl, fun hs => Or.inl (hstatus hs)⟩
  · rw [h]
    exact ⟨rfl, rfl, canTransition_self _, fun _ => rfl, fun hs => Or.inl (hstatus hs)⟩

theorem applyTransition_settles (e : OrderEntry) (status : OrderStatusType)
    (submitStatus : OrderSubmitStatusType) (target : OrderLifecycleState)
    (hstatus : status = .filled → e.order.status = .filled)
    (htarget : target.rank < 3 → target = e.lifecycleState) :
    e.Settles (applyTransition
      { e with order.status := status, order.submitStatus := submitStatus } target).2 := by
  refine ⟨applyTransition_advances e status submitStatus target hstatus, ?_⟩
  rcases applyTransition_cases
    { e with order.status := status, order.submitStatus := submitStatus } target with ⟨_, h⟩ | ⟨_, h⟩
  · rw [h]; exact htarget
  · rw [h]; exact fun _ => rfl

theorem applyTransition_restated (e : OrderEntry) (status : OrderStatusType)
    (submitStatus : OrderSubmitStatusType) (target : OrderLifecycleState) :
    e.Restated (applyTransition
      { e with order.status := status, order.submitStatus := submitStatus } target).2 := by
  rcases applyTransition_cases
    { e with order.status := status, order.submitStatus := submitStatus } target with ⟨_, h⟩ | ⟨_, h⟩
  · rw [h]; rfl
  · rw [h]; rfl

/-! ## The changes in place -/

theorem sendResultEntry_restated (e : OrderEntry) (result : ErrorCode) :
    e.Restated (sendResultEntry e result).2 := by
  unfold sendResultEntry
  split
  · split
    · exact applyTransition_restated e .unknown e.order.submitStatus .sendUnknown
    · split
      · exact applyTransition_restated e .rejected .insertRejected .rejected
      · exact applyTransition_restated e e.order.status e.order.submitStatus .working
  · exact applyTransition_restated e e.order.status e.order.submitStatus e.lifecycleState

theorem cancelResultEntry_restated (e : OrderEntry) (result : ErrorCode) :
    e.Restated (cancelResultEntry e result).2 := by
  unfold cancelResultEntry
  split
  · exact applyTransition_restated e e.order.status e.order.submitStatus .cancelPending
  · exact applyTransition_restated e e.order.status .cancelRejected _

theorem sendResultEntry_settles (e : OrderEntry) (result : ErrorCode) :
    e.Settles (sendResultEntry e result).2 := by
  unfold sendResultEntry
  split
  · split
    · exact applyTransition_settles e _ _ _ (by simp) (by simp [OrderLifecycleState.rank])
    · split
      · exact applyTransition_settles e _ _ _ (by simp) (by simp [OrderLifecycleState.rank])
      · exact applyTransition_settles e e.order.status e.order.submitStatus _ id
          (by simp [OrderLifecycleState.rank])
  · exact applyTransition_settles e e.order.status e.order.submitStatus _ id fun _ => rfl

theorem sendResultEntry_ne_sendPending (e : OrderEntry) (result : ErrorCode) :
    (sendResultEntry e result).2.lifecycleState ≠ .sendPending := by
  cases hl : e.lifecycleState <;>
    simp only [sendResultEntry, applyTransition, hl, canTransition] <;>
    (repeat' split) <;> simp_all

theorem sendResultEntry_rejects {e : OrderEntry} {rc : ErrorCode} (hrc : rc ≠ .success) (ht : rc ≠ .timeout)
    (hl : e.lifecycleState = .emsQueued ∨ e.lifecycleState = .sendPending) :
    (sendResultEntry e rc).2.lifecycleState = .rejected := by
  rcases hl with hl | hl <;> simp [sendResultEntry, hl, hrc, ht, applyTransition, canTransition]

theorem cancelResultEntry_settles (e : OrderEntry) (result : ErrorCode) :
    e.Settles (cancelResultEntry e result).2 := by
  unfold cancelResultEntry
  split
  · exact applyTransition_settles e e.order.status e.order.submitStatus _ id
      (by simp [OrderLifecycleState.rank])
  · refine applyTransition_settles e e.order.status .cancelRejected _ id ?_
    split <;> simp [OrderLifecycleState.rank]

/-- The entry that a report leaves behind: the updated one, or the old one if it was refused. -/
def kept (e : OrderEntry) (result : ErrorCode × OrderEntry) : OrderEntry :=
  if result.1 = .success then result.2 else e

theorem kept_applyTransition (e updated : OrderEntry) (target : OrderLifecycleState) :
    kept e (applyTransition updated target) =
      if canTransition updated.lifecycleState target then { updated with lifecycleState := target } else e := by
  rcases applyTransition_cases updated target with ⟨hedge, h⟩ | ⟨hedge, h⟩ <;> rw [h, hedge] <;> simp [kept]

theorem kept_orderReport (e : OrderEntry) (report : Order) :
    kept e (orderReportEntry e report) =
      if canTransition e.lifecycleState (lifecycleFromOrderStatus report.status e.lifecycleState) then
        { mergeOrderSnapshot e report with
          lifecycleState := lifecycleFromOrderStatus report.status e.lifecycleState }
      else e :=
  kept_applyTransition e _ _

theorem orderReport_settles (e : OrderEntry) (report : Order) :
    e.Settles (kept e (orderReportEntry e report)) := by
  rw [kept_orderReport]
  split
  case isTrue h =>
    refine ⟨⟨rfl, rfl, h, ?_, ?_⟩, fun hr => lifecycleFromOrderStatus_rank _ _ hr⟩
    · exact fun hp => absurd hp (lifecycleFromOrderStatus_ne_prepared _ _)
    · intro hs
      have hs : report.status = .filled := hs
      exact Or.inr (by simp [hs, lifecycleFromOrderStatus])
  case isFalse => exact Settles.refl e

theorem tradeReport_settles (e : OrderEntry) (report : Trade) :
    e.Settles (kept e (tradeReportEntry e report)) := by
  unfold tradeReportEntry
  simp only [kept_applyTransition]
  split
  · split
    case isTrue h =>
      exact ⟨⟨rfl, rfl, h, by simp, fun _ => Or.inr rfl⟩, by simp [OrderLifecycleState.rank]⟩
    case isFalse => exact Settles.refl e
  · split
    case isTrue h =>
      exact ⟨⟨rfl, rfl, h, by simp, by simp⟩, by simp [OrderLifecycleState.rank]⟩
    case isFalse => exact Settles.refl e

/-! ## The table -/

namespace OrderManager

/-- The same keys and the same index, every entry changed only as `R` allows. -/
structure Evolves (R : OrderEntry → OrderEntry → Prop) (s s' : OrderManager) : Prop where
  clientOrderIndex : s'.clientOrderIndex = s.clientOrderIndex
  initialized : s'.initialized = s.initialized
  entries : ∀ id, Option.Rel R (s.orders.lookup id) (s'.orders.lookup id)

variable {R R' : OrderEntry → OrderEntry → Prop} {s s' : OrderManager} {id : String} {e e' : OrderEntry}

theorem Evolves.refl (hR : ∀ e, R e e) (s : OrderManager) : Evolves R s s := by
  refine ⟨rfl, rfl, fun id => ?_⟩
  cases s.orders.lookup id with
  | none => exact .none
  | some e => exact .some (hR e)

theorem Evolves.of_eq (hR : ∀ e, R e e) (h : s' = s) : Evolves R s s' := by
  subst h
  exact .refl hR s'

theorem Evolves.mono (h : Evolves R s s') (hR : ∀ e e', R e e' → R' e e') : Evolves R' s s' := by
  refine ⟨h.clientOrderIndex, h.initialized, fun id => ?_⟩
  have hrel := h.entries id
  generalize s.orders.lookup id = o, s'.orders.lookup id = o' at hrel
  cases hrel with
  | some he => exact .some (hR _ _ he)
  | none => exact .none

theorem Evolves.lookup (h : Evolves R s s') (he : s.orders.lookup id = some e) :
    ∃ e', s'.orders.lookup id = some e' ∧ R e e' := by
  have hrel := h.entries id
  rw [he] at hrel
  cases hs : s'.orders.lookup id with
  | none => rw [hs] at hrel; cases hrel
  | some e' => rw [hs] at hrel; cases hrel with | some hr => exact ⟨e', rfl, hr⟩

theorem Evolves.origin (h : Evolves R s s') (he : s'.orders.lookup id = some e') :
    ∃ e, s.orders.lookup id = some e ∧ R e e' := by
  have hrel := h.entries id
  rw [he] at hrel
  cases hs : s.orders.lookup id with
  | none => rw [hs] at hrel; cases hrel
  | some e => rw [hs] at hrel; cases hrel with | some hr => exact ⟨e, rfl, hr⟩

theorem Evolves.isNone (h : Evolves R s s') : s'.orders.lookup id = none ↔ s.orders.lookup id = none := by
  have hrel := h.entries id
  generalize s.orders.lookup id = o, s'.orders.lookup id = o' at hrel
  cases hrel <;> simp

theorem store_evolves (hR : ∀ e, R e e) (he : s.orders.lookup id = some e) (h : R e e') :
    Evolves R s (s.store id e') := by
  refine ⟨rfl, rfl, fun id' => ?_⟩
  simp only [store, Table.lookup_store]
  split
  case isTrue hid => rw [hid, he]; exact .some h
  case isFalse => exact (Evolves.refl hR s).entries id'

/-! ## The status functions -/

theorem lookup_update (s : OrderManager) (id id' : String) (change : OrderEntry → ErrorCode × OrderEntry) :
    (s.update id change).2.orders.lookup id' =
      if id' = id then (s.orders.lookup id).map fun e => (change e).2 else s.orders.lookup id' := by
  unfold update
  cases h : s.orders.lookup id with
  | none =>
    by_cases hid : id' = id
    · rw [if_pos hid, hid]; exact h
    · rw [if_neg hid]
  | some e => exact Table.lookup_store s.orders id id' (change e).2

theorem update_evolves (hR : ∀ e, R e e) (s : OrderManager) (id : String)
    {change : OrderEntry → ErrorCode × OrderEntry} (h : ∀ e, R e (change e).2) :
    Evolves R s (s.update id change).2 := by
  unfold update
  cases he : s.orders.lookup id with
  | none => exact Evolves.refl hR s
  | some e => exact store_evolves hR he (h e)

theorem update_fst (he : s.orders.lookup id = some e) (change : OrderEntry → ErrorCode × OrderEntry) :
    (s.update id change).1 = (change e).1 := by
  simp [update, he]

theorem cancelOrder_evolves (s : OrderManager) (id : String) : Evolves Settles s (s.cancelOrder id).2 :=
  update_evolves Settles.refl s id fun e =>
    applyTransition_settles e e.order.status e.order.submitStatus _ (fun h => h) (by simp [OrderLifecycleState.rank])

theorem recordSendResult_evolves (s : OrderManager) (id : String) (result : ErrorCode) :
    Evolves Settles s (s.recordSendResult id result).2 :=
  update_evolves Settles.refl s id fun e => sendResultEntry_settles e result

theorem recordCancelResult_evolves (s : OrderManager) (id : String) (result : ErrorCode) :
    Evolves Settles s (s.recordCancelResult id result).2 :=
  update_evolves Settles.refl s id fun e => cancelResultEntry_settles e result

theorem markEmsQueued_evolves (s : OrderManager) (id : String) : Evolves Advances s (s.markEmsQueued id).2 :=
  update_evolves Advances.refl s id fun e =>
    applyTransition_advances e e.order.status e.order.submitStatus _ fun h => h

theorem markSendPending_evolves (s : OrderManager) (id : String) : Evolves Advances s (s.markSendPending id).2 :=
  update_evolves Advances.refl s id fun e => applyTransition_advances e _ _ _ fun h => h

/-! ## The reports -/

theorem findOrderLocked_some {orderId key : String} {clientOrderId : UInt32}
    (h : s.findOrderLocked orderId clientOrderId = some (key, e)) :
    s.orders.lookup key = some e ∧
      (key = orderId ∨ clientOrderId ≠ 0 ∧ s.clientOrderIndex.lookup clientOrderId = some key) := by
  unfold findOrderLocked at h
  cases he : s.orders.lookup orderId with
  | some e₁ =>
    rw [he] at h
    cases h
    exact ⟨he, Or.inl rfl⟩
  | none =>
    rw [he] at h
    by_cases hc : clientOrderId = 0
    · simp [hc] at h
    · cases hi : s.clientOrderIndex.lookup clientOrderId with
      | none => simp [hc, hi] at h
      | some key₁ =>
        simp only [hc, hi, ne_eq, not_false_eq_true, if_true, Option.map_eq_some_iff] at h
        obtain ⟨e₁, he₁, heq⟩ := h
        cases heq
        exact ⟨he₁, Or.inr ⟨hc, rfl⟩⟩

/-- The key of the order that a report means. -/
def reportKey (s : OrderManager) (orderId : String) (clientOrderId : UInt32) : Option String :=
  (s.findOrderLocked orderId clientOrderId).map (·.1)

theorem reportKey_eq_some {orderId key : String} {clientOrderId : UInt32} :
    s.reportKey orderId clientOrderId = some key ↔
      ∃ e, s.findOrderLocked orderId clientOrderId = some (key, e) := by
  simp [reportKey]

theorem reportKey_evolves (h : Evolves R s s') (reportId : String)
    (clientOrderId : UInt32) : s'.reportKey reportId clientOrderId = s.reportKey reportId clientOrderId := by
  have hsome : ∀ id, (s'.orders.lookup id).isSome = (s.orders.lookup id).isSome := fun id => by
    have hnone : s'.orders.lookup id = none ↔ s.orders.lookup id = none := h.isNone
    cases h1 : s.orders.lookup id <;> cases h2 : s'.orders.lookup id <;> simp_all
  unfold reportKey findOrderLocked
  rw [h.clientOrderIndex]
  have hid := hsome reportId
  cases h1 : s.orders.lookup reportId <;> cases h2 : s'.orders.lookup reportId <;> simp_all
  split
  · rfl
  · cases hi : s.clientOrderIndex.lookup clientOrderId with
    | none => rfl
    | some key =>
      have hkey := hsome key
      cases h3 : s.orders.lookup key <;> cases h4 : s'.orders.lookup key <;> simp_all

/-- Storing an accepted report, or nothing. -/
theorem orders_ite_store {key : String} {result : ErrorCode × OrderEntry} (he : s.orders.lookup key = some e)
    (hs : s'.orders = s.orders.insert key result.2) :
    (if result.1 = .success then s' else s).orders = s.orders.insert key (kept e result) := by
  unfold kept
  split
  · exact hs
  · exact (Table.store_same he).symm

theorem lookup_applyOrderReport (s : OrderManager) (report : Order) (id : String) :
    (s.applyOrderReport report).orders.lookup id =
      if s.reportKey report.orderId report.clientOrderId = some id then
        (s.orders.lookup id).map fun e => kept e (orderReportEntry e report)
      else s.orders.lookup id := by
  unfold applyOrderReport reportKey
  cases hf : s.findOrderLocked report.orderId report.clientOrderId with
  | none => rfl
  | some found =>
    obtain ⟨key, e⟩ := found
    have he := (findOrderLocked_some hf).1
    dsimp only [Option.map_some]
    rw [orders_ite_store he rfl, Table.lookup_store]
    by_cases hid : id = key
    · subst hid; simp [he]
    · rw [if_neg hid, if_neg (by simpa using Ne.symm hid)]

theorem lookup_applyOrderReport_found {report : Order} {id : String} {e : OrderEntry}
    (hf : s.findOrderLocked report.orderId report.clientOrderId = some (id, e)) (id' : String) :
    (s.applyOrderReport report).orders.lookup id' =
      if id' = id then some (kept e (orderReportEntry e report)) else s.orders.lookup id' := by
  rw [lookup_applyOrderReport, reportKey, hf, Option.map_some]
  by_cases hid : id' = id
  · rw [if_pos (congrArg some hid.symm), if_pos hid, hid, (findOrderLocked_some hf).1, Option.map_some]
  · simp [hid, Ne.symm hid]

theorem lookup_applyTradeReport (s : OrderManager) (report : Trade) (id : String) :
    (s.applyTradeReport report).orders.lookup id =
      if generateTradeDedupKey report ∉ s.appliedTradeIds ∧
          s.reportKey report.orderId report.clientOrderId = some id then
        (s.orders.lookup id).map fun e => kept e (tradeReportEntry e report)
      else s.orders.lookup id := by
  unfold applyTradeReport
  by_cases hd : generateTradeDedupKey report ∈ s.appliedTradeIds
  · rw [if_pos hd, if_neg fun h => h.1 hd]
  rw [if_neg hd]
  unfold reportKey
  cases hf : s.findOrderLocked report.orderId report.clientOrderId with
  | none => simp
  | some found =>
    obtain ⟨key, e⟩ := found
    have he := (findOrderLocked_some hf).1
    dsimp only [Option.map_some]
    rw [orders_ite_store he rfl, Table.lookup_store]
    by_cases hid : id = key
    · subst hid; simp [he, hd]
    · rw [if_neg hid, if_neg fun h => hid (by simpa using h.2.symm)]

theorem evolves_of_lookup {p : String → Prop} [DecidablePred p] {change : OrderEntry → OrderEntry}
    (hR : ∀ e, R e e) (hchange : ∀ id e, p id → s.orders.lookup id = some e → R e (change e))
    (hi : s'.clientOrderIndex = s.clientOrderIndex) (hn : s'.initialized = s.initialized)
    (h : ∀ id, s'.orders.lookup id =
      if p id then (s.orders.lookup id).map change else s.orders.lookup id) : Evolves R s s' := by
  refine ⟨hi, hn, fun id => ?_⟩
  rw [h id]
  split
  case isTrue hp =>
    cases he : s.orders.lookup id with
    | none => exact .none
    | some e => exact .some (hchange id e hp he)
  case isFalse => exact (Evolves.refl hR s).entries id

theorem applyOrderReport_evolves (s : OrderManager) (report : Order) :
    Evolves Settles s (s.applyOrderReport report) := by
  refine evolves_of_lookup Settles.refl (fun _ e _ _ => orderReport_settles e report) ?_ ?_
    (lookup_applyOrderReport s report)
  all_goals
    unfold applyOrderReport
    split
    · rfl
    · dsimp only; split <;> rfl

theorem applyTradeReport_evolves (s : OrderManager) (report : Trade) :
    Evolves Settles s (s.applyTradeReport report) := by
  refine evolves_of_lookup Settles.refl (fun _ e _ _ => tradeReport_settles e report) ?_ ?_
    (lookup_applyTradeReport s report)
  all_goals
    unfold applyTradeReport
    split
    · rfl
    · split
      · rfl
      · dsimp only; split <;> rfl

theorem appliedTradeIds_applyOrderReport (s : OrderManager) (report : Order) :
    (s.applyOrderReport report).appliedTradeIds = s.appliedTradeIds := by
  unfold applyOrderReport
  split
  · rfl
  · dsimp only
    split <;> rfl

theorem appliedTradeIds_applyTradeReport (s : OrderManager) (report : Trade) :
    (s.applyTradeReport report).appliedTradeIds ⊆ insert (generateTradeDedupKey report) s.appliedTradeIds := by
  unfold applyTradeReport
  split
  · exact Finset.subset_insert _ _
  · split
    · exact Finset.subset_insert _ _
    · dsimp only
      split
      · exact Finset.Subset.refl _
      · exact Finset.subset_insert _ _

/-! ## A new order -/

/-- The manager after a request that no known client id answers. -/
def born (s : OrderManager) (request : OrderRequest) (orderId : String) : OrderManager :=
  (s.store orderId (newEntry request orderId)).index request.clientOrderId orderId

@[simp]
theorem orders_index (s : OrderManager) (c : UInt32) (id : String) : (s.index c id).orders = s.orders := by
  unfold index; split <;> rfl

@[simp]
theorem initialized_index (s : OrderManager) (c : UInt32) (id : String) :
    (s.index c id).initialized = s.initialized := by
  unfold index; split <;> rfl

theorem lookup_index (s : OrderManager) (c c' : UInt32) (id : String) :
    (s.index c id).clientOrderIndex.lookup c' =
      if c ≠ 0 ∧ c' = c then some id else s.clientOrderIndex.lookup c' := by
  unfold index
  by_cases hc : c = 0
  · simp [hc]
  · simp [hc, Table.lookup_store]

theorem lookup_born (s : OrderManager) (request : OrderRequest) (orderId id : String) :
    (s.born request orderId).orders.lookup id =
      if id = orderId then some (newEntry request orderId) else s.orders.lookup id := by
  simp [born, store, Table.lookup_store]

/-! ## The table and its index agree -/

/-- Every entry sits under its own id, and the index holds the orders with a client id. -/
structure WellFormed (s : OrderManager) : Prop where
  key : ∀ id e, s.orders.lookup id = some e → id ≠ "" ∧ e.order.orderId = id
  index : ∀ c id, s.clientOrderIndex.lookup c = some id ↔
    c ≠ 0 ∧ ∃ e, s.orders.lookup id = some e ∧ e.order.clientOrderId = c

theorem WellFormed.unique (h : s.WellFormed) {id' : String} (he : s.orders.lookup id = some e)
    (he' : s.orders.lookup id' = some e') (hc : e.order.clientOrderId ≠ 0)
    (heq : e'.order.clientOrderId = e.order.clientOrderId) : id' = id := by
  have h1 := (h.index _ id).mpr ⟨hc, e, he, rfl⟩
  have h2 := (h.index _ id').mpr ⟨hc, e', he', heq⟩
  rw [h1] at h2
  exact (Option.some.inj h2).symm

theorem WellFormed.evolves (h : s.WellFormed) (hs : Evolves Advances s s') : s'.WellFormed := by
  constructor
  · intro id e' he'
    obtain ⟨e, he, ha⟩ := hs.origin he'
    rw [ha.orderId]
    exact h.key id e he
  · intro c id
    rw [hs.clientOrderIndex, h.index c id]
    refine and_congr_right fun _ => ⟨?_, ?_⟩
    · rintro ⟨e, he, hc⟩
      obtain ⟨e', he', ha⟩ := hs.lookup he
      exact ⟨e', he', ha.clientOrderId.trans hc⟩
    · rintro ⟨e', he', hc⟩
      obtain ⟨e, he, ha⟩ := hs.origin he'
      exact ⟨e, he, ha.clientOrderId.symm.trans hc⟩

theorem WellFormed.store_index (h : s.WellFormed) (hid : id ≠ "") (hfresh : s.orders.lookup id = none)
    (he : e.order.orderId = id)
    (hc : e.order.clientOrderId ≠ 0 → s.clientOrderIndex.lookup e.order.clientOrderId = none) :
    ((s.store id e).index e.order.clientOrderId id).WellFormed := by
  constructor
  · intro id' e'
    simp only [orders_index, store, Table.lookup_store]
    split
    · rintro ⟨⟩; simp_all
    · exact h.key id' e'
  · intro c id'
    have hold := h.index c id'
    rw [lookup_index, orders_index, store, Table.lookup_store]
    by_cases hnew : e.order.clientOrderId ≠ 0 ∧ c = e.order.clientOrderId
    · rw [if_pos hnew]
      obtain ⟨hc0, rfl⟩ := hnew
      rw [hc hc0] at hold
      constructor
      · rintro ⟨⟩
        exact ⟨hc0, e, by simp, rfl⟩
      · rintro ⟨-, e₁, he₁, hce⟩
        by_cases hid' : id' = id
        · rw [hid']
        · rw [if_neg hid'] at he₁
          exact absurd (hold.mpr ⟨hc0, e₁, he₁, hce⟩) (by simp)
    · rw [if_neg hnew, hold]
      refine and_congr_right fun hc0 => ?_
      by_cases hid' : id' = id
      · subst hid'
        rw [if_pos rfl, hfresh]
        constructor
        · rintro ⟨_, h, _⟩; cases h
        · rintro ⟨_, ⟨⟩, rfl⟩; exact absurd ⟨hc0, rfl⟩ hnew
      · rw [if_neg hid']

theorem WellFormed.born (h : s.WellFormed) (request : OrderRequest) (hid : id ≠ "")
    (hfresh : s.orders.lookup id = none)
    (hc : request.clientOrderId ≠ 0 → s.clientOrderIndex.lookup request.clientOrderId = none) :
    (s.born request id).WellFormed :=
  h.store_index (e := newEntry request id) hid hfresh rfl hc

theorem createOrder_spec (h : s.WellFormed) (hs : s.initialized = true) (request : OrderRequest)
    (hid : id ≠ "") :
    (∃ key e, s.createOrder request id = (.ok (some e.order), s) ∧ s.orders.lookup key = some e ∧
      request.clientOrderId ≠ 0 ∧ e.order.clientOrderId = request.clientOrderId) ∨
    (s.createOrder request id = (.ok (some (newEntry request id).order), s.born request id) ∧
      (request.clientOrderId ≠ 0 → s.clientOrderIndex.lookup request.clientOrderId = none)) := by
  unfold createOrder
  simp only [hs, Bool.not_true, Bool.false_or, beq_iff_eq, hid, if_false]
  by_cases hc : request.clientOrderId = 0
  · exact Or.inr ⟨by simp [hc, OrderManager.born], by simp [hc]⟩
  · cases hi : s.clientOrderIndex.lookup request.clientOrderId with
    | none => exact Or.inr ⟨by simp [hc, OrderManager.born], fun _ => rfl⟩
    | some key =>
      obtain ⟨_, e, he, hce⟩ := (h.index _ key).mp hi
      exact Or.inl ⟨key, e, by simp [hc, he], he, hc, hce⟩

theorem nextOrderId_ne_empty (s : OrderManager) : s.nextOrderId ≠ "" := by
  intro h
  have := congrArg String.length h
  simp [nextOrderId] at this

/-! ## One step of a session -/

theorem allocateOrderId_evolves (s : OrderManager) : Evolves Settles s s.allocateOrderId.2 :=
  ⟨rfl, rfl, (Evolves.refl Settles.refl s).entries⟩

/-- All that one operation of a session can do: settle orders, mark one, or store a new one. -/
inductive Change : OrderManager → OrderManager → Prop
  | settles {s s' : OrderManager} (h : Evolves Settles s s') : Change s s'
  | emsQueued (s : OrderManager) (id : String) : Change s (s.markEmsQueued id).2
  | sendPending (s : OrderManager) (id : String) : Change s (s.markSendPending id).2
  | born (s : OrderManager) (request : OrderRequest) (id : String) (hid : id ≠ "")
      (hfresh : s.orders.lookup id = none)
      (hc : request.clientOrderId ≠ 0 → s.clientOrderIndex.lookup request.clientOrderId = none) :
      Change s (s.born request id)

theorem Change.refl (s : OrderManager) : Change s s := .settles (Evolves.refl Settles.refl s)

theorem Change.evolves_or_born (h : Change s s') : Evolves Advances s s' ∨
    ∃ request id, s.orders.lookup id = none ∧ s' = s.born request id := by
  cases h with
  | settles h => exact Or.inl (h.mono fun _ _ hs => hs.toAdvances)
  | emsQueued id => exact Or.inl (markEmsQueued_evolves s id)
  | sendPending id => exact Or.inl (markSendPending_evolves s id)
  | born request id _ hfresh _ => exact Or.inr ⟨request, id, hfresh, rfl⟩

theorem Change.wellFormed (h : Change s s') (hs : s.WellFormed) : s'.WellFormed := by
  cases h with
  | settles h => exact hs.evolves (h.mono fun _ _ hs => hs.toAdvances)
  | emsQueued id => exact hs.evolves (markEmsQueued_evolves s id)
  | sendPending id => exact hs.evolves (markSendPending_evolves s id)
  | born request id hid hfresh hc => exact hs.born request hid hfresh hc

theorem Change.initialized (h : Change s s') : s'.initialized = s.initialized := by
  rcases h.evolves_or_born with h | ⟨request, id, _, rfl⟩
  · exact h.initialized
  · simp [OrderManager.born, store]

theorem Change.lookup (h : Change s s') (he : s.orders.lookup id = some e) :
    ∃ e', s'.orders.lookup id = some e' ∧ e.Advances e' := by
  rcases h.evolves_or_born with h | ⟨request, id', hfresh, rfl⟩
  · exact h.lookup he
  · refine ⟨e, ?_, Advances.refl e⟩
    rw [lookup_born, if_neg]
    · exact he
    · rintro rfl; rw [hfresh] at he; cases he

theorem Change.origin (h : Change s s') (he : s'.orders.lookup id = some e') :
    (∃ e, s.orders.lookup id = some e ∧ e.Advances e') ∨
      (s.orders.lookup id = none ∧ ∃ request, e' = newEntry request id) := by
  rcases h.evolves_or_born with h | ⟨request, id', hfresh, rfl⟩
  · exact Or.inl (h.origin he)
  · rw [lookup_born] at he
    split at he
    case isTrue hid => cases he; subst hid; exact Or.inr ⟨hfresh, request, rfl⟩
    case isFalse => exact Or.inl ⟨e', he, Advances.refl e'⟩

/-- No order gets into `sendPending`. -/
def NoNewSend (s s' : OrderManager) : Prop :=
  ∀ id e', s'.orders.lookup id = some e' → e'.lifecycleState = .sendPending →
    ∃ e, s.orders.lookup id = some e ∧ e.lifecycleState = .sendPending

theorem Evolves.noNewSend (h : Evolves Settles s s') : NoNewSend s s' := by
  intro id e' he' hl
  obtain ⟨e, he, hs⟩ := h.origin he'
  exact ⟨e, he, (hs.quiet (by simp [hl, OrderLifecycleState.rank])).symm.trans hl⟩

theorem lookup_markEmsQueued {id' : String} (he : (s.markEmsQueued id).2.orders.lookup id' = some e') :
    ∃ e, s.orders.lookup id' = some e ∧
      (e' = e ∨ id' = id ∧ (e.lifecycleState = .prepared ∨ e.lifecycleState = .emsQueued) ∧
        e' = { e with lifecycleState := .emsQueued }) := by
  rw [markEmsQueued, lookup_update] at he
  split at he
  case isFalse => exact ⟨e', he, Or.inl rfl⟩
  case isTrue hid =>
    subst hid
    obtain ⟨e, hold, rfl⟩ := Option.map_eq_some_iff.mp he
    refine ⟨e, hold, ?_⟩
    rcases applyTransition_cases e .emsQueued with ⟨hedge, h⟩ | ⟨_, h⟩
    · refine Or.inr ⟨rfl, ?_, by rw [h]⟩
      cases hl : e.lifecycleState <;> simp_all [canTransition]
    · exact Or.inl (by rw [h])

theorem markEmsQueued_cases (he : s.orders.lookup id = some e) :
    ((e.lifecycleState = .prepared ∨ e.lifecycleState = .emsQueued) ∧ (s.markEmsQueued id).1 = .success) ∨
    (e.lifecycleState ≠ .prepared ∧ e.lifecycleState ≠ .emsQueued ∧
      s.markEmsQueued id = (.systemError, s)) := by
  unfold markEmsQueued
  rcases applyTransition_cases e .emsQueued with ⟨hedge, h⟩ | ⟨hedge, h⟩
  · refine Or.inl ⟨?_, by rw [update_fst he, h]⟩
    cases hl : e.lifecycleState <;> simp_all [canTransition]
  · have hs : s.store id e = s := by simp only [store, Table.store_same he]
    refine Or.inr ⟨?_, ?_, by simp [update, he, h, hs]⟩ <;>
      cases hl : e.lifecycleState <;> simp_all [canTransition]

theorem markEmsQueued_noNewSend (s : OrderManager) (id : String) : NoNewSend s (s.markEmsQueued id).2 := by
  intro id' e' he' hl
  obtain ⟨e, he, rfl | ⟨_, _, rfl⟩⟩ := lookup_markEmsQueued he'
  · exact ⟨e', he, hl⟩
  · simp at hl

theorem born_noNewSend (s : OrderManager) (request : OrderRequest) (id : String) :
    NoNewSend s (s.born request id) := by
  intro id' e' he' hl
  rw [lookup_born] at he'
  split at he'
  · cases he'; simp [newEntry] at hl
  · exact ⟨e', he', hl⟩

theorem update_cases (s : OrderManager) (id : String) (change : OrderEntry → ErrorCode × OrderEntry) :
    (s.orders.lookup id = none ∧ s.update id change = (.notFound, s)) ∨
    ∃ e, s.orders.lookup id = some e ∧ (s.update id change).1 = (change e).1 ∧
      (s.update id change).2.orders.lookup id = some (change e).2 := by
  cases he : s.orders.lookup id with
  | none => exact Or.inl ⟨rfl, by simp [update, he]⟩
  | some e => exact Or.inr ⟨e, rfl, update_fst he change, by rw [lookup_update, if_pos rfl, he]; rfl⟩

theorem markSendPending_success (h : (s.markSendPending id).1 = .success) :
    ∃ e e', s.orders.lookup id = some e ∧
      (e.lifecycleState = .emsQueued ∨ e.lifecycleState = .sendPending) ∧
      (s.markSendPending id).2.orders.lookup id = some e' ∧ e'.lifecycleState = .sendPending := by
  rcases update_cases s id fun e =>
      applyTransition { e with order.submitStatus := .insertSubmitted } .sendPending with
    ⟨_, hu⟩ | ⟨e, he, hrc, he'⟩
  · rw [markSendPending, hu] at h; simp at h
  · rw [markSendPending, hrc] at h
    rcases applyTransition_cases { e with order.submitStatus := .insertSubmitted } .sendPending with
      ⟨hedge, ht⟩ | ⟨_, ht⟩
    · rw [ht] at he'
      refine ⟨e, _, he, ?_, he', rfl⟩
      cases hl : e.lifecycleState <;> simp_all [canTransition]
    · rw [ht] at h; simp at h

theorem markSendPending_refused (he : s.orders.lookup id = some e) (h : (s.markSendPending id).1 ≠ .success) :
    e.lifecycleState ≠ .emsQueued ∧ e.lifecycleState ≠ .sendPending := by
  rw [markSendPending, update_fst he] at h
  constructor <;> intro hl <;> simp [applyTransition, hl, canTransition] at h

theorem markSendPending_sendPending {id' : String} (he : (s.markSendPending id).2.orders.lookup id' = some e')
    (hl : e'.lifecycleState = .sendPending) :
    (id' = id ∧ (s.markSendPending id).1 = .success) ∨
      ∃ e, s.orders.lookup id' = some e ∧ e.lifecycleState = .sendPending := by
  by_cases hid : id' = id
  · subst hid
    rcases update_cases s id' fun e =>
        applyTransition { e with order.submitStatus := .insertSubmitted } .sendPending with
      ⟨hnone, hu⟩ | ⟨e, hold, hrc, hnew⟩
    · rw [markSendPending, hu, hnone] at he; cases he
    · rw [markSendPending, hnew, Option.some.injEq] at he
      subst he
      rcases applyTransition_cases { e with order.submitStatus := .insertSubmitted } .sendPending with
        ⟨_, ht⟩ | ⟨_, ht⟩
      · exact Or.inl ⟨rfl, by rw [markSendPending, hrc, ht]⟩
      · rw [ht] at hl; exact Or.inr ⟨e, hold, hl⟩
  · rw [markSendPending, lookup_update, if_neg hid] at he
    exact Or.inr ⟨e', he, hl⟩

end OrderManager

end Qtrade.Oms
