import Qtrade.Lib.Runs
import Qtrade.Oms.Startup

/-!
# Every run of the order manager

All that can be done to a manager, in any order and with any arguments, and the shape of the three
tables that holds throughout.
-/

namespace Qtrade.Oms

open OrderEntry

namespace OrderManager

inductive Operation
  | initializeWith (options : OrderManagerOptions)
  | shutdown
  | allocateOrderId
  | createOrder (request : OrderRequest) (orderId : String)
  | createOrderAllocating (request : OrderRequest)
  | reconcileBrokerOrder (report : Order)
  | applyOrderReport (report : Order)
  | applyTradeReport (report : Trade)
  | markReconciled (orderId : String)
  | cancelOrder (orderId : String)
  | markEmsQueued (orderId : String)
  | markSendPending (orderId : String)
  | recordSendResult (orderId : String) (result : ErrorCode)
  | recordCancelResult (orderId : String) (result : ErrorCode)

/-- What an operation leaves behind. -/
def perform (s : OrderManager) : Operation → OrderManager
  | .initializeWith options => (s.initializeWith options).2
  | .shutdown => s.shutdown
  | .allocateOrderId => s.allocateOrderId.2
  | .createOrder request orderId => (s.createOrder request orderId).2
  | .createOrderAllocating request => (s.createOrderAllocating request).2
  | .reconcileBrokerOrder report => s.reconcileBrokerOrder report
  | .applyOrderReport report => s.applyOrderReport report
  | .applyTradeReport report => s.applyTradeReport report
  | .markReconciled orderId => s.markReconciled orderId
  | .cancelOrder orderId => (s.cancelOrder orderId).2
  | .markEmsQueued orderId => (s.markEmsQueued orderId).2
  | .markSendPending orderId => (s.markSendPending orderId).2
  | .recordSendResult orderId result => (s.recordSendResult orderId result).2
  | .recordCancelResult orderId result => (s.recordCancelResult orderId result).2

def run (s : OrderManager) (a : Operation) : Option OrderManager := some (s.perform a)

/-- The report names no order, and is to be stored under an id of the manager's own. -/
def adoptsUnderNewId (s : OrderManager) (report : Order) : Bool :=
  s.initialized && report.orderId == "" && report.clientOrderId != 0 &&
    (s.findOrderLocked report.orderId report.clientOrderId).isNone

/-- The id under which a broker order is adopted. -/
def adoptionId (s : OrderManager) (report : Order) : Option String :=
  if s.initialized = true ∧ s.findOrderLocked report.orderId report.clientOrderId = none then
    if report.orderId ≠ "" then some report.orderId
    else if report.clientOrderId = 0 then none
    else some s.nextOrderId
  else none

/-- An id that is handed to `CreateOrder` or that `AllocateOrderId` produces is not a key yet. -/
def freshIds (s : OrderManager) : Operation → Bool
  | .createOrder _ orderId => orderId ∉ s.orders
  | .createOrderAllocating _ => s.nextOrderId ∉ s.orders
  | .reconcileBrokerOrder report => !s.adoptsUnderNewId report || s.nextOrderId ∉ s.orders
  | _ => true

/-! ## What creating and reconciling do to the tables -/

variable {s s' : OrderManager} {id : String} {e : OrderEntry}

/-- A broker order is merged into the order it means, or adopted under an id that may be new. -/
theorem reconcileBrokerOrder_cases (s : OrderManager) (report : Order) :
    (∃ key e, s.findOrderLocked report.orderId report.clientOrderId = some (key, e) ∧
      (orderReportEntry e report).1 = .success ∧
      s.reconcileBrokerOrder report = { s.store key (orderReportEntry e report).2 with
        reconciledOrderIds := insert (orderReportEntry e report).2.order.orderId s.reconciledOrderIds }) ∨
    (s.initialized = true ∧ s.findOrderLocked report.orderId report.clientOrderId = none ∧
      report.orderId ≠ "" ∧ s.reconcileBrokerOrder report = s.adopt report report.orderId) ∨
    (s.adoptsUnderNewId report = true ∧
      s.reconcileBrokerOrder report = s.allocateOrderId.2.adopt report s.nextOrderId) ∨
    ((s.initialized = false ∨ (s.findOrderLocked report.orderId report.clientOrderId).isSome ∨
        report.orderId = "" ∧ report.clientOrderId = 0) ∧ s.reconcileBrokerOrder report = s) := by
  unfold reconcileBrokerOrder adoptsUnderNewId
  by_cases hinit : s.initialized = true
  swap
  · simp [hinit]
  simp only [hinit, Bool.not_true, Bool.false_eq_true, if_false, Bool.true_and]
  cases hf : s.findOrderLocked report.orderId report.clientOrderId with
  | none =>
    by_cases hid : report.orderId = ""
    · by_cases hc : report.clientOrderId = 0
      · simp [hid, hc]
      · refine Or.inr (Or.inr (Or.inl ?_))
        simp [hid, hc, OrderManager.allocateOrderId]
    · refine Or.inr (Or.inl ?_)
      simp [hid]
  | some found =>
    obtain ⟨key, e⟩ := found
    dsimp only
    split
    case isTrue hok => exact Or.inl ⟨key, e, rfl, hok, rfl⟩
    case isFalse => exact Or.inr (Or.inr (Or.inr ⟨Or.inr (Or.inl rfl), rfl⟩))

theorem createOrder_cases (s : OrderManager) (request : OrderRequest) (orderId : String) :
    (s.createOrder request orderId).2 = s ∨
      ((request.clientOrderId = 0 ∨ s.clientOrderIndex.lookup request.clientOrderId = none) ∧
        s.initialized = true ∧ orderId ≠ "" ∧
        s.createOrder request orderId = (.ok (some (newEntry request orderId).order), s.born request orderId)) := by
  unfold createOrder
  split
  · exact Or.inl rfl
  case isFalse hno =>
    simp only [Bool.or_eq_true, Bool.not_eq_true', beq_iff_eq, not_or, Bool.not_eq_false] at hno
    by_cases hc : request.clientOrderId = 0
    · exact Or.inr ⟨Or.inl hc, hno.1, hno.2, by simp [hc, OrderManager.born]⟩
    · cases hi : s.clientOrderIndex.lookup request.clientOrderId with
      | none => exact Or.inr ⟨Or.inr rfl, hno.1, hno.2, by simp [hc, OrderManager.born]⟩
      | some existing =>
        left
        simp only [ne_eq, hc, not_false_eq_true, if_true]
        split <;> rfl

theorem reconcileBrokerOrder_found {report : Order} {key : String}
    (hf : s.findOrderLocked report.orderId report.clientOrderId = some (key, e)) :
    Evolves Settles s (s.reconcileBrokerOrder report) := by
  have hset := orderReport_settles e report
  have hstored := store_evolves Settles.refl (findOrderLocked_some hf).1 hset
  unfold reconcileBrokerOrder
  rw [hf]
  dsimp only
  split
  case isTrue => exact Evolves.refl Settles.refl s
  case isFalse =>
    split
    case isTrue hok =>
      rw [kept, if_pos hok] at hstored
      exact ⟨hstored.clientOrderIndex, hstored.initialized, hstored.entries⟩
    case isFalse => exact Evolves.refl Settles.refl s

theorem lookup_adopt (s : OrderManager) (report : Order) (orderId id : String) :
    (s.adopt report orderId).orders.lookup id =
      if id = orderId then some (adoptedEntry report orderId) else s.orders.lookup id := by
  unfold OrderManager.adopt
  simp [store, Table.lookup_store]

theorem lookup_reconcileBrokerOrder_found {report : Order} (hinit : s.initialized = true)
    (hf : s.findOrderLocked report.orderId report.clientOrderId = some (id, e)) (id' : String) :
    (s.reconcileBrokerOrder report).orders.lookup id' =
      if id' = id then some (kept e (orderReportEntry e report)) else s.orders.lookup id' := by
  have horders : (s.reconcileBrokerOrder report).orders = (s.applyOrderReport report).orders := by
    unfold reconcileBrokerOrder applyOrderReport
    simp only [hinit, hf, Bool.not_true, Bool.false_eq_true, if_false]
    split <;> rfl
  rw [horders, lookup_applyOrderReport_found hf]

theorem lookup_reconcileBrokerOrder_new {report : Order} (hinit : s.initialized = true)
    (hf : s.findOrderLocked report.orderId report.clientOrderId = none) (id' : String) :
    (s.reconcileBrokerOrder report).orders.lookup id' =
      if s.adoptionId report = some id' then some (adoptedEntry report id') else s.orders.lookup id' := by
  unfold reconcileBrokerOrder adoptionId
  simp only [hinit, hf, Bool.not_true, Bool.false_eq_true, if_false, and_self, if_true]
  by_cases hid : report.orderId = ""
  · by_cases hc : report.clientOrderId = 0
    · simp [hid, hc]
    · rcases eq_or_ne id' s.nextOrderId with rfl | hnew
      · simp [hid, hc, lookup_adopt, OrderManager.allocateOrderId]
      · simp [hid, hc, lookup_adopt, OrderManager.allocateOrderId, hnew, hnew.symm]
  · rcases eq_or_ne id' report.orderId with rfl | hnew
    · simp [hid, lookup_adopt]
    · simp [hid, lookup_adopt, hnew, hnew.symm]

/-! ## The three tables -/

/-- The table and its index agree, only orders of the table are reconciled, and a manager that is
not initialised holds nothing. -/
structure Sound (s : OrderManager) : Prop where
  wellFormed : s.WellFormed
  reconciled : ∀ id ∈ s.reconciledOrderIds, id ∈ s.orders
  empty : s.initialized = false → s.orders = ∅ ∧ s.clientOrderIndex = ∅

theorem Evolves.mem_iff {R : OrderEntry → OrderEntry → Prop} (h : Evolves R s s') (id : String) :
    id ∈ s'.orders ↔ id ∈ s.orders := by
  rw [← not_iff_not, ← Finmap.lookup_eq_none, ← Finmap.lookup_eq_none]
  exact h.isNone

theorem Evolves.orders_eq_empty {R : OrderEntry → OrderEntry → Prop} (h : Evolves R s s')
    (hempty : s.orders = ∅) : s'.orders = ∅ := by
  apply Finmap.ext_lookup
  intro id
  rw [Finmap.lookup_empty]
  apply h.isNone.mpr
  rw [hempty]
  exact Finmap.lookup_empty id

theorem Sound.evolves (h : s.Sound) (hs : Evolves Advances s s')
    (hr : ∀ id ∈ s'.reconciledOrderIds, id ∈ s.orders) : s'.Sound := by
  refine ⟨h.wellFormed.evolves hs, ?_, ?_⟩
  · intro id hmem
    rw [hs.mem_iff]
    exact hr id hmem
  · intro hno
    rw [hs.initialized] at hno
    obtain ⟨horders, hindex⟩ := h.empty hno
    exact ⟨hs.orders_eq_empty horders, hs.clientOrderIndex.trans hindex⟩

theorem sound_of_empty (horders : s.orders = ∅) (hindex : s.clientOrderIndex = ∅)
    (hreconciled : s.reconciledOrderIds = ∅) : s.Sound := by
  refine ⟨⟨?_, ?_⟩, ?_, fun _ => ⟨horders, hindex⟩⟩
  · intro id e he
    simp [horders] at he
  · intro c id
    simp [horders, hindex]
  · simp [hreconciled]

theorem Sound.initializeWith (h : s.Sound) (options : OrderManagerOptions) :
    (s.initializeWith options).2.Sound := by
  unfold OrderManager.initializeWith
  split
  · exact h
  · split
    · exact h
    · exact sound_of_empty rfl rfl rfl

theorem Sound.store_index (h : s.Sound) (hs : s.initialized = true) (hid : id ≠ "") (hfresh : id ∉ s.orders)
    (he : e.order.orderId = id)
    (hc : e.order.clientOrderId ≠ 0 → s.clientOrderIndex.lookup e.order.clientOrderId = none) :
    ((s.store id e).index e.order.clientOrderId id).Sound := by
  refine ⟨h.wellFormed.store_index hid (Finmap.lookup_eq_none.mpr hfresh) he hc, ?_, ?_⟩
  · intro id' hmem
    have hold : id' ∈ s.reconciledOrderIds := by
      unfold OrderManager.index at hmem
      split at hmem <;> exact hmem
    rw [orders_index, store, Finmap.mem_insert]
    exact Or.inr (h.reconciled id' hold)
  · intro hno
    rw [initialized_index, store, hs] at hno
    cases hno

theorem Sound.createOrder (h : s.Sound) (request : OrderRequest) (hfresh : id ∉ s.orders) :
    (s.createOrder request id).2.Sound := by
  by_cases hrefused : s.initialized = false ∨ id = ""
  · have hsame : s.createOrder request id = (.ok none, s) := by
      rcases hrefused with hno | hempty <;> simp [OrderManager.createOrder, *]
    rw [hsame]
    exact h
  · obtain ⟨hinit, hid⟩ := not_or.mp hrefused
    have hinit : s.initialized = true := by simpa using hinit
    rcases createOrder_spec h.wellFormed hinit request hid with ⟨_, _, hs, _⟩ | ⟨hs, hc⟩
    · rw [hs]
      exact h
    · rw [hs]
      exact h.store_index (e := newEntry request id) hinit hid hfresh rfl hc

theorem Sound.adopt (h : s.Sound) (hs : s.initialized = true) (report : Order) (hid : id ≠ "")
    (hfresh : id ∉ s.orders)
    (hc : report.clientOrderId ≠ 0 → s.clientOrderIndex.lookup report.clientOrderId = none) :
    (s.adopt report id).Sound := by
  have hsound := h.store_index (e := adoptedEntry report id) hs hid hfresh rfl hc
  refine ⟨⟨hsound.wellFormed.key, hsound.wellFormed.index⟩, ?_, hsound.empty⟩
  intro id' hmem
  rcases Finset.mem_insert.mp hmem with rfl | hold
  · rw [Table.mem_iff_lookup]
    exact ⟨_, by rw [lookup_adopt, if_pos rfl]⟩
  · exact hsound.reconciled id' hold

theorem allocateOrderId_sound (h : s.Sound) : s.allocateOrderId.2.Sound :=
  h.evolves ((allocateOrderId_evolves s).mono fun _ _ hs => hs.toAdvances) h.reconciled

theorem Sound.reconcileBrokerOrder (h : s.Sound) (report : Order)
    (hfresh : s.adoptsUnderNewId report = true → s.nextOrderId ∉ s.orders) :
    (s.reconcileBrokerOrder report).Sound := by
  rcases reconcileBrokerOrder_cases s report with
    ⟨key, e, hf, hok, hs⟩ | ⟨hinit, hf, hid, hs⟩ | ⟨hnew, hs⟩ | ⟨_, hs⟩
  · have he := (findOrderLocked_some hf).1
    have hset := orderReport_settles e report
    rw [kept, if_pos hok] at hset
    apply h.evolves ((reconcileBrokerOrder_found hf).mono fun _ _ ha => ha.toAdvances)
    rw [hs]
    intro id hmem
    rcases Finset.mem_insert.mp hmem with rfl | hold
    · rw [hset.orderId, (h.wellFormed.key key e he).2, Table.mem_iff_lookup]
      exact ⟨e, he⟩
    · exact h.reconciled id hold
  · rw [hs]
    obtain ⟨hnone, hc⟩ := findOrderLocked_none h.wellFormed hf
    exact h.adopt hinit report hid (Finmap.lookup_eq_none.mp hnone) hc
  · rw [hs]
    have hnot := hfresh hnew
    simp only [adoptsUnderNewId, Bool.and_eq_true, Option.isNone_iff_eq_none] at hnew
    obtain ⟨⟨⟨hinit, _⟩, _⟩, hf⟩ := hnew
    obtain ⟨_, hc⟩ := findOrderLocked_none h.wellFormed hf
    exact (allocateOrderId_sound h).adopt hinit report (nextOrderId_ne_empty s) hnot hc
  · rw [hs]
    exact h

theorem Sound.markReconciled (h : s.Sound) (orderId : String) : (s.markReconciled orderId).Sound := by
  unfold OrderManager.markReconciled
  split
  case isTrue hmem =>
    refine ⟨⟨h.wellFormed.key, h.wellFormed.index⟩, ?_, h.empty⟩
    intro id hid
    rcases Finset.mem_insert.mp hid with rfl | hold
    · exact hmem
    · exact h.reconciled id hold
  case isFalse => exact h

theorem reconciledOrderIds_update (s : OrderManager) (orderId : String)
    (change : OrderEntry → ErrorCode × OrderEntry) :
    (s.update orderId change).2.reconciledOrderIds = s.reconciledOrderIds := by
  unfold update
  split <;> rfl

theorem reconciledOrderIds_applyOrderReport (s : OrderManager) (report : Order) :
    (s.applyOrderReport report).reconciledOrderIds = s.reconciledOrderIds := by
  unfold applyOrderReport
  split
  · rfl
  · dsimp only
    split <;> rfl

theorem reconciledOrderIds_applyTradeReport (s : OrderManager) (report : Trade) :
    (s.applyTradeReport report).reconciledOrderIds = s.reconciledOrderIds := by
  unfold applyTradeReport
  split
  · rfl
  · split
    · rfl
    · dsimp only
      split <;> rfl

theorem run_sound (h : s.Sound) {a : Operation} (hok : s.freshIds a = true) (hs : s.run a = some s') :
    s'.Sound := by
  have hkept : ∀ {s' : OrderManager}, Evolves Settles s s' → s'.reconciledOrderIds = s.reconciledOrderIds →
      s'.Sound := by
    intro s' hevolves hsame
    apply h.evolves (hevolves.mono fun _ _ ha => ha.toAdvances)
    rw [hsame]
    exact h.reconciled
  obtain rfl := Option.some.inj hs
  induction a with
  | initializeWith options => exact h.initializeWith options
  | shutdown => exact sound_of_empty rfl rfl rfl
  | allocateOrderId => exact allocateOrderId_sound h
  | createOrder request orderId => exact h.createOrder request (by simpa [freshIds] using hok)
  | createOrderAllocating request =>
    apply (allocateOrderId_sound h).createOrder request
    simpa [freshIds, OrderManager.allocateOrderId] using hok
  | reconcileBrokerOrder report =>
    apply h.reconcileBrokerOrder report
    intro hnew
    simpa [freshIds, hnew] using hok
  | applyOrderReport report =>
    exact hkept (applyOrderReport_evolves s report) (reconciledOrderIds_applyOrderReport s report)
  | applyTradeReport report =>
    exact hkept (applyTradeReport_evolves s report) (reconciledOrderIds_applyTradeReport s report)
  | markReconciled orderId => exact h.markReconciled orderId
  | cancelOrder orderId => exact hkept (cancelOrder_evolves s orderId) (reconciledOrderIds_update s _ _)
  | markEmsQueued orderId =>
    apply h.evolves (markEmsQueued_evolves s orderId)
    exact (reconciledOrderIds_update s _ _) ▸ h.reconciled
  | markSendPending orderId =>
    apply h.evolves (markSendPending_evolves s orderId)
    exact (reconciledOrderIds_update s _ _) ▸ h.reconciled
  | recordSendResult orderId result =>
    exact hkept (recordSendResult_evolves s orderId result) (reconciledOrderIds_update s _ _)
  | recordCancelResult orderId result =>
    exact hkept (recordCancelResult_evolves s orderId result) (reconciledOrderIds_update s _ _)

theorem sound_of_reaches (h : Runs.Reaches run (fun s a => s.freshIds a = true) {} s) : s.Sound := by
  apply h.invariant
  · exact sound_of_empty rfl rfl rfl
  · intro s a s' hsound hok hs
    exact run_sound hsound hok hs

/-! ## A request with a client id -/

theorem createOrder_total (h : s.Sound) (request : OrderRequest) (orderId : String) :
    ∃ order, (s.createOrder request orderId).1 = .ok order := by
  by_cases hrefused : s.initialized = false ∨ orderId = ""
  · refine ⟨none, ?_⟩
    rcases hrefused with hno | hempty <;> simp [OrderManager.createOrder, *]
  · obtain ⟨hinit, hid⟩ := not_or.mp hrefused
    rcases createOrder_spec h.wellFormed (by simpa using hinit) request hid with ⟨_, _, hs, _⟩ | ⟨hs, _⟩
    · exact ⟨_, by rw [hs]⟩
    · exact ⟨_, by rw [hs]⟩

theorem createOrder_known (h : s.Sound) {key : String} {request : OrderRequest}
    (hkey : s.clientOrderIndex.lookup request.clientOrderId = some key) (hid : id ≠ "")
    (he : s.orders.lookup key = some e) : s.createOrder request id = (.ok (some e.order), s) := by
  have hc := ((h.wellFormed.index _ key).mp hkey).1
  have hinit : s.initialized = true := by
    by_contra hno
    rw [(h.empty (by simpa using hno)).1] at he
    simp at he
  simp [OrderManager.createOrder, hinit, hid, hc, hkey, he]

/-- In every run in which ids that are new to the manager are no keys yet, each order sits under its
own nonempty id, the index holds exactly the orders with a client id, and only orders of the table are
reconciled. So no request throws, and one with a known client id gets the order that has it. -/
theorem tables_agree (h : Runs.Reaches run (fun s a => s.freshIds a = true) {} s) :
    (∀ id e, s.orders.lookup id = some e → id ≠ "" ∧ e.order.orderId = id) ∧
    (∀ c id, s.clientOrderIndex.lookup c = some id ↔
      c ≠ 0 ∧ ∃ e, s.orders.lookup id = some e ∧ e.order.clientOrderId = c) ∧
    (∀ id ∈ s.reconciledOrderIds, id ∈ s.orders) ∧
    (∀ request orderId, ∃ order, (s.createOrder request orderId).1 = .ok order) ∧
    ∀ c key, s.clientOrderIndex.lookup c = some key → ∃ e, s.orders.lookup key = some e ∧
      ∀ request orderId, request.clientOrderId = c →
        (orderId ≠ "" → s.createOrder request orderId = (.ok (some e.order), s)) ∧
        s.createOrderAllocating request = (.ok (some e.order), s.allocateOrderId.2) := by
  have hsound := sound_of_reaches h
  refine ⟨hsound.wellFormed.key, hsound.wellFormed.index, hsound.reconciled, createOrder_total hsound, ?_⟩
  intro c key hkey
  obtain ⟨_, e, he, _⟩ := (hsound.wellFormed.index c key).mp hkey
  refine ⟨e, he, fun request orderId hc => ?_⟩
  subst hc
  constructor
  · intro hid
    exact createOrder_known hsound hkey hid he
  · exact createOrder_known (allocateOrderId_sound hsound) hkey (nextOrderId_ne_empty s) he

/-- One order of the manager's own and one that the broker reports by its client id alone. -/
theorem tables_agree_adopted : ∃ s : OrderManager, ∃ e : OrderEntry,
    Runs.Reaches run (fun s a => s.freshIds a = true) {} s ∧ s.clientOrderIndex.lookup 7 = some "t-e-1-2" ∧
      s.orders.lookup "t-e-1-2" = some e ∧
      ∀ request, request.clientOrderId = 7 → s.createOrder request "t-e-1-3" = (.ok (some e.order), s) := by
  have hrun : ∃ s ∈ Runs.execWhile run (fun s a => s.freshIds a = true) {}
      [.initializeWith ⟨"t", "e", 1⟩, .createOrderAllocating { clientOrderId := 42, volume := 2 },
        .reconcileBrokerOrder { clientOrderId := 7, volume := 1, status := .notTradedQueueing }],
      s.clientOrderIndex.lookup 7 = some "t-e-1-2" := by decide +kernel
  obtain ⟨s, hs, hkey⟩ := hrun
  have hreach := Runs.reaches_of_execWhile _ hs
  obtain ⟨_, _, _, _, hknown⟩ := tables_agree hreach
  obtain ⟨e, he, hanswer⟩ := hknown 7 "t-e-1-2" hkey
  exact ⟨s, e, hreach, hkey, he, fun request hc => (hanswer request "t-e-1-3" hc).1 (by decide)⟩

/-! ## Whatever the ids -/

/-- What holds even where a new id overwrites an order. -/
structure Anchored (s : OrderManager) : Prop where
  key : ∀ id e, s.orders.lookup id = some e → id ≠ "" ∧ e.order.orderId = id
  index : ∀ c id, s.clientOrderIndex.lookup c = some id → c ≠ 0 ∧ id ∈ s.orders
  empty : s.initialized = false → s.orders = ∅ ∧ s.clientOrderIndex = ∅

theorem Anchored.evolves (h : s.Anchored) (hs : Evolves Advances s s') : s'.Anchored := by
  refine ⟨?_, ?_, ?_⟩
  · intro id e' he'
    obtain ⟨e, he, ha⟩ := hs.origin he'
    rw [ha.orderId]
    exact h.key id e he
  · intro c id hkey
    rw [hs.mem_iff]
    exact h.index c id (hs.clientOrderIndex ▸ hkey)
  · intro hno
    rw [hs.initialized] at hno
    obtain ⟨horders, hindex⟩ := h.empty hno
    exact ⟨hs.orders_eq_empty horders, hs.clientOrderIndex.trans hindex⟩

theorem anchored_of_empty (horders : s.orders = ∅) (hindex : s.clientOrderIndex = ∅) : s.Anchored := by
  refine ⟨?_, ?_, fun _ => ⟨horders, hindex⟩⟩
  · intro id e he
    simp [horders] at he
  · intro c id hkey
    simp [hindex] at hkey

theorem Anchored.initializeWith (h : s.Anchored) (options : OrderManagerOptions) :
    (s.initializeWith options).2.Anchored := by
  unfold OrderManager.initializeWith
  split
  · exact h
  · split
    · exact h
    · exact anchored_of_empty rfl rfl

theorem Anchored.markReconciled (h : s.Anchored) (orderId : String) : (s.markReconciled orderId).Anchored := by
  unfold OrderManager.markReconciled
  split
  · exact ⟨h.key, h.index, h.empty⟩
  · exact h

theorem Anchored.store_index (h : s.Anchored) (hs : s.initialized = true) (hid : id ≠ "")
    (he : e.order.orderId = id) (c : UInt32) : ((s.store id e).index c id).Anchored := by
  refine ⟨?_, ?_, ?_⟩
  · intro id' e'
    simp only [orders_index, store, Table.lookup_store]
    split
    case isTrue hkey =>
      rintro ⟨⟩
      rw [hkey]
      exact ⟨hid, he⟩
    case isFalse => exact h.key id' e'
  · intro c' id' hkey
    rw [lookup_index] at hkey
    rw [orders_index, store, Finmap.mem_insert]
    split at hkey
    case isTrue hc =>
      cases hkey
      exact ⟨hc.2 ▸ hc.1, Or.inl rfl⟩
    case isFalse =>
      obtain ⟨hc, hmem⟩ := h.index c' id' hkey
      exact ⟨hc, Or.inr hmem⟩
  · intro hno
    rw [initialized_index, store, hs] at hno
    cases hno

theorem Anchored.createOrder (h : s.Anchored) (request : OrderRequest) (orderId : String) :
    (s.createOrder request orderId).2.Anchored := by
  unfold OrderManager.createOrder
  split
  · exact h
  case isFalse hno =>
    simp only [Bool.or_eq_true, Bool.not_eq_true', beq_iff_eq, not_or, Bool.not_eq_false] at hno
    generalize (if request.clientOrderId ≠ 0 then _ else none : Option String) = known
    cases known with
    | none => exact h.store_index hno.1 hno.2 rfl request.clientOrderId
    | some existing =>
      dsimp only
      split <;> exact h

theorem Anchored.adopt (h : s.Anchored) (hs : s.initialized = true) (report : Order) (hid : id ≠ "") :
    (s.adopt report id).Anchored := by
  have hstored := h.store_index (e := adoptedEntry report id) hs hid rfl report.clientOrderId
  exact ⟨hstored.key, hstored.index, hstored.empty⟩

theorem allocateOrderId_anchored (h : s.Anchored) : s.allocateOrderId.2.Anchored :=
  h.evolves ((allocateOrderId_evolves s).mono fun _ _ hs => hs.toAdvances)

theorem Anchored.reconcileBrokerOrder (h : s.Anchored) (report : Order) :
    (s.reconcileBrokerOrder report).Anchored := by
  rcases reconcileBrokerOrder_cases s report with
    ⟨key, e, hf, hok, hs⟩ | ⟨hinit, _, hid, hs⟩ | ⟨hnew, hs⟩ | ⟨_, hs⟩
  · exact h.evolves ((reconcileBrokerOrder_found hf).mono fun _ _ ha => ha.toAdvances)
  · rw [hs]
    exact h.adopt hinit report hid
  · rw [hs]
    simp only [adoptsUnderNewId, Bool.and_eq_true] at hnew
    exact (allocateOrderId_anchored h).adopt hnew.1.1.1 report (nextOrderId_ne_empty s)
  · rw [hs]
    exact h

theorem run_anchored (h : s.Anchored) {a : Operation} (hs : s.run a = some s') : s'.Anchored := by
  have hsettles : ∀ {s' : OrderManager}, Evolves Settles s s' → s'.Anchored := by
    intro s' hevolves
    exact h.evolves (hevolves.mono fun _ _ ha => ha.toAdvances)
  obtain rfl := Option.some.inj hs
  induction a with
  | initializeWith options => exact h.initializeWith options
  | shutdown => exact anchored_of_empty rfl rfl
  | allocateOrderId => exact allocateOrderId_anchored h
  | createOrder request orderId => exact h.createOrder request orderId
  | createOrderAllocating request => exact (allocateOrderId_anchored h).createOrder request _
  | reconcileBrokerOrder report => exact h.reconcileBrokerOrder report
  | applyOrderReport report => exact hsettles (applyOrderReport_evolves s report)
  | applyTradeReport report => exact hsettles (applyTradeReport_evolves s report)
  | markReconciled orderId => exact h.markReconciled orderId
  | cancelOrder orderId => exact hsettles (cancelOrder_evolves s orderId)
  | markEmsQueued orderId => exact h.evolves (markEmsQueued_evolves s orderId)
  | markSendPending orderId => exact h.evolves (markSendPending_evolves s orderId)
  | recordSendResult orderId result => exact hsettles (recordSendResult_evolves s orderId result)
  | recordCancelResult orderId result => exact hsettles (recordCancelResult_evolves s orderId result)

theorem anchored_of_reaches (h : Runs.Reaches run Runs.anyStep {} s) : s.Anchored := by
  apply h.invariant
  · exact anchored_of_empty rfl rfl
  · intro s a s' hanchored _ hs
    exact run_anchored hanchored hs

theorem Anchored.reportKey_eq (h : s.Anchored) (orderId : String) (c : UInt32) :
    s.reportKey orderId c = if orderId ∈ s.orders then some orderId else s.clientOrderIndex.lookup c := by
  unfold reportKey findOrderLocked
  cases he : s.orders.lookup orderId with
  | some e => simp [Finmap.mem_of_lookup_eq_some he]
  | none =>
    have hnot : orderId ∉ s.orders := Finmap.lookup_eq_none.mp he
    simp only [hnot, if_false]
    cases hi : s.clientOrderIndex.lookup c with
    | none => simp
    | some key =>
      obtain ⟨hc, hmem⟩ := h.index c key hi
      obtain ⟨e, hkey⟩ := (Table.mem_iff_lookup _ _).mp hmem
      simp [hc, hkey]

theorem Anchored.mem_of_reportKey (h : s.Anchored) {orderId : String} {c : UInt32}
    (hkey : s.reportKey orderId c = some id) : id ∈ s.orders := by
  rw [h.reportKey_eq] at hkey
  split at hkey
  case isTrue hmem => exact Option.some.inj hkey ▸ hmem
  case isFalse => exact (h.index c id hkey).2

theorem Anchored.empty_not_mem (h : s.Anchored) : "" ∉ s.orders := by
  intro hmem
  obtain ⟨e, he⟩ := (Table.mem_iff_lookup _ _).mp hmem
  exact (h.key "" e he).1 rfl

theorem Anchored.getOrder_id (h : s.Anchored) (id : String) :
    (s.getOrder id).map (·.orderId) = if id ∈ s.orders then some id else none := by
  unfold getOrder
  cases he : s.orders.lookup id with
  | none => simp [Finmap.lookup_eq_none.mp he]
  | some e => simp [Finmap.mem_of_lookup_eq_some he, (h.key id e he).2]

theorem Anchored.getOrderByClientId_id (h : s.Anchored) (c : UInt32) :
    (s.getOrderByClientId c).map (·.orderId) = s.clientOrderIndex.lookup c := by
  unfold getOrderByClientId
  cases hi : s.clientOrderIndex.lookup c with
  | none => rfl
  | some key =>
    have hkey := h.getOrder_id key
    rw [if_pos (h.index c key hi).2] at hkey
    exact hkey

end OrderManager

end Qtrade.Oms
