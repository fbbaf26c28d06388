import Qtrade.Oms.Operations

/-!
# Finished orders

No edge leaves a terminal state, and a report whose status keeps the state is merged all the same.
What such a report may say decides whether the figures of a finished order are final.
-/

namespace Qtrade.Oms

/-- The status that a terminal state is the image of. -/
def finalStatus : OrderLifecycleState → OrderStatusType
  | .filled => .filled
  | .canceled => .canceled
  | .rejected => .rejected
  | _ => .unknown

namespace OrderEntry

/-- A finished order has the status of its state. -/
def Concluded (e : OrderEntry) : Prop :=
  isTerminalLifecycle e.lifecycleState = true → e.order.status = finalStatus e.lifecycleState

/-- What may still happen to an order, finished or not. -/
structure Outlasts (e e' : OrderEntry) : Prop where
  concluded : e.Concluded → e'.Concluded
  state : isTerminalLifecycle e.lifecycleState = true → e'.lifecycleState = e.lifecycleState
  traded : isTerminalLifecycle e.lifecycleState = true → e.order.tradedVolume ≤ e'.order.tradedVolume
  left : isTerminalLifecycle e.lifecycleState = true → e'.order.leftVolume ≤ e.order.leftVolume

theorem Outlasts.refl (e : OrderEntry) : e.Outlasts e :=
  ⟨fun h => h, fun _ => rfl, fun _ => le_refl _, fun _ => le_refl _⟩

theorem Outlasts.trans {e e' e'' : OrderEntry} (h : e.Outlasts e') (h' : e'.Outlasts e'') : e.Outlasts e'' := by
  refine ⟨fun hc => h'.concluded (h.concluded hc), fun ht => ?_, fun ht => ?_, fun ht => ?_⟩
  all_goals have ht' : isTerminalLifecycle e'.lifecycleState = true := by rw [h.state ht]; exact ht
  · exact (h'.state ht').trans (h.state ht)
  · exact (h.traded ht).trans (h'.traded ht')
  · exact (h'.left ht').trans (h.left ht)

end OrderEntry

open OrderEntry

/-! ## The changes in place -/

theorem applyTransition_outlasts (e : OrderEntry) (status : OrderStatusType)
    (submitStatus : OrderSubmitStatusType) (target : OrderLifecycleState)
    (hkept : isTerminalLifecycle e.lifecycleState = true → status = e.order.status)
    (htarget : e.Concluded → isTerminalLifecycle target = true → status = finalStatus target) :
    e.Outlasts (applyTransition
      { e with order.status := status, order.submitStatus := submitStatus } target).2 := by
  rcases applyTransition_cases
    { e with order.status := status, order.submitStatus := submitStatus } target with ⟨hedge, h⟩ | ⟨_, h⟩
  · rw [h]
    refine ⟨fun hc => htarget hc, fun ht => ?_, fun _ => le_refl _, fun _ => le_refl _⟩
    exact eq_of_terminal hedge ht
  · rw [h]
    refine ⟨fun hc ht => ?_, fun _ => rfl, fun _ => le_refl _, fun _ => le_refl _⟩
    exact (hkept ht).trans (hc ht)

theorem applyTransition_outlasts_open (e : OrderEntry) (submitStatus : OrderSubmitStatusType)
    {target : OrderLifecycleState} (htarget : isTerminalLifecycle target = false) :
    e.Outlasts (applyTransition { e with order.submitStatus := submitStatus } target).2 := by
  apply applyTransition_outlasts e e.order.status submitStatus target (fun _ => rfl)
  intro _ ht
  rw [htarget] at ht
  cases ht

theorem sendResultEntry_outlasts (e : OrderEntry) (result : ErrorCode) : e.Outlasts (sendResultEntry e result).2 := by
  unfold sendResultEntry
  split
  case isTrue hl =>
    have hopen : isTerminalLifecycle e.lifecycleState ≠ true := by
      rcases hl with hl | ⟨hl, _⟩ <;> simp [hl, isTerminalLifecycle]
    split
    · apply applyTransition_outlasts e .unknown e.order.submitStatus .sendUnknown
      · exact fun ht => absurd ht hopen
      · exact fun _ ht => by simp [isTerminalLifecycle] at ht
    · split
      · apply applyTransition_outlasts e .rejected .insertRejected .rejected
        · exact fun ht => absurd ht hopen
        · exact fun _ _ => rfl
      · exact applyTransition_outlasts_open e e.order.submitStatus rfl
  case isFalse =>
    apply applyTransition_outlasts e e.order.status e.order.submitStatus e.lifecycleState (fun _ => rfl)
    exact fun hc ht => hc ht

theorem cancelResultEntry_outlasts (e : OrderEntry) (result : ErrorCode) :
    e.Outlasts (cancelResultEntry e result).2 := by
  unfold cancelResultEntry
  split
  · exact applyTransition_outlasts_open e e.order.submitStatus rfl
  · apply applyTransition_outlasts_open e .cancelRejected
    split <;> rfl

/-! ## The reports -/

/-- The report does not concern a finished order, or is refused for it, or repeats its status and does
not take its figures back. -/
def confirms (e : OrderEntry) (report : Order) : Bool :=
  !isTerminalLifecycle e.lifecycleState ||
    lifecycleFromOrderStatus report.status e.lifecycleState != e.lifecycleState ||
    report.status == finalStatus e.lifecycleState && decide (e.order.tradedVolume ≤ report.tradedVolume) &&
      decide (report.leftVolume ≤ e.order.leftVolume)

/-- The fill does not concern a filled order, or is refused for it, or does not take its figures back. -/
def adds (e : OrderEntry) (report : Trade) : Bool :=
  e.lifecycleState != .filled ||
    decide (0 < e.order.volume - (e.order.tradedVolume + report.volume)) ||
    decide (0 ≤ report.volume) && decide (0 ≤ e.order.leftVolume)

theorem lifecycleFromOrderStatus_concluded {status : OrderStatusType} {l : OrderLifecycleState}
    (hl : isTerminalLifecycle l = false) (ht : isTerminalLifecycle (lifecycleFromOrderStatus status l) = true) :
    status = finalStatus (lifecycleFromOrderStatus status l) := by
  cases status <;> cases l <;> simp_all [lifecycleFromOrderStatus, isTerminalLifecycle, finalStatus]

theorem orderReport_ends {e : OrderEntry} {report : Order} (hopen : isTerminalLifecycle e.lifecycleState = false)
    (hended : isTerminalLifecycle (kept e (orderReportEntry e report)).lifecycleState = true) :
    canTransition e.lifecycleState (lifecycleFromOrderStatus report.status e.lifecycleState) = true ∧
      (kept e (orderReportEntry e report)).lifecycleState =
        lifecycleFromOrderStatus report.status e.lifecycleState ∧
      report.status = finalStatus (kept e (orderReportEntry e report)).lifecycleState ∧
      (kept e (orderReportEntry e report)).order = (mergeOrderSnapshot e report).order := by
  rw [kept_orderReport] at hended ⊢
  split at hended
  case isTrue hedge =>
    rw [if_pos hedge]
    exact ⟨hedge, rfl, lifecycleFromOrderStatus_concluded hopen hended, rfl⟩
  case isFalse =>
    rw [hopen] at hended
    cases hended

theorem tradeReport_ends {e : OrderEntry} {report : Trade} (hopen : isTerminalLifecycle e.lifecycleState = false)
    (hended : isTerminalLifecycle (kept e (tradeReportEntry e report)).lifecycleState = true) :
    canTransition e.lifecycleState .filled = true ∧
      e.order.volume ≤ e.order.tradedVolume + report.volume ∧
      (kept e (tradeReportEntry e report)).lifecycleState = .filled ∧
      (kept e (tradeReportEntry e report)).order.status = .filled := by
  simp only [tradeReportEntry, kept_applyTransition] at hended ⊢
  by_cases hleft : max 0 (e.order.volume - (e.order.tradedVolume + report.volume)) = 0
  · simp only [hleft, if_true] at hended ⊢
    split at hended
    case isTrue hedge =>
      rw [if_pos hedge]
      exact ⟨hedge, by omega, rfl, rfl⟩
    case isFalse =>
      rw [hopen] at hended
      cases hended
  · simp only [hleft, if_false] at hended
    split at hended
    case isTrue => cases hended
    case isFalse =>
      rw [hopen] at hended
      cases hended

theorem orderReport_outlasts {e : OrderEntry} {report : Order} (h : confirms e report = true) :
    e.Outlasts (kept e (orderReportEntry e report)) := by
  rw [kept_orderReport]
  split
  case isFalse => exact Outlasts.refl e
  case isTrue hedge =>
    by_cases ht : isTerminalLifecycle e.lifecycleState = true
    · have hsame := eq_of_terminal hedge ht
      simp only [confirms, ht, hsame, Bool.not_true, bne_self_eq_false, Bool.false_or, Bool.and_eq_true,
        beq_iff_eq, decide_eq_true_eq] at h
      rw [hsame]
      exact ⟨fun _ _ => h.1.1, fun _ => rfl, fun _ => h.1.2, fun _ => h.2⟩
    · refine ⟨fun _ hf => ?_, fun hf => absurd hf ht, fun hf => absurd hf ht, fun hf => absurd hf ht⟩
      exact lifecycleFromOrderStatus_concluded (by simpa using ht) hf

theorem tradeReport_outlasts {e : OrderEntry} {report : Trade} (h : adds e report = true) :
    e.Outlasts (kept e (tradeReportEntry e report)) := by
  unfold tradeReportEntry
  simp only [kept_applyTransition]
  by_cases hzero : max 0 (e.order.volume - (e.order.tradedVolume + report.volume)) = 0
  · simp only [hzero, if_true]
    split
    case isFalse => exact Outlasts.refl e
    case isTrue hedge =>
      refine ⟨fun _ _ => rfl, fun ht => eq_of_terminal hedge ht, ?_, ?_⟩
      all_goals
        intro ht
        have hfilled := eq_of_terminal hedge ht
        simp only [adds, ← hfilled, bne_self_eq_false, Bool.false_or, Bool.or_eq_true, Bool.and_eq_true,
          decide_eq_true_eq] at h
        dsimp only
        omega
  · simp only [hzero, if_false]
    split
    case isFalse => exact Outlasts.refl e
    case isTrue hedge =>
      have hopen : isTerminalLifecycle e.lifecycleState ≠ true := by
        intro ht
        have hpart := eq_of_terminal hedge ht
        rw [← hpart] at ht
        cases ht
      refine ⟨fun _ ht => ?_, fun ht => absurd ht hopen, fun ht => absurd ht hopen, fun ht => absurd ht hopen⟩
      cases ht

/-! ## The manager -/

namespace OrderManager

variable {s s' s₀ : OrderManager} {id : String} {e e' : OrderEntry}

/-- A report for a finished order repeats what is known or is refused, and no order is adopted under
the id of a finished one. -/
def keepsFinal (s : OrderManager) : Operation → Bool
  | .applyOrderReport report =>
    (s.findOrderLocked report.orderId report.clientOrderId).all fun found => confirms found.2 report
  | .applyTradeReport report =>
    generateTradeDedupKey report ∈ s.appliedTradeIds ||
      (s.findOrderLocked report.orderId report.clientOrderId).all fun found => adds found.2 report
  | .reconcileBrokerOrder report =>
    ((s.findOrderLocked report.orderId report.clientOrderId).all fun found => confirms found.2 report) &&
      (!s.adoptsUnderNewId report ||
        (s.orders.lookup s.nextOrderId).all fun e => !isTerminalLifecycle e.lifecycleState)
  | _ => true

/-- The operations that come from the pipeline, the worker and the broker once an order exists. -/
def Operation.handlesOrder : Operation → Bool
  | .applyOrderReport _ | .applyTradeReport _ | .reconcileBrokerOrder _ | .cancelOrder _ | .markEmsQueued _
  | .markSendPending _ | .recordSendResult _ _ | .recordCancelResult _ _ => true
  | _ => false

/-- Every finished order has the status of its state. -/
def Concluded (s : OrderManager) : Prop := ∀ id e, s.orders.lookup id = some e → e.Concluded

theorem Concluded.evolves (h : s.Concluded) (hs : Evolves Outlasts s s') : s'.Concluded := by
  intro id e' he'
  obtain ⟨e, he, hout⟩ := hs.origin he'
  exact hout.concluded (h id e he)

theorem Concluded.store (h : s.Concluded) (he : e.Concluded) (id : String) : (s.store id e).Concluded := by
  intro id' e'
  rw [OrderManager.store, Table.lookup_store]
  split
  · rintro ⟨⟩
    exact he
  · exact h id' e'

theorem applyOrderReport_outlasts {report : Order} (hok : s.keepsFinal (.applyOrderReport report) = true) :
    Evolves Outlasts s (s.applyOrderReport report) := by
  have hsettles := applyOrderReport_evolves s report
  refine evolves_of_lookup Outlasts.refl ?_ hsettles.clientOrderIndex hsettles.initialized
    (lookup_applyOrderReport s report)
  intro id e hkey he
  obtain ⟨e₀, hf⟩ := reportKey_eq_some.mp hkey
  obtain rfl := Option.some.inj ((findOrderLocked_some hf).1.symm.trans he)
  simp only [keepsFinal, hf, Option.all_some] at hok
  exact orderReport_outlasts hok

theorem applyTradeReport_outlasts {report : Trade} (hok : s.keepsFinal (.applyTradeReport report) = true) :
    Evolves Outlasts s (s.applyTradeReport report) := by
  have hsettles := applyTradeReport_evolves s report
  refine evolves_of_lookup Outlasts.refl ?_ hsettles.clientOrderIndex hsettles.initialized
    (lookup_applyTradeReport s report)
  rintro id e ⟨hnew, hkey⟩ he
  obtain ⟨e₀, hf⟩ := reportKey_eq_some.mp hkey
  obtain rfl := Option.some.inj ((findOrderLocked_some hf).1.symm.trans he)
  simp only [keepsFinal, hf, Option.all_some, Bool.or_eq_true, decide_eq_true_eq] at hok
  exact tradeReport_outlasts (hok.resolve_left hnew)

theorem adoptedEntry_concluded (report : Order) (id : String) : (adoptedEntry report id).Concluded := by
  intro ht
  exact lifecycleFromOrderStatus_concluded (l := .working) rfl ht

theorem reconcileBrokerOrder_outlasts {report : Order} (h : s.Concluded)
    (hok : s.keepsFinal (.reconcileBrokerOrder report) = true) :
    (s.reconcileBrokerOrder report).Concluded ∧
      ∀ id e, s.orders.lookup id = some e → isTerminalLifecycle e.lifecycleState = true →
        ∃ e', (s.reconcileBrokerOrder report).orders.lookup id = some e' ∧ e.Outlasts e' := by
  simp only [keepsFinal, Bool.and_eq_true, Bool.or_eq_true, Bool.not_eq_true'] at hok
  obtain ⟨hreport, hnewId⟩ := hok
  have hadopt : ∀ s₁ : OrderManager, ∀ newId, s₁.orders = s.orders →
      (∀ e, s.orders.lookup newId = some e → isTerminalLifecycle e.lifecycleState = false) →
      (s₁.adopt report newId).Concluded ∧
        ∀ id e, s.orders.lookup id = some e → isTerminalLifecycle e.lifecycleState = true →
          ∃ e', (s₁.adopt report newId).orders.lookup id = some e' ∧ e.Outlasts e' := by
    intro s₁ newId horders hfree
    constructor
    · intro id e
      rw [lookup_adopt, horders]
      split
      · rintro ⟨⟩
        exact adoptedEntry_concluded report newId
      · exact h id e
    · intro id e he ht
      refine ⟨e, ?_, Outlasts.refl e⟩
      rw [lookup_adopt, horders, if_neg]
      · exact he
      · rintro rfl
        rw [hfree e he] at ht
        cases ht
  rcases reconcileBrokerOrder_cases s report with
    ⟨key, e₀, hf, hacc, hs⟩ | ⟨_, hf, _, hs⟩ | ⟨hnew, hs⟩ | ⟨_, hs⟩
  · rw [hs]
    rw [hf, Option.all_some] at hreport
    have hout := orderReport_outlasts hreport
    rw [kept, if_pos hacc] at hout
    have hstored := store_evolves Outlasts.refl (findOrderLocked_some hf).1 hout
    have hevolves : Evolves Outlasts s { s.store key (orderReportEntry e₀ report).2 with
        reconciledOrderIds := insert (orderReportEntry e₀ report).2.order.orderId s.reconciledOrderIds } :=
      ⟨hstored.clientOrderIndex, hstored.initialized, hstored.entries⟩
    exact ⟨h.evolves hevolves, fun id e he _ => hevolves.lookup he⟩
  · rw [hs]
    apply hadopt s report.orderId rfl
    intro e he
    simp [findOrderLocked, he] at hf
  · rw [hs]
    apply hadopt s.allocateOrderId.2 s.nextOrderId rfl
    intro e he
    have hall := hnewId.resolve_left (by simp [hnew])
    simpa [he] using hall
  · rw [hs]
    exact ⟨h, fun id e he _ => ⟨e, he, Outlasts.refl e⟩⟩

theorem update_outlasts (s : OrderManager) (orderId : String) {change : OrderEntry → ErrorCode × OrderEntry}
    (h : ∀ e : OrderEntry, e.Outlasts (change e).2) : Evolves Outlasts s (s.update orderId change).2 :=
  update_evolves Outlasts.refl s orderId h

theorem perform_outlasts {a : Operation} (ha : a.handlesOrder = true) (hok : s.keepsFinal a = true) :
    (∃ report, a = .reconcileBrokerOrder report) ∨ Evolves Outlasts s (s.perform a) := by
  induction a with
  | reconcileBrokerOrder report => exact Or.inl ⟨report, rfl⟩
  | applyOrderReport report => exact Or.inr (applyOrderReport_outlasts hok)
  | applyTradeReport report => exact Or.inr (applyTradeReport_outlasts hok)
  | cancelOrder orderId =>
    right
    apply update_outlasts s orderId
    intro e
    exact applyTransition_outlasts_open e e.order.submitStatus rfl
  | markEmsQueued orderId =>
    right
    apply update_outlasts s orderId
    intro e
    exact applyTransition_outlasts_open e e.order.submitStatus rfl
  | markSendPending orderId =>
    right
    apply update_outlasts s orderId
    intro e
    exact applyTransition_outlasts_open e .insertSubmitted rfl
  | recordSendResult orderId result =>
    right
    apply update_outlasts s orderId
    intro e
    exact sendResultEntry_outlasts e result
  | recordCancelResult orderId result =>
    right
    apply update_outlasts s orderId
    intro e
    exact cancelResultEntry_outlasts e result
  | initializeWith | shutdown | allocateOrderId | createOrder | createOrderAllocating | markReconciled => cases ha

theorem run_final (h : s.Concluded) {a : Operation} (ha : a.handlesOrder = true) (hok : s.keepsFinal a = true)
    (hs : s.run a = some s') : s'.Concluded ∧
      ∀ id e, s.orders.lookup id = some e → isTerminalLifecycle e.lifecycleState = true →
        ∃ e', s'.orders.lookup id = some e' ∧ e.Outlasts e' := by
  obtain rfl := Option.some.inj hs
  rcases perform_outlasts ha hok with ⟨report, rfl⟩ | hevolves
  · exact reconcileBrokerOrder_outlasts h hok
  · exact ⟨h.evolves hevolves, fun id e he _ => hevolves.lookup he⟩

theorem createOrder_concluded (h : s.Concluded) (request : OrderRequest) (orderId : String) :
    (s.createOrder request orderId).2.Concluded := by
  unfold OrderManager.createOrder
  split
  · exact h
  · generalize (if request.clientOrderId ≠ 0 then _ else none : Option String) = known
    cases known with
    | none =>
      intro id e he
      rw [orders_index] at he
      exact h.store (e := newEntry request orderId) (fun ht => by cases ht) orderId id e he
    | some existing =>
      dsimp only
      split <;> exact h

theorem run_concluded (h : s.Concluded) {a : Operation} (hok : s.keepsFinal a = true) (hs : s.run a = some s') :
    s'.Concluded := by
  by_cases ha : a.handlesOrder = true
  · exact (run_final h ha hok hs).1
  · obtain rfl := Option.some.inj hs
    have hempty : ∀ s : OrderManager, s.orders = ∅ → s.Concluded := by
      intro s hnone id e he
      simp [hnone] at he
    induction a with
    | initializeWith options =>
      simp only [perform, OrderManager.initializeWith]
      split
      · exact h
      · split
        · exact h
        · exact hempty _ rfl
    | shutdown => exact hempty _ rfl
    | allocateOrderId => exact h
    | createOrder request orderId => exact createOrder_concluded h request orderId
    | createOrderAllocating request => exact createOrder_concluded (s := s.allocateOrderId.2) h request _
    | markReconciled orderId =>
      simp only [perform, OrderManager.markReconciled]
      split <;> exact h
    | _ => exact absurd rfl ha

/-! ## Finality -/

/-- In every run whose steps all keep what is final, a finished order stays in its state, with the
status of that state, a traded volume that never falls and a volume left that never rises. -/
theorem finished_final (h : Runs.Reaches run (fun s a => s.keepsFinal a = true) {} s)
    (he : s.orders.lookup id = some e) (ht : isTerminalLifecycle e.lifecycleState = true)
    (hlater : Runs.Reaches run (fun s a => a.handlesOrder = true ∧ s.keepsFinal a = true) s s') :
    ∃ e', s'.orders.lookup id = some e' ∧ e'.lifecycleState = e.lifecycleState ∧
      e'.order.status = finalStatus e.lifecycleState ∧ e.order.tradedVolume ≤ e'.order.tradedVolume ∧
      e'.order.leftVolume ≤ e.order.leftVolume := by
  have hconcluded : s.Concluded := by
    apply h.invariant
    · intro id e he
      simp at he
    · intro s a s' hs hok hstep
      exact run_concluded hs hok hstep
  have hlast : s'.Concluded ∧ ∃ e', s'.orders.lookup id = some e' ∧ e.Outlasts e' := by
    apply hlater.invariant
    · exact ⟨hconcluded, e, he, Outlasts.refl e⟩
    · rintro s₁ a s₂ ⟨hs₁, e₁, he₁, hout⟩ ⟨ha, hok⟩ hstep
      obtain ⟨hs₂, hfinal⟩ := run_final hs₁ ha hok hstep
      obtain ⟨e₂, he₂, hout₂⟩ := hfinal id e₁ he₁ (by rw [hout.state ht]; exact ht)
      exact ⟨hs₂, e₂, he₂, hout.trans hout₂⟩
  obtain ⟨_, e', he', hout⟩ := hlast
  have hstate := hout.state ht
  refine ⟨e', he', hstate, ?_, hout.traded ht, hout.left ht⟩
  rw [← hstate]
  exact hout.concluded (hconcluded id e he) (by rw [hstate]; exact ht)

/-- An order of volume 2 that one fill completes. -/
def filledOrder : List Operation :=
  [.initializeWith ⟨"t", "e", 1⟩, .createOrder { clientOrderId := 7, instrument := "i", volume := 2 } "a",
    .markEmsQueued "a", .markSendPending "a", .recordSendResult "a" .success,
    .applyTradeReport { tradeId := "1", orderId := "a", instrument := "i", volume := 2 }]

/-- The fill comes again, and then a cancellation that came too late. -/
theorem finished_final_late : ∃ s s' : OrderManager, ∃ e' : OrderEntry,
    Runs.Reaches run (fun s a => a.handlesOrder = true ∧ s.keepsFinal a = true) s s' ∧
      s'.orders.lookup "a" = some e' ∧ e'.lifecycleState = .filled ∧ e'.order.status = .filled ∧
      2 ≤ e'.order.tradedVolume ∧ e'.order.leftVolume ≤ 0 := by
  have hrun : ∃ s ∈ Runs.execWhile run (fun s a => s.keepsFinal a = true) {} filledOrder,
      ∃ s' ∈ Runs.execWhile run (fun s a => a.handlesOrder = true ∧ s.keepsFinal a = true) s
        [.applyTradeReport { tradeId := "1", orderId := "a", instrument := "i", volume := 2 },
          .applyOrderReport { orderId := "a", status := .canceled, volume := 2 }],
        (s.orders.lookup "a").any (fun e => e.lifecycleState == .filled && e.order.tradedVolume == 2 &&
          e.order.leftVolume == 0) = true := by decide +kernel
  obtain ⟨s, hs, s', hs', hany⟩ := hrun
  obtain ⟨e, he, hfacts⟩ := (Option.any_eq_true _ _).mp hany
  simp only [Bool.and_eq_true, beq_iff_eq] at hfacts
  obtain ⟨⟨hfilled, htraded⟩, hleft⟩ := hfacts
  have hlater := Runs.reaches_of_execWhile _ hs'
  obtain ⟨e', he', hstate, hstatus, htraded', hleft'⟩ := finished_final (Runs.reaches_of_execWhile _ hs) he
    (by rw [hfilled]; rfl) hlater
  rw [hfilled] at hstate hstatus
  rw [htraded] at htraded'
  rw [hleft] at hleft'
  exact ⟨s, s', e', hlater, he', hstate, hstatus, htraded', hleft'⟩

/-- The acknowledgement comes after the fill. -/
theorem finished_reopened : ¬ ∀ (s s' : OrderManager) (id : String) (e : OrderEntry),
    Runs.Reaches run Runs.anyStep {} s → s.orders.lookup id = some e →
    isTerminalLifecycle e.lifecycleState = true →
    Runs.Reaches run (fun _ a => a.handlesOrder = true) s s' →
    ∃ e', s'.orders.lookup id = some e' ∧ e'.lifecycleState = e.lifecycleState ∧
      e'.order.status = finalStatus e.lifecycleState ∧ e.order.tradedVolume ≤ e'.order.tradedVolume ∧
      e'.order.leftVolume ≤ e.order.leftVolume := by
  intro hall
  have hrun : ∃ s ∈ Runs.exec run {} filledOrder,
      ∃ s' ∈ Runs.execWhile run (fun _ a => a.handlesOrder = true) s
        [.applyOrderReport { orderId := "a", status := .new, volume := 2, leftVolume := 2 }],
        (s.orders.lookup "a").any (·.lifecycleState == .filled) = true ∧
        (s'.orders.lookup "a").all (·.order.status == .new) = true := by decide +kernel
  obtain ⟨s, hs, s', hs', hany, hnew⟩ := hrun
  obtain ⟨e, he, hfilled⟩ := (Option.any_eq_true _ _).mp hany
  rw [beq_iff_eq] at hfilled
  obtain ⟨e', he', _, hstatus, _⟩ := hall s s' "a" e (Runs.reaches_of_exec _ hs) he (by rw [hfilled]; rfl)
    (Runs.reaches_of_execWhile _ hs')
  rw [he', Option.all_some, beq_iff_eq] at hnew
  rw [hnew, hfilled] at hstatus
  cases hstatus

end OrderManager

end Qtrade.Oms
