import Qtrade.Oms.Apart

/-!
# Operations that fail

The functions that move one order answer with a code. Some of them write the order's status fields
before the move is checked, so a refused move can leave what was written.
-/

namespace Qtrade.Oms

/-- A move is asked for after the two status fields were written. It fails without a trace where it is
allowed, or where they had these values before. -/
theorem applyTransition_unchanged_iff (e : OrderEntry) (status : OrderStatusType)
    (submitStatus : OrderSubmitStatusType) (target : OrderLifecycleState) {result : ErrorCode × OrderEntry}
    (hresult : result =
      applyTransition { e with order.status := status, order.submitStatus := submitStatus } target) :
    (result.1 ≠ .success → result.2 = e) ↔
      canTransition e.lifecycleState target = true ∨
        e.order.status = status ∧ e.order.submitStatus = submitStatus := by
  rw [hresult]
  rcases applyTransition_cases
    { e with order.status := status, order.submitStatus := submitStatus } target with ⟨hedge, h⟩ | ⟨hedge, h⟩
  · have hedge : canTransition e.lifecycleState target = true := hedge
    rw [h]
    simp [hedge]
  · have hedge : canTransition e.lifecycleState target = false := hedge
    rw [h, hedge]
    constructor
    · intro hsame
      have horder := congrArg OrderEntry.order (hsame (by simp))
      exact Or.inr ⟨(congrArg Order.status horder).symm, (congrArg Order.submitStatus horder).symm⟩
    · rintro (hno | ⟨rfl, rfl⟩) _
      · cases hno
      · rfl

theorem applyTransition_unchanged (e : OrderEntry) (target : OrderLifecycleState)
    (h : (applyTransition e target).1 ≠ .success) : (applyTransition e target).2 = e :=
  (applyTransition_unchanged_iff e e.order.status e.order.submitStatus target rfl).mpr (Or.inr ⟨rfl, rfl⟩) h

theorem sendResultEntry_unchanged_iff (e : OrderEntry) (result : ErrorCode) :
    ((sendResultEntry e result).1 ≠ .success → (sendResultEntry e result).2 = e) ↔
      e.lifecycleState ≠ .emsQueued ∨ result ≠ .timeout ∨ e.order.status = .unknown := by
  unfold sendResultEntry
  split
  case isTrue hl =>
    split
    case isTrue htimeout =>
      rw [applyTransition_unchanged_iff e .unknown e.order.submitStatus .sendUnknown rfl]
      rcases hl with hl | ⟨hl, _⟩ <;> simp [hl, htimeout, canTransition]
    case isFalse htimeout =>
      split
      · rw [applyTransition_unchanged_iff e .rejected .insertRejected .rejected rfl]
        rcases hl with hl | ⟨hl, _⟩ <;> simp [hl, htimeout, canTransition]
      · simp only [htimeout, ne_eq, not_false_eq_true, true_or, or_true, iff_true]
        exact applyTransition_unchanged e .working
  case isFalse hl =>
    have hcond : e.lifecycleState ≠ .emsQueued ∨ result ≠ .timeout := by
      by_contra hboth
      rw [not_or, not_not, not_not] at hboth
      exact hl (Or.inr ⟨hboth.1, by simp [hboth.2]⟩)
    rw [← or_assoc]
    exact iff_of_true (applyTransition_unchanged e _) (Or.inl hcond)

/-- The states that a rejected cancel leads back from. -/
def cancelRevocable (e : OrderEntry) : Bool :=
  e.lifecycleState == .sendPending || e.lifecycleState == .sendUnknown || e.lifecycleState == .working ||
    e.lifecycleState == .cancelPending || (e.lifecycleState == .partiallyFilled && decide (0 < e.order.tradedVolume))

theorem cancelResultEntry_unchanged_iff (e : OrderEntry) (result : ErrorCode) :
    ((cancelResultEntry e result).1 ≠ .success → (cancelResultEntry e result).2 = e) ↔
      result = .success ∨ result = .timeout ∨ cancelRevocable e = true ∨ e.order.submitStatus = .cancelRejected := by
  unfold cancelResultEntry
  split
  case isTrue hresult =>
    rw [← or_assoc]
    exact iff_of_true (applyTransition_unchanged e _) (Or.inl hresult)
  case isFalse hresult =>
    rw [applyTransition_unchanged_iff e e.order.status .cancelRejected _ rfl, ← or_assoc, or_iff_right hresult]
    apply or_congr
    · unfold cancelRevocable
      split
      case isTrue htraded => cases hl : e.lifecycleState <;> simp [canTransition, htraded]
      case isFalse htraded =>
        have htraded : e.order.tradedVolume ≤ 0 := by omega
        cases hl : e.lifecycleState <;> simp [canTransition, htraded]
    · simp

namespace OrderManager

/-- The code that an operation returns, where it is one of those that move an order. -/
def answer (s : OrderManager) : Operation → Option ErrorCode
  | .cancelOrder orderId => some (s.cancelOrder orderId).1
  | .markEmsQueued orderId => some (s.markEmsQueued orderId).1
  | .markSendPending orderId => some (s.markSendPending orderId).1
  | .recordSendResult orderId result => some (s.recordSendResult orderId result).1
  | .recordCancelResult orderId result => some (s.recordCancelResult orderId result).1
  | _ => none

/-- The operation finds no order, or its move is allowed, or it writes nothing new before the move. -/
def leavesNoTrace (s : OrderManager) : Operation → Bool
  | .markSendPending orderId =>
    (s.orders.lookup orderId).all fun e =>
      e.lifecycleState == .emsQueued || e.lifecycleState == .sendPending || e.order.submitStatus == .insertSubmitted
  | .recordSendResult orderId result =>
    (s.orders.lookup orderId).all fun e =>
      e.lifecycleState != .emsQueued || result != .timeout || e.order.status == .unknown
  | .recordCancelResult orderId result =>
    (s.orders.lookup orderId).all fun e =>
      result == .success || result == .timeout || cancelRevocable e || e.order.submitStatus == .cancelRejected
  | _ => true

variable {s : OrderManager} {id : String} {e : OrderEntry}

theorem store_eq_iff (he : s.orders.lookup id = some e) (e' : OrderEntry) : s.store id e' = s ↔ e' = e := by
  constructor
  · intro hsame
    have hlookup := congrArg (·.orders.lookup id) hsame
    simp only [store, Table.lookup_store, if_pos, he] at hlookup
    exact Option.some.inj hlookup
  · rintro rfl
    exact store_same he

theorem update_unchanged_iff (s : OrderManager) (id : String) (change : OrderEntry → ErrorCode × OrderEntry) :
    ((s.update id change).1 ≠ .success → (s.update id change).2 = s) ↔
      ∀ e, s.orders.lookup id = some e → (change e).1 ≠ .success → (change e).2 = e := by
  unfold update
  cases he : s.orders.lookup id with
  | none => simp
  | some e => simp [store_eq_iff he]

theorem all_lookup_iff {p : OrderEntry → Bool} :
    (s.orders.lookup id).all p = true ↔ ∀ e, s.orders.lookup id = some e → p e = true := by
  cases s.orders.lookup id <;> simp

/-- `CancelOrder` and `MarkEmsQueued` check their move first. The other three leave the manager as it was
when they fail, if and only if what they write before the check was there already. -/
theorem failed_unchanged_iff (s : OrderManager) (a : Operation) :
    (∀ rc, s.answer a = some rc → rc ≠ .success → s.perform a = s) ↔ s.leavesNoTrace a = true := by
  cases a with
  | cancelOrder orderId | markEmsQueued orderId =>
    refine iff_of_true ?_ rfl
    rintro rc ⟨⟩
    exact (s.update_unchanged_iff orderId _).mpr fun e _ => applyTransition_unchanged e _
  | markSendPending orderId =>
    simp only [answer, Option.some.injEq, forall_eq', perform, leavesNoTrace, all_lookup_iff]
    rw [markSendPending, update_unchanged_iff]
    refine forall₂_congr fun e _ => ?_
    rw [applyTransition_unchanged_iff e e.order.status .insertSubmitted .sendPending rfl]
    cases hl : e.lifecycleState <;> simp [canTransition]
  | recordSendResult orderId result =>
    simp only [answer, Option.some.injEq, forall_eq', perform, leavesNoTrace, all_lookup_iff]
    rw [recordSendResult, update_unchanged_iff]
    refine forall₂_congr fun e _ => ?_
    rw [sendResultEntry_unchanged_iff]
    simp [or_assoc]
  | recordCancelResult orderId result =>
    simp only [answer, Option.some.injEq, forall_eq', perform, leavesNoTrace, all_lookup_iff]
    rw [recordCancelResult, update_unchanged_iff]
    refine forall₂_congr fun e _ => ?_
    rw [cancelResultEntry_unchanged_iff]
    simp [or_assoc]
  | _ => simp [answer, leavesNoTrace]

/-- The worker takes an order that was cancelled in the queue, and it is submitted all the same. -/
theorem refused_marked : ¬∀ (s : OrderManager) (a : Operation) (rc : ErrorCode),
    Runs.Reaches run Runs.anyStep {} s → s.answer a = some rc → rc ≠ .success → s.perform a = s := by
  intro hall
  have hrun : ∃ s ∈ Runs.exec run {}
      [.initializeWith ⟨"t", "e", 1⟩, .createOrder { volume := 2 } "o", .markEmsQueued "o", .cancelOrder "o"],
      s.answer (.markSendPending "o") = some .systemError ∧
        (s.getOrder "o").map (·.submitStatus) ≠
          ((s.perform (.markSendPending "o")).getOrder "o").map (·.submitStatus) := by decide +kernel
  obtain ⟨s, hs, hanswer, hchanged⟩ := hrun
  rw [hall s _ _ (Runs.reaches_of_exec _ hs) hanswer (by decide)] at hchanged
  exact hchanged rfl

end OrderManager

end Qtrade.Oms
