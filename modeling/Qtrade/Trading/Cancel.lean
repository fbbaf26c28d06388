import Qtrade.Lib.Alone
import Qtrade.Oms.Atomic
import Qtrade.Trading.Session

/-!
# `Cancel` in one go

What `OrderPipeline::Cancel` does when no other thread moves meanwhile, and where it leaves the order when
the cancel could not be queued.
-/

namespace Qtrade.Trading

open Qtrade.Ems (WorkItem ExecutionManager)
open Qtrade.Oms
open Qtrade.Oms.OrderManager
open Calls.Program (Only Solo)

/-! ## The whole call -/

namespace Shared

def cancel (s : Shared) (orderId : String) : ErrorCode × Shared :=
  match s.oms.getOrder orderId with
  | none => (.notFound, s)
  | some order =>
    let cancelled := s.oms.cancelOrder orderId
    if cancelled.1 ≠ .success then (cancelled.1, { s with oms := cancelled.2 })
    else
      let queued := s.ems.enqueueCancel { orderId, brokerOrderId := order.brokerOrderId }
      if queued.1 ≠ .success then
        (queued.1, { s with oms := (cancelled.2.recordCancelResult orderId queued.1).2, ems := queued.2 })
      else (.success, { s with oms := cancelled.2, ems := queued.2 })

/-- The cancel is queued, or it is refused before the order is touched, or the order is where a failed cancel
puts it: in `partiallyFilled` with a fill and in `working` without. -/
def cancelRestores (s : Shared) (orderId : String) : Bool :=
  s.ems.admits == .success ||
    (s.oms.orders.lookup orderId).all fun e =>
      !canTransition e.lifecycleState .cancelPending ||
        (e.lifecycleState == .working && decide (e.order.tradedVolume ≤ 0)) ||
        (e.lifecycleState == .partiallyFilled && decide (0 < e.order.tradedVolume))

end Shared

variable {s s' : Shared} {call : Nat}

theorem cancel_solo_step {pc pc' : CancelPc} {orderId : String} {rc : ErrorCode} {t : Shared}
    (h : s.cancelNext pc = some (s', pc')) :
    program.Solo call (s, .cancel pc) (t, .cancel (.done orderId rc)) ↔
      program.Solo call (s', .cancel pc') (t, .cancel (.done orderId rc)) := by
  have hnext : program.next s call (.cancel pc) .silent = some (s', .cancel pc') := by
    simp [program, callNext, h]
  have honly : ∀ input r, program.next s call (.cancel pc) input = some r → r = (s', .cancel pc') := by
    intro input r hr
    simp only [program, callNext, h, Option.map_some] at hr
    split at hr <;> cases hr
    rfl
  constructor
  · intro hsolo
    rcases hsolo.cases_next honly with heq | hrest
    · cases heq
      cases h
    · exact hrest
  · exact Solo.head hnext

theorem cancel_solo_done {orderId orderId' : String} {rc rc' : ErrorCode} {t : Shared} :
    program.Solo call (s, .cancel (.done orderId rc)) (t, .cancel (.done orderId' rc')) ↔
      orderId' = orderId ∧ (rc', t) = (rc, s) := by
  constructor
  · intro hsolo
    cases hsolo.eq_of_stuck (by simp [program, callNext, Shared.cancelNext])
    exact ⟨rfl, rfl⟩
  · rintro ⟨rfl, heq⟩
    cases heq
    exact .refl

/-- Alone, the steps of the call come to the whole call. -/
theorem cancel_solo {orderId orderId' : String} {rc : ErrorCode} {t : Shared} :
    program.Solo call (s, .cancel (.getOrder orderId)) (t, .cancel (.done orderId' rc)) ↔
      orderId' = orderId ∧ (rc, t) = s.cancel orderId := by
  unfold Shared.cancel
  cases ho : s.oms.getOrder orderId with
  | none => rw [cancel_solo_step (by rw [Shared.cancelNext, ho]), cancel_solo_done]
  | some order =>
    rw [cancel_solo_step (by rw [Shared.cancelNext, ho])]
    by_cases hc : (s.oms.cancelOrder orderId).1 = .success
    · rw [cancel_solo_step (by rw [Shared.cancelNext, if_pos hc])]
      simp only [hc, ne_eq, not_true_eq_false, if_false]
      by_cases hq : (s.ems.enqueueCancel { orderId, brokerOrderId := order.brokerOrderId }).1 = .success
      · rw [cancel_solo_step (by rw [Shared.cancelNext, if_pos hq]), cancel_solo_done]
        simp [hq]
      · rw [cancel_solo_step (by rw [Shared.cancelNext, if_neg hq]), cancel_solo_step (by rw [Shared.cancelNext]),
          cancel_solo_done]
        simp [hq]
    · rw [cancel_solo_step (by rw [Shared.cancelNext, if_neg hc]), cancel_solo_done]
      simp [hc]

/-! ## Where a failed cancel leaves the order -/

theorem cancelResultEntry_failed (e : OrderEntry) {rc : ErrorCode}
    (hrc : rc = .notInitialized ∨ rc = .resourceExhausted) :
    cancelResultEntry e rc =
      applyTransition { e with order.submitStatus := .cancelRejected }
        (if e.order.tradedVolume > 0 then .partiallyFilled else .working) := by
  rcases hrc with rfl | rfl <;> rfl

theorem admits_cases (s : ExecutionManager) :
    s.admits = .success ∨ s.admits = .notInitialized ∨ s.admits = .resourceExhausted := by
  unfold ExecutionManager.admits
  split_ifs <;> simp

theorem enqueueCancel_fst (s : ExecutionManager) (request : CancelOrderRequest) :
    (s.enqueueCancel request).1 = s.admits := by
  unfold ExecutionManager.enqueueCancel
  split <;> simp_all

theorem cancel_rolls_back {orderId : String} {e : OrderEntry} (he : s.oms.orders.lookup orderId = some e)
    (hedge : canTransition e.lifecycleState .cancelPending = true) (hfull : s.ems.admits ≠ .success) :
    (s.cancel orderId).1 = s.ems.admits ∧
      (s.cancel orderId).2.oms.orders.lookup orderId =
        some { e with
          order.submitStatus := .cancelRejected
          lifecycleState := if e.order.tradedVolume > 0 then .partiallyFilled else .working } := by
  have hcancel : s.oms.cancelOrder orderId =
      (.success, s.oms.store orderId { e with lifecycleState := .cancelPending }) := by
    simp [cancelOrder, update, he, applyTransition, hedge]
  have hqueue := enqueueCancel_fst s.ems { orderId, brokerOrderId := e.order.brokerOrderId }
  have hrecord := cancelResultEntry_failed { e with lifecycleState := .cancelPending }
    ((admits_cases s.ems).resolve_left hfull)
  have hback : canTransition .cancelPending (if e.order.tradedVolume > 0 then .partiallyFilled else .working) =
      true := by split <;> rfl
  simp only [Shared.cancel, getOrder, he, Option.map_some, hcancel, hqueue, ne_eq, hfull, not_true_eq_false,
    if_false, not_false_eq_true, if_true, true_and]
  simp only [recordCancelResult, lookup_update, store, Table.lookup_store, if_true, Option.map_some, hrecord,
    applyTransition, hback]

theorem cancel_queued {orderId : String} {e : OrderEntry} (he : s.oms.orders.lookup orderId = some e)
    (hedge : canTransition e.lifecycleState .cancelPending = true) (hroom : s.ems.admits = .success) :
    (s.cancel orderId).1 = .success := by
  have hcancel : (s.oms.cancelOrder orderId).1 = .success := by
    simp [cancelOrder, update, he, applyTransition, hedge]
  have hqueue := enqueueCancel_fst s.ems { orderId, brokerOrderId := e.order.brokerOrderId }
  simp [Shared.cancel, getOrder, he, hcancel, hqueue, hroom]

theorem cancel_untouched {orderId : String}
    (h : ∀ e, s.oms.orders.lookup orderId = some e → canTransition e.lifecycleState .cancelPending = false) :
    (s.cancel orderId).2.oms.orders.lookup orderId = s.oms.orders.lookup orderId := by
  unfold Shared.cancel
  cases he : s.oms.orders.lookup orderId with
  | none => simp [getOrder, he]
  | some e => simp [getOrder, cancelOrder, update, he, applyTransition, h e he, store]

theorem cancel_lifecycle_iff (s : Shared) (orderId : String) :
    ((s.cancel orderId).1 ≠ .success →
        (s.cancel orderId).2.oms.getLifecycleState orderId = s.oms.getLifecycleState orderId) ↔
      s.cancelRestores orderId = true := by
  unfold getLifecycleState Shared.cancelRestores
  cases he : s.oms.orders.lookup orderId with
  | none =>
    have hsame : (s.cancel orderId).2.oms.orders.lookup orderId = s.oms.orders.lookup orderId :=
      cancel_untouched (by simp [he])
    simp [hsame, he]
  | some e =>
    cases hedge : canTransition e.lifecycleState .cancelPending with
    | false =>
      rw [cancel_untouched (by simpa [he] using hedge), he]
      simp [hedge]
    | true =>
      by_cases hfull : s.ems.admits = .success
      · have hcode := cancel_queued he hedge hfull
        simp [hcode, hfull]
      · obtain ⟨hcode, hlookup⟩ := cancel_rolls_back he hedge hfull
        rw [hcode, hlookup]
        simp only [Option.map_some, Option.all_some, hedge, Option.some.injEq]
        by_cases htraded : 0 < e.order.tradedVolume
        · have hnot : ¬ e.order.tradedVolume ≤ 0 := by omega
          simp [htraded, hnot, hfull]
          exact eq_comm
        · have hnone : e.order.tradedVolume ≤ 0 := by omega
          simp [htraded, hnone, hfull]
          exact eq_comm

/-- An order that was not sent yet is never sent after such a cancel: it is not in a state that the queue or the
worker takes it from. -/
theorem cancel_strands {orderId : String} {e : OrderEntry} (he : s.oms.orders.lookup orderId = some e)
    (hunsent : e.lifecycleState = .prepared ∨ e.lifecycleState = .emsQueued) (hfull : s.ems.admits ≠ .success) :
    ((s.cancel orderId).2.oms.markEmsQueued orderId).1 = .systemError ∧
      ((s.cancel orderId).2.oms.markSendPending orderId).1 = .systemError := by
  have hedge : canTransition e.lifecycleState .cancelPending = true := by
    rcases hunsent with h | h <;> rw [h] <;> rfl
  obtain ⟨-, hlookup⟩ := cancel_rolls_back he hedge hfull
  rw [markEmsQueued, markSendPending, update_fst hlookup, update_fst hlookup]
  unfold applyTransition
  constructor <;> split_ifs <;> simp_all [canTransition]

/-! ## Runs of the call -/

/-- A `Cancel` that fails while nobody else moves. Whatever the state, the order's lifecycle is the same afterwards
if and only if the order was unknown, its move was refused, or it stood where a failed cancel puts it. -/
theorem cancel_keeps_lifecycle_iff (c : System) (orderId : String) :
    (∀ c' rc, Runs.Reaches step (Only c.calls.length) (c.begin (callEntry (.cancel orderId))) c' →
        c'.calls[c.calls.length]? = some (.cancel (.done orderId rc)) → rc ≠ .success →
        c'.shared.oms.getLifecycleState orderId = c.shared.oms.getLifecycleState orderId) ↔
      c.shared.cancelRestores orderId = true := by
  rw [← cancel_lifecycle_iff]
  constructor
  · intro hall hfail
    have hsolo : program.Solo c.calls.length (c.shared, .cancel (.getOrder orderId))
        ((c.shared.cancel orderId).2, .cancel (.done orderId (c.shared.cancel orderId).1)) :=
      cancel_solo.mpr ⟨rfl, rfl⟩
    exact hall _ _ (Calls.Program.reaches_only_iff.mpr ⟨_, hsolo, rfl⟩) (Calls.Config.getElem?_begin _ _) hfail
  · intro hkept c' rc hrun hdone hrc
    obtain ⟨⟨s, pc⟩, hsolo, rfl⟩ := Calls.Program.reaches_only_iff.mp hrun
    have hpc := Calls.Config.getElem?_begin ({ c with shared := s } : System) pc
    cases hpc.symm.trans hdone
    obtain ⟨-, hresult⟩ := cancel_solo.mp hsolo
    rw [← hresult] at hkept
    exact hkept hrc

/-- A `Submit` that has marked its order and not yet reached the queue. -/
def submitMarked : List Action :=
  .start (.submit limitBuy) :: checks 0 ++ approve 0 :: List.replicate 3 (.resume 0 .silent)

/-- Nothing can be queued, and the cancel fails. It leaves an order that waits to be queued in `working`. -/
theorem unsent_working : ¬ ∀ c c' c'' : System, Initial c →
    Runs.Reaches step (fun c a => fresh c a = true) c c' → ∀ orderId rc,
      Runs.Reaches step (Only c'.calls.length) (c'.begin (callEntry (.cancel orderId))) c'' →
      c''.calls[c'.calls.length]? = some (.cancel (.done orderId rc)) → rc ≠ .success →
      c''.shared.oms.getLifecycleState orderId = c'.shared.oms.getLifecycleState orderId := by
  intro hall
  have hrun : ∃ c' ∈ Runs.execWhile step (fun c a => fresh c a = true) withoutTrader submitMarked,
      c'.shared.oms.getLifecycleState "t-e-1-1" = some .emsQueued ∧
        (c'.shared.cancel "t-e-1-1").1 = .notInitialized ∧
        (c'.shared.cancel "t-e-1-1").2.oms.getLifecycleState "t-e-1-1" = some .working := by decide +kernel
  obtain ⟨c', hc', hbefore, hcode, hafter⟩ := hrun
  have hsolo : program.Solo c'.calls.length (c'.shared, .cancel (.getOrder "t-e-1-1"))
      ((c'.shared.cancel "t-e-1-1").2, .cancel (.done "t-e-1-1" .notInitialized)) :=
    cancel_solo.mpr ⟨rfl, by rw [← hcode]⟩
  have hsame := hall withoutTrader c' _ withoutTrader_initial (Runs.reaches_of_execWhile _ hc') "t-e-1-1"
    .notInitialized (Calls.Program.reaches_only_iff.mpr ⟨_, hsolo, rfl⟩) (Calls.Config.getElem?_begin _ _) (by decide)
  rw [hbefore] at hsame
  cases hsame.symm.trans hafter

end Qtrade.Trading
