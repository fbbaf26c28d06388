import Qtrade.Trading.AtMostOnce

/-!
# How far the orders in the queue have come

A send item is about an order that has been marked as queued, a cancel item about one that is
past sending, and the worker's program counter says how far its order has come.
-/

namespace Qtrade.Trading

open Qtrade.Ems (WorkItem ExecutionManager)
open Qtrade.Oms
open Qtrade.Oms.OrderManager

/-- The order's entry has come at least this far. -/
def ComeTo (s : Shared) (orderId : String) (n : Nat) : Prop :=
  ∃ e, s.oms.orders.lookup orderId = some e ∧ n ≤ e.lifecycleState.rank

/-- What the worker holds has come as far as its program counter says. -/
def WorkerComeTo (s : Shared) : Prop :=
  match s.worker with
  | .idle => True
  | .cancelling request => ComeTo s request.orderId 3
  | .cancelled request _ => ComeTo s request.orderId 3
  | .dequeued order => ComeTo s order.orderId 1
  | .refused order _ => ComeTo s order.orderId 3
  | .marked order => ComeTo s order.orderId 2
  | .sending order => ComeTo s order.orderId 2 ∧ order.orderId ∈ sentIds s.log
  | .returned order rc => ComeTo s order.orderId 2 ∧
      (order.orderId ∈ sentIds s.log ∨ rc ≠ .success ∧ rc ≠ .timeout)
  | .releasing orderId => ComeTo s orderId 3

structure Past (s : Shared) : Prop where
  queued : ∀ order, .send order ∈ s.ems.pendingItems → ComeTo s order.orderId 1
  cancels : ∀ request, .cancel request ∈ s.ems.pendingItems → ComeTo s request.orderId 3
  worker : WorkerComeTo s

def PastCall (s : Shared) : CallPc → Prop
  | .submit (.enqueue _ order) => ComeTo s order.orderId 1
  | .cancel (.enqueueCancel orderId _) => ComeTo s orderId 3
  | .cancel (.recordFailure orderId _) => ComeTo s orderId 3
  | _ => True

variable {s s' : Shared} {orderId : String}

theorem ComeTo.change {n : Nat} (h : ComeTo s orderId n) (hc : Change s.oms s'.oms) : ComeTo s' orderId n :=
  rank_of_change hc h

theorem WorkerComeTo.change (h : WorkerComeTo s) (hc : Change s.oms s'.oms) (hw : s'.worker = s.worker)
    (hsent : sentIds s.log ⊆ sentIds s'.log) : WorkerComeTo s' := by
  unfold WorkerComeTo at *
  rw [hw]
  split at h
  case h_1 => trivial
  case h_7 => exact ⟨h.1.change hc, hsent h.2⟩
  case h_8 => exact ⟨h.1.change hc, h.2.imp_left fun h => hsent h⟩
  all_goals exact h.change hc

theorem Past.step (h : Past s) (hc : Change s.oms s'.oms)
    (hq : ∀ order, .send order ∈ s'.ems.pendingItems →
      .send order ∈ s.ems.pendingItems ∨ ComeTo s' order.orderId 1)
    (hcancel : ∀ request, .cancel request ∈ s'.ems.pendingItems →
      .cancel request ∈ s.ems.pendingItems ∨ ComeTo s' request.orderId 3)
    (hw : WorkerComeTo s') : Past s' :=
  ⟨fun order ho => (hq order ho).elim (fun ho => (h.queued order ho).change hc) id,
    fun request ho => (hcancel request ho).elim (fun ho => (h.cancels request ho).change hc) id, hw⟩

theorem Quiet.sentIds (h : Quiet s s') : sentIds s'.log = sentIds s.log := by
  rw [Trading.sentIds, Trading.sentIds, h.unsent.sends]

theorem Quiet.sentIds_subset (h : Quiet s s') : Trading.sentIds s.log ⊆ Trading.sentIds s'.log := by
  rw [h.sentIds]
  exact List.Subset.refl _

/-! ## The steps of the calls -/

theorem SubmitStep.cancels {call : Nat} {pc pc' : SubmitPc} (h : SubmitStep s call pc s' pc')
    (request : CancelOrderRequest) (hr : .cancel request ∈ s'.ems.pendingItems) :
    .cancel request ∈ s.ems.pendingItems := by
  cases h with
  | enqueued => simpa [Shared.emit] using hr
  | released => rw [ems_release] at hr; exact hr
  | _ => exact hr

theorem SubmitStep.past {call : Nat} {pc pc' : SubmitPc} (h : SubmitStep s call pc s' pc') (hs : Past s)
    (hpc : PastCall s (.submit pc)) : Past s' ∧ PastCall s' (.submit pc') := by
  have hchange := h.quiet.change
  constructor
  · refine hs.step hchange (fun order ho => ?_) (fun request hr => Or.inl (h.cancels request hr))
      (hs.worker.change hchange h.frame.worker h.quiet.sentIds_subset)
    rcases h.queue order ho with ho | ⟨request, rfl⟩
    · exact Or.inl ho
    · exact Or.inr (ComeTo.change hpc hchange)
  · cases h with
    | queued request order e he hl =>
      refine ⟨_, by rw [markEmsQueued, lookup_update, if_pos rfl, he]; rfl, ?_⟩
      rcases hl with hl | hl <;> simp [applyTransition, hl, canTransition, OrderLifecycleState.rank]
    | allocated request pc' heq => subst heq; split <;> trivial
    | _ => trivial

theorem comeTo_cancelOrder (homs : s'.oms = (s.oms.cancelOrder orderId).2)
    (hok : (s.oms.cancelOrder orderId).1 = .success) : ComeTo s' orderId 3 := by
  rcases update_cases s.oms orderId fun e => applyTransition e .cancelPending with
    ⟨_, hu⟩ | ⟨e, _, hrc, he'⟩
  · rw [OrderManager.cancelOrder, hu] at hok; cases hok
  · refine ⟨_, homs ▸ he', ?_⟩
    rw [OrderManager.cancelOrder, hrc] at hok
    rcases applyTransition_cases e .cancelPending with ⟨_, ht⟩ | ⟨_, ht⟩
    · rw [ht]; exact le_refl 3
    · rw [ht] at hok; cases hok

theorem CancelStep.past {pc pc' : CancelPc} (h : CancelStep s pc s' pc') (hs : Past s)
    (hpc : PastCall s (.cancel pc)) : Past s' ∧ PastCall s' (.cancel pc') := by
  have hchange := h.quiet.change
  constructor
  · refine hs.step hchange (fun order ho => Or.inl (h.queue order ho)) (fun request hr => ?_)
      (hs.worker.change hchange h.frame.worker h.quiet.sentIds_subset)
    cases h with
    | enqueued orderId order request' hreq =>
      rcases List.mem_cons.mp hr with heq | hr
      · cases heq
        subst hreq
        exact Or.inr hpc
      · exact Or.inl hr
    | _ => exact Or.inl hr
  · cases h with
    | cancelled orderId order hok => exact comeTo_cancelOrder rfl hok
    | notEnqueued orderId order => exact hpc
    | _ => trivial

/-! ## The steps of the worker and the lane -/

theorem comeTo_recordSendResult {rc : ErrorCode} (h : ComeTo s orderId 2)
    (homs : s'.oms = (s.oms.recordSendResult orderId rc).2) : ComeTo s' orderId 3 := by
  obtain ⟨e, he, htwo⟩ := h
  refine ⟨(sendResultEntry e rc).2, ?_, ?_⟩
  · rw [homs, recordSendResult, lookup_update, if_pos rfl, he]
    rfl
  · have hle := htwo.trans (sendResultEntry_settles e rc).rank_le
    have hne := sendResultEntry_ne_sendPending e rc
    cases hl : (sendResultEntry e rc).2.lifecycleState <;> simp_all [OrderLifecycleState.rank]

theorem comeTo_of_refused (h : ComeTo s orderId 1) (hrc : (s.oms.markSendPending orderId).1 ≠ .success) :
    ComeTo s orderId 3 := by
  obtain ⟨e, he, hone⟩ := h
  obtain ⟨hl, hl'⟩ := markSendPending_refused he hrc
  refine ⟨e, he, ?_⟩
  cases hle : e.lifecycleState <;> simp_all [OrderLifecycleState.rank]

theorem WorkerStep.workerComeTo (h : WorkerStep s s') (hs : Past s) : WorkerComeTo s' := by
  have hchange := h.change
  have hworker := hs.worker
  unfold WorkerComeTo at hworker
  cases h with
  | takesCancel request rest hw hq => exact hs.cancels request (by simp [hq])
  | takesOrder order rest hw hq => exact hs.queued order (by simp [hq])
  | cancelWithoutTrader request hw => rw [hw] at hworker; exact hworker
  | cancelRecorded | recorded => trivial
  | marked order hw hok =>
    obtain ⟨_, e', _, _, he', hl'⟩ := markSendPending_success hok
    exact ⟨e', he', by rw [hl']; decide⟩
  | refused order rc hw hmark hrc =>
    subst hmark
    rw [hw] at hworker
    exact (comeTo_of_refused hworker hrc).change hchange
  | refusalRecorded order rc hw => rw [hw] at hworker; exact hworker.change hchange
  | sent order hw => rw [hw] at hworker; exact ⟨hworker, List.mem_cons_self⟩
  | sendWithoutTrader order hw => rw [hw] at hworker; exact ⟨hworker, Or.inr (by decide)⟩
  | failureRecorded order rc hw => rw [hw] at hworker; exact comeTo_recordSendResult hworker.1 rfl
  | released => unfold WorkerComeTo; rw [worker_release]; trivial

theorem WorkerStep.cancels (h : WorkerStep s s') (request : CancelOrderRequest)
    (hr : .cancel request ∈ s'.ems.pendingItems) : .cancel request ∈ s.ems.pendingItems := by
  cases h with
  | takesCancel _ rest _ hq | takesOrder _ rest _ hq => rw [hq]; exact List.mem_cons_of_mem _ hr
  | released => rw [ems_release] at hr; exact hr
  | _ => exact hr

theorem engineStep_past {event : EngineEvent} (h : engineStep s event = some s') (hs : Past s) : Past s' := by
  have hchange := engineStep_change h
  by_cases hevent : event = .worker
  · subst hevent
    have hstep := workerStep_step h
    exact hs.step hchange (fun o ho => Or.inl (hstep.ems.1 o ho)) (fun r hr => Or.inl (hstep.cancels r hr))
      (hstep.workerComeTo hs)
  · obtain ⟨hq, hems⟩ := laneEvent_quiet hevent h
    refine hs.step hchange (fun o ho => Or.inl (hems ▸ ho)) (fun r hr => Or.inl (hems ▸ hr)) ?_
    have hworker := hs.worker
    rcases laneEvent_worker hevent h with hw | ⟨request, rc, hw, hw'⟩ | ⟨order, rc, hw, hw'⟩
    · exact hworker.change hchange hw hq.sentIds_subset
    · unfold WorkerComeTo at *
      rw [hw] at hworker
      rw [hw']
      exact hworker.change hchange
    · unfold WorkerComeTo at *
      rw [hw] at hworker
      rw [hw']
      exact ⟨hworker.1.change hchange, Or.inl (hq.sentIds_subset hworker.2)⟩

/-! ## The outline -/

def pastOutline : program.Outline fun c a => sessionOutline.Valid c ∧ fresh c a = true where
  inv := Past
  holds s _ pc := PastCall s pc
  rely _ s s' := Change s.oms s'.oms
  start _ call _ _ := by cases call <;> trivial
  resume c index pc answer s' pc' hs hpc hcall hok h := by
    obtain ⟨⟨hsession, hcalls⟩, hfresh⟩ := hok
    have hstep := callNext_step hsession (hcalls index pc hcall) (lookup_of_fresh hfresh hcall) h
    have hchange := hstep.quiet.change
    cases hstep with
    | submit hstep => exact ⟨(hstep.past hs hpc).1, (hstep.past hs hpc).2, fun _ _ => hchange⟩
    | cancel hstep => exact ⟨(hstep.past hs hpc).1, (hstep.past hs hpc).2, fun _ _ => hchange⟩
  environment c event s' hs _ h := ⟨engineStep_past h hs, fun _ => engineStep_change h⟩
  stable s s' _ pc h hpc := by
    cases pc with
    | submit pc =>
      cases pc with
      | enqueue request order => exact ComeTo.change hpc h
      | _ => trivial
    | cancel pc =>
      cases pc with
      | enqueueCancel orderId order => exact ComeTo.change hpc h
      | recordFailure orderId rc => exact ComeTo.change hpc h
      | _ => trivial

theorem Initial.past {c : System} (h : Initial c) : pastOutline.Valid c := by
  refine ⟨⟨?_, ?_, ?_⟩, ?_⟩
  · simp [h.pendingItems]
  · simp [h.pendingItems]
  · simp [WorkerComeTo, h.worker]
  · simp [h.calls]

theorem Initial.sessionPast {ok : System → Action → Prop} {c c' : System} (h : Initial c)
    (hok : ∀ c a, ok c a → fresh c a = true) (hrun : Runs.Reaches step ok c c') :
    Runs.Reaches step (fun c a => (sessionOutline.Valid c ∧ pastOutline.Valid c) ∧ ok c a) c c' := by
  refine hrun.alongside ⟨h.valid, h.past⟩ fun c a c' hv ha hs => ?_
  have hfresh := hok c a ha
  exact ⟨sessionOutline.valid_step hv.1 hfresh hs, pastOutline.valid_step hv.2 ⟨hv.1, hfresh⟩ hs⟩

end Qtrade.Trading
