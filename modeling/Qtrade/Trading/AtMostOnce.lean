import Qtrade.Trading.Session

/-!
# An order is sent at most once

Nothing leads back to `emsQueued` or `sendPending`, and only the worker that marked an order
finds it in `sendPending`. So an order that was sent is never marked again.
-/

namespace Qtrade.Trading

open Qtrade.Ems (WorkItem ExecutionManager)
open Qtrade.Oms
open Qtrade.Oms.OrderManager

/-- The order that the worker has marked and not recorded yet. -/
def WorkerPc.inFlight? : WorkerPc → Option String
  | .marked order => some order.orderId
  | .sending order => some order.orderId
  | .returned order _ => some order.orderId
  | _ => none

/-- The ids of the orders that were sent, newest first. -/
def sentIds (log : List Event) : List String := (sends log).map (·.1)

/-- The client ids that were sent, newest first. -/
def sentClientIds (log : List Event) : List UInt32 := (sends log).map (·.2.clientOrderId)

structure Once (s : Shared) : Prop where
  nodup : (sentIds s.log).Nodup
  sent : ∀ orderId request, (orderId, request) ∈ sends s.log → ∃ e, s.oms.orders.lookup orderId = some e ∧
    2 ≤ e.lifecycleState.rank ∧ e.order.clientOrderId = request.clientOrderId
  pending : ∀ orderId e, s.oms.orders.lookup orderId = some e → e.lifecycleState = .sendPending →
    s.worker.inFlight? = some orderId
  unsent : ∀ order, s.worker = .marked order → order.orderId ∉ sentIds s.log
  marked : ∀ order, s.worker = .marked order → ∃ e, s.oms.orders.lookup order.orderId = some e ∧
    2 ≤ e.lifecycleState.rank

variable {s s' : Shared}

theorem rank_of_change {oms oms' : OrderManager} (h : Change oms oms') {orderId : String} {n : Nat}
    (he : ∃ e, oms.orders.lookup orderId = some e ∧ n ≤ e.lifecycleState.rank) :
    ∃ e, oms'.orders.lookup orderId = some e ∧ n ≤ e.lifecycleState.rank := by
  obtain ⟨e, he, hn⟩ := he
  obtain ⟨e', he', ha⟩ := h.lookup he
  exact ⟨e', he', hn.trans ha.rank_le⟩

theorem Once.sent_change (h : Once s) (hc : Change s.oms s'.oms) (hs : sends s'.log = sends s.log)
    (orderId : String) (request : OrderRequest) (hr : (orderId, request) ∈ sends s'.log) :
    ∃ e, s'.oms.orders.lookup orderId = some e ∧
      2 ≤ e.lifecycleState.rank ∧ e.order.clientOrderId = request.clientOrderId := by
  obtain ⟨e, he, hrank, hclient⟩ := h.sent orderId request (hs ▸ hr)
  obtain ⟨e', he', ha⟩ := hc.lookup he
  exact ⟨e', he', hrank.trans ha.rank_le, ha.clientOrderId.trans hclient⟩

theorem Once.quiet (h : Once s) (hq : Quiet s s') (hflight : s'.worker.inFlight? = s.worker.inFlight?)
    (hmarked : ∀ order, s'.worker = .marked order → s.worker = .marked order) : Once s' := by
  have hids : sentIds s'.log = sentIds s.log := by rw [sentIds, sentIds, hq.unsent.sends]
  refine ⟨hids ▸ h.nodup, h.sent_change hq.change hq.unsent.sends, fun orderId e' he' hl => ?_, ?_, ?_⟩
  · obtain ⟨e, he, hl⟩ := hq.noNewSend orderId e' he' hl
    rw [hflight]
    exact h.pending orderId e he hl
  · intro order ho
    rw [hids]
    exact h.unsent order (hmarked order ho)
  · intro order ho
    exact rank_of_change hq.change (h.marked order (hmarked order ho))

theorem Once.markSendPending (h : Once s) (hflight : s.worker.inFlight? = none) {order : Order}
    (hok : (s.oms.markSendPending order.orderId).1 = .success) :
    Once { s with oms := (s.oms.markSendPending order.orderId).2, worker := .marked order } := by
  have hc : Change s.oms (s.oms.markSendPending order.orderId).2 := .sendPending s.oms order.orderId
  have hnone : ∀ orderId e, s.oms.orders.lookup orderId = some e → e.lifecycleState ≠ .sendPending := by
    intro orderId e he hl
    have := h.pending orderId e he hl
    rw [hflight] at this
    cases this
  obtain ⟨e, e', he, hl, he', hl'⟩ := markSendPending_success hok
  refine ⟨h.nodup, h.sent_change hc rfl, fun orderId e₁ he₁ hl₁ => ?_, ?_, ?_⟩
  · rcases markSendPending_sendPending he₁ hl₁ with ⟨rfl, _⟩ | ⟨e₂, he₂, hl₂⟩
    · rfl
    · exact absurd hl₂ (hnone orderId e₂ he₂)
  · rintro _ ⟨⟩ hsent
    obtain ⟨⟨_, request⟩, hr, rfl⟩ := List.mem_map.mp hsent
    obtain ⟨e₁, he₁, hrank, _⟩ := h.sent _ request hr
    rw [he] at he₁
    cases he₁
    -- A queued order is not past the queue, and none is in flight.
    rcases hl with hl | hl
    · simp [hl, OrderLifecycleState.rank] at hrank
    · exact hnone _ e he hl
  · rintro _ ⟨⟩
    exact ⟨e', he', by simp [hl', OrderLifecycleState.rank]⟩

theorem Once.send (h : Once s) (hs : Session s) {order : Order} (hw : s.worker = .marked order) :
    Once ({ s with worker := .sending order }.emit
      (.sent order.orderId (ExecutionManager.sendRequest order))) := by
  obtain ⟨e, he, hrank⟩ := h.marked order hw
  refine ⟨List.nodup_cons.mpr ⟨h.unsent order hw, h.nodup⟩, fun orderId request hr => ?_, fun orderId e' he' hl => ?_,
    by simp [Shared.emit], by simp [Shared.emit]⟩
  · rcases List.mem_cons.mp hr with heq | hr
    · obtain ⟨rfl, rfl⟩ := Prod.mk.inj heq
      obtain ⟨e₁, he₁, hclient⟩ := hs.working order (by simp [hw, WorkerPc.order?])
      rw [he] at he₁
      cases he₁
      exact ⟨e, he, hrank, hclient⟩
    · exact h.sent orderId request hr
  · have := h.pending orderId e' he' hl
    simpa [hw, WorkerPc.inFlight?, Shared.emit] using this

theorem Once.recordSendResult (h : Once s) {order : Order} {rc : ErrorCode} {worker : WorkerPc}
    (hw : s.worker = .returned order rc) (hworker : ∀ order, worker ≠ .marked order) :
    Once { s with oms := (s.oms.recordSendResult order.orderId rc).2, worker } := by
  have he := recordSendResult_evolves s.oms order.orderId rc
  refine ⟨h.nodup, h.sent_change (.settles he) rfl, fun orderId e' he' hl => ?_,
    fun o ho => absurd ho (hworker o), fun o ho => absurd ho (hworker o)⟩
  obtain ⟨e, hold, hl'⟩ := he.noNewSend orderId e' he' hl
  have hflight := h.pending orderId e hold hl'
  simp only [hw, WorkerPc.inFlight?, Option.some.injEq] at hflight
  subst hflight
  rw [OrderManager.recordSendResult, lookup_update, if_pos rfl, hold] at he'
  cases he'
  exact absurd hl (sendResultEntry_ne_sendPending e rc)

theorem WorkerStep.once (hstep : WorkerStep s s') (h : Once s) (hs : Session s) : Once s' := by
  have hquiet : ∀ {worker : WorkerPc} {oms : OrderManager}, Evolves OrderEntry.Settles s.oms oms →
      worker.inFlight? = s.worker.inFlight? → (∀ order, worker = .marked order → s.worker = .marked order) →
      Once { s with oms, worker } := fun he hflight hmarked =>
    h.quiet (.of_oms he rfl (Or.inl rfl)) hflight hmarked
  have hrefl := Evolves.refl OrderEntry.Settles.refl s.oms
  cases hstep with
  | takesCancel request rest hw =>
    exact h.quiet (.of_eq rfl (Or.inl rfl)) (by simp [hw, WorkerPc.inFlight?]) (by simp)
  | takesOrder order rest hw =>
    exact h.quiet (.of_eq rfl (Or.inl rfl)) (by simp [hw, WorkerPc.inFlight?]) (by simp)
  | cancelWithoutTrader request hw => exact hquiet hrefl (by simp [hw, WorkerPc.inFlight?]) (by simp)
  | cancelRecorded request rc hw =>
    exact hquiet (recordCancelResult_evolves s.oms _ rc) (by simp [hw, WorkerPc.inFlight?]) (by simp)
  | marked order hw hok => exact h.markSendPending (by simp [hw, WorkerPc.inFlight?]) hok
  | refused order rc hw hmark hrc =>
    subst hmark
    exact h.quiet ⟨.sendPending s.oms order.orderId, markSendPending_noNewSend hrc, Or.inl rfl⟩
      (by simp [hw, WorkerPc.inFlight?]) (by simp)
  | refusalRecorded order rc hw =>
    exact hquiet (recordSendResult_evolves s.oms _ rc) (by simp [hw, WorkerPc.inFlight?]) (by simp)
  | sent order hw => exact h.send hs hw
  | sendWithoutTrader order hw => exact hquiet hrefl (by simp [hw, WorkerPc.inFlight?]) (by simp)
  | recorded order hw => exact h.recordSendResult hw (by simp)
  | failureRecorded order rc hw => exact h.recordSendResult hw (by simp)
  | released orderId hw =>
    exact h.quiet (.of_eq (oms_release _ _ _) (unsent_release { s with worker := .idle } _ _))
      (by simp [hw, WorkerPc.inFlight?]) (by simp)

theorem laneEvent_once {event : EngineEvent} (h : Once s) (hevent : event ≠ .worker)
    (hstep : engineStep s event = some s') : Once s' := by
  have hq := (laneEvent_quiet hevent hstep).1
  rcases laneEvent_worker hevent hstep with hw | ⟨_, _, hw, hw'⟩ | ⟨_, _, hw, hw'⟩
  · exact h.quiet hq (by rw [hw]) (by simp [hw])
  · exact h.quiet hq (by simp [hw, hw', WorkerPc.inFlight?]) (by simp [hw'])
  · exact h.quiet hq (by simp [hw, hw', WorkerPc.inFlight?]) (by simp [hw'])

theorem step_once {c c' : System} {a : Action} (h : Once c.shared) (hv : sessionOutline.Valid c)
    (hfresh : fresh c a = true) (hstep : step c a = some c') : Once c'.shared := by
  cases a with
  | start call => cases hstep; exact h
  | resume index answer =>
    obtain ⟨pc, pc', hpc, hnext, _⟩ := Calls.Program.step_resume hstep
    have hcall := callNext_step hv.1 (hv.2 index pc hpc) (lookup_of_fresh hfresh hpc) hnext
    exact h.quiet hcall.quiet (by rw [hcall.frame.worker]) (by simp [hcall.frame.worker])
  | environment event =>
    obtain ⟨hnext, _⟩ := Calls.Program.step_environment hstep
    by_cases hevent : event = .worker
    · subst hevent; exact (workerStep_step hnext).once h hv.1
    · exact laneEvent_once h hevent hnext

theorem Initial.once {c : System} (h : Initial c) : Once c.shared := by
  refine ⟨?_, ?_, fun orderId e he hl => ?_, ?_, ?_⟩
  · simp [h.log, sentIds, sends]
  · simp [h.log, sends]
  · have := h.oms.started.pastSending orderId e he
    simp [hl, OrderLifecycleState.rank] at this
  · simp [h.worker]
  · simp [h.worker]

theorem Once.count_client (h : Once s) (hs : Session s) (clientOrderId : UInt32) (hc : clientOrderId ≠ 0) :
    (sentClientIds s.log).count clientOrderId ≤ 1 := by
  have hpair : (sends s.log).Pairwise fun a b => a.1 ≠ b.1 := List.pairwise_map.mp h.nodup
  have hclient : (sends s.log).Pairwise fun a b =>
      ¬(a.2.clientOrderId = clientOrderId ∧ b.2.clientOrderId = clientOrderId) := by
    refine hpair.imp_of_mem fun {a b} ha hb hne hsame => hne ?_
    obtain ⟨e₁, he₁, _, hc₁⟩ := h.sent a.1 a.2 ha
    obtain ⟨e₂, he₂, _, hc₂⟩ := h.sent b.1 b.2 hb
    refine (hs.wellFormed.unique he₁ he₂ ?_ ?_).symm
    · rw [hc₁, hsame.1]; exact hc
    · rw [hc₁, hc₂, hsame.1, hsame.2]
  unfold sentClientIds
  generalize sends s.log = l at hclient
  induction l with
  | nil => simp
  | cons a l ih =>
    rw [List.pairwise_cons] at hclient
    by_cases ha : a.2.clientOrderId = clientOrderId
    · have hnone : (l.map (·.2.clientOrderId)).count clientOrderId = 0 := by
        rw [List.count_eq_zero]
        intro hmem
        obtain ⟨b, hb, hbc⟩ := List.mem_map.mp hmem
        exact hclient.1 b hb ⟨ha, hbc⟩
      simp [hnone, ha]
    · have := ih hclient.2
      simp [ha, this]

/-- However the calls, the worker and the lane interleave, and whatever the trader and the bridge
answer, `SendOrder` is called at most once for an order id and for a nonzero client id. -/
theorem sent_at_most_once {c c' : System} (hinit : Initial c)
    (h : Runs.Reaches step (fun c a => fresh c a = true) c c') :
    (∀ orderId, (sentIds c'.shared.log).count orderId ≤ 1) ∧
      ∀ clientOrderId, clientOrderId ≠ 0 → (sentClientIds c'.shared.log).count clientOrderId ≤ 1 := by
  have honce : Once c'.shared := (hinit.session (fun _ _ ha => ha) h).invariant hinit.once
    fun _ _ _ ho ha hs => step_once ho ha.1 ha.2 hs
  have hvalid := sessionOutline.valid_of_reaches h hinit.valid
  exact ⟨List.nodup_iff_count_le_one.mp honce.nodup, honce.count_client hvalid.1⟩

/-- Two calls with one client id, and one send. -/
theorem sent_at_most_once_retry : ∃ c', Runs.Reaches step (fun c a => fresh c a = true) opening c' ∧
    sentIds c'.shared.log = ["t-e-1-1"] ∧ (sentIds c'.shared.log).count "t-e-1-1" ≤ 1 ∧
    (sentClientIds c'.shared.log).count 1 ≤ 1 := by
  have hrun : ∃ c' ∈ Runs.execWhile step (fun c a => fresh c a = true) opening
      (submitAlone 0 limitBuy ++ workerToTrader ++
        .start (.submit limitBuy) :: List.replicate 5 (.resume 1 .silent)),
      sentIds c'.shared.log = ["t-e-1-1"] := by decide +kernel
  obtain ⟨c', hc', hsent⟩ := hrun
  have hreach := Runs.reaches_of_execWhile _ hc'
  have h := sent_at_most_once opening_initial hreach
  exact ⟨c', hreach, hsent, h.1 _, h.2 1 (by decide)⟩

end Qtrade.Trading
