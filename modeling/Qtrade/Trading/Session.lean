import Qtrade.Trading.Steps

/-!
# What every step of the trading threads keeps

The order table stays well formed, every step changes it only as one operation can, and every
order that a thread or the queue carries has an entry in it.
-/

namespace Qtrade.Trading

open Qtrade.Ems (WorkItem ExecutionManager)
open Qtrade.Risk (RiskManager)
open Qtrade.Oms
open Qtrade.Oms.OrderManager

variable {s s' : Shared}

/-! ## Quiet steps -/

/-- The orders that were sent, with what was sent, newest first. -/
def sends (log : List Event) : List (String × OrderRequest) :=
  log.filterMap fun
    | .sent orderId request => some (orderId, request)
    | _ => none

/-- At most one more event, and no send. -/
def Unsent (s s' : Shared) : Prop :=
  s'.log = s.log ∨ ∃ event, s'.log = event :: s.log ∧ ∀ orderId request, event ≠ .sent orderId request

/-- A step that sends nothing and brings no order to sending. -/
structure Quiet (s s' : Shared) : Prop where
  change : Change s.oms s'.oms
  noNewSend : NoNewSend s.oms s'.oms
  unsent : Unsent s s'

theorem Unsent.sends (h : Unsent s s') : sends s'.log = sends s.log := by
  rcases h with h | ⟨event, h, hevent⟩
  · rw [h]
  · rw [h, Trading.sends, List.filterMap_cons_none]
    · rfl
    · cases event <;> first | rfl | exact absurd rfl (hevent _ _)

theorem Unsent.suffix (h : Unsent s s') : s.log <:+ s'.log := by
  rcases h with h | ⟨event, h, _⟩
  · rw [h]
  · rw [h]; exact List.suffix_cons event s.log

theorem unsent_release (s : Shared) (orderId : String) (reason : ReleaseReason) :
    Unsent s (s.release orderId reason) := by
  unfold Shared.release
  split
  · exact Or.inr ⟨_, rfl, by simp⟩
  · exact Or.inl rfl

@[simp]
theorem oms_release (s : Shared) (orderId : String) (reason : ReleaseReason) :
    (s.release orderId reason).oms = s.oms := by
  unfold Shared.release Shared.emit
  split <;> rfl

@[simp]
theorem worker_release (s : Shared) (orderId : String) (reason : ReleaseReason) :
    (s.release orderId reason).worker = s.worker := by
  unfold Shared.release Shared.emit
  split <;> rfl

@[simp]
theorem ems_release (s : Shared) (orderId : String) (reason : ReleaseReason) :
    (s.release orderId reason).ems = s.ems := by
  unfold Shared.release Shared.emit
  split <;> rfl

@[simp]
theorem lane_release (s : Shared) (orderId : String) (reason : ReleaseReason) :
    (s.release orderId reason).lane = s.lane := by
  unfold Shared.release Shared.emit
  split <;> rfl

@[simp]
theorem account_release (s : Shared) (orderId : String) (reason : ReleaseReason) :
    (s.release orderId reason).account = s.account := by
  unfold Shared.release Shared.emit
  split <;> rfl

@[simp]
theorem bridge_release (s : Shared) (orderId : String) (reason : ReleaseReason) :
    (s.release orderId reason).bridge = s.bridge := by
  unfold Shared.release Shared.emit
  split <;> rfl

theorem Quiet.of_oms {oms : OrderManager} (h : Evolves OrderEntry.Settles s.oms oms) (homs : s'.oms = oms)
    (hlog : Unsent s s') : Quiet s s' := by
  subst homs
  exact ⟨.settles h, h.noNewSend, hlog⟩

theorem Quiet.of_eq (homs : s'.oms = s.oms) (hlog : Unsent s s') : Quiet s s' :=
  .of_oms (.refl OrderEntry.Settles.refl _) homs hlog

theorem Quiet.emit {event : Event} (h : ∀ orderId request, event ≠ .sent orderId request) :
    Quiet s (s.emit event) :=
  .of_eq rfl (Or.inr ⟨event, rfl, h⟩)

theorem Quiet.refl (s : Shared) : Quiet s s := .of_eq rfl (Or.inl rfl)

theorem SubmitStep.quiet {call : Nat} {pc pc' : SubmitPc} (h : SubmitStep s call pc s' pc') : Quiet s s' := by
  cases h with
  | budget | openOrders | known | unknown | pastQueue | prepared | notQueued => exact .refl s
  | compliant | uncompliant | affordable | unaffordable => exact .emit (by simp)
  | reserved | reserveUnknown | reserveRefused | queryReserved | queryFailed | existing => exact .emit (by simp)
  | notEnqueued => exact .emit (by simp)
  | allocated => exact .of_oms (allocateOrderId_evolves s.oms) rfl (Or.inl rfl)
  | born request orderId hid hfresh hc =>
    exact ⟨.born s.oms request orderId hid hfresh hc, born_noNewSend s.oms request orderId,
      Or.inr ⟨_, rfl, by simp⟩⟩
  | queued _ order =>
    exact ⟨.emsQueued s.oms order.orderId, markEmsQueued_noNewSend s.oms order.orderId, Or.inl rfl⟩
  | enqueued => exact .of_eq rfl (Or.inr ⟨_, rfl, by simp⟩)
  | failureRecorded _ order rc => exact .of_oms (recordSendResult_evolves s.oms order.orderId rc) rfl (Or.inl rfl)
  | released => exact .of_eq (oms_release _ _ _) (unsent_release _ _ _)

/-- What every step of any thread does to the order table and the log. -/
structure Follows (s s' : Shared) : Prop where
  change : Change s.oms s'.oms
  log : s.log <:+ s'.log

theorem Quiet.follows (h : Quiet s s') : Follows s s' := ⟨h.change, h.unsent.suffix⟩

/-- What no step of a call touches. -/
structure CallFrame (s s' : Shared) : Prop where
  worker : s'.worker = s.worker
  lane : s'.lane = s.lane
  bridge : s'.bridge = s.bridge

theorem SubmitStep.frame {call : Nat} {pc pc' : SubmitPc} (h : SubmitStep s call pc s' pc') : CallFrame s s' := by
  cases h with
  | released => exact ⟨worker_release _ _ _, lane_release _ _ _, bridge_release _ _ _⟩
  | _ => exact ⟨rfl, rfl, rfl⟩

theorem SubmitStep.queue {call : Nat} {pc pc' : SubmitPc} (h : SubmitStep s call pc s' pc') (order : Order)
    (ho : .send order ∈ s'.ems.pendingItems) :
    .send order ∈ s.ems.pendingItems ∨ ∃ request, pc = .enqueue request order := by
  cases h with
  | enqueued request order' =>
    rcases List.mem_append.mp ho with ho | ho
    · exact Or.inl ho
    · simp only [List.mem_singleton, WorkItem.send.injEq] at ho
      subst ho
      exact Or.inr ⟨request, rfl⟩
  | released => rw [ems_release] at ho; exact Or.inl ho
  | _ => exact Or.inl ho

theorem SubmitStep.born_origin {call : Nat} {pc pc' : SubmitPc} (h : SubmitStep s call pc s' pc')
    {orderId : String} {e : OrderEntry}
    (hnone : s.oms.orders.lookup orderId = none) (he : s'.oms.orders.lookup orderId = some e) :
    ∃ request, pc = .create request orderId ∧ e = newEntry request orderId := by
  cases h with
  | born request id hid hfresh hc =>
    simp only [Shared.emit, lookup_born] at he
    split at he
    case isTrue heq => subst heq; cases he; exact ⟨request, rfl, rfl⟩
    case isFalse => rw [hnone] at he; cases he
  | queued request order =>
    obtain ⟨e, hold, _⟩ := (markEmsQueued_evolves s.oms order.orderId).origin he
    rw [hnone] at hold; cases hold
  | failureRecorded request order rc =>
    obtain ⟨e, hold, _⟩ := (recordSendResult_evolves s.oms order.orderId rc).origin he
    rw [hnone] at hold; cases hold
  | released => rw [oms_release, hnone] at he; cases he
  | allocated =>
    have he : s.oms.orders.lookup orderId = some e := he
    rw [hnone] at he; cases he
  | _ =>
    have he : s.oms.orders.lookup orderId = some e := he
    rw [hnone] at he; cases he

theorem admits_ne_timeout (ems : ExecutionManager) : ems.admits ≠ .timeout := by
  unfold ExecutionManager.admits
  split
  · simp
  · split <;> simp

theorem SubmitStep.carries {call : Nat} {pc pc' : SubmitPc} (h : SubmitStep s call pc s' pc')
    (hs : Session s) (hpc : SessionCall s (.submit pc)) : SessionCall s' (.submit pc') := by
  have hcarries : ∀ order, (CallPc.submit pc).order? = some order → s'.oms.Holds order :=
    fun order ho => (hpc.carries order ho).change h.quiet.change
  have hallocated := hpc.allocated
  have hid := nextOrderId_ne_empty s.oms
  cases h with
  | existing request orderId e he =>
    refine ⟨?_, by simp [CallPc.allocatedId?], by simp [CallPc.failure?]⟩
    rintro _ ⟨⟩
    exact hs.wellFormed.holds he
  | born request orderId hid hfresh =>
    refine ⟨?_, by simp [CallPc.allocatedId?], by simp [CallPc.failure?]⟩
    rintro _ ⟨⟩
    exact ⟨newEntry request orderId, by simp [Shared.emit, lookup_born, newEntry], rfl⟩
  | allocated request pc' hpc' =>
    subst hpc'
    constructor <;> split <;> simp_all [CallPc.order?, CallPc.allocatedId?, CallPc.failure?]
  | notEnqueued request order hadmits =>
    refine ⟨hcarries, by simp [CallPc.allocatedId?], ?_⟩
    rintro _ ⟨⟩
    exact ⟨hadmits, admits_ne_timeout s.ems⟩
  | _ => constructor <;> simp_all [CallPc.order?, CallPc.allocatedId?, CallPc.failure?]

theorem CancelStep.evolves {pc pc' : CancelPc} (h : CancelStep s pc s' pc') :
    Evolves OrderEntry.Settles s.oms s'.oms := by
  cases h with
  | cancelled orderId | notCancelled orderId => exact cancelOrder_evolves s.oms orderId
  | failureRecorded orderId rc => exact recordCancelResult_evolves s.oms orderId rc
  | _ => exact .refl OrderEntry.Settles.refl s.oms

theorem CancelStep.quiet {pc pc' : CancelPc} (h : CancelStep s pc s' pc') : Quiet s s' := by
  refine .of_oms h.evolves rfl ?_
  cases h <;> exact Or.inl rfl

theorem CancelStep.frame {pc pc' : CancelPc} (h : CancelStep s pc s' pc') : CallFrame s s' := by
  cases h <;> exact ⟨rfl, rfl, rfl⟩

theorem CancelStep.queue {pc pc' : CancelPc} (h : CancelStep s pc s' pc') (order : Order)
    (ho : .send order ∈ s'.ems.pendingItems) : .send order ∈ s.ems.pendingItems := by
  cases h with
  | enqueued => simpa using ho
  | _ => exact ho

/-! ## The worker and the lane -/

theorem LaneStep.frame (h : LaneStep s s') :
    s'.oms = s.oms ∧ s'.ems = s.ems ∧ s'.worker = s.worker ∧ s'.bridge = s.bridge ∧ Unsent s s' := by
  cases h with
  | released =>
    exact ⟨oms_release _ _ _, ems_release _ _ _, worker_release _ _ _, bridge_release _ _ _,
      unsent_release { s with lane := .idle } _ _⟩
  | _ => exact ⟨rfl, rfl, rfl, rfl, Or.inl rfl⟩

theorem laneEvent_quiet {event : EngineEvent} (hevent : event ≠ .worker)
    (h : engineStep s event = some s') : Quiet s s' ∧ s'.ems = s.ems := by
  cases event with
  | worker => exact absurd rfl hevent
  | traderReturns rc =>
    obtain ⟨worker, rfl, _⟩ := traderReturns_eq h
    exact ⟨.of_eq rfl (Or.inl rfl), rfl⟩
  | orderReport report =>
    obtain ⟨_, _, rfl⟩ := orderReport_eq h
    exact ⟨.of_oms (applyOrderReport_evolves s.oms report) rfl (Or.inl rfl), rfl⟩
  | tradeReport report =>
    obtain ⟨_, _, rfl⟩ := tradeReport_eq h
    exact ⟨.of_oms (applyTradeReport_evolves s.oms report) rfl (Or.inl rfl), rfl⟩
  | lane =>
    obtain ⟨ho, he, _, _, hlog⟩ := (laneStep_step h).frame
    exact ⟨.of_eq ho hlog, he⟩

theorem markSendPending_noNewSend {oms : OrderManager} {orderId : String}
    (h : (oms.markSendPending orderId).1 ≠ .success) : NoNewSend oms (oms.markSendPending orderId).2 := by
  intro orderId' e' he' hl
  rcases markSendPending_sendPending he' hl with ⟨_, hok⟩ | he
  · exact absurd hok h
  · exact he

theorem WorkerStep.change (h : WorkerStep s s') : Change s.oms s'.oms := by
  cases h with
  | cancelRecorded request rc => exact .settles (recordCancelResult_evolves s.oms _ rc)
  | marked order => exact .sendPending s.oms order.orderId
  | refused order => exact .sendPending s.oms order.orderId
  | refusalRecorded order rc => exact .settles (recordSendResult_evolves s.oms _ rc)
  | recorded order => exact .settles (recordSendResult_evolves s.oms _ .success)
  | failureRecorded order rc => exact .settles (recordSendResult_evolves s.oms _ rc)
  | released orderId => rw [oms_release]; exact .refl _
  | _ => exact .refl _

theorem WorkerStep.ems (h : WorkerStep s s') :
    (∀ order, .send order ∈ s'.ems.pendingItems → .send order ∈ s.ems.pendingItems) ∧
      ∀ order, s'.worker.order? = some order →
        s.worker.order? = some order ∨ .send order ∈ s.ems.pendingItems := by
  cases h with
  | takesCancel request rest hw hq =>
    refine ⟨fun _ ho => ?_, by simp [WorkerPc.order?]⟩
    rw [hq]
    exact List.mem_cons_of_mem _ ho
  | takesOrder order rest hw hq =>
    refine ⟨fun _ ho => ?_, fun o ho => Or.inr ?_⟩
    · rw [hq]
      exact List.mem_cons_of_mem _ ho
    · simp_all [WorkerPc.order?]
  | released orderId =>
    rw [ems_release, worker_release]
    exact ⟨fun _ => id, by simp [WorkerPc.order?]⟩
  | _ => exact ⟨fun _ => id, by simp_all [Shared.emit, WorkerPc.order?]⟩

theorem WorkerStep.frame (h : WorkerStep s s') : s'.lane = s.lane ∧ s'.bridge = s.bridge := by
  cases h with
  | released => exact ⟨lane_release _ _ _, bridge_release _ _ _⟩
  | _ => exact ⟨rfl, rfl⟩

theorem WorkerStep.evolves (h : WorkerStep s s') : Evolves OrderEntry.Advances s.oms s'.oms := by
  cases h with
  | cancelRecorded request rc => exact (recordCancelResult_evolves s.oms _ rc).mono fun _ _ h => h.toAdvances
  | marked order | refused order => exact markSendPending_evolves s.oms order.orderId
  | refusalRecorded order rc | failureRecorded order rc =>
    exact (recordSendResult_evolves s.oms order.orderId rc).mono fun _ _ h => h.toAdvances
  | recorded order => exact (recordSendResult_evolves s.oms order.orderId .success).mono fun _ _ h => h.toAdvances
  | released => exact .of_eq OrderEntry.Advances.refl (oms_release _ _ _)
  | _ => exact .refl OrderEntry.Advances.refl s.oms

theorem WorkerStep.suffix (h : WorkerStep s s') : s.log <:+ s'.log := by
  cases h with
  | sent => exact List.suffix_cons _ _
  | released orderId => exact (unsent_release { s with worker := .idle } orderId .emsEnqueueFailed).suffix
  | _ => exact List.suffix_rfl

/-! ## The outline -/

theorem Session.change (hs : Session s) (h : Change s.oms s'.oms)
    (hq : ∀ order, .send order ∈ s'.ems.pendingItems → .send order ∈ s.ems.pendingItems ∨ s'.oms.Holds order)
    (hw : ∀ order, s'.worker.order? = some order →
      s.worker.order? = some order ∨ .send order ∈ s.ems.pendingItems) : Session s' := by
  refine ⟨h.wellFormed hs.wellFormed, h.initialized.trans hs.initialized, fun order ho => ?_, fun order ho => ?_⟩
  · exact (hq order ho).elim (fun ho => (hs.queued order ho).change h) id
  · exact (hw order ho).elim (fun ho => (hs.working order ho).change h) fun ho => (hs.queued order ho).change h

/-- The step of a call is a step of `Submit` or of `Cancel`. -/
inductive CallStep (s : Shared) (call : Nat) : CallPc → Shared → CallPc → Prop
  | submit {pc pc' : SubmitPc} {s' : Shared} (h : SubmitStep s call pc s' pc') :
      CallStep s call (.submit pc) s' (.submit pc')
  | cancel {pc pc' : CancelPc} {s' : Shared} (h : CancelStep s pc s' pc') :
      CallStep s call (.cancel pc) s' (.cancel pc')

theorem callNext_step {call : Nat} {pc pc' : CallPc} {answer : Shared.Answer} (hs : Session s)
    (hpc : SessionCall s pc)
    (hfresh : ∀ orderId, pc.createId? = some orderId → s.oms.orders.lookup orderId = none)
    (h : callNext s call pc answer = some (s', pc')) : CallStep s call pc s' pc' := by
  cases pc with
  | submit pc =>
    obtain ⟨⟨s₁, pc₁⟩, hnext, heq⟩ := Option.map_eq_some_iff.mp h
    cases heq
    exact .submit (submitNext_step hs hpc (fun request orderId hpc => hfresh orderId (by rw [hpc]; rfl)) hnext)
  | cancel pc =>
    simp only [callNext] at h
    split at h
    case isFalse => cases h
    case isTrue =>
      obtain ⟨⟨s₁, pc₁⟩, hnext, heq⟩ := Option.map_eq_some_iff.mp h
      cases heq
      exact .cancel (cancelNext_step hnext)

theorem CallStep.quiet {call : Nat} {pc pc' : CallPc} (h : CallStep s call pc s' pc') : Quiet s s' := by
  cases h with
  | submit h => exact h.quiet
  | cancel h => exact h.quiet

theorem CallStep.frame {call : Nat} {pc pc' : CallPc} (h : CallStep s call pc s' pc') : CallFrame s s' := by
  cases h with
  | submit h => exact h.frame
  | cancel h => exact h.frame

theorem CallStep.session {call : Nat} {pc pc' : CallPc} (h : CallStep s call pc s' pc') (hs : Session s)
    (hpc : SessionCall s pc) : Session s' ∧ SessionCall s' pc' := by
  have hchange := h.quiet.change
  have hworker : ∀ order, s'.worker.order? = some order →
      s.worker.order? = some order ∨ .send order ∈ s.ems.pendingItems := by
    rw [h.frame.worker]
    exact fun _ => Or.inl
  cases h with
  | submit h =>
    refine ⟨hs.change hchange (fun order ho => ?_) hworker, h.carries hs hpc⟩
    rcases h.queue order ho with ho | ⟨request, rfl⟩
    · exact Or.inl ho
    · exact Or.inr ((hpc.carries order rfl).change hchange)
  | cancel h =>
    exact ⟨hs.change hchange (fun order ho => Or.inl (h.queue order ho)) hworker,
      by simp [CallPc.order?], by simp [CallPc.allocatedId?], by simp [CallPc.failure?]⟩

theorem engineStep_change {event : EngineEvent} (h : engineStep s event = some s') : Change s.oms s'.oms := by
  by_cases hevent : event = .worker
  · subst hevent; exact (workerStep_step h).change
  · exact (laneEvent_quiet hevent h).1.change

theorem laneEvent_evolves {event : EngineEvent} (hevent : event ≠ .worker)
    (h : engineStep s event = some s') :
    Evolves OrderEntry.Settles s.oms s'.oms ∧ s'.bridge = s.bridge := by
  have hrefl := Evolves.refl OrderEntry.Settles.refl s.oms
  cases event with
  | worker => exact absurd rfl hevent
  | traderReturns rc => obtain ⟨worker, rfl, _⟩ := traderReturns_eq h; exact ⟨hrefl, rfl⟩
  | orderReport report => obtain ⟨_, _, rfl⟩ := orderReport_eq h; exact ⟨applyOrderReport_evolves s.oms report, rfl⟩
  | tradeReport report => obtain ⟨_, _, rfl⟩ := tradeReport_eq h; exact ⟨applyTradeReport_evolves s.oms report, rfl⟩
  | lane => obtain ⟨ho, _, _, hbridge, _⟩ := (laneStep_step h).frame; exact ⟨.of_eq OrderEntry.Settles.refl ho, hbridge⟩

theorem laneEvent_worker {event : EngineEvent} (hevent : event ≠ .worker)
    (h : engineStep s event = some s') :
    s'.worker = s.worker ∨
      (∃ request rc, s.worker = .cancelling request ∧ s'.worker = .cancelled request rc) ∨
      ∃ order rc, s.worker = .sending order ∧ s'.worker = .returned order rc := by
  cases event with
  | worker => exact absurd rfl hevent
  | traderReturns rc =>
    obtain ⟨worker, rfl, ⟨request, hw, rfl⟩ | ⟨order, hw, rfl⟩⟩ := traderReturns_eq h
    · exact Or.inr (Or.inl ⟨request, rc, hw, rfl⟩)
    · exact Or.inr (Or.inr ⟨order, rc, hw, rfl⟩)
  | orderReport report => obtain ⟨_, _, rfl⟩ := orderReport_eq h; exact Or.inl rfl
  | tradeReport report => obtain ⟨_, _, rfl⟩ := tradeReport_eq h; exact Or.inl rfl
  | lane => exact Or.inl (laneStep_step h).frame.2.2.1

theorem laneEvent_order? {event : EngineEvent} (hevent : event ≠ .worker)
    (h : engineStep s event = some s') : s'.worker.order? = s.worker.order? := by
  rcases laneEvent_worker hevent h with hw | ⟨_, _, hw, hw'⟩ | ⟨_, _, hw, hw'⟩
  · rw [hw]
  · simp [hw, hw', WorkerPc.order?]
  · simp [hw, hw', WorkerPc.order?]

theorem engineStep_session {event : EngineEvent} (hs : Session s) (h : engineStep s event = some s') :
    Session s' := by
  refine hs.change (engineStep_change h) (fun order ho => ?_) fun order ho => ?_
  all_goals by_cases hevent : event = .worker
  · subst hevent; exact Or.inl ((workerStep_step h).ems.1 order ho)
  · exact Or.inl ((laneEvent_quiet hevent h).2 ▸ ho)
  · subst hevent; exact (workerStep_step h).ems.2 order ho
  · exact Or.inl (laneEvent_order? hevent h ▸ ho)

theorem engineStep_follows {event : EngineEvent} (h : engineStep s event = some s') : Follows s s' := by
  refine ⟨engineStep_change h, ?_⟩
  by_cases hevent : event = .worker
  · subst hevent; exact (workerStep_step h).suffix
  · exact (laneEvent_quiet hevent h).1.unsent.suffix

theorem lookup_of_fresh {c : System} {index : Nat} {answer : Shared.Answer} {pc : CallPc}
    (hfresh : fresh c (.resume index answer) = true) (hpc : c.calls[index]? = some pc) (orderId : String)
    (hid : pc.createId? = some orderId) : c.shared.oms.orders.lookup orderId = none := by
  simpa [fresh, hpc, hid] using hfresh

def sessionOutline : program.Outline fun c a => fresh c a = true where
  inv := Session
  holds s _ pc := SessionCall s pc
  rely _ s s' := Change s.oms s'.oms
  start c call _ _ := by
    constructor <;> cases call <;> simp [program, callEntry, CallPc.order?, CallPc.allocatedId?, CallPc.failure?]
  resume c index pc answer s' pc' hs hpc hcall hfresh h := by
    have hstep := callNext_step hs hpc (lookup_of_fresh hfresh hcall) h
    obtain ⟨hs', hpc'⟩ := hstep.session hs hpc
    exact ⟨hs', hpc', fun _ _ => hstep.quiet.change⟩
  environment c event s' hs _ h := ⟨engineStep_session hs h, fun _ => engineStep_change h⟩
  stable s s' _ pc h hpc := ⟨fun order ho => (hpc.carries order ho).change h, hpc.allocated, hpc.refused⟩

/-! ## The start of a run -/

/-- Trading starts: the broker's orders are taken over, and nothing else has happened yet. -/
structure Initial (c : System) : Prop where
  oms : c.shared.oms.Startup
  pendingItems : c.shared.ems.pendingItems = []
  worker : c.shared.worker = .idle
  lane : c.shared.lane = .idle
  log : c.shared.log = []
  calls : c.calls = []

theorem Initial.valid {c : System} (h : Initial c) : sessionOutline.Valid c := by
  have hs := h.oms.started
  refine ⟨⟨hs.wellFormed, hs.initialized, ?_, ?_⟩, ?_⟩
  · simp [h.pendingItems]
  · simp [h.worker, WorkerPc.order?]
  · simp [h.calls]

/-- Every step of a run starts in a session. -/
theorem Initial.session {ok : System → Action → Prop} {c c' : System} (h : Initial c)
    (hok : ∀ c a, ok c a → fresh c a = true) (hrun : Runs.Reaches step ok c c') :
    Runs.Reaches step (fun c a => sessionOutline.Valid c ∧ ok c a) c c' :=
  hrun.alongside h.valid fun _ _ _ hv ha hs => sessionOutline.valid_step hv (hok _ _ ha) hs

/-- A fresh engine with a bridge, before the first call. -/
def opening : System where
  shared :=
    { engineId := "e"
      bridge := true
      oms := (({} : OrderManager).initializeWith ⟨"t", "e", 1⟩).2
      ems := { running := true, traderApi := true } }
  calls := []

theorem opening_initial : Initial opening :=
  ⟨.initialized (s := {}) ⟨"t", "e", 1⟩ rfl, rfl, rfl, rfl, rfl, rfl⟩

/-- The same engine while the execution manager does not run. -/
def withoutTrader : System where
  shared := { opening.shared with ems := {} }
  calls := []

theorem withoutTrader_initial : Initial withoutTrader :=
  ⟨opening_initial.oms, rfl, rfl, rfl, rfl, rfl⟩

def limitBuy : OrderRequest :=
  { clientOrderId := 1, instrument := "600000", market := .shA, price := .fin 10, volume := 4 }

/-- The first steps of a `Submit` up to the answer of the bridge. -/
def checks (call : Nat) : List Action := List.replicate 6 (.resume call .silent)

def approve (call : Nat) : Action := .resume call (.reserved { data := some { decision := .approved } })

/-- A `Submit` that runs alone up to the queue. -/
def submitAlone (call : Nat) (request : OrderRequest) : List Action :=
  .start (.submit request) :: checks call ++ approve call :: List.replicate 4 (.resume call .silent)

/-- The worker takes an item from the queue and works on it up to the trader. -/
def workerToTrader : List Action := List.replicate 3 (.environment .worker)

end Qtrade.Trading
