import Qtrade.Trading.Past

/-!
# A cancel against the worker

`CancelOrder` and `MarkSendPending` take the same mutex, so one of them comes first. An accepted cancel keeps its
order from the venue for good, unless the worker has marked the order by then.
-/

namespace Qtrade.Trading

open Qtrade.Ems (ExecutionManager)
open Qtrade.Oms
open Qtrade.Oms.OrderManager

variable {s s' : Shared} {orderId : String}

/-- The next step of the worker sends the order. -/
def AboutToSend (s : Shared) (orderId : String) : Prop :=
  ∃ order, s.worker = .marked order ∧ order.orderId = orderId ∧ s.ems.traderApi = true

/-- Past sending, and not in the worker's hand. -/
structure Withheld (s : Shared) (orderId : String) : Prop where
  past : ComeTo s orderId 3
  unmarked : ¬ AboutToSend s orderId

/-! ## The trader is set or not for the whole run -/

theorem traderApi_release (s : Shared) (reason : ReleaseReason) :
    (s.release orderId reason).ems.traderApi = s.ems.traderApi := by
  rw [ems_release]

theorem SubmitStep.traderApi {call : Nat} {pc pc' : SubmitPc} (h : SubmitStep s call pc s' pc') :
    s'.ems.traderApi = s.ems.traderApi := by
  cases h with
  | released => exact traderApi_release _ _
  | _ => rfl

theorem CallStep.traderApi {call : Nat} {pc pc' : CallPc} (h : CallStep s call pc s' pc') :
    s'.ems.traderApi = s.ems.traderApi := by
  cases h with
  | submit h => exact h.traderApi
  | cancel h => cases h <;> rfl

theorem WorkerStep.traderApi (h : WorkerStep s s') : s'.ems.traderApi = s.ems.traderApi := by
  cases h with
  | released => exact traderApi_release _ _
  | _ => rfl

/-! ## What is withheld stays withheld -/

theorem AboutToSend.of_worker (hw : s'.worker = s.worker) (ht : s'.ems.traderApi = s.ems.traderApi)
    (h : AboutToSend s' orderId) : AboutToSend s orderId := by
  obtain ⟨order, hmarked, hid, htrader⟩ := h
  exact ⟨order, hw ▸ hmarked, hid, ht ▸ htrader⟩

theorem ComeTo.not_markable (h : ComeTo s orderId 3) {order : Order}
    (hok : (s.oms.markSendPending order.orderId).1 = .success) : order.orderId ≠ orderId := by
  rintro rfl
  obtain ⟨e, hlookup, hrank⟩ := h
  obtain ⟨e', -, he', hl, -⟩ := markSendPending_success hok
  cases hlookup.symm.trans he'
  rcases hl with hl | hl <;> simp [hl, OrderLifecycleState.rank] at hrank

theorem WorkerStep.withheld (hstep : WorkerStep s s') (h : Withheld s orderId) :
    Withheld s' orderId ∧ (orderId ∈ sentIds s'.log ↔ orderId ∈ sentIds s.log) := by
  have hpast : ComeTo s' orderId 3 := h.past.change hstep.change
  have hidle : (∀ order, s'.worker ≠ .marked order) → ¬ AboutToSend s' orderId :=
    fun hne ⟨order, hmarked, _⟩ => hne order hmarked
  cases hstep with
  | marked order hw hok =>
    refine ⟨⟨hpast, ?_⟩, Iff.rfl⟩
    rintro ⟨_, ⟨⟩, hid, -⟩
    exact h.past.not_markable hok hid
  | sent order hw htrader =>
    refine ⟨⟨hpast, hidle fun _ => by simp [Shared.emit]⟩, ?_⟩
    have hne : orderId ≠ order.orderId := fun heq => h.unmarked ⟨order, hw, heq.symm, htrader⟩
    simp [sentIds, sends, Shared.emit, hne]
  | released id hw =>
    have hunsent := (unsent_release { s with worker := .idle } id .emsEnqueueFailed).sends
    refine ⟨⟨hpast, hidle fun _ => by simp [worker_release]⟩, ?_⟩
    rw [sentIds, sentIds, hunsent]
  | _ => exact ⟨⟨hpast, hidle fun _ => by simp⟩, Iff.rfl⟩

theorem step_withheld {c c' : System} {a : Action} (h : Withheld c.shared orderId) (hv : sessionOutline.Valid c)
    (hfresh : fresh c a = true) (hstep : step c a = some c') :
    Withheld c'.shared orderId ∧ (orderId ∈ sentIds c'.shared.log ↔ orderId ∈ sentIds c.shared.log) := by
  cases a with
  | start call => cases hstep; exact ⟨h, Iff.rfl⟩
  | resume index answer =>
    obtain ⟨pc, pc', hpc, hnext, -⟩ := Calls.Program.step_resume hstep
    have hcall := callNext_step hv.1 (hv.2 index pc hpc) (lookup_of_fresh hfresh hpc) hnext
    refine ⟨⟨h.past.change hcall.quiet.change, fun habout => h.unmarked ?_⟩, by rw [hcall.quiet.sentIds]⟩
    exact habout.of_worker hcall.frame.worker hcall.traderApi
  | environment event =>
    obtain ⟨hnext, -⟩ := Calls.Program.step_environment hstep
    by_cases hevent : event = .worker
    · subst hevent
      exact (workerStep_step hnext).withheld h
    · obtain ⟨hquiet, hems⟩ := laneEvent_quiet hevent hnext
      refine ⟨⟨h.past.change hquiet.change, fun habout => h.unmarked ?_⟩, by rw [hquiet.sentIds]⟩
      obtain ⟨order, hmarked, hid, htrader⟩ := habout
      rw [hems] at htrader
      -- Where the trader returns, the worker was not at a marked order and is not now.
      rcases laneEvent_worker hevent hnext with hw | ⟨_, _, _, hw⟩ | ⟨_, _, _, hw⟩
      · exact ⟨order, hw ▸ hmarked, hid, htrader⟩
      · rw [hw] at hmarked
        cases hmarked
      · rw [hw] at hmarked
        cases hmarked

theorem Withheld.reaches {c c' : System} (h : Withheld c.shared orderId) (hv : sessionOutline.Valid c)
    (hrun : Runs.Reaches step (fun c a => fresh c a = true) c c') :
    orderId ∈ sentIds c'.shared.log ↔ orderId ∈ sentIds c.shared.log := by
  have hkept := hrun.invariant (P := fun c' => (sessionOutline.Valid c' ∧ Withheld c'.shared orderId) ∧
    (orderId ∈ sentIds c'.shared.log ↔ orderId ∈ sentIds c.shared.log)) ⟨⟨hv, h⟩, Iff.rfl⟩
    fun c₁ a c₂ hc₁ hfresh hstep => by
      obtain ⟨⟨hv₁, h₁⟩, hsent⟩ := hc₁
      obtain ⟨h₂, hsame⟩ := step_withheld h₁ hv₁ hfresh hstep
      exact ⟨⟨sessionOutline.valid_step hv₁ hfresh hstep, h₂⟩, hsame.trans hsent⟩
  exact hkept.2

/-- After an accepted `CancelOrder` the order is at the venue, or can still get there, if and only if it was sent
before or the worker is about to send it. -/
theorem accepted_sent_iff {c₁ c₂ : System} (hv : sessionOutline.Valid c₁) {index : Nat} {order : Order}
    (hpc : c₁.calls[index]? = some (.cancel (.cancelOrder orderId order)))
    (hstep : step c₁ (.resume index .silent) = some c₂)
    (haccepted : (c₁.shared.oms.cancelOrder orderId).1 = .success) :
    (∃ c', Runs.Reaches step (fun c a => fresh c a = true) c₂ c' ∧ orderId ∈ sentIds c'.shared.log) ↔
      orderId ∈ sentIds c₁.shared.log ∨ AboutToSend c₁.shared orderId := by
  have hfresh : fresh c₁ (.resume index .silent) = true := by simp [fresh, hpc, CallPc.createId?]
  obtain ⟨pc, pc', hpc', hnext, -⟩ := Calls.Program.step_resume hstep
  cases hpc.symm.trans hpc'
  have hshared : c₂.shared = { c₁.shared with oms := (c₁.shared.oms.cancelOrder orderId).2 } := by
    simp only [program, callNext, Shared.cancelNext, Option.map_some, if_true, Option.some.injEq,
      Prod.mk.injEq] at hnext
    exact hnext.1.symm
  have hpast : ComeTo c₂.shared orderId 3 := comeTo_cancelOrder (by rw [hshared]) haccepted
  have hlog : c₂.shared.log = c₁.shared.log := by rw [hshared]
  have habout : AboutToSend c₂.shared orderId ↔ AboutToSend c₁.shared orderId := by
    rw [hshared]
    exact Iff.rfl
  constructor
  · rintro ⟨c', hreach, hsent⟩
    by_cases hmarked : AboutToSend c₂.shared orderId
    · exact Or.inr (habout.mp hmarked)
    · have hwithheld : Withheld c₂.shared orderId := ⟨hpast, hmarked⟩
      rw [hwithheld.reaches (sessionOutline.valid_step hv hfresh hstep) hreach, hlog] at hsent
      exact Or.inl hsent
  · rintro (hsent | hmarked)
    · exact ⟨c₂, .refl _, hlog ▸ hsent⟩
    · obtain ⟨order, hworker, hid, htrader⟩ := habout.mpr hmarked
      let sent : Shared := ({ c₂.shared with worker := .sending order }.emit
        (.sent order.orderId (ExecutionManager.sendRequest order)))
      have hsend : step c₂ (.environment .worker) = some { c₂ with shared := sent } := by
        simp [step, Calls.Program.step, program, engineStep, Shared.workerStep, hworker, htrader, sent]
      refine ⟨{ c₂ with shared := sent }, (Runs.Reaches.refl c₂).tail rfl hsend, ?_⟩
      simp [sent, sentIds, sends, Shared.emit, hid]

/-! ## The worker has marked an order -/

/-- The order is being sent or it has ended. -/
def committedState (l : OrderLifecycleState) : Bool := l == .sendPending || isTerminalLifecycle l

def Committed (s : Shared) (orderId : String) : Prop :=
  ∃ e, s.oms.orders.lookup orderId = some e ∧ committedState e.lifecycleState = true

/-- What the worker has marked is committed. -/
def Ahead (s : Shared) : Prop := ∀ order, s.worker = .marked order → Committed s order.orderId

/-- A call whose `CancelOrder` was accepted. -/
def CallPc.cancels? : CallPc → Option String
  | .cancel (.enqueueCancel orderId _) => some orderId
  | .cancel (.recordFailure orderId _) => some orderId
  | _ => none

/-- The cancel came first: the worker has not marked the order, and will not. -/
def CameFirst (s : Shared) (pc : CallPc) : Prop :=
  ∀ orderId, pc.cancels? = some orderId →
    ComeTo s orderId 3 ∧ ∀ order, s.worker = .marked order → order.orderId ≠ orderId

/-- No report is about the order that the worker is about to send. -/
def reportsApart (s : Shared) (orderId : String) (clientOrderId : UInt32) : Bool :=
  match s.worker with
  | .marked order => s.oms.reportKey orderId clientOrderId != some order.orderId
  | _ => true

def raceGuard (c : System) (a : Action) : Bool :=
  fresh c a &&
    match a with
    | .environment (.orderReport report) => reportsApart c.shared report.orderId report.clientOrderId
    | .environment (.tradeReport report) => reportsApart c.shared report.orderId report.clientOrderId
    | _ => true

theorem raceGuard_fresh {c : System} {a : Action} (h : raceGuard c a = true) : fresh c a = true :=
  Bool.and_elim_left h

theorem Committed.of_lookup (h : Committed s orderId)
    (heq : s'.oms.orders.lookup orderId = s.oms.orders.lookup orderId) : Committed s' orderId := by
  obtain ⟨e, he, hl⟩ := h
  exact ⟨e, heq.trans he, hl⟩

theorem Committed.not_cancelled (h : Committed s orderId) : (s.oms.cancelOrder orderId).1 ≠ .success := by
  obtain ⟨e, he, hl⟩ := h
  rw [OrderManager.cancelOrder, update_fst he]
  unfold applyTransition
  cases hstate : e.lifecycleState <;> simp_all [committedState, isTerminalLifecycle, canTransition]

theorem Committed.recordSendResult (h : Committed s orderId) {id : String} {rc : ErrorCode} (hrc : rc ≠ .success)
    (ht : rc ≠ .timeout) (homs : s'.oms = (s.oms.recordSendResult id rc).2) : Committed s' orderId := by
  obtain ⟨e, he, hl⟩ := h
  by_cases hid : orderId = id
  · subst hid
    have hentry : s'.oms.orders.lookup orderId = some (sendResultEntry e rc).2 := by
      rw [homs, OrderManager.recordSendResult, lookup_update, if_pos rfl, he]
      rfl
    refine ⟨(sendResultEntry e rc).2, hentry, ?_⟩
    rcases Bool.or_eq_true_iff.mp hl with hpending | hterminal
    · rw [sendResultEntry_rejects hrc ht (Or.inr (beq_iff_eq.mp hpending))]
      rfl
    · rw [(sendResultEntry_settles e rc).terminal hterminal]
      exact hl
  · exact ⟨e, by rw [homs, OrderManager.recordSendResult, lookup_update, if_neg hid, he], hl⟩

theorem SubmitStep.committed {call : Nat} {pc pc' : SubmitPc} (h : SubmitStep s call pc s' pc')
    (hcall : SessionCall s (.submit pc)) (hc : Committed s orderId) : Committed s' orderId := by
  cases h with
  | born request id hid hfresh =>
    obtain ⟨e, he, hl⟩ := hc
    refine ⟨e, ?_, hl⟩
    have hne : orderId ≠ id := by
      rintro rfl
      rw [hfresh] at he
      cases he
    simp only [Shared.emit, lookup_born, if_neg hne, he]
  | queued request order e he hl =>
    obtain ⟨e', he', hl'⟩ := hc
    refine ⟨e', ?_, hl'⟩
    have hne : orderId ≠ order.orderId := by
      rintro rfl
      cases he.symm.trans he'
      rcases hl with hl | hl <;> rw [hl] at hl' <;> cases hl'
    rw [markEmsQueued, lookup_update, if_neg hne, he']
  | failureRecorded request order rc => exact hc.recordSendResult (hcall.refused rc rfl).1 (hcall.refused rc rfl).2 rfl
  | released => exact hc.of_lookup (by rw [oms_release])
  | _ => exact hc.of_lookup rfl

theorem CancelStep.committed {pc pc' : CancelPc} (h : CancelStep s pc s' pc') (hc : Committed s orderId)
    (hne : ∀ rc, pc ≠ .recordFailure orderId rc) : Committed s' orderId := by
  cases h with
  | cancelled id order hok =>
    have hid : orderId ≠ id := by
      rintro rfl
      exact hc.not_cancelled hok
    exact hc.of_lookup (by rw [OrderManager.cancelOrder, lookup_update, if_neg hid])
  | notCancelled id order hno =>
    by_cases hid : orderId = id
    · subst hid
      obtain ⟨e, he, hl⟩ := hc
      rw [OrderManager.cancelOrder, update_fst he] at hno
      have hkept : (applyTransition e .cancelPending).2 = e := by
        rcases applyTransition_cases e .cancelPending with ⟨_, ht⟩ | ⟨_, ht⟩
        · rw [ht] at hno
          exact absurd rfl hno
        · rw [ht]
      exact ⟨e, by rw [OrderManager.cancelOrder, lookup_update, if_pos rfl, he, Option.map_some, hkept], hl⟩
    · exact hc.of_lookup (by rw [OrderManager.cancelOrder, lookup_update, if_neg hid])
  | failureRecorded id rc =>
    have hid : orderId ≠ id := by
      rintro rfl
      exact hne rc rfl
    exact hc.of_lookup (by rw [OrderManager.recordCancelResult, lookup_update, if_neg hid])
  | _ => exact hc.of_lookup rfl

/-- What the others leave to a call. -/
structure Yields (s s' : Shared) : Prop where
  change : Change s.oms s'.oms
  marks : ∀ order, s'.worker = .marked order →
    s.worker = .marked order ∨ (s.oms.markSendPending order.orderId).1 = .success

theorem CameFirst.yields {pc : CallPc} (h : CameFirst s pc) (hy : Yields s s') : CameFirst s' pc := by
  intro orderId hcancels
  obtain ⟨hpast, hworker⟩ := h orderId hcancels
  refine ⟨hpast.change hy.change, fun order hmarked => ?_⟩
  rcases hy.marks order hmarked with hbefore | hok
  · exact hworker order hbefore
  · exact hpast.not_markable hok

theorem CallStep.yields {call : Nat} {pc pc' : CallPc} (h : CallStep s call pc s' pc') : Yields s s' :=
  ⟨h.quiet.change, fun _ hmarked => Or.inl (h.frame.worker ▸ hmarked)⟩

theorem CancelStep.cameFirst {pc pc' : CancelPc} (h : CancelStep s pc s' pc') (hahead : Ahead s)
    (hpc : CameFirst s (.cancel pc)) (hy : Yields s s') : CameFirst s' (.cancel pc') := by
  cases h with
  | cancelled id order hok =>
    rintro _ ⟨⟩
    refine ⟨comeTo_cancelOrder rfl hok, fun order hmarked heq => ?_⟩
    exact (heq ▸ hahead order hmarked).not_cancelled hok
  | notEnqueued id order =>
    rintro _ ⟨⟩
    exact hpc.yields hy id rfl
  | _ => exact nofun

theorem WorkerStep.yields (h : WorkerStep s s') : Yields s s' := by
  refine ⟨h.change, fun order hmarked => ?_⟩
  cases h with
  | marked order' hw hok =>
    cases hmarked
    exact Or.inr hok
  | released id hw =>
    rw [worker_release] at hmarked
    cases hmarked
  | _ => cases hmarked

theorem WorkerStep.ahead (h : WorkerStep s s') : Ahead s' := by
  intro order hmarked
  cases h with
  | marked order' hw hok =>
    cases hmarked
    obtain ⟨-, e', -, -, he', hl'⟩ := markSendPending_success hok
    exact ⟨e', he', by rw [hl']; rfl⟩
  | released id hw =>
    rw [worker_release] at hmarked
    cases hmarked
  | _ => cases hmarked

theorem laneEvent_marked {event : EngineEvent} (hevent : event ≠ .worker) (h : engineStep s event = some s')
    (order : Order) (hmarked : s'.worker = .marked order) : s.worker = .marked order := by
  rcases laneEvent_worker hevent h with hw | ⟨_, _, _, hw⟩ | ⟨_, _, _, hw⟩
  · exact hw ▸ hmarked
  · rw [hw] at hmarked
    cases hmarked
  · rw [hw] at hmarked
    cases hmarked

theorem laneEvent_ahead {event : EngineEvent} (hevent : event ≠ .worker) (h : engineStep s event = some s')
    (hahead : Ahead s)
    (horder : ∀ report, event = .orderReport report → reportsApart s report.orderId report.clientOrderId = true)
    (htrade : ∀ report, event = .tradeReport report → reportsApart s report.orderId report.clientOrderId = true) :
    Ahead s' := by
  intro order hmarked
  have hbefore := laneEvent_marked hevent h order hmarked
  refine (hahead order hbefore).of_lookup ?_
  cases event with
  | worker => exact absurd rfl hevent
  | traderReturns rc =>
    obtain ⟨worker, rfl, -⟩ := traderReturns_eq h
    rfl
  | lane => rw [(laneStep_step h).frame.1]
  | orderReport report =>
    obtain ⟨-, -, rfl⟩ := orderReport_eq h
    have hapart := horder report rfl
    simp only [reportsApart, hbefore, bne_iff_ne] at hapart
    rw [lookup_applyOrderReport, if_neg hapart]
  | tradeReport report =>
    obtain ⟨-, -, rfl⟩ := tradeReport_eq h
    have hapart := htrade report rfl
    simp only [reportsApart, hbefore, bne_iff_ne] at hapart
    rw [lookup_applyTradeReport, if_neg fun hkey => hapart hkey.2]

def raceOutline : program.Outline fun c a => sessionOutline.Valid c ∧ raceGuard c a = true where
  inv := Ahead
  holds s _ pc := CameFirst s pc
  rely _ s s' := Yields s s'
  start _ call _ _ := by cases call <;> exact nofun
  resume c index pc answer s' pc' hs hpc hcall hok h := by
    obtain ⟨⟨hsession, hcalls⟩, hguard⟩ := hok
    have hstep := callNext_step hsession (hcalls index pc hcall) (lookup_of_fresh (raceGuard_fresh hguard) hcall) h
    have hyields := hstep.yields
    have hmarked : ∀ order, s'.worker = .marked order → c.shared.worker = .marked order :=
      fun order ho => hstep.frame.worker ▸ ho
    refine ⟨fun order ho => ?_, ?_, fun _ _ => hyields⟩
    · have hcommitted := hs order (hmarked order ho)
      cases hstep with
      | submit hstep => exact hstep.committed (hcalls index _ hcall) hcommitted
      | cancel hstep =>
        refine hstep.committed hcommitted fun rc heq => ?_
        subst heq
        exact (hpc _ rfl).2 order (hmarked order ho) rfl
    · cases hstep with
      | submit hstep => exact nofun
      | cancel hstep => exact hstep.cameFirst hs hpc hyields
  environment c event s' hs hok h := by
    by_cases hevent : event = .worker
    · subst hevent
      have hstep := workerStep_step h
      exact ⟨hstep.ahead, fun _ => hstep.yields⟩
    · have hreports := Bool.and_elim_right hok.2
      refine ⟨laneEvent_ahead hevent h hs ?_ ?_, fun _ => ⟨engineStep_change h, fun order hmarked => Or.inl ?_⟩⟩
      · rintro report rfl
        exact hreports
      · rintro report rfl
        exact hreports
      · exact laneEvent_marked hevent h order hmarked
  stable _ _ _ _ h hpc := hpc.yields h

/-! ## The theorem -/

/-- The venue reports on no order before it was sent. Then an accepted cancel of an order that was not sent keeps it
from the venue, however the run goes on. -/
theorem cancelled_unsent {c c₁ c₂ : System} (hinit : Initial c)
    (hrun : Runs.Reaches step (fun c a => raceGuard c a = true) c c₁) {index : Nat} {order : Order}
    (hpc : c₁.calls[index]? = some (.cancel (.cancelOrder orderId order)))
    (hstep : step c₁ (.resume index .silent) = some c₂)
    (haccepted : (c₁.shared.oms.cancelOrder orderId).1 = .success) :
    (∃ c', Runs.Reaches step (fun c a => fresh c a = true) c₂ c' ∧ orderId ∈ sentIds c'.shared.log) ↔
      orderId ∈ sentIds c₁.shared.log := by
  have hsession := hinit.session (fun _ _ => raceGuard_fresh) hrun
  have hv := sessionOutline.valid_of_reaches (hrun.mono fun _ _ => raceGuard_fresh) hinit.valid
  have hahead : Ahead c₁.shared := by
    refine (raceOutline.valid_of_reaches hsession ⟨fun order hmarked => ?_, fun i pc hi => ?_⟩).1
    · rw [hinit.worker] at hmarked
      cases hmarked
    · rw [hinit.calls] at hi
      cases hi
  rw [accepted_sent_iff hv hpc hstep haccepted]
  refine or_iff_left ?_
  rintro ⟨order, hmarked, hid, -⟩
  exact (hid ▸ hahead order hmarked).not_cancelled haccepted

/-- A submit, and a cancel that has found the order. -/
def submitThenCancel : List Action :=
  submitAlone 0 limitBuy ++ [.start (.cancel "t-e-1-1"), .resume 1 .silent]

theorem cancelled_unsent_queued : ∃ c₂, Runs.Reaches step (fun c a => raceGuard c a = true) opening c₂ ∧
    c₂.shared.ems.pendingItems ≠ [] ∧
    ¬ ∃ c', Runs.Reaches step (fun c a => fresh c a = true) c₂ c' ∧ "t-e-1-1" ∈ sentIds c'.shared.log := by
  have hrun : ∃ c₁ ∈ Runs.execWhile step (fun c a => raceGuard c a = true) opening submitThenCancel,
      c₁.calls[1]? = (c₁.shared.oms.getOrder "t-e-1-1").map (fun order => .cancel (.cancelOrder "t-e-1-1" order)) ∧
        (c₁.shared.oms.getOrder "t-e-1-1").isSome = true ∧
        (∃ c₂ ∈ step c₁ (.resume 1 .silent), c₂.shared.ems.pendingItems ≠ []) ∧
        (c₁.shared.oms.cancelOrder "t-e-1-1").1 = .success ∧ sentIds c₁.shared.log = [] := by decide +kernel
  obtain ⟨c₁, hc₁, hpc, hknown, ⟨c₂, hstep, hqueued⟩, haccepted, hsent⟩ := hrun
  obtain ⟨order, horder⟩ := Option.isSome_iff_exists.mp hknown
  rw [horder] at hpc
  have hreach := Runs.reaches_of_execWhile _ hc₁
  have hguard : raceGuard c₁ (.resume 1 .silent) = true := by simp [raceGuard, fresh, hpc, CallPc.createId?]
  refine ⟨c₂, hreach.tail hguard hstep, hqueued, fun hlater => ?_⟩
  have hmem := (cancelled_unsent opening_initial hreach hpc hstep haccepted).mp hlater
  simp [hsent] at hmem

end Qtrade.Trading
