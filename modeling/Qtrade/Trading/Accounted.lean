import Qtrade.Trading.Created
import Qtrade.Trading.Past

/-!
# No order is forgotten

An order that a `Submit` created waits for that call or another one, for the queue or for the
worker, or it was sent, or it has ended. The guard keeps cancels away from orders that have not
been sent, and two calls with one client id from failing behind each other's back.
-/

namespace Qtrade.Trading

open Qtrade.Ems (WorkItem ExecutionManager)
open Qtrade.Oms
open Qtrade.Oms.OrderManager

/-! ## The guard -/

/-- The report is about an order that was sent, or about none that a call created. -/
def reportsSent (s : Shared) (orderId : String) (clientOrderId : UInt32) : Bool :=
  (s.oms.reportKey orderId clientOrderId).all fun key =>
    (creations s.log).all (·.2 != key) || (sentIds s.log).contains key

/-- The venue reports only on orders that were sent. -/
def venueGuard (c : System) (a : Action) : Bool :=
  fresh c a &&
    match a with
    | .environment (.orderReport report) => reportsSent c.shared report.orderId report.clientOrderId
    | .environment (.tradeReport report) => reportsSent c.shared report.orderId report.clientOrderId
    | _ => true

/-- No `Cancel` reaches an order that is not on its way to the trader yet, and a `Submit` fails only
where that ends the order it created. -/
def accountedGuard (c : System) (a : Action) : Bool :=
  venueGuard c a &&
    match a with
    | .resume index _ =>
      match c.calls[index]? with
      | some (.cancel (.cancelOrder orderId _)) =>
        lifecycleIs c.shared orderId fun l => l != .prepared && l != .emsQueued
      | some (.submit (.markQueued _ order)) =>
        !(creations c.shared.log).contains (index, order.orderId) ||
          lifecycleIs c.shared order.orderId fun l =>
            l == .prepared || l == .emsQueued || l == .rejected || l == .canceled
      | some (.submit (.recordFailure _ order _)) =>
        !(creations c.shared.log).contains (index, order.orderId) ||
          lifecycleIs c.shared order.orderId fun l =>
            l == .emsQueued || l == .sendPending || l == .rejected || l == .canceled
      | _ => true
    | _ => true

theorem accountedGuard_venue {c : System} {a : Action} (h : accountedGuard c a = true) : venueGuard c a = true :=
  Bool.and_elim_left h

theorem venueGuard_fresh {c : System} {a : Action} (h : venueGuard c a = true) : fresh c a = true :=
  Bool.and_elim_left h

variable {s s' : Shared} {orderId : String} {e e' : OrderEntry}

/-! ## Orders that wait for a call -/

/-- Before the queue, an order waits for a call in one of two places. -/
inductive Stage
  | prepared
  | emsQueued
deriving DecidableEq

/-- The order is in the queue, or the worker has just taken it. -/
def OnTheWay (s : Shared) (orderId : String) : Prop :=
  ∃ order, order.orderId = orderId ∧ (.send order ∈ s.ems.pendingItems ∨ s.worker = .dequeued order)

def Waits (s : Shared) : String × Stage → Prop
  | (orderId, .prepared) => s.oms.getLifecycleState orderId = some .prepared
  | (orderId, .emsQueued) => s.oms.getLifecycleState orderId = some .emsQueued ∧ ¬OnTheWay s orderId

/-- The call has the order in its hand at this stage. -/
def CallPc.stage? : CallPc → Option (String × Stage)
  | .submit (.lifecycle _ order) => some (order.orderId, .prepared)
  | .submit (.markQueued _ order) => some (order.orderId, .prepared)
  | .submit (.enqueue _ order) => some (order.orderId, .emsQueued)
  | .submit (.recordFailure _ order _) => some (order.orderId, .emsQueued)
  | _ => none

theorem getLifecycleState_eq_some {oms : OrderManager} {l : OrderLifecycleState} :
    oms.getLifecycleState orderId = some l ↔ ∃ e, oms.orders.lookup orderId = some e ∧ e.lifecycleState = l := by
  simp [getLifecycleState]

theorem getLifecycleState_of_settles {oms oms' : OrderManager} (h : Evolves OrderEntry.Settles oms oms')
    {l : OrderLifecycleState} (hl : l.rank < 3) (h' : oms'.getLifecycleState orderId = some l) :
    oms.getLifecycleState orderId = some l := by
  rw [getLifecycleState_eq_some] at *
  obtain ⟨e', he', rfl⟩ := h'
  obtain ⟨e, he, hs⟩ := h.origin he'
  exact ⟨e, he, (hs.quiet hl).symm⟩

theorem Waits.settles {a : String × Stage} (h : Waits s' a) (hs : Evolves OrderEntry.Settles s.oms s'.oms)
    (hway : ∀ orderId, OnTheWay s orderId → OnTheWay s' orderId) : Waits s a := by
  obtain ⟨orderId, stage⟩ := a
  cases stage with
  | prepared => exact getLifecycleState_of_settles hs (by decide) h
  | emsQueued => exact ⟨getLifecycleState_of_settles hs (by decide) h.1, fun hw => h.2 (hway orderId hw)⟩

theorem Waits.of_lookup {a : String × Stage} (h : Waits s' a)
    (hl : s'.oms.orders.lookup a.1 = s.oms.orders.lookup a.1) (hway : OnTheWay s a.1 → OnTheWay s' a.1) :
    Waits s a := by
  obtain ⟨orderId, stage⟩ := a
  cases stage with
  | prepared => simpa only [Waits, getLifecycleState, hl] using h
  | emsQueued => exact ⟨by simpa only [getLifecycleState, hl] using h.1, fun hw => h.2 (hway hw)⟩

theorem sendResultEntry_ne_emsQueued (e : OrderEntry) {rc : ErrorCode} (hrc : rc ≠ .success)
    (ht : rc ≠ .timeout) : (sendResultEntry e rc).2.lifecycleState ≠ .emsQueued := by
  cases hl : e.lifecycleState <;>
    simp only [sendResultEntry, applyTransition, hl, canTransition] <;>
    (repeat' split) <;> simp_all

theorem SubmitStep.waits {call : Nat} {pc pc' : SubmitPc} (h : SubmitStep s call pc s' pc')
    (hrefused : ∀ rc, (CallPc.submit pc).failure? = some rc → rc ≠ .success ∧ rc ≠ .timeout) {a : String × Stage}
    (ha : Waits s' a) :
    (CallPc.submit pc').stage? = some a ∨ Waits s a ∧ (CallPc.submit pc).stage? ≠ some a := by
  cases h with
  | born request orderId hid hfresh =>
    obtain ⟨id, stage⟩ := a
    by_cases hid : id = orderId
    · subst hid
      cases stage with
      | prepared => exact Or.inl rfl
      | emsQueued => simp [Waits, Shared.emit, getLifecycleState, lookup_born, newEntry] at ha
    · refine Or.inr ⟨ha.of_lookup ?_ fun hw => hw, by simp [CallPc.stage?]⟩
      simp [Shared.emit, lookup_born, hid]
  | pastQueue request order e he hl | notQueued request order e he hl =>
    refine Or.inr ⟨ha, ?_⟩
    rintro ⟨⟩
    exact hl (by simpa [Waits, getLifecycleState, he] using ha)
  | prepared request order | notEnqueued request order =>
    exact (em _).imp_right fun hne => ⟨ha, hne⟩
  | queued request order e he hl =>
    obtain ⟨id, stage⟩ := a
    by_cases hid : id = order.orderId
    · subst hid
      cases stage with
      | emsQueued => exact Or.inl rfl
      | prepared =>
        obtain ⟨e', he', hl'⟩ := getLifecycleState_eq_some.mp ha
        rw [markEmsQueued, lookup_update, if_pos rfl, he] at he'
        cases he'
        rcases hl with hl | hl <;> simp [applyTransition, hl, canTransition] at hl'
    · refine Or.inr ⟨ha.of_lookup (by simp [markEmsQueued, lookup_update, hid]) fun hw => hw, ?_⟩
      simpa [CallPc.stage?] using fun h => absurd h.symm hid
  | enqueued request order =>
    refine Or.inr ⟨ha.of_lookup rfl ?_, ?_⟩
    · rintro ⟨o, ho, hq⟩
      exact ⟨o, ho, hq.imp_left fun hq => List.mem_append_left _ hq⟩
    · rintro ⟨⟩
      exact ha.2 ⟨order, rfl, Or.inl (by simp [Shared.emit])⟩
  | failureRecorded request order rc =>
    refine Or.inr ⟨ha.settles (recordSendResult_evolves s.oms order.orderId rc) fun _ hw => hw, ?_⟩
    rintro ⟨⟩
    obtain ⟨e', he', hl'⟩ := getLifecycleState_eq_some.mp ha.1
    rw [recordSendResult, lookup_update, if_pos rfl, Option.map_eq_some_iff] at he'
    obtain ⟨e, _, rfl⟩ := he'
    exact sendResultEntry_ne_emsQueued e (hrefused rc rfl).1 (hrefused rc rfl).2 hl'
  | allocated =>
    exact Or.inr ⟨ha.settles (allocateOrderId_evolves s.oms) fun _ hw => hw, by simp [CallPc.stage?]⟩
  | released request orderId rc =>
    refine Or.inr ⟨ha.of_lookup (by rw [oms_release]) fun hw => ?_, by simp [CallPc.stage?]⟩
    simpa [OnTheWay] using hw
  | unaffordable pc request rc _ hpc =>
    refine Or.inr ⟨ha, ?_⟩
    rcases hpc with rfl | ⟨_, rfl⟩ | ⟨_, rfl⟩ <;> simp [CallPc.stage?]
  | _ => exact Or.inr ⟨ha, by simp [CallPc.stage?]⟩

theorem CancelStep.waits {pc pc' : CancelPc} (h : CancelStep s pc s' pc') {a : String × Stage}
    (ha : Waits s' a) : Waits s a := by
  refine ha.settles h.evolves fun orderId => ?_
  rintro ⟨order, ho, hq⟩
  refine ⟨order, ho, ?_⟩
  cases h with
  | enqueued => exact hq.imp_left (List.mem_cons_of_mem _)
  | _ => exact hq

theorem markSendPending_early {oms : OrderManager} {orderId : String} {l : OrderLifecycleState} (hl : l.rank < 2)
    (h : (oms.markSendPending orderId).2.getLifecycleState orderId = some l) :
    l = .prepared ∧ oms.getLifecycleState orderId = some .prepared := by
  obtain ⟨e', he', rfl⟩ := getLifecycleState_eq_some.mp h
  rw [markSendPending, lookup_update, if_pos rfl, Option.map_eq_some_iff] at he'
  obtain ⟨e, he, rfl⟩ := he'
  rw [getLifecycleState_eq_some]
  cases hle : e.lifecycleState <;> simp_all [applyTransition, canTransition, OrderLifecycleState.rank]

theorem Waits.of_marked {worker : WorkerPc} {order : Order} {a : String × Stage}
    (ha : Waits { s with oms := (s.oms.markSendPending order.orderId).2, worker } a)
    (hw : s.worker = .dequeued order) : Waits s a := by
  obtain ⟨id, stage⟩ := a
  by_cases hid : id = order.orderId
  · subst hid
    cases stage with
    | prepared => exact (markSendPending_early (l := .prepared) (by decide) ha).2
    | emsQueued => exact absurd (markSendPending_early (l := .emsQueued) (by decide) ha.1).1 (by simp)
  · refine ha.of_lookup (by simp [markSendPending, lookup_update, hid]) ?_
    rintro ⟨o, ho, hq⟩
    refine ⟨o, ho, hq.imp_right fun hq => ?_⟩
    rw [hw] at hq
    cases hq
    exact absurd ho.symm hid

theorem WorkerStep.waits (h : WorkerStep s s') {a : String × Stage} (ha : Waits s' a) : Waits s a := by
  have hrefl := Evolves.refl OrderEntry.Settles.refl s.oms
  have hway : ∀ (oms : OrderManager) (worker : WorkerPc), (∀ order, s.worker ≠ .dequeued order) →
      ∀ orderId, OnTheWay s orderId → OnTheWay { s with oms, worker } orderId := by
    rintro oms worker hw orderId ⟨o, ho, hq⟩
    exact ⟨o, ho, Or.inl (hq.resolve_right (hw o))⟩
  cases h with
  | takesCancel request rest hw hq =>
    refine ha.settles hrefl ?_
    rintro orderId ⟨o, ho, hin⟩
    refine ⟨o, ho, Or.inl ?_⟩
    simpa [hq, hw] using hin
  | takesOrder order rest hw hq =>
    refine ha.settles hrefl ?_
    rintro orderId ⟨o, ho, hin⟩
    have hin : o = order ∨ .send o ∈ rest := by simpa [hq, hw] using hin
    rcases hin with rfl | hin
    · exact ⟨o, ho, Or.inr rfl⟩
    · exact ⟨o, ho, Or.inl hin⟩
  | marked order hw => exact ha.of_marked hw
  | refused order rc hw => exact ha.of_marked hw
  | cancelRecorded request rc hw =>
    exact ha.settles (recordCancelResult_evolves s.oms _ rc) (hway _ _ (by simp [hw]))
  | refusalRecorded order rc hw =>
    exact ha.settles (recordSendResult_evolves s.oms _ rc) (hway _ _ (by simp [hw]))
  | recorded order hw =>
    exact ha.settles (recordSendResult_evolves s.oms _ .success) (hway _ _ (by simp [hw]))
  | failureRecorded order rc hw =>
    exact ha.settles (recordSendResult_evolves s.oms _ rc) (hway _ _ (by simp [hw]))
  | released orderId hw =>
    refine ha.settles (.of_eq OrderEntry.Settles.refl (oms_release _ _ _)) fun id hid => ?_
    simpa [OnTheWay, hw] using hid
  | cancelWithoutTrader request hw => exact ha.settles hrefl (hway _ _ (by simp [hw]))
  | sent order hw => exact ha.settles hrefl (hway s.oms _ (by simp [hw]))
  | sendWithoutTrader order hw => exact ha.settles hrefl (hway _ _ (by simp [hw]))

theorem engineStep_waits {event : EngineEvent} (h : engineStep s event = some s') {a : String × Stage}
    (ha : Waits s' a) : Waits s a := by
  by_cases hevent : event = .worker
  · subst hevent; exact (workerStep_step h).waits ha
  · refine ha.settles (laneEvent_evolves hevent h).1 ?_
    rintro orderId ⟨o, ho, hq⟩
    refine ⟨o, ho, hq.imp (fun hq => (laneEvent_quiet hevent h).2 ▸ hq) fun hq => ?_⟩
    rcases laneEvent_worker hevent h with hw | ⟨_, _, hw, _⟩ | ⟨_, _, hw, _⟩
    · exact hw.trans hq
    · rw [hq] at hw; cases hw
    · rw [hq] at hw; cases hw

/-- Every order that waits before the queue is in the hand of a call. -/
def waitingDuties : program.Duties (fun c a => sessionOutline.Valid c ∧ fresh c a = true) (String × Stage) where
  owed := Waits
  carries pc a := pc.stage? = some a
  resume c index pc answer s' pc' hcall hok h a ha := by
    obtain ⟨⟨hsession, hcalls⟩, hfresh⟩ := hok
    have hpc := hcalls index pc hcall
    cases callNext_step hsession hpc (lookup_of_fresh hfresh hcall) h with
    | submit hstep => exact hstep.waits hpc.refused ha
    | cancel hstep => exact Or.inr ⟨hstep.waits ha, by simp [CallPc.stage?]⟩
  environment c event s' _ h a ha := engineStep_waits h ha

/-! ## Orders that are past the queue -/

def endedState (l : OrderLifecycleState) : Bool := l == .rejected || l == .canceled

/-- The order was refused or cancelled. -/
def Ended (s : Shared) (orderId : String) : Prop :=
  ∃ e, s.oms.orders.lookup orderId = some e ∧ endedState e.lifecycleState = true

/-- An order that a call created and that is past sending was sent, or it has ended. -/
def Landed (s : Shared) : Prop :=
  ∀ call orderId, (call, orderId) ∈ creations s.log → ComeTo s orderId 3 →
    Ended s orderId ∨ orderId ∈ sentIds s.log

/-- An order that a call created gets past sending only by being sent, or it ends there. -/
def Lands (s s' : Shared) : Prop :=
  ∀ call orderId e e', (call, orderId) ∈ creations s.log → s.oms.orders.lookup orderId = some e →
    s'.oms.orders.lookup orderId = some e' → e.lifecycleState.rank < 3 → 3 ≤ e'.lifecycleState.rank →
    endedState e'.lifecycleState = true ∨ orderId ∈ sentIds s'.log

theorem endedState_terminal {l : OrderLifecycleState} (h : endedState l = true) : isTerminalLifecycle l = true := by
  cases l <;> simp_all [endedState, isTerminalLifecycle]

theorem Ended.change (h : Ended s orderId) (hc : Change s.oms s'.oms) : Ended s' orderId := by
  obtain ⟨e, he, hend⟩ := h
  obtain ⟨e', he', ha⟩ := hc.lookup he
  exact ⟨e', he', by rw [ha.terminal (endedState_terminal hend)]; exact hend⟩

theorem Lands.of_eq (h : s'.oms.orders = s.oms.orders) : Lands s s' := by
  intro _ orderId e e' _ he he' hlt hle
  rw [h, he] at he'
  cases he'
  exact absurd hle (not_le.mpr hlt)

theorem Lands.of_update {change : OrderEntry → ErrorCode × OrderEntry}
    (homs : s'.oms = (s.oms.update orderId change).2)
    (h : ∀ e, s.oms.orders.lookup orderId = some e → e.lifecycleState.rank < 3 →
      3 ≤ (change e).2.lifecycleState.rank →
      endedState (change e).2.lifecycleState = true ∨ orderId ∈ sentIds s'.log) : Lands s s' := by
  intro _ id e e' _ he he' hlt hle
  rw [homs, lookup_update] at he'
  split at he'
  case isTrue hid =>
    subst hid
    rw [he] at he'
    cases he'
    exact h e he hlt hle
  case isFalse =>
    rw [he] at he'
    cases he'
    exact absurd hle (not_le.mpr hlt)

theorem applyTransition_rank {target : OrderLifecycleState} (hlt : e.lifecycleState.rank < 3)
    (htarget : target.rank < 3 ∨ canTransition e.lifecycleState target = false) :
    (applyTransition e target).2.lifecycleState.rank < 3 := by
  rcases applyTransition_cases e target with ⟨hedge, h⟩ | ⟨_, h⟩
  · rw [h]
    exact htarget.resolve_right (by simp [hedge])
  · rw [h]; exact hlt

theorem Lands.recordSendResult {rc : ErrorCode} (homs : s'.oms = (s.oms.recordSendResult orderId rc).2)
    (h : ComeTo s orderId 3 ∨ orderId ∈ sentIds s'.log ∨ rc ≠ .success ∧ rc ≠ .timeout) : Lands s s' := by
  refine .of_update homs fun e he hlt hle => ?_
  rcases h with ⟨e₁, he₁, hthree⟩ | hsent | ⟨hrc, ht⟩
  · rw [he] at he₁
    cases he₁
    exact absurd hthree (not_le.mpr hlt)
  · exact Or.inr hsent
  · refine Or.inl ?_
    cases hl : e.lifecycleState <;> simp only [hl, OrderLifecycleState.rank] at hlt
    case prepared =>
      simp [sendResultEntry, hl, applyTransition, OrderLifecycleState.rank] at hle
    case emsQueued => rw [sendResultEntry_rejects hrc ht (Or.inl hl)]; rfl
    case sendPending => rw [sendResultEntry_rejects hrc ht (Or.inr hl)]; rfl
    all_goals exact absurd hlt (lt_irrefl 3)

theorem Lands.recordCancelResult {rc : ErrorCode} (homs : s'.oms = (s.oms.recordCancelResult orderId rc).2)
    (h : ComeTo s orderId 3) : Lands s s' := by
  refine .of_update homs fun e he hlt _ => ?_
  obtain ⟨e₁, he₁, hthree⟩ := h
  rw [he] at he₁
  cases he₁
  exact absurd hthree (not_le.mpr hlt)

theorem Landed.step (h : Landed s) (hc : Change s.oms s'.oms) (hsent : sentIds s.log ⊆ sentIds s'.log)
    (hcreated : ∀ call orderId, (call, orderId) ∈ creations s'.log →
      (call, orderId) ∈ creations s.log ∨ s.oms.orders.lookup orderId = none)
    (hlands : Lands s s') : Landed s' := by
  rintro call orderId hmem ⟨e', he', hthree⟩
  rcases hc.origin he' with ⟨e, he, _⟩ | ⟨_, request, rfl⟩
  · have hold := (hcreated call orderId hmem).resolve_right (by simp [he])
    by_cases hlt : e.lifecycleState.rank < 3
    · exact (hlands call orderId e e' hold he he' hlt hthree).imp_left fun hend => ⟨e', he', hend⟩
    · exact (h call orderId hold ⟨e, he, not_lt.mp hlt⟩).imp (·.change hc) fun hs => hsent hs
  · exact absurd hthree (by simp [newEntry, OrderLifecycleState.rank])

theorem SubmitStep.lands {call : Nat} {pc pc' : SubmitPc} (h : SubmitStep s call pc s' pc')
    (hpc : SessionCall s (.submit pc)) : Lands s s' := by
  cases h with
  | born request id hid hfresh =>
    intro _ orderId e e' _ he he' hlt hle
    have hne : orderId ≠ id := by
      rintro rfl
      rw [hfresh] at he
      cases he
    simp only [Shared.emit, lookup_born, if_neg hne, he, Option.some.injEq] at he'
    subst he'
    exact absurd hle (not_le.mpr hlt)
  | queued request order =>
    exact .of_update rfl fun e _ hlt hle =>
      absurd hle (not_le.mpr (applyTransition_rank hlt (Or.inl (by decide))))
  | failureRecorded request order rc => exact .recordSendResult rfl (Or.inr (Or.inr (hpc.refused rc rfl)))
  | released => exact .of_eq (by rw [oms_release])
  | _ => exact .of_eq rfl

theorem CancelStep.lands {pc pc' : CancelPc} (h : CancelStep s pc s' pc') (hpc : PastCall s (.cancel pc))
    (hguard : ∀ orderId order, pc = .cancelOrder orderId order →
      lifecycleIs s orderId (fun l => l != .prepared && l != .emsQueued) = true) : Lands s s' := by
  cases h with
  | cancelled orderId order | notCancelled orderId order =>
    refine .of_update rfl fun e he hlt hle => absurd hle (not_le.mpr (applyTransition_rank hlt (Or.inr ?_)))
    have := hguard orderId order rfl
    rw [lifecycleIs_eq he] at this
    cases hl : e.lifecycleState <;> simp_all [canTransition, OrderLifecycleState.rank]
  | failureRecorded orderId rc => exact .recordCancelResult rfl hpc
  | _ => exact .of_eq rfl

theorem WorkerStep.lands (h : WorkerStep s s') (hs : Past s) : Lands s s' := by
  have hworker := hs.worker
  unfold WorkerComeTo at hworker
  cases h with
  | cancelRecorded request rc hw => rw [hw] at hworker; exact .recordCancelResult rfl hworker
  | marked order | refused order =>
    exact .of_update rfl fun e _ hlt hle =>
      absurd hle (not_le.mpr (applyTransition_rank hlt (Or.inl (by decide))))
  | refusalRecorded order rc hw => rw [hw] at hworker; exact .recordSendResult rfl (Or.inl hworker)
  | recorded order hw => rw [hw] at hworker; exact .recordSendResult rfl (Or.inr hworker.2)
  | failureRecorded order rc hw => rw [hw] at hworker; exact .recordSendResult rfl (Or.inr hworker.2)
  | released => exact .of_eq (by rw [oms_release])
  | _ => exact .of_eq rfl

theorem lands_report {oms : OrderManager} {clientOrderId : UInt32} {report : String}
    (hr : reportsSent s report clientOrderId = true) (hlog : s'.log = s.log)
    (homs : ∀ id, s.oms.reportKey report clientOrderId ≠ some id → oms.orders.lookup id = s.oms.orders.lookup id)
    (h : s'.oms = oms) : Lands s s' := by
  intro call id e e' hmem he he' hlt hle
  subst h
  by_cases hkey : s.oms.reportKey report clientOrderId = some id
  · refine Or.inr (hlog ▸ ?_)
    simp only [reportsSent, hkey, Option.all_some, Bool.or_eq_true, List.all_eq_true, bne_iff_ne,
      List.contains_iff_mem] at hr
    exact hr.resolve_left fun hnone => hnone _ hmem rfl
  · rw [homs id hkey, he] at he'
    cases he'
    exact absurd hle (not_le.mpr hlt)

theorem laneEvent_lands {event : EngineEvent} (hevent : event ≠ .worker) (h : engineStep s event = some s')
    (horder : ∀ report, event = .orderReport report → reportsSent s report.orderId report.clientOrderId = true)
    (htrade : ∀ report, event = .tradeReport report → reportsSent s report.orderId report.clientOrderId = true) :
    Lands s s' := by
  cases event with
  | worker => exact absurd rfl hevent
  | traderReturns rc => obtain ⟨worker, rfl, _⟩ := traderReturns_eq h; exact .of_eq rfl
  | lane => exact .of_eq (by rw [(laneStep_step h).frame.1])
  | orderReport report =>
    obtain ⟨_, _, rfl⟩ := orderReport_eq h
    exact lands_report (horder report rfl) rfl
      (fun id hkey => by rw [lookup_applyOrderReport, if_neg hkey]) rfl
  | tradeReport report =>
    obtain ⟨_, _, rfl⟩ := tradeReport_eq h
    exact lands_report (htrade report rfl) rfl
      (fun id hkey => by rw [lookup_applyTradeReport, if_neg fun hk => hkey hk.2]) rfl

theorem WorkerStep.sentIds_subset (h : WorkerStep s s') : sentIds s.log ⊆ sentIds s'.log := by
  cases h with
  | sent => exact List.subset_cons_self _ _
  | released orderId =>
    rw [sentIds, sentIds, (unsent_release { s with worker := .idle } orderId .emsEnqueueFailed).sends]
    exact List.Subset.refl _
  | _ => exact List.Subset.refl _

theorem step_landed {c c' : System} {a : Action} (h : Landed c.shared) (hv : sessionOutline.Valid c)
    (hpast : pastOutline.Valid c) (hguard : accountedGuard c a = true) (hstep : step c a = some c') :
    Landed c'.shared := by
  cases a with
  | start call => cases hstep; exact h
  | resume index answer =>
    obtain ⟨pc, pc', hpc, hnext, _⟩ := Calls.Program.step_resume hstep
    have hfresh := lookup_of_fresh (venueGuard_fresh (accountedGuard_venue hguard)) hpc
    have hcall := callNext_step hv.1 (hv.2 index pc hpc) hfresh hnext
    refine h.step hcall.quiet.change hcall.quiet.sentIds_subset
      (fun call orderId hmem => (hcall.creates hfresh hmem).imp_right (·.2)) ?_
    cases hcall with
    | submit hstep => exact hstep.lands (hv.2 index _ hpc)
    | cancel hstep =>
      refine hstep.lands (hpast.2 index _ hpc) fun orderId order heq => ?_
      subst heq
      simpa [accountedGuard, hpc] using (Bool.and_elim_right hguard)
  | environment event =>
    obtain ⟨hnext, _⟩ := Calls.Program.step_environment hstep
    have hcreated : ∀ call orderId, (call, orderId) ∈ creations c'.shared.log →
        (call, orderId) ∈ creations c.shared.log ∨ c.shared.oms.orders.lookup orderId = none :=
      fun call orderId hmem => Or.inl (engineStep_creations hnext ▸ hmem)
    by_cases hevent : event = .worker
    · subst hevent
      have hworker := workerStep_step hnext
      exact h.step hworker.change hworker.sentIds_subset hcreated (hworker.lands hpast.1)
    · have hreports := Bool.and_elim_right (accountedGuard_venue hguard)
      refine h.step (engineStep_change hnext) (laneEvent_quiet hevent hnext).1.sentIds_subset hcreated
        (laneEvent_lands hevent hnext ?_ ?_)
      · rintro report rfl; exact hreports
      · rintro report rfl; exact hreports

/-! ## What a call that fails leaves behind -/

/-- The order that the call with this number created, where the call stands. -/
def FailedCall (s : Shared) (call : Nat) : CallPc → Prop
  | .submit (.lifecycle _ order) => ∀ orderId, (call, orderId) ∈ creations s.log → orderId = order.orderId
  | .submit (.markQueued _ order) => ∀ orderId, (call, orderId) ∈ creations s.log → orderId = order.orderId
  | .submit (.enqueue _ order) => ∀ orderId, (call, orderId) ∈ creations s.log → orderId = order.orderId
  | .submit (.recordFailure _ order _) => ∀ orderId, (call, orderId) ∈ creations s.log → orderId = order.orderId
  | .submit (.release _ _ _) => ∀ orderId, (call, orderId) ∈ creations s.log → Ended s orderId
  | .submit (.done _ rc) => rc ≠ .success → ∀ orderId, (call, orderId) ∈ creations s.log → Ended s orderId
  | _ => ∀ orderId, (call, orderId) ∉ creations s.log

/-- What the others leave to the call with this number. -/
structure Leaves (call : Nat) (s s' : Shared) : Prop where
  change : Change s.oms s'.oms
  created : ∀ orderId, (call, orderId) ∈ creations s'.log → (call, orderId) ∈ creations s.log

theorem FailedCall.stable {call : Nat} {pc : CallPc} (h : FailedCall s call pc) (hs : Leaves call s s') :
    FailedCall s' call pc := by
  cases pc with
  | cancel pc => exact fun orderId hmem => h orderId (hs.created orderId hmem)
  | submit pc =>
    cases pc with
    | release => exact fun orderId hmem => (h orderId (hs.created orderId hmem)).change hs.change
    | done => exact fun hrc orderId hmem => (h hrc orderId (hs.created orderId hmem)).change hs.change
    | _ => exact fun orderId hmem => h orderId (hs.created orderId hmem)

theorem ended_recordSendResult {rc : ErrorCode} (he : s.oms.orders.lookup orderId = some e)
    (homs : s'.oms = (s.oms.recordSendResult orderId rc).2) (hrc : rc ≠ .success) (ht : rc ≠ .timeout)
    (hl : e.lifecycleState = .emsQueued ∨ e.lifecycleState = .sendPending ∨ endedState e.lifecycleState = true) :
    Ended s' orderId := by
  refine ⟨(sendResultEntry e rc).2, ?_, ?_⟩
  · rw [homs, recordSendResult, lookup_update, if_pos rfl, he]
    rfl
  · rcases hl with hl | hl | hl
    · rw [sendResultEntry_rejects hrc ht (Or.inl hl)]; rfl
    · rw [sendResultEntry_rejects hrc ht (Or.inr hl)]; rfl
    · rw [(sendResultEntry_settles e rc).terminal (endedState_terminal hl)]; exact hl

theorem SubmitStep.failedCall {call : Nat} {pc pc' : SubmitPc} (h : SubmitStep s call pc s' pc')
    (hpc : FailedCall s call (.submit pc)) (hcall : SessionCall s (.submit pc))
    (hfresh : ∀ request orderId, pc = .create request orderId → s.oms.orders.lookup orderId = none)
    (hmark : ∀ request order, pc = .markQueued request order → (call, order.orderId) ∈ creations s.log →
      lifecycleIs s order.orderId
        (fun l => l == .prepared || l == .emsQueued || l == .rejected || l == .canceled) = true)
    (hrecord : ∀ request order rc, pc = .recordFailure request order rc →
      (call, order.orderId) ∈ creations s.log → lifecycleIs s order.orderId
        (fun l => l == .emsQueued || l == .sendPending || l == .rejected || l == .canceled) = true) :
    FailedCall s' call (.submit pc') := by
  have hchange := h.quiet.change
  have hcreations := h.creates hfresh
  have hsame : creations s'.log = creations s.log → ∀ orderId,
      (call, orderId) ∈ creations s'.log → (call, orderId) ∈ creations s.log :=
    fun heq orderId hmem => heq ▸ hmem
  have hkept : (∀ request orderId, pc ≠ .create request orderId) → ∀ orderId,
      (call, orderId) ∈ creations s'.log → (call, orderId) ∈ creations s.log := fun hne =>
    hsame (hcreations.resolve_right fun ⟨request, orderId, hcreate, _⟩ => hne request orderId hcreate)
  cases h with
  | born request id hid hnone =>
    rcases hcreations with heq | ⟨_, id', hpc', _, _, heq⟩
    · exact fun orderId hmem => absurd (hsame heq orderId hmem) (hpc orderId)
    · cases hpc'
      intro orderId hmem
      rw [heq] at hmem
      rcases List.mem_cons.mp hmem with hmem | hmem
      · cases hmem; rfl
      · exact absurd hmem (hpc orderId)
  | existing request id e he =>
    have heq := hcreations.resolve_right (by
      rintro ⟨_, _, hpc', hnone, hlc, _⟩
      cases hpc'
      have hid : e.order.orderId = id := congrArg Order.orderId (SubmitPc.lifecycle.inj hlc).2
      rw [hid, hnone] at he
      cases he)
    exact fun orderId hmem => absurd (hsame heq orderId hmem) (hpc orderId)
  | notQueued request order e he hl hl' =>
    intro orderId hmem
    obtain rfl := hpc orderId hmem
    have := hmark request order rfl hmem
    rw [lifecycleIs_eq he] at this
    exact ⟨e, he, by simpa [hl, hl', endedState] using this⟩
  | failureRecorded request order rc =>
    intro orderId hmem
    obtain rfl := hpc orderId hmem
    obtain ⟨e, he, _⟩ := hcall.carries order rfl
    obtain ⟨hrc, ht⟩ := hcall.refused rc rfl
    have := hrecord request order rc rfl hmem
    simp only [lifecycleIs_eq he, Bool.or_eq_true, beq_iff_eq] at this
    refine ended_recordSendResult he rfl hrc ht ?_
    simpa [endedState, or_assoc] using this
  | released request id rc =>
    exact fun _ orderId hmem => (hpc orderId (hkept (by simp) orderId hmem)).change hchange
  | known | pastQueue | enqueued => exact fun hrc => absurd rfl hrc
  | uncompliant request rc =>
    exact fun _ orderId hmem => absurd (hkept (by simp) orderId hmem) (hpc orderId)
  | unaffordable pc request rc hrc hpc' =>
    have hne : ∀ request' id, pc ≠ .create request' id := by
      rintro _ _ rfl
      simp at hpc'
    refine fun _ orderId hmem => absurd (hkept hne orderId hmem) ?_
    rcases hpc' with rfl | ⟨_, rfl⟩ | ⟨_, rfl⟩ <;> exact hpc orderId
  | reserveRefused request id answer rc | queryFailed request id answer =>
    exact fun _ orderId hmem => absurd (hkept (by simp) orderId hmem) (hpc orderId)
  | allocated request pc' heq' =>
    subst heq'
    split <;> exact hpc
  | _ =>
    exact fun orderId hmem => hpc orderId (hkept (by simp) orderId hmem)

/-- Calls that have not begun have created nothing. -/
def failedOutline :
    program.Outline fun c a => (sessionOutline.Valid c ∧ Numbered c) ∧ accountedGuard c a = true where
  inv _ := True
  holds := FailedCall
  rely := Leaves
  start c call _ hok := by
    have hnone : ∀ orderId, (c.calls.length, orderId) ∉ creations c.shared.log :=
      fun orderId hmem => absurd (hok.1.2 _ orderId hmem) (lt_irrefl _)
    cases call <;> exact hnone
  resume c index pc answer s' pc' _ hpc hcall hok h := by
    obtain ⟨⟨⟨hsession, hcalls⟩, _⟩, hguard⟩ := hok
    have hfresh := lookup_of_fresh (venueGuard_fresh (accountedGuard_venue hguard)) hcall
    have hstep := callNext_step hsession (hcalls index pc hcall) hfresh h
    have hguard := Bool.and_elim_right hguard
    refine ⟨trivial, ?_, fun other hne => ⟨hstep.quiet.change, fun orderId hmem => ?_⟩⟩
    · cases hstep with
      | cancel hstep => exact fun orderId hmem => hpc orderId (hstep.log_eq ▸ hmem)
      | submit hstep =>
        refine hstep.failedCall hpc (hcalls index _ hcall)
          (fun request orderId hpc => hfresh orderId (by rw [hpc]; rfl)) ?_ ?_
        · rintro request order rfl hmem
          simpa [hcall, hmem] using hguard
        · rintro request order rc rfl hmem
          simpa [hcall, hmem] using hguard
    · exact (hstep.creates hfresh hmem).resolve_right fun h => hne h.1
  environment c event s' _ _ h :=
    ⟨trivial, fun index => ⟨engineStep_change h, fun orderId hmem => engineStep_creations h ▸ hmem⟩⟩
  stable _ _ _ _ h hpc := hpc.stable h

/-! ## The theorem -/

/-- A `Submit` has the order in its hand. -/
def InProgress (c : System) (orderId : String) : Prop :=
  ∃ pc ∈ c.calls, ∃ order, pc.order? = some order ∧ order.orderId = orderId

/-- A send item for the order is queued, or the worker works on one. -/
def Pending (s : Shared) (orderId : String) : Prop :=
  ∃ order, order.orderId = orderId ∧ (.send order ∈ s.ems.pendingItems ∨ s.worker.order? = some order)

/-- The order has ended without a fill and counts as active no more. -/
def Inactive (s : Shared) (orderId : String) : Prop :=
  ∃ e, s.oms.orders.lookup orderId = some e ∧
    (e.lifecycleState = .rejected ∨ e.lifecycleState = .canceled) ∧ e ∉ s.oms.activeEntries

theorem Ended.inactive (h : Ended s orderId) : Inactive s orderId := by
  obtain ⟨e, he, hend⟩ := h
  refine ⟨e, he, by simpa [endedState] using hend, ?_⟩
  simp [activeEntries, endedState_terminal hend]

theorem CallPc.order?_of_stage? {pc : CallPc} {stage : Stage} (h : pc.stage? = some (orderId, stage)) :
    ∃ order, pc.order? = some order ∧ order.orderId = orderId := by
  cases pc with
  | cancel pc => cases h
  | submit pc =>
    cases pc <;> simp_all [CallPc.stage?, CallPc.order?]

theorem WorkerPc.order?_of_inFlight? {pc : WorkerPc} (h : pc.inFlight? = some orderId) :
    ∃ order, order.orderId = orderId ∧ pc.order? = some order := by
  cases pc <;> simp_all [WorkerPc.inFlight?, WorkerPc.order?]

/-- Where the duties are covered, an order that has not ended is on its way. -/
theorem accounted {c : System} (hwaits : waitingDuties.Covered c) (honce : Once c.shared) (hlanded : Landed c.shared)
    {call : Nat} (hmem : (call, orderId) ∈ creations c.shared.log)
    (he : c.shared.oms.orders.lookup orderId = some e) (hl : isTerminalLifecycle e.lifecycleState = false) :
    InProgress c orderId ∨ Pending c.shared orderId ∨ orderId ∈ sentIds c.shared.log := by
  have hstage : ∀ stage, Waits c.shared (orderId, stage) → InProgress c orderId := by
    intro stage hw
    obtain ⟨pc, hpc, hcarry⟩ := hwaits _ hw
    exact ⟨pc, hpc, CallPc.order?_of_stage? hcarry⟩
  have hlookup : ∀ l, e.lifecycleState = l → c.shared.oms.getLifecycleState orderId = some l :=
    fun l hl => getLifecycleState_eq_some.mpr ⟨e, he, hl⟩
  by_cases hthree : 3 ≤ e.lifecycleState.rank
  · refine Or.inr (Or.inr ((hlanded call orderId hmem ⟨e, he, hthree⟩).resolve_left ?_))
    rintro ⟨e₁, he₁, hend⟩
    rw [he] at he₁
    cases he₁
    rw [endedState_terminal hend] at hl
    cases hl
  · cases hstate : e.lifecycleState <;> simp only [hstate, OrderLifecycleState.rank] at hthree
    case prepared => exact Or.inl (hstage .prepared (hlookup _ hstate))
    case emsQueued =>
      by_cases hway : OnTheWay c.shared orderId
      · obtain ⟨order, ho, hq⟩ := hway
        exact Or.inr (Or.inl ⟨order, ho, hq.imp_right fun hw => by simp [hw, WorkerPc.order?]⟩)
      · exact Or.inl (hstage .emsQueued ⟨hlookup _ hstate, hway⟩)
    case sendPending =>
      obtain ⟨order, ho, hw⟩ := WorkerPc.order?_of_inFlight? (honce.pending orderId e he hstate)
      exact Or.inr (Or.inl ⟨order, ho, Or.inr hw⟩)
    all_goals exact absurd (le_refl 3) hthree

theorem Initial.waits {c : System} (h : Initial c) : waitingDuties.Covered c := by
  rintro ⟨orderId, stage⟩ hw
  have hstate : ∃ l, l.rank < 3 ∧ c.shared.oms.getLifecycleState orderId = some l := by
    cases stage with
    | prepared => exact ⟨_, by decide, hw⟩
    | emsQueued => exact ⟨_, by decide, hw.1⟩
  obtain ⟨l, hlt, hl⟩ := hstate
  obtain ⟨e, he, rfl⟩ := getLifecycleState_eq_some.mp hl
  exact absurd hlt (by rw [h.oms.started.pastSending orderId e he]; exact lt_irrefl 3)

/-- In a run whose steps all meet the guard, every order that a `Submit` created and that has not
ended is in the hand of a `Submit`, queued, with the worker, or sent. An order that was never sent
has ended when the worker drops it, and so has the order of a `Submit` that returned an error. -/
theorem created_accounted {c c' : System} (hinit : Initial c)
    (h : Runs.Reaches step (fun c a => accountedGuard c a = true) c c') {call : Nat} {orderId : String}
    (hmem : (call, orderId) ∈ creations c'.shared.log) :
    (∀ e, c'.shared.oms.orders.lookup orderId = some e → isTerminalLifecycle e.lifecycleState = false →
      InProgress c' orderId ∨ Pending c'.shared orderId ∨ orderId ∈ sentIds c'.shared.log) ∧
    ((c'.shared.worker = .releasing orderId ∨ ∃ order rc, c'.shared.worker = .refused order rc ∧
        order.orderId = orderId) →
      orderId ∉ sentIds c'.shared.log → Inactive c'.shared orderId) ∧
    ∀ request rc, c'.calls[call]? = some (.submit (.done request rc)) → rc ≠ .success →
      Inactive c'.shared orderId := by
  have hfresh : ∀ c a, accountedGuard c a = true → fresh c a = true :=
    fun c a ha => venueGuard_fresh (accountedGuard_venue ha)
  have hrun := hinit.sessionPast hfresh h
  have hpast := (pastOutline.valid_of_reaches (hrun.mono fun c a ha => ⟨ha.1.1, hfresh c a ha.2⟩) hinit.past).1
  have honce : Once c'.shared := hrun.invariant hinit.once
    fun _ _ _ ho ha hs => step_once ho ha.1.1 (hfresh _ _ ha.2) hs
  have hlanded : Landed c'.shared := hrun.invariant (by simp [Landed, hinit.log, creations])
    fun _ _ _ hl ha hs => step_landed hl ha.1.1 ha.1.2 ha.2 hs
  have hwaits := waitingDuties.covered_of_reaches
    (hrun.mono fun c a ha => ⟨ha.1.1, hfresh c a ha.2⟩) hinit.waits
  refine ⟨fun e he hl => accounted hwaits honce hlanded hmem he hl, fun hw hsent => ?_, fun request rc hcall hrc => ?_⟩
  · have hworker := hpast.worker
    have hthree : ComeTo c'.shared orderId 3 := by
      unfold WorkerComeTo at hworker
      rcases hw with hw | ⟨order, rc, hw, rfl⟩ <;> rwa [hw] at hworker
    exact ((hlanded call orderId hmem hthree).resolve_right hsent).inactive
  · have hnumbered : Numbered c := by simp [Numbered, hinit.log, creations]
    have hrun' := hrun.alongside hnumbered
      fun _ _ _ hn ha hs => step_numbered hn ha.1.1 (hfresh _ _ ha.2) hs
    have hvalid := failedOutline.valid_of_reaches (hrun'.mono fun c a ha => ⟨⟨ha.2.1.1, ha.1⟩, ha.2.2⟩)
      ⟨trivial, by simp [hinit.calls]⟩
    exact (hvalid.2 call _ hcall hrc orderId hmem).inactive

/-- A `Submit` that the queue refuses leaves a rejected order. -/
theorem created_accounted_refused :
    ∃ c', Runs.Reaches step (fun c a => accountedGuard c a = true) withoutTrader c' ∧
      c'.calls[0]? = some (.submit (.done limitBuy .notInitialized)) ∧ Inactive c'.shared "t-e-1-1" := by
  have hrun : ∃ c' ∈ Runs.execWhile step (fun c a => accountedGuard c a = true) withoutTrader
      (submitAlone 0 limitBuy ++ List.replicate 2 (.resume 0 .silent)),
      (0, "t-e-1-1") ∈ creations c'.shared.log ∧
        c'.calls[0]? = some (.submit (.done limitBuy .notInitialized)) := by decide +kernel
  obtain ⟨c', hc', hmem, hcall⟩ := hrun
  have hreach := Runs.reaches_of_execWhile _ hc'
  exact ⟨c', hreach, hcall,
    (created_accounted withoutTrader_initial hreach hmem).2.2 limitBuy .notInitialized hcall (by decide)⟩

/-- A cancel overtakes the order in the queue, and the trader refuses to cancel what it never got. -/
def cancelOvertakes : List Action :=
  submitAlone 0 limitBuy ++
    .start (.cancel "t-e-1-1") :: List.replicate 3 (.resume 1 .silent) ++
    .environment .worker :: .environment (.traderReturns .notFound) ::
      List.replicate 5 (.environment .worker)

/-- The order stays in `working`, and nobody will ever send it. -/
theorem created_forgotten : ¬ ∀ c c' : System, Initial c →
    Runs.Reaches step (fun c a => venueGuard c a = true) c c' → ∀ call orderId e,
      (call, orderId) ∈ creations c'.shared.log → c'.shared.oms.orders.lookup orderId = some e →
      isTerminalLifecycle e.lifecycleState = false →
      InProgress c' orderId ∨ Pending c'.shared orderId ∨ orderId ∈ sentIds c'.shared.log := by
  intro hall
  have hrun : ∃ c' ∈ Runs.execWhile step (fun c a => venueGuard c a = true) opening cancelOvertakes,
      (0, "t-e-1-1") ∈ creations c'.shared.log ∧
        c'.shared.oms.getLifecycleState "t-e-1-1" = some .working ∧
        (∀ pc ∈ c'.calls, pc.order? = none) ∧ c'.shared.ems.pendingItems = [] ∧
        c'.shared.worker = .idle ∧ sentIds c'.shared.log = [] := by decide +kernel
  obtain ⟨c', hc', hmem, hstate, hcalls, hqueue, hworker, hsent⟩ := hrun
  obtain ⟨e, he, hl⟩ := getLifecycleState_eq_some.mp hstate
  rcases hall opening c' opening_initial (Runs.reaches_of_execWhile _ hc') 0 "t-e-1-1" e hmem he
      (by rw [hl]; rfl) with ⟨pc, hpc, order, ho, _⟩ | ⟨order, _, ho⟩ | hin
  · rw [hcalls pc hpc] at ho; cases ho
  · simp [hqueue, hworker, WorkerPc.order?] at ho
  · simp [hsent] at hin

end Qtrade.Trading
