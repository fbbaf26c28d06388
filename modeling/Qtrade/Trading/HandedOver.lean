import Qtrade.Trading.Created
import Qtrade.Trading.Past

/-!
# A successful `Submit` has handed its order over

`Submit` returns success when `Enqueue` accepts the order, but also when it finds one that another
call has created, and it passes on the code of the reservation query. The guard says when the
order that is found has really been handed over.
-/

namespace Qtrade.Trading

open Qtrade.Ems (WorkItem ExecutionManager)
open Qtrade.Oms
open Qtrade.Oms.OrderManager

/-! ## The guard -/

/-- `Enqueue` accepted the order, and it had not been rejected before. -/
def handedOver (log : List Event) (orderId : String) : Bool :=
  log.any fun
    | .enqueue order .success lifecycle => order.orderId == orderId && lifecycle != some .rejected
    | _ => false

def enqueueRefused (log : List Event) (orderId : String) : Bool :=
  log.any fun
    | .enqueue order answer _ => order.orderId == orderId && answer != .success
    | _ => false

/-- The order that a `Submit` is about to give to `Enqueue`. -/
def CallPc.enqueues? : CallPc → Option String
  | .submit (.enqueue _ order) => some order.orderId
  | _ => none

/-- The order whose lifecycle a `Submit` is about to look at. -/
def CallPc.tests? : CallPc → Option String
  | .submit (.lifecycle _ order) => some order.orderId
  | _ => none

/-- `Enqueue` is still to be called for the order, or has refused it, and has not accepted it. -/
def outstanding (c : System) (orderId : String) : Bool :=
  !handedOver c.shared.log orderId &&
    (c.calls.any (·.enqueues? == some orderId) || enqueueRefused c.shared.log orderId)

/-- The order is not `prepared`, or nobody will take it for one that was handed over. -/
def undisturbed (c : System) (orderId : String) : Bool :=
  (c.shared.oms.orders.lookup orderId).all fun e =>
    e.lifecycleState != .prepared ||
      (e.order.clientOrderId == 0 && c.calls.all (·.tests? != some orderId))

def handoverGuard (c : System) (a : Action) : Bool :=
  fresh c a &&
    match a with
    | .resume index answer =>
      match c.calls[index]?, answer with
      | some (.submit (.duplicate request)), _ =>
        request.clientOrderId == 0 ||
          (c.shared.oms.getOrderByClientId request.clientOrderId).all fun order =>
            lifecycleIs c.shared order.orderId (· != .prepared) && !outstanding c order.orderId
      | some (.submit (.query _ _)), .queried answer =>
        answer.errorCode != .success || Shared.queryReserved answer
      | some (.submit (.lifecycle _ order)), _ =>
        lifecycleIs c.shared order.orderId (· == .prepared) || !outstanding c order.orderId
      | some (.submit (.enqueue _ order)), _ =>
        c.shared.ems.admits != .success || handedOver c.shared.log order.orderId ||
          lifecycleIs c.shared order.orderId (· != .rejected)
      | some (.cancel (.cancelOrder orderId _)), _ => undisturbed c orderId
      | _, _ => true
    | .environment (.orderReport report) =>
      (c.shared.oms.reportKey report.orderId report.clientOrderId).all (undisturbed c)
    | .environment (.tradeReport report) =>
      (c.shared.oms.reportKey report.orderId report.clientOrderId).all (undisturbed c)
    | _ => true

theorem handoverGuard_fresh {c : System} {a : Action} (h : handoverGuard c a = true) : fresh c a = true :=
  Bool.and_elim_left h

variable {s s' : Shared} {orderId : String} {e e' : OrderEntry}

theorem any_mono {log log' : List Event} {p : Event → Bool} (hlog : log <:+ log') (h : log.any p = true) :
    log'.any p = true := by
  obtain ⟨event, hmem, hp⟩ := List.any_eq_true.mp h
  exact List.any_eq_true.mpr ⟨event, hlog.mem hmem, hp⟩

/-! ## Orders that were not handed over -/

/-- Why an order may not have been handed over. -/
def Excused (c : System) (orderId : String) (e : OrderEntry) : Prop :=
  e.lifecycleState = .prepared ∨ (∃ pc ∈ c.calls, pc.enqueues? = some orderId) ∨
    enqueueRefused c.shared.log orderId = true ∨
    (e.order.clientOrderId = 0 ∧ ∀ pc ∈ c.calls, pc.tests? ≠ some orderId)

/-- Every order was there at the start, or it was handed over, or it has an excuse. -/
def Delivered (adopted : String → Prop) (c : System) : Prop :=
  ∀ orderId e, c.shared.oms.orders.lookup orderId = some e → ¬adopted orderId →
    handedOver c.shared.log orderId = true ∨ Excused c orderId e

theorem undisturbed_prepared {c : System} (h : undisturbed c orderId = true)
    (he : c.shared.oms.orders.lookup orderId = some e) (hl : e.lifecycleState = .prepared) :
    e.order.clientOrderId = 0 ∧ ∀ pc ∈ c.calls, pc.tests? ≠ some orderId := by
  simpa [undisturbed, he, hl] using h

theorem lookup_of_update {oms : OrderManager} {id : String} {change : OrderEntry → ErrorCode × OrderEntry}
    (he : oms.orders.lookup orderId = some e) (he' : (oms.update id change).2.orders.lookup orderId = some e') :
    e' = e ∨ orderId = id ∧ e' = (change e).2 := by
  rw [lookup_update] at he'
  split at he'
  case isTrue hid =>
    subst hid
    rw [he] at he'
    cases he'
    exact Or.inr ⟨rfl, rfl⟩
  case isFalse =>
    rw [he] at he'
    cases he'
    exact Or.inl rfl

theorem sendResultEntry_prepared (rc : ErrorCode) (hl : e.lifecycleState = .prepared) :
    (sendResultEntry e rc).2.lifecycleState = .prepared := by
  simp [sendResultEntry, hl, applyTransition]

theorem not_prepared_of_comeTo {n : Nat} (h : ComeTo s orderId (n + 1))
    (he : s.oms.orders.lookup orderId = some e) : e.lifecycleState ≠ .prepared := by
  intro hl
  obtain ⟨e₁, he₁, hn⟩ := h
  rw [he] at he₁
  cases he₁
  simp [hl, OrderLifecycleState.rank] at hn

theorem SubmitStep.keepsPrepared {call : Nat} {pc pc' : SubmitPc} (h : SubmitStep s call pc s' pc')
    (he : s.oms.orders.lookup orderId = some e) (he' : s'.oms.orders.lookup orderId = some e')
    (hl : e.lifecycleState = .prepared) :
    e'.lifecycleState = .prepared ∨ (CallPc.submit pc').enqueues? = some orderId := by
  cases h with
  | queued request order =>
    rcases lookup_of_update he he' with rfl | ⟨rfl, _⟩
    · exact Or.inl hl
    · exact Or.inr rfl
  | failureRecorded request order rc =>
    rcases lookup_of_update he he' with rfl | ⟨_, rfl⟩
    · exact Or.inl hl
    · exact Or.inl (sendResultEntry_prepared rc hl)
  | born request id hid hfresh =>
    have hne : orderId ≠ id := by
      rintro rfl
      rw [hfresh] at he
      cases he
    simp only [Shared.emit, lookup_born, if_neg hne, he, Option.some.injEq] at he'
    exact Or.inl (he' ▸ hl)
  | released =>
    rw [oms_release, he] at he'
    cases he'
    exact Or.inl hl
  | allocated =>
    obtain rfl : e' = e := Option.some.inj (he'.symm.trans he)
    exact Or.inl hl
  | _ =>
    obtain rfl : e' = e := Option.some.inj (he'.symm.trans he)
    exact Or.inl hl

theorem CancelStep.keepsPrepared {pc pc' : CancelPc} (h : CancelStep s pc s' pc')
    (hpc : PastCall s (.cancel pc)) (he : s.oms.orders.lookup orderId = some e)
    (he' : s'.oms.orders.lookup orderId = some e') (hl : e.lifecycleState = .prepared) :
    e'.lifecycleState = .prepared ∨ ∃ order, pc = .cancelOrder orderId order := by
  cases h with
  | cancelled id order | notCancelled id order =>
    rcases lookup_of_update he he' with rfl | ⟨rfl, _⟩
    · exact Or.inl hl
    · exact Or.inr ⟨order, rfl⟩
  | failureRecorded id rc =>
    rcases lookup_of_update he he' with rfl | ⟨rfl, _⟩
    · exact Or.inl hl
    · exact absurd hl (not_prepared_of_comeTo hpc he)
  | _ =>
    obtain rfl : e' = e := Option.some.inj (he'.symm.trans he)
    exact Or.inl hl

theorem WorkerStep.keepsPrepared (h : WorkerStep s s') (hs : Past s)
    (he : s.oms.orders.lookup orderId = some e) (he' : s'.oms.orders.lookup orderId = some e')
    (hl : e.lifecycleState = .prepared) : e'.lifecycleState = .prepared := by
  have hworker := hs.worker
  unfold WorkerComeTo at hworker
  cases h with
  | cancelRecorded request rc hw =>
    rw [hw] at hworker
    rcases lookup_of_update he he' with rfl | ⟨rfl, _⟩
    · exact hl
    · exact absurd hl (not_prepared_of_comeTo hworker he)
  | marked order | refused order =>
    rcases lookup_of_update he he' with rfl | ⟨_, rfl⟩
    · exact hl
    · simp [applyTransition, hl, canTransition]
  | refusalRecorded order rc | failureRecorded order rc =>
    rcases lookup_of_update he he' with rfl | ⟨_, rfl⟩
    · exact hl
    · exact sendResultEntry_prepared rc hl
  | recorded order =>
    rcases lookup_of_update he he' with rfl | ⟨_, rfl⟩
    · exact hl
    · exact sendResultEntry_prepared .success hl
  | released =>
    rw [oms_release, he] at he'
    cases he'
    exact hl
  | _ =>
    obtain rfl : e' = e := Option.some.inj (he'.symm.trans he)
    exact hl

theorem laneEvent_keepsPrepared {c : System} {event : EngineEvent} (hevent : event ≠ .worker)
    (h : engineStep c.shared event = some s') (hguard : handoverGuard c (.environment event) = true)
    (he : c.shared.oms.orders.lookup orderId = some e) (he' : s'.oms.orders.lookup orderId = some e')
    (hl : e.lifecycleState = .prepared) :
    e'.lifecycleState = .prepared ∨
      (e.order.clientOrderId = 0 ∧ ∀ pc ∈ c.calls, pc.tests? ≠ some orderId) := by
  have hguard := Bool.and_elim_right hguard
  have hreport : ∀ {oms : OrderManager} {reportId : String} {clientOrderId : UInt32},
      (c.shared.oms.reportKey reportId clientOrderId).all (undisturbed c) = true →
      (c.shared.oms.reportKey reportId clientOrderId ≠ some orderId →
        oms.orders.lookup orderId = c.shared.oms.orders.lookup orderId) →
      oms.orders.lookup orderId = some e' → e'.lifecycleState = .prepared ∨
        (e.order.clientOrderId = 0 ∧ ∀ pc ∈ c.calls, pc.tests? ≠ some orderId) := by
    intro oms reportId clientOrderId hkeys hother hnew
    by_cases hkey : c.shared.oms.reportKey reportId clientOrderId = some orderId
    · rw [hkey] at hkeys
      exact Or.inr (undisturbed_prepared hkeys he hl)
    · rw [hother hkey, he] at hnew
      cases hnew
      exact Or.inl hl
  cases event with
  | worker => exact absurd rfl hevent
  | traderReturns rc =>
    obtain ⟨worker, rfl, _⟩ := traderReturns_eq h
    obtain rfl : e' = e := Option.some.inj (he'.symm.trans he)
    exact Or.inl hl
  | lane =>
    rw [(laneStep_step h).frame.1, he] at he'
    cases he'
    exact Or.inl hl
  | orderReport report =>
    obtain ⟨_, _, rfl⟩ := orderReport_eq h
    exact hreport hguard (fun hkey => by rw [lookup_applyOrderReport, if_neg hkey]) he'
  | tradeReport report =>
    obtain ⟨_, _, rfl⟩ := tradeReport_eq h
    exact hreport hguard (fun hkey => by rw [lookup_applyTradeReport, if_neg fun hk => hkey hk.2]) he'

theorem SubmitStep.enqueues {call : Nat} {pc pc' : SubmitPc} (h : SubmitStep s call pc s' pc')
    (hpc : (CallPc.submit pc).enqueues? = some orderId) (he : s.oms.orders.lookup orderId = some e)
    (hguard : s.ems.admits = .success → handedOver s.log orderId = false → e.lifecycleState ≠ .rejected) :
    handedOver s'.log orderId = true ∨ enqueueRefused s'.log orderId = true := by
  cases h with
  | enqueued request order hadmits =>
    cases hpc
    by_cases hbefore : handedOver s.log order.orderId = true
    · exact Or.inl (any_mono (List.suffix_cons _ _) hbefore)
    · have := hguard hadmits (by simpa using hbefore)
      simp [handedOver, Shared.emit, getLifecycleState, he, this]
  | notEnqueued request order hadmits =>
    cases hpc
    simp [enqueueRefused, Shared.emit, hadmits]
  | unaffordable pc request rc hrc hpc' => rcases hpc' with rfl | ⟨_, rfl⟩ | ⟨_, rfl⟩ <;> cases hpc
  | _ => cases hpc

theorem SubmitStep.tests {call : Nat} {pc pc' : SubmitPc} (h : SubmitStep s call pc s' pc')
    (hpc : (CallPc.submit pc').tests? = some orderId) (he : s.oms.orders.lookup orderId = some e) :
    e.order.clientOrderId ≠ 0 := by
  cases h with
  | existing request id e₁ he₁ hc hce =>
    cases hpc
    rw [he₁] at he
    cases he
    rw [hce]
    exact hc
  | born request id hid hfresh =>
    cases hpc
    rw [show (newEntry request id).order.orderId = id from rfl, hfresh] at he
    cases he
  | allocated request pc' heq => subst heq; split at hpc <;> cases hpc
  | _ => cases hpc

theorem Delivered.call {adopted : String → Prop} {c c' : System} (h : Delivered adopted c) {index : Nat}
    {pc pc' : CallPc} (hs : Follows c.shared c'.shared) (hcall : c.calls[index]? = some pc)
    (hcalls : c'.calls = c.calls.set index pc')
    (hprepared : ∀ orderId e e', c.shared.oms.orders.lookup orderId = some e →
      c'.shared.oms.orders.lookup orderId = some e' → e.lifecycleState = .prepared → Excused c' orderId e')
    (henqueues : ∀ orderId e, c.shared.oms.orders.lookup orderId = some e → pc.enqueues? = some orderId →
      handedOver c'.shared.log orderId = true ∨ enqueueRefused c'.shared.log orderId = true)
    (htests : ∀ orderId e, c.shared.oms.orders.lookup orderId = some e → pc'.tests? = some orderId →
      e.order.clientOrderId ≠ 0) : Delivered adopted c' := by
  intro orderId e' he' hnew
  rcases hs.change.origin he' with ⟨e, he, ha⟩ | ⟨_, request, rfl⟩
  · rcases h orderId e he hnew with hhanded | hprep | ⟨q, hq, hqe⟩ | hrefused | ⟨hzero, huntested⟩
    · exact Or.inl (any_mono hs.log hhanded)
    · exact Or.inr (hprepared orderId e e' he he' hprep)
    · have hplace : q = pc ∨ q ∈ c'.calls := hcalls ▸ Calls.Program.mem_set_of_mem hcall hq
      rcases hplace with rfl | hq
      · exact (henqueues orderId e he hqe).imp_right fun hr => Or.inr (Or.inr (Or.inl hr))
      · exact Or.inr (Or.inr (Or.inl ⟨q, hq, hqe⟩))
    · exact Or.inr (Or.inr (Or.inr (Or.inl (any_mono hs.log hrefused))))
    · refine Or.inr (Or.inr (Or.inr (Or.inr ⟨ha.clientOrderId.trans hzero, fun q hq hqt => ?_⟩)))
      rw [hcalls] at hq
      rcases List.mem_or_eq_of_mem_set hq with hq | rfl
      · exact huntested q hq hqt
      · exact htests orderId e he hqt hzero
  · exact Or.inr (Or.inl rfl)

theorem Delivered.environment {adopted : String → Prop} {c c' : System} (h : Delivered adopted c)
    (hs : Follows c.shared c'.shared) (hcalls : c'.calls = c.calls)
    (hprepared : ∀ orderId e e', c.shared.oms.orders.lookup orderId = some e →
      c'.shared.oms.orders.lookup orderId = some e' → e.lifecycleState = .prepared →
      e'.lifecycleState = .prepared ∨
        (e.order.clientOrderId = 0 ∧ ∀ pc ∈ c.calls, pc.tests? ≠ some orderId)) : Delivered adopted c' := by
  intro orderId e' he' hnew
  rcases hs.change.origin he' with ⟨e, he, ha⟩ | ⟨_, request, rfl⟩
  · rcases h orderId e he hnew with hhanded | hprep | henq | hrefused | ⟨hzero, huntested⟩
    · exact Or.inl (any_mono hs.log hhanded)
    · rcases hprepared orderId e e' he he' hprep with hprep' | ⟨hzero, huntested⟩
      · exact Or.inr (Or.inl hprep')
      · exact Or.inr (Or.inr (Or.inr (Or.inr ⟨ha.clientOrderId.trans hzero, hcalls ▸ huntested⟩)))
    · exact Or.inr (Or.inr (Or.inl (hcalls ▸ henq)))
    · exact Or.inr (Or.inr (Or.inr (Or.inl (any_mono hs.log hrefused))))
    · exact Or.inr (Or.inr (Or.inr (Or.inr ⟨ha.clientOrderId.trans hzero, hcalls ▸ huntested⟩)))
  · exact Or.inr (Or.inl rfl)

theorem step_delivered {adopted : String → Prop} {c c' : System} {a : Action} (h : Delivered adopted c)
    (hv : sessionOutline.Valid c) (hpast : pastOutline.Valid c) (hguard : handoverGuard c a = true)
    (hstep : step c a = some c') : Delivered adopted c' := by
  cases a with
  | start call =>
    cases hstep
    intro orderId e he hnew
    refine (h orderId e he hnew).imp_right ?_
    rintro (hprep | ⟨q, hq, hqe⟩ | hrefused | ⟨hzero, huntested⟩)
    · exact Or.inl hprep
    · exact Or.inr (Or.inl ⟨q, List.mem_append_left _ hq, hqe⟩)
    · exact Or.inr (Or.inr (Or.inl hrefused))
    · refine Or.inr (Or.inr (Or.inr ⟨hzero, fun q hq => ?_⟩))
      rcases List.mem_append.mp hq with hq | hq
      · exact huntested q hq
      · rw [List.mem_singleton.mp hq]
        cases call <;> simp [program, callEntry, CallPc.tests?]
  | resume index answer =>
    obtain ⟨pc, pc', hpc, hnext, hcalls⟩ := Calls.Program.step_resume hstep
    have hcall := callNext_step hv.1 (hv.2 index pc hpc) (lookup_of_fresh (handoverGuard_fresh hguard) hpc) hnext
    have hguard := Bool.and_elim_right hguard
    have hmem : pc' ∈ c'.calls := hcalls ▸ List.mem_set (List.getElem?_eq_some_iff.mp hpc).1 pc'
    have hfollows := hcall.quiet.follows
    cases hcall with
    | submit hsub =>
      refine h.call hfollows hpc hcalls (fun orderId e e' he he' hl => ?_) (fun orderId e he henq => ?_)
        fun orderId e he htest => hsub.tests htest he
      · exact (hsub.keepsPrepared he he' hl).imp_right fun henq => Or.inl ⟨_, hmem, henq⟩
      · refine hsub.enqueues henq he fun hadmits hnot => ?_
        rename_i pc₀ _
        cases pc₀ <;> simp only [CallPc.enqueues?, reduceCtorEq, Option.some.injEq] at henq
        subst henq
        simpa [hpc, hadmits, hnot, lifecycleIs_eq he] using hguard
    | cancel hcan =>
      refine h.call hfollows hpc hcalls (fun orderId e e' he he' hl => ?_) (fun _ _ _ henq => ?_) fun _ _ _ ht => ?_
      · rcases hcan.keepsPrepared (hpast.2 index _ hpc) he he' hl with hprep | ⟨order, rfl⟩
        · exact Or.inl hprep
        · obtain ⟨hzero, huntested⟩ := undisturbed_prepared (c := c) (by simpa [hpc] using hguard) he hl
          obtain ⟨e₁, he₁, ha⟩ := hfollows.change.lookup he
          rw [he'] at he₁
          cases he₁
          refine Or.inr (Or.inr (Or.inr ⟨ha.clientOrderId.trans hzero, fun q hq => ?_⟩))
          rw [hcalls] at hq
          rcases List.mem_or_eq_of_mem_set hq with hq | rfl
          · exact huntested q hq
          · simp [CallPc.tests?]
      · cases henq
      · cases ht
  | environment event =>
    obtain ⟨hnext, hcalls⟩ := Calls.Program.step_environment hstep
    refine h.environment (engineStep_follows hnext) hcalls fun orderId e e' he he' hl => ?_
    by_cases hevent : event = .worker
    · subst hevent
      exact Or.inl ((workerStep_step hnext).keepsPrepared hpast.1 he he' hl)
    · exact laneEvent_keepsPrepared hevent hnext hguard he he' hl

/-! ## What a call returns -/

/-- The order is the one that the request of this call stands for. -/
def StandsFor (s : Shared) (call : Nat) (request : OrderRequest) (orderId : String) : Prop :=
  (∃ e, s.oms.orders.lookup orderId = some e ∧ e.order.clientOrderId = request.clientOrderId) ∧
    (request.clientOrderId = 0 → (call, orderId) ∈ creations s.log)

def Served (adopted : String → Prop) (s : Shared) (call : Nat) (request : OrderRequest) : Prop :=
  ∃ orderId, StandsFor s call request orderId ∧ (handedOver s.log orderId = true ∨ adopted orderId)

def ServedCall (adopted : String → Prop) (s : Shared) (call : Nat) : CallPc → Prop
  | .submit (.lifecycle request order) => StandsFor s call request order.orderId
  | .submit (.markQueued request order) => StandsFor s call request order.orderId
  | .submit (.enqueue request order) => StandsFor s call request order.orderId
  | .submit (.release _ _ rc) => rc ≠ .success
  | .submit (.done request rc) => rc = .success → Served adopted s call request
  | _ => True

variable {adopted : String → Prop} {call : Nat} {request : OrderRequest}

theorem StandsFor.stable (h : StandsFor s call request orderId) (hs : Follows s s') :
    StandsFor s' call request orderId := by
  obtain ⟨⟨e, he, hc⟩, hzero⟩ := h
  obtain ⟨e', he', ha⟩ := hs.change.lookup he
  exact ⟨⟨e', he', ha.clientOrderId.trans hc⟩, fun hz => (hs.log.filterMap _).mem (hzero hz)⟩

theorem ServedCall.stable {pc : CallPc} (h : ServedCall adopted s call pc) (hs : Follows s s') :
    ServedCall adopted s' call pc := by
  cases pc with
  | cancel pc => trivial
  | submit pc =>
    cases pc with
    | lifecycle | markQueued | enqueue => exact StandsFor.stable h hs
    | done request rc =>
      intro hrc
      obtain ⟨orderId, hstands, hdone⟩ := h hrc
      exact ⟨orderId, hstands.stable hs, hdone.imp_left fun hh => any_mono hs.log hh⟩
    | release => exact h
    | _ => trivial

theorem Delivered.served {c : System} (h : Delivered adopted c)
    (he : c.shared.oms.orders.lookup orderId = some e) (hl : e.lifecycleState ≠ .prepared)
    (hout : outstanding c orderId = false)
    (hknown : e.order.clientOrderId ≠ 0 ∨ ∃ pc ∈ c.calls, pc.tests? = some orderId) :
    handedOver c.shared.log orderId = true ∨ adopted orderId := by
  by_cases hnew : adopted orderId
  · exact Or.inr hnew
  · refine Or.inl ?_
    simp only [outstanding, Bool.and_eq_false_iff, Bool.not_eq_eq_eq_not, Bool.not_false, Bool.or_eq_false_iff,
      List.any_eq_false, beq_iff_eq] at hout
    rcases hout with hhanded | ⟨hnoenq, hnoref⟩
    · exact hhanded
    · rcases h orderId e he hnew with hhanded | hprep | ⟨q, hq, hqe⟩ | hrefused | ⟨hzero, huntested⟩
      · exact hhanded
      · exact absurd hprep hl
      · exact absurd hqe (hnoenq q hq)
      · rw [hnoref] at hrefused; cases hrefused
      · rcases hknown with hclient | ⟨pc, hpc, htest⟩
        · exact absurd hzero hclient
        · exact absurd htest (huntested pc hpc)

theorem SubmitStep.servedCall {c : System} {index : Nat} {answer : Shared.Answer} {pc pc' : SubmitPc}
    (h : SubmitStep c.shared index pc s' pc') (hd : Delivered adopted c)
    (hcall : c.calls[index]? = some (.submit pc)) (hsession : Session c.shared)
    (hcarries : SessionCall c.shared (.submit pc)) (hpc : ServedCall adopted c.shared index (.submit pc))
    (hguard : handoverGuard c (.resume index answer) = true)
    (hanswer : ∀ request orderId a, pc = .query request orderId →
      s' = c.shared.emit (.query orderId a) → answer = .queried a) :
    ServedCall adopted s' index (.submit pc') := by
  have hfollows := h.quiet.follows
  have hguard := Bool.and_elim_right hguard
  simp only [hcall] at hguard
  cases h with
  | known request order hc hfound =>
    intro _
    unfold getOrderByClientId at hfound
    split at hfound
    case h_2 => cases hfound
    case h_1 id hi =>
      obtain ⟨_, e, he, hce⟩ := (hsession.wellFormed.index _ _).mp hi
      have hkey := (hsession.wellFormed.key id e he).2
      rw [he] at hfound
      cases hfound
      have hg : e.lifecycleState ≠ .prepared ∧ outstanding c id = false := by
        simpa [hc, getOrderByClientId, hi, he, hkey, lifecycleIs_eq he] using hguard
      exact ⟨id, ⟨⟨e, he, hce⟩, fun hz => absurd hz hc⟩, hd.served he hg.1 hg.2 (Or.inl (hce ▸ hc))⟩
  | pastQueue request order e he hl =>
    intro _
    have hg : outstanding c order.orderId = false := by
      simpa [lifecycleIs_eq he, hl] using hguard
    exact ⟨order.orderId, hpc, hd.served he hl hg
      (Or.inr ⟨_, List.mem_iff_getElem?.mpr ⟨index, hcall⟩, rfl⟩)⟩
  | enqueued request order hadmits =>
    intro _
    obtain ⟨⟨e, he, hce⟩, hzero⟩ := hpc
    refine ⟨order.orderId, StandsFor.stable ⟨⟨e, he, hce⟩, hzero⟩ hfollows, Or.inl ?_⟩
    simp only [hadmits, lifecycleIs_eq he, bne_self_eq_false, Bool.false_or, Bool.or_eq_true, bne_iff_ne] at hguard
    rcases hguard with hbefore | hl
    · exact any_mono hfollows.log hbefore
    · simp [handedOver, Shared.emit, getLifecycleState, he, hl]
  | queryFailed request orderId a hq =>
    intro hrc
    have := hanswer request orderId a rfl rfl
    subst this
    by_cases hnotFound : a.errorCode = .notFound
    · rw [if_pos hnotFound] at hrc; cases hrc
    · rw [if_neg hnotFound] at hrc
      simp [hrc, hq] at hguard
  | existing request orderId e he hc hce => exact ⟨⟨e, he, hce⟩, fun hz => absurd hz hc⟩
  | born request orderId hid hfresh =>
    refine ⟨⟨newEntry request orderId, by simp [Shared.emit, lookup_born, newEntry], rfl⟩, fun _ => ?_⟩
    simp [Shared.emit, creations, newEntry]
  | prepared | queued => exact StandsFor.stable hpc hfollows
  | notQueued => exact fun h => by cases h
  | failureRecorded request order rc => exact (hcarries.refused rc rfl).1
  | released => exact fun hrc => absurd hrc hpc
  | uncompliant _ _ hrc | unaffordable _ _ _ hrc | reserveRefused _ _ _ _ hrc => exact fun h => absurd h hrc
  | allocated request pc' heq => subst heq; split <;> trivial
  | _ => trivial

theorem queried_of_submitNext {orderId : String} {pc' : SubmitPc} {answer : Shared.Answer} {a : Result Reservation}
    (h : s.submitNext call (.query request orderId) answer = some (s', pc'))
    (hlog : s' = s.emit (.query orderId a)) : answer = .queried a := by
  cases answer <;> simp only [Shared.submitNext, Option.some.injEq, Prod.mk.injEq, reduceCtorEq] at h
  obtain ⟨rfl, _⟩ := h
  have hcons := (List.cons.inj (congrArg Shared.log hlog)).1
  rw [(Event.query.inj hcons).2]

def servedOutline (adopted : String → Prop) :
    program.Outline fun c a => (sessionOutline.Valid c ∧ Delivered adopted c) ∧ handoverGuard c a = true where
  inv _ := True
  holds := ServedCall adopted
  rely _ := Follows
  start _ call _ _ := by cases call <;> trivial
  resume c index pc answer s' pc' _ hpc hcall hok h := by
    obtain ⟨⟨⟨hsession, hcalls⟩, hdelivered⟩, hguard⟩ := hok
    have hstep := callNext_step hsession (hcalls index pc hcall) (lookup_of_fresh (handoverGuard_fresh hguard) hcall) h
    have hfollows := hstep.quiet.follows
    refine ⟨trivial, ?_, fun _ _ => hfollows⟩
    cases hstep with
    | cancel => trivial
    | submit hstep =>
      refine hstep.servedCall hdelivered hcall hsession (hcalls index _ hcall) hpc hguard ?_
      rintro request orderId a rfl hlog
      obtain ⟨⟨s₁, pc₁⟩, hnext, heq⟩ := Option.map_eq_some_iff.mp h
      cases heq
      exact queried_of_submitNext hnext hlog
  environment c event s' _ _ h := ⟨trivial, fun _ => engineStep_follows h⟩
  stable _ _ _ _ h hpc := hpc.stable h

/-- In a run whose steps all meet the guard, a `Submit` that returned success has an order in the
table: under its client id if that is nonzero, else one that it created. `Enqueue` accepted that
order before it could be rejected, or it was taken over from the broker. -/
theorem success_handed_over {c c' : System} (hinit : Initial c)
    (h : Runs.Reaches step (fun c a => handoverGuard c a = true) c c') {call : Nat} {request : OrderRequest}
    (hdone : c'.calls[call]? = some (.submit (.done request .success))) :
    ∃ orderId e, c'.shared.oms.orders.lookup orderId = some e ∧
      (request.clientOrderId ≠ 0 → c'.shared.oms.clientOrderIndex.lookup request.clientOrderId = some orderId) ∧
      (request.clientOrderId = 0 → (call, orderId) ∈ creations c'.shared.log) ∧
      (handedOver c'.shared.log orderId = true ∨ orderId ∈ c.shared.oms.orders) := by
  have hfresh : ∀ c a, handoverGuard c a = true → fresh c a = true := fun _ _ => handoverGuard_fresh
  have hrun := hinit.sessionPast hfresh h
  have hstart : Delivered (· ∈ c.shared.oms.orders) c := fun orderId e he hnew =>
    absurd ((Table.mem_iff_lookup _ _).mpr ⟨e, he⟩) hnew
  have hrun' := hrun.alongside hstart
    fun _ _ _ hd ha hs => step_delivered hd ha.1.1 ha.1.2 ha.2 hs
  have hvalid := (servedOutline (· ∈ c.shared.oms.orders)).valid_of_reaches
    (hrun'.mono fun c a ha => ⟨⟨ha.2.1.1, ha.1⟩, ha.2.2⟩) ⟨trivial, by simp [hinit.calls]⟩
  obtain ⟨orderId, ⟨⟨e, he, hc⟩, hzero⟩, hdone⟩ := hvalid.2 call _ hdone rfl
  have hsession : sessionOutline.Valid c' :=
    sessionOutline.valid_of_reaches (h.mono fun _ _ => handoverGuard_fresh) hinit.valid
  exact ⟨orderId, e, he, fun hne => (hsession.1.wellFormed.index _ _).mpr ⟨hne, e, he, hc⟩, hzero, hdone⟩

/-- A `Submit`, and another one with the same client id after the order has been sent. -/
theorem success_handed_over_retry :
    ∃ c', Runs.Reaches step (fun c a => handoverGuard c a = true) opening c' ∧
      ∃ orderId e, c'.shared.oms.orders.lookup orderId = some e ∧
        (limitBuy.clientOrderId ≠ 0 → c'.shared.oms.clientOrderIndex.lookup limitBuy.clientOrderId = some orderId) ∧
        (limitBuy.clientOrderId = 0 → (1, orderId) ∈ creations c'.shared.log) ∧
        (handedOver c'.shared.log orderId = true ∨ orderId ∈ opening.shared.oms.orders) := by
  have hrun : ∃ c' ∈ Runs.execWhile step (fun c a => handoverGuard c a = true) opening
      (submitAlone 0 limitBuy ++ workerToTrader ++
        .start (.submit limitBuy) :: List.replicate 5 (.resume 1 .silent)),
      c'.calls[1]? = some (.submit (.done limitBuy .success)) := by decide +kernel
  obtain ⟨c', hc', hdone⟩ := hrun
  have hreach := Runs.reaches_of_execWhile _ hc'
  exact ⟨c', hreach, success_handed_over opening_initial hreach hdone⟩

/-- The bridge does not know what became of the reservation, and later says that it was released. -/
def reservationReleased : List Action :=
  .start (.submit limitBuy) :: checks 0 ++
    [.resume 0 (.reserved { errorCode := .timeout }), .resume 0 (.queried { data := some { status := "released" } })]

/-- `Submit` returns the success of the query, and there is no order. -/
theorem success_without_order : ¬ ∀ c c' : System, Initial c →
    Runs.Reaches step (fun c a => fresh c a = true) c c' → ∀ call request,
      c'.calls[call]? = some (.submit (.done request .success)) →
      ∃ orderId e, c'.shared.oms.orders.lookup orderId = some e ∧
        (request.clientOrderId ≠ 0 → c'.shared.oms.clientOrderIndex.lookup request.clientOrderId = some orderId) ∧
        (request.clientOrderId = 0 → (call, orderId) ∈ creations c'.shared.log) ∧
        (handedOver c'.shared.log orderId = true ∨ orderId ∈ c.shared.oms.orders) := by
  intro hall
  have hrun : ∃ c' ∈ Runs.execWhile step (fun c a => fresh c a = true) opening reservationReleased,
      c'.calls[0]? = some (.submit (.done limitBuy .success)) ∧
        c'.shared.oms.clientOrderIndex.lookup limitBuy.clientOrderId = none := by decide +kernel
  obtain ⟨c', hc', hdone, hnone⟩ := hrun
  obtain ⟨orderId, e, _, hindex, _⟩ :=
    hall opening c' opening_initial (Runs.reaches_of_execWhile _ hc') 0 limitBuy hdone
  rw [hindex (by decide)] at hnone
  cases hnone

end Qtrade.Trading
