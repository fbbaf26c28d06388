import Qtrade.Trading.Session

/-!
# Only checked and reserved orders are sent

What the checks and the bridge answered is in the log, and the order that an entry, the queue
or a thread carries goes back to those answers.
-/

namespace Qtrade.Trading

open Qtrade.Ems (WorkItem ExecutionManager)
open Qtrade.Oms
open Qtrade.Oms.OrderManager

/-! ## Where an order comes from -/

/-- The bridge did not know what became of the reservation. -/
def ReserveAsked (log : List Event) (orderId : String) : Prop :=
  ∃ intent answer, .reserve intent answer ∈ log ∧ intent.orderId = orderId ∧
    Shared.reserveUnknown answer = true

/-- The bridge approved the order, or said after an unknown result that it is reserved. -/
def Authorised (log : List Event) (orderId : String) : Prop :=
  (∃ intent answer, .reserve intent answer ∈ log ∧ intent.orderId = orderId ∧
    Shared.reserveApproved answer = true) ∨
  ∃ answer before, .query orderId answer :: before <:+ log ∧ Shared.queryReserved answer = true ∧
    ReserveAsked before orderId

/-- One call passed both checks with the request. -/
def Checked (log : List Event) (call : Nat) (request : OrderRequest) : Prop :=
  .compliance call request .success ∈ log ∧ .risk call request .success ∈ log

/-- The order with these terms may be sent under this id. -/
def Admitted (log : List Event) (orderId : String) (terms : OrderRequest) : Prop :=
  Authorised log orderId ∧ ∃ call request, Checked log call request ∧ terms = request.terms

variable {log log' : List Event} {orderId : String} {terms : OrderRequest}

theorem ReserveAsked.mono (h : ReserveAsked log orderId) (hlog : log <:+ log') : ReserveAsked log' orderId := by
  obtain ⟨intent, answer, hmem, h⟩ := h
  exact ⟨intent, answer, hlog.mem hmem, h⟩

theorem Authorised.mono (h : Authorised log orderId) (hlog : log <:+ log') : Authorised log' orderId := by
  rcases h with ⟨intent, answer, hmem, h⟩ | ⟨answer, before, hsuffix, h⟩
  · exact Or.inl ⟨intent, answer, hlog.mem hmem, h⟩
  · exact Or.inr ⟨answer, before, hsuffix.trans hlog, h⟩

theorem Checked.mono {call : Nat} {request : OrderRequest} (h : Checked log call request)
    (hlog : log <:+ log') : Checked log' call request :=
  ⟨hlog.mem h.1, hlog.mem h.2⟩

theorem Admitted.mono (h : Admitted log orderId terms) (hlog : log <:+ log') :
    Admitted log' orderId terms := by
  obtain ⟨hauth, call, request, hchecked, hterms⟩ := h
  exact ⟨hauth.mono hlog, call, request, hchecked.mono hlog, hterms⟩

/-! ## The invariant -/

structure Vetted (s : Shared) : Prop where
  bridge : s.bridge = true
  prepared : ∀ orderId e, s.oms.orders.lookup orderId = some e → e.lifecycleState = .prepared →
    Admitted s.log orderId e.order.terms
  queued : ∀ order, .send order ∈ s.ems.pendingItems → Admitted s.log order.orderId order.terms
  working : ∀ order, s.worker.order? = some order → Admitted s.log order.orderId order.terms
  sent : ∀ orderId request before, .sent orderId request :: before <:+ s.log →
    Admitted before orderId request.terms

/-- What the log says for a call that has come this far. -/
def VettedCall (s : Shared) (call : Nat) : CallPc → Prop
  | .submit (.risk request) => .compliance call request .success ∈ s.log
  | .submit (.riskOpenOrders request _) => .compliance call request .success ∈ s.log
  | .submit (.riskNotional request _) => .compliance call request .success ∈ s.log
  | .submit (.duplicate request) => Checked s.log call request
  | .submit (.allocate request) => Checked s.log call request
  | .submit (.reserve request _) => Checked s.log call request
  | .submit (.query request orderId) => Checked s.log call request ∧ ReserveAsked s.log orderId
  | .submit (.create request orderId) => Checked s.log call request ∧ Authorised s.log orderId
  -- While the entry is prepared, no report has touched what was ordered.
  | .submit (.lifecycle _ order) => ∃ e, s.oms.orders.lookup order.orderId = some e ∧
      (e.lifecycleState = .prepared → e.order.terms = order.terms)
  | .submit (.markQueued _ order) => Admitted s.log order.orderId order.terms
  | .submit (.enqueue _ order) => Admitted s.log order.orderId order.terms
  | _ => True

variable {s s' : Shared}

theorem VettedCall.stable {call : Nat} {pc : CallPc} (h : VettedCall s call pc) (hs : Follows s s') :
    VettedCall s' call pc := by
  cases pc with
  | cancel pc => trivial
  | submit pc =>
    cases pc with
    | risk | riskOpenOrders | riskNotional => exact hs.log.mem h
    | duplicate | allocate | reserve => exact Checked.mono h hs.log
    | query => exact ⟨h.1.mono hs.log, h.2.mono hs.log⟩
    | create => exact ⟨h.1.mono hs.log, h.2.mono hs.log⟩
    | lifecycle request order =>
      obtain ⟨e, he, hterms⟩ := h
      obtain ⟨e', he', ha⟩ := hs.change.lookup he
      exact ⟨e', he', fun hl => (ha.prepared hl).trans (hterms (ha.eq_prepared hl))⟩
    | markQueued | enqueue => exact Admitted.mono h hs.log
    | _ => trivial

theorem Vetted.quiet (h : Vetted s) (hq : Quiet s s') (hbridge : s'.bridge = s.bridge)
    (hborn : ∀ orderId e, s.oms.orders.lookup orderId = none → s'.oms.orders.lookup orderId = some e →
      Admitted s'.log orderId e.order.terms)
    (hqueued : ∀ order, .send order ∈ s'.ems.pendingItems →
      .send order ∈ s.ems.pendingItems ∨ Admitted s.log order.orderId order.terms)
    (hworking : ∀ order, s'.worker.order? = some order →
      s.worker.order? = some order ∨ .send order ∈ s.ems.pendingItems) : Vetted s' := by
  have hlog := hq.unsent.suffix
  refine ⟨hbridge.trans h.bridge, fun orderId e' he' hl => ?_, fun order ho => ?_, fun order ho => ?_,
    fun orderId request before hsent => ?_⟩
  · rcases hq.change.origin he' with ⟨e, he, ha⟩ | ⟨hnone, _⟩
    · rw [ha.prepared hl]
      exact (h.prepared orderId e he (ha.eq_prepared hl)).mono hlog
    · exact hborn orderId e' hnone he'
  · exact ((hqueued order ho).elim (h.queued order) id).mono hlog
  · exact ((hworking order ho).elim (h.working order) (h.queued order)).mono hlog
  · rcases hq.unsent with heq | ⟨event, heq, hevent⟩
    · exact h.sent orderId request before (heq ▸ hsent)
    · rw [heq, List.suffix_cons_iff] at hsent
      rcases hsent with hsent | hsent
      · exact absurd (List.cons.inj hsent).1.symm (hevent orderId request)
      · exact h.sent orderId request before hsent

/-! ## The steps of `Submit` -/

theorem SubmitStep.vettedCall {call : Nat} {pc pc' : SubmitPc} (h : SubmitStep s call pc s' pc')
    (hs : Vetted s) (hpc : VettedCall s call (.submit pc)) : VettedCall s' call (.submit pc') := by
  have hfollows := h.quiet.follows
  have hpc' := hpc.stable hfollows
  cases h with
  | compliant request => exact List.mem_cons_self
  | affordable request => exact ⟨hpc', List.mem_cons_self⟩
  | allocated request pc' heq =>
    subst heq
    rw [hs.bridge, if_pos rfl]
    exact hpc'
  | reserved request orderId answer happroved =>
    exact ⟨hpc', Or.inl ⟨_, answer, List.mem_cons_self, rfl, happroved⟩⟩
  | reserveUnknown request orderId answer hunknown =>
    exact ⟨hpc', _, answer, List.mem_cons_self, rfl, hunknown⟩
  | queryReserved request orderId answer hreserved =>
    exact ⟨hpc'.1, Or.inr ⟨answer, s.log, List.suffix_rfl, hreserved, hpc.2⟩⟩
  | existing request orderId e he => exact ⟨e, he, fun _ => rfl⟩
  | born request orderId hid hfresh =>
    exact ⟨newEntry request orderId, by simp [Shared.emit, lookup_born, newEntry], fun _ => rfl⟩
  | prepared request order e he hl =>
    obtain ⟨e₁, he₁, hterms⟩ := hpc
    rw [he] at he₁
    cases he₁
    show Admitted s.log order.orderId order.terms
    rw [← hterms hl]
    exact hs.prepared _ e he hl
  | budget | openOrders | unknown | queued => exact hpc'
  | _ => trivial

theorem SubmitStep.vetted {call : Nat} {pc pc' : SubmitPc} (h : SubmitStep s call pc s' pc')
    (hs : Vetted s) (hpc : VettedCall s call (.submit pc)) : Vetted s' := by
  refine hs.quiet h.quiet h.frame.bridge (fun orderId e hnone he => ?_) (fun order ho => ?_) fun order ho => ?_
  · obtain ⟨request, rfl, rfl⟩ := h.born_origin hnone he
    have hpc' : Checked s'.log call request ∧ Authorised s'.log orderId := hpc.stable h.quiet.follows
    exact ⟨hpc'.2, call, request, hpc'.1, rfl⟩
  · rcases h.queue order ho with ho | ⟨request, rfl⟩
    · exact Or.inl ho
    · exact Or.inr hpc
  · exact Or.inl (h.frame.worker ▸ ho)

/-! ## The other threads -/

theorem Vetted.settled {R : OrderEntry → OrderEntry → Prop} (h : Vetted s) (hq : Quiet s s')
    (hevolves : Evolves R s.oms s'.oms) (hbridge : s'.bridge = s.bridge)
    (hqueued : ∀ order, .send order ∈ s'.ems.pendingItems → .send order ∈ s.ems.pendingItems)
    (hworking : ∀ order, s'.worker.order? = some order →
      s.worker.order? = some order ∨ .send order ∈ s.ems.pendingItems) : Vetted s' := by
  refine h.quiet hq hbridge (fun orderId e hnone he => ?_) (fun order ho => Or.inl (hqueued order ho)) hworking
  obtain ⟨e, hold, _⟩ := hevolves.origin he
  rw [hnone] at hold
  cases hold

theorem WorkerStep.vetted (h : WorkerStep s s') (hs : Vetted s) : Vetted s' := by
  obtain ⟨hqueue, hworker⟩ := h.ems
  cases h with
  | sent order hw =>
    have hadmitted := hs.working order (by simp [hw, WorkerPc.order?])
    have hlog := List.suffix_cons (Event.sent order.orderId (ExecutionManager.sendRequest order)) s.log
    refine ⟨hs.bridge, fun orderId e he hl => (hs.prepared orderId e he hl).mono hlog,
      fun o ho => (hs.queued o ho).mono hlog, fun o ho => ?_, fun orderId request before hsent => ?_⟩
    · exact ((hworker o ho).elim (hs.working o) (hs.queued o)).mono hlog
    · rcases List.suffix_cons_iff.mp hsent with hsent | hsent
      · obtain ⟨heq, rfl⟩ := List.cons.inj hsent
        cases heq
        exact hadmitted
      · exact hs.sent orderId request before hsent
  | marked order hw hok =>
    refine ⟨hs.bridge, fun orderId e' he' hl => ?_, hs.queued, fun o ho => ?_, hs.sent⟩
    · obtain ⟨e, he, ha⟩ := (markSendPending_evolves s.oms order.orderId).origin he'
      rw [ha.prepared hl]
      exact hs.prepared orderId e he (ha.eq_prepared hl)
    · exact (hworker o ho).elim (hs.working o) (hs.queued o)
  | refused order rc hw hmark hrc =>
    subst hmark
    exact hs.settled ⟨.sendPending s.oms order.orderId, markSendPending_noNewSend hrc, Or.inl rfl⟩
      (markSendPending_evolves s.oms order.orderId) rfl hqueue hworker
  | cancelRecorded request rc =>
    have he := recordCancelResult_evolves s.oms request.orderId rc
    exact hs.settled (.of_oms he rfl (Or.inl rfl)) he rfl hqueue hworker
  | refusalRecorded order rc =>
    have he := recordSendResult_evolves s.oms order.orderId rc
    exact hs.settled (.of_oms he rfl (Or.inl rfl)) he rfl hqueue hworker
  | recorded order =>
    have he := recordSendResult_evolves s.oms order.orderId .success
    exact hs.settled (.of_oms he rfl (Or.inl rfl)) he rfl hqueue hworker
  | failureRecorded order rc =>
    have he := recordSendResult_evolves s.oms order.orderId rc
    exact hs.settled (.of_oms he rfl (Or.inl rfl)) he rfl hqueue hworker
  | released orderId =>
    have homs : ({ s with worker := .idle }.release orderId .emsEnqueueFailed).oms = s.oms := oms_release _ _ _
    exact hs.settled (.of_eq homs (unsent_release _ _ _)) (.of_eq OrderEntry.Settles.refl homs)
      (bridge_release _ _ _) hqueue hworker
  | _ =>
    exact hs.settled (.of_eq rfl (Or.inl rfl)) (Evolves.refl OrderEntry.Settles.refl s.oms) rfl hqueue hworker

/-! ## The outline -/

def vettedOutline : program.Outline fun c a => sessionOutline.Valid c ∧ fresh c a = true where
  inv := Vetted
  holds := VettedCall
  rely _ := Follows
  start _ call _ _ := by cases call <;> trivial
  resume c index pc answer s' pc' hs hpc hcall hok h := by
    obtain ⟨⟨hsession, hcalls⟩, hfresh⟩ := hok
    have hstep := callNext_step hsession (hcalls index pc hcall) (lookup_of_fresh hfresh hcall) h
    have hq := hstep.quiet
    cases hstep with
    | submit hstep => exact ⟨hstep.vetted hs hpc, hstep.vettedCall hs hpc, fun _ _ => hq.follows⟩
    | cancel hstep =>
      exact ⟨hs.settled hq hstep.evolves hstep.frame.bridge hstep.queue
        fun order ho => Or.inl (hstep.frame.worker ▸ ho), trivial, fun _ _ => hq.follows⟩
  environment c event s' hs _ h := by
    by_cases hevent : event = .worker
    · subst hevent
      have hstep := workerStep_step h
      exact ⟨hstep.vetted hs, fun _ => ⟨hstep.change, hstep.suffix⟩⟩
    · obtain ⟨hq, hems⟩ := laneEvent_quiet hevent h
      obtain ⟨hevolves, hbridge⟩ := laneEvent_evolves hevent h
      exact ⟨hs.settled hq hevolves hbridge (fun order ho => hems ▸ ho)
        fun order ho => Or.inl (laneEvent_order? hevent h ▸ ho), fun _ => hq.follows⟩
  stable _ _ _ _ h hpc := hpc.stable h

theorem Initial.vetted {c : System} (h : Initial c) (hbridge : c.shared.bridge = true) :
    vettedOutline.Valid c := by
  refine ⟨⟨hbridge, fun orderId e he hl => ?_, ?_, ?_, ?_⟩, ?_⟩
  · have := h.oms.started.pastSending orderId e he
    simp [hl, OrderLifecycleState.rank] at this
  · simp [h.pendingItems]
  · simp [h.worker, WorkerPc.order?]
  · simp [h.log]
  · simp [h.calls]

/-- Whatever the bridge answers and however the threads interleave: when `SendOrder` is called for
an order id, the bridge has authorised that id, and what is sent was asked for in one request
that passed both checks. -/
theorem sent_vetted {c c' : System} (hinit : Initial c) (hbridge : c.shared.bridge = true)
    (h : Runs.Reaches step (fun c a => fresh c a = true) c c') {orderId : String} {sent : OrderRequest}
    {before : List Event} (hsent : .sent orderId sent :: before <:+ c'.shared.log) :
    Authorised before orderId ∧ ∃ call request, .compliance call request .success ∈ before ∧
      .risk call request .success ∈ before ∧ sent = { request with brokerOrderId := sent.brokerOrderId } := by
  have hvalid := vettedOutline.valid_of_reaches (hinit.session (fun _ _ ha => ha) h) (hinit.vetted hbridge)
  obtain ⟨hauth, call, request, ⟨hcompliance, hrisk⟩, hterms⟩ := hvalid.1.sent orderId sent before hsent
  refine ⟨hauth, call, request, hcompliance, hrisk, ?_⟩
  have hsame : { sent.terms with brokerOrderId := sent.brokerOrderId } =
      { request.terms with brokerOrderId := sent.brokerOrderId } := by rw [hterms]
  exact hsame

/-- One call, one reservation, one send. -/
theorem sent_vetted_alone : ∃ c', Runs.Reaches step (fun c a => fresh c a = true) opening c' ∧
    ∃ before, .sent "t-e-1-1" limitBuy :: before <:+ c'.shared.log ∧ Authorised before "t-e-1-1" ∧
      ∃ call request, .compliance call request .success ∈ before ∧
        .risk call request .success ∈ before ∧ limitBuy = { request with brokerOrderId := limitBuy.brokerOrderId } := by
  have hrun : ∃ c' ∈ Runs.execWhile step (fun c a => fresh c a = true) opening
      (submitAlone 0 limitBuy ++ workerToTrader),
      c'.shared.log.head? = some (.sent "t-e-1-1" limitBuy) := by decide +kernel
  obtain ⟨c', hc', hhead⟩ := hrun
  have hreach := Runs.reaches_of_execWhile _ hc'
  obtain ⟨before, hlog⟩ := List.head?_eq_some_iff.mp hhead
  have hsent : .sent "t-e-1-1" limitBuy :: before <:+ c'.shared.log := hlog ▸ List.suffix_rfl
  exact ⟨c', hreach, before, hsent, sent_vetted opening_initial rfl hreach hsent⟩

end Qtrade.Trading
