import Qtrade.Trading.Session

/-!
# When a reservation is released

The four places that call `ReleaseOrder` look at their own condition and not at the lifecycle.
The guard says when each of them finds a finished order, and the theorem that runs under the
guard release nothing else. A send that times out is outside the guard.
-/

namespace Qtrade.Trading

open Qtrade.Ems (WorkItem ExecutionManager)
open Qtrade.Oms
open Qtrade.Oms.OrderManager

/-! ## The guard -/

/-- A report status after which the lane releases. -/
def endsOrder (status : OrderStatusType) : Bool := status == .canceled || status == .rejected

/-- The lane's lookup for a report with these ids is for the order with those. -/
def names (reportId : String) (reportClientId : UInt32) (orderId : String) (clientOrderId : UInt32) : Bool :=
  if reportId = "" then reportClientId != 0 && clientOrderId == reportClientId else orderId == reportId

/-- A new order is not the one that the final report in the lane's hand is about. -/
def createsUnnamed (s : Shared) (request : OrderRequest) (orderId : String) : Bool :=
  match s.lane with
  | .orderApplied report =>
    !(endsOrder report.status && names report.orderId report.clientOrderId orderId request.clientOrderId)
  | _ => true

/-- The step starts no release of an order that is not finished. -/
def releasesFinished (c : System) : Action → Bool
  | .resume index _ =>
    match c.calls[index]? with
    | some (.submit (.create request orderId)) => createsUnnamed c.shared request orderId
    | some (.submit (.markQueued _ order)) =>
      lifecycleIs c.shared order.orderId fun l => l == .prepared || l == .emsQueued || isTerminalLifecycle l
    | some (.submit (.recordFailure _ order _)) =>
      lifecycleIs c.shared order.orderId fun l => l == .emsQueued || l == .sendPending || isTerminalLifecycle l
    | _ => true
  | .environment .worker =>
    match c.shared.worker with
    | .dequeued order =>
      lifecycleIs c.shared order.orderId fun l => l == .emsQueued || l == .sendPending || isTerminalLifecycle l
    | .returned order rc =>
      rc == .success || lifecycleIs c.shared order.orderId fun l =>
        isTerminalLifecycle l || (rc != .timeout && l == .sendPending)
    | _ => true
  | .environment (.orderReport report) =>
    !endsOrder report.status ||
      match c.shared.followUp report.orderId report.clientOrderId with
      | none => true
      | some known => lifecycleIs c.shared known.orderId fun l =>
          isTerminalLifecycle l || canTransition l (lifecycleFromOrderStatus report.status l)
  | _ => true

/-- Without a bridge nothing is released. -/
def releaseGuard (c : System) (a : Action) : Bool :=
  fresh c a && (!c.shared.bridge || releasesFinished c a)

/-! ## The invariant -/

/-- The order is finished, as far as a release is concerned. -/
def Doomed (s : Shared) (orderId : String) : Prop :=
  ∃ e, s.oms.orders.lookup orderId = some e ∧ (s.bridge = true → isTerminalLifecycle e.lifecycleState = true)

def WorkerReleasesFinished (s : Shared) : Prop :=
  match s.worker with
  | .refused order _ => Doomed s order.orderId
  | .releasing orderId => Doomed s orderId
  | _ => True

def LaneReleasesFinished (s : Shared) : Prop :=
  match s.lane with
  | .orderApplied report => endsOrder report.status = true → s.bridge = true →
      ∀ orderId e, s.oms.orders.lookup orderId = some e →
        names report.orderId report.clientOrderId orderId e.order.clientOrderId = true →
        isTerminalLifecycle e.lifecycleState = true
  | .accountOrder report known => endsOrder report.status = true → Doomed s known.orderId
  | .releasing orderId _ => Doomed s orderId
  | _ => True

/-- Every release so far found its order finished. -/
def ReleasedFinished (log : List Event) : Prop :=
  ∀ orderId reason l, .released orderId reason (some l) ∈ log → isTerminalLifecycle l = true

structure ReleaseInv (s : Shared) : Prop where
  filled : ∀ orderId e, s.oms.orders.lookup orderId = some e → e.order.status = .filled →
    e.lifecycleState = .filled
  worker : WorkerReleasesFinished s
  lane : LaneReleasesFinished s
  log : ReleasedFinished s.log

def ReleaseCall (s : Shared) : CallPc → Prop
  | .submit (.release _ orderId _) => Doomed s orderId
  | _ => True

variable {s s' : Shared} {orderId : String}

theorem Doomed.change (h : Doomed s orderId) (hc : Change s.oms s'.oms) (hb : s'.bridge = s.bridge) :
    Doomed s' orderId := by
  obtain ⟨e, he, hdone⟩ := h
  obtain ⟨e', he', ha⟩ := hc.lookup he
  refine ⟨e', he', fun hbridge => ?_⟩
  have hdone := hdone (hb ▸ hbridge)
  rw [ha.terminal hdone]
  exact hdone

theorem filled_change {oms oms' : OrderManager} (hc : Change oms oms')
    (h : ∀ orderId e, oms.orders.lookup orderId = some e → e.order.status = .filled → e.lifecycleState = .filled) :
    ∀ orderId e, oms'.orders.lookup orderId = some e → e.order.status = .filled → e.lifecycleState = .filled := by
  intro orderId e' he' hs
  rcases hc.origin he' with ⟨e, he, ha⟩ | ⟨_, request, rfl⟩
  · rcases ha.filled hs with hs | hl
    · have hl := h orderId e he hs
      rw [ha.terminal (by rw [hl]; rfl), hl]
    · exact hl
  · cases hs

theorem WorkerReleasesFinished.change (h : WorkerReleasesFinished s) (hc : Change s.oms s'.oms)
    (hb : s'.bridge = s.bridge) (hw : s'.worker = s.worker) : WorkerReleasesFinished s' := by
  unfold WorkerReleasesFinished at *
  rw [hw]
  split at h
  · exact h.change hc hb
  · exact h.change hc hb
  · trivial

theorem LaneReleasesFinished.change (h : LaneReleasesFinished s) (hc : Change s.oms s'.oms)
    (hb : s'.bridge = s.bridge) (hl : s'.lane = s.lane)
    (hborn : ∀ report, s.lane = .orderApplied report → endsOrder report.status = true → s.bridge = true →
      ∀ orderId e, s.oms.orders.lookup orderId = none → s'.oms.orders.lookup orderId = some e →
        names report.orderId report.clientOrderId orderId e.order.clientOrderId = false) : LaneReleasesFinished s' := by
  unfold LaneReleasesFinished at *
  rw [hl]
  split at h
  case h_1 report hlane =>
    intro hends hbridge orderId e' he' hnames
    rw [hb] at hbridge
    rcases hc.origin he' with ⟨e, he, ha⟩ | ⟨hnone, _⟩
    · rw [ha.clientOrderId] at hnames
      have hdone := h hends hbridge orderId e he hnames
      rw [ha.terminal hdone]
      exact hdone
    · rw [hborn report hlane hends hbridge orderId e' hnone he'] at hnames
      cases hnames
  case h_2 => exact fun hends => (h hends).change hc hb
  case h_3 => exact h.change hc hb
  case h_4 => trivial

theorem ReleasedFinished.cons {log : List Event} {event : Event} (h : ReleasedFinished log)
    (hevent : ∀ orderId reason l, event = .released orderId reason (some l) → isTerminalLifecycle l = true) :
    ReleasedFinished (event :: log) := by
  intro orderId reason l hmem
  rcases List.mem_cons.mp hmem with heq | hmem
  · exact hevent orderId reason l heq.symm
  · exact h orderId reason l hmem

theorem ReleasedFinished.release (h : ReleasedFinished s.log) (hd : Doomed s orderId) (reason : ReleaseReason) :
    ReleasedFinished (s.release orderId reason).log := by
  unfold Shared.release
  split
  case isTrue hbridge =>
    refine h.cons fun _ _ l heq => ?_
    obtain ⟨e, he, hdone⟩ := hd
    simp only [Event.released.injEq, getLifecycleState, he, Option.map_some, Option.some.injEq] at heq
    rw [← heq.2.2]
    exact hdone (Bool.and_elim_left hbridge)
  case isFalse => exact h

/-! ## The order that the lane looks up -/

theorem followUp_eq_some (hs : s.oms.WellFormed) {reportId : String} {reportClientId : UInt32} {known : Order} :
    s.followUp reportId reportClientId = some known ↔
      ∃ e, s.oms.orders.lookup known.orderId = some e ∧ e.order = known ∧
        names reportId reportClientId known.orderId known.clientOrderId = true := by
  unfold Shared.followUp names
  by_cases hid : reportId = ""
  · simp only [if_pos hid, Bool.and_eq_true, bne_iff_ne, ne_eq, beq_iff_eq]
    unfold getOrderByClientId
    constructor
    · intro h
      split at h
      case h_1 key hi =>
        obtain ⟨hc, e, he, hce⟩ := (hs.index _ _).mp hi
        rw [he] at h
        cases h
        exact ⟨e, by rw [(hs.key key e he).2]; exact he, rfl, hc, hce⟩
      case h_2 => cases h
    · rintro ⟨e, he, rfl, hc, hce⟩
      rw [(hs.index reportClientId e.order.orderId).mpr ⟨hc, e, he, hce⟩]
      simp [he]
  · simp only [if_neg hid, getOrder, Option.map_eq_some_iff, beq_iff_eq]
    constructor
    · rintro ⟨e, he, rfl⟩
      have hkey := (hs.key _ e he).2
      exact ⟨e, by rw [hkey]; exact he, rfl, hkey⟩
    · rintro ⟨e, he, rfl, rfl⟩
      exact ⟨e, he, rfl⟩

theorem reportKey_of_names {oms : OrderManager} (hs : oms.WellFormed) {reportId : String}
    {reportClientId : UInt32} {e : OrderEntry} (he : oms.orders.lookup orderId = some e)
    (hn : names reportId reportClientId orderId e.order.clientOrderId = true) :
    oms.reportKey reportId reportClientId = some orderId := by
  unfold names at hn
  rw [reportKey_eq_some]
  by_cases hid : reportId = ""
  · simp only [if_pos hid, Bool.and_eq_true, bne_iff_ne, ne_eq, beq_iff_eq] at hn
    have hnone : oms.orders.lookup "" = none := by
      cases h : oms.orders.lookup "" with
      | none => rfl
      | some e' => exact absurd rfl (hs.key "" e' h).1
    have hi := (hs.index reportClientId orderId).mpr ⟨hn.1, e, he, hn.2⟩
    subst hid
    exact ⟨e, by simp [findOrderLocked, hnone, hn.1, hi, he]⟩
  · simp only [if_neg hid, beq_iff_eq] at hn
    subst hn
    exact ⟨e, by simp [findOrderLocked, he]⟩

/-! ## The steps -/

theorem doomed_recordSendResult {e : OrderEntry} {rc : ErrorCode} (he : s.oms.orders.lookup orderId = some e)
    (homs : s'.oms = (s.oms.recordSendResult orderId rc).2) (hrc : rc ≠ .success)
    (h : s'.bridge = true → isTerminalLifecycle e.lifecycleState = true ∨
      rc ≠ .timeout ∧ (e.lifecycleState = .emsQueued ∨ e.lifecycleState = .sendPending)) :
    Doomed s' orderId := by
  refine ⟨(sendResultEntry e rc).2, ?_, fun hbridge => ?_⟩
  · rw [homs, recordSendResult, lookup_update, if_pos rfl, he]
    rfl
  · rcases h hbridge with hdone | ⟨ht, hl⟩
    · rw [(sendResultEntry_settles e rc).terminal hdone]
      exact hdone
    · rw [sendResultEntry_rejects hrc ht hl]
      rfl

theorem ReleaseInv.keep (h : ReleaseInv s) (hq : Quiet s s') (hf : CallFrame s s')
    (hborn : ∀ report, s.lane = .orderApplied report → endsOrder report.status = true → s.bridge = true →
      ∀ orderId e, s.oms.orders.lookup orderId = none → s'.oms.orders.lookup orderId = some e →
        names report.orderId report.clientOrderId orderId e.order.clientOrderId = false)
    (hlog : ReleasedFinished s'.log) : ReleaseInv s' :=
  ⟨filled_change hq.change h.filled, h.worker.change hq.change hf.bridge hf.worker,
    h.lane.change hq.change hf.bridge hf.lane hborn, hlog⟩

theorem SubmitStep.releasedFinished {call : Nat} {pc pc' : SubmitPc} (h : SubmitStep s call pc s' pc')
    (hlog : ReleasedFinished s.log) (hpc : ReleaseCall s (.submit pc)) : ReleasedFinished s'.log := by
  cases h with
  | budget | openOrders | known | unknown | pastQueue | prepared | notQueued => exact hlog
  | allocated | queued | failureRecorded => exact hlog
  | released => exact hlog.release hpc _
  | _ => exact hlog.cons (by simp)

theorem SubmitStep.releaseInv {call : Nat} {pc pc' : SubmitPc} (h : SubmitStep s call pc s' pc')
    (hs : ReleaseInv s) (hpc : ReleaseCall s (.submit pc))
    (hguard : s.bridge = true → ∀ request orderId, pc = .create request orderId →
      createsUnnamed s request orderId = true) : ReleaseInv s' := by
  refine hs.keep h.quiet h.frame (fun report hlane hends hbridge orderId e hnone he => ?_)
    (h.releasedFinished hs.log hpc)
  obtain ⟨request, rfl, rfl⟩ := h.born_origin hnone he
  have := hguard hbridge request orderId rfl
  simpa [createsUnnamed, hlane, hends, newEntry] using this

theorem SubmitStep.releaseCall {call : Nat} {pc pc' : SubmitPc} (h : SubmitStep s call pc s' pc')
    (hcarries : SessionCall s (.submit pc))
    (hguard : s.bridge = true → ∀ request order rc, pc = .recordFailure request order rc →
      lifecycleIs s order.orderId (fun l => l == .emsQueued || l == .sendPending || isTerminalLifecycle l) = true)
    (hmark : s.bridge = true → ∀ request order, pc = .markQueued request order →
      lifecycleIs s order.orderId (fun l => l == .prepared || l == .emsQueued || isTerminalLifecycle l) = true) :
    ReleaseCall s' (.submit pc') := by
  cases h with
  | notQueued request order e he hl hl' =>
    refine ⟨e, he, fun hbridge => ?_⟩
    have := hmark hbridge request order rfl
    rw [lifecycleIs_eq he] at this
    simpa [hl, hl'] using this
  | failureRecorded request order rc =>
    obtain ⟨e, he, _⟩ := hcarries.carries order rfl
    obtain ⟨hrc, ht⟩ := hcarries.refused rc rfl
    refine doomed_recordSendResult he rfl hrc fun hbridge => ?_
    have := hguard hbridge request order rc rfl
    simp only [lifecycleIs_eq he, Bool.or_eq_true, beq_iff_eq] at this
    exact this.symm.imp id fun hl => ⟨ht, hl⟩
  | allocated request pc' heq => subst heq; split <;> trivial
  | _ => trivial

theorem CancelStep.releaseInv {pc pc' : CancelPc} (h : CancelStep s pc s' pc') (hs : ReleaseInv s) :
    ReleaseInv s' := by
  refine hs.keep h.quiet h.frame (fun _ _ _ _ orderId e hnone he => ?_) ?_
  · obtain ⟨e₁, he₁, _⟩ := h.evolves.origin he
    rw [hnone] at he₁
    cases he₁
  · cases h <;> exact hs.log

theorem WorkerStep.releasedFinished (h : WorkerStep s s') (hs : ReleaseInv s) : ReleasedFinished s'.log := by
  cases h with
  | sent => exact hs.log.cons (by simp)
  | released orderId hw =>
    have hd : Doomed s orderId := by simpa [WorkerReleasesFinished, hw] using hs.worker
    exact ReleasedFinished.release (s := { s with worker := .idle }) hs.log hd _
  | _ => exact hs.log

theorem WorkerStep.workerReleases (h : WorkerStep s s') (hs : ReleaseInv s) (hsession : Session s)
    (hmark : s.bridge = true → ∀ order, s.worker = .dequeued order →
      lifecycleIs s order.orderId (fun l => l == .emsQueued || l == .sendPending || isTerminalLifecycle l) = true)
    (hrecord : s.bridge = true → ∀ order rc, s.worker = .returned order rc → rc ≠ .success →
      lifecycleIs s order.orderId
        (fun l => isTerminalLifecycle l || (rc != .timeout && l == .sendPending)) = true) :
    WorkerReleasesFinished s' := by
  have hchange := h.change
  have hframe := h.frame
  have hworker := hs.worker
  unfold WorkerReleasesFinished at *
  cases h with
  | refused order rc hw hmarked hrc =>
    subst hmarked
    obtain ⟨e, he, _⟩ := hsession.working order (by simp [hw, WorkerPc.order?])
    obtain ⟨hl, hl'⟩ := markSendPending_refused he hrc
    refine Doomed.change ⟨e, he, fun hbridge => ?_⟩ hchange rfl
    have := hmark hbridge order hw
    simpa [lifecycleIs_eq he, hl, hl'] using this
  | refusalRecorded order rc hw =>
    rw [hw] at hworker
    exact hworker.change hchange rfl
  | failureRecorded order rc hw hrc =>
    obtain ⟨e, he, _⟩ := hsession.working order (by simp [hw, WorkerPc.order?])
    refine doomed_recordSendResult he rfl hrc fun hbridge => ?_
    have := hrecord hbridge order rc hw hrc
    simp only [lifecycleIs_eq he, Bool.or_eq_true, Bool.and_eq_true, bne_iff_ne, ne_eq, beq_iff_eq] at this
    exact this.imp id fun hl => ⟨hl.1, Or.inr hl.2⟩
  | released => rw [worker_release]; trivial
  | _ => trivial

theorem LaneReleasesFinished.evolves {R : OrderEntry → OrderEntry → Prop} (h : LaneReleasesFinished s)
    (hc : Change s.oms s'.oms) (he : Evolves R s.oms s'.oms) (hb : s'.bridge = s.bridge)
    (hl : s'.lane = s.lane) : LaneReleasesFinished s' := by
  refine h.change hc hb hl fun _ _ _ _ orderId e hnone hnew => ?_
  obtain ⟨e₁, he₁, _⟩ := he.origin hnew
  rw [hnone] at he₁
  cases he₁

theorem orderReport_releases (hsession : Session s) {report : Order}
    (hguard : s.bridge = true → endsOrder report.status = true → ∀ known,
      s.followUp report.orderId report.clientOrderId = some known →
      lifecycleIs s known.orderId (fun l =>
        isTerminalLifecycle l || canTransition l (lifecycleFromOrderStatus report.status l)) = true) :
    LaneReleasesFinished { s with oms := s.oms.applyOrderReport report, lane := .orderApplied report } := by
  intro hends hbridge orderId e' he' hnames
  obtain ⟨e, he, hset⟩ := (applyOrderReport_evolves s.oms report).origin he'
  rw [hset.clientOrderId] at hnames
  have hkey := (hsession.wellFormed.key orderId e he).2
  have hfollow := (followUp_eq_some hsession.wellFormed).mpr
    ⟨e, by rw [hkey]; exact he, rfl, by rw [hkey]; exact hnames⟩
  have hg := hguard hbridge hends e.order hfollow
  rw [hkey, lifecycleIs_eq he, Bool.or_eq_true] at hg
  rcases hg with hdone | hedge
  · rw [hset.terminal hdone]
    exact hdone
  · have hnew : e' = kept e (orderReportEntry e report) := by
      have hl := lookup_applyOrderReport s.oms report orderId
      rw [if_pos (reportKey_of_names hsession.wellFormed he hnames), he] at hl
      exact Option.some.inj (he'.symm.trans hl)
    rw [hnew, kept_orderReport, if_pos hedge]
    simp only [endsOrder, Bool.or_eq_true, beq_iff_eq] at hends
    rcases hends with hends | hends <;> simp [hends, lifecycleFromOrderStatus, isTerminalLifecycle]

theorem LaneStep.releaseInv (h : LaneStep s s') (hs : ReleaseInv s) (hsession : Session s) : ReleaseInv s' := by
  obtain ⟨homs, _, hw, hb, _⟩ := h.frame
  have hchange : Change s.oms s'.oms := homs ▸ .refl s.oms
  have hlane := hs.lane
  unfold LaneReleasesFinished at hlane
  refine ⟨filled_change hchange hs.filled, hs.worker.change hchange hb hw, ?_, ?_⟩
  · unfold LaneReleasesFinished
    cases h with
    | knownOrder report known hl hfollow =>
      intro hends
      obtain ⟨e, he, rfl, hnames⟩ := (followUp_eq_some hsession.wellFormed).mp hfollow
      rw [hl] at hlane
      exact ⟨e, he, fun hbridge => hlane hends hbridge _ e he hnames⟩
    | orderEnded report known reason hl hends =>
      rw [hl] at hlane
      refine hlane ?_
      rcases hends with ⟨hends, _⟩ | ⟨hends, _⟩ <;> simp [endsOrder, hends]
    | filled report known hl hfollow hf =>
      obtain ⟨e, he, rfl, _⟩ := (followUp_eq_some hsession.wellFormed).mp hfollow
      exact ⟨e, he, fun _ => by rw [hs.filled _ e he hf]; rfl⟩
    | released => rw [lane_release]; trivial
    | _ => trivial
  · cases h with
    | released orderId reason hl =>
      rw [hl] at hlane
      exact ReleasedFinished.release (s := { s with lane := .idle }) hs.log hlane reason
    | _ => exact hs.log

/-! ## The outline -/

theorem laneEvent_releaseInv {c : System} {event : EngineEvent} (hs : ReleaseInv c.shared)
    (hsession : Session c.shared) (hevent : event ≠ .worker)
    (hguard : c.shared.bridge = true → releasesFinished c (.environment event) = true)
    (h : engineStep c.shared event = some s') : ReleaseInv s' := by
  have hchange := engineStep_change h
  have hrefl := Evolves.refl OrderEntry.Settles.refl c.shared.oms
  cases event with
  | worker => exact absurd rfl hevent
  | lane => exact (laneStep_step h).releaseInv hs hsession
  | traderReturns rc =>
    obtain ⟨worker, rfl, hw⟩ := traderReturns_eq h
    refine ⟨hs.filled, ?_, hs.lane.evolves hchange hrefl rfl rfl, hs.log⟩
    rcases hw with ⟨_, _, rfl⟩ | ⟨_, _, rfl⟩ <;> trivial
  | orderReport report =>
    obtain ⟨_, _, rfl⟩ := orderReport_eq h
    refine ⟨filled_change hchange hs.filled, hs.worker.change hchange rfl rfl,
      orderReport_releases hsession fun hbridge hends known hfollow => ?_, hs.log⟩
    have := hguard hbridge
    simpa [releasesFinished, hends, hfollow] using this
  | tradeReport report =>
    obtain ⟨_, _, rfl⟩ := tradeReport_eq h
    exact ⟨filled_change hchange hs.filled, hs.worker.change hchange rfl rfl, trivial, hs.log⟩

def releaseOutline : program.Outline fun c a => sessionOutline.Valid c ∧ releaseGuard c a = true where
  inv := ReleaseInv
  holds s _ pc := ReleaseCall s pc
  rely _ s s' := Change s.oms s'.oms ∧ s'.bridge = s.bridge
  start _ call _ _ := by cases call <;> trivial
  resume c index pc answer s' pc' hs hpc hcall hok h := by
    obtain ⟨⟨hsession, hcalls⟩, hguard⟩ := hok
    simp only [releaseGuard, Bool.and_eq_true, Bool.or_eq_true, Bool.not_eq_true'] at hguard
    obtain ⟨hfresh, hguard⟩ := hguard
    have hguard : c.shared.bridge = true → releasesFinished c (.resume index answer) = true :=
      fun hbridge => hguard.resolve_left (by simp [hbridge])
    have hstep := callNext_step hsession (hcalls index pc hcall) (lookup_of_fresh hfresh hcall) h
    have hframe := hstep.frame
    refine (?_ : _ ∧ _) |>.imp_right fun hpc' => ⟨hpc', fun _ _ => ⟨hstep.quiet.change, hframe.bridge⟩⟩
    cases hstep with
    | submit hstep =>
      refine ⟨hstep.releaseInv hs hpc fun hbridge request orderId heq => ?_,
        hstep.releaseCall (hcalls index _ hcall) (fun hbridge request order rc heq => ?_)
          fun hbridge request order heq => ?_⟩
      all_goals
        subst heq
        simpa [releasesFinished, hcall] using hguard hbridge
    | cancel hstep => exact ⟨hstep.releaseInv hs, trivial⟩
  environment c event s' hs hok h := by
    obtain ⟨⟨hsession, _⟩, hguard⟩ := hok
    simp only [releaseGuard, Bool.and_eq_true, Bool.or_eq_true, Bool.not_eq_true'] at hguard
    have hguard : c.shared.bridge = true → releasesFinished c (.environment event) = true :=
      fun hbridge => hguard.2.resolve_left (by simp [hbridge])
    by_cases hevent : event = .worker
    · subst hevent
      have hstep := workerStep_step h
      obtain ⟨hlane, hbridge⟩ := hstep.frame
      refine ⟨⟨filled_change hstep.change hs.filled, hstep.workerReleases hs hsession (fun hb order hw => ?_)
        fun hb order rc hw hrc => ?_, hs.lane.evolves hstep.change hstep.evolves hbridge hlane,
        hstep.releasedFinished hs⟩, fun _ => ⟨hstep.change, hbridge⟩⟩
      · simpa [releasesFinished, hw] using hguard hb
      · simpa [releasesFinished, hw, hrc] using hguard hb
    · exact ⟨laneEvent_releaseInv hs hsession hevent hguard h,
        fun _ => ⟨engineStep_change h, (laneEvent_evolves hevent h).2⟩⟩
  stable s s' _ pc h hpc := by
    cases pc with
    | cancel pc => trivial
    | submit pc =>
      cases pc with
      | release request orderId rc => exact Doomed.change hpc h.1 h.2
      | _ => trivial

theorem Initial.releases {c : System} (h : Initial c) : releaseOutline.Valid c := by
  refine ⟨⟨h.oms.started.filled, ?_, ?_, ?_⟩, ?_⟩
  · simp [WorkerReleasesFinished, h.worker]
  · simp [LaneReleasesFinished, h.lane]
  · simp [ReleasedFinished, h.log]
  · simp [h.calls]

/-- In a run whose steps all meet the guard, every release finds its order finished. -/
theorem released_finished {c c' : System} (hinit : Initial c)
    (h : Runs.Reaches step (fun c a => releaseGuard c a = true) c c') {orderId : String}
    {reason : ReleaseReason} {l : OrderLifecycleState}
    (hrelease : .released orderId reason (some l) ∈ c'.shared.log) : isTerminalLifecycle l = true := by
  have hguard : ∀ c a, releaseGuard c a = true → fresh c a = true := by
    intro c a ha
    exact Bool.and_elim_left ha
  have hvalid := releaseOutline.valid_of_reaches (hinit.session hguard h) hinit.releases
  exact hvalid.1.log orderId reason l hrelease

/-- The trader takes the order and refuses it, and the lane has nothing to do with it. -/
def sendFails (rc : ErrorCode) : List Action :=
  submitAlone 0 limitBuy ++ workerToTrader ++ .environment (.traderReturns rc) ::
    List.replicate 2 (.environment .worker)

/-- A refused send releases a rejected order. -/
theorem released_finished_refused : ∃ c', Runs.Reaches step (fun c a => releaseGuard c a = true) opening c' ∧
    .released "t-e-1-1" .emsEnqueueFailed (some .rejected) ∈ c'.shared.log ∧
    isTerminalLifecycle .rejected = true := by
  have hrun : ∃ c' ∈ Runs.execWhile step (fun c a => releaseGuard c a = true) opening (sendFails .error),
      .released "t-e-1-1" .emsEnqueueFailed (some .rejected) ∈ c'.shared.log := by decide +kernel
  obtain ⟨c', hc', hmem⟩ := hrun
  have hreach := Runs.reaches_of_execWhile _ hc'
  exact ⟨c', hreach, hmem, released_finished opening_initial hreach hmem⟩

/-- A send that times out releases the reservation of an order whose fate is unknown. -/
theorem released_unknown : ¬ ∀ c c' : System, Initial c →
    Runs.Reaches step (fun c a => fresh c a = true) c c' → ∀ orderId reason l,
      .released orderId reason (some l) ∈ c'.shared.log → isTerminalLifecycle l = true := by
  intro hall
  have hrun : ∃ c' ∈ Runs.execWhile step (fun c a => fresh c a = true) opening (sendFails .timeout),
      .released "t-e-1-1" .emsEnqueueFailed (some .sendUnknown) ∈ c'.shared.log := by decide +kernel
  obtain ⟨c', hc', hmem⟩ := hrun
  have := hall opening c' opening_initial (Runs.reaches_of_execWhile _ hc') _ _ _ hmem
  cases this

end Qtrade.Trading
