import Qtrade.Trading.Accounted
import Qtrade.Trading.CancelRace

/-!
# The worker empties its queue

Left alone with a trader that returns, the worker comes to an end, and what was queued to be sent is at the venue.
-/

namespace Qtrade.Trading

open Qtrade.Ems (WorkItem ExecutionManager)
open Qtrade.Oms
open Qtrade.Oms.OrderManager

/-! ## What is left to do -/

/-- The steps that the worker still takes with what it has in hand. -/
def WorkerPc.left : WorkerPc → Nat
  | .idle => 0
  | .releasing _ => 1
  | .cancelled _ _ => 1
  | .refused _ _ => 2
  | .cancelling _ => 2
  | .returned _ _ => 2
  | .sending _ => 3
  | .marked _ => 4
  | .dequeued _ => 5

def Shared.left (s : Shared) : Nat := 6 * s.ems.pendingItems.length + s.worker.left

def Shared.drained (s : Shared) : Prop := s.worker = .idle ∧ s.ems.pendingItems = []

/-- A step of the worker, or a call of the trader that returns. -/
def byWorker : Action → Bool
  | .environment .worker => true
  | .environment (.traderReturns _) => true
  | _ => false

variable {s s' : Shared} {orderId : String}

theorem WorkerStep.left (h : WorkerStep s s') : s'.left < s.left := by
  have hmove : s'.ems = s.ems → s'.worker.left < s.worker.left → s'.left < s.left := by
    intro hems hworker
    unfold Shared.left
    rw [hems]
    exact Nat.add_lt_add_left hworker _
  cases h with
  | takesCancel request rest hw hq => simp [Shared.left, hw, hq, WorkerPc.left]; omega
  | takesOrder order rest hw hq => simp [Shared.left, hw, hq, WorkerPc.left]; omega
  | released orderId hw =>
    apply hmove (ems_release _ _ _)
    rw [worker_release, hw]
    exact Nat.zero_lt_one
  | cancelWithoutTrader _ hw | cancelRecorded _ _ hw | marked _ hw | refused _ _ hw | refusalRecorded _ _ hw
  | sent _ hw | sendWithoutTrader _ hw | recorded _ hw | failureRecorded _ _ hw =>
    apply hmove rfl
    simp [hw, Shared.emit, WorkerPc.left]

theorem traderReturns_left {rc : ErrorCode} (h : s.traderReturns rc = some s') : s'.left < s.left := by
  obtain ⟨worker, rfl, ⟨request, hw, rfl⟩ | ⟨order, hw, rfl⟩⟩ := traderReturns_eq h
  · simp [Shared.left, hw, WorkerPc.left]
  · simp [Shared.left, hw, WorkerPc.left]

/-- Unless there is nothing left to do, the worker moves or waits for the trader. -/
theorem worker_moves (h : ¬ s.drained) (rc : ErrorCode) :
    (∃ s', s.workerStep = some s') ∨ ∃ s', s.traderReturns rc = some s' := by
  unfold Shared.workerStep Shared.traderReturns
  cases hw : s.worker with
  | idle =>
    cases hq : s.ems.pendingItems with
    | nil => exact absurd ⟨hw, hq⟩ h
    | cons item rest => cases item <;> exact Or.inl ⟨_, rfl⟩
  | cancelling request =>
    cases htrader : s.ems.traderApi with
    | true => exact Or.inr ⟨_, rfl⟩
    | false => exact Or.inl ⟨_, rfl⟩
  | marked order =>
    cases htrader : s.ems.traderApi with
    | true => exact Or.inl ⟨_, rfl⟩
    | false => exact Or.inl ⟨_, rfl⟩
  | sending order => exact Or.inr ⟨_, rfl⟩
  | _ => exact Or.inl ⟨_, rfl⟩

/-! ## What was queued is sent -/

def Queued (s : Shared) (orderId : String) : Prop := s.oms.getLifecycleState orderId = some .emsQueued

/-- The order waits in the queue or is in the worker's hand, or it was sent. -/
def OnItsWay (s : Shared) (orderId : String) : Prop :=
  orderId ∈ sentIds s.log ∨ (∃ order, s.worker = .marked order ∧ order.orderId = orderId) ∨
    Queued s orderId ∧ ∃ order, (.send order ∈ s.ems.pendingItems ∨ s.worker = .dequeued order) ∧
      order.orderId = orderId

theorem queued_iff : Queued s orderId ↔
    ∃ e, s.oms.orders.lookup orderId = some e ∧ e.lifecycleState = .emsQueued := by
  simp [Queued, getLifecycleState, Option.map_eq_some_iff]

theorem Queued.ne (h : Queued s orderId) {other : String} {n : Nat} (hcome : ComeTo s other n) (hn : 2 ≤ n) :
    orderId ≠ other := by
  rintro rfl
  obtain ⟨e, he, hl⟩ := queued_iff.mp h
  obtain ⟨e', he', hrank⟩ := hcome
  cases he.symm.trans he'
  rw [hl] at hrank
  exact absurd (hn.trans hrank) (by decide)

theorem Queued.update (h : Queued s orderId) {other : String} {change : OrderEntry → ErrorCode × OrderEntry}
    (hne : orderId ≠ other) (homs : s'.oms = (s.oms.update other change).2) : Queued s' orderId := by
  unfold Queued getLifecycleState
  rw [homs, lookup_update, if_neg hne]
  exact h

theorem Queued.markSendPending (h : Queued s orderId) : (s.oms.markSendPending orderId).1 = .success := by
  obtain ⟨e, he, hl⟩ := queued_iff.mp h
  by_contra hrefused
  exact (markSendPending_refused he hrefused).1 hl

theorem WorkerStep.sends_marked (h : WorkerStep s s') (htrader : s.ems.traderApi = true) {order : Order}
    (hw : s.worker = .marked order) : order.orderId ∈ sentIds s'.log := by
  cases h with
  | sent _ hw' =>
    cases hw.symm.trans hw'
    exact List.mem_cons_self
  | sendWithoutTrader _ _ hnone => exact absurd (htrader.symm.trans hnone) (by decide)
  | takesCancel _ _ hw' | takesOrder _ _ hw' | cancelWithoutTrader _ hw' | cancelRecorded _ _ hw' | marked _ hw'
  | refused _ _ hw' | refusalRecorded _ _ hw' | recorded _ hw' | failureRecorded _ _ hw' | released _ hw' =>
    cases hw.symm.trans hw'

theorem WorkerStep.queued (h : WorkerStep s s') (hpast : Past s) (htrader : s.ems.traderApi = true)
    (hqueued : Queued s orderId) {order : Order} (hid : order.orderId = orderId)
    (hplace : .send order ∈ s.ems.pendingItems ∨ s.worker = .dequeued order) : OnItsWay s' orderId := by
  have hworker := hpast.worker
  unfold WorkerComeTo at hworker
  have hwaits : (s.worker = .dequeued order → False) → s'.ems = s.ems → Queued s' orderId → OnItsWay s' orderId := by
    intro hw hems hqueued'
    refine Or.inr (Or.inr ⟨hqueued', order, Or.inl ?_, hid⟩)
    rw [hems]
    exact hplace.resolve_right hw
  cases h with
  | takesCancel request rest hw hq =>
    refine Or.inr (Or.inr ⟨hqueued, order, Or.inl ?_, hid⟩)
    rcases hplace with hmem | hdequeued
    · rw [hq] at hmem
      exact (List.mem_cons.mp hmem).resolve_left (by simp)
    · cases hw.symm.trans hdequeued
  | takesOrder order' rest hw hq =>
    rcases hplace with hmem | hdequeued
    · rw [hq] at hmem
      rcases List.mem_cons.mp hmem with heq | hrest
      · cases heq
        exact Or.inr (Or.inr ⟨hqueued, order, Or.inr rfl, hid⟩)
      · exact Or.inr (Or.inr ⟨hqueued, order, Or.inl hrest, hid⟩)
    · cases hw.symm.trans hdequeued
  | cancelWithoutTrader request hw => exact hwaits (fun h => by cases hw.symm.trans h) rfl hqueued
  | cancelRecorded request rc hw =>
    rw [hw] at hworker
    exact hwaits (fun h => by cases hw.symm.trans h) rfl (hqueued.update (hqueued.ne hworker (by decide)) rfl)
  | marked order' hw =>
    by_cases hsame : order'.orderId = orderId
    · exact Or.inr (Or.inl ⟨order', rfl, hsame⟩)
    · refine hwaits (fun h => ?_) rfl (hqueued.update (Ne.symm hsame) rfl)
      cases hw.symm.trans h
      exact hsame hid
  | refused order' rc hw hmark hrc =>
    have hother : orderId ≠ order'.orderId := by
      rintro rfl
      exact hrc (hmark.symm.trans hqueued.markSendPending)
    refine hwaits (fun h => ?_) rfl (hqueued.update hother rfl)
    cases hw.symm.trans h
    exact hother hid.symm
  | refusalRecorded order' rc hw =>
    rw [hw] at hworker
    exact hwaits (fun h => by cases hw.symm.trans h) rfl (hqueued.update (hqueued.ne hworker (by decide)) rfl)
  | sent order' hw => exact hwaits (fun h => by cases hw.symm.trans h) rfl hqueued
  | sendWithoutTrader _ _ hnone => exact absurd (htrader.symm.trans hnone) (by decide)
  | recorded order' hw =>
    rw [hw] at hworker
    exact hwaits (fun h => by cases hw.symm.trans h) rfl (hqueued.update (hqueued.ne hworker.1 (by decide)) rfl)
  | failureRecorded order' rc hw =>
    rw [hw] at hworker
    exact hwaits (fun h => by cases hw.symm.trans h) rfl (hqueued.update (hqueued.ne hworker.1 (by decide)) rfl)
  | released id hw =>
    refine hwaits (fun h => by cases hw.symm.trans h) (ems_release _ _ _) ?_
    unfold Queued
    rw [oms_release]
    exact hqueued

theorem WorkerStep.onItsWay (h : WorkerStep s s') (hpast : Past s) (htrader : s.ems.traderApi = true)
    (hway : OnItsWay s orderId) : OnItsWay s' orderId := by
  rcases hway with hsent | ⟨order, hw, hid⟩ | ⟨hqueued, order, hplace, hid⟩
  · exact Or.inl (h.sentIds_subset hsent)
  · exact Or.inl (hid ▸ h.sends_marked htrader hw)
  · exact h.queued hpast htrader hqueued hid hplace

theorem traderReturns_onItsWay {rc : ErrorCode} (h : s.traderReturns rc = some s') (hway : OnItsWay s orderId) :
    OnItsWay s' orderId := by
  obtain ⟨worker, rfl, hw⟩ := traderReturns_eq h
  -- The worker was in a call of the trader, and neither at a marked order nor at a dequeued one.
  have hbusy : ∀ order, s.worker ≠ .marked order ∧ s.worker ≠ .dequeued order := by
    intro order
    rcases hw with ⟨_, hw, -⟩ | ⟨_, hw, -⟩ <;> rw [hw] <;> simp
  rcases hway with hsent | ⟨order, hmarked, -⟩ | ⟨hqueued, order, hplace, hid⟩
  · exact Or.inl hsent
  · exact absurd hmarked (hbusy order).1
  · exact Or.inr (Or.inr ⟨hqueued, order, Or.inl (hplace.resolve_right (hbusy order).2), hid⟩)

/-! ## The run -/

/-- The session is in order, and the order is on its way. -/
structure Draining (orderId : String) (c : System) : Prop where
  session : sessionOutline.Valid c
  past : pastOutline.Valid c
  trader : c.shared.ems.traderApi = true
  way : OnItsWay c.shared orderId

theorem byWorker_iff {a : Action} : byWorker a = true ↔
    a = .environment .worker ∨ ∃ rc, a = .environment (.traderReturns rc) := by
  cases a with
  | environment event => cases event <;> simp [byWorker]
  | _ => simp [byWorker]

theorem step_draining {c c' : System} {a : Action} (h : Draining orderId c) (ha : byWorker a = true)
    (hs : step c a = some c') : Draining orderId c' := by
  rcases byWorker_iff.mp ha with rfl | ⟨rc, rfl⟩
  · have hstep : WorkerStep c.shared c'.shared := workerStep_step (Calls.Program.step_environment hs).1
    exact ⟨sessionOutline.valid_step h.session rfl hs, pastOutline.valid_step h.past ⟨h.session, rfl⟩ hs,
      hstep.traderApi.trans h.trader, hstep.onItsWay h.past.1 h.trader h.way⟩
  · have hreturns : c.shared.traderReturns rc = some c'.shared := (Calls.Program.step_environment hs).1
    have htrader : c'.shared.ems.traderApi = c.shared.ems.traderApi := by
      obtain ⟨worker, heq, -⟩ := traderReturns_eq hreturns
      rw [heq]
    exact ⟨sessionOutline.valid_step h.session rfl hs, pastOutline.valid_step h.past ⟨h.session, rfl⟩ hs,
      htrader.trans h.trader, traderReturns_onItsWay hreturns h.way⟩

theorem step_left {c c' : System} {a : Action} (ha : byWorker a = true) (hs : step c a = some c') :
    c'.shared.left < c.shared.left := by
  rcases byWorker_iff.mp ha with rfl | ⟨rc, rfl⟩
  · have hstep : WorkerStep c.shared c'.shared := workerStep_step (Calls.Program.step_environment hs).1
    exact hstep.left
  · exact traderReturns_left (Calls.Program.step_environment hs).1

theorem OnItsWay.sent (h : OnItsWay s orderId) (hdrained : s.drained) : orderId ∈ sentIds s.log := by
  obtain ⟨hidle, hempty⟩ := hdrained
  rcases h with hsent | ⟨order, hmarked, -⟩ | ⟨-, order, hmem | hdequeued, -⟩
  · exact hsent
  · cases hidle.symm.trans hmarked
  · rw [hempty] at hmem
    cases hmem
  · cases hidle.symm.trans hdequeued

/-- The worker alone, with a trader that returns, takes no more steps than are left, is stuck only when nothing is, and
then every order that was on its way has been sent. -/
theorem worker_drains {c₀ c c' : System} {actions : List Action} (hinit : Initial c₀)
    (hreach : Runs.Reaches step (fun c a => fresh c a = true) c₀ c) (htrader : c.shared.ems.traderApi = true)
    (hactions : ∀ a ∈ actions, byWorker a = true) (h : Runs.exec step c actions = some c') :
    actions.length ≤ c.shared.left ∧
      (¬ c'.shared.drained → ∀ rc, ∃ a, (a = .environment .worker ∨ a = .environment (.traderReturns rc)) ∧
        ∃ c'', step c' a = some c'') ∧
      (c'.shared.drained → ∀ orderId, OnItsWay c.shared orderId → orderId ∈ sentIds c'.shared.log) := by
  refine ⟨?_, fun hbusy rc => ?_, fun hdrained orderId hway => ?_⟩
  · exact Runs.exec_length_le (m := fun c => c.shared.left) (fun _ a ha _ hs => step_left (hactions a ha) hs) h
  · rcases worker_moves hbusy rc with ⟨s', hs'⟩ | ⟨s', hs'⟩
    · exact ⟨_, Or.inl rfl, { c' with shared := s' }, by simp [step, Calls.Program.step, program, engineStep, hs']⟩
    · exact ⟨_, Or.inr rfl, { c' with shared := s' }, by simp [step, Calls.Program.step, program, engineStep, hs']⟩
  · have hsession := sessionOutline.valid_of_reaches hreach hinit.valid
    have hpast : pastOutline.Valid c :=
      (hinit.sessionPast (fun _ _ ha => ha) hreach).invariant (P := pastOutline.Valid) hinit.past
        fun _ _ _ hv ha hs => pastOutline.valid_step hv ⟨ha.1.1, ha.2⟩ hs
    have hdraining := Runs.exec_invariant (P := Draining orderId)
      (fun _ a ha _ hd hs => step_draining hd (hactions a ha) hs) h ⟨hsession, hpast, htrader, hway⟩
    exact hdraining.way.sent hdrained

/-- One queued order takes five steps. -/
theorem worker_drains_one : ∃ c c' : System, Runs.Reaches step (fun c a => fresh c a = true) opening c ∧
    Runs.exec step c (workerToTrader ++ [.environment (.traderReturns .success), .environment .worker]) = some c' ∧
    c.shared.left = 6 ∧ c'.shared.drained ∧ "t-e-1-1" ∈ sentIds c'.shared.log := by
  have hrun : ∃ c ∈ Runs.execWhile step (fun c a => fresh c a = true) opening (submitAlone 0 limitBuy),
      c.shared.left = 6 ∧ c.shared.ems.traderApi = true ∧
        .send (newEntry limitBuy "t-e-1-1").order ∈ c.shared.ems.pendingItems ∧
        c.shared.oms.getLifecycleState "t-e-1-1" = some .emsQueued ∧
        ∃ c' ∈ Runs.exec step c (workerToTrader ++ [.environment (.traderReturns .success), .environment .worker]),
          c'.shared.worker = .idle ∧ c'.shared.ems.pendingItems = [] := by decide +kernel
  obtain ⟨c, hc, hleft, htrader, hmem, hqueued, c', hc', hidle, hempty⟩ := hrun
  have hreach := Runs.reaches_of_execWhile _ hc
  obtain ⟨-, -, hsent⟩ := worker_drains opening_initial hreach htrader (by decide) hc'
  have hway : OnItsWay c.shared "t-e-1-1" := Or.inr (Or.inr ⟨hqueued, _, Or.inl hmem, rfl⟩)
  exact ⟨c, c', hreach, hc', hleft, ⟨hidle, hempty⟩, hsent ⟨hidle, hempty⟩ "t-e-1-1" hway⟩

end Qtrade.Trading
