import Qtrade.Oms.Operations
import Qtrade.Trading.Session

/-!
# What a step does to the order manager

Nothing here rests on how ids are chosen: a step of a thread other than the lane creates an order,
records a send result, or ends no order and leaves the finished ones alone.
-/

namespace Qtrade.Oms

/-- No order is ended, and of a finished one at most the submit status changes. -/
structure OrderEntry.Idles (e e' : OrderEntry) : Prop where
  orderId : e'.order.orderId = e.order.orderId
  clientOrderId : e'.order.clientOrderId = e.order.clientOrderId
  ends : isTerminalLifecycle e'.lifecycleState = true → isTerminalLifecycle e.lifecycleState = true
  finished : isTerminalLifecycle e.lifecycleState = true → e'.lifecycleState = e.lifecycleState ∧
    e'.order = { e.order with submitStatus := e'.order.submitStatus }

open OrderEntry

theorem OrderEntry.Idles.refl (e : OrderEntry) : e.Idles e := ⟨rfl, rfl, fun h => h, fun _ => ⟨rfl, rfl⟩⟩

theorem applyTransition_idles (e : OrderEntry) (submitStatus : OrderSubmitStatusType)
    {target : OrderLifecycleState} (htarget : isTerminalLifecycle target = false) :
    e.Idles (applyTransition { e with order.submitStatus := submitStatus } target).2 := by
  rcases applyTransition_cases { e with order.submitStatus := submitStatus } target with ⟨hedge, h⟩ | ⟨_, h⟩
  · rw [h]
    refine ⟨rfl, rfl, fun ht => ?_, fun ht => ?_⟩
    · rw [htarget] at ht
      cases ht
    · rw [eq_of_terminal hedge ht] at htarget
      rw [ht] at htarget
      cases htarget
  · rw [h]
    exact ⟨rfl, rfl, fun ht => ht, fun _ => ⟨rfl, rfl⟩⟩

theorem cancelResultEntry_idles (e : OrderEntry) (result : ErrorCode) : e.Idles (cancelResultEntry e result).2 := by
  unfold cancelResultEntry
  split
  · exact applyTransition_idles e e.order.submitStatus rfl
  · apply applyTransition_idles e .cancelRejected
    split <;> rfl

theorem sendResultEntry_finished {e : OrderEntry} (h : isTerminalLifecycle e.lifecycleState = true)
    (result : ErrorCode) : (sendResultEntry e result).2 = e := by
  have hpast : ¬(e.lifecycleState = .sendPending ∨ e.lifecycleState = .emsQueued ∧ result ≠ .success) := by
    rintro (hl | ⟨hl, _⟩) <;> rw [hl] at h <;> cases h
  unfold sendResultEntry
  rw [if_neg hpast]
  simp [applyTransition]

namespace OrderManager

variable {s s' : OrderManager} {id : String}

theorem cancelOrder_idles (s : OrderManager) (id : String) : Evolves Idles s (s.cancelOrder id).2 :=
  update_evolves Idles.refl s id fun e => applyTransition_idles e e.order.submitStatus rfl

theorem markEmsQueued_idles (s : OrderManager) (id : String) : Evolves Idles s (s.markEmsQueued id).2 :=
  update_evolves Idles.refl s id fun e => applyTransition_idles e e.order.submitStatus rfl

theorem markSendPending_idles (s : OrderManager) (id : String) : Evolves Idles s (s.markSendPending id).2 :=
  update_evolves Idles.refl s id fun e => applyTransition_idles e .insertSubmitted rfl

theorem recordCancelResult_idles (s : OrderManager) (id : String) (result : ErrorCode) :
    Evolves Idles s (s.recordCancelResult id result).2 :=
  update_evolves Idles.refl s id fun e => cancelResultEntry_idles e result

/-- What any operation of the threads keeps: the orders that are there, and what the index says. -/
structure Extends (s s' : OrderManager) : Prop where
  keys : ∀ id, id ∈ s.orders → id ∈ s'.orders
  index : ∀ c id, s.clientOrderIndex.lookup c = some id → s'.clientOrderIndex.lookup c = some id
  anchored : s.Anchored → s'.Anchored

theorem Extends.refl (s : OrderManager) : Extends s s := ⟨fun _ h => h, fun _ _ h => h, fun h => h⟩

theorem Evolves.extends {R : OrderEntry → OrderEntry → Prop} (h : Evolves R s s')
    (hids : ∀ e e', R e e' → e'.order.orderId = e.order.orderId) : Extends s s' := by
  refine ⟨fun id hmem => (h.mem_iff id).mpr hmem, fun c id hkey => h.clientOrderIndex ▸ hkey, fun ha => ⟨?_, ?_, ?_⟩⟩
  · intro id e' he'
    obtain ⟨e, he, hR⟩ := h.origin he'
    rw [hids e e' hR]
    exact ha.key id e he
  · intro c id hkey
    rw [h.mem_iff]
    exact ha.index c id (h.clientOrderIndex ▸ hkey)
  · intro hno
    rw [h.initialized] at hno
    obtain ⟨horders, hindex⟩ := ha.empty hno
    exact ⟨h.orders_eq_empty horders, h.clientOrderIndex.trans hindex⟩

theorem createOrder_extends (s : OrderManager) (request : OrderRequest) (orderId : String) :
    Extends s (s.createOrder request orderId).2 := by
  rcases createOrder_cases s request orderId with hsame | ⟨hc, _, _, hborn⟩
  · rw [hsame]
    exact Extends.refl s
  · refine ⟨fun id hmem => ?_, fun c id hkey => ?_, fun ha => ha.createOrder request orderId⟩
    · rw [hborn, OrderManager.born, orders_index, store, Finmap.mem_insert]
      exact Or.inr hmem
    · rw [hborn, OrderManager.born, lookup_index, if_neg]
      · exact hkey
      · rintro ⟨hne, rfl⟩
        rw [hc.resolve_left hne] at hkey
        cases hkey

end OrderManager

end Qtrade.Oms

namespace Qtrade.Trading

open Qtrade.Oms
open Qtrade.Oms.OrderManager

/-! ## One step -/

/-- The send result that a step records. -/
def sendResult? (c : System) : Action → Option (String × ErrorCode)
  | .resume index _ =>
    match c.calls[index]? with
    | some (.submit (.recordFailure _ order rc)) => some (order.orderId, rc)
    | _ => none
  | .environment .worker =>
    match c.shared.worker with
    | .refused order rc => some (order.orderId, rc)
    | .returned order rc => some (order.orderId, rc)
    | _ => none
  | _ => none

/-- The order that a step creates. -/
def create? (c : System) : Action → Option (OrderRequest × String)
  | .resume index _ =>
    match c.calls[index]? with
    | some (.submit (.create request orderId)) => some (request, orderId)
    | _ => none
  | _ => none

/-- What a step makes of the order manager, the application of a report apart. -/
inductive Effect (c : System) (a : Action) : OrderManager → Prop
  | idles {oms : OrderManager} (h : Evolves OrderEntry.Idles c.shared.oms oms) : Effect c a oms
  | creates (request : OrderRequest) (orderId : String) (h : create? c a = some (request, orderId)) :
      Effect c a (c.shared.oms.createOrder request orderId).2
  | records (orderId : String) (rc : ErrorCode) (h : sendResult? c a = some (orderId, rc)) :
      Effect c a (c.shared.oms.recordSendResult orderId rc).2

/-- Lane-T takes a report. -/
def takesReport : Action → Bool
  | .environment (.orderReport _) | .environment (.tradeReport _) => true
  | _ => false

variable {c c' : System} {a : Action} {s s' : Shared}

theorem Effect.same {oms : OrderManager} (h : oms = c.shared.oms) : Effect c a oms :=
  .idles (.of_eq OrderEntry.Idles.refl h)

theorem Effect.extends {oms : OrderManager} (h : Effect c a oms) : Extends c.shared.oms oms := by
  cases h with
  | idles h => exact h.extends fun _ _ ha => ha.orderId
  | creates request orderId => exact createOrder_extends _ request orderId
  | records orderId rc => exact (recordSendResult_evolves _ orderId rc).extends fun _ _ ha => ha.orderId

theorem Effect.finished {oms : OrderManager} {orderId : String} {e : OrderEntry} (h : Effect c a oms)
    (hfresh : fresh c a = true) (he : c.shared.oms.orders.lookup orderId = some e)
    (ht : isTerminalLifecycle e.lifecycleState = true) :
    ∃ e', oms.orders.lookup orderId = some e' ∧ e'.lifecycleState = e.lifecycleState ∧
      e'.order = { e.order with submitStatus := e'.order.submitStatus } := by
  cases h with
  | idles h =>
    obtain ⟨e', he', hidles⟩ := h.lookup he
    exact ⟨e', he', hidles.finished ht⟩
  | creates request newId hcreate =>
    refine ⟨e, ?_, rfl, rfl⟩
    rcases createOrder_cases c.shared.oms request newId with hsame | ⟨_, _, _, hborn⟩
    · rw [hsame]
      exact he
    · rw [hborn, lookup_born, if_neg]
      · exact he
      · rintro rfl
        simp only [create?] at hcreate
        split at hcreate
        case h_1 index _ =>
          split at hcreate
          case h_1 hpc =>
            cases hcreate
            simp [fresh, hpc, CallPc.createId?, he] at hfresh
          case h_2 => cases hcreate
        case h_2 => cases hcreate
  | records recordId rc =>
    refine ⟨e, ?_, rfl, rfl⟩
    rw [recordSendResult, lookup_update]
    split
    case isTrue hid => rw [← hid, he, Option.map_some, sendResultEntry_finished ht]
    case isFalse => exact he

theorem callNext_submit {call : Nat} {pc : SubmitPc} {p' : CallPc} {answer : Shared.Answer}
    (h : callNext s call (.submit pc) answer = some (s', p')) :
    ∃ pc', p' = .submit pc' ∧ s.submitNext call pc answer = some (s', pc') := by
  obtain ⟨⟨s₁, pc₁⟩, hnext, heq⟩ := Option.map_eq_some_iff.mp h
  cases heq
  exact ⟨pc₁, rfl, hnext⟩

theorem callNext_cancel {call : Nat} {pc : CancelPc} {p' : CallPc} {answer : Shared.Answer}
    (h : callNext s call (.cancel pc) answer = some (s', p')) :
    ∃ pc', p' = .cancel pc' ∧ CancelStep s pc s' pc' := by
  simp only [callNext] at h
  split at h
  case isFalse => cases h
  case isTrue =>
    obtain ⟨⟨s₁, pc₁⟩, hnext, heq⟩ := Option.map_eq_some_iff.mp h
    cases heq
    exact ⟨pc₁, rfl, cancelNext_step hnext⟩

theorem CancelStep.effect {index : Nat} {answer : Shared.Answer} {pc pc' : CancelPc}
    (h : CancelStep c.shared pc s' pc') : Effect c (.resume index answer) s'.oms := by
  cases h with
  | cancelled orderId | notCancelled orderId => exact .idles (cancelOrder_idles c.shared.oms orderId)
  | failureRecorded orderId rc => exact .idles (recordCancelResult_idles c.shared.oms orderId rc)
  | _ => exact .same rfl

theorem WorkerStep.effect (h : WorkerStep c.shared s') : Effect c (.environment .worker) s'.oms := by
  cases h with
  | cancelRecorded request rc => exact .idles (recordCancelResult_idles c.shared.oms request.orderId rc)
  | marked order | refused order => exact .idles (markSendPending_idles c.shared.oms order.orderId)
  | refusalRecorded order rc hw => exact .records order.orderId rc (by simp [sendResult?, hw])
  | recorded order hw => exact .records order.orderId .success (by simp [sendResult?, hw])
  | failureRecorded order rc hw => exact .records order.orderId rc (by simp [sendResult?, hw])
  | released => exact .same (oms_release _ _ _)
  | _ => exact .same rfl

/-! ## Beside the lane -/

def onLane : Action → Bool
  | .environment (.orderReport _) | .environment (.tradeReport _) | .environment .lane => true
  | _ => false

/-- The event is no release, or one after a failure to send. -/
def Event.besideLane : Event → Prop
  | .released _ reason _ => reason = .emsEnqueueFailed
  | _ => True

/-- What a thread other than the lane leaves alone. -/
structure Beside (s s' : Shared) : Prop where
  lane : s'.lane = s.lane
  bridge : s'.bridge = s.bridge
  account : s'.account = s.account
  log : s'.log = s.log ∨ ∃ event, s'.log = event :: s.log ∧ event.besideLane

theorem Beside.emit (s : Shared) {event : Event} (h : event.besideLane) : Beside s (s.emit event) :=
  ⟨rfl, rfl, rfl, Or.inr ⟨event, rfl, h⟩⟩

theorem Beside.release (s : Shared) (orderId : String) : Beside s (s.release orderId .emsEnqueueFailed) := by
  unfold Shared.release
  split
  · exact Beside.emit s rfl
  · exact ⟨rfl, rfl, rfl, Or.inl rfl⟩

theorem CancelStep.beside {pc pc' : CancelPc} (h : CancelStep s pc s' pc') : Beside s s' := by
  cases h <;> exact ⟨rfl, rfl, rfl, Or.inl rfl⟩

theorem WorkerStep.beside (h : WorkerStep s s') : Beside s s' := by
  cases h with
  | sent => exact ⟨rfl, rfl, rfl, Or.inr ⟨_, rfl, trivial⟩⟩
  | released orderId =>
    have hrelease := Beside.release { s with worker := .idle } orderId
    exact ⟨hrelease.lane, hrelease.bridge, hrelease.account, hrelease.log⟩
  | _ => exact ⟨rfl, rfl, rfl, Or.inl rfl⟩

theorem submitNext_apart {index : Nat} {pc pc' : SubmitPc} {answer : Shared.Answer}
    (hpc : c.calls[index]? = some (.submit pc)) (h : c.shared.submitNext index pc answer = some (s', pc')) :
    Effect c (.resume index answer) s'.oms ∧ Beside c.shared s' := by
  unfold Shared.submitNext at h
  split at h
  case h_6 request =>
    cases h
    exact ⟨.idles ⟨rfl, rfl, (Evolves.refl OrderEntry.Idles.refl c.shared.oms).entries⟩, rfl, rfl, rfl, Or.inl rfl⟩
  case h_9 request orderId =>
    have hcreates : Effect c (.resume index .silent) (c.shared.oms.createOrder request orderId).2 :=
      .creates request orderId (by simp [create?, hpc])
    split at h <;> rename_i heq <;> cases h <;> rw [heq] at hcreates
    · exact ⟨hcreates, rfl, rfl, rfl, Or.inr ⟨_, rfl, trivial⟩⟩
    · exact ⟨hcreates, rfl, rfl, rfl, Or.inl rfl⟩
    · exact ⟨hcreates, rfl, rfl, rfl, Or.inl rfl⟩
  case h_11 request order =>
    cases h
    exact ⟨.idles (markEmsQueued_idles c.shared.oms order.orderId), rfl, rfl, rfl, Or.inl rfl⟩
  case h_13 request order rc =>
    cases h
    exact ⟨.records order.orderId rc (by simp [sendResult?, hpc]), rfl, rfl, rfl, Or.inl rfl⟩
  case h_14 request orderId rc =>
    cases h
    exact ⟨.same (oms_release _ _ _), Beside.release c.shared orderId⟩
  case h_15 => cases h
  all_goals
    try dsimp only at h
  all_goals try split at h
  all_goals
    simp only [Option.some.injEq, Prod.mk.injEq] at h
    obtain ⟨rfl, _⟩ := h
    refine ⟨.same rfl, ?_⟩
    first
    | exact ⟨rfl, rfl, rfl, Or.inl rfl⟩
    | exact ⟨rfl, rfl, rfl, Or.inr ⟨_, rfl, trivial⟩⟩

theorem step_apart (ha : onLane a = false) (h : step c a = some c') :
    Effect c a c'.shared.oms ∧ Beside c.shared c'.shared := by
  induction a with
  | start call =>
    cases h
    exact ⟨.same rfl, rfl, rfl, rfl, Or.inl rfl⟩
  | resume index answer =>
    obtain ⟨pc, pc', hpc, hnext, _⟩ := Calls.Program.step_resume h
    have hnext : callNext c.shared index pc answer = some (c'.shared, pc') := hnext
    induction pc with
    | submit pc =>
      obtain ⟨pc', rfl, hsubmit⟩ := callNext_submit hnext
      exact submitNext_apart hpc hsubmit
    | cancel pc =>
      obtain ⟨pc', rfl, hcancel⟩ := callNext_cancel hnext
      exact ⟨hcancel.effect, hcancel.beside⟩
  | environment event =>
    have hnext := (Calls.Program.step_environment h).1
    have hnext : engineStep c.shared event = some c'.shared := hnext
    induction event with
    | worker => exact ⟨(workerStep_step hnext).effect, (workerStep_step hnext).beside⟩
    | traderReturns rc =>
      obtain ⟨worker, hs, _⟩ := traderReturns_eq hnext
      rw [hs]
      exact ⟨.same rfl, rfl, rfl, rfl, Or.inl rfl⟩
    | _ => cases ha

theorem step_beside (ha : onLane a = false) (h : step c a = some c') : Beside c.shared c'.shared :=
  (step_apart ha h).2

theorem step_effect (ha : takesReport a = false) (h : step c a = some c') : Effect c a c'.shared.oms := by
  by_cases hon : onLane a = true
  · unfold onLane at hon
    split at hon
    case h_1 => cases ha
    case h_2 => cases ha
    case h_3 => exact .same (laneStep_step (Calls.Program.step_environment h).1).frame.1
    case h_4 => cases hon
  · exact (step_apart (by simpa using hon) h).1

theorem step_extends (h : step c a = some c') : Extends c.shared.oms c'.shared.oms := by
  by_cases ha : takesReport a = true
  · unfold takesReport at ha
    split at ha
    case h_1 report =>
      obtain ⟨_, _, hs⟩ := orderReport_eq (Calls.Program.step_environment h).1
      rw [hs]
      exact (applyOrderReport_evolves c.shared.oms report).extends fun _ _ ha => ha.orderId
    case h_2 report =>
      obtain ⟨_, _, hs⟩ := tradeReport_eq (Calls.Program.step_environment h).1
      rw [hs]
      exact (applyTradeReport_evolves c.shared.oms report).extends fun _ _ ha => ha.orderId
    case h_3 => cases ha
  · exact (step_effect (by simpa using ha) h).extends

theorem step_log (h : step c a = some c') : c.shared.log <:+ c'.shared.log ∧ c'.shared.bridge = c.shared.bridge := by
  by_cases ha : onLane a = true
  · unfold onLane at ha
    split at ha
    case h_1 report =>
      obtain ⟨_, _, hs⟩ := orderReport_eq (Calls.Program.step_environment h).1
      rw [hs]
      exact ⟨List.suffix_rfl, rfl⟩
    case h_2 report =>
      obtain ⟨_, _, hs⟩ := tradeReport_eq (Calls.Program.step_environment h).1
      rw [hs]
      exact ⟨List.suffix_rfl, rfl⟩
    case h_3 =>
      obtain ⟨_, _, _, hbridge, hlog⟩ := (laneStep_step (Calls.Program.step_environment h).1).frame
      exact ⟨hlog.suffix, hbridge⟩
    case h_4 => cases ha
  · have hbeside := step_beside (by simpa using ha) h
    refine ⟨?_, hbeside.bridge⟩
    rcases hbeside.log with hlog | ⟨event, hlog, _⟩
    · rw [hlog]
    · rw [hlog]
      exact List.suffix_cons event _

end Qtrade.Trading
