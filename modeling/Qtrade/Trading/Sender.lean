import Qtrade.Engine.TradingEngine
import Qtrade.Trading.AtMostOnce

/-!
# The order sender

Strategies reach `Submit` through the sender that the engine gives them: the engine has to be ready, and then the
requests of the batch are submitted one after another.
-/

namespace Qtrade.Trading

open Qtrade.Ems (WorkItem ExecutionManager)
open Qtrade.Engine (EngineLifecycle EngineState)
open Qtrade.Oms
open Qtrade.Oms.OrderManager

/-! ## The sender -/

inductive BatchPc
  | gate
  | submitting
  | returned (rc : ErrorCode)
  | threw
deriving DecidableEq

/-- A call of the sender. `begun` has the numbers of its calls of `Submit`. -/
structure Batch where
  requests : List OrderRequest
  begun : List Nat := []
  pc : BatchPc := .gate
deriving DecidableEq

structure Gateway where
  lifecycle : EngineLifecycle := {}
  trading : System

namespace Gateway

/-- The loop of `SubmitBatch`: the next request, or the end. -/
def submitNext (s : Gateway) (batch : Batch) : Gateway × Batch :=
  match batch.requests[batch.begun.length]? with
  | none => (s, { batch with pc := .returned .success })
  | some request =>
    ({ s with trading := { s.trading with calls := s.trading.calls ++ [callEntry (.submit request)] } },
      { batch with begun := batch.begun ++ [s.trading.calls.length], pc := .submitting })

/-- The call of `Submit` that the batch waits for. -/
def current (s : Gateway) (batch : Batch) : Option CallPc := batch.begun.getLast?.bind (s.trading.calls[·]?)

def next (s : Gateway) (batch : Batch) : Option (Gateway × Batch) :=
  match batch.pc with
  | .gate =>
    if s.lifecycle.state = .ready then some (s.submitNext batch)
    else some (s, { batch with pc := .returned .notInitialized })
  | .submitting =>
    match s.current batch with
    | some (.submit (.done _ rc)) =>
      if rc = .success then some (s.submitNext batch) else some (s, { batch with pc := .returned rc })
    | some (.submit (.threw _)) => some (s, { batch with pc := .threw })
    | _ => none
  | .returned _ => none
  | .threw => none

end Gateway

/-- What else goes on. Requests come through the sender only. -/
inductive GatewayEvent
  | trading (action : Action)
  | transition (target : EngineState) (reason : String)

def isSubmit : Action → Bool
  | .start (.submit _) => true
  | _ => false

def gatewayStep (s : Gateway) : GatewayEvent → Option Gateway
  | .trading action => if isSubmit action then none else (step s.trading action).map fun trading => { s with trading }
  | .transition target reason => some { s with lifecycle := (s.lifecycle.transition target reason).2 }

def orderSender : Calls.Program Gateway (List OrderRequest) Batch Unit GatewayEvent where
  entry requests := { requests }
  next s _ batch _ := s.next batch
  environment := gatewayStep

abbrev Senders := Calls.Config Gateway Batch

/-! ## The trading system below -/

section Below

variable {c c' : Senders} {ok : Senders → Calls.Action (List OrderRequest) Unit GatewayEvent → Prop}

/-- A batch goes on with the trading system as it is, or begins one call of `Submit`. -/
inductive BatchStep (s : Gateway) (batch : Batch) : Gateway → Batch → Prop
  | refused (hpc : batch.pc = .gate) (hstate : s.lifecycle.state ≠ .ready) :
      BatchStep s batch s { batch with pc := .returned .notInitialized }
  | begun (request : OrderRequest) (hrequest : batch.requests[batch.begun.length]? = some request)
      (hready : batch.pc = .gate ∧ s.lifecycle.state = .ready ∨
        batch.pc = .submitting ∧ ∃ request, s.current batch = some (.submit (.done request .success))) :
      BatchStep s batch
        { s with trading := { s.trading with calls := s.trading.calls ++ [callEntry (.submit request)] } }
        { batch with begun := batch.begun ++ [s.trading.calls.length], pc := .submitting }
  | finished (hend : batch.requests.length ≤ batch.begun.length)
      (hready : batch.pc = .gate ∧ s.lifecycle.state = .ready ∨
        batch.pc = .submitting ∧ ∃ request, s.current batch = some (.submit (.done request .success))) :
      BatchStep s batch s { batch with pc := .returned .success }
  | failed (request : OrderRequest) (rc : ErrorCode) (hpc : batch.pc = .submitting)
      (hcurrent : s.current batch = some (.submit (.done request rc))) (hrc : rc ≠ .success) :
      BatchStep s batch s { batch with pc := .returned rc }
  | threw (request : OrderRequest) (hpc : batch.pc = .submitting)
      (hcurrent : s.current batch = some (.submit (.threw request))) :
      BatchStep s batch s { batch with pc := .threw }

variable {s s' : Gateway} {batch batch' : Batch}

theorem BatchStep.submitNext
    (hready : batch.pc = .gate ∧ s.lifecycle.state = .ready ∨
      batch.pc = .submitting ∧ ∃ request, s.current batch = some (.submit (.done request .success))) :
    BatchStep s batch (s.submitNext batch).1 (s.submitNext batch).2 := by
  unfold Gateway.submitNext
  cases hrequest : batch.requests[batch.begun.length]? with
  | none => exact .finished (List.getElem?_eq_none_iff.mp hrequest) hready
  | some request => exact .begun request hrequest hready

theorem next_step (h : s.next batch = some (s', batch')) : BatchStep s batch s' batch' := by
  unfold Gateway.next at h
  cases hpc : batch.pc with
  | gate =>
    rw [hpc] at h
    dsimp only at h
    split at h
    case isTrue hstate =>
      have hmove : BatchStep s batch _ _ := .submitNext (Or.inl ⟨hpc, hstate⟩)
      rw [Option.some.inj h] at hmove
      exact hmove
    case isFalse hstate =>
      cases h
      exact .refused hpc hstate
  | submitting =>
    rw [hpc] at h
    dsimp only at h
    split at h
    case h_1 request rc hcurrent =>
      split at h
      case isTrue hrc =>
        subst hrc
        have hmove : BatchStep s batch _ _ := .submitNext (Or.inr ⟨hpc, request, hcurrent⟩)
        rw [Option.some.inj h] at hmove
        exact hmove
      case isFalse hrc =>
        cases h
        exact .failed request rc hpc hcurrent hrc
    case h_2 request hcurrent =>
      cases h
      exact .threw request hpc hcurrent
    case h_3 => cases h
  | returned rc =>
    rw [hpc] at h
    cases h
  | threw =>
    rw [hpc] at h
    cases h

/-- Every run of the senders is a run of the trading system. -/
theorem reaches_trading (h : Runs.Reaches orderSender.step ok c c') :
    Runs.Reaches step Runs.anyStep c.shared.trading c'.shared.trading := by
  refine h.invariant (P := fun c' => Runs.Reaches step Runs.anyStep c.shared.trading c'.shared.trading) (.refl _)
    fun c₁ a c₂ hreached _ hs => ?_
  cases a with
  | start requests =>
    cases hs
    exact hreached
  | resume index input =>
    obtain ⟨batch, batch', -, hnext, -⟩ := Calls.Program.step_resume hs
    generalize c₂.shared = s' at hnext
    cases next_step hnext with
    | begun request => exact hreached.tail (a := .start (.submit request)) trivial rfl
    | _ => exact hreached
  | environment event =>
    obtain ⟨henv, -⟩ := Calls.Program.step_environment hs
    cases event with
    | trading action =>
      change (if isSubmit action then none else _) = _ at henv
      split at henv
      case isTrue => cases henv
      case isFalse =>
        obtain ⟨trading, hstep, heq⟩ := Option.map_eq_some_iff.mp henv
        rw [← heq]
        exact hreached.tail trivial hstep
    | transition target reason =>
      rw [← Option.some.inj henv]
      exact hreached

end Below

/-! ## What is still to be sent -/

/-- The orders that a call may yet put into the queue. -/
def SubmitPc.toSend : SubmitPc → Nat
  | .recordFailure _ _ _ => 0
  | .release _ _ _ => 0
  | .done _ _ => 0
  | .threw _ => 0
  | _ => 1

def CallPc.toSend : CallPc → Nat
  | .submit pc => pc.toSend
  | .cancel _ => 0

def WorkerPc.toSend : WorkerPc → Nat
  | .dequeued _ => 1
  | .marked _ => 1
  | _ => 0

def toSendItem : WorkItem → Bool
  | .send _ => true
  | .cancel _ => false

/-- In the queue, or in the hand of the worker. -/
def Shared.toSend (s : Shared) : Nat := s.ems.pendingItems.countP toSendItem + s.worker.toSend

/-- Of a batch, the requests that have no call of `Submit` yet. Before the gate there is none to come. -/
def Batch.toSend (batch : Batch) : Nat :=
  if batch.pc = .submitting then batch.requests.length - batch.begun.length else 0

def sentCount (s : Shared) : Nat := (sentIds s.log).length

section ToSend

variable {s s' : Shared}

theorem sentCount_eq (h : Unsent s s') : sentCount s' = sentCount s := by
  unfold sentCount sentIds
  rw [h.sends]

theorem weight_eq (hlog : Unsent s s') (hems : s'.ems = s.ems) (hworker : s'.worker = s.worker) :
    sentCount s' + s'.toSend = sentCount s + s.toSend := by
  unfold Shared.toSend
  rw [sentCount_eq hlog, hems, hworker]

theorem unsent_emit {event : Event} (h : ∀ orderId request, event ≠ .sent orderId request) : Unsent s (s.emit event) :=
  Or.inr ⟨event, rfl, h⟩

theorem countP_enqueue (ems : ExecutionManager) (order : Order) :
    (ems.enqueue order).2.pendingItems.countP toSendItem ≤ ems.pendingItems.countP toSendItem + 1 := by
  unfold ExecutionManager.enqueue
  split <;> simp [toSendItem]

theorem countP_enqueueCancel (ems : ExecutionManager) (request : CancelOrderRequest) :
    (ems.enqueueCancel request).2.pendingItems.countP toSendItem = ems.pendingItems.countP toSendItem := by
  unfold ExecutionManager.enqueueCancel
  split <;> simp [toSendItem]

theorem submitNext_weight {call : Nat} {pc pc' : SubmitPc} {answer : Shared.Answer}
    (h : s.submitNext call pc answer = some (s', pc')) :
    sentCount s' + s'.toSend + pc'.toSend ≤ sentCount s + s.toSend + pc.toSend := by
  have hle : ∀ pc : SubmitPc, pc.toSend ≤ 1 := by
    intro pc
    cases pc <;> simp [SubmitPc.toSend]
  have hsame : Unsent s s' → s'.ems = s.ems → s'.worker = s.worker → pc.toSend = 1 →
      sentCount s' + s'.toSend + pc'.toSend ≤ sentCount s + s.toSend + pc.toSend := by
    intro hlog hems hworker hpc
    rw [weight_eq hlog hems hworker, hpc]
    exact Nat.add_le_add_left (hle pc') _
  unfold Shared.submitNext at h
  split at h
  case h_1 | h_4 | h_7 | h_8 =>
    cases h
    exact hsame (unsent_emit (by simp)) rfl rfl rfl
  case h_2 | h_3 =>
    dsimp only at h
    split at h <;> cases h
    · exact hsame (Or.inl rfl) rfl rfl rfl
    · exact hsame (unsent_emit (by simp)) rfl rfl rfl
  case h_5 | h_10 => split at h <;> cases h <;> exact hsame (Or.inl rfl) rfl rfl rfl
  case h_6 | h_11 =>
    cases h
    exact hsame (Or.inl rfl) rfl rfl rfl
  case h_9 =>
    split at h <;> cases h
    · exact hsame (Or.inr ⟨_, rfl, by simp⟩) rfl rfl rfl
    · exact hsame (Or.inl rfl) rfl rfl rfl
    · exact hsame (Or.inl rfl) rfl rfl rfl
  case h_12 _ request order =>
    cases h
    have hover : ∀ rc : ErrorCode, (if rc = .success then SubmitPc.done request .success
        else .recordFailure request order rc).toSend = 0 := by
      intro rc
      split <;> rfl
    have hqueue := countP_enqueue s.ems order
    rw [hover, sentCount_eq (s := s) (Or.inr ⟨_, rfl, by simp⟩)]
    simp only [Shared.toSend, Shared.emit, SubmitPc.toSend]
    omega
  case h_13 =>
    cases h
    rw [weight_eq (s := s) (Or.inl rfl) rfl rfl]
    exact Nat.le_refl _
  case h_14 =>
    cases h
    rw [weight_eq (unsent_release _ _ _) (ems_release _ _ _) (worker_release _ _ _)]
    exact Nat.le_refl _
  case h_15 => cases h

theorem cancelNext_weight {pc pc' : CancelPc} (h : s.cancelNext pc = some (s', pc')) :
    sentCount s' + s'.toSend ≤ sentCount s + s.toSend := by
  unfold Shared.cancelNext at h
  split at h
  case h_1 => split at h <;> cases h <;> exact Nat.le_refl _
  case h_2 | h_4 =>
    cases h
    exact Nat.le_refl _
  case h_3 =>
    cases h
    simp only [Shared.toSend, countP_enqueueCancel]
    exact Nat.le_refl _
  case h_5 => cases h

theorem WorkerStep.weight (h : WorkerStep s s') : sentCount s' + s'.toSend ≤ sentCount s + s.toSend := by
  have hmove : Unsent s s' → s'.ems = s.ems → s'.worker.toSend ≤ s.worker.toSend →
      sentCount s' + s'.toSend ≤ sentCount s + s.toSend := by
    intro hlog hems hworker
    unfold Shared.toSend
    rw [sentCount_eq hlog, hems]
    exact Nat.add_le_add_left (Nat.add_le_add_left hworker _) _
  cases h with
  | takesCancel request rest hw hq => simp [Shared.toSend, sentCount, hw, hq, WorkerPc.toSend, toSendItem]
  | takesOrder order rest hw hq =>
    simp [Shared.toSend, sentCount, hw, hq, WorkerPc.toSend, toSendItem, List.countP_cons]
  -- What was to be sent is sent.
  | sent order hw => simp [Shared.toSend, sentCount, sentIds, sends, hw, Shared.emit, WorkerPc.toSend]; omega
  | released orderId hw =>
    have hlog := unsent_release { s with worker := .idle } orderId .emsEnqueueFailed
    exact hmove hlog (ems_release _ _ _) (by simp [worker_release, WorkerPc.toSend])
  | marked order hw => exact hmove (Or.inl rfl) rfl (by simp [hw, WorkerPc.toSend])
  | _ => exact hmove (Or.inl rfl) rfl (by simp [WorkerPc.toSend])

theorem engineStep_weight {event : EngineEvent} (h : engineStep s event = some s') :
    sentCount s' + s'.toSend ≤ sentCount s + s.toSend := by
  by_cases hevent : event = .worker
  · subst hevent
    exact (workerStep_step h).weight
  · obtain ⟨hquiet, hems⟩ := laneEvent_quiet hevent h
    unfold Shared.toSend
    rw [sentCount_eq hquiet.unsent, hems]
    rcases laneEvent_worker hevent h with hw | ⟨_, _, -, hw⟩ | ⟨_, _, -, hw⟩
    · rw [hw]
    · rw [hw]
      exact Nat.add_le_add_left (Nat.add_le_add_left (Nat.zero_le _) _) _
    · rw [hw]
      exact Nat.add_le_add_left (Nat.add_le_add_left (Nat.zero_le _) _) _

/-- The trading system, to which no request comes. -/
def tradingWeight : Calls.Program.Weight program (fun _ a => isSubmit a = false) where
  shared s := sentCount s + s.toSend
  call := CallPc.toSend
  start _ entered hok := by
    cases entered with
    | submit request => cases hok
    | cancel orderId => rfl
  resume c index pc input s' pc' _ _ hnext := by
    cases pc with
    | submit pc =>
      obtain ⟨⟨_, pc'⟩, hsubmit, heq⟩ := Option.map_eq_some_iff.mp hnext
      cases heq
      exact submitNext_weight hsubmit
    | cancel pc =>
      change (if input = .silent then (c.shared.cancelNext pc).map _ else none) = _ at hnext
      split at hnext
      case isTrue =>
        obtain ⟨⟨_, pc'⟩, hcancel, heq⟩ := Option.map_eq_some_iff.mp hnext
        cases heq
        exact cancelNext_weight hcancel
      case isFalse => cases hnext
  environment _ _ _ _ henv := engineStep_weight henv

end ToSend

/-! ## After the engine is not ready any more -/

/-- What can still be sent: the queue and the worker, the calls of `Submit`, and what is left of the batches. -/
def toSend (c : Senders) : Nat :=
  c.shared.trading.shared.toSend + (c.shared.trading.calls.map CallPc.toSend).sum + (c.calls.map Batch.toSend).sum

def notReady (c : Senders) (_ : Calls.Action (List OrderRequest) Unit GatewayEvent) : Prop :=
  c.shared.lifecycle.state ≠ .ready

theorem BatchStep.weight {s s' : Gateway} {batch batch' : Batch} (h : BatchStep s batch s' batch')
    (hstate : s.lifecycle.state ≠ .ready) :
    tradingWeight.total s'.trading + batch'.toSend ≤ tradingWeight.total s.trading + batch.toSend := by
  cases h with
  | begun request hrequest hready =>
    obtain ⟨hpc, -⟩ := hready.resolve_left fun hgate => hstate hgate.2
    obtain ⟨hlt, -⟩ := List.getElem?_eq_some_iff.mp hrequest
    -- The request leaves the batch and is in the hand of its call.
    simp only [Calls.Program.Weight.total, tradingWeight, Batch.toSend, hpc, if_true, List.map_append,
      List.map_singleton, List.sum_append, List.sum_singleton, List.length_append, List.length_singleton, callEntry,
      CallPc.toSend, SubmitPc.toSend]
    omega
  | _ => exact Nat.add_le_add_left (by simp [Batch.toSend]) _

/-- The senders of an engine that is not ready. -/
def senderWeight : Calls.Program.Weight orderSender notReady where
  shared s := tradingWeight.total s.trading
  call := Batch.toSend
  start _ _ _ := rfl
  resume _ _ _ _ _ _ _ hok hnext := (next_step hnext).weight hok
  environment c event s' _ henv := by
    cases event with
    | trading action =>
      change (if isSubmit action then none else _) = _ at henv
      split at henv
      case isTrue => cases henv
      case isFalse hother =>
        obtain ⟨trading, hstep, rfl⟩ := Option.map_eq_some_iff.mp henv
        exact tradingWeight.total_step (by simpa using hother) hstep
    | transition target reason =>
      cases henv
      exact Nat.le_refl _

/-- A batch that has come too late: it waits for the gate, or was refused there. -/
structure Batch.Barred (batch : Batch) : Prop where
  begun : batch.begun = []
  pc : batch.pc = .gate ∨ batch.pc = .returned .notInitialized

theorem BatchStep.barred {s s' : Gateway} {batch batch' : Batch} (h : BatchStep s batch s' batch')
    (hstate : s.lifecycle.state ≠ .ready) (hb : batch.Barred) : batch'.Barred := by
  have hclosed : ∀ {p : Prop}, ¬(batch.pc = .gate ∧ s.lifecycle.state = .ready ∨ batch.pc = .submitting ∧ p) := by
    rintro p (⟨-, hready⟩ | ⟨hpc, -⟩)
    · exact hstate hready
    · rcases hb.pc with hgate | hreturned
      · exact BatchPc.noConfusion (hgate.symm.trans hpc)
      · exact BatchPc.noConfusion (hreturned.symm.trans hpc)
  cases h with
  | refused => exact ⟨hb.begun, Or.inr rfl⟩
  | begun _ _ hready => exact absurd hready hclosed
  | finished _ hready => exact absurd hready hclosed
  | failed _ _ hpc => exact absurd (Or.inr ⟨hpc, trivial⟩) hclosed
  | threw _ hpc => exact absurd (Or.inr ⟨hpc, trivial⟩) hclosed

/-- The batches from a number on come too late. -/
def barredOutline (first : Nat) : Calls.Program.Outline orderSender notReady where
  inv _ := True
  holds _ index batch := first ≤ index → batch.Barred
  rely _ _ _ := True
  start _ _ _ _ _ := ⟨rfl, Or.inl rfl⟩
  resume _ _ _ _ _ _ _ hold _ hok hnext :=
    ⟨trivial, fun hfirst => (next_step hnext).barred hok (hold hfirst), fun _ _ => trivial⟩
  environment _ _ _ _ _ _ := ⟨trivial, fun _ => trivial⟩
  stable _ _ _ _ _ hold := hold

/-- While the engine is not ready, no more is sent than was on its way before, and no new batch comes to `Submit`. -/
theorem unready_sends {c c' : Senders} (h : Runs.Reaches orderSender.step notReady c c') :
    sentCount c'.shared.trading.shared ≤ sentCount c.shared.trading.shared + toSend c ∧
      ∀ i batch, c.calls.length ≤ i → c'.calls[i]? = some batch →
        batch.begun = [] ∧ (batch.pc = .gate ∨ batch.pc = .returned .notInitialized) := by
  constructor
  · have hweight := senderWeight.total_reaches h
    simp only [Calls.Program.Weight.total, senderWeight, tradingWeight] at hweight
    unfold toSend
    omega
  · intro i batch hi hbatch
    have hvalid : (barredOutline c.calls.length).Valid c := by
      refine ⟨trivial, fun index batch hbatch hfirst => ?_⟩
      obtain ⟨hlt, -⟩ := List.getElem?_eq_some_iff.mp hbatch
      exact absurd hlt (Nat.not_lt.mpr hfirst)
    have hbarred := ((barredOutline c.calls.length).valid_of_reaches h hvalid).2 i batch hbatch hi
    exact ⟨hbarred.begun, hbarred.pc⟩

/-! ### Two orders and a batch that comes too late -/

def readySenders : Senders where
  shared := { lifecycle := { state := .ready }, trading := opening }
  calls := []

def limitBuys : List OrderRequest := [limitBuy, { limitBuy with clientOrderId := 2 }]

/-- Past the gate with its first request. -/
def batchBegun : List (Calls.Action (List OrderRequest) Unit GatewayEvent) :=
  [.start limitBuys, .resume 0 (), .environment (.transition .frozen "MARKET_UNHEALTHY")]

/-- A call of `Submit` up to its end, and the worker up to the return of the trader. -/
def submitAndSend (call : Nat) : List (Calls.Action (List OrderRequest) Unit GatewayEvent) :=
  let actions : List Action := checks call ++ approve call :: List.replicate 4 (.resume call .silent) ++
    workerToTrader ++ [.environment (.traderReturns .success), .environment .worker]
  actions.map fun action => .environment (.trading action)

def batchFinished : List (Calls.Action (List OrderRequest) Unit GatewayEvent) :=
  submitAndSend 0 ++ .resume 0 () :: submitAndSend 1 ++ [.resume 0 (), .start limitBuys, .resume 1 ()]

instance : DecidableRel notReady := fun _ _ => instDecidableNot

/-- Both orders of the batch were on their way when the engine was frozen. -/
theorem unready_sends_frozen : ∃ c c' : Senders, Runs.Reaches orderSender.step Runs.anyStep readySenders c ∧
    Runs.Reaches orderSender.step notReady c c' ∧ sentCount c.shared.trading.shared = 0 ∧ toSend c = 2 ∧
    sentCount c'.shared.trading.shared = 2 ∧ sentCount c'.shared.trading.shared ≤ 0 + 2 ∧
    ∀ batch, c'.calls[1]? = some batch → batch.begun = [] := by
  have hbefore : ∃ c ∈ Runs.exec orderSender.step readySenders batchBegun,
      sentCount c.shared.trading.shared = 0 ∧ toSend c = 2 ∧ c.calls.length = 1 ∧
        ∃ c' ∈ Runs.execWhile orderSender.step notReady c batchFinished,
          sentCount c'.shared.trading.shared = 2 := by decide +kernel
  obtain ⟨c, hc, hsent, htoSend, hlength, c', hc', hsent'⟩ := hbefore
  have hreach := Runs.reaches_of_execWhile _ hc'
  have hbound := unready_sends hreach
  rw [hsent, htoSend, hlength] at hbound
  exact ⟨c, c', Runs.reaches_of_exec _ hc, hreach, hsent, htoSend, hsent', hbound.1,
    fun batch hbatch => (hbound.2 1 batch le_rfl hbatch).1⟩

end Qtrade.Trading
