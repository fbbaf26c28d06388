import Qtrade.Oms.Startup
import Qtrade.Trading.System

/-!
# What one step of a thread does

One constructor for each way through the code of a thread, with the condition under which it is
taken. Proofs about runs go by cases on these and never unfold the step functions.
-/

namespace Qtrade.Oms.OrderManager

/-- The table has an entry for the order, with its client id. -/
def Holds (s : OrderManager) (order : Order) : Prop :=
  ∃ e, s.orders.lookup order.orderId = some e ∧ e.order.clientOrderId = order.clientOrderId

variable {s s' : OrderManager} {order : Order}

theorem Holds.change (h : s.Holds order) (hs : Change s s') : s'.Holds order := by
  obtain ⟨e, he, hc⟩ := h
  obtain ⟨e', he', ha⟩ := hs.lookup he
  exact ⟨e', he', ha.clientOrderId.trans hc⟩

theorem WellFormed.holds (h : s.WellFormed) {id : String} {e : OrderEntry}
    (he : s.orders.lookup id = some e) : s.Holds e.order :=
  ⟨e, by rw [(h.key id e he).2]; exact he, rfl⟩

end Qtrade.Oms.OrderManager

namespace Qtrade.Trading

open Qtrade.Ems (WorkItem ExecutionManager)
open Qtrade.Risk (RiskManager)
open Qtrade.Oms
open Qtrade.Oms.OrderManager

/-! ## What the threads carry -/

/-- The order that a `Submit` carries from its creation to the queue. -/
def CallPc.order? : CallPc → Option Order
  | .submit (.lifecycle _ order) => some order
  | .submit (.markQueued _ order) => some order
  | .submit (.enqueue _ order) => some order
  | .submit (.recordFailure _ order _) => some order
  | _ => none

/-- The answer with which the queue refused an order. -/
def CallPc.failure? : CallPc → Option ErrorCode
  | .submit (.recordFailure _ _ rc) => some rc
  | _ => none

/-- The id that a `Submit` has allocated for an order it has not created yet. -/
def CallPc.allocatedId? : CallPc → Option String
  | .submit (.reserve _ orderId) => some orderId
  | .submit (.query _ orderId) => some orderId
  | .submit (.create _ orderId) => some orderId
  | _ => none

/-- The order that the worker is sending. -/
def WorkerPc.order? : WorkerPc → Option Order
  | .dequeued order => some order
  | .refused order _ => some order
  | .marked order => some order
  | .sending order => some order
  | .returned order _ => some order
  | _ => none

/-- The id of the order that a `Submit` is about to store. -/
def CallPc.createId? : CallPc → Option String
  | .submit (.create _ orderId) => some orderId
  | _ => none

/-- `CreateOrder` gets an id that is not a key of the table. -/
def fresh (c : System) : Action → Bool
  | .resume index _ =>
    match c.calls[index]?.bind CallPc.createId? with
    | some orderId => (c.shared.oms.orders.lookup orderId).isNone
    | none => true
  | _ => true

/-- The order has no entry, or its lifecycle is one of these. -/
def lifecycleIs (s : Shared) (orderId : String) (p : OrderLifecycleState → Bool) : Bool :=
  (s.oms.getLifecycleState orderId).all p

theorem lifecycleIs_eq {s : Shared} {orderId : String} {e : OrderEntry} (he : s.oms.orders.lookup orderId = some e)
    (p : OrderLifecycleState → Bool) : lifecycleIs s orderId p = p e.lifecycleState := by
  simp [lifecycleIs, getLifecycleState, he]

/-! ## The invariant of a session -/

structure Session (s : Shared) : Prop where
  wellFormed : s.oms.WellFormed
  initialized : s.oms.initialized = true
  queued : ∀ order, .send order ∈ s.ems.pendingItems → s.oms.Holds order
  working : ∀ order, s.worker.order? = some order → s.oms.Holds order

structure SessionCall (s : Shared) (pc : CallPc) : Prop where
  carries : ∀ order, pc.order? = some order → s.oms.Holds order
  allocated : ∀ orderId, pc.allocatedId? = some orderId → orderId ≠ ""
  refused : ∀ rc, pc.failure? = some rc → rc ≠ .success ∧ rc ≠ .timeout

/-! ## What one step of `Submit` does -/

/-- The steps of `Submit`, one constructor for each way through its code in a session. -/
inductive SubmitStep (s : Shared) (call : Nat) : SubmitPc → Shared → SubmitPc → Prop
  | compliant (request : OrderRequest) (h : s.compliance.checkOrder request = .success) :
      SubmitStep s call (.compliance request) (s.emit (.compliance call request .success)) (.risk request)
  | uncompliant (request : OrderRequest) (rc : ErrorCode) (h : rc ≠ .success) :
      SubmitStep s call (.compliance request) (s.emit (.compliance call request rc)) (.done request rc)
  | budget (request : OrderRequest) :
      SubmitStep s call (.risk request) s (.riskOpenOrders request s.risk)
  | openOrders (request : OrderRequest) (budget : RiskManager) :
      SubmitStep s call (.riskOpenOrders request budget) s (.riskNotional request budget)
  | affordable (request : OrderRequest) (budget : RiskManager) :
      SubmitStep s call (.riskNotional request budget) (s.emit (.risk call request .success))
        (.duplicate request)
  | unaffordable (pc : SubmitPc) (request : OrderRequest) (rc : ErrorCode) (h : rc ≠ .success)
      (hpc : pc = .risk request ∨ (∃ budget, pc = .riskOpenOrders request budget) ∨
        ∃ budget, pc = .riskNotional request budget) :
      SubmitStep s call pc (s.emit (.risk call request rc)) (.done request rc)
  | known (request : OrderRequest) (order : Order) (hc : request.clientOrderId ≠ 0)
      (h : s.oms.getOrderByClientId request.clientOrderId = some order) :
      SubmitStep s call (.duplicate request) s (.done request .success)
  | unknown (request : OrderRequest) :
      SubmitStep s call (.duplicate request) s (.allocate request)
  | allocated (request : OrderRequest) (pc' : SubmitPc)
      (h : pc' = if s.bridge then .reserve request s.oms.nextOrderId else .create request s.oms.nextOrderId) :
      SubmitStep s call (.allocate request) { s with oms := s.oms.allocateOrderId.2 } pc'
  | reserved (request : OrderRequest) (orderId : String) (answer : Result ReserveOrderResult)
      (h : Shared.reserveApproved answer = true) :
      SubmitStep s call (.reserve request orderId)
        (s.emit (.reserve (s.intent request orderId) answer)) (.create request orderId)
  | reserveUnknown (request : OrderRequest) (orderId : String) (answer : Result ReserveOrderResult)
      (h : Shared.reserveUnknown answer = true) :
      SubmitStep s call (.reserve request orderId)
        (s.emit (.reserve (s.intent request orderId) answer)) (.query request orderId)
  | reserveRefused (request : OrderRequest) (orderId : String) (answer : Result ReserveOrderResult)
      (rc : ErrorCode) (h : rc ≠ .success) :
      SubmitStep s call (.reserve request orderId)
        (s.emit (.reserve (s.intent request orderId) answer)) (.done request rc)
  | queryReserved (request : OrderRequest) (orderId : String) (answer : Result Reservation)
      (h : Shared.queryReserved answer = true) :
      SubmitStep s call (.query request orderId) (s.emit (.query orderId answer)) (.create request orderId)
  | queryFailed (request : OrderRequest) (orderId : String) (answer : Result Reservation)
      (h : Shared.queryReserved answer = false) :
      SubmitStep s call (.query request orderId) (s.emit (.query orderId answer))
        (.done request (if answer.errorCode = .notFound then .timeout else answer.errorCode))
  | existing (request : OrderRequest) (orderId : String) (e : OrderEntry)
      (he : s.oms.orders.lookup e.order.orderId = some e) (hc : request.clientOrderId ≠ 0)
      (h : e.order.clientOrderId = request.clientOrderId) :
      SubmitStep s call (.create request orderId) (s.emit (.created call orderId e.order))
        (.lifecycle request e.order)
  | born (request : OrderRequest) (orderId : String) (hid : orderId ≠ "")
      (hfresh : s.oms.orders.lookup orderId = none)
      (hc : request.clientOrderId ≠ 0 → s.oms.clientOrderIndex.lookup request.clientOrderId = none) :
      SubmitStep s call (.create request orderId)
        ({ s with oms := s.oms.born request orderId }.emit
          (.created call orderId (newEntry request orderId).order))
        (.lifecycle request (newEntry request orderId).order)
  | pastQueue (request : OrderRequest) (order : Order) (e : OrderEntry)
      (he : s.oms.orders.lookup order.orderId = some e) (h : e.lifecycleState ≠ .prepared) :
      SubmitStep s call (.lifecycle request order) s (.done request .success)
  | prepared (request : OrderRequest) (order : Order) (e : OrderEntry)
      (he : s.oms.orders.lookup order.orderId = some e) (h : e.lifecycleState = .prepared) :
      SubmitStep s call (.lifecycle request order) s (.markQueued request order)
  | queued (request : OrderRequest) (order : Order) (e : OrderEntry)
      (he : s.oms.orders.lookup order.orderId = some e)
      (h : e.lifecycleState = .prepared ∨ e.lifecycleState = .emsQueued) :
      SubmitStep s call (.markQueued request order)
        { s with oms := (s.oms.markEmsQueued order.orderId).2 } (.enqueue request order)
  | notQueued (request : OrderRequest) (order : Order) (e : OrderEntry)
      (he : s.oms.orders.lookup order.orderId = some e) (h : e.lifecycleState ≠ .prepared)
      (h' : e.lifecycleState ≠ .emsQueued) :
      SubmitStep s call (.markQueued request order) s (.release request order.orderId .systemError)
  | enqueued (request : OrderRequest) (order : Order) (h : s.ems.admits = .success) :
      SubmitStep s call (.enqueue request order)
        ({ s with ems := { s.ems with pendingItems := s.ems.pendingItems ++ [WorkItem.send order] } }.emit
          (.enqueue order .success (s.oms.getLifecycleState order.orderId))) (.done request .success)
  | notEnqueued (request : OrderRequest) (order : Order) (h : s.ems.admits ≠ .success) :
      SubmitStep s call (.enqueue request order)
        (s.emit (.enqueue order s.ems.admits (s.oms.getLifecycleState order.orderId)))
        (.recordFailure request order s.ems.admits)
  | failureRecorded (request : OrderRequest) (order : Order) (rc : ErrorCode) :
      SubmitStep s call (.recordFailure request order rc)
        { s with oms := (s.oms.recordSendResult order.orderId rc).2 } (.release request order.orderId rc)
  | released (request : OrderRequest) (orderId : String) (rc : ErrorCode) :
      SubmitStep s call (.release request orderId rc) (s.release orderId .emsEnqueueFailed)
        (.done request rc)

variable {s s' : Shared}

theorem submitNext_create {call : Nat} {request : OrderRequest} {orderId : String} {pc' : SubmitPc}
    (hs : Session s) (hid : orderId ≠ "") (hfresh : s.oms.orders.lookup orderId = none)
    (h : s.submitNext call (.create request orderId) .silent = some (s', pc')) :
    SubmitStep s call (.create request orderId) s' pc' := by
  rcases createOrder_spec hs.wellFormed hs.initialized request hid with ⟨key, e, heq, he, hc, hce⟩ | ⟨heq, hc⟩
  · simp only [Shared.submitNext, heq, Option.some.injEq, Prod.mk.injEq] at h
    obtain ⟨rfl, rfl⟩ := h
    exact .existing request orderId e (by rw [(hs.wellFormed.key key e he).2]; exact he) hc hce
  · simp only [Shared.submitNext, heq, Option.some.injEq, Prod.mk.injEq] at h
    obtain ⟨rfl, rfl⟩ := h
    exact .born request orderId hid hfresh hc

theorem submitNext_markQueued {call : Nat} {request : OrderRequest} {order : Order} {pc' : SubmitPc}
    (hholds : s.oms.Holds order)
    (h : s.submitNext call (.markQueued request order) .silent = some (s', pc')) :
    SubmitStep s call (.markQueued request order) s' pc' := by
  obtain ⟨e, he, _⟩ := hholds
  simp only [Shared.submitNext, Option.some.injEq, Prod.mk.injEq] at h
  rcases markEmsQueued_cases he with ⟨hl, hrc⟩ | ⟨hl, hl', heq⟩
  · simp only [hrc, if_true] at h
    obtain ⟨rfl, rfl⟩ := h
    exact .queued request order e he hl
  · simp only [heq, reduceCtorEq, if_false] at h
    obtain ⟨rfl, rfl⟩ := h
    exact .notQueued request order e he hl hl'

theorem submitNext_enqueue {call : Nat} {request : OrderRequest} {order : Order} {pc' : SubmitPc}
    (h : s.submitNext call (.enqueue request order) .silent = some (s', pc')) :
    SubmitStep s call (.enqueue request order) s' pc' := by
  by_cases hadmits : s.ems.admits = .success
  · simp only [Shared.submitNext, ExecutionManager.enqueue, hadmits, if_true, Option.some.injEq,
      Prod.mk.injEq] at h
    obtain ⟨rfl, rfl⟩ := h
    exact .enqueued request order hadmits
  · simp only [Shared.submitNext, ExecutionManager.enqueue, hadmits, if_false, Option.some.injEq,
      Prod.mk.injEq] at h
    obtain ⟨rfl, rfl⟩ := h
    exact .notEnqueued request order hadmits

theorem submitNext_reserve {call : Nat} {request : OrderRequest} {orderId : String} {pc' : SubmitPc}
    {answer : Result ReserveOrderResult}
    (h : s.submitNext call (.reserve request orderId) (.reserved answer) = some (s', pc')) :
    SubmitStep s call (.reserve request orderId) s' pc' := by
  simp only [Shared.submitNext, Option.some.injEq, Prod.mk.injEq] at h
  obtain ⟨rfl, rfl⟩ := h
  split
  case isTrue hu => exact .reserveUnknown request orderId answer hu
  case isFalse =>
    split
    case isTrue ha => exact .reserved request orderId answer ha
    case isFalse => exact .reserveRefused request orderId answer _ (by split <;> simp_all)

theorem submitNext_step {call : Nat} {pc pc' : SubmitPc} {answer : Shared.Answer} (hs : Session s)
    (hpc : SessionCall s (.submit pc))
    (hfresh : ∀ request orderId, pc = .create request orderId → s.oms.orders.lookup orderId = none)
    (h : s.submitNext call pc answer = some (s', pc')) : SubmitStep s call pc s' pc' := by
  cases pc with
  | create request orderId =>
    cases answer <;> first | exact submitNext_create hs (hpc.allocated _ rfl) (hfresh _ _ rfl) h | cases h
  | markQueued request order =>
    cases answer <;> first | exact submitNext_markQueued (hpc.carries _ rfl) h | cases h
  | enqueue request order => cases answer <;> first | exact submitNext_enqueue h | cases h
  | reserve request orderId => cases answer <;> first | exact submitNext_reserve h | cases h
  | lifecycle request order =>
    obtain ⟨e, he, _⟩ := hpc.carries order rfl
    cases answer <;> simp only [Shared.submitNext, getLifecycleState, he, reduceCtorEq] at h
    split at h <;> cases h
    · exact .pastQueue request order e he (by simp_all)
    · exact .prepared request order e he (by simp_all)
  | compliance request =>
    cases answer <;> simp only [Shared.submitNext, Option.some.injEq, Prod.mk.injEq, reduceCtorEq] at h
    obtain ⟨rfl, rfl⟩ := h
    split
    case isTrue hok => rw [hok]; exact .compliant request hok
    case isFalse hno => exact .uncompliant request _ hno
  | risk request =>
    cases answer <;> simp only [Shared.submitNext, reduceCtorEq] at h
    split at h <;> cases h
    · exact .budget request
    · exact .unaffordable _ request _ (by assumption) (Or.inl rfl)
  | riskOpenOrders request budget =>
    cases answer <;> simp only [Shared.submitNext, reduceCtorEq] at h
    split at h <;> cases h
    · exact .openOrders request budget
    · exact .unaffordable _ request _ (by assumption) (Or.inr (Or.inl ⟨budget, rfl⟩))
  | riskNotional request budget =>
    cases answer <;> simp only [Shared.submitNext, Option.some.injEq, Prod.mk.injEq, reduceCtorEq] at h
    obtain ⟨rfl, rfl⟩ := h
    split
    case isTrue hok => rw [hok]; exact .affordable request budget
    case isFalse hno => exact .unaffordable _ request _ hno (Or.inr (Or.inr ⟨budget, rfl⟩))
  | duplicate request =>
    cases answer <;> simp only [Shared.submitNext, reduceCtorEq] at h
    split at h
    case isTrue hknown =>
      cases h
      obtain ⟨order, ho⟩ := Option.isSome_iff_exists.mp hknown.2
      exact .known request order hknown.1 ho
    case isFalse => cases h; exact .unknown request
  | allocate request =>
    cases answer <;> simp only [Shared.submitNext, Option.some.injEq, Prod.mk.injEq, reduceCtorEq] at h
    obtain ⟨rfl, rfl⟩ := h
    exact .allocated request _ rfl
  | query request orderId =>
    cases answer <;> simp only [Shared.submitNext, Option.some.injEq, Prod.mk.injEq, reduceCtorEq] at h
    obtain ⟨rfl, rfl⟩ := h
    split
    case isTrue hq => exact .queryReserved request orderId _ hq
    case isFalse hq => exact .queryFailed request orderId _ (by simpa using hq)
  | recordFailure request order rc =>
    cases answer <;> simp only [Shared.submitNext, Option.some.injEq, Prod.mk.injEq, reduceCtorEq] at h
    obtain ⟨rfl, rfl⟩ := h
    exact .failureRecorded request order rc
  | release request orderId rc =>
    cases answer <;> simp only [Shared.submitNext, Option.some.injEq, Prod.mk.injEq, reduceCtorEq] at h
    obtain ⟨rfl, rfl⟩ := h
    exact .released request orderId rc
  | done => cases answer <;> cases h
  | threw => cases answer <;> cases h

/-! ## What one step of `Cancel` does -/

inductive CancelStep (s : Shared) : CancelPc → Shared → CancelPc → Prop
  | missing (orderId : String) (h : s.oms.getOrder orderId = none) :
      CancelStep s (.getOrder orderId) s (.done orderId .notFound)
  | found (orderId : String) (order : Order) (h : s.oms.getOrder orderId = some order) :
      CancelStep s (.getOrder orderId) s (.cancelOrder orderId order)
  | cancelled (orderId : String) (order : Order) (h : (s.oms.cancelOrder orderId).1 = .success) :
      CancelStep s (.cancelOrder orderId order) { s with oms := (s.oms.cancelOrder orderId).2 }
        (.enqueueCancel orderId order)
  | notCancelled (orderId : String) (order : Order) (h : (s.oms.cancelOrder orderId).1 ≠ .success) :
      CancelStep s (.cancelOrder orderId order) { s with oms := (s.oms.cancelOrder orderId).2 }
        (.done orderId (s.oms.cancelOrder orderId).1)
  | enqueued (orderId : String) (order : Order) (request : CancelOrderRequest)
      (hr : request = { orderId, brokerOrderId := order.brokerOrderId }) (h : s.ems.admits = .success) :
      CancelStep s (.enqueueCancel orderId order)
        { s with ems := { s.ems with pendingItems := .cancel request :: s.ems.pendingItems } }
        (.done orderId .success)
  | notEnqueued (orderId : String) (order : Order) (h : s.ems.admits ≠ .success) :
      CancelStep s (.enqueueCancel orderId order) s (.recordFailure orderId s.ems.admits)
  | failureRecorded (orderId : String) (rc : ErrorCode) :
      CancelStep s (.recordFailure orderId rc)
        { s with oms := (s.oms.recordCancelResult orderId rc).2 } (.done orderId rc)

theorem cancelNext_step {pc pc' : CancelPc} (h : s.cancelNext pc = some (s', pc')) :
    CancelStep s pc s' pc' := by
  cases pc with
  | getOrder orderId =>
    simp only [Shared.cancelNext] at h
    split at h <;> cases h
    · exact .missing orderId (by assumption)
    · exact .found orderId _ (by assumption)
  | cancelOrder orderId order =>
    simp only [Shared.cancelNext, Option.some.injEq, Prod.mk.injEq] at h
    obtain ⟨rfl, rfl⟩ := h
    split
    · exact .cancelled orderId order (by assumption)
    · exact .notCancelled orderId order (by assumption)
  | enqueueCancel orderId order =>
    simp only [Shared.cancelNext, ExecutionManager.enqueueCancel, Option.some.injEq, Prod.mk.injEq] at h
    obtain ⟨rfl, rfl⟩ := h
    by_cases hadmits : s.ems.admits = .success
    · simp only [hadmits, if_true]
      exact .enqueued orderId order _ rfl hadmits
    · simp only [hadmits, if_false]
      exact .notEnqueued orderId order hadmits
  | recordFailure orderId rc =>
    simp only [Shared.cancelNext, Option.some.injEq, Prod.mk.injEq] at h
    obtain ⟨rfl, rfl⟩ := h
    exact .failureRecorded orderId rc
  | done => cases h

/-! ## What one step of the worker does -/

/-- The steps of the worker, one constructor for each way through its code. -/
inductive WorkerStep (s : Shared) : Shared → Prop
  | takesCancel (request : CancelOrderRequest) (rest : List WorkItem) (hw : s.worker = .idle)
      (hq : s.ems.pendingItems = .cancel request :: rest) :
      WorkerStep s { s with ems := { s.ems with pendingItems := rest }, worker := .cancelling request }
  | takesOrder (order : Order) (rest : List WorkItem) (hw : s.worker = .idle)
      (hq : s.ems.pendingItems = .send order :: rest) :
      WorkerStep s { s with ems := { s.ems with pendingItems := rest }, worker := .dequeued order }
  | cancelWithoutTrader (request : CancelOrderRequest) (hw : s.worker = .cancelling request) :
      WorkerStep s { s with worker := .cancelled request .notInitialized }
  | cancelRecorded (request : CancelOrderRequest) (rc : ErrorCode) (hw : s.worker = .cancelled request rc) :
      WorkerStep s { s with oms := (s.oms.recordCancelResult request.orderId rc).2, worker := .idle }
  | marked (order : Order) (hw : s.worker = .dequeued order)
      (h : (s.oms.markSendPending order.orderId).1 = .success) :
      WorkerStep s { s with oms := (s.oms.markSendPending order.orderId).2, worker := .marked order }
  | refused (order : Order) (rc : ErrorCode) (hw : s.worker = .dequeued order)
      (h : (s.oms.markSendPending order.orderId).1 = rc) (hrc : rc ≠ .success) :
      WorkerStep s { s with oms := (s.oms.markSendPending order.orderId).2, worker := .refused order rc }
  | refusalRecorded (order : Order) (rc : ErrorCode) (hw : s.worker = .refused order rc) :
      WorkerStep s { s with
        oms := (s.oms.recordSendResult order.orderId rc).2
        worker := .releasing order.orderId }
  | sent (order : Order) (hw : s.worker = .marked order) (h : s.ems.traderApi = true) :
      WorkerStep s ({ s with worker := .sending order }.emit
        (.sent order.orderId (ExecutionManager.sendRequest order)))
  | sendWithoutTrader (order : Order) (hw : s.worker = .marked order) (h : s.ems.traderApi = false) :
      WorkerStep s { s with worker := .returned order .notInitialized }
  | recorded (order : Order) (hw : s.worker = .returned order .success) :
      WorkerStep s { s with oms := (s.oms.recordSendResult order.orderId .success).2, worker := .idle }
  | failureRecorded (order : Order) (rc : ErrorCode) (hw : s.worker = .returned order rc) (h : rc ≠ .success) :
      WorkerStep s { s with
        oms := (s.oms.recordSendResult order.orderId rc).2
        worker := .releasing order.orderId }
  | released (orderId : String) (hw : s.worker = .releasing orderId) :
      WorkerStep s ({ s with worker := .idle }.release orderId .emsEnqueueFailed)

theorem workerStep_step (h : s.workerStep = some s') : WorkerStep s s' := by
  cases hw : s.worker <;> simp only [Shared.workerStep, hw, Option.some.injEq, reduceCtorEq] at h
  case idle =>
    cases hq : s.ems.pendingItems with
    | nil => simp [hq] at h
    | cons item rest =>
      cases item with
      | send order => simp only [hq, Option.some.injEq] at h; subst h; exact .takesOrder order rest hw hq
      | cancel request => simp only [hq, Option.some.injEq] at h; subst h; exact .takesCancel request rest hw hq
  case cancelling request => split at h <;> cases h; exact .cancelWithoutTrader request hw
  case cancelled request rc => subst h; exact .cancelRecorded request rc hw
  case dequeued order =>
    subst h
    split
    case isTrue hok => exact .marked order hw hok
    case isFalse hno => exact .refused order _ hw rfl hno
  case refused order rc => subst h; exact .refusalRecorded order rc hw
  case marked order =>
    split at h <;> cases h
    · exact .sent order hw (by assumption)
    · exact .sendWithoutTrader order hw (by simp_all)
  case returned order rc =>
    subst h
    split
    case isTrue hok => subst hok; exact .recorded order hw
    case isFalse hno => exact .failureRecorded order rc hw hno
  case releasing orderId => subst h; exact .released orderId hw

/-! ## What the trader and the lane do -/

theorem traderReturns_eq {rc : ErrorCode} (h : s.traderReturns rc = some s') :
    ∃ worker, s' = { s with worker } ∧
      ((∃ request, s.worker = .cancelling request ∧ worker = .cancelled request rc) ∨
        ∃ order, s.worker = .sending order ∧ worker = .returned order rc) := by
  unfold Shared.traderReturns at h
  split at h
  case h_1 request hw =>
    split at h <;> cases h
    exact ⟨_, rfl, Or.inl ⟨request, hw, rfl⟩⟩
  case h_2 order hw => cases h; exact ⟨_, rfl, Or.inr ⟨order, hw, rfl⟩⟩
  case h_3 => cases h

theorem orderReport_eq {report : Order} (h : s.orderReport report = some s') :
    s.lane = .idle ∧ isValidOrder report = true ∧
      s' = { s with oms := s.oms.applyOrderReport report, lane := .orderApplied report } := by
  unfold Shared.orderReport at h
  split at h
  case isTrue hc => cases h; exact ⟨hc.1, hc.2, rfl⟩
  case isFalse => cases h

theorem tradeReport_eq {report : Trade} (h : s.tradeReport report = some s') :
    s.lane = .idle ∧ isValidTrade report = true ∧
      s' = { s with oms := s.oms.applyTradeReport report, lane := .tradeApplied report } := by
  unfold Shared.tradeReport at h
  split at h
  case isTrue hc => cases h; exact ⟨hc.1, hc.2, rfl⟩
  case isFalse => cases h

/-- The steps of the lane after it has applied a report. -/
inductive LaneStep (s : Shared) : Shared → Prop
  | unknownOrder (report : Order) (hl : s.lane = .orderApplied report)
      (h : s.followUp report.orderId report.clientOrderId = none) : LaneStep s { s with lane := .idle }
  | knownOrder (report known : Order) (hl : s.lane = .orderApplied report)
      (h : s.followUp report.orderId report.clientOrderId = some known) :
      LaneStep s { s with lane := .accountOrder report known }
  | orderGoesOn (report known : Order) (hl : s.lane = .accountOrder report known)
      (hc : report.status ≠ .canceled) (hr : report.status ≠ .rejected) :
      LaneStep s { s with account := s.account.applyOrder known, lane := .idle }
  | orderEnded (report known : Order) (reason : ReleaseReason) (hl : s.lane = .accountOrder report known)
      (h : report.status = .canceled ∧ reason = .canceled ∨
        report.status = .rejected ∧ reason = .rejectedByVenue) :
      LaneStep s { s with account := s.account.applyOrder known, lane := .releasing known.orderId reason }
  | tradeAccounted (report : Trade) (hl : s.lane = .tradeApplied report) :
      LaneStep s { s with account := s.account.applyTrade report, lane := .accountTraded report }
  | positionTraded (report : Trade) (hl : s.lane = .accountTraded report) :
      LaneStep s { s with position := s.position.applyTrade report, lane := .positionTraded report }
  | notFilled (report : Trade) (hl : s.lane = .positionTraded report) : LaneStep s { s with lane := .idle }
  | filled (report : Trade) (known : Order) (hl : s.lane = .positionTraded report)
      (h : s.followUp report.orderId report.clientOrderId = some known) (hf : known.status = .filled) :
      LaneStep s { s with lane := .releasing known.orderId .settled }
  | released (orderId : String) (reason : ReleaseReason) (hl : s.lane = .releasing orderId reason) :
      LaneStep s ({ s with lane := .idle }.release orderId reason)

theorem laneStep_step (h : s.laneStep = some s') : LaneStep s s' := by
  cases hl : s.lane with
  | idle => simp [Shared.laneStep, hl] at h
  | orderApplied report =>
    simp only [Shared.laneStep, hl] at h
    split at h <;> cases h
    · exact .unknownOrder report hl (by assumption)
    · exact .knownOrder report _ hl (by assumption)
  | accountOrder report known =>
    simp only [Shared.laneStep, hl, Option.some.injEq] at h
    subst h
    by_cases hc : report.status = .canceled
    · rw [if_pos hc]
      exact .orderEnded report known .canceled hl (Or.inl ⟨hc, rfl⟩)
    · by_cases hr : report.status = .rejected
      · rw [if_neg hc, if_pos hr]
        exact .orderEnded report known .rejectedByVenue hl (Or.inr ⟨hr, rfl⟩)
      · rw [if_neg hc, if_neg hr]
        exact .orderGoesOn report known hl hc hr
  | tradeApplied report =>
    simp only [Shared.laneStep, hl, Option.some.injEq] at h
    subst h
    exact .tradeAccounted report hl
  | accountTraded report =>
    simp only [Shared.laneStep, hl, Option.some.injEq] at h
    subst h
    exact .positionTraded report hl
  | positionTraded report =>
    simp only [Shared.laneStep, hl] at h
    split at h <;> cases h
    · exact .notFilled report hl
    · split
      · exact .filled report _ hl (by assumption) (by assumption)
      · exact .notFilled report hl
  | releasing orderId reason =>
    simp only [Shared.laneStep, hl, Option.some.injEq] at h
    subst h
    exact .released orderId reason hl

end Qtrade.Trading
