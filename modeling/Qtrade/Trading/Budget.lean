import Qtrade.Lib.Budget
import Qtrade.Oms.Exposure
import Qtrade.Trading.Effects

/-!
# The risk budget of an instance

`CheckOrder` reads two sums over the order table, and the order that it lets through is stored some steps later.
Each sum is a budget that one `Submit` at a time checks and then takes from.
-/

namespace Qtrade.Trading

open Qtrade.Oms
open Qtrade.Oms.OrderManager
open Qtrade.Risk (RiskManager)

/-! ## How far a `Submit` has come -/

/-- The request of a `Submit` that has passed all checks and has not created its order. -/
def SubmitPc.affordable? : SubmitPc → Option OrderRequest
  | .duplicate request | .allocate request | .reserve request _ | .query request _ | .create request _ => some request
  | _ => none

/-- The same from the check of the open orders on. -/
def SubmitPc.counted? : SubmitPc → Option OrderRequest
  | .riskNotional request _ => some request
  | pc => pc.affordable?

/-- The same from the check of the request on. -/
def SubmitPc.checked? : SubmitPc → Option OrderRequest
  | .riskOpenOrders request _ => some request
  | pc => pc.counted?

/-- The limits that `CheckOrder` has copied. -/
def SubmitPc.budget? : SubmitPc → Option RiskManager
  | .riskOpenOrders _ budget | .riskNotional _ budget => some budget
  | _ => none

/-- The call has not returned. -/
def SubmitPc.running : SubmitPc → Bool
  | .done _ _ | .threw _ => false
  | _ => true

def CallPc.submit? : CallPc → Option SubmitPc
  | .submit pc => some pc
  | .cancel _ => none

def CallPc.submitting (pc : CallPc) : Bool := pc.submit?.any SubmitPc.running

/-- What the order of a request adds to the open notional. -/
def notionalOf (request : OrderRequest) : ℚ := request.price.toRat * request.volume

variable {pc pc' : SubmitPc} {request : OrderRequest}

theorem counted?_of_affordable (h : pc.affordable? = some request) : pc.counted? = some request := by
  cases pc <;> first | exact h | cases h

theorem checked?_of_counted (h : pc.counted? = some request) : pc.checked? = some request := by
  cases pc <;> first | exact h | cases h

theorem counted?_none (h : pc.checked? = none) : pc.counted? = none := by
  cases hc : pc.counted? with
  | none => rfl
  | some request =>
    rw [checked?_of_counted hc] at h
    cases h

theorem affordable?_none (h : pc.checked? = none) : pc.affordable? = none := by
  cases ha : pc.affordable? with
  | none => rfl
  | some request =>
    rw [checked?_of_counted (counted?_of_affordable ha)] at h
    cases h

theorem running_of_affordable (h : pc.affordable? = some request) : pc.running = true := by
  cases pc <;> first | rfl | cases h

theorem running_of_counted (h : pc.counted? = some request) : pc.running = true := by
  cases pc <;> first | rfl | cases h

theorem exposure_newEntry (request : OrderRequest) (orderId : String) :
    (newEntry request orderId).exposure = notionalOf request := rfl

/-! ## What the checks say -/

/-- Both limits are set, and `CheckOrder` reads both sums. -/
structure Limited (risk : RiskManager) (m b : ℚ) : Prop where
  maxOpenOrders : 0 < risk.limits.maxOpenOrders
  openOrdersProvider : risk.openOrdersProvider = true
  maxTotalNotional : risk.limits.maxTotalNotional = .fin m
  positive : 0 < m
  safetyBuffer : risk.limits.safetyBuffer = .fin b
  notionalProvider : risk.notionalProvider = true

theorem checkRequest_fields {risk : RiskManager} (h : risk.checkRequest request = .success) :
    0 < request.volume ∧ ∃ p : ℚ, 0 ≤ p ∧ request.price = .fin p := by
  unfold RiskManager.checkRequest at h
  split at h
  case isTrue => cases h
  case isFalse hfields =>
    simp only [not_or, not_le] at hfields
    obtain ⟨_, hvolume, hfinite, hprice, _⟩ := hfields
    refine ⟨hvolume, ?_⟩
    cases hp : request.price with
    | fin p =>
      rw [hp] at hprice
      exact ⟨p, not_lt.mp fun hneg => hprice ((Double.fin_lt p 0).mpr hneg), rfl⟩
    | _ => simp [hp, Double.isFinite] at hfinite

theorem notionalOf_nonneg {risk : RiskManager} (h : risk.checkRequest request = .success) :
    0 ≤ notionalOf request := by
  obtain ⟨hvolume, hprice⟩ := checkRequest_fields h
  have hpriced : (newEntry request "").Priced := hprice
  exact hpriced.exposure_nonneg (Or.inr (le_of_lt hvolume))

theorem Limited.room_of_checkOpenOrders {risk : RiskManager} {m b : ℚ} {count : Nat} (hl : Limited risk m b)
    (h : risk.checkOpenOrders count = .success) : count + 1 ≤ risk.limits.maxOpenOrders.toNat := by
  unfold RiskManager.checkOpenOrders at h
  split at h
  case isTrue => cases h
  case isFalse hroom =>
    by_contra hfull
    exact hroom ⟨hl.maxOpenOrders, hl.openOrdersProvider, by omega⟩

theorem Limited.room_of_checkTotalNotional {risk : RiskManager} {m b q : ℚ} (hl : Limited risk m b)
    (hchecked : risk.checkRequest request = .success) (h : risk.checkTotalNotional request (.fin q) = .success) :
    q + notionalOf request ≤ m - b := by
  obtain ⟨_, p, _, hprice⟩ := checkRequest_fields hchecked
  unfold RiskManager.checkTotalNotional at h
  split at h
  case isTrue => cases h
  case isFalse hroom =>
    rw [hl.maxTotalNotional, hl.safetyBuffer, Double.fin_sub, RiskManager.orderNotional, hprice, Double.fin_mul_ofInt,
      Double.fin_add, Double.fin_lt] at hroom
    rw [notionalOf, hprice, Double.toRat_fin]
    by_contra hfull
    exact hroom ⟨(Double.fin_lt 0 m).mpr hl.positive, hl.notionalProvider, not_le.mp hfull⟩

/-! ## One step of `Submit` -/

variable {s s' : Shared}

/-- No order is added, revived, dearer or larger. -/
structure Lighter (s s' : Shared) : Prop where
  advances : Evolves OrderEntry.Advances s.oms s'.oms
  eases : Evolves OrderEntry.Eases s.oms s'.oms

theorem Lighter.of_orders (horders : s'.oms.orders = s.oms.orders)
    (hindex : s'.oms.clientOrderIndex = s.oms.clientOrderIndex)
    (hinitialized : s'.oms.initialized = s.oms.initialized) : Lighter s s' :=
  ⟨⟨hindex, hinitialized, fun id => horders ▸ (Evolves.refl OrderEntry.Advances.refl s.oms).entries id⟩,
    ⟨hindex, hinitialized, fun id => horders ▸ (Evolves.refl OrderEntry.Eases.refl s.oms).entries id⟩⟩

theorem Lighter.of_eq (h : s'.oms = s.oms) : Lighter s s' := .of_orders (by rw [h]) (by rw [h]) (by rw [h])

theorem Lighter.count_le (h : Lighter s s') : s'.oms.getActiveOrderCount ≤ s.oms.getActiveOrderCount := by
  apply h.advances.activity_le
  intro e e' ha ht
  rw [ha.terminal ht]
  exact ht

theorem Lighter.exposure_le (h : Lighter s s') (hs : s.oms.AllPlaced) (hp : s.oms.AllPriced) :
    s'.oms.exposure ≤ s.oms.exposure :=
  (h.eases.eases hs hp).2

theorem Lighter.priced (h : Lighter s s') (hs : s.oms.AllPlaced) (hp : s.oms.AllPriced) : s'.oms.AllPriced :=
  (h.eases.eases hs hp).1

/-- What a step of `Submit` has to do with the budget. -/
inductive BudgetStep (s : Shared) : SubmitPc → Shared → SubmitPc → Prop
  | checked (request : OrderRequest) (h : s.risk.checkRequest request = .success) :
      BudgetStep s (.risk request) s (.riskOpenOrders request s.risk)
  | counted (request : OrderRequest) (budget : RiskManager)
      (h : budget.checkOpenOrders s.oms.getActiveOrderCount = .success) :
      BudgetStep s (.riskOpenOrders request budget) s (.riskNotional request budget)
  | afforded (request : OrderRequest) (budget : RiskManager) (s' : Shared) (homs : s'.oms = s.oms)
      (h : budget.checkTotalNotional request s.oms.getOpenNotional = .success) :
      BudgetStep s (.riskNotional request budget) s' (.duplicate request)
  | goesOn (pc : SubmitPc) (s' : Shared) (pc' : SubmitPc) (request : OrderRequest)
      (h : pc.affordable? = some request) (h' : pc'.affordable? = some request) (hlighter : Lighter s s') :
      BudgetStep s pc s' pc'
  | creates (request : OrderRequest) (orderId : String) (s' : Shared) (pc' : SubmitPc) (h : pc'.checked? = none)
      (homs : s'.oms = (s.oms.createOrder request orderId).2) : BudgetStep s (.create request orderId) s' pc'
  | leaves (pc : SubmitPc) (s' : Shared) (pc' : SubmitPc) (h : pc'.checked? = none) (hlighter : Lighter s s') :
      BudgetStep s pc s' pc'

theorem submitNext_running {call : Nat} {answer : Shared.Answer} {r : Shared × SubmitPc}
    (h : s.submitNext call pc answer = some r) : pc.running = true := by
  cases pc with
  | done | threw => cases answer <;> cases h
  | _ => rfl

@[simp]
theorem risk_release (s : Shared) (orderId : String) (reason : ReleaseReason) :
    (s.release orderId reason).risk = s.risk := by
  unfold Shared.release Shared.emit
  split <;> rfl

theorem submitNext_budget {call : Nat} {answer : Shared.Answer}
    (h : s.submitNext call pc answer = some (s', pc')) : BudgetStep s pc s' pc' ∧ s'.risk = s.risk := by
  unfold Shared.submitNext at h
  split at h
  case h_1 request =>
    cases h
    refine ⟨.leaves _ _ _ ?_ (.of_eq rfl), rfl⟩
    split <;> rfl
  case h_2 request =>
    dsimp only at h
    split at h <;> cases h
    case isTrue hok => exact ⟨.checked request hok, rfl⟩
    case isFalse => exact ⟨.leaves _ _ _ rfl (.of_eq rfl), rfl⟩
  case h_3 request budget =>
    dsimp only at h
    split at h <;> cases h
    case isTrue hok => exact ⟨.counted request budget hok, rfl⟩
    case isFalse => exact ⟨.leaves _ _ _ rfl (.of_eq rfl), rfl⟩
  case h_4 request budget =>
    cases h
    refine ⟨?_, rfl⟩
    split
    case isTrue hok => exact .afforded request budget _ rfl hok
    case isFalse => exact .leaves _ _ _ rfl (.of_eq rfl)
  case h_5 request =>
    split at h <;> cases h
    · exact ⟨.leaves _ _ _ rfl (.of_eq rfl), rfl⟩
    · exact ⟨.goesOn _ _ _ request rfl rfl (.of_eq rfl), rfl⟩
  case h_6 request =>
    cases h
    refine ⟨.goesOn _ _ _ request rfl ?_ (.of_orders rfl rfl rfl), rfl⟩
    split <;> rfl
  case h_7 request orderId answer =>
    cases h
    refine ⟨?_, rfl⟩
    split
    · exact .goesOn _ _ _ request rfl rfl (.of_eq rfl)
    · split
      · exact .goesOn _ _ _ request rfl rfl (.of_eq rfl)
      · exact .leaves _ _ _ rfl (.of_eq rfl)
  case h_8 request orderId answer =>
    cases h
    refine ⟨?_, rfl⟩
    split
    · exact .goesOn _ _ _ request rfl rfl (.of_eq rfl)
    · exact .leaves _ _ _ rfl (.of_eq rfl)
  case h_9 request orderId =>
    split at h <;> rename_i heq <;> cases h
    · exact ⟨.creates request orderId _ _ rfl (by rw [heq]; rfl), rfl⟩
    · exact ⟨.creates request orderId _ _ rfl (by rw [heq]), rfl⟩
    · exact ⟨.creates request orderId _ _ rfl (by rw [heq]), rfl⟩
  case h_10 request order =>
    split at h <;> cases h
    all_goals exact ⟨.leaves _ _ _ rfl (.of_eq rfl), rfl⟩
  case h_11 request order =>
    cases h
    have heases := markEmsQueued_eases s.oms order.orderId
    refine ⟨.leaves _ _ _ ?_ ⟨markEmsQueued_evolves s.oms order.orderId, heases⟩, rfl⟩
    split <;> rfl
  case h_12 request order =>
    cases h
    refine ⟨.leaves _ _ _ ?_ (.of_eq rfl), rfl⟩
    split <;> rfl
  case h_13 request order rc =>
    cases h
    have hadvances := (recordSendResult_evolves s.oms order.orderId rc).mono fun _ _ ha => ha.toAdvances
    exact ⟨.leaves _ _ _ rfl ⟨hadvances, recordSendResult_eases s.oms order.orderId rc⟩, rfl⟩
  case h_14 request orderId rc =>
    cases h
    exact ⟨.leaves _ _ _ rfl (.of_eq (oms_release _ _ _)), risk_release _ _ _⟩
  case h_15 => cases h

/-! ## The other threads -/

theorem CancelStep.lighter {pc pc' : CancelPc} (h : CancelStep s pc s' pc') : Lighter s s' ∧ s'.risk = s.risk := by
  have hadvances := h.evolves.mono fun _ _ ha => ha.toAdvances
  cases h with
  | cancelled orderId | notCancelled orderId => exact ⟨⟨hadvances, cancelOrder_eases s.oms orderId⟩, rfl⟩
  | failureRecorded orderId rc => exact ⟨⟨hadvances, recordCancelResult_eases s.oms orderId rc⟩, rfl⟩
  | _ => exact ⟨.of_eq rfl, rfl⟩

theorem WorkerStep.lighter (h : WorkerStep s s') : Lighter s s' ∧ s'.risk = s.risk := by
  have hadvances := h.evolves
  cases h with
  | cancelRecorded request rc => exact ⟨⟨hadvances, recordCancelResult_eases s.oms request.orderId rc⟩, rfl⟩
  | marked order | refused order => exact ⟨⟨hadvances, markSendPending_eases s.oms order.orderId⟩, rfl⟩
  | refusalRecorded order rc | failureRecorded order rc =>
    exact ⟨⟨hadvances, recordSendResult_eases s.oms order.orderId rc⟩, rfl⟩
  | recorded order => exact ⟨⟨hadvances, recordSendResult_eases s.oms order.orderId .success⟩, rfl⟩
  | released => exact ⟨.of_eq (oms_release _ _ _), risk_release _ _ _⟩
  | _ => exact ⟨.of_eq rfl, rfl⟩

theorem LaneStep.risk (h : LaneStep s s') : s'.risk = s.risk := by
  cases h with
  | released => exact risk_release _ _ _
  | _ => rfl

/-- A report that Lane-T takes raises neither the price nor the left volume of its order. -/
def noRaise (s : Shared) : EngineEvent → Bool
  | .orderReport report =>
    s.oms.calm (s.oms.applyOrderReport report) (s.oms.reportKey report.orderId report.clientOrderId)
  | .tradeReport report =>
    s.oms.calm (s.oms.applyTradeReport report) (s.oms.reportKey report.orderId report.clientOrderId)
  | _ => true

theorem engineStep_risk {event : EngineEvent} (h : engineStep s event = some s') : s'.risk = s.risk := by
  cases event with
  | worker => exact (workerStep_step h).lighter.2
  | traderReturns rc => obtain ⟨worker, rfl, _⟩ := traderReturns_eq h; rfl
  | orderReport report => obtain ⟨_, _, rfl⟩ := orderReport_eq h; rfl
  | tradeReport report => obtain ⟨_, _, rfl⟩ := tradeReport_eq h; rfl
  | lane => exact (laneStep_step h).risk

theorem engineStep_advances {event : EngineEvent} (h : engineStep s event = some s') :
    Evolves OrderEntry.Advances s.oms s'.oms := by
  by_cases hevent : event = .worker
  · subst hevent
    exact (workerStep_step h).evolves
  · exact (laneEvent_evolves hevent h).1.mono fun _ _ ha => ha.toAdvances

theorem engineStep_lighter {event : EngineEvent} (hcalm : noRaise s event = true)
    (h : engineStep s event = some s') : Lighter s s' := by
  cases event with
  | worker => exact (workerStep_step h).lighter.1
  | traderReturns rc =>
    obtain ⟨worker, rfl, _⟩ := traderReturns_eq h
    exact .of_eq rfl
  | orderReport report =>
    have hadvances := engineStep_advances h
    obtain ⟨_, hvalid, rfl⟩ := orderReport_eq h
    exact ⟨hadvances, applyOrderReport_eases hvalid hcalm⟩
  | tradeReport report =>
    have hadvances := engineStep_advances h
    obtain ⟨_, _, rfl⟩ := tradeReport_eq h
    exact ⟨hadvances, applyTradeReport_eases hcalm⟩
  | lane => exact .of_eq (laneStep_step h).frame.1

/-! ## The limits do not move -/

/-- The limits stay, and a `Submit` works with them on a request that they let through. -/
def budgetOutline (risk : RiskManager) : program.Outline fun _ _ => True where
  inv s := s.risk = risk
  holds _ _ pc := ∀ submit, pc.submit? = some submit →
    (∀ budget, submit.budget? = some budget → budget = risk) ∧
      ∀ request, submit.checked? = some request → risk.checkRequest request = .success
  rely _ _ _ := True
  start c call _ _ := by
    intro submit hsubmit
    cases call <;> cases hsubmit
    exact ⟨by simp [SubmitPc.budget?], by simp [SubmitPc.checked?, SubmitPc.counted?, SubmitPc.affordable?]⟩
  resume c index pc answer s' pc' hrisk hpc hcall _ h := by
    have hnext : callNext c.shared index pc answer = some (s', pc') := h
    cases pc with
    | cancel pc =>
      obtain ⟨pc', rfl, hcancel⟩ := callNext_cancel hnext
      exact ⟨hcancel.lighter.2.trans hrisk, by simp [CallPc.submit?], fun _ _ => trivial⟩
    | submit pc =>
      obtain ⟨pc', rfl, hsubmit⟩ := callNext_submit hnext
      obtain ⟨hstep, hkept⟩ := submitNext_budget hsubmit
      obtain ⟨hbudget, hchecked⟩ := hpc pc rfl
      refine ⟨hkept.trans hrisk, ?_, fun _ _ => trivial⟩
      rintro _ ⟨⟩
      cases hstep with
      | checked request hok =>
        rw [hrisk] at hok ⊢
        exact ⟨by rintro _ ⟨⟩; rfl, by rintro _ ⟨⟩; exact hok⟩
      | counted request budget => exact ⟨hbudget, by rintro _ ⟨⟩; exact hchecked request rfl⟩
      | afforded request budget => exact ⟨by rintro _ ⟨⟩, by rintro _ ⟨⟩; exact hchecked request rfl⟩
      | goesOn _ _ _ request hold hnew =>
        refine ⟨fun budget hb => ?_, fun request' hr => ?_⟩
        · cases pc' <;> cases hb <;> cases hnew
        · rw [checked?_of_counted (counted?_of_affordable hnew)] at hr
          cases hr
          exact hchecked request (checked?_of_counted (counted?_of_affordable hold))
      | creates _ _ _ _ hnone | leaves _ _ _ hnone =>
        refine ⟨fun budget hb => ?_, fun request hr => ?_⟩
        · cases pc' <;> cases hb <;> cases hnone
        · rw [hnone] at hr
          cases hr
  environment c event s' hrisk _ h := ⟨(engineStep_risk h).trans hrisk, fun _ => trivial⟩
  stable _ _ _ _ _ hpc := hpc

/-! ## Which steps a run may take -/

/-- A `Submit` begins only after the one before it has returned, as under the mutex of the dispatcher. -/
def serialised (c : System) : Action → Bool
  | .start (.submit _) => c.calls.all (!·.submitting)
  | _ => true

def calmReports (c : System) : Action → Bool
  | .environment event => noRaise c.shared event
  | _ => true

/-- `CreateOrder` stores over no active order of which less than nothing is left. -/
def replacesNoDeficit (c : System) (a : Action) : Bool :=
  match create? c a with
  | some (_, orderId) => (c.shared.oms.orders.lookup orderId).all fun e =>
      isTerminalLifecycle e.lifecycleState || decide (0 ≤ e.order.leftVolume)
  | none => true

theorem serialised_start {c : System} {call : Call} (h : serialised c (.start call) = true)
    (hbusy : (callEntry call).submitting = true) : ∀ p ∈ c.calls, p.submitting = false := by
  cases call with
  | submit request => simpa [serialised] using h
  | cancel orderId => cases hbusy

theorem callNext_submitting {call : Nat} {pc pc' : CallPc} {answer : Shared.Answer}
    (h : callNext s call pc answer = some (s', pc')) (hbusy : pc'.submitting = true) : pc.submitting = true := by
  cases pc with
  | submit pc =>
    obtain ⟨pc', rfl, hsubmit⟩ := callNext_submit h
    exact submitNext_running hsubmit
  | cancel pc =>
    obtain ⟨pc', rfl, _⟩ := callNext_cancel h
    cases hbusy

theorem exposure_of_not_deficit {c : System} {index : Nat} {answer : Shared.Answer} {request : OrderRequest}
    {orderId : String} {e : OrderEntry} (hpriced : c.shared.oms.AllPriced)
    (hpc : c.calls[index]? = some (.submit (.create request orderId)))
    (h : replacesNoDeficit c (.resume index answer) = true) (he : c.shared.oms.orders.lookup orderId = some e) :
    0 ≤ e.exposure := by
  apply (hpriced orderId e he).exposure_nonneg
  simpa [replacesNoDeficit, create?, hpc, he] using h

/-! ## The number of active orders -/

section Limits

variable {risk : RiskManager} {m b : ℚ}

/-- From the check of the open orders to its creation, an order has a place. -/
def orderBudget (hl : Limited risk m b) :
    program.Budget (fun c a => (budgetOutline risk).Valid c ∧ serialised c a = true) ℕ where
  cap := risk.limits.maxOpenOrders.toNat
  used s := s.oms.getActiveOrderCount
  granted pc := (pc.submit?.bind SubmitPc.counted?).map fun _ => 1
  busy := CallPc.submitting
  busy_of_granted pc n h := by
    obtain ⟨request, hcounted, _⟩ := Option.map_eq_some_iff.mp h
    obtain ⟨pc, hpc, hcounted⟩ := Option.bind_eq_some_iff.mp hcounted
    simp [CallPc.submitting, hpc, running_of_counted hcounted]
  start c call hok := by
    refine ⟨?_, serialised_start hok.2⟩
    cases call <;> rfl
  resume c index pc answer s' pc' hcall hok h := by
    have hnext : callNext c.shared index pc answer = some (s', pc') := h
    refine ⟨callNext_submitting hnext, ?_⟩
    cases pc with
    | cancel pc =>
      obtain ⟨pc', rfl, hcancel⟩ := callNext_cancel hnext
      exact Or.inl ⟨hcancel.lighter.1.count_le, by rintro n ⟨⟩⟩
    | submit pc =>
      obtain ⟨pc', rfl, hsubmit⟩ := callNext_submit hnext
      obtain ⟨hbudget, _⟩ := hok.1.2 index _ hcall pc rfl
      cases (submitNext_budget hsubmit).1 with
      | checked request => exact Or.inl ⟨le_refl _, by rintro n ⟨⟩⟩
      | counted request budget hroom =>
        refine Or.inl ⟨le_refl _, ?_⟩
        rintro n ⟨⟩
        rw [hbudget budget rfl] at hroom
        exact Or.inr (hl.room_of_checkOpenOrders hroom)
      | afforded request budget s' homs =>
        refine Or.inl ⟨by rw [homs], ?_⟩
        rintro n ⟨⟩
        exact Or.inl rfl
      | goesOn _ _ _ request hold hnew hlighter =>
        refine Or.inl ⟨hlighter.count_le, fun n hn => Or.inl ?_⟩
        simp only [CallPc.submit?, Option.bind_some, counted?_of_affordable hnew] at hn
        simp only [CallPc.submit?, Option.bind_some, counted?_of_affordable hold]
        exact hn
      | creates request orderId s' pc' hnone homs =>
        refine Or.inr ⟨by simp [CallPc.submit?, counted?_none hnone], 1, rfl, ?_⟩
        rw [homs]
        rcases createOrder_cases c.shared.oms request orderId with hsame | ⟨_, _, _, hborn⟩
        · rw [hsame]
          exact Nat.le_succ _
        · rw [hborn]
          exact born_count c.shared.oms request orderId
      | leaves _ _ _ hnone hlighter =>
        refine Or.inl ⟨hlighter.count_le, ?_⟩
        simp [CallPc.submit?, counted?_none hnone]
  environment c event s' _ h := by
    apply (engineStep_advances h).activity_le
    intro e e' ha ht
    rw [ha.terminal ht]
    exact ht

/-! ## The open notional -/

theorem BudgetStep.lighter_or_creates (h : BudgetStep s pc s' pc') : Lighter s s' ∨
    ∃ request orderId, pc = .create request orderId ∧ s'.oms = (s.oms.createOrder request orderId).2 := by
  cases h with
  | checked | counted => exact Or.inl (.of_eq rfl)
  | afforded _ _ _ homs => exact Or.inl (.of_eq homs)
  | goesOn _ _ _ _ _ _ hlighter | leaves _ _ _ _ hlighter => exact Or.inl hlighter
  | creates request orderId _ _ _ homs => exact Or.inr ⟨request, orderId, rfl, homs⟩

theorem step_cases {c c' : System} {a : Action} (hv : (budgetOutline risk).Valid c) (h : step c a = some c') :
    Lighter c.shared c'.shared ∨
      (∃ request orderId, risk.checkRequest request = .success ∧
        c'.shared.oms = (c.shared.oms.createOrder request orderId).2) ∨
      ∃ event, a = .environment event ∧ engineStep c.shared event = some c'.shared := by
  cases a with
  | start call =>
    cases h
    exact Or.inl (.of_eq rfl)
  | resume index answer =>
    obtain ⟨pc, pc', hpc, hnext, _⟩ := Calls.Program.step_resume h
    have hnext : callNext c.shared index pc answer = some (c'.shared, pc') := hnext
    cases pc with
    | cancel pc =>
      obtain ⟨pc', rfl, hcancel⟩ := callNext_cancel hnext
      exact Or.inl hcancel.lighter.1
    | submit pc =>
      obtain ⟨pc', rfl, hsubmit⟩ := callNext_submit hnext
      rcases (submitNext_budget hsubmit).1.lighter_or_creates with hlighter | ⟨request, orderId, rfl, homs⟩
      · exact Or.inl hlighter
      · exact Or.inr (Or.inl ⟨request, orderId, (hv.2 index _ hpc _ rfl).2 request rfl, homs⟩)
  | environment event => exact Or.inr (Or.inr ⟨event, rfl, (Calls.Program.step_environment h).1⟩)

theorem engineStep_placed {event : EngineEvent} (hs : s.oms.AllPlaced) (h : engineStep s event = some s') :
    s'.oms.AllPlaced := by
  cases event with
  | orderReport report =>
    obtain ⟨_, hvalid, rfl⟩ := orderReport_eq h
    exact hs.applyOrderReport hvalid
  | tradeReport report =>
    obtain ⟨_, _, rfl⟩ := tradeReport_eq h
    exact hs.applyTradeReport report
  | _ => exact hs.eases (engineStep_lighter rfl h).eases

theorem step_placed {c c' : System} {a : Action} (hv : (budgetOutline risk).Valid c) (hs : c.shared.oms.AllPlaced)
    (h : step c a = some c') : c'.shared.oms.AllPlaced := by
  rcases step_cases hv h with hlighter | ⟨request, orderId, hchecked, homs⟩ | ⟨event, _, hnext⟩
  · exact hs.eases hlighter.eases
  · rw [homs]
    rcases createOrder_cases c.shared.oms request orderId with hsame | ⟨_, _, _, hborn⟩
    · rwa [hsame]
    · rw [hborn]
      exact hs.born (le_of_lt (checkRequest_fields hchecked).1)
  · exact engineStep_placed hs hnext

theorem step_priced {c c' : System} {a : Action} (hv : (budgetOutline risk).Valid c) (hs : c.shared.oms.AllPlaced)
    (hp : c.shared.oms.AllPriced) (hcalm : calmReports c a = true) (h : step c a = some c') :
    c'.shared.oms.AllPriced := by
  rcases step_cases hv h with hlighter | ⟨request, orderId, hchecked, homs⟩ | ⟨event, rfl, hnext⟩
  · exact hlighter.priced hs hp
  · rw [homs]
    rcases createOrder_cases c.shared.oms request orderId with hsame | ⟨_, _, _, hborn⟩
    · rwa [hsame]
    · rw [hborn]
      exact hp.born (checkRequest_fields hchecked).2
  · exact (engineStep_lighter hcalm hnext).priced hs hp

/-- From the check of the notional to its creation, an order has its own notional set aside. -/
def notionalBudget (hl : Limited risk m b) :
    program.Budget (fun c a => ((budgetOutline risk).Valid c ∧ c.shared.oms.AllPlaced ∧ c.shared.oms.AllPriced) ∧
      serialised c a = true ∧ calmReports c a = true ∧ replacesNoDeficit c a = true) ℚ where
  cap := m - b
  used s := s.oms.exposure
  granted pc := (pc.submit?.bind SubmitPc.affordable?).map notionalOf
  busy := CallPc.submitting
  busy_of_granted pc n h := by
    obtain ⟨request, hafforded, _⟩ := Option.map_eq_some_iff.mp h
    obtain ⟨pc, hpc, hafforded⟩ := Option.bind_eq_some_iff.mp hafforded
    simp [CallPc.submitting, hpc, running_of_affordable hafforded]
  start c call hok := by
    refine ⟨?_, serialised_start hok.2.1⟩
    cases call <;> rfl
  resume c index pc answer s' pc' hcall hok h := by
    have hnext : callNext c.shared index pc answer = some (s', pc') := h
    obtain ⟨⟨hv, hs, hp⟩, _, _, hdeficit⟩ := hok
    refine ⟨callNext_submitting hnext, ?_⟩
    cases pc with
    | cancel pc =>
      obtain ⟨pc', rfl, hcancel⟩ := callNext_cancel hnext
      exact Or.inl ⟨hcancel.lighter.1.exposure_le hs hp, by rintro n ⟨⟩⟩
    | submit pc =>
      obtain ⟨pc', rfl, hsubmit⟩ := callNext_submit hnext
      obtain ⟨hbudget, hchecked⟩ := hv.2 index _ hcall pc rfl
      cases (submitNext_budget hsubmit).1 with
      | checked request | counted request budget => exact Or.inl ⟨le_refl _, by rintro n ⟨⟩⟩
      | afforded request budget s' homs hroom =>
        refine Or.inl ⟨by rw [homs], ?_⟩
        rintro n ⟨⟩
        rw [hbudget budget rfl, getOpenNotional_eq hp] at hroom
        rw [homs]
        exact Or.inr (hl.room_of_checkTotalNotional (hchecked request rfl) hroom)
      | goesOn _ _ _ request hold hnew hlighter =>
        refine Or.inl ⟨hlighter.exposure_le hs hp, fun n hn => Or.inl ?_⟩
        simp only [CallPc.submit?, Option.bind_some, hnew] at hn
        simp only [CallPc.submit?, Option.bind_some, hold]
        exact hn
      | creates request orderId s' pc' hnone homs =>
        refine Or.inr ⟨by simp [CallPc.submit?, affordable?_none hnone], notionalOf request, rfl, ?_⟩
        rw [homs]
        rcases createOrder_cases c.shared.oms request orderId with hsame | ⟨_, _, _, hborn⟩
        · rw [hsame]
          exact le_add_of_nonneg_right (notionalOf_nonneg (hchecked request rfl))
        · rw [hborn, ← exposure_newEntry request orderId]
          apply born_exposure
          intro e he
          exact exposure_of_not_deficit hp hcall hdeficit he
      | leaves _ _ _ hnone hlighter =>
        refine Or.inl ⟨hlighter.exposure_le hs hp, ?_⟩
        simp [CallPc.submit?, affordable?_none hnone]
  environment c event s' hok h := (engineStep_lighter hok.2.2.1 h).exposure_le hok.1.2.1 hok.1.2.2

/-- At every moment of a session, less than nothing is left only of orders that no send result can end. -/
theorem placed_of_reaches {c c' : System} (hinit : Initial c) (h : Runs.Reaches step Runs.anyStep c c') :
    (budgetOutline c.shared.risk).Valid c' ∧ c'.shared.oms.AllPlaced := by
  apply h.invariant
  · refine ⟨⟨rfl, by simp [hinit.calls]⟩, ?_⟩
    intro id e he
    exact Or.inr (Or.inr (hinit.oms.started.pastSending id e he))
  · intro c₁ a c₂ hv _ hs
    exact ⟨(budgetOutline c.shared.risk).valid_step hv.1 trivial hs, step_placed hv.1 hv.2 hs⟩

/-- From any moment of a session at which no `Submit` is under way, with one at a time from then on: the number of
active orders stays within its limit, or within where it was. So does the open notional where no report raises an
order, and where `CreateOrder` replaces no active order with a negative left volume. -/
theorem budget_kept {c₀ c : System} (hinit : Initial c₀) (hreach : Runs.Reaches step Runs.anyStep c₀ c)
    (hidle : ∀ p ∈ c.calls, p.submitting = false) (hl : Limited c.shared.risk m b)
    (hpriced : c.shared.oms.AllPriced) :
    (∀ c', Runs.Reaches step (fun c a => serialised c a = true) c c' →
      c'.shared.oms.getActiveOrderCount ≤
        max c.shared.risk.limits.maxOpenOrders.toNat c.shared.oms.getActiveOrderCount) ∧
    ∀ c', Runs.Reaches step
        (fun c a => serialised c a = true ∧ calmReports c a = true ∧ replacesNoDeficit c a = true) c c' →
      ∃ q₀ q, c.shared.oms.getOpenNotional = .fin q₀ ∧ c'.shared.oms.getOpenNotional = .fin q ∧
        q ≤ max (m - b) q₀ := by
  obtain ⟨hvalid, hplaced⟩ := placed_of_reaches hinit hreach
  have hrisk : c.shared.risk = c₀.shared.risk := hvalid.1
  rw [hrisk] at hl ⊢
  refine ⟨?_, ?_⟩
  · intro c' hrun
    have hrun := hrun.alongside hvalid fun _ _ _ hv _ hs => (budgetOutline c₀.shared.risk).valid_step hv trivial hs
    exact (orderBudget hl).used_le hrun hidle
  · intro c' hrun
    have hstep : ∀ c₁ a c₂,
        (budgetOutline c₀.shared.risk).Valid c₁ ∧ c₁.shared.oms.AllPlaced ∧ c₁.shared.oms.AllPriced →
        serialised c₁ a = true ∧ calmReports c₁ a = true ∧ replacesNoDeficit c₁ a = true → step c₁ a = some c₂ →
        (budgetOutline c₀.shared.risk).Valid c₂ ∧ c₂.shared.oms.AllPlaced ∧ c₂.shared.oms.AllPriced := by
      rintro c₁ a c₂ ⟨hv, hs, hp⟩ ⟨_, hcalm, _⟩ h
      refine ⟨(budgetOutline c₀.shared.risk).valid_step hv trivial h, step_placed hv hs h, ?_⟩
      exact step_priced hv hs hp hcalm h
    have hend := hrun.invariant ⟨hvalid, hplaced, hpriced⟩ hstep
    refine ⟨_, _, getOpenNotional_eq hpriced, getOpenNotional_eq hend.2.2, ?_⟩
    exact (notionalBudget hl).used_le (hrun.alongside ⟨hvalid, hplaced, hpriced⟩ hstep) hidle

end Limits

/-- The limits are set and the two sums can be read. -/
def limits : RiskManager where
  limits := { maxOpenOrders := 5, maxTotalNotional := .fin 1100, safetyBuffer := .fin 100 }
  openOrdersProvider := true
  notionalProvider := true

theorem limits_limited : Limited limits 1100 100 := ⟨by decide, rfl, rfl, by decide, rfl, rfl⟩

/-- The fresh engine with these limits. -/
def limited : System where
  shared := { opening.shared with risk := limits }
  calls := []

theorem budget_kept_once : ∃ c' : System, c'.shared.oms.getOpenNotional = .fin 40 ∧
    c'.shared.oms.getActiveOrderCount ≤ max 5 0 ∧
    ∃ q₀ q, limited.shared.oms.getOpenNotional = .fin q₀ ∧ c'.shared.oms.getOpenNotional = .fin q ∧
      q ≤ max (1100 - 100) q₀ := by
  have hinit : Initial limited := ⟨opening_initial.oms, rfl, rfl, rfl, rfl, rfl⟩
  have hpriced : limited.shared.oms.AllPriced := by
    intro id e he
    cases he
  have hrun : ∃ c' ∈ Runs.execWhile step
      (fun c a => serialised c a = true ∧ calmReports c a = true ∧ replacesNoDeficit c a = true) limited
      (submitAlone 0 limitBuy ++ workerToTrader), c'.shared.oms.getOpenNotional = .fin 40 := by decide +kernel
  obtain ⟨c', hc', hopen⟩ := hrun
  have hreach := Runs.reaches_of_execWhile _ hc'
  obtain ⟨hcount, hnotional⟩ := budget_kept hinit (.refl _) (by simp [limited]) limits_limited hpriced
  exact ⟨c', hopen, hcount c' (hreach.mono fun _ _ hok => hok.1), hnotional c' hreach⟩

/-- A broker order under the id that the engine allocates next. Less than nothing is left of it. -/
def deficit : Order := { orderId := "t-e-1-1", price := .fin 10, leftVolume := -100 }

/-- The engine has taken the order over. -/
def withDeficit : System where
  shared := { limited.shared with oms := opening.shared.oms.reconcileBrokerOrder deficit }
  calls := []

/-- The order that is created takes the place of the broker's, and with it goes what made room for it. -/
theorem deficit_replaced : ∃ c' : System, Initial withDeficit ∧ Limited withDeficit.shared.risk 1100 100 ∧
    withDeficit.shared.oms.AllPriced ∧
    Runs.Reaches step (fun c a => serialised c a = true ∧ calmReports c a = true) withDeficit c' ∧
    withDeficit.shared.oms.getOpenNotional = .fin (-1000) ∧ c'.shared.oms.getOpenNotional = .fin 2000 ∧
    max (1100 - 100) (-1000) < (2000 : ℚ) := by
  have hinit : Initial withDeficit := by
    refine ⟨.brokerOrder opening_initial.oms deficit ?_, rfl, rfl, rfl, rfl, rfl⟩
    intro hid
    exact absurd hid (by decide)
  have hpriced : withDeficit.shared.oms.AllPriced := by
    intro id e he
    have horders : withDeficit.shared.oms.orders =
        (∅ : Table String OrderEntry).insert deficit.orderId (adoptedEntry deficit deficit.orderId) := rfl
    rw [horders, Table.lookup_store] at he
    split at he <;> cases he
    exact ⟨10, by decide, rfl⟩
  have hrun : ∃ c' ∈ Runs.execWhile step (fun c a => serialised c a = true ∧ calmReports c a = true) withDeficit
      (submitAlone 0 { limitBuy with volume := 200 }), c'.shared.oms.getOpenNotional = .fin 2000 := by decide +kernel
  obtain ⟨c', hc', hopen⟩ := hrun
  refine ⟨c', hinit, limits_limited, hpriced, Runs.reaches_of_execWhile _ hc', ?_, hopen, ?_⟩
  · decide +kernel
  · decide +kernel

end Qtrade.Trading
