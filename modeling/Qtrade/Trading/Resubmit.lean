import Qtrade.Lib.Alone
import Qtrade.Trading.Budget

/-!
# A second `Submit` of the same request

Rules and limits may be configured at any time. A request that was submitted once is submitted again, and
`OrderPipeline::Submit` looks for its client id only after the checks.
-/

namespace Qtrade.Trading

open Qtrade.Cms (ComplianceRules)
open Qtrade.Oms
open Qtrade.Oms.OrderManager
open Qtrade.Risk (RiskLimits RiskManager)
open Calls.Program (Only Solo)

/-! ## Rules and limits that change -/

inductive Reconfiguration
  | compliance (rules : ComplianceRules)
  | risk (limits : RiskLimits)

def Shared.reconfigure (s : Shared) : Reconfiguration → Shared
  | .compliance rules => { s with compliance := (s.compliance.configure rules).2 }
  | .risk limits => { s with risk := (s.risk.configure limits).2 }

/-- The trading threads, and whoever configures the two managers. -/
def configurable : Calls.Program Shared Call CallPc Shared.Answer (EngineEvent ⊕ Reconfiguration) where
  entry := callEntry
  next := callNext
  environment s := Sum.elim (engineStep s) fun change => some (s.reconfigure change)

variable {s s' : Shared} {pc pc' : SubmitPc} {request : OrderRequest} {call : Nat} {answer : Shared.Answer}

/-! ## How a call got past its checks -/

/-- The call got past the compliance check under these rules. -/
def Complied (c₀ : System) (call : Nat) (request : OrderRequest) (rules : ComplianceRules) (c : System) : Prop :=
  ∃ c₁ c₂, Runs.Reaches configurable.step Runs.anyStep c₀ c₁ ∧
    c₁.calls[call]? = some (.submit (.compliance request)) ∧ c₁.shared.compliance.rules = rules ∧
    configurable.step c₁ (.resume call .silent) = some c₂ ∧ c₂.calls[call]? = some (.submit (.risk request)) ∧
    Runs.Reaches configurable.step Runs.anyStep c₂ c

/-- After that, it got past the check of the request under these limits. -/
def Passed (c₀ : System) (call : Nat) (request : OrderRequest) (rules : ComplianceRules) (limits : RiskLimits)
    (c : System) : Prop :=
  ∃ c₁ c₂, Complied c₀ call request rules c₁ ∧
    c₁.calls[call]? = some (.submit (.risk request)) ∧ c₁.shared.risk.limits = limits ∧
    configurable.step c₁ (.resume call .silent) = some c₂ ∧
    c₂.calls[call]? = some (.submit (.riskOpenOrders request c₁.shared.risk)) ∧
    Runs.Reaches configurable.step Runs.anyStep c₂ c

/-- A `Submit` has returned success, and its request was checked under these rules and limits. -/
structure Succeeded (c₀ c : System) (call : Nat) (request : OrderRequest) (rules : ComplianceRules)
    (limits : RiskLimits) : Prop where
  initial : Initial c₀
  passed : Passed c₀ call request rules limits c
  returned : c.calls[call]? = some (.submit (.done request .success))

theorem Complied.tail {c₀ c c' : System} {rules : ComplianceRules} (h : Complied c₀ call request rules c)
    {a : Calls.Action Call Shared.Answer (EngineEvent ⊕ Reconfiguration)} (hs : configurable.step c a = some c') :
    Complied c₀ call request rules c' := by
  obtain ⟨c₁, c₂, h₁, hpc, hrules, h₂, hpc', hrest⟩ := h
  exact ⟨c₁, c₂, h₁, hpc, hrules, h₂, hpc', hrest.tail trivial hs⟩

theorem Passed.tail {c₀ c c' : System} {rules : ComplianceRules} {limits : RiskLimits}
    (h : Passed c₀ call request rules limits c)
    {a : Calls.Action Call Shared.Answer (EngineEvent ⊕ Reconfiguration)} (hs : configurable.step c a = some c') :
    Passed c₀ call request rules limits c' := by
  obtain ⟨c₁, c₂, h₁, hpc, hlimits, h₂, hpc', hrest⟩ := h
  exact ⟨c₁, c₂, h₁, hpc, hlimits, h₂, hpc', hrest.tail trivial hs⟩

theorem step_submit {c c' : System} (h : configurable.step c (.resume call answer) = some c')
    (hpc : c.calls[call]? = some (.submit pc)) (hpc' : c'.calls[call]? = some (.submit pc')) :
    c.shared.submitNext call pc answer = some (c'.shared, pc') := by
  obtain ⟨p, p', hp, hnext, hcalls⟩ := Calls.Program.step_resume h
  cases hpc.symm.trans hp
  have hlt : call < c.calls.length := (List.getElem?_eq_some_iff.mp hp).1
  rw [hcalls, List.getElem?_set_self hlt] at hpc'
  cases hpc'
  obtain ⟨r, hr, heq⟩ := Option.map_eq_some_iff.mp hnext
  obtain ⟨hshared, hr2⟩ := Prod.mk.inj heq
  cases hr2
  rw [hr, ← hshared]

theorem Complied.complies {c₀ c : System} {rules : ComplianceRules} (h : Complied c₀ call request rules c) :
    Cms.ComplianceManager.checkOrder { rules } request = .success := by
  obtain ⟨c₁, c₂, -, hpc, rfl, hstep, hpc', -⟩ := h
  have hnext := step_submit hstep hpc hpc'
  simp only [Shared.submitNext, Option.some.injEq, Prod.mk.injEq] at hnext
  by_contra hfail
  rw [if_neg hfail] at hnext
  cases hnext.2

theorem Passed.affordable {c₀ c : System} {rules : ComplianceRules} {limits : RiskLimits}
    (h : Passed c₀ call request rules limits c) : RiskManager.checkRequest { limits } request = .success := by
  obtain ⟨c₁, c₂, -, hpc, rfl, hstep, hpc', -⟩ := h
  have hnext := step_submit hstep hpc hpc'
  by_contra hfail
  have hfail : c₁.shared.risk.checkRequest request ≠ .success := hfail
  simp [Shared.submitNext, hfail] at hnext

theorem Passed.complied {c₀ c : System} {rules : ComplianceRules} {limits : RiskLimits}
    (h : Passed c₀ call request rules limits c) : ∃ c', Complied c₀ call request rules c' := by
  obtain ⟨c₁, _, hc, _⟩ := h
  exact ⟨c₁, hc⟩

/-! ### Every success came that way -/

/-- The request of a `Submit` that has passed the check of the request and may still return success. -/
def SubmitPc.past? : SubmitPc → Option OrderRequest
  | .compliance _ | .risk _ | .threw _ => none
  | .done request rc => if rc = .success then some request else none
  | .riskOpenOrders request _ | .riskNotional request _ | .duplicate request | .allocate request
  | .reserve request _ | .query request _ | .create request _ | .lifecycle request _ | .markQueued request _
  | .enqueue request _ | .recordFailure request _ _ | .release request _ _ => some request

theorem submitNext_risk (h : s.submitNext call pc answer = some (s', .risk request)) :
    pc = .compliance request ∧ answer = .silent := by
  unfold Shared.submitNext at h
  split at h
  all_goals grind

theorem submitNext_past (h : s.submitNext call pc answer = some (s', pc')) (hpast : pc'.past? = some request) :
    pc.past? = some request ∨ pc = .risk request ∧ pc' = .riskOpenOrders request s.risk ∧ answer = .silent := by
  unfold Shared.submitNext at h
  split at h
  all_goals grind [SubmitPc.past?]

/-- Where every `Submit` of a system has been. -/
def Traced (c₀ c : System) : Prop :=
  ∀ call pc request, c.calls[call]? = some (.submit pc) →
    (pc = .risk request → ∃ rules, Complied c₀ call request rules c) ∧
      (pc.past? = some request → ∃ rules limits, Passed c₀ call request rules limits c)

theorem Traced.same {c₀ c c' : System} (h : Traced c₀ c)
    {a : Calls.Action Call Shared.Answer (EngineEvent ⊕ Reconfiguration)} (hs : configurable.step c a = some c')
    (hcall : c.calls[call]? = some (.submit pc)) :
    (pc = .risk request → ∃ rules, Complied c₀ call request rules c') ∧
      (pc.past? = some request → ∃ rules limits, Passed c₀ call request rules limits c') := by
  obtain ⟨hrisk, hpast⟩ := h call pc request hcall
  constructor
  · intro heq
    obtain ⟨rules, hc⟩ := hrisk heq
    exact ⟨rules, hc.tail hs⟩
  · intro heq
    obtain ⟨rules, limits, hc⟩ := hpast heq
    exact ⟨rules, limits, hc.tail hs⟩

theorem traced_resume {c₀ c c' : System} (hrun : Runs.Reaches configurable.step Runs.anyStep c₀ c) (h : Traced c₀ c)
    (hs : configurable.step c (.resume call answer) = some c') (hpc : c.calls[call]? = some (.submit pc))
    (hpc' : c'.calls[call]? = some (.submit pc')) :
    (pc' = .risk request → ∃ rules, Complied c₀ call request rules c') ∧
      (pc'.past? = some request → ∃ rules limits, Passed c₀ call request rules limits c') := by
  have hnext := step_submit hs hpc hpc'
  constructor
  · rintro rfl
    obtain ⟨rfl, rfl⟩ := submitNext_risk hnext
    exact ⟨_, c, c', hrun, hpc, rfl, hs, hpc', .refl _⟩
  · intro hpast
    rcases submitNext_past hnext hpast with hold | ⟨rfl, rfl, rfl⟩
    · obtain ⟨rules, limits, hc⟩ := (h call pc request hpc).2 hold
      exact ⟨rules, limits, hc.tail hs⟩
    · obtain ⟨rules, hc⟩ := (h call _ request hpc).1 rfl
      exact ⟨rules, _, c, c', hc, hpc, rfl, hs, hpc', .refl _⟩

theorem traced_of_reaches {c₀ c : System} (initial : Initial c₀)
    (run : Runs.Reaches configurable.step Runs.anyStep c₀ c) : Traced c₀ c := by
  induction run with
  | refl =>
    intro call pc request hcall
    simp [initial.calls] at hcall
  | @tail c c' hrun hlast ih =>
    obtain ⟨a, -, hs⟩ := hlast
    intro i q request hcall
    cases a with
    | start call =>
      have hcalls : c'.calls = c.calls ++ [callEntry call] := by
        cases hs
        rfl
      rw [hcalls] at hcall
      rcases Calls.Program.getElem?_start hcall with hold | ⟨-, hnew⟩
      · exact ih.same hs hold
      · cases call <;> cases hnew
        simp [SubmitPc.past?]
    | resume index input =>
      obtain ⟨p, p', hp, hnext, hcalls⟩ := Calls.Program.step_resume hs
      have hcall' := hcall
      rw [hcalls] at hcall'
      rcases Calls.Program.getElem?_resume hcall' with ⟨rfl, rfl⟩ | ⟨-, hold⟩
      · cases p with
        | submit pc => exact traced_resume hrun ih hs hp hcall
        | cancel pc =>
          have hnext : callNext c.shared i (.cancel pc) input = some (c'.shared, .submit q) := hnext
          simp only [callNext] at hnext
          split at hnext
          · simp at hnext
          · cases hnext
      · exact ih.same hs hold
    | environment event =>
      obtain ⟨-, hcalls⟩ := Calls.Program.step_environment hs
      rw [hcalls] at hcall
      exact ih.same hs hcall

theorem succeeded_of_returned {c₀ c : System} (initial : Initial c₀)
    (run : Runs.Reaches configurable.step Runs.anyStep c₀ c)
    (returned : c.calls[call]? = some (.submit (.done request .success))) :
    ∃ rules limits, Succeeded c₀ c call request rules limits := by
  obtain ⟨rules, limits, hpassed⟩ := (traced_of_reaches initial run call _ request returned).2 rfl
  exact ⟨rules, limits, initial, hpassed, returned⟩

/-! ## The second call -/

/-- What the bridge was asked for. -/
def bridgeCalls (log : List Event) : List Event :=
  log.filter fun
    | .reserve _ _ | .query _ _ | .released _ _ _ => true
    | _ => false

/-- A `Submit` while nobody else moves: it comes back, always with success, and never leaves a trace in the order
table, in the queue or at the bridge. -/
def Idempotent (c : System) (request : OrderRequest) : Prop :=
  (∃ c', Runs.Reaches configurable.step (Only c.calls.length) (c.begin (callEntry (.submit request))) c' ∧
      c'.calls[c.calls.length]? = some (.submit (.done request .success))) ∧
    ∀ c' pc, Runs.Reaches configurable.step (Only c.calls.length) (c.begin (callEntry (.submit request))) c' →
      c'.calls[c.calls.length]? = some (.submit pc) → pc.running = false →
      pc = .done request .success ∧ c'.shared.oms.orders = c.shared.oms.orders ∧
        c'.shared.ems.pendingItems = c.shared.ems.pendingItems ∧
        bridgeCalls c'.shared.log = bridgeCalls c.shared.log

/-- One more order is within the limits, and the client id is known. -/
def Shared.canResubmit (s : Shared) (request : OrderRequest) : Bool :=
  (s.risk.limits.maxOpenOrders == 0 || !s.risk.openOrdersProvider ||
      decide (s.oms.getActiveOrderCount < s.risk.limits.maxOpenOrders.toNat)) &&
    (!decide (0 < s.risk.limits.maxTotalNotional) || !s.risk.notionalProvider ||
      !decide (s.risk.limits.maxTotalNotional - s.risk.limits.safetyBuffer <
        s.oms.getOpenNotional + RiskManager.orderNotional request)) &&
    (s.oms.getOrderByClientId request.clientOrderId).isSome

theorem canResubmit_iff (s : Shared) (request : OrderRequest) :
    s.canResubmit request = true ↔
      s.risk.checkOpenOrders s.oms.getActiveOrderCount = .success ∧
        s.risk.checkTotalNotional request s.oms.getOpenNotional = .success ∧
        (s.oms.getOrderByClientId request.clientOrderId).isSome = true := by
  have hopen : (s.risk.limits.maxOpenOrders == 0 || !s.risk.openOrdersProvider ||
      decide (s.oms.getActiveOrderCount < s.risk.limits.maxOpenOrders.toNat)) = true ↔
      s.risk.checkOpenOrders s.oms.getActiveOrderCount = .success := by
    unfold RiskManager.checkOpenOrders
    split_ifs with hfull
    · obtain ⟨hset, hflag, hcount⟩ := hfull
      have hset : s.risk.limits.maxOpenOrders ≠ 0 := (UInt64.pos_iff_ne_zero).mp hset
      simp [hset, hflag, hcount]
    · rw [UInt64.pos_iff_ne_zero] at hfull
      simp
      grind
  have hnotional : (!decide (0 < s.risk.limits.maxTotalNotional) || !s.risk.notionalProvider ||
      !decide (s.risk.limits.maxTotalNotional - s.risk.limits.safetyBuffer <
        s.oms.getOpenNotional + RiskManager.orderNotional request)) = true ↔
      s.risk.checkTotalNotional request s.oms.getOpenNotional = .success := by
    unfold RiskManager.checkTotalNotional
    split_ifs with hfull
    · simp [hfull]
    · simp
      grind
  unfold Shared.canResubmit
  rw [Bool.and_eq_true, Bool.and_eq_true, hopen, hnotional, and_assoc]

/-- Nothing has changed but the log, and there nothing was asked of the bridge. -/
structure Untouched (c s : Shared) : Prop where
  oms : s.oms = c.oms
  ems : s.ems = c.ems
  compliance : s.compliance = c.compliance
  risk : s.risk = c.risk
  bridge : bridgeCalls s.log = bridgeCalls c.log

theorem Untouched.refl (s : Shared) : Untouched s s := ⟨rfl, rfl, rfl, rfl, rfl⟩

theorem Untouched.emit {c : Shared} (h : Untouched c s) {event : Event} (hevent : bridgeCalls [event] = []) :
    Untouched c (s.emit event) := by
  refine ⟨h.oms, h.ems, h.compliance, h.risk, ?_⟩
  have hcons : bridgeCalls (event :: s.log) = bridgeCalls [event] ++ bridgeCalls s.log := by
    unfold bridgeCalls
    rw [← List.filter_append]
    rfl
  unfold Shared.emit
  rw [hcons, hevent, h.bridge]
  rfl

/-- Where a second call is that will find its client id. -/
def Resubmitting (risk : RiskManager) (request : OrderRequest) : SubmitPc → Prop
  | .compliance r | .risk r | .duplicate r => r = request
  | .riskOpenOrders r budget | .riskNotional r budget => r = request ∧ budget = risk
  | .done r rc => r = request ∧ rc = .success
  | _ => False

/-- The request passes every check of this state. -/
structure Welcome (c : Shared) (request : OrderRequest) : Prop where
  compliance : c.compliance.checkOrder request = .success
  risk : c.risk.checkRequest request = .success
  openOrders : c.risk.checkOpenOrders c.oms.getActiveOrderCount = .success
  notional : c.risk.checkTotalNotional request c.oms.getOpenNotional = .success
  identified : request.clientOrderId ≠ 0
  known : (c.oms.getOrderByClientId request.clientOrderId).isSome = true

theorem Welcome.step {c : Shared} (h : Welcome c request) (hs : Untouched c s) (hpc : Resubmitting c.risk request pc)
    (hnext : s.submitNext call pc answer = some (s', pc')) :
    Untouched c s' ∧ Resubmitting c.risk request pc' := by
  obtain ⟨hcompliance, hrisk, hopen, hnotional, hid, hknown⟩ := h
  have hcomp : s.compliance.checkOrder request = .success := hs.compliance ▸ hcompliance
  have hreq : s.risk.checkRequest request = .success := hs.risk ▸ hrisk
  cases pc with
  | compliance r =>
    cases hpc
    cases answer <;> simp only [Shared.submitNext, hcomp, if_true, Option.some.injEq, Prod.mk.injEq, reduceCtorEq]
      at hnext
    obtain ⟨rfl, rfl⟩ := hnext
    exact ⟨hs.emit rfl, rfl⟩
  | risk r =>
    cases hpc
    cases answer <;> simp only [Shared.submitNext, hreq, if_true, Option.some.injEq, Prod.mk.injEq, reduceCtorEq]
      at hnext
    obtain ⟨rfl, rfl⟩ := hnext
    exact ⟨hs, rfl, hs.risk⟩
  | riskOpenOrders r budget =>
    obtain ⟨rfl, rfl⟩ := hpc
    rw [← hs.oms] at hopen
    cases answer <;> simp only [Shared.submitNext, hopen, if_true, Option.some.injEq, Prod.mk.injEq, reduceCtorEq]
      at hnext
    obtain ⟨rfl, rfl⟩ := hnext
    exact ⟨hs, rfl, rfl⟩
  | riskNotional r budget =>
    obtain ⟨rfl, rfl⟩ := hpc
    rw [← hs.oms] at hnotional
    cases answer <;> simp only [Shared.submitNext, hnotional, if_true, Option.some.injEq, Prod.mk.injEq, reduceCtorEq]
      at hnext
    obtain ⟨rfl, rfl⟩ := hnext
    exact ⟨hs.emit rfl, rfl⟩
  | duplicate r =>
    cases hpc
    rw [← hs.oms] at hknown
    cases answer <;> simp only [Shared.submitNext, hid, hknown, ne_eq, not_false_eq_true, and_self, if_true,
      Option.some.injEq, Prod.mk.injEq, reduceCtorEq] at hnext
    obtain ⟨rfl, rfl⟩ := hnext
    exact ⟨hs, rfl, rfl⟩
  | done r rc => cases answer <;> cases hnext
  | _ => cases hpc

theorem submit_solo_head {t : Shared × CallPc} (h : s.submitNext call pc answer = some (s', pc'))
    (hrest : configurable.Solo call (s', .submit pc') t) : configurable.Solo call (s, .submit pc) t := by
  have hnext : configurable.next s call (.submit pc) answer = some (s', .submit pc') := by
    simp [configurable, callNext, h]
  exact Solo.head hnext hrest

/-- What holds where a `Submit` begins and is kept by its steps holds wherever it gets to. -/
theorem submit_solo_invariant {R : Shared → SubmitPc → Prop} {s' : Shared} {p : CallPc}
    (h : configurable.Solo call (s, .submit pc) (s', p)) (hr : R s pc)
    (hstep : ∀ s pc answer s' pc', R s pc → s.submitNext call pc answer = some (s', pc') → R s' pc') :
    ∃ pc', p = .submit pc' ∧ R s' pc' := by
  refine h.invariant (R := fun s p => ∃ pc, p = .submit pc ∧ R s pc) ⟨pc, rfl, hr⟩ ?_
  rintro s _ answer s' p' ⟨pc, rfl, hpc⟩ hnext
  obtain ⟨⟨s₁, pc'⟩, hsubmit, heq⟩ := Option.map_eq_some_iff.mp hnext
  cases heq
  exact ⟨pc', rfl, hstep _ _ _ _ _ hpc hsubmit⟩

theorem Welcome.returns {c : Shared} (h : Welcome c request) :
    ∃ s, configurable.Solo call (c, .submit (.compliance request)) (s, .submit (.done request .success)) := by
  obtain ⟨hcompliance, hrisk, hopen, hnotional, hid, hknown⟩ := h
  let complied := c.emit (.compliance call request .success)
  have hfirst : c.submitNext call (.compliance request) .silent = some (complied, .risk request) := by
    simp [Shared.submitNext, hcompliance, complied]
  have hsecond : complied.submitNext call (.risk request) .silent =
      some (complied, .riskOpenOrders request c.risk) := by
    simp [Shared.submitNext, hrisk, complied, Shared.emit]
  have hthird : complied.submitNext call (.riskOpenOrders request c.risk) .silent =
      some (complied, .riskNotional request c.risk) := by
    simp [Shared.submitNext, hopen, complied, Shared.emit]
  have hfourth : complied.submitNext call (.riskNotional request c.risk) .silent =
      some (complied.emit (.risk call request .success), .duplicate request) := by
    simp [Shared.submitNext, hnotional, complied, Shared.emit]
  have hfifth : (complied.emit (.risk call request .success)).submitNext call (.duplicate request) .silent =
      some (complied.emit (.risk call request .success), .done request .success) := by
    simp [Shared.submitNext, hid, hknown, complied, Shared.emit]
  exact ⟨_, submit_solo_head hfirst (submit_solo_head hsecond (submit_solo_head hthird
    (submit_solo_head hfourth (submit_solo_head hfifth .refl))))⟩

/-! ### What it takes to succeed without a trace -/

/-- The call has put an item into the queue or asked the bridge for something. -/
def Marked (c s : Shared) : Prop :=
  c.ems.pendingItems.length < s.ems.pendingItems.length ∨
    (bridgeCalls c.log).length < (bridgeCalls s.log).length

/-- What is known of a call that has left no mark yet. -/
def Unmarked (c : Shared) (request : OrderRequest) (s : Shared) : SubmitPc → Prop
  | .compliance r | .risk r => r = request ∧ s.oms = c.oms ∧ s.ems = c.ems ∧ s.risk = c.risk
  | .riskOpenOrders r budget => r = request ∧ s.oms = c.oms ∧ s.ems = c.ems ∧ budget = c.risk
  | .riskNotional r budget => r = request ∧ s.oms = c.oms ∧ s.ems = c.ems ∧ budget = c.risk ∧
      c.risk.checkOpenOrders c.oms.getActiveOrderCount = .success
  | .duplicate r => r = request ∧ s.oms = c.oms ∧ s.ems = c.ems ∧
      c.risk.checkOpenOrders c.oms.getActiveOrderCount = .success ∧
      c.risk.checkTotalNotional request c.oms.getOpenNotional = .success
  | .allocate r => r = request ∧ s.oms = c.oms ∧ s.ems = c.ems ∧
      (r.clientOrderId = 0 ∨ c.oms.getOrderByClientId r.clientOrderId = none)
  | .reserve _ _ => True
  | .query _ _ => False
  | .create r _ => s.ems = c.ems ∧ (r.clientOrderId = 0 ∨ s.oms.getOrderByClientId r.clientOrderId = none)
  | .lifecycle _ order => s.ems = c.ems ∧ s.oms.getLifecycleState order.orderId = some .prepared
  | .markQueued _ _ | .enqueue _ _ => s.ems = c.ems
  | .recordFailure _ _ rc | .release _ _ rc => rc ≠ .success
  | .done _ rc => rc = .success → c.canResubmit request = true
  | .threw _ => True

/-- A step adds to the queue and to what the bridge was asked for, or leaves them. -/
structure Grows (s s' : Shared) : Prop where
  pendingItems : s.ems.pendingItems.length ≤ s'.ems.pendingItems.length
  bridge : (bridgeCalls s.log).length ≤ (bridgeCalls s'.log).length

theorem Grows.refl (s : Shared) : Grows s s := ⟨Nat.le_refl _, Nat.le_refl _⟩

theorem Grows.emit {event : Event} (hems : s.ems.pendingItems.length ≤ s'.ems.pendingItems.length)
    (hlog : s'.log = s.log) : Grows s (s'.emit event) := by
  refine ⟨hems, ?_⟩
  unfold Shared.emit bridgeCalls
  rw [hlog]
  exact ((List.sublist_cons_self event s.log).filter _).length_le

theorem Grows.release (s : Shared) (orderId : String) (reason : ReleaseReason) :
    Grows s (s.release orderId reason) := by
  unfold Shared.release
  split
  · exact .emit (Nat.le_refl _) rfl
  · exact .refl s

theorem enqueue_grows (s : Ems.ExecutionManager) (order : Order) :
    s.pendingItems.length ≤ (s.enqueue order).2.pendingItems.length := by
  unfold Ems.ExecutionManager.enqueue
  split <;> simp

theorem enqueue_longer {s : Ems.ExecutionManager} {order : Order} (h : (s.enqueue order).1 = .success) :
    s.pendingItems.length < (s.enqueue order).2.pendingItems.length := by
  unfold Ems.ExecutionManager.enqueue at h ⊢
  split
  · simp
  · simp_all

theorem submitNext_grows (h : s.submitNext call pc answer = some (s', pc')) : Grows s s' := by
  unfold Shared.submitNext at h
  split at h
  case h_2 | h_3 =>
    dsimp only at h
    split at h <;> cases h
    · exact .refl _
    · exact .emit (Nat.le_refl _) rfl
  case h_5 | h_10 => split at h <;> cases h <;> exact .refl _
  case h_9 =>
    split at h <;> cases h
    · exact .emit (Nat.le_refl _) rfl
    all_goals exact ⟨Nat.le_refl _, Nat.le_refl _⟩
  case h_12 => cases h; exact .emit (enqueue_grows _ _) rfl
  case h_14 => cases h; exact .release _ _ _
  case h_15 => cases h
  all_goals
    cases h
    first | exact .emit (Nat.le_refl _) rfl | exact ⟨Nat.le_refl _, Nat.le_refl _⟩

theorem Marked.mono {c : Shared} (h : Marked c s) (hgrows : Grows s s') : Marked c s' :=
  h.imp (Nat.lt_of_lt_of_le · hgrows.pendingItems) (Nat.lt_of_lt_of_le · hgrows.bridge)

theorem createOrder_prepared {oms oms' : OrderManager} {orderId : String} {order : Order}
    (hunknown : request.clientOrderId = 0 ∨ oms.getOrderByClientId request.clientOrderId = none)
    (h : oms.createOrder request orderId = (.ok (some order), oms')) :
    oms'.getLifecycleState order.orderId = some .prepared := by
  unfold createOrder at h
  split at h
  · cases h
  · split at h
    case h_1 existing hindex =>
      split at hindex
      · simp_all [getOrderByClientId]
      · cases hindex
    case h_2 =>
      cases h
      simp [getLifecycleState, newEntry, store]

theorem Unmarked.step {c : Shared} (hgrown : Grows c s) (hpc : Unmarked c request s pc)
    (hnext : s.submitNext call pc answer = some (s', pc')) : Marked c s' ∨ Unmarked c request s' pc' := by
  unfold Shared.submitNext at hnext
  split at hnext
  case h_1 r =>
    obtain ⟨rfl, homs, hems, hrisk⟩ := hpc
    cases hnext
    right
    split
    · exact ⟨rfl, homs, hems, hrisk⟩
    case isFalse hrc => exact fun h => absurd h hrc
  case h_2 r =>
    obtain ⟨rfl, homs, hems, hrisk⟩ := hpc
    dsimp only at hnext
    split at hnext <;> cases hnext
    · exact Or.inr ⟨rfl, homs, hems, hrisk⟩
    case isFalse hrc => exact Or.inr fun h => absurd h hrc
  case h_3 r budget =>
    obtain ⟨rfl, homs, hems, rfl⟩ := hpc
    dsimp only at hnext
    split at hnext <;> cases hnext
    case isTrue hopen => exact Or.inr ⟨rfl, homs, hems, rfl, homs ▸ hopen⟩
    case isFalse hrc => exact Or.inr fun h => absurd h hrc
  case h_4 r budget =>
    obtain ⟨rfl, homs, hems, rfl, hopen⟩ := hpc
    cases hnext
    right
    split
    case isTrue hnotional => exact ⟨rfl, homs, hems, hopen, homs ▸ hnotional⟩
    case isFalse hrc => exact fun h => absurd h hrc
  case h_5 r =>
    obtain ⟨rfl, homs, hems, hopen, hnotional⟩ := hpc
    split at hnext <;> cases hnext
    case isTrue hknown =>
      exact Or.inr fun _ => (canResubmit_iff c r).mpr ⟨hopen, hnotional, homs ▸ hknown.2⟩
    case isFalse hunknown =>
      refine Or.inr ⟨rfl, homs, hems, ?_⟩
      rw [← homs, or_iff_not_imp_left]
      simpa using hunknown
  case h_6 r =>
    obtain ⟨rfl, homs, hems, hunknown⟩ := hpc
    cases hnext
    right
    split
    · trivial
    · rw [← homs] at hunknown
      exact ⟨hems, hunknown⟩
  case h_7 r orderId answer =>
    cases hnext
    exact Or.inl (Or.inr (Nat.lt_succ_of_le hgrown.bridge))
  case h_8 => cases hpc
  case h_9 r orderId =>
    obtain ⟨hems, hunknown⟩ := hpc
    split at hnext <;> rename_i heq <;> cases hnext
    · exact Or.inr ⟨hems, createOrder_prepared hunknown heq⟩
    · exact Or.inr (show ErrorCode.notInitialized ≠ .success by decide)
    · exact Or.inr trivial
  case h_10 r order =>
    obtain ⟨hems, hprepared⟩ := hpc
    rw [hprepared] at hnext
    cases hnext
    exact Or.inr hems
  case h_11 r order =>
    cases hnext
    right
    split
    · exact hpc
    case isFalse hrc => exact hrc
  case h_12 r order =>
    have hems : s.ems = c.ems := hpc
    cases hnext
    split
    case isTrue hqueued => exact Or.inl (Or.inl (hems ▸ enqueue_longer hqueued))
    case isFalse hrc => exact Or.inr hrc
  case h_13 => cases hnext; exact Or.inr hpc
  case h_14 => cases hnext; exact Or.inr fun h => absurd h hpc
  case h_15 => cases hnext

theorem resubmit_marked {c s : Shared}
    (h : configurable.Solo call (c, .submit (.compliance request)) (s, .submit (.done request .success))) :
    Marked c s ∨ c.canResubmit request = true := by
  have hstep : ∀ s pc answer s' pc', Grows c s ∧ (Marked c s ∨ Unmarked c request s pc) →
      s.submitNext call pc answer = some (s', pc') → Grows c s' ∧ (Marked c s' ∨ Unmarked c request s' pc') := by
    rintro s pc answer s' pc' ⟨hgrown, hmarked⟩ hnext
    have hgrows := submitNext_grows hnext
    refine ⟨⟨hgrown.1.trans hgrows.1, hgrown.2.trans hgrows.2⟩, ?_⟩
    rcases hmarked with hmarked | hunmarked
    · exact Or.inl (hmarked.mono hgrows)
    · exact hunmarked.step hgrown hnext
  obtain ⟨pc, hpc, -, hmarked⟩ := submit_solo_invariant h ⟨.refl c, Or.inr ⟨rfl, rfl, rfl, rfl⟩⟩ hstep
  cases hpc
  exact hmarked.imp_right fun hdone => hdone rfl

/-! ### Exactly when the second call does nothing -/

theorem Succeeded.welcome {c₀ c : System} {rules : ComplianceRules} {limits : RiskLimits}
    (h : Succeeded c₀ c call request rules limits) (hid : request.clientOrderId ≠ 0)
    (hrules : c.shared.compliance.rules = rules) (hlimits : c.shared.risk.limits = limits)
    (hcan : c.shared.canResubmit request = true) : Welcome c.shared request := by
  obtain ⟨_, hcomplied⟩ := h.passed.complied
  have hcompliance := hcomplied.complies
  have hrisk := h.passed.affordable
  rw [← hrules] at hcompliance
  rw [← hlimits] at hrisk
  obtain ⟨hopen, hnotional, hknown⟩ := (canResubmit_iff _ _).mp hcan
  exact ⟨hcompliance, hrisk, hopen, hnotional, hid, hknown⟩

theorem Welcome.idempotent {c : System} (h : Welcome c.shared request) : Idempotent c request := by
  constructor
  · obtain ⟨s, hsolo⟩ : ∃ s, configurable.Solo c.calls.length (c.shared, .submit (.compliance request))
        (s, .submit (.done request .success)) := h.returns
    exact ⟨_, Calls.Program.reaches_only_iff.mpr ⟨_, hsolo, rfl⟩, Calls.Config.getElem?_begin _ _⟩
  · intro c' pc hrun hpc hreturned
    obtain ⟨⟨s, p⟩, hsolo, rfl⟩ := Calls.Program.reaches_only_iff.mp hrun
    cases (Calls.Config.getElem?_begin ({ c with shared := s } : System) p).symm.trans hpc
    obtain ⟨_, heq, hs, hpc⟩ := submit_solo_invariant
      (R := fun s pc => Untouched c.shared s ∧ Resubmitting c.shared.risk request pc) hsolo ⟨.refl _, rfl⟩
      fun _ _ _ _ _ hr hnext => h.step hr.1 hr.2 hnext
    cases heq
    refine ⟨?_, congrArg _ hs.oms, congrArg _ hs.ems, hs.bridge⟩
    cases pc with
    | done r rc =>
      obtain ⟨rfl, rfl⟩ := hpc
      rfl
    | threw r => cases hpc
    | _ => cases hreturned

theorem Idempotent.canResubmit {c : System} (h : Idempotent c request) : c.shared.canResubmit request = true := by
  obtain ⟨⟨c', hrun, hdone⟩, hall⟩ := h
  obtain ⟨-, -, hqueue, hbridge⟩ := hall c' _ hrun hdone rfl
  obtain ⟨⟨s, p⟩, hsolo, rfl⟩ := Calls.Program.reaches_only_iff.mp hrun
  cases (Calls.Config.getElem?_begin ({ c with shared := s } : System) p).symm.trans hdone
  refine (resubmit_marked hsolo).resolve_left ?_
  have hqueue : s.ems.pendingItems = c.shared.ems.pendingItems := hqueue
  have hbridge : bridgeCalls s.log = bridgeCalls c.shared.log := hbridge
  unfold Marked
  rw [hqueue, hbridge]
  simp

/-- A request with a client id was submitted with success, and its rules and limits are in force. Whatever happened
meanwhile: a second call does nothing and returns success if and only if one more order would be within the limits
and the client id is known. -/
theorem resubmit_idempotent_iff {c₀ c : System} {rules : ComplianceRules} {limits : RiskLimits}
    (succeeded : Succeeded c₀ c call request rules limits) (identified : request.clientOrderId ≠ 0)
    (sameRules : c.shared.compliance.rules = rules) (sameLimits : c.shared.risk.limits = limits) :
    Idempotent c request ↔ c.shared.canResubmit request = true := by
  constructor
  · exact Idempotent.canResubmit
  · intro hcan
    exact (succeeded.welcome identified sameRules sameLimits hcan).idempotent

/-! ### One `Submit` and a second one -/

/-- From the check of the open orders to the queue. -/
def toTheQueue : List (Calls.Action Call Shared.Answer (EngineEvent ⊕ Reconfiguration)) :=
  List.replicate 4 (.resume 0 .silent) ++
    .resume 0 (.reserved { data := some { decision := .approved } }) :: List.replicate 4 (.resume 0 .silent)

theorem succeeded_of_exec {c₀ c₁ c₂ c₃ c : System} {before after : List _} (initial : Initial c₀)
    (h₁ : Runs.exec configurable.step c₀ before = some c₁)
    (hpc₁ : c₁.calls[call]? = some (.submit (.compliance request)))
    (h₂ : configurable.step c₁ (.resume call .silent) = some c₂)
    (hpc₂ : c₂.calls[call]? = some (.submit (.risk request)))
    (h₃ : configurable.step c₂ (.resume call .silent) = some c₃)
    (hpc₃ : c₃.calls[call]? = some (.submit (.riskOpenOrders request c₂.shared.risk)))
    (h : Runs.exec configurable.step c₃ after = some c)
    (returned : c.calls[call]? = some (.submit (.done request .success))) :
    Succeeded c₀ c call request c₁.shared.compliance.rules c₂.shared.risk.limits :=
  ⟨initial, ⟨c₂, c₃, ⟨c₁, c₂, Runs.reaches_of_exec _ h₁, hpc₁, rfl, h₂, hpc₂, .refl _⟩, hpc₂, rfl, h₃, hpc₃,
    Runs.reaches_of_exec _ h⟩, returned⟩

theorem resubmit_idempotent_unlimited : ∃ c, Succeeded opening c 0 limitBuy {} {} ∧ Idempotent c limitBuy := by
  have hrun : ∃ c₁ ∈ Runs.exec configurable.step opening [.start (.submit limitBuy)],
      ∃ c₂ ∈ configurable.step c₁ (.resume 0 .silent), ∃ c₃ ∈ configurable.step c₂ (.resume 0 .silent),
        ∃ c ∈ Runs.exec configurable.step c₃ toTheQueue,
          c₁.calls[0]? = some (.submit (.compliance limitBuy)) ∧ c₂.calls[0]? = some (.submit (.risk limitBuy)) ∧
          c₃.calls[0]? = some (.submit (.riskOpenOrders limitBuy c₂.shared.risk)) ∧
          c.calls[0]? = some (.submit (.done limitBuy .success)) ∧
          c₁.shared.compliance.rules = {} ∧ c₂.shared.risk.limits = {} ∧
          c.shared.compliance.rules = {} ∧ c.shared.risk.limits = {} ∧
          c.shared.canResubmit limitBuy = true := by decide +kernel
  obtain ⟨c₁, h₁, c₂, h₂, c₃, h₃, c, h, hpc₁, hpc₂, hpc₃, hpc, hrules₁, hlimits₂, hrules, hlimits, hcan⟩ := hrun
  have hsucceeded := succeeded_of_exec opening_initial h₁ hpc₁ h₂ hpc₂ h₃ hpc₃ h hpc
  rw [hrules₁, hlimits₂] at hsucceeded
  exact ⟨c, hsucceeded, (resubmit_idempotent_iff hsucceeded (by decide) hrules hlimits).mpr hcan⟩

/-- The fresh engine with room for one open order. -/
def roomForOne : System where
  shared := { opening.shared with risk := { limits := { maxOpenOrders := 1 }, openOrdersProvider := true } }
  calls := []

theorem roomForOne_initial : Initial roomForOne :=
  ⟨opening_initial.oms, rfl, rfl, rfl, rfl, rfl⟩

/-- The first order takes the only place, and the second call is refused for want of one. -/
theorem resubmit_refused : ¬∀ (c₀ c : System) (call : Nat) (request : OrderRequest) (rules : ComplianceRules)
    (limits : RiskLimits), Succeeded c₀ c call request rules limits → request.clientOrderId ≠ 0 →
      c.shared.compliance.rules = rules → c.shared.risk.limits = limits → Idempotent c request := by
  intro hall
  have hrun : ∃ c₁ ∈ Runs.exec configurable.step roomForOne [.start (.submit limitBuy)],
      ∃ c₂ ∈ configurable.step c₁ (.resume 0 .silent), ∃ c₃ ∈ configurable.step c₂ (.resume 0 .silent),
        ∃ c ∈ Runs.exec configurable.step c₃ toTheQueue,
          c₁.calls[0]? = some (.submit (.compliance limitBuy)) ∧ c₂.calls[0]? = some (.submit (.risk limitBuy)) ∧
          c₃.calls[0]? = some (.submit (.riskOpenOrders limitBuy c₂.shared.risk)) ∧
          c.calls[0]? = some (.submit (.done limitBuy .success)) ∧
          c.shared.compliance.rules = c₁.shared.compliance.rules ∧ c.shared.risk.limits = c₂.shared.risk.limits ∧
          c.shared.canResubmit limitBuy = false := by decide +kernel
  obtain ⟨c₁, h₁, c₂, h₂, c₃, h₃, c, h, hpc₁, hpc₂, hpc₃, hpc, hrules, hlimits, hfull⟩ := hrun
  have hsucceeded := succeeded_of_exec roomForOne_initial h₁ hpc₁ h₂ hpc₂ h₃ hpc₃ h hpc
  have hcan := (hall _ _ _ _ _ _ hsucceeded (by decide) hrules hlimits).canResubmit
  rw [hfull] at hcan
  cases hcan

end Qtrade.Trading
