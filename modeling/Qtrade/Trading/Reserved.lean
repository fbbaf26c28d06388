import Qtrade.Trading.Effects

/-!
# What becomes of a reservation

A `Submit` reserves under the id that it has allocated, and `CreateOrder` may answer with the order of
another call that has the same client id. Until then the reservation is the call's own to use or
to release.
-/

namespace Qtrade.Oms.OrderManager

theorem createOrder_unknown {s : OrderManager} {request : OrderRequest}
    (hc : request.clientOrderId = 0 ∨ s.clientOrderIndex.lookup request.clientOrderId = none) (orderId : String) :
    s.createOrder request orderId = (.ok none, s) ∨
      ∃ order, (s.createOrder request orderId).1 = .ok (some order) ∧
        orderId ∈ (s.createOrder request orderId).2.orders := by
  have hnone : (if request.clientOrderId ≠ 0 then s.clientOrderIndex.lookup request.clientOrderId else none) =
      none := by
    rcases hc with hc | hc <;> simp [hc]
  unfold createOrder
  rw [hnone]
  split
  · exact Or.inl rfl
  · refine Or.inr ⟨_, rfl, ?_⟩
    dsimp only
    rw [orders_index, store, Finmap.mem_insert]
    exact Or.inl rfl

end Qtrade.Oms.OrderManager

namespace Qtrade.Trading

open Qtrade.Oms
open Qtrade.Oms.OrderManager

variable {s s' : Shared}

/-! ## The reservation of one call -/

/-- The bridge tells the call that its reservation stands. -/
inductive Receives (c : System) (index : Nat) (orderId : String) : Shared.Answer → Prop
  | approved (request : OrderRequest) (answer : Result ReserveOrderResult)
      (hpc : c.calls[index]? = some (.submit (.reserve request orderId)))
      (h : Shared.reserveApproved answer = true) : Receives c index orderId (.reserved answer)
  | reserved (request : OrderRequest) (answer : Result Reservation)
      (hpc : c.calls[index]? = some (.submit (.query request orderId)))
      (h : Shared.queryReserved answer = true) : Receives c index orderId (.queried answer)

/-- An order has been stored under the id, or `ReleaseOrder` has been called for it. -/
def Settled (s : Shared) (orderId : String) : Prop :=
  orderId ∈ s.oms.orders ∨ ∃ reason lifecycle, .released orderId reason lifecycle ∈ s.log

/-- The call still has the reservation in its hands. -/
def CallPc.keeps (pc : CallPc) (orderId : String) : Prop :=
  (∃ request, pc = .submit (.create request orderId)) ∨ ∃ request rc, pc = .submit (.release request orderId rc)

/-- A `Submit` with a bridge calls `CreateOrder` with a client id that is not known, or for an id that
is a key already. -/
def usesReserved (c : System) : Action → Bool
  | .resume index _ =>
    match c.calls[index]? with
    | some (.submit (.create request orderId)) =>
      !c.shared.bridge || request.clientOrderId == 0 ||
        (c.shared.oms.clientOrderIndex.lookup request.clientOrderId).isNone || orderId ∈ c.shared.oms.orders
    | _ => true
  | _ => true

variable {c c' : System} {index : Nat} {orderId : String}

theorem Settled.step {a : Action} (h : Settled c.shared orderId) (hs : step c a = some c') :
    Settled c'.shared orderId := by
  rcases h with hmem | ⟨reason, lifecycle, hlog⟩
  · exact Or.inl ((step_extends hs).keys orderId hmem)
  · exact Or.inr ⟨reason, lifecycle, (step_log hs).1.subset hlog⟩

theorem settled_release (hbridge : s.bridge = true) (hid : orderId ≠ "") (reason : ReleaseReason) :
    Settled (s.release orderId reason) orderId := by
  right
  refine ⟨reason, s.oms.getLifecycleState orderId, ?_⟩
  simp [Shared.release, Shared.emit, hbridge, hid]

theorem submitNext_keeps {call : Nat} {pc pc' : SubmitPc} {answer : Shared.Answer} (hbridge : s.bridge = true)
    (hid : orderId ≠ "") (hpc : (CallPc.submit pc).keeps orderId)
    (hok : ∀ request, pc = .create request orderId → request.clientOrderId = 0 ∨
      s.oms.clientOrderIndex.lookup request.clientOrderId = none)
    (h : s.submitNext call pc answer = some (s', pc')) :
    Settled s' orderId ∨ (CallPc.submit pc').keeps orderId := by
  rcases hpc with ⟨request, hpc⟩ | ⟨request, rc, hpc⟩
  · obtain rfl := CallPc.submit.inj hpc
    induction answer with
    | silent =>
      simp only [Shared.submitNext] at h
      rcases createOrder_unknown (hok request rfl) orderId with hrefused | ⟨order, hanswer, hstored⟩
      · rw [hrefused] at h
        cases h
        exact Or.inr (Or.inr ⟨request, _, rfl⟩)
      · generalize s.oms.createOrder request orderId = result at h hanswer hstored
        obtain ⟨answer, oms⟩ := result
        obtain rfl : answer = .ok (some order) := hanswer
        cases h
        exact Or.inl (Or.inl hstored)
    | _ => cases h
  · obtain rfl := CallPc.submit.inj hpc
    induction answer with
    | silent =>
      cases h
      exact Or.inl (settled_release hbridge hid _)
    | _ => cases h

/-- Where the reservation is, from the moment on at which the call received it. -/
structure Held (c : System) (index : Nat) (orderId : String) : Prop where
  bridge : c.shared.bridge = true
  id : orderId ≠ ""
  place : Settled c.shared orderId ∨ ∃ pc, c.calls[index]? = some pc ∧ pc.keeps orderId

theorem Held.step {a : Action} (h : Held c index orderId) (hok : usesReserved c a = true)
    (hs : step c a = some c') : Held c' index orderId := by
  refine ⟨(step_log hs).2.trans h.bridge, h.id, ?_⟩
  rcases h.place with hsettled | ⟨pc, hpc, hkeeps⟩
  · exact Or.inl (hsettled.step hs)
  by_cases hmem : orderId ∈ c.shared.oms.orders
  · exact Or.inl (Or.inl ((step_extends hs).keys orderId hmem))
  induction a with
  | start call =>
    cases hs
    refine Or.inr ⟨pc, ?_, hkeeps⟩
    rw [List.getElem?_append_left (List.getElem?_eq_some_iff.mp hpc).1]
    exact hpc
  | resume other answer =>
    obtain ⟨p, p', hp, hnext, hcalls⟩ := Calls.Program.step_resume hs
    by_cases hother : other = index
    · subst hother
      obtain rfl := Option.some.inj (hp.symm.trans hpc)
      have hin := (List.getElem?_eq_some_iff.mp hp).1
      have hplace : c'.calls[other]? = some p' := by rw [hcalls, List.getElem?_set_self hin]
      obtain ⟨pc, rfl⟩ : ∃ pc, p = .submit pc := by
        rcases hkeeps with ⟨request, rfl⟩ | ⟨request, rc, rfl⟩ <;> exact ⟨_, rfl⟩
      obtain ⟨pc', rfl, hsubmit⟩ := callNext_submit hnext
      have hcreate : ∀ request, pc = .create request orderId → request.clientOrderId = 0 ∨
          c.shared.oms.clientOrderIndex.lookup request.clientOrderId = none := by
        rintro request rfl
        simpa [usesReserved, hp, h.bridge, hmem] using hok
      rcases submitNext_keeps h.bridge h.id hkeeps hcreate hsubmit with hdone | hstill
      · exact Or.inl hdone
      · exact Or.inr ⟨_, hplace, hstill⟩
    · refine Or.inr ⟨pc, ?_, hkeeps⟩
      rw [hcalls, List.getElem?_set_ne hother]
      exact hpc
  | environment event =>
    obtain ⟨_, hcalls⟩ := Calls.Program.step_environment hs
    rw [hcalls]
    exact Or.inr ⟨pc, hpc, hkeeps⟩

/-! ## Allocated ids -/

/-- An id that a call has allocated is not empty. -/
def NonemptyIds (c : System) : Prop :=
  ∀ pc ∈ c.calls, ∀ orderId, pc.allocatedId? = some orderId → orderId ≠ ""

theorem submitNext_allocatedId {call : Nat} {pc pc' : SubmitPc} {answer : Shared.Answer}
    (h : s.submitNext call pc answer = some (s', pc')) (hid : (CallPc.submit pc').allocatedId? = some orderId) :
    (CallPc.submit pc).allocatedId? = some orderId ∨ orderId = s.oms.nextOrderId := by
  unfold Shared.submitNext at h
  split at h
  case h_6 request =>
    -- `AllocateOrderId`
    simp only [Option.some.injEq, Prod.mk.injEq] at h
    obtain ⟨_, rfl⟩ := h
    right
    by_cases hbridge : s.bridge = true <;>
      simpa [hbridge, CallPc.allocatedId?, OrderManager.allocateOrderId, eq_comm] using hid
  case h_15 => cases h
  all_goals try dsimp only at h
  all_goals try split at h
  all_goals
    simp only [Option.some.injEq, Prod.mk.injEq] at h
    obtain ⟨_, rfl⟩ := h
    left
  all_goals
    try split at hid
  all_goals try split at hid
  all_goals first
    | exact hid
    | cases hid

theorem nonemptyIds_step {a : Action} (h : NonemptyIds c) (hs : step c a = some c') : NonemptyIds c' := by
  induction a with
  | start call =>
    cases hs
    intro pc hmem orderId hid
    rcases List.mem_append.mp hmem with hold | hnew
    · exact h pc hold orderId hid
    · rw [List.mem_singleton.mp hnew] at hid
      cases call <;> cases hid
  | resume index answer =>
    obtain ⟨p, p', hp, hnext, hcalls⟩ := Calls.Program.step_resume hs
    intro pc hmem orderId hid
    rw [hcalls] at hmem
    rcases List.mem_or_eq_of_mem_set hmem with hold | rfl
    · exact h pc hold orderId hid
    · induction p with
      | submit p =>
        obtain ⟨pc', rfl, hsubmit⟩ := callNext_submit hnext
        rcases submitNext_allocatedId hsubmit hid with hold | rfl
        · exact h _ (List.mem_of_getElem? hp) orderId hold
        · exact nextOrderId_ne_empty _
      | cancel p =>
        obtain ⟨p₁, rfl⟩ : ∃ p₁, pc = .cancel p₁ := by
          simp only [program, callNext] at hnext
          split at hnext
          · obtain ⟨r, _, heq⟩ := Option.map_eq_some_iff.mp hnext
            exact ⟨r.2, (Prod.mk.inj heq).2.symm⟩
          · cases hnext
        cases hid
  | environment event =>
    obtain ⟨_, hcalls⟩ := Calls.Program.step_environment hs
    intro pc hmem
    rw [hcalls] at hmem
    exact h pc hmem

/-! ## No reservation is orphaned -/

theorem Receives.held {answer : Shared.Answer} (hids : NonemptyIds c) (hbridge : c.shared.bridge = true)
    (h : Receives c index orderId answer) (hs : step c (.resume index answer) = some c') :
    Held c' index orderId := by
  obtain ⟨p, p', hp, hnext, hcalls⟩ := Calls.Program.step_resume hs
  have hnext : callNext c.shared index p answer = some (c'.shared, p') := hnext
  have hplace : c'.calls[index]? = some p' := by
    rw [hcalls, List.getElem?_set_self (List.getElem?_eq_some_iff.mp hp).1]
  induction h with
  | approved request answer hpc happroved =>
    obtain rfl := Option.some.inj (hp.symm.trans hpc)
    refine ⟨(step_log hs).2.trans hbridge, hids _ (List.mem_of_getElem? hp) orderId rfl, ?_⟩
    have hunknown : Shared.reserveUnknown answer = false := by
      simp only [Shared.reserveApproved, Bool.and_eq_true, beq_iff_eq] at happroved
      obtain ⟨hcode, hdata⟩ := happroved
      obtain ⟨code, data⟩ := answer
      obtain rfl : code = .success := hcode
      cases data with
      | none => cases hdata
      | some result =>
        have hdecision : result.decision = .approved := by simpa using hdata
        simp [Shared.reserveUnknown, hdecision]
    obtain ⟨pc', rfl, hsubmit⟩ := callNext_submit hnext
    simp only [Shared.submitNext, hunknown, happroved, if_true, Bool.false_eq_true, if_false,
      Option.some.injEq, Prod.mk.injEq] at hsubmit
    obtain ⟨_, rfl⟩ := hsubmit
    exact Or.inr ⟨_, hplace, Or.inl ⟨request, rfl⟩⟩
  | reserved request answer hpc hreserved =>
    obtain rfl := Option.some.inj (hp.symm.trans hpc)
    refine ⟨(step_log hs).2.trans hbridge, hids _ (List.mem_of_getElem? hp) orderId rfl, ?_⟩
    obtain ⟨pc', rfl, hsubmit⟩ := callNext_submit hnext
    simp only [Shared.submitNext, hreserved, if_true, Option.some.injEq, Prod.mk.injEq] at hsubmit
    obtain ⟨_, rfl⟩ := hsubmit
    exact Or.inr ⟨_, hplace, Or.inl ⟨request, rfl⟩⟩

/-- In every run of an engine with a bridge in which `CreateOrder` never meets a client id that another
call has brought in meanwhile, a call that returns leaves no reservation behind: the order is in the
table, or the reservation has been released. -/
theorem reserved_settled {c₀ c₁ c₂ : System} {answer : Shared.Answer} (hcalls : c₀.calls = [])
    (hbridge : c₀.shared.bridge = true) (hbefore : Runs.Reaches step (fun c a => usesReserved c a = true) c₀ c₁)
    (hreceives : Receives c₁ index orderId answer) (hanswer : step c₁ (.resume index answer) = some c₂)
    (hafter : Runs.Reaches step (fun c a => usesReserved c a = true) c₂ c) {request : OrderRequest}
    {rc : ErrorCode} (hreturns : c.calls[index]? = some (.submit (.done request rc))) :
    orderId ∈ c.shared.oms.orders ∨ ∃ reason lifecycle, .released orderId reason lifecycle ∈ c.shared.log := by
  have hstart : NonemptyIds c₁ ∧ c₁.shared.bridge = true := by
    apply hbefore.invariant
    · refine ⟨?_, hbridge⟩
      intro pc hmem
      rw [hcalls] at hmem
      cases hmem
    · rintro c a c' ⟨hids, hb⟩ _ hs
      exact ⟨nonemptyIds_step hids hs, (step_log hs).2.trans hb⟩
  have hheld : Held c index orderId := by
    apply hafter.invariant
    · exact hreceives.held hstart.1 hstart.2 hanswer
    · intro c a c' hheld hok hs
      exact hheld.step hok hs
  rcases hheld.place with hsettled | ⟨pc, hpc, hkeeps⟩
  · exact hsettled
  · rw [hreturns] at hpc
    cases hpc
    rcases hkeeps with ⟨_, h⟩ | ⟨_, _, h⟩ <;> cases h

/-- The state of a second `Submit` with the same client id that waits for the bridge. -/
def twoBuys : List Action :=
  [.start (.submit limitBuy), .start (.submit limitBuy)] ++ checks 0 ++ checks 1 ++ [approve 0]

/-- A `Submit` that runs alone. -/
theorem reserved_settled_alone : ∃ c : System, ∃ request rc,
    c.calls[0]? = some (.submit (.done request rc)) ∧
      ("t-e-1-1" ∈ c.shared.oms.orders ∨
        ∃ reason lifecycle, .released "t-e-1-1" reason lifecycle ∈ c.shared.log) := by
  have hrun : ∃ c₁ ∈ Runs.execWhile step (fun c a => usesReserved c a = true) opening
        (.start (.submit limitBuy) :: checks 0),
      ∃ c₂ ∈ step c₁ (approve 0),
        ∃ c ∈ Runs.execWhile step (fun c a => usesReserved c a = true) c₂ (List.replicate 4 (.resume 0 .silent)),
          c₁.calls[0]? = some (.submit (.reserve limitBuy "t-e-1-1")) ∧
            c.calls[0]? = some (.submit (.done limitBuy .success)) := by decide +kernel
  obtain ⟨c₁, h₁, c₂, h₂, c, h, hpc, hreturns⟩ := hrun
  refine ⟨c, limitBuy, .success, hreturns, ?_⟩
  exact reserved_settled rfl rfl (Runs.reaches_of_execWhile _ h₁) (.approved limitBuy _ hpc (by decide)) h₂
    (Runs.reaches_of_execWhile _ h) hreturns

def Event.isReleased : Event → Bool
  | .released _ _ _ => true
  | _ => false

/-- The second `Submit` gets the order of the first, and its own reservation stays. -/
theorem reserved_orphaned : ¬ ∀ (c₀ c₁ c₂ c : System) (index : Nat) (orderId : String) (answer : Shared.Answer)
    (request : OrderRequest) (rc : ErrorCode), c₀.calls = [] → c₀.shared.bridge = true →
    Runs.Reaches step Runs.anyStep c₀ c₁ → Receives c₁ index orderId answer →
    step c₁ (.resume index answer) = some c₂ → Runs.Reaches step Runs.anyStep c₂ c →
    c.calls[index]? = some (.submit (.done request rc)) →
    orderId ∈ c.shared.oms.orders ∨ ∃ reason lifecycle, .released orderId reason lifecycle ∈ c.shared.log := by
  intro hall
  have hrun : ∃ c₁ ∈ Runs.exec step opening twoBuys, ∃ c₂ ∈ step c₁ (approve 1),
      ∃ c ∈ Runs.exec step c₂ (.resume 0 .silent :: List.replicate 4 (.resume 1 .silent)),
        c₁.calls[1]? = some (.submit (.reserve limitBuy "t-e-1-2")) ∧
          c.calls[1]? = some (.submit (.done limitBuy .success)) ∧ "t-e-1-2" ∉ c.shared.oms.orders ∧
            c.shared.log.any Event.isReleased = false := by decide +kernel
  obtain ⟨c₁, h₁, c₂, h₂, c, h, hpc, hreturns, hnot, hlog⟩ := hrun
  rcases hall opening c₁ c₂ c 1 "t-e-1-2" _ limitBuy .success rfl rfl (Runs.reaches_of_exec _ h₁)
    (.approved limitBuy _ hpc (by decide)) h₂ (Runs.reaches_of_exec _ h) hreturns with hmem | ⟨_, _, hmem⟩
  · exact hnot hmem
  · exact List.any_eq_false.mp hlog _ hmem rfl

end Qtrade.Trading
