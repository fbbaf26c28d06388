import Qtrade.Trading.Session

/-!
# The orders that calls create

`CreateOrder` either finds an order by its client id or stores a new one. The log tells which, so it
tells which call has created an order.
-/

namespace Qtrade.Trading

open Qtrade.Ems (WorkItem ExecutionManager)
open Qtrade.Oms
open Qtrade.Oms.OrderManager

/-- The ids under which `CreateOrder` stored a new order, with the number of the call. -/
def creations (log : List Event) : List (Nat × String) :=
  log.filterMap fun
    | .created call orderId order => if order.orderId = orderId then some (call, orderId) else none
    | _ => none

variable {s s' : Shared} {orderId : String}

theorem creations_eq_of_not_created {event : Event} (log : List Event)
    (h : ∀ call orderId order, event ≠ .created call orderId order) :
    creations (event :: log) = creations log := by
  rw [creations, List.filterMap_cons_none]
  · rfl
  · cases event <;> first | rfl | exact absurd rfl (h _ _ _)

@[simp]
theorem creations_release (s : Shared) (orderId : String) (reason : ReleaseReason) :
    creations (s.release orderId reason).log = creations s.log := by
  unfold Shared.release
  split
  · exact creations_eq_of_not_created s.log (by simp)
  · rfl

theorem SubmitStep.creates {call : Nat} {pc pc' : SubmitPc} (h : SubmitStep s call pc s' pc')
    (hfresh : ∀ request orderId, pc = .create request orderId → s.oms.orders.lookup orderId = none) :
    creations s'.log = creations s.log ∨
      ∃ request orderId, pc = .create request orderId ∧ s.oms.orders.lookup orderId = none ∧
        pc' = .lifecycle request (newEntry request orderId).order ∧
        creations s'.log = (call, orderId) :: creations s.log := by
  cases h with
  | born request orderId hid hnone =>
    exact Or.inr ⟨request, orderId, rfl, hnone, rfl, by simp [Shared.emit, creations, newEntry]⟩
  | existing request orderId e he =>
    have hne : e.order.orderId ≠ orderId := by
      rintro rfl
      rw [hfresh request _ rfl] at he
      cases he
    exact Or.inl (by simp [Shared.emit, creations, hne])
  | released => exact Or.inl (creations_release _ _ _)
  | budget | openOrders | known | unknown | allocated | pastQueue | prepared | queued | notQueued => exact Or.inl rfl
  | failureRecorded => exact Or.inl rfl
  | _ => exact Or.inl (creations_eq_of_not_created _ (by simp))

theorem CancelStep.log_eq {pc pc' : CancelPc} (h : CancelStep s pc s' pc') : s'.log = s.log := by
  cases h <;> rfl

theorem engineStep_creations {event : EngineEvent} (h : engineStep s event = some s') :
    creations s'.log = creations s.log := by
  cases event with
  | worker =>
    cases workerStep_step h with
    | sent => exact creations_eq_of_not_created _ (by simp)
    | released orderId => exact creations_release { s with worker := .idle } orderId .emsEnqueueFailed
    | _ => rfl
  | traderReturns rc => obtain ⟨worker, rfl, _⟩ := traderReturns_eq h; rfl
  | orderReport report => obtain ⟨_, _, rfl⟩ := orderReport_eq h; rfl
  | tradeReport report => obtain ⟨_, _, rfl⟩ := tradeReport_eq h; rfl
  | lane =>
    cases laneStep_step h with
    | released orderId reason => exact creations_release { s with lane := .idle } orderId reason
    | _ => rfl

theorem CallStep.creates {call : Nat} {pc pc' : CallPc} (h : CallStep s call pc s' pc')
    (hfresh : ∀ orderId, pc.createId? = some orderId → s.oms.orders.lookup orderId = none)
    {index : Nat} (hc : (index, orderId) ∈ creations s'.log) :
    (index, orderId) ∈ creations s.log ∨ index = call ∧ s.oms.orders.lookup orderId = none := by
  cases h with
  | cancel h => rw [h.log_eq] at hc; exact Or.inl hc
  | submit h =>
    rcases h.creates (fun request orderId hpc => hfresh orderId (by rw [hpc]; rfl)) with
      heq | ⟨_, _, _, hnone, _, heq⟩
    · rw [heq] at hc; exact Or.inl hc
    · rw [heq] at hc
      rcases List.mem_cons.mp hc with hc | hc
      · cases hc; exact Or.inr ⟨rfl, hnone⟩
      · exact Or.inl hc

/-- Only calls that have begun create orders. -/
def Numbered (c : System) : Prop :=
  ∀ call orderId, (call, orderId) ∈ creations c.shared.log → call < c.calls.length

theorem step_numbered {c c' : System} {a : Action} (h : Numbered c) (hv : sessionOutline.Valid c)
    (hfresh : fresh c a = true) (hstep : step c a = some c') : Numbered c' := by
  intro call orderId hc
  cases a with
  | start => cases hstep; simpa using Nat.lt_succ_of_lt (h call orderId hc)
  | resume index answer =>
    obtain ⟨pc, pc', hpc, hnext, hcalls⟩ := Calls.Program.step_resume hstep
    have hcall := callNext_step hv.1 (hv.2 index pc hpc) (lookup_of_fresh hfresh hpc) hnext
    rw [hcalls, List.length_set]
    rcases hcall.creates (lookup_of_fresh hfresh hpc) hc with hc | ⟨rfl, _⟩
    · exact h call orderId hc
    · exact (List.getElem?_eq_some_iff.mp hpc).1
  | environment event =>
    obtain ⟨hnext, hcalls⟩ := Calls.Program.step_environment hstep
    rw [hcalls]
    exact h call orderId (engineStep_creations hnext ▸ hc)

end Qtrade.Trading
