import Qtrade.Ems.Execution
import Qtrade.Lib.Waiting

/-!
# The worker's condition variable

`Enqueue`, `EnqueueCancel` and the first half of `Stop` write with the mutex and notify without it. The worker of `Run`
waits on `cv_`, here with each of the moments at which a notification finds it.
-/

namespace Qtrade.Ems

namespace Execution

open Waiting (State Action)

/-- `Stop` notifies after it has cleared `running_`. -/
def notifies (s : Execution) : ExecutionStep → Bool
  | .enqueue order => (s.ems.enqueue order).1 == .success
  | .enqueueCancel request => (s.ems.enqueueCancel request).1 == .success
  | .stop => s.ems.running
  | _ => false

/-- Joining the thread and what the worker does with an item need no mutex. -/
def locked : ExecutionStep → Bool
  | .join | .work => false
  | _ => true

def monitor : Waiting.Monitor Execution ExecutionStep where
  step := step
  take := .wake
  isTake := (· == .wake)
  atWait := fun s => s.worker == .waiting
  locked := locked
  notifies := notifies

variable {s s' : Execution}

theorem ready_iff (h : s.Inv) : monitor.ready s = true ↔
    s.worker = .waiting ∧ (s.ems.running = true → s.ems.pendingItems ≠ []) := by
  have hlabels := h.labels
  unfold Waiting.Monitor.ready monitor
  dsimp only [step]
  by_cases hworker : s.worker = .waiting
  · rw [if_pos hworker]
    unfold wake ExecutionManager.wakeup
    rw [← hlabels]
    cases s.waiting with
    | nil => cases s.ems.running <;> simp [hworker]
    | cons ticket rest => simp [hworker]
  · simp [hworker]

theorem atWait_kept {a : ExecutionStep} (hother : monitor.isTake a = false) (hs : s.step a = some s')
    (hwait : s.worker = .waiting) : s'.worker = .waiting := by
  cases a with
  | wake => cases hother
  | enqueue order =>
    cases hs
    split <;> exact hwait
  | enqueueCancel request =>
    cases hs
    split <;> exact hwait
  | setTraderApi set =>
    cases hs
    exact hwait
  | start =>
    rw [step] at hs
    obtain ⟨-, hs⟩ := Option.ite_none_right_eq_some.mp hs
    cases hs
    split
    · exact hwait
    · rfl
  | stop =>
    rw [step] at hs
    obtain ⟨-, hs⟩ := Option.ite_none_right_eq_some.mp hs
    cases hs
    split <;> exact hwait
  | join =>
    rw [step] at hs
    obtain ⟨⟨-, hreturned⟩, -⟩ := Option.ite_none_right_eq_some.mp hs
    rw [hwait] at hreturned
    cases hreturned
  | clear =>
    rw [step] at hs
    obtain ⟨-, hs⟩ := Option.ite_none_right_eq_some.mp hs
    cases hs
    exact hwait
  | work =>
    rw [step, hwait] at hs
    cases hs

theorem turned_ready (h : s.Inv) {a : ExecutionStep} (hother : monitor.isTake a = false) (hs : s.step a = some s')
    (hwait : s.worker = .waiting) (hbefore : monitor.ready s = false) (hafter : monitor.ready s' = true) :
    s.notifies a = true ∧ locked a = true := by
  rw [← Bool.not_eq_true, ready_iff h] at hbefore
  obtain ⟨hrunning, hempty⟩ : s.ems.running = true ∧ s.ems.pendingItems = [] := by simpa [hwait] using hbefore
  -- A step that changes neither makes nothing ready.
  have hsame : s'.ems.running = true → s'.ems.pendingItems = [] → s.notifies a = true ∧ locked a = true :=
    fun hrunning' hempty' => absurd hempty' (((ready_iff (step_inv h hs)).mp hafter).2 hrunning')
  cases a with
  | wake => cases hother
  | enqueue order =>
    by_cases hadmits : s.ems.admits = .success
    · simp [notifies, ExecutionManager.enqueue, hadmits, locked]
    · cases hs
      simp only [ExecutionManager.enqueue, hadmits, if_false] at hsame
      exact hsame hrunning hempty
  | enqueueCancel request =>
    by_cases hadmits : s.ems.admits = .success
    · simp [notifies, ExecutionManager.enqueueCancel, hadmits, locked]
    · cases hs
      simp only [ExecutionManager.enqueueCancel, hadmits, if_false] at hsame
      exact hsame hrunning hempty
  | setTraderApi set =>
    cases hs
    exact hsame hrunning hempty
  | start =>
    rw [step, hrunning] at hs
    obtain ⟨-, hs⟩ := Option.ite_none_right_eq_some.mp hs
    cases hs
    exact hsame hrunning hempty
  | stop => exact ⟨hrunning, rfl⟩
  | join =>
    rw [step, hwait] at hs
    obtain ⟨⟨-, hreturned⟩, -⟩ := Option.ite_none_right_eq_some.mp hs
    cases hreturned
  | clear =>
    rw [step] at hs
    obtain ⟨-, hs⟩ := Option.ite_none_right_eq_some.mp hs
    cases hs
    exact hsame hrunning rfl
  | work =>
    rw [step, hwait] at hs
    cases hs

theorem monitor_notified : monitor.Notified Inv where
  kept := fun h hs => step_inv h hs
  stays := fun _ hother hs hwait => beq_iff_eq.mpr (atWait_kept hother hs (beq_iff_eq.mp hwait))
  tells := fun h hother hs hwait hbefore hafter =>
    (turned_ready h hother hs (beq_iff_eq.mp hwait) hbefore hafter).1

theorem monitor_locked : monitor.Locked Inv := fun h hother hs hwait hbefore hafter =>
  (turned_ready h hother hs (beq_iff_eq.mp hwait) hbefore hafter).2

/-! ## The end of `Stop` -/

/-- The worker and those who notify it take these. -/
def isInternal : Action ExecutionStep → Bool
  | .other a => a == .work
  | _ => true

def stage (s : State Execution) : Nat :=
  match s.system.worker with
  | .absent | .returned => 0
  | .working _ => 4
  | .waiting =>
    match s.pc with
    | .looking => 1
    | .awake => 2
    | .asleep | .committed => 3

/-- No more than so many of their steps are left. -/
def remaining (s : State Execution) : Nat := 5 * s.system.ems.pendingItems.length + stage s + s.owed

variable {t t' : State Execution}

theorem ready_joining (h : t.system.Inv) (hjoining : t.system.control = .joining) (hwait : t.system.worker = .waiting) :
    monitor.ready t.system = true := by
  have hplaced := h.placed
  simp only [Placed, hjoining] at hplaced
  exact (ready_iff h).mpr ⟨hwait, fun hrunning => by simp [hplaced.1] at hrunning⟩

/-- What stays true until the worker has returned. -/
structure Draining (t : State Execution) : Prop where
  undisturbed : monitor.Undisturbed Inv t
  joining : t.system.control = .joining

theorem Draining.awake (h : Draining t) (hworker : t.system.worker ≠ .waiting) : t.pc = .awake := by
  by_contra hne
  exact hworker (beq_iff_eq.mp (h.undisturbed.atWait hne))

theorem Draining.not_committed (h : Draining t) : t.pc ≠ .committed := by
  intro hcommitted
  have hwait := beq_iff_eq.mp (h.undisturbed.atWait (by simp [hcommitted]))
  have hready := ready_joining h.undisturbed.inv h.joining hwait
  rw [h.undisturbed.nothing hcommitted] at hready
  cases hready

theorem remaining_same (hitems : t'.system.ems.pendingItems = t.system.ems.pendingItems)
    (hworker : t'.system.worker = t.system.worker) (hpc : t'.pc = t.pc) (howed : t'.owed = t.owed) :
    remaining t' = remaining t := by
  unfold remaining stage
  rw [hitems, hworker, hpc, howed]

theorem Draining.other (h : Draining t) {a : ExecutionStep} (hs : monitor.next t (.other a) = some t') :
    t'.system.control = .clearing ∨
      (t'.system.control = .joining ∧ remaining t' ≤ remaining t ∧ (a = .work → remaining t' < remaining t)) := by
  obtain ⟨hother, -, hstep, hpc, howed⟩ := Waiting.Monitor.next_other hs
  have hplaced := h.undisturbed.inv.placed
  have hjoining := h.joining
  simp only [Placed, hjoining] at hplaced
  have hrefused : t.system.ems.admits = .notInitialized := by simp [ExecutionManager.admits, hplaced.1]
  have hquiet : ∀ {a}, t.system.notifies a = false → t'.owed = t.owed + (if t.system.notifies a then 1 else 0) →
      t'.owed = t.owed := by
    intro a hno howed
    rw [howed, hno]
    rfl
  have hstep : t.system.step a = some t'.system := hstep
  have howed : t'.owed = t.owed + if t.system.notifies a then 1 else 0 := howed
  cases a with
  | wake => cases hother
  | enqueue order =>
    have hsame : t'.system = t.system := by
      simpa [Execution.step, ExecutionManager.enqueue, hrefused] using hstep.symm
    have howed := hquiet (by simp [notifies, ExecutionManager.enqueue, hrefused]) howed
    have hle := (remaining_same (by rw [hsame]) (by rw [hsame]) hpc howed).le
    exact Or.inr ⟨hsame ▸ hjoining, hle, ExecutionStep.noConfusion⟩
  | enqueueCancel request =>
    have hsame : t'.system = t.system := by
      simpa [Execution.step, ExecutionManager.enqueueCancel, hrefused] using hstep.symm
    have howed := hquiet (by simp [notifies, ExecutionManager.enqueueCancel, hrefused]) howed
    have hle := (remaining_same (by rw [hsame]) (by rw [hsame]) hpc howed).le
    exact Or.inr ⟨hsame ▸ hjoining, hle, ExecutionStep.noConfusion⟩
  | setTraderApi set =>
    have hsame := Option.some.inj hstep
    have howed := hquiet rfl howed
    have hle := (remaining_same (by rw [← hsame]) (by rw [← hsame]) hpc howed).le
    exact Or.inr ⟨hsame ▸ hjoining, hle, ExecutionStep.noConfusion⟩
  | start => simp [Execution.step, hjoining] at hstep
  | stop => simp [Execution.step, hjoining] at hstep
  | clear => simp [Execution.step, hjoining] at hstep
  | join =>
    rw [Execution.step] at hstep
    obtain ⟨-, hstep⟩ := Option.ite_none_right_eq_some.mp hstep
    exact Or.inl (by rw [← Option.some.inj hstep])
  | work =>
    cases hworker : t.system.worker with
    | working item =>
      have hawake := h.awake (by simp [hworker])
      simp only [Execution.step, hworker, Option.some.injEq] at hstep
      have howed := hquiet rfl howed
      have hless : remaining t' < remaining t := by
        unfold remaining stage
        rw [howed, hpc, hawake, ← hstep, hworker]
        simp
      exact Or.inr ⟨hstep ▸ hjoining, hless.le, fun _ => hless⟩
    | _ => simp [Execution.step, hworker] at hstep

theorem Draining.step (h : Draining t) {a : Action ExecutionStep} (hs : monitor.next t a = some t') :
    t'.system.control = .clearing ∨
      (t'.system.control = .joining ∧ remaining t' ≤ remaining t ∧
        (isInternal a = true → remaining t' < remaining t)) := by
  have hjoining := h.joining
  have hwaiting : t.pc ≠ .awake → t.system.worker = .waiting := fun hne => beq_iff_eq.mp (h.undisturbed.atWait hne)
  have hcounts : t'.system.control = .joining ∧ remaining t' < remaining t →
      t'.system.control = .clearing ∨
        (t'.system.control = .joining ∧ remaining t' ≤ remaining t ∧
          (isInternal a = true → remaining t' < remaining t)) :=
    fun hless => Or.inr ⟨hless.1, hless.2.le, fun _ => hless.2⟩
  cases a with
  | look =>
    obtain ⟨⟨hawake, hwait⟩, hs⟩ := Option.ite_none_right_eq_some.mp hs
    cases hs
    refine hcounts ⟨hjoining, ?_⟩
    have hworker : t.system.worker = .waiting := beq_iff_eq.mp hwait
    simp [remaining, stage, hworker, hawake]
  | take =>
    obtain ⟨hlooking, hs⟩ := Option.ite_none_right_eq_some.mp hs
    obtain ⟨system, hstep, rfl⟩ := Option.map_eq_some_iff.mp hs
    have hworker := hwaiting (by simp [hlooking])
    have hwake : t.system.wake = some system := by simpa [monitor, Execution.step, hworker] using hstep
    rcases wake_cases h.undisturbed.inv hwake with ⟨-, -, rfl⟩ | ⟨ticket, rest, htickets, rfl⟩
    · refine hcounts ⟨hjoining, ?_⟩
      simp [remaining, stage, hworker, hlooking]
    · refine hcounts ⟨hjoining, ?_⟩
      have hlength : t.system.ems.pendingItems.length = rest.length + 1 := by
        rw [← h.undisturbed.inv.labels, htickets]
        simp
      simp only [remaining, stage, hworker, hlooking, hlength, List.length_map]
      omega
  | commit =>
    obtain ⟨⟨hlooking, hnothing⟩, -⟩ := Option.ite_none_right_eq_some.mp hs
    rw [ready_joining h.undisturbed.inv hjoining (hwaiting (by simp [hlooking]))] at hnothing
    cases hnothing
  | sleep =>
    obtain ⟨hcommitted, -⟩ := Option.ite_none_right_eq_some.mp hs
    exact absurd hcommitted h.not_committed
  | notify =>
    obtain ⟨howed, hs⟩ := Option.ite_none_right_eq_some.mp hs
    cases hs
    refine hcounts ⟨hjoining, ?_⟩
    unfold remaining stage
    dsimp only
    split
    · omega
    · omega
    · omega
    · cases t.pc <;> simp <;> omega
  | spurious =>
    obtain ⟨hasleep, hs⟩ := Option.ite_none_right_eq_some.mp hs
    cases hs
    refine hcounts ⟨hjoining, ?_⟩
    simp [remaining, stage, hwaiting, hasleep]
  | other a =>
    rcases h.other hs with hclearing | ⟨hcontrol, hle, hwork⟩
    · exact Or.inl hclearing
    · exact Or.inr ⟨hcontrol, hle, fun hinternal => hwork (beq_iff_eq.mp hinternal)⟩

theorem Draining.goes_on (h : Draining t) (hwatched : monitor.Watched Inv t) :
    ∃ a, (isInternal a = true ∨ a = .other .join) ∧ (monitor.next t a).isSome = true := by
  have hjoining := h.joining
  have hplaced := h.undisturbed.inv.placed
  simp only [Placed, hjoining] at hplaced
  cases hworker : t.system.worker with
  | absent => exact absurd hworker hplaced.2.1
  | returned =>
    refine ⟨.other .join, Or.inr rfl, ?_⟩
    simp [Waiting.Monitor.next, monitor, locked, Execution.step, hjoining, hworker]
  | working item =>
    refine ⟨.other .work, Or.inl rfl, ?_⟩
    simp [Waiting.Monitor.next, monitor, locked, Execution.step, hworker]
  | waiting =>
    have hready := ready_joining h.undisturbed.inv hjoining hworker
    cases hpc : t.pc with
    | awake => exact ⟨.look, Or.inl rfl, by simp [Waiting.Monitor.next, monitor, hpc, hworker]⟩
    | looking =>
      refine ⟨.take, Or.inl rfl, ?_⟩
      simpa [Waiting.Monitor.next, hpc, Waiting.Monitor.ready] using hready
    | committed => exact absurd hpc h.not_committed
    | asleep =>
      have howed := hwatched.owed (Or.inr hpc) hready
      exact ⟨.notify, Or.inl rfl, by simp [Waiting.Monitor.next, howed]⟩

/-- The worker does not sleep through anything: where it sleeps and there is an item or the end of the run, a
notification is still to come. So `Stop` returns after the steps that remain to the worker. -/
theorem worker_woken (h : Runs.Reaches monitor.next Runs.anyStep { system := {} } t) :
    Runs.Reaches step Runs.anyStep {} t.system ∧
      (t.pc = .asleep → monitor.ready t.system = true → 0 < t.owed) ∧
      (t.system.control = .joining →
        (∃ a, (isInternal a = true ∨ a = .other .join) ∧ (monitor.next t a).isSome = true) ∧
          ∀ a t', monitor.next t a = some t' → t'.system.control = .clearing ∨
            (t'.system.control = .joining ∧ remaining t' ≤ remaining t ∧
              (isInternal a = true → remaining t' < remaining t))) := by
  have hheard := Waiting.Monitor.heard_of_locked monitor_notified monitor_locked inv_initial rfl h
  have hwatched := Waiting.Monitor.watched_reaches monitor_notified inv_initial rfl hheard
  refine ⟨Waiting.Monitor.reaches_system h, fun hasleep hready => hwatched.owed (Or.inr hasleep) hready,
    fun hjoining => ?_⟩
  have hdraining : Draining t :=
    ⟨Waiting.Monitor.undisturbed_reaches monitor_notified monitor_locked inv_initial rfl h, hjoining⟩
  exact ⟨hdraining.goes_on hwatched, fun a t' hs => hdraining.step hs⟩

/-- An order comes while the worker sleeps, and `Stop` right after it. -/
theorem worker_woken_asleep : ∃ t : State Execution, Runs.Reaches monitor.next Runs.anyStep { system := {} } t ∧
    t.pc = .asleep ∧ t.system.ems.pendingItems ≠ [] ∧ 0 < t.owed ∧
    ∃ a, (isInternal a = true ∨ a = .other .join) ∧ (monitor.next t a).isSome = true := by
  have hrun : ∃ t ∈ Runs.exec monitor.next { system := {} } [.other (.setTraderApi true), .other .start, .look, .commit,
      .sleep, .other (.enqueue {}), .other .stop],
      t.pc = .asleep ∧ monitor.ready t.system = true ∧ t.system.ems.pendingItems ≠ [] ∧
        t.system.control = .joining := by decide +kernel
  obtain ⟨t, ht, hasleep, hready, hitems, hjoining⟩ := hrun
  have hreach := Runs.reaches_of_exec _ ht
  obtain ⟨-, howed, hstop⟩ := worker_woken hreach
  exact ⟨t, hreach, hasleep, hitems, howed hasleep hready, (hstop hjoining).1⟩

end Execution

end Qtrade.Ems
