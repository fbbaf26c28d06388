import Qtrade.EventBus
import Qtrade.Lib.Waiting

/-!
# The reactor's condition variable

`Publish` writes with the mutex and notifies after it. `Stop` clears `running_` without the mutex, so it can come
between the reactor thread's look and its sleep.
-/

namespace Qtrade.EventBus

namespace LaneLife

open Engine (LanePolicy)
open Waiting (State Action)

variable {Event : Type}

/-- `Stop` notifies once it has refused the producers. -/
def notifies (s : LaneLife Event) : LaneLifeAction Event → Bool
  | .publish event => (s.loop.publish event).1
  | .stop => s.loop.running
  | _ => false

def locked : LaneLifeAction Event → Bool
  | .setLanePolicy _ | .publish _ | .runOnce | .join => true
  | .start | .accept | .spawn | .stop | .refuse => false

def monitor (Event : Type) : Waiting.Monitor (LaneLife Event) (LaneLifeAction Event) where
  step := step
  take := .runOnce
  isTake := fun a => match a with
    | .runOnce => true
    | _ => false
  atWait := (·.thread)
  locked := locked
  notifies := notifies

variable {s s' : LaneLife Event} {t t' : State (LaneLife Event)}

theorem ready_iff (s : LaneLife Event) : (monitor Event).ready s = true ↔
    s.thread = true ∧ (s.loop.running = true → s.loop.queue ≠ []) := by
  unfold Waiting.Monitor.ready monitor
  dsimp only [step]
  cases s.thread <;> cases hrunning : s.loop.running <;> cases hqueue : s.loop.queue <;>
    simp [EventReactorLoop.runOnce, hrunning, hqueue]

theorem thread_kept {a : LaneLifeAction Event} (hother : (monitor Event).isTake a = false) (hs : s.step a = some s')
    (hthread : s.thread = true) : s'.thread = true := by
  cases a with
  | runOnce => cases hother
  | setLanePolicy policy =>
    cases hs
    exact hthread
  | publish event =>
    cases hs
    unfold published
    dsimp only
    split <;> exact hthread
  | start =>
    simp only [step] at hs
    split_ifs at hs <;> cases hs <;> exact hthread
  | accept =>
    obtain ⟨-, hs⟩ := Option.ite_none_right_eq_some.mp hs
    cases hs
    exact hthread
  | spawn =>
    obtain ⟨-, hs⟩ := Option.ite_none_right_eq_some.mp hs
    cases hs
    rfl
  | stop =>
    simp only [step] at hs
    split_ifs at hs <;> cases hs <;> exact hthread
  | refuse =>
    obtain ⟨-, hs⟩ := Option.ite_none_right_eq_some.mp hs
    cases hs
    exact hthread
  | join =>
    obtain ⟨⟨-, hgone⟩, -⟩ := Option.ite_none_right_eq_some.mp hs
    rw [hthread] at hgone
    cases hgone

theorem turned_ready {a : LaneLifeAction Event} (hother : (monitor Event).isTake a = false)
    (hs : s.step a = some s') (hthread : s.thread = true) (hbefore : (monitor Event).ready s = false)
    (hafter : (monitor Event).ready s' = true) : s.notifies a = true ∧ (locked a = true ∨ a = .stop) := by
  rw [← Bool.not_eq_true, ready_iff] at hbefore
  obtain ⟨hrunning, hempty⟩ : s.loop.running = true ∧ s.loop.queue = [] := by simpa [hthread] using hbefore
  have hsame : s'.loop.running = true → s'.loop.queue = [] → s.notifies a = true ∧ (locked a = true ∨ a = .stop) :=
    fun hrunning' hempty' => absurd hempty' (((ready_iff s').mp hafter).2 hrunning')
  cases a with
  | runOnce => cases hother
  | setLanePolicy policy =>
    have hunchanged : (s.loop.setLanePolicy policy).2 = s.loop := by simp [EventReactorLoop.setLanePolicy, hrunning]
    cases hs
    rw [hunchanged] at hsame
    exact hsame hrunning hempty
  | publish event =>
    cases hresult : (s.loop.publish event).1 with
    | true => exact ⟨hresult, Or.inl rfl⟩
    | false =>
      have hunchanged := s.loop.publish_refused event hresult
      have hpublished : s.published event =
          { s with loop := { s.loop with rejected := s.loop.rejected + 1 }, refused := s.refused + 1 } := by
        rw [published, hresult, hunchanged]
        rfl
      rw [← Option.some.inj hs, hpublished] at hsame
      exact hsame hrunning hempty
  | start =>
    simp only [step, hrunning, if_true] at hs
    split_ifs at hs
    cases hs
    exact hsame hrunning hempty
  | accept =>
    obtain ⟨-, hs⟩ := Option.ite_none_right_eq_some.mp hs
    cases hs
    exact hsame hrunning hempty
  | spawn =>
    obtain ⟨-, hs⟩ := Option.ite_none_right_eq_some.mp hs
    cases hs
    exact hsame hrunning hempty
  | stop => exact ⟨hrunning, Or.inr rfl⟩
  | refuse =>
    obtain ⟨-, hs⟩ := Option.ite_none_right_eq_some.mp hs
    cases hs
    exact hsame hrunning hempty
  | join =>
    obtain ⟨⟨-, hgone⟩, -⟩ := Option.ite_none_right_eq_some.mp hs
    rw [hthread] at hgone
    cases hgone

/-- The same lane, where `Stop` clears `running_` with the mutex. -/
def lockedStop (Event : Type) : Waiting.Monitor (LaneLife Event) (LaneLifeAction Event) :=
  { monitor Event with
    locked := fun a => match a with
      | .stop => true
      | a => LaneLife.locked a }

theorem lockedStop_notified : (lockedStop Event).Notified fun _ => True where
  kept := fun _ _ => trivial
  stays := fun _ hother hs hwait => thread_kept hother hs hwait
  tells := fun _ hother hs hwait hbefore hafter => (turned_ready hother hs hwait hbefore hafter).1

theorem lockedStop_locked : (lockedStop Event).Locked fun _ => True := by
  intro s a s' _ hother hs hwait hbefore hafter
  rcases (turned_ready hother hs hwait hbefore hafter).2 with hlocked | rfl
  · cases a <;> first | rfl | exact hlocked
  · rfl

/-- `Stop` does not clear `running_` between the thread's look and its sleep. -/
def StopApart (t : State (LaneLife Event)) : Action (LaneLifeAction Event) → Prop
  | .other .stop => t.pc.holds = false
  | _ => True

theorem next_lockedStop {a : Action (LaneLifeAction Event)} (hapart : StopApart t a) :
    (lockedStop Event).next t a = (monitor Event).next t a := by
  cases a with
  | other a =>
    cases a with
    | stop =>
      have hfree : t.pc.holds = false := hapart
      simp only [Waiting.Monitor.next, hfree, Bool.and_false]
      rfl
    | _ => rfl
  | _ => rfl

/-- Where `Stop` keeps apart from the look, the thread does not sleep through anything. -/
theorem reactor_woken (h : Runs.Reaches (monitor Event).next StopApart { system := {} } t) (hasleep : t.pc = .asleep)
    (hready : (monitor Event).ready t.system = true) : 0 < t.owed := by
  have hlocked : Runs.Reaches (lockedStop Event).next Runs.anyStep { system := {} } t := by
    refine h.invariant (P := Runs.Reaches (lockedStop Event).next Runs.anyStep { system := {} }) (Runs.Reaches.refl _)
      fun s a s' hreach hapart hs => ?_
    rw [← next_lockedStop hapart] at hs
    exact hreach.tail trivial hs
  have hheard := Waiting.Monitor.heard_of_locked lockedStop_notified lockedStop_locked trivial rfl hlocked
  exact (Waiting.Monitor.watched_reaches lockedStop_notified trivial rfl hheard).owed (Or.inr hasleep) hready

/-! ## A `Stop` that does not return -/

theorem setLanePolicy_accepting (loop : EventReactorLoop Event) (policy : LanePolicy) :
    (loop.setLanePolicy policy).2.accepting = loop.accepting := by
  unfold EventReactorLoop.setLanePolicy
  split <;> rfl

/-- The thread sleeps, `Stop` waits for it, and nobody will notify it. -/
structure Forsaken (t : State (LaneLife Event)) : Prop where
  asleep : t.pc = .asleep
  owed : t.owed = 0
  thread : t.system.thread = true
  joining : t.system.control = .join
  refusing : t.system.loop.accepting = false

/-- The thread does not wake by itself. -/
def NotSpurious (_ : State (LaneLife Event)) : Action (LaneLifeAction Event) → Prop
  | .spurious => False
  | _ => True

theorem Forsaken.step (h : Forsaken t) {a : Action (LaneLifeAction Event)} (hnot : NotSpurious t a)
    (hs : (monitor Event).next t a = some t') : Forsaken t' := by
  cases a with
  | spurious => exact hnot.elim
  | other a =>
    obtain ⟨hother, -, hstep, hpc, howed⟩ := Waiting.Monitor.next_other hs
    have hstep : t.system.step a = some t'.system := hstep
    have hjoining := h.joining
    have hthread := thread_kept hother hstep h.thread
    cases a with
    | runOnce => cases hother
    | publish event =>
      have hresult : (t.system.loop.publish event).1 = false := by
        simp [EventReactorLoop.publish, h.refusing]
      have hunchanged := t.system.loop.publish_refused event hresult
      have hquiet : t'.owed = t.owed := by
        rw [howed]
        simp [monitor, notifies, hresult]
      have hsystem : t'.system = t.system.published event := (Option.some.inj hstep).symm
      rw [published, hresult, hunchanged] at hsystem
      exact ⟨hpc.trans h.asleep, hquiet.trans h.owed, hthread, by rw [hsystem]; exact hjoining,
        by rw [hsystem]; exact h.refusing⟩
    | setLanePolicy policy =>
      have haccepting := (setLanePolicy_accepting t.system.loop policy).trans h.refusing
      have hsystem := (Option.some.inj hstep).symm
      exact ⟨hpc.trans h.asleep, howed.trans h.owed, hthread, by rw [hsystem]; exact hjoining,
        by rw [hsystem]; exact haccepting⟩
    | join => simp [LaneLife.step, h.thread] at hstep
    | start => simp [LaneLife.step, hjoining] at hstep
    | accept => simp [LaneLife.step, hjoining] at hstep
    | spawn => simp [LaneLife.step, hjoining] at hstep
    | stop => simp [LaneLife.step, hjoining] at hstep
    | refuse => simp [LaneLife.step, hjoining] at hstep
  | _ => simp [Waiting.Monitor.next, h.asleep, h.owed] at hs

/-- A thread that is notified before it sleeps. -/
theorem stop_hangs (Event : Type) : ∃ t : State (LaneLife Event),
    Runs.Reaches (monitor Event).next Runs.anyStep { system := {} } t ∧
      ∀ t', Runs.Reaches (monitor Event).next NotSpurious t t' → t'.pc = .asleep ∧ t'.system.control = .join := by
  have hrun : ∃ t ∈ Runs.exec (monitor Event).next { system := {} } [.other .start, .other .accept, .other .spawn,
      .look, .commit, .other .stop, .other .refuse, .notify, .sleep], Forsaken t :=
    ⟨_, rfl, rfl, rfl, rfl, rfl, rfl⟩
  obtain ⟨t, ht, hforsaken⟩ := hrun
  refine ⟨t, Runs.reaches_of_exec _ ht, fun t' h => ?_⟩
  have hforever : Forsaken t' := h.invariant hforsaken fun _ _ _ hs hnot hstep => hs.step hnot hstep
  exact ⟨hforever.asleep, hforever.joining⟩

/-- Where `Stop` keeps apart from the thread's look, the thread is notified of all that there is for it. Where it comes
between the look and the sleep, it can wait forever: nothing but a spurious wakeup ends that. -/
theorem lost_wakeup (Event : Type) :
    (∀ t : State (LaneLife Event), Runs.Reaches (monitor Event).next StopApart { system := {} } t → t.pc = .asleep →
      (monitor Event).ready t.system = true → 0 < t.owed) ∧
    ∃ t : State (LaneLife Event), Runs.Reaches (monitor Event).next Runs.anyStep { system := {} } t ∧
      ∀ t', Runs.Reaches (monitor Event).next NotSpurious t t' → t'.pc = .asleep ∧ t'.system.control = .join :=
  ⟨fun _ h hasleep hready => reactor_woken h hasleep hready, stop_hangs Event⟩

end LaneLife

end Qtrade.EventBus
