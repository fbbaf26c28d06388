import Qtrade.Engine.EventLanes
import Qtrade.Engine.ReactorStop
import Mathlib.Data.List.Sublists

/-!
# The queue of a lane

`event_reactor_loop.cpp` with its two counters. Any thread publishes, one thread runs `RunOnce`, and each
critical section is one step. `Start` and `Stop` take several, so that producers come in between.
-/

namespace Qtrade.EventBus

open Qtrade.Engine

inductive RunOnceResult
  | handled | idle | stopped
deriving DecidableEq

structure EventReactorLoop (Event : Type) where
  policy : LanePolicy := {}
  queue : List Event := []
  running : Bool := false
  accepting : Bool := false
  dropped : Nat := 0
  rejected : Nat := 0

namespace EventReactorLoop

variable {Event : Type}

def setLanePolicy (s : EventReactorLoop Event) (policy : LanePolicy) : Bool × EventReactorLoop Event :=
  if s.running then (false, s) else (true, { s with policy })

def publish (s : EventReactorLoop Event) (event : Event) : Bool × EventReactorLoop Event :=
  if !s.accepting then (false, { s with rejected := s.rejected + 1 })
  else if s.policy.capacity ≤ s.queue.length then
    if s.policy.dropOldestOnFull then
      (true, { s with queue := s.queue.tail ++ [event], dropped := s.dropped + 1 })
    else (false, { s with rejected := s.rejected + 1 })
  else (true, { s with queue := s.queue ++ [event] })

/-- `none` where the condition variable still waits. -/
def runOnce (s : EventReactorLoop Event) : Option (RunOnceResult × Option Event × EventReactorLoop Event) :=
  if s.running && s.queue.isEmpty then none
  else if !s.running && s.queue.isEmpty then some (.stopped, none, s)
  else
    match s.queue with
    | [] => some (.idle, none, s)
    | event :: queue => some (.handled, some event, { s with queue })

/-- What the constructor of `QuoteEventReactor` sets. -/
def quoteLanePolicy : LanePolicy := { dropOldestOnFull := true }

/-! ### The same loop without its counters

Lane-T in `StartSequence`, the loop with its threads in `Reactor`, and the two lanes in `EventLanes`. -/

def withoutCounters (s : EventReactorLoop Callback) : Engine.EventReactorLoop :=
  { policy := s.policy, accepting := s.accepting, queue := s.queue }

theorem publish_withoutCounters (s : EventReactorLoop Callback) (event : Callback) :
    (s.publish event).2.withoutCounters = s.withoutCounters.publish event := by
  simp only [publish, Engine.EventReactorLoop.publish, withoutCounters, Engine.EventReactorLoop.full]
  split_ifs <;> grind

theorem runOnce_withoutCounters {s : EventReactorLoop Callback} {event : Callback} {rest : List Callback}
    (hqueue : s.queue = event :: rest) :
    s.runOnce.map Prod.snd = some (some event, { s with queue := rest }) ∧
      { s with queue := rest }.withoutCounters = { s.withoutCounters with queue := rest } := by
  simp [runOnce, withoutCounters, hqueue]

def ofStopping (s : Reactor) : EventReactorLoop Callback :=
  { policy := s.lane.policy, queue := s.lane.queue, running := s.running, accepting := s.lane.accepting }

theorem publish_ofStopping (s : Reactor) (event : Callback) :
    ofStopping (s.publish event) = { ((ofStopping s).publish event).2 with dropped := 0, rejected := 0 } := by
  simp only [publish, Reactor.publish, ofStopping, Engine.EventReactorLoop.accepts, Engine.EventReactorLoop.publish,
    Engine.EventReactorLoop.full]
  split_ifs <;> grind

/-- The thread has in hand what `RunOnce` gave it. -/
theorem runOnce_ofStopping {s : Reactor} (h : s.Inv) :
    (ofStopping s).runOnce.map Prod.snd = s.runOnce.map fun r => (r.thread.event?, ofStopping r) := by
  have hlabels := h.labels
  cases hqueue : s.lane.queue with
  | nil =>
    cases hrunning : s.running <;>
      simp [runOnce, Reactor.runOnce, ofStopping, hqueue, hrunning, ReactorPc.event?]
  | cons event rest =>
    rw [hqueue, List.map_eq_cons_iff] at hlabels
    obtain ⟨ticket, queued, hqueued, hitem, -⟩ := hlabels
    simp [runOnce, Reactor.runOnce, ofStopping, hqueue, hqueued, ReactorPc.event?, hitem]

/-- The loop of a reactor. -/
def ofReactor (s : EventReactor) : EventReactorLoop (Ticket Engine.Event) :=
  { policy := s.policy, queue := s.queue, running := s.running, accepting := s.accepting }

theorem publish_ofReactor (s : EventReactor) (event : Ticket Engine.Event) :
    ofReactor (s.publish event) = { ((ofReactor s).publish event).2 with dropped := 0, rejected := 0 } := by
  simp only [publish, EventReactor.publish, ofReactor]
  split_ifs <;> grind

theorem runOnce_ofReactor {s : EventReactor} (hwaiting : s.thread = .waiting) :
    (ofReactor s).runOnce.map Prod.snd = s.runOnce.map fun r => (r.thread.event?, ofReactor r) := by
  cases hqueue : s.queue with
  | nil =>
    cases hrunning : s.running <;>
      simp [runOnce, EventReactor.runOnce, ofReactor, hqueue, hwaiting, hrunning, LanePc.event?]
  | cons event rest => simp [runOnce, EventReactor.runOnce, ofReactor, hqueue, hwaiting, LanePc.event?]

/-! ### What one call does -/

/-- The event that `Publish` makes room with. -/
def oldestDropped (s : EventReactorLoop Event) : Option Event :=
  if s.accepting && decide (s.policy.capacity ≤ s.queue.length) && s.policy.dropOldestOnFull then s.queue.head?
  else none

theorem publish_policy (s : EventReactorLoop Event) (event : Event) :
    (s.publish event).2.policy = s.policy ∧ (s.publish event).2.running = s.running ∧
      (s.publish event).2.accepting = s.accepting := by
  unfold publish
  split_ifs <;> simp

theorem publish_dropping (s : EventReactorLoop Event) (event : Event) (accepting : s.accepting = true)
    (dropping : s.policy.dropOldestOnFull = true) : (s.publish event).1 = true := by
  simp only [publish, accepting, dropping]
  split_ifs <;> simp_all

theorem publish_accepted (s : EventReactorLoop Event) (event : Event) (positive : 1 ≤ s.policy.capacity)
    (accepted : (s.publish event).1 = true) :
    s.oldestDropped.toList ++ (s.publish event).2.queue = s.queue ++ [event] ∧
      (s.publish event).2.dropped = s.dropped + s.oldestDropped.toList.length ∧
      (s.publish event).2.rejected = s.rejected ∧
      (s.queue.length ≤ s.policy.capacity → (s.publish event).2.queue.length ≤ s.policy.capacity) := by
  cases hq : s.queue with
  | nil =>
    have hroom : ¬ s.policy.capacity ≤ 0 := by omega
    unfold publish oldestDropped at *
    by_cases ha : s.accepting = true
    · simp [hq, ha, hroom, positive]
    · simp [ha] at accepted
  | cons oldest rest =>
    unfold publish oldestDropped at *
    by_cases ha : s.accepting = true
    · by_cases hfull : s.policy.capacity ≤ rest.length + 1
      · by_cases hdrop : s.policy.dropOldestOnFull = true
        · simp [hq, ha, hfull, hdrop]
        · simp [hq, ha, hfull, hdrop] at accepted
      · simp [hq, ha, hfull]
        omega
    · simp [ha] at accepted

theorem publish_refused (s : EventReactorLoop Event) (event : Event) (refused : (s.publish event).1 = false) :
    (s.publish event).2 = { s with rejected := s.rejected + 1 } := by
  unfold publish at *
  split_ifs at refused ⊢ <;> simp_all

theorem oldestDropped_oldest (s : EventReactorLoop Event) (event : Event) (h : s.oldestDropped = some event) :
    s.queue.head? = some event ∧ s.policy.capacity ≤ s.queue.length ∧ s.policy.dropOldestOnFull = true := by
  unfold oldestDropped at h
  split at h
  · simp_all
  · cases h

end EventReactorLoop

/-! ## The life of a lane -/

/-- What became of an event that left the queue. A dropped one comes with the queue that `Publish` found. -/
inductive Fate (Event : Type)
  | handled
  | dropped (found : List Event)
deriving DecidableEq

def Fate.isHandled {Event : Type} : Fate Event → Bool
  | .handled => true
  | .dropped _ => false

/-- What is left of the call of `Start` or `Stop` being made. -/
inductive Control
  | returned | accept | spawn | refuse | join
deriving DecidableEq

/-- `accepted` has the events for which `Publish` returned true since the last `Start`, in the order of the
critical sections, and `departed` those of them that left the queue. `refused` counts the calls of `Publish`
that returned false, and `droppedBefore` is what `DroppedCount` answered at the last `Start`. -/
structure LaneLife (Event : Type) where
  loop : EventReactorLoop Event := {}
  control : Control := .returned
  thread : Bool := false
  accepted : List Event := []
  departed : List (Event × Fate Event) := []
  droppedBefore : Nat := 0
  refused : Nat := 0

inductive LaneLifeAction (Event : Type)
  | setLanePolicy (policy : LanePolicy)
  | publish (event : Event)
  | runOnce
  | start
  | accept
  | spawn
  | stop
  | refuse
  | join

namespace LaneLife

variable {Event : Type}

/-- `Start` has returned and `Stop` was not called. -/
def Started (s : LaneLife Event) : Prop := s.control = .returned ∧ s.loop.running = true

def published (s : LaneLife Event) (event : Event) : LaneLife Event :=
  let result := s.loop.publish event
  if result.1 then
    { s with
      loop := result.2
      accepted := s.accepted ++ [event]
      departed := s.departed ++ s.loop.oldestDropped.toList.map (·, .dropped s.loop.queue) }
  else { s with loop := result.2, refused := s.refused + 1 }

/-- The reactor thread leaves its loop where `RunOnce` says so. -/
def ranOnce (s : LaneLife Event) : RunOnceResult × Option Event × EventReactorLoop Event → LaneLife Event
  | (.handled, some event, loop) => { s with loop, departed := s.departed ++ [(event, .handled)] }
  | (.stopped, _, loop) => { s with loop, thread := false }
  | (_, _, loop) => { s with loop }

/-- Calls of `Start` and `Stop` do not overlap. -/
def step (s : LaneLife Event) : LaneLifeAction Event → Option (LaneLife Event)
  | .setLanePolicy policy => some { s with loop := (s.loop.setLanePolicy policy).2 }
  | .publish event => some (s.published event)
  | .runOnce => if s.thread then s.loop.runOnce.map s.ranOnce else none
  | .start =>
    if s.control ≠ .returned then none
    else if s.loop.running then some s
    else
      some
        { s with
          loop := { s.loop with running := true }
          control := .accept
          accepted := []
          departed := []
          droppedBefore := s.loop.dropped }
  | .accept =>
    if s.control = .accept then some { s with loop := { s.loop with accepting := true }, control := .spawn }
    else none
  | .spawn => if s.control = .spawn then some { s with thread := true, control := .returned } else none
  | .stop =>
    if s.control ≠ .returned then none
    else if s.loop.running then some { s with loop := { s.loop with running := false }, control := .refuse }
    else some s
  | .refuse =>
    if s.control = .refuse then some { s with loop := { s.loop with accepting := false }, control := .join }
    else none
  | .join =>
    if s.control = .join ∧ s.thread = false then
      some { s with loop := { s.loop with queue := [] }, control := .returned }
    else none

/-- Policies have room for an event. -/
def Roomy (_ : LaneLife Event) : LaneLifeAction Event → Prop
  | .setLanePolicy policy => 1 ≤ policy.capacity
  | _ => True

instance (s : LaneLife Event) (a : LaneLifeAction Event) : Decidable (Roomy s a) :=
  match a with
  | .setLanePolicy policy => inferInstanceAs (Decidable (1 ≤ policy.capacity))
  | .publish _ | .runOnce | .start | .accept | .spawn | .stop | .refuse | .join => .isTrue trivial

/-! ### Its accounts -/

def handled (s : LaneLife Event) : List Event := (s.departed.filter (·.2.isHandled)).map Prod.fst

def dropped (s : LaneLife Event) : List Event := (s.departed.filter (!·.2.isHandled)).map Prod.fst

/-- Where the calls of `Start` and `Stop` stand. -/
structure Phased (s : LaneLife Event) : Prop where
  closed : s.loop.running = false → s.control = .returned ∨ s.control = .join → s.loop.accepting = false
  empty : s.loop.running = false → s.control = .returned → s.loop.queue = []
  opened : s.loop.running = true → s.control = .returned ∨ s.control = .spawn → s.loop.accepting = true
  starting : s.control = .accept ∨ s.control = .spawn → s.loop.running = true
  stopping : s.control = .refuse ∨ s.control = .join → s.loop.running = false

/-- The events accepted since `Start`, while the lane runs. -/
structure Accounted (s : LaneLife Event) : Prop where
  bounded : s.loop.queue.length ≤ s.loop.policy.capacity
  ordered : s.departed.map Prod.fst ++ s.loop.queue = s.accepted
  counted : s.loop.dropped = s.droppedBefore + s.dropped.length
  oldest : ∀ event found, (event, .dropped found) ∈ s.departed →
    found.head? = some event ∧ found.length = s.loop.policy.capacity ∧ s.loop.policy.dropOldestOnFull = true

structure Kept (s : LaneLife Event) : Prop where
  roomy : 1 ≤ s.loop.policy.capacity
  refusals : s.loop.rejected = s.refused
  phased : s.Phased
  accounted : s.loop.running = true → s.Accounted

variable {s s' : LaneLife Event}

/-! ### Steps keep them -/

theorem published_accepted (h : s.Kept) (event : Event) (accepted : (s.loop.publish event).1 = true) :
    (s.published event).Kept := by
  obtain ⟨hqueue, hdropped, hrejected, hbounded⟩ := s.loop.publish_accepted event h.roomy accepted
  obtain ⟨hpolicy, hrunning, haccepting⟩ := s.loop.publish_policy event
  have hopen : s.loop.accepting = true := by
    unfold EventReactorLoop.publish at accepted
    split_ifs at accepted <;> simp_all
  simp only [published, accepted, if_true]
  refine ⟨?_, ?_, ⟨?_, ?_, ?_, ?_, ?_⟩, ?_⟩
  · simpa only [hpolicy] using h.roomy
  · simpa only [hrejected] using h.refusals
  · simpa only [hrunning, haccepting] using h.phased.closed
  · intro hstopped hreturned
    rw [hrunning] at hstopped
    simp [h.phased.closed hstopped (.inl hreturned)] at hopen
  · simpa only [hrunning, haccepting] using h.phased.opened
  · simpa only [hrunning] using h.phased.starting
  · simpa only [hrunning] using h.phased.stopping
  · intro hrun
    rw [hrunning] at hrun
    obtain ⟨bounded, ordered, counted, oldest⟩ := h.accounted hrun
    refine ⟨?_, ?_, ?_, ?_⟩
    · rw [hpolicy]
      exact hbounded bounded
    · have hfst : (s.loop.oldestDropped.toList.map (·, Fate.dropped s.loop.queue)).map Prod.fst =
          s.loop.oldestDropped.toList := by
        cases s.loop.oldestDropped <;> rfl
      simp only [List.map_append, hfst, List.append_assoc, hqueue]
      rw [← List.append_assoc, ordered]
    · have hnew : (((s.loop.oldestDropped.toList.map (·, Fate.dropped s.loop.queue)).filter
          (!·.2.isHandled)).map Prod.fst) = s.loop.oldestDropped.toList := by
        cases s.loop.oldestDropped <;> rfl
      simp only [LaneLife.dropped, List.filter_append, List.map_append, hnew, List.length_append]
      rw [hdropped, counted, Nat.add_assoc]
      rfl
    · intro e found hmem
      simp only [hpolicy]
      rw [List.mem_append] at hmem
      rcases hmem with hmem | hmem
      · exact oldest e found hmem
      · obtain ⟨_, hold, heq⟩ := List.mem_map.mp hmem
        cases heq
        obtain ⟨hhead, hfull, hdropping⟩ := s.loop.oldestDropped_oldest _ (Option.mem_toList.mp hold)
        exact ⟨hhead, by omega, hdropping⟩

theorem published_refused (h : s.Kept) (event : Event) (refused : (s.loop.publish event).1 = false) :
    (s.published event).Kept := by
  have hloop := s.loop.publish_refused event refused
  simp only [published, refused, Bool.false_eq_true, if_false, hloop]
  obtain ⟨roomy, refusals, phased, accounted⟩ := h
  refine ⟨roomy, by simp only [refusals], { phased with }, ?_⟩
  intro hrun
  exact { accounted hrun with }

theorem runOnce_kept (h : s.Kept) {result : RunOnceResult × Option Event × EventReactorLoop Event}
    (ran : s.loop.runOnce = some result) : (s.ranOnce result).Kept := by
  obtain ⟨roomy, refusals, phased, accounted⟩ := h
  unfold EventReactorLoop.runOnce at ran
  split_ifs at ran with hwait hstop
  · cases ran
    exact ⟨roomy, refusals, { phased with },
      fun hrun => { accounted hrun with }⟩
  · cases hq : s.loop.queue with
    | nil => simp_all
    | cons event queue =>
      simp only [hq, Option.some.injEq] at ran
      subst ran
      refine ⟨roomy, refusals, ⟨phased.1, ?_, phased.3, phased.4, phased.5⟩, ?_⟩
      · intro hstopped hreturned
        have hempty := phased.2 hstopped hreturned
        rw [hq] at hempty
        cases hempty
      · intro hrun
        obtain ⟨bounded, ordered, counted, oldest⟩ := accounted hrun
        refine ⟨?_, ?_, ?_, ?_⟩
        · simp only [hq, List.length_cons] at bounded
          exact Nat.le_of_succ_le bounded
        · simp only [ranOnce, List.map_append, List.map_cons, List.map_nil, List.append_assoc]
          rw [← ordered, hq]
          rfl
        · simpa [ranOnce, LaneLife.dropped, Fate.isHandled] using counted
        · intro e found hmem
          simp only [ranOnce, List.mem_append, List.mem_singleton, Prod.mk.injEq, reduceCtorEq, and_false,
            or_false] at hmem
          exact oldest e found hmem

theorem step_kept (a : LaneLifeAction Event) (h : s.Kept) (roomy : Roomy s a) (hstep : s.step a = some s') :
    s'.Kept := by
  cases a with
  | setLanePolicy policy =>
    cases hstep
    unfold EventReactorLoop.setLanePolicy
    split
    · exact h
    · rename_i hrun
      exact ⟨roomy, h.refusals, { h.phased with },
        fun hrun' => absurd hrun' hrun⟩
  | publish event =>
    cases hstep
    cases hp : (s.loop.publish event).1 with
    | true => exact published_accepted h event hp
    | false => exact published_refused h event hp
  | runOnce =>
    simp only [step] at hstep
    split at hstep
    · obtain ⟨result, hran, hs'⟩ := Option.map_eq_some_iff.mp hstep
      exact hs' ▸ runOnce_kept h hran
    · cases hstep
  | start =>
    simp only [step] at hstep
    split_ifs at hstep with hreturned hrun
    · cases hstep
      exact h
    · cases hstep
      have hempty := h.phased.empty (by simpa using hrun) (by simpa using hreturned)
      refine ⟨h.roomy, h.refusals, ⟨?_, ?_, ?_, ?_, ?_⟩, fun _ => ⟨?_, ?_, ?_, ?_⟩⟩ <;>
        simp [hempty, LaneLife.dropped]
  | accept =>
    simp only [step] at hstep
    split at hstep
    · rename_i hcontrol
      cases hstep
      have hrun := h.phased.starting (.inl hcontrol)
      refine ⟨h.roomy, h.refusals, ⟨?_, ?_, ?_, ?_, ?_⟩, fun hr => ?_⟩ <;> try simp [hrun]
      exact { h.accounted hr with }
    · cases hstep
  | spawn =>
    simp only [step] at hstep
    split at hstep
    · rename_i hcontrol
      cases hstep
      have hrun := h.phased.starting (.inr hcontrol)
      have haccepting := h.phased.opened hrun (.inr hcontrol)
      refine ⟨h.roomy, h.refusals, ⟨?_, ?_, ?_, ?_, ?_⟩, fun hr => ?_⟩ <;> try simp [hrun, haccepting]
      exact { h.accounted hr with }
    · cases hstep
  | stop =>
    simp only [step] at hstep
    split_ifs at hstep
    · cases hstep
      exact ⟨h.roomy, h.refusals, ⟨by simp, by simp, by simp, by simp, by simp⟩, by simp⟩
    · cases hstep
      exact h
  | refuse =>
    simp only [step] at hstep
    split at hstep
    · rename_i hcontrol
      cases hstep
      have hrun := h.phased.stopping (.inl hcontrol)
      exact ⟨h.roomy, h.refusals, ⟨by simp, by simp, by simp [hrun], by simp, by simp [hrun]⟩, by simp [hrun]⟩
    · cases hstep
  | join =>
    simp only [step] at hstep
    split at hstep
    · rename_i hcontrol
      cases hstep
      have hrun := h.phased.stopping (.inr hcontrol.1)
      have haccepting := h.phased.closed hrun (.inr hcontrol.1)
      exact ⟨h.roomy, h.refusals, ⟨by simp [haccepting], by simp, by simp [hrun], by simp, by simp⟩,
        by simp [hrun]⟩
    · cases hstep

/-! ### Every run of it -/

theorem new_kept : ({} : LaneLife Event).Kept := by
  refine ⟨by simp, rfl, ⟨?_, ?_, ?_, ?_, ?_⟩, ?_⟩ <;> simp

theorem reaches_kept (h : Runs.Reaches step Roomy {} s) : s.Kept :=
  h.invariant new_kept fun _ a _ hkept hroomy hstep => step_kept a hkept hroomy hstep

/-- An event left as one that was handled or as one that was dropped. -/
theorem departed_perm (s : LaneLife Event) : (s.handled ++ s.dropped).Perm (s.departed.map Prod.fst) := by
  unfold handled dropped
  rw [← List.map_append]
  exact (List.filter_append_perm (·.2.isHandled) s.departed).map Prod.fst

theorem Accounted.none_dropped (h : s.Accounted) (keeping : s.loop.policy.dropOldestOnFull = false) :
    s.departed.filter (!·.2.isHandled) = [] := by
  rw [List.filter_eq_nil_iff]
  rintro ⟨event, fate⟩ hmem
  cases fate with
  | handled => simp [Fate.isHandled]
  | dropped found => simp [(h.oldest event found hmem).2.2] at keeping

theorem Accounted.all_handled (h : s.Accounted) (keeping : s.loop.policy.dropOldestOnFull = false) :
    s.handled = s.departed.map Prod.fst := by
  unfold handled
  rw [List.filter_eq_self.mpr]
  intro entry hmem
  have hnone := List.filter_eq_nil_iff.mp (h.none_dropped keeping) entry hmem
  simpa using hnone

/-- Whenever a lane runs, its queue, its handled events and its two counters account for every event that was
published. -/
theorem lane_accounts (h : Runs.Reaches step Roomy {} s) (started : s.Started) :
    (s.loop.queue.length ≤ s.loop.policy.capacity ∧ s.loop.queue <:+ s.accepted) ∧
      s.handled.Sublist s.accepted ∧
      (s.departed.map Prod.fst ++ s.loop.queue = s.accepted ∧
        (s.handled ++ s.loop.queue ++ s.dropped).Perm s.accepted ∧
        s.loop.dropped = s.droppedBefore + s.dropped.length) ∧
      s.loop.rejected = s.refused ∧
      (s.loop.policy.dropOldestOnFull = false → s.dropped = [] ∧ s.handled ++ s.loop.queue = s.accepted) ∧
      (s.loop.policy.dropOldestOnFull = true →
        (∀ event, (s.loop.publish event).1 = true) ∧
          ∀ event found, (event, .dropped found) ∈ s.departed →
            found.head? = some event ∧ found.length = s.loop.policy.capacity) := by
  have hkept := reaches_kept h
  obtain ⟨hreturned, hrun⟩ := started
  have haccounted := hkept.accounted hrun
  have hordered := haccounted.ordered
  have hdeparted : (s.departed.map Prod.fst).Sublist s.accepted :=
    hordered ▸ List.sublist_append_left _ _
  refine ⟨⟨haccounted.bounded, _, hordered⟩, ?_, ⟨hordered, ?_, haccounted.counted⟩, hkept.refusals, ?_, ?_⟩
  · exact (List.filter_sublist.map Prod.fst).trans hdeparted
  · have hswap : (s.loop.queue ++ s.dropped).Perm (s.dropped ++ s.loop.queue) := List.perm_append_comm
    have hall := s.departed_perm.append_right s.loop.queue
    rw [hordered, List.append_assoc] at hall
    rw [List.append_assoc]
    exact (hswap.append_left s.handled).trans hall
  · intro hkeeping
    refine ⟨?_, ?_⟩
    · unfold dropped
      rw [haccounted.none_dropped hkeeping, List.map_nil]
    · rw [haccounted.all_handled hkeeping, hordered]
  · intro hdropping
    refine ⟨fun event => ?_, fun event found hmem => ?_⟩
    · exact s.loop.publish_dropping event (hkept.phased.opened hrun (.inl hreturned)) hdropping
    · exact ⟨(haccounted.oldest event found hmem).1, (haccounted.oldest event found hmem).2.1⟩

/-- Producers that are too early and then too fast. -/
def hurriedProducers : List (LaneLifeAction String) :=
  [.setLanePolicy { EventReactorLoop.quoteLanePolicy with capacity := 2 }, .publish "early", .start, .accept, .spawn,
    .publish "a", .publish "b", .runOnce, .publish "c", .publish "d"]

theorem lane_accounts_dropping :
    ∃ s : LaneLife String, Runs.execWhile step Roomy {} hurriedProducers = some s ∧
      s.refused = 1 ∧ s.loop.queue = ["c", "d"] ∧ s.handled = ["a"] ∧ s.dropped = ["b"] ∧
      s.loop.dropped = s.droppedBefore + s.dropped.length ∧ s.handled.Sublist s.accepted := by
  refine ⟨_, rfl, rfl, rfl, rfl, rfl, ?_, ?_⟩
  · exact (lane_accounts (Runs.reaches_of_execWhile hurriedProducers rfl) ⟨rfl, rfl⟩).2.2.1.2.2
  · exact (lane_accounts (Runs.reaches_of_execWhile hurriedProducers rfl) ⟨rfl, rfl⟩).2.1

end LaneLife

end Qtrade.EventBus
