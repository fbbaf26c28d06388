import Qtrade.Engine.StartSequence
import Qtrade.Lib.Journal

/-!
# Stopping a reactor

`event_reactor_loop.cpp` with its two flags and its thread. `Stop` clears `running_` first and `accepting_`
after it, and the thread leaves its loop as soon as it sees the first of them and no event. A step is one
store, one hold of the mutex, the start of the thread or the join. One thread calls `Start` and `Stop`, any
number of threads publish.
-/

namespace Qtrade.Engine

/-- Whether `Publish` takes an event. -/
def EventReactorLoop.accepts (s : EventReactorLoop) : Bool :=
  s.accepting && (!s.full || s.policy.dropOldestOnFull)

/-- Where the reactor thread is. -/
inductive ReactorPc
  | absent
  | waiting
  | handling (ticket : Ticket Callback)
  | exited
deriving DecidableEq

/-- The event that the thread has in hand. -/
def ReactorPc.event? : ReactorPc → Option Callback
  | .handling ticket => some ticket.item
  | .absent | .waiting | .exited => none

/-- The next store of `Start` or of `Stop`. -/
inductive LoopControl
  | idle
  | opening
  | spawning
  | closing
  | joining
  | clearing
deriving DecidableEq

/-- The loop with its threads. The journal and the tickets of the queued events are for the proofs. -/
structure Reactor where
  lane : EventReactorLoop := {}
  running : Bool := false
  thread : ReactorPc := .absent
  control : LoopControl := .idle
  queued : List (Ticket Callback) := []
  journal : Journal Callback := []

inductive ReactorStep
  | start
  | stop
  | control
  | publish (event : Callback)
  | runOnce
  | handle

namespace Reactor

def publish (s : Reactor) (event : Callback) : Reactor :=
  if s.lane.accepts then
    { s with
      lane := s.lane.publish event
      queued := (if s.lane.full then s.queued.tail else s.queued) ++ [s.journal.ticket event]
      journal := .accepted (s.journal.ticket event) :: s.journal }
  else s

/-- `RunOnce` of the reactor thread: the wait goes on, the loop ends, or an event comes out. -/
def runOnce (s : Reactor) : Option Reactor :=
  match s.lane.queue, s.queued with
  | [], _ => if s.running then none else some { s with thread := .exited }
  | _ :: queue, ticket :: queued => some { s with lane.queue := queue, queued, thread := .handling ticket }
  | _, [] => none

/-- What `Start` and `Stop` do after the exchange on `running_`. -/
def controlStep (s : Reactor) : Option Reactor :=
  match s.control with
  | .idle => none
  | .opening => some { s with lane.accepting := true, control := .spawning }
  | .spawning => some { s with thread := .waiting, control := .idle }
  | .closing => some { s with lane.accepting := false, control := .joining }
  | .joining => if s.thread = .exited then some { s with thread := .absent, control := .clearing } else none
  | .clearing => some { s with lane.queue := [], queued := [], control := .idle }

def step (s : Reactor) : ReactorStep → Option Reactor
  | .start =>
    if s.control = .idle then some (if s.running then s else { s with running := true, control := .opening })
    else none
  | .stop =>
    if s.control = .idle then some (if s.running then { s with running := false, control := .closing } else s)
    else none
  | .control => s.controlStep
  | .publish event => some (s.publish event)
  | .runOnce => if s.thread = .waiting then s.runOnce else none
  | .handle =>
    match s.thread with
    | .handling ticket => some { s with thread := .waiting, journal := .taken ticket :: s.journal }
    | _ => none

/-- No event is taken after the reactor thread has left its loop. -/
def inTime (s : Reactor) : ReactorStep → Bool
  | .publish _ => !s.lane.accepts || s.thread != .exited
  | _ => true

/-! ## The invariant -/

/-- What was taken from the queue and waits for its handler. -/
def inHand (s : Reactor) : List (Ticket Callback) :=
  match s.thread with
  | .handling ticket => [ticket]
  | _ => []

def waiting (s : Reactor) : List (Ticket Callback) := s.inHand ++ s.queued

/-- The thread is in `RunLoop`. -/
def inLoop (s : Reactor) : Prop := s.thread ≠ .absent ∧ s.thread ≠ .exited

/-- The flags, the thread and the queue at each point of `Start` and `Stop`. -/
def Placed (s : Reactor) : Prop :=
  match s.control with
  | .idle =>
    (s.running = true ∧ s.inLoop) ∨
      (s.running = false ∧ s.lane.accepting = false ∧ s.thread = .absent ∧ s.queued = [])
  | .opening => s.running = true ∧ s.thread = .absent
  | .spawning => s.running = true ∧ s.thread = .absent
  | .closing => s.running = false ∧ s.thread ≠ .absent ∧ (s.thread = .exited → s.queued = [])
  | .joining =>
    s.running = false ∧ s.lane.accepting = false ∧ s.thread ≠ .absent ∧ (s.thread = .exited → s.queued = [])
  | .clearing => s.running = false ∧ s.lane.accepting = false ∧ s.thread = .absent ∧ s.queued = []

structure Inv (s : Reactor) : Prop where
  policy : s.lane.policy.dropOldestOnFull = false
  labels : s.queued.map (·.item) = s.lane.queue
  keeps : s.journal.Keeps s.waiting
  inOrder : s.journal.InOrder (fun _ => true) s.waiting
  placed : s.Placed

variable {s s' : Reactor}

theorem Inv.publish_eq (h : s.Inv) (event : Callback) (haccepts : s.lane.accepts = true) :
    s.lane.accepting = true ∧ s.publish event = { s with
      lane.queue := s.lane.queue ++ [event]
      queued := s.queued ++ [s.journal.ticket event]
      journal := .accepted (s.journal.ticket event) :: s.journal } := by
  have hopen := haccepts
  unfold EventReactorLoop.accepts at hopen
  rw [h.policy, Bool.or_false, Bool.and_eq_true, Bool.not_eq_true'] at hopen
  obtain ⟨haccepting, hroom⟩ := hopen
  unfold publish EventReactorLoop.publish
  simp [haccepts, haccepting, hroom]

theorem Inv.publish (h : s.Inv) {event : Callback} (hok : s.inTime (.publish event) = true) :
    (s.publish event).Inv := by
  cases haccepts : s.lane.accepts with
  | false =>
    unfold Reactor.publish
    rw [haccepts]
    exact h
  | true =>
    obtain ⟨haccepting, hpublish⟩ := h.publish_eq event haccepts
    have hthread : s.thread ≠ .exited := by simpa [inTime, haccepts] using hok
    have hplaced := h.placed
    rw [hpublish]
    have hwaiting : s.inHand ++ (s.queued ++ [s.journal.ticket event]) = s.waiting ++ [s.journal.ticket event] :=
      (List.append_assoc _ _ _).symm
    refine ⟨h.policy, ?_, ?_, ?_, ?_⟩
    · simp [h.labels, Journal.ticket]
    · have hkeeps := h.keeps.accept_back event
      rwa [← hwaiting] at hkeeps
    · have hinOrder := h.inOrder.accept_back (s.journal.ticket event)
      rwa [← hwaiting] at hinOrder
    · unfold Placed at hplaced ⊢
      dsimp only
      split at hplaced
      case h_1 =>
        rcases hplaced with hruns | ⟨_, hclosed, _⟩
        · exact Or.inl hruns
        · rw [haccepting] at hclosed
          cases hclosed
      case h_2 | h_3 => exact hplaced
      case h_4 => exact ⟨hplaced.1, hplaced.2.1, fun hexited => absurd hexited hthread⟩
      case h_5 => exact ⟨hplaced.1, hplaced.2.1, hplaced.2.2.1, fun hexited => absurd hexited hthread⟩
      case h_6 =>
        rw [haccepting] at hplaced
        cases hplaced.2.1

theorem runOnce_cases (h : s.Inv) (hs : s.runOnce = some s') :
    (s.running = false ∧ s.queued = [] ∧ s' = { s with thread := .exited }) ∨
    ∃ ticket queued, s.queued = ticket :: queued ∧
      s' = { s with lane.queue := queued.map (·.item), queued, thread := .handling ticket } := by
  unfold runOnce at hs
  rw [← h.labels] at hs
  cases hqueued : s.queued with
  | nil =>
    simp only [hqueued, List.map_nil] at hs
    split at hs
    case isTrue => cases hs
    case isFalse hstopped => exact Or.inl ⟨by simpa using hstopped, rfl, (Option.some.inj hs).symm⟩
  | cons ticket queued =>
    rw [hqueued] at hs
    exact Or.inr ⟨ticket, queued, rfl, (Option.some.inj hs).symm⟩

theorem Placed.of_inLoop (h : s.Placed) (hin : s.inLoop) (hin' : s'.inLoop) (hcontrol : s'.control = s.control)
    (hrunning : s'.running = s.running) (haccepting : s'.lane.accepting = s.lane.accepting) : s'.Placed := by
  unfold Placed at h ⊢
  rw [hcontrol, hrunning, haccepting]
  split at h
  case h_1 =>
    rcases h with hruns | ⟨_, _, habsent, _⟩
    · exact Or.inl ⟨hruns.1, hin'⟩
    · exact absurd habsent hin.1
  case h_2 | h_3 => exact absurd h.2 hin.1
  case h_4 => exact ⟨h.1, hin'.1, fun hexited => absurd hexited hin'.2⟩
  case h_5 => exact ⟨h.1, h.2.1, hin'.1, fun hexited => absurd hexited hin'.2⟩
  case h_6 => exact absurd h.2.2.1 hin.1

theorem Inv.runOnce (h : s.Inv) (hwaiting : s.thread = .waiting) (hs : s.runOnce = some s') : s'.Inv := by
  have hhand : s.inHand = [] := by simp [inHand, hwaiting]
  have hin : s.inLoop := by simp [inLoop, hwaiting]
  have hkeeps := h.keeps
  have hinOrder := h.inOrder
  unfold waiting at hkeeps hinOrder
  rw [hhand, List.nil_append] at hkeeps hinOrder
  rcases runOnce_cases h hs with ⟨hstopped, hempty, rfl⟩ | ⟨ticket, queued, hqueued, rfl⟩
  · refine ⟨h.policy, h.labels, hkeeps, hinOrder, ?_⟩
    have hplaced := h.placed
    unfold Placed at hplaced ⊢
    dsimp only
    split at hplaced
    case h_1 =>
      rcases hplaced with hruns | hrests
      · rw [hstopped] at hruns
        cases hruns.1
      · exact absurd hrests.2.2.1 hin.1
    case h_2 | h_3 => exact absurd hplaced.2 hin.1
    case h_4 => exact ⟨hstopped, by simp, fun _ => hempty⟩
    case h_5 => exact ⟨hstopped, hplaced.2.1, by simp, fun _ => hempty⟩
    case h_6 => exact absurd hplaced.2.2.1 hin.1
  · rw [hqueued] at hkeeps hinOrder
    refine ⟨h.policy, rfl, hkeeps, hinOrder, ?_⟩
    exact h.placed.of_inLoop hin (by simp [inLoop]) rfl rfl rfl

theorem Inv.handle (h : s.Inv) (hs : s.step .handle = some s') : s'.Inv := by
  rw [step] at hs
  split at hs
  case h_1 ticket hhandling =>
    cases hs
    have hwaiting : s.waiting = ticket :: s.queued := by simp [waiting, inHand, hhandling]
    have hkeeps := h.keeps
    have hinOrder := h.inOrder
    rw [hwaiting] at hkeeps hinOrder
    refine ⟨h.policy, h.labels, hkeeps.take, hinOrder.take, ?_⟩
    apply h.placed.of_inLoop <;> simp [inLoop, hhandling]
  case h_2 => cases hs

theorem Inv.same (h : s.Inv) (hpolicy : s'.lane.policy = s.lane.policy) (hqueue : s'.lane.queue = s.lane.queue)
    (hqueued : s'.queued = s.queued) (hhand : s'.inHand = s.inHand) (hjournal : s'.journal = s.journal)
    (hplaced : s'.Placed) : s'.Inv := by
  have hwaiting : s'.waiting = s.waiting := by
    unfold waiting
    rw [hhand, hqueued]
  refine ⟨?_, ?_, ?_, ?_, hplaced⟩
  · rw [hpolicy]
    exact h.policy
  · rw [hqueued, hqueue]
    exact h.labels
  · rw [hwaiting, hjournal]
    exact h.keeps
  · rw [hwaiting, hjournal]
    exact h.inOrder

theorem Inv.control (h : s.Inv) (hs : s.controlStep = some s') : s'.Inv := by
  have hplaced := h.placed
  unfold Placed at hplaced
  unfold controlStep at hs
  split at hs
  case h_1 => cases hs
  case h_2 hopening =>
    rw [hopening] at hplaced
    cases hs
    exact h.same rfl rfl rfl rfl rfl hplaced
  case h_3 hspawning =>
    rw [hspawning] at hplaced
    cases hs
    refine h.same rfl rfl rfl ?_ rfl (Or.inl ⟨hplaced.1, by simp [inLoop]⟩)
    simp [inHand, hplaced.2]
  case h_4 hclosing =>
    rw [hclosing] at hplaced
    cases hs
    exact h.same rfl rfl rfl rfl rfl ⟨hplaced.1, rfl, hplaced.2⟩
  case h_5 hjoining =>
    rw [hjoining] at hplaced
    obtain ⟨hstopped, hclosed, _, hempty⟩ := hplaced
    obtain ⟨hexited, hs⟩ := Option.ite_none_right_eq_some.mp hs
    cases hs
    refine h.same rfl rfl rfl ?_ rfl ⟨hstopped, hclosed, rfl, hempty hexited⟩
    simp [inHand, hexited]
  case h_6 hclearing =>
    rw [hclearing] at hplaced
    obtain ⟨hstopped, hclosed, habsent, hempty⟩ := hplaced
    cases hs
    have hnone : s.lane.queue = [] := by rw [← h.labels, hempty, List.map_nil]
    exact h.same rfl hnone.symm hempty.symm rfl rfl (Or.inr ⟨hstopped, hclosed, habsent, rfl⟩)

theorem step_inv (h : s.Inv) {a : ReactorStep} (hok : s.inTime a = true) (hs : s.step a = some s') : s'.Inv := by
  have hplaced := h.placed
  unfold Placed at hplaced
  induction a with
  | start =>
    rw [step] at hs
    obtain ⟨hidle, hs⟩ := Option.ite_none_right_eq_some.mp hs
    rw [hidle] at hplaced
    cases hs
    split
    case isTrue => exact h
    case isFalse hstopped =>
      rcases hplaced with hruns | ⟨_, _, habsent, _⟩
      · exact absurd hruns.1 hstopped
      · exact h.same rfl rfl rfl rfl rfl ⟨rfl, habsent⟩
  | stop =>
    rw [step] at hs
    obtain ⟨hidle, hs⟩ := Option.ite_none_right_eq_some.mp hs
    rw [hidle] at hplaced
    cases hs
    split
    case isTrue hrunning =>
      rcases hplaced with ⟨_, hin⟩ | ⟨hstopped, _⟩
      · exact h.same rfl rfl rfl rfl rfl ⟨rfl, hin.1, fun hexited => absurd hexited hin.2⟩
      · rw [hrunning] at hstopped
        cases hstopped
    case isFalse => exact h
  | control => exact h.control hs
  | publish event =>
    cases hs
    exact h.publish hok
  | runOnce =>
    rw [step] at hs
    obtain ⟨hwaiting, hs⟩ := Option.ite_none_right_eq_some.mp hs
    exact h.runOnce hwaiting hs
  | handle => exact h.handle hs

/-- A loop that has not been started. -/
def fresh (policy : LanePolicy) : Reactor := { lane := { policy } }

theorem inv_fresh {policy : LanePolicy} (hpolicy : policy.dropOldestOnFull = false) : (fresh policy).Inv :=
  ⟨hpolicy, rfl, Journal.keeps_nil, rfl, Or.inr ⟨rfl, rfl, rfl, rfl⟩⟩

/-- The tickets are those of the queue, no two events share one, and what was accepted is, in order, what the
handler got, what the thread has in hand and what is queued. If no event is accepted after the thread has left
its loop, `Stop` clears an empty queue, and when it has returned the handler got all that was accepted. -/
theorem accepted_handled {policy : LanePolicy} (hpolicy : policy.dropOldestOnFull = false)
    (h : Runs.Reaches step (fun s a => s.inTime a = true) (fresh policy) s) :
    s.queued.map (·.item) = s.lane.queue ∧ s.journal.accepted.Nodup ∧
    s.journal.accepted = s.journal.taken ++ s.inHand ++ s.queued ∧
    (s.control = .clearing → s.lane.queue = []) ∧
    (s.control = .idle → s.running = false → s.journal.taken = s.journal.accepted) := by
  have hinv : s.Inv := by
    apply h.invariant (inv_fresh hpolicy)
    intro s a s' hinv hok hs
    exact step_inv hinv hok hs
  have horder : s.journal.accepted = s.journal.taken ++ s.inHand ++ s.queued := by
    have hinOrder := hinv.inOrder
    unfold Journal.InOrder waiting at hinOrder
    rw [List.filter_true, List.filter_true, ← List.append_assoc] at hinOrder
    exact hinOrder.symm
  have hplaced := hinv.placed
  unfold Placed at hplaced
  refine ⟨hinv.labels, hinv.keeps.nodup, horder, ?_, ?_⟩
  · intro hclearing
    rw [hclearing] at hplaced
    rw [← hinv.labels, hplaced.2.2.2, List.map_nil]
  · intro hidle hstopped
    rw [hidle] at hplaced
    rcases hplaced with hruns | ⟨_, _, habsent, hempty⟩
    · rw [hstopped] at hruns
      cases hruns.1
    · simp [horder, inHand, habsent, hempty]

/-- `Start`, in its three steps. -/
def started : List ReactorStep := [.start, .control, .control]

/-- Two reports, the second of them after `Stop` has begun. -/
theorem accepted_handled_late : ∃ s, Runs.Reaches step (fun s a => s.inTime a = true) (fresh {}) s ∧
    s.journal.accepted.length = 2 ∧ s.journal.taken = s.journal.accepted := by
  have hrun : ∃ s ∈ Runs.execWhile step (fun s a => s.inTime a = true) (fresh {})
      (started ++ [.publish (.order {}), .runOnce, .stop, .publish (.trade {}), .handle, .runOnce, .control,
        .handle, .runOnce, .control, .control]),
      s.control = .idle ∧ s.running = false ∧ s.journal.accepted.length = 2 := by decide +kernel
  obtain ⟨s, hs, hidle, hstopped, hlength⟩ := hrun
  have hreach := Runs.reaches_of_execWhile _ hs
  obtain ⟨_, _, _, _, hhandled⟩ := accepted_handled rfl hreach
  exact ⟨s, hreach, hlength, hhandled hidle hstopped⟩

/-- The thread is gone, and the lane still accepts. -/
theorem accepted_discarded : ¬∀ (policy : LanePolicy) (s : Reactor), policy.dropOldestOnFull = false →
    Runs.Reaches step Runs.anyStep (fresh policy) s → s.control = .idle → s.running = false →
    s.journal.taken.Perm s.journal.accepted := by
  intro hall
  have hrun : ∃ s ∈ Runs.exec step (fresh {})
      (started ++ [.stop, .runOnce, .publish (.trade {}), .control, .control, .control]),
      s.control = .idle ∧ s.running = false ∧ s.journal.taken.length = 0 ∧ s.journal.accepted.length = 1 := by
    decide +kernel
  obtain ⟨s, hs, hidle, hstopped, htaken, haccepted⟩ := hrun
  have hlength := (hall {} s rfl (Runs.reaches_of_exec _ hs) hidle hstopped).length_eq
  omega

end Reactor

end Qtrade.Engine
