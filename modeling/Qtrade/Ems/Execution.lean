import Qtrade.Ems
import Qtrade.Lib.Journal
import Qtrade.Lib.Runs

/-!
# The execution manager's worker

Any number of threads enqueue, the worker of `Run` takes from the front, and one control thread calls
`Start` and `Stop`. A step is one hold of the mutex, or the join. What the worker does with an item does
not touch the deque, and is one step here.
-/

namespace Qtrade.Ems

/-- What `Run` finds when it holds the mutex: the wait goes on, the thread ends, or there is an item. -/
inductive Wakeup
  | wait
  | finish
  | take (item : WorkItem) (rest : List WorkItem)

namespace ExecutionManager

def wakeup (s : ExecutionManager) : Wakeup :=
  match s.pendingItems with
  | [] => if s.running then .wait else .finish
  | item :: rest => .take item rest

end ExecutionManager

/-- Where the worker thread is. -/
inductive WorkerPc
  | absent
  | waiting
  | working (item : WorkItem)
  | returned
deriving DecidableEq

/-- Where `Stop` is. -/
inductive ControlPc
  | idle
  | joining
  | clearing
deriving DecidableEq

/-- The manager with its threads. The journal and the tickets of the waiting items are for the proofs. -/
structure Execution where
  ems : ExecutionManager := {}
  worker : WorkerPc := .absent
  control : ControlPc := .idle
  waiting : List (Ticket WorkItem) := []
  journal : Journal WorkItem := []

inductive ExecutionStep
  | start
  | stop
  | join
  | clear
  | setTraderApi (set : Bool)
  | enqueue (order : Order)
  | enqueueCancel (request : CancelOrderRequest)
  | wake
  | work
deriving DecidableEq

/-- New orders, as opposed to cancels. -/
def isSend (ticket : Ticket WorkItem) : Bool :=
  match ticket.item with
  | .send _ => true
  | .cancel _ => false

namespace Execution

/-- The worker's next hold of the mutex. -/
def wake (s : Execution) : Option Execution :=
  match s.ems.wakeup, s.waiting with
  | .finish, _ => some { s with worker := .returned }
  | .take item pendingItems, ticket :: waiting =>
    some { s with
      ems.pendingItems := pendingItems
      worker := .working item
      waiting
      journal := .taken ticket :: s.journal }
  | _, _ => none

def step (s : Execution) : ExecutionStep → Option Execution
  | .start =>
    if s.control = .idle then
      some (if s.ems.running then s else { s with ems.running := true, worker := .waiting })
    else none
  | .stop =>
    if s.control = .idle then
      some (if s.ems.running then { s with ems.running := false, control := .joining } else s)
    else none
  | .join =>
    if s.control = .joining ∧ s.worker = .returned then some { s with worker := .absent, control := .clearing }
    else none
  | .clear =>
    if s.control = .clearing then some { s with ems.pendingItems := [], waiting := [], control := .idle } else none
  | .setTraderApi set => some { s with ems.traderApi := set }
  | .enqueue order =>
    let result := s.ems.enqueue order
    let ticket := s.journal.ticket (.send order)
    some (if result.1 = .success then
        { s with ems := result.2, waiting := s.waiting ++ [ticket], journal := .accepted ticket :: s.journal }
      else { s with ems := result.2 })
  | .enqueueCancel request =>
    let result := s.ems.enqueueCancel request
    let ticket := s.journal.ticket (.cancel request)
    some (if result.1 = .success then
        { s with ems := result.2, waiting := ticket :: s.waiting, journal := .accepted ticket :: s.journal }
      else { s with ems := result.2 })
  | .wake => if s.worker = .waiting then s.wake else none
  | .work =>
    match s.worker with
    | .working _ => some { s with worker := .waiting }
    | _ => none

/-! ## The invariant -/

/-- Whenever a new order is taken, every cancel accepted so far has been taken. -/
def CancelsFirst : Journal WorkItem → Prop
  | [] => True
  | .accepted _ :: past => CancelsFirst past
  | .taken ticket :: past =>
    (isSend ticket = true → ∀ cancel, isSend cancel = false → .accepted cancel ∈ past → .taken cancel ∈ past) ∧
      CancelsFirst past

/-- Where the threads can be, and when the deque is empty. -/
def Placed (s : Execution) : Prop :=
  match s.control with
  | .idle =>
    if s.ems.running then s.worker ≠ .absent ∧ s.worker ≠ .returned else s.worker = .absent ∧ s.waiting = []
  | .joining => s.ems.running = false ∧ s.worker ≠ .absent ∧ (s.worker = .returned → s.waiting = [])
  | .clearing => s.ems.running = false ∧ s.worker = .absent ∧ s.waiting = []

structure Inv (s : Execution) : Prop where
  labels : s.waiting.map (·.item) = s.ems.pendingItems
  keeps : s.journal.Keeps s.waiting
  inOrder : s.journal.InOrder isSend s.waiting
  front : s.waiting.Pairwise fun a b => isSend a = true → isSend b = true
  room : s.ems.pendingItems.length ≤ queueCapacity
  cancelsFirst : CancelsFirst s.journal
  placed : s.Placed

variable {s s' : Execution}

theorem inv_initial : ({} : Execution).Inv :=
  ⟨rfl, Journal.keeps_nil, rfl, .nil, Nat.zero_le _, trivial, rfl, rfl⟩

theorem admits_success {ems : ExecutionManager} (h : ems.admits = .success) :
    ems.running = true ∧ ems.pendingItems.length < queueCapacity := by
  unfold ExecutionManager.admits at h
  split at h
  · cases h
  · split at h
    · cases h
    · simp_all

theorem Placed.of_running (h : s.Placed) (hrunning : s.ems.running = true) (hrunning' : s'.ems.running = true)
    (hworker : s'.worker = s.worker) (hcontrol : s'.control = s.control) : s'.Placed := by
  unfold Placed at h ⊢
  rw [hcontrol, hworker, hrunning']
  rw [hrunning] at h
  split at h
  case h_1 => exact h
  all_goals exact absurd h.1 (by decide)

theorem Placed.of_busy (h : s.Placed) (habsent : s.worker ≠ .absent) (habsent' : s'.worker ≠ .absent)
    (hreturned' : s'.worker ≠ .returned) (hrunning : s'.ems.running = s.ems.running)
    (hcontrol : s'.control = s.control) : s'.Placed := by
  unfold Placed at h ⊢
  rw [hcontrol, hrunning]
  split at h
  case h_1 =>
    split at h
    case isTrue hruns =>
      rw [hruns]
      exact ⟨habsent', hreturned'⟩
    case isFalse => exact absurd h.1 habsent
  case h_2 => exact ⟨h.1, habsent', fun hreturned => absurd hreturned hreturned'⟩
  case h_3 => exact absurd h.2.1 habsent

theorem Inv.enqueue (h : s.Inv) {order : Order} (hs : s.step (.enqueue order) = some s') : s'.Inv := by
  obtain rfl := Option.some.inj hs
  unfold ExecutionManager.enqueue
  by_cases hadmits : s.ems.admits = .success
  · rw [if_pos hadmits, if_pos rfl]
    obtain ⟨hrunning, hroom⟩ := admits_success hadmits
    refine ⟨?_, h.keeps.accept_back _, h.inOrder.accept_back _, ?_, ?_, h.cancelsFirst, ?_⟩
    · simp [h.labels, Journal.ticket]
    · apply List.pairwise_append.mpr
      exact ⟨h.front, List.pairwise_singleton _ _, fun a _ b hb _ => by rw [List.mem_singleton.mp hb]; rfl⟩
    · simp only [List.length_append, List.length_singleton]
      omega
    · exact h.placed.of_running hrunning hrunning rfl rfl
  · rw [if_neg hadmits, if_neg hadmits]
    exact h

theorem Inv.enqueueCancel (h : s.Inv) {request : CancelOrderRequest}
    (hs : s.step (.enqueueCancel request) = some s') : s'.Inv := by
  obtain rfl := Option.some.inj hs
  unfold ExecutionManager.enqueueCancel
  by_cases hadmits : s.ems.admits = .success
  · rw [if_pos hadmits, if_pos rfl]
    obtain ⟨hrunning, hroom⟩ := admits_success hadmits
    refine ⟨?_, h.keeps.accept_front _, h.inOrder.accept_front rfl, ?_, ?_, h.cancelsFirst, ?_⟩
    · simp [h.labels, Journal.ticket]
    · exact List.pairwise_cons.mpr ⟨fun _ _ hsend => absurd hsend Bool.false_ne_true, h.front⟩
    · simp only [List.length_cons]
      omega
    · exact h.placed.of_running hrunning hrunning rfl rfl
  · rw [if_neg hadmits, if_neg hadmits]
    exact h

theorem wake_cases (h : s.Inv) (hs : s.wake = some s') :
    (s.ems.running = false ∧ s.waiting = [] ∧ s' = { s with worker := .returned }) ∨
    ∃ ticket rest, s.waiting = ticket :: rest ∧
      s' = { s with
        ems.pendingItems := rest.map (·.item)
        worker := .working ticket.item
        waiting := rest
        journal := .taken ticket :: s.journal } := by
  have hlabels := h.labels
  unfold wake ExecutionManager.wakeup at hs
  rw [← hlabels] at hs
  cases hwaiting : s.waiting with
  | nil =>
    rw [hwaiting] at hs
    dsimp only [List.map_nil] at hs
    cases hrunning : s.ems.running with
    | true => simp [hrunning] at hs
    | false =>
      simp only [hrunning] at hs
      exact Or.inl ⟨rfl, rfl, (Option.some.inj hs).symm⟩
  | cons ticket rest =>
    rw [hwaiting] at hs
    exact Or.inr ⟨ticket, rest, rfl, (Option.some.inj hs).symm⟩

theorem Inv.wake (h : s.Inv) (hs : s.step .wake = some s') : s'.Inv := by
  rw [step] at hs
  obtain ⟨hworker, hs⟩ := Option.ite_none_right_eq_some.mp hs
  have hplaced := h.placed
  unfold Placed at hplaced
  rcases wake_cases h hs with ⟨hstopped, hempty, rfl⟩ | ⟨ticket, rest, hwaiting, rfl⟩
  · refine ⟨h.labels, h.keeps, h.inOrder, h.front, h.room, h.cancelsFirst, ?_⟩
    unfold Placed
    split at hplaced
    case h_1 hidle => simp [hstopped, hworker] at hplaced
    case h_2 hjoining =>
      simp only [hjoining]
      exact ⟨hstopped, by simp, fun _ => hempty⟩
    case h_3 => simp [hworker] at hplaced
  · have hfront := h.front
    have hkeeps := h.keeps
    rw [hwaiting] at hfront hkeeps
    obtain ⟨hhead, hrest⟩ := List.pairwise_cons.mp hfront
    have hroom : s.ems.pendingItems.length = rest.length + 1 := by rw [← h.labels, hwaiting]; simp
    have hinOrder := h.inOrder
    rw [hwaiting] at hinOrder
    refine ⟨rfl, hkeeps.take, hinOrder.take, hrest, ?_, ⟨?_, h.cancelsFirst⟩, ?_⟩
    · have := h.room
      simp only [List.length_map]
      omega
    · intro hsend cancel hcancel hmem
      -- Behind a new order only new orders wait, so the cancel is not there any more.
      rcases List.mem_append.mp (hkeeps.balanced.mem_iff.mpr (Journal.mem_accepted.mpr hmem)) with htaken | hwaits
      · exact Journal.mem_taken.mp htaken
      · rcases List.mem_cons.mp hwaits with rfl | hbehind
        · rw [hcancel] at hsend
          cases hsend
        · rw [hhead cancel hbehind hsend] at hcancel
          cases hcancel
    · apply h.placed.of_busy <;> simp [hworker]

theorem step_inv (h : s.Inv) {a : ExecutionStep} (hs : s.step a = some s') : s'.Inv := by
  have hplaced := h.placed
  unfold Placed at hplaced
  cases a with
  | enqueue order => exact h.enqueue hs
  | enqueueCancel request => exact h.enqueueCancel hs
  | wake => exact h.wake hs
  | setTraderApi set =>
    cases hs
    exact ⟨h.labels, h.keeps, h.inOrder, h.front, h.room, h.cancelsFirst, h.placed⟩
  | start =>
    rw [step] at hs
    obtain ⟨hidle, hs⟩ := Option.ite_none_right_eq_some.mp hs
    cases hs
    split
    case isTrue => exact h
    case isFalse hstopped =>
      refine ⟨h.labels, h.keeps, h.inOrder, h.front, h.room, h.cancelsFirst, ?_⟩
      simp [Placed, hidle]
  | stop =>
    rw [step] at hs
    obtain ⟨hidle, hs⟩ := Option.ite_none_right_eq_some.mp hs
    cases hs
    split
    case isTrue hrunning =>
      refine ⟨h.labels, h.keeps, h.inOrder, h.front, h.room, h.cancelsFirst, ?_⟩
      simp only [hidle, hrunning, if_true] at hplaced
      exact ⟨rfl, hplaced.1, fun hreturned => absurd hreturned hplaced.2⟩
    case isFalse => exact h
  | join =>
    rw [step] at hs
    obtain ⟨⟨hjoining, hreturned⟩, hs⟩ := Option.ite_none_right_eq_some.mp hs
    cases hs
    refine ⟨h.labels, h.keeps, h.inOrder, h.front, h.room, h.cancelsFirst, ?_⟩
    simp only [hjoining] at hplaced
    exact ⟨hplaced.1, rfl, hplaced.2.2 hreturned⟩
  | clear =>
    rw [step] at hs
    obtain ⟨hclearing, hs⟩ := Option.ite_none_right_eq_some.mp hs
    cases hs
    simp only [hclearing] at hplaced
    obtain ⟨hstopped, habsent, hempty⟩ := hplaced
    have hkeeps := h.keeps
    have hinOrder := h.inOrder
    rw [hempty] at hkeeps hinOrder
    refine ⟨rfl, hkeeps, hinOrder, .nil, Nat.zero_le _, h.cancelsFirst, ?_⟩
    simp [Placed, hstopped, habsent]
  | work =>
    rw [step] at hs
    split at hs
    case h_1 item hworking =>
      cases hs
      refine ⟨h.labels, h.keeps, h.inOrder, h.front, h.room, h.cancelsFirst, ?_⟩
      apply h.placed.of_busy <;> simp [hworking]
    case h_2 => cases hs

theorem inv_of_reaches (h : Runs.Reaches step Runs.anyStep {} s) : s.Inv := by
  apply h.invariant inv_initial
  intro s a s' hinv _ hs
  exact step_inv hinv hs

theorem CancelsFirst.taken {before after : Journal WorkItem} {order : Ticket WorkItem}
    (h : CancelsFirst (after ++ .taken order :: before)) (hsend : isSend order = true) {cancel : Ticket WorkItem}
    (hcancel : isSend cancel = false) (hmem : .accepted cancel ∈ before) : .taken cancel ∈ before := by
  induction after with
  | nil => exact h.1 hsend cancel hcancel hmem
  | cons entry after ih =>
    cases entry with
    | accepted => exact ih h
    | taken => exact ih h.2

/-- The tickets are those of the deque, no two acceptances share one, and what was accepted is what was taken
and what still waits. `Stop` clears an empty deque, and when it has returned all that was accepted was taken.
New orders come out in the order of their acceptance, a cancel before every new order that is taken after the
cancel was accepted, and the deque keeps to its capacity. -/
theorem executed_once (h : Runs.Reaches step Runs.anyStep {} s) :
    s.waiting.map (·.item) = s.ems.pendingItems ∧ s.journal.accepted.Nodup ∧
    (s.journal.taken ++ s.waiting).Perm s.journal.accepted ∧
    (s.control = .clearing → s.ems.pendingItems = []) ∧
    (s.control = .idle → s.ems.running = false → s.journal.taken.Perm s.journal.accepted) ∧
    s.journal.taken.filter isSend <+: s.journal.accepted.filter isSend ∧
    (∀ before after order cancel, s.journal = after ++ .taken order :: before → isSend order = true →
      isSend cancel = false → .accepted cancel ∈ before → .taken cancel ∈ before) ∧
    s.ems.pendingItems.length ≤ queueCapacity := by
  have hinv := inv_of_reaches h
  have hplaced := hinv.placed
  unfold Placed at hplaced
  refine ⟨hinv.labels, hinv.keeps.nodup, hinv.keeps.balanced, ?_, ?_, hinv.inOrder.isPrefix, ?_, hinv.room⟩
  · intro hclearing
    simp only [hclearing] at hplaced
    rw [← hinv.labels, hplaced.2.2, List.map_nil]
  · intro hidle hstopped
    simp only [hidle, hstopped, Bool.false_eq_true, if_false] at hplaced
    have hbalanced := hinv.keeps.balanced
    rwa [hplaced.2, List.append_nil] at hbalanced
  · intro before after order cancel hjournal hsend hcancel hmem
    have hfirst := hinv.cancelsFirst
    rw [hjournal] at hfirst
    exact hfirst.taken hsend hcancel hmem

/-- Two orders, and the cancel of one of them, with `Stop` while the second order and the cancel wait. -/
theorem executed_once_stopped : ∃ s : Execution, Runs.Reaches step Runs.anyStep {} s ∧
    s.journal.accepted.length = 3 ∧ s.journal.taken.Perm s.journal.accepted := by
  have hrun : ∃ s ∈ Runs.exec step {} [.setTraderApi true, .start, .enqueue { orderId := "a" }, .wake,
      .enqueue { orderId := "b" }, .enqueueCancel { orderId := "a" }, .stop, .work, .wake, .work, .wake, .work,
      .wake, .join, .clear],
      s.control = .idle ∧ s.ems.running = false ∧ s.journal.accepted.length = 3 := by decide +kernel
  obtain ⟨s, hs, hidle, hstopped, hlength⟩ := hrun
  have hreach := Runs.reaches_of_exec _ hs
  obtain ⟨_, _, _, _, hexecuted, _⟩ := executed_once hreach
  exact ⟨s, hreach, hlength, hexecuted hidle hstopped⟩

end Execution

end Qtrade.Ems
