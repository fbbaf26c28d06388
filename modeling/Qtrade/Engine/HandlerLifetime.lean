import Qtrade.Engine.LaneMoves

/-!
# Handlers and the lifetime of their dispatchers

A dispatcher takes its handlers from no lane. They stay until `Release` stops the lanes and clears them, which
is after the strategies are gone, and meanwhile the reactors drain what is queued.
-/

namespace Qtrade.Engine

namespace EventReactor

/-- Strategies are subscribed to such events. -/
def interests (s : EventReactor) (event : Ticket Event) : Bool :=
  (s.handlers event.item.type).any (·.isStrategies)

/-- A handler of strategies is still to be called for an event that is queued or in hand. -/
def engaged (s : EventReactor) : Bool :=
  match s.thread with
  | .absent | .exited => false
  | .waiting => s.queue.any s.interests
  | .holding event => s.interests event || s.queue.any s.interests
  | .handling _ rest => rest.any (·.isStrategies) || s.queue.any s.interests

end EventReactor

namespace EventLanes

/-- No reactor called a handler of a dispatcher that was gone. -/
def DispatchersAlive (s : EventLanes) : Prop :=
  ∀ number alive event told, .called number alive event told ∈ s.log → alive = true

/-- A dispatcher is made where there is none. The lanes are not engaged when it is destroyed, and no event
engages them before there is another. -/
def settled (s : EventLanes) : LaneAction → Bool
  | .control =>
    match s.pending with
    | .makeDispatcher :: _ => s.manager.dispatcher.isNone
    | .clearStrategies :: _ => !(s.lanes .quote).engaged && !(s.lanes .trader).engaged
    | _ => true
  | .publish event =>
    s.manager.dispatcher.isSome || !((s.lanes event.type.lane).publish ⟨s.published, event⟩).engaged
  | _ => true

/-! ## The invariant -/

/-- The handlers of strategies on the lanes are those of the dispatcher in force. Once it is gone, they are
still to be cleared, and no reactor gets to them. -/
structure Named (s : EventLanes) : Prop where
  subscribed : ∀ lane type number, .strategies number ∈ (s.lanes lane).handlers type →
    s.manager.dispatcher = some number ∨ s.manager.dispatcher = none ∧ .clearHandlers lane ∈ s.pending
  held : ∀ lane event rest number, (s.lanes lane).thread = .handling event rest → .strategies number ∈ rest →
    s.manager.dispatcher = some number
  free : s.manager.dispatcher = none → ∀ lane, (s.lanes lane).engaged = false

variable {s s' : EventLanes} {op : Op} {rest : List Op}

theorem any_isStrategies {handlers : List Handler} :
    handlers.any (·.isStrategies) = true ↔ ∃ number, .strategies number ∈ handlers := by
  rw [List.any_eq_true]
  constructor
  · rintro ⟨handler, hmem, hstrategies⟩
    cases handler with
    | books => cases hstrategies
    | strategies number => exact ⟨number, hmem⟩
  · rintro ⟨number, hmem⟩
    exact ⟨_, hmem, rfl⟩

theorem engaged_of_none {r : EventReactor} (hnone : ∀ type number, .strategies number ∉ r.handlers type)
    (hfree : r.isHandling = false) : r.engaged = false := by
  have hinterests : ∀ event, r.interests event = false := by
    intro event
    rw [← Bool.not_eq_true, EventReactor.interests, any_isStrategies]
    rintro ⟨number, hmem⟩
    exact hnone _ number hmem
  have hqueue : r.queue.any r.interests = false := List.any_eq_false.mpr fun event _ => by simp [hinterests]
  unfold EventReactor.isHandling at hfree
  unfold EventReactor.engaged
  split at hfree
  case h_1 => cases hfree
  case h_2 hno =>
    split
    case h_5 event held hthread => exact absurd hthread (hno event held)
    all_goals simp [hinterests, hqueue]

/-- The lanes keep their handlers, and what is queued and in hand there. -/
def Undisturbed (s s' : EventLanes) : Prop :=
  ∀ lane, (s'.lanes lane).handlers = (s.lanes lane).handlers ∧ (s'.lanes lane).thread = (s.lanes lane).thread ∧
    (s'.lanes lane).queue = (s.lanes lane).queue

theorem Undisturbed.engaged (h : Undisturbed s s') (lane : Lane) :
    (s'.lanes lane).engaged = (s.lanes lane).engaged := by
  obtain ⟨hhandlers, hthread, hqueue⟩ := h lane
  unfold EventReactor.engaged EventReactor.interests
  rw [hhandlers, hthread, hqueue]

theorem Named.undisturbed (h : s.Named) (hlanes : Undisturbed s s')
    (hd : s'.manager.dispatcher = s.manager.dispatcher)
    (hpending : ∀ lane, .clearHandlers lane ∈ s.pending → .clearHandlers lane ∈ s'.pending) : s'.Named := by
  refine ⟨?_, ?_, ?_⟩
  · intro lane type number hmem
    rw [(hlanes lane).1] at hmem
    rw [hd]
    exact (h.subscribed lane type number hmem).imp_right fun hgone => ⟨hgone.1, hpending lane hgone.2⟩
  · intro lane event held number hthread hmem
    rw [(hlanes lane).2.1] at hthread
    rw [hd]
    exact h.held lane event held number hthread hmem
  · intro hnone lane
    rw [hlanes.engaged]
    exact h.free (hd ▸ hnone) lane

theorem Named.none_subscribed (h : s.Named) (horderly : s.Orderly) (hpending : s.pending = op :: rest)
    (hkind : op.releases = false) (hnone : s.manager.dispatcher = none) (lane : Lane) (type : EventType)
    (number : Nat) : .strategies number ∉ (s.lanes lane).handlers type := by
  intro hmem
  rcases h.subscribed lane type number hmem with hd | ⟨_, hclears⟩
  · rw [hnone] at hd
    cases hd
  · rcases horderly.oneKind with hall | hall
    · have hop := hall op (by simp [hpending])
      rw [hkind] at hop
      cases hop
    · cases hall _ hclears

theorem Named.makeDispatcher (h : s.Named) (horderly : s.Orderly) (hpending : s.pending = .makeDispatcher :: rest)
    (hnone : s.manager.dispatcher = none) :
    Named { s with pending := rest, manager := s.manager.makeDispatcher } := by
  refine ⟨?_, ?_, fun hd => by cases hd⟩
  · intro lane type number hmem
    exact absurd hmem (h.none_subscribed horderly hpending rfl hnone lane type number)
  · intro lane event held number hthread hmem
    have hd := h.held lane event held number hthread hmem
    rw [hnone] at hd
    cases hd

theorem named_clearStrategies (horderly : s.Orderly) (hpending : s.pending = .clearStrategies :: rest)
    (hidle : ∀ lane, (s.lanes lane).engaged = false) :
    Named { s with pending := rest, manager := s.manager.clear } := by
  have horder := horderly.inOrder
  rw [hpending] at horder
  refine ⟨fun lane _ _ _ => Or.inr ⟨rfl, horder.1 lane⟩, ?_, fun _ => hidle⟩
  intro lane event held number hthread hmem
  have hengaged := hidle lane
  unfold EventReactor.engaged at hengaged
  have hthread : (s.lanes lane).thread = .handling event held := hthread
  rw [hthread, Bool.or_eq_false_iff] at hengaged
  have hsome := any_isStrategies.mpr ⟨number, hmem⟩
  rw [hengaged.1] at hsome
  cases hsome

theorem Named.onLane (h : s.Named) (lane : Lane) {f : EventReactor → EventReactor}
    (hsub : ∀ type number, .strategies number ∈ (f (s.lanes lane)).handlers type →
      s.manager.dispatcher = some number ∨ .strategies number ∈ (s.lanes lane).handlers type)
    (hheld : ∀ event rest number, (f (s.lanes lane)).thread = .handling event rest → .strategies number ∈ rest →
      s.manager.dispatcher = some number)
    (hfree : s.manager.dispatcher = none → (f (s.lanes lane)).engaged = false) : (s.onLane lane f).Named := by
  have hlanes : ∀ k, (s.onLane lane f).lanes k = if k = lane then f (s.lanes k) else s.lanes k := fun _ => rfl
  refine ⟨?_, ?_, ?_⟩
  · intro k type number hmem
    rw [hlanes] at hmem
    split at hmem
    case isTrue hk =>
      subst hk
      exact (hsub type number hmem).elim Or.inl (h.subscribed k type number)
    case isFalse => exact h.subscribed k type number hmem
  · intro k event rest number hthread hmem
    rw [hlanes] at hthread
    split at hthread
    case isTrue hk =>
      subst hk
      exact hheld event rest number hthread hmem
    case isFalse => exact h.held k event rest number hthread hmem
  · intro hnone k
    rw [hlanes]
    split
    case isTrue hk =>
      subst hk
      exact hfree hnone
    case isFalse => exact h.free hnone k

theorem Named.onLane_thread (h : s.Named) (lane : Lane) {f : EventReactor → EventReactor}
    (hhandlers : (f (s.lanes lane)).handlers = (s.lanes lane).handlers)
    (hthread : (f (s.lanes lane)).isHandling = false)
    (hfree : s.manager.dispatcher = none → (f (s.lanes lane)).engaged = false) : (s.onLane lane f).Named := by
  apply h.onLane lane _ _ hfree
  · intro type number hmem
    rw [hhandlers] at hmem
    exact Or.inr hmem
  · intro event rest number hheld _
    simp [EventReactor.isHandling, hheld] at hthread

theorem subscribe_interests {r : EventReactor} {type : EventType} {handler : Handler}
    (hbooks : handler.isStrategies = false) : (r.subscribe type handler).interests = r.interests := by
  funext event
  unfold EventReactor.interests EventReactor.subscribe
  dsimp only
  split
  · simp [hbooks]
  · rfl

theorem Named.subscribeBooks (h : s.Named) (type : EventType) :
    (s.onLane type.lane (·.subscribe type .books)).Named := by
  apply h.onLane
  · intro k number hmem
    unfold EventReactor.subscribe at hmem
    dsimp only at hmem
    split at hmem
    · exact Or.inr (by simpa using hmem)
    · exact Or.inr hmem
  · exact h.held type.lane
  · intro hnone
    have hfree := h.free hnone type.lane
    unfold EventReactor.engaged at hfree ⊢
    rw [subscribe_interests rfl]
    exact hfree

theorem Named.subscribe (h : s.Named) (type : EventType) {number : Nat} (hd : s.manager.dispatcher = some number) :
    (s.onLane type.lane (·.subscribe type (.strategies number))).Named := by
  apply h.onLane
  · intro k other hmem
    unfold EventReactor.subscribe at hmem
    dsimp only at hmem
    split at hmem
    · rcases List.mem_append.mp hmem with hold | hnew
      · exact Or.inr hold
      · cases List.mem_singleton.mp hnew
        exact Or.inl hd
    · exact Or.inr hmem
  · exact h.held type.lane
  · intro hnone
    rw [hd] at hnone
    cases hnone

theorem Named.clearHandlers (h : s.Named) {lane : Lane} (hpending : s.pending = .clearHandlers lane :: rest)
    (hidle : (s.lanes lane).isHandling = false) :
    (({ s with pending := rest } : EventLanes).onLane lane fun r => { r with handlers := fun _ => [] }).Named := by
  have hlanes : ∀ k, (({ s with pending := rest } : EventLanes).onLane lane fun r =>
      { r with handlers := fun _ => [] }).lanes k =
        if k = lane then { s.lanes k with handlers := fun _ => [] } else s.lanes k := fun _ => rfl
  refine ⟨?_, ?_, ?_⟩
  · intro k type number hmem
    rw [hlanes] at hmem
    split at hmem
    case isTrue => cases hmem
    case isFalse hk =>
      refine (h.subscribed k type number hmem).imp_right fun hgone => ⟨hgone.1, ?_⟩
      have hclears := hgone.2
      rw [hpending] at hclears
      exact (List.mem_cons.mp hclears).resolve_left fun heq => hk (Op.clearHandlers.inj heq)
  · intro k event held number hthread hmem
    rw [hlanes] at hthread
    split at hthread <;> exact h.held k event held number hthread hmem
  · intro hnone k
    rw [hlanes]
    split
    case isTrue hk =>
      subst hk
      exact engaged_of_none (fun _ _ hmem => by cases hmem) hidle
    case isFalse => exact h.free hnone k

theorem Named.perform (h : s.Named) (horderly : s.Orderly) (hpending : s.pending = op :: rest)
    (hok : s.settled .control = true) (hs : Performs { s with pending := rest } op s') : s'.Named := by
  have hpopped : ∀ {o : Op}, s.pending = o :: rest → (∀ lane, o ≠ .clearHandlers lane) →
      Named { s with pending := rest } := by
    intro o ho hne
    refine h.undisturbed (fun _ => ⟨rfl, rfl, rfl⟩) rfl ?_
    intro lane hmem
    rw [ho] at hmem
    exact (List.mem_cons.mp hmem).resolve_left (Ne.symm (hne lane))
  have hkeeps : (∀ lane, op ≠ .clearHandlers lane) → Undisturbed s s' →
      s'.manager.dispatcher = s.manager.dispatcher → s'.Named := fun hne hlanes hd =>
    h.undisturbed hlanes hd fun lane => hs.pending_mem hpending (hne lane)
  cases hs with
  | makeDispatcher =>
    have hnone : s.manager.dispatcher = none := by simpa [settled, hpending] using hok
    exact h.makeDispatcher horderly hpending hnone
  | clearStrategies =>
    have hidle : (s.lanes .quote).engaged = false ∧ (s.lanes .trader).engaged = false := by
      simpa [settled, hpending] using hok
    apply named_clearStrategies horderly hpending
    intro lane
    cases lane with
    | quote => exact hidle.1
    | trader => exact hidle.2
  | subscribe type number hd => exact (hpopped hpending fun _ h => by cases h).subscribe type hd
  | subscribeBooks type => exact (hpopped hpending fun _ h => by cases h).subscribeBooks type
  | spawn lane =>
    apply (hpopped hpending fun _ h => by cases h).onLane_thread lane rfl rfl
    intro hnone
    exact engaged_of_none (h.none_subscribed horderly hpending rfl hnone lane) rfl
  | join lane => exact (hpopped hpending fun _ h => by cases h).onLane_thread lane rfl rfl fun _ => rfl
  | clearQueue lane =>
    apply (hpopped hpending fun _ h => by cases h).onLane lane (fun _ _ => Or.inr) (h.held lane)
    intro hnone
    have hfree := h.free hnone lane
    unfold EventReactor.engaged at hfree ⊢
    dsimp only
    split at hfree <;> simp_all [EventReactor.interests]
  | clearHandlers lane hfree => exact h.clearHandlers hpending hfree
  | startLane lane | accept lane | stopLane lane | refuse lane =>
    refine hkeeps (fun _ h => by cases h) (fun k => ?_) rfl
    by_cases hk : k = lane <;> simp [EventLanes.onLane, hk]
  | startStrategies | startEngine => exact hkeeps (fun _ h => by cases h) (fun _ => ⟨rfl, rfl, rfl⟩) rfl
  | engine _ engine _ hop =>
    apply hkeeps _ (fun _ => ⟨rfl, rfl, rfl⟩) rfl
    rcases hop with rfl | rfl | ⟨world, rfl⟩ <;> exact fun _ h => by cases h
  | activate | deactivate =>
    exact hkeeps (fun _ h => by cases h) (fun _ => ⟨rfl, rfl, rfl⟩) StrategyManager.onDispatcher_dispatcher
  | skip _ hop =>
    apply hkeeps _ (fun _ => ⟨rfl, rfl, rfl⟩) rfl
    rcases hop with rfl | ⟨lane, rfl, _⟩ | ⟨lane, rfl, _⟩ <;> exact fun _ h => by cases h

theorem Named.publish (h : s.Named) {event : Event} (hok : s.settled (.publish event) = true) :
    (s.onLane event.type.lane (·.publish ⟨s.published, event⟩)).Named := by
  obtain ⟨hhandlers, hthread, _⟩ := publish_keeps (s.lanes event.type.lane) ⟨s.published, event⟩
  apply h.onLane
  · intro type number hmem
    rw [hhandlers] at hmem
    exact Or.inr hmem
  · intro held rest number hheld hmem
    rw [hthread] at hheld
    exact h.held _ held rest number hheld hmem
  · intro hnone
    simpa [settled, hnone] using hok

theorem Named.advance (h : s.Named) (lane : Lane) {f : EventReactor → EventReactor}
    (hhandlers : (f (s.lanes lane)).handlers = (s.lanes lane).handlers)
    (hrest : ∀ event rest, (f (s.lanes lane)).thread = .handling event rest →
      rest ⊆ (s.lanes lane).handlers event.item.type ∨
        ∃ held, (s.lanes lane).thread = .handling event held ∧ rest ⊆ held)
    (hengaged : (s.lanes lane).engaged = false → (f (s.lanes lane)).engaged = false) :
    (s.onLane lane f).Named := by
  apply h.onLane lane
  · intro type number hmem
    rw [hhandlers] at hmem
    exact Or.inr hmem
  · intro event rest number hthread hmem
    rcases hrest event rest hthread with hsub | ⟨held, hheld, hsub⟩
    · rcases h.subscribed lane _ number (hsub hmem) with hd | ⟨hnone, _⟩
      · exact hd
      · -- a lane that is not engaged has nobody to call
        have hfree := hengaged (h.free hnone lane)
        unfold EventReactor.engaged at hfree
        rw [hthread, Bool.or_eq_false_iff] at hfree
        have hsome := any_isStrategies.mpr ⟨number, hmem⟩
        rw [hfree.1] at hsome
        cases hsome
    · exact h.held lane event held number hheld (hsub hmem)
  · exact fun hnone => hengaged (h.free hnone lane)

theorem Named.step {a : LaneAction} (h : s.Named) (horderly : s.Orderly) (hok : s.settled a = true)
    (hs : Moves s a s') : s'.Named := by
  have hidle : s.pending = [] → ∀ {engine : TradingEngine} {manager : StrategyManager} {pending : List Op},
      manager.dispatcher = s.manager.dispatcher → Named { s with engine, manager, pending } := by
    intro hrest engine manager pending hd
    refine h.undisturbed (fun _ => ⟨rfl, rfl, rfl⟩) hd fun lane hmem => ?_
    rw [hrest] at hmem
    cases hmem
  cases hs with
  | engine => exact h.undisturbed (fun _ => ⟨rfl, rfl, rfl⟩) rfl fun _ hmem => hmem
  | release _ engine pending hrest => exact hidle hrest rfl
  | register _ manager pending hrest _ hmanager => exact hidle hrest (hmanager horderly.manager).2
  | start _ engine world hrest => exact hidle hrest rfl
  | operate op rest _ hpending hs => exact h.perform horderly hpending hok hs
  | publish event =>
    exact (h.publish hok).undisturbed (fun _ => ⟨rfl, rfl, rfl⟩) rfl fun _ hmem => hmem
  | takes lane event queue hwaiting hqueue =>
    apply h.advance lane rfl fun _ _ hthread => by cases hthread
    intro hfree
    unfold EventReactor.engaged at hfree ⊢
    rw [hwaiting, hqueue] at hfree
    simpa [EventReactor.interests] using hfree
  | exits lane => exact h.advance lane rfl (fun _ _ hthread => by cases hthread) fun _ => rfl
  | enters lane event hholding =>
    apply h.advance lane rfl
    · intro event' rest hthread
      cases hthread
      exact Or.inl fun _ hmem => hmem
    · intro hfree
      unfold EventReactor.engaged at hfree ⊢
      rw [hholding] at hfree
      exact hfree
  | calls lane event handler rest hhandling =>
    obtain ⟨hlanes, hpending, hmanager, _⟩ := s.called_keeps event handler
    have hcalled : (s.called event handler).Named := by
      refine h.undisturbed (fun k => ?_) (by rw [hmanager]) (by simp [hpending])
      rw [hlanes]
      exact ⟨rfl, rfl, rfl⟩
    rw [← hlanes] at hhandling
    apply hcalled.advance lane rfl
    · intro event' rest' hthread
      cases hthread
      exact Or.inr ⟨_, hhandling, List.subset_cons_self _ _⟩
    · intro hfree
      unfold EventReactor.engaged at hfree ⊢
      rw [hhandling] at hfree
      simp only [List.any_cons, Bool.or_eq_false_iff] at hfree ⊢
      exact ⟨hfree.1.2, hfree.2⟩
  | returns lane event hhandling =>
    apply h.advance lane rfl fun _ _ hthread => by cases hthread
    intro hfree
    unfold EventReactor.engaged at hfree ⊢
    rw [hhandling] at hfree
    exact hfree

structure Inv (s : EventLanes) : Prop where
  orderly : s.Orderly
  named : s.Named
  alive : s.DispatchersAlive

/-- A handler that is called next is of the dispatcher in force. -/
theorem step_alive {a : LaneAction} (h : s.Inv) (hs : Moves s a s') : s'.DispatchersAlive := by
  have hsame : s'.log = s.log → s'.DispatchersAlive := fun hlog => by
    unfold DispatchersAlive
    rw [hlog]
    exact h.alive
  cases hs with
  | operate op rest _ hpending hs => exact hsame hs.log
  | calls lane event handler rest hhandling =>
    cases handler with
    | books =>
      intro number alive event' told hmem
      have hmem : .called number alive event' told ∈ (s.called event .books).log := hmem
      unfold called at hmem
      dsimp only at hmem
      split at hmem
      · exact h.alive _ _ _ _ ((List.mem_cons.mp hmem).resolve_left fun heq => by cases heq)
      · exact h.alive _ _ _ _ hmem
    | strategies current =>
      intro number alive event' told hmem
      rcases List.mem_cons.mp hmem with hnew | hold
      · cases hnew
        exact h.orderly.manager.isAlive (h.named.held lane event _ current hhandling List.mem_cons_self)
      · exact h.alive _ _ _ _ hold
  | _ => exact hsame rfl

theorem step_inv {a : LaneAction} (h : s.Inv) (hok : s.settled a = true) (hs : s.step a = some s') : s'.Inv := by
  have hmoves := step_moves hs
  exact ⟨h.orderly.step hmoves, h.named.step h.orderly hok hmoves, step_alive h hmoves⟩

theorem opening_inv (policies : Lane → LanePolicy) : (opening policies).Inv := by
  refine ⟨opening_orderly policies, ⟨?_, ?_, fun _ _ => rfl⟩, ?_⟩
  · intro lane type number hmem
    cases hmem
  · intro lane event rest number hthread
    cases hthread
  · intro number alive event told hmem
    cases hmem

/-! ## No call of a destroyed dispatcher -/

/-- In every run that stays settled, whatever handler of strategies a reactor calls, its dispatcher is there. -/
theorem handlers_alive {policies : Lane → LanePolicy}
    (h : Runs.Reaches step (fun s a => s.settled a = true) (opening policies) s) : s.DispatchersAlive := by
  have hinv : s.Inv := by
    apply h.invariant
    · exact opening_inv policies
    · intro s a s' hinv hok hs
      exact step_inv hinv hok hs
  exact hinv.alive

/-- A tick is handled to its end before `Stop`. -/
theorem handlers_alive_handled : ∃ s, Runs.Reaches step (fun s a => s.settled a = true) (opening fun _ => {}) s ∧
    s.log = [.called 0 true ⟨0, .tick "a"⟩ ["s"]] ∧ s.manager.dispatcher = none ∧ s.DispatchersAlive := by
  have hrun : ∃ s ∈ Runs.execWhile step (fun s a => s.settled a = true) (opening fun _ => {})
      (boot ++ [.addStrategy { strategyId := "s", enabled := true } true true, .start {}] ++
        List.replicate 17 .control ++
        [.publish (.tick "a"), .runOnce .quote, .enter .quote, .call .quote, .call .quote, .stop] ++
        List.replicate 2 .control),
      s.log = [.called 0 true ⟨0, .tick "a"⟩ ["s"]] ∧ s.manager.dispatcher = none := by decide +kernel
  obtain ⟨s, hs, hlog, hnone⟩ := hrun
  have hreach := Runs.reaches_of_execWhile _ hs
  exact ⟨s, hreach, hlog, hnone, handlers_alive hreach⟩

/-- A tick waits in the lane when `Stop` begins. -/
theorem handler_outlives : ¬∀ (policies : Lane → LanePolicy) (s : EventLanes),
    Runs.Reaches step Runs.anyStep (opening policies) s → s.DispatchersAlive := by
  intro hall
  have hrun : ∃ s ∈ Runs.exec step (opening fun _ => {})
      (boot ++ [.addStrategy { strategyId := "s", enabled := true } true true, .start {}] ++
        List.replicate 17 .control ++ [.publish (.tick "a"), .stop] ++ List.replicate 2 .control ++
        [.runOnce .quote, .enter .quote, .call .quote]),
      .called 0 false ⟨0, .tick "a"⟩ [] ∈ s.log := by decide +kernel
  obtain ⟨s, hs, hcalled⟩ := hrun
  have halive := hall _ s (Runs.reaches_of_exec _ hs) _ _ _ _ hcalled
  cases halive

end EventLanes

end Qtrade.Engine
