import Qtrade.Engine.EventLanes

/-!
# What the steps of the lanes can do

Every step of `EventLanes` as one of a few cases, and what all of them keep.
-/

namespace Qtrade.Engine

namespace Op

/-! ## The order of the operations -/

/-- The operations of `Stop` and of a failed `Init`. -/
def releases : Op → Bool
  | .deactivate | .clearStrategies | .stopLane _ | .refuse _ | .join _ | .clearQueue _ | .clearHandlers _
  | .releaseModules | .becomeStopped => true
  | _ => false

/-- What an operation does to the engine apart from its lanes. -/
def onEngine (s : TradingEngine) : Op → TradingEngine
  | .startEngine => s.startEngineModules
  | .advanceReadyGates world => s.advanceReadyGates world
  | .releaseModules => s.release
  | .becomeStopped => s.becomeStopped
  | _ => s

/-- What must come after an operation, and what must not. -/
def Leaves : Op → List Op → Prop
  | .clearStrategies, rest => ∀ lane, .clearHandlers lane ∈ rest
  | .clearHandlers _, rest => .clearStrategies ∉ rest
  | .startLane _, rest => .startEngine ∈ rest ∧ ∀ type, .subscribeBooks type ∉ rest
  | _, _ => True

def InOrder : List Op → Prop
  | [] => True
  | op :: rest => op.Leaves rest ∧ InOrder rest

theorem dispatcherOps_inOrder : InOrder dispatcherOps := by simp [InOrder, dispatcherOps, Leaves]

theorem startOps_inOrder (world : Surroundings) : InOrder (startOps world) := by
  simp [InOrder, startOps, Leaves]

theorem releaseOps_inOrder : InOrder releaseOps := by
  have hboth : ∀ lane : Lane, lane = .trader ∨ lane = .quote := fun lane => by cases lane <;> simp
  simp [InOrder, releaseOps, Leaves, hboth]

theorem stopOps_inOrder : InOrder (releaseOps ++ [.becomeStopped]) := by
  have hboth : ∀ lane : Lane, lane = .trader ∨ lane = .quote := fun lane => by cases lane <;> simp
  simp [InOrder, releaseOps, Leaves, hboth]

/-- What an operation may turn into. -/
def brings : Op → List Op
  | .startStrategies => dispatcherOps ++ [.activate]
  | .startLane lane => [.accept lane, .spawn lane]
  | .stopLane lane => [.refuse lane, .join lane, .clearQueue lane]
  | _ => []

theorem brings_releases {op o : Op} (h : o ∈ op.brings) : o.releases = op.releases := by
  revert h
  cases op <;> simp +contextual [brings, dispatcherOps, or_imp, releases]

theorem brings_leaves {op o : Op} (h : o ∈ op.brings) (rest : List Op) : o.Leaves rest := by
  revert h
  cases op <;> simp +contextual [brings, dispatcherOps, or_imp, Leaves]

theorem InOrder.append {more rest : List Op} (hmore : ∀ op ∈ more, ∀ rest, op.Leaves rest) (h : InOrder rest) :
    InOrder (more ++ rest) := by
  induction more with
  | nil => exact h
  | cons op more ih =>
    rw [List.forall_mem_cons] at hmore
    exact ⟨hmore.1 _, ih hmore.2⟩

end Op

namespace EventLanes

variable {s s' : EventLanes} {op : Op} {rest : List Op}

/-- All that an operation can do. -/
inductive Performs (s : EventLanes) : Op → EventLanes → Prop
  | makeDispatcher : Performs s .makeDispatcher { s with manager := s.manager.makeDispatcher }
  | startStrategies (hidle : s.manager.running = false) : Performs s .startStrategies
      { s with pending := (if s.manager.dispatcher.isSome then [] else Op.dispatcherOps) ++ .activate :: s.pending }
  | subscribe (type : EventType) (number : Nat) (hd : s.manager.dispatcher = some number)
      (hfree : (s.lanes type.lane).isHandling = false) :
      Performs s (.subscribe type) (s.onLane type.lane (·.subscribe type (.strategies number)))
  | activate : Performs s .activate { s with manager := s.manager.activate }
  | subscribeBooks (type : EventType) (hfree : (s.lanes type.lane).isHandling = false) :
      Performs s (.subscribeBooks type) (s.onLane type.lane (·.subscribe type .books))
  | startLane (lane : Lane) (hstopped : (s.lanes lane).running = false) : Performs s (.startLane lane)
      { s.onLane lane fun r => { r with running := true } with
        pending := [.accept lane, .spawn lane] ++ s.pending }
  | accept (lane : Lane) : Performs s (.accept lane) (s.onLane lane fun r => { r with accepting := true })
  | spawn (lane : Lane) : Performs s (.spawn lane) (s.onLane lane fun r => { r with thread := .waiting })
  | startEngine : Performs s .startEngine { s with engine := s.engine.startEngineModules }
  | engine (op : Op) (engine : TradingEngine) (hrunning : engine.running = s.engine.running)
      (hop : op = .releaseModules ∨ op = .becomeStopped ∨ ∃ world, op = .advanceReadyGates world) :
      Performs s op { s with engine }
  | deactivate : Performs s .deactivate { s with manager := s.manager.deactivate }
  | clearStrategies : Performs s .clearStrategies { s with manager := s.manager.clear }
  | stopLane (lane : Lane) (hrunning : (s.lanes lane).running = true) : Performs s (.stopLane lane)
      { s.onLane lane fun r => { r with running := false } with
        pending := [.refuse lane, .join lane, .clearQueue lane] ++ s.pending }
  | refuse (lane : Lane) : Performs s (.refuse lane) (s.onLane lane fun r => { r with accepting := false })
  | join (lane : Lane) (hexited : (s.lanes lane).thread = .exited) :
      Performs s (.join lane) (s.onLane lane fun r => { r with thread := .absent })
  | clearQueue (lane : Lane) : Performs s (.clearQueue lane) (s.onLane lane fun r => { r with queue := [] })
  | clearHandlers (lane : Lane) (hfree : (s.lanes lane).isHandling = false) :
      Performs s (.clearHandlers lane) (s.onLane lane fun r => { r with handlers := fun _ => [] })
  | skip (op : Op) (hop : op = .startStrategies ∨ (∃ lane, op = .startLane lane ∧ (s.lanes lane).running = true) ∨
      ∃ lane, op = .stopLane lane ∧ (s.lanes lane).running = false) : Performs s op s

theorem subscribe_cases {type : EventType} {handler : Handler} (hs : s.subscribe type handler = some s') :
    (s.lanes type.lane).isHandling = false ∧ s' = s.onLane type.lane (·.subscribe type handler) := by
  unfold subscribe at hs
  split at hs
  case isTrue => cases hs
  case isFalse hfree => exact ⟨by simpa using hfree, (Option.some.inj hs).symm⟩

theorem advanceReadyGates_running (engine : TradingEngine) (world : Surroundings) :
    (engine.advanceReadyGates world).running = engine.running := by
  unfold TradingEngine.advanceReadyGates
  split
  · exact (TradingEngine.onMarketHealthChanged_keeps engine true).running
  · rfl

theorem perform_performs (hs : s.perform op = some s') : Performs s op s' := by
  cases op with
  | makeDispatcher => cases hs; exact .makeDispatcher
  | startStrategies =>
    cases hs
    split
    case isTrue => exact .skip _ (Or.inl rfl)
    case isFalse hidle => exact .startStrategies (by simpa using hidle)
  | subscribe type =>
    rw [perform] at hs
    split at hs
    case h_1 number hd =>
      obtain ⟨hfree, rfl⟩ := subscribe_cases hs
      exact .subscribe type number hd hfree
    case h_2 => cases hs
  | activate => cases hs; exact .activate
  | subscribeBooks type =>
    obtain ⟨hfree, rfl⟩ := subscribe_cases hs
    exact .subscribeBooks type hfree
  | startLane lane =>
    cases hs
    split
    case isTrue hrunning => exact .skip _ (Or.inr (Or.inl ⟨lane, rfl, hrunning⟩))
    case isFalse hstopped => exact .startLane lane (by simpa using hstopped)
  | accept lane => cases hs; exact .accept lane
  | spawn lane => cases hs; exact .spawn lane
  | startEngine => cases hs; exact .startEngine
  | advanceReadyGates world =>
    cases hs
    exact .engine _ _ (advanceReadyGates_running _ _) (Or.inr (Or.inr ⟨world, rfl⟩))
  | deactivate => cases hs; exact .deactivate
  | clearStrategies => cases hs; exact .clearStrategies
  | stopLane lane =>
    cases hs
    split
    case isTrue hrunning => exact .stopLane lane hrunning
    case isFalse hstopped => exact .skip _ (Or.inr (Or.inr ⟨lane, rfl, by simpa using hstopped⟩))
  | refuse lane => cases hs; exact .refuse lane
  | join lane =>
    rw [perform] at hs
    split at hs
    case isTrue hexited => cases hs; exact .join lane hexited
    case isFalse => cases hs
  | clearQueue lane => cases hs; exact .clearQueue lane
  | clearHandlers lane =>
    rw [perform] at hs
    split at hs
    case isTrue => cases hs
    case isFalse hfree => cases hs; exact .clearHandlers lane (by simpa using hfree)
  | releaseModules => cases hs; exact .engine _ _ rfl (Or.inl rfl)
  | becomeStopped => cases hs; exact .engine _ _ rfl (Or.inr (Or.inl rfl))

theorem Performs.pending (h : Performs s op s') :
    ∃ more, s'.pending = more ++ s.pending ∧ ∀ o ∈ more, o ∈ op.brings := by
  cases h with
  | startStrategies =>
    refine ⟨(if s.manager.dispatcher.isSome then [] else Op.dispatcherOps) ++ [.activate], by simp, ?_⟩
    split <;> simp [Op.brings]
  | startLane lane => exact ⟨[.accept lane, .spawn lane], rfl, fun _ h => h⟩
  | stopLane lane => exact ⟨[.refuse lane, .join lane, .clearQueue lane], rfl, fun _ h => h⟩
  | _ => exact ⟨[], rfl, by simp⟩

theorem Performs.mem_pending (hs : Performs { s with pending := rest } op s') {o : Op} (ho : o ∈ s'.pending) :
    o ∈ op.brings ∨ o ∈ rest := by
  obtain ⟨more, hmore, hbrings⟩ := hs.pending
  rw [hmore] at ho
  exact (List.mem_append.mp ho).imp_left (hbrings o)

theorem Performs.pending_mem (hs : Performs { s with pending := rest } op s') (hpending : s.pending = op :: rest)
    {o : Op} (hne : op ≠ o) (ho : o ∈ s.pending) : o ∈ s'.pending := by
  obtain ⟨more, hmore, _⟩ := hs.pending
  rw [hpending] at ho
  rw [hmore]
  exact List.mem_append_right _ ((List.mem_cons.mp ho).resolve_left (Ne.symm hne))

theorem Performs.log (hs : Performs s op s') : s'.log = s.log := by
  cases hs <;> rfl

theorem subscribe_handlers (lane : Lane) (type type' : EventType) (handler : Handler) :
    ((s.onLane type'.lane (·.subscribe type' handler)).lanes lane).handlers type =
      (s.lanes lane).handlers type ++ if lane = type'.lane ∧ type = type' then [handler] else [] := by
  unfold onLane EventReactor.subscribe
  by_cases hlane : lane = type'.lane <;> by_cases htype : type = type' <;> simp [hlane, htype]

/-- Handlers are added, those of strategies with their dispatcher. -/
def Adds (s s' : EventLanes) (lane : Lane) (type : EventType) : Prop :=
  ∃ more, (s'.lanes lane).handlers type = (s.lanes lane).handlers type ++ more ∧
    ∀ number, .strategies number ∈ more → s'.manager.dispatcher = some number

theorem Adds.same {lane : Lane} {type : EventType}
    (h : (s'.lanes lane).handlers type = (s.lanes lane).handlers type) : Adds s s' lane type :=
  ⟨[], by simp [h], by simp⟩

theorem Performs.handlers (hs : Performs s op s') (lane : Lane) (type : EventType) :
    (op ≠ .clearHandlers lane ∧ Adds s s' lane type) ∨
      op = .clearHandlers lane ∧ (s'.lanes lane).handlers type = [] := by
  cases hs with
  | subscribe type' number hd =>
    refine Or.inl ⟨(fun h => by cases h), _, subscribe_handlers lane type type' _, ?_⟩
    intro other hmem
    split at hmem
    · cases List.mem_singleton.mp hmem
      exact hd
    · cases hmem
  | subscribeBooks type' =>
    refine Or.inl ⟨(fun h => by cases h), _, subscribe_handlers lane type type' _, ?_⟩
    intro other hmem
    split at hmem
    · cases List.mem_singleton.mp hmem
    · cases hmem
  | clearHandlers lane' =>
    by_cases hlane : lane = lane'
    · exact Or.inr ⟨by rw [hlane], by simp [onLane, hlane]⟩
    · exact Or.inl ⟨fun heq => hlane (Op.clearHandlers.inj heq).symm, .same (by simp [onLane, hlane])⟩
  | startLane lane' | accept lane' | spawn lane' | stopLane lane' | refuse lane' | join lane' | clearQueue lane' =>
    refine Or.inl ⟨(fun h => by cases h), .same ?_⟩
    by_cases hlane : lane = lane' <;> simp [onLane, hlane]
  | engine _ engine _ hop =>
    refine Or.inl ⟨?_, .same rfl⟩
    rcases hop with rfl | rfl | ⟨world, rfl⟩ <;> exact fun h => by cases h
  | skip _ hop =>
    refine Or.inl ⟨?_, .same rfl⟩
    rcases hop with rfl | ⟨lane', rfl, _⟩ | ⟨lane', rfl, _⟩ <;> exact fun h => by cases h
  | _ => exact Or.inl ⟨(fun h => by cases h), .same rfl⟩

theorem Performs.thread (hs : Performs s op s') (lane : Lane) :
    (s'.lanes lane).thread = (s.lanes lane).thread ∨
      (op = .spawn lane ∧ (s'.lanes lane).thread = .waiting) ∨
      (op = .join lane ∧ (s'.lanes lane).thread = .absent) := by
  cases hs with
  | spawn lane' | join lane' =>
    by_cases hlane : lane = lane'
    · subst hlane
      simp [onLane]
    · exact Or.inl (by simp [onLane, hlane])
  | startLane lane' | accept lane' | stopLane lane' | refuse lane' | clearQueue lane' | clearHandlers lane' =>
    left
    by_cases hlane : lane = lane' <;> simp [onLane, hlane]
  | subscribe type | subscribeBooks type =>
    left
    by_cases hlane : lane = type.lane <;> simp [onLane, EventReactor.subscribe, hlane]
  | _ => exact Or.inl rfl

theorem Performs.running (hs : Performs s op s') (lane : Lane) :
    (s'.lanes lane).running = (s.lanes lane).running ∨
      (op = .startLane lane ∧ (s'.lanes lane).running = true) ∨
      (op = .stopLane lane ∧ (s'.lanes lane).running = false ∧ .join lane ∈ s'.pending) := by
  cases hs with
  | startLane lane' | stopLane lane' =>
    by_cases hlane : lane = lane'
    · subst hlane
      simp [onLane]
    · exact Or.inl (by simp [onLane, hlane])
  | accept lane' | spawn lane' | refuse lane' | join lane' | clearQueue lane' | clearHandlers lane' =>
    left
    by_cases hlane : lane = lane' <;> simp [onLane, hlane]
  | subscribe type | subscribeBooks type =>
    left
    by_cases hlane : lane = type.lane <;> simp [onLane, EventReactor.subscribe, hlane]
  | _ => exact Or.inl rfl

theorem Performs.queue (hs : Performs s op s') (lane : Lane) :
    (s'.lanes lane).queue = (s.lanes lane).queue ∨ (s'.lanes lane).queue = [] := by
  cases hs with
  | startLane lane' | accept lane' | spawn lane' | stopLane lane' | refuse lane' | join lane' | clearQueue lane'
  | clearHandlers lane' => by_cases hlane : lane = lane' <;> simp [onLane, hlane]
  | subscribe type | subscribeBooks type =>
    by_cases hlane : lane = type.lane <;> simp [onLane, EventReactor.subscribe, hlane]
  | _ => exact Or.inl rfl

theorem Performs.engine_running (hs : Performs s op s') :
    s'.engine.running = s.engine.running ∨ s'.engine.running = true := by
  cases hs with
  | startEngine => exact Or.inr rfl
  | engine _ engine hrunning => exact Or.inl hrunning
  | _ => exact Or.inl rfl

theorem Performs.dispatcher (hs : Performs s op s') : s'.manager.dispatcher = s.manager.dispatcher ∨
    s'.manager.dispatcher ≠ none ∨ op = .clearStrategies := by
  cases hs with
  | makeDispatcher => exact Or.inr (Or.inl fun h => by cases h)
  | clearStrategies => exact Or.inr (Or.inr rfl)
  | activate | deactivate => exact Or.inl StrategyManager.onDispatcher_dispatcher
  | _ => exact Or.inl rfl

theorem Performs.join_thread {lane : Lane} (hs : Performs s (.join lane) s') : (s'.lanes lane).thread = .absent := by
  cases hs with
  | join => simp [onLane]
  | engine _ _ _ hop => simp at hop
  | skip _ hop => simp at hop

theorem Performs.startLane_running {lane : Lane} (hs : Performs s (.startLane lane) s') :
    (s'.lanes lane).running = true := by
  cases hs with
  | startLane => simp [onLane]
  | engine _ _ _ hop => simp at hop
  | skip _ hop => simpa using hop

theorem Performs.stopLane_running {lane : Lane} (hs : Performs s (.stopLane lane) s') :
    (s'.lanes lane).running = false := by
  cases hs with
  | stopLane => simp [onLane]
  | engine _ _ _ hop => simp at hop
  | skip _ hop => simpa using hop

theorem Performs.startEngine_running (hs : Performs s .startEngine s') : s'.engine.running = true := by
  cases hs with
  | startEngine => rfl
  | engine _ _ _ hop => simp at hop
  | skip _ hop => simp at hop

theorem Performs.manager (hs : Performs s op s') (h : s.manager.Sound) : s'.manager.Sound := by
  cases hs with
  | makeDispatcher => exact h.makeDispatcher
  | activate => exact h.activate
  | deactivate => exact h.setActive false
  | clearStrategies => exact h.clear
  | _ => exact h

theorem publish_keeps (r : EventReactor) (event : Ticket Event) :
    (r.publish event).handlers = r.handlers ∧ (r.publish event).thread = r.thread ∧
      (r.publish event).running = r.running := by
  unfold EventReactor.publish
  repeat' split
  all_goals exact ⟨rfl, rfl, rfl⟩

/-! ## The operations add up to the calls -/

theorem perform_engine (hs : s.perform op = some s') : s'.engine = op.onEngine s.engine := by
  cases op with
  | startStrategies | startLane lane | stopLane lane =>
    cases hs
    split <;> rfl
  | subscribe type =>
    rw [perform] at hs
    split at hs
    case h_1 => rw [(subscribe_cases hs).2]; rfl
    case h_2 => cases hs
  | subscribeBooks type => rw [(subscribe_cases hs).2]; rfl
  | join lane | clearHandlers lane =>
    rw [perform] at hs
    split at hs <;> cases hs
    rfl
  | _ => cases hs; rfl

theorem stop_engine (s : EventLanes) :
    s.stop.2.pending.foldl Op.onEngine s.stop.2.engine = s.engine.stop.2 := rfl

theorem init_engine (hrest : s.pending = []) (config : BootstrapConfig) (clock : Clock)
    (answer : Result EngineConfig) :
    (s.init config clock answer).2.pending.foldl Op.onEngine (s.init config clock answer).2.engine =
      (s.engine.init config clock answer).2 := by
  unfold init
  split
  case isTrue hinit => simp [hrest, TradingEngine.init, hinit]
  case isFalse hinit =>
    rw [TradingEngine.init_eq (by simpa using hinit)]
    dsimp only
    split <;> rfl

/-! ## The steps -/

/-- What a call by the engine's user leaves pending, where it leaves anything. -/
def isRelease (pending : List Op) : Prop := pending = Op.releaseOps ∨ pending = Op.releaseOps ++ [.becomeStopped]

/-- All that a step can do. -/
inductive Moves (s : EventLanes) : LaneAction → EventLanes → Prop
  | engine (a : LaneAction) (engine : TradingEngine) (hrunning : engine.running = s.engine.running) :
      Moves s a { s with engine }
  | release (a : LaneAction) (engine : TradingEngine) (pending : List Op) (hrest : s.pending = [])
      (hpending : isRelease pending) : Moves s a { s with engine, pending }
  | register (a : LaneAction) (manager : StrategyManager) (pending : List Op) (hrest : s.pending = [])
      (hstopped : s.engine.running = false)
      (hmanager : s.manager.Sound → manager.Sound ∧ manager.dispatcher = s.manager.dispatcher)
      (hpending : pending = [] ∨ pending = Op.dispatcherOps) : Moves s a { s with manager, pending }
  | start (a : LaneAction) (engine : TradingEngine) (world : Surroundings) (hrest : s.pending = [])
      (hrunning : engine.running = s.engine.running) : Moves s a { s with engine, pending := Op.startOps world }
  | operate (op : Op) (rest : List Op) (s' : EventLanes) (hpending : s.pending = op :: rest)
      (hs : Performs { s with pending := rest } op s') : Moves s .control s'
  | publish (event : Event) : Moves s (.publish event)
      { s.onLane event.type.lane (·.publish ⟨s.published, event⟩) with published := s.published + 1 }
  | takes (lane : Lane) (event : Ticket Event) (queue : List (Ticket Event))
      (hwaiting : (s.lanes lane).thread = .waiting) (hqueue : (s.lanes lane).queue = event :: queue) :
      Moves s (.runOnce lane) (s.onLane lane fun r => { r with queue, thread := .holding event })
  | exits (lane : Lane) (hwaiting : (s.lanes lane).thread = .waiting) (hqueue : (s.lanes lane).queue = [])
      (hstopped : (s.lanes lane).running = false) :
      Moves s (.runOnce lane) (s.onLane lane fun r => { r with thread := .exited })
  | enters (lane : Lane) (event : Ticket Event) (hholding : (s.lanes lane).thread = .holding event) :
      Moves s (.enter lane)
        (s.onLane lane fun r => { r with thread := .handling event (r.handlers event.item.type) })
  | calls (lane : Lane) (event : Ticket Event) (handler : Handler) (rest : List Handler)
      (hhandling : (s.lanes lane).thread = .handling event (handler :: rest)) :
      Moves s (.call lane) ((s.called event handler).onLane lane fun r => { r with thread := .handling event rest })
  | returns (lane : Lane) (event : Ticket Event) (hhandling : (s.lanes lane).thread = .handling event []) :
      Moves s (.call lane) (s.onLane lane fun r => { r with thread := .waiting })

theorem atRest_cases {result : ErrorCode × EventLanes} (hs : s.atRest result = some s') :
    s.pending = [] ∧ s' = result.2 := by
  unfold atRest at hs
  split at hs
  case isTrue hrest => exact ⟨List.isEmpty_iff.mp hrest, (Option.some.inj hs).symm⟩
  case isFalse => cases hs

theorem set_running (engine : TradingEngine) (present : Bool) (part : Injected) :
    (engine.set present part).running = engine.running := by
  cases part with
  | quoteApi | traderApi =>
    unfold TradingEngine.set
    dsimp only
    split <;> rfl
  | _ => rfl

theorem initStages_running (engine : TradingEngine) (answer : Result EngineConfig) (nowMs : Int) :
    (engine.initStages answer nowMs).2.running = engine.running := by
  unfold TradingEngine.initStages
  refine TradingEngine.andThen_elim (P := fun s => s.running = engine.running)
    (engine.validateSupportBridges_keeps).running (fun _ h => h) fun s₁ h₁ => ?_
  refine TradingEngine.andThen_elim (P := fun s => s.running = engine.running)
    ((s₁.fetchRuntimeConfig_rests answer nowMs).running.trans h₁) (fun _ h => h) fun s₂ h₂ => ?_
  refine TradingEngine.andThen_elim (P := fun s => s.running = engine.running)
    (s₂.initEngineModules_keeps.running.trans h₂) (fun _ h => h) fun s₃ h₃ => ?_
  refine TradingEngine.andThen_elim (P := fun s => s.running = engine.running)
    (s₃.initAdapters_keeps.running.trans h₃) (fun _ h => h) fun s₄ h₄ => ?_
  exact s₄.becomeInitiated_running.trans h₄

theorem prepareStart_running (engine : TradingEngine) (world : Surroundings) :
    (engine.prepareStart world).2.running = engine.running := by
  unfold TradingEngine.prepareStart
  repeat' split
  · rfl
  · rfl
  · rfl
  · exact TradingEngine.andThen_elim (P := fun s => s.running = engine.running)
      (Q := fun s => s.running = engine.running) (engine.startAdapters_keeps world).running (fun _ h => h)
      fun s h => (s.syncBrokerSnapshot_keeps world).running.trans h

theorem moves_same (a : LaneAction) : Moves s a s := .engine a s.engine rfl

theorem moves_call {a : LaneAction} {engine : TradingEngine} (hrest : s.pending = [])
    (hrunning : engine.running = s.engine.running) : Moves s a { s with engine, pending := [] } := by
  have hsame : ({ s with engine, pending := [] } : EventLanes) = { s with engine } := by rw [← hrest]
  rw [hsame]
  exact .engine a engine hrunning

theorem init_moves {config : BootstrapConfig} {clock : Clock} {answer : Result EngineConfig}
    (hrest : s.pending = []) : Moves s (.init config clock answer) (s.init config clock answer).2 := by
  unfold init
  split
  · exact moves_same _
  · dsimp only
    split
    · exact moves_call hrest (initStages_running _ answer clock.nowMs)
    · exact .release _ _ _ hrest (Or.inl rfl)

theorem addStrategy_moves {config : NamedStrategy} {given inits : Bool} (hrest : s.pending = []) :
    Moves s (.addStrategy config given inits) (s.addStrategy config given inits).2 := by
  unfold addStrategy
  split
  · exact moves_same _
  split
  · exact moves_same _
  case isFalse hstopped =>
    repeat' split
    · exact moves_same _
    · exact moves_same _
    · exact moves_same _
    · have hmanager := fun h : s.manager.Sound => h.registerStrategy config.strategyId config.instruments
      have hmoves := Moves.register (.addStrategy config given inits) _ s.pending hrest (by simpa using hstopped)
        hmanager (Or.inl hrest)
      exact hmoves

theorem load_moves {directory : String} {plugins : Plugins} {strategies : List NamedStrategy}
    (hrest : s.pending = []) : Moves s (.loadStrategiesFromPlugins directory plugins strategies)
      (s.loadStrategiesFromPlugins directory plugins strategies).2 := by
  unfold loadStrategiesFromPlugins
  split
  · exact moves_same _
  split
  · exact moves_same _
  case isFalse hstopped =>
    repeat' split
    · exact moves_same _
    · exact moves_same _
    · exact moves_same _
    · refine .register _ _ _ hrest (by simpa using hstopped) (fun h => h.initStrategies plugins strategies) ?_
      split
      · exact Or.inr rfl
      · exact Or.inl rfl

theorem start_moves {world : Surroundings} (hrest : s.pending = []) : Moves s (.start world) (s.start world).2 := by
  unfold start
  dsimp only
  split
  · exact .start _ _ world hrest (prepareStart_running s.engine world)
  · exact moves_call hrest (prepareStart_running s.engine world)

theorem onLane_const {lane : Lane} {r : EventReactor} {f : EventReactor → EventReactor} (hr : f (s.lanes lane) = r) :
    s.onLane lane (fun _ => r) = s.onLane lane f := by
  unfold onLane
  congr
  funext k
  split
  case isTrue hk => rw [hk, hr]
  case isFalse => rfl

theorem runOnce_moves {lane : Lane} {r : EventReactor} (hr : (s.lanes lane).runOnce = some r) :
    Moves s (.runOnce lane) (s.onLane lane fun _ => r) := by
  unfold EventReactor.runOnce at hr
  split at hr
  case h_1 event queue hwaiting hqueue =>
    rw [onLane_const (f := fun r => { r with queue, thread := .holding event }) (Option.some.inj hr)]
    exact .takes lane event queue hwaiting hqueue
  case h_2 hwaiting hqueue =>
    split at hr
    case isTrue => cases hr
    case isFalse hstopped =>
      rw [onLane_const (f := fun r => { r with thread := .exited }) (Option.some.inj hr)]
      exact .exits lane hwaiting hqueue (by simpa using hstopped)
  case h_3 => cases hr

theorem enter_moves {lane : Lane} {r : EventReactor} (hr : (s.lanes lane).enter = some r) :
    Moves s (.enter lane) (s.onLane lane fun _ => r) := by
  unfold EventReactor.enter at hr
  split at hr
  case h_1 event hholding =>
    rw [onLane_const (f := fun r => { r with thread := .handling event (r.handlers event.item.type) })
      (Option.some.inj hr)]
    exact .enters lane event hholding
  case h_2 => cases hr

theorem callNext_moves {lane : Lane} (hs : s.callNext lane = some s') : Moves s (.call lane) s' := by
  unfold callNext at hs
  split at hs
  case h_1 event handler rest hhandling =>
    cases hs
    exact .calls lane event handler rest hhandling
  case h_2 event hhandling =>
    cases hs
    exact .returns lane event hhandling
  case h_3 => cases hs

theorem step_moves {a : LaneAction} (hs : s.step a = some s') : Moves s a s' := by
  cases a with
  | set part present =>
    cases hs
    exact .engine _ _ (set_running s.engine present part)
  | marketHealth healthy =>
    cases hs
    exact .engine _ _ (s.engine.onMarketHealthChanged_keeps healthy).running
  | init config clock answer =>
    obtain ⟨hrest, rfl⟩ := atRest_cases hs
    exact init_moves hrest
  | addStrategy config given inits =>
    obtain ⟨hrest, rfl⟩ := atRest_cases hs
    exact addStrategy_moves hrest
  | loadStrategiesFromPlugins directory plugins strategies =>
    obtain ⟨hrest, rfl⟩ := atRest_cases hs
    exact load_moves hrest
  | start world =>
    obtain ⟨hrest, rfl⟩ := atRest_cases hs
    exact start_moves hrest
  | stop =>
    obtain ⟨hrest, rfl⟩ := atRest_cases hs
    exact .release _ _ _ hrest (Or.inr rfl)
  | control =>
    rw [step] at hs
    split at hs
    case h_1 op rest hpending => exact .operate op rest s' hpending (perform_performs hs)
    case h_2 => cases hs
  | publish event =>
    cases hs
    exact .publish event
  | runOnce lane =>
    obtain ⟨r, hr, rfl⟩ := Option.map_eq_some_iff.mp hs
    exact runOnce_moves hr
  | enter lane =>
    obtain ⟨r, hr, rfl⟩ := Option.map_eq_some_iff.mp hs
    exact enter_moves hr
  | call lane => exact callNext_moves hs

/-! ## What every step keeps -/

structure Orderly (s : EventLanes) : Prop where
  oneKind : (∀ op ∈ s.pending, op.releases = true) ∨ ∀ op ∈ s.pending, op.releases = false
  inOrder : Op.InOrder s.pending
  manager : s.manager.Sound

theorem Orderly.perform (h : s.Orderly) (hpending : s.pending = op :: rest)
    (hs : Performs { s with pending := rest } op s') : s'.Orderly := by
  obtain ⟨more, hmore, hbrings⟩ := hs.pending
  have horder := h.inOrder
  have hkinds := h.oneKind
  rw [hpending] at horder hkinds
  refine ⟨?_, ?_, hs.manager h.manager⟩
  · rw [hmore]
    simp only [List.forall_mem_cons, List.forall_mem_append] at hkinds ⊢
    rcases hkinds with ⟨hop, hrest⟩ | ⟨hop, hrest⟩
    · exact Or.inl ⟨fun o ho => (Op.brings_releases (hbrings o ho)).trans hop, hrest⟩
    · exact Or.inr ⟨fun o ho => (Op.brings_releases (hbrings o ho)).trans hop, hrest⟩
  · rw [hmore]
    exact horder.2.append fun o ho => Op.brings_leaves (hbrings o ho)

theorem called_keeps (s : EventLanes) (event : Ticket Event) (handler : Handler) :
    (s.called event handler).lanes = s.lanes ∧ (s.called event handler).pending = s.pending ∧
      (s.called event handler).manager = s.manager ∧
      (s.called event handler).engine.running = s.engine.running := by
  unfold called
  split
  case h_1 => split <;> exact ⟨rfl, rfl, rfl, rfl⟩
  case h_2 => exact ⟨rfl, rfl, rfl, rfl⟩

theorem isRelease.releases {pending : List Op} (h : isRelease pending) : ∀ op ∈ pending, op.releases = true := by
  rcases h with rfl | rfl <;> simp [Op.releaseOps, Op.releases]

theorem isRelease.inOrder {pending : List Op} (h : isRelease pending) : Op.InOrder pending := by
  rcases h with rfl | rfl
  · exact Op.releaseOps_inOrder
  · exact Op.stopOps_inOrder

theorem Orderly.step {a : LaneAction} (h : s.Orderly) (hs : Moves s a s') : s'.Orderly := by
  cases hs with
  | engine | publish | takes | exits | enters | returns => exact ⟨h.oneKind, h.inOrder, h.manager⟩
  | release _ engine pending _ hpending => exact ⟨Or.inl hpending.releases, hpending.inOrder, h.manager⟩
  | register _ manager pending hrest _ hmanager hpending =>
    refine ⟨Or.inr ?_, ?_, (hmanager h.manager).1⟩
    · rcases hpending with rfl | rfl <;> simp [Op.dispatcherOps, Op.releases]
    · rcases hpending with rfl | rfl
      · trivial
      · exact Op.dispatcherOps_inOrder
  | start _ engine world =>
    exact ⟨Or.inr (by simp [Op.startOps, Op.releases]), Op.startOps_inOrder world, h.manager⟩
  | operate op rest s' hpending hs => exact h.perform hpending hs
  | calls lane event handler rest =>
    obtain ⟨_, hpending, hmanager, _⟩ := s.called_keeps event handler
    have hkeeps : (s.called event handler).Orderly :=
      ⟨hpending ▸ h.oneKind, hpending ▸ h.inOrder, hmanager ▸ h.manager⟩
    exact ⟨hkeeps.oneKind, hkeeps.inOrder, hkeeps.manager⟩

/-- The engine before its first `Init`. `SetLanePolicy` comes before the reactors run. -/
def opening (policies : Lane → LanePolicy) : EventLanes := { lanes := fun lane => { policy := policies lane } }

/-- Boots without any support service. -/
def boot : List LaneAction :=
  [.set .quoteApi true, .set .traderApi true,
    .init { configService := false, accountService := false, accountRiskService := false } ⟨1, 0⟩ {}]

theorem opening_orderly (policies : Lane → LanePolicy) : (opening policies).Orderly := by
  have hmanager : StrategyManager.Sound {} := ⟨by simp, by simp, by simp, fun _ => rfl⟩
  exact ⟨Or.inr fun _ h => absurd h List.not_mem_nil, trivial, hmanager⟩

end EventLanes

end Qtrade.Engine
