import Qtrade.Engine.TradingEngine

/-!
# Strategies and their dispatchers

`strategy_manager.cpp` and `strategy_event_dispatcher.cpp`. A strategy is known by its identifier and a
dispatcher by the number of its creation. What a strategy does when it is told of something is its own affair.
-/

namespace Qtrade.Engine

/-- A strategy's configuration with the names it is registered and created under. -/
structure NamedStrategy extends StrategyConfig where
  strategyId : String := ""
  strategyName : String := ""

/-- What the plugins of a directory answer: `LoadStrategyPlugin`, `Create` and the strategy's own `Init`. -/
structure Plugins where
  loads : Bool := true
  creates : String → Bool := fun _ => true
  inits : NamedStrategy → Bool := fun _ => true

/-! ## The dispatcher -/

structure StrategyEventDispatcher where
  alive : Bool := true
  active : Bool := false
  instrumentRoutes : List (String × String) := []
  strategies : List String := []

namespace StrategyEventDispatcher

/-- `~StrategyEventDispatcher`. -/
def destroy (s : StrategyEventDispatcher) : StrategyEventDispatcher :=
  { s with alive := false, active := false, instrumentRoutes := [], strategies := [] }

def setRouting (s : StrategyEventDispatcher) (instrumentRoutes : List (String × String)) (strategies : List String) :
    StrategyEventDispatcher :=
  { s with instrumentRoutes, strategies }

def setActive (s : StrategyEventDispatcher) (active : Bool) : StrategyEventDispatcher := { s with active }

/-- The strategies that `OnTick`, `OnBar`, `OnOrder` or `OnTrade` tells, which differ in nothing else. -/
def recipients (s : StrategyEventDispatcher) (instrument : String) : List String :=
  if !s.active then []
  else
    match s.instrumentRoutes.lookup instrument with
    | some strategy => [strategy]
    | none => s.strategies

end StrategyEventDispatcher

/-! ## The manager -/

/-- `dispatchers` are all that were ever made, and `dispatcher` is the one that `dispatcher_` owns. -/
structure StrategyManager where
  running : Bool := false
  strategies : List String := []
  instrumentRoutes : List (String × String) := []
  dispatcher : Option Nat := none
  dispatchers : List StrategyEventDispatcher := []

namespace StrategyManager

/-- Does something to the dispatcher, if there is one. -/
def onDispatcher (s : StrategyManager) (f : StrategyEventDispatcher → StrategyEventDispatcher) : StrategyManager :=
  match s.dispatcher with
  | some number => { s with dispatchers := s.dispatchers.modify number f }
  | none => s

def pushRoutingToDispatcher (s : StrategyManager) : StrategyManager :=
  s.onDispatcher (·.setRouting s.instrumentRoutes s.strategies)

def registerStrategy (s : StrategyManager) (strategyId : String) (instruments : List String) :
    ErrorCode × StrategyManager :=
  if strategyId = "" then (.invalidArgument, s)
  else if s.running then (.alreadyStarted, s)
  else if strategyId ∈ s.strategies then (.systemError, s)
  else if instruments.any fun instrument => instrument == "" || (s.instrumentRoutes.lookup instrument).isSome then
    (.systemError, s)
  else
    (.success, pushRoutingToDispatcher
      { s with
        instrumentRoutes := instruments.map (·, strategyId) ++ s.instrumentRoutes
        strategies := s.strategies ++ [strategyId] })

/-- `Init` up to the dispatcher: the enabled strategies are registered until one of them fails. -/
def initStrategies (s : StrategyManager) (plugins : Plugins) : List NamedStrategy → ErrorCode × StrategyManager
  | [] => (.success, s)
  | config :: configs =>
    if !config.enabled then s.initStrategies plugins configs
    else if !plugins.creates config.strategyName then (.dynamicLibrarySymbolNotFound, s)
    else if !plugins.inits config then (.internalError, s)
    else if (s.registerStrategy config.strategyId config.instruments).1 ≠ .success then (.systemError, s)
    else (s.registerStrategy config.strategyId config.instruments).2.initStrategies plugins configs

/-- The new dispatcher gets its routing at once, and the one it replaces is destroyed. -/
def makeDispatcher (s : StrategyManager) : StrategyManager :=
  { s with
    dispatchers := (s.onDispatcher (·.destroy)).dispatchers ++
      [({} : StrategyEventDispatcher).setRouting s.instrumentRoutes s.strategies]
    dispatcher := some s.dispatchers.length }

/-- The end of `Start`. -/
def activate (s : StrategyManager) : StrategyManager := { s.onDispatcher (·.setActive true) with running := true }

def deactivate (s : StrategyManager) : StrategyManager := s.onDispatcher (·.setActive false)

/-- The rest of `Stop`. -/
def clear (s : StrategyManager) : StrategyManager :=
  { s.onDispatcher (·.destroy) with dispatcher := none, running := false, strategies := [], instrumentRoutes := [] }

def isAlive (s : StrategyManager) (number : Nat) : Bool := s.dispatchers[number]?.any (·.alive)

def told (s : StrategyManager) (number : Nat) (instrument : String) : List String :=
  s.dispatchers[number]?.elim [] (·.recipients instrument)

/-! ## What the manager keeps true -/

/-- The dispatcher it owns lives and routes as the tables say. The others are gone and tell nobody. -/
structure Sound (s : StrategyManager) : Prop where
  owned : ∀ number, s.dispatcher = some number → number < s.dispatchers.length
  current : ∀ number dispatcher, s.dispatchers[number]? = some dispatcher → s.dispatcher = some number →
    dispatcher.alive = true ∧ dispatcher.instrumentRoutes = s.instrumentRoutes ∧ dispatcher.strategies = s.strategies
  gone : ∀ number dispatcher, s.dispatchers[number]? = some dispatcher → s.dispatcher ≠ some number →
    dispatcher.active = false
  routes : s.strategies = [] → s.instrumentRoutes = []

variable {s : StrategyManager} {f : StrategyEventDispatcher → StrategyEventDispatcher}

@[simp] theorem onDispatcher_dispatcher : (s.onDispatcher f).dispatcher = s.dispatcher := by
  unfold onDispatcher
  split <;> simp [*]

@[simp] theorem onDispatcher_strategies : (s.onDispatcher f).strategies = s.strategies := by
  unfold onDispatcher
  split <;> rfl

@[simp] theorem onDispatcher_instrumentRoutes : (s.onDispatcher f).instrumentRoutes = s.instrumentRoutes := by
  unfold onDispatcher
  split <;> rfl

@[simp] theorem onDispatcher_length : (s.onDispatcher f).dispatchers.length = s.dispatchers.length := by
  unfold onDispatcher
  split <;> simp

theorem onDispatcher_getElem? (number : Nat) : (s.onDispatcher f).dispatchers[number]? =
    if s.dispatcher = some number then s.dispatchers[number]?.map f else s.dispatchers[number]? := by
  unfold onDispatcher
  split
  case h_1 owned hd => by_cases h : owned = number <;> simp [hd, h]
  case h_2 hd => simp [hd]

theorem Sound.setActive (h : s.Sound) (active : Bool) : (s.onDispatcher (·.setActive active)).Sound := by
  refine ⟨?_, ?_, ?_, ?_⟩
  · simpa using h.owned
  · intro number dispatcher hget hd
    rw [onDispatcher_dispatcher] at hd
    rw [onDispatcher_getElem?, if_pos hd, Option.map_eq_some_iff] at hget
    obtain ⟨old, hold, rfl⟩ := hget
    simpa [StrategyEventDispatcher.setActive] using h.current number old hold hd
  · intro number dispatcher hget hd
    rw [onDispatcher_dispatcher] at hd
    rw [onDispatcher_getElem?, if_neg hd] at hget
    exact h.gone number dispatcher hget hd
  · simpa using h.routes

theorem Sound.activate (h : s.Sound) : s.activate.Sound := by
  have hactive := h.setActive true
  exact ⟨hactive.owned, hactive.current, hactive.gone, hactive.routes⟩

theorem Sound.pushRouting (h : s.Sound) {strategies : List String} {instrumentRoutes : List (String × String)}
    (hroutes : strategies = [] → instrumentRoutes = []) :
    (pushRoutingToDispatcher { s with strategies, instrumentRoutes }).Sound := by
  unfold pushRoutingToDispatcher
  refine ⟨?_, ?_, ?_, ?_⟩
  · simpa using h.owned
  · intro number dispatcher hget hd
    rw [onDispatcher_dispatcher] at hd
    rw [onDispatcher_getElem?, if_pos hd, Option.map_eq_some_iff] at hget
    obtain ⟨old, hold, rfl⟩ := hget
    simpa [StrategyEventDispatcher.setRouting] using (h.current number old hold hd).1
  · intro number dispatcher hget hd
    rw [onDispatcher_dispatcher] at hd
    rw [onDispatcher_getElem?, if_neg hd] at hget
    exact h.gone number dispatcher hget hd
  · simpa using hroutes

theorem registerStrategy_cases (s : StrategyManager) (strategyId : String) (instruments : List String) :
    (s.registerStrategy strategyId instruments).2 = s ∨ ∃ instrumentRoutes,
      (s.registerStrategy strategyId instruments).2 =
        pushRoutingToDispatcher { s with strategies := s.strategies ++ [strategyId], instrumentRoutes } := by
  unfold registerStrategy
  repeat' split
  all_goals first | exact Or.inl rfl | exact Or.inr ⟨_, rfl⟩

theorem Sound.registerStrategy (h : s.Sound) (strategyId : String) (instruments : List String) :
    (s.registerStrategy strategyId instruments).2.Sound ∧
      (s.registerStrategy strategyId instruments).2.dispatcher = s.dispatcher := by
  rcases registerStrategy_cases s strategyId instruments with hsame | ⟨instrumentRoutes, hnew⟩
  · rw [hsame]
    exact ⟨h, rfl⟩
  · rw [hnew]
    exact ⟨h.pushRouting (by simp), by simp [pushRoutingToDispatcher]⟩

theorem Sound.initStrategies (h : s.Sound) (plugins : Plugins) (configs : List NamedStrategy) :
    (s.initStrategies plugins configs).2.Sound ∧ (s.initStrategies plugins configs).2.dispatcher = s.dispatcher := by
  induction configs generalizing s with
  | nil => exact ⟨h, rfl⟩
  | cons config configs ih =>
    obtain ⟨hsound, hsame⟩ := h.registerStrategy config.strategyId config.instruments
    unfold StrategyManager.initStrategies
    repeat' split
    · exact ih h
    · exact ⟨h, rfl⟩
    · exact ⟨h, rfl⟩
    · exact ⟨h, rfl⟩
    · exact ⟨(ih hsound).1, (ih hsound).2.trans hsame⟩

theorem Sound.clear (h : s.Sound) : s.clear.Sound := by
  unfold StrategyManager.clear
  refine ⟨by simp, by simp, ?_, fun _ => rfl⟩
  intro number dispatcher hget _
  dsimp only at hget
  rw [onDispatcher_getElem?] at hget
  split at hget
  case isTrue =>
    obtain ⟨old, _, rfl⟩ := Option.map_eq_some_iff.mp hget
    rfl
  case isFalse hd => exact h.gone number dispatcher hget hd

theorem Sound.makeDispatcher (h : s.Sound) : s.makeDispatcher.Sound := by
  unfold StrategyManager.makeDispatcher
  refine ⟨?_, ?_, ?_, h.routes⟩
  · intro number hd
    cases hd
    simp
  · intro number dispatcher hget hd
    cases hd
    have hlast : (s.onDispatcher (·.destroy)).dispatchers.length = s.dispatchers.length := onDispatcher_length
    dsimp only at hget
    rw [← hlast, List.getElem?_concat_length] at hget
    cases hget
    exact ⟨rfl, rfl, rfl⟩
  · intro number dispatcher hget hd
    dsimp only at hget hd
    have hne : s.dispatchers.length ≠ number := fun heq => hd (congrArg some heq)
    have hlt : number < (s.onDispatcher (·.destroy)).dispatchers.length := by
      have hin := (List.getElem?_eq_some_iff.mp hget).1
      simp only [List.length_append, onDispatcher_length, List.length_singleton] at hin ⊢
      omega
    rw [List.getElem?_append_left hlt, onDispatcher_getElem?] at hget
    split at hget
    case isTrue =>
      obtain ⟨old, _, rfl⟩ := Option.map_eq_some_iff.mp hget
      rfl
    case isFalse hold => exact h.gone number dispatcher hget hold

theorem Sound.isAlive (h : s.Sound) {number : Nat} (hd : s.dispatcher = some number) : s.isAlive number = true := by
  have hlt := h.owned number hd
  have hget : s.dispatchers[number]? = some s.dispatchers[number] := List.getElem?_eq_getElem hlt
  have hcurrent := (h.current number _ hget hd).1
  simp [StrategyManager.isAlive, hget, hcurrent]

theorem Sound.told (h : s.Sound) {number : Nat} {instrument : String} (htold : s.told number instrument ≠ []) :
    s.strategies ≠ [] := by
  unfold StrategyManager.told StrategyEventDispatcher.recipients at htold
  intro hnone
  apply htold
  cases hget : s.dispatchers[number]? with
  | none => rfl
  | some dispatcher =>
    by_cases hd : s.dispatcher = some number
    · obtain ⟨_, hroutes, hstrategies⟩ := h.current number dispatcher hget hd
      simp [hroutes, hstrategies, hnone, h.routes hnone]
    · simp [h.gone number dispatcher hget hd]

end StrategyManager

end Qtrade.Engine
