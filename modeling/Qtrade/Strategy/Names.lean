import Qtrade.Strategy.Routing

/-!
# Strategies by name

The manager of `Engine.Strategies` knows a strategy by its id. It answers as the manager of objects does, and its
routes lead to the same strategies.
-/

namespace Qtrade.Strategy

open Engine (NamedStrategy Plugins)

/-- The managers have the same strategies under their ids, and the same routes to them. -/
structure Names (s : StrategyManager) (names : Engine.StrategyManager) : Prop where
  running : names.running = s.running
  strategies : ∀ strategyId, strategyId ∈ names.strategies ↔ (s.strategies.lookup strategyId).isSome = true
  routes : ∀ instrument, s.instrumentRoutes.lookup instrument =
    (names.instrumentRoutes.lookup instrument).bind fun strategyId =>
      (s.strategies.lookup strategyId).map (·.strategy)
  known : ∀ instrument strategyId, names.instrumentRoutes.lookup instrument = some strategyId →
    strategyId ∈ names.strategies

variable {s : StrategyManager} {names : Engine.StrategyManager}

theorem names_fresh : Names {} {} := by
  refine ⟨rfl, ?_, ?_, ?_⟩ <;> simp

theorem Names.isSome_routes (h : Names s names) (instrument : String) :
    (s.instrumentRoutes.lookup instrument).isSome = (names.instrumentRoutes.lookup instrument).isSome := by
  rw [h.routes]
  cases hroute : names.instrumentRoutes.lookup instrument with
  | none => rfl
  | some strategyId =>
    have hsome := (h.strategies strategyId).mp (h.known instrument strategyId hroute)
    simpa using hsome

theorem lookup_routes (instruments : List String) (strategyId : String) (routes : List (String × String))
    (instrument : String) : (instruments.map (·, strategyId) ++ routes).lookup instrument =
      if instrument ∈ instruments then some strategyId else routes.lookup instrument := by
  induction instruments with
  | nil => rfl
  | cons first rest ih =>
    rw [List.map_cons, List.cons_append, List.lookup_cons]
    by_cases hfirst : instrument = first
    · simp [hfirst]
    · simp [beq_false_of_ne hfirst, hfirst, ih]

theorem running_onDispatcher (names : Engine.StrategyManager)
    (f : Engine.StrategyEventDispatcher → Engine.StrategyEventDispatcher) :
    (names.onDispatcher f).running = names.running := by
  unfold Engine.StrategyManager.onDispatcher
  split <;> rfl

/-- Both managers make the same of a registration. -/
theorem Names.registerStrategy (h : Names s names) (strategyId : String) (raw : IStrategy)
    (instruments : List String) :
    (names.registerStrategy strategyId instruments).1 = (s.registerStrategy strategyId (some raw) instruments).1 ∧
      Names (s.registerStrategy strategyId (some raw) instruments).2
        (names.registerStrategy strategyId instruments).2 := by
  unfold Engine.StrategyManager.registerStrategy StrategyManager.registerStrategy
  simp only [h.running, h.strategies, h.isSome_routes]
  split_ifs with hid hrunning hold hany
  case neg =>
    refine ⟨rfl, ?_⟩
    have hother : ∀ strategyId', strategyId' ∈ names.strategies → strategyId' ≠ strategyId := by
      rintro strategyId' hmem rfl
      exact hold ((h.strategies strategyId').mp hmem)
    unfold Engine.StrategyManager.pushRoutingToDispatcher StrategyManager.pushRoutingToDispatcher
    refine ⟨?_, ?_, ?_, ?_⟩
    · exact running_onDispatcher _ _
    · intro strategyId'
      simp only [Engine.StrategyManager.onDispatcher_strategies, List.mem_append, List.mem_singleton, h.strategies,
        Table.lookup_store]
      split <;> simp [*]
    · intro instrument
      simp only [Engine.StrategyManager.onDispatcher_instrumentRoutes, lookup_routes, Table.lookup_storeAll,
        Table.lookup_store, h.routes instrument]
      split
      case isTrue => simp
      case isFalse =>
        cases hroute : names.instrumentRoutes.lookup instrument with
        | none => rfl
        | some strategyId' => simp [hother strategyId' (h.known instrument strategyId' hroute)]
    · intro instrument strategyId'
      simp only [Engine.StrategyManager.onDispatcher_instrumentRoutes,
        Engine.StrategyManager.onDispatcher_strategies, lookup_routes, List.mem_append, List.mem_singleton]
      split
      case isTrue =>
        rintro ⟨⟩
        exact Or.inr rfl
      case isFalse => exact fun hroute => Or.inl (h.known instrument strategyId' hroute)
  all_goals exact ⟨rfl, h⟩

theorem Names.initStrategies (h : Names s names) {plugins : Plugins} (configs : List PluginStrategy)
    (hplugins : ∀ config ∈ configs, plugins.creates config.strategyName = config.created.isSome ∧
      plugins.inits config.toNamedStrategy = (config.initialized == .success)) :
    (names.initStrategies plugins (configs.map (·.toNamedStrategy))).1 = (s.initStrategies configs).1 ∧
      Names (s.initStrategies configs).2 (names.initStrategies plugins (configs.map (·.toNamedStrategy))).2 := by
  induction configs generalizing s names with
  | nil => exact ⟨rfl, h⟩
  | cons config configs ih =>
    obtain ⟨hcreates, hinits⟩ := hplugins config List.mem_cons_self
    have hrest := fun other hmem => hplugins other (List.mem_cons_of_mem config hmem)
    rw [List.map_cons, Engine.StrategyManager.initStrategies, StrategyManager.initStrategies, hcreates, hinits]
    cases henabled : config.enabled with
    | false => exact ih h hrest
    | true =>
      cases hcreated : config.created with
      | none => exact ⟨rfl, h⟩
      | some raw =>
        by_cases hsuccess : config.initialized = .success
        · obtain ⟨hcode, hnames⟩ := h.registerStrategy config.strategyId raw config.instruments
          simp only [hsuccess, hcode, beq_self_eq_true, Bool.not_true, Option.isSome_some, Bool.false_eq_true,
            if_false, ne_eq, not_true_eq_false]
          split
          case isTrue herror =>
            rw [StrategyManager.registerStrategy_error herror]
            exact ⟨rfl, h⟩
          case isFalse => exact ih hnames hrest
        · simp [hsuccess, h]

end Qtrade.Strategy
