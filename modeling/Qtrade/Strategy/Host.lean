import Qtrade.Strategy.Plugins
import Qtrade.Strategy.Routing

/-!
# The host of the strategies

The manager with its plugin loader, and what is called on each strategy. A strategy's code lies in a library, so it
must not be called once that library is closed.
-/

namespace Qtrade.Strategy

open Engine (NamedStrategy Event EventType)

/-! ## What is called on a strategy -/

/-- `handOver` where a strategy comes from the caller of `RegisterStrategy`, ready for use. -/
inductive Method
  | create
  | handOver
  | setOrderSender
  | init
  | start
  | onEvent
  | stop
  | destroy
deriving DecidableEq

inductive Stage
  | unmade
  | made
  | equipped
  | initialized
  | started
  | stopped
  | destroyed
deriving DecidableEq

/-- The order in which `IStrategy` may be called. -/
def Stage.advance : Stage → Method → Option Stage
  | .unmade, .create => some .made
  | .unmade, .handOver => some .initialized
  | .made, .setOrderSender => some .equipped
  | .equipped, .init => some .initialized
  | .initialized, .start => some .started
  | .started, .onEvent => some .started
  | .started, .stop => some .stopped
  | .initialized, .destroy => some .destroyed
  | .stopped, .destroy => some .destroyed
  | _, _ => none

/-- A call, the library of its code (`none` for the program itself), and whether that was open. -/
structure Call where
  method : Method
  code : Option Handle
  mapped : Bool
deriving DecidableEq

/-- Where the calls have brought a strategy, unless one came out of order. -/
def stageOf (calls : List Call) : Option Stage :=
  calls.foldlM (fun stage call => stage.advance call.method) .unmade

theorem stageOf_append (calls : List Call) (call : Call) :
    stageOf (calls ++ [call]) = (stageOf calls).bind (·.advance call.method) := by
  simp [stageOf, List.foldlM_append]

/-! ## The host -/

/-- What a configuration says of a strategy, whether its create function makes it, and what its `Init` answers. -/
structure HostedStrategy extends NamedStrategy where
  makes : Bool := true
  initialized : ErrorCode := .success

/-- `StrategyManager` with its `plugin_loader_`. `made` strategies were made so far, each by the first function of
its origin, and each to be destroyed by the second. -/
structure StrategyHost where
  manager : StrategyManager := {}
  loader : StrategyPluginLoader := {}
  made : Nat := 0
  origin : IStrategy → Option (Symbol × Symbol) := fun _ => none
  calls : IStrategy → List Call := fun _ => []

namespace StrategyHost

def codeOf (s : StrategyHost) (strategy : IStrategy) : Method → Option Handle
  | .destroy => (s.origin strategy).map (·.2.library)
  | _ => (s.origin strategy).map (·.1.library)

def mapped (s : StrategyHost) (code : Option Handle) : Bool := code.all (· ∈ s.loader.linker.opened)

def callOf (s : StrategyHost) (strategy : IStrategy) (method : Method) : Call where
  method
  code := s.codeOf strategy method
  mapped := s.mapped (s.codeOf strategy method)

/-- Calls a method of each of the strategies. -/
def record (s : StrategyHost) (strategies : Multiset IStrategy) (method : Method) : StrategyHost :=
  { s with calls := fun strategy =>
      s.calls strategy ++ List.replicate (strategies.count strategy) (s.callOf strategy method) }

/-- A strategy that is there from now on. -/
def adopt (s : StrategyHost) (origin : Option (Symbol × Symbol)) (method : Method) : IStrategy × StrategyHost :=
  let strategy : IStrategy := ⟨s.made⟩
  let s := { s with made := s.made + 1, origin := Function.update s.origin strategy origin }
  (strategy, s.record {strategy} method)

/-- `StrategyPluginLoader::Create`. -/
def create (s : StrategyHost) (config : HostedStrategy) : Option IStrategy × StrategyHost :=
  match s.loader.create config.strategyName with
  | none => (none, s)
  | some functions =>
    if !config.makes then (none, s)
    else
      let result := s.adopt (some functions) .create
      (some result.1, result.2)

/-- A strategy that is not registered is destroyed at the end of the call. -/
def registerStrategy (s : StrategyHost) (strategyId : String) (strategy : IStrategy) (instruments : List String) :
    ErrorCode × StrategyHost :=
  let result := s.manager.registerStrategy strategyId (some strategy) instruments
  let s := { s with manager := result.2 }
  (result.1, if result.1 ≠ .success then s.record {strategy} .destroy else s)

/-- What `Init` does for an enabled strategy. One that is not registered is destroyed at the end of its turn. -/
def loadStrategy (s : StrategyHost) (config : HostedStrategy) : ErrorCode × StrategyHost :=
  match s.create config with
  | (none, s) => (.dynamicLibrarySymbolNotFound, s)
  | (some strategy, s) =>
    let s := (s.record {strategy} .setOrderSender).record {strategy} .init
    if config.initialized ≠ .success then (.internalError, s.record {strategy} .destroy)
    else
      let result := s.registerStrategy config.strategyId strategy config.instruments
      (if result.1 ≠ .success then .systemError else .success, result.2)

/-- The loop of `Init`. -/
def initStrategies (s : StrategyHost) : List HostedStrategy → ErrorCode × StrategyHost
  | [] => (.success, s)
  | config :: configs =>
    if !config.enabled then s.initStrategies configs
    else
      let result := s.loadStrategy config
      if result.1 ≠ .success then result else result.2.initStrategies configs

def init (s : StrategyHost) (pluginDir : Directory) (strategies : List HostedStrategy) : ErrorCode × StrategyHost :=
  if s.manager.running then (.alreadyStarted, s)
  else
    let loaded := s.loader.loadStrategyPlugin pluginDir
    let s := { s with loader := loaded.2 }
    if loaded.1 ≠ .success then (.dynamicLibraryLoadError, s)
    else
      let result := s.initStrategies strategies
      if result.1 ≠ .success then result
      else (.success, { result.2 with manager := result.2.manager.makeDispatcher })

def start (s : StrategyHost) : ErrorCode × StrategyHost :=
  if s.manager.running then (.alreadyStarted, s)
  else
    let s := { s with manager := s.manager.start.2 }
    (.success, s.record s.manager.buildStrategyList .start)

/-- The strategies are destroyed with their entries, and then the libraries are closed. The handlers stay on the
lanes. -/
def stop (s : StrategyHost) : StrategyHost :=
  let strategies := s.manager.buildStrategyList
  let stopped := if s.manager.running then s.record strategies .stop else s
  let destroyed := { stopped.record strategies .destroy with manager := s.manager.stop }
  { destroyed with loader := destroyed.loader.unloadAll }

/-- `EventLanes::Stop`, to which `TradingEngine::Release` comes later: the lanes drop their handlers. -/
def stopLanes (s : StrategyHost) : StrategyHost := { s with manager := { s.manager with handlers := fun _ => [] } }

/-- What a lane does with an event. `none` where a handler is called whose dispatcher is gone. -/
def deliver (s : StrategyHost) (event : Event) : Option StrategyHost :=
  (s.manager.told event).map fun strategies => s.record strategies .onEvent

/-! ## Calls -/

variable {s : StrategyHost} {strategy : IStrategy} {origin : Option (Symbol × Symbol)} {methods : List Method}
  {config : HostedStrategy} {functions : Symbol × Symbol}

/-- These are the functions of a plugin that is loaded. -/
def Held (s : StrategyHost) (origin : Option (Symbol × Symbol)) : Prop :=
  ∀ functions ∈ origin, ∃ pluginName entry, s.loader.plugins.lookup pluginName = some entry ∧
    functions = (entry.create, entry.destroy)

/-- A call whose code is where the strategy was made, and open. -/
def goodCall (origin : Option (Symbol × Symbol)) (method : Method) : Call where
  method
  code := origin.map (·.1.library)
  mapped := true

/-- While its plugin is loaded, a strategy can be called. Both functions lie in one library. -/
theorem callOf_held (haccounted : s.loader.Accounted) (h : s.Held (s.origin strategy)) (method : Method) :
    s.callOf strategy method = goodCall (s.origin strategy) method := by
  cases horigin : s.origin strategy with
  | none => cases method <;> simp [callOf, codeOf, mapped, goodCall, horigin]
  | some functions =>
    obtain ⟨pluginName, entry, hentry, rfl⟩ := h functions horigin
    have hopen : entry.dlHandle ∈ s.loader.linker.opened := by
      rw [haccounted.opened]
      exact (Table.mem_valuesBy _).mpr ⟨pluginName, entry, hentry, rfl⟩
    obtain ⟨hcreate, hdestroy⟩ := haccounted.symbols pluginName entry hentry
    cases method <;> simp [callOf, codeOf, mapped, goodCall, horigin, hcreate, hdestroy, hopen]

theorem record_singleton (s : StrategyHost) (strategy : IStrategy) (method : Method) :
    s.record {strategy} method =
      { s with calls := Function.update s.calls strategy (s.calls strategy ++ [s.callOf strategy method]) } := by
  unfold record
  congr 1
  funext other
  by_cases hsame : other = strategy
  · subst hsame
    simp
  · simp [hsame]

/-- The host with one strategy more, on which these methods were called. -/
def newcomer (s : StrategyHost) (origin : Option (Symbol × Symbol)) (methods : List Method)
    (manager : StrategyManager) : StrategyHost where
  manager
  loader := s.loader
  made := s.made + 1
  origin := Function.update s.origin ⟨s.made⟩ origin
  calls := Function.update s.calls ⟨s.made⟩ (methods.map (goodCall origin))

theorem record_newcomer (haccounted : s.loader.Accounted) (hheld : s.Held origin) (methods : List Method)
    (manager : StrategyManager) (method : Method) :
    (s.newcomer origin methods manager).record {⟨s.made⟩} method =
      s.newcomer origin (methods ++ [method]) manager := by
  have hcall : (s.newcomer origin methods manager).callOf ⟨s.made⟩ method = goodCall origin method := by
    have horigin : (s.newcomer origin methods manager).origin ⟨s.made⟩ = origin := Function.update_self _ _ _
    have hgood := callOf_held (s := s.newcomer origin methods manager) haccounted (by rw [horigin]; exact hheld) method
    rwa [horigin] at hgood
  rw [record_singleton, hcall]
  simp [newcomer]

theorem adopt_eq (haccounted : s.loader.Accounted) (hheld : s.Held origin) (hnew : s.calls ⟨s.made⟩ = [])
    (method : Method) : s.adopt origin method = (⟨s.made⟩, s.newcomer origin [method] s.manager) := by
  have hstart : { s with made := s.made + 1, origin := Function.update s.origin ⟨s.made⟩ origin } =
      s.newcomer origin [] s.manager := by
    simp [newcomer, ← hnew]
  unfold adopt
  dsimp only
  rw [hstart, record_newcomer haccounted hheld, List.nil_append]

/-! ## What holds between two calls -/

/-- Where a strategy is that was made. -/
def stageNow (s : StrategyHost) (strategy : IStrategy) : Stage :=
  if strategy ∈ s.manager.buildStrategyList then
    if s.manager.running then .started else .initialized
  else .destroyed

/-- A strategy is registered, with its plugin loaded, or destroyed. -/
structure Kept (s : StrategyHost) : Prop where
  accounted : s.loader.Accounted
  unmade : ∀ strategy, s.made ≤ strategy.address → s.calls strategy = []
  registered : ∀ strategy ∈ s.manager.buildStrategyList, strategy.address < s.made ∧ s.Held (s.origin strategy)
  stage : ∀ strategy, strategy.address < s.made → stageOf (s.calls strategy) = some (s.stageNow strategy)
  good : ∀ strategy, ∀ call ∈ s.calls strategy, call = goodCall (s.origin strategy) call.method

theorem kept_fresh : Kept {} := by
  refine ⟨StrategyPluginLoader.accounted_fresh, fun _ _ => rfl, ?_, ?_, ?_⟩
  · intro strategy hmem
    obtain ⟨strategyId, entry, hentry, -⟩ := (Table.mem_valuesBy _).mp hmem
    simp at hentry
  · intro strategy hlt
    exact absurd hlt (Nat.not_lt_zero _)
  · simp

theorem newcomer_mem {strategyId : String} (strategy : IStrategy) (instruments : List String)
    (hnew : s.manager.strategies.lookup strategyId = none) (other : IStrategy) :
    other ∈ (s.manager.enter strategyId strategy instruments).buildStrategyList ↔
      other = strategy ∨ other ∈ s.manager.buildStrategyList := by
  rw [StrategyManager.buildStrategyList_enter hnew, Multiset.mem_cons]

theorem Kept.newcomer (h : s.Kept) (hheld : s.Held origin) {manager : StrategyManager}
    (hrunning : manager.running = s.manager.running)
    (hother : ∀ other ≠ ⟨s.made⟩, other ∈ manager.buildStrategyList ↔ other ∈ s.manager.buildStrategyList)
    (hstage : stageOf (methods.map (goodCall origin)) =
      some ((s.newcomer origin methods manager).stageNow ⟨s.made⟩)) :
    (s.newcomer origin methods manager).Kept := by
  have hold : ∀ {strategy : IStrategy}, strategy.address < s.made + 1 → strategy ≠ ⟨s.made⟩ →
      strategy.address < s.made := by
    intro strategy hlt hne
    rcases strategy with ⟨address⟩
    have hne' : address ≠ s.made := by simpa using hne
    simp only at hlt ⊢
    omega
  refine ⟨h.accounted, fun strategy hge => ?_, fun strategy hmem => ?_, fun strategy hlt => ?_,
    fun strategy call hcall => ?_⟩
  · have hne : strategy ≠ ⟨s.made⟩ := by
      rintro rfl
      exact absurd hge (Nat.not_succ_le_self s.made)
    simp only [StrategyHost.newcomer, Function.update_of_ne hne]
    exact h.unmade strategy (Nat.le_of_succ_le hge)
  · by_cases hne : strategy = ⟨s.made⟩
    · subst hne
      refine ⟨Nat.lt_succ_self _, ?_⟩
      have horigin : (s.newcomer origin methods manager).origin ⟨s.made⟩ = origin := Function.update_self _ _ _
      rw [horigin]
      exact hheld
    · obtain ⟨hlt, hheld'⟩ := h.registered strategy ((hother strategy hne).mp hmem)
      simp only [StrategyHost.newcomer, Function.update_of_ne hne]
      exact ⟨Nat.lt_succ_of_lt hlt, hheld'⟩
  · by_cases hne : strategy = ⟨s.made⟩
    · subst hne
      simpa [StrategyHost.newcomer] using hstage
    · have hsame : (s.newcomer origin methods manager).stageNow strategy = s.stageNow strategy := by
        unfold stageNow
        simp only [StrategyHost.newcomer, hother strategy hne, hrunning]
      rw [hsame, ← h.stage strategy (hold hlt hne)]
      simp only [StrategyHost.newcomer, Function.update_of_ne hne]
  · by_cases hne : strategy = ⟨s.made⟩
    · subst hne
      simp only [StrategyHost.newcomer, Function.update_self, List.mem_map] at hcall ⊢
      obtain ⟨method, -, rfl⟩ := hcall
      rfl
    · simp only [StrategyHost.newcomer, Function.update_of_ne hne] at hcall ⊢
      exact h.good strategy call hcall

theorem Kept.destroyed (h : s.Kept) (hheld : s.Held origin)
    (hstage : stageOf (methods.map (goodCall origin)) = some .initialized) :
    ((s.newcomer origin methods s.manager).record {⟨s.made⟩} .destroy).Kept := by
  have hunlisted : (⟨s.made⟩ : IStrategy) ∉ s.manager.buildStrategyList := fun hmem =>
    absurd (h.registered _ hmem).1 (Nat.lt_irrefl _)
  rw [record_newcomer h.accounted hheld]
  refine h.newcomer hheld rfl (fun _ _ => Iff.rfl) ?_
  rw [List.map_append, List.map_singleton, stageOf_append, hstage]
  exact congrArg some (if_neg hunlisted).symm

theorem Kept.registerStrategy (h : s.Kept) (hheld : s.Held origin) (strategyId : String) (instruments : List String)
    (hstage : stageOf (methods.map (goodCall origin)) = some .initialized) :
    ((s.newcomer origin methods s.manager).registerStrategy strategyId ⟨s.made⟩ instruments).2.Kept := by
  have hunlisted : (⟨s.made⟩ : IStrategy) ∉ s.manager.buildStrategyList := fun hmem =>
    absurd (h.registered _ hmem).1 (Nat.lt_irrefl _)
  show Kept (if (s.manager.registerStrategy strategyId (some ⟨s.made⟩) instruments).1 ≠ .success then
      (s.newcomer origin methods
        (s.manager.registerStrategy strategyId (some ⟨s.made⟩) instruments).2).record {⟨s.made⟩} .destroy
    else s.newcomer origin methods (s.manager.registerStrategy strategyId (some ⟨s.made⟩) instruments).2)
  cases hadmits : s.manager.admits strategyId instruments with
  | false =>
    obtain ⟨herror, hsame⟩ := StrategyManager.registerStrategy_refused ⟨s.made⟩ hadmits
    rw [if_pos herror, hsame]
    exact h.destroyed hheld hstage
  | true =>
    rw [StrategyManager.registerStrategy_admitted hadmits, if_neg (not_not.mpr rfl)]
    simp only [StrategyManager.admits, Bool.and_eq_true, Bool.not_eq_true', Option.isNone_iff_eq_none] at hadmits
    obtain ⟨⟨⟨-, hrunning⟩, hnew⟩, -⟩ := hadmits
    have hlist := newcomer_mem ⟨s.made⟩ instruments hnew
    refine h.newcomer hheld rfl (fun other hne => ?_) ?_
    · rw [hlist, or_iff_right hne]
    · rw [hstage]
      unfold stageNow
      have hmem := (hlist ⟨s.made⟩).mpr (Or.inl rfl)
      have hstopped : (s.manager.enter strategyId ⟨s.made⟩ instruments).running = false := hrunning
      simp only [StrategyHost.newcomer, hmem, hstopped, if_true, Bool.false_eq_true, if_false]

theorem held_create (h : s.loader.create config.strategyName = some functions) : s.Held (some functions) := by
  rintro _ ⟨⟩
  obtain ⟨entry, hentry, rfl⟩ := Option.map_eq_some_iff.mp h
  exact ⟨config.strategyName, entry, hentry, rfl⟩

theorem initialized_created (functions : Symbol × Symbol) :
    stageOf ([Method.create, .setOrderSender, .init].map (goodCall (some functions))) = some .initialized := rfl

/-- No strategy is made, or there is one more, that went through `Create`, `SetOrderSender` and `Init`. -/
theorem loadStrategy_cases (h : s.Kept) (config : HostedStrategy) :
    s.loadStrategy config = (.dynamicLibrarySymbolNotFound, s) ∨
    ∃ functions, s.Held (some functions) ∧ s.loadStrategy config =
      let made := s.newcomer (some functions) [.create, .setOrderSender, .init] s.manager
      if config.initialized ≠ .success then (.internalError, made.record {⟨s.made⟩} .destroy)
      else
        let result := made.registerStrategy config.strategyId ⟨s.made⟩ config.instruments
        (if result.1 ≠ .success then .systemError else .success, result.2) := by
  unfold loadStrategy StrategyHost.create
  cases hcreate : s.loader.create config.strategyName with
  | none => exact Or.inl rfl
  | some functions =>
    cases hmakes : config.makes with
    | false => exact Or.inl rfl
    | true =>
      have hheld := held_create hcreate
      refine Or.inr ⟨functions, hheld, ?_⟩
      simp only [adopt_eq h.accounted hheld (h.unmade ⟨s.made⟩ (Nat.le_refl _)), Bool.not_true, Bool.false_eq_true,
        if_false, record_newcomer h.accounted hheld, List.cons_append, List.nil_append]

theorem Kept.loadStrategy (h : s.Kept) (config : HostedStrategy) : (s.loadStrategy config).2.Kept := by
  rcases loadStrategy_cases h config with hnone | ⟨functions, hheld, hmade⟩
  · rw [hnone]
    exact h
  · rw [hmade]
    dsimp only
    split
    case isTrue => exact h.destroyed hheld (initialized_created functions)
    case isFalse => exact h.registerStrategy hheld _ _ (initialized_created functions)

theorem Kept.initStrategies (h : s.Kept) (configs : List HostedStrategy) : (s.initStrategies configs).2.Kept := by
  induction configs generalizing s with
  | nil => exact h
  | cons config configs ih =>
    rw [StrategyHost.initStrategies]
    split
    case isTrue => exact ih h
    case isFalse =>
      dsimp only
      split
      case isTrue => exact h.loadStrategy config
      case isFalse => exact ih (h.loadStrategy config)

/-! ## The registered strategies together -/

theorem calls_record {strategies : Multiset IStrategy} (haccounted : s.loader.Accounted) (hnodup : strategies.Nodup)
    (hheld : ∀ strategy ∈ strategies, s.Held (s.origin strategy)) (method : Method) (strategy : IStrategy) :
    (s.record strategies method).calls strategy =
      if strategy ∈ strategies then s.calls strategy ++ [goodCall (s.origin strategy) method]
      else s.calls strategy := by
  unfold record
  dsimp only
  split
  case isTrue hmem =>
    rw [Multiset.count_eq_one_of_mem hnodup hmem, callOf_held haccounted (hheld strategy hmem), List.replicate_one]
  case isFalse hmem => rw [Multiset.count_eq_zero_of_notMem hmem, List.replicate_zero, List.append_nil]

theorem Kept.record (h : s.Kept) {strategies : Multiset IStrategy} (hnodup : strategies.Nodup)
    (hsub : ∀ strategy ∈ strategies, strategy ∈ s.manager.buildStrategyList) {method : Method}
    {manager : StrategyManager} (hsame : manager.buildStrategyList = s.manager.buildStrategyList)
    (hstage : ∀ strategy, (if strategy ∈ strategies then (s.stageNow strategy).advance method
      else some (s.stageNow strategy)) = some ({ s with manager }.stageNow strategy)) :
    Kept ({ s with manager }.record strategies method) := by
  have hcalls := calls_record (s := { s with manager }) h.accounted hnodup
    (fun strategy hmem => (h.registered strategy (hsub strategy hmem)).2) method
  refine ⟨h.accounted, fun strategy hge => ?_, fun strategy hmem => h.registered strategy (hsame ▸ hmem),
    fun strategy hlt => ?_, fun strategy call hcall => ?_⟩
  · have hunlisted : strategy ∉ strategies := fun hmem =>
      absurd (h.registered strategy (hsub strategy hmem)).1 (Nat.not_lt.mpr hge)
    rw [hcalls, if_neg hunlisted]
    exact h.unmade strategy hge
  · rw [hcalls]
    refine Eq.trans ?_ (hstage strategy)
    split
    case isTrue => rw [stageOf_append, h.stage strategy hlt, Option.bind_some]; rfl
    case isFalse => exact h.stage strategy hlt
  · rw [hcalls] at hcall
    split at hcall
    case isTrue =>
      rcases List.mem_append.mp hcall with hold | hnew
      · exact h.good strategy call hold
      · rw [List.mem_singleton.mp hnew]
        rfl
    case isFalse => exact h.good strategy call hcall

/-- What `Stop` calls on a registered strategy. -/
def lastCalls (s : StrategyHost) : List Method := if s.manager.running then [.stop, .destroy] else [.destroy]

theorem calls_stop (h : s.Kept) (hnodup : s.manager.buildStrategyList.Nodup) (strategy : IStrategy) :
    s.stop.calls strategy = if strategy ∈ s.manager.buildStrategyList then
      s.calls strategy ++ s.lastCalls.map (goodCall (s.origin strategy)) else s.calls strategy := by
  have hheld : ∀ strategy ∈ s.manager.buildStrategyList, s.Held (s.origin strategy) :=
    fun strategy hmem => (h.registered strategy hmem).2
  have hdestroyed : s.stop.calls = ((if s.manager.running then s.record s.manager.buildStrategyList .stop
      else s).record s.manager.buildStrategyList .destroy).calls := rfl
  rw [hdestroyed]
  unfold lastCalls
  cases hrunning : s.manager.running with
  | false => exact calls_record h.accounted hnodup hheld .destroy strategy
  | true =>
    have hlast := calls_record (s := s.record s.manager.buildStrategyList .stop) h.accounted hnodup hheld .destroy
      strategy
    rw [calls_record h.accounted hnodup hheld] at hlast
    simp only [if_true]
    rw [hlast]
    split
    case isTrue => simp [StrategyHost.record]
    case isFalse => rfl

theorem stop_empty (s : StrategyHost) (strategy : IStrategy) : strategy ∉ s.stop.manager.buildStrategyList := by
  intro hmem
  obtain ⟨strategyId, entry, hentry, -⟩ := (Table.mem_valuesBy _).mp hmem
  simp [StrategyHost.stop, StrategyManager.stop] at hentry

theorem Kept.stop (h : s.Kept) (hnodup : s.manager.buildStrategyList.Nodup) : s.stop.Kept ∧ s.stop.loader = {} := by
  have hloader : s.stop.loader = {} := by
    show (if s.manager.running then s.record s.manager.buildStrategyList .stop else s).loader.unloadAll = {}
    cases s.manager.running <;> exact h.accounted.unloadAll
  have hmade : s.stop.made = s.made := by
    show (if s.manager.running then s.record s.manager.buildStrategyList .stop else s).made = s.made
    cases s.manager.running <;> rfl
  have horigin : s.stop.origin = s.origin := by
    show (if s.manager.running then s.record s.manager.buildStrategyList .stop else s).origin = s.origin
    cases s.manager.running <;> rfl
  refine ⟨⟨?_, fun strategy hge => ?_, fun strategy hmem => absurd hmem (stop_empty s strategy),
    fun strategy hlt => ?_, fun strategy call hcall => ?_⟩, hloader⟩
  · rw [hloader]
    exact StrategyPluginLoader.accounted_fresh
  · rw [hmade] at hge
    have hunlisted : strategy ∉ s.manager.buildStrategyList := fun hmem =>
      absurd (h.registered strategy hmem).1 (Nat.not_lt.mpr hge)
    rw [calls_stop h hnodup, if_neg hunlisted]
    exact h.unmade strategy hge
  · rw [hmade] at hlt
    have hnow : s.stop.stageNow strategy = .destroyed := if_neg (stop_empty s strategy)
    have hstage := h.stage strategy hlt
    rw [hnow, calls_stop h hnodup]
    unfold stageNow at hstage
    unfold lastCalls
    split
    case isFalse hunlisted => simpa [hunlisted] using hstage
    case isTrue hmem =>
      rw [if_pos hmem] at hstage
      cases hrunning : s.manager.running with
      | false =>
        rw [hrunning] at hstage
        simp [stageOf_append, hstage, goodCall, Stage.advance]
      | true =>
        have htwo : s.calls strategy ++ [Method.stop, .destroy].map (goodCall (s.origin strategy)) =
            s.calls strategy ++ [goodCall (s.origin strategy) .stop] ++ [goodCall (s.origin strategy) .destroy] := by
          simp
        rw [hrunning] at hstage
        rw [if_pos rfl, htwo, stageOf_append, stageOf_append, hstage]
        rfl
  · rw [calls_stop h hnodup] at hcall
    rw [horigin]
    split at hcall
    case isTrue =>
      rcases List.mem_append.mp hcall with hold | hnew
      · exact h.good strategy call hold
      · obtain ⟨method, -, rfl⟩ := List.mem_map.mp hnew
        rfl
    case isFalse => exact h.good strategy call hcall

theorem Kept.stopLanes (h : s.Kept) : s.stopLanes.Kept :=
  ⟨h.accounted, h.unmade, h.registered, h.stage, h.good⟩

theorem Kept.start (h : s.Kept) (hsound : s.manager.Sound) : s.start.2.Kept := by
  have hnodup : s.manager.buildStrategyList.Nodup := Table.nodup_valuesBy _ hsound.objects
  cases hrunning : s.manager.running with
  | true => simpa [StrategyHost.start, hrunning] using h
  | false =>
    have hlist : s.manager.start.2.buildStrategyList = s.manager.buildStrategyList := by
      unfold StrategyManager.start
      rw [hrunning]
      cases s.manager.dispatcher <;> rfl
    have hstarted := hsound.start.2
    have hstep : s.start.2 =
        { s with manager := s.manager.start.2 }.record s.manager.start.2.buildStrategyList .start := by
      simp [StrategyHost.start, hrunning]
    rw [hstep, hlist]
    refine h.record hnodup (fun _ hmem => hmem) hlist fun strategy => ?_
    unfold stageNow
    simp only [hlist, hstarted, hrunning, if_true, Bool.false_eq_true, if_false]
    split <;> rfl

end StrategyHost

end Qtrade.Strategy
