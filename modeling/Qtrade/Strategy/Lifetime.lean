import Qtrade.Strategy.Host

/-!
# The life of a strategy

Whatever is called on the host, each strategy goes through its stages in order, and is destroyed before its library
is closed. The lanes stop after the strategies, and no event must come in between.
-/

namespace Qtrade.Strategy

open Engine (NamedStrategy Event EventType)

namespace StrategyHost

variable {s : StrategyHost}

/-! ## Between the two stops -/

/-- A handler is left on the lane, and its dispatcher is gone. -/
def Dangling (s : StrategyHost) (type : EventType) : Prop :=
  s.manager.dispatcher = none ∧ s.manager.handlers type ≠ []

/-- A manager without the handlers that `Stop` left. -/
def settled (manager : StrategyManager) : StrategyManager :=
  if manager.dispatcher.isNone then { manager with handlers := fun _ => [] } else manager

@[simp] theorem settled_running (manager : StrategyManager) : (settled manager).running = manager.running := by
  unfold settled
  split <;> rfl

@[simp] theorem settled_strategies (manager : StrategyManager) :
    (settled manager).strategies = manager.strategies := by
  unfold settled
  split <;> rfl

theorem settled_list (manager : StrategyManager) :
    (settled manager).buildStrategyList = manager.buildStrategyList := by
  simp [StrategyManager.buildStrategyList]

theorem settled_of_empty {manager : StrategyManager}
    (h : manager.dispatcher = none → ∀ type, manager.handlers type = []) : settled manager = manager := by
  unfold settled
  split
  case isFalse => rfl
  case isTrue hnone => rw [← funext (h (Option.isNone_iff_eq_none.mp hnone))]

theorem settled_eq (h : ∀ type, ¬ s.Dangling type) : settled s.manager = s.manager :=
  settled_of_empty fun hnone type => not_not.mp fun hleft => h type ⟨hnone, hleft⟩

theorem settled_sound {manager : StrategyManager} (h : manager.Sound) : settled manager = manager := by
  refine settled_of_empty fun hnone type => ?_
  rw [h.handlers, hnone]
  rfl

theorem settled_stop (manager : StrategyManager) : settled manager.stop = (settled manager).release := by
  show manager.release = (settled manager).release
  unfold settled
  split <;> rfl

theorem registerStrategy_handlers (manager : StrategyManager) (handlers : EventType → List Nat) (strategyId : String)
    (strategy : Option IStrategy) (instruments : List String) :
    ({ manager with handlers }.registerStrategy strategyId strategy instruments).2 =
      { (manager.registerStrategy strategyId strategy instruments).2 with handlers } := by
  cases strategy with
  | none => rfl
  | some raw =>
    unfold StrategyManager.registerStrategy
    dsimp only
    split_ifs <;> rfl

theorem registerStrategy_dispatcher (manager : StrategyManager) (strategyId : String) (strategy : Option IStrategy)
    (instruments : List String) :
    (manager.registerStrategy strategyId strategy instruments).2.dispatcher.isNone = manager.dispatcher.isNone := by
  cases strategy with
  | none => rfl
  | some raw =>
    unfold StrategyManager.registerStrategy
    dsimp only
    split_ifs <;> simp [StrategyManager.pushRoutingToDispatcher]

theorem settled_registerStrategy (manager : StrategyManager) (strategyId : String) (strategy : Option IStrategy)
    (instruments : List String) : settled (manager.registerStrategy strategyId strategy instruments).2 =
      ((settled manager).registerStrategy strategyId strategy instruments).2 := by
  unfold settled
  rw [registerStrategy_dispatcher]
  split
  case isTrue => exact (registerStrategy_handlers manager _ strategyId strategy instruments).symm
  case isFalse => rfl

theorem told_settled {event : Event} (h : ¬ s.Dangling event.type) :
    s.manager.told event = (settled s.manager).told event := by
  unfold settled
  split
  case isFalse => rfl
  case isTrue hnone =>
    have hempty : s.manager.handlers event.type = [] :=
      not_not.mp fun hleft => h ⟨Option.isNone_iff_eq_none.mp hnone, hleft⟩
    simp [StrategyManager.told, hempty]

theorem told_dangling {event : Event} (h : s.Dangling event.type) : s.manager.told event = none := by
  obtain ⟨hnone, hleft⟩ := h
  obtain ⟨number, rest, hhandlers⟩ := List.exists_cons_of_ne_nil hleft
  simp [StrategyManager.told, StrategyManager.call, hnone, hhandlers]

theorem told_stopped {manager : StrategyManager} (hsound : manager.Sound) (hrunning : manager.running = false)
    (event : Event) : manager.told event = some 0 := by
  unfold StrategyManager.told
  rw [hsound.handlers]
  cases hd : manager.dispatcher with
  | none => rfl
  | some dispatcher =>
    have hactive := (hsound.life dispatcher hd).1.trans hrunning
    have hcall : manager.call event dispatcher.number = some 0 := by
      unfold StrategyManager.call
      rw [hd]
      simp [StrategyEventDispatcher.handle_eq, StrategyEventDispatcher.recipients, hactive]
    simp [hcall]

theorem told_registered {manager : StrategyManager} (hsound : manager.Sound) (event : Event) :
    ∃ strategies, manager.told event = some strategies ∧ strategies.Nodup ∧
      ∀ strategy ∈ strategies, strategy ∈ manager.buildStrategyList ∧ manager.running = true := by
  cases hrunning : manager.running with
  | false => exact ⟨0, told_stopped hsound hrunning event, Multiset.nodup_zero, by simp⟩
  | true =>
    rw [hsound.told hrunning]
    cases hrouted : manager.instrumentRoutes.lookup event.instrument with
    | none => exact ⟨_, rfl, Table.nodup_valuesBy _ hsound.objects, fun _ hmem => ⟨hmem, rfl⟩⟩
    | some owner =>
      obtain ⟨strategyId, entry, hentry, hobject, -⟩ := (hsound.routes event.instrument owner).mp hrouted
      refine ⟨{owner}, rfl, Multiset.nodup_singleton owner, fun strategy hmem => ⟨?_, rfl⟩⟩
      rw [Multiset.mem_singleton.mp hmem]
      exact (Table.mem_valuesBy _).mpr ⟨strategyId, entry, hentry, hobject⟩

/-- An event finds its handlers, unless they are left of a dispatcher that is gone. -/
theorem deliver_told (hsound : (settled s.manager).Sound) {event : Event} (hleft : ¬ s.Dangling event.type) :
    ∃ strategies, s.deliver event = some (s.record strategies .onEvent) ∧ strategies.Nodup ∧
      ∀ strategy ∈ strategies, strategy ∈ s.manager.buildStrategyList ∧ s.manager.running = true := by
  obtain ⟨strategies, htold, hnodup, hsub⟩ := told_registered hsound event
  rw [settled_list, settled_running] at hsub
  refine ⟨strategies, ?_, hnodup, hsub⟩
  rw [deliver, told_settled hleft, htold, Option.map_some]

theorem Kept.deliver (h : s.Kept) (hsound : (settled s.manager).Sound) {event : Event}
    (hleft : ¬ s.Dangling event.type) : ∃ s', s.deliver event = some s' ∧ s'.Kept ∧ s'.manager = s.manager := by
  obtain ⟨strategies, hdeliver, hnodup, hsub⟩ := deliver_told hsound hleft
  refine ⟨_, hdeliver, h.record hnodup (fun strategy hmem => (hsub strategy hmem).1) rfl fun strategy => ?_, rfl⟩
  split
  case isFalse => rfl
  case isTrue hmem =>
    unfold stageNow
    simp only [hsub strategy hmem, if_true]
    rfl

/-! ## The manager within -/

/-- A configured strategy as the manager's loop comes upon it. -/
def asPlugin (config : HostedStrategy) (created : Option IStrategy) : PluginStrategy :=
  { config.toNamedStrategy with created, initialized := config.initialized }

theorem registerStrategy_manager (s : StrategyHost) (strategyId : String) (strategy : IStrategy)
    (instruments : List String) : (s.registerStrategy strategyId strategy instruments).2.manager =
      (s.manager.registerStrategy strategyId (some strategy) instruments).2 := by
  unfold StrategyHost.registerStrategy
  dsimp only
  split <;> rfl

theorem registerStrategy_made (s : StrategyHost) (strategyId : String) (strategy : IStrategy)
    (instruments : List String) : (s.registerStrategy strategyId strategy instruments).2.made = s.made := by
  unfold StrategyHost.registerStrategy
  dsimp only
  split <;> rfl

theorem loadStrategy_manager (h : s.Kept) (config : HostedStrategy) (henabled : config.enabled = true) :
    ∃ created, (∀ raw ∈ created, raw = ⟨s.made⟩ ∧ (s.loadStrategy config).2.made = s.made + 1) ∧
      s.made ≤ (s.loadStrategy config).2.made ∧
      ∀ rest, s.manager.initStrategies (asPlugin config created :: rest) =
        if (s.loadStrategy config).1 ≠ .success then
          ((s.loadStrategy config).1, (s.loadStrategy config).2.manager)
        else (s.loadStrategy config).2.manager.initStrategies rest := by
  rcases loadStrategy_cases h config with hnone | ⟨functions, -, hmade⟩
  · refine ⟨none, by simp, by rw [hnone], fun rest => ?_⟩
    rw [hnone, StrategyManager.initStrategies]
    simp [asPlugin, henabled]
  · rw [hmade]
    dsimp only
    have hmanager : (s.newcomer (some functions) [.create, .setOrderSender, .init] s.manager).manager = s.manager :=
      rfl
    have hcount : (s.newcomer (some functions) [.create, .setOrderSender, .init] s.manager).made = s.made + 1 := rfl
    generalize s.newcomer (some functions) [.create, .setOrderSender, .init] s.manager = ready at hmanager hcount ⊢
    refine ⟨some ⟨s.made⟩, ?_⟩
    split
    case isTrue hfailed =>
      refine ⟨by simp [StrategyHost.record, hcount], hcount ▸ Nat.le_succ _, fun rest => ?_⟩
      rw [StrategyManager.initStrategies]
      simp [asPlugin, henabled, hfailed, StrategyHost.record, hmanager]
    case isFalse hinit =>
      have hmade' := (registerStrategy_made ready config.strategyId ⟨s.made⟩ config.instruments).trans hcount
      refine ⟨by simp [hmade'], hmade' ▸ Nat.le_succ _, fun rest => ?_⟩
      have hcode : (ready.registerStrategy config.strategyId ⟨s.made⟩ config.instruments).1 =
          (s.manager.registerStrategy config.strategyId (some ⟨s.made⟩) config.instruments).1 := by
        rw [← hmanager]
        rfl
      rw [StrategyManager.initStrategies, registerStrategy_manager, hcode, hmanager]
      simp only [asPlugin, henabled, hinit, Bool.not_true, Bool.false_eq_true, if_false]
      split <;> simp_all

theorem created_asPlugin (config : HostedStrategy) (created : Option IStrategy) (rest : List PluginStrategy) :
    StrategyManager.created (asPlugin config created :: rest) = created.toList ++ StrategyManager.created rest := by
  cases created <;> simp [StrategyManager.created, asPlugin]

theorem initStrategies_manager (h : s.Kept) (configs : List HostedStrategy) :
    ∃ strategies, strategies.map (·.toNamedStrategy) = configs.map (·.toNamedStrategy) ∧
      (StrategyManager.created strategies).Nodup ∧
      (∀ raw ∈ StrategyManager.created strategies, s.made ≤ raw.address) ∧
      s.manager.initStrategies strategies = ((s.initStrategies configs).1, (s.initStrategies configs).2.manager) := by
  induction configs generalizing s with
  | nil => exact ⟨[], rfl, List.nodup_nil, by simp [StrategyManager.created], rfl⟩
  | cons config configs ih =>
    rw [StrategyHost.initStrategies]
    cases henabled : config.enabled with
    | false =>
      obtain ⟨strategies, hnames, hnodup, hfresh, hloop⟩ := ih h
      refine ⟨asPlugin config none :: strategies, by simp [hnames, asPlugin], ?_, ?_, ?_⟩
      · rwa [created_asPlugin]
      · rwa [created_asPlugin]
      · rw [StrategyManager.initStrategies_disabled henabled]
        exact hloop
    | true =>
      obtain ⟨created, hcreated, hmade, hstep⟩ := loadStrategy_manager h config henabled
      simp only [Bool.not_true, Bool.false_eq_true, if_false]
      by_cases hfailed : (s.loadStrategy config).1 ≠ .success
      · -- The rest of the configuration is not looked at.
        have hnone : StrategyManager.created (configs.map (asPlugin · none)) = [] := by
          simp [StrategyManager.created, asPlugin]
        refine ⟨asPlugin config created :: configs.map (asPlugin · none), ?_, ?_, ?_, ?_⟩
        · simp [asPlugin]
        · rw [created_asPlugin, hnone, List.append_nil]
          cases created <;> simp
        · rw [created_asPlugin, hnone, List.append_nil]
          intro raw hmem
          rw [(hcreated raw (Option.mem_toList.mp hmem)).1]
        · rw [hstep, if_pos hfailed, if_pos hfailed]
      · obtain ⟨strategies, hnames, hnodup, hfresh, hloop⟩ := ih (h.loadStrategy config)
        refine ⟨asPlugin config created :: strategies, ?_, ?_, ?_, ?_⟩
        · simp [hnames, asPlugin]
        · rw [created_asPlugin]
          cases created with
          | none => exact hnodup
          | some raw =>
            obtain ⟨rfl, hcount⟩ := hcreated raw rfl
            refine List.nodup_cons.mpr ⟨fun hmem => ?_, hnodup⟩
            have hge := hfresh _ hmem
            rw [hcount] at hge
            exact absurd hge (Nat.not_succ_le_self s.made)
        · rw [created_asPlugin]
          intro raw hmem
          rcases List.mem_append.mp hmem with hfirst | hrest
          · rw [(hcreated raw (Option.mem_toList.mp hfirst)).1]
          · exact hmade.trans (hfresh raw hrest)
        · rw [hstep, if_neg hfailed, if_neg hfailed]
          exact hloop

/-! ## Runs -/

/-- `given` where the caller of `RegisterStrategy` hands over a strategy and not a null pointer. -/
inductive Op
  | register (strategyId : String) (given : Bool) (instruments : List String)
  | init (pluginDir : Directory) (strategies : List HostedStrategy)
  | start
  | deliver (event : Event)
  | stop
  | stopLanes

def register (s : StrategyHost) (strategyId : String) (given : Bool) (instruments : List String) : StrategyHost :=
  if given then
    let result := s.adopt none .handOver
    (result.2.registerStrategy strategyId result.1 instruments).2
  else { s with manager := (s.manager.registerStrategy strategyId none instruments).2 }

def step (s : StrategyHost) : Op → Option StrategyHost
  | .register strategyId given instruments => some (s.register strategyId given instruments)
  | .init pluginDir strategies => some (s.init pluginDir strategies).2
  | .start => some s.start.2
  | .deliver event => s.deliver event
  | .stop => some s.stop
  | .stopLanes => some s.stopLanes

/-- Strategies are loaded once between two stops, the lanes stop after the strategies, and in between nothing is
loaded, started or delivered. -/
def Orderly (s : StrategyHost) : Op → Prop
  | .init _ _ => (s.manager.running = true ∨ s.manager.dispatcher.isNone = true) ∧ ∀ type, ¬ s.Dangling type
  | .start => ∀ type, ¬ s.Dangling type
  | .deliver event => ¬ s.Dangling event.type
  | .stopLanes => s.manager.dispatcher = none
  | .register _ _ _ => True
  | .stop => True

theorem Kept.load (h : s.Kept) (pluginDir : Directory) :
    Kept { s with loader := (s.loader.loadStrategyPlugin pluginDir).2 } := by
  refine ⟨h.accounted.loadStrategyPlugin pluginDir, h.unmade, fun strategy hmem => ?_, h.stage, h.good⟩
  obtain ⟨hlt, hheld⟩ := h.registered strategy hmem
  refine ⟨hlt, fun functions hfunctions => ?_⟩
  obtain ⟨pluginName, entry, hentry, hsame⟩ := hheld functions hfunctions
  refine ⟨pluginName, entry, ?_, hsame⟩
  show (s.loader.loadStrategyPlugin pluginDir).2.plugins.lookup pluginName = some entry
  rw [StrategyPluginLoader.loadStrategyPlugin_files, StrategyPluginLoader.lookup_loadEntries, hentry, Option.some_or]

theorem Kept.makeDispatcher (h : s.Kept) : Kept { s with manager := s.manager.makeDispatcher } :=
  ⟨h.accounted, h.unmade, h.registered, h.stage, h.good⟩

theorem Kept.init (h : s.Kept) (pluginDir : Directory) (strategies : List HostedStrategy) :
    (s.init pluginDir strategies).2.Kept := by
  unfold StrategyHost.init
  split
  case isTrue => exact h
  case isFalse =>
    dsimp only
    split
    case isTrue => exact h.load pluginDir
    case isFalse =>
      split
      case isTrue => exact (h.load pluginDir).initStrategies strategies
      case isFalse => exact ((h.load pluginDir).initStrategies strategies).makeDispatcher

theorem Kept.register (h : s.Kept) (strategyId : String) (given : Bool) (instruments : List String) :
    (s.register strategyId given instruments).Kept := by
  cases given with
  | false => exact ⟨h.accounted, h.unmade, h.registered, h.stage, h.good⟩
  | true =>
    have hheld : s.Held none := by simp [Held]
    have hadopt := adopt_eq h.accounted hheld (h.unmade ⟨s.made⟩ (Nat.le_refl _)) .handOver
    unfold StrategyHost.register
    rw [hadopt]
    exact h.registerStrategy hheld strategyId instruments rfl

/-- `Init` is the manager's own, with strategies that are nobody else's. -/
theorem init_manager (h : s.Kept) (pluginDir : Directory) (configs : List HostedStrategy)
    (honce : s.manager.running = true ∨ s.manager.dispatcher.isNone = true) :
    ∃ loaded strategies, s.manager.Own (.init loaded strategies) ∧
      (s.init pluginDir configs).2.manager = (s.manager.init loaded strategies).2 := by
  have hnone : s.manager.Own (.init .success []) := ⟨List.nodup_nil, by simp [StrategyManager.created], honce⟩
  unfold StrategyHost.init StrategyManager.init
  by_cases hrunning : s.manager.running = true
  · exact ⟨.success, [], hnone, by simp [hrunning]⟩
  · simp only [hrunning, Bool.false_eq_true, if_false]
    by_cases hloaded : (s.loader.loadStrategyPlugin pluginDir).1 = .success
    · obtain ⟨strategies, -, hnodup, hfresh, hloop⟩ := initStrategies_manager (h.load pluginDir) configs
      refine ⟨.success, strategies, ⟨hnodup, fun raw hmem hlisted => ?_, honce⟩, ?_⟩
      · exact absurd (h.registered raw hlisted).1 (Nat.not_lt.mpr (hfresh raw hmem))
      · simp only [hloaded, ne_eq, not_true_eq_false, if_false, hloop]
        split <;> rfl
    · exact ⟨(s.loader.loadStrategyPlugin pluginDir).1, [], hnone, by simp [hloaded]⟩

/-- But for handlers that are left, the manager is in a run of its own, in which no strategy was anyone else's. -/
structure InRun (s : StrategyHost) : Prop where
  kept : s.Kept
  manager : Runs.Reaches StrategyManager.step StrategyManager.Own {} (settled s.manager)

theorem InRun.sound (h : s.InRun) : (settled s.manager).Sound := StrategyManager.sound_reaches h.manager

theorem InRun.nodup (h : s.InRun) : s.manager.buildStrategyList.Nodup := by
  rw [← settled_list]
  exact Table.nodup_valuesBy _ h.sound.objects

theorem InRun.register (h : s.InRun) (strategyId : String) (given : Bool) (instruments : List String) :
    (s.register strategyId given instruments).InRun := by
  refine ⟨h.kept.register strategyId given instruments, ?_⟩
  cases given with
  | false =>
    have hmanager : settled (s.register strategyId false instruments).manager =
        ((settled s.manager).registerStrategy strategyId none instruments).2 := settled_registerStrategy _ _ _ _
    exact h.manager.tail (a := .register strategyId none instruments) (by simp [StrategyManager.Own])
      (congrArg some hmanager.symm)
  | true =>
    have hmanager : settled (s.register strategyId true instruments).manager =
        ((settled s.manager).registerStrategy strategyId (some ⟨s.made⟩) instruments).2 :=
      (congrArg settled (registerStrategy_manager _ _ _ _)).trans (settled_registerStrategy _ _ _ _)
    refine h.manager.tail (a := .register strategyId (some ⟨s.made⟩) instruments) ?_ (congrArg some hmanager.symm)
    rintro _ ⟨⟩ hmem
    rw [settled_list] at hmem
    exact absurd (h.kept.registered _ hmem).1 (Nat.lt_irrefl _)

theorem InRun.init (h : s.InRun) (pluginDir : Directory) (strategies : List HostedStrategy)
    (honce : s.manager.running = true ∨ s.manager.dispatcher.isNone = true) (hleft : ∀ type, ¬ s.Dangling type) :
    (s.init pluginDir strategies).2.InRun := by
  obtain ⟨loaded, made, hown, hinit⟩ := init_manager h.kept pluginDir strategies honce
  have hmanager := h.manager
  rw [settled_eq hleft] at hmanager
  have hreaches := hmanager.tail (a := .init loaded made) hown (congrArg some hinit.symm)
  have hsound := StrategyManager.sound_reaches hreaches
  refine ⟨h.kept.init pluginDir strategies, ?_⟩
  rwa [settled_sound hsound]

theorem InRun.start (h : s.InRun) (hleft : ∀ type, ¬ s.Dangling type) : s.start.2.InRun := by
  have hmanager := h.manager
  rw [settled_eq hleft] at hmanager
  have hstart : s.start.2.manager = s.manager.start.2 := by
    unfold StrategyHost.start
    split
    case isTrue hrunning => simp [StrategyManager.start, hrunning]
    case isFalse => rfl
  have hsound := StrategyManager.sound_reaches hmanager
  refine ⟨h.kept.start hsound, ?_⟩
  rw [hstart, settled_sound hsound.start.1]
  exact hmanager.tail (a := .start) trivial rfl

theorem InRun.stop (h : s.InRun) : s.stop.InRun := by
  refine ⟨(h.kept.stop h.nodup).1, ?_⟩
  have hmanager : settled s.stop.manager = (settled s.manager).release := settled_stop s.manager
  exact h.manager.tail (a := .release) trivial (congrArg some hmanager.symm)

theorem InRun.stopLanes (h : s.InRun) (hnone : s.manager.dispatcher = none) : s.stopLanes.InRun := by
  have hmanager : settled s.stopLanes.manager = settled s.manager := by
    simp [settled, StrategyHost.stopLanes, hnone]
  exact ⟨h.kept.stopLanes, hmanager ▸ h.manager⟩

theorem InRun.step (h : s.InRun) {op : Op} (horderly : s.Orderly op) {s' : StrategyHost}
    (hstep : s.step op = some s') : s'.InRun := by
  cases op with
  | register strategyId given instruments =>
    cases hstep
    exact h.register strategyId given instruments
  | init pluginDir strategies =>
    cases hstep
    exact h.init pluginDir strategies horderly.1 horderly.2
  | start =>
    cases hstep
    exact h.start horderly
  | deliver event =>
    obtain ⟨next, hnext, hkept, hmanager⟩ := h.kept.deliver h.sound horderly
    cases hnext.symm.trans hstep
    exact ⟨hkept, hmanager ▸ h.manager⟩
  | stop =>
    cases hstep
    exact h.stop
  | stopLanes =>
    cases hstep
    exact h.stopLanes horderly

/-- No call on a strategy is out of order or runs code that is closed, none is left that nobody has, and after `Stop`
all are destroyed and nothing is open. An event that comes between the two stops meets a dispatcher that is gone. -/
structure WellUsed (s : StrategyHost) : Prop where
  inOrder : ∀ strategy, (stageOf (s.calls strategy)).isSome = true
  inOpenCode : ∀ strategy, ∀ call ∈ s.calls strategy,
    call.mapped = true ∧ call.code = (s.origin strategy).map (·.1.library)
  kept : ∀ strategy, strategy.address < s.made →
    strategy ∈ s.manager.buildStrategyList ∨ stageOf (s.calls strategy) = some .destroyed
  handled : ∀ event, (s.deliver event).isSome = true ↔ ¬ s.Dangling event.type
  manager : Runs.Reaches StrategyManager.step StrategyManager.Own {} (settled s.manager)
  stopped : s.stop.loader = {} ∧
    ∀ strategy, strategy.address < s.stop.made → stageOf (s.stop.calls strategy) = some .destroyed

theorem Kept.inOrder (h : s.Kept) (strategy : IStrategy) : (stageOf (s.calls strategy)).isSome = true := by
  rcases Nat.lt_or_ge strategy.address s.made with hlt | hge
  · rw [h.stage strategy hlt]
    rfl
  · rw [h.unmade strategy hge]
    rfl

theorem InRun.handled (h : s.InRun) (event : Event) :
    (s.deliver event).isSome = true ↔ ¬ s.Dangling event.type := by
  by_cases hleft : s.Dangling event.type
  · simp [deliver, told_dangling hleft, hleft]
  · obtain ⟨strategies, hdeliver, -⟩ := deliver_told h.sound hleft
    simp [hdeliver, hleft]

/-- Whatever is loaded, registered, started, told and stopped, and in whatever order. -/
theorem well_used (h : Runs.Reaches step Orderly {} s) : s.WellUsed := by
  have hrun : s.InRun := by
    refine h.invariant ⟨kept_fresh, .refl _⟩ fun s op s' hs horderly hstep => ?_
    exact hs.step horderly hstep
  obtain ⟨hstopped, hloader⟩ := hrun.kept.stop hrun.nodup
  refine ⟨hrun.kept.inOrder, fun strategy call hcall => ?_, fun strategy hlt => ?_, hrun.handled, hrun.manager,
    hloader, fun strategy hlt => ?_⟩
  · rw [hrun.kept.good strategy call hcall]
    exact ⟨rfl, rfl⟩
  · by_cases hmem : strategy ∈ s.manager.buildStrategyList
    · exact Or.inl hmem
    · refine Or.inr ((hrun.kept.stage strategy hlt).trans ?_)
      exact congrArg some (if_neg hmem)
  · rw [hstopped.stage strategy hlt]
    exact congrArg some (if_neg (stop_empty s strategy))

/-- The second of these fails to initialize. -/
def twoConfigs : List HostedStrategy :=
  [{ strategyId := "one", strategyName := "a", enabled := true, instruments := ["x"] },
    { strategyId := "two", strategyName := "c", enabled := true, initialized := .internalError }]

/-- A load that fails, and a start after it. -/
def halfLoaded : StrategyHost := (({} : StrategyHost).init StrategyPluginLoader.pluginDir twoConfigs).2.start.2

theorem well_used_halfLoaded :
    (halfLoaded.calls ⟨0⟩).map (·.method) = [Method.create, .setOrderSender, .init, .start] ∧
      (halfLoaded.calls ⟨1⟩).map (·.method) = [Method.create, .setOrderSender, .init, .destroy] ∧
      halfLoaded.loader.linker.opened = {⟨1⟩, ⟨2⟩} ∧ halfLoaded.stop.loader = {} ∧
      halfLoaded.stop.Dangling .tickData ∧ (halfLoaded.stop.stopLanes.deliver (.tick "x")).isSome = true := by
  have hloaded : Runs.Reaches step Orderly {} (({} : StrategyHost).init StrategyPluginLoader.pluginDir twoConfigs).2 :=
    (Runs.Reaches.refl _).tail (a := Op.init StrategyPluginLoader.pluginDir twoConfigs)
      ⟨Or.inr rfl, fun _ hleft => hleft.2 rfl⟩ rfl
  have hreaches : Runs.Reaches step Orderly {} halfLoaded := by
    refine hloaded.tail (a := Op.start) (fun type hleft => hleft.2 ?_) rfl
    cases type <;> decide +kernel
  have hjoined := (hreaches.tail (a := Op.stop) trivial rfl).tail (a := Op.stopLanes) rfl rfl
  exact ⟨by decide +kernel, by decide +kernel, by decide +kernel, (well_used hreaches).stopped.1,
    ⟨rfl, by decide +kernel⟩, ((well_used hjoined).handled (.tick "x")).mpr fun hleft => hleft.2 rfl⟩

end StrategyHost

end Qtrade.Strategy
