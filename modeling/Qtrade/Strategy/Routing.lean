import Qtrade.Lib.Runs
import Qtrade.Strategy.Manager

/-!
# One owner for each instrument

The registry, the routes and the dispatcher's copy of them are written one after the other. Here they say the same in
every state of a manager, so an event reaches its owner once, or everyone once.
-/

namespace Qtrade.Strategy

open Engine (NamedStrategy Event EventType)

namespace StrategyManager

variable {s : StrategyManager} {strategyId : String} {strategy raw : IStrategy} {instruments : List String}
  {config : PluginStrategy} {configs : List PluginStrategy}

/-! ## One registration -/

/-- `RegisterStrategy` takes a strategy with this id and these instruments. -/
def admits (s : StrategyManager) (strategyId : String) (instruments : List String) : Bool :=
  strategyId != "" && !s.running && (s.strategies.lookup strategyId).isNone &&
    instruments.all fun instrument => instrument != "" && (s.instrumentRoutes.lookup instrument).isNone

/-- What it writes. -/
def enter (s : StrategyManager) (strategyId : String) (strategy : IStrategy) (instruments : List String) :
    StrategyManager :=
  pushRoutingToDispatcher
    { s with
      instrumentRoutes :=
        instruments.foldl (fun routes instrument => routes.insert instrument strategy) s.instrumentRoutes
      strategies := s.strategies.insert strategyId { strategy, instruments } }

theorem registerStrategy_admitted (h : s.admits strategyId instruments = true) :
    s.registerStrategy strategyId (some raw) instruments = (.success, s.enter strategyId raw instruments) := by
  simp only [admits, Bool.and_eq_true, bne_iff_ne, Bool.not_eq_true', List.all_eq_true,
    Option.isNone_iff_eq_none] at h
  obtain ⟨⟨⟨hid, hrunning⟩, hnew⟩, hfree⟩ := h
  have hany : (instruments.any fun instrument => instrument == "" ||
      (s.instrumentRoutes.lookup instrument).isSome) = false := by
    rw [List.any_eq_false]
    intro instrument hmem
    simp [hfree instrument hmem]
  simp [registerStrategy, hid, hrunning, hnew, hany, enter]

theorem registerStrategy_refused (raw : IStrategy) (h : s.admits strategyId instruments = false) :
    (s.registerStrategy strategyId (some raw) instruments).1 ≠ .success ∧
      (s.registerStrategy strategyId (some raw) instruments).2 = s := by
  unfold registerStrategy
  dsimp only
  split_ifs with hid hrunning hold hany
  case neg =>
    -- Past all checks, the call is admitted.
    exfalso
    rw [List.any_eq_true, not_exists] at hany
    rw [← Bool.not_eq_true] at h
    apply h
    simp only [admits, Bool.and_eq_true, bne_iff_ne, List.all_eq_true]
    refine ⟨⟨⟨hid, by simpa using hrunning⟩, by simpa using hold⟩, fun instrument hmem => ?_⟩
    simpa [hmem] using hany instrument
  all_goals exact ⟨by simp, rfl⟩

theorem registerStrategy_error {strategy : Option IStrategy}
    (h : (s.registerStrategy strategyId strategy instruments).1 ≠ .success) :
    (s.registerStrategy strategyId strategy instruments).2 = s := by
  cases strategy with
  | none => rfl
  | some raw =>
    cases hadmits : s.admits strategyId instruments with
    | false => exact (registerStrategy_refused raw hadmits).2
    | true => simp [registerStrategy_admitted hadmits] at h

/-! ## The loop of `Init` -/

/-- The loop gets past this strategy: it is created, initialized and registered. -/
def takes (s : StrategyManager) (config : PluginStrategy) : Bool :=
  config.created.isSome && config.initialized == .success && s.admits config.strategyId config.instruments

theorem initStrategies_disabled (h : config.enabled = false) :
    s.initStrategies (config :: configs) = s.initStrategies configs := by
  rw [initStrategies, h]
  rfl

theorem initStrategies_refused (h : config.enabled = true) (hrefused : s.takes config = false) :
    (s.initStrategies (config :: configs)).1 ≠ .success ∧ (s.initStrategies (config :: configs)).2 = s := by
  rw [initStrategies, h]
  unfold takes at hrefused
  cases hcreated : config.created with
  | none => simp
  | some raw =>
    by_cases hinit : config.initialized = .success
    · rw [hcreated, hinit] at hrefused
      obtain ⟨herror, hsame⟩ := registerStrategy_refused (s := s) raw (by simpa using hrefused)
      simp [hinit, herror, hsame]
    · simp [hinit]

theorem initStrategies_taken (configs : List PluginStrategy) (h : config.enabled = true)
    (htakes : s.takes config = true) : ∃ raw ∈ config.created, s.initStrategies (config :: configs) =
      (s.enter config.strategyId raw config.instruments).initStrategies configs := by
  simp only [takes, Bool.and_eq_true, beq_iff_eq] at htakes
  obtain ⟨⟨hcreated, hinit⟩, hadmits⟩ := htakes
  obtain ⟨raw, hraw⟩ := Option.isSome_iff_exists.mp hcreated
  refine ⟨raw, hraw, ?_⟩
  rw [initStrategies, h]
  simp [hraw, hinit, registerStrategy_admitted hadmits]

/-! ## What the manager keeps true -/

/-- The routes are those of the registered strategies' lists, no two strategies share an object or an instrument, and
the dispatcher has a copy of it all and the handlers on the lanes. -/
structure Sound (s : StrategyManager) : Prop where
  routes : ∀ instrument strategy, s.instrumentRoutes.lookup instrument = some strategy ↔
    ∃ strategyId entry, s.strategies.lookup strategyId = some entry ∧ entry.strategy = strategy ∧
      instrument ∈ entry.instruments
  objects : ∀ strategyId entry strategyId' entry', s.strategies.lookup strategyId = some entry →
    s.strategies.lookup strategyId' = some entry' → entry.strategy = entry'.strategy → strategyId = strategyId'
  lists : ∀ strategyId entry strategyId' entry' instrument, s.strategies.lookup strategyId = some entry →
    s.strategies.lookup strategyId' = some entry' → instrument ∈ entry.instruments →
    instrument ∈ entry'.instruments → strategyId = strategyId'
  snapshot : ∀ dispatcher ∈ s.dispatcher, dispatcher.instrumentRoutes = s.instrumentRoutes ∧
    dispatcher.strategies = s.buildStrategyList
  life : ∀ dispatcher ∈ s.dispatcher, dispatcher.active = s.running ∧ dispatcher.subscribed = true
  handlers : ∀ type, s.handlers type = (s.dispatcher.map (·.number)).toList
  running : s.running = true → s.dispatcher.isSome

theorem sound_fresh : Sound {} := by
  refine ⟨?_, ?_, ?_, ?_, ?_, fun _ => rfl, ?_⟩ <;> simp

theorem lookup_enter (s : StrategyManager) (strategyId : String) (strategy : IStrategy) (instruments : List String)
    (k : String) : (s.enter strategyId strategy instruments).strategies.lookup k =
      if k = strategyId then some { strategy, instruments } else s.strategies.lookup k :=
  Table.lookup_store _ _ _ _

theorem routes_enter (s : StrategyManager) (strategyId : String) (strategy : IStrategy) (instruments : List String)
    (instrument : String) : (s.enter strategyId strategy instruments).instrumentRoutes.lookup instrument =
      if instrument ∈ instruments then some strategy else s.instrumentRoutes.lookup instrument :=
  Table.lookup_storeAll _ _ _ _

theorem buildStrategyList_enter (hnew : s.strategies.lookup strategyId = none) :
    (s.enter strategyId strategy instruments).buildStrategyList = strategy ::ₘ s.buildStrategyList :=
  Table.valuesBy_insert _ hnew _

/-- An admitted strategy, with an object of its own, takes its place beside the others. -/
theorem Sound.enter (h : s.Sound) (hadmits : s.admits strategyId instruments = true)
    (hown : strategy ∉ s.buildStrategyList) : (s.enter strategyId strategy instruments).Sound := by
  simp only [admits, Bool.and_eq_true, List.all_eq_true, Option.isNone_iff_eq_none, bne_iff_ne] at hadmits
  obtain ⟨⟨-, hnew⟩, hfree⟩ := hadmits
  have hother : ∀ strategyId' entry, s.strategies.lookup strategyId' = some entry → strategyId' ≠ strategyId := by
    rintro strategyId' entry hentry rfl
    rw [hnew] at hentry
    cases hentry
  -- No instrument of the new strategy is on the list of a registered one.
  have hunlisted : ∀ strategyId' entry, s.strategies.lookup strategyId' = some entry →
      ∀ instrument ∈ entry.instruments, instrument ∉ instruments := by
    intro strategyId' entry hentry instrument hlisted hmem
    have hrouted := (h.routes instrument entry.strategy).mpr ⟨strategyId', entry, hentry, rfl, hlisted⟩
    rw [(hfree instrument hmem).2] at hrouted
    cases hrouted
  have hobject : ∀ strategyId' entry, s.strategies.lookup strategyId' = some entry → entry.strategy ≠ strategy := by
    rintro strategyId' entry hentry rfl
    exact hown ((Table.mem_valuesBy _).mpr ⟨strategyId', entry, hentry, rfl⟩)
  refine ⟨?_, ?_, ?_, ?_, ?_, ?_, ?_⟩
  · intro instrument strategy'
    simp only [routes_enter, lookup_enter]
    by_cases hmem : instrument ∈ instruments
    · rw [if_pos hmem]
      constructor
      · intro hsame
        cases hsame
        exact ⟨strategyId, { strategy, instruments }, if_pos rfl, rfl, hmem⟩
      · rintro ⟨strategyId', entry, hentry, rfl, hlisted⟩
        split at hentry
        case isTrue =>
          cases hentry
          rfl
        case isFalse => exact absurd hmem (hunlisted strategyId' entry hentry instrument hlisted)
    · rw [if_neg hmem, h.routes]
      constructor
      · rintro ⟨strategyId', entry, hentry, hrest⟩
        exact ⟨strategyId', entry, (if_neg (hother strategyId' entry hentry)).trans hentry, hrest⟩
      · rintro ⟨strategyId', entry, hentry, hsame, hlisted⟩
        split at hentry
        case isTrue =>
          cases hentry
          exact absurd hlisted hmem
        case isFalse => exact ⟨strategyId', entry, hentry, hsame, hlisted⟩
  · intro id entry id' entry' hentry hentry' hsame
    rw [lookup_enter] at hentry hentry'
    split at hentry <;> split at hentry'
    case isTrue.isTrue hid hid' => rw [hid, hid']
    case isTrue.isFalse =>
      cases hentry
      exact absurd hsame.symm (hobject id' entry' hentry')
    case isFalse.isTrue =>
      cases hentry'
      exact absurd hsame (hobject id entry hentry)
    case isFalse.isFalse => exact h.objects id entry id' entry' hentry hentry' hsame
  · intro id entry id' entry' instrument hentry hentry' hmem hmem'
    rw [lookup_enter] at hentry hentry'
    split at hentry <;> split at hentry'
    case isTrue.isTrue hid hid' => rw [hid, hid']
    case isTrue.isFalse =>
      cases hentry
      exact absurd hmem (hunlisted id' entry' hentry' instrument hmem')
    case isFalse.isTrue =>
      cases hentry'
      exact absurd hmem' (hunlisted id entry hentry instrument hmem)
    case isFalse.isFalse => exact h.lists id entry id' entry' instrument hentry hentry' hmem hmem'
  · intro dispatcher hd
    obtain ⟨old, -, rfl⟩ := Option.map_eq_some_iff.mp hd
    exact ⟨rfl, rfl⟩
  · intro dispatcher hd
    obtain ⟨old, hold, rfl⟩ := Option.map_eq_some_iff.mp hd
    exact h.life old hold
  · intro type
    have hsame := h.handlers type
    unfold StrategyManager.enter pushRoutingToDispatcher
    simpa [Function.comp_def, StrategyEventDispatcher.setRouting] using hsame
  · intro hrunning
    simpa [StrategyManager.enter, pushRoutingToDispatcher] using h.running hrunning

theorem Sound.registerStrategy (h : s.Sound) {strategy : Option IStrategy}
    (hown : ∀ raw ∈ strategy, raw ∉ s.buildStrategyList) :
    (s.registerStrategy strategyId strategy instruments).2.Sound := by
  cases strategy with
  | none => exact h
  | some raw =>
    cases hadmits : s.admits strategyId instruments with
    | false =>
      rw [(registerStrategy_refused raw hadmits).2]
      exact h
    | true =>
      rw [registerStrategy_admitted hadmits]
      exact h.enter hadmits (hown raw rfl)

/-- The objects that the plugins make. -/
def created (configs : List PluginStrategy) : List IStrategy := configs.filterMap (·.created)

theorem Sound.initStrategies (h : s.Sound) (configs : List PluginStrategy) (hdistinct : (created configs).Nodup)
    (hown : ∀ raw ∈ created configs, raw ∉ s.buildStrategyList) :
    (s.initStrategies configs).2.Sound ∧ (s.initStrategies configs).2.running = s.running ∧
      (s.initStrategies configs).2.dispatcher.isSome = s.dispatcher.isSome := by
  induction configs generalizing s with
  | nil => exact ⟨h, rfl, rfl⟩
  | cons config configs ih =>
    have hsublist : (created configs).Sublist (created (config :: configs)) :=
      (List.sublist_cons_self config configs).filterMap _
    have hrest := hdistinct.sublist hsublist
    cases henabled : config.enabled with
    | false =>
      rw [initStrategies_disabled henabled]
      exact ih h hrest fun raw hmem => hown raw (hsublist.subset hmem)
    | true =>
      cases htakes : s.takes config with
      | false =>
        rw [(initStrategies_refused henabled htakes).2]
        exact ⟨h, rfl, rfl⟩
      | true =>
        obtain ⟨raw, hraw, hstep⟩ := initStrategies_taken configs henabled htakes
        have hcons : created (config :: configs) = raw :: created configs := by
          simp [created, Option.mem_def.mp hraw]
        rw [hcons] at hdistinct hown
        simp only [takes, Bool.and_eq_true] at htakes
        have hadmits := htakes.2
        have hnew : s.strategies.lookup config.strategyId = none := by
          simp only [admits, Bool.and_eq_true, Option.isNone_iff_eq_none] at hadmits
          exact hadmits.1.2
        have hnext : ∀ raw' ∈ created configs,
            raw' ∉ (s.enter config.strategyId raw config.instruments).buildStrategyList := by
          intro raw' hmem
          rw [buildStrategyList_enter hnew, Multiset.mem_cons, not_or]
          refine ⟨?_, hown raw' (List.mem_cons_of_mem raw hmem)⟩
          rintro rfl
          exact (List.nodup_cons.mp hdistinct).1 hmem
        obtain ⟨hsound, hrunning, hsome⟩ := ih (h.enter hadmits (hown raw List.mem_cons_self)) hrest hnext
        rw [hstep]
        exact ⟨hsound, hrunning, hsome.trans (by simp [StrategyManager.enter, pushRoutingToDispatcher])⟩

theorem Sound.makeDispatcher (h : s.Sound) (hnone : s.dispatcher = none) (hrunning : s.running = false) :
    s.makeDispatcher.Sound ∧ s.makeDispatcher.running = false ∧ s.makeDispatcher.dispatcher.isSome = true := by
  have hhandlers : ∀ type, s.handlers type = [] := by
    intro type
    rw [h.handlers, hnone]
    rfl
  refine ⟨⟨h.routes, h.objects, h.lists, ?_, ?_, ?_, ?_⟩, hrunning, rfl⟩
  · rintro _ ⟨⟩
    exact ⟨rfl, rfl⟩
  · rintro _ ⟨⟩
    exact ⟨hrunning.symm, rfl⟩
  · intro type
    show s.handlers type ++ [s.made] = [s.made]
    rw [hhandlers, List.nil_append]
  · intro _
    rfl

theorem Sound.activate (h : s.Sound) (hsome : s.dispatcher.isSome = true) :
    Sound { s with dispatcher := s.dispatcher.map (·.setActive true), running := true } := by
  refine ⟨h.routes, h.objects, h.lists, ?_, ?_, ?_, ?_⟩
  · intro dispatcher hd
    obtain ⟨old, hold, rfl⟩ := Option.map_eq_some_iff.mp hd
    exact h.snapshot old hold
  · intro dispatcher hd
    obtain ⟨old, hold, rfl⟩ := Option.map_eq_some_iff.mp hd
    exact ⟨rfl, (h.life old hold).2⟩
  · intro type
    have hsame := h.handlers type
    simpa [Function.comp_def, StrategyEventDispatcher.setActive] using hsame
  · intro _
    simpa using hsome

theorem Sound.start (h : s.Sound) : s.start.2.Sound ∧ s.start.2.running = true := by
  unfold StrategyManager.start
  split
  case isTrue hrunning => exact ⟨h, hrunning⟩
  case isFalse hrunning =>
    refine ⟨?_, rfl⟩
    dsimp only
    cases hd : s.dispatcher with
    | none =>
      obtain ⟨hsound, -, hsome⟩ := h.makeDispatcher hd (by simpa using hrunning)
      simpa [hd] using hsound.activate hsome
    | some dispatcher =>
      have hactive := h.activate (by simp [hd])
      simpa [hd] using hactive

theorem Sound.init (h : s.Sound) {loaded : ErrorCode} {strategies : List PluginStrategy}
    (hdistinct : (created strategies).Nodup) (hown : ∀ raw ∈ created strategies, raw ∉ s.buildStrategyList)
    (hfirst : s.running = true ∨ s.dispatcher = none) : (s.init loaded strategies).2.Sound := by
  obtain ⟨hsound, hrunning, hsome⟩ := h.initStrategies strategies hdistinct hown
  unfold StrategyManager.init
  split
  case isTrue => exact h
  case isFalse hstopped =>
    split
    case isTrue => exact h
    case isFalse =>
      dsimp only
      split
      case isTrue => exact hsound
      case isFalse =>
        rw [hfirst.resolve_left hstopped] at hsome
        exact (hsound.makeDispatcher (by simpa using hsome) (by simpa [hrunning] using hstopped)).1

theorem sound_release (s : StrategyManager) : s.release.Sound := by
  refine ⟨?_, ?_, ?_, ?_, ?_, fun _ => rfl, ?_⟩ <;> simp [release, stop]

/-! ## Runs -/

/-- A call of the manager. With `Stop` the engine stops the lanes. -/
inductive Op
  | register (strategyId : String) (strategy : Option IStrategy) (instruments : List String)
  | init (loaded : ErrorCode) (strategies : List PluginStrategy)
  | start
  | release

def perform (s : StrategyManager) : Op → StrategyManager
  | .register strategyId strategy instruments => (s.registerStrategy strategyId strategy instruments).2
  | .init loaded strategies => (s.init loaded strategies).2
  | .start => s.start.2
  | .release => s.release

def step (s : StrategyManager) (op : Op) : Option StrategyManager := some (s.perform op)

/-- A strategy that is handed over is nobody else's, and strategies are loaded once between two stops. -/
def Own (s : StrategyManager) : Op → Prop
  | .register _ strategy _ => ∀ raw ∈ strategy, raw ∉ s.buildStrategyList
  | .init _ strategies =>
    (created strategies).Nodup ∧ (∀ raw ∈ created strategies, raw ∉ s.buildStrategyList) ∧
      (s.running = true ∨ s.dispatcher.isNone = true)
  | .start => True
  | .release => True

instance (s : StrategyManager) (op : Op) : Decidable (s.Own op) := by
  cases op <;> unfold Own <;> infer_instance

theorem Sound.perform (h : s.Sound) {op : Op} (hown : s.Own op) : (s.perform op).Sound := by
  cases op with
  | register => exact h.registerStrategy hown
  | init =>
    obtain ⟨hdistinct, hnew, hfirst⟩ := hown
    exact h.init hdistinct hnew (hfirst.imp_right Option.isNone_iff_eq_none.mp)
  | start => exact h.start.1
  | release => exact sound_release s

theorem sound_reaches (h : Runs.Reaches step Own {} s) : s.Sound := by
  refine h.invariant sound_fresh fun s op s' hs hown hstep => ?_
  cases hstep
  exact hs.perform hown

/-! ## Who is told -/

/-- An event is told once to the strategy that has its instrument, and once to each strategy where none has it. -/
structure Delivers (s : StrategyManager) : Prop where
  owner : ∀ event strategyId entry, s.strategies.lookup strategyId = some entry →
    event.instrument ∈ entry.instruments → s.told event = some {entry.strategy}
  everyone : ∀ event, (∀ strategyId entry, s.strategies.lookup strategyId = some entry →
      event.instrument ∉ entry.instruments) →
    ∃ told, s.told event = some told ∧
      (∀ strategyId entry, s.strategies.lookup strategyId = some entry → told.count entry.strategy = 1) ∧
      ∀ strategy ∈ told, ∃ strategyId entry, s.strategies.lookup strategyId = some entry ∧ entry.strategy = strategy

/-- What holds of a manager, whether it runs or not. -/
structure OneOwner (s : StrategyManager) : Prop where
  refused : ∀ strategyId strategy instruments, (s.registerStrategy strategyId strategy instruments).1 ≠ .success →
    (s.registerStrategy strategyId strategy instruments).2 = s
  owned : ∀ instrument strategy, s.instrumentRoutes.lookup instrument = some strategy →
    ∃ strategyId entry, s.strategies.lookup strategyId = some entry ∧ entry.strategy = strategy ∧
      instrument ∈ entry.instruments ∧
      ∀ strategyId' entry', s.strategies.lookup strategyId' = some entry' → instrument ∈ entry'.instruments →
        strategyId' = strategyId
  routed : ∀ strategyId entry, s.strategies.lookup strategyId = some entry → ∀ instrument ∈ entry.instruments,
    s.instrumentRoutes.lookup instrument = some entry.strategy
  snapshot : ∀ dispatcher ∈ s.dispatcher, dispatcher.instrumentRoutes = s.instrumentRoutes ∧
    dispatcher.strategies = s.buildStrategyList
  started : s.start.2.Delivers

theorem Sound.told (h : s.Sound) (hrunning : s.running = true) (event : Event) :
    s.told event = some (match s.instrumentRoutes.lookup event.instrument with
      | some strategy => {strategy}
      | none => s.buildStrategyList) := by
  obtain ⟨dispatcher, hd⟩ := Option.isSome_iff_exists.mp (h.running hrunning)
  obtain ⟨hroutes, hlist⟩ := h.snapshot dispatcher hd
  have hactive := (h.life dispatcher hd).1.trans hrunning
  have hhandlers : s.handlers event.type = [dispatcher.number] := by
    rw [h.handlers, hd]
    rfl
  have hcall : s.call event dispatcher.number = some (dispatcher.handle event) := by
    unfold call
    rw [hd]
    exact if_pos rfl
  unfold StrategyManager.told
  rw [hhandlers]
  simp only [List.mapM_cons, List.mapM_nil, hcall]
  simp only [StrategyEventDispatcher.handle_eq, StrategyEventDispatcher.recipients, hactive, hroutes, hlist]
  cases s.instrumentRoutes.lookup event.instrument <;> simp

theorem Sound.delivers (h : s.Sound) (hrunning : s.running = true) : s.Delivers := by
  constructor
  · intro event strategyId entry hentry hlisted
    have hrouted := (h.routes event.instrument entry.strategy).mpr ⟨strategyId, entry, hentry, rfl, hlisted⟩
    rw [h.told hrunning, hrouted]
  · intro event hunlisted
    have hunrouted : s.instrumentRoutes.lookup event.instrument = none := by
      rw [Option.eq_none_iff_forall_ne_some]
      intro strategy hrouted
      obtain ⟨strategyId, entry, hentry, -, hlisted⟩ := (h.routes event.instrument strategy).mp hrouted
      exact hunlisted strategyId entry hentry hlisted
    refine ⟨s.buildStrategyList, ?_, ?_, ?_⟩
    · rw [h.told hrunning, hunrouted]
    · intro strategyId entry hentry
      exact Multiset.count_eq_one_of_mem (Table.nodup_valuesBy _ h.objects)
        ((Table.mem_valuesBy _).mpr ⟨strategyId, entry, hentry, rfl⟩)
    · intro strategy hmem
      exact (Table.mem_valuesBy _).mp hmem

/-- Whatever calls a manager has had, an instrument has one strategy. -/
theorem one_owner (h : Runs.Reaches step Own {} s) : s.OneOwner := by
  have hsound := sound_reaches h
  refine ⟨fun _ _ _ => registerStrategy_error, ?_, ?_, hsound.snapshot, ?_⟩
  · intro instrument strategy hrouted
    obtain ⟨strategyId, entry, hentry, hobject, hlisted⟩ := (hsound.routes instrument strategy).mp hrouted
    exact ⟨strategyId, entry, hentry, hobject, hlisted, fun strategyId' entry' hentry' hlisted' =>
      hsound.lists strategyId' entry' strategyId entry instrument hentry' hentry hlisted' hlisted⟩
  · intro strategyId entry hentry instrument hlisted
    exact (hsound.routes instrument entry.strategy).mpr ⟨strategyId, entry, hentry, rfl, hlisted⟩
  · exact hsound.start.1.delivers hsound.start.2

/-- Two strategies, the first of which has an instrument. -/
def twoStrategies : StrategyManager :=
  (({} : StrategyManager).perform (.register "one" (some ⟨1⟩) ["a"])).perform (.register "two" (some ⟨2⟩) [])

theorem one_owner_two :
    twoStrategies.start.2.told (.tick "a") = some {⟨1⟩} ∧
      (twoStrategies.registerStrategy "three" (some ⟨3⟩) ["b", "a"]).2 = twoStrategies := by
  have hreaches : Runs.Reaches step Own {} twoStrategies :=
    ((Runs.Reaches.refl _).tail (a := .register "one" (some ⟨1⟩) ["a"]) (by decide +kernel) rfl).tail
      (a := .register "two" (some ⟨2⟩) []) (by decide +kernel) rfl
  have hentry : twoStrategies.start.2.strategies.lookup "one" = some { strategy := ⟨1⟩, instruments := ["a"] } := by
    decide +kernel
  refine ⟨(one_owner hreaches).started.owner (.tick "a") "one" _ hentry (List.mem_singleton_self _), ?_⟩
  exact (one_owner hreaches).refused "three" (some ⟨3⟩) ["b", "a"] (by decide +kernel)

end StrategyManager

end Qtrade.Strategy
