import Qtrade.Strategy.Routing

/-!
# A load that fails

`Init` registers the strategies of a configuration one after the other, and a strategy that it cannot load ends the
call. Those before it stay registered.
-/

namespace Qtrade.Strategy

open Engine (NamedStrategy Event EventType)

/-- Both strategies can be registered: they share no id and no instrument. -/
def PluginStrategy.besides (config config' : PluginStrategy) : Bool :=
  config.strategyId != config'.strategyId &&
    config'.instruments.all fun instrument => !decide (instrument ∈ config.instruments)

def enabledOf (configs : List PluginStrategy) : List PluginStrategy := configs.filter (·.enabled)

namespace StrategyManager

variable {s : StrategyManager} {config config' : PluginStrategy} {configs : List PluginStrategy} {raw : IStrategy}
  {strategyId : String}

/-- Each enabled strategy can be loaded, and beside the others. -/
def Loadable (s : StrategyManager) (configs : List PluginStrategy) : Prop :=
  (∀ config ∈ enabledOf configs, s.takes config = true) ∧
    (enabledOf configs).Pairwise fun config config' => config.besides config' = true

/-! ## The loop -/

theorem admits_enter {instruments instruments' : List String} {strategyId' : String} :
    (s.enter strategyId raw instruments).admits strategyId' instruments' = true ↔
      s.admits strategyId' instruments' = true ∧ strategyId' ≠ strategyId ∧
        ∀ instrument ∈ instruments', instrument ∉ instruments := by
  have hrunning : (s.enter strategyId raw instruments).running = s.running := rfl
  have hfree : ∀ instrument, ((s.enter strategyId raw instruments).instrumentRoutes.lookup instrument).isNone = true ↔
      (s.instrumentRoutes.lookup instrument).isNone = true ∧ instrument ∉ instruments := by
    intro instrument
    rw [routes_enter]
    split <;> simp [*]
  have hnew : ((s.enter strategyId raw instruments).strategies.lookup strategyId').isNone = true ↔
      (s.strategies.lookup strategyId').isNone = true ∧ strategyId' ≠ strategyId := by
    rw [lookup_enter]
    split <;> simp [*]
  unfold admits
  simp only [Bool.and_eq_true, List.all_eq_true, hrunning, hfree, hnew]
  constructor
  · rintro ⟨⟨hid, hnone, hother⟩, hall⟩
    exact ⟨⟨⟨hid, hnone⟩, fun i hi => ⟨(hall i hi).1, (hall i hi).2.1⟩⟩, hother, fun i hi => (hall i hi).2.2⟩
  · rintro ⟨⟨⟨hid, hnone⟩, hall⟩, hother, hapart⟩
    exact ⟨⟨hid, hnone, hother⟩, fun i hi => ⟨(hall i hi).1, (hall i hi).2, hapart i hi⟩⟩

theorem takes_enter : (s.enter config.strategyId raw config.instruments).takes config' = true ↔
    s.takes config' = true ∧ config.besides config' = true := by
  unfold takes PluginStrategy.besides
  simp only [Bool.and_eq_true, admits_enter, List.all_eq_true, bne_iff_ne, Bool.not_eq_true',
    decide_eq_false_iff_not]
  constructor
  · rintro ⟨hready, hadmits, hid, hapart⟩
    exact ⟨⟨hready, hadmits⟩, hid.symm, hapart⟩
  · rintro ⟨⟨hready, hadmits⟩, hid, hapart⟩
    exact ⟨hready, hadmits, hid.symm, hapart⟩

theorem loadable_cons (h : config.enabled = true) (htakes : s.takes config = true) :
    s.Loadable (config :: configs) ↔ (s.enter config.strategyId raw config.instruments).Loadable configs := by
  have hcons : enabledOf (config :: configs) = config :: enabledOf configs := by simp [enabledOf, h]
  unfold Loadable
  simp only [hcons, List.forall_mem_cons, htakes, true_and, List.pairwise_cons, takes_enter]
  constructor
  · rintro ⟨htaken, hbesides, hrest⟩
    exact ⟨fun config' hmem => ⟨htaken config' hmem, hbesides config' hmem⟩, hrest⟩
  · rintro ⟨hall, hrest⟩
    exact ⟨fun config' hmem => (hall config' hmem).1, fun config' hmem => (hall config' hmem).2, hrest⟩

/-- The loop succeeds where the strategies can be loaded together. -/
theorem initStrategies_success_iff (s : StrategyManager) (configs : List PluginStrategy) :
    (s.initStrategies configs).1 = .success ↔ s.Loadable configs := by
  induction configs generalizing s with
  | nil => exact iff_of_true rfl ⟨by simp [enabledOf], by simp [enabledOf]⟩
  | cons config configs ih =>
    cases henabled : config.enabled with
    | false =>
      have hskip : enabledOf (config :: configs) = enabledOf configs := by simp [enabledOf, henabled]
      rw [initStrategies_disabled henabled, ih, Loadable, Loadable, hskip]
    | true =>
      cases htakes : s.takes config with
      | false =>
        refine iff_of_false (initStrategies_refused henabled htakes).1 fun h => ?_
        have htaken := h.1 config (by simp [enabledOf, henabled])
        rw [htakes] at htaken
        cases htaken
      | true =>
        obtain ⟨raw, -, hstep⟩ := initStrategies_taken configs henabled htakes
        rw [hstep, ih, loadable_cons henabled htakes]

theorem initStrategies_keeps (s : StrategyManager) (configs : List PluginStrategy) (strategyId : String)
    (h : (s.strategies.lookup strategyId).isSome = true) :
    ((s.initStrategies configs).2.strategies.lookup strategyId).isSome = true := by
  induction configs generalizing s with
  | nil => exact h
  | cons config configs ih =>
    cases henabled : config.enabled with
    | false =>
      rw [initStrategies_disabled henabled]
      exact ih s h
    | true =>
      cases htakes : s.takes config with
      | false =>
        rw [(initStrategies_refused henabled htakes).2]
        exact h
      | true =>
        obtain ⟨raw, -, hstep⟩ := initStrategies_taken configs henabled htakes
        rw [hstep]
        apply ih
        rw [lookup_enter]
        split
        · rfl
        · exact h

theorem initStrategies_unchanged_iff (s : StrategyManager) (configs : List PluginStrategy) :
    (s.initStrategies configs).2 = s ↔ ∀ first ∈ (enabledOf configs).head?, s.takes first = false := by
  induction configs generalizing s with
  | nil => exact iff_of_true rfl (by simp [enabledOf])
  | cons config configs ih =>
    cases henabled : config.enabled with
    | false =>
      have hskip : enabledOf (config :: configs) = enabledOf configs := by simp [enabledOf, henabled]
      rw [initStrategies_disabled henabled, ih, hskip]
    | true =>
      have hfirst : (enabledOf (config :: configs)).head? = some config := by simp [enabledOf, henabled]
      simp only [hfirst, Option.mem_some, forall_eq']
      cases htakes : s.takes config with
      | false => exact iff_of_true (initStrategies_refused henabled htakes).2 rfl
      | true =>
        refine iff_of_false (fun hsame => ?_) (by simp)
        obtain ⟨raw, -, hstep⟩ := initStrategies_taken configs henabled htakes
        have hnew : (s.strategies.lookup config.strategyId).isNone = true := by
          simp only [takes, admits, Bool.and_eq_true] at htakes
          exact htakes.2.1.2
        -- The strategy was not registered, and now it is.
        have hregistered := initStrategies_keeps (s.enter config.strategyId raw config.instruments) configs
          config.strategyId (by rw [lookup_enter, if_pos rfl]; rfl)
        rw [← hstep, hsame] at hregistered
        simp [Option.isNone_iff_eq_none.mp hnew] at hregistered

/-! ## The call -/

/-- A failed `Init` leaves the manager as it was if and only if it was not to fail, or failed before it had registered
a strategy. -/
theorem failed_init_unchanged_iff (s : StrategyManager) (loaded : ErrorCode) (strategies : List PluginStrategy) :
    ((s.init loaded strategies).1 ≠ .success → (s.init loaded strategies).2 = s) ↔
      s.running = true ∨ loaded ≠ .success ∨ s.Loadable strategies ∨
        ∀ first ∈ (enabledOf strategies).head?, s.takes first = false := by
  unfold init
  split
  case isTrue hrunning => simp [hrunning]
  case isFalse hstopped =>
    split
    case isTrue hloaded => simp [hloaded]
    case isFalse hloaded =>
      rw [or_iff_right hstopped, or_iff_right hloaded, ← initStrategies_success_iff, ← initStrategies_unchanged_iff]
      dsimp only
      split
      case isTrue herror => simp [herror]
      case isFalse hsuccess => simp [not_not.mp hsuccess]

theorem init_again (registered : (s.strategies.lookup config.strategyId).isSome = true) {loaded : ErrorCode}
    {strategies : List PluginStrategy} (hmem : config ∈ enabledOf strategies) :
    (s.init loaded strategies).1 ≠ .success := by
  have hloadable : ¬s.Loadable strategies := by
    intro h
    have htakes := h.1 config hmem
    simp only [takes, admits, Bool.and_eq_true] at htakes
    simp [Option.isNone_iff_eq_none.mp htakes.2.1.2] at registered
  rw [← initStrategies_success_iff] at hloadable
  unfold init
  split_ifs <;> simp_all

/-- The second of two strategies cannot be created. -/
def unknownSecond : List PluginStrategy :=
  [{ strategyId := "one", strategyName := "known", enabled := true, instruments := ["a"], created := some ⟨1⟩ },
    { strategyId := "two", strategyName := "unknown", enabled := true }]

/-- The load fails, and the first one is told of ticks after a `Start`. -/
theorem first_stays : (¬∀ (s : StrategyManager) (loaded : ErrorCode) (strategies : List PluginStrategy),
      s.running = false → (s.init loaded strategies).1 ≠ .success → (s.init loaded strategies).2 = s) ∧
    (({} : StrategyManager).init .success unknownSecond).2.start.2.told (.tick "a") = some {⟨1⟩} := by
  constructor
  · intro hall
    have hsame := congrArg (·.strategies.lookup "one")
      (hall {} .success unknownSecond rfl (by decide +kernel))
    revert hsame
    decide +kernel
  · decide +kernel

end StrategyManager

end Qtrade.Strategy
