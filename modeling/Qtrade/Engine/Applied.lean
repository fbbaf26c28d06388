import Qtrade.Engine.Configured

/-!
# A configuration is applied all or nothing

`OnEngineConfig` writes five things in three places, with early returns in between and no way
back. The rules and the engine carry the same version, so what passes the risk limits passes the
compliance rules.
-/

namespace Qtrade.Engine

/-- The five things that a configuration decides. -/
structure Applied where
  limits : Risk.RiskLimits
  rules : Cms.ComplianceRules
  runtimeConfig : EngineConfig
  runtimeConfigVersion : UInt64
  subscribedInstruments : Finset String

def TradingEngine.applied (s : TradingEngine) : Applied where
  limits := s.riskManager.limits
  rules := s.compliance.rules
  runtimeConfig := s.runtimeConfig
  runtimeConfigVersion := s.runtimeConfigVersion
  subscribedInstruments := s.subscribedInstruments

/-- What one configuration makes of the five. -/
def EngineConfig.applied (config : EngineConfig) : Applied where
  limits := config.limits
  rules := config.rules
  runtimeConfig := config
  runtimeConfigVersion := config.version
  subscribedInstruments := config.desiredInstruments

@[simp]
theorem TradingEngine.applied_request (s : TradingEngine) (target : EngineState) (reason : String) :
    (s.request target reason).applied = s.applied := rfl

@[simp]
theorem TradingEngine.applied_adopt (s : TradingEngine) (config : EngineConfig) :
    (s.adopt config).applied = config.applied := rfl

/-! ## The history of an engine -/

/-- An engine and the configurations that it was offered, the latest first. -/
structure Offers where
  engine : TradingEngine := {}
  offered : List EngineConfig := []

/-- Between two calls, all that no configuration decides may change in any way: the engine starts
and stops, gets another identity, trades. -/
inductive Offer
  | onEngineConfig (config : EngineConfig) (nowMs : Int)
  | elsewhere (other : TradingEngine)

namespace Offers

def step (s : Offers) : Offer → Option Offers
  | .onEngineConfig config nowMs =>
    some { engine := s.engine.onEngineConfig config nowMs, offered := config :: s.offered }
  | .elsewhere other =>
    some { s with
      engine := { other with
        riskManager.limits := s.engine.riskManager.limits
        compliance := s.engine.compliance
        runtimeConfig := s.engine.runtimeConfig
        runtimeConfigVersion := s.engine.runtimeConfigVersion
        subscribedInstruments := s.engine.subscribedInstruments } }

/-- The five agree with one configuration that was offered, or none was taken yet. -/
structure Inv (s : Offers) : Prop where
  version : s.engine.compliance.rules.version = s.engine.runtimeConfigVersion
  whole : s.engine.applied = ({} : TradingEngine).applied ∨
    ∃ config ∈ s.offered, s.engine.applied = config.applied
  unset : s.engine.runtimeConfigVersion = 0 → s.engine.applied = ({} : TradingEngine).applied

variable {s s' : Offers}

theorem applied_onEngineConfig (h : s.Inv) (config : EngineConfig) (nowMs : Int) :
    ((s.engine.refuses config nowMs = true ∨ config.version ≤ s.engine.runtimeConfigVersion) ∧
      (s.engine.onEngineConfig config nowMs).applied = s.engine.applied) ∨
    (s.engine.refuses config nowMs = false ∧ s.engine.runtimeConfigVersion < config.version ∧
      (s.engine.onEngineConfig config nowMs).applied = config.applied) := by
  rcases TradingEngine.onEngineConfig_cases h.version config nowMs with
    ⟨hrefuses, reason, hs⟩ | ⟨_, hstale, hs⟩ | ⟨hrefuses, hnew, hs⟩
  · left
    rw [hs]
    exact ⟨Or.inl hrefuses, rfl⟩
  · left
    rw [hs]
    exact ⟨Or.inr hstale, rfl⟩
  · right
    rw [hs]
    exact ⟨hrefuses, hnew, rfl⟩

theorem step_inv (h : s.Inv) {a : Offer} (hs : s.step a = some s') : s'.Inv := by
  induction a with
  | onEngineConfig config nowMs =>
    cases hs
    rcases applied_onEngineConfig h config nowMs with ⟨_, happlied⟩ | ⟨_, hnew, happlied⟩
    · constructor
      · have hrules := congrArg (·.rules.version) happlied
        have hversion := congrArg Applied.runtimeConfigVersion happlied
        exact hrules.trans (h.version.trans hversion.symm)
      · dsimp only
        rw [happlied]
        rcases h.whole with hinitial | ⟨taken, hmem, htaken⟩
        · exact Or.inl hinitial
        · exact Or.inr ⟨taken, List.mem_cons_of_mem _ hmem, htaken⟩
      · have hversion := congrArg Applied.runtimeConfigVersion happlied
        dsimp only
        rw [happlied]
        exact fun hzero => h.unset (hversion.symm.trans hzero)
    · constructor
      · have hrules := congrArg (·.rules.version) happlied
        have hversion := congrArg Applied.runtimeConfigVersion happlied
        exact hrules.trans hversion.symm
      · exact Or.inr ⟨config, List.mem_cons_self, happlied⟩
      · intro hzero
        have hversion : _ = config.version := congrArg Applied.runtimeConfigVersion happlied
        rw [hversion.symm.trans hzero] at hnew
        exact absurd hnew (UInt64.not_lt.mpr UInt64.zero_le)
  | elsewhere other =>
    cases hs
    exact ⟨h.version, h.whole, h.unset⟩

theorem inv_of_reaches (h : Runs.Reaches step Runs.anyStep {} s) : s.Inv := by
  apply h.invariant
  · exact ⟨rfl, Or.inl rfl, fun _ => rfl⟩
  · intro s a s' hinv _ hs
    exact step_inv hinv hs

/-- At any time the limits, the rules, the configuration, its version and the subscriptions all
come from one configuration that was offered, or are all initial. A call that refuses or ignores
what it is offered changes none of the five, any other call all of them, and where the risk manager
takes the limits the compliance manager takes the rules. -/
theorem applied_whole (h : Runs.Reaches step Runs.anyStep {} s) :
    (s.engine.applied = ({} : TradingEngine).applied ∨
      ∃ config ∈ s.offered, s.engine.applied = config.applied) ∧
    ∀ config nowMs,
      (s.engine.refuses config nowMs = true ∨ config.version ≤ s.engine.runtimeConfigVersion →
        (s.engine.onEngineConfig config nowMs).applied = s.engine.applied) ∧
      (s.engine.refuses config nowMs = false → s.engine.runtimeConfigVersion < config.version →
        (s.engine.onEngineConfig config nowMs).applied = config.applied) ∧
      (s.engine.runtimeConfigVersion < config.version →
        (s.engine.riskManager.configure config.limits).1 = .success →
        (s.engine.compliance.configure config.rules).1 = .success) := by
  have hinv := inv_of_reaches h
  refine ⟨hinv.whole, fun config nowMs => ⟨?_, ?_, ?_⟩⟩
  · intro hno
    rcases applied_onEngineConfig hinv config nowMs with ⟨_, happlied⟩ | ⟨hyes, hnew, _⟩
    · exact happlied
    · rcases hno with hrefuses | hstale
      · rw [hyes] at hrefuses
        cases hrefuses
      · exact absurd hnew (UInt64.not_lt.mpr hstale)
  · intro hyes hnew
    rcases applied_onEngineConfig hinv config nowMs with ⟨hno, _⟩ | ⟨_, _, happlied⟩
    · rcases hno with hrefuses | hstale
      · rw [hyes] at hrefuses
        cases hrefuses
      · exact absurd hnew (UInt64.not_lt.mpr hstale)
    · exact happlied
  · intro hnew hrisk
    rcases riskConfigure_cases s.engine.riskManager config.limits with ⟨hcode, _⟩ | ⟨hvalid, _⟩
    · exact absurd hrisk hcode
    · rw [complianceConfigure_of_validLimits hvalid (by rw [hinv.version]; exact Std.le_of_lt hnew)]

/-- A budget with a negative notional comes after a valid one, and the valid one stays. -/
theorem applied_whole_negative : ∃ s : Offers, Runs.Reaches step Runs.anyStep {} s ∧
    ∃ config : EngineConfig, s.engine.applied = Lifetime.firstConfig.applied ∧
      (s.engine.onEngineConfig config 1).applied = s.engine.applied := by
  have hrun : ∃ s ∈ Runs.exec step {} [.onEngineConfig Lifetime.firstConfig 1],
      s.engine.runtimeConfigVersion = 1 ∧ s.engine.refuses
        { Lifetime.firstConfig with version := 2, riskBudget.maxNotional := .ofInt (-1) } 1 = true ∧
      s.offered.length = 1 := by decide +kernel
  obtain ⟨s, hs, hversion, hrefuses, hlength⟩ := hrun
  have hreach := Runs.reaches_of_exec _ hs
  refine ⟨s, hreach, _, ?_, ((applied_whole hreach).2 _ _).1 (Or.inl hrefuses)⟩
  cases hs
  rfl

end Offers

/-! ## Which configuration is taken -/

/-- No limit of the budget is negative, and the buffer leaves room. -/
def EngineConfig.validBudget (config : EngineConfig) : Bool :=
  !(config.riskBudget.maxNotional < 0 || config.riskBudget.safetyBuffer < 0 ||
    (0 < config.riskBudget.maxNotional && config.riskBudget.maxNotional ≤ config.riskBudget.safetyBuffer))

theorem EngineConfig.validLimits (config : EngineConfig) :
    Risk.RiskManager.validLimits config.limits = config.validBudget := by
  simp [Risk.RiskManager.validLimits, EngineConfig.limits, EngineConfig.validBudget]

theorem EngineConfig.limits_version {config : EngineConfig} (hversion : config.version ≠ 0) :
    config.limits.version ≠ 0 := by
  unfold EngineConfig.limits
  dsimp only
  split
  · assumption
  · exact hversion

/-- A newer configuration for this engine, with a valid budget whose version does not go back. -/
structure TradingEngine.Accepts (s : TradingEngine) (config : EngineConfig) (nowMs : Int) : Prop where
  newer : s.runtimeConfigVersion < config.version
  identity : config.identifies s.bootstrapConfig.identity = true
  current : config.expired nowMs = false
  budget : config.validBudget = true
  versions : s.runtimeConfig.riskBudget.version ≤ config.riskBudget.version

/-- Both budgets have a version of their own, or neither has, or there is none in force. -/
def TradingEngine.SameScale (s : TradingEngine) (config : EngineConfig) : Prop :=
  s.runtimeConfigVersion = 0 ∨ (s.runtimeConfig.riskBudget.version = 0 ↔ config.riskBudget.version = 0)

theorem configure_success_iff (s : Risk.RiskManager) {config : EngineConfig} (hversion : config.version ≠ 0) :
    (s.configure config.limits).1 = .success ↔
      config.validBudget = true ∧ s.limits.version ≤ config.limits.version := by
  have hlimits := EngineConfig.limits_version hversion
  unfold Risk.RiskManager.configure
  rw [config.validLimits, ← UInt64.not_lt]
  cases config.validBudget with
  | false => simp
  | true =>
    by_cases hback : config.limits.version < s.limits.version
    · simp [hlimits, hback]
    · simp [hback]

/-- While the engine does not run, `OnEngineConfig` turns down what fails one of five tests, and nothing else. -/
theorem taken_iff (s : TradingEngine) (config : EngineConfig) (nowMs : Int) (hstopped : s.running = false) :
    s.refuses config nowMs = false ∧ s.runtimeConfigVersion < config.version ↔
      s.runtimeConfigVersion < config.version ∧ config.identifies s.bootstrapConfig.identity = true ∧
        config.expired nowMs = false ∧ config.validBudget = true ∧
        s.riskManager.limits.version ≤ config.limits.version := by
  unfold TradingEngine.refuses
  rw [hstopped, Bool.false_and, Bool.false_or]
  constructor
  · rintro ⟨hrefuses, hnewer⟩
    simp only [Bool.or_eq_false_iff, beq_eq_false_iff_ne, Bool.not_eq_false', hnewer, decide_true, Bool.true_and,
      bne_eq_false_iff_eq] at hrefuses
    obtain ⟨⟨⟨hversion, hidentity⟩, hcurrent⟩, hrisk⟩ := hrefuses
    obtain ⟨hbudget, hlimits⟩ := (configure_success_iff s.riskManager hversion).mp hrisk
    exact ⟨hnewer, hidentity, hcurrent, hbudget, hlimits⟩
  · rintro ⟨hnewer, hidentity, hcurrent, hbudget, hlimits⟩
    have hversion : config.version ≠ 0 := by
      rintro hzero
      rw [hzero] at hnewer
      exact absurd hnewer (UInt64.not_lt.mpr UInt64.zero_le)
    have hrisk := (configure_success_iff s.riskManager hversion).mpr ⟨hbudget, hlimits⟩
    exact ⟨by simp [hversion, hidentity, hcurrent, hrisk], hnewer⟩

theorem Offers.Inv.limits_version {s : Offers} (h : s.Inv) :
    (s.engine.riskManager.limits.version = 0 ∧ s.engine.runtimeConfig.riskBudget.version = 0) ∨
    (s.engine.runtimeConfigVersion ≠ 0 ∧
      s.engine.riskManager.limits.version = s.engine.runtimeConfig.limits.version ∧
      s.engine.runtimeConfigVersion = s.engine.runtimeConfig.version) := by
  by_cases hzero : s.engine.runtimeConfigVersion = 0
  · have hlimits := congrArg (·.limits.version) (h.unset hzero)
    have hconfig := congrArg (·.runtimeConfig.riskBudget.version) (h.unset hzero)
    exact Or.inl ⟨hlimits, hconfig⟩
  rcases h.whole with hinitial | ⟨config, -, happlied⟩
  · exact absurd (congrArg Applied.runtimeConfigVersion hinitial) hzero
  · have hversion : s.engine.runtimeConfigVersion = config.version := congrArg Applied.runtimeConfigVersion happlied
    have hlimits : s.engine.riskManager.limits = config.limits := congrArg Applied.limits happlied
    have hconfig : s.engine.runtimeConfig = config := congrArg Applied.runtimeConfig happlied
    rw [hlimits, hconfig]
    exact Or.inr ⟨hzero, rfl, hversion⟩

theorem Offers.Inv.limits_le_iff {s : Offers} (h : s.Inv) {config : EngineConfig}
    (hscale : s.engine.SameScale config) (hnewer : s.engine.runtimeConfigVersion < config.version) :
    s.engine.riskManager.limits.version ≤ config.limits.version ↔
      s.engine.runtimeConfig.riskBudget.version ≤ config.riskBudget.version := by
  have hlimits : ∀ config : EngineConfig, config.limits.version =
      if config.riskBudget.version ≠ 0 then config.riskBudget.version else config.version := fun _ => rfl
  rcases h.limits_version with ⟨hforce, hbudget⟩ | ⟨hset, hforce, hversion⟩
  · rw [hforce, hbudget]
    exact iff_of_true UInt64.zero_le UInt64.zero_le
  · rw [hforce, hlimits, hlimits]
    have hsame := hscale.resolve_left hset
    by_cases hzero : s.engine.runtimeConfig.riskBudget.version = 0
    · rw [if_neg (not_not.mpr hzero), if_neg (not_not.mpr (hsame.mp hzero)), hzero, hsame.mp hzero, ← hversion]
      exact iff_of_true (Std.le_of_lt hnewer) UInt64.zero_le
    · rw [if_pos hzero, if_pos (fun hnone => hzero (hsame.mpr hnone))]

/-- While the engine does not run, a configuration on the scale of the one in force is taken exactly if it is
accepted. -/
theorem Offers.Inv.accepts_iff {s : Offers} (h : s.Inv) (config : EngineConfig) (nowMs : Int)
    (hstopped : s.engine.running = false) (hscale : s.engine.SameScale config) :
    s.engine.Accepts config nowMs ↔
      s.engine.refuses config nowMs = false ∧ s.engine.runtimeConfigVersion < config.version := by
  rw [taken_iff s.engine config nowMs hstopped]
  constructor
  · intro haccepts
    exact ⟨haccepts.newer, haccepts.identity, haccepts.current, haccepts.budget,
      (h.limits_le_iff hscale haccepts.newer).mpr haccepts.versions⟩
  · rintro ⟨hnewer, hidentity, hcurrent, hbudget, hlimits⟩
    exact ⟨hnewer, hidentity, hcurrent, hbudget, (h.limits_le_iff hscale hnewer).mp hlimits⟩

theorem EngineConfig.validBudget_iff {config : EngineConfig} (hnotional : config.riskBudget.maxNotional ≠ .nan)
    (hbuffer : config.riskBudget.safetyBuffer ≠ .nan) : config.validBudget = true ↔
      0 ≤ config.riskBudget.maxNotional ∧ 0 ≤ config.riskBudget.safetyBuffer ∧
        (0 < config.riskBudget.maxNotional → config.riskBudget.safetyBuffer < config.riskBudget.maxNotional) := by
  have hzero : (0 : Double) ≠ .nan := by decide
  unfold EngineConfig.validBudget
  rw [← Double.not_lt hnotional hzero, ← Double.not_lt hbuffer hzero]
  simp only [Bool.not_eq_true', Bool.or_eq_false_iff, decide_eq_false_iff_not, Bool.and_eq_false_imp, decide_eq_true_eq,
    and_assoc, ← Double.not_le hnotional hbuffer]

namespace Offers

variable {s : Offers}

/-- While the engine does not run, a configuration decides all five exactly if it is newer, meant for this engine,
not expired and valid, and its budget is not older than the one in force, where both have a version or neither. -/
theorem newer_applied (h : Runs.Reaches step Runs.anyStep {} s) (config : EngineConfig) (nowMs : Int)
    (hstopped : s.engine.running = false) (hscale : s.engine.SameScale config) :
    (s.engine.Accepts config nowMs → (s.engine.onEngineConfig config nowMs).applied = config.applied) ∧
    (¬s.engine.Accepts config nowMs → (s.engine.onEngineConfig config nowMs).applied = s.engine.applied) ∧
    (config.riskBudget.maxNotional ≠ .nan → config.riskBudget.safetyBuffer ≠ .nan → (config.validBudget = true ↔
      0 ≤ config.riskBudget.maxNotional ∧ 0 ≤ config.riskBudget.safetyBuffer ∧
        (0 < config.riskBudget.maxNotional → config.riskBudget.safetyBuffer < config.riskBudget.maxNotional))) := by
  rw [(inv_of_reaches h).accepts_iff config nowMs hstopped hscale]
  refine ⟨?_, ?_, EngineConfig.validBudget_iff⟩
  · rintro ⟨hrefuses, hnewer⟩
    rcases applied_onEngineConfig (inv_of_reaches h) config nowMs with ⟨hno, _⟩ | ⟨_, _, happlied⟩
    · rcases hno with hyes | hstale
      · rw [hrefuses] at hyes
        cases hyes
      · exact absurd hnewer (UInt64.not_lt.mpr hstale)
    · exact happlied
  · intro hno
    rcases applied_onEngineConfig (inv_of_reaches h) config nowMs with ⟨_, happlied⟩ | ⟨hrefuses, hnewer, _⟩
    · exact happlied
    · exact absurd ⟨hrefuses, hnewer⟩ hno

/-- The first configuration's budget is at version 10. -/
def laterBudget : EngineConfig := { Lifetime.firstConfig with riskBudget.version := 10 }

/-- The next one is newer, and its budget is at the version after. -/
theorem newer_applied_next : ∃ s : Offers, Runs.Reaches step Runs.anyStep {} s ∧ s.engine.running = false ∧
    s.engine.runtimeConfig.riskBudget.version = 10 ∧
    (s.engine.onEngineConfig { laterBudget with version := 2, riskBudget.version := 11 } 1).applied =
      EngineConfig.applied { laterBudget with version := 2, riskBudget.version := 11 } := by
  have hrun : ∃ s ∈ Runs.exec step {} [.onEngineConfig laterBudget 1], s.engine.running = false ∧
      s.engine.runtimeConfig.riskBudget.version = 10 ∧ s.engine.runtimeConfigVersion = 1 ∧
      s.engine.bootstrapConfig.identity = {} := by decide +kernel
  obtain ⟨s, hs, hstopped, hlimits, hversion, hidentity⟩ := hrun
  have hreach := Runs.reaches_of_exec _ hs
  have hscale : s.engine.SameScale { laterBudget with version := 2, riskBudget.version := 11 } := by
    refine Or.inr ?_
    rw [hlimits]
    decide
  refine ⟨s, hreach, hstopped, hlimits, (newer_applied hreach _ 1 hstopped hscale).1 ?_⟩
  refine ⟨?_, ?_, by decide, by decide, ?_⟩
  · rw [hversion]
    decide
  · rw [hidentity]
    decide
  · rw [hlimits]
    decide

/-- A newer configuration whose budget went back to version 5 is refused. -/
theorem newer_refused : ¬∀ (s : Offers) (config : EngineConfig) (nowMs : Int),
    Runs.Reaches step Runs.anyStep {} s → s.engine.running = false →
    s.engine.runtimeConfigVersion < config.version → config.identifies s.engine.bootstrapConfig.identity = true →
    config.expired nowMs = false → 0 ≤ config.riskBudget.maxNotional → 0 ≤ config.riskBudget.safetyBuffer →
    (0 < config.riskBudget.maxNotional → config.riskBudget.safetyBuffer < config.riskBudget.maxNotional) →
    (s.engine.onEngineConfig config nowMs).applied = config.applied := by
  intro hall
  have hrun : ∃ s ∈ Runs.exec step {} [.onEngineConfig laterBudget 1], s.engine.running = false ∧
      s.engine.runtimeConfigVersion = 1 ∧ s.engine.bootstrapConfig.identity = {} ∧
      (s.engine.onEngineConfig { laterBudget with version := 2, riskBudget.version := 5 } 1).runtimeConfigVersion =
        1 := by decide +kernel
  obtain ⟨s, hs, hstopped, hversion, hidentity, hrefused⟩ := hrun
  have happlied := hall s { laterBudget with version := 2, riskBudget.version := 5 } 1 (Runs.reaches_of_exec _ hs)
    hstopped (by rw [hversion]; decide) (by rw [hidentity]; decide) (by decide) (by decide) (by decide)
    (fun _ => by decide)
  have hsame := congrArg Applied.runtimeConfigVersion happlied
  have htwo : (1 : UInt64) = 2 := hrefused.symm.trans hsame
  exact absurd htwo (by decide)

end Offers

end Qtrade.Engine
