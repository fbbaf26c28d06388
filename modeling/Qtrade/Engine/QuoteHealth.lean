import Qtrade.Engine.TradingEngine
import Qtrade.Lib.Calls

/-!
# Market health and the ready state

`quote_health_monitor.cpp`. The tick callbacks and the watchdog change `healthy_` first and notify the engine
after it, each on a thread of its own. A notification that is on its way is a call that stands at
`notifying`, and its delivery is one step. Only these calls change the lifecycle here.
-/

namespace Qtrade.Engine

structure QuoteHealth where
  healthy : Bool := false
  lastValidTickMs : Int := 0
  maxStaleAgeMs : Int := 3000
  engine : TradingEngine := {}

/-- `WatchHealth` runs in a thread of its own, and `AdvanceReadyGates` ends `Start`. -/
inductive HealthCall
  | onValidTick
  | onInvalidTick
  | advanceReadyGates
  | watchHealth
deriving DecidableEq

/-- The next load or store of a call. The watchdog looks at the last tick, the flag and the clock before it
clears the flag, and goes on watching when it has notified. -/
inductive HealthPc
  | stamping
  | raising
  | lowering
  | checking
  | watching
  | sawTick (lastTick : Int)
  | sawHealthy (lastTick : Int)
  | clearing
  | notifying (healthy : Bool) (watchdog : Bool)
  | done
deriving DecidableEq

namespace QuoteHealth

def entry : HealthCall → HealthPc
  | .onValidTick => .stamping
  | .onInvalidTick => .lowering
  | .advanceReadyGates => .checking
  | .watchHealth => .watching

/-- `nowMs` is what `SteadyMillisNow` returns. -/
def next (s : QuoteHealth) (_ : Nat) (pc : HealthPc) (nowMs : Int) : Option (QuoteHealth × HealthPc) :=
  match pc with
  | .stamping => some ({ s with lastValidTickMs := nowMs }, .raising)
  | .raising => some ({ s with healthy := true }, if s.healthy then .done else .notifying true false)
  | .lowering => some ({ s with healthy := false }, if s.healthy then .notifying false false else .done)
  | .checking => some (s, if s.healthy then .notifying true false else .done)
  | .watching => some (s, .sawTick s.lastValidTickMs)
  | .sawTick lastTick => some (s, if s.healthy then .sawHealthy lastTick else .watching)
  | .sawHealthy lastTick =>
    some (s, if lastTick = 0 ∨ nowMs - lastTick ≤ s.maxStaleAgeMs then .watching else .clearing)
  | .clearing => some ({ s with healthy := false }, .notifying false true)
  | .notifying healthy watchdog =>
    some ({ s with engine := s.engine.onMarketHealthChanged healthy }, if watchdog then .watching else .done)
  | .done => none

def program : Calls.Program QuoteHealth HealthCall HealthPc Int Empty where
  entry := entry
  next := next
  environment := fun _ event => event.elim

/-- The running engine before the first tick. -/
def opening (engine : TradingEngine) : Calls.Config QuoteHealth HealthPc := { shared := { engine }, calls := [] }

def notifies : HealthPc → Bool
  | .notifying _ _ => true
  | _ => false

/-- A delivery that leaves no notification in flight says what `IsHealthy` says at that moment. -/
def lastWord (c : Calls.Config QuoteHealth HealthPc) : Calls.Action HealthCall Int Empty → Bool
  | .resume index _ =>
    match c.calls[index]? with
    | some (.notifying healthy _) => (c.calls.eraseIdx index).any notifies || healthy == c.shared.healthy
    | _ => true
  | _ => true

/-! ## The invariant -/

/-- The lifecycle is one that market health alone leads to. -/
def Governed (s : QuoteHealth) : Prop :=
  s.engine.lifecycle.state = .initiated ∨ s.engine.lifecycle.state = .ready ∨
    s.engine.lifecycle.state = .frozen ∧ s.engine.lifecycle.reason = "MARKET_UNHEALTHY"

def Tracks (s : QuoteHealth) : Prop := s.engine.lifecycle.state = .ready ↔ s.healthy = true

structure Inv (c : Calls.Config QuoteHealth HealthPc) : Prop where
  governed : c.shared.Governed
  tracks : c.calls.any notifies = false → c.shared.Tracks

/-- From a governed state, a notification decides whether the engine is ready. -/
theorem Governed.onMarketHealthChanged {s : QuoteHealth} (h : s.Governed) (healthy : Bool) :
    Governed { s with engine := s.engine.onMarketHealthChanged healthy } ∧
      ((s.engine.onMarketHealthChanged healthy).lifecycle.state = .ready ↔ healthy = true) := by
  unfold Governed TradingEngine.onMarketHealthChanged
  unfold Governed at h
  cases healthy with
  | true =>
    rcases h with hstate | hstate | ⟨hstate, hreason⟩ <;>
      simp [TradingEngine.request, EngineLifecycle.transition, isAllowedTransition, *]
  | false =>
    rcases h with hstate | hstate | ⟨hstate, hreason⟩ <;>
      simp [TradingEngine.request, EngineLifecycle.transition, isAllowedTransition, *]

theorem notifies_iff {pc : HealthPc} : notifies pc = true ↔ ∃ healthy watchdog, pc = .notifying healthy watchdog := by
  cases pc <;> simp [notifies]

theorem next_quiet {s s' : QuoteHealth} {index : Nat} {pc pc' : HealthPc} {nowMs : Int}
    (hpc : notifies pc = false) (hs : next s index pc nowMs = some (s', pc')) :
    s'.engine = s.engine ∧ (notifies pc' = false → s'.healthy = s.healthy) := by
  cases pc with
  | stamping | watching =>
    cases hs
    exact ⟨rfl, fun _ => rfl⟩
  | raising | lowering | checking | sawTick =>
    cases hs
    refine ⟨rfl, ?_⟩
    cases s.healthy <;> simp [notifies]
  | sawHealthy | clearing =>
    cases hs
    exact ⟨rfl, by simp [notifies]⟩
  | notifying | done => simp_all [notifies, next]

theorem step_inv {c c' : Calls.Config QuoteHealth HealthPc} {a : Calls.Action HealthCall Int Empty} (h : Inv c)
    (hok : lastWord c a = true) (hs : program.step c a = some c') : Inv c' := by
  cases a with
  | start call =>
    cases hs
    refine ⟨h.governed, fun hquiet => h.tracks ?_⟩
    rw [List.any_append, Bool.or_eq_false_iff] at hquiet
    exact hquiet.1
  | resume index nowMs =>
    obtain ⟨pc, pc', hpc, hnext, hcalls⟩ := Calls.Program.step_resume hs
    have hbefore : c.calls.any notifies = (notifies pc || (c.calls.eraseIdx index).any notifies) :=
      (Calls.Program.perm_others hpc).any_eq
    have hafter : c'.calls.any notifies = (notifies pc' || (c.calls.eraseIdx index).any notifies) := by
      rw [hcalls]
      exact (Calls.Program.set_perm hpc pc').any_eq
    cases hnotifies : notifies pc with
    | false =>
      have hnext : next c.shared index pc nowMs = some (c'.shared, pc') := hnext
      obtain ⟨hengine, hflag⟩ := next_quiet hnotifies hnext
      refine ⟨?_, fun hquiet => ?_⟩
      · unfold Governed
        rw [hengine]
        exact h.governed
      · rw [hafter, Bool.or_eq_false_iff] at hquiet
        rw [hnotifies, Bool.false_or] at hbefore
        unfold Tracks
        rw [hengine, hflag hquiet.1]
        exact h.tracks (hbefore.trans hquiet.2)
    | true =>
      obtain ⟨healthy, watchdog, rfl⟩ := notifies_iff.mp hnotifies
      obtain ⟨hgoverned, hready⟩ := h.governed.onMarketHealthChanged healthy
      simp only [program, next, Option.some.injEq, Prod.mk.injEq] at hnext
      obtain ⟨hshared, _⟩ := hnext
      refine ⟨hshared ▸ hgoverned, fun hquiet => ?_⟩
      rw [hafter, Bool.or_eq_false_iff] at hquiet
      simp only [lastWord, hpc, hquiet.2, Bool.false_or, beq_iff_eq] at hok
      unfold Tracks
      rw [← hshared, ← hok]
      exact hready
  | environment event => exact event.elim

/-- If the last word is always that of the flag, the engine is ready exactly while the market is healthy,
whenever no notification is in flight. Otherwise it waits for the market. -/
theorem ready_tracks_health {engine : TradingEngine} {c : Calls.Config QuoteHealth HealthPc}
    (hstate : engine.lifecycle.state = .initiated)
    (h : Runs.Reaches program.step (fun c a => lastWord c a = true) (opening engine) c)
    (hquiet : c.calls.any notifies = false) :
    (c.shared.engine.lifecycle.state = .ready ↔ c.shared.healthy = true) ∧
    (c.shared.healthy = false → c.shared.engine.lifecycle.state = .initiated ∨
      c.shared.engine.lifecycle.state = .frozen ∧ c.shared.engine.lifecycle.reason = "MARKET_UNHEALTHY") := by
  have hinv : Inv c := by
    apply h.invariant
    · refine ⟨Or.inl hstate, fun _ => ?_⟩
      simp [Tracks, opening, hstate]
    · intro c a c' hinv hok hs
      exact step_inv hinv hok hs
  have htracks := hinv.tracks hquiet
  refine ⟨htracks, fun hunhealthy => ?_⟩
  rcases hinv.governed with hinitiated | hready | hfrozen
  · exact Or.inl hinitiated
  · rw [htracks.mp hready] at hunhealthy
    cases hunhealthy
  · exact Or.inr hfrozen

/-- `Init` has succeeded. -/
def initiated : TradingEngine := { lifecycle := { state := .initiated } }

/-- The watchdog sees a stale tick at 5000 and has cleared the flag, and the next valid tick comes before the
engine has been told. -/
def overtaking : List (Calls.Action HealthCall Int Empty) :=
  [.start .watchHealth, .start .onValidTick, .resume 1 1000, .resume 1 0, .resume 1 0,
    .resume 0 0, .resume 0 0, .resume 0 5000, .resume 0 0, .start .onValidTick, .resume 2 5001, .resume 2 0]

/-- Both are delivered in their order. -/
theorem ready_tracks_health_inOrder : ∃ c, Runs.Reaches program.step (fun c a => lastWord c a = true)
    (opening initiated) c ∧ c.shared.healthy = true ∧ c.shared.engine.lifecycle.state = .ready := by
  have hrun : ∃ c ∈ Runs.execWhile program.step (fun c a => lastWord c a = true) (opening initiated)
      (overtaking ++ [.resume 0 0, .resume 2 0]),
      c.calls.any notifies = false ∧ c.shared.healthy = true := by decide +kernel
  obtain ⟨c, hc, hquiet, hhealthy⟩ := hrun
  have hreach := Runs.reaches_of_execWhile _ hc
  exact ⟨c, hreach, hhealthy, (ready_tracks_health rfl hreach hquiet).1.mpr hhealthy⟩

/-- The tick's notification overtakes the watchdog's. -/
theorem frozen_while_healthy : ¬∀ (engine : TradingEngine) (c : Calls.Config QuoteHealth HealthPc),
    engine.lifecycle.state = .initiated → Runs.Reaches program.step Runs.anyStep (opening engine) c →
    c.calls.any notifies = false → (c.shared.engine.lifecycle.state = .ready ↔ c.shared.healthy = true) := by
  intro hall
  have hrun : ∃ c ∈ Runs.exec program.step (opening initiated) (overtaking ++ [.resume 2 0, .resume 0 0]),
      c.calls.any notifies = false ∧ c.shared.healthy = true ∧ c.shared.engine.lifecycle.state = .frozen := by
    decide +kernel
  obtain ⟨c, hc, hquiet, hhealthy, hfrozen⟩ := hrun
  have hready := (hall initiated c rfl (Runs.reaches_of_exec _ hc) hquiet).mpr hhealthy
  rw [hfrozen] at hready
  cases hready

end QuoteHealth

end Qtrade.Engine
