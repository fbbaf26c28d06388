import Qtrade.Engine.TradingEngine
import Qtrade.Lib.Calls

/-!
# Freeze and drain requests

`EngineLifecycle::Transition` loads the state, exchanges it and writes the reason, in three steps, and
`OnMarketHealthChanged` reads the state and the reason before it. Here any number of `Stop` calls, refused
configurations and market notifications take these steps between each other's, and nothing else does. The
transition fails silently where it loses a race.
-/

namespace Qtrade.Engine

/-- The reasons for which `OnEngineConfig` freezes. -/
inductive ConfigRefusal
  | snapshotInvalid
  | identityMismatch
  | expired
  | restartRequired
  | riskInvalid
  | complianceInvalid
deriving DecidableEq

def ConfigRefusal.reason : ConfigRefusal → String
  | .snapshotInvalid => "CONFIG_SNAPSHOT_INVALID"
  | .identityMismatch => "CONFIG_IDENTITY_MISMATCH"
  | .expired => "CONFIG_EXPIRED"
  | .restartRequired => "CONFIG_RESTART_REQUIRED"
  | .riskInvalid => "RISK_CONFIG_INVALID"
  | .complianceInvalid => "COMPLIANCE_CONFIG_INVALID"

/-- Who waits for the transition. `Stop` makes two. -/
inductive Requester
  | market
  | onEngineConfig
  | stopDraining
  | stopStopped
deriving DecidableEq

structure Transition where
  target : EngineState
  reason : String
  requester : Requester
deriving DecidableEq

/-- The transition is one that the market must not undo. -/
def Transition.isRequest (t : Transition) : Bool := t.requester == .onEngineConfig || t.requester == .stopDraining

/-- What holds of a transition wherever it stands. -/
structure Transition.Sane (t : Transition) : Prop where
  target : t.target ≠ .initiated
  reason : t.isRequest = true → t.reason ≠ "MARKET_UNHEALTHY"

inductive LifecycleCall
  | onMarketHealthChanged (healthy : Bool)
  | onEngineConfig (refusal : ConfigRefusal)
  | stop
deriving DecidableEq

/-- The next load, exchange or write. -/
inductive LifecyclePc
  | readingState (healthy : Bool)
  | readingReason
  | loading (t : Transition)
  | exchanging (t : Transition) (current : EngineState)
  | writing (t : Transition)
  | done
deriving DecidableEq

/-- `requested` says that a request has returned. It is for the proofs. -/
structure FreezeRequests where
  lifecycle : EngineLifecycle := {}
  requested : Bool := false

namespace FreezeRequests

def freezing : Transition := ⟨.frozen, "MARKET_UNHEALTHY", .market⟩

def resuming : Transition := ⟨.ready, "", .market⟩

def entry : LifecycleCall → LifecyclePc
  | .onMarketHealthChanged healthy => .readingState healthy
  | .onEngineConfig refusal => .loading ⟨.frozen, refusal.reason, .onEngineConfig⟩
  | .stop => .loading ⟨.draining, "", .stopDraining⟩

/-- Where a call goes on when its transition has returned. -/
def returning (s : FreezeRequests) (t : Transition) : FreezeRequests × LifecyclePc :=
  ({ s with requested := s.requested || t.isRequest },
    if t.requester = .stopDraining then .loading ⟨.stopped, "", .stopStopped⟩ else .done)

def next (s : FreezeRequests) (_ : Nat) (pc : LifecyclePc) (_ : Unit) : Option (FreezeRequests × LifecyclePc) :=
  match pc with
  | .readingState healthy =>
    some (s,
      if !healthy then if s.lifecycle.state = .ready then .loading freezing else .done
      else if s.lifecycle.state = .initiated then .loading resuming
      else if s.lifecycle.state = .frozen then .readingReason
      else .done)
  | .readingReason => some (s, if s.lifecycle.reason = "MARKET_UNHEALTHY" then .loading resuming else .done)
  | .loading t =>
    some (if s.lifecycle.state = t.target then (s, .writing t)
      else if isAllowedTransition s.lifecycle.state t.target then (s, .exchanging t s.lifecycle.state)
      else s.returning t)
  | .exchanging t current =>
    some (if s.lifecycle.state = current then ({ s with lifecycle.state := t.target }, .writing t)
      else s.returning t)
  | .writing t => some (returning { s with lifecycle.reason := t.reason } t)
  | .done => none

def program : Calls.Program FreezeRequests LifecycleCall LifecyclePc Unit Empty where
  entry := entry
  next := next
  environment := fun _ event => event.elim

/-- No call is on its way. -/
def opening (lifecycle : EngineLifecycle) : Calls.Config FreezeRequests LifecyclePc :=
  { shared := { lifecycle }, calls := [] }

/-! ## What a request has to find when it returns -/

/-- No transition leads from the state to `ready` any more, short of an `Init`. -/
def isOver (state : EngineState) : Bool :=
  state == .new || state == .draining || state == .stopped || state == .failed

/-- A call that thaws a frozen engine, or makes it look frozen by the market. -/
def thaws : LifecyclePc → Bool
  | .loading t => t.target == .ready || t.reason == "MARKET_UNHEALTHY"
  | .exchanging t current => t.target == .ready && current == .frozen
  | .writing t => t.reason == "MARKET_UNHEALTHY"
  | _ => false

/-- The step ends the transition of a request. -/
def returnsRequest (s : FreezeRequests) : LifecyclePc → Bool
  | .loading t =>
    t.isRequest && s.lifecycle.state != t.target && !isAllowedTransition s.lifecycle.state t.target
  | .exchanging t current => t.isRequest && s.lifecycle.state != current
  | .writing t => t.isRequest
  | _ => false

def isWriting : LifecyclePc → Bool
  | .writing _ => true
  | _ => false

/-- When a request returns, the engine is past freezing, or it is frozen for another reason than the market
(the reason may be the one that the request writes) and no call of the market is on its way to change that. -/
def undisturbed (c : Calls.Config FreezeRequests LifecyclePc) : Calls.Action LifecycleCall Unit Empty → Bool
  | .resume index _ =>
    match c.calls[index]? with
    | some pc =>
      !c.shared.returnsRequest pc || isOver c.shared.lifecycle.state ||
        c.shared.lifecycle.state == .frozen &&
          (isWriting pc || c.shared.lifecycle.reason != "MARKET_UNHEALTHY") &&
          (c.calls.eraseIdx index).all fun other => !thaws other
    | none => true
  | _ => true

/-! ## The invariant -/

def Sane : LifecyclePc → Prop
  | .loading t => t.Sane
  | .exchanging t current => t.Sane ∧ isAllowedTransition current t.target = true
  | .writing t => t.Sane
  | _ => True

/-- The engine stays out of `ready`. -/
def Safe (c : Calls.Config FreezeRequests LifecyclePc) : Prop :=
  isOver c.shared.lifecycle.state = true ∨
    c.shared.lifecycle.state = .frozen ∧ c.shared.lifecycle.reason ≠ "MARKET_UNHEALTHY" ∧
      ∀ pc ∈ c.calls, thaws pc = false

structure Inv (c : Calls.Config FreezeRequests LifecyclePc) : Prop where
  sane : ∀ pc ∈ c.calls, Sane pc
  safe : c.shared.requested = true → Safe c

variable {s s' : FreezeRequests} {index : Nat} {pc pc' : LifecyclePc}

theorem sane_entry (call : LifecycleCall) : Sane (entry call) := by
  cases call with
  | onMarketHealthChanged => trivial
  | onEngineConfig refusal =>
    refine ⟨by simp, fun _ => ?_⟩
    cases refusal <;> decide
  | stop => exact ⟨by simp, by simp⟩

theorem entry_thaws (call : LifecycleCall) : thaws (entry call) = false := by
  cases call with
  | onMarketHealthChanged | stop => rfl
  | onEngineConfig refusal => cases refusal <;> decide

theorem sane_freezing : freezing.Sane := ⟨by decide, by decide⟩

theorem sane_resuming : resuming.Sane := ⟨by decide, by decide⟩

theorem sane_returning (s : FreezeRequests) (t : Transition) : Sane (s.returning t).2 := by
  unfold returning
  split
  · exact ⟨by simp, by simp⟩
  · trivial

/-- `OnMarketHealthChanged` has not asked for anything yet. -/
def reads : LifecyclePc → Bool
  | .readingState _ | .readingReason => true
  | _ => false

/-- All that one step can be. -/
inductive Moves (s : FreezeRequests) : LifecyclePc → FreezeRequests → LifecyclePc → Prop
  | passes (pc : LifecyclePc) (hreads : reads pc = true) : Moves s pc s .done
  | asks (pc : LifecyclePc) (hreads : reads pc = true) : Moves s pc s .readingReason
  | freezes (pc : LifecyclePc) (hreads : reads pc = true) (hstate : s.lifecycle.state = .ready) :
      Moves s pc s (.loading freezing)
  | resumes (pc : LifecyclePc) (hreads : reads pc = true)
      (hstate : s.lifecycle.state = .initiated ∨ s.lifecycle.reason = "MARKET_UNHEALTHY") :
      Moves s pc s (.loading resuming)
  | same (t : Transition) (hstate : s.lifecycle.state = t.target) : Moves s (.loading t) s (.writing t)
  | loads (t : Transition) (hallowed : isAllowedTransition s.lifecycle.state t.target = true) :
      Moves s (.loading t) s (.exchanging t s.lifecycle.state)
  | refused (t : Transition) (hstate : s.lifecycle.state ≠ t.target)
      (hallowed : isAllowedTransition s.lifecycle.state t.target = false) :
      Moves s (.loading t) (s.returning t).1 (s.returning t).2
  | wins (t : Transition) :
      Moves s (.exchanging t s.lifecycle.state) { s with lifecycle.state := t.target } (.writing t)
  | loses (t : Transition) (current : EngineState) (hstate : s.lifecycle.state ≠ current) :
      Moves s (.exchanging t current) (s.returning t).1 (s.returning t).2
  | writes (t : Transition) :
      Moves s (.writing t) (returning { s with lifecycle.reason := t.reason } t).1
        (returning { s with lifecycle.reason := t.reason } t).2

theorem next_moves (hs : next s index pc () = some (s', pc')) : Moves s pc s' pc' := by
  cases pc with
  | readingState healthy =>
    cases hs
    cases healthy with
    | false =>
      simp only [Bool.not_false, if_true]
      split
      case isTrue hready => exact .freezes _ rfl hready
      case isFalse => exact .passes _ rfl
    | true =>
      simp only [Bool.not_true, Bool.false_eq_true, if_false]
      split
      case isTrue hinitiated => exact .resumes _ rfl (Or.inl hinitiated)
      case isFalse =>
        split
        case isTrue => exact .asks _ rfl
        case isFalse => exact .passes _ rfl
  | readingReason =>
    cases hs
    split
    case isTrue hreason => exact .resumes _ rfl (Or.inr hreason)
    case isFalse => exact .passes _ rfl
  | loading t =>
    simp only [next, Option.some.injEq] at hs
    split at hs
    case isTrue hstate =>
      cases hs
      exact .same t hstate
    case isFalse hstate =>
      split at hs
      case isTrue hallowed =>
        cases hs
        exact .loads t hallowed
      case isFalse hrefused =>
        cases hs
        exact .refused t hstate (by simpa using hrefused)
  | exchanging t current =>
    simp only [next, Option.some.injEq] at hs
    split at hs
    case isTrue hstate =>
      cases hs
      subst hstate
      exact .wins t
    case isFalse hstate =>
      cases hs
      exact .loses t current hstate
  | writing t =>
    cases hs
    exact .writes t
  | done => cases hs

theorem Moves.sane (h : Moves s pc s' pc') (hpc : Sane pc) : Sane pc' := by
  cases h with
  | passes | asks => trivial
  | freezes => exact sane_freezing
  | resumes => exact sane_resuming
  | same => exact hpc
  | loads t hallowed => exact ⟨hpc, hallowed⟩
  | wins => exact hpc.1
  | refused | loses | writes => exact sane_returning _ _

theorem Moves.requested (h : Moves s pc s' pc') (hreq : s'.requested = true) :
    s.requested = true ∨ s.returnsRequest pc = true := by
  cases h with
  | passes | asks | freezes | resumes | same | loads | wins => exact Or.inl hreq
  | refused t hstate hallowed =>
    have hor : s.requested = true ∨ t.isRequest = true := by simpa [returning] using hreq
    exact hor.imp_right fun ht => by simp [returnsRequest, ht, hstate, hallowed]
  | loses t current hstate =>
    have hor : s.requested = true ∨ t.isRequest = true := by simpa [returning] using hreq
    exact hor.imp_right fun ht => by simp [returnsRequest, ht, hstate]
  | writes t => simpa [returning, returnsRequest] using hreq

theorem isOver_of_allowed {source target : EngineState} (h : isOver source = true) (hinit : target ≠ .initiated)
    (hallowed : isAllowedTransition source target = true) : isOver target = true := by
  revert h hinit hallowed
  cases source <;> cases target <;> decide

theorem Moves.over (h : Moves s pc s' pc') (hpc : Sane pc) (hover : isOver s.lifecycle.state = true) :
    isOver s'.lifecycle.state = true := by
  cases h with
  | wins t => exact isOver_of_allowed hover hpc.1.target hpc.2
  | _ => exact hover

theorem returning_thaws (s : FreezeRequests) (t : Transition) : thaws (s.returning t).2 = false := by
  unfold returning
  split <;> rfl

theorem Moves.frozen (h : Moves s pc s' pc') (hpc : Sane pc) (hthaws : thaws pc = false)
    (hstate : s.lifecycle.state = .frozen) (hreason : s.lifecycle.reason ≠ "MARKET_UNHEALTHY") :
    isOver s'.lifecycle.state = true ∨
      s'.lifecycle.state = .frozen ∧ s'.lifecycle.reason ≠ "MARKET_UNHEALTHY" ∧ thaws pc' = false := by
  cases h with
  | passes | asks => exact Or.inr ⟨hstate, hreason, rfl⟩
  | freezes _ _ hready =>
    rw [hstate] at hready
    cases hready
  | resumes _ _ hor =>
    rcases hor with hinitiated | hmarket
    · rw [hstate] at hinitiated
      cases hinitiated
    · exact absurd hmarket hreason
  | same t =>
    refine Or.inr ⟨hstate, hreason, ?_⟩
    simp only [thaws, Bool.or_eq_false_iff] at hthaws
    exact hthaws.2
  | loads t =>
    refine Or.inr ⟨hstate, hreason, ?_⟩
    simp only [thaws, Bool.or_eq_false_iff] at hthaws
    simp [thaws, hthaws.1]
  | refused | loses => exact Or.inr ⟨hstate, hreason, returning_thaws _ _⟩
  | wins t =>
    left
    obtain ⟨hsane, hallowed⟩ := hpc
    simp only [thaws, hstate, beq_self_eq_true, Bool.and_true, beq_eq_false_iff_ne] at hthaws
    rw [hstate] at hallowed
    revert hallowed hthaws
    dsimp only
    cases t.target <;> simp [isAllowedTransition, isOver]
  | writes t =>
    refine Or.inr ⟨hstate, ?_, returning_thaws _ _⟩
    simpa [thaws, returning] using hthaws

theorem Moves.returned {others : List LifecyclePc} (h : Moves s pc s' pc') (hpc : Sane pc)
    (hreturns : s.returnsRequest pc = true)
    (hok : isOver s.lifecycle.state = true ∨
      s.lifecycle.state = .frozen ∧ (isWriting pc = true ∨ s.lifecycle.reason ≠ "MARKET_UNHEALTHY") ∧
        ∀ other ∈ others, thaws other = false) :
    isOver s'.lifecycle.state = true ∨
      s'.lifecycle.state = .frozen ∧ s'.lifecycle.reason ≠ "MARKET_UNHEALTHY" ∧
        ∀ other ∈ pc' :: others, thaws other = false := by
  rcases hok with hover | ⟨hstate, hreason, hothers⟩
  · exact Or.inl (h.over hpc hover)
  · have hrest : isWriting pc = false → s.lifecycle.reason ≠ "MARKET_UNHEALTHY" := by
      intro hno
      rw [hno] at hreason
      exact hreason.resolve_left (by decide)
    cases h with
    | passes _ hreads | asks _ hreads | freezes _ hreads | resumes _ hreads =>
      cases pc <;> simp [reads, returnsRequest] at hreads hreturns
    | same t htarget => simp [returnsRequest, htarget] at hreturns
    | loads t hallowed => simp [returnsRequest, hallowed] at hreturns
    | wins t => simp [returnsRequest] at hreturns
    | refused | loses =>
      exact Or.inr ⟨hstate, hrest rfl, List.forall_mem_cons.mpr ⟨returning_thaws _ _, hothers⟩⟩
    | writes t =>
      exact Or.inr ⟨hstate, hpc.reason hreturns, List.forall_mem_cons.mpr ⟨returning_thaws _ _, hothers⟩⟩

theorem step_inv {c c' : Calls.Config FreezeRequests LifecyclePc} {a : Calls.Action LifecycleCall Unit Empty}
    (h : Inv c) (hok : undisturbed c a = true) (hs : program.step c a = some c') : Inv c' := by
  cases a with
  | start call =>
    cases hs
    refine ⟨?_, fun hreq => ?_⟩
    · intro pc hmem
      rcases List.mem_append.mp hmem with hold | hnew
      · exact h.sane pc hold
      · rw [List.mem_singleton.mp hnew]
        exact sane_entry call
    · rcases h.safe hreq with hover | ⟨hstate, hreason, hthaws⟩
      · exact Or.inl hover
      · refine Or.inr ⟨hstate, hreason, fun pc hmem => ?_⟩
        rcases List.mem_append.mp hmem with hold | hnew
        · exact hthaws pc hold
        · rw [List.mem_singleton.mp hnew]
          exact entry_thaws call
  | resume index input =>
    obtain ⟨pc, pc', hpc, hnext, hcalls⟩ := Calls.Program.step_resume hs
    have hnext : next c.shared index pc () = some (c'.shared, pc') := hnext
    have hmoves := next_moves hnext
    have hbefore := Calls.Program.perm_others hpc
    have hafter : c'.calls.Perm (pc' :: c.calls.eraseIdx index) := hcalls ▸ Calls.Program.set_perm hpc pc'
    have hsane := h.sane pc (hbefore.mem_iff.mpr List.mem_cons_self)
    refine ⟨?_, fun hreq => ?_⟩
    · intro other hmem
      rcases List.mem_cons.mp (hafter.mem_iff.mp hmem) with rfl | hother
      · exact hmoves.sane hsane
      · exact h.sane other (hbefore.mem_iff.mpr (List.mem_cons_of_mem _ hother))
    · unfold Safe
      simp only [hafter.mem_iff]
      by_cases hold : c.shared.requested = true
      · rcases h.safe hold with hover | ⟨hstate, hreason, hthaws⟩
        · exact Or.inl (hmoves.over hsane hover)
        · simp only [hbefore.mem_iff, List.forall_mem_cons] at hthaws
          rcases hmoves.frozen hsane hthaws.1 hstate hreason with hover | ⟨hstate', hreason', hthaws'⟩
          · exact Or.inl hover
          · exact Or.inr ⟨hstate', hreason', List.forall_mem_cons.mpr ⟨hthaws', hthaws.2⟩⟩
      · have hreturns := (hmoves.requested hreq).resolve_left hold
        apply hmoves.returned hsane hreturns
        simpa [undisturbed, hpc, hreturns, and_assoc] using hok
  | environment event => exact event.elim

/-! ## A call on its own -/

/-- A single call, from where it stands. -/
def alone (s : FreezeRequests) (pc : LifecyclePc) : Calls.Config FreezeRequests LifecyclePc :=
  { shared := s, calls := [pc] }

theorem alone_next {c : Calls.Config FreezeRequests LifecyclePc} (hs : next s 0 pc () = some (s', pc'))
    (hrest : Runs.Reaches program.step Runs.anyStep (alone s' pc') c) :
    Runs.Reaches program.step Runs.anyStep (alone s pc) c := by
  apply Relation.ReflTransGen.head _ hrest
  refine ⟨.resume 0 (), trivial, ?_⟩
  simp [Calls.Program.step, alone, program, hs]

/-- Undisturbed, the steps of a transition come to what `EngineLifecycle.transition` says. -/
theorem transition_alone (s : FreezeRequests) (t : Transition) :
    Runs.Reaches program.step Runs.anyStep (alone s (.loading t))
      (alone (returning { s with lifecycle := (s.lifecycle.transition t.target t.reason).2 } t).1
        (s.returning t).2) := by
  have hwrites : ∀ s₁ : FreezeRequests, Runs.Reaches program.step Runs.anyStep (alone s₁ (.writing t))
      (alone (returning { s₁ with lifecycle.reason := t.reason } t).1 (s₁.returning t).2) :=
    fun s₁ => alone_next (by rfl) (.refl _)
  unfold EngineLifecycle.transition
  by_cases hsame : s.lifecycle.state = t.target
  · have hloads : next s 0 (.loading t) () = some (s, .writing t) := by simp [next, hsame]
    rw [if_neg (fun h => h.1 hsame), ← hsame]
    exact alone_next hloads (hwrites s)
  · by_cases hallowed : isAllowedTransition s.lifecycle.state t.target = true
    · have hloads : next s 0 (.loading t) () = some (s, .exchanging t s.lifecycle.state) := by
        simp [next, hsame, hallowed]
      have hwins : next s 0 (.exchanging t s.lifecycle.state) () =
          some ({ s with lifecycle.state := t.target }, .writing t) := by simp [next]
      rw [if_neg (by simp [hallowed])]
      exact alone_next hloads (alone_next hwins (hwrites _))
    · have hrefused : next s 0 (.loading t) () = some (s.returning t) := by simp [next, hsame, hallowed]
      rw [if_pos ⟨hsame, by simpa using hallowed⟩]
      exact alone_next hrefused (.refl _)

/-- Undisturbed, the steps of a notification come to what `onMarketHealthChanged` says. -/
theorem onMarketHealthChanged_alone (engine : TradingEngine) (healthy : Bool) :
    Runs.Reaches program.step Runs.anyStep (alone { lifecycle := engine.lifecycle } (.readingState healthy))
      (alone { lifecycle := (engine.onMarketHealthChanged healthy).lifecycle } .done) := by
  have hfreezes := transition_alone { lifecycle := engine.lifecycle } freezing
  have hresumes := transition_alone { lifecycle := engine.lifecycle } resuming
  have hpasses : ∀ pc, next { lifecycle := engine.lifecycle } 0 pc () =
        some ({ lifecycle := engine.lifecycle }, .done) →
      Runs.Reaches program.step Runs.anyStep (alone { lifecycle := engine.lifecycle } pc)
        (alone { lifecycle := engine.lifecycle } .done) :=
    fun pc hnext => alone_next hnext (.refl _)
  unfold TradingEngine.onMarketHealthChanged
  cases healthy with
  | false =>
    rw [if_pos (by decide)]
    by_cases hready : engine.lifecycle.state = .ready
    · have hfirst : next { lifecycle := engine.lifecycle } 0 (.readingState false) () =
          some ({ lifecycle := engine.lifecycle }, .loading freezing) := by simp [next, hready]
      rw [if_pos hready]
      exact alone_next hfirst hfreezes
    · rw [if_neg hready]
      exact hpasses _ (by simp [next, hready])
  | true =>
    rw [if_neg (by decide)]
    by_cases hinitiated : engine.lifecycle.state = .initiated
    · have hfirst : next { lifecycle := engine.lifecycle } 0 (.readingState true) () =
          some ({ lifecycle := engine.lifecycle }, .loading resuming) := by simp [next, hinitiated]
      rw [if_pos hinitiated]
      exact alone_next hfirst hresumes
    · rw [if_neg hinitiated]
      by_cases hfrozen : engine.lifecycle.state = .frozen
      · have hfirst : next { lifecycle := engine.lifecycle } 0 (.readingState true) () =
            some ({ lifecycle := engine.lifecycle }, .readingReason) := by simp [next, hfrozen]
        apply alone_next hfirst
        by_cases hreason : engine.lifecycle.reason = "MARKET_UNHEALTHY"
        · have hsecond : next { lifecycle := engine.lifecycle } 0 .readingReason () =
              some ({ lifecycle := engine.lifecycle }, .loading resuming) := by simp [next, hreason]
          rw [if_pos ⟨hfrozen, hreason⟩]
          exact alone_next hsecond hresumes
        · rw [if_neg fun h => hreason h.2]
          exact hpasses _ (by simp [next, hreason])
      · rw [if_neg fun h => hfrozen h.1]
        exact hpasses _ (by simp [next, hinitiated, hfrozen])

/-! ## Requests stand -/

/-- If every request returns undisturbed, the engine is not ready once one has returned. -/
theorem requests_stand {lifecycle : EngineLifecycle} {c : Calls.Config FreezeRequests LifecyclePc}
    (h : Runs.Reaches program.step (fun c a => undisturbed c a = true) (opening lifecycle) c)
    (hreq : c.shared.requested = true) : c.shared.lifecycle.state ≠ .ready := by
  have hinv : Inv c := by
    apply h.invariant
    · exact ⟨fun pc hmem => absurd hmem List.not_mem_nil, fun hreq => by cases hreq⟩
    · intro c a c' hinv hok hs
      exact step_inv hinv hok hs
  intro hready
  rcases hinv.safe hreq with hover | ⟨hfrozen, _⟩
  · rw [hready] at hover
    cases hover
  · rw [hready] at hfrozen
    cases hfrozen

/-- The market recovers after the freeze. -/
theorem requests_stand_recovery : ∃ c, Runs.Reaches program.step (fun c a => undisturbed c a = true)
    (opening { state := .ready }) c ∧ c.shared.lifecycle.reason = "CONFIG_RESTART_REQUIRED" ∧
    c.shared.lifecycle.state ≠ .ready := by
  have hrun : ∃ c ∈ Runs.execWhile program.step (fun c a => undisturbed c a = true) (opening { state := .ready })
      [.start (.onEngineConfig .restartRequired), .resume 0 (), .resume 0 (), .resume 0 (),
        .start (.onMarketHealthChanged true), .resume 1 (), .resume 1 ()],
      c.shared.requested = true ∧ c.shared.lifecycle.reason = "CONFIG_RESTART_REQUIRED" := by decide +kernel
  obtain ⟨c, hc, hreq, hreason⟩ := hrun
  have hreach := Runs.reaches_of_execWhile _ hc
  exact ⟨c, hreach, hreason, requests_stand hreach hreq⟩

/-- The market freezes first, the exchange of the configuration fails, and the market recovers. -/
theorem request_undone : ¬∀ (lifecycle : EngineLifecycle) (c : Calls.Config FreezeRequests LifecyclePc),
    Runs.Reaches program.step Runs.anyStep (opening lifecycle) c → c.shared.requested = true →
    c.shared.lifecycle.state ≠ .ready := by
  intro hall
  have hrun : ∃ c ∈ Runs.exec program.step (opening { state := .ready })
      [.start (.onEngineConfig .restartRequired), .resume 0 (), .start (.onMarketHealthChanged false),
        .resume 1 (), .resume 1 (), .resume 1 (), .resume 1 (), .resume 0 (),
        .start (.onMarketHealthChanged true), .resume 2 (), .resume 2 (), .resume 2 (), .resume 2 ()],
      c.shared.requested = true ∧ c.shared.lifecycle.state = .ready := by decide +kernel
  obtain ⟨c, hc, hreq, hready⟩ := hrun
  exact hall _ c (Runs.reaches_of_exec _ hc) hreq hready

end FreezeRequests

end Qtrade.Engine
