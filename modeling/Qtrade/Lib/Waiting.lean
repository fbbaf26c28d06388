import Qtrade.Lib.Runs

/-!
# Waiting on a condition

One thread of a system waits on a condition variable. With the mutex it looks whether there is something for it, and
where there is not it commits itself to sleep, which also gives the mutex back. A notification that comes before it
sleeps is lost.
-/

namespace Waiting

variable {σ α : Type*}

/-- A system in which one thread waits for `take`. The actions that are `locked` need the mutex, and those of which
`notifies` is true are followed by a notification. -/
structure Monitor (σ α : Type*) where
  step : σ → α → Option σ
  take : α
  isTake : α → Bool
  atWait : σ → Bool
  locked : α → Bool
  notifies : σ → α → Bool

inductive Pc
  | awake
  | looking
  | committed
  | asleep
deriving DecidableEq

/-- The waiting thread has the mutex. -/
def Pc.holds : Pc → Bool
  | .looking | .committed => true
  | .awake | .asleep => false

/-- `owed` notifications are still to come. -/
structure State (σ : Type*) where
  system : σ
  pc : Pc := .awake
  owed : Nat := 0

inductive Action (α : Type*)
  | look
  | take
  | commit
  | sleep
  | notify
  | spurious
  | other (a : α)

namespace Monitor

variable (m : Monitor σ α)

/-- There is something for the waiting thread. -/
def ready (s : σ) : Bool := (m.step s m.take).isSome

def next (s : State σ) : Action α → Option (State σ)
  | .look => if s.pc = .awake ∧ m.atWait s.system = true then some { s with pc := .looking } else none
  | .take =>
    if s.pc = .looking then (m.step s.system m.take).map fun system => { s with system, pc := .awake } else none
  | .commit => if s.pc = .looking ∧ m.ready s.system = false then some { s with pc := .committed } else none
  | .sleep => if s.pc = .committed then some { s with pc := .asleep } else none
  | .notify =>
    if 0 < s.owed then some { s with owed := s.owed - 1, pc := if s.pc = .asleep then .awake else s.pc } else none
  | .spurious => if s.pc = .asleep then some { s with pc := .awake } else none
  | .other a =>
    if m.isTake a || m.locked a && s.pc.holds then none
    else
      (m.step s.system a).map fun system =>
        { s with system, owed := s.owed + if m.notifies s.system a then 1 else 0 }

/-- While the system is in order, nobody else moves the thread from its wait, and who has something for it says so
afterwards. -/
structure Notified (P : σ → Prop) : Prop where
  kept : ∀ {s a s'}, P s → m.step s a = some s' → P s'
  stays : ∀ {s a s'}, P s → m.isTake a = false → m.step s a = some s' → m.atWait s = true → m.atWait s' = true
  tells : ∀ {s a s'}, P s → m.isTake a = false → m.step s a = some s' → m.atWait s = true → m.ready s = false →
    m.ready s' = true → m.notifies s a = true

/-- Who has something for it takes the mutex. -/
def Locked (P : σ → Prop) : Prop := ∀ {s a s'}, P s → m.isTake a = false → m.step s a = some s' → m.atWait s = true →
  m.ready s = false → m.ready s' = true → m.locked a = true

/-- A thread that sleeps, or is about to, has nothing to do, or will be notified. -/
structure Watched (P : σ → Prop) (s : State σ) : Prop where
  inv : P s.system
  atWait : s.pc ≠ .awake → m.atWait s.system = true
  owed : s.pc = .committed ∨ s.pc = .asleep → m.ready s.system = true → 0 < s.owed

/-- No notification comes between a thread's look and its sleep that has something for it. -/
def Heard (s : State σ) : Action α → Prop
  | .notify => s.pc = .committed → m.ready s.system = false
  | _ => True

variable {m} {P : σ → Prop} {s s' s₀ : State σ}

theorem next_other {a : α} (h : m.next s (.other a) = some s') :
    m.isTake a = false ∧ (m.locked a = true → s.pc.holds = false) ∧ m.step s.system a = some s'.system ∧
      s'.pc = s.pc ∧ s'.owed = s.owed + if m.notifies s.system a then 1 else 0 := by
  simp only [next] at h
  split at h
  case isTrue => cases h
  case isFalse hfree =>
    obtain ⟨system, hstep, rfl⟩ := Option.map_eq_some_iff.mp h
    simp only [Bool.or_eq_true, Bool.and_eq_true, not_or, not_and, Bool.not_eq_true] at hfree
    exact ⟨hfree.1, hfree.2, hstep, rfl, rfl⟩

theorem next_system {a : Action α} (hs : m.next s a = some s') :
    s'.system = s.system ∨ ∃ a, m.step s.system a = some s'.system := by
  cases a with
  | take =>
    obtain ⟨-, hs⟩ := Option.ite_none_right_eq_some.mp hs
    obtain ⟨system, hstep, rfl⟩ := Option.map_eq_some_iff.mp hs
    exact Or.inr ⟨m.take, hstep⟩
  | other a => exact Or.inr ⟨a, (next_other hs).2.2.1⟩
  | _ =>
    obtain ⟨-, hs⟩ := Option.ite_none_right_eq_some.mp hs
    cases hs
    exact Or.inl rfl

theorem reaches_system {ok : State σ → Action α → Prop} (h : Runs.Reaches m.next ok s₀ s) :
    Runs.Reaches m.step Runs.anyStep s₀.system s.system := by
  refine h.invariant (P := fun s => Runs.Reaches m.step Runs.anyStep s₀.system s.system) (Runs.Reaches.refl _)
    fun s a s' hreach _ hs => ?_
  rcases next_system hs with hsame | ⟨a, hstep⟩
  · rwa [hsame]
  · exact hreach.tail trivial hstep

theorem Notified.inv (hm : m.Notified P) (h : P s.system) {a : Action α} (hs : m.next s a = some s') :
    P s'.system := by
  rcases next_system hs with hsame | ⟨a, hstep⟩
  · rwa [hsame]
  · exact hm.kept h hstep

theorem Watched.next (hm : m.Notified P) (h : m.Watched P s) {a : Action α} (hheard : m.Heard s a)
    (hs : m.next s a = some s') : m.Watched P s' := by
  have hinv := hm.inv h.inv hs
  cases a with
  | look =>
    obtain ⟨⟨-, hwait⟩, hs⟩ := Option.ite_none_right_eq_some.mp hs
    cases hs
    exact ⟨hinv, fun _ => hwait, by simp⟩
  | take =>
    obtain ⟨-, hs⟩ := Option.ite_none_right_eq_some.mp hs
    obtain ⟨system, -, rfl⟩ := Option.map_eq_some_iff.mp hs
    exact ⟨hinv, by simp, by simp⟩
  | commit =>
    obtain ⟨⟨hlooking, hnothing⟩, hs⟩ := Option.ite_none_right_eq_some.mp hs
    cases hs
    exact ⟨hinv, fun _ => h.atWait (by simp [hlooking]), fun _ hready => by simp [hnothing] at hready⟩
  | sleep =>
    obtain ⟨hcommitted, hs⟩ := Option.ite_none_right_eq_some.mp hs
    cases hs
    exact ⟨hinv, fun _ => h.atWait (by simp [hcommitted]), fun _ => h.owed (.inl hcommitted)⟩
  | notify =>
    obtain ⟨-, hs⟩ := Option.ite_none_right_eq_some.mp hs
    cases hs
    split
    case isTrue => exact ⟨hinv, by simp, by simp⟩
    case isFalse hawake =>
      refine ⟨hinv, h.atWait, fun hpc hready => ?_⟩
      have hcommitted := hpc.resolve_right hawake
      simp [hheard hcommitted] at hready
  | spurious =>
    obtain ⟨-, hs⟩ := Option.ite_none_right_eq_some.mp hs
    cases hs
    exact ⟨hinv, by simp, by simp⟩
  | other a =>
    obtain ⟨hother, -, hstep, hpc, howed⟩ := next_other hs
    refine ⟨hinv, fun hne => ?_, fun hdown hready => ?_⟩
    · rw [hpc] at hne
      exact hm.stays h.inv hother hstep (h.atWait hne)
    · rw [hpc] at hdown
      have hwait := h.atWait (by rcases hdown with hpc | hpc <;> simp [hpc])
      rw [howed]
      cases hbefore : m.ready s.system with
      | true => exact Nat.lt_add_right _ (h.owed hdown hbefore)
      | false => simp [hm.tells h.inv hother hstep hwait hbefore hready]

/-- Where every notification is heard, nobody sleeps through anything. -/
theorem watched_reaches (hm : m.Notified P) (hinv : P s₀.system) (hawake : s₀.pc = .awake)
    (h : Runs.Reaches m.next m.Heard s₀ s) : m.Watched P s :=
  h.invariant ⟨hinv, by simp [hawake], by simp [hawake]⟩ fun _ _ _ hw hheard hs => hw.next hm hheard hs

/-- Nothing turns up between the look and the sleep. -/
structure Undisturbed (m : Monitor σ α) (P : σ → Prop) (s : State σ) : Prop where
  inv : P s.system
  atWait : s.pc ≠ .awake → m.atWait s.system = true
  nothing : s.pc = .committed → m.ready s.system = false

theorem Undisturbed.next (hm : m.Notified P) (hlocked : m.Locked P) (h : m.Undisturbed P s) {a : Action α}
    (hs : m.next s a = some s') : m.Undisturbed P s' := by
  have hinv := hm.inv h.inv hs
  cases a with
  | look =>
    obtain ⟨⟨-, hwait⟩, hs⟩ := Option.ite_none_right_eq_some.mp hs
    cases hs
    exact ⟨hinv, fun _ => hwait, by simp⟩
  | take =>
    obtain ⟨-, hs⟩ := Option.ite_none_right_eq_some.mp hs
    obtain ⟨system, -, rfl⟩ := Option.map_eq_some_iff.mp hs
    exact ⟨hinv, by simp, by simp⟩
  | commit =>
    obtain ⟨⟨hlooking, hnothing⟩, hs⟩ := Option.ite_none_right_eq_some.mp hs
    cases hs
    exact ⟨hinv, fun _ => h.atWait (by simp [hlooking]), fun _ => hnothing⟩
  | sleep =>
    obtain ⟨hcommitted, hs⟩ := Option.ite_none_right_eq_some.mp hs
    cases hs
    exact ⟨hinv, fun _ => h.atWait (by simp [hcommitted]), by simp⟩
  | notify =>
    obtain ⟨-, hs⟩ := Option.ite_none_right_eq_some.mp hs
    cases hs
    split
    case isTrue => exact ⟨hinv, by simp, by simp⟩
    case isFalse => exact ⟨hinv, h.atWait, h.nothing⟩
  | spurious =>
    obtain ⟨-, hs⟩ := Option.ite_none_right_eq_some.mp hs
    cases hs
    exact ⟨hinv, by simp, by simp⟩
  | other a =>
    obtain ⟨hother, hfree, hstep, hpc, -⟩ := next_other hs
    refine ⟨hinv, fun hne => ?_, fun hcommitted => ?_⟩
    · rw [hpc] at hne
      exact hm.stays h.inv hother hstep (h.atWait hne)
    · rw [hpc] at hcommitted
      have hwait := h.atWait (by simp [hcommitted])
      cases hready : m.ready s'.system with
      | false => rfl
      | true =>
        have hheld := hfree (hlocked h.inv hother hstep hwait (h.nothing hcommitted) hready)
        rw [hcommitted] at hheld
        cases hheld

theorem undisturbed_reaches (hm : m.Notified P) (hlocked : m.Locked P) (hinv : P s₀.system) (hawake : s₀.pc = .awake)
    (h : Runs.Reaches m.next Runs.anyStep s₀ s) : m.Undisturbed P s :=
  h.invariant ⟨hinv, by simp [hawake], by simp [hawake]⟩ fun _ _ _ hsafe _ hs => hsafe.next hm hlocked hs

/-- Who needs the mutex comes before the look or after the sleep, so its notification is heard. -/
theorem heard_of_locked (hm : m.Notified P) (hlocked : m.Locked P) (hinv : P s₀.system) (hawake : s₀.pc = .awake)
    (h : Runs.Reaches m.next Runs.anyStep s₀ s) : Runs.Reaches m.next m.Heard s₀ s := by
  have halong := h.alongside (P := m.Undisturbed P) ⟨hinv, by simp [hawake], by simp [hawake]⟩
    fun s a s' hsafe _ hs => hsafe.next hm hlocked hs
  refine halong.mono fun s a hsafe => ?_
  cases a with
  | notify => exact hsafe.1.nothing
  | _ => trivial

end Monitor

end Waiting
