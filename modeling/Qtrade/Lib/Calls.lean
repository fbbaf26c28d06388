import Qtrade.Lib.Runs
import Mathlib.Algebra.BigOperators.Group.List.Basic
import Mathlib.Algebra.GroupWithZero.Nat
import Mathlib.Data.List.Perm.Basic

/-!
# Calls that run beside each other

Any number of calls work on one shared state, each at its own program counter, and the rest of
the system (the environment) changes that state as well. The rule is rely-guarantee: every
assertion about a program counter has to survive what the other parties do.
-/

namespace Calls

variable {σ κ π ι ε : Type}

structure Config (σ π : Type) where
  shared : σ
  calls : List π

/-- A call begins, a call does its next step, or the environment does one. -/
inductive Action (κ ι ε : Type)
  | start (call : κ)
  | resume (index : Nat) (input : ι)
  | environment (event : ε)
deriving DecidableEq

structure Program (σ κ π ι ε : Type) where
  entry : κ → π
  next : σ → Nat → π → ι → Option (σ × π)
  environment : σ → ε → Option σ

namespace Program

variable (P : Program σ κ π ι ε)

def step (c : Config σ π) : Action κ ι ε → Option (Config σ π)
  | .start call => some { c with calls := c.calls ++ [P.entry call] }
  | .resume index input =>
    match c.calls[index]? with
    | none => none
    | some p =>
      match P.next c.shared index p input with
      | none => none
      | some (shared, p') => some { shared, calls := c.calls.set index p' }
  | .environment event => (P.environment c.shared event).map fun shared => { c with shared }

variable {P}

theorem step_resume {c c' : Config σ π} {index : Nat} {input : ι}
    (h : P.step c (.resume index input) = some c') :
    ∃ p p', c.calls[index]? = some p ∧ P.next c.shared index p input = some (c'.shared, p') ∧
      c'.calls = c.calls.set index p' := by
  simp only [step] at h
  cases hp : c.calls[index]? with
  | none => simp [hp] at h
  | some p =>
    cases hn : P.next c.shared index p input with
    | none => simp [hp, hn] at h
    | some r =>
      simp only [hp, hn, Option.some.injEq] at h
      subst h
      exact ⟨p, r.2, rfl, hn, rfl⟩

theorem getElem?_start {calls : List π} {p q : π} {i : Nat} (hq : (calls ++ [p])[i]? = some q) :
    calls[i]? = some q ∨ i = calls.length ∧ q = p := by
  rw [List.getElem?_append] at hq
  split at hq
  case isTrue => exact Or.inl hq
  case isFalse hi =>
    obtain ⟨hlt, rfl⟩ := List.getElem?_eq_some_iff.mp hq
    simp only [List.length_singleton] at hlt
    exact Or.inr ⟨by omega, by simp⟩

theorem getElem?_resume {calls : List π} {index i : Nat} {p' q : π} (hq : (calls.set index p')[i]? = some q) :
    i = index ∧ q = p' ∨ i ≠ index ∧ calls[i]? = some q := by
  rw [List.getElem?_set] at hq
  split at hq
  case isTrue hi =>
    split at hq <;> cases hq
    exact Or.inl ⟨hi.symm, rfl⟩
  case isFalse hi => exact Or.inr ⟨Ne.symm hi, hq⟩

theorem mem_set_of_mem {calls : List π} {index : Nat} {p p' q : π} (hp : calls[index]? = some p)
    (hq : q ∈ calls) : q = p ∨ q ∈ calls.set index p' := by
  obtain ⟨i, hi⟩ := List.mem_iff_getElem?.mp hq
  by_cases hne : index = i
  · subst hne
    rw [hp] at hi
    exact Or.inl (Option.some.inj hi).symm
  · exact Or.inr (List.mem_iff_getElem?.mpr ⟨i, by rw [List.getElem?_set_ne hne]; exact hi⟩)

theorem set_perm {calls : List π} {index : Nat} {p : π} (hp : calls[index]? = some p) (p' : π) :
    (calls.set index p').Perm (p' :: calls.eraseIdx index) := by
  obtain ⟨hindex, _⟩ := List.getElem?_eq_some_iff.mp hp
  exact List.set_perm_cons_eraseIdx hindex p'

theorem perm_others {calls : List π} {index : Nat} {p : π} (hp : calls[index]? = some p) :
    calls.Perm (p :: calls.eraseIdx index) := by
  obtain ⟨hindex, rfl⟩ := List.getElem?_eq_some_iff.mp hp
  exact (List.getElem_cons_eraseIdx_perm hindex).symm

theorem step_environment {c c' : Config σ π} {event : ε}
    (h : P.step c (.environment event) = some c') :
    P.environment c.shared event = some c'.shared ∧ c'.calls = c.calls := by
  simp only [step, Option.map_eq_some_iff] at h
  obtain ⟨s, hs, rfl⟩ := h
  exact ⟨hs, rfl⟩

/-! ## The rule for assertions -/

/-- `inv` is about the shared state, `holds` about the call with a number at a program counter,
`rely` is what the others may change under the feet of the call with that number. -/
structure Outline (P : Program σ κ π ι ε) (ok : Config σ π → Action κ ι ε → Prop) where
  inv : σ → Prop
  holds : σ → Nat → π → Prop
  rely : Nat → σ → σ → Prop
  start : ∀ c call, inv c.shared → ok c (.start call) → holds c.shared c.calls.length (P.entry call)
  resume : ∀ c index p input s' p', inv c.shared → holds c.shared index p → c.calls[index]? = some p →
    ok c (.resume index input) → P.next c.shared index p input = some (s', p') →
    inv s' ∧ holds s' index p' ∧ ∀ other, other ≠ index → rely other c.shared s'
  environment : ∀ c event s', inv c.shared → ok c (.environment event) →
    P.environment c.shared event = some s' → inv s' ∧ ∀ index, rely index c.shared s'
  stable : ∀ s s' index p, rely index s s' → holds s index p → holds s' index p

namespace Outline

variable {ok : Config σ π → Action κ ι ε → Prop} (O : Outline P ok)

/-- The shared invariant, and the assertion of every call where it stands. -/
def Valid (c : Config σ π) : Prop :=
  O.inv c.shared ∧ ∀ index p, c.calls[index]? = some p → O.holds c.shared index p

theorem valid_step {c c' : Config σ π} {a : Action κ ι ε} (h : O.Valid c) (hok : ok c a)
    (hs : P.step c a = some c') : O.Valid c' := by
  obtain ⟨hinv, hcalls⟩ := h
  cases a with
  | start call =>
    cases hs
    refine ⟨hinv, fun i p hp => ?_⟩
    rcases getElem?_start hp with hold | ⟨rfl, rfl⟩
    · exact hcalls i p hold
    · exact O.start c call hinv hok
  | resume index input =>
    obtain ⟨p, p', hp, hnext, hc⟩ := step_resume hs
    obtain ⟨hinv', hp', hrely⟩ := O.resume c index p input _ p' hinv (hcalls index p hp) hp hok hnext
    refine ⟨hinv', fun i q hq => ?_⟩
    rw [hc] at hq
    rcases getElem?_resume hq with ⟨rfl, rfl⟩ | ⟨hother, hold⟩
    · exact hp'
    · exact O.stable _ _ i q (hrely i hother) (hcalls i q hold)
  | environment event =>
    obtain ⟨henv, hc⟩ := step_environment hs
    obtain ⟨hinv', hrely⟩ := O.environment c event _ hinv hok henv
    refine ⟨hinv', fun i q hq => ?_⟩
    rw [hc] at hq
    exact O.stable _ _ i q (hrely i) (hcalls i q hq)

theorem valid_of_reaches {c c' : Config σ π} (h : Runs.Reaches P.step ok c c') (hc : O.Valid c) :
    O.Valid c' :=
  h.invariant hc fun _ _ _ hv hok hs => O.valid_step hv hok hs

end Outline

/-! ## The rule for duties -/

/-- Something that the shared state owes, and the calls that will see to it. A step of a call that
carries a duty hands it on, or the duty is done. -/
structure Duties (P : Program σ κ π ι ε) (ok : Config σ π → Action κ ι ε → Prop) (α : Type) where
  owed : σ → α → Prop
  carries : π → α → Prop
  resume : ∀ c index p input s' p', c.calls[index]? = some p → ok c (.resume index input) →
    P.next c.shared index p input = some (s', p') →
    ∀ a, owed s' a → carries p' a ∨ owed c.shared a ∧ ¬carries p a
  environment : ∀ c event s', ok c (.environment event) → P.environment c.shared event = some s' →
    ∀ a, owed s' a → owed c.shared a

namespace Duties

variable {ok : Config σ π → Action κ ι ε → Prop} {α : Type} (D : Duties P ok α)

/-- Every duty has a call that carries it. -/
def Covered (c : Config σ π) : Prop := ∀ a, D.owed c.shared a → ∃ p ∈ c.calls, D.carries p a

theorem covered_step {c c' : Config σ π} {a : Action κ ι ε} (h : D.Covered c) (hok : ok c a)
    (hs : P.step c a = some c') : D.Covered c' := by
  cases a with
  | start call =>
    cases hs
    intro a ha
    obtain ⟨p, hp, hcarry⟩ := h a ha
    exact ⟨p, List.mem_append_left _ hp, hcarry⟩
  | resume index input =>
    obtain ⟨p, p', hp, hnext, hc⟩ := step_resume hs
    intro a ha
    rw [hc]
    rcases D.resume c index p input _ p' hp hok hnext a ha with hcarry | ⟨hold, hnot⟩
    · obtain ⟨hi, _⟩ := List.getElem?_eq_some_iff.mp hp
      exact ⟨p', List.mem_set hi p', hcarry⟩
    · obtain ⟨q, hq, hcarry⟩ := h a hold
      -- The call that carries the duty is not the one that moved.
      exact ⟨q, (mem_set_of_mem hp hq).resolve_left (by rintro rfl; exact hnot hcarry), hcarry⟩
  | environment event =>
    obtain ⟨henv, hc⟩ := step_environment hs
    intro a ha
    rw [hc]
    exact h a (D.environment c event _ hok henv a ha)

theorem covered_of_reaches {c c' : Config σ π} (h : Runs.Reaches P.step ok c c') (hc : D.Covered c) :
    D.Covered c' :=
  h.invariant hc fun _ _ _ hv hok hs => D.covered_step hv hok hs

end Duties

/-! ## The rule for weights -/

/-- What the shared state weighs, and what a call does. No step adds to the two. -/
structure Weight (P : Program σ κ π ι ε) (ok : Config σ π → Action κ ι ε → Prop) where
  shared : σ → Nat
  call : π → Nat
  start : ∀ c entered, ok c (.start entered) → call (P.entry entered) = 0
  resume : ∀ c index p input s' p', c.calls[index]? = some p → ok c (.resume index input) →
    P.next c.shared index p input = some (s', p') → shared s' + call p' ≤ shared c.shared + call p
  environment : ∀ c event s', ok c (.environment event) → P.environment c.shared event = some s' →
    shared s' ≤ shared c.shared

namespace Weight

variable {ok : Config σ π → Action κ ι ε → Prop} (W : Weight P ok)

def total (c : Config σ π) : Nat := W.shared c.shared + (c.calls.map W.call).sum

theorem total_step {c c' : Config σ π} {a : Action κ ι ε} (hok : ok c a) (hs : P.step c a = some c') :
    W.total c' ≤ W.total c := by
  cases a with
  | start entered =>
    cases hs
    simp [total, W.start c entered hok]
  | resume index input =>
    obtain ⟨p, p', hp, hnext, hc⟩ := step_resume hs
    have hmove := W.resume c index p input _ p' hp hok hnext
    have hbefore := ((perm_others hp).map W.call).sum_eq
    have hafter := ((set_perm hp p').map W.call).sum_eq
    unfold total
    rw [hc, hafter, hbefore]
    simp only [List.map_cons, List.sum_cons]
    omega
  | environment event =>
    obtain ⟨henv, hc⟩ := step_environment hs
    unfold total
    rw [hc]
    exact Nat.add_le_add_right (W.environment c event _ hok henv) _

theorem total_reaches {c c' : Config σ π} (h : Runs.Reaches P.step ok c c') : W.total c' ≤ W.total c :=
  h.invariant (P := fun c' => W.total c' ≤ W.total c) Nat.le.refl fun _ _ _ hle hok hs =>
    Nat.le_trans (W.total_step hok hs) hle

end Weight

end Program

end Calls
