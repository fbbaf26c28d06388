import Qtrade.Lib.Calls
import Mathlib.Algebra.Order.Monoid.Defs

/-!
# A budget that is checked first and taken later

Calls check a shared budget and take from it some steps later. Where only one of them at a time is between its
check and its end, the others can only give back meanwhile, so the check still holds when it takes.
-/

namespace Calls.Program

variable {σ κ π ι ε α : Type} [AddCommMonoid α] [LinearOrder α]

/-- `used` is what has been taken, `granted` what a call has been promised and has not taken yet, and `busy`
says which calls may be promised anything. -/
structure Budget (P : Program σ κ π ι ε) (ok : Config σ π → Action κ ι ε → Prop) (α : Type) [AddCommMonoid α]
    [LinearOrder α] where
  cap : α
  used : σ → α
  granted : π → Option α
  busy : π → Bool
  busy_of_granted : ∀ p n, granted p = some n → busy p = true
  start : ∀ c call, ok c (.start call) → granted (P.entry call) = none ∧
    (busy (P.entry call) = true → ∀ p ∈ c.calls, busy p = false)
  resume : ∀ c index p input s' p', c.calls[index]? = some p → ok c (.resume index input) →
    P.next c.shared index p input = some (s', p') → (busy p' = true → busy p = true) ∧
      (used s' ≤ used c.shared ∧ (∀ n, granted p' = some n → granted p = some n ∨ used s' + n ≤ cap) ∨
        granted p' = none ∧ ∃ n, granted p = some n ∧ used s' ≤ used c.shared + n)
  environment : ∀ c event s', ok c (.environment event) → P.environment c.shared event = some s' →
    used s' ≤ used c.shared

namespace Budget

variable {P : Program σ κ π ι ε} {ok : Config σ π → Action κ ι ε → Prop} (B : Budget P ok α)
variable {c c' : Config σ π} {a : Action κ ι ε} {limit : α}

/-- One call at a time, room for what it was promised, and no more taken than the limit. -/
structure Kept (limit : α) (c : Config σ π) : Prop where
  alone : ∀ (i j : Nat) p q, c.calls[i]? = some p → c.calls[j]? = some q → B.busy p = true → B.busy q = true → i = j
  room : ∀ (i : Nat) p n, c.calls[i]? = some p → B.granted p = some n → B.used c.shared + n ≤ B.cap
  used : B.used c.shared ≤ limit

variable {B}

theorem Kept.start {call : κ} (h : B.Kept limit c) (hok : ok c (.start call)) :
    B.Kept limit { c with calls := c.calls ++ [P.entry call] } := by
  obtain ⟨hnothing, hothers⟩ := B.start c call hok
  have hidle : ∀ (i : Nat) p, c.calls[i]? = some p → B.busy (P.entry call) = true → B.busy p = true → False := by
    intro i p hp hentry hbusy
    rw [hothers hentry p (List.mem_of_getElem? hp)] at hbusy
    cases hbusy
  refine ⟨?_, ?_, h.used⟩
  · intro i j p q hp hq hbusy hbusy'
    rcases getElem?_start hp with hp | ⟨rfl, rfl⟩ <;> rcases getElem?_start hq with hq | ⟨rfl, rfl⟩
    · exact h.alone i j p q hp hq hbusy hbusy'
    · exact (hidle i p hp hbusy' hbusy).elim
    · exact (hidle j q hq hbusy hbusy').elim
    · rfl
  · intro i p n hp hn
    rcases getElem?_start hp with hp | ⟨rfl, rfl⟩
    · exact h.room i p n hp hn
    · rw [hnothing] at hn
      cases hn

variable [IsOrderedAddMonoid α]

theorem Kept.resume {index : Nat} {p p' : π} {input : ι} {s' : σ} (h : B.Kept limit c) (hcap : B.cap ≤ limit)
    (hp : c.calls[index]? = some p) (hok : ok c (.resume index input))
    (hnext : P.next c.shared index p input = some (s', p')) :
    B.Kept limit { shared := s', calls := c.calls.set index p' } := by
  obtain ⟨hbusy, hmove⟩ := B.resume c index p input s' p' hp hok hnext
  refine ⟨?_, ?_, ?_⟩
  · intro i j q r hq hr hbusyq hbusyr
    rcases getElem?_resume hq with ⟨rfl, rfl⟩ | ⟨_, hqold⟩ <;>
      rcases getElem?_resume hr with ⟨rfl, rfl⟩ | ⟨_, hrold⟩
    · rfl
    · exact h.alone _ j p r hp hrold (hbusy hbusyq) hbusyr
    · exact h.alone i _ q p hqold hp hbusyq (hbusy hbusyr)
    · exact h.alone i j q r hqold hrold hbusyq hbusyr
  · intro i q n hq hn
    rcases hmove with ⟨hused, hgranted⟩ | ⟨hnone, taken, htaken, hused⟩
    · rcases getElem?_resume hq with ⟨rfl, rfl⟩ | ⟨_, hq⟩
      · rcases hgranted n hn with hold | hnew
        · exact (add_le_add_left hused n).trans (h.room _ p n hp hold)
        · exact hnew
      · exact (add_le_add_left hused n).trans (h.room i q n hq hn)
    · rcases getElem?_resume hq with ⟨rfl, rfl⟩ | ⟨hne, hq⟩
      · rw [hnone] at hn
        cases hn
      · -- Two calls with a promise would both be busy.
        exact absurd (h.alone i index q p hq hp (B.busy_of_granted q n hn) (B.busy_of_granted p taken htaken)) hne
  · rcases hmove with ⟨hused, _⟩ | ⟨_, taken, htaken, hused⟩
    · exact hused.trans h.used
    · exact (hused.trans (h.room index p taken hp htaken)).trans hcap

theorem Kept.step (h : B.Kept limit c) (hcap : B.cap ≤ limit) (hok : ok c a) (hs : P.step c a = some c') :
    B.Kept limit c' := by
  cases a with
  | start call =>
    cases hs
    exact h.start hok
  | resume index input =>
    obtain ⟨p, p', hp, hnext, hcalls⟩ := step_resume hs
    have hkept := h.resume hcap hp hok hnext
    rwa [← hcalls] at hkept
  | environment event =>
    obtain ⟨hnext, hcalls⟩ := step_environment hs
    have hused := B.environment c event _ hok hnext
    refine ⟨?_, ?_, hused.trans h.used⟩
    · rw [hcalls]
      exact h.alone
    · rw [hcalls]
      intro i p n hp hn
      exact (add_le_add_left hused n).trans (h.room i p n hp hn)

/-- What is taken stays within the budget, or within what was taken already when no call was busy. -/
theorem used_le (B : Budget P ok α) (h : Runs.Reaches P.step ok c c') (hidle : ∀ p ∈ c.calls, B.busy p = false) :
    B.used c'.shared ≤ max B.cap (B.used c.shared) := by
  have hnobody : ∀ (i : Nat) p, c.calls[i]? = some p → B.busy p = true → False := by
    intro i p hp hbusy
    rw [hidle p (List.mem_of_getElem? hp)] at hbusy
    cases hbusy
  have hstart : B.Kept (max B.cap (B.used c.shared)) c := by
    refine ⟨?_, ?_, le_max_right _ _⟩
    · intro i j p q hp _ hbusy
      exact (hnobody i p hp hbusy).elim
    · intro i p n hp hn
      exact (hnobody i p hp (B.busy_of_granted p n hn)).elim
  have hend : B.Kept (max B.cap (B.used c.shared)) c' :=
    h.invariant hstart fun _ _ _ hkept hok hs => hkept.step (le_max_left _ _) hok hs
  exact hend.used

end Budget

end Calls.Program
