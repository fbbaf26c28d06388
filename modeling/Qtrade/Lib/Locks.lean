import Mathlib.Data.Fintype.Basic
import Qtrade.Lib.Runs

/-!
# Threads that take mutexes

A `Code` says which mutexes a thread takes, which threads it joins and where it sleeps on a condition variable, and
leaves out what it computes. If a thread only takes mutexes that rank above all it holds, and joins and sleeps with
none held, whoever waits does so for one that goes on, or that sleeps.
-/

namespace Locks

variable {Lock Thread : Type}

inductive Code (Lock Thread : Type)
  | skip
  | hold (lock : Lock) (body : Code Lock Thread)
  | andThen (first second : Code Lock Thread)
  | either (one other : Code Lock Thread)
  | loop (body : Code Lock Thread)
  | join (thread : Thread)
  | sleep
deriving DecidableEq

namespace Code

/-- A function that does nothing but hold the mutex. -/
def critical (lock : Lock) : Code Lock Thread := .hold lock .skip

/-- A branch that may not be taken. -/
def may (code : Code Lock Thread) : Code Lock Thread := .either code .skip

/-- One after the other. -/
def all : List (Code Lock Thread) → Code Lock Thread
  | [] => .skip
  | code :: rest => .andThen code (all rest)

/-- One after the other, perhaps with a return before the end. -/
def upTo : List (Code Lock Thread) → Code Lock Thread
  | [] => .skip
  | code :: rest => .andThen code (may (upTo rest))

/-- A wait on a condition variable gives the mutex back, sleeps, and takes it again. -/
def await (lock : Lock) : Code Lock Thread := .andThen (.loop (.andThen (critical lock) .sleep)) (critical lock)

/-- A wait that ends by itself after a time. -/
def awaitFor (lock : Lock) : Code Lock Thread := .andThen (.loop (critical lock)) (critical lock)

end Code

inductive Item (Lock Thread : Type)
  | run (code : Code Lock Thread)
  | release (lock : Lock)
deriving DecidableEq

/-- The mutexes that a thread holds, the last one first. -/
def held : List (Item Lock Thread) → List Lock
  | [] => []
  | .run _ :: rest => held rest
  | .release lock :: rest => lock :: held rest

/-- What each thread still has to do. -/
abbrev State (Lock Thread : Type) := Thread → List (Item Lock Thread)

/-- No thread runs. -/
def idle : State Lock Thread := fun _ => []

/-- A thread of no work enters some code. At a choice it goes on or it turns. One that sleeps must be woken. -/
inductive Move (Lock Thread : Type)
  | enter (code : Code Lock Thread)
  | go
  | turn
  | wake

def Free (s : State Lock Thread) (lock : Lock) : Prop := ∀ j, lock ∉ held (s j)

section Step

variable [DecidableEq Lock] [Fintype Thread] [DecidableEq Thread]

instance (s : State Lock Thread) (lock : Lock) : Decidable (Free s lock) :=
  inferInstanceAs (Decidable (∀ j, lock ∉ held (s j)))

def next (s : State Lock Thread) (i : Thread) : Move Lock Thread → Option (List (Item Lock Thread))
  | .enter code => if (s i).isEmpty then some [.run code] else none
  | .go =>
    match s i with
    | [] => none
    | .release _ :: rest => some rest
    | .run .skip :: rest => some rest
    | .run (.hold lock body) :: rest => if Free s lock then some (.run body :: .release lock :: rest) else none
    | .run (.andThen first second) :: rest => some (.run first :: .run second :: rest)
    | .run (.either one _) :: rest => some (.run one :: rest)
    | .run (.loop body) :: rest => some (.run body :: .run (.loop body) :: rest)
    | .run (.join j) :: rest => if (s j).isEmpty then some rest else none
    | .run .sleep :: _ => none
  | .turn =>
    match s i with
    | .run (.either _ other) :: rest => some (.run other :: rest)
    | .run (.loop _) :: rest => some rest
    | _ => none
  | .wake =>
    match s i with
    | .run .sleep :: rest => some rest
    | _ => none

def step (s : State Lock Thread) (a : Thread × Move Lock Thread) : Option (State Lock Thread) :=
  (next s a.1 a.2).map (Function.update s a.1)

end Step

/-! ## The discipline -/

section Discipline

variable (rank : Lock → Nat) (level : Thread → Nat)

/-- The ranks that are free above what is held. -/
def above : List Lock → Nat
  | [] => 0
  | lock :: _ => rank lock + 1

/-- With all below `least` perhaps held, for a thread of level `own`. Only those of the lowest level sleep. -/
def Code.ordered (own : Nat) : Nat → Code Lock Thread → Bool
  | _, .skip => true
  | least, .hold lock body => decide (least ≤ rank lock) && body.ordered own (rank lock + 1)
  | least, .andThen first second => first.ordered own least && second.ordered own least
  | least, .either one other => one.ordered own least && other.ordered own least
  | least, .loop body => body.ordered own least
  | least, .join thread => least == 0 && decide (level thread < own)
  | least, .sleep => least == 0 && own == 0

def Orderly (own : Nat) : List (Item Lock Thread) → Prop
  | [] => True
  | .run code :: rest => code.ordered rank level own (above rank (held rest)) = true ∧ Orderly own rest
  | .release lock :: rest => above rank (held rest) ≤ rank lock ∧ Orderly own rest

structure Disciplined (s : State Lock Thread) : Prop where
  orderly : ∀ i, Orderly rank level (level i) (s i)
  exclusive : ∀ i j lock, lock ∈ held (s i) → lock ∈ held (s j) → i = j

/-- Only code that keeps to the order is entered. -/
def Enters (_ : State Lock Thread) : Thread × Move Lock Thread → Prop
  | (i, .enter code) => code.ordered rank level (level i) 0 = true
  | _ => True

end Discipline

/-- The mutex that `i` is about to take is held by `j`, or `i` joins `j`. -/
inductive WaitsFor (s : State Lock Thread) (i j : Thread) : Prop
  | lock {lock : Lock} {body : Code Lock Thread} {rest : List (Item Lock Thread)}
      (htop : s i = .run (.hold lock body) :: rest) (hheld : lock ∈ held (s j))
  | join {rest : List (Item Lock Thread)} (htop : s i = .run (.join j) :: rest) (hbusy : s j ≠ [])

/-- It was not woken yet. -/
def Asleep (s : State Lock Thread) (i : Thread) : Prop := ∃ rest, s i = .run .sleep :: rest

variable {rank : Lock → Nat} {level : Thread → Nat} {s s' : State Lock Thread}

theorem above_eq_zero {locks : List Lock} (h : above rank locks = 0) : locks = [] := by
  cases locks with
  | nil => rfl
  | cons lock locks => cases h

theorem Orderly.above_held {own : Nat} {items : List (Item Lock Thread)} (h : Orderly rank level own items)
    {lock : Lock} (hmem : lock ∈ held items) : rank lock < above rank (held items) := by
  induction items with
  | nil => cases hmem
  | cons item rest ih =>
    cases item with
    | run code => exact ih h.2 hmem
    | release last =>
      rcases List.mem_cons.mp hmem with rfl | hrest
      · exact Nat.lt_succ_self _
      · exact (ih h.2 hrest).trans_le (h.1.trans (Nat.le_succ _))

/-- No thread takes a mutex that it holds. -/
theorem Disciplined.not_again (h : Disciplined rank level s) {i : Thread} {lock : Lock} {body : Code Lock Thread}
    {rest : List (Item Lock Thread)} (htop : s i = .run (.hold lock body) :: rest) : lock ∉ held rest := by
  have horderly := h.orderly i
  rw [htop] at horderly
  obtain ⟨hordered, hrest⟩ := horderly
  simp only [Code.ordered, Bool.and_eq_true, decide_eq_true_eq] at hordered
  intro hmem
  exact absurd (hrest.above_held hmem) (not_lt.mpr hordered.1)

theorem Disciplined.join_unheld (h : Disciplined rank level s) {i j : Thread} {rest : List (Item Lock Thread)}
    (htop : s i = .run (.join j) :: rest) : held rest = [] ∧ level j < level i := by
  have horderly := h.orderly i
  rw [htop] at horderly
  have hordered := horderly.1
  simp only [Code.ordered, Bool.and_eq_true, beq_iff_eq, decide_eq_true_eq] at hordered
  exact ⟨above_eq_zero hordered.1, hordered.2⟩

theorem Disciplined.asleep_unheld (h : Disciplined rank level s) {i : Thread} (hasleep : Asleep s i) :
    held (s i) = [] ∧ level i = 0 := by
  obtain ⟨rest, htop⟩ := hasleep
  have horderly := h.orderly i
  rw [htop] at horderly
  have hordered := horderly.1
  simp only [Code.ordered, Bool.and_eq_true, beq_iff_eq] at hordered
  refine ⟨?_, hordered.2⟩
  rw [htop]
  exact above_eq_zero hordered.1

theorem disciplined_idle : Disciplined rank level (idle : State Lock Thread) where
  orderly := fun _ => trivial
  exclusive := fun _ _ _ hmem => absurd hmem List.not_mem_nil

section Runs

variable [DecidableEq Lock] [Fintype Thread] [DecidableEq Thread]

omit [DecidableEq Lock] [Fintype Thread] in
theorem Disciplined.update (h : Disciplined rank level s) {i : Thread} {items : List (Item Lock Thread)}
    (horderly : Orderly rank level (level i) items)
    (hheld : ∀ lock ∈ held items, lock ∈ held (s i) ∨ Free s lock) :
    Disciplined rank level (Function.update s i items) := by
  have hother : ∀ j lock, lock ∈ held items → lock ∈ held (s j) → i = j := by
    intro j lock hmem hj
    rcases hheld lock hmem with hi | hfree
    · exact h.exclusive i j lock hi hj
    · exact absurd hj (hfree j)
  constructor
  · intro j
    by_cases hj : j = i
    · subst hj
      rwa [Function.update_self]
    · rw [Function.update_of_ne hj]
      exact h.orderly j
  · intro j k lock hmem hmem'
    by_cases hj : j = i
    · by_cases hk : k = i
      · exact hj.trans hk.symm
      · subst hj
        rw [Function.update_self] at hmem
        rw [Function.update_of_ne hk] at hmem'
        exact hother k lock hmem hmem'
    · rw [Function.update_of_ne hj] at hmem
      by_cases hk : k = i
      · subst hk
        rw [Function.update_self] at hmem'
        exact (hother j lock hmem' hmem).symm
      · rw [Function.update_of_ne hk] at hmem'
        exact h.exclusive j k lock hmem hmem'

theorem step_disciplined (h : Disciplined rank level s) {a : Thread × Move Lock Thread} (hok : Enters rank level s a)
    (hs : step s a = some s') : Disciplined rank level s' := by
  obtain ⟨i, move⟩ := a
  obtain ⟨items, hnext, rfl⟩ := Option.map_eq_some_iff.mp hs
  have horderly := h.orderly i
  cases move with
  | enter code =>
    obtain ⟨-, hitems⟩ := Option.ite_none_right_eq_some.mp hnext
    cases hitems
    exact h.update ⟨hok, trivial⟩ fun _ hmem => absurd hmem List.not_mem_nil
  | go =>
    unfold next at hnext
    dsimp only at hnext
    split at hnext
    · cases hnext
    all_goals
      rename_i htop
      rw [htop] at horderly
    · cases hnext
      exact h.update horderly.2 fun lock hmem => Or.inl (by rw [htop]; exact List.mem_cons_of_mem _ hmem)
    · cases hnext
      exact h.update horderly.2 fun lock hmem => Or.inl (by rw [htop]; exact hmem)
    · obtain ⟨hfree, hitems⟩ := Option.ite_none_right_eq_some.mp hnext
      cases hitems
      obtain ⟨hordered, hrest⟩ := horderly
      simp only [Code.ordered, Bool.and_eq_true, decide_eq_true_eq] at hordered
      refine h.update ⟨hordered.2, hordered.1, hrest⟩ fun lock hmem => ?_
      rcases List.mem_cons.mp hmem with rfl | hmem
      · exact Or.inr hfree
      · exact Or.inl (by rw [htop]; exact hmem)
    · cases hnext
      obtain ⟨hfirst, hsecond⟩ := Bool.and_eq_true_iff.mp horderly.1
      exact h.update ⟨hfirst, hsecond, horderly.2⟩ fun lock hmem => Or.inl (by rw [htop]; exact hmem)
    · cases hnext
      obtain ⟨hone, -⟩ := Bool.and_eq_true_iff.mp horderly.1
      exact h.update ⟨hone, horderly.2⟩ fun lock hmem => Or.inl (by rw [htop]; exact hmem)
    · cases hnext
      exact h.update ⟨horderly.1, horderly⟩ fun lock hmem => Or.inl (by rw [htop]; exact hmem)
    · obtain ⟨-, hitems⟩ := Option.ite_none_right_eq_some.mp hnext
      cases hitems
      exact h.update horderly.2 fun lock hmem => Or.inl (by rw [htop]; exact hmem)
    · cases hnext
  | turn =>
    unfold next at hnext
    dsimp only at hnext
    split at hnext
    · rename_i htop
      rw [htop] at horderly
      cases hnext
      obtain ⟨-, hother⟩ := Bool.and_eq_true_iff.mp horderly.1
      exact h.update ⟨hother, horderly.2⟩ fun lock hmem => Or.inl (by rw [htop]; exact hmem)
    · rename_i htop
      rw [htop] at horderly
      cases hnext
      exact h.update horderly.2 fun lock hmem => Or.inl (by rw [htop]; exact hmem)
    · cases hnext
  | wake =>
    unfold next at hnext
    dsimp only at hnext
    split at hnext
    · rename_i htop
      rw [htop] at horderly
      cases hnext
      exact h.update horderly.2 fun lock hmem => Or.inl (by rw [htop]; exact hmem)
    · cases hnext

theorem disciplined_reaches (h : Runs.Reaches step (Enters rank level) idle s) : Disciplined rank level s :=
  h.invariant disciplined_idle fun _ _ _ hs hok hstep => step_disciplined hs hok hstep

omit [DecidableEq Thread] in
/-- A thread with work goes on, unless it sleeps or waits for another. -/
theorem goes_on_or_waits {i : Thread} (hbusy : s i ≠ []) :
    (next s i .go).isSome = true ∨ Asleep s i ∨ ∃ j, WaitsFor s i j := by
  unfold next
  dsimp only
  split
  · contradiction
  · exact Or.inl rfl
  · exact Or.inl rfl
  · rename_i lock body rest htop
    by_cases hfree : Free s lock
    · exact Or.inl (by rw [if_pos hfree]; rfl)
    · obtain ⟨j, hheld⟩ := not_forall.mp hfree
      exact Or.inr (Or.inr ⟨j, .lock htop (not_not.mp hheld)⟩)
  · exact Or.inl rfl
  · exact Or.inl rfl
  · exact Or.inl rfl
  · rename_i j rest htop
    by_cases hdone : s j = []
    · exact Or.inl (by rw [hdone]; rfl)
    · exact Or.inr (Or.inr ⟨j, .join htop hdone⟩)
  · rename_i rest htop
    exact Or.inr (Or.inl ⟨rest, htop⟩)

omit [DecidableEq Thread] in
theorem Disciplined.holder_goes_on (h : Disciplined rank level s) {top : Nat} (htop : ∀ lock, rank lock < top) :
    ∀ (n : Nat) (i : Thread) (lock : Lock), lock ∈ held (s i) → top - rank lock ≤ n →
      ∃ j, Relation.ReflTransGen (WaitsFor s) i j ∧ (next s j .go).isSome = true := by
  -- On the ranks that are left above the mutex. Whoever holds one does not sleep.
  intro n
  induction n with
  | zero =>
    intro i lock _ hle
    have hlt := htop lock
    omega
  | succ n ih =>
    intro i lock hmem hle
    have hbusy : s i ≠ [] := by
      intro hnil
      rw [hnil] at hmem
      cases hmem
    rcases goes_on_or_waits hbusy with hgoes | hasleep | ⟨j, hwaits⟩
    · exact ⟨i, .refl, hgoes⟩
    · exact absurd ((h.asleep_unheld hasleep).1 ▸ hmem) List.not_mem_nil
    · cases hwaits with
      | @lock wanted body rest hi hj =>
        have horderly := h.orderly i
        rw [hi] at horderly hmem
        have hordered := horderly.1
        simp only [Code.ordered, Bool.and_eq_true, decide_eq_true_eq] at hordered
        have hbelow : rank lock < rank wanted := (horderly.2.above_held hmem).trans_le hordered.1
        have hlt := htop wanted
        obtain ⟨k, hchain, hgoes⟩ := ih j wanted hj (by omega)
        exact ⟨k, .head (.lock hi hj) hchain, hgoes⟩
      | join hi =>
        have hnone := (h.join_unheld hi).1
        rw [hi] at hmem
        exact absurd (hnone ▸ hmem) List.not_mem_nil

omit [DecidableEq Thread] in
/-- Whoever waits for a mutex waits for one that goes on. -/
theorem Disciplined.taker_goes_on (h : Disciplined rank level s) {top : Nat} (htop : ∀ lock, rank lock < top)
    {i : Thread} {lock : Lock} {body : Code Lock Thread} {rest : List (Item Lock Thread)}
    (hi : s i = .run (.hold lock body) :: rest) :
    ∃ j, Relation.ReflTransGen (WaitsFor s) i j ∧ (next s j .go).isSome = true := by
  by_cases hfree : Free s lock
  · exact ⟨i, .refl, by simp [next, hi, hfree]⟩
  · obtain ⟨j, hheld⟩ := not_forall.mp hfree
    obtain ⟨k, hchain, hgoes⟩ := h.holder_goes_on htop _ j _ (not_not.mp hheld) le_rfl
    exact ⟨k, .head (.lock hi (not_not.mp hheld)) hchain, hgoes⟩

omit [DecidableEq Thread] in
theorem Disciplined.goes_on (h : Disciplined rank level s) {top : Nat} (htop : ∀ lock, rank lock < top) (n : Nat) :
    ∀ i : Thread, level i = n → s i ≠ [] →
      ∃ j, Relation.ReflTransGen (WaitsFor s) i j ∧ ((next s j .go).isSome = true ∨ Asleep s j) := by
  -- On the level: whoever joins waits for a lower one, and whoever holds a mutex joins nobody.
  induction n using Nat.strong_induction_on with
  | _ n ih =>
    intro i hlevel hbusy
    rcases goes_on_or_waits hbusy with hgoes | hasleep | ⟨j, hwaits⟩
    · exact ⟨i, .refl, Or.inl hgoes⟩
    · exact ⟨i, .refl, Or.inr hasleep⟩
    · cases hwaits with
      | lock hi hj =>
        obtain ⟨k, hchain, hgoes⟩ := h.taker_goes_on htop hi
        exact ⟨k, hchain, Or.inl hgoes⟩
      | join hi hj =>
        have hlt := (h.join_unheld hi).2
        obtain ⟨k, hchain, hgoes⟩ := ih (level j) (hlevel ▸ hlt) j rfl hj
        exact ⟨k, .head (.join hi hj) hchain, hgoes⟩

end Runs

end Locks
