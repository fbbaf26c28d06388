import Mathlib.Logic.Relation

/-!
# Runs of a step function

A system is a partial step function `step : σ → α → Option σ`. A guard says which steps a
run may take. `Reaches` is the relation that theorems are about, `exec` computes one run.
-/

namespace Runs

variable {σ α : Type*} {step : σ → α → Option σ} {ok ok' : σ → α → Prop} {s s' s'' : σ}

/-- One step that meets the guard. -/
def Step (step : σ → α → Option σ) (ok : σ → α → Prop) (s s' : σ) : Prop :=
  ∃ a, ok s a ∧ step s a = some s'

/-- Any number of steps that all meet the guard. -/
def Reaches (step : σ → α → Option σ) (ok : σ → α → Prop) : σ → σ → Prop :=
  Relation.ReflTransGen (Step step ok)

/-- The guard that allows every step. -/
def anyStep : σ → α → Prop := fun _ _ => True

theorem Reaches.refl (s : σ) : Reaches step ok s s := Relation.ReflTransGen.refl

theorem Reaches.tail (h : Reaches step ok s s') {a : α} (hok : ok s' a) (ha : step s' a = some s'') :
    Reaches step ok s s'' :=
  Relation.ReflTransGen.tail h ⟨a, hok, ha⟩

/-- What holds at the start and is kept by every step holds at the end. -/
theorem Reaches.invariant {P : σ → Prop} (h : Reaches step ok s s') (hs : P s)
    (hstep : ∀ s a s', P s → ok s a → step s a = some s' → P s') : P s' := by
  induction h with
  | refl => exact hs
  | tail _ hlast ih =>
    obtain ⟨a, hok, ha⟩ := hlast
    exact hstep _ a _ ih hok ha

/-- What every step keeps may be used as a guard. -/
theorem Reaches.alongside {P : σ → Prop} (h : Reaches step ok s s') (hs : P s)
    (hstep : ∀ s a s', P s → ok s a → step s a = some s' → P s') :
    Reaches step (fun s a => P s ∧ ok s a) s s' := by
  suffices h' : Reaches step (fun s a => P s ∧ ok s a) s s' ∧ P s' from h'.1
  induction h with
  | refl => exact ⟨.refl _, hs⟩
  | tail _ hlast ih =>
    obtain ⟨a, hok, ha⟩ := hlast
    exact ⟨ih.1.tail ⟨ih.2, hok⟩ ha, hstep _ a _ ih.2 hok ha⟩

theorem Reaches.mono (h : Reaches step ok s s') (hok : ∀ s a, ok s a → ok' s a) : Reaches step ok' s s' := by
  induction h with
  | refl => exact .refl _
  | tail _ hlast ih =>
    obtain ⟨a, ha, hs⟩ := hlast
    exact ih.tail (hok _ a ha) hs

/-! ## Running a list of actions -/

/-- Takes the actions in turn. `none` where one of them is not enabled. -/
def exec (step : σ → α → Option σ) : σ → List α → Option σ
  | s, [] => some s
  | s, a :: as =>
    match step s a with
    | some s' => exec step s' as
    | none => none

/-- `exec` that also stops at the first action outside the guard. -/
def execWhile (step : σ → α → Option σ) (ok : σ → α → Prop) [∀ s a, Decidable (ok s a)] :
    σ → List α → Option σ
  | s, [] => some s
  | s, a :: as =>
    if ok s a then
      match step s a with
      | some s' => execWhile step ok s' as
      | none => none
    else none

theorem reaches_of_execWhile [∀ s a, Decidable (ok s a)] (as : List α)
    (h : execWhile step ok s as = some s') : Reaches step ok s s' := by
  induction as generalizing s with
  | nil => cases h; exact .refl _
  | cons a as ih =>
    by_cases hok : ok s a
    · cases hs : step s a with
      | none => simp [execWhile, hok, hs] at h
      | some s₁ =>
        simp only [execWhile, hok, hs, if_true] at h
        exact Relation.ReflTransGen.head ⟨a, hok, hs⟩ (ih h)
    · simp [execWhile, hok] at h

theorem reaches_of_exec (as : List α) (h : exec step s as = some s') : Reaches step anyStep s s' := by
  induction as generalizing s with
  | nil => cases h; exact .refl _
  | cons a as ih =>
    simp only [exec] at h
    cases hs : step s a with
    | none => simp [hs] at h
    | some s₁ =>
      rw [hs] at h
      exact Relation.ReflTransGen.head ⟨a, trivial, hs⟩ (ih h)

/-- What holds of a state and of what has been collected from the actions so far. -/
theorem exec_collect {β : Type*} {collect : α → Option β} {P : List β → σ → Prop}
    (hstep : ∀ s a s' before, P before s → step s a = some s' → P (before ++ (collect a).toList) s') {as : List α}
    (h : exec step s as = some s') {before : List β} (hs : P before s) : P (before ++ as.filterMap collect) s' := by
  induction as generalizing s before with
  | nil =>
    cases h
    simpa using hs
  | cons a as ih =>
    simp only [exec] at h
    cases ha : step s a with
    | none => simp [ha] at h
    | some s₁ =>
      rw [ha] at h
      have hrest := ih h (hstep s a s₁ before hs ha)
      cases hcollect : collect a <;> simpa [hcollect] using hrest

/-- A run is no longer than what its steps use up. -/
theorem exec_length_le {m : σ → Nat} {as : List α}
    (hstep : ∀ s, ∀ a ∈ as, ∀ s', step s a = some s' → m s' < m s) (h : exec step s as = some s') :
    as.length ≤ m s := by
  induction as generalizing s with
  | nil => exact Nat.zero_le _
  | cons a as ih =>
    simp only [exec] at h
    cases ha : step s a with
    | none => simp [ha] at h
    | some s₁ =>
      rw [ha] at h
      have hlower := hstep s a List.mem_cons_self s₁ ha
      have hrest := ih (fun s b hb => hstep s b (List.mem_cons_of_mem a hb)) h
      exact Nat.succ_le_of_lt (Nat.lt_of_le_of_lt hrest hlower)

theorem exec_invariant {P : σ → Prop} {as : List α} (hstep : ∀ s, ∀ a ∈ as, ∀ s', P s → step s a = some s' → P s')
    (h : exec step s as = some s') (hs : P s) : P s' := by
  induction as generalizing s with
  | nil =>
    cases h
    exact hs
  | cons a as ih =>
    simp only [exec] at h
    cases ha : step s a with
    | none => simp [ha] at h
    | some s₁ =>
      rw [ha] at h
      exact ih (fun s b hb => hstep s b (List.mem_cons_of_mem a hb)) h (hstep s a List.mem_cons_self s₁ hs ha)

end Runs
