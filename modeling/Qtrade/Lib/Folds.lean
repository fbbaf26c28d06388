import Mathlib.Logic.Basic
import Mathlib.Data.Option.Basic

/-!
# What a fold opens and closes

A list of entries is folded into a state. Each entry may open something under a key and close what
is open, and what it does depends on the state that it finds.
-/

namespace Folds

variable {σ α κ : Type*} (f : σ → α → σ)

/-- Some entry meets `p` in the state that it finds. -/
def meets (p : σ → α → Bool) : σ → List α → Bool
  | _, [] => false
  | s, a :: rest => p s a || meets p (f s a) rest

/-- What an entry opens is closed by a later one. -/
def answered (opens : σ → α → Option κ) (closes : κ → σ → α → Bool) : σ → List α → Bool
  | _, [] => true
  | s, a :: rest =>
    (opens s a).all (fun k => meets f (closes k) (f s a) rest) && answered opens closes (f s a) rest

variable {f} {s : σ}

theorem invariant_foldl (inv : σ → Prop) (hinv : ∀ s a, inv s → inv (f s a)) (hs : inv s) (l : List α) :
    inv (l.foldl f s) := by
  induction l generalizing s with
  | nil => exact hs
  | cons a rest ih => exact ih (hinv s a hs)

theorem invariant_of_not_meets (inv : σ → Prop) {p : σ → α → Bool}
    (hinv : ∀ s a, inv s → p s a = false → inv (f s a)) (hs : inv s) (l : List α) (h : meets f p s l = false) :
    inv (l.foldl f s) := by
  induction l generalizing s with
  | nil => exact hs
  | cons a rest ih =>
    rw [meets, Bool.or_eq_false_iff] at h
    exact ih (hinv s a hs h.1) h.2

theorem meets_of_appears (inv flag : σ → Prop) {p : σ → α → Bool} (hinv : ∀ s a, inv s → inv (f s a))
    (hstep : ∀ s a, inv s → flag (f s a) → flag s ∨ p s a = true) (hs : inv s) (l : List α)
    (h : flag (l.foldl f s)) : flag s ∨ meets f p s l = true := by
  induction l generalizing s with
  | nil => exact Or.inl h
  | cons a rest ih =>
    rw [meets, Bool.or_eq_true]
    rcases ih (hinv s a hs) h with hflag | hrest
    · exact (hstep s a hs hflag).imp id Or.inl
    · exact Or.inr (Or.inr hrest)

/-- Nothing is open at the end if and only if what was open at the start and what each entry opens is
closed later. -/
theorem closed_iff (inv : σ → Prop) (flag : κ → σ → Prop) {opens : σ → α → Option κ}
    {closes : κ → σ → α → Bool} (hinv : ∀ s a, inv s → inv (f s a))
    (hstep : ∀ s a k, inv s → (flag k (f s a) ↔ opens s a = some k ∨ flag k s ∧ closes k s a = false))
    (hs : inv s) (l : List α) :
    (∀ k, ¬flag k (l.foldl f s)) ↔
      (∀ k, flag k s → meets f (closes k) s l = true) ∧ answered f opens closes s l = true := by
  induction l generalizing s with
  | nil => simp [meets, answered]
  | cons a rest ih =>
    rw [List.foldl_cons, ih (hinv s a hs), answered, Bool.and_eq_true, ← and_assoc]
    refine and_congr_left fun _ => ?_
    simp only [hstep s a _ hs, meets, Bool.or_eq_true, Option.all_eq_true_iff_get]
    constructor
    · intro h
      refine ⟨fun k hflag => ?_, fun hopens => h _ (Or.inl (by simp))⟩
      by_cases hcloses : closes k s a = true
      · exact Or.inl hcloses
      · exact Or.inr (h k (Or.inr ⟨hflag, by simpa using hcloses⟩))
    · rintro ⟨hold, hnew⟩ k (hopens | ⟨hflag, hcloses⟩)
      · have hk := hnew (by rw [hopens]; rfl)
        simpa [hopens] using hk
      · rcases hold k hflag with hyes | hlater
        · rw [hcloses] at hyes
          cases hyes
        · exact hlater

end Folds
