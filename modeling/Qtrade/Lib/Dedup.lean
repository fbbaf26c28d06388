import Mathlib.Data.Finset.Basic
import Mathlib.Data.Finset.Dedup
import Mathlib.Data.Finset.Lattice.Lemmas

/-!
# Folds that take each thing once

A state remembers the keys of what it has taken, and leaves out what comes under a key that it remembers.
Where the keys tell things apart as a relation does, a fold takes the first thing of each kind.
-/

namespace Dedup

variable {σ α κ : Type*}

/-- The first of each kind, in the order in which they come. -/
def firsts (same : α → α → Bool) : List α → List α
  | [] => []
  | a :: rest => a :: (firsts same rest).filter (!same a ·)

theorem firsts_sublist (same : α → α → Bool) (l : List α) : (firsts same l).Sublist l := by
  induction l with
  | nil => exact List.Sublist.slnil
  | cons a rest ih => exact (List.filter_sublist.trans ih).cons_cons a

variable [DecidableEq κ] {key : α → κ} {seen : σ → Finset κ} {apply take : σ → α → σ} {same : α → α → Bool}

/-- What is new is taken and remembered, and what is known leaves everything as it is. -/
structure TakesOnce (key : α → κ) (seen : σ → Finset κ) (apply take : σ → α → σ) (a : α) : Prop where
  known : ∀ s, key a ∈ seen s → apply s a = s
  new : ∀ s, key a ∉ seen s → apply s a = take s a
  seen : ∀ s, key a ∉ seen s → seen (take s a) = insert (key a) (seen s)

theorem foldl_firsts_unseen {l : List α} (h : ∀ a ∈ l, TakesOnce key seen apply take a)
    (hsame : ∀ a ∈ l, ∀ b ∈ l, key a = key b ↔ same a b = true) (s : σ) :
    l.foldl apply s = ((firsts same l).filter (key · ∉ seen s)).foldl take s := by
  induction l generalizing s with
  | nil => rfl
  | cons a rest ih =>
    have hrest := ih (fun b hb => h b (List.mem_cons_of_mem a hb)) fun b hb c hc =>
      hsame b (List.mem_cons_of_mem a hb) c (List.mem_cons_of_mem a hc)
    have htakes := h a List.mem_cons_self
    have hkeys : ∀ b ∈ firsts same rest, key a = key b ↔ same a b = true := fun b hb =>
      hsame a List.mem_cons_self b (List.mem_cons_of_mem a ((firsts_sublist same rest).subset hb))
    rw [List.foldl_cons, firsts]
    by_cases hseen : key a ∈ seen s
    · rw [htakes.known s hseen, hrest, List.filter_cons_of_neg (by simpa using hseen), List.filter_filter]
      congr 1
      apply List.filter_congr
      intro b hb
      -- What is the same as `a` is known, too.
      cases hab : same a b with
      | false => simp
      | true => simp [← (hkeys b hb).mpr hab, hseen]
    · rw [htakes.new s hseen, hrest, List.filter_cons_of_pos (by simpa using hseen), List.foldl_cons,
        htakes.seen s hseen, List.filter_filter]
      congr 1
      apply List.filter_congr
      intro b hb
      have hab := hkeys b hb
      cases hsb : same a b with
      | false =>
        have hne : key b ≠ key a := fun heq => by simp [hsb] at hab; exact hab heq.symm
        simp [hne]
      | true => simp [hab.mpr hsb]

/-- From a state that has taken none of the keys, the first of each kind are taken. -/
theorem foldl_eq_firsts {l : List α} (h : ∀ a ∈ l, TakesOnce key seen apply take a)
    (hsame : ∀ a ∈ l, ∀ b ∈ l, key a = key b ↔ same a b = true) {s : σ} (hnone : seen s = ∅) :
    l.foldl apply s = (firsts same l).foldl take s := by
  rw [foldl_firsts_unseen h hsame, hnone]
  simp

theorem seen_foldl {l : List α} (h : ∀ a ∈ l, TakesOnce key seen apply take a) (s : σ) :
    seen (l.foldl apply s) = seen s ∪ (l.map key).toFinset := by
  induction l generalizing s with
  | nil => simp
  | cons a rest ih =>
    have htakes := h a List.mem_cons_self
    have hnext : seen (apply s a) = insert (key a) (seen s) := by
      by_cases hseen : key a ∈ seen s
      · rw [htakes.known s hseen, Finset.insert_eq_of_mem hseen]
      · rw [htakes.new s hseen, htakes.seen s hseen]
    rw [List.foldl_cons, ih (fun b hb => h b (List.mem_cons_of_mem a hb)), hnext, List.map_cons, List.toFinset_cons,
      Finset.insert_union, Finset.union_insert]

end Dedup
