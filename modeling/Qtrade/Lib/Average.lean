import Mathlib.Algebra.Order.BigOperators.Group.List
import Mathlib.Algebra.Order.Field.Basic
import Mathlib.Tactic.Ring

/-!
# Weighted averages

Values with weights, taken up one after the other. The average stays between the values that it is made of.
-/

namespace Average

/-! ## Between the values -/

section

variable {α : Type*} [Preorder α] {values : List α} {a : α}

/-- No less than the least of the values and no more than the greatest. -/
def Within (values : List α) (a : α) : Prop := (∃ low ∈ values, low ≤ a) ∧ ∃ high ∈ values, a ≤ high

theorem Within.of_mem (h : a ∈ values) : Within values a := ⟨⟨a, h, le_rfl⟩, ⟨a, h, le_rfl⟩⟩

end

variable {K : Type*} [Field K]

/-! ## The mean of two -/

/-- The average of `a` with the weight `w` and `b` with the weight `v`. -/
def mean (a w b v : K) : K := (a * w + b * v) / (w + v)

theorem mean_zero (a b : K) {v : K} (hv : v ≠ 0) : mean a 0 b v = b := by
  rw [mean, mul_zero, zero_add, zero_add, mul_div_cancel_right₀ b hv]

/-! ## Lots -/

def weight (lots : List (K × K)) : K := (lots.map Prod.snd).sum

def cost (lots : List (K × K)) : K := (lots.map fun lot => lot.1 * lot.2).sum

/-- The average of values with their weights. -/
def average (lots : List (K × K)) : K := cost lots / weight lots

theorem weight_concat (lots : List (K × K)) (b v : K) : weight (lots ++ [(b, v)]) = weight lots + v := by
  simp [weight]

theorem cost_concat (lots : List (K × K)) (b v : K) : cost (lots ++ [(b, v)]) = cost lots + b * v := by
  simp [cost]

/-! ## In order -/

variable [LinearOrder K] [IsStrictOrderedRing K] {a b v w : K} {values : List K} {lots : List (K × K)}

theorem min_le_mean (hw : 0 ≤ w) (hv : 0 < v) : min a b ≤ mean a w b v := by
  rw [mean, le_div_iff₀ (add_pos_of_nonneg_of_pos hw hv), mul_add]
  exact add_le_add (mul_le_mul_of_nonneg_right (min_le_left a b) hw)
    (mul_le_mul_of_nonneg_right (min_le_right a b) hv.le)

theorem mean_le_max (hw : 0 ≤ w) (hv : 0 < v) : mean a w b v ≤ max a b := by
  rw [mean, div_le_iff₀ (add_pos_of_nonneg_of_pos hw hv), mul_add]
  exact add_le_add (mul_le_mul_of_nonneg_right (le_max_left a b) hw)
    (mul_le_mul_of_nonneg_right (le_max_right a b) hv.le)

theorem Within.mean (h : Within values a) (hw : 0 ≤ w) (hv : 0 < v) :
    Within (values ++ [b]) (mean a w b v) := by
  obtain ⟨⟨low, hlow, hlowa⟩, ⟨high, hhigh, hahigh⟩⟩ := h
  constructor
  · rcases min_le_iff.mp (min_le_mean (a := a) (b := b) hw hv) with hmean | hmean
    · exact ⟨low, List.mem_append_left _ hlow, hlowa.trans hmean⟩
    · exact ⟨b, by simp, hmean⟩
  · rcases le_max_iff.mp (mean_le_max (a := a) (b := b) hw hv) with hmean | hmean
    · exact ⟨high, List.mem_append_left _ hhigh, hmean.trans hahigh⟩
    · exact ⟨b, by simp, hmean⟩

theorem weight_pos (h : ∀ lot ∈ lots, 0 < lot.2) (hne : lots ≠ []) : 0 < weight lots := by
  apply List.sum_pos
  · intro x hx
    obtain ⟨lot, hlot, rfl⟩ := List.mem_map.mp hx
    exact h lot hlot
  · simpa using hne

/-- The average is kept by taking the mean with each new lot. -/
theorem average_concat (h : ∀ lot ∈ lots, 0 < lot.2) (b v : K) :
    average (lots ++ [(b, v)]) = mean (average lots) (weight lots) b v := by
  rw [average, weight_concat, cost_concat, mean]
  congr 2
  rcases eq_or_ne lots [] with rfl | hne
  · simp [cost, weight]
  · exact (div_mul_cancel₀ _ (weight_pos h hne).ne').symm

end Average
