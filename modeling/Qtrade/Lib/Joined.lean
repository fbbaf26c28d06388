import Mathlib.Logic.Function.Defs

/-!
# Texts joined by a separator

Where the last part never contains the separator, the joined text determines both parts. Decimal
numbers contain digits only.
-/

namespace Joined

theorem append_cons_inj {α : Type*} {sep : α} {xs xs' ys ys' : List α} (h : sep ∉ ys) (h' : sep ∉ ys') :
    xs ++ sep :: ys = xs' ++ sep :: ys' ↔ xs = xs' ∧ ys = ys' := by
  constructor
  · intro heq
    rcases List.append_eq_append_iff.mp heq with ⟨zs, hxs, hys⟩ | ⟨zs, hxs, hys⟩
    all_goals
      cases zs with
      | nil => simp_all
      | cons z zs =>
        simp only [List.cons_append, List.cons.injEq] at hys
        simp [hys.2] at h h'
  · rintro ⟨rfl, rfl⟩
    rfl

/-- The two parts around the last separator. -/
theorem string_inj {sep : Char} {a a' b b' : String} (hb : sep ∉ b.toList) (hb' : sep ∉ b'.toList) :
    a ++ String.singleton sep ++ b = a' ++ String.singleton sep ++ b' ↔ a = a' ∧ b = b' := by
  rw [← String.toList_inj, ← @String.toList_inj a a', ← @String.toList_inj b b']
  simp only [String.toList_append, String.toList_singleton, List.append_assoc, List.singleton_append]
  exact append_cons_inj hb hb'

theorem append_cons_inj_of_count {α : Type*} [DecidableEq α] {sep : α} {xs xs' ys ys' : List α}
    (hcount : xs.count sep = xs'.count sep) :
    xs ++ sep :: ys = xs' ++ sep :: ys' ↔ xs = xs' ∧ ys = ys' := by
  constructor
  · intro heq
    rcases List.append_eq_append_iff.mp heq with ⟨zs, hxs, hys⟩ | ⟨zs, hxs, hys⟩
    all_goals
      cases zs with
      | nil => simp_all
      | cons z zs =>
        obtain ⟨rfl, -⟩ := List.cons.inj hys
        rw [hxs, List.count_append, List.count_cons_self] at hcount
        omega
  · rintro ⟨rfl, rfl⟩
    rfl

theorem toString_injective : Function.Injective (toString : Nat → String) := by
  intro m n h
  have hdigits : Nat.toDigits 10 m = Nat.toDigits 10 n := by
    rw [← Nat.toList_repr, ← Nat.toList_repr, ← Nat.toString_eq_repr, ← Nat.toString_eq_repr, h]
  rw [← Nat.ofDigitChars_ten_toDigits (n := m), hdigits, Nat.ofDigitChars_ten_toDigits]

theorem mem_toString {c : Char} {n : Nat} (h : c ∈ (toString n).toList) : c.isDigit = true := by
  rw [Nat.toString_eq_repr, Nat.toList_repr] at h
  exact Nat.isDigit_of_mem_toDigits (by omega) (by omega) h

theorem toString_int_injective : Function.Injective (toString : Int → String) := by
  have hsign : ∀ m n : Nat, toString m ≠ "-" ++ toString n := by
    intro m n h
    have hmem : '-' ∈ (toString m).toList := by
      rw [h, String.toList_append]
      exact List.mem_append_left _ (by decide)
    exact absurd (mem_toString hmem) (by decide)
  intro a b h
  cases a with
  | ofNat m =>
    cases b with
    | ofNat n => exact congrArg Int.ofNat (toString_injective h)
    | negSucc n => exact absurd h (hsign m (n + 1))
  | negSucc m =>
    cases b with
    | ofNat n => exact absurd h.symm (hsign n (m + 1))
    | negSucc n =>
      have hparts : "-" ++ toString (m + 1) = "-" ++ toString (n + 1) := h
      rw [← String.toList_inj, String.toList_append, String.toList_append, List.append_cancel_left_eq,
        String.toList_inj] at hparts
      rw [Nat.succ.inj (toString_injective hparts)]

end Joined
