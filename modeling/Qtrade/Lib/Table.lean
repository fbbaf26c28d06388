import Mathlib.Algebra.BigOperators.Group.Finset.Basic
import Mathlib.Algebra.Order.BigOperators.Group.Finset
import Mathlib.Data.Finmap

/-!
# Tables

Finite maps with one value type, what storing under a key changes, and sums over the values.
-/

/-- A finite map from keys to values of one type, without an order on the entries. -/
abbrev Table (κ ν : Type) := Finmap (fun _ : κ => ν)

namespace Table

variable {κ ν : Type} [DecidableEq κ]

/-- Looking up after a store: the new value under its key, the old ones elsewhere. -/
theorem lookup_store (t : Table κ ν) (k k' : κ) (v : ν) :
    (t.insert k v).lookup k' = if k' = k then some v else t.lookup k' := by
  split
  case isTrue h => rw [h, Finmap.lookup_insert]
  case isFalse h => exact Finmap.lookup_insert_of_ne _ h

theorem store_same {t : Table κ ν} {k : κ} {v : ν} (h : t.lookup k = some v) : t.insert k v = t := by
  apply Finmap.ext_lookup
  intro k'
  rw [lookup_store]
  split
  case isTrue hk => rw [hk, h]
  case isFalse => rfl

theorem lookup_storeAll (t : Table κ ν) (keys : List κ) (v : ν) (k : κ) :
    (keys.foldl (fun t key => t.insert key v) t).lookup k = if k ∈ keys then some v else t.lookup k := by
  induction keys generalizing t with
  | nil => rfl
  | cons key rest ih =>
    rw [List.foldl_cons, ih, lookup_store]
    by_cases hrest : k ∈ rest
    · simp [hrest]
    · simp [hrest]

theorem mem_iff_lookup (t : Table κ ν) (k : κ) : k ∈ t ↔ ∃ v, t.lookup k = some v := Finmap.mem_iff

theorem exists_entries (t : Table κ ν) :
    ∃ entries : List (κ × ν), (entries.map Prod.fst).Nodup ∧ ∀ k, entries.lookup k = t.lookup k := by
  induction t using Finmap.induction_on with
  | _ entries =>
    refine ⟨entries.entries.map fun entry => (entry.1, entry.2), ?_, fun k => ?_⟩
    · rw [List.map_map]
      exact entries.nodupKeys
    · rw [Finmap.lookup_toFinmap]
      unfold AList.lookup
      induction entries.entries with
      | nil => rfl
      | cons entry rest ih =>
        obtain ⟨key, value⟩ := entry
        rw [List.map_cons, List.lookup_cons, ih]
        by_cases hkey : k = key
        · subst hkey
          rw [beq_self_eq_true, List.dlookup_cons_eq]
        · rw [beq_false_of_ne hkey, List.dlookup_cons_ne _ _ hkey]

/-! ## The values -/

section Values

variable {M : Type} (f : ν → M)

/-- What `f` makes of the values, which have no order. -/
def valuesBy (t : Table κ ν) : Multiset M := t.entries.map fun entry => f entry.2

theorem mem_valuesBy {t : Table κ ν} {m : M} : m ∈ valuesBy f t ↔ ∃ k v, t.lookup k = some v ∧ f v = m := by
  unfold valuesBy
  rw [Multiset.mem_map]
  constructor
  · rintro ⟨⟨k, v⟩, hmem, rfl⟩
    exact ⟨k, v, Finmap.lookup_eq_some_iff.mpr hmem, rfl⟩
  · rintro ⟨k, v, hlookup, rfl⟩
    exact ⟨⟨k, v⟩, Finmap.lookup_eq_some_iff.mp hlookup, rfl⟩

theorem valuesBy_insert {t : Table κ ν} {k : κ} (hnew : t.lookup k = none) (v : ν) :
    valuesBy f (t.insert k v) = f v ::ₘ valuesBy f t := by
  unfold valuesBy
  rw [Finmap.entries_insert_of_notMem (Finmap.lookup_eq_none.mp hnew), Multiset.map_cons]

theorem nodup_valuesBy {t : Table κ ν}
    (hdistinct : ∀ k v k' v', t.lookup k = some v → t.lookup k' = some v' → f v = f v' → k = k') :
    (valuesBy f t).Nodup := by
  apply Multiset.Nodup.map_on _ t.nodup_entries
  rintro ⟨k, v⟩ hmem ⟨k', v'⟩ hmem' heq
  have hv := Finmap.lookup_eq_some_iff.mpr hmem
  have hv' := Finmap.lookup_eq_some_iff.mpr hmem'
  obtain rfl := hdistinct k v k' v' hv hv' heq
  rw [Option.some.inj (hv.symm.trans hv')]

end Values

/-! ## Sums over the entries -/

section SumBy

variable {M : Type} [AddCommMonoid M] (f : κ → ν → M)

/-- The sum of `f` over all keys and their values. -/
def sumBy (t : Table κ ν) : M := (t.entries.map fun entry => f entry.1 entry.2).sum

theorem sumBy_insert (t : Table κ ν) (k : κ) (v : ν) :
    sumBy f (t.insert k v) = f k v + sumBy f (t.erase k) := by
  have hsame : t.insert k v = (t.erase k).insert k v := by
    apply Finmap.ext_lookup
    intro k'
    rw [lookup_store, lookup_store]
    split
    case isTrue => rfl
    case isFalse hk => rw [Finmap.lookup_erase_ne hk]
  have hnew : k ∉ t.erase k := by rw [← Finmap.lookup_eq_none, Finmap.lookup_erase]
  rw [hsame, sumBy, Finmap.entries_insert_of_notMem hnew, Multiset.map_cons, Multiset.sum_cons, sumBy]

theorem sumBy_eq (t : Table κ ν) (k : κ) :
    sumBy f t = ((t.lookup k).map (f k)).getD 0 + sumBy f (t.erase k) := by
  cases h : t.lookup k with
  | none =>
    have hsame : t.erase k = t := by
      apply Finmap.ext_lookup
      intro k'
      by_cases hk : k' = k
      · rw [hk, Finmap.lookup_erase, h]
      · rw [Finmap.lookup_erase_ne hk]
    rw [hsame, Option.map_none, Option.getD_none, zero_add]
  | some v =>
    have hinsert := sumBy_insert f t k v
    rw [store_same h] at hinsert
    exact hinsert

theorem sumBy_eq_sum (t : Table κ ν) (keys : Finset κ) (hkeys : ∀ k ∈ t, k ∈ keys) :
    sumBy f t = ∑ k ∈ keys, ((t.lookup k).map (f k)).getD 0 := by
  induction keys using Finset.induction_on generalizing t with
  | empty =>
    have hempty : t = ∅ := by
      apply Finmap.ext_lookup
      intro k
      rw [Finmap.lookup_empty, Finmap.lookup_eq_none]
      intro hk
      exact Finset.notMem_empty k (hkeys k hk)
    rw [hempty, Finset.sum_empty]
    rfl
  | insert a keys ha ih =>
    rw [sumBy_eq f t a, Finset.sum_insert ha, ih (t.erase a)]
    · congr 1
      apply Finset.sum_congr rfl
      intro k hk
      rw [Finmap.lookup_erase_ne]
      rintro rfl
      exact ha hk
    · intro k hk
      obtain ⟨hne, hmem⟩ := Finmap.mem_erase.mp hk
      exact (Finset.mem_insert.mp (hkeys k hmem)).resolve_left hne

end SumBy

/-! ## Sums over the values -/

section Sum

variable {M : Type} [AddCommMonoid M] (f : ν → M)

/-- The sum of `f` over all values. -/
def sumOf (t : Table κ ν) : M := (t.entries.map fun entry => f entry.2).sum

theorem sumOf_insert (t : Table κ ν) (k : κ) (v : ν) : sumOf f (t.insert k v) = f v + sumOf f (t.erase k) :=
  sumBy_insert (fun _ => f) t k v

theorem sumOf_eq (t : Table κ ν) (k : κ) : sumOf f t = ((t.lookup k).map f).getD 0 + sumOf f (t.erase k) :=
  sumBy_eq (fun _ => f) t k

theorem sumOf_eq_sum (t : Table κ ν) (keys : Finset κ) (hkeys : ∀ k ∈ t, k ∈ keys) :
    sumOf f t = ∑ k ∈ keys, ((t.lookup k).map f).getD 0 :=
  sumBy_eq_sum (fun _ => f) t keys hkeys

theorem sumOf_le [PartialOrder M] [IsOrderedAddMonoid M] {t t' : Table κ ν}
    (hkeys : ∀ k, t'.lookup k = none ↔ t.lookup k = none)
    (hvalues : ∀ k v v', t.lookup k = some v → t'.lookup k = some v' → f v' ≤ f v) : sumOf f t' ≤ sumOf f t := by
  have hmem : ∀ k ∈ t', k ∈ t.keys := by
    intro k hk
    rw [Finmap.mem_keys]
    by_contra hnot
    exact Finmap.lookup_eq_none.mp ((hkeys k).mpr (Finmap.lookup_eq_none.mpr hnot)) hk
  rw [sumOf_eq_sum f t' t.keys hmem, sumOf_eq_sum f t t.keys fun k hk => Finmap.mem_keys.mpr hk]
  apply Finset.sum_le_sum
  intro k hk
  obtain ⟨v, hv⟩ := (mem_iff_lookup t k).mp (Finmap.mem_keys.mp hk)
  cases hv' : t'.lookup k with
  | none =>
    rw [(hkeys k).mp hv'] at hv
    cases hv
  | some v' =>
    rw [hv]
    exact hvalues k v v' hv hv'

end Sum

/-! ## The total -/

section Total

variable [AddCommMonoid ν]

/-- The sum of all values. -/
def total (t : Table κ ν) : ν := (t.entries.map (·.2)).sum

theorem total_insert (t : Table κ ν) (k : κ) (v : ν) : total (t.insert k v) = v + total (t.erase k) :=
  sumOf_insert id t k v

theorem total_eq (t : Table κ ν) (k : κ) : total t = (t.lookup k).getD 0 + total (t.erase k) := by
  have heq := sumOf_eq id t k
  rwa [Option.map_id_apply] at heq

theorem total_induction (t : Table κ ν) (p : ν → Prop) (hzero : p 0) (hadd : ∀ a b, p a → p b → p (a + b))
    (hall : ∀ k v, t.lookup k = some v → p v) : p t.total := by
  apply Multiset.sum_induction p _ hadd hzero
  intro v hv
  obtain ⟨⟨k, v⟩, hmem, rfl⟩ := Multiset.mem_map.mp hv
  exact hall k v (Finmap.mem_lookup_iff.mpr hmem)

/-- The total, summed over any set of keys that has them all. -/
theorem total_eq_sum (t : Table κ ν) (keys : Finset κ) (hkeys : ∀ k ∈ t, k ∈ keys) :
    total t = ∑ k ∈ keys, (t.lookup k).getD 0 := by
  have heq := sumOf_eq_sum id t keys hkeys
  simp only [Option.map_id_apply] at heq
  exact heq

end Total

end Table
