import Qtrade.Oms.Operations

/-!
# Orders do not interfere

The operations on existing orders share the client id index and the set of applied fills. Each of them
still changes one entry, by what it finds there and by whether its own fill is known.
-/

namespace Qtrade.Oms

open OrderManager

/-- The operations on orders that exist. -/
def OrderManager.Operation.edits : Operation → Bool
  | .cancelOrder _ | .markEmsQueued _ | .markSendPending _ | .recordSendResult _ _ | .recordCancelResult _ _
  | .applyOrderReport _ | .applyTradeReport _ => true
  | _ => false

/-- The dedup key that an operation brings. -/
def OrderManager.Operation.tradeKey : Operation → Option String
  | .applyTradeReport report => some (generateTradeDedupKey report)
  | _ => none

/-- What an edit makes of the entry, and the keys it adds to the applied fills. -/
def OrderManager.Operation.effect (duplicate : Bool) (e : OrderEntry) : Operation → OrderEntry × Finset String
  | .cancelOrder _ => ((applyTransition e .cancelPending).2, ∅)
  | .markEmsQueued _ => ((applyTransition e .emsQueued).2, ∅)
  | .markSendPending _ =>
    ((applyTransition { e with order.submitStatus := .insertSubmitted } .sendPending).2, ∅)
  | .recordSendResult _ result => ((sendResultEntry e result).2, ∅)
  | .recordCancelResult _ result => ((cancelResultEntry e result).2, ∅)
  | .applyOrderReport report => (kept e (orderReportEntry e report), ∅)
  | .applyTradeReport report =>
    if !duplicate && (tradeReportEntry e report).1 == .success then
      ((tradeReportEntry e report).2, {generateTradeDedupKey report})
    else (e, ∅)
  | _ => (e, ∅)

namespace OrderManager

variable {s s' : OrderManager} {id id' : String} {e : OrderEntry} {op : Operation}

/-- The order that an operation finds. -/
def resolves (s : OrderManager) : Operation → Option String
  | .cancelOrder orderId | .markEmsQueued orderId | .markSendPending orderId | .recordSendResult orderId _
  | .recordCancelResult orderId _ => (s.orders.lookup orderId).map fun _ => orderId
  | .applyOrderReport report => s.reportKey report.orderId report.clientOrderId
  | .applyTradeReport report => s.reportKey report.orderId report.clientOrderId
  | _ => none

/-- The operation brings a fill that is applied already. -/
def duplicate (s : OrderManager) (op : Operation) : Bool := op.tradeKey.any (· ∈ s.appliedTradeIds)

/-- The manager with one entry changed and keys added to the applied fills. -/
def edit (s : OrderManager) (id : String) (change : OrderEntry × Finset String) : OrderManager :=
  { s.store id change.1 with appliedTradeIds := s.appliedTradeIds ∪ change.2 }

def performAll (s : OrderManager) (ops : List Operation) : OrderManager := ops.foldl perform s

/-! ## What an edit does -/

theorem store_same (he : s.orders.lookup id = some e) : s.store id e = s := by
  unfold store
  rw [Table.store_same he]

theorem edit_store (s : OrderManager) (id : String) (e : OrderEntry) : s.edit id (e, ∅) = s.store id e := by
  unfold edit store
  rw [Finset.union_empty]

theorem update_found (he : s.orders.lookup id = some e) (change : OrderEntry → ErrorCode × OrderEntry) :
    (s.update id change).2 = s.edit id ((change e).2, ∅) := by
  unfold update
  rw [he, edit_store]

theorem update_missing (he : s.orders.lookup id = none) (change : OrderEntry → ErrorCode × OrderEntry) :
    (s.update id change).2 = s := by
  unfold update
  rw [he]

theorem perform_unresolved (hop : op.edits = true) (hres : s.resolves op = none) : s.perform op = s := by
  cases op with
  | cancelOrder | markEmsQueued | markSendPending | recordSendResult | recordCancelResult =>
    exact update_missing (Option.map_eq_none_iff.mp hres) _
  | applyOrderReport report =>
    have hfind := Option.map_eq_none_iff.mp hres
    simp only [perform, applyOrderReport, hfind]
  | applyTradeReport report =>
    have hfind := Option.map_eq_none_iff.mp hres
    simp only [perform, applyTradeReport, hfind, ite_self]
  | _ => cases hop

theorem resolves_lookup (hres : s.resolves op = some id) : ∃ e, s.orders.lookup id = some e := by
  cases op with
  | cancelOrder | markEmsQueued | markSendPending | recordSendResult | recordCancelResult =>
    obtain ⟨e, he, rfl⟩ := Option.map_eq_some_iff.mp hres
    exact ⟨e, he⟩
  | applyOrderReport | applyTradeReport =>
    obtain ⟨e, hfind⟩ := reportKey_eq_some.mp hres
    exact ⟨e, (findOrderLocked_some hfind).1⟩
  | _ => cases hres

/-- An operation changes the entry it finds, by what that entry and its own key say. -/
theorem perform_resolved (hres : s.resolves op = some id) (he : s.orders.lookup id = some e) :
    s.perform op = s.edit id (op.effect (s.duplicate op) e) := by
  cases op with
  | cancelOrder | markEmsQueued | markSendPending | recordSendResult | recordCancelResult =>
    obtain ⟨_, _, rfl⟩ := Option.map_eq_some_iff.mp hres
    exact update_found he _
  | applyOrderReport report =>
    obtain ⟨e', hfind⟩ := reportKey_eq_some.mp hres
    obtain rfl : e' = e := Option.some.inj ((findOrderLocked_some hfind).1.symm.trans he)
    simp only [perform, applyOrderReport, hfind, Operation.effect, edit_store, kept]
    split
    · rfl
    · exact (store_same he).symm
  | applyTradeReport report =>
    obtain ⟨e', hfind⟩ := reportKey_eq_some.mp hres
    obtain rfl : e' = e := Option.some.inj ((findOrderLocked_some hfind).1.symm.trans he)
    have hsame : s.edit id (e', ∅) = s := (edit_store s id e').trans (store_same he)
    simp only [perform, applyTradeReport, hfind, Operation.effect, duplicate, Operation.tradeKey, Option.any_some]
    by_cases hdup : generateTradeDedupKey report ∈ s.appliedTradeIds
    · simp [hdup, hsame]
    · by_cases hok : (tradeReportEntry e' report).1 = .success
      · simp [hdup, hok, edit]
      · simp [hdup, hok, hsame]
  | _ => cases hres

/-! ## Who is meant stays the same -/

theorem perform_cases (s : OrderManager) (hop : op.edits = true) : (s.resolves op = none ∧ s.perform op = s) ∨
    ∃ id e, s.resolves op = some id ∧ s.orders.lookup id = some e ∧
      s.perform op = s.edit id (op.effect (s.duplicate op) e) := by
  cases hres : s.resolves op with
  | none => exact Or.inl ⟨rfl, perform_unresolved hop hres⟩
  | some id =>
    obtain ⟨e, he⟩ := resolves_lookup hres
    exact Or.inr ⟨id, e, rfl, he, perform_resolved hres he⟩

theorem perform_evolves (s : OrderManager) (hop : op.edits = true) :
    Evolves (fun _ _ => True) s (s.perform op) := by
  rcases s.perform_cases hop with ⟨_, hperform⟩ | ⟨id, e, _, he, hperform⟩
  · rw [hperform]
    exact Evolves.refl (fun _ => trivial) s
  · rw [hperform]
    have hstored : Evolves (fun _ _ => True) s (s.store id (op.effect (s.duplicate op) e).1) :=
      store_evolves (fun _ => trivial) he trivial
    exact ⟨hstored.clientOrderIndex, hstored.initialized, hstored.entries⟩

theorem Evolves.resolves {R : OrderEntry → OrderEntry → Prop} (h : Evolves R s s') (op : Operation) :
    s'.resolves op = s.resolves op := by
  have hmap : ∀ id, (s'.orders.lookup id).map (fun _ => id) = (s.orders.lookup id).map fun _ => id := by
    intro id
    have hrel := h.entries id
    generalize s.orders.lookup id = o, s'.orders.lookup id = o' at hrel
    cases hrel <;> rfl
  cases op with
  | cancelOrder | markEmsQueued | markSendPending | recordSendResult | recordCancelResult => exact hmap _
  | applyOrderReport | applyTradeReport => exact reportKey_evolves h _ _
  | _ => rfl

/-! ## One order against the others -/

/-- Two managers that agree on one order and on whether its fills are known. -/
structure Agree (id : String) (keys : Finset String) (s s' : OrderManager) : Prop where
  entry : s.orders.lookup id = s'.orders.lookup id
  known : ∀ key ∈ keys, key ∈ s.appliedTradeIds ↔ key ∈ s'.appliedTradeIds

theorem lookup_edit (s : OrderManager) (id id' : String) (change : OrderEntry × Finset String) :
    (s.edit id change).orders.lookup id' = if id' = id then some change.1 else s.orders.lookup id' :=
  Table.lookup_store s.orders id id' change.1

theorem effect_keys {duplicate : Bool} {key : String} (hkey : key ∈ (op.effect duplicate e).2) :
    op.tradeKey = some key := by
  cases op with
  | applyTradeReport report =>
    rw [Operation.effect] at hkey
    split at hkey
    · rw [Finset.mem_singleton.mp hkey]
      rfl
    · cases hkey
  | _ => cases hkey

variable {keys : Finset String}

theorem Agree.other (h : Agree id keys s s') (hop : op.edits = true) (hres : s.resolves op ≠ some id)
    (hkey : ∀ key ∈ keys, (s.resolves op).isSome → op.tradeKey ≠ some key) : Agree id keys (s.perform op) s' := by
  rcases s.perform_cases hop with ⟨_, hperform⟩ | ⟨id', e, hres', _, hperform⟩
  · rw [hperform]
    exact h
  · rw [hperform]
    refine ⟨?_, ?_⟩
    · rw [lookup_edit, if_neg, h.entry]
      rintro rfl
      exact hres hres'
    · intro key hmem
      rw [← h.known key hmem]
      refine ⟨fun hin => ?_, fun hin => Finset.mem_union_left _ hin⟩
      rcases Finset.mem_union.mp hin with hold | hnew
      · exact hold
      · exact absurd (effect_keys hnew) (hkey key hmem (by rw [hres']; rfl))

theorem Agree.same (h : Agree id keys s s') (hres : s.resolves op = some id) (hres' : s'.resolves op = some id)
    (hkey : ∀ key, op.tradeKey = some key → key ∈ keys) : Agree id keys (s.perform op) (s'.perform op) := by
  obtain ⟨e, he⟩ := resolves_lookup hres
  have he' := h.entry.symm.trans he
  have hdup : s.duplicate op = s'.duplicate op := by
    unfold duplicate
    cases htrade : op.tradeKey with
    | none => rfl
    | some key => simp [h.known key (hkey key htrade)]
  rw [perform_resolved hres he, perform_resolved hres' he', hdup]
  refine ⟨?_, ?_⟩
  · rw [lookup_edit, lookup_edit, if_pos rfl, if_pos rfl]
  · intro key hmem
    simp only [edit, Finset.mem_union, store, h.known key hmem]

/-- The operations on one order. -/
def addressing (s : OrderManager) (id : String) (ops : List Operation) : List Operation :=
  ops.filter (s.resolves · = some id)

/-- Trades that mean different orders have different keys. -/
def DistinctKeys (s : OrderManager) (ops : List Operation) : Prop :=
  ∀ a ∈ ops, ∀ b ∈ ops, ∀ key id id', a.tradeKey = some key → b.tradeKey = some key →
    s.resolves a = some id → s.resolves b = some id' → id = id'

/-- The keys of the trades that mean an order. -/
def tradeKeys (s : OrderManager) (id : String) (ops : List Operation) : Finset String :=
  ((s.addressing id ops).filterMap Operation.tradeKey).toFinset

theorem mem_tradeKeys {ops : List Operation} {key : String} : key ∈ s.tradeKeys id ops ↔
    ∃ op ∈ ops, s.resolves op = some id ∧ op.tradeKey = some key := by
  simp [tradeKeys, addressing, and_assoc]

theorem Agree.performAll {ops : List Operation} (h : Agree id keys s s') (hedits : ∀ op ∈ ops, op.edits = true)
    (hres : ∀ op, s'.resolves op = s.resolves op)
    (hsame : ∀ op ∈ ops, s.resolves op = some id → ∀ key, op.tradeKey = some key → key ∈ keys)
    (hother : ∀ op ∈ ops, s.resolves op ≠ some id → ∀ key ∈ keys, (s.resolves op).isSome → op.tradeKey ≠ some key) :
    Agree id keys (s.performAll ops) (s'.performAll (s.addressing id ops)) := by
  induction ops generalizing s s' with
  | nil => exact h
  | cons op ops ih =>
    simp only [List.forall_mem_cons] at hedits hsame hother
    have hevolves := s.perform_evolves hedits.1
    have hstable := hevolves.resolves
    have hfilter : (s.perform op).addressing id ops = s.addressing id ops := by
      unfold addressing
      simp only [hstable]
    by_cases hmeant : s.resolves op = some id
    · have hcons : s.addressing id (op :: ops) = op :: s.addressing id ops := by simp [addressing, hmeant]
      rw [hcons]
      have hevolves' := s'.perform_evolves hedits.1
      have hnext := ih (h.same hmeant ((hres op).trans hmeant) (hsame.1 hmeant)) hedits.2
        (fun a => by rw [hevolves'.resolves, hstable, hres]) (by simpa only [hstable] using hsame.2)
        (by simpa only [hstable] using hother.2)
      rwa [hfilter] at hnext
    · have hcons : s.addressing id (op :: ops) = s.addressing id ops := by simp [addressing, hmeant]
      rw [hcons]
      have hnext := ih (h.other hedits.1 hmeant (hother.1 hmeant)) hedits.2 (fun a => by rw [hstable, hres])
        (by simpa only [hstable] using hsame.2) (by simpa only [hstable] using hother.2)
      rwa [hfilter] at hnext

/-! ## Operations on different orders commute -/

theorem duplicate_edit {change : OrderEntry × Finset String} (hnew : ∀ key ∈ change.2, op.tradeKey ≠ some key) :
    (s.edit id change).duplicate op = s.duplicate op := by
  unfold duplicate
  cases htrade : op.tradeKey with
  | none => rfl
  | some key =>
    have hkey : key ∉ change.2 := fun hmem => hnew key hmem htrade
    simp [edit, hkey]

theorem edit_comm (s : OrderManager) (hne : id ≠ id') (change change' : OrderEntry × Finset String) :
    (s.edit id change).edit id' change' = (s.edit id' change').edit id change := by
  have horders : (s.orders.insert id change.1).insert id' change'.1 =
      (s.orders.insert id' change'.1).insert id change.1 := by
    apply Finmap.ext_lookup
    intro k
    simp only [Table.lookup_store]
    split
    case isTrue hk => rw [if_neg (hk ▸ hne.symm)]
    case isFalse => rfl
  unfold edit store
  simp only [horders, Finset.union_assoc, Finset.union_comm change.2]

theorem perform_comm {a b : Operation} (ha : a.edits = true) (hb : b.edits = true)
    (hne : s.resolves a = none ∨ s.resolves a ≠ s.resolves b)
    (hkeys : ∀ key, a.tradeKey = some key → b.tradeKey ≠ some key) :
    (s.perform a).perform b = (s.perform b).perform a := by
  have hstable := (s.perform_evolves ha).resolves b
  have hstable' := (s.perform_evolves hb).resolves a
  rcases s.perform_cases ha with ⟨hnone, hperform⟩ | ⟨id, e, hres, he, hperform⟩
  · rw [hperform, perform_unresolved ha (hstable'.trans hnone)]
  · rcases s.perform_cases hb with ⟨hnone, hperform'⟩ | ⟨id', e', hres', he', hperform'⟩
    · rw [hperform', perform_unresolved hb (hstable.trans hnone)]
    · have hids : id ≠ id' := by
        rintro rfl
        rcases hne with hnone | hdifferent
        · rw [hnone] at hres
          cases hres
        · exact hdifferent (hres.trans hres'.symm)
      have hfound : (s.perform a).orders.lookup id' = some e' := by
        rw [hperform, lookup_edit, if_neg hids.symm, he']
      have hfound' : (s.perform b).orders.lookup id = some e := by
        rw [hperform', lookup_edit, if_neg hids, he]
      rw [perform_resolved (hstable.trans hres') hfound, perform_resolved (hstable'.trans hres) hfound']
      rw [hperform, hperform', duplicate_edit, duplicate_edit, edit_comm s hids]
      · intro key hmem htrade
        exact hkeys key htrade (effect_keys hmem)
      · intro key hmem
        exact hkeys key (effect_keys hmem)

/-- Each order ends as if only the operations that mean it had run, so operations that mean different orders
commute. -/
theorem orders_apart (s : OrderManager) (ops : List Operation) (hedits : ∀ op ∈ ops, op.edits = true)
    (hkeys : s.DistinctKeys ops) :
    (∀ id, (s.performAll ops).orders.lookup id =
      (s.performAll (s.addressing id ops)).orders.lookup id) ∧
    ∀ a ∈ ops, ∀ b ∈ ops, ∀ id id', s.resolves a = some id → s.resolves b = some id' → id ≠ id' →
      (s.perform a).perform b = (s.perform b).perform a := by
  refine ⟨?_, ?_⟩
  · intro id
    have hagree : Agree id (s.tradeKeys id ops) s s := ⟨rfl, fun _ _ => Iff.rfl⟩
    apply (hagree.performAll hedits (fun _ => rfl) _ _).entry
    · intro op hop hres key htrade
      exact mem_tradeKeys.mpr ⟨op, hop, hres, htrade⟩
    · intro op hop hres key hmem hsome htrade
      obtain ⟨a, ha, hresa, htradea⟩ := mem_tradeKeys.mp hmem
      obtain ⟨id', hres'⟩ := Option.isSome_iff_exists.mp hsome
      rw [← hkeys a ha op hop key id id' htradea htrade hresa hres'] at hres'
      exact hres hres'
  · intro a ha b hb id id' hres hres' hne
    apply perform_comm (hedits a ha) (hedits b hb)
    · rw [hres, hres']
      exact Or.inr fun h => hne (Option.some.inj h)
    · intro key htrade htrade'
      exact hne (hkeys a ha b hb key id id' htrade htrade' hres hres')

/-- Two orders of two at the venue, and their fills in turn. The second order is meant by its client id. -/
def twoOrders : OrderManager :=
  (({} : OrderManager).store "a"
      { order := { orderId := "a", volume := 2, leftVolume := 2 }, lifecycleState := .working }
    |>.store "b"
      { order := { orderId := "b", clientOrderId := 7, volume := 2, leftVolume := 2 }, lifecycleState := .working }
    |>.index 7 "b")

/-- The fill of the second order. -/
def otherFill : Operation := .applyTradeReport { tradeId := "2", clientOrderId := 7, volume := 2 }

def fillsInTurn : List Operation :=
  [.applyTradeReport { tradeId := "1", orderId := "a", volume := 1 },
    otherFill, .cancelOrder "a",
    .applyTradeReport { tradeId := "1", orderId := "a", volume := 1 }]

theorem orders_apart_two :
    (twoOrders.performAll fillsInTurn).orders.lookup "b" = (twoOrders.performAll [otherFill]).orders.lookup "b" ∧
      (twoOrders.perform (.cancelOrder "a")).perform otherFill =
        (twoOrders.perform otherFill).perform (.cancelOrder "a") := by
  have hkeys : twoOrders.DistinctKeys fillsInTurn := by
    intro a ha b hb key id id' hkey hkey' hres hres'
    simp only [fillsInTurn, List.mem_cons, List.not_mem_nil, or_false] at ha hb
    have htrades := hkey.trans hkey'.symm
    rcases ha with rfl | rfl | rfl | rfl <;> rcases hb with rfl | rfl | rfl | rfl <;>
      first
      | exact Option.some.inj (hres.symm.trans hres')
      | exact absurd htrades (by decide)
  obtain ⟨hentry, hcomm⟩ := orders_apart twoOrders fillsInTurn (by decide) hkeys
  refine ⟨hentry "b", ?_⟩
  exact hcomm (.cancelOrder "a") (by simp [fillsInTurn]) otherFill (by simp [fillsInTurn]) "a" "b" (by decide)
    (by decide) (by decide)

end OrderManager

end Qtrade.Oms
