import Qtrade.Oms.Spec
import Mathlib.Algebra.Order.Ring.Cast

/-!
# What the open orders add up to

`GetActiveOrderCount` and `GetOpenNotional` as sums over the order table, and what each operation makes of the
share of one order.
-/

namespace Qtrade.Oms

namespace OrderEntry

/-- The share of an order in the number of active orders. -/
def activity (e : OrderEntry) : ℕ := if isTerminalLifecycle e.lifecycleState then 0 else 1

/-- The share of an order in the open notional. -/
def exposure (e : OrderEntry) : ℚ :=
  if isTerminalLifecycle e.lifecycleState then 0 else e.order.price.toRat * e.order.leftVolume

/-- The price is a number, and none below zero. -/
def Priced (e : OrderEntry) : Prop := ∃ p : ℚ, 0 ≤ p ∧ e.order.price = .fin p

/-- Less than nothing is left only of an order that has ended, or that no send result can end any more. -/
def Placed (e : OrderEntry) : Prop :=
  isTerminalLifecycle e.lifecycleState = true ∨ 0 ≤ e.order.leftVolume ∨ e.lifecycleState.rank = 3

/-- A placed entry stays placed. With a price, it keeps one and its exposure does not grow. -/
def Eases (e e' : OrderEntry) : Prop :=
  e.Placed → e'.Placed ∧ (e.Priced → e'.Priced ∧ e'.exposure ≤ e.exposure)

variable {e e' : OrderEntry}

theorem Eases.refl (e : OrderEntry) : e.Eases e := fun h => ⟨h, fun hp => ⟨hp, le_refl e.exposure⟩⟩

theorem Priced.toRat_nonneg (h : e.Priced) : 0 ≤ e.order.price.toRat := by
  obtain ⟨p, hp, hprice⟩ := h
  rwa [hprice]

theorem exposure_of_active (h : isTerminalLifecycle e.lifecycleState = false) :
    e.exposure = e.order.price.toRat * e.order.leftVolume := by
  rw [exposure, h, if_neg Bool.false_ne_true]

theorem exposure_of_terminal (h : isTerminalLifecycle e.lifecycleState = true) : e.exposure = 0 := if_pos h

theorem Priced.exposure_nonneg (h : e.Priced)
    (hleft : isTerminalLifecycle e.lifecycleState = true ∨ 0 ≤ e.order.leftVolume) : 0 ≤ e.exposure := by
  unfold exposure
  split
  · exact le_refl 0
  · exact mul_nonneg h.toRat_nonneg (Int.cast_nonneg (by simp_all))

theorem activity_le (h : isTerminalLifecycle e.lifecycleState = true → isTerminalLifecycle e'.lifecycleState = true) :
    e'.activity ≤ e.activity := by
  unfold activity
  split
  · exact Nat.zero_le _
  case isFalse hactive =>
    rw [if_neg]
    exact fun ht => hactive (h ht)

/-! ## What keeps an entry light -/

theorem eases_of_same (hprice : e'.order.price = e.order.price) (hleft : e'.order.leftVolume = e.order.leftVolume)
    (hends : isTerminalLifecycle e'.lifecycleState = isTerminalLifecycle e.lifecycleState)
    (hrank : e.lifecycleState.rank ≤ e'.lifecycleState.rank) : e.Eases e' := by
  intro h
  refine ⟨?_, ?_⟩
  · unfold Placed
    rw [hends, hleft]
    rcases h with ht | hleft | hthree
    · exact Or.inl ht
    · exact Or.inr (Or.inl hleft)
    · have hmax := rank_le_three e'.lifecycleState
      exact Or.inr (Or.inr (by omega))
  · rintro ⟨p, hp, hold⟩
    refine ⟨⟨p, hp, hprice.trans hold⟩, ?_⟩
    unfold exposure
    rw [hends, hprice, hleft]

theorem eases_of_le (hprice : e.Priced → e'.Priced ∧ e'.order.price.toRat ≤ e.order.price.toRat)
    (hnonneg : 0 ≤ e'.order.leftVolume) (hleft : e'.order.leftVolume ≤ e.order.leftVolume)
    (hends : isTerminalLifecycle e.lifecycleState = true → isTerminalLifecycle e'.lifecycleState = true) :
    e.Eases e' := by
  intro _
  refine ⟨Or.inr (Or.inl hnonneg), fun h => ?_⟩
  obtain ⟨hpriced, hle⟩ := hprice h
  refine ⟨hpriced, ?_⟩
  cases hactive : isTerminalLifecycle e'.lifecycleState with
  | true =>
    rw [exposure_of_terminal hactive]
    exact h.exposure_nonneg (Or.inr (hnonneg.trans hleft))
  | false =>
    have hactive' : isTerminalLifecycle e.lifecycleState = false := by
      rw [← Bool.not_eq_true]
      intro ht
      rw [hends ht] at hactive
      cases hactive
    rw [exposure_of_active hactive, exposure_of_active hactive']
    exact mul_le_mul hle (Int.cast_le.mpr hleft) (Int.cast_nonneg hnonneg) h.toRat_nonneg

end OrderEntry

open OrderEntry

theorem applyTransition_eases (e : OrderEntry) (submitStatus : OrderSubmitStatusType) {target : OrderLifecycleState}
    (htarget : isTerminalLifecycle target = false) :
    e.Eases (applyTransition { e with order.submitStatus := submitStatus } target).2 := by
  rcases applyTransition_cases { e with order.submitStatus := submitStatus } target with ⟨hedge, h⟩ | ⟨_, h⟩
  · rw [h]
    refine eases_of_same rfl rfl ?_ (rank_le_of_canTransition hedge)
    · apply Eq.symm
      rw [htarget, ← Bool.not_eq_true]
      intro ht
      rw [eq_of_terminal hedge ht] at htarget
      rw [htarget] at ht
      cases ht
  · rw [h]
    exact eases_of_same rfl rfl rfl (le_refl _)

theorem cancelResultEntry_eases (e : OrderEntry) (result : ErrorCode) : e.Eases (cancelResultEntry e result).2 := by
  unfold cancelResultEntry
  split
  · exact applyTransition_eases e e.order.submitStatus rfl
  · apply applyTransition_eases e .cancelRejected
    split <;> rfl

theorem sendResultEntry_eases (e : OrderEntry) (result : ErrorCode) : e.Eases (sendResultEntry e result).2 := by
  unfold sendResultEntry
  split
  case isFalse =>
    rw [applyTransition, if_pos (canTransition_self _)]
    exact Eases.refl e
  case isTrue hpending =>
    have hactive : isTerminalLifecycle e.lifecycleState = false ∧ e.lifecycleState.rank < 3 := by
      rcases hpending with hl | ⟨hl, _⟩ <;> rw [hl] <;> decide
    intro h
    have hleft : 0 ≤ e.order.leftVolume := by
      rcases h with ht | hleft | hrank
      · rw [hactive.1] at ht
        cases ht
      · exact hleft
      · omega
    have hmove : ∀ (status : OrderStatusType) (submitStatus : OrderSubmitStatusType) (target : OrderLifecycleState),
        e.Eases (applyTransition { e with order.status := status, order.submitStatus := submitStatus } target).2 := by
      intro status submitStatus target
      rcases applyTransition_cases { e with order.status := status, order.submitStatus := submitStatus } target with
        ⟨_, hmoved⟩ | ⟨_, hmoved⟩ <;> rw [hmoved]
      · refine eases_of_le (fun hp => ⟨hp, le_refl _⟩) hleft (le_refl _) ?_
        intro ht
        rw [hactive.1] at ht
        cases ht
      · exact eases_of_same rfl rfl rfl (le_refl _)
    split
    · exact hmove .unknown e.order.submitStatus .sendUnknown h
    · split
      · exact hmove .rejected .insertRejected .rejected h
      · exact hmove e.order.status e.order.submitStatus .working h

/-! ## Reports -/

/-- Neither the price nor the left volume is higher in the second entry. -/
def OrderEntry.calm (e e' : OrderEntry) : Bool :=
  decide (e'.order.price ≤ e.order.price) && decide (e'.order.leftVolume ≤ e.order.leftVolume)

theorem OrderEntry.calm_iff {e e' : OrderEntry} :
    e.calm e' = true ↔ e'.order.price ≤ e.order.price ∧ e'.order.leftVolume ≤ e.order.leftVolume := by
  simp [OrderEntry.calm]

theorem price_of_le {p : ℚ} {price : Double} (hpos : price > 0) (hle : price ≤ .fin p) :
    ∃ q : ℚ, 0 ≤ q ∧ price = .fin q ∧ q ≤ p := by
  cases price with
  | fin q => exact ⟨q, le_of_lt ((Double.fin_lt 0 q).mp hpos), rfl, (Double.fin_le q p).mp hle⟩
  | inf negative => cases negative <;> simp_all [Double.le_def, Double.le, Double.lt, Double.lt_def, Double.zero_def]
  | nan => simp [Double.le_def, Double.le, Double.lt] at hle

theorem kept_eases {e updated : OrderEntry} {target : OrderLifecycleState}
    (hlife : updated.lifecycleState = e.lifecycleState) (hnonneg : 0 ≤ updated.order.leftVolume)
    (hprice : ∀ p : ℚ, 0 ≤ p → e.order.price = .fin p → updated.order.price ≤ .fin p →
      ∃ q : ℚ, 0 ≤ q ∧ updated.order.price = .fin q ∧ q ≤ p)
    (hcalm : e.calm (kept e (applyTransition updated target)) = true) :
    e.Eases (kept e (applyTransition updated target)) := by
  rw [kept_applyTransition, hlife] at hcalm ⊢
  split at hcalm
  case isFalse hrefused =>
    rw [if_neg hrefused]
    exact Eases.refl e
  case isTrue hedge =>
    rw [if_pos hedge]
    obtain ⟨hle, hleft⟩ := calm_iff.mp hcalm
    refine eases_of_le ?_ hnonneg hleft fun ht => (congrArg isTerminalLifecycle (eq_of_terminal hedge ht)).trans ht
    rintro ⟨p, hp, hold⟩
    rw [hold] at hle
    obtain ⟨q, hq, hnew, hqp⟩ := hprice p hp hold hle
    refine ⟨⟨q, hq, hnew⟩, ?_⟩
    rw [hold, hnew]
    exact hqp

theorem leftVolume_of_valid {report : Order} (h : isValidOrder report = true) : 0 ≤ report.leftVolume := by
  simp only [isValidOrder, Bool.and_eq_true, decide_eq_true_eq] at h
  exact h.1.2

theorem orderReport_eases {e : OrderEntry} {report : Order} (hvalid : isValidOrder report = true)
    (hcalm : e.calm (kept e (orderReportEntry e report)) = true) :
    e.Eases (kept e (orderReportEntry e report)) := by
  have hleft := leftVolume_of_valid hvalid
  refine kept_eases rfl hleft ?_ hcalm
  intro p hp hold hle
  simp only [mergeOrderSnapshot] at hle ⊢
  split at hle
  case isTrue hpos =>
    rw [if_pos hpos]
    exact price_of_le hpos hle
  case isFalse hpos =>
    rw [if_neg hpos]
    exact ⟨p, hp, hold, le_refl p⟩

theorem tradeReport_eases {e : OrderEntry} {report : Trade}
    (hcalm : e.calm (kept e (tradeReportEntry e report)) = true) :
    e.Eases (kept e (tradeReportEntry e report)) :=
  kept_eases rfl (le_max_left 0 _) (fun p hp hold _ => ⟨p, hp, hold, le_refl p⟩) hcalm

theorem kept_placed {e updated : OrderEntry} {target : OrderLifecycleState} (hnonneg : 0 ≤ updated.order.leftVolume)
    (h : e.Placed) : (kept e (applyTransition updated target)).Placed := by
  rw [kept_applyTransition]
  split
  · exact Or.inr (Or.inl hnonneg)
  · exact h

namespace OrderManager

variable {s s' : OrderManager} {id : String}

/-- The order under the key has neither a higher price nor more left in the second manager. -/
def calm (s s' : OrderManager) (key : Option String) : Bool :=
  match key.bind s.orders.lookup, key.bind s'.orders.lookup with
  | some e, some e' => e.calm e'
  | _, _ => true

theorem calm_found {e e' : OrderEntry} {key : Option String} (h : s.calm s' key = true) (hkey : key = some id)
    (he : s.orders.lookup id = some e) (he' : s'.orders.lookup id = some e') : e.calm e' = true := by
  simpa [calm, hkey, he, he'] using h

theorem cancelOrder_eases (s : OrderManager) (id : String) : Evolves Eases s (s.cancelOrder id).2 :=
  update_evolves Eases.refl s id fun e => applyTransition_eases e e.order.submitStatus rfl

theorem markEmsQueued_eases (s : OrderManager) (id : String) : Evolves Eases s (s.markEmsQueued id).2 :=
  update_evolves Eases.refl s id fun e => applyTransition_eases e e.order.submitStatus rfl

theorem markSendPending_eases (s : OrderManager) (id : String) : Evolves Eases s (s.markSendPending id).2 :=
  update_evolves Eases.refl s id fun e => applyTransition_eases e .insertSubmitted rfl

theorem recordCancelResult_eases (s : OrderManager) (id : String) (result : ErrorCode) :
    Evolves Eases s (s.recordCancelResult id result).2 :=
  update_evolves Eases.refl s id fun e => cancelResultEntry_eases e result

theorem recordSendResult_eases (s : OrderManager) (id : String) (result : ErrorCode) :
    Evolves Eases s (s.recordSendResult id result).2 :=
  update_evolves Eases.refl s id fun e => sendResultEntry_eases e result

theorem applyOrderReport_eases {report : Order} (hvalid : isValidOrder report = true)
    (hcalm : s.calm (s.applyOrderReport report) (s.reportKey report.orderId report.clientOrderId) = true) :
    Evolves Eases s (s.applyOrderReport report) := by
  have hkept := applyOrderReport_evolves s report
  refine evolves_of_lookup Eases.refl ?_ hkept.clientOrderIndex hkept.initialized (lookup_applyOrderReport s report)
  intro id e hkey he
  apply orderReport_eases hvalid
  apply calm_found hcalm hkey he
  rw [lookup_applyOrderReport, if_pos hkey, he, Option.map_some]

theorem applyTradeReport_eases {report : Trade}
    (hcalm : s.calm (s.applyTradeReport report) (s.reportKey report.orderId report.clientOrderId) = true) :
    Evolves Eases s (s.applyTradeReport report) := by
  have hkept := applyTradeReport_evolves s report
  refine evolves_of_lookup Eases.refl ?_ hkept.clientOrderIndex hkept.initialized (lookup_applyTradeReport s report)
  intro id e hkey he
  apply tradeReport_eases
  apply calm_found hcalm hkey.2 he
  rw [lookup_applyTradeReport, if_pos hkey, he, Option.map_some]

/-! ## The sums -/

/-- The open notional, as a number. -/
def exposure (s : OrderManager) : ℚ := s.orders.sumOf OrderEntry.exposure

def AllPlaced (s : OrderManager) : Prop := ∀ id e, s.orders.lookup id = some e → e.Placed

def AllPriced (s : OrderManager) : Prop := ∀ id e, s.orders.lookup id = some e → e.Priced

theorem card_active (entries : Multiset OrderEntry) :
    (entries.filter (!isTerminalLifecycle ·.lifecycleState)).card = (entries.map OrderEntry.activity).sum := by
  induction entries using Multiset.induction_on with
  | empty => rfl
  | cons e entries ih =>
    rw [Multiset.map_cons, Multiset.sum_cons, ← ih, Multiset.filter_cons, Multiset.card_add, activity]
    cases isTerminalLifecycle e.lifecycleState <;> rfl

theorem sum_active (entries : Multiset OrderEntry) (h : ∀ e ∈ entries, e.Priced) :
    ((entries.filter (!isTerminalLifecycle ·.lifecycleState)).map fun e =>
      e.order.price * Double.ofInt e.order.leftVolume).sum = .fin (entries.map OrderEntry.exposure).sum := by
  induction entries using Multiset.induction_on with
  | empty => rfl
  | cons e entries ih =>
    obtain ⟨⟨p, _, hprice⟩, hothers⟩ := Multiset.forall_mem_cons.mp h
    rw [Multiset.map_cons, Multiset.sum_cons, ← Double.fin_add, ← ih hothers, Multiset.filter_cons, Multiset.map_add,
      Multiset.sum_add, OrderEntry.exposure]
    cases isTerminalLifecycle e.lifecycleState <;> simp [hprice, Double.fin_mul_ofInt, ← Double.zero_def]

theorem getActiveOrderCount_eq (s : OrderManager) : s.getActiveOrderCount = s.orders.sumOf OrderEntry.activity := by
  rw [getActiveOrderCount, activeEntries, card_active, Multiset.map_map]
  rfl

theorem getOpenNotional_eq (h : s.AllPriced) : s.getOpenNotional = .fin s.exposure := by
  rw [getOpenNotional, activeEntries, sum_active, Multiset.map_map]
  · rfl
  · intro e he
    obtain ⟨⟨id, e⟩, hmem, rfl⟩ := Multiset.mem_map.mp he
    exact h id e (Finmap.mem_lookup_iff.mpr hmem)

theorem Evolves.activity_le {R : OrderEntry → OrderEntry → Prop} (h : Evolves R s s')
    (hR : ∀ e e', R e e' → isTerminalLifecycle e.lifecycleState = true →
      isTerminalLifecycle e'.lifecycleState = true) :
    s'.getActiveOrderCount ≤ s.getActiveOrderCount := by
  rw [getActiveOrderCount_eq, getActiveOrderCount_eq]
  apply Table.sumOf_le
  · intro id
    exact h.isNone
  · intro id e e₁ he he₁
    obtain ⟨e', he', hrel⟩ := h.lookup he
    obtain rfl : e' = e₁ := Option.some.inj (he'.symm.trans he₁)
    exact OrderEntry.activity_le (hR e e' hrel)

theorem AllPlaced.eases (hs : s.AllPlaced) (h : Evolves Eases s s') : s'.AllPlaced := by
  intro id e' he'
  obtain ⟨e, he, heases⟩ := h.origin he'
  exact (heases (hs id e he)).1

theorem AllPlaced.applyOrderReport (hs : s.AllPlaced) {report : Order} (hvalid : isValidOrder report = true) :
    (s.applyOrderReport report).AllPlaced := by
  have hleft := leftVolume_of_valid hvalid
  intro id e' he'
  rw [lookup_applyOrderReport] at he'
  split at he'
  · obtain ⟨e, he, rfl⟩ := Option.map_eq_some_iff.mp he'
    exact kept_placed hleft (hs id e he)
  · exact hs id e' he'

theorem AllPlaced.applyTradeReport (hs : s.AllPlaced) (report : Trade) : (s.applyTradeReport report).AllPlaced := by
  intro id e' he'
  rw [lookup_applyTradeReport] at he'
  split at he'
  · obtain ⟨e, he, rfl⟩ := Option.map_eq_some_iff.mp he'
    exact kept_placed (le_max_left 0 _) (hs id e he)
  · exact hs id e' he'

theorem Evolves.eases (h : Evolves Eases s s') (hs : s.AllPlaced) (hp : s.AllPriced) :
    s'.AllPriced ∧ s'.exposure ≤ s.exposure := by
  refine ⟨?_, ?_⟩
  · intro id e' he'
    obtain ⟨e, he, heases⟩ := h.origin he'
    exact ((heases (hs id e he)).2 (hp id e he)).1
  · apply Table.sumOf_le
    · intro id
      exact h.isNone
    · intro id e e₁ he he₁
      obtain ⟨e', he', heases⟩ := h.lookup he
      obtain rfl : e' = e₁ := Option.some.inj (he'.symm.trans he₁)
      exact ((heases (hs id e he)).2 (hp id e he)).2

/-! ## A new order -/

theorem orders_born (s : OrderManager) (request : OrderRequest) (id : String) :
    (s.born request id).orders = s.orders.insert id (newEntry request id) := by
  rw [born, orders_index, store]

theorem born_count (s : OrderManager) (request : OrderRequest) (id : String) :
    (s.born request id).getActiveOrderCount ≤ s.getActiveOrderCount + 1 := by
  rw [getActiveOrderCount_eq, getActiveOrderCount_eq, orders_born, Table.sumOf_insert, Table.sumOf_eq _ s.orders id]
  have hone : (newEntry request id).activity = 1 := rfl
  omega

theorem born_exposure {request : OrderRequest} (h : ∀ e, s.orders.lookup id = some e → 0 ≤ e.exposure) :
    (s.born request id).exposure ≤ s.exposure + (newEntry request id).exposure := by
  have hold : 0 ≤ ((s.orders.lookup id).map OrderEntry.exposure).getD 0 := by
    cases he : s.orders.lookup id with
    | none => exact le_refl 0
    | some e => exact h e he
  rw [exposure, exposure, orders_born, Table.sumOf_insert, Table.sumOf_eq _ s.orders id, add_comm]
  apply add_le_add_left
  exact le_add_of_nonneg_left hold

theorem AllPlaced.born (h : s.AllPlaced) {request : OrderRequest} (hnew : 0 ≤ request.volume) :
    (s.born request id).AllPlaced := by
  intro id' e he
  rw [lookup_born] at he
  split at he
  · cases he
    exact Or.inr (Or.inl hnew)
  · exact h id' e he

theorem AllPriced.born (h : s.AllPriced) {request : OrderRequest} (hnew : (newEntry request id).Priced) :
    (s.born request id).AllPriced := by
  intro id' e he
  rw [lookup_born] at he
  split at he
  · cases he
    exact hnew
  · exact h id' e he

end OrderManager

end Qtrade.Oms
