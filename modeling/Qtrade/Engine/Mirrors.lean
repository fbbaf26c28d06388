import Qtrade.Engine.Venue
import Qtrade.Lib.Folds

/-!
# The orders that the table mirrors

An entry has the volume that the answer to `QueryOrders` had and that of the fills applied since, until a report ends
it with the figures of the venue.
-/

namespace Qtrade.Engine

open Qtrade.Oms
open Qtrade.Oms.OrderManager
open Qtrade.Account (terminalStatus)

/-! ## The entry of an order -/

/-- The volume of the order's fills among these that have been applied. -/
def appliedVolume (trades : List Trade) (applied : Finset String) (orderId : String) : Int :=
  ((trades.filter fun t => t.orderId = orderId ∧ generateTradeDedupKey t ∈ applied).map (·.volume)).sum

/-- Ended by a report. -/
def Closed (e : OrderEntry) : Prop := e.lifecycleState = .canceled ∨ e.lifecycleState = .rejected

/-- Takes fills, and knows whether it is filled. -/
def Counting (e : OrderEntry) : Prop :=
  (e.lifecycleState = .filled ∧ e.order.volume ≤ e.order.tradedVolume) ∨
    ((e.lifecycleState = .working ∨ e.lifecycleState = .partiallyFilled ∨ e.lifecycleState = .sendUnknown) ∧
      e.order.tradedVolume < e.order.volume)

theorem Closed.terminalStatus {e : OrderEntry} (h : Closed e) {status : OrderStatusType}
    (hs : e.lifecycleState = lifecycleFromOrderStatus status .working) : terminalStatus status = true := by
  unfold Closed at h
  rw [hs] at h
  cases status <;> first | rfl | (revert h; simp [lifecycleFromOrderStatus])

/-- The entry of an order that the broker answered as `q` and that is `o` by now. -/
structure Tracks (trades : List Trade) (applied : Finset String) (q o : Order) (e : OrderEntry) : Prop where
  volume : e.order.volume = q.volume
  taken : terminalStatus q.status = true → e.lifecycleState = lifecycleFromOrderStatus q.status .working
  state : (Closed e ∧ e.lifecycleState = lifecycleFromOrderStatus o.status .working ∧
      e.order.tradedVolume = o.tradedVolume) ∨
    (Counting e ∧ e.order.tradedVolume = q.tradedVolume + appliedVolume trades applied q.orderId)

theorem Counting.trade {e : OrderEntry} (h : Counting e) {trade : Trade} (hv : 0 < trade.volume) :
    (tradeReportEntry e trade).1 = .success ∧ Counting (tradeReportEntry e trade).2 := by
  have hleft : max 0 (e.order.volume - (e.order.tradedVolume + trade.volume)) = 0 ↔
      e.order.volume ≤ e.order.tradedVolume + trade.volume := by omega
  unfold tradeReportEntry applyTransition Counting
  rcases h with ⟨hl, hfull⟩ | ⟨hl, hpart⟩
  · have hzero := hleft.mpr (by omega)
    simp only [hzero, hl, canTransition_self, if_true]
    exact ⟨trivial, Or.inl ⟨trivial, by omega⟩⟩
  · by_cases hfull : e.order.volume ≤ e.order.tradedVolume + trade.volume
    · have hzero := hleft.mpr hfull
      have hcan : canTransition e.lifecycleState .filled = true := by
        rcases hl with hl | hl | hl <;> rw [hl] <;> rfl
      simp only [hzero, hcan, if_true]
      exact ⟨trivial, Or.inl ⟨trivial, hfull⟩⟩
    · have hzero : ¬max 0 (e.order.volume - (e.order.tradedVolume + trade.volume)) = 0 := fun h => hfull (hleft.mp h)
      have hcan : canTransition e.lifecycleState .partiallyFilled = true := by
        rcases hl with hl | hl | hl <;> rw [hl] <;> rfl
      simp only [hzero, hcan, if_true, if_false]
      exact ⟨trivial, Or.inr ⟨Or.inr (Or.inl trivial), by omega⟩⟩

theorem Closed.trade {e : OrderEntry} (h : Closed e) (trade : Trade) : (tradeReportEntry e trade).1 ≠ .success := by
  unfold tradeReportEntry applyTransition
  rcases h with hl | hl <;> (simp only [hl]; split <;> simp [canTransition])

theorem Counting.not_closed {e : OrderEntry} (h : Counting e) : ¬Closed e := by
  rintro (hc | hc) <;> rcases h with ⟨hl, _⟩ | ⟨hl | hl | hl, _⟩ <;> rw [hc] at hl <;> cases hl

theorem appliedVolume_cons (t : Trade) (trades : List Trade) (applied : Finset String) (orderId : String) :
    appliedVolume (t :: trades) applied orderId =
      (if t.orderId = orderId ∧ generateTradeDedupKey t ∈ applied then t.volume else 0) +
        appliedVolume trades applied orderId := by
  unfold appliedVolume
  by_cases h : t.orderId = orderId ∧ generateTradeDedupKey t ∈ applied
  · rw [List.filter_cons_of_pos (by simpa using h), if_pos h]
    simp
  · rw [List.filter_cons_of_neg (by simpa using h), if_neg h]
    simp

theorem appliedVolume_insert_other {trades : List Trade} {key : String}
    (hother : ∀ t ∈ trades, generateTradeDedupKey t ≠ key) (applied : Finset String) (orderId : String) :
    appliedVolume trades (insert key applied) orderId = appliedVolume trades applied orderId := by
  unfold appliedVolume
  congr 2
  apply List.filter_congr
  intro t ht
  have hne := hother t ht
  simp [hne]

theorem appliedVolume_insert {trades : List Trade} (hkeys : (trades.map generateTradeDedupKey).Nodup) {trade : Trade}
    (hmem : trade ∈ trades) {applied : Finset String} (hnew : generateTradeDedupKey trade ∉ applied)
    (orderId : String) : appliedVolume trades (insert (generateTradeDedupKey trade) applied) orderId =
      appliedVolume trades applied orderId + if trade.orderId = orderId then trade.volume else 0 := by
  induction trades with
  | nil => cases hmem
  | cons t rest ih =>
    rw [List.map_cons, List.nodup_cons] at hkeys
    rw [appliedVolume_cons, appliedVolume_cons]
    rcases List.mem_cons.mp hmem with rfl | hmem
    · have hother : ∀ t' ∈ rest, generateTradeDedupKey t' ≠ generateTradeDedupKey trade := by
        intro t' ht' heq
        exact hkeys.1 (List.mem_map.mpr ⟨t', ht', heq⟩)
      rw [appliedVolume_insert_other hother]
      by_cases hid : trade.orderId = orderId
      · simp [hid, hnew, Int.add_comm]
      · simp [hid]
    · have hne : generateTradeDedupKey t ≠ generateTradeDedupKey trade := by
        intro heq
        exact hkeys.1 (heq ▸ List.mem_map_of_mem hmem)
      have hsame : generateTradeDedupKey t ∈ insert (generateTradeDedupKey trade) applied ↔
          generateTradeDedupKey t ∈ applied := by simp [hne]
      have hrest := ih hkeys.2 hmem
      simp only [hsame]
      omega

theorem appliedVolume_append (trades late : List Trade) (applied : Finset String) (orderId : String) :
    appliedVolume (trades ++ late) applied orderId =
      appliedVolume trades applied orderId + appliedVolume late applied orderId := by
  simp [appliedVolume]

theorem appliedVolume_nonneg {trades : List Trade} (hv : ∀ t ∈ trades, 0 < t.volume) (applied : Finset String)
    (orderId : String) : 0 ≤ appliedVolume trades applied orderId := by
  unfold appliedVolume
  refine List.sum_nonneg fun volume hmem => ?_
  obtain ⟨t, ht, rfl⟩ := List.mem_map.mp hmem
  exact (hv t (List.mem_of_mem_filter ht)).le

theorem appliedVolume_append_new (trades : List Trade) {late : List Trade} {applied : Finset String}
    (hnew : ∀ t ∈ late, generateTradeDedupKey t ∉ applied) (orderId : String) :
    appliedVolume (trades ++ late) applied orderId = appliedVolume trades applied orderId := by
  have hnone : late.filter (fun t => t.orderId = orderId ∧ generateTradeDedupKey t ∈ applied) = [] := by
    rw [List.filter_eq_nil_iff]
    intro t ht
    simp [hnew t ht]
  unfold appliedVolume
  rw [List.filter_append, hnone, List.append_nil]

theorem appliedVolume_all {trades : List Trade} {applied : Finset String}
    (hall : ∀ t ∈ trades, generateTradeDedupKey t ∈ applied) (orderId : String) :
    appliedVolume trades applied orderId = filledVolume trades orderId := by
  unfold appliedVolume filledVolume
  congr 2
  apply List.filter_congr
  intro t ht
  simp [hall t ht]

/-! ## The table after the snapshot -/

/-- The order that the broker answered as `q` is in the table and tracked. -/
def Mirrors (trades : List Trade) (oms : OrderManager) (q o : Order) : Prop :=
  ∃ e, oms.orders.lookup q.orderId = some e ∧ Tracks trades oms.appliedTradeIds q o e

variable {trades : List Trade} {oms : OrderManager} {q o : Order}

theorem adopted_tracks (h : Orderly q) (trades : List Trade) (key : String) :
    Tracks trades ∅ q q (adoptedEntry q key) := by
  refine ⟨rfl, fun _ => rfl, ?_⟩
  have hnone : appliedVolume trades ∅ q.orderId = 0 := by simp [appliedVolume]
  have hfilled := h.filled
  have hopen := h.unfinished
  rw [hnone, Int.add_zero]
  unfold Closed Counting adoptedEntry
  cases hs : q.status <;> simp_all [lifecycleFromOrderStatus, terminalStatus]

theorem applyTradeReport_cases {trade : Trade} {e : OrderEntry} (he : oms.orders.lookup trade.orderId = some e) :
    (generateTradeDedupKey trade ∈ oms.appliedTradeIds ∧ oms.applyTradeReport trade = oms) ∨
    ((tradeReportEntry e trade).1 ≠ .success ∧ oms.applyTradeReport trade = oms) ∨
    (generateTradeDedupKey trade ∉ oms.appliedTradeIds ∧ (tradeReportEntry e trade).1 = .success ∧
      (∀ id, (oms.applyTradeReport trade).orders.lookup id =
        if id = trade.orderId then some (tradeReportEntry e trade).2 else oms.orders.lookup id) ∧
      (oms.applyTradeReport trade).appliedTradeIds =
        insert (generateTradeDedupKey trade) oms.appliedTradeIds) := by
  have hfind : oms.findOrderLocked trade.orderId trade.clientOrderId = some (trade.orderId, e) := by
    simp [findOrderLocked, he]
  unfold OrderManager.applyTradeReport
  by_cases hdup : generateTradeDedupKey trade ∈ oms.appliedTradeIds
  · rw [if_pos hdup]
    exact Or.inl ⟨hdup, rfl⟩
  rw [if_neg hdup, hfind]
  dsimp only
  by_cases hok : (tradeReportEntry e trade).1 = .success
  · rw [if_pos hok]
    exact Or.inr (Or.inr ⟨hdup, hok, fun id => Table.lookup_store _ _ _ _, rfl⟩)
  · rw [if_neg hok]
    exact Or.inr (Or.inl ⟨hok, rfl⟩)

/-- A fill keeps the table up with the broker, whether it counts or not. -/
theorem Mirrors.trade (h : Mirrors trades oms q o) (hkeys : (trades.map generateTradeDedupKey).Nodup)
    {trade : Trade} (hmem : trade ∈ trades) (hv : 0 < trade.volume)
    (hfound : ∃ e, oms.orders.lookup trade.orderId = some e) : Mirrors trades (oms.applyTradeReport trade) q o := by
  obtain ⟨e, he, ht⟩ := h
  obtain ⟨e₀, he₀⟩ := hfound
  rcases applyTradeReport_cases he₀ with ⟨_, hsame⟩ | ⟨_, hsame⟩ | ⟨hnew, hok, hlookup, hids⟩
  · rw [hsame]
    exact ⟨e, he, ht⟩
  · rw [hsame]
    exact ⟨e, he, ht⟩
  have hgrow := appliedVolume_insert hkeys hmem hnew q.orderId
  unfold Mirrors
  rw [hlookup, hids]
  by_cases hid : q.orderId = trade.orderId
  · obtain rfl : e = e₀ := Option.some.inj (he.symm.trans (hid ▸ he₀))
    rw [if_pos hid]
    obtain ⟨hvolume, htraded, _⟩ := tradeReportEntry_success hok
    rw [if_pos hid.symm] at hgrow
    have hcounting : Counting e ∧
        e.order.tradedVolume = q.tradedVolume + appliedVolume trades oms.appliedTradeIds q.orderId := by
      rcases ht.state with ⟨hclosed, _⟩ | hcounting
      · exact absurd hok (hclosed.trade trade)
      · exact hcounting
    have hadvances := (tradeReport_settles e trade)
    unfold kept at hadvances
    rw [if_pos hok] at hadvances
    refine ⟨_, rfl, hvolume.trans ht.volume, fun hterminal => ?_, Or.inr ⟨(hcounting.1.trade hv).2, ?_⟩⟩
    · have hlife := ht.taken hterminal
      rw [← hlife]
      apply hadvances.toAdvances.terminal
      rw [hlife]
      cases hs : q.status <;> simp_all [terminalStatus, lifecycleFromOrderStatus, isTerminalLifecycle]
    · rw [htraded, hcounting.2, hgrow]
      omega
  · rw [if_neg hid]
    rw [if_neg (Ne.symm hid), Int.add_zero] at hgrow
    refine ⟨e, he, ht.volume, ht.taken, ?_⟩
    rw [hgrow]
    exact ht.state

theorem Mirrors.applied (h : Mirrors trades oms q o) {trade : Trade} (hid : trade.orderId = q.orderId)
    (hv : 0 < trade.volume) (hopen : ∀ e, oms.orders.lookup q.orderId = some e → ¬Closed e) :
    generateTradeDedupKey trade ∈ (oms.applyTradeReport trade).appliedTradeIds := by
  obtain ⟨e, he, ht⟩ := h
  rcases applyTradeReport_cases (hid ▸ he) with ⟨hdup, hsame⟩ | ⟨hno, _⟩ | ⟨_, _, _, hids⟩
  · rw [hsame]
    exact hdup
  · rcases ht.state with ⟨hclosed, _⟩ | ⟨hcounting, _⟩
    · exact absurd hclosed (hopen e he)
    · exact absurd (hcounting.trade hv).1 hno
  · rw [hids]
    exact Finset.mem_insert_self _ _

theorem applyTradeReport_applied (oms : OrderManager) (trade : Trade) :
    oms.appliedTradeIds ⊆ (oms.applyTradeReport trade).appliedTradeIds := by
  unfold OrderManager.applyTradeReport
  split
  · exact Finset.Subset.refl _
  · split
    · exact Finset.Subset.refl _
    · dsimp only
      split
      · exact Finset.subset_insert _ _
      · exact Finset.Subset.refl _

theorem lookup_orderReport {report : Order} {e : OrderEntry} (he : oms.orders.lookup report.orderId = some e)
    (id : String) : (oms.applyOrderReport report).orders.lookup id =
      if id = report.orderId then some (kept e (orderReportEntry e report)) else oms.orders.lookup id := by
  have hf : oms.findOrderLocked report.orderId report.clientOrderId = some (report.orderId, e) := by
    simp [findOrderLocked, he]
  exact lookup_applyOrderReport_found hf id

theorem orderReport_end {e : OrderEntry} {report : Order}
    (hend : report.status = .canceled ∨ report.status = .rejected) :
    (canTransition e.lifecycleState (lifecycleFromOrderStatus report.status .working) = true ∧
      kept e (orderReportEntry e report) = { mergeOrderSnapshot e report with
        lifecycleState := lifecycleFromOrderStatus report.status .working }) ∨
    (canTransition e.lifecycleState (lifecycleFromOrderStatus report.status .working) = false ∧
      kept e (orderReportEntry e report) = e) := by
  have hlife : lifecycleFromOrderStatus report.status e.lifecycleState =
      lifecycleFromOrderStatus report.status .working := by
    rcases hend with hs | hs <;> rw [hs] <;> rfl
  rw [kept_orderReport, hlife]
  cases hcan : canTransition e.lifecycleState (lifecycleFromOrderStatus report.status .working)
  · exact Or.inr ⟨rfl, by simp⟩
  · exact Or.inl ⟨rfl, by simp⟩

theorem Mirrors.order (h : Mirrors trades oms q o) {report : Order}
    (hvolume : report.orderId = q.orderId → report.volume = q.volume)
    (hfound : ∃ e, oms.orders.lookup report.orderId = some e)
    (hend : report.status = .canceled ∨ report.status = .rejected)
    (hown : report.orderId = q.orderId → report = o) : Mirrors trades (oms.applyOrderReport report) q o := by
  obtain ⟨e, he, ht⟩ := h
  obtain ⟨e₀, he₀⟩ := hfound
  unfold Mirrors
  rw [lookup_orderReport he₀, appliedTradeIds_applyOrderReport]
  by_cases hid : q.orderId = report.orderId
  swap
  · rw [if_neg hid]
    exact ⟨e, he, ht⟩
  obtain rfl : e = e₀ := Option.some.inj (he.symm.trans (hid ▸ he₀))
  rw [if_pos hid]
  rcases orderReport_end (e := e) hend with ⟨hcan, hkept⟩ | ⟨_, hkept⟩
  · rw [hkept]
    refine ⟨_, rfl, ?_, fun hterminal => ?_, Or.inl ⟨?_, by rw [← hown hid.symm], ?_⟩⟩
    · have hreport := hvolume hid.symm
      have hold := ht.volume
      simp only [mergeOrderSnapshot]
      split
      · exact hreport
      · exact hold
    · have hlife := ht.taken hterminal
      have hlast : isTerminalLifecycle e.lifecycleState = true := by
        rw [hlife]
        cases hs : q.status <;> simp_all [terminalStatus, lifecycleFromOrderStatus, isTerminalLifecycle]
      exact (eq_of_terminal hcan hlast).trans hlife
    · rcases hend with hs | hs <;> simp [Closed, hs, lifecycleFromOrderStatus]
    · rw [← hown hid.symm]
      rfl
  · rw [hkept]
    exact ⟨e, rfl, ht⟩

theorem Mirrors.venue (h : Mirrors trades oms q o) {trades' : List Trade} {o' : Order}
    (happlied : appliedVolume trades' oms.appliedTradeIds q.orderId =
      appliedVolume trades oms.appliedTradeIds q.orderId)
    (hended : terminalStatus o.status = true → o'.status = o.status ∧ o'.tradedVolume = o.tradedVolume) :
    Mirrors trades' oms q o' := by
  obtain ⟨e, he, ht⟩ := h
  refine ⟨e, he, ht.volume, ht.taken, ?_⟩
  rw [happlied]
  rcases ht.state with ⟨hclosed, hlife, htraded⟩ | hcounting
  · obtain ⟨hstatus, hvolume⟩ := hended (hclosed.terminalStatus hlife)
    rw [hstatus, hvolume]
    exact Or.inl ⟨hclosed, hlife, htraded⟩
  · exact Or.inr hcounting

/-- Nothing is left out of an entry if the fills that the answer did not have are applied. -/
theorem Tracks.complete {late : List Trade} {applied : Finset String} {e : OrderEntry}
    (h : Tracks (trades ++ late) applied q o e) (hv : ∀ t ∈ trades, 0 < t.volume)
    (hall : ∀ t ∈ late, generateTradeDedupKey t ∈ applied)
    (htraded : o.tradedVolume = q.tradedVolume + filledVolume late q.orderId) :
    o.tradedVolume ≤ e.order.tradedVolume := by
  rcases h.state with ⟨-, -, hsame⟩ | ⟨-, hsum⟩
  · exact hsame.ge
  · rw [appliedVolume_append, appliedVolume_all hall] at hsum
    have hearly := appliedVolume_nonneg hv applied q.orderId
    omega

theorem Tracks.filled {applied : Finset String} {e : OrderEntry}
    (h : Tracks trades applied q o e) (hvolume : q.volume = o.volume)
    (hcounted : o.tradedVolume ≤ e.order.tradedVolume) (horderly : Orderly o) (hfilled : o.status = .filled) :
    e.lifecycleState = lifecycleFromOrderStatus o.status .working := by
  rcases h.state with ⟨_, hlife, _⟩ | ⟨⟨hlife, _⟩ | ⟨_, hpart⟩, _⟩
  · exact hlife
  · rw [hlife, hfilled]
    rfl
  · have hfull := horderly.filled hfilled
    have hentry := h.volume
    omega

/-! ## The loops of the snapshot -/

theorem Mirrors.same (h : Mirrors trades oms q o) {oms' : OrderManager} (hs : SameTables oms oms') :
    Mirrors trades oms' q o := by
  unfold Mirrors
  rw [hs.orders, hs.appliedTradeIds]
  exact h

theorem Book.mirrors {orders : List Order} (h : Book oms orders) (horderly : ∀ q ∈ orders, Orderly q)
    (trades : List Trade) (hq : q ∈ orders) : Mirrors trades oms q q := by
  refine ⟨_, (h.entries _ _).mpr ⟨q, hq, rfl, rfl⟩, ?_⟩
  rw [h.applied]
  exact adopted_tracks (horderly q hq) trades q.orderId

/-- The trade loop applies the fills that the order loop could not know of. -/
theorem takeTrades_mirrors {s : Books} {seen : List Order} {trades late : List Trade}
    (hkeys : (trades.map generateTradeDedupKey).Nodup)
    (hopen : ∀ t ∈ late, ∀ q ∈ seen, q.orderId = t.orderId → terminalStatus q.status = false)
    (taken : List Trade) (htaken : ∀ t ∈ taken, t ∈ trades ∧ 0 < t.volume ∧ ∃ q ∈ seen, q.orderId = t.orderId)
    (h : ∀ q ∈ seen, Mirrors trades s.oms q q) :
    (∀ q ∈ seen, Mirrors trades (s.takeTrades taken).oms q q) ∧
      s.oms.appliedTradeIds ⊆ (s.takeTrades taken).oms.appliedTradeIds ∧
      ∀ t ∈ taken, t ∈ late → generateTradeDedupKey t ∈ (s.takeTrades taken).oms.appliedTradeIds := by
  induction taken generalizing s with
  | nil => exact ⟨h, Finset.Subset.refl _, by simp⟩
  | cons trade rest ih =>
    obtain ⟨hmem, hv, q₀, hq₀, hid₀⟩ := htaken trade (by simp)
    have hsame := takeTrade_same s trade
    have hmirrors : ∀ q ∈ seen, Mirrors trades (s.takeTrade trade).oms q q := by
      intro q hq
      obtain ⟨e, he, _⟩ := h q₀ hq₀
      exact ((h q hq).trade hkeys hmem hv ⟨e, hid₀ ▸ he⟩).same hsame
    obtain ⟨hrest, hgrows, happlied⟩ := ih (s := s.takeTrade trade) (fun t ht => htaken t (by simp [ht])) hmirrors
    rw [hsame.appliedTradeIds] at hgrows
    refine ⟨hrest, (applyTradeReport_applied s.oms trade).trans hgrows, fun t ht hlate => ?_⟩
    rcases List.mem_cons.mp ht with rfl | ht
    · refine hgrows ((h q₀ hq₀).applied hid₀.symm hv fun e he hclosed => ?_)
      obtain ⟨e', he', htracks⟩ := h q₀ hq₀
      obtain rfl : e' = e := Option.some.inj (he'.symm.trans he)
      rcases htracks.state with ⟨_, hlife, _⟩ | ⟨hcounting, _⟩
      · have hlive := hopen t hlate q₀ hq₀ hid₀
        rw [hclosed.terminalStatus hlife] at hlive
        cases hlive
      · exact hcounting.not_closed hclosed
    · exact happlied t ht hlate

theorem takeTrades_owned_keys {s : Books} (taken : List Trade) {key : String}
    (h : key ∈ (s.takeTrades taken).oms.appliedTradeIds) :
    key ∈ s.oms.appliedTradeIds ∨ key ∈ taken.map generateTradeDedupKey := by
  induction taken generalizing s with
  | nil => exact Or.inl h
  | cons trade rest ih =>
    rcases ih (s := s.takeTrade trade) h with hc | hc
    · rw [(takeTrade_same s trade).appliedTradeIds] at hc
      rcases Finset.mem_insert.mp (s.oms.appliedTradeIds_applyTradeReport trade hc) with rfl | hc
      · exact Or.inr (by simp)
      · exact Or.inl hc
    · exact Or.inr (List.mem_cons_of_mem _ hc)

theorem synchronize_position (s : Books) (snapshot : BrokerSnapshot) :
    (s.synchronize snapshot).2.position = s.position.applyPositionSnapshot snapshot.positions := by
  have horders : (s.takeOrders snapshot.orders).position = s.position :=
    Folds.invariant_foldl (fun s' : Books => s'.position = s.position)
      (fun s' report h => by unfold Books.takeOrder; dsimp only; split <;> exact h) rfl snapshot.orders
  have htrades : ((s.takeOrders snapshot.orders).takeTrades snapshot.trades).position = s.position :=
    Folds.invariant_foldl (fun s' : Books => s'.position = s.position)
      (fun s' report h => by unfold Books.takeTrade; dsimp only; split <;> exact h) horders snapshot.trades
  unfold Books.synchronize
  dsimp only
  rw [htrades]

end Qtrade.Engine
