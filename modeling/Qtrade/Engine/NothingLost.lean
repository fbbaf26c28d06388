import Qtrade.Engine.Covered

/-!
# What `Start` misses

The callbacks are shut out until `running_` is set, which is long after the queries. A fill after
`QueryTrades` or an end after `QueryOrders` that calls back before that is lost. So is a fill whose key the positions
remember from an earlier day, since nothing clears what they remember.
-/

namespace Qtrade.Engine

open Qtrade.Oms
open Qtrade.Oms.OrderManager
open Qtrade.Account (terminalStatus)
open Qtrade.Position (PositionManager)

namespace StartSequence

variable {opening : PositionManager} {taken : List Trade} {s s' : StartSequence}

/-! ## Lane-T -/

theorem onTraderOrderReport_books (books : Books) (report : Order) :
    (books.onTraderOrderReport report).oms = books.oms.applyOrderReport report ∧
      (books.onTraderOrderReport report).position = books.position := by
  unfold Books.onTraderOrderReport
  dsimp only
  split <;> exact ⟨rfl, rfl⟩

theorem Inv.handled (h : Inv opening taken s) {books : Books} {taken' : List Trade} {event : Callback}
    {rest : List Callback} (hqueue : s.lane.queue = event :: rest) (hstage : s.stage = .finished)
    (hmirrors : ∀ o ∈ s.venue.orders, ∀ q ∈ s.snapshot.orders, q.orderId = o.orderId →
      Mirrors s.venue.trades s.books.oms q o → Mirrors s.venue.trades books.oms q o)
    (hevolves : Evolves OrderEntry.Settles s.books.oms books.oms)
    (happlied : s.books.oms.appliedTradeIds ⊆ books.oms.appliedTradeIds)
    (howned : ∀ key ∈ books.oms.appliedTradeIds, key ∈ s.venue.trades.map generateTradeDedupKey)
    (htook : (opening.applyPositionSnapshot s.snapshot.positions).Took books.position taken') (htaken : taken ⊆ taken')
    (htrade : ∀ t, event = .trade t → s.known event = true ∨
      (generateTradeDedupKey t ∈ books.oms.appliedTradeIds ∧ t ∈ taken'))
    (horder : ∀ o, event = .order o → s.known event = true ∨
      ∃ e, books.oms.orders.lookup o.orderId = some e ∧
        e.lifecycleState = lifecycleFromOrderStatus o.status .working) :
    Inv opening taken' { s with lane.queue := rest, books } where
  sound := h.sound
  policy := h.policy
  accepting := h.accepting
  started := h.started
  queue _ := h.queue (by rw [hqueue]; simp)
  callbacks c hc := h.callbacks c (hc.imp_right fun hc => hqueue ▸ List.mem_cons_of_mem _ hc)
  answer := h.answer
  since := h.since
  trades := h.trades
  positions := h.positions
  fresh hrank := by
    dsimp only at hrank
    rw [hstage] at hrank
    simp [Stage.rank] at hrank
  took _ := htook
  mirrors hrank o ho := by
    obtain ⟨q, hq, hid, hm⟩ := h.mirrors hrank o ho
    exact ⟨q, hq, hid, hmirrors o ho q hq hid hm⟩
  seen hrank t ht := (h.seen hrank t ht).imp_right fun hkey => happlied hkey
  owned := howned
  fills t ht := by
    rcases h.fills t ht with hc | hc | hc | ⟨hkey, hkey'⟩
    · exact Or.inl hc
    · rw [hqueue] at hc
      rcases List.mem_cons.mp hc with heq | hc
      · exact Or.inr (Or.inr (heq ▸ htrade t heq.symm))
      · exact Or.inr (Or.inl hc)
    · exact Or.inr (Or.inr (Or.inl hc))
    · exact Or.inr (Or.inr (Or.inr ⟨happlied hkey, htaken hkey'⟩))
  ends o ho hended := by
    have hrank : 5 ≤ s.stage.rank := by rw [hstage]; decide
    rcases h.ends o ho hended with hc | hc | hc | ⟨_, e, he, hlife⟩
    · exact Or.inl hc
    · rw [hqueue] at hc
      rcases List.mem_cons.mp hc with heq | hc
      · rcases horder o heq.symm with hknown | htaken
        · exact Or.inr (Or.inr (Or.inl (heq ▸ hknown)))
        · exact Or.inr (Or.inr (Or.inr ⟨hrank, htaken⟩))
      · exact Or.inr (Or.inl hc)
    · exact Or.inr (Or.inr (Or.inl hc))
    · obtain ⟨e', he', hsettles⟩ := hevolves.lookup he
      refine Or.inr (Or.inr (Or.inr ⟨hrank, e', he', ?_⟩))
      rw [hsettles.terminal, hlife]
      rw [hlife]
      rcases hended with hs | hs <;> rw [hs] <;> rfl

theorem Inv.handleOrder (h : Inv opening taken s) (hstage : s.stage = .finished) {report : Order}
    {rest : List Callback} (hqueue : s.lane.queue = .order report :: rest)
    (hcovered : s.known (.order report) = true ∨ s.takes (.order report) = true) :
    Inv opening taken { s with lane.queue := rest, books := s.books.onTraderOrderReport report } := by
  obtain ⟨hmem, hended⟩ : report ∈ s.venue.orders ∧ (report.status = .canceled ∨ report.status = .rejected) :=
    h.callbacks (.order report) (Or.inr (by rw [hqueue]; simp))
  obtain ⟨homs, hposition⟩ := onTraderOrderReport_books s.books report
  obtain ⟨q₀, _, hid₀, e₀, he₀, _⟩ := h.mirrors (by rw [hstage]; decide) report hmem
  rw [hid₀] at he₀
  refine h.handled hqueue hstage ?_ ?_ ?_ ?_ ?_ (fun _ ht => ht) (fun t ht => by cases ht) ?_ <;>
    simp only [homs, hposition, appliedTradeIds_applyOrderReport]
  · intro o ho q hq hid hm
    have hsame : report.orderId = q.orderId → report = o := fun hq => h.sound.unique ho hmem (hq.trans hid)
    refine hm.order (fun hq' => ?_) ⟨e₀, he₀⟩ hended hsame
    obtain ⟨q', hq'', hid', hvolume, _⟩ := (h.since (by rw [hstage]; decide)).2.orders o ho
    obtain rfl := h.answer.unique hq hq'' (hid'.trans hid.symm)
    rw [hsame hq', hvolume]
  · exact applyOrderReport_evolves s.books.oms report
  · exact Finset.Subset.refl _
  · exact h.owned
  · exact h.took (by rw [hstage]; decide)
  · rintro o ⟨⟩
    refine hcovered.imp_right fun htakes => ?_
    have hlife : lifecycleFromOrderStatus report.status e₀.lifecycleState =
        lifecycleFromOrderStatus report.status .working := by
      rcases hended with hs | hs <;> rw [hs] <;> rfl
    have hcan : canTransition e₀.lifecycleState (lifecycleFromOrderStatus report.status .working) = true := by
      simpa [takes, he₀, hlife] using htakes
    rcases orderReport_end (e := e₀) hended with ⟨_, hkept⟩ | ⟨hcannot, _⟩
    · exact ⟨_, by rw [lookup_orderReport he₀, if_pos rfl], by rw [hkept]⟩
    · rw [hcan] at hcannot
      cases hcannot

theorem accepts_iff_new {position : PositionManager} {trade : Trade} (hvalid : isValidTrade trade = true) :
    position.accepts trade = true ↔ generateTradeDedupKey trade ∉ position.appliedTradeIds := by
  simp only [isValidTrade, Bool.and_eq_true, Bool.not_eq_true', beq_eq_false_iff_ne, decide_eq_true_eq] at hvalid
  rw [PositionManager.accepts_iff]
  exact ⟨fun h => h.2.2.2, fun hnew => ⟨hvalid.1.1.1.1, hvalid.1.1.1.2, hvalid.1.1.2, hnew⟩⟩

/-- The positions take a fill, or know its key. -/
theorem took_applyTrade {base position : PositionManager} {taken : List Trade} (h : base.Took position taken)
    {trade : Trade} (hvalid : isValidTrade trade = true) :
    ∃ taken', base.Took (position.applyTrade trade) taken' ∧ taken ⊆ taken' ∧
      (generateTradeDedupKey trade ∉ position.appliedTradeIds → trade ∈ taken') := by
  cases haccepts : position.accepts trade with
  | true => exact ⟨_, h.accepted haccepts, List.subset_append_left _ _, fun _ => by simp⟩
  | false =>
    rw [PositionManager.applyTrade_refused haccepts]
    refine ⟨taken, h, List.Subset.refl _, fun hnew => ?_⟩
    rw [(accepts_iff_new hvalid).mpr hnew] at haccepts
    cases haccepts

theorem Inv.handleTrade (h : Inv opening taken s) (hstage : s.stage = .finished) {t : Trade} {rest : List Callback}
    (hqueue : s.lane.queue = .trade t :: rest)
    (hcovered : s.known (.trade t) = true ∨ s.takes (.trade t) = true) :
    ∃ taken', Inv opening taken' { s with lane.queue := rest, books := s.books.onTraderTradeReport t } := by
  have hgenuine : t ∈ s.venue.trades := h.callbacks (.trade t) (Or.inr (by rw [hqueue]; simp))
  have hvalid := h.sound.valid t hgenuine
  obtain ⟨taken', htook, hgrows, htaken⟩ := took_applyTrade (h.took (by rw [hstage]; decide)) hvalid
  obtain ⟨o₀, ho₀, hid₀⟩ := h.sound.owned t hgenuine
  obtain ⟨q₀, _, hqid₀, hm₀⟩ := h.mirrors (by rw [hstage]; decide) o₀ ho₀
  have hid : t.orderId = q₀.orderId := (hqid₀.trans hid₀).symm
  obtain ⟨e₀, he₀⟩ : ∃ e, s.books.oms.orders.lookup q₀.orderId = some e := hm₀.imp fun _ h => h.1
  refine ⟨taken', h.handled hqueue hstage ?_ ?_ ?_ ?_ htook hgrows ?_ (fun o ho => by cases ho)⟩ <;>
    simp only [Books.onTraderTradeReport]
  · intro o ho q hq hqid hm
    exact hm.trade h.sound.keys hgenuine (Venue.volume_pos hvalid) ⟨e₀, hid ▸ he₀⟩
  · exact applyTradeReport_evolves s.books.oms t
  · exact applyTradeReport_applied s.books.oms t
  · intro key hkey
    rcases Finset.mem_insert.mp (s.books.oms.appliedTradeIds_applyTradeReport t hkey) with rfl | hkey
    · exact List.mem_map_of_mem hgenuine
    · exact h.owned key hkey
  · rintro t' ⟨⟩
    refine hcovered.imp_right fun htakes => ?_
    have hheld : s.books.oms.orders.lookup t.orderId = some e₀ := hid ▸ he₀
    simp only [takes, hheld, Option.any_some, Bool.and_eq_true, bne_iff_ne, decide_eq_true_eq] at htakes
    refine ⟨hm₀.applied hid (Venue.volume_pos hvalid) fun e he hclosed => ?_, htaken htakes.2⟩
    cases he₀.symm.trans he
    exact hclosed.elim htakes.1.1 htakes.1.2

theorem Inv.handle (h : Inv opening taken s) (hok : s.keepsUpdates .handle = true) (hs : s.step .handle = some s') :
    ∃ taken', Inv opening taken' s' := by
  simp only [step] at hs
  split at hs
  case h_2 => cases hs
  case h_1 event rest hqueue =>
    split at hs
    case isFalse => cases hs
    case isTrue hlane =>
      cases hs
      have hstage := h.started (h.queue (by rw [hqueue]; simp))
      have hcovered : s.known event = true ∨ s.takes event = true := by
        simpa [keepsUpdates, hqueue] using hok
      cases event with
      | order report => exact ⟨taken, h.handleOrder hstage hqueue hcovered⟩
      | trade t => exact h.handleTrade hstage hqueue hcovered

/-! ## Whole runs -/

theorem Inv.fill (h : Inv opening taken s) {trade : Trade} (hs : s.step (.fill trade) = some s') :
    Inv opening taken s' := by
  obtain ⟨v', hv', rfl⟩ := Option.map_eq_some_iff.mp hs
  obtain ⟨_, hnew, _, _, hchange⟩ := Venue.fill_cases h.sound hv'
  have hg := h.sound.fill_goes hv'
  refine h.venue hg (by simpa using hnew) (fun c hc => ?_) (by simp) fun o ho hended => Or.inl ?_
  · rw [List.mem_singleton.mp hc]
    show trade ∈ v'.trades
    rw [hg.trades]
    exact List.mem_append_right _ (List.mem_singleton_self _)
  · subst hchange
    obtain ⟨o', ho', rfl⟩ := Venue.mem_change.mp ho
    split at hended
    case isTrue =>
      simp only [Venue.filledBy] at hended
      split at hended <;> simp at hended
    case isFalse hid => rwa [if_neg hid]

theorem Inv.finish (h : Inv opening taken s) {orderId : String} {status : OrderStatusType}
    (hs : s.step (.finish orderId status) = some s') : Inv opening taken s' := by
  obtain ⟨⟨v', report⟩, hv', rfl⟩ := Option.map_eq_some_iff.mp hs
  obtain ⟨o₀, ho₀, hid₀, _, hstatus, hreport, hchange⟩ := Venue.finish_cases hv'
  refine h.venue (h.sound.finish_goes hv') (by simp) (fun c hc => ?_) (by simp) fun o ho _ => ?_
  · rw [List.mem_singleton.mp hc]
    refine ⟨?_, by rw [hreport]; exact hstatus⟩
    dsimp only
    rw [hchange, hreport]
    exact Venue.mem_change.mpr ⟨o₀, ho₀, by rw [if_pos hid₀]⟩
  · dsimp only at ho ⊢
    rw [hchange] at ho
    obtain ⟨o', ho', rfl⟩ := Venue.mem_change.mp ho
    split
    case isTrue hid =>
      refine Or.inr (List.mem_singleton.mpr ?_)
      rw [hreport, h.sound.unique ho₀ ho' (hid.trans hid₀.symm)]
    case isFalse => exact Or.inl ho'

theorem step_inv (h : Inv opening taken s) {a : StartAction} (hok : s.keepsUpdates a = true)
    (hs : s.step a = some s') : s'.stage = .failed ∨ ∃ taken', Inv opening taken' s' := by
  cases a with
  | fill trade => exact Or.inr ⟨taken, h.fill hs⟩
  | finish orderId status => exact Or.inr ⟨taken, h.finish hs⟩
  | deliver callback => exact Or.inr ⟨taken, h.deliver hok hs⟩
  | queryOrders => exact Or.inr ⟨taken, h.queryOrders hs⟩
  | queryTrades => exact Or.inr ⟨taken, h.queryTrades hs⟩
  | queryPositions positions => exact Or.inr ⟨taken, h.queryPositions hs⟩
  | queryAsset asset => exact Or.inr ⟨taken, h.queryAsset hs⟩
  | applySnapshot => exact (h.applySnapshot hs).imp_right fun h => ⟨taken, h⟩
  | startEventLanes => exact Or.inr ⟨taken, h.startEventLanes hs⟩
  | startEngineModules => exact Or.inr ⟨taken, h.startEngineModules hs⟩
  | handle => exact Or.inr (h.handle hok hs)

theorem step_failed (h : s.stage = .failed) {a : StartAction} (hs : s.step a = some s') : s'.stage = .failed := by
  cases a with
  | fill trade => obtain ⟨_, _, rfl⟩ := Option.map_eq_some_iff.mp hs; exact h
  | finish orderId status => obtain ⟨_, _, rfl⟩ := Option.map_eq_some_iff.mp hs; exact h
  | deliver callback =>
    simp only [step] at hs
    split at hs <;> cases hs
    exact h
  | handle =>
    simp only [step] at hs
    split at hs
    · split at hs <;> cases hs
      exact h
    · cases hs
  | _ => simp [step, h] at hs

theorem inv_initial {venue : Venue} (hsound : venue.Sound) {s₀ : OrderManager} {options : OrderManagerOptions}
    {books : Books} (hinit : s₀.initializeWith options = (.success, books.oms)) :
    Inv books.position [] { venue, books } where
  sound := hsound
  policy := rfl
  accepting hrank := by simp [Stage.rank] at hrank
  started hr := by cases hr
  queue hq := absurd rfl hq
  callbacks c hc := by simp at hc
  answer := ⟨List.nodup_nil, by simp, by simp, List.nodup_nil, by simp, by simp⟩
  since hstage := absurd rfl hstage
  trades hrank := by simp [Stage.rank] at hrank
  positions hrank := by simp [Stage.rank] at hrank
  fresh _ := ⟨book_initializeWith hinit, rfl, rfl⟩
  took hrank := by simp [Stage.rank] at hrank
  mirrors hrank := by simp [Stage.rank] at hrank
  seen hrank := by simp [Stage.rank] at hrank
  owned key hkey := by
    rw [(book_initializeWith hinit).applied] at hkey
    simp at hkey
  fills _ _ := Or.inr (Or.inr (Or.inl rfl))
  ends _ _ _ := Or.inr (Or.inr (Or.inl rfl))

/-- Every fill and every end of an order is in an answer or has been applied to the books, in which the positions were
`opening` before the answer. -/
structure NothingLost (opening : PositionManager) (s : StartSequence) : Prop where
  /-- The order manager has taken each fill that the answer to `QueryOrders` did not have. -/
  orders : ∀ trade ∈ s.venue.trades, trade ∈ s.venue.trades.take s.ordersSeen ∨
    generateTradeDedupKey trade ∈ s.books.oms.appliedTradeIds
  /-- It has counted what it has taken, or has the last figure of an order that was canceled or rejected. -/
  volumes : ∀ order ∈ s.venue.orders, ∃ e, s.books.oms.orders.lookup order.orderId = some e ∧
    order.tradedVolume ≤ e.order.tradedVolume ∧
    ((Closed e ∧ e.order.tradedVolume = order.tradedVolume) ∨
      ∃ answer ∈ s.snapshot.orders, answer.orderId = order.orderId ∧ e.order.tradedVolume =
        answer.tradedVolume + appliedVolume s.venue.trades s.books.oms.appliedTradeIds order.orderId)
  /-- The positions come from the answer to `QueryPositions` by fills, among them each that it did not have. -/
  positions : ∃ taken, (opening.applyPositionSnapshot s.snapshot.positions).Took s.books.position taken ∧
    ∀ trade ∈ s.venue.trades, trade ∈ s.venue.trades.take s.positionsSeen ∨ trade ∈ taken
  ends : ∀ order ∈ s.venue.orders, terminalStatus order.status = true →
    ∃ e, s.books.oms.orders.lookup order.orderId = some e ∧
      e.lifecycleState = lifecycleFromOrderStatus order.status .working

theorem Inv.fill_kept (h : Inv opening taken s) (hstage : s.stage = .finished) (hflight : s.inFlight = [])
    (hqueue : s.lane.queue = []) {t : Trade} (ht : t ∈ s.venue.trades) :
    t ∈ s.venue.trades.take s.tradesSeen ∨
      (generateTradeDedupKey t ∈ s.books.oms.appliedTradeIds ∧ t ∈ taken) := by
  rcases h.fills t ht with hc | hc | hc | hc
  · rw [hflight] at hc; cases hc
  · rw [hqueue] at hc; cases hc
  · rw [known_trade, hstage] at hc
    exact Or.inl ((hc.resolve_left (by decide)).resolve_left (by decide))
  · exact Or.inr hc

theorem Inv.counted (h : Inv opening taken s) (hrank : 5 ≤ s.stage.rank) (hne : s.stage ≠ .queryOrders)
    (hkept : ∀ t ∈ s.venue.trades, t ∈ s.venue.trades.take s.ordersSeen ∨
      generateTradeDedupKey t ∈ s.books.oms.appliedTradeIds) {o : Order} (ho : o ∈ s.venue.orders) :
    ∃ q ∈ s.snapshot.orders, q.orderId = o.orderId ∧ q.volume = o.volume ∧
      ∃ e, s.books.oms.orders.lookup o.orderId = some e ∧
        Tracks s.venue.trades s.books.oms.appliedTradeIds q o e ∧ o.tradedVolume ≤ e.order.tradedVolume := by
  obtain ⟨q, hq, hid, e, he, ht⟩ := h.mirrors hrank o ho
  obtain ⟨q', hq', hid', hvolume, htraded, _⟩ := (h.since hne).2.orders o ho
  obtain rfl := h.answer.unique hq hq' (hid'.trans hid.symm)
  refine ⟨q', hq, hid, hvolume, e, hid ▸ he, ht, ?_⟩
  have hlate : ∀ t ∈ s.venue.trades.drop s.ordersSeen, generateTradeDedupKey t ∈ s.books.oms.appliedTradeIds := by
    intro t hlate
    refine (hkept t (List.mem_of_mem_drop hlate)).resolve_left fun hearly => ?_
    exact List.disjoint_take_drop h.sound.keys.of_map (Nat.le_refl _) hearly hlate
  rw [← List.take_append_drop s.ordersSeen s.venue.trades] at ht
  refine ht.complete (fun t hmem => Venue.volume_pos (h.sound.valid t (List.mem_of_mem_take hmem))) hlate ?_
  rw [hid]
  exact htraded

theorem Inv.ended_kept (h : Inv opening taken s) (hstage : s.stage = .finished) (hflight : s.inFlight = [])
    (hqueue : s.lane.queue = []) {o : Order} (ho : o ∈ s.venue.orders)
    (hstatus : o.status = .canceled ∨ o.status = .rejected) :
    ∃ e, s.books.oms.orders.lookup o.orderId = some e ∧
      e.lifecycleState = lifecycleFromOrderStatus o.status .working := by
  rcases h.ends o ho hstatus with hc | hc | hc | ⟨_, hc⟩
  · rw [hflight] at hc; cases hc
  · rw [hqueue] at hc; cases hc
  · simp only [known, hstage, Bool.or_eq_true, beq_iff_eq, reduceCtorEq, false_or, List.any_eq_true,
      Bool.and_eq_true] at hc
    obtain ⟨q', hq', hid', hsame⟩ := hc
    obtain ⟨q, hq, hid, e, he, ht⟩ := h.mirrors (by rw [hstage]; decide) o ho
    obtain rfl := h.answer.unique hq hq' (hid'.trans hid.symm)
    refine ⟨e, hid ▸ he, ?_⟩
    rw [ht.taken (by rw [hsame]; rcases hstatus with hs | hs <;> rw [hs] <;> rfl), hsame]
  · exact hc

theorem Inv.nothingLost (h : Inv opening taken s) (hstage : s.stage = .finished) (hflight : s.inFlight = [])
    (hqueue : s.lane.queue = []) : NothingLost opening s := by
  have hrank : 5 ≤ s.stage.rank := by rw [hstage]; decide
  have hne : s.stage ≠ .queryOrders := by rw [hstage]; decide
  have horders : ∀ t ∈ s.venue.trades, t ∈ s.venue.trades.take s.ordersSeen ∨
      generateTradeDedupKey t ∈ s.books.oms.appliedTradeIds := by
    intro t ht
    rcases h.fill_kept hstage hflight hqueue ht with hseen | ⟨hkey, _⟩
    · exact h.seen hrank t hseen
    · exact Or.inr hkey
  refine ⟨horders, fun o ho => ?_, ⟨taken, h.took hrank, fun t ht => ?_⟩, fun o ho hended => ?_⟩
  · obtain ⟨q, hq, hid, -, e, he, ht, hle⟩ := h.counted hrank hne horders ho
    refine ⟨e, he, hle, ?_⟩
    rcases ht.state with ⟨hclosed, -, hsame⟩ | ⟨-, hsum⟩
    · exact Or.inl ⟨hclosed, hsame⟩
    · exact Or.inr ⟨q, hq, hid, hid ▸ hsum⟩
  · rcases h.fill_kept hstage hflight hqueue ht with hseen | ⟨_, htaken⟩
    · exact Or.inl (List.take_subset_take_left _ (h.positions (by omega)).1 hseen)
    · exact Or.inr htaken
  · by_cases hfilled : o.status = .filled
    · obtain ⟨q, -, -, hvolume, e, he, ht, hle⟩ := h.counted hrank hne horders ho
      exact ⟨e, he, ht.filled hvolume hle (h.sound.orderly o ho) hfilled⟩
    · refine h.ended_kept hstage hflight hqueue ho ?_
      cases hs : o.status <;> simp_all [terminalStatus]

/-- In every run in which callbacks are dropped only when the queries cover them, and Lane-T takes only
uncovered callbacks that the books accept, nothing is lost. -/
theorem start_nothing_lost {venue : Venue} (hsound : venue.Sound) {s₀ : OrderManager} {options : OrderManagerOptions}
    {books : Books} (hinit : s₀.initializeWith options = (.success, books.oms))
    (h : Runs.Reaches step (fun s a => s.keepsUpdates a = true) { venue, books } s) (hstage : s.stage = .finished)
    (hflight : s.inFlight = []) (hqueue : s.lane.queue = []) : NothingLost books.position s := by
  have hinv : s.stage = .failed ∨ ∃ taken, Inv books.position taken s := by
    refine h.invariant (P := fun s => s.stage = .failed ∨ ∃ taken, Inv books.position taken s)
      (Or.inr ⟨[], inv_initial hsound hinit⟩) ?_
    rintro s₁ a s₂ (hfailed | ⟨taken, hinv⟩) hok hs
    · exact Or.inl (step_failed hfailed hs)
    · exact step_inv hinv hok hs
  rcases hinv with hfailed | ⟨taken, hinv⟩
  · rw [hstage] at hfailed
    cases hfailed
  · exact hinv.nothingLost hstage hflight hqueue

/-! ## A fill during `Start` -/

def oneOrder : Venue where
  orders := [{ orderId := "o", clientOrderId := 1, instrument := "i", volume := 4, leftVolume := 4 }]

def oneFill : Trade := { tradeId := "t", orderId := "o", instrument := "i", price := .ofInt 10, volume := 2 }

theorem oneOrder_sound : oneOrder.Sound := by
  refine ⟨by decide, ?_, ?_, by decide, by simp [oneOrder], by simp [oneOrder]⟩
  · intro o ho o' ho' _ _
    rw [List.mem_singleton.mp ho, List.mem_singleton.mp ho']
  · intro o ho
    rw [List.mem_singleton.mp ho]
    constructor <;> decide

def halfCanceled : Order :=
  { orderId := "o", clientOrderId := 1, instrument := "i", volume := 4, tradedVolume := 2, leftVolume := 2
    status := .canceled }

/-- The fill comes after the queries and calls back in time, and then the rest is canceled. -/
def inTime : List StartAction :=
  [.queryOrders, .queryTrades, .fill oneFill, .queryPositions [], .queryAsset {}, .applySnapshot, .startEventLanes,
    .startEngineModules, .deliver (.trade oneFill), .handle, .finish "o" .canceled,
    .deliver (.order halfCanceled), .handle]

theorem start_nothing_lost_in_time : ∃ s,
    Runs.Reaches step (fun s a => s.keepsUpdates a = true) { venue := oneOrder, books := { oms := fresh } } s ∧
      s.venue.trades = [oneFill] ∧ NothingLost {} s := by
  have hrun : ∃ s ∈ Runs.execWhile step (fun s a => s.keepsUpdates a = true)
      { venue := oneOrder, books := { oms := fresh } } inTime,
      s.stage = .finished ∧ s.inFlight = [] ∧ s.lane.queue = [] ∧ s.venue.trades = [oneFill] := by decide +kernel
  obtain ⟨s, hs, hstage, hflight, hqueue, htrades⟩ := hrun
  have hreach := Runs.reaches_of_execWhile _ hs
  exact ⟨s, hreach, htrades, start_nothing_lost oneOrder_sound fresh_initialized hreach hstage hflight hqueue⟩

/-- The fill comes after `QueryTrades` and calls back before `running_` is set. -/
def tooEarly : List StartAction :=
  [.queryOrders, .queryTrades, .fill oneFill, .deliver (.trade oneFill), .queryPositions [], .queryAsset {},
    .applySnapshot, .startEventLanes, .startEngineModules]

theorem start_loses_fill : ¬ ∀ (venue : Venue) (s₀ : OrderManager) (options : OrderManagerOptions) (books : Books)
    (s : StartSequence), venue.Sound → s₀.initializeWith options = (.success, books.oms) →
    Runs.Reaches step Runs.anyStep { venue, books } s → s.stage = .finished → s.inFlight = [] → s.lane.queue = [] →
    NothingLost books.position s := by
  intro hall
  have hrun : ∃ s ∈ Runs.exec step { venue := oneOrder, books := { oms := fresh } } tooEarly,
      s.stage = .finished ∧ s.inFlight = [] ∧ s.lane.queue = [] ∧ s.venue.trades = [oneFill] ∧ s.ordersSeen = 0 ∧
        s.books.oms.appliedTradeIds = ∅ := by decide +kernel
  obtain ⟨s, hs, hstage, hflight, hqueue, htrades, hseen, happlied⟩ := hrun
  have hlost := hall oneOrder {} ⟨"q", "e", 1⟩ { oms := fresh } s oneOrder_sound fresh_initialized
    (Runs.reaches_of_exec _ hs) hstage hflight hqueue
  have hfill := hlost.orders oneFill (by rw [htrades]; exact List.mem_singleton_self _)
  rw [htrades, hseen, happlied] at hfill
  simp at hfill

end StartSequence

end Qtrade.Engine
