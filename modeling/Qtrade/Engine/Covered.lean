import Qtrade.Engine.Mirrors
import Qtrade.Engine.StartSequence
import Qtrade.Position.Trades

/-!
# What the books know while `Start` goes on

A callback may be dropped where the queries cover it, and else has to get through Lane-T into the books. What the
venue and the steps of `Start` do to that.
-/

namespace Qtrade.Engine

open Qtrade.Oms
open Qtrade.Oms.OrderManager
open Qtrade.Account (terminalStatus)
open Qtrade.Position (PositionManager)

namespace StartSequence

/-! ## The condition and the invariant -/

/-- No harm is done when this callback is dropped: what it says is in an answer, or a query is still
to come. -/
def known (s : StartSequence) : Callback → Bool
  | .order report => s.stage == .queryOrders ||
      s.snapshot.orders.any fun order => order.orderId == report.orderId && order.status == report.status
  | .trade report => s.stage == .queryOrders || s.stage == .queryTrades ||
      decide (report ∈ s.venue.trades.take s.tradesSeen)

/-- The state graph has an edge for what the callback says, and the positions do not know the fill yet. -/
def takes (s : StartSequence) : Callback → Bool
  | .order report => (s.books.oms.orders.lookup report.orderId).any fun e =>
      canTransition e.lifecycleState (lifecycleFromOrderStatus report.status e.lifecycleState)
  | .trade report => (s.books.oms.orders.lookup report.orderId).any fun e =>
      e.lifecycleState != .canceled && e.lifecycleState != .rejected &&
        decide (generateTradeDedupKey report ∉ s.books.position.appliedTradeIds)

/-- A callback that nothing else covers gets into the queue, and the books take it from there. -/
def keepsUpdates (s : StartSequence) : StartAction → Bool
  | .deliver callback => s.running && !s.lane.full || s.known callback
  | .handle => s.lane.queue.head?.all fun callback => s.known callback || s.takes callback
  | _ => true

/-- A callback is about what happened. -/
def Genuine (v : Venue) : Callback → Prop
  | .order report => report ∈ v.orders ∧ (report.status = .canceled ∨ report.status = .rejected)
  | .trade report => report ∈ v.trades

/-- The positions were `opening` before `Start`, and the fills that they have taken since the answer are `taken`. -/
structure Inv (opening : PositionManager) (taken : List Trade) (s : StartSequence) : Prop where
  sound : s.venue.Sound
  policy : s.lane.policy = {}
  accepting : 6 ≤ s.stage.rank → s.lane.accepting = true
  started : s.running = true → s.stage = .finished
  queue : s.lane.queue ≠ [] → s.running = true
  callbacks : ∀ c, c ∈ s.inFlight ∨ c ∈ s.lane.queue → Genuine s.venue c
  answer : ({ orders := s.snapshot.orders } : Venue).Sound
  since : s.stage ≠ .queryOrders → s.ordersSeen ≤ s.venue.trades.length ∧
    Since s.snapshot.orders (s.venue.trades.drop s.ordersSeen) s.venue
  trades : 2 ≤ s.stage.rank → s.tradesSeen ≤ s.venue.trades.length ∧
    s.snapshot.trades = s.venue.trades.take s.tradesSeen
  positions : 3 ≤ s.stage.rank → s.tradesSeen ≤ s.positionsSeen ∧ s.positionsSeen ≤ s.venue.trades.length
  fresh : s.stage.rank ≤ 4 → Book s.books.oms [] ∧ s.books.position = opening ∧ taken = []
  took : 5 ≤ s.stage.rank → (opening.applyPositionSnapshot s.snapshot.positions).Took s.books.position taken
  mirrors : 5 ≤ s.stage.rank → ∀ o ∈ s.venue.orders, ∃ q ∈ s.snapshot.orders, q.orderId = o.orderId ∧
    Mirrors s.venue.trades s.books.oms q o
  seen : 5 ≤ s.stage.rank → ∀ t ∈ s.venue.trades.take s.tradesSeen, t ∈ s.venue.trades.take s.ordersSeen ∨
    generateTradeDedupKey t ∈ s.books.oms.appliedTradeIds
  owned : ∀ key ∈ s.books.oms.appliedTradeIds, key ∈ s.venue.trades.map generateTradeDedupKey
  fills : ∀ t ∈ s.venue.trades, .trade t ∈ s.inFlight ∨ .trade t ∈ s.lane.queue ∨ s.known (.trade t) = true ∨
    (generateTradeDedupKey t ∈ s.books.oms.appliedTradeIds ∧ t ∈ taken)
  ends : ∀ o ∈ s.venue.orders, o.status = .canceled ∨ o.status = .rejected → .order o ∈ s.inFlight ∨
    .order o ∈ s.lane.queue ∨ s.known (.order o) = true ∨
    (5 ≤ s.stage.rank ∧ ∃ e, s.books.oms.orders.lookup o.orderId = some e ∧
      e.lifecycleState = lifecycleFromOrderStatus o.status .working)

variable {opening : PositionManager} {taken : List Trade} {s s' : StartSequence}

theorem rank_of_ne {stage : Stage} (h : stage ≠ .queryOrders) (h' : stage ≠ .queryTrades) : 2 ≤ stage.rank := by
  cases stage <;> simp_all [Stage.rank]

theorem known_trade {t : Trade} : s.known (.trade t) = true ↔
    s.stage = .queryOrders ∨ s.stage = .queryTrades ∨ t ∈ s.venue.trades.take s.tradesSeen := by
  simp [known, or_assoc]

theorem Inv.known_append (h : Inv opening taken s) {v' : Venue} {late : List Trade}
    (hv : v'.trades = s.venue.trades ++ late)
    (inFlight : List Callback) {c : Callback} (hc : s.known c = true) :
    ({ s with venue := v', inFlight } : StartSequence).known c = true := by
  cases c with
  | order report => exact hc
  | trade t =>
    rw [known_trade] at hc ⊢
    by_cases h₀ : s.stage = .queryOrders
    · exact Or.inl h₀
    by_cases h₁ : s.stage = .queryTrades
    · exact Or.inr (Or.inl h₁)
    refine Or.inr (Or.inr ?_)
    have hle := (h.trades (rank_of_ne h₀ h₁)).1
    dsimp only
    rw [hv, List.take_append_of_le_length hle]
    simpa [h₀, h₁] using hc

theorem Genuine.goes {v v' : Venue} {late : List Trade} {c : Callback} (hc : Genuine v c)
    (hg : v.Goes v' late) : Genuine v' c := by
  cases c with
  | trade t =>
    have ht : t ∈ v.trades := hc
    show t ∈ v'.trades
    rw [hg.trades]
    exact List.mem_append_left _ ht
  | order report =>
    obtain ⟨hmem, hended⟩ := hc
    obtain ⟨o', ho', _, hsame⟩ := hg.kept report hmem
    have hterminal : terminalStatus report.status = true := by
      rcases hended with hs | hs <;> rw [hs] <;> rfl
    exact ⟨hsame hterminal ▸ ho', hended⟩

/-- An event at the venue whose callback is on its way. -/
theorem Inv.venue (h : Inv opening taken s) {v' : Venue} {late : List Trade} {sent : List Callback}
    (hg : s.venue.Goes v' late)
    (hnew : ∀ t ∈ late, generateTradeDedupKey t ∉ s.venue.trades.map generateTradeDedupKey)
    (hgenuine : ∀ c ∈ sent, Genuine v' c) (hfills : ∀ t ∈ late, .trade t ∈ sent)
    (hends : ∀ o ∈ v'.orders, o.status = .canceled ∨ o.status = .rejected → o ∈ s.venue.orders ∨ .order o ∈ sent) :
    Inv opening taken { s with venue := v', inFlight := s.inFlight ++ sent } := by
  have hdrop : s.stage ≠ .queryOrders →
      v'.trades.drop s.ordersSeen = s.venue.trades.drop s.ordersSeen ++ late := by
    intro hstage
    rw [hg.trades, List.drop_append_of_le_length (h.since hstage).1]
  have hlength : s.venue.trades.length ≤ v'.trades.length := by simp [hg.trades]
  have htake : ∀ n, n ≤ s.venue.trades.length → v'.trades.take n = s.venue.trades.take n := by
    intro n hn
    rw [hg.trades, List.take_append_of_le_length hn]
  have hlater : 5 ≤ s.stage.rank → s.stage ≠ .queryOrders := by
    rintro hrank hstage
    rw [hstage] at hrank
    simp [Stage.rank] at hrank
  constructor
  case sound => exact hg.sound
  case took => exact h.took
  case policy => exact h.policy
  case accepting => exact h.accepting
  case started => exact h.started
  case queue => exact h.queue
  case answer => exact h.answer
  case fresh => exact h.fresh
  case callbacks =>
    intro c hc
    rcases hc with hc | hc
    · rcases List.mem_append.mp hc with hc | hc
      · exact (h.callbacks c (Or.inl hc)).goes hg
      · exact hgenuine c hc
    · exact (h.callbacks c (Or.inr hc)).goes hg
  case since =>
    intro hstage
    obtain ⟨hle, hsince⟩ := h.since hstage
    refine ⟨hle.trans hlength, ?_⟩
    dsimp only
    rw [hdrop hstage]
    exact hsince.goes h.answer hg
  case trades =>
    intro hrank
    obtain ⟨hle, hanswer⟩ := h.trades hrank
    exact ⟨hle.trans hlength, hanswer.trans (htake _ hle).symm⟩
  case positions =>
    intro hrank
    obtain ⟨hle, hseen⟩ := h.positions hrank
    exact ⟨hle, hseen.trans hlength⟩
  case mirrors =>
    intro hrank o' ho'
    obtain ⟨o, ho, hid, _, _, hended⟩ := hg.origin o' ho'
    obtain ⟨q, hq, hqid, hmirrors⟩ := h.mirrors hrank o ho
    refine ⟨q, hq, hqid.trans hid.symm, hmirrors.venue ?_ fun hterminal => by simp [hended hterminal]⟩
    dsimp only
    rw [hg.trades]
    exact appliedVolume_append_new _ (fun t ht happlied => hnew t ht (h.owned _ happlied)) _
  case seen =>
    intro hrank t ht
    dsimp only at ht ⊢
    rw [htake _ (h.trades (Nat.le_trans (by decide) hrank)).1] at ht
    rw [htake _ (h.since (hlater hrank)).1]
    exact h.seen hrank t ht
  case owned =>
    intro key hkey
    dsimp only
    rw [hg.trades, List.map_append]
    exact List.mem_append_left _ (h.owned key hkey)
  case fills =>
    intro t ht
    dsimp only at ht
    rw [hg.trades] at ht
    rcases List.mem_append.mp ht with ht | ht
    · rcases h.fills t ht with hc | hc | hc | hc
      · exact Or.inl (List.mem_append_left _ hc)
      · exact Or.inr (Or.inl hc)
      · exact Or.inr (Or.inr (Or.inl (h.known_append hg.trades _ hc)))
      · exact Or.inr (Or.inr (Or.inr hc))
    · exact Or.inl (List.mem_append_right _ (hfills t ht))
  case ends =>
    intro o ho hended
    rcases hends o ho hended with ho | hsent
    · rcases h.ends o ho hended with hc | hc | hc | hc
      · exact Or.inl (List.mem_append_left _ hc)
      · exact Or.inr (Or.inl hc)
      · exact Or.inr (Or.inr (Or.inl (h.known_append hg.trades _ hc)))
      · exact Or.inr (Or.inr (Or.inr hc))
    · exact Or.inl (List.mem_append_right _ hsent)

theorem Inv.moved (h : Inv opening taken s) {inFlight : List Callback} {lane : EventReactorLoop}
    (hpolicy : lane.policy = s.lane.policy) (haccepting : lane.accepting = s.lane.accepting)
    (hqueue : lane.queue ≠ [] → s.running = true)
    (hback : ∀ c, c ∈ inFlight ∨ c ∈ lane.queue → c ∈ s.inFlight ∨ c ∈ s.lane.queue)
    (hforth : ∀ c, c ∈ s.inFlight ∨ c ∈ s.lane.queue → c ∈ inFlight ∨ c ∈ lane.queue ∨ s.known c = true) :
    Inv opening taken { s with inFlight, lane } where
  sound := h.sound
  policy := hpolicy.trans h.policy
  accepting hrank := haccepting.trans (h.accepting hrank)
  started := h.started
  queue := hqueue
  callbacks c hc := h.callbacks c (hback c hc)
  answer := h.answer
  since := h.since
  trades := h.trades
  positions := h.positions
  fresh := h.fresh
  took := h.took
  mirrors := h.mirrors
  seen := h.seen
  owned := h.owned
  fills t ht := by
    rcases h.fills t ht with hc | hc | hc
    · exact (hforth _ (Or.inl hc)).imp_right (Or.imp_right Or.inl)
    · exact (hforth _ (Or.inr hc)).imp_right (Or.imp_right Or.inl)
    · exact Or.inr (Or.inr hc)
  ends o ho hended := by
    rcases h.ends o ho hended with hc | hc | hc
    · exact (hforth _ (Or.inl hc)).imp_right (Or.imp_right Or.inl)
    · exact (hforth _ (Or.inr hc)).imp_right (Or.imp_right Or.inl)
    · exact Or.inr (Or.inr hc)

theorem Inv.isValid (h : Inv opening taken s) {c : Callback} (hc : c ∈ s.inFlight) : isValid c = true := by
  have hgenuine := h.callbacks c (Or.inl hc)
  cases c with
  | order report => exact (h.sound.orderly report hgenuine.1).isValid
  | trade t => exact h.sound.valid t hgenuine

/-- A callback that comes in gets into the queue or is known. -/
theorem Inv.deliver (h : Inv opening taken s) {c : Callback} (hok : s.keepsUpdates (.deliver c) = true)
    (hs : s.step (.deliver c) = some s') : Inv opening taken s' := by
  simp only [step] at hs
  split at hs
  case isFalse => cases hs
  case isTrue hc =>
    cases hs
    have hstay : ∀ c', c' ∈ s.inFlight → c' ∈ s.inFlight.erase c ∨ c' = c := by
      intro c' hc'
      by_cases heq : c' = c
      · exact Or.inr heq
      · exact Or.inl ((List.mem_erase_of_ne heq).mpr hc')
    have hdropped : s.known c = true →
        Inv opening taken { s with inFlight := s.inFlight.erase c, lane := s.lane } := by
      intro hknown
      refine h.moved rfl rfl h.queue (fun c' hc' => hc'.imp_left List.mem_of_mem_erase) fun c' hc' => ?_
      rcases hc' with hc' | hc'
      · rcases hstay c' hc' with hc' | rfl
        · exact Or.inl hc'
        · exact Or.inr (Or.inr hknown)
      · exact Or.inr (Or.inl hc')
    simp only [keepsUpdates, Bool.or_eq_true, Bool.and_eq_true, Bool.not_eq_true'] at hok
    rw [h.isValid hc, Bool.and_true]
    by_cases hrunning : s.running = true
    · have haccepting := h.accepting (by rw [h.started hrunning]; decide)
      rw [if_pos hrunning]
      by_cases hfull : s.lane.full = true
      · have hknown : s.known c = true := by
          rcases hok with ⟨_, hroom⟩ | hknown
          · rw [hfull] at hroom; cases hroom
          · exact hknown
        rw [EventReactorLoop.publish_full (by rw [h.policy]) hfull]
        exact hdropped hknown
      · rw [EventReactorLoop.publish_room haccepting (by simpa using hfull)]
        refine h.moved rfl rfl (fun _ => hrunning) ?_ ?_
        · intro c' hc'
          rcases hc' with hc' | hc'
          · exact Or.inl (List.mem_of_mem_erase hc')
          · rcases List.mem_append.mp hc' with hc' | hc'
            · exact Or.inr hc'
            · rw [List.mem_singleton.mp hc']
              exact Or.inl hc
        · intro c' hc'
          rcases hc' with hc' | hc'
          · rcases hstay c' hc' with hc' | rfl
            · exact Or.inl hc'
            · exact Or.inr (Or.inl (List.mem_append_right _ (List.mem_singleton_self _)))
          · exact Or.inr (Or.inl (List.mem_append_left _ hc'))
    · rw [if_neg hrunning]
      exact hdropped (hok.resolve_left fun hin => hrunning hin.1)

/-! ### The steps of `Start` -/

theorem not_running (h : Inv opening taken s) (hstage : s.stage ≠ .finished) : s.running ≠ true :=
  fun hr => hstage (h.started hr)

theorem Inv.queryOrders (h : Inv opening taken s) (hs : s.step .queryOrders = some s') : Inv opening taken s' := by
  simp only [step] at hs
  split at hs
  case isFalse => cases hs
  case isTrue hstage =>
    cases hs
    have hrunning := not_running h (by rw [hstage]; decide)
    constructor
    case sound => exact h.sound
    case policy => exact h.policy
    case queue => exact h.queue
    case callbacks => exact h.callbacks
    case owned => exact h.owned
    case started => exact fun hr => absurd hr hrunning
    case answer => exact ⟨h.sound.ids, h.sound.clients, h.sound.orderly, List.nodup_nil, by simp, by simp⟩
    case since =>
      refine fun _ => ⟨Nat.le_refl _, ?_⟩
      dsimp only
      rw [List.drop_length]
      exact Since.now s.venue
    case fresh => exact fun _ => h.fresh (by rw [hstage]; decide)
    case fills => exact fun t _ => Or.inr (Or.inr (Or.inl (known_trade.mpr (Or.inr (Or.inl rfl)))))
    case ends =>
      intro o ho _
      refine Or.inr (Or.inr (Or.inl ?_))
      simp only [known, Bool.or_eq_true]
      exact Or.inr (List.any_eq_true.mpr ⟨o, ho, by simp⟩)
    all_goals
      intro hrank
      simp [Stage.rank] at hrank

theorem ends_known {o : Order} (hstage : s.stage ≠ .queryOrders) (hsame : s'.snapshot.orders = s.snapshot.orders)
    (hc : s.known (.order o) = true) : s'.known (.order o) = true := by
  simp only [known, hsame, Bool.or_eq_true, beq_iff_eq] at hc ⊢
  exact Or.inr (hc.resolve_left hstage)

theorem Inv.queryTrades (h : Inv opening taken s) (hs : s.step .queryTrades = some s') : Inv opening taken s' := by
  simp only [step] at hs
  split at hs
  case isFalse => cases hs
  case isTrue hstage =>
    cases hs
    have hrunning := not_running h (by rw [hstage]; decide)
    have hne : s.stage ≠ .queryOrders := by rw [hstage]; decide
    constructor
    case sound => exact h.sound
    case policy => exact h.policy
    case queue => exact h.queue
    case callbacks => exact h.callbacks
    case owned => exact h.owned
    case started => exact fun hr => absurd hr hrunning
    case answer => exact h.answer
    case since => exact fun _ => h.since hne
    case trades => exact fun _ => ⟨Nat.le_refl _, List.take_length.symm⟩
    case fresh => exact fun _ => h.fresh (by rw [hstage]; decide)
    case fills =>
      refine fun t ht => Or.inr (Or.inr (Or.inl (known_trade.mpr (Or.inr (Or.inr ?_)))))
      dsimp only
      rw [List.take_length]
      exact ht
    case ends =>
      intro o ho hended
      rcases h.ends o ho hended with hc | hc | hc | ⟨hrank, _⟩
      · exact Or.inl hc
      · exact Or.inr (Or.inl hc)
      · exact Or.inr (Or.inr (Or.inl (ends_known hne rfl hc)))
      · rw [hstage] at hrank
        simp [Stage.rank] at hrank
    all_goals
      intro hrank
      simp [Stage.rank] at hrank

theorem Inv.onward (h : Inv opening taken s) {stage : Stage} {positions : List Qtrade.Position} {asset : AccountAsset}
    {positionsSeen : Nat} {accepting running : Bool} (hrank : 2 ≤ s.stage.rank) (hnext : s.stage.rank ≤ stage.rank)
    (hstep : 5 ≤ stage.rank → 5 ≤ s.stage.rank) (haccepting : 6 ≤ stage.rank → accepting = true)
    (hstarted : running = true → stage = .finished) (hrunning : running = true ∨ running = s.running)
    (hpositions : 3 ≤ stage.rank → s.tradesSeen ≤ positionsSeen ∧ positionsSeen ≤ s.venue.trades.length)
    (hanswer : 5 ≤ s.stage.rank → positions = s.snapshot.positions) :
    Inv opening taken { s with
      stage
      snapshot.positions := positions
      snapshot.asset := asset
      positionsSeen
      lane.accepting := accepting
      running } := by
  have hne : s.stage ≠ .queryOrders := fun hstage => by rw [hstage] at hrank; simp [Stage.rank] at hrank
  have hne' : s.stage ≠ .queryTrades := fun hstage => by rw [hstage] at hrank; simp [Stage.rank] at hrank
  constructor
  case sound => exact h.sound
  case policy => exact h.policy
  case accepting => exact haccepting
  case started => exact hstarted
  case queue =>
    intro hq
    rcases hrunning with hr | hr
    · exact hr
    · exact hr.trans (h.queue hq)
  case callbacks => exact h.callbacks
  case answer => exact h.answer
  case since => exact fun _ => h.since hne
  case trades => exact fun _ => h.trades hrank
  case positions => exact hpositions
  case fresh => exact fun hle => h.fresh (hnext.trans hle)
  case took =>
    intro hle
    dsimp only
    rw [hanswer (hstep hle)]
    exact h.took (hstep hle)
  case mirrors => exact fun hle => h.mirrors (hstep hle)
  case seen => exact fun hle => h.seen (hstep hle)
  case owned => exact h.owned
  case fills =>
    intro t ht
    rcases h.fills t ht with hc | hc | hc | hc
    · exact Or.inl hc
    · exact Or.inr (Or.inl hc)
    · rw [known_trade] at hc
      exact Or.inr (Or.inr (Or.inl (known_trade.mpr (Or.inr (Or.inr ((hc.resolve_left hne).resolve_left hne'))))))
    · exact Or.inr (Or.inr (Or.inr hc))
  case ends =>
    intro o ho hended
    rcases h.ends o ho hended with hc | hc | hc | ⟨hle, hc⟩
    · exact Or.inl hc
    · exact Or.inr (Or.inl hc)
    · exact Or.inr (Or.inr (Or.inl (ends_known hne rfl hc)))
    · exact Or.inr (Or.inr (Or.inr ⟨hle.trans hnext, hc⟩))

theorem Inv.queryPositions (h : Inv opening taken s) {positions : List Qtrade.Position}
    (hs : s.step (.queryPositions positions) = some s') : Inv opening taken s' := by
  simp only [step] at hs
  split at hs
  case isFalse => cases hs
  case isTrue hstage =>
    cases hs
    have hrank : s.stage.rank = 2 := by rw [hstage]; rfl
    have hrunning := not_running h (by rw [hstage]; decide)
    refine h.onward (by omega) ?_ ?_ ?_ (fun hr => absurd hr hrunning) (Or.inr rfl)
      (fun _ => ⟨(h.trades (by omega)).1, Nat.le_refl _⟩) (fun _ => by omega) <;> simp [Stage.rank, hstage]

theorem Inv.queryAsset (h : Inv opening taken s) {asset : AccountAsset}
    (hs : s.step (.queryAsset asset) = some s') : Inv opening taken s' := by
  simp only [step] at hs
  split at hs
  case isFalse => cases hs
  case isTrue hstage =>
    cases hs
    have hrank : s.stage.rank = 3 := by rw [hstage]; rfl
    have hrunning := not_running h (by rw [hstage]; decide)
    refine h.onward (by omega) ?_ ?_ ?_ (fun hr => absurd hr hrunning) (Or.inr rfl)
      (fun _ => h.positions (by omega)) (fun _ => rfl) <;> simp [Stage.rank, hstage]

theorem Inv.startEventLanes (h : Inv opening taken s) (hs : s.step .startEventLanes = some s') :
    Inv opening taken s' := by
  simp only [step] at hs
  split at hs
  case isFalse => cases hs
  case isTrue hstage =>
    cases hs
    have hrank : s.stage.rank = 5 := by rw [hstage]; rfl
    have hrunning := not_running h (by rw [hstage]; decide)
    refine h.onward (by omega) ?_ ?_ (fun _ => rfl) (fun hr => absurd hr hrunning)
      (Or.inr rfl) (fun _ => h.positions (by omega)) (fun _ => rfl) <;> simp [Stage.rank, hstage]

theorem Inv.startEngineModules (h : Inv opening taken s) (hs : s.step .startEngineModules = some s') :
    Inv opening taken s' := by
  simp only [step] at hs
  split at hs
  case isFalse => cases hs
  case isTrue hstage =>
    cases hs
    have hrank : s.stage.rank = 6 := by rw [hstage]; rfl
    refine h.onward (by omega) ?_ ?_ (fun _ => h.accepting (by omega)) (fun _ => rfl)
      (Or.inl rfl) (fun _ => h.positions (by omega)) (fun _ => rfl) <;> simp [Stage.rank, hstage]

/-- What the two loops leave when they begin with a fresh table. -/
theorem Inv.loops (h : Inv opening taken s) (hstage : s.stage = .applySnapshot) :
    (∀ q ∈ s.snapshot.orders, Mirrors s.venue.trades (s.books.synchronize s.snapshot).2.oms q q) ∧
    (∀ t ∈ s.snapshot.trades, t ∈ s.venue.trades.drop s.ordersSeen →
      generateTradeDedupKey t ∈ (s.books.synchronize s.snapshot).2.oms.appliedTradeIds) ∧
    ∀ key ∈ (s.books.synchronize s.snapshot).2.oms.appliedTradeIds,
      key ∈ s.venue.trades.map generateTradeDedupKey := by
  have hrank : s.stage.rank = 4 := by rw [hstage]; rfl
  obtain ⟨_, hsince⟩ := h.since (by rw [hstage]; decide)
  obtain ⟨_, htrades⟩ := h.trades (by omega)
  have hbook := takeOrders_book [] s.snapshot.orders (h.fresh (by omega)).1 h.answer.ids
    (fun q hq => (h.answer.orderly q hq).identified) h.answer.distinctClients
  rw [List.nil_append] at hbook
  have htaken : ∀ t ∈ s.snapshot.trades, t ∈ s.venue.trades := by
    rw [htrades]
    exact fun t ht => List.mem_of_mem_take ht
  have hloop : ∀ t ∈ s.snapshot.trades, t ∈ s.venue.trades ∧ 0 < t.volume ∧
      ∃ q ∈ s.snapshot.orders, q.orderId = t.orderId := by
    intro t ht
    obtain ⟨o, ho, hid⟩ := h.sound.owned t (htaken t ht)
    obtain ⟨q, hq, hqid, _⟩ := hsince.orders o ho
    exact ⟨htaken t ht, Venue.volume_pos (h.sound.valid t (htaken t ht)), q, hq, hqid.trans hid⟩
  obtain ⟨hmirrors, _, happlied⟩ := takeTrades_mirrors h.sound.keys hsince.opened s.snapshot.trades hloop
    fun q hq => hbook.mirrors h.answer.orderly _ hq
  refine ⟨hmirrors, happlied, fun key hkey => ?_⟩
  rcases takeTrades_owned_keys s.snapshot.trades hkey with hold | hnew
  · rw [hbook.applied] at hold
    simp at hold
  · rw [htrades, List.map_take] at hnew
    exact List.mem_of_mem_take hnew

theorem Inv.applySnapshot (h : Inv opening taken s) (hs : s.step .applySnapshot = some s') :
    s'.stage = .failed ∨ Inv opening taken s' := by
  simp only [step] at hs
  split at hs
  case isFalse => cases hs
  case isTrue hstage =>
    cases hs
    by_cases hok : (s.books.synchronize s.snapshot).1 = .success
    swap
    · exact Or.inl (if_neg hok)
    right
    rw [if_pos hok]
    have hrank : s.stage.rank = 4 := by rw [hstage]; rfl
    have hrunning := not_running h (by rw [hstage]; decide)
    have hne : s.stage ≠ .queryOrders := by rw [hstage]; decide
    obtain ⟨hmirrors, happlied, howned⟩ := h.loops hstage
    constructor
    case sound => exact h.sound
    case policy => exact h.policy
    case queue => exact h.queue
    case callbacks => exact h.callbacks
    case answer => exact h.answer
    case started => exact fun hr => absurd hr hrunning
    case since => exact fun _ => h.since hne
    case trades => exact fun _ => h.trades (by omega)
    case positions => exact fun _ => h.positions (by omega)
    case took =>
      intro _
      obtain ⟨-, hopening, hnone⟩ := h.fresh (by omega)
      dsimp only
      rw [synchronize_position, hopening, hnone]
      exact .refl _
    case mirrors =>
      intro _ o ho
      obtain ⟨q, hq, hid, _, _, hended⟩ := (h.since hne).2.orders o ho
      exact ⟨q, hq, hid, (hmirrors q hq).venue rfl hended⟩
    case seen =>
      intro _ t ht
      have hmem := List.mem_of_mem_take ht
      rcases List.mem_append.mp ((List.take_append_drop s.ordersSeen s.venue.trades).symm ▸ hmem) with hearly | hlate
      · exact Or.inl hearly
      · exact Or.inr (happlied t ((h.trades (by omega)).2 ▸ ht) hlate)
    case owned => exact howned
    case fills =>
      intro t ht
      rcases h.fills t ht with hc | hc | hc | ⟨hc, _⟩
      · exact Or.inl hc
      · exact Or.inr (Or.inl hc)
      · refine Or.inr (Or.inr (Or.inl ?_))
        rw [known_trade, hstage] at hc
        exact known_trade.mpr (Or.inr (Or.inr ((hc.resolve_left (by decide)).resolve_left (by decide))))
      · rw [(h.fresh (by omega)).1.applied] at hc
        simp at hc
    case ends =>
      intro o ho hended
      rcases h.ends o ho hended with hc | hc | hc | ⟨hlate, _⟩
      · exact Or.inl hc
      · exact Or.inr (Or.inl hc)
      · exact Or.inr (Or.inr (Or.inl (ends_known hne rfl hc)))
      · omega
    all_goals
      intro hrank
      simp [Stage.rank] at hrank

end StartSequence

end Qtrade.Engine
