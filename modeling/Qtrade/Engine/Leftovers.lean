import Qtrade.Engine.Restarts

/-!
# Frozen funds that outlive their orders

`Release` shuts the order manager down, and nobody tells the account. Only an order that the order manager has gets to
the account, so what is frozen for an order that the broker does not name after a restart stays frozen.
-/

namespace Qtrade.Engine

open Qtrade.Account
open Qtrade.Oms
open Qtrade.Oms.OrderManager
open Qtrade.Trading (Shared System LaneStep)

variable {orderId : String}

/-! ## What the start takes over -/

section Books

variable {s : Books}

theorem mem_of_local? (h : s.oms.Anchored) {reportId : String} {c : UInt32} {known : Order}
    (hknown : s.local? reportId c = some known) : known.orderId ∈ s.oms.orders := by
  have hid := local?_id h reportId c
  rw [hknown, Option.map_some] at hid
  split_ifs at hid with hempty hmem
  · exact (h.index _ _ hid.symm).2
  · exact Option.some.inj hid ▸ hmem

theorem mem_reconcileBrokerOrder {oms : OrderManager} (report : Order) (h : orderId ∈ oms.orders) :
    orderId ∈ (oms.reconcileBrokerOrder report).orders := by
  have hadopt : ∀ (oms' : OrderManager) (newId : String), orderId ∈ oms'.orders →
      orderId ∈ (oms'.adopt report newId).orders := by
    intro oms' newId hmem
    rw [OrderManager.adopt, orders_index, store, Finmap.mem_insert]
    exact Or.inr hmem
  rcases reconcileBrokerOrder_cases oms report with ⟨key, e, -, -, hs⟩ | ⟨-, -, -, hs⟩ | ⟨-, hs⟩ | ⟨-, hs⟩
  · rw [hs, store, Finmap.mem_insert]
    exact Or.inr h
  · rw [hs]
    exact hadopt _ _ h
  · rw [hs]
    exact hadopt _ _ h
  · rw [hs]
    exact h

theorem mem_takeOrders (orders : List Order) (h : orderId ∈ s.oms.orders) :
    orderId ∈ (s.takeOrders orders).oms.orders := by
  refine Folds.invariant_foldl (fun s : Books => orderId ∈ s.oms.orders) (fun s report h => ?_) h orders
  rw [(takeOrder_same s report).orders]
  exact mem_reconcileBrokerOrder report h

theorem mem_takeTrades (trades : List Trade) (h : orderId ∈ s.oms.orders) :
    orderId ∈ (s.takeTrades trades).oms.orders := by
  refine Folds.invariant_foldl (fun s : Books => orderId ∈ s.oms.orders) (fun s report h => ?_) h trades
  rw [(takeTrade_same s report).orders, (applyTradeReport_evolves s.oms report).mem_iff]
  exact h

theorem takeOrder_anchored (h : s.oms.Anchored) (report : Order) : (s.takeOrder report).oms.Anchored := by
  unfold Books.takeOrder
  dsimp only
  split
  · exact (h.reconcileBrokerOrder report).markReconciled _
  · exact h.reconcileBrokerOrder report

theorem takeTrade_anchored (h : s.oms.Anchored) (report : Trade) : (s.takeTrade report).oms.Anchored := by
  have happlied := h.evolves ((applyTradeReport_evolves s.oms report).mono fun _ _ ha => ha.toAdvances)
  unfold Books.takeTrade
  dsimp only
  split
  · exact happlied.markReconciled _
  · exact happlied

theorem synchronize_anchored (h : s.oms.Anchored) (snapshot : BrokerSnapshot) :
    (s.synchronize snapshot).2.oms.Anchored := by
  have horders : (s.takeOrders snapshot.orders).oms.Anchored :=
    Folds.invariant_foldl (fun s : Books => s.oms.Anchored) (fun _ report h => takeOrder_anchored h report) h _
  exact Folds.invariant_foldl (fun s : Books => s.oms.Anchored) (fun _ report h => takeTrade_anchored h report)
    horders _

theorem takeOrder_unheld (h : s.oms.Anchored) (hid : orderId ≠ "") {report : Order}
    (hno : orderId ∉ (s.takeOrder report).oms.orders) :
    (s.takeOrder report).account.frozenOf orderId = s.account.frozenOf orderId := by
  rw [(takeOrder_same s report).orders] at hno
  unfold Books.takeOrder
  dsimp only
  split
  case h_1 known hknown =>
    rw [AccountManager.frozenOf_applyOrder _ _ hid, if_neg]
    rintro rfl
    exact hno (mem_of_local? (s := { s with oms := s.oms.reconcileBrokerOrder report })
      (h.reconcileBrokerOrder report) hknown)
  case h_2 => rfl

theorem takeOrders_unheld (orders : List Order) (h : s.oms.Anchored) (hid : orderId ≠ "")
    (hno : orderId ∉ (s.takeOrders orders).oms.orders) :
    (s.takeOrders orders).account.frozenOf orderId = s.account.frozenOf orderId := by
  induction orders generalizing s with
  | nil => rfl
  | cons report rest ih =>
    have hbefore : orderId ∉ (s.takeOrder report).oms.orders := fun hmem => hno (mem_takeOrders rest hmem)
    exact (ih (takeOrder_anchored h report) hno).trans (takeOrder_unheld h hid hbefore)

theorem takeTrades_account (trades : List Trade) : (s.takeTrades trades).account = s.account := by
  refine Folds.invariant_foldl (fun s' : Books => s'.account = s.account) (fun s' report h => ?_) rfl trades
  unfold Books.takeTrade
  dsimp only
  split
  · exact h
  · exact h

theorem synchronize_unheld (h : s.oms.Anchored) (hid : orderId ≠ "") {snapshot : BrokerSnapshot}
    (hno : orderId ∉ (s.synchronize snapshot).2.oms.orders) :
    (s.synchronize snapshot).2.account.frozenOf orderId = s.account.frozenOf orderId := by
  have hbefore : orderId ∉ (s.takeOrders snapshot.orders).oms.orders :=
    fun hmem => hno (mem_takeTrades snapshot.trades hmem)
  have horders := takeOrders_unheld snapshot.orders h hid hbefore
  rw [← takeTrades_account snapshot.trades] at horders
  exact horders

end Books

/-! ## Trading -/

section Trading

variable {t t' : System} {a : Trading.Action}

/-- The lane hands only orders to the account that the order manager has. -/
def LaneHolds (s : Shared) : Prop :=
  ∀ report known, s.lane = .accountOrder report known → known.orderId ∈ s.oms.orders

theorem LaneHolds.lane {s s' : Shared} (hs : LaneStep s s') (hanchored : s.oms.Anchored) : LaneHolds s' := by
  intro report known hlane
  cases hs with
  | knownOrder report' known' hl hknown =>
    cases hlane
    exact mem_of_local? (s := s.books) hanchored hknown
  | released orderId reason hl =>
    rw [Trading.lane_release] at hlane
    cases hlane
  | _ => cases hlane

theorem lane_or_beside (hs : Trading.step t a = some t') :
    LaneStep t.shared t'.shared ∨
      t'.shared.account = t.shared.account ∧
        (t'.shared.lane = t.shared.lane ∨ ∀ report known, t'.shared.lane ≠ .accountOrder report known) := by
  by_cases hon : Trading.onLane a = true
  · unfold Trading.onLane at hon
    split at hon
    case h_1 report =>
      obtain ⟨-, -, heq⟩ := Trading.orderReport_eq (Calls.Program.step_environment hs).1
      rw [heq]
      exact Or.inr ⟨rfl, Or.inr fun _ _ hlane => by cases hlane⟩
    case h_2 report =>
      obtain ⟨-, -, heq⟩ := Trading.tradeReport_eq (Calls.Program.step_environment hs).1
      rw [heq]
      exact Or.inr ⟨rfl, Or.inr fun _ _ hlane => by cases hlane⟩
    case h_3 => exact Or.inl (Trading.laneStep_step (Calls.Program.step_environment hs).1)
    case h_4 => cases hon
  · have hbeside := Trading.step_beside (by simpa using hon) hs
    exact Or.inr ⟨hbeside.account, Or.inl hbeside.lane⟩

theorem LaneHolds.step (h : LaneHolds t.shared) (hanchored : t.shared.oms.Anchored)
    (hs : Trading.step t a = some t') : LaneHolds t'.shared := by
  rcases lane_or_beside hs with hlane | ⟨-, hsame | hnone⟩
  · exact .lane hlane hanchored
  · intro report known hlane
    rw [hsame] at hlane
    exact (Trading.step_extends hs).keys _ (h report known hlane)
  · exact fun report known hlane => absurd hlane (hnone report known)

theorem laneStep_unheld {s s' : Shared} (hid : orderId ≠ "")
    (hother : ∀ report known, s.lane = .accountOrder report known → known.orderId ≠ orderId) (hs : LaneStep s s') :
    s'.account.frozenOf orderId = s.account.frozenOf orderId := by
  cases hs with
  | orderGoesOn report known hl => rw [AccountManager.frozenOf_applyOrder _ _ hid, if_neg (hother _ _ hl)]
  | orderEnded report known reason hl => rw [AccountManager.frozenOf_applyOrder _ _ hid, if_neg (hother _ _ hl)]
  | tradeAccounted report hl =>
    unfold AccountManager.frozenOf
    rw [(AccountManager.applyTrade_frozen _ report).1]
  | released orderId reason hl => rw [Trading.account_release]
  | _ => rfl

/-- Nothing is frozen or freed for an order that the order manager does not have. -/
theorem step_unheld (h : LaneHolds t.shared) (hid : orderId ≠ "") (hno : orderId ∉ t.shared.oms.orders)
    (hs : Trading.step t a = some t') :
    t'.shared.account.frozenOf orderId = t.shared.account.frozenOf orderId := by
  rcases lane_or_beside hs with hlane | ⟨haccount, -⟩
  · refine laneStep_unheld hid (fun report known hl => ?_) hlane
    rintro rfl
    exact hno (h report known hl)
  · rw [haccount]

end Trading

/-! ## The engine -/

namespace TradingEngine

variable {s : TradingEngine}

theorem init_books (h : s.books.oms.Anchored) (config : BootstrapConfig) (clock : Clock)
    (answer : Result EngineConfig) :
    (s.init config clock answer).2.books.account = s.books.account ∧
      (s.init config clock answer).2.books.oms.Anchored := by
  have hstages : ((s.boot config clock).initStages answer clock.nowMs).2.books.account = s.books.account ∧
      ((s.boot config clock).initStages answer clock.nowMs).2.books.oms.Anchored := by
    have hstop : ∀ s' : TradingEngine, (s'.books.account = s.books.account ∧ s'.books.oms.Anchored) →
        s'.books.account = s.books.account ∧ s'.books.oms.Anchored := fun _ h => h
    have hbridges : (s.boot config clock).validateSupportBridges.2.books = s.books := by
      unfold validateSupportBridges
      split_ifs <;> rfl
    refine andThen_elim (by rw [hbridges]; exact ⟨rfl, h⟩) hstop fun s₁ h₁ => ?_
    refine andThen_elim (by rw [(s₁.fetchRuntimeConfig_same answer clock.nowMs).books]; exact h₁) hstop fun s₂ h₂ => ?_
    refine andThen_elim ?_ hstop fun s₃ h₃ => ?_
    · unfold initEngineModules
      dsimp only
      split_ifs
      · exact ⟨h₂.1, h₂.2.initializeWith _⟩
      · exact ⟨h₂.1, h₂.2.initializeWith _⟩
    refine andThen_elim (by rw [initAdapters_books]; exact h₃) hstop fun s₄ h₄ => ?_
    rw [becomeInitiated_books]
    exact h₄
  cases hinit : s.initialized with
  | true =>
    rw [init_initialized hinit]
    exact ⟨rfl, h⟩
  | false =>
    rw [init_eq hinit]
    split_ifs
    · exact hstages
    · exact ⟨hstages.1, anchored_of_empty rfl rfl⟩

theorem syncBrokerSnapshot_books (s : TradingEngine) (world : Surroundings) :
    (s.syncBrokerSnapshot world).2.books = s.books ∨
      ∃ snapshot, (s.syncBrokerSnapshot world).2.books = (s.books.synchronize snapshot).2 := by
  unfold syncBrokerSnapshot
  split_ifs
  · exact Or.inl rfl
  · cases world.snapshot with
    | none => exact Or.inl rfl
    | some snapshot =>
      dsimp only
      split_ifs
      · exact Or.inr ⟨snapshot, rfl⟩
      · exact Or.inr ⟨snapshot, rfl⟩

theorem start_books (s : TradingEngine) (world : Surroundings) :
    (s.start world).2.books = s.books ∨ ∃ snapshot, (s.start world).2.books = (s.books.synchronize snapshot).2 := by
  have hadapters : (s.startAdapters world).2.books = s.books := by
    unfold startAdapters
    dsimp only
    split_ifs
    · exact initAdapters_books s
    · exact initAdapters_books s
    · rfl
    · rfl
    · rfl
  unfold start
  split_ifs
  · exact Or.inl rfl
  · exact Or.inl rfl
  · exact Or.inl rfl
  refine andThen_elim (P := fun s' => s'.books = s.books)
    (Q := fun s' => s'.books = s.books ∨ ∃ snapshot, s'.books = (s.books.synchronize snapshot).2)
    hadapters (fun _ h => Or.inl h) fun s₁ h₁ => ?_
  have hsync := syncBrokerSnapshot_books s₁ world
  rw [h₁] at hsync
  refine andThen_elim (P := fun s' => s'.books = s.books ∨ ∃ snapshot, s'.books = (s.books.synchronize snapshot).2)
    hsync (fun _ h => h) fun s₂ h₂ => ?_
  unfold advanceReadyGates
  split_ifs
  · rw [onMarketHealthChanged_books]
    exact h₂
  · exact h₂

end TradingEngine

/-! ## Over all sessions -/

namespace Restarts

/-- What the books of the engine and of its threads have in common. -/
structure Matched (s : Restarts) : Prop where
  initialized : s.engine.running = true → s.engine.initialized = true
  books : s.engine.running = true → s.engine.books = s.trading.shared.books
  anchored : s.engine.books.oms.Anchored
  lane : s.engine.running = true → LaneHolds s.trading.shared

variable {s s' : Restarts}

theorem Matched.engine (h : s.Matched) {engine : TradingEngine} (hrunning : engine.running = s.engine.running)
    (hinit : s.engine.initialized = true → engine.initialized = true) (hbooks : engine.books = s.engine.books) :
    Matched { s with engine } := by
  refine ⟨fun hr => hinit (h.initialized (hrunning ▸ hr)), fun hr => ?_, hbooks ▸ h.anchored,
    fun hr => h.lane (hrunning ▸ hr)⟩
  exact hbooks.trans (h.books (hrunning ▸ hr))

theorem Matched.idle {engine : TradingEngine} {trading : System} {earlier : List Trading.Event}
    (hstopped : engine.running = false) (hanchored : engine.books.oms.Anchored) :
    Matched { engine, trading, earlier } :=
  ⟨fun hr => absurd (hstopped.symm.trans hr) (by decide), fun hr => absurd (hstopped.symm.trans hr) (by decide),
    hanchored, fun hr => absurd (hstopped.symm.trans hr) (by decide)⟩

theorem Matched.start (h : s.Matched) (world : Surroundings) (bridge : Bool)
    (hs : s.step (.start world bridge) = some s') : s'.Matched := by
  have hanchored : (s.engine.start world).2.books.oms.Anchored := by
    rcases s.engine.start_books world with hsame | ⟨snapshot, hsync⟩
    · rw [hsame]
      exact h.anchored
    · rw [hsync]
      exact synchronize_anchored h.anchored snapshot
  have hinitialized := (s.engine.start_keeps world).2.1
  simp only [step, Option.some.injEq] at hs
  subst hs
  rcases s.engine.start_takes world with ⟨hfailed, hrunning, -⟩ | ⟨hsuccess, hinit, -, -, hrunning, -⟩
  · rw [if_neg hfailed]
    by_cases hr : s.engine.running = true
    · have hrefused : (s.engine.start world).2 = s.engine := by
        simp [TradingEngine.start, h.initialized hr, hr]
      rw [hrefused]
      exact h
    · exact .idle (hrunning.trans (by simpa using hr)) hanchored
  · rw [if_pos hsuccess]
    refine ⟨fun _ => hinitialized.trans hinit, fun _ => rfl, hanchored, fun _ report known hlane => ?_⟩
    cases hlane

theorem step_matched (h : s.Matched) {a : RestartAction} (hs : s.step a = some s') : s'.Matched := by
  cases a with
  | inject configBridge accountBridge accountRiskBridge quoteApi traderApi =>
    cases hs
    unfold inject
    split_ifs
    · exact h.engine rfl id rfl
    · exact h.engine rfl id rfl
  | init config clock answer =>
    cases hs
    cases hinit : s.engine.initialized with
    | true =>
      rw [TradingEngine.init_initialized hinit]
      exact h
    | false =>
      have hstopped : s.engine.running = false := by
        by_contra hr
        exact absurd (hinit.symm.trans (h.initialized (by simpa using hr))) (by decide)
      have hrunning := s.engine.init_running config clock answer
      exact .idle (hrunning.trans hstopped) (TradingEngine.init_books h.anchored config clock answer).2
  | start world bridge => exact h.start world bridge hs
  | onEngineConfig config nowMs =>
    cases hs
    have hrests := s.engine.onEngineConfig_rests config nowMs
    have hbooks := (s.engine.onEngineConfig_same config nowMs).books
    refine ⟨fun hr => hrests.initialized.trans (h.initialized (hrests.running ▸ hr)), fun hr => ?_,
      hbooks ▸ h.anchored, fun hr => h.lane (hrests.running ▸ hr)⟩
    exact hbooks.trans (h.books (hrests.running ▸ hr))
  | marketHealth healthy =>
    cases hs
    have hkeeps := s.engine.onMarketHealthChanged_keeps healthy
    exact h.engine hkeeps.running hkeeps.initialized.trans (s.engine.onMarketHealthChanged_books healthy)
  | trade action =>
    obtain ⟨hrunning, trading, hstep, rfl⟩ := trade_cases hs
    have hanchored : s.trading.shared.oms.Anchored := by
      have hbooks := h.anchored
      rw [h.books hrunning] at hbooks
      exact hbooks
    exact ⟨h.initialized, fun _ => rfl, (Trading.step_extends hstep).anchored hanchored,
      fun _ => (h.lane hrunning).step hanchored hstep⟩
  | stop =>
    obtain rfl := stop_eq hs
    refine .idle s.engine.stop_keeps.2.2.1 ?_
    unfold TradingEngine.stop
    exact anchored_of_empty rfl rfl
  | crash =>
    cases hs
    exact .idle rfl (anchored_of_empty rfl rfl)

/-- The process lives on, and the order manager has no order with this id after the step. -/
def Unheld (orderId : String) (s : Restarts) : RestartAction → Prop
  | .crash => False
  | a => ∀ s' ∈ s.step a, orderId ∉ s'.engine.books.oms.orders

def livesOn : RestartAction → Bool
  | .crash => false
  | _ => true

theorem unheld_iff {a : RestartAction} :
    Unheld orderId s a ↔ livesOn a = true ∧ ∀ s' ∈ s.step a, orderId ∉ s'.engine.books.oms.orders := by
  cases a <;> simp [Unheld, livesOn]

instance (orderId : String) (s : Restarts) (a : RestartAction) : Decidable (Unheld orderId s a) :=
  decidable_of_iff _ unheld_iff.symm

theorem Unheld.not_mem {a : RestartAction} (h : Unheld orderId s a) (hs : s.step a = some s') :
    orderId ∉ s'.engine.books.oms.orders :=
  (unheld_iff.mp h).2 s' hs

theorem Matched.unheld (h : s.Matched) (hid : orderId ≠ "") (hno : orderId ∉ s.engine.books.oms.orders)
    {a : RestartAction} (hok : Unheld orderId s a) (hs : s.step a = some s') :
    s'.engine.books.account.frozenOf orderId = s.engine.books.account.frozenOf orderId := by
  have hno' := hok.not_mem hs
  cases a with
  | inject =>
    cases hs
    unfold inject
    split_ifs <;> rfl
  | init config clock answer =>
    cases hs
    rw [(TradingEngine.init_books h.anchored config clock answer).1]
  | start world bridge =>
    cases hs
    dsimp only at hno' ⊢
    rcases s.engine.start_books world with hsame | ⟨snapshot, hsync⟩
    · rw [hsame]
    · rw [hsync] at hno' ⊢
      exact synchronize_unheld h.anchored hid hno'
  | onEngineConfig config nowMs =>
    cases hs
    have hbooks := (s.engine.onEngineConfig_same config nowMs).books
    exact congrArg (·.account.frozenOf orderId) hbooks
  | marketHealth healthy =>
    cases hs
    rw [s.engine.onMarketHealthChanged_books healthy]
  | trade action =>
    obtain ⟨hrunning, trading, hstep, rfl⟩ := trade_cases hs
    rw [h.books hrunning] at hno ⊢
    exact step_unheld (h.lane hrunning) hid hno hstep
  | stop =>
    obtain rfl := stop_eq hs
    unfold TradingEngine.stop
    dsimp only
    split_ifs <;> rfl
  | crash => exact hok.elim

theorem matched_of_reaches (h : Runs.Reaches step Runs.anyStep {} s) : s.Matched :=
  h.invariant (.idle rfl (anchored_of_empty rfl rfl)) fun _ _ _ hm _ hs => step_matched hm hs

/-- What is frozen for an order that the order manager no longer has stays frozen, through every `Stop` and `Start` and
whatever is traded, until an order with that id comes back. -/
theorem leftovers_stay {s₀ : Restarts} (hreach : Runs.Reaches step Runs.anyStep {} s₀) (hid : orderId ≠ "")
    (hno : orderId ∉ s₀.engine.books.oms.orders) (h : Runs.Reaches step (Unheld orderId) s₀ s) :
    s.engine.books.account.frozenOf orderId = s₀.engine.books.account.frozenOf orderId := by
  have hkept : (s.Matched ∧ orderId ∉ s.engine.books.oms.orders) ∧
      s.engine.books.account.frozenOf orderId = s₀.engine.books.account.frozenOf orderId := by
    refine h.invariant (P := fun s => (s.Matched ∧ orderId ∉ s.engine.books.oms.orders) ∧
      s.engine.books.account.frozenOf orderId = s₀.engine.books.account.frozenOf orderId)
      ⟨⟨matched_of_reaches hreach, hno⟩, rfl⟩ ?_
    rintro s₁ a s₂ ⟨⟨hmatched, hno₁⟩, hsame⟩ hok hs
    exact ⟨⟨step_matched hmatched hs, hok.not_mem hs⟩, (hmatched.unheld hid hno₁ hok hs).trans hsame⟩
  exact hkept.2

/-- The trader answers that the order works, and the engine is stopped. -/
def stopWhileWorking : List RestartAction :=
  startup 1 {} ++
    trades (.start (.submit Trading.limitBuy) :: List.replicate 10 (.resume 0 .silent) ++ Trading.workerToTrader ++
      .environment (.traderReturns .success) :: .environment .worker ::
      .environment (.orderReport
        { orderId := "default-default-1-1", status := .notTradedQueueing, leftVolume := 4 }) ::
      List.replicate 2 (.environment .lane)) ++
    [.stop]

/-- The next engine trades on without the order. -/
def restarted : List RestartAction :=
  startup 2 {} ++ trades (.start (.submit Trading.limitBuy) :: List.replicate 10 (.resume 0 .silent))

theorem leftovers_stay_restart : ∃ s : Restarts, s.engine.running = true ∧
    "default-default-2-1" ∈ s.engine.books.oms.orders ∧
    s.engine.books.account.frozenOf "default-default-1-1" = .fin 40 := by
  have hrun : ∃ s₀ ∈ Runs.exec step {} stopWhileWorking, "default-default-1-1" ∉ s₀.engine.books.oms.orders ∧
      s₀.engine.books.account.frozenOf "default-default-1-1" = .fin 40 ∧
      ∃ s ∈ Runs.execWhile step (Unheld "default-default-1-1") s₀ restarted, s.engine.running = true ∧
        "default-default-2-1" ∈ s.engine.books.oms.orders := by decide +kernel
  obtain ⟨s₀, hs₀, hno, hfrozen, s, hs, hrunning, hnew⟩ := hrun
  refine ⟨s, hrunning, hnew, ?_⟩
  rw [leftovers_stay (Runs.reaches_of_exec _ hs₀) (by decide) hno (Runs.reaches_of_execWhile _ hs), hfrozen]

end Restarts

end Qtrade.Engine
