import Qtrade.Engine.Frozen
import Qtrade.Engine.MarketData
import Qtrade.Engine.OrderIds
import Qtrade.Engine.Reconciled
import Qtrade.Trading.CancelRace

/-!
# One send over all restarts

The orders are kept in memory only. After a stop, or when the process has died, what was sent is known from the
broker's answers alone, and `SynchronizeBrokerState` takes these over before anything is traded.
-/

namespace Qtrade.Engine

open Qtrade.Oms
open Qtrade.Oms.OrderManager
open Qtrade.Trading (Shared System Withheld Once sentIds sentClientIds sends)

/-! ## The engine with its trading threads -/

/-- `trading` is what the calls and the threads of a running engine work on, and `earlier` is the log of what they did
before it was started last. -/
structure Restarts where
  engine : TradingEngine := {}
  trading : System := { shared := {}, calls := [] }
  earlier : List Trading.Event := []

inductive RestartAction
  | inject (configBridge accountBridge accountRiskBridge quoteApi traderApi : Bool)
  | init (config : BootstrapConfig) (clock : Clock) (answer : Result EngineConfig)
  | start (world : Surroundings) (bridge : Bool)
  | onEngineConfig (config : EngineConfig) (nowMs : Int)
  | marketHealth (healthy : Bool)
  | trade (action : Trading.Action)
  | stop
  | crash

namespace Restarts

def log (s : Restarts) : List Trading.Event := s.trading.shared.log ++ s.earlier

/-- The setters of the adapters do nothing while the engine runs. -/
def inject (s : Restarts) (configBridge accountBridge accountRiskBridge quoteApi traderApi : Bool) : Restarts :=
  let engine := { s.engine with configBridge, accountBridge, accountRiskBridge }
  { s with engine := if s.engine.running then engine else { engine with quoteApi, traderApi } }

/-- What `StartEngineModules` starts. The pipeline may have kept its bridge from an earlier `Init`. -/
def opened (engine : TradingEngine) (bridge : Bool) : System where
  shared :=
    { engineId := engine.bootstrapConfig.identity.engineId
      bridge
      compliance := engine.compliance
      risk := engine.riskManager
      oms := engine.books.oms
      ems := { running := true, traderApi := engine.traderApi }
      account := engine.books.account
      position := engine.books.position }
  calls := []

/-- The pipeline checks by what the engine has configured. -/
def configured (s : Restarts) (engine : TradingEngine) : Restarts :=
  { s with
    engine
    trading.shared.compliance := engine.compliance
    trading.shared.risk := engine.riskManager }

/-- Both threads have ended: the worker with an empty queue, the lane with no report in hand. -/
def atRest (s : Shared) : Bool := s.worker == .idle && s.ems.pendingItems == [] && s.lane == .idle

def hasEnded : Trading.CallPc → Bool
  | .submit (.done _ _) => true
  | .submit (.threw _) => true
  | .cancel (.done _ _) => true
  | _ => false

/-- `Stop` waits for the threads. A process dies at any time, and the next one begins with nothing. -/
def step (s : Restarts) : RestartAction → Option Restarts
  | .inject configBridge accountBridge accountRiskBridge quoteApi traderApi =>
    some (s.inject configBridge accountBridge accountRiskBridge quoteApi traderApi)
  | .init config clock answer => some { s with engine := (s.engine.init config clock answer).2 }
  | .start world bridge =>
    let result := s.engine.start world
    some { s with engine := result.2, trading := if result.1 = .success then opened result.2 bridge else s.trading }
  | .onEngineConfig config nowMs => some (s.configured (s.engine.onEngineConfig config nowMs))
  | .marketHealth healthy => some { s with engine := s.engine.onMarketHealthChanged healthy }
  | .trade action =>
    if s.engine.running then
      (Trading.step s.trading action).map fun trading =>
        { s with engine.books := trading.shared.books, trading }
    else none
  | .stop => if atRest s.trading.shared then some { engine := s.engine.stop.2, earlier := s.log } else none
  | .crash => some { earlier := s.log }

end Restarts

/-- The broker gives each order an id of its own, and names the client id if it was sent one. -/
structure BrokerSnapshot.Lists (snapshot : BrokerSnapshot) (log : List Trading.Event) (c : UInt32) : Prop where
  orderIds : (snapshot.orders.map (·.orderId)).Nodup
  identified : ∀ order ∈ snapshot.orders, order.orderId ≠ ""
  sent : c ∈ sentClientIds log → ∃ order ∈ snapshot.orders, order.clientOrderId = c

instance (snapshot : BrokerSnapshot) (log : List Trading.Event) (c : UInt32) : Decidable (snapshot.Lists log c) :=
  decidable_of_iff ((snapshot.orders.map (·.orderId)).Nodup ∧ (∀ order ∈ snapshot.orders, order.orderId ≠ "") ∧
      (c ∈ sentClientIds log → ∃ order ∈ snapshot.orders, order.clientOrderId = c))
    ⟨fun h => ⟨h.1, h.2.1, h.2.2⟩, fun h => ⟨h.orderIds, h.identified, h.sent⟩⟩

/-! ## What the start takes over -/

/-- The order manager has an order with the client id. -/
def Knows (oms : OrderManager) (c : UInt32) : Prop :=
  ∃ orderId e, oms.orders.lookup orderId = some e ∧ e.order.clientOrderId = c

variable {oms oms' : OrderManager} {c : UInt32}

theorem Knows.evolves (h : Knows oms c) (hs : Evolves OrderEntry.Advances oms oms') : Knows oms' c := by
  obtain ⟨orderId, e, he, hc⟩ := h
  obtain ⟨e', he', ha⟩ := hs.lookup he
  exact ⟨orderId, e', he', ha.clientOrderId.trans hc⟩

theorem Knows.same (h : Knows oms c) (hs : SameTables oms oms') : Knows oms' c := by
  unfold Knows
  rw [hs.orders]
  exact h

theorem adoptionId_named (hinit : oms.initialized = true) {report : Order} (hid : report.orderId ≠ "")
    (hf : oms.findOrderLocked report.orderId report.clientOrderId = none) :
    oms.adoptionId report = some report.orderId := by
  rw [adoptionId, if_pos ⟨hinit, hf⟩, if_pos hid]

theorem Knows.reconcile (h : Knows oms c) (hs : oms.Started) {report : Order} (hid : report.orderId ≠ "") :
    Knows (oms.reconcileBrokerOrder report) c := by
  cases hf : oms.findOrderLocked report.orderId report.clientOrderId with
  | some found => exact h.evolves ((reconcileBrokerOrder_found hf).mono fun _ _ ha => ha.toAdvances)
  | none =>
    obtain ⟨orderId, e, he, hc⟩ := h
    refine ⟨orderId, e, ?_, hc⟩
    have hne : oms.adoptionId report ≠ some orderId := by
      rw [adoptionId_named hs.initialized hid hf]
      rintro ⟨⟩
      rw [(findOrderLocked_none hs.wellFormed hf).1] at he
      cases he
    rw [lookup_reconcileBrokerOrder_new hs.initialized hf, if_neg hne, he]

theorem knows_reconcile (hs : oms.Started) {report : Order} (hid : report.orderId ≠ "")
    (hnew : oms.orders.lookup report.orderId = none) :
    Knows (oms.reconcileBrokerOrder report) report.clientOrderId := by
  cases hf : oms.findOrderLocked report.orderId report.clientOrderId with
  | some found =>
    obtain ⟨he, hkey | ⟨-, hkey⟩⟩ := findOrderLocked_some hf
    · rw [hkey, hnew] at he
      cases he
    · obtain ⟨-, e, he', hclient⟩ := (hs.wellFormed.index _ _).mp hkey
      have hknown : Knows oms report.clientOrderId := ⟨_, e, he', hclient⟩
      exact hknown.evolves ((reconcileBrokerOrder_found hf).mono fun _ _ ha => ha.toAdvances)
  | none =>
    refine ⟨report.orderId, adoptedEntry report report.orderId, ?_, rfl⟩
    rw [lookup_reconcileBrokerOrder_new hs.initialized hf, if_pos (adoptionId_named hs.initialized hid hf)]

variable {s : Books}

theorem takeOrders_knows (taken rest : List Order) (hs : Startup s.oms) (howned : Owned s.oms taken)
    (hids : ((taken ++ rest).map (·.orderId)).Nodup) (hne : ∀ order ∈ rest, order.orderId ≠ "")
    (hknows : ∀ order ∈ taken, Knows s.oms order.clientOrderId) :
    ∀ order ∈ taken ++ rest, Knows (s.takeOrders rest).oms order.clientOrderId := by
  induction rest generalizing s taken with
  | nil =>
    rw [List.append_nil]
    exact hknows
  | cons report rest ih =>
    have hid : report.orderId ≠ "" := hne report List.mem_cons_self
    have hsplit : taken ++ report :: rest = (taken ++ [report]) ++ rest := by simp
    rw [hsplit] at hids ⊢
    have hwider : Owned s.oms (taken ++ [report]) := by
      intro orderId e he
      obtain ⟨order, hmem, hsame⟩ := howned orderId e he
      exact ⟨order, List.mem_append_left _ hmem, hsame⟩
    obtain ⟨hstartup, howned'⟩ := takeOrders_owned [report] (by simp [hid]) hs hwider
    refine ih (taken ++ [report]) hstartup howned' hids (fun order hmem => hne order (List.mem_cons_of_mem _ hmem)) ?_
    intro order hmem
    refine Knows.same ?_ (takeOrder_same s report)
    rcases List.mem_append.mp hmem with hmem | hmem
    · exact (hknows order hmem).reconcile hs.started hid
    · obtain rfl := List.mem_singleton.mp hmem
      refine knows_reconcile hs.started hid ?_
      by_contra hheld
      obtain ⟨e, he⟩ := Option.ne_none_iff_exists'.mp hheld
      obtain ⟨other, hother, hsame, -⟩ := howned _ e he
      rw [List.map_append, List.map_append, List.append_assoc, List.nodup_append] at hids
      exact hids.2.2 _ (List.mem_map_of_mem hother) _ (by simp) hsame

theorem takeTrades_knows (trades : List Trade) (h : Knows s.oms c) : Knows (s.takeTrades trades).oms c := by
  refine Folds.invariant_foldl (fun s : Books => Knows s.oms c) (fun s report h => ?_) h trades
  refine Knows.same ?_ (takeTrade_same s report)
  exact h.evolves ((applyTradeReport_evolves s.oms report).mono fun _ _ ha => ha.toAdvances)

theorem synchronize_knows {s₀ : OrderManager} {options : OrderManagerOptions} {snapshot : BrokerSnapshot}
    (hinit : s₀.initializeWith options = (.success, s.oms)) (hids : (snapshot.orders.map (·.orderId)).Nodup)
    (hne : ∀ order ∈ snapshot.orders, order.orderId ≠ "") :
    Startup (s.synchronize snapshot).2.oms ∧
      ∀ order ∈ snapshot.orders, Knows (s.synchronize snapshot).2.oms order.clientOrderId := by
  have hstartup : Startup s.oms := .initialized options hinit
  obtain ⟨horders, howned⟩ := takeOrders_owned snapshot.orders (fun order hmem => ⟨hmem, hne order hmem⟩) hstartup
    (owned_initializeWith hinit snapshot.orders)
  have hknows := takeOrders_knows [] snapshot.orders hstartup (owned_initializeWith hinit []) hids hne
    (fun _ hmem => absurd hmem List.not_mem_nil)
  refine ⟨(takeTrades_owned snapshot.trades horders howned).1, fun order hmem => ?_⟩
  exact takeTrades_knows snapshot.trades (hknows order hmem)

/-! ## `Init` and `Start` -/

namespace TradingEngine

variable {s : TradingEngine}

/-- The order manager is as `Init` left it, until `Start` asks the broker. -/
def Unsynchronized (s : TradingEngine) : Prop :=
  s.initialized = true → s.running = false → s.lifecycle.state = .initiated →
    ∃ oms options, OrderManager.initializeWith oms options = (.success, s.books.oms)

theorem initiated_of_request {target : EngineState} {reason : String} (ht : target ≠ .initiated)
    (h : (s.request target reason).lifecycle.state = .initiated) : s.lifecycle.state = .initiated := by
  unfold request EngineLifecycle.transition at h
  split at h
  · exact h
  · exact absurd h ht

theorem initiated_of_onEngineConfig (config : EngineConfig) (nowMs : Int)
    (h : (s.onEngineConfig config nowMs).lifecycle.state = .initiated) : s.lifecycle.state = .initiated := by
  unfold onEngineConfig at h
  dsimp only at h
  split_ifs at h
  all_goals first | exact h | exact initiated_of_request (by decide) h

theorem initiated_of_onMarketHealthChanged (healthy : Bool)
    (h : (s.onMarketHealthChanged healthy).lifecycle.state = .initiated) : s.lifecycle.state = .initiated := by
  unfold onMarketHealthChanged at h
  split_ifs at h
  all_goals first | exact h | exact initiated_of_request (by decide) h

theorem onMarketHealthChanged_books (s : TradingEngine) (healthy : Bool) :
    (s.onMarketHealthChanged healthy).books = s.books := by
  unfold onMarketHealthChanged
  split_ifs <;> rfl

theorem andThen_initialized {result : ErrorCode × TradingEngine} {next : TradingEngine → ErrorCode × TradingEngine}
    (h : result.2.initialized = false)
    (hnext : (next result.2).2.initialized = true → (next result.2).1 = .success) :
    (andThen result next).2.initialized = true → (andThen result next).1 = .success := by
  unfold andThen
  split
  · exact hnext
  · rw [h]
    exact fun hno => absurd hno (by decide)

theorem initStages_initialized (h : s.initialized = false) (answer : Result EngineConfig) (nowMs : Int) :
    (s.initStages answer nowMs).2.initialized = true → (s.initStages answer nowMs).1 = .success := by
  have h₁ := (validateSupportBridges_keeps s).initialized.trans h
  have h₂ := (fetchRuntimeConfig_rests s.validateSupportBridges.2 answer nowMs).initialized.trans h₁
  have hmodules := initEngineModules_keeps (s.validateSupportBridges.2.fetchRuntimeConfig answer nowMs).2
  have h₃ := hmodules.initialized.trans h₂
  refine andThen_initialized h₁ (andThen_initialized h₂ (andThen_initialized h₃ (andThen_initialized ?_ ?_)))
  · exact (initAdapters_keeps _).initialized.trans h₃
  · unfold becomeInitiated
    split
    · intro hno
      exact absurd (hno.symm.trans ((initAdapters_keeps _).initialized.trans h₃)) (by decide)
    · exact fun _ => rfl

theorem init_initialized (h : s.initialized = true) (config : BootstrapConfig) (clock : Clock)
    (answer : Result EngineConfig) : (s.init config clock answer).2 = s := by
  unfold init
  rw [if_pos h]

theorem init_unsynchronized (hs : s.initialized = false) (config : BootstrapConfig) (clock : Clock)
    (answer : Result EngineConfig) (h : (s.init config clock answer).2.initialized = true) :
    ∃ oms options, OrderManager.initializeWith oms options = (.success, (s.init config clock answer).2.books.oms) := by
  have hinitialized := initStages_initialized (s := s.boot config clock) hs answer clock.nowMs
  have hsuccess : (s.init config clock answer).1 = .success := by
    rw [init_eq hs] at h ⊢
    split at h
    case isTrue hok =>
      rw [if_pos hok]
      exact hok
    case isFalse hno => exact absurd (hinitialized h) hno
  exact ⟨_, _, init_session hs (Prod.ext hsuccess rfl)⟩

theorem request_failed (s : TradingEngine) (reason : String) :
    (s.request .failed reason).lifecycle.state ≠ .initiated := by
  intro h
  have hstate := initiated_of_request (by decide) h
  simp [request, EngineLifecycle.transition, isAllowedTransition, hstate] at h

theorem startAdapters_failed {world : Surroundings} (h : (s.startAdapters world).1 ≠ .success) :
    (s.startAdapters world).2.lifecycle.state ≠ .initiated := by
  unfold startAdapters at h ⊢
  dsimp only at h ⊢
  split_ifs at h ⊢ with hadapters hfailed
  · exact request_failed _ _
  · rw [not_not.mp hfailed]
    decide
  · exact request_failed _ _
  · exact request_failed _ _
  · exact absurd rfl h

theorem syncBrokerSnapshot_cases (s : TradingEngine) (world : Surroundings) :
    ((s.syncBrokerSnapshot world).1 ≠ .success ∧ (s.syncBrokerSnapshot world).2.lifecycle.state ≠ .initiated) ∨
      ((s.syncBrokerSnapshot world).1 = .success ∧ ∃ snapshot, world.snapshot = some snapshot ∧
        (s.syncBrokerSnapshot world).2.books = (s.books.synchronize snapshot).2) := by
  unfold syncBrokerSnapshot
  split_ifs with htrader
  · exact Or.inl ⟨by simp, request_failed _ _⟩
  · cases world.snapshot with
    | none => exact Or.inl ⟨by simp, request_failed _ _⟩
    | some snapshot =>
      dsimp only
      split_ifs with hfailed
      · exact Or.inl ⟨hfailed, request_failed _ _⟩
      · exact Or.inr ⟨rfl, snapshot, rfl, rfl⟩

/-- `Start` refuses at once, or fails for good, or has taken over what the broker answered. -/
theorem start_takes (s : TradingEngine) (world : Surroundings) :
    ((s.start world).1 ≠ .success ∧ (s.start world).2.running = s.running ∧
        ((s.start world).2 = s ∨ (s.start world).2.lifecycle.state ≠ .initiated)) ∨
      ((s.start world).1 = .success ∧ s.initialized = true ∧ s.running = false ∧ s.lifecycle.state = .initiated ∧
        (s.start world).2.running = true ∧ ∃ snapshot, world.snapshot = some snapshot ∧
          (s.start world).2.books = (s.books.synchronize snapshot).2) := by
  unfold start
  by_cases hinit : s.initialized = true
  case neg => exact Or.inl (by simp [hinit])
  by_cases hrunning : s.running = true
  case pos => exact Or.inl (by simp [hinit, hrunning])
  have hstopped : s.running = false := by simpa using hrunning
  by_cases hstate : s.lifecycle.state = .initiated
  case neg =>
    simp only [hinit, hrunning, hstate, Bool.not_true, Bool.false_eq_true, if_false, ne_eq, not_false_eq_true, if_true]
    exact Or.inl ⟨by decide, hstopped, Or.inr (request_failed _ _)⟩
  simp only [hinit, hrunning, hstate, Bool.not_true, Bool.false_eq_true, if_false, ne_eq, not_true_eq_false]
  rcases startAdapters_cases s world with ⟨herror, -⟩ | ⟨hadapters, -⟩
  · rw [andThen_failure herror]
    exact Or.inl ⟨herror, (startAdapters_keeps s world).running.trans hstopped,
      Or.inr (startAdapters_failed herror)⟩
  · rw [andThen_success (by rw [hadapters]), hadapters]
    rcases syncBrokerSnapshot_cases s world with ⟨herror, hfailed⟩ | ⟨hsuccess, snapshot, hsnapshot, hbooks⟩
    · rw [andThen_failure herror]
      exact Or.inl ⟨herror, (syncBrokerSnapshot_keeps s world).running.trans hstopped, Or.inr hfailed⟩
    · rw [andThen_success hsuccess]
      refine Or.inr ⟨rfl, trivial, trivial, trivial, ?_, snapshot, hsnapshot, ?_⟩
      · unfold advanceReadyGates
        split_ifs
        · rw [(onMarketHealthChanged_keeps _ true).running]
          rfl
        · rfl
      · unfold advanceReadyGates
        split_ifs
        · rw [onMarketHealthChanged_books]
          exact hbooks
        · exact hbooks

end TradingEngine

/-! ## What a session knows of the ones before it -/

/-- The order with this client id is past sending, and was not sent in this session. -/
def Spent (s : Shared) (c : UInt32) : Prop :=
  ∃ orderId, s.oms.clientOrderIndex.lookup c = some orderId ∧ Withheld s orderId ∧ orderId ∉ sentIds s.log

section Spent

variable {s : Shared}

theorem Knows.spent (h : Knows s.oms c) (hc : c ≠ 0) (hs : s.oms.Started) (hworker : s.worker = .idle)
    (hlog : s.log = []) : Spent s c := by
  obtain ⟨orderId, e, he, hclient⟩ := h
  refine ⟨orderId, (hs.wellFormed.index c orderId).mpr ⟨hc, e, he, hclient⟩, ⟨⟨e, he, ?_⟩, ?_⟩, ?_⟩
  · exact (hs.pastSending orderId e he).ge
  · rintro ⟨order, hmarked, -⟩
    rw [hworker] at hmarked
    cases hmarked
  · rw [hlog]
    exact List.not_mem_nil

theorem Spent.not_sent (h : Spent s c) (hs : Trading.Session s) (honce : Once s) : c ∉ sentClientIds s.log := by
  obtain ⟨orderId, hkey, -, hunsent⟩ := h
  obtain ⟨hc, e, he, hclient⟩ := (hs.wellFormed.index _ _).mp hkey
  intro hmem
  obtain ⟨⟨sentId, request⟩, hsent, rfl⟩ := List.mem_map.mp hmem
  obtain ⟨e', he', -, hclient'⟩ := honce.sent sentId request hsent
  have hsame : sentId = orderId := hs.wellFormed.unique he he' (hclient ▸ hc) (hclient'.trans hclient.symm)
  exact hunsent (List.mem_map.mpr ⟨_, hsent, hsame⟩)

theorem Spent.step {t t' : System} {a : Trading.Action} (h : Spent t.shared c) (hv : Trading.sessionOutline.Valid t)
    (hfresh : Trading.fresh t a = true) (hs : Trading.step t a = some t') : Spent t'.shared c := by
  obtain ⟨orderId, hkey, hwithheld, hunsent⟩ := h
  obtain ⟨hwithheld', hsent⟩ := Trading.step_withheld hwithheld hv hfresh hs
  exact ⟨orderId, (Trading.step_extends hs).index c orderId hkey, hwithheld', fun hmem => hunsent (hsent.mp hmem)⟩

end Spent

namespace Restarts

/-- While the engine runs. -/
structure Live (s : Restarts) (c : UInt32) : Prop where
  valid : Trading.sessionOutline.Valid s.trading
  once : Once s.trading.shared
  spent : c ∈ sentClientIds s.earlier → Spent s.trading.shared c

structure Inv (s : Restarts) (c : UInt32) : Prop where
  initialized : s.engine.running = true → s.engine.initialized = true
  unsynchronized : s.engine.Unsynchronized
  stopped : s.engine.running = false → s.trading.shared.log = []
  live : s.engine.running = true → s.Live c
  once : (sentClientIds s.earlier).count c ≤ 1

variable {s s' : Restarts}

theorem Inv.total (h : s.Inv c) (hc : c ≠ 0) : (sentClientIds s.log).count c ≤ 1 := by
  have happend : sentClientIds s.log = sentClientIds s.trading.shared.log ++ sentClientIds s.earlier := by
    simp [log, sentClientIds, sends]
  rw [happend, List.count_append]
  have hearlier := h.once
  cases hrunning : s.engine.running with
  | false =>
    rw [h.stopped hrunning]
    simpa [sentClientIds, sends] using hearlier
  | true =>
    have hlive := h.live hrunning
    by_cases hmem : c ∈ sentClientIds s.earlier
    · have hnow := List.count_eq_zero.mpr ((hlive.spent hmem).not_sent hlive.valid.1 hlive.once)
      omega
    · rw [List.count_eq_zero.mpr hmem]
      exact hlive.once.count_client hlive.valid.1 c hc

/-! ## Every step -/

theorem trade_cases {action : Trading.Action} (h : s.step (.trade action) = some s') :
    s.engine.running = true ∧ ∃ trading, Trading.step s.trading action = some trading ∧
      s' = { s with engine.books := trading.shared.books, trading } := by
  simp only [step, Option.ite_none_right_eq_some, Option.map_eq_some_iff] at h
  obtain ⟨hrunning, trading, hstep, rfl⟩ := h
  exact ⟨hrunning, trading, hstep, rfl⟩

theorem stop_eq (h : s.step .stop = some s') : s' = { engine := s.engine.stop.2, earlier := s.log } := by
  simp only [step, Option.ite_none_right_eq_some, Option.some.injEq] at h
  exact h.2.symm

/-- What the broker answers to `Start`, that no call outlives `Stop`, and that new order ids are new. -/
def Answered (c : UInt32) (s : Restarts) : RestartAction → Prop
  | .start world _ => ∀ snapshot ∈ world.snapshot, snapshot.Lists s.log c
  | .trade action => Trading.fresh s.trading action = true
  | .stop => ∀ pc ∈ s.trading.calls, hasEnded pc = true
  | _ => True

instance (c : UInt32) (s : Restarts) (a : RestartAction) : Decidable (Answered c s a) := by
  cases a <;> unfold Answered <;> infer_instance

theorem Inv.engine (h : s.Inv c) {engine : TradingEngine} (hrunning : engine.running = s.engine.running)
    (hinit : s.engine.initialized = true → engine.initialized = true) (hunsync : engine.Unsynchronized) :
    Inv { s with engine } c := by
  refine ⟨fun hr => hinit (h.initialized (hrunning ▸ hr)), hunsync, fun hr => h.stopped (hrunning ▸ hr),
    fun hr => ?_, h.once⟩
  obtain ⟨hv, honce, hspent⟩ := h.live (hrunning ▸ hr)
  exact ⟨hv, honce, hspent⟩

theorem Inv.init (h : s.Inv c) (config : BootstrapConfig) (clock : Clock) (answer : Result EngineConfig) :
    Inv { s with engine := (s.engine.init config clock answer).2 } c := by
  cases hinit : s.engine.initialized with
  | true =>
    rw [TradingEngine.init_initialized hinit]
    exact h
  | false =>
    have hrunning := s.engine.init_running config clock answer
    refine h.engine hrunning (fun hno => absurd (hinit.symm.trans hno) (by decide)) fun hi _ _ => ?_
    exact TradingEngine.init_unsynchronized hinit config clock answer hi

theorem Inv.start (h : s.Inv c) (hc : c ≠ 0) (world : Surroundings) (bridge : Bool)
    (hlists : ∀ snapshot ∈ world.snapshot, snapshot.Lists s.log c) (hs : s.step (.start world bridge) = some s') :
    s'.Inv c := by
  have hinitialized := (s.engine.start_keeps world).2.1
  rcases s.engine.start_takes world with ⟨hfailed, hrunning, hstate⟩ |
    ⟨hsuccess, hinit, hstopped, hstate, hrunning, snapshot, hsnapshot, hbooks⟩
  · simp only [step, if_neg hfailed, Option.some.injEq] at hs
    subst hs
    refine h.engine hrunning (fun hi => hinitialized.trans hi) fun hi hr hinitiated => ?_
    rcases hstate with hsame | hno
    · rw [hsame] at hi hr hinitiated ⊢
      exact h.unsynchronized hi hr hinitiated
    · exact absurd hinitiated hno
  · simp only [step, if_pos hsuccess, Option.some.injEq] at hs
    subst hs
    obtain ⟨oms, options, hfresh⟩ := h.unsynchronized hinit hstopped hstate
    have hlist := hlists snapshot hsnapshot
    obtain ⟨hstartup, hknows⟩ := synchronize_knows hfresh hlist.orderIds hlist.identified
    rw [← hbooks] at hstartup hknows
    have hinitial : Trading.Initial (opened (s.engine.start world).2 bridge) := ⟨hstartup, rfl, rfl, rfl, rfl, rfl⟩
    refine ⟨fun _ => hinitialized.trans hinit, fun _ hr => absurd (hr.symm.trans hrunning) (by decide),
      fun hr => absurd (hr.symm.trans hrunning) (by decide), fun _ => ⟨hinitial.valid, hinitial.once, ?_⟩, h.once⟩
    intro hmem
    have hsent : c ∈ sentClientIds s.log := by
      rw [log, h.stopped hstopped]
      exact hmem
    obtain ⟨order, horder, rfl⟩ := hlist.sent hsent
    exact (hknows order horder).spent hc hstartup.started rfl rfl

theorem Inv.trade (h : s.Inv c) {action : Trading.Action} (hfresh : Trading.fresh s.trading action = true)
    (hs : s.step (.trade action) = some s') : s'.Inv c := by
  obtain ⟨hrunning, trading, hstep, rfl⟩ := trade_cases hs
  obtain ⟨hv, honce, hspent⟩ := h.live hrunning
  refine ⟨h.initialized, fun _ hr => absurd (hr.symm.trans hrunning) (by decide),
    fun hr => absurd (hr.symm.trans hrunning) (by decide), fun _ => ⟨?_, ?_, fun hmem => ?_⟩, h.once⟩
  · exact Trading.sessionOutline.valid_step hv hfresh hstep
  · exact Trading.step_once honce hv hfresh hstep
  · exact (hspent hmem).step hv hfresh hstep

theorem Inv.configured (h : s.Inv c) {engine : TradingEngine} (hrunning : engine.running = s.engine.running)
    (hinit : engine.initialized = s.engine.initialized) (hunsync : engine.Unsynchronized) :
    (s.configured engine).Inv c := by
  refine ⟨fun hr => hinit.trans (h.initialized (hrunning ▸ hr)), hunsync, fun hr => h.stopped (hrunning ▸ hr),
    fun hr => ?_, h.once⟩
  obtain ⟨⟨hv, hcalls⟩, ho, hspent⟩ := h.live (hrunning ▸ hr)
  -- Neither the limits nor the rules are looked at by what holds of the orders.
  refine ⟨⟨⟨hv.wellFormed, hv.initialized, hv.queued, hv.working⟩, fun index pc hpc => ?_⟩,
    ⟨ho.nodup, ho.sent, ho.pending, ho.unsent, ho.marked⟩, fun hmem => ?_⟩
  · exact Trading.sessionOutline.stable s.trading.shared _ index pc (Change.refl _) (hcalls index pc hpc)
  · obtain ⟨orderId, hkey, ⟨hpast, hunmarked⟩, hunsent⟩ := hspent hmem
    exact ⟨orderId, hkey, ⟨hpast, hunmarked⟩, hunsent⟩

theorem Inv.begin (h : s.Inv c) (hc : c ≠ 0) {engine : TradingEngine} (hinit : engine.initialized = false)
    (hrunning : engine.running = false) : Inv { engine, earlier := s.log } c :=
  ⟨fun hr => absurd (hrunning.symm.trans hr) (by decide), fun hi => absurd (hinit.symm.trans hi) (by decide),
    fun _ => rfl, fun hr => absurd (hrunning.symm.trans hr) (by decide), h.total hc⟩

theorem step_inv (h : s.Inv c) (hc : c ≠ 0) {a : RestartAction} (hok : Answered c s a)
    (hs : s.step a = some s') : s'.Inv c := by
  cases a with
  | inject configBridge accountBridge accountRiskBridge quoteApi traderApi =>
    cases hs
    unfold inject
    split_ifs
    · exact h.engine rfl id h.unsynchronized
    · exact h.engine rfl id h.unsynchronized
  | init config clock answer =>
    cases hs
    exact h.init config clock answer
  | start world bridge => exact h.start hc world bridge hok hs
  | onEngineConfig config nowMs =>
    cases hs
    have hrests := s.engine.onEngineConfig_rests config nowMs
    refine h.configured hrests.running hrests.initialized fun hi hr hstate => ?_
    rw [(s.engine.onEngineConfig_same config nowMs).books]
    exact h.unsynchronized (hrests.initialized ▸ hi) (hrests.running ▸ hr)
      (TradingEngine.initiated_of_onEngineConfig config nowMs hstate)
  | marketHealth healthy =>
    cases hs
    have hkeeps := s.engine.onMarketHealthChanged_keeps healthy
    refine h.engine hkeeps.running hkeeps.initialized.trans fun hi hr hstate => ?_
    rw [s.engine.onMarketHealthChanged_books healthy]
    exact h.unsynchronized (hkeeps.initialized ▸ hi) (hkeeps.running ▸ hr)
      (TradingEngine.initiated_of_onMarketHealthChanged healthy hstate)
  | trade action => exact h.trade hok hs
  | stop =>
    obtain rfl := stop_eq hs
    have hstop := s.engine.stop_keeps
    exact h.begin hc hstop.2.1 hstop.2.2.1
  | crash =>
    cases hs
    exact h.begin hc rfl rfl

theorem inv_new (c : UInt32) : Inv {} c :=
  ⟨fun hr => absurd hr (by decide), fun hi => absurd hi (by decide), fun _ => rfl, fun hr => absurd hr (by decide),
    Nat.zero_le _⟩

/-- However often the engine is stopped, started and killed, and whatever is traded between: where the broker names
what was sent to it before, it is not sent twice. -/
theorem sent_once_in_all (hc : c ≠ 0) (h : Runs.Reaches step (Answered c) {} s) :
    (sentClientIds s.log).count c ≤ 1 :=
  (h.invariant (inv_new c) fun _ _ _ hi hok hs => step_inv hi hc hok hs).total hc

/-- `Init` and `Start` of an engine without support services. -/
def startup (seconds : UInt64) (snapshot : BrokerSnapshot) : List RestartAction :=
  [.inject false false false true true,
    .init { configService := false, accountService := false, accountRiskService := false } ⟨seconds, 0⟩ {},
    .start { snapshot := some snapshot } false]

def trades (actions : List Trading.Action) : List RestartAction := actions.map .trade

/-- The process dies while the trader has an order, and the strategy submits it once more. -/
def submitTwice : List RestartAction :=
  startup 1 {} ++
    trades (.start (.submit Trading.limitBuy) :: List.replicate 10 (.resume 0 .silent) ++ Trading.workerToTrader) ++
    .crash :: startup 2 { orders := [{ orderId := "default-default-1-1", clientOrderId := 1 }] } ++
    trades (.start (.submit Trading.limitBuy) :: List.replicate 5 (.resume 0 .silent))

theorem sent_once_in_all_crash : ∃ s : Restarts, Runs.Reaches step (Answered 1) {} s ∧
    s.trading.calls = [.submit (.done Trading.limitBuy .success)] ∧ sentClientIds s.log = [1] ∧
    (sentClientIds s.log).count 1 ≤ 1 := by
  have hrun : ∃ s ∈ Runs.execWhile step (Answered 1) {} submitTwice,
      s.trading.calls = [.submit (.done Trading.limitBuy .success)] ∧ sentClientIds s.log = [1] := by decide +kernel
  obtain ⟨s, hs, hcalls, hsent⟩ := hrun
  have hreach := Runs.reaches_of_execWhile _ hs
  exact ⟨s, hreach, hcalls, hsent, sent_once_in_all (by decide) hreach⟩

end Restarts

end Qtrade.Engine
