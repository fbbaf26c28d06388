import Qtrade.Engine.Configured
import Qtrade.Lib.Joined
import Qtrade.Oms.Operations

/-!
# Order ids across engines and sessions

An order id joins tenant, engine, the second of `Init` and a counter that starts anew in each session.
Any number of engines run beside each other; the sessions of one engine follow each other.
-/

namespace Qtrade.Oms.OrderManager

/-- Tenant and engine as an order id joins them. -/
def joinedName (tenantId engineId : String) : String := tenantId ++ "-" ++ engineId

/-- The operation calls `AllocateOrderId`. -/
def allocates (s : OrderManager) : Operation → Bool
  | .allocateOrderId | .createOrderAllocating _ => true
  | .reconcileBrokerOrder report => s.adoptsUnderNewId report
  | _ => false

variable {s s' : OrderManager} {id : String}

theorem nextOrderId_inj : s.nextOrderId = s'.nextOrderId ↔
    joinedName s.tenantId s.engineId = joinedName s'.tenantId s'.engineId ∧ s.engineEpoch = s'.engineEpoch ∧
      s.orderIdCounter = s'.orderIdCounter := by
  have hdigits : ∀ n : Nat, '-' ∉ (toString n).toList := by
    intro n h
    have hdigit := Joined.mem_toString h
    cases hdigit
  have hsep : "-" = String.singleton '-' := rfl
  unfold nextOrderId joinedName
  rw [hsep, Joined.string_inj (hdigits _) (hdigits _), Joined.string_inj (hdigits _) (hdigits _),
    Joined.toString_injective.eq_iff, Joined.toString_injective.eq_iff, UInt64.toNat_inj, UInt64.toNat_inj, and_assoc]
  simp

theorem perform_lookup {operation : Operation} {e : OrderEntry} (hstop : operation ≠ .shutdown)
    (hinit : ∀ options, operation ≠ .initializeWith options)
    (hcreate : ∀ request orderId, operation = .createOrder request orderId → orderId ≠ id)
    (hnew : s.allocates operation = true → s.nextOrderId ≠ id) (he : s.orders.lookup id = some e) :
    ∃ e', (s.perform operation).orders.lookup id = some e' ∧ e.Advances e' := by
  have hsame : ∀ s' : OrderManager, s'.orders.lookup id = s.orders.lookup id →
      ∃ e', s'.orders.lookup id = some e' ∧ e.Advances e' :=
    fun s' heq => ⟨e, heq.trans he, OrderEntry.Advances.refl e⟩
  have hborn : ∀ (s' : OrderManager) (request : OrderRequest) (orderId : String), s'.orders = s.orders →
      orderId ≠ id → ∃ e', (s'.createOrder request orderId).2.orders.lookup id = some e' ∧ e.Advances e' := by
    intro s' request orderId horders hne
    apply hsame
    unfold createOrder
    split
    · rw [horders]
    · generalize (if request.clientOrderId ≠ 0 then _ else none : Option String) = known
      cases known with
      | none =>
        dsimp only
        rw [orders_index, store, Table.lookup_store, if_neg (Ne.symm hne), horders]
      | some existing =>
        dsimp only
        split <;> rw [horders]
  have hsettles : ∀ {s' : OrderManager}, Evolves OrderEntry.Settles s s' →
      ∃ e', s'.orders.lookup id = some e' ∧ e.Advances e' := by
    intro s' hs
    obtain ⟨e', he', hset⟩ := hs.lookup he
    exact ⟨e', he', hset.toAdvances⟩
  induction operation with
  | initializeWith options => exact absurd rfl (hinit options)
  | shutdown => exact absurd rfl hstop
  | allocateOrderId => exact hsame _ rfl
  | createOrder request orderId => exact hborn s request orderId rfl (hcreate request orderId rfl)
  | createOrderAllocating request =>
    apply hborn s.allocateOrderId.2 request s.allocateOrderId.1 rfl
    exact hnew rfl
  | reconcileBrokerOrder report =>
    unfold perform
    dsimp only
    rcases reconcileBrokerOrder_cases s report with
      ⟨key, e₀, hf, hok, hs⟩ | ⟨_, hf, _, hs⟩ | ⟨hadopts, hs⟩ | ⟨_, hs⟩
    · rw [hs]
      have hset := orderReport_settles e₀ report
      rw [kept, if_pos hok] at hset
      obtain ⟨e', he', hset'⟩ := (store_evolves OrderEntry.Settles.refl (findOrderLocked_some hf).1 hset).lookup he
      exact ⟨e', he', hset'.toAdvances⟩
    · rw [hs]
      apply hsame
      rw [lookup_adopt, if_neg]
      rintro rfl
      simp [findOrderLocked, he] at hf
    · rw [hs]
      apply hsame
      rw [lookup_adopt, if_neg]
      · rfl
      · exact Ne.symm (hnew hadopts)
    · rw [hs]
      exact hsame s rfl
  | applyOrderReport report => exact hsettles (applyOrderReport_evolves s report)
  | applyTradeReport report => exact hsettles (applyTradeReport_evolves s report)
  | markReconciled orderId =>
    apply hsame
    unfold perform markReconciled
    dsimp only
    split <;> rfl
  | cancelOrder orderId => exact hsettles (cancelOrder_evolves s orderId)
  | markEmsQueued orderId => exact (markEmsQueued_evolves s orderId).lookup he
  | markSendPending orderId => exact (markSendPending_evolves s orderId).lookup he
  | recordSendResult orderId result => exact hsettles (recordSendResult_evolves s orderId result)
  | recordCancelResult orderId result => exact hsettles (recordCancelResult_evolves s orderId result)

/-- What an order id is made from. -/
def identity (s : OrderManager) : String × String × UInt64 × UInt64 :=
  (s.tenantId, s.engineId, s.engineEpoch, s.orderIdCounter)

theorem identity_update (s : OrderManager) (orderId : String) (change : OrderEntry → ErrorCode × OrderEntry) :
    (s.update orderId change).2.identity = s.identity := by
  unfold update
  split <;> rfl

theorem identity_index (s : OrderManager) (c : UInt32) (orderId : String) :
    (s.index c orderId).identity = s.identity := by
  unfold index
  split <;> rfl

theorem identity_createOrder (s : OrderManager) (request : OrderRequest) (orderId : String) :
    (s.createOrder request orderId).2.identity = s.identity := by
  unfold createOrder
  split
  · rfl
  · split
    · split <;> rfl
    · exact identity_index _ _ _

theorem identity_adopt (s : OrderManager) (report : Order) (orderId : String) :
    (s.adopt report orderId).identity = s.identity :=
  identity_index (s.store orderId (adoptedEntry report orderId)) report.clientOrderId orderId

/-- The identity stays, and the counter moves with each id that is allocated. -/
theorem identity_perform {operation : Operation} (hinit : ∀ options, operation ≠ .initializeWith options) :
    (s.perform operation).identity = (s.tenantId, s.engineId, s.engineEpoch,
      if s.allocates operation then s.orderIdCounter + 1 else s.orderIdCounter) := by
  induction operation with
  | initializeWith options => exact absurd rfl (hinit options)
  | shutdown | allocateOrderId => rfl
  | createOrder request orderId => exact identity_createOrder s request orderId
  | createOrderAllocating request => exact identity_createOrder s.allocateOrderId.2 request s.allocateOrderId.1
  | reconcileBrokerOrder report =>
    unfold perform allocates
    dsimp only
    rcases reconcileBrokerOrder_cases s report with
      ⟨key, e, hf, _, hs⟩ | ⟨_, _, hid, hs⟩ | ⟨hadopts, hs⟩ | ⟨hwhy, hs⟩
    · rw [hs]
      simp [adoptsUnderNewId, hf, identity, store]
    · rw [hs, identity_adopt]
      simp [adoptsUnderNewId, hid, identity]
    · rw [hs, identity_adopt]
      simp [hadopts, identity, OrderManager.allocateOrderId]
    · have hno : s.adoptsUnderNewId report = false := by
        unfold adoptsUnderNewId
        rcases hwhy with hno | hfound | ⟨_, hzero⟩
        · simp [hno]
        · simp [hfound]
        · simp [hzero]
      simp [hs, hno, identity]
  | applyOrderReport report =>
    unfold perform applyOrderReport
    dsimp only
    split
    · rfl
    · split <;> rfl
  | applyTradeReport report =>
    unfold perform applyTradeReport
    dsimp only
    split
    · rfl
    · split
      · rfl
      · split <;> rfl
  | markReconciled orderId =>
    unfold perform markReconciled
    dsimp only
    split <;> rfl
  | cancelOrder orderId => exact identity_update s orderId _
  | markEmsQueued orderId => exact identity_update s orderId _
  | markSendPending orderId => exact identity_update s orderId _
  | recordSendResult orderId result => exact identity_update s orderId _
  | recordCancelResult orderId result => exact identity_update s orderId _

end Qtrade.Oms.OrderManager

namespace Qtrade.Engine

open Qtrade.Oms
open Qtrade.Oms.OrderManager

/-! ## `Init` begins a session -/

namespace TradingEngine

/-- What the order manager is initialised with. -/
structure SameOptions (s s' : TradingEngine) : Prop where
  books : s'.books = s.books
  bootstrapConfig : s'.bootstrapConfig = s.bootstrapConfig
  engineEpoch : s'.engineEpoch = s.engineEpoch

theorem of_andThen_success {result : ErrorCode × TradingEngine} {next : TradingEngine → ErrorCode × TradingEngine}
    {s' : TradingEngine} (h : andThen result next = (.success, s')) :
    result.1 = .success ∧ next result.2 = (.success, s') := by
  unfold andThen at h
  split at h
  case isTrue hok => exact ⟨hok, h⟩
  case isFalse hno => exact absurd (congrArg Prod.fst h) hno

theorem onEngineConfig_same (s : TradingEngine) (config : EngineConfig) (nowMs : Int) :
    SameOptions s (s.onEngineConfig config nowMs) := by
  unfold onEngineConfig
  dsimp only
  repeat' split
  all_goals exact ⟨rfl, rfl, rfl⟩

theorem fetchRuntimeConfig_same (s : TradingEngine) (answer : Result EngineConfig) (nowMs : Int) :
    SameOptions s (s.fetchRuntimeConfig answer nowMs).2 := by
  unfold fetchRuntimeConfig
  split
  · exact ⟨rfl, rfl, rfl⟩
  · split
    · exact onEngineConfig_same s _ nowMs
    · exact ⟨rfl, rfl, rfl⟩

theorem initAdapters_books (s : TradingEngine) : s.initAdapters.2.books = s.books := by
  unfold initAdapters
  split
  · rfl
  · split <;> rfl

theorem becomeInitiated_books (s : TradingEngine) : s.becomeInitiated.2.books = s.books := by
  unfold becomeInitiated
  split <;> rfl

theorem init_session {s s' : TradingEngine} {config : BootstrapConfig} {clock : Clock}
    {answer : Result EngineConfig} (hs : s.initialized = false)
    (h : s.init config clock answer = (.success, s')) :
    s.books.oms.initializeWith
        { tenantId := config.identity.tenantId, engineId := config.identity.engineId, engineEpoch := clock.seconds } =
      (.success, s'.books.oms) := by
  rw [init_eq hs] at h
  split at h
  case isFalse hno => exact absurd (congrArg Prod.fst h) hno
  case isTrue =>
    obtain ⟨hvalid, h⟩ := of_andThen_success h
    rw [validateSupportBridges_success hvalid] at h
    obtain ⟨_, h⟩ := of_andThen_success h
    have hsame := fetchRuntimeConfig_same (s.boot config clock) answer clock.nowMs
    generalize ((s.boot config clock).fetchRuntimeConfig answer clock.nowMs).2 = s₁ at h hsame
    obtain ⟨hmodules, h⟩ := of_andThen_success h
    obtain ⟨_, h⟩ := of_andThen_success h
    -- The stages that are left keep the books.
    have hbooks : s'.books = s₁.initEngineModules.2.books := by
      rw [← initAdapters_books s₁.initEngineModules.2, ← becomeInitiated_books s₁.initEngineModules.2.initAdapters.2, h]
    rw [hbooks]
    unfold initEngineModules at hmodules ⊢
    rw [hsame.books, hsame.bootstrapConfig, hsame.engineEpoch] at hmodules ⊢
    dsimp only at hmodules ⊢
    split at hmodules
    case isTrue hno => exact absurd hmodules hno
    case isFalse hok =>
      rw [if_neg hok]
      exact Prod.ext (not_not.mp hok) rfl

end TradingEngine

/-! ## Engines and their sessions -/

/-- A call of `AllocateOrderId`: the session, which call of the session it is, and the answer. -/
structure Allocation where
  session : Nat
  number : Nat
  tenantId : String
  engineId : String
  epoch : UInt64
  orderId : String

/-- Each engine has its latest session and its order manager. The newest allocation comes first. -/
structure Fleet where
  seconds : UInt64 := 0
  engines : Table (String × String) (Nat × OrderManager) := ∅
  sessions : Nat := 0
  allocations : List Allocation := []

/-- The clock moves on, an engine is initialised, or it does something else with its order manager. -/
inductive FleetAction
  | clock (seconds : UInt64)
  | init (tenantId engineId : String)
  | operate (tenantId engineId : String) (operation : Operation)

namespace Fleet

/-- How many ids a session has allocated. -/
def count (w : Fleet) (session : Nat) : Nat := (w.allocations.filter (·.session = session)).length

/-- The next call of the session that an engine is in. -/
def nextAllocation (w : Fleet) (session : Nat) (oms : OrderManager) : Allocation where
  session
  number := w.count session + 1
  tenantId := oms.tenantId
  engineId := oms.engineId
  epoch := oms.engineEpoch
  orderId := oms.allocateOrderId.1

def allocate (w : Fleet) (session : Nat) (oms : OrderManager) : Fleet :=
  { w with allocations := w.nextAllocation session oms :: w.allocations }

def step (w : Fleet) : FleetAction → Option Fleet
  | .clock seconds => if w.seconds ≤ seconds then some { w with seconds } else none
  | .init tenantId engineId =>
    let oms := ((w.engines.lookup (tenantId, engineId)).map (·.2)).getD {}
    match oms.initializeWith { tenantId, engineId, engineEpoch := w.seconds } with
    | (.success, oms) =>
      some { w with engines := w.engines.insert (tenantId, engineId) (w.sessions, oms), sessions := w.sessions + 1 }
    | _ => none
  | .operate _ _ (.initializeWith _) => none
  | .operate tenantId engineId operation =>
    match w.engines.lookup (tenantId, engineId) with
    | none => none
    | some (session, oms) =>
      some { (if oms.allocates operation then w.allocate session oms else w) with
        engines := w.engines.insert (tenantId, engineId) (session, oms.perform operation) }

/-- No session allocates more ids than the counter has values, and two sessions that allocate differ in
the joined name or in the second in which they began. -/
def Apart (w : Fleet) : Prop :=
  (∀ a ∈ w.allocations, a.number ≤ 2 ^ 64) ∧
    ∀ a ∈ w.allocations, ∀ b ∈ w.allocations, a.session ≠ b.session →
      joinedName a.tenantId a.engineId = joinedName b.tenantId b.engineId → a.epoch ≠ b.epoch

end Fleet

/-- The manager that answers with the allocation's id. -/
def Allocation.manager (a : Allocation) : OrderManager where
  tenantId := a.tenantId
  engineId := a.engineId
  engineEpoch := a.epoch
  orderIdCounter := UInt64.ofNat (a.number - 1)

namespace Fleet

variable {w w' : Fleet} {a b : Allocation} {key key' : String × String} {session : Nat} {oms : OrderManager}

/-- The calls of each session are numbered from one on, and an answer is made from the session's
identity and the number of the call. -/
structure Numbered (w : Fleet) : Prop where
  answer : ∀ a ∈ w.allocations, a.orderId = a.manager.nextOrderId
  number : ∀ a ∈ w.allocations, 1 ≤ a.number ∧ a.number ≤ w.count a.session
  distinct : w.allocations.Pairwise fun a b => a.session = b.session → a.number ≠ b.number
  every : ∀ session n, 1 ≤ n → n ≤ w.count session → ∃ a ∈ w.allocations, a.session = session ∧ a.number = n
  same : ∀ a ∈ w.allocations, ∀ b ∈ w.allocations, a.session = b.session →
    a.tenantId = b.tenantId ∧ a.engineId = b.engineId ∧ a.epoch = b.epoch
  begun : ∀ a ∈ w.allocations, a.session < w.sessions

/-- The manager of an engine is where its latest session has got. -/
structure Current (w : Fleet) (session : Nat) (oms : OrderManager) : Prop where
  begun : session < w.sessions
  counter : oms.orderIdCounter = UInt64.ofNat (w.count session)
  identity : ∀ a ∈ w.allocations, a.session = session →
    a.tenantId = oms.tenantId ∧ a.engineId = oms.engineId ∧ a.epoch = oms.engineEpoch

structure Sound (w : Fleet) : Prop extends Numbered w where
  current : ∀ key session oms, w.engines.lookup key = some (session, oms) → w.Current session oms
  separate : ∀ key key' session oms oms', w.engines.lookup key = some (session, oms) →
    w.engines.lookup key' = some (session, oms') → key = key'

theorem count_eq_zero (h : w.Numbered) (hnew : w.sessions ≤ session) : w.count session = 0 := by
  unfold count
  rw [List.length_eq_zero_iff, List.filter_eq_nil_iff]
  intro a ha hsession
  have hbegun := h.begun a ha
  simp only [decide_eq_true_eq] at hsession
  omega

/-! ## A step -/

theorem sound_init (h : w.Sound) {tenantId engineId : String} (hs : step w (.init tenantId engineId) = some w') :
    w'.Sound := by
  simp only [step] at hs
  split at hs
  case h_2 => cases hs
  case h_1 oms homs =>
    cases hs
    have hcounter : oms.orderIdCounter = 0 := by
      unfold initializeWith at homs
      split at homs
      · cases homs
      · split at homs <;> cases homs
        rfl
    refine ⟨⟨h.answer, h.number, h.distinct, h.every, h.same, fun a ha => ?_⟩, ?_, ?_⟩
    · exact Nat.lt_succ_of_lt (h.begun a ha)
    · intro key session oms' hlookup
      rw [Table.lookup_store] at hlookup
      split at hlookup
      · cases hlookup
        refine ⟨Nat.lt_succ_self _, ?_, fun a ha hsession => ?_⟩
        · have hzero : w.count w.sessions = 0 := count_eq_zero h.toNumbered (Nat.le_refl _)
          rw [hcounter]
          unfold count at hzero ⊢
          rw [hzero]
          rfl
        · have hbegun := h.begun a ha
          omega
      · have hcurrent := h.current key session oms' hlookup
        exact ⟨Nat.lt_succ_of_lt hcurrent.begun, hcurrent.counter, hcurrent.identity⟩
    · intro key key' session oms₁ oms₂ h₁ h₂
      rw [Table.lookup_store] at h₁ h₂
      -- A session that is older than the new one belongs to another engine.
      split at h₁ <;> split at h₂
      case isTrue.isTrue hkey hkey' => rw [hkey, hkey']
      case isTrue.isFalse =>
        cases h₁
        have hbegun := (h.current key' w.sessions oms₂ h₂).begun
        omega
      case isFalse.isTrue =>
        cases h₂
        have hbegun := (h.current key w.sessions oms₁ h₁).begun
        omega
      case isFalse.isFalse => exact h.separate key key' session oms₁ oms₂ h₁ h₂

theorem count_allocate (w : Fleet) (session session' : Nat) (oms : OrderManager) :
    (w.allocate session oms).count session' =
      if session' = session then w.count session + 1 else w.count session' := by
  unfold count allocate
  by_cases hsession : session' = session
  · subst hsession
    rw [if_pos rfl, List.filter_cons_of_pos (by simp [nextAllocation])]
    rfl
  · rw [if_neg hsession, List.filter_cons_of_neg (by simp [nextAllocation, Ne.symm hsession])]

theorem count_le_allocate (w : Fleet) (session session' : Nat) (oms : OrderManager) :
    w.count session' ≤ (w.allocate session oms).count session' := by
  rw [count_allocate]
  split
  case isTrue hsession =>
    rw [hsession]
    omega
  case isFalse => exact Nat.le_refl _

theorem Numbered.allocate (h : w.Numbered) (hcurrent : w.Current session oms) :
    (w.allocate session oms).Numbered := by
  have hanswer : (w.nextAllocation session oms).orderId = (w.nextAllocation session oms).manager.nextOrderId := by
    apply nextOrderId_inj.mpr
    exact ⟨rfl, rfl, hcurrent.counter⟩
  have hmem : ∀ {p : Allocation → Prop}, p (w.nextAllocation session oms) → (∀ a ∈ w.allocations, p a) →
      ∀ a ∈ (w.allocate session oms).allocations, p a := by
    intro p hnew hold a ha
    rcases List.mem_cons.mp ha with rfl | ha
    · exact hnew
    · exact hold a ha
  refine ⟨?_, ?_, ?_, ?_, ?_, ?_⟩
  · exact hmem hanswer h.answer
  · apply hmem
    · refine ⟨Nat.succ_pos _, ?_⟩
      rw [count_allocate, nextAllocation, if_pos rfl]
    · intro a ha
      have hnumber := h.number a ha
      have hle := count_le_allocate w session a.session oms
      omega
  · refine List.pairwise_cons.mpr ⟨fun b hb hsession hsame => ?_, h.distinct⟩
    have hnumber := (h.number b hb).2
    rw [← hsession, ← hsame] at hnumber
    exact absurd hnumber (Nat.not_succ_le_self _)
  · intro session' n hone hle
    rw [count_allocate] at hle
    by_cases hlast : session' = session ∧ n = w.count session + 1
    · exact ⟨_, List.mem_cons_self, hlast.1.symm, hlast.2.symm⟩
    · have hold : n ≤ w.count session' := by
        split at hle
        case isTrue hsession =>
          subst hsession
          have hne : n ≠ w.count session' + 1 := fun heq => hlast ⟨rfl, heq⟩
          omega
        case isFalse => exact hle
      obtain ⟨a, ha, hfound⟩ := h.every session' n hone hold
      exact ⟨a, List.mem_cons_of_mem _ ha, hfound⟩
  · have hnew : ∀ b ∈ w.allocations, b.session = session →
        b.tenantId = oms.tenantId ∧ b.engineId = oms.engineId ∧ b.epoch = oms.engineEpoch := hcurrent.identity
    apply hmem
    · apply hmem
      · exact fun _ => ⟨rfl, rfl, rfl⟩
      · intro b hb hsession
        obtain ⟨ht, he, hepoch⟩ := hnew b hb hsession.symm
        exact ⟨ht.symm, he.symm, hepoch.symm⟩
    · intro a ha
      apply hmem
      · exact hnew a ha
      · exact h.same a ha
  · exact hmem hcurrent.begun h.begun

theorem step_operate {tenantId engineId : String} {operation : Operation}
    (hs : step w (.operate tenantId engineId operation) = some w') :
    (∀ options, operation ≠ .initializeWith options) ∧
      ∃ session oms, w.engines.lookup (tenantId, engineId) = some (session, oms) ∧
        w' = { (if oms.allocates operation then w.allocate session oms else w) with
          engines := w.engines.insert (tenantId, engineId) (session, oms.perform operation) } := by
  unfold step at hs
  split at hs
  case h_3 => cases hs
  case h_4 hinit heq =>
    cases heq
    refine ⟨hinit, ?_⟩
    split at hs
    case h_1 => cases hs
    case h_2 session oms hlookup =>
      cases hs
      exact ⟨session, oms, hlookup, rfl⟩
  all_goals
    rename_i heq
    cases heq

theorem Current.allocate_other {session' : Nat} {oms' : OrderManager} (h : w.Current session' oms')
    (hother : session' ≠ session) : (w.allocate session oms).Current session' oms' := by
  refine ⟨h.begun, ?_, fun a ha hsession => ?_⟩
  · rw [count_allocate, if_neg hother]
    exact h.counter
  · rcases List.mem_cons.mp ha with rfl | ha
    · exact absurd hsession.symm hother
    · exact h.identity a ha hsession

theorem Current.allocate_self {oms' : OrderManager} (h : w.Current session oms)
    (hidentity : oms'.identity = (oms.tenantId, oms.engineId, oms.engineEpoch, oms.orderIdCounter + 1)) :
    (w.allocate session oms).Current session oms' := by
  simp only [OrderManager.identity, Prod.mk.injEq] at hidentity
  obtain ⟨htenant, hengine, hepoch, hcounter⟩ := hidentity
  refine ⟨h.begun, ?_, fun a ha hsession => ?_⟩
  · rw [count_allocate, if_pos rfl, hcounter, h.counter]
    simp
  · rw [htenant, hengine, hepoch]
    rcases List.mem_cons.mp ha with rfl | ha
    · exact ⟨rfl, rfl, rfl⟩
    · exact h.identity a ha hsession

theorem Current.same {oms' : OrderManager} (h : w.Current session oms) (hidentity : oms'.identity = oms.identity) :
    w.Current session oms' := by
  simp only [OrderManager.identity, Prod.mk.injEq] at hidentity
  obtain ⟨htenant, hengine, hepoch, hcounter⟩ := hidentity
  refine ⟨h.begun, hcounter.trans h.counter, fun a ha hsession => ?_⟩
  rw [htenant, hengine, hepoch]
  exact h.identity a ha hsession

theorem sound_operate (h : w.Sound) {tenantId engineId : String} {operation : Operation}
    (hs : step w (.operate tenantId engineId operation) = some w') : w'.Sound := by
  obtain ⟨hinit, session, oms, hlookup, rfl⟩ := step_operate hs
  have hcurrent := h.current _ session oms hlookup
  have hidentity := identity_perform (s := oms) hinit
  -- What becomes of the sessions does not depend on the table of engines.
  have hnext : (if oms.allocates operation then w.allocate session oms else w).Numbered ∧
      (if oms.allocates operation then w.allocate session oms else w).Current session (oms.perform operation) ∧
      ∀ session' oms', session' ≠ session → w.Current session' oms' →
        (if oms.allocates operation then w.allocate session oms else w).Current session' oms' := by
    split
    case isTrue hyes =>
      rw [if_pos hyes] at hidentity
      exact ⟨h.toNumbered.allocate hcurrent, hcurrent.allocate_self hidentity,
        fun _ _ hother hold => hold.allocate_other hother⟩
    case isFalse hno =>
      rw [if_neg hno] at hidentity
      exact ⟨h.toNumbered, hcurrent.same hidentity, fun _ _ _ hold => hold⟩
  generalize (if oms.allocates operation then w.allocate session oms else w) = w₁ at hnext
  obtain ⟨hnumbered, hself, hothers⟩ := hnext
  refine ⟨⟨hnumbered.answer, hnumbered.number, hnumbered.distinct, hnumbered.every, hnumbered.same,
    hnumbered.begun⟩, ?_, ?_⟩
  · intro key session' oms' hlookup'
    rw [Table.lookup_store] at hlookup'
    split at hlookup'
    case isTrue =>
      cases hlookup'
      exact ⟨hself.begun, hself.counter, hself.identity⟩
    case isFalse hkey =>
      have hother : session' ≠ session := by
        rintro rfl
        exact hkey (h.separate _ _ _ _ _ hlookup' hlookup)
      have hold := hothers session' oms' hother (h.current key session' oms' hlookup')
      exact ⟨hold.begun, hold.counter, hold.identity⟩
  · intro key key' session' oms₁ oms₂ h₁ h₂
    have hplace : ∀ key oms', (w.engines.insert (tenantId, engineId) (session, oms.perform operation)).lookup key =
        some (session', oms') → ∃ oms', w.engines.lookup key = some (session', oms') := by
      intro key oms' hkey
      rw [Table.lookup_store] at hkey
      split at hkey
      case isTrue heq =>
        cases hkey
        exact ⟨oms, heq ▸ hlookup⟩
      case isFalse => exact ⟨oms', hkey⟩
    obtain ⟨_, hold₁⟩ := hplace key oms₁ h₁
    obtain ⟨_, hold₂⟩ := hplace key' oms₂ h₂
    exact h.separate key key' session' _ _ hold₁ hold₂

theorem sound_of_reaches (h : Runs.Reaches step Runs.anyStep {} w) : w.Sound := by
  apply h.invariant
  · refine ⟨⟨?_, ?_, List.Pairwise.nil, ?_, ?_, ?_⟩, ?_, ?_⟩
    all_goals simp [count]
    intro n hone hzero
    omega
  · intro w a w' hsound _ hs
    induction a with
    | clock seconds =>
      simp only [step] at hs
      split at hs
      case isTrue =>
        cases hs
        exact ⟨⟨hsound.answer, hsound.number, hsound.distinct, hsound.every, hsound.same, hsound.begun⟩,
          fun key session oms hlookup =>
            have hcurrent := hsound.current key session oms hlookup
            ⟨hcurrent.begun, hcurrent.counter, hcurrent.identity⟩,
          hsound.separate⟩
      case isFalse => cases hs
    | init tenantId engineId => exact sound_init hsound hs
    | operate tenantId engineId operation => exact sound_operate hsound hs

/-! ## Ids that are told apart -/

theorem Numbered.orderId_eq (h : w.Numbered) (ha : a ∈ w.allocations) (hb : b ∈ w.allocations) :
    a.orderId = b.orderId ↔ joinedName a.tenantId a.engineId = joinedName b.tenantId b.engineId ∧
      a.epoch = b.epoch ∧ (a.number - 1) % 2 ^ 64 = (b.number - 1) % 2 ^ 64 := by
  rw [h.answer a ha, h.answer b hb, nextOrderId_inj]
  unfold Allocation.manager
  dsimp only
  rw [← UInt64.toNat_inj, ← UInt64.toNat_inj, UInt64.toNat_ofNat', UInt64.toNat_ofNat', UInt64.toNat_inj]

theorem Numbered.nodup (h : w.Numbered) (hapart : w.Apart) : (w.allocations.map (·.orderId)).Nodup := by
  unfold List.Nodup
  rw [List.pairwise_map]
  refine h.distinct.imp_of_mem fun {a b} ha hb hdistinct hsame => ?_
  obtain ⟨hname, hepoch, hcounter⟩ := (h.orderId_eq ha hb).mp hsame
  by_cases hsession : a.session = b.session
  · have hne := hdistinct hsession
    have hna := h.number a ha
    have hnb := h.number b hb
    have hla := hapart.1 a ha
    have hlb := hapart.1 b hb
    rw [Nat.mod_eq_of_lt (by omega), Nat.mod_eq_of_lt (by omega)] at hcounter
    omega
  · exact hapart.2 a ha b hb hsession hname hepoch

theorem Numbered.apart (h : w.Numbered) (hnodup : (w.allocations.map (·.orderId)).Nodup) : w.Apart := by
  have hunique := List.inj_on_of_nodup_map hnodup
  constructor
  · intro a ha
    by_contra hmany
    -- The counter has come round: an earlier call of the session got the same id.
    have hnumber := h.number a ha
    obtain ⟨b, hb, hsession, hearlier⟩ := h.every a.session (a.number - 2 ^ 64) (by omega) (by omega)
    obtain ⟨ht, he, hepoch⟩ := h.same b hb a ha hsession
    have hsame : b.orderId = a.orderId := by
      refine (h.orderId_eq hb ha).mpr ⟨by rw [ht, he], hepoch, ?_⟩
      omega
    have heq := hunique hb ha hsame
    rw [heq] at hearlier
    omega
  · intro a ha b hb hsession hname hepoch
    -- Both sessions have a first call.
    have hfirst : ∀ c ∈ w.allocations, ∃ c₁ ∈ w.allocations, c₁.session = c.session ∧ c₁.number = 1 := by
      intro c hc
      have hnumber := h.number c hc
      exact h.every c.session 1 (Nat.le_refl _) (by omega)
    obtain ⟨a₁, ha₁, hsa, hna⟩ := hfirst a ha
    obtain ⟨b₁, hb₁, hsb, hnb⟩ := hfirst b hb
    obtain ⟨hta, hea, hpa⟩ := h.same a₁ ha₁ a ha hsa
    obtain ⟨htb, heb, hpb⟩ := h.same b₁ hb₁ b hb hsb
    have hsame : a₁.orderId = b₁.orderId := by
      refine (h.orderId_eq ha₁ hb₁).mpr ⟨?_, ?_, by rw [hna, hnb]⟩
      · rw [hta, hea, htb, heb, hname]
      · rw [hpa, hpb, hepoch]
    have heq := hunique ha₁ hb₁ hsame
    exact hsession (by rw [← hsa, ← hsb, heq])

/-- In every history of engines and their sessions, no two calls of `AllocateOrderId` answer the same if
and only if no session outruns the counter and sessions that allocate differ in the joined name or in
the second of `Init`. Then no operation of a session, with ids of its own, writes over an order whose id
another session allocated. -/
theorem orderIds_unique_iff (h : Runs.Reaches step Runs.anyStep {} w) :
    ((w.allocations.map (·.orderId)).Nodup ↔ w.Apart) ∧
    ∀ tenantId engineId session oms operation w',
      w.engines.lookup (tenantId, engineId) = some (session, oms) →
      step w (.operate tenantId engineId operation) = some w' → w'.Apart → operation ≠ .shutdown →
      (∀ request orderId, operation = .createOrder request orderId →
        ∃ b ∈ w.allocations, b.session = session ∧ b.orderId = orderId) →
      ∀ a ∈ w.allocations, a.session ≠ session → ∀ e, oms.orders.lookup a.orderId = some e →
        ∃ oms' e', w'.engines.lookup (tenantId, engineId) = some (session, oms') ∧
          oms'.orders.lookup a.orderId = some e' ∧ e.Advances e' := by
  have hsound := sound_of_reaches h
  refine ⟨⟨hsound.toNumbered.apart, hsound.toNumbered.nodup⟩, ?_⟩
  intro tenantId engineId session oms operation w' hlookup hs hapart hstop hown a ha hsession e he
  have hnodup := (sound_operate hsound hs).toNumbered.nodup hapart
  have hunique := List.inj_on_of_nodup_map hnodup
  obtain ⟨hinit, session', oms', hlookup', rfl⟩ := step_operate hs
  obtain ⟨rfl, rfl⟩ : session = session' ∧ oms = oms' := by
    rw [hlookup] at hlookup'
    simpa using hlookup'
  have hold : ∀ b ∈ w.allocations,
      b ∈ (if oms.allocates operation then w.allocate session oms else w).allocations := by
    intro b hb
    split
    · exact List.mem_cons_of_mem _ hb
    · exact hb
  have hcreate : ∀ request orderId, operation = .createOrder request orderId → orderId ≠ a.orderId := by
    rintro request orderId hop rfl
    obtain ⟨b, hb, hb', hsame⟩ := hown request _ hop
    rw [hunique (hold a ha) (hold b hb) hsame.symm] at hsession
    exact hsession hb'
  have hnew : oms.allocates operation = true → oms.nextOrderId ≠ a.orderId := by
    intro hyes hsame
    have hmem : w.nextAllocation session oms ∈
        (if oms.allocates operation then w.allocate session oms else w).allocations := by
      rw [if_pos hyes]
      exact List.mem_cons_self
    rw [hunique (hold a ha) hmem hsame.symm] at hsession
    exact hsession rfl
  obtain ⟨e', he', hadvances⟩ := perform_lookup hstop hinit hcreate hnew he
  exact ⟨oms.perform operation, e', by simp [Finmap.lookup_insert], he', hadvances⟩

/-- Two engines that begin in the same second, with one order id each. -/
def neighbours (first second : String × String) : List FleetAction :=
  [.clock 1700000000, .init first.1 first.2, .init second.1 second.2,
    .operate first.1 first.2 .allocateOrderId, .operate second.1 second.2 .allocateOrderId]

/-- One engine that is started again a second later, and then adopts its first order from the broker. -/
def restarted : List FleetAction :=
  [.clock 1700000000, .init "t" "e", .operate "t" "e" .allocateOrderId, .operate "t" "e" .shutdown,
    .clock 1700000001, .init "t" "e", .operate "t" "e" (.reconcileBrokerOrder { orderId := "t-e-1700000000-1" })]

theorem orderIds_unique_neighbours :
    (∃ w : Fleet, Runs.Reaches step Runs.anyStep {} w ∧
      w.allocations.map (·.orderId) = ["t-f-1700000000-1", "t-e-1700000000-1"] ∧ w.Apart) ∧
    ∃ w w' : Fleet, ∃ session e, ∃ oms oms' : OrderManager, ∃ e', Runs.Reaches step Runs.anyStep {} w ∧
      w.engines.lookup ("t", "e") = some (session, oms) ∧ oms.orders.lookup "t-e-1700000000-1" = some e ∧
      step w (.operate "t" "e" .allocateOrderId) = some w' ∧
      w'.engines.lookup ("t", "e") = some (session, oms') ∧ oms'.orders.lookup "t-e-1700000000-1" = some e' ∧
      e.Advances e' := by
  constructor
  · have hrun : ∃ w ∈ Runs.exec step {} (neighbours ("t", "e") ("t", "f")),
        w.allocations.map (·.orderId) = ["t-f-1700000000-1", "t-e-1700000000-1"] := by decide +kernel
    obtain ⟨w, hw, hids⟩ := hrun
    have hreach := Runs.reaches_of_exec _ hw
    refine ⟨w, hreach, hids, (orderIds_unique_iff hreach).1.mp ?_⟩
    rw [hids]
    decide
  · have hrun : ∃ w ∈ Runs.exec step {} restarted, ∃ w' ∈ step w (.operate "t" "e" .allocateOrderId),
        (∃ engine ∈ w.engines.lookup ("t", "e"), (engine.2.orders.lookup "t-e-1700000000-1").isSome = true ∧
          ∃ a ∈ w.allocations, a.session ≠ engine.1 ∧ a.orderId = "t-e-1700000000-1") ∧
        w'.allocations.map (·.orderId) = ["t-e-1700000001-1", "t-e-1700000000-1"] := by decide +kernel
    obtain ⟨w, hw, w', hw', ⟨⟨session, oms⟩, hlookup, he, a, ha, hsession, hid⟩, hids⟩ := hrun
    obtain ⟨e, he⟩ := Option.isSome_iff_exists.mp he
    have hreach := Runs.reaches_of_exec _ hw
    have hapart : w'.Apart := by
      refine (orderIds_unique_iff (hreach.tail trivial hw')).1.mp ?_
      rw [hids]
      decide
    obtain ⟨oms', e', hafter, he', hadvances⟩ := (orderIds_unique_iff hreach).2 "t" "e" session oms .allocateOrderId w'
      hlookup hw' hapart (by simp) (by simp) a ha hsession e (hid ▸ he)
    exact ⟨w, w', session, e, oms, oms', e', hreach, hlookup, he, hw', hafter, hid ▸ he', hadvances⟩

/-- Two engines with different identities and one joined name. -/
theorem orderIds_collide : ¬ ∀ w : Fleet, Runs.Reaches step Runs.anyStep {} w →
    (w.allocations.map (·.orderId)).Nodup := by
  intro hall
  have hrun : ∃ w ∈ Runs.exec step {} (neighbours ("a-b", "c") ("a", "b-c")),
      w.allocations.map (·.orderId) = ["a-b-c-1700000000-1", "a-b-c-1700000000-1"] := by decide +kernel
  obtain ⟨w, hw, hids⟩ := hrun
  have hnodup := hall w (Runs.reaches_of_exec _ hw)
  rw [hids] at hnodup
  exact absurd hnodup (by decide)

/-- One engine that is stopped and started again within a second. -/
example : (Runs.exec step {} [.clock 1700000000, .init "t" "e", .operate "t" "e" .allocateOrderId,
    .operate "t" "e" .shutdown, .init "t" "e", .operate "t" "e" .allocateOrderId]).map
      (·.allocations.map (·.orderId)) = some ["t-e-1700000000-1", "t-e-1700000000-1"] := by decide +kernel

end Fleet

end Qtrade.Engine
