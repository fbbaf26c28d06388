import Qtrade.Engine.StartSequence
import Qtrade.Oms.Operations

/-!
# Two lookups for one report

The order manager resolves a report by its order id or else by its client id. The engine then looks
the order up again, by the client id only where the report has no order id.
-/

namespace Qtrade.Engine

open Qtrade.Oms
open Qtrade.Oms.OrderManager

/-- A report and the function that it is given to: `OnTraderOrderReport` applies an order report,
`OnTraderTradeReport` and `SynchronizeBrokerState` apply a trade report, and `SynchronizeBrokerState`
reconciles an order. -/
inductive Report
  | order (report : Order)
  | trade (report : Trade)
  | brokerOrder (report : Order)

namespace Report

def orderId : Report → String
  | .order report => report.orderId
  | .trade report => report.orderId
  | .brokerOrder report => report.orderId

def clientOrderId : Report → UInt32
  | .order report => report.clientOrderId
  | .trade report => report.clientOrderId
  | .brokerOrder report => report.clientOrderId

def apply (s : OrderManager) : Report → OrderManager
  | .order report => s.applyOrderReport report
  | .trade report => s.applyTradeReport report
  | .brokerOrder report => s.reconcileBrokerOrder report

/-- The order that the manager acts on: the one that it finds or, for a broker order that it does not
find, the one that it adopts. -/
def resolved (s : OrderManager) : Report → Option String
  | .order report => s.reportKey report.orderId report.clientOrderId
  | .trade report => s.reportKey report.orderId report.clientOrderId
  | .brokerOrder report =>
    match s.reportKey report.orderId report.clientOrderId with
    | some key => some key
    | none =>
      if !s.initialized then none
      else if report.orderId ≠ "" then some report.orderId
      else if report.clientOrderId = 0 then none
      else some s.nextOrderId

/-- The order that the engine looks up after the manager is done. -/
def followUp (s : Books) (report : Report) : Option String :=
  (({ s with oms := report.apply s.oms } : Books).local? report.orderId report.clientOrderId).map (·.orderId)

end Report

/-! ## The second lookup -/

variable {s : Books} {orderId : String} {clientOrderId : UInt32}

theorem local?_id (h : s.oms.Anchored) (orderId : String) (clientOrderId : UInt32) :
    (s.local? orderId clientOrderId).map (·.orderId) =
      if orderId = "" then s.oms.clientOrderIndex.lookup clientOrderId
      else if orderId ∈ s.oms.orders then some orderId else none := by
  unfold Books.local?
  split
  · exact h.getOrderByClientId_id clientOrderId
  · exact h.getOrder_id orderId

theorem followUp_iff_of_evolves (h : s.oms.Anchored) {oms : OrderManager}
    (hs : Evolves OrderEntry.Advances s.oms oms) (orderId : String) (clientOrderId : UInt32) :
    (({ s with oms } : Books).local? orderId clientOrderId).map (·.orderId) =
        s.oms.reportKey orderId clientOrderId ↔
      orderId = "" ∨ orderId ∈ s.oms.orders ∨ s.oms.clientOrderIndex.lookup clientOrderId = none := by
  have hanchored : oms.Anchored := h.evolves hs
  rw [local?_id (s := { s with oms }) hanchored, h.reportKey_eq]
  simp only [hs.clientOrderIndex, hs.mem_iff]
  by_cases hid : orderId = ""
  · subst hid
    simp [h.empty_not_mem]
  · by_cases hmem : orderId ∈ s.oms.orders
    · simp [hid, hmem]
    · simp [hid, hmem, eq_comm]

theorem adopt_anchored_lookup {oms : OrderManager} (h : oms.Anchored) (hs : oms.initialized = true)
    (report : Order) (hid : orderId ≠ "") :
    (oms.adopt report orderId).Anchored ∧ orderId ∈ (oms.adopt report orderId).orders ∧
      (report.clientOrderId ≠ 0 →
        (oms.adopt report orderId).clientOrderIndex.lookup report.clientOrderId = some orderId) := by
  refine ⟨h.adopt hs report hid, ?_, ?_⟩
  · rw [Table.mem_iff_lookup]
    exact ⟨_, by rw [lookup_adopt, if_pos rfl]⟩
  · intro hc
    have hindex := lookup_index (oms.store orderId (adoptedEntry report orderId)) report.clientOrderId
      report.clientOrderId orderId
    rw [if_pos ⟨hc, rfl⟩] at hindex
    exact hindex

theorem followUp_brokerOrder (h : s.oms.Anchored) (report : Order) :
    Report.followUp s (.brokerOrder report) = Report.resolved s.oms (.brokerOrder report) ↔
      report.orderId = "" ∨ report.orderId ∈ s.oms.orders ∨
        s.oms.clientOrderIndex.lookup report.clientOrderId = none := by
  have hunknown : s.oms.reportKey report.orderId report.clientOrderId = none →
      report.orderId ∉ s.oms.orders ∧ s.oms.clientOrderIndex.lookup report.clientOrderId = none := by
    intro hnone
    rw [h.reportKey_eq] at hnone
    split at hnone
    case isTrue => cases hnone
    case isFalse hnot => exact ⟨hnot, hnone⟩
  unfold Report.followUp Report.resolved Report.apply Report.orderId Report.clientOrderId
  dsimp only
  rcases reconcileBrokerOrder_cases s.oms report with
    ⟨key, e, hf, hok, hs⟩ | ⟨hinit, hf, hid, hs⟩ | ⟨hnew, hs⟩ | ⟨hwhy, hs⟩
  · -- merged into an order of the table
    have hkey : s.oms.reportKey report.orderId report.clientOrderId = some key := by simp [reportKey, hf]
    have hevolves := (reconcileBrokerOrder_found hf).mono fun _ _ ha => ha.toAdvances
    have hiff := followUp_iff_of_evolves h hevolves report.orderId report.clientOrderId
    rw [hkey] at hiff ⊢
    exact hiff
  · -- adopted under its own id
    have hkey : s.oms.reportKey report.orderId report.clientOrderId = none := by simp [reportKey, hf]
    obtain ⟨hanchored, hmem, _⟩ := adopt_anchored_lookup h hinit report hid
    rw [hs, local?_id (s := { s with oms := s.oms.adopt report report.orderId }) hanchored, hkey]
    simp [hid, hinit, hmem, (hunknown hkey).2]
  · -- adopted under an id of the manager's own
    simp only [adoptsUnderNewId, Bool.and_eq_true, Option.isNone_iff_eq_none, beq_iff_eq, bne_iff_ne] at hnew
    obtain ⟨⟨⟨hinit, hid⟩, hc⟩, hf⟩ := hnew
    have hkey : s.oms.reportKey report.orderId report.clientOrderId = none := by simp [reportKey, hf]
    obtain ⟨hanchored, _, hindex⟩ := adopt_anchored_lookup (allocateOrderId_anchored h) hinit report
      (nextOrderId_ne_empty s.oms)
    rw [hs, local?_id (s := { s with oms := s.oms.allocateOrderId.2.adopt report s.oms.nextOrderId }) hanchored,
      hkey]
    simp [hid, hinit, hc, hindex hc]
  · -- refused, or not found and without any id
    have hevolves : Evolves OrderEntry.Advances s.oms (s.oms.reconcileBrokerOrder report) := by
      rw [hs]
      exact Evolves.refl OrderEntry.Advances.refl s.oms
    have hiff := followUp_iff_of_evolves h hevolves report.orderId report.clientOrderId
    cases hkey : s.oms.reportKey report.orderId report.clientOrderId with
    | some key =>
      rw [hkey] at hiff
      exact hiff
    | none =>
      obtain ⟨hnot, hc⟩ := hunknown hkey
      have hfree : (s.local? report.orderId report.clientOrderId).map (·.orderId) = none := by
        rw [local?_id h, hc, if_neg hnot]
        exact ite_self none
      rw [hs, hfree]
      have hf : s.oms.findOrderLocked report.orderId report.clientOrderId = none := by
        simpa [reportKey] using hkey
      rcases hwhy with hno | hfound | ⟨hid, hzero⟩
      · simp [hno, hc]
      · simp [hf] at hfound
      · simp [hid, hzero]

/-- In every state, the engine looks up the order that the manager acted on exactly where the report
has no order id, or one that the manager holds, or a client id that the manager does not know. -/
theorem followUp_agrees_iff (h : Runs.Reaches OrderManager.run Runs.anyStep {} s.oms) (report : Report) :
    report.followUp s = report.resolved s.oms ↔
      report.orderId = "" ∨ report.orderId ∈ s.oms.orders ∨
        s.oms.clientOrderIndex.lookup report.clientOrderId = none := by
  have hanchored := anchored_of_reaches h
  cases report with
  | order report =>
    exact followUp_iff_of_evolves hanchored
      ((applyOrderReport_evolves s.oms report).mono fun _ _ ha => ha.toAdvances) _ _
  | trade report =>
    exact followUp_iff_of_evolves hanchored
      ((applyTradeReport_evolves s.oms report).mono fun _ _ ha => ha.toAdvances) _ _
  | brokerOrder report => exact followUp_brokerOrder hanchored report

/-- A manager with one order of client id 7. -/
def oneOrder : List OrderManager.Operation :=
  [.initializeWith ⟨"t", "e", 1⟩, .createOrder { clientOrderId := 7, volume := 1 } "t-e-1-1"]

theorem followUp_agrees_own : ∃ s : Books, ∃ report : Report,
    Runs.Reaches OrderManager.run Runs.anyStep {} s.oms ∧ report.resolved s.oms = some "t-e-1-1" ∧
      report.followUp s = report.resolved s.oms := by
  have hrun : ∃ oms ∈ Runs.exec OrderManager.run {} oneOrder, oms.reportKey "t-e-1-1" 7 = some "t-e-1-1" ∧
      (oms.orders.lookup "t-e-1-1").isSome := by decide +kernel
  obtain ⟨oms, homs, hkey, hsome⟩ := hrun
  have hreach := Runs.reaches_of_exec _ homs
  obtain ⟨e, he⟩ := Option.isSome_iff_exists.mp hsome
  refine ⟨{ oms }, .order { orderId := "t-e-1-1", clientOrderId := 7, status := .canceled }, hreach, hkey, ?_⟩
  exact (followUp_agrees_iff (s := { oms }) hreach _).mpr (Or.inr (Or.inl (Finmap.mem_of_lookup_eq_some he)))

/-- A canceled report with a broker's own order id ends the order, and the engine then finds none. -/
theorem followUp_misses : ¬ ∀ (s : Books) (report : Report),
    Runs.Reaches OrderManager.run Runs.anyStep {} s.oms → report.followUp s = report.resolved s.oms := by
  intro hall
  have hrun : ∃ oms ∈ Runs.exec OrderManager.run {} oneOrder,
      Report.followUp { oms } (.order { orderId := "b", clientOrderId := 7, status := .canceled }) ≠
        Report.resolved oms (.order { orderId := "b", clientOrderId := 7, status := .canceled }) := by
    decide +kernel
  obtain ⟨oms, homs, hne⟩ := hrun
  exact hne (hall { oms } _ (Runs.reaches_of_exec _ homs))

end Qtrade.Engine
