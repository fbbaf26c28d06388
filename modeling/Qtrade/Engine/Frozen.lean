import Qtrade.Account.View
import Qtrade.Engine.Reconciled
import Qtrade.Trading.Reported

/-!
# Funds frozen for finished orders

`ApplyOrder` is called by the handler of order reports and by the start, and by nothing else. The order
manager ends orders on trade reports and on send results too, and the account is not told of these.
-/

namespace Qtrade.Engine

open Qtrade.Account
open Qtrade.Oms
open Qtrade.Oms.OrderManager

/-! ## Which reports leave funds frozen -/

/-- The report says that the order is over, and the state graph lets it through. -/
def endsOrder (e : OrderEntry) (report : Order) : Bool :=
  isTerminalLifecycle (lifecycleFromOrderStatus report.status e.lifecycleState) &&
    canTransition e.lifecycleState (lifecycleFromOrderStatus report.status e.lifecycleState)

/-- The finished order freezes funds as the report has it (with its own price where the report has none)
or, where the state graph refuses the report, as it was. -/
def refreezes (e : OrderEntry) (report : Order) : Bool :=
  isTerminalLifecycle e.lifecycleState &&
    freezes (if canTransition e.lifecycleState (lifecycleFromOrderStatus report.status e.lifecycleState) then
      { report with price := if report.price > 0 then report.price else e.order.price } else e.order)

/-- The trade is the order's last, and the state graph lets it through. -/
def fills (e : OrderEntry) (report : Trade) : Bool :=
  canTransition e.lifecycleState .filled && decide (e.order.volume ≤ e.order.tradedVolume + report.volume)

/-- An order report that names its order by an id that no order has does not reach the account. -/
def orderLeavesFrozen (s : Books) (report : Order) : Bool :=
  (s.oms.findOrderLocked report.orderId report.clientOrderId).any fun found =>
    if report.orderId = "" ∨ report.orderId = found.1 then refreezes found.2 report
    else endsOrder found.2 report && s.account.frozenOf found.1 != 0

/-- No trade reaches what is frozen. -/
def tradeLeavesFrozen (s : Books) (report : Trade) : Bool :=
  !(generateTradeDedupKey report ∈ s.oms.appliedTradeIds) &&
    (s.oms.findOrderLocked report.orderId report.clientOrderId).any fun found =>
      fills found.2 report && s.account.frozenOf found.1 != 0

def leavesFrozen (s : Books) : Order ⊕ Trade → Bool
  | .inl report => orderLeavesFrozen s report
  | .inr report => tradeLeavesFrozen s report

variable {s : Books} {oms : OrderManager} {orderId : String} {e e' : OrderEntry}

theorem terminalStatus_finalStatus {l : OrderLifecycleState} (h : isTerminalLifecycle l = true) :
    terminalStatus (finalStatus l) = true := by
  cases l <;> first | rfl | cases h

theorem not_freezes_orderReport {report : Order} (hok : refreezes e report = false)
    (hended : isTerminalLifecycle (kept e (orderReportEntry e report)).lifecycleState = true) :
    freezes (kept e (orderReportEntry e report)).order = false := by
  by_cases hopen : isTerminalLifecycle e.lifecycleState = true
  · rw [refreezes, hopen, Bool.true_and] at hok
    rw [kept_orderReport]
    split
    case isTrue hedge =>
      rw [if_pos hedge] at hok
      exact hok
    case isFalse hedge =>
      rw [if_neg hedge] at hok
      exact hok
  · obtain ⟨_, _, hstatus, horder⟩ := orderReport_ends (by simpa using hopen) hended
    have hterminal : terminalStatus (mergeOrderSnapshot e report).order.status = true := by
      have hmerged : (mergeOrderSnapshot e report).order.status = report.status := rfl
      rw [hmerged, hstatus]
      exact terminalStatus_finalStatus hended
    rw [horder]
    simp [freezes, hterminal]

theorem endsOrder_of_ended {report : Order} (hopen : isTerminalLifecycle e.lifecycleState = false)
    (hended : isTerminalLifecycle (kept e (orderReportEntry e report)).lifecycleState = true) :
    endsOrder e report = true := by
  obtain ⟨hedge, hl, _, _⟩ := orderReport_ends hopen hended
  rw [hl] at hended
  rw [endsOrder, hended, hedge]
  rfl

theorem fills_of_ended {report : Trade} (hopen : isTerminalLifecycle e.lifecycleState = false)
    (hended : isTerminalLifecycle (kept e (tradeReportEntry e report)).lifecycleState = true) :
    fills e report = true := by
  obtain ⟨hedge, hvolume, _, _⟩ := tradeReport_ends hopen hended
  simp [fills, hedge, hvolume]

/-! ## The start -/

/-- No finished order has funds frozen for it. -/
structure Unfrozen (s : Books) : Prop where
  anchored : s.oms.Anchored
  balanced : s.account.Balanced
  freed : ∀ orderId e, s.oms.orders.lookup orderId = some e → isTerminalLifecycle e.lifecycleState = true →
    s.account.frozenOf orderId = 0

theorem local?_found (h : s.oms.Anchored) (hs : Evolves OrderEntry.Advances s.oms oms) {reportId key : String}
    {clientOrderId : UInt32} (hkey : s.oms.reportKey reportId clientOrderId = some key) :
    (({ s with oms } : Books).local? reportId clientOrderId).map (·.orderId) =
      if reportId = "" ∨ reportId = key then some key else none := by
  have hanchored : oms.Anchored := h.evolves hs
  have hmem := h.mem_of_reportKey hkey
  rw [local?_id (s := { s with oms }) hanchored]
  simp only [hs.clientOrderIndex, hs.mem_iff]
  rw [h.reportKey_eq] at hkey
  by_cases hempty : reportId = ""
  · rw [if_neg (hempty ▸ h.empty_not_mem)] at hkey
    rw [if_pos hempty, if_pos (Or.inl hempty), hkey]
  · rw [if_neg hempty]
    by_cases hheld : reportId ∈ s.oms.orders
    · rw [if_pos hheld] at hkey ⊢
      obtain rfl := Option.some.inj hkey
      rw [if_pos (Or.inr rfl)]
    · rw [if_neg hheld, if_neg]
      rintro (hno | rfl)
      · exact hempty hno
      · exact hheld hmem

theorem followUp_reconciled (h : s.oms.Anchored) (report : Order) :
    Report.followUp s (.brokerOrder report) =
      match s.oms.reportKey report.orderId report.clientOrderId with
      | some key => if report.orderId = "" ∨ report.orderId = key then some key else none
      | none => Report.resolved s.oms (.brokerOrder report) := by
  cases hkey : s.oms.reportKey report.orderId report.clientOrderId with
  | some key =>
    obtain ⟨e, hf⟩ := reportKey_eq_some.mp hkey
    exact local?_found h ((reconcileBrokerOrder_found hf).mono fun _ _ ha => ha.toAdvances) hkey
  | none =>
    apply (followUp_brokerOrder h report).mpr
    rw [h.reportKey_eq] at hkey
    split at hkey
    case isTrue => cases hkey
    case isFalse => exact Or.inr (Or.inr hkey)

theorem frozenOf_takeOrder (h : s.oms.Anchored) {report : Order}
    (he : (s.oms.reconcileBrokerOrder report).orders.lookup orderId = some e) :
    (s.takeOrder report).account.frozenOf orderId =
      if Report.followUp s (.brokerOrder report) = some orderId then frozenFor e.order
      else s.account.frozenOf orderId := by
  have hanchored := h.reconcileBrokerOrder report
  have hid := (hanchored.key orderId e he).1
  have hfollow : Report.followUp s (.brokerOrder report) =
      (({ s with oms := s.oms.reconcileBrokerOrder report } : Books).local? report.orderId
        report.clientOrderId).map (·.orderId) := rfl
  rw [hfollow]
  unfold Books.takeOrder
  dsimp only
  split
  case h_1 known hknown =>
    rw [hknown, Option.map_some, AccountManager.frozenOf_applyOrder _ _ hid]
    by_cases hsame : known.orderId = orderId
    · have horder := Trading.followUp_filled (s := { oms := s.oms.reconcileBrokerOrder report }) hanchored
        hknown hsame he
      rw [if_pos hsame, if_pos (congrArg some hsame), horder]
    · rw [if_neg hsame, if_neg fun heq => hsame (Option.some.inj heq)]
  case h_2 hnone =>
    rw [hnone, Option.map_none, if_neg]
    rintro ⟨⟩

theorem adoptedEntry_not_freezes {report : Order}
    (hended : isTerminalLifecycle (adoptedEntry report orderId).lifecycleState = true) :
    freezes (adoptedEntry report orderId).order = false := by
  have hstatus := adoptedEntry_concluded report orderId hended
  have hterminal := terminalStatus_finalStatus hended
  rw [← hstatus] at hterminal
  simp [freezes, hterminal]

theorem Unfrozen.freed_orderReport (h : Unfrozen s) {report : Order} {key : String} {e₀ : OrderEntry}
    (hf : s.oms.findOrderLocked report.orderId report.clientOrderId = some (key, e₀))
    (hok : orderLeavesFrozen s report = false)
    (he : (if some key = some orderId then some (kept e₀ (orderReportEntry e₀ report))
      else s.oms.orders.lookup orderId) = some e)
    (hended : isTerminalLifecycle e.lifecycleState = true) :
    (if (if report.orderId = "" ∨ report.orderId = key then some key else none) = some orderId then
      frozenFor e.order else s.account.frozenOf orderId) = 0 := by
  rw [orderLeavesFrozen, hf, Option.any_some] at hok
  split at he
  case isTrue hsame =>
    obtain rfl := Option.some.inj hsame
    cases he
    by_cases hdirect : report.orderId = "" ∨ report.orderId = key
    · rw [if_pos hdirect] at hok ⊢
      rw [if_pos rfl]
      exact (frozenFor_eq_zero_iff _).mpr (not_freezes_orderReport hok hended)
    · rw [if_neg hdirect] at hok ⊢
      rw [if_neg (by rintro ⟨⟩)]
      by_cases hopen : isTerminalLifecycle e₀.lifecycleState = true
      · exact h.freed key e₀ (findOrderLocked_some hf).1 hopen
      · rw [endsOrder_of_ended (by simpa using hopen) hended] at hok
        simpa using hok
  case isFalse hother =>
    rw [if_neg]
    · exact h.freed orderId e he hended
    · split
      case isTrue => exact hother
      case isFalse => rintro ⟨⟩

theorem Unfrozen.takeOrder (h : Unfrozen s) (hinit : s.oms.initialized = true) {report : Order}
    (hok : orderLeavesFrozen s report = false) : Unfrozen (s.takeOrder report) := by
  have hsame := takeOrder_same s report
  have hreconciled := h.anchored.reconcileBrokerOrder report
  refine ⟨?_, ?_, ?_⟩
  · unfold Books.takeOrder
    dsimp only
    split
    · exact hreconciled.markReconciled _
    · exact hreconciled
  · unfold Books.takeOrder
    dsimp only
    split
    · exact h.balanced.applyOrder _
    · exact h.balanced
  · intro orderId e he hended
    rw [hsame.orders] at he
    rw [frozenOf_takeOrder h.anchored he, followUp_reconciled h.anchored]
    rw [lookup_reconcileBrokerOrder hinit] at he
    cases hf : s.oms.findOrderLocked report.orderId report.clientOrderId with
    | none =>
      have hkey : s.oms.reportKey report.orderId report.clientOrderId = none := by simp [reportKey, hf]
      rw [hkey]
      dsimp only
      split at he
      case isTrue hadopted =>
        rw [hf] at he
        cases he
        rw [if_pos hadopted]
        exact (frozenFor_eq_zero_iff _).mpr (adoptedEntry_not_freezes hended)
      case isFalse hother =>
        rw [if_neg hother]
        exact h.freed orderId e he hended
    | some found =>
      obtain ⟨key, e₀⟩ := found
      have hkey : s.oms.reportKey report.orderId report.clientOrderId = some key := by simp [reportKey, hf]
      have hresolved : Report.resolved s.oms (.brokerOrder report) = some key := by simp [Report.resolved, hkey]
      rw [hkey]
      rw [hresolved, hf] at he
      exact h.freed_orderReport hf hok he hended

theorem Unfrozen.freed_tradeReport (h : Unfrozen s) {report : Trade} (hok : tradeLeavesFrozen s report = false)
    (he : (s.oms.applyTradeReport report).orders.lookup orderId = some e)
    (hended : isTerminalLifecycle e.lifecycleState = true) : s.account.frozenOf orderId = 0 := by
  rw [lookup_applyTradeReport] at he
  split at he
  case isFalse => exact h.freed orderId e he hended
  case isTrue happlied =>
    obtain ⟨hnew, hkey⟩ := happlied
    obtain ⟨e₀, hf⟩ := reportKey_eq_some.mp hkey
    have he₀ := (findOrderLocked_some hf).1
    rw [he₀] at he
    cases he
    by_cases hopen : isTerminalLifecycle e₀.lifecycleState = true
    · exact h.freed orderId e₀ he₀ hopen
    · rw [tradeLeavesFrozen, hf, Option.any_some, fills_of_ended (by simpa using hopen) hended] at hok
      simpa [hnew] using hok

theorem Unfrozen.takeTrade (h : Unfrozen s) {report : Trade} (hok : tradeLeavesFrozen s report = false) :
    Unfrozen (s.takeTrade report) := by
  have hsame := takeTrade_same s report
  have haccount : (s.takeTrade report).account = s.account := by
    unfold Books.takeTrade
    dsimp only
    split <;> rfl
  have happlied : (s.oms.applyTradeReport report).Anchored :=
    h.anchored.evolves ((applyTradeReport_evolves s.oms report).mono fun _ _ ha => ha.toAdvances)
  refine ⟨?_, ?_, ?_⟩
  · unfold Books.takeTrade
    dsimp only
    split
    · exact happlied.markReconciled _
    · exact happlied
  · rw [haccount]
    exact h.balanced
  · intro orderId e he hended
    rw [hsame.orders] at he
    rw [haccount]
    exact h.freed_tradeReport hok he hended

theorem Unfrozen.freed_applied (h : Unfrozen s) {report : Order} (hok : orderLeavesFrozen s report = false)
    (he : (s.oms.applyOrderReport report).orders.lookup orderId = some e)
    (hended : isTerminalLifecycle e.lifecycleState = true) :
    (if (({ s with oms := s.oms.applyOrderReport report } : Books).local? report.orderId
        report.clientOrderId).map (·.orderId) = some orderId then
      frozenFor e.order else s.account.frozenOf orderId) = 0 := by
  have hs := (applyOrderReport_evolves s.oms report).mono fun _ _ ha => ha.toAdvances
  rw [lookup_applyOrderReport] at he
  cases hf : s.oms.findOrderLocked report.orderId report.clientOrderId with
  | none =>
    have hkey : s.oms.reportKey report.orderId report.clientOrderId = none := by simp [reportKey, hf]
    rw [hkey, if_neg (by rintro ⟨⟩)] at he
    have hnone : (({ s with oms := s.oms.applyOrderReport report } : Books).local? report.orderId
        report.clientOrderId).map (·.orderId) = none := by
      rw [(followUp_iff_of_evolves h.anchored hs report.orderId report.clientOrderId).mpr, hkey]
      rw [h.anchored.reportKey_eq] at hkey
      split at hkey
      case isTrue => cases hkey
      case isFalse => exact Or.inr (Or.inr hkey)
    rw [hnone, if_neg (by rintro ⟨⟩)]
    exact h.freed orderId e he hended
  | some found =>
    obtain ⟨key, e₀⟩ := found
    have hkey : s.oms.reportKey report.orderId report.clientOrderId = some key := by simp [reportKey, hf]
    rw [local?_found h.anchored hs hkey]
    apply h.freed_orderReport hf hok _ hended
    rw [hkey] at he
    split at he
    case isTrue hsame =>
      obtain rfl := Option.some.inj hsame
      rw [(findOrderLocked_some hf).1] at he
      rw [if_pos rfl]
      exact he
    case isFalse hother =>
      rw [if_neg hother]
      exact he

/-- The start leaves nothing frozen for a finished order where no entry of the snapshot does. -/
theorem unfrozen_synchronize {s₀ : OrderManager} {options : OrderManagerOptions} {snapshot : BrokerSnapshot}
    (hinit : s₀.initializeWith options = (.success, oms))
    (hok : Folds.meets Books.take leavesFrozen { oms } snapshot.entries = false) :
    Unfrozen (({ oms } : Books).synchronize snapshot).2 := by
  have htaken := taken_initializeWith hinit
  have hbook := book_initializeWith hinit
  have hnone : ∀ orderId e, oms.orders.lookup orderId ≠ some e := by
    intro orderId e he
    obtain ⟨_, hmem, _⟩ := (hbook.entries orderId e).mp he
    cases hmem
  have hstart : Unfrozen { oms } := by
    refine ⟨⟨fun id e he => absurd he (hnone id e), ?_, ?_⟩, AccountManager.balanced_empty,
      fun id e he _ => absurd he (hnone id e)⟩
    · intro c id hkey
      obtain ⟨_, _, hmem, _⟩ := (hbook.index c id).mp hkey
      cases hmem
    · intro hno
      rw [hbook.initialized] at hno
      cases hno
  have hfold : Taken (snapshot.entries.foldl Books.take { oms }).oms ∧
      Unfrozen (snapshot.entries.foldl Books.take { oms }) := by
    apply Folds.invariant_of_not_meets (fun s : Books => Taken s.oms ∧ Unfrozen s) _ ⟨htaken, hstart⟩ _ hok
    rintro s entry ⟨htaken, h⟩ hentry
    refine ⟨htaken.take entry, ?_⟩
    induction entry with
    | inl report => exact h.takeOrder htaken.initialized hentry
    | inr report => exact h.takeTrade hentry
  have h := hfold.2
  rw [BrokerSnapshot.entries, List.foldl_append, List.foldl_map, List.foldl_map] at h
  exact ⟨h.anchored, h.balanced.congr rfl rfl, h.freed⟩

end Qtrade.Engine

namespace Qtrade.Trading

open Qtrade.Account
open Qtrade.Engine
open Qtrade.Oms
open Qtrade.Oms.OrderManager

/-! ## The threads -/

def Shared.books (s : Shared) : Books where
  oms := s.oms
  account := s.account
  position := s.position

/-- The lane has applied an order report, and it will look up this order for the account. -/
def laneFinds (s : Shared) (orderId : String) : Bool :=
  match s.lane with
  | .orderApplied report => (s.followUp report.orderId report.clientOrderId).map (·.orderId) == some orderId
  | _ => false

/-- What is frozen for an order when the account has taken the order that the lane has looked up. -/
def owed (s : Shared) (orderId : String) : Double :=
  match s.lane with
  | .accountOrder _ known => if known.orderId = orderId then frozenFor known else s.account.frozenOf orderId
  | _ => s.account.frozenOf orderId

def rejectsSend (e : OrderEntry) (rc : ErrorCode) : Bool :=
  (e.lifecycleState == .sendPending || e.lifecycleState == .emsQueued) && rc != .success && rc != .timeout

/-- A send result reaches the account only where the lane is just before its lookup. -/
def sendLeavesFrozen (s : Shared) (orderId : String) (rc : ErrorCode) : Bool :=
  (s.oms.orders.lookup orderId).any fun e =>
    rejectsSend e rc && !laneFinds s orderId && owed s orderId != 0

/-- The step finishes an order and leaves funds frozen for it, or it freezes funds for a finished one. -/
def stepLeavesFrozen (c : System) (a : Action) : Bool :=
  match a with
  | .environment (.orderReport report) => orderLeavesFrozen c.shared.books report
  | .environment (.tradeReport report) => tradeLeavesFrozen c.shared.books report
  | a => (sendResult? c a).any fun result => sendLeavesFrozen c.shared result.1 result.2

/-- Where the lane stands, nothing is frozen for a finished order, or will be when the lane is done. -/
structure Freeing (s : Shared) : Prop where
  anchored : s.oms.Anchored
  balanced : s.account.Balanced
  found : ∀ orderId e, s.oms.orders.lookup orderId = some e → isTerminalLifecycle e.lifecycleState = true →
    laneFinds s orderId = true → frozenFor e.order = 0
  owed : ∀ orderId e, s.oms.orders.lookup orderId = some e → isTerminalLifecycle e.lifecycleState = true →
    laneFinds s orderId = false → owed s orderId = 0

variable {c c' : System} {a : Action} {s s' : Shared} {orderId : String} {e : OrderEntry}

theorem Freeing.unfrozen (h : Freeing s) (hidle : s.lane = .idle) : Unfrozen s.books := by
  refine ⟨h.anchored, h.balanced, fun orderId e he hended => ?_⟩
  have howed := h.owed orderId e he hended (by rw [laneFinds, hidle])
  rw [Trading.owed, hidle] at howed
  exact howed

theorem Freeing.of_unfrozen (h : Unfrozen s.books) (hidle : s.lane = .idle) : Freeing s := by
  refine ⟨h.anchored, h.balanced, fun orderId e he hended hfinds => ?_, fun orderId e he hended _ => ?_⟩
  · rw [laneFinds, hidle] at hfinds
    cases hfinds
  · rw [Trading.owed, hidle]
    exact h.freed orderId e he hended

theorem Freeing.orderReport (h : Freeing s) {report : Order} (hs : s.orderReport report = some s')
    (hok : orderLeavesFrozen s.books report = false) : Freeing s' := by
  obtain ⟨hidle, _, rfl⟩ := orderReport_eq hs
  have hbooks := h.unfrozen hidle
  have hanchored := h.anchored.evolves ((applyOrderReport_evolves s.oms report).mono fun _ _ ha => ha.toAdvances)
  refine ⟨hanchored, h.balanced, fun orderId e he hended hfinds => ?_, fun orderId e he hended hfinds => ?_⟩
  · have happlied := hbooks.freed_applied hok he hended
    unfold laneFinds at hfinds
    rw [beq_iff_eq] at hfinds
    exact (if_pos hfinds).symm.trans happlied
  · have happlied := hbooks.freed_applied hok he hended
    unfold laneFinds at hfinds
    rw [beq_eq_false_iff_ne] at hfinds
    exact (if_neg hfinds).symm.trans happlied

theorem Freeing.tradeReport (h : Freeing s) {report : Trade} (hs : s.tradeReport report = some s')
    (hok : tradeLeavesFrozen s.books report = false) : Freeing s' := by
  obtain ⟨hidle, _, rfl⟩ := tradeReport_eq hs
  have hbooks := h.unfrozen hidle
  have hanchored := h.anchored.evolves ((applyTradeReport_evolves s.oms report).mono fun _ _ ha => ha.toAdvances)
  refine ⟨hanchored, h.balanced, fun orderId e he hended hfinds => ?_, fun orderId e he hended _ => ?_⟩
  · cases hfinds
  · exact hbooks.freed_tradeReport hok he hended

theorem Freeing.passes (h : Freeing s) (homs : s'.oms = s.oms) (hbalanced : s'.account.Balanced)
    (hbefore : ∀ orderId, laneFinds s orderId = false) (hafter : ∀ orderId, laneFinds s' orderId = false)
    (howed : ∀ orderId, orderId ≠ "" → Trading.owed s' orderId = Trading.owed s orderId) : Freeing s' := by
  refine ⟨homs ▸ h.anchored, hbalanced, fun orderId e he hended hfinds => ?_, fun orderId e he hended _ => ?_⟩
  · rw [hafter] at hfinds
    cases hfinds
  · rw [homs] at he
    rw [howed orderId (h.anchored.key orderId e he).1]
    exact h.owed orderId e he hended (hbefore orderId)

theorem owed_accountOrder {report known : Order} (hl : s.lane = .accountOrder report known) (hid : orderId ≠ "") :
    (s.account.applyOrder known).frozenOf orderId = owed s orderId := by
  rw [AccountManager.frozenOf_applyOrder _ _ hid, owed, hl]

theorem Freeing.lane (h : Freeing s) (hs : LaneStep s s') : Freeing s' := by
  have htraded : ∀ report, (s.account.applyTrade report).Balanced := fun report =>
    h.balanced.congr (s.account.applyTrade_frozen report).1 (s.account.applyTrade_frozen report).2
  cases hs with
  | unknownOrder report hl hnone =>
    apply h.passes
    · rfl
    · exact h.balanced
    · simp [laneFinds, hl, hnone]
    · simp [laneFinds]
    · simp [Trading.owed, hl]
  | knownOrder report known hl hknown =>
    have hlook : ∀ orderId, laneFinds s orderId = (known.orderId == orderId) := by
      simp [laneFinds, hl, hknown]
    refine ⟨h.anchored, h.balanced, fun orderId e he hended hfinds => ?_, fun orderId e he hended _ => ?_⟩
    · cases hfinds
    · unfold Trading.owed
      dsimp only
      split
      case isTrue hsame =>
        rw [followUp_filled h.anchored hknown hsame he]
        exact h.found orderId e he hended (by simp [hlook, hsame])
      case isFalse hother =>
        have howed := h.owed orderId e he hended (by simp [hlook, hother])
        rw [Trading.owed, hl] at howed
        exact howed
  | orderGoesOn report known hl | orderEnded report known reason hl =>
    apply h.passes
    · rfl
    · exact h.balanced.applyOrder known
    · simp [laneFinds, hl]
    · simp [laneFinds]
    · exact fun orderId hid => owed_accountOrder hl hid
  | tradeAccounted report hl =>
    apply h.passes
    · rfl
    · exact htraded report
    · simp [laneFinds, hl]
    · simp [laneFinds]
    · simp [Trading.owed, hl, AccountManager.frozenOf, (s.account.applyTrade_frozen report).1]
  | positionTraded report hl | notFilled report hl | filled report known hl =>
    apply h.passes
    · rfl
    · exact h.balanced
    · simp [laneFinds, hl]
    · simp [laneFinds]
    · simp [Trading.owed, hl]
  | released key reason hl =>
    apply h.passes
    · simp
    · simpa using h.balanced
    · simp [laneFinds, hl]
    · simp [laneFinds]
    · simp [Trading.owed, hl]

theorem open_applyTransition {target : OrderLifecycleState} (hopen : isTerminalLifecycle e.lifecycleState = false)
    (htarget : isTerminalLifecycle target = false) :
    isTerminalLifecycle (applyTransition e target).2.lifecycleState = false := by
  rcases applyTransition_cases e target with ⟨_, h⟩ | ⟨_, h⟩
  · rw [h]
    exact htarget
  · rw [h]
    exact hopen

theorem rejectsSend_of_ended {rc : ErrorCode} (hopen : isTerminalLifecycle e.lifecycleState = false)
    (hended : isTerminalLifecycle (sendResultEntry e rc).2.lifecycleState = true) :
    rejectsSend e rc = true ∧ frozenFor (sendResultEntry e rc).2.order = 0 := by
  unfold sendResultEntry at hended ⊢
  split at hended
  case isTrue hsends =>
    rw [if_pos hsends]
    split at hended
    case isTrue =>
      rw [open_applyTransition (by exact hopen) rfl] at hended
      cases hended
    case isFalse htimeout =>
      rw [if_neg htimeout]
      split at hended
      case isTrue hfails =>
        rw [if_pos hfails]
        refine ⟨?_, ?_⟩
        · rcases hsends with hl | ⟨hl, _⟩ <;> simp [rejectsSend, hl, hfails, htimeout]
        · rcases hsends with hl | ⟨hl, _⟩ <;> simp [applyTransition, canTransition, hl, frozenFor, terminalStatus]
      case isFalse =>
        rw [open_applyTransition hopen rfl] at hended
        cases hended
  case isFalse =>
    rw [open_applyTransition hopen hopen] at hended
    cases hended

theorem Effect.ended {oms : OrderManager} {e' : OrderEntry} (heffect : Effect c a oms)
    (he' : oms.orders.lookup orderId = some e') (hended : isTerminalLifecycle e'.lifecycleState = true) :
    ∃ e, c.shared.oms.orders.lookup orderId = some e ∧
      (∀ clientOrderId, oms.clientOrderIndex.lookup clientOrderId = some orderId ↔
        c.shared.oms.clientOrderIndex.lookup clientOrderId = some orderId) ∧
      (isTerminalLifecycle e.lifecycleState = true ∧ frozenFor e'.order = frozenFor e.order ∨
        isTerminalLifecycle e.lifecycleState = false ∧
          ∃ rc, sendResult? c a = some (orderId, rc) ∧ rejectsSend e rc = true ∧ frozenFor e'.order = 0) := by
  cases heffect with
  | idles h =>
    obtain ⟨e, he, hidles⟩ := h.origin he'
    have hfinished := hidles.ends hended
    refine ⟨e, he, by simp [h.clientOrderIndex], Or.inl ⟨hfinished, ?_⟩⟩
    rw [(hidles.finished hfinished).2]
    rfl
  | creates request newId hcreate =>
    rcases createOrder_cases c.shared.oms request newId with hsame | ⟨hfree, _, _, hborn⟩
    · rw [hsame] at he' ⊢
      exact ⟨e', he', fun _ => Iff.rfl, Or.inl ⟨hended, rfl⟩⟩
    · rw [hborn] at he' ⊢
      dsimp only at he' ⊢
      rw [lookup_born] at he'
      split at he'
      case isTrue =>
        cases he'
        cases hended
      case isFalse hother =>
        refine ⟨e', he', fun clientOrderId => ?_, Or.inl ⟨hended, rfl⟩⟩
        rw [OrderManager.born, lookup_index]
        split
        case isTrue hnew =>
          have hnone := hfree.resolve_left hnew.1
          rw [hnew.2, hnone]
          simp [Ne.symm hother]
        case isFalse => exact Iff.rfl
  | records recordId rc hresult =>
    have hindex := (recordSendResult_evolves c.shared.oms recordId rc).clientOrderIndex
    rw [recordSendResult, lookup_update] at he'
    split at he'
    case isTrue hid =>
      subst hid
      obtain ⟨e, he, rfl⟩ := Option.map_eq_some_iff.mp he'
      refine ⟨e, he, by simp [hindex], ?_⟩
      by_cases hopen : isTerminalLifecycle e.lifecycleState = true
      · rw [sendResultEntry_finished hopen]
        exact Or.inl ⟨hopen, rfl⟩
      · rw [Bool.not_eq_true] at hopen
        obtain ⟨hrejects, hzero⟩ := rejectsSend_of_ended hopen hended
        exact Or.inr ⟨hopen, rc, hresult, hrejects, hzero⟩
    case isFalse => exact ⟨e', he', by simp [hindex], Or.inl ⟨hended, rfl⟩⟩

theorem laneFinds_iff (h : s.oms.Anchored) (hmem : orderId ∈ s.oms.orders) :
    laneFinds s orderId = true ↔ ∃ report, s.lane = .orderApplied report ∧
      (if report.orderId = "" then s.oms.clientOrderIndex.lookup report.clientOrderId = some orderId
        else report.orderId = orderId) := by
  unfold laneFinds
  split
  case h_1 report hl =>
    rw [beq_iff_eq, followUp_id h]
    simp only [hl, LanePc.orderApplied.injEq, exists_eq_left']
    by_cases hempty : report.orderId = ""
    · rw [if_pos hempty, if_pos hempty]
    · rw [if_neg hempty, if_neg hempty]
      constructor
      · intro hfound
        split at hfound
        case isTrue => exact Option.some.inj hfound
        case isFalse => cases hfound
      · rintro rfl
        rw [if_pos hmem]
  case h_2 hother =>
    constructor
    · rintro ⟨⟩
    · rintro ⟨report, hl, _⟩
      exact absurd hl (hother report)

theorem Freeing.beside (h : Freeing c.shared) (hbeside : Beside c.shared s') (heffect : Effect c a s'.oms)
    (hok : ((sendResult? c a).any fun result => sendLeavesFrozen c.shared result.1 result.2) = false) :
    Freeing s' := by
  have hanchored := heffect.extends.anchored h.anchored
  have howed : ∀ orderId, Trading.owed s' orderId = Trading.owed c.shared orderId := by
    intro orderId
    rw [Trading.owed, Trading.owed, hbeside.lane, hbeside.account]
  have hboth : ∀ orderId e', s'.oms.orders.lookup orderId = some e' →
      isTerminalLifecycle e'.lifecycleState = true →
      (laneFinds s' orderId = true → frozenFor e'.order = 0) ∧
        (laneFinds s' orderId = false → Trading.owed s' orderId = 0) := by
    intro orderId e' he' hended
    obtain ⟨e, he, hindex, hcases⟩ := heffect.ended he' hended
    have hfinds : laneFinds s' orderId = laneFinds c.shared orderId := by
      rw [Bool.eq_iff_iff, laneFinds_iff hanchored (Finmap.mem_of_lookup_eq_some he'),
        laneFinds_iff h.anchored (Finmap.mem_of_lookup_eq_some he), hbeside.lane]
      simp only [hindex]
    rw [hfinds, howed]
    rcases hcases with ⟨hfinished, hsame⟩ | ⟨_, rc, hresult, hrejects, hzero⟩
    · rw [hsame]
      exact ⟨h.found orderId e he hfinished, h.owed orderId e he hfinished⟩
    · refine ⟨fun _ => hzero, fun hno => ?_⟩
      rw [hresult, Option.any_some, sendLeavesFrozen, he, Option.any_some, hrejects, hno] at hok
      simpa using hok
  refine ⟨hanchored, ?_, fun orderId e he hended => (hboth orderId e he hended).1,
    fun orderId e he hended => (hboth orderId e he hended).2⟩
  rw [hbeside.account]
  exact h.balanced

theorem step_freeing (h : Freeing c.shared) (hok : stepLeavesFrozen c a = false) (hs : step c a = some c') :
    Freeing c'.shared := by
  by_cases hon : onLane a = true
  · unfold onLane at hon
    split at hon
    case h_1 report => exact h.orderReport (Calls.Program.step_environment hs).1 hok
    case h_2 report => exact h.tradeReport (Calls.Program.step_environment hs).1 hok
    case h_3 => exact h.lane (laneStep_step (Calls.Program.step_environment hs).1)
    case h_4 => cases hon
  · rw [Bool.not_eq_true] at hon
    have htakes : takesReport a = false := by
      unfold onLane at hon
      unfold takesReport
      split at hon <;> simp_all
    apply h.beside (step_beside hon hs) (step_effect htakes hs)
    unfold stepLeavesFrozen at hok
    split at hok
    case h_1 => cases hon
    case h_2 => cases hon
    case h_3 => exact hok

/-- In every run of an engine that has started from a snapshot, where neither an entry of the snapshot nor
a step of the run leaves funds frozen for a finished order: once the handler has returned, nothing is frozen
for any order that is filled, canceled or rejected, and the frozen total is what single orders freeze. -/
theorem finished_unfrozen {s₀ oms : OrderManager} {options : OrderManagerOptions} {snapshot : BrokerSnapshot}
    {c₀ : System} (hinit : s₀.initializeWith options = (.success, oms))
    (hsnapshot : Folds.meets Books.take leavesFrozen { oms } snapshot.entries = false)
    (hbooks : c₀.shared.books = (Books.synchronize { oms } snapshot).2) (hidle : c₀.shared.lane = .idle)
    (hrun : Runs.Reaches step (fun c a => stepLeavesFrozen c a = false) c₀ c) (hreturned : c.shared.lane = .idle) :
    (∀ orderId e, c.shared.oms.orders.lookup orderId = some e →
      isTerminalLifecycle e.lifecycleState = true → c.shared.account.frozenOf orderId = 0) ∧
    c.shared.account.frozenAmount = Table.total c.shared.account.orderFrozenAmounts := by
  have hstart := unfrozen_synchronize hinit hsnapshot
  rw [← hbooks] at hstart
  have hfreeing : Freeing c.shared := by
    apply hrun.invariant
    · exact Freeing.of_unfrozen hstart hidle
    · exact fun c a c' h hok hs => step_freeing h hok hs
  have hunfrozen := hfreeing.unfrozen hreturned
  exact ⟨hunfrozen.freed, hunfrozen.balanced.total⟩

/-- A broker without orders, and cash for a start. -/
def cashDay : BrokerSnapshot where
  asset := { buyingPower := .fin 100 }

def openedWithCash : System where
  shared :=
    { opening.shared with
      account := (Books.synchronize { oms := opening.shared.oms } cashDay).2.account
      position := (Books.synchronize { oms := opening.shared.oms } cashDay).2.position }
  calls := []

/-- The buy works at the venue, and the account has frozen its cost. -/
def acknowledged : List Action :=
  workingBuy ++
    .environment (.orderReport { orderId := "t-e-1-1", status := .notTradedQueueing, leftVolume := 4 }) ::
      List.replicate 2 (.environment .lane)

theorem opening_initialized :
    ({} : OrderManager).initializeWith ⟨"t", "e", 1⟩ = (.success, opening.shared.oms) := rfl

/-- The buy is canceled, and its funds are free again. -/
theorem finished_unfrozen_canceled : ∃ c : System, ∃ e,
    c.shared.oms.orders.lookup "t-e-1-1" = some e ∧ e.lifecycleState = .canceled ∧
      c.shared.account.frozenOf "t-e-1-1" = 0 ∧
      c.shared.account.frozenAmount = Table.total c.shared.account.orderFrozenAmounts := by
  have hrun : ∃ c ∈ Runs.execWhile step (fun c a => stepLeavesFrozen c a = false) openedWithCash
      (acknowledged ++ .environment (.orderReport { orderId := "t-e-1-1", status := .canceled }) ::
        List.replicate 3 (.environment .lane)),
      c.shared.lane = .idle ∧ ∃ e ∈ c.shared.oms.orders.lookup "t-e-1-1", e.lifecycleState = .canceled := by
    decide +kernel
  obtain ⟨c, hc, hreturned, e, he, hl⟩ := hrun
  have hbooks : openedWithCash.shared.books = (Books.synchronize { oms := opening.shared.oms } cashDay).2 := rfl
  have h := finished_unfrozen opening_initialized rfl hbooks rfl (Runs.reaches_of_execWhile _ hc) hreturned
  exact ⟨c, e, he, hl, h.1 _ e he (by rw [hl]; rfl), h.2⟩

def fullFill : Trade :=
  { tradeId := "x", orderId := "t-e-1-1", instrument := "600000", price := .fin 10, volume := 4 }

/-- The buy is filled by a trade. Its cost of 40 has been paid and is still frozen, so 20 of 100 are left. -/
theorem filled_frozen : ¬ ∀ (s₀ oms : OrderManager) (options : OrderManagerOptions) (snapshot : BrokerSnapshot)
    (c₀ c : System), s₀.initializeWith options = (.success, oms) →
    c₀.shared.books = (Books.synchronize { oms } snapshot).2 → c₀.shared.lane = .idle →
    Runs.Reaches step Runs.anyStep c₀ c → c.shared.lane = .idle →
    ∀ orderId e, c.shared.oms.orders.lookup orderId = some e →
      isTerminalLifecycle e.lifecycleState = true → c.shared.account.frozenOf orderId = 0 := by
  intro hall
  have hrun : ∃ c ∈ Runs.exec step openedWithCash
      (acknowledged ++ .environment (.tradeReport fullFill) :: List.replicate 4 (.environment .lane)),
      c.shared.lane = .idle ∧ c.shared.account.frozenOf "t-e-1-1" = .fin 40 ∧
        c.shared.account.getAvailableFunds = .fin 20 ∧
        ∃ e ∈ c.shared.oms.orders.lookup "t-e-1-1", e.lifecycleState = .filled := by
    decide +kernel
  obtain ⟨c, hc, hreturned, hfrozen, _, e, he, hl⟩ := hrun
  have hzero := hall {} _ _ cashDay openedWithCash c opening_initialized rfl rfl (Runs.reaches_of_exec _ hc)
    hreturned "t-e-1-1" e he (by rw [hl]; rfl)
  rw [hfrozen] at hzero
  cases hzero

end Qtrade.Trading
