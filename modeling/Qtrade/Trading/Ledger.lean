import Qtrade.DistinctFills
import Qtrade.Trading.Effects

/-!
# The fills in the books

The account and the positions take the fills that Lane-T handles, in its order and all of them, whatever the other
threads do meanwhile. The order manager takes no others.
-/

namespace Qtrade.Oms.OrderManager

/-! ## What the order manager remembers of fills -/

variable (s : OrderManager)

theorem appliedTradeIds_update (orderId : String) (change : OrderEntry → ErrorCode × OrderEntry) :
    (s.update orderId change).2.appliedTradeIds = s.appliedTradeIds := by
  unfold update
  split <;> rfl

theorem appliedTradeIds_createOrder (request : OrderRequest) (orderId : String) :
    (s.createOrder request orderId).2.appliedTradeIds = s.appliedTradeIds := by
  unfold createOrder index
  repeat' split
  all_goals rfl

end Qtrade.Oms.OrderManager

namespace Qtrade.Trading

open Qtrade.Account (AccountManager)
open Qtrade.Position (PositionManager)
open Qtrade.Oms

/-! ## What the books say of fills -/

/-- What the account knows of fills. Orders do not touch it. -/
def fills (s : AccountManager) : Finset String × Double × Double := (s.appliedTradeIds, s.netCashFlow, s.filledAmount)

theorem fills_applyOrder (s : AccountManager) (order : Order) : fills (s.applyOrder order) = fills s := by
  unfold AccountManager.applyOrder
  split <;> rfl

theorem fills_applyTrade {s s' : AccountManager} (h : fills s = fills s') (trade : Trade) :
    fills (s.applyTrade trade) = fills (s'.applyTrade trade) := by
  simp only [fills, Prod.mk.injEq] at h
  obtain ⟨hids, hflow, hfilled⟩ := h
  unfold AccountManager.applyTrade
  split
  case isTrue => simp [fills, hids, hflow, hfilled]
  case isFalse =>
    rw [hids]
    dsimp only
    split
    · simp [fills, hids, hflow, hfilled]
    · simp [fills, hflow, hfilled]

def fillKeys (trades : List Trade) : Finset String := (trades.map generateTradeDedupKey).toFinset

/-! ## The steps -/

section Steps

variable {s s' : Shared}

/-- What the threads beside the lane leave alone. -/
structure LeavesFills (s s' : Shared) : Prop where
  lane : s'.lane = s.lane
  account : s'.account = s.account
  position : s'.position = s.position
  oms : s'.oms.appliedTradeIds = s.oms.appliedTradeIds

theorem LeavesFills.release (s : Shared) (orderId : String) (reason : ReleaseReason) :
    LeavesFills s (s.release orderId reason) := by
  unfold Shared.release
  split <;> exact ⟨rfl, rfl, rfl, rfl⟩

theorem submitNext_fills {call : Nat} {pc pc' : SubmitPc} {answer : Shared.Answer}
    (h : s.submitNext call pc answer = some (s', pc')) : LeavesFills s s' := by
  unfold Shared.submitNext at h
  split at h
  case h_9 request orderId =>
    have hids := s.oms.appliedTradeIds_createOrder request orderId
    split at h <;> rename_i heq <;> cases h <;> rw [heq] at hids <;> exact ⟨rfl, rfl, rfl, hids⟩
  case h_11 request order =>
    cases h
    exact ⟨rfl, rfl, rfl, s.oms.appliedTradeIds_update _ _⟩
  case h_13 request order rc =>
    cases h
    exact ⟨rfl, rfl, rfl, s.oms.appliedTradeIds_update _ _⟩
  case h_14 request orderId rc =>
    cases h
    exact .release s orderId _
  case h_15 => cases h
  case h_2 | h_3 =>
    dsimp only at h
    split at h <;> cases h <;> exact ⟨rfl, rfl, rfl, rfl⟩
  case h_5 | h_10 => split at h <;> cases h <;> exact ⟨rfl, rfl, rfl, rfl⟩
  all_goals
    cases h
    exact ⟨rfl, rfl, rfl, rfl⟩

theorem CancelStep.fills {pc pc' : CancelPc} (h : CancelStep s pc s' pc') : LeavesFills s s' := by
  cases h <;> exact ⟨rfl, rfl, rfl, by first | rfl | exact s.oms.appliedTradeIds_update _ _⟩

theorem WorkerStep.fills (h : WorkerStep s s') : LeavesFills s s' := by
  cases h with
  | released orderId =>
    have hrelease := LeavesFills.release { s with worker := .idle } orderId .emsEnqueueFailed
    exact ⟨hrelease.lane, hrelease.account, hrelease.position, hrelease.oms⟩
  | _ => exact ⟨rfl, rfl, rfl, by first | rfl | exact s.oms.appliedTradeIds_update _ _⟩

end Steps

/-! ## The ledger -/

/-- The fill that the account has not taken yet. -/
def LanePc.beforeAccount : LanePc → Option Trade
  | .tradeApplied report => some report
  | _ => none

/-- The fill that the positions have not taken yet. -/
def LanePc.beforePosition : LanePc → Option Trade
  | .tradeApplied report => some report
  | .accountTraded report => some report
  | _ => none

/-- The books have the fills that came after the start, but for the one that the lane has in hand. -/
structure Ledger (start : Shared) (trades : List Trade) (s : Shared) : Prop where
  valid : ∀ trade ∈ trades, isValidTrade trade = true
  account : ∃ taken, trades = taken ++ s.lane.beforeAccount.toList ∧
    fills s.account = fills (taken.foldl AccountManager.applyTrade start.account)
  position : ∃ taken, trades = taken ++ s.lane.beforePosition.toList ∧
    s.position = taken.foldl PositionManager.applyTrade start.position
  oms : s.oms.appliedTradeIds ⊆ start.oms.appliedTradeIds ∪ fillKeys trades

section Ledger

variable {start s s' : Shared} {trades : List Trade}

theorem Ledger.leaves (h : Ledger start trades s) (hs : LeavesFills s s') : Ledger start trades s' := by
  refine ⟨h.valid, ?_, ?_, ?_⟩
  · rw [hs.lane, hs.account]
    exact h.account
  · rw [hs.lane, hs.position]
    exact h.position
  · rw [hs.oms]
    exact h.oms

theorem Ledger.quiet (h : Ledger start trades s) (hlane : s'.lane.beforeAccount = s.lane.beforeAccount)
    (hlane' : s'.lane.beforePosition = s.lane.beforePosition) (haccount : fills s'.account = fills s.account)
    (hposition : s'.position = s.position) (homs : s'.oms = s.oms) : Ledger start trades s' := by
  refine ⟨h.valid, ?_, ?_, ?_⟩
  · rw [hlane, haccount]
    exact h.account
  · rw [hlane', hposition]
    exact h.position
  · rw [homs]
    exact h.oms

theorem LaneStep.ledger (hs : LaneStep s s') (h : Ledger start trades s) : Ledger start trades s' := by
  cases hs with
  | unknownOrder _ hl => exact h.quiet (by rw [hl]; rfl) (by rw [hl]; rfl) rfl rfl rfl
  | knownOrder _ _ hl => exact h.quiet (by rw [hl]; rfl) (by rw [hl]; rfl) rfl rfl rfl
  | orderGoesOn _ known hl => exact h.quiet (by rw [hl]; rfl) (by rw [hl]; rfl) (fills_applyOrder _ known) rfl rfl
  | orderEnded _ known _ hl => exact h.quiet (by rw [hl]; rfl) (by rw [hl]; rfl) (fills_applyOrder _ known) rfl rfl
  | tradeAccounted report hl =>
    obtain ⟨taken, htrades, haccount⟩ := h.account
    rw [hl] at htrades
    refine ⟨h.valid, ⟨trades, by simp [LanePc.beforeAccount], ?_⟩, ?_, h.oms⟩
    · rw [fills_applyTrade haccount, htrades]
      simp [LanePc.beforeAccount]
    · obtain ⟨taken, htrades, hposition⟩ := h.position
      rw [hl] at htrades
      exact ⟨taken, htrades, hposition⟩
  | positionTraded report hl =>
    obtain ⟨taken, htrades, hposition⟩ := h.position
    rw [hl] at htrades
    refine ⟨h.valid, ?_, ⟨trades, by simp [LanePc.beforePosition], ?_⟩, h.oms⟩
    · obtain ⟨taken, htrades, haccount⟩ := h.account
      rw [hl] at htrades
      exact ⟨taken, htrades, haccount⟩
    · rw [hposition, htrades]
      simp [LanePc.beforePosition]
  | notFilled _ hl => exact h.quiet (by rw [hl]; rfl) (by rw [hl]; rfl) rfl rfl rfl
  | filled _ _ hl => exact h.quiet (by rw [hl]; rfl) (by rw [hl]; rfl) rfl rfl rfl
  | released orderId reason hl =>
    have hrelease := LeavesFills.release { s with lane := .idle } orderId reason
    have hidle : Ledger start trades { s with lane := .idle } :=
      h.quiet (by rw [hl]; rfl) (by rw [hl]; rfl) rfl rfl rfl
    exact hidle.leaves hrelease

theorem Ledger.takes (h : Ledger start trades s) {report : Trade} (hl : s.lane = .idle)
    (hvalid : isValidTrade report = true) :
    Ledger start (trades ++ [report])
      { s with oms := s.oms.applyTradeReport report, lane := .tradeApplied report } := by
  obtain ⟨taken, htrades, haccount⟩ := h.account
  obtain ⟨taken', htrades', hposition⟩ := h.position
  rw [hl] at htrades htrades'
  refine ⟨fun trade hmem => ?_, ⟨taken, by rw [htrades]; simp [LanePc.beforeAccount], haccount⟩,
    ⟨taken', by rw [htrades']; simp [LanePc.beforePosition], hposition⟩, ?_⟩
  · rcases List.mem_append.mp hmem with hold | hnew
    · exact h.valid trade hold
    · rw [List.mem_singleton.mp hnew]
      exact hvalid
  · apply (s.oms.appliedTradeIds_applyTradeReport report).trans
    rw [Finset.insert_subset_iff]
    constructor
    · simp [fillKeys]
    · apply h.oms.trans (Finset.union_subset_union_right _)
      intro key hkey
      simp only [fillKeys, List.map_append, List.toFinset_append, Finset.mem_union]
      exact Or.inl hkey

/-- The fill of a report that the lane takes. -/
def handledTrade : Action → Option Trade
  | .environment (.tradeReport report) => some report
  | _ => none

theorem step_ledger {c c' : System} {a : Action} (h : Ledger start trades c.shared) (hs : step c a = some c') :
    Ledger start (trades ++ (handledTrade a).toList) c'.shared := by
  have hsame : handledTrade a = none → Ledger start trades c'.shared →
      Ledger start (trades ++ (handledTrade a).toList) c'.shared := by
    intro hnone hledger
    rw [hnone]
    simpa using hledger
  cases a with
  | start call =>
    cases hs
    exact hsame rfl h
  | resume index answer =>
    obtain ⟨pc, pc', -, hnext, -⟩ := Calls.Program.step_resume hs
    have hnext : callNext c.shared index pc answer = some (c'.shared, pc') := hnext
    refine hsame rfl ?_
    cases pc with
    | submit pc =>
      obtain ⟨pc', -, hsubmit⟩ := callNext_submit hnext
      exact h.leaves (submitNext_fills hsubmit)
    | cancel pc =>
      obtain ⟨pc', -, hcancel⟩ := callNext_cancel hnext
      exact h.leaves hcancel.fills
  | environment event =>
    obtain ⟨henv, -⟩ := Calls.Program.step_environment hs
    cases event with
    | worker => exact hsame rfl (h.leaves (workerStep_step henv).fills)
    | traderReturns rc =>
      obtain ⟨worker, heq, -⟩ := traderReturns_eq henv
      have hleaves : LeavesFills c.shared c'.shared := by
        rw [heq]
        exact ⟨rfl, rfl, rfl, rfl⟩
      exact hsame rfl (h.leaves hleaves)
    | orderReport report =>
      obtain ⟨hl, -, heq⟩ := orderReport_eq henv
      apply hsame rfl
      rw [heq]
      refine ⟨h.valid, ?_, ?_, ?_⟩
      · have haccount := h.account
        rw [hl] at haccount
        exact haccount
      · have hposition := h.position
        rw [hl] at hposition
        exact hposition
      · rw [c.shared.oms.appliedTradeIds_applyOrderReport report]
        exact h.oms
    | tradeReport report =>
      obtain ⟨hl, hvalid, heq⟩ := tradeReport_eq henv
      rw [heq]
      exact h.takes hl hvalid
    | lane => exact hsame rfl ((laneStep_step henv).ledger h)

theorem beforeAccount_none {lane : LanePc} (h : lane.beforePosition = none) : lane.beforeAccount = none := by
  cases lane with
  | tradeApplied report => cases h
  | _ => rfl

/-- However the calls and the worker move in between: when the lane has no fill in hand, the account and the positions
are what the fills that it has handled make of them, in their order, and both have taken the same ones. The order
manager has taken no other. -/
theorem fills_counted {c c' : System} {actions : List Action} (hstart : c.shared.lane.beforePosition = none)
    (h : Runs.exec step c actions = some c') (hdone : c'.shared.lane.beforePosition = none) :
    let trades := actions.filterMap handledTrade
    fills c'.shared.account = fills (trades.foldl AccountManager.applyTrade c.shared.account) ∧
      c'.shared.position = trades.foldl PositionManager.applyTrade c.shared.position ∧
      c'.shared.account.appliedTradeIds = c.shared.account.appliedTradeIds ∪ fillKeys trades ∧
      c'.shared.position.appliedTradeIds = c.shared.position.appliedTradeIds ∪ fillKeys trades ∧
      c'.shared.oms.appliedTradeIds ⊆ c.shared.oms.appliedTradeIds ∪ fillKeys trades := by
  intro trades
  have hopen : Ledger c.shared [] c.shared := by
    refine ⟨fun _ hmem => absurd hmem List.not_mem_nil, ⟨[], ?_, rfl⟩, ⟨[], ?_, rfl⟩, Finset.subset_union_left⟩
    · rw [beforeAccount_none hstart]
      rfl
    · rw [hstart]
      rfl
  have hledger : Ledger c.shared trades c'.shared :=
    Runs.exec_collect (P := fun trades c' => Ledger c.shared trades c'.shared)
      (fun _ _ _ _ hs hstep => step_ledger hs hstep) h hopen
  obtain ⟨taken, htrades, haccount⟩ := hledger.account
  obtain ⟨taken', htrades', hposition⟩ := hledger.position
  rw [beforeAccount_none hdone, Option.toList_none, List.append_nil] at htrades
  rw [hdone, Option.toList_none, List.append_nil] at htrades'
  subst htrades htrades'
  refine ⟨haccount, hposition, ?_, ?_, hledger.oms⟩
  · rw [show c'.shared.account.appliedTradeIds = _ from congrArg Prod.fst haccount]
    exact Dedup.seen_foldl (fun trade hmem => AccountManager.takesOnce (hledger.valid trade hmem)) _
  · rw [hposition]
    exact Dedup.seen_foldl (fun trade hmem => PositionManager.takesOnce (hledger.valid trade hmem)) _

end Ledger

/-! ### A fill that comes before the trader returns, and once more -/

def earlyFill : Trade :=
  { tradeId := "f", orderId := "t-e-1-1", instrument := "600000", price := .fin 10, volume := 4 }

def filledTwice : List Action :=
  submitAlone 0 limitBuy ++ workerToTrader ++
    [.environment (.tradeReport earlyFill), .environment .lane, .environment (.traderReturns .success),
      .environment .lane, .environment .worker, .environment .lane, .environment .lane,
      .environment (.tradeReport earlyFill), .environment .lane, .environment .lane]

/-- It is counted once. -/
theorem fills_counted_twice : ∃ c', Runs.exec step opening filledTwice = some c' ∧
    c'.shared.position.getNetPosition "600000" = 4 ∧
    c'.shared.position = [earlyFill, earlyFill].foldl PositionManager.applyTrade {} ∧
    c'.shared.account.appliedTradeIds = ∅ ∪ fillKeys [earlyFill, earlyFill] := by
  have hrun : ∃ c' ∈ Runs.exec step opening filledTwice, c'.shared.lane.beforePosition = none ∧
      c'.shared.position.getNetPosition "600000" = 4 := by decide +kernel
  obtain ⟨c', hc', hdone, hnet⟩ := hrun
  obtain ⟨-, hposition, haccount, -, -⟩ := fills_counted rfl hc' hdone
  exact ⟨c', hc', hnet, hposition, haccount⟩

end Qtrade.Trading
