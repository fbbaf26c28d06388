import Mathlib.Algebra.Order.BigOperators.Group.Finset
import Mathlib.Algebra.BigOperators.Group.List.Basic
import Qtrade.Lib.Runs
import Qtrade.Oms.Spec

/-!
# The two report streams of one order

Order reports carry the cumulative volume and overwrite it, trade reports carry one fill and add it.
A fill is counted once as long as no trade report comes for a fill that an order report has brought
already, and no order report brings less than what is counted.
-/

namespace Qtrade.Oms

open OrderManager

/-! ## The venue -/

/-- The fills of one order, in the order in which they happen. -/
structure VenueHistory where
  volume : Int
  fills : List Trade
  positive : ∀ trade ∈ fills, 0 < trade.volume
  identified : ∀ trade ∈ fills, trade.tradeId ≠ ""
  distinct : (fills.map (·.tradeId)).Nodup
  total : (fills.map (·.volume)).sum ≤ volume

namespace VenueHistory

variable (history : VenueHistory)

/-- The volume of the first fills. -/
def cumulative (n : Nat) : Int := ((history.fills.take n).map (·.volume)).sum

def volumeOf (i : Nat) : Int := (history.fills[i]?).elim 0 (·.volume)

theorem volumeOf_nonneg (i : Nat) : 0 ≤ history.volumeOf i := by
  unfold volumeOf
  cases h : history.fills[i]? with
  | none => simp
  | some trade =>
    have := history.positive trade (List.mem_of_getElem? h)
    simp only [Option.elim_some]
    omega

theorem cumulative_eq_sum (n : Nat) : history.cumulative n = ∑ i ∈ Finset.range n, history.volumeOf i := by
  induction n with
  | zero => simp [cumulative]
  | succ n ih =>
    rw [Finset.sum_range_succ, ← ih]
    unfold cumulative volumeOf
    rw [List.take_add_one, List.map_append, List.sum_append]
    cases history.fills[n]? <;> simp

theorem sum_le_cumulative {counted : Finset Nat} {n : Nat} (h : counted ⊆ Finset.range n) :
    ∑ i ∈ counted, history.volumeOf i ≤ history.cumulative n := by
  rw [cumulative_eq_sum]
  exact Finset.sum_le_sum_of_subset_of_nonneg h fun i _ _ => history.volumeOf_nonneg i

theorem cumulative_mono {m n : Nat} (h : m ≤ n) : history.cumulative m ≤ history.cumulative n := by
  rw [cumulative_eq_sum]
  exact history.sum_le_cumulative (Finset.range_mono h)

theorem cumulative_le_volume (n : Nat) : history.cumulative n ≤ history.volume := by
  have hall : history.cumulative (max n history.fills.length) = (history.fills.map (·.volume)).sum := by
    unfold cumulative
    rw [List.take_of_length_le (le_max_right _ _)]
  have hmono := history.cumulative_mono (le_max_left n history.fills.length)
  have htotal := history.total
  omega

end VenueHistory

/-! ## The streams -/

/-- `filled` counts the fills that have happened, `point` is how many of them the last order report
that was accepted knew of. -/
structure Streams where
  oms : OrderManager
  filled : Nat := 0
  point : Nat := 0

inductive StreamStep
  | fill
  | orderReport (point : Nat) (report : Order)
  | tradeReport (index : Nat)
  | recordSendResult (result : ErrorCode)
  | cancelOrder
  | recordCancelResult (result : ErrorCode)
deriving DecidableEq

/-- What an order report says of the order after this many fills. -/
def describes (history : VenueHistory) (point : Nat) (report : Order) : Bool :=
  report.volume == history.volume && report.tradedVolume == history.cumulative point &&
    report.leftVolume == history.volume - history.cumulative point &&
    (report.status == .filled) == (history.cumulative point == history.volume)

namespace Streams

/-- The order's entry is changed. -/
def accepts (s : Streams) (orderId : String) (change : OrderEntry → ErrorCode × OrderEntry) : Bool :=
  (s.oms.orders.lookup orderId).any fun e => (change e).1 == .success

/-- A report may be delivered late and more than once. -/
def step (history : VenueHistory) (orderId : String) (s : Streams) : StreamStep → Option Streams
  | .fill => if s.filled < history.fills.length then some { s with filled := s.filled + 1 } else none
  | .orderReport point report =>
    if point ≤ s.filled ∧ describes history point report ∧
        s.oms.reportKey report.orderId report.clientOrderId = some orderId then
      some { s with
        oms := s.oms.applyOrderReport report
        point := if s.accepts orderId (orderReportEntry · report) then point else s.point }
    else none
  | .tradeReport index =>
    match history.fills[index]? with
    | some trade =>
      if index < s.filled ∧ s.oms.reportKey trade.orderId trade.clientOrderId = some orderId then
        some { s with oms := s.oms.applyTradeReport trade }
      else none
    | none => none
  | .recordSendResult result => some { s with oms := (s.oms.recordSendResult orderId result).2 }
  | .cancelOrder => some { s with oms := (s.oms.cancelOrder orderId).2 }
  | .recordCancelResult result => some { s with oms := (s.oms.recordCancelResult orderId result).2 }

/-- An order report that is accepted brings at least what is counted, and a trade report that is
accepted is for a fill that the last accepted order report did not know of. -/
def countsOnce (history : VenueHistory) (orderId : String) (s : Streams) : StreamStep → Bool
  | .orderReport _ report =>
    (s.oms.orders.lookup orderId).all fun e =>
      (orderReportEntry e report).1 != .success || decide (e.order.tradedVolume ≤ report.tradedVolume)
  | .tradeReport index =>
    (history.fills[index]?).all fun trade =>
      decide (generateTradeDedupKey trade ∈ s.oms.appliedTradeIds) ||
        !s.accepts orderId (tradeReportEntry · trade) || decide (s.point ≤ index)
  | _ => true

end Streams

/-! ## The invariant -/

variable {history : VenueHistory} {orderId : String} {s s' : Streams} {e e' : OrderEntry}

/-- The traded volume is that of some of the fills. Those that the last order report did not know of
were applied one by one. -/
structure Counted (history : VenueHistory) (s : Streams) (e : OrderEntry) : Prop where
  volume : e.order.volume = history.volume
  filled : e.lifecycleState = .filled → history.cumulative s.filled = history.volume
  counted : ∃ counted ⊆ Finset.range s.filled, e.order.tradedVolume = ∑ i ∈ counted, history.volumeOf i ∧
    ∀ i ∈ counted, i < s.point ∨ ∃ trade, history.fills[i]? = some trade ∧
      generateTradeDedupKey trade ∈ s.oms.appliedTradeIds

theorem Counted.le (h : Counted history s e) : e.order.tradedVolume ≤ history.cumulative s.filled := by
  obtain ⟨counted, hsub, htraded, _⟩ := h.counted
  rw [htraded]
  exact history.sum_le_cumulative hsub

/-- The volumes stay, and the order does not get filled. -/
structure SameVolumes (e e' : OrderEntry) : Prop where
  volume : e'.order.volume = e.order.volume
  tradedVolume : e'.order.tradedVolume = e.order.tradedVolume
  filled : e'.lifecycleState = .filled → e.lifecycleState = .filled

theorem Counted.same (h : Counted history s e) (he : SameVolumes e e') (hfilled : s'.filled = s.filled)
    (hpoint : s'.point = s.point) (hids : s'.oms.appliedTradeIds = s.oms.appliedTradeIds) :
    Counted history s' e' := by
  obtain ⟨counted, hsub, htraded, hfrom⟩ := h.counted
  refine ⟨he.volume.trans h.volume, fun hl => ?_, counted, ?_, he.tradedVolume.trans htraded, ?_⟩
  · rw [hfilled]
    exact h.filled (he.filled hl)
  · rw [hfilled]
    exact hsub
  · rw [hpoint, hids]
    exact hfrom

/-! ## The operations -/

theorem applyTransition_same (e : OrderEntry) (status : OrderStatusType) (submitStatus : OrderSubmitStatusType)
    {target : OrderLifecycleState} (ht : target = .filled → e.lifecycleState = .filled) :
    SameVolumes e (applyTransition
      { e with order.status := status, order.submitStatus := submitStatus } target).2 := by
  rcases applyTransition_cases
    { e with order.status := status, order.submitStatus := submitStatus } target with ⟨_, h⟩ | ⟨_, h⟩
  · rw [h]; exact ⟨rfl, rfl, ht⟩
  · rw [h]; exact ⟨rfl, rfl, id⟩

theorem sendResultEntry_same (e : OrderEntry) (result : ErrorCode) :
    SameVolumes e (sendResultEntry e result).2 := by
  unfold sendResultEntry
  split
  · split
    · exact applyTransition_same e _ e.order.submitStatus (by simp)
    · split
      · exact applyTransition_same e _ _ (by simp)
      · exact applyTransition_same e e.order.status e.order.submitStatus (by simp)
  · exact applyTransition_same e e.order.status e.order.submitStatus id

theorem cancelResultEntry_same (e : OrderEntry) (result : ErrorCode) :
    SameVolumes e (cancelResultEntry e result).2 := by
  unfold cancelResultEntry
  split
  · exact applyTransition_same e e.order.status e.order.submitStatus (by simp)
  · refine applyTransition_same e e.order.status _ ?_
    split <;> simp

theorem Counted.update (h : Counted history s e) (he : s.oms.orders.lookup orderId = some e)
    {change : OrderEntry → ErrorCode × OrderEntry} (hchange : SameVolumes e (change e).2) :
    ∃ e', (s.oms.update orderId change).2.orders.lookup orderId = some e' ∧
      Counted history { s with oms := (s.oms.update orderId change).2 } e' ∧
      e.order.tradedVolume ≤ e'.order.tradedVolume := by
  refine ⟨(change e).2, by rw [lookup_update, if_pos rfl, he]; rfl, h.same hchange rfl rfl ?_,
    hchange.tradedVolume.ge⟩
  simp [OrderManager.update, he, store]

theorem applyOrderReport_accepted {oms : OrderManager} {report : Order} (he : oms.orders.lookup orderId = some e)
    (hkey : oms.reportKey report.orderId report.clientOrderId = some orderId) :
    ((orderReportEntry e report).1 = .success ∧
      (oms.applyOrderReport report).orders.lookup orderId = some (orderReportEntry e report).2 ∧
      (oms.applyOrderReport report).appliedTradeIds = oms.appliedTradeIds) ∨
    ((orderReportEntry e report).1 ≠ .success ∧ oms.applyOrderReport report = oms) := by
  obtain ⟨e₁, hf⟩ := reportKey_eq_some.mp hkey
  have heq := (findOrderLocked_some hf).1
  rw [he] at heq
  cases heq
  unfold applyOrderReport
  rw [hf]
  dsimp only
  by_cases hok : (orderReportEntry e report).1 = .success
  · rw [if_pos hok]
    exact Or.inl ⟨hok, by simp [store], rfl⟩
  · rw [if_neg hok]
    exact Or.inr ⟨hok, rfl⟩

theorem applyTradeReport_accepted {oms : OrderManager} {trade : Trade} (he : oms.orders.lookup orderId = some e)
    (hkey : oms.reportKey trade.orderId trade.clientOrderId = some orderId) :
    (generateTradeDedupKey trade ∉ oms.appliedTradeIds ∧ (tradeReportEntry e trade).1 = .success ∧
      (oms.applyTradeReport trade).orders.lookup orderId = some (tradeReportEntry e trade).2 ∧
      (oms.applyTradeReport trade).appliedTradeIds =
        insert (generateTradeDedupKey trade) oms.appliedTradeIds) ∨
    oms.applyTradeReport trade = oms := by
  obtain ⟨e₁, hf⟩ := reportKey_eq_some.mp hkey
  have heq := (findOrderLocked_some hf).1
  rw [he] at heq
  cases heq
  unfold applyTradeReport
  by_cases hdup : generateTradeDedupKey trade ∈ oms.appliedTradeIds
  · rw [if_pos hdup]
    exact Or.inr rfl
  · rw [if_neg hdup, hf]
    dsimp only
    by_cases hok : (tradeReportEntry e trade).1 = .success
    · rw [if_pos hok]
      exact Or.inl ⟨hdup, hok, by simp [store], rfl⟩
    · rw [if_neg hok]
      exact Or.inr rfl

theorem orderReportEntry_success {report : Order} (hok : (orderReportEntry e report).1 = .success) :
    (orderReportEntry e report).2 =
      { mergeOrderSnapshot e report with
        lifecycleState := lifecycleFromOrderStatus report.status e.lifecycleState } := by
  unfold orderReportEntry at hok ⊢
  exact applyTransition_success hok

theorem tradeReportEntry_success {trade : Trade} (hok : (tradeReportEntry e trade).1 = .success) :
    (tradeReportEntry e trade).2.order.volume = e.order.volume ∧
      (tradeReportEntry e trade).2.order.tradedVolume = e.order.tradedVolume + trade.volume ∧
      ((tradeReportEntry e trade).2.lifecycleState = .filled →
        e.order.volume ≤ e.order.tradedVolume + trade.volume) := by
  unfold tradeReportEntry at hok ⊢
  rw [applyTransition_success hok]
  refine ⟨rfl, rfl, fun hl => ?_⟩
  dsimp only at hl
  split at hl
  case isTrue hleft => omega
  case isFalse => cases hl

theorem Counted.orderReport (h : Counted history s e) {point : Nat} {report : Order} {oms : OrderManager}
    (hok : (orderReportEntry e report).1 = .success) (hpoint : point ≤ s.filled)
    (hdescribes : describes history point report = true) :
    Counted history { s with oms, point } (orderReportEntry e report).2 := by
  simp only [describes, Bool.and_eq_true, beq_iff_eq] at hdescribes
  obtain ⟨⟨⟨hvolume, htraded⟩, _⟩, hstatus⟩ := hdescribes
  rw [orderReportEntry_success hok]
  refine ⟨?_, fun hl => ?_, Finset.range point, Finset.range_mono hpoint, ?_, fun i hi => ?_⟩
  · have := h.volume
    simp only [mergeOrderSnapshot]
    split <;> omega
  · have hfilled : report.status = .filled ∨ e.lifecycleState = .filled := by
      have hl : lifecycleFromOrderStatus report.status e.lifecycleState = .filled := hl
      cases hs : report.status <;> simp_all [lifecycleFromOrderStatus]
      all_goals split at hl <;> simp_all
    rcases hfilled with hs | hl
    · have hfull : history.cumulative point = history.volume := by simpa [hs] using hstatus
      have hmono := history.cumulative_mono hpoint
      have hle := history.cumulative_le_volume s.filled
      dsimp only
      omega
    · exact h.filled hl
  · rw [← history.cumulative_eq_sum]
    exact htraded
  · exact Or.inl (Finset.mem_range.mp hi)

theorem Counted.tradeReport (h : Counted history s e) {index : Nat} {trade : Trade} {oms : OrderManager}
    (htrade : history.fills[index]? = some trade) (hindex : index < s.filled) (hpoint : s.point ≤ index)
    (hnew : generateTradeDedupKey trade ∉ s.oms.appliedTradeIds)
    (hok : (tradeReportEntry e trade).1 = .success)
    (hids : oms.appliedTradeIds = insert (generateTradeDedupKey trade) s.oms.appliedTradeIds) :
    Counted history { s with oms } (tradeReportEntry e trade).2 ∧
      (tradeReportEntry e trade).2.order.tradedVolume = e.order.tradedVolume + trade.volume := by
  obtain ⟨counted, hsub, htraded, hfrom⟩ := h.counted
  have hvolumeOf : history.volumeOf index = trade.volume := by simp [VenueHistory.volumeOf, htrade]
  have hnotin : index ∉ counted := by
    intro hmem
    rcases hfrom index hmem with hlt | ⟨t, ht, hkey⟩
    · omega
    · rw [htrade] at ht
      cases ht
      exact hnew hkey
  have hsub' : insert index counted ⊆ Finset.range s.filled :=
    Finset.insert_subset (Finset.mem_range.mpr hindex) hsub
  have hsum : e.order.tradedVolume + trade.volume = ∑ i ∈ insert index counted, history.volumeOf i := by
    rw [Finset.sum_insert hnotin, ← htraded, hvolumeOf]
    omega
  obtain ⟨hvolume, htradedNew, hfull⟩ := tradeReportEntry_success hok
  refine ⟨⟨hvolume.trans h.volume, fun hl => ?_, insert index counted, hsub', htradedNew.trans hsum, ?_⟩, htradedNew⟩
  · -- The order is full, so the fills counted make up its whole volume.
    have hfull := hfull hl
    have hle := history.sum_le_cumulative hsub'
    have hcap := history.cumulative_le_volume s.filled
    have hvolume := h.volume
    dsimp only
    omega
  · intro i hi
    rcases Finset.mem_insert.mp hi with rfl | hi
    · exact Or.inr ⟨trade, htrade, by rw [hids]; exact Finset.mem_insert_self _ _⟩
    · refine (hfrom i hi).imp_right fun ⟨t, ht, hkey⟩ => ⟨t, ht, ?_⟩
      rw [hids]
      exact Finset.mem_insert_of_mem hkey

/-! ## The theorem -/

/-- A step that counts once keeps the count right, and the traded volume does not fall. -/
theorem step_counted {a : StreamStep} (h : Counted history s e) (he : s.oms.orders.lookup orderId = some e)
    (hguard : s.countsOnce history orderId a = true) (hstep : s.step history orderId a = some s') :
    ∃ e', s'.oms.orders.lookup orderId = some e' ∧ Counted history s' e' ∧
      e.order.tradedVolume ≤ e'.order.tradedVolume := by
  cases a with
  | fill =>
    simp only [Streams.step] at hstep
    split at hstep <;> cases hstep
    obtain ⟨counted, hsub, htraded, hfrom⟩ := h.counted
    refine ⟨e, he, ⟨h.volume, fun hl => ?_, counted, fun i hi => ?_, htraded, hfrom⟩, le_refl _⟩
    · have hfull := h.filled hl
      have hmono := history.cumulative_mono (Nat.le_add_right s.filled 1)
      have hcap := history.cumulative_le_volume (s.filled + 1)
      dsimp only
      omega
    · have hi := Finset.mem_range.mp (hsub hi)
      exact Finset.mem_range.mpr (by dsimp only; omega)
  | orderReport point report =>
    simp only [Streams.step] at hstep
    split at hstep
    case isFalse => cases hstep
    case isTrue hc =>
      cases hstep
      obtain ⟨hpoint, hdescribes, hkey⟩ := hc
      rcases applyOrderReport_accepted he hkey with ⟨hok, hlookup, _⟩ | ⟨hno, hsame⟩
      · have haccepts : s.accepts orderId (orderReportEntry · report) = true := by
          simp [Streams.accepts, he, hok]
        rw [haccepts, if_pos rfl]
        refine ⟨_, hlookup, h.orderReport hok hpoint hdescribes, ?_⟩
        have hle : e.order.tradedVolume ≤ report.tradedVolume := by
          simpa [Streams.countsOnce, he, hok] using hguard
        have htraded : (orderReportEntry e report).2.order.tradedVolume = report.tradedVolume := by
          rw [orderReportEntry_success hok]; rfl
        omega
      · have haccepts : s.accepts orderId (orderReportEntry · report) = false := by
          simp [Streams.accepts, he, hno]
        rw [haccepts, hsame]
        exact ⟨e, he, h, le_refl _⟩
  | tradeReport index =>
    simp only [Streams.step] at hstep
    split at hstep
    case h_2 => cases hstep
    case h_1 trade htrade =>
      split at hstep
      case isFalse => cases hstep
      case isTrue hc =>
        cases hstep
        obtain ⟨hindex, hkey⟩ := hc
        have hpositive := history.positive trade (List.mem_of_getElem? htrade)
        rcases applyTradeReport_accepted he hkey with ⟨hnew, hok, hlookup, hids⟩ | hsame
        · have hpoint : s.point ≤ index := by
            simpa [Streams.countsOnce, htrade, hnew, Streams.accepts, he, hok] using hguard
          obtain ⟨hcounted, htraded⟩ := h.tradeReport htrade hindex hpoint hnew hok hids
          exact ⟨_, hlookup, hcounted, by omega⟩
        · rw [hsame]
          exact ⟨e, he, h, le_refl _⟩
  | recordSendResult result => cases hstep; exact h.update he (sendResultEntry_same e result)
  | cancelOrder =>
    cases hstep
    exact h.update he (applyTransition_same e e.order.status e.order.submitStatus (by simp))
  | recordCancelResult result => cases hstep; exact h.update he (cancelResultEntry_same e result)

/-- In a run whose reports all count once, the traded volume of the order is at most what the venue
has filled, it is filled only if the venue has filled it, and no step lowers the traded volume. -/
theorem traded_never_ahead (hentry : s.oms.orders.lookup orderId = some e)
    (hvolume : e.order.volume = history.volume) (hnone : e.order.tradedVolume = 0)
    (hopen : e.lifecycleState ≠ .filled)
    (hrun : Runs.Reaches (Streams.step history orderId) (fun s a => s.countsOnce history orderId a = true) s s') :
    ∃ e', s'.oms.orders.lookup orderId = some e' ∧ e'.order.tradedVolume ≤ history.cumulative s'.filled ∧
      (e'.lifecycleState = .filled → history.cumulative s'.filled = history.volume) ∧
      ∀ a s'', s'.countsOnce history orderId a = true → s'.step history orderId a = some s'' →
        ∃ e'', s''.oms.orders.lookup orderId = some e'' ∧ e'.order.tradedVolume ≤ e''.order.tradedVolume := by
  have hstart : Counted history s e :=
    ⟨hvolume, fun hl => absurd hl hopen, ∅, by simp, by simp [hnone], by simp⟩
  have hend : ∃ e', s'.oms.orders.lookup orderId = some e' ∧ Counted history s' e' := by
    refine hrun.invariant (P := fun s => ∃ e, s.oms.orders.lookup orderId = some e ∧ Counted history s e)
      ⟨e, hentry, hstart⟩ fun s a s' ⟨e, he, hc⟩ hguard hstep => ?_
    obtain ⟨e', he', hc', _⟩ := step_counted hc he hguard hstep
    exact ⟨e', he', hc'⟩
  obtain ⟨e', he', hc⟩ := hend
  refine ⟨e', he', hc.le, hc.filled, fun a s'' hguard hstep => ?_⟩
  obtain ⟨e'', he'', _, hle⟩ := step_counted hc he' hguard hstep
  exact ⟨e'', he'', hle⟩

/-- An order of four that the venue fills in two halves. -/
def halves : VenueHistory where
  volume := 4
  fills := [{ tradeId := "1", orderId := "o", volume := 2 }, { tradeId := "2", orderId := "o", volume := 2 }]
  positive := by decide
  identified := by decide
  distinct := by decide
  total := by decide

def orderAtVenue : OrderEntry :=
  { order := { orderId := "o", volume := 4, leftVolume := 4 }, lifecycleState := .working }

def atVenue : Streams where
  oms := ({} : OrderManager).store "o" orderAtVenue

def halfFilled : Order :=
  { orderId := "o", volume := 4, tradedVolume := 2, leftVolume := 2, status := .partiallyFilled }

/-- The first half comes by its order report, the second one by its trade report. -/
theorem traded_never_ahead_halves : ∃ s',
    Runs.Reaches (Streams.step halves "o") (fun s a => s.countsOnce halves "o" a = true) atVenue s' ∧
      ∃ e', s'.oms.orders.lookup "o" = some e' ∧ e'.order.tradedVolume ≤ halves.cumulative s'.filled ∧
        (e'.lifecycleState = .filled → halves.cumulative s'.filled = halves.volume) ∧
        ∀ a s'', s'.countsOnce halves "o" a = true → s'.step halves "o" a = some s'' →
          ∃ e'', s''.oms.orders.lookup "o" = some e'' ∧ e'.order.tradedVolume ≤ e''.order.tradedVolume := by
  have hrun : ∃ s', Runs.execWhile (Streams.step halves "o") (fun s a => s.countsOnce halves "o" a = true)
      atVenue [.fill, .orderReport 1 halfFilled, .fill, .tradeReport 1] = some s' := by
    apply Option.isSome_iff_exists.mp
    decide +kernel
  obtain ⟨s', hs'⟩ := hrun
  have hreach := Runs.reaches_of_execWhile _ hs'
  exact ⟨s', hreach,
    traded_never_ahead (e := orderAtVenue) (by decide +kernel) rfl rfl (by decide) hreach⟩

/-- The order report and the trade report of one fill, and the fill counts twice. -/
theorem traded_twice : ¬ ∀ (history : VenueHistory) (orderId : String) (s s' : Streams) (e : OrderEntry),
    s.oms.orders.lookup orderId = some e → e.order.volume = history.volume → e.order.tradedVolume = 0 →
    e.lifecycleState ≠ .filled → Runs.Reaches (Streams.step history orderId) Runs.anyStep s s' →
    ∀ e', s'.oms.orders.lookup orderId = some e' → e'.order.tradedVolume ≤ history.cumulative s'.filled := by
  intro hall
  have hrun : ∃ s' ∈ Runs.exec (Streams.step halves "o") atVenue
      [.fill, .orderReport 1 halfFilled, .tradeReport 0],
      ∃ e' ∈ s'.oms.orders.lookup "o", halves.cumulative s'.filled < e'.order.tradedVolume := by decide +kernel
  obtain ⟨s', hs', e', he', hlt⟩ := hrun
  have hle := hall halves "o" atVenue s' orderAtVenue (by decide +kernel) rfl rfl (by decide)
    (Runs.reaches_of_exec _ hs') e' he'
  omega

end Qtrade.Oms
