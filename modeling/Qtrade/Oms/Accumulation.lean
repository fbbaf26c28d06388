import Qtrade.Oms.Apart

/-!
# Fills add up

Trade reports for one order, in any order and each as often as it comes. What they make of the order is
what the set of their fills says.
-/

namespace Qtrade.Oms

open OrderManager

/-- The states of an order that a fill may come for. -/
def takesFills (l : OrderLifecycleState) : Bool :=
  l == .sendPending || l == .sendUnknown || l == .working || l == .partiallyFilled || l == .cancelPending

/-- The entry after fills of this volume and amount. -/
def afterFills (e : OrderEntry) (volume : Int) (amount : Double) : OrderEntry :=
  let tradedVolume := e.order.tradedVolume + volume
  let leftVolume := max 0 (e.order.volume - tradedVolume)
  { order := { e.order with
      tradedVolume := tradedVolume
      leftVolume := leftVolume
      tradeAmount := e.order.tradeAmount + amount
      status := if leftVolume = 0 then .filled else .partiallyFilled }
    lifecycleState := if leftVolume = 0 then .filled else .partiallyFilled }

theorem afterFills_afterFills (e : OrderEntry) (volume volume' : Int) (amount amount' : Double) :
    afterFills (afterFills e volume amount) volume' amount' = afterFills e (volume + volume') (amount + amount') := by
  simp only [afterFills, add_assoc]

theorem tradeReportEntry_accepted {e : OrderEntry} {report : Trade}
    (hedge : canTransition e.lifecycleState (afterFills e report.volume report.tradeAmount).lifecycleState = true) :
    tradeReportEntry e report = (.success, afterFills e report.volume report.tradeAmount) := by
  unfold tradeReportEntry applyTransition
  exact if_pos hedge

/-- The entry after a set of fills. -/
def filledWith (e : OrderEntry) (fills : Finset Trade) : OrderEntry :=
  if fills = ∅ then e else afterFills e (∑ r ∈ fills, r.volume) (∑ r ∈ fills, r.tradeAmount)

variable {e : OrderEntry} {fills reports : Finset Trade} {report : Trade}

theorem afterFills_filledWith (hnew : report ∉ fills) :
    afterFills (filledWith e fills) report.volume report.tradeAmount = filledWith e (insert report fills) := by
  have hinsert : insert report fills ≠ ∅ := Finset.insert_ne_empty report fills
  unfold filledWith
  rw [if_neg hinsert, Finset.sum_insert hnew, Finset.sum_insert hnew]
  split
  case isTrue hempty => simp [hempty]
  case isFalse => rw [afterFills_afterFills, add_comm report.volume, add_comm report.tradeAmount]

theorem lifecycleState_afterFills (e : OrderEntry) (volume : Int) (amount : Double) :
    (afterFills e volume amount).lifecycleState =
      if e.order.volume ≤ e.order.tradedVolume + volume then .filled else .partiallyFilled := by
  have hleft : max 0 (e.order.volume - (e.order.tradedVolume + volume)) = 0 ↔
      e.order.volume ≤ e.order.tradedVolume + volume := by omega
  simp only [afterFills, hleft]

theorem canTransition_afterFills (hopen : takesFills e.lifecycleState = true) {volume : Int} (hvolume : 0 < volume)
    (amount : Double) :
    canTransition (filledWith e fills).lifecycleState (afterFills (filledWith e fills) volume amount).lifecycleState =
      true := by
  unfold filledWith
  split
  · rw [lifecycleState_afterFills]
    simp only [takesFills, Bool.or_eq_true, beq_iff_eq] at hopen
    rcases hopen with (((hl | hl) | hl) | hl) | hl <;> rw [hl] <;> split <;> rfl
  · rw [afterFills_afterFills, lifecycleState_afterFills, lifecycleState_afterFills]
    split
    case isTrue hfull =>
      rw [if_pos (by omega)]
      rfl
    case isFalse => split <;> rfl

theorem tradeReportEntry_filledWith (hopen : takesFills e.lifecycleState = true)
    (hvolume : 0 < report.volume) (hnew : report ∉ fills) :
    tradeReportEntry (filledWith e fills) report = (.success, filledWith e (insert report fills)) := by
  rw [tradeReportEntry_accepted (canTransition_afterFills hopen hvolume report.tradeAmount),
    afterFills_filledWith hnew]

namespace OrderManager

variable {s s' : OrderManager} {id : String}

/-- The reports whose fills are not applied yet. -/
def unapplied (s : OrderManager) (reports : Finset Trade) : Finset Trade :=
  reports.filter (generateTradeDedupKey · ∉ s.appliedTradeIds)

/-- A set of reports that may come for the order in any order. -/
structure Deliverable (s : OrderManager) (id : String) (reports : Finset Trade) : Prop where
  resolves : ∀ r ∈ reports, s.reportKey r.orderId r.clientOrderId = some id
  positive : ∀ r ∈ reports, 0 < r.volume
  keys : ∀ r ∈ reports, ∀ r' ∈ reports, generateTradeDedupKey r = generateTradeDedupKey r' → r = r'

/-- Of the order `e` of `s`, these fills have come. -/
structure FilledWith (s : OrderManager) (id : String) (e : OrderEntry) (fills : Finset Trade) (s' : OrderManager) :
    Prop where
  entry : s'.orders.lookup id = some (filledWith e fills)
  applied : s'.appliedTradeIds = s.appliedTradeIds ∪ fills.image generateTradeDedupKey
  resolves : ∀ orderId clientOrderId, s'.reportKey orderId clientOrderId = s.reportKey orderId clientOrderId

theorem filledWith_start (he : s.orders.lookup id = some e) : FilledWith s id e ∅ s :=
  ⟨he, by simp, fun _ _ => rfl⟩

theorem FilledWith.deliver (h : FilledWith s id e fills s') (hopen : takesFills e.lifecycleState = true)
    (hreports : s.Deliverable id reports) (hfills : fills ⊆ s.unapplied reports) (hreport : report ∈ reports) :
    FilledWith s id e (fills ∪ s.unapplied {report}) (s'.applyTradeReport report) := by
  have hknown : generateTradeDedupKey report ∈ s'.appliedTradeIds ↔
      report ∉ s.unapplied {report} ∨ report ∈ fills := by
    rw [h.applied, Finset.mem_union, Finset.mem_image]
    simp only [unapplied, Finset.mem_filter, Finset.mem_singleton, true_and, not_not]
    apply or_congr_right
    constructor
    · rintro ⟨r, hr, hkey⟩
      have hr' := Finset.mem_of_mem_filter r (hfills hr)
      rw [← hreports.keys r hr' report hreport hkey]
      exact hr
    · exact fun hmem => ⟨report, hmem, rfl⟩
  have hsub : s.unapplied {report} ⊆ {report} := Finset.filter_subset _ _
  by_cases hdup : generateTradeDedupKey report ∈ s'.appliedTradeIds
  · have hsame : s'.applyTradeReport report = s' := by rw [applyTradeReport, if_pos hdup]
    have hset : fills ∪ s.unapplied {report} = fills := by
      rw [Finset.union_eq_left]
      intro r hr
      obtain rfl := Finset.mem_singleton.mp (hsub hr)
      exact (hknown.mp hdup).resolve_left fun hnot => hnot hr
    rw [hsame, hset]
    exact h
  · obtain ⟨hun, hnew⟩ := not_or.mp fun hor => hdup (hknown.mpr hor)
    have hset : fills ∪ s.unapplied {report} = insert report fills := by
      have hone : s.unapplied {report} = {report} :=
        Finset.Subset.antisymm hsub (Finset.singleton_subset_iff.mpr (not_not.mp hun))
      rw [hone, Finset.union_comm, Finset.insert_eq]
    have hentry := tradeReportEntry_filledWith hopen (hreports.positive report hreport) hnew
    have hres : s'.resolves (.applyTradeReport report) = some id :=
      (h.resolves _ _).trans (hreports.resolves report hreport)
    have hperform := perform_resolved hres h.entry
    have hfresh : s'.duplicate (.applyTradeReport report) = false := by
      simpa [duplicate, Operation.tradeKey] using hdup
    simp only [perform, Operation.effect, hfresh, hentry, Bool.not_false, beq_self_eq_true, Bool.and_self,
      if_true] at hperform
    rw [hset]
    refine ⟨?_, ?_, fun orderId clientOrderId => ?_⟩
    · rw [hperform, lookup_edit, if_pos rfl]
    · have hkeys : (s'.edit id (filledWith e (insert report fills), {generateTradeDedupKey report})).appliedTradeIds =
          s'.appliedTradeIds ∪ {generateTradeDedupKey report} := rfl
      rw [hperform, hkeys, h.applied, Finset.image_insert, Finset.union_assoc, Finset.insert_eq,
        Finset.union_comm {_}]
    · rw [reportKey_evolves (applyTradeReport_evolves s' report), h.resolves]

theorem FilledWith.deliverAll (h : FilledWith s id e fills s') (hopen : takesFills e.lifecycleState = true)
    (hreports : s.Deliverable id reports) (hfills : fills ⊆ s.unapplied reports) {deliveries : List Trade}
    (hdeliveries : ∀ r ∈ deliveries, r ∈ reports) :
    FilledWith s id e (fills ∪ s.unapplied deliveries.toFinset) (deliveries.foldl applyTradeReport s') := by
  induction deliveries generalizing fills s' with
  | nil => simpa [unapplied] using h
  | cons report rest ih =>
    have hreport := hdeliveries report List.mem_cons_self
    have hone : fills ∪ s.unapplied {report} ⊆ s.unapplied reports :=
      Finset.union_subset hfills (Finset.filter_subset_filter _ (Finset.singleton_subset_iff.mpr hreport))
    have hnext := ih (h.deliver hopen hreports hfills hreport) hone fun r hr =>
      hdeliveries r (List.mem_cons_of_mem report hr)
    have hset : s.unapplied (report :: rest).toFinset = s.unapplied {report} ∪ s.unapplied rest.toFinset := by
      rw [List.toFinset_cons, Finset.insert_eq, unapplied, Finset.filter_union, unapplied, unapplied]
    rw [hset, ← Finset.union_assoc]
    exact hnext

/-- However the reports of a set come in, in any order and each any number of times, the order ends up with
one and the same entry: the volumes and amounts of the fills that were not applied before are added, and
the order is filled if nothing is left and else partially filled. -/
theorem fills_accumulate (he : s.orders.lookup id = some e) (hopen : takesFills e.lifecycleState = true)
    (hresolves : ∀ r ∈ reports, s.reportKey r.orderId r.clientOrderId = some id)
    (hpositive : ∀ r ∈ reports, 0 < r.volume)
    (hkeys : ∀ r ∈ reports, ∀ r' ∈ reports, generateTradeDedupKey r = generateTradeDedupKey r' → r = r') :
    ∃ e', (∀ deliveries : List Trade, (∀ r, r ∈ deliveries ↔ r ∈ reports) →
        (deliveries.foldl applyTradeReport s).orders.lookup id = some e') ∧
      e'.order.tradedVolume = e.order.tradedVolume + ∑ r ∈ s.unapplied reports, r.volume ∧
      e'.order.tradeAmount = e.order.tradeAmount + ∑ r ∈ s.unapplied reports, r.tradeAmount ∧
      ((s.unapplied reports).Nonempty →
        e'.order.leftVolume = max 0 (e.order.volume - e'.order.tradedVolume) ∧
        e'.lifecycleState = (if e'.order.leftVolume = 0 then .filled else .partiallyFilled) ∧
        e'.order.status = if e'.order.leftVolume = 0 then .filled else .partiallyFilled) ∧
      (s.unapplied reports = ∅ → e' = e) := by
  have hreports : s.Deliverable id reports := ⟨hresolves, hpositive, hkeys⟩
  refine ⟨filledWith e (s.unapplied reports), fun deliveries hsame => ?_, ?_⟩
  · have hset : deliveries.toFinset = reports := by
      ext r
      rw [List.mem_toFinset, hsame]
    have hall := (filledWith_start he).deliverAll hopen hreports (Finset.empty_subset _) fun r hr => (hsame r).mp hr
    rw [hset, Finset.empty_union] at hall
    exact hall.entry
  · unfold filledWith
    split
    case isTrue hempty => simp [hempty]
    case isFalse hsome => exact ⟨rfl, rfl, fun _ => ⟨rfl, rfl, rfl⟩, fun hempty => absurd hempty hsome⟩

/-- An order of four at the venue, one of whose fills is applied. -/
def oneApplied : OrderManager :=
  ({} : OrderManager).store "o"
      { order := { orderId := "o", volume := 4, leftVolume := 4 }, lifecycleState := .working }
    |>.applyTradeReport { tradeId := "1", orderId := "o", volume := 1 }

def threeFills : Finset Trade :=
  {{ tradeId := "1", orderId := "o", volume := 1 }, { tradeId := "2", orderId := "o", volume := 2 },
    { tradeId := "3", orderId := "o", volume := 1 }}

/-- The other two come, one of them twice. -/
theorem fills_accumulate_twice : ∃ e, ∀ deliveries : List Trade, (∀ r, r ∈ deliveries ↔ r ∈ threeFills) →
    (deliveries.foldl applyTradeReport oneApplied).orders.lookup "o" = some e ∧ e.order.tradedVolume = 4 ∧
      e.lifecycleState = .filled := by
  have hentry : ∃ e ∈ oneApplied.orders.lookup "o", takesFills e.lifecycleState = true ∧
      e.order.volume = 4 ∧ e.order.tradedVolume = 1 ∧
      ∑ r ∈ oneApplied.unapplied threeFills, r.volume = 3 := by decide +kernel
  obtain ⟨e, he, hopen, hvolume, htraded, hsum⟩ := hentry
  have hresolves : ∀ r ∈ threeFills, oneApplied.reportKey r.orderId r.clientOrderId = some "o" := by decide +kernel
  obtain ⟨e', hdelivered, htraded', _, hnew, _⟩ :=
    fills_accumulate he hopen hresolves (by decide +kernel) (by decide +kernel)
  obtain ⟨hleft, hl, _⟩ := hnew (by decide +kernel)
  have hfour : e'.order.tradedVolume = 4 := by omega
  refine ⟨e', fun deliveries hsame => ⟨hdelivered deliveries hsame, hfour, ?_⟩⟩
  rw [hl, if_pos (by omega)]

end OrderManager

end Qtrade.Oms
