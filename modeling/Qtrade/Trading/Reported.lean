import Qtrade.Oms.Final
import Qtrade.Trading.Effects

/-!
# A report that ends an order

The handlers of Lane-T release by what the report says and by a second lookup. While a handler runs the
other threads run beside it, and they neither reopen the order nor release for the lane's reasons.
-/

namespace Qtrade.Trading

open Qtrade.Oms
open Qtrade.Oms.OrderManager

/-- The reason that goes with a terminal state. -/
def releaseReason : OrderLifecycleState → ReleaseReason
  | .canceled => .canceled
  | .rejected => .rejectedByVenue
  | _ => .settled

/-- The two ids by which a report names its order. -/
def EngineEvent.ids : EngineEvent → String × UInt32
  | .orderReport report => (report.orderId, report.clientOrderId)
  | .tradeReport report => (report.orderId, report.clientOrderId)
  | _ => ("", 0)

/-- The report has no order id, or one that the order manager holds. -/
def namesOrder (s : Shared) (event : EngineEvent) : Bool :=
  event.ids.1 == "" || event.ids.1 ∈ s.oms.orders

/-- It is no order report that says filled, and it names its order by the id that the order has. -/
def releasesEnded (s : Shared) (event : EngineEvent) : Bool :=
  namesOrder s event &&
    match event with
    | .orderReport report => report.status != .filled
    | _ => true

variable {c c' : System} {s s' s₁ : Shared} {orderId : String} {l : OrderLifecycleState} {event : EngineEvent}

/-! ## The report is applied -/

theorem followUp_id (h : s.oms.Anchored) (reportId : String) (clientOrderId : UInt32) :
    (s.followUp reportId clientOrderId).map (·.orderId) =
      if reportId = "" then s.oms.clientOrderIndex.lookup clientOrderId
      else if reportId ∈ s.oms.orders then some reportId else none := by
  unfold Shared.followUp
  split
  · exact h.getOrderByClientId_id clientOrderId
  · exact h.getOrder_id reportId

theorem followUp_named (ha : s₁.oms.Anchored) (hs : s.oms.Anchored) (hext : Extends s₁.oms s.oms)
    (hkey : s₁.oms.reportKey event.ids.1 event.ids.2 = some orderId) :
    (namesOrder s₁ event = true → ∃ known, s.followUp event.ids.1 event.ids.2 = some known ∧
      known.orderId = orderId) ∧
    ∀ known, s.followUp event.ids.1 event.ids.2 = some known →
      (known.orderId = orderId ↔ namesOrder s₁ event = true) := by
  have hid := followUp_id hs event.ids.1 event.ids.2
  have hmem := ha.mem_of_reportKey hkey
  rw [ha.reportKey_eq] at hkey
  by_cases hempty : event.ids.1 = ""
  · rw [if_pos hempty] at hid
    rw [if_neg (hempty ▸ ha.empty_not_mem)] at hkey
    rw [hext.index _ _ hkey] at hid
    obtain ⟨known, hknown, hsame⟩ := Option.map_eq_some_iff.mp hid
    refine ⟨fun _ => ⟨known, hknown, hsame⟩, fun known' hknown' => ?_⟩
    obtain rfl := Option.some.inj (hknown.symm.trans hknown')
    simp [hsame, namesOrder, hempty]
  · rw [if_neg hempty] at hid
    by_cases hheld : event.ids.1 ∈ s₁.oms.orders
    · rw [if_pos hheld] at hkey
      obtain rfl := Option.some.inj hkey
      rw [if_pos (hext.keys _ hheld)] at hid
      obtain ⟨known, hknown, hsame⟩ := Option.map_eq_some_iff.mp hid
      refine ⟨fun _ => ⟨known, hknown, hsame⟩, fun known' hknown' => ?_⟩
      obtain rfl := Option.some.inj (hknown.symm.trans hknown')
      simp [hsame, namesOrder, hheld]
    · refine ⟨fun hnames => ?_, fun known hknown => ?_⟩
      · simp [namesOrder, hempty, hheld] at hnames
      · rw [hknown] at hid
        split at hid
        case isTrue =>
          have hother : known.orderId ≠ orderId := by
            intro hsame
            have hreport : known.orderId = event.ids.1 := Option.some.inj hid
            rw [← hsame, hreport] at hmem
            exact hheld hmem
          simp [hother, namesOrder, hempty, hheld]
        case isFalse => cases hid

theorem ended_orderReport {oms : OrderManager} {report : Order} {e e' : OrderEntry}
    (he : oms.orders.lookup orderId = some e) (hopen : isTerminalLifecycle e.lifecycleState = false)
    (he' : (oms.applyOrderReport report).orders.lookup orderId = some e')
    (hended : isTerminalLifecycle e'.lifecycleState = true) :
    oms.reportKey report.orderId report.clientOrderId = some orderId ∧
      report.status = finalStatus e'.lifecycleState := by
  rw [lookup_applyOrderReport, he] at he'
  split at he'
  case isTrue hkey =>
    cases he'
    exact ⟨hkey, (orderReport_ends hopen hended).2.2.1⟩
  case isFalse =>
    cases he'
    rw [hopen] at hended
    cases hended

theorem ended_tradeReport {oms : OrderManager} {report : Trade} {e e' : OrderEntry}
    (he : oms.orders.lookup orderId = some e) (hopen : isTerminalLifecycle e.lifecycleState = false)
    (he' : (oms.applyTradeReport report).orders.lookup orderId = some e')
    (hended : isTerminalLifecycle e'.lifecycleState = true) :
    oms.reportKey report.orderId report.clientOrderId = some orderId ∧ e'.lifecycleState = .filled ∧
      e'.order.status = .filled := by
  rw [lookup_applyTradeReport, he] at he'
  split at he'
  case isTrue hkey =>
    cases he'
    exact ⟨hkey.2, (tradeReport_ends hopen hended).2.2⟩
  case isFalse =>
    cases he'
    rw [hopen] at hended
    cases hended

/-! ## While the handler runs -/

/-- How far the handler is, and which order it has in its hands. -/
def HandlerStage (s₁ : Shared) (event : EngineEvent) (orderId : String) (l : OrderLifecycleState)
    (s : Shared) : Prop :=
  match s.lane with
  | .idle => False
  | .orderApplied report => event = .orderReport report ∧ report.status = finalStatus l
  | .accountOrder report known => event = .orderReport report ∧ report.status = finalStatus l ∧
      (known.orderId = orderId ↔ namesOrder s₁ event = true)
  | .tradeApplied report | .accountTraded report | .positionTraded report => event = .tradeReport report ∧
      ∃ e, s.oms.orders.lookup orderId = some e ∧ isTerminalLifecycle e.lifecycleState = true ∧
        e.order.status = .filled
  | .releasing key reason => reason = releaseReason l ∧
      (key = orderId ↔ releasesEnded s₁ event = true)

/-- What has come into the log since the handler began. -/
structure Handling (s₁ : Shared) (event : EngineEvent) (orderId : String) (l : OrderLifecycleState)
    (s : Shared) : Prop where
  extends_ : Extends s₁.oms s.oms
  anchored : s.oms.Anchored
  bridge : s.bridge = true
  stage : HandlerStage s₁ event orderId l s
  log : ∃ new, s.log = new ++ s₁.log ∧ ∀ entry ∈ new, entry.besideLane

/-- The handler has returned, and it has released the order's reservation or not. -/
def Handled (s₁ : Shared) (event : EngineEvent) (orderId : String) (l : OrderLifecycleState) (s : Shared) : Prop :=
  ∃ new, s.log = new ++ s₁.log ∧
    ((∃ lifecycle, .released orderId (releaseReason l) lifecycle ∈ new) ↔ releasesEnded s₁ event = true)

theorem releaseReason_ne (l : OrderLifecycleState) : releaseReason l ≠ .emsEnqueueFailed := by
  cases l <;> simp [releaseReason]

theorem not_released {new : List Event} (h : ∀ entry ∈ new, entry.besideLane) (orderId : String) :
    ¬∃ lifecycle, .released orderId (releaseReason l) lifecycle ∈ new := by
  rintro ⟨lifecycle, hmem⟩
  exact releaseReason_ne l (h _ hmem)

theorem Handling.handled (h : Handling s₁ event orderId l s) (hlog : s'.log = s.log)
    (hno : releasesEnded s₁ event = false) : Handled s₁ event orderId l s' := by
  obtain ⟨new, hnew, hbeside⟩ := h.log
  refine ⟨new, hlog.trans hnew, ?_⟩
  rw [hno]
  simpa using not_released hbeside orderId

theorem Handling.moves (h : Handling s₁ event orderId l s) (homs : s'.oms = s.oms) (hbridge : s'.bridge = s.bridge)
    (hlog : s'.log = s.log) (hstage : HandlerStage s₁ event orderId l s') : Handling s₁ event orderId l s' := by
  refine ⟨homs ▸ h.extends_, homs ▸ h.anchored, hbridge.trans h.bridge, hstage, ?_⟩
  rw [hlog]
  exact h.log

theorem releaseReason_of_status {status : OrderStatusType} {reason : ReleaseReason}
    (hstatus : status = finalStatus l)
    (h : status = .canceled ∧ reason = .canceled ∨ status = .rejected ∧ reason = .rejectedByVenue) :
    reason = releaseReason l ∧ status ≠ .filled := by
  rcases h with ⟨rfl, rfl⟩ | ⟨rfl, rfl⟩ <;> cases l <;> simp_all [finalStatus, releaseReason]

theorem not_filled_of_idle {report : Trade} {known : Order} (hlane : s.lane = .positionTraded report)
    (h : s.laneStep = some s') (hidle : s'.lane = .idle)
    (hknown : s.followUp report.orderId report.clientOrderId = some known) : known.status ≠ .filled := by
  intro hstatus
  simp only [Shared.laneStep, hlane, hknown, hstatus, if_true, Option.some.injEq] at h
  rw [← h] at hidle
  cases hidle

theorem followUp_filled (h : s.oms.Anchored) {reportId : String} {clientOrderId : UInt32} {known : Order}
    {e : OrderEntry} (hknown : s.followUp reportId clientOrderId = some known) (hid : known.orderId = orderId)
    (he : s.oms.orders.lookup orderId = some e) : known = e.order := by
  have hget : ∀ key, s.oms.getOrder key = some known → known = e.order := by
    intro key hkey
    obtain ⟨e₁, he₁, rfl⟩ := Option.map_eq_some_iff.mp hkey
    rw [(h.key key e₁ he₁).2] at hid
    rw [hid, he] at he₁
    cases he₁
    rfl
  unfold Shared.followUp at hknown
  split at hknown
  · unfold getOrderByClientId at hknown
    split at hknown
    · exact hget _ hknown
    · cases hknown
  · exact hget _ hknown

/-- A step of the lane: the handler goes on, or it returns. -/
theorem laneStep_handling (hl : isTerminalLifecycle l = true) (ha : s₁.oms.Anchored)
    (hkey : s₁.oms.reportKey event.ids.1 event.ids.2 = some orderId) (hfilled : ∀ report,
      event = .tradeReport report → l = .filled)
    (h : Handling s₁ event orderId l s) (hlaneStep : s.laneStep = some s') :
    (s'.lane = .idle ∧ Handled s₁ event orderId l s') ∨ Handling s₁ event orderId l s' := by
  obtain ⟨hfound, hnamed⟩ := followUp_named ha h.anchored h.extends_ hkey
  have hstage := h.stage
  unfold HandlerStage at hstage
  cases laneStep_step hlaneStep with
  | unknownOrder report hlane hnone =>
    rw [hlane] at hstage
    obtain ⟨rfl, _⟩ := hstage
    refine Or.inl ⟨rfl, h.handled rfl ?_⟩
    have hno : namesOrder s₁ (.orderReport report) = false := by
      by_contra hyes
      obtain ⟨known, hknown, _⟩ := hfound (by simpa using hyes)
      rw [EngineEvent.ids] at hknown
      rw [hknown] at hnone
      cases hnone
    simp [releasesEnded, hno]
  | knownOrder report known hlane hknown =>
    rw [hlane] at hstage
    obtain ⟨rfl, hstatus⟩ := hstage
    refine Or.inr (h.moves (by rfl) (by rfl) (by rfl) ?_)
    exact ⟨rfl, hstatus, hnamed known hknown⟩
  | orderGoesOn report known hlane hcanceled hrejected =>
    rw [hlane] at hstage
    obtain ⟨rfl, hstatus, _⟩ := hstage
    refine Or.inl ⟨rfl, h.handled rfl ?_⟩
    have hfull : report.status = .filled := by
      cases l <;> simp_all [finalStatus, isTerminalLifecycle]
    simp [releasesEnded, hfull]
  | orderEnded report known reason hlane hreason =>
    rw [hlane] at hstage
    obtain ⟨rfl, hstatus, hiff⟩ := hstage
    obtain ⟨hmatches, hne⟩ := releaseReason_of_status hstatus hreason
    refine Or.inr (h.moves (by rfl) (by rfl) (by rfl) ?_)
    exact ⟨hmatches, by simp [releasesEnded, hne, hiff]⟩
  | tradeAccounted report hlane =>
    rw [hlane] at hstage
    refine Or.inr (h.moves (by rfl) (by rfl) (by rfl) ?_)
    exact hstage
  | positionTraded report hlane =>
    rw [hlane] at hstage
    refine Or.inr (h.moves (by rfl) (by rfl) (by rfl) ?_)
    exact hstage
  | notFilled report hlane =>
    rw [hlane] at hstage
    obtain ⟨rfl, e, he, _, hfull⟩ := hstage
    refine Or.inl ⟨rfl, h.handled rfl ?_⟩
    have hno : namesOrder s₁ (.tradeReport report) = false := by
      by_contra hyes
      obtain ⟨known, hknown, hsame⟩ := hfound (by simpa using hyes)
      apply not_filled_of_idle hlane hlaneStep rfl hknown
      rw [followUp_filled h.anchored hknown hsame he]
      exact hfull
    simp [releasesEnded, hno]
  | filled report known hlane hknown hstatus =>
    rw [hlane] at hstage
    obtain ⟨rfl, _⟩ := hstage
    refine Or.inr (h.moves (by rfl) (by rfl) (by rfl) ⟨?_, ?_⟩)
    · rw [hfilled report rfl]
      rfl
    · simpa [releasesEnded] using hnamed known hknown
  | released key reason hlane =>
    rw [hlane] at hstage
    obtain ⟨rfl, hiff⟩ := hstage
    left
    refine ⟨by rw [lane_release], ?_⟩
    obtain ⟨new, hnew, hbeside⟩ := h.log
    unfold Handled Shared.release
    by_cases hempty : key = ""
    · have hother : ¬key = orderId := by
        rintro rfl
        exact ha.empty_not_mem (hempty ▸ ha.mem_of_reportKey hkey)
      refine ⟨new, by simp [hempty, hnew], ?_⟩
      rw [← hiff]
      simp [hother, not_released hbeside orderId]
    · refine ⟨.released key (releaseReason l) (s.oms.getLifecycleState key) :: new, ?_, ?_⟩
      · simp [h.bridge, hempty, Shared.emit, hnew]
      · rw [← hiff]
        constructor
        · rintro ⟨lifecycle, hmem⟩
          rcases List.mem_cons.mp hmem with heq | hold
          · cases heq
            rfl
          · exact absurd ⟨lifecycle, hold⟩ (not_released hbeside orderId)
        · rintro rfl
          exact ⟨_, List.mem_cons_self⟩

theorem step_handling {a : Action} (hfresh : fresh c a = true) (ha : onLane a = false)
    (h : Handling s₁ event orderId l c.shared) (hs : step c a = some c') :
    Handling s₁ event orderId l c'.shared := by
  have hbeside := step_beside ha hs
  have heffect := step_effect (by unfold onLane at ha; unfold takesReport; split at ha <;> simp_all) hs
  have hext := step_extends hs
  refine ⟨⟨?_, ?_, ?_⟩, hext.anchored h.anchored, hbeside.bridge.trans h.bridge, ?_, ?_⟩
  · exact fun id hmem => hext.keys id (h.extends_.keys id hmem)
  · exact fun c id hkey => hext.index c id (h.extends_.index c id hkey)
  · exact fun ha => hext.anchored (h.extends_.anchored ha)
  · have hstage := h.stage
    unfold HandlerStage at hstage ⊢
    rw [hbeside.lane]
    split at hstage
    case h_1 => exact hstage
    case h_2 => exact hstage
    case h_3 => exact hstage
    case h_7 => exact hstage
    all_goals
      obtain ⟨hreport, e, he, ht, hstatus⟩ := hstage
      obtain ⟨e', he', hl, horder⟩ := heffect.finished hfresh he ht
      refine ⟨hreport, e', he', by rw [hl]; exact ht, ?_⟩
      rw [horder]
      exact hstatus
  · obtain ⟨new, hnew, hall⟩ := h.log
    rcases hbeside.log with hsame | ⟨entry, hentry, hbesideLane⟩
    · exact ⟨new, hsame.trans hnew, hall⟩
    · refine ⟨entry :: new, by rw [hentry, hnew]; rfl, ?_⟩
      intro other hmem
      rcases List.mem_cons.mp hmem with rfl | hold
      · exact hbesideLane
      · exact hall other hold

/-! ## The whole handler -/

theorem report_handling {e e' : OrderEntry} (ha : c.shared.oms.Anchored) (hbridge : c.shared.bridge = true)
    (htakes : takesReport (.environment event) = true) (hs : step c (.environment event) = some c')
    (he : c.shared.oms.orders.lookup orderId = some e) (hopen : isTerminalLifecycle e.lifecycleState = false)
    (he' : c'.shared.oms.orders.lookup orderId = some e') (hended : isTerminalLifecycle e'.lifecycleState = true) :
    c.shared.oms.reportKey event.ids.1 event.ids.2 = some orderId ∧
      (∀ report, event = .tradeReport report → e'.lifecycleState = .filled) ∧
      Handling c.shared event orderId e'.lifecycleState c'.shared := by
  have hext := step_extends hs
  have hbridge' : c'.shared.bridge = true := (step_log hs).2.trans hbridge
  have hnext := (Calls.Program.step_environment hs).1
  induction event with
  | orderReport report =>
    obtain ⟨_, _, hs'⟩ := orderReport_eq hnext
    rw [hs'] at he'
    obtain ⟨hkey, hstatus⟩ := ended_orderReport he hopen he' hended
    refine ⟨hkey, by simp, hext, hext.anchored ha, hbridge', ?_, [], ?_, by simp⟩
    · rw [hs']
      exact ⟨rfl, hstatus⟩
    · rw [hs']
      rfl
  | tradeReport report =>
    obtain ⟨_, _, hs'⟩ := tradeReport_eq hnext
    rw [hs'] at he'
    obtain ⟨hkey, hl, hstatus⟩ := ended_tradeReport he hopen he' hended
    refine ⟨hkey, fun _ _ => hl, hext, hext.anchored ha, hbridge', ?_, [], ?_, by simp⟩
    · rw [hs']
      exact ⟨rfl, e', he', hended, hstatus⟩
    · rw [hs']
      rfl
  | _ => cases htakes

/-- The steps while a handler runs: those of the lane, and those that other threads take beside it. -/
def duringHandler (c : System) (a : Action) : Bool := c.shared.lane != .idle && fresh c a

theorem Handling.lane_ne (h : Handling s₁ event orderId l s) : s.lane ≠ .idle := by
  intro hidle
  have hstage := h.stage
  unfold HandlerStage at hstage
  rw [hidle] at hstage
  exact hstage

theorem run_handling (hl : isTerminalLifecycle l = true) (ha : s₁.oms.Anchored)
    (hkey : s₁.oms.reportKey event.ids.1 event.ids.2 = some orderId)
    (hfilled : ∀ report, event = .tradeReport report → l = .filled) (h : Handling s₁ event orderId l c.shared)
    (hrun : Runs.Reaches step (fun c a => duringHandler c a = true) c c') :
    (c'.shared.lane = .idle ∧ Handled s₁ event orderId l c'.shared) ∨
      Handling s₁ event orderId l c'.shared := by
  apply hrun.invariant (P := fun c => (c.shared.lane = .idle ∧ Handled s₁ event orderId l c.shared) ∨
    Handling s₁ event orderId l c.shared)
  · exact Or.inr h
  · intro c a c' hplace hok hs
    simp only [duringHandler, Bool.and_eq_true, bne_iff_ne, ne_eq] at hok
    obtain ⟨hbusy, hfresh⟩ := hok
    have h := hplace.resolve_left fun hdone => hbusy hdone.1
    by_cases hon : onLane a = true
    · unfold onLane at hon
      split at hon
      case h_1 report => exact absurd (orderReport_eq (Calls.Program.step_environment hs).1).1 hbusy
      case h_2 report => exact absurd (tradeReport_eq (Calls.Program.step_environment hs).1).1 hbusy
      case h_3 => exact laneStep_handling hl ha hkey hfilled h (Calls.Program.step_environment hs).1
      case h_4 => cases hon
    · exact Or.inr (step_handling hfresh (by simpa using hon) h hs)

/-- In every run of an engine with a bridge, a handler whose report ends an order releases the reservation
of that order before it returns, with the reason that goes with the end, if and only if the report is no
order report that says filled and has the order's own id or none. While it runs, `CreateOrder` stores no
order over another. -/
theorem ended_released_iff {c₀ c₁ c₂ : System} {e e' : OrderEntry}
    (homs : Runs.Reaches OrderManager.run Runs.anyStep {} c₀.shared.oms) (hbridge : c₀.shared.bridge = true)
    (hbefore : Runs.Reaches step Runs.anyStep c₀ c₁) (htakes : takesReport (.environment event) = true)
    (hreport : step c₁ (.environment event) = some c₂)
    (he : c₁.shared.oms.orders.lookup orderId = some e) (hopen : isTerminalLifecycle e.lifecycleState = false)
    (he' : c₂.shared.oms.orders.lookup orderId = some e') (hended : isTerminalLifecycle e'.lifecycleState = true)
    (hhandler : Runs.Reaches step (fun c a => duringHandler c a = true) c₂ c) (hreturns : c.shared.lane = .idle) :
    ∃ new, c.shared.log = new ++ c₁.shared.log ∧
      ((∃ lifecycle, .released orderId (releaseReason e'.lifecycleState) lifecycle ∈ new) ↔
        releasesEnded c₁.shared event = true) := by
  have hstart : c₁.shared.oms.Anchored ∧ c₁.shared.bridge = true := by
    apply hbefore.invariant
    · exact ⟨anchored_of_reaches homs, hbridge⟩
    · rintro c a c' ⟨ha, hb⟩ _ hs
      exact ⟨(step_extends hs).anchored ha, (step_log hs).2.trans hb⟩
  obtain ⟨ha, hb⟩ := hstart
  obtain ⟨hkey, hfilled, hhandling⟩ := report_handling ha hb htakes hreport he hopen he' hended
  rcases run_handling hended ha hkey hfilled hhandling hhandler with ⟨_, hhandled⟩ | hstill
  · exact hhandled
  · exact absurd hreturns hstill.lane_ne

/-- A buy that works at the venue. -/
def workingBuy : List Action :=
  submitAlone 0 limitBuy ++ workerToTrader ++ [.environment (.traderReturns .success), .environment .worker]

theorem opening_oms : Runs.Reaches OrderManager.run Runs.anyStep {} opening.shared.oms :=
  Runs.reaches_of_exec [.initializeWith ⟨"t", "e", 1⟩] rfl

/-- The venue cancels the buy. -/
theorem ended_released_canceled : ∃ c₁ c : System, ∃ new, c.shared.log = new ++ c₁.shared.log ∧
    ∃ lifecycle, .released "t-e-1-1" .canceled lifecycle ∈ new := by
  have hrun : ∃ c₁ ∈ Runs.exec step opening workingBuy,
      ∃ c₂ ∈ step c₁ (.environment (.orderReport { orderId := "t-e-1-1", status := .canceled })),
        ∃ c ∈ Runs.execWhile step (fun c a => duringHandler c a = true) c₂
            (List.replicate 3 (.environment .lane)),
          ∃ e ∈ c₁.shared.oms.orders.lookup "t-e-1-1", ∃ e' ∈ c₂.shared.oms.orders.lookup "t-e-1-1",
            e.lifecycleState = .working ∧ e'.lifecycleState = .canceled ∧ c.shared.lane = .idle ∧
              releasesEnded c₁.shared (.orderReport { orderId := "t-e-1-1", status := .canceled }) = true := by
    decide +kernel
  obtain ⟨c₁, h₁, c₂, h₂, c, h, e, he, e', he', hopen, hended, hidle, hreleases⟩ := hrun
  obtain ⟨new, hnew, hiff⟩ := ended_released_iff opening_oms rfl (Runs.reaches_of_exec _ h₁) rfl h₂ he
    (by rw [hopen]; rfl) he' (by rw [hended]; rfl) (Runs.reaches_of_execWhile _ h) hidle
  rw [hended] at hiff
  exact ⟨c₁, c, new, hnew, hiff.mpr hreleases⟩

/-- The venue reports by an order report that the buy is filled, and no reservation is released. -/
theorem ended_unreleased : ¬ ∀ (c₀ c₁ c₂ c : System) (event : EngineEvent) (orderId : String)
    (e e' : OrderEntry),
    Runs.Reaches OrderManager.run Runs.anyStep {} c₀.shared.oms → c₀.shared.bridge = true →
    Runs.Reaches step Runs.anyStep c₀ c₁ → takesReport (.environment event) = true →
    step c₁ (.environment event) = some c₂ → c₁.shared.oms.orders.lookup orderId = some e →
    isTerminalLifecycle e.lifecycleState = false → c₂.shared.oms.orders.lookup orderId = some e' →
    isTerminalLifecycle e'.lifecycleState = true →
    Runs.Reaches step (fun c a => duringHandler c a = true) c₂ c → c.shared.lane = .idle →
    ∃ new, c.shared.log = new ++ c₁.shared.log ∧
      ∃ lifecycle, .released orderId (releaseReason e'.lifecycleState) lifecycle ∈ new := by
  intro hall
  have hrun : ∃ c₁ ∈ Runs.exec step opening workingBuy,
      ∃ c₂ ∈ step c₁ (.environment (.orderReport { orderId := "t-e-1-1", status := .filled })),
        ∃ c ∈ Runs.execWhile step (fun c a => duringHandler c a = true) c₂
            (List.replicate 2 (.environment .lane)),
          ∃ e ∈ c₁.shared.oms.orders.lookup "t-e-1-1", ∃ e' ∈ c₂.shared.oms.orders.lookup "t-e-1-1",
            e.lifecycleState = .working ∧ e'.lifecycleState = .filled ∧ c.shared.lane = .idle ∧
              c.shared.log = c₁.shared.log := by
    decide +kernel
  obtain ⟨c₁, h₁, c₂, h₂, c, h, e, he, e', he', hopen, hended, hidle, hlog⟩ := hrun
  obtain ⟨new, hnew, lifecycle, hmem⟩ := hall opening c₁ c₂ c _ "t-e-1-1" e e' opening_oms rfl
    (Runs.reaches_of_exec _ h₁) rfl h₂ he (by rw [hopen]; rfl) he' (by rw [hended]; rfl)
    (Runs.reaches_of_execWhile _ h) hidle
  obtain rfl : new = [] := by simpa [hlog] using hnew
  cases hmem

end Qtrade.Trading
