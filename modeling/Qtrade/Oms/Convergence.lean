import Qtrade.Lib.Runs
import Qtrade.Oms.Spec

/-!
# The venue's last word on one order

The worker marks the order, calls the trader and records the result, while Lane-T applies the
venue's reports in their order. Which lifecycle is left depends on how many reports come first.
-/

namespace Qtrade.Oms

open OrderManager

/-! ## What the venue says -/

def acknowledges (status : OrderStatusType) : Bool :=
  status == .new || status == .notTradedQueueing || status == .noTradeNotQueueing

def reportsPartial (status : OrderStatusType) : Bool :=
  status == .partiallyFilled || status == .partiallyFilledNotQueueing

def concludes (status : OrderStatusType) : Bool :=
  status == .filled || status == .canceled || status == .rejected

/-- An acknowledgement, then partial fills, then perhaps the end of the order. -/
structure VenueReports where
  ack : Order
  partials : List Order
  final : Option Order
  acknowledged : acknowledges ack.status = true
  filledInPart : ∀ report ∈ partials, reportsPartial report.status = true
  concluded : ∀ report ∈ final, concludes report.status = true

namespace VenueReports

def all (reports : VenueReports) : List Order := reports.ack :: (reports.partials ++ reports.final.toList)

def last (reports : VenueReports) : Order := reports.all.getLast (List.cons_ne_nil _ _)

end VenueReports

/-- The lifecycle that a report stands for. -/
def standsFor (status : OrderStatusType) : OrderLifecycleState :=
  match status with
  | .filled => .filled
  | .partiallyFilled | .partiallyFilledNotQueueing => .partiallyFilled
  | .canceled => .canceled
  | .rejected => .rejected
  | .new | .notTradedQueueing | .noTradeNotQueueing => .working
  | .unknown => .sendUnknown

/-! ## The race -/

inductive SendPhase
  | queued
  | marked
  | sending
  | returned (result : ErrorCode)
  | recorded (result : ErrorCode) (late : List Order)
deriving DecidableEq

/-- `pending` are the reports that Lane-T has not processed. When the result is recorded, the
phase keeps those that come later. -/
structure Race where
  oms : OrderManager
  phase : SendPhase := .queued
  pending : List Order

inductive Racer
  | worker
  | trader (result : ErrorCode)
  | lane
deriving DecidableEq

namespace Race

/-- The trader has been called, so the venue may report. -/
def called (s : Race) : Bool := s.phase != .queued && s.phase != .marked

def step (orderId : String) (s : Race) : Racer → Option Race
  | .worker =>
    match s.phase with
    | .queued =>
      let marked := s.oms.markSendPending orderId
      if marked.1 = .success then some { s with oms := marked.2, phase := .marked } else none
    | .marked => some { s with phase := .sending }
    | .returned result =>
      some { s with
        oms := (s.oms.recordSendResult orderId result).2
        phase := .recorded result s.pending }
    | _ => none
  | .trader result =>
    if s.phase = .sending ∧ (result = .success ∨ result = .timeout) then
      some { s with phase := .returned result }
    else none
  | .lane =>
    match s.pending with
    | [] => none
    | report :: rest =>
      if s.called then some { s with oms := s.oms.applyOrderReport report, pending := rest } else none

end Race

/-! ## The lifecycle alone -/

/-- Where a report with this status leaves the lifecycle. -/
def reportState (l : OrderLifecycleState) (status : OrderStatusType) : OrderLifecycleState :=
  if canTransition l (lifecycleFromOrderStatus status l) then lifecycleFromOrderStatus status l else l

def recordState (l : OrderLifecycleState) (result : ErrorCode) : OrderLifecycleState :=
  if l = .sendPending then if result = .timeout then .sendUnknown else .working else l

def reportStates (l : OrderLifecycleState) (reports : List Order) : OrderLifecycleState :=
  reports.foldl (fun l report => reportState l report.status) l

/-- The lifecycle at the end, with the reports that come before and after the result. -/
def outcome (result : ErrorCode) (early late : List Order) : OrderLifecycleState :=
  reportStates (recordState (reportStates .sendPending early) result) late

variable {s s' : OrderManager} {orderId : String} {l : OrderLifecycleState} {result : ErrorCode}

theorem reportState_ack {status : OrderStatusType} (h : acknowledges status = true) (hl : l ≠ .prepared) :
    reportState l status = l := by
  cases status <;> simp_all [acknowledges, reportState, lifecycleFromOrderStatus]

theorem reportState_partial {status : OrderStatusType} (h : reportsPartial status = true)
    (hl : l = .sendPending ∨ l = .working ∨ l = .sendUnknown ∨ l = .partiallyFilled) :
    reportState l status = .partiallyFilled := by
  rcases hl with rfl | rfl | rfl | rfl <;>
    cases status <;> simp_all [reportsPartial, reportState, lifecycleFromOrderStatus, canTransition]

theorem reportStates_partials {reports : List Order} (h : ∀ report ∈ reports, reportsPartial report.status = true)
    (hl : l = .sendPending ∨ l = .working ∨ l = .sendUnknown ∨ l = .partiallyFilled) :
    reportStates l reports = if reports = [] then l else .partiallyFilled := by
  induction reports generalizing l with
  | nil => rfl
  | cons report reports ih =>
    have hhead := reportState_partial (h report (by simp)) hl
    have htail : ∀ r ∈ reports, reportsPartial r.status = true := fun r hr => h r (by simp [hr])
    unfold reportStates at *
    rw [List.foldl_cons, hhead, ih htail (by simp)]
    simp

theorem reportStates_single (l : OrderLifecycleState) (report : Order) :
    reportStates l [report] = reportState l report.status := rfl

theorem reportStates_append (l : OrderLifecycleState) (early late : List Order) :
    reportStates l (early ++ late) = reportStates (reportStates l early) late := by
  unfold reportStates
  rw [List.foldl_append]

theorem reportStates_ack {ack : Order} {reports : List Order} (h : acknowledges ack.status = true)
    (hl : l ≠ .prepared) : reportStates l (ack :: reports) = reportStates l reports := by
  unfold reportStates
  rw [List.foldl_cons, reportState_ack h hl]

theorem recordState_sendPending (hr : result = .success ∨ result = .timeout) :
    recordState .sendPending result = if result = .timeout then .sendUnknown else .working := by
  rcases hr with rfl | rfl <;> rfl

theorem standsFor_ack {status : OrderStatusType} (h : acknowledges status = true) :
    standsFor status = .working := by
  cases status <;> simp_all [acknowledges, standsFor]

theorem standsFor_partial {status : OrderStatusType} (h : reportsPartial status = true) :
    standsFor status = .partiallyFilled := by
  cases status <;> simp_all [reportsPartial, standsFor]

theorem standsFor_last (reports : VenueReports) : standsFor reports.last.status =
    match reports.final with
    | some report => standsFor report.status
    | none => if reports.partials = [] then .working else .partiallyFilled := by
  obtain ⟨ack, partials, final, hack, hpartials, _⟩ := reports
  unfold VenueReports.last VenueReports.all
  cases final with
  | some report => simp
  | none =>
    cases partials using List.reverseRecOn with
    | nil => simpa using standsFor_ack hack
    | append_singleton partials report =>
      have hlast := standsFor_partial (hpartials report (by simp))
      simpa using hlast

/-- The three ways in which the last word is lost. -/
def Misses (reports : VenueReports) (result : ErrorCode) (late : List Order) : Prop :=
  (reports.partials = [] ∧ reports.final = none ∧ result = .timeout) ∨
    (reports.partials = [] ∧ late = [] ∧ ∃ report ∈ reports.final, report.status = .canceled) ∨
    (reports.partials ≠ [] ∧ ∃ report ∈ reports.final, report.status = .rejected)

/-- The result is recorded before the final report, so it leaves no trace once a fill is in. -/
theorem outcome_before_final (reports : VenueReports) (hr : result = .success ∨ result = .timeout)
    {early late : List Order} (hsplit : early ++ late = reports.all)
    (hlate : reports.final.toList <:+ late) :
    outcome result early late =
      reportStates (if reports.partials = [] then recordState .sendPending result else .partiallyFilled)
        reports.final.toList := by
  obtain ⟨ack, partials, final, hack, hpartials, _⟩ := reports
  obtain ⟨rest, rfl⟩ := hlate
  have hbody : early ++ rest = ack :: partials := by
    simp only [VenueReports.all] at hsplit
    rw [← List.append_assoc, ← List.cons_append] at hsplit
    exact List.append_cancel_right hsplit
  have hbase : recordState .sendPending result = .working ∨ recordState .sendPending result = .sendUnknown := by
    rcases hr with rfl | rfl
    · exact Or.inl rfl
    · exact Or.inr rfl
  have hne : recordState .sendPending result ≠ .prepared := by
    rcases hbase with h | h <;> rw [h] <;> simp
  unfold outcome
  rw [reportStates_append]
  congr 1
  cases early with
  | nil =>
    simp only [List.nil_append] at hbody
    subst hbody
    have hstart : reportStates .sendPending [] = .sendPending := rfl
    rw [hstart, reportStates_ack hack hne, reportStates_partials hpartials (by tauto)]
  | cons first early =>
    simp only [List.cons_append, List.cons.injEq] at hbody
    obtain ⟨rfl, rfl⟩ := hbody
    have hearly : ∀ report ∈ early, reportsPartial report.status = true := fun r hr => hpartials r (by simp [hr])
    have hrest : ∀ report ∈ rest, reportsPartial report.status = true := fun r hr => hpartials r (by simp [hr])
    rw [reportStates_ack hack (by simp), reportStates_partials hearly (by simp)]
    by_cases hnil : early = []
    · subst hnil
      simp only [if_true, List.nil_append]
      rw [reportStates_partials hrest (by tauto)]
    · have hkeep : recordState .partiallyFilled result = .partiallyFilled := rfl
      simp only [hnil, if_false, hkeep, List.append_eq_nil_iff, false_and]
      rw [reportStates_partials hrest (by simp)]
      simp

/-- The result is recorded after everything else. -/
theorem outcome_after_final (reports : VenueReports) :
    outcome result reports.all [] =
      recordState (reportStates (if reports.partials = [] then .sendPending else .partiallyFilled)
        reports.final.toList) result := by
  unfold outcome VenueReports.all
  have hnil : ∀ l, reportStates l [] = l := fun _ => rfl
  rw [hnil, reportStates_ack reports.acknowledged (by simp), reportStates_append,
    reportStates_partials reports.filledInPart (by simp)]

theorem split_cases (reports : VenueReports) {early late : List Order} (hsplit : early ++ late = reports.all) :
    reports.final.toList <:+ late ∨ (late = [] ∧ ∃ report, reports.final = some report) := by
  cases hf : reports.final with
  | none => exact Or.inl (List.nil_suffix)
  | some report =>
    cases late using List.reverseRecOn with
    | nil => exact Or.inr ⟨rfl, report, rfl⟩
    | append_singleton late last =>
      refine Or.inl ⟨late, ?_⟩
      simp only [VenueReports.all, hf, Option.toList_some] at hsplit
      rw [← List.append_assoc, ← List.cons_append] at hsplit
      have hlast := (List.append_inj' hsplit rfl).2
      rw [Option.toList_some, hlast]

theorem reportState_final {status : OrderStatusType} (h : concludes status = true)
    (hl : l = .sendPending ∨ l = .working ∨ l = .sendUnknown ∨ l = .partiallyFilled) :
    reportState l status = standsFor status ↔
      ¬(status = .canceled ∧ l = .sendPending) ∧ ¬(status = .rejected ∧ l = .partiallyFilled) := by
  have hs : status = .filled ∨ status = .canceled ∨ status = .rejected := by
    simpa [concludes, or_assoc] using h
  rcases hs with rfl | rfl | rfl <;> rcases hl with rfl | rfl | rfl | rfl <;> decide

theorem recordState_final {status : OrderStatusType} (h : concludes status = true)
    (hl : l = .sendPending ∨ l = .partiallyFilled) (hr : result = .success ∨ result = .timeout) :
    recordState (reportState l status) result = standsFor status ↔ reportState l status = standsFor status := by
  have hs : status = .filled ∨ status = .canceled ∨ status = .rejected := by
    simpa [concludes, or_assoc] using h
  rcases hs with rfl | rfl | rfl <;> rcases hl with rfl | rfl <;> rcases hr with rfl | rfl <;> decide

theorem outcome_iff (reports : VenueReports) (hr : result = .success ∨ result = .timeout)
    {early late : List Order} (hsplit : early ++ late = reports.all) :
    outcome result early late = standsFor reports.last.status ↔ ¬Misses reports result late := by
  rw [standsFor_last]
  unfold Misses
  rcases split_cases reports hsplit with hlate | ⟨rfl, report, hf⟩
  · rw [outcome_before_final reports hr hsplit hlate, recordState_sendPending hr]
    cases hf : reports.final with
    | none =>
      by_cases hp : reports.partials = [] <;> by_cases ht : result = .timeout <;> simp [hp, ht, reportStates]
    | some report =>
      have hne : late ≠ [] := by
        rintro rfl
        rw [hf] at hlate
        simp at hlate
      rw [Option.toList_some, reportStates_single]
      by_cases hp : reports.partials = []
      · rw [if_pos hp, reportState_final (reports.concluded report hf) (by split <;> simp)]
        by_cases ht : result = .timeout <;> simp [hp, hne, ht]
      · rw [if_neg hp, reportState_final (reports.concluded report hf) (by simp)]
        simp [hp]
  · rw [List.append_nil] at hsplit
    subst hsplit
    rw [outcome_after_final reports, hf, Option.toList_some, reportStates_single]
    by_cases hp : reports.partials = []
    · rw [if_pos hp, recordState_final (reports.concluded report hf) (by simp) hr,
        reportState_final (reports.concluded report hf) (by simp)]
      simp [hp]
    · rw [if_neg hp, recordState_final (reports.concluded report hf) (by simp) hr,
        reportState_final (reports.concluded report hf) (by simp)]
      simp [hp]

/-! ## The table follows the lifecycle -/

theorem lifecycle_applyOrderReport {report : Order} (hl : s.getLifecycleState orderId = some l)
    (hkey : s.reportKey report.orderId report.clientOrderId = some orderId) :
    (s.applyOrderReport report).getLifecycleState orderId = some (reportState l report.status) := by
  simp only [getLifecycleState, Option.map_eq_some_iff] at hl ⊢
  obtain ⟨e, he, rfl⟩ := hl
  refine ⟨kept e (orderReportEntry e report), by rw [lookup_applyOrderReport, if_pos hkey, he]; rfl, ?_⟩
  rw [kept_orderReport]
  unfold reportState
  split <;> rfl

theorem lifecycle_recordSendResult (hr : result = .success ∨ result = .timeout)
    (hl : s.getLifecycleState orderId = some l) :
    (s.recordSendResult orderId result).2.getLifecycleState orderId = some (recordState l result) := by
  simp only [getLifecycleState, Option.map_eq_some_iff] at hl ⊢
  obtain ⟨e, he, rfl⟩ := hl
  refine ⟨(sendResultEntry e result).2, by rw [recordSendResult, lookup_update, if_pos rfl, he]; rfl, ?_⟩
  unfold sendResultEntry recordState
  rcases hr with rfl | rfl <;> cases hs : e.lifecycleState <;> simp [applyTransition, canTransition, hs]

theorem lifecycle_markSendPending (hl : s.getLifecycleState orderId = some .emsQueued) :
    (s.markSendPending orderId).2.getLifecycleState orderId = some .sendPending := by
  simp only [getLifecycleState, Option.map_eq_some_iff] at hl ⊢
  obtain ⟨e, he, hl⟩ := hl
  refine ⟨_, by rw [markSendPending, lookup_update, if_pos rfl, he]; rfl, ?_⟩
  simp [applyTransition, hl, canTransition]

/-! ## The runs -/

/-- How far the race has come, in terms of the reports that have been processed. -/
def Reached (orderId : String) (reports : List Order) (s : Race) : Prop :=
  match s.phase with
  | .queued => s.pending = reports ∧ s.oms.getLifecycleState orderId = some .emsQueued
  | .marked => s.pending = reports ∧ s.oms.getLifecycleState orderId = some .sendPending
  | .sending => ∃ early, early ++ s.pending = reports ∧
      s.oms.getLifecycleState orderId = some (reportStates .sendPending early)
  | .returned result => (result = .success ∨ result = .timeout) ∧ ∃ early, early ++ s.pending = reports ∧
      s.oms.getLifecycleState orderId = some (reportStates .sendPending early)
  | .recorded result late => (result = .success ∨ result = .timeout) ∧ ∃ early after, early ++ late = reports ∧
      after ++ s.pending = late ∧ s.oms.getLifecycleState orderId = some (outcome result early after)

/-- Every report is about the order. -/
def Concern (orderId : String) (reports : List Order) (s : OrderManager) : Prop :=
  ∀ report ∈ reports, s.reportKey report.orderId report.clientOrderId = some orderId

theorem Concern.evolves {R : OrderEntry → OrderEntry → Prop} {reports : List Order} (h : Concern orderId reports s)
    (hs : Evolves R s s') : Concern orderId reports s' := by
  intro report hr
  rw [reportKey_evolves hs]
  exact h report hr

theorem step_concern {reports : List Order} {r r' : Race} {racer : Racer} (h : Concern orderId reports r.oms)
    (hstep : r.step orderId racer = some r') : Concern orderId reports r'.oms := by
  cases racer <;> simp only [Race.step] at hstep
  case worker =>
    split at hstep
    · split at hstep <;> cases hstep
      exact h.evolves (markSendPending_evolves r.oms orderId)
    · cases hstep; exact h
    · cases hstep; exact h.evolves (recordSendResult_evolves r.oms orderId _)
    · cases hstep
  case trader =>
    split at hstep <;> cases hstep
    exact h
  case lane =>
    split at hstep
    · cases hstep
    · split at hstep <;> cases hstep
      exact h.evolves (applyOrderReport_evolves r.oms _)

theorem worker_reached {reports : List Order} {r r' : Race} (h : Reached orderId reports r)
    (hstep : r.step orderId .worker = some r') : Reached orderId reports r' := by
  unfold Reached at h
  simp only [Race.step] at hstep
  cases hp : r.phase with
  | queued =>
    simp only [hp] at h hstep
    split at hstep <;> cases hstep
    exact ⟨h.1, lifecycle_markSendPending h.2⟩
  | marked =>
    simp only [hp, Option.some.injEq] at h hstep
    subst hstep
    exact ⟨[], by simpa using h.1, h.2⟩
  | returned result =>
    simp only [hp, Option.some.injEq] at h hstep
    subst hstep
    obtain ⟨hr, early, hsplit, hl⟩ := h
    exact ⟨hr, early, [], hsplit, rfl, lifecycle_recordSendResult hr hl⟩
  | sending | recorded => simp [hp] at hstep

theorem trader_reached {reports : List Order} {r r' : Race} (h : Reached orderId reports r)
    (hstep : r.step orderId (.trader result) = some r') : Reached orderId reports r' := by
  unfold Reached at h
  simp only [Race.step] at hstep
  split at hstep <;> cases hstep
  case isTrue hc =>
    rw [hc.1] at h
    exact ⟨hc.2, h⟩

theorem lane_reached {reports : List Order} {r r' : Race} (h : Reached orderId reports r)
    (hc : Concern orderId reports r.oms) (hstep : r.step orderId .lane = some r') : Reached orderId reports r' := by
  simp only [Race.step] at hstep
  split at hstep
  case h_1 => cases hstep
  case h_2 report rest hpending =>
    split at hstep <;> cases hstep
    case isTrue hcalled =>
      unfold Reached at *
      cases hp : r.phase with
      | queued => simp [Race.called, hp] at hcalled
      | marked => simp [Race.called, hp] at hcalled
      | sending =>
        simp only [hp] at h ⊢
        obtain ⟨early, hsplit, hl⟩ := h
        rw [hpending] at hsplit
        refine ⟨early ++ [report], by simpa using hsplit, ?_⟩
        rw [lifecycle_applyOrderReport hl (hc report (by simp [← hsplit])), reportStates_append]
        rfl
      | returned result =>
        simp only [hp] at h ⊢
        obtain ⟨hr, early, hsplit, hl⟩ := h
        rw [hpending] at hsplit
        refine ⟨hr, early ++ [report], by simpa using hsplit, ?_⟩
        rw [lifecycle_applyOrderReport hl (hc report (by simp [← hsplit])), reportStates_append]
        rfl
      | recorded result late =>
        simp only [hp] at h ⊢
        obtain ⟨hr, early, after, hsplit, hlate, hl⟩ := h
        rw [hpending] at hlate
        refine ⟨hr, early, after ++ [report], hsplit, by simpa using hlate, ?_⟩
        rw [lifecycle_applyOrderReport hl (hc report (by simp [← hsplit, ← hlate])), outcome, outcome,
          reportStates_append]
        rfl

theorem step_reached {reports : List Order} {r r' : Race} {racer : Racer} (h : Reached orderId reports r)
    (hc : Concern orderId reports r.oms) (hstep : r.step orderId racer = some r') : Reached orderId reports r' := by
  cases racer with
  | worker => exact worker_reached h hstep
  | trader result => exact trader_reached h hstep
  | lane => exact lane_reached h hc hstep

/-! ## The theorem -/

/-- The order is where the report says, can be cancelled while it lives, and is not active after. -/
structure Converged (s : OrderManager) (orderId : String) (report : Order) : Prop where
  lifecycle : s.getLifecycleState orderId = some (standsFor report.status)
  cancellable : isTerminalLifecycle (standsFor report.status) = false → (s.cancelOrder orderId).1 = .success
  inactive : isTerminalLifecycle (standsFor report.status) = true →
    ∀ e, s.orders.lookup orderId = some e → e ∉ s.activeEntries

theorem converged_iff (reports : VenueReports) : Converged s orderId reports.last ↔
    s.getLifecycleState orderId = some (standsFor reports.last.status) := by
  refine ⟨Converged.lifecycle, fun hl => ⟨hl, fun hlive => ?_, fun hdone e he => ?_⟩⟩
  · obtain ⟨e, he, hle⟩ := Option.map_eq_some_iff.mp hl
    have hstate : e.lifecycleState = .working ∨ e.lifecycleState = .partiallyFilled := by
      rw [hle]
      rw [standsFor_last] at hlive ⊢
      have hconcluded := reports.concluded
      cases hf : reports.final with
      | none => by_cases hp : reports.partials = [] <;> simp [hp]
      | some report =>
        have hc := hconcluded report hf
        rw [hf] at hlive
        cases hs : report.status <;> simp_all [concludes, standsFor, isTerminalLifecycle]
    rw [OrderManager.cancelOrder, update_fst he]
    rcases hstate with h | h <;> simp [applyTransition, h, canTransition]
  · have hle : e.lifecycleState = standsFor reports.last.status := by
      simpa [getLifecycleState, he] using hl
    simp [activeEntries, hle, hdone]

/-- However the worker and the lane interleave: when the result and all reports have been processed,
the order is where the last report says, except in the three cases that lose it. -/
theorem converges_iff {r r' : Race} (reports : VenueReports) (hphase : r.phase = .queued)
    (hpending : r.pending = reports.all) (hqueued : r.oms.getLifecycleState orderId = some .emsQueued)
    (hconcern : Concern orderId reports.all r.oms) (hrun : Runs.Reaches (Race.step orderId) Runs.anyStep r r')
    {late : List Order} (hrecorded : r'.phase = .recorded result late) (hempty : r'.pending = []) :
    Converged r'.oms orderId reports.last ↔ ¬Misses reports result late := by
  have hstart : Reached orderId reports.all r := by
    unfold Reached
    rw [hphase]
    exact ⟨hpending, hqueued⟩
  have hend : Reached orderId reports.all r' ∧ Concern orderId reports.all r'.oms :=
    hrun.invariant (P := fun r => Reached orderId reports.all r ∧ Concern orderId reports.all r.oms)
      ⟨hstart, hconcern⟩ fun r racer r' h _ hstep => ⟨step_reached h.1 h.2 hstep, step_concern h.2 hstep⟩
  replace hend := hend.1
  unfold Reached at hend
  rw [hrecorded] at hend
  obtain ⟨hr, early, after, hsplit, hafter, hl⟩ := hend
  rw [hempty, List.append_nil] at hafter
  subst hafter
  rw [converged_iff, hl, Option.some.injEq]
  exact outcome_iff reports hr hsplit

/-- An order of four that waits in the queue. -/
def queuedAlone : OrderManager :=
  let s := (({} : OrderManager).initializeWith ⟨"t", "e", 1⟩).2
  ((s.createOrder { instrument := "600000", price := .fin 10, volume := 4 } "t-e-1-1").2.markEmsQueued "t-e-1-1").2

def report (status : OrderStatusType) (tradedVolume : Int) : Order :=
  { orderId := "t-e-1-1", volume := 4, tradedVolume, leftVolume := 4 - tradedVolume, status }

/-- The fill of the whole order is reported before the trader returns. -/
theorem converges_iff_filled : ∃ r', Runs.Reaches (Race.step "t-e-1-1") Runs.anyStep
      { oms := queuedAlone, pending := [report .new 0, report .partiallyFilled 2, report .filled 4] } r' ∧
    Converged r'.oms "t-e-1-1" (report .filled 4) := by
  let reports : VenueReports :=
    ⟨report .new 0, [report .partiallyFilled 2], some (report .filled 4), by decide, by decide, by decide⟩
  have hrun : ∃ r' ∈ Runs.exec (Race.step "t-e-1-1") { oms := queuedAlone, pending := reports.all }
      [.worker, .worker, .lane, .lane, .lane, .trader .success, .worker],
      r'.phase = .recorded .success [] ∧ r'.pending = [] := by decide +kernel
  obtain ⟨r', hr', hphase, hpending⟩ := hrun
  have hreach := Runs.reaches_of_exec _ hr'
  have hconcern : Concern "t-e-1-1" reports.all queuedAlone := by unfold Concern; decide +kernel
  have hqueued : queuedAlone.getLifecycleState "t-e-1-1" = some .emsQueued := by decide +kernel
  refine ⟨r', hreach, (converges_iff reports rfl rfl hqueued hconcern hreach hphase hpending).mpr ?_⟩
  simp [Misses, reports, report]

/-- A send that times out, and the venue has taken the order. -/
theorem unknown_after_ack : ¬ ∀ (orderId : String) (r r' : Race) (reports : VenueReports)
    (result : ErrorCode) (late : List Order), r.phase = .queued → r.pending = reports.all →
    r.oms.getLifecycleState orderId = some .emsQueued → Concern orderId reports.all r.oms →
    Runs.Reaches (Race.step orderId) Runs.anyStep r r' → r'.phase = .recorded result late →
    r'.pending = [] → Converged r'.oms orderId reports.last := by
  intro hall
  let reports : VenueReports := ⟨report .new 0, [], none, by decide, by simp, by simp⟩
  have hrun : ∃ r' ∈ Runs.exec (Race.step "t-e-1-1") { oms := queuedAlone, pending := reports.all }
      [.worker, .worker, .trader .timeout, .worker, .lane],
      r'.phase = .recorded .timeout reports.all ∧ r'.pending = [] ∧
        r'.oms.getLifecycleState "t-e-1-1" = some .sendUnknown := by decide +kernel
  obtain ⟨r', hr', hphase, hpending, hunknown⟩ := hrun
  have hconcern : Concern "t-e-1-1" reports.all queuedAlone := by unfold Concern; decide +kernel
  have hqueued : queuedAlone.getLifecycleState "t-e-1-1" = some .emsQueued := by decide +kernel
  have hlast := (hall "t-e-1-1" _ r' reports .timeout reports.all rfl rfl hqueued hconcern
    (Runs.reaches_of_exec _ hr') hphase hpending).lifecycle
  rw [hunknown] at hlast
  cases hlast

end Qtrade.Oms
