import Qtrade.Trading.Sender

/-!
# The requests of a batch

A batch submits its requests in order, each in one call of `Submit` and the next only after that call has succeeded.
What it returns is the answer of the last.
-/

namespace Qtrade.Trading

/-! ## A call of `Submit` keeps its request -/

def SubmitPc.request : SubmitPc → OrderRequest
  | .compliance request | .risk request | .riskOpenOrders request _ | .riskNotional request _ | .duplicate request
  | .allocate request | .reserve request _ | .query request _ | .create request _ | .lifecycle request _
  | .markQueued request _ | .enqueue request _ | .recordFailure request _ _ | .release request _ _ | .done request _
  | .threw request => request

theorem submitNext_request {s s' : Shared} {call : Nat} {pc pc' : SubmitPc} {answer : Shared.Answer}
    (h : s.submitNext call pc answer = some (s', pc')) : pc'.request = pc.request := by
  unfold Shared.submitNext at h
  split at h
  case h_15 => cases h
  case h_2 | h_3 =>
    dsimp only at h
    split at h <;> cases h <;> rfl
  case h_5 | h_9 | h_10 => split at h <;> cases h <;> rfl
  case h_13 | h_14 =>
    cases h
    rfl
  all_goals
    cases h
    repeat' split
    all_goals rfl

def SubmitPc.isOver : SubmitPc → Bool
  | .done _ _ => true
  | .threw _ => true
  | _ => false

/-- The calls of `Submit` are still there, and those that are over have their end. -/
def Keeps (t t' : System) : Prop :=
  ∀ (n : Nat) (pc : SubmitPc), t.calls[n]? = some (.submit pc) → ∃ pc' : SubmitPc,
    t'.calls[n]? = some (.submit pc') ∧ pc'.request = pc.request ∧ (pc.isOver = true → pc' = pc)

theorem Keeps.refl (t : System) : Keeps t t := fun _ pc h => ⟨pc, h, rfl, fun _ => rfl⟩

theorem Keeps.of_append {t t' : System} {calls : List CallPc} (h : t'.calls = t.calls ++ calls) : Keeps t t' := by
  intro n pc hpc
  obtain ⟨hn, -⟩ := List.getElem?_eq_some_iff.mp hpc
  exact ⟨pc, by rw [h, List.getElem?_append_left hn, hpc], rfl, fun _ => rfl⟩

theorem step_keeps {t t' : System} {a : Action} (h : step t a = some t') : Keeps t t' := by
  cases a with
  | start call =>
    cases h
    exact .of_append rfl
  | resume index answer =>
    obtain ⟨pc, pc', hpc, hnext, hcalls⟩ := Calls.Program.step_resume h
    intro n p hp
    rw [hcalls]
    by_cases hindex : index = n
    · subst hindex
      cases hpc.symm.trans hp
      obtain ⟨hn, -⟩ := List.getElem?_eq_some_iff.mp hp
      obtain ⟨⟨s', p'⟩, hsubmit, heq⟩ := Option.map_eq_some_iff.mp hnext
      obtain ⟨-, rfl⟩ := Prod.mk.inj heq
      refine ⟨p', List.getElem?_set_self hn, submitNext_request hsubmit, fun hover => ?_⟩
      cases p with
      | done => cases hsubmit
      | threw => cases hsubmit
      | _ => cases hover
    · exact ⟨p, by rw [List.getElem?_set_ne hindex, hp], rfl, fun _ => rfl⟩
  | environment event =>
    obtain ⟨-, hcalls⟩ := Calls.Program.step_environment h
    intro n p hp
    exact ⟨p, by rw [hcalls, hp], rfl, fun _ => rfl⟩

/-! ## One after another -/

/-- The call of `Submit` with this number has come to this point. -/
def At (t : System) (n : Nat) (pc : SubmitPc) : Prop := t.calls[n]? = some (.submit pc)

/-- How far a batch is says what its last call has answered. -/
def Batch.Outcome (batch : Batch) (t : System) : Prop :=
  match batch.pc with
  | .gate => batch.begun = []
  | .submitting => batch.begun ≠ []
  | .returned rc =>
    if rc = .success then
      batch.begun.length = batch.requests.length ∧ ∀ n ∈ batch.begun.getLast?, ∃ request, At t n (.done request .success)
    else
      batch.begun = [] ∧ rc = .notInitialized ∨ ∃ n ∈ batch.begun.getLast?, ∃ request, At t n (.done request rc)
  | .threw => ∃ n ∈ batch.begun.getLast?, ∃ request, At t n (.threw request)

/-- The calls of a batch have its requests in order. All but the last have succeeded. -/
structure Batch.InOrder (batch : Batch) (t : System) : Prop where
  requests : ∀ (j n : Nat), batch.begun[j]? = some n → ∃ pc, At t n pc ∧ batch.requests[j]? = some pc.request
  earlier : ∀ (j n : Nat), batch.begun[j]? = some n → j + 1 < batch.begun.length →
    ∃ request, At t n (.done request .success)
  outcome : batch.Outcome t

section InOrder

variable {t t' : System} {batch batch' : Batch} {n : Nat} {s s' : Gateway}

theorem At.keeps {pc : SubmitPc} (h : At t n pc) (hkeeps : Keeps t t') (hover : pc.isOver = true) : At t' n pc := by
  obtain ⟨pc', hpc', -, hsame⟩ := hkeeps n pc h
  rw [hsame hover] at hpc'
  exact hpc'

theorem Batch.InOrder.keeps (h : batch.InOrder t) (hkeeps : Keeps t t') : batch.InOrder t' := by
  have hdone : ∀ {n rc}, (∃ request, At t n (.done request rc)) → ∃ request, At t' n (.done request rc) :=
    fun ⟨request, hat⟩ => ⟨request, hat.keeps hkeeps rfl⟩
  refine ⟨fun j n hj => ?_, fun j n hj hlt => hdone (h.earlier j n hj hlt), ?_⟩
  · obtain ⟨pc, hpc, hrequest⟩ := h.requests j n hj
    obtain ⟨pc', hpc', hsame, -⟩ := hkeeps n pc hpc
    exact ⟨pc', hpc', by rw [hsame, hrequest]⟩
  · have houtcome := h.outcome
    unfold Batch.Outcome at houtcome ⊢
    cases hpc : batch.pc with
    | gate => simpa [hpc] using houtcome
    | submitting => simpa [hpc] using houtcome
    | returned rc =>
      rw [hpc] at houtcome
      dsimp only at houtcome ⊢
      split
      case isTrue hrc =>
        rw [if_pos hrc] at houtcome
        exact ⟨houtcome.1, fun n hn => hdone (houtcome.2 n hn)⟩
      case isFalse hrc =>
        rw [if_neg hrc] at houtcome
        rcases houtcome with hrefused | ⟨n, hn, hat⟩
        · exact Or.inl hrefused
        · exact Or.inr ⟨n, hn, hdone hat⟩
    | threw =>
      rw [hpc] at houtcome
      obtain ⟨n, hn, request, hat⟩ := houtcome
      exact ⟨n, hn, request, hat.keeps hkeeps rfl⟩

theorem current_iff {pc : SubmitPc} :
    s.current batch = some (.submit pc) ↔ ∃ n ∈ batch.begun.getLast?, At s.trading n pc := by
  unfold Gateway.current At
  rw [Option.bind_eq_some_iff]
  rfl

theorem Batch.InOrder.length_le (h : batch.InOrder t) : batch.begun.length ≤ batch.requests.length := by
  cases hlength : batch.begun.length with
  | zero => exact Nat.zero_le _
  | succ j =>
    obtain ⟨n, hn⟩ : ∃ n, batch.begun[j]? = some n := by simp [hlength]
    obtain ⟨pc, -, hrequest⟩ := h.requests j n hn
    exact (List.getElem?_eq_some_iff.mp hrequest).1

theorem Batch.InOrder.last_done (h : batch.InOrder s.trading)
    (hready : batch.pc = .gate ∧ s.lifecycle.state = .ready ∨
      batch.pc = .submitting ∧ ∃ request, s.current batch = some (.submit (.done request .success))) :
    ∀ n ∈ batch.begun.getLast?, ∃ request, At s.trading n (.done request .success) := by
  rcases hready with ⟨hgate, -⟩ | ⟨-, request, hcurrent⟩
  · have hnone : batch.begun = [] := by
      have houtcome := h.outcome
      unfold Batch.Outcome at houtcome
      rw [hgate] at houtcome
      exact houtcome
    intro n hn
    rw [hnone] at hn
    cases hn
  · obtain ⟨n, hn, hat⟩ := current_iff.mp hcurrent
    intro n' hn'
    cases Option.mem_unique hn hn'
    exact ⟨request, hat⟩

theorem BatchStep.inOrder (h : BatchStep s batch s' batch') (hb : batch.InOrder s.trading) :
    batch'.InOrder s'.trading := by
  cases h with
  | refused hpc =>
    have houtcome := hb.outcome
    unfold Batch.Outcome at houtcome
    rw [hpc] at houtcome
    refine ⟨hb.requests, hb.earlier, ?_⟩
    unfold Batch.Outcome
    exact Or.inl ⟨houtcome, rfl⟩
  | begun request hrequest hready =>
    have hlast := hb.last_done hready
    have hkeeps : Keeps s.trading
        { s.trading with calls := s.trading.calls ++ [callEntry (.submit request)] } := .of_append rfl
    have hb' := hb.keeps hkeeps
    refine ⟨fun j n hj => ?_, fun j n hj hlt => ?_, by simp [Batch.Outcome]⟩
    · rcases Calls.Program.getElem?_start hj with hold | ⟨rfl, rfl⟩
      · exact hb'.requests j n hold
      · exact ⟨.compliance request, by simp [At, callEntry], hrequest⟩
    · rw [List.length_append, List.length_singleton] at hlt
      have hold : batch.begun[j]? = some n := by
        rw [← hj]
        exact (List.getElem?_append_left (by omega)).symm
      by_cases hbefore : j + 1 < batch.begun.length
      · exact hb'.earlier j n hold hbefore
      · -- The one before the new call has just ended.
        have hmem : n ∈ batch.begun.getLast? := by
          rw [List.getLast?_eq_getElem?, show batch.begun.length - 1 = j by omega]
          exact hold
        obtain ⟨request', hat⟩ := hlast n hmem
        exact ⟨request', hat.keeps hkeeps rfl⟩
  | finished hend hready =>
    refine ⟨hb.requests, hb.earlier, ?_⟩
    unfold Batch.Outcome
    exact ⟨Nat.le_antisymm hb.length_le hend, hb.last_done hready⟩
  | failed request rc hpc hcurrent hrc =>
    refine ⟨hb.requests, hb.earlier, ?_⟩
    unfold Batch.Outcome
    dsimp only
    rw [if_neg hrc]
    obtain ⟨n, hn, hat⟩ := current_iff.mp hcurrent
    exact Or.inr ⟨n, hn, request, hat⟩
  | threw request hpc hcurrent =>
    refine ⟨hb.requests, hb.earlier, ?_⟩
    obtain ⟨n, hn, hat⟩ := current_iff.mp hcurrent
    exact ⟨n, hn, request, hat⟩

end InOrder

/-! ## Every call belongs to one batch -/

/-- The numbers of all calls that the batches have begun. -/
def begunCalls (c : Senders) : List Nat := c.calls.flatMap Batch.begun

/-- Each call of `Submit` was begun by one batch, once. -/
structure Owned (c : Senders) : Prop where
  once : (begunCalls c).Nodup
  all : ∀ n, n ∈ begunCalls c ↔ ∃ pc, At c.shared.trading n pc

section Owned

variable {c c' : Senders}

theorem Owned.of_same (h : Owned c) (hbegun : (begunCalls c').Perm (begunCalls c))
    (hat : ∀ n, (∃ pc, At c'.shared.trading n pc) ↔ ∃ pc, At c.shared.trading n pc) : Owned c' :=
  ⟨hbegun.nodup_iff.mpr h.once, fun n => hbegun.mem_iff.trans ((h.all n).trans (hat n).symm)⟩

theorem step_at_iff {t t' : System} {a : Action} (hother : isSubmit a = false) (h : step t a = some t') (n : Nat) :
    (∃ pc, At t' n pc) ↔ ∃ pc, At t n pc := by
  constructor
  · rintro ⟨pc, hpc⟩
    cases a with
    | start call =>
      cases h
      rcases Calls.Program.getElem?_start hpc with hold | ⟨-, hnew⟩
      · exact ⟨pc, hold⟩
      · cases call with
        | submit request => cases hother
        | cancel orderId => cases hnew
    | resume index answer =>
      obtain ⟨p, p', hp, hnext, hcalls⟩ := Calls.Program.step_resume h
      unfold At at hpc
      rw [hcalls] at hpc
      rcases Calls.Program.getElem?_resume hpc with ⟨rfl, rfl⟩ | ⟨-, hold⟩
      · cases p with
        | submit p => exact ⟨p, hp⟩
        | cancel p =>
          change (if answer = .silent then (t.shared.cancelNext p).map _ else none) = _ at hnext
          split at hnext
          case isTrue =>
            obtain ⟨r, -, heq⟩ := Option.map_eq_some_iff.mp hnext
            cases (Prod.mk.inj heq).2
          case isFalse => cases hnext
      · exact ⟨pc, hold⟩
    | environment event =>
      obtain ⟨-, hcalls⟩ := Calls.Program.step_environment h
      unfold At at hpc
      rw [hcalls] at hpc
      exact ⟨pc, hpc⟩
  · rintro ⟨pc, hpc⟩
    obtain ⟨pc', hpc', -⟩ := step_keeps h n pc hpc
    exact ⟨pc', hpc'⟩

theorem begunCalls_resume {index : Nat} {batch batch' : Batch} (hbatch : c.calls[index]? = some batch)
    (hcalls : c'.calls = c.calls.set index batch') {new : List Nat} (hbegun : batch'.begun = batch.begun ++ new) :
    (begunCalls c').Perm (new ++ begunCalls c) := by
  unfold begunCalls
  rw [hcalls]
  have hafter := (Calls.Program.set_perm hbatch batch').flatMap_right Batch.begun
  have hbefore := (Calls.Program.perm_others hbatch).flatMap_right Batch.begun
  rw [List.flatMap_cons] at hafter hbefore
  rw [hbegun] at hafter
  have hmiddle : (batch.begun ++ new ++ (c.calls.eraseIdx index).flatMap Batch.begun).Perm
      (new ++ (batch.begun ++ (c.calls.eraseIdx index).flatMap Batch.begun)) := by
    rw [← List.append_assoc]
    exact List.perm_append_comm.append_right _
  exact hafter.trans (hmiddle.trans (hbefore.symm.append_left new))

theorem BatchStep.begins {s s' : Gateway} {batch batch' : Batch} (h : BatchStep s batch s' batch') :
    batch'.begun = batch.begun ∧ s'.trading = s.trading ∨
      batch'.begun = batch.begun ++ [s.trading.calls.length] ∧ ∃ request,
        s'.trading.calls = s.trading.calls ++ [.submit (.compliance request)] := by
  cases h with
  | begun request => exact Or.inr ⟨rfl, request, rfl⟩
  | _ => exact Or.inl ⟨rfl, rfl⟩

theorem at_append_iff {t t' : System} {request : OrderRequest}
    (h : t'.calls = t.calls ++ [.submit (.compliance request)]) (n : Nat) :
    (∃ pc, At t' n pc) ↔ n = t.calls.length ∨ ∃ pc, At t n pc := by
  constructor
  · rintro ⟨pc, hpc⟩
    unfold At at hpc
    rw [h] at hpc
    rcases Calls.Program.getElem?_start hpc with hold | ⟨hn, -⟩
    · exact Or.inr ⟨pc, hold⟩
    · exact Or.inl hn
  · rintro (rfl | ⟨pc, hpc⟩)
    · exact ⟨.compliance request, by simp [At, h]⟩
    · obtain ⟨pc', hpc', -⟩ := Keeps.of_append h n pc hpc
      exact ⟨pc', hpc'⟩

theorem step_owned {a : Calls.Action (List OrderRequest) Unit GatewayEvent} (h : Owned c)
    (hs : orderSender.step c a = some c') : Owned c' := by
  cases a with
  | start requests =>
    cases hs
    refine h.of_same ?_ fun n => Iff.rfl
    simp [begunCalls, orderSender]
  | resume index input =>
    obtain ⟨batch, batch', hbatch, hnext, hcalls⟩ := Calls.Program.step_resume hs
    rcases (next_step hnext).begins with ⟨hbegun, htrading⟩ | ⟨hbegun, request, htrading⟩
    · have hsame : batch'.begun = batch.begun ++ [] := by rw [hbegun, List.append_nil]
      exact h.of_same (begunCalls_resume hbatch hcalls hsame) fun n => by rw [htrading]
    · have hperm := begunCalls_resume hbatch hcalls hbegun
      have hnew : c.shared.trading.calls.length ∉ begunCalls c := by
        intro hmem
        obtain ⟨pc, hpc⟩ := (h.all _).mp hmem
        exact absurd (List.getElem?_eq_some_iff.mp hpc).1 (Nat.lt_irrefl _)
      refine ⟨hperm.nodup_iff.mpr (List.nodup_cons.mpr ⟨hnew, h.once⟩), fun n => ?_⟩
      rw [hperm.mem_iff, at_append_iff htrading, ← h.all n]
      exact List.mem_cons
  | environment event =>
    obtain ⟨henv, hcalls⟩ := Calls.Program.step_environment hs
    have hperm : (begunCalls c').Perm (begunCalls c) := by
      unfold begunCalls
      rw [hcalls]
    cases event with
    | trading action =>
      change (if isSubmit action then none else _) = _ at henv
      split at henv
      case isTrue => cases henv
      case isFalse hother =>
        obtain ⟨trading, hstep, heq⟩ := Option.map_eq_some_iff.mp henv
        refine h.of_same hperm fun n => ?_
        rw [← heq]
        exact step_at_iff (by simpa using hother) hstep n
    | transition target reason =>
      refine h.of_same hperm fun n => ?_
      rw [← Option.some.inj henv]

end Owned

/-- Batches in order, over a run. -/
def inOrderOutline : Calls.Program.Outline orderSender Runs.anyStep where
  inv _ := True
  holds s _ batch := batch.InOrder s.trading
  rely _ s s' := Keeps s.trading s'.trading
  start _ _ _ _ := ⟨fun _ _ h => by simp [orderSender] at h, fun _ _ h => by simp [orderSender] at h, rfl⟩
  resume c index batch input s' batch' _ hb _ _ hnext := by
    have hstep := next_step hnext
    refine ⟨trivial, hstep.inOrder hb, fun _ _ => ?_⟩
    rcases hstep.begins with ⟨-, htrading⟩ | ⟨-, request, htrading⟩
    · rw [htrading]
      exact .refl _
    · exact .of_append htrading
  environment c event s' _ _ henv := by
    refine ⟨trivial, fun _ => ?_⟩
    cases event with
    | trading action =>
      change (if isSubmit action then none else _) = _ at henv
      split at henv
      case isTrue => cases henv
      case isFalse =>
        obtain ⟨trading, hstep, heq⟩ := Option.map_eq_some_iff.mp henv
        rw [← heq]
        exact step_keeps hstep
    | transition target reason =>
      rw [← Option.some.inj henv]
      exact .refl _
  stable _ _ _ _ hkeeps hb := hb.keeps hkeeps

/-- In every run of the senders, each batch submits its requests in order and stops at the first that fails, returning
its answer, and every call of `Submit` belongs to one place of one batch. -/
theorem batches_in_order {c : Senders} {start : Gateway} (hstart : start.trading.calls = [])
    (h : Runs.Reaches orderSender.step Runs.anyStep { shared := start, calls := [] } c) :
    (∀ (i : Nat) batch, c.calls[i]? = some batch → batch.InOrder c.shared.trading) ∧ Owned c := by
  constructor
  · have hvalid : inOrderOutline.Valid { shared := start, calls := [] } :=
      ⟨trivial, fun index batch hbatch => by simp at hbatch⟩
    exact (inOrderOutline.valid_of_reaches h hvalid).2
  · have howned : Owned { shared := start, calls := [] } := by
      refine ⟨List.nodup_nil, fun n => ?_⟩
      simp [begunCalls, At, hstart]
    exact h.invariant howned fun _ _ _ ho _ hs => step_owned ho hs

/-- Three requests, the second without a volume. -/
def emptySecond : List OrderRequest := [limitBuy, { limitBuy with clientOrderId := 2, volume := 0 }, limitBuy]

def refusedSecond : List (Calls.Action (List OrderRequest) Unit GatewayEvent) :=
  [.start emptySecond, .resume 0 ()] ++ submitAndSend 0 ++
    [.resume 0 (), .environment (.trading (.resume 1 .silent)), .resume 0 ()]

/-- The third is not submitted. -/
theorem batches_in_order_refused : ∃ c : Senders, Runs.Reaches orderSender.step Runs.anyStep readySenders c ∧
    (∃ batch ∈ c.calls[0]?, batch.begun = [0, 1] ∧ batch.pc = .returned .systemError ∧
      batch.InOrder c.shared.trading) ∧ Owned c := by
  have hrun : ∃ c ∈ Runs.exec orderSender.step readySenders refusedSecond, ∃ batch ∈ c.calls[0]?,
      batch.begun = [0, 1] ∧ batch.pc = .returned .systemError := by decide +kernel
  obtain ⟨c, hc, batch, hbatch, hbegun, hpc⟩ := hrun
  have hreach := Runs.reaches_of_exec _ hc
  have hstart : readySenders.shared.trading.calls = [] := rfl
  obtain ⟨hinOrder, howned⟩ := batches_in_order hstart hreach
  exact ⟨c, hreach, ⟨batch, hbatch, hbegun, hpc, hinOrder 0 batch hbatch⟩, howned⟩

end Qtrade.Trading
