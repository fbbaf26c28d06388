import Qtrade.Oms.Operations

/-!
# Lifecycles only move forward

No operation on a running manager drops an order or moves it against the state graph. On the way to the
venue the graph is a line, so no order comes back to a state there that it has left.
-/

namespace Qtrade.Oms

open OrderEntry

/-! ## The way to the venue -/

/-- The states before the order is at the venue. -/
def OrderLifecycleState.beforeVenue (l : OrderLifecycleState) : Bool := decide (l.rank < 3)

theorem eq_of_rank {l l' : OrderLifecycleState} (hl : l.beforeVenue = true) (h : l'.rank = l.rank) : l' = l := by
  cases l <;> cases l' <;> simp_all [OrderLifecycleState.beforeVenue, OrderLifecycleState.rank]

theorem eq_of_canTransition_emsQueued {l : OrderLifecycleState} (h : canTransition l .emsQueued = true) :
    l = .emsQueued ∨ l = .prepared := by
  cases l <;> simp_all [canTransition]

theorem eq_of_canTransition_sendPending {l : OrderLifecycleState} (h : canTransition l .sendPending = true) :
    l = .sendPending ∨ l = .emsQueued := by
  cases l <;> simp_all [canTransition]

theorem adoptedEntry_rank (report : Order) (id : String) : (adoptedEntry report id).lifecycleState.rank = 3 := by
  cases hs : report.status <;> simp [adoptedEntry, lifecycleFromOrderStatus, OrderLifecycleState.rank, hs]

namespace OrderManager

/-- `Initialize` and `Shutdown`. -/
def Operation.restarts : Operation → Bool
  | .initializeWith _ | .shutdown => true
  | _ => false

/-- The manager goes on with what it has, and ids that are new to it are no keys yet. -/
def continues (s : OrderManager) (a : Operation) : Bool := !a.restarts && s.freshIds a

variable {s s' s'' : OrderManager} {a : Operation} {id : String} {e e' e'' : OrderEntry}

/-! ## One operation -/

/-- A new entry under an id that was free. The order is new, or at the venue. -/
structure Adds (s s' : OrderManager) (id : String) (e : OrderEntry) : Prop where
  free : s.orders.lookup id = none
  lookup : ∀ id', s'.orders.lookup id' = if id' = id then some e else s.orders.lookup id'
  state : e.lifecycleState = .prepared ∨ e.lifecycleState.rank = 3

theorem createOrder_adds (s : OrderManager) (request : OrderRequest) (hfresh : s.orders.lookup id = none) :
    (s.createOrder request id).2 = s ∨ Adds s (s.createOrder request id).2 id (newEntry request id) := by
  apply (createOrder_cases s request id).imp_right
  rintro ⟨_, _, _, hborn⟩
  rw [hborn]
  exact ⟨hfresh, lookup_born s request id, Or.inl rfl⟩

theorem adopt_adds {t : OrderManager} {report : Order} (horders : t.orders = s.orders)
    (hfresh : s.orders.lookup id = none) : Adds s (t.adopt report id) id (adoptedEntry report id) := by
  refine ⟨hfresh, fun id' => ?_, Or.inr (adoptedEntry_rank report id)⟩
  rw [lookup_adopt, horders]

/-- Every entry advances where it is, or one is added. -/
theorem perform_forward (hok : s.continues a = true) :
    Evolves Advances s (s.perform a) ∨ ∃ id e, Adds s (s.perform a) id e := by
  have hsettles : ∀ {s'}, Evolves Settles s s' → Evolves Advances s s' := fun h => h.mono fun _ _ ha => ha.toAdvances
  simp only [continues, Bool.and_eq_true, Bool.not_eq_true'] at hok
  obtain ⟨hgoes, hfresh⟩ := hok
  induction a with
  | initializeWith options => cases hgoes
  | shutdown => cases hgoes
  | allocateOrderId => exact Or.inl (hsettles (allocateOrderId_evolves s))
  | createOrder request orderId =>
    have hnone : s.orders.lookup orderId = none := Finmap.lookup_eq_none.mpr (by simpa [freshIds] using hfresh)
    rcases createOrder_adds s request hnone with hsame | hadds
    · exact Or.inl (.of_eq Advances.refl hsame)
    · exact Or.inr ⟨_, _, hadds⟩
  | createOrderAllocating request =>
    have hnone : s.allocateOrderId.2.orders.lookup s.nextOrderId = none :=
      Finmap.lookup_eq_none.mpr (by simpa [freshIds, OrderManager.allocateOrderId] using hfresh)
    rcases createOrder_adds s.allocateOrderId.2 request hnone with hsame | hadds
    · have hallocated := hsettles (allocateOrderId_evolves s)
      rw [← hsame] at hallocated
      exact Or.inl hallocated
    · exact Or.inr ⟨_, _, hadds.free, hadds.lookup, hadds.state⟩
  | reconcileBrokerOrder report =>
    rcases reconcileBrokerOrder_cases s report with
      ⟨key, e, hf, _, _⟩ | ⟨_, hf, _, hs⟩ | ⟨hnew, hs⟩ | ⟨_, hs⟩
    · exact Or.inl (hsettles (reconcileBrokerOrder_found hf))
    · right
      rw [perform, hs]
      refine ⟨_, _, adopt_adds rfl ?_⟩
      by_contra hsome
      obtain ⟨e, he⟩ := Option.ne_none_iff_exists'.mp hsome
      simp [findOrderLocked, he] at hf
    · right
      rw [perform, hs]
      refine ⟨_, _, adopt_adds (t := s.allocateOrderId.2) rfl (Finmap.lookup_eq_none.mpr ?_)⟩
      simpa [freshIds, hnew] using hfresh
    · exact Or.inl (.of_eq Advances.refl hs)
  | applyOrderReport report => exact Or.inl (hsettles (applyOrderReport_evolves s report))
  | applyTradeReport report => exact Or.inl (hsettles (applyTradeReport_evolves s report))
  | markReconciled orderId =>
    left
    rw [perform]
    unfold OrderManager.markReconciled
    have hrefl := Evolves.refl Advances.refl s
    split
    · exact ⟨rfl, rfl, hrefl.entries⟩
    · exact hrefl
  | cancelOrder orderId => exact Or.inl (hsettles (cancelOrder_evolves s orderId))
  | markEmsQueued orderId => exact Or.inl (markEmsQueued_evolves s orderId)
  | markSendPending orderId => exact Or.inl (markSendPending_evolves s orderId)
  | recordSendResult orderId result => exact Or.inl (hsettles (recordSendResult_evolves s orderId result))
  | recordCancelResult orderId result => exact Or.inl (hsettles (recordCancelResult_evolves s orderId result))

theorem forward_lookup (hok : s.continues a = true) (he : s.orders.lookup id = some e) :
    ∃ e', (s.perform a).orders.lookup id = some e' ∧ e.Advances e' := by
  rcases perform_forward hok with hevolves | ⟨newId, e₁, hadds⟩
  · exact hevolves.lookup he
  · refine ⟨e, ?_, Advances.refl e⟩
    rw [hadds.lookup, if_neg]
    · exact he
    · rintro rfl
      rw [hadds.free] at he
      cases he

theorem forward_origin (hok : s.continues a = true) (he' : (s.perform a).orders.lookup id = some e') :
    (∃ e, s.orders.lookup id = some e ∧ e.Advances e') ∨
      e'.lifecycleState = .prepared ∨ e'.lifecycleState.rank = 3 := by
  rcases perform_forward hok with hevolves | ⟨newId, e₁, hadds⟩
  · exact Or.inl (hevolves.origin he')
  · rw [hadds.lookup] at he'
    split at he'
    · cases he'
      exact Or.inr hadds.state
    · exact Or.inl ⟨e', he', Advances.refl e'⟩

/-- An order that gets into the queue or to sending was one state before, in the same manager. -/
theorem perform_enters (hok : s.continues a = true) (he' : (s.perform a).orders.lookup id = some e')
    (hl : e'.lifecycleState = .emsQueued ∨ e'.lifecycleState = .sendPending) :
    ∃ e, s.orders.lookup id = some e ∧ canTransition e.lifecycleState e'.lifecycleState = true := by
  rcases forward_origin hok he' with ⟨e, he, ha⟩ | hprepared | hrank
  · exact ⟨e, he, ha.edge⟩
  · rcases hl with hl | hl <;> rw [hl] at hprepared <;> cases hprepared
  · rcases hl with hl | hl <;> simp [hl, OrderLifecycleState.rank] at hrank

/-! ## Runs -/

theorem lookup_of_continues (h : Runs.Reaches run (fun s a => s.continues a = true) s s')
    (he : s.orders.lookup id = some e) :
    ∃ e', s'.orders.lookup id = some e' ∧ e.lifecycleState.rank ≤ e'.lifecycleState.rank := by
  apply h.invariant ⟨e, he, le_refl _⟩
  rintro s₁ a _ ⟨e₁, he₁, hle⟩ hok ⟨⟩
  obtain ⟨e₂, he₂, ha⟩ := forward_lookup hok he₁
  exact ⟨e₂, he₂, hle.trans ha.rank_le⟩

theorem left_for_good (h : Runs.Reaches run (fun s a => s.continues a = true) s s')
    (h' : Runs.Reaches run (fun s a => s.continues a = true) s' s'') (he : s.orders.lookup id = some e)
    (he' : s'.orders.lookup id = some e') (he'' : s''.orders.lookup id = some e'')
    (hl : e.lifecycleState.beforeVenue = true) (hleft : e'.lifecycleState ≠ e.lifecycleState) :
    e''.lifecycleState ≠ e.lifecycleState := by
  obtain ⟨e₁, he₁, hle⟩ := lookup_of_continues h he
  obtain rfl := Option.some.inj (he₁.symm.trans he')
  obtain ⟨e₂, he₂, hle'⟩ := lookup_of_continues h' he'
  obtain rfl := Option.some.inj (he₂.symm.trans he'')
  intro hback
  rw [hback] at hle'
  exact hleft (eq_of_rank hl (le_antisymm hle' hle))

/-- Whatever operations a running manager performs, each of them keeps every order, and moves it along an
edge of the state graph or not at all. An order enters the queue from `prepared` only and sending from
the queue only, and a state before the venue that it has left it never enters again. -/
theorem lifecycles_forward (h : Runs.Reaches run (fun s a => s.continues a = true) s s') :
    (∀ a, s'.continues a = true → ∀ id e, s'.orders.lookup id = some e →
      ∃ e', (s'.perform a).orders.lookup id = some e' ∧
        (e'.lifecycleState = e.lifecycleState ∨ canTransition e.lifecycleState e'.lifecycleState = true)) ∧
    (∀ a, s'.continues a = true → ∀ id e', (s'.perform a).orders.lookup id = some e' →
      (e'.lifecycleState = .emsQueued → ∃ e, s'.orders.lookup id = some e ∧
        (e.lifecycleState = .emsQueued ∨ e.lifecycleState = .prepared)) ∧
      (e'.lifecycleState = .sendPending → ∃ e, s'.orders.lookup id = some e ∧
        (e.lifecycleState = .sendPending ∨ e.lifecycleState = .emsQueued))) ∧
    ∀ id e, s.orders.lookup id = some e →
      (e.lifecycleState = .prepared ∨ e.lifecycleState = .emsQueued ∨ e.lifecycleState = .sendPending) →
      ∃ e', s'.orders.lookup id = some e' ∧ (e'.lifecycleState ≠ e.lifecycleState →
        ∀ s'' e'', Runs.Reaches run (fun s a => s.continues a = true) s' s'' →
          s''.orders.lookup id = some e'' → e''.lifecycleState ≠ e.lifecycleState) := by
  refine ⟨fun a hok id e he => ?_, fun a hok id e' he' => ⟨fun hl => ?_, fun hl => ?_⟩, fun id e he hl => ?_⟩
  · obtain ⟨e', he', ha⟩ := forward_lookup hok he
    exact ⟨e', he', Or.inr ha.edge⟩
  · obtain ⟨e, he, hedge⟩ := perform_enters hok he' (Or.inl hl)
    rw [hl] at hedge
    exact ⟨e, he, eq_of_canTransition_emsQueued hedge⟩
  · obtain ⟨e, he, hedge⟩ := perform_enters hok he' (Or.inr hl)
    rw [hl] at hedge
    exact ⟨e, he, eq_of_canTransition_sendPending hedge⟩
  · obtain ⟨e', he', _⟩ := lookup_of_continues h he
    refine ⟨e', he', fun hleft s'' e'' h' he'' => ?_⟩
    apply left_for_good h h' he he' he'' _ hleft
    rcases hl with hl | hl | hl <;> rw [hl] <;> rfl

/-- An order is queued, and a report of the broker finds it there. -/
theorem lifecycles_forward_queued : ∃ s s' : OrderManager,
    Runs.Reaches run (fun s a => s.continues a = true) s s' ∧
    ∃ e ∈ s.orders.lookup "o", e.lifecycleState = .prepared ∧
      ∃ e' ∈ s'.orders.lookup "o", e'.lifecycleState = .emsQueued ∧
        ∀ s'' e'', Runs.Reaches run (fun s a => s.continues a = true) s' s'' →
          s''.orders.lookup "o" = some e'' → e''.lifecycleState ≠ .prepared := by
  have hrun : ∃ s ∈ Runs.exec run {} [.initializeWith ⟨"t", "e", 1⟩, .createOrder { volume := 2 } "o"],
      ∃ s' ∈ Runs.execWhile run (fun s a => s.continues a = true) s
        [.markEmsQueued "o", .applyOrderReport { orderId := "o", volume := 2, status := .notTradedQueueing }],
      ∃ e ∈ s.orders.lookup "o", e.lifecycleState = .prepared ∧
        ∃ e' ∈ s'.orders.lookup "o", e'.lifecycleState = .emsQueued := by decide +kernel
  obtain ⟨s, _, s', hs', e, he, hl, e', he', hl'⟩ := hrun
  have hreach := Runs.reaches_of_execWhile _ hs'
  obtain ⟨e₁, he₁, hgone⟩ := (lifecycles_forward hreach).2.2 "o" e he (Or.inl hl)
  obtain rfl := Option.some.inj (he₁.symm.trans he')
  refine ⟨s, s', hreach, e, he, hl, e₁, he', hl', fun s'' e'' h'' he'' => ?_⟩
  rw [← hl]
  exact hgone (by rw [hl, hl']; decide) s'' e'' h'' he''

end OrderManager

end Qtrade.Oms
