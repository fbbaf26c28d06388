import Qtrade.Engine.LaneMoves

/-!
# The books before the strategies

Lane-T calls its handlers in the order in which they were subscribed. `Start` subscribes the books, and the
strategies come before or after them, depending on when their dispatcher was made.
-/

namespace Qtrade.Engine

namespace EventLanes

/-- Whenever strategies were told of a report, the books had been updated for it. -/
def BooksFirst : List Happening → Prop
  | [] => True
  | .booked _ :: past => BooksFirst past
  | .called _ _ event told :: past =>
    (event.item.type.lane = .trader → told ≠ [] → .booked event ∈ past) ∧ BooksFirst past

/-- `Start` finds no dispatcher or no strategies when it subscribes the books. -/
def booksNext (s : EventLanes) : LaneAction → Bool
  | .control =>
    match s.pending with
    | .subscribeBooks _ :: _ => s.manager.dispatcher.isNone || s.manager.strategies.isEmpty
    | _ => true
  | _ => true

/-! ## The invariant -/

/-- The books' handler is the first, or there is nobody to tell. -/
def Wired (s : EventLanes) (type : EventType) : Prop :=
  ((s.lanes .trader).handlers type).head? = some .books ∨ s.manager.strategies = []

/-- What is subscribed to the lanes, and what they carry. -/
structure Tidy (s : EventLanes) : Prop where
  subscribed : ∀ lane type number, .strategies number ∈ (s.lanes lane).handlers type →
    s.manager.dispatcher ≠ none ∨ .clearHandlers lane ∈ s.pending
  emptied : ∀ lane, .clearHandlers lane ∈ s.pending → .clearStrategies ∈ s.pending ∨ s.manager.strategies = []
  queued : ∀ lane, ∀ event ∈ (s.lanes lane).queue, event.item.type.lane = lane
  holding : ∀ lane event, (s.lanes lane).thread = .holding event → event.item.type.lane = lane
  handling : ∀ lane event rest, (s.lanes lane).thread = .handling event rest → event.item.type.lane = lane

/-- Where Lane-T stands between `Start` and `Stop`. -/
structure Running (s : EventLanes) : Prop where
  spawned : .spawn .trader ∈ s.pending → (s.lanes .trader).running = true
  present : (s.lanes .trader).thread ≠ .absent → (s.lanes .trader).running = true ∨ .join .trader ∈ s.pending
  running : (s.lanes .trader).running = true →
    s.engine.running = true ∨ .startEngine ∈ s.pending ∨ .stopLane .trader ∈ s.pending

structure Ahead (s : EventLanes) : Prop where
  toStart : .startLane .trader ∈ s.pending → ∀ type, type.lane = .trader →
    .subscribeBooks type ∈ s.pending ∨ s.Wired type
  wired : (s.lanes .trader).running = true ∨ (s.lanes .trader).thread ≠ .absent →
    ∀ type, type.lane = .trader → s.Wired type
  inHand : ∀ event rest, (s.lanes .trader).thread = .handling event rest →
    .booked event ∈ s.log ∨ rest.head? = some .books ∨ s.manager.strategies = []
  log : BooksFirst s.log

variable {s s' : EventLanes} {op : Op} {rest : List Op}

/-! ### Operations -/

theorem Performs.was_pending (hs : Performs { s with pending := rest } op s') (hpending : s.pending = op :: rest)
    {o : Op} (hbrings : o ∉ op.brings) (ho : o ∈ s'.pending) : o ∈ s.pending := by
  rw [hpending]
  exact List.mem_cons_of_mem _ ((hs.mem_pending ho).resolve_left hbrings)

theorem Performs.no_strategies (hs : Performs s op s') (hnone : s.manager.strategies = []) :
    s'.manager.strategies = [] := by
  cases hs with
  | clearStrategies => rfl
  | activate | deactivate => exact StrategyManager.onDispatcher_strategies.trans hnone
  | _ => exact hnone

theorem Performs.clearStrategies_none (hs : Performs s .clearStrategies s') : s'.manager.strategies = [] := by
  cases hs with
  | clearStrategies => rfl
  | engine _ _ _ hop => simp at hop
  | skip _ hop => simp at hop

theorem Tidy.perform (h : s.Tidy) (horderly : s.Orderly) (hpending : s.pending = op :: rest)
    (hs : Performs { s with pending := rest } op s') : s'.Tidy := by
  refine ⟨?_, ?_, ?_, ?_, ?_⟩
  · intro lane type number hmem
    rcases hs.handlers lane type with ⟨hne, more, hmore, hnew⟩ | ⟨_, hnone⟩
    · rw [hmore] at hmem
      rcases List.mem_append.mp hmem with hold | hadded
      · rcases h.subscribed lane type number hold with hd | hclears
        · rcases hs.dispatcher with hsame | hsome | rfl
          · exact Or.inl (hsame ▸ hd)
          · exact Or.inl hsome
          · have horder := horderly.inOrder
            rw [hpending] at horder
            obtain ⟨more, hmore, _⟩ := hs.pending
            exact Or.inr (hmore ▸ List.mem_append_right _ (horder.1 lane))
        · exact Or.inr (hs.pending_mem hpending hne hclears)
      · exact Or.inl (by simp [hnew number hadded])
    · rw [hnone] at hmem
      cases hmem
  · intro lane hmem
    have hwas := hs.was_pending hpending (by cases op <;> simp [Op.brings, Op.dispatcherOps]) hmem
    rcases h.emptied lane hwas with hclears | hnone
    · by_cases hop : op = .clearStrategies
      · subst hop
        exact Or.inr hs.clearStrategies_none
      · exact Or.inl (hs.pending_mem hpending hop hclears)
    · exact Or.inr (hs.no_strategies hnone)
  · intro lane event hmem
    rcases hs.queue lane with hsame | hempty
    · rw [hsame] at hmem
      exact h.queued lane event hmem
    · rw [hempty] at hmem
      cases hmem
  · intro lane event hthread
    rcases hs.thread lane with hsame | ⟨_, hwaiting⟩ | ⟨_, habsent⟩
    · rw [hsame] at hthread
      exact h.holding lane event hthread
    · rw [hwaiting] at hthread
      cases hthread
    · rw [habsent] at hthread
      cases hthread
  · intro lane event held hthread
    rcases hs.thread lane with hsame | ⟨_, hwaiting⟩ | ⟨_, habsent⟩
    · rw [hsame] at hthread
      exact h.handling lane event held hthread
    · rw [hwaiting] at hthread
      cases hthread
    · rw [habsent] at hthread
      cases hthread

theorem Orderly.not_both (h : s.Orderly) {o o' : Op} (ho : o ∈ s.pending) (ho' : o' ∈ s.pending)
    (hkind : o.releases ≠ o'.releases) : False := by
  rcases h.oneKind with hall | hall
  · exact hkind ((hall o ho).trans (hall o' ho').symm)
  · exact hkind ((hall o ho).trans (hall o' ho').symm)

theorem Running.perform (h : s.Running) (horderly : s.Orderly) (hpending : s.pending = op :: rest)
    (hs : Performs { s with pending := rest } op s') : s'.Running := by
  have hop : op ∈ s.pending := by simp [hpending]
  refine ⟨?_, ?_, ?_⟩
  · intro hmem
    rcases hs.mem_pending hmem with hbrings | hold
    · have hstart : op = .startLane .trader := by
        revert hbrings
        cases op <;> simp [Op.brings, Op.dispatcherOps, eq_comm]
      subst hstart
      exact hs.startLane_running
    · have hmem : .spawn .trader ∈ s.pending := by simp [hpending, hold]
      rcases hs.running .trader with hsame | ⟨_, hrunning⟩ | ⟨rfl, _⟩
      · rw [hsame]
        exact h.spawned hmem
      · exact hrunning
      · exact (horderly.not_both hop hmem (by decide)).elim
  · intro hthread
    have hrunning : (s.lanes .trader).running = true →
        (s'.lanes .trader).running = true ∨ .join .trader ∈ s'.pending := by
      intro hrunning
      rcases hs.running .trader with hsame | ⟨_, hstarted⟩ | ⟨_, _, hjoin⟩
      · exact Or.inl (hsame.trans hrunning)
      · exact Or.inl hstarted
      · exact Or.inr hjoin
    rcases hs.thread .trader with hsame | ⟨rfl, _⟩ | ⟨_, habsent⟩
    · rcases h.present (hsame ▸ hthread) with hold | hjoin
      · exact hrunning hold
      · by_cases hop : op = .join .trader
        · subst hop
          exact absurd hs.join_thread hthread
        · exact Or.inr (hs.pending_mem hpending hop hjoin)
    · exact hrunning (h.spawned hop)
    · exact absurd habsent hthread
  · intro hrunning
    rcases hs.running .trader with hsame | ⟨rfl, _⟩ | ⟨_, hstopped, _⟩
    · rcases h.running (hsame ▸ hrunning) with hengine | hstart | hstop
      · exact Or.inl (hs.engine_running.elim (fun heq => heq.trans hengine) id)
      · by_cases hop : op = .startEngine
        · subst hop
          exact Or.inl hs.startEngine_running
        · exact Or.inr (Or.inl (hs.pending_mem hpending hop hstart))
      · by_cases hop : op = .stopLane .trader
        · subst hop
          have hstopped := hs.stopLane_running
          rw [hrunning] at hstopped
          cases hstopped
        · exact Or.inr (Or.inr (hs.pending_mem hpending hop hstop))
    · have horder := horderly.inOrder
      rw [hpending] at horder
      exact Or.inr (Or.inl (hs.pending_mem hpending (fun h => by cases h) (by simp [hpending, horder.1.1])))
    · rw [hrunning] at hstopped
      cases hstopped

theorem Wired.perform {type : EventType} (h : s.Wired type) (htidy : s.Tidy) (horderly : s.Orderly)
    (hpending : s.pending = op :: rest) (hs : Performs { s with pending := rest } op s') : s'.Wired type := by
  have hcleared : op = .clearHandlers .trader → s.manager.strategies = [] := by
    rintro rfl
    have horder := horderly.inOrder
    rw [hpending] at horder
    rcases htidy.emptied .trader (by simp [hpending]) with hclears | hnone
    · rw [hpending] at hclears
      exact absurd ((List.mem_cons.mp hclears).resolve_left fun h => by cases h) horder.1
    · exact hnone
  rcases h with hfirst | hnone
  · rcases hs.handlers .trader type with ⟨_, more, hmore, _⟩ | ⟨hop, _⟩
    · left
      have hafter : (s'.lanes .trader).handlers type = (s.lanes .trader).handlers type ++ more := hmore
      rw [hafter, List.head?_append, hfirst]
      rfl
    · exact Or.inr (hs.no_strategies (hcleared hop))
  · exact Or.inr (hs.no_strategies hnone)

theorem Tidy.subscribeBooks (h : s.Tidy) (horderly : s.Orderly) {type : EventType} (htype : type.lane = .trader)
    (hpending : s.pending = .subscribeBooks type :: rest) (hok : s.booksNext .control = true)
    (hs : Performs { s with pending := rest } (.subscribeBooks type) s') : s'.Wired type := by
  have hok : s.manager.dispatcher = none ∨ s.manager.strategies = [] := by
    simpa [booksNext, hpending] using hok
  rcases hok with hnone | hnone
  · left
    have hnobody : ∀ number, .strategies number ∉ (s.lanes .trader).handlers type := by
      intro number hmem
      rcases h.subscribed .trader type number hmem with hd | hclears
      · exact hd hnone
      · exact horderly.not_both (o := .subscribeBooks type) (by simp [hpending]) hclears (by simp [Op.releases])
    have hafter : (s'.lanes .trader).handlers type = (s.lanes .trader).handlers type ++ [.books] := by
      cases hs with
      | subscribeBooks =>
        have hadds := subscribe_handlers (s := { s with pending := rest }) .trader type type .books
        rwa [if_pos ⟨htype.symm, rfl⟩] at hadds
      | engine _ _ _ hop => simp at hop
      | skip _ hop => simp at hop
    rw [hafter]
    cases hlist : (s.lanes .trader).handlers type with
    | nil => rfl
    | cons first others =>
      cases first with
      | books => rfl
      | strategies number => exact absurd (by simp [hlist]) (hnobody number)
  · exact Or.inr (hs.no_strategies hnone)

theorem Ahead.perform (h : s.Ahead) (htidy : s.Tidy) (hrun : s.Running) (horderly : s.Orderly)
    (hpending : s.pending = op :: rest) (hok : s.booksNext .control = true)
    (hs : Performs { s with pending := rest } op s') : s'.Ahead := by
  have hop : op ∈ s.pending := by simp [hpending]
  refine ⟨?_, ?_, ?_, ?_⟩
  · intro hmem type htype
    have hwas := hs.was_pending hpending (by cases op <;> simp [Op.brings, Op.dispatcherOps]) hmem
    rcases h.toStart hwas type htype with hbooks | hwired
    · by_cases hop : op = .subscribeBooks type
      · subst hop
        exact Or.inr (htidy.subscribeBooks horderly htype hpending hok hs)
      · exact Or.inl (hs.pending_mem hpending hop hbooks)
    · exact Or.inr (hwired.perform htidy horderly hpending hs)
  · intro hused type htype
    suffices hwired : s.Wired type from hwired.perform htidy horderly hpending hs
    have hstarts : op = .startLane .trader → s.Wired type := by
      rintro rfl
      have horder := horderly.inOrder
      rw [hpending] at horder
      rcases h.toStart hop type htype with hbooks | hwired
      · rw [hpending] at hbooks
        exact absurd ((List.mem_cons.mp hbooks).resolve_left fun h => by cases h) (horder.1.2 type)
      · exact hwired
    rcases hused with hrunning | hthread
    · rcases hs.running .trader with hsame | ⟨hop, _⟩ | ⟨_, hstopped, _⟩
      · exact h.wired (Or.inl (hsame ▸ hrunning)) type htype
      · exact hstarts hop
      · rw [hrunning] at hstopped
        cases hstopped
    · rcases hs.thread .trader with hsame | ⟨rfl, _⟩ | ⟨_, habsent⟩
      · exact h.wired (Or.inr (hsame ▸ hthread)) type htype
      · exact h.wired (Or.inl (hrun.spawned hop)) type htype
      · exact absurd habsent hthread
  · intro event held hthread
    rcases hs.thread .trader with hsame | ⟨_, hwaiting⟩ | ⟨_, habsent⟩
    · rw [hs.log]
      exact (h.inHand event held (hsame ▸ hthread)).imp_right (Or.imp_right hs.no_strategies)
    · rw [hwaiting] at hthread
      cases hthread
    · rw [habsent] at hthread
      cases hthread
  · rw [hs.log]
    exact h.log

/-! ### Reactors -/

theorem Tidy.onLane (h : s.Tidy) (lane : Lane) {f : EventReactor → EventReactor}
    (hhandlers : (f (s.lanes lane)).handlers = (s.lanes lane).handlers)
    (hqueue : ∀ event ∈ (f (s.lanes lane)).queue, event.item.type.lane = lane)
    (hholding : ∀ event, (f (s.lanes lane)).thread = .holding event → event.item.type.lane = lane)
    (hhandling : ∀ event rest, (f (s.lanes lane)).thread = .handling event rest → event.item.type.lane = lane) :
    (s.onLane lane f).Tidy := by
  have hlanes : ∀ k, (s.onLane lane f).lanes k = if k = lane then f (s.lanes k) else s.lanes k := fun _ => rfl
  refine ⟨?_, h.emptied, ?_, ?_, ?_⟩
  · intro k type number hmem
    rw [hlanes] at hmem
    split at hmem
    case isTrue hk =>
      subst hk
      rw [hhandlers] at hmem
      exact h.subscribed k type number hmem
    case isFalse => exact h.subscribed k type number hmem
  · intro k event hmem
    rw [hlanes] at hmem
    split at hmem
    case isTrue hk =>
      subst hk
      exact hqueue event hmem
    case isFalse => exact h.queued k event hmem
  · intro k event hthread
    rw [hlanes] at hthread
    split at hthread
    case isTrue hk =>
      subst hk
      exact hholding event hthread
    case isFalse => exact h.holding k event hthread
  · intro k event rest hthread
    rw [hlanes] at hthread
    split at hthread
    case isTrue hk =>
      subst hk
      exact hhandling event rest hthread
    case isFalse => exact h.handling k event rest hthread

theorem Running.onLane (h : s.Running) (lane : Lane) {f : EventReactor → EventReactor}
    (hrunning : (f (s.lanes lane)).running = (s.lanes lane).running)
    (hthread : (f (s.lanes lane)).thread ≠ .absent → (s.lanes lane).thread ≠ .absent) :
    (s.onLane lane f).Running := by
  cases lane with
  | quote => exact ⟨h.spawned, h.present, h.running⟩
  | trader =>
    have hsame : ((s.onLane .trader f).lanes .trader).running = (s.lanes .trader).running := hrunning
    refine ⟨fun hmem => ?_, fun hpresent => ?_, fun hruns => ?_⟩
    · rw [hsame]
      exact h.spawned hmem
    · rw [hsame]
      exact h.present (hthread hpresent)
    · rw [hsame] at hruns
      exact h.running hruns

theorem Ahead.onLane (h : s.Ahead) (lane : Lane) {f : EventReactor → EventReactor}
    (hhandlers : (f (s.lanes lane)).handlers = (s.lanes lane).handlers)
    (hrunning : (f (s.lanes lane)).running = (s.lanes lane).running)
    (hthread : (f (s.lanes lane)).thread ≠ .absent → (s.lanes lane).thread ≠ .absent)
    (hinHand : lane = .trader → ∀ event rest, (f (s.lanes lane)).thread = .handling event rest →
      .booked event ∈ s.log ∨ rest.head? = some .books ∨ s.manager.strategies = []) : (s.onLane lane f).Ahead := by
  cases lane with
  | quote => exact ⟨h.toStart, h.wired, h.inHand, h.log⟩
  | trader =>
    have hwired : ∀ type, s.Wired type → (s.onLane .trader f).Wired type := by
      intro type hwired
      have hsame : ((s.onLane .trader f).lanes .trader).handlers = (s.lanes .trader).handlers := hhandlers
      unfold Wired
      rw [hsame]
      exact hwired
    refine ⟨?_, ?_, hinHand rfl, h.log⟩
    · intro hmem type htype
      exact (h.toStart hmem type htype).imp_right (hwired type)
    · intro hused type htype
      apply hwired type (h.wired _ type htype)
      exact hused.imp (fun hruns => hrunning.symm.trans hruns) hthread

theorem Ahead.called (h : s.Ahead) (htidy : s.Tidy) (horderly : s.Orderly) {lane : Lane} {event : Ticket Event}
    {handler : Handler} {rest : List Handler}
    (hhandling : (s.lanes lane).thread = .handling event (handler :: rest)) :
    (s.called event handler).Ahead ∧
      (lane = .trader → .booked event ∈ (s.called event handler).log ∨ s.manager.strategies = []) := by
  have hlane := htidy.handling lane event _ hhandling
  cases handler with
  | books =>
    unfold EventLanes.called
    dsimp only
    split
    case h_1 callback hreport =>
      refine ⟨⟨h.toStart, h.wired, ?_, h.log⟩, fun _ => Or.inl List.mem_cons_self⟩
      intro other held hthread
      exact (h.inHand other held hthread).imp_left (List.mem_cons_of_mem _)
    case h_2 hno =>
      refine ⟨h, fun htrader => ?_⟩
      subst htrader
      cases hitem : event.item with
      | tick instrument | bar instrument =>
        rw [hitem] at hlane
        cases hlane
      | report callback => exact absurd hitem (hno callback)
  | strategies number =>
    have hbooked : lane = .trader → .booked event ∈ s.log ∨ s.manager.strategies = [] := by
      rintro rfl
      rcases h.inHand event _ hhandling with hbooked | hfirst | hnone
      · exact Or.inl hbooked
      · cases hfirst
      · exact Or.inr hnone
    unfold EventLanes.called
    dsimp only
    refine ⟨⟨h.toStart, h.wired, ?_, ?_, h.log⟩, fun htrader => (hbooked htrader).imp_left (List.mem_cons_of_mem _)⟩
    · intro other held hthread
      exact (h.inHand other held hthread).imp_left (List.mem_cons_of_mem _)
    · intro htrader htold
      exact (hbooked (hlane.symm.trans htrader)).resolve_right (horderly.manager.told htold)

/-! ### All steps -/

structure Placed (s : EventLanes) : Prop where
  orderly : s.Orderly
  tidy : s.Tidy
  running : s.Running
  ahead : s.Ahead

theorem Placed.onLane (h : s.Placed) (lane : Lane) {f : EventReactor → EventReactor}
    (hhandlers : (f (s.lanes lane)).handlers = (s.lanes lane).handlers)
    (hrunning : (f (s.lanes lane)).running = (s.lanes lane).running)
    (hqueue : ∀ event ∈ (f (s.lanes lane)).queue, event.item.type.lane = lane)
    (hholding : ∀ event, (f (s.lanes lane)).thread = .holding event → event.item.type.lane = lane)
    (hhandling : ∀ event rest, (f (s.lanes lane)).thread = .handling event rest → event.item.type.lane = lane)
    (hthread : (f (s.lanes lane)).thread ≠ .absent → (s.lanes lane).thread ≠ .absent)
    (hinHand : lane = .trader → ∀ event rest, (f (s.lanes lane)).thread = .handling event rest →
      .booked event ∈ s.log ∨ rest.head? = some .books ∨ s.manager.strategies = []) : (s.onLane lane f).Placed :=
  ⟨⟨h.orderly.oneKind, h.orderly.inOrder, h.orderly.manager⟩,
    h.tidy.onLane lane hhandlers hqueue hholding hhandling, h.running.onLane lane hrunning hthread,
    h.ahead.onLane lane hhandlers hrunning hthread hinHand⟩

theorem publish_carries {r : EventReactor} (event : Ticket Event)
    (h : ∀ e ∈ r.queue, e.item.type.lane = event.item.type.lane) :
    ∀ e ∈ (r.publish event).queue, e.item.type.lane = event.item.type.lane := by
  have hback : ∀ {queue : List (Ticket Event)}, (∀ e ∈ queue, e.item.type.lane = event.item.type.lane) →
      ∀ e ∈ queue ++ [event], e.item.type.lane = event.item.type.lane := by
    intro queue hqueue e hmem
    rcases List.mem_append.mp hmem with hold | hnew
    · exact hqueue e hold
    · rw [List.mem_singleton.mp hnew]
  unfold EventReactor.publish
  repeat' split
  · exact h
  · exact hback fun e hmem => h e (List.mem_of_mem_tail hmem)
  · exact h
  · exact hback h

theorem Placed.publish (h : s.Placed) (event : Event) :
    (s.onLane event.type.lane (·.publish ⟨s.published, event⟩)).Placed := by
  obtain ⟨hhandlers, hthread, hrunning⟩ := publish_keeps (s.lanes event.type.lane) ⟨s.published, event⟩
  apply h.onLane event.type.lane hhandlers hrunning
  · exact publish_carries ⟨s.published, event⟩ (h.tidy.queued event.type.lane)
  · rw [hthread]
    exact h.tidy.holding event.type.lane
  · rw [hthread]
    exact h.tidy.handling event.type.lane
  · exact fun hpresent => hthread ▸ hpresent
  · intro hlane
    rw [hthread, hlane]
    exact h.ahead.inHand

theorem Running.stopped (h : s.Running) (hrest : s.pending = []) (hstopped : s.engine.running = false) :
    (s.lanes .trader).running ≠ true ∧ (s.lanes .trader).thread = .absent := by
  have hno : (s.lanes .trader).running ≠ true := by
    intro hruns
    rcases h.running hruns with hengine | hstart | hstop
    · rw [hstopped] at hengine
      cases hengine
    · simp [hrest] at hstart
    · simp [hrest] at hstop
  refine ⟨hno, ?_⟩
  by_contra hthread
  rcases h.present hthread with hruns | hjoin
  · exact hno hruns
  · simp [hrest] at hjoin

theorem Placed.call (h : s.Placed) (hrest : s.pending = []) (horderly : s'.Orderly) (hlanes : s'.lanes = s.lanes)
    (hlog : s'.log = s.log) (hd : s'.manager.dispatcher = s.manager.dispatcher)
    (hemptied : ∀ lane, .clearHandlers lane ∈ s'.pending → .clearStrategies ∈ s'.pending)
    (hspawn : .spawn .trader ∉ s'.pending)
    (htoStart : .startLane .trader ∈ s'.pending → ∀ type, type.lane = .trader → .subscribeBooks type ∈ s'.pending)
    (hrunning : (s.lanes .trader).running = true →
      s'.engine.running = true ∨ .startEngine ∈ s'.pending ∨ .stopLane .trader ∈ s'.pending)
    (hstrategies : s'.manager.strategies = s.manager.strategies ∨ s.engine.running = false) : s'.Placed := by
  have hstopped := h.running.stopped hrest
  refine ⟨horderly, ⟨?_, ?_, ?_, ?_, ?_⟩, ⟨?_, ?_, ?_⟩, ⟨?_, ?_, ?_, ?_⟩⟩
  · intro lane type number hmem
    rw [hlanes] at hmem
    rcases h.tidy.subscribed lane type number hmem with hsome | hclears
    · exact Or.inl (hd ▸ hsome)
    · simp [hrest] at hclears
  · exact fun lane hmem => Or.inl (hemptied lane hmem)
  · rw [hlanes]
    exact h.tidy.queued
  · rw [hlanes]
    exact h.tidy.holding
  · rw [hlanes]
    exact h.tidy.handling
  · exact fun hmem => absurd hmem hspawn
  · intro hthread
    rw [hlanes] at hthread ⊢
    rcases h.running.present hthread with hruns | hjoin
    · exact Or.inl hruns
    · simp [hrest] at hjoin
  · rw [hlanes]
    exact hrunning
  · exact fun hmem type htype => Or.inl (htoStart hmem type htype)
  · intro hused type htype
    rw [hlanes] at hused
    rcases hstrategies with hsame | hno
    · have hwired := h.ahead.wired hused type htype
      unfold Wired at hwired ⊢
      rwa [hlanes, hsame]
    · obtain ⟨hidle, habsent⟩ := hstopped hno
      exact absurd hused (by simp [hidle, habsent])
  · intro event held hthread
    rw [hlanes] at hthread
    rw [hlog]
    rcases hstrategies with hsame | hno
    · rw [hsame]
      exact h.ahead.inHand event held hthread
    · rw [(hstopped hno).2] at hthread
      cases hthread
  · rw [hlog]
    exact h.ahead.log

theorem step_placed {a : LaneAction} (h : s.Placed) (hok : s.booksNext a = true) (hs : Moves s a s') :
    s'.Placed := by
  have horderly := h.orderly.step hs
  cases hs with
  | engine _ engine hrunning =>
    refine ⟨horderly, ⟨h.tidy.subscribed, h.tidy.emptied, h.tidy.queued, h.tidy.holding, h.tidy.handling⟩,
      ⟨h.running.spawned, h.running.present, fun hruns => ?_⟩,
      ⟨h.ahead.toStart, h.ahead.wired, h.ahead.inHand, h.ahead.log⟩⟩
    exact (h.running.running hruns).imp_left (fun hengine => hrunning.trans hengine)
  | release _ engine pending hrest hpending =>
    refine h.call hrest horderly rfl rfl rfl ?_ ?_ ?_ ?_ (Or.inl rfl)
    · rcases hpending with rfl | rfl <;> simp [Op.releaseOps]
    · rcases hpending with rfl | rfl <;> simp [Op.releaseOps]
    · rcases hpending with rfl | rfl <;> simp [Op.releaseOps]
    · rcases hpending with rfl | rfl <;> simp [Op.releaseOps]
  | register _ manager pending hrest hstopped hmanager hpending =>
    refine h.call hrest horderly rfl rfl (hmanager h.orderly.manager).2 ?_ ?_ ?_ ?_ (Or.inr hstopped)
    · rcases hpending with rfl | rfl <;> simp [Op.dispatcherOps]
    · rcases hpending with rfl | rfl <;> simp [Op.dispatcherOps]
    · rcases hpending with rfl | rfl <;> simp [Op.dispatcherOps]
    · exact fun hruns => absurd hruns (h.running.stopped hrest hstopped).1
  | start _ engine world hrest hrunning =>
    refine h.call hrest horderly rfl rfl rfl ?_ ?_ ?_ ?_ (Or.inl rfl)
    · simp [Op.startOps]
    · simp [Op.startOps]
    · intro _ type htype
      cases type <;> simp_all [Op.startOps, EventType.lane]
    · exact fun _ => Or.inr (Or.inl (by simp [Op.startOps]))
  | operate op rest _ hpending hs =>
    exact ⟨horderly, h.tidy.perform h.orderly hpending hs, h.running.perform h.orderly hpending hs,
      h.ahead.perform h.tidy h.running h.orderly hpending hok hs⟩
  | publish event =>
    have hpublished := h.publish event
    exact ⟨horderly,
      ⟨hpublished.tidy.subscribed, hpublished.tidy.emptied, hpublished.tidy.queued, hpublished.tidy.holding,
        hpublished.tidy.handling⟩,
      ⟨hpublished.running.spawned, hpublished.running.present, hpublished.running.running⟩,
      ⟨hpublished.ahead.toStart, hpublished.ahead.wired, hpublished.ahead.inHand, hpublished.ahead.log⟩⟩
  | takes lane event queue hwaiting hqueue =>
    have hqueued := h.tidy.queued lane
    rw [hqueue, List.forall_mem_cons] at hqueued
    apply h.onLane lane rfl rfl hqueued.2
    · intro other hholding
      cases hholding
      exact hqueued.1
    · intro other held hhandling
      cases hhandling
    · exact fun _ => by simp [hwaiting]
    · intro _ other held hhandling
      cases hhandling
  | exits lane hwaiting =>
    apply h.onLane lane rfl rfl (h.tidy.queued lane)
    · intro other hholding
      cases hholding
    · intro other held hhandling
      cases hhandling
    · exact fun _ => by simp [hwaiting]
    · intro _ other held hhandling
      cases hhandling
  | enters lane event hheld =>
    have hlane := h.tidy.holding lane event hheld
    apply h.onLane lane rfl rfl (h.tidy.queued lane)
    · intro other hholding
      cases hholding
    · intro other held hhandling
      cases hhandling
      exact hlane
    · exact fun _ => by simp [hheld]
    · intro htrader other held hhandling
      cases hhandling
      subst htrader
      exact Or.inr (h.ahead.wired (Or.inr (by simp [hheld])) _ hlane)
  | calls lane event handler rest hhandling =>
    obtain ⟨hlanes, hpending, hmanager, hengine⟩ := s.called_keeps event handler
    obtain ⟨hahead, hbooked⟩ := h.ahead.called h.tidy h.orderly hhandling
    have hcalled : (s.called event handler).Placed := by
      refine ⟨⟨?_, ?_, ?_⟩, ⟨?_, ?_, ?_, ?_, ?_⟩, ⟨?_, ?_, ?_⟩, hahead⟩
      all_goals simp only [hlanes, hpending, hmanager, hengine]
      · exact h.orderly.oneKind
      · exact h.orderly.inOrder
      · exact h.orderly.manager
      · exact h.tidy.subscribed
      · exact h.tidy.emptied
      · exact h.tidy.queued
      · exact h.tidy.holding
      · exact h.tidy.handling
      · exact h.running.spawned
      · exact h.running.present
      · exact h.running.running
    have hlane := h.tidy.handling lane event _ hhandling
    rw [← hlanes] at hhandling
    apply hcalled.onLane lane rfl rfl (hcalled.tidy.queued lane)
    · intro other hholding
      cases hholding
    · intro other held hnext
      cases hnext
      exact hlane
    · exact fun _ => by simp [hhandling]
    · intro htrader other held hnext
      cases hnext
      rw [hmanager]
      exact (hbooked htrader).imp_right Or.inr
  | returns lane event hhandling =>
    apply h.onLane lane rfl rfl (h.tidy.queued lane)
    · intro other hholding
      cases hholding
    · intro other held hnext
      cases hnext
    · exact fun _ => by simp [hhandling]
    · intro _ other held hnext
      cases hnext

theorem opening_placed (policies : Lane → LanePolicy) : (opening policies).Placed := by
  refine ⟨opening_orderly policies, ⟨?_, ?_, ?_, ?_, ?_⟩, ⟨?_, ?_, ?_⟩, ⟨?_, ?_, ?_, trivial⟩⟩
  all_goals simp [opening]

/-! ## Strategies are told of what the books have -/

/-- If `Start` finds no dispatcher or no strategies whenever it subscribes the books, strategies are told of a
report only after the books are updated for it. -/
theorem books_before_strategies {policies : Lane → LanePolicy}
    (h : Runs.Reaches step (fun s a => s.booksNext a = true) (opening policies) s) : BooksFirst s.log := by
  have hplaced : s.Placed := by
    apply h.invariant
    · exact opening_placed policies
    · intro s a s' hplaced hok hs
      exact step_placed hplaced hok (step_moves hs)
  exact hplaced.ahead.log

/-- A strategy that was added in process and an order report. -/
theorem books_before_strategies_added : ∃ s, Runs.Reaches step (fun s a => s.booksNext a = true)
    (opening fun _ => {}) s ∧
    s.log = [.called 0 true ⟨0, .report (.order {})⟩ ["s"], .booked ⟨0, .report (.order {})⟩] ∧ BooksFirst s.log := by
  have hrun : ∃ s ∈ Runs.execWhile step (fun s a => s.booksNext a = true) (opening fun _ => {})
      (boot ++ [.addStrategy { strategyId := "s", enabled := true } true true, .start {}] ++
        List.replicate 17 .control ++
        [.publish (.report (.order {})), .runOnce .trader, .enter .trader, .call .trader, .call .trader]),
      s.log = [.called 0 true ⟨0, .report (.order {})⟩ ["s"], .booked ⟨0, .report (.order {})⟩] := by decide +kernel
  obtain ⟨s, hs, hlog⟩ := hrun
  have hreach := Runs.reaches_of_execWhile _ hs
  exact ⟨s, hreach, hlog, books_before_strategies hreach⟩

/-- The strategy comes from a plugin that is loaded before `Start`. -/
theorem strategies_told_first : ¬∀ (policies : Lane → LanePolicy) (s : EventLanes),
    Runs.Reaches step Runs.anyStep (opening policies) s → BooksFirst s.log := by
  intro hall
  have hrun : ∃ s ∈ Runs.exec step (opening fun _ => {})
      (boot ++
        [.loadStrategiesFromPlugins "plugins" {} [{ strategyId := "s", strategyName := "s", enabled := true }]] ++
        List.replicate 5 .control ++ [.start {}] ++ List.replicate 12 .control ++
        [.publish (.report (.order {})), .runOnce .trader, .enter .trader, .call .trader]),
      s.log = [.called 0 true ⟨0, .report (.order {})⟩ ["s"]] := by decide +kernel
  obtain ⟨s, hs, hlog⟩ := hrun
  have hfirst := hall _ s (Runs.reaches_of_exec _ hs)
  rw [hlog] at hfirst
  exact absurd (hfirst.1 rfl (by decide)) List.not_mem_nil

end EventLanes

end Qtrade.Engine
