import Qtrade.Engine.BrokerState

/-!
# A venue that does not wait

The orders and the fills as the broker knows them. An event at the venue fills an open order or ends it.
-/

namespace Qtrade.Engine

open Qtrade.Account (terminalStatus)

/-- The orders as they stand and the fills in the order in which they happened. -/
structure Venue where
  orders : List Order
  trades : List Trade := []

namespace Venue

/-- Changes the order with this id. -/
def change (v : Venue) (orderId : String) (f : Order → Order) : Venue :=
  { v with orders := v.orders.map fun order => if order.orderId = orderId then f order else order }

def filledBy (trade : Trade) (order : Order) : Order :=
  { order with
    tradedVolume := order.tradedVolume + trade.volume
    leftVolume := order.volume - (order.tradedVolume + trade.volume)
    tradeAmount := order.tradeAmount + trade.tradeAmount
    status := if order.tradedVolume + trade.volume = order.volume then .filled else .partiallyFilled }

/-- The order is open and has so much volume left. -/
def openFor (v : Venue) (orderId : String) (volume : Int) : Bool :=
  v.orders.any fun order => order.orderId == orderId && !Account.terminalStatus order.status &&
    decide (volume ≤ order.volume - order.tradedVolume)

/-- A fill of an open order. Its key is new. -/
def fill (v : Venue) (trade : Trade) : Option Venue :=
  if isValidTrade trade ∧ v.openFor trade.orderId trade.volume ∧
      generateTradeDedupKey trade ∉ v.trades.map generateTradeDedupKey then
    some { v.change trade.orderId (filledBy trade) with trades := v.trades ++ [trade] }
  else none

/-- An open order is canceled or rejected. -/
def finish (v : Venue) (orderId : String) (status : OrderStatusType) : Option (Venue × Order) :=
  match v.orders.find? (·.orderId == orderId) with
  | some order =>
    if !Account.terminalStatus order.status ∧ (status = .canceled ∨ status = .rejected) then
      some (v.change orderId fun order => { order with status }, { order with status })
    else none
  | none => none

end Venue

/-! ## A sound venue -/

/-- The figures of an order agree with its status. -/
structure Orderly (order : Order) : Prop where
  identified : order.orderId ≠ ""
  traded : 0 ≤ order.tradedVolume
  left : 0 ≤ order.leftVolume
  bound : order.tradedVolume ≤ order.volume
  filled : order.status = .filled → order.tradedVolume = order.volume
  unfinished : terminalStatus order.status = false → order.tradedVolume < order.volume

namespace Venue

structure Sound (v : Venue) : Prop where
  ids : (v.orders.map (·.orderId)).Nodup
  clients : ∀ o ∈ v.orders, ∀ o' ∈ v.orders, o.clientOrderId ≠ 0 → o'.clientOrderId = o.clientOrderId →
    o'.orderId = o.orderId
  orderly : ∀ o ∈ v.orders, Orderly o
  keys : (v.trades.map generateTradeDedupKey).Nodup
  valid : ∀ t ∈ v.trades, isValidTrade t = true
  owned : ∀ t ∈ v.trades, ∃ o ∈ v.orders, o.orderId = t.orderId

variable {v v' : Venue} {orderId : String} {f : Order → Order}

theorem Sound.unique (h : v.Sound) {o o' : Order} (ho : o ∈ v.orders) (ho' : o' ∈ v.orders)
    (hid : o'.orderId = o.orderId) : o' = o :=
  List.inj_on_of_nodup_map h.ids ho' ho hid

theorem Sound.distinctClients (h : v.Sound) : DistinctClients v.orders :=
  fun o ho o' ho' hc hsame => h.unique ho ho' (h.clients o ho o' ho' hc hsame)

theorem mem_change {o' : Order} : o' ∈ (v.change orderId f).orders ↔
    ∃ o ∈ v.orders, o' = if o.orderId = orderId then f o else o := by
  simp [change, eq_comm]

theorem Sound.change (h : v.Sound) (hid : ∀ o, (f o).orderId = o.orderId)
    (hclient : ∀ o, (f o).clientOrderId = o.clientOrderId)
    (horderly : ∀ o ∈ v.orders, o.orderId = orderId → Orderly (f o)) : (v.change orderId f).Sound := by
  have hsame : ∀ o : Order, (if o.orderId = orderId then f o else o).orderId = o.orderId ∧
      (if o.orderId = orderId then f o else o).clientOrderId = o.clientOrderId := by
    intro o
    split
    · exact ⟨hid o, hclient o⟩
    · exact ⟨rfl, rfl⟩
  refine ⟨?_, ?_, ?_, h.keys, h.valid, ?_⟩
  · have hmap : (v.change orderId f).orders.map (·.orderId) = v.orders.map (·.orderId) := by
      simp [Venue.change, Function.comp_def, hsame]
    rw [hmap]
    exact h.ids
  · intro o ho o' ho'
    obtain ⟨p, hp, rfl⟩ := mem_change.mp ho
    obtain ⟨p', hp', rfl⟩ := mem_change.mp ho'
    rw [(hsame p).1, (hsame p).2, (hsame p').1, (hsame p').2]
    exact h.clients p hp p' hp'
  · intro o ho
    obtain ⟨p, hp, rfl⟩ := mem_change.mp ho
    split
    case isTrue hkey => exact horderly p hp hkey
    case isFalse => exact h.orderly p hp
  · intro t ht
    obtain ⟨o, ho, hkey⟩ := h.owned t ht
    exact ⟨_, mem_change.mpr ⟨o, ho, rfl⟩, (hsame o).1.trans hkey⟩

theorem fill_cases (h : v.Sound) {trade : Trade} (hs : v.fill trade = some v') :
    isValidTrade trade = true ∧ generateTradeDedupKey trade ∉ v.trades.map generateTradeDedupKey ∧
      (∃ o ∈ v.orders, o.orderId = trade.orderId) ∧
      (∀ o ∈ v.orders, o.orderId = trade.orderId → terminalStatus o.status = false ∧
        trade.volume ≤ o.volume - o.tradedVolume) ∧
      v' = { v.change trade.orderId (filledBy trade) with trades := v.trades ++ [trade] } := by
  unfold Venue.fill at hs
  split at hs
  case isFalse => cases hs
  case isTrue hopen =>
    cases hs
    obtain ⟨hvalid, hany, hkey⟩ := hopen
    obtain ⟨o, ho, hcond⟩ := List.any_eq_true.mp hany
    simp only [Bool.and_eq_true, beq_iff_eq, Bool.not_eq_true', decide_eq_true_eq] at hcond
    obtain ⟨⟨hid, hlive⟩, hleft⟩ := hcond
    refine ⟨hvalid, hkey, ⟨o, ho, hid⟩, fun o' ho' hid' => ?_, rfl⟩
    obtain rfl := h.unique ho ho' (hid'.trans hid.symm)
    exact ⟨hlive, hleft⟩

theorem finish_cases {status : OrderStatusType} {report : Order}
    (hs : v.finish orderId status = some (v', report)) :
    ∃ o ∈ v.orders, o.orderId = orderId ∧ terminalStatus o.status = false ∧
      (status = .canceled ∨ status = .rejected) ∧ report = { o with status } ∧
      v' = v.change orderId fun order => { order with status } := by
  unfold Venue.finish at hs
  split at hs
  case h_2 => cases hs
  case h_1 o hfind =>
    split at hs
    case isFalse => cases hs
    case isTrue hopen =>
      cases hs
      exact ⟨o, List.mem_of_find?_eq_some hfind, by simpa using List.find?_some hfind,
        by simpa using hopen.1, hopen.2, rfl, rfl⟩

theorem volume_pos {trade : Trade} (h : isValidTrade trade = true) : 0 < trade.volume := by
  simp only [isValidTrade, Bool.and_eq_true, decide_eq_true_eq] at h
  exact h.1.1.1.2

theorem Sound.fill (h : v.Sound) {trade : Trade} (hs : v.fill trade = some v') : v'.Sound := by
  obtain ⟨hvalid, hkey, ⟨o, ho, hid⟩, hopen, rfl⟩ := fill_cases h hs
  have hpos := volume_pos hvalid
  have hchanged : (v.change trade.orderId (filledBy trade)).Sound := by
    refine h.change (fun _ => rfl) (fun _ => rfl) fun o ho hid => ?_
    have horderly := h.orderly o ho
    obtain ⟨_, hleft⟩ := hopen o ho hid
    have htraded := horderly.traded
    refine ⟨horderly.identified, ?_, ?_, ?_, fun hf => ?_, fun hl => ?_⟩ <;>
      simp only [filledBy] at *
    · omega
    · omega
    · omega
    · split at hf
      case isTrue hall => exact hall
      case isFalse => cases hf
    · split at hl
      case isTrue => simp [terminalStatus] at hl
      case isFalse => omega
  refine ⟨hchanged.ids, hchanged.clients, hchanged.orderly, ?_, ?_, ?_⟩
  · rw [List.map_append, List.map_singleton]
    exact h.keys.append (List.nodup_singleton _) (by simpa using hkey)
  · intro t ht
    rcases List.mem_append.mp ht with ht | ht
    · exact h.valid t ht
    · rw [List.mem_singleton.mp ht]
      exact hvalid
  · intro t ht
    rcases List.mem_append.mp ht with ht | ht
    · exact hchanged.owned t ht
    · rw [List.mem_singleton.mp ht]
      refine ⟨filledBy trade o, mem_change.mpr ⟨o, ho, by rw [if_pos hid]⟩, hid⟩

theorem Sound.finish (h : v.Sound) {status : OrderStatusType} {report : Order}
    (hs : v.finish orderId status = some (v', report)) : v'.Sound := by
  obtain ⟨o, ho, hid, hlive, hstatus, rfl, rfl⟩ := finish_cases hs
  refine h.change (fun _ => rfl) (fun _ => rfl) fun o' ho' hid' => ?_
  have horderly := h.orderly o' ho'
  refine ⟨horderly.identified, horderly.traded, horderly.left, horderly.bound, fun hf => ?_, fun hl => ?_⟩
  · rcases hstatus with rfl | rfl <;> cases hf
  · rcases hstatus with rfl | rfl <;> simp [terminalStatus] at hl

end Venue

theorem Orderly.isValid {order : Order} (h : Orderly order) : isValidOrder order = true := by
  have hid : (order.orderId == "") = false := by simpa using h.identified
  have htraded := h.traded
  have hbound := h.bound
  have hleft := h.left
  simp [isValidOrder, hid]
  omega

/-! ## The venue goes on -/

/-- The volume of the order's fills among these. -/
def filledVolume (trades : List Trade) (orderId : String) : Int :=
  ((trades.filter (·.orderId = orderId)).map (·.volume)).sum

theorem filledVolume_append (trades late : List Trade) (orderId : String) :
    filledVolume (trades ++ late) orderId = filledVolume trades orderId + filledVolume late orderId := by
  simp [filledVolume]

/-- One event at the venue, with the fills it adds. -/
structure Venue.Goes (v v' : Venue) (late : List Trade) : Prop where
  sound : v'.Sound
  trades : v'.trades = v.trades ++ late
  origin : ∀ o' ∈ v'.orders, ∃ o ∈ v.orders, o'.orderId = o.orderId ∧ o'.volume = o.volume ∧
    o'.tradedVolume = o.tradedVolume + filledVolume late o.orderId ∧ (terminalStatus o.status = true → o' = o)
  kept : ∀ o ∈ v.orders, ∃ o' ∈ v'.orders, o'.orderId = o.orderId ∧ (terminalStatus o.status = true → o' = o)
  opened : ∀ t ∈ late, ∀ o ∈ v.orders, o.orderId = t.orderId → terminalStatus o.status = false

theorem Venue.Sound.fill_goes {v v' : Venue} (h : v.Sound) {trade : Trade} (hs : v.fill trade = some v') :
    v.Goes v' [trade] := by
  obtain ⟨_, _, _, hopen, hv⟩ := fill_cases h hs
  have hsound := h.fill hs
  subst hv
  refine ⟨hsound, rfl, fun o' ho' => ?_, fun o ho => ?_, fun t ht o ho hid => ?_⟩
  · obtain ⟨o, ho, rfl⟩ := mem_change.mp ho'
    refine ⟨o, ho, ?_⟩
    by_cases hid : o.orderId = trade.orderId
    · rw [if_pos hid]
      refine ⟨rfl, rfl, by simp [filledBy, filledVolume, hid], fun hended => ?_⟩
      rw [(hopen o ho hid).1] at hended
      cases hended
    · rw [if_neg hid]
      exact ⟨rfl, rfl, by simp [filledVolume, Ne.symm hid], fun _ => rfl⟩
  · refine ⟨_, mem_change.mpr ⟨o, ho, rfl⟩, ?_⟩
    by_cases hid : o.orderId = trade.orderId
    · rw [if_pos hid]
      refine ⟨rfl, fun hended => ?_⟩
      rw [(hopen o ho hid).1] at hended
      cases hended
    · rw [if_neg hid]
      exact ⟨rfl, fun _ => rfl⟩
  · rw [List.mem_singleton.mp ht] at hid
    exact (hopen o ho hid).1

theorem Venue.Sound.finish_goes {v v' : Venue} (h : v.Sound) {orderId : String} {status : OrderStatusType}
    {report : Order} (hs : v.finish orderId status = some (v', report)) : v.Goes v' [] := by
  obtain ⟨o₀, ho₀, hid₀, hlive, _, _, hv⟩ := finish_cases hs
  have hsound := h.finish hs
  subst hv
  have hsame : ∀ o ∈ v.orders, o.orderId = orderId → terminalStatus o.status = false := by
    intro o ho hid
    rw [h.unique ho₀ ho (hid.trans hid₀.symm)]
    exact hlive
  refine ⟨hsound, (List.append_nil _).symm, fun o' ho' => ?_, fun o ho => ?_, by simp⟩
  · obtain ⟨o, ho, rfl⟩ := mem_change.mp ho'
    refine ⟨o, ho, ?_⟩
    split
    case isTrue hid =>
      refine ⟨rfl, rfl, by simp [filledVolume], fun hended => ?_⟩
      rw [hsame o ho hid] at hended
      cases hended
    case isFalse => exact ⟨rfl, rfl, by simp [filledVolume], fun _ => rfl⟩
  · refine ⟨_, mem_change.mpr ⟨o, ho, rfl⟩, ?_⟩
    split
    case isTrue hid =>
      refine ⟨rfl, fun hended => ?_⟩
      rw [hsame o ho hid] at hended
      cases hended
    case isFalse => exact ⟨rfl, fun _ => rfl⟩

/-- How the venue has gone on since `QueryOrders` was answered. -/
structure Since (seen : List Order) (late : List Trade) (v : Venue) : Prop where
  orders : ∀ o ∈ v.orders, ∃ q ∈ seen, q.orderId = o.orderId ∧ q.volume = o.volume ∧
    o.tradedVolume = q.tradedVolume + filledVolume late o.orderId ∧
    (terminalStatus q.status = true → o.status = q.status ∧ o.tradedVolume = q.tradedVolume)
  covered : ∀ q ∈ seen, ∃ o ∈ v.orders, o.orderId = q.orderId
  opened : ∀ t ∈ late, ∀ q ∈ seen, q.orderId = t.orderId → terminalStatus q.status = false

theorem Since.now (v : Venue) : Since v.orders [] v :=
  ⟨fun o ho => ⟨o, ho, rfl, rfl, by simp [filledVolume], fun _ => ⟨rfl, rfl⟩⟩, fun q hq => ⟨q, hq, rfl⟩, by simp⟩

theorem Since.goes {seen : List Order} {late new : List Trade} {v v' : Venue} (h : Since seen late v)
    (hseen : ({ orders := seen } : Venue).Sound) (hg : v.Goes v' new) : Since seen (late ++ new) v' := by
  refine ⟨fun o' ho' => ?_, fun q hq => ?_, fun t ht q hq hid => ?_⟩
  · obtain ⟨o, ho, hid, hvolume, htraded, hended⟩ := hg.origin o' ho'
    obtain ⟨q, hq, hqid, hqvolume, hqtraded, hqended⟩ := h.orders o ho
    refine ⟨q, hq, hqid.trans hid.symm, hqvolume.trans hvolume.symm, ?_, fun hterminal => ?_⟩
    · rw [htraded, hqtraded, hid, filledVolume_append]
      omega
    · have hsame := hqended hterminal
      rw [hended (hsame.1 ▸ hterminal)]
      exact hsame
  · obtain ⟨o, ho, hid⟩ := h.covered q hq
    obtain ⟨o', ho', hid', _⟩ := hg.kept o ho
    exact ⟨o', ho', hid'.trans hid⟩
  · rcases List.mem_append.mp ht with ht | ht
    · exact h.opened t ht q hq hid
    · obtain ⟨o, ho, hoid⟩ := h.covered q hq
      have hopen := hg.opened t ht o ho (hoid.trans hid)
      obtain ⟨q', hq', hqid, _, _, hqended⟩ := h.orders o ho
      obtain rfl := hseen.unique hq hq' (hqid.trans hoid)
      by_contra hterminal
      have hterminal : terminalStatus q'.status = true := by simpa using hterminal
      rw [(hqended hterminal).1, hterminal] at hopen
      cases hopen

end Qtrade.Engine
