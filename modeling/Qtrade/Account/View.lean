import Mathlib.Data.Finset.Basic
import Qtrade.Account

/-!
# The account view and its history

The manager keeps running totals. Here they are what the history of the calls says: each order's last
snapshot freezes its part, and the first valid delivery of each trade moves cash once.
-/

namespace Qtrade.Account

/-- The order has funds frozen for it. -/
def freezes (order : Order) : Bool :=
  !terminalStatus order.status && consumesCash order.side && order.price.isFinite &&
    decide ((0 : Double) < order.price) && decide (0 < order.leftVolume)

/-- A finite amount that is not negative. -/
def IsAmount (a : Double) : Prop := ∃ q : ℚ, 0 ≤ q ∧ a = .fin q

theorem isAmount_zero : IsAmount 0 := ⟨0, le_refl 0, rfl⟩

theorem IsAmount.add {a b : Double} (ha : IsAmount a) (hb : IsAmount b) : IsAmount (a + b) := by
  obtain ⟨p, hp, rfl⟩ := ha
  obtain ⟨q, hq, rfl⟩ := hb
  exact ⟨p + q, add_nonneg hp hq, rfl⟩

theorem IsAmount.replace {previous rest frozen : Double} (hprevious : IsAmount previous)
    (hrest : IsAmount rest) (hfrozen : IsAmount frozen) :
    previous + rest + frozen - previous = frozen + rest := by
  obtain ⟨p, hp, rfl⟩ := hprevious
  obtain ⟨r, hr, rfl⟩ := hrest
  obtain ⟨f, hf, rfl⟩ := hfrozen
  have hvalue : Double.fin p + .fin r + .fin f - .fin p = .fin (p + r + f + -p) := rfl
  rw [hvalue, add_assoc p, add_comm p, add_neg_cancel_right, add_comm r]
  rfl

theorem IsAmount.max_zero {a : Double} (ha : IsAmount a) : Double.max 0 a = a := by
  obtain ⟨q, hq, rfl⟩ := ha
  unfold Double.max
  split
  case isTrue => rfl
  case isFalse hle =>
    have hlt : ¬(0 : ℚ) < q := by simpa [LT.lt, Double.lt] using hle
    rw [le_antisymm (not_lt.mp hlt) hq]
    rfl

theorem frozenFor_cases (order : Order) : frozenFor order = 0 ∧ freezes order = false ∨
    ∃ p : ℚ, 0 < p ∧ frozenFor order = .fin (p * (max 0 order.leftVolume : Int)) ∧
      freezes order = decide (0 < order.leftVolume) := by
  unfold frozenFor freezes
  split
  case isTrue h =>
    right
    rw [h, Bool.true_and]
    simp only [Bool.and_eq_true, decide_eq_true_eq] at h
    obtain ⟨⟨_, hfinite⟩, hpos⟩ := h
    cases hprice : order.price with
    | fin p =>
      rw [hprice] at hpos
      have hp : 0 < p := by simpa [LT.lt, Double.lt, Double.zero_def] using hpos
      exact ⟨p, hp, rfl, rfl⟩
    | inf | nan => simp [hprice, Double.isFinite] at hfinite
  case isFalse h =>
    left
    rw [Bool.not_eq_true] at h
    rw [h]
    exact ⟨rfl, rfl⟩

theorem isAmount_frozenFor (order : Order) : IsAmount (frozenFor order) := by
  rcases frozenFor_cases order with ⟨hzero, _⟩ | ⟨p, hp, hfrozen, _⟩
  · rw [hzero]
    exact isAmount_zero
  · rw [hfrozen]
    have hvolume : (0 : ℚ) ≤ (max 0 order.leftVolume : Int) := by exact_mod_cast le_max_left 0 order.leftVolume
    exact ⟨_, mul_nonneg hp.le hvolume, rfl⟩

theorem frozenFor_eq_zero_iff (order : Order) : frozenFor order = 0 ↔ freezes order = false := by
  rcases frozenFor_cases order with ⟨hzero, hno⟩ | ⟨p, hp, hfrozen, hiff⟩
  · rw [hzero, hno]
    exact iff_of_true rfl rfl
  · rw [hfrozen, hiff]
    simp [Double.zero_def, hp.ne']

/-! ## The frozen total -/

namespace AccountManager

/-- What is frozen for an order. -/
def frozenOf (s : AccountManager) (orderId : String) : Double := (s.orderFrozenAmounts.lookup orderId).getD 0

/-- What is frozen in all is the sum of what is frozen for each order. -/
structure Balanced (s : AccountManager) : Prop where
  amounts : ∀ orderId amount, s.orderFrozenAmounts.lookup orderId = some amount → IsAmount amount
  total : s.frozenAmount = Table.total s.orderFrozenAmounts

variable {s : AccountManager}

theorem Balanced.frozenOf (h : s.Balanced) (orderId : String) : IsAmount (s.frozenOf orderId) := by
  unfold AccountManager.frozenOf
  cases hlookup : s.orderFrozenAmounts.lookup orderId with
  | none => exact isAmount_zero
  | some amount => exact h.amounts orderId amount hlookup

theorem frozenOf_applyOrder (s : AccountManager) (order : Order) {orderId : String} (hid : orderId ≠ "") :
    (s.applyOrder order).frozenOf orderId =
      if order.orderId = orderId then frozenFor order else s.frozenOf orderId := by
  unfold applyOrder AccountManager.frozenOf
  by_cases hempty : order.orderId = ""
  · rw [if_pos hempty, if_neg]
    rintro rfl
    exact hid hempty
  · rw [if_neg hempty]
    dsimp only
    split
    case isTrue hterminal =>
      by_cases hsame : order.orderId = orderId
      · subst hsame
        simp [frozenFor, hterminal]
      · rw [Finmap.lookup_erase_ne (Ne.symm hsame), if_neg hsame]
    case isFalse =>
      rw [Table.lookup_store]
      by_cases hsame : order.orderId = orderId
      · rw [if_pos hsame.symm, if_pos hsame, Option.getD_some]
      · rw [if_neg (Ne.symm hsame), if_neg hsame]

theorem Balanced.erased (h : s.Balanced) (orderId : String) : ∀ id amount,
    (s.orderFrozenAmounts.erase orderId).lookup id = some amount → IsAmount amount := by
  intro id amount hlookup
  by_cases hsame : id = orderId
  · rw [hsame, Finmap.lookup_erase] at hlookup
    cases hlookup
  · rw [Finmap.lookup_erase_ne hsame] at hlookup
    exact h.amounts id amount hlookup

theorem Balanced.rest (h : s.Balanced) (orderId : String) :
    IsAmount (Table.total (s.orderFrozenAmounts.erase orderId)) :=
  Table.total_induction _ IsAmount isAmount_zero (fun _ _ => IsAmount.add) (h.erased orderId)

theorem Balanced.moved (h : s.Balanced) (order : Order) :
    s.frozenAmount + frozenFor order - s.frozenOf order.orderId =
      frozenFor order + Table.total (s.orderFrozenAmounts.erase order.orderId) := by
  have hmoved := (h.frozenOf order.orderId).replace (h.rest order.orderId) (isAmount_frozenFor order)
  unfold AccountManager.frozenOf at hmoved ⊢
  rwa [← Table.total_eq, ← h.total] at hmoved

theorem Balanced.unclamped (h : s.Balanced) (order : Order) :
    Double.max 0 (s.frozenAmount + frozenFor order - s.frozenOf order.orderId) =
      s.frozenAmount + frozenFor order - s.frozenOf order.orderId := by
  rw [h.moved]
  exact ((isAmount_frozenFor order).add (h.rest order.orderId)).max_zero

theorem Balanced.applyOrder (h : s.Balanced) (order : Order) : (s.applyOrder order).Balanced := by
  have hamount := (h.unclamped order).trans (h.moved order)
  unfold AccountManager.frozenOf at hamount
  unfold AccountManager.applyOrder
  split
  case isTrue => exact h
  case isFalse hempty =>
    refine ⟨?_, ?_⟩
    · dsimp only
      split
      case isTrue => exact h.erased order.orderId
      case isFalse =>
        intro orderId amount hlookup
        rw [Table.lookup_store] at hlookup
        split at hlookup
        case isTrue =>
          cases hlookup
          exact isAmount_frozenFor order
        case isFalse => exact h.amounts orderId amount hlookup
    · dsimp only
      rw [hamount]
      split
      case isTrue hterminal =>
        have hnothing : frozenFor order = 0 := by simp [frozenFor, hterminal]
        rw [hnothing, zero_add]
      case isFalse => rw [Table.total_insert]

theorem Balanced.congr {s' : AccountManager} (h : s.Balanced)
    (hamounts : s'.orderFrozenAmounts = s.orderFrozenAmounts) (htotal : s'.frozenAmount = s.frozenAmount) :
    s'.Balanced := by
  refine ⟨?_, ?_⟩
  · rw [hamounts]
    exact h.amounts
  · rw [hamounts, htotal]
    exact h.total

theorem applyTrade_frozen (s : AccountManager) (trade : Trade) :
    (s.applyTrade trade).orderFrozenAmounts = s.orderFrozenAmounts ∧
      (s.applyTrade trade).frozenAmount = s.frozenAmount := by
  unfold applyTrade
  split
  · exact ⟨rfl, rfl⟩
  · dsimp only
    split <;> exact ⟨rfl, rfl⟩

theorem balanced_empty : ({} : AccountManager).Balanced := by
  refine ⟨?_, rfl⟩
  intro orderId amount hlookup
  cases hlookup

end AccountManager

/-! ## The history -/

/-- A call of the manager. -/
inductive Call
  | applyAssetSnapshot (asset : AccountAsset)
  | applyOrder (order : Order)
  | applyTrade (trade : Trade)

/-- The calls so far, the latest one first. -/
abbrev History := List Call

namespace History

/-- The nonempty ids that orders were given for. -/
def seenIds : History → Finset String
  | [] => ∅
  | .applyOrder order :: past => if order.orderId = "" then seenIds past else insert order.orderId (seenIds past)
  | .applyAssetSnapshot _ :: past => seenIds past
  | .applyTrade _ :: past => seenIds past

/-- The last snapshot given for the id. -/
def lastOrder (orderId : String) : History → Option Order
  | [] => none
  | .applyOrder order :: past => if order.orderId = orderId then some order else lastOrder orderId past
  | .applyAssetSnapshot _ :: past => lastOrder orderId past
  | .applyTrade _ :: past => lastOrder orderId past

/-- What the id's last snapshot freezes. -/
def frozenOf (h : History) (orderId : String) : Double := ((h.lastOrder orderId).map frozenFor).getD 0

/-- A trade that counts: it has a volume and a price. -/
def Valid (trade : Trade) : Prop := 0 < trade.volume ∧ trade.price.isFinite = true

instance (trade : Trade) : Decidable (Valid trade) := by unfold Valid; infer_instance

/-- The keys of the valid trades. -/
def keys : History → Finset String
  | [] => ∅
  | .applyTrade trade :: past => if Valid trade then insert (generateTradeDedupKey trade) (keys past) else keys past
  | .applyAssetSnapshot _ :: past => keys past
  | .applyOrder _ :: past => keys past

theorem keys_cons (call : Call) (past : History) {key : String} (hkey : key ∈ keys past) :
    key ∈ keys (call :: past) := by
  cases call with
  | applyTrade trade =>
    rw [keys]
    split
    · exact Finset.mem_insert_of_mem hkey
    · exact hkey
  | applyAssetSnapshot | applyOrder => exact hkey

/-- The trade is valid, and no valid one with its key came before. -/
def IsFirst (past : History) (trade : Trade) : Prop := Valid trade ∧ generateTradeDedupKey trade ∉ past.keys

instance (past : History) (trade : Trade) : Decidable (IsFirst past trade) := by unfold IsFirst; infer_instance

theorem not_isFirst {h : History} {trade : Trade} (hmem : Call.applyTrade trade ∈ h) : ¬h.IsFirst trade := by
  rintro ⟨hvalid, hkey⟩
  apply hkey
  induction h with
  | nil => cases hmem
  | cons call past ih =>
    rcases List.mem_cons.mp hmem with rfl | hold
    · rw [keys, if_pos hvalid]
      exact Finset.mem_insert_self _ _
    · have hpast := ih hold (fun hk => hkey (keys_cons call past hk))
      exact keys_cons call past hpast

/-- The first valid delivery of each trade. -/
def firstDeliveries : History → List Trade
  | [] => []
  | .applyTrade trade :: past =>
    if IsFirst past trade then trade :: firstDeliveries past else firstDeliveries past
  | .applyAssetSnapshot _ :: past => firstDeliveries past
  | .applyOrder _ :: past => firstDeliveries past

/-- The first deliveries that came after the last asset snapshot. -/
def recentDeliveries : History → List Trade
  | [] => []
  | .applyTrade trade :: past =>
    if IsFirst past trade then trade :: recentDeliveries past else recentDeliveries past
  | .applyAssetSnapshot _ :: _ => []
  | .applyOrder _ :: past => recentDeliveries past

theorem seen_ne_empty {h : History} {orderId : String} (hmem : orderId ∈ h.seenIds) : orderId ≠ "" := by
  induction h with
  | nil => exact absurd hmem (Finset.notMem_empty _)
  | cons call past ih =>
    cases call with
    | applyOrder order =>
      unfold seenIds at hmem
      split at hmem
      case isTrue => exact ih hmem
      case isFalse hid =>
        rcases Finset.mem_insert.mp hmem with rfl | hold
        · exact hid
        · exact ih hold
    | applyAssetSnapshot | applyTrade => exact ih hmem

/-- The buying power of the last asset snapshot. -/
def buyingPower : History → Double
  | [] => 0
  | .applyAssetSnapshot asset :: _ => asset.buyingPower
  | .applyOrder _ :: past => buyingPower past
  | .applyTrade _ :: past => buyingPower past

end History

/-- What a trade comes to. -/
def tradeAmount (trade : Trade) : Double :=
  if 0 < trade.tradeAmount then trade.tradeAmount else trade.price * Double.ofInt trade.volume

/-- The cash that a trade brings in, or costs. -/
def cashOf (trade : Trade) : Double :=
  if consumesCash trade.side then .neg (tradeAmount trade)
  else if trade.side = .sell ∨ trade.side = .shortSell ∨ trade.side = .redemption then tradeAmount trade
  else 0

/-- The frozen sum that a history calls for. -/
def History.frozenAmount (h : History) : Double := ∑ orderId ∈ h.seenIds, h.frozenOf orderId

def History.filledAmount (h : History) : Double := (h.firstDeliveries.map tradeAmount).sum

def History.netCashFlow (h : History) : Double := (h.recentDeliveries.map cashOf).sum

namespace AccountManager

def perform (s : AccountManager) : Call → AccountManager
  | .applyAssetSnapshot asset => s.applyAssetSnapshot asset
  | .applyOrder order => s.applyOrder order
  | .applyTrade trade => s.applyTrade trade

/-- The calls in order. -/
def run (s : AccountManager) (calls : List Call) : AccountManager := calls.foldl perform s

/-! ## The view is what the history says -/

variable {s : AccountManager}

/-- The manager after a history. -/
structure Shows (s : AccountManager) (h : History) : Prop where
  balanced : s.Balanced
  seen : ∀ orderId ∈ s.orderFrozenAmounts, orderId ∈ h.seenIds
  frozen : ∀ orderId, orderId ≠ "" → s.frozenOf orderId = h.frozenOf orderId
  keys : s.appliedTradeIds = h.keys
  filled : s.filledAmount = h.filledAmount
  cash : s.netCashFlow = h.netCashFlow
  power : (if s.hasAssetSnapshot then s.asset.buyingPower else 0) = h.buyingPower

theorem shows_empty : ({} : AccountManager).Shows [] := by
  refine ⟨balanced_empty, ?_, fun _ _ => rfl, rfl, rfl, rfl, rfl⟩
  intro orderId hmem
  exact absurd hmem (Finmap.notMem_empty)

theorem Shows.applyAssetSnapshot {h : History} (hs : s.Shows h) (asset : AccountAsset) :
    (s.applyAssetSnapshot asset).Shows (.applyAssetSnapshot asset :: h) :=
  ⟨hs.balanced.congr rfl rfl, hs.seen, hs.frozen, hs.keys, hs.filled, rfl, rfl⟩

theorem applyOrder_rest (s : AccountManager) (order : Order) :
    (s.applyOrder order).appliedTradeIds = s.appliedTradeIds ∧
      (s.applyOrder order).filledAmount = s.filledAmount ∧ (s.applyOrder order).netCashFlow = s.netCashFlow ∧
      (s.applyOrder order).asset = s.asset ∧ (s.applyOrder order).hasAssetSnapshot = s.hasAssetSnapshot := by
  unfold AccountManager.applyOrder
  split <;> exact ⟨rfl, rfl, rfl, rfl, rfl⟩

theorem mem_applyOrder {order : Order} {orderId : String} (hmem : orderId ∈ (s.applyOrder order).orderFrozenAmounts) :
    orderId ∈ s.orderFrozenAmounts ∨ order.orderId ≠ "" ∧ orderId = order.orderId := by
  unfold AccountManager.applyOrder at hmem
  split at hmem
  case isTrue => exact Or.inl hmem
  case isFalse hid =>
    dsimp only at hmem
    split at hmem
    case isTrue => exact Or.inl (Finmap.mem_erase.mp hmem).2
    case isFalse =>
      rcases Finmap.mem_insert.mp hmem with hsame | hold
      · exact Or.inr ⟨hid, hsame⟩
      · exact Or.inl hold

theorem Shows.applyOrder {h : History} (hs : s.Shows h) (order : Order) :
    (s.applyOrder order).Shows (.applyOrder order :: h) := by
  obtain ⟨hkeys, hfilled, hcash, hasset, hhas⟩ := s.applyOrder_rest order
  refine ⟨hs.balanced.applyOrder order, ?_, ?_, hkeys.trans hs.keys, hfilled.trans hs.filled, hcash.trans hs.cash, ?_⟩
  · intro orderId hmem
    unfold History.seenIds
    rcases mem_applyOrder hmem with hold | ⟨hid, rfl⟩
    · split
      · exact hs.seen orderId hold
      · exact Finset.mem_insert_of_mem (hs.seen orderId hold)
    · rw [if_neg hid]
      exact Finset.mem_insert_self _ _
  · intro orderId hid
    rw [frozenOf_applyOrder s order hid]
    unfold History.frozenOf History.lastOrder
    split
    case isTrue => rfl
    case isFalse => exact hs.frozen orderId hid
  · rw [hasset, hhas]
    exact hs.power

theorem applyTrade_replayed {h : History} {trade : Trade} (hkeys : s.appliedTradeIds = h.keys)
    (hold : ¬h.IsFirst trade) : s.applyTrade trade = s := by
  unfold AccountManager.applyTrade
  split
  case isTrue => rfl
  case isFalse hvalid =>
    simp only [not_or, not_le, Bool.not_eq_true, Bool.not_eq_false'] at hvalid
    dsimp only
    rw [if_pos]
    rw [hkeys]
    by_contra hnew
    exact hold ⟨hvalid, hnew⟩

theorem applyTrade_first {h : History} {trade : Trade} (hkeys : s.appliedTradeIds = h.keys) (hnew : h.IsFirst trade) :
    (s.applyTrade trade).appliedTradeIds = insert (generateTradeDedupKey trade) s.appliedTradeIds ∧
      (s.applyTrade trade).filledAmount = tradeAmount trade + s.filledAmount ∧
      (s.applyTrade trade).netCashFlow = cashOf trade + s.netCashFlow ∧
      (s.applyTrade trade).asset = s.asset ∧ (s.applyTrade trade).hasAssetSnapshot = s.hasAssetSnapshot := by
  obtain ⟨⟨hvolume, hprice⟩, hkey⟩ := hnew
  rw [← hkeys] at hkey
  unfold AccountManager.applyTrade
  rw [if_neg (by simp [hvolume, hprice])]
  dsimp only
  rw [if_neg hkey]
  refine ⟨rfl, add_comm _ _, ?_, rfl, rfl⟩
  unfold cashOf
  dsimp only
  split
  case isTrue => exact Double.add_comm _ _
  case isFalse =>
    split
    case isTrue => exact add_comm _ _
    case isFalse => exact (zero_add _).symm

theorem Shows.applyTrade {h : History} (hs : s.Shows h) (trade : Trade) :
    (s.applyTrade trade).Shows (.applyTrade trade :: h) := by
  obtain ⟨hamounts, htotal⟩ := s.applyTrade_frozen trade
  have hbalanced := hs.balanced.congr hamounts htotal
  by_cases hnew : h.IsFirst trade
  · obtain ⟨hkeys, hfilled, hcash, hasset, hhas⟩ := applyTrade_first hs.keys hnew
    refine ⟨hbalanced, ?_, ?_, ?_, ?_, ?_, ?_⟩
    · rw [hamounts]
      exact hs.seen
    · unfold frozenOf
      rw [hamounts]
      exact hs.frozen
    · rw [hkeys, hs.keys]
      exact (if_pos hnew.1).symm
    · rw [hfilled, hs.filled]
      simp [History.filledAmount, History.firstDeliveries, hnew]
    · rw [hcash, hs.cash]
      simp [History.netCashFlow, History.recentDeliveries, hnew]
    · rw [hasset, hhas]
      exact hs.power
  · have hsame : History.keys (.applyTrade trade :: h) = h.keys := by
      rw [History.keys]
      split
      case isTrue hvalid =>
        apply Finset.insert_eq_of_mem
        by_contra hkey
        exact hnew ⟨hvalid, hkey⟩
      case isFalse => rfl
    rw [applyTrade_replayed hs.keys hnew]
    refine ⟨hs.balanced, hs.seen, hs.frozen, hs.keys.trans hsame.symm, ?_, ?_, hs.power⟩
    · rw [hs.filled]
      simp [History.filledAmount, History.firstDeliveries, hnew]
    · rw [hs.cash]
      simp [History.netCashFlow, History.recentDeliveries, hnew]

theorem Shows.perform {h : History} (hs : s.Shows h) (call : Call) : (s.perform call).Shows (call :: h) := by
  cases call with
  | applyAssetSnapshot asset => exact hs.applyAssetSnapshot asset
  | applyOrder order => exact hs.applyOrder order
  | applyTrade trade => exact hs.applyTrade trade

theorem Shows.run {h : History} (hs : s.Shows h) (calls : List Call) :
    (s.run calls).Shows (calls.reverse ++ h) := by
  induction calls generalizing s h with
  | nil => exact hs
  | cons call calls ih =>
    rw [List.reverse_cons, List.append_assoc]
    exact ih (hs.perform call)

theorem run_shows (calls : List Call) : (run {} calls).Shows calls.reverse := by
  have h := shows_empty.run calls
  rwa [List.append_nil] at h

/-- The running total is the sum over the orders seen. -/
theorem Shows.frozenAmount {h : History} (hs : s.Shows h) : s.frozenAmount = h.frozenAmount := by
  rw [hs.balanced.total, Table.total_eq_sum _ h.seenIds hs.seen]
  apply Finset.sum_congr rfl
  intro orderId hmem
  exact hs.frozen orderId (History.seen_ne_empty hmem)

/-! ## Replays -/

theorem run_append (s : AccountManager) (calls later : List Call) :
    s.run (calls ++ later) = (s.run calls).run later :=
  List.foldl_append

theorem run_replicate {h : History} {trade : Trade} (hs : s.Shows h) (hmem : Call.applyTrade trade ∈ h) (n : Nat) :
    s.run (List.replicate n (.applyTrade trade)) = s := by
  induction n with
  | zero => rfl
  | succ n ih =>
    have hsame : s.perform (.applyTrade trade) = s := applyTrade_replayed hs.keys (History.not_isFirst hmem)
    rw [List.replicate_succ]
    unfold run at ih ⊢
    rw [List.foldl_cons, hsame, ih]

/-- The getters return what the history says, the clamp at zero never takes effect, and a trade delivered
again changes nothing, however often and however late. -/
theorem view_is_history (calls : List Call) :
    (run {} calls).frozenAmount = History.frozenAmount calls.reverse ∧
      (run {} calls).filledAmount = History.filledAmount calls.reverse ∧
      (run {} calls).netCashFlow = History.netCashFlow calls.reverse ∧
      (run {} calls).getAvailableFunds =
        History.buyingPower calls.reverse + History.netCashFlow calls.reverse - History.frozenAmount calls.reverse ∧
      (∀ order, Double.max 0 ((run {} calls).frozenAmount + frozenFor order - (run {} calls).frozenOf order.orderId) =
        (run {} calls).frozenAmount + frozenFor order - (run {} calls).frozenOf order.orderId) ∧
      ∀ trade, Call.applyTrade trade ∈ calls → ∀ n later,
        run {} (calls ++ List.replicate n (.applyTrade trade) ++ later) = run {} (calls ++ later) := by
  have hs := run_shows calls
  have hfrozen := hs.frozenAmount
  refine ⟨hfrozen, hs.filled, hs.cash, ?_, hs.balanced.unclamped, ?_⟩
  · unfold getAvailableFunds
    rw [hs.power, hs.cash, hfrozen]
  · intro trade hmem n later
    rw [run_append, run_append, run_append, run_replicate hs (List.mem_reverse.mpr hmem)]

end AccountManager

end Qtrade.Account
