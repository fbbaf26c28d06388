import Qtrade.Lib.Average
import Qtrade.Position.Net
import Mathlib.Data.Rat.Cast.Order

/-!
# The average price of a position

Opening trades go into the average with their volume, closing trades leave it, and a position that is used up starts
again.
-/

namespace Qtrade.Position

open Average (Within mean average)

/-! ## One position -/

/-- Yesterday's part is a part of the total, and the average is a number. -/
structure Consistent (position : Qtrade.Position) : Prop where
  yesterday : 0 ≤ position.yesterdayVolume
  total : position.yesterdayVolume ≤ position.totalVolume
  finite : position.avgPrice.isFinite = true

theorem consistent_default : Consistent {} := ⟨by decide, by decide, rfl⟩

variable {position : Qtrade.Position} {volume : Int}

theorem Consistent.avgPrice (h : Consistent position) : position.avgPrice = .fin position.avgPrice.toRat := by
  have hfinite := h.finite
  cases ha : position.avgPrice with
  | fin q => rfl
  | _ => rw [ha] at hfinite; cases hfinite

theorem addAveragePrice_fin (a p : ℚ) {current : Int} (hcurrent : 0 ≤ current) (hvolume : 0 < volume) :
    addAveragePrice (.fin a) current (.fin p) volume = .fin (mean a current p volume) := by
  have htotal : current + volume ≠ 0 := by omega
  have hrat : ((current + volume : Int) : ℚ) ≠ 0 := Int.cast_ne_zero.mpr htotal
  rw [addAveragePrice, if_neg htotal, Double.fin_mul_ofInt, Double.fin_mul_ofInt, Double.fin_add, Double.ofInt,
    Double.fin_div _ hrat, mean, Int.cast_add]

theorem Consistent.reduced (h : Consistent position) (effect : PositionEffectType) (hvolume : 0 < volume) :
    Consistent (reducePosition position effect volume) ∧
      (reducePosition position effect volume).yesterdayVolume ≤ position.yesterdayVolume ∧
      (reducePosition position effect volume).totalVolume ≤ position.totalVolume ∧
      (0 < (reducePosition position effect volume).totalVolume →
        (reducePosition position effect volume).avgPrice = position.avgPrice) := by
  obtain ⟨hyesterday, htotal, hfinite⟩ := h
  refine ⟨⟨?_, ?_, ?_⟩, ?_, ?_, ?_⟩
  · unfold reducePosition reduceTodayYesterday
    split_ifs <;> simp only <;> omega
  · unfold reducePosition
    simp only
    omega
  · unfold reducePosition
    simp only
    split
    · rfl
    · exact hfinite
  · unfold reducePosition reduceTodayYesterday
    split_ifs <;> simp only <;> omega
  · rw [reducePosition_total]
    split_ifs <;> omega
  · unfold reducePosition
    intro hpositive
    simp only at hpositive ⊢
    rw [if_neg hpositive.ne']

theorem Consistent.opened (h : Consistent position) (p : ℚ) (hvolume : 0 < volume) :
    Consistent (openPosition position (.fin p) volume) ∧
      (openPosition position (.fin p) volume).avgPrice =
        .fin (mean position.avgPrice.toRat position.totalVolume p volume) := by
  obtain ⟨hyesterday, htotal, -⟩ := id h
  have haverage : (openPosition position (.fin p) volume).avgPrice =
      .fin (mean position.avgPrice.toRat position.totalVolume p volume) := by
    unfold openPosition
    rw [h.avgPrice]
    exact addAveragePrice_fin _ p (hyesterday.trans htotal) hvolume
  refine ⟨⟨hyesterday, ?_, ?_⟩, haverage⟩
  · unfold openPosition
    simp only
    omega
  · rw [haverage]
    rfl

namespace PositionManager

variable {s : PositionManager} {instrument : String} {direction : PositionDirectionType} {trade : Trade}
  {prices : List ℚ}

/-! ## The prices that an average is made of -/

/-- After a trade: those of the opening trades since the position was last flat. -/
def pricesAfter (s : PositionManager) (instrument : String) (direction : PositionDirectionType) (prices : List ℚ)
    (trade : Trade) : List ℚ :=
  if (s.applyTrade trade).held instrument direction = 0 then []
  else if s.touches instrument direction trade && isOpening trade then prices ++ [trade.price.toRat]
  else prices

/-- After a run of trades. -/
def pricesSince (s : PositionManager) (instrument : String) (direction : PositionDirectionType) (prices : List ℚ) :
    List Trade → List ℚ
  | [] => prices
  | trade :: rest =>
    (s.applyTrade trade).pricesSince instrument direction (s.pricesAfter instrument direction prices trade) rest

/-- The price that a position starts with, unless it is flat. -/
def startPrices (s : PositionManager) (instrument : String) (direction : PositionDirectionType) : List ℚ :=
  if s.held instrument direction = 0 then []
  else ((s.getPosition instrument direction).map (·.avgPrice.toRat)).toList

/-- The position is consistent, and unless it is flat its average is within these prices. -/
def Based (s : PositionManager) (instrument : String) (direction : PositionDirectionType) (prices : List ℚ) : Prop :=
  ∀ position, s.getPosition instrument direction = some position →
    Consistent position ∧ (0 < position.totalVolume → Within prices position.avgPrice.toRat)

theorem price_of_accepts (h : s.accepts trade = true) : trade.price = .fin trade.price.toRat := by
  obtain ⟨-, -, hfinite, -⟩ := accepts_iff.mp h
  cases hp : trade.price with
  | fin q => rfl
  | _ => rw [hp] at hfinite; cases hfinite

theorem held_eq (h : s.getPosition instrument direction = some position) :
    s.held instrument direction = position.totalVolume := by
  simp [held, h]

theorem Based.consistent (h : s.Based instrument direction prices) :
    Consistent ((s.getPosition instrument direction).getD {}) := by
  cases hp : s.getPosition instrument direction with
  | none => exact consistent_default
  | some position => exact (h position hp).1

theorem Based.applyTrade (h : s.Based instrument direction prices) (trade : Trade) :
    (s.applyTrade trade).Based instrument direction (s.pricesAfter instrument direction prices trade) := by
  intro after hafter
  have hheld := held_eq hafter
  unfold pricesAfter
  rw [getPosition_applyTrade] at hafter
  split at hafter
  case isFalse htouches =>
    obtain ⟨hconsistent, hwithin⟩ := h after hafter
    refine ⟨hconsistent, fun hpositive => ?_⟩
    rw [if_neg (by omega), if_neg (by simp [htouches])]
    exact hwithin hpositive
  case isTrue htouches =>
    have haccepts := touches_accepts htouches
    have hvolume := (accepts_iff.mp haccepts).2.1
    unfold traded at hafter
    cases hopening : isOpening trade with
    | true =>
      rw [hopening, if_pos rfl, price_of_accepts haccepts] at hafter
      have hbefore := h.consistent
      obtain ⟨hconsistent, haverage⟩ := hbefore.opened trade.price.toRat hvolume
      cases hafter
      refine ⟨hconsistent, fun hpositive => ?_⟩
      rw [if_neg (by omega), if_pos (by simp [htouches]), haverage, Double.toRat_fin]
      have hweight : (0 : ℚ) < trade.volume := Int.cast_pos.mpr hvolume
      rcases (hbefore.yesterday.trans hbefore.total).eq_or_lt with hflat | hheld
      · rw [← hflat, Int.cast_zero, Average.mean_zero _ _ hweight.ne']
        exact .of_mem (by simp)
      · cases hp : s.getPosition instrument direction with
        | none => simp [hp] at hheld
        | some position =>
          rw [hp] at hheld
          exact ((h position hp).2 hheld).mean (Int.cast_nonneg hheld.le) hweight
    | false =>
      rw [hopening] at hafter
      simp only [Bool.false_eq_true, if_false, Option.map_eq_some_iff] at hafter
      obtain ⟨position, hp, rfl⟩ := hafter
      obtain ⟨hconsistent, hwithin⟩ := h position hp
      obtain ⟨hreduced, -, hle, haverage⟩ := hconsistent.reduced trade.positionEffect hvolume
      refine ⟨hreduced, fun hpositive => ?_⟩
      rw [if_neg (by omega), if_neg (by simp), haverage hpositive]
      exact hwithin (by omega)

theorem based_foldl (h : s.Based instrument direction prices) (trades : List Trade) :
    (trades.foldl PositionManager.applyTrade s).Based instrument direction
      (s.pricesSince instrument direction prices trades) := by
  induction trades generalizing s prices with
  | nil => exact h
  | cons trade rest ih => exact ih (h.applyTrade trade)

theorem Based.yesterday_applyTrade (h : s.Based instrument direction prices) (trade : Trade)
    (hp : s.getPosition instrument direction = some position) :
    ∃ after, (s.applyTrade trade).getPosition instrument direction = some after ∧
      after.yesterdayVolume ≤ position.yesterdayVolume := by
  rw [getPosition_applyTrade, hp]
  split
  case isFalse => exact ⟨position, rfl, le_rfl⟩
  case isTrue htouches =>
    have hvolume := (accepts_iff.mp (touches_accepts htouches)).2.1
    unfold traded
    split
    · exact ⟨_, rfl, le_rfl⟩
    · exact ⟨_, rfl, ((h position hp).1.reduced trade.positionEffect hvolume).2.1⟩

theorem Based.yesterday_foldl (h : s.Based instrument direction prices) (trades : List Trade)
    (hp : s.getPosition instrument direction = some position) :
    ∃ after, (trades.foldl PositionManager.applyTrade s).getPosition instrument direction = some after ∧
      after.yesterdayVolume ≤ position.yesterdayVolume := by
  induction trades generalizing s prices position with
  | nil => exact ⟨position, hp, le_rfl⟩
  | cons trade rest ih =>
    obtain ⟨next, hnext, hle⟩ := h.yesterday_applyTrade trade hp
    obtain ⟨after, hafter, hle'⟩ := ih (h.applyTrade trade) hnext
    exact ⟨after, hafter, hle'.trans hle⟩

/-! ## The snapshot -/

theorem mem_of_applyPositionSnapshot (s : PositionManager) (positions : List Qtrade.Position)
    (h : (s.applyPositionSnapshot positions).getPosition instrument direction = some position) :
    position ∈ positions := by
  have hall : ∀ s : PositionManager, (positions.foldl
      (fun s source => if source.instrument = "" ∨ source.totalVolume < 0 then s
        else s.setPosition source.instrument source.direction source) s).getPosition instrument direction =
        some position → s.getPosition instrument direction = some position ∨ position ∈ positions := by
    clear h
    induction positions with
    | nil => exact fun s h => Or.inl h
    | cons source rest ih =>
      intro s h
      rw [List.foldl_cons] at h
      rcases ih _ h with hstored | hmem
      · split at hstored
        · exact Or.inl hstored
        · rw [getPosition_setPosition] at hstored
          split at hstored
          · cases hstored
            exact Or.inr (List.mem_cons_self ..)
          · exact Or.inl hstored
      · exact Or.inr (List.mem_cons_of_mem _ hmem)
  refine (hall _ h).resolve_left ?_
  simp [getPosition, directions]

theorem based_applyPositionSnapshot (s : PositionManager) {positions : List Qtrade.Position}
    (h : ∀ position ∈ positions, Consistent position) :
    (s.applyPositionSnapshot positions).Based instrument direction
      ((s.applyPositionSnapshot positions).startPrices instrument direction) := by
  intro position hp
  refine ⟨h position (mem_of_applyPositionSnapshot s positions hp), fun hpositive => ?_⟩
  unfold startPrices
  rw [held_eq hp, if_neg hpositive.ne', hp]
  exact .of_mem (by simp)

/-! ## Opening trades alone -/

/-- The trades on one position, as prices with volumes. -/
def lots (instrument : String) (direction : PositionDirectionType) (trades : List Trade) : List (ℚ × ℚ) :=
  (trades.filter fun trade => trade.instrument == instrument && target? trade == some direction).map
    fun trade => (trade.price.toRat, trade.volume)

/-- Accepted trades on this position only open it. -/
def OnlyOpens (s : PositionManager) (instrument : String) (direction : PositionDirectionType)
    (trades : List Trade) : Prop :=
  ∀ trade ∈ s.applied trades, trade.instrument = instrument → target? trade = some direction → isOpening trade = true

theorem lots_append (instrument : String) (direction : PositionDirectionType) (trades trades' : List Trade) :
    lots instrument direction (trades ++ trades') =
      lots instrument direction trades ++ lots instrument direction trades' := by
  simp [lots]

theorem volume_of_applied {trades : List Trade} (h : trade ∈ s.applied trades) : 0 < trade.volume := by
  induction trades generalizing s with
  | nil => cases h
  | cons first rest ih =>
    rw [applied, List.mem_append] at h
    rcases h with h | h
    · split at h
      case isTrue haccepts =>
        rw [List.mem_singleton.mp h]
        exact (accepts_iff.mp haccepts).2.1
      case isFalse => cases h
    · exact ih h

theorem lots_pos {trades : List Trade} {lot : ℚ × ℚ} (h : lot ∈ lots instrument direction (s.applied trades)) :
    0 < lot.2 := by
  obtain ⟨trade, hmem, rfl⟩ := List.mem_map.mp h
  exact Int.cast_pos.mpr (volume_of_applied (List.mem_filter.mp hmem).1)

theorem lots_applied (s : PositionManager) (trade : Trade) :
    lots instrument direction (s.applied [trade]) =
      if s.touches instrument direction trade then [(trade.price.toRat, (trade.volume : ℚ))] else [] := by
  unfold lots touches
  cases haccepts : s.accepts trade with
  | false => simp [applied, haccepts]
  | true => by_cases h : trade.instrument = instrument ∧ target? trade = some direction <;> simp_all [applied]

/-- What is stored is the volume and the average of the lots since the position was flat. -/
structure Averages (s : PositionManager) (instrument : String) (direction : PositionDirectionType)
    (lots : List (ℚ × ℚ)) : Prop where
  held : (s.held instrument direction : ℚ) = Average.weight lots
  average : lots ≠ [] → ∃ position, s.getPosition instrument direction = some position ∧
    position.avgPrice = .fin (average lots)

theorem Averages.untouched {lots : List (ℚ × ℚ)} (h : s.Averages instrument direction lots)
    (htouches : s.touches instrument direction trade = false) :
    (s.applyTrade trade).Averages instrument direction lots := by
  refine ⟨?_, fun hne => ?_⟩
  · rw [held_other htouches]
    exact h.held
  · rw [getPosition_applyTrade, htouches]
    exact h.average hne

theorem Averages.opened {lots : List (ℚ × ℚ)} (h : s.Averages instrument direction lots)
    (hlots : ∀ lot ∈ lots, 0 < lot.2) (hbased : s.Based instrument direction prices)
    (htouches : s.touches instrument direction trade = true) (hopening : isOpening trade = true) :
    (s.applyTrade trade).Averages instrument direction (lots ++ [(trade.price.toRat, (trade.volume : ℚ))]) := by
  have haccepts := touches_accepts htouches
  have hvolume := (accepts_iff.mp haccepts).2.1
  have hweight : (trade.volume : ℚ) ≠ 0 := Int.cast_ne_zero.mpr hvolume.ne'
  have hheld : s.held instrument direction = ((s.getPosition instrument direction).getD {}).totalVolume := by
    unfold PositionManager.held
    cases s.getPosition instrument direction <;> rfl
  have hafter : (s.applyTrade trade).getPosition instrument direction = some
      (openPosition ((s.getPosition instrument direction).getD {}) (.fin trade.price.toRat) trade.volume) := by
    rw [getPosition_applyTrade, if_pos htouches, traded, hopening, if_pos rfl, price_of_accepts haccepts,
      Double.toRat_fin]
  obtain ⟨-, haverage⟩ := hbased.consistent.opened trade.price.toRat hvolume
  refine ⟨?_, fun _ => ⟨_, hafter, ?_⟩⟩
  · rw [held_eq hafter, Average.weight_concat, ← h.held, hheld, openPosition, Int.cast_add]
  · rw [haverage, Average.average_concat hlots, ← hheld, h.held]
    rcases eq_or_ne lots [] with rfl | hne
    -- The first lot from flat. What was the average before has no weight.
    · have hnothing : Average.weight ([] : List (ℚ × ℚ)) = 0 := rfl
      rw [hnothing, Average.mean_zero _ _ hweight, Average.mean_zero _ _ hweight]
    · obtain ⟨position, hp, hstored⟩ := h.average hne
      rw [hp, Option.getD_some, hstored, Double.toRat_fin]

theorem averages_foldl (hbased : s.Based instrument direction prices) (flat : s.held instrument direction = 0)
    (opens : List Trade) (only : s.OnlyOpens instrument direction opens) :
    (opens.foldl PositionManager.applyTrade s).Averages instrument direction
      (lots instrument direction (s.applied opens)) := by
  induction opens using List.reverseRecOn with
  | nil =>
    refine ⟨?_, fun hne => absurd rfl hne⟩
    rw [List.foldl_nil, flat]
    rfl
  | append_singleton before trade ih =>
    have hbefore := ih fun t ht => only t (by rw [applied_append]; exact List.mem_append_left _ ht)
    rw [List.foldl_append, applied_append, lots_append, lots_applied]
    simp only [List.foldl_cons, List.foldl_nil]
    split
    case isTrue htouches =>
      refine hbefore.opened (fun _ => lots_pos) (based_foldl hbased before) htouches ?_
      have happlied : trade ∈ s.applied (before ++ [trade]) := by
        rw [applied_append]
        exact List.mem_append_right _ (by simp [applied, touches_accepts htouches])
      simp only [touches, Bool.and_eq_true, beq_iff_eq] at htouches
      exact only trade happlied htouches.1.2 htouches.2
    case isFalse htouches =>
      rw [List.append_nil]
      exact hbefore.untouched (by simpa using htouches)

/-! ## A snapshot and the trades after it -/

/-- From a snapshot in which yesterday's parts are parts of the totals and prices are numbers, over any trades: every
position stays so, yesterday's parts do not grow, an average lies within the prices that it is made of, and it is
the weighted average of the opening trades where there were only such since the position was flat. -/
theorem cost_basis (s : PositionManager) {positions : List Qtrade.Position}
    (snapshot : ∀ position ∈ positions, 0 ≤ position.yesterdayVolume ∧
      position.yesterdayVolume ≤ position.totalVolume ∧ position.avgPrice.isFinite = true)
    (instrument : String) (direction : PositionDirectionType) (before rest : List Trade) :
    let start := s.applyPositionSnapshot positions
    let middle := before.foldl PositionManager.applyTrade start
    let after := rest.foldl PositionManager.applyTrade middle
    (∀ position, middle.getPosition instrument direction = some position →
      0 ≤ position.yesterdayVolume ∧ position.yesterdayVolume ≤ position.totalVolume ∧
        (0 < position.totalVolume → ∃ price, position.avgPrice = .fin price ∧
          Within (start.pricesSince instrument direction (start.startPrices instrument direction) before) price)) ∧
      (∀ position, middle.getPosition instrument direction = some position →
        ∃ later, after.getPosition instrument direction = some later ∧
          later.yesterdayVolume ≤ position.yesterdayVolume) ∧
      (middle.held instrument direction = 0 → middle.OnlyOpens instrument direction rest →
        lots instrument direction (middle.applied rest) ≠ [] →
        ∃ position, after.getPosition instrument direction = some position ∧
          (position.totalVolume : ℚ) = Average.weight (lots instrument direction (middle.applied rest)) ∧
          position.avgPrice = .fin (average (lots instrument direction (middle.applied rest)))) := by
  intro start middle after
  have hconsistent : ∀ position ∈ positions, Consistent position := fun position hmem =>
    ⟨(snapshot position hmem).1, (snapshot position hmem).2.1, (snapshot position hmem).2.2⟩
  have hstart : start.Based instrument direction (start.startPrices instrument direction) :=
    based_applyPositionSnapshot s hconsistent
  have hbased := based_foldl hstart before
  refine ⟨fun position hp => ?_, fun position hp => hbased.yesterday_foldl rest hp, fun hflat honly hlots => ?_⟩
  · obtain ⟨hc, hwithin⟩ := hbased position hp
    exact ⟨hc.yesterday, hc.total, fun hpositive => ⟨_, hc.avgPrice, hwithin hpositive⟩⟩
  · have haverages := averages_foldl hbased hflat rest honly
    obtain ⟨position, hp, haverage⟩ := haverages.average hlots
    exact ⟨position, hp, held_eq hp ▸ haverages.held, haverage⟩

def openLots : List Trade :=
  [{ tradeId := "2", instrument := "i", price := .fin 12, volume := 3, side := .buy, positionEffect := .open },
    { tradeId := "3", instrument := "i", price := .fin 16, volume := 1, side := .buy, positionEffect := .open }]

def sellAll : Trade :=
  { tradeId := "1", instrument := "i", price := .fin 11, volume := 9, side := .sell, positionEffect := .close }

/-- Five at 10 are sold, and four are bought, three at 12 and one at 16. -/
theorem cost_basis_reopened : ∃ position,
    (openLots.foldl PositionManager.applyTrade (fiveLong.applyTrade sellAll)).getPosition "i" .long = some position ∧
      (position.totalVolume : ℚ) = 4 ∧ position.avgPrice = .fin 13 := by
  have hsnapshot : ∀ position ∈ [({ instrument := "i", totalVolume := 5, yesterdayVolume := 2, avgPrice := .fin 10 } :
      Qtrade.Position)], 0 ≤ position.yesterdayVolume ∧ position.yesterdayVolume ≤ position.totalVolume ∧
        position.avgPrice.isFinite = true := by simp [Double.isFinite]
  have hweight : Average.weight (lots "i" .long ((fiveLong.applyTrade sellAll).applied openLots)) = 4 := by
    decide +kernel
  have haverage : average (lots "i" .long ((fiveLong.applyTrade sellAll).applied openLots)) = 13 := by
    decide +kernel
  obtain ⟨position, hp, htotal, hprice⟩ := (cost_basis {} hsnapshot "i" .long [sellAll] openLots).2.2
    (by decide +kernel) (by unfold OnlyOpens; decide +kernel) (by decide +kernel)
  exact ⟨position, hp, htotal.trans hweight, hprice.trans (congrArg Double.fin haverage)⟩

end PositionManager

end Qtrade.Position
