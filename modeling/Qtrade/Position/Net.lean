import Qtrade.Position.Closing

/-!
# The net position and the trades

`GetNetPosition` answers with a net record where there is one, and with the two sides where there is none. Trades
change the two sides only.
-/

namespace Qtrade.Position

/-- What a trade adds to the net position. -/
def signedVolume (trade : Trade) : Int := if trade.side = .buy then trade.volume else -trade.volume

/-- What the trades on an instrument add to it. -/
def netVolume (instrument : String) (trades : List Trade) : Int :=
  ((trades.filter (·.instrument == instrument)).map signedVolume).sum

theorem netVolume_append (instrument : String) (trades trades' : List Trade) :
    netVolume instrument (trades ++ trades') = netVolume instrument trades + netVolume instrument trades' := by
  unfold netVolume
  rw [List.filter_append, List.map_append, List.sum_append]

namespace PositionManager

variable {s : PositionManager} {instrument : String} {direction : PositionDirectionType} {trade : Trade}

/-- What is held in one direction. -/
def held (s : PositionManager) (instrument : String) (direction : PositionDirectionType) : Int :=
  ((s.getPosition instrument direction).map (·.totalVolume)).getD 0

/-- The trades that are accepted, each in the state that it finds. -/
def applied (s : PositionManager) : List Trade → List Trade
  | [] => []
  | trade :: rest => (if s.accepts trade then [trade] else []) ++ (s.applyTrade trade).applied rest

theorem applied_append (s : PositionManager) (trades trades' : List Trade) :
    s.applied (trades ++ trades') = s.applied trades ++ (trades.foldl applyTrade s).applied trades' := by
  induction trades generalizing s with
  | nil => rfl
  | cons trade rest ih =>
    simp only [List.cons_append, applied, ih, List.append_assoc]
    rfl

theorem getNetPosition_eq (s : PositionManager) (instrument : String) :
    s.getNetPosition instrument =
      match s.getPosition instrument .net with
      | some position => position.totalVolume
      | none => s.held instrument .long - s.held instrument .short := by
  unfold getNetPosition held getPosition directions
  cases s.positions.lookup instrument with
  | none => simp
  | some directions =>
    simp only [Option.getD_some]
    cases directions.lookup .net with
    | some position => rfl
    | none =>
      have hkeys : ∀ k ∈ directions, k ∈ ({.unknown, .long, .short, .net} : Finset PositionDirectionType) := by
        intro k _
        cases k <;> decide
      rw [Table.sumBy_eq_sum _ _ _ hkeys, Finset.sum_insert (by decide), Finset.sum_insert (by decide),
        Finset.sum_insert (by decide), Finset.sum_singleton]
      cases directions.lookup .unknown <;> cases directions.lookup .long <;> cases directions.lookup .short <;>
        cases directions.lookup .net <;> simp [Int.sub_eq_add_neg]

/-! ## One trade -/

/-- The trade is a buy or a sell of something, and closes no more than is held on the side that it closes. -/
structure Proper (s : PositionManager) (trade : Trade) : Prop where
  sided : trade.side = .buy ∨ trade.side = .sell
  positive : 0 < trade.volume
  covered : ∀ direction ∈ target? trade, isOpening trade = false → trade.volume ≤ s.held trade.instrument direction

instance (s : PositionManager) (trade : Trade) : Decidable (s.Proper trade) :=
  decidable_of_iff
    ((trade.side = .buy ∨ trade.side = .sell) ∧ 0 < trade.volume ∧
      ∀ direction ∈ target? trade, isOpening trade = false → trade.volume ≤ s.held trade.instrument direction)
    ⟨fun h => ⟨h.1, h.2.1, h.2.2⟩, fun h => ⟨h.sided, h.positive, h.covered⟩⟩

/-- A close takes all of its volume from the position. -/
def takesAll (position : Qtrade.Position) (effect : PositionEffectType) (volume : Int) : Bool :=
  if effect = .closeToday then decide (volume ≤ position.totalVolume - position.yesterdayVolume)
  else if effect = .closeYesterday then
    decide (volume ≤ position.yesterdayVolume) && decide (position.yesterdayVolume ≤ position.totalVolume)
  else decide (position.yesterdayVolume ≤ position.totalVolume)

/-- The trade is not applied to the instrument, or there is no net record of it and a close finds all of its volume
in the part that it closes. -/
def follows (s : PositionManager) (instrument : String) (trade : Trade) : Bool :=
  !s.accepts trade || trade.instrument != instrument ||
    ((s.getPosition instrument .net).isNone &&
      (isOpening trade ||
        (target? trade).all fun direction =>
          (s.getPosition instrument direction).all (takesAll · trade.positionEffect trade.volume)))

theorem reducePosition_takesAll_iff {position : Qtrade.Position} (effect : PositionEffectType) {volume : Int}
    (hheld : volume ≤ position.totalVolume) :
    (reducePosition position effect volume).totalVolume = position.totalVolume - volume ↔
      takesAll position effect volume = true := by
  rw [reducePosition_total]
  unfold takesAll
  split_ifs <;> simp only [Bool.and_eq_true, decide_eq_true_eq] <;> omega

theorem held_applyTrade (s : PositionManager) (trade : Trade) (instrument : String)
    (direction : PositionDirectionType) :
    (s.applyTrade trade).held instrument direction =
      if s.touches instrument direction trade then
        ((traded trade (s.getPosition instrument direction)).map (·.totalVolume)).getD 0
      else s.held instrument direction := by
  unfold held
  rw [getPosition_applyTrade]
  split <;> rfl

theorem netRecord_applyTrade (s : PositionManager) (trade : Trade) (instrument : String) :
    (s.applyTrade trade).getPosition instrument .net = s.getPosition instrument .net := by
  rw [getPosition_applyTrade, if_neg]
  unfold touches target?
  split_ifs <;> simp

theorem held_opened (haccepts : s.accepts trade = true) (htarget : target? trade = some direction)
    (hopening : isOpening trade = true) :
    (s.applyTrade trade).held trade.instrument direction = s.held trade.instrument direction + trade.volume := by
  rw [held_applyTrade, if_pos (by simp [touches, haccepts, htarget])]
  unfold held traded openPosition
  cases s.getPosition trade.instrument direction <;> simp [hopening]

theorem held_closed_iff (haccepts : s.accepts trade = true) (htarget : target? trade = some direction)
    (hclosing : isOpening trade = false) (proper : s.Proper trade) :
    (s.applyTrade trade).held trade.instrument direction = s.held trade.instrument direction - trade.volume ↔
      (s.getPosition trade.instrument direction).all (takesAll · trade.positionEffect trade.volume) = true := by
  have hcovered := proper.covered direction htarget hclosing
  have hpositive := proper.positive
  rw [held_applyTrade, if_pos (by simp [touches, haccepts, htarget])]
  unfold held traded at *
  cases hp : s.getPosition trade.instrument direction with
  | none =>
    rw [hp] at hcovered
    simp at hcovered
    omega
  | some position =>
    rw [hp] at hcovered
    simpa [hclosing] using reducePosition_takesAll_iff trade.positionEffect hcovered

theorem held_other (h : s.touches instrument direction trade = false) :
    (s.applyTrade trade).held instrument direction = s.held instrument direction := by
  rw [held_applyTrade, h]
  rfl

theorem net_other (h : s.accepts trade = false ∨ trade.instrument ≠ instrument) :
    (s.applyTrade trade).getNetPosition instrument = s.getNetPosition instrument := by
  have hsame : ∀ direction, s.touches instrument direction trade = false := by
    intro direction
    unfold touches
    rcases h with h | h <;> simp [h]
  rw [getNetPosition_eq, getNetPosition_eq, netRecord_applyTrade, held_other (hsame .long), held_other (hsame .short)]

theorem sides_applyTrade_iff (haccepts : s.accepts trade = true) (proper : s.Proper trade) :
    (s.applyTrade trade).held trade.instrument .long - (s.applyTrade trade).held trade.instrument .short =
        s.held trade.instrument .long - s.held trade.instrument .short + signedVolume trade ↔
      (isOpening trade || (target? trade).all fun direction =>
        (s.getPosition trade.instrument direction).all (takesAll · trade.positionEffect trade.volume)) = true := by
  have htouches : ∀ direction, target? trade ≠ some direction →
      s.touches trade.instrument direction trade = false := by
    intro direction hne
    simp [touches, hne]
  cases hopening : isOpening trade with
  | true =>
    rcases proper.sided with hside | hside
    · have htarget : target? trade = some .long := by simp [target?, hside, hopening]
      rw [held_opened haccepts htarget hopening, held_other (htouches .short (by simp [htarget]))]
      simp only [signedVolume, hside, if_true, Bool.true_or, iff_true]
      omega
    · have htarget : target? trade = some .short := by simp [target?, hside, hopening]
      rw [held_opened haccepts htarget hopening, held_other (htouches .long (by simp [htarget]))]
      simp only [signedVolume, hside, Bool.true_or, iff_true, reduceCtorEq, if_false]
      omega
  | false =>
    rcases proper.sided with hside | hside
    · have htarget : target? trade = some .short := by simp [target?, hside, hopening]
      have hclosed := held_closed_iff haccepts htarget hopening proper
      rw [htarget, Option.all_some, Bool.false_or, ← hclosed, held_other (htouches .long (by simp [htarget]))]
      simp only [signedVolume, hside, if_true]
      omega
    · have htarget : target? trade = some .long := by simp [target?, hside, hopening]
      have hclosed := held_closed_iff haccepts htarget hopening proper
      rw [htarget, Option.all_some, Bool.false_or, ← hclosed, held_other (htouches .short (by simp [htarget]))]
      simp only [signedVolume, hside, reduceCtorEq, if_false]
      omega

theorem net_applyTrade_iff (s : PositionManager) (instrument : String) (proper : s.Proper trade) :
    (s.applyTrade trade).getNetPosition instrument =
        s.getNetPosition instrument + netVolume instrument (s.applied [trade]) ↔
      s.follows instrument trade = true := by
  unfold follows
  cases haccepts : s.accepts trade with
  | false =>
    rw [net_other (.inl haccepts)]
    simp [applied, haccepts, netVolume]
  | true =>
    have hvolume : netVolume instrument (s.applied [trade]) =
        if trade.instrument = instrument then signedVolume trade else 0 := by
      unfold netVolume
      split <;> simp_all [applied]
    rw [hvolume]
    by_cases hinstrument : trade.instrument = instrument
    · subst hinstrument
      rw [getNetPosition_eq, getNetPosition_eq, netRecord_applyTrade, if_pos rfl]
      cases s.getPosition trade.instrument .net with
      | none => simpa using sides_applyTrade_iff haccepts proper
      | some position =>
        have hpositive := proper.positive
        have hmoved : signedVolume trade ≠ 0 := by
          unfold signedVolume
          split <;> omega
        simp [hmoved]
    · rw [net_other (.inr hinstrument)]
      simp [hinstrument]

/-! ## A run of trades -/

/-- Every trade is proper in the state that it finds. -/
def ProperRun (s : PositionManager) : List Trade → Prop
  | [] => True
  | trade :: rest => s.Proper trade ∧ (s.applyTrade trade).ProperRun rest

instance decidableProperRun (s : PositionManager) : (trades : List Trade) → Decidable (s.ProperRun trades)
  | [] => .isTrue trivial
  | trade :: rest =>
    have := decidableProperRun (s.applyTrade trade) rest
    inferInstanceAs (Decidable (_ ∧ _))

theorem ProperRun.at {before after : List Trade} (h : s.ProperRun (before ++ trade :: after)) :
    (before.foldl applyTrade s).Proper trade := by
  induction before generalizing s with
  | nil => exact h.1
  | cons first rest ih => exact ih h.2

theorem net_concat_iff (s : PositionManager) (instrument : String) {before : List Trade}
    (proper : (before.foldl applyTrade s).Proper trade)
    (hbefore : (before.foldl applyTrade s).getNetPosition instrument =
      s.getNetPosition instrument + netVolume instrument (s.applied before)) :
    ((before ++ [trade]).foldl applyTrade s).getNetPosition instrument =
        s.getNetPosition instrument + netVolume instrument (s.applied (before ++ [trade])) ↔
      (before.foldl applyTrade s).follows instrument trade = true := by
  rw [← net_applyTrade_iff _ instrument proper, applied_append, netVolume_append, hbefore, List.foldl_append,
    add_assoc]
  rfl

/-- From any state, over any trades: the net position is at every moment what it was at first plus what was bought
minus what was sold, if and only if it follows every single trade. -/
theorem net_follows_iff (s : PositionManager) (instrument : String) {trades : List Trade}
    (proper : s.ProperRun trades) :
    (∀ before after, trades = before ++ after → (before.foldl applyTrade s).getNetPosition instrument =
        s.getNetPosition instrument + netVolume instrument (s.applied before)) ↔
      ∀ before trade after, trades = before ++ trade :: after →
        (before.foldl applyTrade s).follows instrument trade = true := by
  constructor
  · intro hnet before trade after htrades
    subst htrades
    exact (net_concat_iff s instrument proper.at (hnet before _ rfl)).mp (hnet _ after (by simp))
  · intro hfollows before
    induction before using List.reverseRecOn with
    | nil => intro _ _; simp [applied, netVolume]
    | append_singleton before trade ih =>
      intro after htrades
      rw [List.append_assoc, List.singleton_append] at htrades
      refine (net_concat_iff s instrument ?_ (ih _ htrades)).mpr (hfollows before trade after htrades)
      rw [htrades] at proper
      exact proper.at

/-- A long position of five. -/
def fiveLong : PositionManager :=
  ({} : PositionManager).applyPositionSnapshot
    [{ instrument := "i", totalVolume := 5, yesterdayVolume := 2, avgPrice := .fin 10 }]

def sellFour : Trade :=
  { tradeId := "1", instrument := "i", price := .fin 11, volume := 4, side := .sell, positionEffect := .close }

def buyThree : Trade :=
  { tradeId := "2", instrument := "i", price := .fin 12, volume := 3, side := .buy, positionEffect := .open }

theorem net_follows_two :
    ([sellFour, buyThree].foldl applyTrade fiveLong).getNetPosition "i" =
      fiveLong.getNetPosition "i" + netVolume "i" (fiveLong.applied [sellFour, buyThree]) := by
  have hproper : fiveLong.ProperRun [sellFour, buyThree] := by decide +kernel
  refine (net_follows_iff fiveLong "i" hproper).mpr ?_ _ [] rfl
  intro before trade after htrades
  rcases before with _ | ⟨first, _ | ⟨second, rest⟩⟩
  · obtain ⟨rfl, rfl⟩ := List.cons.inj htrades
    decide +kernel
  · obtain ⟨rfl, hrest⟩ := List.cons.inj htrades
    obtain ⟨rfl, rfl⟩ := List.cons.inj hrest
    decide +kernel
  · simp at htrades

/-- A buy of three leaves a net record of five at five. -/
theorem net_record_stays : ¬∀ (s : PositionManager) (positions : List Qtrade.Position) (trades : List Trade)
    (instrument : String), (s.applyPositionSnapshot positions).ProperRun trades →
    (trades.map generateTradeDedupKey).Nodup →
    (trades.foldl applyTrade (s.applyPositionSnapshot positions)).getNetPosition instrument =
      (s.applyPositionSnapshot positions).getNetPosition instrument +
        netVolume instrument ((s.applyPositionSnapshot positions).applied trades) := by
  intro hall
  have hnet := hall {} [{ instrument := "i", totalVolume := 5, direction := .net }] [buyThree] "i"
    (by decide +kernel) (by simp)
  revert hnet
  decide +kernel

end PositionManager

end Qtrade.Position
