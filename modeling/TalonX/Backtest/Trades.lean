import TalonX.Backtest.Replays

/-!
# The trades of a replay

- `Trade.Long`: a long between its stop and its target, measured by what it risks;
- `Trade.EndsAt`: the bar that a trade leaves at;
- `Grounded`: what holds at every moment of a replay; `grounded`: it does;
- `trades_grounded`: every trade of a run is such a long, from the open of one bar to where another one takes it.
-/

set_option autoImplicit false

namespace TalonX.Backtest

open Quant Transact

/-- A long, its stop below the entry and its target above. -/
structure OpenPosition.Long (p : OpenPosition) : Prop where
  direction : p.direction = .bullish
  path : p.signal.geometryPath ≠ none
  bracket : ∃ stop target, p.stopPrice = some stop ∧ p.targetPrice = some target ∧ stop < p.entryPriceRaw ∧
    p.entryPriceRaw < target ∧ p.risk = some (p.entryPriceRaw - stop)
  low : p.maePrice ≤ p.entryPriceRaw
  high : p.entryPriceRaw ≤ p.mfePrice
  cost : 0 ≤ p.entryPriceRaw → p.entryPriceRaw ≤ p.entryPriceNet

structure Trade.Long (trade : Trade) : Prop where
  direction : trade.direction = .bullish
  bracket : ∃ stop target, trade.stopPrice = some stop ∧ trade.targetPrice = some target ∧ stop < trade.entryPrice ∧
    trade.entryPrice < target ∧
    trade.grossR = some ((trade.exitPrice - trade.entryPrice) / (trade.entryPrice - stop)) ∧
    trade.executionRr = some ((target - trade.entryPrice) / (trade.entryPrice - stop))
  low : trade.maePrice ≤ trade.entryPrice
  high : trade.entryPrice ≤ trade.mfePrice
  chronology : trade.entryTimestamp ≤ trade.exitTimestamp
  costs : 0 ≤ trade.entryPrice → 0 ≤ trade.exitPrice → trade.netPnl ≤ trade.grossPnl

/-- A trade leaves at its stop or at its target when a bar of its symbol reaches it, at the open of a bar when a bearish
signal has been published, and otherwise at the close of a bar. Of a bar that reaches both, `sameBarResolution` tells
which one comes first. -/
def Trade.EndsAt (resolution : SameBarResolution) (warmup df : DataFrame) (trade : Trade) : Prop :=
  match trade.exitReason with
  | .stop => ∃ row, BarAt df trade.exitTimestamp trade.symbol row ∧ trade.stopPrice = some trade.exitPrice ∧
      row.low ≤ trade.exitPrice ∧ trade.maePrice ≤ row.low ∧
      (resolution = .targetFirst → ∀ target ∈ trade.targetPrice, row.high < target)
  | .target => ∃ row, BarAt df trade.exitTimestamp trade.symbol row ∧ trade.targetPrice = some trade.exitPrice ∧
      trade.exitPrice ≤ row.high ∧ row.high ≤ trade.mfePrice ∧
      (resolution = .stopFirst → ∀ stop ∈ trade.stopPrice, stop < row.low)
  | .signalExit => ∃ row, BarAt df trade.exitTimestamp trade.symbol row ∧ trade.exitPrice = row.openPrice ∧
      trade.exitSignalDirection = some .bearish
  | .endOfSession => ∃ row, ∃ t ≤ trade.exitTimestamp, BarAt (warmup ++ df) t trade.symbol row ∧
      trade.exitPrice = row.close
  | .dataEnd => ∃ row, BarAt (warmup ++ df) trade.exitTimestamp trade.symbol row ∧ trade.exitPrice = row.close

/-- A trade that starts at the open of a bar. -/
structure Trade.Grounded (resolution : SameBarResolution) (warmup df : DataFrame) (trade : Trade) : Prop extends
    trade.Long where
  starts : ∃ row, BarAt df trade.entryTimestamp trade.symbol row ∧ trade.entryPrice = row.openPrice
  ends : trade.EndsAt resolution warmup df

/-! ## Costs -/

theorem le_applyEntryCost (config : ExecutionConfig) {price : ℚ} (h : 0 ≤ price) :
    price ≤ applyEntryCost price .bullish config := by
  unfold applyEntryCost applyCost
  split_ifs with hbps
  · exact le_rfl
  · have hfactor : 0 ≤ (config.entrySlippageBps + config.spreadBps / 2) / 10000 := by
      have := not_le.1 hbps
      positivity
    simpa [mul_add] using mul_nonneg h hfactor
  · simp at *

theorem applyExitCost_le (config : ExecutionConfig) {price : ℚ} (h : 0 ≤ price) :
    applyExitCost price .bullish config ≤ price := by
  unfold applyExitCost applyCost
  split_ifs with hbps
  · exact le_rfl
  · simp at *
  · have hfactor : 0 ≤ (config.exitSlippageBps + config.spreadBps / 2) / 10000 := by
      have := not_le.1 hbps
      positivity
    simpa [mul_sub] using mul_nonneg h hfactor

/-! ## Positions -/

section Positions

variable {p : OpenPosition}

theorem OpenPosition.Long.updateExcursion (h : p.Long) (hi lo : ℚ) : (p.updateExcursion hi lo).Long := by
  refine ⟨by simp [h.direction], by simpa using h.path, by simpa using h.bracket, ?_, ?_, by simpa using h.cost⟩
  · simp [updateExcursion_eq, h.direction, h.low]
  · simp [updateExcursion_eq, h.direction, h.high]

/-- The fill of a long. -/
theorem long_position (config : ExecutionConfig) {signal : QuantSignal} (now : Timestamp) {price : ℚ} (score : ℚ)
    (hdir : signal.direction = .bullish) (hb : Bracketed signal)
    (hvalid : ∀ stop ∈ signal.stopPrice, ∀ target ∈ signal.targetPrice,
      GeometryValid stop price target signal.direction) :
    (TradeSimulator.position config signal now price score).Long := by
  obtain ⟨stop, hstop⟩ := Option.ne_none_iff_exists'.1 hb.stop
  obtain ⟨target, htarget⟩ := Option.ne_none_iff_exists'.1 hb.target
  have hbracket := hvalid stop hstop target htarget
  rw [hdir] at hbracket
  obtain ⟨hlow, hhigh⟩ := hbracket
  have hrisk : 0 < price - stop := sub_pos.2 hlow
  refine ⟨hdir, hb.path, ⟨stop, target, hstop, htarget, hlow, hhigh, ?_⟩, le_rfl, le_rfl, fun hprice => ?_⟩
  · simp [TradeSimulator.position, hstop, abs_of_pos hrisk, Option.filter, hrisk]
  · simpa [TradeSimulator.position, hdir] using le_applyEntryCost config hprice

theorem OpenPosition.Long.close (h : p.Long) (config : ExecutionConfig) {now : Timestamp} (hnow : p.entryTimestamp ≤ now)
    (price : ℚ) (reason : ExitReason) (signal : Option QuantSignal) : (p.close config now price reason signal).Long := by
  obtain ⟨stop, target, hstop, htarget, hlow, hhigh, hrisk⟩ := h.bracket
  have hpos : 0 < p.entryPriceRaw - stop := sub_pos.2 hlow
  refine ⟨h.direction, ⟨stop, target, hstop, htarget, hlow, hhigh, ?_, ?_⟩, h.low, h.high, hnow, fun hentry hexit => ?_⟩
  · simp [OpenPosition.close, hrisk, h.direction, directionSign, Option.filter, hpos.ne']
  · simp [OpenPosition.close, hrisk, htarget, Option.filter, hpos.ne', abs_of_pos (sub_pos.2 hhigh)]
  · simp only [OpenPosition.close, h.direction, directionSign, if_true, mul_one]
    exact sub_le_sub (applyExitCost_le config hexit) (h.cost hentry)

/-- What the comparison of a bar with a long tells. -/
theorem checkBarForExit_bullish {stop target hi lo : ℚ} {resolution : SameBarResolution} {outcome : ExitReason}
    (h : checkBarForExit .bullish stop target hi lo resolution = some outcome) :
    outcome = .stop ∧ lo ≤ stop ∧ (resolution = .targetFirst → hi < target) ∨
      outcome = .target ∧ target ≤ hi ∧ (resolution = .stopFirst → stop < lo) := by
  unfold checkBarForExit at h
  by_cases ht : target ≤ hi <;> by_cases hs : lo ≤ stop <;> cases resolution <;> simp [ht, hs] at h <;> subst h <;>
    simp [ht, hs, lt_of_not_ge]

end Positions

/-! ## The invariant -/

/-- What is known of an open position of `x`. -/
structure OpenedAt (df : DataFrame) (now : Timestamp) (x : Symbol) (p : OpenPosition) : Prop extends p.Long where
  entered : p.entryTimestamp ≤ now
  starts : ∃ row, BarAt df p.entryTimestamp x row ∧ p.entryPriceRaw = row.openPrice

/-- The last close of a symbol is that of a bar, and the bar is not in the future. -/
structure MarketState.Grounded (m : MarketState) (seen : DataFrame) (now : Timestamp) : Prop where
  close : ∀ x price, m.lastClose x = some price →
    ∃ row, ∃ t ≤ now, m.lastTimestamp x = some t ∧ BarAt seen t x row ∧ row.close = price

structure Turn.Grounded (config : BacktestConfig) (warmup df : DataFrame) (now : Timestamp) (t : Turn) : Prop where
  execution : t.engine.simulator.config = config.execution
  entry : ∀ x pending, t.engine.pendingEntry x = some pending → pending.signal.direction = .bullish ∧
    Bracketed pending.signal ∧ t.engine.market.lastClose x ≠ none
  exit : ∀ x pending, t.engine.pendingExit x = some pending → pending.signal.direction = .bearish
  opened : ∀ x p, t.engine.simulator.opened.get x = some p →
    OpenedAt df now x p ∧ t.engine.market.lastClose x ≠ none
  market : t.engine.market.Grounded (warmup ++ df) now
  fed : ∀ bar ∈ t.bars, bar.2.timestamp ≤ now ∧
    ∃ s, t.engine.market.lastTimestamp bar.1 = some s ∧ bar.2.timestamp ≤ s
  trades : ∀ trade ∈ t.engine.trades, trade.Grounded config.execution.sameBarResolution warmup df

section Grounded

variable {config : BacktestConfig} {eastern : EasternClock} {indicators : Indicators} {warmup df : DataFrame}
  {now : Timestamp} {e : BacktestEngine} {q q' : List QuantSignal} {b : DataFrame} {d d' : List (Symbol × Timestamp)}
  {f f' : Phase} {x : Symbol}

theorem lastClose_feed (hx : x.toUpper = x) (row : HistoricalRow) :
    (e.feed eastern x row).market.lastClose = Function.update e.market.lastClose x (some row.close) := by
  simp [BacktestEngine.feed, MarketState.feedMarketState, hx]

theorem lastTimestamp_feed (hx : x.toUpper = x) (row : HistoricalRow) :
    (e.feed eastern x row).market.lastTimestamp = Function.update e.market.lastTimestamp x (some row.timestamp) := by
  simp [BacktestEngine.feed, MarketState.feedMarketState, hx]

theorem lastClose_feed_ne_none (hx : x.toUpper = x) {row : HistoricalRow} {y : Symbol}
    (h : e.market.lastClose y ≠ none) : (e.feed eastern x row).market.lastClose y ≠ none := by
  rw [lastClose_feed hx, Function.update_apply]
  split_ifs
  · simp
  · exact h

theorem MarketState.Grounded.mono {m : MarketState} (h : m.Grounded df now) {later : Timestamp} (hle : now ≤ later) :
    m.Grounded df later :=
  ⟨fun x price hprice => by
    obtain ⟨row, t, ht, htime, hbar, hclose⟩ := h.close x price hprice
    exact ⟨row, t, ht.trans hle, htime, hbar, hclose⟩⟩

variable (eastern) in
theorem MarketState.Grounded.feed (h : e.market.Grounded df now) (hx : x.toUpper = x) {row : HistoricalRow}
    {t : Timestamp} (ht : t ≤ now) (hbar : BarAt df t x row) : (e.feed eastern x row).market.Grounded df now := by
  have htime : row.timestamp = t := by
    obtain ⟨-, -, -, -, htime⟩ := hbar
    exact htime
  refine ⟨fun y price hprice => ?_⟩
  rw [lastClose_feed hx] at hprice
  rw [lastTimestamp_feed hx]
  by_cases hy : y = x
  · subst hy
    simp only [Function.update_self, Option.some.injEq] at hprice ⊢
    exact ⟨row, t, ht, htime, hbar, hprice⟩
  · rw [Function.update_of_ne hy] at hprice ⊢
    exact h.close y price hprice

theorem OpenedAt.mono {p : OpenPosition} (h : OpenedAt df now x p) {later : Timestamp} (hle : now ≤ later) :
    OpenedAt df later x p := { h with entered := h.entered.trans hle }

namespace Turn.Grounded

/-- A position leaves and a trade comes. -/
theorem leave (h : Turn.Grounded config warmup df now ⟨e, q, b, d, f⟩) (hx : x.toUpper = x) {trade : Trade}
    (htrade : trade.Grounded config.execution.sameBarResolution warmup df) :
    Turn.Grounded config warmup df now
      ⟨{ e with simulator := e.simulator.drop x, trades := e.trades ++ [trade] }, q, b, d, f⟩ := by
  refine { h with execution := h.execution, opened := fun y p hp => ?_, trades := fun tr ht => ?_ }
  · simp only [TradeSimulator.get_drop hx] at hp
    by_cases hy : y = x
    · simp [hy] at hp
    · rw [if_neg hy] at hp
      exact h.opened y p hp
  · rcases List.mem_append.1 ht with ht | ht
    · exact h.trades tr ht
    · exact List.mem_singleton.1 ht ▸ htrade

/-- A position becomes a trade. -/
theorem settle (h : Turn.Grounded config warmup df now ⟨e, q, b, d, f⟩) {p : OpenPosition}
    (hx : p.symbol.toUpper = p.symbol) (hp : OpenedAt df now p.symbol p) {price : ℚ} {reason : ExitReason}
    {signal : Option QuantSignal}
    (hends : (p.close e.simulator.config now price reason signal).EndsAt config.execution.sameBarResolution warmup df) :
    Turn.Grounded config warmup df now
      ⟨e.settle config p.symbol now
        (some (p.close e.simulator.config now price reason signal), e.simulator.drop p.symbol), q, b, d, f⟩ := by
  rw [BacktestEngine.settle_some]
  have htrade : (p.close e.simulator.config now price reason signal).Grounded config.execution.sameBarResolution warmup
      df := { hp.toLong.close e.simulator.config hp.entered price reason signal with starts := hp.starts, ends := hends }
  exact { h.leave hx htrade with execution := h.execution }

/-- A position is put in the place of `x`. -/
theorem put (h : Turn.Grounded config warmup df now ⟨e, q, b, d, f⟩) {p : OpenPosition} (hp : OpenedAt df now p.symbol p)
    (hclose : e.market.lastClose p.symbol ≠ none) :
    ∀ y p', (e.simulator.put p).opened.get y = some p' → OpenedAt df now y p' ∧ e.market.lastClose y ≠ none := by
  intro y p' hp'
  rw [TradeSimulator.get_put] at hp'
  by_cases hy : y = p.symbol
  · rw [if_pos hy, Option.some.injEq] at hp'
    rw [hy, ← hp']
    exact ⟨hp, hclose⟩
  · rw [if_neg hy] at hp'
    exact h.opened y p' hp'

theorem feed (h : Turn.Grounded config warmup df now ⟨e, q, b, d, f⟩) (hx : x.toUpper = x) {row : HistoricalRow}
    (hbar : BarAt df now x row) : Turn.Grounded config warmup df now ⟨e.feed eastern x row, q, b ++ [(x, row)], d, f⟩ where
  execution := h.execution
  entry y pending hp := ⟨(h.entry y pending hp).1, (h.entry y pending hp).2.1,
    lastClose_feed_ne_none hx (h.entry y pending hp).2.2⟩
  exit := h.exit
  opened y p hp := ⟨(h.opened y p hp).1, lastClose_feed_ne_none hx (h.opened y p hp).2⟩
  market := by
    obtain ⟨bar, hmem, heq⟩ := hbar
    exact h.market.feed eastern hx le_rfl ⟨bar, List.mem_append_right _ hmem, heq⟩
  fed bar hb := by
    obtain ⟨-, -, -, -, htime⟩ := hbar
    rw [lastTimestamp_feed hx]
    rcases List.mem_append.1 hb with hb | hb
    · obtain ⟨hle, s, hs, hles⟩ := h.fed bar hb
      refine ⟨hle, ?_⟩
      by_cases hy : bar.1 = x
      · exact ⟨row.timestamp, by rw [hy, Function.update_self], htime ▸ hle⟩
      · exact ⟨s, by rw [Function.update_of_ne hy, hs], hles⟩
    · obtain rfl := List.mem_singleton.1 hb
      exact ⟨htime.le, row.timestamp, by simp, le_rfl⟩
  trades := h.trades

theorem publish (h : Turn.Grounded config warmup df now ⟨e, q, b, d, f⟩) {signal : QuantSignal} {score : ℚ}
    (hsignal : Bracketed signal) (hprice : e.market.lastClose x ≠ none) :
    Turn.Grounded config warmup df now ⟨e.publish config x signal score now, q', b, d', f'⟩ := by
  unfold BacktestEngine.publish BacktestEngine.armCooldown
  cases hdir : signal.direction with
  | bullish =>
    refine { h with execution := h.execution, entry := fun y pending hp => ?_ }
    by_cases hy : y = x
    · subst hy
      obtain rfl : ⟨signal, score⟩ = pending := by simpa using hp
      exact ⟨hdir, hsignal, hprice⟩
    · exact h.entry y pending (by simpa [hy] using hp)
  | bearish =>
    dsimp only
    split_ifs
    · refine { h with execution := h.execution, exit := fun y pending hp => ?_ }
      by_cases hy : y = x
      · subst hy
        obtain rfl : ⟨signal⟩ = pending := by simpa using hp
        exact hdir
      · exact h.exit y pending (by simpa [hy] using hp)
    · exact { h with execution := h.execution }

/-- Nothing is pending any more. -/
theorem update_exit (h : Turn.Grounded config warmup df now ⟨e, q, b, d, f⟩) :
    Turn.Grounded config warmup df now
      ⟨{ e with pendingExit := Function.update e.pendingExit x none }, q, b, d, f⟩ := by
  refine { h with execution := h.execution, exit := fun y pending hp => ?_ }
  by_cases hy : y = x
  · simp [hy] at hp
  · exact h.exit y pending (by simpa [hy] using hp)

theorem update_entry (h : Turn.Grounded config warmup df now ⟨e, q, b, d, f⟩) (d' : List (Symbol × Timestamp)) :
    Turn.Grounded config warmup df now
      ⟨{ e with pendingEntry := Function.update e.pendingEntry x none }, q, b, d', f⟩ := by
  refine { h with execution := h.execution, entry := fun y pending hp => ?_ }
  by_cases hy : y = x
  · simp [hy] at hp
  · exact h.entry y pending (by simpa [hy] using hp)

end Turn.Grounded

theorem Move.grounded {t t' : Turn} (hmove : Move config eastern now (BarAt df now) t t') (hkeyed : Keyed t.engine)
    (h : Turn.Grounded config warmup df now t) : Turn.Grounded config warmup df now t' := by
  cases hmove with
  | tick | volatility | evaluate | reorder | refuse | markDate => exact { h with execution := h.execution }
  | feed hx hbar => exact h.feed hx hbar
  | publish _ _ hprice hsignal => exact h.publish hsignal (by simp [hprice])
  | exitMissed => exact { h.update_exit with execution := h.execution }
  | @entryRefused _ _ _ d => exact { h.update_entry d with execution := h.execution }
  | entrySkipped => exact h.update_entry _
  | @exit e q b d x row pending p hbar hp ho =>
    obtain rfl := Table.key_of_get ho
    refine h.update_exit.settle (hkeyed.opened _ p ho) (h.opened _ p ho).1 ⟨row, hbar, rfl, ?_⟩
    simp [OpenPosition.close, h.exit _ pending hp]
  | @eodClose e q b d x p price ho hprice =>
    obtain rfl := Table.key_of_get ho
    obtain ⟨row, t, ht, -, hbar, hclose⟩ := h.market.close _ price hprice
    exact h.settle (hkeyed.opened _ p ho) (h.opened _ p ho).1 ⟨row, t, ht, hbar, hclose.symm⟩
  | @touch e q b d x row p hbar ho =>
    obtain rfl := Table.key_of_get ho
    obtain ⟨hopen, hclose⟩ := h.opened _ p ho
    refine { h with execution := h.execution, opened := h.put ?_ ?_ }
    · refine ⟨hopen.toLong.updateExcursion row.high row.low, ?_, ?_⟩
      · simpa using hopen.entered
      · simpa using hopen.starts
    · simpa using hclose
  | @hit e q b d x row p p₀ stop target outcome hbar ho hp hstop htarget hout =>
    obtain rfl := Table.key_of_get ho
    obtain ⟨hopen, -⟩ := h.opened _ p ho
    have hdir := hopen.direction
    have hrange : p.maePrice ≤ row.low ∧ row.high ≤ p.mfePrice := by
      rw [hp, OpenPosition.direction_updateExcursion] at hdir
      simp [hp, OpenPosition.updateExcursion_eq, hdir]
    refine h.settle (hkeyed.opened _ p ho) hopen ?_
    rw [hdir, h.execution] at hout
    rcases checkBarForExit_bullish hout with ⟨rfl, hle, hres⟩ | ⟨rfl, hle, hres⟩
    · refine ⟨row, hbar, hstop, hle, hrange.1, fun hr t ht => ?_⟩
      obtain rfl : target = t := Option.some.inj (htarget.symm.trans ht)
      exact hres hr
    · refine ⟨row, hbar, htarget, hle, hrange.2, fun hr s hs => ?_⟩
      obtain rfl : stop = s := Option.some.inj (hstop.symm.trans hs)
      exact hres hr
  | @enter e q b d x row pending fill hbar hp hdate hfree hfill =>
    obtain ⟨hdir, hb, hclose⟩ := h.entry x pending hp
    obtain rfl : fill.ticker.toUpper = x := (congrArg String.toUpper hfill.ticker).trans (hkeyed.entry x pending hp)
    have hlong := long_position e.simulator.config now pending.opportunityScore
      (hfill.direction.trans hdir) (hfill.bracketed hb) hfill.valid
    obtain ⟨paths, reasons, heq⟩ := BacktestEngine.countGeometry_eq
      { e with pendingEntry := Function.update e.pendingEntry fill.ticker.toUpper none } fill
    rw [heq]
    refine { (h.update_entry (x := fill.ticker.toUpper) d) with
      execution := h.execution, opened := h.put ?_ ?_ }
    · exact { hlong with entered := le_rfl, starts := ⟨row, hbar, rfl⟩ }
    · exact hclose

theorem feed_toUpper (symbol : Symbol) (row : HistoricalRow) :
    e.feed eastern symbol.toUpper row = e.feed eastern symbol row := by
  simp [BacktestEngine.feed, MarketState.feedMarketState, toUpper_toUpper]

variable (config eastern) in
/-- The warm-up has seen its own bars. -/
theorem grounded_warmed {t : Timestamp} (ht : ∀ w ∈ warmup, w.2.timestamp ≤ t) :
    (warmed config eastern warmup).market.Grounded warmup t := by
  unfold warmed
  have hbars : ∀ w ∈ BacktestEngine.sortValues warmup, w ∈ warmup := fun w hw => mem_sortValues.1 hw
  generalize BacktestEngine.sortValues warmup = bars at *
  induction bars using List.reverseRecOn with
  | nil => exact ⟨by simp [BacktestEngine.init, MarketState.init]⟩
  | append_singleton bars bar ih =>
    have hbar := hbars bar (by simp)
    rw [List.foldl_concat]
    have hfeed := (ih fun w hw => hbars w (by simp [hw])).feed eastern (toUpper_toUpper bar.1)
      (ht bar hbar) ⟨bar, hbar, rfl, rfl, rfl⟩
    rwa [feed_toUpper] at hfeed

variable (config eastern) in
theorem preserved_grounded (hearlier : Earlier warmup df) :
    Preserved config eastern warmup df (Turn.Grounded config warmup df) where
  init t ht _ := by
    obtain ⟨bar, hbar, rfl⟩ := List.mem_map.1 ht
    have hmarket := grounded_warmed config eastern fun w hw => (hearlier w hw bar hbar).le
    obtain ⟨market, n, heq⟩ := warmed_eq config eastern warmup
    rw [heq] at hmarket ⊢
    refine ⟨rfl, by simp [BacktestEngine.init], by simp [BacktestEngine.init],
      by simp [BacktestEngine.init, Table.get, Table.empty], ⟨fun x price hprice => ?_⟩, by simp,
      by simp [BacktestEngine.init]⟩
    obtain ⟨row, t, ht, htime, ⟨bar, hbar, heq⟩, hclose⟩ := hmarket.close x price hprice
    exact ⟨row, t, ht, htime, ⟨bar, List.mem_append_left _ hbar, heq⟩, hclose⟩
  move t _ T T' hkeyed hmove h := hmove.grounded hkeyed h
  later s t _ hlt T _ _ h :=
    { h with
      execution := h.execution
      opened := fun x p hp => ⟨(h.opened x p hp).1.mono hlt.le, (h.opened x p hp).2⟩
      market := h.market.mono hlt.le
      fed := fun bar hbar => ⟨(h.fed bar hbar).1.trans hlt.le, (h.fed bar hbar).2⟩ }

/-- What is open at the end of the data leaves at the last close. -/
theorem Turn.Grounded.closedAtEnd (h : Turn.Grounded config warmup df now ⟨e, q, b, d, f⟩)
    (hfed : ∀ bar ∈ df, (bar.1.toUpper, bar.2) ∈ b) (hkeyed : Keyed e) {p : OpenPosition} {t : Timestamp} {price : ℚ}
    (ho : e.simulator.opened.get x = some p) (hclose : e.market.lastClose x = some price)
    (htime : e.market.lastTimestamp x = some t) :
    Turn.Grounded config warmup df now ⟨closedAtEnd e x p t price, q, b, d, f⟩ := by
  obtain rfl := Table.key_of_get ho
  obtain ⟨hopen, -⟩ := h.opened _ p ho
  refine h.leave (hkeyed.opened _ p ho) { hopen.toLong.close _ ?_ price .dataEnd none with
    starts := hopen.starts, ends := ?_ }
  · obtain ⟨row, ⟨bar, hbar, hsymbol, rfl, hentry⟩, -⟩ := hopen.starts
    obtain ⟨-, s, hs, hle⟩ := h.fed _ (hfed bar hbar)
    dsimp only at hs
    rw [hsymbol, htime, Option.some.injEq] at hs
    rwa [hs, ← hentry]
  · obtain ⟨row, t', -, ht', hbar, hprice⟩ := h.market.close _ price hclose
    obtain rfl : t = t' := Option.some.inj (htime.symm.trans ht')
    exact ⟨row, hbar, hprice.symm⟩

end Grounded

/-- The trades of a run are longs between a stop and a target. They start at the open of a bar, end where a later bar
takes them, a stop loses what was risked, and costs only take away. -/
theorem trades_grounded {config : BacktestConfig} {eastern : EasternClock} {indicators : Indicators}
    {warmup df : DataFrame} {result : BacktestResult} {e : BacktestEngine}
    (hrun : run config eastern indicators warmup df = .ok (result, e)) :
    ∀ trade ∈ result.trades, trade.Grounded config.execution.sameBarResolution warmup df ∧
      (trade.exitReason = .stop → trade.grossR = some (-1)) ∧
      (trade.exitReason = .target → trade.grossR = trade.executionRr) := by
  obtain ⟨htrades, -, -, -, hcases⟩ := run_cases hrun
  rw [htrades]
  rcases hcases with ⟨-, rfl⟩ | ⟨hdf, hearlier, rfl⟩
  · simp [BacktestEngine.init]
  obtain ⟨t, ⟨e, q, b, d, f⟩, -, -, rfl, -, hkeyed, hgrounded, hfed⟩ :=
    (preserved_grounded config eastern hearlier).replay indicators hdf
  obtain ⟨hend, -⟩ := finalizeAtDataEnd_rule (fun e => Turn.Grounded config warmup df t ⟨e, q, b, d, f⟩)
    (fun e x p s price hkeyed h ho hclose htime => h.closedAtEnd hfed hkeyed ho hclose htime) hkeyed hgrounded
  intro trade htrade
  have h := hend.trades trade htrade
  obtain ⟨stop, target, hstop, htarget, hlow, hhigh, hgross, hratio⟩ := h.bracket
  have hrisk : trade.entryPrice - stop ≠ 0 := (sub_pos.2 hlow).ne'
  refine ⟨h, fun hreason => ?_, fun hreason => ?_⟩
  · have hends := h.ends
    rw [Trade.EndsAt, hreason] at hends
    obtain ⟨-, -, hexit, -⟩ := hends
    obtain rfl : stop = trade.exitPrice := Option.some.inj (hstop.symm.trans hexit)
    rw [hgross, ← neg_sub, neg_div, div_self hrisk]
  · have hends := h.ends
    rw [Trade.EndsAt, hreason] at hends
    obtain ⟨-, -, hexit, -⟩ := hends
    obtain rfl : target = trade.exitPrice := Option.some.inj (htarget.symm.trans hexit)
    rw [hgross, hratio]

theorem trades_grounded_sample :
    ∃ result e, run sampleConfig sampleClock sampleIndicators sampleWarmup sampleBars = .ok (result, e) ∧
      result.trades ≠ [] ∧
      ∀ trade ∈ result.trades, trade.Grounded .stopFirst sampleWarmup sampleBars ∧
        (trade.exitReason = .stop → trade.grossR = some (-1)) ∧
        (trade.exitReason = .target → trade.grossR = trade.executionRr) := by
  obtain ⟨result, e, hrun, htrades⟩ := run_sample
  exact ⟨result, e, hrun, by rintro h; simp [h] at htrades, trades_grounded hrun⟩

end TalonX.Backtest
