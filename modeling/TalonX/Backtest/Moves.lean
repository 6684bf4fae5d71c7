import Mathlib.Logic.Relation
import TalonX.Backtest.Engine

/-!
# A replay as a sequence of moves

- `Turn`: an engine with the candidates that are still undecided, the bars fed so far, and the bars at which an entry was
  due but not made; `Move`: what can happen to it at one instant;
- `steps_processSymbolBar`, `steps_flushThrottle`, `steps_maybeEodFlatten`: the engine does nothing else;
- `Replayed`: the turns of a replay, minute by minute; `replayed_replay`: a replay ends in one.
-/

set_option autoImplicit false

namespace TalonX.Backtest

open Quant Transact

/-- Of a minute: its bars, then the throttle, then the end of the day. -/
inductive Phase
  | bars
  | throttle
  | close
  deriving DecidableEq

structure Turn where
  engine : BacktestEngine
  queue : List QuantSignal
  bars : DataFrame
  due : List (Symbol × Timestamp)
  phase : Phase

/-- A signal with a stop, a target and the path that led to them. -/
structure Bracketed (signal : QuantSignal) : Prop where
  stop : signal.stopPrice ≠ none
  target : signal.targetPrice ≠ none
  path : signal.geometryPath ≠ none

/-- `fill` is `signal`, with the geometry of the fill where the old one does not enclose it. -/
structure FilledAt (price : ℚ) (signal fill : QuantSignal) : Prop where
  bracketed : Bracketed signal → Bracketed fill
  valid : ∀ stop ∈ fill.stopPrice, ∀ target ∈ fill.targetPrice, GeometryValid stop price target fill.direction
  ticker : fill.ticker = signal.ticker
  direction : fill.direction = signal.direction
  screening : fill.riskRewardRatio = signal.riskRewardRatio

/-- The bar leaves the stop and the target of the position alone. -/
def Untouched (config : ExecutionConfig) (row : HistoricalRow) (p : OpenPosition) : Prop :=
  ∀ stop ∈ p.stopPrice, ∀ target ∈ p.targetPrice,
    checkBarForExit p.direction stop target row.high row.low config.sameBarResolution = none

/-- What the throttle records. -/
inductive ThrottleReason : Reason → Prop
  | cooldown : ThrottleReason .cooldown
  | throttle : ThrottleReason .throttle
  | expiredInThrottleQueue : ThrottleReason .expiredInThrottleQueue
  | finalRevalidationDataUnavailable : ThrottleReason .finalRevalidationDataUnavailable
  | rrDegradedDuringThrottle : ThrottleReason .rrDegradedDuringThrottle

section Moves

variable (config : BacktestConfig) (eastern : EasternClock) (now : Timestamp) (Bar : Symbol → HistoricalRow → Prop)

inductive Move : Turn → Turn → Prop
  | tick {e q b d} (n : ℕ) : Move ⟨e, q, b, d, .bars⟩ ⟨{ e with barsProcessed := n }, q, b, d, .bars⟩
  | feed {e q b d} {x : Symbol} {row : HistoricalRow} (hx : x.toUpper = x) (hbar : Bar x row)
      (hdue : e.pendingEntry x = none)
      (hopen : ∀ p, e.simulator.opened.get x = some p → Untouched e.simulator.config row p ∨ (x, now) ∈ d) :
      Move ⟨e, q, b, d, .bars⟩ ⟨e.feed eastern x row, q, b ++ [(x, row)], d, .bars⟩
  | volatility {e q b d} {x : Symbol} {reason : Reason}
      (hr : reason = .lowVolatility ∨ reason = .lowVolatilityRegime) :
      Move ⟨e, q, b, d, .bars⟩ ⟨e.reject x reason 1 now, q, b, d, .bars⟩
  | evaluate {e q b d} {x : Symbol} {log : List SignalLogRow} {rejected : List (Reason × ℕ)}
      {survivors : List QuantSignal} (hlog : ∀ r ∈ log, r.ticker = x ∧ r.timestamp = now)
      (hcount : (rejected.map (·.2)).sum + survivors.length ≤ log.length)
      (hreasons : ∀ r ∈ rejected, CommonReason r.1 ∨ r.1 = .premarketLiquidity)
      (hticker : ∀ s ∈ survivors, s.ticker.toUpper = x)
      (hfree : survivors ≠ [] → e.isLossLockedOut x now = false) :
      Move ⟨e, q, b, d, .bars⟩
        ⟨{ e with
            signalLog := e.signalLog ++ log
            rejections := e.rejections ++ rejected.map fun r => ⟨x, r.1, r.2, now⟩ }, q ++ survivors, b, d, .bars⟩
  | reorder {e q q' b d} (h : q'.Perm q) : Move ⟨e, q, b, d, .bars⟩ ⟨e, q', b, d, .throttle⟩
  | refuse {e q b d} {x : Symbol} {cs : List QuantSignal} {reason : Reason} (hcs : ∀ c ∈ cs, c.ticker.toUpper = x)
      (hr : ThrottleReason reason) :
      Move ⟨e, cs ++ q, b, d, .throttle⟩ ⟨e.reject x reason cs.length now, q, b, d, .throttle⟩
  | publish {e q b d} {c signal : QuantSignal} {score : ℚ}
      (hcool : e.isOnCooldown c.ticker.toUpper now = false) (ht : signal.ticker = c.ticker)
      (hprice : e.market.lastClose c.ticker.toUpper = some signal.price) (hsignal : Bracketed signal) :
      Move ⟨e, c :: q, b, d, .throttle⟩ ⟨e.publish config c.ticker.toUpper signal score now, q, b, d, .throttle⟩
  | exit {e q b d} {x : Symbol} {row : HistoricalRow} {pending : PendingExit} {p : OpenPosition} (hbar : Bar x row)
      (hp : e.pendingExit x = some pending) (ho : e.simulator.opened.get x = some p) :
      Move ⟨e, q, b, d, .bars⟩
        ⟨({ e with pendingExit := Function.update e.pendingExit x none } : BacktestEngine).settle config x now
          (some (p.close e.simulator.config now row.openPrice .signalExit (some pending.signal)), e.simulator.drop x),
          q, b, d, .bars⟩
  | exitMissed {e q b d} {x : Symbol} {pending : PendingExit} (hx : x.toUpper = x)
      (hp : e.pendingExit x = some pending) :
      Move ⟨e, q, b, d, .bars⟩
        ⟨({ e with pendingExit := Function.update e.pendingExit x none } : BacktestEngine).reject x .noActivePosition 1
          now, q, b, d, .bars⟩
  | entryRefused {e q b d} {x : Symbol} {pending : PendingEntry} {reason : Reason}
      (hp : e.pendingEntry x = some pending)
      (hr : reason = .postEodFlattenNoNewEntry ∨ reason = .geometryInvalidatedAtFill) :
      Move ⟨e, q, b, d, .bars⟩
        ⟨({ e with pendingEntry := Function.update e.pendingEntry x none } : BacktestEngine).reject x reason 1 now,
          q, b, d ++ [(x, now)], .bars⟩
  | entrySkipped {e q b d} {x : Symbol} {pending : PendingEntry} (hp : e.pendingEntry x = some pending) :
      Move ⟨e, q, b, d, .bars⟩
        ⟨{ e with pendingEntry := Function.update e.pendingEntry x none }, q, b, d ++ [(x, now)], .bars⟩
  | enter {e q b d} {x : Symbol} {row : HistoricalRow} {pending : PendingEntry} {fill : QuantSignal} (hbar : Bar x row)
      (hp : e.pendingEntry x = some pending) (hdate : eastern.date now ∉ e.flattenedDates)
      (hfree : config.allowOverlappingTrades = true ∨ e.simulator.opened.get x = none)
      (hfill : FilledAt row.openPrice pending.signal fill) :
      Move ⟨e, q, b, d, .bars⟩
        ⟨{ ({ e with pendingEntry := Function.update e.pendingEntry x none } : BacktestEngine).countGeometry fill with
            simulator := e.simulator.openPosition fill now row.openPrice pending.opportunityScore },
          q, b, d, .bars⟩
  | touch {e q b d} {x : Symbol} {row : HistoricalRow} {p : OpenPosition} (hbar : Bar x row)
      (ho : e.simulator.opened.get x = some p) :
      Move ⟨e, q, b, d, .bars⟩
        ⟨{ e with simulator := e.simulator.put (p.updateExcursion row.high row.low) }, q, b, d, .bars⟩
  | hit {e q b d} {x : Symbol} {row : HistoricalRow} {p p₀ : OpenPosition} {stop target : ℚ} {outcome : ExitReason}
      (hbar : Bar x row) (ho : e.simulator.opened.get x = some p) (hp : p = p₀.updateExcursion row.high row.low)
      (hstop : p.stopPrice = some stop) (htarget : p.targetPrice = some target)
      (hout : checkBarForExit p.direction stop target row.high row.low e.simulator.config.sameBarResolution =
        some outcome) :
      Move ⟨e, q, b, d, .bars⟩
        ⟨e.settle config x now
          (some (p.close e.simulator.config now (if outcome = .stop then stop else target) outcome none),
            e.simulator.drop x), q, b, d, .bars⟩
  | markDate {e q b d f} (ht : BacktestEngine.pastFlattenTime config eastern now = true) :
      Move ⟨e, q, b, d, f⟩ ⟨{ e with flattenedDates := eastern.date now :: e.flattenedDates }, q, b, d, .close⟩
  | eodClose {e q b d} {x : Symbol} {p : OpenPosition} {price : ℚ} (ho : e.simulator.opened.get x = some p)
      (hprice : e.market.lastClose x = some price) :
      Move ⟨e, q, b, d, .close⟩
        ⟨e.settle config x now (some (p.close e.simulator.config now price .endOfSession none), e.simulator.drop x),
          q, b, d, .close⟩

/-- Moves one after the other, at one instant. -/
abbrev Steps : Turn → Turn → Prop := Relation.ReflTransGen (Move config eastern now Bar)

end Moves

/-! ## The simulator -/

namespace TradeSimulator

variable {s : TradeSimulator} {x : Symbol} {p : OpenPosition}

@[simp] theorem config_put : (s.put p).config = s.config := rfl

@[simp] theorem config_drop : (s.drop x).config = s.config := rfl

theorem getOpen_eq (hx : x.toUpper = x) : s.getOpen x = s.opened.get x := by rw [getOpen, hx]

theorem hasOpen_iff (hx : x.toUpper = x) : s.hasOpen x = true ↔ ∃ p, s.opened.get x = some p := by
  rw [hasOpen, hx, Option.isSome_iff_exists]

theorem get_put (y : Symbol) : (s.put p).opened.get y = if y = p.symbol then some p else s.opened.get y := by
  by_cases hy : y = p.symbol
  · subst hy
    rw [if_pos rfl]
    refine (Table.get_upsert_self).trans ?_
    cases hg : s.opened.get p.symbol with
    | none => rfl
    | some q => simp [Table.key_of_get hg]
  · rw [if_neg hy]
    exact Table.get_upsert_of_ne hy

theorem get_drop (hx : x.toUpper = x) (y : Symbol) :
    (s.drop x).opened.get y = if y = x then none else s.opened.get y := by
  have h : (s.opened.delete fun p => p.symbol = x).get y = if y = x then none else s.opened.get y :=
    Table.get_delete_key
  simp only [drop, hx]
  exact h

theorem close_eq (hx : x.toUpper = x) (ho : s.opened.get x = some p) (t : Timestamp) (price : ℚ) (reason : ExitReason)
    (signal : Option QuantSignal) :
    s.close x t price reason signal = (some (p.close s.config t price reason signal), s.drop x) := by
  rw [close, getOpen_eq hx, ho]

theorem get_touch (ho : s.opened.get x = some p) (hi lo : ℚ) :
    (s.put (p.updateExcursion hi lo)).opened.get x = some (p.updateExcursion hi lo) := by
  rw [get_put, OpenPosition.symbol_updateExcursion, if_pos (Table.key_of_get ho).symm]

/-- A bar widens the range of the position, and leaves it open or ends it. -/
theorem checkExit_cases (hx : x.toUpper = x) (ho : s.opened.get x = some p) (t : Timestamp) (row : HistoricalRow) :
    let p' := p.updateExcursion row.high row.low
    (s.checkExit x t row.high row.low = (none, s.put p') ∧ Untouched s.config row p') ∨
      ∃ stop target outcome, p'.stopPrice = some stop ∧ p'.targetPrice = some target ∧
        checkBarForExit p'.direction stop target row.high row.low s.config.sameBarResolution = some outcome ∧
        s.checkExit x t row.high row.low =
          (some (p'.close s.config t (if outcome = .stop then stop else target) outcome none), (s.put p').drop x) := by
  have hget := get_touch ho row.high row.low
  simp only [checkExit, getOpen_eq hx, ho, Untouched, OpenPosition.stopPrice_updateExcursion,
    OpenPosition.targetPrice_updateExcursion, OpenPosition.direction_updateExcursion, config_put]
  cases hstop : p.stopPrice with
  | none => simp
  | some stop =>
    cases htarget : p.targetPrice with
    | none => simp
    | some target =>
      cases hout : checkBarForExit p.direction stop target row.high row.low s.config.sameBarResolution with
      | none => simp [hout]
      | some outcome => exact .inr ⟨stop, target, outcome, rfl, rfl, hout, by simp [hout, close_eq hx hget]⟩

end TradeSimulator

namespace BacktestEngine

/-- What a trade changes. -/
theorem settle_some (config : BacktestConfig) (e : BacktestEngine) (x : Symbol) (now : Timestamp) (trade : Trade)
    (s : TradeSimulator) :
    e.settle config x now (some trade, s) =
      { e with
        simulator := s
        trades := e.trades ++ [trade]
        lossLockoutUntil := if trade.netPnl < 0 then
          Function.update e.lossLockoutUntil x (some (now + config.strategy.lossLockout)) else e.lossLockoutUntil } := by
  unfold settle maybeArmLossLockout armLossLockout
  dsimp only
  split_ifs <;> rfl

theorem rejections_foldl (rs : List (Reason × ℕ)) (e : BacktestEngine) (x : Symbol) (now : Timestamp) :
    rs.foldl (fun e r => e.reject x r.1 r.2 now) e =
      { e with rejections := e.rejections ++ rs.map fun r => ⟨x.toUpper, r.1, r.2, now⟩ } := by
  induction rs generalizing e with
  | nil => simp
  | cons r rs ih =>
    rw [List.foldl_cons, ih]
    simp [reject]

@[simp] theorem pendingEntry_settle (config : BacktestConfig) (e : BacktestEngine) (x : Symbol) (now : Timestamp)
    (r : Option Trade × TradeSimulator) : (e.settle config x now r).pendingEntry = e.pendingEntry := by
  obtain ⟨t, s⟩ := r
  cases t with
  | none => rfl
  | some trade => rw [settle_some]

@[simp] theorem simulator_settle (config : BacktestConfig) (e : BacktestEngine) (x : Symbol) (now : Timestamp)
    (r : Option Trade × TradeSimulator) : (e.settle config x now r).simulator = r.2 := by
  obtain ⟨t, s⟩ := r
  cases t with
  | none => rfl
  | some trade => rw [settle_some]

@[simp] theorem market_settle (config : BacktestConfig) (e : BacktestEngine) (x : Symbol) (now : Timestamp)
    (r : Option Trade × TradeSimulator) : (e.settle config x now r).market = e.market := by
  obtain ⟨t, s⟩ := r
  cases t with
  | none => rfl
  | some trade => rw [settle_some]

/-- Counters, and nothing else. -/
theorem countGeometry_eq (e : BacktestEngine) (signal : QuantSignal) :
    ∃ paths reasons, e.countGeometry signal =
      { e with geometryPathCounts := paths, fallbackReasonCounts := reasons } := by
  unfold countGeometry
  split
  · exact ⟨_, _, rfl⟩
  · exact ⟨_, _, rfl⟩

@[simp] theorem pendingEntry_countGeometry (e : BacktestEngine) (signal : QuantSignal) :
    (e.countGeometry signal).pendingEntry = e.pendingEntry := by
  obtain ⟨paths, reasons, heq⟩ := e.countGeometry_eq signal
  rw [heq]

@[simp] theorem simulator_countGeometry (e : BacktestEngine) (signal : QuantSignal) :
    (e.countGeometry signal).simulator = e.simulator := by
  obtain ⟨paths, reasons, heq⟩ := e.countGeometry_eq signal
  rw [heq]

/-- What a publication changes. -/
theorem publish_eq (config : BacktestConfig) (e : BacktestEngine) (x : Symbol) (signal : QuantSignal) (score : ℚ)
    (now : Timestamp) :
    e.publish config x signal score now =
      { e with
        published := e.published ++ [⟨now, signal⟩]
        cooldownUntil := Function.update e.cooldownUntil x (some (now + config.strategy.cooldown))
        pendingEntry := if signal.direction = .bullish then Function.update e.pendingEntry x (some ⟨signal, score⟩)
          else e.pendingEntry
        pendingExit := if signal.direction = .bearish ∧ e.simulator.hasOpen x then
          Function.update e.pendingExit x (some ⟨signal⟩) else e.pendingExit
        rejections := if signal.direction = .bearish ∧ ¬ e.simulator.hasOpen x then
          e.rejections ++ [⟨x.toUpper, .noActivePosition, 1, now⟩] else e.rejections } := by
  unfold publish armCooldown reject
  cases signal.direction with
  | bullish => simp
  | bearish =>
    by_cases ho : e.simulator.hasOpen x = true
    · simp [ho]
    · simp [ho]

@[simp] theorem simulator_publish (config : BacktestConfig) (e : BacktestEngine) (x : Symbol) (signal : QuantSignal)
    (score : ℚ) (now : Timestamp) : (e.publish config x signal score now).simulator = e.simulator := by rw [publish_eq]

@[simp] theorem trades_publish (config : BacktestConfig) (e : BacktestEngine) (x : Symbol) (signal : QuantSignal)
    (score : ℚ) (now : Timestamp) : (e.publish config x signal score now).trades = e.trades := by rw [publish_eq]

@[simp] theorem flattenedDates_publish (config : BacktestConfig) (e : BacktestEngine) (x : Symbol)
    (signal : QuantSignal) (score : ℚ) (now : Timestamp) :
    (e.publish config x signal score now).flattenedDates = e.flattenedDates := by rw [publish_eq]

/-- A fill keeps a signal that encloses it, measures it anew, or refuses it. -/
theorem finalizeFillGeometry_cases (config : BacktestConfig) (e : BacktestEngine) (signal : QuantSignal) (price : ℚ)
    (now : Timestamp) :
    e.finalizeFillGeometry config signal price now =
        (none, e.reject signal.ticker.toUpper .geometryInvalidatedAtFill 1 now) ∨
      ∃ fill, e.finalizeFillGeometry config signal price now = (some fill, e) ∧ FilledAt price signal fill := by
  unfold finalizeFillGeometry
  cases hstop : signal.stopPrice with
  | none => exact .inr ⟨signal, rfl, id, by simp [hstop], rfl, rfl, rfl⟩
  | some stop =>
    cases htarget : signal.targetPrice with
    | none => exact .inr ⟨signal, rfl, id, by simp [htarget], rfl, rfl, rfl⟩
    | some target =>
      by_cases hvalid : GeometryValid stop price target signal.direction
      · exact .inr ⟨signal, by simp [hvalid], id, by simpa [hstop, htarget] using hvalid, rfl, rfl, rfl⟩
      · simp only [hvalid, if_false]
        cases hg : calculateTradeGeometry price signal.atr signal.direction signal.pivotResistance signal.pivotSupport
            config.strategy with
        | none => exact .inl rfl
        | some g =>
          by_cases hr : g.riskRewardRatio.any (config.strategy.minRiskRewardRatio ≤ ·) = true
          · obtain ⟨ratio, hratio, -⟩ := (Option.any_eq_true _ _).1 hr
            refine .inr ⟨withGeometry signal g, by simp [hr], fun _ => ⟨?_, ?_, ?_⟩, ?_, rfl, rfl, rfl⟩
            · simp [withGeometry]
            · simp [withGeometry]
            · simp [withGeometry]
            · simpa [withGeometry] using (calculateTradeGeometry_measured hg hratio).valid
          · exact .inl (by simp [hr])

/-- A candidate is refused, or measured at the latest close. -/
theorem revalidate_cases (config : BacktestConfig) (e : BacktestEngine) (signal : QuantSignal) (now : Timestamp) :
    (∃ reason, ThrottleReason reason ∧
        e.revalidate config signal now = (none, e.reject signal.ticker.toUpper reason 1 now)) ∨
      ∃ valid, e.revalidate config signal now = (some valid, e) ∧ valid.ticker = signal.ticker ∧
        e.market.lastClose signal.ticker.toUpper = some valid.price ∧ Bracketed valid := by
  unfold revalidate
  by_cases hage : config.strategy.maxCandidateAgeSeconds < 0
  · exact .inl ⟨_, .expiredInThrottleQueue, by simp [hage]⟩
  · simp only [hage, if_false]
    cases hclose : e.market.lastClose signal.ticker.toUpper with
    | none => exact .inl ⟨_, .finalRevalidationDataUnavailable, rfl⟩
    | some price =>
      by_cases hdata : signal.atr = none ∨ signal.pivotResistance = none ∨ signal.pivotSupport = none
      · exact .inl ⟨_, .finalRevalidationDataUnavailable, by simp [hdata]⟩
      simp only [hdata, if_false]
      cases hg : calculateTradeGeometry price signal.atr signal.direction signal.pivotResistance signal.pivotSupport
          config.strategy with
      | none => exact .inl ⟨_, .rrDegradedDuringThrottle, rfl⟩
      | some g =>
        by_cases hr : g.riskRewardRatio.any (config.strategy.minRiskRewardRatio ≤ ·) = true
        · refine .inr ⟨{ withGeometry signal g with
            price := price, riskRewardRatio := g.riskRewardRatio, signalAgeMs := some 0 }, by simp [hr], rfl, rfl, ?_,
            ?_, ?_⟩
          · simp [withGeometry]
          · simp [withGeometry]
          · simp [withGeometry]
        · exact .inl ⟨_, .rrDegradedDuringThrottle, by simp [hr]⟩

end BacktestEngine

/-- What is kept under a symbol is its own, and the symbol is in upper case. -/
structure Keyed (e : BacktestEngine) : Prop where
  entry : ∀ x pending, e.pendingEntry x = some pending → pending.signal.ticker.toUpper = x
  opened : ∀ x p, e.simulator.opened.get x = some p → x.toUpper = x

/-! ## The steps of the engine -/

section Engine

variable {config : BacktestConfig} {eastern : EasternClock} {now : Timestamp} {Bar : Symbol → HistoricalRow → Prop}
  {e : BacktestEngine} {x : Symbol} {row : HistoricalRow} {q : List QuantSignal} {b : DataFrame}
  {d : List (Symbol × Timestamp)}

theorem steps_takePendingExit (hx : x.toUpper = x) (hbar : Bar x row) (hnow : row.timestamp = now) :
    Steps config eastern now Bar ⟨e, q, b, d, .bars⟩ ⟨e.takePendingExit config x row, q, b, d, .bars⟩ := by
  unfold BacktestEngine.takePendingExit
  cases hp : e.pendingExit x with
  | none => exact .refl
  | some pending =>
    by_cases ho : e.simulator.hasOpen x = true
    · obtain ⟨p, hget⟩ := (TradeSimulator.hasOpen_iff hx).1 ho
      simp only [ho, if_true, TradeSimulator.closeOnSignalExit, TradeSimulator.close_eq hx hget, hnow]
      exact .single (.exit hbar hp hget)
    · simp only [ho, hnow]
      exact .single (.exitMissed hx hp)

variable (config eastern now) in
theorem steps_checkExit (hx : x.toUpper = x) (hbar : Bar x row) {p : OpenPosition}
    (ho : e.simulator.opened.get x = some p) :
    Steps config eastern now Bar ⟨e, q, b, d, .bars⟩
        ⟨e.settle config x now (e.simulator.checkExit x now row.high row.low), q, b, d, .bars⟩ ∧
      ∀ p', (e.simulator.checkExit x now row.high row.low).2.opened.get x = some p' →
        Untouched (e.simulator.checkExit x now row.high row.low).2.config row p' := by
  have hget := TradeSimulator.get_touch ho row.high row.low
  have htouch : Move config eastern now Bar ⟨e, q, b, d, .bars⟩
      ⟨{ e with simulator := e.simulator.put (p.updateExcursion row.high row.low) }, q, b, d, .bars⟩ := .touch hbar ho
  rcases TradeSimulator.checkExit_cases hx ho now row with
    ⟨heq, hclear⟩ | ⟨stop, target, outcome, hstop, htarget, hout, heq⟩
  · rw [heq]
    exact ⟨.single htouch, fun p' hp' => Option.some.inj (hget.symm.trans hp') ▸ hclear⟩
  · rw [heq]
    refine ⟨.tail (.single htouch) (.hit hbar hget rfl hstop htarget hout), fun p' hp' => ?_⟩
    simp [TradeSimulator.get_drop hx] at hp'

variable (config eastern) in
theorem steps_takePendingEntry (hx : x.toUpper = x) (hbar : Bar x row) (hnow : row.timestamp = now) (hkeyed : Keyed e) :
    ∃ d', Steps config eastern now Bar ⟨e, q, b, d, .bars⟩
        ⟨e.takePendingEntry config eastern x row, q, b, d', .bars⟩ ∧
      (e.takePendingEntry config eastern x row).pendingEntry x = none ∧
      ∀ p, (e.takePendingEntry config eastern x row).simulator.opened.get x = some p →
        Untouched (e.takePendingEntry config eastern x row).simulator.config row p ∨ (x, now) ∈ d' := by
  unfold BacktestEngine.takePendingEntry
  cases hp : e.pendingEntry x with
  | none =>
    refine ⟨d, ?_⟩
    by_cases ho : e.simulator.hasOpen x = true
    · obtain ⟨p, hget⟩ := (TradeSimulator.hasOpen_iff hx).1 ho
      obtain ⟨hsteps, hclear⟩ := steps_checkExit config eastern now (q := q) (b := b) (d := d) hx hbar hget
      simp only [ho, if_true, hnow]
      exact ⟨hsteps, by simpa using hp, fun p hp => .inl (by simpa using hclear p (by simpa using hp))⟩
    · simp only [ho]
      refine ⟨.refl, hp, fun p hp => absurd ((TradeSimulator.hasOpen_iff hx).2 ⟨p, hp⟩) ho⟩
  | some pending =>
    have hticker : pending.signal.ticker.toUpper = x := hkeyed.entry x pending hp
    simp only [hnow]
    by_cases hdate : eastern.date now ∈ e.flattenedDates
    · simp only [hdate, if_true]
      exact ⟨_, .single (.entryRefused hp (.inl rfl)), by simp [BacktestEngine.reject], fun _ _ => .inr (by simp)⟩
    simp only [hdate, if_false]
    by_cases hfree : config.allowOverlappingTrades = true ∨ e.simulator.opened.get x = none
    · have hopen : (config.allowOverlappingTrades || !e.simulator.hasOpen x) = true := by
        rcases hfree with h | h
        · simp [h]
        · simp [TradeSimulator.hasOpen, hx, h]
      simp only [hopen, if_true, BacktestEngine.fillEntry, hnow]
      rcases BacktestEngine.finalizeFillGeometry_cases config
        { e with pendingEntry := Function.update e.pendingEntry x none } pending.signal row.openPrice now with
        heq | ⟨fill, heq, hfill⟩
      · rw [heq, hticker]
        exact ⟨_, .single (.entryRefused hp (.inr rfl)), by simp [BacktestEngine.reject], fun _ _ => .inr (by simp)⟩
      · rw [heq]
        have hkey : (TradeSimulator.position e.simulator.config fill now row.openPrice pending.opportunityScore).symbol =
            x := (congrArg String.toUpper hfill.ticker).trans hticker
        have hget : (e.simulator.openPosition fill now row.openPrice pending.opportunityScore).opened.get x =
            some (TradeSimulator.position e.simulator.config fill now row.openPrice pending.opportunityScore) := by
          rw [TradeSimulator.openPosition, TradeSimulator.get_put, if_pos hkey.symm]
        obtain ⟨hsteps, hclear⟩ := steps_checkExit config eastern now (q := q) (b := b) (d := d) (e := { ({ e with pendingEntry := Function.update e.pendingEntry x none } :
            BacktestEngine).countGeometry fill with
              simulator := e.simulator.openPosition fill now row.openPrice pending.opportunityScore }) hx hbar hget
        simp only [BacktestEngine.simulator_countGeometry]
        refine ⟨d, .head (.enter hbar hp hdate hfree hfill) hsteps, by simp, fun p hp => .inl ?_⟩
        simpa using hclear p (by simpa using hp)
    · have hshut : (config.allowOverlappingTrades || !e.simulator.hasOpen x) = false := by
        push Not at hfree
        obtain ⟨p, hget⟩ := Option.ne_none_iff_exists'.1 hfree.2
        simp [hfree.1, TradeSimulator.hasOpen, hx, hget]
      simp only [hshut]
      exact ⟨_, .single (.entrySkipped hp), by simp, fun _ _ => .inr (by simp)⟩

variable {indicators : Indicators}

theorem steps_evaluateBar (hx : x.toUpper = x) :
    Steps config eastern now Bar ⟨e, q, b, d, .bars⟩
      ⟨(e.evaluateBar config eastern indicators x now).1, q ++ (e.evaluateBar config eastern indicators x now).2, b,
        d, .bars⟩ := by
  unfold BacktestEngine.evaluateBar
  cases hs : indicators.computeIndicators (e.market.buffer.getDataframe x) config.strategy with
  | none => simpa using Relation.ReflTransGen.refl
  | some snapshot =>
    simp only
    split_ifs with hgate hsignals
    · simp only [List.append_nil]
      refine .single (.volatility ?_)
      unfold evaluateActiveVolatilityGate
      cases config.strategy.volatilityGateMode <;> simp
    · simpa using Relation.ReflTransGen.refl
    · generalize hlist : evaluateSignals eastern x snapshot config.strategy
        (computeHtfTrend (e.market.bufferHtf.getDataframe x) config.strategy.htfSmaPeriod)
        (computeDailyPivots eastern (e.market.bufferHtf.getDataframe x) snapshot.barTimestamp) = signals
      have hsound := sound_chain (sound_replayGates eastern config.strategy snapshot.barTimestamp
        (e.isLossLockedOut x now) (e.isOnCooldown x now))
      have hkept := hsound.kept signals
      rw [BacktestEngine.rejections_foldl, hx]
      refine .single (.evaluate ?_ ?_ ?_ ?_ ?_)
      · simp
      · rw [List.length_map]
        exact hsound.counts signals
      · exact hsound.records signals
      · intro s hs
        obtain ⟨t, -, rfl⟩ := mem_evaluateSignals.1 (hlist ▸ hkept.subset hs)
        simp [buildSignal, hx]
      · intro hne
        refine Bool.eq_false_iff.2 fun hlocked => hne ?_
        exact hlocked ▸ replayGates_lockedOut ..

theorem Keyed.update_none {y : Symbol} (h : Keyed e) :
    Keyed { e with pendingEntry := Function.update e.pendingEntry y none } := by
  refine ⟨fun x pending hp => ?_, h.opened⟩
  by_cases hx : x = y
  · subst hx
    simp at hp
  · exact h.entry x pending (by simpa [hx] using hp)

theorem Keyed.publish {signal : QuantSignal} {score : ℚ} {y : Symbol} (h : Keyed e) (hy : signal.ticker.toUpper = y) :
    Keyed (e.publish config y signal score now) := by
  unfold BacktestEngine.publish BacktestEngine.armCooldown
  cases signal.direction with
  | bullish =>
    refine ⟨fun x pending hp => ?_, h.opened⟩
    by_cases hx : x = y
    · subst hx
      simp only [Function.update_self, Option.some.injEq] at hp
      rw [← hp]
      exact hy
    · exact h.entry x pending (by simpa [hx] using hp)
  | bearish =>
    dsimp only
    split_ifs
    · exact ⟨h.entry, h.opened⟩
    · exact ⟨h.entry, h.opened⟩

theorem Keyed.settle {y : Symbol} {trade : Trade} {s : TradeSimulator} (h : Keyed e)
    (hs : ∀ x p, s.opened.get x = some p → x.toUpper = x) : Keyed (e.settle config y now (some trade, s)) :=
  ⟨fun x pending hp => h.entry x pending (by simpa using hp), fun x p hp => hs x p (by simpa using hp)⟩

theorem Keyed.put {p : OpenPosition} (h : Keyed e) (hp : p.symbol.toUpper = p.symbol) :
    ∀ x p', (e.simulator.put p).opened.get x = some p' → x.toUpper = x := by
  intro x p' hget
  rw [TradeSimulator.get_put] at hget
  by_cases hx : x = p.symbol
  · rw [hx, hp]
  · rw [if_neg hx] at hget
    exact h.opened x p' hget

theorem Keyed.drop {y : Symbol} (h : Keyed e) (hy : y.toUpper = y) :
    ∀ x p, (e.simulator.drop y).opened.get x = some p → x.toUpper = x := by
  intro x p hget
  rw [TradeSimulator.get_drop hy] at hget
  by_cases hx : x = y
  · simp [hx] at hget
  · rw [if_neg hx] at hget
    exact h.opened x p hget

theorem Move.keyed {t t' : Turn} (h : Move config eastern now Bar t t') (ht : Keyed t.engine) : Keyed t'.engine := by
  cases h with
  | tick | feed | volatility | evaluate | reorder | refuse | exitMissed | markDate => exact ⟨ht.entry, ht.opened⟩
  | publish _ hticker => exact ht.publish (by rw [hticker])
  | exit _ _ ho => exact Keyed.settle ⟨ht.entry, ht.opened⟩ (ht.drop (ht.opened _ _ ho))
  | hit _ ho => exact ht.settle (ht.drop (ht.opened _ _ ho))
  | eodClose ho => exact ht.settle (ht.drop (ht.opened _ _ ho))
  | entryRefused => exact ⟨ht.update_none.entry, ht.opened⟩
  | entrySkipped => exact ht.update_none
  | touch _ ho =>
    refine ⟨ht.entry, ht.put ?_⟩
    rw [OpenPosition.symbol_updateExcursion, Table.key_of_get ho]
    exact ht.opened _ _ ho
  | enter =>
    refine ⟨fun x pending hp => ht.update_none.entry x pending (by simpa using hp), ht.put ?_⟩
    exact toUpper_toUpper _

theorem keyed_of_steps {t t' : Turn} (h : Steps config eastern now Bar t t') (ht : Keyed t.engine) :
    Keyed t'.engine := by
  induction h with
  | refl => exact ht
  | tail _ hmove ih => exact hmove.keyed ih

/-! ## What a move does to positions and trades -/

/-- A position is an older one, which a bar may have widened, or the fill of an entry. -/
theorem Move.position_cases {t t' : Turn} (h : Move config eastern now Bar t t') (hkeyed : Keyed t.engine) {y : Symbol}
    {p' : OpenPosition} (ho : t'.engine.simulator.opened.get y = some p') :
    (∃ p, t.engine.simulator.opened.get y = some p ∧ (p' = p ∨ ∃ row : HistoricalRow, Bar y row ∧
        p' = p.updateExcursion row.high row.low)) ∨
      ∃ row pending fill, Bar y row ∧ t.engine.pendingEntry y = some pending ∧ t.phase = .bars ∧
        eastern.date now ∉ t.engine.flattenedDates ∧
        (config.allowOverlappingTrades = true ∨ t.engine.simulator.opened.get y = none) ∧
        FilledAt row.openPrice pending.signal fill ∧
        p' = TradeSimulator.position t.engine.simulator.config fill now row.openPrice pending.opportunityScore := by
  have hdrop : ∀ {s : TradeSimulator} {x : Symbol} {p : OpenPosition}, s.opened.get x = some p → x.toUpper = x →
      (s.drop x).opened.get y = some p' → s.opened.get y = some p' := fun {s x p} _ hx hget => by
    rw [TradeSimulator.get_drop hx] at hget
    by_cases hy : y = x
    · simp [hy] at hget
    · rwa [if_neg hy] at hget
  cases h with
  | tick | feed | volatility | evaluate | reorder | refuse | exitMissed | markDate | entryRefused | entrySkipped =>
    exact .inl ⟨p', ho, .inl rfl⟩
  | publish =>
    refine .inl ⟨p', ?_, .inl rfl⟩
    rwa [BacktestEngine.simulator_publish] at ho
  | exit hbar hp hget =>
    rw [BacktestEngine.simulator_settle] at ho
    exact .inl ⟨p', hdrop hget (hkeyed.opened _ _ hget) ho, .inl rfl⟩
  | hit hbar hget =>
    rw [BacktestEngine.simulator_settle] at ho
    exact .inl ⟨p', hdrop hget (hkeyed.opened _ _ hget) ho, .inl rfl⟩
  | eodClose hget =>
    rw [BacktestEngine.simulator_settle] at ho
    exact .inl ⟨p', hdrop hget (hkeyed.opened _ _ hget) ho, .inl rfl⟩
  | @touch e q b d x row p hbar hget =>
    have hkey := Table.key_of_get hget
    dsimp only at ho
    rw [TradeSimulator.get_put, OpenPosition.symbol_updateExcursion, hkey] at ho
    by_cases hy : y = x
    · subst hy
      rw [if_pos rfl, Option.some.injEq] at ho
      exact .inl ⟨p, hget, .inr ⟨row, hbar, ho.symm⟩⟩
    · rw [if_neg hy] at ho
      exact .inl ⟨p', ho, .inl rfl⟩
  | @enter e q b d x row pending fill hbar hp hdate hfree hfill =>
    have hkey : (TradeSimulator.position e.simulator.config fill now row.openPrice pending.opportunityScore).symbol = x :=
      (congrArg String.toUpper hfill.ticker).trans (hkeyed.entry x pending hp)
    dsimp only at ho
    rw [TradeSimulator.openPosition, TradeSimulator.get_put, hkey] at ho
    by_cases hy : y = x
    · subst hy
      rw [if_pos rfl, Option.some.injEq] at ho
      exact .inr ⟨row, pending, fill, hbar, hp, rfl, hdate, hfree, hfill, ho.symm⟩
    · rw [if_neg hy] at ho
      exact .inl ⟨p', ho, .inl rfl⟩

/-- A position that leaves becomes a trade, and a loss locks its symbol. -/
theorem Move.leave_cases {t t' : Turn} (h : Move config eastern now Bar t t') :
    t'.engine.trades = t.engine.trades ∧ t'.engine.lossLockoutUntil = t.engine.lossLockoutUntil ∨
      ∃ y p price reason signal, t.engine.simulator.opened.get y = some p ∧
        let trade := p.close t.engine.simulator.config now price reason signal
        t'.engine.simulator = t.engine.simulator.drop y ∧ t'.engine.trades = t.engine.trades ++ [trade] ∧
          t'.engine.lossLockoutUntil = if trade.netPnl < 0 then
            Function.update t.engine.lossLockoutUntil y (some (now + config.strategy.lossLockout))
            else t.engine.lossLockoutUntil := by
  cases h with
  | tick | feed | volatility | evaluate | reorder | refuse | exitMissed | markDate | entryRefused | entrySkipped | touch =>
    exact .inl ⟨rfl, rfl⟩
  | publish => exact .inl (by simp [BacktestEngine.publish_eq])
  | @enter e _ _ _ x _ _ fill =>
    obtain ⟨paths, reasons, heq⟩ := BacktestEngine.countGeometry_eq
      { e with pendingEntry := Function.update e.pendingEntry x none } fill
    exact .inl (by simp [heq])
  | exit _ _ ho =>
    rw [BacktestEngine.settle_some]
    exact .inr ⟨_, _, _, _, _, ho, rfl, rfl, rfl⟩
  | hit _ ho =>
    rw [BacktestEngine.settle_some]
    exact .inr ⟨_, _, _, _, _, ho, rfl, rfl, rfl⟩
  | eodClose ho =>
    rw [BacktestEngine.settle_some]
    exact .inr ⟨_, _, _, _, _, ho, rfl, rfl, rfl⟩

theorem Move.trade_cases {t t' : Turn} (h : Move config eastern now Bar t t') {trade : Trade}
    (ht : trade ∈ t'.engine.trades) :
    trade ∈ t.engine.trades ∨ ∃ y p price reason signal, t.engine.simulator.opened.get y = some p ∧
      trade = p.close t.engine.simulator.config now price reason signal := by
  rcases h.leave_cases with ⟨heq, -⟩ | ⟨y, p, price, reason, signal, ho, -, heq, -⟩
  · exact .inl (heq ▸ ht)
  · rw [heq] at ht
    exact (List.mem_append.1 ht).imp_right fun h => ⟨y, p, price, reason, signal, ho, List.mem_singleton.1 h⟩

/-- A publication is that of the first candidate. -/
theorem Move.publish_cases {t t' : Turn} (h : Move config eastern now Bar t t') :
    t'.engine.published = t.engine.published ∧ t'.engine.cooldownUntil = t.engine.cooldownUntil ∨
      ∃ c signal, t.queue = c :: t'.queue ∧ t.engine.isOnCooldown c.ticker.toUpper now = false ∧
        signal.ticker = c.ticker ∧ t'.engine.published = t.engine.published ++ [⟨now, signal⟩] ∧
        t'.engine.cooldownUntil = Function.update t.engine.cooldownUntil c.ticker.toUpper
          (some (now + config.strategy.cooldown)) := by
  cases h with
  | tick | feed | volatility | evaluate | reorder | refuse | exitMissed | markDate | entryRefused | entrySkipped | touch =>
    exact .inl ⟨rfl, rfl⟩
  | publish hcool ht => exact .inr ⟨_, _, rfl, hcool, ht, by simp [BacktestEngine.publish_eq]⟩
  | @enter e _ _ _ x _ _ fill =>
    obtain ⟨paths, reasons, heq⟩ := BacktestEngine.countGeometry_eq
      { e with pendingEntry := Function.update e.pendingEntry x none } fill
    exact .inl (by simp [heq])
  | exit => exact .inl (by simp [BacktestEngine.settle_some])
  | hit => exact .inl (by simp [BacktestEngine.settle_some])
  | eodClose => exact .inl (by simp [BacktestEngine.settle_some])

/-- An entry is pending since before, or has been published just now. -/
theorem Move.pending_cases {t t' : Turn} (h : Move config eastern now Bar t t') {x : Symbol} {pending : PendingEntry}
    (hp : t'.engine.pendingEntry x = some pending) :
    t.engine.pendingEntry x = some pending ∨ t'.bars = t.bars ∧ ⟨now, pending.signal⟩ ∈ t'.engine.published := by
  have hupdate : ∀ {f : Symbol → Option PendingEntry} {y : Symbol}, Function.update f y none x = some pending →
      f x = some pending := fun {f y} hf => by
    by_cases hx : x = y
    · simp [hx] at hf
    · simpa [hx] using hf
  cases h with
  | tick | feed | volatility | evaluate | reorder | refuse | exitMissed | markDate | touch => exact .inl hp
  | entryRefused => exact .inl (hupdate hp)
  | entrySkipped => exact .inl (hupdate hp)
  | enter => exact .inl (hupdate (by simpa using hp))
  | exit => exact .inl (by simpa using hp)
  | hit => exact .inl (by simpa using hp)
  | eodClose => exact .inl (by simpa using hp)
  | @publish e q b d c signal score =>
    rw [BacktestEngine.publish_eq] at hp ⊢
    by_cases hdir : signal.direction = .bullish
    · simp only [hdir, if_true, Function.update_apply] at hp
      by_cases hx : x = c.ticker.toUpper
      · rw [if_pos hx, Option.some.injEq] at hp
        exact .inr ⟨rfl, by simp [← hp]⟩
      · rw [if_neg hx] at hp
        exact .inl hp
    · exact .inl (by simpa [hdir] using hp)

/-- A bar is fed when no entry is pending for it and it has been compared with the position, or an entry was due. -/
theorem Move.bars_cases {t t' : Turn} (h : Move config eastern now Bar t t') :
    t'.bars = t.bars ∨ ∃ x row, Bar x row ∧ t'.bars = t.bars ++ [(x, row)] ∧ t.engine.pendingEntry x = none ∧
      t'.engine.pendingEntry = t.engine.pendingEntry ∧ t'.engine.simulator = t.engine.simulator ∧ t'.due = t.due ∧
      ∀ p, t.engine.simulator.opened.get x = some p →
        Untouched t.engine.simulator.config row p ∨ (x, now) ∈ t.due := by
  cases h with
  | feed hx hbar hdue hopen => exact .inr ⟨_, _, hbar, rfl, hdue, rfl, rfl, rfl, hopen⟩
  | _ => exact .inl rfl

/-- An entry is due when it has been pending. -/
theorem Move.due_cases {t t' : Turn} (h : Move config eastern now Bar t t') :
    t'.due = t.due ∨ ∃ x pending, t.engine.pendingEntry x = some pending ∧ t.phase = .bars ∧
      t'.due = t.due ++ [(x, now)] := by
  cases h with
  | entryRefused hp => exact .inr ⟨_, _, hp, rfl, rfl⟩
  | entrySkipped hp => exact .inr ⟨_, _, hp, rfl, rfl⟩
  | _ => exact .inl rfl

/-- While bars are processed nothing is published. -/
theorem Move.phase_bars {t t' : Turn} (h : Move config eastern now Bar t t') (ht : t'.phase = .bars) :
    t.phase = .bars ∧ t'.engine.published = t.engine.published := by
  cases h with
  | reorder | refuse | publish | markDate | eodClose => simp at ht
  | tick | feed | volatility | evaluate | exitMissed | entryRefused | entrySkipped | touch => exact ⟨rfl, rfl⟩
  | exit => exact ⟨rfl, by simp [BacktestEngine.settle_some]⟩
  | hit => exact ⟨rfl, by simp [BacktestEngine.settle_some]⟩
  | @enter e _ _ _ x _ _ fill =>
    obtain ⟨paths, reasons, heq⟩ := BacktestEngine.countGeometry_eq
      { e with pendingEntry := Function.update e.pendingEntry x none } fill
    exact ⟨rfl, by simp [heq]⟩

/-- A new candidate is of a symbol that is not locked out. -/
theorem Move.queue_cases {t t' : Turn} (h : Move config eastern now Bar t t') {c : QuantSignal} (hc : c ∈ t'.queue) :
    c ∈ t.queue ∨ t.engine.isLossLockedOut c.ticker.toUpper now = false := by
  cases h with
  | tick | feed | volatility | exit | exitMissed | markDate | entryRefused | entrySkipped | touch | enter | hit | eodClose =>
    exact .inl hc
  | evaluate _ _ _ hticker hfree =>
    refine (List.mem_append.1 hc).imp_right fun hc => ?_
    rw [hticker c hc]
    exact hfree (List.ne_nil_of_mem hc)
  | reorder hperm => exact .inl (hperm.mem_iff.1 hc)
  | refuse => exact .inl (List.mem_append_right _ hc)
  | publish => exact .inl (List.mem_cons_of_mem _ hc)

/-- Only the end of a day marks a date. -/
theorem Move.dates_cases {t t' : Turn} (h : Move config eastern now Bar t t') :
    t'.engine.flattenedDates = t.engine.flattenedDates ∧ (t.phase = .close → t'.phase = .close) ∨
      t'.engine.flattenedDates = eastern.date now :: t.engine.flattenedDates ∧ t'.phase = .close ∧
        BacktestEngine.pastFlattenTime config eastern now = true := by
  cases h with
  | tick | feed | volatility | evaluate | reorder | refuse | exitMissed | entryRefused | entrySkipped | touch =>
    exact .inl ⟨rfl, by simp⟩
  | markDate ht => exact .inr ⟨rfl, rfl, ht⟩
  | publish => exact .inl ⟨BacktestEngine.flattenedDates_publish .., by simp⟩
  | @enter e _ _ _ x _ _ fill =>
    obtain ⟨paths, reasons, heq⟩ := BacktestEngine.countGeometry_eq
      { e with pendingEntry := Function.update e.pendingEntry x none } fill
    exact .inl ⟨by simp [heq], by simp⟩
  | exit => exact .inl ⟨by rw [BacktestEngine.settle_some], by simp⟩
  | hit => exact .inl ⟨by rw [BacktestEngine.settle_some], by simp⟩
  | eodClose => exact .inl ⟨by rw [BacktestEngine.settle_some], by simp⟩

variable (config eastern indicators) in
theorem steps_processSymbolBar (symbol : Symbol) (hbar : Bar symbol.toUpper row) (hnow : row.timestamp = now)
    (hkeyed : Keyed e) :
    ∃ d', Steps config eastern now Bar ⟨e, q, b, d, .bars⟩
      ⟨(e.processSymbolBar config eastern indicators symbol row q).1,
        (e.processSymbolBar config eastern indicators symbol row q).2, b ++ [(symbol.toUpper, row)], d', .bars⟩ := by
  have hx : symbol.toUpper.toUpper = symbol.toUpper := toUpper_toUpper symbol
  have hexit : Steps config eastern now Bar ⟨e, q, b, d, .bars⟩
      ⟨({ e with barsProcessed := e.barsProcessed + 1 } : BacktestEngine).takePendingExit config symbol.toUpper row,
        q, b, d, .bars⟩ :=
    .head (.tick _) (steps_takePendingExit hx hbar hnow)
  obtain ⟨d', hentry, hdue, hopen⟩ := steps_takePendingEntry config eastern (q := q) (b := b) (d := d) hx hbar
    hnow (keyed_of_steps hexit hkeyed)
  refine ⟨d', (hexit.trans hentry).trans (.head (.feed hx hbar hdue hopen) ?_)⟩
  unfold BacktestEngine.processSymbolBar
  rw [hnow]
  exact steps_evaluateBar hx

theorem steps_release (c : QuantSignal × ℚ) :
    Steps config eastern now Bar ⟨e, c.1 :: q, b, d, .throttle⟩ ⟨e.release config now c, q, b, d, .throttle⟩ := by
  have hrefuse : ∀ reason, ThrottleReason reason →
      Steps config eastern now Bar ⟨e, c.1 :: q, b, d, .throttle⟩
        ⟨e.reject c.1.ticker.toUpper reason 1 now, q, b, d, .throttle⟩ :=
    fun reason hr => .single (@Move.refuse _ _ _ _ e q b d c.1.ticker.toUpper [c.1] reason (by simp) hr)
  unfold BacktestEngine.release
  by_cases hcool : e.isOnCooldown c.1.ticker.toUpper now = true
  · simp only [hcool, if_true]
    exact hrefuse _ .cooldown
  · simp only [hcool]
    rcases BacktestEngine.revalidate_cases config e c.1 now with ⟨reason, hr, heq⟩ | ⟨valid, heq, ht, hprice, hvalid⟩
    · rw [heq]
      exact hrefuse reason hr
    · rw [heq]
      exact .single (.publish (by simpa using hcool) ht hprice hvalid)

theorem steps_releases (cs : List (QuantSignal × ℚ)) :
    Steps config eastern now Bar ⟨e, cs.map (·.1) ++ q, b, d, .throttle⟩
      ⟨cs.foldl (fun e c => e.release config now c) e, q, b, d, .throttle⟩ := by
  induction cs generalizing e with
  | nil => exact .refl
  | cons c cs ih => exact (steps_release c).trans ih

theorem steps_throttled (gs : List (Symbol × List (QuantSignal × ℚ)))
    (hgs : ∀ g ∈ gs, ∀ c ∈ g.2, c.1.ticker.toUpper = g.1) :
    Steps config eastern now Bar ⟨e, (gs.flatMap (·.2)).map (·.1) ++ q, b, d, .throttle⟩
      ⟨gs.foldl (fun e g => e.reject g.1 .throttle g.2.length now) e, q, b, d, .throttle⟩ := by
  induction gs generalizing e with
  | nil => exact .refl
  | cons g gs ih =>
    rw [List.flatMap_cons, List.map_append, List.append_assoc, List.foldl_cons]
    refine .head ?_ (ih fun g hg => hgs g (List.mem_cons_of_mem _ hg))
    have hcs : ∀ c ∈ g.2.map (·.1), c.ticker.toUpper = g.1 := fun c hc => by
      obtain ⟨c₀, hc₀, rfl⟩ := List.mem_map.1 hc
      exact hgs g List.mem_cons_self c₀ hc₀
    have hmove : Move config eastern now Bar
        ⟨e, g.2.map (·.1) ++ ((gs.flatMap (·.2)).map (·.1) ++ q), b, d, .throttle⟩
        ⟨e.reject g.1 .throttle (g.2.map (·.1)).length now, (gs.flatMap (·.2)).map (·.1) ++ q, b, d, .throttle⟩ :=
      .refuse hcs .throttle
    rwa [List.length_map] at hmove

theorem steps_flushThrottle (cs : List QuantSignal) :
    Steps config eastern now Bar ⟨e, cs, b, d, .bars⟩ ⟨e.flushThrottle config cs now, [], b, d, .throttle⟩ := by
  unfold BacktestEngine.flushThrottle
  dsimp only
  generalize hscored : (cs.map fun s => (s, opportunityScore s config.strategy)).insertionSort
    (fun a b => b.2 ≤ a.2) = scored
  generalize BacktestEngine.sliceEnd config.strategy.throttleMaxSignals scored.length = n
  have hgroups := groups_perm (fun c : QuantSignal × ℚ => c.1.ticker.toUpper) (scored.drop n)
  have hperm : ((scored.take n).map Prod.fst ++
      (((groups (fun c : QuantSignal × ℚ => c.1.ticker.toUpper) (scored.drop n)).flatMap Prod.snd).map Prod.fst ++
        [])).Perm cs := by
    have hmap : (scored.map Prod.fst).Perm cs := by
      rw [← hscored]
      refine ((List.perm_insertionSort _ _).map _).trans ?_
      simp [List.map_map, Function.comp_def]
    refine List.Perm.trans ?_ hmap
    rw [List.append_nil]
    refine ((hgroups.map _).append_left _).trans ?_
    rw [← List.map_append, List.take_append_drop]
  exact .head (.reorder hperm) ((steps_releases _).trans
    (steps_throttled _ fun g hg c hc => key_of_mem_groups _ hg c hc))

variable (config now e) in
/-- A position with a last close is closed there. -/
theorem closeAtLast_cases (hx : x.toUpper = x) :
    (e.closeAtLast config now x = e ∧ (e.simulator.opened.get x = none ∨ e.market.lastClose x = none)) ∨
      ∃ p price, e.simulator.opened.get x = some p ∧ e.market.lastClose x = some price ∧
        e.closeAtLast config now x = e.settle config x now
          (some (p.close e.simulator.config now price .endOfSession none), e.simulator.drop x) := by
  unfold BacktestEngine.closeAtLast
  cases hclose : e.market.lastClose x with
  | none => exact .inl ⟨rfl, .inr rfl⟩
  | some price =>
    cases ho : e.simulator.opened.get x with
    | none =>
      refine .inl ⟨?_, .inl rfl⟩
      simp only [TradeSimulator.forceClose, TradeSimulator.close, TradeSimulator.getOpen_eq hx, ho]
      rfl
    | some p => exact .inr ⟨p, price, rfl, rfl, by simp only [TradeSimulator.forceClose, TradeSimulator.close_eq hx ho]⟩

theorem steps_closeAtLast (hx : x.toUpper = x) :
    Steps config eastern now Bar ⟨e, q, b, d, .close⟩ ⟨e.closeAtLast config now x, q, b, d, .close⟩ := by
  rcases closeAtLast_cases config now e hx with ⟨heq, -⟩ | ⟨p, price, ho, hclose, heq⟩
  · rw [heq]
  · rw [heq]
    exact .single (.eodClose ho hclose)

theorem steps_closeAll {xs : List Symbol} (hxs : ∀ x ∈ xs, x.toUpper = x) :
    Steps config eastern now Bar ⟨e, q, b, d, .close⟩
      ⟨xs.foldl (fun e x => e.closeAtLast config now x) e, q, b, d, .close⟩ := by
  induction xs generalizing e with
  | nil => exact .refl
  | cons x xs ih =>
    exact (steps_closeAtLast (hxs x List.mem_cons_self)).trans (ih fun y hy => hxs y (List.mem_cons_of_mem x hy))

theorem Keyed.openSymbols (h : Keyed e) : ∀ x ∈ e.simulator.openSymbols, x.toUpper = x := by
  intro x hx
  obtain ⟨p, hp, rfl⟩ := List.mem_map.1 hx
  exact h.opened _ p (Table.get_eq_some.2 ⟨hp, rfl⟩)

variable (config now e) in
/-- Positions with a last close are gone, and nothing but the simulator, the trades and the lockouts has changed. -/
theorem closeAll_spec {xs : List Symbol} (hxs : ∀ x ∈ xs, x.toUpper = x) :
    let e' := xs.foldl (fun e x => e.closeAtLast config now x) e
    e'.market = e.market ∧ e'.flattenedDates = e.flattenedDates ∧
      ∀ y p, e'.simulator.opened.get y = some p →
        e.simulator.opened.get y = some p ∧ (y ∈ xs → e.market.lastClose y = none) := by
  induction xs generalizing e with
  | nil => exact ⟨rfl, rfl, fun y p ho => ⟨ho, by simp⟩⟩
  | cons x xs ih =>
    have hx := hxs x List.mem_cons_self
    obtain ⟨hmarket, hdates, hopen⟩ := ih (e := e.closeAtLast config now x) fun z hz => hxs z (List.mem_cons_of_mem x hz)
    rcases closeAtLast_cases config now e hx with ⟨heq, hnone⟩ | ⟨p₀, price, ho₀, hclose, heq⟩
    · rw [heq] at hmarket hdates hopen
      simp only [List.foldl_cons, heq]
      refine ⟨hmarket, hdates, fun y p ho => ?_⟩
      obtain ⟨hget, hrest⟩ := hopen y p ho
      refine ⟨hget, fun hy => ?_⟩
      rcases List.mem_cons.1 hy with rfl | hy
      · exact hnone.resolve_left (by simp [hget])
      · exact hrest hy
    · rw [heq, BacktestEngine.settle_some] at hmarket hdates hopen
      simp only [List.foldl_cons, heq, BacktestEngine.settle_some]
      refine ⟨hmarket, hdates, fun y p ho => ?_⟩
      obtain ⟨hget, hrest⟩ := hopen y p ho
      dsimp only at hget
      rw [TradeSimulator.get_drop hx] at hget
      by_cases hyx : y = x
      · simp [hyx] at hget
      · rw [if_neg hyx] at hget
        exact ⟨hget, fun hy => hrest ((List.mem_cons.1 hy).resolve_left hyx)⟩

/-- What holds when a minute is over. -/
structure Ended (config : BacktestConfig) (eastern : EasternClock) (now : Timestamp) (t : Turn) : Prop where
  queue : t.queue = []
  marked : config.eodFlattenEnabled = true → BacktestEngine.pastFlattenTime config eastern now = true →
    eastern.date now ∈ t.engine.flattenedDates
  closed : t.phase = .close → ∀ x p, t.engine.simulator.opened.get x = some p → t.engine.market.lastClose x = none

variable (config eastern now Bar) in
theorem steps_maybeEodFlatten {f : Phase} (hkeyed : Keyed e) (hf : f ≠ .close) :
    ∃ f', Steps config eastern now Bar ⟨e, [], b, d, f⟩ ⟨e.maybeEodFlatten config eastern now, [], b, d, f'⟩ ∧
      Ended config eastern now ⟨e.maybeEodFlatten config eastern now, [], b, d, f'⟩ := by
  unfold BacktestEngine.maybeEodFlatten
  split_ifs with h
  · refine ⟨f, .refl, rfl, fun _ hpast => ?_, fun hclose => absurd hclose hf⟩
    exact h.resolve_left (by simp [hpast])
  · push Not at h
    obtain ⟨hmarket, hdates, hopen⟩ := closeAll_spec config now
      { e with flattenedDates := eastern.date now :: e.flattenedDates } hkeyed.openSymbols
    refine ⟨.close, .head (.markDate (by simpa using h.1)) (steps_closeAll hkeyed.openSymbols), rfl, fun _ _ => ?_,
      fun _ x p ho => ?_⟩
    · exact hdates ▸ List.mem_cons_self
    · obtain ⟨hget, hnone⟩ := hopen x p ho
      exact (congrArg (·.lastClose x) hmarket).trans
        (hnone (List.mem_map.2 ⟨p, Table.mem_of_get hget, Table.key_of_get hget⟩))

/-! ## Minutes -/

/-- The bars of a frame, by their symbols in upper case. -/
def upperBars (df : DataFrame) : DataFrame := df.map fun bar => (bar.1.toUpper, bar.2)

variable (config eastern indicators) in
theorem steps_processBars (rows : DataFrame) (hbars : ∀ bar ∈ rows, Bar bar.1.toUpper bar.2 ∧ bar.2.timestamp = now)
    (hkeyed : Keyed e) :
    ∃ d', Steps config eastern now Bar ⟨e, q, b, d, .bars⟩
      ⟨(rows.foldl (fun x bar => x.1.processSymbolBar config eastern indicators bar.1 bar.2 x.2) (e, q)).1,
        (rows.foldl (fun x bar => x.1.processSymbolBar config eastern indicators bar.1 bar.2 x.2) (e, q)).2,
        b ++ upperBars rows, d', .bars⟩ := by
  induction rows generalizing e q b d with
  | nil => exact ⟨d, by simpa [upperBars] using Relation.ReflTransGen.refl⟩
  | cons bar rows ih =>
    obtain ⟨hbar, hnow⟩ := hbars bar List.mem_cons_self
    obtain ⟨d', hstep⟩ := steps_processSymbolBar config eastern indicators (q := q) (b := b) (d := d) bar.1 hbar hnow hkeyed
    obtain ⟨d'', hsteps⟩ := ih (fun bar hb => hbars bar (List.mem_cons_of_mem _ hb)) (keyed_of_steps hstep hkeyed)
      (b := b ++ [(bar.1.toUpper, bar.2)]) (d := d')
    refine ⟨d'', hstep.trans ?_⟩
    simpa [upperBars] using hsteps

variable (config eastern indicators Bar) in
/-- A minute of a replay. -/
theorem steps_processGroup (g : Timestamp × DataFrame)
    (hbars : ∀ bar ∈ g.2, Bar bar.1.toUpper bar.2 ∧ bar.2.timestamp = g.1) (hkeyed : Keyed e) :
    ∃ t', Steps config eastern g.1 Bar ⟨e, [], b, d, .bars⟩ t' ∧ Ended config eastern g.1 t' ∧
      t'.engine = e.processGroup config eastern indicators g ∧ t'.bars = b ++ upperBars g.2 := by
  obtain ⟨d', hbarsteps⟩ := steps_processBars config eastern indicators (q := []) (b := b) (d := d) g.2 hbars hkeyed
  unfold BacktestEngine.processGroup
  have hkeyed' := keyed_of_steps hbarsteps hkeyed
  generalize g.2.foldl (fun x bar => x.1.processSymbolBar config eastern indicators bar.1 bar.2 x.2) (e, []) = r at *
  obtain ⟨f, hf, hflush⟩ : ∃ f ≠ Phase.close, Steps config eastern g.1 Bar ⟨r.1, r.2, b ++ upperBars g.2, d', .bars⟩
      ⟨if r.2 = [] then r.1 else r.1.flushThrottle config r.2 g.1, [], b ++ upperBars g.2, d', f⟩ := by
    by_cases hr : r.2 = []
    · refine ⟨.bars, by decide, ?_⟩
      rw [if_pos hr, hr]
    · refine ⟨.throttle, by decide, ?_⟩
      rw [if_neg hr]
      exact steps_flushThrottle r.2
  have hsteps := hbarsteps.trans hflush
  dsimp only
  by_cases heod : config.eodFlattenEnabled = true
  · rw [if_pos heod]
    obtain ⟨f', hend, hended⟩ := steps_maybeEodFlatten config eastern g.1 Bar (b := b ++ upperBars g.2)
      (d := d') (keyed_of_steps hflush hkeyed') hf
    exact ⟨_, hsteps.trans hend, hended, rfl, rfl⟩
  · rw [if_neg heod]
    exact ⟨_, hsteps, ⟨rfl, fun h => absurd h heod, fun h => absurd h hf⟩, rfl, rfl⟩

end Engine

end TalonX.Backtest
