import TalonX.Backtest.Trades

/-!
# The accounting of geometries

Positions are counted by the path that led to their stop and target when they are opened, trades when they are closed.
Without overlapping trades no position is opened over another one: the counts agree.

- `tally`: the trades and the open positions of a kind; `Move.tallied`: only an entry changes it;
- `geometry_tally`: the counts of a run are those of its trades.
-/

set_option autoImplicit false

namespace TalonX.Backtest

open Quant Transact

/-- A kind of signals, by the path and the reason of a fallback. -/
abbrev GeometryKind := Option GeometryPath → Option FallbackReason → Bool

def Trade.ofKind (kind : GeometryKind) (trade : Trade) : Bool := kind trade.geometryPath trade.fallbackReason

def OpenPosition.ofKind (kind : GeometryKind) (p : OpenPosition) : Bool :=
  kind p.signal.geometryPath p.signal.fallbackReason

def tally (kind : GeometryKind) (trades : List Trade) (s : TradeSimulator) : ℕ :=
  trades.countP (·.ofKind kind) + s.opened.rows.countP (·.ofKind kind)

section Tally

variable {kind : GeometryKind} {s : TradeSimulator} {p q : OpenPosition} {x : Symbol} {trades : List Trade}

theorem rows_put_of_none (ho : s.opened.get p.symbol = none) : (s.put p).opened.rows = s.opened.rows ++ [p] := by
  simp [TradeSimulator.put, Table.upsert, ho, Table.rows_insertOrIgnore]

theorem rows_put_of_some (ho : s.opened.get p.symbol = some q) :
    (s.put p).opened.rows = s.opened.rows.map fun r => if r.symbol = p.symbol then p else r := by
  simp only [TradeSimulator.put, Table.upsert, ho, Option.isNone_some, Bool.false_eq_true, if_false, Table.rows_update,
    updateRows]
  refine List.map_congr_left fun r _ => ?_
  by_cases h : r.symbol = p.symbol <;> simp [h]

/-- An entry counts. -/
theorem tally_enter (ho : s.opened.get p.symbol = none) :
    tally kind trades (s.put p) = tally kind trades s + if p.ofKind kind then 1 else 0 := by
  simp only [tally, rows_put_of_none ho, List.countP_append, List.countP_singleton]
  omega

theorem tally_touch (ho : s.opened.get p.symbol = some q) (hsignal : p.signal = q.signal) :
    tally kind trades (s.put p) = tally kind trades s := by
  rw [tally, tally, rows_put_of_some ho, List.countP_map]
  congr 1
  refine List.countP_congr fun r hr => ?_
  by_cases h : r.symbol = p.symbol
  · have hrq : r = q := s.opened.eq_of_key hr (Table.mem_of_get ho) (h.trans (Table.key_of_get ho).symm)
    simp [Function.comp, hrq, Table.key_of_get ho, OpenPosition.ofKind, hsignal]
  · simp [Function.comp, h]

/-- A position that leaves counts as a trade. -/
theorem tally_leave (hx : x.toUpper = x) (ho : s.opened.get x = some p) {trade : Trade}
    (hpath : trade.geometryPath = p.signal.geometryPath) (hreason : trade.fallbackReason = p.signal.fallbackReason) :
    tally kind (trades ++ [trade]) (s.drop x) = tally kind trades s := by
  have hkind : trade.ofKind kind = p.ofKind kind := by rw [Trade.ofKind, OpenPosition.ofKind, hpath, hreason]
  have hsplit := List.countP_eq_countP_filter_add s.opened.rows (·.ofKind kind) fun r : OpenPosition => r.symbol = x
  rw [Table.filter_key_of_get ho] at hsplit
  simp only [tally, TradeSimulator.drop, hx, Table.rows_delete, List.countP_append, List.countP_singleton, hkind] at *
  omega

end Tally

/-! ## Runs -/

structure Turn.Tallied (t : Turn) : Prop where
  paths : ∀ path, t.engine.geometryPathCounts path =
    tally (fun path' _ => path' = some path) t.engine.trades t.engine.simulator
  reasons : ∀ reason, t.engine.fallbackReasonCounts reason =
    tally (fun _ reason' => reason' = some reason) t.engine.trades t.engine.simulator

section Runs

variable {config : BacktestConfig} {eastern : EasternClock} {indicators : Indicators} {warmup df : DataFrame}
  {now : Timestamp} {t t' : Turn}

theorem geometryPathCounts_countGeometry {e : BacktestEngine} {signal : QuantSignal} (hdir : signal.direction = .bullish)
    (path : GeometryPath) :
    (e.countGeometry signal).geometryPathCounts path =
      e.geometryPathCounts path + if signal.geometryPath = some path then 1 else 0 := by
  unfold BacktestEngine.countGeometry
  cases hpath : signal.geometryPath with
  | none => simp [hdir]
  | some path' =>
    simp only [hdir, Function.update_apply, Option.some.injEq]
    by_cases h : path = path'
    · simp [h]
    · simp [h, Ne.symm h]

theorem fallbackReasonCounts_countGeometry {e : BacktestEngine} {signal : QuantSignal}
    (hdir : signal.direction = .bullish) (hpath : signal.geometryPath ≠ none) (reason : FallbackReason) :
    (e.countGeometry signal).fallbackReasonCounts reason =
      e.fallbackReasonCounts reason + if signal.fallbackReason = some reason then 1 else 0 := by
  obtain ⟨path, hpath⟩ := Option.ne_none_iff_exists'.1 hpath
  unfold BacktestEngine.countGeometry
  cases hreason : signal.fallbackReason with
  | none => simp [hdir, hpath]
  | some reason' =>
    simp only [hdir, hpath, Function.update_apply, Option.some.injEq]
    by_cases h : reason = reason'
    · simp [h]
    · simp [h, Ne.symm h]

theorem Turn.Tallied.leave {e : BacktestEngine} {q : List QuantSignal} {b : DataFrame} {d : List (Symbol × Timestamp)}
    {f : Phase} (h : Turn.Tallied ⟨e, q, b, d, f⟩) {x : Symbol} (hx : x.toUpper = x) {p : OpenPosition}
    (ho : e.simulator.opened.get x = some p) (trade : Trade) (hpath : trade.geometryPath = p.signal.geometryPath)
    (hreason : trade.fallbackReason = p.signal.fallbackReason) :
    Turn.Tallied ⟨{ e with simulator := e.simulator.drop x, trades := e.trades ++ [trade] }, q, b, d, f⟩ :=
  ⟨fun path => (h.paths path).trans (tally_leave hx ho hpath hreason).symm,
    fun reason => (h.reasons reason).trans (tally_leave hx ho hpath hreason).symm⟩

theorem Move.tallied (hoverlap : config.allowOverlappingTrades = false)
    (hmove : Move config eastern now (BarAt df now) t t') (hkeyed : Keyed t.engine)
    (hground : t.Grounded config warmup df now) (h : t.Tallied) : t'.Tallied := by
  cases hmove with
  | tick | feed | volatility | evaluate | reorder | refuse | exitMissed | markDate | entryRefused | entrySkipped =>
    exact ⟨h.paths, h.reasons⟩
  | publish =>
    rw [BacktestEngine.publish_eq]
    exact ⟨h.paths, h.reasons⟩
  | @exit e q b d x row pending p hbar hp ho =>
    rw [BacktestEngine.settle_some]
    have hleave := h.leave (hkeyed.opened x p ho) ho
      (p.close e.simulator.config now row.openPrice .signalExit (some pending.signal)) rfl rfl
    exact ⟨hleave.paths, hleave.reasons⟩
  | @hit e q b d x row p p₀ stop target outcome hbar ho =>
    rw [BacktestEngine.settle_some]
    have hleave := h.leave (hkeyed.opened x p ho) ho
      (p.close e.simulator.config now (if outcome = .stop then stop else target) outcome none) rfl rfl
    exact ⟨hleave.paths, hleave.reasons⟩
  | @eodClose e q b d x p price ho =>
    rw [BacktestEngine.settle_some]
    have hleave := h.leave (hkeyed.opened x p ho) ho
      (p.close e.simulator.config now price .endOfSession none) rfl rfl
    exact ⟨hleave.paths, hleave.reasons⟩
  | @touch e q b d x row p hbar ho =>
    have hget : e.simulator.opened.get (p.updateExcursion row.high row.low).symbol = some p := by
      rwa [OpenPosition.symbol_updateExcursion, Table.key_of_get ho]
    have htouch : ∀ kind, tally kind e.trades (e.simulator.put (p.updateExcursion row.high row.low)) =
        tally kind e.trades e.simulator := fun kind => tally_touch hget (OpenPosition.signal_updateExcursion ..)
    exact ⟨fun path => (h.paths path).trans (htouch _).symm, fun reason => (h.reasons reason).trans (htouch _).symm⟩
  | @enter e q b d x row pending fill hbar hp hdate hfree hfill =>
    obtain ⟨hdir, hbracketed, -⟩ := hground.entry x pending hp
    have hlong : fill.direction = .bullish := hfill.direction.trans hdir
    set p := TradeSimulator.position e.simulator.config fill now row.openPrice pending.opportunityScore with hposition
    have hkey : p.symbol = x := (congrArg String.toUpper hfill.ticker).trans (hkeyed.entry x pending hp)
    have hnone : e.simulator.opened.get p.symbol = none := by
      rw [hkey]
      exact hfree.resolve_left (by simp [hoverlap])
    have henter : ∀ kind, tally kind e.trades (e.simulator.put p) =
        tally kind e.trades e.simulator + if kind fill.geometryPath fill.fallbackReason then 1 else 0 := fun kind =>
      tally_enter hnone
    obtain ⟨paths, reasons, heq⟩ := BacktestEngine.countGeometry_eq
      { e with pendingEntry := Function.update e.pendingEntry x none } fill
    refine ⟨fun path => ?_, fun reason => ?_⟩
    · dsimp only
      rw [geometryPathCounts_countGeometry hlong, heq]
      exact (congrArg (· + _) (h.paths path)).trans (by rw [TradeSimulator.openPosition, ← hposition, henter]; simp)
    · dsimp only
      rw [fallbackReasonCounts_countGeometry hlong (hfill.bracketed hbracketed).path, heq]
      exact (congrArg (· + _) (h.reasons reason)).trans (by rw [TradeSimulator.openPosition, ← hposition, henter]; simp)

variable (eastern) in
theorem preserved_tallied (hoverlap : config.allowOverlappingTrades = false) (hearlier : Earlier warmup df) :
    Preserved config eastern warmup df fun now t => t.Grounded config warmup df now ∧ t.Tallied := by
  have hground := preserved_grounded config eastern hearlier
  refine ⟨fun t ht hfirst => ⟨hground.init t ht hfirst, ?_⟩, fun t ht T T' hkeyed hmove h => ?_,
    fun s t ht hlt T hended hfed h => ?_⟩
  · obtain ⟨market, n, heq⟩ := warmed_eq config eastern warmup
    rw [heq]
    exact ⟨fun path => rfl, fun reason => rfl⟩
  · exact ⟨hground.move t ht T T' hkeyed hmove h.1, hmove.tallied hoverlap hkeyed h.1 h.2⟩
  · exact ⟨hground.later s t ht hlt T hended hfed h.1, h.2.paths, h.2.reasons⟩

/-- Without overlapping trades every position that is opened becomes one trade, counted by its geometry, and none is left
open. -/
theorem geometry_tally {result : BacktestResult} {e : BacktestEngine} (hoverlap : config.allowOverlappingTrades = false)
    (hrun : run config eastern indicators warmup df = .ok (result, e)) :
    (∀ path, e.geometryPathCounts path = result.trades.countP (·.geometryPath = some path)) ∧
      (∀ reason, e.fallbackReasonCounts reason = result.trades.countP (·.fallbackReason = some reason)) ∧
      e.simulator.openSymbols = [] := by
  obtain ⟨htrades, -, -, -, hcases⟩ := run_cases hrun
  rw [htrades]
  rcases hcases with ⟨-, rfl⟩ | ⟨hdf, hearlier, rfl⟩
  · simp [BacktestEngine.init, TradeSimulator.openSymbols]
  obtain ⟨now, ⟨e, q, b, d, f⟩, -, -, hengine, -, hkeyed, ⟨hground, htallied⟩, -⟩ :=
    (preserved_tallied eastern hoverlap hearlier).replay indicators hdf
  rw [← hengine]
  obtain ⟨⟨hpaths, hreasons⟩, hopen⟩ := finalizeAtDataEnd_rule (fun e => Turn.Tallied ⟨e, q, b, d, f⟩)
    (fun e x p t price hkeyed h ho _ _ => h.leave (hkeyed.opened x p ho) ho _ rfl rfl) hkeyed htallied
  have hnone : ∀ x, e.finalizeAtDataEnd.simulator.opened.get x = none := fun x => by
    by_contra hne
    obtain ⟨p, hp⟩ := Option.ne_none_iff_exists'.1 hne
    obtain ⟨hget, hclosed⟩ := hopen x p hp
    obtain ⟨price, hprice⟩ := Option.ne_none_iff_exists'.1 (hground.opened x p hget).2
    obtain ⟨row, s, -, htime, -⟩ := hground.market.close x price hprice
    rcases hclosed with h | h
    · exact absurd (hprice.symm.trans h) (by simp)
    · exact absurd (htime.symm.trans h) (by simp)
  have hrows : e.finalizeAtDataEnd.simulator.opened.rows = [] := List.eq_nil_iff_forall_not_mem.2 fun p hp =>
    Table.get_eq_none.1 (hnone p.symbol) p hp rfl
  refine ⟨fun path => ?_, fun reason => ?_, by simp [TradeSimulator.openSymbols, hrows]⟩
  · exact (hpaths path).trans (by simp [tally, hrows, Trade.ofKind])
  · exact (hreasons reason).trans (by simp [tally, hrows, Trade.ofKind])

theorem geometry_tally_sample :
    ∃ result e, run sampleConfig sampleClock sampleIndicators sampleWarmup sampleBars = .ok (result, e) ∧
      result.trades ≠ [] ∧
      (∀ path, e.geometryPathCounts path = result.trades.countP (·.geometryPath = some path)) ∧
      (∀ reason, e.fallbackReasonCounts reason = result.trades.countP (·.fallbackReason = some reason)) ∧
      e.simulator.openSymbols = [] := by
  obtain ⟨result, e, hrun, htrades⟩ := run_sample
  exact ⟨result, e, hrun, by rintro h; simp [h] at htrades, geometry_tally rfl hrun⟩

end Runs

end TalonX.Backtest
