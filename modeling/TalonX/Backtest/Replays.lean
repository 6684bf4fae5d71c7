import TalonX.Backtest.Moves

/-!
# What holds of a whole replay

- `Preserved`: a property of the turns of a replay that its warm-up establishes, that every move keeps, and that outlives
  a minute;
- `Preserved.replay`: it holds when the last minute is over;
- `finalizeAtDataEnd_rule`: what closing a position keeps also holds after the end of the data;
- `run_cases`: what a run is made of; `run_sample`: one of nine bars.
-/

set_option autoImplicit false

namespace TalonX.Backtest

open Quant Transact

def times (df : DataFrame) : List Timestamp := df.map (·.2.timestamp)

/-- `row` is a bar of `x`, in upper case, at `now`. -/
def BarAt (df : DataFrame) (now : Timestamp) (x : Symbol) (row : HistoricalRow) : Prop :=
  ∃ bar ∈ df, bar.1.toUpper = x ∧ bar.2 = row ∧ row.timestamp = now

/-- The bars that a check of `warmup_df` lets through. -/
def Earlier (warmup df : DataFrame) : Prop := ∀ w ∈ warmup, ∀ bar ∈ df, w.2.timestamp < bar.2.timestamp

def warmed (config : BacktestConfig) (eastern : EasternClock) (warmup : DataFrame) : BacktestEngine :=
  (BacktestEngine.sortValues warmup).foldl (fun e bar => e.warmupSymbolBar eastern bar.1 bar.2) (.init config)

/-- All bars before `t` have been fed. -/
def FedBefore (df : DataFrame) (t : Timestamp) (bars : DataFrame) : Prop :=
  ∀ bar ∈ df, bar.2.timestamp < t → (bar.1.toUpper, bar.2) ∈ bars

structure Preserved (config : BacktestConfig) (eastern : EasternClock) (warmup df : DataFrame)
    (inv : Timestamp → Turn → Prop) : Prop where
  init : ∀ t ∈ times df, (∀ s ∈ times df, t ≤ s) → inv t ⟨warmed config eastern warmup, [], [], [], .bars⟩
  move : ∀ t ∈ times df, ∀ T T', Keyed T.engine → Move config eastern t (BarAt df t) T T' → inv t T → inv t T'
  later : ∀ s, ∀ t ∈ times df, s < t → ∀ T, Ended config eastern s T → FedBefore df t T.bars → inv s T →
    inv t { T with phase := .bars }

variable {config : BacktestConfig} {eastern : EasternClock} {indicators : Indicators} {warmup df : DataFrame}

/-! ## Minutes -/

theorem mem_sortValues {bar : Symbol × HistoricalRow} : bar ∈ BacktestEngine.sortValues df ↔ bar ∈ df :=
  (List.perm_insertionSort _ df).mem_iff

/-- The rows of one minute. -/
def rowsAt (df : DataFrame) (t : Timestamp) : DataFrame :=
  under (fun bar => bar.2.timestamp) (BacktestEngine.sortValues df) t

theorem mem_rowsAt {t : Timestamp} {bar : Symbol × HistoricalRow} :
    bar ∈ rowsAt df t ↔ bar ∈ df ∧ bar.2.timestamp = t := by
  rw [rowsAt, mem_under, mem_sortValues]

theorem exists_minutes (df : DataFrame) :
    ∃ ks : List Timestamp, ks.Pairwise (· < ·) ∧ (∀ k, k ∈ ks ↔ k ∈ times df) ∧
      BacktestEngine.minutes df = ks.map fun k => (k, rowsAt df k) := by
  obtain ⟨ks, hsorted, hmem, heq⟩ := exists_sortedGroups (fun bar => bar.2.timestamp) (BacktestEngine.sortValues df)
  refine ⟨ks, hsorted, fun k => ?_, heq⟩
  simp [hmem, mem_sortValues, times]

/-- The market of the warm-up, and nothing else. -/
theorem warmed_eq (config : BacktestConfig) (eastern : EasternClock) (warmup : DataFrame) :
    ∃ market n, warmed config eastern warmup =
      { BacktestEngine.init config with market := market, warmupBarsProcessed := n } := by
  unfold warmed
  generalize BacktestEngine.sortValues warmup = bars
  induction bars using List.reverseRecOn with
  | nil => exact ⟨_, _, rfl⟩
  | append_singleton bars bar ih =>
    obtain ⟨market, n, heq⟩ := ih
    rw [List.foldl_concat, heq]
    exact ⟨_, _, rfl⟩

theorem keyed_warmed : Keyed (warmed config eastern warmup) := by
  obtain ⟨market, n, heq⟩ := warmed_eq config eastern warmup
  rw [heq]
  exact ⟨by simp [BacktestEngine.init], by simp [BacktestEngine.init, Table.get, Table.empty]⟩

namespace Preserved

variable {inv : Timestamp → Turn → Prop} (h : Preserved config eastern warmup df inv)

include h

theorem steps {t : Timestamp} (ht : t ∈ times df) {T T' : Turn} (hkeyed : Keyed T.engine)
    (hsteps : Steps config eastern t (BarAt df t) T T') (hinv : inv t T) : inv t T' ∧ Keyed T'.engine := by
  induction hsteps with
  | refl => exact ⟨hinv, hkeyed⟩
  | tail _ hmove ih => exact ⟨h.move t ht _ _ ih.2 hmove ih.1, hmove.keyed ih.2⟩

/-- One minute. -/
theorem minute {t : Timestamp} (ht : t ∈ times df) {e : BacktestEngine} {b : DataFrame}
    {d : List (Symbol × Timestamp)} (hkeyed : Keyed e) (hinv : inv t ⟨e, [], b, d, .bars⟩) (hfed : FedBefore df t b) :
    ∃ T, T.engine = e.processGroup config eastern indicators (t, rowsAt df t) ∧ Ended config eastern t T ∧
      Keyed T.engine ∧ inv t T ∧ ∀ bar ∈ df, bar.2.timestamp ≤ t → (bar.1.toUpper, bar.2) ∈ T.bars := by
  obtain ⟨T, hsteps, hended, hengine, hbars⟩ := steps_processGroup config eastern (BarAt df t) indicators (b := b)
    (d := d) (t, rowsAt df t)
    (fun bar hbar => by
      obtain ⟨hmem, htime⟩ := mem_rowsAt.1 hbar
      exact ⟨⟨bar, hmem, rfl, rfl, htime⟩, htime⟩) hkeyed
  obtain ⟨hinv', hkeyed'⟩ := h.steps ht hkeyed hsteps hinv
  refine ⟨T, hengine, hended, hkeyed', hinv', fun bar hbar hle => ?_⟩
  rw [hbars, List.mem_append]
  rcases hle.lt_or_eq with hlt | heq
  · exact .inl (hfed bar hbar hlt)
  · exact .inr (List.mem_map.2 ⟨bar, mem_rowsAt.2 ⟨hbar, heq⟩, rfl⟩)

variable (indicators) in
/-- The minutes up to the last of `ks`, where `ks` leaves no earlier one out. -/
theorem minutes (ks : List Timestamp) (hsorted : ks.Pairwise (· < ·)) (hks : ∀ k ∈ ks, k ∈ times df)
    (hdown : ∀ s ∈ times df, ∀ k ∈ ks, s ≤ k → s ∈ ks) (t : Timestamp) (hlast : ks.getLast? = some t) :
    ∃ T, T.engine = (ks.map fun k => (k, rowsAt df k)).foldl
        (fun e g => e.processGroup config eastern indicators g) (warmed config eastern warmup) ∧
      Ended config eastern t T ∧ Keyed T.engine ∧ inv t T ∧
      ∀ bar ∈ df, bar.2.timestamp ≤ t → (bar.1.toUpper, bar.2) ∈ T.bars := by
  induction ks using List.reverseRecOn generalizing t with
  | nil => simp at hlast
  | append_singleton ks k ih =>
    obtain rfl : k = t := by simpa using hlast
    obtain ⟨hsorted, -, hlt⟩ := List.pairwise_append.1 hsorted
    have hk : k ∈ times df := hks k (by simp)
    have hbefore : ∀ s ∈ times df, s < k → s ∈ ks := fun s hs hsk => by
      simpa [hsk.ne] using hdown s hs k (by simp) hsk.le
    simp only [List.map_append, List.map_singleton, List.foldl_concat]
    cases hl : ks.getLast? with
    | none =>
      obtain rfl : ks = [] := by simpa using hl
      have hfirst : ∀ s ∈ times df, k ≤ s := fun s hs => not_lt.1 fun hsk => absurd (hbefore s hs hsk) (by simp)
      exact h.minute hk keyed_warmed (h.init k hk hfirst) fun bar hbar hlt =>
        absurd hlt (not_lt.2 (hfirst _ (List.mem_map_of_mem hbar)))
    | some s =>
      have hs : s ∈ ks := List.mem_of_getLast? hl
      obtain ⟨⟨e, q, b, d, f⟩, hengine, hended, hkeyed, hinv, hfed⟩ := ih hsorted
        (fun j hj => hks j (by simp [hj]))
        (fun r hr j hj hle => hbefore r hr (hle.trans_lt (hlt j hj k (by simp)))) s hl
      obtain rfl : q = [] := hended.queue
      have hfed' : FedBefore df k b := fun bar hbar hlt => hfed bar hbar (by
        have hmem := hbefore _ (List.mem_map_of_mem hbar) hlt
        obtain ⟨ys, rfl⟩ : ∃ ys, ks = ys ++ [s] := List.getLast?_eq_some_iff.1 hl
        rcases List.mem_append.1 hmem with hmem | hmem
        · exact ((List.pairwise_append.1 hsorted).2.2 _ hmem s (by simp)).le
        · exact (List.mem_singleton.1 hmem).le)
      rw [← hengine]
      exact h.minute hk hkeyed (h.later s k hk (hlt s hs k (by simp)) _ hended hfed' hinv) hfed'

variable (indicators) in
/-- The whole replay. -/
theorem replay (hdf : df ≠ []) :
    ∃ t T, t ∈ times df ∧ (∀ s ∈ times df, s ≤ t) ∧ T.engine = BacktestEngine.replay config eastern indicators warmup df ∧
      Ended config eastern t T ∧ Keyed T.engine ∧ inv t T ∧ ∀ bar ∈ df, (bar.1.toUpper, bar.2) ∈ T.bars := by
  obtain ⟨ks, hsorted, hmem, heq⟩ := exists_minutes df
  have hne : ks ≠ [] := by
    obtain ⟨bar, hbar⟩ := List.exists_mem_of_ne_nil df hdf
    exact List.ne_nil_of_mem ((hmem _).2 (List.mem_map_of_mem hbar))
  obtain ⟨ys, t, rfl⟩ := List.eq_nil_or_concat' ks |>.resolve_left hne
  have hle : ∀ s ∈ times df, s ≤ t := fun s hs => by
    rcases List.mem_append.1 ((hmem s).2 hs) with hs | hs
    · exact ((List.pairwise_append.1 hsorted).2.2 s hs t (by simp)).le
    · exact (List.mem_singleton.1 hs).le
  obtain ⟨T, hengine, hended, hkeyed, hinv, hfed⟩ := h.minutes indicators _ hsorted
    (fun k hk => (hmem k).1 hk) (fun s hs _ _ _ => (hmem s).2 hs) t (by simp)
  refine ⟨t, T, (hmem t).1 (by simp), hle, ?_, hended, hkeyed, hinv, fun bar hbar => ?_⟩
  · rw [hengine, BacktestEngine.replay, heq]
    rfl
  · exact hfed bar hbar (hle _ (List.mem_map_of_mem hbar))

end Preserved

/-! ## The end of the data -/

/-- The engine without the position of `x`, which becomes a trade. -/
def closedAtEnd (e : BacktestEngine) (x : Symbol) (p : OpenPosition) (t : Timestamp) (price : ℚ) : BacktestEngine :=
  { e with
    simulator := e.simulator.drop x
    trades := e.trades ++ [p.close e.simulator.config t price .dataEnd none] }

theorem closeAtEnd_cases {e : BacktestEngine} {x : Symbol} (hx : x.toUpper = x) :
    (e.closeAtEnd x = e ∧
        (e.simulator.opened.get x = none ∨ e.market.lastClose x = none ∨ e.market.lastTimestamp x = none)) ∨
      ∃ p price t, e.simulator.opened.get x = some p ∧ e.market.lastClose x = some price ∧
        e.market.lastTimestamp x = some t ∧ e.closeAtEnd x = closedAtEnd e x p t price := by
  unfold BacktestEngine.closeAtEnd
  cases hclose : e.market.lastClose x with
  | none => exact .inl ⟨rfl, by simp⟩
  | some price =>
    cases htime : e.market.lastTimestamp x with
    | none => exact .inl ⟨rfl, by simp⟩
    | some t =>
      cases ho : e.simulator.opened.get x with
      | none =>
        refine .inl ⟨?_, by simp⟩
        simp [TradeSimulator.forceClose, TradeSimulator.close, TradeSimulator.getOpen_eq hx, ho]
      | some p =>
        refine .inr ⟨p, price, t, rfl, rfl, rfl, ?_⟩
        simp [TradeSimulator.forceClose, TradeSimulator.close_eq hx ho, closedAtEnd]

theorem Keyed.closedAtEnd {e : BacktestEngine} {x : Symbol} {p : OpenPosition} (h : Keyed e) (hx : x.toUpper = x)
    (t : Timestamp) (price : ℚ) : Keyed (closedAtEnd e x p t price) :=
  ⟨h.entry, h.drop hx⟩

/-- Positions with a last close are closed one by one. -/
theorem closeAtEnd_foldl {post : BacktestEngine → Prop}
    (hpost : ∀ e x p t price, Keyed e → post e → e.simulator.opened.get x = some p →
      e.market.lastClose x = some price → e.market.lastTimestamp x = some t → post (closedAtEnd e x p t price))
    {xs : List Symbol} (hxs : ∀ x ∈ xs, x.toUpper = x) {e : BacktestEngine} (hkeyed : Keyed e) (he : post e) :
    let e' := xs.foldl BacktestEngine.closeAtEnd e
    post e' ∧ e'.market = e.market ∧ ∀ y p, e'.simulator.opened.get y = some p →
      e.simulator.opened.get y = some p ∧
        (y ∈ xs → e.market.lastClose y = none ∨ e.market.lastTimestamp y = none) := by
  induction xs generalizing e with
  | nil => exact ⟨he, rfl, fun y p ho => ⟨ho, by simp⟩⟩
  | cons x xs ih =>
    have hx := hxs x List.mem_cons_self
    have hxs' : ∀ z ∈ xs, z.toUpper = z := fun z hz => hxs z (List.mem_cons_of_mem x hz)
    simp only [List.foldl_cons]
    rcases closeAtEnd_cases (e := e) hx with ⟨heq, hnone⟩ | ⟨p₀, price, t, ho₀, hclose, htime, heq⟩
    · obtain ⟨hend, hmarket, hopen⟩ := ih hxs' hkeyed he
      rw [heq]
      refine ⟨hend, hmarket, fun y p ho => ?_⟩
      obtain ⟨hget, hrest⟩ := hopen y p ho
      refine ⟨hget, fun hy => ?_⟩
      rcases List.mem_cons.1 hy with rfl | hy
      · exact hnone.resolve_left (by simp [hget])
      · exact hrest hy
    · obtain ⟨hend, hmarket, hopen⟩ := ih hxs' (hkeyed.closedAtEnd hx t price)
        (hpost e x p₀ t price hkeyed he ho₀ hclose htime)
      rw [heq]
      refine ⟨hend, hmarket, fun y p ho => ?_⟩
      obtain ⟨hget, hrest⟩ := hopen y p ho
      simp only [closedAtEnd, TradeSimulator.get_drop hx] at hget
      by_cases hyx : y = x
      · simp [hyx] at hget
      · rw [if_neg hyx] at hget
        exact ⟨hget, fun hy => hrest ((List.mem_cons.1 hy).resolve_left hyx)⟩

theorem finalizeAtDataEnd_rule (post : BacktestEngine → Prop)
    (hpost : ∀ e x p t price, Keyed e → post e → e.simulator.opened.get x = some p →
      e.market.lastClose x = some price → e.market.lastTimestamp x = some t → post (closedAtEnd e x p t price))
    {e : BacktestEngine} (hkeyed : Keyed e) (he : post e) :
    post e.finalizeAtDataEnd ∧ ∀ y p, e.finalizeAtDataEnd.simulator.opened.get y = some p →
      e.simulator.opened.get y = some p ∧ (e.market.lastClose y = none ∨ e.market.lastTimestamp y = none) := by
  obtain ⟨hend, -, hopen⟩ := closeAtEnd_foldl hpost hkeyed.openSymbols hkeyed he
  refine ⟨hend, fun y p ho => ?_⟩
  obtain ⟨hget, hnone⟩ := hopen y p ho
  exact ⟨hget, hnone (List.mem_map.2 ⟨p, Table.mem_of_get hget, Table.key_of_get hget⟩)⟩

/-! ## Runs -/

/-- A run that does not refuse its warm-up is a replay that is brought to its end, or had nothing to replay. -/
theorem run_cases {result : BacktestResult} {e : BacktestEngine}
    (hrun : run config eastern indicators warmup df = .ok (result, e)) :
    result.trades = e.trades ∧ result.rejections = e.rejections ∧ result.signalsGenerated = e.signalsGenerated ∧
      result.signalsPublished = e.signalsPublished ∧
      (df = [] ∧ e = .init config ∨
        df ≠ [] ∧ Earlier warmup df ∧
          e = (BacktestEngine.replay config eastern indicators warmup df).finalizeAtDataEnd) := by
  unfold run at hrun
  cases hmin : (df.map (·.2.timestamp)).min? with
  | none =>
    obtain rfl : df = [] := by simpa using hmin
    simp only [hmin, Except.ok.injEq, Prod.mk.injEq] at hrun
    obtain ⟨rfl, rfl⟩ := hrun
    exact ⟨rfl, rfl, rfl, rfl, .inl ⟨rfl, rfl⟩⟩
  | some minEval =>
    have hne : df ≠ [] := fun h => by simp [h] at hmin
    simp only [hmin] at hrun
    cases hlate : ((warmup.map (·.2.timestamp)).max?).filter (minEval ≤ ·) with
    | some late => simp [hlate] at hrun
    | none =>
      simp only [hlate, Except.ok.injEq, Prod.mk.injEq] at hrun
      obtain ⟨rfl, rfl⟩ := hrun
      refine ⟨rfl, rfl, rfl, rfl, .inr ⟨hne, fun w hw bar hbar => ?_, rfl⟩⟩
      cases hmax : (warmup.map (·.2.timestamp)).max? with
      | none => simp_all
      | some maxWarmup =>
        have hlt : maxWarmup < minEval := by simpa [hmax, Option.filter_eq_none_iff] using hlate
        calc w.2.timestamp ≤ maxWarmup := (List.max?_eq_some_iff.1 hmax).2 _ (List.mem_map_of_mem hw)
          _ < minEval := hlt
          _ ≤ bar.2.timestamp := (List.min?_eq_some_iff.1 hmin).2 _ (List.mem_map_of_mem hbar)

/-! ## A sample -/

def sampleConfig : BacktestConfig where
  quantConfig := ⟨100, 30, 100, false, 120, 100⟩
  strategy := sampleStrategy
  execution := ⟨5, 5, 2, .stopFirst⟩
  eodFlattenEnabled := true
  eodFlattenHourEt := 15
  eodFlattenMinuteEt := 55
  allowOverlappingTrades := false

/-- A bar that closes below 105 crosses upwards, one that closes above downwards. -/
def sampleSnapshot (bar : Bar) : IndicatorSnapshot where
  price := bar.close
  barTimestamp := bar.timestamp
  rsi := none
  rsiPrev := none
  macd := some (105 - bar.close)
  macdSignalLine := some 0
  macdPrev := some 0
  macdSignalLinePrev := some 0
  smaFast := none
  smaSlow := none
  smaFastPrev := none
  smaSlowPrev := none
  volume := bar.volume
  volumeSurgeRatio := none
  atr := some 5
  barTrueRange := some 5

def sampleIndicators : Indicators where
  computeIndicators bars _ := bars.bind fun bars => bars.getLast?.map sampleSnapshot
  regimeLegAtr _ _ := (none, none, false)

def sampleBar (d h m : ℕ) (openPrice high low close : ℚ) : Symbol × HistoricalRow :=
  ("ACME", ⟨(24 * d + h) * hour + m * minute, openPrice, high, low, close, 1000⟩)

def sampleWarmup : DataFrame := [sampleBar 1 10 0 100 110 90 100]

/-- One trade that is stopped out, one that reaches its target, and one for the end of the day. -/
def sampleBars : DataFrame :=
  [sampleBar 2 10 0 100 101 99 100, sampleBar 2 10 1 101 102 100 105, sampleBar 2 10 2 100 101 89 100,
    sampleBar 2 11 30 100 101 99 100, sampleBar 2 11 31 100 101 99 105, sampleBar 2 11 32 105 111 104 105,
    sampleBar 2 14 0 100 101 99 100, sampleBar 2 14 1 100 101 99 105, sampleBar 2 15 56 104 105 103 104]

/-- The run of the sample. -/
theorem run_sample :
    ∃ result e, run sampleConfig sampleClock sampleIndicators sampleWarmup sampleBars = .ok (result, e) ∧
      result.trades.map (·.exitReason) = [.stop, .target, .endOfSession] := by
  have h : ((run sampleConfig sampleClock sampleIndicators sampleWarmup sampleBars).toOption.map fun r =>
      r.1.trades.map (·.exitReason)) = some [.stop, .target, .endOfSession] := by decide +kernel
  cases hrun : run sampleConfig sampleClock sampleIndicators sampleWarmup sampleBars with
  | error err =>
    rw [hrun] at h
    exact absurd h (by simp [Except.toOption])
  | ok r =>
    rw [hrun] at h
    exact ⟨r.1, r.2, rfl, Option.some.inj h⟩

end TalonX.Backtest
