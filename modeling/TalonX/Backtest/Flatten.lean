import TalonX.Backtest.Trades

/-!
# The end of the day

- `Turn.Flat`: no position is older than a minute at which a day was flattened;
- `flat_later`: at the end of such a minute nothing is open;
- `flattened`: a trade never lasts from before the flatten of a day to after it, and none starts later on that day.
-/

set_option autoImplicit false

namespace TalonX.Backtest

open Quant Transact

/-- The minutes of a replay at which the day is flattened, if it has not been. -/
def FlattenMinute (config : BacktestConfig) (eastern : EasternClock) (df : DataFrame) (u : Timestamp) : Prop :=
  u ∈ times df ∧ BacktestEngine.pastFlattenTime config eastern u = true

/-- What was entered comes after the day of `u`. -/
def AfterDay (eastern : EasternClock) (u entry : Timestamp) : Prop := u < entry ∧ eastern.date u < eastern.date entry

structure Turn.Flat (config : BacktestConfig) (eastern : EasternClock) (df : DataFrame) (now : Timestamp) (t : Turn) :
    Prop where
  /-- A marked date is that of a minute that is over, or of this one when the day is being closed. -/
  dates : ∀ day ∈ t.engine.flattenedDates, ∃ u, FlattenMinute config eastern df u ∧ eastern.date u = day ∧
    (u < now ∨ t.phase = .close ∧ u = now)
  marked : ∀ u, FlattenMinute config eastern df u → u < now → eastern.date u ∈ t.engine.flattenedDates
  opened : ∀ x p, t.engine.simulator.opened.get x = some p → ∀ u, FlattenMinute config eastern df u → u < now →
    AfterDay eastern u p.entryTimestamp
  trades : ∀ trade ∈ t.engine.trades, trade.exitTimestamp ≤ now ∧ ∀ u, FlattenMinute config eastern df u → u < now →
    trade.exitTimestamp ≤ u ∨ AfterDay eastern u trade.entryTimestamp

section Flat

variable {config : BacktestConfig} {eastern : EasternClock} {indicators : Indicators} {warmup df : DataFrame}
  {now : Timestamp}

theorem Move.flat {t t' : Turn} (hmove : Move config eastern now (BarAt df now) t t') (hkeyed : Keyed t.engine)
    (hnow : now ∈ times df) (h : t.Flat config eastern df now) : t'.Flat config eastern df now := by
  have hdates := hmove.dates_cases
  refine ⟨fun day hday => ?_, fun u hu hlt => ?_, fun x p hp u hu hlt => ?_, fun trade ht => ?_⟩
  · rcases hdates with ⟨heq, hphase⟩ | ⟨heq, hphase, hpast⟩
    · obtain ⟨u, hu, hdate, hwhen⟩ := h.dates day (heq ▸ hday)
      exact ⟨u, hu, hdate, hwhen.imp_right fun hw => ⟨hphase hw.1, hw.2⟩⟩
    · rw [heq, List.mem_cons] at hday
      rcases hday with rfl | hday
      · exact ⟨now, ⟨hnow, hpast⟩, rfl, .inr ⟨hphase, rfl⟩⟩
      · obtain ⟨u, hu, hdate, hwhen⟩ := h.dates day hday
        exact ⟨u, hu, hdate, hwhen.imp_right fun hw => ⟨hphase, hw.2⟩⟩
  · rcases hdates with ⟨heq, -⟩ | ⟨heq, -⟩
    · exact heq ▸ h.marked u hu hlt
    · exact heq ▸ List.mem_cons_of_mem _ (h.marked u hu hlt)
  · rcases hmove.position_cases hkeyed hp with ⟨p₀, hp₀, rfl | ⟨row, -, rfl⟩⟩ | ⟨row, pending, fill, -, -, -, hdate, -, -, rfl⟩
    · exact h.opened x _ hp₀ u hu hlt
    · simpa using h.opened x p₀ hp₀ u hu hlt
    · -- the date of `u` is marked, and this one is not
      refine ⟨hlt, lt_of_le_of_ne (eastern.date_mono hlt.le) fun heq => hdate ?_⟩
      exact heq ▸ h.marked u hu hlt
  · rcases hmove.trade_cases ht with ht | ⟨x, p, price, reason, signal, hp, rfl⟩
    · exact h.trades trade ht
    · exact ⟨le_rfl, fun u hu hlt => .inr (h.opened x p hp u hu hlt)⟩

/-- At the end of a minute that flattens the day nothing is open. -/
theorem Turn.Flat.closed {t : Turn} (h : t.Flat config eastern df now) (hground : t.Grounded config warmup df now)
    (hended : Ended config eastern now t) (henabled : config.eodFlattenEnabled = true)
    (hpast : BacktestEngine.pastFlattenTime config eastern now = true) (x : Symbol) :
    t.engine.simulator.opened.get x = none := by
  by_contra hne
  obtain ⟨p, hp⟩ := Option.ne_none_iff_exists'.1 hne
  obtain ⟨hopen, hclose⟩ := hground.opened x p hp
  have hphase : t.phase ≠ .close := fun hphase => hclose (hended.closed hphase x p hp)
  obtain ⟨u, hu, hdate, hwhen⟩ := h.dates _ (hended.marked henabled hpast)
  have hlt : u < now := hwhen.resolve_right fun hw => hphase hw.1
  have hafter := (h.opened x p hp u hu hlt).2
  have hle := eastern.date_mono hopen.entered
  omega

/-- Until the end of the minute. -/
theorem Turn.Flat.later {t : Turn} (h : t.Flat config eastern df now) (hground : t.Grounded config warmup df now)
    (hended : Ended config eastern now t) (henabled : config.eodFlattenEnabled = true) {u : Timestamp}
    (hu : FlattenMinute config eastern df u) (hle : u ≤ now) :
    (∀ x p, t.engine.simulator.opened.get x = some p → AfterDay eastern u p.entryTimestamp) ∧
      ∀ trade ∈ t.engine.trades, trade.exitTimestamp ≤ u ∨ AfterDay eastern u trade.entryTimestamp := by
  rcases hle.lt_or_eq with hlt | rfl
  · exact ⟨fun x p hp => h.opened x p hp u hu hlt, fun trade ht => (h.trades trade ht).2 u hu hlt⟩
  · refine ⟨fun x p hp => ?_, fun trade ht => .inl (h.trades trade ht).1⟩
    simp [h.closed hground hended henabled hu.2 x] at hp

/-- A minute that is over is one that has been fed. -/
theorem le_of_fed {s t : Timestamp} {T : Turn} (hground : T.Grounded config warmup df s)
    (hfed : FedBefore df t T.bars) {u : Timestamp} (hu : u ∈ times df) (hlt : u < t) : u ≤ s := by
  obtain ⟨bar, hbar, rfl⟩ := List.mem_map.1 hu
  exact (hground.fed _ (hfed bar hbar hlt)).1

theorem preserved_flat (hearlier : Earlier warmup df) (henabled : config.eodFlattenEnabled = true) :
    Preserved config eastern warmup df fun now t => t.Grounded config warmup df now ∧ t.Flat config eastern df now := by
  have hground := preserved_grounded config eastern hearlier
  refine ⟨fun t ht hfirst => ⟨hground.init t ht hfirst, ?_⟩, fun t ht T T' hkeyed hmove h => ?_,
    fun s t ht hlt T hended hfed h => ?_⟩
  · obtain ⟨market, n, heq⟩ := warmed_eq config eastern warmup
    rw [heq]
    have hnone : ∀ u, FlattenMinute config eastern df u → ¬u < t := fun u hu => not_lt.2 (hfirst u hu.1)
    refine ⟨by simp [BacktestEngine.init], fun u hu hut => absurd hut (hnone u hu), ?_, by simp [BacktestEngine.init]⟩
    simp [BacktestEngine.init, Table.get, Table.empty]
  · exact ⟨hground.move t ht T T' hkeyed hmove h.1, hmove.flat hkeyed ht h.2⟩
  · have hpast : ∀ u, FlattenMinute config eastern df u → u < t → u ≤ s := fun u hu hut =>
      le_of_fed h.1 hfed hu.1 hut
    refine ⟨hground.later s t ht hlt T hended hfed h.1, fun day hday => ?_, fun u hu hut => ?_, fun x p hp u hu hut => ?_,
      fun trade htrade => ⟨(h.2.trades trade htrade).1.trans hlt.le, fun u hu hut => ?_⟩⟩
    · obtain ⟨u, hu, hdate, hwhen⟩ := h.2.dates day hday
      refine ⟨u, hu, hdate, .inl ?_⟩
      rcases hwhen with hus | ⟨-, rfl⟩
      · exact hus.trans hlt
      · exact hlt
    · rcases (hpast u hu hut).lt_or_eq with hus | rfl
      · exact h.2.marked u hu hus
      · exact hended.marked henabled hu.2
    · exact (h.2.later h.1 hended henabled hu (hpast u hu hut)).1 x p hp
    · exact (h.2.later h.1 hended henabled hu (hpast u hu hut)).2 trade htrade

/-- With the flatten enabled, a trade that a flatten minute finds open ends there at the latest, and no trade starts on the
rest of that day. -/
theorem flattened {result : BacktestResult} {e : BacktestEngine} (henabled : config.eodFlattenEnabled = true)
    (hrun : run config eastern indicators warmup df = .ok (result, e)) :
    ∀ trade ∈ result.trades, ∀ u ∈ times df, BacktestEngine.pastFlattenTime config eastern u = true →
      trade.exitTimestamp ≤ u ∨ u < trade.entryTimestamp ∧ eastern.date u < eastern.date trade.entryTimestamp := by
  obtain ⟨htrades, -, -, -, hcases⟩ := run_cases hrun
  rw [htrades]
  rcases hcases with ⟨-, rfl⟩ | ⟨hdf, hearlier, rfl⟩
  · simp [BacktestEngine.init]
  obtain ⟨now, ⟨e, q, b, d, f⟩, -, hlast, rfl, hended, hkeyed, ⟨hground, hflat⟩, -⟩ :=
    (preserved_flat hearlier henabled).replay indicators hdf
  have hlater := fun u (hu : FlattenMinute config eastern df u) =>
    hflat.later hground hended henabled hu (hlast u hu.1)
  let post (e : BacktestEngine) : Prop := ∀ u, FlattenMinute config eastern df u →
    (∀ x p, e.simulator.opened.get x = some p → AfterDay eastern u p.entryTimestamp) ∧
      ∀ trade ∈ e.trades, trade.exitTimestamp ≤ u ∨ AfterDay eastern u trade.entryTimestamp
  have hclose : ∀ e x p t price, Keyed e → post e → e.simulator.opened.get x = some p →
      e.market.lastClose x = some price → e.market.lastTimestamp x = some t → post (closedAtEnd e x p t price) := by
    intro e x p t price hkeyed h ho _ _ u hu
    refine ⟨fun y p' hp' => ?_, fun trade htrade => ?_⟩
    · simp only [closedAtEnd, TradeSimulator.get_drop (hkeyed.opened x p ho)] at hp'
      by_cases hy : y = x
      · simp [hy] at hp'
      · rw [if_neg hy] at hp'
        exact (h u hu).1 y p' hp'
    · rcases List.mem_append.1 htrade with htrade | htrade
      · exact (h u hu).2 trade htrade
      · rw [List.mem_singleton.1 htrade]
        exact .inr ((h u hu).1 x p ho)
  obtain ⟨hend, -⟩ := finalizeAtDataEnd_rule post hclose hkeyed hlater
  exact fun trade htrade u hu hpast => (hend u ⟨hu, hpast⟩).2 trade htrade

theorem flattened_sample :
    ∃ result e, run sampleConfig sampleClock sampleIndicators sampleWarmup sampleBars = .ok (result, e) ∧
      result.trades ≠ [] ∧
      ∀ trade ∈ result.trades, ∀ u ∈ times sampleBars,
        BacktestEngine.pastFlattenTime sampleConfig sampleClock u = true → trade.exitTimestamp ≤ u ∨
          u < trade.entryTimestamp ∧ sampleClock.date u < sampleClock.date trade.entryTimestamp := by
  obtain ⟨result, e, hrun, htrades⟩ := run_sample
  exact ⟨result, e, hrun, by rintro h; simp [h] at htrades, flattened rfl hrun⟩

end Flat

end TalonX.Backtest
