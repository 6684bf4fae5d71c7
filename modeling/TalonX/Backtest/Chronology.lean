import TalonX.Backtest.Trades

/-!
# The order of events in a replay

- `Publication.DueAt`: a long that is to be entered at a bar, the first one after its publication;
- `Trade.Chronicled`: a trade is entered when it is due, and every bar until it leaves has spared it;
- `Turn.Chronicled`: the invariant; `chronology`: the trades of a run.
-/

set_option autoImplicit false

namespace TalonX.Backtest

open Quant Transact

/-- No bar of `x` is between `s` and `t`. -/
def NextBar (bars : DataFrame) (x : Symbol) (s t : Timestamp) : Prop :=
  s < t ∧ ∀ bar ∈ bars, bar.1 = x → bar.2.timestamp ≤ s ∨ t ≤ bar.2.timestamp

structure Publication.DueAt (bars : DataFrame) (x : Symbol) (t : Timestamp) (pub : Publication) : Prop where
  symbol : pub.signal.ticker.toUpper = x
  direction : pub.signal.direction = .bullish
  next : NextBar bars x pub.timestamp t

/-- The bar reaches neither the stop nor the target. -/
def Between (stopPrice targetPrice : Option ℚ) (row : HistoricalRow) : Prop :=
  (∀ stop ∈ stopPrice, stop < row.low) ∧ ∀ target ∈ targetPrice, row.high < target

/-- An entry at `t`, which published signals with this ratio have announced. -/
def EntryAt (bars : DataFrame) (published : List Publication) (x : Symbol) (t : Timestamp) (ratio : Option ℚ) : Prop :=
  ∃ pub ∈ published, pub.DueAt bars x t ∧ pub.signal.riskRewardRatio = ratio

/-- Of the bars from the entry to before the exit none reaches the stop or the target, unless it is one at which another
entry of the symbol was due: such a bar is not compared with the position. -/
structure Trade.Chronicled (bars : DataFrame) (published : List Publication) (trade : Trade) : Prop where
  entered : EntryAt bars published trade.symbol trade.entryTimestamp trade.screeningRr
  watched : ∀ bar ∈ bars, bar.1 = trade.symbol → trade.entryTimestamp ≤ bar.2.timestamp →
    bar.2.timestamp < trade.exitTimestamp → Between trade.stopPrice trade.targetPrice bar.2 ∨
      ∃ pub ∈ published, pub.DueAt bars trade.symbol bar.2.timestamp

/-- A trade in another symbol, or one that starts when `a` has ended. -/
def Trade.Before (a b : Trade) : Prop := a.symbol = b.symbol → a.exitTimestamp ≤ b.entryTimestamp

/-- What is known of an open position. -/
structure OpenPosition.Chronicled (t : Turn) (x : Symbol) (p : OpenPosition) : Prop where
  entered : EntryAt t.bars t.engine.published x p.entryTimestamp p.signal.riskRewardRatio
  watched : ∀ bar ∈ t.bars, bar.1 = x → p.entryTimestamp ≤ bar.2.timestamp →
    Between p.stopPrice p.targetPrice bar.2 ∨ (x, bar.2.timestamp) ∈ t.due
  after : ∀ trade ∈ t.engine.trades, trade.symbol = x → trade.exitTimestamp ≤ p.entryTimestamp

structure Turn.Chronicled (now : Timestamp) (t : Turn) : Prop where
  published : ∀ pub ∈ t.engine.published, pub.timestamp ≤ now ∧ (t.phase = .bars → pub.timestamp < now)
  pending : ∀ x pending, t.engine.pendingEntry x = some pending →
    ∃ pub ∈ t.engine.published, pub.signal = pending.signal ∧ ∀ bar ∈ t.bars, bar.1 = x → bar.2.timestamp ≤ pub.timestamp
  due : ∀ y ∈ t.due, y.2 ≤ now ∧ ∃ pub ∈ t.engine.published, pub.DueAt t.bars y.1 y.2
  opened : ∀ x p, t.engine.simulator.opened.get x = some p → p.Chronicled t x
  trades : ∀ trade ∈ t.engine.trades, trade.exitTimestamp ≤ now ∧ trade.Chronicled t.bars t.engine.published
  apart : t.engine.trades.Pairwise Trade.Before

/-! ## Growing histories -/

section Growing

variable {bars bars' : DataFrame} {published published' : List Publication} {x : Symbol} {now t : Timestamp}
  {pub : Publication} {ratio : Option ℚ}

/-- What comes later comes at `now`. -/
structure Grown (now : Timestamp) (bars bars' : DataFrame) (published published' : List Publication) : Prop where
  bars : ∀ bar ∈ bars', bar ∈ bars ∨ bar.2.timestamp = now
  published : ∀ pub ∈ published, pub ∈ published'

theorem Publication.DueAt.grown (h : pub.DueAt bars x t) (hgrown : Grown now bars bars' published published')
    (ht : t ≤ now) : pub.DueAt bars' x t :=
  { h with next := ⟨h.next.1, fun bar hbar hx => by
      rcases hgrown.bars bar hbar with hbar | htime
      · exact h.next.2 bar hbar hx
      · exact .inr (htime ▸ ht)⟩ }

theorem EntryAt.grown (h : EntryAt bars published x t ratio) (hgrown : Grown now bars bars' published published')
    (ht : t ≤ now) : EntryAt bars' published' x t ratio := by
  obtain ⟨pub, hpub, hdue, hratio⟩ := h
  exact ⟨pub, hgrown.published pub hpub, hdue.grown hgrown ht, hratio⟩

theorem Trade.Chronicled.grown {trade : Trade} (h : trade.Chronicled bars published)
    (hgrown : Grown now bars bars' published published') (hentry : trade.entryTimestamp ≤ now)
    (hexit : trade.exitTimestamp ≤ now) : trade.Chronicled bars' published' := by
  refine ⟨h.entered.grown hgrown hentry, fun bar hbar hx hle hlt => ?_⟩
  rcases hgrown.bars bar hbar with hbar | htime
  · refine (h.watched bar hbar hx hle hlt).imp_right fun ⟨pub, hpub, hdue⟩ => ?_
    exact ⟨pub, hgrown.published pub hpub, hdue.grown hgrown (hlt.le.trans hexit)⟩
  · exact absurd (hlt.trans_le hexit) (htime ▸ lt_irrefl _)

end Growing

/-! ## Moves -/

section Moves

variable {config : BacktestConfig} {eastern : EasternClock} {indicators : Indicators} {warmup df : DataFrame}
  {now : Timestamp} {t t' : Turn} {x : Symbol} {p : OpenPosition}

theorem between_of_untouched (hlong : p.Long) {row : HistoricalRow} (h : Untouched config.execution row p) :
    Between p.stopPrice p.targetPrice row := by
  obtain ⟨stop, target, hstop, htarget, -⟩ := hlong.bracket
  have hnone := h stop hstop target htarget
  rw [hlong.direction] at hnone
  unfold checkBarForExit at hnone
  by_cases ht : target ≤ row.high <;> by_cases hs : row.low ≤ stop <;> simp [ht, hs] at hnone
  refine ⟨fun s hs' => ?_, fun u hu => ?_⟩
  · obtain rfl : stop = s := Option.some.inj (hstop.symm.trans hs')
    exact not_le.1 hs
  · obtain rfl : target = u := Option.some.inj (htarget.symm.trans hu)
    exact not_le.1 ht

theorem Move.grown (hmove : Move config eastern now (BarAt df now) t t') :
    Grown now t.bars t'.bars t.engine.published t'.engine.published := by
  refine ⟨fun bar hbar => ?_, fun pub hpub => ?_⟩
  · rcases hmove.bars_cases with heq | ⟨x, row, ⟨-, -, -, -, htime⟩, heq, -⟩
    · exact .inl (heq ▸ hbar)
    · rw [heq, List.mem_append, List.mem_singleton] at hbar
      exact hbar.imp_right fun h => by rw [h, htime]
  · rcases hmove.publish_cases with ⟨heq, -⟩ | ⟨c, signal, -, -, -, heq, -⟩
    · exact heq ▸ hpub
    · exact heq ▸ List.mem_append_left _ hpub

/-- What is pending is due at the next bar. -/
theorem Turn.Chronicled.dueAt (h : t.Chronicled now) (hground : t.Grounded config warmup df now)
    (hkeyed : Keyed t.engine) (hphase : t.phase = .bars) {pending : PendingEntry}
    (hp : t.engine.pendingEntry x = some pending) :
    ∃ pub ∈ t.engine.published, pub.signal = pending.signal ∧ pub.DueAt t.bars x now := by
  obtain ⟨pub, hpub, hsignal, hbars⟩ := h.pending x pending hp
  refine ⟨pub, hpub, hsignal, ?_, ?_, (h.published pub hpub).2 hphase, fun bar hbar hx => .inl (hbars bar hbar hx)⟩
  · rw [hsignal]
    exact hkeyed.entry x pending hp
  · rw [hsignal]
    exact (hground.entry x pending hp).1

/-- A position keeps its history, and a fill starts one. -/
theorem Turn.Chronicled.position_move (h : t.Chronicled now) (hmove : Move config eastern now (BarAt df now) t t')
    (hground : t.Grounded config warmup df now) (hkeyed : Keyed t.engine)
    (hp : t'.engine.simulator.opened.get x = some p) :
    EntryAt t.bars t.engine.published x p.entryTimestamp p.signal.riskRewardRatio ∧ p.entryTimestamp ≤ now ∧
      (∀ bar ∈ t.bars, bar.1 = x → p.entryTimestamp ≤ bar.2.timestamp →
        Between p.stopPrice p.targetPrice bar.2 ∨ (x, bar.2.timestamp) ∈ t.due) ∧
      ∀ trade ∈ t.engine.trades, trade.symbol = x → trade.exitTimestamp ≤ p.entryTimestamp := by
  rcases hmove.position_cases hkeyed hp with
    ⟨p₀, hp₀, rfl | ⟨row, -, rfl⟩⟩ | ⟨row, pending, fill, -, hpending, hphase, -, -, hfill, rfl⟩
  · have hold := h.opened x p hp₀
    exact ⟨hold.entered, (hground.opened x p hp₀).1.entered, hold.watched, hold.after⟩
  · have hold := h.opened x p₀ hp₀
    simp only [OpenPosition.entryTimestamp_updateExcursion, OpenPosition.signal_updateExcursion,
      OpenPosition.stopPrice_updateExcursion, OpenPosition.targetPrice_updateExcursion]
    exact ⟨hold.entered, (hground.opened x p₀ hp₀).1.entered, hold.watched, hold.after⟩
  · obtain ⟨pub, hpub, hsignal, hdue⟩ := h.dueAt hground hkeyed hphase hpending
    refine ⟨⟨pub, hpub, hdue, ?_⟩, le_rfl, fun bar hbar hx hle => ?_, fun trade htrade _ => (h.trades trade htrade).1⟩
    · rw [hsignal]
      exact hfill.screening.symm
    · -- every bar of the symbol so far is older than the publication
      have hlt : bar.2.timestamp < now := by
        rcases hdue.next.2 bar hbar hx with hold | hnow
        · exact hold.trans_lt hdue.next.1
        · obtain ⟨pub', hpub', hsignal', hbars⟩ := h.pending x pending hpending
          exact (hbars bar hbar hx).trans_lt ((h.published pub' hpub').2 hphase)
      exact absurd hle (not_le.2 hlt)

theorem Move.chronicled (hmove : Move config eastern now (BarAt df now) t t')
    (hground : t.Grounded config warmup df now) (hkeyed : Keyed t.engine) (h : t.Chronicled now) :
    t'.Chronicled now := by
  have hgrown := hmove.grown
  have hdue : ∀ y ∈ t'.due, y.2 ≤ now ∧ ∃ pub ∈ t'.engine.published, pub.DueAt t'.bars y.1 y.2 := by
    intro y hy
    have hold : y ∈ t.due ∨ ∃ pending, t.engine.pendingEntry y.1 = some pending ∧ t.phase = .bars ∧ y.2 = now := by
      rcases hmove.due_cases with heq | ⟨x, pending, hp, hphase, heq⟩
      · exact .inl (heq ▸ hy)
      · rw [heq, List.mem_append, List.mem_singleton] at hy
        exact hy.imp_right fun hy => ⟨pending, by rw [hy, hp], hphase, by rw [hy]⟩
    rcases hold with hy | ⟨pending, hp, hphase, htime⟩
    · obtain ⟨hle, pub, hpub, hdue⟩ := h.due y hy
      exact ⟨hle, pub, hgrown.published pub hpub, hdue.grown hgrown hle⟩
    · obtain ⟨pub, hpub, -, hdue⟩ := h.dueAt hground hkeyed hphase hp
      rw [htime]
      exact ⟨le_rfl, pub, hgrown.published pub hpub, hdue.grown hgrown le_rfl⟩
  have hwatched : ∀ x p, t.engine.simulator.opened.get x = some p → ∀ bar ∈ t.bars, bar.1 = x →
      p.entryTimestamp ≤ bar.2.timestamp → Between p.stopPrice p.targetPrice bar.2 ∨
        ∃ pub ∈ t.engine.published, pub.DueAt t.bars x bar.2.timestamp := fun x p hp bar hbar hx hle =>
    ((h.opened x p hp).watched bar hbar hx hle).imp_right fun hd => (h.due _ hd).2
  have hdueGrown : ∀ y ∈ t.due, y ∈ t'.due := fun y hy => by
    rcases hmove.due_cases with heq | ⟨x, pending, -, -, heq⟩
    · exact heq ▸ hy
    · exact heq ▸ List.mem_append_left _ hy
  refine ⟨fun pub hpub => ⟨?_, fun hphase => ?_⟩, fun x pending hp => ?_, hdue, fun x p hp => ?_, fun trade htrade => ?_, ?_⟩
  · rcases hmove.publish_cases with ⟨heq, -⟩ | ⟨c, signal, -, -, -, heq, -⟩
    · exact (h.published pub (heq ▸ hpub)).1
    · rw [heq, List.mem_append, List.mem_singleton] at hpub
      exact hpub.elim (fun hpub => (h.published pub hpub).1) fun hpub => hpub ▸ le_rfl
  · obtain ⟨hphase', heq⟩ := hmove.phase_bars hphase
    exact (h.published pub (heq ▸ hpub)).2 hphase'
  · rcases hmove.pending_cases hp with hp' | ⟨hbars, hpub⟩
    · obtain ⟨pub, hpub, hsignal, hold⟩ := h.pending x pending hp'
      refine ⟨pub, hgrown.published pub hpub, hsignal, fun bar hbar hx => ?_⟩
      rcases hmove.bars_cases with heq | ⟨y, row, -, heq, hnone, -⟩
      · exact hold bar (heq ▸ hbar) hx
      · rw [heq, List.mem_append, List.mem_singleton] at hbar
        refine hbar.elim (fun hbar => hold bar hbar hx) fun hbar => ?_
        -- a bar of `x` is not fed while its entry is pending
        have hxy : x = y := by rw [← hx, hbar]
        rw [hxy, hnone] at hp'
        exact absurd hp' (by simp)
    · refine ⟨_, hpub, rfl, fun bar hbar _ => ?_⟩
      exact (hground.fed bar (hbars ▸ hbar)).1
  · obtain ⟨hentered, hle, hold, hafter⟩ := h.position_move hmove hground hkeyed hp
    refine ⟨hentered.grown hgrown hle, fun bar hbar hx hentry => ?_, fun trade htrade hsymbol => ?_⟩
    · rcases hmove.bars_cases with heq | ⟨y, row, hrow, heq, -, -, hsim, hdues, hspared⟩
      · exact (hold bar (heq ▸ hbar) hx hentry).imp_right (hdueGrown _)
      · rw [heq, List.mem_append, List.mem_singleton] at hbar
        rcases hbar with hbar | rfl
        · exact (hold bar hbar hx hentry).imp_right (hdueGrown _)
        · obtain rfl : y = x := hx
          obtain ⟨-, -, -, -, htime⟩ := hrow
          rw [hsim] at hp
          dsimp only
          rw [htime, hdues]
          refine (hspared p hp).imp_left fun hun => ?_
          rw [hground.execution] at hun
          exact between_of_untouched (hground.opened y p hp).1.toLong hun
    · rcases hmove.leave_cases with ⟨heq, -⟩ | ⟨y, p₀, price, reason, signal, ho, hsim, heq, -⟩
      · exact hafter trade (heq ▸ htrade) hsymbol
      · rw [heq, List.mem_append, List.mem_singleton] at htrade
        refine htrade.elim (fun htrade => hafter trade htrade hsymbol) fun htrade => ?_
        -- nothing is open where a position has just left
        have hxy : x = y := by
          rw [← hsymbol, htrade]
          exact show p₀.symbol = y from Table.key_of_get ho
        rw [hsim, TradeSimulator.get_drop (hkeyed.opened y p₀ ho), if_pos hxy] at hp
        exact absurd hp (by simp)
  · rcases hmove.trade_cases htrade with htrade | ⟨y, p, price, reason, signal, ho, rfl⟩
    · obtain ⟨hexit, hold⟩ := h.trades trade htrade
      exact ⟨hexit, hold.grown hgrown ((hground.trades trade htrade).chronology.trans hexit) hexit⟩
    · obtain rfl := Table.key_of_get ho
      have hopen := h.opened _ p ho
      refine ⟨le_rfl, Trade.Chronicled.grown ⟨hopen.entered, fun bar hbar hx hle hlt => ?_⟩ hgrown
        (hground.opened _ p ho).1.entered le_rfl⟩
      exact hwatched _ p ho bar hbar hx hle
  · rcases hmove.leave_cases with ⟨heq, -⟩ | ⟨y, p, price, reason, signal, ho, -, heq, -⟩
    · exact heq ▸ h.apart
    · rw [heq, List.pairwise_append]
      refine ⟨h.apart, List.pairwise_singleton .., fun a ha b hb hsymbol => ?_⟩
      obtain rfl := List.mem_singleton.1 hb
      exact (h.opened y p ho).after a ha (hsymbol.trans (show p.symbol = y from Table.key_of_get ho))

/-! ## Runs -/

theorem preserved_chronicled (hearlier : Earlier warmup df) :
    Preserved config eastern warmup df fun now t => t.Grounded config warmup df now ∧ t.Chronicled now := by
  have hground := preserved_grounded config eastern hearlier
  refine ⟨fun t ht hfirst => ⟨hground.init t ht hfirst, ?_⟩, fun t ht T T' hkeyed hmove h => ?_,
    fun s t ht hlt T hended hfed h => ?_⟩
  · obtain ⟨market, n, heq⟩ := warmed_eq config eastern warmup
    rw [heq]
    refine ⟨by simp [BacktestEngine.init], by simp [BacktestEngine.init], by simp, ?_, by simp [BacktestEngine.init],
      by simp [BacktestEngine.init]⟩
    simp [BacktestEngine.init, Table.get, Table.empty]
  · exact ⟨hground.move t ht T T' hkeyed hmove h.1, hmove.chronicled h.1 hkeyed h.2⟩
  · exact ⟨hground.later s t ht hlt T hended hfed h.1,
      fun pub hpub => ⟨(h.2.published pub hpub).1.trans hlt.le, fun _ => (h.2.published pub hpub).1.trans_lt hlt⟩,
      h.2.pending, fun y hy => ⟨(h.2.due y hy).1.trans hlt.le, (h.2.due y hy).2⟩,
      fun x p hp => ⟨(h.2.opened x p hp).entered, (h.2.opened x p hp).watched, (h.2.opened x p hp).after⟩,
      fun trade htrade => ⟨(h.2.trades trade htrade).1.trans hlt.le, (h.2.trades trade htrade).2⟩, h.2.apart⟩

theorem Turn.Chronicled.closedAtEnd (h : t.Chronicled now) (hground : t.Grounded config warmup df now)
    (hkeyed : Keyed t.engine) {time : Timestamp} {price : ℚ} (ho : t.engine.simulator.opened.get x = some p)
    (hclose : t.engine.market.lastClose x = some price) (htime : t.engine.market.lastTimestamp x = some time) :
    Turn.Chronicled now { t with engine := closedAtEnd t.engine x p time price } := by
  have hopen := h.opened x p ho
  have hx := hkeyed.opened x p ho
  obtain rfl := Table.key_of_get ho
  have hlast : time ≤ now := by
    obtain ⟨row, s, hs, hs', -⟩ := hground.market.close _ price hclose
    exact Option.some.inj (htime.symm.trans hs') ▸ hs
  have hdrop : ∀ y p', (t.engine.simulator.drop p.symbol).opened.get y = some p' →
      y ≠ p.symbol ∧ t.engine.simulator.opened.get y = some p' := fun y p' hp' => by
    rw [TradeSimulator.get_drop hx] at hp'
    by_cases hy : y = p.symbol
    · simp [hy] at hp'
    · exact ⟨hy, by rwa [if_neg hy] at hp'⟩
  refine ⟨h.published, h.pending, h.due, fun y p' hp' => ?_, fun trade htrade => ?_, ?_⟩
  · obtain ⟨hy, hget⟩ := hdrop y p' hp'
    have hold := h.opened y p' hget
    refine ⟨hold.entered, hold.watched, fun trade htrade hsymbol => ?_⟩
    refine (List.mem_append.1 htrade).elim (fun htrade => hold.after trade htrade hsymbol) fun htrade => ?_
    rw [List.mem_singleton.1 htrade] at hsymbol
    exact absurd hsymbol.symm hy
  · rcases List.mem_append.1 htrade with htrade | htrade
    · exact h.trades trade htrade
    · obtain rfl := List.mem_singleton.1 htrade
      refine ⟨hlast, hopen.entered, fun bar hbar hbx hle hlt => ?_⟩
      exact (hopen.watched bar hbar hbx hle).imp_right fun hd => (h.due (p.symbol, bar.2.timestamp) hd).2
  · refine List.pairwise_append.2 ⟨h.apart, List.pairwise_singleton .., fun a ha b hb hsymbol => ?_⟩
    obtain rfl := List.mem_singleton.1 hb
    exact hopen.after a ha hsymbol

theorem Trade.Chronicled.of_subset {bars bars' : DataFrame} {published : List Publication} {trade : Trade}
    (h : trade.Chronicled bars published) (hbars : ∀ bar ∈ bars', bar ∈ bars) : trade.Chronicled bars' published := by
  have hdue : ∀ {x t} {pub : Publication}, pub.DueAt bars x t → pub.DueAt bars' x t := fun hdue =>
    { hdue with next := ⟨hdue.next.1, fun bar hbar => hdue.next.2 bar (hbars bar hbar)⟩ }
  obtain ⟨pub, hpub, hd, hratio⟩ := h.entered
  refine ⟨⟨pub, hpub, hdue hd, hratio⟩, fun bar hbar hx hle hlt => ?_⟩
  exact (h.watched bar (hbars bar hbar) hx hle hlt).imp_right fun ⟨pub, hpub, hd⟩ => ⟨pub, hpub, hdue hd⟩

/-- The trades of a symbol follow one another. Each is entered at the first bar after a publication, and until it leaves no
bar of its symbol reaches its stop or its target, unless another entry was due at that bar. -/
theorem chronology {result : BacktestResult} {e : BacktestEngine}
    (hrun : run config eastern indicators warmup df = .ok (result, e)) :
    result.trades.Pairwise Trade.Before ∧
      ∀ trade ∈ result.trades, trade.Chronicled (upperBars df) e.published := by
  obtain ⟨htrades, -, -, -, hcases⟩ := run_cases hrun
  rw [htrades]
  rcases hcases with ⟨-, rfl⟩ | ⟨hdf, hearlier, rfl⟩
  · simp [BacktestEngine.init]
  obtain ⟨now, ⟨e, q, b, d, f⟩, -, -, rfl, -, hkeyed, ⟨hground, hchron⟩, hfed⟩ :=
    (preserved_chronicled hearlier).replay indicators hdf
  obtain ⟨⟨-, hend⟩, -⟩ := finalizeAtDataEnd_rule
    (fun e => Turn.Grounded config warmup df now ⟨e, q, b, d, f⟩ ∧ Turn.Chronicled now ⟨e, q, b, d, f⟩)
    (fun e x p s price hkeyed h ho hclose htime => ⟨h.1.closedAtEnd hfed hkeyed ho hclose htime,
      h.2.closedAtEnd h.1 hkeyed ho hclose htime⟩) hkeyed ⟨hground, hchron⟩
  refine ⟨hend.apart, fun trade htrade => (hend.trades trade htrade).2.of_subset fun bar hbar => ?_⟩
  obtain ⟨row, hrow, rfl⟩ := List.mem_map.1 hbar
  exact hfed row hrow

theorem chronology_sample :
    ∃ result e, run sampleConfig sampleClock sampleIndicators sampleWarmup sampleBars = .ok (result, e) ∧
      result.trades ≠ [] ∧
      result.trades.Pairwise Trade.Before ∧
      ∀ trade ∈ result.trades, trade.Chronicled (upperBars sampleBars) e.published := by
  obtain ⟨result, e, hrun, htrades⟩ := run_sample
  exact ⟨result, e, hrun, by rintro h; simp [h] at htrades, chronology hrun⟩

end Moves

end TalonX.Backtest
