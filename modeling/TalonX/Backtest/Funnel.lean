import TalonX.Backtest.Replays

/-!
# What becomes of a signal

- `Stage`: where in the life of a signal a rejection stands; `rejectedAt`: how many it counts;
- `Turn.Funnelled`: no signal is counted twice, from its generation to its trade; `funnel`: it is so in a run.
-/

set_option autoImplicit false

namespace TalonX.Backtest

open Quant Transact

/-- A bar may be rejected before there are signals, a candidate until it is published, then its entry or its exit. -/
inductive Stage
  | bar
  | candidate
  | entry
  | exit
  deriving DecidableEq

def stageOf : Reason → Stage
  | .lowVolatility | .lowVolatilityRegime => .bar
  | .postEodFlattenNoNewEntry | .geometryInvalidatedAtFill => .entry
  | .noActivePosition => .exit
  | _ => .candidate

theorem stageOf_common {reason : Reason} (h : CommonReason reason) : stageOf reason = .candidate := by
  cases h <;> rfl

theorem stageOf_throttle {reason : Reason} (h : ThrottleReason reason) : stageOf reason = .candidate := by
  cases h <;> rfl

/-- The signals of `x` that have been rejected at a stage. -/
def rejectedAt (x : Symbol) (stage : Stage) (rs : List RejectionRecord) : ℕ :=
  ((rs.filter fun r => r.ticker = x ∧ stageOf r.reason = stage).map (·.count)).sum

section Counting

variable {x y : Symbol} {stage : Stage} {reason : Reason} {rs rs' : List RejectionRecord} {now : Timestamp} {n : ℕ}

@[simp] theorem rejectedAt_nil : rejectedAt x stage [] = 0 := rfl

@[simp] theorem rejectedAt_append : rejectedAt x stage (rs ++ rs') = rejectedAt x stage rs + rejectedAt x stage rs' := by
  simp [rejectedAt]

@[simp] theorem rejectedAt_singleton :
    rejectedAt x stage [⟨y, reason, n, now⟩] = if y = x ∧ stageOf reason = stage then n else 0 := by
  unfold rejectedAt
  by_cases h : y = x ∧ stageOf reason = stage <;> simp [h]

variable (x y stage now) in
/-- The records of one bar. -/
theorem rejectedAt_map_le (rejected : List (Reason × ℕ)) :
    rejectedAt x stage (rejected.map fun r => ⟨y, r.1, r.2, now⟩) ≤ (rejected.map (·.2)).sum := by
  induction rejected with
  | nil => simp
  | cons r rejected ih =>
    rw [List.map_cons, ← List.singleton_append, rejectedAt_append, rejectedAt_singleton, List.map_cons, List.sum_cons]
    split_ifs <;> omega

theorem rejectedAt_map_eq_zero {rejected : List (Reason × ℕ)} (h : ∀ r ∈ rejected, y ≠ x ∨ stageOf r.1 ≠ stage) :
    rejectedAt x stage (rejected.map fun r => ⟨y, r.1, r.2, now⟩) = 0 := by
  unfold rejectedAt
  rw [List.filter_eq_nil_iff.2 fun r hr => ?_]
  · rfl
  · obtain ⟨a, ha, rfl⟩ := List.mem_map.1 hr
    rcases h a ha with h | h <;> simp [h]

end Counting

/-- How many there are of one, at most one. -/
def held {α : Type} (o : Option α) : ℕ := if o.isSome then 1 else 0

@[simp] theorem held_none {α : Type} : held (none : Option α) = 0 := rfl

@[simp] theorem held_some {α : Type} (a : α) : held (some a) = 1 := rfl

theorem held_le {α : Type} (o : Option α) : held o ≤ 1 := by
  cases o <;> simp

structure Turn.Funnelled (x : Symbol) (t : Turn) : Prop where
  candidates : (t.engine.published.countP fun pub => pub.signal.ticker.toUpper = x) +
    rejectedAt x .candidate t.engine.rejections + (t.queue.countP fun c => c.ticker.toUpper = x) ≤
      t.engine.signalLog.countP (·.ticker = x)
  entries : t.engine.trades.countP (·.symbol = x) + held (t.engine.simulator.opened.get x) +
    held (t.engine.pendingEntry x) + rejectedAt x .entry t.engine.rejections ≤
      t.engine.published.countP fun pub => pub.signal.ticker.toUpper = x ∧ pub.signal.direction = .bullish
  exits : (t.engine.trades.countP fun trade => trade.symbol = x ∧ trade.exitReason = .signalExit) +
    held (t.engine.pendingExit x) + rejectedAt x .exit t.engine.rejections ≤
      t.engine.published.countP fun pub => pub.signal.ticker.toUpper = x ∧ pub.signal.direction = .bearish

section Funnel

variable {config : BacktestConfig} {eastern : EasternClock} {indicators : Indicators} {warmup df : DataFrame}
  {now : Timestamp} {Bar : Symbol → HistoricalRow → Prop} {t t' : Turn} {x : Symbol}

/-- A position that leaves becomes one trade. -/
theorem count_leave {s : TradeSimulator} {y : Symbol} {p : OpenPosition} (ho : s.opened.get y = some p)
    (hy : y.toUpper = y) (trades : List Trade) (trade : Trade) (htrade : trade.symbol = p.symbol) :
    (trades ++ [trade]).countP (·.symbol = x) + held ((s.drop y).opened.get x) =
      trades.countP (·.symbol = x) + held (s.opened.get x) := by
  have hkey : p.symbol = y := Table.key_of_get ho
  rw [TradeSimulator.get_drop hy, List.countP_append, List.countP_singleton, htrade, hkey]
  by_cases hx : x = y
  · subst hx
    simp [ho]
  · simp [hx, Ne.symm hx]

/-- A rejection that counts no signal of `x` at any of the stages. -/
theorem Turn.Funnelled.reject_bar {e : BacktestEngine} {q q' : List QuantSignal} {b b' : DataFrame}
    {d d' : List (Symbol × Timestamp)} {f f' : Phase} (h : Turn.Funnelled x ⟨e, q, b, d, f⟩) {y : Symbol} {reason : Reason}
    {n : ℕ} (hq : (q'.countP fun c => c.ticker.toUpper = x) + (if y.toUpper = x ∧ stageOf reason = .candidate then n else 0) ≤
      q.countP fun c => c.ticker.toUpper = x)
    (hreason : stageOf reason = .bar ∨ stageOf reason = .candidate) :
    Turn.Funnelled x ⟨e.reject y reason n now, q', b', d', f'⟩ := by
  obtain ⟨hcand, hentry, hexit⟩ := h
  dsimp only at hcand hentry hexit
  refine ⟨?_, ?_, ?_⟩ <;> simp only [BacktestEngine.reject, rejectedAt_append, rejectedAt_singleton]
  · omega
  · rcases hreason with hreason | hreason <;> simpa [hreason] using hentry
  · rcases hreason with hreason | hreason <;> simpa [hreason] using hexit

theorem held_update {α : Type} (f : Symbol → Option α) (y : Symbol) (o : Option α) :
    held (Function.update f y o x) = if x = y then held o else held (f x) := by
  rw [Function.update_apply]
  split_ifs <;> rfl

/-- A position leaves, but not for a signal. -/
theorem Turn.Funnelled.leave {e : BacktestEngine} {q : List QuantSignal} {b : DataFrame}
    {d : List (Symbol × Timestamp)} {f : Phase} (h : Turn.Funnelled x ⟨e, q, b, d, f⟩) {y : Symbol} {p : OpenPosition}
    (ho : e.simulator.opened.get y = some p) (hy : y.toUpper = y) (trade : Trade) (htrade : trade.symbol = p.symbol)
    (hreason : trade.exitReason ≠ .signalExit) :
    Turn.Funnelled x
      ⟨{ e with simulator := e.simulator.drop y, trades := e.trades ++ [trade] }, q, b, d, f⟩ := by
  have hcount := count_leave (x := x) ho hy e.trades trade htrade
  have hentry := h.entries
  refine ⟨h.candidates, ?_, ?_⟩
  · dsimp only at hentry ⊢
    omega
  · simpa [hreason] using h.exits

theorem checkBarForExit_ne_signalExit {direction : SignalDirection} {stop target hi lo : ℚ}
    {resolution : SameBarResolution} {outcome : ExitReason}
    (h : checkBarForExit direction stop target hi lo resolution = some outcome) : outcome ≠ .signalExit := by
  rintro rfl
  unfold checkBarForExit at h
  cases resolution <;> simp only [reduceCtorEq, if_true, if_false] at h <;> split_ifs at h <;> simp at h

theorem Move.funnelled (hmove : Move config eastern now Bar t t') (hkeyed : Keyed t.engine) (h : t.Funnelled x) :
    t'.Funnelled x := by
  obtain ⟨hcand, hentry, hexit⟩ := h
  cases hmove with
  | tick | feed | markDate => exact ⟨hcand, hentry, hexit⟩
  | reorder hperm => exact ⟨by rwa [hperm.countP_eq], hentry, hexit⟩
  | @volatility e q b d y reason hr =>
    have hbar : stageOf reason = .bar := by rcases hr with rfl | rfl <;> rfl
    exact Turn.Funnelled.reject_bar ⟨hcand, hentry, hexit⟩ (by simp [hbar]) (.inl hbar)
  | @evaluate e q b d y log rejected survivors hlog hcount hreasons hticker =>
    have hcandidate : ∀ r ∈ rejected, stageOf r.1 = .candidate := fun r hr => by
      rcases hreasons r hr with hr | hr
      · exact stageOf_common hr
      · rw [hr]
        rfl
    have hsum : (survivors.countP fun c => c.ticker.toUpper = x) +
        rejectedAt x .candidate (rejected.map fun r => ⟨y, r.1, r.2, now⟩) ≤ log.countP (·.ticker = x) := by
      by_cases hy : y = x
      · have hall : log.countP (·.ticker = x) = log.length :=
          List.countP_eq_length.2 fun r hr => by simpa [hy] using (hlog r hr).1
        have hle := rejectedAt_map_le x y .candidate now rejected
        have hsurvivors := List.countP_le_length (p := fun c : QuantSignal => c.ticker.toUpper = x) (l := survivors)
        omega
      · have hnone : (survivors.countP fun c => c.ticker.toUpper = x) = 0 :=
          List.countP_eq_zero.2 fun c hc => by simpa [hticker c hc] using hy
        rw [hnone, rejectedAt_map_eq_zero fun r _ => .inl hy]
        exact Nat.zero_le _
    refine ⟨?_, ?_, ?_⟩
    · simp only [rejectedAt_append, List.countP_append] at *
      omega
    · simp only [rejectedAt_append] at *
      rw [rejectedAt_map_eq_zero fun r hr => .inr (by simp [hcandidate r hr])]
      exact hentry
    · simp only [rejectedAt_append] at *
      rw [rejectedAt_map_eq_zero fun r hr => .inr (by simp [hcandidate r hr])]
      exact hexit
  | @refuse e q b d y cs reason hcs hr =>
    refine Turn.Funnelled.reject_bar ⟨hcand, hentry, hexit⟩ ?_ (.inr (stageOf_throttle hr))
    rw [List.countP_append]
    cases cs with
    | nil => simp
    | cons c cs =>
      have hy : y.toUpper = y := by
        rw [← hcs c List.mem_cons_self]
        exact toUpper_toUpper _
      rw [hy]
      by_cases hyx : y = x
      · have hall : ((c :: cs).countP fun c => c.ticker.toUpper = x) = (c :: cs).length :=
          List.countP_eq_length.2 fun c' hc' => by simpa [hyx] using hcs c' hc'
        rw [hall]
        split_ifs <;> omega
      · rw [if_neg fun hboth => hyx hboth.1]
        omega
  | @publish e q b d c signal score hcool ht =>
    have hx : c.ticker.toUpper.toUpper = c.ticker.toUpper := toUpper_toUpper _
    have hpending := held_le (e.pendingEntry x)
    have hexiting := held_le (e.pendingExit x)
    rw [BacktestEngine.publish_eq]
    dsimp only at hcand hentry hexit
    by_cases hcx : c.ticker.toUpper = x
    · simp only [List.countP_cons, hcx, decide_true, if_true] at hcand
      cases hdir : signal.direction with
      | bullish =>
        refine ⟨?_, ?_, ?_⟩ <;> simp [ht, hdir, hcx] <;> simp at hcand hentry hexit <;> omega
      | bearish =>
        by_cases ho : e.simulator.hasOpen x = true
        · refine ⟨?_, ?_, ?_⟩ <;> simp [ht, hdir, hcx, ho] <;> simp at hcand hentry hexit <;> omega
        · rw [hcx] at hx
          refine ⟨?_, ?_, ?_⟩ <;> simp [ht, hdir, hcx, hx, ho, stageOf] <;> simp at hcand hentry hexit <;> omega
    · simp only [List.countP_cons, hcx, decide_false, Bool.false_eq_true, if_false, add_zero] at hcand
      cases hdir : signal.direction with
      | bullish =>
        refine ⟨?_, ?_, ?_⟩ <;> simp [ht, hdir, hcx, Ne.symm hcx] <;> simp at hcand hentry hexit <;> omega
      | bearish =>
        by_cases ho : e.simulator.hasOpen c.ticker.toUpper = true
        · refine ⟨?_, ?_, ?_⟩ <;> simp [ht, hdir, hcx, Ne.symm hcx, ho] <;>
            simp at hcand hentry hexit <;> omega
        · refine ⟨?_, ?_, ?_⟩ <;> simp [ht, hdir, hcx, hx, ho] <;> simp at hcand hentry hexit <;> omega
  | @exit e q b d y row pending p hbar hp ho =>
    have hcount := count_leave (x := x) ho (hkeyed.opened y p ho) e.trades
      (p.close e.simulator.config now row.openPrice .signalExit (some pending.signal)) rfl
    rw [BacktestEngine.settle_some]
    have hkey : p.symbol = y := Table.key_of_get ho
    refine ⟨hcand, ?_, ?_⟩
    · dsimp only at hentry ⊢
      omega
    · simp only [held_update, List.countP_append, List.countP_singleton, OpenPosition.close, hkey] at hexit ⊢
      by_cases hy : y = x
      · subst hy
        simp [hp] at hexit ⊢
        omega
      · simpa [hy, Ne.symm hy] using hexit
  | @exitMissed e q b d y pending hx hp =>
    refine ⟨?_, ?_, ?_⟩
    · simpa [BacktestEngine.reject, stageOf] using hcand
    · simpa [BacktestEngine.reject, stageOf] using hentry
    · simp only [BacktestEngine.reject, rejectedAt_append, rejectedAt_singleton, hx, stageOf, held_update] at hexit ⊢
      by_cases hy : y = x
      · subst hy
        simp [hp] at hexit ⊢
        omega
      · simpa [hy, Ne.symm hy] using hexit
  | @entryRefused e q b d y pending reason hp hr =>
    have hy : y.toUpper = y := by
      rw [← hkeyed.entry y pending hp]
      exact toUpper_toUpper _
    have hstage : stageOf reason = .entry := by rcases hr with rfl | rfl <;> rfl
    refine ⟨?_, ?_, ?_⟩
    · simpa [BacktestEngine.reject, hstage] using hcand
    · simp only [BacktestEngine.reject, rejectedAt_append, rejectedAt_singleton, hy, hstage, held_update] at hentry ⊢
      by_cases hyx : y = x
      · subst hyx
        simp [hp] at hentry ⊢
        omega
      · simpa [hyx, Ne.symm hyx] using hentry
    · simpa [BacktestEngine.reject, hstage] using hexit
  | @entrySkipped e q b d y pending hp =>
    refine ⟨hcand, ?_, hexit⟩
    simp only [held_update] at hentry ⊢
    split_ifs
    · simp only [held_none]
      omega
    · exact hentry
  | @enter e q b d y row pending fill hbar hp hdate hfree hfill =>
    obtain ⟨paths, reasons, heq⟩ := BacktestEngine.countGeometry_eq
      { e with pendingEntry := Function.update e.pendingEntry y none } fill
    have hkey : (TradeSimulator.position e.simulator.config fill now row.openPrice pending.opportunityScore).symbol = y :=
      (congrArg String.toUpper hfill.ticker).trans (hkeyed.entry y pending hp)
    rw [heq]
    refine ⟨hcand, ?_, hexit⟩
    simp only [held_update, TradeSimulator.openPosition, TradeSimulator.get_put, hkey] at hentry ⊢
    by_cases hyx : x = y
    · subst hyx
      simp [hp] at hentry ⊢
      omega
    · simpa [hyx] using hentry
  | @touch e q b d y row p hbar ho =>
    have hkey : p.symbol = y := Table.key_of_get ho
    refine ⟨hcand, ?_, hexit⟩
    simp only [TradeSimulator.get_put, OpenPosition.symbol_updateExcursion, hkey] at hentry ⊢
    by_cases hyx : x = y
    · subst hyx
      simpa [ho] using hentry
    · simpa [hyx] using hentry
  | @hit e q b d y row p p₀ stop target outcome hbar ho hp hstop htarget hout =>
    rw [BacktestEngine.settle_some]
    have hleave := Turn.Funnelled.leave ⟨hcand, hentry, hexit⟩ ho (hkeyed.opened y p ho)
      (p.close e.simulator.config now (if outcome = .stop then stop else target) outcome none) rfl
      (checkBarForExit_ne_signalExit hout)
    exact ⟨hleave.candidates, hleave.entries, hleave.exits⟩
  | @eodClose e q b d y p price ho hprice =>
    rw [BacktestEngine.settle_some]
    have hleave := Turn.Funnelled.leave ⟨hcand, hentry, hexit⟩ ho (hkeyed.opened y p ho)
      (p.close e.simulator.config now price .endOfSession none) rfl (by simp [OpenPosition.close])
    exact ⟨hleave.candidates, hleave.entries, hleave.exits⟩

variable (config eastern warmup) in
theorem preserved_funnelled (x : Symbol) : Preserved config eastern warmup df fun _ t => t.Funnelled x where
  init t _ _ := by
    obtain ⟨market, n, heq⟩ := warmed_eq config eastern warmup
    rw [heq]
    refine ⟨?_, ?_, ?_⟩ <;> simp [BacktestEngine.init, Table.get, Table.empty]
  move _ _ _ _ hkeyed hmove h := hmove.funnelled hkeyed h
  later _ _ _ _ _ _ _ h := ⟨h.candidates, h.entries, h.exits⟩

/-- No signal counts twice. What has been published or rejected as a candidate had been generated, what has been traded or
refused an entry had been published as a long, and what ended a trade, or found none to end, as an exit. -/
theorem funnel {result : BacktestResult} {e : BacktestEngine}
    (hrun : run config eastern indicators warmup df = .ok (result, e)) (x : Symbol) :
    (e.published.countP fun pub => pub.signal.ticker.toUpper = x) + rejectedAt x .candidate result.rejections ≤
        e.signalLog.countP (·.ticker = x) ∧
      result.trades.countP (·.symbol = x) + rejectedAt x .entry result.rejections ≤
        (e.published.countP fun pub => pub.signal.ticker.toUpper = x ∧ pub.signal.direction = .bullish) ∧
      (result.trades.countP fun trade => trade.symbol = x ∧ trade.exitReason = .signalExit) +
          rejectedAt x .exit result.rejections ≤
        e.published.countP fun pub => pub.signal.ticker.toUpper = x ∧ pub.signal.direction = .bearish := by
  obtain ⟨htrades, hrejections, -, -, hcases⟩ := run_cases hrun
  rw [htrades, hrejections]
  rcases hcases with ⟨-, rfl⟩ | ⟨hdf, -, rfl⟩
  · simp [BacktestEngine.init]
  obtain ⟨now, ⟨e, q, b, d, f⟩, -, -, rfl, -, hkeyed, hfunnel, -⟩ :=
    (preserved_funnelled config eastern warmup x).replay indicators hdf
  obtain ⟨hend, -⟩ := finalizeAtDataEnd_rule (fun e => Turn.Funnelled x ⟨e, q, b, d, f⟩)
    (fun e y p t price hkeyed h ho _ _ => h.leave ho (hkeyed.opened y p ho) _ rfl (by simp [OpenPosition.close]))
    hkeyed hfunnel
  have hcand := hend.candidates
  have hentry := hend.entries
  have hexit := hend.exits
  dsimp only at hcand hentry hexit
  exact ⟨by omega, by omega, by omega⟩

theorem funnel_sample :
    ∃ result e, run sampleConfig sampleClock sampleIndicators sampleWarmup sampleBars = .ok (result, e) ∧
      result.trades ≠ [] ∧
      (e.published.countP fun pub => pub.signal.ticker.toUpper = "ACME") +
          rejectedAt "ACME" .candidate result.rejections ≤ e.signalLog.countP (·.ticker = "ACME") ∧
      result.trades.countP (·.symbol = "ACME") + rejectedAt "ACME" .entry result.rejections ≤
        (e.published.countP fun pub => pub.signal.ticker.toUpper = "ACME" ∧ pub.signal.direction = .bullish) ∧
      (result.trades.countP fun trade => trade.symbol = "ACME" ∧ trade.exitReason = .signalExit) +
          rejectedAt "ACME" .exit result.rejections ≤
        e.published.countP fun pub => pub.signal.ticker.toUpper = "ACME" ∧ pub.signal.direction = .bearish := by
  obtain ⟨result, e, hrun, htrades⟩ := run_sample
  exact ⟨result, e, hrun, by rintro h; simp [h] at htrades, funnel hrun "ACME"⟩

end Funnel

end TalonX.Backtest
