import TalonX.Backtest.Trades

/-!
# Cooldown and loss lockout

- `Turn.Spaced`: the clocks of the cooldown and of the lockout cover what has been published and lost;
- `spaced`: publications of one symbol are a cooldown apart, and none follows a loss within the lockout.
-/

set_option autoImplicit false

namespace TalonX.Backtest

open Quant Transact

/-- One of another symbol, or a cooldown later. -/
def Publication.Spaced (cooldown : ℕ) (a b : Publication) : Prop :=
  a.signal.ticker.toUpper = b.signal.ticker.toUpper → a.timestamp + cooldown ≤ b.timestamp

/-- The trade is no loss in the symbol of `pub`, or not a fresh one. -/
def Publication.ClearOf (lockout : ℕ) (pub : Publication) (trade : Trade) : Prop :=
  trade.netPnl < 0 → pub.signal.ticker.toUpper = trade.symbol →
    pub.timestamp ≤ trade.exitTimestamp ∨ trade.exitTimestamp + lockout ≤ pub.timestamp

structure Turn.Spaced (config : BacktestConfig) (now : Timestamp) (t : Turn) : Prop where
  spaced : t.engine.published.Pairwise (Publication.Spaced config.strategy.cooldown)
  cooled : ∀ pub ∈ t.engine.published, pub.timestamp ≤ now ∧
    ∃ u, t.engine.cooldownUntil pub.signal.ticker.toUpper = some u ∧ pub.timestamp + config.strategy.cooldown ≤ u
  clear : ∀ pub ∈ t.engine.published, ∀ trade ∈ t.engine.trades, pub.ClearOf config.strategy.lossLockout trade
  locks : ∀ x u, t.engine.lossLockoutUntil x = some u → u ≤ now + config.strategy.lossLockout
  locked : ∀ trade ∈ t.engine.trades, trade.netPnl < 0 → ∃ u, t.engine.lossLockoutUntil trade.symbol = some u ∧
    trade.exitTimestamp + config.strategy.lossLockout ≤ u
  queue : ∀ c ∈ t.queue, ∀ trade ∈ t.engine.trades, trade.netPnl < 0 → c.ticker.toUpper = trade.symbol →
    now ≤ trade.exitTimestamp ∨ trade.exitTimestamp + config.strategy.lossLockout ≤ now

section Spaced

variable {config : BacktestConfig} {eastern : EasternClock} {indicators : Indicators} {warmup df : DataFrame}
  {now : Timestamp} {Bar : Symbol → HistoricalRow → Prop}

/-- A candidate is of a symbol without a fresh loss, or one that lost just now. -/
theorem Turn.Spaced.queue_move {t t' : Turn} (h : t.Spaced config now) (hmove : Move config eastern now Bar t t')
    {c : QuantSignal} (hc : c ∈ t'.queue) {trade : Trade} (htrade : trade ∈ t.engine.trades) (hloss : trade.netPnl < 0)
    (hsymbol : c.ticker.toUpper = trade.symbol) :
    now ≤ trade.exitTimestamp ∨ trade.exitTimestamp + config.strategy.lossLockout ≤ now := by
  rcases hmove.queue_cases hc with hc | hfree
  · exact h.queue c hc trade htrade hloss hsymbol
  · obtain ⟨u, hu, hle⟩ := h.locked trade htrade hloss
    have hfree : ¬now < u := by simpa [BacktestEngine.isLossLockedOut, hsymbol, hu] using hfree
    exact .inr (hle.trans (not_lt.1 hfree))

/-- What is published now comes after the cooldown of what was published before. -/
theorem Turn.Spaced.publish_move {t t' : Turn} (h : t.Spaced config now) (hmove : Move config eastern now Bar t t') :
    t'.engine.published.Pairwise (Publication.Spaced config.strategy.cooldown) ∧
      ∀ pub ∈ t'.engine.published, pub.timestamp ≤ now ∧
        ∃ u, t'.engine.cooldownUntil pub.signal.ticker.toUpper = some u ∧
          pub.timestamp + config.strategy.cooldown ≤ u := by
  rcases hmove.publish_cases with ⟨hpub, hcool⟩ | ⟨c, signal, -, hoff, hticker, hpub, hcool⟩
  · rw [hpub, hcool]
    exact ⟨h.spaced, h.cooled⟩
  rw [hpub, hcool, ← hticker]
  rw [← hticker] at hoff
  refine ⟨List.pairwise_append.2 ⟨h.spaced, List.pairwise_singleton .., fun pub hp next hnext hsymbol => ?_⟩,
    fun pub hp => ?_⟩
  · obtain rfl := List.mem_singleton.1 hnext
    obtain ⟨-, u, hu, hle⟩ := h.cooled pub hp
    have hoff : ¬now < u := by simpa [BacktestEngine.isOnCooldown, ← hsymbol, hu] using hoff
    exact hle.trans (not_lt.1 hoff)
  · rcases List.mem_append.1 hp with hp | hp
    · obtain ⟨hle, u, hu, hlu⟩ := h.cooled pub hp
      refine ⟨hle, ?_⟩
      by_cases hx : pub.signal.ticker.toUpper = signal.ticker.toUpper
      · exact ⟨_, by rw [hx, Function.update_self], Nat.add_le_add_right hle _⟩
      · exact ⟨u, by rw [Function.update_of_ne hx, hu], hlu⟩
    · obtain rfl := List.mem_singleton.1 hp
      exact ⟨le_rfl, _, by rw [Function.update_self], le_rfl⟩

/-- A loss locks its symbol from now on. -/
theorem Turn.Spaced.lock_move {t t' : Turn} (h : t.Spaced config now) (hmove : Move config eastern now Bar t t') :
    (∀ x u, t'.engine.lossLockoutUntil x = some u → u ≤ now + config.strategy.lossLockout) ∧
      ∀ trade ∈ t'.engine.trades, trade.netPnl < 0 → ∃ u, t'.engine.lossLockoutUntil trade.symbol = some u ∧
        trade.exitTimestamp + config.strategy.lossLockout ≤ u := by
  rcases hmove.leave_cases with ⟨htrades, hlocks⟩ | ⟨x, p, price, reason, signal, ho, -, htrades, hlocks⟩
  · rw [htrades, hlocks]
    exact ⟨h.locks, h.locked⟩
  rw [htrades, hlocks]
  have hsymbol : p.symbol = x := Table.key_of_get ho
  set trade := p.close t.engine.simulator.config now price reason signal
  by_cases hloss : trade.netPnl < 0
  · rw [if_pos hloss]
    refine ⟨fun y u hu => ?_, fun tr htr hlosing => ?_⟩
    · by_cases hy : y = x
      · rw [hy, Function.update_self, Option.some.injEq] at hu
        exact hu.ge
      · rw [Function.update_of_ne hy] at hu
        exact h.locks y u hu
    · rcases List.mem_append.1 htr with htr | htr
      · obtain ⟨u, hu, hle⟩ := h.locked tr htr hlosing
        by_cases hy : tr.symbol = x
        · exact ⟨_, by rw [hy, Function.update_self], hle.trans (h.locks _ u hu)⟩
        · exact ⟨u, by rw [Function.update_of_ne hy, hu], hle⟩
      · obtain rfl := List.mem_singleton.1 htr
        exact ⟨now + config.strategy.lossLockout, by rw [show trade.symbol = x from hsymbol, Function.update_self],
          le_rfl⟩
  · rw [if_neg hloss]
    refine ⟨h.locks, fun tr htr hlosing => ?_⟩
    rcases List.mem_append.1 htr with htr | htr
    · exact h.locked tr htr hlosing
    · exact absurd (List.mem_singleton.1 htr ▸ hlosing) hloss

theorem Move.spacing {t t' : Turn} (hmove : Move config eastern now Bar t t') (h : t.Spaced config now) :
    t'.Spaced config now := by
  obtain ⟨hspaced, hcooled⟩ := h.publish_move hmove
  obtain ⟨hlocks, hlocked⟩ := h.lock_move hmove
  refine ⟨hspaced, hcooled, fun pub hp trade ht hloss hsymbol => ?_, hlocks, hlocked, fun c hc trade ht hloss hsymbol => ?_⟩
  · rcases hmove.trade_cases ht with ht | ⟨y, p, price, reason, signal, -, rfl⟩
    · rcases hmove.publish_cases with ⟨hpub, -⟩ | ⟨c, signal, hq, -, hticker, hpub, -⟩
      · exact h.clear pub (hpub ▸ hp) trade ht hloss hsymbol
      · rw [hpub, List.mem_append, List.mem_singleton] at hp
        rcases hp with hp | rfl
        · exact h.clear pub hp trade ht hloss hsymbol
        · exact h.queue c (by simp [hq]) trade ht hloss (hticker ▸ hsymbol)
    · exact .inl (hcooled pub hp).1
  · rcases hmove.trade_cases ht with ht | ⟨y, p, price, reason, signal, -, rfl⟩
    · exact h.queue_move hmove hc ht hloss hsymbol
    · exact .inl le_rfl

variable (config eastern warmup) in
theorem preserved_spaced : Preserved config eastern warmup df (Turn.Spaced config) where
  init t _ _ := by
    obtain ⟨market, n, heq⟩ := warmed_eq config eastern warmup
    rw [heq]
    exact ⟨by simp [BacktestEngine.init], by simp [BacktestEngine.init], by simp [BacktestEngine.init],
      by simp [BacktestEngine.init], by simp [BacktestEngine.init], by simp⟩
  move _ _ _ _ _ hmove h := hmove.spacing h
  later s t _ hlt T hended _ h :=
    { h with
      cooled := fun pub hp => ⟨(h.cooled pub hp).1.trans hlt.le, (h.cooled pub hp).2⟩
      locks := fun x u hu => (h.locks x u hu).trans (Nat.add_le_add_right hlt.le _)
      queue := by simp [hended.queue] }

/-- Two publications of one symbol are a cooldown apart. After a loss, unless it is that of the end of the data, its
symbol is not published before the lockout is over. -/
theorem spaced {result : BacktestResult} {e : BacktestEngine}
    (hrun : run config eastern indicators warmup df = .ok (result, e)) :
    e.published.Pairwise (Publication.Spaced config.strategy.cooldown) ∧
      ∀ pub ∈ e.published, ∀ trade ∈ result.trades, trade.exitReason ≠ .dataEnd →
        pub.ClearOf config.strategy.lossLockout trade := by
  obtain ⟨htrades, -, -, -, hcases⟩ := run_cases hrun
  rw [htrades]
  rcases hcases with ⟨-, rfl⟩ | ⟨hdf, -, rfl⟩
  · simp [BacktestEngine.init]
  obtain ⟨now, ⟨e, q, b, d, f⟩, -, -, rfl, -, hkeyed, hspaced, -⟩ :=
    (preserved_spaced config eastern warmup).replay indicators hdf
  obtain ⟨⟨hpub, hclear⟩, -⟩ := finalizeAtDataEnd_rule
    (fun e => e.published.Pairwise (Publication.Spaced config.strategy.cooldown) ∧
      ∀ pub ∈ e.published, ∀ trade ∈ e.trades, trade.exitReason ≠ .dataEnd →
        pub.ClearOf config.strategy.lossLockout trade)
    (fun e x p t price _ h _ _ _ => ⟨h.1, fun pub hp trade htrade hreason => by
      rcases List.mem_append.1 htrade with htrade | htrade
      · exact h.2 pub hp trade htrade hreason
      · exact absurd (List.mem_singleton.1 htrade ▸ rfl) hreason⟩)
    hkeyed ⟨hspaced.spaced, fun pub hp trade htrade _ => hspaced.clear pub hp trade htrade⟩
  exact ⟨hpub, hclear⟩

theorem spaced_sample :
    ∃ result e, run sampleConfig sampleClock sampleIndicators sampleWarmup sampleBars = .ok (result, e) ∧
      result.trades ≠ [] ∧
      e.published.Pairwise (Publication.Spaced (10 * minute)) ∧
      ∀ pub ∈ e.published, ∀ trade ∈ result.trades, trade.exitReason ≠ .dataEnd → pub.ClearOf hour trade := by
  obtain ⟨result, e, hrun, htrades⟩ := run_sample
  exact ⟨result, e, hrun, by rintro h; simp [h] at htrades, spaced hrun⟩

end Spaced

end TalonX.Backtest
