import TalonX.Paper.Consumer

/-!
# The books of the Original ledger

Each lane is a pool of cash that buys lots and sells them again. `Pool.Post` lists what a posting may do to such a pool;
the calls of the engines make at most one posting to each lane.

- `Pool.Balanced`, `Pool.Post.balanced`: cash and what is held make up the initial balance and what was realised;
- `Posts`: what every call does to the two lanes (`PaperJob.posts`);
- `original_ledger_conserved`: the books balance in every interleaving, and no cash is overdrawn as long as no position
  is sold at a negative price.
-/

set_option autoImplicit false

namespace TalonX.Paper

open Transact Ops V2

/-! ## A pool of cash -/

structure Pool where
  initial : ℚ
  cash : ℚ
  held : ℚ
  realized : ℚ
  closed : ℕ
  sells : ℕ

namespace Pool

structure Balanced (b : Pool) : Prop where
  money : b.cash + b.held = b.initial + b.realized
  counts : b.closed = b.sells

/-- One posting; under `c`, what a sale brings in is not negative. -/
inductive Post (c : Prop) : Pool → Pool → Prop
  | idle (b : Pool) : Post c b b
  | spend (b : Pool) (cost : ℚ) : cost ≤ b.cash + 1 / 1000000 →
      Post c b { b with cash := b.cash - cost, held := b.held + cost }
  | sell (b : Pool) (proceeds cost : ℚ) : (c → 0 ≤ proceeds) →
      Post c b { b with
        cash := b.cash + proceeds, held := b.held - cost, realized := b.realized + (proceeds - cost)
        closed := b.closed + 1, sells := b.sells + 1 }

variable {c : Prop} {b b' : Pool}

theorem Post.balanced (h : Post c b b') (hb : b.Balanced) : b'.Balanced := by
  obtain ⟨hm, hc⟩ := hb
  cases h with
  | idle => exact ⟨hm, hc⟩
  | spend cost _ => exact ⟨by dsimp only; linarith, hc⟩
  | sell proceeds cost _ => exact ⟨by dsimp only; linarith, congrArg (· + 1) hc⟩

/-- The tolerance of the store is all that a posting overdraws. -/
theorem Post.cash_ge (h : Post c b b') (hc : c) (hb : -(1 / 1000000) ≤ b.cash) : -(1 / 1000000) ≤ b'.cash := by
  cases h with
  | idle => exact hb
  | spend cost hcost => dsimp only; linarith
  | sell proceeds cost hp =>
    have hproceeds := hp hc
    dsimp only
    linarith

end Pool

/-! ## The two lanes -/

namespace PaperStore

variable (s : PaperStore)

def intraday : Pool where
  initial := s.portfolio.initialBalance
  cash := s.portfolio.currentCash
  held := (s.positions.rows.map (·.costBasis)).sum
  realized := s.portfolio.totalRealizedPnlUsd
  closed := s.portfolio.winCount + s.portfolio.lossCount
  sells := s.tradeHistory.countP (·.orderType = .sell)

/-- What the full exits deleted counts as held. -/
def longTerm : Pool where
  initial := s.longTermPortfolio.initialBalance
  cash := s.longTermPortfolio.currentCash
  held := (s.longTermPositions.rows.map fun p => p.totalShares * p.avgCostBasis).sum +
    (s.discarded.map fun d => d.shares * d.avgCostBasis).sum
  realized := s.longTermPortfolio.totalRealizedPnlUsd
  closed := s.longTermPortfolio.winCount + s.longTermPortfolio.lossCount
  sells := s.longTermTradeHistory.countP (·.orderType = .sell)

/-- No lot is short, an intraday lot cost what its shares cost, and every full exit discards one residual. -/
structure Lots : Prop where
  intraday : ∀ p ∈ s.positions.rows, p.costBasis = p.shares * p.entryPrice ∧ 0 ≤ p.shares
  longTerm : ∀ p ∈ s.longTermPositions.rows, 0 ≤ p.totalShares
  discarded : ∀ d ∈ s.discarded, 0 ≤ d.shares
  exits : s.discarded.length = s.longTermTradeHistory.countP fun t => t.totalSharesAfter.isNone

end PaperStore

/-- What a call does to the two lanes. -/
structure Posts (c : Prop) (s s' : PaperStore) : Prop where
  lots : s'.Lots
  intraday : Pool.Post c s.intraday s'.intraday
  longTerm : Pool.Post c s.longTerm s'.longTerm

variable {c : Prop} {s s' : PaperStore}

theorem Posts.of_eq (hl : s.Lots) (hp : s'.portfolio = s.portfolio) (hps : s'.positions = s.positions)
    (ht : s'.tradeHistory = s.tradeHistory) (hlp : s'.longTermPortfolio = s.longTermPortfolio)
    (hlps : s'.longTermPositions = s.longTermPositions) (hlt : s'.longTermTradeHistory = s.longTermTradeHistory)
    (hd : s'.discarded = s.discarded) : Posts c s s' where
  lots := ⟨by rw [hps]; exact hl.intraday, by rw [hlps]; exact hl.longTerm, by rw [hd]; exact hl.discarded,
    by rw [hd, hlt]; exact hl.exits⟩
  intraday := by
    have heq : s'.intraday = s.intraday := by rw [PaperStore.intraday, hp, hps, ht]; rfl
    exact heq ▸ .idle _
  longTerm := by
    have heq : s'.longTerm = s.longTerm := by rw [PaperStore.longTerm, hlp, hlps, hlt, hd]; rfl
    exact heq ▸ .idle _

theorem Posts.idle (hl : s.Lots) : Posts c s s := .of_eq hl rfl rfl rfl rfl rfl rfl rfl

theorem posts_recordIgnored (hl : s.Lots) (ticker : Ticker) (r : IgnoreReason) (action : AlertAction) (price : ℚ)
    (t : Timestamp) (h : Horizon) : Posts c s (s.recordIgnored ticker r action price t h) :=
  .of_eq hl rfl rfl rfl rfl rfl rfl rfl

/-! ## Intraday postings -/

theorem refuseBuy_eq_none {accountId : String} {cash cost : ℚ} (h : s.refuseBuy accountId cash cost = none) :
    s.blockedReason accountId = none ∧ cost ≤ cash + 1 / 1000000 := by
  unfold PaperStore.refuseBuy at h
  split at h
  · cases h
  rename_i hopen
  split at h
  · cases h
  · rename_i hcost
    exact ⟨hopen, not_lt.1 hcost⟩

theorem posts_executeBuy {ticker : Ticker} {shares price cost : ℚ} {t : Timestamp} {stop target : Option ℚ}
    {e : Option TradeRow} (hl : s.Lots) (hcost : cost = shares * price) (hshares : 0 ≤ shares)
    (h : s.executeBuy ticker shares price cost t stop target = some (e, s')) : Posts c s s' := by
  unfold PaperStore.executeBuy at h
  split at h
  · obtain ⟨-, rfl⟩ := Prod.mk.inj (Option.some.inj h)
    exact posts_recordIgnored hl _ _ _ _ _ _
  rename_i hnone
  obtain ⟨s1, h1, heq⟩ := Option.map_eq_some_iff.1 h
  obtain ⟨-, rfl⟩ := Prod.mk.inj heq
  obtain ⟨ps, hins, rfl⟩ := Option.map_eq_some_iff.1 h1
  obtain ⟨hrows, -⟩ := Table.insert?_eq_some hins
  have hrows : ps.rows = s.positions.rows ++ [PaperStore.buyPosition ticker shares price cost t stop target] := hrows
  constructor
  · refine ⟨fun p hp => ?_, hl.longTerm, hl.discarded, hl.exits⟩
    have hp : p ∈ ps.rows := hp
    rw [hrows, List.mem_append, List.mem_singleton] at hp
    rcases hp with hp | rfl
    · exact hl.intraday p hp
    · exact ⟨hcost, hshares⟩
  · have hpost := Pool.Post.spend (c := c) s.intraday cost (refuseBuy_eq_none hnone).2
    convert hpost using 1
    simp [PaperStore.intraday, PaperStore.appendTrade, PaperStore.setCash, Portfolio.setCash, hrows,
      PaperStore.buyPosition, PaperStore.buyTrade]
  · exact .idle _

theorem getPosition_eq_some {ticker : Ticker} {pos : Position} (h : s.getPosition ticker = some pos) :
    pos ∈ s.positions.rows ∧ pos.ticker = ticker.toUpper := Table.get_eq_some.1 h

theorem settle_closed (p : Portfolio) (proceeds pnl : ℚ) :
    (p.settle proceeds pnl).winCount + (p.settle proceeds pnl).lossCount = p.winCount + p.lossCount + 1 := by
  unfold Portfolio.settle
  dsimp only
  split <;> omega

theorem posts_executeSell {ticker : Ticker} {exitPrice : ℚ} {t : Timestamp} {action : AlertAction}
    {e : Option TradeRow} (hl : s.Lots) (hfill : c → (s.getPosition ticker).isSome → 0 ≤ exitPrice)
    (h : s.executeSell ticker exitPrice t action = some (e, s')) : Posts c s s' := by
  unfold PaperStore.executeSell at h
  split at h
  · obtain ⟨-, rfl⟩ := Prod.mk.inj (Option.some.inj h)
    exact .idle hl
  rename_i pos hpos
  split at h
  · cases h
  obtain ⟨-, rfl⟩ := Prod.mk.inj (Option.some.inj h)
  obtain ⟨hmem, -⟩ := getPosition_eq_some hpos
  obtain ⟨hbasis, hshares⟩ := hl.intraday pos hmem
  constructor
  · refine ⟨fun p hp => ?_, hl.longTerm, hl.discarded, hl.exits⟩
    exact hl.intraday p (List.mem_filter.1 hp).1
  · have hproceeds : c → 0 ≤ pos.shares * exitPrice :=
      fun hc => mul_nonneg hshares (hfill hc (by rw [hpos]; rfl))
    have hpost := Pool.Post.sell s.intraday (pos.shares * exitPrice) pos.costBasis hproceeds
    convert hpost using 1
    have hsum := Table.sum_delete (g := fun p : Position => p.costBasis) hmem
    simp only [PaperStore.intraday, PaperStore.appendTrade, PaperStore.deletePosition, PaperStore.setPortfolio,
      settle_closed, hsum, Pool.mk.injEq]
    refine ⟨trivial, rfl, trivial, ?_, trivial, ?_⟩
    · rw [Portfolio.settle, calculateSellPnl_fst, hbasis]
    · simp [List.countP_append, PaperStore.sellTrade]
  · exact .idle _

/-- Every closing of a position: whatever raises leaves the store as it was. -/
theorem posts_closePosition {ticker : Ticker} {fill : ℚ} {t : Timestamp} {action : AlertAction} (hl : s.Lots)
    (hfill : c → (s.getPosition ticker).isSome → 0 ≤ fill) (h : closePosition ticker fill t action s = some s') :
    Posts c s s' := by
  unfold closePosition at h
  split at h
  · cases h
  · rename_i s1 h1
    obtain rfl := Option.some.inj h
    have hs : s1 = s := by
      unfold PaperStore.executeSell at h1
      split at h1
      · exact (Prod.mk.inj (Option.some.inj h1)).2.symm
      split at h1
      · cases h1
      · cases h1
    subst hs
    exact posts_recordIgnored hl _ _ _ _ _ _
  · rename_i e s1 h1
    obtain rfl := Option.some.inj h
    exact posts_executeSell hl hfill h1

/-! ## Long-term postings -/

theorem posts_executeLongTermBuy {ticker : Ticker} {shares price cost : ℚ} {t : Timestamp}
    {e : Option LongTermTradeRow} (hl : s.Lots) (hcost : cost = shares * price) (hshares : 0 ≤ shares)
    (h : s.executeLongTermBuy ticker shares price cost t = some (e, s')) : Posts c s s' := by
  unfold PaperStore.executeLongTermBuy at h
  split at h
  · obtain ⟨-, rfl⟩ := Prod.mk.inj (Option.some.inj h)
    exact posts_recordIgnored hl _ _ _ _ _ _
  rename_i hnone
  obtain ⟨s1, h1, heq⟩ := Option.map_eq_some_iff.1 h
  obtain ⟨-, rfl⟩ := Prod.mk.inj heq
  obtain ⟨ps, hins, rfl⟩ := Option.map_eq_some_iff.1 h1
  obtain ⟨hrows, -⟩ := Table.insert?_eq_some hins
  have hrows : ps.rows = s.longTermPositions.rows ++ [⟨ticker.toUpper, shares, price, t, cost⟩] := hrows
  constructor
  · refine ⟨hl.intraday, fun p hp => ?_, hl.discarded, ?_⟩
    · have hp : p ∈ ps.rows := hp
      rw [hrows, List.mem_append, List.mem_singleton] at hp
      rcases hp with hp | rfl
      · exact hl.longTerm p hp
      · exact hshares
    · simp [hl.exits, PaperStore.appendLongTermTrade, PaperStore.longTermBuyTrade, PaperStore.setLongTermCash,
        List.countP_append]
  · exact .idle _
  · have hpost := Pool.Post.spend (c := c) s.longTerm cost (refuseBuy_eq_none hnone).2
    convert hpost using 1
    simp only [PaperStore.longTerm, PaperStore.appendLongTermTrade, PaperStore.setLongTermCash, Portfolio.setCash,
      hrows, PaperStore.longTermBuyTrade, Pool.mk.injEq]
    refine ⟨trivial, trivial, ?_, trivial, trivial, by simp⟩
    rw [List.map_append, List.sum_append, List.map_singleton, List.sum_singleton, ← hcost]
    ring

/-- What the lots cost after one of them was changed. -/
theorem sum_updateLots {t : Table LongTermPosition.ticker} {p : LongTermPosition}
    (f : LongTermPosition → LongTermPosition) (hf : ∀ q, (f q).ticker = q.ticker) (hp : p ∈ t.rows) :
    ((t.update (·.ticker = p.ticker) f hf).rows.map fun p => p.totalShares * p.avgCostBasis).sum =
      (t.rows.map fun p => p.totalShares * p.avgCostBasis).sum - p.totalShares * p.avgCostBasis +
        (f p).totalShares * (f p).avgCostBasis :=
  sum_updateRows (g := fun p : LongTermPosition => p.totalShares * p.avgCostBasis) t.nodup hp (by simp)
    fun _ hr hr' => t.eq_of_key hr hp (of_decide_eq_true hr')

theorem sum_updateLongTermPosition {p q : LongTermPosition} (hp : p ∈ s.longTermPositions.rows)
    (hq : q.ticker = p.ticker) :
    ((s.updateLongTermPosition q).longTermPositions.rows.map fun p => p.totalShares * p.avgCostBasis).sum =
      (s.longTermPositions.rows.map fun p => p.totalShares * p.avgCostBasis).sum - p.totalShares * p.avgCostBasis +
        q.totalShares * q.avgCostBasis := by
  unfold PaperStore.updateLongTermPosition
  rw [hq]
  exact sum_updateLots (fun r => { q with ticker := r.ticker, firstEntryAt := r.firstEntryAt }) (fun _ => rfl) hp

theorem shares_updateLots {rows : List LongTermPosition} {c : LongTermPosition → Bool}
    {f : LongTermPosition → LongTermPosition} (hl : ∀ p ∈ rows, 0 ≤ p.totalShares) (hq : ∀ p, 0 ≤ (f p).totalShares) :
    ∀ p ∈ updateRows c f rows, 0 ≤ p.totalShares := by
  intro p hp
  obtain ⟨r, hr, rfl⟩ := mem_updateRows.1 hp
  split
  · exact hq r
  · exact hl r hr

theorem getLongTermPosition_eq_some {ticker : Ticker} {pos : LongTermPosition}
    (h : s.getLongTermPosition ticker = some pos) :
    pos ∈ s.longTermPositions.rows ∧ pos.ticker = ticker.toUpper := Table.get_eq_some.1 h

theorem posts_executeDcaContribution {ticker : Ticker} {contributionUsd price : ℚ} {t : Timestamp} (hl : s.Lots) :
    Posts c s (s.executeDcaContribution ticker contributionUsd price t).2 := by
  unfold PaperStore.executeDcaContribution
  split
  · exact posts_recordIgnored hl _ _ _ _ _ _
  split
  · exact .idle hl
  rename_i pos hpos
  split
  · exact .idle hl
  rename_i hpositive
  dsimp only
  split
  · exact posts_recordIgnored hl _ _ _ _ _ _
  rename_i hcash
  obtain ⟨hprice, hcontribution⟩ : 0 < price ∧ 0 < contributionUsd := by
    push Not at hpositive
    exact hpositive
  obtain ⟨hmem, -⟩ := getLongTermPosition_eq_some hpos
  have hshares : 0 < contributionUsd / price := div_pos hcontribution hprice
  have htotal : 0 < pos.totalShares + contributionUsd / price := by
    have := hl.longTerm pos hmem
    linarith
  constructor
  · refine ⟨hl.intraday, shares_updateLots hl.longTerm fun _ => htotal.le, hl.discarded, ?_⟩
    simp [hl.exits, PaperStore.appendLongTermTrade, PaperStore.dcaTrade, PaperStore.setLongTermCash,
      PaperStore.updateLongTermPosition, List.countP_append]
  · exact .idle _
  · have hpost := Pool.Post.spend (c := c) s.longTerm contributionUsd (not_lt.1 hcash)
    convert hpost using 1
    have hsum := sum_updateLongTermPosition (s := s.setLongTermCash (s.longTermPortfolio.currentCash - contributionUsd))
      (q := PaperStore.contribute contributionUsd price pos) hmem rfl
    -- averaging moves no money: what the lot costs grows by the contribution
    have haverage : (pos.totalShares + contributionUsd / price) *
        calculateAverageCostBasis pos.totalShares pos.avgCostBasis (contributionUsd / price) price =
          pos.totalShares * pos.avgCostBasis + contributionUsd / price * price := mul_calculateAverageCostBasis htotal
    have hlot : (PaperStore.contribute contributionUsd price pos).totalShares *
        (PaperStore.contribute contributionUsd price pos).avgCostBasis =
          pos.totalShares * pos.avgCostBasis + contributionUsd := by
      rw [div_mul_cancel₀ _ hprice.ne'] at haverage
      exact haverage
    have hrows : (s.setLongTermCash (s.longTermPortfolio.currentCash - contributionUsd)).longTermPositions =
        s.longTermPositions := rfl
    rw [hrows, hlot] at hsum
    simp only [PaperStore.longTerm, PaperStore.appendLongTermTrade, hsum, Pool.mk.injEq]
    refine ⟨rfl, rfl, ?_, rfl, rfl, ?_⟩
    · have hdiscarded : ∀ x, ((s.setLongTermCash x).updateLongTermPosition
          (PaperStore.contribute contributionUsd price pos)).discarded = s.discarded := fun _ => rfl
      rw [hdiscarded]
      ring
    · simp [List.countP_append, PaperStore.dcaTrade, PaperStore.updateLongTermPosition, PaperStore.setLongTermCash]

theorem clampFraction_mem (trimFraction : ℚ) :
    0 ≤ PaperStore.clampFraction trimFraction ∧ PaperStore.clampFraction trimFraction ≤ 1 :=
  ⟨le_min (le_max_right _ _) zero_le_one, min_le_right _ _⟩

/-- What a lot cost is what its sold shares cost and what the residual cost. -/
theorem longTerm_trimPosition {p : LongTermPosition} (fraction : ℚ) (hp : p ∈ s.longTermPositions.rows) :
    (s.trimPosition fraction p).longTerm =
      { s.longTerm with held := s.longTerm.held - p.totalShares * fraction * p.avgCostBasis } := by
  unfold PaperStore.trimPosition
  split
  · have hsum := Table.sum_delete (g := fun p : LongTermPosition => p.totalShares * p.avgCostBasis) hp
    simp only [PaperStore.longTerm, hsum, List.map_append, List.sum_append, List.map_singleton, List.sum_singleton,
      PaperStore.trimmed, Pool.mk.injEq]
    exact ⟨trivial, trivial, by ring, trivial, trivial, trivial⟩
  · have hsum := sum_updateLots (t := s.longTermPositions)
      (fun q => { q with totalShares := (PaperStore.trimmed fraction p).totalShares }) (fun _ => rfl) hp
    simp only [PaperStore.longTerm, PaperStore.setTotalShares, hsum, Pool.mk.injEq, true_and, and_true]
    simp only [PaperStore.trimmed]
    ring

theorem intraday_trimPosition (p : LongTermPosition) (fraction : ℚ) :
    (s.trimPosition fraction p).intraday = s.intraday := by
  unfold PaperStore.trimPosition
  split <;> rfl

/-- A sale as its three statements leave the lane. -/
theorem longTerm_sale {p : LongTermPosition} {fraction : ℚ} {t : LongTermTradeRow} (portfolio : Portfolio)
    (hp : p ∈ s.longTermPositions.rows) (ht : t.orderType = .sell) :
    (((s.setLongTermPortfolio portfolio).trimPosition fraction p).appendLongTermTrade t).longTerm =
      { initial := s.longTermPortfolio.initialBalance, cash := portfolio.currentCash
        held := s.longTerm.held - p.totalShares * fraction * p.avgCostBasis
        realized := portfolio.totalRealizedPnlUsd, closed := portfolio.winCount + portfolio.lossCount
        sells := s.longTerm.sells + 1 } := by
  have htrim := longTerm_trimPosition (s := s.setLongTermPortfolio portfolio) fraction hp
  have happend : ∀ r : PaperStore, (r.appendLongTermTrade t).longTerm =
      { r.longTerm with sells := r.longTerm.sells + 1 } := fun r => by
    simp [PaperStore.longTerm, PaperStore.appendLongTermTrade, List.countP_append, ht]
  rw [happend, htrim]
  rfl

theorem lots_trimPosition {p : LongTermPosition} {fraction : ℚ} {t : LongTermTradeRow} (hl : s.Lots)
    (hp : p ∈ s.longTermPositions.rows) (hfraction : fraction ≤ 1)
    (ht : t.totalSharesAfter.isNone = decide ((PaperStore.trimmed fraction p).totalShares ≤ 1 / 1000000000)) :
    ((s.trimPosition fraction p).appendLongTermTrade t).Lots := by
  have hresidual : 0 ≤ (PaperStore.trimmed fraction p).totalShares := by
    have hshares := mul_nonneg (hl.longTerm p hp) (sub_nonneg.2 hfraction)
    have heq : (PaperStore.trimmed fraction p).totalShares = p.totalShares * (1 - fraction) := by
      simp only [PaperStore.trimmed]
      ring
    rw [heq]
    exact hshares
  unfold PaperStore.trimPosition
  split
  · rename_i hsmall
    refine ⟨hl.intraday, fun q hq => hl.longTerm q (List.mem_filter.1 hq).1, fun d hd => ?_, ?_⟩
    · rcases List.mem_append.1 hd with hd | hd
      · exact hl.discarded d hd
      · rw [List.mem_singleton.1 hd]
        exact hresidual
    · have hnone : t.totalSharesAfter.isNone = true := by rw [ht, decide_eq_true hsmall]
      simp [PaperStore.appendLongTermTrade, List.countP_append, hl.exits, hnone]
  · rename_i hsmall
    refine ⟨hl.intraday, shares_updateLots hl.longTerm fun _ => hresidual, hl.discarded, ?_⟩
    have hsome : t.totalSharesAfter.isNone = false := by rw [ht, decide_eq_false hsmall]
    simp [PaperStore.appendLongTermTrade, PaperStore.setTotalShares, List.countP_append, hl.exits, hsome]

theorem posts_executeLongTermSell {ticker : Ticker} {trimFraction exitPrice : ℚ} {t : Timestamp}
    {action : AlertAction} {e : Option LongTermTradeRow} (hl : s.Lots)
    (hfill : c → (s.getLongTermPosition ticker).isSome → 0 ≤ exitPrice)
    (h : s.executeLongTermSell ticker trimFraction exitPrice t action = some (e, s')) : Posts c s s' := by
  unfold PaperStore.executeLongTermSell at h
  split at h
  · obtain ⟨-, rfl⟩ := Prod.mk.inj (Option.some.inj h)
    exact .idle hl
  rename_i pos hpos
  split at h
  · cases h
  obtain ⟨-, rfl⟩ := Prod.mk.inj (Option.some.inj h)
  obtain ⟨hmem, -⟩ := getLongTermPosition_eq_some hpos
  obtain ⟨hnonneg, hone⟩ := clampFraction_mem trimFraction
  have hproceeds : c → 0 ≤ pos.totalShares * PaperStore.clampFraction trimFraction * exitPrice := fun hc =>
    mul_nonneg (mul_nonneg (hl.longTerm pos hmem) hnonneg) (hfill hc (by rw [hpos]; rfl))
  constructor
  · refine lots_trimPosition ⟨hl.intraday, hl.longTerm, hl.discarded, hl.exits⟩ hmem hone ?_
    simp only [PaperStore.longTermSellTrade]
    split <;> simp_all
  · have hintraday := fun portfolio => intraday_trimPosition (s := s.setLongTermPortfolio portfolio) pos
      (PaperStore.clampFraction trimFraction)
    convert Pool.Post.idle (c := c) s.intraday using 1
    exact hintraday _
  · have hpost := Pool.Post.sell s.longTerm (pos.totalShares * PaperStore.clampFraction trimFraction * exitPrice)
      (pos.totalShares * PaperStore.clampFraction trimFraction * pos.avgCostBasis) hproceeds
    convert hpost using 1
    rw [longTerm_sale _ hmem rfl, settle_closed]
    rfl

/-! ## What a handler raises -/

theorem executeBuy_ne_none {ticker : Ticker} {shares price cost : ℚ} {t : Timestamp} {stop target : Option ℚ}
    (hflat : s.getPosition ticker = none) : s.executeBuy ticker shares price cost t stop target ≠ none := by
  unfold PaperStore.executeBuy
  split
  · exact Option.some_ne_none _
  · have hget : s.positions.get (PaperStore.buyPosition ticker shares price cost t stop target).ticker = none := hflat
    obtain ⟨ps, hins, -⟩ := Table.insert?_of_get_none hget
    simp [PaperStore.insertPosition, PaperStore.setCash, hins]

theorem executeLongTermBuy_ne_none {ticker : Ticker} {shares price cost : ℚ} {t : Timestamp}
    (hflat : s.getLongTermPosition ticker = none) : s.executeLongTermBuy ticker shares price cost t ≠ none := by
  unfold PaperStore.executeLongTermBuy
  split
  · exact Option.some_ne_none _
  · have hget : s.longTermPositions.get (⟨ticker.toUpper, shares, price, t, cost⟩ : LongTermPosition).ticker = none :=
      hflat
    obtain ⟨ps, hins, -⟩ := Table.insert?_of_get_none hget
    simp [PaperStore.insertLongTermPosition, PaperStore.setLongTermCash, hins]

theorem decideTrade_buy {a : ActionableAlert} {pos : Option Position} {price : ℚ}
    (h : decideTrade a pos = some (.buy price)) : pos = none := by
  unfold decideTrade at h
  cases hpos : pos with
  | none => rfl
  | some p => cases hact : a.action <;> simp [hact, hpos] at h

theorem decideLongTermTrade_buy {a : LongTermActionableAlert} {pos : Option LongTermPosition} {price trim : ℚ}
    (h : decideLongTermTrade a pos trim = some (.buy price)) : pos = none := by
  unfold decideLongTermTrade at h
  cases hpos : pos with
  | none => rfl
  | some p => cases hact : a.action <;> simp [hact, hpos] at h

/-- An alert raises only where it meets a position whose timestamp its own cannot be subtracted from, and that is before
the first statement that writes. -/
theorem handleAlert_eq_none {cfg : PaperConfig} {enabled : List Ticker} {a : ActionableAlert}
    (h : handleAlert cfg enabled a s = none) :
    ∃ p, s.getPosition a.ticker = some p ∧ a.correlatedAt.minus p.entryTimestamp = none := by
  unfold handleAlert at h
  dsimp only at h
  split at h
  · cases h
  split at h
  · cases h
  split at h
  · cases h
  · cases h
  · rename_i hbuy
    unfold executeAlertBuy at h
    dsimp only at h
    split at h
    · cases h
    split at h
    · cases h
    · exact absurd (Option.map_eq_none_iff.1 h) (executeBuy_ne_none (decideTrade_buy hbuy))
  · unfold closePosition at h
    split at h
    · rename_i hsell
      unfold PaperStore.executeSell at hsell
      split at hsell
      · cases hsell
      rename_i p hp
      split at hsell
      · rename_i hminus
        exact ⟨p, hp, hminus⟩
      · cases hsell
    · cases h
    · cases h

theorem handleLongTermAlert_eq_none {cfg : PaperConfig} {enabled : List Ticker} {a : LongTermActionableAlert}
    (h : handleLongTermAlert cfg enabled a s = none) :
    ∃ p, s.getLongTermPosition a.ticker = some p ∧ a.correlatedAt.minus p.firstEntryAt = none := by
  have hclose : ∀ {trim fill : ℚ}, closeLongTermPosition a trim fill s = none →
      ∃ p, s.getLongTermPosition a.ticker = some p ∧ a.correlatedAt.minus p.firstEntryAt = none := by
    intro trim fill h
    unfold closeLongTermPosition at h
    split at h
    · rename_i hsell
      unfold PaperStore.executeLongTermSell at hsell
      split at hsell
      · cases hsell
      rename_i p hp
      split at hsell
      · rename_i hminus
        exact ⟨p, hp, hminus⟩
      · cases hsell
    · cases h
    · cases h
  unfold handleLongTermAlert at h
  split at h
  · cases h
  split at h
  · cases h
  · cases h
  · rename_i hbuy
    unfold executeLongTermAlertBuy at h
    dsimp only at h
    split at h
    · cases h
    · exact absurd (Option.map_eq_none_iff.1 h) (executeLongTermBuy_ne_none (decideLongTermTrade_buy hbuy))
  · exact hclose h
  · exact hclose h

/-! ## The handlers -/

theorem posts_executeAlertBuy {cfg : PaperConfig} {a : ActionableAlert} {price : ℚ} (hl : s.Lots)
    (h : executeAlertBuy cfg a price s = some s') : Posts c s s' := by
  unfold executeAlertBuy at h
  dsimp only at h
  split at h
  · obtain rfl := Option.some.inj h
    exact posts_recordIgnored hl _ _ _ _ _ _
  split at h
  · obtain rfl := Option.some.inj h
    exact posts_recordIgnored hl _ _ _ _ _ _
  · rename_i hsize
    obtain ⟨-, -, -, -, hcost, hshares⟩ := calculateBuy_eq_some hsize
    obtain ⟨⟨e, s''⟩, hbuy, rfl⟩ := Option.map_eq_some_iff.1 h
    exact posts_executeBuy hl hcost hshares.le hbuy

theorem posts_executeLongTermAlertBuy {cfg : PaperConfig} {a : LongTermActionableAlert} {price : ℚ} (hl : s.Lots)
    (h : executeLongTermAlertBuy cfg a price s = some s') : Posts c s s' := by
  unfold executeLongTermAlertBuy at h
  dsimp only at h
  split at h
  · obtain rfl := Option.some.inj h
    exact posts_recordIgnored hl _ _ _ _ _ _
  · rename_i hsize
    obtain ⟨-, -, -, -, hcost, hshares⟩ := calculateBuy_eq_some hsize
    obtain ⟨⟨e, s''⟩, hbuy, rfl⟩ := Option.map_eq_some_iff.1 h
    exact posts_executeLongTermBuy hl hcost hshares.le hbuy

theorem posts_closeLongTermPosition {a : LongTermActionableAlert} {trimFraction fill : ℚ} (hl : s.Lots)
    (hfill : c → (s.getLongTermPosition a.ticker).isSome → 0 ≤ fill)
    (h : closeLongTermPosition a trimFraction fill s = some s') : Posts c s s' := by
  unfold closeLongTermPosition at h
  split at h
  · cases h
  · rename_i s1 h1
    obtain rfl := Option.some.inj h
    have hs : s1 = s := by
      unfold PaperStore.executeLongTermSell at h1
      split at h1
      · exact (Prod.mk.inj (Option.some.inj h1)).2.symm
      split at h1
      · cases h1
      · cases h1
    subst hs
    exact posts_recordIgnored hl _ _ _ _ _ _
  · rename_i e s1 h1
    obtain rfl := Option.some.inj h
    exact posts_executeLongTermSell hl hfill h1

/-- The price at which the call would sell a position, if it would sell one. -/
def sellFill (cfg : PaperConfig) (s : PaperStore) : PaperCall → Option ℚ
  | .alert enabled a =>
    match decideTrade a (s.getPosition a.ticker) with
    | some (.sell price) => if a.ticker.toUpper ∈ enabled then some (applySpread price cfg.simulatedSpreadBps .sell) else none
    | _ => none
  | .tick e =>
    match e.eventType, e.close, s.getPosition e.symbol with
    | .bar, some close, some p => (tickTrigger cfg close p).map fun _ => applySpread close cfg.simulatedSpreadBps .sell
    | _, _, _ => none
  | .close ticker fillPrice => (s.getPosition ticker).map fun _ => fillPrice
  | .longTermAlert enabled a =>
    match decideLongTermTrade a (s.getLongTermPosition a.ticker) cfg.rebalanceTrimPct with
    | some (.sellPartial price _) | some (.sellFull price) =>
      if a.ticker.toUpper ∈ enabled then some (applySpread price cfg.simulatedSpreadBps .sell) else none
    | _ => none
  | _ => none

/-- The call sells at no negative price. -/
def FillNonneg (cfg : PaperConfig) (s : PaperStore) (l : PaperCall) : Prop := ∀ fill ∈ sellFill cfg s l, 0 ≤ fill

theorem posts_handleAlert {cfg : PaperConfig} {enabled : List Ticker} {a : ActionableAlert} (hl : s.Lots)
    (h : handleAlert cfg enabled a s = some s') : Posts (FillNonneg cfg s (.alert enabled a)) s s' := by
  unfold handleAlert at h
  dsimp only at h
  split at h
  · obtain rfl := Option.some.inj h
    exact .idle hl
  rename_i henabled
  split at h
  · obtain rfl := Option.some.inj h
    exact posts_recordIgnored hl _ _ _ _ _ _
  split at h
  · obtain rfl := Option.some.inj h
    exact posts_recordIgnored hl _ _ _ _ _ _
  · obtain rfl := Option.some.inj h
    exact posts_recordIgnored hl _ _ _ _ _ _
  · exact posts_executeAlertBuy hl h
  · rename_i hsell
    refine posts_closePosition hl (fun hc _ => hc _ ?_) h
    simp [sellFill, hsell, not_not.1 henabled]

theorem posts_handleMarketTick {cfg : PaperConfig} {e : MarketTickEvent} {now : Timestamp} (hl : s.Lots) :
    Posts (FillNonneg cfg s (.tick e)) s (handleMarketTick cfg e now s) := by
  unfold handleMarketTick
  split
  · rename_i close htype hclose
    have hprice : Posts (FillNonneg cfg s (.tick e)) s (s.updateLatestPrice e.symbol close) :=
      .of_eq hl rfl rfl rfl rfl rfl rfl rfl
    dsimp only
    split
    · exact hprice
    rename_i p hp
    split
    · exact hprice
    rename_i trigger htrigger
    cases hclosed : closePosition e.symbol (applySpread close cfg.simulatedSpreadBps .sell) now trigger.action
        (s.updateLatestPrice e.symbol close) with
    | none => exact hprice
    | some s'' =>
      have hfill : FillNonneg cfg s (.tick e) → 0 ≤ applySpread close cfg.simulatedSpreadBps .sell := fun hc => by
        refine hc _ ?_
        have hp' : s.getPosition e.symbol = some p := hp
        simp [sellFill, htype, hclose, hp', htrigger]
      have hposts := posts_closePosition hprice.lots (fun hc _ => hfill hc) hclosed
      exact ⟨hposts.lots, hposts.intraday, hposts.longTerm⟩
  · exact .idle hl

theorem posts_handleLongTermAlert {cfg : PaperConfig} {enabled : List Ticker} {a : LongTermActionableAlert}
    (hl : s.Lots) (h : handleLongTermAlert cfg enabled a s = some s') :
    Posts (FillNonneg cfg s (.longTermAlert enabled a)) s s' := by
  unfold handleLongTermAlert at h
  split at h
  · obtain rfl := Option.some.inj h
    exact .idle hl
  rename_i henabled
  split at h
  · obtain rfl := Option.some.inj h
    exact .idle hl
  · obtain rfl := Option.some.inj h
    exact posts_recordIgnored hl _ _ _ _ _ _
  · exact posts_executeLongTermAlertBuy hl h
  · rename_i hsell
    refine posts_closeLongTermPosition hl (fun hc _ => hc _ ?_) h
    simp [sellFill, hsell, not_not.1 henabled]
  · rename_i hsell
    refine posts_closeLongTermPosition hl (fun hc _ => hc _ ?_) h
    simp [sellFill, hsell, not_not.1 henabled]

theorem posts_handleLongTermMarketTick {e : MarketTickEvent} (hl : s.Lots) :
    Posts c s (handleLongTermMarketTick e s) := by
  unfold handleLongTermMarketTick
  split
  · exact .of_eq hl rfl rfl rfl rfl rfl rfl rfl
  · exact .idle hl

/-! ## What runs on the store -/

abbrev LedgerCall (cfg : PaperConfig) (l : PaperCall) (s s' : PaperStore) : Prop := Posts (FillNonneg cfg s l) s s'

theorem keeps_txn {α : Type} {cfg : PaperConfig} {l : PaperCall} {f : PaperStore → Option (α × PaperStore)}
    (h : ∀ s a s', s.Lots → f s = some (a, s') → LedgerCall cfg l s s') :
    Keeps PaperStore.Lots (LedgerCall cfg) (Prog.txn l f) :=
  outline_txn (fun _ hl => .idle hl) fun s a s' hl _ hf => ⟨(h s a s' hl hf).lots, h s a s' hl hf⟩

theorem keeps_write {cfg : PaperConfig} {l : PaperCall} {f : PaperStore → PaperStore}
    (h : ∀ s, s.Lots → LedgerCall cfg l s (f s)) : Keeps PaperStore.Lots (LedgerCall cfg) (Prog.write l f) :=
  outline_write fun s hl _ => ⟨(h s hl).lots, h s hl⟩

theorem keeps_read {α : Type} {cfg : PaperConfig} {l : PaperCall} {f : PaperStore → α} :
    Keeps PaperStore.Lots (LedgerCall cfg) (Prog.read l f) := outline_read fun _ hl => .idle hl

theorem keeps_flattenPosition {cfg : PaperConfig} (prices : Ticker → Option ℚ) (now : Timestamp) (p : Position) :
    Keeps PaperStore.Lots (LedgerCall cfg) (flattenPosition cfg prices now p) := by
  unfold flattenPosition
  split
  · trivial
  split
  · trivial
  · rename_i price _ _
    refine keeps_txn fun s _ s' hl h => ?_
    obtain ⟨s'', hclose, heq⟩ := Option.map_eq_some_iff.1 h
    obtain ⟨-, rfl⟩ := Prod.mk.inj heq
    refine posts_closePosition hl (fun hc hpos => hc _ ?_) hclose
    obtain ⟨q, hq⟩ := Option.isSome_iff_exists.1 hpos
    simp [sellFill, hq]

theorem keeps_dcaPosition {cfg : PaperConfig} (prices : Ticker → Option ℚ) (contributionUsd : ℚ) (now : Timestamp)
    (cash : ℚ) (p : LongTermPosition) :
    Keeps PaperStore.Lots (LedgerCall cfg) (dcaPosition prices contributionUsd now cash p) := by
  unfold dcaPosition
  split
  · trivial
  split
  · trivial
  split
  · trivial
  · rename_i price _ _ _
    refine keeps_txn fun s _ s' hl h => ?_
    have hs : s' = (s.executeDcaContribution p.ticker contributionUsd price now).2 := by
      split at h <;> rename_i hdca <;> rw [hdca] <;> exact (Prod.mk.inj (Option.some.inj h)).2.symm
    exact hs ▸ posts_executeDcaContribution hl

/-- Everything that runs on the store makes at most one posting to each lane at a time. -/
theorem PaperJob.posts (cfg : PaperConfig) (j : PaperJob) :
    Keeps PaperStore.Lots (LedgerCall cfg) (j.prog cfg) := by
  cases j with
  | alert enabled a =>
    refine keeps_txn fun s _ s' hl h => ?_
    obtain ⟨s'', hs, heq⟩ := Option.map_eq_some_iff.1 h
    obtain ⟨-, rfl⟩ := Prod.mk.inj heq
    exact posts_handleAlert hl hs
  | tick e now => exact keeps_write fun s hl => posts_handleMarketTick hl
  | eodFlatten now =>
    exact keeps_bind keeps_read fun positions => keeps_bind keeps_read fun prices =>
      keeps_forEach (keeps_flattenPosition prices now) positions
  | longTermAlert enabled a =>
    refine keeps_txn fun s _ s' hl h => ?_
    obtain ⟨s'', hs, heq⟩ := Option.map_eq_some_iff.1 h
    obtain ⟨-, rfl⟩ := Prod.mk.inj heq
    exact posts_handleLongTermAlert hl hs
  | longTermTick e => exact keeps_write fun s hl => posts_handleLongTermMarketTick hl
  | dcaCycle now =>
    refine keeps_bind (keeps_write fun s hl => .of_eq hl rfl rfl rfl rfl rfl rfl rfl) fun _ => ?_
    exact keeps_bind keeps_read fun positions => keeps_bind keeps_read fun prices => keeps_bind keeps_read
      fun summary => keeps_bind (keeps_foldEach (keeps_dcaPosition prices summary.1 now) positions summary.2)
        fun _ => trivial
  | updateTradeAllocation amount => exact keeps_write fun s hl => .of_eq hl rfl rfl rfl rfl rfl rfl rfl
  | updateDcaContribution amount => exact keeps_write fun s hl => .of_eq hl rfl rfl rfl rfl rfl rfl rfl
  | recordAccountBlock now account r ref => exact keeps_write fun s hl => .of_eq hl rfl rfl rfl rfl rfl rfl rfl
  | attemptBlockClearance now q allow =>
    refine keeps_txn fun s _ s' hl h => ?_
    obtain ⟨r, hr, heq⟩ := Option.map_eq_some_iff.1 h
    obtain ⟨-, rfl⟩ := Prod.mk.inj heq
    obtain ⟨q', -, rfl⟩ := Option.map_eq_some_iff.1 hr
    exact .of_eq hl rfl rfl rfl rfl rfl rfl rfl

/-! ## Every interleaving -/

/-- The books of the file: what a full exit deleted is small, and there is one such residual for each full exit. -/
structure PaperStore.Conserved (s : PaperStore) : Prop where
  intraday : s.portfolio.currentCash + (s.positions.rows.map (·.costBasis)).sum =
    s.portfolio.initialBalance + s.portfolio.totalRealizedPnlUsd
  longTerm : s.longTermPortfolio.currentCash +
      (s.longTermPositions.rows.map fun p => p.totalShares * p.avgCostBasis).sum +
      (s.discarded.map fun d => d.shares * d.avgCostBasis).sum =
    s.longTermPortfolio.initialBalance + s.longTermPortfolio.totalRealizedPnlUsd
  residuals : (∀ d ∈ s.discarded, 0 ≤ d.shares ∧ d.shares ≤ 1 / 1000000000) ∧
    s.discarded.length = s.longTermTradeHistory.countP fun t => t.totalSharesAfter.isNone
  counts : s.portfolio.winCount + s.portfolio.lossCount = s.tradeHistory.countP (·.orderType = .sell) ∧
    s.longTermPortfolio.winCount + s.longTermPortfolio.lossCount =
      s.longTermTradeHistory.countP (·.orderType = .sell)

/-- Neither pool is overdrawn by more than the tolerance of the store. -/
def PaperStore.Covered (s : PaperStore) : Prop :=
  -(1 / 1000000) ≤ s.portfolio.currentCash ∧ -(1 / 1000000) ≤ s.longTermPortfolio.currentCash

variable {ι : Type} [DecidableEq ι]

def paperStarts (cfg : PaperConfig) (_ : ι) (p : Prog PaperCall PaperStore Unit) : Prop :=
  ∃ j : PaperJob, p = j.prog cfg

/-- No call that commits sells a position at a negative price. -/
def sellsNonneg (cfg : PaperConfig) (S : Sys ι PaperCall PaperStore) : Move ι PaperCall → Prop
  | .commit _ l => FillNonneg cfg S.store l
  | _ => True

theorem conserved_of_balanced {s : PaperStore} (hl : s.Lots) (hi : s.intraday.Balanced) (hlt : s.longTerm.Balanced) :
    s.Conserved where
  intraday := hi.money
  longTerm := by
    have hmoney := hlt.money
    simp only [PaperStore.longTerm, ← add_assoc] at hmoney
    exact hmoney
  residuals := ⟨fun d hd => ⟨hl.discarded d hd, d.small⟩, hl.exits⟩
  counts := ⟨hi.counts, hlt.counts⟩

theorem lots_init (b a lb d : ℚ) : (PaperStore.init b a lb d).Lots := ⟨nofun, nofun, nofun, rfl⟩

/-- A fresh file has sold nothing and realised nothing. -/
theorem balanced_init (b a lb d : ℚ) :
    (PaperStore.init b a lb d).intraday.Balanced ∧ (PaperStore.init b a lb d).longTerm.Balanced :=
  ⟨⟨by simp [PaperStore.intraday, PaperStore.init, Table.empty], rfl⟩,
    ⟨by simp [PaperStore.longTerm, PaperStore.init, Table.empty], rfl⟩⟩

/-- The books balance whatever the fills were. -/
theorem ledger_balanced {cfg : PaperConfig} {b a lb d : ℚ} {allow : Sys ι PaperCall PaperStore → Move ι PaperCall → Prop}
    {S : Sys ι PaperCall PaperStore}
    (h : Reach (paperStarts cfg) allow (Sys.idle (PaperStore.init b a lb d)) S) : S.store.Conserved := by
  obtain ⟨hl, hi, hlt⟩ := h.inv_of_keeps (I := PaperStore.Lots) (G := LedgerCall cfg)
    (J := fun s => s.intraday.Balanced ∧ s.longTerm.Balanced) (by rintro i p ⟨j, rfl⟩; exact j.posts cfg)
    (lots_init b a lb d) (balanced_init b a lb d)
    fun S i l s' _ _ hp hJ => ⟨hp.intraday.balanced hJ.1, hp.longTerm.balanced hJ.2⟩
  exact conserved_of_balanced hl hi hlt

/-- In every interleaving of what runs on a fresh file, whatever raises or crashes, in which no position is sold at a
negative price: cash and the cost of what is held make up the initial balance and what was realised, in each lane; no pool
is overdrawn by more than the tolerance; and each sale was counted once. -/
theorem original_ledger_conserved {cfg : PaperConfig} {b a lb d : ℚ} {S : Sys ι PaperCall PaperStore}
    (hb : -(1 / 1000000) ≤ b) (hlb : -(1 / 1000000) ≤ lb)
    (h : Reach (paperStarts cfg) (sellsNonneg cfg) (Sys.idle (PaperStore.init b a lb d)) S) :
    S.store.Conserved ∧ S.store.Covered := by
  refine ⟨ledger_balanced h, ?_⟩
  have hcovered := h.inv_of_keeps (I := PaperStore.Lots) (G := LedgerCall cfg) (J := PaperStore.Covered)
    (by rintro i p ⟨j, rfl⟩; exact j.posts cfg) (lots_init b a lb d) ⟨hb, hlb⟩
    fun S i l s' ha _ hp hJ => ⟨hp.intraday.cash_ge ha hJ.1, hp.longTerm.cash_ge ha hJ.2⟩
  exact hcovered.2

/-! ## Samples -/

def bullishAt (price : ℚ) : ActionableAlert :=
  { ticker := "AAA", action := .confirmedBullish, triggeringSignal := { price := price }, correlatedAt := ⟨0, true⟩ }

/-- One process opens a position on the alert, another one is handed a bar that closes at the given price. -/
def boughtBeforeBar (close : ℚ) : Sys Bool PaperCall PaperStore :=
  (((Sys.idle (PaperStore.init 10000 2000 5000 100)).start true
    (PaperJob.prog {} (.alert ["AAA"] (bullishAt 10)))).commit true).start false
      (PaperJob.prog {} (.tick ⟨.bar, "AAA", some close⟩ ⟨60, true⟩))

theorem reach_boughtBeforeBar (close : ℚ) :
    Reach (paperStarts {}) (sellsNonneg {}) (Sys.idle (PaperStore.init 10000 2000 5000 100)) (boughtBeforeBar close) := by
  have hbuy : ∀ S : Sys Bool PaperCall PaperStore, S.store = PaperStore.init 10000 2000 5000 100 →
      sellsNonneg {} S (.commit true (.alert ["AAA"] (bullishAt 10))) := by
    intro S hS fill hfill
    rw [hS] at hfill
    cases hfill
  have hstart : Reach (paperStarts {}) (sellsNonneg {}) (Sys.idle (PaperStore.init 10000 2000 5000 100)) _ :=
    Reach.refl.step (.start (i := true) rfl ⟨.alert ["AAA"] (bullishAt 10), rfl⟩) trivial
  exact (hstart.commitAs rfl (hbuy _ rfl)).step (.start (i := false) rfl ⟨_, rfl⟩) trivial

/-- The bar takes the profit. -/
theorem original_ledger_conserved_sample :
    let S := (boughtBeforeBar 11).commit false
    S.store.tradeHistory.length = 2 ∧ S.store.portfolio.winCount = 1 ∧ S.store.Conserved ∧ S.store.Covered := by
  intro S
  have hfill : FillNonneg {} (boughtBeforeBar 11).store (.tick ⟨.bar, "AAA", some 11⟩) := by
    unfold FillNonneg
    decide +kernel
  have hreach : Reach (paperStarts {}) (sellsNonneg {}) (Sys.idle (PaperStore.init 10000 2000 5000 100)) S :=
    (reach_boughtBeforeBar 11).commitAs (i := false) rfl hfill
  exact ⟨by decide +kernel, by decide +kernel, original_ledger_conserved (by norm_num) (by norm_num) hreach⟩

/-- A bar that closes below zero stops the position out at that price. -/
theorem original_cash_overdrawn :
    ∃ S : Sys Bool PaperCall PaperStore,
      Reach (paperStarts {}) (fun _ _ => True) (Sys.idle (PaperStore.init 10000 2000 5000 100)) S ∧
        S.store.portfolio.currentCash < -(1 / 1000000) := by
  have hreach : Reach (paperStarts {}) (fun _ _ => True) (Sys.idle (PaperStore.init 10000 2000 5000 100))
      ((boughtBeforeBar (-100)).commit false) := by
    have hstart : Reach (paperStarts {}) (fun _ _ => True) (Sys.idle (PaperStore.init 10000 2000 5000 100)) _ :=
      (Reach.refl.start (i := true) rfl ⟨.alert ["AAA"] (bullishAt 10), rfl⟩).commit true
    exact (hstart.start (i := false) rfl ⟨_, rfl⟩).commit false
  exact ⟨_, hreach, by decide +kernel⟩

end TalonX.Paper
