import TalonX.Transact.WalFile
import TalonX.Paper.Consumer

/-!
# Several instances of the Original store

Each instance of `PaperTradingStore` is a connection of its own to the one file. Its methods are here the statements that
they execute, in order: what a method reads before its first write it reads without a lock.

- `Lane`: the two pools with their accounts;
- `Stmt`: the call sites, with the cash a transaction moves and the cash it read before;
- `executeBuy`, `executeSell`, `executeLongTermBuy`, `executeDcaContribution`, `executeLongTermSell`: the trades;
- `recordAccountBlock`, `clearBlock`: the gate and its operator;
- `executeBuy_alone` and its siblings: a method that runs undisturbed does what the store's method does.
-/

set_option autoImplicit false

namespace TalonX.Paper

open Transact Ops V2

inductive Lane
  | intraday
  | longTerm
  deriving DecidableEq, Repr

def Lane.accountId : Lane → String
  | .intraday => originalIntradayAccountId
  | .longTerm => originalLongtermAccountId

/-- `SELECT current_cash`. -/
def Lane.cash : Lane → PaperStore → ℚ
  | .intraday, s => s.portfolio.currentCash
  | .longTerm, s => s.longTermPortfolio.currentCash

/-- The statements of the methods. -/
inductive Stmt
  /-- `with self._lock`. -/
  | acquire
  /-- A `SELECT` outside a transaction. -/
  | select
  /-- `INSERT INTO ignored_decisions`. -/
  | ignore
  /-- The `UPDATE` that opens the transaction of a trade: the cash it read, and what the trade costs or brings in. -/
  | move (lane : Lane) (side : Side) (cash amount : ℚ)
  /-- A further statement of the transaction, which has moved `amount` and not recorded it so far. -/
  | book (lane : Lane) (side : Side) (amount : ℚ)
  /-- A `SELECT` inside a transaction. -/
  | inspect
  /-- A write to the tables of the account blocks. -/
  | blocks
  /-- `BEGIN IMMEDIATE`. -/
  | begin
  | commit
  | rollback

/-- A program of one instance. -/
abbrev InstanceProg (ι α : Type) := Prog Stmt (WalFile ι PaperStore) α

section Methods

variable {ι α : Type} [DecidableEq ι] (i : ι)

omit [DecidableEq ι] in
def acquire : InstanceProg ι Unit := Prog.read .acquire fun _ => ()

/-- One row in `ignored_decisions`, and no execution. -/
def refuse (g : PaperStore → PaperStore) : InstanceProg ι (Option α) := do
  WalFile.write .ignore i g
  WalFile.doCommit .commit i
  pure none

/-! ## The intraday lane -/

/-- What `execute_buy` writes, with the cash it read. -/
def buyRows (ticker : Ticker) (shares price cost : ℚ) (t : Timestamp) (stop target : Option ℚ) (cash : ℚ) :
    InstanceProg ι (Option TradeRow) := do
  let trade := PaperStore.buyTrade ticker shares price cost (cash - cost) t
  WalFile.write (.move .intraday .buy cash cost) i (·.setCash (cash - cost))
  WalFile.attempt (.book .intraday .buy cost) i
    (·.insertPosition (PaperStore.buyPosition ticker shares price cost t stop target))
  WalFile.write (.book .intraday .buy cost) i (·.appendTrade trade)
  let _ ← WalFile.select .inspect i fun s => (s.portfolio.totalRealizedPnlUsd, s.portfolio.initialBalance)
  WalFile.doCommit .commit i
  pure (some trade)

def executeBuy (ticker : Ticker) (shares price cost : ℚ) (t : Timestamp) (stop target : Option ℚ) :
    InstanceProg ι (Option TradeRow) := do
  acquire
  let br ← WalFile.select .select i (·.blockedReason originalIntradayAccountId)
  match br with
  | some blocks => refuse i (·.recordIgnored ticker (.accountBlocked blocks) .confirmedBullish price t .intraday)
  | none => do
    let cash ← WalFile.select .select i (·.portfolio.currentCash)
    if cash + 1 / 1000000 < cost then
      refuse i (·.recordIgnored ticker (.insufficientCashAtExecution cost cash) .confirmedBullish price t .intraday)
    else buyRows i ticker shares price cost t stop target cash

/-- What `execute_sell` writes, with the rows it read. -/
def sellRows (pos : Position) (exitPrice : ℚ) (t : Timestamp) (action : AlertAction) (held : ℤ)
    (portfolio : Portfolio) : InstanceProg ι (Option TradeRow) := do
  let settled := portfolio.settle (pos.shares * exitPrice) (calculateSellPnl pos.shares pos.entryPrice exitPrice).1
  let trade := PaperStore.sellTrade pos exitPrice t action held settled.currentCash
  WalFile.write (.move .intraday .sell portfolio.currentCash (pos.shares * exitPrice)) i (·.setPortfolio settled)
  WalFile.write (.book .intraday .sell (pos.shares * exitPrice)) i (·.deletePosition pos.ticker)
  WalFile.write (.book .intraday .sell (pos.shares * exitPrice)) i (·.appendTrade trade)
  WalFile.doCommit .commit i
  pure (some trade)

def executeSell (ticker : Ticker) (exitPrice : ℚ) (t : Timestamp) (action : AlertAction) :
    InstanceProg ι (Option TradeRow) := do
  acquire
  let row ← WalFile.select .select i (·.getPosition ticker)
  match row with
  | none => pure none
  | some pos =>
    match t.minus pos.entryTimestamp with
    | none => .raise
    | some held => do
      let portfolio ← WalFile.select .select i (·.portfolio)
      sellRows i pos exitPrice t action held portfolio

/-! ## The long-term lane -/

/-- What `execute_long_term_buy` writes, with the cash it read. -/
def longTermBuyRows (ticker : Ticker) (shares price cost : ℚ) (t : Timestamp) (cash : ℚ) :
    InstanceProg ι (Option LongTermTradeRow) := do
  let trade := PaperStore.longTermBuyTrade ticker shares price cost (cash - cost) t
  WalFile.write (.move .longTerm .buy cash cost) i (·.setLongTermCash (cash - cost))
  WalFile.attempt (.book .longTerm .buy cost) i (·.insertLongTermPosition ⟨ticker.toUpper, shares, price, t, cost⟩)
  WalFile.write (.book .longTerm .buy cost) i (·.appendLongTermTrade trade)
  WalFile.doCommit .commit i
  pure (some trade)

def executeLongTermBuy (ticker : Ticker) (shares price cost : ℚ) (t : Timestamp) :
    InstanceProg ι (Option LongTermTradeRow) := do
  acquire
  let br ← WalFile.select .select i (·.blockedReason originalLongtermAccountId)
  match br with
  | some blocks => refuse i (·.recordIgnored ticker (.accountBlocked blocks) .highConvictionBuy price t .longTerm)
  | none => do
    let cash ← WalFile.select .select i (·.longTermPortfolio.currentCash)
    if cash + 1 / 1000000 < cost then
      refuse i (·.recordIgnored ticker (.insufficientCashAtExecution cost cash) .highConvictionBuy price t .longTerm)
    else longTermBuyRows i ticker shares price cost t cash

/-- What `execute_dca_contribution` writes, with the rows it read. -/
def dcaRows (pos : LongTermPosition) (contributionUsd price : ℚ) (t : Timestamp) (cash : ℚ) :
    InstanceProg ι (Option LongTermTradeRow) := do
  let trade := PaperStore.dcaTrade pos contributionUsd price (cash - contributionUsd) t
  WalFile.write (.move .longTerm .buy cash contributionUsd) i (·.setLongTermCash (cash - contributionUsd))
  WalFile.write (.book .longTerm .buy contributionUsd) i
    (·.updateLongTermPosition (PaperStore.contribute contributionUsd price pos))
  WalFile.write (.book .longTerm .buy contributionUsd) i (·.appendLongTermTrade trade)
  WalFile.doCommit .commit i
  pure (some trade)

def executeDcaContribution (ticker : Ticker) (contributionUsd price : ℚ) (t : Timestamp) :
    InstanceProg ι (Option LongTermTradeRow) := do
  acquire
  let br ← WalFile.select .select i (·.blockedReason originalLongtermAccountId)
  match br with
  | some blocks => refuse i (·.recordIgnored ticker (.accountBlocked blocks) .dcaContribution price t .longTerm)
  | none => do
    let row ← WalFile.select .select i (·.getLongTermPosition ticker)
    match row with
    | none => pure none
    | some pos =>
      if price ≤ 0 ∨ contributionUsd ≤ 0 then pure none
      else do
        let cash ← WalFile.select .select i (·.longTermPortfolio.currentCash)
        if cash + 1 / 1000000 < contributionUsd then
          refuse i (·.recordIgnored ticker (.insufficientCashAtExecution contributionUsd cash) .dcaContribution price t
            .longTerm)
        else dcaRows i pos contributionUsd price t cash

/-- What `execute_long_term_sell` writes, with the rows it read. -/
def longTermSellRows (pos : LongTermPosition) (fraction exitPrice : ℚ) (t : Timestamp) (action : AlertAction)
    (held : ℤ) (portfolio : Portfolio) : InstanceProg ι (Option LongTermTradeRow) := do
  let sold := pos.totalShares * fraction
  let settled := portfolio.settle (sold * exitPrice) (calculatePartialSellPnl sold pos.avgCostBasis exitPrice).1
  let trade := PaperStore.longTermSellTrade pos fraction exitPrice t action (held / 86400) settled.currentCash
  WalFile.write (.move .longTerm .sell portfolio.currentCash (sold * exitPrice)) i (·.setLongTermPortfolio settled)
  WalFile.write (.book .longTerm .sell (sold * exitPrice)) i (·.trimPosition fraction pos)
  WalFile.write (.book .longTerm .sell (sold * exitPrice)) i (·.appendLongTermTrade trade)
  WalFile.doCommit .commit i
  pure (some trade)

def executeLongTermSell (ticker : Ticker) (trimFraction exitPrice : ℚ) (t : Timestamp) (action : AlertAction) :
    InstanceProg ι (Option LongTermTradeRow) := do
  acquire
  let row ← WalFile.select .select i (·.getLongTermPosition ticker)
  match row with
  | none => pure none
  | some pos =>
    match t.minus pos.firstEntryAt with
    | none => .raise
    | some held => do
      let portfolio ← WalFile.select .select i (·.longTermPortfolio)
      longTermSellRows i pos (PaperStore.clampFraction trimFraction) exitPrice t action held portfolio

/-! ## The gate -/

def recordAccountBlock (now : Instant) (accountId : String) (reasonType : BlockReason) (reference : String) :
    InstanceProg ι Unit := do
  acquire
  WalFile.write .blocks i (·.recordAccountBlock now accountId reasonType reference)
  WalFile.doCommit .commit i

/-- `BEGIN IMMEDIATE`: raises inside an open transaction. -/
def beginImmediate : InstanceProg ι Unit :=
  .call .begin (fun f => f.put i (f.view i))
    (fun f => if f.writer.any (·.1 = i) then .raise else .ret ()) .raise

/-- `_check_block`. -/
def checkBlock (lane : Lane) (b : Option Block) : Option Block := b.filter (·.accountId = lane.accountId)

/-- `verify_clearance_eligible` of an Original account; `reconciled` is what a fresh reconciliation finds. The query for
an unresolved exit names columns that the `positions` of this file do not have. -/
def verifyOriginalClearance (reconciled : Bool) (lane : Lane) (b : Block) : Option Bool :=
  if b.status ≠ .active then some false
  else
    match b.reasonType with
    | .exitUnresolved => none
    | .ledgerMismatch =>
      some (lane = .intraday && b.reference = "original_paper_open_with_no_trades" && reconciled)
    | _ => some false

/-- The body of `clear_block` under the lock. -/
def clearLocked (lane : Lane) (reconciled : Bool) (now : Instant) (q : ClearanceRequest) : InstanceProg ι Unit := do
  let row ← WalFile.select .inspect i (·.blocks.getBlock q.blockId)
  match (checkBlock lane row).bind (verifyOriginalClearance reconciled lane) with
  | none => .raise
  | some allow => do
    WalFile.attempt .blocks i (·.attemptBlockClearance now q allow)
    WalFile.doCommit .commit i

/-- `clear_block` of an Original account. -/
def clearBlock (lane : Lane) (reconciled : Bool) (now : Instant) (q : ClearanceRequest) : InstanceProg ι Unit := do
  acquire
  beginImmediate i
  (clearLocked i lane reconciled now q).tryCatch do
    WalFile.doRollback .rollback i
    .raise

/-! ## What runs on an instance -/

/-- A closed connection loses its open transaction; the instance is opened anew. -/
def reopen : InstanceProg ι Unit := WalFile.doRollback .rollback i

end Methods

inductive InstanceJob
  | executeBuy (ticker : Ticker) (shares price cost : ℚ) (t : Timestamp) (stop target : Option ℚ)
  | executeSell (ticker : Ticker) (exitPrice : ℚ) (t : Timestamp) (action : AlertAction)
  | executeLongTermBuy (ticker : Ticker) (shares price cost : ℚ) (t : Timestamp)
  | executeDcaContribution (ticker : Ticker) (contributionUsd price : ℚ) (t : Timestamp)
  | executeLongTermSell (ticker : Ticker) (trimFraction exitPrice : ℚ) (t : Timestamp) (action : AlertAction)
  | recordAccountBlock (now : Instant) (accountId : String) (reasonType : BlockReason) (reference : String)
  | clearBlock (lane : Lane) (reconciled : Bool) (now : Instant) (q : ClearanceRequest)
  | reopen

/-- The result of a method is no further part of the run. -/
def InstanceJob.prog {ι : Type} [DecidableEq ι] (i : ι) : InstanceJob → InstanceProg ι Unit
  | .executeBuy ticker shares price cost t stop target =>
    (Paper.executeBuy i ticker shares price cost t stop target).bind fun _ => .ret ()
  | .executeSell ticker exitPrice t action => (Paper.executeSell i ticker exitPrice t action).bind fun _ => .ret ()
  | .executeLongTermBuy ticker shares price cost t =>
    (Paper.executeLongTermBuy i ticker shares price cost t).bind fun _ => .ret ()
  | .executeDcaContribution ticker contributionUsd price t =>
    (Paper.executeDcaContribution i ticker contributionUsd price t).bind fun _ => .ret ()
  | .executeLongTermSell ticker trimFraction exitPrice t action =>
    (Paper.executeLongTermSell i ticker trimFraction exitPrice t action).bind fun _ => .ret ()
  | .recordAccountBlock now accountId reasonType reference => Paper.recordAccountBlock i now accountId reasonType reference
  | .clearBlock lane reconciled now q => Paper.clearBlock i lane reconciled now q
  | .reopen => Paper.reopen i

/-! ## A method that runs undisturbed -/

section Alone

variable {ι α β : Type} [DecidableEq ι] {i : ι} {s s' : PaperStore}

omit [DecidableEq ι] in
theorem exec_acquire_bind {k : Unit → InstanceProg ι β} (f : WalFile ι PaperStore) :
    (exec (acquire.bind k) [] f).2 = (exec (k ()) [] f).2 := rfl

theorem exec_refuse {g : PaperStore → PaperStore} :
    (exec (refuse i g : InstanceProg ι (Option α)) [] ⟨s, none⟩).2 = (⟨g s, none⟩, .done none) := by
  simp only [refuse, Prog.bind_eq, WalFile.exec_write_bind, WalFile.exec_commit_bind, WalFile.commit_put,
    WalFile.view_closed]
  rfl

theorem executeBuy_alone {ticker : Ticker} {shares price cost : ℚ} {t : Timestamp} {stop target : Option ℚ}
    {e : Option TradeRow} (h : s.executeBuy ticker shares price cost t stop target = some (e, s')) :
    (exec (executeBuy i ticker shares price cost t stop target) [] ⟨s, none⟩).2 = (⟨s', none⟩, .done e) := by
  unfold executeBuy
  simp only [Prog.bind_eq, exec_acquire_bind, WalFile.exec_select_closed]
  unfold PaperStore.executeBuy PaperStore.refuseBuy at h
  cases hgate : s.blockedReason originalIntradayAccountId with
  | some blocks =>
    rw [hgate] at h
    obtain ⟨rfl, rfl⟩ := Prod.mk.inj (Option.some.inj h)
    exact exec_refuse
  | none =>
    rw [hgate] at h
    simp only [WalFile.exec_select_closed]
    by_cases hcash : s.portfolio.currentCash + 1 / 1000000 < cost
    · simp only [if_pos hcash] at h ⊢
      obtain ⟨rfl, rfl⟩ := Prod.mk.inj (Option.some.inj h)
      exact exec_refuse
    · simp only [if_neg hcash] at h ⊢
      obtain ⟨s1, h1, heq⟩ := Option.map_eq_some_iff.1 h
      obtain ⟨rfl, rfl⟩ := Prod.mk.inj heq
      simp only [buyRows, Prog.bind_eq, WalFile.exec_write_bind, WalFile.view_closed]
      rw [WalFile.exec_attempt_bind (by rw [WalFile.view_put]; exact h1)]
      simp only [WalFile.exec_write_bind, WalFile.exec_select_bind, WalFile.exec_commit_bind, WalFile.view_put,
        WalFile.put_put, WalFile.commit_put]
      rfl

theorem executeSell_alone {ticker : Ticker} {exitPrice : ℚ} {t : Timestamp} {action : AlertAction}
    {e : Option TradeRow} (h : s.executeSell ticker exitPrice t action = some (e, s')) :
    (exec (executeSell i ticker exitPrice t action) [] ⟨s, none⟩).2 = (⟨s', none⟩, .done e) := by
  unfold executeSell
  simp only [Prog.bind_eq, exec_acquire_bind, WalFile.exec_select_closed]
  unfold PaperStore.executeSell at h
  cases hpos : s.getPosition ticker with
  | none =>
    rw [hpos] at h
    obtain ⟨rfl, rfl⟩ := Prod.mk.inj (Option.some.inj h)
    rfl
  | some pos =>
    rw [hpos] at h
    cases hheld : t.minus pos.entryTimestamp with
    | none => simp [hheld] at h
    | some held =>
      simp only [hheld] at h ⊢
      obtain ⟨rfl, rfl⟩ := Prod.mk.inj (Option.some.inj h)
      simp only [sellRows, Prog.bind_eq, WalFile.exec_select_closed, WalFile.exec_write_bind, WalFile.exec_commit_bind,
        WalFile.view_closed, WalFile.view_put, WalFile.put_put, WalFile.commit_put]
      rfl

theorem executeLongTermBuy_alone {ticker : Ticker} {shares price cost : ℚ} {t : Timestamp}
    {e : Option LongTermTradeRow} (h : s.executeLongTermBuy ticker shares price cost t = some (e, s')) :
    (exec (executeLongTermBuy i ticker shares price cost t) [] ⟨s, none⟩).2 = (⟨s', none⟩, .done e) := by
  unfold executeLongTermBuy
  simp only [Prog.bind_eq, exec_acquire_bind, WalFile.exec_select_closed]
  unfold PaperStore.executeLongTermBuy PaperStore.refuseBuy at h
  cases hgate : s.blockedReason originalLongtermAccountId with
  | some blocks =>
    rw [hgate] at h
    obtain ⟨rfl, rfl⟩ := Prod.mk.inj (Option.some.inj h)
    exact exec_refuse
  | none =>
    rw [hgate] at h
    simp only [WalFile.exec_select_closed]
    by_cases hcash : s.longTermPortfolio.currentCash + 1 / 1000000 < cost
    · simp only [if_pos hcash] at h ⊢
      obtain ⟨rfl, rfl⟩ := Prod.mk.inj (Option.some.inj h)
      exact exec_refuse
    · simp only [if_neg hcash] at h ⊢
      obtain ⟨s1, h1, heq⟩ := Option.map_eq_some_iff.1 h
      obtain ⟨rfl, rfl⟩ := Prod.mk.inj heq
      simp only [longTermBuyRows, Prog.bind_eq, WalFile.exec_write_bind, WalFile.view_closed]
      rw [WalFile.exec_attempt_bind (by rw [WalFile.view_put]; exact h1)]
      simp only [WalFile.exec_write_bind, WalFile.exec_commit_bind, WalFile.view_put, WalFile.put_put,
        WalFile.commit_put]
      rfl

theorem executeDcaContribution_alone {ticker : Ticker} {contributionUsd price : ℚ} {t : Timestamp} :
    (exec (executeDcaContribution i ticker contributionUsd price t) [] ⟨s, none⟩).2 =
      (⟨(s.executeDcaContribution ticker contributionUsd price t).2, none⟩,
        .done (s.executeDcaContribution ticker contributionUsd price t).1) := by
  unfold executeDcaContribution PaperStore.executeDcaContribution
  simp only [Prog.bind_eq, exec_acquire_bind, WalFile.exec_select_closed]
  cases hgate : s.blockedReason originalLongtermAccountId with
  | some blocks => exact exec_refuse
  | none =>
    simp only [WalFile.exec_select_closed]
    cases hpos : s.getLongTermPosition ticker with
    | none => rfl
    | some pos =>
      by_cases hprice : price ≤ 0 ∨ contributionUsd ≤ 0
      · simp only [if_pos hprice]
        rfl
      · simp only [if_neg hprice, WalFile.exec_select_closed]
        by_cases hcash : s.longTermPortfolio.currentCash + 1 / 1000000 < contributionUsd
        · simp only [if_pos hcash]
          exact exec_refuse
        · simp only [if_neg hcash, dcaRows, Prog.bind_eq, WalFile.exec_write_bind, WalFile.exec_commit_bind,
            WalFile.view_closed, WalFile.view_put, WalFile.put_put, WalFile.commit_put]
          rfl

theorem executeLongTermSell_alone {ticker : Ticker} {trimFraction exitPrice : ℚ} {t : Timestamp}
    {action : AlertAction} {e : Option LongTermTradeRow}
    (h : s.executeLongTermSell ticker trimFraction exitPrice t action = some (e, s')) :
    (exec (executeLongTermSell i ticker trimFraction exitPrice t action) [] ⟨s, none⟩).2 =
      (⟨s', none⟩, .done e) := by
  unfold executeLongTermSell
  simp only [Prog.bind_eq, exec_acquire_bind, WalFile.exec_select_closed]
  unfold PaperStore.executeLongTermSell at h
  cases hpos : s.getLongTermPosition ticker with
  | none =>
    rw [hpos] at h
    obtain ⟨rfl, rfl⟩ := Prod.mk.inj (Option.some.inj h)
    rfl
  | some pos =>
    rw [hpos] at h
    cases hheld : t.minus pos.firstEntryAt with
    | none => simp [hheld] at h
    | some held =>
      simp only [hheld] at h ⊢
      obtain ⟨rfl, rfl⟩ := Prod.mk.inj (Option.some.inj h)
      simp only [longTermSellRows, Prog.bind_eq, WalFile.exec_select_closed, WalFile.exec_write_bind,
        WalFile.exec_commit_bind, WalFile.view_closed, WalFile.view_put, WalFile.put_put, WalFile.commit_put]
      rfl

end Alone

end TalonX.Paper
