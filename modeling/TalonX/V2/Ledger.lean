import TalonX.Ops.LedgerGuard
import TalonX.V2.Paper

/-!
# Conservation of the ledger

The abstract side is a book of account totals with four postings (`Book.Post`); the postings keep it balanced and never
overdraw it. Every transaction of the ledger, committed or rolled back, is one posting of the totals of its tables
(`LedgerOp.posts`), so every serialised sequence of transactions leaves a balanced ledger (`ledger_conserved`).
-/

set_option autoImplicit false

namespace TalonX.V2

open Transact TalonX.Ops

/-! ## The book -/

structure Book where
  start : ℚ
  cash : ℚ
  held : ℚ
  realized : ℚ
  credited : ℚ
  buys : ℕ
  sells : ℕ
  lives : ℕ

namespace Book

/-- What may happen to the totals. -/
inductive Post (b : Book) : Book → Prop
  | idle : Post b b
  | buy (cost : ℚ) : 0 < cost → cost ≤ b.cash →
      Post b { b with cash := b.cash - cost, held := b.held + cost, buys := b.buys + 1, lives := b.lives + 1 }
  | sell (cost net : ℚ) (n : ℕ) : 0 ≤ net → b.lives = n + 1 →
      Post b { b with
        cash := b.cash + net, held := b.held - cost, realized := b.realized + (net - cost), sells := b.sells + 1,
        lives := n }
  | credit (amount : ℚ) : 0 ≤ amount →
      Post b { b with cash := b.cash + amount, credited := b.credited + amount }

/-- Money and lives are accounted for. -/
structure Balanced (b : Book) : Prop where
  money : b.cash + b.held = b.start + b.realized + b.credited
  trades : b.buys = b.sells + b.lives

variable {b b' : Book}

theorem Post.balanced (h : Post b b') (hb : b.Balanced) : b'.Balanced := by
  obtain ⟨hm, ht⟩ := hb
  cases h with
  | idle => exact ⟨hm, ht⟩
  | buy cost _ _ => exact ⟨by dsimp only; linarith, by dsimp only; omega⟩
  | sell cost net n _ hn => exact ⟨by dsimp only; linarith, by dsimp only; omega⟩
  | credit amount _ => exact ⟨by dsimp only; linarith, ht⟩

theorem Post.start_eq (h : Post b b') : b'.start = b.start := by cases h <;> rfl

/-- A posting never overdraws. -/
theorem Post.cash_nonneg (h : Post b b') (hb : 0 ≤ b.cash) : 0 ≤ b'.cash := by
  cases h with
  | idle => exact hb
  | buy cost _ hc => exact sub_nonneg.2 hc
  | sell cost net n hn _ => exact add_nonneg hb hn
  | credit amount ha => exact add_nonneg hb ha

end Book

/-- The totals of the ledger's tables. -/
def Store.book (s : Store) : Book where
  start := s.startingCash
  cash := s.cash
  held := costOf s .open + costOf s .exitUnresolved
  realized := realizedTotal s
  credited := creditedTotal s
  buys := nTrades s .buy
  sells := nTrades s .sell
  lives := nStatus s .open + nStatus s .exitUnresolved

/-! ## The transactions -/

inductive LedgerOp
  | enterPosition (d : Decision) (entryPrice : Option ℚ) (es : Date) (feeFn : FeeFn) (provenance : Option Provenance)
  | closePosition (position : Position) (exitPrice : ℚ) (es : Date) (feeFn : FeeFn) (provenance : Option Provenance)
      (dividends : List CorporateActionEvent)
  | markExitUnresolved (pid : ℕ)
  | applyPositionAction (pid : ℕ) (ev : CorporateActionEvent) (status : TrailStatus)
  | recordDividendEntitlement (pid : ℕ) (ev : CorporateActionEvent) (exitSession : Date)
  | creditDividend (eid : ℕ) (asOf : Date)

namespace LedgerOp

/-- One transaction; a call that raises is rolled back. -/
def run (cal : Calendar) (cfg : V2Config) : LedgerOp → Store → Store
  | .enterPosition d price es feeFn prov, s => ((V2.enterPosition cal cfg feeFn s d price es prov).map (·.2)).getD s
  | .closePosition pos price es feeFn prov divs, s =>
    ((V2.closePosition cal cfg feeFn s pos price es prov divs).map (·.2)).getD s
  | .markExitUnresolved pid, s => (s.markExitUnresolved cfg.campaignId pid).getD s
  | .applyPositionAction pid ev status, s => (s.applyPositionAction pid ev status).2
  | .recordDividendEntitlement pid ev es, s => ((s.recordDividendEntitlement pid ev es).map (·.2)).getD s
  | .creditDividend eid asOf, s => (s.creditDividend eid asOf).2

/-- The fee of a closing trade is at most its notional, whatever the quantity. -/
def FeeBounded : LedgerOp → Prop
  | .closePosition _ price _ feeFn _ _ => ∀ q, 0 ≤ q → feeFn.fee q price ≤ q * price
  | _ => True

/-- Transactions of any number of processes, in the order the write lock serialises them. -/
def runAll {ι : Type} (cal : Calendar) (cfg : V2Config) (ops : List (ι × LedgerOp)) (s : Store) : Store :=
  ops.foldl (fun s op => op.2.run cal cfg s) s

end LedgerOp

/-! ## Every transaction is a posting -/

/-- Amounts of entitlements are not negative. -/
def AmountsNonneg (s : Store) : Prop := ∀ e ∈ s.entitlements.rows, 0 ≤ e.amountUsd

variable {cal : Calendar} {cfg : V2Config} {s s' : Store}

/-- The totals only read cash, positions, trades and entitlements. -/
theorem book_eq_of_tables (hst : s'.startingCash = s.startingCash) (hc : s'.cash = s.cash)
    (hp : s'.positions.rows = s.positions.rows) (ht : s'.trades = s.trades)
    (he : s'.entitlements.rows = s.entitlements.rows) : s'.book = s.book := by
  simp only [Store.book, costOf, realizedTotal, creditedTotal, nTrades, nStatus, hst, hc, hp, ht, he]

/-- Accrued rows are not part of any total. -/
theorem creditedTotal_append {ents : SeqTable Entitlement.entitlementId Entitlement.key} {new : List Entitlement}
    (hrows : ents.rows = s.entitlements.rows ++ new) (hnew : ∀ e ∈ new, e.state = .accrued) :
    creditedTotal { s with entitlements := ents } = creditedTotal s := by
  have hz : sumWhere (fun e : Entitlement => e.state = .credited) Entitlement.amountUsd new = 0 :=
    sumWhere_of_forall_not fun e he => by simp [hnew e he]
  simp only [creditedTotal, hrows, sumWhere_append, hz, add_zero]

theorem posts_enterPosition {feeFn : FeeFn} {d : Decision} {price : Option ℚ} {es : Date} {prov : Option Provenance}
    {o : EntryOutcome} (h : enterPosition cal cfg feeFn s d price es prov = some (o, s')) :
    s.book.Post s'.book ∧ s'.entitlements = s.entitlements := by
  rcases enterPosition_cases h with ⟨-, -, rfl⟩ | ⟨-, r, -, -, rfl⟩ | ⟨p, z, -, hok, hrec⟩
  · exact ⟨.idle, rfl⟩
  · exact ⟨.idle, rfl⟩
  obtain ⟨row, t, ps, -, -, hst, hcost, -, -, -, -, -, ht, -, hrows, -, rfl⟩ := recordEntry_cases hrec
  obtain ⟨-, -, -, -, -, -, -, hpos, havail, halloc, -⟩ := entryCheck_ok hok
  have hle : z.entryTotal ≤ s.cash := by
    have : 0 ≤ cfg.perPositionAllocationUsd *
        ((s.pendingEntryIntents.filter fun i => i.episodeId ≠ d.episodeId).length : ℚ) :=
      mul_nonneg (hpos.le.trans halloc) (Nat.cast_nonneg _)
    unfold availableCash at havail
    linarith
  have hpost : s.book.Post _ := .buy z.entryTotal hpos hle
  refine ⟨?_, rfl⟩
  convert hpost using 1
  simp only [Store.book, costOf, realizedTotal, creditedTotal, nTrades, nStatus, hrows, sumWhere_append,
    List.countP_append, sumWhere_cons, sumWhere_nil, List.countP_singleton, hst, ht, hcost, Book.mk.injEq]
  simp
  constructor
  · ring
  · omega

/-- Sums after an update of the one `OPEN` row of an id. -/
theorem sumWhere_openAt {pid : ℕ} {row : Position} (hrow : row ∈ s.positions.rows) (hsel : Store.openAt pid row)
    (f : Position → Position) (c : Position → Bool) (g : Position → ℚ) :
    sumWhere c g (updateRows (Store.openAt pid) f s.positions.rows) =
      sumWhere c g s.positions.rows - (if c row then g row else 0) + if c (f row) then g (f row) else 0 :=
  sumWhere_updateRows s.positions.nodup hrow hsel fun _ hq h => Store.eq_of_openAt hrow hq hsel h

theorem countP_openAt {pid : ℕ} {row : Position} (hrow : row ∈ s.positions.rows) (hsel : Store.openAt pid row)
    (f : Position → Position) (c : Position → Bool) :
    ((updateRows (Store.openAt pid) f s.positions.rows).countP c : ℤ) =
      s.positions.rows.countP c - (if c row then 1 else 0) + if c (f row) then 1 else 0 :=
  countP_updateRows s.positions.nodup hrow hsel fun _ hq h => Store.eq_of_openAt hrow hq hsel h

theorem posts_closePosition {feeFn : FeeFn} {pos : Position} {price : ℚ} {es : Date} {prov : Option Provenance}
    {divs : List CorporateActionEvent} {o : ExitOutcome} (hfee : ∀ q, 0 ≤ q → feeFn.fee q price ≤ q * price)
    (h : closePosition cal cfg feeFn s pos price es prov divs = some (o, s')) :
    s.book.Post s'.book ∧ (AmountsNonneg s → AmountsNonneg s') := by
  rcases closePosition_cases h with ⟨-, rfl⟩ | ⟨row, hs⟩
  · exact ⟨.idle, id⟩
  obtain ⟨x, -, hpnl, hrows⟩ := hs.positions
  obtain ⟨t, ht, -, htrades⟩ := hs.trades
  obtain ⟨new, hents, hnew⟩ := hs.entitlements
  have hnet : 0 ≤ (computeExitEconomics (s.effectiveSharesExact pos.positionId) price row.positionCost feeFn).exitNet :=
    exitNet_nonneg (hfee _ (s.effectiveSharesExact_nonneg pos.positionId))
  have hsel : Store.openAt pos.positionId row := Store.openAt_iff.2 ⟨hs.positionId, hs.wasOpen⟩
  have hst : s'.startingCash = s.startingCash := by rw [hs.frame]
  have hopen : costOf s' .open = costOf s .open - row.positionCost := by
    rw [costOf, hrows, sumWhere_openAt hs.mem hsel]
    simp [costOf, hs.wasOpen]
  have hunres : costOf s' .exitUnresolved = costOf s .exitUnresolved := by
    rw [costOf, hrows, sumWhere_openAt hs.mem hsel]
    simp [costOf, hs.wasOpen]
  have hreal : realizedTotal s' = realizedTotal s + x.realizedPnlUsd := by
    rw [realizedTotal, hrows, sumWhere_openAt hs.mem hsel]
    simp [realizedTotal, realizedPnl, hs.wasOpen]
  have hnopen : (nStatus s' .open : ℤ) = nStatus s .open - 1 := by
    rw [nStatus, hrows, countP_openAt hs.mem hsel]
    simp [nStatus, hs.wasOpen]
  have hnunres : (nStatus s' .exitUnresolved : ℤ) = nStatus s .exitUnresolved := by
    rw [nStatus, hrows, countP_openAt hs.mem hsel]
    simp [nStatus, hs.wasOpen]
  have hcred : creditedTotal s' = creditedTotal s := by
    rw [hs.frame]
    exact creditedTotal_append hents fun e he => (hnew e he).state
  have hbuys : nTrades s' .buy = nTrades s .buy := by simp [nTrades, htrades, ht]
  have hsells : nTrades s' .sell = nTrades s .sell + 1 := by simp [nTrades, htrades, ht]
  constructor
  · have hlives : s.book.lives = (nStatus s' .open + nStatus s' .exitUnresolved) + 1 := by
      dsimp only [Store.book]; omega
    have hpost : s.book.Post _ := .sell row.positionCost _ _ hnet hlives
    convert hpost using 1
    simp only [Store.book, hst, hs.cash, hopen, hunres, hreal, hcred, hbuys, hsells, hpnl,
      realizedPnlUsd_computeExitEconomics, Book.mk.injEq]
    simp
    ring
  · intro ha e he
    rw [hents] at he
    rcases List.mem_append.1 he with he | he
    · exact ha e he
    · exact (hnew e he).amount_nonneg

theorem posts_markExitUnresolved {accountId : String} {pid : ℕ} (h : s.markExitUnresolved accountId pid = some s') :
    s'.book = s.book ∧ s'.entitlements = s.entitlements := by
  obtain ⟨ps, bs, hrows, rfl⟩ := Store.markExitUnresolved_cases h
  refine ⟨?_, rfl⟩
  by_cases hex : ∃ row ∈ s.positions.rows, Store.openAt pid row = true
  · obtain ⟨row, hrow, hsel⟩ := hex
    have hop : row.status = .open := (Store.openAt_iff.1 hsel).2
    have hsum := sumWhere_openAt hrow hsel fun p => { p with status := .exitUnresolved }
    have hcount := countP_openAt hrow hsel fun p => { p with status := .exitUnresolved }
    have h1 := hcount (·.status = .open)
    have h2 := hcount (·.status = .exitUnresolved)
    simp only [hop, decide_true, if_true, reduceCtorEq, decide_false, Bool.false_eq_true, if_false] at h1 h2
    simp only [Store.book, costOf, realizedTotal, nStatus, nTrades, creditedTotal, hrows, hsum, hop, Book.mk.injEq]
    refine ⟨trivial, trivial, ?_, ?_, trivial, trivial, trivial, ?_⟩
    · simp
    · simp
    · omega
  · push Not at hex
    rw [updateRows_of_forall_not fun p hp => Bool.eq_false_iff.2 (hex p hp)] at hrows
    exact book_eq_of_tables rfl rfl hrows rfl rfl

theorem posts_recordDividendEntitlement {pid : ℕ} {ev : CorporateActionEvent} {es : Date} {b : Bool}
    (h : s.recordDividendEntitlement pid ev es = some (b, s')) :
    s'.book = s.book ∧ (AmountsNonneg s → AmountsNonneg s') := by
  rcases Store.recordDividendEntitlement_cases h with
    rfl | ⟨row, ents, p, -, -, -, -, hst, -, -, -, -, hamt, -, hrows, rfl⟩
  · exact ⟨rfl, id⟩
  constructor
  · have hcred := creditedTotal_append hrows (by simpa using hst)
    exact congrArg (fun c => { s.book with credited := c }) hcred
  · intro ha e he
    rw [hrows] at he
    rcases List.mem_append.1 he with he | he
    · exact ha e he
    · rw [List.mem_singleton.1 he]; exact hamt

theorem posts_creditDividend {eid : ℕ} {asOf : Date} {b : Bool} (ha : AmountsNonneg s)
    (h : s.creditDividend eid asOf = (b, s')) : s.book.Post s'.book ∧ AmountsNonneg s' := by
  rcases Store.creditDividend_cases h with ⟨-, rfl⟩ | ⟨-, e, he, pay, ents, hid, hst, -, -, hrows, rfl⟩
  · exact ⟨.idle, ha⟩
  have hsel : (decide (e.entitlementId = eid) && decide (e.state = .accrued)) = true := by simp [hid, hst]
  have huniq : ∀ q ∈ s.entitlements.rows,
      (decide (q.entitlementId = eid) && decide (q.state = .accrued)) = true → q = e := by
    intro q hq h
    simp only [Bool.and_eq_true, decide_eq_true_eq] at h
    exact s.entitlements.eq_of_id hq he (h.1.trans hid.symm)
  constructor
  · have hcred : creditedTotal { s with cash := s.cash + e.amountUsd, entitlements := ents } =
        creditedTotal s + e.amountUsd := by
      rw [creditedTotal, hrows, sumWhere_updateRows s.entitlements.nodup he hsel huniq]
      simp [creditedTotal, hst]
    have hpost : s.book.Post _ := .credit e.amountUsd (ha e he)
    convert hpost using 1
    exact congrArg (fun c => { s.book with cash := s.cash + e.amountUsd, credited := c }) hcred
  · intro q hq
    rw [hrows, mem_updateRows] at hq
    obtain ⟨r, hr, rfl⟩ := hq
    split <;> exact ha r hr

theorem posts_applyPositionAction (pid : ℕ) (ev : CorporateActionEvent) (status : TrailStatus) :
    (s.applyPositionAction pid ev status).2.book = s.book ∧
      (s.applyPositionAction pid ev status).2.entitlements = s.entitlements := by
  unfold Store.applyPositionAction
  cases s.positionById pid <;> exact ⟨rfl, rfl⟩

/-- Every transaction posts to the book, and keeps entitlement amounts non-negative. -/
theorem LedgerOp.posts (op : LedgerOp) (hfee : op.FeeBounded) (ha : AmountsNonneg s) :
    s.book.Post (op.run cal cfg s).book ∧ AmountsNonneg (op.run cal cfg s) := by
  cases op with
  | enterPosition d price es feeFn prov =>
    cases h : V2.enterPosition cal cfg feeFn s d price es prov with
    | none => simpa [run, h] using ⟨.idle, ha⟩
    | some r =>
      obtain ⟨hp, he⟩ := posts_enterPosition h
      simpa [run, h, AmountsNonneg, he] using ⟨hp, ha⟩
  | closePosition pos price es feeFn prov divs =>
    cases h : V2.closePosition cal cfg feeFn s pos price es prov divs with
    | none => simpa [run, h] using ⟨.idle, ha⟩
    | some r =>
      obtain ⟨hp, hamt⟩ := posts_closePosition hfee h
      simpa [run, h] using ⟨hp, hamt ha⟩
  | markExitUnresolved pid =>
    cases h : s.markExitUnresolved cfg.campaignId pid with
    | none => simpa [run, h] using ⟨.idle, ha⟩
    | some s' =>
      obtain ⟨hb, he⟩ := posts_markExitUnresolved h
      simpa [run, h, hb, AmountsNonneg, he] using ⟨.idle, ha⟩
  | applyPositionAction pid ev status =>
    obtain ⟨hb, he⟩ := posts_applyPositionAction (s := s) pid ev status
    simpa [run, hb, AmountsNonneg, he] using ⟨.idle, ha⟩
  | recordDividendEntitlement pid ev es =>
    cases h : s.recordDividendEntitlement pid ev es with
    | none => simpa [run, h] using ⟨.idle, ha⟩
    | some r =>
      obtain ⟨hb, hamt⟩ := posts_recordDividendEntitlement h
      simpa [run, h, hb] using ⟨.idle, hamt ha⟩
  | creditDividend eid asOf => exact posts_creditDividend ha rfl

/-! ## Every run -/

/-- What every run from a fresh ledger keeps. -/
structure LedgerInv (start : ℚ) (s : Store) : Prop where
  start_eq : s.startingCash = start
  balanced : s.book.Balanced
  cash_nonneg : 0 ≤ start → 0 ≤ s.cash
  amounts : AmountsNonneg s

theorem LedgerInv.init (start : ℚ) : LedgerInv start (Store.init start) where
  start_eq := rfl
  balanced := ⟨by simp [Store.book, Store.init, costOf, realizedTotal, creditedTotal], rfl⟩
  cash_nonneg := id
  amounts := by simp [AmountsNonneg, Store.init]

theorem LedgerInv.run {start : ℚ} (h : LedgerInv start s) (op : LedgerOp) (hfee : op.FeeBounded) :
    LedgerInv start (op.run cal cfg s) := by
  obtain ⟨hp, ha⟩ := op.posts hfee h.amounts
  exact ⟨hp.start_eq.trans h.start_eq, hp.balanced h.balanced, fun h0 => hp.cash_nonneg (h.cash_nonneg h0), ha⟩

theorem LedgerInv.runAll {ι : Type} {start : ℚ} : ∀ (ops : List (ι × LedgerOp)) {s : Store},
    LedgerInv start s → (∀ op ∈ ops, op.2.FeeBounded) → LedgerInv start (LedgerOp.runAll cal cfg ops s)
  | [], _, h, _ => h
  | op :: ops, _, h, hfee =>
    LedgerInv.runAll ops (h.run op.2 (hfee op List.mem_cons_self)) fun o ho => hfee o (List.mem_cons_of_mem _ ho)

/-- From a fresh ledger, after any transactions of any processes in any serial order: money is conserved, cash is not
negative, bought positions are sold or still held, and the continuity guard has no finding about cash or counts. -/
theorem ledger_conserved {ι : Type} (cal : Calendar) (cfg : V2Config) (start : ℚ) (ops : List (ι × LedgerOp))
    (hfee : ∀ op ∈ ops, op.2.FeeBounded) :
    let s := LedgerOp.runAll cal cfg ops (Store.init start)
    s.cash + (costOf s .open + costOf s .exitUnresolved) = start + realizedTotal s + creditedTotal s ∧
      (0 ≤ start → 0 ≤ s.cash) ∧
      nTrades s .buy = nTrades s .sell + (nStatus s .open + nStatus s .exitUnresolved) ∧
      (0 ≤ start → ∀ delegated, ∀ p ∈ checkLedgerContinuity s delegated, p.isCashOrCount = false) := by
  intro s
  have h : LedgerInv start s := LedgerInv.runAll ops (LedgerInv.init start) hfee
  have hmoney := h.balanced.money
  have htrades := h.balanced.trades
  simp only [Store.book] at hmoney htrades
  refine ⟨by rw [← h.start_eq]; exact hmoney, h.cash_nonneg, htrades, fun h0 delegated => ?_⟩
  exact not_isCashOrCount_of_balanced (h.cash_nonneg h0) (by rw [← hmoney, add_assoc]) (by rw [htrades, add_assoc])

/-- One process buys at 100 and another sells at 110. -/
def sampleOps : List (Bool × LedgerOp) :=
  let e : EpisodeId := ⟨"ACME", ["0000001", "0000002"], 0, 1⟩
  let p : Position := ⟨1, e, "ACME", .open, 2, 16, 100, 100, 10000, 0, none, none⟩
  [(false, .enterPosition ⟨e, "ACME", .buy⟩ (some 100) 2 zeroFee none), (true, .closePosition p 110 16 zeroFee none [])]

theorem ledger_conserved_sample :
    let s := LedgerOp.runAll (.weekdays 60) {} sampleOps (Store.init 100000)
    s.cash = 101000 ∧
      s.cash + (costOf s .open + costOf s .exitUnresolved) = 100000 + realizedTotal s + creditedTotal s := by
  refine ⟨by decide +kernel, (ledger_conserved (.weekdays 60) {} 100000 sampleOps ?_).1⟩
  intro op hop
  rcases List.mem_cons.1 hop with rfl | hop
  · trivial
  · obtain rfl := List.mem_singleton.1 hop
    intro q hq
    rw [zeroFee_fee]
    positivity

end TalonX.V2
