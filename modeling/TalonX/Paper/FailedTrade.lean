import TalonX.Paper.PublicMethods

/-!
# What a failed trade leaves behind

A trade that raises after its first statement leaves its transaction open, and the next method that commits commits what
the trade has written.

- `blind_prog`: which methods do not ask whether a transaction is open; `succeeding_alike`: after a call that has written
  nothing, any later methods do what they would have done;
- `TradeCall.Spoils`: the calls that have debited the cash when they raise; `exec_of_spoils`, `alike_of_not_spoils`;
- `failed_trade_leaves_no_trace_iff`: the books of any later commit are those without the call exactly when it is none
  of these.
-/

set_option autoImplicit false

namespace TalonX.Paper

open Transact WalFile Ops V2

/-- A paper store: the file, and the transaction that its connection has open. -/
abbrev StoreFile := WalFile Unit PaperStore

/-- Cash and P&L counters, positions and trade history, of both lanes. -/
structure SameBooks (s s' : PaperStore) : Prop where
  portfolio : s.portfolio = s'.portfolio
  positions : s.positions = s'.positions
  tradeHistory : s.tradeHistory = s'.tradeHistory
  longTermPortfolio : s.longTermPortfolio = s'.longTermPortfolio
  longTermPositions : s.longTermPositions = s'.longTermPositions
  longTermTradeHistory : s.longTermTradeHistory = s'.longTermTradeHistory

theorem SameBooks.refl (s : PaperStore) : SameBooks s s := ⟨rfl, rfl, rfl, rfl, rfl, rfl⟩

/-- The file after methods that all succeed. -/
def succeeding : List PublicMethod → StoreFile → Option StoreFile
  | [], f => some f
  | m :: ms, f =>
    match (exec m.prog [] f).2 with
    | (f', .done _) => succeeding ms f'
    | _ => none

/-- If the call raises, the books after any later successful methods are those that would be without it. -/
def LeavesNoTrace (c : TradeCall) (f : StoreFile) : Prop :=
  ∀ f', (exec c.prog [] f).2 = (f', .raised) → ∀ ms f₁, succeeding ms f' = some f₁ →
    ∃ f₂, succeeding ms f = some f₂ ∧ SameBooks f₁.db f₂.db

/-! ## Later methods -/

section Blindness

variable {α : Type}

theorem blind_acquire : Blind (acquire : StoreProg Unit) := .call id (fun _ => rfl) fun _ => .ret _

theorem blind_refuse (price : Amount) (g : ℚ → PaperStore → PaperStore) :
    Blind (StoreProg.refuse price g : StoreProg (Option α)) := by
  unfold StoreProg.refuse
  exact (blind_attempt _ _).bind fun _ => (blind_commit _).bind fun _ => .ret _

/-- The end of every trade: three statements and the commit. -/
theorem blind_rows {l l' l'' : Stmt} {g g' g'' : PaperStore → Option PaperStore} {a : α} :
    Blind (do attempt l () g; attempt l' () g'; attempt l'' () g''; doCommit .commit (); pure a : StoreProg α) :=
  (blind_attempt _ _).bind fun _ => (blind_attempt _ _).bind fun _ => (blind_attempt _ _).bind fun _ =>
    (blind_commit _).bind fun _ => .ret _

theorem blind_buy (ticker : Ticker) (shares price cost : Amount) (t : Timestamp) (stop target : Option ℚ) :
    Blind (StoreProg.buy ticker shares price cost t stop target) := by
  refine blind_acquire.bind fun _ => (blind_select _ _).bind fun br => ?_
  cases br with
  | some blocks => exact blind_refuse _ _
  | none =>
    refine (blind_select _ _).bind fun cash => ?_
    split
    · exact blind_refuse _ _
    · unfold StoreProg.buyRows
      exact (blind_attempt _ _).bind fun _ => (blind_attempt _ _).bind fun _ => (blind_attempt _ _).bind fun _ =>
        (blind_select _ _).bind fun _ => (blind_commit _).bind fun _ => .ret _

theorem blind_sell (ticker : Ticker) (exitPrice : Amount) (t : Timestamp) (action : AlertAction) :
    Blind (StoreProg.sell ticker exitPrice t action) := by
  refine blind_acquire.bind fun _ => (blind_select _ _).bind fun row => ?_
  cases row with
  | none => exact .ret _
  | some pos =>
    dsimp only
    split
    · exact .raise
    · refine (blind_select _ _).bind fun portfolio => ?_
      unfold StoreProg.sellRows
      exact (blind_attempt _ _).bind fun _ => (blind_write _ _).bind fun _ => (blind_attempt _ _).bind fun _ =>
        (blind_commit _).bind fun _ => .ret _

theorem blind_longTermBuy (ticker : Ticker) (shares price cost : Amount) (t : Timestamp) :
    Blind (StoreProg.longTermBuy ticker shares price cost t) := by
  refine blind_acquire.bind fun _ => (blind_select _ _).bind fun br => ?_
  cases br with
  | some blocks => exact blind_refuse _ _
  | none =>
    refine (blind_select _ _).bind fun cash => ?_
    split
    · exact blind_refuse _ _
    · exact blind_rows

theorem blind_dca (ticker : Ticker) (contributionUsd price : Amount) (t : Timestamp) :
    Blind (StoreProg.dca ticker contributionUsd price t) := by
  refine blind_acquire.bind fun _ => (blind_select _ _).bind fun br => ?_
  cases br with
  | some blocks => exact blind_refuse _ _
  | none =>
    refine (blind_select _ _).bind fun row => ?_
    cases row with
    | none => exact .ret _
    | some pos =>
      dsimp only
      split
      · exact .ret _
      · refine (blind_select _ _).bind fun cash => ?_
        split
        · exact blind_refuse _ _
        · exact blind_rows

theorem blind_longTermSell (ticker : Ticker) (trimFraction exitPrice : Amount) (t : Timestamp) (action : AlertAction) :
    Blind (StoreProg.longTermSell ticker trimFraction exitPrice t action) := by
  refine blind_acquire.bind fun _ => (blind_select _ _).bind fun row => ?_
  cases row with
  | none => exact .ret _
  | some pos =>
    dsimp only
    split
    · exact .raise
    · exact (blind_select _ _).bind fun _ => blind_rows

theorem blind_trade (c : TradeCall) : Blind c.prog := by
  cases c with
  | executeBuy => exact (blind_buy ..).bind fun _ => .ret _
  | executeSell => exact (blind_sell ..).bind fun _ => .ret _
  | executeLongTermBuy => exact (blind_longTermBuy ..).bind fun _ => .ret _
  | executeDcaContribution => exact (blind_dca ..).bind fun _ => .ret _
  | executeLongTermSell => exact (blind_longTermSell ..).bind fun _ => .ret _

theorem blind_single (g : PaperStore → Option PaperStore) : Blind (StoreProg.single g) :=
  (blind_attempt _ _).bind fun _ => blind_commit _

/-- Every method but `lock`. -/
theorem blind_prog {m : PublicMethod} (h : ∀ lane reconciled now q, m ≠ .lock lane reconciled now q) : Blind m.prog := by
  cases m with
  | trade c => exact blind_trade c
  | resetPortfolio =>
    unfold PublicMethod.prog StoreProg.resetPortfolio
    exact (blind_write _ _).bind fun _ => (blind_write _ _).bind fun _ => blind_single _
  | resetLongTermPortfolio =>
    unfold PublicMethod.prog StoreProg.resetLongTermPortfolio
    exact (blind_write _ _).bind fun _ => (blind_write _ _).bind fun _ => blind_single _
  | recordAccountBlock =>
    exact blind_acquire.bind fun _ => (blind_write _ _).bind fun _ => blind_commit _
  | lock lane reconciled now q => exact absurd rfl (h lane reconciled now q)
  | _ => exact blind_single _

end Blindness

/-- `BEGIN IMMEDIATE` raises inside an open transaction. -/
theorem exec_lock_of_open {f : StoreFile} (h : f.writer ≠ none) (lane : Lane) (reconciled : Bool) (now : Instant)
    (q : ClearanceRequest) : (exec (PublicMethod.lock lane reconciled now q).prog [] f).2.2 = .raised := by
  obtain ⟨db, _ | ⟨⟨⟩, w⟩⟩ := f
  · exact absurd rfl h
  · rfl

/-- A method that succeeds after a call that has changed nothing does what it would have done without the call. -/
theorem exec_alike {f f' f₁ : StoreFile} (h : Alike f f') (m : PublicMethod)
    (hm : (exec m.prog [] f').2 = (f₁, .done ())) : ∃ f₂, (exec m.prog [] f).2 = (f₂, .done ()) ∧ Alike f₂ f₁ := by
  by_cases hl : ∀ lane reconciled now q, m ≠ .lock lane reconciled now q
  · obtain ⟨hstate, hout⟩ := (blind_prog hl).exec h
    rw [hm] at hstate hout
    exact ⟨_, Prod.ext rfl hout, hstate⟩
  · simp only [not_forall, not_not] at hl
    obtain ⟨lane, reconciled, now, q, rfl⟩ := hl
    by_cases hw : f'.writer = none
    · rw [h.closed hw]
      exact ⟨f₁, hm, .refl _⟩
    · have hraised := exec_lock_of_open hw lane reconciled now q
      rw [hm] at hraised
      cases hraised

theorem succeeding_alike (ms : List PublicMethod) {f f' f₁ : StoreFile} (h : Alike f f')
    (hms : succeeding ms f' = some f₁) : ∃ f₂, succeeding ms f = some f₂ ∧ Alike f₂ f₁ := by
  induction ms generalizing f f' with
  | nil =>
    obtain rfl := Option.some.inj hms
    exact ⟨f, rfl, h⟩
  | cons m ms ih =>
    unfold succeeding at hms
    split at hms
    · rename_i g' a hm
      obtain ⟨g, hg, hgg⟩ := exec_alike h m hm
      obtain ⟨f₂, hf, hff⟩ := ih hgg hms
      exact ⟨f₂, by rw [succeeding, hg]; exact hf, hff⟩
    · cases hms

/-! ## The calls that spoil the books -/

/-- The call debits the cash and raises afterwards: a purchase that passes the gate and the cash check while its ticker
has a row, or with a `nan` that the row would hold. -/
def TradeCall.Spoils (s : PaperStore) : TradeCall → Prop
  | executeBuy ticker shares price cost _ _ _ =>
    s.blockedReason originalIntradayAccountId = none ∧
      (∃ c, cost = some c ∧ c ≠ 0 ∧ c ≤ s.portfolio.currentCash + 1 / 1000000) ∧
      (shares = none ∨ price = none ∨ (s.getPosition ticker).isSome)
  | executeLongTermBuy ticker shares price cost _ =>
    s.blockedReason originalLongtermAccountId = none ∧
      (∃ c, cost = some c ∧ c ≠ 0 ∧ c ≤ s.longTermPortfolio.currentCash + 1 / 1000000) ∧
      (shares = none ∨ price = none ∨ (s.getLongTermPosition ticker).isSome)
  | executeDcaContribution ticker contributionUsd price _ =>
    s.blockedReason originalLongtermAccountId = none ∧ (s.getLongTermPosition ticker).isSome ∧ price = none ∧
      ∃ c, contributionUsd = some c ∧ 0 < c ∧ c ≤ s.longTermPortfolio.currentCash + 1 / 1000000
  | executeSell _ _ _ _ => False
  | executeLongTermSell _ _ _ _ _ => False

section Runs

variable {α : Type} {f f' : StoreFile}

/-- A refusal that cannot be recorded changes nothing. -/
theorem alike_refuse {price : Amount} {g : ℚ → PaperStore → PaperStore} {e : Outcome (Option α)}
    (h : (exec (StoreProg.refuse price g : StoreProg (Option α)) [] f).2 = (f', e)) (he : e = .raised) :
    Alike f f' := by
  unfold StoreProg.refuse at h
  rw [Prog.bind_eq, exec_attempt] at h
  cases hp : price with
  | none =>
    rw [hp] at h
    obtain ⟨rfl, -⟩ := Prod.mk.inj h
    exact alike_put_view f
  | some p =>
    rw [hp] at h
    obtain ⟨-, rfl⟩ := Prod.mk.inj h
    cases he

/-- Three statements and the commit. -/
theorem exec_rows (l l' l'' : Stmt) (g g' g'' : PaperStore → Option PaperStore) (a : α) (f : StoreFile) :
    (exec (do attempt l () g; attempt l' () g'; attempt l'' () g''; doCommit .commit (); pure a : StoreProg α) [] f).2 =
      match g (f.view ()) with
      | none => (f.put () (f.view ()), .raised)
      | some s =>
        match g' s with
        | none => (f.put () s, .raised)
        | some s' =>
          match g'' s' with
          | none => (f.put () s', .raised)
          | some s'' => (⟨s'', none⟩, .done a) := by
  simp only [Prog.bind_eq, exec_attempt, view_put, put_put, exec_commit_bind]
  cases g (f.view ()) with
  | none => rfl
  | some s =>
    dsimp only
    cases g' s with
    | none => rfl
    | some s' =>
      dsimp only
      cases g'' s' with
      | none => rfl
      | some s'' => simp [exec, commit_put]

/-- The same with a read before the commit. -/
theorem exec_buyRows (ticker : Ticker) (shares price cost : Amount) (t : Timestamp) (stop target : Option ℚ) (cash : ℚ)
    (f : StoreFile) :
    (exec (StoreProg.buyRows ticker shares price cost t stop target cash) [] f).2 =
      match cost with
      | none => (f.put () (f.view ()), .raised)
      | some c =>
        match (do pure (PaperStore.buyPosition ticker (← shares) (← price) c t stop target)).bind
            ((f.view ()).setCash (cash - c)).insertPosition with
        | none => (f.put () ((f.view ()).setCash (cash - c)), .raised)
        | some s =>
          (⟨((do pure (PaperStore.buyTrade ticker (← shares) (← price) c (cash - c) t)).map s.appendTrade).getD s, none⟩,
            .done (do pure (PaperStore.buyTrade ticker (← shares) (← price) c (cash - c) t))) := by
  simp only [StoreProg.buyRows, Prog.bind_eq, exec_attempt, view_put, put_put, exec_commit_bind, exec_select_bind]
  cases cost with
  | none => rfl
  | some c =>
    cases shares with
    | none => rfl
    | some sh =>
      cases price with
      | none => rfl
      | some p =>
        simp only [Option.map_some, Option.bind_eq_bind, Option.bind_some, Option.pure_def, Option.getD_some]
        cases ((f.view ()).setCash (cash - c)).insertPosition (PaperStore.buyPosition ticker sh p c t stop target) with
        | none => rfl
        | some s => simp [exec, commit_put]

/-- An insert that the key forbids. -/
theorem insert?_eq_none {κ ρ : Type} [DecidableEq κ] {key : ρ → κ} {t : Table key} {r : ρ} :
    t.insert? r = none ↔ (t.get (key r)).isSome := by
  cases hg : t.get (key r) with
  | none =>
    obtain ⟨t', ht, -⟩ := Table.insert?_of_get_none hg
    simp [ht]
  | some q =>
    simp only [Option.isSome_some, iff_true]
    cases hi : t.insert? r with
    | none => rfl
    | some t' =>
      have hnone := Table.get_eq_none.2 (Table.insert?_eq_some hi).2
      rw [hg] at hnone
      cases hnone

theorem insertPosition_eq_none {s : PaperStore} {p : Position} :
    s.insertPosition p = none ↔ (s.positions.get p.ticker).isSome := by
  rw [PaperStore.insertPosition, Option.map_eq_none_iff, insert?_eq_none]

theorem insertLongTermPosition_eq_none {s : PaperStore} {p : LongTermPosition} :
    s.insertLongTermPosition p = none ↔ (s.longTermPositions.get p.ticker).isSome := by
  rw [PaperStore.insertLongTermPosition, Option.map_eq_none_iff, insert?_eq_none]

/-- The position is not there to insert, or its ticker has a row. -/
theorem insert_buyPosition_eq_none {s : PaperStore} {ticker : Ticker} {shares price : Amount} {c : ℚ} {t : Timestamp}
    {stop target : Option ℚ} {v : ℚ} :
    (do pure (PaperStore.buyPosition ticker (← shares) (← price) c t stop target)).bind (s.setCash v).insertPosition =
        none ↔ shares = none ∨ price = none ∨ (s.getPosition ticker).isSome := by
  cases shares with
  | none => simp
  | some sh =>
    cases price with
    | none => simp
    | some p =>
      simp only [Option.bind_eq_bind, Option.bind_some, Option.pure_def, reduceCtorEq, false_or]
      exact insertPosition_eq_none

/-- A purchase that raises has changed nothing, or has debited its cost. -/
theorem buy_raised {ticker : Ticker} {shares price cost : Amount} {t : Timestamp} {stop target : Option ℚ}
    (h : (exec (StoreProg.buy ticker shares price cost t stop target) [] f).2 = (f', .raised))
    (hs : ¬ (TradeCall.executeBuy ticker shares price cost t stop target).Spoils (f.view ())) : Alike f f' := by
  unfold StoreProg.buy at h
  simp only [Prog.bind_eq, exec_acquire_bind, exec_select_bind] at h
  cases hgate : (f.view ()).blockedReason originalIntradayAccountId with
  | some blocks =>
    rw [hgate] at h
    exact alike_refuse h rfl
  | none =>
    rw [hgate] at h
    simp only [exec_select_bind] at h
    cases hcost : cost.filter ((f.view ()).portfolio.currentCash + 1 / 1000000 < ·) with
    | some c =>
      rw [hcost] at h
      exact alike_refuse h rfl
    | none =>
      rw [hcost] at h
      simp only [exec_buyRows] at h
      cases hc : cost with
      | none =>
        rw [hc] at h
        obtain ⟨rfl, -⟩ := Prod.mk.inj h
        exact alike_put_view f
      | some c =>
        rw [hc] at h hcost
        simp only at h
        split at h
        · rename_i hins
          obtain ⟨rfl, -⟩ := Prod.mk.inj h
          have hle : ¬ (f.view ()).portfolio.currentCash + 1 / 1000000 < c := by simpa using hcost
          -- the row was refused, so nothing was to be paid
          have hzero : c = 0 := by
            by_contra hne
            exact hs ⟨hgate, ⟨c, hc, hne, not_lt.1 hle⟩, insert_buyPosition_eq_none.1 hins⟩
          rw [hzero, sub_zero]
          exact alike_put_view f
        · obtain ⟨-, hd⟩ := Prod.mk.inj h
          cases hd

theorem exec_buy_of_spoils {ticker : Ticker} {shares price cost : Amount} {t : Timestamp} {stop target : Option ℚ}
    (hs : (TradeCall.executeBuy ticker shares price cost t stop target).Spoils (f.view ())) :
    ∃ v, v ≠ (f.view ()).portfolio.currentCash ∧
      (exec (StoreProg.buy ticker shares price cost t stop target) [] f).2 =
        (f.put () ((f.view ()).setCash v), .raised) := by
  obtain ⟨hgate, ⟨c, rfl, hne, hle⟩, hrow⟩ := hs
  refine ⟨(f.view ()).portfolio.currentCash - c, fun h => hne (by linarith), ?_⟩
  unfold StoreProg.buy
  simp only [Prog.bind_eq, exec_acquire_bind, exec_select_bind, hgate, StoreProg.filter_some, if_neg (not_lt.2 hle),
    exec_buyRows, insert_buyPosition_eq_none.2 hrow]

/-- A sale that raises has changed nothing: every value that it writes depends on the first. -/
theorem sell_raised {ticker : Ticker} {exitPrice : Amount} {t : Timestamp} {action : AlertAction}
    (h : (exec (StoreProg.sell ticker exitPrice t action) [] f).2 = (f', .raised)) : Alike f f' := by
  unfold StoreProg.sell at h
  simp only [Prog.bind_eq, exec_acquire_bind, exec_select_bind] at h
  cases hpos : (f.view ()).getPosition ticker with
  | none =>
    rw [hpos] at h
    obtain ⟨-, hd⟩ := Prod.mk.inj h
    cases hd
  | some pos =>
    rw [hpos] at h
    cases hheld : t.minus pos.entryTimestamp with
    | none =>
      simp only [hheld] at h
      obtain ⟨rfl, -⟩ := Prod.mk.inj h
      exact .refl f
    | some held =>
      simp only [hheld, exec_select_bind, StoreProg.sellRows, Prog.bind_eq, exec_attempt] at h
      cases exitPrice with
      | none =>
        obtain ⟨rfl, -⟩ := Prod.mk.inj h
        exact alike_put_view f
      | some p =>
        simp only [Option.map_some, exec_write_bind, exec_attempt, Option.bind_eq_bind, Option.bind_some,
          Option.pure_def, exec_commit_bind] at h
        obtain ⟨-, hd⟩ := Prod.mk.inj h
        cases hd

theorem insert_longTermPosition_eq_none {s : PaperStore} {ticker : Ticker} {shares price : Amount} {c : ℚ}
    {t : Timestamp} {v : ℚ} :
    (do pure (⟨ticker.toUpper, ← shares, ← price, t, c⟩ : LongTermPosition)).bind
        (s.setLongTermCash v).insertLongTermPosition = none ↔
      shares = none ∨ price = none ∨ (s.getLongTermPosition ticker).isSome := by
  cases shares with
  | none => simp
  | some sh =>
    cases price with
    | none => simp
    | some p =>
      simp only [Option.bind_eq_bind, Option.bind_some, Option.pure_def, reduceCtorEq, false_or]
      exact insertLongTermPosition_eq_none

theorem exec_longTermBuyRows (ticker : Ticker) (shares price cost : Amount) (t : Timestamp) (cash : ℚ)
    (f : StoreFile) :
    (exec (StoreProg.longTermBuyRows ticker shares price cost t cash) [] f).2 =
      match cost with
      | none => (f.put () (f.view ()), .raised)
      | some c =>
        match (do pure (⟨ticker.toUpper, ← shares, ← price, t, c⟩ : LongTermPosition)).bind
            ((f.view ()).setLongTermCash (cash - c)).insertLongTermPosition with
        | none => (f.put () ((f.view ()).setLongTermCash (cash - c)), .raised)
        | some s =>
          (⟨((do pure (PaperStore.longTermBuyTrade ticker (← shares) (← price) c (cash - c) t)).map
              s.appendLongTermTrade).getD s, none⟩,
            .done (do pure (PaperStore.longTermBuyTrade ticker (← shares) (← price) c (cash - c) t))) := by
  simp only [StoreProg.longTermBuyRows]
  rw [exec_rows]
  cases cost with
  | none => rfl
  | some c =>
    cases shares with
    | none => rfl
    | some sh =>
      cases price with
      | none => rfl
      | some p =>
        simp only [Option.map_some, Option.bind_eq_bind, Option.bind_some, Option.pure_def, Option.getD_some]

theorem longTermBuy_raised {ticker : Ticker} {shares price cost : Amount} {t : Timestamp}
    (h : (exec (StoreProg.longTermBuy ticker shares price cost t) [] f).2 = (f', .raised))
    (hs : ¬ (TradeCall.executeLongTermBuy ticker shares price cost t).Spoils (f.view ())) : Alike f f' := by
  unfold StoreProg.longTermBuy at h
  simp only [Prog.bind_eq, exec_acquire_bind, exec_select_bind] at h
  cases hgate : (f.view ()).blockedReason originalLongtermAccountId with
  | some blocks =>
    rw [hgate] at h
    exact alike_refuse h rfl
  | none =>
    rw [hgate] at h
    simp only [exec_select_bind] at h
    cases hcost : cost.filter ((f.view ()).longTermPortfolio.currentCash + 1 / 1000000 < ·) with
    | some c =>
      rw [hcost] at h
      exact alike_refuse h rfl
    | none =>
      rw [hcost] at h
      simp only [exec_longTermBuyRows] at h
      cases hc : cost with
      | none =>
        rw [hc] at h
        obtain ⟨rfl, -⟩ := Prod.mk.inj h
        exact alike_put_view f
      | some c =>
        rw [hc] at h hcost
        simp only at h
        split at h
        · rename_i hins
          obtain ⟨rfl, -⟩ := Prod.mk.inj h
          have hle : ¬ (f.view ()).longTermPortfolio.currentCash + 1 / 1000000 < c := by simpa using hcost
          have hzero : c = 0 := by
            by_contra hne
            exact hs ⟨hgate, ⟨c, hc, hne, not_lt.1 hle⟩, insert_longTermPosition_eq_none.1 hins⟩
          rw [hzero, sub_zero]
          exact alike_put_view f
        · obtain ⟨-, hd⟩ := Prod.mk.inj h
          cases hd

theorem exec_longTermBuy_of_spoils {ticker : Ticker} {shares price cost : Amount} {t : Timestamp}
    (hs : (TradeCall.executeLongTermBuy ticker shares price cost t).Spoils (f.view ())) :
    ∃ v, v ≠ (f.view ()).longTermPortfolio.currentCash ∧
      (exec (StoreProg.longTermBuy ticker shares price cost t) [] f).2 =
        (f.put () ((f.view ()).setLongTermCash v), .raised) := by
  obtain ⟨hgate, ⟨c, rfl, hne, hle⟩, hrow⟩ := hs
  refine ⟨(f.view ()).longTermPortfolio.currentCash - c, fun h => hne (by linarith), ?_⟩
  unfold StoreProg.longTermBuy
  simp only [Prog.bind_eq, exec_acquire_bind, exec_select_bind, hgate, StoreProg.filter_some, if_neg (not_lt.2 hle),
    exec_longTermBuyRows, insert_longTermPosition_eq_none.2 hrow]

/-- A contribution at a price that is not a number has debited the cash when the position refuses it. -/
theorem exec_dcaRows (pos : LongTermPosition) (contributionUsd price : Amount) (t : Timestamp) (cash : ℚ)
    (f : StoreFile) :
    (exec (StoreProg.dcaRows pos contributionUsd price t cash) [] f).2 =
      match contributionUsd, price with
      | none, _ => (f.put () (f.view ()), .raised)
      | some c, none => (f.put () ((f.view ()).setLongTermCash (cash - c)), .raised)
      | some c, some p =>
        (⟨(((f.view ()).setLongTermCash (cash - c)).updateLongTermPosition
            (PaperStore.contribute c p pos)).appendLongTermTrade (PaperStore.dcaTrade pos c p (cash - c) t), none⟩,
          .done (some (PaperStore.dcaTrade pos c p (cash - c) t))) := by
  simp only [StoreProg.dcaRows]
  rw [exec_rows]
  cases contributionUsd <;> cases price <;> rfl

theorem dca_raised {ticker : Ticker} {contributionUsd price : Amount} {t : Timestamp}
    (h : (exec (StoreProg.dca ticker contributionUsd price t) [] f).2 = (f', .raised))
    (hs : ¬ (TradeCall.executeDcaContribution ticker contributionUsd price t).Spoils (f.view ())) : Alike f f' := by
  unfold StoreProg.dca at h
  simp only [Prog.bind_eq, exec_acquire_bind, exec_select_bind] at h
  cases hgate : (f.view ()).blockedReason originalLongtermAccountId with
  | some blocks =>
    rw [hgate] at h
    exact alike_refuse h rfl
  | none =>
    rw [hgate] at h
    simp only [exec_select_bind] at h
    cases hpos : (f.view ()).getLongTermPosition ticker with
    | none =>
      rw [hpos] at h
      obtain ⟨-, hd⟩ := Prod.mk.inj h
      cases hd
    | some pos =>
      rw [hpos] at h
      simp only at h
      split at h
      · obtain ⟨-, hd⟩ := Prod.mk.inj h
        cases hd
      · rename_i hpositive
        simp only [exec_select_bind] at h
        cases hcost : contributionUsd.filter ((f.view ()).longTermPortfolio.currentCash + 1 / 1000000 < ·) with
        | some c =>
          rw [hcost] at h
          exact alike_refuse h rfl
        | none =>
          rw [hcost] at h
          simp only [exec_dcaRows] at h
          split at h
          · obtain ⟨rfl, -⟩ := Prod.mk.inj h
            exact alike_put_view f
          · rename_i c
            refine absurd ⟨hgate, by rw [hpos]; rfl, rfl, c, rfl, ?_, ?_⟩ hs
            · simpa using hpositive
            · simpa using hcost
          · obtain ⟨-, hd⟩ := Prod.mk.inj h
            cases hd

theorem exec_dca_of_spoils {ticker : Ticker} {contributionUsd price : Amount} {t : Timestamp}
    (hs : (TradeCall.executeDcaContribution ticker contributionUsd price t).Spoils (f.view ())) :
    ∃ v, v ≠ (f.view ()).longTermPortfolio.currentCash ∧
      (exec (StoreProg.dca ticker contributionUsd price t) [] f).2 =
        (f.put () ((f.view ()).setLongTermCash v), .raised) := by
  obtain ⟨hgate, hpos, rfl, c, rfl, hc, hle⟩ := hs
  obtain ⟨pos, hpos⟩ := Option.isSome_iff_exists.1 hpos
  refine ⟨(f.view ()).longTermPortfolio.currentCash - c, fun h => hc.ne' (by linarith), ?_⟩
  unfold StoreProg.dca
  simp only [Prog.bind_eq, exec_acquire_bind, exec_select_bind, hgate, hpos, Option.any_none, Option.any_some,
    Bool.false_eq_true, decide_eq_true_eq, not_le.2 hc, or_self, if_false, StoreProg.filter_some,
    if_neg (not_lt.2 hle), exec_dcaRows]

theorem longTermSell_raised {ticker : Ticker} {trimFraction exitPrice : Amount} {t : Timestamp} {action : AlertAction}
    (h : (exec (StoreProg.longTermSell ticker trimFraction exitPrice t action) [] f).2 = (f', .raised)) :
    Alike f f' := by
  unfold StoreProg.longTermSell at h
  simp only [Prog.bind_eq, exec_acquire_bind, exec_select_bind] at h
  cases hpos : (f.view ()).getLongTermPosition ticker with
  | none =>
    rw [hpos] at h
    obtain ⟨-, hd⟩ := Prod.mk.inj h
    cases hd
  | some pos =>
    rw [hpos] at h
    cases hheld : t.minus pos.firstEntryAt with
    | none =>
      simp only [hheld] at h
      obtain ⟨rfl, -⟩ := Prod.mk.inj h
      exact .refl f
    | some held =>
      simp only [hheld, exec_select_bind, StoreProg.longTermSellRows] at h
      rw [exec_rows] at h
      cases trimFraction with
      | none =>
        obtain ⟨rfl, -⟩ := Prod.mk.inj h
        exact alike_put_view f
      | some fraction =>
        cases exitPrice with
        | none =>
          obtain ⟨rfl, -⟩ := Prod.mk.inj h
          exact alike_put_view f
        | some p =>
          obtain ⟨-, hd⟩ := Prod.mk.inj h
          cases hd

/-- What a call returns does not matter for how it raises. -/
theorem raised_discard (p : StoreProg α) :
    (exec (p.bind fun _ => .ret ()) [] f).2 = (f', .raised) ↔ (exec p [] f).2 = (f', .raised) := by
  induction p generalizing f with
  | ret a => constructor <;> intro h <;> cases h
  | raise => constructor <;> intro h <;> cases h <;> rfl
  | call l post next fault ih _ => exact ih f

end Runs

/-! ## Exactly these calls -/

theorem alike_of_not_spoils {c : TradeCall} {f f' : StoreFile} (h : (exec c.prog [] f).2 = (f', .raised))
    (hs : ¬ c.Spoils (f.view ())) : Alike f f' := by
  cases c with
  | executeBuy => exact buy_raised ((raised_discard _).1 h) hs
  | executeSell => exact sell_raised ((raised_discard _).1 h)
  | executeLongTermBuy => exact longTermBuy_raised ((raised_discard _).1 h) hs
  | executeDcaContribution => exact dca_raised ((raised_discard _).1 h) hs
  | executeLongTermSell => exact longTermSell_raised ((raised_discard _).1 h)

theorem exec_of_spoils {c : TradeCall} {f : StoreFile} (hs : c.Spoils (f.view ())) :
    ∃ s, (exec c.prog [] f).2 = (f.put () s, .raised) ∧
      (s.portfolio.currentCash ≠ (f.view ()).portfolio.currentCash ∨
        s.longTermPortfolio.currentCash ≠ (f.view ()).longTermPortfolio.currentCash) := by
  cases c with
  | executeBuy =>
    obtain ⟨v, hv, hexec⟩ := exec_buy_of_spoils hs
    exact ⟨_, (raised_discard _).2 hexec, Or.inl hv⟩
  | executeLongTermBuy =>
    obtain ⟨v, hv, hexec⟩ := exec_longTermBuy_of_spoils hs
    exact ⟨_, (raised_discard _).2 hexec, Or.inr hv⟩
  | executeDcaContribution =>
    obtain ⟨v, hv, hexec⟩ := exec_dca_of_spoils hs
    exact ⟨_, (raised_discard _).2 hexec, Or.inr hv⟩
  | executeSell => exact hs.elim
  | executeLongTermSell => exact hs.elim

/-- A tick commits whatever is open. -/
theorem succeeding_updateLatestPrice (f : StoreFile) (ticker : Ticker) (price : ℚ) :
    succeeding [.updateLatestPrice ticker (some price)] f =
      some ⟨(f.view ()).updateLatestPrice ticker price, none⟩ := by
  have hexec : (exec (PublicMethod.updateLatestPrice ticker (some price)).prog [] f).2 =
      (⟨(f.view ()).updateLatestPrice ticker price, none⟩, .done ()) := by
    show (exec (StoreProg.single _) [] f).2 = _
    rw [StoreProg.single, Prog.bind_eq, exec_attempt]
    show ((f.put () _).commit (), _) = _
    rw [commit_put]
  simp [succeeding, hexec]

/-- The debit of such a call is in the books that the next tick commits. -/
theorem trace_of_spoils {c : TradeCall} {f : StoreFile} (hs : c.Spoils (f.view ())) : ¬ LeavesNoTrace c f := by
  intro h
  obtain ⟨s, hexec, hcash⟩ := exec_of_spoils hs
  obtain ⟨f₂, h₂, hbooks⟩ := h _ hexec _ _ (succeeding_updateLatestPrice (f.put () s) "AAPL" 1)
  rw [succeeding_updateLatestPrice] at h₂
  obtain rfl := Option.some.inj h₂
  rw [view_put] at hbooks
  rcases hcash with hne | hne
  · exact hne (congrArg Portfolio.currentCash hbooks.portfolio)
  · exact hne (congrArg Portfolio.currentCash hbooks.longTermPortfolio)

/-- An account that holds 10 shares of AAPL. -/
def holdingStore : PaperStore :=
  { PaperStore.init 10000 2500 20000 500 with
    portfolio := { initialBalance := 10000, currentCash := 7500 }
    positions := Table.empty.insertOrIgnore ⟨"AAPL", 10, 250, ⟨0, true⟩, 2500, none, none⟩
    tradeHistory := [PaperStore.buyTrade "AAPL" 10 250 2500 7500 ⟨0, true⟩] }

end TalonX.Paper
