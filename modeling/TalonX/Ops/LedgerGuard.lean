import TalonX.V2.Store

/-!
# The ledger continuity guard

`check_ledger_continuity` on an existing ledger file with its tables. The findings of the dividend and
corporate-action checkers, which the guard passes on under texts of their own, are its argument `delegated`.
-/

set_option autoImplicit false

namespace TalonX.Ops

open Transact TalonX.V2

inductive LedgerProblem
  | negativeCash (cash : ℚ)
  | ledgerEquationBroken (buys sells opens unresolved : ℕ)
  | duplicateBuy (e : EpisodeId)
  | duplicatePosition (e : EpisodeId)
  | cashAccountingMismatch (cash openCost unresolvedCost startingCash realized dividends : ℚ)
  | delegated (text : String)

/-- `SELECT COUNT(*) … WHERE status = ?`. -/
def nStatus (s : Store) (st : PositionStatus) : ℕ := s.positions.rows.countP (·.status = st)

/-- `SELECT COUNT(*) … WHERE action = ?`. -/
def nTrades (s : Store) (a : TradeAction) : ℕ := s.trades.countP (·.action = a)

/-- `SUM(position_cost) … WHERE status = ?`. -/
def costOf (s : Store) (st : PositionStatus) : ℚ := sumWhere (·.status = st) Position.positionCost s.positions.rows

def realizedPnl (p : Position) : ℚ := p.exit.elim 0 ExitFields.realizedPnlUsd

/-- `SUM(realized_pnl_usd) … WHERE status = 'CLOSED'`. -/
def realizedTotal (s : Store) : ℚ := sumWhere (·.status = .closed) realizedPnl s.positions.rows

/-- `SUM(amount_usd) … WHERE state = 'CREDITED'`. -/
def creditedTotal (s : Store) : ℚ := sumWhere (·.state = .credited) Entitlement.amountUsd s.entitlements.rows

/-- `GROUP BY episode_id HAVING c > 1`. -/
def duplicates (es : List EpisodeId) : List EpisodeId := es.dedup.filter fun e => 1 < es.count e

def checkLedgerContinuity (s : Store) (delegated : List String) : List LedgerProblem :=
  let opens := nStatus s .open
  let unresolved := nStatus s .exitUnresolved
  let buys := nTrades s .buy
  let sells := nTrades s .sell
  let diff := (s.cash + costOf s .open + costOf s .exitUnresolved) - (s.startingCash + realizedTotal s + creditedTotal s)
  (if s.cash < 0 then [.negativeCash s.cash] else []) ++
    (if buys ≠ sells + opens + unresolved then [.ledgerEquationBroken buys sells opens unresolved] else []) ++
    (duplicates ((s.trades.filter (·.action = .buy)).map Trade.episodeId)).map .duplicateBuy ++
    (duplicates (s.positions.rows.map Position.episodeId)).map .duplicatePosition ++
    (if 1 < |diff| then
      [.cashAccountingMismatch s.cash (costOf s .open) (costOf s .exitUnresolved) s.startingCash (realizedTotal s)
        (creditedTotal s)]
    else []) ++ delegated.map .delegated

/-- The findings about cash and counts. -/
def LedgerProblem.isCashOrCount : LedgerProblem → Bool
  | .negativeCash _ => true
  | .ledgerEquationBroken .. => true
  | .cashAccountingMismatch .. => true
  | _ => false

/-- When the equations hold and cash is not negative, no finding is about cash or counts. -/
theorem not_isCashOrCount_of_balanced {s : Store} {delegated : List String} (h0 : 0 ≤ s.cash)
    (hc : s.cash + costOf s .open + costOf s .exitUnresolved = s.startingCash + realizedTotal s + creditedTotal s)
    (hn : nTrades s .buy = nTrades s .sell + nStatus s .open + nStatus s .exitUnresolved) :
    ∀ p ∈ checkLedgerContinuity s delegated, p.isCashOrCount = false := by
  intro p hp
  simp only [checkLedgerContinuity, List.mem_append, List.mem_map] at hp
  rw [if_neg (not_lt.2 h0), if_neg (not_not.2 hn), hc, sub_self, abs_zero, if_neg (by norm_num)] at hp
  rcases hp with ((((hp | hp) | ⟨e, -, rfl⟩) | ⟨e, -, rfl⟩) | hp) | ⟨t, -, rfl⟩
  · cases hp
  · cases hp
  · rfl
  · rfl
  · cases hp
  · rfl

end TalonX.Ops
