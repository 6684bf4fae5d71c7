import TalonX.V2.Sizing
import TalonX.V2.Store

/-!
# The paper lifecycle: entering and closing a position

`enterPosition` and `closePosition` as the source runs them inside one transaction: the result is the outcome and the
new store, or `none` when the call raises (the transaction is then rolled back).

- `entryCheck`: the admission reads in their order, then the sizing;
- `enterPosition_cases`, `closePosition_cases`: everything one call can do, guards included.
-/

set_option autoImplicit false

namespace TalonX.V2

open Transact

inductive Action
  | buy
  | sell
  | hold
  deriving DecidableEq, Repr

/-- The fields of a Brain decision that an entry reads. -/
structure Decision where
  episodeId : EpisodeId
  symbol : Symbol
  action : Action

inductive EntryReason
  | entered
  | decisionNotBuy (a : Action)
  | episodeAlreadyHasPosition
  | episodeAlreadyEntered
  | skip (r : SkipReason)
  deriving DecidableEq, Repr

structure EntryOutcome where
  entered : Bool
  reason : EntryReason
  positionId : Option ℕ := none
  shares : Option ℕ := none
  targetExitSession : Option Date := none

/-! ## Entry -/

/-- `cash` less the reservation of every other pending intent. -/
def availableCash (cfg : V2Config) (s : Store) (e : EpisodeId) : ℚ :=
  s.cash - cfg.perPositionAllocationUsd * (s.pendingEntryIntents.filter fun i => i.episodeId ≠ e).length

/-- The admission reads of an entry, in order; the price and its sizing when nothing refuses. -/
def entryCheck (cfg : V2Config) (feeFn : FeeFn) (s : Store) (e : EpisodeId) (sym : Symbol) (entryPrice : Option ℚ)
    (es : Date) : Except EntryReason (ℚ × SizingResult) :=
  if (s.blockedReason cfg.campaignId).isSome then .error (.skip .accountBlocked)
  else if (s.positionForEpisode e).isSome then .error .episodeAlreadyHasPosition
  else if s.episodeDisposition e = some .entered then .error .episodeAlreadyEntered
  else if (s.positionForSymbol sym).isSome then .error (.skip .symbolAlreadyOpen)
  else
    match (s.cooldownUntil sym).filter (es < ·) with
    | some cd => .error (.skip (.inCooldownUntil cd))
    | none =>
      if cfg.maxConcurrentPositions ≤ s.nOpen then .error (.skip (.maxConcurrent cfg.maxConcurrentPositions))
      else
        match entryPrice with
        | none => .error (.skip .badEntryPrice)
        | some p =>
          if p ≤ 0 then .error (.skip .badEntryPrice)
          else
            let sizing := sizeWholeSharesFeeInclusive p cfg.perPositionAllocationUsd (availableCash cfg s e) feeFn
            if !sizing.ok || sizing.shares < 1 then .error (.skip (.noCash sizing.reason)) else .ok (p, sizing)

/-- The transaction of an admitted entry: position, cash, trade and disposition together. -/
def recordEntry (cal : Calendar) (cfg : V2Config) (s : Store) (e : EpisodeId) (sym : Symbol) (p : ℚ)
    (sizing : SizingResult) (es : Date) (provenance : Option Provenance) : Option (EntryOutcome × Store) :=
  match cal.addSessions es cfg.holdTradingDays with
  | none => none
  | some targetExit =>
    match s.insertOpenPosition e sym es targetExit p sizing.shares sizing.entryTotal sizing.entryFee provenance with
    | none => none
    | some (pid, s') =>
      let cash' := s.cash - sizing.entryTotal
      let trade : Trade :=
        { episodeId := e, symbol := sym, action := .buy, executionPrice := p, shares := sizing.shares,
          positionCost := sizing.entryTotal, portfolioCashAfter := cash', entryPrice := none, realizedPnlUsd := none,
          realizedPnlPct := none, tradingDaysHeld := none, fee := sizing.entryFee }
      some (⟨true, .entered, some pid, some sizing.shares, some targetExit⟩,
        ((s'.setCash cash').appendTrade trade).recordDisposition e .entered)

/-- A refused entry writes its `SKIPPED_…` disposition, except for the two idempotency refusals. -/
def EntryReason.record (s : Store) (e : EpisodeId) : EntryReason → Store
  | .skip r => s.recordDisposition e (.skipped r)
  | _ => s

def enterPosition (cal : Calendar) (cfg : V2Config) (feeFn : FeeFn) (s : Store) (d : Decision)
    (entryPrice : Option ℚ) (es : Date) (provenance : Option Provenance) : Option (EntryOutcome × Store) :=
  if !cfg.validateFrozen then none
  else if d.action ≠ .buy then some (⟨false, .decisionNotBuy d.action, none, none, none⟩, s)
  else
    match entryCheck cfg feeFn s d.episodeId d.symbol.toUpper entryPrice es with
    | .error r => some (⟨false, r, none, none, none⟩, r.record s d.episodeId)
    | .ok (p, sizing) => recordEntry cal cfg s d.episodeId d.symbol.toUpper p sizing es provenance

/-- What the admission reads guarantee. -/
theorem entryCheck_ok {cfg : V2Config} {feeFn : FeeFn} {s : Store} {e : EpisodeId} {sym : Symbol}
    {entryPrice : Option ℚ} {es : Date} {p : ℚ} {z : SizingResult}
    (h : entryCheck cfg feeFn s e sym entryPrice es = .ok (p, z)) :
    s.blockedReason cfg.campaignId = none ∧ s.positionForEpisode e = none ∧ s.episodeDisposition e ≠ some .entered ∧
      s.positionForSymbol sym = none ∧ (∀ cd, s.cooldownUntil sym = some cd → cd ≤ es) ∧
      s.nOpen < cfg.maxConcurrentPositions ∧ 0 < p ∧ 0 < z.entryTotal ∧ z.entryTotal ≤ availableCash cfg s e ∧
      z.entryTotal ≤ cfg.perPositionAllocationUsd ∧ 1 ≤ z.shares := by
  unfold entryCheck at h
  split at h
  · cases h
  rename_i hb
  split at h
  · cases h
  rename_i hp
  split at h
  · cases h
  rename_i hd
  split at h
  · cases h
  rename_i hs
  split at h
  · cases h
  rename_i hc
  split at h
  · cases h
  rename_i hn
  split at h
  · cases h
  split at h
  · cases h
  rename_i q hq
  dsimp only at h
  split at h
  · cases h
  rename_i hz
  simp only [Except.ok.injEq, Prod.mk.injEq] at h
  obtain ⟨rfl, rfl⟩ := h
  simp only [Bool.or_eq_true, Bool.not_eq_true', decide_eq_true_eq, not_or, Bool.not_eq_false] at hz
  obtain ⟨-, htot, -, halloc, havail, hsh⟩ := sizeWholeSharesFeeInclusive_ok rfl hz.1
  refine ⟨by simpa using hb, by simpa using hp, hd, by simpa using hs, fun cd hcd => ?_, not_le.1 hn, not_le.1 hq,
    htot, havail, halloc, hsh⟩
  rw [hcd, Option.filter_eq_none_iff] at hc
  simpa using hc cd rfl

/-- A refusal that writes a disposition: the account is blocked, or the episode has no position. -/
theorem entryCheck_skip {cfg : V2Config} {feeFn : FeeFn} {s : Store} {e : EpisodeId} {sym : Symbol}
    {entryPrice : Option ℚ} {es : Date} {r : SkipReason}
    (h : entryCheck cfg feeFn s e sym entryPrice es = .error (.skip r)) :
    r = .accountBlocked ∨ s.positionForEpisode e = none ∧ s.episodeDisposition e ≠ some .entered := by
  unfold entryCheck at h
  split at h
  · simp only [Except.error.injEq, EntryReason.skip.injEq] at h
    exact Or.inl h.symm
  split at h
  · cases h
  rename_i hp
  split at h
  · cases h
  rename_i hd
  exact Or.inr ⟨by simpa using hp, hd⟩

/-- Everything an admitted entry writes. -/
theorem recordEntry_cases {cal : Calendar} {cfg : V2Config} {s s' : Store} {e : EpisodeId} {sym : Symbol} {p : ℚ}
    {z : SizingResult} {es : Date} {provenance : Option Provenance} {o : EntryOutcome}
    (h : recordEntry cal cfg s e sym p z es provenance = some (o, s')) :
    ∃ (row : Position) (t : Trade) (ps : SeqTable Position.positionId Position.episodeId),
      row.episodeId = e ∧ row.symbol = sym.toUpper ∧ row.status = .open ∧ row.positionCost = z.entryTotal ∧
        row.entrySession = es ∧ cal.addSessions es cfg.holdTradingDays = some row.targetExitSession ∧
        row.shares = z.shares ∧ row.entryPrice = p ∧ row.positionId = s.positions.rows.length + 1 ∧
        t.action = .buy ∧ t.episodeId = e ∧ ps.rows = s.positions.rows ++ [row] ∧
        o = ⟨true, .entered, some row.positionId, some row.shares, some row.targetExitSession⟩ ∧
        s' = { s with
          cash := s.cash - z.entryTotal, positions := ps, trades := s.trades ++ [t],
          processedEpisodes := Function.update s.processedEpisodes e (some .entered) } := by
  unfold recordEntry at h
  cases ht : cal.addSessions es cfg.holdTradingDays with
  | none => simp [ht] at h
  | some targetExit =>
    simp only [ht, Store.insertOpenPosition, Option.map] at h
    split at h
    · cases h
    rename_i pid s1 hi
    split at hi
    · rename_i ps hins
      simp only [Option.some.injEq, Prod.mk.injEq] at hi h
      obtain ⟨rfl, rfl⟩ := hi
      obtain ⟨rfl, rfl⟩ := h
      obtain ⟨hrows, -⟩ := SeqTable.insert?_eq_some hins
      exact ⟨_, _, ps, rfl, rfl, rfl, rfl, rfl, rfl, rfl, rfl, rfl, rfl, rfl, hrows, rfl, rfl⟩
    · cases hi

/-- Everything a committed entry call can do: nothing, refuse with a disposition, or open a position. -/
theorem enterPosition_cases {cal : Calendar} {cfg : V2Config} {feeFn : FeeFn} {s s' : Store} {d : Decision}
    {entryPrice : Option ℚ} {es : Date} {provenance : Option Provenance} {o : EntryOutcome}
    (h : enterPosition cal cfg feeFn s d entryPrice es provenance = some (o, s')) :
    (o.entered = false ∧ (∀ r, o.reason ≠ .skip r) ∧ s' = s) ∨
    (o.entered = false ∧ ∃ r, o.reason = .skip r ∧
      entryCheck cfg feeFn s d.episodeId d.symbol.toUpper entryPrice es = .error (.skip r) ∧
      s' = s.recordDisposition d.episodeId (.skipped r)) ∨
    ∃ p z, cfg.validateFrozen = true ∧
      entryCheck cfg feeFn s d.episodeId d.symbol.toUpper entryPrice es = .ok (p, z) ∧
      recordEntry cal cfg s d.episodeId d.symbol.toUpper p z es provenance = some (o, s') := by
  unfold enterPosition at h
  split at h
  · cases h
  rename_i hfrozen
  split at h
  · simp only [Option.some.injEq, Prod.mk.injEq] at h
    obtain ⟨rfl, rfl⟩ := h
    exact Or.inl ⟨rfl, by simp, rfl⟩
  split at h
  · rename_i r hr
    simp only [Option.some.injEq, Prod.mk.injEq] at h
    obtain ⟨rfl, rfl⟩ := h
    cases r with
    | skip r => exact Or.inr (Or.inl ⟨rfl, r, rfl, hr, rfl⟩)
    | entered => exact Or.inl ⟨rfl, by simp, rfl⟩
    | decisionNotBuy a => exact Or.inl ⟨rfl, by simp, rfl⟩
    | episodeAlreadyHasPosition => exact Or.inl ⟨rfl, by simp, rfl⟩
    | episodeAlreadyEntered => exact Or.inl ⟨rfl, by simp, rfl⟩
  · rename_i p z hok
    exact Or.inr (Or.inr ⟨p, z, by simpa using hfrozen, hok, h⟩)

/-- Everything an admitted entry has checked and writes. -/
structure Entered (cal : Calendar) (cfg : V2Config) (s : Store) (e : EpisodeId) (sym : Symbol) (es : Date)
    (row : Position) (s' : Store) : Prop where
  frozen : cfg.validateFrozen = true
  unblocked : s.blockedReason cfg.campaignId = none
  noPosition : s.positionForEpisode e = none
  symbolFree : s.positionForSymbol sym = none
  cooled : ∀ cd, s.cooldownUntil sym = some cd → cd ≤ es
  slot : s.nOpen < cfg.maxConcurrentPositions
  cost_pos : 0 < row.positionCost
  cost_le_available : row.positionCost ≤ availableCash cfg s e
  cost_le_allocation : row.positionCost ≤ cfg.perPositionAllocationUsd
  episodeId : row.episodeId = e
  symbol : row.symbol = sym.toUpper
  status : row.status = .open
  entrySession : row.entrySession = es
  targetExitSession : cal.addSessions es cfg.holdTradingDays = some row.targetExitSession
  positions : s'.positions.rows = s.positions.rows ++ [row]
  trades : ∃ t : Trade, t.action = .buy ∧ t.episodeId = e ∧ s'.trades = s.trades ++ [t]
  cash : s'.cash = s.cash - row.positionCost
  processed : s'.processedEpisodes = Function.update s.processedEpisodes e (some .entered)
  frame : s' = { s with
    cash := s'.cash, positions := s'.positions, trades := s'.trades, processedEpisodes := s'.processedEpisodes }

theorem entered_of_recordEntry {cal : Calendar} {cfg : V2Config} {feeFn : FeeFn} {s s' : Store} {e : EpisodeId}
    {sym : Symbol} {price : Option ℚ} {p : ℚ} {z : SizingResult} {es : Date} {provenance : Option Provenance}
    {o : EntryOutcome} (hfrozen : cfg.validateFrozen = true)
    (hok : entryCheck cfg feeFn s e sym price es = .ok (p, z))
    (h : recordEntry cal cfg s e sym p z es provenance = some (o, s')) :
    ∃ row, Entered cal cfg s e sym es row s' ∧
      o = ⟨true, .entered, some row.positionId, some row.shares, some row.targetExitSession⟩ := by
  obtain ⟨hb, hp, -, hs, hc, hn, -, hpos, havail, halloc, -⟩ := entryCheck_ok hok
  obtain ⟨row, t, ps, he, hsym, hst, hcost, hes, htgt, -, -, -, ht, hte, hrows, ho, rfl⟩ := recordEntry_cases h
  exact ⟨row,
    { frozen := hfrozen, unblocked := hb, noPosition := hp, symbolFree := hs, cooled := hc, slot := hn
      cost_pos := hcost ▸ hpos, cost_le_available := hcost ▸ havail, cost_le_allocation := hcost ▸ halloc
      episodeId := he, symbol := hsym, status := hst, entrySession := hes, targetExitSession := htgt
      positions := hrows, trades := ⟨t, ht, hte, rfl⟩, cash := by rw [hcost], processed := rfl, frame := rfl }, ho⟩

/-- The positions of all episodes after an entry. -/
theorem Entered.positionForEpisode {cal : Calendar} {cfg : V2Config} {s s' : Store} {e : EpisodeId} {sym : Symbol}
    {es : Date} {row : Position} (h : Entered cal cfg s e sym es row s') (e' : EpisodeId) :
    s'.positionForEpisode e' = (s.positionForEpisode e').or (if e = e' then some row else none) :=
  h.episodeId ▸ Table.get_append h.positions e'

/-! ## Exit -/

structure ExitOutcome where
  symbol : Symbol
  episodeId : EpisodeId
  exitSession : Date
  exitPrice : ℚ
  realizedPnlUsd : ℚ
  realizedPnlPct : ℚ
  tradingDaysHeld : ℕ
  settled : Bool
  blockedReason : Option TrailStatus := none
  exitShares : Option ℚ := none

/-- `for ev in dividends: store.record_dividend_entitlement(…)`. -/
def accrueDividends (pid : ℕ) (es : Date) (s : Store) : List CorporateActionEvent → Option Store
  | [] => some s
  | ev :: evs =>
    match s.recordDividendEntitlement pid ev es with
    | none => none
    | some (_, s') => accrueDividends pid es s' evs

/-- What is known of an entitlement accrued with a settlement at `es`. -/
structure AccruedAt (s : Store) (pid : ℕ) (es : Date) (evs : List CorporateActionEvent) (e : Entitlement) : Prop where
  state : e.state = .accrued
  positionId : e.positionId = pid
  amount_nonneg : 0 ≤ e.amountUsd
  position : ∃ p ∈ s.positions.rows, p.positionId = pid ∧ p.episodeId = e.episodeId ∧ p.entrySession < e.exDate
  not_after : e.exDate ≤ es
  event : ∃ ev ∈ evs, ev.actionKey = e.actionKey ∧ ev.exDate = some e.exDate

/-- Accruing appends `ACCRUED` rows of the position, nothing else. -/
theorem accrueDividends_cases {pid : ℕ} {es : Date} : ∀ {evs : List CorporateActionEvent} {s s' : Store},
    accrueDividends pid es s evs = some s' →
      ∃ (ents : SeqTable Entitlement.entitlementId Entitlement.key) (new : List Entitlement),
        ents.rows = s.entitlements.rows ++ new ∧ (∀ e ∈ new, AccruedAt s pid es evs e) ∧
          s' = { s with entitlements := ents }
  | [], s, s', h => by
    obtain rfl := Option.some.inj h
    exact ⟨s.entitlements, [], by simp, by simp, rfl⟩
  | ev :: evs, s, s', h => by
    unfold accrueDividends at h
    split at h
    · cases h
    rename_i b s1 h1
    obtain ⟨ents, new, hrows, hnew, rfl⟩ := accrueDividends_cases h
    rcases Store.recordDividendEntitlement_cases h1 with rfl | ⟨row, ents1, p, hp, hpid, hlt, hle, hst, hpos, hkey, hex,
      hep, hamt, -, hrows1, rfl⟩
    · refine ⟨ents, new, hrows, fun e he => ?_, rfl⟩
      obtain ⟨a, ha, hev⟩ := (hnew e he).event
      exact { hnew e he with event := ⟨a, List.mem_cons_of_mem _ ha, hev⟩ }
    · refine ⟨ents, row :: new, by rw [hrows, hrows1]; simp, fun e he => ?_, rfl⟩
      rcases List.mem_cons.1 he with rfl | he
      · exact ⟨hst, hpos, hamt, ⟨p, hp, hpid, hep.symm, hlt⟩, hle, ev, List.mem_cons_self, hkey.symm, hex⟩
      · obtain ⟨a, ha, hev⟩ := (hnew e he).event
        exact { hnew e he with event := ⟨a, List.mem_cons_of_mem _ ha, hev⟩ }

/-- Open positions whose target exit session is not after `asOf`. -/
def dueExits (s : Store) (asOf : Date) : List Position := s.openPositions.filter (·.targetExitSession ≤ asOf)

/-- The mutations of a settlement, once the position row is known to be `OPEN`. -/
def recordExit (cal : Calendar) (cfg : V2Config) (s : Store) (row : Position) (shares : ℚ) (econ : ExitEconomics)
    (held : ℕ) (exitPrice : ℚ) (es : Date) (dividends : List CorporateActionEvent) : Option Store :=
  let cashAfter := s.cash + econ.exitNet
  let trade : Trade :=
    { episodeId := row.episodeId, symbol := row.symbol, action := .sell, executionPrice := exitPrice, shares := shares,
      positionCost := row.positionCost, portfolioCashAfter := cashAfter, entryPrice := some row.entryPrice,
      realizedPnlUsd := some econ.realizedPnlUsd, realizedPnlPct := some econ.realizedPnlPct,
      tradingDaysHeld := some held, fee := econ.exitFee }
  match cal.addSessions es cfg.reentryCooldownTradingDays with
  | none => none
  | some cd => accrueDividends row.positionId es (((s.setCash cashAfter).appendTrade trade).setCooldown row.symbol cd) dividends

/-- `position` only supplies the key: every economic value is read again from the row. -/
def closePosition (cal : Calendar) (cfg : V2Config) (feeFn : FeeFn) (s : Store) (position : Position) (exitPrice : ℚ)
    (es : Date) (provenance : Option Provenance) (dividends : List CorporateActionEvent) :
    Option (ExitOutcome × Store) :=
  match s.positionById position.positionId with
  | none => some (⟨position.symbol, position.episodeId, es, exitPrice, 0, 0, 0, false, none, none⟩, s)
  | some row =>
    match s.blockedActionRows row.positionId with
    | b :: _ => some (⟨row.symbol, row.episodeId, es, exitPrice, 0, 0, 0, false, some b.status, none⟩, s)
    | [] =>
      let shares := s.effectiveSharesExact row.positionId
      let econ := computeExitEconomics shares exitPrice row.positionCost feeFn
      match cal.tradingDaysElapsed row.entrySession es with
      | none => none
      | some held =>
        let exit : ExitFields :=
          ⟨es, exitPrice, econ.realizedPnlUsd, econ.realizedPnlPct, held, econ.exitFee, provenance⟩
        match s.closePosition row.positionId exit with
        | (false, s') =>
          some (⟨row.symbol, row.episodeId, es, exitPrice, econ.realizedPnlUsd, econ.realizedPnlPct, held, false, none,
            none⟩, s')
        | (true, s') =>
          (recordExit cal cfg s' row shares econ held exitPrice es dividends).map fun s'' =>
            (⟨row.symbol, row.episodeId, es, exitPrice, econ.realizedPnlUsd, econ.realizedPnlPct, held, true, none,
              some shares⟩, s'')

/-- Everything a committed settlement does. -/
structure Settled (cal : Calendar) (cfg : V2Config) (feeFn : FeeFn) (s : Store) (pid : ℕ) (exitPrice : ℚ) (es : Date)
    (dividends : List CorporateActionEvent) (row : Position) (o : ExitOutcome) (s' : Store) : Prop where
  mem : row ∈ s.positions.rows
  positionId : row.positionId = pid
  wasOpen : row.status = .open
  unblocked : s.blockedActionRows pid = []
  outcome : o.settled = true ∧ o.episodeId = row.episodeId ∧ o.symbol = row.symbol ∧ o.exitSession = es
  cash : s'.cash = s.cash +
    (computeExitEconomics (s.effectiveSharesExact pid) exitPrice row.positionCost feeFn).exitNet
  positions : ∃ x : ExitFields, x.exitSession = es ∧
    x.realizedPnlUsd =
      (computeExitEconomics (s.effectiveSharesExact pid) exitPrice row.positionCost feeFn).realizedPnlUsd ∧
    s'.positions.rows = updateRows (Store.openAt pid)
      (fun p => { p with status := .closed, exit := some x }) s.positions.rows
  trades : ∃ t : Trade, t.action = .sell ∧ t.episodeId = row.episodeId ∧ s'.trades = s.trades ++ [t]
  cooldown : ∃ cd, cal.addSessions es cfg.reentryCooldownTradingDays = some cd ∧
    s'.cooldowns = Function.update s.cooldowns row.symbol.toUpper (some cd)
  entitlements : ∃ new, s'.entitlements.rows = s.entitlements.rows ++ new ∧
    ∀ e ∈ new, AccruedAt s' pid es dividends e
  frame : s' = { s with
    cash := s'.cash, positions := s'.positions, trades := s'.trades, cooldowns := s'.cooldowns,
    entitlements := s'.entitlements }

/-- A committed close either changes nothing, or settles the row that was `OPEN`. -/
theorem closePosition_cases {cal : Calendar} {cfg : V2Config} {feeFn : FeeFn} {s s' : Store} {position : Position}
    {exitPrice : ℚ} {es : Date} {provenance : Option Provenance} {dividends : List CorporateActionEvent}
    {o : ExitOutcome}
    (h : closePosition cal cfg feeFn s position exitPrice es provenance dividends = some (o, s')) :
    (o.settled = false ∧ s' = s) ∨
      ∃ row, Settled cal cfg feeFn s position.positionId exitPrice es dividends row o s' := by
  unfold closePosition at h
  split at h
  · simp only [Option.some.injEq, Prod.mk.injEq] at h
    obtain ⟨rfl, rfl⟩ := h
    exact Or.inl ⟨rfl, rfl⟩
  rename_i row hrow
  obtain ⟨hmem, hid⟩ := SeqTable.byId_eq_some.1 hrow
  split at h
  · simp only [Option.some.injEq, Prod.mk.injEq] at h
    obtain ⟨rfl, rfl⟩ := h
    exact Or.inl ⟨rfl, rfl⟩
  rename_i hblocked
  dsimp only at h
  split at h
  · cases h
  rename_i held hheld
  split at h
  · rename_i s1 hclose
    simp only [Option.some.injEq, Prod.mk.injEq] at h
    obtain ⟨rfl, rfl⟩ := h
    have hs1 := Store.closePosition_of_false (congrArg Prod.fst hclose)
    rw [hclose] at hs1
    exact Or.inl ⟨rfl, hs1⟩
  · rename_i s1 hclose
    have hopen : row.status = .open := by
      obtain ⟨p, hp, hpid, hst⟩ := Store.closePosition_fst.1 (congrArg Prod.fst hclose)
      rwa [s.positions.eq_of_id hmem hp hpid.symm]
    obtain rfl := congrArg Prod.snd hclose
    obtain ⟨s2, hs2, heq⟩ := Option.map_eq_some_iff.1 h
    simp only [Prod.mk.injEq] at heq
    obtain ⟨rfl, rfl⟩ := heq
    unfold recordExit at hs2
    dsimp only at hs2
    split at hs2
    · cases hs2
    rename_i cd hcd
    obtain ⟨ents, new, hrows, hnew, rfl⟩ := accrueDividends_cases hs2
    rw [← hid]
    exact Or.inr ⟨row,
      { mem := hmem, positionId := rfl, wasOpen := hopen, unblocked := hblocked, outcome := ⟨rfl, rfl, rfl, rfl⟩
        cash := rfl, positions := ⟨_, rfl, rfl, rfl⟩, trades := ⟨_, rfl, rfl, rfl⟩, cooldown := ⟨cd, hcd, rfl⟩
        entitlements := ⟨new, hrows, fun e he => { hnew e he with position := (hnew e he).position }⟩, frame := rfl }⟩

end TalonX.V2
