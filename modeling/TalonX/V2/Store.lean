import Mathlib.Algebra.Order.Floor.Ring
import Mathlib.Data.Rat.Floor
import Mathlib.Tactic.NormNum
import Mathlib.Tactic.Positivity
import TalonX.V2.Schemas

/-!
# The ledger store

The methods of `V2Store` as functions on the ledger's tables. A method that a caller runs inside a transaction returns
the new store; a method that may raise returns `none`, and its caller's transaction is then rolled back.

- portfolio, episodes, positions, intents, outbox: one update each;
- `effectiveSharesExact`, `sharesAtDate`: the economic quantity derived from the split trail;
- `recordDividendEntitlement`, `creditDividend`: the receivable and its once-only credit.
-/

set_option autoImplicit false

namespace TalonX.V2

open Transact

structure Store where
  startingCash : ℚ
  cash : ℚ
  positions : SeqTable Position.positionId Position.episodeId
  trades : List Trade
  cooldowns : Symbol → Option Date
  processedEpisodes : EpisodeId → Option Disposition
  intents : Table EntryIntent.episodeId
  outbox : Table Alert.eventId
  trail : Table TrailRow.key
  entitlements : SeqTable Entitlement.entitlementId Entitlement.key
  blocks : Ops.BlockTables
  cutoverLog : List CutoverRecord
  /-- The wall clock, as the next transaction reads it. -/
  clock : Instant

namespace Store

/-- A freshly initialised ledger file. -/
def init (startingCash : ℚ) : Store where
  startingCash := startingCash
  cash := startingCash
  positions := SeqTable.empty
  trades := []
  cooldowns := fun _ => none
  processedEpisodes := fun _ => none
  intents := Table.empty
  outbox := Table.empty
  trail := Table.empty
  entitlements := SeqTable.empty
  blocks := Ops.BlockTables.empty
  cutoverLog := []
  clock := 0

variable (s : Store)

/-! ## Portfolio, trades, cooldowns -/

def setCash (v : ℚ) : Store := { s with cash := v }

def appendTrade (t : Trade) : Store := { s with trades := s.trades ++ [{ t with symbol := t.symbol.toUpper }] }

def setCooldown (symbol : Symbol) (untilSession : Date) : Store :=
  { s with cooldowns := Function.update s.cooldowns symbol.toUpper (some untilSession) }

def cooldownUntil (symbol : Symbol) : Option Date := s.cooldowns symbol.toUpper

def recordCutover (r : CutoverRecord) : Store := { s with cutoverLog := s.cutoverLog ++ [r] }

/-! ## Account blocks -/

/-- The gate of an account: `none`, or every active block. -/
def blockedReason (accountId : String) : Option (List (Ops.BlockReason × String)) := s.blocks.blockedReason accountId

/-- `account_blocks.record_block` on the ledger's connection. -/
def recordAccountBlock (accountId : String) (reasonType : Ops.BlockReason) (reference : String) : Store :=
  { s with blocks := s.blocks.recordBlock s.clock accountId reasonType reference }

/-! ## Episodes -/

def episodeSeen (e : EpisodeId) : Bool := (s.processedEpisodes e).isSome

def episodeDisposition (e : EpisodeId) : Option Disposition := s.processedEpisodes e

def recordDisposition (e : EpisodeId) (d : Disposition) : Store :=
  { s with processedEpisodes := Function.update s.processedEpisodes e (some d) }

theorem episodeDisposition_recordDisposition_of_ne {s : Store} {e e' : EpisodeId} (d : Disposition) (h : e' ≠ e) :
    (s.recordDisposition e d).episodeDisposition e' = s.episodeDisposition e' := Function.update_of_ne h _ _

/-! ## Positions -/

def openPositions : List Position :=
  orderByDateText (fun p => (p.entrySession, p.symbol)) (s.positions.rows.filter (·.status = .open))

def positionForSymbol (symbol : Symbol) : Option Position :=
  s.positions.rows.find? fun p => p.symbol = symbol.toUpper && p.occupied

def positionForEpisode (e : EpisodeId) : Option Position := s.positions.get e

/-- `WHERE position_id = ? AND status = 'OPEN'`. -/
def openAt (pid : ℕ) (p : Position) : Bool := p.positionId = pid && p.status = .open

@[simp] theorem openAt_iff {pid : ℕ} {p : Position} : openAt pid p = true ↔ p.positionId = pid ∧ p.status = .open := by
  simp [openAt]

theorem occupied_of_openAt {pid : ℕ} {p : Position} (h : openAt pid p) : p.occupied = true := by
  simp [Position.occupied, (openAt_iff.1 h).2]

/-- At most one row qualifies. -/
theorem eq_of_openAt {s : Store} {pid : ℕ} {p q : Position} (hp : p ∈ s.positions.rows) (hq : q ∈ s.positions.rows)
    (h : openAt pid p) (h' : openAt pid q) : q = p :=
  s.positions.eq_of_id hq hp ((openAt_iff.1 h').1.trans (openAt_iff.1 h).1.symm)

def positionById (pid : ℕ) : Option Position := s.positions.byId pid

/-- Occupied capacity slots: `OPEN` or `EXIT_UNRESOLVED`. -/
def nOpen : ℕ := s.positions.rows.countP (·.occupied)

/-- Returns the new position's id; raises when the episode already has a position. -/
def insertOpenPosition (e : EpisodeId) (symbol : Symbol) (entrySession targetExitSession : Date) (entryPrice : ℚ)
    (shares : ℕ) (positionCost entryFee : ℚ) (provenance : Option Provenance) : Option (ℕ × Store) :=
  let row : ℕ → Position := fun i =>
    { positionId := i, episodeId := e, symbol := symbol.toUpper, status := .open, entrySession := entrySession,
      targetExitSession := targetExitSession, entryPrice := entryPrice, shares := shares, positionCost := positionCost,
      entryFee := entryFee, entryProvenance := provenance, exit := none }
  (s.positions.insert? row fun _ => rfl).map fun ps => (s.positions.rows.length + 1, { s with positions := ps })

/-- `OPEN → EXIT_UNRESOLVED`, with the account block in the same commit. Raises when there is no such row. -/
def markExitUnresolved (accountId : String) (pid : ℕ) : Option Store :=
  let s' : Store := { s with
    positions := s.positions.update (openAt pid)
      (fun p => { p with status := .exitUnresolved }) (fun _ => rfl) (fun _ => rfl) }
  match s'.positionById pid with
  | none => none
  | some p => if p.status = .exitUnresolved then some (s'.recordAccountBlock accountId .exitUnresolved (toString pid))
    else some s'

/-- A committed call changes the position's status and the blocks, nothing else. -/
theorem markExitUnresolved_cases {s s' : Store} {accountId : String} {pid : ℕ}
    (h : s.markExitUnresolved accountId pid = some s') :
    ∃ ps bs, ps.rows = updateRows (openAt pid)
        (fun p => { p with status := .exitUnresolved }) s.positions.rows ∧
      s' = { s with positions := ps, blocks := bs } := by
  unfold markExitUnresolved at h
  dsimp only at h
  split at h
  · cases h
  split at h
  · obtain rfl := Option.some.inj h
    refine ⟨_, _, ?_, rfl⟩
    rfl
  · obtain rfl := Option.some.inj h
    refine ⟨_, _, ?_, rfl⟩
    rfl

/-- `OPEN → CLOSED`; `false` when the row was not `OPEN`. -/
def closePosition (pid : ℕ) (x : ExitFields) : Bool × Store :=
  (s.positions.rows.any (openAt pid),
    { s with
      positions := s.positions.update (openAt pid)
        (fun p => { p with status := .closed, exit := some x }) (fun _ => rfl) (fun _ => rfl) })

/-- The transition happens on an `OPEN` row, and only there. -/
theorem closePosition_fst {s : Store} {pid : ℕ} {x : ExitFields} :
    (s.closePosition pid x).1 = true ↔ ∃ p ∈ s.positions.rows, p.positionId = pid ∧ p.status = .open := by
  simp [closePosition]

/-- Without the transition nothing changes. -/
theorem closePosition_of_false {s : Store} {pid : ℕ} {x : ExitFields} (h : (s.closePosition pid x).1 = false) :
    (s.closePosition pid x).2 = s := by
  simp only [closePosition, List.any_eq_false] at h
  have hrows : (s.closePosition pid x).2.positions = s.positions :=
    SeqTable.eq_of_rows (updateRows_of_forall_not fun p hp => Bool.eq_false_iff.2 (h p hp))
  calc (s.closePosition pid x).2 = { s with positions := (s.closePosition pid x).2.positions } := rfl
    _ = s := by rw [hrows]

/-! ## Corporate-action trail -/

def positionActionTrail (pid : ℕ) : List TrailRow := s.trail.rows.filter (·.positionId = pid)

/-- Entry shares times the exact product of the `APPLIED` ratios. -/
def effectiveSharesExact (pid : ℕ) : ℚ :=
  ((s.positionActionTrail pid).filter (·.status = .applied)).foldl (fun q r => q * r.ratio.1)
    (((s.positionById pid).map fun p => (p.shares : ℚ)).getD 0)

def blockedActionRows (pid : ℕ) : List TrailRow := (s.positionActionTrail pid).filter (·.status.isBlocked)

def clearBlockedActionRows (pid : ℕ) : Store :=
  { s with trail := s.trail.delete fun r => r.positionId = pid && r.status.isBlocked }

def recordBlockedAction (pid : ℕ) (key : ActionKey) (code : VerdictCode) : Store :=
  { s with
    trail := s.trail.insertOrIgnore
      { positionId := pid, actionKey := key, kind := none, exDate := none, ratio := ⟨1, one_pos⟩,
        status := .blocked code, sharesBefore := 0, sharesAfter := 0, costBasis := 0 } }

/-- Appends one trail row; a second row for the same position and action is a no-op (`false`). -/
def applyPositionAction (pid : ℕ) (ev : CorporateActionEvent) (status : TrailStatus) : Bool × Store :=
  match s.positionById pid with
  | none => (false, s)
  | some p =>
    let before := s.effectiveSharesExact pid
    let ratio : PosRat := ev.ratio.getD ⟨1, one_pos⟩
    let row : TrailRow :=
      { positionId := pid, actionKey := ev.actionKey, kind := some ev.kind, exDate := ev.exDate, ratio := ratio,
        status := status, sharesBefore := before,
        sharesAfter := if status = .applied then before * ratio.1 else before, costBasis := p.positionCost }
    ((s.trail.get row.key).isNone, { s with trail := s.trail.insertOrIgnore row })

/-- One trail row's effect on the shares held before `onDate`; a split row without an ex-date raises. -/
def sharesAtDateStep (onDate : Date) (q : ℚ) (r : TrailRow) : Option ℚ :=
  if (r.status = .applied || r.status = .reflectedInEntryBasis) && (r.kind.elim false ActionKind.isSplit) then
    match r.exDate with
    | none => none
    | some ex =>
      if r.status = .applied && ex < onDate then some (q * r.ratio.1)
      else if r.status = .reflectedInEntryBasis && onDate < ex then some (q / r.ratio.1)
      else some q
  else some q

/-- Economic shares at the close before `onDate`'s open. -/
def sharesAtDate (pid : ℕ) (onDate : Date) : Option ℚ :=
  (s.positionActionTrail pid).foldlM (sharesAtDateStep onDate)
    (((s.positionById pid).map fun p => (p.shares : ℚ)).getD 0)

/-- Shares are never negative. -/
theorem sharesAtDate_nonneg {s : Store} {pid : ℕ} {onDate : Date} {q : ℚ} (h : s.sharesAtDate pid onDate = some q) :
    0 ≤ q := by
  have hfold : ∀ (rows : List TrailRow) (q₀ q : ℚ), 0 ≤ q₀ → rows.foldlM (sharesAtDateStep onDate) q₀ = some q →
      0 ≤ q := by
    intro rows
    induction rows with
    | nil =>
      intro q₀ q h0 h
      obtain rfl : q₀ = q := by simpa using h
      exact h0
    | cons r rows ih =>
      intro q₀ q h0 h
      rw [List.foldlM_cons] at h
      obtain ⟨q₁, h1, h⟩ := Option.bind_eq_some_iff.1 h
      refine ih q₁ q ?_ h
      have hr := r.ratio.2
      unfold sharesAtDateStep at h1
      split at h1
      · split at h1
        · cases h1
        · split at h1
          · obtain rfl := Option.some.inj h1
            exact mul_nonneg h0 hr.le
          · split at h1
            · obtain rfl := Option.some.inj h1
              exact div_nonneg h0 hr.le
            · obtain rfl := Option.some.inj h1
              exact h0
      · obtain rfl := Option.some.inj h1
        exact h0
  refine hfold _ _ q ?_ h
  cases s.positionById pid with
  | none => exact le_refl _
  | some p => exact Nat.cast_nonneg _

theorem effectiveSharesExact_nonneg (s : Store) (pid : ℕ) : 0 ≤ s.effectiveSharesExact pid := by
  have hfold : ∀ (rows : List TrailRow) (q : ℚ), 0 ≤ q → 0 ≤ rows.foldl (fun q r => q * r.ratio.1) q := by
    intro rows
    induction rows with
    | nil => exact fun q h => h
    | cons r rows ih => exact fun q h => ih _ (mul_nonneg h r.ratio.2.le)
  refine hfold _ _ ?_
  cases s.positionById pid with
  | none => exact le_refl _
  | some p => exact Nat.cast_nonneg _

/-! ## Dividend entitlements -/

/-- `ROUND_HALF_UP` to cents, of an amount that is not negative. -/
def roundCents (x : ℚ) : ℚ := (⌊x * 100 + 1 / 2⌋ : ℚ) / 100

theorem roundCents_nonneg {x : ℚ} (h : 0 ≤ x) : 0 ≤ roundCents x := by
  have h1 : (0 : ℚ) ≤ x * 100 + 1 / 2 := by positivity
  have h2 : (0 : ℤ) ≤ ⌊x * 100 + 1 / 2⌋ := Int.floor_nonneg.2 h1
  exact div_nonneg (by exact_mod_cast h2) (by norm_num)

/-- Creates one `ACCRUED` entitlement for a position and an event; no cash moves. -/
def recordDividendEntitlement (pid : ℕ) (ev : CorporateActionEvent) (exitSession : Date) : Option (Bool × Store) :=
  match s.positionById pid, ev.exDate, ev.cashRate with
  | some p, some ex, some rate =>
    if p.entrySession < ex && ex ≤ exitSession then
      match s.sharesAtDate pid ex with
      | none => none
      | some qty =>
        let row : ℕ → Entitlement := fun i =>
          { entitlementId := i, positionId := pid, episodeId := p.episodeId, symbol := p.symbol,
            actionKey := ev.actionKey, exDate := ex, payableDate := ev.payableDate, rate := rate, eligibleQty := qty,
            amountUsd := roundCents (rate.1 * qty), state := .accrued, creditedAsOf := none, cashAfter := none,
            note := none }
        match s.entitlements.insert? row fun _ => rfl with
        | some es => some (true, { s with entitlements := es })
        | none => some (false, s)
    else some (false, s)
  | _, _, _ => some (false, s)

/-- A committed call appends at most one row, an `ACCRUED` one of this position and event. -/
theorem recordDividendEntitlement_cases {s s' : Store} {pid : ℕ} {ev : CorporateActionEvent} {es : Date} {b : Bool}
    (h : s.recordDividendEntitlement pid ev es = some (b, s')) :
    s' = s ∨ ∃ (row : Entitlement) (ents : SeqTable Entitlement.entitlementId Entitlement.key) (p : Position),
      p ∈ s.positions.rows ∧ p.positionId = pid ∧ p.entrySession < row.exDate ∧ row.exDate ≤ es ∧
        row.state = .accrued ∧ row.positionId = pid ∧ row.actionKey = ev.actionKey ∧ ev.exDate = some row.exDate ∧
        row.episodeId = p.episodeId ∧ 0 ≤ row.amountUsd ∧ (∀ e ∈ s.entitlements.rows, e.key ≠ row.key) ∧
        ents.rows = s.entitlements.rows ++ [row] ∧ s' = { s with entitlements := ents } := by
  unfold recordDividendEntitlement at h
  split at h
  · rename_i p ex rate hp hex hrate
    split at h
    · rename_i hwin
      split at h
      · cases h
      · rename_i qty hqty
        dsimp only at h
        split at h
        · rename_i ents hins
          simp only [Option.some.injEq, Prod.mk.injEq] at h
          obtain ⟨-, rfl⟩ := h
          obtain ⟨hrows, hkey⟩ := SeqTable.insert?_eq_some hins
          obtain ⟨hmem, hid⟩ := SeqTable.byId_eq_some.1 hp
          simp only [Bool.and_eq_true, decide_eq_true_eq] at hwin
          exact Or.inr ⟨_, ents, p, hmem, hid, hwin.1, hwin.2, rfl, rfl, rfl, hex, rfl,
            roundCents_nonneg (mul_nonneg rate.2.le (sharesAtDate_nonneg hqty)), hkey, hrows, rfl⟩
        · simp only [Option.some.injEq, Prod.mk.injEq] at h
          exact Or.inl h.2.symm
    · simp only [Option.some.injEq, Prod.mk.injEq] at h
      exact Or.inl h.2.symm
  · simp only [Option.some.injEq, Prod.mk.injEq] at h
    exact Or.inl h.2.symm

def accruedEntitlements : List Entitlement := s.entitlements.rows.filter (·.state = .accrued)

def noteDividendCheck (eid : ℕ) (n : DividendNote) : Store :=
  { s with
    entitlements := s.entitlements.update (fun e => e.entitlementId = eid && e.state = .accrued)
      (fun e => { e with note := some n }) (fun _ => rfl) (fun _ => rfl) }

/-- `ACCRUED → CREDITED` and the cash credit in one transaction, once. -/
def creditDividend (eid : ℕ) (asOf : Date) : Bool × Store :=
  match s.entitlements.rows.find? fun e => e.entitlementId = eid && e.state = .accrued with
  | none => (false, s)
  | some e =>
    match e.payableDate with
    | none => (false, s)
    | some pay =>
      if asOf < pay then (false, s)
      else
        let cashAfter := s.cash + e.amountUsd
        (true, { s with
          cash := cashAfter
          entitlements := s.entitlements.update (fun e => e.entitlementId = eid && e.state = .accrued)
            (fun e => { e with state := .credited, creditedAsOf := some asOf, cashAfter := some cashAfter, note := none })
            (fun _ => rfl) (fun _ => rfl) })

/-- A credit happens on an `ACCRUED` row whose payable date has come, and moves its amount. -/
theorem creditDividend_cases {s s' : Store} {eid : ℕ} {asOf : Date} {b : Bool}
    (h : s.creditDividend eid asOf = (b, s')) :
    (b = false ∧ s' = s) ∨ b = true ∧ ∃ e ∈ s.entitlements.rows, ∃ pay ents,
      e.entitlementId = eid ∧ e.state = .accrued ∧ e.payableDate = some pay ∧ pay ≤ asOf ∧
        ents.rows = updateRows (fun e => e.entitlementId = eid && e.state = .accrued)
          (fun r => { r with
            state := .credited, creditedAsOf := some asOf, cashAfter := some (s.cash + e.amountUsd), note := none })
          s.entitlements.rows ∧
        s' = { s with cash := s.cash + e.amountUsd, entitlements := ents } := by
  unfold creditDividend at h
  split at h
  · simp only [Prod.mk.injEq] at h
    exact Or.inl ⟨h.1.symm, h.2.symm⟩
  rename_i e he
  split at h
  · simp only [Prod.mk.injEq] at h
    exact Or.inl ⟨h.1.symm, h.2.symm⟩
  rename_i pay hpay
  split at h
  · simp only [Prod.mk.injEq] at h
    exact Or.inl ⟨h.1.symm, h.2.symm⟩
  rename_i hle
  simp only [Prod.mk.injEq] at h
  obtain ⟨rfl, rfl⟩ := h
  have hpred : e.entitlementId = eid ∧ e.state = .accrued := by simpa using List.find?_some he
  refine Or.inr ⟨rfl, e, List.mem_of_find?_eq_some he, pay, _, hpred.1, hpred.2, hpay, not_lt.1 hle, ?_, rfl⟩
  rfl

/-! ## Intents and outbox -/

def entryIntent (e : EpisodeId) : Option EntryIntent := s.intents.get e

def pendingEntryIntents : List EntryIntent :=
  orderByDateText (fun i => (i.targetEntrySession, i.symbol)) (s.intents.rows.filter (·.status = .pending))

/-- Never overwrites an existing row of the episode. -/
def upsertEntryIntent (i : EntryIntent) : Store := { s with intents := s.intents.insertOrIgnore i }

theorem entryIntent_upsertEntryIntent_of_ne {s : Store} {i : EntryIntent} {e : EpisodeId} (h : e ≠ i.episodeId) :
    (s.upsertEntryIntent i).entryIntent e = s.entryIntent e := Table.get_insertOrIgnore_of_ne h

/-- The columns that a mark sets. -/
def marked (status : IntentStatus) (fill : Option (ℕ × ℚ × Date)) (i : EntryIntent) : EntryIntent :=
  { i with
    status := status, filledPositionId := fill.map (·.1), fillPrice := fill.map (·.2.1),
    fillEntrySession := fill.map (·.2.2) }

theorem marked_episodeId (status : IntentStatus) (fill : Option (ℕ × ℚ × Date)) (i : EntryIntent) :
    (marked status fill i).episodeId = i.episodeId := rfl

/-- `UPDATE … WHERE intent_id = ? AND status = 'PENDING'`. -/
def markEntryIntent (iid : IntentId) (status : IntentStatus) (fill : Option (ℕ × ℚ × Date)) : Store :=
  { s with
    intents := s.intents.update (fun i => i.intentId = iid && i.status = .pending) (marked status fill)
      (marked_episodeId status fill) }

theorem rows_markEntryIntent (iid : IntentId) (status : IntentStatus) (fill : Option (ℕ × ℚ × Date)) :
    (s.markEntryIntent iid status fill).intents.rows =
      updateRows (fun i => i.intentId = iid && i.status = .pending) (marked status fill) s.intents.rows := rfl

/-- The intent row that a mark leaves for an episode. -/
theorem entryIntent_markEntryIntent (iid : IntentId) (status : IntentStatus) (fill : Option (ℕ × ℚ × Date))
    (e : EpisodeId) : (s.markEntryIntent iid status fill).entryIntent e = (s.entryIntent e).map fun i =>
      if i.intentId = iid && i.status = .pending then marked status fill i else i :=
  Table.get_updateRows (s.rows_markEntryIntent iid status fill) (marked_episodeId status fill) e

/-- A mark does not touch the intents of other episodes. -/
theorem entryIntent_markEntryIntent_of_ne {s : Store} {iid : IntentId} {e : EpisodeId} (status : IntentStatus)
    (fill : Option (ℕ × ℚ × Date)) (h : e ≠ iid.1) :
    (s.markEntryIntent iid status fill).entryIntent e = s.entryIntent e := by
  rw [entryIntent_markEntryIntent]
  cases hi : s.entryIntent e with
  | none => rfl
  | some i =>
    have hne : i.intentId ≠ iid := fun heq => h ((Table.key_of_get hi).symm.trans (congrArg Prod.fst heq))
    simp [hne]

/-- Idempotent on the event id. -/
def enqueueAlert (a : Alert) : Store := { s with outbox := s.outbox.insertOrIgnore a }

end Store

end TalonX.V2
