import Mathlib.Data.Rat.Defs
import Mathlib.Algebra.Order.Ring.Rat
import Mathlib.Data.List.Sort
import TalonX.Ops.AccountBlocks
import TalonX.Transact.Text

/-!
# The rows of the V2 ledger

The frozen configuration and one structure for each table of the ledger. Money and share quantities are exact
rationals; a text column with a fixed set of values is an inductive type; a content-derived hash is the content it is
computed from (`EpisodeId`, `intentId`, `Alert.eventId`, `ActionKey`).

- `V2Config`, `validateFrozen`: the contract values and the check that they are intact;
- `CorporateActionEvent`: provider evidence, with the ratio and the rate positive by type;
- `Position`, `Trade`, `EntryIntent`, `Alert`, `TrailRow`, `Entitlement`: the tables.
-/

set_option autoImplicit false

namespace TalonX.V2

/-! ## Configuration -/

structure V2Config where
  clusterWindowTradingDays : ℕ := 10
  minDistinctOwners : ℕ := 2
  transactionCode : String := "P"
  entryOffsetSessions : ℕ := 1
  holdTradingDays : ℕ := 10
  stopLossEnabled : Bool := false
  exitFallforwardMaxSessions : ℕ := 5
  maxConcurrentPositions : ℕ := 20
  reentryCooldownTradingDays : ℕ := 5
  allowShorts : Bool := false
  allowRealCapital : Bool := false
  liquidityLookbackSessions : ℕ := 20
  liquidityMinMedianDollarVolume : ℚ := 5000000
  liquidityMinClose : ℚ := 5
  perPositionAllocationUsd : ℚ := 10000
  startingCashUsd : ℚ := 100000
  campaignId : String := "V2"
  maxEntryStalenessSessions : ℕ := 3

namespace V2Config

/-- The assertions on the frozen contract values. -/
def validateFrozen (c : V2Config) : Bool :=
  c.clusterWindowTradingDays = 10 && c.minDistinctOwners = 2 && c.transactionCode = "P" && c.holdTradingDays = 10 &&
    c.entryOffsetSessions = 1 && c.maxConcurrentPositions = 20 && c.reentryCooldownTradingDays = 5 &&
    c.allowShorts = false && c.allowRealCapital = false && c.stopLossEnabled = false &&
    c.liquidityMinMedianDollarVolume = 5000000 && c.liquidityMinClose = 5 && c.liquidityLookbackSessions = 20 &&
    c.exitFallforwardMaxSessions = 5

/-- The defaults pass their own check. -/
theorem validateFrozen_default : ({} : V2Config).validateFrozen = true := by decide +kernel

end V2Config

/-! ## Episodes and corporate actions -/

abbrev Symbol := String

/-- Ordering by a date, then by a text. -/
def orderByDateText {α : Type} (k : α → Date × String) (xs : List α) : List α :=
  xs.insertionSort fun p q => (k p).1 < (k q).1 ∨ ((k p).1 = (k q).1 ∧ (k p).2 ≤ (k q).2)

@[simp] theorem mem_orderByDateText {α : Type} {k : α → Date × String} {xs : List α} {p : α} :
    p ∈ orderByDateText k xs ↔ p ∈ xs := (List.perm_insertionSort _ xs).mem_iff

theorem pairwise_orderByDateText {α : Type} (k : α → Date × String) (xs : List α) :
    (orderByDateText k xs).Pairwise fun p q => (k p).1 ≤ (k q).1 := by
  have htotal : Std.Total fun p q : α => (k p).1 < (k q).1 ∨ ((k p).1 = (k q).1 ∧ (k p).2 ≤ (k q).2) := by
    refine ⟨fun p q => ?_⟩
    rcases lt_trichotomy (k p).1 (k q).1 with h | h | h
    · exact Or.inl (Or.inl h)
    · rcases String.le_total (k p).2 (k q).2 with h' | h'
      · exact Or.inl (Or.inr ⟨h, h'⟩)
      · exact Or.inr (Or.inr ⟨h.symm, h'⟩)
    · exact Or.inr (Or.inl h)
  have htrans : IsTrans α fun p q => (k p).1 < (k q).1 ∨ ((k p).1 = (k q).1 ∧ (k p).2 ≤ (k q).2) := by
    refine ⟨fun p q r hpq hqr => ?_⟩
    rcases hpq with h | ⟨h, h'⟩
    · rcases hqr with g | ⟨g, -⟩
      · exact Or.inl (h.trans g)
      · exact Or.inl (g ▸ h)
    · rcases hqr with g | ⟨g, g'⟩
      · exact Or.inl (h ▸ g)
      · exact Or.inr ⟨h.trans g, String.le_trans h' g'⟩
  exact (List.pairwise_insertionSort _ xs).imp fun h => h.elim le_of_lt fun h => h.1.le

/-- The content `_episode_id` hashes: upper-cased symbol, sorted owners, first and activating filing dates. -/
structure EpisodeId where
  symbol : Symbol
  ownerCiks : List String
  firstFiling : Date
  activationFiling : Date
  deriving DecidableEq, Repr

/-- A split's `new / old`, or a dividend's amount a share: both are positive by classification. -/
abbrev PosRat := { q : ℚ // 0 < q }

inductive ActionKind
  | forwardSplit
  | reverseSplit
  | cashDividend
  | unsupported
  deriving DecidableEq, Repr

def ActionKind.isSplit : ActionKind → Bool
  | .forwardSplit => true
  | .reverseSplit => true
  | _ => false

/-- What a conflict between pieces of evidence is about. -/
inductive ConflictWhat
  | splitRatios (ratios : List ℚ)
  | dividendRates (rates : List ℚ)
  | splitPresence (ratio : ℚ) (missingIn : List String)
  | appliedNotReported
  deriving DecidableEq, Repr

/-- The content-derived idempotency key of an event. -/
inductive ActionKey
  | split (symbol : Symbol) (exDate : Date) (ratio : ℚ)
  | div (symbol : Symbol) (exDate : Date) (rate : ℚ)
  | unsupported (symbol : Symbol) (providerType : String) (exDate : Option Date) (providerId : String)
  | malformed (symbol : Symbol) (providerType : String) (exDate : Option Date) (providerId : String)
  | conflict (symbol : Symbol) (exDate : Option Date) (what : ConflictWhat)
  deriving DecidableEq, Repr

structure CorporateActionEvent where
  actionKey : ActionKey
  symbol : Symbol
  kind : ActionKind
  providerType : String
  exDate : Option Date
  ratio : Option PosRat
  cashRate : Option PosRat
  source : String
  providerId : String
  malformed : Bool
  payableDate : Option Date
  deriving DecidableEq

/-- What a price row says about how it was adjusted. -/
structure Provenance where
  basisAsOf : Option Date
  adjustmentState : Option String
  deriving DecidableEq, Repr

/-! ## Processed episodes -/

/-- Why a sizing was refused. -/
inductive SizingReason
  | badPrice
  | noAllocation
  | allocationBelowOneShare
  | insufficientAvailableCash
  | oneSharePlusFeeExceedsAllocation
  | ok
  deriving DecidableEq, Repr

/-- Why the liquidity gate refused. -/
inductive LiquidityReason
  | noPriorBars
  | insufficientHistory (n lookback : ℕ)
  | nonContiguousWindow (missing n : ℕ)
  | closeLt
  | medianDvLt
  | pass
  deriving DecidableEq, Repr

/-- `reason` of a skipped entry, the tail of its `SKIPPED_…` disposition. -/
inductive SkipReason
  | accountBlocked
  | symbolAlreadyOpen
  | inCooldownUntil (d : Date)
  | maxConcurrent (n : ℕ)
  | badEntryPrice
  | noCash (r : SizingReason)
  | liquidity (r : LiquidityReason)
  | nonBuy
  | noEntryBar
  | entryStale
  | noPriorIntent
  | temporalBoundaryViolation
  | recoveryDeadlinePassed
  | admissionDeadlinePassed
  deriving DecidableEq, Repr

inductive Disposition
  | entered
  | skipped (r : SkipReason)
  | failedNoMarketData
  | rejectedCapacityExceeded
  deriving DecidableEq, Repr

/-! ## Positions and trades -/

inductive PositionStatus
  | open
  | closed
  | exitUnresolved
  deriving DecidableEq, Repr

/-- The columns one `UPDATE` sets when the position closes. -/
structure ExitFields where
  exitSession : Date
  exitPrice : ℚ
  realizedPnlUsd : ℚ
  realizedPnlPct : ℚ
  tradingDaysHeld : ℕ
  exitFee : ℚ
  exitProvenance : Option Provenance

structure Position where
  positionId : ℕ
  episodeId : EpisodeId
  symbol : Symbol
  status : PositionStatus
  entrySession : Date
  targetExitSession : Date
  entryPrice : ℚ
  shares : ℕ
  positionCost : ℚ
  entryFee : ℚ
  entryProvenance : Option Provenance
  exit : Option ExitFields

/-- `status IN ('OPEN', 'EXIT_UNRESOLVED')`: the position occupies its symbol and one slot. -/
def Position.occupied (p : Position) : Bool := p.status = .open || p.status = .exitUnresolved

inductive TradeAction
  | buy
  | sell
  deriving DecidableEq, Repr

structure Trade where
  episodeId : EpisodeId
  symbol : Symbol
  action : TradeAction
  executionPrice : ℚ
  shares : ℚ
  positionCost : ℚ
  portfolioCashAfter : ℚ
  entryPrice : Option ℚ
  realizedPnlUsd : Option ℚ
  realizedPnlPct : Option ℚ
  tradingDaysHeld : Option ℕ
  fee : ℚ

/-! ## Intents and alerts -/

inductive IntentStatus
  | pending
  | filled
  | expiredStale
  | expiredRecoveryDeadline
  | rejectedTemporalBoundaryViolation
  | failedNoMarketData
  | cancelledCutover
  deriving DecidableEq, Repr

/-- A durable pre-open entry intent; `createdAtUtc` is `none` when the stored text does not parse. -/
structure EntryIntent where
  episodeId : EpisodeId
  symbol : Symbol
  targetEntrySession : Date
  plannedExitSession : Option Date
  createdAtUtc : Option Instant
  status : IntentStatus
  filledPositionId : Option ℕ
  fillPrice : Option ℚ
  fillEntrySession : Option Date

/-- The content `_intent_id` hashes. -/
abbrev IntentId := EpisodeId × Date

def EntryIntent.intentId (i : EntryIntent) : IntentId := (i.episodeId, i.targetEntrySession)

inductive AlertKind
  | entryIntent
  | entryFill
  | exitFill
  | entryStale
  | entryFailedNoData
  deriving DecidableEq, Repr

/-- What, besides the episode and the kind, identifies an alert. -/
inductive AlertRef
  | position (id : ℕ)
  | session (d : Date)
  deriving DecidableEq, Repr

/-- The content the alert's `event_id` hashes. -/
abbrev EventId := EpisodeId × AlertKind × AlertRef

structure Alert where
  eventId : EventId
  symbol : Symbol
  intentId : Option IntentId
  positionId : Option ℕ
  deriving DecidableEq

/-- The alert types with "no position opened" in their text. -/
def AlertKind.saysNoPosition : AlertKind → Bool
  | .entryStale => true
  | .entryFailedNoData => true
  | _ => false

/-! ## Corporate-action trail, dividend entitlements -/

inductive VerdictCode
  | evidenceUnavailable
  | conflict
  | unsupported
  | basisUnknown
  | exitBasisStale
  | malformed
  | dividendBasis
  | dividendSplitSameDay
  | basisAmbiguous
  deriving DecidableEq, Repr

inductive TrailStatus
  | applied
  | reflectedInEntryBasis
  | dividendObserved
  | blocked (c : VerdictCode)
  deriving DecidableEq, Repr

def TrailStatus.isBlocked : TrailStatus → Bool
  | .blocked _ => true
  | _ => false

/-- One row of the per-position corporate-action trail; `kind` is `none` on a `BLOCK` row. -/
structure TrailRow where
  positionId : ℕ
  actionKey : ActionKey
  kind : Option ActionKind
  exDate : Option Date
  ratio : PosRat
  status : TrailStatus
  sharesBefore : ℚ
  sharesAfter : ℚ
  costBasis : ℚ

/-- `UNIQUE(position_id, action_key)`. -/
def TrailRow.key (r : TrailRow) : ℕ × ActionKey := (r.positionId, r.actionKey)

inductive EntitlementState
  | accrued
  | credited
  deriving DecidableEq, Repr

/-- Why the last receivables pass did not credit. -/
inductive DividendNote
  | providerUnavailable (asOf : Date)
  | conflictingEvidence (asOf : Date)
  | noLongerConfirmed (asOf : Date)
  | payableDateChanged (asOf : Date)
  deriving DecidableEq, Repr

structure Entitlement where
  entitlementId : ℕ
  positionId : ℕ
  episodeId : EpisodeId
  symbol : Symbol
  actionKey : ActionKey
  exDate : Date
  payableDate : Option Date
  rate : PosRat
  eligibleQty : ℚ
  amountUsd : ℚ
  state : EntitlementState
  creditedAsOf : Option Date
  cashAfter : Option ℚ
  note : Option DividendNote

/-- `UNIQUE(position_id, action_key)`. -/
def Entitlement.key (e : Entitlement) : ℕ × ActionKey := (e.positionId, e.actionKey)

/-! ## Call sites -/

/-- Why a position is given up. -/
inductive UnresolvedReason
  | noBar
  | corporateAction
  deriving DecidableEq, Repr

/-- The call sites of the programs that work on a ledger: the labels of their calls. -/
inductive Call
  | lookup
  | read
  | readIntent (e : EpisodeId)
  | recordDisposition (e : EpisodeId) (d : Disposition)
  | markEntryIntent (e : EpisodeId) (st : IntentStatus)
  | enqueueAlert (e : EpisodeId) (k : AlertKind)
  | fill (e : EpisodeId) (gate : Bool)
  | reserve (e : EpisodeId)
  | trail (pid : ℕ)
  | markExitUnresolved (pid : ℕ) (why : UnresolvedReason)
  | closePosition (pid : ℕ)
  | recordDividendEntitlement (pid : ℕ)
  | noteDividendCheck (eid : ℕ)
  | creditDividend (eid : ℕ)
  | settleDueExitsFailed
  | recordCutover
  | recordAccountBlock
  | clearBlock (q : Ops.ClearanceRequest)
  | clock
  deriving DecidableEq, Repr

/-! ## Cutover log -/

/-- One cutover classification run, as logged. -/
structure CutoverRecord where
  cutoverId : String
  asOfSession : Date
  cancelled : List IntentId
  retained : List IntentId
  expired : List IntentId
  deriving DecidableEq

end TalonX.V2
