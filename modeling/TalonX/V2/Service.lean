import TalonX.V2.Dividends
import TalonX.V2.Pipeline

/-!
# The service tick

One tick is a program on the ledger, started with what the outside world shows it (`TickInput`): the source read, the
clocks, the bars and prices and the corporate-action evidence. Its phases run in the order of the source.

- `attemptEpisode`, `phaseOpen`: entries of attemptable episodes, the fill in one transaction with its intent and alert;
- `phaseCorporateActions`, `phaseClose`, `phaseDividends`: sweep, due exits with their alerts, dividends;
- `expireStale`, `admitIntent`, `phasePostClose`: the staleness sweep, then new reservations;
- `tick`.
-/

set_option autoImplicit false

namespace TalonX.V2

open Transact

/-! ## Inputs -/

/-- Where, besides at its start, a tick reads the wall clock. -/
inductive ClockSite
  | boundary
  | recovery
  | admission
  | created
  deriving DecidableEq

/-- The corporate-action evidence of a tick, by the phase that fetches it. -/
structure TickEvidence where
  sweep : Evidence
  settle : Evidence
  catchUp : Evidence
  credit : Evidence

structure TickInput where
  /-- The pinned date of a replay or dry run; a live tick has none. -/
  asOf : Option Date
  /-- The wall clock when the tick starts. -/
  now : Instant
  /-- Seconds from the start of the tick to a later reading of the clock. -/
  delay : ClockSite → EpisodeId → ℕ
  /-- The records of the source read; `none` when the source is unavailable. -/
  records : Option (List PurchaseRecord)
  allowlist : Option (List Symbol)
  /-- `durable_store_gate_enabled`. -/
  gate : Bool
  /-- `strict_liquidity_window`. -/
  strict : Bool
  dissemination : Symbol → Date → Option Instant
  receipt : Symbol → Date → Option Instant
  /-- The dissemination lookup was refreshed this tick. -/
  refreshed : Bool
  openBars : BarsLookup
  postBars : BarsLookup
  openPrice : PriceLookup
  closePrice : PriceLookup
  /-- `none` when no corporate-action guard is configured. -/
  guard : Option TickEvidence

namespace TickInput

variable (i : TickInput)

def live : Bool := i.asOf.isNone

def today : Date := i.asOf.getD (utcDate i.now)

/-- A later reading of the wall clock. -/
def clock (site : ClockSite) (e : EpisodeId) : Instant := i.now + i.delay site e

/-- `today` when it is a session, else the next session. -/
def ripeThrough (cal : Calendar) : Option Date :=
  if cal.isSession i.today then some i.today else cal.nextSessionOnOrAfter i.today

/-- Symbols outside the execution allowlist are dropped; an empty allowlist drops everything. -/
def allowed (sym : Symbol) : Bool := i.allowlist.all fun allow => sym.toUpper ∈ allow.map String.toUpper

/-- `all_eps`: the detected episodes within the execution scope. -/
def episodes (cal : Calendar) (cfg : V2Config) : Option (List ClusterEpisode) :=
  match i.records with
  | none => some []
  | some rs =>
    (detectEpisodes cal cfg (rs.filter (i.allowed ·.symbol))).map fun eps => eps.filter (i.allowed ·.symbol)

end TickInput

/-- Sessions before `ripe_through` are on past dates. -/
theorem TickInput.lt_today {cal : Calendar} {i : TickInput} {ripe d : Date} (hr : i.ripeThrough cal = some ripe)
    (hd : d ∈ cal.sessions) (hlt : d < ripe) : d < i.today := by
  unfold TickInput.ripeThrough at hr
  split at hr
  · obtain rfl := Option.some.inj hr
    exact hlt
  · by_contra hle
    exact absurd hlt (Nat.not_lt.2 (Calendar.nextSessionOnOrAfter_le hr hd (Nat.le_of_not_lt hle)))

/-- No episode is attempted twice in one tick, and the id determines the entry session. -/
theorem episodes_spec {cal : Calendar} {cfg : V2Config} {i : TickInput} {all : List ClusterEpisode}
    (h : i.episodes cal cfg = some all) :
    (all.map ClusterEpisode.episodeId).Nodup ∧ ∀ ep ∈ all, ep.EntersNext cal := by
  unfold TickInput.episodes at h
  split at h
  · obtain rfl := Option.some.inj h
    simp
  · obtain ⟨eps, heps, rfl⟩ := Option.map_eq_some_iff.1 h
    obtain ⟨hn, hmem⟩ := detectEpisodes_spec heps
    exact ⟨(List.filter_sublist.map _).nodup hn, fun ep hep => (hmem ep (List.mem_filter.1 hep).1).2⟩

/-- `stale_cut`: the earliest entry session that is still attemptable. -/
def staleCut (cal : Calendar) (cfg : V2Config) (ripe : Date) : Option Date :=
  if 0 < cfg.maxEntryStalenessSessions then cal.addSessions ripe (-((cfg.maxEntryStalenessSessions : ℤ) - 1))
  else some 0

def isStale (cfg : V2Config) (cut : Date) (e : ClusterEpisode) : Bool :=
  0 < cfg.maxEntryStalenessSessions && e.eligibleEntrySession < cut

/-- The filing was disseminated, received and acted on strictly before the entry session's open. An unknown
dissemination time fails on a live tick, and on a tick that did query the source. -/
def verifyTemporalBoundary (cal : Calendar) (i : TickInput) (ep : ClusterEpisode) (intent : Option EntryIntent)
    (site : ClockSite) : Bool :=
  match i.dissemination ep.symbol.toUpper ep.activationFilingDate with
  | none => !(i.live || i.refreshed)
  | some ts =>
    let rthOpen := cal.openUtc ep.eligibleEntrySession
    cal.isSession ep.eligibleEntrySession && ts < rthOpen &&
      ((i.receipt ep.symbol.toUpper ep.activationFilingDate).all (· < rthOpen)) &&
      (!i.live ||
        match intent with
        | some it => it.createdAtUtc.any (· < rthOpen)
        | none => i.clock site ep.episodeId < rthOpen)

/-- The hard admission gate: unreserved cash below one allocation, or no unreserved slot. -/
def capacityRejected (cfg : V2Config) (s : Store) : Bool :=
  let pending := s.pendingEntryIntents.length
  s.cash - cfg.perPositionAllocationUsd * pending < cfg.perPositionAllocationUsd ||
    (cfg.maxConcurrentPositions : ℤ) - s.nOpen - pending ≤ 0

/-! ## Alerts -/

def entryAlert (ep : ClusterEpisode) (kind : AlertKind) (intent : Option EntryIntent) : Alert :=
  ⟨(ep.episodeId, kind, .session ep.eligibleEntrySession), ep.symbol.toUpper, intent.map EntryIntent.intentId, none⟩

def fillAlert (ep : ClusterEpisode) (intent : Option EntryIntent) (pid : ℕ) : Alert :=
  ⟨(ep.episodeId, .entryFill, .position pid), ep.symbol.toUpper, intent.map EntryIntent.intentId, some pid⟩

def exitAlert (x : ExitRecord) : Alert :=
  ⟨(x.episodeId, .exitFill, .session x.exitSession), x.symbol.toUpper, none, none⟩

def enqueueAlert (a : Alert) : Prog Call Store Unit :=
  Prog.write (.enqueueAlert a.eventId.1 a.eventId.2.1) (·.enqueueAlert a)

def recordDisposition (e : EpisodeId) (d : Disposition) : Prog Call Store Unit :=
  Prog.write (.recordDisposition e d) (·.recordDisposition e d)

def markIntent (it : EntryIntent) (st : IntentStatus) : Prog Call Store Unit :=
  Prog.write (.markEntryIntent it.episodeId st) (·.markEntryIntent it.intentId st none)

/-- `if intent is not None: store.mark_entry_intent(…)`. -/
def releaseIntent (intent : Option EntryIntent) (st : IntentStatus) : Prog Call Store Unit :=
  match intent with
  | none => pure ()
  | some it => markIntent it st

/-- `if not store.episode_seen(…): store.record_disposition(…)`. -/
def recordUnseen (e : EpisodeId) (d : Disposition) : Prog Call Store Unit := do
  let seen ← Prog.read .read (·.episodeSeen e)
  if seen then pure () else recordDisposition e d

/-! ## Phase open -/

/-- The intent that was read, if it was `PENDING` then, becomes `FILLED`. -/
def markFilled (intent : Option EntryIntent) (fill : ℕ × ℚ × Date) (s : Store) : Store :=
  match intent with
  | none => s
  | some it => if it.status = .pending then s.markEntryIntent it.intentId .filled (some fill) else s

/-- The fill transaction: the entry attempt and, when it entered, the intent's `FILLED` and the fill alert. -/
def fillTxn (cal : Calendar) (cfg : V2Config) (i : TickInput) (ep : ClusterEpisode) (intent : Option EntryIntent)
    (s : Store) : Option (EpisodeResult × Store) :=
  match processEpisode cal cfg i.strict i.openBars i.openPrice ep s with
  | none => none
  | some (.entry pid px shares target, s') =>
    some (.entry pid px shares target,
      (markFilled intent (pid, px, ep.eligibleEntrySession) s').enqueueAlert (fillAlert ep intent pid))
  | some r => some r

/-- Only the intents change. -/
theorem markFilled_frame (intent : Option EntryIntent) (fill : ℕ × ℚ × Date) (s : Store) :
    ∃ t, markFilled intent fill s = { s with intents := t } := by
  unfold markFilled
  split
  · exact ⟨s.intents, rfl⟩
  · split
    · exact ⟨_, rfl⟩
    · exact ⟨s.intents, rfl⟩

theorem entryIntent_markFilled_of_ne {intent : Option EntryIntent} {e e' : EpisodeId}
    (hit : ∀ it, intent = some it → it.episodeId = e) (hne : e' ≠ e) (fill : ℕ × ℚ × Date) (s : Store) :
    (markFilled intent fill s).entryIntent e' = s.entryIntent e' := by
  unfold markFilled
  split
  · rfl
  · rename_i it
    split
    · refine Store.entryIntent_markEntryIntent_of_ne _ _ ?_
      rwa [EntryIntent.intentId, hit it rfl]
    · rfl

/-- The intent that was read is not `PENDING` afterwards. -/
theorem entryIntent_markFilled_self {s : Store} {e : EpisodeId} {it : EntryIntent} {fill : ℕ × ℚ × Date}
    (h : (markFilled (s.entryIntent e) fill s).entryIntent e = some it) : it.status ≠ .pending := by
  unfold markFilled at h
  split at h
  · rename_i hnone
    rw [hnone] at h
    cases h
  · rename_i i hi
    split at h
    · rename_i hp
      rw [Store.entryIntent_markEntryIntent, hi, Option.map_some, if_pos (by simp [hp])] at h
      obtain rfl := Option.some.inj h
      simp [Store.marked]
    · rename_i hp
      rw [hi] at h
      obtain rfl := Option.some.inj h
      exact hp

/-- What a committed fill transaction that opened a position did. -/
structure Filled (cal : Calendar) (cfg : V2Config) (ep : ClusterEpisode) (intent : Option EntryIntent) (s : Store)
    (row : Position) (s' : Store) : Prop where
  fresh : alreadyProcessed s ep.episodeId = false
  entered : ∃ s₁ px, Entered cal cfg s ep.episodeId ep.symbol.toUpper ep.eligibleEntrySession row s₁ ∧
    s' = (markFilled intent (row.positionId, px, ep.eligibleEntrySession) s₁).enqueueAlert
      (fillAlert ep intent row.positionId)

/-- The tables after a fill. -/
theorem Filled.tables {cal : Calendar} {cfg : V2Config} {ep : ClusterEpisode} {intent : Option EntryIntent}
    {s s' : Store} {row : Position} (h : Filled cal cfg ep intent s row s') :
    (∀ e, s'.positionForEpisode e = (s.positionForEpisode e).or (if ep.episodeId = e then some row else none)) ∧
      s'.processedEpisodes = Function.update s.processedEpisodes ep.episodeId (some .entered) ∧
      (∃ fill, s'.intents = (markFilled intent fill s).intents) ∧
      s'.outbox = s.outbox.insertOrIgnore (fillAlert ep intent row.positionId) := by
  obtain ⟨s₁, px, he, rfl⟩ := h.entered
  obtain ⟨t, ht⟩ := markFilled_frame intent (row.positionId, px, ep.eligibleEntrySession) s₁
  have hframe := he.frame
  refine ⟨fun e => ?_, ?_, ⟨(row.positionId, px, ep.eligibleEntrySession), ?_⟩, ?_⟩
  · rw [ht]; exact he.positionForEpisode e
  · rw [ht]; exact he.processed
  · have hi : s₁.intents = s.intents := by rw [hframe]
    show (markFilled intent _ s₁).intents = _
    cases intent with
    | none => exact hi
    | some it =>
      by_cases hp : it.status = .pending
      · simp only [markFilled, if_pos hp, Store.markEntryIntent, hi]
      · simp only [markFilled, if_neg hp, hi]
  · have ho : s₁.outbox = s.outbox := by rw [hframe]
    rw [ht]
    show s₁.outbox.insertOrIgnore _ = _
    rw [ho]

theorem Filled.positions {cal : Calendar} {cfg : V2Config} {ep : ClusterEpisode} {intent : Option EntryIntent}
    {s s' : Store} {row : Position} (h : Filled cal cfg ep intent s row s') :
    s'.positions.rows = s.positions.rows ++ [row] ∧ row.targetExitSession ∈ cal.sessions := by
  obtain ⟨s₁, px, he, rfl⟩ := h.entered
  obtain ⟨t, ht⟩ := markFilled_frame intent (row.positionId, px, ep.eligibleEntrySession) s₁
  refine ⟨?_, Calendar.mem_of_addSessions he.targetExitSession⟩
  rw [ht]
  exact he.positions

theorem Filled.entitlements {cal : Calendar} {cfg : V2Config} {ep : ClusterEpisode} {intent : Option EntryIntent}
    {s s' : Store} {row : Position} (h : Filled cal cfg ep intent s row s') : s'.entitlements = s.entitlements := by
  obtain ⟨s₁, px, he, rfl⟩ := h.entered
  obtain ⟨t, ht⟩ := markFilled_frame intent (row.positionId, px, ep.eligibleEntrySession) s₁
  rw [ht]
  show s₁.entitlements = s.entitlements
  rw [he.frame]

theorem Filled.trades {cal : Calendar} {cfg : V2Config} {ep : ClusterEpisode} {intent : Option EntryIntent}
    {s s' : Store} {row : Position} (h : Filled cal cfg ep intent s row s') :
    ∃ t : Trade, t.action = .buy ∧ t.episodeId = ep.episodeId ∧ s'.trades = s.trades ++ [t] := by
  obtain ⟨s₁, px, he, rfl⟩ := h.entered
  obtain ⟨t, ht⟩ := markFilled_frame intent (row.positionId, px, ep.eligibleEntrySession) s₁
  obtain ⟨t', hbuy, hte, htr⟩ := he.trades
  exact ⟨t', hbuy, hte, by rw [ht]; exact htr⟩

/-- Everything a committed fill transaction can do. -/
theorem fillTxn_cases {cal : Calendar} {cfg : V2Config} {i : TickInput} {ep : ClusterEpisode}
    {intent : Option EntryIntent} {s s' : Store} {r : EpisodeResult}
    (h : fillTxn cal cfg i ep intent s = some (r, s')) :
    (s' = s ∧ ∀ why, r ≠ .skipped (.skip why)) ∨
    (alreadyProcessed s ep.episodeId = false ∧ ∃ why, s' = s.recordDisposition ep.episodeId (.skipped why) ∧
      r = .skipped (.skip why)) ∨
    ∃ row px n, Filled cal cfg ep intent s row s' ∧ r = .entry row.positionId px n row.targetExitSession := by
  unfold fillTxn at h
  split at h
  · cases h
  · rename_i pid px shares target s1 hp
    simp only [Option.some.injEq, Prod.mk.injEq] at h
    obtain ⟨rfl, rfl⟩ := h
    rcases processEpisode_cases hp with ⟨-, hr, -⟩ | ⟨hnew, ⟨why, -, hr⟩ | ⟨row, px', n, hrow, hr⟩⟩
    · exact (hr _ _ _ _ rfl).elim
    · cases hr
    · simp only [EpisodeResult.entry.injEq] at hr
      obtain ⟨rfl, rfl, rfl, rfl⟩ := hr
      exact Or.inr (Or.inr ⟨row, _, _, ⟨hnew, s1, _, hrow, rfl⟩, rfl⟩)
  · rename_i r' hshape hp
    obtain rfl := Option.some.inj h
    rcases processEpisode_cases hp with ⟨rfl, -, hr⟩ | ⟨hnew, ⟨why, rfl, rfl⟩ | ⟨row, px, n, hrow, rfl⟩⟩
    · exact Or.inl ⟨rfl, hr⟩
    · exact Or.inr (Or.inl ⟨hnew, why, rfl, rfl⟩)
    · exact (hshape _ _ _ _ _ rfl).elim

/-- The temporal boundary is violated: the entry is refused outright. -/
def rejectBoundary (ep : ClusterEpisode) (intent : Option EntryIntent) : Prog Call Store Unit := do
  recordDisposition ep.episodeId (.skipped .temporalBoundaryViolation)
  releaseIntent intent .rejectedTemporalBoundaryViolation

/-- The recovery deadline has passed: the reservation is released. -/
def expireRecovery (ep : ClusterEpisode) (intent : Option EntryIntent) : Prog Call Store Unit := do
  recordDisposition ep.episodeId (.skipped .recoveryDeadlinePassed)
  match intent with
  | none => pure ()
  | some it => do
    markIntent it .expiredRecoveryDeadline
    enqueueAlert (entryAlert ep .entryStale (some it))

/-- No entry bar within the retry window: the reservation is released. -/
def failNoMarketData (ep : ClusterEpisode) (intent : Option EntryIntent) : Prog Call Store Unit := do
  recordDisposition ep.episodeId .failedNoMarketData
  releaseIntent intent .failedNoMarketData
  enqueueAlert (entryAlert ep .entryFailedNoData intent)

/-- The fill and what follows a missing entry bar. -/
def attemptFill (cal : Calendar) (cfg : V2Config) (i : TickInput) (ripe : Date) (ep : ClusterEpisode)
    (intent : Option EntryIntent) : Prog Call Store Unit := do
  let r ← Prog.tryCatch (do
    let r ← Prog.txn (.fill ep.episodeId i.gate) (fillTxn cal cfg i ep intent)
    pure (some r)) (pure none)
  match r with
  | some (.skipped (.skip .noEntryBar)) => do
    let retryDeadline ← Prog.ofOption
      (cal.addSessions ep.eligibleEntrySession (max 0 ((cfg.maxEntryStalenessSessions : ℤ) - 1)))
    if ripe ≤ retryDeadline then pure () else failNoMarketData ep intent
  | _ => pure ()

/-- An episode that passed the gate: boundary, recovery deadline, fill. -/
def attemptAdmitted (cal : Calendar) (cfg : V2Config) (i : TickInput) (ripe : Date) (ep : ClusterEpisode)
    (intent : Option EntryIntent) : Prog Call Store Unit :=
  if !verifyTemporalBoundary cal i ep intent .boundary then rejectBoundary ep intent
  else do
    let passed ← Prog.ofOption (cal.recoveryDeadlinePassed ep.eligibleEntrySession cfg.maxEntryStalenessSessions ripe
      i.live (i.clock .recovery ep.episodeId))
    if passed then expireRecovery ep intent else attemptFill cal cfg i ripe ep intent

/-- With the gate on, only an episode with a `PENDING` intent goes on. -/
def gateRefuses (i : TickInput) (intent : Option EntryIntent) : Bool :=
  i.gate && !(intent.any (·.status = IntentStatus.pending))

/-- One attemptable episode. The intent is read before the transaction that may fill it. -/
def attemptEpisode (cal : Calendar) (cfg : V2Config) (i : TickInput) (ripe : Date) (ep : ClusterEpisode) :
    Prog Call Store Unit := do
  let intent ← Prog.read (.readIntent ep.episodeId) (·.entryIntent ep.episodeId)
  if gateRefuses i intent then
    if ep.eligibleEntrySession < i.today then recordUnseen ep.episodeId (.skipped .noPriorIntent) else pure ()
  else attemptAdmitted cal cfg i ripe ep intent

def phaseOpen (cal : Calendar) (cfg : V2Config) (i : TickInput) (ripe : Date) (eps : List ClusterEpisode) :
    Prog Call Store Unit :=
  Prog.forEach eps (attemptEpisode cal cfg i ripe)

/-! ## Sweep, exits, dividends -/

def phaseCorporateActions (i : TickInput) : Prog Call Store Unit :=
  match i.guard with
  | none => pure ()
  | some ev => Prog.tryCatch (sweepCorporateActions ev.sweep i.today) (pure ())

/-- Settlement of all due exits, then their alerts, in one `try`; its `except` logs. -/
def phaseClose (cal : Calendar) (cfg : V2Config) (i : TickInput) (ripe : Date) : Prog Call Store Unit :=
  Prog.tryCatch (do
    let exits ← settleDueExits cal cfg (i.guard.map TickEvidence.settle) i.closePrice ripe
    Prog.forEach exits fun x => enqueueAlert (exitAlert x)) (Prog.read .settleDueExitsFailed fun _ => ())

def phaseDividends (cal : Calendar) (i : TickInput) : Prog Call Store Unit :=
  match i.guard with
  | none => pure ()
  | some ev => Prog.tryCatch (do
      catchUpRecentClosed cal ev.catchUp i.today
      settleReceivables ev.credit i.today) (pure ())

/-! ## Phase post-close -/

/-- A stale episode: its disposition when it has none, and the expiry of its `PENDING` intent. -/
def expireStale (ep : ClusterEpisode) : Prog Call Store Unit := do
  recordUnseen ep.episodeId (.skipped .entryStale)
  let intent ← Prog.read (.readIntent ep.episodeId) (·.entryIntent ep.episodeId)
  match intent with
  | none => pure ()
  | some it =>
    if it.status = .pending then do
      markIntent it .expiredStale
      enqueueAlert (entryAlert ep .entryStale (some it))
    else pure ()

/-- The reservation transaction. -/
def admitTxn (cal : Calendar) (cfg : V2Config) (i : TickInput) (ep : ClusterEpisode) (s : Store) : Store :=
  if (s.blockedReason cfg.campaignId).isSome then s.recordDisposition ep.episodeId (.skipped .accountBlocked)
  else if i.gate && capacityRejected cfg s then s.recordDisposition ep.episodeId .rejectedCapacityExceeded
  else
    let it : EntryIntent :=
      { episodeId := ep.episodeId, symbol := ep.symbol.toUpper, targetEntrySession := ep.eligibleEntrySession,
        plannedExitSession := cal.addSessions ep.eligibleEntrySession cfg.holdTradingDays,
        createdAtUtc := some (i.clock .created ep.episodeId), status := .pending, filledPositionId := none,
        fillPrice := none, fillEntrySession := none }
    let s' := s.upsertEntryIntent it
    s'.enqueueAlert (entryAlert ep .entryIntent (s'.entryIntent ep.episodeId))

/-- One episode of the intent pass; its entry session has not started, or is today. -/
def admitIntent (cal : Calendar) (cfg : V2Config) (i : TickInput) (nextSess : Date) (ep : ClusterEpisode) :
    Prog Call Store Unit :=
  if i.today ≤ ep.eligibleEntrySession ∧ ep.eligibleEntrySession ≤ nextSess then do
    let disp ← Prog.read .read (·.episodeDisposition ep.episodeId)
    if disp = some .entered ∨ disp = some (.skipped .entryStale) then pure ()
    else do
      let intent ← Prog.read (.readIntent ep.episodeId) (·.entryIntent ep.episodeId)
      if intent.isSome then pure ()
      else do
        let found ← Prog.read .lookup fun _ => causalDecision cal cfg i.strict (i.postBars ep.symbol) ep
        let found ← Prog.ofOption found
        if found.2.action ≠ .buy then pure ()
        else if !verifyTemporalBoundary cal i ep none .admission then
          recordDisposition ep.episodeId (.skipped .admissionDeadlinePassed)
        else Prog.write (.reserve ep.episodeId) (admitTxn cal cfg i ep)
  else pure ()

def phasePostClose (cal : Calendar) (cfg : V2Config) (i : TickInput) (ripe : Date) (stale all : List ClusterEpisode) :
    Prog Call Store Unit := do
  Prog.forEach stale expireStale
  let nextSess ← Prog.ofOption (cal.nextSessionStrictlyAfter ripe)
  Prog.forEach all (admitIntent cal cfg i nextSess)

/-! ## The tick -/

/-- The phases, once the episodes and the dates are known. -/
def tickPhases (cal : Calendar) (cfg : V2Config) (i : TickInput) (ripe cut : Date) (all : List ClusterEpisode) :
    Prog Call Store Unit := do
  let allRipe := all.filter (·.eligibleEntrySession ≤ ripe)
  phaseOpen cal cfg i ripe (allRipe.filter (!isStale cfg cut ·))
  phaseCorporateActions i
  phaseClose cal cfg i ripe
  phaseDividends cal i
  phasePostClose cal cfg i ripe (allRipe.filter (isStale cfg cut ·)) all

def tick (cal : Calendar) (cfg : V2Config) (i : TickInput) : Prog Call Store Unit := do
  let ripe ← Prog.ofOption (i.ripeThrough cal)
  let all ← Prog.ofOption (i.episodes cal cfg)
  let cut ← Prog.ofOption (staleCut cal cfg ripe)
  tickPhases cal cfg i ripe cut all

/-! ## A sample -/

def sampleBar (d : Date) : Bar := ⟨d, ⟨100, by norm_num⟩, ⟨100, by norm_num⟩, 100000, none⟩

def sampleRecord (owner : String) (filed : Date) : PurchaseRecord :=
  ⟨"ACME", "0000320193", owner, filed, owner, some filed, some 250000, true, false, false, "P"⟩

/-- Two insiders file on days 28 and 29 of the calendar `Calendar.weekdays`. -/
def sampleRecords : List PurchaseRecord := [sampleRecord "0000001" 28, sampleRecord "0000002" 29]

/-- Their episode: it enters on day 30. -/
def sampleEpisode : EpisodeId := ⟨"ACME", ["0000001", "0000002"], 28, 29⟩

/-- A live tick at `now` that sees the two filings and a price of 100 on every day. -/
def sampleTick (gate : Bool) (now : Instant) : TickInput where
  asOf := none
  now := now
  delay _ _ := 1
  records := some sampleRecords
  allowlist := none
  gate := gate
  strict := false
  dissemination _ d := some (dayStart d + 72000)
  receipt _ _ := none
  refreshed := true
  openBars _ := (List.range 30).map sampleBar
  postBars _ := (List.range 30).map sampleBar
  openPrice _ d := some (sampleBar d)
  closePrice _ d := some (sampleBar d)
  guard := none

end TalonX.V2
