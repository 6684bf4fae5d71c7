import TalonX.V2.CorporateActions
import TalonX.V2.Liquidity

/-!
# The pipeline: processing an episode, settling due exits

- `processEpisode`: one entry attempt, as the caller's transaction runs it;
- `findExit`: the frozen exit close, or the first close of the fall-forward window;
- `sweepCorporateActions`, `settleDueExits`: the calls of the two loops over open positions.
-/

set_option autoImplicit false

namespace TalonX.V2

open Transact

/-- `price_lookup`: the row of a symbol and session, when the source has one to give. -/
abbrev PriceLookup := Symbol → Date → Option Bar

abbrev BarsLookup := Symbol → List Bar

/-! ## Entries -/

/-- What `process_episode` appends to its result: an entry, or the reason of a skip. -/
inductive EpisodeResult
  | entry (positionId : ℕ) (entryPrice : ℚ) (shares : ℕ) (targetExitSession : Date)
  | alreadyProcessed
  | skipped (r : EntryReason)
  deriving DecidableEq

/-- The idempotency check that comes before everything else. -/
def alreadyProcessed (s : Store) (e : EpisodeId) : Bool :=
  s.episodeDisposition e = some .entered || s.episodeDisposition e = some (.skipped .entryStale) ||
    (s.positionForEpisode e).isSome

def processEpisode (cal : Calendar) (cfg : V2Config) (strict : Bool) (bars : BarsLookup) (price : PriceLookup)
    (ep : ClusterEpisode) (s : Store) : Option (EpisodeResult × Store) :=
  if alreadyProcessed s ep.episodeId then some (.alreadyProcessed, s)
  else
    match causalDecision cal cfg strict (bars ep.symbol) ep with
    | none => none
    | some (liq, decision) =>
      if decision.action ≠ .buy then
        let r : SkipReason := if liq.ok then .nonBuy else .liquidity liq.reason
        some (.skipped (.skip r), s.recordDisposition ep.episodeId (.skipped r))
      else
        match price ep.symbol ep.eligibleEntrySession with
        | none =>
          some (.skipped (.skip .noEntryBar), s.recordDisposition ep.episodeId (.skipped .noEntryBar))
        | some px =>
          match enterPosition cal cfg zeroFee s decision (some px.openPrice.1) ep.eligibleEntrySession px.provenance with
          | none => none
          | some (⟨true, _, some pid, some shares, some target⟩, s') =>
            some (.entry pid px.openPrice.1 shares target, s')
          | some (o, s') => some (.skipped o.reason, s')

/-- Everything a committed attempt can do: nothing, a `SKIPPED_…` disposition, or an entry; the last two only for an
episode that was not processed before. -/
theorem processEpisode_cases {cal : Calendar} {cfg : V2Config} {strict : Bool} {bars : BarsLookup} {price : PriceLookup}
    {ep : ClusterEpisode} {s s' : Store} {r : EpisodeResult}
    (h : processEpisode cal cfg strict bars price ep s = some (r, s')) :
    (s' = s ∧ (∀ pid px n d, r ≠ .entry pid px n d) ∧ ∀ why, r ≠ .skipped (.skip why)) ∨
    alreadyProcessed s ep.episodeId = false ∧
      ((∃ why, s' = s.recordDisposition ep.episodeId (.skipped why) ∧ r = .skipped (.skip why)) ∨
      ∃ row px n, Entered cal cfg s ep.episodeId ep.symbol.toUpper ep.eligibleEntrySession row s' ∧
        r = .entry row.positionId px n row.targetExitSession) := by
  unfold processEpisode at h
  split at h
  · simp only [Option.some.injEq, Prod.mk.injEq] at h
    obtain ⟨rfl, rfl⟩ := h
    exact Or.inl ⟨rfl, by simp, by simp⟩
  rename_i hnew
  rw [Bool.not_eq_true] at hnew
  split at h
  · cases h
  rename_i liq decision hdec
  obtain ⟨liq', -, heq⟩ := Option.map_eq_some_iff.1 hdec
  simp only [Prod.mk.injEq] at heq
  obtain ⟨rfl, rfl⟩ := heq
  split at h
  · simp only [Option.some.injEq, Prod.mk.injEq] at h
    obtain ⟨rfl, rfl⟩ := h
    exact Or.inr ⟨hnew, Or.inl ⟨_, rfl, rfl⟩⟩
  split at h
  · simp only [Option.some.injEq, Prod.mk.injEq] at h
    obtain ⟨rfl, rfl⟩ := h
    exact Or.inr ⟨hnew, Or.inl ⟨_, rfl, rfl⟩⟩
  split at h
  · cases h
  · rename_i px _ _ why pid shares target s1 hent
    simp only [Option.some.injEq, Prod.mk.injEq] at h
    obtain ⟨rfl, rfl⟩ := h
    rcases enterPosition_cases hent with ⟨ho, -⟩ | ⟨ho, -⟩ | ⟨p, z, hfrozen, hok, hrec⟩
    · cases ho
    · cases ho
    · obtain ⟨row, hrow, ho⟩ := entered_of_recordEntry hfrozen hok hrec
      simp only [EntryOutcome.mk.injEq, Option.some.injEq] at ho
      obtain ⟨-, -, rfl, rfl, rfl⟩ := ho
      exact Or.inr ⟨hnew, Or.inr ⟨row, _, _, hrow, rfl⟩⟩
  · rename_i px _ _ o s1 hshape hent
    simp only [Option.some.injEq, Prod.mk.injEq] at h
    obtain ⟨rfl, rfl⟩ := h
    rcases enterPosition_cases hent with ⟨-, hr, rfl⟩ | ⟨-, why, ho, -, rfl⟩ | ⟨p, z, hfrozen, hok, hrec⟩
    · exact Or.inl ⟨rfl, by simp, by simpa using hr⟩
    · exact Or.inr ⟨hnew, Or.inl ⟨why, rfl, by rw [ho]⟩⟩
    · obtain ⟨row, -, ho⟩ := entered_of_recordEntry hfrozen hok hrec
      exact (hshape _ _ _ _ ho).elim

/-! ## Exits -/

/-- The close to settle at: the target session's, else the first one in the next sessions up to `asOf`. -/
def findFallforward (cal : Calendar) (price : Date → Option Bar) (target asOf : Date) :
    ℕ → ℕ → Option (Option (Date × Bar))
  | _, 0 => some none
  | k, n + 1 =>
    match cal.addSessions target k with
    | none => none
    | some nxt =>
      if asOf < nxt then some none
      else
        match price nxt with
        | some px => some (some (nxt, px))
        | none => findFallforward cal price target asOf (k + 1) n

def findExit (cal : Calendar) (cfg : V2Config) (price : Date → Option Bar) (target asOf : Date) :
    Option (Option (Date × Bar)) :=
  match price target with
  | some px => some (some (target, px))
  | none => findFallforward cal price target asOf 1 cfg.exitFallforwardMaxSessions

/-- An appended exit, from which the exit alert is written later. -/
structure ExitRecord where
  episodeId : EpisodeId
  symbol : Symbol
  exitSession : Date
  exitPrice : ℚ
  realizedPnlPct : ℚ
  tradingDaysHeld : ℕ

/-- `store.mark_exit_unresolved(…)`. -/
def markUnresolved (cfg : V2Config) (pid : ℕ) (why : UnresolvedReason) : Prog Call Store Unit :=
  Prog.txn (.markExitUnresolved pid why) fun s => (s.markExitUnresolved cfg.campaignId pid).map fun s' => ((), s')

/-- The settlement proper: close the position, or give it up when the trail blocks it. -/
def settleAt (cal : Calendar) (cfg : V2Config) (pos : Position) (exitSession : Date) (px : Bar)
    (dividends : List CorporateActionEvent) (exits : List ExitRecord) : Prog Call Store (List ExitRecord) := do
  let out ← Prog.txn (.closePosition pos.positionId) fun s =>
    closePosition cal cfg zeroFee s pos px.closePrice.1 exitSession px.provenance dividends
  if out.settled then
    pure (exits ++ [⟨pos.episodeId, pos.symbol, exitSession, px.closePrice.1, out.realizedPnlPct,
      out.tradingDaysHeld⟩])
  else if out.blockedReason.isSome then do
    markUnresolved cfg pos.positionId .corporateAction
    pure exits
  else pure exits

/-- One due position. -/
def settlePosition (cal : Calendar) (cfg : V2Config) (guard : Option Evidence) (price : PriceLookup) (asOf : Date)
    (exits : List ExitRecord) (pos : Position) : Prog Call Store (List ExitRecord) := do
  let found ← Prog.read .lookup fun _ => findExit cal cfg (price pos.symbol) pos.targetExitSession asOf
  let found ← Prog.ofOption found
  match found with
  | none => do
    let lastFf ← Prog.ofOption (cal.addSessions pos.targetExitSession cfg.exitFallforwardMaxSessions)
    if lastFf ≤ asOf then do
      markUnresolved cfg pos.positionId .noBar
      pure exits
    else pure exits
  | some (exitSession, px) =>
    match guard with
    | none => settleAt cal cfg pos exitSession px [] exits
    | some evidence => do
      let fill : ExitFill :=
        ⟨exitSession, px.provenance.bind Provenance.basisAsOf, px.provenance.bind Provenance.adjustmentState⟩
      let v ← assessPosition evidence pos.positionId asOf (some fill)
      if v.settleOk then settleAt cal cfg pos exitSession px v.dividends exits
      else do
        let lastFf ← Prog.ofOption (cal.addSessions pos.targetExitSession cfg.exitFallforwardMaxSessions)
        if v.status = .block ∨ lastFf ≤ asOf then do
          markUnresolved cfg pos.positionId .corporateAction
          pure exits
        else pure exits

def settleDueExits (cal : Calendar) (cfg : V2Config) (guard : Option Evidence) (price : PriceLookup) (asOf : Date) :
    Prog Call Store (List ExitRecord) := do
  let due ← Prog.read .read fun s => dueExits s asOf
  Prog.foldEach due [] (settlePosition cal cfg guard price asOf)

/-- Keeps the trail of every open position current; one position's failure never blocks another. -/
def sweepCorporateActions (evidence : Evidence) (asOf : Date) : Prog Call Store Unit := do
  let ps ← Prog.read .read Store.openPositions
  Prog.forEach ps fun pos =>
    Prog.tryCatch (do
      let _ ← assessPosition evidence pos.positionId asOf none
      pure ()) (pure ())

end TalonX.V2
