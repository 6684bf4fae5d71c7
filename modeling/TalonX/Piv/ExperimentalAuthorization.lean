import TalonX.Piv.Lifecycle
import Mathlib.Data.Finset.Card

/-!
# Experimental authorizations

An operator authorises one experiment: its symbols, its day, its window, and limits for the PAPER orders under it.

- `ExperimentalAuthorization`, with `permitsEntry` and `permitsPaperExecution`;
- `enforceExperimentalPaperGuards`: the guards of `order_intent` at the broker boundary, which reserve the budget of an entry
  that passes them;
- `enforce_error`, `experimentalGuards_ok`: a refusal leaves the state as it was, and what an entry that passes has gone through.

The object is what the file says when the guards load it; strict parsing lets through positive whole counts only.
-/

set_option autoImplicit false

namespace TalonX.Piv

open Transact V2

structure ExperimentalPaperPermission where
  enabled : Bool
  accountIdBinding : String
  maxQuantityPerEntry : ℚ
  maxReferenceNotionalBudget : ℚ
  maxEntryCount : ℕ
  maxConcurrentExposure : ℕ

structure ExperimentalAuthorization where
  experimentId : String
  operatorAcknowledgedUnvalidated : Bool
  strategyId : String
  strategyVersion : String
  runtimeSha : String
  configHash : String
  allowedSymbols : List Symbol
  tradingDateEt : String
  sessionScope : String
  activatedAt : Instant
  expiresAt : Instant
  paper : Option ExperimentalPaperPermission

/-- What a caller says about the entry; the symbol is upper-cased already, and a `now` without a time zone is `none`. -/
structure EntryQuery where
  symbol : Symbol
  tradingDateEt : String
  strategyId : String
  strategyVersion : String
  runtimeSha : String
  configHash : String
  now : Option Instant
  sessionScope : Option String

namespace ExperimentalAuthorization

variable (auth : ExperimentalAuthorization)

/-- `permits_entry`: the reason of a refusal. -/
def permitsEntry (e : EntryQuery) : Except String Unit :=
  match e.now with
  | none => .error "NOW_NOT_TIMEZONE_AWARE"
  | some now =>
    if !auth.operatorAcknowledgedUnvalidated then .error "OPERATOR_DID_NOT_ACKNOWLEDGE_UNVALIDATED"
    else if e.symbol ∉ auth.allowedSymbols then .error "SYMBOL_NOT_IN_ALLOWED_SET"
    else if e.tradingDateEt ≠ auth.tradingDateEt then .error "WRONG_TRADING_DATE"
    else if e.sessionScope ≠ some auth.sessionScope then .error "WRONG_SESSION_SCOPE"
    else if e.strategyId ≠ auth.strategyId then .error "WRONG_STRATEGY_ID"
    else if e.strategyVersion ≠ auth.strategyVersion then .error "WRONG_STRATEGY_VERSION"
    else if e.runtimeSha ≠ auth.runtimeSha then .error "WRONG_RUNTIME_SHA"
    else if e.configHash ≠ auth.configHash then .error "WRONG_CONFIG_HASH"
    else if now < auth.activatedAt then .error "PERMISSION_NOT_YET_ACTIVE"
    else if auth.expiresAt ≤ now then .error "PERMISSION_EXPIRED"
    else .ok ()

/-- `permits_paper_execution`: the permission that applies, or the reason of a refusal. -/
def permitsPaperExecution (e : EntryQuery) (accountId : String) : Except String ExperimentalPaperPermission :=
  match auth.permitsEntry e with
  | .error reason => .error reason
  | .ok () =>
    match auth.paper with
    | none => .error "EXPERIMENTAL_PAPER_EXECUTION_NOT_ENABLED"
    | some paper =>
      if !paper.enabled then .error "EXPERIMENTAL_PAPER_EXECUTION_NOT_ENABLED"
      else if accountId ≠ paper.accountIdBinding then .error "WRONG_PAPER_ACCOUNT"
      else .ok paper

end ExperimentalAuthorization

/-! ## What the guards read from the state -/

namespace LifecycleState

variable (s : LifecycleState) (experimentId : String)

/-- The symbols that count towards the concurrent exposure of an experiment. -/
def exposedSymbols : Finset Symbol :=
  (((s.positions.rows.filter fun p => p.status = .opened && p.experimentalId = some experimentId).map (·.symbol)) ++
    ((s.orders.rows.filter fun o => !o.status.terminal && (s.intents.get o.intentId).any fun i =>
      i.id.side = .buy && i.experimentalId = some experimentId).map (·.symbol)) ++
    ((s.intents.rows.filter fun i => i.status = .submitFailedUncertain && i.id.side = .buy &&
      i.experimentalId = some experimentId).map (·.id.symbol))).toFinset

/-- `_experimental_prior_activity_exists`. -/
def experimentalPriorActivityExists : Bool :=
  (s.positions.rows.any (·.experimentalId = some experimentId)) || s.intents.rows.any (·.experimentalId = some experimentId)

/-- `_validated_budget_record`: `none` is a damaged record. -/
def validatedBudgetRecord : Option BudgetRecord :=
  match s.experimentalBudgets experimentId with
  | none => if s.experimentalPriorActivityExists experimentId then none else some ⟨0, 0⟩
  | some record => if record.notionalUsed < 0 then none else some record

end LifecycleState

/-! ## The guards -/

/-- The arguments of `order_intent` for an experimental entry, and what its guards consult besides the state: the
authorization as loaded now, the verified account, the identity of the process. -/
structure EntryContext where
  tradingDateEt : Option String := none
  strategyId : Option String := none
  strategyVersion : Option String := none
  /-- A reference price is given, and it is not a finite number. -/
  referencePriceMalformed : Bool := false
  authorization : Option ExperimentalAuthorization
  accountId : Option String
  runtimeSha : Option String
  configHash : Option String
  sessionScope : Option String
  now : Instant
  /-- `paper_entry_settings`. -/
  enabledFor : Symbol → Bool

namespace EntryContext

variable (c : EntryContext)

def query (r : OrderRequest) : EntryQuery :=
  { symbol := r.symbol, tradingDateEt := c.tradingDateEt.getD "", strategyId := c.strategyId.getD ""
    strategyVersion := c.strategyVersion.getD "", runtimeSha := c.runtimeSha.getD "", configHash := c.configHash.getD ""
    now := some c.now, sessionScope := c.sessionScope }

/-- The price that the budget check may rely on, or the reason of a refusal. -/
def usablePrice (r : OrderRequest) : Except String ℚ :=
  match r.referencePrice with
  | none =>
    .error (if c.referencePriceMalformed then "EXPERIMENTAL_REFERENCE_PRICE_INVALID"
      else "EXPERIMENTAL_REFERENCE_PRICE_REQUIRED_FOR_BUDGET_CHECK")
  | some price => if price ≤ 0 then .error "EXPERIMENTAL_REFERENCE_PRICE_INVALID" else .ok price

/-- `_enforce_experimental_paper_guards`, of a request whose quantity is known to be a number: it returns, or raises with a
reason, and it leaves a state. -/
def enforceExperimentalPaperGuards (r : OrderRequest) (s : LifecycleState) : Except String Unit × LifecycleState :=
  match c.authorization, c.accountId with
  | none, _ => (.error "EXPERIMENTAL_AUTHORIZATION_NOT_CONFIGURED", s)
  | some _, none => (.error "EXPERIMENTAL_ACCOUNT_NOT_VERIFIED", s)
  | some auth, some accountId =>
    match auth.permitsPaperExecution (c.query r) accountId with
    | .error reason => (.error ("EXPERIMENTAL_" ++ reason), s)
    | .ok paper =>
      if r.experimentalId ≠ some auth.experimentId then (.error "EXPERIMENTAL_ID_MISMATCH", s)
      else if paper.maxQuantityPerEntry + shareTolerance < r.quantity.getD 0 then
        (.error "EXPERIMENTAL_QUANTITY_EXCEEDS_LIMIT", s)
      else if paper.maxConcurrentExposure ≤ (s.exposedSymbols auth.experimentId).card then
        (.error "EXPERIMENTAL_CONCURRENT_EXPOSURE_LIMIT", s)
      else
        match s.validatedBudgetRecord auth.experimentId with
        | none => (.error "EXPERIMENTAL_BUDGET_STATE_DAMAGED_FAIL_CLOSED", s)
        | some budget =>
          if paper.maxEntryCount ≤ budget.entriesUsed then (.error "EXPERIMENTAL_ENTRY_COUNT_EXHAUSTED", s)
          else
            match c.usablePrice r with
            | .error reason => (.error reason, s)
            | .ok price =>
              let requestedNotional := price * r.quantity.getD 0
              if paper.maxReferenceNotionalBudget + shareTolerance < budget.notionalUsed + requestedNotional then
                (.error "EXPERIMENTAL_NOTIONAL_BUDGET_EXHAUSTED", s)
              else
                (.ok (), { s with
                  experimentalBudgets := Function.update s.experimentalBudgets auth.experimentId
                    (some ⟨budget.entriesUsed + 1, budget.notionalUsed + requestedNotional⟩) })

/-- `order_intent` with these guards. -/
def config : Config where
  enabledFor := c.enabledFor
  experimentalGuards s r :=
    match c.enforceExperimentalPaperGuards r s with
    | (.ok (), s') => .ok s'.experimentalBudgets
    | (.error reason, _) => .error reason

/-! ## What the guards do -/

section Guards

variable {c : EntryContext} {r : OrderRequest} {s : LifecycleState}

/-- What an entry that passes the guards has gone through, and what it reserves. -/
structure Passed (c : EntryContext) (r : OrderRequest) (s s' : LifecycleState) (auth : ExperimentalAuthorization)
    (paper : ExperimentalPaperPermission) (budget : BudgetRecord) (price : ℚ) : Prop where
  authorization : c.authorization = some auth
  permission : auth.paper = some paper
  experimentalId : r.experimentalId = some auth.experimentId
  exposure : (s.exposedSymbols auth.experimentId).card < paper.maxConcurrentExposure
  record : s.validatedBudgetRecord auth.experimentId = some budget
  count : budget.entriesUsed < paper.maxEntryCount
  priced : r.referencePrice = some price
  notional : budget.notionalUsed + price * r.quantity.getD 0 ≤ paper.maxReferenceNotionalBudget + shareTolerance
  reserved : s' = { s with
    experimentalBudgets := Function.update s.experimentalBudgets auth.experimentId
      (some ⟨budget.entriesUsed + 1, budget.notionalUsed + price * r.quantity.getD 0⟩) }

theorem paper_of_permits {auth : ExperimentalAuthorization} {e : EntryQuery} {accountId : String}
    {paper : ExperimentalPaperPermission} (h : auth.permitsPaperExecution e accountId = .ok paper) :
    auth.paper = some paper := by
  unfold ExperimentalAuthorization.permitsPaperExecution at h
  split at h
  · cases h
  · split at h
    · cases h
    · rename_i found hfound
      split at h
      · cases h
      · split at h
        · cases h
        · rw [hfound, Except.ok.inj h]

theorem usablePrice_ok {price : ℚ} (h : c.usablePrice r = .ok price) : r.referencePrice = some price := by
  unfold usablePrice at h
  split at h
  · cases h
  · rename_i found hfound
    split at h
    · cases h
    · rw [hfound, Except.ok.inj h]

/-- Either the entry passes, or the guards refuse it and leave the state as it was. -/
theorem enforce_cases (c : EntryContext) (r : OrderRequest) (s : LifecycleState) :
    (∃ reason, c.enforceExperimentalPaperGuards r s = (.error reason, s)) ∨
      ∃ s', c.enforceExperimentalPaperGuards r s = (.ok (), s') ∧
        ∃ auth paper budget price, Passed c r s s' auth paper budget price := by
  unfold enforceExperimentalPaperGuards
  split
  · exact .inl ⟨_, rfl⟩
  · exact .inl ⟨_, rfl⟩
  rename_i auth accountId hauth hacc
  split
  · exact .inl ⟨_, rfl⟩
  rename_i paper hperm
  split
  · exact .inl ⟨_, rfl⟩
  rename_i hid
  split
  · exact .inl ⟨_, rfl⟩
  split
  · exact .inl ⟨_, rfl⟩
  rename_i hexposure
  split
  · exact .inl ⟨_, rfl⟩
  rename_i budget hbudget
  split
  · exact .inl ⟨_, rfl⟩
  rename_i hcount
  split
  · exact .inl ⟨_, rfl⟩
  rename_i price hprice
  dsimp only
  split
  · exact .inl ⟨_, rfl⟩
  rename_i hnotional
  refine .inr ⟨_, rfl, auth, paper, budget, price, ?_⟩
  exact
    { authorization := hauth
      permission := paper_of_permits hperm
      experimentalId := not_not.1 hid
      exposure := not_le.1 hexposure
      record := hbudget
      count := not_le.1 hcount
      priced := usablePrice_ok hprice
      notional := not_lt.1 hnotional
      reserved := rfl }

/-- A refusal leaves the state as it was. -/
theorem enforce_error {reason : String} (h : (c.enforceExperimentalPaperGuards r s).1 = .error reason) :
    (c.enforceExperimentalPaperGuards r s).2 = s := by
  rcases enforce_cases c r s with ⟨reason', he⟩ | ⟨s', he, -⟩
  · rw [he]
  · rw [he] at h
    cases h

/-- The budgets of an admitted experimental entry. -/
theorem experimentalGuards_ok {budgets : Budgets} (h : c.config.experimentalGuards s r = .ok budgets) :
    ∃ s' auth paper budget price, Passed c r s s' auth paper budget price ∧ budgets = s'.experimentalBudgets := by
  rcases enforce_cases c r s with ⟨reason', he⟩ | ⟨s', he, auth, paper, budget, price, hp⟩
  · simp only [config, he] at h
    cases h
  · simp only [config, he] at h
    exact ⟨s', auth, paper, budget, price, hp, (Except.ok.inj h).symm⟩

end Guards

end EntryContext

end TalonX.Piv
