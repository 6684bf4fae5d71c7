import TalonX.Piv.Matched
import TalonX.Transact.Hoare

/-!
# The end of the day

`run_eod_lifecycle` as a program of its fallible steps: the requests to the broker, the reconcile, the two files that it
saves and the events that it emits. Each may raise, and the process may die before it; the program continues as the
`try` blocks of the source say.

- `EodState`, `EodWorld`: `eod_state.json`, the persisted lifecycle, and a journal of what was emitted, what the broker
  accepted and what the reconciles reported;
- `EodArgs`: the arguments of a call, with what its clock says and what the broker answers to its reads;
- `runEodLifecycle`: the call; `eodRun`: calls with any faults, and anything else that happens to the lifecycle.
-/

set_option autoImplicit false

namespace TalonX.Piv

open Transact V2

/-! ## What is recorded -/

inductive EodStatus
  | pending
  | passed
  | failed
  | inconclusive
  deriving DecidableEq, Repr

inductive EodEventType
  | eodStarted
  | eodCancelRequested
  | eodFlattenRequested
  | eodReconciliationStarted
  | eodReconciliationPassed
  | eodReconciliationFailed
  | sessionCompleted
  deriving DecidableEq, Repr

/-- What is said in the `status` of an event. -/
inductive EodEventStatus
  | lifecycleTriggered
  | alreadyRequestedSkippedIdempotentRetry
  | result (status : EodStatus)
  | brokerStateVerifiedFlatAndMatched
  deriving DecidableEq, Repr

/-- An exception, or the reads that an incomplete pass failed. -/
inductive EodError
  | exception (text : String)
  | incompleteReconciliation (readFailures : List ReadFailure)
  deriving DecidableEq, Repr

inductive EodReason
  | trigger (reason : String)
  | error (e : EodError)
  deriving DecidableEq, Repr

structure EodEvent where
  type : EodEventType
  status : Option EodEventStatus
  reason : Option EodReason
  sessionId : String
  tradingDateEt : String
  correlationId : String
  deriving DecidableEq, Repr

/-- What `reconcile` returns. -/
structure EodReport where
  brokerOpenOrders : ℕ
  brokerPositions : ℕ
  findings : Reconciliation

/-- The content of `eod_state.json`. -/
structure EodState where
  sessionId : String
  tradingDateEt : String
  reconciliationRunId : String
  runtimeSha : String
  configHash : String
  status : EodStatus
  cancelCloseRequested : Bool
  reconciliation : Option EodReport := none
  reconciliationError : Option EodError := none

inductive EodRequest
  | cancelAllOrders
  | closeAllPositions
  deriving DecidableEq, Repr

inductive JournalEntry
  | emitted (e : EodEvent)
  /-- The request returned, in a call for the session and the date. -/
  | accepted (request : EodRequest) (sessionId tradingDateEt : String)
  /-- A reconcile returned, and has left the state. -/
  | reconciled (left : LifecycleState) (report : EodReport)

/-- `lifecycle` is the state in memory. `eodState` is `none` when the file is missing or cannot be read. `journal` is
history. -/
structure EodWorld where
  lifecycle : LifecycleState
  eodState : Option EodState
  journal : List JournalEntry

/-! ## The call -/

/-- The arguments, and the surroundings of the call: its run id and its clock, what the broker answers to the reads of the
reconcile, the state in which a reconcile that does not come to its end leaves the lifecycle, and the text of an
exception. -/
structure EodArgs where
  liveSessionId : String
  tradingDateEt : String
  runtimeSha : String
  configHash : String
  triggerReason : String
  reconciliationRunId : String
  now : Instant
  reads : Reads
  partway : LifecycleState
  exceptionText : String

inductive EodStep
  | load
  | emit (e : EodEvent)
  | request (r : EodRequest)
  | disableSession
  | saveLifecycle
  | saveState (st : EodState)
  | reconciling
  | reconcile
  | markClosed

/-- The steps at which the broker may fail. -/
def EodStep.broker : EodStep → Bool
  | request _ | reconciling | reconcile => true
  | _ => false

abbrev EodProg (α : Type) := Prog EodStep EodWorld α

/-- The dictionary that a call returns. -/
structure EodResult where
  status : EodStatus
  reconciliation : Option EodReport
  exitCode : ℕ

namespace EodArgs

variable (a : EodArgs)

/-- `PivEvent.build` with the identity of the call. -/
def event (type : EodEventType) (status : Option EodEventStatus) (reason : Option EodReason) : EodEvent :=
  ⟨type, status, reason, a.liveSessionId, a.tradingDateEt, a.reconciliationRunId⟩

/-- The state file of the call. -/
def state (status : EodStatus) (cancelCloseRequested : Bool) (reconciliation : Option EodReport)
    (reconciliationError : Option EodError) : EodState :=
  { sessionId := a.liveSessionId, tradingDateEt := a.tradingDateEt, reconciliationRunId := a.reconciliationRunId
    runtimeSha := a.runtimeSha, configHash := a.configHash, status, cancelCloseRequested, reconciliation
    reconciliationError }

/-- `_load_prior_state`. -/
def loadPriorState : EodProg (Option EodState) :=
  Prog.read .load fun w => w.eodState.filter (·.tradingDateEt = a.tradingDateEt)

/-- `_save_state`. -/
def saveState (st : EodState) : EodProg Unit := Prog.write (.saveState st) fun w => { w with eodState := some st }

/-- `lifecycle._save()`. -/
def saveLifecycle : EodProg Unit := Prog.write .saveLifecycle id

def emit (type : EodEventType) (status : Option EodEventStatus) (reason : Option EodReason) : EodProg Unit :=
  Prog.write (.emit (a.event type status reason)) fun w =>
    { w with journal := w.journal ++ [.emitted (a.event type status reason)] }

/-- A request that the broker accepts. -/
def request (r : EodRequest) : EodProg Unit :=
  Prog.write (.request r) fun w =>
    { w with journal := w.journal ++ [.accepted r a.liveSessionId a.tradingDateEt] }

/-- The first `try`: an exception is the cancel/close error. -/
def requestCancelClose : EodProg (Option EodError) :=
  (do a.request .cancelAllOrders
      a.emit .eodFlattenRequested none none
      a.request .closeAllPositions
      pure none : EodProg (Option EodError)).tryCatch (pure (some (.exception a.exceptionText)))

def report (s : LifecycleState) : EodReport :=
  ⟨a.reads.openOrders.list.length, a.reads.positions.list.length, (reconcile s a.now a.reads).2⟩

/-- `lifecycle.reconcile()`, which saves the lifecycle several times on its way. -/
def reconcilePass : EodProg EodReport := do
  let s ← Prog.read .reconciling (·.lifecycle)
  Prog.write .reconciling fun w => { w with lifecycle := a.partway }
  Prog.write .reconcile fun w =>
    { w with
      lifecycle := (reconcile s a.now a.reads).1
      journal := w.journal ++ [.reconciled (reconcile s a.now a.reads).1 (a.report s)] }
  pure (a.report s)

/-- The second `try`. -/
def tryReconcile : EodProg (Option EodReport × Option EodError) :=
  (do let r ← a.reconcilePass
      pure (some r, none) : EodProg (Option EodReport × Option EodError)).tryCatch
    (pure (none, some (.exception a.exceptionText)))

end EodArgs

/-- `incomplete_read`, or `complete` is `False`. -/
def EodReport.inconclusive (r : EodReport) : Bool := !r.findings.readFailures.isEmpty || !r.findings.complete

/-- The status of a call by its reconcile. -/
def eodStatus : Option EodReport → EodStatus
  | none => .inconclusive
  | some r =>
    if r.inconclusive then .inconclusive
    else if r.brokerOpenOrders = 0 ∧ r.brokerPositions = 0 ∧ r.findings.unexpectedShortSymbols.isEmpty then .passed
    else .failed

/-- The exception, or what an inconclusive pass could not read. -/
def eodError (reconciliation : Option EodReport) (error : Option EodError) : Option EodError :=
  match reconciliation, error with
  | some r, none =>
    if r.inconclusive && !r.findings.readFailures.isEmpty then some (.incompleteReconciliation r.findings.readFailures)
    else none
  | _, e => e

namespace EodArgs

variable (a : EodArgs)

/-- From the reconcile on. -/
def conclude : EodProg EodResult := do
  a.emit .eodReconciliationStarted none none
  let (reconciliation, error) ← a.tryReconcile
  let status := eodStatus reconciliation
  let error := eodError reconciliation error
  if status = .passed then
    Prog.write .markClosed fun w => { w with lifecycle := w.lifecycle.closePositions }
    saveLifecycle
  a.emit (if status = .passed then .eodReconciliationPassed else .eodReconciliationFailed) (some (.result status))
    (error.map .error)
  saveState (a.state status true reconciliation error)
  if status = .passed then
    a.emit .sessionCompleted (some .brokerStateVerifiedFlatAndMatched) none
  pure ⟨status, reconciliation, if status = .passed then 0 else 2⟩

/-- `run_eod_lifecycle`. -/
def runEodLifecycle : EodProg EodResult := do
  let prior ← a.loadPriorState
  a.emit .eodStarted (some .lifecycleTriggered) (some (.trigger a.triggerReason))
  if prior.any fun st => st.sessionId = a.liveSessionId && st.cancelCloseRequested then do
    a.emit .eodCancelRequested (some .alreadyRequestedSkippedIdempotentRetry) none
    a.conclude
  else do
    a.emit .eodCancelRequested none none
    let error ← a.requestCancelClose
    match error with
    | some e => do
      a.emit .eodReconciliationFailed (some (.result .inconclusive)) (some (.error e))
      saveState (a.state .inconclusive false none (some e))
      pure ⟨.inconclusive, none, 2⟩
    | none => do
      Prog.write .disableSession fun w => { w with lifecycle := { w.lifecycle with sessionEnabled := false } }
      saveLifecycle
      saveState (a.state .pending true none none)
      a.conclude

end EodArgs

/-! ## Runs -/

/-- A call with its faults, or anything else that happens to the lifecycle, as a restart that loads what was last saved;
the state file may get lost. -/
inductive EodOp
  | call (a : EodArgs) (faults : List Fault)
  | other (lifecycle : LifecycleState) (fileLost : Bool)

def EodWorld.step (w : EodWorld) : EodOp → EodWorld
  | .call a faults => (exec a.runEodLifecycle faults w).2.1
  | .other lifecycle fileLost => { w with lifecycle, eodState := if fileLost then none else w.eodState }

/-- The world after the operations, from no state file. -/
def eodRun (ops : List EodOp) : EodWorld := ops.foldl EodWorld.step ⟨{}, none, []⟩

end TalonX.Piv
