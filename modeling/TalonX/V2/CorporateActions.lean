import TalonX.Transact.Interleave
import TalonX.V2.ClusterEngine
import TalonX.V2.Store

/-!
# Corporate actions: evidence and its assessment

- `finalize`, `combineSources`: one source's listing made a result, and the merge of several results;
- `assessEvidence`, `assessTrail`: the verdict on a position's evidence, stage by stage;
- `assessPosition`: the guard's calls on the ledger.

Events on one ex-date stay in listing order, where the source breaks the tie by the key's text.
-/

set_option autoImplicit false

namespace TalonX.V2

open Transact

/-! ## Evidence -/

structure Conflict where
  symbol : Symbol
  exDate : Option Date
  what : ConflictWhat
  deriving DecidableEq

def Conflict.key (c : Conflict) : ActionKey := .conflict c.symbol c.exDate c.what

/-- What one source answers to a fetch. -/
inductive SourceAnswer
  | unavailable (source : String)
  | listing (source : String) (events : List CorporateActionEvent)

structure CASourceResult where
  source : String
  ok : Bool
  events : List CorporateActionEvent
  conflicts : List Conflict

/-- `sorted(…, key=lambda e: (e.ex_date or date.min, …))`. -/
def orderEvents (events : List CorporateActionEvent) : List CorporateActionEvent :=
  events.insertionSort fun a b => a.exDate.getD 0 ≤ b.exDate.getD 0

/-- The groups `(symbol, ex_date)` in which `f` takes more than one value. -/
def groupConflicts (f : CorporateActionEvent → Option PosRat) (what : List ℚ → ConflictWhat)
    (events : List CorporateActionEvent) : List Conflict :=
  let dated := events.filterMap fun e =>
    match f e, e.exDate with
    | some q, some ex => some ((e.symbol, ex), q.1)
    | _, _ => none
  (firstOccurrences id (dated.map Prod.fst)).filterMap fun k =>
    let values := firstOccurrences id ((dated.filter (·.1 = k)).map Prod.snd)
    if 1 < values.length then some ⟨k.1, some k.2, what (values.insertionSort (· ≤ ·))⟩ else none

/-- De-duplicate by content key, and flag different ratios or rates of one symbol and ex-date. -/
def finalize (source : String) (events : List CorporateActionEvent) : CASourceResult :=
  let uniq := orderEvents (firstOccurrences CorporateActionEvent.actionKey events)
  { source := source, ok := true, events := uniq
    conflicts :=
      groupConflicts (fun e => if e.kind.isSplit then e.ratio else none) .splitRatios uniq ++
        groupConflicts (fun e => if e.kind = .cashDividend then e.cashRate else none) .dividendRates uniq }

def SourceAnswer.result : SourceAnswer → CASourceResult
  | .unavailable source => ⟨source, false, [], []⟩
  | .listing source events => finalize source events

/-- A split that some source lists and another does not. -/
def presenceConflicts (results : List CASourceResult) (merged : List CorporateActionEvent) : List Conflict :=
  merged.filterMap fun e =>
    let present := firstOccurrences id
      ((results.filter fun r => r.events.any (·.actionKey = e.actionKey)).map CASourceResult.source)
    if e.kind.isSplit && present.length ≠ results.length then
      let missing := (firstOccurrences id (results.map CASourceResult.source)).filter (· ∉ present)
      some ⟨e.symbol, e.exDate, .splitPresence (e.ratio.elim 0 (·.1)) (missing.insertionSort (· ≤ ·))⟩
    else none

/-- Merge of the results of all configured sources; one that is unavailable makes the merge unavailable. -/
def combineSources (results : List CASourceResult) : CASourceResult :=
  let names := "+".intercalate (results.map CASourceResult.source)
  if results.isEmpty || results.any (!·.ok) then ⟨names, false, [], []⟩
  else
    let merged := firstOccurrences CorporateActionEvent.actionKey (results.flatMap CASourceResult.events)
    let presence := if 1 < results.length then presenceConflicts results merged else []
    { source := names, ok := true, events := orderEvents merged
      conflicts := firstOccurrences id (results.flatMap CASourceResult.conflicts ++ presence) }

/-- The evidence of one lookup: what every configured source answers for a symbol and a date range. -/
abbrev Evidence := Symbol → Date → Date → List SourceAnswer

/-- `guard.fetch`. -/
def Evidence.fetch (ev : Evidence) (symbol : Symbol) (start stop : Date) : CASourceResult :=
  combineSources ((ev symbol start stop).map SourceAnswer.result)

/-! ## Verdicts -/

inductive VerdictStatus
  | clear
  | adjusted
  | hold
  | block
  deriving DecidableEq, Repr

structure Verdict where
  status : VerdictStatus
  code : Option VerdictCode := none
  dividends : List CorporateActionEvent := []

def Verdict.settleOk (v : Verdict) : Bool := v.status = .clear || v.status = .adjusted

/-- A verdict that refuses, with the key under which it is persisted. -/
structure Blocked where
  status : VerdictStatus
  code : VerdictCode
  key : Option ActionKey

/-- What a settlement-time assessment is told about the exit fill. -/
structure ExitFill where
  session : Date
  basisAsOf : Option Date
  adjustmentState : Option String

/-- Adjustment states without a dividend adjustment. -/
def dividendSafeBases : List String := ["RAW", "SPLIT_ADJUSTED"]

/-- An undated event, or an ex-date in `(entry, stop]`. -/
def inWindow (entry stop : Date) (exDate : Option Date) : Bool := exDate.all fun ex => entry < ex && ex ≤ stop

/-- The events of a position's window by what they require. -/
structure Assessed where
  splits : List CorporateActionEvent
  dividends : List CorporateActionEvent
  reflected : List CorporateActionEvent
  applicable : List CorporateActionEvent

/-- Splits before the entry basis are reflected in it, splits after it have to be applied. -/
def classifySplits (basis : Option Date) :
    List CorporateActionEvent → Except Blocked (List CorporateActionEvent × List CorporateActionEvent)
  | [] => .ok ([], [])
  | e :: es =>
    match basis, e.exDate with
    | none, _ => .error ⟨.block, .basisUnknown, some e.actionKey⟩
    | some _, none => classifySplits basis es
    | some b, some ex =>
      if ex < b then (classifySplits basis es).map fun (r, a) => (e :: r, a)
      else if ex = b then .error ⟨.block, .basisAmbiguous, some e.actionKey⟩
      else (classifySplits basis es).map fun (r, a) => (r, e :: a)

/-- The end of the window: as-of, or the exit price's basis date when that is later. -/
def assessStop (asOf : Date) (fill : Option ExitFill) : Date :=
  match fill.bind ExitFill.basisAsOf with
  | some b => max asOf b
  | none => asOf

/-- Up to the entry-basis proof: everything that depends on the evidence alone. -/
def assessEvidence (row : Position) (res : CASourceResult) (asOf : Date) (fill : Option ExitFill) :
    Except Blocked Assessed :=
  let stop := assessStop asOf fill
  if !res.ok then .error ⟨.hold, .evidenceUnavailable, none⟩
  else
    match res.conflicts.filter fun c => inWindow row.entrySession stop c.exDate with
    | c :: _ => .error ⟨.block, .conflict, some c.key⟩
    | [] =>
      let window := res.events.filter fun e => inWindow row.entrySession stop e.exDate
      let bad := window.filter fun e => (e.kind = .unsupported || e.exDate.isNone) &&
        !(fill.any fun x => e.providerType = "cash_dividends" && e.exDate.any (x.session < ·))
      match bad with
      | e :: _ => .error ⟨.block, if e.malformed then .malformed else .unsupported, some e.actionKey⟩
      | [] =>
        let splits := window.filter (·.kind.isSplit)
        let dividends := window.filter (·.kind = .cashDividend)
        match classifySplits (row.entryProvenance.bind Provenance.basisAsOf) splits with
        | .error b => .error b
        | .ok (reflected, applicable) => .ok ⟨splits, dividends, reflected, applicable⟩

/-- Splits after the exit fill need an exit price basis later than their ex-date. -/
def assessExitSplits (x : ExitFill) : List CorporateActionEvent → Except Blocked Unit
  | [] => .ok ()
  | e :: es =>
    match e.exDate with
    | none => assessExitSplits x es
    | some ex =>
      if ex ≤ x.session then assessExitSplits x es
      else
        match x.basisAsOf with
        | none => .error ⟨.block, .basisUnknown, some e.actionKey⟩
        | some b => if b ≤ ex then .error ⟨.hold, .exitBasisStale, none⟩ else assessExitSplits x es

/-- The dividends a settlement at the exit fill is entitled to. -/
def assessDividends (row : Position) (x : ExitFill) (a : Assessed) : Except Blocked (List CorporateActionEvent) :=
  match a.dividends.filter fun e => e.exDate.any fun ex => row.entrySession < ex && ex ≤ x.session with
  | [] => .ok []
  | d :: ds =>
    let states := [row.entryProvenance.bind Provenance.adjustmentState, x.adjustmentState]
    if states.any fun st => !st.any (· ∈ dividendSafeBases) then .error ⟨.block, .dividendBasis, some d.actionKey⟩
    else
      match (d :: ds).find? fun e => a.splits.any (·.exDate = e.exDate) with
      | some e => .error ⟨.block, .dividendSplitSameDay, some e.actionKey⟩
      | none => .ok (d :: ds)

/-- With the trail at hand: changed evidence, and the exit side of a settlement. -/
def assessTrail (row : Position) (trail : List TrailRow) (a : Assessed) (fill : Option ExitFill) :
    Except Blocked (List CorporateActionEvent) :=
  if trail.any fun r => r.status = .applied && r.actionKey ∉ a.splits.map CorporateActionEvent.actionKey then
    .error ⟨.block, .conflict, some (.conflict row.symbol none .appliedNotReported)⟩
  else
    match fill with
    | none => .ok []
    | some x =>
      match assessExitSplits x a.splits with
      | .error b => .error b
      | .ok _ => assessDividends row x a

/-- The dividends that an assessment clears for accrual are listed cash dividends in the holding window. -/
theorem assessDividends_ok {row : Position} {x : ExitFill} {a : Assessed} {ds : List CorporateActionEvent}
    (h : assessDividends row x a = .ok ds) :
    ∀ e ∈ ds, e ∈ a.dividends ∧ e.exDate.any fun ex => row.entrySession < ex && ex ≤ x.session := by
  unfold assessDividends at h
  split at h
  · obtain rfl := Except.ok.inj h
    simp
  · rename_i d ds' hf
    dsimp only at h
    split at h
    · cases h
    split at h
    · cases h
    obtain rfl := Except.ok.inj h
    intro e he
    rw [← hf] at he
    exact List.mem_filter.1 he

/-! ## The guard's calls -/

/-- One `apply_position_action` for each event. -/
def applyActions (pid : ℕ) (status : TrailStatus) (s : Store) (evs : List CorporateActionEvent) : Store :=
  evs.foldl (fun s e => (s.applyPositionAction pid e status).2) s

/-- The transaction of a cleared assessment. -/
def applyAssessed (row : Position) (a : Assessed) (s : Store) : Store :=
  let s := s.clearBlockedActionRows row.positionId
  let s := applyActions row.positionId .reflectedInEntryBasis s a.reflected
  let s := applyActions row.positionId .applied s a.applicable
  applyActions row.positionId .dividendObserved s
    (a.dividends.filter fun e => e.exDate.any (row.entrySession < ·))

/-- A blocked verdict is persisted as the position's one `BLOCKED_…` row, when it has a key. -/
def persistBlock (pid : ℕ) (b : Blocked) : Prog Call Store Verdict :=
  match b.key with
  | none => pure ⟨b.status, some b.code, []⟩
  | some key => do
    Prog.write (.trail pid) fun s => (s.clearBlockedActionRows pid).recordBlockedAction pid key b.code
    pure ⟨b.status, some b.code, []⟩

def assessPosition (evidence : Evidence) (pid : ℕ) (asOf : Date) (fill : Option ExitFill) :
    Prog Call Store Verdict := do
  let row? ← Prog.read .read (·.positionById pid)
  match row? with
  | none => pure ⟨.clear, none, []⟩
  | some row =>
    if row.status ≠ .open then pure ⟨.clear, none, []⟩
    else do
      let res ← Prog.read .lookup fun _ => evidence.fetch row.symbol row.entrySession (assessStop asOf fill)
      match assessEvidence row res asOf fill with
      | .error b => persistBlock row.positionId b
      | .ok a => do
        let trail ← Prog.read .read (·.positionActionTrail row.positionId)
        match assessTrail row trail a fill with
        | .error b => persistBlock row.positionId b
        | .ok eligible => do
          Prog.write (.trail row.positionId) (applyAssessed row a)
          let adjusted ← Prog.read .read fun s =>
            (s.positionActionTrail row.positionId).any (·.status = .applied)
          pure ⟨if adjusted then .adjusted else .clear, none, eligible⟩

end TalonX.V2
