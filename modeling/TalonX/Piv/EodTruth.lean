import TalonX.Piv.EodLifecycle
import TalonX.Transact.Escape

/-!
# The end of the day is told truthfully

- `flat_of_passed`: a reconcile that counts as passed has read an empty book and no positions, and has left nothing
  uncertain;
- `Recorded`: a state file that says "requested" tells of requests that the broker accepted for its session and date;
- `EodTruthful`: what each step of a call relies on; `wp_conclude`, `wp_runEodLifecycle`: the call keeps to it under all
  faults;
- `eod_truthful`: the same over any sequence of calls that are cut off anywhere.
-/

set_option autoImplicit false

namespace TalonX.Piv

open Transact Transact.Prog V2

/-- A complete read of a broker without open orders and positions, and no submission left uncertain. -/
structure BrokerFlat (a : EodArgs) (left : LifecycleState) (report : EodReport) : Prop where
  openOrders : a.reads.openOrders = .rows []
  positions : a.reads.positions = .rows []
  readFailures : report.findings.readFailures = []
  uncertain : left.uncertainIds = []
  unconfirmed : left.unconfirmedIds = []
  orphaned : report.findings.orphanIntents = []

/-- The reconcile that read it returned since the journal was `j₀`. -/
def FlatSince (a : EodArgs) (j₀ j : List JournalEntry) : Prop :=
  ∃ new left report, j = j₀ ++ new ∧ .reconciled left report ∈ new ∧ BrokerFlat a left report

/-- Both requests were accepted in calls for the session and the date. -/
def BothAccepted (sessionId tradingDateEt : String) (j : List JournalEntry) : Prop :=
  .accepted .cancelAllOrders sessionId tradingDateEt ∈ j ∧ .accepted .closeAllPositions sessionId tradingDateEt ∈ j

theorem BothAccepted.append {sessionId tradingDateEt : String} {j : List JournalEntry}
    (h : BothAccepted sessionId tradingDateEt j) (new : List JournalEntry) :
    BothAccepted sessionId tradingDateEt (j ++ new) :=
  ⟨List.mem_append_left _ h.1, List.mem_append_left _ h.2⟩

theorem FlatSince.append {a : EodArgs} {j₀ j : List JournalEntry} (h : FlatSince a j₀ j) (new : List JournalEntry) :
    FlatSince a j₀ (j ++ new) := by
  obtain ⟨since, left, report, rfl, hmem, hflat⟩ := h
  exact ⟨since ++ new, left, report, List.append_assoc .., List.mem_append_left _ hmem, hflat⟩

/-! ## A pass that counts as passed -/

theorem ListRead.eq_nil {α : Type} {read : ListRead α} {failed malformed : ReadFailure}
    (hf : read.failures failed malformed = []) (hl : read.list.length = 0) : read = .rows [] := by
  cases read with
  | raised => cases hf
  | malformed => cases hf
  | rows xs =>
    have hxs : xs = [] := List.eq_nil_of_length_eq_zero hl
    rw [hxs]

/-- The submissions that a report calls unresolved are those that the reconcile has left. -/
theorem unresolved_reconcile (s : LifecycleState) (now : Instant) (reads : Reads) :
    (reconcile s now reads).2.unresolvedSubmissions = (reconcile s now reads).1.uncertainIds ∧
      (reconcile s now reads).2.unconfirmedTimeoutOrders = (reconcile s now reads).1.unconfirmedIds := by
  simp only [reconcile]
  generalize refreshNonTerminalOrders (beforeRefresh s now reads) reads.refresh = s₂
  generalize unresolvedIds (beforeRefresh s now reads) reads.refresh = unresolved
  exact ⟨rfl, rfl⟩

theorem flat_of_passed {a : EodArgs} {s : LifecycleState} (h : eodStatus (some (a.report s)) = .passed) :
    BrokerFlat a (reconcile s a.now a.reads).1 (a.report s) := by
  simp only [eodStatus] at h
  split at h
  · cases h
  rename_i hread
  split at h
  · rename_i hzero
    obtain ⟨horders, hpositions, -⟩ := hzero
    simp only [EodReport.inconclusive, Bool.or_eq_true, Bool.not_eq_true', not_or, Bool.not_eq_false] at hread
    obtain ⟨hfail, hcomplete⟩ := hread
    have hfailures : (a.report s).findings.readFailures = [] := List.isEmpty_iff.1 hfail
    simp only [Reconciliation.complete, Bool.and_eq_true, List.isEmpty_iff] at hcomplete
    obtain ⟨⟨⟨-, huncertain⟩, hunconfirmed⟩, horphan⟩ := hcomplete
    obtain ⟨hunresolved, htimeout⟩ := unresolved_reconcile s a.now a.reads
    have hparts := hfailures
    simp only [EodArgs.report, reconcile, compareWithBroker, List.append_eq_nil_iff] at hparts
    obtain ⟨⟨⟨⟨-, ho⟩, hp⟩, -⟩, -⟩ := hparts
    exact ⟨ListRead.eq_nil ho horders, ListRead.eq_nil hp hpositions, hfailures, hunresolved ▸ huncertain,
      htimeout ▸ hunconfirmed, horphan⟩
  · cases h

/-! ## What the steps rely on -/

/-- The state file tells of requests that the broker has accepted. -/
def Recorded (w : EodWorld) : Prop :=
  ∀ st, w.eodState = some st → st.cancelCloseRequested = true → BothAccepted st.sessionId st.tradingDateEt w.journal

/-- Both requests were accepted before the journal was `j₀`, or both since then. -/
def AskedSince (a : EodArgs) (j₀ j : List JournalEntry) : Prop :=
  BothAccepted a.liveSessionId a.tradingDateEt j₀ ∨
    ∃ new, j = j₀ ++ new ∧ BothAccepted a.liveSessionId a.tradingDateEt new

theorem AskedSince.append {a : EodArgs} {j₀ j : List JournalEntry} (h : AskedSince a j₀ j) (new : List JournalEntry) :
    AskedSince a j₀ (j ++ new) := by
  rcases h with h | ⟨since, rfl, h⟩
  · exact .inl h
  · exact .inr ⟨since ++ new, List.append_assoc .., h.append new⟩

/-- The steps of a call that change what positions are open: those of the reconcile. -/
def EodStep.reconciles : EodStep → Bool
  | reconciling | reconcile => true
  | _ => false

/-- What the step `l` of a call that began with the journal `j₀` does to the world. -/
structure EodTruthful (a : EodArgs) (j₀ : List JournalEntry) (l : EodStep) (w w' : EodWorld) : Prop where
  completed : ∀ e, l = .emit e → e.type = .sessionCompleted → FlatSince a j₀ w.journal
  closed : l.reconciles = false → w'.lifecycle.positions ≠ w.lifecycle.positions → FlatSince a j₀ w.journal
  skipped : ∀ e, l = .emit e → e.status = some .alreadyRequestedSkippedIdempotentRetry →
    BothAccepted a.liveSessionId a.tradingDateEt j₀
  asked : l = .reconcile → AskedSince a j₀ w.journal

/-- Neither an event, nor the end of a reconcile. -/
def EodStep.quiet : EodStep → Bool
  | emit _ | reconcile => false
  | _ => true

section Steps

variable {a : EodArgs} {j₀ : List JournalEntry} {w w' : EodWorld}

theorem EodTruthful.quiet {l : EodStep} (hl : l.quiet = true)
    (hclosed : l.reconciles = false → w'.lifecycle.positions ≠ w.lifecycle.positions → FlatSince a j₀ w.journal) :
    EodTruthful a j₀ l w w' where
  completed e he := by subst he; cases hl
  closed := hclosed
  skipped e he := by subst he; cases hl
  asked he := by subst he; cases hl

theorem EodTruthful.emit {ev : EodEvent} (hc : ev.type = .sessionCompleted → FlatSince a j₀ w.journal)
    (hs : ev.status = some .alreadyRequestedSkippedIdempotentRetry → BothAccepted a.liveSessionId a.tradingDateEt j₀)
    (hw : w'.lifecycle = w.lifecycle) : EodTruthful a j₀ (.emit ev) w w' where
  completed e he := by cases he; exact hc
  closed _ hne := absurd (by rw [hw]) hne
  skipped e he := by cases he; exact hs
  asked he := by cases he

theorem EodTruthful.reconcile (h : AskedSince a j₀ w.journal) : EodTruthful a j₀ .reconcile w w' where
  completed e he := by cases he
  closed hl := by cases hl
  skipped e he := by cases he
  asked _ := h

end Steps

/-- A call that began with the journal `j₀`. -/
structure Begun (j₀ : List JournalEntry) (w : EodWorld) : Prop where
  recorded : Recorded w
  since : ∃ new, w.journal = j₀ ++ new

/-- Any step may raise, and the process may die before any step. -/
def eodContract (a : EodArgs) (j₀ : List JournalEntry) : Contract EodStep EodWorld where
  commit := EodTruthful a j₀
  mayFault _ _ := True
  atCrash := Recorded

section Rules

variable {a : EodArgs} {j₀ : List JournalEntry} {R : EodWorld → Prop} {w : EodWorld}

theorem Recorded.journal (h : Recorded w) (new : List JournalEntry) :
    Recorded { w with journal := w.journal ++ new } := fun st hst hreq => (h st hst hreq).append new

theorem Begun.journal (h : Begun j₀ w) (e : JournalEntry) : Begun j₀ { w with journal := w.journal ++ [e] } := by
  obtain ⟨new, hnew⟩ := h.since
  exact ⟨h.recorded.journal [e], new ++ [e], by rw [hnew, List.append_assoc]⟩

theorem Begun.lifecycle (h : Begun j₀ w) (s : LifecycleState) : Begun j₀ { w with lifecycle := s } :=
  ⟨h.recorded, h.since⟩

/-- A state file that does not say "requested", or says so after the requests. -/
theorem Begun.state (h : Begun j₀ w) (status : EodStatus) (cancelCloseRequested : Bool)
    (reconciliation : Option EodReport) (error : Option EodError)
    (hb : cancelCloseRequested = true → BothAccepted a.liveSessionId a.tradingDateEt w.journal) :
    Begun j₀ { w with eodState := some (a.state status cancelCloseRequested reconciliation error) } := by
  refine ⟨fun st hst hreq => ?_, h.since⟩
  obtain rfl := Option.some.inj hst
  exact hb hreq

/-- What makes a call skip the requests. -/
theorem Recorded.of_prior (h : Recorded w)
    (hprior : ((w.eodState.filter (·.tradingDateEt = a.tradingDateEt)).any fun st =>
      st.sessionId = a.liveSessionId && st.cancelCloseRequested) = true) :
    BothAccepted a.liveSessionId a.tradingDateEt w.journal := by
  cases hst : w.eodState with
  | none => simp [hst] at hprior
  | some st =>
    by_cases hdate : st.tradingDateEt = a.tradingDateEt
    · simp only [hst, Option.filter_some, hdate, decide_true, if_true, Option.any_some, Bool.and_eq_true,
        decide_eq_true_eq] at hprior
      rw [← hprior.1, ← hdate]
      exact h st hst hprior.2
    · simp [hst, Option.filter_some, hdate] at hprior

theorem wp_emit {type : EodEventType} {status : Option EodEventStatus} {reason : Option EodReason}
    {Q : Unit → EodWorld → Prop} (hR : R w) (hw : Begun j₀ w)
    (hc : type = .sessionCompleted → FlatSince a j₀ w.journal)
    (hs : status = some .alreadyRequestedSkippedIdempotentRetry → BothAccepted a.liveSessionId a.tradingDateEt j₀)
    (hQ : Q () { w with journal := w.journal ++ [.emitted (a.event type status reason)] }) :
    wp (eodContract a j₀) (a.emit type status reason) Q R w := by
  refine wp_write ?_ hQ fun _ => ⟨hw.recorded, hR⟩
  exact EodTruthful.emit hc hs rfl

theorem wp_saveState {st : EodState} {Q : Unit → EodWorld → Prop} (hR : R w)
    (hw : Begun j₀ w) (hQ : Q () { w with eodState := some st }) :
    wp (eodContract a j₀) (EodArgs.saveState st) Q R w := by
  refine wp_write ?_ hQ fun _ => ⟨hw.recorded, hR⟩
  exact EodTruthful.quiet rfl fun _ hne => absurd rfl hne

theorem wp_saveLifecycle {Q : Unit → EodWorld → Prop} (hR : R w) (hw : Begun j₀ w)
    (hQ : Q () w) : wp (eodContract a j₀) EodArgs.saveLifecycle Q R w := by
  refine wp_write ?_ hQ fun _ => ⟨hw.recorded, hR⟩
  exact EodTruthful.quiet rfl fun _ hne => absurd rfl hne

theorem wp_request {r : EodRequest} {Q : Unit → EodWorld → Prop} (hR : R w)
    (hw : Begun j₀ w) (hQ : Q () { w with journal := w.journal ++ [.accepted r a.liveSessionId a.tradingDateEt] }) :
    wp (eodContract a j₀) (a.request r) Q R w := by
  refine wp_write ?_ hQ fun _ => ⟨hw.recorded, hR⟩
  exact EodTruthful.quiet rfl fun _ hne => absurd rfl hne

/-! ## The requests -/

/-- The first `try` returns; without an error both requests were accepted. -/
theorem wp_requestCancelClose (h : Begun j₀ w) :
    wp (eodContract a j₀) a.requestCancelClose
      (fun error w => Begun j₀ w ∧ (error = none → AskedSince a j₀ w.journal)) R w := by
  refine wp_tryCatch ?_
  have h₁ := h.journal (.accepted .cancelAllOrders a.liveSessionId a.tradingDateEt)
  have h₂ := h₁.journal (.emitted (a.event .eodFlattenRequested none none))
  have h₃ := h₂.journal (.accepted .closeAllPositions a.liveSessionId a.tradingDateEt)
  refine wp_bind (wp_request ⟨h, nofun⟩ h ?_)
  refine wp_bind (wp_emit ⟨h₁, nofun⟩ h₁ nofun nofun ?_)
  refine wp_bind (wp_request ⟨h₂, nofun⟩ h₂ ?_)
  obtain ⟨new, hnew⟩ := h.since
  refine ⟨h₃, fun _ => .inr ⟨new ++
    [.accepted .cancelAllOrders a.liveSessionId a.tradingDateEt, .emitted (a.event .eodFlattenRequested none none),
      .accepted .closeAllPositions a.liveSessionId a.tradingDateEt], ?_, ?_⟩⟩
  · simp only [hnew, List.append_assoc, List.cons_append, List.nil_append]
  · simp [BothAccepted]

/-! ## The reconcile -/

/-- A call whose requests were accepted, now or earlier. -/
structure Asked (a : EodArgs) (j₀ : List JournalEntry) (w : EodWorld) : Prop extends Begun j₀ w where
  asked : AskedSince a j₀ w.journal

theorem Asked.accepted (h : Asked a j₀ w) : BothAccepted a.liveSessionId a.tradingDateEt w.journal := by
  obtain ⟨new, hnew⟩ := h.since
  rcases h.asked with ha | ⟨new', hnew', ha⟩
  · rw [hnew]
    exact ha.append new
  · rw [hnew']
    exact ⟨List.mem_append_right j₀ ha.1, List.mem_append_right j₀ ha.2⟩

theorem Asked.journal (h : Asked a j₀ w) (e : JournalEntry) : Asked a j₀ { w with journal := w.journal ++ [e] } :=
  ⟨h.toBegun.journal e, h.asked.append [e]⟩

theorem Asked.lifecycle (h : Asked a j₀ w) (s : LifecycleState) : Asked a j₀ { w with lifecycle := s } :=
  ⟨h.toBegun.lifecycle s, h.asked⟩

/-- A reconcile whose report counts as passed. -/
def Concluded (a : EodArgs) (j₀ : List JournalEntry) (reconciliation : Option EodReport) (w : EodWorld) : Prop :=
  Asked a j₀ w ∧ (eodStatus reconciliation = .passed → FlatSince a j₀ w.journal)

/-- The world in which the reconcile leaves a call that has asked. -/
theorem Asked.concluded (h : Asked a j₀ w) :
    Concluded a j₀ (some (a.report w.lifecycle))
      { w with
        lifecycle := (reconcile w.lifecycle a.now a.reads).1
        journal := w.journal ++
          [.reconciled (reconcile w.lifecycle a.now a.reads).1 (a.report w.lifecycle)] } := by
  refine ⟨(h.journal _).lifecycle _, fun hpassed => ?_⟩
  obtain ⟨new, hnew⟩ := h.since
  refine ⟨new ++ [_], _, _, ?_, List.mem_append_right new (List.mem_singleton.2 rfl), flat_of_passed hpassed⟩
  rw [hnew, List.append_assoc]

theorem wp_reconcilePass (hR : ∀ w, Asked a j₀ w → R w) (h : Asked a j₀ w) :
    wp (eodContract a j₀) a.reconcilePass (fun r => Concluded a j₀ (some r)) R w := by
  refine wp_bind (wp_read ?_ ?_ fun _ => ⟨h.recorded, hR _ h⟩)
  · exact EodTruthful.quiet rfl fun _ hne => absurd rfl hne
  have h₁ := h.lifecycle a.partway
  refine wp_bind (wp_write ?_ ?_ fun _ => ⟨h.recorded, hR _ h⟩)
  · exact EodTruthful.quiet rfl nofun
  refine wp_bind (wp_write ?_ ?_ fun _ => ⟨h₁.recorded, hR _ h₁⟩)
  · exact EodTruthful.reconcile h₁.asked
  · exact h.concluded

/-- The second `try` returns. -/
theorem wp_tryReconcile (h : Asked a j₀ w) :
    wp (eodContract a j₀) a.tryReconcile (fun r => Concluded a j₀ r.1) R w := by
  refine wp_tryCatch (wp_bind (wp_mono (fun _ _ hc => hc) (fun _ hr => hr) (wp_reconcilePass ?_ h)))
  intro w' h'
  exact ⟨h', nofun⟩

/-! ## The call -/

/-- What a call returns, and where. -/
structure Told (a : EodArgs) (j₀ : List JournalEntry) (r : EodResult) (w : EodWorld) : Prop extends Begun j₀ w where
  passed : r.status = .passed → FlatSince a j₀ w.journal
  exitCode : r.exitCode = 0 ↔ r.status = .passed

theorem wp_conclude (h : Asked a j₀ w) :
    wp (eodContract a j₀) a.conclude (Told a j₀) Recorded w := by
  refine wp_bind (wp_emit h.recorded h.toBegun nofun nofun ?_)
  refine wp_then (wp_tryReconcile (h.journal _)) fun r w₁ hr => ?_
  obtain ⟨reconciliation, error⟩ := r
  obtain ⟨h₁, hflat⟩ := hr
  dsimp only at hflat ⊢
  split
  case isTrue hpassed =>
    have hw := hflat hpassed
    have h₂ := h₁.lifecycle w₁.lifecycle.closePositions
    have h₃ := h₂.journal (.emitted (a.event .eodReconciliationPassed (some (.result (eodStatus reconciliation)))
      ((eodError reconciliation error).map .error)))
    have h₄ := h₃.toBegun.state (eodStatus reconciliation) true reconciliation (eodError reconciliation error)
      fun _ => h₃.accepted
    refine wp_bind (wp_write ?_ ?_ fun _ => ⟨h₁.recorded, h₁.recorded⟩)
    · exact EodTruthful.quiet rfl fun _ _ => hw
    refine wp_bind (wp_saveLifecycle h₂.recorded h₂.toBegun ?_)
    refine wp_bind (wp_emit h₂.recorded h₂.toBegun nofun nofun ?_)
    refine wp_bind (wp_saveState h₃.recorded h₃.toBegun ?_)
    refine wp_bind (wp_emit h₄.recorded h₄ (fun _ => hw.append _) nofun ?_)
    exact ⟨h₄.journal _, fun _ => (hw.append _).append _, fun _ => hpassed, fun _ => rfl⟩
  case isFalse hnot =>
    have h₂ := h₁.journal (.emitted (a.event .eodReconciliationFailed (some (.result (eodStatus reconciliation)))
      ((eodError reconciliation error).map .error)))
    refine wp_bind (wp_emit h₁.recorded h₁.toBegun nofun nofun ?_)
    refine wp_bind (wp_saveState h₂.recorded h₂.toBegun ?_)
    refine ⟨h₂.toBegun.state _ _ _ _ fun _ => h₂.accepted, fun hp => absurd hp hnot, ?_⟩
    exact ⟨nofun, fun hp => absurd hp hnot⟩

theorem wp_runEodLifecycle (hw : Recorded w) :
    wp (eodContract a w.journal) a.runEodLifecycle (Told a w.journal) Recorded w := by
  have h₀ : Begun w.journal w := ⟨hw, [], by simp⟩
  have h₁ := h₀.journal (.emitted (a.event .eodStarted (some .lifecycleTriggered) (some (.trigger a.triggerReason))))
  refine wp_bind (wp_read ?_ ?_ fun _ => ⟨hw, hw⟩)
  · exact EodTruthful.quiet rfl fun _ hne => absurd rfl hne
  refine wp_bind (wp_emit h₀.recorded h₀ nofun nofun ?_)
  split
  case isTrue hprior =>
    have hasked : BothAccepted a.liveSessionId a.tradingDateEt w.journal := hw.of_prior hprior
    refine wp_bind (wp_emit h₁.recorded h₁ nofun (fun _ => hasked) ?_)
    exact wp_conclude ⟨h₁.journal _, .inl hasked⟩
  case isFalse =>
    have h₂ := h₁.journal (.emitted (a.event .eodCancelRequested none none))
    refine wp_bind (wp_emit h₁.recorded h₁ nofun nofun ?_)
    refine wp_then (wp_requestCancelClose h₂) fun error w₃ hr => ?_
    obtain ⟨h₃, hasked⟩ := hr
    cases error with
    | some e =>
      have h₄ := h₃.journal (.emitted (a.event .eodReconciliationFailed (some (.result .inconclusive))
        (some (.error e))))
      refine wp_bind (wp_emit h₃.recorded h₃ nofun nofun ?_)
      refine wp_bind (wp_saveState h₄.recorded h₄ ?_)
      exact ⟨h₄.state _ _ _ _ nofun, nofun, nofun, nofun⟩
    | none =>
      have h₄ := h₃.lifecycle { w₃.lifecycle with sessionEnabled := false }
      refine wp_bind (wp_write ?_ ?_ fun _ => ⟨h₃.recorded, h₃.recorded⟩)
      · exact EodTruthful.quiet rfl fun _ hne => absurd rfl hne
      refine wp_bind (wp_saveLifecycle h₄.recorded h₄ ?_)
      refine wp_bind (wp_saveState h₄.recorded h₄ ?_)
      have h₅ : Asked a w.journal { w₃ with lifecycle := { w₃.lifecycle with sessionEnabled := false } } :=
        ⟨h₄, hasked rfl⟩
      exact wp_conclude ⟨h₄.state _ _ _ _ fun _ => h₅.accepted, hasked rfl⟩

end Rules

/-! ## Runs -/

variable {w : EodWorld}

/-- A call under its faults, from a state file that can be relied on. -/
theorem call_kept (a : EodArgs) (faults : List Fault) (hw : Recorded w) :
    (∀ e ∈ (exec a.runEodLifecycle faults w).1, e.Kept (eodContract a w.journal)) ∧
      Ends (eodContract a w.journal) (Told a w.journal) Recorded (exec a.runEodLifecycle faults w).2.2
        (exec a.runEodLifecycle faults w).2.1 :=
  wp_sound (exec_sound _ _ _) (wp_runEodLifecycle hw) fun _ _ => ⟨fun _ => trivial, fun _ => trivial⟩

theorem Recorded.step (hw : Recorded w) (op : EodOp) : Recorded (w.step op) := by
  cases op with
  | call a faults =>
    have hend := (call_kept a faults hw).2
    show Recorded (exec a.runEodLifecycle faults w).2.1
    cases ho : (exec a.runEodLifecycle faults w).2.2 with
    | done r =>
      rw [ho] at hend
      exact hend.recorded
    | raised =>
      rw [ho] at hend
      exact hend
    | crashed =>
      rw [ho] at hend
      exact hend
  | other lifecycle fileLost =>
    cases fileLost with
    | true => exact nofun
    | false => exact hw

/-- Whatever has happened, the state file can be relied on. -/
theorem recorded_eodRun (ops : List EodOp) : Recorded (eodRun ops) := by
  have hrun : ∀ w, Recorded w → Recorded (ops.foldl EodWorld.step w) := by
    induction ops with
    | nil => exact fun _ hw => hw
    | cons op ops ih => exact fun w hw => ih _ (hw.step op)
  exact hrun _ nofun

/-! ## What escapes -/

/-- The steps outside of the `try` blocks are those that do not talk to the broker. -/
theorem escapesAt_runEodLifecycle (a : EodArgs) : a.runEodLifecycle.EscapesAt (·.broker = false) := by
  have hconclude : a.conclude.EscapesAt (·.broker = false) := by
    refine escapesAt_bind (escapesAt_write rfl) fun _ => ?_
    refine escapesAt_bind (escapesAt_tryCatch (escapesAt_ret _)) fun r => ?_
    obtain ⟨reconciliation, error⟩ := r
    dsimp only
    split
    · refine escapesAt_bind (escapesAt_write rfl) fun _ => ?_
      refine escapesAt_bind (escapesAt_write rfl) fun _ => ?_
      refine escapesAt_bind (escapesAt_write rfl) fun _ => ?_
      refine escapesAt_bind (escapesAt_write rfl) fun _ => ?_
      exact escapesAt_bind (escapesAt_write rfl) fun _ => escapesAt_ret _
    · refine escapesAt_bind (escapesAt_write rfl) fun _ => ?_
      exact escapesAt_bind (escapesAt_write rfl) fun _ => escapesAt_ret _
  refine escapesAt_bind (escapesAt_read rfl) fun prior => ?_
  refine escapesAt_bind (escapesAt_write rfl) fun _ => ?_
  split
  · exact escapesAt_bind (escapesAt_write rfl) fun _ => hconclude
  · refine escapesAt_bind (escapesAt_write rfl) fun _ => ?_
    refine escapesAt_bind (escapesAt_tryCatch (escapesAt_ret _)) fun error => ?_
    cases error with
    | some e =>
      refine escapesAt_bind (escapesAt_write rfl) fun _ => ?_
      exact escapesAt_bind (escapesAt_write rfl) fun _ => escapesAt_ret _
    | none =>
      refine escapesAt_bind (escapesAt_write rfl) fun _ => ?_
      refine escapesAt_bind (escapesAt_write rfl) fun _ => ?_
      exact escapesAt_bind (escapesAt_write rfl) fun _ => hconclude

/-! ## The end of the day -/

/-- A call from the world `w`: the steps `es` that it takes, the world it leaves and how it ends. -/
structure EodCall (a : EodArgs) (w : EodWorld) (es : List (Transact.Event EodStep EodWorld)) (w' : EodWorld)
    (o : Outcome EodResult) : Prop where
  /-- `PASSED`, which is the exit code 0, is only returned when a complete read of this call found the broker flat. -/
  passed : ∀ r, o = .done r → (r.exitCode = 0 ↔ r.status = .passed) ∧
    (r.status = .passed → FlatSince a w.journal w'.journal)
  /-- So is the session only completed, -/
  completed : ∀ e ∈ es, e.fault = .none → ∀ ev, e.lbl = .emit ev → ev.type = .sessionCompleted →
    FlatSince a w.journal e.pre.journal
  /-- and so are positions only closed by a step that is not the reconcile itself. -/
  closed : ∀ e ∈ es, e.fault = .none → e.lbl.reconciles = false →
    e.post.lifecycle.positions ≠ e.pre.lifecycle.positions → FlatSince a w.journal e.pre.journal
  /-- The requests are only skipped when both were accepted before, -/
  skipped : ∀ e ∈ es, e.fault = .none → ∀ ev, e.lbl = .emit ev →
    ev.status = some .alreadyRequestedSkippedIdempotentRetry →
    BothAccepted a.liveSessionId a.tradingDateEt w.journal
  /-- and a reconcile comes to its end only when they were, or both were accepted in this call. -/
  asked : ∀ e ∈ es, e.fault = .none → e.lbl = .reconcile → AskedSince a w.journal e.pre.journal
  /-- An exception that leaves the call was raised by a step that does not talk to the broker. -/
  escaped : o = .raised → ∃ before e, es = before ++ [e] ∧ e.fault = .raise ∧ e.lbl.broker = false

/-- Every call of every run, with any faults, is truthful. -/
theorem eod_truthful (ops : List EodOp) (a : EodArgs) (faults : List Fault) :
    EodCall a (eodRun ops) (exec a.runEodLifecycle faults (eodRun ops)).1
      (exec a.runEodLifecycle faults (eodRun ops)).2.1 (exec a.runEodLifecycle faults (eodRun ops)).2.2 := by
  obtain ⟨hkept, hend⟩ := call_kept a faults (recorded_eodRun ops)
  constructor
  case passed =>
    intro r hr
    rw [hr] at hend
    exact ⟨hend.exitCode, hend.passed⟩
  case completed => exact fun e he hf => (hkept e he hf).completed
  case closed => exact fun e he hf => (hkept e he hf).closed
  case skipped => exact fun e he hf => (hkept e he hf).skipped
  case asked => exact fun e he hf => (hkept e he hf).asked
  case escaped => exact (exec_sound _ _ _).raised_at (escapesAt_runEodLifecycle a)

/-- A day that ends quietly: the call is repeated, skips the requests, and passes again. -/
example :
    let a : EodArgs :=
      { liveSessionId := "live", tradingDateEt := "2026-07-06", runtimeSha := "", configHash := "", triggerReason := ""
        reconciliationRunId := "", now := 0, partway := {}, exceptionText := ""
        reads := ⟨fun _ => none, fun _ => .notFound, fun _ => none, .rows [], .rows []⟩ }
    ((exec a.runEodLifecycle [] (eodRun [.call a []])).2.2 matches .done (.mk .passed _ 0)) = true := by
  decide +kernel

end TalonX.Piv
