import TalonX.Delivery.Pipeline
import TalonX.Transact.Trailing

/-!
# The backoff of a deferred row

The operations of `DeliveryOutbox`, one after the other, from any number of callers.

- `Operation`: a call of one of its methods; a sweep is the judgement of one row after the other (`run_sweep`);
- `RowOutcome`, `Past`: what a run has done to one row: it was opened, or judged;
- `deferCount_of_past`: the counter counts the `DEFER`s since the row was opened, or last retired;
- `Calm.held`: what leaves the row out of `pending` until its time has come;
- `defer_count_consecutive_iff`: it counts the consecutive ones, exactly when no `OK` came after one of them.
-/

set_option autoImplicit false

namespace TalonX.Delivery

open Transact V2 Outbox

variable {ι : Type} [DecidableEq ι]

/-! ## Operations -/

/-- A call of a method of `DeliveryOutbox` that writes. -/
inductive Operation (ι : Type)
  | enqueue (deliveryId : DeliveryId) (m : Message) (disposition : Disposition) (now : Option Instant)
  | judge (cfg : DrainConfig) (row : DeliveryRow ι) (now : Instant)
  | recoverInFlight (staleAfterSeconds : ℤ) (now : Option Instant)
  | claimForSend (deliveryId : DeliveryId) (a : AttemptId ι) (now : Instant)
  | claimDigestBatch (ids : List DeliveryId) (a : AttemptId ι) (now : Instant)
  | releaseClaim (deliveryId : DeliveryId) (a : AttemptId ι)
  | markSent (deliveryId : DeliveryId) (messageId : Option ℕ) (now : Instant)
  | markDigestSent (ids : List DeliveryId) (a : AttemptId ι) (messageId : Option ℕ) (now : Instant)
  | markAmbiguous (deliveryId : DeliveryId) (detail : String)
  | markFailed (deliveryId : DeliveryId) (a : AttemptId ι) (error : String) (retryAfter : Option ℤ) (permanent : Bool)
      (now : Instant)

namespace Operation

/-- The store after the operation. -/
def apply (s : Outbox ι) : Operation ι → Outbox ι
  | enqueue k m disposition now => (exec (Delivery.enqueue k m disposition now) [] s).2.1
  | judge cfg row now => (exec (expireRowIfStale cfg none row now) [] s).2.1
  | recoverInFlight stale now => (exec (Delivery.recoverInFlight stale now : Job ι Unit) [] s).2.1
  | claimForSend k a now => s.claimForSend k a now
  | claimDigestBatch ids a now => s.claimDigestBatch ids a now
  | releaseClaim k a => s.releaseClaim k a
  | markSent k messageId now => s.markSent k messageId now
  | markDigestSent ids a messageId now => s.markDigestSent ids a messageId now
  | markAmbiguous k detail => s.markAmbiguous k detail
  | markFailed k a error retryAfter permanent now =>
    (exec (recordFailure a k error retryAfter permanent now) [] s).2.1

end Operation

/-- What the freshness gate makes of a row. -/
def judgement (cfg : DrainConfig) (row : DeliveryRow ι) (now : Instant) (s : Outbox ι) : Freshness :=
  if cfg.eventTimeLookup then judgeWith cfg.maxAgeSeconds row now (s.env.evidence s.consulted row.eventId)
  else judgeWithout cfg.maxAgeSeconds row now

/-- What an operation does to a row, as far as its deferrals go. -/
inductive RowOutcome
  | opened
  | judged (verdict : Freshness)
  deriving DecidableEq, Repr

/-- The decision of `enqueue` starts the row afresh. -/
def EnqueueDecision.opens : EnqueueDecision → Bool
  | .insert | .approveUpdate _ | .reopen => true
  | _ => false

def Operation.outcome (k : DeliveryId) (s : Outbox ι) : Operation ι → Option RowOutcome
  | .enqueue k' m disposition _ =>
    if k' = k ∧ (enqueueDecision m disposition (s.get k)).opens then some .opened else none
  | .judge cfg row now => if row.deliveryId = k then some (.judged (judgement cfg row now s)) else none
  | _ => none

/-- A run leads to `s`, and has done `os` to the row. -/
inductive Past (k : DeliveryId) : List RowOutcome → Outbox ι → Prop
  | start (env : Environment) : Past k [] (.empty env)
  | step {os : List RowOutcome} {s : Outbox ι} (op : Operation ι) :
      Past k os s → Past k (os ++ (op.outcome k s).toList) (op.apply s)

/-! ## What one operation does to the row -/

section Effects

variable {k : DeliveryId} {s : Outbox ι} {row : DeliveryRow ι} {now : Instant}

/-- The statement that a verdict leads to. -/
def carriedOut (row : DeliveryRow ι) (now : Instant) (s : Outbox ι) : Freshness → Outbox ι
  | .ok => s
  | .expired reason => s.retire row.deliveryId .expired reason
  | .unqualified reason => s.retire row.deliveryId .suppressed reason
  | .defer =>
    let deferCount := (s.get row.deliveryId).elim 0 (·.deferCount) + 1
    s.defer row.deliveryId (now + deferBackoffSeconds deferCount) deferCount

omit [DecidableEq ι] in
theorem exec_applyFreshness (claim : Option (AttemptId ι)) (v : Freshness) (s : Outbox ι) :
    (exec (applyFreshness claim row now v) [] s).2 = (carriedOut row now s v, .done v) := by
  cases v <;> rfl

omit [DecidableEq ι] in
/-- The gate with its verdict. -/
theorem exec_expireRowIfStale (cfg : DrainConfig) (row : DeliveryRow ι) (now : Instant) (claim : Option (AttemptId ι))
    (s : Outbox ι) :
    ∃ t, t.rows = s.rows ∧ t.env = s.env ∧
      (exec (expireRowIfStale cfg claim row now) [] s).2 =
        (carriedOut row now t (judgement cfg row now s), .done (judgement cfg row now s)) := by
  unfold expireRowIfStale freshness judgement
  by_cases hlook : cfg.eventTimeLookup = true
  · rw [if_pos hlook, if_pos hlook]
    exact ⟨s.lookup row now, rfl, rfl, exec_applyFreshness claim _ _⟩
  · rw [if_neg hlook, if_neg hlook]
    exact ⟨s, rfl, rfl, exec_applyFreshness claim _ _⟩

omit [DecidableEq ι] in
theorem get_of_rows {s t : Outbox ι} (h : t.rows = s.rows) (k : DeliveryId) : t.get k = s.get k := by
  rw [Outbox.get, h]
  rfl

omit [DecidableEq ι] in
theorem get_carriedOut_of_ne (v : Freshness) (h : row.deliveryId ≠ k) : (carriedOut row now s v).get k = s.get k := by
  have hne : ∀ r, s.get k = some r → decide (r.deliveryId = row.deliveryId) = false := fun r hr =>
    decide_eq_false fun heq => h (heq.symm.trans (deliveryId_of_get hr))
  cases v with
  | ok => rfl
  | expired reason | unqualified reason | defer =>
    refine (get_modify ..).trans ?_
    cases hr : s.get k with
    | none => rfl
    | some r =>
      rw [Option.map_some, hne r hr]
      rfl

omit [DecidableEq ι] in
/-- A row that is retired or deferred is found under its own id. -/
theorem get_modify_self {w : RowWrite ι} : (s.modify (·.deliveryId = k) w).get k = (s.get k).map w.set := by
  rw [get_modify]
  cases hr : s.get k with
  | none => rfl
  | some r =>
    rw [Option.map_some, Option.map_some, if_pos (decide_eq_true (deliveryId_of_get hr))]

/-- What an operation does that neither opens nor judges the row: a row in `pending` keeps its time, unless a failed send
brought it there. -/
structure Undecided (failed : Prop) (r r' : DeliveryRow ι) : Prop where
  deferCount : r'.deferCount = r.deferCount
  held : ¬failed → ∀ t, (r.state = .pending ∨ r.state = .inFlight → r.nextRetryAt = some t) →
    (r'.state = .pending ∨ r'.state = .inFlight → r'.nextRetryAt = some t)

omit [DecidableEq ι] in
theorem Undecided.refl {failed : Prop} (r : DeliveryRow ι) : Undecided failed r r := ⟨rfl, fun _ _ h => h⟩

omit [DecidableEq ι] in
theorem undecided_modify {failed : Prop} {c : DeliveryRow ι → Bool} {w : RowWrite ι}
    (h : ∀ r, c r = true → r.deliveryId = k → Undecided failed r (w.set r)) {r' : DeliveryRow ι}
    (hr' : (s.modify c w).get k = some r') : ∃ r, s.get k = some r ∧ Undecided failed r r' := by
  rw [get_modify] at hr'
  obtain ⟨r, hr, rfl⟩ := Option.map_eq_some_iff.1 hr'
  refine ⟨r, hr, ?_⟩
  by_cases hc : c r = true
  · rw [if_pos hc]
    exact h r hc (deliveryId_of_get hr)
  · rw [if_neg hc]
    exact .refl r

omit [DecidableEq ι] in
/-- The store after `enqueue`, from the decision that it makes. -/
def enqueued (k : DeliveryId) (m : Message) (disposition : Disposition) (now : Instant) (s : Outbox ι) :
    EnqueueDecision → Outbox ι
  | .insert => (Outbox.insert k m disposition now s).getD s
  | .refresh => s.refresh k m
  | .approveUpdate prevHash => s.approveUpdate k m prevHash
  | .reopen => s.reopen k m
  | .identicalPending | .alreadySent | .notUpdate | .unhandled => s

omit [DecidableEq ι] in
theorem exec_carryOut (m : Message) (d : Disposition) (c : EnqueueDecision) (s : Outbox ι) :
    (exec (carryOut k m d now c : Job ι Unit) [] s).2.1 = enqueued k m d now s c := by
  cases c with
  | insert =>
    unfold carryOut enqueued Prog.txn
    rw [exec_call_nil]
    cases h : Outbox.insert k m d now s with
    | none => simp [h, exec]
    | some t => simp [h, exec]
  | _ => rfl

omit [DecidableEq ι] in
theorem exec_enqueue (m : Message) (d : Disposition) (now : Option Instant) (s : Outbox ι) :
    ∃ t : Outbox ι, t.rows = s.rows ∧ ∃ time, (exec (enqueue k m d now : Job ι Unit) [] s).2.1 =
      enqueued k m d time t (enqueueDecision m d (s.get k)) := by
  cases now with
  | none => exact ⟨s.consult, rfl, _, exec_carryOut m d _ s.consult⟩
  | some time => exact ⟨s, rfl, time, exec_carryOut m d _ s⟩

omit [DecidableEq ι] in
theorem exec_recoverInFlight (stale : ℤ) (now : Option Instant) (s : Outbox ι) :
    ∃ t : Outbox ι, t.rows = s.rows ∧ ∃ ids, (exec (recoverInFlight stale now : Job ι Unit) [] s).2.1 = t.recover ids := by
  cases now with
  | none => exact ⟨s.consult, rfl, _, rfl⟩
  | some time => exact ⟨s, rfl, _, rfl⟩

omit [DecidableEq ι] in
theorem exec_recordFailure (a : AttemptId ι) (error : String) (retryAfter : Option ℤ) (permanent : Bool) (now : Instant)
    (s : Outbox ι) :
    (exec (recordFailure a k error retryAfter permanent now) [] s).2.1 = s ∨
      ∃ n, (exec (recordFailure a k error retryAfter permanent now) [] s).2.1 =
        s.markFailed k n error retryAfter permanent now := by
  unfold recordFailure Prog.read
  rw [Prog.bind_eq, Prog.bind, exec_call_nil]
  cases hr : (s.get k).map (·.attempts) with
  | none => exact .inl (by simp [hr, exec])
  | some n => exact .inr ⟨n, by simp [hr, exec, Prog.write]⟩

omit [DecidableEq ι] in
theorem undecided_enqueued {failed : Prop} {k' : DeliveryId} {m : Message} {d : Disposition} {c : EnqueueDecision}
    (h : k' = k → c.opens = false) {r' : DeliveryRow ι} (hr' : (enqueued k' m d now s c).get k = some r') :
    ∃ r, s.get k = some r ∧ Undecided failed r r' := by
  have hne : c.opens = true → k' ≠ k := fun hc heq => by simp [h heq] at hc
  cases c with
  | insert =>
    unfold enqueued at hr'
    cases hi : Outbox.insert k' m d now s with
    | none =>
      rw [hi, Option.getD_none] at hr'
      exact ⟨r', hr', .refl r'⟩
    | some s' =>
      rw [hi, Option.getD_some, get_insert hi, if_neg (hne rfl), Option.or_none] at hr'
      exact ⟨r', hr', .refl r'⟩
  | refresh => exact undecided_modify (fun r _ _ => ⟨rfl, fun _ _ hheld => hheld⟩) hr'
  | approveUpdate prevHash =>
    exact undecided_modify (fun r hc hk => absurd ((of_decide_eq_true hc).symm.trans hk) (hne rfl)) hr'
  | reopen => exact undecided_modify (fun r hc hk => absurd ((of_decide_eq_true hc).symm.trans hk) (hne rfl)) hr'
  | identicalPending | alreadySent | notUpdate | unhandled => exact ⟨r', hr', .refl r'⟩

end Effects

/-- A failed send of the row is recorded. -/
def Operation.fails (k : DeliveryId) : Operation ι → Prop
  | .markFailed k' .. => k' = k
  | _ => False

section Steps

variable {k : DeliveryId} {s : Outbox ι} {op : Operation ι} {r' : DeliveryRow ι}

theorem undecided_apply (h : op.outcome k s = none) (hr' : (op.apply s).get k = some r') :
    ∃ r, s.get k = some r ∧ Undecided (op.fails k) r r' := by
  cases op with
  | enqueue k' m d now =>
    obtain ⟨t, ht, time, hexec⟩ := exec_enqueue (k := k') m d now s
    rw [Operation.apply, hexec] at hr'
    rw [← get_of_rows ht]
    refine undecided_enqueued (fun heq => ?_) hr'
    subst heq
    simpa [Operation.outcome] using h
  | judge cfg row now =>
    have hne : row.deliveryId ≠ k := fun heq => by simp [Operation.outcome, heq] at h
    obtain ⟨t, ht, -, hexec⟩ := exec_expireRowIfStale cfg row now none s
    rw [Operation.apply, hexec, get_carriedOut_of_ne _ hne, get_of_rows ht] at hr'
    exact ⟨r', hr', .refl r'⟩
  | recoverInFlight stale now =>
    obtain ⟨t, ht, ids, hexec⟩ := exec_recoverInFlight stale now s
    rw [Operation.apply, hexec, Outbox.recover] at hr'
    rw [← get_of_rows ht]
    exact undecided_modify (fun r _ _ => ⟨rfl, fun _ t _ hst => by simp [recoverWrite] at hst⟩) hr'
  | claimForSend k' a now =>
    refine undecided_modify (fun r hc _ => ⟨rfl, fun _ t hheld _ => hheld (.inl ?_)⟩) hr'
    simp only [claimable, Bool.and_eq_true, decide_eq_true_eq] at hc
    exact hc.1.2
  | claimDigestBatch ids a now =>
    refine undecided_modify (fun r hc _ => ⟨rfl, fun _ t hheld _ => hheld (.inl ?_)⟩) hr'
    simp only [Bool.and_eq_true, decide_eq_true_eq] at hc
    exact hc.2
  | releaseClaim k' a =>
    refine undecided_modify (fun r hc _ => ⟨rfl, fun _ t hheld _ => hheld (.inr ?_)⟩) hr'
    simp only [Bool.and_eq_true, decide_eq_true_eq] at hc
    exact hc.1.2
  | markSent k' messageId now => exact undecided_modify (fun r _ _ => ⟨rfl, fun _ t _ hst => by simp [sentWrite] at hst⟩) hr'
  | markDigestSent ids a messageId now =>
    exact undecided_modify (fun r _ _ => ⟨rfl, fun _ t _ hst => by simp [digestSentWrite] at hst⟩) hr'
  | markAmbiguous k' detail =>
    exact undecided_modify (fun r _ _ => ⟨rfl, fun _ t _ hst => by simp [ambiguousWrite] at hst⟩) hr'
  | markFailed k' a error retryAfter permanent now =>
    rcases exec_recordFailure (k := k') a error retryAfter permanent now s with hexec | ⟨n, hexec⟩
    · rw [Operation.apply, hexec] at hr'
      exact ⟨r', hr', .refl r'⟩
    · rw [Operation.apply, hexec, markFailed] at hr'
      refine undecided_modify (fun r hc hk => ⟨?_, fun hnot => absurd ?_ hnot⟩) hr'
      · split <;> rfl
      · exact (of_decide_eq_true hc).symm.trans hk

omit [DecidableEq ι] in
theorem none_of_enqueueDecision {m : Message} {d : Disposition} {found : Option (DeliveryRow ι)}
    (h : enqueueDecision m d found = .insert) : found = none := by
  cases found with
  | none => rfl
  | some r =>
    simp only [enqueueDecision] at h
    repeat' split at h
    all_goals cases h

theorem opened_apply (h : op.outcome k s = some .opened) (hr' : (op.apply s).get k = some r') : r'.deferCount = 0 := by
  cases op with
  | enqueue k' m d now =>
    simp only [Operation.outcome, Option.ite_none_right_eq_some, and_true] at h
    obtain ⟨rfl, hopens⟩ := h
    obtain ⟨t, ht, time, hexec⟩ := exec_enqueue (k := k') m d now s
    rw [Operation.apply, hexec] at hr'
    cases hc : enqueueDecision m d (s.get k') with
    | insert =>
      rw [hc] at hr'
      have hnone := none_of_enqueueDecision hc
      rw [← get_of_rows ht] at hnone
      unfold enqueued at hr'
      cases hi : Outbox.insert k' m d time t with
      | none =>
        rw [hi, Option.getD_none, hnone] at hr'
        cases hr'
      | some t' =>
        rw [hi, Option.getD_some, get_insert hi, hnone, Option.none_or, if_pos rfl] at hr'
        obtain rfl := Option.some.inj hr'
        rfl
    | approveUpdate prevHash =>
      rw [hc] at hr'
      obtain ⟨r, -, rfl⟩ := Option.map_eq_some_iff.1 (get_modify_self.symm.trans hr')
      rfl
    | reopen =>
      rw [hc] at hr'
      obtain ⟨r, -, rfl⟩ := Option.map_eq_some_iff.1 (get_modify_self.symm.trans hr')
      rfl
    | refresh | identicalPending | alreadySent | notUpdate | unhandled => simp [hc, EnqueueDecision.opens] at hopens
  | judge cfg row now => simp [Operation.outcome] at h
  | _ => cases h

/-- What a verdict does to the row itself. -/
def decided (now : Instant) (r : DeliveryRow ι) : Freshness → DeliveryRow ι
  | .ok => r
  | .expired reason => (retireWrite .expired reason).set r
  | .unqualified reason => (retireWrite .suppressed reason).set r
  | .defer => (deferWrite (now + deferBackoffSeconds (r.deferCount + 1)) (r.deferCount + 1)).set r

theorem get_judge {cfg : DrainConfig} {row : DeliveryRow ι} {now : Instant} :
    ((Operation.judge cfg row now).apply s).get row.deliveryId =
      (s.get row.deliveryId).map (decided now · (judgement cfg row now s)) := by
  obtain ⟨t, ht, -, hexec⟩ := exec_expireRowIfStale cfg row now none s
  rw [Operation.apply, hexec, ← get_of_rows ht]
  cases judgement cfg row now s with
  | ok => exact Option.map_id'.symm
  | expired reason => exact get_modify_self
  | unqualified reason => exact get_modify_self
  | defer =>
    rw [carriedOut, Outbox.defer, get_modify_self]
    cases t.get row.deliveryId with
    | none => rw [Option.map_none, Option.map_none]
    | some r => rw [Option.map_some, Option.map_some, Option.elim_some, decided]

omit [DecidableEq ι] in
theorem outcome_judged {v : Freshness} (h : op.outcome k s = some (.judged v)) :
    ∃ cfg row now, op = .judge cfg row now ∧ row.deliveryId = k ∧ judgement cfg row now s = v := by
  cases op with
  | judge cfg row now =>
    simp only [Operation.outcome, Option.ite_none_right_eq_some, Option.some.injEq, RowOutcome.judged.injEq] at h
    exact ⟨cfg, row, now, rfl, h.1, h.2⟩
  | enqueue k' m d now => simp [Operation.outcome] at h
  | _ => cases h

/-- A sweep judges its rows one after the other. -/
theorem run_sweep (cfg : DrainConfig) (now : Instant) (h : cfg.enforceAgeCutoff = true) :
    (exec (expireStale cfg now) [] s).2.1 =
      (staleCandidates cfg.expireScanLimit s).foldl (fun t row => (Operation.judge cfg row now).apply t) s := by
  unfold expireStale
  rw [if_pos h]
  show (exec (Prog.forEach (staleCandidates cfg.expireScanLimit s) _) [] s).2.1 = _
  generalize staleCandidates cfg.expireScanLimit s = rows
  induction rows generalizing s with
  | nil => rfl
  | cons row rows ih =>
    obtain ⟨t, -, -, hexec⟩ := exec_expireRowIfStale cfg row now none s
    have hbody : (exec ((expireRowIfStale cfg none row now).bind fun _ => .ret ()) [] s).2 =
        ((Operation.judge cfg row now).apply s, .done ()) := by
      rw [exec_bind_nil hexec, Operation.apply, hexec]
      rfl
    rw [Prog.forEach, exec_bind_nil hbody, ih]
    rfl

end Steps

/-! ## The counter -/

namespace RowOutcome

def deferred (o : RowOutcome) : Bool := o = .judged .defer

/-- The row stays as open as it was. -/
def ongoing : RowOutcome → Bool
  | .judged .ok | .judged .defer => true
  | _ => false

theorem ongoing_of_deferred {o : RowOutcome} (h : o.deferred = true) : o.ongoing = true := by
  obtain rfl := of_decide_eq_true h
  rfl

end RowOutcome

/-- The `DEFER`s since the last outcome that was another one. -/
def consecutiveDefers (os : List RowOutcome) : ℕ := (os.rtakeWhile (·.deferred)).length

/-- What became of the row since it was opened, or last found expired or unqualified. -/
def sinceReset (os : List RowOutcome) : List RowOutcome := os.rtakeWhile (·.ongoing)

section Counter

variable {k : DeliveryId} {os : List RowOutcome} {s s' : Outbox ι} {r r' : DeliveryRow ι}

/-- The counter counts the `DEFER`s since the last reset. -/
theorem deferCount_of_past (h : Past k os s) (hr : s.get k = some r) :
    r.deferCount = (sinceReset os).countP (·.deferred) := by
  induction h generalizing r with
  | start env => cases hr
  | @step os s op hpast ih =>
    cases ho : op.outcome k s with
    | none =>
      obtain ⟨q, hq, hkept⟩ := undecided_apply ho hr
      rw [hkept.deferCount, ih hq, Option.toList_none, List.append_nil]
    | some o =>
      rw [Option.toList_some, sinceReset]
      cases o with
      | opened =>
        rw [List.rtakeWhile_concat_neg _ _ _ (by simp [RowOutcome.ongoing]), opened_apply ho hr]
        rfl
      | judged v =>
        obtain ⟨cfg, row, now, rfl, rfl, hv⟩ := outcome_judged ho
        rw [get_judge, hv] at hr
        obtain ⟨q, hq, rfl⟩ := Option.map_eq_some_iff.1 hr
        have hcount := ih hq
        cases v with
        | ok =>
          rw [List.rtakeWhile_concat_pos _ _ _ rfl, List.countP_append]
          exact hcount
        | expired reason | unqualified reason =>
          rw [List.rtakeWhile_concat_neg _ _ _ (by simp [RowOutcome.ongoing])]
          rfl
        | defer =>
          rw [List.rtakeWhile_concat_pos _ _ _ rfl, List.countP_append]
          show q.deferCount + 1 = _
          rw [hcount]
          rfl

/-- The consecutive `DEFER`s are at the end of what became of the row since the last reset. -/
theorem consecutiveDefers_sinceReset : consecutiveDefers (sinceReset os) = consecutiveDefers os := by
  rw [consecutiveDefers, sinceReset, rtakeWhile_of_imp fun o => RowOutcome.ongoing_of_deferred]
  rfl

end Counter

/-! ## The time of the next attempt -/

/-- On the way from `s` to `t` the row is neither opened nor judged, and no failed send of it is recorded. -/
inductive Calm (k : DeliveryId) (s : Outbox ι) : Outbox ι → Prop
  | refl : Calm k s s
  | step {t : Outbox ι} (op : Operation ι) : Calm k s t → op.outcome k t = none → ¬op.fails k → Calm k s (op.apply t)

/-- A row that is held back until `time` stays out of `pending` until then. -/
theorem Calm.held {k : DeliveryId} {s t : Outbox ι} {time : Instant} (h : Calm k s t)
    (hs : ∀ r, s.get k = some r → r.nextRetryAt = some time) {r : DeliveryRow ι} (hr : t.get k = some r)
    (hst : r.state = .pending ∨ r.state = .inFlight) : r.nextRetryAt = some time := by
  induction h generalizing r with
  | refl => exact hs r hr
  | step op _ ho hf ih =>
    obtain ⟨q, hq, hkept⟩ := undecided_apply ho hr
    exact hkept.held hf time (ih hq) hst

theorem Calm.not_mem_pending {k : DeliveryId} {s t : Outbox ι} {time now : Instant} (h : Calm k s t)
    (hs : ∀ r, s.get k = some r → r.nextRetryAt = some time) (hnow : now < time) {route : Option Route}
    {limit : Option ℕ} {x : DeliveryRow ι} (hx : x ∈ pending route now limit t) : x.deliveryId ≠ k := by
  rintro rfl
  obtain ⟨hmem, hpending, hdue⟩ := mem_pending hx
  rw [isDue, h.held hs (get_of_mem hmem) (.inl hpending), Option.elim_some] at hdue
  exact absurd (of_decide_eq_true hdue) (not_le.2 hnow)

/-! ## The law of the backoff -/

/-- After a `DEFER` at `now` that ends the outcomes `os`: the counter is the number of consecutive ones, the next attempt is
at the time that it gives, and until then `pending` does not select the row. -/
structure DeferLaw (k : DeliveryId) (os : List RowOutcome) (now : Instant) (s : Outbox ι) (r : DeliveryRow ι) : Prop where
  count : r.deferCount = consecutiveDefers os
  nextRetry : r.nextRetryAt = some (now + min 3600 (30 * 2 ^ (r.deferCount - 1)))
  unselected : ∀ t, Calm k s t → ∀ time < now + min 3600 (30 * 2 ^ (r.deferCount - 1)), ∀ route limit,
    ∀ x ∈ pending route time limit t, x.deliveryId ≠ k

/-- After every `DEFER` of every row in every run: the law holds, exactly when no `OK` has come after a `DEFER` since the row
was opened, or last found expired or unqualified. -/
theorem defer_count_consecutive_iff {os : List RowOutcome} {s : Outbox ι} {cfg : DrainConfig} {row r : DeliveryRow ι}
    {now : Instant} (h : Past row.deliveryId os s)
    (hr : ((Operation.judge cfg row now).apply s).get row.deliveryId = some r)
    (hdefer : judgement cfg row now s = .defer) :
    DeferLaw row.deliveryId (os ++ [.judged .defer]) now ((Operation.judge cfg row now).apply s) r ↔
      Settled (·.deferred) (sinceReset os) := by
  have hafter : Past row.deliveryId (os ++ [.judged .defer]) ((Operation.judge cfg row now).apply s) := by
    have hstep := h.step (.judge cfg row now)
    rwa [Operation.outcome, if_pos rfl, hdefer] at hstep
  have hcount := deferCount_of_past hafter hr
  have hretry : r.nextRetryAt = some (now + min 3600 (30 * 2 ^ (r.deferCount - 1))) := by
    rw [get_judge, hdefer] at hr
    obtain ⟨q, -, rfl⟩ := Option.map_eq_some_iff.1 hr
    rfl
  have hlaw : DeferLaw row.deliveryId (os ++ [.judged .defer]) now ((Operation.judge cfg row now).apply s) r ↔
      consecutiveDefers (os ++ [.judged .defer]) = (sinceReset (os ++ [.judged .defer])).countP (·.deferred) := by
    constructor
    · intro hl
      rw [← hl.count, hcount]
    · intro he
      refine ⟨hcount.trans he.symm, hretry, fun t ht time htime route limit x hx => ?_⟩
      refine ht.not_mem_pending (fun q hq => ?_) htime hx
      rw [hr] at hq
      obtain rfl := Option.some.inj hq
      exact hretry
  have hreset : sinceReset (os ++ [.judged .defer]) = sinceReset os ++ [.judged .defer] :=
    List.rtakeWhile_concat_pos _ _ _ rfl
  rw [hlaw, ← consecutiveDefers_sinceReset, consecutiveDefers, length_rtakeWhile_eq_countP, hreset, settled_concat]
  exact and_iff_left (.inl rfl)

/-! ## Runs on fixed inputs -/

/-- A run of operations. -/
def runOperations (ops : List (Operation ι)) (s : Outbox ι) : Outbox ι := ops.foldl (fun t op => op.apply t) s

/-- What the run does to the row. -/
def outcomesOf (k : DeliveryId) : List (Operation ι) → Outbox ι → List RowOutcome
  | [], _ => []
  | op :: ops, s => (op.outcome k s).toList ++ outcomesOf k ops (op.apply s)

theorem Past.run {k : DeliveryId} {ops : List (Operation ι)} : ∀ {os : List RowOutcome} {s : Outbox ι}, Past k os s →
    Past k (os ++ outcomesOf k ops s) (runOperations ops s) := by
  induction ops with
  | nil =>
    intro os s h
    rw [outcomesOf, List.append_nil]
    exact h
  | cons op ops ih =>
    intro os s h
    rw [outcomesOf, ← List.append_assoc]
    exact ih (h.step op)

theorem past_runOperations (k : DeliveryId) (ops : List (Operation ι)) (env : Environment) :
    Past k (outcomesOf k ops (.empty env)) (runOperations ops (.empty env)) := (Past.start env).run

/-- The second lookup finds the publication time. -/
def flakyLookup : Environment where
  clock _ := 0
  evidence n _ := if n = 1 then .found 0 true else .failed
  answer _ := .cancelled

def deferredCard : Message where
  eventId := "e"
  symbol := "ACME"
  band := none
  route := .immediate
  text := "t"
  contentHash := "h"
  evidenceUrls := []

def deferGate : DrainConfig := ⟨.enabled, true, none, none, true, cardMaxAgeSeconds, true, 90, none, false⟩

/-- The row is deferred at `0`. -/
theorem defer_count_consecutive_sample :
    let s : Outbox ℕ := runOperations [.enqueue "d" deferredCard .new (some 0)] (.empty flakyLookup)
    let row : DeliveryRow ℕ := newRow "d" deferredCard .new 0
    ∃ r, ((Operation.judge deferGate row 0).apply s).get "d" = some r ∧
      DeferLaw "d" ([.opened] ++ [.judged .defer]) 0 ((Operation.judge deferGate row 0).apply s) r := by
  intro s row
  have hpast := past_runOperations "d" [(.enqueue "d" deferredCard .new (some 0) : Operation ℕ)] flakyLookup
  have hsome : (((Operation.judge deferGate row 0).apply s).get "d").isSome = true := by decide +kernel
  obtain ⟨r, hr⟩ := Option.isSome_iff_exists.1 hsome
  exact ⟨r, hr, (defer_count_consecutive_iff hpast hr (by decide +kernel)).2 List.Pairwise.nil⟩

/-- The row is deferred, found fresh, claimed and rejected by the transport: its next `DEFER` is counted as the second. -/
theorem defer_count_not_consecutive :
    ∃ (os : List RowOutcome) (s : Outbox ℕ) (r : DeliveryRow ℕ), Past "d" os s ∧
      judgement deferGate (newRow "d" deferredCard .new 0) 200 s = .defer ∧
      ((Operation.judge deferGate (newRow "d" deferredCard .new 0) 200).apply s).get "d" = some r ∧
      ¬DeferLaw "d" (os ++ [.judged .defer]) 200 ((Operation.judge deferGate (newRow "d" deferredCard .new 0) 200).apply s) r := by
  let row : DeliveryRow ℕ := newRow "d" deferredCard .new 0
  let ops : List (Operation ℕ) := [.enqueue "d" deferredCard .new (some 0), .judge deferGate row 0, .judge deferGate row 100,
    .claimForSend "d" ⟨0, 0⟩ 100, .markFailed "d" ⟨0, 0⟩ "rejected" (some 4) false 100]
  have hcount : (((Operation.judge deferGate row 200).apply (runOperations ops (.empty flakyLookup))).get "d").map
      (·.deferCount) = some 2 := by
    decide +kernel
  obtain ⟨r, hr, htwo⟩ := Option.map_eq_some_iff.1 hcount
  refine ⟨outcomesOf "d" ops (.empty flakyLookup), runOperations ops (.empty flakyLookup), r, past_runOperations .., ?_, hr, ?_⟩
  · decide +kernel
  · intro hl
    have hone : consecutiveDefers (outcomesOf "d" ops (.empty flakyLookup) ++ [.judged .defer]) = 1 := by decide +kernel
    rw [hl.count, hone] at htwo
    cases htwo

end TalonX.Delivery
