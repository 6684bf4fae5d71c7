import TalonX.Notify.DeliveryLife
import TalonX.Notify.OpsDelivery
import TalonX.Transact.Sorting

/-!
# The two drains in step

`drain` and `deliver_outbox` are separate loops over separate stores.

- `rows_drain`: a run of `drain` changes the due rows of its destination, and no others;
- `Mirrors`: a row of each store with the same state, attempts, next attempt and sent flag;
- `SameOutcome`: what the two transports do in one call;
- `mirrors_after`: one row in both loops; `drain_mirrors`: the loops, and the disabled destination.
-/

set_option autoImplicit false

namespace TalonX.Notify

open Transact Clock

/-! ## What a run of the operations worker does -/

namespace OpsRun

/-- What a run makes of a row that is due. -/
def after (o : OpsRun) (maxAttempts : ℤ) (q : OpsRow) : OpsRow :=
  q.update (o.clock q.eventId) (o.visit maxAttempts q)

/-- The rows that a run is about. -/
def covers (o : OpsRun) (q : OpsRow) : Bool := q.note.destination = o.destination && q.due o.nowIso

end OpsRun

namespace OpsBox

variable {box : OpsBox} {o : OpsRun} {maxAttempts : ℤ} {q : OpsRow}

theorem mem_outboxDue {nowIso : String} {destination : Destination} :
    q ∈ box.outboxDue nowIso destination ↔
      q ∈ box.outbox.rows ∧ q.note.destination = destination ∧ q.due nowIso = true := by
  rw [outboxDue, List.mem_insertionSort, List.mem_filter, List.mem_filter, decide_eq_true_eq, and_assoc]

theorem nodup_outboxDue (box : OpsBox) (nowIso : String) (destination : Destination) :
    ((box.outboxDue nowIso destination).map OpsRow.eventId).Nodup := by
  rw [outboxDue, ((List.perm_insertionSort _ _).map OpsRow.eventId).nodup_iff]
  exact ((List.filter_sublist.trans List.filter_sublist).map _).nodup box.outbox.unique

/-- One turn of the loop changes the row it is about. -/
theorem rows_deliver (o : OpsRun) (maxAttempts : ℤ) (hq : q ∈ box.outbox.rows) :
    (deliver o maxAttempts box q).outbox.rows =
      box.outbox.rows.map fun p => if p.eventId = q.eventId then o.after maxAttempts p else p := by
  refine List.map_congr_left fun p hp => ?_
  by_cases he : p.eventId = q.eventId
  · rw [box.outbox.eq_of_key hp hq he]
    simp [OpsRun.after]
  · rw [if_neg he, if_neg (by simpa using he)]

/-- The loop changes the rows it is about; the events of a run are different. -/
theorem rows_foldl_deliver (o : OpsRun) (maxAttempts : ℤ) (todo : List OpsRow) (box : OpsBox)
    (hn : (todo.map OpsRow.eventId).Nodup) (hsub : ∀ p ∈ todo, p ∈ box.outbox.rows) :
    (todo.foldl (deliver o maxAttempts) box).outbox.rows =
      box.outbox.rows.map fun p => if p.eventId ∈ todo.map OpsRow.eventId then o.after maxAttempts p else p := by
  induction todo generalizing box with
  | nil => simp
  | cons q todo ih =>
    obtain ⟨hnot, hn⟩ := List.nodup_cons.1 hn
    have hrows := rows_deliver o maxAttempts (hsub q List.mem_cons_self)
    -- the other rows of the loop are as they were
    have hrest : ∀ p ∈ todo, p ∈ (deliver o maxAttempts box q).outbox.rows := fun p hp => by
      rw [hrows]
      refine List.mem_map.2 ⟨p, hsub p (List.mem_cons_of_mem _ hp), if_neg fun he => ?_⟩
      exact hnot (he ▸ List.mem_map_of_mem hp)
    rw [List.foldl_cons, ih _ hn hrest, hrows, List.map_map]
    refine List.map_congr_left fun p _ => ?_
    have hid : (if p.eventId = q.eventId then o.after maxAttempts p else p).eventId = p.eventId := by split <;> rfl
    simp only [Function.comp_apply, hid, List.map_cons, List.mem_cons]
    by_cases he : p.eventId = q.eventId
    · simp [he, hnot]
    · simp [he]

theorem rows_drain (box : OpsBox) (henabled : o.enabled = true) (maxAttempts : ℤ) :
    (box.drain maxAttempts o).outbox.rows =
      box.outbox.rows.map fun q => if o.covers q then o.after maxAttempts q else q := by
  rw [drain, if_pos henabled, rows_foldl_deliver o maxAttempts _ box (box.nodup_outboxDue _ _)
    fun q hq => (mem_outboxDue.1 hq).1]
  refine List.map_congr_left fun q hq => ?_
  have hiff : q.eventId ∈ (box.outboxDue o.nowIso o.destination).map OpsRow.eventId ↔ o.covers q = true := by
    rw [OpsRun.covers, Bool.and_eq_true, decide_eq_true_eq]
    refine ⟨fun hmem => ?_, fun h => List.mem_map_of_mem (mem_outboxDue.2 ⟨hq, h⟩)⟩
    obtain ⟨p, hp, he⟩ := List.mem_map.1 hmem
    obtain ⟨hmem', hcovered⟩ := mem_outboxDue.1 hp
    rwa [← box.outbox.eq_of_key hmem' hq he]
  simp only [hiff]

/-- A disabled run. -/
theorem drain_disabled (henabled : o.enabled = false) : box.drain maxAttempts o = box := by
  rw [drain, if_neg (by simp [henabled])]

theorem foldl_drain_disabled {runs : List OpsRun} (h : ∀ o ∈ runs, o.enabled = false) :
    runs.foldl (drain maxAttempts) box = box := by
  induction runs with
  | nil => rfl
  | cons o runs ih =>
    rw [List.foldl_cons, drain_disabled (h o List.mem_cons_self)]
    exact ih fun o' ho' => h o' (List.mem_cons_of_mem _ ho')

/-- Rows of other destinations. -/
theorem filter_others_drain (box : OpsBox) (o : OpsRun) (maxAttempts : ℤ) :
    (box.drain maxAttempts o).outbox.rows.filter (·.note.destination ≠ o.destination) =
      box.outbox.rows.filter (·.note.destination ≠ o.destination) := by
  cases henabled : o.enabled with
  | false => rw [drain_disabled henabled]
  | true =>
    rw [rows_drain box henabled, List.filter_map]
    have hsame : (fun q : OpsRow => decide (q.note.destination ≠ o.destination)) ∘
        (fun q => if o.covers q then o.after maxAttempts q else q) =
          fun q => decide (q.note.destination ≠ o.destination) := by
      funext q
      rw [Function.comp_apply]
      split <;> rfl
    rw [hsame]
    conv_rhs => rw [← List.map_id (box.outbox.rows.filter (·.note.destination ≠ o.destination))]
    refine List.map_congr_left fun q hq => if_neg fun hc => ?_
    rw [OpsRun.covers, Bool.and_eq_true, decide_eq_true_eq] at hc
    simpa [hc.1] using (List.mem_filter.1 hq).2

end OpsBox

/-! ## Rows in step -/

/-- A row of the operations outbox and one of the V2 outbox; `sent` tells which V2 rows have a `sent_at_utc`. -/
structure Mirrors (sent : EventId → Bool) (q : OpsRow) (r : AlertRow) : Prop where
  eventId : q.eventId = r.eventId
  createdAt : q.note.createdAt = r.alert.createdAt
  deliverBy : q.note.deliverBy = r.alert.deliverBy
  state : q.state = r.state
  attempts : q.attempts = r.attempts
  nextAttempt : q.nextAttempt = r.nextAttempt
  sent : q.sentAt.isSome = sent r.eventId

/-- The two transports do the same in a call: they return the same result, or both raise and the exception is not that of
a definite rejection, or one raises that exception and the other returns a permanent failure. -/
inductive SameOutcome : Except SendFailure SendResult → Except String SendResult → Prop
  | result (res : SendResult) : SameOutcome (.ok res) (.ok res)
  | raised (e : SendFailure) (exc : String) (h : e.definite = false) : SameOutcome (.error e) (.error exc)
  | rejected (e : SendFailure) (detail : String) (h : e.definite = true) :
    SameOutcome (.error e) (.ok { permanent := true, detail := some detail })

/-- `sent_at_utc` after a run of `deliver_outbox`, which passes `sent=True` with the state `SENT`. -/
def sentAfter (d : Drain) (maxAttempts : ℤ) (box : AlertBox) (sent : EventId → Bool) (e : EventId) : Bool :=
  sent e || (box.outboxDue d.nowIso).any fun r => r.eventId = e && (d.visit maxAttempts r).1.state = .sent

/-- The rows that a run of `deliver_outbox` hands to the transport, in order. -/
def Drain.calls (d : Drain) (maxAttempts : ℤ) (box : AlertBox) : List AlertRow :=
  (box.outboxDue d.nowIso).filter fun r => (d.visit maxAttempts r).2.isSome

section Step

variable {o : OpsRun} {d : Drain} {sent : EventId → Bool} {q : OpsRow} {r : AlertRow} {maxAttempts : ℤ}

/-- Updates that agree on what is compared. -/
def SameUpdate (u : OpsUpdate) (v : RowUpdate) : Prop :=
  u.state = v.state ∧ u.attempts = v.attempts ∧ u.nextAttempt = v.nextAttempt ∧ (u.sent = true ↔ u.state = .sent)

theorem Mirrors.due (h : Mirrors sent q r) (nowIso : String) : q.due nowIso = r.due nowIso := by
  rw [OpsRow.due, AlertRow.due, h.state, h.nextAttempt]

/-- The branches after the transport depend on the flags of the result. -/
theorem sameUpdate_record (hnow : d.now = o.now) (attempts : ℕ) {res res' : SendResult} (hok : res.ok = res'.ok)
    (hamb : res.ambiguous = res'.ambiguous) (hheld : res.held = res'.held) (hperm : res.permanent = res'.permanent) :
    SameUpdate (o.record maxAttempts attempts res) (d.record maxAttempts attempts res') := by
  have hnext : o.nextAttempt attempts = d.nextAttempt attempts := by
    unfold OpsRun.nextAttempt Drain.nextAttempt
    simp only [hnow]
  unfold OpsRun.record Drain.record SameUpdate
  rw [← hok, ← hamb, ← hheld, ← hperm]
  by_cases h1 : res.ok = true
  · simp [h1]
  by_cases h2 : res.ambiguous = true
  · simp [h1, h2]
  by_cases h3 : res.held = true
  · simp [h1, h2, h3]
  by_cases h4 : (res.permanent || decide (maxAttempts ≤ attempts)) = true
  · simp [h1, h2, h3, h4]
  · simp [h1, h2, h3, h4, hnext]

theorem sameUpdate_call {send : OpsRow → Except SendFailure SendResult} (hclient : o.client = .sync send)
    (hnow : d.now = o.now) (attempts : ℕ) (h : SameOutcome (send q) (d.transport r)) :
    SameUpdate (o.record maxAttempts attempts (sendSync o.client q))
      (d.record maxAttempts attempts (caught (d.transport r))) := by
  rw [hclient, sendSync]
  generalize hs : send q = x at h
  generalize ht : d.transport r = y at h
  cases h with
  | result res => exact sameUpdate_record hnow attempts rfl rfl rfl rfl
  | raised e exc he => exact sameUpdate_record hnow attempts rfl rfl rfl he
  | rejected e detail he => exact sameUpdate_record hnow attempts rfl rfl rfl he

theorem Mirrors.deadlinePassed (h : Mirrors sent q r) (hnow : d.now = o.now) :
    o.deadlinePassed q = r.alert.deliverBy.filter fun deadline => deadline ≠ "" && deadline ≤ d.nowIso := by
  rw [OpsRun.deadlinePassed, h.deliverBy, OpsRun.nowIso, Drain.nowIso, hnow]

/-- The router lets everything pass and knows of no delivery. -/
def Drain.Routes (d : Drain) : Prop := ∀ r g, (d.router r g).eligible = true ∧ (d.router r g).alreadyDelivered = false

theorem Drain.visit_open (hroutes : d.Routes)
    (h : (r.alert.deliverBy.filter fun deadline => deadline ≠ "" && deadline ≤ d.nowIso) = none) :
    d.visit maxAttempts r =
      (d.record maxAttempts (r.attempts + 1) (caught (d.transport r)), some (caught (d.transport r))) := by
  obtain ⟨heligible, hdelivered⟩ := hroutes r (d.origin r)
  unfold Drain.visit
  rw [h]
  simp [heligible, hdelivered]

theorem sameUpdate_visit {send : OpsRow → Except SendFailure SendResult} (hclient : o.client = .sync send)
    (hnow : d.now = o.now) (hroutes : d.Routes) (h : Mirrors sent q r)
    (hcall : o.deadlinePassed q = none → SameOutcome (send q) (d.transport r)) :
    SameUpdate (o.visit maxAttempts q) (d.visit maxAttempts r).1 := by
  have hdeadline := h.deadlinePassed hnow
  unfold OpsRun.visit
  cases hp : o.deadlinePassed q with
  | none =>
    rw [Drain.visit_open hroutes (hdeadline ▸ hp), h.attempts]
    exact sameUpdate_call hclient hnow _ (hcall hp)
  | some deadline =>
    unfold Drain.visit
    rw [← hdeadline, hp]
    exact ⟨rfl, rfl, rfl, by simp⟩

theorem isSome_visit (hnow : d.now = o.now) (hroutes : d.Routes) (h : Mirrors sent q r) :
    (o.deadlinePassed q).isNone = (d.visit maxAttempts r).2.isSome := by
  have hdeadline := h.deadlinePassed hnow
  cases hp : o.deadlinePassed q with
  | none =>
    rw [Drain.visit_open hroutes (hdeadline ▸ hp)]
    rfl
  | some deadline =>
    unfold Drain.visit
    rw [← hdeadline, hp]
    rfl

theorem sentAfter_of_mem {box : AlertBox} (hr : r ∈ box.outbox.rows) :
    sentAfter d maxAttempts box sent r.eventId =
      (sent r.eventId || (r.due d.nowIso && (d.visit maxAttempts r).1.state = .sent)) := by
  rw [sentAfter]
  congr 1
  rw [Bool.eq_iff_iff, List.any_eq_true, Bool.and_eq_true, decide_eq_true_eq]
  refine ⟨fun ⟨r', hr', hcond⟩ => ?_, fun ⟨hdue, hstate⟩ => ⟨r, AlertBox.mem_outboxDue.2 ⟨hr, hdue⟩, by simp [hstate]⟩⟩
  rw [Bool.and_eq_true, decide_eq_true_eq, decide_eq_true_eq] at hcond
  obtain ⟨hmem, hdue⟩ := AlertBox.mem_outboxDue.1 hr'
  obtain rfl := box.outbox.eq_of_key hmem hr hcond.1
  exact ⟨hdue, hcond.2⟩

/-- One row in both loops. -/
theorem mirrors_after {box : AlertBox} (hr : r ∈ box.outbox.rows) (hdue : r.due d.nowIso = true)
    (h : Mirrors sent q r) (hu : SameUpdate (o.visit maxAttempts q) (d.visit maxAttempts r).1) :
    Mirrors (sentAfter d maxAttempts box sent) (o.after maxAttempts q) (d.after maxAttempts r) := by
  obtain ⟨hstate, hattempts, hnext, hsent⟩ := hu
  refine ⟨h.eventId, h.createdAt, h.deliverBy, hstate, ?_, hnext, ?_⟩
  · have : (o.after maxAttempts q).attempts = (o.visit maxAttempts q).attempts.getD q.attempts := rfl
    rw [this, hattempts, h.attempts]
    rfl
  · have hid : (d.after maxAttempts r).eventId = r.eventId := rfl
    have hsentAt : (o.after maxAttempts q).sentAt =
        if (o.visit maxAttempts q).sent then some (o.clock q.eventId) else q.sentAt := rfl
    rw [hid, sentAfter_of_mem hr, hdue, Bool.true_and, ← hstate, ← h.sent, hsentAt]
    by_cases hc : (o.visit maxAttempts q).state = .sent
    · rw [if_pos (hsent.2 hc), decide_eq_true hc, Bool.or_true]
      rfl
    · rw [if_neg fun hs => hc (hsent.1 hs), decide_eq_false hc, Bool.or_false]

theorem mirrors_of_not_due {box : AlertBox} (hr : r ∈ box.outbox.rows) (hdue : ¬ r.due d.nowIso = true)
    (h : Mirrors sent q r) : Mirrors (sentAfter d maxAttempts box sent) q r := by
  refine ⟨h.eventId, h.createdAt, h.deliverBy, h.state, h.attempts, h.nextAttempt, ?_⟩
  rw [sentAfter_of_mem hr, Bool.eq_false_iff.2 hdue, Bool.false_and, Bool.or_false, h.sent]

end Step

/-! ## The loops in step -/

section Loops

variable {o : OpsRun} {d : Drain} {sent : EventId → Bool} {ops : OpsBox} {box : AlertBox} {maxAttempts : ℤ}

theorem forall₂_outboxDue (hnow : d.now = o.now)
    (hrows : List.Forall₂ (Mirrors sent) (ops.outbox.rows.filter (·.note.destination = o.destination)) box.outbox.rows) :
    List.Forall₂ (Mirrors sent) (ops.outboxDue o.nowIso o.destination) (box.outboxDue d.nowIso) := by
  refine forall₂_insertionSort (fun q r q' r' h h' => by rw [h.createdAt, h'.createdAt]) ?_
  refine List.rel_filter (fun q r h => ?_) hrows
  have hdue : q.due o.nowIso = r.due d.nowIso := by rw [h.due, OpsRun.nowIso, Drain.nowIso, hnow]
  exact iff_of_eq (congrArg (· = true) hdue)

theorem forall₂_calls (hnow : d.now = o.now) (hroutes : d.Routes)
    (hrows : List.Forall₂ (Mirrors sent) (ops.outbox.rows.filter (·.note.destination = o.destination)) box.outbox.rows) :
    List.Forall₂ (Mirrors sent) (ops.calls o) (d.calls maxAttempts box) := by
  refine List.rel_filter (fun q r h => ?_) (forall₂_outboxDue hnow hrows)
  exact iff_of_eq (congrArg (· = true) (isSome_visit hnow hroutes h))

/-- What the n-th calls have in common holds of the rows of one event. -/
theorem sameOutcome_of_calls {send : OpsRow → Except SendFailure SendResult} (hnow : d.now = o.now)
    (hroutes : d.Routes)
    (hrows : List.Forall₂ (Mirrors sent) (ops.outbox.rows.filter (·.note.destination = o.destination)) box.outbox.rows)
    (hcalls : ∀ (n : ℕ) q r, (ops.calls o)[n]? = some q → (d.calls maxAttempts box)[n]? = some r →
      SameOutcome (send q) (d.transport r))
    {q : OpsRow} {r : AlertRow} (hq : q ∈ ops.calls o) (hr : r ∈ box.outbox.rows) (h : Mirrors sent q r) :
    SameOutcome (send q) (d.transport r) := by
  have hpairs : List.Forall₂ (Mirrors sent) (ops.calls o) (d.calls maxAttempts box) :=
    forall₂_calls hnow hroutes hrows
  obtain ⟨n, hn, rfl⟩ := List.mem_iff_getElem.1 hq
  have hn' : n < (d.calls maxAttempts box).length := hpairs.length_eq ▸ hn
  have hpair := hpairs.get hn hn'
  have hmem : (d.calls maxAttempts box)[n] ∈ box.outbox.rows :=
    (AlertBox.mem_outboxDue.1 (List.mem_of_mem_filter (List.getElem_mem hn'))).1
  have heq : (d.calls maxAttempts box)[n] = r :=
    box.outbox.eq_of_key hmem hr (hpair.eventId.symm.trans h.eventId)
  exact hcalls n _ r (List.getElem?_eq_getElem hn) (heq ▸ List.getElem?_eq_getElem hn')

/-- The rows of the destination after both runs. `fresh` are the alerts that others enqueued meanwhile. -/
theorem forall₂_after {send : OpsRow → Except SendFailure SendResult} (henabled : o.enabled = true)
    (hclient : o.client = .sync send) (hnow : d.now = o.now) (hroutes : d.Routes)
    (hrows : List.Forall₂ (Mirrors sent) (ops.outbox.rows.filter (·.note.destination = o.destination)) box.outbox.rows)
    (hcalls : ∀ (n : ℕ) q r, (ops.calls o)[n]? = some q → (d.calls maxAttempts box)[n]? = some r →
      SameOutcome (send q) (d.transport r)) :
    ∃ rows fresh, (box.deliverOutbox d maxAttempts).outbox.rows = rows ++ fresh ∧
      List.Forall₂ (Mirrors (sentAfter d maxAttempts box sent))
        ((ops.drain maxAttempts o).outbox.rows.filter (·.note.destination = o.destination)) rows := by
  obtain ⟨fresh, hbox, -⟩ := AlertBox.rows_deliverOutbox d maxAttempts box
  refine ⟨_, fresh, hbox, ?_⟩
  have hops : (ops.drain maxAttempts o).outbox.rows.filter (·.note.destination = o.destination) =
      (ops.outbox.rows.filter (·.note.destination = o.destination)).map
        fun q => if o.covers q then o.after maxAttempts q else q := by
    rw [OpsBox.rows_drain ops henabled, List.filter_map]
    congr 1
    refine List.filter_congr fun q _ => ?_
    rw [Function.comp_apply]
    split <;> rfl
  rw [hops]
  refine List.forall₂_map_left_iff.2 (List.forall₂_map_right_iff.2 ((forall₂_mem hrows).imp fun q r hpair => ?_))
  obtain ⟨hq, hr, h⟩ := hpair
  obtain ⟨hq, hdest⟩ := List.mem_filter.1 hq
  have hdue : q.due o.nowIso = r.due d.nowIso := by rw [h.due, OpsRun.nowIso, Drain.nowIso, hnow]
  have hcovers : o.covers q = r.due d.nowIso := by rw [OpsRun.covers, hdest, Bool.true_and, hdue]
  rw [hcovers]
  by_cases hd : r.due d.nowIso = true
  · rw [if_pos hd, if_pos hd]
    refine mirrors_after hr hd h (sameUpdate_visit hclient hnow hroutes h fun hopen => ?_)
    refine sameOutcome_of_calls hnow hroutes hrows hcalls (List.mem_filter.2 ⟨?_, by simp [hopen]⟩) hr h
    exact OpsBox.mem_outboxDue.2 ⟨hq, of_decide_eq_true hdest, hdue ▸ hd⟩
  · rw [if_neg hd, if_neg hd]
    exact mirrors_of_not_due hr hd h

/-- A row of an enabled destination that is due before its deadline is handed to the client. -/
theorem mem_calls {q : OpsRow} (hq : q ∈ ops.outbox.rows) (hdest : q.note.destination = o.destination)
    (hdue : q.due o.nowIso = true) (hopen : o.deadlinePassed q = none) : q ∈ ops.calls o :=
  List.mem_filter.2 ⟨OpsBox.mem_outboxDue.2 ⟨hq, hdest, hdue⟩, by simp [hopen]⟩

/-- It is sent when the client says so. -/
theorem sent_of_ok {send : OpsRow → Except SendFailure SendResult} (henabled : o.enabled = true)
    (hclient : o.client = .sync send) {q : OpsRow} (hq : q ∈ ops.outbox.rows)
    (hdest : q.note.destination = o.destination) (hdue : q.due o.nowIso = true) (hopen : o.deadlinePassed q = none)
    {res : SendResult} (hsend : send q = .ok res) (hok : res.ok = true) :
    ∃ q' ∈ (ops.drain maxAttempts o).outbox.rows, q'.eventId = q.eventId ∧ q'.state = .sent ∧
      q'.attempts = q.attempts + 1 ∧ q'.sentAt.isSome = true := by
  have hcovers : o.covers q = true := by rw [OpsRun.covers, decide_eq_true hdest, hdue, Bool.true_and]
  have hvisit : o.visit maxAttempts q =
      { state := .sent, attempts := some (q.attempts + 1), transportRef := some (res.ref.getD ""), sent := true } := by
    rw [OpsRun.visit, hopen, hclient]
    simp only [sendSync, hsend, OpsRun.record, hok, if_true]
  refine ⟨o.after maxAttempts q, ?_, rfl, ?_⟩
  · rw [OpsBox.rows_drain ops henabled]
    exact List.mem_map.2 ⟨q, hq, if_pos hcovers⟩
  · rw [OpsRun.after, hvisit]
    exact ⟨rfl, rfl, rfl⟩

/-- The operations drain leaves every row of an enabled destination as `deliver_outbox` leaves the V2 row, as long as the
n-th calls of the two transports do the same. Rows of other destinations stay, and a disabled destination keeps its rows
until it is enabled. -/
theorem drain_mirrors (ops : OpsBox) (maxAttempts : ℤ) :
    (∀ (o : OpsRun) (send : OpsRow → Except SendFailure SendResult) (d : Drain) (box : AlertBox)
        (sent : EventId → Bool), o.enabled = true → o.client = .sync send → d.now = o.now → d.Routes →
      List.Forall₂ (Mirrors sent) (ops.outbox.rows.filter (·.note.destination = o.destination)) box.outbox.rows →
      (∀ (n : ℕ) q r, (ops.calls o)[n]? = some q → (d.calls maxAttempts box)[n]? = some r →
        SameOutcome (send q) (d.transport r)) →
      ∃ rows fresh, (box.deliverOutbox d maxAttempts).outbox.rows = rows ++ fresh ∧
        List.Forall₂ (Mirrors (sentAfter d maxAttempts box sent))
          ((ops.drain maxAttempts o).outbox.rows.filter (·.note.destination = o.destination)) rows) ∧
    (∀ o : OpsRun, (ops.drain maxAttempts o).outbox.rows.filter (·.note.destination ≠ o.destination) =
      ops.outbox.rows.filter (·.note.destination ≠ o.destination)) ∧
    ∀ runs : List OpsRun, (∀ o ∈ runs, o.enabled = false) →
      runs.foldl (OpsBox.drain maxAttempts) ops = ops ∧
      ∀ (o : OpsRun) (send : OpsRow → Except SendFailure SendResult), o.enabled = true → o.client = .sync send →
        ∀ q ∈ ops.outbox.rows, q.note.destination = o.destination → q.due o.nowIso = true →
          o.deadlinePassed q = none →
          q ∈ (runs.foldl (OpsBox.drain maxAttempts) ops).calls o ∧
          ∀ res : SendResult, send q = .ok res → res.ok = true →
            ∃ q' ∈ ((runs.foldl (OpsBox.drain maxAttempts) ops).drain maxAttempts o).outbox.rows,
              q'.eventId = q.eventId ∧ q'.state = .sent ∧ q'.attempts = q.attempts + 1 ∧ q'.sentAt.isSome = true := by
  refine ⟨fun o send d box sent henabled hclient hnow hroutes hrows hcalls => ?_, fun o => ?_, fun runs hruns => ?_⟩
  · exact forall₂_after henabled hclient hnow hroutes hrows hcalls
  · exact OpsBox.filter_others_drain ops o maxAttempts
  · rw [OpsBox.foldl_drain_disabled hruns]
    refine ⟨rfl, fun o send henabled hclient q hq hdest hdue hopen => ⟨mem_calls hq hdest hdue hopen, ?_⟩⟩
    intro res hsend hok
    exact sent_of_ok henabled hclient hq hdest hdue hopen hsend hok

end Loops

/-! ### A definite rejection -/

def blockedText : String := "Telegram send failed (non-retryable): Forbidden: bot was blocked by the user"

def startupNote : OpsNote where
  eventId := "ops:STARTUP:1"
  destination := .operations
  eventType := "STARTUP"
  producer := "talonx_v2.service"
  dedupKey := "STARTUP:1"
  payloadText := "V2 started"
  provenance := "\x7b\x7d"
  deliverBy := none
  createdAt := "2026-07-28T13:00:00+00:00"

def startupBox : OpsBox := OpsBox.enqueue ⟨Table.empty⟩ startupNote

def startupAlerts : AlertBox := AlertBox.empty.enqueueAlert { AlertBox.fillAlert with eventId := "ops:STARTUP:1" }

def opsRun (send : OpsRow → Except SendFailure SendResult) : OpsRun where
  now := AlertBox.failingDrain.now
  room := AlertBox.failingDrain.room
  destination := .operations
  enabled := true
  client := .sync send
  clock _ := "2026-07-28T13:30:01+00:00"

theorem startup_mirrors : List.Forall₂ (Mirrors fun _ => false)
    (startupBox.outbox.rows.filter (·.note.destination = Destination.operations)) startupAlerts.outbox.rows :=
  List.Forall₂.cons ⟨rfl, rfl, rfl, rfl, rfl, rfl, rfl⟩ List.Forall₂.nil

/-- Both transports raise the exception of a blocked bot: the one row has failed, the other is tried again. -/
theorem blocked_bot_differs :
    List.Forall₂ (Mirrors fun _ => false)
        (startupBox.outbox.rows.filter (·.note.destination = Destination.operations)) startupAlerts.outbox.rows ∧
      (startupBox.drain 5 (opsRun fun _ => .error (.telegram ⟨blockedText, false⟩))).outbox.rows.map (·.state) =
        [.failed] ∧
      (startupAlerts.deliverOutbox { AlertBox.failingDrain with transport := fun _ => .error blockedText }
        5).outbox.rows.map (·.state) = [.retry] :=
  ⟨startup_mirrors, by decide +kernel, by decide +kernel⟩

/-- Both transports time out. -/
theorem drain_mirrors_timeout :
    ∃ rows fresh, (startupAlerts.deliverOutbox AlertBox.failingDrain 5).outbox.rows = rows ++ fresh ∧
      List.Forall₂ (Mirrors (sentAfter AlertBox.failingDrain 5 startupAlerts fun _ => false))
        ((startupBox.drain 5 (opsRun fun _ => .error (.other "TimeoutError()"))).outbox.rows.filter
          (·.note.destination = Destination.operations)) rows :=
  (drain_mirrors startupBox 5).1 (opsRun fun _ => .error (.other "TimeoutError()")) _ AlertBox.failingDrain startupAlerts
    _ rfl rfl rfl (fun _ _ => ⟨rfl, rfl⟩) startup_mirrors
    fun _ _ _ _ _ => SameOutcome.raised _ _ rfl

end TalonX.Notify
