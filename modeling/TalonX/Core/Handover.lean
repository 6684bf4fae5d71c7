import TalonX.Core.Dispatch
import TalonX.Core.Engine
import TalonX.Transact.Protocol

/-!
# The hand-over of alerts

The engine and Dispatch as two processes, with a network that may cut the connection of Dispatch at any time.

- `Starts`: what the processes run; `Attended`: when Redis accepts a publish, Dispatch takes it, and loses nothing on the
  way to its mark;
- `Turn`: the moves of the protocol (`starts_follow`); `Sending`, `Receiving`: the invariant of either side
  (`Turn.keeps`);
- `alerts_handed_over`: under these conditions a `SENT` record stands for an alert that Dispatch has;
- `sent_unheard`: without them.
-/

set_option autoImplicit false

namespace TalonX.Core

open Transact V2

/-! ## The processes -/

inductive Party
  | core
  | dispatch
  | network
  deriving DecidableEq, Repr

inductive Starts {P : Type} : Party → Job Unit → Prop
  | handleMessage (cfg : CoreConfig) (v : Validators P) (m : Message P) : Starts .core (handleMessage cfg v m)
  | flush : Starts .core flush
  | boot : Starts .core boot
  | subscribe : Starts .dispatch (Prog.write .subscribe World.subscribe)
  | handleNext (cfg : DispatchConfig) : Starts .dispatch (handleNext cfg)
  | drop : Starts .network (Prog.write .drop World.drop)

/-! ## The conditions -/

namespace World

def outboxIds (s : World) : List OutboxId := s.alertOutbox.rows.map (·.outboxId)

def sentIds (s : World) : List OutboxId := (s.alertOutbox.rows.filter (·.status = .sent)).map (·.outboxId)

/-- The ids of the alerts that Dispatch has recorded, once for each row. -/
def recordedIds (s : World) : List OutboxId := (s.alerts ++ s.longTermAlerts).filterMap (·.alert.outboxId)

/-- The ids of the messages that wait for Dispatch and that it can read. -/
def waitingIds (s : World) : List OutboxId := s.inbox.filterMap fun p => (validate? p).bind (·.columns.outboxId)

end World

open World

/-- When Redis accepts a message, Dispatch listens and can read it; a connection is cut only when no accepted alert waits
in it unrecorded; the next alert was not recorded without being marked. -/
def Attends (s : World) : Label → Prop
  | .publish payload =>
    s.env.publish s.consulted = .accepted → s.subscribed = true ∧ (validate? payload).isSome = true
  | .drop => ∀ id ∈ s.waitingIds, id ∈ s.accepted → id ∈ s.recordedIds
  | .getMessage => ∀ id ∈ s.nextInHand, id ∉ s.recordedIds
  | _ => True

instance decidableAttends (s : World) : ∀ l, Decidable (Attends s l)
  | .publish payload => inferInstanceAs (Decidable (s.env.publish s.consulted = .accepted →
      s.subscribed = true ∧ (validate? payload).isSome = true))
  | .drop => inferInstanceAs (Decidable (∀ id ∈ s.waitingIds, id ∈ s.accepted → id ∈ s.recordedIds))
  | .getMessage => inferInstanceAs (Decidable (∀ id ∈ s.nextInHand, id ∉ s.recordedIds))
  | .clock | .backoff | .look | .memory .. | .mark .. | .saveRow .. | .saveAlert .. | .recordSuppressed | .boot
  | .loadOutbox | .enqueue .. | .markPublished .. | .saveOutbox .. | .subscribe | .isProcessed .. | .record ..
  | .markProcessed .. | .push .. | .settlePush => .isTrue trivial

/-- Dispatch stops with an accepted alert in hand only when the alert is recorded, or waits once more. -/
def Attended (S : Sys Party Label World) : Move Party Label → Prop
  | .commit _ l => Attends S.store l
  | .stop .dispatch =>
    ∀ id ∈ S.store.inHand, id ∈ S.store.accepted → id ∈ S.store.recordedIds ∨ id ∈ S.store.waitingIds
  | _ => True

instance decidableAttended (S : Sys Party Label World) : ∀ m, Decidable (Attended S m)
  | .commit _ l => decidableAttends S.store l
  | .stop .dispatch => inferInstanceAs (Decidable (∀ id ∈ S.store.inHand, id ∈ S.store.accepted →
      id ∈ S.store.recordedIds ∨ id ∈ S.store.waitingIds))
  | .stop .core | .stop .network | .start _ | .fault _ _ => .isTrue trivial

/-! ## The protocol -/

namespace World

/-- The call has nothing to do with the hand-over. -/
structure Aside (s s' : World) : Prop where
  alertOutbox : s'.alertOutbox = s.alertOutbox
  inbox : s'.inbox = s.inbox
  recorded : s'.recordedIds = s.recordedIds
  processed : s'.processed = s.processed
  dispatched : s'.dispatched = s.dispatched
  accepted : s'.accepted = s.accepted
  received : s'.received = s.received
  pushes : s'.pushes = s.pushes
  inHand : s'.inHand = s.inHand

theorem Aside.refl (s : World) : s.Aside s := ⟨rfl, rfl, rfl, rfl, rfl, rfl, rfl, rfl, rfl⟩

end World

/-- How far Dispatch is with its alert. -/
inductive Stage
  | idle
  | taken (a : ReceivedAlert)
  | fresh (a : ReceivedAlert)
  | recorded (a : ReceivedAlert)
  | marked (id : Option OutboxId)

/-- `known`: the ids that the engine has seen accepted; `loaded`: the ids of the records that a flush works on. -/
structure Phase where
  known : List OutboxId
  loaded : Option (List OutboxId)
  stage : Stage

def Phase.idle : Phase := ⟨[], none, .idle⟩

inductive Turn : Party → Phase → Label → World → World → Phase → Prop
  | aside {i p l s s'} (h : Aside s s') : Turn i p l s s' p
  | load {p s} : Turn .core p .loadOutbox s s { p with known := p.known ++ s.sentIds, loaded := some s.outboxIds }
  | enqueue {p s a payload h now} (hp : p.loaded = none) :
      Turn .core p (.enqueue a) s
        { s.enqueue (makeOutboxId a) payload h now with dispatched := s.dispatched ++ [a] } p
  | publish {p s payload} :
      Turn .core p (.publish payload) s (s.publish payload)
        { p with known := p.known ++ if s.env.publish s.consulted = .accepted then payload.outboxId.toList else [] }
  | markPublished {p s id now} (hp : p.loaded = none) (hid : id ∈ p.known) :
      Turn .core p (.markPublished id) s (s.markPublished id now) p
  | save {p s} {records : Table OutboxRecord.outboxId} (hids : p.loaded = some (records.rows.map (·.outboxId)))
      (hsent : ∀ r ∈ records.rows, r.status = .sent → r.outboxId ∈ p.known) :
      Turn .core p (.saveOutbox records) s { s with alertOutbox := records } { p with loaded := none }
  | drop {p s} : Turn .network p .drop s s.drop p
  | getMessage {p s} (hp : p.stage = .idle) :
      Turn .dispatch p .getMessage s s.getMessage
        { p with stage := (s.inbox.head?.bind validate?).elim .idle .taken }
  | isProcessed {p s a} (hp : p.stage = .taken a) :
      Turn .dispatch p (.isProcessed a.columns.outboxId) s s
        { p with stage := if s.alreadyProcessed a.columns.outboxId then .idle else .fresh a }
  | record {p s a now} (hp : p.stage = .fresh a) :
      Turn .dispatch p (.record a.columns) s (s.recordAlert a.columns now) { p with stage := .recorded a }
  | markProcessed {p s a} (hp : p.stage = .recorded a) :
      Turn .dispatch p (.markProcessed a.columns.outboxId) s (s.markProcessed a.columns.outboxId)
        { p with stage := .marked a.columns.outboxId }
  | push {p s id} (hp : p.stage = .marked id) :
      Turn .dispatch p (.push id) s (s.push id) { p with stage := .idle }

/-! ## The programs follow the protocol -/

section Rules

variable {i : Party} {p : Phase} {α : Type} {Q : α → Phase → Prop}

theorem follows_aside {l : Label} {post : World → World} {g : World → α} (hpost : ∀ s, Aside s (post s))
    (hQ : ∀ a, Q a p) : Follows (Turn i) p (.call l post (fun s => .ret (g s)) .raise : Job α) Q :=
  ⟨fun s => ⟨p, .aside (hpost s), hQ (g s)⟩, trivial⟩

theorem follows_readClock {Q : Instant → Phase → Prop} (hQ : ∀ a, Q a p) : Follows (Turn i) p readClock Q :=
  follows_aside (fun _ => ⟨rfl, rfl, rfl, rfl, rfl, rfl, rfl, rfl, rfl⟩) hQ

theorem follows_writeAside {l : Label} {post : World → World} {Q : Unit → Phase → Prop} (hpost : ∀ s, Aside s (post s))
    (hQ : Q () p) : Follows (Turn i) p (Prog.write l post) Q := follows_aside hpost fun _ => hQ

theorem follows_recordSuppressed {ticker : String} {reason : SuppressionReason} {horizon : Horizon}
    {Q : Unit → Phase → Prop} (hQ : Q () p) : Follows (Turn i) p (recordSuppressed ticker reason horizon) Q :=
  follows_bind (follows_readClock fun _ => follows_writeAside (fun _ => ⟨rfl, rfl, rfl, rfl, rfl, rfl, rfl, rfl, rfl⟩) hQ)

/-! ### The engine -/

theorem follows_rawPublish {payload : Payload} {Q : Bool → Phase → Prop}
    (hQ : ∀ ok known, (∀ id ∈ p.known, id ∈ known) → (ok = true → ∀ id ∈ payload.outboxId, id ∈ known) →
      Q ok { p with known := known }) : Follows (Turn .core) p (rawPublish payload) Q := by
  refine ⟨fun s => ⟨_, .publish, hQ _ _ (fun id hid => List.mem_append_left _ hid) fun hok id hid => ?_⟩, trivial⟩
  rw [if_pos (of_decide_eq_true hok)]
  exact List.mem_append_right _ (by simpa using hid)

/-- An alert is handed to the outbox outside a flush. -/
theorem follows_deliverAlert {a : Alert} {Q : Bool → Phase → Prop} (hp : p.loaded = none)
    (hQ : ∀ ok q, q.loaded = none → Q ok q) : Follows (Turn .core) p (deliverAlert a) Q := by
  refine follows_bind (follows_readClock fun now => follows_bind (follows_write (fun s => .enqueue hp) ?_))
  refine follows_bind (follows_rawPublish fun ok known _ hknown => ?_)
  cases ok with
  | false => exact hQ false _ hp
  | true =>
    refine follows_bind (follows_bind (follows_readClock fun now' => follows_write (fun s => .markPublished hp ?_) ?_))
    · exact hknown rfl _ (outboxId_payload a (makeOutboxId a))
    · exact hQ true _ hp

theorem follows_dispatchAlert {ticker : String} {a : ActionableAlert PyFloat} (hp : p.loaded = none) :
    Follows (Turn .core) p (dispatchAlert ticker a) fun _ _ => True :=
  follows_bind (follows_deliverAlert hp fun _ _ _ => follows_bind (follows_writeAside
    (fun _ => ⟨rfl, rfl, rfl, rfl, rfl, rfl, rfl, rfl, rfl⟩) (follows_writeAside
      (fun _ => ⟨rfl, rfl, rfl, rfl, rfl, rfl, rfl, rfl, rfl⟩) trivial)))

theorem follows_dispatchLongTermAlert {ticker : String} {a : LongTermActionableAlert PyFloat} (hp : p.loaded = none) :
    Follows (Turn .core) p (dispatchLongTermAlert ticker a) fun _ _ => True :=
  follows_bind (follows_deliverAlert hp fun _ _ _ => follows_bind (follows_writeAside
    (fun _ => ⟨rfl, rfl, rfl, rfl, rfl, rfl, rfl, rfl, rfl⟩) (follows_writeAside
      (fun _ => ⟨rfl, rfl, rfl, rfl, rfl, rfl, rfl, rfl, rfl⟩) trivial)))

theorem follows_correlate {cfg : CoreConfig} {ticker : String} (hp : p.loaded = none) :
    Follows (Turn .core) p (correlate cfg ticker) fun _ _ => True := by
  refine follows_bind (follows_readClock fun now => follows_bind (follows_readClock fun at' => ?_))
  refine follows_bind (follows_aside Aside.refl fun evaluation => ?_)
  cases evaluation with
  | alert a => exact follows_dispatchAlert hp
  | suppressed reason => exact follows_recordSuppressed trivial
  | zeroDivision => exact follows_raise

theorem follows_correlateLongTerm {cfg : CoreConfig} {ticker : String} (hp : p.loaded = none) :
    Follows (Turn .core) p (correlateLongTerm cfg ticker) fun _ _ => True := by
  refine follows_bind (follows_readClock fun now => follows_bind (follows_readClock fun at' => ?_))
  refine follows_bind (follows_aside Aside.refl fun evaluation => ?_)
  cases evaluation with
  | alert a => exact follows_dispatchLongTermAlert hp
  | suppressed reason => exact follows_recordSuppressed trivial
  | zeroDivision => exact follows_raise

theorem follows_receive {cfg : CoreConfig} {ticker : String} {f : Instant → TickerState → TickerState}
    {w : Instant → ColumnWrite TickerRow TickerRow.ticker} (hp : p.loaded = none) :
    Follows (Turn .core) p (receive cfg ticker f w) fun _ _ => True :=
  follows_bind (follows_readClock fun _ => follows_bind (follows_writeAside
    (fun _ => ⟨rfl, rfl, rfl, rfl, rfl, rfl, rfl, rfl, rfl⟩) (follows_bind (follows_writeAside
      (fun _ => ⟨rfl, rfl, rfl, rfl, rfl, rfl, rfl, rfl, rfl⟩) (follows_correlate hp)))))

theorem aside_saveStopState {ticker : String} {s : World} {a : Unit} {s' : World}
    (h : s.saveStopState ticker = some (a, s')) : Aside s s' := by
  simp only [World.saveStopState] at h
  split at h
  · obtain ⟨-, rfl⟩ := Prod.mk.inj (Option.some.inj h)
    exact ⟨rfl, rfl, rfl, rfl, rfl, rfl, rfl, rfl, rfl⟩
  · cases h

theorem follows_receiveLongTerm {cfg : CoreConfig} {ticker : String}
    {f : Instant → LongTermTickerState → LongTermTickerState}
    {w : Instant → ColumnWrite LongTermTickerRow LongTermTickerRow.ticker} (hp : p.loaded = none) :
    Follows (Turn .core) p (receiveLongTerm cfg ticker f w) fun _ _ => True := by
  refine follows_bind (follows_readClock fun _ => follows_bind (follows_writeAside
    (fun _ => ⟨rfl, rfl, rfl, rfl, rfl, rfl, rfl, rfl, rfl⟩) (follows_bind (follows_writeAside
      (fun _ => ⟨rfl, rfl, rfl, rfl, rfl, rfl, rfl, rfl, rfl⟩) ?_))))
  exact follows_bind (follows_txn (fun s => .aside (.refl s)) fun s a s' h =>
    ⟨p, .aside (aside_saveStopState h), follows_correlateLongTerm hp⟩)

theorem follows_handleMessage {P : Type} {cfg : CoreConfig} {v : Validators P} {m : Message P} (hp : p.loaded = none) :
    Follows (Turn .core) p (handleMessage cfg v m) fun _ _ => True := by
  unfold handleMessage
  split
  · exact follows_ret trivial
  · unfold handlePayloadOn
    split
    · cases v.quantSignal _ with
      | none => exact follows_ret trivial
      | some signal => exact follows_receive hp
    · cases v.researchReport _ with
      | none => exact follows_ret trivial
      | some report => exact follows_receive hp
    · cases v.fundamentalSignal _ with
      | none => exact follows_ret trivial
      | some signal => exact follows_receiveLongTerm hp
    · cases v.longTermReport _ with
      | none => exact follows_ret trivial
      | some report => exact follows_receiveLongTerm hp
  · exact follows_ret trivial
  · exact follows_raise

/-- In the middle of a flush: the ids are those that were loaded, and what is sent was seen accepted. -/
structure Flushing (ids : List OutboxId) (records : Table OutboxRecord.outboxId) (q : Phase) : Prop where
  loaded : q.loaded = some ids
  ids : records.rows.map (·.outboxId) = ids
  sent : ∀ r ∈ records.rows, r.status = .sent → r.outboxId ∈ q.known

theorem status_scheduleRetry {again : OutboxRecord.Again} {error : String} {now : Instant} {wait : ℤ} {r : OutboxRecord}
    (h : again.status ≠ .sent) : (r.scheduleRetry again error now wait).status ≠ .sent := by
  unfold OutboxRecord.scheduleRetry
  split
  · rintro ⟨⟩
  · exact h

theorem Flushing.settle {ids : List OutboxId} {records : Table OutboxRecord.outboxId} {q : Phase} {id : OutboxId}
    {now : Instant} {wait : ℤ} {ok : Bool} {known : List OutboxId} (h : Flushing ids records q)
    (hmono : ∀ x ∈ q.known, x ∈ known) (hok : ok = true → id ∈ known) :
    Flushing ids (records.update (·.outboxId = id) (settleAttempt now wait (some ok))
      (outboxId_settleAttempt now wait (some ok))) { q with known := known } := by
  refine ⟨h.loaded, ?_, fun r hr hs => ?_⟩
  · exact (map_updateRows (outboxId_settleAttempt now wait (some ok)) records.rows).trans h.ids
  · obtain ⟨r₀, hr₀, rfl⟩ := mem_updateRows.1 hr
    by_cases hid : r₀.outboxId = id
    · simp only [hid, decide_true, if_true] at hs ⊢
      rw [outboxId_settleAttempt, hid]
      cases ok with
      | true => exact hok rfl
      | false => exact absurd hs (status_scheduleRetry nofun)
    · simp only [hid, decide_false, Bool.false_eq_true, if_false] at hs ⊢
      exact hmono _ (h.sent r₀ hr₀ hs)

theorem follows_attempt {ids : List OutboxId} {records : Table OutboxRecord.outboxId} {r : OutboxRecord} {now : Instant}
    (h : Flushing ids records p) :
    Follows (Turn .core) p (attempt now records r) fun records' => Flushing ids records' := by
  unfold attempt
  split
  · refine follows_bind (follows_rawPublish fun ok known hmono hknown => follows_bind (follows_aside
      (fun _ => ⟨rfl, rfl, rfl, rfl, rfl, rfl, rfl, rfl, rfl⟩) fun wait => follows_ret ?_))
    exact h.settle hmono fun hok => hknown hok _ r.labelled
  · exact follows_ret h

theorem follows_flush : Follows (Turn .core) p flush fun _ _ => True := by
  refine follows_bind (follows_readClock fun now => follows_bind (follows_call fun s => ⟨_, .load, ?_⟩))
  have hstart : Flushing s.outboxIds s.alertOutbox
      { p with known := p.known ++ s.sentIds, loaded := some s.outboxIds } := by
    refine ⟨rfl, rfl, fun r hr hs => List.mem_append_right _ (List.mem_map_of_mem (List.mem_filter.2 ⟨hr, ?_⟩))⟩
    exact decide_eq_true hs
  refine follows_bind (follows_mono (follows_foldEach (J := fun _ records => Flushing s.outboxIds records)
    (fun r _ records q hq => follows_attempt hq) s.alertOutbox.rows s.alertOutbox _ hstart) fun records q hq => ?_)
  exact follows_write (fun _ => .save (by rw [hq.loaded, hq.ids]) hq.sent) trivial

theorem follows_boot : Follows (Turn .core) p boot fun _ _ => True := by
  refine follows_txn (fun s => .aside (.refl s)) fun s a s' h => ⟨p, .aside ?_, trivial⟩
  obtain ⟨t, ht, he⟩ := Option.map_eq_some_iff.1 h
  obtain rfl : t = s' := congrArg Prod.snd he
  obtain ⟨c, -, hc⟩ := Option.bind_eq_some_iff.1 ht
  obtain ⟨c', -, rfl⟩ := Option.map_eq_some_iff.1 hc
  exact ⟨rfl, rfl, rfl, rfl, rfl, rfl, rfl, rfl, rfl⟩

/-! ### Dispatch -/

/-- Writing to the columns of a row does not change which alert it records. -/
theorem recordedIds_updateAlert {horizon : Horizon} {alertId : ℕ} {f : AlertRow → AlertRow} {s : World}
    (hf : ∀ r, (f r).alert = r.alert) : (s.updateAlert horizon alertId f).recordedIds = s.recordedIds := by
  have hids : ∀ rows : List AlertRow,
      (rows.modify alertId f).filterMap (·.alert.outboxId) = rows.filterMap (·.alert.outboxId) := by
    intro rows
    induction rows generalizing alertId with
    | nil => simp
    | cons r rows ih =>
      cases alertId with
      | zero => simp [List.filterMap_cons, hf]
      | succ n => simp [List.filterMap_cons, ih]
  cases horizon with
  | intraday => simp only [recordedIds, updateAlert, setAuditRows, auditRows, List.filterMap_append, hids]
  | longTerm => simp only [recordedIds, updateAlert, setAuditRows, auditRows, List.filterMap_append, hids]

theorem aside_updateAlert {horizon : Horizon} {alertId : ℕ} {f : AlertRow → AlertRow} (hf : ∀ r, (f r).alert = r.alert)
    (s : World) : Aside s (s.updateAlert horizon alertId f) := by
  have hrec : (s.updateAlert horizon alertId f).recordedIds = s.recordedIds := recordedIds_updateAlert hf
  cases horizon with
  | intraday => exact ⟨rfl, rfl, hrec, rfl, rfl, rfl, rfl, rfl, rfl⟩
  | longTerm => exact ⟨rfl, rfl, hrec, rfl, rfl, rfl, rfl, rfl, rfl⟩

theorem follows_carryOutPush {a : ReceivedAlert} {alertId : ℕ} {now : Instant} {decision : PushDecision}
    (hp : p.stage = .marked a.columns.outboxId) :
    Follows (Turn .dispatch) p (carryOutPush a alertId now decision) fun _ _ => True := by
  cases decision with
  | silent => exact follows_ret trivial
  | suppress reason => exact follows_writeAside (aside_updateAlert fun _ => rfl) trivial
  | push =>
    refine follows_bind (follows_call fun s => ⟨_, .push hp, ?_⟩)
    cases s.env.telegram s.consulted with
    | none =>
      exact follows_bind (follows_writeAside (aside_updateAlert fun _ => rfl) (follows_writeAside
        (fun _ => ⟨rfl, rfl, rfl, rfl, rfl, rfl, rfl, rfl, rfl⟩) trivial))
    | some error => exact follows_writeAside (aside_updateAlert fun _ => rfl) trivial

theorem follows_handleAlert {cfg : DispatchConfig} {a : ReceivedAlert} (hp : p.stage = .taken a) :
    Follows (Turn .dispatch) p (handleAlert cfg a) fun _ _ => True := by
  refine follows_bind (follows_call fun s => ⟨_, .isProcessed hp, ?_⟩)
  cases hdup : s.alreadyProcessed a.columns.outboxId with
  | true => exact follows_ret trivial
  | false =>
    refine follows_bind (follows_readClock fun now => follows_bind (follows_call fun s' => ⟨_, .record rfl, ?_⟩))
    refine follows_bind (follows_write (fun _ => .markProcessed rfl) ?_)
    exact follows_bind (follows_readClock fun now' => follows_bind (follows_aside Aside.refl fun last =>
      follows_carryOutPush rfl))

theorem follows_handleNext {cfg : DispatchConfig} (hp : p.stage = .idle) :
    Follows (Turn .dispatch) p (handleNext cfg) fun _ _ => True := by
  refine follows_bind (follows_call fun s => ⟨_, .getMessage hp, ?_⟩)
  cases s.inbox.head? with
  | none => exact follows_ret trivial
  | some payload =>
    show Follows _ _ (handlePayload cfg payload) _
    unfold handlePayload
    cases hv : validate? payload with
    | none => exact follows_ret trivial
    | some a => exact follows_handleAlert (by simp [hv])

end Rules

theorem starts_follow {P : Type} (i : Party) (x : Job Unit) (h : Starts (P := P) i x) :
    Follows (Turn i) .idle x fun _ _ => True := by
  cases h with
  | handleMessage cfg v m => exact follows_handleMessage rfl
  | flush => exact follows_flush
  | boot => exact follows_boot
  | subscribe => exact follows_writeAside (fun _ => ⟨rfl, rfl, rfl, rfl, rfl, rfl, rfl, rfl, rfl⟩) trivial
  | handleNext cfg => exact follows_handleNext rfl
  | drop => exact follows_write (fun _ => .drop) trivial

/-! ## The invariant -/

/-- The alert that Dispatch holds and has not recorded. -/
def Stage.holds : Stage → Option OutboxId
  | .taken a | .fresh a => a.columns.outboxId
  | _ => none

def Stage.Describes (s : World) : Stage → Prop
  | .idle => True
  | .taken a => ∀ id ∈ a.columns.outboxId, id ∉ s.processed → id ∉ s.recordedIds ∧ s.inHand = some id
  | .fresh a => ∀ id ∈ a.columns.outboxId, id ∉ s.recordedIds ∧ s.inHand = some id
  | .recorded a => ∀ id ∈ a.columns.outboxId, id ∈ s.recordedIds ∧ id ∉ s.processed
  | .marked oid => ∀ id ∈ oid, id ∈ s.processed ∧ id ∉ s.pushes

/-- The side of the engine. -/
structure Sending (s : World) (p : Phase) : Prop where
  sent : ∀ r ∈ s.alertOutbox.rows, r.status = .sent → r.outboxId ∈ s.accepted
  known : ∀ id ∈ p.known, id ∈ s.accepted
  loaded : ∀ ids, p.loaded = some ids → s.outboxIds = ids
  kept : ∀ a ∈ s.dispatched, makeOutboxId a ∈ s.outboxIds
  received : ∀ id ∈ s.accepted, id ∈ s.received

/-- The side of Dispatch. -/
structure Receiving (s : World) (stage : Stage) : Prop where
  handed : ∀ id ∈ s.accepted, id ∈ s.recordedIds ∨ id ∈ s.waitingIds ∨ stage.holds = some id
  recordedOnce : s.recordedIds.Nodup
  marked : ∀ id ∈ s.processed, id ∈ s.recordedIds
  pushedOnce : s.pushes.Nodup
  pushed : ∀ id ∈ s.pushes, id ∈ s.processed
  stage : stage.Describes s

def HandedOver (s : World) (P : Party → Phase) : Prop := Sending s (P .core) ∧ Receiving s (P .dispatch).stage

section Steps

variable {s s' : World} {p : Phase} {stage : Stage}

theorem Sending.congr (h : Sending s p) (hout : s'.alertOutbox = s.alertOutbox) (hacc : s'.accepted = s.accepted)
    (hdis : s'.dispatched = s.dispatched) (hrec : s'.received = s.received) : Sending s' p := by
  have hids : s'.outboxIds = s.outboxIds := by rw [outboxIds, hout, outboxIds]
  exact ⟨by rw [hout, hacc]; exact h.sent, by rw [hacc]; exact h.known, by rw [hids]; exact h.loaded,
    by rw [hdis, hids]; exact h.kept, by rw [hacc, hrec]; exact h.received⟩

theorem Stage.Describes.congr (h : stage.Describes s) (hrec : s'.recordedIds = s.recordedIds)
    (hpro : s'.processed = s.processed) (hpush : s'.pushes = s.pushes) (hhand : s'.inHand = s.inHand) :
    stage.Describes s' := by
  cases stage with
  | idle => trivial
  | taken a => simpa only [Stage.Describes, hrec, hpro, hhand] using h
  | fresh a => simpa only [Stage.Describes, hrec, hhand] using h
  | recorded a => simpa only [Stage.Describes, hrec, hpro] using h
  | marked oid => simpa only [Stage.Describes, hpro, hpush] using h

/-- Only what is accepted and what waits may change. -/
theorem Receiving.waiting (h : Receiving s stage) (hrec : s'.recordedIds = s.recordedIds)
    (hpro : s'.processed = s.processed) (hpush : s'.pushes = s.pushes) (hhand : s'.inHand = s.inHand)
    (hacc : ∀ id ∈ s'.accepted, id ∈ s.recordedIds ∨ id ∈ s'.waitingIds ∨ stage.holds = some id) :
    Receiving s' stage :=
  ⟨by rw [hrec]; exact hacc, hrec ▸ h.recordedOnce, by rw [hpro, hrec]; exact h.marked, hpush ▸ h.pushedOnce,
    by rw [hpush, hpro]; exact h.pushed, h.stage.congr hrec hpro hpush hhand⟩

theorem Receiving.congr (h : Receiving s stage) (hin : s'.inbox = s.inbox) (hrec : s'.recordedIds = s.recordedIds)
    (hpro : s'.processed = s.processed) (hacc : s'.accepted = s.accepted) (hpush : s'.pushes = s.pushes)
    (hhand : s'.inHand = s.inHand) : Receiving s' stage := by
  refine h.waiting hrec hpro hpush hhand ?_
  rw [hacc, waitingIds, hin]
  exact h.handed

/-! ### Calls of the engine -/

theorem status_renew (id : OutboxId) (payload : Payload) (h : payload.outboxId = some id) (r : OutboxRecord) :
    (r.renew id payload h).status = r.status := by
  unfold OutboxRecord.renew
  split <;> rfl

/-- A publish changes the connection of Dispatch and the history only. -/
theorem frame_publish (s : World) (payload : Payload) :
    (s.publish payload).alertOutbox = s.alertOutbox ∧ (s.publish payload).dispatched = s.dispatched ∧
      (s.publish payload).recordedIds = s.recordedIds ∧ (s.publish payload).processed = s.processed ∧
      (s.publish payload).pushes = s.pushes ∧ (s.publish payload).inHand = s.inHand := by
  simp only [World.publish]
  split <;> exact ⟨rfl, rfl, rfl, rfl, rfl, rfl⟩

theorem Sending.load (h : Sending s p) :
    Sending s { p with known := p.known ++ s.sentIds, loaded := some s.outboxIds } := by
  refine ⟨h.sent, fun id hid => ?_, fun ids hids => Option.some.inj hids, h.kept, h.received⟩
  rcases List.mem_append.1 hid with hid | hid
  · exact h.known id hid
  · obtain ⟨r, hr, rfl⟩ := List.mem_map.1 hid
    obtain ⟨hmem, hs⟩ := List.mem_filter.1 hr
    exact h.sent r hmem (of_decide_eq_true hs)

theorem Sending.enqueue {a : Alert} {payload : Payload} {hl : payload.outboxId = some (makeOutboxId a)} {now : Instant}
    (h : Sending s p) (hp : p.loaded = none) :
    Sending { s.enqueue (makeOutboxId a) payload hl now with dispatched := s.dispatched ++ [a] } p := by
  refine ⟨fun r hr hs => ?_, h.known, by simp [hp], fun b hb => ?_, h.received⟩
  · rcases Table.mem_upsert hr with rfl | ⟨r₀, hr₀, rfl | rfl⟩
    · cases hs
    · exact h.sent _ hr₀ hs
    · rw [OutboxRecord.outboxId_renew]
      exact h.sent r₀ hr₀ (status_renew _ _ _ r₀ ▸ hs)
  · refine Table.mem_keys_upsert.2 ?_
    rcases List.mem_append.1 hb with hb | hb
    · exact .inr (h.kept b hb)
    · exact .inl (congrArg makeOutboxId (List.mem_singleton.1 hb))

theorem Sending.publish {payload : Payload} (h : Sending s p) (he : Attends s (.publish payload)) :
    Sending (s.publish payload)
      { p with
        known := p.known ++ if s.env.publish s.consulted = .accepted then payload.outboxId.toList else [] } := by
  have hmore : ∀ id ∈ s.received, id ∈ (s.publish payload).received := fun id hid => by
    simp only [World.publish]
    split
    · exact List.mem_append_left _ hid
    · exact hid
  obtain ⟨hout, hdis, -⟩ := frame_publish s payload
  have hids : (s.publish payload).outboxIds = s.outboxIds := by rw [outboxIds, hout, outboxIds]
  refine ⟨fun r hr hs => List.mem_append_left _ (h.sent r (hout ▸ hr) hs), fun id hid => ?_,
    fun ids hload => hids.trans (h.loaded ids hload), fun a ha => hids ▸ h.kept a (hdis ▸ ha), fun id hid => ?_⟩
  · rcases List.mem_append.1 hid with hid | hid
    · exact List.mem_append_left _ (h.known id hid)
    · exact List.mem_append_right _ hid
  · rcases List.mem_append.1 hid with hid | hid
    · exact hmore id (h.received id hid)
    · split at hid
      · rename_i hans
        have hgo : s.env.publish s.consulted ≠ .lost ∧ s.subscribed = true := ⟨by simp [hans], (he hans).1⟩
        simp only [World.publish, if_pos hgo]
        exact List.mem_append_right _ hid
      · cases hid

theorem Sending.markPublished {id : OutboxId} {now : Instant} (h : Sending s p) (hid : id ∈ p.known) :
    Sending (s.markPublished id now) p := by
  have hids : (s.markPublished id now).outboxIds = s.outboxIds :=
    map_updateRows (f := OutboxRecord.markSent now) (g := OutboxRecord.outboxId) (fun _ => rfl) s.alertOutbox.rows
  refine ⟨fun r hr hs => ?_, h.known, hids ▸ h.loaded, hids ▸ h.kept, h.received⟩
  obtain ⟨r₀, hr₀, rfl⟩ := mem_updateRows.1 hr
  by_cases hpend : r₀.outboxId = id ∧ r₀.status.isPending = true
  · rw [if_pos (by simpa using hpend)]
    exact h.known _ (hpend.1 ▸ hid)
  · rw [if_neg (by simpa using hpend)] at hs ⊢
    exact h.sent r₀ hr₀ hs

theorem Sending.save {records : Table OutboxRecord.outboxId} (h : Sending s p)
    (hids : p.loaded = some (records.rows.map (·.outboxId)))
    (hsent : ∀ r ∈ records.rows, r.status = .sent → r.outboxId ∈ p.known) :
    Sending { s with alertOutbox := records } { p with loaded := none } := by
  refine ⟨fun r hr hs => h.known _ (hsent r hr hs), h.known, nofun, fun a ha => ?_, h.received⟩
  have hkept := h.kept a ha
  rwa [h.loaded _ hids] at hkept

theorem Receiving.publish {payload : Payload} (h : Receiving s stage) (he : Attends s (.publish payload)) :
    Receiving (s.publish payload) stage := by
  obtain ⟨-, -, hrec, hpro, hpush, hhand⟩ := frame_publish s payload
  have hmore : ∀ id ∈ s.waitingIds, id ∈ (s.publish payload).waitingIds := fun id hid => by
    simp only [World.publish]
    split
    · rw [waitingIds, List.mem_filterMap] at hid ⊢
      obtain ⟨x, hx, hid⟩ := hid
      exact ⟨x, List.mem_append_left _ hx, hid⟩
    · exact hid
  refine h.waiting hrec hpro hpush hhand fun id hid => ?_
  rcases List.mem_append.1 hid with hid | hid
  · rcases h.handed id hid with hr | hw | hh
    · exact .inl hr
    · exact .inr (.inl (hmore id hw))
    · exact .inr (.inr hh)
  · split at hid
    · rename_i hans
      obtain ⟨hsub, hval⟩ := he hans
      obtain ⟨a, ha⟩ := Option.isSome_iff_exists.1 hval
      have hgo : s.env.publish s.consulted ≠ .lost ∧ s.subscribed = true := ⟨by simp [hans], hsub⟩
      refine .inr (.inl ?_)
      simp only [World.publish, if_pos hgo]
      refine List.mem_filterMap.2 ⟨payload, List.mem_append_right _ List.mem_cons_self, ?_⟩
      rw [ha, Option.bind_some, columns_of_validate ha]
      exact Option.mem_toList.1 hid
    · cases hid

theorem Receiving.drop (h : Receiving s stage) (he : Attends s .drop) : Receiving s.drop stage := by
  refine h.waiting rfl rfl rfl rfl fun id hid => ?_
  rcases h.handed id hid with hr | hw | hh
  · exact .inl hr
  · exact .inl (he id hw hid)
  · exact .inr (.inr hh)

/-! ### Calls of Dispatch -/

theorem Receiving.getMessage (h : Receiving s .idle) (he : Attends s .getMessage) :
    Receiving s.getMessage ((s.inbox.head?.bind validate?).elim .idle .taken) := by
  refine ⟨fun id hid => ?_, h.recordedOnce, h.marked, h.pushedOnce, h.pushed, ?_⟩
  · rcases h.handed id hid with hr | hw | hh
    · exact .inl hr
    · refine .inr ?_
      obtain ⟨x, hx, hid⟩ := List.mem_filterMap.1 hw
      cases hin : s.inbox with
      | nil => simp [hin] at hx
      | cons y rest =>
        rcases List.mem_cons.1 (hin ▸ hx) with rfl | hx
        · obtain ⟨a, ha, hid⟩ := Option.bind_eq_some_iff.1 hid
          refine .inr ?_
          simpa [ha, Stage.holds] using hid
        · refine .inl (List.mem_filterMap.2 ⟨x, ?_, hid⟩)
          simpa [World.getMessage, hin] using hx
    · cases hh
  · cases hv : s.inbox.head?.bind validate? with
    | none => trivial
    | some a =>
      intro id hid hnew
      have hhand : s.nextInHand = some id := by
        rw [Option.mem_def] at hid
        have hnew' : decide (id ∉ s.processed) = true := decide_eq_true hnew
        rw [nextInHand, hv, Option.bind_some, hid, Option.filter_some, if_pos hnew']
      exact ⟨he id hhand, hhand⟩

theorem Receiving.isProcessed {a : ReceivedAlert} (h : Receiving s (.taken a)) :
    Receiving s (if s.alreadyProcessed a.columns.outboxId then .idle else .fresh a) := by
  split
  · rename_i hdup
    refine ⟨fun id hid => ?_, h.recordedOnce, h.marked, h.pushedOnce, h.pushed, trivial⟩
    rcases h.handed id hid with hr | hw | hh
    · exact .inl hr
    · exact .inr (.inl hw)
    · have hmem : id ∈ s.processed := by simpa [alreadyProcessed, show a.columns.outboxId = some id from hh] using hdup
      exact .inl (h.marked id hmem)
  · rename_i hdup
    refine ⟨h.handed, h.recordedOnce, h.marked, h.pushedOnce, h.pushed, fun id hid => h.stage id hid fun hmem => ?_⟩
    rw [Option.mem_def] at hid
    exact hdup (by simpa [alreadyProcessed, hid] using hmem)

theorem recordedIds_recordAlert (alert : Payload) (now : Instant) (s : World) :
    (s.recordAlert alert now).recordedIds.Perm (alert.outboxId.toList ++ s.recordedIds) := by
  have hone : ([⟨alert, now, none, none, none⟩] : List AlertRow).filterMap (·.alert.outboxId) =
      alert.outboxId.toList := by
    cases h : alert.outboxId <;> simp [h]
  cases alert with
  | intraday a =>
    simp only [recordedIds, recordAlert, AlertOf.kind, setAuditRows, auditRows, List.filterMap_append, hone]
    exact (List.perm_append_comm.append_right _).trans (List.append_assoc _ _ _ ▸ .refl _)
  | longTerm a =>
    simp only [recordedIds, recordAlert, AlertOf.kind, setAuditRows, auditRows, List.filterMap_append, hone]
    rw [← List.append_assoc]
    exact List.perm_append_comm

theorem frame_recordAlert (alert : Payload) (now : Instant) (s : World) :
    (s.recordAlert alert now).alertOutbox = s.alertOutbox ∧ (s.recordAlert alert now).dispatched = s.dispatched ∧
      (s.recordAlert alert now).received = s.received ∧ (s.recordAlert alert now).accepted = s.accepted ∧
      (s.recordAlert alert now).inbox = s.inbox ∧ (s.recordAlert alert now).processed = s.processed ∧
      (s.recordAlert alert now).pushes = s.pushes := by
  cases alert <;> exact ⟨rfl, rfl, rfl, rfl, rfl, rfl, rfl⟩

theorem Receiving.record {a : ReceivedAlert} {now : Instant} (h : Receiving s (.fresh a)) :
    Receiving (s.recordAlert a.columns now) (.recorded a) := by
  have hperm := recordedIds_recordAlert a.columns now s
  obtain ⟨-, -, -, hacc, hin, hpro, hpush⟩ := frame_recordAlert a.columns now s
  have hold : ∀ id ∈ s.recordedIds, id ∈ (s.recordAlert a.columns now).recordedIds := fun id hid =>
    hperm.mem_iff.2 (List.mem_append_right _ hid)
  have hnew : ∀ id ∈ a.columns.outboxId, id ∈ (s.recordAlert a.columns now).recordedIds := fun id hid =>
    hperm.mem_iff.2 (List.mem_append_left _ (Option.mem_toList.2 hid))
  refine ⟨fun id hid => ?_, hperm.nodup_iff.2 ?_, fun id hid => hold id (h.marked id (hpro ▸ hid)),
    hpush ▸ h.pushedOnce, by rw [hpush, hpro]; exact h.pushed, fun id hid => ⟨hnew id hid, fun hmem => ?_⟩⟩
  · rcases h.handed id (hacc ▸ hid) with hr | hw | hh
    · exact .inl (hold id hr)
    · exact .inr (.inl (by rwa [waitingIds, hin]))
    · exact .inl (hnew id hh)
  · cases hoid : a.columns.outboxId with
    | none => exact h.recordedOnce
    | some id => exact List.nodup_cons.2 ⟨(h.stage id hoid).1, h.recordedOnce⟩
  · exact (h.stage id hid).1 (h.marked id (hpro ▸ hmem))

theorem Receiving.markProcessed {a : ReceivedAlert} (h : Receiving s (.recorded a)) :
    Receiving (s.markProcessed a.columns.outboxId) (.marked a.columns.outboxId) := by
  have hmem : ∀ id ∈ (s.markProcessed a.columns.outboxId).processed,
      id ∈ s.processed ∨ a.columns.outboxId = some id := fun id hid => by
    rcases List.mem_append.1 hid with hid | hid
    · exact .inl hid
    · exact .inr (Option.filter_eq_some_iff.1 (Option.mem_toList.1 hid)).1
  refine ⟨fun id hid => ?_, h.recordedOnce, fun id hid => ?_, h.pushedOnce,
    fun id hid => List.mem_append_left _ (h.pushed id hid), fun id hid => ⟨?_, fun hpush => ?_⟩⟩
  · rcases h.handed id hid with hr | hw | hh
    · exact .inl hr
    · exact .inr (.inl hw)
    · cases hh
  · rcases hmem id hid with hp | hp
    · exact h.marked id hp
    · exact (h.stage id hp).1
  · refine List.mem_append_right _ (Option.mem_toList.2 (Option.filter_eq_some_iff.2 ⟨hid, ?_⟩))
    exact decide_eq_true (h.stage id hid).2
  · exact (h.stage id hid).2 (h.pushed id hpush)

theorem Receiving.push {oid : Option OutboxId} (h : Receiving s (.marked oid)) : Receiving (s.push oid) .idle := by
  refine ⟨fun id hid => ?_, h.recordedOnce, h.marked, ?_, fun id hid => ?_, trivial⟩
  · rcases h.handed id hid with hr | hw | hh
    · exact .inl hr
    · exact .inr (.inl hw)
    · cases hh
  · cases oid with
    | none => simpa [World.push] using h.pushedOnce
    | some id =>
      show (s.pushes ++ [id]).Nodup
      exact List.nodup_append.2 ⟨h.pushedOnce, List.nodup_singleton id, fun x hx y hy hxy =>
        (h.stage id rfl).2 (List.mem_singleton.1 hy ▸ hxy ▸ hx)⟩
  · rcases List.mem_append.1 hid with hid | hid
    · exact h.pushed id hid
    · exact (h.stage id (Option.mem_toList.1 hid)).1

/-- A stop that the conditions allow forgets nothing. -/
theorem Receiving.stop (h : Receiving s stage)
    (hhand : ∀ id ∈ s.inHand, id ∈ s.accepted → id ∈ s.recordedIds ∨ id ∈ s.waitingIds) : Receiving s .idle := by
  refine ⟨fun id hid => ?_, h.recordedOnce, h.marked, h.pushedOnce, h.pushed, trivial⟩
  rcases h.handed id hid with hr | hw | hh
  · exact .inl hr
  · exact .inr (.inl hw)
  · have hback : s.inHand = some id → id ∈ s.recordedIds ∨ id ∈ s.waitingIds ∨ Stage.idle.holds = some id := fun hin =>
      (hhand id hin hid).imp_right .inl
    cases stage with
    | taken a =>
      by_cases hpro : id ∈ s.processed
      · exact .inl (h.marked id hpro)
      · exact hback (h.stage id hh hpro).2
    | fresh a => exact hback (h.stage id hh).2
    | idle | recorded | marked => cases hh

end Steps

section Turns

variable {s s' : World} {P : Party → Phase} {q : Phase}

theorem HandedOver.core (hs : Sending s q) (hr : Receiving s (P .dispatch).stage) :
    HandedOver s (Function.update P .core q) := by
  rw [HandedOver, Function.update_self, Function.update_of_ne (by decide)]
  exact ⟨hs, hr⟩

theorem HandedOver.dispatch (hs : Sending s (P .core)) (hr : Receiving s q.stage) :
    HandedOver s (Function.update P .dispatch q) := by
  rw [HandedOver, Function.update_self, Function.update_of_ne (by decide)]
  exact ⟨hs, hr⟩

theorem HandedOver.aside (h : HandedOver s P) (ha : Aside s s') : HandedOver s' P :=
  ⟨h.1.congr ha.alertOutbox ha.accepted ha.dispatched ha.received,
    h.2.congr ha.inbox ha.recorded ha.processed ha.accepted ha.pushes ha.inHand⟩

theorem Turn.keeps {i : Party} {l : Label} (h : HandedOver s P) (he : Attends s l) (ht : Turn i (P i) l s s' q) :
    HandedOver s' (Function.update P i q) := by
  obtain ⟨hs, hr⟩ := h
  generalize hp : P i = p at ht
  cases ht with
  | aside ha =>
    rw [← hp, Function.update_eq_self]
    exact HandedOver.aside ⟨hs, hr⟩ ha
  | load => exact .core (hp ▸ hs.load) hr
  | enqueue hload => exact .core (hp ▸ hs.enqueue (hp ▸ hload)) (hr.congr rfl rfl rfl rfl rfl rfl)
  | publish => exact .core (hp ▸ hs.publish he) (hr.publish he)
  | markPublished hload hid => exact .core (hp ▸ hs.markPublished (hp ▸ hid)) (hr.congr rfl rfl rfl rfl rfl rfl)
  | save hids hsent => exact .core (hp ▸ hs.save (hp ▸ hids) (hp ▸ hsent)) (hr.congr rfl rfl rfl rfl rfl rfl)
  | drop =>
    rw [← hp, Function.update_eq_self]
    exact ⟨hs.congr rfl rfl rfl rfl, hr.drop he⟩
  | getMessage hst => exact .dispatch (hs.congr rfl rfl rfl rfl) (Receiving.getMessage (hst ▸ hp ▸ hr) he)
  | isProcessed hst => exact .dispatch hs (Receiving.isProcessed (hst ▸ hp ▸ hr))
  | @record _ _ a now hst =>
    obtain ⟨hout, hdis, hrec, hacc, -⟩ := frame_recordAlert a.columns now s
    exact .dispatch (hs.congr hout hacc hdis hrec) (Receiving.record (hst ▸ hp ▸ hr))
  | markProcessed hst => exact .dispatch (hs.congr rfl rfl rfl rfl) (Receiving.markProcessed (hst ▸ hp ▸ hr))
  | push hst => exact .dispatch (hs.congr rfl rfl rfl rfl) (Receiving.push (hst ▸ hp ▸ hr))

end Turns

/-! ## Runs -/

/-- The alert waits for Dispatch, or is in its hand. -/
def Underway (S : Sys Party Label World) (id : OutboxId) : Prop :=
  id ∈ S.store.waitingIds ∨ S.proc .dispatch ≠ none ∧ S.store.inHand = some id

/-- An alert that was enqueued has its record; a record that is `SENT` was received; a record is pending, or has failed
visibly, or its alert has one row or is on its way; there is no second row and no second push. -/
structure Accounted (S : Sys Party Label World) : Prop where
  kept : ∀ a ∈ S.store.dispatched, makeOutboxId a ∈ S.store.outboxIds
  sent : ∀ r ∈ S.store.alertOutbox.rows, r.status = .sent → r.outboxId ∈ S.store.received
  settled : ∀ r ∈ S.store.alertOutbox.rows, r.status.isPending = true ∨
    r.status = .failed ∧ r.maxAttempts ≤ r.attempts ∨ S.store.recordedIds.count r.outboxId = 1 ∨ Underway S r.outboxId
  recordedOnce : ∀ id, S.store.recordedIds.count id ≤ 1
  pushedOnce : ∀ id, S.store.pushes.count id ≤ 1

theorem HandedOver.stop {S : Sys Party Label World} {phase : Party → Phase} {i : Party}
    (h : HandedOver S.store phase) (ha : Attended S (.stop i)) :
    HandedOver S.store (Function.update phase i .idle) := by
  obtain ⟨hs, hr⟩ := h
  cases i with
  | core => exact .core ⟨hs.sent, fun _ h => (List.not_mem_nil h).elim, nofun, hs.kept, hs.received⟩ hr
  | dispatch => exact .dispatch hs (hr.stop ha)
  | network => exact ⟨hs, hr⟩

theorem HandedOver.empty (env : Environment) : HandedOver (World.empty env) fun _ => .idle := by
  refine ⟨⟨?_, ?_, nofun, ?_, ?_⟩, ⟨?_, List.nodup_nil, ?_, List.nodup_nil, ?_, trivial⟩⟩
  all_goals exact fun _ h => (List.not_mem_nil h).elim

theorem Receiving.underway {S : Sys Party Label World} {stage : Stage} (h : Receiving S.store stage)
    (hrun : S.proc .dispatch = none → stage = .idle) {id : OutboxId} (hid : id ∈ S.store.accepted) :
    S.store.recordedIds.count id = 1 ∨ Underway S id := by
  have hone : id ∈ S.store.recordedIds → S.store.recordedIds.count id = 1 := fun hr =>
    List.count_eq_one_of_mem h.recordedOnce hr
  rcases h.handed id hid with hr | hw | hh
  · exact .inl (hone hr)
  · exact .inr (.inl hw)
  · have hproc : S.proc .dispatch ≠ none := fun hnone => by
      rw [hrun hnone] at hh
      cases hh
    cases stage with
    | taken a =>
      by_cases hpro : id ∈ S.store.processed
      · exact .inl (hone (h.marked id hpro))
      · exact .inr (.inr ⟨hproc, (h.stage id hh hpro).2⟩)
    | fresh a => exact .inr (.inr ⟨hproc, (h.stage id hh).2⟩)
    | idle | recorded | marked => cases hh

/-- In every run of the engine and Dispatch, with any outages and with stops and lost connections at any step, in which
whatever Redis accepts goes to a Dispatch that listens, reads it and marks it. -/
theorem alerts_handed_over {P : Type} {env : Environment} {S : Sys Party Label World}
    (h : Reach (Starts (P := P)) Attended (Sys.idle (World.empty env)) S) : Accounted S := by
  obtain ⟨phase, hphase, hidle⟩ := h.followsBy (T := Turn) (E := fun _ l s => Attends s l) (J := HandedOver)
    starts_follow (fun _ _ _ ha => ha) (fun _ _ _ ha hJ => hJ.stop ha)
    (fun s phase i l s' q hJ he ht => ht.keeps hJ he) (.empty env)
  obtain ⟨hs, hr⟩ := hphase.inv
  refine ⟨hs.kept, fun r hr' hsent => hs.received _ (hs.sent r hr' hsent), fun r hr' => ?_,
    fun id => List.nodup_iff_count_le_one.1 hr.recordedOnce id, fun id => List.nodup_iff_count_le_one.1 hr.pushedOnce id⟩
  cases hst : r.status with
  | pending | retry | uncertain => exact .inl rfl
  | sent =>
    refine .inr (.inr (hr.underway (fun hnone => ?_) (hs.sent r hr' hst)))
    rw [hidle _ hnone]
    rfl
  | failed => exact .inr (.inl ⟨rfl, r.exhausted hst⟩)

theorem alerts_handed_over_sample : ∃ S : Sys Party Label World,
    Reach (Starts (P := Document)) Attended (Sys.idle (World.empty slowly)) S ∧
      S.store.alertOutbox.rows.map (·.status) = [.sent] ∧ S.store.recordedIds.length = 1 ∧ Accounted S := by
  have hstart : Reach (Starts (P := Document)) Attended (Sys.idle (World.empty slowly)) _ := .refl
  have h := hstart.turn (i := .dispatch) (n := 1) rfl .subscribe trivial (by decide +kernel) (by decide +kernel)
  have h := h.turn (i := .core) (n := 8) (Sys.idle_turn rfl)
    (.handleMessage intradayOnly documents (signalMessage (.fin 100))) trivial (by decide +kernel) (by decide +kernel)
  have h := h.turn (i := .core) (n := 13) (Sys.idle_turn rfl)
    (.handleMessage intradayOnly documents (reportMessage (.fin 100))) trivial (by decide +kernel) (by decide +kernel)
  have h := h.turn (i := .dispatch) (n := 6) (Sys.idle_turn (Sys.idle_turn (Sys.idle_turn rfl)))
    (.handleNext ⟨false, .info, false, 0, 0, 0⟩) trivial (by decide +kernel) (by decide +kernel)
  exact ⟨_, h, by decide +kernel, by decide +kernel, alerts_handed_over h⟩

/-- Nobody listens when the alert is published: Redis accepts it, and its record is `SENT`. -/
theorem sent_unheard : ¬ ∀ (P : Type) (env : Environment) (S : Sys Party Label World),
    Reach (Starts (P := P)) (fun _ _ => True) (Sys.idle (World.empty env)) S → Accounted S := by
  intro hall
  have hstart : Reach (Starts (P := Document)) (fun _ _ => True) (Sys.idle (World.empty slowly)) _ := .refl
  have h := hstart.turn (i := .core) (n := 8) rfl
    (.handleMessage intradayOnly documents (signalMessage (.fin 100))) trivial (by decide +kernel) trivial
  have h := h.turn (i := .core) (n := 13) (Sys.idle_turn rfl)
    (.handleMessage intradayOnly documents (reportMessage (.fin 100))) trivial (by decide +kernel) trivial
  have hsent := (hall Document slowly _ h).sent
  revert hsent
  decide +kernel

end TalonX.Core
