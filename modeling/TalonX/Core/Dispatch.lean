import TalonX.Core.AlertOutbox

/-!
# Dispatch

`DispatchAgent` on the alert channels: its subscription, the handling of one alert, and the push to Telegram.

- `validate?`: `model_validate` of the trimmed schemas of Dispatch;
- `evaluatePushEligibility`, `pushDecision`: whether an alert is pushed;
- `handleNext`: one message from the subscription.
-/

set_option autoImplicit false

namespace TalonX.Core

open Transact V2

structure DispatchConfig where
  telegramConfigured : Bool
  minSeverity : AlertSeverity
  muteContradictions : Bool
  minConfidence : ℚ
  pushCooldown : ℤ
  retriggerPriceDeltaPct : ℚ

def AlertSeverity.rank : AlertSeverity → ℕ
  | info => 0
  | warning => 1
  | critical => 2

/-- An alert as Dispatch reads it: the columns that it records, and the numbers that it computes with. -/
structure ReceivedAlert where
  columns : Payload
  price : PyFloat
  researchConfidence : Option PyFloat
  deriving DecidableEq, Repr

/-- `none`: a number that the schema requires is `null`, or the confidence is out of range. -/
def validate? : Payload → Option ReceivedAlert
  | .intraday a =>
    a.triggeringSignal.price.bind fun price => a.researchConfidence.bind fun confidence =>
      if 0 ≤ confidence ∧ confidence ≤ 1 then some ⟨.intraday a, .fin price, some (.fin confidence)⟩ else none
  | .longTerm a =>
    a.marketPrice.bind fun price => a.intrinsicFairValue.bind fun _ => a.marginOfSafetyPct.bind fun _ =>
      some ⟨.longTerm a, .fin price, none⟩

theorem columns_of_validate {p : Payload} {a : ReceivedAlert} (h : validate? p = some a) : a.columns = p := by
  cases p with
  | intraday p =>
    simp only [validate?, Option.bind_eq_some_iff] at h
    obtain ⟨price, -, confidence, -, h⟩ := h
    split at h
    · cases h
      rfl
    · cases h
  | longTerm p =>
    simp only [validate?, Option.bind_eq_some_iff] at h
    obtain ⟨price, -, fair, -, margin, -, h⟩ := h
    cases h
    rfl

/-! ## Whether to push -/

inductive PushDecision
  | silent
  | suppress (reason : PushSuppression)
  | push
  deriving DecidableEq, Repr

/-- `_PUSH_ELIGIBLE_ACTIONS_INTRADAY`, `_PUSH_ELIGIBLE_ACTIONS_LONG_TERM`. -/
def pushEligible : Horizon → AlertAction → Bool
  | .intraday, action => action = .confirmedBullish || action = .confirmedBearish
  | .longTerm, action =>
    action = .highConvictionBuy || action = .takeProfitRebalance || action = .underPerformRebalance

/-- The cooldown, which a large enough move of the price bypasses. -/
def pushCooldown (cfg : DispatchConfig) (price : PyFloat) (lastPush : Option (Instant × PyFloat)) (now : Instant) :
    PushDecision :=
  match lastPush with
  | none => .push
  | some (lastAt, lastPrice) =>
    if now - lastAt < cfg.pushCooldown then
      match (price.sub lastPrice).abs.div? lastPrice with
      | none => .suppress .pushCooldownActive
      | some delta =>
        if PyFloat.le (.fin cfg.retriggerPriceDeltaPct) (delta.scale 100) then .push else .suppress .priceDeltaTooLow
    else .push

/-- `_evaluate_push_eligibility`. -/
def evaluatePushEligibility (cfg : DispatchConfig) (a : ReceivedAlert) (lastPush : Option (Instant × PyFloat))
    (now : Instant) : PushDecision :=
  if cfg.muteContradictions && !pushEligible a.columns.kind a.columns.action then .suppress .actionMuted
  else if a.researchConfidence.any (·.lt (.fin cfg.minConfidence)) then .suppress .confidenceBelowGate
  else pushCooldown cfg a.price lastPush now

/-- `_maybe_send_telegram` and its long-term sibling, where an earnings-related alert passes every gate. -/
def pushDecision (cfg : DispatchConfig) (a : ReceivedAlert) (lastPush : Option (Instant × PyFloat)) (now : Instant) :
    PushDecision :=
  if !cfg.telegramConfigured then .silent
  else if a.columns.isEarningsRelated then .push
  else if a.columns.severity.rank < cfg.minSeverity.rank then .silent
  else evaluatePushEligibility cfg a lastPush now

/-! ## Statements -/

namespace World

/-- The subscription of a new connection. -/
def subscribe (s : World) : World := { s with subscribed := true }

/-- The connection is lost, with what was waiting in it. -/
def drop (s : World) : World := { s with subscribed := false, inbox := [] }

/-- The alert that Dispatch takes with the next message. -/
def nextInHand (s : World) : Option OutboxId :=
  (s.inbox.head?.bind validate?).bind fun a => a.columns.outboxId.filter (· ∉ s.processed)

def getMessage (s : World) : World := { s with inbox := s.inbox.tail, inHand := s.nextInHand }

/-- `alert_outbox_id_already_processed`. -/
def alreadyProcessed (id : Option OutboxId) (s : World) : Bool := id.any (· ∈ s.processed)

/-- `alerts` or `long_term_alerts`. -/
def auditRows (s : World) : Horizon → List AlertRow
  | .intraday => s.alerts
  | .longTerm => s.longTermAlerts

def setAuditRows (horizon : Horizon) (rows : List AlertRow) (s : World) : World :=
  match horizon with
  | .intraday => { s with alerts := rows }
  | .longTerm => { s with longTermAlerts := rows }

/-- `record_alert`, `record_long_term_alert`. -/
def recordAlert (alert : Payload) (now : Instant) (s : World) : World :=
  s.setAuditRows alert.kind (s.auditRows alert.kind ++ [⟨alert, now, none, none, none⟩])

/-- `UPDATE … WHERE id = ?`. -/
def updateAlert (horizon : Horizon) (alertId : ℕ) (f : AlertRow → AlertRow) (s : World) : World :=
  s.setAuditRows horizon ((s.auditRows horizon).modify alertId f)

/-- `mark_alert_outbox_id_processed`. -/
def markProcessed (id : Option OutboxId) (s : World) : World :=
  { s with processed := s.processed ++ (id.filter (· ∉ s.processed)).toList, inHand := none }

/-- A send to Telegram. -/
def push (id : Option OutboxId) (s : World) : World := { s.consult with pushes := s.pushes ++ id.toList }

end World

/-! ## One message -/

/-- The answer of Telegram, where `none` is a success. -/
def settlePush (a : ReceivedAlert) (alertId : ℕ) (now : Instant) : Option String → Job Unit
  | none => do
    Prog.write .settlePush (World.updateAlert a.columns.kind alertId fun r =>
      { r with telegramSentAt := some now, telegramError := none, suppressReason := none })
    Prog.write .settlePush fun s =>
      { s with lastPush := fun horizon ticker =>
          if horizon = a.columns.kind ∧ ticker = a.columns.ticker.toUpper then some (now, a.price)
          else s.lastPush horizon ticker }
  | some error =>
    Prog.write .settlePush (World.updateAlert a.columns.kind alertId fun r =>
      { r with telegramError := some (error.take 500).toString, suppressReason := none })

def carryOutPush (a : ReceivedAlert) (alertId : ℕ) (now : Instant) : PushDecision → Job Unit
  | .silent => .ret ()
  | .suppress reason =>
    Prog.write .settlePush (World.updateAlert a.columns.kind alertId fun r => { r with suppressReason := some reason })
  | .push => do
    let answer ← .call (.push a.columns.outboxId) (World.push a.columns.outboxId)
      (fun s => .ret (s.env.telegram s.consulted)) .raise
    settlePush a alertId now answer

def maybeSendTelegram (cfg : DispatchConfig) (a : ReceivedAlert) (alertId : ℕ) : Job Unit := do
  let now ← readClock
  let lastPush ← Prog.read .look fun s => s.lastPush a.columns.kind a.columns.ticker.toUpper
  carryOutPush a alertId now (pushDecision cfg a lastPush now)

/-- An alert that was not processed before. -/
def processAlert (cfg : DispatchConfig) (a : ReceivedAlert) : Job Unit := do
  let now ← readClock
  let alertId ← .call (.record a.columns) (World.recordAlert a.columns now)
    (fun s => .ret (s.auditRows a.columns.kind).length) .raise
  Prog.write (.markProcessed a.columns.outboxId) (World.markProcessed a.columns.outboxId)
  maybeSendTelegram cfg a alertId

def handleAlert (cfg : DispatchConfig) (a : ReceivedAlert) : Job Unit := do
  let duplicate ← Prog.read (.isProcessed a.columns.outboxId) (World.alreadyProcessed a.columns.outboxId)
  if duplicate then .ret () else processAlert cfg a

/-- A payload that does not validate is dropped. -/
def handlePayload (cfg : DispatchConfig) (p : Payload) : Job Unit := (validate? p).elim (.ret ()) (handleAlert cfg)

/-- `get_message`, and what is done with the message. -/
def handleNext (cfg : DispatchConfig) : Job Unit := do
  let message ← .call .getMessage World.getMessage (fun s => .ret s.inbox.head?) .raise
  message.elim (.ret ()) (handlePayload cfg)

end TalonX.Core
