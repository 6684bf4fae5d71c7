import TalonX.Piv.ExperimentalAuthorization
import TalonX.Piv.Matched

/-!
# Runs under experimental authorizations

- `LifecycleState.stakes`: what the entries of an experiment have reserved, one amount for each intent on file;
- `World.entries`, `World.exposure`: the entries of an experiment that the broker received, and the symbols in which they
  are live or held;
- `Session`, `SessionEvent`: the process over its world. Every attempt comes with its own authorization; a process that
  dies comes back through the reconcile of its startup.
-/

set_option autoImplicit false

namespace TalonX.Piv

open Transact V2

/-! ## What is reserved -/

/-- The amount that an entry under the experiment has reserved. -/
def Intent.stake (experimentId : String) (q : Intent) : Option ℚ :=
  if q.source = some .experimental ∧ q.id.side = .buy ∧ q.experimentalId = some experimentId then
    some (q.referencePrice.getD 0 * q.id.quantity)
  else none

def LifecycleState.stakes (s : LifecycleState) (experimentId : String) : List ℚ :=
  s.intents.rows.filterMap (·.stake experimentId)

/-! ## What is exposed -/

namespace World

variable (w : World) (experimentId : String)

/-- The entries of the experiment that the broker has received. -/
def entries : List BrokerOrder :=
  w.broker.rows.filter fun b => ((w.state.intents.get b.intentId).bind (·.stake experimentId)).isSome

/-- The order is live at the broker, or it has given shares whose position is not known to be closed. -/
def exposed (b : BrokerOrder) : Bool :=
  !b.now.status.terminal || (0 < b.now.filled && !(w.state.positions.get ⟨b.intentId⟩).any (·.status = .closed))

/-- The symbols in which entries of the experiment are live or held. -/
def exposure : Finset Symbol := (((w.entries experimentId).filter w.exposed).map (·.intentId.symbol)).toFinset

end World

/-! ## Sessions -/

/-- The process is running, or it has died. -/
structure Session where
  world : World := {}
  running : Bool := true

inductive SessionEvent
  /-- `order_intent`. -/
  | attempt (c : EntryContext) (r : OrderRequest) (sub : Submission)
  /-- Anything else that happens to the lifecycle or at the broker. -/
  | event (e : Event)
  /-- The end of day has found the broker flat. -/
  | eodClosed
  | crash
  /-- The state is loaded, and the reconcile of the startup promotes what a crash left behind. -/
  | restart

/-- The state in which a refusal leaves the lifecycle: only the experimental guards write to it. -/
def EntryContext.afterRejection (c : EntryContext) (r : OrderRequest) (s : LifecycleState) : Rejection → LifecycleState
  | .experimentalGuard _ => (c.enforceExperimentalPaperGuards r s).2
  | _ => s

/-- No order is placed through it. -/
def noEntries : Config := ⟨fun _ => false, fun _ _ => .error "EXPERIMENTAL_AUTHORIZATION_NOT_CONFIGURED"⟩

namespace Session

/-- A submission that is cut off after the broker received it leaves a process that has died. -/
def next (S : Session) : SessionEvent → Option Session
  | .attempt c r sub =>
    if !S.running then none
    else
      match admitIntent c.config S.world.state r with
      | .error e => some { S with world := { S.world with state := c.afterRejection r S.world.state e } }
      | .ok _ =>
        (S.world.next c.config (.order r sub)).map fun w =>
          { world := w, running := sub.answer.isSome || sub.received.isNone }
  | .event (.order _ _) => none
  | .event e => (S.world.next noEntries e).map fun w => { S with world := w }
  | .eodClosed =>
    if S.world.broker.rows.all (·.now.status.terminal) then
      some { S with world := { S.world with state := S.world.state.closePositions } }
    else none
  | .crash => some { S with running := false }
  | .restart => some { world := { S.world with state := promoteOrphanOrderIntents S.world.state }, running := true }

def run : Session → List SessionEvent → Option Session
  | S, [] => some S
  | S, e :: es => (S.next e).bind fun S' => run S' es

end Session

/-- The sessions of the runs whose events all meet the condition where they happen. -/
inductive Session.Reach (ok : Session → SessionEvent → Prop) : Session → Prop
  | start : Reach ok {}
  | step {S S' : Session} {e : SessionEvent} : Reach ok S → ok S e → S.next e = some S' → Reach ok S'

/-- A report that closes an order as canceled, expired or rejected brings no first shares of it. -/
def BookedBefore (s : LifecycleState) (id : BrokerOrderId) (r : BrokerReport) : Prop :=
  ∀ o ∈ s.orders.rows, o.id = id → o.intentId.side = .buy → ∀ status q, r.status = .known status →
    status.terminal = true → status.isFill = false → r.filledQty = .finite q → 0 < q →
      (s.positions.get ⟨o.intentId⟩).isSome

/-- What an orderly run asks of an event; a poll round that repeats the status of the round before is not applied. -/
def Event.Booked (w : World) : Event → Prop
  | .update id r => BookedBefore w.state id r
  | .pollRead id seen r => r.status ≠ seen → BookedBefore w.state id r
  | _ => True

/-- No submission that the broker received is answered without an id, and no order is closed with a hidden fill. -/
def Orderly (S : Session) : SessionEvent → Prop
  | .attempt _ _ sub => sub.answer = some (.answered "") → sub.received = none
  | .event e => e.Booked S.world
  | _ => True

end TalonX.Piv
