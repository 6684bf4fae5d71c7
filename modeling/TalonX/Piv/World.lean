import TalonX.Piv.Lifecycle
import Mathlib.Algebra.Group.Subgroup.ZPowers.Basic
import Mathlib.Data.Rat.Defs

/-!
# The lifecycle and its broker

- `BrokerOrder`: an order at the broker with its history; the cumulative quantity grows and a terminal status is final;
- `World`: the persisted state, the orders that the broker received, and the quantities that it reported;
- `Event`, `World.next`: what can happen next. A report tells a state that the order has or had, so reports may be late,
  repeated and out of order; a crash cuts an operation off between two of its saves;
- `Reach`: the worlds that a run can reach whose events all meet a condition.
-/

set_option autoImplicit false

namespace TalonX.Piv

open Transact V2

/-! ## Orders at the broker -/

structure Snapshot where
  status : BrokerStatus
  filled : ℚ
  deriving DecidableEq, Repr

/-- `now` is the state of the order, `past` are its earlier states. -/
structure BrokerOrder where
  id : BrokerOrderId
  intentId : IntentId
  now : Snapshot
  past : List Snapshot
  live : ∀ p ∈ past, p.status.terminal = false
  grows : ∀ p ∈ past, 0 ≤ p.filled ∧ p.filled ≤ now.filled
  bounded : 0 ≤ now.filled ∧ now.filled ≤ intentId.quantity

namespace BrokerOrder

def history (b : BrokerOrder) : List Snapshot := b.now :: b.past

def place (id : BrokerOrderId) (i : IntentId) : BrokerOrder :=
  { id, intentId := i, now := ⟨.pendingNew, 0⟩, past := []
    live := fun _ h => (List.not_mem_nil h).elim
    grows := fun _ h => (List.not_mem_nil h).elim
    bounded := ⟨le_rfl, i.positive.le⟩ }

/-- The order may take on the state. -/
def CanMove (b : BrokerOrder) (next : Snapshot) : Prop :=
  b.now.status.terminal = false ∧ b.now.filled ≤ next.filled ∧ next.filled ≤ b.intentId.quantity

instance (b : BrokerOrder) (next : Snapshot) : Decidable (b.CanMove next) := inferInstanceAs (Decidable (_ ∧ _ ∧ _))

def moveTo (b : BrokerOrder) (next : Snapshot) (h : b.CanMove next) : BrokerOrder :=
  { b with
    now := next
    past := b.now :: b.past
    live := List.forall_mem_cons.2 ⟨h.1, b.live⟩
    grows := List.forall_mem_cons.2
      ⟨⟨b.bounded.1, h.2.1⟩, fun p hp => ⟨(b.grows p hp).1, (b.grows p hp).2.trans h.2.1⟩⟩
    bounded := ⟨b.bounded.1.trans h.2.1, h.2.2⟩ }

def move (b : BrokerOrder) (next : Snapshot) : BrokerOrder := if h : b.CanMove next then b.moveTo next h else b

@[simp] theorem id_move (b : BrokerOrder) (next : Snapshot) : (b.move next).id = b.id := by
  unfold move; split <;> rfl

@[simp] theorem intentId_move (b : BrokerOrder) (next : Snapshot) : (b.move next).intentId = b.intentId := by
  unfold move; split <;> rfl

/-- What can still be filled. -/
def outstanding (b : BrokerOrder) : ℚ := if b.now.status.terminal then 0 else b.intentId.quantity - b.now.filled

/-- What the order may come to in the end. -/
def potential (b : BrokerOrder) : ℚ := b.now.filled + b.outstanding

/-- A report tells a state that the order has or had. -/
def Told (b : BrokerOrder) (r : BrokerReport) : Prop :=
  (∃ p ∈ b.history, r.status = .known p.status ∧ r.filledQty = .finite p.filled) ∧ (validPrice r.fillPrice).isSome

instance (b : BrokerOrder) (r : BrokerReport) : Decidable (b.Told r) := inferInstanceAs (Decidable (_ ∧ _))

end BrokerOrder

/-! ## Worlds -/

structure World where
  state : LifecycleState := {}
  broker : Table BrokerOrder.id := Table.empty
  /-- The largest cumulative quantity that was reported of an order on file. -/
  reported : BrokerOrderId → ℚ := fun _ => 0

/-- What becomes of a submission: whether the broker received it, and what `order_intent` is told, unless the process
crashes first. -/
structure Submission where
  received : Option BrokerOrderId
  answer : Option SubmitAnswer
  deriving DecidableEq, Repr

/-- The answer is an error, or the id of the order, or a body without an id. -/
def Submission.truthful (sub : Submission) : Bool :=
  sub.received ≠ some "" &&
    match sub.answer with
    | some (.answered id) => id = "" || sub.received = some id
    | _ => true

inductive Event
  /-- `start_session`, `activate_kill_switch`. -/
  | session (enabled killSwitch : Bool)
  /-- `order_intent`. -/
  | order (r : OrderRequest) (sub : Submission)
  /-- Something happens to an order at the broker. -/
  | broker (id : BrokerOrderId) (next : Snapshot)
  /-- `apply_broker_update`, also from a refresh. -/
  | update (id : BrokerOrderId) (r : BrokerReport)
  /-- One round of a poll. -/
  | pollRead (id : BrokerOrderId) (seen : StatusText) (r : BrokerReport)
  /-- The time of a poll is up. -/
  | pollTimeout (id : BrokerOrderId)
  /-- `_promote_orphan_order_intents`. -/
  | promote
  /-- An uncertain submission is looked up. -/
  | lookup (i : IntentId) (now : Instant) (answer : LookupAnswer)
  /-- The operator has found that the submission did not reach the broker. -/
  | resolve (i : IntentId)
  /-- `reconcile` ends, or its failure is recorded. -/
  | verdict (flags : ReconciliationFlags)
  /-- `mark_exit_triggered`. -/
  | trigger (symbol : Symbol) (reason : ExitReason)

namespace World

/-- The broker has the order that the report is about, in the state that it tells or later. -/
def tells (w : World) (id : BrokerOrderId) (r : BrokerReport) : Bool := (w.broker.get id).any fun b => b.Told r

/-- A row that would be adopted is the order that the intent submitted. -/
def tellsLookup (w : World) (i : IntentId) : LookupAnswer → Bool
  | .found row => !orderResponseMatchesIntent row i || (w.broker.get row.id).any fun b => b.intentId = i
  | _ => true

/-- The broker after a submission; the id of an order is new. -/
def receive (w : World) (i : IntentId) (sub : Submission) : Option (Table BrokerOrder.id) :=
  match sub.received with
  | none => some w.broker
  | some id => w.broker.insert? (BrokerOrder.place id i)

/-- The report has come in. -/
def hear (w : World) (id : BrokerOrderId) (r : BrokerReport) : BrokerOrderId → ℚ :=
  match w.state.orders.get id, r.filledQty with
  | some _, .finite q => Function.update w.reported id (max (w.reported id) q)
  | _, _ => w.reported

def next (cfg : Config) (w : World) : Event → Option World
  | .session enabled killSwitch => some { w with state := { w.state with sessionEnabled := enabled, killSwitch } }
  | .order r sub =>
    match admitIntent cfg w.state r with
    | .error _ => some w
    | .ok (i, s) =>
      if sub.truthful then
        (w.receive i sub).map fun broker => { w with state := sub.answer.elim s (recordSubmission s i), broker }
      else none
  | .broker id snapshot =>
    if (w.broker.get id).any (·.CanMove snapshot) then
      some { w with broker := w.broker.update (·.id = id) (·.move snapshot) fun _ => BrokerOrder.id_move _ _ }
    else none
  | .update id r =>
    if w.tells id r then some { w with state := applyBrokerUpdate w.state id r, reported := w.hear id r } else none
  | .pollRead id seen r =>
    if w.tells id r then some { w with state := pollRead w.state id seen r, reported := w.hear id r } else none
  | .pollTimeout id => some { w with state := w.state.markUnconfirmed id }
  | .promote => some { w with state := promoteOrphanOrderIntents w.state }
  | .lookup i now answer =>
    if (w.state.intents.get i).any (·.status = .submitFailedUncertain) && w.tellsLookup i answer then
      some { w with state := lookupSubmission w.state i now answer }
    else none
  | .resolve i =>
    if w.broker.rows.any (·.intentId = i) then none
    else some { w with state := operatorResolveUncertainSubmission w.state i }
  | .verdict flags => some { w with state := { w.state with reconciliationFlags := flags } }
  | .trigger symbol reason => some { w with state := markExitTriggered w.state symbol reason }

/-- The events one after the other. -/
def run (cfg : Config) : World → List Event → Option World
  | w, [] => some w
  | w, e :: es => (w.next cfg e).bind fun w' => run cfg w' es

end World

/-- The worlds of the runs whose events all meet the condition in the world where they happen. -/
inductive Reach (cfg : Config) (ok : World → Event → Prop) : World → Prop
  | start : Reach cfg ok {}
  | step {w w' : World} {e : Event} : Reach cfg ok w → ok w e → w.next cfg e = some w' → Reach cfg ok w'

/-- A run of events that meet the condition wherever they happen. -/
theorem Reach.of_run {cfg : Config} {ok : World → Event → Prop} {es : List Event} (hok : ∀ e ∈ es, ∀ w, ok w e) :
    ∀ {w w' : World}, Reach cfg ok w → w.run cfg es = some w' → Reach cfg ok w' := by
  induction es with
  | nil =>
    intro w w' hw h
    obtain rfl := Option.some.inj h
    exact hw
  | cons e es ih =>
    intro w w' hw h
    obtain ⟨w₁, h₁, h₂⟩ := Option.bind_eq_some_iff.1 h
    exact ih (fun x hx => hok x (List.mem_cons_of_mem _ hx)) (hw.step (hok e List.mem_cons_self w) h₁) h₂

/-! ## Quantities -/

namespace LifecycleState

variable (s : LifecycleState)

/-- The orders on file of a symbol and a side. -/
def ordersOf (symbol : Symbol) (side : Side) (o : Order) : Bool := o.intentId.symbol = symbol && o.intentId.side = side

/-- The quantities on file of the orders of a symbol and a side. -/
def recorded (symbol : Symbol) (side : Side) : ℚ := sumWhere (ordersOf symbol side) (·.filledQty) s.orders.rows

/-- The internal remaining quantity of a symbol. -/
def held (symbol : Symbol) : ℚ := sumWhere (·.symbol = symbol) (·.remainingQuantity) s.positions.rows

end LifecycleState

namespace World

variable (w : World)

/-- The largest reported quantities of the orders of a symbol and a side. -/
def reportedOf (symbol : Symbol) (side : Side) : ℚ :=
  sumWhere (LifecycleState.ordersOf symbol side) (fun o => w.reported o.id) w.state.orders.rows

def sent (symbol : Symbol) (side : Side) (b : BrokerOrder) : Bool := b.intentId.symbol = symbol && b.intentId.side = side

/-- The shares that the account holds. -/
def shares (symbol : Symbol) : ℚ :=
  sumWhere (sent symbol .buy) (·.now.filled) w.broker.rows - sumWhere (sent symbol .sell) (·.now.filled) w.broker.rows

/-- The SELL quantity that the broker was sent and could still fill. -/
def outstandingSells (symbol : Symbol) : ℚ := sumWhere (sent symbol .sell) (·.outstanding) w.broker.rows

end World

end TalonX.Piv
