import TalonX.Piv.ReconcileRun
import Mathlib.Logic.Relation

/-!
# What can change in the lifecycle

- `Change`: one save of the lifecycle, whatever the broker answers, apart from the admission of a BUY and from the trigger
  of an exit;
- `Step`: everything that a change can do to positions, orders and intents;
- `Single`: a symbol has at most one open position, and what could still bring shares in belongs to it.

Here the broker may answer anything; the results about the quantities, which need a truthful broker, are in `Safety`.
-/

set_option autoImplicit false

namespace TalonX.Piv

open Transact V2

variable {cfg : Config} {s t : LifecycleState} {symbol : Symbol} {R : Position → Prop}

/-! ## Changes -/

/-- It is not known what became of the submission. -/
def Intent.unsettled (i : Intent) : Bool := i.status = .orderIntent || i.status = .submitFailedUncertain

/-- The order can still bring shares in. -/
def Order.live (o : Order) : Bool := o.intentId.side = .buy && !o.status.terminal

inductive Change (cfg : Config) : LifecycleState → LifecycleState → Prop
  | settings {s : LifecycleState} (enabled killSwitch : Bool) (flags : ReconciliationFlags) :
    Change cfg s { s with sessionEnabled := enabled, killSwitch, reconciliationFlags := flags }
  | admitSell {s t : LifecycleState} {r : OrderRequest} {i : IntentId} :
    admitIntent cfg s r = .ok (i, t) → i.side = .sell → Change cfg s t
  /-- The intents of a kind are updated, and none of them gets unsettled. -/
  | intents {s : LifecycleState} (p : Intent → Bool) (f : Intent → Intent) (hf : ∀ q, (f q).id = q.id) :
    (∀ q ∈ s.intents.rows, p q → (f q).unsettled → q.unsettled) →
    Change cfg s { s with intents := s.intents.update p f hf }
  | record {s : LifecycleState} {i : IntentId} {q : Intent} (id : BrokerOrderId) :
    s.intents.get i = some q → q.unsettled → Change cfg s (s.recordOrder i id)
  | report {s : LifecycleState} (id : BrokerOrderId) (r : BrokerReport) : Change cfg s (applyBrokerUpdate s id r)
  | unconfirmed {s : LifecycleState} {id : BrokerOrderId} :
    (∀ o, s.orders.get id = some o → o.status.terminal = false) → Change cfg s (s.markUnconfirmed id)
  | close {s : LifecycleState} : Change cfg s s.closePositions

/-! ## What a change does -/

/-- The position keeps what was recorded once; an exit reason is new only where `R` says so. -/
structure Position.Grows (R : Position → Prop) (p p' : Position) : Prop where
  id : p'.id = p.id
  symbol : p'.symbol = p.symbol
  quantity : p.quantity ≤ p'.quantity
  firstFill : p.firstFillObservedAt.isSome → p'.firstFillObservedAt = p.firstFillObservedAt
  triggered : p'.triggeredExitReason = p.triggeredExitReason ∨ p.triggeredExitReason = none ∧ R p'

theorem Position.Grows.refl (R : Position → Prop) (p : Position) : p.Grows R p :=
  ⟨rfl, rfl, le_rfl, fun _ => rfl, .inl rfl⟩

/-- A live order of the entry of a position. -/
def Fillable (s : LifecycleState) (symbol : Symbol) (k : PositionId) : Prop :=
  ∃ o ∈ s.orders.rows, o.live = true ∧ o.symbol = symbol ∧ o.intentId = k.entry

/-- The submission of an intent has come to an order. -/
def Settles (s t : LifecycleState) (i : IntentId) : Prop :=
  (∃ q ∈ s.intents.rows, q.unsettled = true ∧ q.id = i) ∧ ∀ q ∈ t.intents.rows, q.id = i → q.unsettled = false

structure Single (s : LifecycleState) : Prop where
  orderSymbol : ∀ o ∈ s.orders.rows, o.intentId.symbol = o.symbol
  entry : ∀ p ∈ s.positions.rows, p.id.entry.symbol = p.symbol ∧ 0 < p.quantity
  tracked : ∀ symbol k, s.openPositionBySymbol symbol = some k → k.entry.symbol = symbol
  opened : ∀ p ∈ s.positions.rows, p.status = .opened → s.openPositionBySymbol p.symbol = some p.id
  /-- What can still bring shares in belongs to the open position. -/
  own : ∀ o ∈ s.orders.rows, o.live → ∀ p ∈ s.positions.rows, p.status = .opened → p.symbol = o.symbol →
    p.id.entry = o.intentId
  filed : ∀ o ∈ s.orders.rows, o.live → (s.intents.get o.intentId).isSome
  one : ∀ o ∈ s.orders.rows, o.live → ∀ o' ∈ s.orders.rows, o'.live → o.symbol = o'.symbol → o.intentId = o'.intentId
  /-- An unsettled BUY is alone. -/
  alone : ∀ q ∈ s.intents.rows, q.unsettled → q.id.side = .buy →
    (∀ p ∈ s.positions.rows, p.status = .opened → p.symbol ≠ q.id.symbol) ∧
    (∀ o ∈ s.orders.rows, o.live → o.symbol ≠ q.id.symbol) ∧
    ∀ q' ∈ s.intents.rows, q'.unsettled → q'.id.side = .buy → q'.id.symbol = q.id.symbol → q'.id = q.id

structure Step (R : Position → Prop) (s t : LifecycleState) : Prop where
  positions : ∀ p' ∈ t.positions.rows,
    (∃ p ∈ s.positions.rows, p.Grows R p' ∧
      (p'.status = .opened → p.status = .opened ∨ Fillable s p'.symbol p'.id)) ∨
    (s.positions.get p'.id = none ∧ 0 < p'.quantity ∧ p'.triggeredExitReason = none ∧ Fillable s p'.symbol p'.id)
  kept : ∀ p ∈ s.positions.rows, ∃ p' ∈ t.positions.rows, p.Grows R p'
  tracked : ∀ symbol k, t.openPositionBySymbol symbol = some k → k.entry.symbol = symbol
  opened : ∀ p ∈ t.positions.rows, p.status = .opened → t.openPositionBySymbol p.symbol = some p.id
  orders : ∀ o' ∈ t.orders.rows, o'.intentId.symbol = o'.symbol ∧
    (o'.live → (∃ o ∈ s.orders.rows, o.live = true ∧ o.intentId = o'.intentId) ∨ Settles s t o'.intentId)
  intents : ∀ q' ∈ t.intents.rows, q'.unsettled → q'.id.side = .buy →
    ∃ q ∈ s.intents.rows, q.unsettled = true ∧ q.id = q'.id
  intentsKept : ∀ k, (s.intents.get k).isSome → (t.intents.get k).isSome

namespace Single

/-- A symbol has one open position. -/
theorem opened_unique (h : Single s) {p q : Position} (hp : p ∈ s.positions.rows) (hq : q ∈ s.positions.rows)
    (hpo : p.status = .opened) (hqo : q.status = .opened) (hs : p.symbol = q.symbol) : p = q := by
  apply s.positions.eq_of_key hp hq
  have hpt := h.opened p hp hpo
  rw [hs, h.opened q hq hqo] at hpt
  exact (Option.some.inj hpt).symm

theorem openPositionFor_eq_some (h : Single s) {p : Position} :
    s.openPositionFor symbol = some p ↔ p ∈ s.positions.rows ∧ p.status = .opened ∧ p.symbol = symbol := by
  unfold LifecycleState.openPositionFor
  constructor
  · intro hp
    split at hp
    · rename_i q hq
      split at hp
      · rename_i hopen
        obtain rfl := Option.some.inj hp
        obtain ⟨k, hk, hget⟩ := Option.bind_eq_some_iff.1 hq
        obtain ⟨hmem, hid⟩ := Table.get_eq_some.1 hget
        refine ⟨hmem, hopen, ?_⟩
        rw [← (h.entry q hmem).1, hid]
        exact h.tracked _ _ hk
      · cases hp
    · cases hp
  · rintro ⟨hmem, hopen, rfl⟩
    rw [h.opened p hmem hopen, Option.bind_some, Table.get_eq_some.2 ⟨hmem, rfl⟩]
    exact if_pos hopen

/-- What is live in a state after a step, seen in the state before. -/
theorem step (h : Single s) (ht : Step R s t) : Single t := by
  have hlive : ∀ o' ∈ t.orders.rows, o'.live = true →
      (∃ o ∈ s.orders.rows, o.live = true ∧ o.symbol = o'.symbol ∧ o.intentId = o'.intentId) ∨
        Settles s t o'.intentId := by
    intro o' ho' hl
    obtain ⟨hsym, hor⟩ := ht.orders o' ho'
    refine (hor hl).imp_left ?_
    rintro ⟨o, ho, hlo, hid⟩
    exact ⟨o, ho, hlo, by rw [← h.orderSymbol o ho, hid, hsym], hid⟩
  have hopen : ∀ p' ∈ t.positions.rows, p'.status = .opened →
      (∃ p ∈ s.positions.rows, p.status = .opened ∧ p.symbol = p'.symbol ∧ p.id = p'.id) ∨
        Fillable s p'.symbol p'.id := by
    intro p' hp' ho'
    rcases ht.positions p' hp' with ⟨p, hp, hg, hopened⟩ | ⟨-, -, -, hf⟩
    · refine (hopened ho').imp_left fun hpo => ⟨p, hp, hpo, hg.symbol.symm, hg.id.symm⟩
    · exact .inr hf
  have hbuy : ∀ o : Order, o.live = true → o.intentId.side = .buy := by
    intro o hl
    unfold Order.live at hl
    simp only [Bool.and_eq_true, decide_eq_true_eq] at hl
    exact hl.1
  have hsettled : ∀ o' ∈ t.orders.rows, o'.live = true → Settles s t o'.intentId →
      ∃ q ∈ s.intents.rows, q.unsettled = true ∧ q.id.side = .buy ∧ q.id = o'.intentId ∧ q.id.symbol = o'.symbol := by
    rintro o' ho' hl ⟨⟨q, hq, hu, hid⟩, -⟩
    exact ⟨q, hq, hu, by rw [hid]; exact hbuy o' hl, hid, by rw [hid]; exact (ht.orders o' ho').1⟩
  constructor
  case orderSymbol => exact fun o ho => (ht.orders o ho).1
  case entry =>
    intro p' hp'
    rcases ht.positions p' hp' with ⟨p, hp, hg, -⟩ | ⟨-, hq, -, o, ho, -, hsym, hid⟩
    · obtain ⟨hsym, hq⟩ := h.entry p hp
      exact ⟨by rw [hg.id, hg.symbol, hsym], hq.trans_le hg.quantity⟩
    · exact ⟨by rw [← hid, h.orderSymbol o ho, hsym], hq⟩
  case tracked => exact ht.tracked
  case opened => exact ht.opened
  case own =>
    intro o' ho' hl p' hp' hpo hs
    rcases hlive o' ho' hl with ⟨o, ho, hlo, hos, hid⟩ | hset
    · rcases hopen p' hp' hpo with ⟨p, hp, hpo', hps, hpid⟩ | ⟨o₁, ho₁, hl₁, hs₁, hid₁⟩
      · rw [← hpid, ← hid]
        exact h.own o ho hlo p hp hpo' (by rw [hps, hs, hos])
      · rw [← hid₁, ← hid]
        exact h.one o₁ ho₁ hl₁ o ho hlo (by rw [hs₁, hs, hos])
    · obtain ⟨q, hq, hu, hside, -, hqs⟩ := hsettled o' ho' hl hset
      obtain ⟨hnoOpen, hnoLive, -⟩ := h.alone q hq hu hside
      rcases hopen p' hp' hpo with ⟨p, hp, hpo', hps, -⟩ | ⟨o₁, ho₁, hl₁, hs₁, -⟩
      · exact absurd (by rw [hps, hs, hqs]) (hnoOpen p hp hpo')
      · exact absurd (by rw [hs₁, hs, hqs]) (hnoLive o₁ ho₁ hl₁)
  case filed =>
    intro o' ho' hl
    apply ht.intentsKept
    rcases hlive o' ho' hl with ⟨o, ho, hlo, -, hid⟩ | ⟨⟨q, hq, -, hid⟩, -⟩
    · rw [← hid]
      exact h.filed o ho hlo
    · rw [← hid, Table.get_eq_some.2 ⟨hq, rfl⟩]
      rfl
  case one =>
    intro o' ho' hl o'' ho'' hl' hs
    rcases hlive o' ho' hl with ⟨o, ho, hlo, hos, hid⟩ | hset
    · rcases hlive o'' ho'' hl' with ⟨o₁, ho₁, hl₁, hs₁, hid₁⟩ | hset'
      · rw [← hid, ← hid₁]
        exact h.one o ho hlo o₁ ho₁ hl₁ (by rw [hos, hs, hs₁])
      · obtain ⟨q, hq, hu, hside, -, hqs⟩ := hsettled o'' ho'' hl' hset'
        exact absurd (by rw [hos, hs, hqs]) ((h.alone q hq hu hside).2.1 o ho hlo)
    · obtain ⟨q, hq, hu, hside, hqid, hqs⟩ := hsettled o' ho' hl hset
      rcases hlive o'' ho'' hl' with ⟨o₁, ho₁, hl₁, hs₁, -⟩ | hset'
      · exact absurd (by rw [hs₁, ← hs, hqs]) ((h.alone q hq hu hside).2.1 o₁ ho₁ hl₁)
      · obtain ⟨q', hq', hu', hside', hqid', hqs'⟩ := hsettled o'' ho'' hl' hset'
        rw [← hqid, ← hqid']
        exact ((h.alone q hq hu hside).2.2 q' hq' hu' hside' (by rw [hqs', hqs, hs])).symm
  case alone =>
    intro q' hq' hu' hside'
    obtain ⟨q, hq, hu, hid⟩ := ht.intents q' hq' hu' hside'
    have hside : q.id.side = .buy := by rw [hid]; exact hside'
    obtain ⟨hnoOpen, hnoLive, hnone⟩ := h.alone q hq hu hside
    rw [hid] at hnoOpen hnoLive hnone
    refine ⟨fun p' hp' hpo hs => ?_, fun o' ho' hl hs => ?_, fun q'' hq'' hu'' hside'' hs => ?_⟩
    · rcases hopen p' hp' hpo with ⟨p, hp, hpo', hps, -⟩ | ⟨o₁, ho₁, hl₁, hs₁, -⟩
      · exact hnoOpen p hp hpo' (by rw [hps, hs])
      · exact hnoLive o₁ ho₁ hl₁ (by rw [hs₁, hs])
    · rcases hlive o' ho' hl with ⟨o, ho, hlo, hos, -⟩ | hset
      · exact hnoLive o ho hlo (by rw [hos, hs])
      · obtain ⟨q₁, hq₁, hu₁, hside₁, hid₁, hs₁⟩ := hsettled o' ho' hl hset
        have hsame : q₁.id = q'.id := hnone q₁ hq₁ hu₁ hside₁ (by rw [hs₁, hs])
        have hno := hset.2 q' hq' (by rw [← hsame, hid₁])
        rw [hu'] at hno
        cases hno
    · obtain ⟨q₁, hq₁, hu₁, hid₁⟩ := ht.intents q'' hq'' hu'' hside''
      rw [← hid₁] at hs hside'' ⊢
      exact hnone q₁ hq₁ hu₁ hside'' hs

end Single

/-! ## Every change is a step -/

section Steps

variable {o : Order} {upd : Update}

/-- A change that leaves the positions alone. -/
theorem Single.step_of_positions (h : Single s) (hp : t.positions = s.positions)
    (hb : t.openPositionBySymbol = s.openPositionBySymbol)
    (ho : ∀ o' ∈ t.orders.rows, o'.intentId.symbol = o'.symbol ∧
      (o'.live → (∃ o ∈ s.orders.rows, o.live = true ∧ o.intentId = o'.intentId) ∨ Settles s t o'.intentId))
    (hi : ∀ q' ∈ t.intents.rows, q'.unsettled → q'.id.side = .buy →
      ∃ q ∈ s.intents.rows, q.unsettled = true ∧ q.id = q'.id)
    (hk : ∀ k, (s.intents.get k).isSome → (t.intents.get k).isSome) : Step R s t where
  positions p' hp' := .inl ⟨p', by rw [← hp]; exact hp', .refl R _, .inl⟩
  kept p hps := ⟨p, by rw [hp]; exact hps, .refl R _⟩
  tracked := by rw [hb]; exact h.tracked
  opened := by rw [hp, hb]; exact h.opened
  orders := ho
  intents := hi
  intentsKept := hk

theorem Single.same_orders (h : Single s) : ∀ o' ∈ s.orders.rows, o'.intentId.symbol = o'.symbol ∧
    (o'.live → (∃ o ∈ s.orders.rows, o.live = true ∧ o.intentId = o'.intentId) ∨ Settles s t o'.intentId) :=
  fun o' ho' => ⟨h.orderSymbol o' ho', fun hl => .inl ⟨o', ho', hl, rfl⟩⟩

theorem same_intents : ∀ q' ∈ s.intents.rows, q'.unsettled → q'.id.side = .buy →
    ∃ q ∈ s.intents.rows, q.unsettled = true ∧ q.id = q'.id := fun q' hq' hu _ => ⟨q', hq', hu, rfl⟩

theorem updated_orders (h : Single s) (ho : o ∈ s.orders.rows) (hlive : o.status.terminal = false) :
    ∀ o' ∈ (s.updateOrder o.id upd).orders.rows, o'.intentId.symbol = o'.symbol ∧
      (o'.live → (∃ o ∈ s.orders.rows, o.live = true ∧ o.intentId = o'.intentId) ∨ Settles s t o'.intentId) := by
  intro o' ho'
  rcases (mem_updateOrder ho).1 ho' with ⟨hq, -⟩ | rfl
  · exact h.same_orders o' hq
  · refine ⟨h.orderSymbol o ho, fun hl => .inl ⟨o, ho, ?_, rfl⟩⟩
    unfold Order.live at hl ⊢
    simp only [Bool.and_eq_true, decide_eq_true_eq] at hl
    simp [hlive, show o.intentId.side = .buy from hl.1]

/-- A SELL fill shrinks the open position of its symbol, and closes it when nothing is left. -/
theorem step_sellFill (h : Single s) (ho : o ∈ s.orders.rows) (hlive : o.status.terminal = false) {q d : ℚ}
    {fp : Option ℚ} : Step R s (applySellFill (s.updateOrder o.id upd) o.symbol q d fp) := by
  unfold applySellFill
  split
  · exact h.step_of_positions rfl rfl (updated_orders h ho hlive) same_intents fun _ hk => hk
  rename_i p hp
  obtain ⟨k, hk, hget⟩ := Option.bind_eq_some_iff.1 hp
  obtain ⟨hmem, rfl⟩ := Table.get_eq_some.1 hget
  have hk' : s.openPositionBySymbol o.symbol = some p.id := hk
  have hmem' : p ∈ s.positions.rows := hmem
  have hsym : p.symbol = o.symbol := by rw [← (h.entry p hmem').1]; exact h.tracked _ _ hk'
  have hmap : ∀ x ∈ s.positions.rows, x.Grows R (if decide (x.id = p.id) then { p.exit q d fp with id := x.id } else x) := by
    intro x hx
    split
    · rename_i hid
      obtain rfl := s.positions.eq_of_key hx hmem' (of_decide_eq_true hid)
      exact ⟨rfl, rfl, le_rfl, fun _ => rfl, .inl rfl⟩
    · exact .refl R _
  have hstatus : ∀ x ∈ s.positions.rows,
      (if decide (x.id = p.id) then { p.exit q d fp with id := x.id } else x).status = .opened → x.status = .opened := by
    intro x hx hs
    split at hs
    · rename_i hid
      obtain rfl := s.positions.eq_of_key hx hmem' (of_decide_eq_true hid)
      have hs' : (if (x.exit q d fp).remainingQuantity ≤ shareTolerance then PositionStatus.closed else x.status) =
        .opened := hs
      split at hs'
      · cases hs'
      · exact hs'
    · exact hs
  constructor
  case positions =>
    intro p' hp'
    obtain ⟨x, hx, rfl⟩ := mem_updateRows.1 hp'
    exact .inl ⟨x, hx, hmap x hx, fun hs => .inl (hstatus x hx hs)⟩
  case kept => exact fun x hx => ⟨_, mem_updateRows.2 ⟨x, hx, rfl⟩, hmap x hx⟩
  case tracked =>
    intro symbol k hk
    dsimp only at hk
    split at hk
    · by_cases hs : symbol = o.symbol
      · rw [hs, Function.update_self] at hk
        cases hk
      · rw [Function.update_of_ne hs] at hk
        exact h.tracked _ _ hk
    · exact h.tracked _ _ hk
  case opened =>
    intro p' hp' hopen
    obtain ⟨x, hx, rfl⟩ := mem_updateRows.1 hp'
    have hxo := hstatus x hx hopen
    rw [(hmap x hx).symbol, (hmap x hx).id]
    have htracked := h.opened x hx hxo
    dsimp only
    split
    · rename_i hclosed
      -- the position that is left behind by the index is closed
      have hne : x.symbol ≠ o.symbol := by
        intro hs
        rw [hs, hk'] at htracked
        obtain rfl := s.positions.eq_of_key hmem' hx (Option.some.inj htracked)
        simp only [decide_true, if_true] at hopen
        have hs' : (if (p.exit q d fp).remainingQuantity ≤ shareTolerance then PositionStatus.closed else p.status) =
          .opened := hopen
        rw [if_pos hclosed] at hs'
        cases hs'
      rw [Function.update_of_ne hne]
      exact htracked
    · exact htracked
  case orders => exact updated_orders h ho hlive
  case intents => exact same_intents
  case intentsKept => exact fun _ hk => hk

/-- A BUY fill opens the position of its entry, or merges into it. -/
theorem step_put {p' : Position} (h : Single s) (ho : o ∈ s.orders.rows) (hl : o.live = true)
    (hsym : p'.symbol = o.symbol) (hid : p'.id.entry = o.intentId) (hopen : p'.status = .opened)
    (hold : (s.positions.get p'.id = none ∧ 0 < p'.quantity ∧ p'.triggeredExitReason = none) ∨
      ∃ p ∈ s.positions.rows, p.Grows R p') : Step R s ((s.updateOrder o.id upd).putPosition o.symbol p') := by
  have hterminal : o.status.terminal = false := by
    unfold Order.live at hl
    simp only [Bool.and_eq_true, Bool.not_eq_true'] at hl
    exact hl.2
  have hfill : Fillable s p'.symbol p'.id := ⟨o, ho, hl, hsym.symm, hid.symm⟩
  have htracked : ((s.updateOrder o.id upd).putPosition o.symbol p').openPositionBySymbol =
      Function.update s.openPositionBySymbol o.symbol (some p'.id) := if_pos hopen
  constructor
  case positions =>
    intro x hx
    rcases mem_putPosition.1 hx with ⟨hx, -⟩ | rfl
    · exact .inl ⟨x, hx, .refl R _, .inl⟩
    · rcases hold with ⟨hnone, hq, htr⟩ | ⟨p, hp, hg⟩
      · exact .inr ⟨hnone, hq, htr, hfill⟩
      · exact .inl ⟨p, hp, hg, fun _ => .inr hfill⟩
  case kept =>
    intro x hx
    by_cases hxid : x.id = p'.id
    · rcases hold with ⟨hnone, -, -⟩ | ⟨p, hp, hg⟩
      · exact absurd hxid (Table.get_eq_none.1 hnone x hx)
      · obtain rfl := s.positions.eq_of_key hx hp (by rw [hxid, hg.id])
        exact ⟨p', mem_putPosition.2 (.inr rfl), hg⟩
    · exact ⟨x, mem_putPosition.2 (.inl ⟨hx, hxid⟩), .refl R _⟩
  case tracked =>
    intro symbol k hk
    rw [htracked] at hk
    by_cases hs : symbol = o.symbol
    · rw [hs, Function.update_self] at hk
      rw [← Option.some.inj hk, hid, h.orderSymbol o ho, hs]
    · rw [Function.update_of_ne hs] at hk
      exact h.tracked _ _ hk
  case opened =>
    intro x hx hxo
    rw [htracked]
    rcases mem_putPosition.1 hx with ⟨hx, hne⟩ | rfl
    · have hs : x.symbol ≠ o.symbol := by
        intro hs
        have hown := h.own o ho hl x hx hxo hs
        apply hne
        show x.id = p'.id
        calc x.id = ⟨x.id.entry⟩ := rfl
          _ = ⟨p'.id.entry⟩ := by rw [hown, hid]
          _ = p'.id := rfl
      rw [Function.update_of_ne hs]
      exact h.opened x hx hxo
    · rw [hsym, Function.update_self]
  case orders => exact updated_orders h ho hterminal
  case intents => exact same_intents
  case intentsKept => exact fun _ hk => hk

theorem Position.grows_merge (p : Position) (u : Update) (filledQty incremental : ℚ) :
    p.Grows R (p.merge u filledQty incremental) where
  id := rfl
  symbol := rfl
  quantity := le_max_left _ _
  firstFill hs := by
    obtain ⟨t, ht⟩ := Option.isSome_iff_exists.1 hs
    show p.firstFillObservedAt.or u.filledAt = _
    rw [ht]
    rfl
  triggered := .inl rfl

theorem step_buyFill {i : Intent} {q d : ℚ} (h : Single s) (ho : o ∈ s.orders.rows) (hl : o.live = true)
    (hi : i.id = o.intentId) (hq : 0 < q) : Step R s (applyBuyFill (s.updateOrder o.id upd) i o.symbol upd q d) := by
  have hterminal : o.status.terminal = false := by
    unfold Order.live at hl
    simp only [Bool.and_eq_true, Bool.not_eq_true'] at hl
    exact hl.2
  have hsame : Step R s (s.updateOrder o.id upd) :=
    h.step_of_positions rfl rfl (updated_orders h ho hterminal) same_intents fun _ hk => hk
  unfold applyBuyFill
  split
  · rename_i hnone
    exact step_put h ho hl rfl hi rfl (.inl ⟨hnone, hq, rfl⟩)
  · rename_i p hp
    obtain ⟨hmem, hid⟩ := Table.get_eq_some.1 hp
    have hmem' : p ∈ s.positions.rows := hmem
    split
    · exact hsame
    split
    · exact hsame
    rename_i hreopens
    apply step_put h ho hl _ _ _ (.inr ⟨p, hmem', p.grows_merge upd q d⟩)
    · show p.symbol = o.symbol
      rw [← (h.entry p hmem').1, hid, hi, h.orderSymbol o ho]
    · show p.id.entry = o.intentId
      rw [hid, hi]
    · show (if shareTolerance < d then PositionStatus.opened else p.status) = .opened
      split
      · rfl
      · rename_i hsmall
        cases hstatus : p.status with
        | opened => rfl
        | closed => exact absurd ⟨hstatus, not_lt.1 hsmall⟩ hreopens

theorem step_acceptUpdate (h : Single s) (ho : o ∈ s.orders.rows) : Step R s (acceptUpdate s o upd) := by
  unfold acceptUpdate
  split
  · exact h.step_of_positions rfl rfl h.same_orders same_intents fun _ hk => hk
  rename_i hterminal
  rw [Bool.not_eq_true] at hterminal
  have hsame : Step R s (s.updateOrder o.id upd) :=
    h.step_of_positions rfl rfl (updated_orders h ho hterminal) same_intents fun _ hk => hk
  split
  · rename_i hfill
    unfold applyFill
    dsimp only
    split
    · exact hsame
    rename_i i hi
    have hid : i.id = o.intentId := Table.key_of_get hi
    cases hside : i.id.side with
    | sell => exact step_sellFill h ho hterminal
    | buy =>
      have hl : o.live = true := by
        unfold Order.live
        rw [← hid, hside, hterminal]
        rfl
      exact step_buyFill h ho hl hid hfill.2
  · exact hsame

end Steps

section Changes

/-- The intent of an admission is new, and it is the only one. -/
theorem mem_admitted {r : OrderRequest} {i : IntentId} (h : admitIntent cfg s r = .ok (i, t)) {q : Intent}
    (hq : q ∈ t.intents.rows) : q ∈ s.intents.rows ∨ q.id = i := by
  obtain ⟨-, -, budgets, -, rfl⟩ := admitIntent_ok h
  exact (Table.mem_insertOrIgnore hq).imp_right fun hq => by rw [hq]; rfl

theorem kept_admitted {r : OrderRequest} {i k : IntentId} (h : admitIntent cfg s r = .ok (i, t))
    (hk : (s.intents.get k).isSome) : (t.intents.get k).isSome := by
  obtain ⟨-, -, budgets, -, rfl⟩ := admitIntent_ok h
  obtain ⟨q, hq⟩ := Option.isSome_iff_exists.1 hk
  obtain ⟨hmem, hid⟩ := Table.get_eq_some.1 hq
  rw [Table.get_eq_some.2 ⟨Table.mem_insertOrIgnore_of_mem hmem, hid⟩]
  rfl

/-- An intent that a change of the intents leaves unsettled was unsettled. -/
theorem mem_update_intents {p : Intent → Bool} {f : Intent → Intent} (hf : ∀ q, (f q).id = q.id)
    (hu : ∀ q ∈ s.intents.rows, p q → (f q).unsettled → q.unsettled) {q' : Intent}
    (h : q' ∈ (s.intents.update p f hf).rows) (hu' : q'.unsettled) :
    ∃ q ∈ s.intents.rows, q.unsettled = true ∧ q.id = q'.id := by
  obtain ⟨q, hq, rfl⟩ := mem_updateRows.1 h
  refine ⟨q, hq, ?_⟩
  split
  · rename_i hp
    rw [if_pos hp] at hu'
    exact ⟨hu q hq hp hu', (hf q).symm⟩
  · rename_i hp
    rw [if_neg hp] at hu'
    exact ⟨hu', rfl⟩

theorem mem_recordOrder_intents {i : IntentId} {id : BrokerOrderId} {q' : Intent}
    (h : q' ∈ (s.recordOrder i id).intents.rows) (hu : q'.unsettled) : q' ∈ s.intents.rows ∧ q'.id ≠ i := by
  obtain ⟨q, hq, rfl⟩ := mem_updateRows.1 h
  by_cases hid : q.id = i
  · rw [if_pos (decide_eq_true hid)] at hu
    cases hu
  · rw [if_neg (by simpa using hid)]
    exact ⟨hq, hid⟩

theorem mem_recordOrder_iff {i : IntentId} {id : BrokerOrderId} {o' : Order} :
    o' ∈ (s.recordOrder i id).orders.rows ↔ (o' ∈ s.orders.rows ∧ o'.id ≠ id) ∨
      o' = { id, intentId := i, symbol := i.symbol, status := .submitted, filledQty := 0 } := by
  show o' ∈ (s.orders.upsert
      { id, intentId := i, symbol := i.symbol, status := .submitted, filledQty := 0 }
      (fun q => { id := q.id, intentId := i, symbol := i.symbol, status := .submitted, filledQty := 0 })
      fun _ => rfl).rows ↔ _
  exact Table.mem_upsert_of_replace fun x hx => by rw [hx]

theorem step_record (h : Single s) {i : IntentId} {q : Intent} (id : BrokerOrderId) (hq : s.intents.get i = some q)
    (hu : q.unsettled) : Step R s (s.recordOrder i id) := by
  obtain ⟨hmem, rfl⟩ := Table.get_eq_some.1 hq
  refine h.step_of_positions (by rfl) (by rfl) ?_ ?_ ?_
  · intro o' ho'
    rcases mem_recordOrder_iff.1 ho' with ⟨hold, -⟩ | rfl
    · exact ⟨h.orderSymbol o' hold, fun hl => .inl ⟨o', hold, hl, rfl⟩⟩
    · refine ⟨rfl, fun _ => .inr ⟨⟨q, hmem, hu, rfl⟩, fun q' hq' hid => ?_⟩⟩
      by_contra hu'
      rw [Bool.not_eq_false] at hu'
      exact (mem_recordOrder_intents hq' hu').2 hid
  · intro q' hq' hu' _
    exact ⟨q', (mem_recordOrder_intents hq' hu').1, hu', rfl⟩
  · intro k hk
    show ((s.setIntentStatus q.id .submitted).intents.get k).isSome
    rw [get_setIntentStatus, Option.isSome_map]
    exact hk

theorem step_admitSell (h : Single s) {r : OrderRequest} {i : IntentId} (hadm : admitIntent cfg s r = .ok (i, t))
    (hside : i.side = .sell) : Step R s t := by
  have hmem := fun q => mem_admitted hadm (q := q)
  have hkept := fun k => kept_admitted hadm (k := k)
  obtain ⟨-, -, budgets, -, rfl⟩ := admitIntent_ok hadm
  refine h.step_of_positions (by rfl) (by rfl) h.same_orders ?_ hkept
  intro q' hq' hu hbuy
  rcases hmem q' hq' with hold | hid
  · exact ⟨q', hold, hu, rfl⟩
  · rw [hid, hside] at hbuy
    cases hbuy

theorem step_unconfirmed (h : Single s) {id : BrokerOrderId}
    (hlive : ∀ o, s.orders.get id = some o → o.status.terminal = false) : Step R s (s.markUnconfirmed id) := by
  refine h.step_of_positions (by rfl) (by rfl) ?_ same_intents fun _ hk => hk
  · intro o' ho'
    obtain ⟨o, ho, rfl⟩ := mem_updateRows.1 ho'
    by_cases hid : o.id = id
    · rw [if_pos (decide_eq_true hid)]
      refine ⟨h.orderSymbol o ho, fun hl => .inl ⟨o, ho, ?_, rfl⟩⟩
      have hterminal := hlive o (Table.get_eq_some.2 ⟨ho, hid⟩)
      unfold Order.live at hl ⊢
      simp only [Bool.and_eq_true, decide_eq_true_eq] at hl
      simp [hterminal, hl.1]
    · rw [if_neg (by simpa using hid)]
      exact ⟨h.orderSymbol o ho, fun hl => .inl ⟨o, ho, hl, rfl⟩⟩

/-- A change of the positions that keeps what they grew to, and opens none. -/
theorem step_positions (h : Single s) {p : Position → Bool} {f : Position → Position} {hf : ∀ x, (f x).id = x.id}
    (hgrows : ∀ x ∈ s.positions.rows, p x → x.Grows R (f x)) (hopen : ∀ x, (f x).status = .opened → x.status = .opened) :
    Step R s { s with positions := s.positions.update p f hf } := by
  have hmap : ∀ x ∈ s.positions.rows, x.Grows R (if p x then f x else x) := by
    intro x hx
    split
    · exact hgrows x hx ‹_›
    · exact .refl R _
  have hstatus : ∀ x, (if p x then f x else x).status = .opened → x.status = .opened := by
    intro x hs
    split at hs
    · exact hopen x hs
    · exact hs
  constructor
  case positions =>
    intro p' hp'
    obtain ⟨x, hx, rfl⟩ := mem_updateRows.1 hp'
    exact .inl ⟨x, hx, hmap x hx, fun hs => .inl (hstatus x hs)⟩
  case kept => exact fun x hx => ⟨_, mem_updateRows.2 ⟨x, hx, rfl⟩, hmap x hx⟩
  case tracked => exact h.tracked
  case opened =>
    intro p' hp' hs
    obtain ⟨x, hx, rfl⟩ := mem_updateRows.1 hp'
    rw [(hmap x hx).symbol, (hmap x hx).id]
    exact h.opened x hx (hstatus x hs)
  case orders => exact h.same_orders
  case intents => exact same_intents
  case intentsKept => exact fun _ hk => hk

theorem step_trigger (h : Single s) (symbol : Symbol) (reason : ExitReason) :
    Step (fun p' => ∃ p, s.openPositionFor symbol = some p ∧ p' = { p with triggeredExitReason := some reason }) s
      (markExitTriggered s symbol reason) := by
  unfold markExitTriggered
  split
  · exact h.step_of_positions rfl rfl h.same_orders same_intents fun _ hk => hk
  rename_i p hp
  split
  · exact h.step_of_positions rfl rfl h.same_orders same_intents fun _ hk => hk
  rename_i hfirst
  have hmem := (h.openPositionFor_eq_some.1 hp).1
  apply step_positions h
  · intro x hx hid
    obtain rfl := s.positions.eq_of_key hx hmem (of_decide_eq_true hid)
    refine ⟨rfl, rfl, le_rfl, fun _ => rfl, .inr ⟨?_, x, hp, rfl⟩⟩
    simpa using hfirst
  · exact fun _ hs => hs

theorem step_report (h : Single s) (id : BrokerOrderId) (r : BrokerReport) : Step R s (applyBrokerUpdate s id r) := by
  have hsame : Step R s s := h.step_of_positions rfl rfl h.same_orders same_intents fun _ hk => hk
  unfold applyBrokerUpdate
  split
  · exact hsame
  rename_i o ho
  split
  · exact hsame
  · exact step_acceptUpdate h (Table.mem_of_get ho)

theorem Change.step (R : Position → Prop) (h : Single s) (hc : Change cfg s t) : Step R s t := by
  cases hc with
  | settings enabled killSwitch flags => exact h.step_of_positions rfl rfl h.same_orders same_intents fun _ hk => hk
  | admitSell hadm hside => exact step_admitSell h hadm hside
  | intents p f hf hu =>
    refine h.step_of_positions rfl rfl h.same_orders (fun q' hq' hu' _ => mem_update_intents hf hu hq' hu') fun k hk => ?_
    show ((s.intents.update p f hf).get k).isSome
    rw [Table.get_update, Option.isSome_map]
    exact hk
  | record id hq hu => exact step_record h id hq hu
  | report id r => exact step_report h id r
  | unconfirmed hlive => exact step_unconfirmed h hlive
  | close =>
    apply step_positions h
    · exact fun x _ _ => ⟨rfl, rfl, le_rfl, fun _ => rfl, .inl rfl⟩
    · exact fun _ hs => nomatch hs

end Changes

/-- A BUY is admitted next to nothing else of its symbol. -/
theorem Single.admitBuy (h : Single s) {r : OrderRequest} {i : IntentId} (hadm : admitIntent cfg s r = .ok (i, t))
    (hside : i.side = .buy) : Single t := by
  have hmem := fun q => mem_admitted hadm (q := q)
  have hkept := fun k => kept_admitted hadm (k := k)
  obtain ⟨hwell, -, budgets, hguards, rfl⟩ := admitIntent_ok hadm
  obtain ⟨hsym, -, -⟩ := wellFormed_ok hwell
  rw [guards, hside] at hguards
  obtain ⟨hflat, hpending, -⟩ := buyGuards_ok hguards
  rw [← hsym] at hflat hpending
  have hnoOpen : ∀ p ∈ s.positions.rows, p.status = .opened → p.symbol ≠ i.symbol := by
    intro p hp hopen hs
    rw [h.openPositionFor_eq_some.2 ⟨hp, hopen, hs⟩] at hflat
    cases hflat
  simp only [LifecycleState.entryStillPendingOrUncertain, Bool.or_eq_false_iff, Bool.not_eq_false',
    List.isEmpty_iff] at hpending
  obtain ⟨⟨horders, huncertain⟩, hintents⟩ := hpending
  have hnoLive : ∀ o ∈ s.orders.rows, o.live → o.symbol ≠ i.symbol := by
    intro o ho hl hs
    obtain ⟨q, hq⟩ := Option.isSome_iff_exists.1 (h.filed o ho hl)
    have hmem := List.filter_eq_nil_iff.1 horders o ho
    unfold Order.live at hl
    simp only [Bool.and_eq_true, Bool.not_eq_true', decide_eq_true_eq] at hl
    simp [hs, hl.2, LifecycleState.sideIs, hq, Table.key_of_get hq, hl.1] at hmem
  have hnone : ∀ q ∈ s.intents.rows, q.unsettled → q.id.side = .buy → q.id.symbol ≠ i.symbol := by
    intro q hq hu hbuy hs
    have h₁ := List.filter_eq_nil_iff.1 huncertain q hq
    have h₂ := List.filter_eq_nil_iff.1 hintents q hq
    simp only [Intent.unsettled, Bool.or_eq_true, decide_eq_true_eq] at hu
    rcases hu with hu | hu
    · simp [hu, hbuy, hs] at h₂
    · simp [hu, hbuy, hs] at h₁
  constructor
  case orderSymbol => exact h.orderSymbol
  case entry => exact h.entry
  case tracked => exact h.tracked
  case opened => exact h.opened
  case own => exact h.own
  case filed => exact fun o ho hl => hkept _ (h.filed o ho hl)
  case one => exact h.one
  case alone =>
    intro q' hq' hu hbuy
    rcases hmem q' hq' with hold | hid
    · obtain ⟨h₁, h₂, h₃⟩ := h.alone q' hold hu hbuy
      refine ⟨h₁, h₂, fun q'' hq'' hu'' hbuy'' hs => ?_⟩
      rcases hmem q'' hq'' with hold' | hid'
      · exact h₃ q'' hold' hu'' hbuy'' hs
      · exact absurd (by rw [← hs, hid']) (hnone q' hold hu hbuy)
    · rw [hid]
      refine ⟨hnoOpen, hnoLive, fun q'' hq'' hu'' hbuy'' hs => ?_⟩
      rcases hmem q'' hq'' with hold' | hid'
      · exact absurd hs (hnone q'' hold' hu'' hbuy'')
      · exact hid'

/-! ## Operations are changes -/

abbrev Changes (cfg : Config) : LifecycleState → LifecycleState → Prop := Relation.ReflTransGen (Change cfg)

theorem Single.changes (h : Single s) (hc : Changes cfg s t) : Single t := by
  induction hc with
  | refl => exact h
  | tail _ hc ih => exact ih.step (hc.step (fun _ => False) ih)

section Operations

variable {now : Instant} {reads : Reads} {id : BrokerOrderId} {i : IntentId}

theorem changes_refreshOrder {row : Option OrderRow} : Changes cfg s (refreshOrder s id row) := by
  unfold refreshOrder
  split
  · exact .refl
  · exact Relation.ReflTransGen.single (.report _ _)

theorem changes_refreshAll {read : BrokerOrderId → Option OrderRow} {ids : List BrokerOrderId} :
    Changes cfg s (refreshAll read s ids) := by
  induction ids generalizing s with
  | nil => exact .refl
  | cons id ids ih => exact changes_refreshOrder.trans ih

theorem changes_promote : Changes cfg s (promoteOrphanOrderIntents s) := by
  apply Relation.ReflTransGen.single
  apply Change.intents
  intro q _ hp _
  simp only [Bool.and_eq_true, decide_eq_true_eq] at hp
  simp [Intent.unsettled, hp.1]

theorem changes_updateIntent {f : Intent → Intent} {hf : ∀ q, (f q).id = q.id} (h : ∀ q, (f q).status = q.status) :
    Changes cfg s (s.updateIntent i f hf) := by
  apply Relation.ReflTransGen.single
  apply Change.intents
  intro q _ _ hu
  unfold Intent.unsettled at hu ⊢
  rw [← h q]
  exact hu

/-- The lookup of a submission that is unsettled. -/
theorem changes_lookupSubmission {answer : LookupAnswer} {q : Intent} (hq : s.intents.get i = some q)
    (hu : q.unsettled = true) : Changes cfg s (lookupSubmission s i now answer) := by
  unfold lookupSubmission
  split
  · exact changes_updateIntent fun _ => rfl
  · exact changes_updateIntent fun _ => rfl
  · split
    · let f : Intent → Intent := fun q => { q with notFoundConfirmations := 0, lastUncertainCheckAt := none }
      have hget : (s.updateIntent i f fun _ => rfl).intents.get i = some (f q) := by
        rw [get_updateIntent, hq, Option.map_some, if_pos (decide_eq_true (Table.key_of_get hq))]
      have hcleared : Changes cfg s (s.updateIntent i f fun _ => rfl) := changes_updateIntent fun _ => rfl
      exact hcleared.tail (.record _ hget hu)
    · exact changes_updateIntent fun _ => rfl

theorem changes_lookupIfDue {lookup : IntentId → LookupAnswer} {q : Intent} (hq : s.intents.get i = some q)
    (hu : q.unsettled = true) : Changes cfg s (lookupIfDue lookup now s i) := by
  unfold lookupIfDue
  split
  · unfold resolveUncertainSubmission
    split
    · split
      · exact (changes_lookupSubmission hq hu).trans changes_refreshOrder
      · exact changes_lookupSubmission hq hu
    · exact changes_lookupSubmission hq hu
  · exact .refl

theorem changes_lookups {lookup : IntentId → LookupAnswer} {ids : List IntentId} (hn : ids.Nodup)
    (hids : ∀ i ∈ ids, (s.intents.get i).map (·.status) = some .submitFailedUncertain) :
    Changes cfg s (ids.foldl (lookupIfDue lookup now) s) := by
  induction ids generalizing s with
  | nil => exact .refl
  | cons i ids ih =>
    obtain ⟨hnew, hn'⟩ := List.nodup_cons.1 hn
    obtain ⟨q, hq, hstatus⟩ := Option.map_eq_some_iff.1 (hids i List.mem_cons_self)
    refine (changes_lookupIfDue hq (by simp [Intent.unsettled, hstatus])).trans (ih hn' ?_)
    intro j hj
    have hne : j ≠ i := fun hij => hnew (by rw [← hij]; exact hj)
    rw [lookupIfDue_of_ne hne]
    exact hids j (List.mem_cons_of_mem _ hj)

/-- A reconcile is a sequence of changes, whatever the broker answers. -/
theorem changes_reconcile : Changes cfg s (reconcile s now reads).1 := by
  have hresolved : Changes cfg s (resolveUnconfirmedOrders s reads.unconfirmed) := changes_refreshAll
  have hpromoted := hresolved.trans changes_promote
  have hlookups : Changes cfg s (beforeRefresh s now reads) :=
    hpromoted.trans (changes_lookups (nodup_uncertainIds _) fun _ => status_of_mem_uncertainIds)
  have hrefreshed : Changes cfg s (refreshNonTerminalOrders (beforeRefresh s now reads) reads.refresh) :=
    hlookups.trans changes_refreshAll
  exact hrefreshed.tail (.settings _ _ _)

/-- A report that is not terminal leaves a live order live. -/
theorem live_pollRead {seen : StatusText} {r : BrokerReport}
    (hlive : ∀ o, s.orders.get id = some o → o.status.terminal = false) (hr : r.status.terminal = false) :
    ∀ o, (pollRead s id seen r).orders.get id = some o → o.status.terminal = false := by
  unfold pollRead
  split
  · unfold applyBrokerUpdate
    split
    · exact hlive
    rename_i order horder
    split
    · exact hlive
    rename_i u hu
    intro o ho
    rw [orders_acceptUpdate, hlive order horder, if_neg Bool.false_ne_true] at ho
    obtain ⟨hmem, hid⟩ := Table.get_eq_some.1 ho
    rcases (mem_updateOrder (Table.mem_of_get horder)).1 hmem with ⟨-, hne⟩ | rfl
    · exact absurd (by rw [hid, Table.key_of_get horder]) hne
    · have hstatus : r.status = .known u.status := by
        unfold validateBrokerUpdate at hu
        split at hu
        · rename_i status _ _ hknown _ _
          split at hu
          · cases hu
          split at hu
          · cases hu
          obtain rfl := Option.some.inj hu
          exact hknown
        · cases hu
      rw [hstatus] at hr
      exact hr
  · exact hlive

/-- A poll of an order that is not terminal on file. -/
theorem changes_pollRounds {seen : StatusText} {atEnd : PollEnd} {rows : List OrderRow}
    (hlive : ∀ o, s.orders.get id = some o → o.status.terminal = false) :
    Changes cfg s (pollRounds s id seen atEnd rows) := by
  induction rows generalizing s seen with
  | nil =>
    unfold pollRounds
    split
    · exact Relation.ReflTransGen.single (.unconfirmed hlive)
    · exact .refl
  | cons row rows ih =>
    have hread : ∀ r : BrokerReport, Changes cfg s (pollRead s id seen r) := by
      intro r
      unfold pollRead
      split
      · exact Relation.ReflTransGen.single (.report _ _)
      · exact .refl
    unfold pollRounds
    split
    · exact .refl
    rename_i r _
    split
    · exact hread r
    · rename_i hterminal
      exact (hread r).trans (ih (live_pollRead hlive (Bool.eq_false_of_not_eq_true hterminal)))

end Operations

end TalonX.Piv
