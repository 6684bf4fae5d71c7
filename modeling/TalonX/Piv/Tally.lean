import TalonX.Piv.Holdings

/-!
# What is on file of a position, against its fills

A report carries the cumulative quantity of its order and the average price of it, and the lifecycle prices the new
shares of the report at that average.

- `Tape`: what the first shares of an order came to at the prices of their fills; `Traded`: a world with the proceeds of
  the SELL fills of every position; `cost`: what its BUY fills came to;
- `Clean`: the reports that the accounting takes in exactly;
- `Quiet`: what changes no quantity;
- `Tally`: what is on file of every position, against its proceeds;
- `Tally.applySellFill`, `Tally.applyBuyFill`, `Tally.acceptUpdate`: a clean report keeps it.
-/

set_option autoImplicit false

namespace TalonX.Piv

open Transact V2 World

/-! ## Prices and proceeds -/

/-- What the first shares of every order came to, at the prices of their fills. -/
structure Tape where
  value : BrokerOrderId → ℚ → ℚ
  nothing : ∀ id, value id 0 = 0

/-- The `filled_avg_price` of an order with `q` shares filled. -/
def Tape.average (V : Tape) (id : BrokerOrderId) (q : ℚ) : ℚ := V.value id q / q

/-- The cumulative quantity of a report. -/
def BrokerReport.quantity? (r : BrokerReport) : Option ℚ :=
  match r.filledQty with
  | .finite q => some q
  | _ => none

theorem BrokerReport.mem_quantity? {r : BrokerReport} {q : ℚ} : q ∈ r.quantity? ↔ r.filledQty = .finite q := by
  unfold quantity?
  cases r.filledQty <;> simp

/-- The report carries the average price of its cumulative quantity. -/
def Tape.Prices (V : Tape) (id : BrokerOrderId) (r : BrokerReport) : Prop :=
  ∀ q ∈ r.quantity?, 0 < q → r.fillPrice = some (.finite (V.average id q))

instance (V : Tape) (id : BrokerOrderId) (r : BrokerReport) : Decidable (V.Prices id r) :=
  inferInstanceAs (Decidable (∀ q ∈ r.quantity?, _))

/-- A world, and what the reported SELL fills of every position came to. -/
structure Traded where
  world : World := {}
  proceeds : PositionId → ℚ := fun _ => 0

/-- The proceeds after a report: the new shares of a SELL order were sold for the position that is tracked. -/
def credit (V : Tape) (t : Traded) (id : BrokerOrderId) (r : BrokerReport) : PositionId → ℚ :=
  match t.world.state.orders.get id, r.quantity? with
  | some o, some q =>
    match o.intentId.side, t.world.state.openPositionBySymbol o.symbol with
    | .sell, some k => Function.update t.proceeds k
        (t.proceeds k + (V.value id (max (t.world.reported id) q) - V.value id (t.world.reported id)))
    | _, _ => t.proceeds
  | _, _ => t.proceeds

namespace Traded

def next (cfg : Config) (V : Tape) (t : Traded) (e : Event) : Option Traded :=
  (t.world.next cfg e).map fun w =>
    ⟨w, match e with
      | .update id r => credit V t id r
      | .pollRead id _ r => credit V t id r
      | _ => t.proceeds⟩

/-- The events one after the other, as long as they meet the condition. -/
def runWhile (cfg : Config) (V : Tape) (ok : Traded → Event → Prop) [∀ t e, Decidable (ok t e)] :
    Traded → List Event → Option Traded
  | t, [] => some t
  | t, e :: es => if ok t e then (t.next cfg V e).bind fun t' => runWhile cfg V ok t' es else none

/-- What the reported BUY fills of a position came to. -/
def cost (V : Tape) (t : Traded) (p : Position) : ℚ :=
  sumWhere (fun o : Order => o.intentId = p.id.entry) (fun o => V.value o.id (t.world.reported o.id))
    t.world.state.orders.rows

end Traded

/-- The runs whose events all meet the condition where they happen. -/
inductive TradedReach (cfg : Config) (V : Tape) (ok : Traded → Event → Prop) : Traded → Prop
  | start : TradedReach cfg V ok {}
  | step {t t' : Traded} {e : Event} : TradedReach cfg V ok t → ok t e → t.next cfg V e = some t' →
    TradedReach cfg V ok t'

theorem TradedReach.of_runWhile {cfg : Config} {V : Tape} {ok : Traded → Event → Prop} [∀ t e, Decidable (ok t e)]
    {es : List Event} : ∀ {t t' : Traded}, TradedReach cfg V ok t → t.runWhile cfg V ok es = some t' →
      TradedReach cfg V ok t' := by
  induction es with
  | nil =>
    intro t t' ht h
    obtain rfl := Option.some.inj h
    exact ht
  | cons e es ih =>
    intro t t' ht h
    unfold Traded.runWhile at h
    split at h
    · rename_i hok
      obtain ⟨t₁, h₁, h₂⟩ := Option.bind_eq_some_iff.1 h
      exact ih (ht.step hok h₁) h₂
    · cases h

/-! ## Clean reports -/

/-- The fills between two quantities leave the average price of the order as it was. -/
def Tape.Steady (V : Tape) (id : BrokerOrderId) (p q : ℚ) : Prop := V.average id q = V.average id p

/-- Nothing, or more than the tolerance. -/
def Whole (q : ℚ) : Prop := q = 0 ∨ shareTolerance < q

/-- New shares of a SELL order: they are held, what they leave is not within the tolerance, and they fetch the average
of the earlier ones. -/
def CleanSell (V : Tape) (s : LifecycleState) (o : Order) (q : ℚ) : Prop :=
  ∃ p ∈ (s.openPositionBySymbol o.symbol).bind s.positions.get, q - o.filledQty ≤ p.remainingQuantity ∧
    Whole (p.remainingQuantity - (q - o.filledQty)) ∧ (0 < o.filledQty → V.Steady o.id o.filledQty q)

/-- New shares of a BUY order: they are more than the tolerance, and after an exit they cost the average of the
earlier ones. -/
def CleanBuy (V : Tape) (s : LifecycleState) (o : Order) (q : ℚ) : Prop :=
  shareTolerance < q - o.filledQty ∧
    ∀ p ∈ s.positions.get ⟨o.intentId⟩, 0 < p.exitQuantity → V.Steady o.id o.filledQty q

def StatusText.isFill : StatusText → Bool
  | .known status => status.isFill
  | _ => false

/-- A report whose new shares, if it has any, come under a fill status and are clean. -/
def Clean (V : Tape) (s : LifecycleState) (id : BrokerOrderId) (r : BrokerReport) : Prop :=
  ∀ o ∈ s.orders.get id, ∀ q ∈ r.quantity?, o.filledQty < q → r.status.isFill = true ∧
    (o.intentId.side = .sell → CleanSell V s o q) ∧ (o.intentId.side = .buy → CleanBuy V s o q)

/-- Every report is clean, and a poll drops no new shares. -/
def Exact (V : Tape) (t : Traded) : Event → Prop
  | .update id r => Clean V t.world.state id r
  | .pollRead id seen r =>
    (r.status = seen → NoNews t.world.state id r) ∧ (r.status ≠ seen → Clean V t.world.state id r)
  | _ => True

/-- Every report carries its cumulative average price. -/
def Event.Priced (V : Tape) : Event → Prop
  | .update id r => V.Prices id r
  | .pollRead id _ r => V.Prices id r
  | _ => True

section Decidable

variable (V : Tape) (s : LifecycleState) (o : Order) (q : ℚ) (id : BrokerOrderId) (r : BrokerReport)

instance : Decidable (Whole q) := inferInstanceAs (Decidable (_ ∨ _))

instance (p : ℚ) : Decidable (V.Steady id p q) := inferInstanceAs (Decidable (_ = _))

instance : Decidable (CleanSell V s o q) := inferInstanceAs (Decidable (∃ p ∈ Option.bind _ _, _))

instance : Decidable (CleanBuy V s o q) := inferInstanceAs (Decidable (_ ∧ ∀ p ∈ Table.get _ _, _))

instance : Decidable (Clean V s id r) := inferInstanceAs (Decidable (∀ o ∈ s.orders.get id, ∀ q ∈ r.quantity?, _))

instance : Decidable (NoNews s id r) :=
  decidable_of_iff (∀ o ∈ s.orders.get id, ∀ q ∈ r.quantity?, q ≤ o.filledQty)
    ⟨fun h o ho q hq => h o ho q (BrokerReport.mem_quantity?.2 hq),
      fun h o ho q hq => h o ho q (BrokerReport.mem_quantity?.1 hq)⟩

instance (t : Traded) : (e : Event) → Decidable (Exact V t e)
  | .update _ _ => inferInstanceAs (Decidable (Clean _ _ _ _))
  | .pollRead _ seen r => inferInstanceAs (Decidable ((r.status = seen → _) ∧ (r.status ≠ seen → _)))
  | .session _ _ | .order _ _ | .broker _ _ | .pollTimeout _ | .promote | .lookup _ _ _ | .resolve _ | .verdict _
  | .trigger _ _ => isTrue trivial

instance : (e : Event) → Decidable (e.Priced V)
  | .update _ _ | .pollRead _ _ _ => inferInstanceAs (Decidable (V.Prices _ _))
  | .session _ _ | .order _ _ | .broker _ _ | .pollTimeout _ | .promote | .lookup _ _ _ | .resolve _ | .verdict _
  | .trigger _ _ => isTrue trivial

end Decidable

/-! ## Positions against their proceeds -/

variable {cfg : Config} {w : World} {V : Tape} {s s' : LifecycleState} {P : PositionId → ℚ} {o : Order} {p : Position}
  {upd : Update} {d m : ℚ}

structure Position.Tallied (V : Tape) (s : LifecycleState) (P : PositionId → ℚ) (p : Position) : Prop where
  order : ∃ o ∈ s.orders.rows, o.intentId = p.id.entry ∧ o.filledQty = p.quantity ∧
    p.price = some (V.average o.id p.quantity)
  positive : 0 < p.quantity
  rest : p.remainingQuantity = p.quantity - p.exitQuantity
  exits : 0 ≤ p.exitQuantity
  whole : Whole p.remainingQuantity
  closed : p.status = .closed → p.remainingQuantity = 0
  gross : ∀ e, p.price = some e → p.grossPnl.getD 0 = P p.id - e * p.exitQuantity
  booked : 0 < p.exitQuantity → p.grossPnl.isSome

structure Tally (V : Tape) (s : LifecycleState) (P : PositionId → ℚ) : Prop where
  position : ∀ p ∈ s.positions.rows, p.Tallied V s P
  side : ∀ p ∈ s.positions.rows, p.id.entry.side = .buy
  entry : ∀ o ∈ s.orders.rows, o.intentId.side = .buy → 0 < o.filledQty →
    ∃ p ∈ s.positions.rows, p.id.entry = o.intentId
  idle : ∀ k, s.positions.get k = none → P k = 0

theorem Whole.nonneg {q : ℚ} (h : Whole q) : 0 ≤ q := by
  rcases h with rfl | h
  · exact le_rfl
  · exact shareTolerance_pos.le.trans h.le

theorem Whole.eq_zero {q : ℚ} (h : Whole q) (hq : q ≤ shareTolerance) : q = 0 :=
  h.resolve_right (not_lt.2 hq)

/-- A position keeps its tally as long as its order has the same quantity on file. -/
theorem Position.Tallied.mono (h : p.Tallied V s P) {P' : PositionId → ℚ} (hP : P' p.id = P p.id)
    (ho : ∀ o ∈ s.orders.rows, o.intentId = p.id.entry →
      ∃ o' ∈ s'.orders.rows, o'.id = o.id ∧ o'.intentId = o.intentId ∧ o'.filledQty = o.filledQty) :
    p.Tallied V s' P' :=
  { h with
    order := by
      obtain ⟨o, hom, hi, hf, hprice⟩ := h.order
      obtain ⟨o', ho', hid, hi', hf'⟩ := ho o hom hi
      exact ⟨o', ho', hi'.trans hi, hf'.trans hf, by rw [hid, hprice]⟩
    gross := fun e he => by rw [hP, h.gross e he] }

/-- The quantities stay: only the reason of an exit changes in the positions, and a new order has nothing filled. -/
structure Quiet (s s' : LifecycleState) : Prop where
  positions : ∀ p' ∈ s'.positions.rows, ∃ p ∈ s.positions.rows, ∃ r, p' = { p with triggeredExitReason := r }
  kept : ∀ p ∈ s.positions.rows, ∃ p' ∈ s'.positions.rows, p'.id = p.id
  orders : ∀ o ∈ s.orders.rows,
    ∃ o' ∈ s'.orders.rows, o'.id = o.id ∧ o'.intentId = o.intentId ∧ o'.filledQty = o.filledQty
  came : ∀ o' ∈ s'.orders.rows, 0 < o'.filledQty → ∃ o ∈ s.orders.rows, o.intentId = o'.intentId ∧ 0 < o.filledQty

namespace Quiet

theorem of_orders (hp : s'.positions = s.positions)
    (ho : ∀ o ∈ s.orders.rows,
      ∃ o' ∈ s'.orders.rows, o'.id = o.id ∧ o'.intentId = o.intentId ∧ o'.filledQty = o.filledQty)
    (hback : ∀ o' ∈ s'.orders.rows, 0 < o'.filledQty →
      ∃ o ∈ s.orders.rows, o.intentId = o'.intentId ∧ 0 < o.filledQty) : Quiet s s' where
  positions p hpm := ⟨p, hp ▸ hpm, p.triggeredExitReason, rfl⟩
  kept p hpm := ⟨p, hp.symm ▸ hpm, rfl⟩
  orders := ho
  came := hback

theorem of_eq (hp : s'.positions = s.positions) (ho : s'.orders = s.orders) : Quiet s s' :=
  of_orders hp (fun o hom => ⟨o, ho.symm ▸ hom, rfl, rfl, rfl⟩) fun o hom hf => ⟨o, ho ▸ hom, rfl, hf⟩

/-- A new order is put on file, with nothing filled. -/
theorem putOrder {o : Order} (hp : s'.positions = s.positions) (ho : s'.orders = s.orders)
    (hnew : s.orders.get o.id = none) (hzero : o.filledQty = 0) : Quiet s (s'.putOrder o) := by
  have hmem : ∀ q, q ∈ (s'.putOrder o).orders.rows ↔ (q ∈ s'.orders.rows ∧ q.id ≠ o.id) ∨ q = o := fun q =>
    Table.mem_upsert_of_replace fun x hx => by rw [hx]
  refine of_orders hp (fun q hq => ⟨q, (hmem q).2 (.inl ⟨ho.symm ▸ hq, ?_⟩), rfl, rfl, rfl⟩) fun q hq hf => ?_
  · exact Table.get_eq_none.1 hnew q hq
  · rcases (hmem q).1 hq with ⟨hq, -⟩ | rfl
    · exact ⟨q, ho ▸ hq, rfl, hf⟩
    · rw [hzero] at hf
      exact absurd hf (lt_irrefl _)

/-- A request that is admitted, and what becomes of it. -/
theorem order (hw : Placed w) {r : OrderRequest} {i : IntentId} {sub : Submission} {t : Table BrokerOrder.id}
    (hadm : admitIntent cfg w.state r = .ok (i, s')) (htruth : sub.truthful = true) (ht : w.receive i sub = some t) :
    Quiet w.state (sub.answer.elim s' (recordSubmission s' i)) := by
  obtain ⟨-, -, budgets, -, rfl⟩ := admitIntent_ok hadm
  cases hans : sub.answer with
  | none => exact of_eq rfl rfl
  | some answer =>
    cases answer with
    | raised => exact of_eq rfl rfl
    | answered id =>
      simp only [Option.elim, recordSubmission]
      split
      · exact of_eq rfl rfl
      · rename_i hid
        unfold Submission.truthful at htruth
        simp only [hans, hid, decide_false, Bool.false_or, Bool.and_eq_true, decide_eq_true_eq] at htruth
        unfold World.receive at ht
        rw [htruth.2] at ht
        obtain ⟨-, hfresh⟩ := Table.insert?_eq_some ht
        refine putOrder rfl rfl (Table.get_eq_none.2 fun o ho e => ?_) rfl
        obtain ⟨b, hb, hm⟩ := hw.matched o ho
        exact hfresh b hb (hm.id.trans e)

/-- The answer to a lookup of an uncertain submission. -/
theorem lookup (hw : Placed w) {i : IntentId} {now : Instant} {answer : LookupAnswer} {q : Intent}
    (hq : w.state.intents.get i = some q) (hst : q.status = .submitFailedUncertain)
    (htold : w.tellsLookup i answer = true) : Quiet w.state (lookupSubmission w.state i now answer) := by
  cases answer with
  | raised => exact of_eq rfl rfl
  | notFound => exact of_eq rfl rfl
  | found row =>
    simp only [lookupSubmission]
    split
    · rename_i hmatch
      unfold World.tellsLookup at htold
      simp only [hmatch.1, Bool.not_true, Bool.false_or] at htold
      obtain ⟨b, hget, hb⟩ := (Option.any_eq_true _ _).1 htold
      -- an uncertain intent has no order on file
      refine putOrder rfl rfl (Table.get_eq_none.2 fun o ho e => ?_) rfl
      obtain ⟨c, hc, hm⟩ := hw.matched o ho
      obtain rfl := w.broker.eq_of_key hc (Table.mem_of_get hget)
        (hm.id.trans (e.trans (Table.key_of_get hget).symm))
      obtain ⟨q', hq', hsub⟩ := hw.intent o ho
      rw [← hm.intent, of_decide_eq_true hb, hq] at hq'
      obtain rfl := Option.some.inj hq'
      rw [hst] at hsub
      cases hsub
    · exact of_eq rfl rfl

theorem markUnconfirmed (id : BrokerOrderId) : Quiet s (s.markUnconfirmed id) := by
  refine of_orders rfl (fun o ho => ⟨_, mem_updateRows.2 ⟨o, ho, rfl⟩, ?_⟩) fun o ho hf => ?_
  · split <;> exact ⟨rfl, rfl, rfl⟩
  · obtain ⟨q, hq, rfl⟩ := mem_updateRows.1 ho
    refine ⟨q, hq, ?_⟩
    split at hf <;> rename_i hid
    · exact ⟨by rw [if_pos hid], hf⟩
    · exact ⟨by rw [if_neg hid], hf⟩

theorem markExitTriggered (symbol : Symbol) (reason : ExitReason) : Quiet s (markExitTriggered s symbol reason) := by
  unfold Piv.markExitTriggered
  split
  · exact of_eq rfl rfl
  · split
    · exact of_eq rfl rfl
    · constructor
      · intro p' hp'
        obtain ⟨p, hp, rfl⟩ := mem_updateRows.1 hp'
        refine ⟨p, hp, ?_⟩
        split
        · exact ⟨some reason, rfl⟩
        · exact ⟨p.triggeredExitReason, rfl⟩
      · intro p hp
        refine ⟨_, mem_updateRows.2 ⟨p, hp, rfl⟩, ?_⟩
        split <;> rfl
      · exact fun o ho => ⟨o, ho, rfl, rfl, rfl⟩
      · exact fun o ho hf => ⟨o, ho, rfl, hf⟩

end Quiet

theorem Tally.quiet (h : Tally V s P) (hq : Quiet s s') : Tally V s' P where
  position p' hp' := by
    obtain ⟨p, hp, r, rfl⟩ := hq.positions p' hp'
    have := h.position p hp
    exact
      { order := (@Position.Tallied.mono _ _ s' _ _ this P rfl fun o hom _ => hq.orders o hom).order
        positive := this.positive
        rest := this.rest
        exits := this.exits
        whole := this.whole
        closed := this.closed
        gross := this.gross
        booked := this.booked }
  side p' hp' := by
    obtain ⟨p, hp, r, rfl⟩ := hq.positions p' hp'
    exact h.side p hp
  entry o' ho' hside hpos' := by
    obtain ⟨o, hom, hi, hf⟩ := hq.came o' ho' hpos'
    obtain ⟨p, hp, he⟩ := h.entry o hom (hi ▸ hside) hf
    obtain ⟨p', hp', hid⟩ := hq.kept p hp
    exact ⟨p', hp', by rw [hid, he, hi]⟩
  idle k hk := by
    refine h.idle k (Table.get_eq_none.2 fun p hp e => ?_)
    obtain ⟨p', hp', hid⟩ := hq.kept p hp
    exact Table.get_eq_none.1 hk p' hp' (hid.trans e)

/-! ## Reports without new shares -/

/-- An order keeps its quantity when another order takes over a report, or nothing new is reported. -/
theorem keeps_updateOrder (ho : o ∈ s.orders.rows) {q : Order} (hq : q ∈ s.orders.rows)
    (h : q.intentId ≠ o.intentId ∨ upd.filledQty ≤ o.filledQty) :
    ∃ q' ∈ (s.updateOrder o.id upd).orders.rows, q'.id = q.id ∧ q'.intentId = q.intentId ∧ q'.filledQty = q.filledQty := by
  by_cases hqo : q.id = o.id
  · obtain rfl := s.orders.eq_of_key hq ho hqo
    have hle : upd.filledQty ≤ q.filledQty := h.resolve_left fun hne => hne rfl
    exact ⟨q.report upd, (mem_updateOrder ho).2 (.inr rfl), rfl, rfl, max_eq_left hle⟩
  · exact ⟨q, (mem_updateOrder ho).2 (.inl ⟨hq, hqo⟩), rfl, rfl, rfl⟩

/-- Where an order on file comes from, when nothing new is reported. -/
theorem came_updateOrder (ho : o ∈ s.orders.rows) (hle : upd.filledQty ≤ o.filledQty) {q' : Order}
    (hq' : q' ∈ (s.updateOrder o.id upd).orders.rows) (hpos : 0 < q'.filledQty) :
    ∃ q ∈ s.orders.rows, q.intentId = q'.intentId ∧ 0 < q.filledQty := by
  rcases (mem_updateOrder ho).1 hq' with ⟨hq, -⟩ | rfl
  · exact ⟨q', hq, rfl, hpos⟩
  · refine ⟨o, ho, rfl, ?_⟩
    rwa [← max_eq_left hle]

theorem Tally.of_no_news (h : Tally V s P) (ho : o ∈ s.orders.rows) (hle : upd.filledQty ≤ o.filledQty) :
    Tally V (s.updateOrder o.id upd) P :=
  h.quiet (.of_orders rfl (fun _ hq => keeps_updateOrder ho hq (.inr hle)) fun _ hq' hpos =>
    came_updateOrder ho hle hq' hpos)

/-! ## SELL fills -/

/-- The money of the new shares of a report. -/
def sold (V : Tape) (o : Order) (q : ℚ) : ℚ := V.value o.id (max o.filledQty q) - V.value o.id o.filledQty

theorem sold_of_le {q : ℚ} (h : q ≤ o.filledQty) : sold V o q = 0 := by
  rw [sold, max_eq_left h, sub_self]

/-- Steady prices: the new shares fetch the average of all. -/
theorem sold_of_steady {q : ℚ} (h0 : 0 ≤ o.filledQty) (h : o.filledQty < q)
    (hs : 0 < o.filledQty → V.Steady o.id o.filledQty q) : sold V o q = V.average o.id q * (q - o.filledQty) := by
  have hq : q ≠ 0 := (h0.trans_lt h).ne'
  have hvalue : V.value o.id q = V.average o.id q * q := by
    rw [Tape.average, div_mul_cancel₀ _ hq]
  rw [sold, max_eq_right h.le]
  rcases h0.eq_or_lt with hz | hpos
  · rw [← hz, V.nothing, hvalue, sub_zero, sub_zero]
  · have hold : V.value o.id o.filledQty = V.average o.id q * o.filledQty := by
      rw [hs hpos, Tape.average, div_mul_cancel₀ _ hpos.ne']
    rw [hvalue, hold]
    ring

section Exit

variable {filledQty : ℚ} {fillPrice : Option ℚ}

theorem Position.Tallied.remaining_exit (hp : p.Tallied V s P) (hd : d ≤ p.remainingQuantity) :
    (p.exit filledQty d fillPrice).remainingQuantity = p.remainingQuantity - d := by
  have hrest := hp.rest
  show max 0 ((if p.quantity = 0 then filledQty else p.quantity) - (p.exitQuantity + d)) = _
  rw [if_neg hp.positive.ne', max_eq_right (by linarith)]
  linarith

/-- A covered exit adds the money of the shares, `m`, to the proceeds. -/
theorem Position.Tallied.exit (hp : p.Tallied V s P) (hd0 : 0 ≤ d) (hd : d ≤ p.remainingQuantity)
    (hw : Whole (p.remainingQuantity - d)) (hm : (d = 0 ∧ m = 0) ∨ ∃ fp, fillPrice = some fp ∧ m = fp * d)
    (ho : ∀ o ∈ s.orders.rows, o.intentId = p.id.entry →
      ∃ o' ∈ s'.orders.rows, o'.id = o.id ∧ o'.intentId = o.intentId ∧ o'.filledQty = o.filledQty) :
    (p.exit filledQty d fillPrice).Tallied V s' (Function.update P p.id (P p.id + m)) := by
  obtain ⟨o, hom, hi, hf, hprice⟩ := hp.order
  obtain ⟨o', ho', hid, hi', hf'⟩ := ho o hom hi
  have hrem := @Position.Tallied.remaining_exit _ _ _ _ _ filledQty fillPrice hp hd
  have hgross : (p.exit filledQty d fillPrice).grossPnl =
      ((realisedPnl fillPrice p.price d).map (p.grossPnl.getD 0 + ·)).or p.grossPnl := rfl
  constructor
  case order => exact ⟨o', ho', hi'.trans hi, hf'.trans hf, by rw [hid]; exact hprice⟩
  case positive => exact hp.positive
  case rest =>
    rw [hrem]
    show p.remainingQuantity - d = p.quantity - (p.exitQuantity + d)
    linarith [hp.rest]
  case exits => exact add_nonneg hp.exits hd0
  case whole => rwa [hrem]
  case closed =>
    intro hclosed
    have hstatus : (p.exit filledQty d fillPrice).status =
        if (p.exit filledQty d fillPrice).remainingQuantity ≤ shareTolerance then .closed else p.status := rfl
    rw [hstatus, hrem] at hclosed
    rw [hrem]
    split at hclosed
    · rename_i hle
      exact hw.eq_zero hle
    · -- a closed position has nothing left to sell
      have := hp.closed hclosed
      linarith
  case gross =>
    intro e he
    have hprice' : p.price = some e := he
    have hold := hp.gross e hprice'
    show _ = Function.update P p.id (P p.id + m) p.id - e * (p.exitQuantity + d)
    rw [Function.update_self, hgross, hprice']
    rcases hm with ⟨rfl, rfl⟩ | ⟨fp, rfl, rfl⟩
    · cases fillPrice with
      | none => simpa [realisedPnl] using hold
      | some fp => simpa [realisedPnl] using hold
    · show p.grossPnl.getD 0 + (fp - e) * d = _
      rw [hold]
      ring
  case booked =>
    intro hpos
    have hpos' : 0 < p.exitQuantity + d := hpos
    rw [hgross, hprice]
    rcases hm with ⟨rfl, rfl⟩ | ⟨fp, rfl, rfl⟩
    · have := hp.booked (by simpa using hpos')
      cases fillPrice with
      | none => simpa [realisedPnl] using this
      | some fp => simp [realisedPnl]
    · simp [realisedPnl]

end Exit

/-- The proceeds after new shares of a SELL order. -/
def creditTracked (s : LifecycleState) (P : PositionId → ℚ) (o : Order) (m : ℚ) : PositionId → ℚ :=
  match s.openPositionBySymbol o.symbol with
  | some k => Function.update P k (P k + m)
  | none => P

theorem creditTracked_zero : creditTracked s P o 0 = P := by
  unfold creditTracked
  split
  · rw [add_zero, Function.update_eq_self]
  · rfl

theorem Tally.applySellFill (h : Tally V s P) (ho : o ∈ s.orders.rows) (hside : o.intentId.side = .sell)
    (h0 : 0 ≤ o.filledQty) (hprice : 0 < upd.filledQty → upd.fillPrice = some (V.average o.id upd.filledQty))
    (hclean : o.filledQty < upd.filledQty → CleanSell V s o upd.filledQty) :
    Tally V (applySellFill (s.updateOrder o.id upd) o.symbol (max o.filledQty upd.filledQty)
      (max 0 (max o.filledQty upd.filledQty - o.filledQty)) upd.fillPrice)
      (creditTracked s P o (sold V o upd.filledQty)) := by
  have hd0 : 0 ≤ max o.filledQty upd.filledQty - o.filledQty := sub_nonneg.2 (le_max_left ..)
  -- no position belongs to a SELL order
  have hentry : ∀ q ∈ s.positions.rows, q.id.entry ≠ o.intentId := fun q hq e => by
    have := h.side q hq
    rw [e, hside] at this
    cases this
  rw [max_eq_right hd0]
  unfold Piv.applySellFill
  have htracked : ((s.updateOrder o.id upd).openPositionBySymbol o.symbol).bind (s.updateOrder o.id upd).positions.get =
      (s.openPositionBySymbol o.symbol).bind s.positions.get := rfl
  rw [htracked]
  cases hp : (s.openPositionBySymbol o.symbol).bind s.positions.get with
  | none =>
    -- nothing is tracked, so nothing new was sold
    have hle : upd.filledQty ≤ o.filledQty := by
      by_contra hlt
      obtain ⟨p, hp', -⟩ := hclean (not_le.1 hlt)
      rw [hp] at hp'
      cases hp'
    rw [sold_of_le hle, creditTracked_zero]
    exact h.of_no_news ho hle
  | some p =>
    obtain ⟨k, hk, hget⟩ := Option.bind_eq_some_iff.1 hp
    obtain ⟨hmem, rfl⟩ := Table.get_eq_some.1 hget
    have hcredit : creditTracked s P o (sold V o upd.filledQty) =
        Function.update P p.id (P p.id + sold V o upd.filledQty) := by
      unfold creditTracked
      rw [hk]
    have htally := h.position p hmem
    have hkeep : ∀ q ∈ s.positions.rows, ∀ x ∈ s.orders.rows, x.intentId = q.id.entry →
        ∃ x' ∈ (s.updateOrder o.id upd).orders.rows, x'.id = x.id ∧ x'.intentId = x.intentId ∧
          x'.filledQty = x.filledQty :=
      fun q hq x hx he => keeps_updateOrder ho hx (.inl fun e => hentry q hq (he.symm.trans e))
    have hexit : (p.exit (max o.filledQty upd.filledQty) (max o.filledQty upd.filledQty - o.filledQty)
        upd.fillPrice).Tallied V (s.updateOrder o.id upd) (Function.update P p.id (P p.id + sold V o upd.filledQty)) := by
      by_cases hnews : o.filledQty < upd.filledQty
      · obtain ⟨p', hp', hle, hwhole, hsteady⟩ := hclean hnews
        rw [hp] at hp'
        obtain rfl := Option.some.inj hp'
        rw [max_eq_right hnews.le] at hd0 ⊢
        exact htally.exit hd0 hle hwhole
          (.inr ⟨_, hprice (h0.trans_lt hnews), sold_of_steady h0 hnews hsteady⟩) (hkeep p hmem)
      · rw [max_eq_left (not_lt.1 hnews), sub_self, sold_of_le (not_lt.1 hnews)]
        exact htally.exit le_rfl htally.whole.nonneg (by rw [sub_zero]; exact htally.whole) (.inl ⟨rfl, rfl⟩)
          (hkeep p hmem)
    have hid : (p.exit (max o.filledQty upd.filledQty) (max o.filledQty upd.filledQty - o.filledQty)
        upd.fillPrice).id = p.id := rfl
    rw [hcredit]
    dsimp only
    generalize p.exit (max o.filledQty upd.filledQty) (max o.filledQty upd.filledQty - o.filledQty) upd.fillPrice = p'
      at hexit hid ⊢
    have hmem' : ∀ q, q ∈ (s.positions.update (·.id = p.id) (fun x => { p' with id := x.id }) fun _ => rfl).rows ↔
        (q ∈ s.positions.rows ∧ q.id ≠ p.id) ∨ q = p' := fun q => by
      have := Table.mem_update_key (f := fun x : Position => { p' with id := x.id }) (fun _ => rfl) (q := q) hmem
      rwa [show ({ p' with id := p.id } : Position) = p' by rw [← hid]] at this
    constructor
    · intro q hq
      rcases (hmem' q).1 hq with ⟨hq, hne⟩ | rfl
      · exact (h.position q hq).mono (Function.update_of_ne hne _ _) (hkeep q hq)
      · exact { hexit with order := hexit.order }
    · intro q hq
      rcases (hmem' q).1 hq with ⟨hq, -⟩ | rfl
      · exact h.side q hq
      · rw [hid]
        exact h.side p hmem
    · intro x hx hbuy hpos
      obtain ⟨q, hq, he⟩ : ∃ q ∈ s.positions.rows, q.id.entry = x.intentId := by
        rcases (mem_updateOrder ho).1 hx with ⟨hx, -⟩ | rfl
        · exact h.entry x hx hbuy hpos
        · rw [show (o.report upd).intentId = o.intentId from rfl, hside] at hbuy
          cases hbuy
      by_cases hqp : q.id = p.id
      · exact ⟨p', (hmem' p').2 (.inr rfl), by rw [hid, ← hqp, he]⟩
      · exact ⟨q, (hmem' q).2 (.inl ⟨hq, hqp⟩), he⟩
    · intro k hk
      have hne : k ≠ p.id := fun e => Table.get_eq_none.1 hk p' ((hmem' p').2 (.inr rfl)) (by rw [hid, e])
      rw [Function.update_of_ne hne]
      refine h.idle k (Table.get_eq_none.2 fun q hq e => ?_)
      exact Table.get_eq_none.1 hk q ((hmem' q).2 (.inl ⟨hq, fun e' => hne (e.symm.trans e')⟩)) e

/-! ## BUY fills -/

theorem Tally.applyBuyFill (h : Tally V s P) (ho : o ∈ s.orders.rows)
    (hsingle : ∀ q ∈ s.orders.rows, q.intentId = o.intentId → q = o) {i : Intent}
    (hi : s.intents.get o.intentId = some i) (hside : o.intentId.side = .buy) (h0 : 0 ≤ o.filledQty)
    (hprice : 0 < upd.filledQty → upd.fillPrice = some (V.average o.id upd.filledQty))
    (hle : max o.filledQty upd.filledQty ≤ o.intentId.quantity) (hpos : 0 < max o.filledQty upd.filledQty)
    (hclean : o.filledQty < upd.filledQty → CleanBuy V s o upd.filledQty) :
    Tally V (applyBuyFill (s.updateOrder o.id upd) i o.symbol upd (max o.filledQty upd.filledQty)
      (max 0 (max o.filledQty upd.filledQty - o.filledQty))) P := by
  have hd0 : 0 ≤ max o.filledQty upd.filledQty - o.filledQty := sub_nonneg.2 (le_max_left ..)
  have hid : i.id = o.intentId := Table.key_of_get hi
  -- the other positions keep their tally, and the one of the entry is replaced
  have hput : ∀ p' : Position, p'.id = ⟨o.intentId⟩ → p'.Tallied V (s.updateOrder o.id upd) P →
      Tally V ((s.updateOrder o.id upd).putPosition o.symbol p') P := by
    intro p' hpid htally
    have hmem : ∀ q, q ∈ ((s.updateOrder o.id upd).putPosition o.symbol p').positions.rows ↔
        (q ∈ s.positions.rows ∧ q.id ≠ p'.id) ∨ q = p' := fun q => mem_putPosition
    constructor
    · intro q hq
      rcases (hmem q).1 hq with ⟨hq, hne⟩ | rfl
      · refine (h.position q hq).mono rfl fun x hx he => keeps_updateOrder ho hx (.inl fun e => hne ?_)
        rw [hpid, ← e, he]
      · exact { htally with order := htally.order }
    · intro q hq
      rcases (hmem q).1 hq with ⟨hq, -⟩ | rfl
      · exact h.side q hq
      · rw [hpid]
        exact hside
    · intro x hx hbuy hxpos
      by_cases hxo : x.intentId = o.intentId
      · exact ⟨p', (hmem p').2 (.inr rfl), by rw [hpid, hxo]⟩
      · rcases (mem_updateOrder ho).1 hx with ⟨hx, -⟩ | rfl
        · obtain ⟨q, hq, he⟩ := h.entry x hx hbuy hxpos
          exact ⟨q, (hmem q).2 (.inl ⟨hq, fun e => hxo (by rw [← he, e, hpid])⟩), he⟩
        · exact absurd rfl hxo
    · intro k hk
      refine h.idle k (Table.get_eq_none.2 fun q hq e => ?_)
      by_cases hqp : q.id = p'.id
      · exact Table.get_eq_none.1 hk p' ((hmem p').2 (.inr rfl)) (by rw [← hqp, e])
      · exact Table.get_eq_none.1 hk q ((hmem q).2 (.inl ⟨hq, hqp⟩)) e
  rw [max_eq_right hd0]
  unfold Piv.applyBuyFill
  have hget : (s.updateOrder o.id upd).positions.get ⟨i.id⟩ = s.positions.get ⟨o.intentId⟩ := by rw [hid]; rfl
  rw [hget]
  cases hp : s.positions.get ⟨o.intentId⟩ with
  | none =>
    have hzero : o.filledQty = 0 := by
      by_contra hne
      obtain ⟨p, hpm, hpe⟩ := h.entry o ho hside (lt_of_le_of_ne h0 (Ne.symm hne))
      exact Table.get_eq_none.1 hp p hpm (by rw [← hpe])
    have hlt : o.filledQty < upd.filledQty := by
      rw [hzero] at hpos ⊢
      exact (lt_max_iff.1 hpos).resolve_left (lt_irrefl _)
    have hqty : max o.filledQty upd.filledQty = upd.filledQty := max_eq_right hlt.le
    have hwhole := (hclean hlt).1
    rw [hzero, sub_zero] at hwhole
    dsimp only
    refine hput _ (by rw [← hid]; rfl) ⟨⟨o.report upd, (mem_updateOrder ho).2 (.inr rfl), hid.symm, rfl, ?_⟩, hpos,
      (sub_zero _).symm, le_rfl, .inr ?_, nofun, fun e _ => ?_, fun he => absurd he (lt_irrefl _)⟩
    · show upd.fillPrice = some (V.average o.id (max o.filledQty upd.filledQty))
      rw [hqty, hprice (h0.trans_lt hlt)]
    · show shareTolerance < max o.filledQty upd.filledQty
      rwa [hqty]
    · show (0 : ℚ) = P ⟨i.id⟩ - e * 0
      rw [hid, h.idle _ hp]
      ring
  | some p =>
    have hmem := Table.mem_of_get hp
    have hpid := Table.key_of_get hp
    have htally := h.position p hmem
    obtain ⟨x, hx, hxi, hxf, hxp⟩ := htally.order
    obtain rfl := hsingle x hx (by rw [hxi, hpid])
    dsimp only
    have hfit : ¬ i.id.quantity + shareTolerance < max x.filledQty upd.filledQty := by
      rw [hid]
      linarith [shareTolerance_pos]
    rw [if_neg hfit]
    by_cases hnews : x.filledQty < upd.filledQty
    · obtain ⟨htol, hsteady⟩ := hclean hnews
      have hqty : max x.filledQty upd.filledQty = upd.filledQty := max_eq_right hnews.le
      rw [hqty] at hle hpos ⊢
      have hdone : ¬ (p.status = .closed ∧ upd.filledQty - x.filledQty ≤ shareTolerance) := fun e =>
        absurd e.2 (not_le.2 htol)
      rw [if_neg hdone]
      have hpr : (p.merge upd upd.filledQty (upd.filledQty - x.filledQty)).price =
          some (V.average x.id upd.filledQty) := by
        show (if _ then _ else _) = _
        rw [if_pos htol, hprice (h0.trans_lt hnews)]
        rfl
      have hq : (p.merge upd upd.filledQty (upd.filledQty - x.filledQty)).quantity = upd.filledQty := by
        show max p.quantity _ = _
        rw [← hxf, hqty]
      refine hput _ hpid ⟨⟨x.report upd, (mem_updateOrder ho).2 (.inr rfl), hxi, ?_, ?_⟩, ?_, ?_, htally.exits, .inr ?_,
        fun hclosed => ?_, fun e he => ?_, htally.booked⟩
      · rw [hq]
        exact hqty
      · rw [hpr, hq]
        rfl
      · rwa [hq]
      · rw [hq]
        show p.remainingQuantity + _ = _ - p.exitQuantity
        rw [htally.rest, ← hxf]
        ring
      · show shareTolerance < p.remainingQuantity + _
        linarith [htally.whole.nonneg]
      · have hopen : (if shareTolerance < upd.filledQty - x.filledQty then PositionStatus.opened else p.status) =
            .closed := hclosed
        rw [if_pos htol] at hopen
        cases hopen
      · rw [hpr] at he
        obtain rfl := Option.some.inj he
        have hold := htally.gross _ hxp
        show p.grossPnl.getD 0 = P p.id - _ * p.exitQuantity
        rw [hold]
        rcases htally.exits.eq_or_lt with hz | hex
        · rw [← hz, mul_zero, mul_zero]
        · rw [hsteady p hp hex, hxf]
    · have hle' := not_lt.1 hnews
      rw [max_eq_left hle', sub_self]
      split
      · exact h.of_no_news ho hle'
      · have hmerge : p.merge upd x.filledQty 0 = { p with firstFillObservedAt := p.firstFillObservedAt.or upd.filledAt } := by
          unfold Position.merge
          rw [hxf, max_self, add_zero, if_neg (not_lt.2 shareTolerance_pos.le), if_neg (not_lt.2 shareTolerance_pos.le)]
        rw [hmerge]
        have hkept : p.Tallied V (s.updateOrder x.id upd) P :=
          htally.mono rfl fun y hy _ => keeps_updateOrder ho hy (.inr hle')
        exact hput _ hpid ⟨hkept.order, hkept.positive, hkept.rest, hkept.exits, hkept.whole, hkept.closed, hkept.gross,
          hkept.booked⟩

/-! ## Accepted updates -/

/-- The proceeds after a report of an order. -/
def credited (V : Tape) (s : LifecycleState) (P : PositionId → ℚ) (o : Order) (q : ℚ) : PositionId → ℚ :=
  match o.intentId.side with
  | .sell => creditTracked s P o (sold V o q)
  | .buy => P

theorem credited_of_le {q : ℚ} (h : q ≤ o.filledQty) : credited V s P o q = P := by
  unfold credited
  split
  · rw [sold_of_le h, creditTracked_zero]
  · rfl

/-- An accepted update whose new shares are clean keeps the tally. -/
theorem Tally.acceptUpdate (h : Tally V s P) (ho : o ∈ s.orders.rows)
    (hsingle : ∀ q ∈ s.orders.rows, q.intentId = o.intentId → q = o) {i : Intent}
    (hi : s.intents.get o.intentId = some i) (h0 : 0 ≤ o.filledQty)
    (hfinal : o.status.terminal = true → upd.filledQty ≤ o.filledQty)
    (hprice : 0 < upd.filledQty → upd.fillPrice = some (V.average o.id upd.filledQty))
    (hle : max o.filledQty upd.filledQty ≤ o.intentId.quantity)
    (hfill : o.filledQty < upd.filledQty → upd.status.isFill = true)
    (hclean : o.filledQty < upd.filledQty → (o.intentId.side = .sell → CleanSell V s o upd.filledQty) ∧
      (o.intentId.side = .buy → CleanBuy V s o upd.filledQty)) :
    Tally V (acceptUpdate s o upd) (credited V s P o upd.filledQty) := by
  unfold Piv.acceptUpdate
  split
  · rename_i hterm
    rw [credited_of_le (hfinal hterm)]
    exact h
  · split
    · rename_i hcond
      have hi' : (s.updateOrder o.id upd).intents.get o.intentId = some i := hi
      have hid : i.id = o.intentId := Table.key_of_get hi
      unfold applyFill
      simp only [hi', hid]
      cases hside : o.intentId.side with
      | sell =>
        simp only [credited, hside]
        exact h.applySellFill ho hside h0 hprice fun hnews => (hclean hnews).1 hside
      | buy =>
        simp only [credited, hside]
        exact h.applyBuyFill ho hsingle hi hside h0 hprice hle hcond.2 fun hnews => (hclean hnews).2 hside
    · rename_i hcond
      -- new shares come under a fill status, so there are none
      have hno : upd.filledQty ≤ o.filledQty := not_lt.1 fun hlt =>
        hcond ⟨hfill hlt, lt_max_of_lt_right (h0.trans_lt hlt)⟩
      rw [credited_of_le hno]
      exact h.of_no_news ho hno

end TalonX.Piv
