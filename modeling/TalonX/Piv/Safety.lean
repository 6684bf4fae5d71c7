import TalonX.Piv.Books

/-!
# The invariant of the runs

- `Order.Matches`: what is on file of an order, and the order at the broker;
- `Settled`: an order that is terminal at the broker and completely on file;
- `Sound`: the books, the records and the orders at the broker. The SELL orders together can never come to more than the
  BUY orders on file got, and a symbol has at most one entry that can still bring shares;
- `Careful`: new shares are reported under a fill status, quantities are whole lots, and no SELL is requested next to a
  received one that a crash left as an `ORDER_INTENT`;
- `Sound.of_reach`: every careful run keeps the invariant.
-/

set_option autoImplicit false

namespace TalonX.Piv

open Transact V2 World

variable {u : ℚ} {cfg : Config} {w : World} {s s' : LifecycleState} {o : Order} {b : BrokerOrder} {p : Position}
  {upd : Update} {symbol : Symbol}

/-! ## Intents -/

theorem get_updateIntent {i j : IntentId} {f : Intent → Intent} {hf : ∀ q, (f q).id = q.id} :
    (s.updateIntent i f hf).intents.get j = (s.intents.get j).map fun q => if decide (q.id = i) then f q else q := by
  show (s.intents.update (·.id = i) f hf).get j = _
  exact Table.get_update

theorem get_setIntentStatus {i j : IntentId} {status : IntentStatus} :
    (s.setIntentStatus i status).intents.get j =
      (s.intents.get j).map fun q => if decide (q.id = i) then { q with status } else q := get_updateIntent

/-! ## What an accepted update leaves alone -/

@[simp] theorem intents_applySellFill {q d : ℚ} {fp : Option ℚ} :
    (applySellFill s symbol q d fp).intents = s.intents ∧ (applySellFill s symbol q d fp).orders = s.orders := by
  unfold applySellFill
  split <;> exact ⟨rfl, rfl⟩

@[simp] theorem intents_applyBuyFill {i : Intent} {q d : ℚ} :
    (applyBuyFill s i symbol upd q d).intents = s.intents ∧ (applyBuyFill s i symbol upd q d).orders = s.orders := by
  unfold applyBuyFill
  split
  · exact ⟨rfl, rfl⟩
  · split
    · exact ⟨rfl, rfl⟩
    · split <;> exact ⟨rfl, rfl⟩

theorem intents_applyFill : (applyFill s o upd).intents = s.intents ∧ (applyFill s o upd).orders = s.orders := by
  unfold applyFill
  dsimp only
  split
  · exact ⟨rfl, rfl⟩
  · split <;> simp

theorem intents_acceptUpdate : (acceptUpdate s o upd).intents = s.intents := by
  unfold acceptUpdate
  split
  · rfl
  · split
    · exact intents_applyFill.1
    · rfl

theorem orders_acceptUpdate :
    (acceptUpdate s o upd).orders = if o.status.terminal then s.orders else (s.updateOrder o.id upd).orders := by
  unfold acceptUpdate
  split
  · rfl
  · split
    · exact intents_applyFill.2
    · rfl

theorem intents_applyBrokerUpdate {id : BrokerOrderId} {r : BrokerReport} :
    (applyBrokerUpdate s id r).intents = s.intents := by
  unfold applyBrokerUpdate
  split
  · rfl
  · split
    · rfl
    · exact intents_acceptUpdate

/-- A position that is open after an update was open before, or new shares came in for its entry. -/
theorem opened_acceptUpdate (h : Ledger u s) (hf : Filings u s) (ho : o ∈ s.orders.rows) {p' : Position}
    (hp' : p' ∈ (acceptUpdate s o upd).positions.rows) (hop : p'.status = .opened) :
    (∃ p ∈ s.positions.rows, p.id = p'.id ∧ p.status = .opened) ∨
      (p'.id.entry = o.intentId ∧ o.filledQty < upd.filledQty) := by
  unfold acceptUpdate at hp'
  split at hp'
  · exact .inl ⟨p', hp', rfl, hop⟩
  split at hp'
  · rename_i hcond
    obtain ⟨i, hi, -⟩ := hf.intent o ho
    have hi' : (s.updateOrder o.id upd).intents.get o.intentId = some i := hi
    unfold applyFill at hp'
    simp only [hi'] at hp'
    have hid : i.id = o.intentId := Table.key_of_get hi
    cases hside : i.id.side with
    | sell =>
      simp only [hside] at hp'
      unfold applySellFill at hp'
      split at hp'
      · exact .inl ⟨p', hp', rfl, hop⟩
      · rename_i q hq
        have hmem : q ∈ s.positions.rows := by
          have htr : s.openPositionFor o.symbol = some q := h.tracked_position ▸ hq
          exact (h.openPositionFor_eq_some.1 htr).1
        obtain ⟨x, hx, rfl⟩ := mem_updateRows.1 hp'
        by_cases hc : x.id = q.id
        · simp only [hc, decide_true, if_true] at hop ⊢
          refine .inl ⟨q, hmem, rfl, ?_⟩
          have hstatus : (if (q.exit (max o.filledQty upd.filledQty) (max 0 (max o.filledQty upd.filledQty - o.filledQty))
            upd.fillPrice).remainingQuantity ≤ shareTolerance then PositionStatus.closed else q.status) = .opened := hop
          split at hstatus
          · cases hstatus
          · exact hstatus
        · simp only [hc, decide_false, Bool.false_eq_true, if_false] at hop ⊢
          exact .inl ⟨x, hx, rfl, hop⟩
    | buy =>
      simp only [hside] at hp'
      unfold applyBuyFill at hp'
      split at hp'
      · rename_i hnone
        rcases mem_putPosition.1 hp' with ⟨hx, -⟩ | rfl
        · exact .inl ⟨p', hx, rfl, hop⟩
        · refine .inr ⟨hid, ?_⟩
          by_contra hle
          rw [max_eq_left (not_lt.1 hle)] at hcond
          obtain ⟨p, hpm, hpe⟩ := h.entry o ho (hid ▸ hside) hcond.2
          exact Table.get_eq_none.1 hnone p hpm (by rw [hid, ← hpe])
      · rename_i q hq
        have hmem : q ∈ s.positions.rows := Table.mem_of_get hq
        split at hp'
        · exact .inl ⟨p', hp', rfl, hop⟩
        split at hp'
        · exact .inl ⟨p', hp', rfl, hop⟩
        rcases mem_putPosition.1 hp' with ⟨hx, -⟩ | rfl
        · exact .inl ⟨p', hx, rfl, hop⟩
        · by_cases hlt : o.filledQty < upd.filledQty
          · have hqid := Table.key_of_get hq
            refine .inr ⟨?_, hlt⟩
            show q.id.entry = _
            rw [hqid, hid]
          · refine .inl ⟨q, hmem, rfl, ?_⟩
            have hstatus : (if shareTolerance < max 0 (max o.filledQty upd.filledQty - o.filledQty) then
              PositionStatus.opened else q.status) = .opened := hop
            rw [max_eq_left (not_lt.1 hlt), sub_self, max_self, if_neg (not_lt.2 shareTolerance_pos.le)] at hstatus
            exact hstatus
  · exact .inl ⟨p', hp', rfl, hop⟩

/-! ## Orders on file and orders at the broker -/

/-- What is on file of an order fits the order. -/
structure Order.Matches (o : Order) (b : BrokerOrder) : Prop where
  id : b.id = o.id
  intent : b.intentId = o.intentId
  le : o.filledQty ≤ b.now.filled
  final : o.status.terminal = true → b.now.status.terminal = true ∧ o.filledQty = b.now.filled

/-- The order is terminal at the broker, and all of it is on file. -/
def Settled (s : LifecycleState) (b : BrokerOrder) : Prop :=
  b.now.status.terminal = true ∧ ∃ o ∈ s.orders.rows, o.id = b.id ∧ o.filledQty = b.now.filled

/-- The intent of the order was not written off as `REJECTED`. -/
def counted (s : LifecycleState) (b : BrokerOrder) : Bool := (s.intents.get b.intentId).all (·.status ≠ .rejected)

/-- What the SELL orders of a symbol may come to together. -/
def pledged (w : World) (symbol : Symbol) : ℚ :=
  sumWhere (fun b => sent symbol .sell b && counted w.state b) (·.potential) w.broker.rows

structure Sound (u : ℚ) (w : World) : Prop where
  filings : Filings u w.state
  ledger : Ledger u w.state
  matched : ∀ o ∈ w.state.orders.rows, ∃ b ∈ w.broker.rows, o.Matches b
  intent : ∀ b ∈ w.broker.rows, ∃ i, w.state.intents.get b.intentId = some i ∧ i.status ≠ .confirmedNotSubmitted ∧
    (i.status = .submitted → ∃ o ∈ w.state.orders.rows, o.id = b.id)
  once : ∀ b ∈ w.broker.rows, ∀ c ∈ w.broker.rows, b.intentId = c.intentId → b = c
  lots : ∀ b ∈ w.broker.rows, ∀ p ∈ b.history, Lots u p.filled
  intentLots : ∀ i ∈ w.state.intents.rows, Lots u i.id.quantity
  covered : ∀ symbol, pledged w symbol ≤ w.state.recorded symbol .buy
  /-- While an entry can still bring shares, no other position of its symbol is open. -/
  alone : ∀ b ∈ w.broker.rows, b.intentId.side = .buy → counted w.state b → ¬ Settled w.state b →
    ∀ p ∈ w.state.positions.rows, p.symbol = b.intentId.symbol → p.status = .opened → p.id.entry = b.intentId
  /-- One entry of a symbol at most can still bring shares. -/
  entry : ∀ b ∈ w.broker.rows, ∀ c ∈ w.broker.rows, b.intentId.side = .buy → c.intentId.side = .buy →
    b.intentId.symbol = c.intentId.symbol → counted w.state b → counted w.state c → ¬ Settled w.state b →
    ¬ Settled w.state c → b.intentId = c.intentId

namespace BrokerOrder

theorem nonneg_outstanding (b : BrokerOrder) : 0 ≤ b.outstanding := by
  unfold outstanding
  split
  · exact le_rfl
  · linarith [b.bounded.2]

theorem filled_le_potential (b : BrokerOrder) : b.now.filled ≤ b.potential := by
  unfold potential
  linarith [b.nonneg_outstanding]

theorem potential_nonneg (b : BrokerOrder) : 0 ≤ b.potential := b.bounded.1.trans b.filled_le_potential

theorem potential_of_terminal {b : BrokerOrder} (h : b.now.status.terminal = true) : b.potential = b.now.filled := by
  simp [potential, outstanding, h]

theorem potential_of_live {b : BrokerOrder} (h : b.now.status.terminal = false) : b.potential = b.intentId.quantity := by
  simp [potential, outstanding, h]

theorem potential_le (b : BrokerOrder) : b.potential ≤ b.intentId.quantity := by
  cases h : b.now.status.terminal with
  | true => rw [potential_of_terminal h]; exact b.bounded.2
  | false => rw [potential_of_live h]

/-- A state in the history is no further than the present one, and a terminal one is the present one. -/
theorem of_mem_history {b : BrokerOrder} {p : Snapshot} (h : p ∈ b.history) :
    0 ≤ p.filled ∧ p.filled ≤ b.now.filled ∧ (p.status.terminal = true → p = b.now) := by
  rcases List.mem_cons.1 h with rfl | hp
  · exact ⟨b.bounded.1, le_rfl, fun _ => rfl⟩
  · refine ⟨(b.grows p hp).1, (b.grows p hp).2, fun ht => ?_⟩
    rw [b.live p hp] at ht
    cases ht

end BrokerOrder

/-- A report of a matching order passes the validation. -/
theorem applyBrokerUpdate_of_told (hm : o.Matches b) (ho : o ∈ s.orders.rows) {r : BrokerReport} (hr : b.Told r) :
    ∃ upd : Update, ⟨upd.status, upd.filledQty⟩ ∈ b.history ∧ r.status = .known upd.status ∧
      r.filledQty = .finite upd.filledQty ∧ validPrice r.fillPrice = some upd.fillPrice ∧
      applyBrokerUpdate s o.id r = acceptUpdate s o upd := by
  obtain ⟨⟨p, hp, hst, hq⟩, hprice⟩ := hr
  obtain ⟨price, hprice⟩ := Option.isSome_iff_exists.1 hprice
  obtain ⟨h0, hle, -⟩ := BrokerOrder.of_mem_history hp
  have hget : s.orders.get o.id = some o := Table.get_eq_some.2 ⟨ho, rfl⟩
  have hfit : ¬ o.intentId.quantity + reconcileQuantityTolerance < p.filled := by
    have htol : (0 : ℚ) < reconcileQuantityTolerance := by norm_num [reconcileQuantityTolerance]
    have := b.bounded.2
    rw [hm.intent] at this
    linarith
  refine ⟨⟨p.status, p.filled, price, r.filledAt⟩, hp, hst, hq, hprice, ?_⟩
  unfold applyBrokerUpdate
  simp only [hget]
  have hval : validateBrokerUpdate o r = some ⟨p.status, p.filled, price, r.filledAt⟩ := by
    unfold validateBrokerUpdate
    simp only [hst, hq, hprice, RawNumber.coerce, not_lt.2 h0, hfit, if_false]
  rw [hval]

namespace Order.Matches

/-- The record still fits after it took over a report. -/
theorem report (hm : o.Matches b) (hu : ⟨upd.status, upd.filledQty⟩ ∈ b.history) : (o.report upd).Matches b := by
  obtain ⟨-, hle, hterm⟩ := BrokerOrder.of_mem_history hu
  refine ⟨hm.id, hm.intent, max_le hm.le hle, fun ht => ?_⟩
  have hnow := hterm ht
  rw [← hnow]
  refine ⟨ht, ?_⟩
  have hfilled : upd.filledQty = b.now.filled := by rw [← hnow]
  show max o.filledQty upd.filledQty = upd.filledQty
  exact max_eq_right (hfilled ▸ hm.le)

end Order.Matches

namespace Sound

/-- An order on file is counted: its intent is `SUBMITTED`. -/
theorem counted_of_matches (h : Sound u w) (ho : o ∈ w.state.orders.rows) (hm : o.Matches b) : counted w.state b := by
  obtain ⟨i, hi, hst⟩ := h.filings.intent o ho
  simp [counted, hm.intent, hi, hst]

end Sound

/-- What the SELL orders on file gave is within what they may come to. -/
theorem recorded_le_pledged (hf : ∀ o ∈ s.orders.rows, ∃ i, s.intents.get o.intentId = some i ∧ i.status = .submitted)
    (hm : ∀ o ∈ s.orders.rows, ∃ b ∈ w.broker.rows, o.Matches b) (hi : s.intents = w.state.intents) (symbol : Symbol) :
    s.recorded symbol .sell ≤ pledged w symbol := by
  have hsum : (((s.orders.rows.filter (LifecycleState.ordersOf symbol .sell)).map fun o => (o.id, o.filledQty)).map
      Prod.snd).sum ≤ (((w.broker.rows.filter fun b => sent symbol .sell b && counted w.state b).map fun b =>
        (b.id, b.potential)).map Prod.snd).sum := by
    apply sum_le_sum_of_keys
    · intro r hr
      obtain ⟨b, -, rfl⟩ := List.mem_map.1 hr
      exact b.potential_nonneg
    · rw [List.map_map]
      exact (List.filter_sublist.map _).nodup s.orders.unique
    · intro r hr
      obtain ⟨o, ho, rfl⟩ := List.mem_map.1 hr
      obtain ⟨ho, hside⟩ := List.mem_filter.1 ho
      obtain ⟨b, hb, hmb⟩ := hm o ho
      obtain ⟨i, hget, hst⟩ := hf o ho
      refine ⟨(b.id, b.potential), List.mem_map.2 ⟨b, List.mem_filter.2 ⟨hb, ?_⟩, rfl⟩, hmb.id,
        hmb.le.trans b.filled_le_potential⟩
      rw [hi] at hget
      simpa [sent, counted, hmb.intent, hget, hst, LifecycleState.ordersOf] using hside
  simpa [LifecycleState.recorded, pledged, sumWhere, Function.comp_def] using hsum

/-! ## Reports -/

namespace Sound

/-- An order that is settled stays so when an order takes over a report. -/
theorem settled_acceptUpdate (ho : o ∈ s.orders.rows) (hm : o.Matches b) (hu : ⟨upd.status, upd.filledQty⟩ ∈ b.history)
    {c : BrokerOrder} (hsame : c.id = b.id → c = b) (hc : Settled s c) : Settled (acceptUpdate s o upd) c := by
  obtain ⟨hterm, q, hq, hid, hfilled⟩ := hc
  refine ⟨hterm, ?_⟩
  rw [orders_acceptUpdate]
  split
  · exact ⟨q, hq, hid, hfilled⟩
  · by_cases hqo : q.id = o.id
    · obtain rfl := s.orders.eq_of_key hq ho hqo
      obtain rfl := hsame (by rw [← hid, hm.id])
      refine ⟨q.report upd, (mem_updateOrder ho).2 (.inr rfl), hid, ?_⟩
      obtain ⟨-, hle, -⟩ := BrokerOrder.of_mem_history hu
      show max q.filledQty upd.filledQty = _
      rw [hfilled, max_eq_left hle]
    · exact ⟨q, (mem_updateOrder ho).2 (.inl ⟨hq, hqo⟩), hid, hfilled⟩

/-- The invariant after a report that brings new shares under a fill status only. -/
theorem report (h : Sound u w) (hu : shareTolerance < u) (ho : o ∈ w.state.orders.rows) (hb : b ∈ w.broker.rows)
    (hm : o.Matches b) (hhist : ⟨upd.status, upd.filledQty⟩ ∈ b.history)
    (hfill : o.filledQty < upd.filledQty → upd.status.isFill = true) (heard : BrokerOrderId → ℚ) :
    Sound u ⟨acceptUpdate w.state o upd, w.broker, heard⟩ := by
  obtain ⟨-, hle, -⟩ := BrokerOrder.of_mem_history hhist
  have hl : Lots u upd.filledQty := h.lots b hb _ hhist
  have hmax : max o.filledQty upd.filledQty ≤ b.now.filled := max_le hm.le hle
  have hbq : b.now.filled ≤ o.intentId.quantity := hm.intent ▸ b.bounded.2
  -- an order that brings new shares was not settled
  have hunsettled : o.filledQty < upd.filledQty → ¬ Settled w.state b := fun hlt hs => by
    obtain ⟨-, q, hq, hid, hqf⟩ := hs
    obtain rfl := w.state.orders.eq_of_key hq ho (hid.trans hm.id)
    linarith
  have hintents : (acceptUpdate w.state o upd).intents = w.state.intents := intents_acceptUpdate
  have hcounted : ∀ c, counted (acceptUpdate w.state o upd) c = counted w.state c := fun c => by
    simp only [counted, hintents]
  have hfilings : Filings u (w.state.updateOrder o.id upd) := h.filings.updateOrder ho hl
  have hfilings' : Filings u (acceptUpdate w.state o upd) := by
    have hsplit := @orders_acceptUpdate w.state o upd
    split at hsplit
    · exact ⟨hsplit ▸ h.filings.symbol, by rw [hsplit, hintents]; exact h.filings.intent, hsplit ▸ h.filings.single,
        hsplit ▸ h.filings.nonneg, hsplit ▸ h.filings.lots⟩
    · exact ⟨hsplit ▸ hfilings.symbol, by rw [hsplit, hintents]; exact hfilings.intent, hsplit ▸ hfilings.single,
        hsplit ▸ hfilings.nonneg, hsplit ▸ hfilings.lots⟩
  have hmatched : ∀ q ∈ (w.state.updateOrder o.id upd).orders.rows, ∃ c ∈ w.broker.rows, q.Matches c := fun q hq => by
    rcases (mem_updateOrder ho).1 hq with ⟨hq, -⟩ | rfl
    · exact h.matched q hq
    · exact ⟨b, hb, hm.report hhist⟩
  -- a SELL fill is covered: with it the SELL orders stay within what they may come to
  have hsell : o.intentId.side = .sell → max o.filledQty upd.filledQty - o.filledQty ≤ w.state.held o.symbol :=
    fun hside => by
      have hgave := recorded_le_pledged hfilings.intent hmatched rfl o.symbol
      rw [recorded_updateOrder ho, if_pos ⟨(h.filings.symbol o ho).symm, hside⟩] at hgave
      rw [h.ledger.balance]
      linarith [h.covered o.symbol]
  have hbuy : o.intentId.side = .buy → o.filledQty < upd.filledQty →
      ∀ p, w.state.openPositionFor o.symbol = some p → p.id.entry = o.intentId := fun hside hlt p hp => by
    obtain ⟨hpm, hps, hpo⟩ := h.ledger.openPositionFor_eq_some.1 hp
    have hsym : p.symbol = b.intentId.symbol := by rw [hps, h.filings.symbol o ho, hm.intent]
    rw [h.alone b hb (hm.intent ▸ hside) (h.counted_of_matches ho hm) (hunsettled hlt) p hpm hsym hpo, hm.intent]
  have hledger : Ledger u (acceptUpdate w.state o upd) :=
    h.ledger.acceptUpdate h.filings hu ho hl (hmax.trans hbq) hfill hsell hbuy
  have hsettled : ∀ c ∈ w.broker.rows, ¬ Settled (acceptUpdate w.state o upd) c → ¬ Settled w.state c :=
    fun c hc hn hs => hn (settled_acceptUpdate ho hm hhist (fun e => w.broker.eq_of_key hc hb e) hs)
  exact
    { filings := hfilings'
      ledger := hledger
      matched := by
        have hsplit := @orders_acceptUpdate w.state o upd
        split at hsplit
        · rw [hsplit]; exact h.matched
        · rw [hsplit]; exact hmatched
      intent := fun c hc => by
        obtain ⟨i, hi, hne, hsub⟩ := h.intent c hc
        refine ⟨i, hintents ▸ hi, hne, fun hst => ?_⟩
        obtain ⟨q, hq, hid⟩ := hsub hst
        rw [orders_acceptUpdate]
        split
        · exact ⟨q, hq, hid⟩
        · by_cases hqo : q.id = o.id
          · exact ⟨o.report upd, (mem_updateOrder ho).2 (.inr rfl), hqo.symm.trans hid⟩
          · exact ⟨q, (mem_updateOrder ho).2 (.inl ⟨hq, hqo⟩), hid⟩
      once := h.once
      lots := h.lots
      intentLots := by rw [hintents]; exact h.intentLots
      covered := fun symbol => by
        have hpl : pledged ⟨acceptUpdate w.state o upd, w.broker, heard⟩ symbol = pledged w symbol := by
          simp only [pledged, hcounted]
        have hrec : w.state.recorded symbol .buy ≤ (acceptUpdate w.state o upd).recorded symbol .buy := by
          have hsplit := @orders_acceptUpdate w.state o upd
          split at hsplit
          · simp only [LifecycleState.recorded, hsplit, le_refl]
          · have hrec : (acceptUpdate w.state o upd).recorded symbol .buy =
                (w.state.updateOrder o.id upd).recorded symbol .buy := by simp only [LifecycleState.recorded, hsplit]
            rw [hrec, recorded_updateOrder ho]
            split
            · linarith [le_max_left o.filledQty upd.filledQty]
            · linarith
        rw [hpl]
        exact (h.covered symbol).trans hrec
      alone := fun c hc hside hcnt hn p hp hsym hop => by
        have hcnt' : counted w.state c := (hcounted c) ▸ hcnt
        rcases opened_acceptUpdate h.ledger h.filings ho hp hop with ⟨q, hq, hid, hqo⟩ | ⟨hent, hlt⟩
        · have hqs : q.symbol = c.intentId.symbol := by
            rw [(h.ledger.position q hq).symbol, hid, ← (hledger.position p hp).symbol, hsym]
          rw [← hid]
          exact h.alone c hc hside hcnt' (hsettled c hc hn) q hq hqs hqo
        · have hps := (hledger.position p hp).symbol
          have hpside := (hledger.position p hp).side
          rw [hent] at hps hpside ⊢
          rw [← hm.intent]
          exact h.entry b hb c hc (hm.intent ▸ hpside) hside (by rw [hm.intent, ← hps, hsym])
            (h.counted_of_matches ho hm) hcnt' (hunsettled hlt) (hsettled c hc hn)
      entry := fun c hc d hd hcs hds hsym hcc hdc hcn hdn =>
        h.entry c hc d hd hcs hds hsym ((hcounted c) ▸ hcc) ((hcounted d) ▸ hdc) (hsettled c hc hcn) (hsettled d hd hdn) }

/-! ## Changes of intents, of statuses, and of what the invariant does not see -/

/-- The orders and the positions stay, and an intent keeps being submitted, or written off. -/
theorem of_intents (h : Sound u w) (ho : s'.orders = w.state.orders) (hp : s'.positions = w.state.positions)
    (ht : s'.openPositionBySymbol = w.state.openPositionBySymbol)
    (hi : ∀ i q, w.state.intents.get i = some q → ∃ q', s'.intents.get i = some q' ∧
      (q.status = .submitted ↔ q'.status = .submitted) ∧ (q.status = .rejected → q'.status = .rejected) ∧
      (q'.status = .confirmedNotSubmitted → q.status = .confirmedNotSubmitted ∨ ∀ b ∈ w.broker.rows, b.intentId ≠ i))
    (hl : ∀ i ∈ s'.intents.rows, Lots u i.id.quantity) (heard : BrokerOrderId → ℚ) :
    Sound u ⟨s', w.broker, heard⟩ := by
  have hcounted : ∀ c ∈ w.broker.rows, counted s' c → counted w.state c := fun c hc hcnt => by
    obtain ⟨q, hq, -⟩ := h.intent c hc
    obtain ⟨q', hq', -, hrej, -⟩ := hi _ q hq
    simp only [counted, hq, hq', Option.all_some, decide_eq_true_eq] at hcnt ⊢
    exact fun e => hcnt (hrej e)
  have hsettled : ∀ c, Settled s' c ↔ Settled w.state c := fun c => by simp only [Settled, ho]
  have hrec : ∀ symbol side, s'.recorded symbol side = w.state.recorded symbol side := fun symbol side => by
    simp only [LifecycleState.recorded, ho]
  exact
    { filings :=
        { symbol := ho ▸ h.filings.symbol
          intent := fun o hom => by
            obtain ⟨q, hq, hst⟩ := h.filings.intent o (ho ▸ hom)
            obtain ⟨q', hq', hsub, -⟩ := hi _ q hq
            exact ⟨q', hq', hsub.1 hst⟩
          single := ho ▸ h.filings.single
          nonneg := ho ▸ h.filings.nonneg
          lots := ho ▸ h.filings.lots }
      ledger :=
        { position := fun p hpm => by
            have := h.ledger.position p (hp ▸ hpm)
            exact { this with order := by rw [ho]; exact this.order }
          tracked := by rw [hp, ht]; exact h.ledger.tracked
          entry := by rw [hp, ho]; exact h.ledger.entry
          balance := fun symbol => by
            have hheld : s'.held symbol = w.state.held symbol := by simp only [LifecycleState.held, hp]
            rw [hrec, hrec, hheld, h.ledger.balance] }
      matched := by rw [ho]; exact h.matched
      intent := fun c hc => by
        obtain ⟨q, hq, hne, hsub⟩ := h.intent c hc
        obtain ⟨q', hq', hsub', -, hconf⟩ := hi _ q hq
        refine ⟨q', hq', fun e => ?_, fun e => ?_⟩
        · exact (hconf e).elim hne fun hno => hno c hc rfl
        · rw [ho]
          exact hsub (hsub'.2 e)
      once := h.once
      lots := h.lots
      intentLots := hl
      covered := fun symbol => by
        rw [hrec]
        refine le_trans ?_ (h.covered symbol)
        simp only [pledged, sumWhere_eq_sum]
        refine List.sum_le_sum fun c hc => ?_
        split
        · rename_i hcond
          rw [Bool.and_eq_true] at hcond
          rw [if_pos (by rw [Bool.and_eq_true]; exact ⟨hcond.1, hcounted c hc hcond.2⟩)]
        · split
          · exact c.potential_nonneg
          · exact le_rfl
      alone := fun c hc hside hcnt hn p hpm hsym hop =>
        h.alone c hc hside (hcounted c hc hcnt) (fun e => hn ((hsettled c).2 e)) p (hp ▸ hpm) hsym hop
      entry := fun c hc d hd hcs hds hsym hcc hdc hcn hdn =>
        h.entry c hc d hd hcs hds hsym (hcounted c hc hcc) (hcounted d hd hdc) (fun e => hcn ((hsettled c).2 e))
          (fun e => hdn ((hsettled d).2 e)) }

/-- A status that is not terminal is put on an order. -/
theorem markUnconfirmed (h : Sound u w) (id : BrokerOrderId) (heard : BrokerOrderId → ℚ) :
    Sound u ⟨w.state.markUnconfirmed id, w.broker, heard⟩ := by
  have hmem : ∀ o, o ∈ (w.state.markUnconfirmed id).orders.rows ↔ ∃ q ∈ w.state.orders.rows,
      (if decide (q.id = id) then { q with status := .unconfirmedTimeout } else q) = o := fun o => mem_updateRows
  have hback : ∀ o ∈ (w.state.markUnconfirmed id).orders.rows, ∃ q ∈ w.state.orders.rows, o.id = q.id ∧
      o.intentId = q.intentId ∧ o.symbol = q.symbol ∧ o.filledQty = q.filledQty ∧
      (o.status.terminal = true → q.status.terminal = true) := fun o ho => by
    obtain ⟨q, hq, rfl⟩ := (hmem o).1 ho
    refine ⟨q, hq, ?_⟩
    split
    · exact ⟨rfl, rfl, rfl, rfl, fun e => by cases e⟩
    · exact ⟨rfl, rfl, rfl, rfl, fun e => e⟩
  have hforth : ∀ q ∈ w.state.orders.rows, ∃ o ∈ (w.state.markUnconfirmed id).orders.rows, o.id = q.id ∧
      o.intentId = q.intentId ∧ o.filledQty = q.filledQty := fun q hq => by
    refine ⟨_, (hmem _).2 ⟨q, hq, rfl⟩, ?_⟩
    split <;> exact ⟨rfl, rfl, rfl⟩
  have hrec : ∀ symbol side, (w.state.markUnconfirmed id).recorded symbol side = w.state.recorded symbol side :=
    fun symbol side => by
      simp only [LifecycleState.recorded, sumWhere_eq_sum]
      refine congrArg List.sum (map_updateRows ?_ _)
      intro q
      rfl
  have hsettled : ∀ c, Settled w.state c → Settled (w.state.markUnconfirmed id) c := fun c hc => by
    obtain ⟨hterm, q, hq, hid, hqf⟩ := hc
    obtain ⟨o, ho, hoid, -, hof⟩ := hforth q hq
    exact ⟨hterm, o, ho, hoid.trans hid, hof.trans hqf⟩
  exact
    { filings :=
        { symbol := fun o ho => by
            obtain ⟨q, hq, -, hi, hs, -⟩ := hback o ho
            rw [hs, hi, h.filings.symbol q hq]
          intent := fun o ho => by
            obtain ⟨q, hq, -, hi, -⟩ := hback o ho
            rw [hi]
            exact h.filings.intent q hq
          single := fun o ho o' ho' he => by
            obtain ⟨q, hq, hid, hi, -⟩ := hback o ho
            obtain ⟨q', hq', hid', hi', -⟩ := hback o' ho'
            have := h.filings.single q hq q' hq' (by rw [← hi, he, hi'])
            exact (w.state.markUnconfirmed id).orders.eq_of_key ho ho' (by rw [hid, this, hid'])
          nonneg := fun o ho => by
            obtain ⟨q, hq, -, -, -, hf, -⟩ := hback o ho
            rw [hf]
            exact h.filings.nonneg q hq
          lots := fun o ho => by
            obtain ⟨q, hq, -, -, -, hf, -⟩ := hback o ho
            rw [hf]
            exact h.filings.lots q hq }
      ledger :=
        { position := fun p hp => by
            have hsound := h.ledger.position p hp
            obtain ⟨q, hq, hqi, hqf⟩ := hsound.order
            obtain ⟨o, ho, -, hoi, hof⟩ := hforth q hq
            exact { hsound with order := ⟨o, ho, hoi.trans hqi, hof.trans hqf⟩ }
          tracked := h.ledger.tracked
          entry := fun o ho hside hpos => by
            obtain ⟨q, hq, -, hi, -, hf, -⟩ := hback o ho
            rw [hi] at hside ⊢
            exact h.ledger.entry q hq hside (hf ▸ hpos)
          balance := fun symbol => by
            rw [hrec, hrec]
            exact h.ledger.balance symbol }
      matched := fun o ho => by
        obtain ⟨q, hq, hid, hi, -, hf, hterm⟩ := hback o ho
        obtain ⟨c, hc, hm⟩ := h.matched q hq
        refine ⟨c, hc, hm.id.trans hid.symm, hm.intent.trans hi.symm, hf ▸ hm.le, fun e => ?_⟩
        rw [hf]
        exact hm.final (hterm e)
      intent := fun c hc => by
        obtain ⟨i, hi, hne, hsub⟩ := h.intent c hc
        refine ⟨i, hi, hne, fun e => ?_⟩
        obtain ⟨q, hq, hid⟩ := hsub e
        obtain ⟨o, ho, hoid, -⟩ := hforth q hq
        exact ⟨o, ho, hoid.trans hid⟩
      once := h.once
      lots := h.lots
      intentLots := h.intentLots
      covered := fun symbol => by
        rw [hrec]
        exact h.covered symbol
      alone := fun c hc hside hcnt hn => h.alone c hc hside hcnt fun e => hn (hsettled c e)
      entry := fun c hc d hd hcs hds hsym hcc hdc hcn hdn =>
        h.entry c hc d hd hcs hds hsym hcc hdc (fun e => hcn (hsettled c e)) fun e => hdn (hsettled d e) }

/-- The reason of an exit is put on a position. -/
theorem markExitTriggered (h : Sound u w) (symbol : Symbol) (reason : ExitReason) (heard : BrokerOrderId → ℚ) :
    Sound u ⟨markExitTriggered w.state symbol reason, w.broker, heard⟩ := by
  unfold Piv.markExitTriggered
  split
  · exact { h with }
  split
  · exact { h with }
  rename_i position _ _
  generalize hs : ({ w.state with
    positions := w.state.positions.update (·.id = position.id)
      (fun q => { q with triggeredExitReason := some reason }) fun _ => rfl } : LifecycleState) = s'
  have hback : ∀ p ∈ s'.positions.rows, ∃ q ∈ w.state.positions.rows, p.id = q.id ∧ p.symbol = q.symbol ∧
      p.quantity = q.quantity ∧ p.status = q.status ∧ p.exitQuantity = q.exitQuantity ∧
      p.remainingQuantity = q.remainingQuantity := fun p hp => by
    rw [← hs] at hp
    obtain ⟨q, hq, rfl⟩ := mem_updateRows.1 hp
    refine ⟨q, hq, ?_⟩
    split <;> exact ⟨rfl, rfl, rfl, rfl, rfl, rfl⟩
  have hforth : ∀ q ∈ w.state.positions.rows, ∃ p ∈ s'.positions.rows, p.id = q.id ∧ p.symbol = q.symbol ∧
      p.status = q.status := fun q hq => by
    refine ⟨_, by rw [← hs]; exact mem_updateRows.2 ⟨q, hq, rfl⟩, ?_⟩
    split <;> exact ⟨rfl, rfl, rfl⟩
  have horders : s'.orders = w.state.orders := by rw [← hs]
  have hintents : s'.intents = w.state.intents := by rw [← hs]
  have htracked : s'.openPositionBySymbol = w.state.openPositionBySymbol := by rw [← hs]
  have hsettled : ∀ c, Settled s' c ↔ Settled w.state c := fun c => by simp only [Settled, horders]
  have hcounted : ∀ c, counted s' c = counted w.state c := fun c => by simp only [counted, hintents]
  exact
    { filings :=
        ⟨horders ▸ h.filings.symbol, by rw [horders, hintents]; exact h.filings.intent, horders ▸ h.filings.single,
          horders ▸ h.filings.nonneg, horders ▸ h.filings.lots⟩
      ledger :=
        { position := fun p hp => by
            obtain ⟨q, hq, hid, hsym, hqu, hst, hex, hrem⟩ := hback p hp
            have hsound := h.ledger.position q hq
            exact
              { side := hid ▸ hsound.side
                symbol := by rw [hsym, hid]; exact hsound.symbol
                order := by rw [horders, hid, hqu]; exact hsound.order
                positive := hqu ▸ hsound.positive
                rest := by rw [hrem, hqu, hex]; exact hsound.rest
                nonneg := hrem ▸ hsound.nonneg
                opened := by rw [hst, hrem]; exact hsound.opened
                lots := hrem ▸ hsound.lots }
          tracked := fun sym id => by
            rw [htracked, h.ledger.tracked]
            constructor
            · rintro ⟨q, hq, rfl, hqs, hqo⟩
              obtain ⟨p, hp, hid, hsym, hst⟩ := hforth q hq
              exact ⟨p, hp, hid, hsym.trans hqs, hst.trans hqo⟩
            · rintro ⟨p, hp, rfl, hps, hpo⟩
              obtain ⟨q, hq, hid, hsym, -, hst, -⟩ := hback p hp
              exact ⟨q, hq, hid.symm, hsym ▸ hps, hst ▸ hpo⟩
          entry := fun o ho hside hpos => by
            obtain ⟨q, hq, he⟩ := h.ledger.entry o (horders ▸ ho) hside hpos
            obtain ⟨p, hp, hid, -⟩ := hforth q hq
            exact ⟨p, hp, by rw [hid, he]⟩
          balance := fun sym => by
            have hheld : s'.held sym = w.state.held sym := by
              rw [← hs]
              simp only [LifecycleState.held, sumWhere_eq_sum]
              refine congrArg List.sum (map_updateRows ?_ _)
              intro q
              rfl
            have hrec : ∀ side, s'.recorded sym side = w.state.recorded sym side := fun side => by
              simp only [LifecycleState.recorded, horders]
            rw [hheld, hrec, hrec, h.ledger.balance] }
      matched := by rw [horders]; exact h.matched
      intent := by rw [hintents, horders]; exact h.intent
      once := h.once
      lots := h.lots
      intentLots := by rw [hintents]; exact h.intentLots
      covered := fun sym => by
        have := h.covered sym
        simp only [pledged, hcounted, LifecycleState.recorded, horders] at this ⊢
        exact this
      alone := fun c hc hside hcnt hn p hp hsym hop => by
        obtain ⟨q, hq, hid, hqs, -, hst, -⟩ := hback p hp
        rw [hid]
        exact h.alone c hc hside ((hcounted c) ▸ hcnt) (fun e => hn ((hsettled c).2 e)) q hq (hqs ▸ hsym) (hst ▸ hop)
      entry := fun c hc d hd hcs hds hsym hcc hdc hcn hdn =>
        h.entry c hc d hd hcs hds hsym ((hcounted c) ▸ hcc) ((hcounted d) ▸ hdc) (fun e => hcn ((hsettled c).2 e))
          fun e => hdn ((hsettled d).2 e) }

/-! ## What happens at the broker -/

/-- An order takes on another state. -/
theorem move (h : Sound u w) (hb : b ∈ w.broker.rows) {next : Snapshot} (hmove : b.CanMove next) (hl : Lots u next.filled)
    (heard : BrokerOrderId → ℚ) :
    Sound u ⟨w.state, w.broker.update (·.id = b.id) (·.move next) fun _ => BrokerOrder.id_move _ _, heard⟩ := by
  have hmem : ∀ c, c ∈ (w.broker.update (·.id = b.id) (·.move next) fun _ => BrokerOrder.id_move _ _).rows ↔
      (c ∈ w.broker.rows ∧ c.id ≠ b.id) ∨ c = b.move next := fun c =>
    Table.mem_update_key (f := fun x : BrokerOrder => x.move next) (fun _ => BrokerOrder.id_move _ _) hb
  have hmoved : b.move next = b.moveTo next hmove := dif_pos hmove
  have hnow : (b.move next).now = next := by rw [hmoved]; rfl
  -- the order that moved was not terminal, so it was not settled
  have hlive : ∀ s, ¬ Settled s b := fun s hs => by
    have := hs.1
    rw [hmove.1] at this
    cases this
  have hback : ∀ c, c ∈ (w.broker.update (·.id = b.id) (·.move next) fun _ => BrokerOrder.id_move _ _).rows →
      ∃ d ∈ w.broker.rows, c.id = d.id ∧ c.intentId = d.intentId ∧ (¬ Settled w.state c → ¬ Settled w.state d) :=
    fun c hc => by
      rcases (hmem c).1 hc with ⟨hc, -⟩ | rfl
      · exact ⟨c, hc, rfl, rfl, fun e => e⟩
      · exact ⟨b, hb, BrokerOrder.id_move _ _, BrokerOrder.intentId_move _ _, fun _ => hlive _⟩
  exact
    { filings := h.filings
      ledger := h.ledger
      matched := fun o ho => by
        obtain ⟨c, hc, hm⟩ := h.matched o ho
        by_cases hcb : c.id = b.id
        · obtain rfl := w.broker.eq_of_key hc hb hcb
          refine ⟨c.move next, (hmem _).2 (.inr rfl), (BrokerOrder.id_move _ _).trans hm.id,
            (BrokerOrder.intentId_move _ _).trans hm.intent, ?_, fun e => ?_⟩
          · rw [hnow]
            exact hm.le.trans hmove.2.1
          · have := (hm.final e).1
            rw [hmove.1] at this
            cases this
        · exact ⟨c, (hmem c).2 (.inl ⟨hc, hcb⟩), hm⟩
      intent := fun c hc => by
        obtain ⟨d, hd, hid, hi, -⟩ := hback c hc
        rw [hi, hid]
        exact h.intent d hd
      once := fun c hc c' hc' he => by
        obtain ⟨d, hd, hid, hi, -⟩ := hback c hc
        obtain ⟨d', hd', hid', hi', -⟩ := hback c' hc'
        have := h.once d hd d' hd' (by rw [← hi, he, hi'])
        exact Table.eq_of_key _ hc hc' (by rw [hid, this, hid'])
      lots := fun c hc p hp => by
        rcases (hmem c).1 hc with ⟨hc, -⟩ | rfl
        · exact h.lots c hc p hp
        · rw [hmoved] at hp
          rcases List.mem_cons.1 hp with rfl | hp
          · exact hl
          · exact h.lots b hb p hp
      intentLots := h.intentLots
      covered := fun symbol => by
        refine le_trans ?_ (h.covered symbol)
        have hsum := Table.sumWhere_update_key (f := fun x : BrokerOrder => x.move next)
          (fun _ => BrokerOrder.id_move _ _) (c := fun c => sent symbol .sell c && counted w.state c)
          (g := BrokerOrder.potential) hb
        have hcond : (sent symbol .sell (b.move next) && counted w.state (b.move next)) =
            (sent symbol .sell b && counted w.state b) := by
          simp only [sent, counted, BrokerOrder.intentId_move]
        have hpot : (b.move next).potential ≤ b.potential := by
          rw [BrokerOrder.potential_of_live hmove.1]
          have := (b.move next).potential_le
          rwa [BrokerOrder.intentId_move] at this
        refine (le_of_eq hsum).trans ?_
        rw [hcond]
        unfold pledged
        split <;> linarith
      alone := fun c hc hside hcnt hn p hp hsym hop => by
        obtain ⟨d, hd, -, hi, hns⟩ := hback c hc
        rw [hi] at hside hsym ⊢
        exact h.alone d hd hside (by simpa only [counted, hi] using hcnt) (hns hn) p hp hsym hop
      entry := fun c hc c' hc' hcs hcs' hsym hcc hcc' hcn hcn' => by
        obtain ⟨d, hd, -, hi, hns⟩ := hback c hc
        obtain ⟨d', hd', -, hi', hns'⟩ := hback c' hc'
        rw [hi] at hcs hsym ⊢
        rw [hi'] at hcs' hsym ⊢
        exact h.entry d hd d' hd' hcs hcs' hsym (by simpa only [counted, hi] using hcc)
          (by simpa only [counted, hi'] using hcc') (hns hcn) (hns' hcn') }

/-- The broker receives an order: a SELL is covered, and a BUY is the only entry of its symbol. -/
theorem received (h : Sound u w) {id : BrokerOrderId} {i : IntentId} {q : Intent} {t : Table BrokerOrder.id}
    (hi : w.state.intents.get i = some q) (hq : q.status = .orderIntent) (hnew : ∀ c ∈ w.broker.rows, c.intentId ≠ i)
    (ht : w.broker.insert? (BrokerOrder.place id i) = some t)
    (hsell : i.side = .sell → pledged w i.symbol + i.quantity ≤ w.state.recorded i.symbol .buy)
    (hflat : i.side = .buy → w.state.openPositionFor i.symbol = none)
    (hdone : i.side = .buy → ∀ c ∈ w.broker.rows, c.intentId.side = .buy → c.intentId.symbol = i.symbol →
      counted w.state c → Settled w.state c) (heard : BrokerOrderId → ℚ) : Sound u ⟨w.state, t, heard⟩ := by
  obtain ⟨hrows, -⟩ := Table.insert?_eq_some ht
  have hmem : ∀ c, c ∈ t.rows ↔ c ∈ w.broker.rows ∨ c = BrokerOrder.place id i := fun c => by
    rw [hrows, List.mem_append, List.mem_singleton]
  have hpot : (BrokerOrder.place id i).potential = i.quantity := BrokerOrder.potential_of_live rfl
  have hnone : ∀ p ∈ w.state.positions.rows, i.side = .buy → p.symbol = i.symbol → p.status ≠ .opened :=
    fun p hp hside hsym hop => by
      have := h.ledger.openPositionFor_eq_some.2 ⟨hp, hsym, hop⟩
      rw [hflat hside] at this
      cases this
  exact
    { filings := h.filings
      ledger := h.ledger
      matched := fun o ho => by
        obtain ⟨c, hc, hm⟩ := h.matched o ho
        exact ⟨c, (hmem c).2 (.inl hc), hm⟩
      intent := fun c hc => by
        rcases (hmem c).1 hc with hc | rfl
        · exact h.intent c hc
        · refine ⟨q, hi, ?_, fun e => ?_⟩
          · rw [hq]
            nofun
          · rw [hq] at e
            cases e
      once := fun c hc d hd he => by
        rcases (hmem c).1 hc with hc | rfl <;> rcases (hmem d).1 hd with hd | rfl
        · exact h.once c hc d hd he
        · exact absurd he (hnew c hc)
        · exact absurd he.symm (hnew d hd)
        · rfl
      lots := fun c hc p hp => by
        rcases (hmem c).1 hc with hc | rfl
        · exact h.lots c hc p hp
        · rcases List.mem_cons.1 hp with rfl | hp
          · exact Lots.zero
          · exact (List.not_mem_nil hp).elim
      intentLots := h.intentLots
      covered := fun symbol => by
        have hsum : pledged ⟨w.state, t, heard⟩ symbol = pledged w symbol +
            if sent symbol .sell (BrokerOrder.place id i) && counted w.state (BrokerOrder.place id i) then i.quantity
            else 0 := by
          simp only [pledged, hrows, sumWhere_append, sumWhere_cons, sumWhere_nil, hpot, add_zero]
        rw [hsum]
        split
        · rename_i hcond
          simp only [sent, BrokerOrder.place, Bool.and_eq_true] at hcond
          have hsym : i.symbol = symbol := of_decide_eq_true hcond.1.1
          rw [← hsym]
          exact hsell (of_decide_eq_true hcond.1.2)
        · rw [add_zero]
          exact h.covered symbol
      alone := fun c hc hside hcnt hn p hp hsym hop => by
        rcases (hmem c).1 hc with hc | rfl
        · exact h.alone c hc hside hcnt hn p hp hsym hop
        · exact absurd hop (hnone p hp hside hsym)
      entry := fun c hc d hd hcs hds hsym hcc hdc hcn hdn => by
        rcases (hmem c).1 hc with hc | rfl <;> rcases (hmem d).1 hd with hd | rfl
        · exact h.entry c hc d hd hcs hds hsym hcc hdc hcn hdn
        · exact absurd (hdone hds c hc hcs hsym hcc) hcn
        · exact absurd (hdone hcs d hd hds hsym.symm hdc) hdn
        · rfl }

/-- An order that the broker has is put on file. -/
theorem recordOrder (h : Sound u w) {q : Intent} (hb : b ∈ w.broker.rows)
    (hi : w.state.intents.get b.intentId = some q) (hq : q.status = .orderIntent ∨ q.status = .submitFailedUncertain)
    (heard : BrokerOrderId → ℚ) : Sound u ⟨w.state.recordOrder b.intentId b.id, w.broker, heard⟩ := by
  have hqs : q.status ≠ .submitted ∧ q.status ≠ .rejected := by rcases hq with e | e <;> rw [e] <;> exact ⟨by rintro ⟨⟩, by rintro ⟨⟩⟩
  -- the order is not on file yet, because its intent is not `SUBMITTED`
  have hfree : ∀ o ∈ w.state.orders.rows, o.intentId ≠ b.intentId := fun o ho e => by
    obtain ⟨q', hq', hst⟩ := h.filings.intent o ho
    rw [e, hi] at hq'
    obtain rfl := Option.some.inj hq'
    exact hqs.1 hst
  have hfreeId : ∀ o ∈ w.state.orders.rows, o.id ≠ b.id := fun o ho e => by
    obtain ⟨c, hc, hm⟩ := h.matched o ho
    obtain rfl := w.broker.eq_of_key hc hb (hm.id.trans e)
    exact hfree o ho hm.intent.symm
  generalize hnew : (⟨b.id, b.intentId, b.intentId.symbol, .submitted, 0, none⟩ : Order) = new
  have hstate : w.state.recordOrder b.intentId b.id = (w.state.setIntentStatus b.intentId .submitted).putOrder new := by
    rw [← hnew]
    rfl
  have hnewId : new.id = b.id := by rw [← hnew]
  have hnewIntent : new.intentId = b.intentId := by rw [← hnew]
  have hnewFilled : new.filledQty = 0 := by rw [← hnew]
  have hreplace : ∀ x : Order, x.id = new.id → { new with id := x.id } = new := fun x hx => by rw [hx]
  have hmem : ∀ o, o ∈ (w.state.recordOrder b.intentId b.id).orders.rows ↔ o ∈ w.state.orders.rows ∨ o = new :=
    fun o => by
      rw [hstate]
      refine (Table.mem_upsert_of_replace hreplace).trans (or_congr_left ⟨And.left, fun ho => ⟨ho, ?_⟩⟩)
      rw [hnewId]
      exact hfreeId o ho
  have hget : ∀ i, (w.state.recordOrder b.intentId b.id).intents.get i =
      (w.state.intents.get i).map fun x => if decide (x.id = b.intentId) then { x with status := .submitted } else x :=
    fun i => get_setIntentStatus
  have hgetOther : ∀ i, i ≠ b.intentId → (w.state.recordOrder b.intentId b.id).intents.get i = w.state.intents.get i :=
    fun i hne => by
      rw [hget]
      cases hg : w.state.intents.get i with
      | none => rfl
      | some x =>
        have hx : x.id ≠ b.intentId := Table.key_of_get hg ▸ hne
        simp [hx]
  have hgetSelf : (w.state.recordOrder b.intentId b.id).intents.get b.intentId = some { q with status := .submitted } := by
    rw [hget, hi]
    simp [Table.key_of_get hi]
  have hcounted : ∀ c ∈ w.broker.rows, counted (w.state.recordOrder b.intentId b.id) c = counted w.state c :=
    fun c _ => by
      by_cases hc : c.intentId = b.intentId
      · simp only [counted, hc, hgetSelf, hi, Option.all_some]
        simp [hqs.2]
      · simp only [counted, hgetOther _ hc]
  have hsettled : ∀ c, Settled w.state c → Settled (w.state.recordOrder b.intentId b.id) c := fun c hc => by
    obtain ⟨hterm, o, ho, hid, hf⟩ := hc
    exact ⟨hterm, o, (hmem o).2 (.inl ho), hid, hf⟩
  have hrec : ∀ symbol side, (w.state.recordOrder b.intentId b.id).recorded symbol side =
      w.state.recorded symbol side := fun symbol side => by
    have hsum : ((w.state.setIntentStatus b.intentId .submitted).putOrder new).recorded symbol side = _ :=
      Table.sumWhere_upsert_of_replace (t := w.state.orders) (c := LifecycleState.ordersOf symbol side)
        (g := Order.filledQty) hreplace
    have hnone : w.state.orders.get new.id = none := Table.get_eq_none.2 fun o ho => by
      rw [hnewId]
      exact hfreeId o ho
    rw [hstate]
    refine hsum.trans ?_
    rw [hnone, hnewFilled]
    simp [LifecycleState.recorded]
  exact
    { filings :=
        { symbol := fun o ho => by
            rcases (hmem o).1 ho with ho | rfl
            · exact h.filings.symbol o ho
            · rw [← hnew]
          intent := fun o ho => by
            rcases (hmem o).1 ho with ho | rfl
            · rw [hgetOther _ (hfree o ho)]
              exact h.filings.intent o ho
            · rw [hnewIntent]
              exact ⟨_, hgetSelf, rfl⟩
          single := fun o ho o' ho' he => by
            rcases (hmem o).1 ho with ho | rfl <;> rcases (hmem o').1 ho' with ho' | rfl
            · exact h.filings.single o ho o' ho' he
            · exact absurd (he.trans hnewIntent) (hfree o ho)
            · exact absurd (he.symm.trans hnewIntent) (hfree o' ho')
            · rfl
          nonneg := fun o ho => by
            rcases (hmem o).1 ho with ho | rfl
            · exact h.filings.nonneg o ho
            · rw [hnewFilled]
          lots := fun o ho => by
            rcases (hmem o).1 ho with ho | rfl
            · exact h.filings.lots o ho
            · rw [hnewFilled]
              exact Lots.zero }
      ledger :=
        { position := fun p hp => by
            have hsound := h.ledger.position p hp
            obtain ⟨o, ho, hoi, hof⟩ := hsound.order
            exact { hsound with order := ⟨o, (hmem o).2 (.inl ho), hoi, hof⟩ }
          tracked := h.ledger.tracked
          entry := fun o ho hside hpos => by
            rcases (hmem o).1 ho with ho | rfl
            · exact h.ledger.entry o ho hside hpos
            · rw [hnewFilled] at hpos
              exact absurd hpos (lt_irrefl _)
          balance := fun symbol => by
            rw [hrec, hrec]
            exact h.ledger.balance symbol }
      matched := fun o ho => by
        rcases (hmem o).1 ho with ho | rfl
        · exact h.matched o ho
        · refine ⟨b, hb, hnewId.symm, hnewIntent.symm, ?_, fun e => ?_⟩
          · rw [hnewFilled]
            exact b.bounded.1
          · rw [← hnew] at e
            cases e
      intent := fun c hc => by
        by_cases hcb : c.intentId = b.intentId
        · obtain rfl := h.once c hc b hb hcb
          exact ⟨_, hgetSelf, (by rintro ⟨⟩), fun _ => ⟨new, (hmem new).2 (.inr rfl), hnewId⟩⟩
        · obtain ⟨x, hx, hne, hsub⟩ := h.intent c hc
          refine ⟨x, by rw [hgetOther _ hcb, hx], hne, fun e => ?_⟩
          obtain ⟨o, ho, hid⟩ := hsub e
          exact ⟨o, (hmem o).2 (.inl ho), hid⟩
      once := h.once
      lots := h.lots
      intentLots := fun x hx => by
        obtain ⟨y, hy, rfl⟩ := mem_updateRows.1 hx
        split <;> exact h.intentLots y hy
      covered := fun symbol => by
        rw [hrec]
        refine le_trans (le_of_eq ?_) (h.covered symbol)
        simp only [pledged, sumWhere_eq_sum]
        refine congrArg List.sum (List.map_congr_left fun c hc => ?_)
        rw [hcounted c hc]
      alone := fun c hc hside hcnt hn =>
        h.alone c hc hside ((hcounted c hc) ▸ hcnt) fun e => hn (hsettled c e)
      entry := fun c hc d hd hcs hds hsym hcc hdc hcn hdn =>
        h.entry c hc d hd hcs hds hsym ((hcounted c hc) ▸ hcc) ((hcounted d hd) ▸ hdc) (fun e => hcn (hsettled c e))
          fun e => hdn (hsettled d e) }

end Sound

end TalonX.Piv
