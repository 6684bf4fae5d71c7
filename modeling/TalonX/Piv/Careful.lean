import TalonX.Piv.Safety

/-!
# Careful runs

- what an admitted request went through (`admitIntent_ok`, `buyGuards_ok`, `sellGuards_ok`);
- `Sound.pledged_le`: what the SELL orders of a symbol may still come to is recorded or pending, unless a received order
  is an `ORDER_INTENT` that a crash left behind;
- `Careful`, and `Sound.of_reach`: a careful run keeps the invariant.
-/

set_option autoImplicit false

namespace TalonX.Piv

open Transact V2 World

variable {u : ℚ} {cfg : Config} {w w' : World} {s s' : LifecycleState} {r : OrderRequest} {i : IntentId} {symbol : Symbol}

/-! ## Admission -/

theorem wellFormed_ok (h : wellFormed r = .ok i) :
    i.symbol = r.symbol ∧ r.side = some i.side ∧ r.quantity = some i.quantity := by
  unfold wellFormed at h
  split at h
  · cases h
  · cases h
  · rename_i side quantity hside hquantity
    split at h
    · split at h
      · obtain rfl := Except.ok.inj h
        exact ⟨rfl, hside, hquantity⟩
      · cases h
    · cases h

theorem admitIntent_ok (h : admitIntent cfg s r = .ok (i, s')) :
    wellFormed r = .ok i ∧ s.intents.get i = none ∧ ∃ budgets, guards cfg s r i = .ok budgets ∧
      s' = { s with intents := s.intents.insertOrIgnore (r.intent i), experimentalBudgets := budgets } := by
  unfold admitIntent at h
  split at h
  · cases h
  · rename_i j hj
    split at h
    · cases h
    · rename_i hnew
      split at h
      · cases h
      · split at h
        · cases h
        · rename_i budgets hbudgets
          obtain ⟨rfl, rfl⟩ := Prod.mk.inj (Except.ok.inj h)
          exact ⟨hj, by simpa using hnew, budgets, hbudgets, rfl⟩

/-- The intent of an admitted request is on file, and no other has changed. -/
theorem get_admitted (h : admitIntent cfg s r = .ok (i, s')) :
    s'.intents.get i = some (r.intent i) ∧ ∀ j, j ≠ i → s'.intents.get j = s.intents.get j := by
  obtain ⟨-, hnone, budgets, -, rfl⟩ := admitIntent_ok h
  refine ⟨?_, fun j hne => Table.get_insertOrIgnore_of_ne hne⟩
  have hrows := s.intents.rows_insertOrIgnore (r.intent i)
  rw [if_pos (show s.intents.get (r.intent i).id = none from hnone)] at hrows
  rw [Table.get_append hrows, hnone]
  simp [OrderRequest.intent]

theorem buyGuards_ok {budgets : Budgets} (h : buyGuards cfg s r = .ok budgets) :
    s.openPositionFor r.symbol = none ∧ s.entryStillPendingOrUncertain r.symbol = false ∧
      s.reconciliationFlags.entryAdmissionBlocked = false := by
  unfold buyGuards at h
  split at h
  · cases h
  split at h
  · cases h
  rename_i hopen
  split at h
  · cases h
  rename_i hpending
  split at h
  · cases h
  rename_i hblocked
  exact ⟨by simpa using hopen, by simpa using hpending, by simpa using hblocked⟩

theorem sellGuards_ok {quantity : ℚ} {budgets : Budgets} (h : sellGuards s symbol quantity = .ok budgets) :
    ∃ p, s.openPositionFor symbol = some p ∧
      quantity ≤ p.remainingQuantity - s.pendingQuantity symbol .sell + shareTolerance := by
  unfold sellGuards at h
  split at h
  · cases h
  rename_i p hp
  split at h
  · cases h
  rename_i hle
  exact ⟨p, hp, not_lt.1 hle⟩

/-! ## What is pending -/

/-- The orders that a symbol and a side have outstanding are its orders on file that are not terminal. -/
theorem Filings.nonTerminalOrdersFor (hf : Filings u s) (symbol : Symbol) (side : Side) :
    s.nonTerminalOrdersFor symbol side =
      (s.orders.rows.filter (LifecycleState.ordersOf symbol side)).filter (!·.status.terminal) := by
  rw [LifecycleState.nonTerminalOrdersFor, List.filter_filter]
  refine List.filter_congr fun o ho => ?_
  obtain ⟨q, hq, -⟩ := hf.intent o ho
  have hside : s.sideIs side o = decide (o.intentId.side = side) := by
    simp only [LifecycleState.sideIs, hq, Option.any_some, Table.key_of_get hq]
  rw [hside, hf.symbol o ho, LifecycleState.ordersOf]
  cases decide (o.intentId.symbol = symbol) <;> cases decide (o.intentId.side = side) <;> cases o.status.terminal <;> rfl

/-- What an order on file has given and may still give. -/
def Order.reach (o : Order) : ℚ :=
  o.filledQty + if o.status.terminal then 0 else max 0 (o.intentId.quantity - o.filledQty)

theorem Filings.recorded_add_pending (hf : Filings u s) (symbol : Symbol) (side : Side) :
    s.recorded symbol side + s.pendingQuantity symbol side =
      ((s.orders.rows.filter (LifecycleState.ordersOf symbol side)).map Order.reach).sum +
        ((s.orphanedUncertainIntentsFor symbol side).map fun i => i.id.quantity).sum := by
  rw [LifecycleState.pendingQuantity, hf.nonTerminalOrdersFor, LifecycleState.recorded, sumWhere, ← add_assoc]
  congr 1
  induction s.orders.rows.filter (LifecycleState.ordersOf symbol side) with
  | nil => simp
  | cons o rows ih =>
    simp only [List.map_cons, List.sum_cons, Order.reach]
    cases ht : o.status.terminal with
    | true =>
      rw [List.filter_cons_of_neg (by simp [ht])]
      simp only [if_true]
      linarith
    | false =>
      rw [List.filter_cons_of_pos (by simp [ht])]
      simp only [List.map_cons, List.sum_cons, Bool.false_eq_true, if_false]
      linarith

namespace Sound

/-- What the SELL orders may come to is recorded or pending. -/
theorem pledged_le (h : Sound u w)
    (horphan : ∀ b ∈ w.broker.rows, sent symbol .sell b → ∀ q, w.state.intents.get b.intentId = some q →
      q.status ≠ .orderIntent) :
    pledged w symbol ≤ w.state.recorded symbol .sell + w.state.pendingQuantity symbol .sell := by
  rw [h.filings.recorded_add_pending]
  have hsum : (((w.broker.rows.filter fun b => sent symbol .sell b && counted w.state b).map fun b =>
      (b.intentId, b.potential)).map Prod.snd).sum ≤
      (((w.state.orders.rows.filter (LifecycleState.ordersOf symbol .sell)).map (fun o => (o.intentId, o.reach)) ++
        (w.state.orphanedUncertainIntentsFor symbol .sell).map fun q => (q.id, q.id.quantity)).map Prod.snd).sum := by
    apply sum_le_sum_of_keys
    · intro x hx
      rcases List.mem_append.1 hx with hx | hx
      · obtain ⟨o, ho, rfl⟩ := List.mem_map.1 hx
        have hpos := h.filings.nonneg o (List.mem_filter.1 ho).1
        show 0 ≤ o.reach
        unfold Order.reach
        split
        · rwa [add_zero]
        · exact add_nonneg hpos (le_max_left ..)
      · obtain ⟨q, -, rfl⟩ := List.mem_map.1 hx
        exact q.id.positive.le
    · rw [List.map_map]
      refine List.Nodup.map_on (fun b hb c hc e => ?_) (w.broker.nodup.filter _)
      exact h.once b (List.mem_filter.1 hb).1 c (List.mem_filter.1 hc).1 e
    · intro x hx
      obtain ⟨b, hb, rfl⟩ := List.mem_map.1 hx
      obtain ⟨hb, hcond⟩ := List.mem_filter.1 hb
      obtain ⟨hsent, hcnt⟩ := Bool.and_eq_true_iff.1 hcond
      have hsent' : b.intentId.symbol = symbol ∧ b.intentId.side = .sell := by simpa [sent] using hsent
      obtain ⟨q, hq, hne, hsub⟩ := h.intent b hb
      have hqid := Table.key_of_get hq
      cases hst : q.status with
      | submitted =>
        obtain ⟨o, ho, hid⟩ := hsub hst
        obtain ⟨c, hc, hm⟩ := h.matched o ho
        obtain rfl := w.broker.eq_of_key hc hb (hm.id.trans hid)
        refine ⟨(o.intentId, o.reach), List.mem_append_left _ (List.mem_map.2 ⟨o, List.mem_filter.2 ⟨ho, ?_⟩, rfl⟩),
          hm.intent.symm, ?_⟩
        · simpa [LifecycleState.ordersOf, ← hm.intent] using hsent'
        · show c.potential ≤ o.reach
          unfold Order.reach
          split
          · rename_i ht
            obtain ⟨hct, hof⟩ := hm.final ht
            rw [BrokerOrder.potential_of_terminal hct, hof, add_zero]
          · have := le_max_right 0 (o.intentId.quantity - o.filledQty)
            have hle := c.potential_le
            rw [hm.intent] at hle
            linarith
      | submitFailedUncertain =>
        refine ⟨(q.id, q.id.quantity), List.mem_append_right _ (List.mem_map.2 ⟨q, List.mem_filter.2
          ⟨Table.mem_of_get hq, ?_⟩, rfl⟩), hqid, ?_⟩
        · simp [hst, hqid, hsent']
        · show b.potential ≤ q.id.quantity
          rw [hqid]
          exact b.potential_le
      | orderIntent => exact absurd hst (horphan b hb hsent q hq)
      | rejected => simp [counted, hq, hst] at hcnt
      | confirmedNotSubmitted => exact absurd hst hne
  simpa [pledged, sumWhere, List.map_map, Function.comp_def] using hsum

theorem lots_pending (h : Sound u w) (symbol : Symbol) (side : Side) : Lots u (w.state.pendingQuantity symbol side) := by
  have hquant : ∀ j q, w.state.intents.get j = some q → Lots u j.quantity := fun j q hq => by
    have := h.intentLots q (Table.mem_of_get hq)
    rwa [Table.key_of_get hq] at this
  refine Lots.add (Lots.sum fun x hx => ?_) (Lots.sum fun x hx => ?_)
  · obtain ⟨o, ho, rfl⟩ := List.mem_map.1 hx
    obtain ⟨ho, -⟩ := List.mem_filter.1 ho
    obtain ⟨q, hq, -⟩ := h.filings.intent o ho
    exact Lots.zero.max ((hquant _ q hq).sub (h.filings.lots o ho))
  · obtain ⟨q, hq, rfl⟩ := List.mem_map.1 hx
    exact h.intentLots q (List.mem_filter.1 hq).1

/-- A SELL that passes the guards is covered. -/
theorem covered_sell (h : Sound u w) (hu : shareTolerance < u) {budgets : Budgets}
    (hg : sellGuards w.state i.symbol i.quantity = .ok budgets) (hl : Lots u i.quantity)
    (horphan : ∀ b ∈ w.broker.rows, sent i.symbol .sell b → ∀ q, w.state.intents.get b.intentId = some q →
      q.status ≠ .orderIntent) :
    pledged w i.symbol + i.quantity ≤ w.state.recorded i.symbol .buy := by
  obtain ⟨p, hp, hle⟩ := sellGuards_ok hg
  have hheld := h.ledger.held_of_open hp
  have hpm := (h.ledger.openPositionFor_eq_some.1 hp).1
  -- what exceeds the free shares is within the tolerance, so it is not a lot
  have hlots : Lots u (i.quantity - (p.remainingQuantity - w.state.pendingQuantity i.symbol .sell)) :=
    hl.sub ((h.ledger.position p hpm).lots.sub (h.lots_pending i.symbol .sell))
  have hfit := hlots.nonpos hu (by linarith)
  have hpledged := h.pledged_le horphan
  have hbal := h.ledger.balance i.symbol
  linarith

/-- The entries of a symbol are settled when a BUY passes the guards. -/
theorem settled_of_buy (h : Sound u w) {budgets : Budgets} (hg : buyGuards cfg w.state r = .ok budgets) {b : BrokerOrder}
    (hb : b ∈ w.broker.rows) (hside : b.intentId.side = .buy) (hsym : b.intentId.symbol = r.symbol)
    (hcnt : counted w.state b) : Settled w.state b := by
  obtain ⟨-, hpending, -⟩ := buyGuards_ok hg
  simp only [LifecycleState.entryStillPendingOrUncertain, Bool.or_eq_false_iff, Bool.not_eq_false',
    List.isEmpty_iff] at hpending
  obtain ⟨⟨horders, huncertain⟩, hintents⟩ := hpending
  obtain ⟨q, hq, hne, hsub⟩ := h.intent b hb
  have hqid := Table.key_of_get hq
  have hnone : ∀ status, w.state.intentsFor r.symbol .buy status = [] → q.status ≠ status := fun status he hst => by
    have hmem : q ∈ w.state.intentsFor r.symbol .buy status :=
      List.mem_filter.2 ⟨Table.mem_of_get hq, by simp [hst, hqid, hside, hsym]⟩
    rw [he] at hmem
    exact (List.not_mem_nil hmem).elim
  cases hst : q.status with
  | submitted =>
    obtain ⟨o, ho, hid⟩ := hsub hst
    obtain ⟨c, hc, hm⟩ := h.matched o ho
    obtain rfl := w.broker.eq_of_key hc hb (hm.id.trans hid)
    have hterm : o.status.terminal = true := by
      by_contra hno
      have hmem : o ∈ w.state.nonTerminalOrdersFor r.symbol .buy := by
        rw [h.filings.nonTerminalOrdersFor]
        refine List.mem_filter.2 ⟨List.mem_filter.2 ⟨ho, ?_⟩, by simpa using hno⟩
        simp [LifecycleState.ordersOf, ← hm.intent, hside, hsym]
      rw [horders] at hmem
      exact (List.not_mem_nil hmem).elim
    exact ⟨(hm.final hterm).1, o, ho, hid, (hm.final hterm).2⟩
  | submitFailedUncertain => exact absurd hst (hnone _ huncertain)
  | orderIntent => exact absurd hst (hnone _ hintents)
  | rejected => simp [counted, hq, hst] at hcnt
  | confirmedNotSubmitted => exact absurd hst hne

end Sound

/-! ## Careful events -/

/-- No SELL order of the symbol that the broker received is still an `ORDER_INTENT` on file. -/
def NoOrphanSell (w : World) (symbol : Symbol) : Prop :=
  ∀ b ∈ w.broker.rows, sent symbol .sell b → ∀ q, w.state.intents.get b.intentId = some q → q.status ≠ .orderIntent

/-- A report that brings new shares has a fill status. -/
def OnFill (s : LifecycleState) (id : BrokerOrderId) (r : BrokerReport) : Prop :=
  ∀ o, s.orders.get id = some o → ∀ q, r.filledQty = .finite q → o.filledQty < q →
    ∃ status, r.status = .known status ∧ status.isFill = true

def Careful (u : ℚ) (w : World) : Event → Prop
  | .order r _ => (∀ q, r.quantity = some q → Lots u q) ∧ (r.side = some .sell → NoOrphanSell w r.symbol)
  | .broker _ next => Lots u next.filled
  | .update id r => OnFill w.state id r
  | .pollRead id seen r => r.status ≠ seen → OnFill w.state id r
  | _ => True

/-- What the promotion makes of an intent. -/
def Intent.promoted (s : LifecycleState) (q : Intent) : Intent :=
  if q.status = .orderIntent && !(s.orders.rows.any fun o => o.intentId = q.id) then
    { q with status := .submitFailedUncertain, promotedFromOrphan := true }
  else q

theorem get_promoteOrphanOrderIntents :
    (promoteOrphanOrderIntents s).intents.get i = (s.intents.get i).map (Intent.promoted s) := by
  have hrows : (promoteOrphanOrderIntents s).intents.rows =
      updateRows (fun q => q.status = .orderIntent && !(s.orders.rows.any fun o => o.intentId = q.id))
        (fun q => { q with status := .submitFailedUncertain, promotedFromOrphan := true }) s.intents.rows := rfl
  exact Table.get_updateRows hrows (fun _ => rfl) i

namespace Sound

/-- The invariant does not see the flags, the session and the budgets. -/
theorem of_frame (h : Sound u w) (hi : s'.intents = w.state.intents) (ho : s'.orders = w.state.orders)
    (hp : s'.positions = w.state.positions) (ht : s'.openPositionBySymbol = w.state.openPositionBySymbol)
    (heard : BrokerOrderId → ℚ) : Sound u ⟨s', w.broker, heard⟩ :=
  h.of_intents ho hp ht (fun i q hq => ⟨q, by rw [hi, hq], Iff.rfl, fun e => e, Or.inl⟩) (hi ▸ h.intentLots) heard

/-- The bookkeeping of a lookup. -/
theorem updateIntent (h : Sound u w) (i : IntentId) {f : Intent → Intent} {hf : ∀ q, (f q).id = q.id}
    (hst : ∀ q, (f q).status = q.status) (heard : BrokerOrderId → ℚ) :
    Sound u ⟨w.state.updateIntent i f hf, w.broker, heard⟩ := by
  refine h.of_intents (by rfl) (by rfl) (by rfl) (fun j q hq => ?_) (fun q hq => ?_) heard
  · rw [get_updateIntent, hq]
    refine ⟨if decide (q.id = i) then f q else q, rfl, ?_⟩
    have hsame : (if decide (q.id = i) then f q else q).status = q.status := by
      split
      · exact hst q
      · rfl
    rw [hsame]
    exact ⟨Iff.rfl, fun e => e, Or.inl⟩
  · obtain ⟨x, hx, rfl⟩ := mem_updateRows.1 hq
    split
    · rw [hf]
      exact h.intentLots x hx
    · exact h.intentLots x hx

/-- An intent that is not submitted gets a status that does not hide an order of the broker. -/
theorem setIntentStatus (h : Sound u w) (i : IntentId) (status : IntentStatus)
    (hold : ∀ q, w.state.intents.get i = some q → q.status ≠ .submitted ∧ q.status ≠ .rejected)
    (hnew : status ≠ .submitted)
    (hconf : status = .confirmedNotSubmitted → ∀ b ∈ w.broker.rows, b.intentId ≠ i) (heard : BrokerOrderId → ℚ) :
    Sound u ⟨w.state.setIntentStatus i status, w.broker, heard⟩ := by
  refine h.of_intents (by rfl) (by rfl) (by rfl) (fun j q hq => ?_) (fun q hq => ?_) heard
  · rw [get_setIntentStatus, hq]
    refine ⟨if decide (q.id = i) then { q with status } else q, rfl, ?_⟩
    have hid := Table.key_of_get hq
    split
    · rename_i hqi
      have hj : j = i := hid.symm.trans (of_decide_eq_true hqi)
      subst hj
      obtain ⟨hsub, hrej⟩ := hold q hq
      exact ⟨⟨fun e => absurd e hsub, fun e => absurd e hnew⟩, fun e => absurd e hrej, fun e => .inr (hconf e)⟩
    · exact ⟨Iff.rfl, fun e => e, Or.inl⟩
  · obtain ⟨x, hx, rfl⟩ := mem_updateRows.1 hq
    split <;> exact h.intentLots x hx

/-- A report about an order that the broker has. -/
theorem update (h : Sound u w) (hu : shareTolerance < u) {id : BrokerOrderId} {r : BrokerReport}
    (htold : w.tells id r = true) (hfill : OnFill w.state id r) (heard : BrokerOrderId → ℚ) :
    Sound u ⟨applyBrokerUpdate w.state id r, w.broker, heard⟩ := by
  obtain ⟨b, hget, hb⟩ := (Option.any_eq_true _ _).1 htold
  have hbm := Table.mem_of_get hget
  have hbid := Table.key_of_get hget
  cases ho : w.state.orders.get id with
  | none =>
    have hkey : applyBrokerUpdate w.state id r = w.state := by
      unfold applyBrokerUpdate
      rw [ho]
    rw [hkey]
    exact h.of_frame (by rfl) (by rfl) (by rfl) (by rfl) heard
  | some o =>
    have hom := Table.mem_of_get ho
    obtain rfl := Table.key_of_get ho
    obtain ⟨c, hc, hm⟩ := h.matched o hom
    obtain rfl := w.broker.eq_of_key hc hbm (hm.id.trans hbid.symm)
    obtain ⟨upd, hhist, hst, hq, -, happly⟩ := applyBrokerUpdate_of_told hm hom (of_decide_eq_true hb)
    rw [happly]
    refine h.report hu hom hc hm hhist (fun hlt => ?_) heard
    obtain ⟨status, hstatus, hisFill⟩ := hfill o ho _ hq hlt
    rw [hst] at hstatus
    obtain rfl := StatusText.known.inj hstatus
    exact hisFill

/-- A request that is admitted, and what becomes of it. -/
theorem order (h : Sound u w) (hu : shareTolerance < u) {sub : Submission} {t : Table BrokerOrder.id}
    (hadm : admitIntent cfg w.state r = .ok (i, s')) (htruth : sub.truthful = true)
    (ht : w.receive i sub = some t) (hlots : ∀ q, r.quantity = some q → Lots u q)
    (horphan : r.side = some .sell → NoOrphanSell w r.symbol) (heard : BrokerOrderId → ℚ) :
    Sound u ⟨sub.answer.elim s' (recordSubmission s' i), t, heard⟩ := by
  obtain ⟨hwell, hnone, budgets, hguards, rfl⟩ := admitIntent_ok hadm
  obtain ⟨hsym, hside, hquant⟩ := wellFormed_ok hwell
  have hlot := hlots _ hquant
  have hnew : ∀ b ∈ w.broker.rows, b.intentId ≠ i := fun b hb e => by
    obtain ⟨q, hq, -⟩ := h.intent b hb
    rw [e, hnone] at hq
    cases hq
  generalize hs : ({ w.state with
    intents := w.state.intents.insertOrIgnore (r.intent i), experimentalBudgets := budgets } : LifecycleState) = s'
  have hintents : s'.intents = w.state.intents.insertOrIgnore (r.intent i) := by rw [← hs]
  have hget : s'.intents.get i = some (r.intent i) := hs ▸ (get_admitted hadm).1
  have hgetOther : ∀ j, j ≠ i → s'.intents.get j = w.state.intents.get j := hs ▸ (get_admitted hadm).2
  -- the intent is on file, nothing was sent
  have hfiled : Sound u ⟨s', w.broker, w.reported⟩ := by
    refine h.of_intents (by rw [← hs]) (by rw [← hs]) (by rw [← hs]) (fun j q hq => ?_) (fun q hq => ?_) w.reported
    · have hne : j ≠ i := fun e => by
        rw [e, hnone] at hq
        cases hq
      exact ⟨q, by rw [hgetOther j hne, hq], Iff.rfl, fun e => e, Or.inl⟩
    · rw [hintents] at hq
      rcases Table.mem_insertOrIgnore hq with hq | rfl
      · exact h.intentLots q hq
      · exact hlot
  have hcounted : ∀ b ∈ w.broker.rows, counted s' b = counted w.state b := fun b hb => by
    simp only [counted, hgetOther _ (hnew b hb)]
  have hpledged : pledged ⟨s', w.broker, w.reported⟩ i.symbol = pledged w i.symbol := by
    simp only [pledged, sumWhere_eq_sum]
    refine congrArg List.sum (List.map_congr_left fun b hb => ?_)
    rw [hcounted b hb]
  -- the broker has received it, or not
  have hsent : Sound u ⟨s', t, heard⟩ := by
    unfold World.receive at ht
    split at ht
    · obtain rfl := Option.some.inj ht
      exact hfiled.of_frame (by rfl) (by rfl) (by rfl) (by rfl) heard
    · refine hfiled.received hget rfl hnew ht (fun hsell => ?_) (fun hbuy => ?_) (fun hbuy b hb hbs hbsym hcnt => ?_) heard
      · rw [hpledged, ← hs]
        rw [guards, hsell] at hguards
        exact h.covered_sell hu hguards hlot (hsym ▸ horphan (by rw [hside, hsell]))
      · rw [guards, hbuy] at hguards
        rw [← hs, hsym]
        exact (buyGuards_ok hguards).1
      · rw [guards, hbuy] at hguards
        obtain ⟨hterm, o, ho, hof⟩ := h.settled_of_buy hguards hb hbs (hbsym.trans hsym) (hcounted b hb ▸ hcnt)
        exact ⟨hterm, o, by rw [← hs]; exact ho, hof⟩
  have hstatus : ∀ q, s'.intents.get i = some q → q.status ≠ .submitted ∧ q.status ≠ .rejected := fun q hq => by
    rw [hget] at hq
    obtain rfl := Option.some.inj hq
    exact ⟨by rintro ⟨⟩, by rintro ⟨⟩⟩
  cases hans : sub.answer with
  | none => exact hsent
  | some answer =>
    cases answer with
    | raised => exact hsent.setIntentStatus i .submitFailedUncertain hstatus (by rintro ⟨⟩) (by rintro ⟨⟩) heard
    | answered id =>
      show Sound u ⟨if id = "" then s'.setIntentStatus i .rejected else s'.recordOrder i id, t, heard⟩
      split
      · exact hsent.setIntentStatus i .rejected hstatus (by rintro ⟨⟩) (by rintro ⟨⟩) heard
      · rename_i hid
        -- the id is the one of the order that the broker received
        unfold Submission.truthful at htruth
        simp only [hans, hid, decide_false, Bool.false_or, Bool.and_eq_true, decide_eq_true_eq] at htruth
        unfold World.receive at ht
        rw [htruth.2] at ht
        obtain ⟨hrows, -⟩ := Table.insert?_eq_some ht
        have hb : BrokerOrder.place id i ∈ t.rows := by
          rw [hrows]
          exact List.mem_append_right _ (List.mem_singleton.2 rfl)
        exact hsent.recordOrder hb hget (.inl rfl) heard

/-- A careful event keeps the invariant. -/
theorem next (h : Sound u w) (hu : shareTolerance < u) {e : Event} (hc : Careful u w e) (hw : w.next cfg e = some w') :
    Sound u w' := by
  cases e with
  | session enabled killSwitch =>
    obtain rfl := Option.some.inj hw
    exact h.of_frame (by rfl) (by rfl) (by rfl) (by rfl) _
  | order r sub =>
    simp only [World.next] at hw
    split at hw
    · obtain rfl := Option.some.inj hw
      exact h
    · rename_i i s' hadm
      split at hw
      · rename_i htruth
        obtain ⟨t, ht, rfl⟩ := Option.map_eq_some_iff.1 hw
        exact h.order hu hadm htruth ht hc.1 hc.2 _
      · cases hw
  | broker id snapshot =>
    simp only [World.next] at hw
    split at hw
    · rename_i hmove
      obtain rfl := Option.some.inj hw
      obtain ⟨b, hget, hb⟩ := (Option.any_eq_true _ _).1 hmove
      obtain rfl := Table.key_of_get hget
      exact h.move (Table.mem_of_get hget) (of_decide_eq_true hb) hc _
    · cases hw
  | update id r =>
    simp only [World.next] at hw
    split at hw
    · rename_i htold
      obtain rfl := Option.some.inj hw
      exact h.update hu htold hc _
    · cases hw
  | pollRead id seen r =>
    simp only [World.next] at hw
    split at hw
    · rename_i htold
      obtain rfl := Option.some.inj hw
      unfold Piv.pollRead
      split
      · rename_i hnews
        exact h.update hu htold (hc hnews.2) _
      · exact h.of_frame (by rfl) (by rfl) (by rfl) (by rfl) _
    · cases hw
  | pollTimeout id =>
    obtain rfl := Option.some.inj hw
    exact h.markUnconfirmed id _
  | promote =>
    obtain rfl := Option.some.inj hw
    refine h.of_intents (by rfl) (by rfl) (by rfl) (fun j q hq => ?_) (fun q hq => ?_) _
    · refine ⟨_, get_promoteOrphanOrderIntents.trans (by rw [hq]; rfl), ?_⟩
      unfold Intent.promoted
      split
      · rename_i hcond
        rw [(Bool.and_eq_true_iff.1 hcond).1 |> of_decide_eq_true]
        exact ⟨⟨by rintro ⟨⟩, by rintro ⟨⟩⟩, (by rintro ⟨⟩), by rintro ⟨⟩⟩
      · exact ⟨Iff.rfl, fun e => e, Or.inl⟩
    · obtain ⟨x, hx, rfl⟩ := mem_updateRows.1 hq
      split <;> exact h.intentLots x hx
  | lookup i now answer =>
    simp only [World.next] at hw
    split at hw
    · rename_i hcond
      obtain rfl := Option.some.inj hw
      obtain ⟨huncertain, htold⟩ := Bool.and_eq_true_iff.1 hcond
      obtain ⟨q, hq, hst⟩ := (Option.any_eq_true _ _).1 huncertain
      cases answer with
      | raised => exact h.updateIntent i (by intro _; rfl) _
      | notFound => exact h.updateIntent i (by intro _; rfl) _
      | found row =>
        show Sound u ⟨if orderResponseMatchesIntent row i ∧ row.id ≠ "" then _ else _, _, _⟩
        split
        · rename_i hmatch
          unfold World.tellsLookup at htold
          simp only [hmatch.1, Bool.not_true, Bool.false_or] at htold
          obtain ⟨b, hget, hb⟩ := (Option.any_eq_true _ _).1 htold
          have hbi : b.intentId = i := of_decide_eq_true hb
          subst hbi
          rw [← Table.key_of_get hget]
          have hchecked : Sound u ⟨w.state.updateIntent b.intentId
              (fun x => { x with notFoundConfirmations := 0, lastUncertainCheckAt := none }) fun _ => rfl, w.broker,
              w.reported⟩ := h.updateIntent b.intentId (by intro _; rfl) _
          refine hchecked.recordOrder (Table.mem_of_get hget) (get_updateIntent.trans (by rw [hq]; rfl)) ?_ _
          dsimp only
          rw [if_pos (decide_eq_true (Table.key_of_get hq))]
          exact .inr (of_decide_eq_true hst)
        · exact h.updateIntent i (by intro _; rfl) _
    · cases hw
  | resolve i =>
    simp only [World.next] at hw
    split at hw
    · cases hw
    · rename_i hnone
      obtain rfl := Option.some.inj hw
      unfold operatorResolveUncertainSubmission
      split
      · rename_i q hq
        split
        · rename_i hst
          refine h.setIntentStatus i .confirmedNotSubmitted (fun x hx => ?_) (by rintro ⟨⟩) (fun _ b hb e => hnone ?_) _
          · rw [hq] at hx
            obtain rfl := Option.some.inj hx
            rw [hst]
            exact ⟨by rintro ⟨⟩, by rintro ⟨⟩⟩
          · exact List.any_eq_true.2 ⟨b, hb, decide_eq_true e⟩
        · exact h.of_frame (by rfl) (by rfl) (by rfl) (by rfl) _
      · exact h.of_frame (by rfl) (by rfl) (by rfl) (by rfl) _
  | verdict flags =>
    obtain rfl := Option.some.inj hw
    exact h.of_frame (by rfl) (by rfl) (by rfl) (by rfl) _
  | trigger symbol reason =>
    obtain rfl := Option.some.inj hw
    exact h.markExitTriggered symbol reason _

theorem start : Sound u {} where
  filings :=
    { symbol := fun _ h => (List.not_mem_nil h).elim
      intent := fun _ h => (List.not_mem_nil h).elim
      single := fun _ h => (List.not_mem_nil h).elim
      nonneg := fun _ h => (List.not_mem_nil h).elim
      lots := fun _ h => (List.not_mem_nil h).elim }
  ledger :=
    { position := fun _ h => (List.not_mem_nil h).elim
      tracked := fun _ _ => ⟨fun h => (Option.some_ne_none _ h.symm).elim, fun ⟨_, h, _⟩ => (List.not_mem_nil h).elim⟩
      entry := fun _ h => (List.not_mem_nil h).elim
      balance := fun _ => by simp [LifecycleState.held, LifecycleState.recorded] }
  matched := fun _ h => (List.not_mem_nil h).elim
  intent := fun _ h => (List.not_mem_nil h).elim
  once := fun _ h => (List.not_mem_nil h).elim
  lots := fun _ h => (List.not_mem_nil h).elim
  intentLots := fun _ h => (List.not_mem_nil h).elim
  covered := fun _ => le_rfl
  alone := fun _ h => (List.not_mem_nil h).elim
  entry := fun _ h => (List.not_mem_nil h).elim

theorem of_reach (hu : shareTolerance < u) {ok : World → Event → Prop} (hok : ∀ w e, ok w e → Careful u w e)
    (h : Reach cfg ok w) : Sound u w := by
  induction h with
  | start => exact start
  | step _ hc hw ih => exact ih.next hu (hok _ _ hc) hw

end Sound

end TalonX.Piv
