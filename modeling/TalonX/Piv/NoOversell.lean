import TalonX.Piv.Holdings

/-!
# No oversell, no second entry

- `Acknowledged`: a careful event, and the broker does not answer a submission that it received without an id;
- `no_oversell_no_pyramiding`: what the broker could still sell is held, and a BUY reaches the broker only when the
  earlier BUY orders of its symbol are done and the symbol is flat;
- `unacknowledged_sell_oversold`, `orphan_sell_oversold`: a received SELL whose answer has no id, or whose answer a crash
  cut off, is not counted when the next SELL is requested.
-/

set_option autoImplicit false

namespace TalonX.Piv

open Transact V2 World

variable {u : ℚ} {cfg : Config} {w w' : World} {s' : LifecycleState} {symbol : Symbol} {i : IntentId}

def Acknowledged (u : ℚ) (w : World) : Event → Prop
  | .order r sub => Careful u w (.order r sub) ∧ (sub.answer = some (.answered "") → sub.received = none)
  | e => Careful u w e

theorem Acknowledged.careful {e : Event} (h : Acknowledged u w e) : Careful u w e := by
  cases e <;> first | exact h.1 | exact h

/-! ## No order of the broker is written off -/

/-- The intents of the orders that the broker received are not `REJECTED`. -/
def AllCounted (w : World) : Prop := ∀ b ∈ w.broker.rows, ∀ q, w.state.intents.get b.intentId = some q → q.status ≠ .rejected

namespace AllCounted

theorem of_intents (h : AllCounted w) {heard : BrokerOrderId → ℚ}
    (hi : ∀ b ∈ w.broker.rows, ∀ q', s'.intents.get b.intentId = some q' → q'.status = .rejected →
      ∃ q, w.state.intents.get b.intentId = some q ∧ q.status = .rejected) : AllCounted ⟨s', w.broker, heard⟩ :=
  fun b hb q' hq' hrej => by
    obtain ⟨q, hq, hst⟩ := hi b hb q' hq' hrej
    exact h b hb q hq hst

theorem of_intents_eq (h : AllCounted w) {heard : BrokerOrderId → ℚ} (hi : s'.intents = w.state.intents) :
    AllCounted ⟨s', w.broker, heard⟩ :=
  h.of_intents fun _ _ q hq hst => ⟨q, hi ▸ hq, hst⟩

/-- An intent gets another status than `REJECTED`. -/
theorem of_map (h : AllCounted w) {heard : BrokerOrderId → ℚ} {f : Intent → Intent}
    (hi : ∀ i, s'.intents.get i = (w.state.intents.get i).map f)
    (hf : ∀ q, (f q).status = .rejected → q.status = .rejected) : AllCounted ⟨s', w.broker, heard⟩ :=
  h.of_intents fun b _ q' hq' hst => by
    rw [hi] at hq'
    obtain ⟨q, hq, rfl⟩ := Option.map_eq_some_iff.1 hq'
    exact ⟨q, hq, hf q hst⟩

theorem order (h : AllCounted w) (hw : Sound u w) {r : OrderRequest} {sub : Submission} {t : Table BrokerOrder.id}
    (hadm : admitIntent cfg w.state r = .ok (i, s')) (ht : w.receive i sub = some t)
    (hack : sub.answer = some (.answered "") → sub.received = none) :
    AllCounted ⟨sub.answer.elim s' (recordSubmission s' i), t, w.reported⟩ := by
  obtain ⟨-, hnone, -⟩ := admitIntent_ok hadm
  obtain ⟨hget, hgetOther⟩ := get_admitted hadm
  have hnew : ∀ b ∈ w.broker.rows, b.intentId ≠ i := fun b hb e => by
    obtain ⟨q, hq, -⟩ := hw.intent b hb
    rw [e, hnone] at hq
    cases hq
  -- what becomes of the intents of the other orders, and of this one
  have hother : ∀ j, j ≠ i → (sub.answer.elim s' (recordSubmission s' i)).intents.get j = w.state.intents.get j :=
    fun j hne => by
      have hset : ∀ status, (s'.setIntentStatus i status).intents.get j = w.state.intents.get j := fun status => by
        rw [get_setIntentStatus, hgetOther j hne]
        cases hg : w.state.intents.get j with
        | none => rfl
        | some q =>
          have hq : q.id ≠ i := Table.key_of_get hg ▸ hne
          simp [hq]
      cases hans : sub.answer with
      | none => exact hgetOther j hne
      | some answer =>
        cases answer with
        | raised => exact hset _
        | answered id =>
          simp only [Option.elim, recordSubmission]
          split
          · exact hset _
          · exact hset _
  have hself : sub.received ≠ none → ∀ q, (sub.answer.elim s' (recordSubmission s' i)).intents.get i = some q →
      q.status ≠ .rejected := fun hrec q hq hst => by
    have hset : ∀ status, (s'.setIntentStatus i status).intents.get i = some q → q.status = status := fun status hq => by
      rw [get_setIntentStatus, hget] at hq
      obtain rfl := Option.some.inj hq
      simp [OrderRequest.intent]
    cases hans : sub.answer with
    | none =>
      rw [hans] at hq
      rw [show s'.intents.get i = some q from hq] at hget
      obtain rfl := Option.some.inj hget
      cases hst
    | some answer =>
      cases answer with
      | raised =>
        rw [hans] at hq
        rw [hset _ hq] at hst
        cases hst
      | answered id =>
        rw [hans] at hq
        simp only [Option.elim, recordSubmission] at hq
        split at hq
        · rename_i hid
          exact hrec (hack (by rw [hans, hid]))
        · have hsub := hset .submitted hq
          rw [hst] at hsub
          cases hsub
  intro b hb q hq
  unfold World.receive at ht
  split at ht
  · obtain rfl := Option.some.inj ht
    exact h b hb q (by rw [← hother _ (hnew b hb)]; exact hq)
  · rename_i id hrec
    obtain ⟨hrows, -⟩ := Table.insert?_eq_some ht
    rw [hrows, List.mem_append, List.mem_singleton] at hb
    rcases hb with hb | rfl
    · exact h b hb q (by rw [← hother _ (hnew b hb)]; exact hq)
    · exact hself (by rw [hrec]; rintro ⟨⟩) q hq

/-- An update of an intent that does not write it off. -/
theorem updateIntent (h : AllCounted w) (i : IntentId) (f : Intent → Intent) {hf : ∀ q, (f q).id = q.id}
    (hst : ∀ q, (f q).status = .rejected → q.status = .rejected) (heard : BrokerOrderId → ℚ) :
    AllCounted ⟨w.state.updateIntent i f hf, w.broker, heard⟩ := by
  refine h.of_map (fun j => get_updateIntent) fun q hq => ?_
  split at hq
  · exact hst q hq
  · exact hq

theorem setIntentStatus (h : AllCounted w) (i : IntentId) (status : IntentStatus) (hst : status ≠ .rejected)
    (heard : BrokerOrderId → ℚ) : AllCounted ⟨w.state.setIntentStatus i status, w.broker, heard⟩ :=
  h.updateIntent i (fun q => { q with status }) (fun _ e => absurd e hst) heard

theorem next (h : AllCounted w) (hw : Sound u w) {e : Event} (hc : Acknowledged u w e) (hn : w.next cfg e = some w') :
    AllCounted w' := by
  cases e with
  | session enabled killSwitch =>
    obtain rfl := Option.some.inj hn
    exact h.of_intents_eq rfl
  | order r sub =>
    simp only [World.next] at hn
    split at hn
    · obtain rfl := Option.some.inj hn
      exact h
    · rename_i i s' hadm
      split at hn
      · obtain ⟨t, ht, rfl⟩ := Option.map_eq_some_iff.1 hn
        exact h.order hw hadm ht hc.2
      · cases hn
  | broker id snapshot =>
    simp only [World.next] at hn
    split at hn
    · obtain rfl := Option.some.inj hn
      intro b hb
      obtain ⟨c, hc, rfl⟩ := mem_updateRows.1 hb
      split
      · rw [BrokerOrder.intentId_move]
        exact h c hc
      · exact h c hc
    · cases hn
  | update id r =>
    simp only [World.next] at hn
    split at hn
    · obtain rfl := Option.some.inj hn
      exact h.of_intents_eq intents_applyBrokerUpdate
    · cases hn
  | pollRead id seen r =>
    simp only [World.next] at hn
    split at hn
    · obtain rfl := Option.some.inj hn
      unfold Piv.pollRead
      split
      · exact h.of_intents_eq intents_applyBrokerUpdate
      · exact h.of_intents_eq rfl
    · cases hn
  | pollTimeout id =>
    obtain rfl := Option.some.inj hn
    exact h.of_intents_eq rfl
  | promote =>
    obtain rfl := Option.some.inj hn
    refine h.of_map (fun _ => get_promoteOrphanOrderIntents) fun q hq => ?_
    unfold Intent.promoted at hq
    split at hq
    · cases hq
    · exact hq
  | lookup i now answer =>
    simp only [World.next] at hn
    split at hn
    · obtain rfl := Option.some.inj hn
      cases answer with
      | raised => exact h.updateIntent i _ (by intro _ hq; exact hq) _
      | notFound => exact h.updateIntent i _ (by intro _ hq; exact hq) _
      | found row =>
        simp only [lookupSubmission]
        split
        · have hchecked : AllCounted ⟨w.state.updateIntent i
              (fun q => { q with notFoundConfirmations := 0, lastUncertainCheckAt := none }) fun _ => rfl, w.broker,
              w.reported⟩ := h.updateIntent i _ (by intro _ hq; exact hq) _
          exact (hchecked.setIntentStatus i .submitted (by rintro ⟨⟩) w.reported).of_intents_eq rfl
        · exact h.updateIntent i _ (by intro _ hq; exact hq) _
    · cases hn
  | resolve i =>
    simp only [World.next] at hn
    split at hn
    · cases hn
    · obtain rfl := Option.some.inj hn
      unfold operatorResolveUncertainSubmission
      split
      · split
        · exact h.setIntentStatus i .confirmedNotSubmitted (by rintro ⟨⟩) _
        · exact h.of_intents_eq rfl
      · exact h.of_intents_eq rfl
  | verdict flags =>
    obtain rfl := Option.some.inj hn
    exact h.of_intents_eq rfl
  | trigger symbol reason =>
    obtain rfl := Option.some.inj hn
    unfold markExitTriggered
    split
    · exact h.of_intents_eq rfl
    · split <;> exact h.of_intents_eq rfl

theorem of_reach (hu : shareTolerance < u) (h : Reach cfg (Acknowledged u) w) : AllCounted w := by
  induction h with
  | start => exact fun _ h => (List.not_mem_nil h).elim
  | step hr hc hn ih => exact ih.next (Sound.of_reach hu (fun _ _ => Acknowledged.careful) hr) hc hn

theorem counted (h : AllCounted w) {b : BrokerOrder} (hb : b ∈ w.broker.rows) : counted w.state b = true := by
  unfold Piv.counted
  cases hg : w.state.intents.get b.intentId with
  | none => rfl
  | some q => simpa using h b hb q hg

end AllCounted

/-! ## What the broker holds -/

section Account

variable (hw : Sound u w)

/-- The fills of a side at the broker. -/
def filledOf (w : World) (symbol : Symbol) (side : Side) : ℚ := sumWhere (sent symbol side) (·.now.filled) w.broker.rows

include hw in
/-- What is on file of a side was filled at the broker. -/
theorem recorded_le_filled (symbol : Symbol) (side : Side) : w.state.recorded symbol side ≤ filledOf w symbol side := by
  have hsum : (((w.state.orders.rows.filter (LifecycleState.ordersOf symbol side)).map fun o =>
      (o.id, o.filledQty)).map Prod.snd).sum ≤
      (((w.broker.rows.filter (sent symbol side)).map fun b => (b.id, b.now.filled)).map Prod.snd).sum := by
    apply sum_le_sum_of_keys
    · intro x hx
      obtain ⟨b, -, rfl⟩ := List.mem_map.1 hx
      exact b.bounded.1
    · rw [List.map_map]
      exact (List.filter_sublist.map _).nodup w.state.orders.unique
    · intro x hx
      obtain ⟨o, ho, rfl⟩ := List.mem_map.1 hx
      obtain ⟨ho, hside⟩ := List.mem_filter.1 ho
      obtain ⟨b, hb, hm⟩ := hw.matched o ho
      refine ⟨(b.id, b.now.filled), List.mem_map.2 ⟨b, List.mem_filter.2 ⟨hb, ?_⟩, rfl⟩, hm.id, hm.le⟩
      simpa [sent, hm.intent, LifecycleState.ordersOf] using hside
  simpa [LifecycleState.recorded, filledOf, sumWhere, List.map_map, Function.comp_def] using hsum

/-- What was filled of settled orders is on file. -/
theorem filled_le_recorded {side : Side} (hnonneg : ∀ o ∈ w.state.orders.rows, 0 ≤ o.filledQty)
    (hmatch : ∀ o ∈ w.state.orders.rows, ∃ b ∈ w.broker.rows, o.Matches b)
    (hdone : ∀ b ∈ w.broker.rows, sent symbol side b → Settled w.state b) :
    filledOf w symbol side ≤ w.state.recorded symbol side := by
  have hsum : (((w.broker.rows.filter (sent symbol side)).map fun b => (b.id, b.now.filled)).map Prod.snd).sum ≤
      (((w.state.orders.rows.filter (LifecycleState.ordersOf symbol side)).map fun o =>
        (o.id, o.filledQty)).map Prod.snd).sum := by
    apply sum_le_sum_of_keys
    · intro x hx
      obtain ⟨o, ho, rfl⟩ := List.mem_map.1 hx
      exact hnonneg o (List.mem_filter.1 ho).1
    · rw [List.map_map]
      exact (List.filter_sublist.map _).nodup w.broker.unique
    · intro x hx
      obtain ⟨b, hb, rfl⟩ := List.mem_map.1 hx
      obtain ⟨hb, hside⟩ := List.mem_filter.1 hb
      obtain ⟨-, o, ho, hid, hf⟩ := hdone b hb hside
      obtain ⟨c, hc, hm⟩ := hmatch o ho
      obtain rfl := w.broker.eq_of_key hc hb (hm.id.trans hid)
      refine ⟨(o.id, o.filledQty), List.mem_map.2 ⟨o, List.mem_filter.2 ⟨ho, ?_⟩, rfl⟩, hid, hf.ge⟩
      simpa [sent, hm.intent, LifecycleState.ordersOf] using hside
  simpa [LifecycleState.recorded, filledOf, sumWhere, List.map_map, Function.comp_def] using hsum

/-- The SELL orders have given, or may give, what they may come to. -/
theorem pledged_eq (hcnt : AllCounted w) (symbol : Symbol) :
    pledged w symbol = filledOf w symbol .sell + w.outstandingSells symbol := by
  unfold pledged filledOf World.outstandingSells
  simp only [sumWhere_eq_sum, ← List.sum_map_add]
  refine congrArg List.sum (List.map_congr_left fun b hb => ?_)
  rw [hcnt.counted hb, Bool.and_true]
  split
  · rfl
  · rw [add_zero]

include hw in
theorem outstandingSells_le_shares (hcnt : AllCounted w) (symbol : Symbol) :
    w.outstandingSells symbol ≤ w.shares symbol := by
  have hpledged := pledged_eq hcnt symbol
  have hcovered := hw.covered symbol
  have hfilled := recorded_le_filled hw symbol .buy
  show _ ≤ filledOf w symbol .buy - filledOf w symbol .sell
  linarith

end Account

/-! ## The claim about the broker -/

theorem no_oversell_no_pyramiding (hu : shareTolerance < u) (h : Reach cfg (Acknowledged u) w) :
    (∀ symbol, w.outstandingSells symbol ≤ w.shares symbol) ∧
    ∀ r sub w', w.next cfg (.order r sub) = some w' →
      ∀ b ∈ w'.broker.rows, b ∉ w.broker.rows → b.intentId.side = .buy →
        w.state.openPositionFor b.intentId.symbol = none ∧ w.shares b.intentId.symbol = 0 ∧
        ∀ c ∈ w.broker.rows, sent b.intentId.symbol .buy c → Settled w.state c := by
  have hsound := Sound.of_reach hu (fun _ _ => Acknowledged.careful) h
  have hcnt := AllCounted.of_reach hu h
  refine ⟨outstandingSells_le_shares hsound hcnt, fun r sub w' hn b hb hnew hside => ?_⟩
  simp only [World.next] at hn
  split at hn
  · obtain rfl := Option.some.inj hn
    exact absurd hb hnew
  rename_i i s' hadm
  split at hn
  · obtain ⟨t, ht, rfl⟩ := Option.map_eq_some_iff.1 hn
    -- the order that is new is the one of this request
    have hbi : b.intentId = i := by
      unfold World.receive at ht
      split at ht
      · obtain rfl := Option.some.inj ht
        exact absurd hb hnew
      · obtain ⟨hrows, -⟩ := Table.insert?_eq_some ht
        rw [show b ∈ t.rows ↔ _ from by rw [hrows, List.mem_append, List.mem_singleton]] at hb
        obtain rfl := hb.resolve_left hnew
        rfl
    obtain ⟨hwell, -, budgets, hguards, -⟩ := admitIntent_ok hadm
    obtain ⟨hsym, -, -⟩ := wellFormed_ok hwell
    rw [hbi] at hside ⊢
    rw [guards, hside] at hguards
    rw [hsym]
    have hflat := (buyGuards_ok hguards).1
    have hdone : ∀ c ∈ w.broker.rows, sent r.symbol .buy c → Settled w.state c := fun c hc hcs => by
      have hcs' : c.intentId.symbol = r.symbol ∧ c.intentId.side = .buy := by simpa [sent] using hcs
      exact hsound.settled_of_buy hguards hc hcs'.2 hcs'.1 (hcnt.counted hc)
    refine ⟨hflat, ?_, hdone⟩
    have hbuy := filled_le_recorded hsound.filings.nonneg hsound.matched hdone
    have hsell := recorded_le_filled hsound r.symbol .sell
    have hbal := hsound.ledger.balance r.symbol
    rw [hsound.ledger.held_of_flat hflat] at hbal
    have hnonneg := outstandingSells_le_shares hsound hcnt r.symbol
    have hout : 0 ≤ w.outstandingSells r.symbol := by
      unfold World.outstandingSells
      refine List.sum_nonneg fun x hx => ?_
      obtain ⟨c, -, rfl⟩ := List.mem_map.1 hx
      exact c.nonneg_outstanding
    have hshares : w.shares r.symbol = filledOf w r.symbol .buy - filledOf w r.symbol .sell := rfl
    linarith
  · cases hn

/-! ## Runs on fixed inputs -/

/-- Three shares are held. -/
def threeHeld : List Event :=
  [.session true false, .order buyThree ⟨some "o1", some (.answered "o1")⟩, .broker "o1" ⟨.filled, 3⟩,
    .update "o1" ⟨.known .filled, .finite 3, none, none⟩]

def sellThree (signalId : String) : OrderRequest :=
  { signalId, symbol := "AAPL", side := some .sell, quantity := some 3 }

theorem acknowledged_threeHeld (e : Event) (he : e ∈ threeHeld) (w : World) : Acknowledged 1 w e := by
  have hlots : Lots 1 (3 : ℚ) := AddSubgroup.mem_zmultiples_iff.2 ⟨3, by norm_num⟩
  simp only [threeHeld, List.mem_cons, List.not_mem_nil, or_false] at he
  rcases he with rfl | rfl | rfl | rfl
  · trivial
  · refine ⟨⟨fun q hq => ?_, nofun⟩, nofun⟩
    obtain rfl := Option.some.inj hq
    exact hlots
  · exact hlots
  · exact fun o _ q _ _ => ⟨.filled, rfl, rfl⟩

theorem no_oversell_no_pyramiding_sample :
    ∃ w, ({} : World).run openConfig threeHeld = some w ∧ w.shares "AAPL" = 3 ∧
      w.outstandingSells "AAPL" ≤ w.shares "AAPL" := by
  have hshares : (({} : World).run openConfig threeHeld).map (·.shares "AAPL") = some 3 := by decide +kernel
  obtain ⟨w, hrun, hw⟩ := Option.map_eq_some_iff.1 hshares
  have htol : shareTolerance < 1 := by norm_num [shareTolerance]
  have hreach : Reach openConfig (Acknowledged 1) w := Reach.of_run acknowledged_threeHeld .start hrun
  exact ⟨w, hrun, hw, (no_oversell_no_pyramiding htol hreach).1 "AAPL"⟩

theorem oversold_of_run {es : List Event}
    (h : (({} : World).run openConfig es).map (fun w => (w.outstandingSells "AAPL", w.shares "AAPL")) = some (6, 3)) :
    ∃ w, Reach openConfig (fun _ _ => True) w ∧ w.shares "AAPL" < w.outstandingSells "AAPL" := by
  obtain ⟨w, hrun, hw⟩ := Option.map_eq_some_iff.1 h
  refine ⟨w, Reach.of_run (fun _ _ _ => trivial) .start hrun, ?_⟩
  simp only [Prod.mk.injEq] at hw
  rw [hw.1, hw.2]
  norm_num

/-- The broker accepts a SELL, and its answer has no id; the next SELL of the same shares is sent too. -/
theorem unacknowledged_sell_oversold :
    ¬ ∀ w, Reach openConfig (fun _ _ => True) w → w.outstandingSells "AAPL" ≤ w.shares "AAPL" := by
  intro h
  have hrun : (({} : World).run openConfig (threeHeld ++ [.order (sellThree "a") ⟨some "o2", some (.answered "")⟩,
      .order (sellThree "b") ⟨some "o3", some (.answered "o3")⟩])).map
        (fun w => (w.outstandingSells "AAPL", w.shares "AAPL")) = some (6, 3) := by
    decide +kernel
  obtain ⟨w, hreach, hlt⟩ := oversold_of_run hrun
  exact absurd (h w hreach) (not_le.2 hlt)

/-- The process crashes before the answer to a SELL is on file; the next SELL of the same shares is sent too. -/
theorem orphan_sell_oversold :
    ∃ w, Reach openConfig (fun _ _ => True) w ∧ w.shares "AAPL" < w.outstandingSells "AAPL" := by
  have hrun : (({} : World).run openConfig (threeHeld ++ [.order (sellThree "a") ⟨some "o2", none⟩,
      .order (sellThree "b") ⟨some "o3", some (.answered "o3")⟩])).map
        (fun w => (w.outstandingSells "AAPL", w.shares "AAPL")) = some (6, 3) := by
    decide +kernel
  exact oversold_of_run hrun

end TalonX.Piv
