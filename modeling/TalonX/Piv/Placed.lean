import TalonX.Piv.Careful

/-!
# Orders on file in every run

Whatever happens, an order on file belongs to an intent of its own, which is `SUBMITTED`, and the broker has it.

- `Placed`: the invariant;
- `Placed.recordOrder`, `Placed.update`, `Placed.order`: an order is put on file, takes over a report, is requested;
- `Placed.next`: every event keeps it.
-/

set_option autoImplicit false

namespace TalonX.Piv

open Transact V2 World

variable {cfg : Config} {w w' : World} {s : LifecycleState} {i : IntentId}

structure Placed (w : World) : Prop where
  intent : ∀ o ∈ w.state.orders.rows, ∃ i, w.state.intents.get o.intentId = some i ∧ i.status = .submitted
  single : ∀ o ∈ w.state.orders.rows, ∀ q ∈ w.state.orders.rows, o.intentId = q.intentId → o = q
  nonneg : ∀ o ∈ w.state.orders.rows, 0 ≤ o.filledQty
  matched : ∀ o ∈ w.state.orders.rows, ∃ b ∈ w.broker.rows, o.Matches b

/-- Submitted intents stay so. -/
def KeepsSubmitted (s s' : LifecycleState) : Prop :=
  ∀ i q, s.intents.get i = some q → q.status = .submitted → ∃ q', s'.intents.get i = some q' ∧ q'.status = .submitted

theorem KeepsSubmitted.of_eq {s s' : LifecycleState} (h : s'.intents = s.intents) : KeepsSubmitted s s' :=
  fun _ q hq hst => ⟨q, by rwa [h], hst⟩

/-- An update of an intent that is not submitted. -/
theorem KeepsSubmitted.updateIntent {f : Intent → Intent} {hf : ∀ q, (f q).id = q.id}
    (h : ∀ q, s.intents.get i = some q → q.status = .submitted → (f q).status = .submitted) :
    KeepsSubmitted s (s.updateIntent i f hf) := by
  intro j q hq hst
  refine ⟨_, get_updateIntent.trans (by rw [hq]; rfl), ?_⟩
  dsimp only
  split
  · rename_i hid
    refine h q ?_ hst
    rw [← of_decide_eq_true hid, Table.key_of_get hq, hq]
  · exact hst

theorem KeepsSubmitted.promote : KeepsSubmitted s (promoteOrphanOrderIntents s) := by
  intro j q hq hst
  refine ⟨_, get_promoteOrphanOrderIntents.trans (by rw [hq]; rfl), ?_⟩
  unfold Intent.promoted
  split
  · rename_i hcond
    rw [of_decide_eq_true (Bool.and_eq_true_iff.1 hcond).1] at hst
    cases hst
  · exact hst

namespace Placed

/-- The orders stay, and the broker keeps them. -/
theorem frame (h : Placed w) {s' : LifecycleState} {t : Table BrokerOrder.id} (heard : BrokerOrderId → ℚ)
    (ho : s'.orders = w.state.orders) (hi : KeepsSubmitted w.state s')
    (hb : ∀ (o : Order) (b : BrokerOrder), o.Matches b → b ∈ w.broker.rows → ∃ c ∈ t.rows, o.Matches c) :
    Placed ⟨s', t, heard⟩ where
  intent o hom := by
    obtain ⟨q, hq, hst⟩ := h.intent o (ho ▸ hom)
    exact hi _ q hq hst
  single := ho ▸ h.single
  nonneg := ho ▸ h.nonneg
  matched o hom := by
    obtain ⟨b, hbm, hm⟩ := h.matched o (ho ▸ hom)
    exact hb o b hm hbm

theorem frame_state (h : Placed w) {s' : LifecycleState} (heard : BrokerOrderId → ℚ) (ho : s'.orders = w.state.orders)
    (hi : KeepsSubmitted w.state s') : Placed ⟨s', w.broker, heard⟩ :=
  h.frame heard ho hi fun _ b hm hb => ⟨b, hb, hm⟩

/-- An order that the broker has is put on file, for an intent without one. -/
theorem recordOrder (h : Placed w) {b : BrokerOrder} {q : Intent} (hb : b ∈ w.broker.rows)
    (hi : w.state.intents.get b.intentId = some q) (hq : q.status ≠ .submitted) (heard : BrokerOrderId → ℚ) :
    Placed ⟨w.state.recordOrder b.intentId b.id, w.broker, heard⟩ := by
  have hfree : ∀ o ∈ w.state.orders.rows, o.intentId ≠ b.intentId := fun o ho e => by
    obtain ⟨q', hq', hst⟩ := h.intent o ho
    rw [e, hi] at hq'
    obtain rfl := Option.some.inj hq'
    exact hq hst
  have hmem : ∀ o, o ∈ (w.state.recordOrder b.intentId b.id).orders.rows →
      o ∈ w.state.orders.rows ∨ o = ⟨b.id, b.intentId, b.intentId.symbol, .submitted, 0, none⟩ := fun o ho =>
    ((Table.mem_upsert_of_replace fun x hx => by rw [hx]).1 ho).imp_left And.left
  have hget : ∀ i, (w.state.recordOrder b.intentId b.id).intents.get i =
      (w.state.intents.get i).map fun x => if decide (x.id = b.intentId) then { x with status := .submitted } else x :=
    fun i => get_setIntentStatus
  constructor
  · intro o ho
    rcases hmem o ho with ho | rfl
    · obtain ⟨x, hx, hst⟩ := h.intent o ho
      refine ⟨_, (hget _).trans (by rw [hx]; rfl), ?_⟩
      dsimp only
      split
      · rfl
      · exact hst
    · refine ⟨_, (hget _).trans (by rw [hi]; rfl), ?_⟩
      dsimp only
      rw [if_pos (decide_eq_true (Table.key_of_get hi))]
  · intro o ho x hx he
    rcases hmem o ho with ho | rfl <;> rcases hmem x hx with hx | rfl
    · exact h.single o ho x hx he
    · exact absurd he (hfree o ho)
    · exact absurd he.symm (hfree x hx)
    · rfl
  · intro o ho
    rcases hmem o ho with ho | rfl
    · exact h.nonneg o ho
    · exact le_rfl
  · intro o ho
    rcases hmem o ho with ho | rfl
    · exact h.matched o ho
    · exact ⟨b, hb, rfl, rfl, b.bounded.1, nofun⟩

/-- What a report of the broker is applied to. -/
theorem told (h : Placed w) {id : BrokerOrderId} {r : BrokerReport} (htold : w.tells id r = true) :
    (w.state.orders.get id = none ∧ applyBrokerUpdate w.state id r = w.state) ∨
    ∃ o b upd, w.state.orders.get id = some o ∧ o ∈ w.state.orders.rows ∧ o.id = id ∧ b ∈ w.broker.rows ∧ o.Matches b ∧
      b.Told r ∧ ⟨upd.status, upd.filledQty⟩ ∈ b.history ∧ r.status = .known upd.status ∧
      r.filledQty = .finite upd.filledQty ∧ validPrice r.fillPrice = some upd.fillPrice ∧
      applyBrokerUpdate w.state id r = acceptUpdate w.state o upd := by
  obtain ⟨b, hget, hb⟩ := (Option.any_eq_true _ _).1 htold
  cases ho : w.state.orders.get id with
  | none =>
    refine .inl ⟨rfl, ?_⟩
    unfold applyBrokerUpdate
    rw [ho]
  | some o =>
    have hom := Table.mem_of_get ho
    obtain rfl := Table.key_of_get ho
    obtain ⟨c, hc, hm⟩ := h.matched o hom
    obtain rfl := w.broker.eq_of_key hc (Table.mem_of_get hget) (hm.id.trans (Table.key_of_get hget).symm)
    obtain ⟨upd, hhist, hst, hq, hprice, happly⟩ := applyBrokerUpdate_of_told hm hom (of_decide_eq_true hb)
    exact .inr ⟨o, c, upd, rfl, hom, rfl, hc, hm, of_decide_eq_true hb, hhist, hst, hq, hprice, happly⟩

theorem update (h : Placed w) {id : BrokerOrderId} {r : BrokerReport} (htold : w.tells id r = true)
    (heard : BrokerOrderId → ℚ) : Placed ⟨applyBrokerUpdate w.state id r, w.broker, heard⟩ := by
  rcases h.told htold with ⟨-, happly⟩ | ⟨o, b, upd, -, hom, -, hb, hm, -, hhist, -, -, -, happly⟩
  · rw [happly]
    exact h.frame_state heard rfl (.of_eq rfl)
  · rw [happly]
    have horders : (acceptUpdate w.state o upd).orders =
        if o.status.terminal then w.state.orders else (w.state.updateOrder o.id upd).orders := orders_acceptUpdate
    by_cases hterm : o.status.terminal = true
    · rw [if_pos hterm] at horders
      exact h.frame_state heard horders (.of_eq intents_acceptUpdate)
    · rw [if_neg hterm] at horders
      have hmem : ∀ q, q ∈ (acceptUpdate w.state o upd).orders.rows ↔
          (q ∈ w.state.orders.rows ∧ q.id ≠ o.id) ∨ q = o.report upd := fun q => by
        rw [horders]
        exact mem_updateOrder hom
      constructor
      · intro q hq
        show ∃ i, (acceptUpdate w.state o upd).intents.get q.intentId = some i ∧ _
        rw [intents_acceptUpdate]
        rcases (hmem q).1 hq with ⟨hq, -⟩ | rfl
        · exact h.intent q hq
        · exact h.intent o hom
      · intro q hq x hx he
        rcases (hmem q).1 hq with ⟨hq, hqo⟩ | rfl <;> rcases (hmem x).1 hx with ⟨hx, hxo⟩ | rfl
        · exact h.single q hq x hx he
        · exact absurd (congrArg Order.id (h.single q hq o hom he)) hqo
        · exact absurd (congrArg Order.id (h.single x hx o hom he.symm)) hxo
        · rfl
      · intro q hq
        rcases (hmem q).1 hq with ⟨hq, -⟩ | rfl
        · exact h.nonneg q hq
        · exact (h.nonneg o hom).trans (le_max_left ..)
      · intro q hq
        rcases (hmem q).1 hq with ⟨hq, -⟩ | rfl
        · exact h.matched q hq
        · exact ⟨b, hb, hm.report hhist⟩

/-- A request that is admitted, and what becomes of it. -/
theorem order (h : Placed w) {r : OrderRequest} {sub : Submission} {s' : LifecycleState} {t : Table BrokerOrder.id}
    (hadm : admitIntent cfg w.state r = .ok (i, s')) (htruth : sub.truthful = true) (ht : w.receive i sub = some t)
    (heard : BrokerOrderId → ℚ) : Placed ⟨sub.answer.elim s' (recordSubmission s' i), t, heard⟩ := by
  obtain ⟨hget, hother⟩ := get_admitted hadm
  obtain ⟨-, hnone, budgets, -, hs'⟩ := admitIntent_ok hadm
  have hkeep : KeepsSubmitted w.state s' := fun j q hq hst => by
    have hne : j ≠ i := fun e => by
      rw [e, hnone] at hq
      cases hq
    exact ⟨q, by rwa [hother j hne], hst⟩
  have hsub : ∀ b ∈ w.broker.rows, b ∈ t.rows := by
    intro b hb
    unfold World.receive at ht
    split at ht
    · obtain rfl := Option.some.inj ht
      exact hb
    · rw [(Table.insert?_eq_some ht).1]
      exact List.mem_append_left _ hb
  have hsent : Placed ⟨s', t, heard⟩ :=
    h.frame heard (by rw [hs']) hkeep fun o b hm hb => ⟨b, hsub b hb, hm⟩
  have hset : ∀ status, Placed ⟨s'.setIntentStatus i status, t, heard⟩ := fun status =>
    hsent.frame_state heard rfl (.updateIntent fun q hq hst => by
      rw [hget] at hq
      obtain rfl := Option.some.inj hq
      cases hst)
  cases hans : sub.answer with
  | none => exact hsent
  | some answer =>
    cases answer with
    | raised => exact hset .submitFailedUncertain
    | answered id =>
      show Placed ⟨if id = "" then s'.setIntentStatus i .rejected else s'.recordOrder i id, t, heard⟩
      split
      · exact hset .rejected
      · rename_i hid
        -- the id is the one of the order that the broker received
        unfold Submission.truthful at htruth
        simp only [hans, hid, decide_false, Bool.false_or, Bool.and_eq_true, decide_eq_true_eq] at htruth
        unfold World.receive at ht
        rw [htruth.2] at ht
        have hb : BrokerOrder.place id i ∈ t.rows := by
          rw [(Table.insert?_eq_some ht).1]
          exact List.mem_append_right _ (List.mem_singleton.2 rfl)
        exact hsent.recordOrder hb hget nofun heard

/-- Every event keeps the invariant. -/
theorem next (h : Placed w) {e : Event} (hw : w.next cfg e = some w') : Placed w' := by
  cases e with
  | session enabled killSwitch =>
    obtain rfl := Option.some.inj hw
    exact h.frame_state _ rfl (.of_eq rfl)
  | order r sub =>
    simp only [World.next] at hw
    split at hw
    · obtain rfl := Option.some.inj hw
      exact h
    · rename_i i s' hadm
      split at hw
      · rename_i htruth
        obtain ⟨t, ht, rfl⟩ := Option.map_eq_some_iff.1 hw
        exact h.order hadm htruth ht _
      · cases hw
  | broker id snapshot =>
    simp only [World.next] at hw
    split at hw
    · rename_i hmove
      obtain rfl := Option.some.inj hw
      obtain ⟨b, hget, hb⟩ := (Option.any_eq_true _ _).1 hmove
      obtain rfl := Table.key_of_get hget
      have hcan : b.CanMove snapshot := of_decide_eq_true hb
      have hmem : ∀ c, c ∈ (w.broker.update (·.id = b.id) (·.move snapshot) fun _ => BrokerOrder.id_move _ _).rows ↔
          (c ∈ w.broker.rows ∧ c.id ≠ b.id) ∨ c = b.move snapshot := fun c =>
        Table.mem_update_key (f := fun x : BrokerOrder => x.move snapshot) (fun _ => BrokerOrder.id_move _ _)
          (Table.mem_of_get hget)
      refine h.frame _ rfl (.of_eq rfl) fun o c hm hc => ?_
      by_cases hcb : c.id = b.id
      · obtain rfl := w.broker.eq_of_key hc (Table.mem_of_get hget) hcb
        refine ⟨c.move snapshot, (hmem _).2 (.inr rfl), ?_⟩
        rw [show c.move snapshot = c.moveTo snapshot hcan from dif_pos hcan]
        refine ⟨hm.id, hm.intent, hm.le.trans hcan.2.1, fun hterm => ?_⟩
        have := (hm.final hterm).1
        rw [hcan.1] at this
        cases this
      · exact ⟨c, (hmem c).2 (.inl ⟨hc, hcb⟩), hm⟩
    · cases hw
  | update id r =>
    simp only [World.next] at hw
    split at hw
    · rename_i htold
      obtain rfl := Option.some.inj hw
      exact h.update htold _
    · cases hw
  | pollRead id seen r =>
    simp only [World.next] at hw
    split at hw
    · rename_i htold
      obtain rfl := Option.some.inj hw
      unfold Piv.pollRead
      split
      · exact h.update htold _
      · exact h.frame_state _ rfl (.of_eq rfl)
    · cases hw
  | pollTimeout id =>
    obtain rfl := Option.some.inj hw
    have hback : ∀ o ∈ (w.state.markUnconfirmed id).orders.rows, ∃ q ∈ w.state.orders.rows, o.id = q.id ∧
        o.intentId = q.intentId ∧ o.filledQty = q.filledQty ∧ (o.status.terminal = true → q.status.terminal = true) :=
      fun o ho => by
        obtain ⟨q, hq, rfl⟩ := mem_updateRows.1 ho
        refine ⟨q, hq, ?_⟩
        split
        · exact ⟨rfl, rfl, rfl, by rintro ⟨⟩⟩
        · exact ⟨rfl, rfl, rfl, fun e => e⟩
    constructor
    · intro o ho
      obtain ⟨q, hq, -, hi, -⟩ := hback o ho
      rw [hi]
      exact h.intent q hq
    · intro o ho x hx he
      obtain ⟨q, hq, hid, hi, -⟩ := hback o ho
      obtain ⟨y, hy, hid', hi', -⟩ := hback x hx
      have hqy := h.single q hq y hy (by rw [← hi, ← hi', he])
      exact (w.state.markUnconfirmed id).orders.eq_of_key ho hx (by rw [hid, hid', hqy])
    · intro o ho
      obtain ⟨q, hq, -, -, hf, -⟩ := hback o ho
      rw [hf]
      exact h.nonneg q hq
    · intro o ho
      obtain ⟨q, hq, hid, hi, hf, hterm⟩ := hback o ho
      obtain ⟨b, hb, hm⟩ := h.matched q hq
      exact ⟨b, hb, by rw [hm.id, hid], by rw [hm.intent, hi], by rw [hf]; exact hm.le, fun e => by
        rw [hf]
        exact hm.final (hterm e)⟩
  | promote =>
    obtain rfl := Option.some.inj hw
    exact h.frame_state _ rfl .promote
  | lookup i now answer =>
    simp only [World.next] at hw
    split at hw
    · rename_i hcond
      obtain rfl := Option.some.inj hw
      obtain ⟨huncertain, htold⟩ := Bool.and_eq_true_iff.1 hcond
      obtain ⟨q, hq, hst⟩ := (Option.any_eq_true _ _).1 huncertain
      have hst' : q.status = .submitFailedUncertain := of_decide_eq_true hst
      cases answer with
      | raised => exact h.frame_state _ rfl (.updateIntent fun _ _ hs => hs)
      | notFound => exact h.frame_state _ rfl (.updateIntent fun _ _ hs => hs)
      | found row =>
        show Placed ⟨if orderResponseMatchesIntent row i ∧ row.id ≠ "" then _ else _, _, _⟩
        split
        · rename_i hmatch
          unfold World.tellsLookup at htold
          simp only [hmatch.1, Bool.not_true, Bool.false_or] at htold
          obtain ⟨b, hget, hb⟩ := (Option.any_eq_true _ _).1 htold
          have hbi : b.intentId = i := of_decide_eq_true hb
          subst hbi
          rw [← Table.key_of_get hget]
          have hchecked : Placed ⟨w.state.updateIntent b.intentId
              (fun x => { x with notFoundConfirmations := 0, lastUncertainCheckAt := none }) fun _ => rfl, w.broker,
              w.reported⟩ := h.frame_state _ rfl (.updateIntent fun _ _ hs => hs)
          refine hchecked.recordOrder (Table.mem_of_get hget) (get_updateIntent.trans (by rw [hq]; rfl)) ?_ _
          dsimp only
          rw [if_pos (decide_eq_true (Table.key_of_get hq))]
          show q.status ≠ .submitted
          rw [hst']
          rintro ⟨⟩
        · exact h.frame_state _ rfl (.updateIntent fun _ _ hs => hs)
    · cases hw
  | resolve i =>
    simp only [World.next] at hw
    split at hw
    · cases hw
    · obtain rfl := Option.some.inj hw
      unfold operatorResolveUncertainSubmission
      split
      · rename_i q hq
        split
        · rename_i hst
          refine h.frame_state _ rfl (.updateIntent fun x hx hs => ?_)
          rw [hq] at hx
          obtain rfl := Option.some.inj hx
          rw [hst] at hs
          cases hs
        · exact h.frame_state _ rfl (.of_eq rfl)
      · exact h.frame_state _ rfl (.of_eq rfl)
  | verdict flags =>
    obtain rfl := Option.some.inj hw
    exact h.frame_state _ rfl (.of_eq rfl)
  | trigger symbol reason =>
    obtain rfl := Option.some.inj hw
    unfold markExitTriggered
    split
    · exact h
    · split <;> exact h.frame_state _ rfl (.of_eq rfl)

theorem start : Placed {} where
  intent := fun _ h => (List.not_mem_nil h).elim
  single := fun _ h => (List.not_mem_nil h).elim
  nonneg := fun _ h => (List.not_mem_nil h).elim
  matched := fun _ h => (List.not_mem_nil h).elim

theorem of_reach {ok : World → Event → Prop} (h : Reach cfg ok w) : Placed w := by
  induction h with
  | start => exact start
  | step _ _ hw ih => exact ih.next hw

end Placed

end TalonX.Piv
