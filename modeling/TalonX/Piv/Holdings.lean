import TalonX.Piv.Placed

/-!
# The holdings are conserved

- `Heeded`: a careful event, and a poll reads no new shares under the status that it has just read, because it would drop
  them;
- `Heard`: what was reported of an order is what is on file of it;
- `holdings_conserved`: what remains of a symbol is what its BUY orders were reported to get less what its SELL orders
  were reported to give;
- `canceled_fill_dropped`: a cancellation that carries a fill is not accounted for;
- `pollRounds_run`: a poll is a run of its rounds.
-/

set_option autoImplicit false

namespace TalonX.Piv

open Transact V2 World

variable {u : ℚ} {cfg : Config} {w w' : World} {s : LifecycleState}

/-- The report brings no new shares. -/
def NoNews (s : LifecycleState) (id : BrokerOrderId) (r : BrokerReport) : Prop :=
  ∀ o, s.orders.get id = some o → ∀ q, r.filledQty = .finite q → q ≤ o.filledQty

def Heeded (u : ℚ) (w : World) : Event → Prop
  | .pollRead id seen r => Careful u w (.pollRead id seen r) ∧ (r.status = seen → NoNews w.state id r)
  | e => Careful u w e

theorem Heeded.careful {e : Event} (h : Heeded u w e) : Careful u w e := by
  cases e <;> first | exact h.1 | exact h

/-- What was reported of the orders is on file. -/
structure Heard (w : World) : Prop where
  filed : ∀ o ∈ w.state.orders.rows, w.reported o.id = o.filledQty
  unfiled : ∀ id, w.state.orders.get id = none → w.reported id = 0

namespace Heard

/-- The quantities on file stay. -/
theorem of_orders (h : Heard w) {s' : LifecycleState} {t : Table BrokerOrder.id}
    (hsame : ∀ o ∈ s'.orders.rows, ∃ q ∈ w.state.orders.rows, o.id = q.id ∧ o.filledQty = q.filledQty)
    (hkeep : ∀ q ∈ w.state.orders.rows, ∃ o ∈ s'.orders.rows, o.id = q.id) : Heard ⟨s', t, w.reported⟩ where
  filed o ho := by
    obtain ⟨q, hq, hid, hf⟩ := hsame o ho
    show w.reported o.id = o.filledQty
    rw [hid, hf]
    exact h.filed q hq
  unfiled id hid := by
    refine h.unfiled id (Table.get_eq_none.2 fun q hq e => ?_)
    obtain ⟨o, ho, hoq⟩ := hkeep q hq
    exact Table.get_eq_none.1 hid o ho (hoq.trans e)

theorem of_orders_eq (h : Heard w) {s' : LifecycleState} {t : Table BrokerOrder.id} (ho : s'.orders = w.state.orders) :
    Heard ⟨s', t, w.reported⟩ :=
  h.of_orders (fun o hom => ⟨o, ho ▸ hom, rfl, rfl⟩) fun q hq => ⟨q, ho.symm ▸ hq, rfl⟩

/-- A new order is put on file, with nothing filled. -/
theorem putOrder (h : Heard w) {o : Order} (hnew : w.state.orders.get o.id = none) (hzero : o.filledQty = 0)
    {s' : LifecycleState} {t : Table BrokerOrder.id} (hs : s'.orders = w.state.orders) :
    Heard ⟨s'.putOrder o, t, w.reported⟩ := by
  have hmem : ∀ q, q ∈ (s'.putOrder o).orders.rows ↔ (q ∈ s'.orders.rows ∧ q.id ≠ o.id) ∨ q = o := fun q =>
    Table.mem_upsert_of_replace fun x hx => by rw [hx]
  constructor
  · intro q hq
    rcases (hmem q).1 hq with ⟨hq, -⟩ | rfl
    · exact h.filed q (hs ▸ hq)
    · show w.reported q.id = q.filledQty
      rw [h.unfiled q.id hnew, hzero]
  · intro id hid
    refine h.unfiled id (Table.get_eq_none.2 fun q hq e => ?_)
    by_cases hqo : q.id = o.id
    · exact Table.get_eq_none.1 hnew q hq hqo
    · exact Table.get_eq_none.1 hid q ((hmem q).2 (.inl ⟨hs.symm ▸ hq, hqo⟩)) e

/-- A report of an order on file, accounted for or without new shares. -/
theorem report (h : Heard w) {o : Order} (ho : o ∈ w.state.orders.rows) {r : BrokerReport} {q : ℚ}
    (hq : r.filledQty = .finite q) {s' : LifecycleState}
    (hs : (s'.orders = w.state.orders ∧ q ≤ o.filledQty) ∨ ∃ upd : Update, upd.filledQty = q ∧
      s'.orders = (w.state.updateOrder o.id upd).orders) : Heard ⟨s', w.broker, w.hear o.id r⟩ := by
  have hget : w.state.orders.get o.id = some o := Table.get_eq_some.2 ⟨ho, rfl⟩
  have hhear : w.hear o.id r = Function.update w.reported o.id (max (w.reported o.id) q) := by
    unfold World.hear
    rw [hget, hq]
  have hother : ∀ x ∈ w.state.orders.rows, x.id ≠ o.id → w.hear o.id r x.id = x.filledQty := fun x hx hne => by
    rw [hhear, Function.update_of_ne hne]
    exact h.filed x hx
  have hnone : ∀ id, w.state.orders.get id = none → w.hear o.id r id = 0 := fun id hid => by
    have hne : id ≠ o.id := fun e => by
      rw [e, hget] at hid
      cases hid
    rw [hhear, Function.update_of_ne hne]
    exact h.unfiled id hid
  rcases hs with ⟨hs, hle⟩ | ⟨upd, hupd, hs⟩
  · constructor
    · intro x hx
      rw [hs] at hx
      by_cases hxo : x.id = o.id
      · obtain rfl := w.state.orders.eq_of_key hx ho hxo
        show w.hear x.id r x.id = x.filledQty
        rw [hhear, Function.update_self, h.filed x hx, max_eq_left hle]
      · exact hother x hx hxo
    · intro id hid
      exact hnone id (hs ▸ hid)
  · constructor
    · intro x hx
      rw [hs] at hx
      rcases (mem_updateOrder ho).1 hx with ⟨hx, hxo⟩ | rfl
      · exact hother x hx hxo
      · show w.hear o.id r o.id = max o.filledQty upd.filledQty
        rw [hhear, Function.update_self, h.filed o ho, hupd]
    · intro id hid
      refine hnone id (Table.get_eq_none.2 fun x hx e => ?_)
      rw [hs] at hid
      by_cases hxo : x.id = o.id
      · exact Table.get_eq_none.1 hid _ ((mem_updateOrder ho).2 (.inr rfl)) (hxo.symm.trans e)
      · exact Table.get_eq_none.1 hid x ((mem_updateOrder ho).2 (.inl ⟨hx, hxo⟩)) e

/-- A report that the lifecycle applies. -/
theorem update (h : Heard w) (hw : Placed w) {id : BrokerOrderId} {r : BrokerReport} (htold : w.tells id r = true) :
    Heard ⟨applyBrokerUpdate w.state id r, w.broker, w.hear id r⟩ := by
  rcases hw.told htold with ⟨hnone, happly⟩ | ⟨o, b, upd, -, hom, rfl, -, hm, -, hhist, -, hq, -, happly⟩
  · have hhear : w.hear id r = w.reported := by
      unfold World.hear
      rw [hnone]
    rw [happly, hhear]
    exact h.of_orders_eq rfl
  · refine h.report hom hq ?_
    rw [happly, orders_acceptUpdate]
    split
    · -- a terminal order is completely on file
      rename_i hterm
      refine .inl ⟨rfl, ?_⟩
      rw [(hm.final hterm).2]
      exact (BrokerOrder.of_mem_history hhist).2.1
    · exact .inr ⟨upd, rfl, rfl⟩

/-- A report that a poll drops. -/
theorem dropped (h : Heard w) {id : BrokerOrderId} {r : BrokerReport} (htold : w.tells id r = true)
    (hno : NoNews w.state id r) : Heard ⟨w.state, w.broker, w.hear id r⟩ := by
  obtain ⟨b, -, hb⟩ := (Option.any_eq_true _ _).1 htold
  obtain ⟨⟨p, -, -, hq⟩, -⟩ := of_decide_eq_true hb
  cases ho : w.state.orders.get id with
  | none =>
    have hhear : w.hear id r = w.reported := by
      unfold World.hear
      rw [ho]
    rw [hhear]
    exact h.of_orders_eq rfl
  | some o =>
    obtain rfl := Table.key_of_get ho
    exact h.report (Table.mem_of_get ho) hq (.inl ⟨rfl, hno o ho _ hq⟩)

/-- A request that is admitted, and what becomes of it. -/
theorem order (h : Heard w) (hw : Placed w) {r : OrderRequest} {i : IntentId} {sub : Submission}
    {s' : LifecycleState} {t : Table BrokerOrder.id} (hadm : admitIntent cfg w.state r = .ok (i, s'))
    (htruth : sub.truthful = true) (ht : w.receive i sub = some t) :
    Heard ⟨sub.answer.elim s' (recordSubmission s' i), t, w.reported⟩ := by
  obtain ⟨-, -, budgets, -, rfl⟩ := admitIntent_ok hadm
  cases hans : sub.answer with
  | none => exact h.of_orders_eq rfl
  | some answer =>
    cases answer with
    | raised => exact h.of_orders_eq rfl
    | answered id =>
      simp only [Option.elim, recordSubmission]
      split
      · exact h.of_orders_eq rfl
      · rename_i hid
        unfold Submission.truthful at htruth
        simp only [hans, hid, decide_false, Bool.false_or, Bool.and_eq_true, decide_eq_true_eq] at htruth
        unfold World.receive at ht
        rw [htruth.2] at ht
        obtain ⟨-, hfresh⟩ := Table.insert?_eq_some ht
        refine h.putOrder (Table.get_eq_none.2 fun o ho e => ?_) rfl rfl
        obtain ⟨b, hb, hm⟩ := hw.matched o ho
        exact hfresh b hb (hm.id.trans e)

/-- Every event by which a poll drops no new shares. -/
theorem next (h : Heard w) (hw : Placed w) {e : Event}
    (hc : ∀ id seen r, e = .pollRead id seen r → r.status = seen → NoNews w.state id r) (hn : w.next cfg e = some w') :
    Heard w' := by
  cases e with
  | session enabled killSwitch =>
    obtain rfl := Option.some.inj hn
    exact h.of_orders_eq rfl
  | order r sub =>
    simp only [World.next] at hn
    split at hn
    · obtain rfl := Option.some.inj hn
      exact h
    · rename_i i s' hadm
      split at hn
      · rename_i htruth
        obtain ⟨t, ht, rfl⟩ := Option.map_eq_some_iff.1 hn
        exact h.order hw hadm htruth ht
      · cases hn
  | broker id snapshot =>
    simp only [World.next] at hn
    split at hn
    · obtain rfl := Option.some.inj hn
      exact h.of_orders_eq rfl
    · cases hn
  | update id r =>
    simp only [World.next] at hn
    split at hn
    · rename_i htold
      obtain rfl := Option.some.inj hn
      exact h.update hw htold
    · cases hn
  | pollRead id seen r =>
    simp only [World.next] at hn
    split at hn
    · rename_i htold
      obtain rfl := Option.some.inj hn
      unfold Piv.pollRead
      split
      · exact h.update hw htold
      · rename_i hdrop
        obtain ⟨b, -, hb⟩ := (Option.any_eq_true _ _).1 htold
        obtain ⟨⟨p, -, hst, -⟩, -⟩ := of_decide_eq_true hb
        -- the broker tells a status, so it is the one seen last
        refine h.dropped htold (hc id seen r rfl ?_)
        by_contra hne
        exact hdrop ⟨by rw [hst]; rintro ⟨⟩, hne⟩
    · cases hn
  | pollTimeout id =>
    obtain rfl := Option.some.inj hn
    refine h.of_orders (fun o ho => ?_) fun q hq => ?_
    · obtain ⟨q, hq, rfl⟩ := mem_updateRows.1 ho
      refine ⟨q, hq, ?_⟩
      split <;> exact ⟨rfl, rfl⟩
    · refine ⟨_, mem_updateRows.2 ⟨q, hq, rfl⟩, ?_⟩
      split <;> rfl
  | promote =>
    obtain rfl := Option.some.inj hn
    exact h.of_orders_eq rfl
  | lookup i now answer =>
    simp only [World.next] at hn
    split at hn
    · rename_i hcond
      obtain rfl := Option.some.inj hn
      obtain ⟨huncertain, htold⟩ := Bool.and_eq_true_iff.1 hcond
      obtain ⟨q, hq, hst⟩ := (Option.any_eq_true _ _).1 huncertain
      cases answer with
      | raised => exact h.of_orders_eq rfl
      | notFound => exact h.of_orders_eq rfl
      | found row =>
        simp only [lookupSubmission]
        split
        · rename_i hmatch
          unfold World.tellsLookup at htold
          simp only [hmatch.1, Bool.not_true, Bool.false_or] at htold
          obtain ⟨b, hget, hb⟩ := (Option.any_eq_true _ _).1 htold
          -- an uncertain intent has no order on file
          refine h.putOrder (Table.get_eq_none.2 fun o ho e => ?_) rfl rfl
          obtain ⟨c, hc, hm⟩ := hw.matched o ho
          obtain rfl := w.broker.eq_of_key hc (Table.mem_of_get hget)
            (hm.id.trans (e.trans (Table.key_of_get hget).symm))
          obtain ⟨q', hq', hsub⟩ := hw.intent o ho
          rw [← hm.intent, of_decide_eq_true hb, hq] at hq'
          obtain rfl := Option.some.inj hq'
          rw [of_decide_eq_true hst] at hsub
          cases hsub
        · exact h.of_orders_eq rfl
    · cases hn
  | resolve i =>
    simp only [World.next] at hn
    split at hn
    · cases hn
    · obtain rfl := Option.some.inj hn
      unfold operatorResolveUncertainSubmission
      split
      · split <;> exact h.of_orders_eq rfl
      · exact h.of_orders_eq rfl
  | verdict flags =>
    obtain rfl := Option.some.inj hn
    exact h.of_orders_eq rfl
  | trigger symbol reason =>
    obtain rfl := Option.some.inj hn
    unfold markExitTriggered
    split
    · exact h.of_orders_eq rfl
    · split <;> exact h.of_orders_eq rfl

theorem of_reach (h : Reach cfg (Heeded u) w) : Heard w := by
  induction h with
  | start => exact ⟨fun _ h => (List.not_mem_nil h).elim, fun _ _ => rfl⟩
  | step hr hc hn ih =>
    refine ih.next (.of_reach hr) (fun id seen r he => ?_) hn
    subst he
    exact hc.2

/-- What was reported of the orders of a symbol and a side is on file. -/
theorem reportedOf (h : Heard w) (symbol : Symbol) (side : Side) :
    w.reportedOf symbol side = w.state.recorded symbol side := by
  simp only [World.reportedOf, LifecycleState.recorded, sumWhere]
  refine congrArg List.sum (List.map_congr_left fun o ho => ?_)
  exact h.filed o (List.mem_filter.1 ho).1

end Heard

/-! ## The claim about the holdings -/

theorem holdings_conserved (hu : shareTolerance < u) (h : Reach cfg (Heeded u) w) :
    (∀ symbol, w.state.held symbol = w.reportedOf symbol .buy - w.reportedOf symbol .sell ∧ 0 ≤ w.state.held symbol ∧
      ((∃ p ∈ w.state.positions.rows, p.symbol = symbol ∧ p.status = .opened) ↔ 0 < w.state.held symbol)) ∧
    ∀ p ∈ w.state.positions.rows, p.id.entry.side = .buy := by
  have hsound := Sound.of_reach hu (fun _ _ => Heeded.careful) h
  have hheard := Heard.of_reach h
  refine ⟨fun symbol => ⟨?_, hsound.ledger.held_nonneg symbol, ?_⟩, fun p hp => (hsound.ledger.position p hp).side⟩
  · rw [hheard.reportedOf, hheard.reportedOf]
    exact hsound.ledger.balance symbol
  · rw [← hsound.ledger.isSome_openPositionFor symbol, Option.isSome_iff_exists]
    exact exists_congr fun p => hsound.ledger.openPositionFor_eq_some.symm

/-- A poll whose reports the broker tells is a run of its rounds. -/
theorem pollRounds_run {id : BrokerOrderId} {atEnd : PollEnd} {rows : List OrderRow} :
    ∀ {w : World} {seen : StatusText}, (∀ row ∈ rows, ∀ r, row.pollReport = some r → w.tells id r = true) →
      ∃ es w', w.run cfg es = some w' ∧ w'.state = pollRounds w.state id seen atEnd rows := by
  induction rows with
  | nil =>
    intro w seen _
    cases atEnd with
    | timedOut => exact ⟨[.pollTimeout id], _, rfl, rfl⟩
    | interrupted => exact ⟨[], w, rfl, rfl⟩
  | cons row rows ih =>
    intro w seen htold
    unfold pollRounds
    cases hr : row.pollReport with
    | none => exact ⟨[], w, rfl, rfl⟩
    | some r =>
      have hnext : w.next cfg (.pollRead id seen r) =
          some { w with state := pollRead w.state id seen r, reported := w.hear id r } :=
        if_pos (htold row List.mem_cons_self r hr)
      dsimp only
      split
      · exact ⟨[.pollRead id seen r], _, by rw [run, hnext]; rfl, rfl⟩
      · obtain ⟨es, w', hrun, hstate⟩ := @ih { w with state := pollRead w.state id seen r, reported := w.hear id r }
          (seenAfter seen r) fun x hx => htold x (List.mem_cons_of_mem _ hx)
        exact ⟨.pollRead id seen r :: es, w', by rw [run, hnext]; exact hrun, hstate⟩

/-! ## Runs on fixed inputs -/

/-- Entries are enabled, and no experiment is configured. -/
def openConfig : Config := ⟨fun _ => true, fun _ _ => .error "EXPERIMENTAL_AUTHORIZATION_NOT_CONFIGURED"⟩

def buyThree : OrderRequest := { signalId := "entry", symbol := "AAPL", side := some .buy, quantity := some 3 }

/-- A BUY of three shares gets two, which are reported under the status. -/
def twoOfThree (status : BrokerStatus) : List Event :=
  [.session true false, .order buyThree ⟨some "o1", some (.answered "o1")⟩, .broker "o1" ⟨status, 2⟩,
    .update "o1" ⟨.known status, .finite 2, none, none⟩]

theorem heeded_twoOfThree (e : Event) (he : e ∈ twoOfThree .partiallyFilled) (w : World) : Heeded 1 w e := by
  have hlots : ∀ n : ℤ, Lots 1 (n : ℚ) := fun n => AddSubgroup.mem_zmultiples_iff.2 ⟨n, by simp⟩
  simp only [twoOfThree, List.mem_cons, List.not_mem_nil, or_false] at he
  rcases he with rfl | rfl | rfl | rfl
  · trivial
  · refine ⟨fun q hq => ?_, nofun⟩
    obtain rfl := Option.some.inj hq
    exact hlots 3
  · exact hlots 2
  · exact fun o _ q _ _ => ⟨.partiallyFilled, rfl, rfl⟩

theorem holdings_conserved_sample :
    ∃ w, ({} : World).run openConfig (twoOfThree .partiallyFilled) = some w ∧ w.state.held "AAPL" = 2 ∧
      w.state.held "AAPL" = w.reportedOf "AAPL" .buy - w.reportedOf "AAPL" .sell := by
  have hheld : (({} : World).run openConfig (twoOfThree .partiallyFilled)).map (·.state.held "AAPL") = some 2 := by
    decide +kernel
  obtain ⟨w, hrun, hw⟩ := Option.map_eq_some_iff.1 hheld
  have htol : shareTolerance < 1 := by norm_num [shareTolerance]
  have hreach : Reach openConfig (Heeded 1) w := Reach.of_run heeded_twoOfThree .start hrun
  exact ⟨w, hrun, hw, ((holdings_conserved htol hreach).1 "AAPL").1⟩

/-- The two shares come with the cancellation of the rest: the books keep none of them. -/
theorem canceled_fill_dropped :
    ¬ ∀ w, Reach openConfig (fun _ _ => True) w →
      w.state.held "AAPL" = w.reportedOf "AAPL" .buy - w.reportedOf "AAPL" .sell := by
  intro h
  have hquantities : (({} : World).run openConfig (twoOfThree .canceled)).map
      (fun w => (w.state.held "AAPL", w.reportedOf "AAPL" .buy, w.reportedOf "AAPL" .sell)) = some (0, 2, 0) := by
    decide +kernel
  obtain ⟨w, hrun, hw⟩ := Option.map_eq_some_iff.1 hquantities
  have hconserved := h w (Reach.of_run (fun _ _ _ => trivial) .start hrun)
  simp only [Prod.mk.injEq] at hw
  rw [hw.1, hw.2.1, hw.2.2] at hconserved
  norm_num at hconserved

end TalonX.Piv
