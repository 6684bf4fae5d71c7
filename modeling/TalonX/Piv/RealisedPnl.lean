import TalonX.Piv.Tally

/-!
# The realised profit of a position

- `Tally.report`, `quiet_of_next`: a report that the broker tells, and every other event;
- `Accounted`: what holds of a run of priced and clean reports;
- `gross_exact`: in such a run a closed position has recorded its proceeds less its cost;
- `second_fill_misses_price`: a second fill of a SELL order at another price.
-/

set_option autoImplicit false

namespace TalonX.Piv

open Transact V2 World

variable {cfg : Config} {w : World} {V : Tape} {s s' : LifecycleState} {P : PositionId → ℚ} {o : Order} {p : Position}

/-! ## Runs -/

variable {t t' : Traded} {id : BrokerOrderId} {r : BrokerReport}

theorem credit_of_none (h : t.world.state.orders.get id = none) : credit V t id r = t.proceeds := by
  unfold credit
  rw [h]

theorem credit_eq {q : ℚ} (hget : t.world.state.orders.get id = some o) (hq : q ∈ r.quantity?)
    (hf : t.world.reported id = o.filledQty) :
    credit V t id r = credited V t.world.state t.proceeds o q := by
  obtain rfl := Table.key_of_get hget
  unfold credit credited creditTracked sold
  rw [hget, Option.mem_def.1 hq, hf]
  dsimp only
  split
  · rename_i k hside hk
    rw [hside, hk]
  · rename_i hno
    cases hside : o.intentId.side with
    | buy => rfl
    | sell =>
      cases hk : t.world.state.openPositionBySymbol o.symbol with
      | none => rfl
      | some k => exact absurd hk (hno k hside)

/-- A price that is valid is taken as it is. -/
theorem validPrice_finite {x : ℚ} {y : Option ℚ} (h : validPrice (some (.finite x)) = some y) : some x = y := by
  unfold validPrice at h
  split at h
  · rename_i heq
    cases heq
  · rename_i p heq
    obtain rfl : x = p := by simpa using heq
    split at h
    · exact Option.some.inj h
    · cases h
  · cases h

/-- A report that the lifecycle applies. -/
theorem Tally.report (h : Tally V t.world.state t.proceeds) (hw : Placed t.world) (hh : Heard t.world)
    (htold : t.world.tells id r = true) (hprice : V.Prices id r) (hclean : Clean V t.world.state id r) :
    Tally V (applyBrokerUpdate t.world.state id r) (credit V t id r) := by
  rcases hw.told htold with ⟨hnone, happly⟩ | ⟨o, b, upd, hget, hom, rfl, -, hm, -, hhist, hst, hq, hvalid, happly⟩
  · rw [happly, credit_of_none hnone]
    exact h
  · obtain ⟨i, hi, -⟩ := hw.intent o hom
    obtain ⟨-, hfilled, -⟩ := BrokerOrder.of_mem_history hhist
    have hq' := BrokerReport.mem_quantity?.2 hq
    rw [happly, credit_eq hget hq' (hh.filed o hom)]
    refine h.acceptUpdate hom (fun q hqm he => hw.single q hqm o hom he) hi (hw.nonneg o hom) (fun hterm => ?_)
      (fun hpos => ?_) ?_ (fun hnews => ?_) fun hnews => (hclean o hget _ hq' hnews).2
    · rw [(hm.final hterm).2]
      exact hfilled
    · rw [hprice _ hq' hpos] at hvalid
      exact (validPrice_finite hvalid).symm
    · rw [← hm.intent]
      exact (max_le hm.le hfilled).trans b.bounded.2
    · have hfill := (hclean o hget _ hq' hnews).1
      rwa [hst] at hfill

/-- A report comes in. -/
def Event.isReport : Event → Bool
  | .update .. => true
  | .pollRead .. => true
  | _ => false

/-- Events other than reports leave the quantities alone. -/
theorem quiet_of_next {w' : World} {e : Event} (hw : Placed w) (hn : w.next cfg e = some w')
    (hno : e.isReport = false) : Quiet w.state w'.state := by
  cases e with
  | session enabled killSwitch =>
    obtain rfl := Option.some.inj hn
    exact .of_eq rfl rfl
  | order r sub =>
    simp only [World.next] at hn
    split at hn
    · obtain rfl := Option.some.inj hn
      exact .of_eq rfl rfl
    · rename_i i s' hadm
      split at hn
      · rename_i htruth
        obtain ⟨t, ht, rfl⟩ := Option.map_eq_some_iff.1 hn
        exact .order hw hadm htruth ht
      · cases hn
  | broker id snapshot =>
    simp only [World.next] at hn
    split at hn
    · obtain rfl := Option.some.inj hn
      exact .of_eq rfl rfl
    · cases hn
  | update id r => cases hno
  | pollRead id seen r => cases hno
  | pollTimeout id =>
    obtain rfl := Option.some.inj hn
    exact .markUnconfirmed id
  | promote =>
    obtain rfl := Option.some.inj hn
    exact .of_eq rfl rfl
  | lookup i now answer =>
    simp only [World.next] at hn
    split at hn
    · rename_i hcond
      obtain rfl := Option.some.inj hn
      obtain ⟨huncertain, htold⟩ := Bool.and_eq_true_iff.1 hcond
      obtain ⟨q, hq, hst⟩ := (Option.any_eq_true _ _).1 huncertain
      exact .lookup hw hq (of_decide_eq_true hst) htold
    · cases hn
  | resolve i =>
    simp only [World.next] at hn
    split at hn
    · cases hn
    · obtain rfl := Option.some.inj hn
      unfold operatorResolveUncertainSubmission
      split
      · split <;> exact .of_eq rfl rfl
      · exact .of_eq rfl rfl
  | verdict flags =>
    obtain rfl := Option.some.inj hn
    exact .of_eq rfl rfl
  | trigger symbol reason =>
    obtain rfl := Option.some.inj hn
    exact .markExitTriggered symbol reason

/-- A report that a poll drops brings no new shares, so it earns nothing. -/
theorem credit_of_noNews (hh : Heard t.world) (hno : NoNews t.world.state id r) : credit V t id r = t.proceeds := by
  cases hget : t.world.state.orders.get id with
  | none => exact credit_of_none hget
  | some o =>
    obtain rfl := Table.key_of_get hget
    cases hq : r.quantity? with
    | none =>
      unfold credit
      rw [hget, hq]
    | some q =>
      have hle := hno o hget q (BrokerReport.mem_quantity?.1 hq)
      rw [credit_eq hget hq (hh.filed o (Table.mem_of_get hget)), credited_of_le hle]

/-- What holds of a run of priced and clean reports. -/
structure Accounted (V : Tape) (t : Traded) : Prop where
  placed : Placed t.world
  heard : Heard t.world
  tally : Tally V t.world.state t.proceeds

theorem Accounted.next {e : Event} (h : Accounted V t) (hp : e.Priced V) (hx : Exact V t e)
    (hn : t.next cfg V e = some t') : Accounted V t' := by
  obtain ⟨w', hw', rfl⟩ := Option.map_eq_some_iff.1 hn
  have hdrop : ∀ id seen r, e = .pollRead id seen r → r.status = seen → NoNews t.world.state id r := by
    rintro id seen r rfl hseen
    exact hx.1 hseen
  refine ⟨h.placed.next hw', h.heard.next h.placed hdrop hw', ?_⟩
  cases e with
  | update id r =>
    simp only [World.next] at hw'
    split at hw'
    · rename_i htold
      obtain rfl := Option.some.inj hw'
      exact h.tally.report h.placed h.heard htold hp hx
    · cases hw'
  | pollRead id seen r =>
    simp only [World.next] at hw'
    split at hw'
    · rename_i htold
      obtain rfl := Option.some.inj hw'
      show Tally V (Piv.pollRead t.world.state id seen r) (credit V t id r)
      unfold Piv.pollRead
      by_cases hseen : r.status = seen
      · rw [if_neg fun hc => hc.2 hseen, credit_of_noNews h.heard (hdrop id seen r rfl hseen)]
        exact h.tally
      · have hmissing : r.status ≠ .missing := by
          obtain ⟨b, -, hb⟩ := (Option.any_eq_true _ _).1 htold
          obtain ⟨⟨p, -, hst, -⟩, -⟩ := of_decide_eq_true hb
          rw [hst]
          rintro ⟨⟩
        rw [if_pos ⟨hmissing, hseen⟩]
        exact h.tally.report h.placed h.heard htold hp (hx.2 hseen)
    · cases hw'
  | _ => exact h.tally.quiet (quiet_of_next h.placed hw' rfl)

theorem Accounted.start : Accounted V {} where
  placed := Placed.start
  heard := ⟨fun _ h => (List.not_mem_nil h).elim, fun _ _ => rfl⟩
  tally := ⟨fun _ h => (List.not_mem_nil h).elim, fun _ h => (List.not_mem_nil h).elim,
    fun _ h => (List.not_mem_nil h).elim, fun _ _ => rfl⟩

theorem Accounted.of_reach (h : TradedReach cfg V (fun t e => e.Priced V ∧ Exact V t e) t) : Accounted V t := by
  induction h with
  | start => exact .start
  | step _ hc hn ih => exact ih.next hc.1 hc.2 hn

/-- The cost of a position is the one of its order. -/
theorem Accounted.cost_eq (h : Accounted V t) (hp : p ∈ t.world.state.positions.rows) :
    ∀ e, p.price = some e → t.cost V p = e * p.quantity := by
  intro e he
  have htally := h.tally.position p hp
  obtain ⟨o, ho, hi, hf, hprice⟩ := htally.order
  rw [hprice] at he
  obtain rfl := Option.some.inj he
  rw [Traded.cost, sumWhere_eq_single t.world.state.orders.nodup ho, if_pos (by simpa using hi), h.heard.filed o ho, hf,
    Tape.average, div_mul_cancel₀ _ htally.positive.ne']
  intro q hq hne hc
  exact absurd (h.placed.single q hq o ho ((of_decide_eq_true hc).trans hi.symm)) hne

/-! ## The claim about the profit -/

/-- When every report carries its average price, and its new shares are clean, a closed position has recorded its
proceeds less its cost. -/
theorem gross_exact (h : TradedReach cfg V (fun t e => e.Priced V ∧ Exact V t e) t)
    (hp : p ∈ t.world.state.positions.rows) (hclosed : p.status = .closed) :
    p.grossPnl = some (t.proceeds p.id - t.cost V p) := by
  have hacc := Accounted.of_reach h
  have htally := hacc.tally.position p hp
  obtain ⟨o, -, -, -, hprice⟩ := htally.order
  -- all that was bought was sold
  have hall : p.exitQuantity = p.quantity := by
    have hrest := htally.rest
    rw [htally.closed hclosed] at hrest
    linarith
  obtain ⟨g, hg⟩ := Option.isSome_iff_exists.1 (htally.booked (by rw [hall]; exact htally.positive))
  have hgross := htally.gross _ hprice
  rw [hg, Option.getD_some, hall, ← hacc.cost_eq hp _ hprice] at hgross
  rw [hg, hgross]

/-! ## Runs on fixed inputs -/

/-- Two shares are bought at 10, and the shares of the SELL order fetch 20 and `second`. -/
def twoShareTape (second : ℚ) : Tape where
  value id q := if id = "o1" then 10 * q else if q ≤ 1 then 20 * q else 20 + second * (q - 1)
  nothing id := by
    split
    · exact mul_zero _
    · rw [if_pos zero_le_one, mul_zero]

def sharesOf (signalId : String) (side : Side) : OrderRequest :=
  { signalId, symbol := "AAPL", side := some side, quantity := some 2 }

/-- The SELL order fills in two parts, each of which is reported with the average price so far. -/
def soldInTwoParts (V : Tape) : List Event :=
  [.session true false, .order (sharesOf "entry" .buy) ⟨some "o1", some (.answered "o1")⟩, .broker "o1" ⟨.filled, 2⟩,
    .update "o1" ⟨.known .filled, .finite 2, some (.finite (V.average "o1" 2)), none⟩,
    .order (sharesOf "exit" .sell) ⟨some "o2", some (.answered "o2")⟩, .broker "o2" ⟨.partiallyFilled, 1⟩,
    .update "o2" ⟨.known .partiallyFilled, .finite 1, some (.finite (V.average "o2" 1)), none⟩,
    .broker "o2" ⟨.filled, 2⟩,
    .update "o2" ⟨.known .filled, .finite 2, some (.finite (V.average "o2" 2)), none⟩]

/-- The status, the recorded profit, the proceeds and the cost of every position. -/
def Traded.books (V : Tape) (t : Traded) : List (PositionStatus × Option ℚ × ℚ × ℚ) :=
  t.world.state.positions.rows.map fun p => (p.status, p.grossPnl, t.proceeds p.id, t.cost V p)

theorem gross_exact_sample :
    ∃ (t : Traded) (p : Position), p ∈ t.world.state.positions.rows ∧ p.status = .closed ∧ t.proceeds p.id = 40 ∧
      p.grossPnl = some (t.proceeds p.id - t.cost (twoShareTape 20) p) := by
  have hrun : (Traded.runWhile openConfig (twoShareTape 20)
      (fun t e => e.Priced (twoShareTape 20) ∧ Exact (twoShareTape 20) t e) {}
      (soldInTwoParts (twoShareTape 20))).map (·.books (twoShareTape 20)) = some [(.closed, some 20, 40, 20)] := by
    decide +kernel
  obtain ⟨t, ht, hbooks⟩ := Option.map_eq_some_iff.1 hrun
  obtain ⟨p, hp, hrow⟩ := List.mem_map.1 (hbooks ▸ List.mem_singleton_self _)
  simp only [Prod.mk.injEq] at hrow
  exact ⟨t, p, hp, hrow.1, hrow.2.2.1, gross_exact (.of_runWhile .start ht) hp hrow.1⟩

/-- The second share fetches 10, and its report carries the average 15: the profit is recorded as 15 instead of 10. -/
theorem second_fill_misses_price :
    ¬ ∀ t : Traded, TradedReach openConfig (twoShareTape 10) (fun _ e => e.Priced (twoShareTape 10)) t →
      ∀ p ∈ t.world.state.positions.rows, p.status = .closed →
        p.grossPnl = some (t.proceeds p.id - t.cost (twoShareTape 10) p) := by
  intro h
  have hrun : (Traded.runWhile openConfig (twoShareTape 10) (fun _ e => e.Priced (twoShareTape 10)) {}
      (soldInTwoParts (twoShareTape 10))).map (·.books (twoShareTape 10)) = some [(.closed, some 15, 30, 20)] := by
    decide +kernel
  obtain ⟨t, ht, hbooks⟩ := Option.map_eq_some_iff.1 hrun
  obtain ⟨p, hp, hrow⟩ := List.mem_map.1 (hbooks ▸ List.mem_singleton_self _)
  simp only [Prod.mk.injEq] at hrow
  have hclaim := h t (.of_runWhile .start ht) p hp hrow.1
  rw [hrow.2.1, hrow.2.2.1, hrow.2.2.2] at hclaim
  norm_num at hclaim

end TalonX.Piv
