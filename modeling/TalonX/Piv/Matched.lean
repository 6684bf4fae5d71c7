import TalonX.Piv.Reconcile
import TalonX.Piv.Holdings

/-!
# What a matched reconcile says

- frames: a refresh touches one order and no intent, a lookup touches its own intent and the order that it adopts;
- `RowAgrees`: a row of the open orders and the intent that it belongs to;
- `Truthful`: every read of the pass succeeded, the positions and the orders agree, and no submission is uncertain;
- `Operation`: whatever the lifecycle is told to do and whatever the broker answers. The entry block stays until a
  reconcile is matched.
-/

set_option autoImplicit false

namespace TalonX.Piv

open Transact V2

variable {s t : LifecycleState} {cfg : Config} {now : Instant} {reads : Reads}

/-! ## What the stages leave alone -/

section Frames

variable {id k : BrokerOrderId} {i j : IntentId}

theorem get_orders_updateOrder_of_ne {upd : Update} (h : k ≠ id) :
    (s.updateOrder id upd).orders.get k = s.orders.get k := by
  show (s.orders.update (·.id = id) (·.report upd) fun _ => rfl).get k = _
  exact Table.get_update_of_ne h

theorem get_updateIntent_of_ne {f : Intent → Intent} {hf : ∀ q, (f q).id = q.id} (h : j ≠ i) :
    (s.updateIntent i f hf).intents.get j = s.intents.get j := by
  show (s.intents.update (·.id = i) f hf).get j = _
  exact Table.get_update_of_ne h

theorem get_intents_recordOrder_of_ne (h : j ≠ i) : (s.recordOrder i id).intents.get j = s.intents.get j := by
  show (s.setIntentStatus i .submitted).intents.get j = _
  exact get_updateIntent_of_ne h

theorem get_orders_recordOrder_of_ne (h : k ≠ id) : (s.recordOrder i id).orders.get k = s.orders.get k := by
  unfold LifecycleState.recordOrder LifecycleState.putOrder
  exact Table.get_upsert_of_ne h

theorem get_orders_applyBrokerUpdate_of_ne {r : BrokerReport} (h : k ≠ id) :
    (applyBrokerUpdate s id r).orders.get k = s.orders.get k := by
  unfold applyBrokerUpdate
  split
  · rfl
  rename_i order hget
  split
  · rfl
  rw [orders_acceptUpdate]
  split
  · rfl
  · rw [Table.key_of_get hget]
    exact get_orders_updateOrder_of_ne h

@[simp] theorem intents_refreshOrder {row : Option OrderRow} : (refreshOrder s id row).intents = s.intents := by
  unfold refreshOrder
  split
  · rfl
  · exact intents_applyBrokerUpdate

theorem get_orders_refreshOrder_of_ne {row : Option OrderRow} (h : k ≠ id) :
    (refreshOrder s id row).orders.get k = s.orders.get k := by
  unfold refreshOrder
  split
  · rfl
  · exact get_orders_applyBrokerUpdate_of_ne h

/-- A read that fails changes nothing. -/
theorem refreshOrder_of_isNone {row : Option OrderRow} (h : (row.bind extractOrderUpdateFields).isSome = false) :
    refreshOrder s id row = s := by
  unfold refreshOrder
  rw [Option.isSome_eq_false_iff, Option.isNone_iff_eq_none] at h
  rw [h]

@[simp] theorem intents_refreshAll {read : BrokerOrderId → Option OrderRow} {ids : List BrokerOrderId} :
    (refreshAll read s ids).intents = s.intents := by
  unfold refreshAll
  induction ids generalizing s with
  | nil => rfl
  | cons id ids ih => rw [List.foldl_cons, ih, intents_refreshOrder]

/-- An order that no read with an answer is about stays as it is. -/
theorem get_orders_refreshAll {read : BrokerOrderId → Option OrderRow} {ids : List BrokerOrderId}
    (h : k ∈ ids → ((read k).bind extractOrderUpdateFields).isSome = false) :
    (refreshAll read s ids).orders.get k = s.orders.get k := by
  unfold refreshAll
  induction ids generalizing s with
  | nil => rfl
  | cons id ids ih =>
    rw [List.foldl_cons, ih fun hk => h (List.mem_cons_of_mem _ hk)]
    by_cases hid : k = id
    · subst hid
      rw [refreshOrder_of_isNone (h List.mem_cons_self)]
    · exact get_orders_refreshOrder_of_ne hid

/-- The lookup would adopt the row for the intent. -/
def Adopts (lookup : IntentId → LookupAnswer) (i : IntentId) (row : OrderRow) : Prop :=
  lookup i = .found row ∧ orderResponseMatchesIntent row i = true ∧ row.id ≠ ""

theorem get_intents_lookupSubmission_of_ne {answer : LookupAnswer} (h : j ≠ i) :
    (lookupSubmission s i now answer).intents.get j = s.intents.get j := by
  unfold lookupSubmission
  split
  · exact get_updateIntent_of_ne h
  · exact get_updateIntent_of_ne h
  · split
    · rw [get_intents_recordOrder_of_ne h]
      exact get_updateIntent_of_ne h
    · exact get_updateIntent_of_ne h

theorem get_intents_resolve_of_ne {answer : LookupAnswer} (h : j ≠ i) :
    (resolveUncertainSubmission s i now answer).intents.get j = s.intents.get j := by
  unfold resolveUncertainSubmission
  split
  · split
    · rw [intents_refreshOrder]
      exact get_intents_lookupSubmission_of_ne h
    · exact get_intents_lookupSubmission_of_ne h
  · exact get_intents_lookupSubmission_of_ne h

/-- Without an adoption the intent keeps its status, and the orders stay. -/
theorem resolve_of_not_adopts {lookup : IntentId → LookupAnswer} (h : ∀ row, ¬ Adopts lookup i row) :
    (resolveUncertainSubmission s i now (lookup i)).orders = s.orders ∧
      ((resolveUncertainSubmission s i now (lookup i)).intents.get i).map (·.status) =
        (s.intents.get i).map (·.status) := by
  have hkeeps : ∀ f : Intent → Intent, ∀ hf : ∀ q, (f q).id = q.id, (∀ q, (f q).status = q.status) →
      ((s.updateIntent i f hf).intents.get i).map (·.status) = (s.intents.get i).map (·.status) := fun f hf hs => by
    rw [get_updateIntent, Option.map_map]
    refine congrArg (fun g => Option.map g _) (funext fun q => ?_)
    show Intent.status (if decide (q.id = i) then f q else q) = q.status
    split
    · exact hs q
    · rfl
  unfold resolveUncertainSubmission
  cases hans : lookup i with
  | raised => exact ⟨rfl, hkeeps _ _ fun _ => rfl⟩
  | notFound => exact ⟨rfl, hkeeps _ _ fun _ => rfl⟩
  | found row =>
    have hno : ¬ (orderResponseMatchesIntent row i = true ∧ row.id ≠ "") := fun hc => h row ⟨hans, hc.1, hc.2⟩
    dsimp only
    rw [if_neg hno]
    unfold lookupSubmission
    dsimp only
    rw [if_neg hno]
    exact ⟨rfl, hkeeps _ _ fun _ => rfl⟩

theorem get_orders_lookupSubmission {answer : LookupAnswer} (h : ∀ row, answer = .found row → row.id ≠ k) :
    (lookupSubmission s i now answer).orders.get k = s.orders.get k := by
  unfold lookupSubmission
  split
  · rfl
  · rfl
  · rename_i row
    split
    · exact get_orders_recordOrder_of_ne (h row rfl).symm
    · rfl

theorem get_orders_resolve {answer : LookupAnswer} (h : ∀ row, answer = .found row → row.id ≠ k) :
    (resolveUncertainSubmission s i now answer).orders.get k = s.orders.get k := by
  unfold resolveUncertainSubmission
  split
  · rename_i row
    split
    · rw [get_orders_refreshOrder_of_ne (h row rfl).symm]
      exact get_orders_lookupSubmission h
    · exact get_orders_lookupSubmission h
  · exact get_orders_lookupSubmission h

theorem lookupIfDue_of_ne {lookup : IntentId → LookupAnswer} (h : j ≠ i) :
    (lookupIfDue lookup now s i).intents.get j = s.intents.get j := by
  unfold lookupIfDue
  split
  · exact get_intents_resolve_of_ne h
  · rfl

/-- An uncertain intent that no lookup adopts stays uncertain. -/
theorem status_lookups {lookup : IntentId → LookupAnswer} (h : ∀ row, ¬ Adopts lookup i row) {ids : List IntentId} :
    ((ids.foldl (lookupIfDue lookup now) s).intents.get i).map (·.status) = (s.intents.get i).map (·.status) := by
  induction ids generalizing s with
  | nil => rfl
  | cons j ids ih =>
    rw [List.foldl_cons, ih]
    by_cases hj : i = j
    · subst hj
      unfold lookupIfDue
      split
      · exact (resolve_of_not_adopts h).2
      · rfl
    · rw [lookupIfDue_of_ne hj]

/-- An order under whose id nothing is adopted stays as it is. -/
theorem get_orders_lookups {lookup : IntentId → LookupAnswer} {ids : List IntentId}
    (h : ∀ i ∈ ids, ∀ row, Adopts lookup i row → row.id ≠ k) :
    (ids.foldl (lookupIfDue lookup now) s).orders.get k = s.orders.get k := by
  induction ids generalizing s with
  | nil => rfl
  | cons i ids ih =>
    rw [List.foldl_cons, ih fun j hj => h j (List.mem_cons_of_mem _ hj)]
    unfold lookupIfDue
    split
    · by_cases hadopts : ∃ row, Adopts lookup i row
      · obtain ⟨row, hrow⟩ := hadopts
        apply get_orders_resolve
        intro row' hrow'
        obtain rfl : row = row' := by simpa [hrow.1] using hrow'
        exact h i List.mem_cons_self row hrow
      · rw [(resolve_of_not_adopts fun row hrow => hadopts ⟨row, hrow⟩).1]
    · rfl

end Frames

/-! ## Rows of the open orders -/

/-- The parsed order holds the fields of the row. -/
structure Parsed (row : OrderRow) (p : ParsedOrder) : Prop where
  id : p.id = row.id
  clientOrderId : p.clientOrderId = row.clientOrderId
  symbol : p.symbol = row.symbol
  side : row.side = some p.side
  qty : row.qty = .finite p.qty
  filledQty : row.filledQty.getD (.finite 0) = .finite p.filledQty
  nonneg : 0 ≤ p.filledQty

theorem quantity_eq_some {r : RawNumber} {q : ℚ} (h : r.quantity = some q) : r = .finite q ∧ 0 ≤ q := by
  unfold RawNumber.quantity at h
  cases r <;> simp [RawNumber.coerce, Option.filter_eq_some_iff] at h
  obtain ⟨rfl, hq⟩ := h
  exact ⟨rfl, hq⟩

theorem parsed_of_ok {row : OrderRow} {p : ParsedOrder} (h : parseBrokerOrderResponse row = .ok p) : Parsed row p := by
  unfold parseBrokerOrderResponse at h
  split at h
  · cases h
  split at h
  · cases h
  split at h
  · cases h
  split at h
  case h_5 _ side qty filledQty hside hqty hfilled _ =>
    obtain rfl := Except.ok.inj h
    exact ⟨rfl, rfl, rfl, hside, (quantity_eq_some hqty).1, (quantity_eq_some hfilled).1, (quantity_eq_some hfilled).2⟩
  all_goals cases h

/-- The row is an open order of the intent `q`: what it says agrees with the intent and with the order on file. -/
structure RowAgrees (s : LifecycleState) (row : OrderRow) (q : Intent) : Prop where
  onFile : s.intents.get q.id = some q
  clientOrderId : row.clientOrderId = .ofIntent q.id
  symbol : row.symbol = q.id.symbol
  side : row.side = some q.id.side
  qty : ∃ n, row.qty = .finite n ∧ |n - q.id.quantity| ≤ reconcileQuantityTolerance
  filledQty : ∃ f, row.filledQty.getD (.finite 0) = .finite f ∧ 0 ≤ f ∧ f ≤ q.id.quantity + reconcileQuantityTolerance ∧
    ∀ o, s.recordedFor row.id q.id = some o → o.filledQty - reconcileQuantityTolerance ≤ f
  live : q.status ≠ .rejected ∧ q.status ≠ .confirmedNotSubmitted
  order : ∀ o, s.recordedFor row.id q.id = some o → o.intentId = q.id ∧ o.status.terminal = false

theorem rowAgrees_of_verifyAgainst {row : OrderRow} {p : ParsedOrder} {q : Intent} (hp : Parsed row p)
    (hq : s.intents.get q.id = some q) (hown : ∀ o, s.orders.get row.id = some o → o.intentId = q.id)
    (h : verifyAgainst q (s.recordedFor p.id q.id) p = .ok) : RowAgrees s row q := by
  rw [hp.id] at h
  have hrecorded : ∀ o, s.recordedFor row.id q.id = some o → o.intentId = q.id := fun o ho => by
    rcases Option.or_eq_some_iff.1 ho with hget | ⟨-, hfind⟩
    · exact hown o hget
    · simpa using List.find?_some hfind
  unfold verifyAgainst at h
  split at h
  · cases h
  rename_i hclient
  split at h
  · cases h
  rename_i hterminal
  split at h
  · cases h
  rename_i hlive
  split at h
  · cases h
  rename_i hsymbol
  split at h
  · cases h
  rename_i hside
  split at h
  · cases h
  rename_i hqty
  split at h
  · cases h
  rename_i hover
  split at h
  · cases h
  rename_i hregressed
  rw [not_not] at hclient hsymbol hside
  rw [hp.clientOrderId] at hclient
  rw [hp.symbol] at hsymbol
  exact
    { onFile := hq
      clientOrderId := hclient
      symbol := hsymbol
      side := by rw [hp.side, hside]
      qty := ⟨p.qty, hp.qty, not_lt.1 hqty⟩
      filledQty := ⟨p.filledQty, hp.filledQty, hp.nonneg, not_lt.1 hover, fun o ho => by
        simpa [ho] using hregressed⟩
      live := not_or.1 hlive
      order := fun o ho => ⟨hrecorded o ho, by simpa [ho] using hterminal⟩ }

theorem rowAgrees_of_ok {row : OrderRow} (h : verifyBrokerOrderRow s row = .ok) : ∃ q, RowAgrees s row q := by
  unfold verifyBrokerOrderRow at h
  split at h
  · cases h
  rename_i p hparse
  have hp := parsed_of_ok hparse
  have hresolved : ∀ i, (∀ o, s.orders.get row.id = some o → o.intentId = i) →
      verifyBrokerOrderRow.resolved s p i = .ok → ∃ q, RowAgrees s row q := by
    intro i hown hok
    unfold verifyBrokerOrderRow.resolved at hok
    split at hok
    · cases hok
    rename_i q hq
    obtain rfl := Table.key_of_get hq
    exact ⟨q, rowAgrees_of_verifyAgainst hp hq hown hok⟩
  rw [hp.id] at h
  split at h
  · cases h
  · rename_i i hnone _
    apply hresolved i _ h
    intro o ho
    rw [ho] at hnone
    cases hnone
  · rename_i i hsome _
    apply hresolved i _ h
    intro o ho
    rw [ho] at hsome
    exact Option.some.inj hsome
  · rename_i i j hsome _
    split at h
    · cases h
    · apply hresolved i _ h
      intro o ho
      rw [ho] at hsome
      exact Option.some.inj hsome

/-! ## A matched pass -/

/-- What a matched pass says about the state `t` that it leaves and the answers that it got. -/
structure Truthful (s : LifecycleState) (now : Instant) (reads : Reads) (t : LifecycleState) : Prop where
  /-- An order left unconfirmed was read, or a lookup of the same pass adopted its id anew. -/
  unconfirmedRead : ∀ id ∈ s.unconfirmedIds, ((reads.unconfirmed id).bind extractOrderUpdateFields).isSome ∨
    ∃ i row, Adopts reads.lookup i row ∧ row.id = id
  /-- Every uncertain submission was found at the broker. -/
  lookedUp : ∀ i ∈ (promoteOrphanOrderIntents (resolveUnconfirmedOrders s reads.unconfirmed)).uncertainIds,
    ∃ row, Adopts reads.lookup i row
  refreshed : ∀ id ∈ (beforeRefresh s now reads).outstandingIds,
    ((reads.refresh id).bind extractOrderUpdateFields).isSome
  ordersRead : ∃ rows, reads.openOrders = .rows rows
  positionsRead : ∃ rows, reads.positions = .rows rows
  /-- Every position is a quantity that is not negative, and no side other than long is given. -/
  positionRows : ∀ row ∈ reads.positions.list,
    row.symbol ≠ "" ∧ (∃ n, row.qty = .finite n ∧ 0 ≤ n) ∧ (row.side = .missing ∨ row.side = .long)
  symbols : ∀ symbol, symbol ∈ t.openSymbols ↔ ∃ row ∈ reads.positions.list, row.symbol = symbol
  quantities : ∀ symbol,
    |t.openQuantity symbol - brokerQuantity reads.positions.list symbol| ≤ reconcileQuantityTolerance
  /-- Every open order of the broker belongs to one intent on file. -/
  orderRows : ∀ row ∈ reads.openOrders.list, ∃ q, RowAgrees t row q
  /-- Every order that is not terminal on file is among the open orders. -/
  ordersListed : ∀ o ∈ t.orders.rows, o.status.terminal = false → ∃ row ∈ reads.openOrders.list, row.id = o.id
  noneUnconfirmed : ∀ o ∈ t.orders.rows, o.status ≠ .unconfirmedTimeout
  noneUncertain : ∀ q ∈ t.intents.rows, q.status ≠ .submitFailedUncertain ∧
    (q.status = .orderIntent → ∃ o ∈ t.orders.rows, o.intentId = q.id)

theorem RowAgrees.withFlags {row : OrderRow} {q : Intent} (h : RowAgrees t row q) (flags : ReconciliationFlags) :
    RowAgrees { t with reconciliationFlags := flags } row q :=
  ⟨h.onFile, h.clientOrderId, h.symbol, h.side, h.qty, h.filledQty, h.live, h.order⟩

/-- The verdict is written into the flags, which the comparison does not read. -/
theorem Truthful.withFlags (h : Truthful s now reads t) (flags : ReconciliationFlags) :
    Truthful s now reads { t with reconciliationFlags := flags } :=
  { unconfirmedRead := h.unconfirmedRead
    lookedUp := h.lookedUp
    refreshed := h.refreshed
    ordersRead := h.ordersRead
    positionsRead := h.positionsRead
    positionRows := h.positionRows
    symbols := h.symbols
    quantities := h.quantities
    orderRows := fun row hrow => (h.orderRows row hrow).imp fun _ hq => hq.withFlags flags
    ordersListed := h.ordersListed
    noneUnconfirmed := h.noneUnconfirmed
    noneUncertain := h.noneUncertain }

section Compare

variable {unresolved : List BrokerOrderId} {openOrders : ListRead OrderRow} {positions : ListRead PositionRow}

theorem list_of_no_failures {α : Type} {read : ListRead α} {e e' : ReadFailure} (h : read.failures e e' = []) :
    ∃ rows, read = .rows rows := by
  cases read with
  | raised => cases h
  | malformed => cases h
  | rows xs => exact ⟨xs, rfl⟩

theorem entry_of_no_failure {row : PositionRow} (h : row.failure = none) :
    row.symbol ≠ "" ∧ ∃ n, row.qty = .finite n ∧ row.entry = some (row.symbol, n) := by
  unfold PositionRow.failure at h
  unfold PositionRow.entry
  by_cases hsymbol : row.symbol = ""
  · rw [if_pos hsymbol] at h
    cases h
  · rw [if_neg hsymbol] at h ⊢
    refine ⟨hsymbol, ?_⟩
    cases hqty : row.qty with
    | finite n => exact ⟨n, rfl, rfl⟩
    | _ => simp [hqty, RawNumber.coerce] at h

theorem mem_outstandingIds {o : Order} (ho : o ∈ t.orders.rows) (hlive : o.status.terminal = false)
    (hconfirmed : o.status ≠ .unconfirmedTimeout) : o.id ∈ t.outstandingIds := by
  apply List.mem_map_of_mem
  apply List.mem_filter.2
  simp [ho, LifecycleState.outstanding, hlive, hconfirmed]

/-- A row that no list of the comparison names has passed the verification. -/
theorem verdict_ok {row : OrderRow} (hmalformed : ∀ e, verifyBrokerOrderRow t row ≠ .malformed e)
    (huntracked : verifyBrokerOrderRow t row ≠ .untracked)
    (hcontradictory : ∀ c, verifyBrokerOrderRow t row ≠ .contradiction c) : verifyBrokerOrderRow t row = .ok := by
  cases h : verifyBrokerOrderRow t row with
  | ok => rfl
  | untracked => exact absurd h huntracked
  | contradiction c => exact absurd h (hcontradictory c)
  | malformed e => exact absurd h (hmalformed e)

/-- The broker names a symbol exactly when one of its rows does, as long as every row can be read. -/
theorem mem_brokerSymbols {rows : List PositionRow}
    (hentry : ∀ row ∈ rows, ∃ n, row.entry = some (row.symbol, n)) (symbol : Symbol) :
    symbol ∈ (brokerEntries rows).map (·.1) ↔ ∃ row ∈ rows, row.symbol = symbol := by
  simp only [brokerEntries, List.mem_map, List.mem_filterMap]
  constructor
  · rintro ⟨e, ⟨row, hrow, he⟩, rfl⟩
    obtain ⟨n, hn⟩ := hentry row hrow
    rw [hn] at he
    obtain rfl := Option.some.inj he
    exact ⟨row, hrow, rfl⟩
  · rintro ⟨row, hrow, rfl⟩
    obtain ⟨n, hn⟩ := hentry row hrow
    exact ⟨_, ⟨row, hrow, hn⟩, rfl⟩

/-- A symbol that neither side names has the quantity zero on both. -/
theorem quantities_of_unnamed {rows : List PositionRow} {symbol : Symbol} (hinternal : symbol ∉ t.openSymbols)
    (hbroker : symbol ∉ (brokerEntries rows).map (·.1)) :
    |t.openQuantity symbol - brokerQuantity rows symbol| ≤ reconcileQuantityTolerance := by
  have hopen : t.openQuantity symbol = 0 := by
    apply sumWhere_of_forall_not
    intro p hp
    by_contra hc
    simp only [Bool.not_eq_false, Bool.and_eq_true, decide_eq_true_eq] at hc
    exact hinternal (List.mem_map.2 ⟨p, List.mem_filter.2 ⟨hp, by simp [hc.1]⟩, hc.2⟩)
  have hrows : brokerQuantity rows symbol = 0 := by
    apply sumWhere_of_forall_not
    intro e he
    apply decide_eq_false
    intro hc
    exact hbroker (List.mem_map.2 ⟨e, he, hc⟩)
  rw [hopen, hrows, sub_zero, abs_zero]
  norm_num [reconcileQuantityTolerance]

theorem unexpectedShort_of_nil {rows : List PositionRow}
    (h : ((rows.filter (·.unexpectedShort)).map (·.symbol)).insertionSort (· ≤ ·) = []) :
    ∀ row ∈ rows, row.unexpectedShort = false := by
  have hperm := List.perm_insertionSort (· ≤ ·) ((rows.filter (·.unexpectedShort)).map (·.symbol))
  rw [h, List.nil_perm, List.map_eq_nil_iff, List.filter_eq_nil_iff] at hperm
  exact fun row hrow => Bool.eq_false_of_not_eq_true (hperm row hrow)

/-- A matched comparison is truthful, given what an empty list of unconfirmed orders and one of uncertain intents say about
the reads of the earlier stages. -/
theorem truthful_of_matched (h : (compareWithBroker t (unresolvedIds (beforeRefresh s now reads) reads.refresh)
      reads.openOrders reads.positions).matched = true)
    (hunconfirmed : t.unconfirmedIds = [] → ∀ id ∈ s.unconfirmedIds,
      ((reads.unconfirmed id).bind extractOrderUpdateFields).isSome ∨ ∃ i row, Adopts reads.lookup i row ∧ row.id = id)
    (hlooked : t.uncertainIds = [] →
      ∀ i ∈ (promoteOrphanOrderIntents (resolveUnconfirmedOrders s reads.unconfirmed)).uncertainIds,
        ∃ row, Adopts reads.lookup i row) : Truthful s now reads t := by
  simp only [compareWithBroker, Reconciliation.matched, Reconciliation.complete, Reconciliation.consistent,
    Bool.and_eq_true, List.isEmpty_iff] at h
  obtain ⟨⟨⟨⟨hreads, huncertain⟩, htimeout⟩, horphans⟩,
    ⟨⟨⟨⟨⟨⟨hsymbols, hquantities⟩, hsides⟩, huntracked⟩, hcontradictory⟩, hmissing⟩, hshorts⟩⟩ := h
  simp only [List.append_eq_nil_iff, List.map_eq_nil_iff, List.filterMap_eq_nil_iff] at hreads
  obtain ⟨⟨⟨⟨hunresolved, hopen⟩, hpositions⟩, hentries⟩, hmalformed⟩ := hreads
  obtain ⟨orders, horders⟩ := list_of_no_failures hopen
  have hentry := fun row hrow => entry_of_no_failure (hentries row hrow)
  have hnamed := mem_brokerSymbols fun row hrow => (hentry row hrow).2.imp fun _ hn => hn.2
  rw [List.map_eq_nil_iff, List.filter_eq_nil_iff] at hsides huntracked hcontradictory horphans
  rw [List.filter_eq_nil_iff] at hquantities
  rw [List.all_eq_true, List.all_eq_true] at hsymbols
  have hlong := unexpectedShort_of_nil hshorts
  have hconfirmed : ∀ o ∈ t.orders.rows, o.status ≠ .unconfirmedTimeout := fun o ho hc => by
    have hmem : o.id ∈ t.unconfirmedIds := List.mem_map_of_mem (List.mem_filter.2 ⟨ho, by simp [hc]⟩)
    rw [htimeout] at hmem
    exact List.not_mem_nil hmem
  constructor
  case unconfirmedRead => exact hunconfirmed htimeout
  case lookedUp => exact hlooked huncertain
  case refreshed =>
    intro id hid
    have hread := List.filter_eq_nil_iff.1 hunresolved id hid
    rw [Bool.not_eq_true, ← Option.not_isSome, Bool.not_eq_false'] at hread
    exact hread
  case ordersRead => exact ⟨orders, horders⟩
  case positionsRead => exact list_of_no_failures hpositions
  case positionRows =>
    intro row hrow
    obtain ⟨hsymbol, n, hqty, he⟩ := hentry row hrow
    have hshort := hlong row hrow
    have hside := hsides row hrow
    simp only [PositionRow.unexpectedShort, hqty, RawNumber.isNegative, Bool.or_eq_false_iff, decide_eq_false_iff_not,
      not_lt] at hshort
    refine ⟨hsymbol, ⟨n, hqty, hshort.2⟩, ?_⟩
    rw [he] at hside
    simpa [PositionRow.sideMismatch, imp_iff_not_or, or_comm] using hside
  case symbols =>
    intro symbol
    rw [← hnamed symbol]
    constructor
    · intro hs
      simpa using hsymbols.1 symbol hs
    · intro hs
      simpa using hsymbols.2 symbol hs
  case quantities =>
    intro symbol
    by_cases hin : symbol ∈ t.openSymbols ++ (brokerEntries reads.positions.list).map (·.1)
    · simpa using hquantities symbol hin
    · rw [List.mem_append, not_or] at hin
      exact quantities_of_unnamed hin.1 hin.2
  case orderRows =>
    intro row hrow
    have hmem : (row.id, verifyBrokerOrderRow t row) ∈
      reads.openOrders.list.map fun row => (row.id, verifyBrokerOrderRow t row) := List.mem_map_of_mem hrow
    have hm := hmalformed _ hmem
    have hu := huntracked _ hmem
    have hc := hcontradictory _ hmem
    apply rowAgrees_of_ok
    apply verdict_ok
    · intro e he
      simp [he] at hm
    · intro he
      simp [he] at hu
    · intro c he
      simp [he] at hc
  case ordersListed =>
    intro o ho hlive
    rw [hunresolved, horders] at hmissing
    have hlisted := List.filter_eq_nil_iff.1 hmissing o.id (mem_outstandingIds ho hlive (hconfirmed o ho))
    rw [horders]
    simpa using hlisted
  case noneUnconfirmed => exact hconfirmed
  case noneUncertain =>
    intro q hq
    constructor
    · intro hc
      have hmem : q.id ∈ t.uncertainIds := List.mem_map_of_mem (List.mem_filter.2 ⟨hq, by simp [hc]⟩)
      rw [huncertain] at hmem
      exact List.not_mem_nil hmem
    · intro hc
      have hfiled : (∃ o ∈ t.orders.rows, o.intentId = q.id) ∧ q.promotedFromOrphan = false := by
        simpa [LifecycleState.orphaned, hc] using horphans q hq
      exact hfiled.1

end Compare

/-- An order that was left unconfirmed and whose read failed is unconfirmed at the end. -/
theorem unconfirmed_of_failed (now : Instant) {id : BrokerOrderId} (hid : id ∈ s.unconfirmedIds)
    (hfailed : ((reads.unconfirmed id).bind extractOrderUpdateFields).isSome = false)
    (hnew : ∀ i row, Adopts reads.lookup i row → row.id ≠ id) :
    id ∈ (refreshNonTerminalOrders (beforeRefresh s now reads) reads.refresh).unconfirmedIds := by
  obtain ⟨o, ho, rfl⟩ := List.mem_map.1 hid
  obtain ⟨hmem, hstatus⟩ := List.mem_filter.1 ho
  have hbefore : (beforeRefresh s now reads).orders.get o.id = some o := by
    have hlookups : (beforeRefresh s now reads).orders.get o.id =
        (resolveUnconfirmedOrders s reads.unconfirmed).orders.get o.id := get_orders_lookups fun i _ => hnew i
    have hrefresh : (resolveUnconfirmedOrders s reads.unconfirmed).orders.get o.id = s.orders.get o.id :=
      get_orders_refreshAll fun _ => hfailed
    rw [hlookups, hrefresh]
    exact Table.get_eq_some.2 ⟨hmem, rfl⟩
  have hafter : (refreshNonTerminalOrders (beforeRefresh s now reads) reads.refresh).orders.get o.id = some o := by
    rw [← hbefore]
    apply get_orders_refreshAll
    intro hout
    obtain ⟨o', ho', hid'⟩ := List.mem_map.1 hout
    obtain ⟨hmem', hout'⟩ := List.mem_filter.1 ho'
    obtain rfl : o' = o := Table.eq_of_key _ hmem' (Table.mem_of_get hbefore) hid'
    simp [LifecycleState.outstanding, of_decide_eq_true hstatus] at hout'
  exact List.mem_map_of_mem (List.mem_filter.2 ⟨Table.mem_of_get hafter, hstatus⟩)

/-- An uncertain intent that no lookup adopts is uncertain at the end. -/
theorem uncertain_of_not_adopted (now : Instant) {i : IntentId}
    (hi : i ∈ (promoteOrphanOrderIntents (resolveUnconfirmedOrders s reads.unconfirmed)).uncertainIds)
    (hno : ∀ row, ¬ Adopts reads.lookup i row) :
    i ∈ (refreshNonTerminalOrders (beforeRefresh s now reads) reads.refresh).uncertainIds := by
  obtain ⟨q, hq, rfl⟩ := List.mem_map.1 hi
  obtain ⟨hmem, hstatus⟩ := List.mem_filter.1 hq
  have hkept : ((beforeRefresh s now reads).intents.get q.id).map (·.status) = some q.status := by
    unfold beforeRefresh resolveUncertainSubmissions
    rw [status_lookups hno, Table.get_eq_some.2 ⟨hmem, rfl⟩]
    rfl
  obtain ⟨q', hget, hq'⟩ := Option.map_eq_some_iff.1 hkept
  have hsame : (refreshNonTerminalOrders (beforeRefresh s now reads) reads.refresh).intents =
    (beforeRefresh s now reads).intents := intents_refreshAll
  obtain ⟨hrow, hid⟩ := Table.get_eq_some.1 hget
  rw [LifecycleState.uncertainIds, hsame, ← hid]
  exact List.mem_map_of_mem (List.mem_filter.2 ⟨hrow, by rw [hq']; exact hstatus⟩)

theorem truthful_of_reconcile (h : (reconcile s now reads).2.matched = true) :
    Truthful s now reads (reconcile s now reads).1 := by
  apply Truthful.withFlags
  apply truthful_of_matched h
  · intro hnone id hid
    by_contra hc
    rw [not_or, Bool.not_eq_true, not_exists] at hc
    have hleft := unconfirmed_of_failed now hid hc.1 fun i row had hrow => hc.2 i ⟨row, had, hrow⟩
    rw [hnone] at hleft
    exact List.not_mem_nil hleft
  · intro hnone i hi
    by_contra hc
    rw [not_exists] at hc
    have hleft := uncertain_of_not_adopted now hi hc
    rw [hnone] at hleft
    exact List.not_mem_nil hleft

/-! ## The entry block -/

/-- What the lifecycle is told to do, with whatever the broker answers; an operation that a crash cuts off is one of its
parts. -/
inductive Operation
  | session (enabled killSwitch : Bool)
  /-- Without an answer the process dies before it is on file. -/
  | order (r : OrderRequest) (answer : Option SubmitAnswer)
  | update (id : BrokerOrderId) (r : BrokerReport)
  | poll (id : BrokerOrderId) (rows : List OrderRow) (atEnd : PollEnd)
  | reconcile (now : Instant) (reads : Reads)
  | reconcileFailed
  | promote
  | refresh (id : BrokerOrderId) (row : Option OrderRow)
  | lookup (i : IntentId) (now : Instant) (answer : LookupAnswer)
  | resolve (i : IntentId)
  | trigger (symbol : Symbol) (reason : ExitReason)
  /-- The end of day has found the broker flat. -/
  | closePositions

namespace LifecycleState

def closePositions (s : LifecycleState) : LifecycleState :=
  { s with positions := s.positions.update (·.status = .opened) (fun p => { p with status := .closed }) fun _ => rfl }

def perform (cfg : Config) (s : LifecycleState) : Operation → LifecycleState
  | .session enabled killSwitch => { s with sessionEnabled := enabled, killSwitch }
  | .order r answer =>
    match admitIntent cfg s r with
    | .error _ => s
    | .ok (i, t) => answer.elim t (recordSubmission t i)
  | .update id r => applyBrokerUpdate s id r
  | .poll id rows atEnd => pollOrderUntilTerminal s id rows atEnd
  | .reconcile now reads => (Piv.reconcile s now reads).1
  | .reconcileFailed => recordReconciliationFailure s
  | .promote => promoteOrphanOrderIntents s
  | .refresh id row => refreshOrder s id row
  | .lookup i now answer => lookupSubmission s i now answer
  | .resolve i => operatorResolveUncertainSubmission s i
  | .trigger symbol reason => markExitTriggered s symbol reason
  | .closePositions => s.closePositions

def performAll (cfg : Config) (s : LifecycleState) (ops : List Operation) : LifecycleState := ops.foldl (perform cfg) s

/-- No reconcile of the run is matched. -/
def Unmatched (cfg : Config) : LifecycleState → List Operation → Prop
  | _, [] => True
  | s, op :: ops =>
    (∀ now reads, op = .reconcile now reads → (Piv.reconcile s now reads).2.matched = false) ∧
      Unmatched cfg (s.perform cfg op) ops

end LifecycleState

section Flags

variable {id : BrokerOrderId} {i : IntentId} {upd : Update} {o : Order} {symbol : Symbol}

theorem flags_applyFill : (applyFill s o upd).reconciliationFlags = s.reconciliationFlags := by
  unfold applyFill applySellFill applyBuyFill LifecycleState.putPosition
  dsimp only
  split
  · rfl
  · split
    · split <;> rfl
    · split
      · rfl
      · split
        · rfl
        · split <;> rfl

theorem flags_applyBrokerUpdate {r : BrokerReport} :
    (applyBrokerUpdate s id r).reconciliationFlags = s.reconciliationFlags := by
  unfold applyBrokerUpdate
  split
  · rfl
  split
  · rfl
  unfold acceptUpdate
  split
  · rfl
  split
  · exact flags_applyFill
  · rfl

theorem flags_refreshOrder {row : Option OrderRow} :
    (refreshOrder s id row).reconciliationFlags = s.reconciliationFlags := by
  unfold refreshOrder
  split
  · rfl
  · exact flags_applyBrokerUpdate

theorem flags_pollRounds {seen : StatusText} {atEnd : PollEnd} {rows : List OrderRow} :
    (pollRounds s id seen atEnd rows).reconciliationFlags = s.reconciliationFlags := by
  have hread : ∀ {t : LifecycleState} {seen : StatusText} {r : BrokerReport},
      (pollRead t id seen r).reconciliationFlags = t.reconciliationFlags := by
    intro t seen r
    unfold pollRead
    split
    · exact flags_applyBrokerUpdate
    · rfl
  induction rows generalizing s seen with
  | nil =>
    unfold pollRounds
    split <;> rfl
  | cons row rows ih =>
    unfold pollRounds
    split
    · rfl
    split
    · exact hread
    · rw [ih, hread]

theorem flags_lookupSubmission {answer : LookupAnswer} :
    (lookupSubmission s i now answer).reconciliationFlags = s.reconciliationFlags := by
  unfold lookupSubmission
  split
  · rfl
  · rfl
  · split <;> rfl

theorem flags_recordSubmission {answer : SubmitAnswer} :
    (recordSubmission s i answer).reconciliationFlags = s.reconciliationFlags := by
  unfold recordSubmission
  split
  · rfl
  · split <;> rfl

theorem flags_admitIntent {r : OrderRequest} (h : admitIntent cfg s r = .ok (i, t)) :
    t.reconciliationFlags = s.reconciliationFlags := by
  obtain ⟨-, -, budgets, -, rfl⟩ := admitIntent_ok h
  rfl

end Flags

theorem blocked_reconcile (h : (reconcile s now reads).2.matched = false) :
    (reconcile s now reads).1.reconciliationFlags.entryAdmissionBlocked = true := by
  have hflags : (reconcile s now reads).1.reconciliationFlags = (reconcile s now reads).2.flags := rfl
  rw [hflags, Reconciliation.flags, h]
  rfl

/-- An operation that is not a matched reconcile leaves the block in place. -/
theorem blocked_perform (op : Operation) (h : s.reconciliationFlags.entryAdmissionBlocked = true)
    (hunmatched : ∀ now reads, op = .reconcile now reads → (reconcile s now reads).2.matched = false) :
    (s.perform cfg op).reconciliationFlags.entryAdmissionBlocked = true := by
  cases op with
  | session enabled killSwitch => exact h
  | order r answer =>
    simp only [LifecycleState.perform]
    split
    · exact h
    · rename_i i t hadm
      rw [← flags_admitIntent hadm] at h
      cases answer with
      | none => exact h
      | some answer => rw [Option.elim_some, flags_recordSubmission]; exact h
  | update id r => rw [LifecycleState.perform, flags_applyBrokerUpdate]; exact h
  | poll id rows atEnd => rw [LifecycleState.perform, pollOrderUntilTerminal, flags_pollRounds]; exact h
  | reconcile now reads => exact blocked_reconcile (hunmatched now reads rfl)
  | reconcileFailed => rfl
  | promote => exact h
  | refresh id row => rw [LifecycleState.perform, flags_refreshOrder]; exact h
  | lookup i now answer => rw [LifecycleState.perform, flags_lookupSubmission]; exact h
  | resolve i =>
    simp only [LifecycleState.perform, operatorResolveUncertainSubmission]
    split
    · split <;> exact h
    · exact h
  | trigger symbol reason =>
    simp only [LifecycleState.perform, markExitTriggered]
    split
    · exact h
    · split <;> exact h
  | closePositions => exact h

theorem blocked_performAll {ops : List Operation} (h : s.reconciliationFlags.entryAdmissionBlocked = true)
    (hunmatched : s.Unmatched cfg ops) : (s.performAll cfg ops).reconciliationFlags.entryAdmissionBlocked = true := by
  induction ops generalizing s with
  | nil => exact h
  | cons op ops ih =>
    rw [LifecycleState.performAll, List.foldl_cons]
    exact ih (blocked_perform op h hunmatched.1) hunmatched.2

/-- A BUY is refused while the block is in place: nothing is put on file, nothing is sent. -/
theorem buy_rejected {r : OrderRequest} (h : s.reconciliationFlags.entryAdmissionBlocked = true)
    (hside : r.side = some .buy) : ∃ e, admitIntent cfg s r = .error e := by
  cases hadm : admitIntent cfg s r with
  | error e => exact ⟨e, rfl⟩
  | ok a =>
    obtain ⟨hwell, -, budgets, hguards, -⟩ := admitIntent_ok hadm
    obtain ⟨-, hsides, -⟩ := wellFormed_ok hwell
    rw [hside] at hsides
    rw [guards, ← Option.some.inj hsides] at hguards
    rw [(buyGuards_ok hguards).2.2] at h
    cases h

/-- The admission of a SELL does not look at the flags. -/
theorem sell_unaffected (r : OrderRequest) (hside : r.side = some .sell) (flags : ReconciliationFlags) :
    admitIntent cfg { s with reconciliationFlags := flags } r =
      (admitIntent cfg s r).map fun a => (a.1, { a.2 with reconciliationFlags := flags }) := by
  unfold admitIntent
  cases hwell : wellFormed r with
  | error e => rfl
  | ok i =>
    have hi : i.side = .sell := by
      obtain ⟨-, hsides, -⟩ := wellFormed_ok hwell
      rw [hside] at hsides
      exact (Option.some.inj hsides).symm
    have hsame : guards cfg { s with reconciliationFlags := flags } r i = guards cfg s r i := by
      simp only [guards, hi]
      rfl
    dsimp only
    rw [hsame]
    split
    · rfl
    split
    · rfl
    cases guards cfg s r i <;> rfl

/-- What is left by a reconcile that is not matched, or by the record of one that raised. -/
def AfterFailure (s t : LifecycleState) : Prop :=
  (∃ now reads, (reconcile s now reads).2.matched = false ∧ t = (reconcile s now reads).1) ∨
    t = recordReconciliationFailure s

theorem AfterFailure.blocked (h : AfterFailure s t) : t.reconciliationFlags.entryAdmissionBlocked = true := by
  obtain ⟨now, reads, hunmatched, rfl⟩ | rfl := h
  · exact blocked_reconcile hunmatched
  · rfl

theorem matched_reconcile_truthful (cfg : Config) (s : LifecycleState) :
    (∀ now reads, (reconcile s now reads).2.matched = true ∨
        (reconcile s now reads).1.reconciliationFlags.entryAdmissionBlocked = false →
      Truthful s now reads (reconcile s now reads).1) ∧
    (∀ t, AfterFailure s t → ∀ ops, t.Unmatched cfg ops → ∀ r : OrderRequest, r.side = some .buy →
      ∃ e, admitIntent cfg (t.performAll cfg ops) r = .error e) ∧
    ∀ (r : OrderRequest) (flags : ReconciliationFlags), r.side = some .sell →
      admitIntent cfg { s with reconciliationFlags := flags } r =
        (admitIntent cfg s r).map fun a => (a.1, { a.2 with reconciliationFlags := flags }) := by
  refine ⟨fun now reads h => ?_, fun t ht ops hops r hside => ?_, fun r flags hside => sell_unaffected r hside flags⟩
  · apply truthful_of_reconcile
    by_contra hunmatched
    rw [Bool.not_eq_true] at hunmatched
    rcases h with h | h
    · rw [hunmatched] at h
      cases h
    · rw [blocked_reconcile hunmatched] at h
      cases h
  · exact buy_rejected (blocked_performAll ht.blocked hops) hside

/-! ## Passes on fixed inputs -/

/-- An order of three shares is open. -/
def threeOrdered : LifecycleState :=
  ({} : LifecycleState).performAll openConfig [.session true false, .order buyThree (some (.answered "o1"))]

def entryId : IntentId := ⟨"entry", "AAPL", .buy, 3, by norm_num⟩

/-- The order of the entry as the broker returns it. -/
def entryRow (id : BrokerOrderId) (filled : ℚ) : OrderRow :=
  { id, clientOrderId := .ofIntent entryId, symbol := "AAPL", side := some .buy, qty := .finite 3
    status := .known .partiallyFilled, filledQty := some (.finite filled), filledAvgPrice := none, filledAt := none }

/-- `get_order` tells one share, and so do the positions. -/
def oneShareRead (rows : List OrderRow) : Reads :=
  { unconfirmed := fun _ => none
    lookup := fun _ => .notFound
    refresh := fun _ => some (entryRow "o1" 1)
    openOrders := .rows rows
    positions := .rows [⟨"AAPL", .finite 1, .long⟩] }

theorem matched_reconcile_truthful_sample :
    (reconcile threeOrdered 0 (oneShareRead [entryRow "o1" 1])).2.matched = true ∧
      Truthful threeOrdered 0 (oneShareRead [entryRow "o1" 1])
        (reconcile threeOrdered 0 (oneShareRead [entryRow "o1" 1])).1 ∧
      (∃ e, admitIntent openConfig (recordReconciliationFailure threeOrdered) buyThree = .error e) ∧
      (admitIntent openConfig (recordReconciliationFailure threeOrdered) { buyThree with side := some .sell }).isOk =
        (admitIntent openConfig threeOrdered { buyThree with side := some .sell }).isOk := by
  have hmatched : (reconcile threeOrdered 0 (oneShareRead [entryRow "o1" 1])).2.matched = true := by decide +kernel
  obtain ⟨htruthful, hbuy, hsell⟩ := matched_reconcile_truthful openConfig threeOrdered
  refine ⟨hmatched, htruthful 0 _ (.inl hmatched), hbuy _ (.inr rfl) [] trivial buyThree rfl, ?_⟩
  have hsame := hsell { buyThree with side := some .sell } (recordReconciliationFailure threeOrdered).reconciliationFlags rfl
  show (admitIntent openConfig { threeOrdered with
    reconciliationFlags := (recordReconciliationFailure threeOrdered).reconciliationFlags } _).isOk = _
  rw [hsame]
  cases admitIntent openConfig threeOrdered { buyThree with side := some .sell } <;> rfl

/-- The list tells two shares where `get_order` told one, and it has the order under a second id as well: the pass is
matched. -/
theorem matched_with_other_fills :
    (¬ ∀ (s : LifecycleState) (now : Instant) (reads : Reads), (reconcile s now reads).2.matched = true →
      ∀ row ∈ reads.openOrders.list, ∀ o ∈ (reconcile s now reads).1.orders.rows, row.id = o.id →
        row.filledQty = some (.finite o.filledQty)) ∧
    ¬ ∀ (s : LifecycleState) (now : Instant) (reads : Reads), (reconcile s now reads).2.matched = true →
      reads.openOrders.list.length = (reconcile s now reads).1.outstandingIds.length := by
  have hmatched : (reconcile threeOrdered 0 (oneShareRead [entryRow "o1" 2, entryRow "o9" 2])).2.matched = true := by
    decide +kernel
  constructor
  · intro h
    have hone : ((reconcile threeOrdered 0 (oneShareRead [entryRow "o1" 2, entryRow "o9" 2])).1.orders.get "o1").map
        (·.filledQty) = some 1 := by decide +kernel
    obtain ⟨o, ho, hfilled⟩ := Option.map_eq_some_iff.1 hone
    obtain ⟨hmem, hid⟩ := Table.get_eq_some.1 ho
    have hrow := h _ _ _ hmatched (entryRow "o1" 2) List.mem_cons_self o hmem hid.symm
    rw [hfilled] at hrow
    exact absurd hrow (by decide)
  · intro h
    have hone : (reconcile threeOrdered 0 (oneShareRead [entryRow "o1" 2, entryRow "o9" 2])).1.outstandingIds = ["o1"] := by
      decide +kernel
    have htwo := h _ _ _ hmatched
    rw [hone] at htwo
    cases htwo

end TalonX.Piv
