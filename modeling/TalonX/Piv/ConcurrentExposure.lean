import TalonX.Piv.BudgetKept

/-!
# What is live or held is counted

- `Traced`: every order at the broker can be told from what is on file: it is on file, or its submission is unsettled;
  every order on file that was closed with shares has its position;
- `Session.Followed`: a running process has followed up every submission that the broker received;
- `Session.Reach.traced`: every orderly run keeps both.
-/

set_option autoImplicit false

namespace TalonX.Piv

open Transact V2 World EntryContext

variable {cfg : Config} {s t : LifecycleState} {w w' : World} {S S' : Session} {X : String} {i : IntentId} {r : OrderRequest}
  {o : Order} {b : BrokerOrder}

/-! ## Positions and the entries that they belong to -/

/-- The position repeats the symbol and the experiment of its entry. -/
def Position.Attributed (s : LifecycleState) (p : Position) : Prop :=
  p.symbol = p.id.entry.symbol ∧ ∃ q, s.intents.get p.id.entry = some q ∧ q.experimentalId = p.experimentalId

/-- The positions of a state with the intents of `s`: none was lost, and they are those of their entries. -/
structure Succeeds (s t : LifecycleState) : Prop where
  attributed : ∀ p ∈ t.positions.rows, p.Attributed s
  kept : ∀ k, (s.positions.get k).isSome → (t.positions.get k).isSome

theorem Succeeds.of_eq (h : ∀ p ∈ s.positions.rows, p.Attributed s) (hp : t.positions = s.positions) : Succeeds s t :=
  ⟨by rw [hp]; exact h, fun k hk => by rw [hp]; exact hk⟩

/-- Positions change, but not what they belong to. -/
theorem Succeeds.update (h : ∀ p ∈ s.positions.rows, p.Attributed s) {p : Position → Bool} {f : Position → Position}
    (ht : t.positions.rows = updateRows p f s.positions.rows) (hf : ∀ x, (f x).id = x.id)
    (hs : ∀ x ∈ s.positions.rows, p x = true → (f x).symbol = x.symbol ∧ (f x).experimentalId = x.experimentalId) :
    Succeeds s t := by
  constructor
  · intro x' hx'
    rw [ht] at hx'
    obtain ⟨x, hx, rfl⟩ := mem_updateRows.1 hx'
    split
    · rename_i hp
      obtain ⟨hsym, hexp⟩ := hs x hx hp
      obtain ⟨hx₁, q, hq, hx₂⟩ := h x hx
      exact ⟨by rw [hsym, hf, hx₁], q, by rw [hf]; exact hq, by rw [hexp, hx₂]⟩
    · exact h x hx
  · intro k hk
    rw [Table.get_updateRows ht hf, Option.isSome_map]
    exact hk

theorem Succeeds.put (h : ∀ p ∈ s.positions.rows, p.Attributed s) {symbol : Symbol} {p' : Position}
    (hp' : p'.Attributed s) : Succeeds s (s.putPosition symbol p') := by
  constructor
  · intro p hp
    rcases mem_putPosition.1 hp with ⟨hp, -⟩ | rfl
    · exact h p hp
    · exact hp'
  · intro k hk
    show ((s.positions.upsert p' _ _).get k).isSome
    by_cases he : k = p'.id
    · rw [he, Table.get_upsert_self]
      rfl
    · rw [Table.get_upsert_of_ne he]
      exact hk

theorem succeeds_sellFill (h : ∀ p ∈ s.positions.rows, p.Attributed s) (symbol : Symbol) (q d : ℚ) (fp : Option ℚ) :
    Succeeds s (applySellFill s symbol q d fp) := by
  unfold applySellFill
  split
  · exact .of_eq h rfl
  rename_i position hposition
  have hmem : position ∈ s.positions.rows := by
    obtain ⟨k, -, hget⟩ := Option.bind_eq_some_iff.1 hposition
    exact Table.mem_of_get hget
  refine Succeeds.update h rfl (fun _ => rfl) fun x hx hid => ?_
  obtain rfl := s.positions.eq_of_key hx hmem (of_decide_eq_true hid)
  exact ⟨rfl, rfl⟩

/-- A BUY fill leaves the entry with a position. -/
theorem succeeds_buyFill (upd : Update) (h : ∀ p ∈ s.positions.rows, p.Attributed s) {q : Intent} {symbol : Symbol}
    (hq : s.intents.get i = some q) (hsym : symbol = i.symbol) (filledQty d : ℚ) :
    Succeeds s (applyBuyFill s q symbol upd filledQty d) ∧
      ((applyBuyFill s q symbol upd filledQty d).positions.get ⟨i⟩).isSome := by
  obtain rfl := Table.key_of_get hq
  unfold applyBuyFill
  split
  · refine ⟨.put h ⟨hsym, q, hq, rfl⟩, ?_⟩
    show ((s.positions.upsert (q.openPosition symbol upd filledQty) _ _).get _).isSome
    rw [show (⟨q.id⟩ : PositionId) = (q.openPosition symbol upd filledQty).id from rfl, Table.get_upsert_self]
    rfl
  rename_i p hp
  have hsome : (s.positions.get ⟨q.id⟩).isSome := by rw [hp]; rfl
  split
  · exact ⟨.of_eq h rfl, hsome⟩
  split
  · exact ⟨.of_eq h rfl, hsome⟩
  have hput : Succeeds s (s.putPosition symbol (p.merge upd filledQty d)) := by
    refine .put h ?_
    exact h p (Table.mem_of_get hp)
  exact ⟨hput, hput.kept _ hsome⟩

theorem succeeds_applyFill (upd : Update) (h : ∀ p ∈ s.positions.rows, p.Attributed s) {q : Intent}
    (hq : s.intents.get o.intentId = some q) (hsym : o.symbol = o.intentId.symbol) :
    Succeeds s (applyFill s o upd) ∧
      (o.intentId.side = .buy → ((applyFill s o upd).positions.get ⟨o.intentId⟩).isSome) := by
  unfold applyFill
  dsimp only
  rw [hq]
  dsimp only
  have hid : q.id = o.intentId := Table.key_of_get hq
  rw [hid]
  cases o.intentId.side with
  | sell => exact ⟨succeeds_sellFill h .., nofun⟩
  | buy =>
    obtain ⟨hs, hsome⟩ := succeeds_buyFill upd h hq hsym (max o.filledQty upd.filledQty)
      (max 0 (max o.filledQty upd.filledQty - o.filledQty))
    exact ⟨hs, fun _ => hsome⟩

/-! ## What is at the broker can be told from what is on file -/

structure Traced (w : World) : Prop where
  filed : ∀ o ∈ w.state.orders.rows, o.symbol = o.intentId.symbol ∧
    ∃ q, w.state.intents.get o.intentId = some q ∧ q.status = .submitted
  matched : ∀ o ∈ w.state.orders.rows, ∃ b ∈ w.broker.rows, o.Matches b
  intent : ∀ b ∈ w.broker.rows, ∃ q, w.state.intents.get b.intentId = some q ∧ q.status ≠ .rejected ∧
    q.status ≠ .confirmedNotSubmitted ∧ (q.status = .submitted → ∃ o ∈ w.state.orders.rows, o.id = b.id)
  positions : ∀ p ∈ w.state.positions.rows, p.Attributed w.state
  /-- An entry that was closed with shares has its position. -/
  booked : ∀ o ∈ w.state.orders.rows, o.intentId.side = .buy → o.status.terminal = true → 0 < o.filledQty →
    (w.state.positions.get ⟨o.intentId⟩).isSome

/-- What may become of the intent `q` while the orders stay as they are; `known` says that the broker has its order. -/
structure Intent.Follows (known : Prop) (q q' : Intent) : Prop where
  experimentalId : q'.experimentalId = q.experimentalId
  submitted : q.status = .submitted → q'.status = .submitted
  unsettled : known → q.status ≠ .rejected → q.status ≠ .confirmedNotSubmitted →
    q'.status ≠ .rejected ∧ q'.status ≠ .confirmedNotSubmitted ∧ (q'.status = .submitted → q.status = .submitted)

theorem Intent.Follows.refl (known : Prop) (q : Intent) : q.Follows known q :=
  ⟨rfl, fun h => h, fun _ hr hc => ⟨hr, hc, fun h => h⟩⟩

namespace Traced

variable {heard : BrokerOrderId → ℚ}

/-- Intents change. -/
theorem of_intents (h : Traced w) (ho : t.orders = w.state.orders) (hp : t.positions = w.state.positions)
    (hi : ∀ k q, w.state.intents.get k = some q →
      ∃ q', t.intents.get k = some q' ∧ q.Follows (∃ b ∈ w.broker.rows, b.intentId = k) q') :
    Traced ⟨t, w.broker, heard⟩ := by
  constructor
  case filed =>
    intro o hmem
    rw [ho] at hmem
    obtain ⟨hsym, q, hq, hst⟩ := h.filed o hmem
    obtain ⟨q', hq', hf⟩ := hi _ q hq
    exact ⟨hsym, q', hq', hf.submitted hst⟩
  case matched => exact fun o hmem => h.matched o (ho ▸ hmem)
  case intent =>
    intro b hb
    obtain ⟨q, hq, hr, hc, hs⟩ := h.intent b hb
    obtain ⟨q', hq', hf⟩ := hi _ q hq
    obtain ⟨hr', hc', hback⟩ := hf.unsettled ⟨b, hb, rfl⟩ hr hc
    refine ⟨q', hq', hr', hc', fun hst => ?_⟩
    show ∃ o ∈ t.orders.rows, o.id = b.id
    rw [ho]
    exact hs (hback hst)
  case positions =>
    intro p hmem
    rw [hp] at hmem
    obtain ⟨hsym, q, hq, hexp⟩ := h.positions p hmem
    obtain ⟨q', hq', hf⟩ := hi _ q hq
    exact ⟨hsym, q', hq', hf.experimentalId.trans hexp⟩
  case booked =>
    intro o hmem
    show _ → _ → _ → (t.positions.get ⟨o.intentId⟩).isSome
    rw [hp]
    exact h.booked o (ho ▸ hmem)

/-- Nothing changes that is traced. -/
theorem of_eq (h : Traced w) (ho : t.orders = w.state.orders) (hp : t.positions = w.state.positions)
    (hi : t.intents = w.state.intents) : Traced ⟨t, w.broker, heard⟩ :=
  h.of_intents ho hp fun k q hq => ⟨q, by rw [hi]; exact hq, .refl _ q⟩

/-- One intent changes. -/
theorem updateIntent (h : Traced w) {f : Intent → Intent} {hf : ∀ q, (f q).id = q.id}
    (hi : ∀ q, w.state.intents.get i = some q → q.Follows (∃ b ∈ w.broker.rows, b.intentId = i) (f q)) :
    Traced ⟨w.state.updateIntent i f hf, w.broker, heard⟩ := by
  refine h.of_intents rfl rfl fun k q hq => ?_
  rw [get_updateIntent, hq]
  refine ⟨_, rfl, ?_⟩
  dsimp only
  by_cases hk : q.id = i
  · rw [if_pos (decide_eq_true hk)]
    have hki : k = i := (Table.key_of_get hq).symm.trans hk
    rw [hki] at hq ⊢
    exact hi q hq
  · rw [if_neg (by simpa using hk)]
    exact .refl _ q

/-- Positions change. -/
theorem of_positions (h : Traced w) (ho : t.orders = w.state.orders) (hi : t.intents = w.state.intents)
    (hp : Succeeds w.state t) : Traced ⟨t, w.broker, heard⟩ := by
  constructor
  case filed =>
    intro o hmem
    show _ ∧ ∃ q, t.intents.get _ = some q ∧ _
    rw [hi]
    exact h.filed o (ho ▸ hmem)
  case matched => exact fun o hmem => h.matched o (ho ▸ hmem)
  case intent =>
    intro b hb
    show ∃ q, t.intents.get _ = some q ∧ _ ∧ _ ∧ (_ → ∃ o ∈ t.orders.rows, _)
    rw [hi, ho]
    exact h.intent b hb
  case positions =>
    intro p hmem
    obtain ⟨hsym, q, hq, hexp⟩ := hp.attributed p hmem
    refine ⟨hsym, q, ?_, hexp⟩
    show t.intents.get _ = some q
    rw [hi]
    exact hq
  case booked => exact fun o hmem hs ht hq => hp.kept _ (h.booked o (ho ▸ hmem) hs ht hq)

/-- An order takes over a report of its broker. -/
theorem report (h : Traced w) {id : BrokerOrderId} {rep : BrokerReport} (htold : w.tells id rep = true)
    (hbooked : BookedBefore w.state id rep) : Traced ⟨applyBrokerUpdate w.state id rep, w.broker, heard⟩ := by
  cases hget : w.state.orders.get id with
  | none =>
    have hsame : applyBrokerUpdate w.state id rep = w.state := by
      unfold applyBrokerUpdate
      rw [hget]
    rw [hsame]
    exact h.of_eq rfl rfl rfl
  | some o =>
    obtain ⟨ho, rfl⟩ := Table.get_eq_some.1 hget
    obtain ⟨b, hb, hm⟩ := h.matched o ho
    have htold' : b.Told rep := by
      unfold World.tells at htold
      rw [Table.get_eq_some.2 ⟨hb, hm.id⟩] at htold
      simpa using htold
    obtain ⟨upd, hhist, hst, hqty, -, happ⟩ := applyBrokerUpdate_of_told hm ho htold'
    rw [happ]
    obtain ⟨hsym, q, hq, hsub⟩ := h.filed o ho
    cases hterm : o.status.terminal with
    | true =>
      have hsame : acceptUpdate w.state o upd = w.state := by
        unfold acceptUpdate
        rw [if_pos hterm]
      rw [hsame]
      exact h.of_eq rfl rfl rfl
    | false =>
      have hintents : (acceptUpdate w.state o upd).intents = w.state.intents := intents_acceptUpdate
      have horders : (acceptUpdate w.state o upd).orders = (w.state.updateOrder o.id upd).orders := by
        rw [orders_acceptUpdate, hterm]
        rfl
      have hmem : ∀ x, x ∈ (acceptUpdate w.state o upd).orders.rows ↔
          (x ∈ w.state.orders.rows ∧ x.id ≠ o.id) ∨ x = o.report upd := fun x => by
        rw [horders]
        exact mem_updateOrder ho
      -- either the fill is booked, or the positions stay
      have hpos : Succeeds w.state (acceptUpdate w.state o upd) ∧
          (o.intentId.side = .buy → upd.status.isFill = true → 0 < max o.filledQty upd.filledQty →
            ((acceptUpdate w.state o upd).positions.get ⟨o.intentId⟩).isSome) := by
        unfold acceptUpdate
        rw [hterm]
        simp only [Bool.false_eq_true, if_false]
        split
        · obtain ⟨hs, hsome⟩ := succeeds_applyFill (s := w.state.updateOrder o.id upd) upd h.positions hq hsym
          exact ⟨⟨hs.attributed, hs.kept⟩, fun hbuy _ _ => hsome hbuy⟩
        · rename_i hno
          exact ⟨.of_eq h.positions rfl, fun _ hfill hpos => absurd ⟨hfill, hpos⟩ hno⟩
      constructor
      case filed =>
        intro x hx
        show _ ∧ ∃ q, (acceptUpdate w.state o upd).intents.get _ = some q ∧ _
        rw [hintents]
        rcases (hmem x).1 hx with ⟨hx, -⟩ | rfl
        · exact h.filed x hx
        · exact ⟨hsym, q, hq, hsub⟩
      case matched =>
        intro x hx
        rcases (hmem x).1 hx with ⟨hx, -⟩ | rfl
        · exact h.matched x hx
        · exact ⟨b, hb, hm.report hhist⟩
      case intent =>
        intro b' hb'
        obtain ⟨q', hq', hr, hc, hs⟩ := h.intent b' hb'
        refine ⟨q', by rw [hintents]; exact hq', hr, hc, fun hst' => ?_⟩
        obtain ⟨x, hx, hid⟩ := hs hst'
        by_cases hxo : x.id = o.id
        · exact ⟨o.report upd, (hmem _).2 (.inr rfl), hxo.symm.trans hid⟩
        · exact ⟨x, (hmem x).2 (.inl ⟨hx, hxo⟩), hid⟩
      case positions =>
        intro p hp
        obtain ⟨hps, q', hq', hexp⟩ := hpos.1.attributed p hp
        exact ⟨hps, q', by rw [hintents]; exact hq', hexp⟩
      case booked =>
        intro x hx hbuy ht hfilled
        rcases (hmem x).1 hx with ⟨hx, -⟩ | rfl
        · exact hpos.1.kept _ (h.booked x hx hbuy ht hfilled)
        · cases hfill : upd.status.isFill with
          | true => exact hpos.2 hbuy hfill hfilled
          | false =>
            -- the report closes the order: all that it fills was told
            have hall : 0 < upd.filledQty := by
              have hfin := ((hm.report hhist).final ht).2
              obtain ⟨-, -, hnow⟩ := BrokerOrder.of_mem_history hhist
              have hnow' : upd.filledQty = b.now.filled := by rw [← hnow ht]
              rw [hnow', ← hfin]
              exact hfilled
            exact hpos.1.kept _ (hbooked o ho rfl hbuy upd.status upd.filledQty hst ht hfill hqty hall)

theorem markUnconfirmed (h : Traced w) (id : BrokerOrderId) : Traced ⟨w.state.markUnconfirmed id, w.broker, heard⟩ := by
  have hrow : ∀ o' ∈ (w.state.markUnconfirmed id).orders.rows, ∃ o ∈ w.state.orders.rows,
      o'.id = o.id ∧ o'.intentId = o.intentId ∧ o'.symbol = o.symbol ∧ o'.filledQty = o.filledQty ∧
        (o'.status = o.status ∨ o'.status = .unconfirmedTimeout) := by
    intro o' ho'
    obtain ⟨o, ho, rfl⟩ := mem_updateRows.1 ho'
    refine ⟨o, ho, ?_⟩
    split
    · exact ⟨rfl, rfl, rfl, rfl, .inr rfl⟩
    · exact ⟨rfl, rfl, rfl, rfl, .inl rfl⟩
  constructor
  case filed =>
    intro o' ho'
    obtain ⟨o, ho, -, hi, hs, -⟩ := hrow o' ho'
    rw [hi, hs]
    exact h.filed o ho
  case matched =>
    intro o' ho'
    obtain ⟨o, ho, hid, hi, -, hq, hst⟩ := hrow o' ho'
    obtain ⟨b, hb, hm⟩ := h.matched o ho
    refine ⟨b, hb, hm.id.trans hid.symm, hm.intent.trans hi.symm, hq ▸ hm.le, fun ht => ?_⟩
    rcases hst with hst | hst
    · rw [hst] at ht
      rw [hq]
      exact hm.final ht
    · rw [hst] at ht
      cases ht
  case intent =>
    intro b hb
    obtain ⟨q, hq, hr, hc, hs⟩ := h.intent b hb
    refine ⟨q, hq, hr, hc, fun hst => ?_⟩
    obtain ⟨o, ho, hid⟩ := hs hst
    exact ⟨_, mem_updateRows.2 ⟨o, ho, rfl⟩, by split <;> exact hid⟩
  case positions => exact h.positions
  case booked =>
    intro o' ho' hbuy ht hfilled
    obtain ⟨o, ho, -, hi, -, hq, hst⟩ := hrow o' ho'
    rw [hi] at hbuy ⊢
    rw [hq] at hfilled
    rcases hst with hst | hst
    · rw [hst] at ht
      exact h.booked o ho hbuy ht hfilled
    · rw [hst] at ht
      cases ht

/-- An order that the broker has is put on file. -/
theorem recordOrder (h : Traced w) (hf : OnFile w) (hb : b ∈ w.broker.rows) :
    Traced ⟨w.state.recordOrder b.intentId b.id, w.broker, heard⟩ := by
  have hget : ∀ k, (w.state.recordOrder b.intentId b.id).intents.get k =
      (w.state.intents.get k).map fun q => if decide (q.id = b.intentId) then { q with status := .submitted } else q :=
    fun k => get_setIntentStatus
  constructor
  case filed =>
    intro o ho
    rcases mem_recordOrder_iff.1 ho with ⟨ho, -⟩ | rfl
    · obtain ⟨hsym, q, hq, hst⟩ := h.filed o ho
      refine ⟨hsym, _, by rw [hget, hq]; rfl, ?_⟩
      dsimp only
      split
      · rfl
      · exact hst
    · obtain ⟨q, hq, -⟩ := h.intent b hb
      refine ⟨rfl, _, by rw [hget, hq]; rfl, ?_⟩
      dsimp only
      rw [if_pos (decide_eq_true (Table.key_of_get hq))]
  case matched =>
    intro o ho
    rcases mem_recordOrder_iff.1 ho with ⟨ho, -⟩ | rfl
    · exact h.matched o ho
    · exact ⟨b, hb, rfl, rfl, b.bounded.1, nofun⟩
  case intent =>
    intro b' hb'
    obtain ⟨q, hq, hr, hc, hs⟩ := h.intent b' hb'
    refine ⟨_, by rw [hget, hq]; rfl, ?_⟩
    have hid : q.id = b'.intentId := Table.key_of_get hq
    dsimp only
    by_cases hsame : b'.intentId = b.intentId
    · obtain rfl := hf.once b' hb' b hb hsame
      rw [if_pos (decide_eq_true hid)]
      exact ⟨nofun, nofun, fun _ => ⟨_, mem_recordOrder_iff.2 (.inr rfl), rfl⟩⟩
    · rw [if_neg (by rw [hid]; simpa using hsame)]
      refine ⟨hr, hc, fun hst => ?_⟩
      obtain ⟨o, ho, hoid⟩ := hs hst
      refine ⟨o, mem_recordOrder_iff.2 (.inl ⟨ho, fun e => hsame ?_⟩), hoid⟩
      rw [w.broker.eq_of_key hb' hb (hoid.symm.trans e)]
  case positions =>
    intro p hp
    obtain ⟨hsym, q, hq, hexp⟩ := h.positions p hp
    refine ⟨hsym, _, by rw [hget, hq]; rfl, ?_⟩
    dsimp only
    split
    · exact hexp
    · exact hexp
  case booked =>
    intro o ho hbuy ht hfilled
    rcases mem_recordOrder_iff.1 ho with ⟨ho, -⟩ | rfl
    · exact h.booked o ho hbuy ht hfilled
    · cases ht

/-- An order moves on at the broker. -/
theorem move (h : Traced w) {id : BrokerOrderId} {next : Snapshot} :
    Traced ⟨w.state, w.broker.update (·.id = id) (·.move next) fun _ => BrokerOrder.id_move _ _, heard⟩ := by
  constructor
  case filed => exact h.filed
  case positions => exact h.positions
  case booked => exact h.booked
  case matched =>
    intro o ho
    obtain ⟨b, hb, hm⟩ := h.matched o ho
    refine ⟨_, mem_updateRows.2 ⟨b, hb, rfl⟩, ?_⟩
    split
    · by_cases hmove : b.CanMove next
      · have hmoved : b.move next = b.moveTo next hmove := dif_pos hmove
        rw [hmoved]
        refine ⟨hm.id, hm.intent, hm.le.trans hmove.2.1, fun ht => ?_⟩
        have hlive := (hm.final ht).1
        rw [hmove.1] at hlive
        cases hlive
      · have hstays : b.move next = b := dif_neg hmove
        rw [hstays]
        exact hm
    · exact hm
  case intent =>
    intro b' hb'
    obtain ⟨b, hb, rfl⟩ := mem_updateRows.1 hb'
    split
    · rw [BrokerOrder.intentId_move, BrokerOrder.id_move]
      exact h.intent b hb
    · exact h.intent b hb

/-- The broker receives the order of an intent that is on file. -/
theorem received (h : Traced w) {id : BrokerOrderId} {q : Intent} {broker : Table BrokerOrder.id}
    (hq : w.state.intents.get i = some q) (hst : q.status = .orderIntent)
    (hr : w.broker.insert? (BrokerOrder.place id i) = some broker) : Traced ⟨w.state, broker, heard⟩ := by
  obtain ⟨hrows, -⟩ := Table.insert?_eq_some hr
  have hmem : ∀ b, b ∈ broker.rows ↔ b ∈ w.broker.rows ∨ b = BrokerOrder.place id i := by
    intro b
    rw [hrows, List.mem_append, List.mem_singleton]
  constructor
  case filed => exact h.filed
  case positions => exact h.positions
  case booked => exact h.booked
  case matched =>
    intro o ho
    obtain ⟨b, hb, hm⟩ := h.matched o ho
    exact ⟨b, (hmem b).2 (.inl hb), hm⟩
  case intent =>
    intro b hb
    rcases (hmem b).1 hb with hb | rfl
    · exact h.intent b hb
    · refine ⟨q, hq, ?_, ?_, fun hs => ?_⟩
      · rw [hst]
        nofun
      · rw [hst]
        nofun
      · rw [hst] at hs
        cases hs

/-- The submission of an intent that the broker has may be written off as uncertain. -/
theorem setUncertain (h : Traced w) (hi : ∀ q, w.state.intents.get i = some q → q.status ≠ .submitted) :
    Traced ⟨w.state.setIntentStatus i .submitFailedUncertain, w.broker, heard⟩ := by
  refine h.updateIntent (i := i) fun q hq => ?_
  exact ⟨rfl, fun hs => absurd hs (hi q hq), fun _ _ _ => ⟨nofun, nofun, nofun⟩⟩

/-- An intent whose order the broker does not have may be written off. -/
theorem setUnknown (h : Traced w) {status : IntentStatus} (hnone : ∀ b ∈ w.broker.rows, b.intentId ≠ i)
    (hi : ∀ q, w.state.intents.get i = some q → q.status ≠ .submitted) :
    Traced ⟨w.state.setIntentStatus i status, w.broker, heard⟩ := by
  refine h.updateIntent (i := i) fun q hq => ?_
  exact ⟨rfl, fun hs => absurd hs (hi q hq), fun ⟨b, hb, he⟩ => absurd he (hnone b hb)⟩

theorem promote (h : Traced w) : Traced ⟨promoteOrphanOrderIntents w.state, w.broker, heard⟩ := by
  refine h.of_intents rfl rfl fun k q hq => ?_
  refine ⟨_, get_promoteOrphanOrderIntents.trans (by rw [hq]; rfl), ?_⟩
  unfold Intent.promoted
  split
  · rename_i horphan
    simp only [Bool.and_eq_true, decide_eq_true_eq] at horphan
    refine ⟨rfl, fun hs => ?_, fun _ _ _ => ⟨nofun, nofun, nofun⟩⟩
    rw [horphan.1] at hs
    cases hs
  · exact .refl _ q

/-- The bookkeeping of a lookup does not touch the status. -/
theorem lookedUp (h : Traced w) {f : Intent → Intent} {hf : ∀ q, (f q).id = q.id}
    (hst : ∀ q, (f q).status = q.status) (he : ∀ q, (f q).experimentalId = q.experimentalId) :
    Traced ⟨w.state.updateIntent i f hf, w.broker, heard⟩ := by
  refine h.updateIntent fun q _ => ?_
  refine ⟨he q, fun hs => by rw [hst, hs], fun _ hr hc => ?_⟩
  rw [hst]
  exact ⟨hr, hc, fun hs => hs⟩

theorem lookup (h : Traced w) (hf : OnFile w) {now : Instant} {answer : LookupAnswer}
    (htold : w.tellsLookup i answer = true) : Traced ⟨lookupSubmission w.state i now answer, w.broker, heard⟩ := by
  cases answer with
  | raised => exact h.lookedUp (fun _ => rfl) fun _ => rfl
  | notFound => exact h.lookedUp (fun _ => rfl) fun _ => rfl
  | found row =>
    simp only [lookupSubmission]
    split
    · rename_i hfound
      unfold World.tellsLookup at htold
      simp only [hfound.1, Bool.not_true, Bool.false_or] at htold
      obtain ⟨b, hget, hb⟩ := (Option.any_eq_true ..).1 htold
      obtain ⟨hmem, hid⟩ := Table.get_eq_some.1 hget
      rw [← of_decide_eq_true hb, ← hid]
      have h₁ : Traced ⟨w.state.updateIntent b.intentId
          (fun q => { q with notFoundConfirmations := 0, lastUncertainCheckAt := none }) fun _ => rfl, w.broker,
          heard⟩ := h.lookedUp (fun _ => rfl) fun _ => rfl
      have hf₁ : OnFile ⟨w.state.updateIntent b.intentId
          (fun q => { q with notFoundConfirmations := 0, lastUncertainCheckAt := none }) fun _ => rfl, w.broker,
          heard⟩ := hf.of_same (sameBudget_updateIntent fun _ _ => rfl) (.of_eq rfl)
      exact h₁.recordOrder hf₁ hmem
    · exact h.lookedUp (fun _ => rfl) fun _ => rfl

theorem trigger (h : Traced w) (symbol : Symbol) (reason : ExitReason) :
    Traced ⟨markExitTriggered w.state symbol reason, w.broker, heard⟩ := by
  unfold markExitTriggered
  split
  · exact h.of_eq rfl rfl rfl
  split
  · exact h.of_eq rfl rfl rfl
  · refine h.of_positions rfl rfl (Succeeds.update h.positions rfl (fun _ => rfl) fun x _ _ => ?_)
    exact ⟨rfl, rfl⟩

/-- Every event but an order keeps track. -/
theorem next (h : Traced w) (hf : OnFile w) {e : Event} (he : ∀ r sub, e ≠ .order r sub) (ht : e.Booked w)
    (hn : w.next cfg e = some w') : Traced w' := by
  cases e with
  | order r sub => exact absurd rfl (he r sub)
  | session enabled killSwitch =>
    obtain rfl := Option.some.inj hn
    exact h.of_eq rfl rfl rfl
  | broker id snapshot =>
    simp only [World.next] at hn
    split at hn
    · obtain rfl := Option.some.inj hn
      exact h.move
    · cases hn
  | update id r =>
    simp only [World.next] at hn
    split at hn
    · rename_i htold
      obtain rfl := Option.some.inj hn
      exact h.report htold ht
    · cases hn
  | pollRead id seen r =>
    simp only [World.next] at hn
    split at hn
    · rename_i htold
      obtain rfl := Option.some.inj hn
      unfold pollRead
      split
      · rename_i hnew
        exact h.report htold (ht hnew.2)
      · exact h.of_eq rfl rfl rfl
    · cases hn
  | pollTimeout id =>
    obtain rfl := Option.some.inj hn
    exact h.markUnconfirmed id
  | promote =>
    obtain rfl := Option.some.inj hn
    exact h.promote
  | lookup i now answer =>
    simp only [World.next] at hn
    split at hn
    · rename_i hcond
      simp only [Bool.and_eq_true] at hcond
      obtain rfl := Option.some.inj hn
      exact h.lookup hf hcond.2
    · cases hn
  | resolve i =>
    simp only [World.next] at hn
    split at hn
    · cases hn
    · rename_i hnone
      obtain rfl := Option.some.inj hn
      unfold operatorResolveUncertainSubmission
      split
      · rename_i q hq
        split
        · rename_i hst
          refine h.setUnknown (fun b hb he => hnone ?_) fun q' hq' => ?_
          · exact List.any_eq_true.2 ⟨b, hb, decide_eq_true he⟩
          · rw [hq] at hq'
            obtain rfl := Option.some.inj hq'
            rw [hst]
            rintro ⟨⟩
        · exact h.of_eq rfl rfl rfl
      · exact h.of_eq rfl rfl rfl
  | verdict flags =>
    obtain rfl := Option.some.inj hn
    exact h.of_eq rfl rfl rfl
  | trigger symbol reason =>
    obtain rfl := Option.some.inj hn
    exact h.trigger symbol reason

end Traced

/-! ## Submissions that nobody has followed up -/

/-- An intent that is `ORDER_INTENT` in `t` was so in `s`. -/
def NoOrphans (s t : LifecycleState) : Prop :=
  ∀ k q', t.intents.get k = some q' → q'.status = .orderIntent → ∃ q, s.intents.get k = some q ∧ q.status = .orderIntent

theorem NoOrphans.of_eq (h : t.intents = s.intents) : NoOrphans s t := fun k q' hq' hst => ⟨q', by rw [← h]; exact hq', hst⟩

theorem NoOrphans.trans {u : LifecycleState} (h : NoOrphans s t) (h' : NoOrphans t u) : NoOrphans s u := by
  intro k q'' hq'' hst''
  obtain ⟨q', hq', hst'⟩ := h' k q'' hq'' hst''
  exact h k q' hq' hst'

theorem noOrphans_updateIntent {f : Intent → Intent} {hf : ∀ q, (f q).id = q.id}
    (hi : ∀ q, (f q).status = .orderIntent → q.status = .orderIntent) : NoOrphans s (s.updateIntent i f hf) := by
  intro k q' hq' hst
  rw [get_updateIntent] at hq'
  obtain ⟨q, hq, rfl⟩ := Option.map_eq_some_iff.1 hq'
  refine ⟨q, hq, ?_⟩
  split at hst
  · exact hi q hst
  · exact hst

theorem noOrphans_setIntentStatus {status : IntentStatus} (hs : status ≠ .orderIntent) :
    NoOrphans s (s.setIntentStatus i status) := noOrphans_updateIntent fun _ h => absurd h hs

theorem noOrphans_recordOrder {id : BrokerOrderId} : NoOrphans s (s.recordOrder i id) :=
  (noOrphans_setIntentStatus (i := i) (by nofun)).trans (.of_eq rfl)

/-- Only an order leaves a new `ORDER_INTENT`. -/
theorem noOrphans_next {e : Event} (he : ∀ r sub, e ≠ .order r sub) (hn : w.next cfg e = some w') :
    NoOrphans w.state w'.state := by
  cases e with
  | order r sub => exact absurd rfl (he r sub)
  | broker id snapshot =>
    simp only [World.next] at hn
    split at hn
    · obtain rfl := Option.some.inj hn
      exact .of_eq rfl
    · cases hn
  | update id r =>
    simp only [World.next] at hn
    split at hn
    · obtain rfl := Option.some.inj hn
      exact .of_eq intents_applyBrokerUpdate
    · cases hn
  | pollRead id seen r =>
    simp only [World.next] at hn
    split at hn
    · obtain rfl := Option.some.inj hn
      unfold pollRead
      split
      · exact .of_eq intents_applyBrokerUpdate
      · exact .of_eq rfl
    · cases hn
  | promote =>
    obtain rfl := Option.some.inj hn
    intro k q' hq' hst
    rw [get_promoteOrphanOrderIntents] at hq'
    obtain ⟨q, hq, rfl⟩ := Option.map_eq_some_iff.1 hq'
    refine ⟨q, hq, ?_⟩
    unfold Intent.promoted at hst
    split at hst
    · cases hst
    · exact hst
  | lookup i now answer =>
    simp only [World.next] at hn
    split at hn
    · obtain rfl := Option.some.inj hn
      cases answer with
      | raised => exact noOrphans_updateIntent fun _ h => h
      | notFound => exact noOrphans_updateIntent fun _ h => h
      | found row =>
        simp only [lookupSubmission]
        split
        · refine NoOrphans.trans ?_ noOrphans_recordOrder
          exact noOrphans_updateIntent fun _ h => h
        · exact noOrphans_updateIntent fun _ h => h
    · cases hn
  | resolve i =>
    simp only [World.next] at hn
    split at hn
    · cases hn
    · obtain rfl := Option.some.inj hn
      unfold operatorResolveUncertainSubmission
      split
      · split
        · exact noOrphans_setIntentStatus (by rintro ⟨⟩)
        · exact .of_eq rfl
      · exact .of_eq rfl
  | trigger symbol reason =>
    obtain rfl := Option.some.inj hn
    unfold markExitTriggered
    split
    · exact .of_eq rfl
    · split <;> exact .of_eq rfl
  | session enabled killSwitch =>
    obtain rfl := Option.some.inj hn
    exact .of_eq rfl
  | pollTimeout id =>
    obtain rfl := Option.some.inj hn
    exact .of_eq rfl
  | verdict flags =>
    obtain rfl := Option.some.inj hn
    exact .of_eq rfl

/-- A running process has followed up every submission that the broker received. -/
def Session.Followed (S : Session) : Prop :=
  S.running = true → ∀ b ∈ S.world.broker.rows, ∀ q, S.world.state.intents.get b.intentId = some q →
    q.status ≠ .orderIntent

/-! ## Attempts -/

/-- What the answer to a submission makes of the status of its intent. -/
def SubmitAnswer.status : SubmitAnswer → IntentStatus
  | .raised => .submitFailedUncertain
  | .answered id => if id = "" then .rejected else .submitted

theorem get_recordSubmission {answer : SubmitAnswer} {k : IntentId} :
    (recordSubmission s i answer).intents.get k =
      (s.intents.get k).map fun q => if decide (q.id = i) then { q with status := answer.status } else q := by
  cases answer with
  | raised => exact get_setIntentStatus
  | answered id =>
    simp only [recordSubmission, SubmitAnswer.status]
    split
    · exact get_setIntentStatus
    · exact get_setIntentStatus

section Attempts

variable {c : EntryContext} {sub : Submission} {broker : Table BrokerOrder.id}

/-- The order of an attempt is the only one that it brings to the broker. -/
theorem mem_received (hr : w.receive i sub = some broker) (hb : b ∈ broker.rows) : b ∈ w.broker.rows ∨ b.intentId = i := by
  unfold World.receive at hr
  split at hr
  · obtain rfl := Option.some.inj hr
    exact .inl hb
  · obtain ⟨hrows, -⟩ := Table.insert?_eq_some hr
    rw [hrows] at hb
    rcases List.mem_append.1 hb with hb | hb
    · exact .inl hb
    · rw [List.mem_singleton.1 hb]
      exact .inr rfl

/-- An attempt touches no other intent. -/
theorem get_attempted_of_ne (ha : admitIntent cfg t r = .ok (i, s)) {answer : Option SubmitAnswer} {k : IntentId}
    (hk : k ≠ i) : (answer.elim s (recordSubmission s i)).intents.get k = t.intents.get k := by
  rw [← (get_admitted ha).2 k hk]
  cases answer with
  | none => rfl
  | some answer =>
    rw [Option.elim_some, get_recordSubmission]
    cases hq : s.intents.get k with
    | none => rfl
    | some q =>
      have hne : ¬ decide (q.id = i) = true := by
        rw [Table.key_of_get hq]
        simpa using hk
      simp only [Option.map_some, if_neg hne]

/-- An attempt that is sent, up to its answer: the intent is on file, and the order may be at the broker. -/
theorem Traced.sent (h : Traced w) (ha : admitIntent cfg w.state r = .ok (i, s)) (hr : w.receive i sub = some broker) :
    Traced ⟨s, broker, w.reported⟩ := by
  obtain ⟨hself, hother⟩ := get_admitted ha
  have hnew : w.state.intents.get i = none := (admitIntent_ok ha).2.1
  have hstate : Traced ⟨s, w.broker, w.reported⟩ := by
    refine h.of_intents ?_ ?_ fun k q hq => ⟨q, ?_, .refl _ q⟩
    · obtain ⟨-, -, budgets, -, rfl⟩ := admitIntent_ok ha
      rfl
    · obtain ⟨-, -, budgets, -, rfl⟩ := admitIntent_ok ha
      rfl
    · rw [hother k fun e => by rw [e, hnew] at hq; cases hq]
      exact hq
  unfold World.receive at hr
  split at hr
  · obtain rfl := Option.some.inj hr
    exact hstate
  · exact hstate.received hself rfl hr

/-- The answer to a submission that was sent, unless it hides the order that it is about. -/
theorem Traced.answered (h : Traced ⟨s, broker, w.reported⟩) (hf : OnFile ⟨s, broker, w.reported⟩)
    (hq : s.intents.get i = some (r.intent i)) (hr : w.receive i sub = some broker) (htrue : sub.truthful = true)
    (hnone : sub.received = none → ∀ b ∈ broker.rows, b.intentId ≠ i)
    (hid : sub.answer = some (.answered "") → sub.received = none) :
    Traced ⟨sub.answer.elim s (recordSubmission s i), broker, w.reported⟩ := by
  have hst : ∀ q, s.intents.get i = some q → q.status ≠ .submitted := by
    intro q hq'
    rw [hq] at hq'
    obtain rfl := Option.some.inj hq'
    nofun
  cases hans : sub.answer with
  | none => exact h
  | some answer =>
    cases answer with
    | raised => exact h.setUncertain hst
    | answered id =>
      simp only [Option.elim_some, recordSubmission]
      split
      · rename_i hempty
        subst hempty
        exact h.setUnknown (hnone (hid hans)) hst
      · rename_i hne
        have hrec : sub.received = some id := by
          unfold Submission.truthful at htrue
          simp only [hans, Bool.and_eq_true, Bool.or_eq_true, decide_eq_true_eq] at htrue
          exact htrue.2.resolve_left hne
        unfold World.receive at hr
        rw [hrec] at hr
        obtain ⟨hrows, -⟩ := Table.insert?_eq_some hr
        have hmem : BrokerOrder.place id i ∈ broker.rows := by
          rw [hrows]
          exact List.mem_append_right _ (List.mem_singleton.2 rfl)
        exact h.recordOrder hf hmem

theorem Session.traced_attempt (ht : Traced S.world) (hf : OnFile S.world) (hfol : S.Followed)
    (hok : Orderly S (.attempt c r sub)) (h : S.next (.attempt c r sub) = some S') :
    Traced S'.world ∧ S'.Followed := by
  obtain ⟨hrun, ⟨e, -, rfl⟩ | ⟨i, s, broker, ha, htrue, hr, rfl⟩⟩ := attempt_cases h
  · exact ⟨ht, hfol⟩
  have hself := (get_admitted ha).1
  have hnew : S.world.state.intents.get i = none := (admitIntent_ok ha).2.1
  have hfresh : ∀ b ∈ S.world.broker.rows, b.intentId ≠ i := by
    intro b hb he
    have hsome := hf.filed b hb
    rw [he, hnew] at hsome
    cases hsome
  have hold : sub.received = none → broker = S.world.broker := by
    intro hn
    unfold World.receive at hr
    rw [hn] at hr
    exact (Option.some.inj hr).symm
  have hnone : sub.received = none → ∀ b ∈ broker.rows, b.intentId ≠ i := fun hn b hb =>
    hfresh b (hold hn ▸ hb)
  constructor
  · exact (ht.sent ha hr).answered (hf.receive ha hr (.of_intents rfl rfl)) hself hr htrue hnone hok
  · intro hrunning b hb q hq
    by_cases hbi : b.intentId = i
    · -- the order of this attempt: the process has its answer
      have hreceived : sub.received ≠ none := fun hn => hnone hn b hb hbi
      cases hans : sub.answer with
      | none =>
        simp only [hans, Option.isSome_none, Bool.false_or, Option.isNone_iff_eq_none] at hrunning
        exact absurd hrunning hreceived
      | some answer =>
        simp only [hans, Option.elim_some] at hq
        rw [get_recordSubmission, hbi, hself] at hq
        obtain rfl := Option.some.inj hq
        dsimp only
        rw [if_pos (decide_eq_true (show (r.intent i).id = i from rfl))]
        cases answer with
        | raised => rintro ⟨⟩
        | answered id =>
          simp only [SubmitAnswer.status]
          split <;> rintro ⟨⟩
    · refine hfol hrun b ((mem_received hr hb).resolve_right hbi) q ?_
      rw [← get_attempted_of_ne ha hbi]
      exact hq

end Attempts

/-! ## Orderly runs -/

/-- Whatever happens in an orderly run, what is at the broker can be told from what is on file. -/
theorem Session.traced_next {e : SessionEvent} (ht : Traced S.world) (hf : OnFile S.world) (hfol : S.Followed)
    (hok : Orderly S e) (h : S.next e = some S') : Traced S'.world ∧ S'.Followed := by
  cases e with
  | attempt c r sub => exact Session.traced_attempt ht hf hfol hok h
  | event e =>
    obtain ⟨he, w', hw, rfl⟩ := event_cases h
    refine ⟨ht.next hf he hok hw, fun hrun b' hb' q' hq' hst => ?_⟩
    obtain ⟨b, hb, -, hi⟩ := keepsOrders_next he hw b' hb'
    obtain ⟨q, hq, hst'⟩ := noOrphans_next he hw _ q' hq' hst
    exact hfol hrun b hb q (by rw [hi]; exact hq) hst'
  | eodClosed =>
    simp only [Session.next] at h
    split at h
    · obtain rfl := Option.some.inj h
      refine ⟨ht.of_positions rfl rfl (Succeeds.update ht.positions rfl (fun _ => rfl) fun x _ _ => ?_), hfol⟩
      exact ⟨rfl, rfl⟩
    · cases h
  | crash =>
    obtain rfl := Option.some.inj h
    exact ⟨ht, by rintro ⟨⟩⟩
  | restart =>
    obtain rfl := Option.some.inj h
    refine ⟨ht.promote, fun _ b hb q' hq' => ?_⟩
    rw [get_promoteOrphanOrderIntents] at hq'
    obtain ⟨q, hq, rfl⟩ := Option.map_eq_some_iff.1 hq'
    unfold Intent.promoted
    split
    · rintro ⟨⟩
    · -- an order on file has a submitted intent
      rename_i hno
      intro hst
      refine hno ?_
      simp only [Bool.and_eq_true, decide_eq_true_eq, Bool.not_eq_true', List.any_eq_false]
      refine ⟨hst, fun o ho he => ?_⟩
      obtain ⟨-, q', hq', hsub⟩ := ht.filed o ho
      rw [he, Table.key_of_get hq, hq] at hq'
      obtain rfl := Option.some.inj hq'
      rw [hst] at hsub
      cases hsub

theorem Session.Reach.traced (h : Session.Reach Orderly S) : Traced S.world ∧ S.Followed := by
  induction h with
  | start =>
    refine ⟨⟨?_, ?_, ?_, ?_, ?_⟩, ?_⟩
    · exact fun o ho => (List.not_mem_nil ho).elim
    · exact fun o ho => (List.not_mem_nil ho).elim
    · exact fun b hb => (List.not_mem_nil hb).elim
    · exact fun p hp => (List.not_mem_nil hp).elim
    · exact fun o ho => (List.not_mem_nil ho).elim
    · exact fun _ b hb => (List.not_mem_nil hb).elim
  | step hreach hok hn ih => exact Session.traced_next ih.1 hreach.kept.2 ih.2 hok hn

end TalonX.Piv
