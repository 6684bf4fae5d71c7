import TalonX.Notify.AlertDelivery

/-!
# The life of an alert in the V2 outbox

- `visit_none`, `visit_some`, `record_cases`: a row that is due is closed without a hand-over, or is handed over, after
  which it is closed or waits for a retry;
- `rows_deliverOutbox`, `handOvers_deliverOutbox`: what one run does to every row, and in which rows the history grows;
- `Sound`: the rows count their hand-overs; `Sound.run` carries it through any sequence of enqueues and runs;
- `Timely`, `Leaves`, `outbox_deliveries`: how often, when and on which rows the transport is called, and what a call
  leaves.
-/

set_option autoImplicit false

namespace TalonX.Notify

open Transact Clock

/-! ## What becomes of a row -/

/-- The states that no run of the worker leaves. -/
def DeliveryState.Terminal (s : DeliveryState) : Prop :=
  s = .sent ∨ s = .held ∨ s = .failed ∨ s = .ambiguous ∨ s = .expired

theorem AlertRow.not_due_of_terminal {r : AlertRow} (h : r.state.Terminal) (nowIso : String) : r.due nowIso = false := by
  obtain h | h | h | h | h := h <;> simp [AlertRow.due, h]

/-- An answer after which the worker may try again. -/
def SendResult.Transient (res : SendResult) : Prop :=
  res.ok = false ∧ res.ambiguous = false ∧ res.held = false ∧ res.permanent = false

namespace Drain

variable {d : Drain} {maxAttempts : ℤ} {r : AlertRow}

/-- An attempt closes the row, or was not the last and leaves it for a retry. -/
theorem record_cases (d : Drain) (maxAttempts : ℤ) (n : ℕ) (res : SendResult) :
    (d.record maxAttempts n res).attempts = some n ∧
      ((¬ (res.Transient ∧ (n : ℤ) < maxAttempts) ∧ (d.record maxAttempts n res).state.Terminal) ∨
        ((res.Transient ∧ (n : ℤ) < maxAttempts) ∧ (d.record maxAttempts n res).state = .retry ∧
          (d.record maxAttempts n res).nextAttempt = some (d.nextAttempt n).isoformat)) := by
  unfold record
  by_cases hok : res.ok
  · simp [hok, SendResult.Transient, DeliveryState.Terminal]
  by_cases hamb : res.ambiguous
  · simp [hok, hamb, SendResult.Transient, DeliveryState.Terminal]
  by_cases hheld : res.held
  · simp [hok, hamb, hheld, SendResult.Transient, DeliveryState.Terminal]
  by_cases hlast : res.permanent ∨ maxAttempts ≤ n
  · refine ⟨by simp [hok, hamb, hheld, hlast], Or.inl ⟨?_, by simp [hok, hamb, hheld, hlast, DeliveryState.Terminal]⟩⟩
    rintro ⟨ht, hn⟩
    rcases hlast with h | h
    · rw [ht.2.2.2] at h
      cases h
    · omega
  · obtain ⟨hperm, hn⟩ := not_or.1 hlast
    refine ⟨by simp [hok, hamb, hheld, hlast], Or.inr ⟨⟨?_, by omega⟩, ?_⟩⟩
    · simp [SendResult.Transient, hok, hamb, hheld, hperm]
    · simp [hok, hamb, hheld, hlast]

/-- A row that is not handed over is closed as it is. -/
theorem visit_none (h : (d.visit maxAttempts r).2 = none) :
    (d.visit maxAttempts r).1.attempts = none ∧ (d.visit maxAttempts r).1.state.Terminal := by
  unfold visit at h ⊢
  split
  · simp [DeliveryState.Terminal]
  · rename_i hd
    rw [hd] at h
    simp only at h ⊢
    split
    · simp [DeliveryState.Terminal]
    · rename_i he
      rw [if_neg he] at h
      split
      · simp [DeliveryState.Terminal]
      · rename_i hs
        rw [if_neg hs] at h
        cases h

/-- A row that is handed over is not past its deadline. -/
theorem visit_some {res : SendResult} (h : (d.visit maxAttempts r).2 = some res) :
    (d.visit maxAttempts r).1 = d.record maxAttempts (r.attempts + 1) res ∧ res = caught (d.transport r) ∧
      ∀ deadline, r.alert.deliverBy = some deadline → deadline ≠ "" → d.nowIso < deadline := by
  unfold visit at h ⊢
  split
  · rename_i hd
    rw [hd] at h
    cases h
  · rename_i hd
    rw [hd] at h
    simp only at h ⊢
    split
    · rename_i he
      rw [if_pos he] at h
      cases h
    · rename_i he
      rw [if_neg he] at h
      split
      · rename_i hs
        rw [if_pos hs] at h
        cases h
      · rename_i hs
        rw [if_neg hs] at h
        obtain rfl := Option.some.inj h
        refine ⟨rfl, rfl, fun deadline hdl hne => ?_⟩
        have hpast := Option.filter_eq_none_iff.1 hd deadline hdl
        simpa [hne] using hpast

/-- What a run makes of a row that is due. -/
def after (d : Drain) (maxAttempts : ℤ) (r : AlertRow) : AlertRow := r.update (d.visit maxAttempts r).1

def handOver (d : Drain) (maxAttempts : ℤ) (r : AlertRow) : Option HandOver :=
  (d.visit maxAttempts r).2.map fun res => ⟨r.eventId, d.now, res⟩

end Drain

/-! ## What a run does to the outbox -/

/-- A row as `enqueue_alert` inserts it. -/
structure AlertRow.IsNew (r : AlertRow) : Prop where
  state : r.state = .pending
  attempts : r.attempts = 0
  nextAttempt : r.nextAttempt = none

/-- Rows that came in beside the known ones. -/
def Arrived (known fresh : List AlertRow) : Prop :=
  ∀ q ∈ fresh, q.IsNew ∧ q.eventId ∉ known.map AlertRow.eventId

theorem Arrived.nil {known : List AlertRow} : Arrived known [] := fun _ hq => absurd hq List.not_mem_nil

theorem Arrived.append {known fresh fresh' : List AlertRow} (h : Arrived known fresh)
    (h' : Arrived (known ++ fresh) fresh') : Arrived known (fresh ++ fresh') := by
  intro q hq
  rcases List.mem_append.1 hq with hq | hq
  · exact h q hq
  · obtain ⟨hnew, hnot⟩ := h' q hq
    refine ⟨hnew, fun hmem => hnot ?_⟩
    rw [List.map_append]
    exact List.mem_append_left _ hmem

/-- Only the event ids of the known rows matter. -/
theorem Arrived.of_ids {known known' fresh : List AlertRow} (h : Arrived known fresh)
    (he : known.map AlertRow.eventId = known'.map AlertRow.eventId) : Arrived known' fresh :=
  fun q hq => ⟨(h q hq).1, he ▸ (h q hq).2⟩

namespace AlertBox

variable {d : Drain} {maxAttempts : ℤ} {box : AlertBox} {r : AlertRow}

theorem rows_enqueueAlert (box : AlertBox) (a : Alert) :
    ∃ fresh, (box.enqueueAlert a).outbox.rows = box.outbox.rows ++ fresh ∧ Arrived box.outbox.rows fresh := by
  by_cases hg : box.outbox.get a.pending.eventId = none
  · refine ⟨[a.pending], by rw [enqueueAlert, Table.rows_insertOrIgnore, if_pos hg], fun q hq => ?_⟩
    rw [List.mem_singleton.1 hq]
    refine ⟨⟨rfl, rfl, rfl⟩, fun hmem => ?_⟩
    obtain ⟨q', hq', he⟩ := List.mem_map.1 hmem
    exact Table.get_eq_none.1 hg q' hq' he
  · exact ⟨[], by rw [enqueueAlert, Table.rows_insertOrIgnore, if_neg hg, List.append_nil], Arrived.nil⟩

theorem rows_enqueueAlerts (as : List Alert) (box : AlertBox) :
    ∃ fresh, (as.foldl enqueueAlert box).outbox.rows = box.outbox.rows ++ fresh ∧ Arrived box.outbox.rows fresh := by
  induction as generalizing box with
  | nil => exact ⟨[], by simp, Arrived.nil⟩
  | cons a as ih =>
    obtain ⟨fresh, hrows, hfresh⟩ := rows_enqueueAlert box a
    obtain ⟨fresh', hrows', hfresh'⟩ := ih (box.enqueueAlert a)
    rw [hrows] at hrows' hfresh'
    exact ⟨fresh ++ fresh', by rw [List.foldl_cons, hrows', List.append_assoc], hfresh.append hfresh'⟩

/-- One turn of the loop changes the row it is about. -/
theorem rows_deliver (d : Drain) (maxAttempts : ℤ) (hr : r ∈ box.outbox.rows) :
    ∃ fresh, (deliver d maxAttempts box r).outbox.rows =
        box.outbox.rows.map (fun q => if q.eventId = r.eventId then d.after maxAttempts q else q) ++ fresh ∧
      Arrived box.outbox.rows fresh := by
  obtain ⟨fresh, hrows, hfresh⟩ := rows_enqueueAlerts (d.arrivals r) box
  refine ⟨fresh, ?_, hfresh⟩
  have hstep : (deliver d maxAttempts box r).outbox.rows =
      updateRows (·.eventId = r.eventId) (·.update (d.visit maxAttempts r).1)
        ((d.arrivals r).foldl enqueueAlert box).outbox.rows := rfl
  simp only [hstep, updateRows, hrows, List.map_append, decide_eq_true_eq]
  congr 1
  · refine List.map_congr_left fun q hq => ?_
    by_cases he : q.eventId = r.eventId
    · rw [box.outbox.eq_of_key hq hr he]
      rfl
    · rw [if_neg he, if_neg he]
  · conv_rhs => rw [← List.map_id fresh]
    refine List.map_congr_left fun q hq => if_neg fun he => ?_
    exact (hfresh q hq).2 (List.mem_map.2 ⟨r, hr, he.symm⟩)

theorem ids_map (f : AlertRow → AlertRow) (hf : ∀ q, (f q).eventId = q.eventId) (rows : List AlertRow) :
    (rows.map f).map AlertRow.eventId = rows.map AlertRow.eventId := by
  rw [List.map_map]
  exact List.map_congr_left fun q _ => hf q

theorem eventId_after (q : AlertRow) : (d.after maxAttempts q).eventId = q.eventId := rfl

/-- The loop changes the rows it is about; the events of a run are different. -/
theorem rows_foldl_deliver (d : Drain) (maxAttempts : ℤ) (todo : List AlertRow) (box : AlertBox)
    (hn : (todo.map AlertRow.eventId).Nodup) (hsub : ∀ q ∈ todo, q ∈ box.outbox.rows) :
    ∃ fresh, (todo.foldl (deliver d maxAttempts) box).outbox.rows =
        box.outbox.rows.map (fun q => if q.eventId ∈ todo.map AlertRow.eventId then d.after maxAttempts q else q) ++
          fresh ∧
      Arrived box.outbox.rows fresh := by
  induction todo generalizing box with
  | nil => exact ⟨[], by simp, Arrived.nil⟩
  | cons r todo ih =>
    obtain ⟨hnot, hn⟩ := List.nodup_cons.1 hn
    have hr := hsub r List.mem_cons_self
    obtain ⟨fresh, hrows, hfresh⟩ := rows_deliver d maxAttempts hr
    have hids : ∀ q : AlertRow, (if q.eventId = r.eventId then d.after maxAttempts q else q).eventId = q.eventId :=
      fun q => by split <;> rfl
    -- the other rows of the loop are as they were
    have hrest : ∀ q ∈ todo, q ∈ (deliver d maxAttempts box r).outbox.rows := fun q hq => by
      rw [hrows]
      refine List.mem_append_left _ (List.mem_map.2 ⟨q, hsub q (List.mem_cons_of_mem _ hq), if_neg fun he => ?_⟩)
      exact hnot (he ▸ List.mem_map_of_mem hq)
    obtain ⟨fresh', hrows', hfresh'⟩ := ih (deliver d maxAttempts box r) hn hrest
    rw [hrows] at hrows' hfresh'
    refine ⟨fresh ++ fresh', ?_, hfresh.append (hfresh'.of_ids ?_)⟩
    · rw [List.foldl_cons, hrows', List.map_append, List.map_map, List.append_assoc]
      congr 1
      · refine List.map_congr_left fun q _ => ?_
        simp only [Function.comp_apply, hids, List.map_cons, List.mem_cons]
        by_cases he : q.eventId = r.eventId
        · simp [he, hnot]
        · simp [he]
      · congr 1
        conv_rhs => rw [← List.map_id fresh]
        refine List.map_congr_left fun q hq => if_neg fun hmem => (hfresh q hq).2 ?_
        obtain ⟨q', hq', he⟩ := List.mem_map.1 hmem
        exact List.mem_map.2 ⟨q', hsub q' (List.mem_cons_of_mem _ hq'), he⟩
    · rw [List.map_append, List.map_append, ids_map _ hids]

theorem handed_foldl_deliver (todo : List AlertRow) (box : AlertBox) :
    (todo.foldl (deliver d maxAttempts) box).handed = box.handed ++ todo.filterMap (d.handOver maxAttempts) := by
  induction todo generalizing box with
  | nil => simp
  | cons r todo ih =>
    rw [List.foldl_cons, ih]
    have hsame : ∀ (as : List Alert) (b : AlertBox), (as.foldl enqueueAlert b).handed = b.handed := fun as => by
      induction as with
      | nil => exact fun _ => rfl
      | cons a as ih => exact fun b => ih (b.enqueueAlert a)
    have hone : (deliver d maxAttempts box r).handed = box.handed ++ (d.handOver maxAttempts r).toList := by
      rw [← hsame (d.arrivals r) box]
      rfl
    rw [hone, List.append_assoc]
    congr 1
    cases h : d.handOver maxAttempts r <;> simp [h]

/-- The rows of a run are those that are due when it starts. -/
theorem mem_outboxDue {nowIso : String} {q : AlertRow} :
    q ∈ box.outboxDue nowIso ↔ q ∈ box.outbox.rows ∧ q.due nowIso = true := by
  rw [outboxDue, List.mem_insertionSort, List.mem_filter]

theorem nodup_outboxDue (box : AlertBox) (nowIso : String) : ((box.outboxDue nowIso).map AlertRow.eventId).Nodup := by
  rw [outboxDue, ((List.perm_insertionSort _ _).map AlertRow.eventId).nodup_iff]
  exact (List.filter_sublist.map _).nodup box.outbox.unique

/-- A run changes the rows that are due, and no others. -/
theorem rows_deliverOutbox (d : Drain) (maxAttempts : ℤ) (box : AlertBox) :
    ∃ fresh, (box.deliverOutbox d maxAttempts).outbox.rows =
        box.outbox.rows.map (fun q => if q.due d.nowIso then d.after maxAttempts q else q) ++ fresh ∧
      Arrived box.outbox.rows fresh := by
  obtain ⟨fresh, hrows, hfresh⟩ := rows_foldl_deliver d maxAttempts (box.outboxDue d.nowIso) box
    (box.nodup_outboxDue d.nowIso) fun q hq => (mem_outboxDue.1 hq).1
  refine ⟨fresh, ?_, hfresh⟩
  rw [deliverOutbox, hrows]
  congr 1
  refine List.map_congr_left fun q hq => ?_
  have hiff : q.eventId ∈ (box.outboxDue d.nowIso).map AlertRow.eventId ↔ q.due d.nowIso = true := by
    refine ⟨fun hmem => ?_, fun hdue => List.mem_map_of_mem (mem_outboxDue.2 ⟨hq, hdue⟩)⟩
    obtain ⟨q', hq', he⟩ := List.mem_map.1 hmem
    obtain ⟨hmem', hdue⟩ := mem_outboxDue.1 hq'
    rwa [← box.outbox.eq_of_key hmem' hq he]
  simp only [hiff]

theorem handed_deliverOutbox (d : Drain) (maxAttempts : ℤ) (box : AlertBox) :
    (box.deliverOutbox d maxAttempts).handed =
      box.handed ++ (box.outboxDue d.nowIso).filterMap (d.handOver maxAttempts) :=
  handed_foldl_deliver _ _

/-- A run hands an event over at most once, when its row is due. -/
theorem handOvers_deliverOutbox (d : Drain) (maxAttempts : ℤ) (hr : r ∈ box.outbox.rows) :
    (box.deliverOutbox d maxAttempts).handOvers r.eventId =
      box.handOvers r.eventId + if r.due d.nowIso ∧ (d.visit maxAttempts r).2.isSome then 1 else 0 := by
  rw [handOvers, handed_deliverOutbox, List.countP_append, List.countP_filterMap]
  congr 1
  have hself : ∀ q ∈ box.outboxDue d.nowIso,
      (((d.handOver maxAttempts q).map fun h => decide (h.eventId = r.eventId)).getD false = true ↔
        decide (q = r ∧ (d.visit maxAttempts r).2.isSome) = true) := by
    intro q hq
    rw [decide_eq_true_eq, Drain.handOver]
    cases hv : (d.visit maxAttempts q).2 with
    | none =>
      simp only [Option.map_none, Option.getD_none, Bool.false_eq_true, false_iff]
      rintro ⟨rfl, hs⟩
      rw [hv] at hs
      cases hs
    | some res =>
      simp only [Option.map_some, Option.getD_some, decide_eq_true_eq]
      refine ⟨fun he => ?_, fun h => h.1 ▸ rfl⟩
      obtain rfl := box.outbox.eq_of_key (mem_outboxDue.1 hq).1 hr he
      exact ⟨rfl, by rw [hv]; rfl⟩
  rw [List.countP_congr hself]
  by_cases hv : (d.visit maxAttempts r).2.isSome
  · have hcount : (box.outboxDue d.nowIso).countP (fun q => decide (q = r ∧ (d.visit maxAttempts r).2.isSome)) =
        (box.outboxDue d.nowIso).count r := by
      refine List.countP_congr fun q _ => ?_
      simp [hv]
    rw [hcount, (box.nodup_outboxDue d.nowIso).of_map.count]
    simp [mem_outboxDue, hr, hv]
  · simp [hv]

/-! ## Every row counts its hand-overs -/

/-- What holds of a row at any time. -/
structure Tracked (maxAttempts : ℤ) (box : AlertBox) (r : AlertRow) : Prop where
  attempts : r.attempts = box.handOvers r.eventId
  bounded : (r.attempts : ℤ) ≤ max 1 maxAttempts
  pending : r.state = .pending → r.attempts = 0 ∧ r.nextAttempt = none
  retry : r.state = .retry → (r.attempts : ℤ) < maxAttempts ∧ ∃ t : Utc, r.nextAttempt = some t.isoformat

structure Sound (maxAttempts : ℤ) (box : AlertBox) : Prop where
  rows : ∀ r ∈ box.outbox.rows, Tracked maxAttempts box r
  handed : ∀ h ∈ box.handed, ∃ r ∈ box.outbox.rows, r.eventId = h.eventId

theorem Sound.empty : Sound maxAttempts empty :=
  ⟨fun _ hr => absurd hr List.not_mem_nil, fun _ hh => absurd hh List.not_mem_nil⟩

/-- An event without a row was never handed over. -/
theorem Sound.handOvers_eq_zero (h : Sound maxAttempts box) {e : EventId}
    (he : e ∉ box.outbox.rows.map AlertRow.eventId) : box.handOvers e = 0 := by
  refine List.countP_eq_zero.2 fun a ha hae => he ?_
  obtain ⟨r, hr, hra⟩ := h.handed a ha
  exact List.mem_map.2 ⟨r, hr, hra.trans (of_decide_eq_true hae)⟩

theorem Tracked.of_isNew {q : AlertRow} (hq : q.IsNew) (h0 : box.handOvers q.eventId = 0) :
    Tracked maxAttempts box q := by
  refine ⟨by rw [hq.attempts, h0], by rw [hq.attempts]; simp, fun _ => ⟨hq.attempts, hq.nextAttempt⟩, fun h => ?_⟩
  rw [hq.state] at h
  cases h

theorem Tracked.of_handOvers {box' : AlertBox} (h : Tracked maxAttempts box r)
    (he : box'.handOvers r.eventId = box.handOvers r.eventId) : Tracked maxAttempts box' r :=
  ⟨h.attempts.trans he.symm, h.bounded, h.pending, h.retry⟩

theorem Sound.enqueueAlert (h : Sound maxAttempts box) (a : Alert) : Sound maxAttempts (box.enqueueAlert a) := by
  obtain ⟨fresh, hrows, hfresh⟩ := rows_enqueueAlert box a
  constructor
  · intro r hr
    rw [hrows] at hr
    rcases List.mem_append.1 hr with hr | hr
    · exact (h.rows r hr).of_handOvers rfl
    · exact Tracked.of_isNew (hfresh r hr).1 (h.handOvers_eq_zero (hfresh r hr).2)
  · intro x hx
    obtain ⟨r, hr, he⟩ := h.handed x hx
    exact ⟨r, by rw [hrows]; exact List.mem_append_left _ hr, he⟩

/-- An attempt that is made stays within the limit. -/
theorem Tracked.attempt_le (h : Tracked maxAttempts box r) {nowIso : String} (hd : r.due nowIso = true) :
    ((r.attempts + 1 : ℕ) : ℤ) ≤ max 1 maxAttempts := by
  simp only [AlertRow.due, Bool.and_eq_true, Bool.or_eq_true, decide_eq_true_eq] at hd
  rcases hd.1 with hs | hs
  · rw [(h.pending hs).1]
    simp
  · have := (h.retry hs).1
    omega

/-- A row that was due is closed, or waits with its attempt counted. -/
theorem Tracked.after (h : Tracked maxAttempts box r) (hr : r ∈ box.outbox.rows) (hd : r.due d.nowIso = true) :
    Tracked maxAttempts (box.deliverOutbox d maxAttempts) (d.after maxAttempts r) := by
  have hcount := handOvers_deliverOutbox d maxAttempts hr
  cases hv : (d.visit maxAttempts r).2 with
  | none =>
    obtain ⟨hatt, hterm⟩ := Drain.visit_none hv
    have hsame : (d.after maxAttempts r).attempts = r.attempts := by
      rw [Drain.after, AlertRow.update, hatt]
      rfl
    refine ⟨?_, by rw [hsame]; exact h.bounded, fun hs => ?_, fun hs => ?_⟩
    · rw [hsame, eventId_after, hcount, hv, h.attempts]
      simp
    · obtain h' | h' | h' | h' | h' := hterm <;> exact absurd (h'.symm.trans hs) (by decide)
    · obtain h' | h' | h' | h' | h' := hterm <;> exact absurd (h'.symm.trans hs) (by decide)
  | some res =>
    obtain ⟨hrec, -, -⟩ := Drain.visit_some hv
    obtain ⟨hatt, hcases⟩ := Drain.record_cases d maxAttempts (r.attempts + 1) res
    have hone : (d.after maxAttempts r).attempts = r.attempts + 1 := by
      rw [Drain.after, AlertRow.update, hrec, hatt]
      rfl
    have hstate : (d.after maxAttempts r).state = (d.record maxAttempts (r.attempts + 1) res).state := by
      rw [← hrec]
      rfl
    refine ⟨?_, by rw [hone]; exact h.attempt_le hd, fun hs => ?_, fun hs => ?_⟩
    · rw [hone, eventId_after, hcount, hv, h.attempts]
      simp [hd]
    · rw [hstate] at hs
      rcases hcases with ⟨-, h' | h' | h' | h' | h'⟩ | ⟨-, h', -⟩ <;> exact absurd (h'.symm.trans hs) (by decide)
    · rw [hstate] at hs
      rcases hcases with ⟨-, h' | h' | h' | h' | h'⟩ | ⟨hlt, -, hnext⟩
      iterate 5 exact absurd (h'.symm.trans hs) (by decide)
      refine ⟨by rw [hone]; exact hlt.2, d.nextAttempt (r.attempts + 1), ?_⟩
      rw [← hnext, ← hrec]
      rfl

theorem handOvers_of_not_due (hr : r ∈ box.outbox.rows) (hd : ¬ r.due d.nowIso = true) :
    (box.deliverOutbox d maxAttempts).handOvers r.eventId = box.handOvers r.eventId := by
  rw [handOvers_deliverOutbox d maxAttempts hr]
  simp [hd]

theorem Sound.deliverOutbox (h : Sound maxAttempts box) (d : Drain) :
    Sound maxAttempts (box.deliverOutbox d maxAttempts) := by
  obtain ⟨fresh, hrows, hfresh⟩ := rows_deliverOutbox d maxAttempts box
  have hkept : ∀ r ∈ box.outbox.rows, ∃ q ∈ (box.deliverOutbox d maxAttempts).outbox.rows, q.eventId = r.eventId := by
    intro r hr
    refine ⟨_, hrows ▸ List.mem_append_left _ (List.mem_map_of_mem hr), ?_⟩
    split <;> rfl
  have hold : ∀ x ∈ (box.deliverOutbox d maxAttempts).handed, ∃ r ∈ box.outbox.rows, r.eventId = x.eventId := by
    intro x hx
    rw [handed_deliverOutbox] at hx
    rcases List.mem_append.1 hx with hx | hx
    · exact h.handed x hx
    · obtain ⟨r, hr, hrx⟩ := List.mem_filterMap.1 hx
      obtain ⟨res, -, rfl⟩ := Option.map_eq_some_iff.1 hrx
      exact ⟨r, (mem_outboxDue.1 hr).1, rfl⟩
  constructor
  · intro r hr
    rw [hrows] at hr
    rcases List.mem_append.1 hr with hr | hr
    · obtain ⟨q, hq, rfl⟩ := List.mem_map.1 hr
      split
      · exact (h.rows q hq).after hq ‹_›
      · exact (h.rows q hq).of_handOvers (handOvers_of_not_due hq ‹_›)
    · refine Tracked.of_isNew (hfresh r hr).1 (List.countP_eq_zero.2 fun x hx hxe => (hfresh r hr).2 ?_)
      obtain ⟨q, hq, hqx⟩ := hold x hx
      exact List.mem_map.2 ⟨q, hq, hqx.trans (of_decide_eq_true hxe)⟩
  · intro x hx
    obtain ⟨r, hr, hrx⟩ := hold x hx
    obtain ⟨q, hq, hqr⟩ := hkept r hr
    exact ⟨q, hq, hqr.trans hrx⟩

theorem Sound.step (h : Sound maxAttempts box) (op : OutboxStep) : Sound maxAttempts (box.step maxAttempts op) := by
  cases op with
  | enqueue a => exact h.enqueueAlert a
  | drain d => exact h.deliverOutbox d

theorem Sound.run (steps : List OutboxStep) (h : Sound maxAttempts box) :
    Sound maxAttempts (box.run maxAttempts steps) := by
  induction steps generalizing box with
  | nil => exact h
  | cons op steps ih => exact ih (h.step op)

/-! ## Closed rows -/

theorem terminal_step (maxAttempts : ℤ) (hr : r ∈ box.outbox.rows) (ht : r.state.Terminal) (op : OutboxStep) :
    r ∈ (box.step maxAttempts op).outbox.rows ∧
      (box.step maxAttempts op).handOvers r.eventId = box.handOvers r.eventId := by
  cases op with
  | enqueue a => exact ⟨Table.mem_insertOrIgnore_of_mem hr, rfl⟩
  | drain d =>
    have hd : ¬ r.due d.nowIso = true := by simp [AlertRow.not_due_of_terminal ht]
    obtain ⟨fresh, hrows, -⟩ := rows_deliverOutbox d maxAttempts box
    refine ⟨?_, handOvers_of_not_due hr hd⟩
    show r ∈ (box.deliverOutbox d maxAttempts).outbox.rows
    rw [hrows]
    exact List.mem_append_left _ (List.mem_map.2 ⟨r, hr, if_neg hd⟩)

theorem terminal_run (steps : List OutboxStep) (hr : r ∈ box.outbox.rows) (ht : r.state.Terminal) :
    r ∈ (box.run maxAttempts steps).outbox.rows ∧
      (box.run maxAttempts steps).handOvers r.eventId = box.handOvers r.eventId := by
  induction steps generalizing box with
  | nil => exact ⟨hr, rfl⟩
  | cons op steps ih =>
    obtain ⟨hr', he⟩ := terminal_step maxAttempts hr ht op
    obtain ⟨hrun, hrune⟩ := ih hr'
    exact ⟨hrun, hrune.trans he⟩

/-! ## Every run -/

/-- What a hand-over in the run `d` finds in the outbox: a row that is open, has come to its time and is before its
deadline. -/
def Timely (d : Drain) (box : AlertBox) (h : HandOver) : Prop :=
  h.time = d.now ∧ ∃ r ∈ box.outbox.rows, r.eventId = h.eventId ∧ (r.state = .pending ∨ r.state = .retry) ∧
    (r.nextAttempt = none ∨ ∃ t : Utc, r.nextAttempt = some t.isoformat ∧ t ≤ d.now) ∧
    (∀ deadline, r.alert.deliverBy = some deadline → deadline ≠ "" → d.nowIso < deadline) ∧
    ∀ t : Utc, r.alert.deliverBy = some t.isoformat → d.now < t

/-- What it leaves in `box`: a row that is closed, or, after a transient failure that was not the last, a row that is due
again from a later time on. -/
def Leaves (d : Drain) (maxAttempts : ℤ) (box : AlertBox) (h : HandOver) : Prop :=
  ∃ r ∈ box.outbox.rows, r.eventId = h.eventId ∧ r.attempts = box.handOvers h.eventId ∧
    ((¬ (h.result.Transient ∧ (r.attempts : ℤ) < maxAttempts) ∧ r.state.Terminal) ∨
      ((h.result.Transient ∧ (r.attempts : ℤ) < maxAttempts) ∧ r.state = .retry ∧
        ∃ t : Utc, t.micros = d.now.micros + min 300 (5 * 2 ^ (r.attempts - 1)) * 1000000 ∧
          ∀ now : Utc, r ∈ box.outboxDue now.isoformat ↔ t ≤ now))

theorem due_of_retry {t now : Utc} (hs : r.state = .retry) (hn : r.nextAttempt = some t.isoformat) :
    r.due now.isoformat = true ↔ t ≤ now := by
  simp [AlertRow.due, hs, hn, Utc.isoformat_le_iff]

theorem Sound.timely (h : Sound maxAttempts box) {x : HandOver}
    (hx : x ∈ (box.outboxDue d.nowIso).filterMap (d.handOver maxAttempts)) : Timely d box x := by
  obtain ⟨r, hr, hrx⟩ := List.mem_filterMap.1 hx
  obtain ⟨res, hv, rfl⟩ := Option.map_eq_some_iff.1 hrx
  obtain ⟨hmem, hdue⟩ := mem_outboxDue.1 hr
  obtain ⟨-, -, hdeadline⟩ := Drain.visit_some hv
  have hopen := hdue
  simp only [AlertRow.due, Bool.and_eq_true, Bool.or_eq_true, decide_eq_true_eq] at hopen
  refine ⟨rfl, r, hmem, rfl, hopen.1, ?_, hdeadline, fun t ht => ?_⟩
  · rcases hopen.1 with hs | hs
    · exact Or.inl ((h.rows r hmem).pending hs).2
    · obtain ⟨t, ht⟩ := ((h.rows r hmem).retry hs).2
      exact Or.inr ⟨t, ht, (due_of_retry hs ht).1 hdue⟩
  · exact Utc.isoformat_lt_iff.1 (hdeadline _ ht t.isoformat_ne_empty)

theorem Sound.leaves (h : Sound maxAttempts box) {x : HandOver}
    (hx : x ∈ (box.outboxDue d.nowIso).filterMap (d.handOver maxAttempts)) :
    Leaves d maxAttempts (box.deliverOutbox d maxAttempts) x := by
  obtain ⟨r, hr, hrx⟩ := List.mem_filterMap.1 hx
  obtain ⟨res, hv, rfl⟩ := Option.map_eq_some_iff.1 hrx
  obtain ⟨hmem, hdue⟩ := mem_outboxDue.1 hr
  obtain ⟨hrec, -, -⟩ := Drain.visit_some hv
  obtain ⟨hatt, hcases⟩ := Drain.record_cases d maxAttempts (r.attempts + 1) res
  obtain ⟨fresh, hrows, -⟩ := rows_deliverOutbox d maxAttempts box
  have hin : d.after maxAttempts r ∈ (box.deliverOutbox d maxAttempts).outbox.rows := by
    rw [hrows]
    exact List.mem_append_left _ (List.mem_map.2 ⟨r, hmem, if_pos hdue⟩)
  have hone : (d.after maxAttempts r).attempts = r.attempts + 1 := by
    rw [Drain.after, AlertRow.update, hrec, hatt]
    rfl
  refine ⟨d.after maxAttempts r, hin, rfl, ((h.rows r hmem).after hmem hdue).attempts, ?_⟩
  rw [hone]
  rcases hcases with ⟨hlast, hterm⟩ | ⟨hagain, hstate, hnext⟩
  · exact Or.inl ⟨hlast, by rw [← hrec] at hterm; exact hterm⟩
  · rw [← hrec] at hstate hnext
    refine Or.inr ⟨hagain, hstate, d.nextAttempt (r.attempts + 1), ?_, fun now => ?_⟩
    · show d.now.micros + backoffSeconds (r.attempts + 1) * 1000000 = _
      rw [backoffSeconds_eq]
    · rw [mem_outboxDue, due_of_retry hstate hnext]
      exact and_iff_right hin

theorem Sound.handOvers_le (h : Sound maxAttempts box) (e : EventId) : (box.handOvers e : ℤ) ≤ max 1 maxAttempts := by
  by_cases he : e ∈ box.outbox.rows.map AlertRow.eventId
  · obtain ⟨r, hr, rfl⟩ := List.mem_map.1 he
    rw [← (h.rows r hr).attempts]
    exact (h.rows r hr).bounded
  · rw [h.handOvers_eq_zero he]
    simp

/-- From the empty outbox, under any enqueues and runs of the worker: no event is handed over more often than the limit
allows, and once where it allows none; the attempts of a row are its hand-overs; a closed row stays as it is and is not
handed over again; and each hand-over of a further run is timely, and closes the row or leaves it for a retry. -/
theorem outbox_deliveries (maxAttempts : ℤ) (steps : List OutboxStep) :
    let box := AlertBox.empty.run maxAttempts steps
    (∀ e, (box.handOvers e : ℤ) ≤ max 1 maxAttempts) ∧
    (∀ r ∈ box.outbox.rows, r.attempts = box.handOvers r.eventId) ∧
    (∀ r ∈ box.outbox.rows, r.state.Terminal → ∀ more, r ∈ (box.run maxAttempts more).outbox.rows ∧
      (box.run maxAttempts more).handOvers r.eventId = box.handOvers r.eventId) ∧
    ∀ d : Drain, ∃ calls, (box.deliverOutbox d maxAttempts).handed = box.handed ++ calls ∧
      ∀ h ∈ calls, Timely d box h ∧ Leaves d maxAttempts (box.deliverOutbox d maxAttempts) h := by
  intro box
  have hsound : Sound maxAttempts box := Sound.run steps Sound.empty
  refine ⟨hsound.handOvers_le, fun r hr => (hsound.rows r hr).attempts,
    fun r hr ht more => terminal_run more hr ht, fun d => ⟨_, handed_deliverOutbox d maxAttempts box, fun h hh => ?_⟩⟩
  exact ⟨hsound.timely hh, hsound.leaves hh⟩

/-- A run whose transport always raises. -/
def failingDrain : Drain where
  now := ⟨63920842200000000, by decide⟩
  room := by decide
  router _ _ := ⟨true, false, ""⟩
  transport _ := .error "TimeoutError()"
  broadDiscoverySymbols := []
  arrivals _ := []

def fillAlert : Alert where
  eventId := "ep1:ENTRY_FILL"
  episodeId := "ep1"
  kind := "ENTRY_FILL"
  action := "INFO"
  symbol := "AAPL"
  strategyVersion := "INSIDER_BUY_CLUSTER_V2@1"
  horizonTradingDays := some 63
  dedupKey := "ep1:BUY:ENTRY_FILL"
  payloadText := "INSIDER BUY CLUSTER"
  provenance := ""
  deliverBy := none
  createdAt := "2026-07-28T13:00:00+00:00"

/-- A limit of no attempts is noticed after the first. -/
theorem attempt_beyond_limit :
    ¬ ∀ (maxAttempts : ℤ) (steps : List OutboxStep) (e : EventId),
      ((AlertBox.empty.run maxAttempts steps).handOvers e : ℤ) ≤ maxAttempts := by
  intro h
  have hone : (AlertBox.empty.run 0 [.enqueue fillAlert, .drain failingDrain]).handOvers "ep1:ENTRY_FILL" = 1 := by
    decide +kernel
  have hle := h 0 [.enqueue fillAlert, .drain failingDrain] "ep1:ENTRY_FILL"
  rw [hone] at hle
  omega

end AlertBox

end TalonX.Notify
