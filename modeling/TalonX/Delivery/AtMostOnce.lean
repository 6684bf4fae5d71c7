import TalonX.Delivery.Phases

/-!
# A row crosses to the transport at most once

A drain claims a row before it calls the transport, and the row stays with the claim until it is settled. Two kinds of
statements do not ask for the state of the row that they change: the freshness gate, and the statements of `enqueue`.

- `Undisturbed`: these statements find the row where the drain or the `enqueue` that issues them believes it to be;
- `Accounted`: the calls that a row has seen, and who holds it; every turn keeps it (`Turn.accounted`);
- `at_most_once`: every interleaving whose steps are undisturbed; `sent_twice`: one that is not.
-/

set_option autoImplicit false

namespace TalonX.Delivery

open Transact V2 Outbox

variable {ι : Type}

/-! ## Holding a row -/

def Stage.rows : Stage ι → List (DeliveryRow ι)
  | .idle => []
  | .claimed _ rows | .called _ rows | .answered _ rows _ _ => rows

/-- The row is claimed as `a`, and has seen these calls since it was opened. -/
structure Held (a : AttemptId ι) (calls : List (AttemptId ι)) (r : DeliveryRow ι) : Prop where
  attempt : r.attemptId = some a
  state : r.state = .inFlight ∨ r.state = .ambiguous
  calls : r.calls = calls

/-- The state of a row that a process in this stage has claimed. -/
def Stage.Holds : Stage ι → DeliveryRow ι → Prop
  | .idle, _ => False
  | .claimed a _, r => Held a [] r
  | .called a _, r => Held a [a] r
  | .answered a _ _ res, r => Held a (if res.rejected then [] else [a]) r

/-- The process that drew the attempt id of a stage. -/
def Stage.OwnedBy (i : ι) : Stage ι → Prop
  | .idle => True
  | .claimed a _ | .called a _ | .answered a _ _ _ => a.owner = i

def Stage.HeldIn (st : Stage ι) (s : Outbox ι) : Prop :=
  ∀ x ∈ st.rows, ∃ r, s.get x.deliveryId = some r ∧ st.Holds r

theorem Stage.HeldIn.holds {st : Stage ι} {s : Outbox ι} (h : st.HeldIn s) {x r : DeliveryRow ι} (hx : x ∈ st.rows)
    (hr : s.get x.deliveryId = some r) : st.Holds r := by
  obtain ⟨q, hq, hh⟩ := h x hx
  rw [hr] at hq
  exact Option.some.inj hq ▸ hh

theorem Stage.Holds.state {st : Stage ι} {r : DeliveryRow ι} (h : st.Holds r) :
    r.state = .inFlight ∨ r.state = .ambiguous := by
  cases st with
  | idle => exact h.elim
  | claimed a rows => exact Held.state h
  | called a rows => exact Held.state h
  | answered a rows asDigest res => exact Held.state h

theorem Stage.Holds.taken {st : Stage ι} {r : DeliveryRow ι} (h : st.Holds r) : r.state.taken = true := by
  rcases h.state with hs | hs <;> rw [hs] <;> rfl

/-- Who holds a row has drawn its attempt id. -/
theorem Stage.Holds.owner {st : Stage ι} {i : ι} {r : DeliveryRow ι} (h : st.Holds r) (ho : st.OwnedBy i) :
    ∃ a, r.attemptId = some a ∧ a.owner = i := by
  cases st with
  | idle => exact h.elim
  | claimed a rows => exact ⟨a, Held.attempt h, ho⟩
  | called a rows => exact ⟨a, Held.attempt h, ho⟩
  | answered a rows asDigest res => exact ⟨a, Held.attempt h, ho⟩

/-- Two processes do not hold one row. -/
theorem Stage.Holds.unique {st st' : Stage ι} {i j : ι} {r : DeliveryRow ι} (h : st.Holds r) (ho : st.OwnedBy i)
    (h' : st'.Holds r) (ho' : st'.OwnedBy j) : i = j := by
  obtain ⟨a, ha, hi⟩ := h.owner ho
  obtain ⟨b, hb, hj⟩ := h'.owner ho'
  rw [ha] at hb
  rw [← hi, ← hj, Option.some.inj hb]

/-- A write that leaves claim, state and calls of a held row as they are. -/
theorem Stage.Holds.congr {st : Stage ι} {r r' : DeliveryRow ι} (h : st.Holds r) (ha : r'.attemptId = r.attemptId)
    (hs : r'.state = .inFlight ∨ r'.state = .ambiguous) (hc : r'.calls = r.calls) : st.Holds r' := by
  cases st with
  | idle => exact h
  | claimed a rows => exact ⟨ha.trans h.attempt, hs, hc.trans h.calls⟩
  | called a rows => exact ⟨ha.trans h.attempt, hs, hc.trans h.calls⟩
  | answered a rows asDigest res => exact ⟨ha.trans h.attempt, hs, hc.trans h.calls⟩

theorem Stage.HeldIn.modify {st : Stage ι} {s : Outbox ι} {c : DeliveryRow ι → Bool} {w : RowWrite ι}
    (h : st.HeldIn s) (hw : ∀ x ∈ st.rows, ∀ r, s.get x.deliveryId = some r → c r = true → st.Holds r → st.Holds (w.set r)) :
    st.HeldIn (s.modify c w) := by
  intro x hx
  obtain ⟨r, hr, hh⟩ := h x hx
  refine ⟨_, by rw [get_modify, hr, Option.map_some], ?_⟩
  split
  · rename_i hc
    exact hw x hx r hr hc hh
  · exact hh

/-! ## The invariant -/

/-- A row has seen at most one call since it was opened, and none unless it is taken. -/
structure CallsOnce (r : DeliveryRow ι) : Prop where
  once : r.calls.length ≤ 1
  none : r.state.taken = false → r.calls = []

theorem CallsOnce.of_taken {r : DeliveryRow ι} (h : r.calls.length ≤ 1) (ht : r.state.taken = true) : CallsOnce r :=
  ⟨h, fun hf => by rw [ht] at hf; cases hf⟩

theorem Held.callsNil {a : AttemptId ι} {r : DeliveryRow ι} (h : Held a [] r) : r.calls = [] := h.calls

theorem CallsOnce.of_nil {r : DeliveryRow ι} (h : r.calls = []) : CallsOnce r := ⟨by simp [h], fun _ => h⟩

theorem heldIn_idle (s : Outbox ι) : Stage.idle.HeldIn s := fun _ hx => (List.not_mem_nil hx).elim

structure Accounted (s : Outbox ι) (P : ι → Phase ι) : Prop where
  once : ∀ k r, s.get k = some r → CallsOnce r
  held : ∀ i, (P i).stage.HeldIn s
  owned : ∀ i, (P i).stage.OwnedBy i

theorem calls_once_modify {s : Outbox ι} {c : DeliveryRow ι → Bool} {w : RowWrite ι}
    (h : ∀ k r, s.get k = some r → CallsOnce r)
    (hw : ∀ k r, s.get k = some r → c r = true → CallsOnce (w.set r)) :
    ∀ k r, (s.modify c w).get k = some r → CallsOnce r := by
  intro k r hr
  rw [get_modify] at hr
  obtain ⟨q, hq, rfl⟩ := Option.map_eq_some_iff.1 hr
  split
  · rename_i hc
    exact hw k q hq hc
  · exact h k q hq

/-- The statements that do not ask for the state of their row find it where they expect it. -/
def Undisturbed : Label ι → Outbox ι → Prop
  | .retire none k, s => ∀ r ∈ s.get k, r.state.taken = false
  | .approveUpdate k _, s => ∀ r ∈ s.get k, r.state ≠ .inFlight ∧ r.state ≠ .ambiguous
  | .reopen k _, s => ∀ r ∈ s.get k, r.state.taken = false
  | _, _ => True

instance : ∀ (l : Label ι) (s : Outbox ι), Decidable (Undisturbed l s)
  | .retire none k, s => inferInstanceAs (Decidable (∀ r ∈ s.get k, r.state.taken = false))
  | .approveUpdate k _, s => inferInstanceAs (Decidable (∀ r ∈ s.get k, r.state ≠ .inFlight ∧ r.state ≠ .ambiguous))
  | .reopen k _, s => inferInstanceAs (Decidable (∀ r ∈ s.get k, r.state.taken = false))
  | .read, _ | .select, _ | .clock, _ | .uuid, _ | .lookup _ _, _ | .setMeta, _ | .recover _, _ | .defer _, _
  | .retire (some _) _, _ | .insert _ _, _ | .refresh _ _, _ | .claim _ _ _, _ | .claimBatch _ _, _ | .release _ _, _
  | .request _ _ _, _ | .response _, _ | .markSent _ _, _ | .markDigestSent _ _, _ | .markAmbiguous _ _, _
  | .markFailed _ _, _ => isTrue trivial

variable [DecidableEq ι]

section Steps

variable {s s' : Outbox ι} {P : ι → Phase ι} {i : ι} {q : Phase ι} {c : DeliveryRow ι → Bool} {w : RowWrite ι}

theorem Accounted.step (h : Accounted s P) (honce : ∀ k r, s'.get k = some r → CallsOnce r)
    (hself : q.stage.HeldIn s') (howned : q.stage.OwnedBy i) (hother : ∀ j, j ≠ i → (P j).stage.HeldIn s') :
    Accounted s' (Function.update P i q) := by
  refine ⟨honce, fun j => ?_, fun j => ?_⟩
  · by_cases hj : j = i
    · subst hj
      rwa [Function.update_self]
    · rw [Function.update_of_ne hj]
      exact hother j hj
  · by_cases hj : j = i
    · subst hj
      rwa [Function.update_self]
    · rw [Function.update_of_ne hj]
      exact h.owned j

/-- A process may forget what it holds. -/
theorem Accounted.forget {seen : List (DeliveryRow ι)} (h : Accounted s P) (i : ι) :
    Accounted s (Function.update P i ⟨seen, .idle⟩) :=
  h.step h.once (heldIn_idle s) trivial fun j _ => h.held j

omit [DecidableEq ι] in
theorem Stage.HeldIn.congr {st : Stage ι} (h : st.HeldIn s) (hget : ∀ k, s'.get k = s.get k) : st.HeldIn s' := by
  intro x hx
  rw [hget]
  exact h x hx

/-- A call that changes no row. -/
theorem Accounted.aside (h : Accounted s P) (hget : ∀ k, s'.get k = s.get k) (i : ι) :
    Accounted s' (Function.update P i (P i)) :=
  h.step (fun k r hr => h.once k r (hget k ▸ hr)) ((h.held i).congr hget) (h.owned i)
    fun j _ => (h.held j).congr hget

/-- A write that every process survives: it leaves what is held as it is. -/
theorem Accounted.shared (h : Accounted s P) (i : ι)
    (hw : ∀ k r, s.get k = some r → c r = true → CallsOnce (w.set r))
    (hheld : ∀ (st : Stage ι) k r, s.get k = some r → c r = true → st.Holds r → st.Holds (w.set r)) :
    Accounted (s.modify c w) (Function.update P i (P i)) :=
  h.step (calls_once_modify h.once hw) ((h.held i).modify fun _ _ r hr => hheld _ _ r hr) (h.owned i)
    fun j _ => (h.held j).modify fun _ _ r hr => hheld _ _ r hr

/-- A write on rows that the process holds itself. -/
theorem Accounted.own (h : Accounted s P) (hc : ∀ k r, s.get k = some r → c r = true → (P i).stage.Holds r)
    (hw : ∀ k r, s.get k = some r → (P i).stage.Holds r → CallsOnce (w.set r))
    (hself : q.stage.HeldIn (s.modify c w)) (howned : q.stage.OwnedBy i) :
    Accounted (s.modify c w) (Function.update P i q) :=
  h.step (calls_once_modify h.once fun k r hr hcr => hw k r hr (hc k r hr hcr)) hself howned fun j hj =>
    (h.held j).modify fun _ _ r hr hcr hh =>
      absurd (hh.unique (h.owned j) (hc _ r hr hcr) (h.owned i)) hj

omit [DecidableEq ι] in
/-- Dropping a row that is written leaves the others of the stage as they are. -/
theorem heldIn_drop {st st' : Stage ι} {k : DeliveryId} (h : st.HeldIn s) (hrows : st'.rows = dropRow k st.rows)
    (hholds : ∀ r, st.Holds r → st'.Holds r) (hc : ∀ r, c r = true → r.deliveryId = k) : st'.HeldIn (s.modify c w) := by
  intro x hx
  rw [hrows, mem_dropRow] at hx
  obtain ⟨r, hr, hh⟩ := h x hx.1
  have hcr : ¬ c r = true := fun hcr => hx.2 ((deliveryId_of_get hr).symm.trans (hc r hcr))
  exact ⟨r, by rw [get_modify, hr, Option.map_some, if_neg hcr], hholds r hh⟩

omit [DecidableEq ι] in
/-- A stage after the rows that it holds were written. -/
theorem heldIn_write {st st' : Stage ι} (h : st.HeldIn s) (hrows : ∀ x ∈ st'.rows, x ∈ st.rows)
    (hc : ∀ x ∈ st.rows, ∀ r, s.get x.deliveryId = some r → st.Holds r → c r = true)
    (hw : ∀ r, st.Holds r → st'.Holds (w.set r)) : st'.HeldIn (s.modify c w) := by
  intro x hx
  obtain ⟨r, hr, hh⟩ := h x (hrows x hx)
  exact ⟨w.set r, by rw [get_modify, hr, Option.map_some, if_pos (hc x (hrows x hx) r hr hh)], hw r hh⟩

omit [DecidableEq ι] in
/-- The rows with the id of a row of the stage. -/
theorem holds_of_id {st : Stage ι} (h : st.HeldIn s) {x : DeliveryRow ι} (hx : x ∈ st.rows) {k : DeliveryId}
    {r : DeliveryRow ι} (hr : s.get k = some r) (hid : r.deliveryId = x.deliveryId) : st.Holds r := by
  have hk : k = x.deliveryId := (deliveryId_of_get hr).symm.trans hid
  exact h.holds hx (hk ▸ hr)

omit [DecidableEq ι] in
theorem holds_of_mem_ids {st : Stage ι} (h : st.HeldIn s) {k : DeliveryId} {r : DeliveryRow ι} (hr : s.get k = some r)
    (hid : r.deliveryId ∈ st.rows.map (·.deliveryId)) : st.Holds r := by
  obtain ⟨x, hx, hxr⟩ := List.mem_map.1 hid
  exact holds_of_id h hx hr hxr.symm

omit [DecidableEq ι] in
theorem winsClaim_eq {k : DeliveryId} {now : Instant} (h : winsClaim k now s = true) :
    ∃ r, s.get k = some r ∧ claimable k now r = true := by
  cases hr : s.get k with
  | none => simp [winsClaim, hr] at h
  | some r => exact ⟨r, rfl, by simpa [winsClaim, hr] using h⟩

omit [DecidableEq ι] in
theorem pending_of_claimable {k : DeliveryId} {now : Instant} {r : DeliveryRow ι} (h : claimable k now r = true) :
    r.state = .pending := by
  simp only [claimable, Bool.and_eq_true, decide_eq_true_eq] at h
  exact h.1.2

/-- Claims take pending rows, which nobody holds. -/
theorem Accounted.claim {a : AttemptId ι} {now : Instant} (h : Accounted s P)
    (hc : ∀ r, c r = true → r.state = .pending) (hself : q.stage.HeldIn (s.modify c (claimWrite a now)))
    (howned : q.stage.OwnedBy i) : Accounted (s.modify c (claimWrite a now)) (Function.update P i q) := by
  refine h.step (calls_once_modify h.once fun k r hr hcr => .of_nil ?_) hself howned fun j _ => ?_
  · exact (h.once k r hr).none (by rw [hc r hcr]; rfl)
  · refine (h.held j).modify fun _ _ r hr hcr hh => ?_
    rcases hh.state with hs | hs <;> rw [hc r hcr] at hs <;> cases hs

/-- A write on rows that are not taken, and so held by nobody. -/
theorem Accounted.free {p : Phase ι} {k : DeliveryId} (h : Accounted s P) (hp : P i = p)
    (hfree : ∀ r ∈ s.get k, r.state.taken = false) (hcalls : ∀ r, (w.set r).calls = r.calls) :
    Accounted (s.modify (·.deliveryId = k) w) (Function.update P i p) := by
  have hk : ∀ k' r, s.get k' = some r → decide (r.deliveryId = k) = true → r.state.taken = false := by
    intro k' r hr hid
    obtain rfl : k' = k := (deliveryId_of_get hr).symm.trans (by simpa using hid)
    exact hfree r hr
  refine hp ▸ h.shared i (fun k' r hr hid => .of_nil ?_) fun st k' r hr hid hh => ?_
  · rw [hcalls, (h.once k' r hr).none (hk k' r hr hid)]
  · have ht := hh.taken
    rw [hk k' r hr hid] at ht
    cases ht

/-- A write on one row that the process holds, and that it gives up with it. -/
theorem Accounted.ownRow {seen : List (DeliveryRow ι)} {st st' : Stage ι} {x : DeliveryRow ι} (h : Accounted s P)
    (hp : P i = ⟨seen, st⟩) (hx : x ∈ st.rows) (hid : ∀ r, c r = true → r.deliveryId = x.deliveryId)
    (hw : ∀ r, CallsOnce r → st.Holds r → CallsOnce (w.set r)) (hrows : st'.rows = dropRow x.deliveryId st.rows)
    (hholds : ∀ r, st.Holds r → st'.Holds r) (howned : st.OwnedBy i → st'.OwnedBy i) :
    Accounted (s.modify c w) (Function.update P i ⟨seen, st'⟩) := by
  have hheld : st.HeldIn s := by simpa [hp] using h.held i
  have hown : st.OwnedBy i := by simpa [hp] using h.owned i
  refine h.own (fun k r hr hcr => ?_) (fun k r hr hh => ?_) (heldIn_drop hheld hrows hholds hid) (howned hown)
  · rw [hp]
    exact holds_of_id hheld hx hr (hid r hcr)
  · rw [hp] at hh
    exact hw r (h.once k r hr) hh

/-- A write on all rows that the process holds. -/
theorem Accounted.ownRows {seen : List (DeliveryRow ι)} {st st' : Stage ι} (h : Accounted s P) (hp : P i = ⟨seen, st⟩)
    (hids : ∀ r, c r = true → r.deliveryId ∈ st.rows.map (·.deliveryId))
    (hw : ∀ r, CallsOnce r → st.Holds r → CallsOnce (w.set r)) (hself : st.HeldIn s → st'.HeldIn (s.modify c w))
    (howned : st.OwnedBy i → st'.OwnedBy i) : Accounted (s.modify c w) (Function.update P i ⟨seen, st'⟩) := by
  have hheld : st.HeldIn s := by simpa [hp] using h.held i
  have hown : st.OwnedBy i := by simpa [hp] using h.owned i
  refine h.own (fun k r hr hcr => ?_) (fun k r hr hh => ?_) (hself hheld) (howned hown)
  · rw [hp]
    exact holds_of_mem_ids hheld hr (hids r hcr)
  · rw [hp] at hh
    exact hw r (h.once k r hr) hh

omit [DecidableEq ι] in
theorem id_of_settleable {k : DeliveryId} {r : DeliveryRow ι} (h : settleable k r = true) : r.deliveryId = k := by
  simp only [settleable, Bool.and_eq_true, decide_eq_true_eq] at h
  exact h.1

omit [DecidableEq ι] in
theorem mem_ids {rows : List (DeliveryRow ι)} {x r : DeliveryRow ι} (hx : x ∈ rows) (hr : s.get x.deliveryId = some r) :
    r.deliveryId ∈ rows.map (·.deliveryId) := deliveryId_of_get hr ▸ List.mem_map_of_mem hx

/-- A new row. -/
theorem Accounted.insert {k : DeliveryId} {m : Message} {d : Disposition} {now : Instant} (h : Accounted s P)
    (hi : s.insert k m d now = some s') (i : ι) : Accounted s' (Function.update P i (P i)) := by
  have hget := get_insert hi
  obtain ⟨rows, hrows, rfl⟩ := Option.map_eq_some_iff.1 hi
  have hheld : ∀ j, (P j).stage.HeldIn { s with rows := rows } := fun j x hx => by
    obtain ⟨r, hr, hh⟩ := h.held j x hx
    exact ⟨r, by rw [hget, hr, Option.some_or], hh⟩
  refine h.step (fun k' r hr => ?_) (hheld i) (h.owned i) fun j _ => hheld j
  rw [hget] at hr
  cases hold : s.get k' with
  | some r' =>
    rw [hold, Option.some_or] at hr
    exact Option.some.inj hr ▸ h.once k' r' hold
  | none =>
    rw [hold, Option.none_or] at hr
    split at hr
    · exact Option.some.inj hr ▸ .of_nil rfl
    · cases hr

/-- The transport is called for the rows of a claim. -/
theorem Accounted.request {seen : List (DeliveryRow ι)} {a : AttemptId ι} {rows rows' : List (DeliveryRow ι)}
    (h : Accounted s P) (hp : P i = ⟨seen, .claimed a rows⟩) (hperm : rows'.Perm rows) (shown : ℕ) :
    Accounted (s.request rows' shown a) (Function.update P i ⟨seen, .called a rows'⟩) := by
  have hmod : Accounted (s.modify (fun r => r.deliveryId ∈ rows'.map (·.deliveryId)) (callWrite a))
      (Function.update P i ⟨seen, .called a rows'⟩) := by
    refine h.ownRows hp (fun r hr => ?_) (fun r _ hh => ?_) (fun hheld => ?_) id
    · exact (hperm.map _).mem_iff.1 (by simpa using hr)
    · have hcalls : r.calls = [] := Held.calls hh
      exact .of_taken (by simp [callWrite, hcalls]) hh.taken
    · refine heldIn_write hheld (fun x hx => hperm.mem_iff.1 hx) (fun x hx r hr _ => ?_) fun r hh => ?_
      · exact decide_eq_true (mem_ids (hperm.mem_iff.2 hx) hr)
      · have hr : Held a [] r := hh
        exact ⟨hr.attempt, hr.state, by simp [callWrite, hr.calls]⟩
  exact ⟨hmod.once, hmod.held, hmod.owned⟩

/-- The transport answers. -/
theorem Accounted.response {seen : List (DeliveryRow ι)} {a : AttemptId ι} {rows : List (DeliveryRow ι)}
    {asDigest : Bool} (h : Accounted s P) (hp : P i = ⟨seen, .called a rows⟩) :
    Accounted (s.respond rows asDigest a)
      (Function.update P i ⟨seen, .answered a rows asDigest (s.env.answer s.consulted)⟩) := by
  have hmod : Accounted (s.settledCalls rows a (s.env.answer s.consulted))
      (Function.update P i ⟨seen, .answered a rows asDigest (s.env.answer s.consulted)⟩) := by
    unfold settledCalls
    split
    · rename_i hrej
      refine h.ownRows hp (fun r hr => ?_) (fun r _ hh => .of_nil ?_) (fun hheld => ?_) id
      · simpa [Stage.rows] using hr
      · have hcalls : r.calls = [a] := Held.calls hh
        simp [rejectWrite, hcalls]
      · refine heldIn_write hheld (fun x hx => hx) (fun x hx r hr _ => decide_eq_true (mem_ids hx hr)) fun r hh => ?_
        have hr : Held a [a] r := hh
        exact ⟨hr.attempt, hr.state, by simp [rejectWrite, hrej, hr.calls]⟩
    · rename_i hrej
      have hheld : (Stage.called a rows).HeldIn s := by simpa [hp] using h.held i
      have hown : (Stage.called a rows).OwnedBy i := by simpa [hp] using h.owned i
      refine h.step h.once (fun x hx => ?_) hown fun j _ => h.held j
      obtain ⟨r, hr, hh⟩ := hheld x hx
      have hcalls : r.calls = [a] := Held.calls hh
      exact ⟨r, hr, Held.attempt hh, Held.state hh, by simp [hrej, hcalls]⟩
  exact ⟨hmod.once, hmod.held, hmod.owned⟩

/-- One turn of a process, where the guard of its label holds. -/
theorem Turn.accounted {l : Label ι} {p : Phase ι} (h : Accounted s P) (hE : Undisturbed l s)
    (ht : Turn i p l s s' q) (hp : P i = p) : Accounted s' (Function.update P i q) := by
  cases ht with
  | aside ha =>
    have hget : ∀ k, s'.get k = s.get k := fun k => by rw [Outbox.get, Outbox.get, ha.rows]
    exact hp ▸ h.aside hget i
  | select hmem hnodup => exact h.forget i
  | recover =>
    refine hp ▸ h.shared i (fun k r hr _ => .of_taken (h.once k r hr).once rfl) fun st k r _ _ hh => ?_
    exact hh.congr rfl (Or.inr rfl) rfl
  | defer =>
    refine hp ▸ h.shared i (fun k r hr _ => ⟨(h.once k r hr).once, (h.once k r hr).none⟩) fun st k r _ _ hh => ?_
    exact hh.congr rfl hh.state rfl
  | retire hstate => exact h.free hp hE fun _ => rfl
  | retireClaimed hx hstate =>
    exact h.ownRow hp hx (fun r hr => by simpa using hr) (fun r _ hh => .of_nil (Held.callsNil (r := r) hh)) rfl (fun _ hr => hr) id
  | insert hi => exact hp ▸ h.insert hi i
  | refresh =>
    refine hp ▸ h.shared i (fun k r hr _ => ⟨(h.once k r hr).once, (h.once k r hr).none⟩) fun st k r _ _ hh => ?_
    exact hh.congr rfl hh.state rfl
  | @approveUpdate _ _ k m prev =>
    refine hp ▸ h.shared i (fun k' r _ _ => .of_nil rfl) fun st k' r hr hid hh => ?_
    obtain rfl : k' = k := (deliveryId_of_get hr).symm.trans (by simpa using hid)
    exact absurd hh.state (not_or.2 (hE r hr))
  | reopen => exact h.free hp hE fun _ => rfl
  | @claim seen stage _ row a now ha hrow hw =>
    refine h.claim (fun r hr => pending_of_claimable hr) ?_ ha
    obtain ⟨r, hr, hcl⟩ := winsClaim_eq hw
    intro x hx
    obtain rfl : x = row := List.mem_singleton.1 hx
    refine ⟨_, by rw [get_modify, hr, Option.map_some, if_pos hcl], rfl, Or.inl rfl, ?_⟩
    exact (h.once _ r hr).none (by rw [pending_of_claimable hcl]; rfl)
  | @claimBatch seen stage _ rows a now ha hrows hnodup =>
    refine h.claim (fun r hr => ?_) (fun x hx => ?_) ha
    · rw [Bool.and_eq_true] at hr
      simpa using hr.2
    · obtain ⟨hx, hpend⟩ := List.mem_filter.1 hx
      cases hr : s.get x.deliveryId with
      | none => simp [hr] at hpend
      | some r =>
        have hstate : r.state = .pending := by simpa [hr] using hpend
        have hid : r.deliveryId ∈ rows.map (·.deliveryId) := mem_ids hx hr
        refine ⟨_, by rw [get_modify, hr, Option.map_some, if_pos (by simp [hid, hstate])], rfl, Or.inl rfl, ?_⟩
        exact (h.once _ r hr).none (by rw [hstate]; rfl)
  | release hx =>
    refine h.ownRow hp hx (fun r hr => ?_) (fun r _ hh => .of_nil (Held.callsNil (r := r) hh)) rfl (fun _ hr => hr) id
    simp only [Bool.and_eq_true, decide_eq_true_eq] at hr
    exact hr.1.1
  | request hperm => exact h.request hp hperm _
  | response => exact h.response hp
  | markSent hok =>
    refine h.ownRows hp (fun r hr => ?_) (fun r hr _ => .of_taken hr.once rfl) (fun _ => heldIn_idle _) fun _ => trivial
    exact List.mem_map.2 ⟨_, List.mem_cons_self, (id_of_settleable hr).symm⟩
  | markDigestSent hok =>
    refine h.ownRows hp (fun r hr => ?_) (fun r hr _ => .of_taken hr.once rfl) (fun _ => heldIn_idle _) fun _ => trivial
    rw [Bool.and_eq_true] at hr
    simpa [Stage.rows] using hr.1
  | markAmbiguous hx hres =>
    exact h.ownRow hp hx (fun r hr => id_of_settleable hr) (fun r hr _ => .of_taken hr.once rfl) rfl (fun _ hr => hr) id
  | @markFailed _ _ a rows asDigest res n error retry permanent now x hx hres =>
    refine h.ownRow hp hx (fun r hr => by simpa using hr) (fun r _ hh => .of_nil ?_) rfl (fun _ hr => hr) id
    have hcalls : r.calls = if res.rejected then [] else [a] := Held.calls hh
    rw [if_pos hres] at hcalls
    split <;> exact hcalls

end Steps

/-! ## Runs -/

section Runs

/-- The steps that find their rows where they expect them. -/
def undisturbed (S : Sys ι (Label ι) (Outbox ι)) : Move ι (Label ι) → Prop
  | .commit _ l => Undisturbed l S.store
  | _ => True

instance (S : Sys ι (Label ι) (Outbox ι)) (i : ι) (l : Label ι) : Decidable (undisturbed S (.commit i l)) :=
  inferInstanceAs (Decidable (Undisturbed l S.store))

/-- The statements of `enqueue`. -/
def Label.enqueues : Label ι → Bool
  | .insert _ _ | .refresh _ _ | .approveUpdate _ _ | .reopen _ _ => true
  | _ => false

omit [DecidableEq ι] in
theorem accounted_empty (env : Environment) : Accounted (Outbox.empty env : Outbox ι) fun _ => ⟨[], .idle⟩ :=
  ⟨fun k r h => by simp [Outbox.get, Outbox.empty, Table.get] at h, fun _ => heldIn_idle _, fun _ => trivial⟩

theorem reach_accounted {env : Environment} {S : Sys ι (Label ι) (Outbox ι)}
    (h : Reach Starts undisturbed (Sys.idle (.empty env)) S) : ∃ P, InPhase Accounted Turn S P :=
  h.follows (fun _ _ => starts_follow) (fun _ _ _ ha => ha) (fun _ _ i h => h.forget i)
    (fun _ _ _ _ _ _ h hE ht => ht.accounted h hE rfl) (accounted_empty env)

omit [DecidableEq ι] in
/-- What happened to a row that left its taken state. -/
theorem written_of_left {s : Outbox ι} {c : DeliveryRow ι → Bool} {w : RowWrite ι} {k : DeliveryId}
    {r r' : DeliveryRow ι} (hr : s.get k = some r) (hr' : (s.modify c w).get k = some r') (htaken : r.state.taken = true)
    (hfree : r'.state.taken = false) : c r = true ∧ (w.set r).state.taken = false := by
  rw [get_modify, hr, Option.map_some, Option.some_inj] at hr'
  subst hr'
  by_cases hc : c r = true
  · exact ⟨hc, by simpa [hc] using hfree⟩
  · simp [hc, htaken] at hfree

/-- A row that is taken leaves its state through its claimant only. -/
theorem Turn.releases {i : ι} {p q : Phase ι} {l : Label ι} {s s' : Outbox ι} (ht : Turn i p l s s' q)
    (hE : Undisturbed l s) (hl : l.enqueues = false) (hheld : p.stage.HeldIn s) (howned : p.stage.OwnedBy i)
    {k : DeliveryId} {r r' : DeliveryRow ι} (hr : s.get k = some r) (hr' : s'.get k = some r')
    (htaken : r.state.taken = true) (hfree : r'.state.taken = false) : ∃ a, r.attemptId = some a ∧ a.owner = i := by
  have hsame : r ≠ r' := fun e => by
    rw [← e, htaken] at hfree
    cases hfree
  cases ht with
  | aside ha =>
    rw [Outbox.get, ha.rows] at hr'
    exact absurd (Option.some.inj (hr.symm.trans hr')) hsame
  | select hmem hnodup => exact absurd (Option.some.inj (hr.symm.trans hr')) hsame
  | recover => cases (written_of_left hr hr' htaken hfree).2
  | defer =>
    have hw : r.state.taken = false := (written_of_left hr hr' htaken hfree).2
    rw [htaken] at hw
    cases hw
  | @retire _ _ k' state reason hstate =>
    obtain ⟨hc, -⟩ := written_of_left hr hr' htaken hfree
    obtain rfl : k = k' := (deliveryId_of_get hr).symm.trans (by simpa using hc)
    have hnot := hE r hr
    rw [htaken] at hnot
    cases hnot
  | retireClaimed hx hstate =>
    obtain ⟨hc, -⟩ := written_of_left hr hr' htaken hfree
    exact (holds_of_id hheld hx hr (by simpa using hc)).owner howned
  | insert hi => cases hl
  | refresh => cases hl
  | approveUpdate => cases hl
  | reopen => cases hl
  | claim ha hrow hw => cases (written_of_left hr hr' htaken hfree).2
  | claimBatch ha hrows hnodup => cases (written_of_left hr hr' htaken hfree).2
  | release hx =>
    obtain ⟨hc, -⟩ := written_of_left hr hr' htaken hfree
    simp only [Bool.and_eq_true, decide_eq_true_eq] at hc
    exact (holds_of_id hheld hx hr hc.1.1).owner howned
  | request hperm =>
    have hw : r.state.taken = false := (written_of_left hr hr' htaken hfree).2
    rw [htaken] at hw
    cases hw
  | @response _ _ a rows asDigest =>
    have hget : (s.settledCalls rows a (s.env.answer s.consulted)).get k = some r' := hr'
    unfold settledCalls at hget
    split at hget
    · have hw : r.state.taken = false := (written_of_left hr hget htaken hfree).2
      rw [htaken] at hw
      cases hw
    · exact absurd (Option.some.inj (hr.symm.trans hget)) hsame
  | markSent hok => cases (written_of_left hr hr' htaken hfree).2
  | markDigestSent hok => cases (written_of_left hr hr' htaken hfree).2
  | markAmbiguous hx hres => cases (written_of_left hr hr' htaken hfree).2
  | markFailed hx hres =>
    obtain ⟨hc, -⟩ := written_of_left hr hr' htaken hfree
    exact (holds_of_id hheld hx hr (by simpa using hc)).owner howned

/-- In every interleaving of drains and enqueues whose steps are undisturbed, whatever raises, stops or is cancelled: the
transport was called for a row at most once since it was opened, clean rejections apart, and only the process that claimed
a row takes it out of `IN_FLIGHT`, `SENT` or `AMBIGUOUS` to a state in which it is not taken. -/
theorem at_most_once {env : Environment} {S : Sys ι (Label ι) (Outbox ι)}
    (h : Reach Starts undisturbed (Sys.idle (.empty env)) S) :
    (∀ k r, S.store.get k = some r → r.calls.length ≤ 1) ∧
      ∀ i l S', Step Starts S (.commit i l) S' → undisturbed S (.commit i l) → l.enqueues = false →
        ∀ k r r', S.store.get k = some r → S'.store.get k = some r' → r.state.taken = true → r'.state.taken = false →
          ∃ a, r.attemptId = some a ∧ a.owner = i := by
  obtain ⟨P, hP⟩ := reach_accounted h
  refine ⟨fun k r hr => (hP.inv.once k r hr).once, fun i l S' hs ha hl k r r' hr hr' htaken hfree => ?_⟩
  obtain ⟨q, ht⟩ := hP.move hs
  exact ht.releases ha hl (hP.inv.held i) (hP.inv.owned i) hr hr' htaken hfree

end Runs

/-! ## Samples -/

/-- A card, and a world in which the first four lookups find its publication and the later ones do not. -/
def card : Message := ⟨"E1", "AAA", some .high, .immediate, "text", "hash", []⟩

def fadingEvidence (found : ℕ) : Environment where
  clock _ := 0
  evidence n _ := if n < found then .found 0 true else .missing
  answer n := .result ⟨true, none, none, false, false, some n⟩

/-- A drain of immediate rows. -/
def drain (enforce : Bool) : DrainConfig := ⟨.enabled, true, none, none, enforce, cardMaxAgeSeconds, true, 90, none, false⟩

/-- Process `0` enqueues a card, `1` and `2` drain, `3` enqueues it again, `4` drains. -/
def twoDrains (found : ℕ) : Sys ℕ (Label ℕ) (Outbox ℕ) :=
  (((((Sys.idle (.empty (fadingEvidence found))).start 0 (enqueue "d" card .new (some 0))).start 1
    (processPending 1 (drain false) (some 0))).start 2 (processPending 2 (drain true) (some 0))).start 3
      (enqueue "d" card .new (some 0))).start 4 (processPending 4 (drain false) (some 0))

theorem reach_twoDrains {allow : Sys ℕ (Label ℕ) (Outbox ℕ) → Move ℕ (Label ℕ) → Prop} {found : ℕ}
    (ha : ∀ S i, allow S (.start i)) :
    Reach Starts allow (Sys.idle (.empty (fadingEvidence found))) (twoDrains found) :=
  ((((Reach.refl.step (.start (i := 0) rfl (.enqueue _ _ _ _)) (ha _ _)).step
    (.start (i := 1) rfl (.processPending _ _)) (ha _ _)).step (.start (i := 2) rfl (.processPending _ _)) (ha _ _)).step
      (.start (i := 3) rfl (.enqueue _ _ _ _)) (ha _ _)).step (.start (i := 4) rfl (.processPending _ _)) (ha _ _)

theorem at_most_once_sample :
    let S := (twoDrains 1).commits (List.replicate 2 0 ++ List.replicate 9 1)
    (∃ r, S.store.get "d" = some r ∧ r.state = .sent) ∧ ∀ k r, S.store.get k = some r → r.calls.length ≤ 1 := by
  intro S
  have hreach : Reach Starts undisturbed (Sys.idle (.empty (fadingEvidence 1))) S :=
    (reach_twoDrains fun _ _ => trivial).permits (by decide +kernel)
  have hsent : (S.store.get "d").map (·.state) = some .sent := by decide +kernel
  exact ⟨Option.map_eq_some_iff.1 hsent, (at_most_once hreach).1⟩

/-- The second drain selects the row before the first one sends it, and suppresses it afterwards for want of evidence;
enqueued again, it is sent again. -/
theorem sent_twice :
    ∃ S : Sys ℕ (Label ℕ) (Outbox ℕ), Reach Starts (fun _ _ => True) (Sys.idle (.empty (fadingEvidence 1))) S ∧
      ∃ r, S.store.get "d" = some r ∧ r.calls.length = 2 := by
  have hcalls : (((twoDrains 1).commits (List.replicate 2 0 ++ List.replicate 5 2 ++ List.replicate 9 1 ++
      List.replicate 3 2 ++ List.replicate 2 3 ++ List.replicate 7 4)).store.get "d").map (·.calls.length) = some 2 := by
    decide +kernel
  exact ⟨_, (reach_twoDrains fun _ _ => trivial).commits _, Option.map_eq_some_iff.1 hcalls⟩

/-- Between the two, the row is taken out of `SENT` by a drain that has not claimed it. -/
theorem sent_row_suppressed :
    let S := (twoDrains 1).commits (List.replicate 2 0 ++ List.replicate 5 2 ++ List.replicate 9 1 ++ List.replicate 2 2)
    (S.store.get "d").map (fun r => (r.state, r.attemptId.map (·.owner))) = some (.sent, some 1) ∧
      ((S.commit 2).store.get "d").map (·.state) = some .suppressed := by
  decide +kernel

end TalonX.Delivery
