import TalonX.Delivery.AtMostOnce

/-!
# A sent row records what was sent

A drain sends the rows as it selected them. The row that it marks `SENT` holds the same text as long as nothing replaced
the text between the selection and the claim, or while the row was in flight.

- `Faithful`: what the claims, the refreshes and the marks must find;
- `Recorded`: the text of a sent row is on the wire; the text of a claimed row is the selected one (`Turn.recorded`);
- `sent_rows_recorded`: every interleaving whose steps are faithful; `newer_text_lost`: one that is not.
-/

set_option autoImplicit false

namespace TalonX.Delivery

open Transact V2 Outbox

variable {ι : Type}

def Stage.attempt : Stage ι → Option (AttemptId ι)
  | .idle => none
  | .claimed a _ | .called a _ | .answered a _ _ _ => some a

theorem Stage.OwnedBy.owner {st : Stage ι} {i : ι} (h : st.OwnedBy i) {a : AttemptId ι} (ha : st.attempt = some a) :
    a.owner = i := by
  cases st <;> cases ha <;> exact h

/-- The rows of a stage that has called the transport are on the wire. -/
def Stage.Wired (s : Outbox ι) : Stage ι → Prop
  | .idle | .claimed _ _ => True
  | .called a rows | .answered a rows _ _ => ∀ x ∈ rows, (a, x) ∈ s.wire

/-- While a row is in flight under the claim of the stage, it holds the text that was selected. -/
def Stage.Snapshot (s : Outbox ι) (st : Stage ι) : Prop :=
  ∀ x ∈ st.rows, ∀ r, s.get x.deliveryId = some r → r.attemptId = st.attempt → r.state = .inFlight →
    r.content = x.content

/-- The transport has received the text of the row, under the claim that the row names. -/
def OnWire (s : Outbox ι) (r : DeliveryRow ι) : Prop :=
  ∃ a x, r.attemptId = some a ∧ (a, x) ∈ s.wire ∧ x.deliveryId = r.deliveryId ∧ x.content = r.content

structure Recorded (s : Outbox ι) (P : ι → Phase ι) : Prop where
  sent : ∀ k r, s.get k = some r → r.state = .sent → OnWire s r
  snapshot : ∀ i, (P i).stage.Snapshot s
  wired : ∀ i, (P i).stage.Wired s
  owned : ∀ i, (P i).stage.OwnedBy i

/-- A claim finds the text that was selected, a refresh finds no row whose text is on its way, a digest lists all its rows,
and a mark finds the row in flight under its own claim. -/
def Faithful : Label ι → Outbox ι → Prop
  | .claim row _ now, s => ∀ r ∈ s.get row.deliveryId, claimable row.deliveryId now r = true → r.content = row.content
  | .claimBatch rows _, s => ∀ x ∈ rows, ∀ r ∈ s.get x.deliveryId, r.state = .pending → r.content = x.content
  | .refresh k m, s => ∀ r ∈ s.get k, r.state = .inFlight ∨ r.state = .sent → r.content = m.content
  | .request rows shown _, _ => rows.length ≤ shown
  | .markSent k a, s =>
    ∀ r ∈ s.get k, r.state = .pending ∨ r.state = .inFlight → r.state = .inFlight ∧ r.attemptId = some a
  | .markDigestSent ids a, s => ∀ k ∈ ids, ∀ r ∈ s.get k, r.state = .inFlight → r.attemptId = some a
  | _, _ => True

/-- The statement stores the text of this message in this row. -/
def Label.stores (k : DeliveryId) (m : Message) : Label ι → Prop
  | .refresh k' m' | .approveUpdate k' m' | .reopen k' m' => k' = k ∧ m' = m
  | _ => False

instance [DecidableEq ι] : ∀ (l : Label ι) (s : Outbox ι), Decidable (Faithful l s)
  | .claim row _ now, s => inferInstanceAs (Decidable
      (∀ r ∈ s.get row.deliveryId, claimable row.deliveryId now r = true → r.content = row.content))
  | .claimBatch rows _, s => inferInstanceAs (Decidable
      (∀ x ∈ rows, ∀ r ∈ s.get x.deliveryId, r.state = .pending → r.content = x.content))
  | .refresh k m, s => inferInstanceAs (Decidable
      (∀ r ∈ s.get k, r.state = .inFlight ∨ r.state = .sent → r.content = m.content))
  | .request rows shown _, _ => inferInstanceAs (Decidable (rows.length ≤ shown))
  | .markSent k a, s => inferInstanceAs (Decidable
      (∀ r ∈ s.get k, r.state = .pending ∨ r.state = .inFlight → r.state = .inFlight ∧ r.attemptId = some a))
  | .markDigestSent ids a, s => inferInstanceAs (Decidable
      (∀ k ∈ ids, ∀ r ∈ s.get k, r.state = .inFlight → r.attemptId = some a))
  | .read, _ | .select, _ | .clock, _ | .uuid, _ | .lookup _ _, _ | .setMeta, _ | .recover _, _ | .defer _, _
  | .retire _ _, _ | .insert _ _, _ | .approveUpdate _ _, _ | .reopen _ _, _ | .release _ _, _ | .response _, _
  | .markAmbiguous _ _, _ | .markFailed _ _, _ => isTrue trivial

/-! ## Steps -/

variable [DecidableEq ι]

section Steps

variable {s s' : Outbox ι} {P : ι → Phase ι} {i : ι} {q : Phase ι} {c : DeliveryRow ι → Bool} {w : RowWrite ι}

omit [DecidableEq ι] in
theorem OnWire.mono {r : DeliveryRow ι} (h : OnWire s r) (hw : ∀ y ∈ s.wire, y ∈ s'.wire) : OnWire s' r := by
  obtain ⟨a, x, ha, hx, hid, hc⟩ := h
  exact ⟨a, x, ha, hw _ hx, hid, hc⟩

omit [DecidableEq ι] in
theorem Stage.Wired.mono {st : Stage ι} (h : st.Wired s) (hw : ∀ y ∈ s.wire, y ∈ s'.wire) : st.Wired s' := by
  cases st with
  | idle => trivial
  | claimed a rows => trivial
  | called a rows => exact fun x hx => hw _ (h x hx)
  | answered a rows asDigest res => exact fun x hx => hw _ (h x hx)

/-- Where the write brings a row to `SENT` or `IN_FLIGHT`, the row was in that state already, with this text and claim. -/
def Quiet (s : Outbox ι) (c : DeliveryRow ι → Bool) (w : RowWrite ι) : Prop :=
  ∀ k r, s.get k = some r → c r = true → (w.set r).state = .sent ∨ (w.set r).state = .inFlight →
    (w.set r).state = r.state ∧ (w.set r).content = r.content ∧ (w.set r).attemptId = r.attemptId

omit [DecidableEq ι] in
/-- A row in one of the two states was there before. -/
theorem Quiet.before (hq : Quiet s c w) {k : DeliveryId} {r' : DeliveryRow ι} (hr : (s.modify c w).get k = some r')
    (hs : r'.state = .sent ∨ r'.state = .inFlight) : ∃ r, s.get k = some r ∧ r'.state = r.state ∧
      r'.content = r.content ∧ r'.attemptId = r.attemptId ∧ r'.deliveryId = r.deliveryId := by
  rw [get_modify] at hr
  obtain ⟨r, hget, rfl⟩ := Option.map_eq_some_iff.1 hr
  refine ⟨r, hget, ?_⟩
  by_cases hc : c r = true
  · rw [if_pos hc] at hs ⊢
    obtain ⟨h1, h2, h3⟩ := hq k r hget hc hs
    exact ⟨h1, h2, h3, w.deliveryId r⟩
  · rw [if_neg hc]
    exact ⟨rfl, rfl, rfl, rfl⟩

omit [DecidableEq ι] in
theorem Quiet.sent (hq : Quiet s c w) (h : ∀ k r, s.get k = some r → r.state = .sent → OnWire s r) :
    ∀ k r, (s.modify c w).get k = some r → r.state = .sent → OnWire s r := by
  intro k r' hr' hs
  obtain ⟨r, hr, hst, hcon, hatt, hid⟩ := hq.before hr' (Or.inl hs)
  obtain ⟨a, x, ha, hx, hxid, hxc⟩ := h k r hr (hst ▸ hs)
  exact ⟨a, x, hatt.trans ha, hx, hxid.trans hid.symm, hxc.trans hcon.symm⟩

omit [DecidableEq ι] in
theorem Quiet.snapshot (hq : Quiet s c w) {st : Stage ι} (h : st.Snapshot s) : st.Snapshot (s.modify c w) := by
  intro x hx r' hr' hatt hs
  obtain ⟨r, hr, hst, hcon, hatt', -⟩ := hq.before hr' (Or.inr hs)
  exact hcon.trans (h x hx r hr (hatt' ▸ hatt) (hst ▸ hs))

omit [DecidableEq ι] in
/-- A stage with fewer rows. -/
theorem Stage.Snapshot.sub {st st' : Stage ι} (h : st.Snapshot s) (hrows : ∀ x ∈ st'.rows, x ∈ st.rows)
    (hatt : st'.attempt = st.attempt) : st'.Snapshot s := fun x hx r hr ha => h x (hrows x hx) r hr (hatt ▸ ha)

theorem Recorded.step (h : Recorded s P) (hsent : ∀ k r, s'.get k = some r → r.state = .sent → OnWire s' r)
    (hwire : ∀ y ∈ s.wire, y ∈ s'.wire) (hself : q.stage.Snapshot s' ∧ q.stage.Wired s' ∧ q.stage.OwnedBy i)
    (hother : ∀ j, j ≠ i → (P j).stage.Snapshot s') : Recorded s' (Function.update P i q) := by
  refine ⟨hsent, fun j => ?_, fun j => ?_, fun j => ?_⟩
  all_goals
    by_cases hj : j = i
    · subst hj
      rw [Function.update_self]
      first | exact hself.1 | exact hself.2.1 | exact hself.2.2
    · rw [Function.update_of_ne hj]
      first | exact hother j hj | exact (h.wired j).mono hwire | exact h.owned j

theorem Recorded.forget {seen : List (DeliveryRow ι)} (h : Recorded s P) (i : ι) :
    Recorded s (Function.update P i ⟨seen, .idle⟩) :=
  h.step h.sent (fun _ hy => hy) ⟨fun _ hx => (List.not_mem_nil hx).elim, trivial, trivial⟩ fun j _ => h.snapshot j

/-- A quiet write, by a process that keeps some of its rows. -/
theorem Recorded.quiet {seen : List (DeliveryRow ι)} {st' : Stage ι} (h : Recorded s P) (hq : Quiet s c w)
    (hrows : ∀ x ∈ st'.rows, x ∈ (P i).stage.rows) (hatt : st'.attempt = (P i).stage.attempt)
    (hwired : (P i).stage.Wired s → st'.Wired s) (howned : (P i).stage.OwnedBy i → st'.OwnedBy i) :
    Recorded (s.modify c w) (Function.update P i ⟨seen, st'⟩) :=
  h.step (hq.sent h.sent) (fun _ hy => hy)
    ⟨hq.snapshot ((h.snapshot i).sub hrows hatt), hwired (h.wired i), howned (h.owned i)⟩
    fun j _ => hq.snapshot (h.snapshot j)

/-- A quiet write that changes no phase. -/
theorem Recorded.quietSelf (h : Recorded s P) (hq : Quiet s c w) (i : ι) :
    Recorded (s.modify c w) (Function.update P i (P i)) := by
  have hself : Recorded (s.modify c w) (Function.update P i ⟨(P i).seen, (P i).stage⟩) :=
    h.quiet hq (fun _ hx => hx) rfl id id
  exact hself

omit [DecidableEq ι] in
/-- A write that changes neither text nor claim, and brings no row to `SENT` or `IN_FLIGHT`. -/
theorem quiet_of_state (h : ∀ r, (w.set r).state = .sent ∨ (w.set r).state = .inFlight →
    (w.set r).state = r.state ∧ (w.set r).content = r.content ∧ (w.set r).attemptId = r.attemptId) : Quiet s c w :=
  fun _ r _ _ hs => h r hs

omit [DecidableEq ι] in
/-- After the write the row is neither `SENT` nor `IN_FLIGHT`. -/
theorem quiet_of_away (state : DeliveryState) (hstate : state ≠ .sent ∧ state ≠ .inFlight)
    (h : ∀ r, (w.set r).state = state) : Quiet s c w := quiet_of_state fun r hs => by
  rw [h r] at hs
  exact absurd hs (not_or.2 hstate)

omit [DecidableEq ι] in
theorem mem_of_mem_dropRow {k : DeliveryId} {rows : List (DeliveryRow ι)} :
    ∀ x ∈ dropRow k rows, x ∈ rows := fun _ hx => (mem_dropRow.1 hx).1

/-- A claim takes pending rows; those of its own stage hold the text that was selected. -/
theorem Recorded.claim {seen rows : List (DeliveryRow ι)} {a : AttemptId ι} {now : Instant} (h : Recorded s P)
    (ha : a.owner = i)
    (hcontent : ∀ x ∈ rows, ∀ r, s.get x.deliveryId = some r → c r = true → r.content = x.content)
    (hown : ∀ x ∈ rows, ∀ r, s.get x.deliveryId = some r → c r = true) :
    Recorded (s.modify c (claimWrite a now)) (Function.update P i ⟨seen, .claimed a rows⟩) := by
  refine h.step (fun k r' hr' hs => ?_) (fun _ hy => hy) ⟨fun x hx r' hr' _ _ => ?_, trivial, ha⟩
    fun j hj x hx r' hr' hatt hs => ?_
  all_goals
    rw [get_modify] at hr'
    obtain ⟨r, hr, rfl⟩ := Option.map_eq_some_iff.1 hr'
  · by_cases hcr : c r = true
    · rw [if_pos hcr] at hs
      cases hs
    · rw [if_neg hcr] at hs ⊢
      exact h.sent k r hr hs
  · have hcr := hown x hx r hr
    rw [if_pos hcr]
    exact hcontent x hx r hr hcr
  · by_cases hcr : c r = true
    · rw [if_pos hcr] at hatt
      have howner := (h.owned j).owner hatt.symm
      exact absurd (howner.symm.trans ha) hj
    · rw [if_neg hcr] at hatt hs ⊢
      exact h.snapshot j x hx r hr hatt hs

/-- A mark `SENT` by the process that has called the transport for the row. -/
theorem Recorded.markedSent {seen rows : List (DeliveryRow ι)} {a : AttemptId ι} {asDigest : Bool} {res : SendOutcome}
    (h : Recorded s P) (hp : P i = ⟨seen, .answered a rows asDigest res⟩)
    (hc : ∀ k r, s.get k = some r → c r = true →
      r.state = .inFlight ∧ r.attemptId = some a ∧ r.deliveryId ∈ rows.map (·.deliveryId))
    (hw : ∀ r, (w.set r).state = .sent ∧ (w.set r).content = r.content ∧ (w.set r).attemptId = r.attemptId) :
    Recorded (s.modify c w) (Function.update P i ⟨seen, .idle⟩) := by
  have hwired : Stage.Wired s (.answered a rows asDigest res) := by simpa [hp] using h.wired i
  have hsnap : Stage.Snapshot s (.answered a rows asDigest res) := by simpa [hp] using h.snapshot i
  refine h.step (fun k r' hr' hs => ?_) (fun _ hy => hy)
    ⟨fun _ hx => (List.not_mem_nil hx).elim, trivial, trivial⟩ fun j _ x hx r' hr' hatt hs => ?_
  all_goals
    rw [get_modify] at hr'
    obtain ⟨r, hr, rfl⟩ := Option.map_eq_some_iff.1 hr'
  · by_cases hcr : c r = true
    · obtain ⟨hst, hatt, hid⟩ := hc k r hr hcr
      obtain ⟨x, hx, hxid⟩ := List.mem_map.1 hid
      have hget : s.get x.deliveryId = some r := by rw [hxid, deliveryId_of_get hr, hr]
      rw [if_pos hcr]
      exact ⟨a, x, (hw r).2.2.trans hatt, hwired x hx, hxid.trans (w.deliveryId r).symm,
        ((hw r).2.1.trans (hsnap x hx r hget hatt hst)).symm⟩
    · rw [if_neg hcr] at hs ⊢
      exact h.sent k r hr hs
  · by_cases hcr : c r = true
    · rw [if_pos hcr, (hw r).1] at hs
      cases hs
    · rw [if_neg hcr] at hatt hs ⊢
      exact h.snapshot j x hx r hr hatt hs

theorem Recorded.insert {k : DeliveryId} {m : Message} {d : Disposition} {now : Instant} (h : Recorded s P)
    (hi : s.insert k m d now = some s') (i : ι) : Recorded s' (Function.update P i (P i)) := by
  have happ := get_insert hi
  obtain ⟨rows, hrows, rfl⟩ := Option.map_eq_some_iff.1 hi
  have hget : ∀ k' r, ({ s with rows := rows } : Outbox ι).get k' = some r →
      r.state = .sent ∨ r.state = .inFlight → s.get k' = some r := fun k' r hr hs => by
    rw [happ] at hr
    cases hold : s.get k' with
    | some r' => rw [hold, Option.some_or] at hr; exact hr
    | none =>
      rw [hold, Option.none_or] at hr
      split at hr
      · obtain rfl := Option.some.inj hr
        rcases hs with hs | hs <;> cases hs
      · cases hr
  have hsnap : ∀ j, (P j).stage.Snapshot { s with rows := rows } := fun j x hx r hr hatt hs =>
    h.snapshot j x hx r (hget _ r hr (Or.inr hs)) hatt hs
  exact h.step (fun k' r hr hs => h.sent k' r (hget k' r hr (Or.inl hs)) hs) (fun _ hy => hy)
    ⟨hsnap i, h.wired i, h.owned i⟩ fun j _ => hsnap j

/-- The rows that go out are on the wire from now on. -/
theorem Recorded.request {seen : List (DeliveryRow ι)} {a : AttemptId ι} {rows rows' : List (DeliveryRow ι)} {shown : ℕ}
    (h : Recorded s P) (hp : P i = ⟨seen, .claimed a rows⟩) (hperm : rows'.Perm rows) (hshown : rows'.length ≤ shown) :
    Recorded (s.request rows' shown a) (Function.update P i ⟨seen, .called a rows'⟩) := by
  have hq : Quiet s (fun r => r.deliveryId ∈ rows'.map (·.deliveryId)) (callWrite a) :=
    quiet_of_state fun r _ => ⟨rfl, rfl, rfl⟩
  have hmem : ∀ y ∈ s.wire, y ∈ (s.request rows' shown a).wire := fun y hy => List.mem_append_left _ hy
  have hsnap : ∀ st : Stage ι, st.Snapshot s → st.Snapshot (s.request rows' shown a) := fun st hst => hq.snapshot hst
  have hself : Stage.Snapshot s (.called a rows') := by
    have hclaimed : Stage.Snapshot s (.claimed a rows) := by simpa [hp] using h.snapshot i
    exact hclaimed.sub (fun x hx => hperm.mem_iff.1 hx) rfl
  refine h.step (fun k r hr hs => (hq.sent h.sent k r hr hs).mono hmem) hmem ⟨hsnap _ hself, fun x hx => ?_, ?_⟩
    fun j _ => hsnap _ (h.snapshot j)
  · refine List.mem_append_right _ (List.mem_map_of_mem ?_)
    rwa [List.take_of_length_le hshown]
  · have hown : (Stage.claimed a rows).OwnedBy i := by simpa [hp] using h.owned i
    exact hown

theorem Recorded.response {seen : List (DeliveryRow ι)} {a : AttemptId ι} {rows : List (DeliveryRow ι)}
    {asDigest : Bool} (h : Recorded s P) (hp : P i = ⟨seen, .called a rows⟩) :
    Recorded (s.respond rows asDigest a)
      (Function.update P i ⟨seen, .answered a rows asDigest (s.env.answer s.consulted)⟩) := by
  have hmod : Recorded (s.settledCalls rows a (s.env.answer s.consulted))
      (Function.update P i ⟨seen, .answered a rows asDigest (s.env.answer s.consulted)⟩) := by
    unfold settledCalls
    split
    · exact h.quiet (quiet_of_state fun r _ => ⟨rfl, rfl, rfl⟩) (fun x hx => by rw [hp]; exact hx) (by rw [hp]; rfl)
        (fun hw => by rw [hp] at hw; exact hw) (fun ho => by rw [hp] at ho; exact ho)
    · have hwired : (Stage.called a rows).Wired s := by simpa [hp] using h.wired i
      have hown : (Stage.called a rows).OwnedBy i := by simpa [hp] using h.owned i
      have hsnap : (Stage.called a rows).Snapshot s := by simpa [hp] using h.snapshot i
      exact h.step h.sent (fun _ hy => hy) ⟨hsnap.sub (fun _ hx => hx) rfl, hwired, hown⟩ fun j _ => h.snapshot j
  -- the answer is recorded beside rows and wire
  have hget : ∀ k, (s.respond rows asDigest a).get k = (s.settledCalls rows a (s.env.answer s.consulted)).get k :=
    fun _ => rfl
  have hwire : (s.respond rows asDigest a).wire = (s.settledCalls rows a (s.env.answer s.consulted)).wire := rfl
  refine ⟨fun k r hr hs => ?_, fun j x hx r hr => hmod.snapshot j x hx r (hget _ ▸ hr), fun j => ?_, hmod.owned⟩
  · exact (hmod.sent k r (hget k ▸ hr) hs).mono fun y hy => hwire ▸ hy
  · exact (hmod.wired j).mono fun y hy => hwire ▸ hy

/-- One turn of a process, where the guard of its label holds. -/
theorem Turn.recorded {l : Label ι} {p : Phase ι} (h : Recorded s P) (hE : Faithful l s)
    (ht : Turn i p l s s' q) (hp : P i = p) : Recorded s' (Function.update P i q) := by
  cases ht with
  | aside ha =>
    have hget : ∀ k, s'.get k = s.get k := fun k => by rw [Outbox.get, Outbox.get, ha.rows]
    have hsnap : ∀ j, (P j).stage.Snapshot s' := fun j x hx r hr => h.snapshot j x hx r (hget _ ▸ hr)
    have hmem : ∀ y ∈ s.wire, y ∈ s'.wire := fun y hy => ha.wire ▸ hy
    exact hp ▸ h.step (fun k r hr hs => (h.sent k r (hget k ▸ hr) hs).mono hmem) hmem
      ⟨hsnap i, (h.wired i).mono hmem, h.owned i⟩ fun j _ => hsnap j
  | select hmem hnodup => exact h.forget i
  | recover => exact hp ▸ h.quietSelf (quiet_of_away .ambiguous (by decide) fun r => rfl) i
  | defer => exact hp ▸ h.quietSelf (quiet_of_state fun r _ => ⟨rfl, rfl, rfl⟩) i
  | @retire _ _ k state reason hstate =>
    refine hp ▸ h.quietSelf (quiet_of_away state ?_ fun r => rfl) i
    rcases hstate with rfl | rfl <;> decide
  | @retireClaimed seen _ a rows state reason x hx hstate =>
    refine h.quiet (quiet_of_away state ?_ fun r => rfl) (fun x hx => by rw [hp]; exact mem_of_mem_dropRow x hx) (by rw [hp]; rfl)
      (fun _ => trivial) (fun ho => by rw [hp] at ho; exact ho)
    rcases hstate with rfl | rfl <;> decide
  | insert hi => exact hp ▸ h.insert hi i
  | @refresh _ _ k m =>
    refine hp ▸ h.quietSelf (fun k' r hr hid hs => ⟨rfl, ?_, rfl⟩) i
    obtain rfl : k' = k := (deliveryId_of_get hr).symm.trans (by simpa using hid)
    exact (hE r hr hs.symm).symm
  | approveUpdate => exact hp ▸ h.quietSelf (quiet_of_away .pending (by decide) fun r => rfl) i
  | reopen => exact hp ▸ h.quietSelf (quiet_of_away .pending (by decide) fun r => rfl) i
  | @claim seen stage _ row a now ha hrow hw =>
    obtain ⟨r₀, hr₀, hcl⟩ := winsClaim_eq hw
    refine h.claim ha (fun x hx r hr hc => ?_) fun x hx r hr => ?_
    all_goals obtain rfl : x = row := List.mem_singleton.1 hx
    · exact hE r hr hc
    · rw [hr₀] at hr
      exact Option.some.inj hr ▸ hcl
  | @claimBatch seen stage _ rows a now ha hrows hnodup =>
    have hpend : ∀ x ∈ s.batchWon rows, ∀ r, s.get x.deliveryId = some r → x ∈ rows ∧ r.state = .pending := by
      intro x hx r hr
      obtain ⟨hx, hb⟩ := List.mem_filter.1 hx
      exact ⟨hx, by simpa [hr] using hb⟩
    refine h.claim ha (fun x hx r hr _ => ?_) fun x hx r hr => ?_
    · exact hE x (hpend x hx r hr).1 r hr (hpend x hx r hr).2
    · simp [mem_ids (hpend x hx r hr).1 hr, (hpend x hx r hr).2]
  | release hx =>
    exact h.quiet (quiet_of_away .pending (by decide) fun r => rfl)
      (fun x hx => by rw [hp]; exact mem_of_mem_dropRow x hx) (by rw [hp]; rfl) (fun _ => trivial) (fun ho => by rw [hp] at ho; exact ho)
  | request hperm => exact h.request hp hperm hE
  | response => exact h.response hp
  | @markSent seen _ a row now res hok =>
    refine h.markedSent hp (fun k r hr hc => ?_) fun r => ⟨rfl, rfl, rfl⟩
    simp only [settleable, Bool.and_eq_true, Bool.or_eq_true, decide_eq_true_eq] at hc
    obtain rfl : k = row.deliveryId := (deliveryId_of_get hr).symm.trans hc.1
    obtain ⟨hst, hatt⟩ := hE r hr hc.2
    exact ⟨hst, hatt, mem_ids List.mem_cons_self hr⟩
  | @markDigestSent seen _ a rows now res hok =>
    refine h.markedSent hp (fun k r hr hc => ?_) fun r => ⟨rfl, rfl, rfl⟩
    simp only [Bool.and_eq_true, decide_eq_true_eq] at hc
    have hk : k ∈ rows.map (·.deliveryId) := deliveryId_of_get hr ▸ hc.1
    exact ⟨hc.2, hE k hk r hr hc.2, hc.1⟩
  | markAmbiguous hx hres =>
    refine h.quiet (quiet_of_away .ambiguous (by decide) fun r => rfl)
      (fun x hx => by rw [hp]; exact mem_of_mem_dropRow x hx) (by rw [hp]; rfl) (fun hw => ?_) (fun ho => by rw [hp] at ho; exact ho)
    rw [hp] at hw
    exact fun x hx => hw x (mem_of_mem_dropRow x hx)
  | @markFailed _ _ _ _ _ _ n _ _ permanent _ _ hx hres =>
    refine h.quiet (quiet_of_away (if permanent || maxSendAttempts ≤ n + 1 then .failed else .pending) ?_ fun r => ?_) (fun x hx => by rw [hp]; exact mem_of_mem_dropRow x hx)
      (by rw [hp]; rfl) (fun hw => ?_) (fun ho => by rw [hp] at ho; exact ho)
    · split <;> decide
    · split <;> rfl
    · rw [hp] at hw
      exact fun x hx => hw x (mem_of_mem_dropRow x hx)

omit [DecidableEq ι] in
theorem content_modify (hw : ∀ k r, s.get k = some r → c r = true → (w.set r).content = r.content) {k : DeliveryId}
    {r : DeliveryRow ι} (hr : s.get k = some r) : ∃ r', (s.modify c w).get k = some r' ∧ r'.content = r.content := by
  refine ⟨_, by rw [get_modify, hr, Option.map_some], ?_⟩
  split
  · rename_i hc
    exact hw k r hr hc
  · rfl

omit [DecidableEq ι] in
theorem content_store {m : Message} {k : DeliveryId} (k' : DeliveryId) (hw : ∀ r, (w.set r).content = m.content)
    {r : DeliveryRow ι} (hr : s.get k = some r) : ∃ r', (s.modify (·.deliveryId = k') w).get k = some r' ∧
      (r'.content = r.content ∨ (k' = k ∧ r'.content = m.content)) := by
  refine ⟨_, by rw [get_modify, hr, Option.map_some], ?_⟩
  split
  · rename_i hc
    exact Or.inr ⟨(by simpa using hc : r.deliveryId = k').symm.trans (deliveryId_of_get hr), hw r⟩
  · exact Or.inl rfl

/-- Only the statements of `enqueue` replace the text of a row, and no row disappears. -/
theorem Turn.keepsContent {p : Phase ι} {l : Label ι} (ht : Turn i p l s s' q) {k : DeliveryId} {r : DeliveryRow ι}
    (hr : s.get k = some r) : ∃ r', s'.get k = some r' ∧
      (r'.content = r.content ∨ ∃ m, l.stores k m ∧ r'.content = m.content) := by
  have hkept : (∃ r', s'.get k = some r' ∧ r'.content = r.content) → ∃ r', s'.get k = some r' ∧
      (r'.content = r.content ∨ ∃ m, l.stores k m ∧ r'.content = m.content) := by
    rintro ⟨r', hr', hc⟩
    exact ⟨r', hr', Or.inl hc⟩
  have hstored : ∀ {k' : DeliveryId} {m : Message} {w : RowWrite ι}, l.stores k' m →
      (∀ r, (w.set r).content = m.content) → s' = s.modify (·.deliveryId = k') w → ∃ r', s'.get k = some r' ∧
      (r'.content = r.content ∨ ∃ m, l.stores k m ∧ r'.content = m.content) := by
    rintro k' m w hl hw rfl
    obtain ⟨r', hr', hc⟩ := content_store k' hw hr
    refine ⟨r', hr', hc.imp id ?_⟩
    rintro ⟨rfl, hm⟩
    exact ⟨m, hl, hm⟩
  cases ht with
  | aside ha => exact hkept ⟨r, by rw [Outbox.get, ha.rows]; exact hr, rfl⟩
  | select hmem hnodup => exact hkept ⟨r, hr, rfl⟩
  | recover => exact hkept (content_modify (fun _ _ _ _ => rfl) hr)
  | defer => exact hkept (content_modify (fun _ _ _ _ => rfl) hr)
  | retire hstate => exact hkept (content_modify (fun _ _ _ _ => rfl) hr)
  | retireClaimed hx hstate => exact hkept (content_modify (fun _ _ _ _ => rfl) hr)
  | insert hi =>
    refine hkept ⟨r, ?_, rfl⟩
    rw [get_insert hi, hr, Option.some_or]
  | refresh => exact hstored ⟨rfl, rfl⟩ (fun _ => rfl) rfl
  | approveUpdate => exact hstored ⟨rfl, rfl⟩ (fun _ => rfl) rfl
  | reopen => exact hstored ⟨rfl, rfl⟩ (fun _ => rfl) rfl
  | claim ha hrow hw => exact hkept (content_modify (fun _ _ _ _ => rfl) hr)
  | claimBatch ha hrows hnodup => exact hkept (content_modify (fun _ _ _ _ => rfl) hr)
  | release hx => exact hkept (content_modify (fun _ _ _ _ => rfl) hr)
  | request hperm => exact hkept (content_modify (fun _ _ _ _ => rfl) hr)
  | @response _ _ a rows asDigest =>
    have hget : ∀ k, (s.respond rows asDigest a).get k = (s.settledCalls rows a (s.env.answer s.consulted)).get k :=
      fun _ => rfl
    rw [hget] at hkept ⊢
    unfold settledCalls at hkept ⊢
    split at hkept <;> rename_i hrej
    · rw [if_pos hrej]
      exact hkept (content_modify (fun _ _ _ _ => rfl) hr)
    · rw [if_neg hrej]
      exact hkept ⟨r, hr, rfl⟩
  | markSent hok => exact hkept (content_modify (fun _ _ _ _ => rfl) hr)
  | markDigestSent hok => exact hkept (content_modify (fun _ _ _ _ => rfl) hr)
  | markAmbiguous hx hres => exact hkept (content_modify (fun _ _ _ _ => rfl) hr)
  | markFailed hx hres =>
    refine hkept (content_modify (fun _ _ _ _ => ?_) hr)
    split <;> rfl

end Steps

/-! ## Runs -/

section Runs

/-- The steps that find the texts they rely on. -/
def faithful (S : Sys ι (Label ι) (Outbox ι)) : Move ι (Label ι) → Prop
  | .commit _ l => Faithful l S.store
  | _ => True

instance (S : Sys ι (Label ι) (Outbox ι)) (i : ι) (l : Label ι) : Decidable (faithful S (.commit i l)) :=
  inferInstanceAs (Decidable (Faithful l S.store))

omit [DecidableEq ι] in
theorem recorded_empty (env : Environment) : Recorded (Outbox.empty env : Outbox ι) fun _ => ⟨[], .idle⟩ :=
  ⟨fun k r h => by simp [Outbox.get, Outbox.empty, Table.get] at h, fun _ _ hx => (List.not_mem_nil hx).elim,
    fun _ => trivial, fun _ => trivial⟩

theorem reach_recorded {env : Environment} {S : Sys ι (Label ι) (Outbox ι)}
    (h : Reach Starts faithful (Sys.idle (.empty env)) S) : ∃ P, InPhase Recorded Turn S P :=
  h.follows (fun _ _ => starts_follow) (fun _ _ _ ha => ha) (fun _ _ i h => h.forget i)
    (fun _ _ _ _ _ _ h hE ht => ht.recorded h hE rfl) (recorded_empty env)

omit [DecidableEq ι] in
theorem sent_of_alreadySent {m : Message} {d : Disposition} {r : DeliveryRow ι}
    (h : enqueueDecision m d (some r) = .alreadySent) : r.state = .sent ∧ r.contentHash = m.contentHash := by
  simp only [enqueueDecision] at h
  split at h
  · split at h <;> cases h
  · rename_i hs
    split at h
    · rename_i hh
      exact ⟨hs, hh⟩
    · split at h <;> cases h
  all_goals cases h

/-- In every interleaving of enqueues and drains whose steps are faithful: the text of a `SENT` row, with its hash, band
and route, is what the transport received for it under the claim of the row; what is answered "already sent, unchanged"
was delivered; and no statement but those of `enqueue` replaces the text of a row, so that a newer text stays in the row
until it is sent. -/
theorem sent_rows_recorded {env : Environment} {S : Sys ι (Label ι) (Outbox ι)}
    (h : Reach Starts faithful (Sys.idle (.empty env)) S) :
    (∀ k r, S.store.get k = some r → r.state = .sent →
      ∃ a x, r.attemptId = some a ∧ (a, x) ∈ S.store.wire ∧ x.deliveryId = k ∧ x.content = r.content) ∧
    (∀ k r m d, S.store.get k = some r → enqueueDecision m d (some r) = .alreadySent →
      ∃ a x, (a, x) ∈ S.store.wire ∧ x.deliveryId = k ∧ x.contentHash = m.contentHash) ∧
    ∀ i l S', Step Starts S (.commit i l) S' → ∀ k r, S.store.get k = some r → ∃ r', S'.store.get k = some r' ∧
      (r'.content = r.content ∨ ∃ m, l.stores k m ∧ r'.content = m.content) := by
  obtain ⟨P, hP⟩ := reach_recorded h
  refine ⟨fun k r hr hs => ?_, fun k r m d hr hd => ?_, fun i l S' hs k r hr => ?_⟩
  · obtain ⟨a, x, ha, hx, hid, hc⟩ := hP.inv.sent k r hr hs
    exact ⟨a, x, ha, hx, hid.trans (deliveryId_of_get hr), hc⟩
  · obtain ⟨hs, hhash⟩ := sent_of_alreadySent hd
    obtain ⟨a, x, -, hx, hid, hc⟩ := hP.inv.sent k r hr hs
    exact ⟨a, x, hx, hid.trans (deliveryId_of_get hr), (congrArg Content.contentHash hc).trans hhash⟩
  · obtain ⟨q, ht⟩ := hP.move hs
    exact ht.keepsContent hr

end Runs

/-! ## Samples -/

/-- A later version of the card. -/
def newerCard : Message := { card with text := "newer text", contentHash := "newer hash" }

/-- Process `0` enqueues a card, `1` drains, `2` enqueues the newer version. -/
def drainAndRefresh : Sys ℕ (Label ℕ) (Outbox ℕ) :=
  (((Sys.idle (.empty (fadingEvidence 0))).start 0 (enqueue "d" card .new (some 0))).start 1
    (processPending 1 (drain false) (some 0))).start 2 (enqueue "d" newerCard .new (some 0))

theorem reach_drainAndRefresh {allow : Sys ℕ (Label ℕ) (Outbox ℕ) → Move ℕ (Label ℕ) → Prop}
    (ha : ∀ S i, allow S (.start i)) :
    Reach Starts allow (Sys.idle (.empty (fadingEvidence 0))) drainAndRefresh :=
  ((Reach.refl.step (.start (i := 0) rfl (.enqueue _ _ _ _)) (ha _ _)).step
    (.start (i := 1) rfl (.processPending _ _)) (ha _ _)).step (.start (i := 2) rfl (.enqueue _ _ _ _)) (ha _ _)

/-- The refresh comes before the selection. -/
theorem sent_rows_recorded_sample :
    let S := drainAndRefresh.commits (List.replicate 2 0 ++ List.replicate 2 2 ++ List.replicate 9 1)
    (S.store.get "d").map (fun r => (r.state, r.contentHash)) = some (.sent, "newer hash") ∧
      ∀ k r, S.store.get k = some r → r.state = .sent →
        ∃ a x, r.attemptId = some a ∧ (a, x) ∈ S.store.wire ∧ x.deliveryId = k ∧ x.content = r.content := by
  intro S
  have hreach : Reach Starts faithful (Sys.idle (.empty (fadingEvidence 0))) S :=
    (reach_drainAndRefresh fun _ _ => trivial).permits (by decide +kernel)
  exact ⟨by decide +kernel, (sent_rows_recorded hreach).1⟩

/-- The refresh comes between the selection and the claim: the row is marked `SENT` with a text that never was sent. -/
theorem newer_text_lost :
    ∃ S : Sys ℕ (Label ℕ) (Outbox ℕ), Reach Starts (fun _ _ => True) (Sys.idle (.empty (fadingEvidence 0))) S ∧
      (S.store.get "d").map (fun r => (r.state, r.contentHash)) = some (.sent, "newer hash") ∧
        ∀ y ∈ S.store.wire, y.2.contentHash ≠ "newer hash" :=
  ⟨_, (reach_drainAndRefresh fun _ _ => trivial).commits (List.replicate 2 0 ++ List.replicate 3 1 ++
    List.replicate 2 2 ++ List.replicate 6 1), by decide +kernel, by decide +kernel⟩

end TalonX.Delivery
