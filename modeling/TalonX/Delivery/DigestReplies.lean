import TalonX.Delivery.ReplyCorrelation

/-!
# The line that the operator read

A digest numbers its rows in the order of its lines. A row that is opened again and sent in another message takes that
message's id and leaves the numbering of the digest, and the rows that remain move up.

- `Numbered`: the ordinal of a row that names a digest is its line there (`Turn.numbered`);
- `orderRows_increasing`: a reply goes through the rows that are left in the order of their lines;
- `digest_reply_resolves`: which replies resolve to the line as rendered; `reply_to_other_line`: one that does not.
-/

set_option autoImplicit false

namespace TalonX.Delivery

open Transact V2 Outbox

variable {ι : Type}

/-! ## The invariant -/

/-- A message id on the row: the line that the row had in the digest, or a message that is no digest. -/
structure NumberedRow (s : Outbox ι) (r : DeliveryRow ι) : Prop where
  digest : ∀ a mid, r.transportMessageId = some (.digest a (some mid)) → ∃ d ∈ s.digests, d.messageId = mid ∧
    ∃ o x, r.digestItemOrdinal = some (o + 1) ∧ d.rows[o]? = some x ∧ x.toIdentity = r.toIdentity
  single : ∀ mid, r.transportMessageId = some (.message mid) →
    mid ∈ s.acknowledged ∧ ∀ d ∈ s.digests, d.messageId ≠ mid

/-- The rows are in the table, with the same identity. -/
def Known (s : Outbox ι) (rows : List (DeliveryRow ι)) : Prop :=
  ∀ x ∈ rows, ∃ r, s.get x.deliveryId = some r ∧ r.toIdentity = x.toIdentity

/-- An answered stage knows what the transport accepted. -/
def Stage.Answered (s : Outbox ι) : Stage ι → Prop
  | .answered _ rows true res => ∀ mid, res.acknowledged = some mid → ∃ d ∈ s.digests, d.messageId = mid ∧ d.rows = rows
  | .answered _ _ false res => ∀ mid, res.acknowledged = some mid →
    mid ∈ s.acknowledged ∧ ∀ d ∈ s.digests, d.messageId ≠ mid
  | _ => True

structure NumberedPhase (s : Outbox ι) (p : Phase ι) : Prop where
  seen : Known s p.seen
  rows : Known s p.stage.rows
  nodup : (p.stage.rows.map (·.deliveryId)).Nodup
  answered : p.stage.Answered s

structure Numbered (s : Outbox ι) (P : ι → Phase ι) : Prop where
  row : ∀ k r, s.get k = some r → NumberedRow s r
  acknowledged : ∀ d ∈ s.digests, d.messageId ∈ s.acknowledged
  distinct : (s.digests.map (·.messageId)).Nodup
  nodup : ∀ d ∈ s.digests, (d.rows.map (·.deliveryId)).Nodup
  phase : ∀ i, NumberedPhase s (P i)

/-- The transport does not give two messages one id. -/
def FreshIds : Label ι → Outbox ι → Prop
  | .response _, s => ∀ mid ∈ (s.env.answer s.consulted).acknowledged, mid ∉ s.acknowledged
  | _, _ => True

instance : ∀ (l : Label ι) (s : Outbox ι), Decidable (FreshIds l s)
  | .response _, s => inferInstanceAs (Decidable (∀ mid ∈ (s.env.answer s.consulted).acknowledged, mid ∉ s.acknowledged))
  | .read, _ | .select, _ | .clock, _ | .uuid, _ | .lookup _ _, _ | .setMeta, _ | .recover _, _ | .defer _, _
  | .retire _ _, _ | .insert _ _, _ | .refresh _ _, _ | .approveUpdate _ _, _ | .reopen _ _, _ | .claim _ _ _, _
  | .claimBatch _ _, _ | .release _ _, _ | .request _ _ _, _ | .markSent _ _, _ | .markDigestSent _ _, _
  | .markAmbiguous _ _, _ | .markFailed _ _, _ => isTrue trivial

/-! ## Steps -/

/-- Rows stay, and new digests have new ids. -/
structure Grows (s s' : Outbox ι) : Prop where
  identity : ∀ k r, s.get k = some r → ∃ r', s'.get k = some r' ∧ r'.toIdentity = r.toIdentity
  digests : ∀ d ∈ s.digests, d ∈ s'.digests
  acknowledged : ∀ mid ∈ s.acknowledged, mid ∈ s'.acknowledged
  fresh : ∀ d ∈ s'.digests, d ∈ s.digests ∨ d.messageId ∉ s.acknowledged

section Steps

variable {s s' : Outbox ι} {P : ι → Phase ι} {i : ι} {q : Phase ι} {c : DeliveryRow ι → Bool} {w : RowWrite ι}

theorem Grows.noDigest (hg : Grows s s') {mid : ℕ} (h : mid ∈ s.acknowledged ∧ ∀ d ∈ s.digests, d.messageId ≠ mid) :
    mid ∈ s'.acknowledged ∧ ∀ d ∈ s'.digests, d.messageId ≠ mid := by
  refine ⟨hg.acknowledged mid h.1, fun d hd heq => ?_⟩
  rcases hg.fresh d hd with hold | hnew
  · exact h.2 d hold heq
  · exact hnew (heq ▸ h.1)

theorem NumberedRow.grows {r : DeliveryRow ι} (h : NumberedRow s r) (hg : Grows s s') : NumberedRow s' r := by
  refine ⟨fun a mid hm => ?_, fun mid hm => hg.noDigest (h.single mid hm)⟩
  obtain ⟨d, hd, hrest⟩ := h.digest a mid hm
  exact ⟨d, hg.digests d hd, hrest⟩

theorem NumberedRow.congr {r r' : DeliveryRow ι} (h : NumberedRow s r)
    (ht : r'.transportMessageId = r.transportMessageId) (ho : r'.digestItemOrdinal = r.digestItemOrdinal)
    (hid : r'.toIdentity = r.toIdentity) : NumberedRow s r' := by
  refine ⟨fun a mid hm => ?_, fun mid hm => h.single mid (ht ▸ hm)⟩
  rw [ho, hid]
  exact h.digest a mid (ht ▸ hm)

theorem Known.grows {rows : List (DeliveryRow ι)} (h : Known s rows) (hg : Grows s s') : Known s' rows := by
  intro x hx
  obtain ⟨r, hr, hid⟩ := h x hx
  obtain ⟨r', hr', hid'⟩ := hg.identity _ r hr
  exact ⟨r', hr', hid'.trans hid⟩

theorem Stage.Answered.grows {st : Stage ι} (h : st.Answered s) (hg : Grows s s') : st.Answered s' := by
  cases st with
  | idle => trivial
  | claimed a rows => trivial
  | called a rows => trivial
  | answered a rows asDigest res =>
    cases asDigest with
    | true =>
      intro mid hm
      obtain ⟨d, hd, hrest⟩ := h mid hm
      exact ⟨d, hg.digests d hd, hrest⟩
    | false => exact fun mid hm => hg.noDigest (h mid hm)

theorem NumberedPhase.grows {p : Phase ι} (h : NumberedPhase s p) (hg : Grows s s') : NumberedPhase s' p :=
  ⟨h.seen.grows hg, h.rows.grows hg, h.nodup, h.answered.grows hg⟩

theorem grows_modify (s : Outbox ι) (c : DeliveryRow ι → Bool) (w : RowWrite ι) : Grows s (s.modify c w) := by
  refine ⟨fun k r hr => ⟨_, by rw [get_modify, hr, Option.map_some], ?_⟩, fun _ h => h, fun _ h => h, fun _ h => Or.inl h⟩
  split
  · exact w.identity r
  · rfl

/-- A phase that keeps some of its rows. -/
theorem NumberedPhase.sub {seen rows : List (DeliveryRow ι)} {st : Stage ι} {p : Phase ι} (h : NumberedPhase s p)
    (hseen : seen = p.seen) (hrows : st.rows = rows) (hsub : rows.Sublist p.stage.rows) (ha : st.Answered s) :
    NumberedPhase s ⟨seen, st⟩ := by
  subst hseen hrows
  exact ⟨h.seen, fun x hx => h.rows x (hsub.subset hx), h.nodup.sublist (hsub.map _), ha⟩

theorem NumberedPhase.idle {p : Phase ι} (h : NumberedPhase s p) : NumberedPhase s ⟨p.seen, .idle⟩ :=
  h.sub rfl rfl (List.nil_sublist _) trivial

/-- The phase after one of its rows was given up. -/
theorem NumberedPhase.drop {seen rows : List (DeliveryRow ι)} {a : AttemptId ι} {k : DeliveryId}
    (h : NumberedPhase s ⟨seen, .claimed a rows⟩) : NumberedPhase s ⟨seen, .claimed a (dropRow k rows)⟩ :=
  h.sub rfl rfl List.filter_sublist trivial

/-- The same for a row that the transport did not acknowledge. -/
theorem NumberedPhase.dropAnswered {seen rows : List (DeliveryRow ι)} {a : AttemptId ι} {k : DeliveryId} {b : Bool}
    {res : SendOutcome} (h : NumberedPhase s ⟨seen, .answered a rows b res⟩) (hres : res.acknowledged = none) :
    NumberedPhase s ⟨seen, .answered a (dropRow k rows) b res⟩ := by
  refine h.sub rfl rfl List.filter_sublist ?_
  cases b <;> exact fun mid hm => by rw [hres] at hm; cases hm

theorem known_nil (s : Outbox ι) : Known s [] := fun _ hx => (List.not_mem_nil hx).elim

variable [DecidableEq ι]

theorem Numbered.step (h : Numbered s P) (hg : Grows s s') (hd : s'.digests = s.digests)
    (hrow : ∀ k r, s'.get k = some r → NumberedRow s r) (hself : NumberedPhase s q) :
    Numbered s' (Function.update P i q) := by
  refine ⟨fun k r hr => (hrow k r hr).grows hg, fun d hd' => ?_, hd ▸ h.distinct, hd ▸ h.nodup, fun j => ?_⟩
  · exact hg.acknowledged _ (h.acknowledged d (hd ▸ hd'))
  · by_cases hj : j = i
    · subst hj
      rw [Function.update_self]
      exact hself.grows hg
    · rw [Function.update_of_ne hj]
      exact (h.phase j).grows hg

/-- A write that leaves message id and ordinal alone. -/
theorem Numbered.plain (h : Numbered s P)
    (hw : ∀ r, (w.set r).transportMessageId = r.transportMessageId ∧ (w.set r).digestItemOrdinal = r.digestItemOrdinal)
    (hself : NumberedPhase s q) : Numbered (s.modify c w) (Function.update P i q) := by
  refine h.step (grows_modify s c w) rfl (fun k r' hr' => ?_) hself
  rw [get_modify] at hr'
  obtain ⟨r, hr, rfl⟩ := Option.map_eq_some_iff.1 hr'
  split
  · exact (h.row k r hr).congr (hw r).1 (hw r).2 (w.identity r)
  · exact h.row k r hr

theorem acknowledged_of_rejected {res : SendOutcome} (h : res.rejected = true) : res.acknowledged = none := by
  cases res with
  | cancelled => rfl
  | error exc => rfl
  | result res =>
    simp only [SendOutcome.rejected, Bool.and_eq_true, Bool.not_eq_true'] at h
    simp [SendOutcome.acknowledged, h.1]

theorem Numbered.idle (h : Numbered s P) (i : ι) {rows : List (DeliveryRow ι)} (hknown : Known s rows) :
    Numbered s (Function.update P i ⟨rows, .idle⟩) :=
  h.step ⟨fun _ r hr => ⟨r, hr, rfl⟩, fun _ hd => hd, fun _ hm => hm, fun _ hd => Or.inl hd⟩ rfl h.row
    ⟨hknown, known_nil s, List.nodup_nil, trivial⟩

/-- A claim takes rows of the last selection. -/
theorem Numbered.claim {seen rows : List (DeliveryRow ι)} {stage : Stage ι} {a : AttemptId ι} {now : Instant}
    (h : Numbered s P) (hp : P i = ⟨seen, stage⟩) (hmem : ∀ x ∈ rows, x ∈ seen)
    (hnodup : (rows.map (·.deliveryId)).Nodup) :
    Numbered (s.modify c (claimWrite a now)) (Function.update P i ⟨seen, .claimed a rows⟩) := by
  have hphase : NumberedPhase s ⟨seen, stage⟩ := hp ▸ h.phase i
  exact h.plain (fun r => ⟨rfl, rfl⟩) ⟨hphase.seen, fun x hx => hphase.seen x (hmem x hx), hnodup, trivial⟩

theorem Numbered.insert {k : DeliveryId} {m : Message} {d : Disposition} {now : Instant} (h : Numbered s P)
    (hi : s.insert k m d now = some s') (i : ι) : Numbered s' (Function.update P i (P i)) := by
  have hget := get_insert hi
  obtain ⟨rows, hrows, rfl⟩ := Option.map_eq_some_iff.1 hi
  have hgrows : Grows s { s with rows := rows } :=
    ⟨fun k' r hr => ⟨r, by rw [hget, hr, Option.some_or], rfl⟩, fun _ hd => hd, fun _ hm => hm, fun _ hd => Or.inl hd⟩
  refine h.step hgrows rfl (fun k' r hr => ?_) (h.phase i)
  rw [hget] at hr
  cases hold : s.get k' with
  | some r' =>
    rw [hold, Option.some_or] at hr
    exact Option.some.inj hr ▸ h.row k' r' hold
  | none =>
    rw [hold, Option.none_or] at hr
    split at hr
    · obtain rfl := Option.some.inj hr
      have hnone : (newRow k m d now : DeliveryRow ι).transportMessageId = none := rfl
      refine ⟨fun a mid hm => ?_, fun mid hm => ?_⟩
      · cases hnone.symm.trans hm
      · cases hnone.symm.trans hm
    · cases hr

/-- A single row takes the id of its message. -/
theorem Numbered.markSent {seen : List (DeliveryRow ι)} {a : AttemptId ι} {row : DeliveryRow ι} {now : Instant}
    {res : SenderResult} (h : Numbered s P) (hp : P i = ⟨seen, .answered a [row] false (.result res)⟩)
    (hok : res.ok = true) :
    Numbered (s.markSent row.deliveryId res.messageId now) (Function.update P i ⟨seen, .idle⟩) := by
  have hphase : NumberedPhase s ⟨seen, .answered a [row] false (.result res)⟩ := hp ▸ h.phase i
  refine h.step (grows_modify s _ _) rfl (fun k r' hr' => ?_) hphase.idle
  rw [Outbox.markSent, get_modify] at hr'
  obtain ⟨r, hr, rfl⟩ := Option.map_eq_some_iff.1 hr'
  split
  · cases hm : res.messageId with
    | none => exact (h.row k r hr).congr (by simp [sentWrite]) rfl rfl
    | some mid =>
      have hsingle := hphase.answered mid (by simp [SendOutcome.acknowledged, hok, hm])
      refine ⟨fun a' mid' he => ?_, fun mid' he => ?_⟩
      · simp [sentWrite] at he
      · obtain rfl : mid = mid' := by simpa [sentWrite] using he
        exact hsingle
  · exact h.row k r hr

/-- The rows of a digest take its id and their lines. -/
theorem Numbered.markDigestSent {seen rows : List (DeliveryRow ι)} {a : AttemptId ι} {now : Instant}
    {res : SenderResult} (h : Numbered s P) (hp : P i = ⟨seen, .answered a rows true (.result res)⟩)
    (hok : res.ok = true) :
    Numbered (s.markDigestSent (rows.map (·.deliveryId)) a res.messageId now) (Function.update P i ⟨seen, .idle⟩) := by
  have hphase : NumberedPhase s ⟨seen, .answered a rows true (.result res)⟩ := hp ▸ h.phase i
  refine h.step (grows_modify s _ _) rfl (fun k r' hr' => ?_) hphase.idle
  rw [Outbox.markDigestSent, get_modify] at hr'
  obtain ⟨r, hr, rfl⟩ := Option.map_eq_some_iff.1 hr'
  split
  · rename_i hc
    rw [Bool.and_eq_true] at hc
    have hid : r.deliveryId ∈ rows.map (·.deliveryId) := by simpa using hc.1
    refine ⟨fun a' mid he => ?_, fun mid he => by simp [digestSentWrite] at he⟩
    have hm : res.messageId = some mid := by
      simp only [digestSentWrite, Option.some.injEq, TransportId.digest.injEq] at he
      exact he.2
    obtain ⟨d, hd, hdm, hrows⟩ := hphase.answered mid (by simp [SendOutcome.acknowledged, hok, hm])
    have hlt : (rows.map (·.deliveryId)).idxOf r.deliveryId < rows.length := by
      simpa using List.idxOf_lt_length_of_mem hid
    have hx : rows[(rows.map (·.deliveryId)).idxOf r.deliveryId].deliveryId = r.deliveryId := by
      have hidx := List.getElem_idxOf (List.idxOf_lt_length_of_mem hid)
      rwa [List.getElem_map] at hidx
    refine ⟨d, hd, hdm, _, _, rfl, by rw [hrows, List.getElem?_eq_getElem hlt], ?_⟩
    obtain ⟨r₀, hr₀, hident⟩ := hphase.rows _ (List.getElem_mem hlt)
    rw [hx, deliveryId_of_get hr, hr] at hr₀
    obtain rfl := Option.some.inj hr₀
    exact hident.symm
  · exact h.row k r hr

/-- The transport answers with an id that it has not used. -/
theorem Numbered.response {seen rows : List (DeliveryRow ι)} {a : AttemptId ι} {asDigest : Bool} (h : Numbered s P)
    (hp : P i = ⟨seen, .called a rows⟩)
    (hfresh : ∀ mid ∈ (s.env.answer s.consulted).acknowledged, mid ∉ s.acknowledged) :
    Numbered (s.respond rows asDigest a)
      (Function.update P i ⟨seen, .answered a rows asDigest (s.env.answer s.consulted)⟩) := by
  have hphase : NumberedPhase s ⟨seen, .called a rows⟩ := hp ▸ h.phase i
  have hget : ∀ k r', (s.respond rows asDigest a).get k = some r' → ∃ r, s.get k = some r ∧
      r'.transportMessageId = r.transportMessageId ∧ r'.digestItemOrdinal = r.digestItemOrdinal ∧
        r'.toIdentity = r.toIdentity := by
    intro k r' hr'
    have hr : (s.settledCalls rows a (s.env.answer s.consulted)).get k = some r' := hr'
    unfold settledCalls at hr
    split at hr
    · rw [get_modify] at hr
      obtain ⟨r, hold, rfl⟩ := Option.map_eq_some_iff.1 hr
      refine ⟨r, hold, ?_⟩
      split <;> exact ⟨rfl, rfl, rfl⟩
    · exact ⟨r', hr, rfl, rfl, rfl⟩
  have hkeep : ∀ k r, s.get k = some r → ∃ r', (s.respond rows asDigest a).get k = some r' ∧
      r'.toIdentity = r.toIdentity := by
    intro k r hr
    have hgoal : ∃ r', (s.settledCalls rows a (s.env.answer s.consulted)).get k = some r' ∧
        r'.toIdentity = r.toIdentity := by
      unfold settledCalls
      split
      · exact (grows_modify s _ _).identity k r hr
      · exact ⟨r, hr, rfl⟩
    exact hgoal
  generalize hres : s.env.answer s.consulted = res at hfresh ⊢
  have hdigests : (s.respond rows asDigest a).digests =
      s.digests ++ if asDigest then res.acknowledged.toList.map (⟨·, rows⟩) else [] := by rw [← hres]; rfl
  have hacks : (s.respond rows asDigest a).acknowledged = s.acknowledged ++ res.acknowledged.toList := by
    rw [← hres]; rfl
  have hnew : ∀ d ∈ (if asDigest then res.acknowledged.toList.map (⟨·, rows⟩) else [] : List (SentDigest ι)),
      d.rows = rows ∧ d.messageId ∈ res.acknowledged := by
    intro d hd
    cases asDigest with
    | false => simp at hd
    | true =>
      rw [if_pos rfl] at hd
      obtain ⟨mid, hm, rfl⟩ := List.mem_map.1 hd
      exact ⟨rfl, by simpa using hm⟩
  have hg : Grows s (s.respond rows asDigest a) := by
    refine ⟨hkeep, fun d hd => ?_, fun mid hm => ?_, fun d hd => ?_⟩
    · rw [hdigests]
      exact List.mem_append_left _ hd
    · rw [hacks]
      exact List.mem_append_left _ hm
    · rw [hdigests] at hd
      rcases List.mem_append.1 hd with hd | hd
      · exact Or.inl hd
      · exact Or.inr (hfresh _ (hnew d hd).2)
  have hanswered : Stage.Answered (s.respond rows asDigest a) (.answered a rows asDigest res) := by
    cases asDigest with
    | true =>
      intro mid hm
      refine ⟨⟨mid, rows⟩, ?_, rfl, rfl⟩
      rw [hdigests]
      exact List.mem_append_right _ (by simp [hm])
    | false =>
      intro mid hm
      rw [hacks, hdigests]
      refine ⟨List.mem_append_right _ (by simp [hm]), fun d hd heq => ?_⟩
      rw [if_neg Bool.false_ne_true, List.append_nil] at hd
      exact hfresh mid hm (heq ▸ h.acknowledged d hd)
  refine ⟨fun k r' hr' => ?_, fun d hd => ?_, ?_, fun d hd => ?_, fun j => ?_⟩
  · obtain ⟨r, hr, ht, ho, hid⟩ := hget k r' hr'
    exact ((h.row k r hr).congr ht ho hid).grows hg
  · rw [hdigests] at hd
    rw [hacks]
    rcases List.mem_append.1 hd with hd | hd
    · exact List.mem_append_left _ (h.acknowledged d hd)
    · exact List.mem_append_right _ (by simpa using (hnew d hd).2)
  · rw [hdigests, List.map_append, List.nodup_append]
    refine ⟨h.distinct, ?_, fun mid hm mid' hm' heq => ?_⟩
    · cases asDigest with
      | false => exact List.nodup_nil
      | true => cases res.acknowledged <;> simp
    · obtain ⟨d, hd, rfl⟩ := List.mem_map.1 hm
      obtain ⟨d', hd', rfl⟩ := List.mem_map.1 hm'
      exact hfresh _ (hnew d' hd').2 (heq ▸ h.acknowledged d hd)
  · rw [hdigests] at hd
    rcases List.mem_append.1 hd with hd | hd
    · exact h.nodup d hd
    · rw [(hnew d hd).1]
      exact hphase.nodup
  · by_cases hj : j = i
    · subst hj
      rw [Function.update_self]
      exact ⟨hphase.seen.grows hg, hphase.rows.grows hg, hphase.nodup, hanswered⟩
    · rw [Function.update_of_ne hj]
      exact (h.phase j).grows hg

/-- One turn of a process, where the transport gives new messages new ids. -/
theorem Turn.numbered {l : Label ι} {p : Phase ι} (h : Numbered s P) (hE : FreshIds l s) (ht : Turn i p l s s' q)
    (hp : P i = p) : Numbered s' (Function.update P i q) := by
  have hphase : NumberedPhase s p := hp ▸ h.phase i
  cases ht with
  | aside ha =>
    have hget : ∀ k, s'.get k = s.get k := fun k => by rw [Outbox.get, Outbox.get, ha.rows]
    refine h.step ⟨fun k r hr => ⟨r, (hget k).trans hr, rfl⟩, fun d hd => ha.digests ▸ hd,
      fun mid hm => ha.acknowledged ▸ hm, fun d hd => Or.inl (ha.digests ▸ hd)⟩ ha.digests (fun k r hr => ?_) hphase
    exact h.row k r (hget k ▸ hr)
  | select hmem hnodup => exact h.idle i fun x hx => ⟨x, get_of_mem (hmem x hx), rfl⟩
  | recover => exact h.plain (fun r => ⟨rfl, rfl⟩) hphase
  | defer => exact h.plain (fun r => ⟨rfl, rfl⟩) hphase
  | retire hstate => exact h.plain (fun r => ⟨rfl, rfl⟩) hphase
  | retireClaimed hx hstate => exact h.plain (fun r => ⟨rfl, rfl⟩) hphase.drop
  | insert hi => exact hp ▸ h.insert hi i
  | refresh => exact h.plain (fun r => ⟨rfl, rfl⟩) hphase
  | approveUpdate => exact h.plain (fun r => ⟨rfl, rfl⟩) hphase
  | reopen => exact h.plain (fun r => ⟨rfl, rfl⟩) hphase
  | claim ha hrow hw =>
    exact h.claim hp (fun x hx => List.mem_singleton.1 hx ▸ hrow) (List.nodup_singleton _)
  | claimBatch ha hrows hnodup =>
    exact h.claim hp (fun x hx => hrows x (List.mem_filter.1 hx).1) (hnodup.sublist (List.filter_sublist.map _))
  | release hx => exact h.plain (fun r => ⟨rfl, rfl⟩) hphase.drop
  | @request seen _ a rows rows' shown hperm =>
    have hnumbered : Numbered (s.modify (fun r => r.deliveryId ∈ rows'.map (·.deliveryId)) (callWrite a))
        (Function.update P i ⟨seen, .called a rows'⟩) :=
      h.plain (fun r => ⟨rfl, rfl⟩) ⟨hphase.seen, fun x hx => hphase.rows x (hperm.mem_iff.1 hx),
        (hperm.map _).nodup_iff.2 hphase.nodup, trivial⟩
    exact ⟨fun k r hr => ⟨(hnumbered.row k r hr).digest, (hnumbered.row k r hr).single⟩, hnumbered.acknowledged,
      hnumbered.distinct, hnumbered.nodup, fun j => ⟨(hnumbered.phase j).seen, (hnumbered.phase j).rows,
        (hnumbered.phase j).nodup, (hnumbered.phase j).answered⟩⟩
  | response => exact h.response hp hE
  | markSent hok => exact h.markSent hp hok
  | markDigestSent hok => exact h.markDigestSent hp hok
  | markAmbiguous hx hres => exact h.plain (fun r => ⟨rfl, rfl⟩) (hphase.dropAnswered hres)
  | markFailed hx hres =>
    refine h.plain (fun r => ?_) (hphase.dropAnswered (acknowledged_of_rejected hres))
    split <;> exact ⟨rfl, rfl⟩

end Steps

/-! ## Replies -/

section Replies

/-- The ordinal of a row of a digest. -/
def ordinal (r : DeliveryRow ι) : ℕ := r.digestItemOrdinal.getD 0

variable {s : Outbox ι} {P : ι → Phase ι} {d : SentDigest ι}

theorem carriers_perm (s : Outbox ι) (mid : ℕ) : (carriers s mid).Perm (s.rows.rows.filter (·.carries mid)) :=
  List.perm_insertionSort _ _

theorem mem_carriers {mid : ℕ} {r : DeliveryRow ι} :
    r ∈ carriers s mid ↔ s.get r.deliveryId = some r ∧ r.carries mid = true := by
  rw [(carriers_perm s mid).mem_iff, List.mem_filter]
  exact and_congr_left fun _ => ⟨get_of_mem, mem_of_get⟩

/-- A row that names the digest had the line of its ordinal there. -/
theorem Numbered.line (h : Numbered s P) (hd : d ∈ s.digests) {r : DeliveryRow ι} (hr : r ∈ carriers s d.messageId) :
    ∃ o x, ordinal r = o + 1 ∧ r.digestItemOrdinal = some (o + 1) ∧ d.rows[o]? = some x ∧
      x.toIdentity = r.toIdentity := by
  obtain ⟨hget, hcarries⟩ := mem_carriers.1 hr
  cases ht : r.transportMessageId with
  | none => simp [DeliveryRow.carries, ht] at hcarries
  | some t =>
    cases t with
    | message mid =>
      have hmid : mid = d.messageId := by simpa [DeliveryRow.carries, ht, TransportId.refersTo] using hcarries
      exact absurd hmid.symm (((h.row _ r hget).single mid ht).2 d hd)
    | digest a mid =>
      have hmid : mid = some d.messageId := by simpa [DeliveryRow.carries, ht, TransportId.refersTo] using hcarries
      subst hmid
      obtain ⟨d', hd', hm, o, x, ho, hx, hid⟩ := (h.row _ r hget).digest a d.messageId ht
      obtain rfl : d' = d := List.inj_on_of_nodup_map h.distinct hd' hd hm
      exact ⟨o, x, by rw [ordinal, ho, Option.getD_some], ho, hx, hid⟩

/-- No two rows have one line. -/
theorem Numbered.ordinal_inj (h : Numbered s P) (hd : d ∈ s.digests) {r r' : DeliveryRow ι}
    (hr : r ∈ carriers s d.messageId) (hr' : r' ∈ carriers s d.messageId) (heq : ordinal r = ordinal r') : r = r' := by
  obtain ⟨o, x, ho, -, hx, hid⟩ := h.line hd hr
  obtain ⟨o', x', ho', -, hx', hid'⟩ := h.line hd hr'
  obtain rfl : o = o' := by omega
  have hxx : x = x' := Option.some.inj (hx.symm.trans hx')
  have hident : r.toIdentity = r'.toIdentity := by rw [← hid, ← hid', hxx]
  have hget := (mem_carriers.1 hr).1
  rw [show r.deliveryId = r'.deliveryId from congrArg Identity.deliveryId hident, (mem_carriers.1 hr').1] at hget
  exact (Option.some.inj hget).symm

/-- A reply goes through the rows that still name the digest in the order of their lines. -/
theorem Numbered.orderRows_increasing (h : Numbered s P) (hd : d ∈ s.digests) :
    (orderRows (carriers s d.messageId)).Perm (carriers s d.messageId) ∧
      ((orderRows (carriers s d.messageId)).map ordinal).Pairwise (· < ·) := by
  have hnodup : ((carriers s d.messageId).map ordinal).Nodup := by
    refine List.Nodup.map_on (fun r hr r' hr' => h.ordinal_inj hd hr hr') ?_
    exact (carriers_perm s d.messageId).nodup_iff.2 (s.rows.nodup.filter _)
  have hall : (carriers s d.messageId).all (·.digestItemOrdinal.isSome) = true := by
    refine List.all_eq_true.2 fun r hr => ?_
    obtain ⟨o, x, -, ho, -⟩ := h.line hd hr
    rw [ho]
    rfl
  unfold orderRows
  split
  · rename_i hshort
    refine ⟨List.Perm.refl _, ?_⟩
    match hc : carriers s d.messageId with
    | [] => exact List.Pairwise.nil
    | [r] => exact List.pairwise_singleton _ _
    | r :: r' :: rest =>
      rw [hc, List.length_cons, List.length_cons] at hshort
      omega
  · refine ⟨List.perm_insertionSort _ _, ?_⟩
    have htotal : Std.Total fun a b : DeliveryRow ι => a.digestItemOrdinal.getD 0 ≤ b.digestItemOrdinal.getD 0 :=
      ⟨fun a b => le_total _ _⟩
    have htrans : IsTrans (DeliveryRow ι) fun a b => a.digestItemOrdinal.getD 0 ≤ b.digestItemOrdinal.getD 0 :=
      ⟨fun a b c => le_trans⟩
    have hsorted : ((carriers s d.messageId).insertionSort
        fun a b => a.digestItemOrdinal.getD 0 ≤ b.digestItemOrdinal.getD 0).Pairwise fun a b => ordinal a ≤ ordinal b :=
      List.pairwise_insertionSort _ _
    have hne := (((List.perm_insertionSort (fun a b : DeliveryRow ι =>
      a.digestItemOrdinal.getD 0 ≤ b.digestItemOrdinal.getD 0) (carriers s d.messageId)).map ordinal).nodup_iff.2 hnodup)
    rw [List.pairwise_map]
    rw [List.nodup_iff_pairwise_ne, List.pairwise_map] at hne
    exact hsorted.imp₂ (fun _ _ hle hne => lt_of_le_of_ne hle hne) hne

/-- The first `n` lines of the digest all belong to rows that still name it. -/
def FirstLinesCarried (s : Outbox ι) (d : SentDigest ι) (n : ℕ) : Prop :=
  ∀ j < n, ∃ x ∈ d.rows[j]?, ∃ r ∈ s.get x.deliveryId, r.carries d.messageId = true

/-- The row at place `n` of a reply has line `n` just when none of the lines before it is missing. -/
theorem Numbered.ordinal_eq_iff (h : Numbered s P) (hd : d ∈ s.digests) {n : ℕ} {r : DeliveryRow ι}
    (hr : (orderRows (carriers s d.messageId))[n]? = some r) :
    ordinal r = n + 1 ↔ FirstLinesCarried s d (n + 1) := by
  obtain ⟨hperm, hincreasing⟩ := h.orderRows_increasing hd
  have hpos : ∀ o ∈ (orderRows (carriers s d.messageId)).map ordinal, 1 ≤ o := fun o ho => by
    obtain ⟨q, hq, rfl⟩ := List.mem_map.1 ho
    obtain ⟨o, x, ho, -⟩ := h.line hd (hperm.mem_iff.1 hq)
    omega
  have hplace := getElem?_increasing hincreasing hpos n
  rw [List.getElem?_map, hr, Option.map_some, Option.some_inj, Nat.add_comm 1 n] at hplace
  rw [hplace]
  refine ⟨fun hall j hj => ?_, fun hall j hj => ?_⟩
  · obtain ⟨q, hq, hqo⟩ := List.mem_map.1 (hall j (by omega))
    have hqc := hperm.mem_iff.1 hq
    obtain ⟨o, x, ho, -, hx, hid⟩ := h.line hd hqc
    obtain rfl : o = j := by omega
    refine ⟨x, hx, q, ?_, (mem_carriers.1 hqc).2⟩
    rw [show x.deliveryId = q.deliveryId from congrArg Identity.deliveryId hid]
    exact (mem_carriers.1 hqc).1
  · obtain ⟨x, hx, q, hq, hcarries⟩ := hall j (by omega)
    have hqid : q.deliveryId = x.deliveryId := deliveryId_of_get hq
    have hqc : q ∈ carriers s d.messageId := mem_carriers.2 ⟨hqid ▸ hq, hcarries⟩
    obtain ⟨o, y, ho, -, hy, hid⟩ := h.line hd hqc
    have hyx : y.deliveryId = x.deliveryId := (congrArg Identity.deliveryId hid).trans hqid
    -- one line for one row
    have hoj : o = j := index_unique (h.nodup d hd) hy hx hyx
    refine List.mem_map.2 ⟨q, hperm.mem_iff.2 hqc, ?_⟩
    omega

/-- The answer names the event of line `n` as rendered, or says that it has none. -/
def AnswersLine (d : SentDigest ι) (n : ℕ) : DetailsResponse ι → Prop
  | .unrecognized | .outOfRange _ => True
  | .item r => ∃ line ∈ d.line n, line.eventId = r.eventId
  | .index _ => False

instance (d : SentDigest ι) (n : ℕ) : ∀ response : DetailsResponse ι, Decidable (AnswersLine d n response)
  | .unrecognized | .outOfRange _ => isTrue trivial
  | .item r => inferInstanceAs (Decidable (∃ line ∈ d.line n, line.eventId = r.eventId))
  | .index _ => isFalse id

/-- No row names the digest any more, or fewer than `n` do, or line `n` was rendered and no line up to it is missing. -/
def ResolvesTo (s : Outbox ι) (d : SentDigest ι) (n : ℕ) : Prop :=
  carriers s d.messageId = [] ∨
    1 ≤ n ∧ ((carriers s d.messageId).length < n ∨ (n ≤ maxDigestRows ∧ FirstLinesCarried s d n))

instance [DecidableEq ι] (s : Outbox ι) (d : SentDigest ι) (n : ℕ) : Decidable (ResolvesTo s d n) :=
  inferInstanceAs (Decidable (carriers s d.messageId = [] ∨ 1 ≤ n ∧ ((carriers s d.messageId).length < n ∨
    (n ≤ maxDigestRows ∧ ∀ j < n, ∃ x ∈ d.rows[j]?, ∃ r ∈ s.get x.deliveryId, r.carries d.messageId = true))))

theorem buildDetailsResponse_numbered {contexts : List (DeliveryRow ι)} {n : ℕ} (h : contexts ≠ []) :
    buildDetailsResponse contexts (some n) =
      match contexts[n - 1]? with
      | some row => .item row
      | none => .outOfRange contexts.length := by
  unfold buildDetailsResponse
  exact (if_neg h).trans (if_pos (Or.inr Option.isSome_some))

/-- The event of a row at its place, and the line that was rendered there. -/
theorem Numbered.answersLine_iff (h : Numbered s P) (hd : d ∈ s.digests) {n : ℕ} {r : DeliveryRow ι}
    (hr : r ∈ carriers s d.messageId) : (ordinal r = n + 1 ∧ n + 1 ≤ maxDigestRows → AnswersLine d (n + 1) (.item r)) ∧
      ((d.rows.map (·.eventId)).Nodup → AnswersLine d (n + 1) (.item r) → ordinal r = n + 1 ∧ n + 1 ≤ maxDigestRows) := by
  obtain ⟨o, x, ho, -, hx, hid⟩ := h.line hd hr
  have hline : ∀ m, d.lines[m]? = if m < maxDigestRows then (d.rows[m]?).map digestLine else none := fun m => by
    rw [SentDigest.lines, List.getElem?_map, List.getElem?_take]
    split <;> rfl
  refine ⟨fun ⟨hn, hmax⟩ => ?_, fun hevents hans => ?_⟩
  · obtain rfl : o = n := by omega
    refine ⟨digestLine x, ?_, congrArg Identity.eventId hid⟩
    rw [Option.mem_def, SentDigest.line, hline, if_pos (by omega), hx, Option.map_some]
  · obtain ⟨line, hl, hevent⟩ := hans
    rw [Option.mem_def, SentDigest.line, hline] at hl
    split at hl
    · rename_i hlt
      obtain ⟨y, hy, rfl⟩ := Option.map_eq_some_iff.1 hl
      have hyx : y.eventId = x.eventId := hevent.trans (congrArg Identity.eventId hid).symm
      have hno : n = o := index_unique hevents hy hx hyx
      omega
    · cases hl

theorem Numbered.resolves (h : Numbered s P) (hd : d ∈ s.digests) (n : ℕ) :
    (ResolvesTo s d n → AnswersLine d n (detailsResponse s d.messageId (some n))) ∧
      ((d.rows.map (·.eventId)).Nodup → AnswersLine d n (detailsResponse s d.messageId (some n)) → ResolvesTo s d n) := by
  obtain ⟨hperm, -⟩ := h.orderRows_increasing hd
  by_cases hnone : carriers s d.messageId = []
  · have hempty : orderRows (carriers s d.messageId) = [] := by rw [hnone]; rfl
    rw [detailsResponse, hempty]
    exact ⟨fun _ => trivial, fun _ _ => Or.inl hnone⟩
  have hne : orderRows (carriers s d.messageId) ≠ [] := fun he => hnone (by
    rw [he] at hperm
    exact hperm.symm.eq_nil)
  rw [detailsResponse, buildDetailsResponse_numbered hne]
  cases n with
  | zero =>
    -- the number `0` is answered with the first row, and no line has it
    cases hr : (orderRows (carriers s d.messageId))[0]? with
    | none => exact absurd (List.length_eq_zero_iff.1 (Nat.le_zero.1 (List.getElem?_eq_none_iff.1 hr))) hne
    | some r =>
      refine ⟨fun hres => ?_, fun _ hans => ?_⟩
      · rcases hres with he | ⟨hpos, -⟩
        · exact absurd he hnone
        · omega
      · obtain ⟨line, hl, -⟩ := hans
        cases hl
  | succ n =>
    rw [Nat.add_sub_cancel]
    cases hr : (orderRows (carriers s d.messageId))[n]? with
    | none =>
      have hlen := List.getElem?_eq_none_iff.1 hr
      rw [hperm.length_eq] at hlen
      exact ⟨fun _ => trivial, fun _ _ => Or.inr ⟨by omega, Or.inl (by omega)⟩⟩
    | some r =>
      have hmem : r ∈ carriers s d.messageId := hperm.mem_iff.1 (List.mem_of_getElem? hr)
      have hlen : n < (carriers s d.messageId).length := hperm.length_eq ▸ (List.getElem?_eq_some_iff.1 hr).1
      obtain ⟨hto, hfrom⟩ := h.answersLine_iff hd hmem (n := n)
      refine ⟨fun hres => hto ?_, fun hevents hans => ?_⟩
      · rcases hres with he | ⟨-, hshort | ⟨hmax, hcarried⟩⟩
        · exact absurd he hnone
        · omega
        · exact ⟨(h.ordinal_eq_iff hd hr).2 hcarried, hmax⟩
      · obtain ⟨ho, hmax⟩ := hfrom hevents hans
        exact Or.inr ⟨by omega, Or.inr ⟨hmax, (h.ordinal_eq_iff hd hr).1 ho⟩⟩

end Replies

/-! ## Runs -/

section Runs

variable [DecidableEq ι]

/-- The transport gives every message an id of its own. -/
def freshIds (S : Sys ι (Label ι) (Outbox ι)) : Move ι (Label ι) → Prop
  | .commit _ l => FreshIds l S.store
  | _ => True

instance (S : Sys ι (Label ι) (Outbox ι)) (i : ι) (l : Label ι) : Decidable (freshIds S (.commit i l)) :=
  inferInstanceAs (Decidable (FreshIds l S.store))

omit [DecidableEq ι] in
theorem numbered_empty (env : Environment) : Numbered (Outbox.empty env : Outbox ι) fun _ => ⟨[], .idle⟩ where
  row k r h := by simp [Outbox.get, Outbox.empty, Table.get] at h
  acknowledged _ hd := (List.not_mem_nil hd).elim
  distinct := List.nodup_nil
  nodup _ hd := (List.not_mem_nil hd).elim
  phase _ := ⟨known_nil _, known_nil _, List.nodup_nil, trivial⟩

theorem reach_numbered {env : Environment} {S : Sys ι (Label ι) (Outbox ι)}
    (h : Reach Starts freshIds (Sys.idle (.empty env)) S) : ∃ P, InPhase Numbered Turn S P :=
  h.follows (fun _ _ => starts_follow) (fun _ _ _ ha => ha) (fun _ _ i h => h.idle i (known_nil _))
    (fun _ _ _ _ _ _ h hE ht => ht.numbered h hE rfl) (numbered_empty env)

/-- In every state that enqueues and drains reach, with a transport that gives every message an id of its own, and for
every digest that the transport accepted: "details n" is answered with the event of line `n` as rendered, or with no event,
where `ResolvesTo` holds, and only there when the rows of the digest are of different events. -/
theorem digest_reply_resolves {env : Environment} {S : Sys ι (Label ι) (Outbox ι)}
    (h : Reach Starts freshIds (Sys.idle (.empty env)) S) (d : SentDigest ι) (hd : d ∈ S.store.digests) (n : ℕ) :
    (ResolvesTo S.store d n → AnswersLine d n (detailsResponse S.store d.messageId (some n))) ∧
      ((d.rows.map (·.eventId)).Nodup → AnswersLine d n (detailsResponse S.store d.messageId (some n)) →
        ResolvesTo S.store d n) := by
  obtain ⟨P, hP⟩ := reach_numbered h
  exact hP.inv.resolves hd n

end Runs

/-! ## Samples -/

def digestCard (eventId : EventId) (symbol : String) : Message :=
  ⟨eventId, symbol, some .low, .digest, "text", "hash", []⟩

/-- Processes `0` and `1` enqueue two cards, `2` sends them in a digest, `3` approves an update of the first, `4` drains. -/
def digestThenUpdate : Sys ℕ (Label ℕ) (Outbox ℕ) :=
  (((((Sys.idle (.empty (fadingEvidence 100))).start 0 (enqueue "d1" (digestCard "E1" "AAA") .new (some 0))).start 1
    (enqueue "d2" (digestCard "E2" "BBB") .new (some 0))).start 2 (processDigest 2 (drain false) 3600 (some 0))).start 3
      (enqueue "d1" { digestCard "E1" "AAA" with contentHash := "newer hash" } .update (some 0))).start 4
        (processPending 4 (drain false) (some 0))

theorem reach_digestThenUpdate {allow : Sys ℕ (Label ℕ) (Outbox ℕ) → Move ℕ (Label ℕ) → Prop}
    (ha : ∀ S i, allow S (.start i)) :
    Reach Starts allow (Sys.idle (.empty (fadingEvidence 100))) digestThenUpdate :=
  ((((Reach.refl.step (.start (i := 0) rfl (.enqueue _ _ _ _)) (ha _ _)).step
    (.start (i := 1) rfl (.enqueue _ _ _ _)) (ha _ _)).step (.start (i := 2) rfl (.processDigest _ _ _)) (ha _ _)).step
      (.start (i := 3) rfl (.enqueue _ _ _ _)) (ha _ _)).step (.start (i := 4) rfl (.processPending _ _)) (ha _ _)

/-- The digest is out. -/
def digestOut : Sys ℕ (Label ℕ) (Outbox ℕ) :=
  digestThenUpdate.commits (List.replicate 2 0 ++ List.replicate 2 1 ++ List.replicate 12 2)

theorem reach_digestOut : Reach Starts freshIds (Sys.idle (.empty (fadingEvidence 100))) digestOut :=
  (reach_digestThenUpdate fun _ _ => trivial).permits (by decide +kernel)

theorem digest_reply_resolves_sample : ∃ d ∈ digestOut.store.digests, d.lines.map (·.eventId) = ["E1", "E2"] ∧
    AnswersLine d 2 (detailsResponse digestOut.store d.messageId (some 2)) := by
  have hd : ∃ d ∈ digestOut.store.digests, d.lines.map (·.eventId) = ["E1", "E2"] ∧
      ResolvesTo digestOut.store d 2 := by decide +kernel
  obtain ⟨d, hd, hlines, hresolves⟩ := hd
  exact ⟨d, hd, hlines, (digest_reply_resolves reach_digestOut d hd 2).1 hresolves⟩

/-- The first row is updated and sent again in a message of its own: "details 1" on the digest names its second event. -/
theorem reply_to_other_line :
    ∃ S : Sys ℕ (Label ℕ) (Outbox ℕ), Reach Starts freshIds (Sys.idle (.empty (fadingEvidence 100))) S ∧
      ∃ d ∈ S.store.digests, ¬ AnswersLine d 1 (detailsResponse S.store d.messageId (some 1)) :=
  ⟨digestOut.commits (List.replicate 2 3 ++ List.replicate 9 4), reach_digestOut.permits (by decide +kernel),
    by decide +kernel⟩

end TalonX.Delivery
