import TalonX.Transact.Amid
import TalonX.V2.TerminalIntent

/-!
# What a cutover reports

`classifyAndCancel` is the cutover with the record that it returns. It lists the `PENDING` intents once and updates them
one by one, each in a commit of its own; an update that finds its intent no longer `PENDING` changes nothing, and is
reported all the same. The report is true of exactly the runs in which no commit of another process takes a listed
intent out of `PENDING` (`truthful_iff`), a call that fails has moved nothing exactly when none of its updates committed
on a `PENDING` intent (`untouched_iff`), and a repeated call moves nothing when no intent was admitted in between and no
deadline has passed (`repeat_quiet`).
-/

set_option autoImplicit false

namespace TalonX.V2

open Transact

/-! ## The call and its result -/

/-- `classify_and_cancel_pending_at_cutover` with the result that it returns. -/
def classifyAndCancel (cal : Calendar) (c : CutoverInput) : Prog Call Store CutoverRecord := do
  let pending ← Prog.read .read Store.pendingEntryIntents
  let r ← Prog.foldEach pending ⟨c.cutoverId, c.asOfSession, [], [], []⟩ (classifyIntent cal c)
  Prog.write .recordCutover (·.recordCutover r)
  pure r

/-- What is done with a listed intent: `none` when its deadline cannot be computed, else its new status, if any. -/
def verdict (cal : Calendar) (c : CutoverInput) (iid : IntentId) : Option (Option IntentStatus) :=
  if c.asOfSession < iid.2 then some (some .cancelledCutover)
  else (cal.recoveryDeadlinePassed iid.2 c.maxEntryStalenessSessions c.asOfSession c.live c.now).map fun passed =>
    if passed then some .expiredRecoveryDeadline else none

namespace CutoverRecord

/-- The result after an intent. -/
def add (r : CutoverRecord) (iid : IntentId) : Option IntentStatus → CutoverRecord
  | some .cancelledCutover => { r with cancelled := r.cancelled ++ [iid] }
  | some _ => { r with expired := r.expired ++ [iid] }
  | none => { r with retained := r.retained ++ [iid] }

end CutoverRecord

variable {cal : Calendar} {cfg : V2Config} {c : CutoverInput}

/-- The same calls, without the result. -/
theorem classifyAndCancelPendingAtCutover_eq :
    classifyAndCancelPendingAtCutover cal c = (classifyAndCancel cal c).bind fun _ => .ret () := by
  refine (bind_assoc (Prog.read _ _) _ _).trans (congrArg _ (funext fun pending => ?_)) |>.symm
  refine (bind_assoc (Prog.foldEach pending _ _) _ _).trans (congrArg _ (funext fun r => ?_))
  rfl

theorem classifyIntent_eq (r : CutoverRecord) (it : EntryIntent) : classifyIntent cal c r it =
    (Prog.ofOption (verdict cal c it.intentId)).bind fun v =>
      match v with
      | some st => (markIntent it st).bind fun _ => .ret (r.add it.intentId (some st))
      | none => .ret (r.add it.intentId none) := by
  unfold classifyIntent verdict
  by_cases h : c.asOfSession < it.targetEntrySession
  · have h' : c.asOfSession < it.intentId.2 := h
    rw [if_pos h, if_pos h']
    rfl
  · have h' : ¬c.asOfSession < it.intentId.2 := h
    rw [if_neg h, if_neg h']
    show (Prog.ofOption (cal.recoveryDeadlinePassed it.intentId.2 c.maxEntryStalenessSessions c.asOfSession c.live
      c.now)).bind _ = _
    cases cal.recoveryDeadlinePassed it.intentId.2 c.maxEntryStalenessSessions c.asOfSession c.live c.now with
    | none => rfl
    | some passed => cases passed <;> rfl

/-- The updates that the listed intents are due. -/
def updatesOf (cal : Calendar) (c : CutoverInput) (its : List EntryIntent) : List (EntryIntent × IntentStatus) :=
  its.filterMap fun it => ((verdict cal c it.intentId).bind id).map fun st => (it, st)

/-- The result over a list of intents. -/
def report (cal : Calendar) (c : CutoverInput) (r : CutoverRecord) (its : List EntryIntent) : CutoverRecord :=
  its.foldl (fun r it => (verdict cal c it.intentId).elim r (r.add it.intentId)) r

/-- A committed update. -/
def IsUpdate (u : EntryIntent × IntentStatus) (e : Event Call Store) : Prop :=
  e.lbl = .markEntryIntent u.1.episodeId u.2 ∧ e.fault = .none ∧ e.post = e.pre.markEntryIntent u.1.intentId u.2 none

theorem trace_classifyIntent {r : CutoverRecord} {it : EntryIntent} {es : List (Event Call Store)}
    {o : Outcome CutoverRecord} (h : Trace (classifyIntent cal c r it) es o) :
    (∃ v, verdict cal c it.intentId = some v ∧ o = .done (r.add it.intentId v) ∧
      List.Forall₂ IsUpdate (updatesOf cal c [it]) es) ∨ (∀ r', o ≠ .done r') ∧ ∀ e ∈ es, e.Failed := by
  rw [classifyIntent_eq] at h
  rcases trace_bind h with ⟨v, es₁, es₂, rfl, hv, h⟩ | ⟨hv, rfl⟩ | ⟨hv, rfl⟩
  · obtain ⟨rfl, hsome, hnone⟩ := trace_ofOption hv
    have hverdict : verdict cal c it.intentId = some v := by
      cases hx : verdict cal c it.intentId with
      | none => cases hnone hx
      | some v' => rw [Outcome.done.inj (hsome v' hx)]
    have hup : updatesOf cal c [it] = (v.map fun st => (it, st)).toList := by
      simp only [updatesOf, List.filterMap_cons, hverdict, Option.bind_some, id, List.filterMap_nil]
      cases v <;> rfl
    rw [List.nil_append, hup]
    cases v with
    | none =>
      cases h
      exact .inl ⟨none, hverdict, rfl, .nil⟩
    | some st =>
      rcases trace_bind h with ⟨u, es₃, es₄, rfl, hm, hret⟩ | ⟨hm, rfl⟩ | ⟨hm, rfl⟩
      · cases hret
        rcases trace_write hm with ⟨s, rfl, -⟩ | ⟨e, -, -, -, hno⟩
        · exact .inl ⟨some st, hverdict, rfl, .cons ⟨rfl, rfl, rfl⟩ .nil⟩
        · exact absurd rfl (hno u)
      · rcases trace_write hm with ⟨s, -, ho⟩ | ⟨e, rfl, -, hf, -⟩
        · cases ho
        · exact .inr ⟨nofun, by simpa using hf⟩
      · rcases trace_write hm with ⟨s, -, ho⟩ | ⟨e, rfl, -, hf, -⟩
        · cases ho
        · exact .inr ⟨nofun, by simpa using hf⟩
  · rw [(trace_ofOption hv).1]
    exact .inr ⟨nofun, by simp⟩
  · rw [(trace_ofOption hv).1]
    exact .inr ⟨nofun, by simp⟩

theorem updatesOf_cons (it : EntryIntent) (its : List EntryIntent) :
    updatesOf cal c (it :: its) = updatesOf cal c [it] ++ updatesOf cal c its := by
  rw [updatesOf, ← List.singleton_append, List.filterMap_append]
  rfl

/-- The updates of a loop over the listed intents: a prefix of those that are due, and all of them when it ends. -/
theorem trace_foldEach {its : List EntryIntent} {r : CutoverRecord} {es : List (Event Call Store)}
    {o : Outcome CutoverRecord} (h : Trace (Prog.foldEach its r (classifyIntent cal c)) es o) :
    ∃ us es₁ es₂, es = es₁ ++ es₂ ∧ us <+: updatesOf cal c its ∧ List.Forall₂ IsUpdate us es₁ ∧
      (∀ e ∈ es₂, e.Failed) ∧ ∀ r', o = .done r' → es₂ = [] ∧ us = updatesOf cal c its ∧
        (∀ it ∈ its, verdict cal c it.intentId ≠ none) ∧ r' = report cal c r its := by
  induction its generalizing r es with
  | nil =>
    cases h
    exact ⟨[], [], [], rfl, List.prefix_rfl, .nil, by simp, fun r' hr => ⟨rfl, rfl, by simp, (Outcome.done.inj hr).symm⟩⟩
  | cons it its ih =>
    rcases trace_bind h with ⟨r₁, es₁, es₂, rfl, h1, h2⟩ | ⟨h1, rfl⟩ | ⟨h1, rfl⟩
    · rcases trace_classifyIntent h1 with ⟨v, hv, hr, hup⟩ | ⟨hno, -⟩
      · obtain ⟨us, es₃, es₄, rfl, hpre, hus, hfail, hdone⟩ := ih h2
        refine ⟨updatesOf cal c [it] ++ us, es₁ ++ es₃, es₄, by simp, ?_, List.rel_append hup hus, hfail,
          fun r' ho => ?_⟩
        · rw [updatesOf_cons it its]
          exact (List.prefix_append_right_inj _).2 hpre
        · obtain ⟨hnil, rfl, hall, rfl⟩ := hdone r' ho
          refine ⟨hnil, (updatesOf_cons it its).symm, ?_, ?_⟩
          · rintro it' (_ | ⟨_, hmem⟩)
            · rw [hv]
              simp
            · exact hall it' hmem
          · rw [Outcome.done.inj hr, report, report, List.foldl_cons, hv]
            rfl
      · exact absurd rfl (hno r₁)
    · rcases trace_classifyIntent h1 with ⟨v, -, ho, -⟩ | ⟨-, hfail⟩
      · cases ho
      · exact ⟨[], [], es, rfl, List.nil_prefix, .nil, hfail, nofun⟩
    · rcases trace_classifyIntent h1 with ⟨v, -, ho, -⟩ | ⟨-, hfail⟩
      · cases ho
      · exact ⟨[], [], es, rfl, List.nil_prefix, .nil, hfail, nofun⟩

/-- The intents that a call listed. -/
def listing : List (Event Call Store) → List EntryIntent
  | [] => []
  | e :: _ => if e.fault = .none then e.pre.pendingEntryIntents else []

/-- What a cutover did: the listing, committed updates, and then either the audit row or a call that failed. -/
structure CutoverTrace (cal : Calendar) (c : CutoverInput) (es : List (Event Call Store)) (o : Outcome CutoverRecord)
    (head : List (Event Call Store)) (us : List (EntryIntent × IntentStatus)) (ups tail : List (Event Call Store)) :
    Prop where
  events : es = head ++ ups ++ tail
  opening : (head = [] ∧ us = [] ∧ ups = [] ∧ listing es = [] ∧ ∀ r, o ≠ .done r) ∨ ∃ t, head = [⟨.read, t, t, .none⟩]
  updates : List.Forall₂ IsUpdate us ups
  due : us <+: updatesOf cal c (listing es)
  ended : (∀ r, o ≠ .done r) ∧ (∀ e ∈ tail, e.Failed) ∨
    ∃ e r, tail = [e] ∧ (e.lbl = .recordCutover ∧ e.fault = .none ∧ e.post = e.pre.recordCutover r) ∧ o = .done r ∧
      us = updatesOf cal c (listing es) ∧ (∀ it ∈ listing es, verdict cal c it.intentId ≠ none) ∧
      r = report cal c ⟨c.cutoverId, c.asOfSession, [], [], []⟩ (listing es)

theorem trace_cutover {es : List (Event Call Store)} {o : Outcome CutoverRecord}
    (h : Trace (classifyAndCancel cal c) es o) : ∃ head us ups tail, CutoverTrace cal c es o head us ups tail := by
  rcases trace_bind h with ⟨its, es₁, es₂, rfl, hread, h⟩ | ⟨hread, rfl⟩ | ⟨hread, rfl⟩
  · rcases trace_read hread with ⟨s, rfl, hits⟩ | ⟨e, -, -, -, hno⟩
    · obtain rfl := Outcome.done.inj hits
      have hlist : ∀ es, listing (([⟨Call.read, s, s, Fault.none⟩] : List (Event Call Store)) ++ es) =
          s.pendingEntryIntents := fun _ => rfl
      rcases trace_bind h with ⟨r, es₃, es₄, rfl, hfold, hrec⟩ | ⟨hfold, rfl⟩ | ⟨hfold, rfl⟩
      · obtain ⟨us, es₅, es₆, rfl, hpre, hus, -, hdone⟩ := trace_foldEach hfold
        obtain ⟨rfl, hall, hver, hr⟩ := hdone r rfl
        rcases trace_bind hrec with ⟨u, es₇, es₈, rfl, hw, hret⟩ | ⟨hw, rfl⟩ | ⟨hw, rfl⟩
        · cases hret
          rcases trace_write hw with ⟨t, rfl, -⟩ | ⟨e, -, -, -, hno⟩
          · exact ⟨_, us, es₅, [⟨.recordCutover, t, t.recordCutover r, .none⟩], by simp, .inr ⟨s, rfl⟩, hus, by rwa [hlist],
              .inr ⟨_, r, rfl, ⟨rfl, rfl, rfl⟩, rfl, by rwa [hlist], by rwa [hlist], by rwa [hlist]⟩⟩
          · exact absurd rfl (hno u)
        · rcases trace_write hw with ⟨t, -, ho⟩ | ⟨e, rfl, -, hf, -⟩
          · cases ho
          · exact ⟨_, us, es₅, [e], by simp, .inr ⟨s, rfl⟩, hus, by rwa [hlist], .inl ⟨nofun, by simpa using hf⟩⟩
        · rcases trace_write hw with ⟨t, -, ho⟩ | ⟨e, rfl, -, hf, -⟩
          · cases ho
          · exact ⟨_, us, es₅, [e], by simp, .inr ⟨s, rfl⟩, hus, by rwa [hlist], .inl ⟨nofun, by simpa using hf⟩⟩
      · obtain ⟨us, es₅, es₆, rfl, hpre, hus, hf, -⟩ := trace_foldEach hfold
        exact ⟨_, us, es₅, es₆, by simp, .inr ⟨s, rfl⟩, hus, by rwa [hlist], .inl ⟨nofun, hf⟩⟩
      · obtain ⟨us, es₅, es₆, rfl, hpre, hus, hf, -⟩ := trace_foldEach hfold
        exact ⟨_, us, es₅, es₆, by simp, .inr ⟨s, rfl⟩, hus, by rwa [hlist], .inl ⟨nofun, hf⟩⟩
    · exact absurd rfl (hno its)
  · rcases trace_read hread with ⟨s, -, ho⟩ | ⟨e, rfl, -, hf, -⟩
    · cases ho
    · have hlist : listing [e] = [] := if_neg hf.1
      exact ⟨[], [], [], [e], rfl, .inl ⟨rfl, rfl, rfl, hlist, nofun⟩, .nil, List.nil_prefix, .inl ⟨nofun, by simpa using hf⟩⟩
  · rcases trace_read hread with ⟨s, -, ho⟩ | ⟨e, rfl, -, hf, -⟩
    · cases ho
    · have hlist : listing [e] = [] := if_neg hf.1
      exact ⟨[], [], [], [e], rfl, .inl ⟨rfl, rfl, rfl, hlist, nofun⟩, .nil, List.nil_prefix, .inl ⟨nofun, by simpa using hf⟩⟩

/-! ## Intents over a history -/

namespace Store

/-- The intent is in the table, `PENDING`. -/
def isPending (s : Store) (iid : IntentId) : Bool :=
  (s.entryIntent iid.1).any fun it => it.intentId = iid && it.status = .pending

theorem isPending_iff {s : Store} {iid : IntentId} :
    s.isPending iid = true ↔ ∃ it, s.entryIntent iid.1 = some it ∧ it.intentId = iid ∧ it.status = .pending := by
  simp [isPending, Option.any_eq_true]

end Store

/-- No intent is lost, and one that is not `PENDING` stays as it is. -/
def OnlySettles (s t : Store) : Prop :=
  ∀ e it, s.entryIntent e = some it →
    ∃ it', t.entryIntent e = some it' ∧ it'.intentId = it.intentId ∧ (it.status ≠ .pending → it' = it)

theorem onlySettles_refl (s : Store) : OnlySettles s s := fun _ it h => ⟨it, h, rfl, fun _ => rfl⟩

theorem OnlySettles.trans {s t u : Store} (h : OnlySettles s t) (h' : OnlySettles t u) : OnlySettles s u := by
  intro e it hi
  obtain ⟨it₁, h1, hid₁, hs₁⟩ := h e it hi
  obtain ⟨it₂, h2, hid₂, hs₂⟩ := h' e it₁ h1
  refine ⟨it₂, h2, hid₂.trans hid₁, fun hp => ?_⟩
  obtain rfl := hs₁ hp
  exact hs₂ hp

theorem onlySettles_of_intents {s t : Store} (h : t.intents = s.intents) : OnlySettles s t := fun e it hi =>
  ⟨it, by rw [Store.entryIntent, h]; exact hi, rfl, fun _ => rfl⟩

theorem onlySettles_markEntryIntent (s : Store) (iid : IntentId) (st : IntentStatus) (fill : Option (ℕ × ℚ × Date)) :
    OnlySettles s (s.markEntryIntent iid st fill) := by
  intro e it hi
  rw [Store.entryIntent_markEntryIntent, hi, Option.map_some]
  refine ⟨_, rfl, ?_, fun hp => if_neg (by simp [hp])⟩
  split <;> rfl

theorem onlySettles_upsertEntryIntent (s : Store) (i : EntryIntent) : OnlySettles s (s.upsertEntryIntent i) := by
  intro e it hi
  have hmem : it ∈ (s.intents.insertOrIgnore i).rows := Table.mem_insertOrIgnore_of_mem (Table.mem_of_get hi)
  exact ⟨it, Table.get_eq_some.2 ⟨hmem, Table.key_of_get hi⟩, rfl, fun _ => rfl⟩

/-- So does every call of a tick or of a cutover. -/
theorem onlySettles_of_call {of : TickInput → Prop} {l : Call} {s t : Store} (h : LedgerCall cal cfg of l s t) :
    OnlySettles s t := by
  cases h with
  | exit h => exact onlySettles_of_intents h.frame.intents
  | entry h =>
    cases h with
    | intent h =>
      cases h with
      | mark it st s _ _ => exact onlySettles_markEntryIntent _ _ _ _
      | reserve i ep s _ =>
        unfold admitTxn
        split
        · exact onlySettles_refl s
        split
        · exact onlySettles_refl s
        · exact onlySettles_upsertEntryIntent s _
      | _ => exact onlySettles_of_intents rfl
    | rollback i e s => exact onlySettles_refl s
    | fill hf =>
      rcases fillTxn_cases hf with ⟨rfl, -⟩ | ⟨-, why, rfl, -⟩ | ⟨row, px, n, hf, -⟩
      · exact onlySettles_refl _
      · exact onlySettles_of_intents rfl
      · obtain ⟨-, -, ⟨fill, hint⟩, -⟩ := hf.tables
        refine OnlySettles.trans ?_ (onlySettles_of_intents hint)
        unfold markFilled
        split
        · exact onlySettles_refl _
        split
        · exact onlySettles_markEntryIntent _ _ _ _
        · exact onlySettles_refl _

/-- The intent is in the table, and no longer `PENDING`. -/
def Ended (s : Store) (iid : IntentId) : Prop :=
  ∃ it, s.entryIntent iid.1 = some it ∧ it.intentId = iid ∧ it.status ≠ .pending

theorem OnlySettles.ended {s t : Store} {iid : IntentId} (h : OnlySettles s t) (hs : Ended s iid) : Ended t iid := by
  obtain ⟨it, hi, hid, hp⟩ := hs
  obtain ⟨it', hi', -, hsame⟩ := h _ _ hi
  obtain rfl := hsame hp
  exact ⟨it', hi', hid, hp⟩

theorem Ended.not_isPending {s : Store} {iid : IntentId} (h : Ended s iid) : s.isPending iid = false := by
  obtain ⟨it, hi, -, hp⟩ := h
  simp [Store.isPending, hi, hp]

/-- An intent that ceases to be `PENDING` is settled. -/
theorem OnlySettles.ended_of_pending {s t : Store} {iid : IntentId} (h : OnlySettles s t) (hs : s.isPending iid = true)
    (ht : t.isPending iid = false) : Ended t iid := by
  obtain ⟨it, hi, hid, -⟩ := Store.isPending_iff.1 hs
  obtain ⟨it', hi', hid', -⟩ := h _ _ hi
  refine ⟨it', hi', hid'.trans hid, fun hp => ?_⟩
  rw [Store.isPending_iff.2 ⟨it', hi', hid'.trans hid, hp⟩] at ht
  cases ht

theorem ended_markEntryIntent {s : Store} {iid : IntentId} {st : IntentStatus} (hst : st ≠ .pending) {it : EntryIntent}
    (hi : s.entryIntent iid.1 = some it) (hid : it.intentId = iid) : Ended (s.markEntryIntent iid st none) iid := by
  refine ⟨_, by rw [Store.entryIntent_markEntryIntent, hi, Option.map_some], ?_, ?_⟩
  · split
    · exact hid
    · exact hid
  · split
    · exact hst
    · rename_i h
      simpa [hid] using h

theorem isPending_markEntryIntent_of_ne {s : Store} {iid iid' : IntentId} (st : IntentStatus) (h : iid' ≠ iid)
    (hp : s.isPending iid' = true) : (s.markEntryIntent iid st none).isPending iid' = true := by
  obtain ⟨it, hi, hid, hpend⟩ := Store.isPending_iff.1 hp
  refine Store.isPending_iff.2 ⟨it, ?_, hid, hpend⟩
  rw [Store.entryIntent_markEntryIntent, hi, Option.map_some, if_neg]
  simp [hid, h]

theorem isPending_of_mem {s : Store} {it : EntryIntent} (h : it ∈ s.pendingEntryIntents) :
    s.isPending it.intentId = true := by
  obtain ⟨hmem, hp⟩ := List.mem_filter.1 (mem_orderByDateText.1 h)
  exact Store.isPending_iff.2 ⟨it, Table.get_eq_some.2 ⟨hmem, rfl⟩, rfl, by simpa using hp⟩

/-! ## What a commit moves -/

/-- The intents that a commit took out of `PENDING`, with their new status. -/
def transitions (e : Event Call Store) : List (IntentId × IntentStatus) :=
  e.pre.intents.rows.filterMap fun it =>
    if it.status = .pending then
      (e.post.entryIntent it.episodeId).bind fun it' =>
        if it'.status = .pending then none else some (it.intentId, it'.status)
    else none

theorem mem_transitions {e : Event Call Store} {m : IntentId × IntentStatus} (h : m ∈ transitions e) :
    e.pre.isPending m.1 = true ∧ ∃ it', e.post.entryIntent m.1.1 = some it' ∧ it'.status ≠ .pending := by
  obtain ⟨it, hit, hm⟩ := List.mem_filterMap.1 h
  split at hm
  · rename_i hp
    obtain ⟨it', hi', hm⟩ := Option.bind_eq_some_iff.1 hm
    split at hm
    · cases hm
    · rename_i hp'
      obtain rfl := Option.some.inj hm
      exact ⟨Store.isPending_iff.2 ⟨it, Table.get_eq_some.2 ⟨hit, rfl⟩, rfl, hp⟩, it', hi', hp'⟩
  · cases hm

theorem entryIntent_of_mem {s : Store} {it : EntryIntent} (h : it ∈ s.intents.rows) :
    s.entryIntent it.episodeId = some it := Table.get_eq_some.2 ⟨h, rfl⟩

theorem transitions_of_intents {e : Event Call Store} (h : e.post.intents = e.pre.intents) : transitions e = [] := by
  refine List.filterMap_eq_nil_iff.2 fun it hit => ?_
  split
  · rename_i hp
    rw [Store.entryIntent, h, show e.pre.intents.get it.episodeId = some it from entryIntent_of_mem hit]
    simp [hp]
  · rfl

theorem eq_singleton_of_mem {α : Type} {l : List α} {x : α} (h : l.length ≤ 1) (hx : x ∈ l) : l = [x] := by
  match l with
  | [y] => rw [List.mem_singleton.1 hx]
  | _ :: _ :: _ => simp at h

/-- An update moves its intent when it is `PENDING`, and nothing else. -/
theorem transitions_update {u : EntryIntent × IntentStatus} {e : Event Call Store} (h : IsUpdate u e)
    (hst : u.2 ≠ .pending) :
    transitions e = if e.pre.isPending u.1.intentId then [(u.1.intentId, u.2)] else [] := by
  obtain ⟨-, -, hpost⟩ := h
  have hrow : transitions e = (e.pre.intents.rows.filter fun it =>
      it.intentId = u.1.intentId && it.status = .pending).map fun _ => (u.1.intentId, u.2) := by
    rw [transitions, ← List.filterMap_eq_map, List.filterMap_filter]
    refine List.filterMap_congr fun it hit => ?_
    rw [hpost, Store.entryIntent_markEntryIntent, entryIntent_of_mem hit]
    by_cases hp : it.status = .pending
    · by_cases hid : it.intentId = u.1.intentId
      · simp [hp, hid, Store.marked, hst]
      · simp [hp, hid]
    · simp [hp]
  rw [hrow]
  split
  · rename_i hp
    obtain ⟨it, hi, hid, hpend⟩ := Store.isPending_iff.1 hp
    have hone : (e.pre.intents.rows.filter fun it => it.intentId = u.1.intentId && it.status = .pending).length ≤ 1 := by
      refine le_trans (List.Sublist.length_le ?_) (e.pre.intents.length_filter_key_le_one u.1.episodeId)
      refine List.monotone_filter_right _ fun it' h => ?_
      simp only [Bool.and_eq_true, decide_eq_true_eq] at h
      exact decide_eq_true (congrArg Prod.fst h.1)
    rw [eq_singleton_of_mem hone (List.mem_filter.2 ⟨Table.mem_of_get hi, by simp [hid, hpend]⟩)]
    rfl
  · rename_i hp
    rw [List.map_eq_nil_iff, List.filter_eq_nil_iff]
    intro it hit h
    simp only [Bool.and_eq_true, decide_eq_true_eq] at h
    exact hp (Store.isPending_iff.2 ⟨it, h.1 ▸ entryIntent_of_mem hit, h.1, h.2⟩)

/-! ## Updates among the commits of others -/

/-- The commits of others are calls of ticks (or of another cutover). -/
def ByTheCampaign (cal : Calendar) (cfg : V2Config) (items : List (Item Call Store)) : Prop :=
  ∀ s t, Item.other s t ∈ items → ∃ l, AnyCall cal cfg l s t

/-- No commit of another process takes one of these intents out of `PENDING`. -/
def LeftPending (its : List EntryIntent) (items : List (Item Call Store)) : Prop :=
  ∀ s t, Item.other s t ∈ items → ∀ it ∈ its, s.isPending it.intentId = true → t.isPending it.intentId = true

theorem LeftPending.tail {its : List EntryIntent} {i : Item Call Store} {items : List (Item Call Store)}
    (h : LeftPending its (i :: items)) : LeftPending its items :=
  fun s t hst => h s t (List.mem_cons_of_mem _ hst)

/-- Intents that nobody else touches are still `PENDING` when their updates commit. -/
theorem pending_at_update {us : List (EntryIntent × IntentStatus)} {ups tail : List (Event Call Store)}
    {items : List (Item Call Store)} {s s' : Store} (hchain : Chained s items s')
    (hown : ownEvents items = ups ++ tail) (hups : List.Forall₂ IsUpdate us ups)
    (hnd : (us.map fun u => u.1.intentId).Nodup) (hleft : LeftPending (us.map Prod.fst) items)
    (hpend : ∀ u ∈ us, s.isPending u.1.intentId = true) :
    List.Forall₂ (fun u e => IsUpdate u e ∧ e.pre.isPending u.1.intentId = true) us ups := by
  induction items generalizing s us ups with
  | nil =>
    obtain ⟨rfl, -⟩ := List.append_eq_nil_iff.1 hown.symm
    cases hups
    exact .nil
  | cons i items ih =>
    obtain ⟨rfl, hrest⟩ := hchain
    cases i with
    | other t t' =>
      refine ih hrest hown hups hnd hleft.tail fun u hu => ?_
      exact hleft t t' List.mem_cons_self u.1 (List.mem_map_of_mem hu) (hpend u hu)
    | own e =>
      cases hups with
      | nil => exact .nil
      | @cons u e' us ups hu hups =>
        obtain ⟨rfl, hown'⟩ := List.cons.inj hown
        obtain ⟨hne, hnd'⟩ := List.nodup_cons.1 hnd
        refine .cons ⟨hu, hpend u List.mem_cons_self⟩ (ih hrest hown' hups hnd' ?_ fun v hv => ?_)
        · exact fun s t hst it hit => hleft s t (List.mem_cons_of_mem _ hst) it (List.mem_cons_of_mem _ hit)
        · show e.post.isPending v.1.intentId = true
          rw [hu.2.2]
          refine isPending_markEntryIntent_of_ne _ (fun he => hne ?_) (hpend v (List.mem_cons_of_mem _ hv))
          exact List.mem_map.2 ⟨v, hv, he⟩

/-- The moves of updates that found their intents `PENDING`. -/
theorem transitions_updates {us : List (EntryIntent × IntentStatus)} {ups : List (Event Call Store)}
    (h : List.Forall₂ (fun u e => IsUpdate u e ∧ e.pre.isPending u.1.intentId = true) us ups)
    (hst : ∀ u ∈ us, u.2 ≠ .pending) : ups.flatMap transitions = us.map fun u => (u.1.intentId, u.2) := by
  induction h with
  | nil => rfl
  | @cons u e us ups hu _ ih =>
    rw [List.flatMap_cons, List.map_cons, ih fun v hv => hst v (List.mem_cons_of_mem _ hv),
      transitions_update hu.1 (hst u List.mem_cons_self), if_pos hu.2]
    rfl

/-! ## The due updates -/

theorem verdict_status {iid : IntentId} {st : IntentStatus} (h : verdict cal c iid = some (some st)) :
    st = .cancelledCutover ∨ st = .expiredRecoveryDeadline := by
  unfold verdict at h
  split at h
  · exact .inl (Option.some.inj (Option.some.inj h)).symm
  · obtain ⟨passed, -, h⟩ := Option.map_eq_some_iff.1 h
    cases passed with
    | true => exact .inr (Option.some.inj h).symm
    | false => cases h

theorem mem_updatesOf {its : List EntryIntent} {u : EntryIntent × IntentStatus} :
    u ∈ updatesOf cal c its ↔ u.1 ∈ its ∧ verdict cal c u.1.intentId = some (some u.2) := by
  rw [updatesOf, List.mem_filterMap]
  constructor
  · rintro ⟨it, hit, hu⟩
    obtain ⟨st, hst, rfl⟩ := Option.map_eq_some_iff.1 hu
    obtain ⟨v, hv, rfl⟩ := Option.bind_eq_some_iff.1 hst
    exact ⟨hit, hv⟩
  · rintro ⟨hit, hv⟩
    exact ⟨u.1, hit, by rw [hv]; rfl⟩

theorem updatesOf_status {its : List EntryIntent} {u : EntryIntent × IntentStatus} (h : u ∈ updatesOf cal c its) :
    u.2 ≠ .pending := by
  rcases verdict_status (mem_updatesOf.1 h).2 with hst | hst <;> simp [hst]

/-- The updates are a part of the list, in its order. -/
theorem updatesOf_sublist (its : List EntryIntent) : ((updatesOf cal c its).map Prod.fst).Sublist its := by
  induction its with
  | nil => exact .slnil
  | cons it its ih =>
    rw [updatesOf_cons, List.map_append]
    cases hv : verdict cal c it.intentId with
    | none => simpa [updatesOf, hv] using ih.cons it
    | some v =>
      cases v with
      | none => simpa [updatesOf, hv] using ih.cons it
      | some st => simpa [updatesOf, hv] using ih

/-- The listing names no intent twice. -/
theorem nodup_pendingEntryIntents (s : Store) : (s.pendingEntryIntents.map EntryIntent.episodeId).Nodup := by
  have hperm : s.pendingEntryIntents.Perm (s.intents.rows.filter (·.status = .pending)) := List.perm_insertionSort _ _
  exact (hperm.map _).nodup_iff.2 ((List.filter_sublist.map _).nodup s.intents.unique)

theorem nodup_listing (es : List (Event Call Store)) : ((listing es).map EntryIntent.episodeId).Nodup := by
  unfold listing
  split
  · exact List.nodup_nil
  · split
    · exact nodup_pendingEntryIntents _
    · exact List.nodup_nil

theorem nodup_updatesOf {its : List EntryIntent} (h : (its.map EntryIntent.episodeId).Nodup) :
    ((updatesOf cal c its).map fun u => u.1.intentId).Nodup := by
  have hsub : ((updatesOf cal c its).map Prod.fst).Sublist its := updatesOf_sublist its
  have hnodup := (hsub.map EntryIntent.episodeId).nodup h
  rw [List.map_map] at hnodup
  refine List.Nodup.of_map Prod.fst ?_
  rw [List.map_map]
  exact hnodup

/-! ## The report -/

/-- The reported intents, by what became of them. -/
theorem report_eq (r : CutoverRecord) (its : List EntryIntent) (hall : ∀ it ∈ its, verdict cal c it.intentId ≠ none) :
    report cal c r its = { r with
      cancelled := r.cancelled ++
        ((updatesOf cal c its).filter (·.2 = .cancelledCutover)).map fun u => u.1.intentId
      expired := r.expired ++
        ((updatesOf cal c its).filter (·.2 = .expiredRecoveryDeadline)).map fun u => u.1.intentId
      retained := r.retained ++
        (its.filter fun it => verdict cal c it.intentId = some none).map EntryIntent.intentId } := by
  induction its generalizing r with
  | nil => simp [report, updatesOf]
  | cons it its ih =>
    have hrest := fun i hi => hall i (List.mem_cons_of_mem _ hi)
    have hcons : report cal c r (it :: its) = report cal c ((verdict cal c it.intentId).elim r (r.add it.intentId)) its :=
      rfl
    rw [hcons, ih _ hrest, updatesOf_cons]
    cases hv : verdict cal c it.intentId with
    | none => exact absurd hv (hall it List.mem_cons_self)
    | some v =>
      cases v with
      | none => simp [updatesOf, hv, CutoverRecord.add]
      | some st => rcases verdict_status hv with rfl | rfl <;> simp [updatesOf, hv, CutoverRecord.add]

/-- The intents that a call's own commits moved to a status, in order. -/
def made (es : List (Event Call Store)) (st : IntentStatus) : List IntentId :=
  ((es.flatMap transitions).filter (·.2 = st)).map Prod.fst

/-- A report that is true: the cancelled and the expired intents are the ones that the call's own commits moved there,
the retained ones are those listed that are still `PENDING`, nothing else was moved, and the audit row says the same. -/
structure CutoverRecord.Truthful (r : CutoverRecord) (es : List (Event Call Store)) (s' : Store) : Prop where
  cancelled : made es .cancelledCutover = r.cancelled
  expired : made es .expiredRecoveryDeadline = r.expired
  retained : ((listing es).filter fun it => s'.isPending it.intentId).map EntryIntent.intentId = r.retained
  moved : ∀ m ∈ es.flatMap transitions, m.2 = .cancelledCutover ∨ m.2 = .expiredRecoveryDeadline
  logged : ∃ e ∈ es, e.fault = .none ∧ e.post = e.pre.recordCutover r

variable {s s' : Store} {items : List (Item Call Store)} {o : Outcome CutoverRecord}

theorem flatMap_transitions_eq_nil {es : List (Event Call Store)} (h : ∀ e ∈ es, e.post.intents = e.pre.intents) :
    es.flatMap transitions = [] := List.flatMap_eq_nil_iff.2 fun e he => transitions_of_intents (h e he)

namespace CutoverTrace

variable {es head ups tail : List (Event Call Store)} {us : List (EntryIntent × IntentStatus)}

theorem mem_updates (h : CutoverTrace cal c es o head us ups tail) {u : EntryIntent × IntentStatus} (hu : u ∈ us) :
    u.1 ∈ listing es ∧ verdict cal c u.1.intentId = some (some u.2) := mem_updatesOf.1 (h.due.subset hu)

theorem status_ne (h : CutoverTrace cal c es o head us ups tail) : ∀ u ∈ us, u.2 ≠ .pending :=
  fun _ hu => updatesOf_status (h.due.subset hu)

theorem head_post (h : CutoverTrace cal c es o head us ups tail) : ∀ e ∈ head, e.post = e.pre := by
  rcases h.opening with ⟨rfl, -⟩ | ⟨t, rfl⟩ <;> simp

theorem tail_intents (h : CutoverTrace cal c es o head us ups tail) : ∀ e ∈ tail, e.post.intents = e.pre.intents := by
  intro e he
  rcases h.ended with ⟨-, hf⟩ | ⟨e', r, rfl, ⟨-, -, hpost⟩, -⟩
  · rw [(hf e he).2]
  · rw [List.mem_singleton.1 he, hpost]
    rfl

/-- Only the updates move anything. -/
theorem flatMap_transitions (h : CutoverTrace cal c es o head us ups tail) :
    es.flatMap transitions = ups.flatMap transitions := by
  rw [h.events, List.flatMap_append, List.flatMap_append,
    flatMap_transitions_eq_nil fun e he => by rw [h.head_post e he], flatMap_transitions_eq_nil h.tail_intents,
    List.nil_append, List.append_nil]

/-- Every call of a cutover leaves the settled intents alone. -/
theorem onlySettles (h : CutoverTrace cal c es o head us ups tail) : ∀ e ∈ es, OnlySettles e.pre e.post := by
  intro e he
  rw [h.events] at he
  rcases List.mem_append.1 he with he | he
  · rcases List.mem_append.1 he with he | he
    · rw [h.head_post e he]
      exact onlySettles_refl _
    · obtain ⟨u, -, hu⟩ := exists_left_of_forall₂ h.updates he
      rw [hu.2.2]
      exact onlySettles_markEntryIntent _ _ _ _
  · exact onlySettles_of_intents (h.tail_intents e he)

end CutoverTrace

/-! ## One call among the ticks -/

section Amid

variable (h : Amid (classifyAndCancel cal c) s items s' o)

include h

theorem onlySettles_items (hticks : ByTheCampaign cal cfg items) : ∀ i ∈ items, OnlySettles i.pre i.post := by
  obtain ⟨head, us, ups, tail, ht⟩ := trace_cutover h.trace
  intro i hi
  cases i with
  | own e => exact ht.onlySettles e (mem_ownEvents.2 hi)
  | other t t' =>
    obtain ⟨l, hl⟩ := hticks t t' hi
    exact onlySettles_of_call hl

/-- What follows the listing. -/
theorem after_listing {head ups tail : List (Event Call Store)} {us : List (EntryIntent × IntentStatus)}
    (ht : CutoverTrace cal c (ownEvents items) o head us ups tail) {t : Store} (hhead : head = [⟨.read, t, t, .none⟩]) :
    ∃ before after, items = before ++ .own ⟨.read, t, t, .none⟩ :: after ∧ ownEvents after = ups ++ tail ∧
      Chained t after s' ∧ listing (ownEvents items) = t.pendingEntryIntents := by
  have hown : ownEvents items = ⟨.read, t, t, .none⟩ :: (ups ++ tail) := by
    rw [ht.events, hhead, List.append_assoc]
    rfl
  obtain ⟨before, after, hitems, -, hafter⟩ := split_own hown
  have hchain := h.chain
  rw [hitems] at hchain
  obtain ⟨t', -, -, hchain⟩ := chained_of_append hchain
  exact ⟨before, after, hitems, hafter, hchain, by rw [hown]; rfl⟩

/-- Every update finds its intent `PENDING`. -/
theorem updates_move (hleft : LeftPending (listing (ownEvents items)) items) {head ups tail : List (Event Call Store)}
    {us : List (EntryIntent × IntentStatus)} (ht : CutoverTrace cal c (ownEvents items) o head us ups tail) :
    List.Forall₂ (fun u e => IsUpdate u e ∧ e.pre.isPending u.1.intentId = true) us ups := by
  rcases ht.opening with ⟨-, rfl, rfl, -⟩ | ⟨t, hhead⟩
  · exact .nil
  · obtain ⟨before, after, hitems, hafter, hchain, hlist⟩ := after_listing h ht hhead
    have hdue := ht.due
    rw [hlist] at hdue
    refine pending_at_update hchain hafter ht.updates ((hdue.sublist.map _).nodup
      (nodup_updatesOf (nodup_pendingEntryIntents t))) (fun a b hab it hit => ?_) fun u hu => ?_
    · obtain ⟨u, hu, rfl⟩ := List.mem_map.1 hit
      exact hleft a b (by rw [hitems]; simp [hab]) u.1 (ht.mem_updates hu).1
    · exact isPending_of_mem (hlist ▸ (ht.mem_updates hu).1)

/-- A listed intent that is not updated is `PENDING` to the end. -/
theorem retained_pending (hleft : LeftPending (listing (ownEvents items)) items) {it : EntryIntent}
    (hit : it ∈ listing (ownEvents items)) (hv : verdict cal c it.intentId = some none) :
    s'.isPending it.intentId = true := by
  obtain ⟨head, us, ups, tail, ht⟩ := trace_cutover h.trace
  rcases ht.opening with ⟨-, -, -, hnil, -⟩ | ⟨t, hhead⟩
  · rw [hnil] at hit
    cases hit
  · obtain ⟨before, after, hitems, hafter, hchain, hlist⟩ := after_listing h ht hhead
    by_contra hend
    obtain ⟨i, hi, hpre, hpost⟩ := exists_break (P := fun t => t.isPending it.intentId = true) hchain
      (isPending_of_mem (hlist ▸ hit)) hend
    cases i with
    | other a b => exact hpost (hleft a b (by rw [hitems]; simp [hi]) it hit hpre)
    | own e =>
      have he : e ∈ ups ++ tail := hafter ▸ mem_ownEvents.2 hi
      rcases List.mem_append.1 he with he | he
      · obtain ⟨u, hu, hup⟩ := exists_left_of_forall₂ ht.updates he
        have hne : it.intentId ≠ u.1.intentId := by
          intro heq
          have hverdict := (ht.mem_updates hu).2
          rw [← heq, hv] at hverdict
          cases hverdict
        refine hpost ?_
        show e.post.isPending it.intentId = true
        rw [hup.2.2]
        exact isPending_markEntryIntent_of_ne _ hne hpre
      · refine hpost ?_
        show e.post.isPending it.intentId = true
        rw [Store.isPending, Store.entryIntent, ht.tail_intents e he]
        exact hpre

/-- After its update an intent is no longer `PENDING`, whoever moved it. -/
theorem ended_of_update (hticks : ByTheCampaign cal cfg items) {head ups tail : List (Event Call Store)}
    {us : List (EntryIntent × IntentStatus)} (ht : CutoverTrace cal c (ownEvents items) o head us ups tail)
    {u : EntryIntent × IntentStatus} (hu : u ∈ us) : Ended s' u.1.intentId := by
  rcases ht.opening with ⟨-, rfl, -⟩ | ⟨t, hhead⟩
  · cases hu
  · obtain ⟨before, after, hitems, hafter, hchain, hlist⟩ := after_listing h ht hhead
    obtain ⟨e, he, hupd⟩ := exists_right_of_forall₂ ht.updates hu
    have hown : Item.own e ∈ after := mem_ownEvents.1 (by rw [hafter]; exact List.mem_append_left _ he)
    have hset : ∀ i ∈ after, OnlySettles i.pre i.post := fun i hi =>
      onlySettles_items h hticks i (by rw [hitems]; simp [hi])
    obtain ⟨hbefore, hlater⟩ := (hchain.kept onlySettles_refl OnlySettles.trans hset).2.1 _ hown
    have hrow : t.entryIntent u.1.intentId.1 = some u.1 :=
      Table.get_eq_some.2 ⟨(List.mem_filter.1 (mem_orderByDateText.1 (hlist ▸ (ht.mem_updates hu).1))).1, rfl⟩
    obtain ⟨it', hi', hid', -⟩ := hbefore _ _ hrow
    have hended : Ended e.post u.1.intentId := by
      rw [hupd.2.2]
      exact ended_markEntryIntent (ht.status_ne u hu) hi' hid'
    exact hlater.ended hended

/-- With nobody else at the listed intents, the report is true. -/
theorem truthful_of_left (hticks : ByTheCampaign cal cfg items) {r : CutoverRecord} (ho : o = .done r)
    (hleft : LeftPending (listing (ownEvents items)) items) : r.Truthful (ownEvents items) s' := by
  obtain ⟨head, us, ups, tail, ht⟩ := trace_cutover h.trace
  obtain ⟨e, r', rfl, ⟨-, hnone, hpost⟩, ho', rfl, hall, hr⟩ := ht.ended.resolve_left fun hf => hf.1 r ho
  obtain rfl : r = r' := Outcome.done.inj (ho.symm.trans ho')
  have hmove := updates_move h hleft ht
  have hmoved : (ownEvents items).flatMap transitions =
      (updatesOf cal c (listing (ownEvents items))).map fun u => (u.1.intentId, u.2) :=
    ht.flatMap_transitions.trans (transitions_updates hmove ht.status_ne)
  rw [report_eq _ _ hall] at hr
  have hmade : ∀ st, made (ownEvents items) st =
      ((updatesOf cal c (listing (ownEvents items))).filter (·.2 = st)).map fun u => u.1.intentId := by
    intro st
    rw [made, hmoved, List.filter_map, List.map_map]
    rfl
  refine ⟨?_, ?_, ?_, fun m hm => ?_, e, ?_, hnone, hpost⟩
  · rw [hmade, hr]
    rfl
  · rw [hmade, hr]
    rfl
  · rw [hr]
    refine congrArg (List.map EntryIntent.intentId) (List.filter_congr fun it hit => ?_)
    cases hv : verdict cal c it.intentId with
    | none => exact absurd hv (hall it hit)
    | some v =>
      cases v with
      | none => simp [retained_pending h hleft hit hv]
      | some st =>
        have hdue : (it, st) ∈ updatesOf cal c (listing (ownEvents items)) := mem_updatesOf.2 ⟨hit, hv⟩
        simp [(ended_of_update h hticks ht hdue).not_isPending]
  · rw [hmoved] at hm
    obtain ⟨u, hu, rfl⟩ := List.mem_map.1 hm
    exact verdict_status (ht.mem_updates hu).2
  · rw [ht.events]
    simp

/-- A true report is made only when nobody else was at the listed intents. -/
theorem left_of_truthful (hticks : ByTheCampaign cal cfg items) {r : CutoverRecord} (ho : o = .done r)
    (hr : r.Truthful (ownEvents items) s') : LeftPending (listing (ownEvents items)) items := by
  obtain ⟨head, us, ups, tail, ht⟩ := trace_cutover h.trace
  obtain ⟨e, r', -, -, ho', rfl, hall, hreport⟩ := ht.ended.resolve_left fun hf => hf.1 r ho
  obtain rfl : r = r' := Outcome.done.inj (ho.symm.trans ho')
  rw [report_eq _ _ hall] at hreport
  have hset := onlySettles_items h hticks
  obtain ⟨-, hend, hpair⟩ := h.chain.kept onlySettles_refl OnlySettles.trans hset
  intro a b hab it hit hp
  by_contra hnot
  have hended : Ended b it.intentId := (hset _ hab).ended_of_pending hp (Bool.eq_false_iff.2 hnot)
  have hover : s'.isPending it.intentId = false := ((hend _ hab).2.ended hended).not_isPending
  cases hv : verdict cal c it.intentId with
  | none => exact hall it hit hv
  | some v =>
    cases v with
    | none =>
      -- reported retained, and no longer `PENDING`
      have hmem : it.intentId ∈ r.retained := by
        rw [hreport]
        exact List.mem_append_right _ (List.mem_map_of_mem (List.mem_filter.2 ⟨hit, by simp [hv]⟩))
      rw [← hr.retained] at hmem
      obtain ⟨it', hit', heq⟩ := List.mem_map.1 hmem
      have := (List.mem_filter.1 hit').2
      rw [heq, hover] at this
      cases this
    | some st =>
      -- reported moved, so one of the call's own commits moved it
      have hmade : it.intentId ∈ made (ownEvents items) st := by
        have hdue : it.intentId ∈ ((updatesOf cal c (listing (ownEvents items))).filter (·.2 = st)).map
            fun u => u.1.intentId :=
          List.mem_map.2 ⟨(it, st), List.mem_filter.2 ⟨mem_updatesOf.2 ⟨hit, hv⟩, by simp⟩, rfl⟩
        rcases verdict_status hv with rfl | rfl
        · rw [hr.cancelled, hreport]
          exact hdue
        · rw [hr.expired, hreport]
          exact hdue
      obtain ⟨m, hm, hid⟩ := List.mem_map.1 hmade
      obtain ⟨e', he', hm⟩ := List.mem_flatMap.1 (List.mem_filter.1 hm).1
      obtain ⟨hpre, it', hi', hp'⟩ := mem_transitions hm
      rw [hid] at hpre hi'
      have hpost : e'.post.isPending it.intentId = false := by simp [Store.isPending, hi', hp']
      have hown := mem_ownEvents.1 he'
      have hgone := (hset _ hown).ended_of_pending hpre hpost
      rcases related_of_pairwise hpair hown hab (by simp) with hr | hr
      · have hno : a.isPending it.intentId = false := (OnlySettles.ended hr hgone).not_isPending
        rw [hno] at hp
        cases hp
      · have hno : e'.pre.isPending it.intentId = false := (OnlySettles.ended hr hended).not_isPending
        rw [hno] at hpre
        cases hpre

/-- A call moves nothing exactly when none of its updates commits on a `PENDING` intent. -/
theorem untouched_iff : (ownEvents items).flatMap transitions = [] ↔
    ∀ e ∈ ownEvents items, ∀ it ∈ listing (ownEvents items), ∀ st, e.lbl = .markEntryIntent it.episodeId st →
      e.fault = .none → e.pre.isPending it.intentId = false := by
  obtain ⟨head, us, ups, tail, ht⟩ := trace_cutover h.trace
  constructor
  · intro hnil e he it hit st hl hf
    have hnone := List.flatMap_eq_nil_iff.1 hnil e he
    have hup : e ∈ ups := by
      rw [ht.events] at he
      rcases List.mem_append.1 he with he | he
      · rcases List.mem_append.1 he with he | he
        · rcases ht.opening with ⟨rfl, -⟩ | ⟨t, rfl⟩
          · cases he
          · rw [List.mem_singleton.1 he] at hl
            cases hl
        · exact he
      · rcases ht.ended with ⟨-, hfail⟩ | ⟨e', r, rfl, ⟨hlbl, -⟩, -⟩
        · exact absurd hf (hfail e he).1
        · rw [List.mem_singleton.1 he, hlbl] at hl
          cases hl
    obtain ⟨u, hu, hupd⟩ := exists_left_of_forall₂ ht.updates hup
    obtain ⟨hep, -⟩ := Call.markEntryIntent.inj (hl.symm.trans hupd.1)
    obtain rfl : it = u.1 := List.inj_on_of_nodup_map (nodup_listing _) hit (ht.mem_updates hu).1 hep
    rw [transitions_update hupd (ht.status_ne u hu)] at hnone
    split at hnone
    · cases hnone
    · exact Bool.eq_false_iff.2 (by assumption)
  · intro hno
    rw [ht.flatMap_transitions]
    refine List.flatMap_eq_nil_iff.2 fun e he => ?_
    obtain ⟨u, hu, hupd⟩ := exists_left_of_forall₂ ht.updates he
    have hown : e ∈ ownEvents items := by
      rw [ht.events]
      simp [he]
    rw [transitions_update hupd (ht.status_ne u hu),
      hno e hown u.1 (ht.mem_updates hu).1 u.2 hupd.1 hupd.2.1]
    rfl

/-- The intents `PENDING` at the listing of a later call are those that a completed call retained, unless one was admitted
in between. -/
theorem retained_of_listed (hticks : ByTheCampaign cal cfg items) {r : CutoverRecord} (ho : o = .done r)
    {c' : CutoverInput} {items' : List (Item Call Store)} {s'' : Store} {o' : Outcome CutoverRecord}
    (h' : Amid (classifyAndCancel cal c') s' items' s'' o') (hticks' : ByTheCampaign cal cfg items')
    {it : EntryIntent} (hit : it ∈ listing (ownEvents items'))
    (hold : it.intentId ∈ (listing (ownEvents items)).map EntryIntent.intentId) :
    verdict cal c it.intentId = some none := by
  obtain ⟨head, us, ups, tail, ht⟩ := trace_cutover h.trace
  obtain ⟨-, r', -, -, -, rfl, hall, -⟩ := ht.ended.resolve_left fun hf => hf.1 r ho
  obtain ⟨it₁, hit₁, heq⟩ := List.mem_map.1 hold
  rw [← heq]
  cases hv : verdict cal c it₁.intentId with
  | none => exact absurd hv (hall it₁ hit₁)
  | some v =>
    cases v with
    | none => rfl
    | some st =>
      exfalso
      have hdue : (it₁, st) ∈ updatesOf cal c (listing (ownEvents items)) := mem_updatesOf.2 ⟨hit₁, hv⟩
      have hended := ended_of_update h hticks ht hdue
      obtain ⟨head', us', ups', tail', ht'⟩ := trace_cutover h'.trace
      rcases ht'.opening with ⟨-, -, -, hnil, -⟩ | ⟨t, hhead⟩
      · rw [hnil] at hit
        cases hit
      · obtain ⟨before, after, hitems, -, -, hlist⟩ := after_listing h' ht' hhead
        have hread : Item.own ⟨.read, t, t, .none⟩ ∈ items' := by
          rw [hitems]
          simp
        have hstill := ((h'.chain.kept onlySettles_refl OnlySettles.trans (onlySettles_items h' hticks')).2.1 _ hread).1.ended hended
        have hpend : t.isPending it.intentId = true := isPending_of_mem (hlist ▸ hit)
        have hno : t.isPending it₁.intentId = false := hstill.not_isPending
        rw [← heq, hno] at hpend
        cases hpend

end Amid

/-- A call that lists only intents to be retained moves nothing and reports nothing moved. -/
theorem quiet_of_retained (h : Amid (classifyAndCancel cal c) s items s' o)
    (hv : ∀ it ∈ listing (ownEvents items), verdict cal c it.intentId = some none) :
    (ownEvents items).flatMap transitions = [] ∧ ∀ r, o = .done r → r.cancelled = [] ∧ r.expired = [] := by
  obtain ⟨head, us, ups, tail, ht⟩ := trace_cutover h.trace
  have hnone : updatesOf cal c (listing (ownEvents items)) = [] := by
    refine List.eq_nil_iff_forall_not_mem.2 fun u hu => ?_
    obtain ⟨hit, hst⟩ := mem_updatesOf.1 hu
    rw [hv u.1 hit] at hst
    cases hst
  have hus : us = [] := List.prefix_nil.1 (hnone ▸ ht.due)
  have hups := ht.updates
  rw [hus] at hups
  cases hups
  refine ⟨ht.flatMap_transitions, fun r ho => ?_⟩
  obtain ⟨-, r', -, -, ho', -, hall, hr⟩ := ht.ended.resolve_left fun hf => hf.1 r ho
  obtain rfl : r = r' := Outcome.done.inj (ho.symm.trans ho')
  rw [report_eq _ _ hall, hnone] at hr
  rw [hr]
  exact ⟨rfl, rfl⟩

/-- When a repeated call is quiet: no intent was admitted since the first listing, and the deadlines of those that are
still `PENDING` stand as they did. -/
def Repeatable (cal : Calendar) (c c' : CutoverInput) (items items' : List (Item Call Store)) : Prop :=
  ∀ it ∈ listing (ownEvents items'), it.intentId ∈ (listing (ownEvents items)).map EntryIntent.intentId ∧
    cal.recoveryDeadlinePassed it.targetEntrySession c'.maxEntryStalenessSessions c'.asOfSession c'.live c'.now =
      cal.recoveryDeadlinePassed it.targetEntrySession c.maxEntryStalenessSessions c.asOfSession c.live c.now

/-- Among the ticks of the campaign: a completed call reports the truth exactly when no tick takes a listed intent out of
`PENDING`; a failed call has moved nothing exactly when none of its updates committed on a `PENDING` intent; and the
repetition of a completed call moves nothing when it is `Repeatable`. -/
theorem cutover_exact (h : Amid (classifyAndCancel cal c) s items s' o) (hticks : ByTheCampaign cal cfg items) :
    (∀ r, o = .done r →
      (r.Truthful (ownEvents items) s' ↔ LeftPending (listing (ownEvents items)) items)) ∧
    ((∀ r, o ≠ .done r) → ((ownEvents items).flatMap transitions = [] ↔
      ∀ e ∈ ownEvents items, ∀ it ∈ listing (ownEvents items), ∀ st, e.lbl = .markEntryIntent it.episodeId st →
        e.fault = .none → e.pre.isPending it.intentId = false)) ∧
    ∀ r, o = .done r → ∀ c' items' s'' o', Amid (classifyAndCancel cal c') s' items' s'' o' →
      ByTheCampaign cal cfg items' → c'.asOfSession = c.asOfSession → Repeatable cal c c' items items' →
        (ownEvents items').flatMap transitions = [] ∧ ∀ r', o' = .done r' → r'.cancelled = [] ∧ r'.expired = [] := by
  refine ⟨fun r ho => ⟨left_of_truthful h hticks ho, truthful_of_left h hticks ho⟩, fun _ => untouched_iff h, ?_⟩
  intro r ho c' items' s'' o' h' hticks' hsession hrepeat
  refine quiet_of_retained h' fun it hit => ?_
  obtain ⟨hold, hdeadline⟩ := hrepeat it hit
  have hv := retained_of_listed h hticks ho h' hticks' hit hold
  rw [← hv, verdict, verdict, hsession]
  rw [hsession] at hdeadline
  exact congrArg _ (congrArg _ hdeadline)

/-! ## A tick between the listing and the update -/

theorem LedgerCall.any {of : TickInput → Prop} {l : Call} {t t' : Store} (h : LedgerCall cal cfg of l t t') :
    AnyCall cal cfg l t t' := by
  cases h with
  | exit h => exact .exit h
  | entry h =>
    cases h with
    | intent h => exact .entry (.intent h.any)
    | rollback i e _ => exact .entry (.rollback i e _)
    | fill h => exact .entry (.fill h)

/-- A tick that stands in for the others. -/
theorem byTheCampaign_others (cal : Calendar) (cfg : V2Config) (i : TickInput) (s : Store) :
    ByTheCampaign cal cfg (others (exec (tick cal cfg i) [] s).1) := by
  intro t t' hmem
  obtain ⟨e, he, heq⟩ := List.mem_map.1 hmem
  obtain ⟨rfl, rfl⟩ := Item.other.inj heq
  have hcalls : Calls (AnyCall cal cfg) (tick cal cfg i) :=
    keeps_mono (calls_tick i) (fun _ h => h) fun _ _ _ _ h => ⟨trivial, h.any⟩
  exact ⟨e.lbl, (exec_sound _ _ _).trace.committed hcalls e he (fault_exec_nil _ _ e he)⟩

/-- One intent, reserved on day 29 for the session of day 30. -/
def reservedStore : Store :=
  (exec (tick (.weekdays 60) {} (sampleTick true (dayStart 29 + 80000))) [] (Store.init 100000)).2.1

/-- A cutover as of day 29, run on day 30. -/
def nextDayCutover : CutoverInput := ⟨"c1", 29, 3, false, dayStart 30 + 60000⟩

def sampleIntent : IntentId := (sampleEpisode, 30)

/-- The cutover of the sample, under a schedule. -/
def sampleRun (ts : List (Turn Call Store)) : List (Item Call Store) × Store × Outcome CutoverRecord :=
  weave (classifyAndCancel (.weekdays 60) nextDayCutover) ts reservedStore

/-- The tick of day 30 fills the intent after the cutover has listed it. -/
def filledInBetween : List (Turn Call Store) :=
  [.commit, .beside (tick (.weekdays 60) {} (sampleTick true (dayStart 30 + 60000))), .commit, .commit]

theorem amid_sampleRun (ts : List (Turn Call Store)) : Amid (classifyAndCancel (.weekdays 60) nextDayCutover)
    reservedStore (sampleRun ts).1 (sampleRun ts).2.1 (sampleRun ts).2.2 := weave_sound _ ts _

theorem byTheCampaign_sampleRun {ts : List (Turn Call Store)}
    (h : ∀ q, Turn.beside q ∈ ts → ∃ i, q = tick (.weekdays 60) {} i) :
    ByTheCampaign (.weekdays 60) {} (sampleRun ts).1 := by
  intro t t' hmem
  obtain ⟨q, u, hq, hmem⟩ := exists_beside hmem
  obtain ⟨i, rfl⟩ := h q hq
  exact byTheCampaign_others _ _ i u t t' hmem

/-- With nothing in between, the cancellation is reported truly, and the repeated cutover is quiet. -/
theorem cutover_exact_sample :
    let w := sampleRun [.commit, .commit, .commit]
    let w' := weave (classifyAndCancel (.weekdays 60) nextDayCutover) [.commit, .commit] w.2.1
    let r : CutoverRecord := ⟨"c1", 29, [sampleIntent], [], []⟩
    w.2.2 = .done r ∧ r.Truthful (ownEvents w.1) w.2.1 ∧ (ownEvents w'.1).flatMap transitions = [] := by
  intro w w' r
  have hdone : w.2.2 = .done r := by decide +kernel
  have hticks : ByTheCampaign (.weekdays 60) {} w.1 := byTheCampaign_sampleRun (by simp)
  obtain ⟨htrue, -, hagain⟩ := cutover_exact (amid_sampleRun _) hticks
  have hnone : ∀ t t', Item.other t t' ∉ w.1 := fun t t' h => by
    obtain ⟨q, -, hq, -⟩ := exists_beside h
    simp at hq
  have hnone' : ∀ t t', Item.other t t' ∉ w'.1 := fun t t' h => by
    obtain ⟨q, -, hq, -⟩ := exists_beside h
    simp at hq
  have hempty : listing (ownEvents w'.1) = [] := List.eq_nil_of_length_eq_zero (by decide +kernel)
  refine ⟨hdone, (htrue r hdone).2 fun t t' h => absurd h (hnone t t'), ?_⟩
  refine (hagain r hdone nextDayCutover w'.1 _ _ (weave_sound _ _ _) (fun t t' h => absurd h (hnone' t t')) rfl ?_).1
  intro it hit
  rw [hempty] at hit
  cases hit

/-- An intent that is filled after the listing is reported cancelled; and when the audit row cannot be written the call
raises with the intent cancelled. -/
theorem cancelled_though_filled :
    (∃ items s' r, Amid (classifyAndCancel (.weekdays 60) nextDayCutover) reservedStore items s' (.done r) ∧
      ByTheCampaign (.weekdays 60) {} items ∧ ¬r.Truthful (ownEvents items) s') ∧
    ∃ items s', Amid (classifyAndCancel (.weekdays 60) nextDayCutover) reservedStore items s' .raised ∧
      (ownEvents items).flatMap transitions = [(sampleIntent, .cancelledCutover)] := by
  have hdone : (sampleRun filledInBetween).2.2 = .done ⟨"c1", 29, [sampleIntent], [], []⟩ := by decide +kernel
  have hraised : (sampleRun [.commit, .commit, .raise]).2.2 = .raised := by decide +kernel
  refine ⟨⟨_, _, _, hdone ▸ amid_sampleRun filledInBetween, byTheCampaign_sampleRun fun q hq => ?_, fun h => ?_⟩,
    _, _, hraised ▸ amid_sampleRun [.commit, .commit, .raise], by decide +kernel⟩
  · simp only [filledInBetween, List.mem_cons, reduceCtorEq, Turn.beside.injEq, List.not_mem_nil, or_false,
      false_or] at hq
    exact ⟨_, hq⟩
  · have hmade : made (ownEvents (sampleRun filledInBetween).1) .cancelledCutover = [] := by decide +kernel
    have hnone := h.cancelled
    rw [hmade] at hnone
    cases hnone

end TalonX.V2
