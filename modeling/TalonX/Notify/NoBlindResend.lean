import TalonX.Notify.Outbox
import Mathlib.Data.List.Infix

/-!
# No blind resend

- `Mailbox.Settled`: an event goes to the Bot again only after a rejection, and is `SENT` or `AMBIGUOUS` after any other
  answer;
- `Mailbox.Acknowledged`: the invariant while every answer is an acknowledgement or a rejection;
- `deliver_acknowledged`, `deliver_unsettled`: one row; `drainWith_acknowledged`, `drainWith_unsettled`: one drain;
- `no_blind_resend`: every state of a run is settled exactly when no answer of the run is unconfirmed;
- `unconfirmed_resent`: a `TimedOut` in the client's loop.
-/

set_option autoImplicit false

namespace TalonX.Notify

open Transact V2

variable {κ : Type}

theorem BotAnswer.rejected_of_unconfirmed {a : BotAnswer} (h : a.unconfirmed = true) : a.rejected = false := by
  cases a with
  | networkError exc => rfl
  | _ => cases h

namespace Mailbox

/-- The answers that the Bot gave for an event. -/
def history (m : Mailbox κ) (k : EventId) : List BotAnswer := (m.handed.filter (·.1 = k)).map (·.2)

def state (m : Mailbox κ) (k : EventId) : Option DeliveryState := (m.outbox.get k).map (·.state)

def Settled (m : Mailbox κ) (k : EventId) : Prop :=
  (∀ a ∈ (m.history k).dropLast, a.rejected = true) ∧
    ∀ a ∈ (m.history k).getLast?, a.rejected = false → m.state k = some .sent ∨ m.state k = some .ambiguous

/-- No answer left open whether the message arrived. -/
def Confirmed (m : Mailbox κ) : Prop := ∀ e ∈ m.handed, e.2.unconfirmed = false

def Acknowledged (m : Mailbox κ) : Prop :=
  ∀ k, (∀ a ∈ (m.history k).dropLast, a.rejected = true) ∧
    ∀ a ∈ (m.history k).getLast?, a.rejected = false → m.state k = some .sent

theorem Acknowledged.settled {m : Mailbox κ} (h : m.Acknowledged) (k : EventId) : m.Settled k :=
  ⟨(h k).1, fun a ha hr => .inl ((h k).2 a ha hr)⟩

/-- A row that is due can only have been rejected. -/
def Due (m : Mailbox κ) (k : EventId) : Prop := m.state k = some .pending ∨ m.state k = some .retry

theorem Acknowledged.rejected {m : Mailbox κ} {k : EventId} (h : m.Acknowledged) (hk : m.Due k) :
    ∀ a ∈ m.history k, a.rejected = true := by
  obtain ⟨hdrop, hlast⟩ := h k
  intro a ha
  by_contra hr
  have hr : a.rejected = false := by simpa using hr
  rcases List.eq_nil_or_concat (m.history k) with hnil | ⟨l, b, hl⟩
  · rw [hnil] at ha
    exact (List.not_mem_nil ha).elim
  · rw [hl, List.concat_eq_append] at ha hdrop hlast
    rw [List.dropLast_concat] at hdrop
    rcases List.mem_append.1 ha with hmem | hmem
    · rw [hdrop a hmem] at hr
      cases hr
    · obtain rfl := List.mem_singleton.1 hmem
      have hsent := hlast a (by simp) hr
      rcases hk with hk | hk <;> rw [hk] at hsent <;> cases hsent

/-! ## One row -/

section Deliver

variable {bot : ℕ → BotAnswer} {now : Instant} {maxAttempts : ℕ} {plan : OutboxRow κ → Plan} {m : Mailbox κ}
  {r : OutboxRow κ} {k : EventId}

theorem get_updateOutbox {u : Update} (k₀ : EventId) :
    (m.updateOutbox k₀ u).outbox.get k = if k = k₀ then (m.outbox.get k).map (·.update u) else m.outbox.get k := by
  have hid : ∀ q : OutboxRow κ, (q.update u).eventId = q.eventId := fun _ => rfl
  by_cases h : k = k₀
  · subst h
    rw [if_pos rfl]
    exact @Table.get_update_self _ _ _ _ m.outbox _ hid k
  · rw [if_neg h]
    exact @Table.get_update_of_ne _ _ _ _ m.outbox _ hid k k₀ h

theorem state_updateOutbox_self {u : Update} (hk : m.Due k) : (m.updateOutbox k u).state k = some u.state := by
  rw [state, get_updateOutbox, if_pos rfl, Option.map_map]
  cases hget : m.outbox.get k with
  | none => simp [Due, state, hget] at hk
  | some q => rfl

theorem state_updateOutbox_of_ne {u : Update} {k₀ : EventId} (h : k ≠ k₀) :
    (m.updateOutbox k₀ u).state k = m.state k := by
  rw [state, get_updateOutbox, if_neg h, state]

/-- The other events. -/
theorem deliver_of_ne (h : k ≠ r.eventId) :
    (m.deliver bot now maxAttempts plan r).state k = m.state k ∧
      (m.deliver bot now maxAttempts plan r).history k = m.history k := by
  unfold deliver
  split
  · exact ⟨state_updateOutbox_of_ne h, rfl⟩
  · refine ⟨state_updateOutbox_of_ne h, ?_⟩
    rw [history, List.filter_append, List.map_append]
    have hother : ∀ as : List BotAnswer, (as.map (r.eventId, ·)).filter (·.1 = k) = [] := by
      intro as
      rw [List.filter_eq_nil_iff]
      intro e he
      obtain ⟨a, -, rfl⟩ := List.mem_map.1 he
      simpa using Ne.symm h
    rw [hother, List.map_nil, List.append_nil, history]

/-- A send of the event itself. -/
theorem history_send {client : TelegramClient} {permanent : TelegramSendError → Bool}
    (hp : plan r = .send client permanent) :
    (m.deliver bot now maxAttempts plan r).history r.eventId =
      m.history r.eventId ++ (client.send true bot m.handed.length).answers := by
  unfold deliver
  rw [hp]
  simp only [history, List.filter_append, List.map_append]
  congr 1
  rw [List.filter_map, List.map_map]
  simp

theorem handed_deliver : m.handed <+: (m.deliver bot now maxAttempts plan r).handed := by
  unfold deliver
  split
  · exact List.prefix_refl _
  · exact List.prefix_append _ _

theorem Confirmed.of_le {m' : Mailbox κ} (h : m'.Confirmed) (hp : m.handed <+: m'.handed) : m.Confirmed :=
  fun e he => h e (hp.subset he)

theorem mem_history {e : EventId × BotAnswer} (h : e ∈ m.handed) : e.2 ∈ m.history e.1 :=
  List.mem_map_of_mem (List.mem_filter.2 ⟨h, by simp⟩)

theorem mem_handed {a : BotAnswer} (h : a ∈ m.history k) : (k, a) ∈ m.handed := by
  obtain ⟨e, he, rfl⟩ := List.mem_map.1 h
  obtain ⟨hmem, hk⟩ := List.mem_filter.1 he
  obtain rfl : e.1 = k := by simpa using hk
  exact hmem

/-- After a send the row is `SENT` exactly when the client returned, and never `AMBIGUOUS`. -/
theorem state_send (bot : ℕ → BotAnswer) (now : Instant) (maxAttempts : ℕ) {client : TelegramClient} {permanent : TelegramSendError → Bool}
    (hp : plan r = .send client permanent) (hk : m.Due r.eventId) :
    ((client.send true bot m.handed.length).result = .ok () ∧
        (m.deliver bot now maxAttempts plan r).state r.eventId = some .sent) ∨
      (client.send true bot m.handed.length).result ≠ .ok () ∧
        ((m.deliver bot now maxAttempts plan r).state r.eventId = some .failed ∨
          (m.deliver bot now maxAttempts plan r).state r.eventId = some .retry) := by
  have hstate : (m.deliver bot now maxAttempts plan r).state r.eventId =
      some (settle now maxAttempts (r.attempts + 1)
        (transportResult permanent r.dedupKey (client.send true bot m.handed.length).result)).state := by
    unfold deliver
    rw [hp]
    exact state_updateOutbox_self hk
  rw [hstate]
  cases hresult : (client.send true bot m.handed.length).result with
  | ok u => exact .inl ⟨rfl, rfl⟩
  | error e =>
    refine .inr ⟨nofun, ?_⟩
    rw [transportResult, settle]
    split
    · exact .inl rfl
    · exact .inr rfl

theorem history_skip {u : Update} (hp : plan r = .skip u) :
    (m.deliver bot now maxAttempts plan r).history k = m.history k := by
  unfold deliver
  rw [hp]
  rfl

/-- With clear answers the invariant is kept. -/
theorem deliver_acknowledged (h : m.Acknowledged) (hk : m.Due r.eventId)
    (hc : (m.deliver bot now maxAttempts plan r).Confirmed) :
    (m.deliver bot now maxAttempts plan r).Acknowledged := by
  intro k
  by_cases hne : k = r.eventId
  · subst hne
    have hold : ∀ a ∈ m.history r.eventId, a.rejected = true := h.rejected hk
    cases hp : plan r with
    | skip u =>
      have hsame : (m.deliver bot now maxAttempts plan r).history r.eventId = m.history r.eventId := history_skip hp
      rw [hsame]
      refine ⟨fun a ha => hold a (List.mem_of_mem_dropLast ha), fun a ha hr => ?_⟩
      rw [hold a (List.mem_of_getLast? ha)] at hr
      cases hr
    | send client permanent =>
      have hhist : (m.deliver bot now maxAttempts plan r).history r.eventId =
          m.history r.eventId ++ (client.send true bot m.handed.length).answers := history_send hp
      have hclear : ∀ a ∈ (client.send true bot m.handed.length).answers, a.unconfirmed = false := by
        intro a ha
        have hmem : a ∈ (m.deliver bot now maxAttempts plan r).history r.eventId := by
          rw [hhist]
          exact List.mem_append_right _ ha
        exact hc _ (mem_handed hmem)
      obtain ⟨hdrop, hlast⟩ := sendLoop_confirmed hclear
      have hne : (client.send true bot m.handed.length).answers ≠ [] := answers_ne_nil
      rw [hhist, List.dropLast_append_of_ne_nil hne, List.getLast?_append_of_ne_nil _ hne]
      constructor
      · intro a ha
        rcases List.mem_append.1 ha with ha | ha
        · exact hold a ha
        · exact hdrop a ha
      · intro a ha hr
        rcases state_send bot now maxAttempts hp hk with ⟨-, hsent⟩ | ⟨herror, -⟩
        · exact hsent
        · exact absurd (hlast a ha hr) herror
  · obtain ⟨hs, hh⟩ := deliver_of_ne hne
    rw [hs, hh]
    exact h k

/-- The first answer that is not clear unsettles its event: either the client sent the message once more, or it gave up
with an exception that the workers take for a failure. -/
theorem deliver_unsettled (hk : m.Due r.eventId) (hc : m.Confirmed)
    (hu : ¬ (m.deliver bot now maxAttempts plan r).Confirmed) :
    ¬ (m.deliver bot now maxAttempts plan r).Settled r.eventId := by
  rintro ⟨hdrop, hlast⟩
  cases hp : plan r with
  | skip u =>
    apply hu
    unfold deliver
    rw [hp]
    exact hc
  | send client permanent =>
    have hhist : (m.deliver bot now maxAttempts plan r).history r.eventId =
        m.history r.eventId ++ (client.send true bot m.handed.length).answers := history_send hp
    have hne : (client.send true bot m.handed.length).answers ≠ [] := answers_ne_nil
    rw [hhist, List.dropLast_append_of_ne_nil hne] at hdrop
    rw [hhist, List.getLast?_append_of_ne_nil _ hne] at hlast
    apply hu
    intro e he
    have hhanded : e ∈ m.handed ++ (client.send true bot m.handed.length).answers.map (r.eventId, ·) := by
      unfold deliver at he
      rw [hp] at he
      exact he
    rcases List.mem_append.1 hhanded with he | he
    · exact hc e he
    obtain ⟨a, ha, rfl⟩ := List.mem_map.1 he
    by_contra hbad
    have hunconfirmed : a.unconfirmed = true := by simpa using hbad
    have hnot : a.rejected = false := BotAnswer.rejected_of_unconfirmed hunconfirmed
    rcases List.eq_nil_or_concat (client.send true bot m.handed.length).answers with hnil | ⟨l, b, hl⟩
    · exact hne hnil
    rw [List.concat_eq_append] at hl
    rw [hl] at ha hdrop hlast
    rw [List.dropLast_concat] at hdrop
    rcases List.mem_append.1 ha with hmem | hmem
    · rw [hdrop a (List.mem_append_right _ hmem)] at hnot
      cases hnot
    · obtain rfl := List.mem_singleton.1 hmem
      have hstate := hlast a (by simp) hnot
      rcases state_send bot now maxAttempts hp hk with ⟨hok, -⟩ | ⟨-, hstate' | hstate'⟩
      · have hack := getLast?_of_ok hok
        rw [← TelegramClient.send, hl, List.getLast?_concat] at hack
        rw [Option.some.inj hack] at hunconfirmed
        cases hunconfirmed
      · rw [hstate'] at hstate
        rcases hstate with hstate | hstate <;> cases hstate
      · rw [hstate'] at hstate
        rcases hstate with hstate | hstate <;> cases hstate

end Deliver

/-! ## One drain -/

section Drain

variable {bot : ℕ → BotAnswer} {now : Instant} {maxAttempts : ℕ} {plan : OutboxRow κ → Plan} {m : Mailbox κ}
  {rows : List (OutboxRow κ)} {k : EventId}

theorem drainWith_of_notMem (h : k ∉ rows.map (·.eventId)) :
    (m.drainWith bot now maxAttempts plan rows).state k = m.state k ∧
      (m.drainWith bot now maxAttempts plan rows).history k = m.history k := by
  induction rows generalizing m with
  | nil => exact ⟨rfl, rfl⟩
  | cons r rows ih =>
    rw [List.map_cons, List.mem_cons, not_or] at h
    obtain ⟨hs, hh⟩ := deliver_of_ne h.1
    obtain ⟨hs', hh'⟩ := ih h.2
    exact ⟨hs'.trans hs, hh'.trans hh⟩

theorem handed_drainWith : m.handed <+: (m.drainWith bot now maxAttempts plan rows).handed := by
  induction rows generalizing m with
  | nil => exact List.prefix_refl _
  | cons r rows ih => exact handed_deliver.trans ih

/-- The rows of a drain stay due until it is their turn. -/
theorem due_deliver {r : OutboxRow κ} (hn : ((r :: rows).map (·.eventId)).Nodup)
    (hd : ∀ q ∈ r :: rows, m.Due q.eventId) :
    ∀ q ∈ rows, (m.deliver bot now maxAttempts plan r).Due q.eventId := by
  intro q hq
  have hne : q.eventId ≠ r.eventId := by
    intro heq
    exact (List.nodup_cons.1 hn).1 (List.mem_map.2 ⟨q, hq, heq⟩)
  obtain ⟨hs, -⟩ := deliver_of_ne hne
  rw [Due, hs]
  exact hd q (List.mem_cons_of_mem _ hq)

theorem drainWith_acknowledged (h : m.Acknowledged) (hn : (rows.map (·.eventId)).Nodup)
    (hd : ∀ r ∈ rows, m.Due r.eventId) (hc : (m.drainWith bot now maxAttempts plan rows).Confirmed) :
    (m.drainWith bot now maxAttempts plan rows).Acknowledged := by
  induction rows generalizing m with
  | nil => exact h
  | cons r rows ih =>
    have hfirst := deliver_acknowledged h (hd r List.mem_cons_self) (hc.of_le handed_drainWith)
    exact ih hfirst (List.nodup_cons.1 hn).2 (due_deliver hn hd) hc

theorem drainWith_unsettled (hn : (rows.map (·.eventId)).Nodup)
    (hd : ∀ r ∈ rows, m.Due r.eventId) (hc : m.Confirmed)
    (hu : ¬ (m.drainWith bot now maxAttempts plan rows).Confirmed) :
    ∃ k, ¬ (m.drainWith bot now maxAttempts plan rows).Settled k := by
  induction rows generalizing m with
  | nil => exact absurd hc hu
  | cons r rows ih =>
    by_cases hfirst : (m.deliver bot now maxAttempts plan r).Confirmed
    · exact ih (List.nodup_cons.1 hn).2 (due_deliver hn hd) hfirst hu
    · have hbad := deliver_unsettled (hd r List.mem_cons_self) hc hfirst
      obtain ⟨hs, hh⟩ := drainWith_of_notMem (List.nodup_cons.1 hn).1
      refine ⟨r.eventId, fun hgood => hbad ?_⟩
      rw [Settled, ← hs, ← hh]
      exact hgood

end Drain

theorem outboxDue_spec (m : Mailbox κ) (now : Instant) :
    ((m.outboxDue now).map (·.eventId)).Nodup ∧ ∀ r ∈ m.outboxDue now, m.Due r.eventId := by
  have hperm := List.perm_insertionSort (fun r q : OutboxRow κ => r.createdAt ≤ q.createdAt)
    (m.outbox.rows.filter fun r => (r.state = .pending || r.state = .retry) && r.nextAttempt.all (· ≤ now))
  constructor
  · rw [outboxDue, (hperm.map _).nodup_iff]
    exact m.outbox.unique.sublist (List.filter_sublist.map _)
  · intro r hr
    obtain ⟨hmem, hdue⟩ := List.mem_filter.1 (hperm.mem_iff.1 hr)
    have hget : m.outbox.get r.eventId = some r := Table.get_eq_some.2 ⟨hmem, rfl⟩
    simp only [Bool.and_eq_true, Bool.or_eq_true, decide_eq_true_eq] at hdue
    rw [Due, state, hget]
    exact hdue.1.imp (congrArg some) (congrArg some)

theorem Acknowledged.enqueue {m : Mailbox κ} (h : m.Acknowledged) (r : OutboxRow κ) : (m.enqueue r).Acknowledged := by
  intro k
  refine ⟨(h k).1, fun a ha hr => ?_⟩
  have hsent : m.state k = some .sent := (h k).2 a ha hr
  cases hget : m.outbox.get k with
  | none => simp [state, hget] at hsent
  | some q =>
    obtain ⟨hmem, hkey⟩ := Table.get_eq_some.1 hget
    have hget' : (m.enqueue r).outbox.get k = some q := Table.get_eq_some.2 ⟨Table.mem_insertOrIgnore_of_mem hmem, hkey⟩
    rw [state, hget', ← hget]
    exact hsent

end Mailbox

/-! ## Runs -/

/-- Both outboxes. -/
structure World where
  v2 : Mailbox String
  ops : Mailbox Destination

inductive Op
  | enqueueAlert (r : OutboxRow String)
  | enqueue (r : OutboxRow Destination)
  | deliverOutbox (d : V2Drain)
  | drain (d : OpsDrain)

section Runs

-- The answers of the Bot to the sends of each outbox.
variable (v2Bot opsBot : ℕ → BotAnswer)

def World.step (w : World) : Op → World
  | .enqueueAlert r => { w with v2 := w.v2.enqueue r }
  | .enqueue r => { w with ops := w.ops.enqueue r }
  | .deliverOutbox d => { w with v2 := deliverOutbox v2Bot d w.v2 }
  | .drain d => { w with ops := drain opsBot d w.ops }

def run (ops : List Op) : World := ops.foldl (World.step v2Bot opsBot) ⟨.empty, .empty⟩

def World.Settled (w : World) : Prop := (∀ k, w.v2.Settled k) ∧ ∀ k, w.ops.Settled k

def World.Confirmed (w : World) : Prop := w.v2.Confirmed ∧ w.ops.Confirmed

variable {v2Bot opsBot}

theorem deliverOutbox_acknowledged {d : V2Drain} {m : Mailbox String} (h : m.Acknowledged)
    (hc : (deliverOutbox v2Bot d m).Confirmed) : (deliverOutbox v2Bot d m).Acknowledged := by
  obtain ⟨hn, hd⟩ := m.outboxDue_spec d.now
  exact Mailbox.drainWith_acknowledged h hn hd hc

theorem drain_acknowledged {d : OpsDrain} {m : Mailbox Destination} (h : m.Acknowledged)
    (hc : (drain opsBot d m).Confirmed) : (drain opsBot d m).Acknowledged := by
  unfold drain at hc ⊢
  split at hc
  · rename_i henabled
    obtain ⟨hn, hd⟩ := m.outboxDue_spec d.now
    rw [if_pos henabled]
    exact Mailbox.drainWith_acknowledged h (hn.sublist (List.filter_sublist.map _))
      (fun r hr => hd r (List.mem_of_mem_filter hr)) hc
  · rename_i hdisabled
    rw [if_neg hdisabled]
    exact h

/-- A step only adds answers. -/
theorem World.Confirmed.of_step {w : World} {op : Op} (h : (w.step v2Bot opsBot op).Confirmed) : w.Confirmed := by
  cases op with
  | enqueueAlert r => exact h
  | enqueue r => exact h
  | deliverOutbox d => exact ⟨h.1.of_le Mailbox.handed_drainWith, h.2⟩
  | drain d =>
    refine ⟨h.1, h.2.of_le ?_⟩
    show w.ops.handed <+: (TalonX.Notify.drain opsBot d w.ops).handed
    unfold TalonX.Notify.drain
    split
    · exact Mailbox.handed_drainWith
    · exact List.prefix_refl _

theorem run_concat (ops : List Op) (op : Op) :
    run v2Bot opsBot (ops ++ [op]) = (run v2Bot opsBot ops).step v2Bot opsBot op := by
  rw [run, List.foldl_append]
  rfl

theorem confirmed_of_le {done ops : List Op} (hp : done <+: ops) (h : (run v2Bot opsBot ops).Confirmed) :
    (run v2Bot opsBot done).Confirmed := by
  obtain ⟨rest, rfl⟩ := hp
  induction rest using List.reverseRecOn with
  | nil => rwa [List.append_nil] at h
  | append_singleton rest op ih =>
    rw [← List.append_assoc, run_concat] at h
    exact ih h.of_step

/-- While the answers are clear, both outboxes have the invariant. -/
theorem run_acknowledged (ops : List Op) (h : (run v2Bot opsBot ops).Confirmed) :
    (run v2Bot opsBot ops).v2.Acknowledged ∧ (run v2Bot opsBot ops).ops.Acknowledged := by
  induction ops using List.reverseRecOn with
  | nil =>
    constructor
    · exact fun k => ⟨fun a ha => (List.not_mem_nil ha).elim, fun a ha => (Option.not_mem_none a ha).elim⟩
    · exact fun k => ⟨fun a ha => (List.not_mem_nil ha).elim, fun a ha => (Option.not_mem_none a ha).elim⟩
  | append_singleton ops op ih =>
    rw [run_concat] at h ⊢
    obtain ⟨hv2, hops⟩ := ih h.of_step
    cases op with
    | enqueueAlert r => exact ⟨hv2.enqueue r, hops⟩
    | enqueue r => exact ⟨hv2, hops.enqueue r⟩
    | deliverOutbox d => exact ⟨deliverOutbox_acknowledged hv2 h.1, hops⟩
    | drain d => exact ⟨hv2, drain_acknowledged hops h.2⟩

/-- The step with the first answer that is not clear. -/
theorem World.not_settled_of_step {w : World} {op : Op} (hc : w.Confirmed)
    (hu : ¬ (w.step v2Bot opsBot op).Confirmed) : ¬ (w.step v2Bot opsBot op).Settled := by
  cases op with
  | enqueueAlert r => exact absurd hc hu
  | enqueue r => exact absurd hc hu
  | deliverOutbox d =>
    obtain ⟨hn, hd⟩ := w.v2.outboxDue_spec d.now
    have hu : ¬ (TalonX.Notify.deliverOutbox v2Bot d w.v2).Confirmed := fun h => hu ⟨h, hc.2⟩
    obtain ⟨k, hk⟩ := Mailbox.drainWith_unsettled hn hd hc.1 hu
    exact fun h => hk (h.1 k)
  | drain d =>
    obtain ⟨hn, hd⟩ := w.ops.outboxDue_spec d.now
    have hu : ¬ (TalonX.Notify.drain opsBot d w.ops).Confirmed := fun h => hu ⟨hc.1, h⟩
    intro hs
    have hs : ∀ k, (TalonX.Notify.drain opsBot d w.ops).Settled k := hs.2
    unfold TalonX.Notify.drain at hu hs
    split at hu
    · rename_i henabled
      obtain ⟨k, hk⟩ := Mailbox.drainWith_unsettled (hn.sublist (List.filter_sublist.map _))
        (fun r hr => hd r (List.mem_of_mem_filter hr)) hc.2 hu
      rw [if_pos henabled] at hs
      exact hk (hs k)
    · exact hu hc.2

/-- For every sequence of enqueues and drains of the two outboxes and every sequence of answers: in every state on the
way each event went to the Bot again only after a rejection and is `SENT` or `AMBIGUOUS` after any other answer, exactly
when no answer was a `TimedOut` or a `NetworkError`. -/
theorem no_blind_resend (ops : List Op) :
    (∀ done, done <+: ops → (run v2Bot opsBot done).Settled) ↔ (run v2Bot opsBot ops).Confirmed := by
  constructor
  · intro h
    induction ops using List.reverseRecOn with
    | nil => exact ⟨fun e he => (List.not_mem_nil he).elim, fun e he => (List.not_mem_nil he).elim⟩
    | append_singleton ops op ih =>
      have hc := ih fun done hdone => h done (hdone.trans (List.prefix_append _ _))
      have hs := h _ (List.prefix_refl _)
      rw [run_concat] at hs ⊢
      by_contra hu
      exact World.not_settled_of_step hc hu hs
  · intro h done hdone
    obtain ⟨hv2, hops⟩ := run_acknowledged done (confirmed_of_le hdone h)
    exact ⟨hv2.settled, hops.settled⟩

end Runs

/-! ### A run -/

/-- An exit card that the worker takes up at once. -/
def exitCard : OutboxRow String := ⟨"e1", "AAA", "k1", .pending, 0, none, none, none, none, 0⟩

def oneDrain : V2Drain := ⟨0, 5, fun _ _ => ⟨true, false, ""⟩, ⟨true, 3⟩, []⟩

/-- The first send times out after the message has arrived, and the client sends it again. -/
theorem unconfirmed_resent : ¬ ∀ (v2Bot opsBot : ℕ → BotAnswer) (ops : List Op), (run v2Bot opsBot ops).Settled := by
  intro hall
  have hsettled := (hall (fun n => if n = 0 then .networkError "Timed out" else .acknowledged) (fun _ => .acknowledged)
    [.enqueueAlert exitCard, .deliverOutbox oneDrain]).1 "e1"
  have hhistory : (run (fun n => if n = 0 then .networkError "Timed out" else .acknowledged) (fun _ => .acknowledged)
      [.enqueueAlert exitCard, .deliverOutbox oneDrain]).v2.history "e1" =
      [.networkError "Timed out", .acknowledged] := by decide +kernel
  have hrejected := hsettled.1 (.networkError "Timed out") (by rw [hhistory]; exact List.mem_cons_self)
  cases hrejected

end TalonX.Notify
