import TalonX.V2.Calls

/-!
# Trades and their alerts

A fill writes its `BUY` and its `ENTRY_FILL` row in one transaction. A settlement commits its `SELL` first; the
`EXIT_FILL` row follows when all due positions have been treated.

- `Alerted`: every `BUY` has its row, and every alert row is about a trade or an intent of the ledger (`Backed`);
- `ExitsAlerted`: every `SELL` has its row;
- `alerting`: the contract; `c` says whether the closing phases are not cut short;
- `alerting_phaseClose`: the settlement loop, then the loop over its alerts;
- `trade_alerts`: every run; `exit_alert_lost`: a run that loses an exit alert.
-/

set_option autoImplicit false

namespace TalonX.V2

open Transact

variable {cal : Calendar} {cfg : V2Config} {s s' : Store} {c : Prop}

/-! ## The invariant -/

/-- The outbox has a row of this kind for the episode. -/
def HasAlert (s : Store) (e : EpisodeId) (k : AlertKind) : Prop :=
  ∃ a ∈ s.outbox.rows, a.eventId.1 = e ∧ a.eventId.2.1 = k

instance (s : Store) (e : EpisodeId) (k : AlertKind) : Decidable (HasAlert s e k) :=
  inferInstanceAs (Decidable (∃ a ∈ s.outbox.rows, a.eventId.1 = e ∧ a.eventId.2.1 = k))

/-- The ledger has a trade of the episode. -/
def Traded (s : Store) (e : EpisodeId) (x : TradeAction) : Prop := ∃ t ∈ s.trades, t.action = x ∧ t.episodeId = e

/-- The ledger has the intent's row. -/
def HasIntent (s : Store) (iid : IntentId) : Prop := ∃ it ∈ s.intents.rows, it.intentId = iid

/-- What an alert row tells of is in the ledger. -/
structure Backed (s : Store) (a : Alert) : Prop where
  entryFill : a.eventId.2.1 = .entryFill → Traded s a.eventId.1 .buy
  exitFill : a.eventId.2.1 = .exitFill → Traded s a.eventId.1 .sell
  entryIntent : a.eventId.2.1 = .entryIntent → a.intentId.isSome
  intent : ∀ iid, a.intentId = some iid → HasIntent s iid

structure Alerted (s : Store) : Prop where
  buys : ∀ t ∈ s.trades, t.action = .buy → HasAlert s t.episodeId .entryFill
  backed : ∀ a ∈ s.outbox.rows, Backed s a

def ExitsAlerted (s : Store) : Prop := ∀ t ∈ s.trades, t.action = .sell → HasAlert s t.episodeId .exitFill

/-- Trades, alerts and intents are never deleted. -/
structure Grows (s s' : Store) : Prop where
  trades : ∀ t ∈ s.trades, t ∈ s'.trades
  alerts : ∀ a ∈ s.outbox.rows, a ∈ s'.outbox.rows
  intents : ∀ iid, HasIntent s iid → HasIntent s' iid

theorem Grows.refl (s : Store) : Grows s s := ⟨fun _ h => h, fun _ h => h, fun _ h => h⟩

theorem Grows.trans {s t u : Store} (h : Grows s t) (h' : Grows t u) : Grows s u where
  trades t ht := h'.trades t (h.trades t ht)
  alerts a ha := h'.alerts a (h.alerts a ha)
  intents iid hi := h'.intents iid (h.intents iid hi)

theorem HasAlert.grows {e : EpisodeId} {k : AlertKind} (h : HasAlert s e k) (hg : Grows s s') : HasAlert s' e k := by
  obtain ⟨a, ha, hk⟩ := h
  exact ⟨a, hg.alerts a ha, hk⟩

theorem Traded.grows {e : EpisodeId} {x : TradeAction} (h : Traded s e x) (hg : Grows s s') : Traded s' e x := by
  obtain ⟨t, ht, hx⟩ := h
  exact ⟨t, hg.trades t ht, hx⟩

theorem Backed.grows {a : Alert} (h : Backed s a) (hg : Grows s s') : Backed s' a where
  entryFill hk := (h.entryFill hk).grows hg
  exitFill hk := (h.exitFill hk).grows hg
  entryIntent := h.entryIntent
  intent iid hi := hg.intents iid (h.intent iid hi)

/-- What a step must show: its new trades are sells or have their row, its new rows are backed. -/
theorem Alerted.grows (h : Alerted s) (hg : Grows s s')
    (ht : ∀ t ∈ s'.trades, t ∈ s.trades ∨ (t.action = .buy → HasAlert s' t.episodeId .entryFill))
    (ha : ∀ a ∈ s'.outbox.rows, a ∈ s.outbox.rows ∨ Backed s' a) : Alerted s' where
  buys t hm hb := by
    rcases ht t hm with hm | hnew
    · exact (h.buys t hm hb).grows hg
    · exact hnew hb
  backed a hm := by
    rcases ha a hm with hm | hnew
    · exact (h.backed a hm).grows hg
    · exact hnew

/-! ## Steps -/

/-- A step that leaves trades and alerts alone. -/
structure Quiet (s s' : Store) : Prop where
  trades : s'.trades = s.trades
  outbox : s'.outbox = s.outbox
  intents : ∀ iid, HasIntent s iid → HasIntent s' iid

theorem Quiet.grows (h : Quiet s s') : Grows s s' :=
  ⟨fun _ ht => h.trades ▸ ht, fun _ ha => h.outbox ▸ ha, h.intents⟩

theorem Quiet.alerted (h : Quiet s s') (ha : Alerted s) : Alerted s' :=
  ha.grows h.grows (fun _ ht => Or.inl (h.trades ▸ ht)) fun _ hm => Or.inl (h.outbox ▸ hm)

theorem Quiet.exitsAlerted (h : Quiet s s') (ha : ExitsAlerted s) : ExitsAlerted s' :=
  fun t ht hs => (ha t (h.trades ▸ ht) hs).grows h.grows

theorem UpkeepCall.quiet {l : Call} (h : UpkeepCall l s s') : Quiet s s' := by
  obtain ⟨cash, trail, ents, rfl⟩ := h.frame
  exact ⟨rfl, rfl, fun _ hi => hi⟩

theorem quiet_recordDisposition (s : Store) (e : EpisodeId) (d : Disposition) : Quiet s (s.recordDisposition e d) :=
  ⟨rfl, rfl, fun _ hi => hi⟩

theorem hasIntent_markEntryIntent {iid iid' : IntentId} (h : HasIntent s iid') (st : IntentStatus)
    (fill : Option (ℕ × ℚ × Date)) : HasIntent (s.markEntryIntent iid st fill) iid' := by
  obtain ⟨it, hit, hid⟩ := h
  refine ⟨_, mem_updateRows.2 ⟨it, hit, rfl⟩, ?_⟩
  split
  · exact hid
  · exact hid

theorem quiet_markEntryIntent (s : Store) (iid : IntentId) (st : IntentStatus) (fill : Option (ℕ × ℚ × Date)) :
    Quiet s (s.markEntryIntent iid st fill) := ⟨rfl, rfl, fun _ hi => hasIntent_markEntryIntent hi st fill⟩

theorem grows_enqueueAlert (s : Store) (a : Alert) : Grows s (s.enqueueAlert a) :=
  ⟨fun _ h => h, fun _ h => Table.mem_insertOrIgnore_of_mem h, fun _ h => h⟩

theorem Alerted.enqueueAlert {a : Alert} (h : Alerted s) (ha : Backed s a) : Alerted (s.enqueueAlert a) := by
  refine h.grows (grows_enqueueAlert s a) (fun _ ht => Or.inl ht) fun b hb => ?_
  rcases Table.mem_insertOrIgnore hb with hb | rfl
  · exact Or.inl hb
  · exact Or.inr (ha.grows (grows_enqueueAlert s b))

theorem hasAlert_enqueueAlert (s : Store) (a : Alert) :
    HasAlert (s.enqueueAlert a) a.eventId.1 a.eventId.2.1 := by
  obtain ⟨b, hb, hk⟩ := Table.exists_insertOrIgnore s.outbox a
  exact ⟨b, hb, congrArg Prod.fst hk, congrArg (·.2.1) hk⟩

/-- The intent that was read is in the ledger. -/
def Known (o : Option EntryIntent) (s : Store) : Prop := ∀ iid, o.map EntryIntent.intentId = some iid → HasIntent s iid

theorem known_entryIntent (s : Store) (e : EpisodeId) : Known (s.entryIntent e) s := by
  intro iid hid
  obtain ⟨it, hit, rfl⟩ := Option.map_eq_some_iff.1 hid
  exact ⟨it, Table.mem_of_get hit, rfl⟩

theorem Known.grows {o : Option EntryIntent} (h : Known o s) (hg : Grows s s') : Known o s' :=
  fun iid hid => hg.intents iid (h iid hid)

variable {ep : ClusterEpisode} {intent : Option EntryIntent} {i : TickInput}

theorem backed_entryAlert {k : AlertKind} (hk : k.saysNoPosition = true) (h : Known intent s) :
    Backed s (entryAlert ep k intent) where
  entryFill hf := by obtain rfl : k = _ := hf; cases hk
  exitFill hf := by obtain rfl : k = _ := hf; cases hk
  entryIntent hf := by obtain rfl : k = _ := hf; cases hk
  intent := h

/-- A fill commits its trade together with its alert. -/
theorem Filled.grows {row : Position} (h : Filled cal cfg ep intent s row s') : Grows s s' := by
  obtain ⟨t, -, -, htr⟩ := h.trades
  obtain ⟨-, -, ⟨fill, hint⟩, hout⟩ := h.tables
  refine ⟨fun t ht => htr ▸ List.mem_append_left _ ht, fun a ha => hout ▸ Table.mem_insertOrIgnore_of_mem ha, fun iid hi => ?_⟩
  have hmark : HasIntent (markFilled intent fill s) iid := by
    unfold markFilled
    split
    · exact hi
    · split
      · exact hasIntent_markEntryIntent hi _ _
      · exact hi
  obtain ⟨it, hit, hid⟩ := hmark
  exact ⟨it, hint ▸ hit, hid⟩

theorem Filled.alerted {row : Position} (h : Filled cal cfg ep intent s row s') (ha : Alerted s)
    (hk : Known intent s) : Alerted s' := by
  have hg := h.grows
  obtain ⟨t, hbuy, hte, htr⟩ := h.trades
  have hout := h.tables.2.2.2
  refine ha.grows hg (fun u hu => ?_) fun a hm => ?_
  · rw [htr] at hu
    rcases List.mem_append.1 hu with hu | hu
    · exact Or.inl hu
    · rw [List.mem_singleton.1 hu, hte]
      obtain ⟨b, hb, hkey⟩ := Table.exists_insertOrIgnore s.outbox (fillAlert ep intent row.positionId)
      exact Or.inr fun _ => ⟨b, hout ▸ hb, congrArg Prod.fst hkey, congrArg (·.2.1) hkey⟩
  · rw [hout] at hm
    rcases Table.mem_insertOrIgnore hm with hm | rfl
    · exact Or.inl hm
    · refine Or.inr ⟨fun _ => ⟨t, ?_, hbuy, hte⟩, nofun, nofun, hk.grows hg⟩
      rw [htr]
      exact List.mem_append_right _ (List.mem_singleton_self t)

/-- A fill adds no sell. -/
theorem Filled.exitsAlerted {row : Position} (h : Filled cal cfg ep intent s row s') (ha : ExitsAlerted s) :
    ExitsAlerted s' := by
  obtain ⟨t, hbuy, -, htr⟩ := h.trades
  intro u hu hs
  rw [htr] at hu
  rcases List.mem_append.1 hu with hu | hu
  · exact (ha u hu hs).grows h.grows
  · rw [List.mem_singleton.1 hu, hbuy] at hs
    cases hs

theorem quiet_upsertEntryIntent (s : Store) (it : EntryIntent) : Quiet s (s.upsertEntryIntent it) :=
  ⟨rfl, rfl, fun _ ⟨it', hit, hid⟩ => ⟨it', Table.mem_insertOrIgnore_of_mem hit, hid⟩⟩

theorem backed_intentAlert {it : EntryIntent} (he : it.episodeId = ep.episodeId) :
    Backed (s.upsertEntryIntent it) (entryAlert ep .entryIntent ((s.upsertEntryIntent it).entryIntent ep.episodeId)) := by
  refine ⟨nofun, nofun, fun _ => ?_, known_entryIntent _ _⟩
  obtain ⟨it', hit, hkey⟩ := Table.exists_insertOrIgnore s.intents it
  have hget := Table.get_eq_some.2 ⟨hit, hkey.trans he⟩
  exact Option.isSome_map.trans (congrArg Option.isSome hget)

/-- The reservation commits its intent together with its alert. -/
theorem admitTxn_alerts (cal : Calendar) (cfg : V2Config) (i : TickInput) (ep : ClusterEpisode) (s : Store) :
    Quiet s (admitTxn cal cfg i ep s) ∨ ∃ t a, Quiet s t ∧ Backed t a ∧ admitTxn cal cfg i ep s = t.enqueueAlert a := by
  unfold admitTxn
  split
  · exact Or.inl (quiet_recordDisposition _ _ _)
  split
  · exact Or.inl (quiet_recordDisposition _ _ _)
  · exact Or.inr ⟨s.upsertEntryIntent _,
      entryAlert ep .entryIntent ((s.upsertEntryIntent _).entryIntent ep.episodeId),
      quiet_upsertEntryIntent s _, backed_intentAlert rfl, rfl⟩

/-! ## The contract -/

/-- Commits keep the invariant and delete nothing. When `c` holds, no call raises, no crash happens and the closing
phase does not fail while an exit is without its alert. -/
def alerting (c : Prop) : Contract Call Store where
  commit _ s s' := Grows s s' ∧ Alerted s'
  mayFault _ s := c → ExitsAlerted s
  atCrash s := Alerted s ∧ (c → ExitsAlerted s)
  mayReach l s := c → l = .settleDueExitsFailed → ExitsAlerted s

/-- Between the phases: nothing is left to be announced. -/
structure Announced (c : Prop) (s : Store) : Prop where
  alerted : Alerted s
  exits : c → ExitsAlerted s

/-- The same, while an intent that was read is at hand. -/
structure AnnouncedWith (c : Prop) (o : Option EntryIntent) (s : Store) : Prop extends Announced c s where
  known : Known o s

theorem Announced.init (start : ℚ) : Announced c (Store.init start) :=
  ⟨⟨fun _ h => absurd h List.not_mem_nil, fun _ h => absurd h List.not_mem_nil⟩,
    fun _ _ h => absurd h List.not_mem_nil⟩

theorem Announced.quiet (h : Announced c s) (hq : Quiet s s') : Announced c s' :=
  ⟨hq.alerted h.alerted, fun hc => hq.exitsAlerted (h.exits hc)⟩

theorem Announced.enqueueAlert {a : Alert} (h : Announced c s) (ha : Backed s a) : Announced c (s.enqueueAlert a) :=
  ⟨h.alerted.enqueueAlert ha, fun hc t ht hs => (h.exits hc t ht hs).grows (grows_enqueueAlert s a)⟩

theorem Announced.fault {l : Call} (h : Announced c s) :
    (alerting c).mayFault l s → (alerting c).atCrash s ∧ Announced c s := fun _ => ⟨⟨h.alerted, h.exits⟩, h⟩

theorem Announced.idle {l : Call} (h : Announced c s) : (alerting c).commit l s s := ⟨Grows.refl s, h.alerted⟩

theorem announced_of_upkeep {α : Type} {p : Prog Call Store α} (hp : Calls UpkeepCall p) (h : Announced c s) :
    wp (alerting c) p (fun _ => Announced c) (Announced c) s :=
  wp_of_keeps (keeps_mono (J := Announced c) (H := (alerting c).commit) hp (fun _ _ => trivial)
    fun _ _ _ h hu => ⟨h.quiet hu.quiet, hu.quiet.grows, hu.quiet.alerted h.alerted⟩)
    (fun _ _ _ _ h => h) (fun _ _ h _ => ⟨h.alerted, h.exits⟩) h

/-! ## Entries and intents -/

variable {o : Option EntryIntent}

theorem announced_write {l : Call} {g : Store → Store} (hq : Quiet s (g s)) (h : AnnouncedWith c o s) :
    wp (alerting c) (Prog.write l g) (fun _ => AnnouncedWith c o) (Announced c) s :=
  wp_write ⟨hq.grows, hq.alerted h.alerted⟩ ⟨h.quiet hq, h.known.grows hq.grows⟩ h.fault

theorem announced_entryAlert {k : AlertKind} (hk : k.saysNoPosition = true) (h : AnnouncedWith c o s) :
    wp (alerting c) (enqueueAlert (entryAlert ep k o)) (fun _ => Announced c) (Announced c) s := by
  have hb : Backed s (entryAlert ep k o) := backed_entryAlert hk h.known
  exact wp_write ⟨grows_enqueueAlert _ _, h.alerted.enqueueAlert hb⟩ (h.enqueueAlert hb) h.fault

theorem announced_recordDisposition {e : EpisodeId} {d : Disposition} (h : AnnouncedWith c o s) :
    wp (alerting c) (recordDisposition e d) (fun _ => AnnouncedWith c o) (Announced c) s :=
  announced_write (quiet_recordDisposition s e d) h

theorem announced_markIntent {it : EntryIntent} {st : IntentStatus} (h : AnnouncedWith c o s) :
    wp (alerting c) (markIntent it st) (fun _ => AnnouncedWith c o) (Announced c) s :=
  announced_write (quiet_markEntryIntent s _ _ _) h

theorem announced_releaseIntent {st : IntentStatus} (h : AnnouncedWith c o s) :
    wp (alerting c) (releaseIntent o st) (fun _ => AnnouncedWith c o) (Announced c) s := by
  cases o with
  | none => exact h
  | some it => exact announced_markIntent h

theorem announced_recordUnseen {e : EpisodeId} {d : Disposition} (h : AnnouncedWith c o s) :
    wp (alerting c) (recordUnseen e d) (fun _ => AnnouncedWith c o) (Announced c) s := by
  refine wp_bind (wp_read h.idle ?_ h.fault)
  split
  · exact h
  · exact announced_recordDisposition h

theorem announced_expireRecovery (h : AnnouncedWith c o s) :
    wp (alerting c) (expireRecovery ep o) (fun _ => Announced c) (Announced c) s := by
  refine wp_then (announced_recordDisposition h) fun _ t ht => ?_
  cases o with
  | none => exact ht.toAnnounced
  | some it => exact wp_then (announced_markIntent ht) fun _ u hu => announced_entryAlert rfl hu

theorem announced_failNoMarketData (h : AnnouncedWith c o s) :
    wp (alerting c) (failNoMarketData ep o) (fun _ => Announced c) (Announced c) s :=
  wp_then (announced_recordDisposition h) fun _ _ ht =>
    wp_then (announced_releaseIntent ht) fun _ _ hu => announced_entryAlert rfl hu

theorem announced_fillTxn {r : EpisodeResult} (h : AnnouncedWith c o s)
    (hr : fillTxn cal cfg i ep o s = some (r, s')) : Grows s s' ∧ AnnouncedWith c o s' := by
  rcases fillTxn_cases hr with ⟨rfl, -⟩ | ⟨-, why, rfl, -⟩ | ⟨row, px, n, hf, -⟩
  · exact ⟨Grows.refl _, h⟩
  · have hq := quiet_recordDisposition s ep.episodeId (.skipped why)
    exact ⟨hq.grows, h.quiet hq, h.known.grows hq.grows⟩
  · exact ⟨hf.grows, ⟨hf.alerted h.alerted h.known, fun hc => hf.exitsAlerted (h.exits hc)⟩, h.known.grows hf.grows⟩

theorem announced_attemptFill {ripe : Date} (h : AnnouncedWith c o s) :
    wp (alerting c) (attemptFill cal cfg i ripe ep o) (fun _ => Announced c) (Announced c) s := by
  have hfill : wp (alerting c) (Prog.txn (.fill ep.episodeId i.gate) (fillTxn cal cfg i ep o))
      (fun _ => AnnouncedWith c o) (AnnouncedWith c o) s :=
    wp_txn (fun r s' hr => ⟨⟨(announced_fillTxn h hr).1, (announced_fillTxn h hr).2.alerted⟩, (announced_fillTxn h hr).2⟩)
      (fun _ => ⟨h.idle, h⟩) fun hm => ⟨(h.fault hm).1, h⟩
  refine wp_then (I := fun _ => AnnouncedWith c o) (wp_tryCatch (wp_then hfill fun _ _ ht => ht)) fun r t ht => ?_
  split
  · refine wp_bind (wp_ofOption (fun d _ => ?_) fun _ => ht.toAnnounced)
    split
    · exact ht.toAnnounced
    · exact announced_failNoMarketData ht
  · exact ht.toAnnounced

theorem announced_attemptEpisode {ripe : Date} (h : Announced c s) :
    wp (alerting c) (attemptEpisode cal cfg i ripe ep) (fun _ => Announced c) (Announced c) s := by
  have hread : AnnouncedWith c (s.entryIntent ep.episodeId) s := ⟨h, known_entryIntent s _⟩
  refine wp_bind (wp_read h.idle ?_ h.fault)
  split
  · split
    · exact wp_mono (fun _ _ h => h.toAnnounced) (fun _ h => h) (announced_recordUnseen hread)
    · exact h
  unfold attemptAdmitted
  split
  · refine wp_then (announced_recordDisposition hread) fun _ t ht => ?_
    exact wp_mono (fun _ _ h => h.toAnnounced) (fun _ h => h) (announced_releaseIntent ht)
  · refine wp_bind (wp_ofOption (fun passed _ => ?_) fun _ => h)
    split
    · exact announced_expireRecovery hread
    · exact announced_attemptFill hread

theorem announced_expireStale (h : Announced c s) :
    wp (alerting c) (expireStale ep) (fun _ => Announced c) (Announced c) s := by
  have hnone : AnnouncedWith c none s := ⟨h, nofun⟩
  refine wp_then (announced_recordUnseen hnone) fun _ t ht => ?_
  have hread : AnnouncedWith c (t.entryIntent ep.episodeId) t := ⟨ht.toAnnounced, known_entryIntent t _⟩
  refine wp_bind (wp_read ht.idle ?_ ht.fault)
  split
  · exact ht.toAnnounced
  rename_i it hit
  rw [show t.entryIntent ep.episodeId = some it from hit] at hread
  split
  · exact wp_then (announced_markIntent hread) fun _ u hu => announced_entryAlert rfl hu
  · exact ht.toAnnounced

theorem announced_admitIntent {nextSess : Date} (h : Announced c s) :
    wp (alerting c) (admitIntent cal cfg i nextSess ep) (fun _ => Announced c) (Announced c) s := by
  unfold admitIntent
  split
  · refine wp_bind (wp_read h.idle ?_ h.fault)
    split
    · exact h
    refine wp_bind (wp_read h.idle ?_ h.fault)
    split
    · exact h
    refine wp_bind (wp_read h.idle (wp_bind (wp_ofOption (fun found _ => ?_) fun _ => h)) h.fault)
    split
    · exact h
    split
    · have hnone : AnnouncedWith c none s := ⟨h, nofun⟩
      exact wp_mono (fun _ _ h => h.toAnnounced) (fun _ h => h) (announced_recordDisposition hnone)
    · rcases admitTxn_alerts cal cfg i ep s with hq | ⟨t, a, hq, ha, heq⟩
      · exact wp_write ⟨hq.grows, hq.alerted h.alerted⟩ (h.quiet hq) h.fault
      · have ht : Announced c (t.enqueueAlert a) := (h.quiet hq).enqueueAlert ha
        exact wp_write (heq ▸ ⟨hq.grows.trans (grows_enqueueAlert t a), ht.alerted⟩) (heq ▸ ht) h.fault
  · exact h

/-! ## The closing phase -/

/-- While exits await their alerts: their trades are there, and nothing else is left to be announced. -/
structure Awaiting (c : Prop) (exits : List EpisodeId) (s : Store) : Prop where
  alerted : Alerted s
  sold : ∀ e ∈ exits, Traded s e .sell
  covered : c → ∀ t ∈ s.trades, t.action = .sell → HasAlert s t.episodeId .exitFill ∨ t.episodeId ∈ exits

/-- In the settlement loop. -/
structure Settling (c : Prop) (due : List Position) (exits : List ExitRecord) (s : Store) : Prop extends
    Awaiting c (exits.map (·.episodeId)) s where
  tied : Tied due s

theorem Awaiting.quiet {exits : List EpisodeId} (h : Awaiting c exits s) (hq : Quiet s s') : Awaiting c exits s' where
  alerted := hq.alerted h.alerted
  sold e he := (h.sold e he).grows hq.grows
  covered hc t ht hs := (h.covered hc t (hq.trades ▸ ht) hs).imp_left (·.grows hq.grows)

variable {due : List Position} {exits : List ExitRecord} {pos : Position}

theorem Settling.fault {l : Call} (h : Settling c due exits s) :
    (alerting c).mayFault l s → (alerting c).atCrash s ∧ Alerted s := fun hm => ⟨⟨h.alerted, hm⟩, h.alerted⟩

theorem Settling.idle {l : Call} (h : Settling c due exits s) : (alerting c).commit l s s := ⟨Grows.refl s, h.alerted⟩

/-- The settlement commits the sell; its exit joins the list. -/
theorem Settling.settle {price : ℚ} {es : Date} {divs : List CorporateActionEvent} {row : Position} {out : ExitOutcome}
    {x : ExitRecord} (h : Settling c due exits s) (hpos : pos ∈ due) (hx : x.episodeId = pos.episodeId)
    (hs : Settled cal cfg zeroFee s pos.positionId price es divs row out s') (htied : Tied due s') :
    Grows s s' ∧ Settling c due (exits ++ [x]) s' := by
  obtain ⟨t, hsell, hte, htr⟩ := hs.trades
  have hrow : row.episodeId = x.episodeId := by rw [h.tied pos hpos row hs.mem hs.positionId, hx]
  have hout : s'.outbox = s.outbox := by rw [hs.frame]
  have hg : Grows s s' :=
    ⟨fun u hu => htr ▸ List.mem_append_left _ hu, fun a ha => hout ▸ ha, fun iid hi => by rw [hs.frame]; exact hi⟩
  have hnew : t ∈ s'.trades := by
    rw [htr]
    exact List.mem_append_right _ (List.mem_singleton_self t)
  refine ⟨hg, ⟨h.alerted.grows hg (fun u hu => ?_) fun a ha => Or.inl (hout ▸ ha), fun e he => ?_, fun hc u hu hus => ?_⟩, htied⟩
  · rw [htr] at hu
    rcases List.mem_append.1 hu with hu | hu
    · exact Or.inl hu
    · rw [List.mem_singleton.1 hu, hsell]
      exact Or.inr nofun
  · rw [List.map_append, List.mem_append] at he
    rcases he with he | he
    · exact (h.sold e he).grows hg
    · obtain rfl : e = x.episodeId := by simpa using he
      exact ⟨t, hnew, hsell, hte.trans hrow⟩
  · rw [htr] at hu
    rcases List.mem_append.1 hu with hu | hu
    · rcases h.covered hc u hu hus with ha | he
      · exact Or.inl (ha.grows hg)
      · exact Or.inr (List.map_append ▸ List.mem_append_left _ he)
    · rw [List.mem_singleton.1 hu, hte, hrow]
      exact Or.inr (List.mem_map_of_mem (List.mem_append_right _ (List.mem_singleton_self x)))

theorem settling_markUnresolved {pid : ℕ} {why : UnresolvedReason} (h : Settling c due exits s) :
    wp (alerting c) (markUnresolved cfg pid why) (fun _ => Settling c due exits) Alerted s := by
  refine wp_txn (fun r s' hr => ?_) (fun _ => ⟨h.idle, h.alerted⟩) h.fault
  obtain ⟨s'', hs, heq⟩ := Option.map_eq_some_iff.1 hr
  simp only [Prod.mk.injEq] at heq
  obtain ⟨-, rfl⟩ := heq
  obtain ⟨ps, bs, hrows, rfl⟩ := Store.markExitUnresolved_cases hs
  have hq : Quiet s { s with positions := ps, blocks := bs } := ⟨rfl, rfl, fun _ hi => hi⟩
  exact ⟨⟨hq.grows, hq.alerted h.alerted⟩, h.quiet hq, h.tied.keepsRows (.of_update hrows fun _ => rfl)⟩

theorem settling_settleAt {es : Date} {px : Bar} {divs : List CorporateActionEvent} (h : Settling c due exits s)
    (hpos : pos ∈ due) :
    wp (alerting c) (settleAt cal cfg pos es px divs exits) (fun exits' => Settling c due exits') Alerted s := by
  refine wp_then (I := fun out t => Settling c due
    (if out.settled then exits ++ [⟨pos.episodeId, pos.symbol, es, px.closePrice.1, out.realizedPnlPct,
      out.tradingDaysHeld⟩] else exits) t)
    (wp_txn (fun out s' hr => ?_) (fun _ => ⟨h.idle, h.alerted⟩) h.fault) fun out t ht => ?_
  · rcases closePosition_cases hr with ⟨hno, rfl⟩ | ⟨row, hs⟩
    · rw [if_neg (by simp [hno])]
      exact ⟨h.idle, h⟩
    · rw [if_pos hs.outcome.1]
      obtain ⟨hg, hnext⟩ := h.settle (x := ⟨pos.episodeId, pos.symbol, es, px.closePrice.1, out.realizedPnlPct,
        out.tradingDaysHeld⟩) hpos rfl hs (h.tied.keepsRows (ExitCall.close hr).keepsRows)
      exact ⟨⟨hg, hnext.alerted⟩, hnext⟩
  · split
    · rwa [if_pos ‹_›] at ht
    rw [if_neg ‹_›] at ht
    split
    · exact wp_then (settling_markUnresolved ht) fun _ _ hu => hu
    · exact ht

theorem settling_upkeep {α : Type} {p : Prog Call Store α} (hp : Calls UpkeepCall p) (h : Settling c due exits s) :
    wp (alerting c) p (fun _ => Settling c due exits) Alerted s := by
  refine wp_mono (fun _ _ h => h) (fun _ h => h.alerted) (wp_of_keeps
    (keeps_mono (J := Settling c due exits) (H := (alerting c).commit) hp (fun _ _ => trivial) fun l t t' h hu => ?_)
    (fun _ _ _ _ h => h) (fun _ _ h hm => (h.fault hm).1) h)
  have hq := hu.quiet
  refine ⟨⟨h.quiet hq, ?_⟩, hq.grows, hq.alerted h.alerted⟩
  obtain ⟨cash, trail, ents, rfl⟩ := hu.frame
  exact h.tied

theorem settling_settlePosition {guard : Option Evidence} {price : PriceLookup} {asOf : Date}
    (h : Settling c due exits s) (hpos : pos ∈ due) :
    wp (alerting c) (settlePosition cal cfg guard price asOf exits pos) (fun exits' => Settling c due exits')
      Alerted s := by
  have giveUp : ∀ (why : UnresolvedReason) (q : Date → Prop) [DecidablePred q] (t : Store), Settling c due exits t →
      wp (alerting c) (Prog.bind (Prog.ofOption (cal.addSessions pos.targetExitSession cfg.exitFallforwardMaxSessions))
        fun lastFf => if q lastFf then Prog.bind (markUnresolved cfg pos.positionId why) fun _ => Prog.ret exits
          else Prog.ret exits) (fun exits' => Settling c due exits') Alerted t := by
    intro why q _ t ht
    refine wp_bind (wp_ofOption (fun lastFf _ => ?_) fun _ => ht.alerted)
    split
    · exact wp_then (settling_markUnresolved ht) fun _ _ hu => hu
    · exact ht
  refine wp_bind (wp_read h.idle (wp_bind (wp_ofOption (fun found _ => ?_) fun _ => h.alerted)) h.fault)
  split
  · exact giveUp .noBar (· ≤ asOf) s h
  split
  · exact settling_settleAt h hpos
  · refine wp_then (settling_upkeep (calls_assessPosition _ _ _ _) h) fun v t ht => ?_
    split
    · exact settling_settleAt ht hpos
    · exact giveUp .corporateAction (fun lastFf => v.status = .block ∨ lastFf ≤ asOf) t ht

/-- The loop over the alerts: `Awaiting` shrinks by one exit each time. -/
theorem awaiting_alerts (exits : List ExitRecord) (h : Awaiting c (exits.map (·.episodeId)) s) :
    wp (alerting c) (Prog.forEach exits fun x => enqueueAlert (exitAlert x)) (fun _ => Announced c) Alerted s := by
  have hstep : ∀ x xs t, Awaiting c ((x :: xs : List ExitRecord).map (·.episodeId)) t →
      wp (alerting c) (enqueueAlert (exitAlert x)) (fun _ => Awaiting c (xs.map (·.episodeId))) Alerted t := by
    intro x xs t ht
    have hg := grows_enqueueAlert t (exitAlert x)
    have hback : Backed t (exitAlert x) := ⟨nofun, fun _ => ht.sold _ List.mem_cons_self, nofun, nofun⟩
    refine wp_write ⟨hg, ht.alerted.enqueueAlert hback⟩ ⟨ht.alerted.enqueueAlert hback, fun e he => ?_, fun hc u hu hs => ?_⟩
      fun hm => ⟨⟨ht.alerted, hm⟩, ht.alerted⟩
    · exact (ht.sold e (List.mem_cons_of_mem _ he)).grows hg
    · rcases ht.covered hc u hu hs with ha | hmem
      · exact Or.inl (ha.grows hg)
      rcases List.mem_cons.1 hmem with heq | hmem
      · rw [heq]
        exact Or.inl (hasAlert_enqueueAlert t (exitAlert x))
      · exact Or.inr hmem
  refine wp_mono (fun _ t ht => ⟨ht.alerted, fun hc u hu hs => ?_⟩) (fun _ h => h)
    (wp_forEach (fun xs t => Awaiting c (xs.map (·.episodeId)) t) hstep exits h)
  exact (ht.covered hc u hu hs).resolve_right List.not_mem_nil

/-- The closing phase announces what it settles, unless it is cut short. -/
theorem alerting_phaseClose {ripe : Date} (h : Announced c s) :
    wp (alerting c) (phaseClose cal cfg i ripe) (fun _ => Announced c) (Announced c) s := by
  refine wp_tryCatch (wp_mono (fun _ _ h => h) (fun t ht => ?_) (wp_then (I := fun exits t =>
    Awaiting c (exits.map (·.episodeId)) t) ?_ fun exits t ht => awaiting_alerts exits ht))
  · exact ⟨fun hreach => ⟨⟨Grows.refl t, ht⟩, ht, fun hc => hreach hc rfl⟩, fun hm => ⟨⟨ht, hm⟩, ht, hm⟩⟩
  · refine wp_bind (wp_read h.idle ?_ fun hm => ⟨⟨h.alerted, hm⟩, h.alerted⟩)
    have hstart : Settling c (dueExits s ripe) [] s :=
      ⟨⟨h.alerted, nofun, fun hc t ht hs => Or.inl (h.exits hc t ht hs)⟩, tied_dueExits s ripe⟩
    refine wp_mono (fun exits t ht => ht.2.toAwaiting) (fun _ h => h) (wp_foldEach
      (fun rest exits t => (∀ pos ∈ rest, pos ∈ dueExits s ripe) ∧ Settling c (dueExits s ripe) exits t)
      (fun pos rest exits t ht => ?_) _ ⟨fun _ h => h, hstart⟩)
    exact wp_mono (fun _ _ hu => ⟨fun q hq => ht.1 q (List.mem_cons_of_mem _ hq), hu⟩) (fun _ h => h)
      (settling_settlePosition ht.2 (ht.1 pos List.mem_cons_self))

/-! ## Every run -/

theorem announced_tick (h : Announced c s) : wp (alerting c) (tick cal cfg i) (fun _ => Announced c) (Announced c) s := by
  refine wp_tick h fun ripe all cut _ _ _ => wp_tickPhases (I := Announced c)
    (wp_forEach (fun _ => Announced c) (fun _ _ _ ht => announced_attemptEpisode ht) _ h)
    (fun t ht => announced_of_upkeep (calls_phaseCorporateActions i) ht) (fun t ht => alerting_phaseClose ht)
    (fun t ht => announced_of_upkeep (calls_phaseDividends i) ht) fun t ht => ?_
  refine wp_then (wp_forEach (fun _ => Announced c) (fun _ _ _ hu => announced_expireStale hu) _ ht) fun _ u hu => ?_
  exact wp_bind (wp_ofOption (fun _ _ => wp_forEach (fun _ => Announced c) (fun _ _ _ hv => announced_admitIntent hv) _ hu)
    fun _ => hu)

theorem announced_cutover {k : CutoverInput} (h : Announced c s) :
    wp (alerting c) (classifyAndCancelPendingAtCutover cal k) (fun _ => Announced c) (Announced c) s := by
  refine wp_bind (wp_read h.idle ?_ h.fault)
  refine wp_then (I := fun _ => Announced c) (wp_foldEach (fun _ _ => Announced c) (fun it _ r t ht => ?_) _ h)
    fun r t ht => ?_
  · have hmark : ∀ st, wp (alerting c) (markIntent it st) (fun _ => Announced c) (Announced c) t := fun st =>
      have hnone : AnnouncedWith c none t := ⟨ht, nofun⟩
      wp_mono (fun _ _ h => h.toAnnounced) (fun _ h => h) (announced_markIntent hnone)
    unfold classifyIntent
    split
    · exact wp_then (hmark _) fun _ _ hu => hu
    · refine wp_bind (wp_ofOption (fun passed _ => ?_) fun _ => ht)
      split
      · exact wp_then (hmark _) fun _ _ hu => hu
      · exact ht
  · have hq : Quiet t (t.recordCutover r) := ⟨rfl, rfl, fun _ hi => hi⟩
    exact wp_write ⟨hq.grows, hq.alerted ht.alerted⟩ (ht.quiet hq) ht.fault

/-- The event does not cut a closing phase short: nothing raises, no crash happens and no failure is logged while an
exit is without its alert. -/
def KeepsUp (e : Event Call Store) : Prop :=
  (e.fault ≠ .none ∨ e.lbl = .settleDueExitsFailed) → ExitsAlerted e.pre

/-- In every run of one service, cutovers between its ticks included, whatever call raises and wherever the process
crashes: every committed state has the `ENTRY_FILL` row of each `BUY` and no row about a trade or an intent that is not
in the ledger. When no closing phase is cut short, each `SELL` has its `EXIT_FILL` row when the tick that committed it
has ended. -/
theorem trade_alerts (cal : Calendar) (cfg : V2Config) (start : ℚ) {segs : List (Seg Job Call Store)} {s : Store}
    (h : Run (Job.prog cal cfg) (Store.init start) segs s) :
    (∀ g ∈ segs, ∀ e ∈ g.events, e.fault = .none → Alerted e.post) ∧
      ((∀ g ∈ segs, ∀ e ∈ g.events, KeepsUp e) → ∀ g ∈ segs, ∀ e ∈ g.events, e.fault = .none →
        ∀ t ∈ e.post.trades, t.action = .sell → HasAlert g.post t.episodeId .exitFill) := by
  -- the contract of the whole run, with the condition of the second part as `c`
  have hrun := Run.invariant (fun _ => alerting (∀ g ∈ segs, ∀ e ∈ g.events, KeepsUp e))
    (Announced (∀ g ∈ segs, ∀ e ∈ g.events, KeepsUp e)) (fun _ _ => True) (Announced.init start)
    (fun _ _ h => ⟨h.1, h.2⟩) (fun j t ht _ => ?_) h
    fun g hg => ⟨trivial, fun e he => ⟨fun _ hc hl => hc g hg e he (Or.inr hl), fun hf hc => hc g hg e he (Or.inl hf)⟩⟩
  · refine ⟨fun g hg e he hf => ((hrun.2 g hg).2.2 e he hf).2, fun hc g hg e he hf t ht hs => ?_⟩
    have hlater := (h.exec_of_mem hg).later Grows.refl Grows.trans fun e he hf => ((hrun.2 g hg).2.2 e he hf).1
    exact (hrun.2 g hg).2.1.exits hc t ((hlater.2 e he).trades t ht) hs
  · cases j with
    | tick i => exact announced_tick ht
    | cutover k => exact announced_cutover ht

/-- An intent on day 29, its fill on day 30, its exit on day 44: the exit has its alert. -/
theorem trade_alerts_sample :
    let r := runAll (Job.prog (.weekdays 100) {}) [(.tick (sampleTick true (dayStart 29 + 80000)), []),
      (.tick (sampleTick true (dayStart 30 + 60000)), []), (.tick (sampleTick true (dayStart 44 + 80000)), [])]
      (Store.init 100000)
    (∃ t ∈ r.2.trades, t.action = .sell) ∧ (∀ g ∈ r.1, ∀ e ∈ g.events, e.fault = .none → Alerted e.post) ∧
      ∀ g ∈ r.1, ∀ e ∈ g.events, e.fault = .none → ∀ t ∈ e.post.trades, t.action = .sell →
        HasAlert g.post t.episodeId .exitFill := by
  intro r
  obtain ⟨hall, hexits⟩ := trade_alerts (.weekdays 100) {} 100000 (runAll_sound _ _ _)
  have hcalm : ∀ g ∈ r.1, ∀ e ∈ g.events, e.fault = .none ∧ e.lbl ≠ .settleDueExitsFailed := by decide +kernel
  refine ⟨by decide +kernel, hall, hexits fun g hg e he hbad => ?_⟩
  rcases hbad with hf | hl
  · exact absurd (hcalm g hg e he).1 hf
  · exact absurd hl (hcalm g hg e he).2

/-- The process crashes between the settlement of day 44 and its alert. The next tick, on day 45, runs to its end and
does not write the row: the position is no longer due. -/
theorem exit_alert_lost :
    let r := runAll (Job.prog (.weekdays 100) {}) [(.tick (sampleTick true (dayStart 29 + 80000)), []),
      (.tick (sampleTick true (dayStart 30 + 60000)), []),
      (.tick (sampleTick true (dayStart 44 + 80000)), [.none, .none, .none, .crash]),
      (.tick (sampleTick true (dayStart 45 + 80000)), [])] (Store.init 100000)
    ¬ ∀ k g g', r.1[k]? = some g → r.1[k + 1]? = some g' → ∀ t ∈ g.post.trades, t.action = .sell →
      HasAlert g'.post t.episodeId .exitFill := by
  intro r h
  have hbad : ∃ t ∈ (r.1.get ⟨2, by decide +kernel⟩).post.trades, t.action = .sell ∧
      ¬ HasAlert (r.1.get ⟨3, by decide +kernel⟩).post t.episodeId .exitFill := by decide +kernel
  obtain ⟨t, ht, hs, hno⟩ := hbad
  exact hno (h 2 _ _ (List.getElem?_eq_getElem _) (List.getElem?_eq_getElem _) t ht hs)

end TalonX.V2
