import TalonX.V2.Calls

/-!
# Reservations whose window closed

A tick ends the reservations of the episodes that it detects again. An intent whose episode is no longer detected (its
filings left the rolling lookback, its symbol left the allowlist) is never looked at.

- `Overdue`: the recovery deadline of an intent has passed as of a tick's `ripe_through`;
- `Swept`: the `PENDING` intents that are overdue belong to episodes still to be treated;
- `swept_attempt`, `swept_expireStale`, `swept_admit`: what one episode of a phase does to it;
- `no_leaked_reservation`: no tick leaves an overdue `PENDING` intent, when each detects the episodes of those it finds;
- `leaked_reservation`: the tick that does not.
-/

set_option autoImplicit false

namespace TalonX.V2

open Transact

variable {cal : Calendar} {cfg : V2Config} {s s' : Store} {i : TickInput} {ripe : Date} {es : List EpisodeId}

/-- The recovery deadline of the intent has passed as of `ripe`. -/
def Overdue (cal : Calendar) (cfg : V2Config) (ripe : Date) (it : EntryIntent) : Prop :=
  ∃ d, cal.recoveryDeadlineSession it.targetEntrySession cfg.maxEntryStalenessSessions = some d ∧ d < ripe

/-- Intents are for the session after the episode's activation. -/
def WellTargeted (cal : Calendar) (s : Store) : Prop :=
  ∀ it ∈ s.intents.rows, cal.nextSessionStrictlyAfter it.episodeId.activationFiling = some it.targetEntrySession

/-- The overdue `PENDING` intents are those of episodes `es`, at most. -/
structure Swept (cal : Calendar) (cfg : V2Config) (ripe : Date) (es : List EpisodeId) (s : Store) : Prop where
  targeted : WellTargeted cal s
  covered : ∀ it ∈ s.intents.rows, it.status = .pending → Overdue cal cfg ripe it → it.episodeId ∈ es

/-! ## Calls -/

/-- A call that adds no intent: each is as it was, or has ended. -/
def OnlyEnds (s s' : Store) : Prop :=
  ∀ it ∈ s'.intents.rows, it ∈ s.intents.rows ∨ ∃ it' ∈ s.intents.rows, it.episodeId = it'.episodeId ∧
    it.targetEntrySession = it'.targetEntrySession ∧ it.status ≠ .pending

theorem OnlyEnds.of_eq (h : s'.intents = s.intents) : OnlyEnds s s' := fun _ hit => Or.inl (h ▸ hit)

theorem onlyEnds_markEntryIntent {st : IntentStatus} (hst : st ≠ .pending) (s : Store) (iid : IntentId)
    (fill : Option (ℕ × ℚ × Date)) : OnlyEnds s (s.markEntryIntent iid st fill) := by
  intro it hit
  rw [Store.rows_markEntryIntent] at hit
  obtain ⟨it', hit', rfl⟩ := mem_updateRows.1 hit
  split
  · exact Or.inr ⟨it', hit', rfl, rfl, hst⟩
  · exact Or.inl hit'

theorem onlyEnds_markFilled (intent : Option EntryIntent) (fill : ℕ × ℚ × Date) (s : Store) :
    OnlyEnds s (markFilled intent fill s) := by
  unfold markFilled
  split
  · exact .of_eq rfl
  · split
    · exact onlyEnds_markEntryIntent (by simp) _ _ _
    · exact .of_eq rfl

/-- An entry call other than a reservation. -/
theorem EntryCall.onlyEnds {l : Call} (h : EntryCall cal cfg (fun _ => False) l s s') : OnlyEnds s s' := by
  cases h with
  | rollback i e s => exact .of_eq rfl
  | intent h =>
    cases h with
    | mark it st s hp hf => exact onlyEnds_markEntryIntent hp _ _ _
    | reserve i ep s hof => exact hof.elim
    | _ => exact .of_eq rfl
  | fill h =>
    rcases fillTxn_cases h with ⟨rfl, -⟩ | ⟨-, why, rfl, -⟩ | ⟨row, px, n, hf, -⟩
    · exact .of_eq rfl
    · exact .of_eq rfl
    · obtain ⟨fill, hi⟩ := hf.tables.2.2.1
      intro it hit
      rw [hi] at hit
      exact onlyEnds_markFilled _ _ _ it hit

theorem Swept.onlyEnds (h : Swept cal cfg ripe es s) (hs : OnlyEnds s s') : Swept cal cfg ripe es s' where
  targeted it hit := by
    rcases hs it hit with hit | ⟨it', hit', he, ht, -⟩
    · exact h.targeted it hit
    · rw [he, ht]
      exact h.targeted it' hit'
  covered it hit hp ho := by
    rcases hs it hit with hit | ⟨it', hit', -, -, hst⟩
    · exact h.covered it hit hp ho
    · exact absurd hp hst

/-! ## Settling one episode -/

/-- The episode has no overdue `PENDING` intent. -/
theorem Swept.drop {e : EpisodeId} (h : Swept cal cfg ripe (e :: es) s)
    (hnot : ∀ it, s.entryIntent e = some it → it.status = .pending → ¬ Overdue cal cfg ripe it) :
    Swept cal cfg ripe es s where
  targeted := h.targeted
  covered it hit hp ho := by
    rcases List.mem_cons.1 (h.covered it hit hp ho) with he | he
    · exact absurd ho (hnot it (Table.get_eq_some.2 ⟨hit, he⟩) hp)
    · exact he

/-- Ending the intent of an episode. -/
theorem Swept.mark {e : EpisodeId} {it : EntryIntent} {st : IntentStatus} (h : Swept cal cfg ripe (e :: es) s)
    (hit : s.entryIntent e = some it) (hst : st ≠ .pending) :
    Swept cal cfg ripe es (s.markEntryIntent it.intentId st none) := by
  refine (h.onlyEnds (onlyEnds_markEntryIntent hst _ _ _)).drop fun it' hit' hp => ?_
  rw [Store.entryIntent_markEntryIntent, hit, Option.map_some] at hit'
  obtain rfl := Option.some.inj hit'
  split at hp
  · exact absurd hp hst
  · rename_i hno
    simp [hp] at hno

/-! ## Calls that run alone -/

/-- Any call may raise or crash; what is left are well-targeted intents. -/
def sweeping (cal : Calendar) : Contract Call Store where
  commit _ _ _ := True
  mayFault _ _ := True
  atCrash := WellTargeted cal

variable {ep : ClusterEpisode}

theorem wp_onlyEnds {p : Prog Call Store Unit} (hp : Calls (EntryCall cal cfg fun _ => False) p)
    (h : Swept cal cfg ripe es s) : wp (sweeping cal) p (fun _ => Swept cal cfg ripe es) (WellTargeted cal) s :=
  wp_mono (fun _ _ h => h) (fun _ h => h.targeted) (wp_of_keeps
    (keeps_mono (J := Swept cal cfg ripe es) (H := fun _ _ _ => True) hp (fun _ _ => trivial)
      fun _ _ _ h hc => ⟨h.onlyEnds hc.onlyEnds, trivial⟩)
    (fun _ _ _ _ _ => trivial) (fun _ _ h _ => h.targeted) h)

theorem swept_markIntent {e : EpisodeId} {it : EntryIntent} {st : IntentStatus} (h : Swept cal cfg ripe (e :: es) s)
    (hit : s.entryIntent e = some it) (hst : st ≠ .pending) :
    wp (sweeping cal) (markIntent it st) (fun _ => Swept cal cfg ripe es) (WellTargeted cal) s :=
  wp_write trivial (h.mark hit hst) fun _ => ⟨h.targeted, h.targeted⟩

theorem swept_rejectBoundary {it : EntryIntent} (h : Swept cal cfg ripe (ep.episodeId :: es) s)
    (hit : s.entryIntent ep.episodeId = some it) :
    wp (sweeping cal) (rejectBoundary ep (some it)) (fun _ => Swept cal cfg ripe es) (WellTargeted cal) s := by
  refine wp_bind (wp_write trivial ?_ fun _ => ⟨h.targeted, h.targeted⟩)
  exact swept_markIntent ⟨h.targeted, h.covered⟩ hit (by simp)

theorem swept_expireRecovery {it : EntryIntent} (h : Swept cal cfg ripe (ep.episodeId :: es) s)
    (hit : s.entryIntent ep.episodeId = some it) :
    wp (sweeping cal) (expireRecovery ep (some it)) (fun _ => Swept cal cfg ripe es) (WellTargeted cal) s := by
  refine wp_bind (wp_write trivial ?_ fun _ => ⟨h.targeted, h.targeted⟩)
  refine wp_then (swept_markIntent ⟨h.targeted, h.covered⟩ hit (by simp)) fun _ t ht => ?_
  exact wp_onlyEnds (calls_entry (calls_entryAlert ep (some it) rfl)) ht

/-! ## Episodes -/

/-- A deadline that passed before `ripe_through` has passed on the wall clock too. -/
theorem recoveryDeadlinePassed_of_overdue {it : EntryIntent} (ho : Overdue cal cfg ripe it)
    (hr : i.ripeThrough cal = some ripe) (site : ClockSite) (e : EpisodeId)
    (htarget : it.targetEntrySession ∈ cal.sessions) :
    cal.recoveryDeadlinePassed it.targetEntrySession cfg.maxEntryStalenessSessions ripe i.live (i.clock site e) =
      some true := by
  obtain ⟨d, hd, hlt⟩ := ho
  have hsession : d ∈ cal.sessions := (Calendar.addSessions_spec htarget (by omega) hd).2
  have htoday : d < i.today := i.lt_today hr hsession hlt
  rw [Calendar.recoveryDeadlinePassed, hd, Option.map_some]
  split
  · rename_i hlive
    have hnow : i.today = utcDate i.now := by
      rw [TickInput.live, Option.isNone_iff_eq_none] at hlive
      rw [TickInput.today, hlive, Option.getD_none]
    have hbefore : cal.closeUtc d < i.clock site e := calc
      cal.closeUtc d < dayStart (d + 1) := cal.closes_on_its_day d hsession
      _ ≤ i.now := dayStart_le_of_lt_utcDate (hnow ▸ htoday)
      _ ≤ i.clock site e := le_add_of_nonneg_right (Int.natCast_nonneg _)
    simp only [hbefore, decide_true]
  · simp only [hlt, decide_true]

/-- One attempt settles its episode. -/
theorem swept_attempt (hr : i.ripeThrough cal = some ripe) (hnext : ep.EntersNext cal)
    (h : Swept cal cfg ripe (ep.episodeId :: es) s) :
    wp (sweeping cal) (attemptEpisode cal cfg i ripe ep) (fun _ => Swept cal cfg ripe es) (WellTargeted cal) s := by
  by_cases hdue : ∃ it, s.entryIntent ep.episodeId = some it ∧ it.status = .pending ∧ Overdue cal cfg ripe it
  · obtain ⟨it, hit, hp, ho⟩ := hdue
    have htarget : it.targetEntrySession = ep.eligibleEntrySession := by
      have htgt := h.targeted it (Table.mem_of_get hit)
      rw [Table.key_of_get hit] at htgt
      exact Option.some.inj (htgt.symm.trans hnext)
    refine wp_bind (wp_read trivial ?_ fun _ => ⟨h.targeted, h.targeted⟩)
    rw [hit, if_neg (by simp [gateRefuses, hp])]
    unfold attemptAdmitted
    split
    · exact swept_rejectBoundary h hit
    · have hpassed := recoveryDeadlinePassed_of_overdue ho hr .recovery ep.episodeId (htarget ▸ hnext.mem_sessions)
      rw [htarget] at hpassed
      rw [hpassed]
      exact swept_expireRecovery h hit
  · refine wp_onlyEnds (calls_attemptEpisode i ripe ep) (h.drop fun it hit hp ho => hdue ⟨it, hit, hp, ho⟩)

/-- The stale sweep settles its episode. -/
theorem swept_expireStale (h : Swept cal cfg ripe (ep.episodeId :: es) s) :
    wp (sweeping cal) (expireStale ep) (fun _ => Swept cal cfg ripe es) (WellTargeted cal) s := by
  refine wp_then (wp_onlyEnds (calls_entry (calls_recordUnseen _ (by simp))) h) fun _ t ht => ?_
  refine wp_bind (wp_read trivial ?_ fun _ => ⟨ht.targeted, ht.targeted⟩)
  split
  · rename_i hnone
    refine ht.drop fun it hit => ?_
    rw [show t.entryIntent ep.episodeId = none from hnone] at hit
    cases hit
  rename_i it hit
  split
  · refine wp_then (swept_markIntent ht hit (by simp)) fun _ u hu => ?_
    exact wp_onlyEnds (calls_entry (calls_entryAlert ep (some it) rfl)) hu
  · rename_i hp
    refine ht.drop fun it' hit' hp' => ?_
    obtain rfl := Option.some.inj ((show t.entryIntent ep.episodeId = some it from hit).symm.trans hit')
    exact absurd hp' hp

/-- A new reservation is not overdue: its session is not before `ripe_through`. -/
theorem not_overdue_of_admissible {it : EntryIntent} (hr : i.ripeThrough cal = some ripe)
    (htarget : it.targetEntrySession ∈ cal.sessions) (hle : i.today ≤ it.targetEntrySession) :
    ¬ Overdue cal cfg ripe it := by
  rintro ⟨d, hd, hlt⟩
  have htd : it.targetEntrySession ≤ d := (Calendar.addSessions_spec htarget (by omega) hd).1
  have hrt : ripe ≤ it.targetEntrySession := by
    unfold TickInput.ripeThrough at hr
    split at hr
    · obtain rfl := Option.some.inj hr
      exact hle
    · exact Calendar.nextSessionOnOrAfter_le hr htarget hle
  exact absurd hlt (Nat.not_lt.2 (Nat.le_trans hrt htd))

theorem Swept.admitTxn (h : Swept cal cfg ripe es s) (hr : i.ripeThrough cal = some ripe)
    (hnext : ep.EntersNext cal) (hle : i.today ≤ ep.eligibleEntrySession) :
    Swept cal cfg ripe es (admitTxn cal cfg i ep s) := by
  unfold TalonX.V2.admitTxn
  split
  · exact ⟨h.targeted, h.covered⟩
  split
  · exact ⟨h.targeted, h.covered⟩
  refine ⟨fun it hit => ?_, fun it hit hp ho => ?_⟩
  · rcases Table.mem_insertOrIgnore hit with hit | rfl
    · exact h.targeted it hit
    · exact hnext
  · rcases Table.mem_insertOrIgnore hit with hit | rfl
    · exact h.covered it hit hp ho
    · exact absurd ho (not_overdue_of_admissible hr hnext.mem_sessions hle)

theorem swept_admitIntent {nextSess : Date} (h : Swept cal cfg ripe es s) (hr : i.ripeThrough cal = some ripe)
    (hnext : ep.EntersNext cal) : wp (sweeping cal) (admitIntent cal cfg i nextSess ep)
      (fun _ => Swept cal cfg ripe es) (WellTargeted cal) s := by
  have hf : WellTargeted cal s ∧ WellTargeted cal s := ⟨h.targeted, h.targeted⟩
  unfold admitIntent
  split
  · rename_i hwindow
    refine wp_bind (wp_read trivial ?_ fun _ => hf)
    split
    · exact h
    refine wp_bind (wp_read trivial ?_ fun _ => hf)
    split
    · exact h
    refine wp_bind (wp_read trivial (wp_bind (wp_ofOption (fun found _ => ?_) fun _ => h.targeted)) fun _ => hf)
    split
    · exact h
    split
    · exact wp_write trivial ⟨h.targeted, h.covered⟩ fun _ => hf
    · exact wp_write trivial (h.admitTxn hr hnext hwindow.1) fun _ => hf
  · exact h

/-! ## The tick -/

/-- Every `PENDING` intent that is overdue at the tick belongs to an episode that the tick detects. -/
def TickInput.Detects (cal : Calendar) (cfg : V2Config) (i : TickInput) (s : Store) : Prop :=
  ∀ ripe all, i.ripeThrough cal = some ripe → i.episodes cal cfg = some all → ∀ it ∈ s.intents.rows,
    it.status = .pending → Overdue cal cfg ripe it → it.episodeId ∈ all.map ClusterEpisode.episodeId

/-- No reservation is leaked as of the tick's `ripe_through`. -/
def TickInput.LeaksNone (cal : Calendar) (cfg : V2Config) (i : TickInput) (s : Store) : Prop :=
  ∀ ripe, i.ripeThrough cal = some ripe → ∀ it ∈ s.intents.rows, it.status = .pending → ¬ Overdue cal cfg ripe it

theorem swept_loop {body : ClusterEpisode → Prog Call Store Unit} {rest : List EpisodeId}
    (hbody : ∀ ep eps t, Swept cal cfg ripe (ep.episodeId :: (eps ++ rest)) t →
      ep.EntersNext cal → wp (sweeping cal) (body ep) (fun _ => Swept cal cfg ripe (eps ++ rest)) (WellTargeted cal) t)
    {eps : List ClusterEpisode} (hnext : ∀ ep ∈ eps, ep.EntersNext cal)
    (h : Swept cal cfg ripe (eps.map ClusterEpisode.episodeId ++ rest) s) :
    wp (sweeping cal) (Prog.forEach eps body) (fun _ => Swept cal cfg ripe rest) (WellTargeted cal) s := by
  let J : List ClusterEpisode → Store → Prop := fun eps t => (∀ ep ∈ eps, ep.EntersNext cal) ∧
    Swept cal cfg ripe (eps.map ClusterEpisode.episodeId ++ rest) t
  refine wp_mono (fun _ _ ht => ht.2) (fun _ h => h) (wp_forEach J (fun ep eps t ht => ?_) eps ⟨hnext, h⟩)
  obtain ⟨hnext, ht⟩ := ht
  exact wp_mono (fun _ _ hu => ⟨fun e he => hnext e (List.mem_cons_of_mem _ he), hu⟩) (fun _ h => h)
    (hbody ep _ t ht (hnext ep List.mem_cons_self))

/-- A tick settles the episodes that it detects. -/
theorem swept_tickPhases {cut : Date} {all : List ClusterEpisode} {rest : List EpisodeId}
    (hripe : i.ripeThrough cal = some ripe) (hnext : ∀ ep ∈ all, ep.EntersNext cal)
    (h : Swept cal cfg ripe (all.map ClusterEpisode.episodeId ++ rest) s) :
    wp (sweeping cal) (tickPhases cal cfg i ripe cut all) (fun _ => Swept cal cfg ripe rest) (WellTargeted cal) s := by
  let ripeEps := all.filter (·.eligibleEntrySession ≤ ripe)
  let stale := (ripeEps.filter (isStale cfg cut ·)).map ClusterEpisode.episodeId ++ rest
  have hripeNext : ∀ ep ∈ ripeEps, ep.EntersNext cal := fun ep hep => hnext ep (List.mem_filter.1 hep).1
  have hstart : Swept cal cfg ripe ((ripeEps.filter (!isStale cfg cut ·)).map ClusterEpisode.episodeId ++ stale) s := by
    refine ⟨h.targeted, fun it hit hp ho => ?_⟩
    rcases List.mem_append.1 (h.covered it hit hp ho) with hmem | hrest
    · obtain ⟨ep, hep, he⟩ := List.mem_map.1 hmem
      -- an overdue intent's session is not after `ripe_through`, so its episode is stale or attempted
      have hle : ep.eligibleEntrySession ≤ ripe := by
        obtain ⟨d, hd, hlt⟩ := ho
        have htgt := h.targeted it hit
        rw [← he, hnext ep hep] at htgt
        obtain hsess := Option.some.inj htgt
        have hd' := Calendar.addSessions_spec (hsess ▸ (hnext ep hep).mem_sessions) (by omega) hd
        exact hsess ▸ Nat.le_trans hd'.1 (Nat.le_of_lt hlt)
      have hmem : ep ∈ ripeEps := List.mem_filter.2 ⟨hep, by simpa using hle⟩
      rw [← he]
      cases hs : isStale cfg cut ep with
      | false => exact List.mem_append_left _ (List.mem_map_of_mem (List.mem_filter.2 ⟨hmem, by simp [hs]⟩))
      | true =>
        exact List.mem_append_right _ (List.mem_append_left _ (List.mem_map_of_mem (List.mem_filter.2 ⟨hmem, hs⟩)))
    · exact List.mem_append_right _ (List.mem_append_right _ hrest)
  refine wp_tickPhases_of_exitCalls (I := Swept cal cfg ripe stale) ?_ (fun l t t' ht hc => ?_)
    (fun _ h => h.targeted) (fun _ h => h.targeted) fun t hstale => ?_
  · exact swept_loop (fun ep eps t ht hnext => swept_attempt hripe hnext ht)
      (fun ep hep => hripeNext ep (List.mem_filter.1 hep).1) hstart
  · exact ⟨ht.onlyEnds (.of_eq hc.frame.intents), trivial⟩
  · refine wp_then (swept_loop (fun ep eps t ht _ => swept_expireStale ht)
      (fun ep hep => hripeNext ep (List.mem_filter.1 hep).1) hstale) fun _ u hu => ?_
    refine wp_bind (wp_ofOption (fun nextSess _ => ?_) fun _ => hu.targeted)
    exact wp_mono (fun _ _ hv => hv.2) (fun _ h => h) (wp_forEach
      (fun eps v => (∀ ep ∈ eps, ep.EntersNext cal) ∧ Swept cal cfg ripe rest v)
      (fun ep eps v hv => wp_mono (fun _ _ hw => ⟨fun e he => hv.1 e (List.mem_cons_of_mem _ he), hw⟩) (fun _ h => h)
        (swept_admitIntent hv.2 hripe (hv.1 ep List.mem_cons_self))) all ⟨hnext, hu⟩)

theorem swept_tick (ht : WellTargeted cal s) (hdet : i.records.isSome → i.Detects cal cfg s) :
    wp (sweeping cal) (tick cal cfg i)
      (fun _ t => WellTargeted cal t ∧ (i.records.isSome → i.LeaksNone cal cfg t)) (WellTargeted cal) s := by
  refine wp_tick ht fun ripe all cut hripe hall _ => ?_
  obtain ⟨-, hnext⟩ := episodes_spec hall
  cases hrec : i.records.isSome with
  | true =>
    have hstart : Swept cal cfg ripe (all.map ClusterEpisode.episodeId ++ []) s :=
      ⟨ht, by rw [List.append_nil]; exact hdet hrec ripe all hripe hall⟩
    refine wp_mono (fun _ t hs => ⟨hs.targeted, fun _ ripe' hripe' it hit hp ho => ?_⟩) (fun _ h => h)
      (swept_tickPhases hripe hnext hstart)
    obtain rfl := Option.some.inj (hripe.symm.trans hripe')
    exact absurd (hs.covered it hit hp ho) List.not_mem_nil
  | false =>
    have hstart : Swept cal cfg ripe (all.map ClusterEpisode.episodeId ++ s.intents.rows.map (·.episodeId)) s :=
      ⟨ht, fun it hit _ _ => List.mem_append_right _ (List.mem_map_of_mem hit)⟩
    exact wp_mono (fun _ t hs => ⟨hs.targeted, fun h => nomatch h⟩) (fun _ h => h)
      (swept_tickPhases hripe hnext hstart)

theorem swept_cutover (c : CutoverInput) (ht : WellTargeted cal s) :
    wp (sweeping cal) (classifyAndCancelPendingAtCutover cal c) (fun _ => WellTargeted cal) (WellTargeted cal) s := by
  have hcalls : Calls (IntentCall cal {} fun _ => False) (classifyAndCancelPendingAtCutover cal c) := calls_cutover c
  refine wp_of_keeps (keeps_mono (J := WellTargeted cal) (H := fun _ _ _ => True) (calls_entry hcalls) (fun _ _ => trivial)
    fun _ t t' h hc => ⟨fun it hit => ?_, trivial⟩) (fun _ _ _ _ _ => trivial) (fun _ _ h _ => h) ht
  rcases hc.onlyEnds it hit with hit | ⟨it', hit', he, htgt, -⟩
  · exact h it hit
  · rw [he, htgt]
    exact h it' hit'

/-! ## Every run -/

/-- In every run of one service, cutovers between its ticks included, whatever call raises and wherever the process
crashes: a tick that read its source and ran to its end leaves no overdue `PENDING` intent, when each such tick detects
the episodes of those that it found. -/
theorem no_leaked_reservation (cal : Calendar) (cfg : V2Config) (start : ℚ) {segs : List (Seg Job Call Store)}
    {s : Store} (h : Run (Job.prog cal cfg) (Store.init start) segs s)
    (hdet : ∀ g ∈ segs, ∀ i, g.input = .tick i → i.records.isSome → i.Detects cal cfg g.pre) :
    ∀ g ∈ segs, ∀ i, g.input = .tick i → i.records.isSome → g.outcome = .done () → i.LeaksNone cal cfg g.post := by
  have hend := Run.ends (fun _ => sweeping cal) (WellTargeted cal)
    (fun j t => ∀ i, j = .tick i → i.records.isSome → i.Detects cal cfg t)
    (fun j t => ∀ i, j = .tick i → i.records.isSome → i.LeaksNone cal cfg t) (fun _ hit => by cases hit)
    (fun _ _ h => h) (fun j t ht hj => ?_) h fun g hg => ⟨hdet g hg, fun e _ => ⟨fun _ => trivial, fun _ => trivial⟩⟩
  · exact fun g hg i hi hrec hdone => hend g hg hdone i hi hrec
  · cases j with
    | tick i =>
      refine wp_mono (fun _ u hu => ⟨hu.1, fun i' hi' hrec => ?_⟩) (fun _ h => h) (swept_tick ht (hj i rfl))
      obtain rfl := Job.tick.inj hi'
      exact hu.2 hrec
    | cutover c => exact wp_mono (fun _ u hu => ⟨hu, fun i hi => nomatch hi⟩) (fun _ h => h) (swept_cutover c ht)

/-- A tick at `now` whose source read covers the last 45 days. -/
def rollingTick (now : Instant) : TickInput :=
  { sampleTick true now with records := some (sampleRecords.filter fun r => utcDate now - 45 ≤ r.filingDate) }

/-- An intent on day 29 is ended by the tick of day 39. -/
theorem no_leaked_reservation_sample :
    let r := runAll (Job.prog (.weekdays 60) {}) [(.tick (rollingTick (dayStart 29 + 80000)), []),
      (.tick (rollingTick (dayStart 39 + 60000)), [])] (Store.init 100000)
    (r.2.entryIntent sampleEpisode).map (·.status) = some .expiredStale ∧
      ∀ g ∈ r.1, ∀ i, g.input = .tick i → i.records.isSome → g.outcome = .done () →
        i.LeaksNone (.weekdays 60) {} g.post := by
  intro r
  refine ⟨by decide +kernel, no_leaked_reservation (.weekdays 60) {} 100000 (runAll_sound _ _ _) ?_⟩
  have hrows : ∀ g ∈ r.1, ∀ it ∈ g.pre.intents.rows, it.episodeId = sampleEpisode := by decide +kernel
  intro g hg i hi _ ripe all _ hall it hit _ _
  have hin := mem_runAll_input hg
  rw [hi] at hin
  simp only [List.map_cons, List.map_nil, List.mem_cons, Job.tick.injEq, List.not_mem_nil, or_false] at hin
  have heps : (i.episodes (.weekdays 60) {}).map (·.map ClusterEpisode.episodeId) = some [sampleEpisode] := by
    rcases hin with rfl | rfl <;> decide +kernel
  rw [hall, Option.map_some] at heps
  rw [Option.some.inj heps, hrows g hg it hit]
  exact List.mem_singleton_self _

/-- The service is down between days 29 and 77, when the filings have left the lookback: the intent for day 30 stays
`PENDING`. -/
theorem leaked_reservation :
    let r := runAll (Job.prog (.weekdays 100) {}) [(.tick (rollingTick (dayStart 29 + 80000)), []),
      (.tick (rollingTick (dayStart 77 + 80000)), [])] (Store.init 100000)
    ¬ ∀ g ∈ r.1, ∀ i, g.input = .tick i → i.records.isSome → g.outcome = .done () →
      i.LeaksNone (.weekdays 100) {} g.post := by
  intro r h
  have hbad : ∃ g ∈ r.1, g.input = .tick (rollingTick (dayStart 77 + 80000)) ∧ g.outcome = .done () ∧
      ∃ it ∈ g.post.intents.rows, it.status = .pending ∧ it.targetEntrySession = 30 := by
    exact ⟨r.1.get ⟨1, by decide +kernel⟩, List.get_mem _ _, rfl, by decide +kernel, by decide +kernel⟩
  obtain ⟨g, hg, hi, hdone, it, hit, hp, htarget⟩ := hbad
  refine h g hg _ hi rfl hdone 77 (by decide +kernel) it hit hp ⟨32, ?_, by decide⟩
  rw [htarget]
  decide +kernel

end TalonX.V2
