import TalonX.V2.Calls

/-!
# An entered episode stays entered

Once an episode has a position its disposition is to stay `ENTERED`, and no alert is to say that no position was opened.
The entry phase overwrites the disposition before it looks at the position, so this holds of a run whose ticks keep
entered episodes away from the two branches that do (`Undisturbed`, `entered_stays`); with the gate off, a live tick after
the close of the last recovery session breaks it (`entered_overwritten`).

- `EnteredInv`: the invariant between calls; with the gate on it already keeps entered episodes out;
- `Vacant`: what holds while an attempt works on an episode without a position.
-/

set_option autoImplicit false

namespace TalonX.V2

open Transact

/-- Entered episodes are recorded as entered and hold no reservation. -/
structure EnteredInv (s : Store) : Prop where
  disposition : ∀ e, (s.positionForEpisode e).isSome = true → s.episodeDisposition e = some .entered
  notPending : ∀ e it, (s.positionForEpisode e).isSome = true → s.entryIntent e = some it → it.status ≠ .pending

/-- Every position's episode is recorded as entered after the step, and the step adds no alert denying a position that
existed before it. -/
structure StaysEntered (s s' : Store) : Prop where
  disposition : ∀ e, (s'.positionForEpisode e).isSome = true → s'.episodeDisposition e = some .entered
  alerts : ∀ a ∈ s'.outbox.rows, a.eventId.2.1.saysNoPosition = true →
    (s.positionForEpisode a.eventId.1).isSome = true → a ∈ s.outbox.rows

/-- The episodes that a tick attempts. -/
def TickInput.Attempts (cal : Calendar) (cfg : V2Config) (i : TickInput) (ripe : Date) (ep : ClusterEpisode) : Prop :=
  ∃ all cut, i.ripeThrough cal = some ripe ∧ i.episodes cal cfg = some all ∧ staleCut cal cfg ripe = some cut ∧
    ep ∈ (all.filter (·.eligibleEntrySession ≤ ripe)).filter (!isStale cfg cut ·)

/-- An attempt on the episode does not reach the branches that overwrite its disposition: it has no position, the gate is
on, or neither the temporal boundary nor the recovery deadline refuses it. -/
def Calm (cal : Calendar) (cfg : V2Config) (i : TickInput) (ripe : Date) (ep : ClusterEpisode) (s : Store) : Prop :=
  (s.positionForEpisode ep.episodeId).isSome = true → i.gate = true ∨
    verifyTemporalBoundary cal i ep (s.entryIntent ep.episodeId) .boundary = true ∧
      cal.recoveryDeadlinePassed ep.eligibleEntrySession cfg.maxEntryStalenessSessions ripe i.live
        (i.clock .recovery ep.episodeId) ≠ some true

/-- No attempt of the tick reaches them. -/
def Undisturbed (cal : Calendar) (cfg : V2Config) (i : TickInput) (s : Store) : Prop :=
  ∀ ripe ep, i.Attempts cal cfg ripe ep → Calm cal cfg i ripe ep s

variable {cal : Calendar} {cfg : V2Config} {l : Call} {s s' s₀ : Store} {e : EpisodeId} {es : List EpisodeId}

theorem EnteredInv.init (start : ℚ) : EnteredInv (Store.init start) where
  disposition e h := by cases h
  notPending e it h := by cases h

/-- A step that enqueues no such alert. -/
theorem EnteredInv.stays (h : EnteredInv s')
    (ho : ∀ a ∈ s'.outbox.rows, a ∈ s.outbox.rows ∨ a.eventId.2.1.saysNoPosition = false) : StaysEntered s s' where
  disposition := h.disposition
  alerts a ha hk _ := (ho a ha).resolve_right (by simp [hk])

theorem ExitFrame.enteredInv (hf : ExitFrame s s') (h : EnteredInv s) : EnteredInv s' where
  disposition e he := by
    rw [Store.episodeDisposition, hf.dispositions]
    exact h.disposition e (hf.entered e ▸ he)
  notPending e it he hi := by
    rw [Store.entryIntent, hf.intents] at hi
    exact h.notPending e it (hf.entered e ▸ he) hi

/-! ## Writes about an episode without a position -/

/-- The positions and intents of the episodes `es` are as they were at `s₀`. -/
def Untouched (es : List EpisodeId) (s₀ s : Store) : Prop :=
  ∀ e ∈ es, s.positionForEpisode e = s₀.positionForEpisode e ∧ s.entryIntent e = s₀.entryIntent e

/-- An episode without a position, while the episodes `es` are as they were at `s₀`. -/
structure Vacant (e : EpisodeId) (es : List EpisodeId) (s₀ s : Store) : Prop where
  inv : EnteredInv s
  vacant : s.positionForEpisode e = none
  untouched : Untouched es s₀ s

theorem Vacant.recordDisposition (h : Vacant e es s₀ s) (d : Disposition) :
    Vacant e es s₀ (s.recordDisposition e d) where
  inv :=
    { disposition := fun e' he' => by
        have hne : e' ≠ e := by
          rintro rfl
          have : (s.positionForEpisode e').isSome = true := he'
          rw [h.vacant] at this
          cases this
        rw [Store.episodeDisposition_recordDisposition_of_ne d hne]
        exact h.inv.disposition e' he'
      notPending := h.inv.notPending }
  vacant := h.vacant
  untouched := h.untouched

theorem EnteredInv.markEntryIntent (h : EnteredInv s) (iid : IntentId) {st : IntentStatus} (hst : st ≠ .pending)
    (fill : Option (ℕ × ℚ × Date)) : EnteredInv (s.markEntryIntent iid st fill) where
  disposition := h.disposition
  notPending e it he hi := by
    rw [Store.entryIntent_markEntryIntent] at hi
    obtain ⟨i, hi₀, rfl⟩ := Option.map_eq_some_iff.1 hi
    split
    · exact hst
    · exact h.notPending e i he hi₀

theorem Vacant.markEntryIntent (h : Vacant e es s₀ s) (hes : e ∉ es) {iid : IntentId} (hiid : iid.1 = e)
    {st : IntentStatus} (hst : st ≠ .pending) (fill : Option (ℕ × ℚ × Date)) :
    Vacant e es s₀ (s.markEntryIntent iid st fill) where
  inv := h.inv.markEntryIntent iid hst fill
  vacant := h.vacant
  untouched e' he' := by
    have hne : e' ≠ iid.1 := by
      rw [hiid]
      rintro rfl
      exact hes he'
    exact ⟨(h.untouched e' he').1, (Store.entryIntent_markEntryIntent_of_ne st fill hne).trans (h.untouched e' he').2⟩

theorem Vacant.enqueueAlert (h : Vacant e es s₀ s) (a : Alert) : Vacant e es s₀ (s.enqueueAlert a) where
  inv := { disposition := h.inv.disposition, notPending := h.inv.notPending }
  vacant := h.vacant
  untouched := h.untouched

/-- An alert about an episode without a position. -/
theorem Vacant.stays_enqueueAlert (h : Vacant e es s₀ s) {a : Alert} (ha : a.eventId.1 = e) :
    StaysEntered s (s.enqueueAlert a) where
  disposition := h.inv.disposition
  alerts b hb _ hpos := by
    rcases Table.mem_insertOrIgnore hb with hb | rfl
    · exact hb
    · rw [ha, h.vacant] at hpos
      cases hpos

/-! ## The calls of an attempt -/

/-- Every commit keeps entered episodes entered; a crash leaves the invariant. -/
def truthful : Contract Call Store where
  commit _ s s' := EnteredInv s' ∧ StaysEntered s s'
  mayFault _ _ := True
  atCrash := EnteredInv

theorem truthful_recordDisposition (h : Vacant e es s₀ s) (d : Disposition) :
    wp truthful (recordDisposition e d) (fun _ => Vacant e es s₀) EnteredInv s :=
  wp_write ⟨(h.recordDisposition d).inv, (h.recordDisposition d).inv.stays fun _ ha => Or.inl ha⟩
    (h.recordDisposition d) fun _ => ⟨h.inv, h.inv⟩

theorem truthful_markIntent (h : Vacant e es s₀ s) (hes : e ∉ es) {it : EntryIntent} (hit : it.episodeId = e)
    {st : IntentStatus} (hst : st ≠ .pending) :
    wp truthful (markIntent it st) (fun _ => Vacant e es s₀) EnteredInv s := by
  have h' : Vacant e es s₀ (s.markEntryIntent it.intentId st none) := h.markEntryIntent hes hit hst none
  exact wp_write ⟨h'.inv, h'.inv.stays fun _ ha => Or.inl ha⟩ h' fun _ => ⟨h.inv, h.inv⟩

theorem truthful_releaseIntent (h : Vacant e es s₀ s) (hes : e ∉ es) {intent : Option EntryIntent}
    (hit : ∀ it, intent = some it → it.episodeId = e) {st : IntentStatus} (hst : st ≠ .pending) :
    wp truthful (releaseIntent intent st) (fun _ => Vacant e es s₀) EnteredInv s := by
  cases intent with
  | none => exact h
  | some it => exact truthful_markIntent h hes (hit it rfl) hst

theorem truthful_entryAlert {ep : ClusterEpisode} (h : Vacant ep.episodeId es s₀ s) (k : AlertKind)
    (intent : Option EntryIntent) :
    wp truthful (enqueueAlert (entryAlert ep k intent)) (fun _ => Vacant ep.episodeId es s₀) EnteredInv s :=
  wp_write ⟨(h.enqueueAlert _).inv, h.stays_enqueueAlert rfl⟩ (h.enqueueAlert _) fun _ => ⟨h.inv, h.inv⟩

variable {ep : ClusterEpisode} {intent : Option EntryIntent}

theorem truthful_rejectBoundary (h : Vacant ep.episodeId es s₀ s) (hes : ep.episodeId ∉ es)
    (hit : ∀ it, intent = some it → it.episodeId = ep.episodeId) :
    wp truthful (rejectBoundary ep intent) (fun _ => Vacant ep.episodeId es s₀) EnteredInv s :=
  wp_then (truthful_recordDisposition h _) fun _ _ ht => truthful_releaseIntent ht hes hit (by simp)

theorem truthful_expireRecovery (h : Vacant ep.episodeId es s₀ s) (hes : ep.episodeId ∉ es)
    (hit : ∀ it, intent = some it → it.episodeId = ep.episodeId) :
    wp truthful (expireRecovery ep intent) (fun _ => Vacant ep.episodeId es s₀) EnteredInv s := by
  refine wp_then (truthful_recordDisposition h _) fun _ t ht => ?_
  cases intent with
  | none => exact ht
  | some it => exact wp_then (truthful_markIntent ht hes (hit it rfl) (by simp)) fun _ _ hu => truthful_entryAlert hu _ _

theorem truthful_failNoMarketData (h : Vacant ep.episodeId es s₀ s) (hes : ep.episodeId ∉ es)
    (hit : ∀ it, intent = some it → it.episodeId = ep.episodeId) :
    wp truthful (failNoMarketData ep intent) (fun _ => Vacant ep.episodeId es s₀) EnteredInv s :=
  wp_then (truthful_recordDisposition h _) fun _ _ ht => wp_then (truthful_releaseIntent ht hes hit (by simp)) fun _ _ hu =>
    truthful_entryAlert hu _ _

/-- Recording an unseen episode: an entered one has been seen. -/
theorem truthful_recordUnseen {d : Disposition} (h : EnteredInv s) (hu : Untouched es s₀ s) :
    wp truthful (recordUnseen e d) (fun _ t => EnteredInv t ∧ Untouched es s₀ t) EnteredInv s := by
  refine wp_bind (wp_read ⟨h, h.stays fun _ ha => Or.inl ha⟩ ?_ fun _ => ⟨h, h⟩)
  split
  · exact ⟨h, hu⟩
  · rename_i hunseen
    have hnone : s.positionForEpisode e = none := by
      cases hp : s.positionForEpisode e with
      | none => rfl
      | some p =>
        have hd := h.disposition e (by rw [hp]; rfl)
        simp only [Store.episodeSeen, Store.episodeDisposition] at hunseen hd
        rw [hd] at hunseen
        cases hunseen rfl
    exact wp_mono (fun _ t ht => ⟨ht.inv, ht.untouched⟩) (fun _ h => h) (truthful_recordDisposition ⟨h, hnone, hu⟩ d)

/-! ## The fill -/

/-- A fill records its episode as entered, releases its intent and leaves the other episodes alone. -/
theorem Filled.entered_inv {row : Position} (hf : Filled cal cfg ep (s.entryIntent ep.episodeId) s row s')
    (h : EnteredInv s) : EnteredInv s' ∧ ∀ e, e ≠ ep.episodeId →
      s'.positionForEpisode e = s.positionForEpisode e ∧ s'.entryIntent e = s.entryIntent e := by
  obtain ⟨hpos, hdisp, ⟨fill, hint⟩, -⟩ := hf.tables
  have hkey : ∀ it, s.entryIntent ep.episodeId = some it → it.episodeId = ep.episodeId := fun _ => Table.key_of_get
  have hrest : ∀ e, e ≠ ep.episodeId →
      s'.positionForEpisode e = s.positionForEpisode e ∧ s'.entryIntent e = s.entryIntent e := by
    intro e hne
    refine ⟨by rw [hpos, if_neg (Ne.symm hne), Option.or_none], ?_⟩
    rw [Store.entryIntent, hint]
    exact entryIntent_markFilled_of_ne hkey hne fill s
  refine ⟨⟨fun e he => ?_, fun e it he hi => ?_⟩, hrest⟩
  · by_cases hne : e = ep.episodeId
    · rw [hne, Store.episodeDisposition, hdisp, Function.update_self]
    · rw [Store.episodeDisposition, hdisp, Function.update_of_ne hne]
      exact h.disposition e ((hrest e hne).1 ▸ he)
  · by_cases hne : e = ep.episodeId
    · subst hne
      rw [Store.entryIntent, hint] at hi
      exact entryIntent_markFilled_self hi
    · rw [(hrest e hne).2] at hi
      exact h.notPending e it ((hrest e hne).1 ▸ he) hi

/-- What a fill transaction may do: it enters an episode without a position, or it leaves the positions alone. When its
result is a skip, the episode has none. -/
theorem truthful_fillTxn {i : TickInput} (h : EnteredInv s) (hes : ep.episodeId ∉ es) (hu : Untouched es s₀ s) :
    wp truthful (Prog.txn (.fill ep.episodeId i.gate) (fillTxn cal cfg i ep (s.entryIntent ep.episodeId)))
      (fun r t => EnteredInv t ∧ Untouched es s₀ t ∧
        ((∃ why, r = .skipped (.skip why)) → Vacant ep.episodeId es s₀ t))
      (fun t => EnteredInv t ∧ Untouched es s₀ t) s := by
  refine wp_txn (fun r s' hr => ?_) (fun _ => ⟨⟨h, h.stays fun _ ha => Or.inl ha⟩, h, hu⟩) fun _ => ⟨h, h, hu⟩
  rcases fillTxn_cases hr with ⟨rfl, hne⟩ | ⟨hnew, why, rfl, -⟩ | ⟨row, px, n, hf, rfl⟩
  · exact ⟨⟨h, h.stays fun _ ha => Or.inl ha⟩, h, hu, fun ⟨why, hw⟩ => absurd hw (hne why)⟩
  · have hvac : Vacant ep.episodeId es s₀ s := by
      refine ⟨h, ?_, hu⟩
      simp only [alreadyProcessed, Bool.or_eq_false_iff, Option.isSome_eq_false_iff, Option.isNone_iff_eq_none] at hnew
      exact hnew.2
    have hvac' := hvac.recordDisposition (.skipped why)
    exact ⟨⟨hvac'.inv, hvac'.inv.stays fun _ ha => Or.inl ha⟩, hvac'.inv, hvac'.untouched, fun _ => hvac'⟩
  · obtain ⟨hinv, hrest⟩ := hf.entered_inv h
    have hout := hf.tables.2.2.2
    refine ⟨⟨hinv, hinv.stays fun a ha => ?_⟩, hinv, fun e he => ?_, fun ⟨why, hw⟩ => by cases hw⟩
    · rw [hout] at ha
      rcases Table.mem_insertOrIgnore ha with ha | rfl
      · exact Or.inl ha
      · exact Or.inr rfl
    · have hne : e ≠ ep.episodeId := by
        rintro rfl
        exact hes he
      exact ⟨(hrest e hne).1.trans (hu e he).1, (hrest e hne).2.trans (hu e he).2⟩

theorem truthful_attemptFill {i : TickInput} (ripe : Date) (h : EnteredInv s) (hes : ep.episodeId ∉ es)
    (hu : Untouched es s₀ s) :
    wp truthful (attemptFill cal cfg i ripe ep (s.entryIntent ep.episodeId))
      (fun _ t => EnteredInv t ∧ Untouched es s₀ t) EnteredInv s := by
  have hkey : ∀ it, s.entryIntent ep.episodeId = some it → it.episodeId = ep.episodeId := fun _ => Table.key_of_get
  refine wp_then (I := fun r t => EnteredInv t ∧ Untouched es s₀ t ∧
    ((∃ why, r = some (.skipped (.skip why))) → Vacant ep.episodeId es s₀ t)) ?_ fun r t ht => ?_
  · refine wp_tryCatch (wp_then (wp_mono (fun _ _ h => h) (fun t ht => ?_) (truthful_fillTxn h hes hu)) fun r t ht => ?_)
    · exact ⟨ht.1, ht.2, fun ⟨_, hw⟩ => by cases hw⟩
    · exact ⟨ht.1, ht.2.1, fun ⟨why, hw⟩ => ht.2.2 ⟨why, Option.some.inj hw⟩⟩
  · split
    · have hvac := ht.2.2 ⟨_, rfl⟩
      refine wp_bind (wp_ofOption (fun d _ => ?_) fun _ => ht.1)
      split
      · exact ⟨ht.1, ht.2.1⟩
      · exact wp_mono (fun _ _ h => ⟨h.inv, h.untouched⟩) (fun _ h => h) (truthful_failNoMarketData hvac hes hkey)
    · exact ⟨ht.1, ht.2.1⟩

/-! ## The phases -/

theorem truthful_attemptEpisode {i : TickInput} {ripe : Date} (h : EnteredInv s) (hes : ep.episodeId ∉ es)
    (hu : Untouched es s₀ s) (hcalm : Calm cal cfg i ripe ep s) :
    wp truthful (attemptEpisode cal cfg i ripe ep) (fun _ t => EnteredInv t ∧ Untouched es s₀ t) EnteredInv s := by
  have hkey : ∀ it, s.entryIntent ep.episodeId = some it → it.episodeId = ep.episodeId := fun _ => Table.key_of_get
  refine wp_bind (wp_read ⟨h, h.stays fun _ ha => Or.inl ha⟩ ?_ fun _ => ⟨h, h⟩)
  split
  · split
    · exact truthful_recordUnseen h hu
    · exact ⟨h, hu⟩
  rename_i hgate
  unfold attemptAdmitted
  cases hp : s.positionForEpisode ep.episodeId with
  | none =>
    have hvac : Vacant ep.episodeId es s₀ s := ⟨h, hp, hu⟩
    split
    · exact wp_mono (fun _ _ h => ⟨h.inv, h.untouched⟩) (fun _ h => h) (truthful_rejectBoundary hvac hes hkey)
    refine wp_bind (wp_ofOption (fun passed _ => ?_) fun _ => h)
    split
    · exact wp_mono (fun _ _ h => ⟨h.inv, h.untouched⟩) (fun _ h => h) (truthful_expireRecovery hvac hes hkey)
    · exact truthful_attemptFill ripe h hes hu
  | some p =>
    have hsome : (s.positionForEpisode ep.episodeId).isSome = true := by rw [hp]; rfl
    -- with the gate on the intent would be `PENDING`, which an entered episode's is not
    have hoff : i.gate = false := by
      by_contra hon
      rw [Bool.not_eq_false] at hon
      simp only [gateRefuses, hon, Bool.true_and, Bool.not_eq_true, Bool.not_eq_false', Option.any_eq_true,
        decide_eq_true_eq] at hgate
      obtain ⟨it, hit, hpend⟩ := hgate
      exact h.notPending _ it hsome hit hpend
    obtain hon | ⟨hbound, hpassed⟩ := hcalm hsome
    · rw [hoff] at hon; cases hon
    rw [hbound]
    refine wp_bind (wp_ofOption (fun passed hpas => ?_) fun _ => h)
    rw [hpas] at hpassed
    split
    · rename_i htrue
      exact absurd (congrArg some htrue) hpassed
    · exact truthful_attemptFill ripe h hes hu

theorem truthful_phaseOpen {i : TickInput} {ripe : Date} {eps : List ClusterEpisode} (h : EnteredInv s)
    (hn : (eps.map ClusterEpisode.episodeId).Nodup) (hcalm : ∀ ep ∈ eps, Calm cal cfg i ripe ep s) :
    wp truthful (phaseOpen cal cfg i ripe eps) (fun _ => EnteredInv) EnteredInv s := by
  -- the episodes still to come are as they were when the phase began
  let J : List ClusterEpisode → Store → Prop := fun eps t => (eps.map ClusterEpisode.episodeId).Nodup ∧
    (∀ ep ∈ eps, Calm cal cfg i ripe ep s) ∧ EnteredInv t ∧ Untouched (eps.map ClusterEpisode.episodeId) s t
  have hloop : wp truthful (phaseOpen cal cfg i ripe eps) (fun _ => J []) EnteredInv s := by
    refine wp_forEach J (fun ep rest t ht => ?_) eps ⟨hn, hcalm, h, fun _ _ => ⟨rfl, rfl⟩⟩
    obtain ⟨hn, hcalm, hinv, hu⟩ := ht
    obtain ⟨hnot, hn⟩ := List.nodup_cons.1 hn
    have hself := hu ep.episodeId List.mem_cons_self
    have hc : Calm cal cfg i ripe ep t := by
      unfold Calm
      rw [hself.1, hself.2]
      exact hcalm ep List.mem_cons_self
    exact wp_mono (fun _ _ ht => ⟨hn, fun e he => hcalm e (List.mem_cons_of_mem _ he), ht⟩) (fun _ h => h)
      (truthful_attemptEpisode hinv hnot (fun e he => hu e (List.mem_cons_of_mem _ he)) hc)
  exact wp_mono (fun _ _ ht => ht.2.2.1) (fun _ h => h) hloop

/-- The stale sweep expires `PENDING` intents only, and an entered episode has none. -/
theorem truthful_expireStale (h : EnteredInv s) : wp truthful (expireStale ep) (fun _ => EnteredInv) EnteredInv s := by
  have hnil : Untouched [] s s := fun _ he => by cases he
  refine wp_then (truthful_recordUnseen h hnil) fun _ t ht => ?_
  obtain ⟨ht, -⟩ := ht
  refine wp_bind (wp_read ⟨ht, ht.stays fun _ ha => Or.inl ha⟩ ?_ fun _ => ⟨ht, ht⟩)
  split
  · exact ht
  rename_i it hit
  split
  · rename_i hp
    have hvac : Vacant ep.episodeId [] t t := by
      refine ⟨ht, ?_, fun _ he => by cases he⟩
      cases hpos : t.positionForEpisode ep.episodeId with
      | none => rfl
      | some p => exact absurd hp (ht.notPending _ it (by rw [hpos]; rfl) hit)
    exact wp_then (truthful_markIntent hvac (by simp) (Table.key_of_get hit) (by simp)) fun _ _ hu =>
      wp_mono (fun _ _ h => h.inv) (fun _ h => h) (truthful_entryAlert hu _ _)
  · exact ht

theorem Vacant.admitTxn (h : Vacant ep.episodeId [] s s) (i : TickInput) :
    EnteredInv (admitTxn cal cfg i ep s) ∧ StaysEntered s (admitTxn cal cfg i ep s) := by
  unfold TalonX.V2.admitTxn
  split
  · exact ⟨(h.recordDisposition _).inv, (h.recordDisposition _).inv.stays fun _ ha => Or.inl ha⟩
  split
  · exact ⟨(h.recordDisposition _).inv, (h.recordDisposition _).inv.stays fun _ ha => Or.inl ha⟩
  have hinv : ∀ it : EntryIntent, it.episodeId = ep.episodeId → ∀ a, EnteredInv ((s.upsertEntryIntent it).enqueueAlert a) := by
    intro it hit a
    refine ⟨h.inv.disposition, fun e i' he hi => ?_⟩
    have hne : e ≠ it.episodeId := by
      rintro rfl
      have : (s.positionForEpisode it.episodeId).isSome = true := he
      rw [hit, h.vacant] at this
      cases this
    have hsame : (s.upsertEntryIntent it).entryIntent e = some i' := hi
    rw [Store.entryIntent_upsertEntryIntent_of_ne hne] at hsame
    exact h.inv.notPending e i' he hsame
  refine ⟨hinv _ rfl _, (hinv _ rfl _).stays fun a ha => ?_⟩
  rcases Table.mem_insertOrIgnore ha with ha | rfl
  · exact Or.inl ha
  · exact Or.inr rfl

theorem truthful_admitIntent {i : TickInput} {nextSess : Date} (h : EnteredInv s) :
    wp truthful (admitIntent cal cfg i nextSess ep) (fun _ => EnteredInv) EnteredInv s := by
  have hread : EnteredInv s ∧ StaysEntered s s := ⟨h, h.stays fun _ ha => Or.inl ha⟩
  unfold admitIntent
  split
  · refine wp_bind (wp_read hread ?_ fun _ => ⟨h, h⟩)
    split
    · exact h
    rename_i hdisp
    have hvac : Vacant ep.episodeId [] s s := by
      refine ⟨h, ?_, fun _ he => by cases he⟩
      cases hpos : s.positionForEpisode ep.episodeId with
      | none => rfl
      | some p => exact absurd (Or.inl (h.disposition _ (by rw [hpos]; rfl))) hdisp
    refine wp_bind (wp_read hread ?_ fun _ => ⟨h, h⟩)
    split
    · exact h
    refine wp_bind (wp_read hread (wp_bind (wp_ofOption (fun found _ => ?_) fun _ => h)) fun _ => ⟨h, h⟩)
    split
    · exact h
    split
    · exact wp_mono (fun _ _ h => h.inv) (fun _ h => h) (truthful_recordDisposition hvac _)
    · exact wp_write (hvac.admitTxn i) (hvac.admitTxn i).1 fun _ => ⟨h, h⟩
  · exact h

theorem truthful_phasePostClose {i : TickInput} {ripe : Date} {stale all : List ClusterEpisode} (h : EnteredInv s) :
    wp truthful (phasePostClose cal cfg i ripe stale all) (fun _ => EnteredInv) EnteredInv s :=
  wp_then (wp_forEach (fun _ => EnteredInv) (fun _ _ _ ht => truthful_expireStale ht) stale h) fun _ _ ht =>
    wp_bind (wp_ofOption (fun _ _ => wp_forEach (fun _ => EnteredInv) (fun _ _ _ hu => truthful_admitIntent hu) all ht)
      fun _ => ht)

/-! ## Every run -/

theorem truthful_job (j : Job) (h : EnteredInv s) (hcalm : ∀ i, j = .tick i → Undisturbed cal cfg i s) :
    wp truthful (j.prog cal cfg) (fun _ => EnteredInv) EnteredInv s := by
  cases j with
  | cutover c =>
    have hmark : ∀ (t : Store) (it : EntryIntent) (st : IntentStatus), EnteredInv t → st ≠ .pending →
        wp truthful (markIntent it st) (fun _ => EnteredInv) EnteredInv t := fun t it st ht hst =>
      wp_write ⟨ht.markEntryIntent _ hst _, (ht.markEntryIntent _ hst _).stays fun _ ha => Or.inl ha⟩
        (ht.markEntryIntent _ hst _) fun _ => ⟨ht, ht⟩
    refine wp_bind (wp_read ⟨h, h.stays fun _ ha => Or.inl ha⟩ ?_ fun _ => ⟨h, h⟩)
    refine wp_then (I := fun _ => EnteredInv) (wp_foldEach (fun _ _ => EnteredInv) (fun it _ r t ht => ?_) _ h)
      fun r t ht => ?_
    · unfold classifyIntent
      split
      · exact wp_then (hmark t it _ ht (by simp)) fun _ _ hu => hu
      · refine wp_bind (wp_ofOption (fun passed _ => ?_) fun _ => ht)
        split
        · exact wp_then (hmark t it _ ht (by simp)) fun _ _ hu => hu
        · exact ht
    · have ht' : EnteredInv (t.recordCutover r) := ⟨ht.disposition, ht.notPending⟩
      exact wp_write ⟨ht', ht'.stays fun _ ha => Or.inl ha⟩ ht' fun _ => ⟨ht, ht⟩
  | tick i =>
    refine wp_tick h fun ripe all cut hripe hall hcut => wp_tickPhases_of_exitCalls (I := EnteredInv) ?_
      (fun l t t' ht hc => ?_) (fun _ h => h) (fun _ h => h) fun t ht => truthful_phasePostClose ht
    · obtain ⟨hn, -⟩ := episodes_spec hall
      refine truthful_phaseOpen h (((List.filter_sublist.trans List.filter_sublist).map _).nodup hn) fun ep hep => ?_
      exact hcalm i rfl ripe ep ⟨all, cut, hripe, hall, hcut, hep⟩
    · have ht' := hc.frame.enteredInv ht
      refine ⟨ht', ht', ht'.stays fun a ha => (hc.frame.alerts a ha).imp id fun hk => ?_⟩
      rw [hk]
      rfl

/-- In every run of one service, cutovers between its ticks included, whatever call raises and wherever the process
crashes: when no tick is started on a ledger that it would disturb, every commit keeps entered episodes entered and adds
no alert that denies a position. -/
theorem entered_stays (cal : Calendar) (cfg : V2Config) (start : ℚ) {segs : List (Seg Job Call Store)} {s : Store}
    (h : Run (Job.prog cal cfg) (Store.init start) segs s)
    (hcalm : ∀ g ∈ segs, ∀ i, g.input = .tick i → Undisturbed cal cfg i g.pre) :
    ∀ g ∈ segs, ∀ e ∈ g.events, e.fault = .none → StaysEntered e.pre e.post := by
  have hrun := Run.invariant (fun _ => truthful) EnteredInv (fun j t => ∀ i, j = .tick i → Undisturbed cal cfg i t)
    (EnteredInv.init start) (fun _ _ h => h) (fun j t ht hj => truthful_job j ht hj) h
    fun g hg => ⟨hcalm g hg, fun e _ => ⟨fun _ => trivial, fun _ => trivial⟩⟩
  intro g hg e he hf
  exact ((hrun.2 g hg).2.2 e he hf).2

/-- An intent on day 29, its fill on day 30 and one more live tick on day 31. -/
theorem entered_stays_sample :
    let r := runAll (Job.prog (.weekdays 60) {}) [(.tick (sampleTick true (dayStart 29 + 80000)), []),
      (.tick (sampleTick true (dayStart 30 + 60000)), []), (.tick (sampleTick true (dayStart 31 + 60000)), [])]
      (Store.init 100000)
    r.2.episodeDisposition sampleEpisode = some .entered ∧
      ∀ g ∈ r.1, ∀ e ∈ g.events, e.fault = .none → StaysEntered e.pre e.post := by
  intro r
  refine ⟨by decide +kernel, entered_stays (.weekdays 60) {} 100000 (runAll_sound _ _ _) ?_⟩
  intro g hg i hi ripe ep _ _
  have hin := mem_runAll_input hg
  rw [hi] at hin
  simp only [List.map_cons, List.map_nil, List.mem_cons, Job.tick.injEq, List.not_mem_nil, or_false] at hin
  rcases hin with rfl | rfl | rfl <;> exact Or.inl rfl

/-- With the gate off, the tick after the close of day 32, the third session, overwrites the disposition of the position
opened on day 30 and enqueues an `ENTRY_STALE` alert for it. -/
theorem entered_overwritten :
    let r := runAll (Job.prog (.weekdays 60) {}) [(.tick (sampleTick false (dayStart 29 + 80000)), []),
      (.tick (sampleTick false (dayStart 30 + 60000)), []), (.tick (sampleTick false (dayStart 32 + 80000)), [])]
      (Store.init 100000)
    ¬ (∀ g ∈ r.1, ∀ e ∈ g.events, e.fault = .none → ∀ ep, (e.post.positionForEpisode ep).isSome = true →
        e.post.episodeDisposition ep = some .entered) ∧
      ¬ ∀ g ∈ r.1, ∀ e ∈ g.events, e.fault = .none → ∀ a ∈ e.post.outbox.rows,
        a.eventId.2.1.saysNoPosition = true → (e.pre.positionForEpisode a.eventId.1).isSome = true →
          a ∈ e.pre.outbox.rows := by
  intro r
  constructor
  · intro h
    have hbad : ∃ g ∈ r.1, ∃ e ∈ g.events, e.fault = .none ∧ (e.post.positionForEpisode sampleEpisode).isSome = true ∧
        e.post.episodeDisposition sampleEpisode ≠ some .entered := by decide +kernel
    obtain ⟨g, hg, e, he, hf, hp, hd⟩ := hbad
    exact hd (h g hg e he hf sampleEpisode hp)
  · intro h
    have hbad : ∃ g ∈ r.1, ∃ e ∈ g.events, e.fault = .none ∧ ∃ a ∈ e.post.outbox.rows,
        a.eventId.2.1.saysNoPosition = true ∧ (e.pre.positionForEpisode a.eventId.1).isSome = true ∧
          a ∉ e.pre.outbox.rows := by decide +kernel
    obtain ⟨g, hg, e, he, hf, a, ha, hk, hp, hnew⟩ := hbad
    exact hnew (h g hg e he hf a ha hk hp)

end TalonX.V2
