import TalonX.V2.Life

/-!
# A terminal intent is never filled

Once an intent has left `PENDING` for anything but `FILLED`, its episode is not to be entered. The fill transaction never
reads the intent itself: with the gate on it trusts a status read one call earlier, with the gate off it ignores it. So
`terminal_never_filled` holds of the interleavings in which no write ends an intent between such a read and its fill, and
no ungated fill is taken for a terminal intent (`Undisputed`); `terminal_filled` breaks it for either gate.

- `LedgerCall.keepsTerminal`: every call but a fill leaves a terminal intent's episode alone;
- `outline_tick`: with the gate on, the fill relies on the intent being live, and nothing else relies on anything.
-/

set_option autoImplicit false

namespace TalonX.V2

open Transact

/-- The episode's intent has ended without a fill. -/
def Store.terminal (s : Store) (e : EpisodeId) : Bool :=
  (s.entryIntent e).any fun it => it.status ≠ .pending && it.status ≠ .filled

/-- Episodes whose intent is terminal get no position and no `BUY` trade, and the intent stays terminal. -/
def KeepsTerminal (s s' : Store) : Prop :=
  ∀ e, s.terminal e = true → s'.terminal e = true ∧
    (s'.positionForEpisode e).isSome = (s.positionForEpisode e).isSome ∧
    (s'.tradesOf e).count .buy = (s.tradesOf e).count .buy

variable {cal : Calendar} {cfg : V2Config} {of : TickInput → Prop} {l : Call} {s s' : Store} {e : EpisodeId}

/-! ## Intents end once -/

theorem terminal_of_intents (h : s'.entryIntent e = s.entryIntent e) : s'.terminal e = s.terminal e := by
  rw [Store.terminal, h, Store.terminal]

/-- A mark selects `PENDING` rows only, so a terminal intent stays as it is. -/
theorem terminal_markEntryIntent (h : s.terminal e = true) (iid : IntentId) (st : IntentStatus)
    (fill : Option (ℕ × ℚ × Date)) : (s.markEntryIntent iid st fill).terminal e = true := by
  unfold Store.terminal at h ⊢
  rw [Store.entryIntent_markEntryIntent]
  cases hi : s.entryIntent e with
  | none => rw [hi] at h; cases h
  | some it =>
    rw [hi] at h
    simp only [Option.any_some, Bool.and_eq_true, decide_eq_true_eq] at h
    have hnot : ¬(decide (it.intentId = iid) && decide (it.status = .pending)) = true := by simp [h.1]
    rw [Option.map_some, if_neg hnot]
    simp [h.1, h.2]

/-- `FILLED` is not terminal, and a mark of another episode's intent changes nothing. -/
theorem not_terminal_markEntryIntent {iid : IntentId} {st : IntentStatus} {fill : Option (ℕ × ℚ × Date)}
    (hst : e = iid.1 → st = .filled) (h : (s.markEntryIntent iid st fill).terminal e = true) : s.terminal e = true := by
  by_cases he : e = iid.1
  · unfold Store.terminal at h ⊢
    rw [Store.entryIntent_markEntryIntent] at h
    cases hi : s.entryIntent e with
    | none => rw [hi] at h; cases h
    | some it =>
      rw [hi, Option.map_some, Option.any_some] at h
      split at h
      · simp [Store.marked, hst he] at h
      · exact h
  · rwa [← terminal_of_intents (Store.entryIntent_markEntryIntent_of_ne st fill he)]

theorem terminal_upsertEntryIntent {it : EntryIntent} (hp : it.status = .pending) :
    (s.upsertEntryIntent it).terminal e = s.terminal e := by
  by_cases he : e = it.episodeId
  · unfold Store.terminal
    cases hi : s.entryIntent e with
    | none =>
      have hrows : (s.intents.insertOrIgnore it).rows = s.intents.rows ++ [it] := by
        rw [Table.rows_insertOrIgnore, if_pos (he ▸ hi)]
      have hget : (s.upsertEntryIntent it).entryIntent e = some it := by
        refine (Table.get_append hrows e).trans ?_
        have hnone : s.intents.get e = none := hi
        rw [hnone, if_pos he.symm]
        rfl
      rw [hget]
      simp [hp]
    | some i =>
      have hrows : (s.intents.insertOrIgnore it).rows = s.intents.rows := by
        rw [Table.rows_insertOrIgnore, if_neg]
        rw [← he]
        exact fun hn => by rw [Store.entryIntent, hn] at hi; cases hi
      have hget : (s.upsertEntryIntent it).entryIntent e = s.entryIntent e := by
        unfold Store.entryIntent Table.get Store.upsertEntryIntent
        rw [hrows]
      rw [hget, hi]
  · exact terminal_of_intents (Store.entryIntent_upsertEntryIntent_of_ne he)

theorem terminal_markFilled (intent : Option EntryIntent) (fill : ℕ × ℚ × Date) :
    (markFilled intent fill s).terminal e = s.terminal e := by
  unfold markFilled
  split
  · rfl
  split
  · refine Bool.eq_iff_iff.2 ⟨not_terminal_markEntryIntent fun _ => rfl, fun h => ?_⟩
    exact terminal_markEntryIntent h _ _ _
  · rfl

/-! ## What each call does to terminal intents -/

theorem IntentCall.terminal (h : IntentCall cal cfg of l s s') (ht : s.terminal e = true) : s'.terminal e = true := by
  cases h with
  | mark it st s _ _ => exact terminal_markEntryIntent ht _ _ _
  | reserve i ep s _ =>
    unfold admitTxn
    split
    · exact ht
    split
    · exact ht
    · exact (terminal_upsertEntryIntent rfl).trans ht
  | _ => exact ht

theorem IntentCall.not_terminal (h : IntentCall cal cfg of l s s') (hl : ∀ st, l ≠ .markEntryIntent e st)
    (ht : s'.terminal e = true) : s.terminal e = true := by
  cases h with
  | mark it st s _ _ => exact not_terminal_markEntryIntent (fun he => absurd (he ▸ rfl) (hl st)) ht
  | reserve i ep s _ =>
    unfold admitTxn at ht
    split at ht
    · exact ht
    split at ht
    · exact ht
    · exact (terminal_upsertEntryIntent rfl).symm.trans ht
  | _ => exact ht

theorem ExitCall.buys (h : ExitCall cal cfg l s s') (e : EpisodeId) :
    (s'.tradesOf e).count .buy = (s.tradesOf e).count .buy := by
  have same : ∀ {t t' : Store}, t'.trades = t.trades → (t'.tradesOf e).count .buy = (t.tradesOf e).count .buy := by
    intro t t' ht
    rw [Store.tradesOf, ht]
    rfl
  cases h with
  | unresolved h =>
    obtain ⟨ps, bs, -, rfl⟩ := Store.markExitUnresolved_cases h
    rfl
  | close h =>
    rcases closePosition_cases h with ⟨-, rfl⟩ | ⟨row, hs⟩
    · rfl
    · obtain ⟨t, hsell, -, htr⟩ := hs.trades
      rw [tradesOf_append htr, List.count_append, hsell]
      split <;> simp
  | upkeep h =>
    obtain ⟨cash, trail, ents, rfl⟩ := h.frame
    exact same rfl
  | alert x s => exact same rfl

/-- A fill of another episode. -/
theorem Filled.keepsTerminal {ep : ClusterEpisode} {intent : Option EntryIntent} {row : Position}
    (h : Filled cal cfg ep intent s row s') (he : e ≠ ep.episodeId) :
    (s'.positionForEpisode e).isSome = (s.positionForEpisode e).isSome ∧
      (s'.tradesOf e).count .buy = (s.tradesOf e).count .buy := by
  obtain ⟨t, -, hte, htr⟩ := h.trades
  refine ⟨by rw [h.tables.1, if_neg (Ne.symm he), Option.or_none], ?_⟩
  rw [tradesOf_append htr, if_neg (hte ▸ Ne.symm he), List.append_nil]

theorem Filled.terminal {ep : ClusterEpisode} {intent : Option EntryIntent} {row : Position}
    (h : Filled cal cfg ep intent s row s') (e : EpisodeId) : s'.terminal e = s.terminal e := by
  obtain ⟨-, -, ⟨fill, hint⟩, -⟩ := h.tables
  rw [← terminal_markFilled intent fill (s := s), Store.terminal, Store.entryIntent, hint]
  rfl

/-- Every call but a fill of the episode itself leaves a terminal intent's episode alone. -/
theorem LedgerCall.keepsTerminal (h : LedgerCall cal cfg of l s s') (hl : ∀ g, l ≠ .fill e g)
    (ht : s.terminal e = true) : s'.terminal e = true ∧
      (s'.positionForEpisode e).isSome = (s.positionForEpisode e).isSome ∧
      (s'.tradesOf e).count .buy = (s.tradesOf e).count .buy := by
  cases h with
  | exit h => exact ⟨(terminal_of_intents (by rw [Store.entryIntent, h.frame.intents]; rfl)).trans ht, h.frame.entered e, h.buys e⟩
  | entry h =>
    cases h with
    | intent h =>
      obtain ⟨hp, htr, -⟩ := h.frame
      refine ⟨h.terminal ht, ?_, ?_⟩
      · rw [Store.positionForEpisode, hp]; rfl
      · rw [Store.tradesOf, htr]; rfl
    | rollback i e' s => exact ⟨ht, rfl, rfl⟩
    | @fill i ep it r _ _ hf =>
      have hne : e ≠ ep.episodeId := by
        rintro rfl
        exact hl i.gate rfl
      rcases fillTxn_cases hf with ⟨rfl, -⟩ | ⟨-, why, rfl, -⟩ | ⟨row, px, n, hf, -⟩
      · exact ⟨ht, rfl, rfl⟩
      · exact ⟨ht, rfl, rfl⟩
      · exact ⟨(hf.terminal e).trans ht, hf.keepsTerminal hne⟩

/-- Only a mark of the episode's own intent ends it without a fill. -/
theorem LedgerCall.not_terminal (h : LedgerCall cal cfg of l s s') (hl : ∀ st, l ≠ .markEntryIntent e st)
    (ht : s'.terminal e = true) : s.terminal e = true := by
  cases h with
  | exit h => exact (terminal_of_intents (by rw [Store.entryIntent, h.frame.intents]; rfl)).symm.trans ht
  | entry h =>
    cases h with
    | intent h => exact h.not_terminal hl ht
    | rollback i e' s => exact ht
    | fill hf =>
      rcases fillTxn_cases hf with ⟨rfl, -⟩ | ⟨-, why, rfl, -⟩ | ⟨row, px, n, hf, -⟩
      · exact ht
      · exact ht
      · exact (hf.terminal e).symm.trans ht

/-! ## The read before the fill -/

/-- What a call relies on: a gated fill relies on a live intent. -/
def liveIntent : Call → Store → Prop
  | .fill e true, s => s.terminal e = false
  | _, _ => True

theorem liveIntent_of_not_isFill (h : l.isFill = false) (s : Store) : liveIntent l s := by
  cases l with
  | fill e g => cases h
  | _ => trivial

/-- A call of any tick or cutover. -/
abbrev AnyCall (cal : Calendar) (cfg : V2Config) : Call → Store → Store → Prop := LedgerCall cal cfg fun _ => True

/-- An outline whose assertion is `liveIntent`, from which the program's first call is free. -/
abbrev Live (cal : Calendar) (cfg : V2Config) {α : Type} (p : Prog Call Store α) : Prop :=
  Outline (fun _ => True) liveIntent (AnyCall cal cfg) p ∧ p.Free (fun _ => True) liveIntent

theorem live_ret {α : Type} (a : α) : Live cal cfg (Prog.ret a) := standalone_ret a

theorem live_bind {α β : Type} {p : Prog Call Store α} {k : α → Prog Call Store β} (hp : Live cal cfg p)
    (hk : ∀ a, Live cal cfg (k a)) : Live cal cfg (p.bind k) := standalone_bind hp hk

theorem live_ofOption {α : Type} (o : Option α) : Live cal cfg (Prog.ofOption o : Prog Call Store α) :=
  standalone_ofOption o

theorem live_of_intentCalls {α : Type} {p : Prog Call Store α} (of : TickInput → Prop)
    (h : Calls (IntentCall cal cfg of) p) : Live cal cfg p :=
  outline_of_keeps h fun _ _ _ _ hc => ⟨.entry (.intent hc.any), liveIntent_of_not_isFill hc.not_isFill⟩

theorem live_of_exitCalls {α : Type} {p : Prog Call Store α} (h : Calls (ExitCall cal cfg) p) : Live cal cfg p :=
  outline_of_keeps h fun _ _ _ _ hc => ⟨.exit hc, liveIntent_of_not_isFill hc.not_isFill⟩

variable {i : TickInput} {ripe : Date} {ep : ClusterEpisode} {intent : Option EntryIntent}

theorem outline_bind_live {α β : Type} {p : Prog Call Store α} {k : α → Prog Call Store β}
    (hp : Outline (fun _ => True) liveIntent (AnyCall cal cfg) p) (hk : ∀ a, Live cal cfg (k a)) :
    Outline (fun _ => True) liveIntent (AnyCall cal cfg) (p.bind k) :=
  outline_bind hp (fun a => (hk a).1) fun a => (hk a).2

theorem outline_attemptFill : Outline (fun _ => True) liveIntent (AnyCall cal cfg)
    (attemptFill cal cfg i ripe ep intent) := by
  refine outline_bind_live (outline_tryCatch (outline_bind (outline_txn (fun s _ => ?_) fun s r s' _ _ h => ?_)
    (fun _ => trivial) fun _ _ _ => trivial) trivial fun _ _ => trivial) fun r => ?_
  · exact .entry (.rollback i _ s)
  · exact ⟨trivial, .entry (.fill h)⟩
  · split
    · refine live_bind (live_ofOption _) fun d => ?_
      split
      · exact live_ret _
      · exact live_of_intentCalls (· = i) (calls_failNoMarketData _ _)
    · exact live_ret _

/-- With the intent that was just read, the fill is the next call only when the gate is off or that intent is live. -/
theorem attemptAdmitted_entry (h : gateRefuses i (s.entryIntent ep.episodeId) = false) :
    (attemptAdmitted cal cfg i ripe ep (s.entryIntent ep.episodeId)).entry liveIntent s ∧
      Outline (fun _ => True) liveIntent (AnyCall cal cfg)
        (attemptAdmitted cal cfg i ripe ep (s.entryIntent ep.episodeId)) := by
  have hlive : liveIntent (.fill ep.episodeId i.gate) s := by
    cases hg : i.gate with
    | false => trivial
    | true =>
      simp only [gateRefuses, hg, Bool.true_and, Bool.not_eq_false', Option.any_eq_true, decide_eq_true_eq] at h
      obtain ⟨it, hit, hp⟩ := h
      show s.terminal ep.episodeId = false
      rw [Store.terminal, hit]
      simp [hp]
  have hfree : ∀ {p : Prog Call Store Unit}, Calls (IntentCall cal cfg (· = i)) p →
      p.entry liveIntent s ∧ Outline (fun _ => True) liveIntent (AnyCall cal cfg) p := fun hp =>
    ⟨(live_of_intentCalls _ hp).2 s trivial, (live_of_intentCalls _ hp).1⟩
  unfold attemptAdmitted
  split
  · exact hfree (calls_rejectBoundary ep _)
  cases cal.recoveryDeadlinePassed ep.eligibleEntrySession cfg.maxEntryStalenessSessions ripe i.live
      (i.clock .recovery ep.episodeId) with
  | none => exact ⟨trivial, trivial⟩
  | some passed =>
    cases passed with
    | true => exact hfree (calls_expireRecovery ep _)
    | false => exact ⟨hlive, outline_attemptFill⟩

theorem live_attemptEpisode : Live cal cfg (attemptEpisode cal cfg i ripe ep) := by
  refine ⟨⟨fun s _ _ => ⟨trivial, .entry (.intent (.idle _ s rfl)), ?_⟩, trivial, fun _ _ => trivial⟩, fun _ _ => trivial⟩
  have hrest : Live cal cfg (if ep.eligibleEntrySession < i.today then
      recordUnseen ep.episodeId (.skipped .noPriorIntent) else Prog.ret ()) := by
    split
    · exact live_of_intentCalls (· = i) (calls_recordUnseen _ (by simp))
    · exact live_ret _
  cases hg : gateRefuses i (s.entryIntent ep.episodeId) with
  | true => simpa [hg] using ⟨hrest.2 s trivial, hrest.1⟩
  | false => simpa [hg] using attemptAdmitted_entry hg

theorem live_tick (i : TickInput) : Live cal cfg (tick cal cfg i) :=
  live_bind (live_ofOption _) fun ripe => live_bind (live_ofOption _) fun all => live_bind (live_ofOption _) fun _ =>
    live_bind ⟨outline_forEach (fun _ => live_attemptEpisode.1) (fun _ => live_attemptEpisode.2) _,
      free_forEach (fun _ => live_attemptEpisode.2) _⟩ fun _ =>
    live_bind (live_of_exitCalls (calls_upkeep (calls_phaseCorporateActions i))) fun _ =>
    live_bind (live_of_exitCalls (calls_phaseClose i ripe)) fun _ =>
    live_bind (live_of_exitCalls (calls_upkeep (calls_phaseDividends i))) fun _ =>
    live_of_intentCalls _ (calls_phasePostClose i ripe _ all)

theorem Job.live (j : Job) : Live cal cfg (j.prog cal cfg) := by
  cases j with
  | tick i => exact live_tick i
  | cutover c => exact live_of_intentCalls (fun _ => False) (calls_cutover c)

/-! ## Every interleaving -/

/-- No ungated fill is taken for a terminal intent, and no write ends an intent while another process is between reading
it as `PENDING` and filling it. -/
def Undisputed {ι : Type} (S : Sys ι Call Store) : Move ι Call → Prop
  | .commit _ (.fill e false) => S.store.terminal e = false
  | .commit i (.markEntryIntent e _) => ∀ j, j ≠ i → ∀ p, S.proc j = some p → ¬ p.AboutTo (.fill e true)
  | _ => True

theorem stable_liveIntent {ι : Type} [DecidableEq ι] :
    Stable (fun _ => True) liveIntent (AnyCall cal cfg) (Undisputed (ι := ι)) := by
  intro S i j l s' q hij hq hallow _ hG hentry
  cases q with
  | ret a => trivial
  | raise => trivial
  | call l' post next fault =>
    show liveIntent l' s'
    have hlive : liveIntent l' S.store := hentry
    cases l' with
    | fill e g =>
      cases g with
      | false => trivial
      | true =>
        have hnot : ∀ st, l ≠ .markEntryIntent e st := by
          rintro st rfl
          exact hallow j (Ne.symm hij) _ hq rfl
        have hlive : S.store.terminal e = false := hlive
        show s'.terminal e = false
        by_contra hc
        rw [Bool.not_eq_false] at hc
        rw [hG.not_terminal hnot hc] at hlive
        cases hlive
    | _ => trivial

/-- However many processes run ticks and cutovers on one ledger and however their transactions interleave: when no step
disputes an intent, an episode whose intent is terminal gets no position and no `BUY` trade. -/
theorem terminal_never_filled {ι : Type} [DecidableEq ι] (cal : Calendar) (cfg : V2Config) (start : ℚ)
    {S S' : Sys ι Call Store} {m : Move ι Call}
    (h : Reach (fun _ p => ∃ j : Job, p = j.prog cal cfg) Undisputed (Sys.idle (Store.init start)) S)
    (hs : Step (fun _ p => ∃ j : Job, p = j.prog cal cfg) S m S') (hm : Undisputed S m) :
    KeepsTerminal S.store S'.store := by
  have hS : Sound (fun _ => True) liveIntent (AnyCall cal cfg) S :=
    Reach.invariant (fun _ _ ⟨j, hj⟩ => hj ▸ j.live) stable_liveIntent (Sound.idle trivial) h
  intro e ht
  cases m with
  | commit i l =>
    refine (hS.commit hs).keepsTerminal (fun g hl => ?_) ht
    subst hl
    cases g with
    | false =>
      have hm : S.store.terminal e = false := hm
      rw [hm] at ht; cases ht
    | true =>
      cases hs with
      | commit hi =>
        have hlive : S.store.terminal e = false := (hS.outline i _ hi).2
        rw [hlive] at ht; cases ht
  | _ =>
    rw [hs.store_eq (by simp)]
    exact ⟨ht, rfl, rfl⟩

/-- The evening before the entry, the cutover cancels the reservation. -/
def sampleCutover : CutoverInput := ⟨"c1", 29, 3, true, dayStart 29 + 82000⟩

/-- After the cancellation, one more gated tick starts. -/
theorem terminal_never_filled_sample :
    let r := runAll (Job.prog (.weekdays 60) {}) [(.tick (sampleTick true (dayStart 29 + 80000)), []),
      (.cutover sampleCutover, [])] (Store.init 100000)
    let S : Sys Bool Call Store := Sys.idle r.2
    r.2.terminal sampleEpisode = true ∧
      KeepsTerminal S.store (S.start false (tick (.weekdays 60) {} (sampleTick true (dayStart 30 + 60000)))).store := by
  intro r S
  have hnofill : (r.1.all fun g => g.events.all fun e => !e.lbl.isFill) = true := by decide +kernel
  have hreach : Reach (fun _ p => ∃ j : Job, p = j.prog (.weekdays 60) {}) Undisputed (Sys.idle (Store.init 100000)) S := by
    refine (runAll_sound _ _ _).reach false (fun j _ => ⟨j, rfl⟩) (fun g hg e he T _ hothers => ⟨?_, trivial⟩)
      fun _ => ⟨trivial, trivial⟩
    have hlbl := List.all_eq_true.1 (List.all_eq_true.1 hnofill g hg) e he
    cases hl : e.lbl with
    | fill ep g => simp [hl, Call.isFill] at hlbl
    | markEntryIntent ep st =>
      intro j hj p hp
      rw [hothers j hj] at hp
      cases hp
    | _ => trivial
  refine ⟨by decide +kernel, ?_⟩
  exact terminal_never_filled (.weekdays 60) {} 100000 hreach (.start rfl ⟨.tick _, rfl⟩) trivial

/-- The programs of a campaign whose ticks all run with this gate. -/
def GatedJob (gate : Bool) (p : Prog Call Store Unit) : Prop :=
  ∃ j : Job, (∀ i, j = .tick i → i.gate = gate) ∧ p = j.prog (.weekdays 60) {}

theorem gatedJob_tick (gate : Bool) (t : Instant) : GatedJob gate (tick (.weekdays 60) {} (sampleTick gate t)) :=
  ⟨.tick (sampleTick gate t), (fun _ hi => by cases hi; rfl), rfl⟩

theorem gatedJob_cutover (gate : Bool) : GatedJob gate (classifyAndCancelPendingAtCutover (.weekdays 60) sampleCutover) :=
  ⟨.cutover sampleCutover, (fun _ hi => by cases hi), rfl⟩

/-- The claim that is broken, for two processes and one gate. -/
def NeverFills (gate : Bool) : Prop :=
  ∀ S : Sys Bool Call Store, Reach (fun _ => GatedJob gate) (fun _ _ => True) (Sys.idle (Store.init 100000)) S →
    ∀ m S', Step (fun _ => GatedJob gate) S m S' → KeepsTerminal S.store S'.store

/-- One commit that enters an episode whose intent is terminal. -/
theorem not_neverFills {gate i : Bool} {S : Sys Bool Call Store}
    (h : Reach (fun _ => GatedJob gate) (fun _ _ => True) (Sys.idle (Store.init 100000)) S) (e : EpisodeId)
    (ht : S.store.terminal e = true)
    (hp : (S.store.positionForEpisode e).isSome = false ∧ ((S.commit i).store.positionForEpisode e).isSome = true) :
    ¬ NeverFills gate := by
  intro hclaim
  have hkeeps : KeepsTerminal S.store (S.commit i).store :=
    commit_of_steps (P := fun T => KeepsTerminal S.store T.store) i (fun e h => ⟨h, rfl, rfl⟩) (hclaim S h)
  have hsame := (hkeeps e ht).2.1
  rw [hp.1, hp.2] at hsame
  cases hsame

/-- With the gate off, the next tick fills the cancelled intent. With the gate on, a cancellation between the read and the
fill has the same effect. -/
theorem terminal_filled : ¬ NeverFills false ∧ ¬ NeverFills true := by
  -- the reservation of day 29, made by a tick that runs alone
  have hreserve : ∀ gate, Reach (fun _ : Bool => GatedJob gate) (fun _ _ => True) (Sys.idle (Store.init 100000))
      (Sys.idle (runAll (tick (.weekdays 60) {}) [(sampleTick gate (dayStart 29 + 80000), [])]
        (Store.init 100000)).2) := by
    intro gate
    refine (runAll_sound _ _ _).reach false (fun k ⟨g, hg, hk⟩ => ?_) (fun _ _ _ _ _ _ _ => ⟨trivial, trivial⟩)
      fun _ => ⟨trivial, trivial⟩
    have hin := mem_runAll_input hg
    rw [hk] at hin
    simp only [List.map_cons, List.map_nil, List.mem_singleton] at hin
    exact hin ▸ gatedJob_tick gate _
  constructor
  · -- cancelled, then read and filled by an ungated tick
    have h := ((((hreserve false).start rfl (gatedJob_cutover false) (i := true)).commit true).commit true).commit true
    have h := (h.start (by simp [Sys.idle]) (gatedJob_tick false (dayStart 30 + 60000)) (i := false)).commit false
    exact not_neverFills h (i := false) sampleEpisode (by decide +kernel) (by decide +kernel)
  · -- read, then cancelled, then filled by a gated tick
    have h := ((hreserve true).start rfl (gatedJob_tick true (dayStart 30 + 60000)) (i := false)).commit false
    have h := (((h.start (by simp [Sys.idle]) (gatedJob_cutover true) (i := true)).commit true).commit true).commit true
    exact not_neverFills h (i := false) sampleEpisode (by decide +kernel) (by decide +kernel)

end TalonX.V2
