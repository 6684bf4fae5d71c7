import TalonX.V2.Calls

/-!
# Reservations

With the gate on, every `PENDING` intent reserves one allocation of cash and one slot. `Reserved` says that the ledger can
honour all of them at once; every call of a tick and of a cutover keeps it, so it holds at every commit of every run
(`reservations_sound`). An entry for a reserved episode is then never refused for cash or slots (`Reserved.fillable`).
-/

set_option autoImplicit false

namespace TalonX.V2

open Transact

/-- The reservations: `#PENDING`. -/
def Store.nPending (s : Store) : ℕ := s.intents.rows.countP (·.status = .pending)

theorem length_pendingEntryIntents (s : Store) : s.pendingEntryIntents.length = s.nPending := by
  rw [Store.pendingEntryIntents, orderByDateText, List.length_insertionSort, ← List.countP_eq_length_filter]
  rfl

structure Reserved (cfg : V2Config) (s : Store) : Prop where
  cash_nonneg : 0 ≤ s.cash
  cash : cfg.perPositionAllocationUsd * s.nPending ≤ s.cash
  slots : s.nOpen + s.nPending ≤ cfg.maxConcurrentPositions
  amounts : ∀ e ∈ s.entitlements.rows, 0 ≤ e.amountUsd

/-- No entry for an episode with a `PENDING` intent is refused for lack of a slot or of allocation cash. -/
def Fillable (cfg : V2Config) (s : Store) : Prop :=
  ∀ it ∈ s.intents.rows, it.status = .pending → ∀ feeFn sym price es r,
    entryCheck cfg feeFn s it.episodeId sym price es = .error (.skip r) →
      (∀ n, r ≠ .maxConcurrent n) ∧ r ≠ .noCash .insufficientAvailableCash

variable {cal : Calendar} {cfg : V2Config} {of : TickInput → Prop} {l : Call} {s s' : Store}

/-- Fewer reservations need no more cash; without an allocation there is nothing to reserve. -/
theorem reserved_cash_mono {a c : ℚ} {m n : ℕ} (hc : 0 ≤ c) (h : a * n ≤ c) (hmn : m ≤ n) : a * m ≤ c := by
  rcases le_or_gt 0 a with ha | ha
  · have : (m : ℚ) ≤ n := by exact_mod_cast hmn
    exact (mul_le_mul_of_nonneg_left this ha).trans h
  · exact (mul_nonpos_of_nonpos_of_nonneg ha.le (Nat.cast_nonneg m)).trans hc

theorem Reserved.of_tables (h : Reserved cfg s) (hc : s.cash ≤ s'.cash) (ho : s'.nOpen ≤ s.nOpen)
    (hp : s'.nPending ≤ s.nPending) (he : ∀ e ∈ s'.entitlements.rows, 0 ≤ e.amountUsd) : Reserved cfg s' where
  cash_nonneg := h.cash_nonneg.trans hc
  cash := (reserved_cash_mono h.cash_nonneg h.cash hp).trans hc
  slots := by have := h.slots; omega
  amounts := he

theorem Reserved.init (cfg : V2Config) {start : ℚ} (h : 0 ≤ start) : Reserved cfg (Store.init start) where
  cash_nonneg := h
  cash := by simpa [Store.init, Store.nPending] using h
  slots := Nat.zero_le _
  amounts := by simp [Store.init]

/-! ## Exits and dividends -/

theorem UpkeepCall.reserved (hc : UpkeepCall l s s') (h : Reserved cfg s) : Reserved cfg s' := by
  cases hc with
  | accrue ha =>
    rcases Store.recordDividendEntitlement_cases ha with
      rfl | ⟨row, ents, p, -, -, -, -, -, -, -, -, -, hamt, -, hrows, rfl⟩
    · exact h
    refine h.of_tables (le_refl _) (le_refl _) (le_refl _) fun e he => ?_
    rw [hrows] at he
    rcases List.mem_append.1 he with he | he
    · exact h.amounts e he
    · exact List.mem_singleton.1 he ▸ hamt
  | credit hcr =>
    rcases Store.creditDividend_cases hcr with ⟨-, rfl⟩ | ⟨-, e, he, pay, ents, -, -, -, -, hrows, rfl⟩
    · exact h
    refine h.of_tables ?_ (le_refl _) (le_refl _) fun q hq => ?_
    · have := h.amounts e he
      dsimp only
      linarith
    · rw [hrows, mem_updateRows] at hq
      obtain ⟨r, hr, rfl⟩ := hq
      split <;> exact h.amounts r hr
  | note eid n s =>
    refine h.of_tables (le_refl _) (le_refl _) (le_refl _) fun q hq => ?_
    obtain ⟨r, hr, rfl⟩ := mem_updateRows.1 hq
    split <;> exact h.amounts r hr
  | _ => exact h.of_tables (le_refl _) (le_refl _) (le_refl _) h.amounts

theorem ExitCall.reserved (hc : ExitCall cal cfg l s s') (h : Reserved cfg s) : Reserved cfg s' := by
  cases hc with
  | unresolved hm =>
    obtain ⟨ps, bs, hrows, rfl⟩ := Store.markExitUnresolved_cases hm
    refine h.of_tables (le_refl _) ?_ (le_refl _) h.amounts
    unfold Store.nOpen
    rw [hrows]
    exact countP_updateRows_le (fun p hs _ => Store.occupied_of_openAt hs) _
  | @close pos price es prov divs o _ _ hx =>
    rcases closePosition_cases hx with ⟨-, rfl⟩ | ⟨row, hs⟩
    · exact h
    obtain ⟨x, -, -, hrows⟩ := hs.positions
    obtain ⟨new, hents, hnew⟩ := hs.entitlements
    refine h.of_tables ?_ ?_ (by rw [hs.frame]; exact le_refl _) fun e he => ?_
    · have hnet : 0 ≤ (computeExitEconomics (s.effectiveSharesExact pos.positionId) price.1 row.positionCost
          zeroFee).exitNet := by
        refine exitNet_nonneg ?_
        rw [zeroFee_fee]
        exact mul_nonneg (s.effectiveSharesExact_nonneg _) price.2.le
      rw [hs.cash]
      linarith
    · unfold Store.nOpen
      rw [hrows]
      exact countP_updateRows_le (fun p hs _ => Store.occupied_of_openAt hs) _
    · rw [hents] at he
      rcases List.mem_append.1 he with he | he
      · exact h.amounts e he
      · exact (hnew e he).amount_nonneg
  | upkeep hu => exact hu.reserved h
  | alert x s => exact h.of_tables (le_refl _) (le_refl _) (le_refl _) h.amounts

/-! ## Dispositions and intents -/

theorem nPending_markEntryIntent_le (s : Store) (iid : IntentId) (st : IntentStatus) (fill : Option (ℕ × ℚ × Date)) :
    (s.markEntryIntent iid st fill).nPending ≤ s.nPending :=
  countP_updateRows_le (fun it hsel _ => by simp only [Bool.and_eq_true] at hsel; exact hsel.2) _

/-- Marking a `PENDING` intent releases its reservation. -/
theorem nPending_markEntryIntent {it : EntryIntent} (hm : it ∈ s.intents.rows) (hp : it.status = .pending)
    {st : IntentStatus} (hst : st ≠ .pending) (fill : Option (ℕ × ℚ × Date)) :
    (s.markEntryIntent it.intentId st fill).nPending + 1 = s.nPending := by
  have hcount := countP_updateRows (p := fun i : EntryIntent => i.intentId = it.intentId && i.status = .pending)
    (f := Store.marked st fill) (c := fun i => i.status = .pending) s.intents.nodup hm (by simp [hp]) fun q hq h => by
      simp only [Bool.and_eq_true, decide_eq_true_eq] at h
      exact s.intents.eq_of_key hq hm (congrArg Prod.fst h.1)
  simp only [hp, decide_true, if_true, Store.marked, hst, decide_false, Bool.false_eq_true, if_false] at hcount
  unfold Store.nPending
  rw [Store.rows_markEntryIntent]
  omega

theorem nPending_upsertEntryIntent_le (s : Store) (it : EntryIntent) :
    (s.upsertEntryIntent it).nPending ≤ s.nPending + 1 := by
  unfold Store.nPending Store.upsertEntryIntent
  rw [Table.rows_insertOrIgnore]
  split
  · rw [List.countP_append, List.countP_singleton]
    split <;> omega
  · omega

/-- The gate admits an intent only when the ledger can honour one more reservation. -/
theorem reserved_of_not_capacityRejected (h : Reserved cfg s) (hc : capacityRejected cfg s = false)
    (hcash : s'.cash = s.cash) (hopen : s'.nOpen = s.nOpen) (hp : s'.nPending ≤ s.nPending + 1)
    (he : s'.entitlements = s.entitlements) : Reserved cfg s' := by
  unfold capacityRejected at hc
  simp only [length_pendingEntryIntents, Bool.or_eq_false_iff, decide_eq_false_iff_not, not_lt, not_le] at hc
  obtain ⟨hroom, hslot⟩ := hc
  have hone : cfg.perPositionAllocationUsd * (s.nPending + 1 : ℕ) ≤ s.cash := by
    push_cast
    linarith
  refine ⟨hcash ▸ h.cash_nonneg, ?_, ?_, he ▸ h.amounts⟩
  · rw [hcash]
    exact reserved_cash_mono h.cash_nonneg hone hp
  · omega

theorem IntentCall.reserved (hc : IntentCall cal cfg of l s s') (hgate : ∀ i, of i → i.gate = true)
    (h : Reserved cfg s) : Reserved cfg s' := by
  cases hc with
  | mark it st s _ _ => exact h.of_tables (le_refl _) (le_refl _) (nPending_markEntryIntent_le s _ _ _) h.amounts
  | reserve i ep s hi =>
    unfold admitTxn
    split
    · exact h.of_tables (le_refl _) (le_refl _) (le_refl _) h.amounts
    split
    · exact h.of_tables (le_refl _) (le_refl _) (le_refl _) h.amounts
    · rename_i hcap
      rw [hgate i hi, Bool.true_and, Bool.not_eq_true] at hcap
      exact reserved_of_not_capacityRejected h hcap rfl rfl (nPending_upsertEntryIntent_le s _) rfl
  | _ => exact h.of_tables (le_refl _) (le_refl _) (le_refl _) h.amounts

/-! ## Fills -/

/-- The fill of a `PENDING` intent turns its reservation into a position. -/
theorem Filled.reserved {ep : ClusterEpisode} {it : EntryIntent} {row : Position}
    (hf : Filled cal cfg ep (some it) s row s') (hm : it ∈ s.intents.rows) (hp : it.status = .pending)
    (h : Reserved cfg s) : Reserved cfg s' := by
  obtain ⟨s₁, px, he, rfl⟩ := hf.entered
  have hintents : s₁.intents = s.intents := by rw [he.frame]
  have hpend : (s₁.markEntryIntent it.intentId .filled (some (row.positionId, px, ep.eligibleEntrySession))).nPending
      + 1 = s.nPending := by
    have hsame : s₁.nPending = s.nPending := by
      unfold Store.nPending
      rw [hintents]
    rw [← hsame]
    exact nPending_markEntryIntent (hintents ▸ hm) hp (by simp) _
  have hopen : s₁.nOpen = s.nOpen + 1 := by
    unfold Store.nOpen
    rw [he.positions, List.countP_append, List.countP_singleton, if_pos (by simp [Position.occupied, he.status])]
  have hslots := h.slots
  have hcash := h.cash
  have hpos := he.cost_pos
  have hle := he.cost_le_allocation
  rw [markFilled, if_pos hp]
  -- what is left of the cash covers the other reservations, since the cost is at most one allocation
  have hleft : cfg.perPositionAllocationUsd *
      (s₁.markEntryIntent it.intentId .filled (some (row.positionId, px, ep.eligibleEntrySession))).nPending ≤
        s.cash - row.positionCost := by
    rw [← hpend] at hcash
    push_cast at hcash
    linarith
  refine ⟨?_, ?_, ?_, ?_⟩
  · show 0 ≤ s₁.cash
    rw [he.cash]
    exact (mul_nonneg (hpos.le.trans hle) (Nat.cast_nonneg _)).trans hleft
  · show _ ≤ s₁.cash
    rw [he.cash]
    exact hleft
  · show s₁.nOpen + _ ≤ _
    rw [hopen]
    change _ + (s₁.markEntryIntent it.intentId .filled _).nPending ≤ _
    omega
  · show ∀ e ∈ s₁.entitlements.rows, 0 ≤ e.amountUsd
    rw [he.frame]
    exact h.amounts

/-! ## Admission against the reservations -/

/-- The reservations of the other episodes. -/
theorem others_lt_nPending {it : EntryIntent} (hm : it ∈ s.intents.rows) (hp : it.status = .pending) :
    (s.pendingEntryIntents.filter fun i => i.episodeId ≠ it.episodeId).length < s.nPending := by
  rw [← length_pendingEntryIntents]
  refine List.length_filter_lt_length_iff_exists.2 ⟨it, ?_, by simp⟩
  rw [Store.pendingEntryIntents, mem_orderByDateText]
  exact List.mem_filter.2 ⟨hm, by simp [hp]⟩

theorem Reserved.fillable (h : Reserved cfg s) : Fillable cfg s := by
  intro it hm hp feeFn sym price es r hr
  have hothers := others_lt_nPending hm hp
  have hslots := h.slots
  have havail : cfg.perPositionAllocationUsd ≤ availableCash cfg s it.episodeId := by
    have := reserved_cash_mono h.cash_nonneg h.cash (Nat.succ_le_of_lt hothers)
    push_cast at this
    unfold availableCash
    linarith
  unfold entryCheck at hr
  split at hr
  · cases hr; simp
  split at hr
  · cases hr
  split at hr
  · cases hr
  split at hr
  · cases hr; simp
  split at hr
  · cases hr; simp
  split at hr
  · omega
  split at hr
  · cases hr; simp
  split at hr
  · cases hr; simp
  dsimp only at hr
  split at hr
  · simp only [Except.error.injEq, EntryReason.skip.injEq] at hr
    subst hr
    refine ⟨by simp, fun hc => ?_⟩
    simp only [SkipReason.noCash.injEq] at hc
    exact absurd (sizeWholeSharesFeeInclusive_insufficient hc) (not_lt.2 havail)
  · cases hr

/-! ## The tick -/

/-- Every commit, and every crash, leaves the reservations sound. -/
def reservation (cfg : V2Config) : Contract Call Store where
  commit _ _ s' := Reserved cfg s'
  mayFault _ _ := True
  atCrash := Reserved cfg

theorem reserved_of_intentCalls {α : Type} {p : Prog Call Store α} (cal : Calendar) {i : TickInput} (hgate : i.gate = true)
    (hp : Calls (IntentCall cal cfg (· = i)) p) (h : Reserved cfg s) :
    wp (reservation cfg) p (fun _ => Reserved cfg) (Reserved cfg) s := by
  have hof : ∀ j, j = i → j.gate = true := fun j hj => hj ▸ hgate
  exact wp_of_keeps (keeps_mono hp (fun _ _ => trivial) fun _ _ _ hI hc => ⟨hc.reserved hof hI, hc.reserved hof hI⟩)
    (fun _ _ _ _ h => h) (fun _ _ h _ => h) h

theorem reserved_attemptFill {i : TickInput} (hgate : i.gate = true) (ripe : Date) (ep : ClusterEpisode) {it : EntryIntent}
    (hm : it ∈ s.intents.rows) (hp : it.status = .pending) (h : Reserved cfg s) :
    wp (reservation cfg) (attemptFill cal cfg i ripe ep (some it)) (fun _ => Reserved cfg) (Reserved cfg) s := by
  have hfill : wp (reservation cfg) (Prog.txn (.fill ep.episodeId i.gate) (fillTxn cal cfg i ep (some it)))
      (fun _ => Reserved cfg) (Reserved cfg) s := by
    refine wp_txn (fun r s' hr => ?_) (fun _ => ⟨h, h⟩) fun _ => ⟨h, h⟩
    have hs' : Reserved cfg s' := by
      rcases fillTxn_cases hr with ⟨rfl, -⟩ | ⟨-, why, rfl, -⟩ | ⟨row, px, n, hf, -⟩
      · exact h
      · exact h.of_tables (le_refl _) (le_refl _) (le_refl _) h.amounts
      · exact hf.reserved hm hp h
    exact ⟨hs', hs'⟩
  refine wp_bind (wp_mono (fun r t ht => ?_) (fun _ ht => ht)
    (wp_tryCatch (Q := fun _ => Reserved cfg) (R := Reserved cfg) (wp_bind hfill)))
  split
  · refine wp_bind (wp_ofOption (fun d _ => ?_) fun _ => ht)
    split
    · exact ht
    · exact reserved_of_intentCalls cal hgate (calls_failNoMarketData ep _) ht
  · exact ht

theorem reserved_attemptEpisode {i : TickInput} (hgate : i.gate = true) (ripe : Date) (ep : ClusterEpisode)
    (h : Reserved cfg s) :
    wp (reservation cfg) (attemptEpisode cal cfg i ripe ep) (fun _ => Reserved cfg) (Reserved cfg) s := by
  refine wp_bind (wp_read h ?_ fun _ => ⟨h, h⟩)
  split
  · split
    · exact reserved_of_intentCalls cal hgate (calls_recordUnseen _ (by simp)) h
    · exact h
  rename_i hpend
  -- the gate let the episode through: the intent that was read is `PENDING`, and nothing happened since
  simp only [gateRefuses, hgate, Bool.true_and, Bool.not_eq_true, Bool.not_eq_false', Option.any_eq_true,
    decide_eq_true_eq] at hpend
  obtain ⟨it, hit, hp⟩ := hpend
  have hm : it ∈ s.intents.rows := Table.mem_of_get hit
  rw [hit]
  unfold attemptAdmitted
  split
  · exact reserved_of_intentCalls cal hgate (calls_rejectBoundary ep _) h
  · refine wp_bind (wp_ofOption (fun passed _ => ?_) fun _ => h)
    split
    · exact reserved_of_intentCalls cal hgate (calls_expireRecovery ep _) h
    · exact reserved_attemptFill hgate ripe ep hm hp h

theorem reserved_job (j : Job) (hgate : ∀ i, j = .tick i → i.gate = true) (h : Reserved cfg s) :
    wp (reservation cfg) (j.prog cal cfg) (fun _ => Reserved cfg) (Reserved cfg) s := by
  cases j with
  | cutover c =>
    have hcalls : Calls (IntentCall cal cfg fun _ => False) (classifyAndCancelPendingAtCutover cal c) := calls_cutover c
    exact wp_of_keeps (keeps_mono hcalls (fun _ _ => trivial) fun _ _ _ hI hc =>
      ⟨hc.reserved (by simp) hI, hc.reserved (by simp) hI⟩) (fun _ _ _ _ h => h) (fun _ _ h _ => h) h
  | tick i =>
    have hgate := hgate i rfl
    refine wp_tick h fun ripe all cut _ _ _ => wp_tickPhases_of_exitCalls (I := Reserved cfg) ?_
      (fun l t t' ht hc => ⟨hc.reserved ht, hc.reserved ht⟩) (fun _ h => h) (fun _ h => h)
      fun t ht => reserved_of_intentCalls cal hgate (calls_phasePostClose i ripe _ all) ht
    exact wp_forEach (fun _ => Reserved cfg) (fun ep _ t ht => reserved_attemptEpisode hgate ripe ep ht) _ h

/-- In every run of one service with the gate on, cutovers between its ticks included, whatever call raises and wherever
the process crashes: at every commit the cash and the slots cover all `PENDING` intents, and no entry for one of them would
be refused for lack of either. -/
theorem reservations_sound (cal : Calendar) (cfg : V2Config) (start : ℚ) (h0 : 0 ≤ start)
    {segs : List (Seg Job Call Store)} {s : Store} (h : Run (Job.prog cal cfg) (Store.init start) segs s)
    (hgate : ∀ g ∈ segs, ∀ i, g.input = .tick i → i.gate = true) :
    ∀ g ∈ segs, ∀ e ∈ g.events, e.fault = .none →
      cfg.perPositionAllocationUsd * e.post.nPending ≤ e.post.cash ∧
        e.post.nOpen + e.post.nPending ≤ cfg.maxConcurrentPositions ∧ Fillable cfg e.post := by
  have hrun := Run.invariant (fun _ => reservation cfg) (Reserved cfg) (fun j _ => ∀ i, j = .tick i → i.gate = true)
    (Reserved.init cfg h0) (fun _ _ h => h) (fun j t ht hj => reserved_job j hj ht) h
    fun g hg => ⟨hgate g hg, fun e _ => ⟨fun _ => trivial, fun _ => trivial⟩⟩
  intro g hg e he hf
  have hres : Reserved cfg e.post := (hrun.2 g hg).2.2 e he hf
  exact ⟨hres.cash, hres.slots, hres.fillable⟩

/-- The reservation of one tick is filled by the next. -/
theorem reservations_sound_sample :
    let r := runAll (Job.prog (.weekdays 60) {}) [(.tick (sampleTick true (dayStart 29 + 80000)), []),
      (.tick (sampleTick true (dayStart 30 + 60000)), [])] (Store.init 100000)
    r.2.nOpen = 1 ∧ ∀ g ∈ r.1, ∀ e ∈ g.events, e.fault = .none →
      10000 * (e.post.nPending : ℚ) ≤ e.post.cash ∧ e.post.nOpen + e.post.nPending ≤ 20 ∧ Fillable {} e.post := by
  intro r
  refine ⟨by decide +kernel, reservations_sound (.weekdays 60) {} 100000 (by norm_num) (runAll_sound _ _ _) ?_⟩
  intro g hg i hi
  have hin := mem_runAll_input hg
  rw [hi] at hin
  simp only [List.map_cons, List.map_nil, List.mem_cons, Job.tick.injEq, List.not_mem_nil, or_false] at hin
  rcases hin with rfl | rfl <;> rfl

end TalonX.V2
