import TalonX.Transact.Interleave
import TalonX.V2.Cutover

/-!
# What each call of a program can do

The programs are traversed once. `ExitCall` lists what the calls of the sweep, the exits and the dividends can do to the
ledger (`TrailCall`, `SettleCall` and `AccrualCall` what those without a credit can do), `IntentCall` and `EntryCall`
what the calls of the entries, of the intents and of a cutover can do. Every invariant that needs no more than this is
proved by cases on these.

- `calls_phaseOpen`, `calls_phaseClose`, …, `calls_tick`, `calls_cutover`: the traversals;
- `Job.calls`: every call of a tick or of a cutover is a `LedgerCall`.
-/

set_option autoImplicit false

namespace TalonX.V2

open Transact

def Call.isFill : Call → Bool
  | .fill _ _ => true
  | _ => false

/-- The calls that may be without an effect in any program: not the fill of an entry, nor an operator's clearance. -/
def Call.mayIdle : Call → Bool
  | .fill _ _ => false
  | .clearBlock _ => false
  | _ => true

theorem Call.isFill_of_mayIdle {l : Call} (h : l.mayIdle = true) : l.isFill = false := by
  cases l with
  | fill e g => cases h
  | _ => rfl

/-- One call of the sweep or of an assessment. -/
inductive TrailCall : Call → Store → Store → Prop
  | idle (l : Call) (s : Store) : l.mayIdle = true → TrailCall l s s
  | trail (pid : ℕ) (s : Store) (t : Table TrailRow.key) : TrailCall (.trail pid) s { s with trail := t }

/-- One call of the late-dividend catch-up. -/
inductive AccrualCall : Call → Store → Store → Prop
  | idle (l : Call) (s : Store) : l.mayIdle = true → AccrualCall l s s
  | accrue {pid ev es b s s'} : s.recordDividendEntitlement pid ev es = some (b, s') →
      AccrualCall (.recordDividendEntitlement pid) s s'

/-- One call of the sweep, of an assessment, or of the dividend phase. -/
inductive UpkeepCall : Call → Store → Store → Prop
  | idle (l : Call) (s : Store) : l.mayIdle = true → UpkeepCall l s s
  | trail (pid : ℕ) (s : Store) (t : Table TrailRow.key) : UpkeepCall (.trail pid) s { s with trail := t }
  | accrue {pid ev es b s s'} : s.recordDividendEntitlement pid ev es = some (b, s') →
      UpkeepCall (.recordDividendEntitlement pid) s s'
  | note (eid : ℕ) (n : DividendNote) (s : Store) :
      UpkeepCall (.noteDividendCheck eid) s (s.noteDividendCheck eid n)
  | credit {eid asOf b s s'} : s.creditDividend eid asOf = (b, s') → UpkeepCall (.creditDividend eid) s s'

/-- One call of a settlement, or of the close phase with its alerts. -/
inductive SettleCall (cal : Calendar) (cfg : V2Config) : Call → Store → Store → Prop
  | trail {l s s'} : TrailCall l s s' → SettleCall cal cfg l s s'
  | unresolved {pid why s s'} : s.markExitUnresolved cfg.campaignId pid = some s' →
      SettleCall cal cfg (.markExitUnresolved pid why) s s'
  | close {pos : Position} {price : PosRat} {es prov divs o s s'} :
      closePosition cal cfg zeroFee s pos price.1 es prov divs = some (o, s') →
      SettleCall cal cfg (.closePosition pos.positionId) s s'
  | alert (x : ExitRecord) (s : Store) :
      SettleCall cal cfg (.enqueueAlert x.episodeId .exitFill) s (s.enqueueAlert (exitAlert x))

/-- One call between the entries and the intents. -/
inductive ExitCall (cal : Calendar) (cfg : V2Config) : Call → Store → Store → Prop
  | upkeep {l s s'} : UpkeepCall l s s' → ExitCall cal cfg l s s'
  | unresolved {pid why s s'} : s.markExitUnresolved cfg.campaignId pid = some s' →
      ExitCall cal cfg (.markExitUnresolved pid why) s s'
  | close {pos : Position} {price : PosRat} {es prov divs o s s'} :
      closePosition cal cfg zeroFee s pos price.1 es prov divs = some (o, s') →
      ExitCall cal cfg (.closePosition pos.positionId) s s'
  | alert (x : ExitRecord) (s : Store) :
      ExitCall cal cfg (.enqueueAlert x.episodeId .exitFill) s (s.enqueueAlert (exitAlert x))

/-- One call on dispositions and intents: by a tick `i` with `of i`, or by a cutover. -/
inductive IntentCall (cal : Calendar) (cfg : V2Config) (of : TickInput → Prop) : Call → Store → Store → Prop
  | idle (l : Call) (s : Store) : l.mayIdle = true → IntentCall cal cfg of l s s
  | disposition (e : EpisodeId) (d : Disposition) (s : Store) :
      d ≠ .entered → IntentCall cal cfg of (.recordDisposition e d) s (s.recordDisposition e d)
  | mark (it : EntryIntent) (st : IntentStatus) (s : Store) : st ≠ .pending → st ≠ .filled →
      IntentCall cal cfg of (.markEntryIntent it.episodeId st) s (s.markEntryIntent it.intentId st none)
  | alert (ep : ClusterEpisode) (k : AlertKind) (it : Option EntryIntent) (s : Store) : k.saysNoPosition = true →
      IntentCall cal cfg of (.enqueueAlert ep.episodeId k) s (s.enqueueAlert (entryAlert ep k it))
  | reserve (i : TickInput) (ep : ClusterEpisode) (s : Store) : of i →
      IntentCall cal cfg of (.reserve ep.episodeId) s (admitTxn cal cfg i ep s)
  | cutover (r : CutoverRecord) (s : Store) : IntentCall cal cfg of .recordCutover s (s.recordCutover r)

/-- One call of the entry phase. -/
inductive EntryCall (cal : Calendar) (cfg : V2Config) (of : TickInput → Prop) : Call → Store → Store → Prop
  | intent {l s s'} : IntentCall cal cfg of l s s' → EntryCall cal cfg of l s s'
  | rollback (i : TickInput) (e : EpisodeId) (s : Store) : EntryCall cal cfg of (.fill e i.gate) s s
  | fill {i ep it r s s'} : fillTxn cal cfg i ep it s = some (r, s') →
      EntryCall cal cfg of (.fill ep.episodeId i.gate) s s'

variable {cal : Calendar} {cfg : V2Config} {of : TickInput → Prop}

/-- Every call of the program is one of the listed ones. -/
abbrev Calls {α : Type} (G : Call → Store → Store → Prop) (p : Prog Call Store α) : Prop :=
  Keeps (fun _ => True) G p

/-! ## Rules -/

section Rules

variable {α : Type} {G : Call → Store → Store → Prop}

theorem calls_txn {l : Call} {f : Store → Option (α × Store)} (hidle : ∀ s, G l s s)
    (h : ∀ s a s', f s = some (a, s') → G l s s') : Calls G (Prog.txn l f) :=
  outline_txn (fun s _ => hidle s) fun s a s' _ _ hf => ⟨trivial, h s a s' hf⟩

theorem calls_read {l : Call} {g : Store → α} (hidle : ∀ s, G l s s) : Calls G (Prog.read l g) :=
  outline_read fun s _ => hidle s

theorem calls_write {l : Call} {g : Store → Store} (h : ∀ s, G l s (g s)) : Calls G (Prog.write l g) :=
  outline_write fun s _ _ => ⟨trivial, h s⟩

theorem calls_ret (a : α) : Calls G (Prog.ret a : Prog Call Store α) := trivial

theorem calls_ofOption (o : Option α) : Calls G (Prog.ofOption o : Prog Call Store α) := outline_ofOption o

end Rules

/-! ## Exit phases -/

theorem applyPositionAction_frame (s : Store) (pid : ℕ) (ev : CorporateActionEvent) (st : TrailStatus) :
    ∃ t, (s.applyPositionAction pid ev st).2 = { s with trail := t } := by
  unfold Store.applyPositionAction
  split
  · exact ⟨s.trail, rfl⟩
  · exact ⟨_, rfl⟩

theorem applyActions_frame (pid : ℕ) (st : TrailStatus) : ∀ (evs : List CorporateActionEvent) (s : Store),
    ∃ t, applyActions pid st s evs = { s with trail := t }
  | [], s => ⟨s.trail, rfl⟩
  | ev :: evs, s => by
    obtain ⟨t, ht⟩ := applyPositionAction_frame s pid ev st
    obtain ⟨t', ht'⟩ := applyActions_frame pid st evs (s.applyPositionAction pid ev st).2
    rw [ht] at ht'
    exact ⟨t', by rw [applyActions, List.foldl_cons, ht]; exact ht'⟩

/-- A cleared assessment writes the trail only. -/
theorem applyAssessed_frame (row : Position) (a : Assessed) (s : Store) :
    ∃ t, applyAssessed row a s = { s with trail := t } := by
  obtain ⟨t1, h1⟩ := applyActions_frame row.positionId .reflectedInEntryBasis a.reflected
    (s.clearBlockedActionRows row.positionId)
  obtain ⟨t2, h2⟩ := applyActions_frame row.positionId .applied a.applicable
    { s.clearBlockedActionRows row.positionId with trail := t1 }
  obtain ⟨t3, h3⟩ := applyActions_frame row.positionId .dividendObserved
    (a.dividends.filter fun e => e.exDate.any (row.entrySession < ·))
    { s.clearBlockedActionRows row.positionId with trail := t2 }
  refine ⟨t3, ?_⟩
  unfold applyAssessed
  dsimp only
  rw [h1, h2, h3]
  rfl

theorem TrailCall.upkeep {l : Call} {s s' : Store} (h : TrailCall l s s') : UpkeepCall l s s' := by
  cases h with
  | idle l s h => exact .idle l s h
  | trail pid s t => exact .trail pid s t

theorem AccrualCall.upkeep {l : Call} {s s' : Store} (h : AccrualCall l s s') : UpkeepCall l s s' := by
  cases h with
  | idle l s h => exact .idle l s h
  | accrue h => exact .accrue h

theorem SettleCall.exit {l : Call} {s s' : Store} (h : SettleCall cal cfg l s s') : ExitCall cal cfg l s s' := by
  cases h with
  | trail h => exact .upkeep h.upkeep
  | unresolved h => exact .unresolved h
  | close h => exact .close h
  | alert x s => exact .alert x s

theorem calls_upkeep {α : Type} {p : Prog Call Store α} (h : Calls UpkeepCall p) : Calls (ExitCall cal cfg) p :=
  keeps_mono h (fun _ h => h) fun _ _ _ _ h => ⟨trivial, .upkeep h⟩

theorem exit_idle {l : Call} {s : Store} (h : l.mayIdle = true) : ExitCall cal cfg l s s := .upkeep (.idle l s h)

theorem trailCalls_persistBlock (pid : ℕ) (b : Blocked) : Calls TrailCall (persistBlock pid b) := by
  unfold persistBlock
  split
  · exact calls_ret _
  · exact keeps_bind (calls_write fun s => .trail pid s _) fun _ => calls_ret _

theorem trailCalls_assessPosition (evidence : Evidence) (pid : ℕ) (asOf : Date) (fill : Option ExitFill) :
    Calls TrailCall (assessPosition evidence pid asOf fill) := by
  refine keeps_bind (calls_read fun s => .idle _ s rfl) fun row? => ?_
  cases row? with
  | none => exact calls_ret _
  | some row =>
    dsimp only
    split
    · exact calls_ret _
    refine keeps_bind (calls_read fun s => .idle _ s rfl) fun res => ?_
    split
    · exact trailCalls_persistBlock _ _
    rename_i a _
    refine keeps_bind (calls_read fun s => .idle _ s rfl) fun trail => ?_
    split
    · exact trailCalls_persistBlock _ _
    · refine keeps_bind (calls_write fun s => ?_) fun _ =>
        keeps_bind (calls_read fun s => .idle _ s rfl) fun _ => calls_ret _
      obtain ⟨t, ht⟩ := applyAssessed_frame row a s
      exact ht ▸ TrailCall.trail row.positionId s t

theorem calls_assessPosition (evidence : Evidence) (pid : ℕ) (asOf : Date) (fill : Option ExitFill) :
    Calls UpkeepCall (assessPosition evidence pid asOf fill) :=
  keeps_mono (trailCalls_assessPosition evidence pid asOf fill) (fun _ h => h) fun _ _ _ _ h => ⟨trivial, h.upkeep⟩

theorem settle_idle {l : Call} {s : Store} (h : l.mayIdle = true) : SettleCall cal cfg l s s := .trail (.idle l s h)

theorem settleCalls_markUnresolved (pid : ℕ) (why : UnresolvedReason) :
    Calls (SettleCall cal cfg) (markUnresolved cfg pid why) := by
  refine calls_txn (fun _ => settle_idle rfl) fun s a s' h => ?_
  obtain ⟨s'', hs, heq⟩ := Option.map_eq_some_iff.1 h
  simp only [Prod.mk.injEq] at heq
  obtain ⟨-, rfl⟩ := heq
  exact .unresolved hs

theorem settleCalls_settleAt (pos : Position) (exitSession : Date) (px : Bar) (dividends : List CorporateActionEvent)
    (exits : List ExitRecord) : Calls (SettleCall cal cfg) (settleAt cal cfg pos exitSession px dividends exits) := by
  refine keeps_bind (calls_txn (fun _ => settle_idle rfl) fun s a s' h => .close h) fun out => ?_
  split
  · exact calls_ret _
  split
  · exact keeps_bind (settleCalls_markUnresolved _ _) fun _ => calls_ret _
  · exact calls_ret _

theorem settleCalls_settlePosition (guard : Option Evidence) (price : PriceLookup) (asOf : Date)
    (exits : List ExitRecord) (pos : Position) :
    Calls (SettleCall cal cfg) (settlePosition cal cfg guard price asOf exits pos) := by
  have giveUp : ∀ (why : UnresolvedReason) (c : Date → Prop) [DecidablePred c], Calls (SettleCall cal cfg)
      (Prog.bind (Prog.ofOption (cal.addSessions pos.targetExitSession cfg.exitFallforwardMaxSessions)) fun lastFf =>
        if c lastFf then Prog.bind (markUnresolved cfg pos.positionId why) fun _ => Prog.ret exits else Prog.ret exits) := by
    intro why c _
    refine keeps_bind (calls_ofOption _) fun lastFf => ?_
    split
    · exact keeps_bind (settleCalls_markUnresolved _ _) fun _ => calls_ret _
    · exact calls_ret _
  refine keeps_bind (calls_read fun _ => settle_idle rfl) fun found => keeps_bind (calls_ofOption _) fun found => ?_
  split
  · exact giveUp .noBar (· ≤ asOf)
  split
  · exact settleCalls_settleAt _ _ _ _ _
  · refine keeps_bind (keeps_mono (trailCalls_assessPosition _ _ _ _) (fun _ h => h) fun _ _ _ _ h =>
      ⟨trivial, .trail h⟩) fun v => ?_
    split
    · exact settleCalls_settleAt _ _ _ _ _
    · exact giveUp .corporateAction fun lastFf => v.status = .block ∨ lastFf ≤ asOf

theorem settleCalls_settleDueExits (guard : Option Evidence) (price : PriceLookup) (asOf : Date) :
    Calls (SettleCall cal cfg) (settleDueExits cal cfg guard price asOf) :=
  keeps_bind (calls_read fun _ => settle_idle rfl) fun due =>
    keeps_foldEach (settleCalls_settlePosition guard price asOf) due []

theorem settleCalls_phaseClose (i : TickInput) (ripe : Date) :
    Calls (SettleCall cal cfg) (phaseClose cal cfg i ripe) :=
  keeps_tryCatch (keeps_bind (settleCalls_settleDueExits _ _ _) fun exits =>
    keeps_forEach (fun x => calls_write fun s => .alert x s) exits) (calls_read fun _ => settle_idle rfl)

theorem calls_phaseClose (i : TickInput) (ripe : Date) : Calls (ExitCall cal cfg) (phaseClose cal cfg i ripe) :=
  keeps_mono (settleCalls_phaseClose i ripe) (fun _ h => h) fun _ _ _ _ h => ⟨trivial, h.exit⟩

theorem trailCalls_phaseCorporateActions (i : TickInput) : Calls TrailCall (phaseCorporateActions i) := by
  unfold phaseCorporateActions
  split
  · exact calls_ret _
  · refine keeps_tryCatch (keeps_bind (calls_read fun s => .idle _ s rfl) fun ps => ?_) (calls_ret _)
    exact keeps_forEach (fun pos => keeps_tryCatch
      (keeps_bind (trailCalls_assessPosition _ _ _ _) fun _ => calls_ret _) (calls_ret _)) ps

theorem calls_phaseCorporateActions (i : TickInput) : Calls UpkeepCall (phaseCorporateActions i) :=
  keeps_mono (trailCalls_phaseCorporateActions i) (fun _ h => h) fun _ _ _ _ h => ⟨trivial, h.upkeep⟩

theorem accrualCalls_catchUpPosition (evidence : Evidence) (asOf : Date) (p : Position) :
    Calls AccrualCall (catchUpPosition cal evidence asOf p) := by
  unfold catchUpPosition
  split
  · split
    · exact calls_ret _
    refine keeps_tryCatch (keeps_bind (calls_read fun s => .idle _ s rfl) fun res => ?_) (calls_ret _)
    exact keeps_forEach (fun d => keeps_bind (calls_txn (fun s => .idle _ s rfl) fun s a s' h => .accrue h)
      fun _ => calls_ret _) _
  · exact calls_ret _

theorem accrualCalls_catchUpRecentClosed (evidence : Evidence) (asOf : Date) :
    Calls AccrualCall (catchUpRecentClosed cal evidence asOf) :=
  keeps_bind (calls_read fun s => .idle _ s rfl) fun ps => keeps_forEach (accrualCalls_catchUpPosition evidence asOf) ps

theorem calls_settleReceivable (evidence : Evidence) (asOf : Date) (e : Entitlement) :
    Calls UpkeepCall (settleReceivable evidence asOf e) := by
  unfold settleReceivable
  split
  · exact calls_ret _
  split
  · exact calls_ret _
  refine keeps_tryCatch (keeps_bind (calls_read fun s => .idle _ s rfl) fun res => ?_) (calls_ret _)
  split
  · exact calls_write fun s => .note _ _ s
  · exact keeps_bind (calls_txn (fun s => .idle _ s rfl) fun s a s' h => .credit (Option.some.inj h)) fun _ => calls_ret _

theorem calls_phaseDividends (i : TickInput) : Calls UpkeepCall (phaseDividends cal i) := by
  unfold phaseDividends
  split
  · exact calls_ret _
  · refine keeps_tryCatch (keeps_bind ?_ fun _ => ?_) (calls_ret _)
    · exact keeps_mono (accrualCalls_catchUpRecentClosed _ _) (fun _ h => h) fun _ _ _ _ h => ⟨trivial, h.upkeep⟩
    · exact keeps_bind (calls_read fun s => .idle _ s rfl) fun es => keeps_forEach (calls_settleReceivable _ _) es

/-- Upkeep changes the trail, the entitlements and the cash only. -/
theorem UpkeepCall.frame {l : Call} {s s' : Store} (h : UpkeepCall l s s') :
    ∃ cash trail ents, s' = { s with cash := cash, trail := trail, entitlements := ents } := by
  cases h with
  | accrue h =>
    rcases Store.recordDividendEntitlement_cases h with
      rfl | ⟨row, ents, p, -, -, -, -, -, -, -, -, -, -, -, -, rfl⟩
    · exact ⟨_, _, _, rfl⟩
    · exact ⟨s.cash, s.trail, ents, rfl⟩
  | credit h =>
    rcases Store.creditDividend_cases h with ⟨-, rfl⟩ | ⟨-, e, he, pay, ents, -, -, -, -, -, rfl⟩
    · exact ⟨_, _, _, rfl⟩
    · exact ⟨_, s.trail, ents, rfl⟩
  | _ => exact ⟨_, _, _, rfl⟩

theorem ExitCall.not_isFill {l : Call} {s s' : Store} (h : ExitCall cal cfg l s s') : l.isFill = false := by
  cases h with
  | upkeep h =>
    cases h with
    | idle l s h => exact Call.isFill_of_mayIdle h
    | _ => rfl
  | _ => rfl

/-- The exit phases leave dispositions, intents and the set of entered episodes alone, and enqueue exit alerts only. -/
structure ExitFrame (s s' : Store) : Prop where
  dispositions : s'.processedEpisodes = s.processedEpisodes
  intents : s'.intents = s.intents
  entered : ∀ e, (s'.positionForEpisode e).isSome = (s.positionForEpisode e).isSome
  alerts : ∀ a ∈ s'.outbox.rows, a ∈ s.outbox.rows ∨ a.eventId.2.1 = .exitFill

theorem ExitFrame.of_positions {s s' : Store} {sel : Position → Bool} {f : Position → Position}
    (hd : s'.processedEpisodes = s.processedEpisodes) (hi : s'.intents = s.intents) (ho : s'.outbox = s.outbox)
    (hp : s'.positions.rows = updateRows sel f s.positions.rows) (hf : ∀ p, (f p).episodeId = p.episodeId) :
    ExitFrame s s' where
  dispositions := hd
  intents := hi
  entered e := by
    unfold Store.positionForEpisode
    rw [Table.get_updateRows hp hf]
    exact Option.isSome_map
  alerts a ha := Or.inl (ho ▸ ha)

theorem ExitFrame.of_eq {s s' : Store} (hd : s'.processedEpisodes = s.processedEpisodes) (hi : s'.intents = s.intents)
    (hp : s'.positions = s.positions) (ho : s'.outbox = s.outbox) : ExitFrame s s' where
  dispositions := hd
  intents := hi
  entered e := by rw [Store.positionForEpisode, hp]; rfl
  alerts a ha := Or.inl (ho ▸ ha)

theorem ExitCall.frame {l : Call} {s s' : Store} (h : ExitCall cal cfg l s s') : ExitFrame s s' := by
  cases h with
  | unresolved h =>
    obtain ⟨ps, bs, hrows, rfl⟩ := Store.markExitUnresolved_cases h
    exact .of_positions rfl rfl rfl hrows fun _ => rfl
  | close h =>
    rcases closePosition_cases h with ⟨-, rfl⟩ | ⟨row, hs⟩
    · exact .of_eq rfl rfl rfl rfl
    · obtain ⟨x, -, -, hrows⟩ := hs.positions
      exact .of_positions (by rw [hs.frame]) (by rw [hs.frame]) (by rw [hs.frame]) hrows fun _ => rfl
  | upkeep h =>
    obtain ⟨cash, trail, ents, rfl⟩ := h.frame
    exact .of_eq rfl rfl rfl rfl
  | alert x s =>
    refine ⟨rfl, rfl, fun _ => rfl, fun a ha => ?_⟩
    rcases Table.mem_insertOrIgnore ha with ha | rfl
    · exact Or.inl ha
    · exact Or.inr rfl

/-- The same position, whatever became of it. -/
def Position.Same (p q : Position) : Prop := p = { q with status := p.status, exit := p.exit }

/-- Every position was there before, but for its status and its exit. -/
def KeepsRows (s s' : Store) : Prop := ∀ p ∈ s'.positions.rows, ∃ q ∈ s.positions.rows, p.Same q

theorem KeepsRows.of_eq {s s' : Store} (h : s'.positions = s.positions) : KeepsRows s s' :=
  fun p hp => ⟨p, h ▸ hp, rfl⟩

theorem KeepsRows.of_update {s s' : Store} {sel : Position → Bool} {f : Position → Position}
    (hrows : s'.positions.rows = updateRows sel f s.positions.rows) (hf : ∀ q, (f q).Same q) : KeepsRows s s' := by
  intro p hp
  rw [hrows] at hp
  obtain ⟨q, hq, rfl⟩ := mem_updateRows.1 hp
  split
  · exact ⟨q, hq, hf q⟩
  · exact ⟨q, hq, rfl⟩

theorem ExitCall.keepsRows {l : Call} {s s' : Store} (h : ExitCall cal cfg l s s') : KeepsRows s s' := by
  cases h with
  | upkeep h =>
    obtain ⟨cash, trail, ents, rfl⟩ := h.frame
    exact .of_eq rfl
  | unresolved h =>
    obtain ⟨ps, bs, hrows, rfl⟩ := Store.markExitUnresolved_cases h
    exact .of_update hrows fun _ => rfl
  | close h =>
    rcases closePosition_cases h with ⟨-, rfl⟩ | ⟨row, hs⟩
    · exact .of_eq rfl
    · obtain ⟨x, -, -, hrows⟩ := hs.positions
      exact .of_update hrows fun _ => rfl
  | alert x s => exact .of_eq rfl

/-- The rows of the listed positions are still those that were listed. -/
def Tied (due : List Position) (s : Store) : Prop :=
  ∀ pos ∈ due, ∀ row ∈ s.positions.rows, row.positionId = pos.positionId → row.Same pos

theorem tied_dueExits (s : Store) (asOf : Date) : Tied (dueExits s asOf) s := by
  intro pos hpos row hrow hid
  have hmem : pos ∈ s.positions.rows := by
    have hopen := (List.mem_filter.1 hpos).1
    rw [Store.openPositions, mem_orderByDateText] at hopen
    exact (List.mem_filter.1 hopen).1
  rw [s.positions.eq_of_id hrow hmem hid]
  rfl

theorem Tied.keepsRows {due : List Position} {s s' : Store} (h : Tied due s) (hk : KeepsRows s s') : Tied due s' := by
  intro pos hpos row hrow hid
  obtain ⟨q, hq, hsame⟩ := hk row hrow
  have hqid : q.positionId = pos.positionId := by
    rw [← hid, hsame]
  have hqpos := h pos hpos q hq hqid
  rw [Position.Same] at hsame hqpos ⊢
  rw [hsame, hqpos]

/-! ## Entry phases and cutover -/

theorem calls_recordDisposition (e : EpisodeId) {d : Disposition} (h : d ≠ .entered) :
    Calls (IntentCall cal cfg of) (recordDisposition e d) := calls_write fun s => .disposition e d s h

theorem calls_markIntent (it : EntryIntent) {st : IntentStatus} (h : st ≠ .pending) (h' : st ≠ .filled) :
    Calls (IntentCall cal cfg of) (markIntent it st) := calls_write fun s => .mark it st s h h'

theorem calls_entryAlert (ep : ClusterEpisode) {k : AlertKind} (it : Option EntryIntent)
    (h : k.saysNoPosition = true) : Calls (IntentCall cal cfg of) (enqueueAlert (entryAlert ep k it)) :=
  calls_write fun s => .alert ep k it s h

theorem calls_releaseIntent (intent : Option EntryIntent) {st : IntentStatus} (h : st ≠ .pending) (h' : st ≠ .filled) :
    Calls (IntentCall cal cfg of) (releaseIntent intent st) := by
  cases intent with
  | none => exact calls_ret _
  | some it => exact calls_markIntent it h h'

theorem calls_recordUnseen (e : EpisodeId) {d : Disposition} (h : d ≠ .entered) :
    Calls (IntentCall cal cfg of) (recordUnseen e d) := by
  refine keeps_bind (calls_read fun s => .idle _ s rfl) fun seen => ?_
  split
  · exact calls_ret _
  · exact calls_recordDisposition _ h

theorem calls_rejectBoundary (ep : ClusterEpisode) (intent : Option EntryIntent) :
    Calls (IntentCall cal cfg of) (rejectBoundary ep intent) :=
  keeps_bind (calls_recordDisposition _ (by simp)) fun _ => calls_releaseIntent _ (by simp) (by simp)

theorem calls_expireRecovery (ep : ClusterEpisode) (intent : Option EntryIntent) :
    Calls (IntentCall cal cfg of) (expireRecovery ep intent) := by
  refine keeps_bind (calls_recordDisposition _ (by simp)) fun _ => ?_
  split
  · exact calls_ret _
  · exact keeps_bind (calls_markIntent _ (by simp) (by simp)) fun _ => calls_entryAlert _ _ rfl

theorem calls_failNoMarketData (ep : ClusterEpisode) (intent : Option EntryIntent) :
    Calls (IntentCall cal cfg of) (failNoMarketData ep intent) :=
  keeps_bind (calls_recordDisposition _ (by simp)) fun _ => keeps_bind (calls_releaseIntent _ (by simp) (by simp))
    fun _ => calls_entryAlert _ _ rfl

theorem calls_entry {α : Type} {p : Prog Call Store α} (h : Calls (IntentCall cal cfg of) p) :
    Calls (EntryCall cal cfg of) p := keeps_mono h (fun _ h => h) fun _ _ _ _ h => ⟨trivial, .intent h⟩

theorem calls_attemptFill (i : TickInput) (ripe : Date) (ep : ClusterEpisode) (intent : Option EntryIntent) :
    Calls (EntryCall cal cfg of) (attemptFill cal cfg i ripe ep intent) := by
  refine keeps_bind (keeps_tryCatch (keeps_bind (calls_txn (fun s => .rollback i _ s)
    fun s a s' h => .fill h) fun _ => calls_ret _) (calls_ret _)) fun r => ?_
  split
  · refine keeps_bind (calls_ofOption _) fun retryDeadline => ?_
    split
    · exact calls_ret _
    · exact calls_entry (calls_failNoMarketData _ _)
  · exact calls_ret _

theorem calls_attemptAdmitted (i : TickInput) (ripe : Date) (ep : ClusterEpisode) (intent : Option EntryIntent) :
    Calls (EntryCall cal cfg of) (attemptAdmitted cal cfg i ripe ep intent) := by
  unfold attemptAdmitted
  split
  · exact calls_entry (calls_rejectBoundary ep intent)
  · refine keeps_bind (calls_ofOption _) fun passed => ?_
    split
    · exact calls_entry (calls_expireRecovery _ _)
    · exact calls_attemptFill _ _ _ _

theorem calls_attemptEpisode (i : TickInput) (ripe : Date) (ep : ClusterEpisode) :
    Calls (EntryCall cal cfg of) (attemptEpisode cal cfg i ripe ep) := by
  refine keeps_bind (calls_read fun s => .intent (.idle _ s rfl)) fun intent => ?_
  split
  · split
    · exact calls_entry (calls_recordUnseen _ (by simp))
    · exact calls_ret _
  · exact calls_attemptAdmitted _ _ _ _

theorem calls_expireStale (ep : ClusterEpisode) : Calls (IntentCall cal cfg of) (expireStale ep) := by
  refine keeps_bind (calls_recordUnseen _ (by simp)) fun _ => keeps_bind (calls_read fun s => .idle _ s rfl) fun intent => ?_
  split
  · exact calls_ret _
  split
  · exact keeps_bind (calls_markIntent _ (by simp) (by simp)) fun _ => calls_entryAlert _ _ rfl
  · exact calls_ret _

theorem calls_admitIntent (i : TickInput) (nextSess : Date) (ep : ClusterEpisode) :
    Calls (IntentCall cal cfg (· = i)) (admitIntent cal cfg i nextSess ep) := by
  unfold admitIntent
  split
  · refine keeps_bind (calls_read fun s => .idle _ s rfl) fun disp => ?_
    split
    · exact calls_ret _
    refine keeps_bind (calls_read fun s => .idle _ s rfl) fun intent => ?_
    split
    · exact calls_ret _
    refine keeps_bind (calls_read fun s => .idle _ s rfl) fun found => keeps_bind (calls_ofOption _) fun found => ?_
    split
    · exact calls_ret _
    split
    · exact calls_recordDisposition _ (by simp)
    · exact calls_write fun s => .reserve i ep s rfl
  · exact calls_ret _

theorem calls_phaseOpen (i : TickInput) (ripe : Date) (eps : List ClusterEpisode) :
    Calls (EntryCall cal cfg of) (phaseOpen cal cfg i ripe eps) := keeps_forEach (calls_attemptEpisode i ripe) eps

theorem calls_phasePostClose (i : TickInput) (ripe : Date) (stale all : List ClusterEpisode) :
    Calls (IntentCall cal cfg (· = i)) (phasePostClose cal cfg i ripe stale all) :=
  keeps_bind (keeps_forEach calls_expireStale stale) fun _ => keeps_bind (calls_ofOption _) fun nextSess =>
    keeps_forEach (calls_admitIntent i nextSess) all

theorem calls_cutover (c : CutoverInput) :
    Calls (IntentCall cal cfg of) (classifyAndCancelPendingAtCutover cal c) := by
  refine keeps_bind (calls_read fun s => .idle _ s rfl) fun pending => keeps_bind ?_ fun r =>
    calls_write fun s => .cutover r s
  refine keeps_foldEach (fun r it => ?_) _ _
  unfold classifyIntent
  split
  · exact keeps_bind (calls_markIntent _ (by simp) (by simp)) fun _ => calls_ret _
  · refine keeps_bind (calls_ofOption _) fun passed => ?_
    split
    · exact keeps_bind (calls_markIntent _ (by simp) (by simp)) fun _ => calls_ret _
    · exact calls_ret _

/-- Forgetting which tick made the call. -/
theorem IntentCall.any {l : Call} {s s' : Store} (h : IntentCall cal cfg of l s s') :
    IntentCall cal cfg (fun _ => True) l s s' := by
  cases h with
  | idle l s h => exact .idle l s h
  | disposition e d s h => exact .disposition e d s h
  | mark it st s h h' => exact .mark it st s h h'
  | alert ep k it s h => exact .alert ep k it s h
  | reserve i ep s _ => exact .reserve i ep s trivial
  | cutover r s => exact .cutover r s

theorem IntentCall.not_isFill {l : Call} {s s' : Store} (h : IntentCall cal cfg of l s s') : l.isFill = false := by
  cases h with
  | idle l s h => exact Call.isFill_of_mayIdle h
  | _ => rfl

/-- The tables that no call on dispositions and intents touches. -/
theorem IntentCall.frame {l : Call} {s s' : Store} (h : IntentCall cal cfg of l s s') :
    s'.positions = s.positions ∧ s'.trades = s.trades ∧ s'.cooldowns = s.cooldowns ∧ s'.cash = s.cash ∧
      s'.entitlements = s.entitlements := by
  cases h with
  | reserve i ep s _ =>
    unfold admitTxn
    split
    · exact ⟨rfl, rfl, rfl, rfl, rfl⟩
    split
    · exact ⟨rfl, rfl, rfl, rfl, rfl⟩
    · exact ⟨rfl, rfl, rfl, rfl, rfl⟩
  | _ => exact ⟨rfl, rfl, rfl, rfl, rfl⟩

/-! ## The tick -/

/-- Any call of a service tick `i` with `of i`, or of a cutover. -/
inductive LedgerCall (cal : Calendar) (cfg : V2Config) (of : TickInput → Prop) (l : Call) (s s' : Store) : Prop
  | entry (h : EntryCall cal cfg of l s s')
  | exit (h : ExitCall cal cfg l s s')

theorem calls_tick (i : TickInput) : Calls (LedgerCall cal cfg (· = i)) (tick cal cfg i) := by
  have entry : ∀ {p : Prog Call Store Unit}, Calls (EntryCall cal cfg (· = i)) p →
      Calls (LedgerCall cal cfg (· = i)) p :=
    fun h => keeps_mono h (fun _ h => h) fun _ _ _ _ h => ⟨trivial, .entry h⟩
  have exit : ∀ {p : Prog Call Store Unit}, Calls (ExitCall cal cfg) p → Calls (LedgerCall cal cfg (· = i)) p :=
    fun h => keeps_mono h (fun _ h => h) fun _ _ _ _ h => ⟨trivial, .exit h⟩
  exact keeps_bind (calls_ofOption _) fun ripe => keeps_bind (calls_ofOption _) fun all =>
    keeps_bind (calls_ofOption _) fun _ => keeps_bind (entry (calls_phaseOpen i ripe _)) fun _ =>
      keeps_bind (exit (calls_upkeep (calls_phaseCorporateActions i))) fun _ =>
        keeps_bind (exit (calls_phaseClose i ripe)) fun _ =>
          keeps_bind (exit (calls_upkeep (calls_phaseDividends i))) fun _ => entry (calls_entry (calls_phasePostClose i ripe _ all))

/-- The tick as a program that runs alone: before its phases it only computes, and may raise. -/
theorem wp_tick {K : Contract Call Store} {i : TickInput} {Q : Unit → Store → Prop} {R : Store → Prop} {s : Store}
    (hR : R s) (h : ∀ ripe all cut, i.ripeThrough cal = some ripe → i.episodes cal cfg = some all →
      staleCut cal cfg ripe = some cut → wp K (tickPhases cal cfg i ripe cut all) Q R s) :
    wp K (tick cal cfg i) Q R s :=
  wp_bind (wp_ofOption (fun ripe hr => wp_bind (wp_ofOption (fun all ha => wp_bind (wp_ofOption
    (fun cut hc => h ripe all cut hr ha hc) fun _ => hR)) fun _ => hR)) fun _ => hR)

/-- The phases of a tick, when the phases between open and post-close keep `I`. -/
theorem wp_tickPhases {K : Contract Call Store} {i : TickInput} {ripe cut : Date} {all : List ClusterEpisode}
    {I : Store → Prop} {Q : Unit → Store → Prop} {R : Store → Prop} {s : Store}
    (hopen : wp K (phaseOpen cal cfg i ripe ((all.filter (·.eligibleEntrySession ≤ ripe)).filter (!isStale cfg cut ·)))
      (fun _ => I) R s)
    (hca : ∀ t, I t → wp K (phaseCorporateActions i) (fun _ => I) R t)
    (hclose : ∀ t, I t → wp K (phaseClose cal cfg i ripe) (fun _ => I) R t)
    (hdiv : ∀ t, I t → wp K (phaseDividends cal i) (fun _ => I) R t)
    (hpost : ∀ t, I t → wp K (phasePostClose cal cfg i ripe
      ((all.filter (·.eligibleEntrySession ≤ ripe)).filter (isStale cfg cut ·)) all) Q R t) :
    wp K (tickPhases cal cfg i ripe cut all) Q R s := by
  refine wp_then hopen fun _ t ht => wp_then (hca t ht) fun _ t ht => ?_
  exact wp_then (hclose t ht) fun _ t ht => wp_then (hdiv t ht) fun _ t ht => hpost t ht

/-- The same when every call between open and post-close keeps `I`. -/
theorem wp_tickPhases_of_exitCalls {K : Contract Call Store} {i : TickInput} {ripe cut : Date}
    {all : List ClusterEpisode} {I : Store → Prop} {Q : Unit → Store → Prop} {R : Store → Prop} {s : Store}
    (hopen : wp K (phaseOpen cal cfg i ripe ((all.filter (·.eligibleEntrySession ≤ ripe)).filter (!isStale cfg cut ·)))
      (fun _ => I) R s)
    (hexit : ∀ l t t', I t → ExitCall cal cfg l t t' → I t' ∧ K.commit l t t')
    (hx : ∀ t, I t → K.atCrash t) (hR : ∀ t, I t → R t)
    (hpost : ∀ t, I t → wp K (phasePostClose cal cfg i ripe
      ((all.filter (·.eligibleEntrySession ≤ ripe)).filter (isStale cfg cut ·)) all) Q R t) :
    wp K (tickPhases cal cfg i ripe cut all) Q R s := by
  have exit : ∀ {p : Prog Call Store Unit}, Calls (ExitCall cal cfg) p → ∀ t, I t → wp K p (fun _ => I) R t := by
    intro p hp t ht
    exact wp_mono (fun _ _ h => h) hR
      (wp_of_keeps (keeps_mono hp (fun _ _ => trivial) hexit) (fun _ _ _ _ h => h) (fun _ t ht _ => hx t ht) ht)
  exact wp_tickPhases hopen (exit (calls_upkeep (calls_phaseCorporateActions i))) (exit (calls_phaseClose i ripe))
    (exit (calls_upkeep (calls_phaseDividends i))) hpost

/-- What a process of the campaign runs. -/
theorem Job.calls (j : Job) : Calls (LedgerCall cal cfg (j = .tick ·)) (j.prog cal cfg) := by
  cases j with
  | tick i =>
    exact keeps_mono (calls_tick i) (fun _ h => h) fun _ _ _ _ h => ⟨trivial, by simpa [eq_comm] using h⟩
  | cutover c =>
    exact keeps_mono (calls_cutover c) (fun _ h => h) fun _ _ _ _ h => ⟨trivial, .entry (.intent h)⟩

end TalonX.V2
