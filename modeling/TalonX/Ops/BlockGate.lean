import TalonX.Ops.AccountBlocks
import TalonX.V2.DividendOnce
import TalonX.V2.Ledger

/-!
# The account-block gate of the V2 ledger

Blocks are recorded by the settlement and by `record_account_block`, cleared by an operator's `clear_block`, and checked
by the two admission transactions, in several processes that share one ledger.

- `verifyClearanceEligible`, `clearBlock`: the clearance of one block, in one transaction;
- `Gated`: what every committed call of a process observes, from `LedgerCall` by cases (`gated_ledgerCall`);
- `account_block_gate`: it does so in every interleaving.
-/

set_option autoImplicit false

namespace TalonX.Ops

open Transact V2

/-! ## Clearing a block -/

/-- `cash_plus_open_cost_reconciles`. -/
def cashPlusOpenCostReconciles (s : Store) : Bool :=
  |(s.cash + costOf s .open + costOf s .exitUnresolved) - (s.startingCash + realizedTotal s + creditedTotal s)| ≤ 1

/-- `no_negative_cash`. -/
def noNegativeCash (s : Store) : Bool := 0 ≤ s.cash

/-- The position that the block refers to is no longer `EXIT_UNRESOLVED`. -/
def verifyExitUnresolved (rowid : String → Option ℕ) (s : Store) (b : Block) : Bool :=
  match (rowid b.reference).bind s.positionById with
  | none => false
  | some p => p.status ≠ .exitUnresolved

/-- The fresh re-check at clearance time. -/
def verifyClearanceEligible (rowid : String → Option ℕ) (s : Store) (b : Block) : Bool :=
  if b.status ≠ .active then false
  else
    match b.reasonType with
    | .exitUnresolved => verifyExitUnresolved rowid s b
    | .ledgerMismatch => cashPlusOpenCostReconciles s
    | .cashDeficit => noNegativeCash s
    | .identityMismatch => false

/-- `clear_block` for the account kind `V2`; `rowid` converts a text that is compared with an integer key. -/
def clearBlock (rowid : String → Option ℕ) (q : ClearanceRequest) (s : Store) : Option (Clearance × Store) :=
  match s.blocks.getBlock q.blockId with
  | none => none
  | some b =>
    if b.accountId ≠ "V2" then none
    else
      (s.blocks.attemptClearance s.clock q (verifyClearanceEligible rowid s b)).map fun r =>
        (r.1, { s with blocks := r.2 })

/-- An attempt that is not turned away: it names a block of the account `V2`, carries an operator, a reason and
evidence, and its id is free. -/
def Accepted (q : ClearanceRequest) (s : Store) : Prop :=
  (q.operatorId ≠ "" ∧ q.reason ≠ "" ∧ q.evidenceRef ≠ "") ∧
    (∃ b, s.blocks.getBlock q.blockId = some b ∧ b.accountId = "V2") ∧
      ∀ d ∈ s.blocks.clearances.rows, d.clearanceId ≠ (q.blockId, q.operatorId, s.clock)

/-- What a clearance attempt does. -/
structure ClearanceStep (q : ClearanceRequest) (s s' : Store) : Prop where
  others : ∀ k, k ≠ q.blockId → s'.blocks.getBlock k = s.blocks.getBlock k
  detected : ∀ b, s.blocks.getBlock q.blockId = some b →
    ∃ b', s'.blocks.getBlock q.blockId = some b' ∧ b'.detectedAtUtc = b.detectedAtUtc
  appends : Accepted q s → ∃ c : Clearance, c.blockId = q.blockId ∧ c.operatorId = q.operatorId ∧
    c.attemptedAtUtc = s.clock ∧ s'.blocks.clearances.rows = s.blocks.clearances.rows ++ [c]
  raises : ¬ Accepted q s → s' = s
  ledger : s' = { s with blocks := s'.blocks }

variable {rowid : String → Option ℕ} {q : ClearanceRequest} {s s' : Store}

theorem clearBlock_eq_none (h : clearBlock rowid q s = none) : ¬ Accepted q s := by
  rintro ⟨htexts, ⟨b, hb, hacc⟩, hfree⟩
  rw [clearBlock, hb] at h
  dsimp only at h
  rw [if_neg (not_not.2 hacc), Option.map_eq_none_iff, BlockTables.attemptClearance_eq_none] at h
  rcases h with htext | hnone | ⟨d, hd, he⟩
  · rcases htext with h | h | h
    · exact htexts.1 h
    · exact htexts.2.1 h
    · exact htexts.2.2 h
  · rw [hb] at hnone
    cases hnone
  · exact hfree d hd he

theorem clearanceStep_clearBlock {c : Clearance} (h : clearBlock rowid q s = some (c, s')) : ClearanceStep q s s' := by
  unfold clearBlock at h
  split at h
  · cases h
  rename_i b hb
  split at h
  · cases h
  rename_i hacc
  obtain ⟨⟨c', t⟩, hr, heq⟩ := Option.map_eq_some_iff.1 h
  simp only [Prod.mk.injEq] at heq
  obtain ⟨rfl, rfl⟩ := heq
  obtain ⟨htexts, -, rfl, hrows, hfree, hothers, hself⟩ := BlockTables.attemptClearance_cases hr
  constructor
  · exact hothers
  · intro b' hb'
    have hget : t.getBlock q.blockId = _ := hself
    rw [hb'] at hget
    refine ⟨_, hget, ?_⟩
    split <;> rfl
  · intro _
    exact ⟨_, rfl, rfl, rfl, hrows⟩
  · intro hnot
    exact (hnot ⟨htexts, ⟨b, hb, not_not.1 hacc⟩, hfree⟩).elim
  · rfl

theorem clearanceStep_idle (h : ¬ Accepted q s) : ClearanceStep q s s where
  others _ _ := rfl
  detected b hb := ⟨b, hb, rfl⟩
  appends ha := (h ha).elim
  raises _ := rfl
  ledger := rfl

/-! ## What every call observes -/

def Blocked (accountId : String) (s : Store) : Prop :=
  ∃ b ∈ s.blocks.blocks.rows, b.accountId = accountId ∧ b.status = .active

theorem blocked_iff {accountId : String} : Blocked accountId s ↔ s.blockedReason accountId ≠ none := by
  rw [Ne, Store.blockedReason, BlockTables.blockedReason_eq_none, Blocked]
  push Not
  rfl

def buyTrades (s : Store) : List Trade := s.trades.filter (·.action = .buy)

/-- A committed call of a process whose account is `accountId`. -/
structure Gated (accountId : String) (l : Call) (s s' : Store) : Prop where
  buys : Blocked accountId s → buyTrades s' = buyTrades s
  reservations : Blocked accountId s → ∀ it ∈ s'.intents.rows, it.status = .pending → it ∈ s.intents.rows
  /-- An active block keeps its detection time, and stays active unless it is the one being cleared. -/
  active : ∀ k b, s.blocks.getBlock k = some b → b.status = .active →
    ∃ b', s'.blocks.getBlock k = some b' ∧ b'.detectedAtUtc = b.detectedAtUtc ∧
      ((∀ q, l = .clearBlock q → q.blockId ≠ k) → b'.status = .active)
  attempt : ∀ q, l = .clearBlock q → ClearanceStep q s s'
  history : (∀ q, l ≠ .clearBlock q) → s'.blocks.clearances = s.blocks.clearances

variable {accountId : String} {l : Call}

/-- A call that leaves the blocks alone. -/
theorem Gated.of_blocks (hl : ∀ q, l ≠ .clearBlock q) (hblocks : s'.blocks = s.blocks)
    (hbuys : Blocked accountId s → buyTrades s' = buyTrades s)
    (hints : Blocked accountId s → ∀ it ∈ s'.intents.rows, it.status = .pending → it ∈ s.intents.rows) :
    Gated accountId l s s' where
  buys := hbuys
  reservations := hints
  active k b hb hact := ⟨b, by rw [hblocks]; exact hb, rfl, fun _ => hact⟩
  attempt q hq := (hl q hq).elim
  history _ := by rw [hblocks]

/-- A call that writes neither trades nor intents, and records a block at most. -/
theorem gated_recordAccountBlock {t : Store} (hl : ∀ q, l ≠ .clearBlock q) (hclock : t.blocks = s.blocks)
    (htrades : t.trades = s.trades) (hints : t.intents = s.intents) (accountId' : String) (r : BlockReason)
    (ref : String) : Gated accountId l s (t.recordAccountBlock accountId' r ref) where
  buys _ := by rw [buyTrades, buyTrades, ← htrades]; rfl
  reservations _ it hit _ := by rw [← hints]; exact hit
  active k b hb hact := by
    rw [← hclock] at hb
    by_cases hk : k = (accountId', r, ref)
    · subst hk
      have hget : (t.blocks.recordBlock t.clock accountId' r ref).getBlock (accountId', r, ref) = _ :=
        BlockTables.getBlock_recordBlock_self
      rw [hb, Option.map_some, Option.getD_some, BlockTables.renew_of_active hact] at hget
      exact ⟨_, hget, rfl, fun _ => hact⟩
    · have hget : (t.blocks.recordBlock t.clock accountId' r ref).getBlock k = _ :=
        BlockTables.getBlock_recordBlock_of_ne hk
      exact ⟨b, hget.trans hb, rfl, fun _ => hact⟩
  attempt q hq := (hl q hq).elim
  history _ := by rw [← hclock]; rfl

theorem gated_markExitUnresolved {accountId' : String} {pid : ℕ} (hl : ∀ q, l ≠ .clearBlock q)
    (h : s.markExitUnresolved accountId' pid = some s') : Gated accountId l s s' := by
  unfold Store.markExitUnresolved at h
  dsimp only at h
  split at h
  · cases h
  split at h
  · obtain rfl := Option.some.inj h
    exact gated_recordAccountBlock hl (by rfl) (by rfl) (by rfl) _ _ _
  · obtain rfl := Option.some.inj h
    exact .of_blocks hl rfl (fun _ => rfl) fun _ _ hit _ => hit

/-! ## The programs -/

variable {cal : Calendar} {cfg : V2Config} {of : TickInput → Prop}

theorem ne_clearBlock_of_mayIdle (h : l.mayIdle = true) : ∀ q, l ≠ .clearBlock q := by
  rintro q rfl
  cases h

theorem gated_upkeep (h : UpkeepCall l s s') : Gated accountId l s s' := by
  have hl : ∀ q, l ≠ .clearBlock q := by
    cases h with
    | idle l s h => exact ne_clearBlock_of_mayIdle h
    | _ => exact nofun
  obtain ⟨cash, trail, ents, rfl⟩ := h.frame
  exact .of_blocks hl rfl (fun _ => rfl) fun _ _ hit _ => hit

theorem gated_exit (h : ExitCall cal cfg l s s') : Gated accountId l s s' := by
  cases h with
  | upkeep h => exact gated_upkeep h
  | unresolved h => exact gated_markExitUnresolved nofun h
  | close h =>
    rcases closePosition_cases h with ⟨-, rfl⟩ | ⟨row, hs⟩
    · exact .of_blocks nofun rfl (fun _ => rfl) fun _ _ hit _ => hit
    · obtain ⟨t, hact, -, htrades⟩ := hs.trades
      refine .of_blocks nofun (by rw [hs.frame]) (fun _ => ?_) fun _ it hit _ => ?_
      · simp [buyTrades, htrades, hact]
      · rw [hs.frame] at hit
        exact hit
  | alert x s => exact .of_blocks nofun rfl (fun _ => rfl) fun _ _ hit _ => hit

/-- The reservation transaction checks the gate before it writes. -/
theorem gated_admitTxn (i : TickInput) (ep : ClusterEpisode) (s : Store) :
    Gated cfg.campaignId (.reserve ep.episodeId) s (admitTxn cal cfg i ep s) := by
  unfold admitTxn
  split
  · exact .of_blocks nofun rfl (fun _ => rfl) fun _ _ hit _ => hit
  rename_i hopen
  split
  · exact .of_blocks nofun rfl (fun _ => rfl) fun _ _ hit _ => hit
  · refine .of_blocks nofun rfl (fun _ => rfl) fun hblocked => ?_
    have hnone : s.blockedReason cfg.campaignId = none := by simpa using hopen
    exact (blocked_iff.1 hblocked hnone).elim

theorem gated_intent (h : IntentCall cal cfg of l s s') : Gated cfg.campaignId l s s' := by
  cases h with
  | idle l s h => exact .of_blocks (ne_clearBlock_of_mayIdle h) rfl (fun _ => rfl) fun _ _ hit _ => hit
  | mark it st s hp _ =>
    refine .of_blocks nofun rfl (fun _ => rfl) fun _ row hrow hst => ?_
    rw [Store.rows_markEntryIntent] at hrow
    obtain ⟨r, hr, rfl⟩ := mem_updateRows.1 hrow
    split at hst
    · exact (hp hst).elim
    · rename_i hsel
      rw [if_neg hsel]
      exact hr
  | reserve i ep s _ => exact gated_admitTxn i ep s
  | _ => exact .of_blocks nofun rfl (fun _ => rfl) fun _ _ hit _ => hit

/-- An admitted entry has found the gate open. -/
theorem gated_entered {e : EpisodeId} {sym : Symbol} {es : V2.Date} {row : Position} {s₁ : Store}
    (hl : ∀ q, l ≠ .clearBlock q) (h : Entered cal cfg s e sym es row s₁) (hblocks : s'.blocks = s₁.blocks) :
    Gated cfg.campaignId l s s' := by
  have hopen : ¬ Blocked cfg.campaignId s := fun hb => blocked_iff.1 hb h.unblocked
  refine .of_blocks hl ?_ (fun hb => (hopen hb).elim) fun hb => (hopen hb).elim
  rw [hblocks, h.frame]

theorem gated_fillTxn {i : TickInput} {ep : ClusterEpisode} {it : Option EntryIntent} {r : EpisodeResult}
    (h : fillTxn cal cfg i ep it s = some (r, s')) : Gated cfg.campaignId (.fill ep.episodeId i.gate) s s' := by
  rcases fillTxn_cases h with ⟨rfl, -⟩ | ⟨-, why, rfl, -⟩ | ⟨row, px, n, hf, -⟩
  · exact .of_blocks nofun rfl (fun _ => rfl) fun _ _ hit _ => hit
  · exact .of_blocks nofun rfl (fun _ => rfl) fun _ _ hit _ => hit
  · obtain ⟨s₁, px', he, rfl⟩ := hf.entered
    obtain ⟨t, ht⟩ := markFilled_frame it (row.positionId, px', ep.eligibleEntrySession) s₁
    refine gated_entered nofun he ?_
    rw [ht]
    rfl

theorem gated_ledgerCall (h : LedgerCall cal cfg of l s s') : Gated cfg.campaignId l s s' := by
  cases h with
  | exit h => exact gated_exit h
  | entry h =>
    cases h with
    | intent h => exact gated_intent h
    | rollback i e s => exact .of_blocks nofun rfl (fun _ => rfl) fun _ _ hit _ => hit
    | fill h => exact gated_fillTxn h

/-- What a process may run on the ledger; `clock` is the environment, which sets the clock. -/
inductive GateJob
  | job (j : DividendJob)
  | enterPosition (d : Decision) (price : Option ℚ) (es : V2.Date) (feeFn : FeeFn) (provenance : Option Provenance)
  | markExitUnresolved (pid : ℕ) (why : UnresolvedReason)
  | recordAccountBlock (reasonType : BlockReason) (reference : String)
  | clearBlock (q : ClearanceRequest)
  | clock (now : Instant)

def GateJob.prog (rowid : String → Option ℕ) (cal : Calendar) (cfg : V2Config) : GateJob → Prog Call Store Unit
  | .job j => j.prog cal cfg
  | .enterPosition d price es feeFn prov => do
    let _ ← Prog.txn (.fill d.episodeId true) fun s => V2.enterPosition cal cfg feeFn s d price es prov
    pure ()
  | .markExitUnresolved pid why => markUnresolved cfg pid why
  | .recordAccountBlock r ref =>
    Prog.write .recordAccountBlock fun s => s.recordAccountBlock cfg.campaignId r ref
  | .clearBlock q => do
    let _ ← Prog.txn (.clearBlock q) (Ops.clearBlock rowid q)
    pure ()
  | .clock now => Prog.write .clock fun s => { s with clock := now }

theorem gated_enterPosition {d : Decision} {price : Option ℚ} {es : V2.Date} {feeFn : FeeFn}
    {prov : Option Provenance} {o : EntryOutcome} (h : enterPosition cal cfg feeFn s d price es prov = some (o, s')) :
    Gated cfg.campaignId (.fill d.episodeId true) s s' := by
  rcases enterPosition_cases h with ⟨-, -, rfl⟩ | ⟨-, r, -, -, rfl⟩ | ⟨p, z, hfrozen, hok, hrec⟩
  · exact .of_blocks nofun rfl (fun _ => rfl) fun _ _ hit _ => hit
  · exact .of_blocks nofun rfl (fun _ => rfl) fun _ _ hit _ => hit
  · obtain ⟨row, he, -⟩ := entered_of_recordEntry hfrozen hok hrec
    exact gated_entered nofun he rfl

theorem gated_clearBlock (q : ClearanceRequest) (h : ClearanceStep q s s') :
    Gated accountId (.clearBlock q) s s' where
  buys _ := by rw [h.ledger]; rfl
  reservations _ it hit _ := by rw [h.ledger] at hit; exact hit
  active k b hb hact := by
    by_cases hk : k = q.blockId
    · subst hk
      obtain ⟨b', hb', hdet⟩ := h.detected b hb
      exact ⟨b', hb', hdet, fun hne => (hne q rfl rfl).elim⟩
    · exact ⟨b, (h.others k hk).trans hb, rfl, fun _ => hact⟩
  attempt q' hq' := by
    obtain rfl := Call.clearBlock.inj hq'
    exact h
  history hne := (hne q rfl).elim

theorem DividendJob.gated (j : DividendJob) : Calls (Gated cfg.campaignId) (j.prog cal cfg) := by
  have upkeep : ∀ {α : Type} {p : Prog Call Store α}, Calls UpkeepCall p → Calls (Gated cfg.campaignId) p :=
    fun hp => keeps_mono hp (fun _ h => h) fun _ _ _ _ h => ⟨trivial, gated_upkeep h⟩
  cases j with
  | job j => exact keeps_mono j.calls (fun _ h => h) fun _ _ _ _ h => ⟨trivial, gated_ledgerCall h⟩
  | settle guard price asOf =>
    have hcalls : Calls (SettleCall cal cfg) (settleDueExits cal cfg guard price asOf) :=
      settleCalls_settleDueExits guard price asOf
    exact keeps_bind (keeps_mono hcalls (fun _ h => h) fun _ _ _ _ h => ⟨trivial, gated_exit h.exit⟩)
      fun _ => calls_ret _
  | catchUp evidence asOf =>
    exact keeps_mono (accrualCalls_catchUpRecentClosed evidence asOf) (fun _ h => h) fun _ _ _ _ h =>
      ⟨trivial, gated_upkeep h.upkeep⟩
  | receivables evidence asOf =>
    exact upkeep (keeps_bind (calls_read fun s => .idle _ s rfl) fun es => keeps_forEach (calls_settleReceivable _ _) es)

theorem GateJob.gated (j : GateJob) : Calls (Gated cfg.campaignId) (j.prog rowid cal cfg) := by
  have idle : ∀ {l : Call}, (∀ q, l ≠ .clearBlock q) → ∀ s, Gated cfg.campaignId l s s :=
    fun hl _ => .of_blocks hl rfl (fun _ => rfl) fun _ _ hit _ => hit
  cases j with
  | job j => exact DividendJob.gated j
  | enterPosition d price es feeFn prov =>
    exact keeps_bind (calls_txn (idle (l := .fill d.episodeId true) (by rintro _ ⟨⟩)) fun s o s' h => gated_enterPosition h)
      fun _ => calls_ret _
  | markExitUnresolved pid why =>
    refine calls_txn (idle (l := .markExitUnresolved pid why) (by rintro _ ⟨⟩)) fun s _ s' h => ?_
    obtain ⟨s'', hs, heq⟩ := Option.map_eq_some_iff.1 h
    obtain ⟨-, rfl⟩ := Prod.mk.inj heq
    exact gated_markExitUnresolved (by rintro _ ⟨⟩) hs
  | recordAccountBlock r ref =>
    refine calls_write fun s => ?_
    exact gated_recordAccountBlock (l := .recordAccountBlock) (by rintro _ ⟨⟩) rfl rfl rfl _ _ _
  | clearBlock q =>
    refine keeps_bind ⟨fun s _ _ => ?_, trivial, fun _ _ => trivial⟩ fun _ => calls_ret _
    cases hf : Ops.clearBlock rowid q s with
    | none => simpa [hf, Prog.entry, Outline] using gated_clearBlock q (clearanceStep_idle (clearBlock_eq_none hf))
    | some r =>
      obtain ⟨c, s'⟩ := r
      simpa [hf, Prog.entry, Outline] using gated_clearBlock q (clearanceStep_clearBlock hf)
  | clock now => exact calls_write (l := .clock) fun s => .of_blocks (by rintro _ ⟨⟩) rfl (fun _ => rfl) fun _ _ hit _ => hit

/-! ## Every interleaving -/

/-- A process starts one of the jobs on the ledger, under its own configuration. -/
def gateStarts {ι : Type} (rowid : String → Option ℕ) (cal : Calendar) (cfg : ι → V2Config) (i : ι)
    (p : Prog Call Store Unit) : Prop := ∃ j : GateJob, p = j.prog rowid cal (cfg i)

/-- In every interleaving of any processes on one ledger, whatever raises or crashes: no call of a process opens a
position or a reservation while its account has an active block in the state that the call starts from; a clearance
changes no other block; an active block keeps its detection time; and an attempt appends one clearance row, unless it is
turned away and changes nothing. -/
theorem account_block_gate {ι : Type} [DecidableEq ι] (rowid : String → Option ℕ) (cal : Calendar)
    (cfg : ι → V2Config) (s₀ : Store) {S S' : Sys ι Call Store} {i : ι} {l : Call}
    (h : Reach (gateStarts rowid cal cfg) (fun _ _ => True) (Sys.idle s₀) S)
    (hs : Step (gateStarts rowid cal cfg) S (.commit i l) S') :
    Gated (cfg i).campaignId l S.store S'.store := by
  refine Reach.commit_of_keeps (I := fun _ => True) (H := fun i => Gated (cfg i).campaignId) ?_ trivial h hs
  rintro i p ⟨j, rfl⟩
  exact j.gated

/-! ## A sample -/

/-- One process has recorded a block of the account, another one has been asked to clear it. -/
def attempting (q : ClearanceRequest) : Sys Bool Call Store :=
  (((Sys.idle (Store.init 100000)).start true
    (GateJob.prog String.toNat? (.weekdays 60) {} (.recordAccountBlock .cashDeficit "no_negative_cash"))).commit
      true).start false (GateJob.prog String.toNat? (.weekdays 60) {} (.clearBlock q))

def clearCashDeficit (evidenceRef : String) : ClearanceRequest :=
  ⟨("V2", .cashDeficit, "no_negative_cash"), "operator", "re-checked", evidenceRef⟩

theorem reach_attempting (q : ClearanceRequest) :
    Reach (gateStarts String.toNat? (.weekdays 60) fun _ => {}) (fun _ _ => True) (Sys.idle (Store.init 100000))
      (attempting q) :=
  ((Reach.refl.start rfl ⟨_, rfl⟩).commit true).start rfl ⟨_, rfl⟩

/-- The block is active when the attempt starts, and the attempt appends its row. -/
theorem account_block_gate_sample :
    let q := clearCashDeficit "ledger"
    ∃ S', Step (gateStarts String.toNat? (.weekdays 60) fun _ => {}) (attempting q) (.commit false (.clearBlock q)) S' ∧
      Blocked "V2" (attempting q).store ∧ Accepted q (attempting q).store ∧
      Gated "V2" (.clearBlock q) (attempting q).store S'.store := by
  intro q
  have hs : Step (gateStarts String.toNat? (.weekdays 60) fun _ => {}) (attempting q)
      (.commit false (.clearBlock q)) _ := .commit rfl
  have hblocked : ∃ b ∈ (attempting q).store.blocks.blocks.rows, b.accountId = "V2" ∧ b.status = .active := by
    decide +kernel
  have hblock : ∃ b ∈ (attempting q).store.blocks.getBlock q.blockId, b.accountId = "V2" := by decide +kernel
  have hfree : ∀ d ∈ (attempting q).store.blocks.clearances.rows,
      d.clearanceId ≠ (q.blockId, q.operatorId, (attempting q).store.clock) := by decide +kernel
  exact ⟨_, hs, hblocked, ⟨by decide, hblock, hfree⟩,
    account_block_gate String.toNat? (.weekdays 60) (fun _ => {}) _ (reach_attempting q) hs⟩

/-- An attempt without evidence is made on an active block, and no row is appended. -/
theorem clearance_attempt_unrecorded :
    let q := clearCashDeficit ""
    Reach (gateStarts String.toNat? (.weekdays 60) fun _ => {}) (fun _ _ => True) (Sys.idle (Store.init 100000))
        (attempting q) ∧
      Blocked "V2" (attempting q).store ∧
      ∃ S', Step (gateStarts String.toNat? (.weekdays 60) fun _ => {}) (attempting q)
          (.commit false (.clearBlock q)) S' ∧
        ¬ ∃ c : Clearance, S'.store.blocks.clearances.rows = (attempting q).store.blocks.clearances.rows ++ [c] := by
  intro q
  have hblocked : ∃ b ∈ (attempting q).store.blocks.blocks.rows, b.accountId = "V2" ∧ b.status = .active := by
    decide +kernel
  have hrows : ((attempting q).commit false).store.blocks.clearances.rows =
      (attempting q).store.blocks.clearances.rows := by decide +kernel
  refine ⟨reach_attempting q, hblocked, _, .commit rfl, ?_⟩
  rintro ⟨c, hc⟩
  have hself : (attempting q).store.blocks.clearances.rows = (attempting q).store.blocks.clearances.rows ++ [c] :=
    hrows.symm.trans hc
  simp at hself

end TalonX.Ops
