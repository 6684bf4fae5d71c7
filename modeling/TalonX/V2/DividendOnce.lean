import TalonX.V2.Calls

/-!
# One dividend, one credit

An entitlement is unique by its position and its action key, and the key contains the rate. Two rates of one dividend
are two entitlements.

- `PaidOnce`: no position has two `CREDITED` rows of one ex-date;
- `ConfirmsAgain`: the evidence confirms a payable `ACCRUED` row whose dividend is already credited;
- `one_dividend_one_credit`: every run of settlements, catch-ups, receivable passes, ticks and cutovers without that;
- `dividend_credited_twice`: a corrected rate is accrued beside the credited row, and credited.
-/

set_option autoImplicit false

namespace TalonX.V2

open Transact

variable {cal : Calendar} {cfg : V2Config} {s s' : Store} {l : Call}

/-! ## Credits -/

/-- The dividend event of a row: one position, one ex-date. -/
def Entitlement.dividend (e : Entitlement) : ℕ × Date := (e.positionId, e.exDate)

def PaidOnce (s : Store) : Prop :=
  ∀ e ∈ s.entitlements.rows, ∀ e' ∈ s.entitlements.rows, e.state = .credited → e'.state = .credited →
    e.dividend = e'.dividend → e = e'

/-- The call credits at most one dividend that was not credited yet, and pays its amount. -/
structure PaysOnce (l : Call) (s s' : Store) : Prop where
  kept : ∀ e ∈ s.entitlements.rows, e.state = .credited → e ∈ s'.entitlements.rows
  fresh : ∀ e ∈ s'.entitlements.rows, e.state = .credited → e ∉ s.entitlements.rows →
    ∀ e' ∈ s.entitlements.rows, e'.state = .credited → e'.dividend ≠ e.dividend
  cash : ∀ eid, l = .creditDividend eid → s' = s ∨ ∃ e ∈ s'.entitlements.rows, e ∉ s.entitlements.rows ∧
    e.entitlementId = eid ∧ e.state = .credited ∧ s'.cash = s.cash + e.amountUsd

/-- The call credits nothing. -/
structure CreditsNothing (l : Call) (s s' : Store) : Prop where
  rows : ∀ e : Entitlement, e.state = .credited → (e ∈ s'.entitlements.rows ↔ e ∈ s.entitlements.rows)
  idle : ∀ eid, l = .creditDividend eid → s' = s

theorem CreditsNothing.of_eq (h : s'.entitlements = s.entitlements) (hl : ∀ eid, l = .creditDividend eid → s' = s) :
    CreditsNothing l s s' := ⟨fun e _ => by rw [h], hl⟩

theorem CreditsNothing.refl (l : Call) (s : Store) : CreditsNothing l s s := .of_eq rfl fun _ _ => rfl

theorem CreditsNothing.of_append {new : List Entitlement} (h : s'.entitlements.rows = s.entitlements.rows ++ new)
    (hnew : ∀ e ∈ new, e.state = .accrued) (hl : ∀ eid, l ≠ .creditDividend eid) : CreditsNothing l s s' := by
  refine ⟨fun e he => ?_, fun eid h => absurd h (hl eid)⟩
  rw [h, List.mem_append]
  refine ⟨fun hmem => hmem.resolve_right fun hn => ?_, Or.inl⟩
  rw [hnew e hn] at he
  cases he

theorem CreditsNothing.paidOnce (h : CreditsNothing l s s') (hp : PaidOnce s) : PaidOnce s' :=
  fun e he e' he' hc hc' => hp e ((h.rows e hc).1 he) e' ((h.rows e' hc').1 he') hc hc'

theorem CreditsNothing.paysOnce (h : CreditsNothing l s s') : PaysOnce l s s' where
  kept e he hc := (h.rows e hc).2 he
  fresh e he hc hn := absurd ((h.rows e hc).1 he) hn
  cash eid hl := Or.inl (h.idle eid hl)

/-! ## What the calls credit -/

theorem TrailCall.creditsNothing (h : TrailCall l s s') : CreditsNothing l s s' := by
  cases h with
  | idle l s _ => exact .refl l s
  | trail pid s t => exact .of_eq rfl nofun

theorem AccrualCall.creditsNothing (h : AccrualCall l s s') : CreditsNothing l s s' := by
  cases h with
  | idle l s _ => exact .refl l s
  | accrue h =>
    rcases Store.recordDividendEntitlement_cases h with
      rfl | ⟨row, ents, p, -, -, -, -, hst, -, -, -, -, -, -, hrows, rfl⟩
    · exact .refl _ _
    · exact .of_append hrows (by simpa using hst) nofun

theorem SettleCall.creditsNothing (h : SettleCall cal cfg l s s') : CreditsNothing l s s' := by
  cases h with
  | trail h => exact h.creditsNothing
  | unresolved h =>
    obtain ⟨ps, bs, -, rfl⟩ := Store.markExitUnresolved_cases h
    exact .of_eq rfl nofun
  | close h =>
    rcases closePosition_cases h with ⟨-, rfl⟩ | ⟨row, hs⟩
    · exact .refl _ _
    · obtain ⟨new, hrows, hnew⟩ := hs.entitlements
      exact .of_append hrows (fun e he => (hnew e he).state) nofun
  | alert x s => exact .of_eq rfl nofun

theorem EntryCall.creditsNothing {of : TickInput → Prop} (h : EntryCall cal cfg of l s s') :
    CreditsNothing l s s' := by
  cases h with
  | rollback i e s => exact .refl _ _
  | intent h =>
    refine .of_eq h.frame.2.2.2.2 fun eid hl => ?_
    cases h with
    | idle l s _ => rfl
    | _ => cases hl
  | fill h =>
    rcases fillTxn_cases h with ⟨rfl, -⟩ | ⟨-, why, rfl, -⟩ | ⟨row, px, n, hf, -⟩
    · exact .refl _ _
    · exact .of_eq rfl nofun
    · exact .of_eq hf.entitlements nofun

theorem creditsNothing_note (eid : ℕ) (n : DividendNote) (s : Store) :
    CreditsNothing (.noteDividendCheck eid) s (s.noteDividendCheck eid n) := by
  refine ⟨fun e he => ?_, nofun⟩
  refine ⟨fun h => ?_, fun h => mem_updateRows.2 ⟨e, h, ?_⟩⟩
  · obtain ⟨q, hq, rfl⟩ := mem_updateRows.1 h
    split at he
    · rename_i hsel
      simp only [Bool.and_eq_true, decide_eq_true_eq] at hsel
      rw [hsel.2] at he
      cases he
    · rename_i hsel
      rwa [if_neg hsel]
  · rw [if_neg]
    simp [he]

/-! ## The condition -/

/-- The receivables pass at `asOf` credits the row on this evidence. -/
def Entitlement.ConfirmedAt (evidence : Evidence) (asOf : Date) (e : Entitlement) : Prop :=
  ∃ pay, e.payableDate = some pay ∧ pay ≤ asOf ∧
    creditRefusal e pay asOf (evidence.fetch e.symbol (e.exDate - 1) pay) = none

/-- A payable `ACCRUED` row is confirmed although another row of its dividend is `CREDITED`. -/
def ConfirmsAgain (evidence : Evidence) (asOf : Date) (s : Store) : Prop :=
  ∃ e ∈ s.entitlements.rows, e.state = .accrued ∧ e.ConfirmedAt evidence asOf ∧
    ∃ e' ∈ s.entitlements.rows, e'.state = .credited ∧ e'.dividend = e.dividend

/-- A credit of a row whose dividend has none. -/
theorem credit_paysOnce {eid : ℕ} {asOf : Date} {b : Bool} (h : s.creditDividend eid asOf = (b, s')) (hp : PaidOnce s)
    (hnew : ∀ e ∈ s.entitlements.rows, e.entitlementId = eid → e.state = .accrued → ∀ e' ∈ s.entitlements.rows,
      e'.state = .credited → e'.dividend ≠ e.dividend) :
    PaidOnce s' ∧ PaysOnce (.creditDividend eid) s s' := by
  rcases Store.creditDividend_cases h with ⟨-, rfl⟩ | ⟨-, e, he, pay, ents, hid, hst, -, -, hrows, rfl⟩
  · exact ⟨hp, (CreditsNothing.refl _ _).paysOnce⟩
  have hnew := hnew e he hid hst
  -- the credited row of the update is the only one that was not there before
  have hmem : ∀ q ∈ ents.rows, q ∈ s.entitlements.rows ∨
      (q.dividend = e.dividend ∧ q.entitlementId = eid ∧ q.state = .credited ∧ q.amountUsd = e.amountUsd) := by
    intro q hq
    rw [hrows] at hq
    obtain ⟨r, hr, rfl⟩ := mem_updateRows.1 hq
    split
    · rename_i hsel
      simp only [Bool.and_eq_true, decide_eq_true_eq] at hsel
      have hre : r = e := s.entitlements.eq_of_id hr he (hsel.1.trans hid.symm)
      exact Or.inr ⟨by rw [hre]; rfl, hsel.1, rfl, by rw [hre]⟩
    · exact Or.inl hr
  have hold : ∀ q ∈ s.entitlements.rows, q.entitlementId = eid → q.state = .credited → False := by
    intro q hq hqid hqc
    rw [s.entitlements.eq_of_id hq he (hqid.trans hid.symm), hst] at hqc
    cases hqc
  refine ⟨fun q hq q' hq' hc hc' hd => ?_, fun q hq hc => ?_, fun q hq _ hn => ?_, ?_⟩
  · rcases hmem q hq with hq0 | ⟨hqd, hqid, -⟩
    · rcases hmem q' hq' with hq0' | ⟨hqd', -⟩
      · exact hp q hq0 q' hq0' hc hc' hd
      · exact absurd (hd.trans hqd') (hnew q hq0 hc)
    · rcases hmem q' hq' with hq0' | ⟨-, hqid', -⟩
      · exact absurd (hd.symm.trans hqd) (hnew q' hq0' hc')
      · exact ents.eq_of_id hq hq' (hqid.trans hqid'.symm)
  · show q ∈ ents.rows
    rw [hrows]
    refine mem_updateRows.2 ⟨q, hq, ?_⟩
    rw [if_neg]
    simp [hc]
  · rcases hmem q hq with hq0 | ⟨hqd, -⟩
    · exact absurd hq0 hn
    · rw [hqd]
      exact hnew
  · intro eid' heq
    simp only [Call.creditDividend.injEq] at heq
    obtain rfl := heq
    refine Or.inr ⟨{ e with state := .credited, creditedAsOf := some asOf, cashAfter := some (s.cash + e.amountUsd), note := none }, ?_, ?_, hid, rfl, rfl⟩
    · show _ ∈ ents.rows
      rw [hrows]
      refine mem_updateRows.2 ⟨e, he, ?_⟩
      rw [if_pos]
      simp [hid, hst]
    · exact fun h => hold _ h hid rfl

/-! ## The receivables pass -/

/-- The same entitlement, whatever became of it. -/
def Entitlement.Same (e q : Entitlement) : Prop :=
  e = { q with state := e.state, creditedAsOf := e.creditedAsOf, cashAfter := e.cashAfter, note := e.note }

/-- What holds while the listed rows are treated. -/
structure Receiving (listed : List Entitlement) (s : Store) : Prop where
  paid : PaidOnce s
  tied : ∀ e ∈ listed, ∀ row ∈ s.entitlements.rows, row.entitlementId = e.entitlementId → row.Same e

/-- What a program may do: the receivables pass never confirms a credited dividend again. -/
def paying (cs : Option (Evidence × Date)) : Contract Call Store where
  commit l s s' := PaidOnce s' ∧ PaysOnce l s s'
  mayFault _ _ := True
  atCrash := PaidOnce
  mayReach _ s := ∀ c ∈ cs, ¬ ConfirmsAgain c.1 c.2 s

variable {cs : Option (Evidence × Date)} {α : Type}

theorem paying_of_creditless {p : Prog Call Store α} {G : Call → Store → Store → Prop} (hp : Calls G p)
    (hG : ∀ l s s', G l s s' → CreditsNothing l s s') (h : PaidOnce s) :
    wp (paying cs) p (fun _ => PaidOnce) PaidOnce s :=
  wp_of_keeps (keeps_mono (J := PaidOnce) (H := (paying cs).commit) hp (fun _ _ => trivial)
    fun l _ _ ht hc => ⟨(hG l _ _ hc).paidOnce ht, (hG l _ _ hc).paidOnce ht, (hG l _ _ hc).paysOnce⟩)
    (fun _ _ _ _ h => h) (fun _ _ h _ => h) h

theorem Receiving.update {listed : List Entitlement} {f : Entitlement → Entitlement} {sel : Entitlement → Bool}
    (h : Receiving listed s) (hp : PaidOnce s') (hrows : s'.entitlements.rows = updateRows sel f s.entitlements.rows)
    (hf : ∀ e, (f e).Same e) (hid : ∀ e, (f e).entitlementId = e.entitlementId) : Receiving listed s' := by
  refine ⟨hp, fun e he row hrow hrid => ?_⟩
  rw [hrows] at hrow
  obtain ⟨q, hq, rfl⟩ := mem_updateRows.1 hrow
  split at hrid
  · rename_i hsel
    rw [if_pos hsel]
    have hsame := h.tied e he q hq ((hid q).symm.trans hrid)
    have hfq := hf q
    rw [Entitlement.Same] at hsame hfq ⊢
    rw [hfq, hsame]
  · rename_i hsel
    rw [if_neg hsel]
    exact h.tied e he q hq hrid

theorem paying_settleReceivable {evidence : Evidence} {asOf : Date} {listed : List Entitlement} {e : Entitlement}
    (he : e ∈ listed) (h : Receiving listed s) :
    wp (paying (some (evidence, asOf))) (settleReceivable evidence asOf e) (fun _ => Receiving listed)
      (Receiving listed) s := by
  have idle : ∀ (l : Call) {t : Store}, PaidOnce t → (paying (some (evidence, asOf))).commit l t t :=
    fun l _ ht => ⟨ht, (CreditsNothing.refl l _).paysOnce⟩
  unfold settleReceivable
  split
  · exact h
  rename_i pay hpay
  split
  · exact h
  rename_i hdue
  refine wp_tryCatch (wp_bind (wp_read (idle .lookup h.paid) ?_ fun _ => ⟨h.paid, h⟩))
  split
  · rename_i note _
    have hnote := creditsNothing_note e.entitlementId note s
    have hpaid := hnote.paidOnce h.paid
    refine wp_write ⟨hpaid, hnote.paysOnce⟩ ?_ fun _ => ⟨h.paid, h⟩
    exact h.update hpaid rfl (fun _ => rfl) fun _ => rfl
  · rename_i hconf
    refine wp_bind (wp_of_reach (fun _ => ⟨h.paid, h⟩) fun hnot => wp_txn (fun b s' hb => ?_) nofun
      fun _ => ⟨h.paid, h⟩)
    have hcred : s.creditDividend e.entitlementId asOf = (b, s') := Option.some.inj hb
    have hpay := credit_paysOnce hcred h.paid fun row hrow hid hst e' he' hc hd => by
      -- the row of this id is the listed one, so the evidence confirms it
      have hsame := h.tied e he row hrow hid
      refine hnot _ rfl ⟨row, hrow, hst, ⟨pay, ?_, Nat.not_lt.1 hdue, ?_⟩, e', he', hc, hd⟩
      · rw [hsame]; exact hpay
      · rw [hsame]; exact hconf
    refine ⟨hpay, ?_⟩
    rcases Store.creditDividend_cases hcred with ⟨-, rfl⟩ | ⟨-, _, _, _, ents, -, -, -, -, hrows, rfl⟩
    · exact h
    · exact h.update hpay.1 hrows (fun _ => rfl) fun _ => rfl

theorem paying_settleReceivables {evidence : Evidence} {asOf : Date} (h : PaidOnce s) :
    wp (paying (some (evidence, asOf))) (settleReceivables evidence asOf) (fun _ => PaidOnce) PaidOnce s := by
  refine wp_bind (wp_read ⟨h, (CreditsNothing.refl _ _).paysOnce⟩ ?_ fun _ => ⟨h, h⟩)
  have hstart : Receiving s.accruedEntitlements s := by
    refine ⟨h, fun e he row hrow hid => ?_⟩
    rw [s.entitlements.eq_of_id hrow (List.mem_filter.1 he).1 hid]
    rfl
  refine wp_mono (fun _ _ ht => ht.2.paid) (fun _ ht => ht.2.paid) (wp_forEach
    (R := fun t => (∀ e ∈ ([] : List Entitlement), e ∈ s.accruedEntitlements) ∧ Receiving s.accruedEntitlements t)
    (fun rest t => (∀ e ∈ rest, e ∈ s.accruedEntitlements) ∧ Receiving s.accruedEntitlements t)
    (fun e rest t ht => ?_) _ ⟨fun _ he => he, hstart⟩)
  exact wp_mono (fun _ _ hu => ⟨fun q hq => ht.1 q (List.mem_cons_of_mem _ hq), hu⟩) (fun _ hu => ⟨by simp, hu⟩)
    (paying_settleReceivable (ht.1 e List.mem_cons_self) ht.2)

/-! ## Every run -/

/-- What may be called on the ledger, one call after the other. -/
inductive DividendJob
  | job (j : Job)
  | settle (guard : Option Evidence) (price : PriceLookup) (asOf : Date)
  | catchUp (evidence : Evidence) (asOf : Date)
  | receivables (evidence : Evidence) (asOf : Date)

def DividendJob.prog (cal : Calendar) (cfg : V2Config) : DividendJob → Prog Call Store Unit
  | .job j => j.prog cal cfg
  | .settle guard price asOf => do
    let _ ← settleDueExits cal cfg guard price asOf
    pure ()
  | .catchUp evidence asOf => catchUpRecentClosed cal evidence asOf
  | .receivables evidence asOf => settleReceivables evidence asOf

/-- The evidence and the date of its receivables pass. -/
def DividendJob.credits : DividendJob → Option (Evidence × Date)
  | .job (.tick i) => i.guard.map fun ev => (ev.credit, i.today)
  | .receivables evidence asOf => some (evidence, asOf)
  | _ => none

theorem paying_phaseDividends {i : TickInput} (h : PaidOnce s) :
    wp (paying (DividendJob.job (.tick i)).credits) (phaseDividends cal i) (fun _ => PaidOnce) PaidOnce s := by
  unfold phaseDividends
  cases hg : i.guard with
  | none => exact h
  | some ev =>
    have hcredits : (DividendJob.job (.tick i)).credits = some (ev.credit, i.today) := congrArg (Option.map _) hg
    rw [hcredits]
    refine wp_tryCatch (wp_mono (fun _ _ ht => ht) (fun _ ht => ht) (wp_then ?_ fun _ t ht => paying_settleReceivables ht))
    exact paying_of_creditless (accrualCalls_catchUpRecentClosed _ _) (fun _ _ _ hc => hc.creditsNothing) h

theorem paying_tick {i : TickInput} (h : PaidOnce s) :
    wp (paying (DividendJob.job (.tick i)).credits) (tick cal cfg i) (fun _ => PaidOnce) PaidOnce s := by
  have entry : ∀ {p : Prog Call Store Unit} {t : Store}, Calls (EntryCall cal cfg (· = i)) p → PaidOnce t →
      wp (paying (DividendJob.job (.tick i)).credits) p (fun _ => PaidOnce) PaidOnce t :=
    fun hp ht => paying_of_creditless hp (fun _ _ _ hc => hc.creditsNothing) ht
  refine wp_tick h fun ripe all cut _ _ _ => wp_tickPhases (entry (calls_phaseOpen i ripe _) h) (fun t ht => ?_)
    (fun t ht => ?_) (fun t ht => paying_phaseDividends ht) fun t ht => entry (calls_entry (calls_phasePostClose i ripe _ all)) ht
  · exact paying_of_creditless (trailCalls_phaseCorporateActions i) (fun _ _ _ hc => hc.creditsNothing) ht
  · have hcalls : Calls (SettleCall cal cfg) (phaseClose cal cfg i ripe) := settleCalls_phaseClose i ripe
    exact paying_of_creditless hcalls (fun _ _ _ hc => hc.creditsNothing) ht

theorem paying_job (j : DividendJob) (h : PaidOnce s) :
    wp (paying j.credits) (j.prog cal cfg) (fun _ => PaidOnce) PaidOnce s := by
  cases j with
  | job j =>
    cases j with
    | tick i => exact paying_tick h
    | cutover c =>
      have hcalls : Calls (IntentCall cal cfg fun _ => False) (classifyAndCancelPendingAtCutover cal c) := calls_cutover c
      exact paying_of_creditless (calls_entry hcalls) (fun _ _ _ hc => hc.creditsNothing) h
  | settle guard price asOf =>
    have hcalls : Calls (SettleCall cal cfg) (settleDueExits cal cfg guard price asOf) :=
      settleCalls_settleDueExits guard price asOf
    exact wp_then (paying_of_creditless hcalls (fun _ _ _ hc => hc.creditsNothing) h) fun _ _ ht => ht
  | catchUp evidence asOf =>
    exact paying_of_creditless (accrualCalls_catchUpRecentClosed evidence asOf) (fun _ _ _ hc => hc.creditsNothing) h
  | receivables evidence asOf => exact paying_settleReceivables h

/-- In every run of one process, with any evidence at any call, whatever call raises and wherever the process crashes:
no dividend of a position is credited twice, as long as no receivables pass confirms a credited dividend again. -/
theorem one_dividend_one_credit (cal : Calendar) (cfg : V2Config) (start : ℚ) {segs : List (Seg DividendJob Call Store)}
    {s : Store} (h : Run (DividendJob.prog cal cfg) (Store.init start) segs s)
    (honce : ∀ g ∈ segs, ∀ c ∈ g.input.credits, ∀ e ∈ g.events, ¬ ConfirmsAgain c.1 c.2 e.pre) :
    PaidOnce s ∧ ∀ g ∈ segs, ∀ e ∈ g.events, e.fault = .none → PaidOnce e.post ∧ PaysOnce e.lbl e.pre e.post := by
  have hrun := Run.invariant (fun j : DividendJob => paying j.credits) PaidOnce (fun _ _ => True)
    (fun _ he => absurd he List.not_mem_nil) (fun _ _ ht => ht) (fun j _ ht _ => paying_job j ht) h
    fun g hg => ⟨trivial, fun e he => ⟨fun _ c hc => honce g hg c hc e he, fun _ => trivial⟩⟩
  exact ⟨hrun.1, fun g hg e he hf => (hrun.2 g hg).2.2 e he hf⟩

/-! ## A sample -/

/-- Prices with an unadjusted basis. -/
def rawPrice : PriceLookup := fun _ d => some { sampleBar d with provenance := some ⟨some d, some "RAW"⟩ }

def rawTick (now : Instant) : TickInput := { sampleTick true now with openPrice := rawPrice }

/-- An ordinary dividend of ex-date 40, payable on day 46. -/
def sampleDividend (rate : PosRat) : CorporateActionEvent where
  actionKey := .div "ACME" 40 rate.1
  symbol := "ACME"
  kind := .cashDividend
  providerType := "cash_dividends"
  exDate := some 40
  ratio := none
  cashRate := some rate
  source := "static"
  providerId := "d1"
  malformed := false
  payableDate := some 46

/-- One source, with the dividend at this rate. -/
def listingDividend (rate : PosRat) : Evidence := fun _ _ _ => [.listing "static" [sampleDividend rate]]

/-- The position of day 30 is settled on day 44; its dividend is accrued, and credited when payable. -/
def paidOnceRun : List (DividendJob × List Fault) :=
  [(.job (.tick (rawTick (dayStart 29 + 80000))), []), (.job (.tick (rawTick (dayStart 30 + 60000))), []),
    (.settle none rawPrice 44, []), (.catchUp (listingDividend ⟨1 / 4, by norm_num⟩) 45, []),
    (.receivables (listingDividend ⟨1 / 4, by norm_num⟩) 46, [])]

theorem one_dividend_one_credit_sample :
    let r := runAll (DividendJob.prog (.weekdays 100) {}) paidOnceRun (Store.init 100000)
    (∃ e ∈ r.2.entitlements.rows, e.state = .credited) ∧
      PaidOnce r.2 ∧ ∀ g ∈ r.1, ∀ e ∈ g.events, e.fault = .none → PaidOnce e.post ∧ PaysOnce e.lbl e.pre e.post := by
  intro r
  refine ⟨by decide +kernel, one_dividend_one_credit (.weekdays 100) {} 100000 (runAll_sound _ _ _) ?_⟩
  rintro g hg c - e he ⟨q, hq, hst, -, q', hq', hst', -⟩
  have hone : ∀ g ∈ r.1, ∀ e ∈ g.events, ∀ q ∈ e.pre.entitlements.rows, ∀ q' ∈ e.pre.entitlements.rows,
      q.state = q'.state := by decide +kernel
  have heq := hone g hg e he q hq q' hq'
  rw [hst, hst'] at heq
  cases heq

/-- The provider corrects the rate once the dividend is paid: the next catch-up accrues the corrected event, which the
receivables pass then credits beside the first one. -/
theorem dividend_credited_twice :
    let corrected := listingDividend ⟨3 / 10, by norm_num⟩
    let r := runAll (DividendJob.prog (.weekdays 100) {})
      (paidOnceRun ++ [(.catchUp corrected 47, []), (.receivables corrected 47, [])]) (Store.init 100000)
    ¬ PaidOnce r.2 := by
  intro corrected r h
  have hbad : ∃ e ∈ r.2.entitlements.rows, ∃ e' ∈ r.2.entitlements.rows, e.state = .credited ∧ e'.state = .credited ∧
      e.dividend = e'.dividend ∧ e.entitlementId ≠ e'.entitlementId := by decide +kernel
  obtain ⟨e, he, e', he', hc, hc', hd, hne⟩ := hbad
  exact hne (congrArg Entitlement.entitlementId (h e he e' he' hc hc' hd))

end TalonX.V2
