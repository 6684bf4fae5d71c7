import TalonX.V2.Calls

/-!
# One life for an episode, one holder for a symbol

What a call can do to positions, trades and cooldowns is one of four steps (`LifeStep`): nothing, an entry, giving a
position up, a settlement. The abstract life of an episode is `no position → BUY → BUY, SELL`; the trades of an episode
are always those of its life (`LifeInv`), whatever the order of the calls of however many processes (`one_life`).
-/

set_option autoImplicit false

namespace TalonX.V2

open Transact

/-! ## Steps -/

/-- What a call does to positions, trades and cooldowns. -/
inductive LifeStep (cal : Calendar) (cfg : V2Config) (s s' : Store) : Prop
  | idle (hp : s'.positions = s.positions) (ht : s'.trades = s.trades) (hc : s'.cooldowns = s.cooldowns)
  | enter {ep : ClusterEpisode} {row : Position} {s₁ : Store}
      (h : Entered cal cfg s ep.episodeId ep.symbol.toUpper ep.eligibleEntrySession row s₁)
      (hp : s'.positions = s₁.positions) (ht : s'.trades = s₁.trades)
  | giveUp {pid : ℕ}
      (hp : s'.positions.rows = updateRows (Store.openAt pid)
        (fun p => { p with status := .exitUnresolved }) s.positions.rows)
      (ht : s'.trades = s.trades)
  | settle {price : ℚ} {pid : ℕ} {es : Date} {divs : List CorporateActionEvent} {row : Position} {o : ExitOutcome}
      (h : Settled cal cfg zeroFee s pid price es divs row o s')

variable {cal : Calendar} {cfg : V2Config} {of : TickInput → Prop} {l : Call} {s s' : Store}

theorem EntryCall.lifeStep (h : EntryCall cal cfg of l s s') : LifeStep cal cfg s s' := by
  cases h with
  | intent h =>
    obtain ⟨hp, ht, hc, -⟩ := h.frame
    exact .idle hp ht hc
  | rollback i e s => exact .idle rfl rfl rfl
  | fill h =>
    rcases fillTxn_cases h with ⟨rfl, -⟩ | ⟨-, why, rfl, -⟩ | ⟨row, px, n, hf, -⟩
    · exact .idle rfl rfl rfl
    · exact .idle rfl rfl rfl
    · obtain ⟨s₁, px, hent, rfl⟩ := hf.entered
      obtain ⟨t, ht⟩ := markFilled_frame ‹_› (row.positionId, px, _) s₁
      exact .enter hent (by rw [ht]; rfl) (by rw [ht]; rfl)

theorem ExitCall.lifeStep (h : ExitCall cal cfg l s s') : LifeStep cal cfg s s' := by
  cases h with
  | unresolved h =>
    obtain ⟨ps, bs, hrows, rfl⟩ := Store.markExitUnresolved_cases h
    exact .giveUp hrows rfl
  | close h =>
    rcases closePosition_cases h with ⟨-, rfl⟩ | ⟨row, hs⟩
    · exact .idle rfl rfl rfl
    · exact .settle hs
  | upkeep h =>
    obtain ⟨cash, trail, ents, rfl⟩ := h.frame
    exact .idle rfl rfl rfl
  | alert x s => exact .idle rfl rfl rfl

theorem LedgerCall.lifeStep (h : LedgerCall cal cfg of l s s') : LifeStep cal cfg s s' := by
  cases h with
  | entry h => exact h.lifeStep
  | exit h => exact h.lifeStep

/-! ## The invariant -/

/-- The trades of an episode's life, from its position row. -/
def lifeTrades : Option Position → List TradeAction
  | none => []
  | some p => if p.status = .closed then [.buy, .sell] else [.buy]

/-- The actions of an episode's trades, oldest first. -/
def Store.tradesOf (s : Store) (e : EpisodeId) : List TradeAction :=
  (s.trades.filter (·.episodeId = e)).map Trade.action

theorem tradesOf_append {t : Trade} (h : s'.trades = s.trades ++ [t]) (e : EpisodeId) :
    s'.tradesOf e = s.tradesOf e ++ if t.episodeId = e then [t.action] else [] := by
  unfold Store.tradesOf
  rw [h, List.filter_append, List.map_append]
  by_cases he : t.episodeId = e <;> simp [he]

structure LifeInv (cfg : V2Config) (s : Store) : Prop where
  trades : ∀ e, s.tradesOf e = lifeTrades (s.positionForEpisode e)
  holders : ∀ p ∈ s.positions.rows, ∀ q ∈ s.positions.rows,
    p.occupied = true → q.occupied = true → p.symbol = q.symbol → p = q
  slots : s.nOpen ≤ cfg.maxConcurrentPositions

theorem LifeInv.init (cfg : V2Config) (start : ℚ) : LifeInv cfg (Store.init start) where
  trades _ := rfl
  holders p hp := by cases hp
  slots := Nat.zero_le _

/-- Holders stay apart when the `OPEN` row of an id is changed: no row becomes a holder. -/
theorem holders_updateRows {f : Position → Position} {pid : ℕ}
    (hp : s'.positions.rows = updateRows (Store.openAt pid) f s.positions.rows) (hsym : ∀ p, (f p).symbol = p.symbol)
    (h : ∀ p ∈ s.positions.rows, ∀ q ∈ s.positions.rows,
      p.occupied = true → q.occupied = true → p.symbol = q.symbol → p = q) :
    ∀ p ∈ s'.positions.rows, ∀ q ∈ s'.positions.rows,
      p.occupied = true → q.occupied = true → p.symbol = q.symbol → p = q := by
  intro p hpm q hqm hpo hqo hpq
  rw [hp, mem_updateRows] at hpm hqm
  obtain ⟨p₀, hp₀, rfl⟩ := hpm
  obtain ⟨q₀, hq₀, rfl⟩ := hqm
  have hback : ∀ r : Position, (if Store.openAt pid r then f r else r).occupied = true → r.occupied = true := by
    intro r hr
    by_cases hs : Store.openAt pid r = true
    · exact Store.occupied_of_openAt hs
    · rwa [if_neg hs] at hr
  have hname : ∀ r : Position, (if Store.openAt pid r then f r else r).symbol = r.symbol := by
    intro r
    by_cases hs : Store.openAt pid r = true
    · rw [if_pos hs]; exact hsym r
    · rw [if_neg hs]
  rw [hname, hname] at hpq
  rw [h p₀ hp₀ q₀ hq₀ (hback p₀ hpo) (hback q₀ hqo) hpq]

/-- The row that an update of the `OPEN` row of an id leaves for an episode. -/
theorem positionForEpisode_update {f : Position → Position} {pid : ℕ}
    (hp : s'.positions.rows = updateRows (Store.openAt pid) f s.positions.rows)
    (hf : ∀ p, (f p).episodeId = p.episodeId) (e : EpisodeId) :
    s'.positionForEpisode e = (s.positionForEpisode e).map fun p => if Store.openAt pid p then f p else p :=
  Table.get_updateRows hp hf e

theorem LifeStep.trades_eq (h : LifeStep cal cfg s s') (hI : LifeInv cfg s) (e : EpisodeId) :
    s'.tradesOf e = lifeTrades (s'.positionForEpisode e) := by
  have hold := hI.trades e
  cases h with
  | idle hp ht hc =>
    unfold Store.tradesOf Store.positionForEpisode at hold ⊢
    rw [hp, ht]
    exact hold
  | @enter ep row s₁ h hp ht =>
    obtain ⟨t, hbuy, hte, htr⟩ := h.trades
    have hget : s'.positionForEpisode e = s₁.positionForEpisode e := by
      rw [Store.positionForEpisode, hp]
      rfl
    rw [tradesOf_append (ht.trans htr), hold, hget, h.positionForEpisode, hte, hbuy]
    by_cases he : ep.episodeId = e
    · subst he
      simp [h.noPosition, lifeTrades, h.status]
    · simp [he]
  | giveUp hp ht =>
    have hget := positionForEpisode_update hp (fun _ => rfl) e
    have htrades : s'.tradesOf e = s.tradesOf e := by
      unfold Store.tradesOf
      rw [ht]
    rw [htrades, hold, hget]
    cases s.positionForEpisode e with
    | none => rfl
    | some p =>
      rw [Option.map_some]
      split
      · rename_i hs
        simp [lifeTrades, (Store.openAt_iff.1 hs).2]
      · rfl
  | @settle price pid es divs row o h =>
    obtain ⟨t, hsell, hte, htr⟩ := h.trades
    obtain ⟨x, -, -, hrows⟩ := h.positions
    have hget := positionForEpisode_update hrows (fun _ => rfl) e
    have hsel : Store.openAt pid row = true := Store.openAt_iff.2 ⟨h.positionId, h.wasOpen⟩
    rw [tradesOf_append htr, hold, hget, hte, hsell]
    by_cases he : row.episodeId = e
    · have hrow : s.positionForEpisode e = some row := Table.get_eq_some.2 ⟨h.mem, he⟩
      rw [hrow, Option.map_some, if_pos hsel, if_pos he]
      simp [lifeTrades, h.wasOpen]
    · rw [if_neg he, List.append_nil]
      cases hq : s.positionForEpisode e with
      | none => rfl
      | some q =>
        have hne : Store.openAt pid q ≠ true := by
          intro hs
          have hqr := Store.eq_of_openAt h.mem (Table.mem_of_get hq) hsel hs
          exact he (hqr ▸ Table.key_of_get hq)
        rw [Option.map_some, if_neg hne]

theorem LifeStep.inv (h : LifeStep cal cfg s s') (hI : LifeInv cfg s) : LifeInv cfg s' := by
  refine ⟨h.trades_eq hI, ?_, ?_⟩
  · cases h with
    | idle hp _ _ => rw [hp]; exact hI.holders
    | giveUp hp _ =>
      exact holders_updateRows hp (fun _ => rfl) hI.holders
    | settle h =>
      obtain ⟨x, -, -, hrows⟩ := h.positions
      exact holders_updateRows hrows (fun _ => rfl) hI.holders
    | @enter ep row s₁ h hp _ =>
      have hfree : ∀ p ∈ s.positions.rows, p.occupied = true → p.symbol ≠ row.symbol := by
        intro p hpm ho heq
        have := List.find?_eq_none.1 h.symbolFree p hpm
        rw [heq, h.symbol] at this
        simp [ho] at this
      rw [hp, h.positions]
      intro p hpm q hqm hpo hqo hpq
      rcases List.mem_append.1 hpm with hpm | hpm <;> rcases List.mem_append.1 hqm with hqm | hqm
      · exact hI.holders p hpm q hqm hpo hqo hpq
      · rw [List.mem_singleton.1 hqm] at hpq
        exact absurd hpq (hfree p hpm hpo)
      · rw [List.mem_singleton.1 hpm] at hpq
        exact absurd hpq.symm (hfree q hqm hqo)
      · rw [List.mem_singleton.1 hpm, List.mem_singleton.1 hqm]
  · have hslots := hI.slots
    unfold Store.nOpen at hslots ⊢
    cases h with
    | idle hp _ _ => rwa [hp]
    | giveUp hp _ =>
      rw [hp]
      exact (countP_updateRows_le (fun p hs _ => Store.occupied_of_openAt hs) _).trans hslots
    | settle h =>
      obtain ⟨x, -, -, hrows⟩ := h.positions
      rw [hrows]
      exact (countP_updateRows_le (fun p hs _ => Store.occupied_of_openAt hs) _).trans hslots
    | enter h hp _ =>
      have hslot := h.slot
      unfold Store.nOpen at hslot
      rw [hp, h.positions, List.countP_append, List.countP_singleton]
      split <;> omega

/-! ## Cooldowns -/

/-- A position that a step adds is not entered before the cooldown stored for its symbol. -/
def CooledEntry (s s' : Store) : Prop :=
  ∀ p ∈ s'.positions.rows, (∀ q ∈ s.positions.rows, q.positionId ≠ p.positionId) →
    ∀ cd, s.cooldownUntil p.symbol = some cd → cd ≤ p.entrySession

/-- An update adds no position. -/
theorem cooledEntry_updateRows {f : Position → Position} {sel : Position → Bool}
    (hp : s'.positions.rows = updateRows sel f s.positions.rows) (hf : ∀ p, (f p).positionId = p.positionId) :
    CooledEntry s s' := by
  intro p hpm hnew
  rw [hp, mem_updateRows] at hpm
  obtain ⟨q, hq, rfl⟩ := hpm
  refine absurd ?_ (hnew q hq)
  by_cases hs : sel q = true <;> simp [hs, hf]

theorem LifeStep.cooled (h : LifeStep cal cfg s s') : CooledEntry s s' := by
  cases h with
  | idle hp _ _ => exact fun p hpm hnew => absurd rfl (hnew p (hp ▸ hpm))
  | giveUp hp _ => exact cooledEntry_updateRows hp fun _ => rfl
  | settle h =>
    obtain ⟨x, -, -, hrows⟩ := h.positions
    exact cooledEntry_updateRows hrows fun _ => rfl
  | @enter ep row s₁ h hp _ =>
    intro p hpm hnew cd hcd
    rw [hp, h.positions] at hpm
    rcases List.mem_append.1 hpm with hpm | hpm
    · exact absurd rfl (hnew p hpm)
    · obtain rfl := List.mem_singleton.1 hpm
      rw [h.symbol, toUpper_toUpper] at hcd
      rw [h.entrySession]
      exact h.cooled cd hcd

/-! ## Every interleaving -/

/-- However many V2 processes work on one ledger and however their transactions interleave: an episode has at most one
position, its trades are a prefix of `BUY, SELL`, a symbol has at most one position that is not closed, there are never
more of these than slots, and no step enters a symbol before its stored cooldown. -/
theorem one_life {ι : Type} [DecidableEq ι] (cal : Calendar) (cfg : V2Config) (start : ℚ) {S : Sys ι Call Store}
    (h : Reach (fun _ p => ∃ j : Job, p = j.prog cal cfg) (fun _ _ => True) (Sys.idle (Store.init start)) S) :
    (∀ e, (S.store.positions.rows.filter (·.episodeId = e)).length ≤ 1 ∧ S.store.tradesOf e <+: [.buy, .sell]) ∧
      (∀ p ∈ S.store.positions.rows, ∀ q ∈ S.store.positions.rows,
        p.occupied = true → q.occupied = true → p.symbol = q.symbol → p = q) ∧
      S.store.nOpen ≤ cfg.maxConcurrentPositions ∧
      ∀ m S', Step (fun _ p => ∃ j : Job, p = j.prog cal cfg) S m S' → CooledEntry S.store S'.store := by
  have hS : Sound (LifeInv cfg) noAssert (fun _ s s' => CooledEntry s s') S :=
    Reach.invariant_of_keeps (fun _ p ⟨j, hj⟩ => hj ▸ keeps_mono j.calls (fun _ _ => trivial) fun l s s' hI hc =>
      ⟨hc.lifeStep.inv hI, hc.lifeStep.cooled⟩) (LifeInv.init cfg start) h
  refine ⟨fun e => ⟨Table.length_filter_key_le_one _ e, ?_⟩, hS.inv.holders, hS.inv.slots, fun m S' hs => ?_⟩
  · rw [hS.inv.trades e]
    cases hp : S.store.positionForEpisode e with
    | none => exact List.nil_prefix
    | some p =>
      simp only [lifeTrades]
      split
      · exact List.prefix_refl _
      · exact ⟨[.sell], rfl⟩
  · cases m with
    | commit i l => exact hS.commit hs
    | _ =>
      have heq := hs.store_eq (by simp)
      rw [heq]
      exact fun p hp hnew => absurd rfl (hnew p hp)

/-- One process reserves and buys, another one sells. -/
theorem one_life_sample :
    let prog := Job.prog (.weekdays 60) {}
    let s₁ := (runAll prog [(.tick (sampleTick true (dayStart 29 + 80000)), []),
      (.tick (sampleTick true (dayStart 30 + 60000)), [])] (Store.init 100000)).2
    let s₂ := (runAll prog [(.tick (sampleTick true (dayStart 44 + 80000)), [])] s₁).2
    s₂.tradesOf sampleEpisode = [.buy, .sell] ∧
      (s₂.positions.rows.filter (·.episodeId = sampleEpisode)).length ≤ 1 ∧ s₂.nOpen ≤ 20 := by
  intro prog s₁ s₂
  have h₁ : Reach (fun _ p => ∃ j : Job, p = j.prog (.weekdays 60) {}) (fun _ _ => True)
      (Sys.idle (Store.init 100000)) (Sys.idle s₁) := (runAll_sound prog _ _).reach false (fun j _ => ⟨j, rfl⟩)
      (fun _ _ _ _ _ _ _ => ⟨trivial, trivial⟩) fun _ => ⟨trivial, trivial⟩
  have h₂ : Reach (fun _ p => ∃ j : Job, p = j.prog (.weekdays 60) {}) (fun _ _ => True)
      (Sys.idle s₁) (Sys.idle s₂) := (runAll_sound prog _ _).reach true (fun j _ => ⟨j, rfl⟩)
      (fun _ _ _ _ _ _ _ => ⟨trivial, trivial⟩) fun _ => ⟨trivial, trivial⟩
  obtain ⟨hlife, -, hslots, -⟩ := one_life (.weekdays 60) {} 100000 (h₁.trans h₂)
  exact ⟨by decide +kernel, (hlife sampleEpisode).1, hslots⟩

end TalonX.V2
