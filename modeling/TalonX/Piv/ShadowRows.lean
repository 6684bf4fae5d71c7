import TalonX.Piv.ShadowIndexes

/-!
# The records of the shadow ledger after one call

- `advance`: one bar on an open record;
- `StepRow`: what a record can be after a call, in terms of the records before it;
- `step_row`: there is nothing else.
-/

set_option autoImplicit false

namespace TalonX.Piv.Shadow

open Clock Transact
open TalonX.Core (PyFloat)

variable (policy : HorizonPolicy) (config : ExecutionConfig)

/-! ## What a call does to the records -/

/-- An open record after one more bar. -/
def advance (p : ShadowPosition) (b : Bar) : ShadowPosition :=
  match (p.observe b).exitAt b with
  | some (price, reason) => (p.observe b).close config b.timestamp price reason
  | none => p.observe b

/-- A record after a call on `L`: as it was, or made from one record of `L`. A record that waits for its fill and stays
so has seen no later bar, unless its deadline is out of range. -/
inductive StepRow (L : ShadowLedger) : Event → ShadowPosition → Prop
  | kept {e : Event} {r : ShadowPosition} (hr : r ∈ L.positions.rows)
      (hbar : ∀ symbol b, e = .bar symbol b → r.symbol = symbol → r.status = .pendingFill →
        r.recommendationTime < b.timestamp → deadlineOf policy r.horizon b.timestamp = none) : StepRow L e r
  | recorded {d : Decision} {source : String} (hnew : ∀ q ∈ L.positions.rows, q.shadowId ≠ (d.position source).shadowId) :
      StepRow L (.consider d source) (d.position source)
  | filled {b : Bar} {p : ShadowPosition} {deadline : Option Utc} (hp : p ∈ L.positions.rows)
      (hs : p.status = .pendingFill) (hlater : p.recommendationTime < b.timestamp)
      (hd : deadlineOf policy p.horizon b.timestamp = some deadline) :
      StepRow L (.bar p.symbol b) (advance config (p.fill config b deadline) b)
  | watched {b : Bar} {p : ShadowPosition} (hp : p ∈ L.positions.rows) (hs : p.status = .opened) :
      StepRow L (.bar p.symbol b) (advance config p b)
  | forced {t : Utc} {price : PyFloat} {reason reason' : String} {p : ShadowPosition} (hp : p ∈ L.positions.rows)
      (hs : p.status = .opened) : StepRow L (.forceClose p.symbol t (some price) reason) (p.close config t price reason')
  | dropped {t : Utc} {price : Option PyFloat} {quality reason reason' : String} {p : ShadowPosition}
      (hp : p ∈ L.positions.rows) (hlive : p.live = true) :
      StepRow L (.forceClose p.symbol t price reason) (p.unresolve quality reason')

variable {policy config} {L : ShadowLedger}

theorem advance_status (config : ExecutionConfig) {p : ShadowPosition} (hs : p.status = .opened) (b : Bar) :
    (advance config p b).status = .opened ∨ (advance config p b).status = .closed := by
  unfold advance
  split
  · exact .inr rfl
  · exact .inl hs

/-- Only a recommendation makes a record that waits. -/
theorem StepRow.of_pending {e : Event} {r : ShadowPosition} (h : StepRow policy config L e r)
    (hs : r.status = .pendingFill) : r ∈ L.positions.rows ∨ ∃ d source, e = .consider d source := by
  cases h with
  | kept hr => exact .inl hr
  | recorded => exact .inr ⟨_, _, rfl⟩
  | filled =>
    rename_i b p deadline _ _ _ _
    have hfilled : (p.fill config b deadline).status = .opened := rfl
    rcases advance_status config hfilled b with h | h <;> rw [hs] at h <;> cases h
  | watched _ ho =>
    rename_i b p _
    rcases advance_status config ho b with h | h <;> rw [hs] at h <;> cases h
  | forced => cases hs
  | dropped => cases hs

theorem mem_closePosition (h : Coherent L) {p seen q : ShadowPosition} (hp : p ∈ L.positions.rows)
    (hs : p.status = .opened) (hid : seen.shadowId = p.shadowId) (hsymbol : seen.symbol = p.symbol) {t : Utc}
    {price : PyFloat} {reason : String} :
    q ∈ (L.closePosition config seen t price reason).positions.rows ↔
      (q ∈ L.positions.rows ∧ q.shadowId ≠ p.shadowId) ∨ q = seen.close config t price reason := by
  rw [h.closePosition_eq hp hs hid hsymbol, ← hid]
  exact Coherent.mem_assign L

/-- The second half of `on_bar`: the open record of the symbol, and no other. -/
theorem mem_monitorOpen (h : Coherent L) {symbol : String} {b : Bar} {r : ShadowPosition}
    (hr : r ∈ (L.monitorOpen config symbol b).positions.rows) :
    (r ∈ L.positions.rows ∧ ¬ (r.symbol = symbol ∧ r.status = .opened)) ∨
      ∃ p ∈ L.positions.rows, p.symbol = symbol ∧ p.status = .opened ∧ r = advance config p b := by
  unfold ShadowLedger.monitorOpen at hr
  split at hr
  · next hnone =>
    refine .inl ⟨hr, fun ⟨hsym, hs⟩ => ?_⟩
    rw [h.lookup_open.2 ⟨hr, hsym, hs⟩] at hnone
    cases hnone
  · next p hp =>
    obtain ⟨hmem, rfl, hs⟩ := h.lookup_open.1 hp
    -- the record that is replaced is the only live one of its symbol
    have hother : ∀ q ∈ L.positions.rows, q.shadowId ≠ p.shadowId → ¬ (q.symbol = p.symbol ∧ q.status = .opened) :=
      fun q hq hne ⟨hsym, hqs⟩ => hne (h.single q hq p hmem (live_iff.2 (.inr hqs)) (live_iff.2 (.inr hs)) hsym ▸ rfl)
    have hid : (p.observe b).shadowId = p.shadowId := rfl
    have hadvance : r = advance config p b →
        ∃ p' ∈ L.positions.rows, p'.symbol = p.symbol ∧ p'.status = .opened ∧ r = advance config p' b :=
      fun hr => ⟨p, hmem, rfl, hs, hr⟩
    dsimp only at hr
    split at hr
    · next price reason hexit =>
      rcases (mem_closePosition h hmem hs hid rfl).1 hr with ⟨hr, hne⟩ | hr
      · exact .inl ⟨hr, hother r hr hne⟩
      · exact .inr (hadvance (by simp only [advance, hexit, hr]))
    · next hexit =>
      rcases (Coherent.mem_assign L).1 hr with ⟨hr, hne⟩ | hr
      · exact .inl ⟨hr, hother r hr hne⟩
      · exact .inr (hadvance (by simp only [advance, hexit, hr]))

/-- The first half of `on_bar`. -/
theorem mem_fillPending (h : Coherent L) {L' : ShadowLedger} {symbol : String} {b : Bar}
    (hL : L.fillPending policy config symbol b = some L') {r : ShadowPosition} (hr : r ∈ L'.positions.rows) :
    (r ∈ L.positions.rows ∧
        (r.symbol = symbol → r.status = .pendingFill → ¬ r.recommendationTime < b.timestamp)) ∨
      ∃ p ∈ L.positions.rows, ∃ deadline, p.symbol = symbol ∧ p.status = .pendingFill ∧
        p.recommendationTime < b.timestamp ∧ deadlineOf policy p.horizon b.timestamp = some deadline ∧
          r = p.fill config b deadline := by
  unfold ShadowLedger.fillPending at hL
  split at hL
  · next hnone =>
    obtain rfl := Option.some.inj hL
    refine .inl ⟨hr, fun hsym hs => ?_⟩
    rw [h.lookup_pending.2 ⟨hr, hsym, hs⟩] at hnone
    cases hnone
  · next p hp =>
    obtain ⟨hmem, rfl, hs⟩ := h.lookup_pending.1 hp
    split at hL
    · next hlater =>
      obtain ⟨deadline, hd, rfl⟩ := Option.map_eq_some_iff.1 hL
      rcases (Coherent.mem_assign L).1 hr with ⟨hr, hne⟩ | hr
      · refine .inl ⟨hr, fun hsym hrs => absurd ?_ hne⟩
        rw [h.single r hr p hmem (live_iff.2 (.inl hrs)) (live_iff.2 (.inl hs)) hsym]
        rfl
      · exact .inr ⟨p, hmem, deadline, rfl, hs, Utc.isoformat_lt_iff.1 hlater, hd, hr⟩
    · next hlater =>
      obtain rfl := Option.some.inj hL
      refine .inl ⟨hr, fun hsym hrs hlt => hlater ?_⟩
      obtain rfl := h.single r hr p hmem (live_iff.2 (.inl hrs)) (live_iff.2 (.inl hs)) hsym
      exact Utc.isoformat_lt_iff.2 hlt

theorem step_row_bar (h : Coherent L) {symbol : String} {b : Bar} {r : ShadowPosition}
    (hr : r ∈ (L.onBar policy config symbol b).positions.rows) : StepRow policy config L (.bar symbol b) r := by
  unfold ShadowLedger.onBar at hr
  cases hL : L.fillPending policy config symbol b with
  | none =>
    -- the deadline is out of range, and nothing was changed
    rw [hL] at hr
    refine .kept hr fun symbol' b' he hsym hs hlt => ?_
    obtain ⟨rfl, rfl⟩ := Event.bar.inj he
    have hlookup := h.lookup_pending.2 ⟨hr, hsym, hs⟩
    unfold ShadowLedger.fillPending at hL
    rw [hlookup] at hL
    dsimp only at hL
    rw [if_pos (Utc.isoformat_lt_iff.2 hlt)] at hL
    exact Option.map_eq_none_iff.1 hL
  | some L₁ =>
    rw [hL] at hr
    have h₁ := h.fillPending hL
    rcases mem_monitorOpen h₁ hr with ⟨hr, hopen⟩ | ⟨p, hp, rfl, hs, rfl⟩
    · rcases mem_fillPending h hL hr with ⟨hr, hpending⟩ | ⟨p, hp, deadline, hsym, -, -, -, rfl⟩
      · refine .kept hr fun symbol' b' he hsym hs hlt => ?_
        obtain ⟨rfl, rfl⟩ := Event.bar.inj he
        exact absurd hlt (hpending hsym hs)
      · exact absurd ⟨hsym, rfl⟩ hopen
    · rcases mem_fillPending h hL hp with ⟨hp, -⟩ | ⟨q, hq, deadline, hsym, hqs, hlater, hd, rfl⟩
      · exact .watched hp hs
      · have hfilled : StepRow policy config L (.bar q.symbol b) (advance config (q.fill config b deadline) b) :=
          .filled hq hqs hlater hd
        exact hfilled

theorem mem_forceOpen (h : Coherent L) {symbol : String} {t : Utc} {price : Option PyFloat} {reason : String}
    {r : ShadowPosition} (hr : r ∈ (L.forceOpen config symbol t price reason).1.positions.rows) :
    StepRow policy config L (.forceClose symbol t price reason) r := by
  have hkept : r ∈ L.positions.rows → StepRow policy config L (.forceClose symbol t price reason) r := fun hr =>
    .kept hr nofun
  unfold ShadowLedger.forceOpen at hr
  split at hr
  · exact hkept hr
  · next p hp =>
    obtain ⟨hmem, rfl, hs⟩ := h.lookup_open.1 hp
    dsimp only at hr
    split at hr
    · rcases (mem_closePosition h hmem hs rfl rfl).1 hr with ⟨hr, -⟩ | rfl
      · exact hkept hr
      · exact .forced hmem hs
    · rcases (Coherent.mem_assign L).1 hr with ⟨hr, -⟩ | rfl
      · exact hkept hr
      · exact .dropped hmem (live_iff.2 (.inr hs))

theorem step_row (h : Coherent L) {e : Event} {r : ShadowPosition}
    (hr : r ∈ (stepShadow policy config L e).positions.rows) : StepRow policy config L e r := by
  cases e with
  | consider d source =>
    have hkept : r ∈ L.positions.rows → StepRow policy config L (.consider d source) r := fun hr => .kept hr nofun
    change r ∈ (L.considerEntry d source).positions.rows at hr
    unfold ShadowLedger.considerEntry at hr
    split at hr
    · exact hkept hr
    · split at hr
      · exact hkept hr
      · next hnew =>
        split at hr
        · exact hkept hr
        · rcases (Coherent.mem_assign L).1 hr with ⟨hr, -⟩ | rfl
          · exact hkept hr
          · rw [Bool.not_eq_true, Option.isSome_eq_false_iff, Option.isNone_iff_eq_none] at hnew
            exact .recorded (h.fresh hnew)
  | bar symbol b => exact step_row_bar h hr
  | forceClose symbol t price reason =>
    change r ∈ (L.forceClose config symbol t price reason).positions.rows at hr
    have h₁ : Coherent (L.forceOpen config symbol t price reason).1 := h.forceOpen symbol t price reason
    have hrow : ∀ q, q ∈ (L.forceOpen config symbol t price reason).1.positions.rows →
        StepRow policy config L (.forceClose symbol t price reason) q := fun q hq => mem_forceOpen h hq
    unfold ShadowLedger.forceClose at hr
    generalize L.forceOpen config symbol t price reason = forced at hr h₁ hrow
    obtain ⟨L₁, reason'⟩ := forced
    dsimp only at hr h₁ hrow
    split at hr
    · exact hrow r hr
    · next p hp =>
      obtain ⟨hmem, rfl, hs⟩ := h₁.lookup_pending.1 hp
      rcases (Coherent.mem_assign L₁).1 hr with ⟨hr, -⟩ | rfl
      · exact hrow r hr
      · -- the first part has made no pending record
        rcases (hrow p hmem).of_pending hs with hp | ⟨d, source, he⟩
        · exact .dropped hp (live_iff.2 (.inl hs))
        · cases he
  | restart => exact .kept ((h.file r).1 hr) nofun

end TalonX.Piv.Shadow
