import Mathlib.Order.Bounds.Basic
import TalonX.V2.BlockTrail
import TalonX.V2.Calls

/-!
# Due exits

What becomes of a position whose exit is due: it is settled at the first close of its window, held inside the window, or
given up under an account block. The loop treats the due positions one after the other, and none of them touches what
was decided about another.

- `ExitCandidate`, `findExit_some`: the search finds the first session with a close;
- `Apart`: a step that concerns one position; `Fate`: what became of it;
- `wp_settlePosition`: one due position; `due_exits_settled`: all of them.
-/

set_option autoImplicit false

namespace TalonX.V2

open Transact

variable {cal : Calendar} {cfg : V2Config} {s t u : Store}

/-! ## The window -/

/-- A session at which the position may be settled: its target, or one of the fall-forward sessions, up to `asOf`. -/
def ExitCandidate (cal : Calendar) (cfg : V2Config) (target asOf d : Date) : Prop :=
  d ≤ asOf ∧ (d = target ∨ ∃ k : ℕ, 1 ≤ k ∧ k ≤ cfg.exitFallforwardMaxSessions ∧ cal.addSessions target k = some d)

/-- Sessions are counted from the first one that is not before `d`. -/
theorem exists_anchor {d e : Date} {n : ℕ} (h : cal.addSessions d n = some e) :
    ∃ i f, cal.sessions[i]? = some f ∧ d ≤ f ∧ ∀ k : ℕ, cal.addSessions d k = cal.sessions[i + k]? := by
  cases hi : cal.sessions.idxOf? d with
  | some i =>
    obtain ⟨hlt, hget, -⟩ := List.idxOf?_eq_some_iff.1 hi
    exact ⟨i, d, List.getElem?_eq_some_iff.2 ⟨hlt, hget⟩, le_rfl, fun k => Calendar.addSessions_natCast hi⟩
  | none =>
    cases hnext : cal.nextSessionOnOrAfter d with
    | none =>
      unfold Calendar.addSessions at h
      rw [hi, hnext] at h
      cases h
    | some f =>
      have hle : d ≤ f := by
        have hfound := List.find?_some hnext
        simpa using hfound
      obtain ⟨i, hif, hget⟩ := Calendar.idxOf_of_mem (List.mem_of_find?_eq_some hnext)
      refine ⟨i, f, hget, hle, ?_⟩
      intro k
      rw [← Calendar.addSessions_natCast hif]
      simp [Calendar.addSessions, hi, hnext, hif]

theorem le_of_addSessions {d e : Date} {n : ℕ} (h : cal.addSessions d n = some e) : d ≤ e := by
  obtain ⟨i, f, hf, hle, hadd⟩ := exists_anchor h
  rw [hadd] at h
  exact hle.trans (Calendar.sessions_le_of_le hf h (Nat.le_add_right i n))

theorem addSessions_le {d e e' : Date} {j k : ℕ} (h : cal.addSessions d j = some e) (h' : cal.addSessions d k = some e')
    (hjk : j ≤ k) : e ≤ e' := by
  obtain ⟨i, f, -, -, hadd⟩ := exists_anchor h
  rw [hadd] at h h'
  exact Calendar.sessions_le_of_le h h' (Nat.add_le_add_left hjk i)

theorem ExitCandidate.target_le {target asOf d : Date} (h : ExitCandidate cal cfg target asOf d) : target ≤ d := by
  rcases h.2 with rfl | ⟨k, -, -, hk⟩
  · exact le_rfl
  · exact le_of_addSessions hk

/-- From a session, the candidates are the sessions of the window. -/
theorem exitCandidate_iff {target asOf lastFf d : Date} (ht : target ∈ cal.sessions)
    (hl : cal.addSessions target cfg.exitFallforwardMaxSessions = some lastFf) :
    ExitCandidate cal cfg target asOf d ↔ d ∈ cal.sessions ∧ target ≤ d ∧ d ≤ lastFf ∧ d ≤ asOf := by
  constructor
  · rintro ⟨has, rfl | ⟨k, -, hk, hd⟩⟩
    · exact ⟨ht, le_rfl, le_of_addSessions hl, has⟩
    · exact ⟨Calendar.mem_of_addSessions hd, le_of_addSessions hd, addSessions_le hd hl hk, has⟩
  · rintro ⟨hd, htd, hdl, has⟩
    obtain ⟨k, hk, hkd⟩ := Calendar.exists_addSessions ht hl hd htd hdl
    rcases Nat.eq_zero_or_pos k with rfl | hpos
    · obtain ⟨m, hm, hget⟩ := Calendar.idxOf_of_mem ht
      rw [Calendar.addSessions_natCast hm, Nat.add_zero, hget] at hkd
      exact ⟨has, .inl (Option.some.inj hkd).symm⟩
    · exact ⟨has, .inr ⟨k, hpos, hk, hkd⟩⟩

theorem findFallforward_some {price : Date → Option Bar} {target asOf d : Date} {px : Bar} {n k : ℕ}
    (h : findFallforward cal price target asOf k n = some (some (d, px))) :
    ∃ j, k ≤ j ∧ j < k + n ∧ cal.addSessions target j = some d ∧ d ≤ asOf ∧ price d = some px ∧
      ∀ i, k ≤ i → i < j → ∀ e, cal.addSessions target i = some e → price e = none := by
  induction n generalizing k with
  | zero => cases h
  | succ n ih =>
    unfold findFallforward at h
    split at h
    · cases h
    rename_i nxt hnxt
    split at h
    · cases h
    rename_i has
    split at h
    · rename_i px' hpx
      obtain ⟨rfl, rfl⟩ := Prod.mk.inj (Option.some.inj (Option.some.inj h))
      refine ⟨k, le_rfl, by omega, hnxt, not_lt.1 has, hpx, ?_⟩
      intro i hki hik
      omega
    · rename_i hnone
      obtain ⟨j, hkj, hjn, hd, hda, hpx, hbefore⟩ := ih h
      refine ⟨j, by omega, by omega, hd, hda, hpx, ?_⟩
      intro i hki hij e he
      rcases Nat.lt_or_eq_of_le hki with hlt | rfl
      · exact hbefore i hlt hij e he
      · rw [hnxt] at he
        rwa [← Option.some.inj he]

/-- The search finds the first candidate with a close. -/
theorem findExit_some {price : Date → Option Bar} {target asOf d : Date} {px : Bar} (hle : target ≤ asOf)
    (h : findExit cal cfg price target asOf = some (some (d, px))) :
    IsLeast {d | ExitCandidate cal cfg target asOf d ∧ (price d).isSome = true} d ∧ price d = some px := by
  unfold findExit at h
  split at h
  · rename_i px' hpx
    obtain ⟨rfl, rfl⟩ := Prod.mk.inj (Option.some.inj (Option.some.inj h))
    refine ⟨⟨⟨⟨hle, .inl rfl⟩, by rw [hpx]; rfl⟩, ?_⟩, hpx⟩
    rintro e ⟨he, -⟩
    exact he.target_le
  · rename_i hnone
    obtain ⟨j, hj, hjn, hd, hda, hpx, hbefore⟩ := findFallforward_some h
    refine ⟨⟨⟨⟨hda, .inr ⟨j, hj, by omega, hd⟩⟩, by rw [hpx]; rfl⟩, ?_⟩, hpx⟩
    rintro e ⟨⟨-, rfl | ⟨i, hi, -, he⟩⟩, hsome⟩
    · rw [hnone] at hsome
      cases hsome
    · rcases Nat.lt_or_ge i j with hlt | hge
      · rw [hbefore i hi hlt e he] at hsome
        cases hsome
      · exact addSessions_le hd he hge

/-! ## What one position is told apart by -/

/-- The settlements of an episode. -/
def Store.sells (s : Store) (e : EpisodeId) : ℕ := s.trades.countP fun t => t.action = .sell && t.episodeId = e

/-- The block is in the way of the account. -/
def ActiveBlock (s : Store) (k : Ops.BlockId) : Prop := ∃ b, s.blocks.getBlock k = some b ∧ b.status = .active

/-- What happens between the two ledgers concerns the position `p` alone. -/
structure Apart (p : Position) (s t : Store) : Prop where
  rows : ∀ q ∈ s.positions.rows, q.positionId ≠ p.positionId → q ∈ t.positions.rows
  kept : KeepsRows s t
  sells : ∀ e, e ≠ p.episodeId → t.sells e = s.sells e
  trail : ∀ pid, pid ≠ p.positionId → t.positionActionTrail pid = s.positionActionTrail pid
  active : ∀ k, ActiveBlock s k → ActiveBlock t k

theorem Position.Same.trans {p q r : Position} (h : p.Same q) (h' : q.Same r) : p.Same r := by
  unfold Position.Same at h h' ⊢
  rw [h, h']

theorem KeepsRows.trans (h : KeepsRows s t) (h' : KeepsRows t u) : KeepsRows s u := by
  intro p hp
  obtain ⟨q, hq, hpq⟩ := h' p hp
  obtain ⟨r, hr, hqr⟩ := h q hq
  exact ⟨r, hr, hpq.trans hqr⟩

theorem Apart.refl (p : Position) (s : Store) : Apart p s s :=
  ⟨fun _ hq _ => hq, .of_eq rfl, fun _ _ => rfl, fun _ _ => rfl, fun _ h => h⟩

theorem Apart.trans {p : Position} (h : Apart p s t) (h' : Apart p t u) : Apart p s u where
  rows q hq hne := h'.rows q (h.rows q hq hne) hne
  kept := h.kept.trans h'.kept
  sells e he := (h'.sells e he).trans (h.sells e he)
  trail pid hne := (h'.trail pid hne).trans (h.trail pid hne)
  active k hk := h'.active k (h.active k hk)

/-! ## The calls -/

theorem positionActionTrail_insert_of_ne {tr : Table TrailRow.key} {r : TrailRow} {pid : ℕ} (h : pid ≠ r.positionId) :
    (tr.insertOrIgnore r).rows.filter (fun r => r.positionId = pid) = tr.rows.filter fun r => r.positionId = pid := by
  rw [Table.rows_insertOrIgnore]
  split
  · rw [List.filter_append, List.filter_cons_of_neg (by simpa using Ne.symm h), List.filter_nil, List.append_nil]
  · rfl

theorem positionActionTrail_clear_of_ne {pid pid' : ℕ} (h : pid' ≠ pid) :
    (s.clearBlockedActionRows pid).positionActionTrail pid' = s.positionActionTrail pid' := by
  show (s.trail.rows.filter _).filter _ = s.trail.rows.filter _
  rw [List.filter_filter]
  apply List.filter_congr
  intro r _
  by_cases hid : r.positionId = pid' <;> simp [hid, h]

theorem positionActionTrail_applyActions_of_ne {pid pid' : ℕ} (h : pid' ≠ pid) (st : TrailStatus)
    (evs : List CorporateActionEvent) (s : Store) :
    (applyActions pid st s evs).positionActionTrail pid' = s.positionActionTrail pid' := by
  induction evs generalizing s with
  | nil => rfl
  | cons ev evs ih =>
    rw [applyActions_cons, ih]
    unfold Store.applyPositionAction
    split
    · rfl
    · exact positionActionTrail_insert_of_ne h

/-- Only the trail is touched, and only the rows of one position. -/
structure TrailOnly (pid : ℕ) (s t : Store) : Prop where
  frame : ∃ tr, t = { s with trail := tr }
  others : ∀ pid', pid' ≠ pid → t.positionActionTrail pid' = s.positionActionTrail pid'

theorem trailOnly_persist {pid : ℕ} (key : ActionKey) (code : VerdictCode) :
    TrailOnly pid s ((s.clearBlockedActionRows pid).recordBlockedAction pid key code) where
  frame := ⟨_, rfl⟩
  others _ hne := (positionActionTrail_insert_of_ne hne).trans (positionActionTrail_clear_of_ne hne)

theorem frame_applyActions (pid : ℕ) (st : TrailStatus) (evs : List CorporateActionEvent) (s : Store) :
    ∃ tr, applyActions pid st s evs = { s with trail := tr } := by
  induction evs generalizing s with
  | nil => exact ⟨s.trail, rfl⟩
  | cons ev evs ih =>
    rw [applyActions_cons]
    obtain ⟨tr, htr⟩ := ih (s.applyPositionAction pid ev st).2
    rw [htr]
    unfold Store.applyPositionAction
    split
    · exact ⟨tr, rfl⟩
    · exact ⟨tr, rfl⟩

theorem trailOnly_applyAssessed {row : Position} (a : Assessed) :
    TrailOnly row.positionId s (applyAssessed row a s) where
  frame := by
    unfold applyAssessed
    obtain ⟨tr, htr⟩ := frame_applyActions row.positionId .reflectedInEntryBasis a.reflected
      (s.clearBlockedActionRows row.positionId)
    obtain ⟨tr', htr'⟩ := frame_applyActions row.positionId .applied a.applicable
      (applyActions row.positionId .reflectedInEntryBasis (s.clearBlockedActionRows row.positionId) a.reflected)
    obtain ⟨tr'', htr''⟩ := frame_applyActions row.positionId .dividendObserved
      (a.dividends.filter fun e => e.exDate.any (row.entrySession < ·))
      (applyActions row.positionId .applied
        (applyActions row.positionId .reflectedInEntryBasis (s.clearBlockedActionRows row.positionId) a.reflected)
        a.applicable)
    refine ⟨tr'', htr''.trans ?_⟩
    rw [htr', htr]
    rfl
  others pid' hne := by
    unfold applyAssessed
    rw [positionActionTrail_applyActions_of_ne hne, positionActionTrail_applyActions_of_ne hne,
      positionActionTrail_applyActions_of_ne hne, positionActionTrail_clear_of_ne hne]

theorem TrailOnly.refl (pid : ℕ) (s : Store) : TrailOnly pid s s := ⟨⟨s.trail, rfl⟩, fun _ _ => rfl⟩

theorem TrailOnly.apart {p : Position} (h : TrailOnly p.positionId s t) : Apart p s t := by
  obtain ⟨tr, rfl⟩ := h.frame
  exact ⟨fun _ hq _ => hq, .of_eq rfl, fun _ _ => rfl, h.others, fun _ hk => hk⟩

/-- What an assessment does; when it holds, nothing is written. -/
theorem wp_assessPosition_trailOnly (evidence : Evidence) (pid : ℕ) (asOf : Date) (fill : Option ExitFill) :
    wp (keepsInv fun _ => True) (assessPosition evidence pid asOf fill)
      (fun v t => TrailOnly pid s t ∧ (v.settleOk = false → v.status ≠ .block → t = s)) (fun _ => True) s := by
  have hstay : True ∧ True := ⟨trivial, trivial⟩
  have hclear : ∀ {st : VerdictStatus} {ds : List CorporateActionEvent}, st = .clear ∨ st = .adjusted →
      (Verdict.mk st none ds).settleOk = false → st ≠ .block → False := by
    rintro st ds (rfl | rfl) hno -
    · cases hno
    · cases hno
  refine wp_bind (wp_read (fun _ => trivial) ?_ fun _ => hstay)
  cases hrow : s.positionById pid with
  | none => exact ⟨.refl pid s, fun _ _ => rfl⟩
  | some row =>
    obtain ⟨-, hid⟩ := SeqTable.byId_eq_some.1 hrow
    dsimp only
    split
    · exact ⟨.refl pid s, fun _ _ => rfl⟩
    have hpersist : ∀ b, (Sight.of evidence row asOf fill s).assess = .error b →
        wp (keepsInv fun _ => True) (persistBlock row.positionId b)
          (fun v t => TrailOnly pid s t ∧ (v.settleOk = false → v.status ≠ .block → t = s)) (fun _ => True) s := by
      intro b hb
      unfold persistBlock
      cases hkey : b.key with
      | none => exact ⟨.refl pid s, fun _ _ => rfl⟩
      | some key =>
        refine wp_bind (wp_write (fun _ => trivial) ⟨hid ▸ trailOnly_persist key b.code, ?_⟩ fun _ => hstay)
        intro hno hnb
        have hhold : b.status = .hold := by
          cases hst : b.status with
          | hold => rfl
          | block => exact absurd hst hnb
          | clear => simp [Verdict.settleOk, hst] at hno
          | adjusted => simp [Verdict.settleOk, hst] at hno
        rw [key_of_hold hb hhold] at hkey
        cases hkey
    refine wp_bind (wp_read (fun _ => trivial) ?_ fun _ => hstay)
    split
    · rename_i b hb
      apply hpersist
      unfold Sight.assess Sight.of
      rw [hb]
    rename_i a ha
    refine wp_bind (wp_read (fun _ => trivial) ?_ fun _ => hstay)
    split
    · rename_i b hb
      apply hpersist
      unfold Sight.assess Sight.of
      rw [ha]
      exact hb
    · refine wp_bind (wp_write (fun _ => trivial) (wp_bind (wp_read (fun _ => trivial) ?_ fun _ => hstay))
        fun _ => hstay)
      refine ⟨hid ▸ trailOnly_applyAssessed a, fun hno hnb => (hclear ?_ hno hnb).elim⟩
      split
      · exact .inr rfl
      · exact .inl rfl

/-! ## One due position -/

variable {price : PriceLookup} {asOf : Date} {p : Position}

/-- What has become of a due position. -/
inductive Fate (cal : Calendar) (cfg : V2Config) (price : PriceLookup) (asOf : Date) (p : Position) (s t : Store) : Prop
  /-- Settled, once, at the first close of its window. -/
  | settled {d : Date} {px : Bar} {x : ExitFields} :
      IsLeast {d | ExitCandidate cal cfg p.targetExitSession asOf d ∧ (price p.symbol d).isSome = true} d →
      price p.symbol d = some px → x.exitSession = d → x.exitPrice = px.closePrice.1 →
      { p with status := .closed, exit := some x } ∈ t.positions.rows →
      t.sells p.episodeId = s.sells p.episodeId + 1 → Fate cal cfg price asOf p s t
  /-- Held, inside its window. -/
  | held {lastFf : Date} : cal.addSessions p.targetExitSession cfg.exitFallforwardMaxSessions = some lastFf →
      asOf < lastFf → p ∈ t.positions.rows → t.positionActionTrail p.positionId = s.positionActionTrail p.positionId →
      t.sells p.episodeId = s.sells p.episodeId → Fate cal cfg price asOf p s t
  /-- Given up, and the account is blocked. -/
  | unresolved : { p with status := .exitUnresolved } ∈ t.positions.rows →
      ActiveBlock t (cfg.campaignId, .exitUnresolved, toString p.positionId) →
      t.sells p.episodeId = s.sells p.episodeId → Fate cal cfg price asOf p s t

/-- A later step that concerns another position leaves the fate as it is. -/
theorem Fate.apart (h : Fate cal cfg price asOf p s t) {q : Position} (ha : Apart q t u)
    (hid : p.positionId ≠ q.positionId) (he : p.episodeId ≠ q.episodeId) : Fate cal cfg price asOf p s u := by
  cases h with
  | settled hleast hpx hd hprice hrow hsell =>
    exact .settled hleast hpx hd hprice (ha.rows _ hrow hid) ((ha.sells _ he).trans hsell)
  | held hl hlt hrow htrail hsell =>
    exact .held hl hlt (ha.rows p hrow hid) ((ha.trail _ hid).trans htrail) ((ha.sells _ he).trans hsell)
  | unresolved hrow hblock hsell =>
    exact .unresolved (ha.rows _ hrow hid) (ha.active _ hblock) ((ha.sells _ he).trans hsell)

/-- What was written to the trail before a settlement or a giving up does not matter to the fate. -/
theorem TrailOnly.fate (h : TrailOnly p.positionId s t)
    (hfate : Fate cal cfg price asOf p t u) (hnot : t = s ∨ p ∉ u.positions.rows) : Fate cal cfg price asOf p s u := by
  obtain ⟨tr, rfl⟩ := h.frame
  cases hfate with
  | settled hleast hpx hd hprice hrow hsell => exact .settled hleast hpx hd hprice hrow hsell
  | held hl hlt hrow htrail hsell =>
    rcases hnot with heq | hnot
    · rw [heq] at htrail
      exact .held hl hlt hrow htrail hsell
    · exact absurd hrow hnot
  | unresolved hrow hblock hsell => exact .unresolved hrow hblock hsell

/-- Changing the row of one open position. -/
theorem rows_update_of_open {f : Position → Position} {rows : List Position} (hp : p ∈ s.positions.rows)
    (hopen : p.status = .open) (h : rows = updateRows (Store.openAt p.positionId) f s.positions.rows) :
    f p ∈ rows ∧ ∀ q ∈ s.positions.rows, q.positionId ≠ p.positionId → q ∈ rows := by
  rw [h]
  constructor
  · apply mem_updateRows.2
    exact ⟨p, hp, by rw [if_pos (Store.openAt_iff.2 ⟨rfl, hopen⟩)]⟩
  · intro q hq hne
    apply mem_updateRows.2
    refine ⟨q, hq, if_neg ?_⟩
    intro hat
    exact hne (Store.openAt_iff.1 hat).1

theorem active_recordAccountBlock {k : Ops.BlockId} {accountId reference : String} {reason : Ops.BlockReason}
    (h : ActiveBlock s k) : ActiveBlock (s.recordAccountBlock accountId reason reference) k := by
  by_cases hk : k = (accountId, reason, reference)
  · rw [hk]
    exact Ops.BlockTables.active_recordBlock
  · obtain ⟨b, hb, hst⟩ := h
    exact ⟨b, (Ops.BlockTables.getBlock_recordBlock_of_ne hk).trans hb, hst⟩

/-- Giving up an open position. -/
theorem markExitUnresolved_open (hp : p ∈ s.positions.rows) (hopen : p.status = .open)
    (h : s.markExitUnresolved cfg.campaignId p.positionId = some t) :
    Apart p s t ∧ Fate cal cfg price asOf p s t ∧ p ∉ t.positions.rows := by
  let s' : Store := { s with
    positions := s.positions.update (Store.openAt p.positionId)
      (fun p => { p with status := .exitUnresolved }) (fun _ => rfl) (fun _ => rfl) }
  obtain ⟨hrow, hothers⟩ := rows_update_of_open (f := fun p => { p with status := .exitUnresolved }) hp hopen
    (rfl : s'.positions.rows = _)
  have hbyId : s'.positionById p.positionId = some { p with status := .exitUnresolved } :=
    SeqTable.byId_eq_some.2 ⟨hrow, rfl⟩
  have ht : t = s'.recordAccountBlock cfg.campaignId .exitUnresolved (toString p.positionId) := by
    unfold Store.markExitUnresolved at h
    dsimp only at h
    rw [hbyId] at h
    exact (Option.some.inj h).symm
  subst ht
  have hkept : KeepsRows s (s'.recordAccountBlock cfg.campaignId .exitUnresolved (toString p.positionId)) :=
    .of_update rfl fun _ => rfl
  refine ⟨⟨hothers, hkept, fun _ _ => rfl, fun _ _ => rfl, fun k hk => active_recordAccountBlock (s := s') hk⟩,
    .unresolved hrow Ops.BlockTables.active_recordBlock rfl, ?_⟩
  intro hmem
  have hsame := s'.positions.eq_of_id hmem hrow rfl
  have hstatus := congrArg Position.status hsame
  rw [hopen] at hstatus
  cases hstatus

/-- Closing an open position: a block in its trail refuses, or it is settled. -/
theorem closePosition_open {feeFn : FeeFn} {es : Date} {px : ℚ} {provenance : Option Provenance}
    {dividends : List CorporateActionEvent} {o : ExitOutcome} (hp : p ∈ s.positions.rows) (hopen : p.status = .open)
    (h : closePosition cal cfg feeFn s p px es provenance dividends = some (o, t)) :
    (o.settled = false ∧ o.blockedReason.isSome = true ∧ t = s) ∨ o.settled = true ∧
      ∃ x : ExitFields, x.exitSession = es ∧ x.exitPrice = px ∧ t.positions.rows = updateRows
        (Store.openAt p.positionId) (fun p => { p with status := .closed, exit := some x }) s.positions.rows := by
  have hbyId : s.positionById p.positionId = some p := SeqTable.byId_eq_some.2 ⟨hp, rfl⟩
  unfold closePosition at h
  rw [hbyId] at h
  dsimp only at h
  split at h
  · obtain ⟨rfl, rfl⟩ := Prod.mk.inj (Option.some.inj h)
    exact .inl ⟨rfl, rfl, rfl⟩
  split at h
  · cases h
  rename_i held _
  split at h
  · rename_i s1 hclose
    have hfst := congrArg Prod.fst hclose
    rw [Store.closePosition_fst.2 ⟨p, hp, rfl, hopen⟩] at hfst
    cases hfst
  · rename_i s1 hclose
    obtain ⟨s2, hs2, heq⟩ := Option.map_eq_some_iff.1 h
    obtain ⟨rfl, rfl⟩ := Prod.mk.inj heq
    let econ := computeExitEconomics (s.effectiveSharesExact p.positionId) px p.positionCost feeFn
    refine .inr ⟨rfl, ⟨es, px, econ.realizedPnlUsd, econ.realizedPnlPct, held, econ.exitFee, provenance⟩, rfl, rfl, ?_⟩
    unfold recordExit at hs2
    dsimp only at hs2
    split at hs2
    · cases hs2
    obtain ⟨ents, new, -, -, rfl⟩ := accrueDividends_cases hs2
    obtain rfl := congrArg Prod.snd hclose
    rfl

theorem sells_append {trades : List Trade} {tr : Trade} (h : t.trades = trades ++ [tr]) (hs : s.trades = trades)
    (hsell : tr.action = .sell) (e : EpisodeId) : t.sells e = s.sells e + if tr.episodeId = e then 1 else 0 := by
  unfold Store.sells
  rw [h, hs, List.countP_append]
  simp [hsell]

/-- The settlement at `d`. -/
theorem closePosition_fate {d : Date} {bar : Bar} {provenance : Option Provenance}
    {dividends : List CorporateActionEvent} {o : ExitOutcome} (hp : p ∈ s.positions.rows) (hopen : p.status = .open)
    (hleast : IsLeast {d | ExitCandidate cal cfg p.targetExitSession asOf d ∧ (price p.symbol d).isSome = true} d)
    (hbar : price p.symbol d = some bar)
    (h : closePosition cal cfg zeroFee s p bar.closePrice.1 d provenance dividends = some (o, t))
    (hsettled : o.settled = true) : Apart p s t ∧ Fate cal cfg price asOf p s t ∧ p ∉ t.positions.rows := by
  rcases closePosition_open hp hopen h with ⟨hno, -⟩ | ⟨-, x, hxd, hxp, hrows⟩
  · rw [hsettled] at hno
    cases hno
  rcases closePosition_cases h with ⟨hno, -⟩ | ⟨row, hs⟩
  · rw [hsettled] at hno
    cases hno
  obtain rfl : row = p := s.positions.eq_of_id hs.mem hp hs.positionId
  obtain ⟨hrow, hothers⟩ := rows_update_of_open hp hopen hrows
  obtain ⟨tr, hsell, hep, htrades⟩ := hs.trades
  have hsells := sells_append htrades rfl hsell
  have htrail : t.trail = s.trail := by rw [hs.frame]
  have hblocks : t.blocks = s.blocks := by rw [hs.frame]
  refine ⟨⟨hothers, .of_update hrows fun _ => rfl, ?_, ?_, ?_⟩, ?_, ?_⟩
  · intro e he
    rw [hsells, hep, if_neg (Ne.symm he)]
    rfl
  · intro pid _
    unfold Store.positionActionTrail
    rw [htrail]
  · intro k hk
    unfold ActiveBlock at hk ⊢
    rw [hblocks]
    exact hk
  · refine .settled hleast hbar hxd hxp hrow ?_
    rw [hsells, hep, if_pos rfl]
  · intro hmem
    have hsame := t.positions.eq_of_id hmem hrow rfl
    have hstatus := congrArg Position.status hsame
    rw [hopen] at hstatus
    cases hstatus

theorem wp_markUnresolved_fate (why : UnresolvedReason) (hp : p ∈ s.positions.rows) (hopen : p.status = .open) :
    wp (keepsInv fun _ => True) (markUnresolved cfg p.positionId why)
      (fun _ t => Apart p s t ∧ Fate cal cfg price asOf p s t ∧ p ∉ t.positions.rows) (fun _ => True) s := by
  refine wp_txn (fun r t hr => ⟨fun _ => trivial, ?_⟩) (fun _ => ⟨fun _ => trivial, trivial⟩)
    fun _ => ⟨trivial, trivial⟩
  obtain ⟨t', ht, heq⟩ := Option.map_eq_some_iff.1 hr
  obtain ⟨-, rfl⟩ := Prod.mk.inj heq
  exact markExitUnresolved_open hp hopen ht

theorem wp_settleAt_fate {d : Date} {bar : Bar} {divs : List CorporateActionEvent} {exits : List ExitRecord}
    (hp : p ∈ s.positions.rows) (hopen : p.status = .open)
    (hleast : IsLeast {d | ExitCandidate cal cfg p.targetExitSession asOf d ∧ (price p.symbol d).isSome = true} d)
    (hbar : price p.symbol d = some bar) :
    wp (keepsInv fun _ => True) (settleAt cal cfg p d bar divs exits)
      (fun _ t => Apart p s t ∧ Fate cal cfg price asOf p s t ∧ p ∉ t.positions.rows) (fun _ => True) s := by
  refine wp_bind (wp_txn (fun o t hr => ⟨fun _ => trivial, ?_⟩) (fun _ => ⟨fun _ => trivial, trivial⟩)
    fun _ => ⟨trivial, trivial⟩)
  split
  · rename_i hsettled
    exact closePosition_fate hp hopen hleast hbar hr hsettled
  · rename_i hno
    rcases closePosition_open hp hopen hr with ⟨-, hblocked, rfl⟩ | ⟨hyes, -⟩
    · rw [if_pos hblocked]
      exact wp_then (wp_markUnresolved_fate _ hp hopen) fun _ _ hfate => hfate
    · exact absurd hyes hno

theorem wp_settlePosition {guard : Option Evidence} {exits : List ExitRecord} (hp : p ∈ s.positions.rows)
    (hopen : p.status = .open) (hdue : p.targetExitSession ≤ asOf) :
    wp (keepsInv fun _ => True) (settlePosition cal cfg guard price asOf exits p)
      (fun _ t => Apart p s t ∧ Fate cal cfg price asOf p s t) (fun _ => True) s := by
  have hstay : True ∧ True := ⟨trivial, trivial⟩
  refine wp_bind (wp_read (fun _ => trivial) (wp_bind (wp_ofOption (fun found hfound => ?_) fun _ => trivial))
    fun _ => hstay)
  split
  · -- no close up to now
    refine wp_bind (wp_ofOption (fun lastFf hl => ?_) fun _ => trivial)
    split
    · exact wp_then (wp_markUnresolved_fate _ hp hopen) fun _ _ hfate => ⟨hfate.1, hfate.2.1⟩
    · rename_i hlt
      exact ⟨.refl p s, .held hl (not_le.1 hlt) hp rfl rfl⟩
  rename_i d bar
  obtain ⟨hleast, hbar⟩ := findExit_some hdue hfound
  split
  · exact wp_mono (fun _ _ hfate => ⟨hfate.1, hfate.2.1⟩) (fun _ h => h) (wp_settleAt_fate hp hopen hleast hbar)
  · refine wp_then (wp_assessPosition_trailOnly _ _ _ _) fun v t hv => ?_
    obtain ⟨htrail, hkept⟩ := hv
    have hpt : p ∈ t.positions.rows := by
      obtain ⟨tr, rfl⟩ := htrail.frame
      exact hp
    have after : ∀ {u : Store}, Apart p t u ∧ Fate cal cfg price asOf p t u ∧ p ∉ u.positions.rows →
        Apart p s u ∧ Fate cal cfg price asOf p s u :=
      fun hfate => ⟨htrail.apart.trans hfate.1, htrail.fate hfate.2.1 (.inr hfate.2.2)⟩
    split
    · exact wp_mono (fun _ _ => after) (fun _ h => h) (wp_settleAt_fate hpt hopen hleast hbar)
    · rename_i hno
      refine wp_bind (wp_ofOption (fun lastFf hl => ?_) fun _ => trivial)
      split
      · exact wp_then (wp_markUnresolved_fate _ hpt hopen) fun _ _ hfate => after hfate
      · rename_i hhold
        push Not at hhold
        obtain ⟨hnb, hlt⟩ := hhold
        obtain rfl := hkept (by simpa using hno) hnb
        exact ⟨.refl p t, .held hl hlt hp rfl rfl⟩

/-! ## All due positions -/

theorem mem_dueExits : p ∈ dueExits s asOf ↔ p ∈ s.positions.rows ∧ p.status = .open ∧ p.targetExitSession ≤ asOf := by
  simp only [dueExits, Store.openPositions, List.mem_filter, mem_orderByDateText, decide_eq_true_eq, and_assoc]

theorem nodup_dueExits (s : Store) (asOf : Date) : (dueExits s asOf).Nodup := by
  have hperm : (orderByDateText (fun p : Position => (p.entrySession, p.symbol))
      (s.positions.rows.filter (·.status = .open))).Perm (s.positions.rows.filter (·.status = .open)) :=
    List.perm_insertionSort _ _
  exact (hperm.nodup_iff.2 (s.positions.nodup.filter _)).filter _

/-- In the loop, with the positions of `rest` still to come. -/
structure ExitLoop (cal : Calendar) (cfg : V2Config) (price : PriceLookup) (asOf : Date) (s : Store)
    (rest : List Position) (t : Store) : Prop where
  treated : ∀ p ∈ dueExits s asOf, p ∉ rest → Fate cal cfg price asOf p s t
  untouched : ∀ q ∈ s.positions.rows, q ∉ dueExits s asOf ∨ q ∈ rest → q ∈ t.positions.rows
  coming : ∀ p ∈ rest, p ∈ dueExits s asOf ∧ t.positionActionTrail p.positionId = s.positionActionTrail p.positionId ∧
    t.sells p.episodeId = s.sells p.episodeId
  nodup : rest.Nodup
  kept : KeepsRows s t

/-- The fate since a ledger that tells the same about the position. -/
theorem Fate.since (h : Fate cal cfg price asOf p t u)
    (htrail : t.positionActionTrail p.positionId = s.positionActionTrail p.positionId)
    (hsell : t.sells p.episodeId = s.sells p.episodeId) : Fate cal cfg price asOf p s u := by
  cases h with
  | settled hleast hpx hd hprice hrow hsold => exact .settled hleast hpx hd hprice hrow (hsold.trans (by rw [hsell]))
  | held hl hlt hrow htr hsold => exact .held hl hlt hrow (htr.trans htrail) (hsold.trans hsell)
  | unresolved hrow hblock hsold => exact .unresolved hrow hblock (hsold.trans hsell)

theorem ExitLoop.step {rest : List Position} (h : ExitLoop cal cfg price asOf s (p :: rest) t) (ha : Apart p t u)
    (hfate : Fate cal cfg price asOf p t u) : ExitLoop cal cfg price asOf s rest u := by
  obtain ⟨hpdue, hptrail, hpsell⟩ := h.coming p List.mem_cons_self
  obtain ⟨hnot, hnodup⟩ := List.nodup_cons.1 h.nodup
  have hp := (mem_dueExits.1 hpdue).1
  have hid : ∀ q ∈ s.positions.rows, q ≠ p → q.positionId ≠ p.positionId ∧ q.episodeId ≠ p.episodeId := by
    intro q hq hne
    exact ⟨fun heq => hne (s.positions.eq_of_id hq hp heq), fun heq => hne (s.positions.eq_of_key hq hp heq)⟩
  constructor
  case treated =>
    intro q hq hqrest
    by_cases hqp : q = p
    · rw [hqp]
      exact hfate.since hptrail hpsell
    · obtain ⟨hne, hep⟩ := hid q (mem_dueExits.1 hq).1 hqp
      have hbefore := h.treated q hq fun hmem => (List.mem_cons.1 hmem).elim hqp hqrest
      exact hbefore.apart ha hne hep
  case untouched =>
    intro q hq hside
    have hqp : q ≠ p := by
      rintro rfl
      exact hside.elim (fun hno => hno hpdue) hnot
    exact ha.rows q (h.untouched q hq (hside.imp_right (List.mem_cons_of_mem p))) (hid q hq hqp).1
  case coming =>
    intro q hq
    obtain ⟨hqdue, hqtrail, hqsell⟩ := h.coming q (List.mem_cons_of_mem p hq)
    have hqp : q ≠ p := fun heq => hnot (heq ▸ hq)
    obtain ⟨hne, hep⟩ := hid q (mem_dueExits.1 hqdue).1 hqp
    exact ⟨hqdue, (ha.trail _ hne).trans hqtrail, (ha.sells _ hep).trans hqsell⟩
  case nodup => exact hnodup
  case kept => exact h.kept.trans ha.kept

theorem wp_settleDueExits (guard : Option Evidence) :
    wp (keepsInv fun _ => True) (settleDueExits cal cfg guard price asOf)
      (fun _ t => ExitLoop cal cfg price asOf s [] t) (fun _ => True) s := by
  refine wp_bind (wp_read (fun _ => trivial) ?_ fun _ => ⟨trivial, trivial⟩)
  refine wp_foldEach (fun rest _ t => ExitLoop cal cfg price asOf s rest t) (fun p rest exits t ht => ?_) _ ?_
  · obtain ⟨hdue, -, -⟩ := ht.coming p List.mem_cons_self
    obtain ⟨hp, hopen, hle⟩ := mem_dueExits.1 hdue
    have hpt := ht.untouched p hp (.inr List.mem_cons_self)
    exact wp_mono (fun _ _ hfate => ht.step hfate.1 hfate.2) (fun _ h => h) (wp_settlePosition hpt hopen hle)
  · constructor
    case treated => exact fun _ hp hnot => absurd hp hnot
    case untouched => exact fun _ hq _ => hq
    case coming => exact fun _ hp => ⟨hp, rfl, rfl⟩
    case nodup => exact nodup_dueExits s asOf
    case kept => exact .of_eq rfl

/-- Still open, so inside the window. -/
def InsideWindow (cal : Calendar) (cfg : V2Config) (asOf : Date) (p : Position) : Prop :=
  asOf < p.targetExitSession ∨
    ∃ lastFf, cal.addSessions p.targetExitSession cfg.exitFallforwardMaxSessions = some lastFf ∧ asOf < lastFf

/-- What the loop leaves of any position. -/
theorem ExitLoop.of_row (h : ExitLoop cal cfg price asOf s [] t) {q : Position} (hq : q ∈ t.positions.rows) :
    ∃ p ∈ s.positions.rows, q.positionId = p.positionId ∧ p.targetExitSession = q.targetExitSession ∧
      ((p.status = .open ∧ p.targetExitSession ≤ asOf ∧ Fate cal cfg price asOf p s t) ∨
        ¬ (p.status = .open ∧ p.targetExitSession ≤ asOf) ∧ q = p) := by
  obtain ⟨p, hp, hkept⟩ := h.kept q hq
  have hsame : q = { p with status := q.status, exit := q.exit } := hkept
  have hid : q.positionId = p.positionId := by rw [hsame]
  refine ⟨p, hp, hid, by rw [hsame], ?_⟩
  by_cases hdue : p.status = .open ∧ p.targetExitSession ≤ asOf
  · exact .inl ⟨hdue.1, hdue.2, h.treated p (mem_dueExits.2 ⟨hp, hdue⟩) List.not_mem_nil⟩
  · have hpt := h.untouched p hp (.inl fun hmem => hdue (mem_dueExits.1 hmem).2)
    exact .inr ⟨hdue, t.positions.eq_of_id hq hpt hid⟩

theorem due_exits_settled (cal : Calendar) (cfg : V2Config) (guard : Option Evidence) (price : PriceLookup)
    (asOf : Date) (s s' : Store) (es : List (Event Call Store)) (exits : List ExitRecord)
    (h : Exec (settleDueExits cal cfg guard price asOf) s es s' (.done exits)) :
    (∀ q ∈ s'.positions.rows, q.status = .open → InsideWindow cal cfg asOf q) ∧
      (∀ p ∈ s.positions.rows, p.status = .open → p.targetExitSession ≤ asOf → Fate cal cfg price asOf p s s') ∧
      (∀ p ∈ s.positions.rows, ¬ (p.status = .open ∧ p.targetExitSession ≤ asOf) → p ∈ s'.positions.rows) ∧
      ∀ p ∈ s.positions.rows, p.status = .open → ∀ q ∈ s'.positions.rows, q.positionId = p.positionId →
        q.status = .closed → ∃ x, q.exit = some x ∧ p.targetExitSession ≤ x.exitSession := by
  have hend : ExitLoop cal cfg price asOf s [] s' :=
    (wp_sound h (wp_settleDueExits guard) fun _ _ => ⟨fun _ => trivial, fun _ => trivial⟩).2
  have hrow : ∀ {q r : Position}, q ∈ s'.positions.rows → r ∈ s'.positions.rows →
      q.positionId = r.positionId → q = r := fun hq hr hid => s'.positions.eq_of_id hq hr hid
  refine ⟨?_, ?_, ?_, ?_⟩
  · intro q hq hopen
    obtain ⟨p, hp, hid, htarget, ⟨-, -, hfate⟩ | ⟨hnot, rfl⟩⟩ := hend.of_row hq
    · cases hfate with
      | settled _ _ _ _ hr _ =>
        rw [hrow hq hr hid] at hopen
        cases hopen
      | held hl hlt _ _ _ => exact .inr ⟨_, htarget ▸ hl, hlt⟩
      | unresolved hr _ _ =>
        rw [hrow hq hr hid] at hopen
        cases hopen
    · exact .inl (not_le.1 fun hle => hnot ⟨hopen, hle⟩)
  · exact fun p hp hopen hle => hend.treated p (mem_dueExits.2 ⟨hp, hopen, hle⟩) List.not_mem_nil
  · exact fun p hp hnot => hend.untouched p hp (.inl fun hmem => hnot (mem_dueExits.1 hmem).2)
  · intro p hp hopen q hq hid hclosed
    by_cases hle : p.targetExitSession ≤ asOf
    · cases hend.treated p (mem_dueExits.2 ⟨hp, hopen, hle⟩) List.not_mem_nil with
      | settled hleast _ hd _ hr _ =>
        refine ⟨_, by rw [hrow hq hr hid], ?_⟩
        rw [hd]
        exact hleast.1.1.target_le
      | held _ _ hr _ _ =>
        rw [hrow hq hr hid, hopen] at hclosed
        cases hclosed
      | unresolved hr _ _ =>
        rw [hrow hq hr hid] at hclosed
        cases hclosed
    · have hpt := hend.untouched p hp (.inl fun hmem => hle (mem_dueExits.1 hmem).2.2)
      rw [hrow hq hpt hid, hopen] at hclosed
      cases hclosed

/-- A close of day 45 alone. -/
def closeOf45 : PriceLookup := fun _ d =>
  if d = 45 then some ⟨45, ⟨50, by norm_num⟩, ⟨50, by norm_num⟩, 100000, none⟩ else none

/-- The exit of day 44 has no close, and the position is settled at that of day 45. -/
theorem due_exits_settled_sample :
    let s := (exec (settleDueExits (.weekdays 100) {} (some twoListings) closeOf45 46) [] nineSharesStore).2.1
    (∀ q ∈ s.positions.rows, q.status = .closed) ∧ s.sells nineShares.episodeId = 1 ∧
      Fate (.weekdays 100) {} closeOf45 46 nineShares nineSharesStore s := by
  intro s
  let r := exec (settleDueExits (.weekdays 100) {} (some twoListings) closeOf45 46) [] nineSharesStore
  have hexec := exec_sound (settleDueExits (.weekdays 100) {} (some twoListings) closeOf45 46) [] nineSharesStore
  have hcheck : r.2.2.returned (fun _ => true) = true := by decide +kernel
  obtain ⟨exits, hdone, -⟩ := Outcome.exists_of_returned hcheck
  rw [hdone] at hexec
  refine ⟨by decide +kernel, by decide +kernel, ?_⟩
  exact (due_exits_settled (.weekdays 100) {} (some twoListings) closeOf45 46 nineSharesStore s _ exits hexec).2.1
    nineShares (List.mem_singleton_self _) rfl (by decide)

end TalonX.V2
