import Mathlib.Data.List.TakeWhile
import Mathlib.Order.Bounds.Basic
import TalonX.V2.ClusterOrder

/-!
# What the detector detects

The scan cuts blocks out of the records in filing order. Every block opens a window, has enough owners and makes one
episode (`BackedBy`). A record that is skipped opens a window without a second owner, so of two owners that file close
to each other at least one is in a block.

- `Blocks`: consecutive blocks of a list, in its order;
- `sessionOrdinal_mono`: later filing dates have later ordinals, although a weekend has that of the next session;
- `scan_blocks`: the blocks of one scan; `detector_spec`: those of an issuer.
-/

set_option autoImplicit false

namespace TalonX.V2

open Transact

variable {cal : Calendar} {cfg : V2Config}

/-! ## Blocks -/

/-- The lists are disjoint blocks of the first one, in its order; what lies between them is left out. -/
inductive Blocks {α : Type} : List α → List (List α) → Prop
  | nil : Blocks [] []
  | skip {x : α} {xs : List α} {ws : List (List α)} : Blocks xs ws → Blocks (x :: xs) ws
  | take {w xs : List α} {ws : List (List α)} : w ≠ [] → Blocks xs ws → Blocks (w ++ xs) (w :: ws)

theorem Blocks.sublist {α : Type} {xs : List α} {ws : List (List α)} (h : Blocks xs ws) : ws.flatten.Sublist xs := by
  induction h with
  | nil => exact .slnil
  | skip _ ih => exact ih.cons _
  | take _ _ ih =>
    rw [List.flatten_cons]
    exact ih.append_left _

theorem Blocks.none {α : Type} (xs : List α) : Blocks xs [] := by
  induction xs with
  | nil => exact .nil
  | cons x xs ih => exact .skip ih

/-! ## Ordinals -/

theorem sessionOrdinal_eq_some {d : Date} {i : ℕ} (h : cal.sessionOrdinal d true = some i) :
    ∃ s, cal.sessions[i]? = some s ∧ d ≤ s ∧ ∀ s' ∈ cal.sessions, d ≤ s' → s ≤ s' := by
  have hget : ∀ {s : Date} {j : ℕ}, cal.sessions.idxOf? s = some j → cal.sessions[j]? = some s := by
    intro s j hj
    obtain ⟨hlt, heq, -⟩ := List.idxOf?_eq_some_iff.1 hj
    exact List.getElem?_eq_some_iff.2 ⟨hlt, heq⟩
  unfold Calendar.sessionOrdinal at h
  split at h
  · rename_i j hj
    obtain rfl := Option.some.inj h
    exact ⟨d, hget hj, le_rfl, fun s' _ hle => hle⟩
  · rw [if_pos rfl] at h
    obtain ⟨s, hs, hi⟩ := Option.bind_eq_some_iff.1 h
    have hle : d ≤ s := by
      have hfound := List.find?_some hs
      simpa using hfound
    exact ⟨s, hget hi, hle, fun s' hs' hle' => Calendar.nextSessionOnOrAfter_le hs hs' hle'⟩

theorem sessionOrdinal_mono {d e : Date} {i j : ℕ} (hd : cal.sessionOrdinal d true = some i)
    (he : cal.sessionOrdinal e true = some j) (hle : d ≤ e) : i ≤ j := by
  obtain ⟨s, hs, -, hfirst⟩ := sessionOrdinal_eq_some hd
  obtain ⟨s', hs', hes', -⟩ := sessionOrdinal_eq_some he
  exact Calendar.le_of_sessions_le hs hs' (hfirst s' (List.mem_of_getElem? hs') (hle.trans hes'))

/-- The ordinals of two filings are at most a cluster window apart. -/
def Near (cal : Calendar) (cfg : V2Config) (r q : PurchaseRecord) : Prop :=
  ∃ o o', cal.sessionOrdinal r.filingDate true = some o ∧ cal.sessionOrdinal q.filingDate true = some o' ∧
    o ≤ o' + cfg.clusterWindowTradingDays ∧ o' ≤ o + cfg.clusterWindowTradingDays

/-! ## Episodes -/

/-- The owners that have filed by a day. -/
def ownersBy (w : List PurchaseRecord) (d : Date) : Finset String :=
  ((w.filter (·.filedBy d)).map (·.ownerCik)).toFinset

theorem card_ownersBy (w : List PurchaseRecord) (d : Date) :
    (ownersBy w d).card = (distinctOwners (w.filter (·.filedBy d))).length := by
  have hset : ownersBy w d = (distinctOwners (w.filter (·.filedBy d))).toFinset := by
    ext o
    rw [ownersBy, List.mem_toFinset, List.mem_toFinset]
    exact mem_firstOccurrences_id.symm
  rw [hset, List.toFinset_card_of_nodup (nodup_distinctOwners _)]

/-- The episode of a window. -/
structure BackedBy (cal : Calendar) (cfg : V2Config) (w : List PurchaseRecord) (e : ClusterEpisode) : Prop where
  /-- The window lies within the cluster window of its first record. -/
  window : ∃ r rest, w = r :: rest ∧ e.firstFilingDate = r.filingDate ∧ ∀ q ∈ w, ∃ o o',
    cal.sessionOrdinal r.filingDate true = some o ∧ cal.sessionOrdinal q.filingDate true = some o' ∧
      o ≤ o' ∧ o' ≤ o + cfg.clusterWindowTradingDays
  enough : cfg.minDistinctOwners ≤ e.distinctOwnerCiks.length
  distinct : e.distinctOwnerCiks.Nodup
  filed : ∀ o ∈ e.distinctOwnerCiks, ∃ q ∈ w, q.ownerCik = o ∧ q.filingDate ≤ e.activationFilingDate
  /-- The first day on which enough owners have filed. -/
  activation : IsLeast {d | cfg.minDistinctOwners ≤ (ownersBy w d).card} e.activationFilingDate
  /-- The first session strictly after it. -/
  entry : IsLeast {s | s ∈ cal.sessions ∧ e.activationFilingDate < s} e.eligibleEntrySession

theorem isLeast_nextSession {d s : Date} (h : cal.nextSessionStrictlyAfter d = some s) :
    IsLeast {s | s ∈ cal.sessions ∧ d < s} s := by
  have hlt : d < s := by
    have hfound := List.find?_some h
    simpa using hfound
  refine ⟨⟨List.mem_of_find?_eq_some h, hlt⟩, ?_⟩
  rintro s' ⟨hs', hlt'⟩
  obtain ⟨-, as, bs, hsplit, has⟩ := List.find?_eq_some_iff_append.1 h
  have hsorted := cal.sorted
  rw [hsplit] at hs' hsorted
  rcases List.mem_append.1 hs' with hbefore | hafter
  · have hnot : ¬ d < s' := by simpa using has s' hbefore
    exact absurd hlt' hnot
  · rcases List.mem_cons.1 hafter with rfl | hafter
    · exact le_rfl
    · exact ((List.pairwise_cons.1 (List.pairwise_append.1 hsorted).2.1).1 s' hafter).le

theorem backedBy_buildEpisode (hn : 0 < cfg.minDistinctOwners) {r : PurchaseRecord} {w : List PurchaseRecord}
    {e : ClusterEpisode} (h : buildEpisode cal cfg r w = some e)
    (hw : (r :: w).Pairwise fun a b => a.filingDate ≤ b.filingDate)
    (henough : cfg.minDistinctOwners ≤ (distinctOwners (r :: w)).length)
    (hnear : ∀ q ∈ r :: w, ∃ o o', cal.sessionOrdinal r.filingDate true = some o ∧
      cal.sessionOrdinal q.filingDate true = some o' ∧ o ≤ o' ∧ o' ≤ o + cfg.clusterWindowTradingDays) :
    BackedBy cal cfg (r :: w) e := by
  obtain ⟨last, hactivation, hid, howners, -⟩ := buildEpisode_activation h
  have hleast : ∀ d, e.activationFilingDate ≤ d ↔ cfg.minDistinctOwners ≤ (ownersBy (r :: w) d).card := by
    intro d
    rw [hactivation, card_ownersBy]
    exact activationDate_le_iff hn last hw henough
  have hfirst : e.firstFilingDate = r.filingDate := by
    unfold buildEpisode at h
    obtain ⟨entry, -, rfl⟩ := Option.map_eq_some_iff.1 h
    rfl
  have hentry : cal.nextSessionStrictlyAfter e.activationFilingDate = some e.eligibleEntrySession := by
    obtain ⟨-, -, -, hnext⟩ := buildEpisode_spec h
    rw [← hid]
    exact hnext
  constructor
  case window => exact ⟨r, w, rfl, hfirst, hnear⟩
  case enough =>
    rw [howners, ← card_ownersBy]
    exact (hleast _).1 le_rfl
  case distinct =>
    rw [howners]
    exact nodup_distinctOwners _
  case filed =>
    intro o ho
    rw [howners] at ho
    obtain ⟨q, hq, hqo⟩ := List.mem_map.1 (mem_of_mem_firstOccurrences ho)
    obtain ⟨hqw, hqd⟩ := List.mem_filter.1 hq
    exact ⟨q, hqw, hqo, PurchaseRecord.filedBy_iff.1 hqd⟩
  case activation => exact ⟨(hleast _).1 le_rfl, fun d hd => (hleast d).2 hd⟩
  case entry => exact isLeast_nextSession hentry

/-! ## The scan -/

/-- The records of the scan, with their ordinals. -/
structure Ordinals (cal : Calendar) (xs : List (PurchaseRecord × ℕ)) : Prop where
  eq : ∀ x ∈ xs, cal.sessionOrdinal x.1.filingDate true = some x.2
  sorted : xs.Pairwise fun x y => x.2 ≤ y.2

theorem Ordinals.sublist {xs ys : List (PurchaseRecord × ℕ)} (h : Ordinals cal xs) (hs : ys.Sublist xs) :
    Ordinals cal ys := ⟨fun x hx => h.eq x (hs.subset hx), h.sorted.sublist hs⟩

/-- What is near enough to the head is in its window. -/
theorem mem_windowOf {ord : ℕ} {rest : List (PurchaseRecord × ℕ)} (h : rest.Pairwise fun x y => x.2 ≤ y.2)
    {y : PurchaseRecord × ℕ} (hy : y ∈ rest) (hle : y.2 ≤ ord + cfg.clusterWindowTradingDays) :
    y.1 ∈ windowOf cfg ord rest := by
  induction rest with
  | nil => cases hy
  | cons x rest ih =>
    obtain ⟨hx, hrest⟩ := List.pairwise_cons.1 h
    rw [windowOf_cons]
    rcases List.mem_cons.1 hy with rfl | hy
    · rw [if_pos hle]
      exact List.mem_cons_self
    · rw [if_pos ((hx y hy).trans hle)]
      exact List.mem_cons_of_mem _ (ih hrest hy)

theorem windowOf_append_behindWindow (cfg : V2Config) (ord : ℕ) (rest : List (PurchaseRecord × ℕ)) :
    windowOf cfg ord rest ++ (behindWindow cfg ord rest).map Prod.fst = rest.map Prod.fst := by
  unfold windowOf behindWindow
  rw [← List.map_append, List.takeWhile_append_dropWhile]

/-- One of two near records of different owners is in a block. -/
def Covers (cfg : V2Config) (xs : List (PurchaseRecord × ℕ)) (ws : List (List PurchaseRecord)) : Prop :=
  ∀ x ∈ xs, ∀ y ∈ xs, x.1.ownerCik ≠ y.1.ownerCik → x.2 ≤ y.2 + cfg.clusterWindowTradingDays →
    y.2 ≤ x.2 + cfg.clusterWindowTradingDays → ∃ w ∈ ws, x.1 ∈ w ∨ y.1 ∈ w

theorem Covers.take {ord : ℕ} {r : PurchaseRecord} {rest : List (PurchaseRecord × ℕ)} {ws : List (List PurchaseRecord)}
    (h : Covers cfg (behindWindow cfg ord rest) ws) :
    Covers cfg ((r, ord) :: rest) ((r :: windowOf cfg ord rest) :: ws) := by
  have hsplit : ∀ x ∈ (r, ord) :: rest, x.1 ∈ r :: windowOf cfg ord rest ∨ x ∈ behindWindow cfg ord rest := by
    intro x hx
    rcases List.mem_cons.1 hx with rfl | hx
    · exact .inl List.mem_cons_self
    · rw [← List.takeWhile_append_dropWhile (l := rest) (p := fun x => x.2 ≤ ord + cfg.clusterWindowTradingDays)] at hx
      rcases List.mem_append.1 hx with hx | hx
      · exact .inl (List.mem_cons_of_mem _ (List.mem_map_of_mem hx))
      · exact .inr hx
  intro x hx y hy hne hxy hyx
  rcases hsplit x hx with hin | hbehind
  · exact ⟨_, List.mem_cons_self, .inl hin⟩
  rcases hsplit y hy with hin | hbehind'
  · exact ⟨_, List.mem_cons_self, .inr hin⟩
  · obtain ⟨w, hw, hmem⟩ := h x hbehind y hbehind' hne hxy hyx
    exact ⟨w, List.mem_cons_of_mem _ hw, hmem⟩

/-- A record that is skipped is near no later record of another owner. -/
theorem Covers.skip (hmin : cfg.minDistinctOwners = 2) {ord : ℕ} {r : PurchaseRecord} {rest : List (PurchaseRecord × ℕ)}
    {ws : List (List PurchaseRecord)} (hsorted : rest.Pairwise fun x y => x.2 ≤ y.2)
    (hfew : ¬ cfg.minDistinctOwners ≤ (distinctOwners (r :: windowOf cfg ord rest)).length) (h : Covers cfg rest ws) :
    Covers cfg ((r, ord) :: rest) ws := by
  have halone : ∀ y ∈ rest, y.2 ≤ ord + cfg.clusterWindowTradingDays → r.ownerCik = y.1.ownerCik := by
    intro y hy hle
    by_contra hne
    apply hfew
    have hpair : (distinctOwners [r, y.1]).length ≤ (distinctOwners (r :: windowOf cfg ord rest)).length := by
      apply length_distinctOwners_le
      intro q hq
      rcases List.mem_cons.1 hq with rfl | hq
      · exact List.mem_cons_self
      · rw [List.mem_singleton.1 hq]
        exact List.mem_cons_of_mem _ (mem_windowOf hsorted hy hle)
    have htwo : (distinctOwners [r, y.1]).length = 2 := by
      simp [distinctOwners, firstOccurrences, Ne.symm hne]
    rw [hmin]
    omega
  intro x hx y hy hne hxy hyx
  rcases List.mem_cons.1 hx with rfl | hx
  · rcases List.mem_cons.1 hy with rfl | hy
    · exact absurd rfl hne
    · exact absurd (halone y hy hyx) hne
  · rcases List.mem_cons.1 hy with rfl | hy
    · exact absurd (halone x hx hxy).symm hne
    · exact h x hx y hy hne hxy hyx

theorem scan_blocks (hmin : cfg.minDistinctOwners = 2) {fuel : ℕ} {xs : List (PurchaseRecord × ℕ)}
    {eps : List ClusterEpisode} (hs : Scanned fuel xs) (ho : Ordinals cal xs) (h : scan cal cfg fuel xs = some eps) :
    ∃ ws, Blocks (xs.map Prod.fst) ws ∧ List.Forall₂ (BackedBy cal cfg) ws eps ∧ Covers cfg xs ws := by
  induction fuel generalizing xs eps with
  | zero =>
    obtain rfl := Option.some.inj h
    have hnil : xs = [] := List.eq_nil_of_length_eq_zero (Nat.le_zero.1 hs.fuel)
    subst hnil
    exact ⟨[], .nil, .nil, fun x hx => (List.not_mem_nil hx).elim⟩
  | succ fuel ih =>
    cases xs with
    | nil =>
      obtain rfl := Option.some.inj h
      exact ⟨[], .nil, .nil, fun x hx => (List.not_mem_nil hx).elim⟩
    | cons x rest =>
      obtain ⟨r, ord⟩ := x
      obtain ⟨hhead, hrest⟩ := List.pairwise_cons.1 ho.sorted
      rw [scan_cons] at h
      split at h
      · rename_i henough
        split at h
        · cases h
        rename_i e he
        obtain ⟨eps', heps', rfl⟩ := Option.map_eq_some_iff.1 h
        have hsub : (behindWindow cfg ord rest).Sublist rest := behindWindow_sublist cfg ord rest
        obtain ⟨ws, hblocks, hbacked, hcovers⟩ := ih (hs.sublist hsub) (ho.sublist (hsub.cons _)) heps'
        have hnear : ∀ q ∈ r :: windowOf cfg ord rest, ∃ o o', cal.sessionOrdinal r.filingDate true = some o ∧
            cal.sessionOrdinal q.filingDate true = some o' ∧ o ≤ o' ∧ o' ≤ o + cfg.clusterWindowTradingDays := by
          intro q hq
          have hr := ho.eq (r, ord) List.mem_cons_self
          rcases List.mem_cons.1 hq with rfl | hq
          · exact ⟨ord, ord, hr, hr, le_rfl, Nat.le_add_right _ _⟩
          · obtain ⟨y, hy, rfl⟩ := List.mem_map.1 hq
            have hmem := (List.takeWhile_sublist _).subset hy
            have hle := List.mem_takeWhile_imp hy
            exact ⟨ord, y.2, hr, ho.eq y (List.mem_cons_of_mem _ hmem), hhead y hmem, by simpa using hle⟩
        refine ⟨(r :: windowOf cfg ord rest) :: ws, ?_, ?_, hcovers.take⟩
        · rw [List.map_cons, ← windowOf_append_behindWindow cfg ord rest]
          exact .take (List.cons_ne_nil r _) hblocks
        · exact .cons (backedBy_buildEpisode (by omega) he hs.window henough hnear) hbacked
      · rename_i hfew
        obtain ⟨ws, hblocks, hbacked, hcovers⟩ :=
          ih (hs.sublist (List.Sublist.refl rest)) (ho.sublist (List.sublist_cons_self _ _)) h
        exact ⟨ws, .skip hblocks, hbacked, hcovers.skip hmin hrest hfew⟩

/-! ## One issuer -/

theorem nodup_countedRecords (cfg : V2Config) (records : List PurchaseRecord) : (countedRecords cfg records).Nodup := by
  apply List.Nodup.of_map PurchaseRecord.dedupeKey
  exact nodup_firstOccurrences PurchaseRecord.dedupeKey _

theorem ordinals_of_withOrdinals {recs : List PurchaseRecord} {xs : List (PurchaseRecord × ℕ)}
    (h : withOrdinals cal recs = some xs) : Ordinals cal xs := by
  have heq : ∀ x ∈ xs, cal.sessionOrdinal x.1.filingDate true = some x.2 := (mapM_pair_spec h).2
  constructor
  case eq => exact heq
  case sorted =>
    have hsorted := (scanned_of_withOrdinals h).sorted
    apply List.Pairwise.imp_of_mem _ (List.pairwise_map.1 hsorted)
    intro x y hx hy hle
    exact sessionOrdinal_mono (heq x hx) (heq y hy) hle

/-- One record is near no record of another owner. -/
theorem no_pair_of_short {l : List PurchaseRecord} (h : l.length < 2) {r q : PurchaseRecord} (hr : r ∈ l) (hq : q ∈ l) :
    r.ownerCik = q.ownerCik := by
  match l, h with
  | [], _ => cases hr
  | [x], _ => rw [List.mem_singleton.1 hr, List.mem_singleton.1 hq]

theorem detector_spec (cal : Calendar) (cfg : V2Config) (hmin : cfg.minDistinctOwners = 2)
    (records : List PurchaseRecord) (eps : List ClusterEpisode)
    (h : detectEpisodesForIssuer cal cfg records = some eps) :
    ∃ recs windows, recs.Perm (countedRecords cfg records) ∧ recs.Nodup ∧
      recs.Pairwise (fun r q => r.filingDate ≤ q.filingDate) ∧ Blocks recs windows ∧
      List.Forall₂ (BackedBy cal cfg) windows eps ∧
      ∀ r ∈ recs, ∀ q ∈ recs, r.ownerCik ≠ q.ownerCik → Near cal cfg r q → ∃ w ∈ windows, r ∈ w ∨ q ∈ w := by
  have hperm : (sortByFiling (countedRecords cfg records)).Perm (countedRecords cfg records) :=
    List.perm_insertionSort _ _
  refine ⟨sortByFiling (countedRecords cfg records), ?_⟩
  have hnodup := hperm.nodup_iff.2 (nodup_countedRecords cfg records)
  have hsorted := pairwise_orderByDateText (fun r : PurchaseRecord => (r.filingDate, r.ownerCik))
    (countedRecords cfg records)
  rcases detectEpisodesForIssuer_cases h with ⟨hshort, rfl⟩ | ⟨xs, hxs, hscan⟩
  · refine ⟨[], hperm, hnodup, hsorted, .none _, .nil, ?_⟩
    intro r hr q hq hne
    have hsame := no_pair_of_short (hmin ▸ hshort) (hperm.mem_iff.1 hr) (hperm.mem_iff.1 hq)
    exact absurd hsame hne
  · obtain ⟨windows, hblocks, hbacked, hcovers⟩ :=
      scan_blocks hmin (scanned_of_withOrdinals hxs) (ordinals_of_withOrdinals hxs) hscan
    have hfst : xs.map Prod.fst = sortByFiling (countedRecords cfg records) := (mapM_pair_spec hxs).1
    have hord := (mapM_pair_spec hxs).2
    refine ⟨windows, hperm, hnodup, hsorted, hfst ▸ hblocks, hbacked, ?_⟩
    intro r hr q hq hne hnear
    rw [← hfst] at hr hq
    obtain ⟨x, hx, rfl⟩ := List.mem_map.1 hr
    obtain ⟨y, hy, rfl⟩ := List.mem_map.1 hq
    obtain ⟨o, o', ho, ho', hle, hle'⟩ := hnear
    obtain rfl : x.2 = o := Option.some.inj ((hord x hx).symm.trans ho)
    obtain rfl : y.2 = o' := Option.some.inj ((hord y hy).symm.trans ho')
    exact hcovers x hx y hy hne hle hle'

/-- Two owners on two days in a row. -/
theorem detector_spec_sample :
    (detectEpisodesForIssuer (.weekdays 100) {} [purchase "p" 28, purchase "q" 29]).map List.length = some 1 ∧
      ∃ eps recs windows, detectEpisodesForIssuer (.weekdays 100) {} [purchase "p" 28, purchase "q" 29] = some eps ∧
        Blocks recs windows ∧ List.Forall₂ (BackedBy (.weekdays 100) {}) windows eps := by
  refine ⟨by decide +kernel, ?_⟩
  cases h : detectEpisodesForIssuer (.weekdays 100) {} [purchase "p" 28, purchase "q" 29] with
  | none => exact absurd (by decide +kernel) (Option.not_isSome_iff_eq_none.2 h)
  | some eps =>
    obtain ⟨recs, windows, -, -, -, hblocks, hbacked, -⟩ := detector_spec (.weekdays 100) {} rfl _ eps h
    exact ⟨eps, recs, windows, rfl, hblocks, hbacked⟩

end TalonX.V2
