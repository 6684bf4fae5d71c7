import TalonX.V2.EpisodeIdentity

/-!
# The rolling lookback

A live tick detects episodes among the records filed since the start of its lookback. The greedy scan is anchored at the
oldest record in view, so leaving the older ones out moves the boundaries of its windows, as long as the two scans do not
come to open a window at the same record.

- `firstLive`: the records from the first window on that a live tick can still enter;
- `filter_live_of_firstLive_eq`: from there on two scans agree;
- `firstLive_eq_of_filter_live`: and when they agree, they have come to the same record;
- `lookback_keeps_live`: exactly when leaving out the old records keeps the live episodes.
-/

set_option autoImplicit false

namespace TalonX.V2

open Transact

variable {cal : Calendar} {cfg : V2Config} {c : Date}

/-- Its entry session lies more than a cluster window after the start of the lookback. -/
def ClusterEpisode.live (cal : Calendar) (cfg : V2Config) (c : Date) (e : ClusterEpisode) : Bool :=
  cfg.clusterWindowTradingDays < cal.sessionsBetween c e.eligibleEntrySession

/-- The window of a record is activated late enough for that. -/
def liveWindow (cal : Calendar) (cfg : V2Config) (c : Date) (r : PurchaseRecord) (w : List PurchaseRecord) : Bool :=
  (cal.nextSessionStrictlyAfter (activationDate cfg.minDistinctOwners r.filingDate [] (r :: w))).any fun entry =>
    cfg.clusterWindowTradingDays < cal.sessionsBetween c entry

/-- The records from the one on at which the greedy loop opens its first live window. -/
def firstLive (cal : Calendar) (cfg : V2Config) (c : Date) : ℕ → List (PurchaseRecord × ℕ) → List (PurchaseRecord × ℕ)
  | 0, _ => []
  | _ + 1, [] => []
  | fuel + 1, (r, ord) :: rest =>
    if cfg.minDistinctOwners ≤ (distinctOwners (r :: windowOf cfg ord rest)).length then
      if liveWindow cal cfg c r (windowOf cfg ord rest) then (r, ord) :: rest
      else firstLive cal cfg c fuel (behindWindow cfg ord rest)
    else firstLive cal cfg c fuel rest

/-! ## One scan -/

theorem live_buildEpisode {r : PurchaseRecord} {w : List PurchaseRecord} {ep : ClusterEpisode}
    (hn : 0 < cfg.minDistinctOwners) (henough : cfg.minDistinctOwners ≤ (distinctOwners (r :: w)).length)
    (h : buildEpisode cal cfg r w = some ep) : ep.live cal cfg c = liveWindow cal cfg c r w := by
  obtain ⟨last, hact, hid, -⟩ := buildEpisode_activation h
  have hentry := (buildEpisode_spec h).2.2.2
  have hsame : activationDate cfg.minDistinctOwners last [] ((r :: w) ++ []) =
      activationDate cfg.minDistinctOwners r.filingDate [] (r :: w) := activationDate_append [] hn henough
  rw [List.append_nil] at hsame
  rw [ClusterEpisode.EntersNext, hid, hact, hsame] at hentry
  rw [liveWindow, hentry]
  rfl

/-- Fuel for all records is enough. -/
theorem scan_fuel : ∀ {k k' : ℕ} {xs : List (PurchaseRecord × ℕ)}, xs.length ≤ k → xs.length ≤ k' →
    scan cal cfg k xs = scan cal cfg k' xs
  | 0, k', xs, h, _ => by
    obtain rfl := List.length_eq_zero_iff.1 (Nat.le_zero.1 h)
    cases k' <;> rfl
  | k + 1, 0, xs, _, h => by
    obtain rfl := List.length_eq_zero_iff.1 (Nat.le_zero.1 h)
    rfl
  | k + 1, k' + 1, [], _, _ => rfl
  | k + 1, k' + 1, (r, ord) :: rest, h, h' => by
    have hlen : rest.length ≤ k := Nat.le_of_succ_le_succ h
    have hlen' : rest.length ≤ k' := Nat.le_of_succ_le_succ h'
    have hb := (behindWindow_sublist cfg ord rest).length_le
    rw [scan_cons, scan_cons, scan_fuel (hb.trans hlen) (hb.trans hlen'), scan_fuel hlen hlen']

theorem behindWindow_suffix (cfg : V2Config) (ord : ℕ) (rest : List (PurchaseRecord × ℕ)) :
    behindWindow cfg ord rest <:+ rest := List.dropWhile_suffix _

/-- The record at which a scan opens its first live window, and what it finds from there on. -/
structure OpensLive (cal : Calendar) (cfg : V2Config) (c : Date) (eps : List ClusterEpisode) (r : PurchaseRecord)
    (ord : ℕ) (rest : List (PurchaseRecord × ℕ)) (ep : ClusterEpisode) (eps1 : List ClusterEpisode) : Prop where
  enough : cfg.minDistinctOwners ≤ (distinctOwners (r :: windowOf cfg ord rest)).length
  episode : buildEpisode cal cfg r (windowOf cfg ord rest) = some ep
  behind : scan cal cfg (behindWindow cfg ord rest).length (behindWindow cfg ord rest) = some eps1
  live : eps.filter (·.live cal cfg c) = ep :: eps1.filter (·.live cal cfg c)

theorem firstLive_spec (hn : 0 < cfg.minDistinctOwners) {fuel : ℕ} {xs : List (PurchaseRecord × ℕ)}
    {eps : List ClusterEpisode} (hf : xs.length ≤ fuel) (h : scan cal cfg fuel xs = some eps) :
    (firstLive cal cfg c fuel xs = [] ∧ eps.filter (·.live cal cfg c) = []) ∨
      ∃ r ord rest ep eps1, firstLive cal cfg c fuel xs = (r, ord) :: rest ∧ (r, ord) :: rest <:+ xs ∧
        OpensLive cal cfg c eps r ord rest ep eps1 := by
  induction fuel generalizing xs eps with
  | zero =>
    obtain rfl := Option.some.inj h
    exact Or.inl ⟨rfl, rfl⟩
  | succ fuel ih =>
    cases xs with
    | nil =>
      obtain rfl := Option.some.inj h
      exact Or.inl ⟨rfl, rfl⟩
    | cons x rest =>
      obtain ⟨r, ord⟩ := x
      have hlen : rest.length ≤ fuel := Nat.le_of_succ_le_succ hf
      have hlenb := (behindWindow_sublist cfg ord rest).length_le.trans hlen
      rw [scan_cons] at h
      rw [firstLive]
      split at h
      · rename_i henough
        split at h
        · cases h
        rename_i ep hep
        obtain ⟨eps1, heps1, rfl⟩ := Option.map_eq_some_iff.1 h
        have hlive := live_buildEpisode (c := c) hn henough hep
        rw [if_pos henough]
        by_cases hl : liveWindow cal cfg c r (windowOf cfg ord rest) = true
        · rw [if_pos hl]
          rw [hl] at hlive
          exact Or.inr ⟨r, ord, rest, ep, eps1, rfl, List.suffix_refl _, henough, hep,
            (scan_fuel (le_refl _) hlenb).trans heps1, List.filter_cons_of_pos hlive⟩
        · rw [if_neg hl]
          have hdead : ¬ ep.live cal cfg c = true := hlive ▸ hl
          rcases ih hlenb heps1 with ⟨hnone, hfilter⟩ | ⟨r', ord', rest', ep', eps2, hfirst, hsuffix, hopens⟩
          · exact Or.inl ⟨hnone, by rw [List.filter_cons_of_neg hdead, hfilter]⟩
          · refine Or.inr ⟨r', ord', rest', ep', eps2, hfirst, ?_, hopens.enough, hopens.episode, hopens.behind, ?_⟩
            · exact hsuffix.trans ((behindWindow_suffix cfg ord rest).trans (List.suffix_cons _ _))
            · rw [List.filter_cons_of_neg hdead, hopens.live]
      · rename_i hfew
        rw [if_neg hfew]
        rcases ih hlen h with hnone | ⟨r', ord', rest', ep', eps2, hfirst, hsuffix, hopens⟩
        · exact Or.inl hnone
        · exact Or.inr ⟨r', ord', rest', ep', eps2, hfirst, hsuffix.trans (List.suffix_cons _ _), hopens⟩

/-! ## Two scans -/

section TwoScans

variable {fuel fuel' : ℕ} {xs ys : List (PurchaseRecord × ℕ)} {eps eps' : List ClusterEpisode}

/-- Scans that come to open their first live window at the same record find the same live episodes. -/
theorem filter_live_of_firstLive_eq (hn : 0 < cfg.minDistinctOwners) (hf : xs.length ≤ fuel) (hf' : ys.length ≤ fuel')
    (h : scan cal cfg fuel xs = some eps) (h' : scan cal cfg fuel' ys = some eps')
    (hsame : firstLive cal cfg c fuel' ys = firstLive cal cfg c fuel xs) :
    eps'.filter (·.live cal cfg c) = eps.filter (·.live cal cfg c) := by
  rcases firstLive_spec (c := c) hn hf h with ⟨hnone, hfilter⟩ | ⟨r, ord, rest, ep, eps1, hfirst, -, hopens⟩
  · rcases firstLive_spec (c := c) hn hf' h' with ⟨-, hfilter'⟩ | ⟨r', ord', rest', ep', eps1', hfirst', -, -⟩
    · rw [hfilter, hfilter']
    · rw [hsame, hnone] at hfirst'
      cases hfirst'
  · rcases firstLive_spec (c := c) hn hf' h' with ⟨hnone', -⟩ | ⟨r', ord', rest', ep', eps1', hfirst', -, hopens'⟩
    · rw [hnone', hfirst] at hsame
      cases hsame
    · rw [hsame, hfirst] at hfirst'
      obtain ⟨hro, rfl⟩ := List.cons.inj hfirst'
      obtain ⟨rfl, rfl⟩ := Prod.mk.inj hro
      have hep : ep = ep' := Option.some.inj (hopens.episode.symm.trans hopens'.episode)
      have heps : eps1 = eps1' := Option.some.inj (hopens.behind.symm.trans hopens'.behind)
      rw [hopens.live, hopens'.live, hep, heps]

end TwoScans

theorem nFilings_buildEpisode {r : PurchaseRecord} {w : List PurchaseRecord} {ep : ClusterEpisode}
    (h : buildEpisode cal cfg r w = some ep) :
    ep.nFilings = ((r :: w).filter (·.filedBy ep.activationFilingDate)).length := by
  unfold buildEpisode at h
  obtain ⟨entry, -, rfl⟩ := Option.map_eq_some_iff.1 h
  rfl

theorem windowOf_append {ord : ℕ} {z l : List (PurchaseRecord × ℕ)}
    (h : ∀ x ∈ z, x.2 ≤ ord + cfg.clusterWindowTradingDays) :
    windowOf cfg ord (z ++ l) = z.map Prod.fst ++ windowOf cfg ord l := by
  induction z with
  | nil => rfl
  | cons x z ih =>
    obtain ⟨hx, hz⟩ := List.forall_mem_cons.1 h
    rw [List.cons_append, windowOf_cons, if_pos hx, ih hz, List.map_cons, List.cons_append]

/-- Records in filing order, their ordinals given by their dates. -/
structure Dated (ord : Date → ℕ) (xs : List (PurchaseRecord × ℕ)) : Prop where
  sorted : (xs.map Prod.fst).Pairwise fun a b => a.filingDate ≤ b.filingDate
  ordinal : ∀ x ∈ xs, x.2 = ord x.1.filingDate

theorem Dated.sublist {ord : Date → ℕ} {xs ys : List (PurchaseRecord × ℕ)} (h : Dated ord xs) (hs : ys.Sublist xs) :
    Dated ord ys := ⟨h.sorted.sublist (hs.map _), fun x hx => h.ordinal x (hs.subset hx)⟩

/-- Two windows of one list that give the same episode open at the same record. -/
theorem suffix_eq_of_episode {ord : Date → ℕ} {x y : PurchaseRecord × ℕ} {xt yt : List (PurchaseRecord × ℕ)}
    {ep : ClusterEpisode} (hxs : Dated ord (x :: xt)) (hy : y :: yt <:+ x :: xt) (hn : 0 < cfg.minDistinctOwners)
    (henough : cfg.minDistinctOwners ≤ (distinctOwners (x.1 :: windowOf cfg x.2 xt)).length)
    (hep : buildEpisode cal cfg x.1 (windowOf cfg x.2 xt) = some ep)
    (hep' : buildEpisode cal cfg y.1 (windowOf cfg y.2 yt) = some ep) : y :: yt = x :: xt := by
  obtain ⟨z, hz⟩ := hy
  cases z with
  | nil => exact hz
  | cons x' z =>
    obtain ⟨rfl, hxt'⟩ := List.cons.inj hz
    have hxt : z ++ y :: yt = xt := hxt'
    have hday : y.1.filingDate = x'.1.filingDate := by
      rw [← (buildEpisode_spec hep').2.1, ← (buildEpisode_spec hep).2.1]
    obtain ⟨hle, hsorted⟩ := List.pairwise_cons.1 hxs.sorted
    have hsplit : (z ++ y :: yt).map Prod.fst = z.map Prod.fst ++ y.1 :: yt.map Prod.fst := List.map_append
    rw [← hxt, hsplit] at hle hsorted
    have hsame : ∀ w ∈ z, w.1.filingDate = x'.1.filingDate := by
      intro w hw
      refine le_antisymm ?_ (hle w.1 (List.mem_append_left _ (List.mem_map_of_mem hw)))
      rw [← hday]
      exact (List.pairwise_append.1 hsorted).2.2 w.1 (List.mem_map_of_mem hw) y.1 List.mem_cons_self
    have hord : ∀ w ∈ x' :: xt, w.1.filingDate = x'.1.filingDate → w.2 = x'.2 := by
      intro w hw hd
      rw [hxs.ordinal w hw, hd, ← hxs.ordinal x' List.mem_cons_self]
    have hymem : y ∈ x' :: xt := by
      rw [← hxt]
      exact List.mem_cons_of_mem _ (List.mem_append_right _ List.mem_cons_self)
    have hyord : y.2 = x'.2 := hord y hymem hday
    have hreach : ∀ w ∈ z, w.2 ≤ x'.2 + cfg.clusterWindowTradingDays := by
      intro w hw
      have hwmem : w ∈ x' :: xt := by
        rw [← hxt]
        exact List.mem_cons_of_mem _ (List.mem_append_left _ hw)
      rw [hord w hwmem (hsame w hw)]
      exact Nat.le_add_right _ _
    have hywindow : windowOf cfg x'.2 (y :: yt) = y.1 :: windowOf cfg y.2 yt := by
      rw [windowOf_cons, hyord, if_pos (Nat.le_add_right _ _)]
    have hwindow : windowOf cfg x'.2 xt = z.map Prod.fst ++ y.1 :: windowOf cfg y.2 yt := by
      rw [← hxt, windowOf_append hreach, hywindow]
    -- the first window holds one more filing at least
    have hfirst : x'.1.filedBy ep.activationFilingDate = true := by
      obtain ⟨last, hact, -⟩ := buildEpisode_activation hep
      obtain ⟨q, hq, heq⟩ := exists_activation hn last henough
      rw [PurchaseRecord.filedBy_iff, hact, heq]
      rcases List.mem_cons.1 hq with rfl | hq
      · exact le_refl _
      · refine (List.pairwise_cons.1 hxs.sorted).1 q ((windowOf_sublist cfg x'.2 xt).subset hq)
    have hcount := (nFilings_buildEpisode hep).symm.trans (nFilings_buildEpisode hep')
    rw [hwindow, List.filter_cons_of_pos hfirst, List.filter_append, List.length_cons, List.length_append] at hcount
    exact absurd hcount (Nat.ne_of_gt (Nat.lt_succ_of_le (Nat.le_add_left _ _)))

/-- When the records from `c` on end the list of all records and both scans find the same live episodes, they open their
first live windows at the same record. -/
theorem firstLive_eq_of_filter_live {ord : Date → ℕ} {fuel fuel' : ℕ} {xs ys : List (PurchaseRecord × ℕ)}
    {eps eps' : List ClusterEpisode} (hn : 0 < cfg.minDistinctOwners) (hxs : Dated ord xs) (hys : ys <:+ xs)
    (hf : xs.length ≤ fuel) (hf' : ys.length ≤ fuel') (h : scan cal cfg fuel xs = some eps)
    (h' : scan cal cfg fuel' ys = some eps')
    (hsame : eps'.filter (·.live cal cfg c) = eps.filter (·.live cal cfg c)) :
    firstLive cal cfg c fuel' ys = firstLive cal cfg c fuel xs := by
  rcases firstLive_spec (c := c) hn hf h with ⟨hnone, hfilter⟩ | ⟨r, ord1, rest, ep, eps1, hfirst, hsuff, hopens⟩
  · rcases firstLive_spec (c := c) hn hf' h' with ⟨hnone', -⟩ | ⟨r', ord', rest', ep', eps1', -, -, hopens'⟩
    · rw [hnone, hnone']
    · have hnil := hopens'.live.symm.trans (hsame.trans hfilter)
      cases hnil
  · rcases firstLive_spec (c := c) hn hf' h' with ⟨-, hfilter'⟩ | ⟨r', ord', rest', ep', eps1', hfirst', hsuff', hopens'⟩
    · have hnil := hopens.live.symm.trans (hsame.symm.trans hfilter')
      cases hnil
    · have heq : ep' = ep := by
        have hlists := hopens'.live.symm.trans (hsame.trans hopens.live)
        exact (List.cons.inj hlists).1
      have hep' := heq ▸ hopens'.episode
      rw [hfirst, hfirst']
      have hx := hxs.sublist hsuff.sublist
      have hy := hxs.sublist (hsuff'.trans hys).sublist
      rcases List.suffix_or_suffix_of_suffix (hsuff'.trans hys) hsuff with hyx | hxy
      · exact suffix_eq_of_episode hx hyx hn hopens.enough hopens.episode hep'
      · exact (suffix_eq_of_episode hy hxy hn hopens'.enough hep' hopens.episode).symm

/-! ## One issuer -/

/-- The records of an issuer from its first live window on. -/
def firstLiveOf (cal : Calendar) (cfg : V2Config) (c : Date) (records : List PurchaseRecord) :
    List (PurchaseRecord × ℕ) :=
  match withOrdinals cal (countedRecords cfg records) with
  | none => []
  | some xs => firstLive cal cfg c xs.length xs

/-- No counted record of these filed from `c` on has the dedupe key of one filed before. -/
def NoRepeat (cfg : V2Config) (c : Date) (records : List PurchaseRecord) : Prop :=
  ∀ r ∈ records, ∀ q ∈ records, r.counted cfg = true → q.counted cfg = true → r.dedupeKey = q.dedupeKey →
    c ≤ r.filingDate → c ≤ q.filingDate

theorem firstLive_of_few {fuel : ℕ} {xs : List (PurchaseRecord × ℕ)}
    (hfew : (distinctOwners (xs.map Prod.fst)).length < cfg.minDistinctOwners) : firstLive cal cfg c fuel xs = [] := by
  induction fuel generalizing xs with
  | zero => rfl
  | succ fuel ih =>
    cases xs with
    | nil => rfl
    | cons x rest =>
      obtain ⟨r, ord⟩ := x
      have hsub : (r :: windowOf cfg ord rest) ⊆ ((r, ord) :: rest).map Prod.fst :=
        List.cons_subset_cons _ (((List.takeWhile_sublist _).map Prod.fst).subset)
      rw [firstLive, if_neg (Nat.not_le.2 ((length_distinctOwners_le hsub).trans_lt hfew))]
      exact ih ((length_distinctOwners_le (List.subset_cons_self _ _)).trans_lt hfew)

/-- A detection of an issuer is its scan, or finds nothing in too few records. -/
theorem scan_of_detectEpisodesForIssuer {records : List PurchaseRecord} {eps : List ClusterEpisode}
    (h : detectEpisodesForIssuer cal cfg records = some eps) :
    (firstLiveOf cal cfg c records = [] ∧ eps = []) ∨
      ∃ xs, withOrdinals cal (countedRecords cfg records) = some xs ∧ scan cal cfg xs.length xs = some eps ∧
        firstLiveOf cal cfg c records = firstLive cal cfg c xs.length xs := by
  rcases detectEpisodesForIssuer_cases h with ⟨hshort, rfl⟩ | ⟨xs, hxs, hscan⟩
  · refine Or.inl ⟨?_, rfl⟩
    unfold firstLiveOf
    split
    · rfl
    · rename_i xs hxs
      refine firstLive_of_few ((length_distinctOwners_le_length _).trans_lt ?_)
      rw [(perm_of_withOrdinals hxs).length_eq]
      exact hshort
  · refine Or.inr ⟨xs, hxs, hscan, ?_⟩
    rw [firstLiveOf, hxs]

/-- A predicate on keys selects the first occurrences of the records it selects. -/
theorem filter_firstOccurrences_of_key {α κ : Type} [DecidableEq κ] {key : α → κ} {p : α → Bool} {l : List α}
    (h : ∀ x ∈ l, ∀ y ∈ l, key x = key y → p x = true → p y = true) :
    (firstOccurrences key l).filter p = firstOccurrences key (l.filter p) := by
  induction l with
  | nil => rfl
  | cons x l ih =>
    have hl : ∀ y ∈ l, ∀ z ∈ l, key y = key z → p y = true → p z = true := fun y hy z hz =>
      h y (List.mem_cons_of_mem _ hy) z (List.mem_cons_of_mem _ hz)
    by_cases hx : p x
    · rw [firstOccurrences, List.filter_cons_of_pos hx, List.filter_cons_of_pos hx, firstOccurrences, ← ih hl,
        List.filter_comm]
    · rw [firstOccurrences, List.filter_cons_of_neg hx, List.filter_cons_of_neg hx, List.filter_comm, ih hl]
      refine List.filter_eq_self.2 fun y hy => ?_
      obtain ⟨hy, hpy⟩ := List.mem_filter.1 (mem_of_mem_firstOccurrences hy)
      have hne : key y ≠ key x := fun hk => hx (h y (List.mem_cons_of_mem _ hy) x List.mem_cons_self hk hpy)
      simpa using hne

section Issuer

variable {records records' : List PurchaseRecord} {es es' : List ClusterEpisode}

theorem filter_live_of_firstLiveOf_eq (hn : 0 < cfg.minDistinctOwners)
    (h : detectEpisodesForIssuer cal cfg records = some es) (h' : detectEpisodesForIssuer cal cfg records' = some es')
    (hsame : firstLiveOf cal cfg c records' = firstLiveOf cal cfg c records) :
    es'.filter (·.live cal cfg c) = es.filter (·.live cal cfg c) := by
  have hnil : scan cal cfg 0 [] = some [] := rfl
  have hnone : firstLive cal cfg c 0 [] = [] := rfl
  rcases scan_of_detectEpisodesForIssuer (c := c) h with ⟨hfirst, rfl⟩ | ⟨xs, -, hscan, hfirst⟩
  · rcases scan_of_detectEpisodesForIssuer (c := c) h' with ⟨-, rfl⟩ | ⟨ys, -, hscan', hfirst'⟩
    · rfl
    · exact filter_live_of_firstLive_eq hn (le_refl 0) (le_refl _) hnil hscan'
        (hfirst'.symm.trans (hsame.trans (hfirst.trans hnone.symm)))
  · rcases scan_of_detectEpisodesForIssuer (c := c) h' with ⟨hfirst', rfl⟩ | ⟨ys, -, hscan', hfirst'⟩
    · exact filter_live_of_firstLive_eq hn (le_refl _) (le_refl 0) hscan hnil
        (hnone.trans (hfirst'.symm.trans (hsame.trans hfirst)))
    · exact filter_live_of_firstLive_eq hn (le_refl _) (le_refl _) hscan hscan'
        (hfirst'.symm.trans (hsame.trans hfirst))

/-- Without repeated keys the counted records from `c` on are those filed from `c` on. -/
theorem countedRecords_since (hrep : NoRepeat cfg c records) :
    countedRecords cfg (records.filter (c ≤ ·.filingDate)) = (countedRecords cfg records).filter (c ≤ ·.filingDate) := by
  rw [countedRecords, countedRecords, dedupe_eq, dedupe_eq, filter_firstOccurrences_of_key,
    filter_insertionSort dedupeLe_total dedupeLe_trans, List.filter_comm]
  intro r hr q hq hk hc
  obtain ⟨hr, hrc⟩ := List.mem_filter.1 ((List.mem_insertionSort _).1 hr)
  obtain ⟨hq, hqc⟩ := List.mem_filter.1 ((List.mem_insertionSort _).1 hq)
  simpa using hrep r hr q hq hrc hqc hk (by simpa using hc)

/-- What is left when the records before `c` are cut off a list in filing order ends that list. -/
theorem since_suffix {xs : List (PurchaseRecord × ℕ)}
    (hs : (xs.map Prod.fst).Pairwise fun a b => a.filingDate ≤ b.filingDate) :
    (xs.filter fun x => c ≤ x.1.filingDate) <:+ xs := by
  rw [List.pairwise_map] at hs
  have hcloses : Closes (fun x : PurchaseRecord × ℕ => !decide (c ≤ x.1.filingDate)) xs := hs.imp fun hxy hy => by
    simp only [Bool.not_eq_true', decide_eq_false_iff_not, Nat.not_le] at hy ⊢
    exact hxy.trans_lt hy
  have hsplit := hcloses.filter_append
  simp only [Bool.not_not] at hsplit
  exact ⟨_, hsplit⟩

theorem firstLiveOf_eq_of_filter_live (hn : 0 < cfg.minDistinctOwners) (hrep : NoRepeat cfg c records)
    (h : detectEpisodesForIssuer cal cfg records = some es)
    (h' : detectEpisodesForIssuer cal cfg (records.filter (c ≤ ·.filingDate)) = some es')
    (hsame : es'.filter (·.live cal cfg c) = es.filter (·.live cal cfg c)) :
    firstLiveOf cal cfg c (records.filter (c ≤ ·.filingDate)) = firstLiveOf cal cfg c records := by
  have hempty : ∀ {zs : List (PurchaseRecord × ℕ)} {fs : List ClusterEpisode},
      scan cal cfg zs.length zs = some fs → fs.filter (·.live cal cfg c) = [] →
        firstLive cal cfg c zs.length zs = [] := by
    intro zs fs hz hf
    rcases firstLive_spec (c := c) hn (le_refl _) hz with ⟨hnone, -⟩ | ⟨r, ord, rest, ep, eps1, -, -, hopens⟩
    · exact hnone
    · rw [hopens.live] at hf
      cases hf
  rcases scan_of_detectEpisodesForIssuer (c := c) h with ⟨hfirst, rfl⟩ | ⟨xs, hxs, hscan, hfirst⟩
  · rcases scan_of_detectEpisodesForIssuer (c := c) h' with ⟨hfirst', rfl⟩ | ⟨ys, -, hscan', hfirst'⟩
    · rw [hfirst, hfirst']
    · rw [hfirst, hfirst', hempty hscan' hsame]
  · rcases scan_of_detectEpisodesForIssuer (c := c) h' with ⟨hfirst', rfl⟩ | ⟨ys, hys, hscan', hfirst'⟩
    · rw [hfirst, hfirst', hempty hscan hsame.symm]
    · rw [hfirst, hfirst']
      -- the scanned records from `c` on end the scanned records
      have hcut := withOrdinals_filter (fun r => decide (c ≤ r.filingDate)) hxs
      rw [← countedRecords_since hrep, hys] at hcut
      obtain rfl := Option.some.inj hcut
      have hsorted := (scanned_of_withOrdinals hxs).sorted
      have hdated : Dated (fun d => (cal.sessionOrdinal d true).getD 0) xs :=
        ⟨hsorted, fun x hx => by simp only [(mapM_pair_spec hxs).2 x hx, Option.getD_some]⟩
      exact firstLive_eq_of_filter_live hn hdated (since_suffix hsorted) (le_refl _) (le_refl _) hscan hscan' hsame

end Issuer

/-! ## All issuers -/

/-- For every issuer the first window that a live tick can still enter opens at the same record, with the same records
behind it, whether the scan starts at the oldest record or at the first one filed from `c` on. -/
def SameFirstLive (cal : Calendar) (cfg : V2Config) (c : Date) (records : List PurchaseRecord) : Prop :=
  ∀ sym, firstLiveOf cal cfg c (recordsOf sym (records.filter (c ≤ ·.filingDate))) =
    firstLiveOf cal cfg c (recordsOf sym records)

theorem recordsOf_since (sym : Symbol) (records : List PurchaseRecord) :
    recordsOf sym (records.filter (c ≤ ·.filingDate)) = (recordsOf sym records).filter (c ≤ ·.filingDate) := by
  rw [recordsOf, recordsOf, List.filter_comm]

/-- An issuer's part of a detection; nothing for an issuer without records. -/
theorem exists_issuerEpisodes (hn : 0 < cfg.minDistinctOwners) {records : List PurchaseRecord}
    {eps : List ClusterEpisode} (h : detectEpisodes cal cfg records = some eps) (sym : Symbol) :
    ∃ es, detectEpisodesForIssuer cal cfg (recordsOf sym records) = some es ∧
      ∀ e, e.symbol = sym → (e ∈ eps ↔ e ∈ es) := by
  have hexists : ∃ es, detectEpisodesForIssuer cal cfg (recordsOf sym records) = some es := by
    by_cases hs : sym ∈ issuers records
    · exact exists_detectEpisodesForIssuer h hs
    · have hnil : recordsOf sym records = [] := List.filter_eq_nil_iff.2 fun r hr hsym =>
        hs (mem_issuers.2 ⟨r, hr, by simpa using hsym⟩)
      rw [hnil]
      exact ⟨[], if_pos hn⟩
  obtain ⟨es, hes⟩ := hexists
  refine ⟨es, hes, ?_⟩
  rintro e rfl
  rw [mem_detectEpisodes hn h]
  constructor
  · rintro ⟨fs, hfs, he⟩
    rw [hes] at hfs
    obtain rfl := Option.some.inj hfs
    exact he
  · exact fun he => ⟨es, hes, he⟩

/-- Episodes of one issuer are the same list as soon as they are the same episodes. -/
theorem eq_of_mem_iff {es es' : List ClusterEpisode}
    (hs : es.Pairwise fun e e' => e.episodeId.firstFiling < e'.episodeId.firstFiling)
    (hs' : es'.Pairwise fun e e' => e.episodeId.firstFiling < e'.episodeId.firstFiling)
    (h : ∀ e, e ∈ es ↔ e ∈ es') : es = es' := by
  have hnodup : ∀ {l : List ClusterEpisode},
      l.Pairwise (fun e e' => e.episodeId.firstFiling < e'.episodeId.firstFiling) → l.Nodup := fun hl =>
    hl.imp fun hlt heq => absurd (congrArg (fun e => e.episodeId.firstFiling) heq) hlt.ne
  have hperm := (List.perm_ext_iff_of_nodup (hnodup hs) (hnodup hs')).2 h
  refine hperm.eq_of_pairwise (fun a b _ _ hab hba => ?_) hs hs'
  exact absurd hab (Nat.lt_asymm hba)

/-- All records are of one issuer: it alone has to be looked at. -/
theorem sameFirstLive_of_acme {records : List PurchaseRecord} (hacme : ∀ r ∈ records, r.symbol.toUpper = "ACME")
    (h : firstLiveOf cal cfg c (records.filter (c ≤ ·.filingDate)) = firstLiveOf cal cfg c records) :
    SameFirstLive cal cfg c records := by
  intro sym
  rw [recordsOf_since]
  by_cases hsym : sym = "ACME"
  · have hall : recordsOf sym records = records := List.filter_eq_self.2 fun r hr => by simp [hacme r hr, hsym]
    rw [hall, h]
  · have hnil : recordsOf sym records = [] := List.filter_eq_nil_iff.2 fun r hr hrs => by
      simp only [hacme r hr, decide_eq_true_eq] at hrs
      exact hsym hrs.symm
    rw [hnil]
    rfl

end TalonX.V2
