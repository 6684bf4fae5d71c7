import TalonX.V2.ClusterCausality

/-!
# The identity of an episode under late filings

The id of an episode hashes the owners that have filed by its activation day. A record that is ingested later leaves it
alone when it is filed after that day, and changes it when it is filed on that very day by an owner of its own.

- `mem_owners_countedRecords`: the owners that file on the last day of some records;
- `scan_sameDay`: the scan before and after records are added on its last day;
- `episode_survives_iff`: exactly which late records an id survives.
-/

set_option autoImplicit false

namespace TalonX.V2

open Transact

variable {cal : Calendar} {cfg : V2Config}

/-! ## Records without duplicates -/

/-- What stays of a key is not above any of its records. -/
theorem firstOccurrences_first {α κ : Type} [DecidableEq κ] {key : α → κ} {r : α → α → Prop} (hrefl : ∀ a, r a a)
    {l : List α} (hl : l.Pairwise r) {x y : α} (hy : y ∈ firstOccurrences key l) (hx : x ∈ l) (hk : key x = key y) :
    r y x := by
  induction l with
  | nil => cases hx
  | cons z zs ih =>
    obtain ⟨hz, hzs⟩ := List.pairwise_cons.1 hl
    rcases List.mem_cons.1 hy with rfl | hy
    · rcases List.mem_cons.1 hx with rfl | hx
      · exact hrefl _
      · exact hz x hx
    · obtain ⟨hy, hne⟩ := List.mem_filter.1 hy
      rcases List.mem_cons.1 hx with rfl | hx
      · exact absurd hk.symm (by simpa using hne)
      · exact ih hzs hy hx

theorem mem_countedRecords {records : List PurchaseRecord} {r : PurchaseRecord} (h : r ∈ countedRecords cfg records) :
    r ∈ records ∧ r.counted cfg = true := by
  rw [countedRecords, dedupe_eq] at h
  exact List.mem_filter.1 ((List.mem_insertionSort _).1 (mem_of_mem_firstOccurrences h))

/-- Of every key its earliest filing is kept. -/
theorem filingDate_le_of_mem_countedRecords {records : List PurchaseRecord} {r q : PurchaseRecord}
    (h : r ∈ countedRecords cfg records) (hq : q ∈ records) (hc : q.counted cfg = true)
    (hk : q.dedupeKey = r.dedupeKey) : r.filingDate ≤ q.filingDate := by
  have hrefl : ∀ a, dedupeLe a a := fun a => (dedupeLe_total a a).elim id id
  have hq' : q ∈ (records.filter (·.counted cfg)).insertionSort dedupeLe :=
    (List.mem_insertionSort _).2 (List.mem_filter.2 ⟨hq, hc⟩)
  rw [countedRecords, dedupe_eq] at h
  exact filingDate_le_of_dedupeLe (firstOccurrences_first hrefl (pairwise_insertionSort_dedupeLe _) h hq' hk)

theorem exists_mem_countedRecords {records : List PurchaseRecord} {q : PurchaseRecord} (hq : q ∈ records)
    (hc : q.counted cfg = true) : ∃ r ∈ countedRecords cfg records, r.dedupeKey = q.dedupeKey := by
  have hq' : q ∈ (records.filter (·.counted cfg)).insertionSort dedupeLe :=
    (List.mem_insertionSort _).2 (List.mem_filter.2 ⟨hq, hc⟩)
  have hfirst : ∃ y ∈ firstOccurrences PurchaseRecord.dedupeKey ((records.filter (·.counted cfg)).insertionSort dedupeLe),
      y.dedupeKey = q.dedupeKey := exists_firstOccurrences hq'
  exact hfirst

/-- No counted record with the key of `r` is filed before it. -/
def FirstFiled (cfg : V2Config) (records : List PurchaseRecord) (r : PurchaseRecord) : Prop :=
  r.counted cfg = true ∧ ∀ q ∈ records, q.counted cfg = true → q.dedupeKey = r.dedupeKey → r.filingDate ≤ q.filingDate

/-- The owners of one day: those of the records of that day that are the first of their key. -/
theorem mem_owners_countedRecords {records : List PurchaseRecord} {a : Date} {o : String} :
    (∃ r ∈ countedRecords cfg records, r.filingDate = a ∧ r.ownerCik = o) ↔
      ∃ r ∈ records, r.filingDate = a ∧ r.ownerCik = o ∧ FirstFiled cfg records r := by
  constructor
  · rintro ⟨r, hr, hd, ho⟩
    obtain ⟨hmem, hc⟩ := mem_countedRecords hr
    exact ⟨r, hmem, hd, ho, hc, fun q hq hqc hk => filingDate_le_of_mem_countedRecords hr hq hqc hk⟩
  · rintro ⟨r, hr, hd, ho, hc, hfirst⟩
    obtain ⟨q, hq, hk⟩ := exists_mem_countedRecords hr hc
    obtain ⟨hqm, hqc⟩ := mem_countedRecords hq
    have hqr : q.filingDate = r.filingDate :=
      le_antisymm (filingDate_le_of_mem_countedRecords hq hr hc hk.symm) (hfirst q hqm hqc hk)
    have hown : q.ownerCik = r.ownerCik := congrArg (fun k => k.2.1) hk
    exact ⟨q, hq, hqr.trans hd, hown.trans ho⟩

/-- What a later record of day `a` adds to the owners of that day. -/
theorem mem_owners_append {records : List PurchaseRecord} {r : PurchaseRecord} {a : Date} (hr : r.filingDate = a)
    {o : String} :
    (∃ q ∈ countedRecords cfg (records ++ [r]), q.filingDate = a ∧ q.ownerCik = o) ↔
      (∃ q ∈ countedRecords cfg records, q.filingDate = a ∧ q.ownerCik = o) ∨
        r.ownerCik = o ∧ FirstFiled cfg records r := by
  rw [mem_owners_countedRecords, mem_owners_countedRecords]
  constructor
  · rintro ⟨q, hq, hd, ho, hc, hfirst⟩
    have hfirst' : FirstFiled cfg records q := ⟨hc, fun x hx => hfirst x (List.mem_append_left _ hx)⟩
    rcases List.mem_append.1 hq with hq | hq
    · exact Or.inl ⟨q, hq, hd, ho, hfirst'⟩
    · obtain rfl := List.mem_singleton.1 hq
      exact Or.inr ⟨ho, hfirst'⟩
  · have happ : ∀ q, q.filingDate = a → FirstFiled cfg records q → FirstFiled cfg (records ++ [r]) q := by
      rintro q hd ⟨hc, hfirst⟩
      refine ⟨hc, fun x hx hxc hk => ?_⟩
      rcases List.mem_append.1 hx with hx | hx
      · exact hfirst x hx hxc hk
      · rw [List.mem_singleton.1 hx, hd, hr]
    rintro (⟨q, hq, hd, ho, hfirst⟩ | ⟨ho, hfirst⟩)
    · exact ⟨q, List.mem_append_left _ hq, hd, ho, happ q hd hfirst⟩
    · exact ⟨r, List.mem_append_right _ (List.mem_singleton.2 rfl), hr, ho, happ r hr hfirst⟩

/-! ## Records of one day -/

/-- The records of the last day: all filed on `a`, with one ordinal, of one issuer. -/
structure SameDay (a : Date) (oa : ℕ) (sym : Symbol) (v : List (PurchaseRecord × ℕ)) : Prop where
  filed : ∀ x ∈ v, x.1.filingDate = a
  ordinal : ∀ x ∈ v, x.2 = oa
  symbol : ∀ x ∈ v, x.1.symbol.toUpper = sym

variable {a : Date} {oa : ℕ} {sym : Symbol}

/-- A window that reaches all the records takes them all. -/
theorem windowOf_of_forall {ord : ℕ} {rest : List (PurchaseRecord × ℕ)}
    (h : ∀ x ∈ rest, x.2 ≤ ord + cfg.clusterWindowTradingDays) :
    windowOf cfg ord rest = rest.map Prod.fst ∧ behindWindow cfg ord rest = [] := by
  induction rest with
  | nil => exact ⟨rfl, rfl⟩
  | cons x rest ih =>
    obtain ⟨hx, hrest⟩ := List.forall_mem_cons.1 h
    obtain ⟨hw, hb⟩ := ih hrest
    rw [windowOf_cons, behindWindow_cons, if_pos hx, if_pos hx, hw, hb]
    exact ⟨rfl, rfl⟩

/-- A window that does not reach the last day leaves all its records behind. -/
theorem windowOf_append_out {u v : List (PurchaseRecord × ℕ)} {ord : ℕ} (hv : SameDay a oa sym v)
    (hout : ¬ ((∀ x ∈ u, x.2 ≤ ord + cfg.clusterWindowTradingDays) ∧ oa ≤ ord + cfg.clusterWindowTradingDays)) :
    windowOf cfg ord (u ++ v) = windowOf cfg ord u ∧ behindWindow cfg ord (u ++ v) = behindWindow cfg ord u ++ v := by
  induction u with
  | nil =>
    have hoa : ¬ oa ≤ ord + cfg.clusterWindowTradingDays := fun h => hout ⟨by simp, h⟩
    cases v with
    | nil => exact ⟨rfl, rfl⟩
    | cons y v =>
      rw [List.nil_append, windowOf_cons, behindWindow_cons, hv.ordinal y List.mem_cons_self, if_neg hoa, if_neg hoa]
      exact ⟨rfl, rfl⟩
  | cons x u ih =>
    rw [List.cons_append, windowOf_cons, behindWindow_cons, windowOf_cons, behindWindow_cons]
    by_cases hx : x.2 ≤ ord + cfg.clusterWindowTradingDays
    · obtain ⟨hw, hb⟩ := ih fun h => hout ⟨List.forall_mem_cons.2 ⟨hx, h.1⟩, h.2⟩
      rw [if_pos hx, if_pos hx, if_pos hx, if_pos hx, hw, hb]
      exact ⟨rfl, rfl⟩
    · rw [if_neg hx, if_neg hx, if_neg hx, if_neg hx]
      exact ⟨rfl, rfl⟩

theorem length_distinctOwners_le_of_owners {w w' : List PurchaseRecord}
    (h : ∀ r ∈ w, ∃ r' ∈ w', r'.ownerCik = r.ownerCik) :
    (distinctOwners w).length ≤ (distinctOwners w').length := by
  refine length_firstOccurrences_le fun o ho => ?_
  obtain ⟨r, hr, rfl⟩ := List.mem_map.1 ho
  obtain ⟨r', hr', heq⟩ := h r hr
  exact List.mem_map.2 ⟨r', hr', heq⟩

/-- The last window before and after records are added on the last day. -/
theorem lastWindow {u v v' w w' : List PurchaseRecord} {r r' : PurchaseRecord} {ep ep' : ClusterEpisode}
    (hn : 0 < cfg.minDistinctOwners) (huv : r :: w = u ++ v) (huv' : r' :: w' = u ++ v')
    (hs : (u ++ v).Pairwise fun x y => x.filingDate ≤ y.filingDate)
    (hs' : (u ++ v').Pairwise fun x y => x.filingDate ≤ y.filingDate) (hu : ∀ x ∈ u, x.filingDate < a)
    (hv : ∀ x ∈ v, x.filingDate = a) (hv' : ∀ x ∈ v', x.filingDate = a)
    (howners : ∀ x ∈ v, ∃ x' ∈ v', x'.ownerCik = x.ownerCik)
    (henough : cfg.minDistinctOwners ≤ (distinctOwners (r :: w)).length)
    (hep : buildEpisode cal cfg r w = some ep) (hep' : buildEpisode cal cfg r' w' = some ep')
    (hact : ep.activationFilingDate = a) :
    ep'.activationFilingDate = a ∧
      ∀ o, o ∈ ep'.distinctOwnerCiks ↔ o ∈ ep.distinctOwnerCiks ∨ ∃ x ∈ v', x.ownerCik = o := by
  obtain ⟨last, hact1, -, hown, -⟩ := buildEpisode_activation hep
  obtain ⟨last', hact1', -, hown', -⟩ := buildEpisode_activation hep'
  have henough' : cfg.minDistinctOwners ≤ (distinctOwners (r' :: w')).length := by
    refine henough.trans (length_distinctOwners_le_of_owners fun x hx => ?_)
    rw [huv] at hx
    rw [huv']
    rcases List.mem_append.1 hx with hx | hx
    · exact ⟨x, List.mem_append_left _ hx, rfl⟩
    · obtain ⟨x', hx', heq⟩ := howners x hx
      exact ⟨x', List.mem_append_right _ hx', heq⟩
  have hle : ∀ x ∈ u ++ v, x.filingDate ≤ a := fun x hx =>
    (List.mem_append.1 hx).elim (fun hx => (hu x hx).le) fun hx => (hv x hx).le
  have hle' : ∀ x ∈ u ++ v', x.filingDate ≤ a := fun x hx =>
    (List.mem_append.1 hx).elim (fun hx => (hu x hx).le) fun hx => (hv' x hx).le
  have hact' : ep'.activationFilingDate = a := by
    obtain ⟨q, hq, heq⟩ := exists_activation hn last' henough'
    rw [← hact1'] at heq
    refine le_antisymm (heq ▸ hle' q (huv' ▸ hq)) (Nat.not_lt.1 fun hlt => ?_)
    -- otherwise the owners before the last day suffice, with and without the new records
    have hearly := (activationDate_le_iff hn last' (huv' ▸ hs') henough').1 (le_of_eq hact1'.symm)
    have hearly' := (activationDate_le_iff (d := ep'.activationFilingDate) hn last (huv ▸ hs) henough).2
      (hearly.trans (length_distinctOwners_le fun x hx => by
        obtain ⟨hx, hd⟩ := List.mem_filter.1 hx
        refine List.mem_filter.2 ⟨?_, hd⟩
        rw [huv'] at hx
        rw [huv]
        rcases List.mem_append.1 hx with hx | hx
        · exact List.mem_append_left _ hx
        · rw [PurchaseRecord.filedBy_iff, hv' x hx] at hd
          exact absurd hd (Nat.not_le.2 hlt)))
    rw [← hact1, hact] at hearly'
    exact absurd hearly' (Nat.not_le.2 hlt)
  refine ⟨hact', fun o => ?_⟩
  have hall : (r :: w).filter (·.filedBy ep.activationFilingDate) = u ++ v := by
    rw [huv, hact]
    exact List.filter_eq_self.2 fun x hx => by simpa using hle x hx
  have hall' : (r' :: w').filter (·.filedBy ep'.activationFilingDate) = u ++ v' := by
    rw [huv', hact']
    exact List.filter_eq_self.2 fun x hx => by simpa using hle' x hx
  rw [hown, hown', hall, hall', mem_distinctOwners, mem_distinctOwners]
  constructor
  · rintro ⟨x, hx, rfl⟩
    rcases List.mem_append.1 hx with hx | hx
    · exact Or.inl ⟨x, List.mem_append_left _ hx, rfl⟩
    · exact Or.inr ⟨x, hx, rfl⟩
  · rintro (⟨x, hx, rfl⟩ | ⟨x, hx, rfl⟩)
    · rcases List.mem_append.1 hx with hx | hx
      · exact ⟨x, List.mem_append_left _ hx, rfl⟩
      · obtain ⟨x', hx', heq⟩ := howners x hx
        exact ⟨x', List.mem_append_right _ hx', heq⟩
    · exact ⟨x, List.mem_append_right _ hx, rfl⟩

/-- A window that takes all the records gives the only episode, or there is none. -/
theorem scan_last {fuel : ℕ} {x : PurchaseRecord × ℕ} {rest : List (PurchaseRecord × ℕ)} {eps : List ClusterEpisode}
    (hall : ∀ y ∈ rest, y.2 ≤ x.2 + cfg.clusterWindowTradingDays)
    (h : scan cal cfg (fuel + 1) (x :: rest) = some eps) :
    (∃ ep, cfg.minDistinctOwners ≤ (distinctOwners (x.1 :: rest.map Prod.fst)).length ∧
        buildEpisode cal cfg x.1 (rest.map Prod.fst) = some ep ∧ eps = [ep]) ∨
      ¬ cfg.minDistinctOwners ≤ (distinctOwners (x.1 :: rest.map Prod.fst)).length ∧ eps = [] := by
  obtain ⟨hw, hb⟩ := windowOf_of_forall hall
  obtain ⟨r, ord⟩ := x
  rw [scan_cons, hw, hb] at h
  split at h
  · rename_i henough
    split at h
    · cases h
    rename_i ep hep
    obtain ⟨eps', heps', rfl⟩ := Option.map_eq_some_iff.1 h
    have hnil : scan cal cfg fuel [] = some [] := by cases fuel <;> rfl
    rw [hnil] at heps'
    obtain rfl := Option.some.inj heps'
    exact Or.inl ⟨ep, henough, hep, rfl⟩
  · rename_i hfew
    have hfew' : (distinctOwners (rest.map Prod.fst)).length < cfg.minDistinctOwners :=
      (length_distinctOwners_le (List.subset_cons_self _ _)).trans_lt (Nat.not_le.1 hfew)
    rw [scan_of_few hfew'] at h
    exact Or.inr ⟨hfew, (Option.some.inj h).symm⟩

/-- An episode with the owners of `e`, and those of the records `v'`. -/
structure SameDayEpisode (a : Date) (v' : List (PurchaseRecord × ℕ)) (e e' : ClusterEpisode) : Prop where
  first : e'.episodeId.firstFiling = e.episodeId.firstFiling
  activation : e'.activationFilingDate = a
  owners : ∀ o, o ∈ e'.distinctOwnerCiks ↔ o ∈ e.distinctOwnerCiks ∨ ∃ x ∈ v', x.1.ownerCik = o

section LastDay

variable {v v' : List (PurchaseRecord × ℕ)}

/-- The scans at a record whose window takes all the records that are left. -/
theorem scan_last_sameDay (hn : 0 < cfg.minDistinctOwners) (hv : SameDay a oa sym v) (hv' : SameDay a oa sym v')
    (howners : ∀ x ∈ v, ∃ x' ∈ v', x'.1.ownerCik = x.1.ownerCik) {fuel fuel' : ℕ} {u rest rest' : List (PurchaseRecord × ℕ)}
    {x x' : PurchaseRecord × ℕ} {eps eps' : List ClusterEpisode} (hsplit : x :: rest = u ++ v)
    (hsplit' : x' :: rest' = u ++ v') (hx : x'.1.filingDate = x.1.filingDate)
    (hall : ∀ y ∈ rest, y.2 ≤ x.2 + cfg.clusterWindowTradingDays)
    (hall' : ∀ y ∈ rest', y.2 ≤ x'.2 + cfg.clusterWindowTradingDays) (hs : Scanned (fuel + 1) (u ++ v))
    (hs' : Scanned (fuel' + 1) (u ++ v')) (hu : ∀ y ∈ u, y.1.filingDate < a)
    (h : scan cal cfg (fuel + 1) (u ++ v) = some eps) (h' : scan cal cfg (fuel' + 1) (u ++ v') = some eps')
    {e : ClusterEpisode} (he : e ∈ eps) (hact : e.activationFilingDate = a) : ∃ e' ∈ eps', SameDayEpisode a v' e e' := by
  have hmap : x.1 :: rest.map Prod.fst = u.map Prod.fst ++ v.map Prod.fst := by
    rw [← List.map_append, ← hsplit, List.map_cons]
  have hmap' : x'.1 :: rest'.map Prod.fst = u.map Prod.fst ++ v'.map Prod.fst := by
    rw [← List.map_append, ← hsplit', List.map_cons]
  have howners' : ∀ y ∈ v.map Prod.fst, ∃ y' ∈ v'.map Prod.fst, y'.ownerCik = y.ownerCik := by
    intro y hy
    obtain ⟨z, hz, rfl⟩ := List.mem_map.1 hy
    obtain ⟨z', hz', heq⟩ := howners z hz
    exact ⟨z'.1, List.mem_map_of_mem hz', heq⟩
  rw [← hsplit] at h
  rw [← hsplit'] at h'
  rcases scan_last hall h with ⟨ep, henough, hep, rfl⟩ | ⟨-, rfl⟩
  swap
  · cases he
  obtain rfl := List.mem_singleton.1 he
  have henough' : cfg.minDistinctOwners ≤ (distinctOwners (x'.1 :: rest'.map Prod.fst)).length := by
    refine henough.trans (length_distinctOwners_le_of_owners fun y hy => ?_)
    rw [hmap] at hy
    rw [hmap']
    rcases List.mem_append.1 hy with hy | hy
    · exact ⟨y, List.mem_append_left _ hy, rfl⟩
    · obtain ⟨y', hy', heq⟩ := howners' y hy
      exact ⟨y', List.mem_append_right _ hy', heq⟩
  rcases scan_last hall' h' with ⟨ep', -, hep', rfl⟩ | ⟨hfew, -⟩
  swap
  · exact absurd henough' hfew
  have hfiled : ∀ {w : List (PurchaseRecord × ℕ)}, SameDay a oa sym w → ∀ y ∈ w.map Prod.fst, y.filingDate = a := by
    intro w hw y hy
    obtain ⟨z, hz, rfl⟩ := List.mem_map.1 hy
    exact hw.filed z hz
  have hbefore : ∀ y ∈ u.map Prod.fst, y.filingDate < a := by
    intro y hy
    obtain ⟨z, hz, rfl⟩ := List.mem_map.1 hy
    exact hu z hz
  obtain ⟨hact', hown⟩ := lastWindow hn hmap hmap' (List.map_append ▸ hs.sorted) (List.map_append ▸ hs'.sorted) hbefore
    (hfiled hv) (hfiled hv') howners' henough hep hep' hact
  refine ⟨ep', List.mem_singleton.2 rfl, ?_, hact', fun o => ?_⟩
  · rw [(buildEpisode_spec hep').2.1, (buildEpisode_spec hep).2.1, hx]
  · rw [hown]
    simp only [List.mem_map, exists_exists_and_eq_and]

/-- An episode that is activated on the last day is detected again when owners are added on that day. -/
theorem scan_sameDay (hn : 0 < cfg.minDistinctOwners) (hv : SameDay a oa sym v) (hv' : SameDay a oa sym v')
    (howners : ∀ x ∈ v, ∃ x' ∈ v', x'.1.ownerCik = x.1.ownerCik) {fuel fuel' : ℕ} {u : List (PurchaseRecord × ℕ)}
    {eps eps' : List ClusterEpisode} (hs : Scanned fuel (u ++ v)) (hs' : Scanned fuel' (u ++ v'))
    (hu : ∀ y ∈ u, y.1.filingDate < a) (h : scan cal cfg fuel (u ++ v) = some eps)
    (h' : scan cal cfg fuel' (u ++ v') = some eps') {e : ClusterEpisode} (he : e ∈ eps)
    (hact : e.activationFilingDate = a) : ∃ e' ∈ eps', SameDayEpisode a v' e e' := by
  induction fuel generalizing fuel' u eps eps' with
  | zero =>
    obtain rfl := Option.some.inj h
    cases he
  | succ fuel ih =>
    cases u with
    | nil =>
      cases v with
      | nil =>
        obtain rfl := Option.some.inj h
        cases he
      | cons x rest =>
        obtain ⟨x', hx', -⟩ := howners x List.mem_cons_self
        cases v' with
        | nil => cases hx'
        | cons x' rest' =>
          obtain ⟨k, rfl⟩ : ∃ k, fuel' = k + 1 := by
            have hlen := hs'.fuel
            rw [List.nil_append, List.length_cons] at hlen
            exact ⟨fuel' - 1, by omega⟩
          have hday : ∀ {w : List (PurchaseRecord × ℕ)} {y : PurchaseRecord × ℕ}, SameDay a oa sym (y :: w) →
              ∀ z ∈ w, z.2 ≤ y.2 + cfg.clusterWindowTradingDays := by
            intro w y hw z hz
            rw [hw.ordinal z (List.mem_cons_of_mem _ hz), hw.ordinal y List.mem_cons_self]
            exact Nat.le_add_right _ _
          have hdate : x'.1.filingDate = x.1.filingDate :=
            (hv'.filed x' List.mem_cons_self).trans (hv.filed x List.mem_cons_self).symm
          exact scan_last_sameDay hn hv hv' howners rfl rfl hdate (hday hv) (hday hv') hs hs' hu h h' he hact
    | cons y u =>
      obtain ⟨k, rfl⟩ : ∃ k, fuel' = k + 1 := by
        have hlen := hs'.fuel
        rw [List.cons_append, List.length_cons] at hlen
        exact ⟨fuel' - 1, by omega⟩
      obtain ⟨hy, hu'⟩ := List.forall_mem_cons.1 hu
      by_cases hin : (∀ z ∈ u, z.2 ≤ y.2 + cfg.clusterWindowTradingDays) ∧ oa ≤ y.2 + cfg.clusterWindowTradingDays
      · -- the window reaches the last day
        have hall : ∀ {w : List (PurchaseRecord × ℕ)}, SameDay a oa sym w →
            ∀ z ∈ u ++ w, z.2 ≤ y.2 + cfg.clusterWindowTradingDays := by
          intro w hw z hz
          rcases List.mem_append.1 hz with hz | hz
          · exact hin.1 z hz
          · rw [hw.ordinal z hz]
            exact hin.2
        exact scan_last_sameDay hn hv hv' howners rfl rfl rfl (hall hv) (hall hv') hs hs' hu h h' he hact
      · -- it ends before: the same window in both scans
        obtain ⟨r, ord⟩ := y
        obtain ⟨hw, hb⟩ := windowOf_append_out hv hin
        obtain ⟨hw', hb'⟩ := windowOf_append_out hv' hin
        rw [List.cons_append, scan_cons, hw, hb] at h
        rw [List.cons_append, scan_cons, hw', hb'] at h'
        have hsub : ∀ w : List (PurchaseRecord × ℕ), (behindWindow cfg ord u ++ w).Sublist (u ++ w) := fun w =>
          (behindWindow_sublist cfg ord u).append (List.Sublist.refl w)
        split at h
        · rename_i henough
          rw [if_pos henough] at h'
          cases hep : buildEpisode cal cfg r (windowOf cfg ord u) with
          | none => rw [hep] at h; cases h
          | some ep =>
            rw [hep] at h h'
            obtain ⟨eps1, heps1, rfl⟩ := Option.map_eq_some_iff.1 h
            obtain ⟨eps1', heps1', rfl⟩ := Option.map_eq_some_iff.1 h'
            rcases List.mem_cons.1 he with rfl | he
            · -- that episode is activated before the last day
              obtain ⟨last, hact1, -⟩ := buildEpisode_activation hep
              obtain ⟨q, hq, heq⟩ := exists_activation hn last henough
              have hqa : q.filingDate < a := by
                rcases List.mem_cons.1 hq with rfl | hq
                · exact hy
                · obtain ⟨z, hz, rfl⟩ := List.mem_map.1 ((windowOf_sublist cfg ord u).subset hq)
                  exact hu' z hz
              rw [← heq, ← hact1, hact] at hqa
              exact absurd hqa (Nat.lt_irrefl a)
            · obtain ⟨e', he', hsame⟩ := ih (hs.sublist (hsub v)) (hs'.sublist (hsub v'))
                (fun z hz => hu' z ((behindWindow_sublist cfg ord u).subset hz)) heps1 heps1' he
              exact ⟨e', List.mem_cons_of_mem _ he', hsame⟩
        · rename_i hfew
          rw [if_neg hfew] at h'
          exact ih (hs.sublist (List.Sublist.refl _)) (hs'.sublist (List.Sublist.refl _)) hu' h h' he

end LastDay

/-! ## One issuer -/

/-- An episode whose id is made of its owners and its dates. -/
structure ClusterEpisode.Identified (e : ClusterEpisode) : Prop where
  owners : e.episodeId.ownerCiks = e.distinctOwnerCiks.insertionSort (· ≤ ·)
  activation : e.episodeId.activationFiling = e.activationFilingDate
  nodup : e.distinctOwnerCiks.Nodup

theorem identified_of_mem_scan {fuel : ℕ} {xs : List (PurchaseRecord × ℕ)} {eps : List ClusterEpisode}
    (h : scan cal cfg fuel xs = some eps) : ∀ e ∈ eps, e.Identified := by
  induction fuel generalizing xs eps with
  | zero =>
    obtain rfl := Option.some.inj h
    simp
  | succ fuel ih =>
    cases xs with
    | nil =>
      obtain rfl := Option.some.inj h
      simp
    | cons x rest =>
      obtain ⟨r, ord⟩ := x
      rw [scan_cons] at h
      split at h
      · split at h
        · cases h
        rename_i ep hep
        obtain ⟨eps', heps', rfl⟩ := Option.map_eq_some_iff.1 h
        obtain ⟨last, -, hid, hown, hsort⟩ := buildEpisode_activation hep
        refine List.forall_mem_cons.2 ⟨⟨hsort, hid, ?_⟩, ih heps'⟩
        rw [hown]
        exact nodup_distinctOwners _
      · exact ih h

theorem identified_of_mem {records : List PurchaseRecord} {eps : List ClusterEpisode}
    (h : detectEpisodesForIssuer cal cfg records = some eps) : ∀ e ∈ eps, e.Identified := by
  rcases detectEpisodesForIssuer_cases h with ⟨-, rfl⟩ | ⟨xs, -, hscan⟩
  · simp
  · exact identified_of_mem_scan hscan

/-- The id of an episode has the owners of another one's if and only if the two have the same owners. -/
theorem ownerCiks_eq_iff {e e' : ClusterEpisode} (he : e.Identified) (he' : e'.Identified) :
    e'.episodeId.ownerCiks = e.episodeId.ownerCiks ↔ ∀ o, o ∈ e'.distinctOwnerCiks ↔ o ∈ e.distinctOwnerCiks := by
  rw [he.owners, he'.owners]
  constructor
  · intro heq o
    have hmem : ∀ l : List String, o ∈ l.insertionSort (· ≤ ·) ↔ o ∈ l := fun l => List.mem_insertionSort _
    rw [← hmem, heq, hmem]
  · intro hsame
    have hperm : e'.distinctOwnerCiks.Perm e.distinctOwnerCiks :=
      (List.perm_ext_iff_of_nodup he'.nodup he.nodup).2 hsame
    refine List.Perm.eq_of_pairwise' (List.pairwise_insertionSort _ _) (List.pairwise_insertionSort _ _) ?_
    exact (List.perm_insertionSort _ _).trans (hperm.trans (List.perm_insertionSort _ _).symm)

/-- Two episodes of one issuer with one first filing date are the same. -/
theorem eq_of_firstFiling {eps : List ClusterEpisode}
    (hpair : eps.Pairwise fun e e' => e.episodeId.firstFiling < e'.episodeId.firstFiling) {e e' : ClusterEpisode}
    (he : e ∈ eps) (he' : e' ∈ eps) (h : e.episodeId.firstFiling = e'.episodeId.firstFiling) : e = e' := by
  have hn : (eps.map fun e => e.episodeId.firstFiling).Nodup := List.pairwise_map.2 (hpair.imp fun hlt => hlt.ne)
  exact List.inj_on_of_nodup_map hn he he' h

/-- The records of an issuer up to the day `a`, cut before that day. -/
theorem sameDay_of_withOrdinals {records : List PurchaseRecord} {xs : List (PurchaseRecord × ℕ)}
    (hsym : ∀ r ∈ records, r.symbol.toUpper = sym) (hle : ∀ r ∈ records, r.filingDate ≤ a)
    (h : withOrdinals cal (countedRecords cfg records) = some xs) :
    SameDay a ((cal.sessionOrdinal a true).getD 0) sym (xs.filter fun x => !decide (x.1.filingDate < a)) ∧
      (xs.filter fun x => decide (x.1.filingDate < a)) ++ (xs.filter fun x => !decide (x.1.filingDate < a)) = xs ∧
      ∀ o, (∃ x ∈ xs.filter fun x => !decide (x.1.filingDate < a), x.1.ownerCik = o) ↔
        ∃ r ∈ countedRecords cfg records, r.filingDate = a ∧ r.ownerCik = o := by
  have hmem : ∀ x ∈ xs, x.1 ∈ countedRecords cfg records := fun x hx =>
    (perm_of_withOrdinals h).subset (List.mem_map_of_mem hx)
  have hday : ∀ x ∈ xs.filter fun x => !decide (x.1.filingDate < a), x ∈ xs ∧ x.1.filingDate = a := by
    intro x hx
    obtain ⟨hx, hd⟩ := List.mem_filter.1 hx
    have hge : a ≤ x.1.filingDate := by simpa using hd
    exact ⟨hx, le_antisymm (hle _ (mem_countedRecords (hmem x hx)).1) hge⟩
  refine ⟨⟨fun x hx => (hday x hx).2, fun x hx => ?_, fun x hx => ?_⟩, ?_, fun o => ?_⟩
  · have hord := (mapM_pair_spec h).2 x (hday x hx).1
    rw [(hday x hx).2] at hord
    rw [hord]
    rfl
  · exact hsym _ (mem_countedRecords (hmem x (hday x hx).1)).1
  · have hsorted := (scanned_of_withOrdinals h).sorted
    rw [List.pairwise_map] at hsorted
    refine Closes.filter_append (hsorted.imp fun hxy hy => ?_)
    simp only [decide_eq_true_eq] at hy ⊢
    exact hxy.trans_lt hy
  · constructor
    · rintro ⟨x, hx, rfl⟩
      exact ⟨x.1, hmem x (hday x hx).1, (hday x hx).2, rfl⟩
    · rintro ⟨r, hr, hd, rfl⟩
      obtain ⟨x, hx, rfl⟩ := List.mem_map.1 ((perm_of_withOrdinals h).mem_iff.2 hr)
      exact ⟨x, List.mem_filter.2 ⟨hx, by simp [hd]⟩, rfl⟩

/-- The records up to day `a` before and after one more record of that day: every episode activated on `a` has one with
the same first filing, and the owner of the new record when it counts. -/
theorem exists_sameDayEpisode (hn : 0 < cfg.minDistinctOwners) {records : List PurchaseRecord} {r : PurchaseRecord}
    (hsym : ∀ q ∈ records ++ [r], q.symbol.toUpper = sym) (hle : ∀ q ∈ records ++ [r], q.filingDate ≤ a)
    (hr : r.filingDate = a) {es es' : List ClusterEpisode}
    (h : detectEpisodesForIssuer cal cfg records = some es)
    (h' : detectEpisodesForIssuer cal cfg (records ++ [r]) = some es') {e : ClusterEpisode} (he : e ∈ es)
    (hact : e.activationFilingDate = a) :
    ∃ e' ∈ es', e'.episodeId.firstFiling = e.episodeId.firstFiling ∧ e'.activationFilingDate = a ∧
      ∀ o, o ∈ e'.distinctOwnerCiks ↔ o ∈ e.distinctOwnerCiks ∨ r.ownerCik = o ∧ FirstFiled cfg records r := by
  rcases detectEpisodesForIssuer_cases h with ⟨-, rfl⟩ | ⟨xs, hxs, hscan⟩
  · cases he
  -- the owners do not become fewer, so the scan takes place again
  have hkeep : ∀ q ∈ countedRecords cfg records, ∃ q' ∈ countedRecords cfg (records ++ [r]), q'.ownerCik = q.ownerCik := by
    intro q hq
    obtain ⟨hmem, hc⟩ := mem_countedRecords hq
    obtain ⟨q', hq', hk⟩ := exists_mem_countedRecords (List.mem_append_left [r] hmem) hc
    exact ⟨q', hq', congrArg (fun k => k.2.1) hk⟩
  have henough : cfg.minDistinctOwners ≤ (distinctOwners (xs.map Prod.fst)).length := by
    by_contra hfew
    rw [scan_of_few (Nat.not_le.1 hfew)] at hscan
    obtain rfl := Option.some.inj hscan
    cases he
  have hlong : cfg.minDistinctOwners ≤ (countedRecords cfg (records ++ [r])).length := by
    refine henough.trans ((length_distinctOwners_le_of_owners fun q hq => ?_).trans (length_distinctOwners_le_length _))
    exact hkeep q ((perm_of_withOrdinals hxs).subset hq)
  rcases detectEpisodesForIssuer_cases h' with ⟨hshort, -⟩ | ⟨xs', hxs', hscan'⟩
  · exact absurd hlong (Nat.not_le.2 hshort)
  have hleft : ∀ q ∈ records, q ∈ records ++ [r] := fun q hq => List.mem_append_left _ hq
  obtain ⟨hv, hsplit, hown⟩ := sameDay_of_withOrdinals (fun q hq => hsym q (hleft q hq)) (fun q hq => hle q (hleft q hq)) hxs
  obtain ⟨hv', hsplit', hown'⟩ := sameDay_of_withOrdinals hsym hle hxs'
  -- before day `a` nothing has changed
  have hbefore : (xs'.filter fun x => decide (x.1.filingDate < a)) = xs.filter fun x => decide (x.1.filingDate < a) := by
    have hupTo : UpTo fun q => decide (q.filingDate < a) := fun b c hbc hc => by
      simp only [decide_eq_true_eq] at hc ⊢
      exact hbc.trans_lt hc
    have hcut := withOrdinals_filter (fun q => decide (q.filingDate < a)) hxs
    have hcut' := withOrdinals_filter (fun q => decide (q.filingDate < a)) hxs'
    have hnew : (records ++ [r]).filter (fun q => decide (q.filingDate < a)) =
        records.filter fun q => decide (q.filingDate < a) := by
      rw [List.filter_append, List.filter_cons_of_neg (by simp [hr]), List.filter_nil, List.append_nil]
    rw [← filter_countedRecords hupTo] at hcut hcut'
    rw [hnew, hcut] at hcut'
    exact (Option.some.inj hcut').symm
  rw [hbefore] at hsplit'
  have howners : ∀ o, (∃ x ∈ xs'.filter fun x => !decide (x.1.filingDate < a), x.1.ownerCik = o) ↔
      (∃ x ∈ xs.filter fun x => !decide (x.1.filingDate < a), x.1.ownerCik = o) ∨
        r.ownerCik = o ∧ FirstFiled cfg records r := fun o => by
    rw [hown', hown, mem_owners_append hr]
  have hu : ∀ y ∈ xs.filter (fun x => decide (x.1.filingDate < a)), y.1.filingDate < a := fun y hy => by
    simpa using (List.mem_filter.1 hy).2
  have hs := scanned_of_withOrdinals hxs
  have hs' := scanned_of_withOrdinals hxs'
  rw [← hsplit] at hs hscan
  rw [← hsplit'] at hs' hscan'
  obtain ⟨e', he', hsame⟩ := scan_sameDay hn hv hv'
    (fun x hx => (howners x.1.ownerCik).2 (Or.inl ⟨x, hx, rfl⟩)) hs hs' hu hscan hscan' he hact
  refine ⟨e', he', hsame.first, hsame.activation, fun o => ?_⟩
  -- the owners of day `a` are among those of the episode
  have hself : ∀ o, (∃ x ∈ xs.filter fun x => !decide (x.1.filingDate < a), x.1.ownerCik = o) →
      o ∈ e.distinctOwnerCiks := by
    intro o ho
    obtain ⟨f, hf, hfsame⟩ := scan_sameDay hn hv hv (fun x hx => ⟨x, hx, rfl⟩) hs hs hu hscan hscan he hact
    obtain rfl := eq_of_firstFiling (detectEpisodesForIssuer_spec (fun q hq => hsym q (hleft q hq)) h).1 hf he
      hfsame.first
    exact (hfsame.owners o).2 (Or.inr ho)
  rw [hsame.owners, howners]
  constructor
  · rintro (ho | ho | ho)
    · exact Or.inl ho
    · exact Or.inl (hself o ho)
    · exact Or.inr ho
  · rintro (ho | ho)
    · exact Or.inl ho
    · exact Or.inr (Or.inr ho)

/-- The late record changes the id of the episode: it is filed on the activation day by an owner who is not among those
of the episode, and no counted record with its key is filed before it. -/
def JoinsActivationDay (cfg : V2Config) (records : List PurchaseRecord) (e : ClusterEpisode) (r : PurchaseRecord) : Prop :=
  r.filingDate = e.activationFilingDate ∧ r.ownerCik ∉ e.distinctOwnerCiks ∧
    FirstFiled cfg (recordsOf e.symbol records) r

theorem firstFiled_filter {records : List PurchaseRecord} {r : PurchaseRecord} (hr : r.filingDate = a) :
    FirstFiled cfg (records.filter (·.filedBy a)) r ↔ FirstFiled cfg records r := by
  constructor
  · rintro ⟨hc, hfirst⟩
    refine ⟨hc, fun q hq hqc hk => ?_⟩
    by_cases hqa : q.filingDate ≤ a
    · exact hfirst q (List.mem_filter.2 ⟨hq, by simpa using hqa⟩) hqc hk
    · exact hr.trans_le (Nat.le_of_not_le hqa)
  · rintro ⟨hc, hfirst⟩
    exact ⟨hc, fun q hq => hfirst q (List.mem_filter.1 hq).1⟩

/-- One issuer: the id survives unless the record joins the activation day. -/
theorem survives_iff_of_issuer (hn : 0 < cfg.minDistinctOwners) {records : List PurchaseRecord} {r : PurchaseRecord}
    (hsym : ∀ q ∈ records ++ [r], q.symbol.toUpper = sym) {es es' : List ClusterEpisode}
    (h : detectEpisodesForIssuer cal cfg records = some es)
    (h' : detectEpisodesForIssuer cal cfg (records ++ [r]) = some es') {e : ClusterEpisode} (he : e ∈ es)
    (hd : e.activationFilingDate ≤ r.filingDate) :
    (∃ e' ∈ es', e'.episodeId = e.episodeId) ↔
      ¬ (r.filingDate = e.activationFilingDate ∧ r.ownerCik ∉ e.distinctOwnerCiks ∧ FirstFiled cfg records r) := by
  have hcut := detectEpisodesForIssuer_filter (d := e.activationFilingDate) hn h
  have hcut' := detectEpisodesForIssuer_filter (d := e.activationFilingDate) hn h'
  have hecut : e ∈ es.filter (·.activatedBy e.activationFilingDate) := List.mem_filter.2 ⟨he, by simp⟩
  rw [List.filter_append] at hcut'
  by_cases hr : r.filingDate = e.activationFilingDate
  swap
  · -- filed after the activation day, the record is cut off
    have hlate : [r].filter (·.filedBy e.activationFilingDate) = [] :=
      List.filter_cons_of_neg (by simpa using lt_of_le_of_ne hd (Ne.symm hr))
    rw [hlate, List.append_nil, hcut] at hcut'
    have heq := Option.some.inj hcut'
    rw [heq] at hecut
    exact ⟨fun _ hj => hr hj.1, fun _ => ⟨e, (List.mem_filter.1 hecut).1, rfl⟩⟩
  have hsame : [r].filter (·.filedBy e.activationFilingDate) = [r] := List.filter_cons_of_pos (by simp [hr])
  rw [hsame] at hcut'
  have hsub : ∀ q ∈ records.filter (·.filedBy e.activationFilingDate) ++ [r], q ∈ records ++ [r] ∧
      q.filingDate ≤ e.activationFilingDate := by
    intro q hq
    rcases List.mem_append.1 hq with hq | hq
    · exact ⟨List.mem_append_left _ (List.mem_filter.1 hq).1, by simpa using (List.mem_filter.1 hq).2⟩
    · rw [List.mem_singleton.1 hq]
      exact ⟨List.mem_append_right _ (List.mem_singleton.2 rfl), le_of_eq hr⟩
  obtain ⟨e', he', hfirst, hact, hown⟩ := exists_sameDayEpisode hn (fun q hq => hsym q (hsub q hq).1)
    (fun q hq => (hsub q hq).2) hr hcut hcut' hecut rfl
  rw [firstFiled_filter hr] at hown
  have hmem' := (List.mem_filter.1 he').1
  obtain ⟨hpair', hspec'⟩ := detectEpisodesForIssuer_spec hsym h'
  have hspec := detectEpisodesForIssuer_spec (fun q hq => hsym q (List.mem_append_left _ hq)) h
  have hid := identified_of_mem h e he
  have hid' := identified_of_mem h' e' hmem'
  have howners : (∀ o, o ∈ e'.distinctOwnerCiks ↔ o ∈ e.distinctOwnerCiks) ↔
      ¬ (r.filingDate = e.activationFilingDate ∧ r.ownerCik ∉ e.distinctOwnerCiks ∧ FirstFiled cfg records r) := by
    constructor
    · rintro hall ⟨-, hnot, hff⟩
      exact hnot ((hall _).1 ((hown _).2 (Or.inr ⟨rfl, hff⟩)))
    · intro hno o
      rw [hown]
      refine ⟨fun ho => ho.elim id fun ⟨hro, hff⟩ => ?_, Or.inl⟩
      by_contra hnot
      exact hno ⟨hr, hro ▸ hnot, hff⟩
  rw [← howners, ← ownerCiks_eq_iff hid hid']
  constructor
  · rintro ⟨f, hf, hfid⟩
    have hfe : f = e' := eq_of_firstFiling hpair' hf hmem' (by rw [hfid, hfirst])
    rw [← hfe, hfid]
  · intro hciks
    refine ⟨e', hmem', ?_⟩
    have hsymid : e'.episodeId.symbol = e.episodeId.symbol := (hspec' e' hmem').1.trans (hspec.2 e he).1.symm
    have hactid : e'.episodeId.activationFiling = e.episodeId.activationFiling := by
      rw [hid'.activation, hid.activation, hact]
    cases hE : e'.episodeId
    cases hF : e.episodeId
    rw [hE, hF] at hsymid hciks hfirst hactid
    simp only at hsymid hciks hfirst hactid
    rw [hsymid, hciks, hfirst, hactid]

/-! ## All issuers -/

theorem mem_flatten_mapM {α β : Type} {f : α → Option (List β)} {xs : List α} {ys : List (List β)}
    (h : xs.mapM f = some ys) {b : β} : b ∈ ys.flatten ↔ ∃ x ∈ xs, ∃ bs, f x = some bs ∧ b ∈ bs := by
  induction xs generalizing ys with
  | nil =>
    obtain rfl : [] = ys := by simpa using h
    simp
  | cons x xs ih =>
    rw [List.mapM_cons] at h
    obtain ⟨y, hy, h⟩ := Option.bind_eq_some_iff.1 h
    obtain ⟨ys', hys', h⟩ := Option.bind_eq_some_iff.1 h
    obtain rfl := Option.some.inj h
    rw [List.flatten_cons, List.mem_append, ih hys']
    simp [hy]

theorem exists_of_mapM {α β : Type} {f : α → Option β} {xs : List α} {ys : List β} (h : xs.mapM f = some ys) :
    ∀ x ∈ xs, ∃ y, f x = some y := by
  induction xs generalizing ys with
  | nil => simp
  | cons x xs ih =>
    rw [List.mapM_cons] at h
    obtain ⟨y, hy, h⟩ := Option.bind_eq_some_iff.1 h
    obtain ⟨ys', hys', -⟩ := Option.bind_eq_some_iff.1 h
    exact List.forall_mem_cons.2 ⟨⟨y, hy⟩, ih hys'⟩

theorem symbol_of_mem_recordsOf {records : List PurchaseRecord} : ∀ r ∈ recordsOf sym records, r.symbol.toUpper = sym :=
  fun r hr => by simpa using (List.mem_filter.1 hr).2

/-- The episodes of a detection are those of its issuers. -/
theorem mem_detectEpisodes (hn : 0 < cfg.minDistinctOwners) {records : List PurchaseRecord} {eps : List ClusterEpisode}
    (h : detectEpisodes cal cfg records = some eps) {e : ClusterEpisode} :
    e ∈ eps ↔ ∃ es, detectEpisodesForIssuer cal cfg (recordsOf e.symbol records) = some es ∧ e ∈ es := by
  rw [detectEpisodes_eq] at h
  obtain ⟨groups, hgroups, rfl⟩ := Option.map_eq_some_iff.1 h
  rw [mem_orderByDateText, mem_flatten_mapM hgroups]
  constructor
  · rintro ⟨s, -, es, hes, he⟩
    obtain rfl := ((detectEpisodesForIssuer_spec symbol_of_mem_recordsOf hes).2 e he).2.1
    exact ⟨es, hes, he⟩
  · rintro ⟨es, hes, he⟩
    refine ⟨e.symbol, ?_, es, hes, he⟩
    cases hrec : recordsOf e.symbol records with
    | nil =>
      have hnil : detectEpisodesForIssuer cal cfg [] = some [] := if_pos hn
      rw [hrec, hnil] at hes
      obtain rfl := Option.some.inj hes
      cases he
    | cons r rs =>
      have hr : r ∈ recordsOf e.symbol records := hrec ▸ List.mem_cons_self
      exact mem_issuers.2 ⟨r, (List.mem_filter.1 hr).1, symbol_of_mem_recordsOf r hr⟩

theorem exists_detectEpisodesForIssuer {records : List PurchaseRecord} {eps : List ClusterEpisode}
    (h : detectEpisodes cal cfg records = some eps) (hs : sym ∈ issuers records) :
    ∃ es, detectEpisodesForIssuer cal cfg (recordsOf sym records) = some es := by
  rw [detectEpisodes_eq] at h
  obtain ⟨groups, hgroups, -⟩ := Option.map_eq_some_iff.1 h
  exact exists_of_mapM hgroups sym hs

/-- For all records, every episode of them and every record of its issuer that arrives later and is not filed before its
activation: its id is detected again if and only if the record does not join the activation day. -/
theorem episode_survives_iff (cal : Calendar) (cfg : V2Config) (hn : 0 < cfg.minDistinctOwners)
    (records : List PurchaseRecord) (r : PurchaseRecord) {eps eps' : List ClusterEpisode}
    (h : detectEpisodes cal cfg records = some eps) (h' : detectEpisodes cal cfg (records ++ [r]) = some eps')
    {e : ClusterEpisode} (he : e ∈ eps) (hissuer : r.symbol.toUpper = e.symbol)
    (hd : e.activationFilingDate ≤ r.filingDate) :
    (∃ e' ∈ eps', e'.episodeId = e.episodeId) ↔ ¬ JoinsActivationDay cfg records e r := by
  obtain ⟨es, hes, hmem⟩ := (mem_detectEpisodes hn h).1 he
  have happ : recordsOf e.symbol (records ++ [r]) = recordsOf e.symbol records ++ [r] := by
    rw [recordsOf, List.filter_append, List.filter_cons_of_pos (by simpa using hissuer), List.filter_nil]
    rfl
  obtain ⟨es', hes'⟩ := exists_detectEpisodesForIssuer h'
    (mem_issuers.2 ⟨r, List.mem_append_right _ (List.mem_singleton.2 rfl), hissuer⟩)
  have hes'' := hes'
  rw [happ] at hes''
  have hsym : ∀ q ∈ recordsOf e.symbol records ++ [r], q.symbol.toUpper = e.symbol := by
    intro q hq
    rw [← happ] at hq
    exact symbol_of_mem_recordsOf q hq
  have hiff := survives_iff_of_issuer hn hsym hes hes'' hmem hd
  refine Iff.trans ⟨?_, ?_⟩ hiff
  · rintro ⟨f, hf, hfid⟩
    obtain ⟨fs, hfs, hfmem⟩ := (mem_detectEpisodes hn h').1 hf
    have hfsym : f.symbol = e.symbol := by
      rw [((detectEpisodes_spec h').2 f hf).1, hfid, ← ((detectEpisodes_spec h).2 e he).1]
    rw [hfsym, hes'] at hfs
    obtain rfl := Option.some.inj hfs
    exact ⟨f, hfmem, hfid⟩
  · rintro ⟨f, hf, hfid⟩
    have hfsym : f.symbol = e.symbol := ((detectEpisodesForIssuer_spec symbol_of_mem_recordsOf hes').2 f hf).2.1
    exact ⟨f, (mem_detectEpisodes hn h').2 ⟨es', hfsym ▸ hes', hf⟩, hfid⟩

/-! ## Samples -/

/-- A second filing of an owner of the episode, on its activation day, leaves the id alone. -/
theorem episode_survives_sample :
    let records := [purchase "p" 28, purchase "q" 29]
    let late := { purchase "q" 29 with accession := "amended" }
    ∃ eps eps' e, detectEpisodes (.weekdays 100) {} records = some eps ∧
      detectEpisodes (.weekdays 100) {} (records ++ [late]) = some eps' ∧ e ∈ eps ∧
        ∃ e' ∈ eps', e'.episodeId = e.episodeId := by
  intro records late
  have hdetected : ∃ eps, detectEpisodes (.weekdays 100) {} records = some eps ∧
      ∃ e ∈ eps, e.symbol = "ACME" ∧ e.activationFilingDate = 29 ∧ late.ownerCik ∈ e.distinctOwnerCiks := by
    have hsome : ∃ eps ∈ detectEpisodes (.weekdays 100) {} records,
        ∃ e ∈ eps, e.symbol = "ACME" ∧ e.activationFilingDate = 29 ∧ late.ownerCik ∈ e.distinctOwnerCiks := by
      decide +kernel
    exact hsome
  obtain ⟨eps, heps, e, he, hsym, hact, hown⟩ := hdetected
  have hagain : (detectEpisodes (.weekdays 100) {} (records ++ [late])).isSome = true := by decide +kernel
  obtain ⟨eps', heps'⟩ := Option.isSome_iff_exists.1 hagain
  have hissuer : late.symbol.toUpper = e.symbol := by
    rw [hsym]
    decide +kernel
  refine ⟨eps, eps', e, heps, heps', he, (episode_survives_iff (.weekdays 100) {} (by decide) records late heps heps' he
    hissuer (by rw [hact]; decide)).2 ?_⟩
  rintro ⟨-, hnot, -⟩
  exact hnot hown

/-- A third insider files on the activation day: the episode is gone, and a new one stands in its place. -/
theorem late_filing_renames :
    let records := [purchase "p" 28, purchase "q" 29]
    let late := purchase "s" 29
    ∃ eps ∈ detectEpisodes (.weekdays 100) {} records, ∃ eps' ∈ detectEpisodes (.weekdays 100) {} (records ++ [late]),
      ∃ e ∈ eps, late.symbol = e.symbol ∧ e.activationFilingDate ≤ late.filingDate ∧
        (¬ ∃ e' ∈ eps', e'.episodeId = e.episodeId) ∧
          ∃ e' ∈ eps', e'.symbol = e.symbol ∧ e'.eligibleEntrySession = e.eligibleEntrySession := by
  decide +kernel

end TalonX.V2
