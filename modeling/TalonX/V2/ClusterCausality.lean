import Mathlib.Data.Finset.Card
import Mathlib.Data.Finset.Dedup
import Mathlib.Data.String.Basic
import TalonX.Transact.Sorting
import TalonX.V2.ClusterEngine

/-!
# Causality of the detector

What is filed after a date `d` changes no episode that is activated by `d`. All that the detector does to the records of
an issuer commutes with cutting them off at `d`; its scan loses the episodes that are activated later, and these only.

- `filter_dedupe`, `filter_sortByFiling`: cutting off the records;
- `activationDate_append`, `activationDate_mem_of_few`: the owners that appear by `d` decide the activation, or none of
  them does;
- `scan_filter`: the greedy scan of the records up to `d`;
- `detectEpisodes_causal`: all issuers.
-/

set_option autoImplicit false

namespace TalonX.V2

open Transact

variable {cal : Calendar} {cfg : V2Config} {d : Date}

/-! ## Records up to a date -/

/-- The record is filed by `d`. -/
def PurchaseRecord.filedBy (d : Date) (r : PurchaseRecord) : Bool := r.filingDate ≤ d

/-- The episode is activated by `d`. -/
def ClusterEpisode.activatedBy (d : Date) (e : ClusterEpisode) : Bool := e.activationFilingDate ≤ d

@[simp] theorem PurchaseRecord.filedBy_iff {r : PurchaseRecord} : r.filedBy d = true ↔ r.filingDate ≤ d := by
  simp [PurchaseRecord.filedBy]

@[simp] theorem PurchaseRecord.filedBy_eq_false {r : PurchaseRecord} : r.filedBy d = false ↔ d < r.filingDate := by
  simp [PurchaseRecord.filedBy]

@[simp] theorem ClusterEpisode.activatedBy_iff {e : ClusterEpisode} :
    e.activatedBy d = true ↔ e.activationFilingDate ≤ d := by
  simp [ClusterEpisode.activatedBy]

/-- A source predicate that selects the records the detector counts. -/
def PurchaseRecord.counted (cfg : V2Config) (r : PurchaseRecord) : Bool :=
  r.transactionCode.toUpper = cfg.transactionCode && r.ownerCik ≠ ""

/-- The order of `_dedupe`. -/
abbrev dedupeLe : PurchaseRecord → PurchaseRecord → Prop :=
  lexBy PurchaseRecord.filingDate (lexBy PurchaseRecord.ownerCik fun a b => a.accession ≤ b.accession)

theorem dedupeLe_total (a b : PurchaseRecord) : dedupeLe a b ∨ dedupeLe b a :=
  lexBy_total _ (lexBy_total _ fun _ _ => String.le_total _ _) a b

theorem dedupeLe_trans (a b c : PurchaseRecord) : dedupeLe a b → dedupeLe b c → dedupeLe a c := by
  refine lexBy_trans _ fun a b c => lexBy_trans _ fun a b c hab hbc => ?_
  exact String.le_trans hab hbc

theorem filingDate_le_of_dedupeLe {a b : PurchaseRecord} (h : dedupeLe a b) : a.filingDate ≤ b.filingDate :=
  h.elim le_of_lt fun h => le_of_eq h.1

theorem dedupe_eq (records : List PurchaseRecord) :
    dedupe records = firstOccurrences PurchaseRecord.dedupeKey (records.insertionSort dedupeLe) := rfl

theorem pairwise_insertionSort_dedupeLe (records : List PurchaseRecord) :
    (records.insertionSort dedupeLe).Pairwise dedupeLe := by
  have : Std.Total dedupeLe := ⟨dedupeLe_total⟩
  have : IsTrans PurchaseRecord dedupeLe := ⟨dedupeLe_trans⟩
  exact List.pairwise_insertionSort _ _

/-- A predicate that selects the records up to some date. -/
def UpTo (p : PurchaseRecord → Bool) : Prop := ∀ a b, a.filingDate ≤ b.filingDate → p b = true → p a = true

theorem upTo_filedBy : UpTo (PurchaseRecord.filedBy d) := fun a b hab hb => by
  rw [PurchaseRecord.filedBy_iff] at hb ⊢
  exact hab.trans hb

theorem UpTo.closes {p : PurchaseRecord → Bool} (hp : UpTo p) {l : List PurchaseRecord}
    (h : l.Pairwise fun a b => a.filingDate ≤ b.filingDate) : Closes p l := h.imp fun hab => hp _ _ hab

theorem closes_filedBy {l : List PurchaseRecord} (h : l.Pairwise fun a b => a.filingDate ≤ b.filingDate) :
    Closes (PurchaseRecord.filedBy d) l := upTo_filedBy.closes h

/-- The first occurrences in a beginning of the list are a beginning of the first occurrences. -/
theorem filter_firstOccurrences {α κ : Type} [DecidableEq κ] {key : α → κ} {p : α → Bool} {l : List α}
    (h : Closes p l) : (firstOccurrences key l).filter p = firstOccurrences key (l.filter p) := by
  induction l with
  | nil => rfl
  | cons x l ih =>
    by_cases hx : p x
    · rw [firstOccurrences, List.filter_cons_of_pos hx, List.filter_cons_of_pos hx, firstOccurrences,
        ← ih (closes_cons.1 h).2, List.filter_comm]
    · rw [List.filter_cons_of_neg hx, h.filter_nil hx, firstOccurrences, firstOccurrences]
      refine List.filter_eq_nil_iff.2 fun y hy hpy => ?_
      rcases List.mem_cons.1 hy with rfl | hy
      · exact hx hpy
      · exact hx ((closes_cons.1 h).1 y (mem_of_mem_firstOccurrences (List.mem_filter.1 hy).1) hpy)

theorem filter_dedupe {p : PurchaseRecord → Bool} (hp : UpTo p) (records : List PurchaseRecord) :
    (dedupe records).filter p = dedupe (records.filter p) := by
  rw [dedupe_eq, dedupe_eq, filter_firstOccurrences, filter_insertionSort dedupeLe_total dedupeLe_trans]
  exact hp.closes ((pairwise_insertionSort_dedupeLe records).imp filingDate_le_of_dedupeLe)

theorem filter_orderByDateText {α : Type} (k : α → Date × String) (p : α → Bool) (xs : List α) :
    (orderByDateText k xs).filter p = orderByDateText k (xs.filter p) := by
  have htotal : ∀ a b : α, lexBy (fun a => (k a).1) (fun a b => (k a).2 ≤ (k b).2) a b ∨
      lexBy (fun a => (k a).1) (fun a b => (k a).2 ≤ (k b).2) b a := lexBy_total _ fun _ _ => String.le_total _ _
  refine filter_insertionSort htotal (fun a b c => lexBy_trans _ fun a b c hab hbc => ?_) p xs
  exact String.le_trans hab hbc

/-- A paired computation over the records that remain. -/
theorem mapM_pair_filter {α β : Type} {f : α → Option β} (p : α → Bool) : ∀ {xs : List α} {ys : List (α × β)},
    xs.mapM (fun x => (f x).map fun y => (x, y)) = some ys →
      (xs.filter p).mapM (fun x => (f x).map fun y => (x, y)) = some (ys.filter fun y => p y.1)
  | [], ys, h => by
    obtain rfl : [] = ys := by simpa using h
    rfl
  | x :: xs, ys, h => by
    rw [List.mapM_cons] at h
    obtain ⟨q, hq, h⟩ := Option.bind_eq_some_iff.1 h
    obtain ⟨zs, hzs, h⟩ := Option.bind_eq_some_iff.1 h
    obtain rfl := Option.some.inj h
    obtain ⟨y, -, rfl⟩ := Option.map_eq_some_iff.1 hq
    have ih := mapM_pair_filter p hzs
    by_cases hx : p x
    · have hcons : ((x, y) :: zs).filter (fun y => p y.1) = (x, y) :: zs.filter fun y => p y.1 :=
        List.filter_cons_of_pos hx
      rw [List.filter_cons_of_pos hx, List.mapM_cons, hq, ih, hcons]
      rfl
    · have hcons : ((x, y) :: zs).filter (fun y => p y.1) = zs.filter fun y => p y.1 := List.filter_cons_of_neg hx
      rw [List.filter_cons_of_neg hx, ih, hcons]

/-! ## Owners and activation -/

theorem mem_firstOccurrences_id {α : Type} [DecidableEq α] {l : List α} {x : α} :
    x ∈ firstOccurrences id l ↔ x ∈ l := by
  refine ⟨mem_of_mem_firstOccurrences, fun h => ?_⟩
  induction l with
  | nil => cases h
  | cons y ys ih =>
    by_cases hxy : x = y
    · rw [hxy]
      exact List.mem_cons_self
    · refine List.mem_cons_of_mem _ (List.mem_filter.2 ⟨ih ((List.mem_cons.1 h).resolve_left hxy), ?_⟩)
      simpa using hxy

@[simp] theorem mem_distinctOwners {w : List PurchaseRecord} {o : String} :
    o ∈ distinctOwners w ↔ ∃ r ∈ w, r.ownerCik = o := by
  rw [distinctOwners, mem_firstOccurrences_id, List.mem_map]

theorem nodup_distinctOwners (w : List PurchaseRecord) : (distinctOwners w).Nodup := by
  have h := nodup_firstOccurrences id (w.map PurchaseRecord.ownerCik)
  rwa [List.map_id] at h

theorem length_firstOccurrences_le {α : Type} [DecidableEq α] {l l' : List α} (h : l ⊆ l') :
    (firstOccurrences id l).length ≤ (firstOccurrences id l').length := by
  have hn : (firstOccurrences id l).Nodup := by
    have h := nodup_firstOccurrences id l
    rwa [List.map_id] at h
  exact (hn.subperm fun x hx => mem_firstOccurrences_id.2 (h (mem_firstOccurrences_id.1 hx))).length_le

/-- More records, at least as many owners. -/
theorem length_distinctOwners_le {w w' : List PurchaseRecord} (h : w ⊆ w') :
    (distinctOwners w).length ≤ (distinctOwners w').length :=
  length_firstOccurrences_le (List.map_subset _ h)

/-- The owners seen so far and those of the records. -/
def ownersWith (seen : List String) (w : List PurchaseRecord) : List String :=
  firstOccurrences id (seen ++ w.map PurchaseRecord.ownerCik)

theorem ownersWith_cons (seen : List String) (r : PurchaseRecord) (w : List PurchaseRecord) :
    ownersWith seen (r :: w) = ownersWith (seen ++ [r.ownerCik]) w := by
  rw [ownersWith, ownersWith, List.map_cons, List.append_assoc, List.singleton_append]

/-- An owner who was seen adds nothing. -/
theorem length_ownersWith_of_mem {seen : List String} {o : String} (h : o ∈ seen) (w : List PurchaseRecord) :
    (ownersWith (seen ++ [o]) w).length = (ownersWith seen w).length := by
  refine le_antisymm (length_firstOccurrences_le fun x hx => ?_) (length_firstOccurrences_le fun x hx => ?_)
  · simp only [List.mem_append, List.mem_singleton] at hx ⊢
    rcases hx with (hx | rfl) | hx
    · exact Or.inl hx
    · exact Or.inl h
    · exact Or.inr hx
  · simp only [List.mem_append] at hx ⊢
    exact hx.elim (fun hx => Or.inl (Or.inl hx)) Or.inr

theorem length_ownersWith_nil_le (seen : List String) : (ownersWith seen []).length ≤ seen.length := by
  have hn : (firstOccurrences id (seen ++ [])).Nodup := by
    have h := nodup_firstOccurrences id (seen ++ [])
    rwa [List.map_id] at h
  refine (hn.subperm fun x hx => ?_).length_le
  simpa using mem_of_mem_firstOccurrences hx

theorem le_length_ownersWith {seen : List String} (hn : seen.Nodup) (w : List PurchaseRecord) :
    seen.length ≤ (ownersWith seen w).length :=
  (hn.subperm fun _ hx => mem_firstOccurrences_id.2 (List.mem_append_left _ hx)).length_le

section Activation

variable {n : ℕ} {last last' : Date}

/-- When the owners of a beginning suffice, it decides the activation. -/
theorem activationDate_append {xs : List PurchaseRecord} (ys : List PurchaseRecord) {seen : List String}
    (hseen : seen.length < n) (henough : n ≤ (ownersWith seen xs).length) :
    activationDate n last seen (xs ++ ys) = activationDate n last' seen xs := by
  induction xs generalizing seen with
  | nil => exact absurd (henough.trans (length_ownersWith_nil_le seen)) (Nat.not_le.2 hseen)
  | cons x xs ih =>
    rw [ownersWith_cons] at henough
    simp only [List.cons_append, activationDate]
    by_cases hmem : x.ownerCik ∈ seen
    · rw [if_pos hmem, if_pos hmem]
      rw [length_ownersWith_of_mem hmem] at henough
      exact ih hseen henough
    · rw [if_neg hmem, if_neg hmem]
      split
      · rfl
      · rename_i hne
        refine ih ?_ henough
        rw [List.length_append, List.length_singleton]
        omega

/-- With enough owners the activation is the filing date of a record. -/
theorem activationDate_mem {xs : List PurchaseRecord} {seen : List String} (hseen : seen.length < n)
    (henough : n ≤ (ownersWith seen xs).length) : ∃ r ∈ xs, activationDate n last seen xs = r.filingDate := by
  induction xs generalizing seen with
  | nil => exact absurd (henough.trans (length_ownersWith_nil_le seen)) (Nat.not_le.2 hseen)
  | cons x xs ih =>
    rw [ownersWith_cons] at henough
    simp only [activationDate]
    by_cases hmem : x.ownerCik ∈ seen
    · rw [if_pos hmem]
      rw [length_ownersWith_of_mem hmem] at henough
      obtain ⟨r, hr, heq⟩ := ih hseen henough
      exact ⟨r, List.mem_cons_of_mem _ hr, heq⟩
    · rw [if_neg hmem]
      split
      · exact ⟨x, List.mem_cons_self, rfl⟩
      · rename_i hne
        have hlen : (seen ++ [x.ownerCik]).length < n := by
          rw [List.length_append, List.length_singleton]
          omega
        obtain ⟨r, hr, heq⟩ := ih hlen henough
        exact ⟨r, List.mem_cons_of_mem _ hr, heq⟩

/-- When the owners of a beginning do not suffice, the activation comes after it. -/
theorem activationDate_mem_of_few {xs ys : List PurchaseRecord} {seen : List String} (hn : seen.Nodup)
    (hfew : (ownersWith seen xs).length < n) (henough : n ≤ (ownersWith seen (xs ++ ys)).length) :
    ∃ r ∈ ys, activationDate n last seen (xs ++ ys) = r.filingDate := by
  have hseen : seen.length < n := (le_length_ownersWith hn xs).trans_lt hfew
  induction xs generalizing seen with
  | nil => exact activationDate_mem hseen henough
  | cons x xs ih =>
    rw [List.cons_append, ownersWith_cons] at henough
    rw [ownersWith_cons] at hfew
    simp only [List.cons_append, activationDate]
    by_cases hmem : x.ownerCik ∈ seen
    · rw [if_pos hmem]
      rw [length_ownersWith_of_mem hmem] at henough hfew
      exact ih hn hfew henough hseen
    · rw [if_neg hmem]
      have hn' : (seen ++ [x.ownerCik]).Nodup := by
        rw [List.nodup_append]
        refine ⟨hn, List.nodup_singleton _, fun a ha b hb => ?_⟩
        rw [List.mem_singleton.1 hb]
        rintro rfl
        exact hmem ha
      have hlen := (le_length_ownersWith hn' xs).trans_lt hfew
      rw [if_neg (by rw [List.length_append, List.length_singleton] at hlen; omega)]
      exact ih hn' hfew henough hlen

end Activation

theorem ownersWith_nil (w : List PurchaseRecord) : ownersWith [] w = distinctOwners w := rfl

/-- The activation of a window with enough owners is one of its filing dates. -/
theorem exists_activation {w : List PurchaseRecord} (hn : 0 < cfg.minDistinctOwners) (last : Date)
    (henough : cfg.minDistinctOwners ≤ (distinctOwners w).length) :
    ∃ r ∈ w, activationDate cfg.minDistinctOwners last [] w = r.filingDate := activationDate_mem hn henough

/-- A window is activated by `d` if and only if enough owners have filed by `d`. -/
theorem activationDate_le_iff {w : List PurchaseRecord} (hn : 0 < cfg.minDistinctOwners) (last : Date)
    (hw : w.Pairwise fun a b => a.filingDate ≤ b.filingDate)
    (henough : cfg.minDistinctOwners ≤ (distinctOwners w).length) :
    activationDate cfg.minDistinctOwners last [] w ≤ d ↔
      cfg.minDistinctOwners ≤ (distinctOwners (w.filter (·.filedBy d))).length := by
  have hcut := Closes.filter_append (closes_filedBy (d := d) hw)
  constructor
  · intro hle
    by_contra hfew
    have henough' : cfg.minDistinctOwners ≤
        (ownersWith [] (w.filter (·.filedBy d) ++ w.filter (!PurchaseRecord.filedBy d ·))).length := by
      rw [hcut]
      exact henough
    have hlate : ∃ r ∈ w.filter (!PurchaseRecord.filedBy d ·), activationDate cfg.minDistinctOwners last []
        (w.filter (·.filedBy d) ++ w.filter (!PurchaseRecord.filedBy d ·)) = r.filingDate :=
      activationDate_mem_of_few List.nodup_nil (Nat.not_le.1 hfew) henough'
    obtain ⟨r, hr, heq⟩ := hlate
    rw [hcut] at heq
    have hgt : d < r.filingDate := by simpa using (List.mem_filter.1 hr).2
    exact absurd (heq ▸ hle) (Nat.not_le.2 hgt)
  · intro hearly
    have hmem : ∃ r ∈ w.filter (·.filedBy d),
        activationDate cfg.minDistinctOwners last [] (w.filter (·.filedBy d)) = r.filingDate :=
      exists_activation hn last hearly
    obtain ⟨r, hr, heq⟩ := hmem
    have happ : activationDate cfg.minDistinctOwners last []
        (w.filter (·.filedBy d) ++ w.filter (!PurchaseRecord.filedBy d ·)) =
          activationDate cfg.minDistinctOwners last [] (w.filter (·.filedBy d)) :=
      activationDate_append _ hn hearly
    rw [hcut] at happ
    rw [happ, heq]
    simpa using (List.mem_filter.1 hr).2

/-- The default date plays no part in a window with enough owners. -/
theorem activationDate_filter {w : List PurchaseRecord} (hn : 0 < cfg.minDistinctOwners) {last last' : Date}
    (hw : w.Pairwise fun a b => a.filingDate ≤ b.filingDate)
    (hearly : cfg.minDistinctOwners ≤ (distinctOwners (w.filter (·.filedBy d))).length) :
    activationDate cfg.minDistinctOwners last [] w =
      activationDate cfg.minDistinctOwners last' [] (w.filter (·.filedBy d)) := by
  have happ : activationDate cfg.minDistinctOwners last []
      (w.filter (·.filedBy d) ++ w.filter (!PurchaseRecord.filedBy d ·)) =
        activationDate cfg.minDistinctOwners last' [] (w.filter (·.filedBy d)) :=
    activationDate_append _ hn hearly
  rwa [Closes.filter_append (closes_filedBy hw)] at happ

/-! ## One window -/

/-- The window that a record opens, as the scan reads it. -/
def windowOf (cfg : V2Config) (ord : ℕ) (rest : List (PurchaseRecord × ℕ)) : List PurchaseRecord :=
  (rest.takeWhile fun x => x.2 ≤ ord + cfg.clusterWindowTradingDays).map Prod.fst

/-- What the scan leaves behind that window. -/
def behindWindow (cfg : V2Config) (ord : ℕ) (rest : List (PurchaseRecord × ℕ)) : List (PurchaseRecord × ℕ) :=
  rest.dropWhile fun x => x.2 ≤ ord + cfg.clusterWindowTradingDays

theorem windowOf_cons (cfg : V2Config) (ord : ℕ) (x : PurchaseRecord × ℕ) (rest : List (PurchaseRecord × ℕ)) :
    windowOf cfg ord (x :: rest) =
      if x.2 ≤ ord + cfg.clusterWindowTradingDays then x.1 :: windowOf cfg ord rest else [] := by
  rw [windowOf, List.takeWhile_cons]
  by_cases hx : x.2 ≤ ord + cfg.clusterWindowTradingDays <;> simp [hx, windowOf]

theorem behindWindow_cons (cfg : V2Config) (ord : ℕ) (x : PurchaseRecord × ℕ) (rest : List (PurchaseRecord × ℕ)) :
    behindWindow cfg ord (x :: rest) =
      if x.2 ≤ ord + cfg.clusterWindowTradingDays then behindWindow cfg ord rest else x :: rest := by
  rw [behindWindow, List.dropWhile_cons]
  by_cases hx : x.2 ≤ ord + cfg.clusterWindowTradingDays <;> simp [hx, behindWindow]

theorem scan_cons (fuel : ℕ) (r : PurchaseRecord) (ord : ℕ) (rest : List (PurchaseRecord × ℕ)) :
    scan cal cfg (fuel + 1) ((r, ord) :: rest) =
      if cfg.minDistinctOwners ≤ (distinctOwners (r :: windowOf cfg ord rest)).length then
        match buildEpisode cal cfg r (windowOf cfg ord rest) with
        | none => none
        | some ep => (scan cal cfg fuel (behindWindow cfg ord rest)).map (ep :: ·)
      else scan cal cfg fuel rest := rfl

/-- The activation of an episode, and the records behind it. -/
theorem buildEpisode_activation {r : PurchaseRecord} {w : List PurchaseRecord} {ep : ClusterEpisode}
    (h : buildEpisode cal cfg r w = some ep) : ∃ last,
      ep.activationFilingDate = activationDate cfg.minDistinctOwners last [] (r :: w) ∧
      ep.episodeId.activationFiling = ep.activationFilingDate ∧
      ep.distinctOwnerCiks = distinctOwners ((r :: w).filter (·.filedBy ep.activationFilingDate)) ∧
      ep.episodeId.ownerCiks = ep.distinctOwnerCiks.insertionSort (· ≤ ·) := by
  unfold buildEpisode at h
  obtain ⟨entry, -, rfl⟩ := Option.map_eq_some_iff.1 h
  exact ⟨_, rfl, rfl, rfl, rfl⟩

/-- Cutting the window off behind its activation changes nothing. -/
theorem buildEpisode_filter {r : PurchaseRecord} {w : List PurchaseRecord} (hn : 0 < cfg.minDistinctOwners)
    (hw : (r :: w).Pairwise fun a b => a.filingDate ≤ b.filingDate) (hr : r.filingDate ≤ d)
    (hearly : cfg.minDistinctOwners ≤ (distinctOwners ((r :: w).filter (·.filedBy d))).length) :
    buildEpisode cal cfg r (w.filter (·.filedBy d)) = buildEpisode cal cfg r w := by
  have hcons : (r :: w).filter (·.filedBy d) = r :: w.filter (·.filedBy d) := List.filter_cons_of_pos (by simpa using hr)
  have henough : cfg.minDistinctOwners ≤ (distinctOwners (r :: w)).length :=
    hearly.trans (length_distinctOwners_le (List.filter_sublist).subset)
  unfold buildEpisode
  dsimp only
  generalize hlast : ((r :: w).getLast _).filingDate = last
  generalize hlast' : ((r :: w.filter (·.filedBy d)).getLast _).filingDate = last'
  have hact : activationDate cfg.minDistinctOwners last [] (r :: w) =
      activationDate cfg.minDistinctOwners last' [] (r :: w.filter (·.filedBy d)) := by
    rw [← hcons]
    exact activationDate_filter hn hw hearly
  rw [← hact]
  generalize ha : activationDate cfg.minDistinctOwners last [] (r :: w) = a
  have had : a ≤ d := ha ▸ (activationDate_le_iff hn last hw henough).2 hearly
  have hqual : (r :: w.filter (·.filedBy d)).filter (fun q => decide (q.filingDate ≤ a)) =
      (r :: w).filter fun q => decide (q.filingDate ≤ a) := by
    rw [← hcons, List.filter_filter]
    refine List.filter_congr fun q _ => ?_
    by_cases hq : q.filingDate ≤ a
    · simp [hq, hq.trans had]
    · simp [hq]
  rw [hqual]
  have hlastq : ∀ b : Date, (((r :: w).filter fun q => decide (q.filingDate ≤ a)).getLast?.map
      PurchaseRecord.filingDate).getD b = (((r :: w).filter fun q => decide (q.filingDate ≤ a)).getLast?.map
        PurchaseRecord.filingDate).getD a := by
    intro b
    have hra : r.filingDate ≤ a := by
      obtain ⟨q, hq, heq⟩ := exists_activation hn last henough
      rw [← ha, heq]
      rcases List.mem_cons.1 hq with rfl | hq
      · exact le_refl _
      · exact (List.pairwise_cons.1 hw).1 q hq
    rw [List.filter_cons_of_pos (by simpa using hra), List.getLast?_cons]
    rfl
  rw [hlastq last, hlastq last']

/-! ## The scan -/

/-- Records whose owners do not suffice together open no window. -/
theorem scan_of_few {fuel : ℕ} {xs : List (PurchaseRecord × ℕ)}
    (hfew : (distinctOwners (xs.map Prod.fst)).length < cfg.minDistinctOwners) : scan cal cfg fuel xs = some [] := by
  induction fuel generalizing xs with
  | zero => rfl
  | succ fuel ih =>
    cases xs with
    | nil => rfl
    | cons x rest =>
      obtain ⟨r, ord⟩ := x
      have hsub : (r :: windowOf cfg ord rest) ⊆ ((r, ord) :: rest).map Prod.fst :=
        List.cons_subset_cons _ (((List.takeWhile_sublist _).map Prod.fst).subset)
      rw [scan_cons, if_neg (Nat.not_le.2 ((length_distinctOwners_le hsub).trans_lt hfew))]
      refine ih (lt_of_le_of_lt (length_distinctOwners_le ?_) hfew)
      exact List.subset_cons_self _ _

/-- A scanned list: in filing order, with fuel for all of it. -/
structure Scanned (fuel : ℕ) (xs : List (PurchaseRecord × ℕ)) : Prop where
  sorted : (xs.map Prod.fst).Pairwise fun a b => a.filingDate ≤ b.filingDate
  fuel : xs.length ≤ fuel

theorem Scanned.sublist {fuel : ℕ} {x : PurchaseRecord × ℕ} {xs ys : List (PurchaseRecord × ℕ)}
    (h : Scanned (fuel + 1) (x :: xs)) (hs : ys.Sublist xs) : Scanned fuel ys :=
  ⟨h.sorted.sublist ((hs.trans (List.sublist_cons_self x xs)).map _),
    hs.length_le.trans (Nat.le_of_succ_le_succ h.fuel)⟩

theorem Scanned.closes {fuel : ℕ} {xs : List (PurchaseRecord × ℕ)} (h : Scanned fuel xs) :
    Closes (fun x => x.1.filedBy d) xs := by
  have hs := closes_filedBy (d := d) h.sorted
  rw [Closes, List.pairwise_map] at hs
  exact hs

theorem windowOf_sublist (cfg : V2Config) (ord : ℕ) (rest : List (PurchaseRecord × ℕ)) :
    (windowOf cfg ord rest).Sublist (rest.map Prod.fst) := (List.takeWhile_sublist _).map _

theorem behindWindow_sublist (cfg : V2Config) (ord : ℕ) (rest : List (PurchaseRecord × ℕ)) :
    (behindWindow cfg ord rest).Sublist rest := List.dropWhile_sublist _

theorem Scanned.window {fuel : ℕ} {r : PurchaseRecord} {ord : ℕ} {rest : List (PurchaseRecord × ℕ)}
    (h : Scanned fuel ((r, ord) :: rest)) :
    (r :: windowOf cfg ord rest).Pairwise fun a b => a.filingDate ≤ b.filingDate :=
  h.sorted.sublist ((windowOf_sublist cfg ord rest).cons_cons r)

/-- Every episode of a scan is activated on a filing date of its records. -/
theorem exists_of_mem_scan (hn : 0 < cfg.minDistinctOwners) {fuel : ℕ} {xs : List (PurchaseRecord × ℕ)}
    {eps : List ClusterEpisode} (h : scan cal cfg fuel xs = some eps) :
    ∀ e ∈ eps, ∃ x ∈ xs, e.activationFilingDate = x.1.filingDate := by
  induction fuel generalizing xs eps with
  | zero =>
    obtain rfl := Option.some.inj h
    simp
  | succ fuel ih =>
    cases xs with
    | nil =>
      obtain rfl := Option.some.inj h
      simp
    | cons x rest =>
      obtain ⟨r, ord⟩ := x
      rw [scan_cons] at h
      split at h
      · rename_i henough
        split at h
        · cases h
        rename_i ep hep
        obtain ⟨eps', heps', rfl⟩ := Option.map_eq_some_iff.1 h
        intro e he
        rcases List.mem_cons.1 he with rfl | he
        · obtain ⟨last, hact, -⟩ := buildEpisode_activation hep
          obtain ⟨q, hq, heq⟩ := exists_activation hn last henough
          have hq' : q ∈ ((r, ord) :: rest).map Prod.fst :=
            ((windowOf_sublist cfg ord rest).cons_cons r).subset hq
          obtain ⟨y, hy, rfl⟩ := List.mem_map.1 hq'
          exact ⟨y, hy, hact.trans heq⟩
        · obtain ⟨y, hy, heq⟩ := ih heps' e he
          exact ⟨y, List.mem_cons_of_mem _ ((behindWindow_sublist cfg ord rest).subset hy), heq⟩
      · intro e he
        obtain ⟨y, hy, heq⟩ := ih h e he
        exact ⟨y, List.mem_cons_of_mem _ hy, heq⟩

/-- When nothing is filed by `d`, nothing is activated by `d`. -/
theorem filter_activatedBy_of_late (hn : 0 < cfg.minDistinctOwners) {fuel : ℕ} {xs : List (PurchaseRecord × ℕ)}
    {eps : List ClusterEpisode} (h : scan cal cfg fuel xs = some eps) (hlate : ∀ x ∈ xs, d < x.1.filingDate) :
    eps.filter (·.activatedBy d) = [] := by
  refine List.filter_eq_nil_iff.2 fun e he hed => ?_
  obtain ⟨x, hx, heq⟩ := exists_of_mem_scan hn h e he
  rw [ClusterEpisode.activatedBy_iff, heq] at hed
  exact absurd hed (Nat.not_le.2 (hlate x hx))

/-- The records behind a window are not filed before its activation. -/
theorem Scanned.activation_le_behind {fuel : ℕ} {r : PurchaseRecord} {ord : ℕ} {rest : List (PurchaseRecord × ℕ)}
    (hxs : Scanned fuel ((r, ord) :: rest)) (hn : 0 < cfg.minDistinctOwners) (last : Date)
    (henough : cfg.minDistinctOwners ≤ (distinctOwners (r :: windowOf cfg ord rest)).length) :
    ∀ x ∈ behindWindow cfg ord rest,
      activationDate cfg.minDistinctOwners last [] (r :: windowOf cfg ord rest) ≤ x.1.filingDate := by
  intro x hx
  obtain ⟨q, hq, heq⟩ := exists_activation hn last henough
  have hsorted := hxs.sorted
  have hsplit : (((r, ord) :: rest).map Prod.fst) =
      (r :: windowOf cfg ord rest) ++ (behindWindow cfg ord rest).map Prod.fst := by
    rw [windowOf, behindWindow, List.cons_append, ← List.map_append, List.takeWhile_append_dropWhile]
    rfl
  rw [hsplit] at hsorted
  rw [heq]
  exact (List.pairwise_append.1 hsorted).2.2 q hq x.1 (List.mem_map_of_mem hx)

/-- When nothing is left behind a window, it holds all the records. -/
theorem windowOf_of_behindWindow_nil {ord : ℕ} {rest : List (PurchaseRecord × ℕ)} (h : behindWindow cfg ord rest = []) :
    windowOf cfg ord rest = rest.map Prod.fst := by
  have hsplit := List.takeWhile_append_dropWhile (p := fun x : PurchaseRecord × ℕ =>
    decide (x.2 ≤ ord + cfg.clusterWindowTradingDays)) (l := rest)
  rw [← behindWindow, h, List.append_nil] at hsplit
  rw [windowOf, hsplit]

/-- The scan of the records filed by `d` finds the episodes activated by `d`. -/
theorem scan_filter (hn : 0 < cfg.minDistinctOwners) {fuel : ℕ} {xs : List (PurchaseRecord × ℕ)}
    {eps : List ClusterEpisode} (hxs : Scanned fuel xs) (h : scan cal cfg fuel xs = some eps) {fuel' : ℕ}
    (hfuel : (xs.filter fun x => x.1.filedBy d).length ≤ fuel') :
    scan cal cfg fuel' (xs.filter fun x => x.1.filedBy d) = some (eps.filter (·.activatedBy d)) := by
  induction fuel generalizing xs eps fuel' with
  | zero =>
    obtain rfl := Option.some.inj h
    obtain rfl := List.length_eq_zero_iff.1 (Nat.le_zero.1 hxs.fuel)
    cases fuel' <;> rfl
  | succ fuel ih =>
    cases xs with
    | nil =>
      obtain rfl := Option.some.inj h
      cases fuel' <;> rfl
    | cons x rest =>
      obtain ⟨r, ord⟩ := x
      have hcloses : Closes (fun x : PurchaseRecord × ℕ => x.1.filedBy d) ((r, ord) :: rest) := hxs.closes
      by_cases hr : r.filingDate ≤ d
      swap
      · -- nothing is filed by `d`
        have hlate : ∀ x ∈ (r, ord) :: rest, d < x.1.filingDate := by
          intro x hx
          have hnone : ((r, ord) :: rest).filter (fun x => x.1.filedBy d) = [] := by
            rw [List.filter_cons_of_neg (by simpa using hr)]
            exact hcloses.filter_nil (by simpa using hr)
          simpa using List.filter_eq_nil_iff.1 hnone x hx
        rw [filter_activatedBy_of_late hn h hlate, List.filter_eq_nil_iff.2 fun x hx => by simpa using hlate x hx]
        cases fuel' <;> rfl
      have hcons : ((r, ord) :: rest).filter (fun x => x.1.filedBy d) = (r, ord) :: rest.filter fun x => x.1.filedBy d :=
        List.filter_cons_of_pos (by simpa using hr)
      rw [hcons, List.length_cons] at hfuel
      obtain ⟨k, rfl⟩ : ∃ k, fuel' = k + 1 := ⟨fuel' - 1, by omega⟩
      have hrest := (closes_cons.1 hcloses).2
      have hwindow : windowOf cfg ord (rest.filter fun x => x.1.filedBy d) =
          (windowOf cfg ord rest).filter (·.filedBy d) := by
        rw [windowOf, ← hrest.filter_takeWhile, windowOf, List.filter_map]
        rfl
      have hbehind : behindWindow cfg ord (rest.filter fun x => x.1.filedBy d) =
          (behindWindow cfg ord rest).filter fun x => x.1.filedBy d := (hrest.filter_dropWhile _).symm
      have hfull : (r :: windowOf cfg ord rest).filter (·.filedBy d) =
          r :: (windowOf cfg ord rest).filter (·.filedBy d) := List.filter_cons_of_pos (by simpa using hr)
      rw [hcons, scan_cons, hwindow, hbehind, ← hfull]
      rw [scan_cons] at h
      split at h
      · rename_i henough
        split at h
        · cases h
        rename_i ep hep
        obtain ⟨eps', heps', rfl⟩ := Option.map_eq_some_iff.1 h
        obtain ⟨last, hact, -⟩ := buildEpisode_activation hep
        have hiff := activationDate_le_iff (d := d) hn last hxs.window henough
        rw [← hact] at hiff
        by_cases hd : ep.activationFilingDate ≤ d
        · -- the window is activated by `d`: the same episode, and the same records behind it
          rw [if_pos (hiff.1 hd), buildEpisode_filter hn hxs.window hr (hiff.1 hd), hep]
          dsimp only
          have hfewer : ((behindWindow cfg ord rest).filter fun x => x.1.filedBy d).length ≤ k :=
            (((behindWindow_sublist cfg ord rest).filter _).length_le).trans (by omega)
          rw [ih (hxs.sublist (behindWindow_sublist cfg ord rest)) heps' hfewer,
            List.filter_cons_of_pos (by simpa using hd)]
          rfl
        · -- it is activated later: the owners so far do not suffice, and nothing behind it is filed by `d`
          have hfew := Nat.not_le.1 (mt hiff.2 hd)
          have hlate : ∀ x ∈ behindWindow cfg ord rest, d < x.1.filingDate := fun x hx =>
            (Nat.lt_of_not_le hd).trans_le (hact ▸ hxs.activation_le_behind hn last henough x hx)
          have hnone : (behindWindow cfg ord rest).filter (fun x => x.1.filedBy d) = [] :=
            List.filter_eq_nil_iff.2 fun x hx => by simpa using hlate x hx
          have hall : windowOf cfg ord (rest.filter fun x => x.1.filedBy d) =
              (rest.filter fun x => x.1.filedBy d).map Prod.fst :=
            windowOf_of_behindWindow_nil (hbehind.trans hnone)
          rw [if_neg (Nat.not_le.2 hfew), List.filter_cons_of_neg (by simpa using hd),
            filter_activatedBy_of_late hn heps' hlate]
          refine scan_of_few (lt_of_le_of_lt (length_distinctOwners_le ?_) hfew)
          rw [hfull, ← hwindow, hall]
          exact List.subset_cons_self _ _
      · rename_i hfew
        have hfew' : ¬ cfg.minDistinctOwners ≤
            (distinctOwners ((r :: windowOf cfg ord rest).filter (·.filedBy d))).length := fun hle =>
          hfew (hle.trans (length_distinctOwners_le List.filter_sublist.subset))
        rw [if_neg hfew']
        exact ih (hxs.sublist (List.Sublist.refl rest)) h (by omega)

/-! ## One issuer -/

/-- The records of an issuer that take part: counted ones, without duplicates. -/
def countedRecords (cfg : V2Config) (records : List PurchaseRecord) : List PurchaseRecord :=
  dedupe (records.filter (·.counted cfg))

/-- The records in filing order, with their session ordinals. -/
def withOrdinals (cal : Calendar) (recs : List PurchaseRecord) : Option (List (PurchaseRecord × ℕ)) :=
  (sortByFiling recs).mapM fun r => (cal.sessionOrdinal r.filingDate true).map fun ord => (r, ord)

theorem detectEpisodesForIssuer_eq (records : List PurchaseRecord) :
    detectEpisodesForIssuer cal cfg records =
      if (countedRecords cfg records).length < cfg.minDistinctOwners then some []
      else
        match withOrdinals cal (countedRecords cfg records) with
        | none => none
        | some xs => scan cal cfg xs.length xs := rfl

theorem filter_countedRecords {p : PurchaseRecord → Bool} (hp : UpTo p) (records : List PurchaseRecord) :
    countedRecords cfg (records.filter p) = (countedRecords cfg records).filter p := by
  rw [countedRecords, countedRecords, filter_dedupe hp, List.filter_comm]

theorem withOrdinals_filter (p : PurchaseRecord → Bool) {recs : List PurchaseRecord} {xs : List (PurchaseRecord × ℕ)}
    (h : withOrdinals cal recs = some xs) :
    withOrdinals cal (recs.filter p) = some (xs.filter fun x => p x.1) := by
  rw [withOrdinals, sortByFiling, ← filter_orderByDateText]
  exact mapM_pair_filter _ h

theorem perm_of_withOrdinals {recs : List PurchaseRecord} {xs : List (PurchaseRecord × ℕ)}
    (h : withOrdinals cal recs = some xs) : (xs.map Prod.fst).Perm recs := by
  rw [(mapM_pair_spec h).1]
  exact List.perm_insertionSort _ _

theorem scanned_of_withOrdinals {recs : List PurchaseRecord} {xs : List (PurchaseRecord × ℕ)}
    (h : withOrdinals cal recs = some xs) : Scanned xs.length xs := by
  refine ⟨?_, le_refl _⟩
  rw [(mapM_pair_spec h).1]
  exact pairwise_orderByDateText (fun r => (r.filingDate, r.ownerCik)) recs

theorem length_distinctOwners_le_length (w : List PurchaseRecord) : (distinctOwners w).length ≤ w.length := by
  have h := length_ownersWith_nil_le (w.map PurchaseRecord.ownerCik)
  rwa [ownersWith, List.map_nil, List.append_nil, List.length_map] at h

/-- An issuer with too few records has too few owners, so the detection is the scan when the ordinals are known. -/
theorem detectEpisodesForIssuer_of_withOrdinals {records : List PurchaseRecord} {xs : List (PurchaseRecord × ℕ)}
    (h : withOrdinals cal (countedRecords cfg records) = some xs) :
    detectEpisodesForIssuer cal cfg records = scan cal cfg xs.length xs := by
  rw [detectEpisodesForIssuer_eq, h]
  split
  · rename_i hshort
    refine (scan_of_few ?_).symm
    have hlen : (xs.map Prod.fst).length < cfg.minDistinctOwners := by
      rw [(perm_of_withOrdinals h).length_eq]
      exact hshort
    exact (length_distinctOwners_le_length _).trans_lt hlen
  · rfl

theorem detectEpisodesForIssuer_cases {records : List PurchaseRecord} {eps : List ClusterEpisode}
    (h : detectEpisodesForIssuer cal cfg records = some eps) :
    ((countedRecords cfg records).length < cfg.minDistinctOwners ∧ eps = []) ∨
      ∃ xs, withOrdinals cal (countedRecords cfg records) = some xs ∧ scan cal cfg xs.length xs = some eps := by
  rw [detectEpisodesForIssuer_eq] at h
  split at h
  · rename_i hshort
    exact Or.inl ⟨hshort, (Option.some.inj h).symm⟩
  split at h
  · cases h
  · rename_i xs hxs
    exact Or.inr ⟨xs, hxs, h⟩

theorem detectEpisodesForIssuer_filter (hn : 0 < cfg.minDistinctOwners) {records : List PurchaseRecord}
    {eps : List ClusterEpisode} (h : detectEpisodesForIssuer cal cfg records = some eps) :
    detectEpisodesForIssuer cal cfg (records.filter (·.filedBy d)) = some (eps.filter (·.activatedBy d)) := by
  rcases detectEpisodesForIssuer_cases h with ⟨hshort, rfl⟩ | ⟨xs, hxs, hscan⟩
  · rw [detectEpisodesForIssuer_eq, filter_countedRecords upTo_filedBy]
    exact if_pos ((List.length_filter_le _ _).trans_lt hshort)
  · have hxs' : withOrdinals cal (countedRecords cfg (records.filter (·.filedBy d))) =
        some (xs.filter fun x => x.1.filedBy d) := by
      rw [filter_countedRecords upTo_filedBy]
      exact withOrdinals_filter _ hxs
    rw [detectEpisodesForIssuer_of_withOrdinals hxs']
    exact scan_filter hn (scanned_of_withOrdinals hxs) hscan (le_refl _)

/-! ## All issuers -/

/-- The records of one issuer. -/
def recordsOf (sym : Symbol) (records : List PurchaseRecord) : List PurchaseRecord :=
  records.filter fun r => r.symbol.toUpper = sym

theorem detectEpisodes_eq (records : List PurchaseRecord) :
    detectEpisodes cal cfg records =
      ((issuers records).mapM fun sym => detectEpisodesForIssuer cal cfg (recordsOf sym records)).map fun eps =>
        orderByDateText (fun e => (e.eligibleEntrySession, e.symbol)) eps.flatten := rfl

theorem mem_issuers {records : List PurchaseRecord} {sym : Symbol} :
    sym ∈ issuers records ↔ ∃ r ∈ records, r.symbol.toUpper = sym := by
  rw [issuers, List.mem_insertionSort, mem_firstOccurrences_id, List.mem_map]

/-- The issuers are listed in ascending order, each once. -/
theorem issuers_sorted (records : List PurchaseRecord) :
    (issuers records).Nodup ∧ (issuers records).Pairwise (· ≤ ·) := by
  refine ⟨(List.perm_insertionSort _ _).nodup_iff.2 ?_, List.pairwise_insertionSort _ _⟩
  have h := nodup_firstOccurrences id (records.map fun r => r.symbol.toUpper)
  rwa [List.map_id] at h

/-- The issuers of some of the records. -/
theorem issuers_filter (p : PurchaseRecord → Bool) (records : List PurchaseRecord) :
    issuers (records.filter p) = (issuers records).filter fun sym => (recordsOf sym records).any p := by
  obtain ⟨hn, hs⟩ := issuers_sorted records
  obtain ⟨hn', hs'⟩ := issuers_sorted (records.filter p)
  refine List.Perm.eq_of_pairwise' hs' (hs.filter _) ((List.perm_ext_iff_of_nodup hn' (hn.filter _)).2 fun sym => ?_)
  rw [List.mem_filter, mem_issuers, mem_issuers]
  simp only [recordsOf, List.any_eq_true, List.mem_filter, decide_eq_true_eq]
  constructor
  · rintro ⟨r, ⟨hr, hp⟩, rfl⟩
    exact ⟨⟨r, hr, rfl⟩, r, ⟨hr, rfl⟩, hp⟩
  · rintro ⟨-, r, ⟨hr, rfl⟩, hp⟩
    exact ⟨r, ⟨hr, hp⟩, rfl⟩

/-- Elements for which a computation finds nothing may be left out. -/
theorem flatten_mapM_filter {α β : Type} {g : α → Option (List β)} (p : α → Bool) {xs : List α}
    (hnone : ∀ x ∈ xs, ¬ p x = true → g x = some []) {ys : List (List β)} (h : xs.mapM g = some ys) :
    ∃ zs, (xs.filter p).mapM g = some zs ∧ zs.flatten = ys.flatten := by
  induction xs generalizing ys with
  | nil =>
    obtain rfl : [] = ys := by simpa using h
    exact ⟨[], rfl, rfl⟩
  | cons x xs ih =>
    rw [List.mapM_cons] at h
    obtain ⟨y, hy, h⟩ := Option.bind_eq_some_iff.1 h
    obtain ⟨ys', hys', h⟩ := Option.bind_eq_some_iff.1 h
    obtain rfl := Option.some.inj h
    obtain ⟨zs, hzs, hflat⟩ := ih (fun x hx => hnone x (List.mem_cons_of_mem _ hx)) hys'
    by_cases hp : p x
    · refine ⟨y :: zs, ?_, by rw [List.flatten_cons, List.flatten_cons, hflat]⟩
      rw [List.filter_cons_of_pos hp, List.mapM_cons, hy, hzs]
      rfl
    · have hy' := hnone x List.mem_cons_self hp
      rw [hy] at hy'
      obtain rfl := Option.some.inj hy'
      exact ⟨zs, by rw [List.filter_cons_of_neg hp, hzs], by rw [List.flatten_cons, List.nil_append, hflat]⟩

/-- What a computation finds, element by element. -/
theorem mapM_map_of_forall {α β γ : Type} {f : α → Option β} {g : α → Option γ} {k : β → γ} {xs : List α}
    (hk : ∀ x y, f x = some y → g x = some (k y)) {ys : List β} (h : xs.mapM f = some ys) :
    xs.mapM g = some (ys.map k) := by
  induction xs generalizing ys with
  | nil =>
    obtain rfl : [] = ys := by simpa using h
    rfl
  | cons x xs ih =>
    rw [List.mapM_cons] at h
    obtain ⟨y, hy, h⟩ := Option.bind_eq_some_iff.1 h
    obtain ⟨ys', hys', h⟩ := Option.bind_eq_some_iff.1 h
    obtain rfl := Option.some.inj h
    rw [List.mapM_cons, hk x y hy, ih hys']
    rfl

theorem detectEpisodes_filter (hn : 0 < cfg.minDistinctOwners) {records : List PurchaseRecord}
    {eps : List ClusterEpisode} (h : detectEpisodes cal cfg records = some eps) :
    detectEpisodes cal cfg (records.filter (·.filedBy d)) = some (eps.filter (·.activatedBy d)) := by
  rw [detectEpisodes_eq] at h ⊢
  obtain ⟨groups, hgroups, rfl⟩ := Option.map_eq_some_iff.1 h
  have hcut : ∀ sym eps, detectEpisodesForIssuer cal cfg (recordsOf sym records) = some eps →
      detectEpisodesForIssuer cal cfg (recordsOf sym (records.filter (·.filedBy d))) =
        some (eps.filter (·.activatedBy d)) := by
    intro sym eps heps
    rw [recordsOf, List.filter_comm]
    exact detectEpisodesForIssuer_filter hn heps
  -- an issuer with no record by `d` has no episode by `d`
  have hnone : ∀ sym ∈ issuers records, ¬ (recordsOf sym records).any (·.filedBy d) = true →
      detectEpisodesForIssuer cal cfg (recordsOf sym (records.filter (·.filedBy d))) = some [] := by
    intro sym _ hno
    have hempty : recordsOf sym (records.filter (·.filedBy d)) = [] := by
      rw [recordsOf, List.filter_comm, ← recordsOf]
      refine List.filter_eq_nil_iff.2 fun r hr hd => hno (List.any_eq_true.2 ⟨r, hr, hd⟩)
    rw [hempty]
    exact if_pos hn
  obtain ⟨zs, hzs, hflat⟩ := flatten_mapM_filter _ hnone (mapM_map_of_forall hcut hgroups)
  rw [issuers_filter, hzs]
  refine congrArg some ?_
  dsimp only
  rw [hflat, filter_orderByDateText, List.filter_flatten]

/-- For all records and every date `d`: the detection of what is filed by `d` is the list of the episodes activated by
`d`, whatever is filed later. -/
theorem detectEpisodes_causal (cal : Calendar) (cfg : V2Config) (hn : 0 < cfg.minDistinctOwners)
    (records : List PurchaseRecord) (d : Date) {eps : List ClusterEpisode}
    (h : detectEpisodes cal cfg records = some eps) :
    detectEpisodes cal cfg (records.filter (·.filingDate ≤ d)) =
      some (eps.filter (·.activationFilingDate ≤ d)) := detectEpisodes_filter hn h

/-- A purchase of `owner` filed on day `filed`. -/
def purchase (owner : String) (filed : Date) : PurchaseRecord where
  symbol := "ACME"
  issuerCik := "1"
  ownerCik := owner
  filingDate := filed
  accession := owner ++ toString filed
  transactionDate := some filed
  transactionValue := some 1000
  isOfficer := false
  isDirector := true
  isTenPercent := false
  transactionCode := "P"

theorem detectEpisodes_causal_sample :
    let records := [purchase "p" 30, purchase "q" 35, purchase "p" 60, purchase "q" 21, purchase "r" 61]
    ∃ eps, detectEpisodes (.weekdays 100) {} records = some eps ∧ eps.length = 2 ∧
      detectEpisodes (.weekdays 100) {} (records.filter (·.filingDate ≤ 60)) =
        some (eps.filter (·.activationFilingDate ≤ 60)) := by
  intro records
  have hdetected : (detectEpisodes (.weekdays 100) {} records).map List.length = some 2 := by decide +kernel
  obtain ⟨eps, heps, hlen⟩ := Option.map_eq_some_iff.1 hdetected
  exact ⟨eps, heps, hlen, detectEpisodes_causal (.weekdays 100) {} (by decide) records 60 heps⟩

end TalonX.V2
