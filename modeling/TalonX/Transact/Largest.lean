import Mathlib.Data.Finset.Max
import TalonX.Transact.Table

/-!
# The largest keys, and tables that keep them

- `largest n S`: the members of `S` with fewer than `n` larger ones; there are `min n |S|` of them (`card_largest`), and
  the rest of `S` is below them (`lt_of_not_mem_largest`);
- `largest_insert`: only the largest members matter for what comes next;
- `Table.put`: a row replaces the one with its key, and the least key goes when there are too many (`keys_put`,
  `get_put`); `Table.puts`: the table after any history of rows (`keys_puts`, `get_puts`).
-/

set_option autoImplicit false

namespace Transact

section Largest

variable {κ : Type} [LinearOrder κ] {n : ℕ} {S : Finset κ} {a x y : κ}

def largest (n : ℕ) (S : Finset κ) : Finset κ := S.filter fun k => (S.filter (k < ·)).card < n

theorem mem_largest : x ∈ largest n S ↔ x ∈ S ∧ (S.filter (x < ·)).card < n := Finset.mem_filter

theorem largest_subset : largest n S ⊆ S := Finset.filter_subset _ _

/-- What is above one of the largest is one of them. -/
theorem mem_largest_of_lt (hx : x ∈ largest n S) (hy : y ∈ S) (hlt : x < y) : y ∈ largest n S := by
  refine mem_largest.2 ⟨hy, ?_⟩
  have hsub : S.filter (y < ·) ⊆ S.filter (x < ·) := fun z hz => by
    rw [Finset.mem_filter] at hz ⊢
    exact ⟨hz.1, hlt.trans hz.2⟩
  exact (Finset.card_le_card hsub).trans_lt (mem_largest.1 hx).2

theorem lt_of_not_mem_largest (hx : x ∈ largest n S) (hy : y ∈ S) (hout : y ∉ largest n S) : y < x := by
  rcases lt_trichotomy y x with h | rfl | h
  · exact h
  · exact absurd hx hout
  · exact absurd (mem_largest_of_lt hx hy h) hout

@[simp] theorem largest_zero : largest 0 S = ∅ := by simp [largest]

/-- A new maximum is one of the largest, and the others have one more above them. -/
theorem largest_insert_max (hmax : ∀ b ∈ S, b < a) : largest (n + 1) (insert a S) = insert a (largest n S) := by
  ext x
  rw [mem_largest, Finset.mem_insert, Finset.mem_insert, mem_largest]
  by_cases hxa : x = a
  · subst hxa
    have hnone : (insert x S).filter (x < ·) = ∅ := by
      refine Finset.filter_eq_empty_iff.2 fun b hb => ?_
      rcases Finset.mem_insert.1 hb with rfl | hb
      · exact lt_irrefl b
      · exact (hmax b hb).le.not_gt
    simp [hnone]
  · have hcard (hx : x ∈ S) : ((insert a S).filter (x < ·)).card = (S.filter (x < ·)).card + 1 := by
      rw [Finset.filter_insert, if_pos (hmax x hx), Finset.card_insert_of_notMem]
      exact fun h => lt_irrefl a (hmax a (Finset.mem_filter.1 h).1)
    constructor
    · rintro ⟨hx, hlt⟩
      have hx := hx.resolve_left hxa
      rw [hcard hx] at hlt
      exact .inr ⟨hx, Nat.lt_of_succ_lt_succ hlt⟩
    · intro h
      obtain ⟨hx, hlt⟩ := h.resolve_left hxa
      rw [hcard hx]
      exact ⟨.inr hx, Nat.succ_lt_succ hlt⟩

theorem card_largest (n : ℕ) (S : Finset κ) : (largest n S).card = min n S.card := by
  induction S using Finset.induction_on_max generalizing n with
  | empty => simp [largest]
  | insert a S hmax ih =>
    have hout : a ∉ S := fun h => lt_irrefl a (hmax a h)
    cases n with
    | zero => simp
    | succ n =>
      rw [largest_insert_max hmax, Finset.card_insert_of_notMem fun h => hout (largest_subset h), ih,
        Finset.card_insert_of_notMem hout]
      omega

theorem largest_of_card_le (h : S.card ≤ n) : largest n S = S :=
  Finset.eq_of_subset_of_card_le largest_subset (by rw [card_largest, Nat.min_eq_right h])

/-- One member too many: the least one goes. -/
theorem largest_of_card_succ (h : S.card = n + 1) (hx : x ∈ S) (hmin : ∀ y ∈ S, x ≤ y) :
    largest n S = S.erase x := by
  have hout : x ∉ largest n S := by
    intro hin
    have habove : S.filter (x < ·) = S.erase x := by
      ext y
      rw [Finset.mem_filter, Finset.mem_erase]
      exact ⟨fun hy => ⟨hy.2.ne', hy.1⟩, fun hy => ⟨hy.2, lt_of_le_of_ne (hmin y hy.2) (Ne.symm hy.1)⟩⟩
    have hlt := (mem_largest.1 hin).2
    rw [habove, Finset.card_erase_of_mem hx, h] at hlt
    exact lt_irrefl _ hlt
  refine Finset.eq_of_subset_of_card_le (fun y hy => Finset.mem_erase.2 ⟨?_, largest_subset hy⟩) ?_
  · rintro rfl
    exact hout hy
  · rw [card_largest, Finset.card_erase_of_mem hx, h]
    omega

/-- Members that are not among the largest have no say in what is among the largest later. -/
theorem largest_insert (n : ℕ) (a : κ) (S : Finset κ) : largest n (insert a (largest n S)) = largest n (insert a S) := by
  ext x
  rw [mem_largest, mem_largest]
  constructor
  · rintro ⟨hx, hlt⟩
    refine ⟨Finset.insert_subset_insert a largest_subset hx, ?_⟩
    by_contra hmany
    -- some member above `x` is not among the largest: then all of those are above it, and there are `n` of them
    obtain ⟨y, hy, hyout⟩ : ∃ y ∈ S, x < y ∧ y ∉ largest n S := by
      by_contra hall
      push Not at hall
      refine hmany (lt_of_le_of_lt (Finset.card_le_card fun y hy => ?_) hlt)
      obtain ⟨hyin, hxy⟩ := Finset.mem_filter.1 hy
      refine Finset.mem_filter.2 ⟨?_, hxy⟩
      rcases Finset.mem_insert.1 hyin with rfl | hyin
      · exact Finset.mem_insert_self ..
      · exact Finset.mem_insert_of_mem (hall y hyin hxy)
    have hfull : n ≤ S.card := by
      by_contra hless
      exact hyout.2 ((largest_of_card_le (Nat.le_of_not_le hless)).symm ▸ hy)
    have hsub : largest n S ⊆ (insert a (largest n S)).filter (x < ·) := fun z hz =>
      Finset.mem_filter.2 ⟨Finset.mem_insert_of_mem hz, hyout.1.trans (lt_of_not_mem_largest hz hy hyout.2)⟩
    have hle := Finset.card_le_card hsub
    rw [card_largest, Nat.min_eq_left hfull] at hle
    omega
  · rintro ⟨hx, hlt⟩
    have hsub : (insert a (largest n S)).filter (x < ·) ⊆ (insert a S).filter (x < ·) :=
      Finset.filter_subset_filter _ (Finset.insert_subset_insert a largest_subset)
    refine ⟨?_, (Finset.card_le_card hsub).trans_lt hlt⟩
    rcases Finset.mem_insert.1 hx with rfl | hx
    · exact Finset.mem_insert_self ..
    · refine Finset.mem_insert_of_mem (mem_largest.2 ⟨hx, lt_of_le_of_lt (Finset.card_le_card ?_) hlt⟩)
      exact Finset.filter_subset_filter _ (Finset.subset_insert a S)

end Largest

/-! ## Tables that keep the rows with the largest keys -/

variable {α κ : Type} {key : α → κ} [LinearOrder κ]

/-- The last row of a history with key `k`. -/
def lastWritten (key : α → κ) (rs : List α) (k : κ) : Option α := rs.reverse.find? (key · = k)

theorem lastWritten_concat {rs : List α} {r : α} {k : κ} :
    lastWritten key (rs ++ [r]) k = if key r = k then some r else lastWritten key rs k := by
  rw [lastWritten, List.reverse_append, List.reverse_singleton, List.singleton_append, List.find?_cons]
  by_cases h : key r = k <;> simp [h, lastWritten]

theorem lastWritten_append_of_notMem {rs rs' : List α} {k : κ} (h : k ∉ rs'.map key) :
    lastWritten key (rs ++ rs') k = lastWritten key rs k := by
  induction rs' using List.reverseRecOn with
  | nil => rw [List.append_nil]
  | append_singleton rs' r ih =>
    rw [List.map_append, List.mem_append, not_or] at h
    rw [← List.append_assoc, lastWritten_concat, if_neg fun he => h.2 (List.mem_singleton.2 he.symm), ih h.1]

/-- A key that a history has is decided by that history, whatever comes before. -/
theorem lastWritten_append_of_mem {rs rs' : List α} {k : κ} (h : k ∈ rs'.map key) :
    lastWritten key (rs ++ rs') k = lastWritten key rs' k := by
  induction rs' using List.reverseRecOn with
  | nil => cases h
  | append_singleton rs' r ih =>
    rw [← List.append_assoc, lastWritten_concat, lastWritten_concat]
    by_cases hr : key r = k
    · rw [if_pos hr, if_pos hr]
    · rw [if_neg hr, if_neg hr]
      rw [List.map_append, List.mem_append] at h
      exact ih (h.resolve_right fun he => hr (List.mem_singleton.1 he).symm)

namespace Table

def keys (t : Table key) : Finset κ := (t.rows.map key).toFinset

theorem card_keys (t : Table key) : t.keys.card = t.rows.length := by
  rw [keys, List.toFinset_card_of_nodup t.unique, List.length_map]

theorem mem_keys {t : Table key} {k : κ} : k ∈ t.keys ↔ ∃ r ∈ t.rows, key r = k := by simp [keys]

theorem mem_keys_iff_get {t : Table key} {k : κ} : k ∈ t.keys ↔ t.get k ≠ none := by
  rw [mem_keys, ne_eq, get_eq_none]
  push Not
  rfl

/-- A row is all that stands under its key. -/
theorem filter_key_of_get {t : Table key} {k : κ} {r : α} (h : t.get k = some r) :
    t.rows.filter (key · = k) = [r] := by
  have hr : r ∈ t.rows.filter (key · = k) := List.mem_filter.2 ⟨mem_of_get h, by simpa using key_of_get h⟩
  obtain ⟨a, ha⟩ := List.length_eq_one_iff.1 (le_antisymm (t.length_filter_key_le_one k) (List.length_pos_of_mem hr))
  rw [ha] at hr ⊢
  rw [List.mem_singleton.1 hr]

theorem get_delete_key {t : Table key} {k k₀ : κ} :
    (t.delete (key · = k₀)).get k = if k = k₀ then none else t.get k := by
  by_cases hk : k = k₀
  · rw [if_pos hk, get_eq_none]
    intro r hr he
    have hne := (List.mem_filter.1 hr).2
    simp [he, hk] at hne
  · rw [if_neg hk, get, rows_delete, List.find?_filter, get]
    congr 1
    funext r
    by_cases he : key r = k <;> simp [he, hk]

/-- The row takes the place of the one with its key. -/
def replace (t : Table key) (r : α) : Table key :=
  t.upsert r (fun q => if key q = key r then r else q) fun q => by
    by_cases h : key q = key r <;> simp [h]

theorem keys_replace {t : Table key} {r : α} : (t.replace r).keys = insert (key r) t.keys := by
  ext k
  rw [keys, List.mem_toFinset, replace, mem_keys_upsert, Finset.mem_insert, keys, List.mem_toFinset]

theorem get_replace {t : Table key} {r : α} {k : κ} :
    (t.replace r).get k = if key r = k then some r else t.get k := by
  by_cases h : key r = k
  · subst h
    rw [if_pos rfl, replace, get_upsert_self]
    cases hg : t.get (key r) with
    | none => rfl
    | some q => simp [key_of_get hg]
  · rw [if_neg h, replace, get_upsert_of_ne (Ne.symm h)]

/-- The row with the least key goes when there are more than `n`. -/
def evictOver (n : ℕ) (t : Table key) : Table key :=
  if n < t.rows.length then
    match (t.rows.map key).min? with
    | some k => t.delete (key · = k)
    | none => t
  else t

theorem get_evictOver {n : ℕ} {t : Table key} {k : κ} (hcard : t.keys.card ≤ n + 1) :
    (t.evictOver n).get k = if k ∈ largest n t.keys then t.get k else none := by
  have hnone (hk : k ∉ t.keys) : t.get k = none := not_not.1 fun h => hk (mem_keys_iff_get.2 h)
  rw [card_keys] at hcard
  unfold evictOver
  by_cases hover : n < t.rows.length
  · rw [if_pos hover]
    cases hmin : (t.rows.map key).min? with
    | none =>
      rw [List.min?_eq_none_iff, List.map_eq_nil_iff] at hmin
      rw [hmin] at hover
      exact absurd hover (Nat.not_lt_zero n)
    | some k₀ =>
      obtain ⟨hmem, hle⟩ := List.min?_eq_some_iff.1 hmin
      have hlargest : largest n t.keys = t.keys.erase k₀ :=
        largest_of_card_succ (by rw [card_keys]; omega) (List.mem_toFinset.2 hmem)
          fun k' hk' => hle k' (List.mem_toFinset.1 hk')
      rw [get_delete_key, hlargest]
      by_cases hk : k = k₀
      · rw [if_pos hk, if_neg fun h => (Finset.mem_erase.1 h).1 hk]
      · rw [if_neg hk]
        by_cases hin : k ∈ t.keys
        · rw [if_pos (Finset.mem_erase.2 ⟨hk, hin⟩)]
        · rw [if_neg fun h => hin (Finset.mem_erase.1 h).2, hnone hin]
  · rw [if_neg hover, largest_of_card_le (by rw [card_keys]; omega)]
    by_cases hin : k ∈ t.keys
    · rw [if_pos hin]
    · rw [if_neg hin, hnone hin]

def put (n : ℕ) (t : Table key) (r : α) : Table key := (t.replace r).evictOver n

theorem get_put {n : ℕ} {t : Table key} {r : α} {k : κ} (hcard : t.keys.card ≤ n) :
    (t.put n r).get k =
      if k ∈ largest n (insert (key r) t.keys) then (if key r = k then some r else t.get k) else none := by
  have hcard' : (t.replace r).keys.card ≤ n + 1 := by
    rw [keys_replace]
    exact (Finset.card_insert_le _ _).trans (Nat.succ_le_succ hcard)
  rw [put, get_evictOver hcard', keys_replace, get_replace]

/-- After a history: the rows with the `n` largest keys, each the last one written under its key. -/
def Holds (n : ℕ) (rs : List α) (t : Table key) : Prop :=
  ∀ k, t.get k = if k ∈ largest n (rs.map key).toFinset then lastWritten key rs k else none

theorem lastWritten_ne_none {rs : List α} {k : κ} (h : k ∈ rs.map key) : lastWritten key rs k ≠ none := by
  obtain ⟨r, hr, rfl⟩ := List.mem_map.1 h
  intro hnone
  exact absurd (List.find?_eq_none.1 hnone r (List.mem_reverse.2 hr)) (by simp)

theorem Holds.keys {n : ℕ} {rs : List α} {t : Table key} (h : t.Holds n rs) :
    t.keys = largest n (rs.map key).toFinset := by
  ext k
  rw [mem_keys_iff_get, h k]
  by_cases hk : k ∈ largest n (rs.map key).toFinset
  · rw [if_pos hk]
    exact iff_of_true (lastWritten_ne_none (List.mem_toFinset.1 (largest_subset hk))) hk
  · rw [if_neg hk]
    exact iff_of_false (fun hne => hne rfl) hk

theorem holds_empty (n : ℕ) : (empty : Table key).Holds n [] := fun k => by simp [largest, get]

theorem Holds.put {n : ℕ} {rs : List α} {t : Table key} (h : t.Holds n rs) (r : α) :
    (t.put n r).Holds n (rs ++ [r]) := by
  intro k
  have hcard : t.keys.card ≤ n := by
    rw [h.keys, card_largest]
    exact Nat.min_le_left ..
  have hset : (List.map key (rs ++ [r])).toFinset = insert (key r) (rs.map key).toFinset := by
    rw [List.map_append, List.toFinset_append, List.map_singleton, Finset.union_comm]
    rfl
  rw [get_put hcard, h.keys, largest_insert, hset, lastWritten_concat]
  by_cases hk : k ∈ largest n (insert (key r) (rs.map key).toFinset)
  · rw [if_pos hk, if_pos hk]
    by_cases hr : key r = k
    · rw [if_pos hr, if_pos hr]
    · rw [if_neg hr, if_neg hr, h k, if_pos]
      -- `k` is one of the largest also without the new key
      have hmem := (mem_largest.1 hk).1
      refine mem_largest.2 ⟨(Finset.mem_insert.1 hmem).resolve_left (Ne.symm hr), ?_⟩
      refine (Finset.card_le_card ?_).trans_lt (mem_largest.1 hk).2
      exact Finset.filter_subset_filter _ (Finset.subset_insert ..)
  · rw [if_neg hk, if_neg hk]

/-- The table after a history of rows. -/
def puts (n : ℕ) (t : Table key) (rs : List α) : Table key := rs.foldl (put n) t

theorem Holds.puts {n : ℕ} {rs : List α} {t : Table key} (h : t.Holds n rs) (rs' : List α) :
    (t.puts n rs').Holds n (rs ++ rs') := by
  induction rs' generalizing rs t with
  | nil => rwa [List.append_nil]
  | cons r rs' ih =>
    have hput := ih (h.put r)
    rwa [List.append_assoc] at hput

/-- Histories that differ in the order of two parts with different keys leave the same rows. -/
theorem Holds.get_swap {n : ℕ} {before xs ys : List α} {t t' : Table key} (h : t.Holds n (before ++ xs ++ ys))
    (h' : t'.Holds n (before ++ ys ++ xs)) (hapart : ∀ k ∈ xs.map key, k ∉ ys.map key) (k : κ) :
    t.get k = t'.get k := by
  have hset : ((before ++ xs ++ ys).map key).toFinset = ((before ++ ys ++ xs).map key).toFinset := by
    ext k
    simp only [List.mem_toFinset, List.map_append, List.mem_append]
    rw [or_assoc, or_comm (a := k ∈ xs.map key), ← or_assoc]
  have hlast : lastWritten key (before ++ xs ++ ys) k = lastWritten key (before ++ ys ++ xs) k := by
    by_cases hx : k ∈ xs.map key
    · rw [lastWritten_append_of_notMem (hapart k hx), lastWritten_append_of_mem hx, lastWritten_append_of_mem hx]
    · rw [lastWritten_append_of_notMem hx]
      by_cases hy : k ∈ ys.map key
      · rw [lastWritten_append_of_mem hy, lastWritten_append_of_mem hy]
      · rw [lastWritten_append_of_notMem hy, lastWritten_append_of_notMem hx, lastWritten_append_of_notMem hy]
  rw [h k, h' k, hset, hlast]

end Table

end Transact
