import Mathlib.Algebra.BigOperators.Group.List.Basic
import Mathlib.Algebra.Order.BigOperators.Group.List
import Mathlib.Data.List.Nodup
import Mathlib.Tactic.Abel

/-!
# Tables

A table is a list of rows in insertion order under a uniqueness constraint: the constraint is a field, so every
operation has to re-establish it once, here.

- `updateRows`, `sumWhere`: changing rows, summing the rows that qualify, and the effect of changing one row on sums and
  counts (`sumWhere_updateRows`, `countP_updateRows`);
- `Table key`: rows with one `UNIQUE` key (`insert?`, `insertOrIgnore`, `upsert`, `update`, `delete`, `get`);
- `SeqTable id key`: rows numbered from `1` in insertion order (an `AUTOINCREMENT` primary key) with one more
  `UNIQUE` key.
-/

set_option autoImplicit false

namespace Transact

variable {α κ M : Type}

/-! ## Changing rows of a list -/

/-- `UPDATE … SET f WHERE p`. -/
def updateRows (p : α → Bool) (f : α → α) (rows : List α) : List α := rows.map fun r => if p r then f r else r

@[simp] theorem length_updateRows (p : α → Bool) (f : α → α) (rows : List α) :
    (updateRows p f rows).length = rows.length := List.length_map ..

theorem map_updateRows {p : α → Bool} {f : α → α} {g : α → κ} (h : ∀ r, g (f r) = g r) (rows : List α) :
    (updateRows p f rows).map g = rows.map g := by
  rw [updateRows, List.map_map]
  refine List.map_congr_left fun r _ => ?_
  by_cases hp : p r <;> simp [hp, h]

theorem mem_updateRows {p : α → Bool} {f : α → α} {rows : List α} {r : α} :
    r ∈ updateRows p f rows ↔ ∃ q ∈ rows, (if p q then f q else q) = r := List.mem_map

/-- Rows that do not qualify stay. -/
theorem updateRows_of_forall_not {p : α → Bool} {f : α → α} {rows : List α} (h : ∀ r ∈ rows, p r = false) :
    updateRows p f rows = rows := by
  rw [updateRows]
  conv_rhs => rw [← List.map_id rows]
  exact List.map_congr_left fun r hr => by simp [h r hr]

/-- Changing the one row `r` that qualifies moves a sum by the change of its summand. -/
theorem sum_updateRows [AddCommGroup M] {p : α → Bool} {f : α → α} {g : α → M} {rows : List α} {r : α}
    (hn : rows.Nodup) (hr : r ∈ rows) (hp : p r) (hu : ∀ q ∈ rows, p q → q = r) :
    ((updateRows p f rows).map g).sum = (rows.map g).sum - g r + g (f r) := by
  induction rows with
  | nil => simp at hr
  | cons q rows ih =>
    obtain ⟨hq, hn⟩ := List.nodup_cons.1 hn
    have hcons : updateRows p f (q :: rows) = (if p q then f q else q) :: updateRows p f rows := rfl
    rw [hcons, List.map_cons, List.sum_cons, List.map_cons, List.sum_cons]
    by_cases hqr : q = r
    · subst hqr
      have hrest : updateRows p f rows = rows := updateRows_of_forall_not fun q' hq' => by
        by_contra hc
        have he := hu q' (List.mem_cons_of_mem _ hq') (by simpa using hc)
        exact hq (he ▸ hq')
      rw [hrest, if_pos hp]; abel
    · have hpq : p q = false := by
        by_contra hc
        exact hqr (hu q List.mem_cons_self (by simpa using hc))
      have hr' : r ∈ rows := (List.mem_cons.1 hr).resolve_left (fun h => hqr h.symm)
      rw [ih hn hr' (fun q' hq' => hu q' (List.mem_cons_of_mem _ hq')), hpq]
      simp only [Bool.false_eq_true, if_false]; abel

/-! ## Sums over the rows that qualify -/

/-- `COALESCE(SUM(g), 0) … WHERE c`. -/
def sumWhere [AddCommGroup M] (c : α → Bool) (g : α → M) (rows : List α) : M := ((rows.filter c).map g).sum

@[simp] theorem sumWhere_nil [AddCommGroup M] (c : α → Bool) (g : α → M) : sumWhere c g [] = 0 := rfl

theorem sumWhere_cons [AddCommGroup M] (c : α → Bool) (g : α → M) (r : α) (rows : List α) :
    sumWhere c g (r :: rows) = (if c r then g r else 0) + sumWhere c g rows := by
  unfold sumWhere
  by_cases h : c r <;> simp [h]

theorem sumWhere_append [AddCommGroup M] (c : α → Bool) (g : α → M) (rows rows' : List α) :
    sumWhere c g (rows ++ rows') = sumWhere c g rows + sumWhere c g rows' := by
  simp [sumWhere]

theorem sumWhere_of_forall_not [AddCommGroup M] {c : α → Bool} {g : α → M} {rows : List α}
    (h : ∀ r ∈ rows, c r = false) : sumWhere c g rows = 0 := by
  rw [sumWhere, List.filter_eq_nil_iff.2 fun r hr => by simp [h r hr]]
  rfl

theorem sumWhere_eq_sum [AddCommGroup M] (c : α → Bool) (g : α → M) (rows : List α) :
    sumWhere c g rows = (rows.map fun r => if c r then g r else 0).sum := by
  induction rows with
  | nil => rfl
  | cons r rows ih => rw [sumWhere_cons, ih, List.map_cons, List.sum_cons]

/-- Changing the one row `r` that `p` selects. -/
theorem sumWhere_updateRows [AddCommGroup M] {p c : α → Bool} {f : α → α} {g : α → M} {rows : List α} {r : α}
    (hn : rows.Nodup) (hr : r ∈ rows) (hp : p r) (hu : ∀ q ∈ rows, p q → q = r) :
    sumWhere c g (updateRows p f rows) =
      sumWhere c g rows - (if c r then g r else 0) + if c (f r) then g (f r) else 0 := by
  rw [sumWhere_eq_sum, sumWhere_eq_sum, sum_updateRows hn hr hp hu]

/-- A count is a sum of ones. -/
theorem countP_eq_sumWhere (c : α → Bool) (rows : List α) : (rows.countP c : ℤ) = sumWhere c (fun _ => 1) rows := by
  induction rows with
  | nil => rfl
  | cons r rows ih =>
    by_cases h : c r
    · rw [sumWhere_cons, if_pos h, List.countP_cons_of_pos h, Nat.cast_succ, ih, add_comm]
    · rw [sumWhere_cons, if_neg h, List.countP_cons_of_neg h, ih, zero_add]

/-- The same for counts. -/
theorem countP_updateRows {p : α → Bool} {f : α → α} {c : α → Bool} {rows : List α} {r : α} (hn : rows.Nodup)
    (hr : r ∈ rows) (hp : p r) (hu : ∀ q ∈ rows, p q → q = r) :
    ((updateRows p f rows).countP c : ℤ) = rows.countP c - (if c r then 1 else 0) + if c (f r) then 1 else 0 := by
  rw [countP_eq_sumWhere, countP_eq_sumWhere, sumWhere_updateRows hn hr hp hu]

/-- An update that selects no new row for `c` does not raise its count. -/
theorem countP_updateRows_le {p : α → Bool} {f : α → α} {c : α → Bool} (h : ∀ r, p r → c (f r) → c r)
    (rows : List α) : (updateRows p f rows).countP c ≤ rows.countP c := by
  rw [updateRows, List.countP_map]
  refine List.countP_mono_left fun r _ hr => ?_
  by_cases hp : p r
  · exact h r hp (by simpa [hp] using hr)
  · simpa [hp] using hr

/-- Values under distinct keys, each of them at most some value under the same key, have the smaller sum. -/
theorem sum_le_sum_of_keys [AddCommGroup M] [PartialOrder M] [IsOrderedAddMonoid M] {rows : List (κ × M)} :
    ∀ {rows' : List (κ × M)}, (∀ r ∈ rows', 0 ≤ r.2) → (rows.map Prod.fst).Nodup →
      (∀ r ∈ rows, ∃ q ∈ rows', q.1 = r.1 ∧ r.2 ≤ q.2) → (rows.map Prod.snd).sum ≤ (rows'.map Prod.snd).sum := by
  induction rows with
  | nil =>
    intro rows' hpos _ _
    exact List.sum_nonneg fun x hx => by
      obtain ⟨r, hr, rfl⟩ := List.mem_map.1 hx
      exact hpos r hr
  | cons r rows ih =>
    intro rows' hpos hn hle
    obtain ⟨hr, hn⟩ := List.nodup_cons.1 hn
    obtain ⟨q, hq, hkey, hval⟩ := hle r List.mem_cons_self
    obtain ⟨before, after, rfl⟩ := List.append_of_mem hq
    have hsub : ∀ x ∈ before ++ after, x ∈ before ++ q :: after := fun x hx => by
      rcases List.mem_append.1 hx with hx | hx
      · exact List.mem_append_left _ hx
      · exact List.mem_append_right _ (List.mem_cons_of_mem _ hx)
    have hrest := @ih (before ++ after) (fun x hx => hpos x (hsub x hx)) hn fun x hx => by
      obtain ⟨y, hy, hyk, hyv⟩ := hle x (List.mem_cons_of_mem _ hx)
      refine ⟨y, ?_, hyk, hyv⟩
      -- the rows have different keys, so the value used for `r` is free of the others
      have hne : y ≠ q := fun e => hr (List.mem_map.2 ⟨x, hx, by rw [← hyk, e, hkey]⟩)
      simpa [hne] using hy
    simp only [List.map_cons, List.sum_cons, List.map_append, List.sum_append] at hrest ⊢
    calc r.2 + (rows.map Prod.snd).sum
        ≤ q.2 + ((before.map Prod.snd).sum + (after.map Prod.snd).sum) := add_le_add hval hrest
      _ = (before.map Prod.snd).sum + (q.2 + (after.map Prod.snd).sum) := by abel

/-- A sum to which at most the row `r` contributes. -/
theorem sumWhere_eq_single [AddCommGroup M] {c : α → Bool} {g : α → M} {rows : List α} {r : α} (hn : rows.Nodup)
    (hr : r ∈ rows) (h : ∀ q ∈ rows, q ≠ r → c q → g q = 0) : sumWhere c g rows = if c r then g r else 0 := by
  obtain ⟨before, after, rfl⟩ := List.append_of_mem hr
  have hzero : ∀ l : List α, (∀ q ∈ l, q ∈ before ++ r :: after ∧ q ≠ r) → sumWhere c g l = 0 := fun l hl => by
    rw [sumWhere_eq_sum]
    refine List.sum_eq_zero fun x hx => ?_
    obtain ⟨q, hq, rfl⟩ := List.mem_map.1 hx
    by_cases hc : c q
    · rw [if_pos hc, h q (hl q hq).1 (hl q hq).2 hc]
    · rw [if_neg hc]
  have hmid := List.nodup_middle.1 hn
  have hnot : r ∉ before ++ after := (List.nodup_cons.1 hmid).1
  rw [sumWhere_append, sumWhere_cons, hzero before, hzero after, zero_add, add_zero]
  · intro q hq
    refine ⟨by simp [hq], ?_⟩
    rintro rfl
    exact hnot (List.mem_append_right _ hq)
  · intro q hq
    refine ⟨by simp [hq], ?_⟩
    rintro rfl
    exact hnot (List.mem_append_left _ hq)

/-- Looking a row up by a unique key. -/
theorem find?_key_eq_some [DecidableEq κ] {key : α → κ} {rows : List α} (hn : (rows.map key).Nodup) {k : κ} {r : α} :
    rows.find? (fun q => key q = k) = some r ↔ r ∈ rows ∧ key r = k := by
  refine ⟨fun h => ⟨List.mem_of_find?_eq_some h, by simpa using List.find?_some h⟩, fun ⟨hr, hk⟩ => ?_⟩
  cases hf : rows.find? (fun q => key q = k) with
  | none => exact absurd (decide_eq_true hk) (List.find?_eq_none.1 hf r hr)
  | some q =>
    have hq : key q = k := by simpa using List.find?_some hf
    rw [List.inj_on_of_nodup_map hn (List.mem_of_find?_eq_some hf) hr (hq.trans hk.symm)]

/-- Rows with a unique key stand at one place. -/
theorem index_unique {key : α → κ} {rows : List α} (hn : (rows.map key).Nodup) {i j : ℕ} {r q : α}
    (hr : rows[i]? = some r) (hq : rows[j]? = some q) (h : key r = key q) : i = j := by
  have hi : i < (rows.map key).length := by simpa using (List.getElem?_eq_some_iff.1 hr).1
  refine (List.getElem?_inj hi hn).1 ?_
  rw [List.getElem?_map, List.getElem?_map, hr, hq, Option.map_some, Option.map_some, h]

/-! ## Tables with a unique key -/

structure Table (key : α → κ) where
  rows : List α
  unique : (rows.map key).Nodup

namespace Table

variable {key : α → κ}

def empty : Table key := ⟨[], List.nodup_nil⟩

@[simp] theorem rows_empty : (empty : Table key).rows = [] := rfl

theorem nodup (t : Table key) : t.rows.Nodup := t.unique.of_map

theorem eq_of_key (t : Table key) {r q : α} (hr : r ∈ t.rows) (hq : q ∈ t.rows) (h : key r = key q) : r = q :=
  List.inj_on_of_nodup_map t.unique hr hq h

def update (t : Table key) (p : α → Bool) (f : α → α) (hf : ∀ r, key (f r) = key r) : Table key :=
  ⟨updateRows p f t.rows, by rw [map_updateRows hf]; exact t.unique⟩

@[simp] theorem rows_update (t : Table key) (p : α → Bool) (f : α → α) (hf : ∀ r, key (f r) = key r) :
    (t.update p f hf).rows = updateRows p f t.rows := rfl

theorem update_of_forall_not {t : Table key} {p : α → Bool} {f : α → α} {hf : ∀ r, key (f r) = key r}
    (h : ∀ r ∈ t.rows, p r = false) : t.update p f hf = t := by
  obtain ⟨rows, hu⟩ := t
  simp only [update, updateRows_of_forall_not h]

/-- A sum after the row `r` was changed. -/
theorem sumWhere_update_key [DecidableEq κ] [AddCommGroup M] {t : Table key} {f : α → α}
    (hf : ∀ q, key (f q) = key q) {c : α → Bool} {g : α → M} {r : α} (hr : r ∈ t.rows) :
    sumWhere c g (t.update (key · = key r) f hf).rows =
      sumWhere c g t.rows - (if c r then g r else 0) + if c (f r) then g (f r) else 0 :=
  sumWhere_updateRows t.nodup hr (by simp) fun q hq h => t.eq_of_key hq hr (by simpa using h)

theorem mem_update_key [DecidableEq κ] {t : Table key} {f : α → α} (hf : ∀ q, key (f q) = key q) {r q : α}
    (hr : r ∈ t.rows) : q ∈ (t.update (key · = key r) f hf).rows ↔ (q ∈ t.rows ∧ key q ≠ key r) ∨ q = f r := by
  rw [rows_update, mem_updateRows]
  constructor
  · rintro ⟨x, hx, rfl⟩
    by_cases hk : key x = key r
    · rw [t.eq_of_key hx hr hk]
      simp
    · simp [hk, hx]
  · rintro (⟨hq, hk⟩ | rfl)
    · exact ⟨q, hq, by simp [hk]⟩
    · exact ⟨r, hr, by simp⟩

/-- `DELETE … WHERE p`. -/
def delete (t : Table key) (p : α → Bool) : Table key :=
  ⟨t.rows.filter (!p ·), (List.filter_sublist.map key).nodup t.unique⟩

@[simp] theorem rows_delete (t : Table key) (p : α → Bool) : (t.delete p).rows = t.rows.filter (!p ·) := rfl

/-- Deleting the one row with its key takes its summand away. -/
theorem sum_delete [DecidableEq κ] [AddCommGroup M] {t : Table key} {g : α → M} {r : α} (hr : r ∈ t.rows) :
    ((t.delete (key · = key r)).rows.map g).sum = (t.rows.map g).sum - g r := by
  have hn := t.unique
  rw [rows_delete]
  generalize t.rows = rows at hr hn
  induction rows with
  | nil => simp at hr
  | cons q rows ih =>
    obtain ⟨hq, hn⟩ := List.nodup_cons.1 hn
    rcases List.mem_cons.1 hr with rfl | hr
    · have hrest : rows.filter (fun q => !decide (key q = key r)) = rows := by
        refine List.filter_eq_self.2 fun q' hq' => ?_
        have hne : key q' ≠ key r := fun e => hq (e ▸ List.mem_map_of_mem hq')
        simp [hne]
      rw [List.filter_cons_of_neg (by simp), hrest, List.map_cons, List.sum_cons]
      abel
    · have hne : key q ≠ key r := fun e => hq (e ▸ List.mem_map_of_mem hr)
      rw [List.filter_cons_of_pos (by simp [hne]), List.map_cons, List.sum_cons, ih hr hn, List.map_cons,
        List.sum_cons]
      abel

variable [DecidableEq κ]

/-- The row with key `k`. -/
def get (t : Table key) (k : κ) : Option α := t.rows.find? fun r => key r = k

theorem get_eq_some {t : Table key} {k : κ} {r : α} : t.get k = some r ↔ r ∈ t.rows ∧ key r = k :=
  find?_key_eq_some t.unique

theorem get_eq_none {t : Table key} {k : κ} : t.get k = none ↔ ∀ r ∈ t.rows, key r ≠ k := by
  simp [get, List.find?_eq_none]

theorem key_of_get {t : Table key} {k : κ} {r : α} (h : t.get k = some r) : key r = k := (get_eq_some.1 h).2

theorem mem_of_get {t : Table key} {k : κ} {r : α} (h : t.get k = some r) : r ∈ t.rows := (get_eq_some.1 h).1

/-- A key has at most one row. -/
theorem length_filter_key_le_one (t : Table key) (k : κ) : (t.rows.filter (key · = k)).length ≤ 1 := by
  have hcount : (t.rows.map key).count k = (t.rows.filter (key · = k)).length := by
    rw [List.count, List.countP_map, List.countP_eq_length_filter]
    rfl
  exact hcount ▸ List.nodup_iff_count_le_one.1 t.unique k

/-- Lookups after a row was appended. -/
theorem get_append {t t' : Table key} {r : α} (h : t'.rows = t.rows ++ [r]) (k : κ) :
    t'.get k = (t.get k).or (if key r = k then some r else none) := by
  simp only [get, h, List.find?_append, List.find?_singleton, decide_eq_true_eq]

/-- Lookups after rows were changed. -/
theorem get_updateRows {t t' : Table key} {p : α → Bool} {f : α → α} (h : t'.rows = updateRows p f t.rows)
    (hf : ∀ r, key (f r) = key r) (k : κ) : t'.get k = (t.get k).map fun r => if p r then f r else r := by
  have hkey : ∀ r, key (if p r then f r else r) = key r := fun r => by
    by_cases hp : p r <;> simp [hp, hf]
  rw [get, get, h, updateRows, List.find?_map]
  simp only [Function.comp_def, hkey]

/-- `INSERT`: an `IntegrityError` (`none`) when the key is taken. -/
def insert? (t : Table key) (r : α) : Option (Table key) :=
  if h : key r ∈ t.rows.map key then none
  else some ⟨t.rows ++ [r], by
    rw [List.map_append, List.nodup_append]
    exact ⟨t.unique, by simp, fun a ha b hb => by
      rw [List.map_singleton, List.mem_singleton] at hb
      rintro rfl
      exact h (hb ▸ ha)⟩⟩

theorem insert?_eq_some {t t' : Table key} {r : α} (h : t.insert? r = some t') :
    t'.rows = t.rows ++ [r] ∧ ∀ q ∈ t.rows, key q ≠ key r := by
  unfold insert? at h
  split at h
  · cases h
  · rename_i hk
    obtain rfl := Option.some.inj h
    exact ⟨rfl, fun q hq e => hk (e ▸ List.mem_map_of_mem hq)⟩

theorem insert?_of_get_none {t : Table key} {r : α} (h : t.get (key r) = none) :
    ∃ t', t.insert? r = some t' ∧ t'.rows = t.rows ++ [r] := by
  have hk : key r ∉ t.rows.map key := by
    rw [List.mem_map]
    rintro ⟨q, hq, e⟩
    exact get_eq_none.1 h q hq e
  exact ⟨_, by rw [insert?, dif_neg hk], rfl⟩

/-- `INSERT OR IGNORE`. -/
def insertOrIgnore (t : Table key) (r : α) : Table key := (t.insert? r).getD t

theorem rows_insertOrIgnore (t : Table key) (r : α) :
    (t.insertOrIgnore r).rows = if t.get (key r) = none then t.rows ++ [r] else t.rows := by
  split
  · rename_i h
    obtain ⟨t', ht, hr⟩ := insert?_of_get_none h
    simp [insertOrIgnore, ht, hr]
  · rename_i h
    have hn : t.insert? r = none := by
      cases hi : t.insert? r with
      | none => rfl
      | some t' => exact absurd (get_eq_none.2 (insert?_eq_some hi).2) h
    simp [insertOrIgnore, hn]

theorem mem_insertOrIgnore {t : Table key} {r q : α} (h : q ∈ (t.insertOrIgnore r).rows) : q ∈ t.rows ∨ q = r := by
  rw [rows_insertOrIgnore] at h
  split at h
  · simpa using h
  · exact Or.inl h

theorem mem_insertOrIgnore_of_mem {t : Table key} {r q : α} (h : q ∈ t.rows) : q ∈ (t.insertOrIgnore r).rows := by
  rw [rows_insertOrIgnore]
  split
  · exact List.mem_append_left _ h
  · exact h

theorem get_insertOrIgnore_of_ne {t : Table key} {r : α} {k : κ} (h : k ≠ key r) :
    (t.insertOrIgnore r).get k = t.get k := by
  by_cases hg : t.get (key r) = none
  · have hrows : (t.insertOrIgnore r).rows = t.rows ++ [r] := by rw [rows_insertOrIgnore, if_pos hg]
    rw [get_append hrows, if_neg (Ne.symm h), Option.or_none]
  · rw [get, rows_insertOrIgnore, if_neg hg, get]

/-- After the insert there is a row with that key. -/
theorem exists_insertOrIgnore (t : Table key) (r : α) : ∃ q ∈ (t.insertOrIgnore r).rows, key q = key r := by
  rw [rows_insertOrIgnore]
  split
  · exact ⟨r, by simp, rfl⟩
  · rename_i h
    cases hg : t.get (key r) with
    | none => exact absurd hg h
    | some q => exact ⟨q, mem_of_get hg, key_of_get hg⟩

theorem get_update {t : Table key} {p : α → Bool} {f : α → α} {hf : ∀ q, key (f q) = key q} {k : κ} :
    (t.update p f hf).get k = (t.get k).map fun r => if p r then f r else r :=
  get_updateRows (t.rows_update p f hf) hf k

/-- An update of the rows with key `k₀` leaves the others alone. -/
theorem get_update_of_ne {t : Table key} {f : α → α} {hf : ∀ q, key (f q) = key q} {k k₀ : κ} (h : k ≠ k₀) :
    (t.update (key · = k₀) f hf).get k = t.get k := by
  rw [get_update]
  cases hg : t.get k with
  | none => rfl
  | some q =>
    have hq : key q ≠ k₀ := key_of_get hg ▸ h
    simp [hq]

theorem get_update_self {t : Table key} {f : α → α} {hf : ∀ q, key (f q) = key q} {k : κ} :
    (t.update (key · = k) f hf).get k = (t.get k).map f := by
  rw [get_update]
  cases hg : t.get k with
  | none => rfl
  | some q =>
    have hq : key q = k := key_of_get hg
    simp [hq]

/-- `INSERT … ON CONFLICT DO UPDATE SET f`. -/
def upsert (t : Table key) (r : α) (f : α → α) (hf : ∀ q, key (f q) = key q) : Table key :=
  if (t.get (key r)).isNone then t.insertOrIgnore r else t.update (key · = key r) f hf

theorem get_upsert_self {t : Table key} {r : α} {f : α → α} {hf : ∀ q, key (f q) = key q} :
    (t.upsert r f hf).get (key r) = some (((t.get (key r)).map f).getD r) := by
  unfold upsert
  cases hg : t.get (key r) with
  | none =>
    have hrows : (t.insertOrIgnore r).rows = t.rows ++ [r] := by rw [rows_insertOrIgnore, if_pos hg]
    simp [get_append hrows, hg]
  | some q => simp [get_update_self, hg]

theorem get_upsert_of_ne {t : Table key} {r : α} {f : α → α} {hf : ∀ q, key (f q) = key q} {k : κ} (h : k ≠ key r) :
    (t.upsert r f hf).get k = t.get k := by
  unfold upsert
  split
  · exact get_insertOrIgnore_of_ne h
  · exact get_update_of_ne h

/-- A row after an upsert is new, or what became of a row that was there. -/
theorem mem_upsert {t : Table key} {r q : α} {f : α → α} {hf : ∀ q, key (f q) = key q}
    (h : q ∈ (t.upsert r f hf).rows) : q = r ∨ ∃ q₀ ∈ t.rows, q = q₀ ∨ q = f q₀ := by
  unfold upsert at h
  split at h
  · rcases mem_insertOrIgnore h with hq | hq
    · exact .inr ⟨q, hq, .inl rfl⟩
    · exact .inl hq
  · obtain ⟨q₀, hq₀, he⟩ := mem_updateRows.1 h
    split at he
    · exact .inr ⟨q₀, hq₀, .inr he.symm⟩
    · exact .inr ⟨q₀, hq₀, .inl he.symm⟩

/-- An upsert that replaces the row with its key. -/
theorem mem_upsert_of_replace {t : Table key} {r q : α} {f : α → α} {hf : ∀ q, key (f q) = key q}
    (h : ∀ x, key x = key r → f x = r) : q ∈ (t.upsert r f hf).rows ↔ (q ∈ t.rows ∧ key q ≠ key r) ∨ q = r := by
  unfold upsert
  cases hg : t.get (key r) with
  | none =>
    have hfree := get_eq_none.1 hg
    rw [Option.isNone_none, if_pos rfl, rows_insertOrIgnore, if_pos hg, List.mem_append, List.mem_singleton]
    exact or_congr_left ⟨fun hq => ⟨hq, hfree q hq⟩, And.left⟩
  | some x =>
    rw [Option.isNone_some, if_neg Bool.false_ne_true, ← key_of_get hg, mem_update_key hf (mem_of_get hg),
      h x (key_of_get hg)]

theorem sumWhere_upsert_of_replace [AddCommGroup M] {t : Table key} {r : α} {f : α → α} {hf : ∀ q, key (f q) = key q}
    {c : α → Bool} {g : α → M} (h : ∀ x, key x = key r → f x = r) :
    sumWhere c g (t.upsert r f hf).rows =
      sumWhere c g t.rows - ((t.get (key r)).elim 0 fun x => if c x then g x else 0) + if c r then g r else 0 := by
  unfold upsert
  cases hg : t.get (key r) with
  | none =>
    rw [Option.isNone_none, if_pos rfl, rows_insertOrIgnore, if_pos hg, sumWhere_append, sumWhere_cons, sumWhere_nil]
    simp
  | some x =>
    have hx := key_of_get hg
    rw [Option.isNone_some, if_neg Bool.false_ne_true, ← hx, sumWhere_update_key hf (mem_of_get hg), h x hx]
    rfl

theorem mem_keys_upsert {t : Table key} {r : α} {f : α → α} {hf : ∀ q, key (f q) = key q} {k : κ} :
    k ∈ (t.upsert r f hf).rows.map key ↔ k = key r ∨ k ∈ t.rows.map key := by
  have hget : ∀ u : Table key, k ∈ u.rows.map key ↔ u.get k ≠ none := fun u => by
    rw [ne_eq, get_eq_none, List.mem_map]
    push Not
    rfl
  by_cases hk : k = key r
  · subst hk
    rw [hget, get_upsert_self]
    exact ⟨fun _ => .inl rfl, fun _ => nofun⟩
  · rw [hget, hget, get_upsert_of_ne hk]
    exact ⟨.inr, fun h => h.resolve_left hk⟩

end Table

/-! ## Numbered tables -/

structure SeqTable (id : α → ℕ) (key : α → κ) extends Table key where
  ids : rows.map id = List.range' 1 rows.length

namespace SeqTable

variable {id : α → ℕ} {key : α → κ}

def empty : SeqTable id key := ⟨Table.empty, rfl⟩

@[simp] theorem rows_empty : (empty : SeqTable id key).rows = [] := rfl

theorem eq_of_rows {t t' : SeqTable id key} (h : t.rows = t'.rows) : t = t' := by
  obtain ⟨⟨rows, hu⟩, hi⟩ := t
  obtain ⟨⟨rows', hu'⟩, hi'⟩ := t'
  obtain rfl : rows = rows' := h
  rfl

theorem ids_nodup (t : SeqTable id key) : (t.rows.map id).Nodup := t.ids ▸ List.nodup_range'

theorem eq_of_id (t : SeqTable id key) {r q : α} (hr : r ∈ t.rows) (hq : q ∈ t.rows) (h : id r = id q) : r = q :=
  List.inj_on_of_nodup_map t.ids_nodup hr hq h

def update (t : SeqTable id key) (p : α → Bool) (f : α → α) (hf : ∀ r, key (f r) = key r)
    (hi : ∀ r, id (f r) = id r) : SeqTable id key :=
  ⟨t.toTable.update p f hf, by simp only [Table.rows_update, map_updateRows hi, length_updateRows, t.ids]⟩

@[simp] theorem rows_update (t : SeqTable id key) (p : α → Bool) (f : α → α) (hf : ∀ r, key (f r) = key r)
    (hi : ∀ r, id (f r) = id r) : (t.update p f hf hi).rows = updateRows p f t.rows := rfl

/-- The row numbered `i`. -/
def byId (t : SeqTable id key) (i : ℕ) : Option α := t.rows.find? fun r => id r = i

theorem byId_eq_some {t : SeqTable id key} {i : ℕ} {r : α} : t.byId i = some r ↔ r ∈ t.rows ∧ id r = i :=
  find?_key_eq_some t.ids_nodup

variable [DecidableEq κ]

/-- `INSERT` of the row that the next number gives. -/
def insert? (t : SeqTable id key) (r : ℕ → α) (hid : ∀ i, id (r i) = i) : Option (SeqTable id key) :=
  match h : t.toTable.insert? (r (t.rows.length + 1)) with
  | none => none
  | some t' => some ⟨t', by
      rw [(Table.insert?_eq_some h).1, List.map_append, t.ids, List.length_append, List.length_singleton,
        List.range'_concat, List.map_singleton, hid, Nat.one_mul, Nat.add_comm 1]⟩

theorem insert?_eq_some {t t' : SeqTable id key} {r : ℕ → α} {hid : ∀ i, id (r i) = i}
    (h : t.insert? r hid = some t') :
    t'.rows = t.rows ++ [r (t.rows.length + 1)] ∧ ∀ q ∈ t.rows, key q ≠ key (r (t.rows.length + 1)) := by
  unfold insert? at h
  split at h
  · cases h
  · rename_i t'' ht
    obtain rfl := Option.some.inj h
    exact Table.insert?_eq_some ht

theorem insert?_of_get_none {t : SeqTable id key} {r : ℕ → α} {hid : ∀ i, id (r i) = i}
    (h : t.get (key (r (t.rows.length + 1))) = none) :
    ∃ t', t.insert? r hid = some t' ∧ t'.rows = t.rows ++ [r (t.rows.length + 1)] := by
  obtain ⟨t'', ht, hr⟩ := Table.insert?_of_get_none h
  unfold insert?
  split
  · rename_i hn
    rw [hn] at ht
    cases ht
  · rename_i t3 h3
    exact ⟨_, rfl, (Table.insert?_eq_some h3).1⟩

end SeqTable

end Transact
