import Mathlib.Data.List.Induction
import Mathlib.Data.List.Sort

/-!
# Grouping by a key

A dict of lists, filled by `setdefault(key, []).append(x)`: the groups stand in the order in which their keys appeared,
and each holds its elements in the order in which they came.

- `file`, `groups`: one element, and a whole list;
- `exists_groups`: the keys once each, and under each the elements that have it;
- `exists_sortedGroups`: the same, in the order of the keys.
-/

set_option autoImplicit false

namespace Transact

variable {α κ : Type} [DecidableEq κ] (key : α → κ)

/-- `d.setdefault(key(a), []).append(a)`. -/
def file (a : α) : List (κ × List α) → List (κ × List α)
  | [] => [(key a, [a])]
  | (k, g) :: rest => if k = key a then (k, g ++ [a]) :: rest else (k, g) :: file a rest

def groups (l : List α) : List (κ × List α) := l.foldl (fun d a => file key a d) []

theorem groups_concat (l : List α) (a : α) : groups key (l ++ [a]) = file key a (groups key l) := by
  rw [groups, List.foldl_append]
  rfl

/-- The elements filed under `k`. -/
def under (l : List α) (k : κ) : List α := l.filter fun a => key a = k

theorem mem_under {l : List α} {k : κ} {a : α} : a ∈ under key l k ↔ a ∈ l ∧ key a = k := by
  simp [under]

theorem under_concat (l : List α) (a : α) (k : κ) :
    under key (l ++ [a]) k = if k = key a then under key l k ++ [a] else under key l k := by
  rw [under, List.filter_append]
  by_cases h : k = key a
  · rw [if_pos h, under, List.filter_cons_of_pos (by simp [h]), List.filter_nil]
  · have h' : ¬ key a = k := fun he => h he.symm
    rw [if_neg h, under, List.filter_cons_of_neg (by simpa using h'), List.filter_nil, List.append_nil]

/-- Filing under a key that is there lengthens its group; another key gets a group of its own at the end. -/
theorem file_map (a : α) (f : κ → List α) {ks : List κ} (h : ks.Nodup) :
    file key a (ks.map fun k => (k, f k)) =
      if key a ∈ ks then ks.map fun k => (k, if k = key a then f k ++ [a] else f k)
      else ks.map (fun k => (k, f k)) ++ [(key a, [a])] := by
  induction ks with
  | nil => rfl
  | cons k ks ih =>
    obtain ⟨hk, hks⟩ := List.nodup_cons.1 h
    rw [List.map_cons, file]
    by_cases hka : k = key a
    · rw [if_pos hka, if_pos (by simp [hka]), List.map_cons, if_pos hka]
      congr 1
      refine List.map_congr_left fun j hj => ?_
      rw [if_neg fun hj' => hk (by rw [hka, ← hj']; exact hj)]
    · rw [if_neg hka, ih hks]
      by_cases hmem : key a ∈ ks
      · rw [if_pos hmem, if_pos (List.mem_cons_of_mem _ hmem), List.map_cons, if_neg hka]
      · have hno : key a ∉ k :: ks := by
          rw [List.mem_cons, not_or]
          exact ⟨fun he => hka he.symm, hmem⟩
        rw [if_neg hmem, if_neg hno]
        rfl

theorem exists_groups (l : List α) :
    ∃ ks : List κ, ks.Nodup ∧ (∀ k, k ∈ ks ↔ ∃ a ∈ l, key a = k) ∧
      groups key l = ks.map fun k => (k, under key l k) := by
  induction l using List.reverseRecOn with
  | nil => exact ⟨[], List.nodup_nil, by simp, rfl⟩
  | append_singleton l a ih =>
    obtain ⟨ks, hnd, hmem, heq⟩ := ih
    rw [groups_concat, heq, file_map key a _ hnd]
    by_cases ha : key a ∈ ks
    · refine ⟨ks, hnd, fun k => ?_, ?_⟩
      · rw [hmem k]
        constructor
        · rintro ⟨b, hb, rfl⟩
          exact ⟨b, List.mem_append_left _ hb, rfl⟩
        · rintro ⟨b, hb, rfl⟩
          rcases List.mem_append.1 hb with hb | hb
          · exact ⟨b, hb, rfl⟩
          · rw [List.mem_singleton.1 hb]
            exact (hmem _).1 ha
      · rw [if_pos ha]
        exact List.map_congr_left fun k _ => by rw [under_concat]
    · have hnone : under key l (key a) = [] := List.eq_nil_iff_forall_not_mem.2 fun b hb => by
        obtain ⟨hbl, hbk⟩ := (mem_under key).1 hb
        exact ha ((hmem _).2 ⟨b, hbl, hbk⟩)
      refine ⟨ks ++ [key a], ?_, fun k => ?_, ?_⟩
      · rw [List.nodup_append]
        exact ⟨hnd, List.nodup_singleton _, fun k hk j hj he => ha (by
          rw [List.mem_singleton] at hj
          rwa [← hj, ← he])⟩
      · rw [List.mem_append, hmem k, List.mem_singleton]
        constructor
        · rintro (⟨b, hb, rfl⟩ | rfl)
          · exact ⟨b, List.mem_append_left _ hb, rfl⟩
          · exact ⟨a, by simp, rfl⟩
        · rintro ⟨b, hb, rfl⟩
          rcases List.mem_append.1 hb with hb | hb
          · exact Or.inl ⟨b, hb, rfl⟩
          · exact Or.inr (by rw [List.mem_singleton.1 hb])
      · rw [if_neg ha, List.map_append, List.map_singleton, under_concat, if_pos rfl, hnone]
        congr 1
        refine List.map_congr_left fun k hk => ?_
        rw [under_concat, if_neg fun he : k = key a => ha (by rwa [← he])]

/-- The groups hold every element once. -/
theorem file_perm (a : α) (d : List (κ × List α)) : ((file key a d).flatMap (·.2)).Perm (a :: d.flatMap (·.2)) := by
  induction d with
  | nil => simp [file]
  | cons g d ih =>
    obtain ⟨k, g⟩ := g
    by_cases h : k = key a
    · rw [file, if_pos h, List.flatMap_cons, List.flatMap_cons, List.append_assoc]
      exact List.perm_middle
    · rw [file, if_neg h, List.flatMap_cons, List.flatMap_cons]
      exact (ih.append_left g).trans List.perm_middle

theorem groups_perm (l : List α) : ((groups key l).flatMap (·.2)).Perm l := by
  induction l using List.reverseRecOn with
  | nil => exact List.Perm.refl _
  | append_singleton l a ih =>
    rw [groups_concat]
    exact (file_perm key a _).trans ((ih.cons a).trans (List.perm_append_singleton a l).symm)

theorem key_of_mem_groups {l : List α} {g : κ × List α} (hg : g ∈ groups key l) : ∀ a ∈ g.2, key a = g.1 := by
  obtain ⟨ks, -, -, heq⟩ := exists_groups key l
  obtain ⟨k, -, rfl⟩ := List.mem_map.1 (heq ▸ hg)
  exact fun a ha => ((mem_under key).1 ha).2

section Sorted

variable [LinearOrder κ]

/-- `sorted(d.items())`. The keys are distinct, so that two groups are never compared. -/
def sortedGroups (l : List α) : List (κ × List α) := (groups key l).insertionSort fun a b => a.1 ≤ b.1

theorem exists_sortedGroups (l : List α) :
    ∃ ks : List κ, ks.Pairwise (· < ·) ∧ (∀ k, k ∈ ks ↔ ∃ a ∈ l, key a = k) ∧
      sortedGroups key l = ks.map fun k => (k, under key l k) := by
  obtain ⟨ks, hnd, hmem, heq⟩ := exists_groups key l
  let r : κ × List α → κ × List α → Prop := fun a b => a.1 ≤ b.1
  have htotal : Std.Total r := ⟨fun a b => le_total a.1 b.1⟩
  have htrans : IsTrans _ r := ⟨fun _ _ _ => le_trans⟩
  have hperm : (sortedGroups key l).Perm (ks.map fun k => (k, under key l k)) := by
    rw [← heq]
    exact List.perm_insertionSort r _
  have hkeys : ((sortedGroups key l).map Prod.fst).Perm ks := by
    have := hperm.map Prod.fst
    rwa [List.map_map, show (Prod.fst ∘ fun k => (k, under key l k)) = id from rfl, List.map_id] at this
  refine ⟨(sortedGroups key l).map Prod.fst, ?_, fun k => ?_, ?_⟩
  · have hle : ((sortedGroups key l).map Prod.fst).Pairwise (· ≤ ·) :=
      List.pairwise_map.2 (List.pairwise_insertionSort r _)
    have hne := hkeys.nodup_iff.2 hnd
    exact (hle.and hne).imp fun h => lt_of_le_of_ne h.1 h.2
  · rw [hkeys.mem_iff, hmem k]
  · rw [List.map_map]
    refine (List.map_id _).symm.trans (List.map_congr_left fun p hp => ?_)
    obtain ⟨k, -, rfl⟩ := List.mem_map.1 (hperm.mem_iff.1 hp)
    rfl

end Sorted

end Transact
