import Mathlib.Data.Int.Order.Basic
import Mathlib.Data.List.Chain
import Mathlib.Data.List.Nodup
import Mathlib.Tactic.Linarith

/-!
# Runs of one key, and steady walks

- `runHeads key xs`: the first element of every run of `xs` with one key; its last two keys are the last two that are
  different (`getLast?_runHeads`, `getLast?_dropLast_runHeads`);
- `runKeys key xs`: the keys of these runs; where keys never fall, they rise (`pairwise_runKeys`)
  and the runs make up the list (`flatten_runs`);
- `Steady ys`: the integers go up one by one, or down one by one; a walk in steps of one that never comes back is steady
  (`Steady.concat`).
-/

set_option autoImplicit false

namespace Transact

section Runs

variable {α κ : Type} [DecidableEq κ] (key : α → κ)

/-- An element with the key of the last one belongs to its run. -/
def addToRuns (rs : List α) (x : α) : List α := if rs.getLast?.map key = some (key x) then rs else rs ++ [x]

def runHeads (xs : List α) : List α := xs.foldl (addToRuns key) []

theorem runHeads_concat (xs : List α) (x : α) : runHeads key (xs ++ [x]) = addToRuns key (runHeads key xs) x :=
  List.foldl_concat ..

variable {key}

theorem mem_of_mem_runHeads {xs : List α} {x : α} (h : x ∈ runHeads key xs) : x ∈ xs := by
  induction xs using List.reverseRecOn with
  | nil => cases h
  | append_singleton xs y ih =>
    rw [runHeads_concat, addToRuns] at h
    split at h
    · exact List.mem_append_left _ (ih h)
    · rcases List.mem_append.1 h with h | h
      · exact List.mem_append_left _ (ih h)
      · exact List.mem_append_right _ h

/-- The last run has the last key. -/
theorem getLast?_runHeads (xs : List α) : (runHeads key xs).getLast?.map key = xs.getLast?.map key := by
  induction xs using List.reverseRecOn with
  | nil => rfl
  | append_singleton xs x ih =>
    rw [runHeads_concat, addToRuns, List.getLast?_concat]
    split
    · rename_i h
      exact h
    · rw [List.getLast?_concat]

/-- The run before it has the last key that is another one. -/
theorem getLast?_dropLast_runHeads {xs : List α} {y : κ} (h : xs.getLast?.map key = some y) :
    (runHeads key xs).dropLast.getLast?.map key = (xs.filter (key · ≠ y)).getLast?.map key := by
  induction xs using List.reverseRecOn with
  | nil => cases h
  | append_singleton xs x ih =>
    rw [List.getLast?_concat, Option.map_some, Option.some.injEq] at h
    subst h
    rw [runHeads_concat, addToRuns, List.filter_append, List.filter_singleton]
    simp only [ne_eq, not_true_eq_false, decide_false, cond_false, List.append_nil]
    by_cases hlast : (runHeads key xs).getLast?.map key = some (key x)
    · rw [if_pos hlast]
      exact ih ((getLast?_runHeads xs).symm.trans hlast)
    · rw [if_neg hlast, List.dropLast_concat, getLast?_runHeads]
      cases xs using List.reverseRecOn with
      | nil => rfl
      | append_singleton xs z =>
        have hz : key z ≠ key x := fun he => hlast (by rw [getLast?_runHeads, List.getLast?_concat, Option.map_some, he])
        simp [hz]

/-- The keys of the runs, in order. -/
def runKeys (key : α → κ) (xs : List α) : List κ := (runHeads key xs).map key

theorem getLast?_runKeys (xs : List α) : (runKeys key xs).getLast? = xs.getLast?.map key := by
  rw [runKeys, List.getLast?_map, getLast?_runHeads]

theorem runKeys_concat (xs : List α) (x : α) :
    runKeys key (xs ++ [x]) = if xs.getLast?.map key = some (key x) then runKeys key xs else runKeys key xs ++ [key x] := by
  rw [runKeys, runHeads_concat, addToRuns, getLast?_runHeads]
  split
  · rfl
  · rw [List.map_append]
    rfl

theorem mem_runKeys {xs : List α} {k : κ} : k ∈ runKeys key xs ↔ k ∈ xs.map key := by
  induction xs using List.reverseRecOn with
  | nil => rfl
  | append_singleton xs x ih =>
    rw [runKeys_concat, List.map_append, List.mem_append, List.map_singleton, List.mem_singleton, ← ih]
    split
    · rename_i hlast
      refine ⟨.inl, fun h => h.elim id ?_⟩
      rintro rfl
      exact List.mem_of_getLast? ((getLast?_runKeys xs).trans hlast)
    · rw [List.mem_append, List.mem_singleton]

end Runs

/-- The last of numbers that never fall is the largest. -/
theorem le_getLast_of_sorted {κ : Type} [Preorder κ] {xs : List κ} {last x : κ} (h : xs.Pairwise (· ≤ ·))
    (hlast : xs.getLast? = some last) (hx : x ∈ xs) : x ≤ last := by
  rcases List.eq_nil_or_concat xs with rfl | ⟨l, y, rfl⟩
  · cases hx
  rw [List.concat_eq_append] at h hlast hx
  rw [List.getLast?_concat, Option.some.injEq] at hlast
  subst hlast
  rcases List.mem_append.1 hx with hx | hx
  · exact (List.pairwise_append.1 h).2.2 x hx y (List.mem_singleton.2 rfl)
  · exact (List.mem_singleton.1 hx).le

/-- Keys that never fall: the runs have rising keys. -/
theorem pairwise_runKeys {α κ : Type} [LinearOrder κ] {key : α → κ} {xs : List α}
    (h : (xs.map key).Pairwise (· ≤ ·)) : (runKeys key xs).Pairwise (· < ·) := by
  induction xs using List.reverseRecOn with
  | nil => exact List.Pairwise.nil
  | append_singleton xs x ih =>
    rw [List.map_append, List.pairwise_append] at h
    obtain ⟨hxs, -, hle⟩ := h
    rw [runKeys_concat]
    split
    · exact ih hxs
    · rename_i hlast
      refine List.pairwise_append.2 ⟨ih hxs, List.pairwise_singleton .., fun k hk k' hk' => ?_⟩
      obtain rfl := List.mem_singleton.1 hk'
      refine lt_of_le_of_ne (hle k (mem_runKeys.1 hk) (key x) (List.mem_singleton.2 rfl)) ?_
      -- a key as large as that of `x` would be the last one
      rintro rfl
      obtain ⟨y, hy⟩ := Option.isSome_iff_exists.1
        (List.getLast?_isSome.2 (List.ne_nil_of_mem (mem_runKeys.1 hk)))
      have hyx : y ≤ key x := hle y (List.mem_of_getLast? hy) (key x) (List.mem_singleton.2 rfl)
      have hxy : key x ≤ y := le_getLast_of_sorted hxs hy (mem_runKeys.1 hk)
      refine hlast ?_
      rw [← List.getLast?_map, hy, le_antisymm hyx hxy]

/-- Keys that never fall: the runs, one after another, are the list. -/
theorem flatten_runs {α κ : Type} [LinearOrder κ] {key : α → κ} {xs : List α} (h : (xs.map key).Pairwise (· ≤ ·)) :
    ((runKeys key xs).map fun k => xs.filter (key · = k)).flatten = xs := by
  induction xs using List.reverseRecOn with
  | nil => rfl
  | append_singleton xs x ih =>
    have hrise := pairwise_runKeys h
    rw [List.map_append, List.pairwise_append] at h
    obtain ⟨hxs, -, hle⟩ := h
    have hother {k : κ} (hk : k ≠ key x) : (xs ++ [x]).filter (key · = k) = xs.filter (key · = k) := by
      simp [Ne.symm hk]
    have hown : (xs ++ [x]).filter (key · = key x) = xs.filter (key · = key x) ++ [x] := by simp
    rw [runKeys_concat] at hrise ⊢
    by_cases hlast : xs.getLast?.map key = some (key x)
    · rw [if_pos hlast] at hrise ⊢
      have hsplit := List.dropLast_append_getLast? _ ((getLast?_runKeys xs).trans hlast)
      rw [← hsplit, List.pairwise_append] at hrise
      have hfront : ((runKeys key xs).dropLast.map fun k => (xs ++ [x]).filter (key · = k)) =
          (runKeys key xs).dropLast.map fun k => xs.filter (key · = k) :=
        List.map_congr_left fun k hk => hother (hrise.2.2 k hk _ (List.mem_singleton.2 rfl)).ne
      have hall := ih hxs
      rw [← hsplit, List.map_append, List.flatten_append, List.map_singleton, List.flatten_singleton] at hall
      rw [← hsplit, List.map_append, List.flatten_append, List.map_singleton, List.flatten_singleton, hfront, hown,
        ← List.append_assoc, hall]
    · rw [if_neg hlast] at hrise ⊢
      rw [List.pairwise_append] at hrise
      have hfront : ((runKeys key xs).map fun k => (xs ++ [x]).filter (key · = k)) =
          (runKeys key xs).map fun k => xs.filter (key · = k) :=
        List.map_congr_left fun k hk => hother (hrise.2.2 k hk _ (List.mem_singleton.2 rfl)).ne
      have hnew : xs.filter (key · = key x) = [] := by
        refine List.filter_eq_nil_iff.2 fun y hy hyx => ?_
        have hmem : key x ∈ runKeys key xs := mem_runKeys.2 (List.mem_map.2 ⟨y, hy, of_decide_eq_true hyx⟩)
        exact lt_irrefl _ (hrise.2.2 _ hmem _ (List.mem_singleton.2 rfl))
      rw [List.map_append, List.flatten_append, List.map_singleton, List.flatten_singleton, hfront, ih hxs, hown, hnew,
        List.nil_append]

/-- Rising lists with the same members are the same. -/
theorem eq_of_rising {κ : Type} [LinearOrder κ] {xs ys : List κ} (hx : xs.Pairwise (· < ·)) (hy : ys.Pairwise (· < ·))
    (h : ∀ k, k ∈ xs ↔ k ∈ ys) : xs = ys := by
  have hperm : xs.Perm ys := (List.perm_ext_iff_of_nodup (hx.imp fun h => h.ne) (hy.imp fun h => h.ne)).2 h
  exact hperm.eq_of_pairwise (fun a b _ _ hab hba => absurd hab hba.asymm) hx hy

/-- Either all elements are of a kind, or there is a first one that is not. -/
theorem forall_or_first_not {α : Type} (p : α → Prop) (xs : List α) :
    (∀ x ∈ xs, p x) ∨ ∃ l x r, xs = l ++ x :: r ∧ (∀ y ∈ l, p y) ∧ ¬ p x := by
  induction xs with
  | nil => exact .inl nofun
  | cons x xs ih =>
    by_cases hx : p x
    · rcases ih with hall | ⟨l, y, r, rfl, hl, hy⟩
      · exact .inl (List.forall_mem_cons.2 ⟨hx, hall⟩)
      · exact .inr ⟨x :: l, y, r, rfl, List.forall_mem_cons.2 ⟨hx, hl⟩, hy⟩
    · exact .inr ⟨[], x, xs, rfl, nofun, hx⟩

/-! ## Steady walks -/

def Up (a b : ℤ) : Prop := b = a + 1

def Down (a b : ℤ) : Prop := a = b + 1

/-- Up one by one, or down one by one. -/
def Steady (ys : List ℤ) : Prop := ys.IsChain Up ∨ ys.IsChain Down

/-- One apart. -/
def Adjacent (a b : ℤ) : Prop := Up a b ∨ Down a b

theorem isChain_concat {R : ℤ → ℤ → Prop} {ys : List ℤ} {a b : ℤ} :
    (ys ++ [a] ++ [b]).IsChain R ↔ (ys ++ [a]).IsChain R ∧ R a b := by
  rw [List.isChain_append]
  simp

theorem Steady.nodup {ys : List ℤ} (h : Steady ys) : ys.Nodup := by
  rcases h with h | h
  · have hlt : ys.IsChain (· < ·) := h.imp fun a b hab => by unfold Up at hab; omega
    exact hlt.pairwise.imp fun hab => ne_of_lt hab
  · have hgt : ys.IsChain (· > ·) := h.imp fun a b hab => by unfold Down at hab; omega
    exact hgt.pairwise.imp fun hab => ne_of_gt hab

theorem Steady.adjacent {ys : List ℤ} {a b : ℤ} (h : Steady (ys ++ [a] ++ [b])) : Adjacent a b := by
  rcases h with h | h
  · exact .inl (isChain_concat.1 h).2
  · exact .inr (isChain_concat.1 h).2

/-- A walk in steps of one that never comes back keeps its direction. -/
theorem Steady.concat {ys : List ℤ} {b : ℤ} (h : Steady ys) (hnodup : (ys ++ [b]).Nodup)
    (hadj : ∀ a, ys.getLast? = some a → Adjacent a b) : Steady (ys ++ [b]) := by
  cases ys using List.reverseRecOn with
  | nil => exact .inl (List.isChain_singleton b)
  | append_singleton ys a =>
    have hab := hadj a List.getLast?_concat
    cases ys using List.reverseRecOn with
    | nil =>
      rcases hab with hab | hab
      · exact .inl (List.isChain_pair.2 hab)
      · exact .inr (List.isChain_pair.2 hab)
    | append_singleton ys c =>
      have hcb : c ≠ b := fun he => by simp [he, List.nodup_append] at hnodup
      rcases h with h | h
      · have hca : Up c a := (isChain_concat.1 h).2
        refine .inl (isChain_concat.2 ⟨h, hab.resolve_right fun hdown => hcb ?_⟩)
        unfold Up at hca
        unfold Down at hdown
        omega
      · have hca : Down c a := (isChain_concat.1 h).2
        refine .inr (isChain_concat.2 ⟨h, hab.resolve_left fun hup => hcb ?_⟩)
        unfold Down at hca
        unfold Up at hup
        omega

end Transact
