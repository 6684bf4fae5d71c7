import Mathlib.Data.List.Forall2
import Mathlib.Data.List.Sort

/-!
# Sorted lists and their beginnings

A predicate that a list loses once and for all (`Closes`) cuts a beginning off it, and cutting commutes with the ways a
list is processed from its start.

- `lexBy`: an order by one key, then by another relation;
- `filter_insertionSort`: a stable sort commutes with dropping elements;
- `forall₂_insertionSort`: so does sorting related lists by keys that agree;
- `insertionSort_congr`: rows that the order tells apart are sorted the same wherever they stood;
- `getElem?_increasing`: increasing numbers that leave none out;
- `Closes.filter_takeWhile`, `Closes.filter_dropWhile`: so does splitting a list where a test first fails.
-/

set_option autoImplicit false

namespace Transact

variable {α β : Type}

/-! ## Orders by a key -/

/-- By the key `f` first, and by `r` among equal keys. -/
def lexBy [LT β] (f : α → β) (r : α → α → Prop) (a b : α) : Prop := f a < f b ∨ (f a = f b ∧ r a b)

instance [LT β] [DecidableEq β] [DecidableLT β] (f : α → β) (r : α → α → Prop) [DecidableRel r] :
    DecidableRel (lexBy f r) := fun a b => inferInstanceAs (Decidable (f a < f b ∨ (f a = f b ∧ r a b)))

theorem lexBy_total [LinearOrder β] (f : α → β) {r : α → α → Prop} (hr : ∀ a b, r a b ∨ r b a) (a b : α) :
    lexBy f r a b ∨ lexBy f r b a := by
  rcases lt_trichotomy (f a) (f b) with h | h | h
  · exact Or.inl (Or.inl h)
  · rcases hr a b with hab | hba
    · exact Or.inl (Or.inr ⟨h, hab⟩)
    · exact Or.inr (Or.inr ⟨h.symm, hba⟩)
  · exact Or.inr (Or.inl h)

theorem lexBy_trans [LinearOrder β] (f : α → β) {r : α → α → Prop} (hr : ∀ a b c, r a b → r b c → r a c) {a b c : α}
    (hab : lexBy f r a b) (hbc : lexBy f r b c) : lexBy f r a c := by
  rcases hab with hab | ⟨hab, rab⟩
  · rcases hbc with hbc | ⟨hbc, -⟩
    · exact Or.inl (hab.trans hbc)
    · exact Or.inl (hbc ▸ hab)
  · rcases hbc with hbc | ⟨hbc, rbc⟩
    · exact Or.inl (hab ▸ hbc)
    · exact Or.inr ⟨hab.trans hbc, hr a b c rab rbc⟩

theorem lexBy_both [LinearOrder β] {f : α → β} {r : α → α → Prop} {a b : α} (hab : lexBy f r a b)
    (hba : lexBy f r b a) : r a b ∧ r b a := by
  rcases hab with hab | ⟨heq, hab⟩
  · rcases hba with hba | ⟨hba, -⟩
    · exact absurd hba (lt_asymm hab)
    · exact absurd hab (hba ▸ lt_irrefl _)
  · rcases hba with hba | ⟨-, hba⟩
    · exact absurd hba (heq ▸ lt_irrefl _)
    · exact ⟨hab, hba⟩

/-! ## Sorting and filtering -/

section Filtering

variable {r : α → α → Prop} [DecidableRel r]

theorem filter_orderedInsert (htrans : ∀ a b c, r a b → r b c → r a c) (p : α → Bool) (a : α) {l : List α}
    (hl : l.Pairwise r) :
    (l.orderedInsert r a).filter p = if p a then (l.filter p).orderedInsert r a else l.filter p := by
  induction l with
  | nil => by_cases ha : p a <;> simp [ha]
  | cons b l ih =>
    obtain ⟨hb, hl⟩ := List.pairwise_cons.1 hl
    by_cases hab : r a b
    · rw [List.orderedInsert_cons_of_le r l hab]
      by_cases ha : p a
      · rw [List.filter_cons_of_pos ha, if_pos ha]
        -- everything that is left is above `a`
        cases hf : (b :: l).filter p with
        | nil => rfl
        | cons c cs =>
          have hc : c ∈ b :: l := (List.mem_filter.1 (hf ▸ List.mem_cons_self)).1
          have hac : r a c := by
            rcases List.mem_cons.1 hc with rfl | hc
            · exact hab
            · exact htrans a b c hab (hb c hc)
          rw [List.orderedInsert_cons_of_le r cs hac]
      · rw [List.filter_cons_of_neg ha, if_neg ha]
    · rw [List.orderedInsert, if_neg hab]
      by_cases hpb : p b
      · rw [List.filter_cons_of_pos hpb, List.filter_cons_of_pos hpb, ih hl]
        by_cases ha : p a
        · rw [if_pos ha, if_pos ha, List.orderedInsert, if_neg hab]
        · rw [if_neg ha, if_neg ha]
      · rw [List.filter_cons_of_neg hpb, List.filter_cons_of_neg hpb, ih hl]

theorem filter_insertionSort (htotal : ∀ a b, r a b ∨ r b a) (htrans : ∀ a b c, r a b → r b c → r a c) (p : α → Bool)
    (l : List α) : (l.insertionSort r).filter p = (l.filter p).insertionSort r := by
  have : Std.Total r := ⟨htotal⟩
  have : IsTrans α r := ⟨htrans⟩
  induction l with
  | nil => rfl
  | cons a l ih =>
    rw [List.insertionSort_cons, filter_orderedInsert htrans p a (List.pairwise_insertionSort r l), ih]
    by_cases ha : p a
    · rw [if_pos ha, List.filter_cons_of_pos ha, List.insertionSort_cons]
    · rw [if_neg ha, List.filter_cons_of_neg ha]

end Filtering

section Related

variable {R : α → β → Prop} {r : α → α → Prop} {s : β → β → Prop}

/-- The pairs with the places they come from. -/
theorem forall₂_mem {l : List α} {l' : List β} (h : List.Forall₂ R l l') :
    List.Forall₂ (fun a b => a ∈ l ∧ b ∈ l' ∧ R a b) l l' := by
  induction h with
  | nil => exact List.Forall₂.nil
  | cons hab _ ih =>
    refine List.Forall₂.cons ⟨List.mem_cons_self, List.mem_cons_self, hab⟩ (ih.imp fun a b hab => ?_)
    exact ⟨List.mem_cons_of_mem _ hab.1, List.mem_cons_of_mem _ hab.2.1, hab.2.2⟩

theorem forall₂_orderedInsert [DecidableRel r] [DecidableRel s]
    (hrel : ∀ a b a' b', R a b → R a' b' → (r a a' ↔ s b b')) {a : α} {b : β} (hab : R a b) {l : List α}
    {l' : List β} (h : List.Forall₂ R l l') :
    List.Forall₂ R (l.orderedInsert r a) (l'.orderedInsert s b) := by
  induction h with
  | nil => exact List.Forall₂.cons hab List.Forall₂.nil
  | @cons c d l l' hcd h ih =>
    rw [List.orderedInsert, List.orderedInsert]
    by_cases hle : r a c
    · rw [if_pos hle, if_pos ((hrel _ _ _ _ hab hcd).1 hle)]
      exact List.Forall₂.cons hab (List.Forall₂.cons hcd h)
    · rw [if_neg hle, if_neg fun hc => hle ((hrel _ _ _ _ hab hcd).2 hc)]
      exact List.Forall₂.cons hcd ih

theorem forall₂_insertionSort [DecidableRel r] [DecidableRel s]
    (hrel : ∀ a b a' b', R a b → R a' b' → (r a a' ↔ s b b')) {l : List α} {l' : List β}
    (h : List.Forall₂ R l l') : List.Forall₂ R (l.insertionSort r) (l'.insertionSort s) := by
  induction h with
  | nil => exact List.Forall₂.nil
  | cons hab _ ih =>
    rw [List.insertionSort_cons, List.insertionSort_cons]
    exact forall₂_orderedInsert hrel hab ih

end Related

/-- Two lists of the same elements, which the order tells apart, are the same when sorted. -/
theorem insertionSort_congr {r : α → α → Prop} [DecidableRel r] (htotal : ∀ a b, r a b ∨ r b a)
    (htrans : ∀ a b c, r a b → r b c → r a c) {l l' : List α} (hl : l.Nodup) (hl' : l'.Nodup)
    (hmem : ∀ a, a ∈ l ↔ a ∈ l') (hanti : ∀ a ∈ l, ∀ b ∈ l, r a b → r b a → a = b) :
    l.insertionSort r = l'.insertionSort r := by
  have : Std.Total r := ⟨htotal⟩
  have : IsTrans α r := ⟨htrans⟩
  have hperm : (l.insertionSort r).Perm (l'.insertionSort r) :=
    (List.perm_insertionSort r l).trans
      (((List.perm_ext_iff_of_nodup hl hl').2 hmem).trans (List.perm_insertionSort r l').symm)
  refine hperm.eq_of_pairwise ?_ (List.pairwise_insertionSort r l) (List.pairwise_insertionSort r l')
  intro a b ha hb
  exact hanti a ((List.perm_insertionSort r l).mem_iff.1 ha) b ((hmem b).2 ((List.perm_insertionSort r l').mem_iff.1 hb))

/-! ## Increasing numbers -/

/-- In an increasing list of numbers from `b` on, the `n`-th is `b + n` just when none before it is missing. -/
theorem getElem?_increasing {l : List ℕ} (hl : l.Pairwise (· < ·)) {b : ℕ} (hb : ∀ x ∈ l, b ≤ x) (n : ℕ) :
    l[n]? = some (b + n) ↔ ∀ j ≤ n, b + j ∈ l := by
  induction l generalizing b n with
  | nil =>
    simp only [List.getElem?_nil, List.not_mem_nil, reduceCtorEq, false_iff, not_forall]
    exact ⟨0, Nat.zero_le n, id⟩
  | cons x xs ih =>
    obtain ⟨hx, hxs⟩ := List.pairwise_cons.1 hl
    have hbx : b ≤ x := hb x List.mem_cons_self
    have hge : ∀ y ∈ xs, b + 1 ≤ y := fun y hy => by
      have := hx y hy
      omega
    -- `b` can only be the first element
    have hfirst : b ∈ x :: xs → x = b := fun hmem => by
      rcases List.mem_cons.1 hmem with rfl | hmem
      · rfl
      · have := hge b hmem
        omega
    cases n with
    | zero =>
      refine ⟨fun h j hj => ?_, fun h => ?_⟩
      · obtain rfl : j = 0 := by omega
        obtain rfl : x = b := by simpa using h
        exact List.mem_cons_self
      · simpa using hfirst (by simpa using h 0 le_rfl)
    | succ n =>
      rw [List.getElem?_cons_succ, show b + (n + 1) = (b + 1) + n by omega, ih hxs hge]
      refine ⟨fun h j hj => ?_, fun h j hj => ?_⟩
      · cases j with
        | zero =>
          have hnext := hx _ (h 0 (Nat.zero_le n))
          obtain rfl : x = b := by omega
          exact List.mem_cons_self
        | succ j =>
          rw [show b + (j + 1) = b + 1 + j by omega]
          exact List.mem_cons_of_mem x (h j (by omega))
      · have hmem := h (j + 1) (by omega)
        have hxb : x = b := hfirst (by simpa using h 0 (Nat.zero_le _))
        rw [show b + (j + 1) = b + 1 + j by omega] at hmem
        rcases List.mem_cons.1 hmem with heq | hmem
        · omega
        · exact hmem

/-! ## Beginnings of a list -/

/-- Once an element fails `p`, all the following do. -/
def Closes (p : α → Bool) (l : List α) : Prop := l.Pairwise fun x y => p y = true → p x = true

theorem closes_cons {p : α → Bool} {x : α} {l : List α} :
    Closes p (x :: l) ↔ (∀ y ∈ l, p y = true → p x = true) ∧ Closes p l := List.pairwise_cons

theorem Closes.sublist {p : α → Bool} {l l' : List α} (h : Closes p l) (hs : l'.Sublist l) : Closes p l' :=
  List.Pairwise.sublist hs h

theorem Closes.filter_nil {p : α → Bool} {x : α} {l : List α} (h : Closes p (x :: l)) (hx : ¬ p x = true) :
    l.filter p = [] :=
  List.filter_eq_nil_iff.2 fun y hy hpy => hx ((closes_cons.1 h).1 y hy hpy)

theorem Closes.filter_takeWhile {p : α → Bool} {l : List α} (h : Closes p l) (q : α → Bool) :
    (l.takeWhile q).filter p = (l.filter p).takeWhile q := by
  induction l with
  | nil => rfl
  | cons x l ih =>
    by_cases hx : p x
    · rw [List.filter_cons_of_pos hx]
      by_cases hq : q x
      · rw [List.takeWhile_cons_of_pos hq, List.filter_cons_of_pos hx, List.takeWhile_cons_of_pos hq,
          ih (closes_cons.1 h).2]
      · rw [List.takeWhile_cons_of_neg hq, List.takeWhile_cons_of_neg hq, List.filter_nil]
    · rw [List.filter_cons_of_neg hx, h.filter_nil hx, List.takeWhile_nil]
      refine List.filter_eq_nil_iff.2 fun y hy hpy => ?_
      rcases List.mem_cons.1 ((List.takeWhile_sublist q).subset hy) with rfl | hy
      · exact hx hpy
      · exact hx ((closes_cons.1 h).1 y hy hpy)

theorem Closes.filter_dropWhile {p : α → Bool} {l : List α} (h : Closes p l) (q : α → Bool) :
    (l.dropWhile q).filter p = (l.filter p).dropWhile q := by
  induction l with
  | nil => rfl
  | cons x l ih =>
    by_cases hx : p x
    · rw [List.filter_cons_of_pos hx]
      by_cases hq : q x
      · rw [List.dropWhile_cons_of_pos hq, List.dropWhile_cons_of_pos hq, ih (closes_cons.1 h).2]
      · rw [List.dropWhile_cons_of_neg hq, List.dropWhile_cons_of_neg hq, List.filter_cons_of_pos hx]
    · rw [List.filter_cons_of_neg hx, h.filter_nil hx, List.dropWhile_nil]
      refine List.filter_eq_nil_iff.2 fun y hy hpy => ?_
      rcases List.mem_cons.1 ((List.dropWhile_sublist q).subset hy) with rfl | hy
      · exact hx hpy
      · exact hx ((closes_cons.1 h).1 y hy hpy)

/-- The beginning and the rest. -/
theorem Closes.filter_append {p : α → Bool} {l : List α} (h : Closes p l) :
    l.filter p ++ l.filter (!p ·) = l := by
  induction l with
  | nil => rfl
  | cons x l ih =>
    by_cases hx : p x
    · rw [List.filter_cons_of_pos hx, List.filter_cons_of_neg (by simpa using hx), List.cons_append,
        ih (closes_cons.1 h).2]
    · rw [List.filter_cons_of_neg hx, h.filter_nil hx, List.nil_append]
      refine List.filter_eq_self.2 fun y hy => ?_
      rcases List.mem_cons.1 hy with rfl | hy
      · simpa using hx
      · have hpy : ¬ p y = true := fun hpy => hx ((closes_cons.1 h).1 y hy hpy)
        simpa using hpy

/-- The first `n` of the elements with `p` and the ones without: the latter are told by the number of the former. -/
theorem take_append_inj {p : α → Bool} {l l' m : List α} (hl : ∀ x ∈ l, p x = true) (hl' : ∀ x ∈ l', p x = true)
    (hm : ∀ x ∈ m, p x = false) (n : ℕ) : (l ++ m).take n = (l' ++ m).take n ↔ l.take n = l'.take n := by
  have hfilter : ∀ k : List α, (∀ x ∈ k, p x = true) → ((k ++ m).take n).filter p = k.take n := fun k hk => by
    rw [List.take_append, List.filter_append, List.filter_eq_self.2 fun x hx => hk x (List.mem_of_mem_take hx),
      List.filter_eq_nil_iff.2 fun x hx => by simp [hm x (List.mem_of_mem_take hx)], List.append_nil]
  refine ⟨fun h => ?_, fun h => ?_⟩
  · rw [← hfilter l hl, h, hfilter l' hl']
  · have hlen := congrArg List.length h
    rw [List.length_take, List.length_take] at hlen
    rw [List.take_append, List.take_append, h, show n - l.length = n - l'.length by omega]

end Transact
