import Mathlib.Algebra.BigOperators.Group.List.Basic
import Mathlib.Data.List.Induction
import Mathlib.Order.Lattice

/-!
# Candles

A candle sums up a stretch of trading: first, highest, lowest and last price, and the volume.

- `Candle.join`: one stretch after another; it is associative (`join_assoc`);
- `candle? cs`: the candle of several stretches; candles of parts make up the candle of the whole
  (`candle?_append`, `candle?_filterMap`);
- `candle?_fields`: what it holds, field by field.
-/

set_option autoImplicit false

namespace Transact

/-- The largest so far, and one more. -/
theorem max?_concat {α : Type} [Max α] {xs : List α} {m : α} (h : xs.max? = some m) (x : α) :
    (xs ++ [x]).max? = some (max m x) := by
  cases xs with
  | nil => cases h
  | cons y ys =>
    rw [List.max?_cons', Option.some.injEq] at h
    rw [List.cons_append, List.max?_cons', List.foldl_concat, h]

theorem min?_concat {α : Type} [Min α] {xs : List α} {m : α} (h : xs.min? = some m) (x : α) :
    (xs ++ [x]).min? = some (min m x) := by
  cases xs with
  | nil => cases h
  | cons y ys =>
    rw [List.min?_cons', Option.some.injEq] at h
    rw [List.cons_append, List.min?_cons', List.foldl_concat, h]

structure Candle (α : Type) where
  first : α
  high : α
  low : α
  last : α
  volume : α
  deriving DecidableEq, Repr

variable {α : Type} [LinearOrder α] [AddMonoid α]

namespace Candle

/-- One trade. -/
def point (price volume : α) : Candle α := ⟨price, price, price, price, volume⟩

def join (a b : Candle α) : Candle α := ⟨a.first, max a.high b.high, min a.low b.low, b.last, a.volume + b.volume⟩

theorem join_assoc (a b c : Candle α) : (a.join b).join c = a.join (b.join c) := by
  simp only [join, max_assoc, min_assoc, add_assoc]

end Candle

def candle? : List (Candle α) → Option (Candle α)
  | [] => none
  | c :: cs => some (cs.foldl Candle.join c)

/-- Two stretches, one of which may be empty. -/
def joinOption (a b : Option (Candle α)) : Option (Candle α) :=
  match a, b with
  | none, b => b
  | a, none => a
  | some a, some b => some (a.join b)

@[simp] theorem joinOption_none_left (b : Option (Candle α)) : joinOption none b = b := by cases b <;> rfl

@[simp] theorem joinOption_none_right (a : Option (Candle α)) : joinOption a none = a := by cases a <;> rfl

theorem joinOption_assoc (a b c : Option (Candle α)) :
    joinOption (joinOption a b) c = joinOption a (joinOption b c) := by
  cases a <;> cases b <;> cases c <;> simp [joinOption, Candle.join_assoc]

theorem candle?_concat (cs : List (Candle α)) (c : Candle α) :
    candle? (cs ++ [c]) = joinOption (candle? cs) (some c) := by
  cases cs with
  | nil => rfl
  | cons d cs => rw [List.cons_append, candle?, List.foldl_concat, candle?, joinOption]

theorem candle?_append (cs ds : List (Candle α)) : candle? (cs ++ ds) = joinOption (candle? cs) (candle? ds) := by
  induction ds using List.reverseRecOn with
  | nil => rw [List.append_nil, candle?, joinOption_none_right]
  | append_singleton ds d ih => rw [← List.append_assoc, candle?_concat, ih, candle?_concat, joinOption_assoc]

/-- The candle of the candles of several parts. -/
theorem candle?_filterMap (parts : List (List (Candle α))) : candle? (parts.filterMap candle?) = candle? parts.flatten := by
  induction parts with
  | nil => rfl
  | cons p parts ih =>
    rw [List.flatten_cons, candle?_append, ← ih]
    cases hp : candle? p with
    | none => rw [List.filterMap_cons_none hp, joinOption_none_left]
    | some c => rw [List.filterMap_cons_some hp, ← List.singleton_append, candle?_append, candle?, List.foldl_nil]

theorem candle?_eq_none {cs : List (Candle α)} : candle? cs = none ↔ cs = [] := by
  cases cs <;> simp [candle?]

/-- First, highest, lowest and last price, and the sum of the volumes. -/
theorem candle?_fields {cs : List (Candle α)} {c : Candle α} (h : candle? cs = some c) :
    (cs.map Candle.first).head? = some c.first ∧ (cs.map Candle.high).max? = some c.high ∧
      (cs.map Candle.low).min? = some c.low ∧ (cs.map Candle.last).getLast? = some c.last ∧
      (cs.map Candle.volume).sum = c.volume := by
  induction cs using List.reverseRecOn generalizing c with
  | nil => cases h
  | append_singleton cs d ih =>
    rw [candle?_concat] at h
    simp only [List.map_append, List.map_singleton, List.getLast?_concat, List.sum_append, List.sum_singleton]
    cases hcs : candle? cs with
    | none =>
      obtain rfl := candle?_eq_none.1 hcs
      rw [hcs, joinOption_none_left, Option.some.injEq] at h
      subst h
      simp
    | some a =>
      rw [hcs, joinOption, Option.some.injEq] at h
      subst h
      obtain ⟨hfirst, hhigh, hlow, -, hvolume⟩ := ih hcs
      refine ⟨?_, max?_concat hhigh d.high, min?_concat hlow d.low, rfl, by rw [hvolume]; rfl⟩
      rw [List.head?_append, hfirst]
      rfl

end Transact
