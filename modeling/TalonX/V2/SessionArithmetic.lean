import Mathlib.Data.List.Count
import TalonX.V2.Calendar

/-!
# Laws of session arithmetic

The ordinals, the scan of `sessionsBetween` and the list index of `addSessions` agree, as long as the index stays in the
list. An index below zero is not checked by the source: down to minus the length of the list it counts from the end.

- `countP_le_eq`: in an ascending list the elements up to the `j`-th are `j + 1`;
- `addSessions_eq_some`, `sessionsBetween_eq`, `tradingDaysElapsed_eq`: the three functions in terms of positions;
- `Wraps`: the index is negative and within the list from its end;
- `session_laws_iff`: the laws hold exactly where nothing wraps.
-/

set_option autoImplicit false

namespace TalonX.V2

/-! ## Ascending lists -/

theorem countP_le_eq {l : List ℕ} (hl : l.Pairwise (· < ·)) {j t : ℕ} (h : l[j]? = some t) :
    l.countP (· ≤ t) = j + 1 := by
  induction l generalizing j with
  | nil => cases h
  | cons x l ih =>
    obtain ⟨hx, hl⟩ := List.pairwise_cons.1 hl
    cases j with
    | zero =>
      obtain rfl : x = t := by simpa using h
      have hnone : l.countP (· ≤ x) = 0 := List.countP_eq_zero.2 fun y hy => by
        have := hx y hy
        simp only [decide_eq_true_eq]
        omega
      rw [List.countP_cons_of_pos (by simp), hnone]
    | succ j =>
      have hlt : x < t := hx t (List.mem_of_getElem? (by simpa using h))
      rw [List.countP_cons_of_pos (by simpa using Nat.le_of_lt hlt), ih hl (by simpa using h)]

/-- The elements up to `t` are those up to `s` and those after it. -/
theorem countP_between {s t : ℕ} (h : s ≤ t) (l : List ℕ) :
    l.countP (· ≤ s) + l.countP (fun x => s < x && x ≤ t) = l.countP (· ≤ t) := by
  induction l with
  | nil => rfl
  | cons x l ih =>
    simp only [List.countP_cons, Bool.and_eq_true, decide_eq_true_eq] at ih ⊢
    split_ifs <;> omega

namespace Calendar

variable {cal : Calendar}

/-! ## Positions -/

theorem idxOf_of_getElem {j : ℕ} {t : Date} (h : cal.sessions[j]? = some t) : cal.sessions.idxOf? t = some j := by
  obtain ⟨m, hm, hget⟩ := idxOf_of_mem (List.mem_of_getElem? h)
  have hmj := le_of_sessions_le hget h le_rfl
  have hjm := le_of_sessions_le h hget le_rfl
  rwa [le_antisymm hmj hjm] at hm

theorem getElem_of_idxOf {i : ℕ} {s : Date} (h : cal.sessions.idxOf? s = some i) : cal.sessions[i]? = some s := by
  obtain ⟨hlt, hget, -⟩ := List.idxOf?_eq_some_iff.1 h
  exact List.getElem?_eq_some_iff.2 ⟨hlt, hget⟩

theorem addSessions_eq {i : ℕ} {s : Date} (hi : cal.sessions.idxOf? s = some i) (n : ℤ) :
    cal.addSessions s n =
      if (cal.sessions.length : ℤ) ≤ i + n then none else getItem cal.sessions (i + n) := by
  rw [addSessions, hi]
  rfl

/-- At an index from zero on, the session at that index. -/
theorem addSessions_eq_some {i : ℕ} {s t : Date} {n : ℤ} (hi : cal.sessions.idxOf? s = some i) (h0 : 0 ≤ (i : ℤ) + n) :
    cal.addSessions s n = some t ↔ ∃ j : ℕ, (j : ℤ) = i + n ∧ cal.sessions[j]? = some t := by
  rw [addSessions_eq hi]
  obtain ⟨j, hj⟩ := Int.eq_ofNat_of_zero_le h0
  rw [hj]
  constructor
  · intro h
    split at h
    · cases h
    · rw [getItem, if_pos (by omega)] at h
      exact ⟨j, rfl, by simpa using h⟩
  · rintro ⟨k, hk, hget⟩
    obtain rfl : k = j := by omega
    have hlt : k < cal.sessions.length := (List.getElem?_eq_some_iff.1 hget).1
    rw [if_neg (by omega), getItem, if_pos (by omega)]
    simpa using hget

/-- The scan counts positions. -/
theorem sessionsBetween_eq {i j : ℕ} {s t : Date} (hi : cal.sessions[i]? = some s) (hj : cal.sessions[j]? = some t)
    (h : i ≤ j) : cal.sessionsBetween s t = j - i := by
  have hst := sessions_le_of_le hi hj h
  unfold sessionsBetween
  split
  · next hts =>
    have hji := le_of_sessions_le hj hi hts
    omega
  · have hadd := countP_between hst cal.sessions
    rw [countP_le_eq cal.sorted hi, countP_le_eq cal.sorted hj] at hadd
    have hsub : ∀ c, i + 1 + c = j + 1 → c = j - i := fun c hc => by omega
    exact hsub _ hadd

/-- The ordinals count positions. -/
theorem tradingDaysElapsed_eq {i j : ℕ} {s t : Date} (hi : cal.sessions[i]? = some s) (hj : cal.sessions[j]? = some t)
    (h : i ≤ j) : cal.tradingDaysElapsed s t = some (j - i) := by
  have hst := sessions_le_of_le hi hj h
  have hsi : cal.sessionOrdinal s true = some i := by rw [sessionOrdinal, idxOf_of_getElem hi]
  have htj : cal.sessionOrdinal t false = some j := by rw [sessionOrdinal, idxOf_of_getElem hj]
  rw [tradingDaysElapsed, if_neg (not_lt.2 hst), hsi, htj]

/-- Sessions are strictly ordered as their positions. -/
theorem sessions_lt_of_lt {i j : ℕ} {s t : Date} (hi : cal.sessions[i]? = some s) (hj : cal.sessions[j]? = some t)
    (h : i < j) : s < t := by
  obtain ⟨hil, rfl⟩ := List.getElem?_eq_some_iff.1 hi
  obtain ⟨hjl, rfl⟩ := List.getElem?_eq_some_iff.1 hj
  exact List.pairwise_iff_getElem.1 cal.sorted i j hil hjl h

/-! ## The laws -/

/-- The index of `n` sessions after `s` is negative, and `sess[j]` counts from the end. -/
def Wraps (cal : Calendar) (s : Date) (n : ℤ) : Prop :=
  ∃ i : ℕ, cal.sessionOrdinal s true = some i ∧ (i : ℤ) + n < 0 ∧ -(cal.sessions.length : ℤ) ≤ i + n

/-- What is said of one shift: counted alike by both functions, undone by the opposite shift, and refused before the
first session. -/
structure ShiftLaws (cal : Calendar) (s : Date) (n : ℤ) : Prop where
  counts : ∀ t, 0 ≤ n → cal.addSessions s n = some t →
    (cal.sessionsBetween s t : ℤ) = n ∧ cal.tradingDaysElapsed s t = some n.toNat
  undone : ∀ t, cal.addSessions s n = some t → cal.addSessions t (-n) = some s
  refused : ∀ i : ℕ, cal.sessionOrdinal s true = some i → (i : ℤ) + n < 0 → cal.addSessions s n = none

theorem sessionOrdinal_of_idxOf {i : ℕ} {s : Date} (h : cal.sessions.idxOf? s = some i) (anchorForward : Bool) :
    cal.sessionOrdinal s anchorForward = some i := by rw [sessionOrdinal, h]

/-- A shift that does not wrap and returns has an index in the list. -/
theorem index_of_not_wraps {i : ℕ} {s t : Date} {n : ℤ} (hi : cal.sessions.idxOf? s = some i) (hw : ¬ cal.Wraps s n)
    (h : cal.addSessions s n = some t) : ∃ j : ℕ, (j : ℤ) = i + n ∧ cal.sessions[j]? = some t := by
  by_cases h0 : 0 ≤ (i : ℤ) + n
  · exact (addSessions_eq_some hi h0).1 h
  · have hlow : ¬ -(cal.sessions.length : ℤ) ≤ i + n := fun hle =>
      hw ⟨i, sessionOrdinal_of_idxOf hi true, by omega, hle⟩
    rw [addSessions_eq hi, if_neg (by omega), getItem, if_neg h0, if_neg hlow] at h
    cases h

theorem shiftLaws_of_not_wraps {s : Date} {n : ℤ} (hs : s ∈ cal.sessions) (hw : ¬ cal.Wraps s n) :
    cal.ShiftLaws s n := by
  obtain ⟨i, hi, hget⟩ := idxOf_of_mem hs
  refine ⟨fun t hn h => ?_, fun t h => ?_, fun k hk hneg => ?_⟩
  · obtain ⟨j, hj, htj⟩ := index_of_not_wraps hi hw h
    have hij : i ≤ j := by omega
    have hsub : ((j - i : ℕ) : ℤ) = n := by omega
    refine ⟨?_, ?_⟩
    · rw [sessionsBetween_eq hget htj hij, hsub]
    · rw [tradingDaysElapsed_eq hget htj hij, ← hsub, Int.toNat_natCast]
  · obtain ⟨j, hj, htj⟩ := index_of_not_wraps hi hw h
    exact (addSessions_eq_some (idxOf_of_getElem htj) (by omega)).2 ⟨i, by omega, hget⟩
  · obtain rfl : i = k := Option.some.inj ((sessionOrdinal_of_idxOf hi true).symm.trans hk)
    cases h : cal.addSessions s n with
    | none => rfl
    | some t =>
      obtain ⟨j, hj, -⟩ := index_of_not_wraps hi hw h
      omega

/-- A wrapped shift returns a session, counted from the end. -/
theorem not_shiftLaws_of_wraps {s : Date} {n : ℤ} (hs : s ∈ cal.sessions) (hw : cal.Wraps s n) :
    ¬ cal.ShiftLaws s n := by
  intro hlaws
  obtain ⟨i, hi, hneg, hlow⟩ := hw
  have hnone := hlaws.refused i hi hneg
  obtain ⟨k, hk, -⟩ := idxOf_of_mem hs
  obtain rfl : k = i := Option.some.inj ((sessionOrdinal_of_idxOf hk true).symm.trans hi)
  have hlen : (cal.sessions.length + ((k : ℤ) + n)).toNat < cal.sessions.length := by omega
  rw [addSessions_eq hk, if_neg (by omega), getItem, if_neg (by omega), if_pos hlow,
    List.getElem?_eq_getElem hlen] at hnone
  cases hnone

/-- Shifts that do not wrap are strictly monotone. -/
theorem addSessions_strictMono {s t u : Date} {m n : ℤ} (hs : s ∈ cal.sessions) (hm : ¬ cal.Wraps s m)
    (hn : ¬ cal.Wraps s n) (hmn : m < n) (ht : cal.addSessions s m = some t) (hu : cal.addSessions s n = some u) :
    t < u := by
  obtain ⟨i, hi, -⟩ := idxOf_of_mem hs
  obtain ⟨j, hj, htj⟩ := index_of_not_wraps hi hm ht
  obtain ⟨k, hk, huk⟩ := index_of_not_wraps hi hn hu
  exact sessions_lt_of_lt htj huk (by omega)

/-- The laws of two shifts of a session, exactly where neither wraps. -/
theorem session_laws_iff {s : Date} (hs : s ∈ cal.sessions) (m n : ℤ) :
    (cal.ShiftLaws s m ∧ cal.ShiftLaws s n ∧
        (m < n → ∀ t u, cal.addSessions s m = some t → cal.addSessions s n = some u → t < u)) ↔
      ¬ cal.Wraps s m ∧ ¬ cal.Wraps s n := by
  constructor
  · rintro ⟨hm, hn, -⟩
    exact ⟨fun hw => not_shiftLaws_of_wraps hs hw hm, fun hw => not_shiftLaws_of_wraps hs hw hn⟩
  · rintro ⟨hm, hn⟩
    exact ⟨shiftLaws_of_not_wraps hs hm, shiftLaws_of_not_wraps hs hn, fun hmn t u ht hu =>
      addSessions_strictMono hs hm hn hmn ht hu⟩

/-- From a Tuesday two sessions forward and one back. -/
theorem session_laws_tuesday :
    1 ∈ (weekdays 8).sessions ∧ (weekdays 8).ShiftLaws 1 (-1) ∧ (weekdays 8).ShiftLaws 1 2 := by
  have hs : 1 ∈ (weekdays 8).sessions := by decide
  have hordinal : (weekdays 8).sessionOrdinal 1 true = some 1 := by decide
  have hw : ∀ n : ℤ, -1 ≤ n → ¬ (weekdays 8).Wraps 1 n := by
    rintro n hn ⟨i, hi, hneg, -⟩
    obtain rfl : 1 = i := Option.some.inj (hordinal.symm.trans hi)
    omega
  have hlaws := (session_laws_iff hs (-1) 2).2 ⟨hw _ (by omega), hw _ (by omega)⟩
  exact ⟨hs, hlaws.1, hlaws.2.1⟩

/-- One session before the first is the last session of the list. -/
theorem before_first_is_last :
    (weekdays 8).addSessions 0 (-1) = some 7 ∧ ¬ (weekdays 8).ShiftLaws 0 (-1) := by
  have hlast : (weekdays 8).addSessions 0 (-1) = some 7 := by decide
  refine ⟨hlast, fun hlaws => ?_⟩
  have hnone := hlaws.refused 0 (by decide) (by decide)
  rw [hlast] at hnone
  cases hnone

end Calendar

end TalonX.V2
