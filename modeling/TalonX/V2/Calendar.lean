import Mathlib.Data.List.Basic
import Mathlib.Data.Int.Basic

/-!
# Trading-session arithmetic

The functions of `calendar.py` over an exchange calendar. A date is its ordinal, an instant is a number of seconds
since the start of date `0` (UTC). A function that raises in the source returns `none`.

- `Calendar`: the sorted sessions with their official opens and closes;
- `addSessions`, `sessionsBetween`, `tradingDaysElapsed`, `nextSessionOnOrAfter`: the source's session arithmetic,
  `sess[j]` with a negative `j` counting from the end as Python does (`getItem`);
- `recoveryDeadlineSession`, `recoveryDeadlinePassed`: the end of the entry recovery window.
-/

set_option autoImplicit false

namespace TalonX.V2

/-- A date, as its ordinal. -/
abbrev Date := ℕ

/-- A UTC instant in seconds. -/
abbrev Instant := ℤ

/-- The first instant of a date. -/
def dayStart (d : Date) : Instant := (d : ℤ) * 86400

/-- `t.date()` in UTC. -/
def utcDate (t : Instant) : Date := (t / 86400).toNat

/-- An instant on a later date. -/
theorem dayStart_le_of_lt_utcDate {d : ℕ} {t : ℤ} (h : d < utcDate t) : dayStart (d + 1) ≤ t := by
  have hd : (d : ℕ) < (t / 86400).toNat := h
  show ((d + 1 : ℕ) : ℤ) * 86400 ≤ t
  omega

/-- An exchange calendar: sessions in ascending order, each opening and closing on its own UTC date. -/
structure Calendar where
  sessions : List Date
  openUtc : Date → Instant
  closeUtc : Date → Instant
  sorted : sessions.Pairwise (· < ·)
  opens_on_its_day : ∀ d ∈ sessions, dayStart d ≤ openUtc d
  open_before_close : ∀ d ∈ sessions, openUtc d < closeUtc d
  closes_on_its_day : ∀ d ∈ sessions, closeUtc d < dayStart (d + 1)

/-- Python's `xs[j]`: a negative index counts from the end, `none` is an `IndexError`. -/
def getItem {α : Type} (xs : List α) (j : ℤ) : Option α :=
  if 0 ≤ j then xs[j.toNat]? else if -(xs.length : ℤ) ≤ j then xs[(xs.length + j).toNat]? else none

namespace Calendar

/-- An exchange that trades the first five days of every week and has no holidays, over its first `n` days. -/
def weekdays (n : ℕ) : Calendar where
  sessions := (List.range n).filter (· % 7 < 5)
  openUtc d := dayStart d + 52200
  closeUtc d := dayStart d + 75600
  sorted := List.pairwise_lt_range.filter _
  opens_on_its_day d _ := show (d : ℤ) * 86400 ≤ (d : ℤ) * 86400 + 52200 by omega
  open_before_close d _ := show (d : ℤ) * 86400 + 52200 < (d : ℤ) * 86400 + 75600 by omega
  closes_on_its_day d _ := show (d : ℤ) * 86400 + 75600 < ((d + 1 : ℕ) : ℤ) * 86400 by omega

variable (cal : Calendar)

def isSession (d : Date) : Bool := d ∈ cal.sessions

def nextSessionOnOrAfter (d : Date) : Option Date := cal.sessions.find? (d ≤ ·)

/-- The frozen entry rule: first session strictly after `d`. -/
def nextSessionStrictlyAfter (d : Date) : Option Date := cal.sessions.find? (d < ·)

/-- The trading-day ordinal of `d`, anchored on the next session, or on the previous one. -/
def sessionOrdinal (d : Date) (anchorForward : Bool) : Option ℕ :=
  match cal.sessions.idxOf? d with
  | some i => some i
  | none =>
    if anchorForward then (cal.nextSessionOnOrAfter d).bind cal.sessions.idxOf?
    else (cal.sessions.reverse.findIdx? (· ≤ d)).map (cal.sessions.length - 1 - ·)

/-- The session `n` trading days after `d`. -/
def addSessions (d : Date) (n : ℤ) : Option Date :=
  match (cal.sessions.idxOf? d).orElse fun _ => (cal.nextSessionOnOrAfter d).bind cal.sessions.idxOf? with
  | none => none
  | some i => if (cal.sessions.length : ℤ) ≤ i + n then none else getItem cal.sessions (i + n)

/-- The number of sessions in `(start, stop]`. -/
def sessionsBetween (start stop : Date) : ℕ :=
  if stop ≤ start then 0 else cal.sessions.countP fun s => start < s && s ≤ stop

/-- Sessions elapsed since the entry session, which is day 0. -/
def tradingDaysElapsed (entrySession asOf : Date) : Option ℕ :=
  if asOf < entrySession then some 0
  else
    match cal.sessionOrdinal entrySession true, cal.sessionOrdinal asOf false with
    | some ia, some ib => some (ib - ia)
    | _, _ => none

def recoveryDeadlineSession (eligibleEntrySession : Date) (maxEntryStalenessSessions : ℕ) : Option Date :=
  cal.addSessions eligibleEntrySession (max 0 ((maxEntryStalenessSessions : ℤ) - 1))

/-- Live: the wall clock is past the official close of the deadline session. Pinned: `ripeThrough` is past it. -/
def recoveryDeadlinePassed (eligibleEntrySession : Date) (maxEntryStalenessSessions : ℕ) (ripeThrough : Date)
    (live : Bool) (now : Instant) : Option Bool :=
  (cal.recoveryDeadlineSession eligibleEntrySession maxEntryStalenessSessions).map fun deadline =>
    if live then decide (cal.closeUtc deadline < now) else decide (deadline < ripeThrough)

variable {cal : Calendar}

/-- Going forward from a session counts positions. -/
theorem addSessions_natCast {d : Date} {i n : ℕ} (hi : cal.sessions.idxOf? d = some i) :
    cal.addSessions d n = cal.sessions[i + n]? := by
  simp only [addSessions, hi, Option.orElse_some]
  split
  · exact (List.getElem?_eq_none (by omega)).symm
  · rw [getItem, if_pos (by omega)]
    congr 1

theorem idxOf_of_mem {d : Date} (hd : d ∈ cal.sessions) :
    ∃ i, cal.sessions.idxOf? d = some i ∧ cal.sessions[i]? = some d := by
  obtain ⟨i, hi⟩ := Option.isSome_iff_exists.1 (List.isSome_idxOf?.2 hd)
  obtain ⟨hlt, hget, -⟩ := List.idxOf?_eq_some_iff.1 hi
  exact ⟨i, hi, List.getElem?_eq_some_iff.2 ⟨hlt, hget⟩⟩

/-- Sessions are ordered as their positions. -/
theorem le_of_sessions_le {i j : ℕ} {d e : Date} (hi : cal.sessions[i]? = some d) (hj : cal.sessions[j]? = some e)
    (h : d ≤ e) : i ≤ j := by
  obtain ⟨hil, rfl⟩ := List.getElem?_eq_some_iff.1 hi
  obtain ⟨hjl, rfl⟩ := List.getElem?_eq_some_iff.1 hj
  by_contra hlt
  exact absurd h (Nat.not_le.2 (List.pairwise_iff_getElem.1 cal.sorted j i hjl hil (Nat.lt_of_not_le hlt)))

theorem sessions_le_of_le {i j : ℕ} {d e : Date} (hi : cal.sessions[i]? = some d) (hj : cal.sessions[j]? = some e)
    (h : i ≤ j) : d ≤ e := by
  obtain ⟨hil, rfl⟩ := List.getElem?_eq_some_iff.1 hi
  obtain ⟨hjl, rfl⟩ := List.getElem?_eq_some_iff.1 hj
  rcases Nat.lt_or_eq_of_le h with hlt | rfl
  · exact Nat.le_of_lt (List.pairwise_iff_getElem.1 cal.sorted i j hil hjl hlt)
  · exact Nat.le_refl _

theorem mem_of_addSessions {d d' : Date} {n : ℤ} (h : cal.addSessions d n = some d') : d' ∈ cal.sessions := by
  unfold addSessions at h
  split at h
  · cases h
  split at h
  · cases h
  unfold getItem at h
  split at h
  · exact List.mem_of_getElem? h
  split at h
  · exact List.mem_of_getElem? h
  · cases h

/-- Going forward from a session reaches a session that is not earlier. -/
theorem addSessions_spec {d d' : Date} {n : ℤ} (hd : d ∈ cal.sessions) (hn : 0 ≤ n)
    (h : cal.addSessions d n = some d') : d ≤ d' ∧ d' ∈ cal.sessions := by
  obtain ⟨i, hi, hget⟩ := idxOf_of_mem hd
  obtain ⟨k, rfl⟩ := Int.eq_ofNat_of_zero_le hn
  rw [addSessions_natCast hi] at h
  exact ⟨sessions_le_of_le hget h (Nat.le_add_right i k), List.mem_of_getElem? h⟩

/-- The sessions up to the `n`-th after `t` are those reached from `t`. -/
theorem exists_addSessions {t d last : Date} {n : ℕ} (ht : t ∈ cal.sessions) (h : cal.addSessions t n = some last)
    (hd : d ∈ cal.sessions) (htd : t ≤ d) (hdl : d ≤ last) : ∃ k ≤ n, cal.addSessions t (k : ℕ) = some d := by
  obtain ⟨i, hi, hget⟩ := idxOf_of_mem ht
  obtain ⟨m, -, hm⟩ := idxOf_of_mem hd
  rw [addSessions_natCast hi] at h
  have him : i ≤ m := le_of_sessions_le hget hm htd
  have hmn : m ≤ i + n := le_of_sessions_le hm h hdl
  refine ⟨m - i, by omega, ?_⟩
  rw [addSessions_natCast hi, Nat.add_sub_cancel' him, hm]

/-- Sessions close in their order. -/
theorem closeUtc_le {d e : Date} (hd : d ∈ cal.sessions) (he : e ∈ cal.sessions) (h : d ≤ e) :
    cal.closeUtc d ≤ cal.closeUtc e := by
  rcases Nat.lt_or_eq_of_le h with hlt | rfl
  · have hday : dayStart (d + 1) ≤ dayStart e :=
      Int.mul_le_mul_of_nonneg_right (Int.ofNat_le.2 hlt) (by decide)
    exact Int.le_of_lt (calc
      cal.closeUtc d < dayStart (d + 1) := cal.closes_on_its_day d hd
      _ ≤ dayStart e := hday
      _ ≤ cal.openUtc e := cal.opens_on_its_day e he
      _ < cal.closeUtc e := cal.open_before_close e he)
  · exact Int.le_refl _

/-- The next session on or after a date is the first of those. -/
theorem nextSessionOnOrAfter_le {d r e : Date} (h : cal.nextSessionOnOrAfter d = some r) (he : e ∈ cal.sessions)
    (hde : d ≤ e) : r ≤ e := by
  obtain ⟨hr, as, bs, hsplit, has⟩ := List.find?_eq_some_iff_append.1 h
  rw [hsplit] at he
  have hsorted := cal.sorted
  rw [hsplit] at hsorted
  rcases List.mem_append.1 he with he | he
  · have hlt : ¬ d ≤ e := by simpa using has e he
    exact absurd hde hlt
  · rcases List.mem_cons.1 he with rfl | he
    · exact le_refl _
    · exact Nat.le_of_lt ((List.pairwise_cons.1 (List.pairwise_append.1 hsorted).2.1).1 e he)

end Calendar

end TalonX.V2
