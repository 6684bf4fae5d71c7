import TalonX.V2.Liquidity

/-!
# The pricing resolver

One raw row of an adapter becomes a usable bar, or the reason why there is none. A price or a volume that is missing or
not finite is `none`.

- `validateBar`: malformed, wrong-session and future rows are rejected, today's row is provisional;
- `usableAt`: when the finality policy takes a session's bar for complete;
- `PricingResolver.resolve`: only a final bar is returned;
- `PricingResolver.couldBeFinal`: the sessions whose bar could be returned (`couldBeFinal_iff`).
-/

set_option autoImplicit false

namespace TalonX.V2

/-- One session's raw row. -/
structure RawBar where
  date : Date
  openPrice : Option ℚ
  closePrice : Option ℚ
  volume : Option ℚ
  provenance : Option Provenance

inductive PriceUnavailable
  | futureSession
  | providerError
  | noBar
  | rejectedWrongSession
  | rejectedNonfiniteOrNonpositivePrice
  | rejectedBadVolume
  | provisionalOnly
  deriving DecidableEq

inductive BarStatus
  | final
  | provisional
  deriving DecidableEq

/-- `_finite_pos`. -/
def finitePos (x : Option ℚ) : Option PosRat :=
  match x with
  | none => none
  | some q => if h : 0 < q then some ⟨q, h⟩ else none

def validateBar (raw : RawBar) (wantSession today : Date) : Except PriceUnavailable (Bar × BarStatus) :=
  if raw.date ≠ wantSession then .error .rejectedWrongSession
  else
    match finitePos raw.openPrice, finitePos raw.closePrice with
    | some o, some c =>
      match raw.volume with
      | none => .error .rejectedBadVolume
      | some v =>
        if v < 0 then .error .rejectedBadVolume
        else if today < raw.date then .error .futureSession
        else .ok (⟨raw.date, o, c, v, raw.provenance⟩, if raw.date = today then .provisional else .final)
    | _, _ => .error .rejectedNonfiniteOrNonpositivePrice

/-- `close(S) + 4h`, the lag of a query and the settle margin. -/
def usableAt (cal : Calendar) (session : Date) : Instant := cal.closeUtc session + 4 * 3600 + (15 + 1) * 60

/-- `finality`: a finality policy is configured, else the date decides. -/
structure PricingResolver where
  today : Date
  now : Instant
  finality : Bool

namespace PricingResolver

variable (cal : Calendar) (r : PricingResolver)

def withFinality (b : Bar × BarStatus) : Bar × BarStatus :=
  if r.finality then (b.1, if usableAt cal b.1.date ≤ r.now then .final else .provisional) else b

/-- `fetched` is what the adapter answered: `none` when it raised, `some none` when it has no row. -/
def resolve (session : Date) (fetched : Option (Option RawBar)) : Except PriceUnavailable Bar :=
  if r.today < session then .error .futureSession
  else
    match fetched with
    | none => .error .providerError
    | some none => .error .noBar
    | some (some raw) =>
      match validateBar raw session r.today with
      | .error why => .error why
      | .ok b => if (r.withFinality cal b).2 = .provisional then .error .provisionalOnly else .ok b.1

/-- The bar of a session could be final: the policy takes it for complete, or its date is past. -/
def couldBeFinal (session : Date) : Bool :=
  session ≤ r.today && if r.finality then usableAt cal session ≤ r.now else session < r.today

variable {cal : Calendar} {r : PricingResolver}

theorem validateBar_ok {raw : RawBar} {want today : Date} {b : Bar × BarStatus} (h : validateBar raw want today = .ok b) :
    b.1.date = want ∧ b.2 = if want = today then .provisional else .final := by
  unfold validateBar at h
  split at h
  · cases h
  rename_i hdate
  rw [not_not] at hdate
  split at h
  · split at h
    · cases h
    split at h
    · cases h
    split at h
    · cases h
    · obtain rfl := Except.ok.inj h
      exact ⟨hdate, by rw [hdate]⟩
  · cases h

/-- A well-formed row of a session is accepted exactly when its bar could be final. -/
theorem couldBeFinal_iff {session : Date} :
    (∃ raw b, r.resolve cal session (some (some raw)) = .ok b) ↔ r.couldBeFinal cal session = true := by
  constructor
  · rintro ⟨raw, b, h⟩
    unfold resolve at h
    split at h
    · cases h
    rename_i hpast
    dsimp only at h
    split at h
    · cases h
    rename_i bs hval
    split at h
    · cases h
    rename_i hfinal
    obtain ⟨hdate, hst⟩ := validateBar_ok hval
    simp only [couldBeFinal, Bool.and_eq_true, decide_eq_true_eq]
    refine ⟨Nat.le_of_not_lt hpast, ?_⟩
    cases hf : r.finality with
    | true =>
      rw [withFinality, if_pos hf, hdate] at hfinal
      by_contra hno
      simp_all
    | false =>
      rw [withFinality, if_neg (by simp [hf]), hst] at hfinal
      have hne : session ≠ r.today := fun heq => hfinal (if_pos heq)
      simpa using Nat.lt_of_le_of_ne (Nat.le_of_not_lt hpast) hne
  · intro h
    simp only [couldBeFinal, Bool.and_eq_true, decide_eq_true_eq] at h
    obtain ⟨hle, hfin⟩ := h
    refine ⟨⟨session, some 1, some 1, some 0, none⟩, ⟨session, ⟨1, one_pos⟩, ⟨1, one_pos⟩, 0, none⟩, ?_⟩
    have hval : validateBar ⟨session, some 1, some 1, some 0, none⟩ session r.today =
        .ok (⟨session, ⟨1, one_pos⟩, ⟨1, one_pos⟩, 0, none⟩, if session = r.today then .provisional else .final) := by
      simp [validateBar, finitePos, Nat.not_lt.2 hle]
    rw [resolve, if_neg (Nat.not_lt.2 hle)]
    rw [hval]
    dsimp only
    refine if_neg ?_
    cases hf : r.finality with
    | true =>
      rw [hf, if_pos rfl, decide_eq_true_eq] at hfin
      simp [withFinality, hf, hfin]
    | false =>
      rw [hf, if_neg (by simp), decide_eq_true_eq] at hfin
      simp [withFinality, hf, Nat.ne_of_lt hfin]

/-- When the bar of a session could be final, so could those of the sessions before. -/
theorem couldBeFinal_of_le {d e : Date} (hd : d ∈ cal.sessions) (he : e ∈ cal.sessions) (hde : d ≤ e)
    (h : r.couldBeFinal cal e = true) : r.couldBeFinal cal d = true := by
  simp only [couldBeFinal, Bool.and_eq_true, decide_eq_true_eq] at h ⊢
  refine ⟨Nat.le_trans hde h.1, ?_⟩
  cases hf : r.finality with
  | true =>
    have hclose := Calendar.closeUtc_le hd he hde
    have huse := h.2
    rw [hf, if_pos rfl, decide_eq_true_eq] at huse
    rw [if_pos rfl, decide_eq_true_eq]
    unfold usableAt at huse ⊢
    exact Int.le_trans (Int.add_le_add_right (Int.add_le_add_right hclose _) _) huse
  | false =>
    have huse := h.2
    rw [hf, if_neg (by simp), decide_eq_true_eq] at huse
    simpa using Nat.lt_of_le_of_lt hde huse

end PricingResolver

end TalonX.V2
