import TalonX.V2.SipAdapter

/-!
# The rows of a response

What `_rows` makes of a list of bar objects, whatever their order and number and however the pages are cut.

- `BarObject.Overflows`: the objects whose cells raise; `wellFormed`: the row of an object;
- `scan_eq_ok`, `rows_eq_ok`: without them, the rows are those of the sessions that `settle`;
- `settle_view`: a settled session depends on the set of its candidates;
- `fetch_pages`: pages count for their concatenation;
- `rows_lawful_iff`: exactly when the rows are what they should be.
-/

set_option autoImplicit false

namespace TalonX.V2.Sip

variable (rd : Reader) (c : ReleaseProviderContract) (sym : String) (receipt : ℤ)

/-! ## What raises -/

/-- A number that `float` cannot hold. -/
def JsonValue.TooLarge : JsonValue → Prop
  | .int i => beyondFloat i = true
  | _ => False

/-- A timestamp that leaves the years 1 to 9999 on its way to New York. -/
def JsonValue.OffCalendar : JsonValue → Prop
  | .str s => ∃ wall offset, rd.fromisoformat (utcSuffix s) = some (.aware wall offset) ∧
      toNewYork rd wall offset = .error .overflowError
  | _ => False

def BarObject.Overflows : BarObject → Prop
  | .other => False
  | .bar t o h l cl v => t.OffCalendar rd ∨ o.TooLarge ∨ h.TooLarge ∨ l.TooLarge ∨ cl.TooLarge ∨ v.TooLarge

theorem inCalendar_error {x : ℤ} {e : PyError} (h : inCalendar x = .error e) : e = .overflowError := by
  rw [inCalendar] at h
  split at h
  · cases h
  · exact (Except.error.inj h).symm

theorem toNewYork_error {wall offset : ℤ} {e : PyError} (h : toNewYork rd wall offset = .error e) :
    e = .overflowError := by
  rw [toNewYork] at h
  cases hutc : inCalendar (wall - offset) with
  | error e' =>
    rw [hutc] at h
    cases h
    exact inCalendar_error hutc
  | ok utc =>
    rw [hutc] at h
    exact inCalendar_error h

theorem float_overflow_iff (x : JsonValue) : x.float rd = .error .overflowError ↔ x.TooLarge := by
  cases x with
  | int i =>
    rw [JsonValue.float, JsonValue.TooLarge]
    by_cases h : beyondFloat i = true
    · simp [h]
    · simp [h]
  | str s => cases hs : rd.float s <;> simp [JsonValue.float, JsonValue.TooLarge, hs]
  | _ => simp [JsonValue.float, JsonValue.TooLarge]

theorem finitePos_error_iff (x : JsonValue) : (∃ e, finitePos rd x = .error e) ↔ x.TooLarge := by
  rw [← float_overflow_iff rd, finitePos]
  cases x.float rd with
  | ok y => cases y <;> simp
  | error e => cases e <;> simp

theorem volumeOf_error_iff (x : JsonValue) : (∃ e, volumeOf rd x = .error e) ↔ x.TooLarge := by
  rw [← float_overflow_iff rd, volumeOf]
  cases x.float rd with
  | ok y => cases y <;> simp
  | error e => cases e <;> simp

theorem sessionOf_error_iff (t : JsonValue) : (∃ e, sessionOf rd t = .error e) ↔ t.OffCalendar rd := by
  cases t with
  | str s =>
    rw [sessionOf, JsonValue.OffCalendar]
    cases hs : rd.fromisoformat (utcSuffix s) with
    | none => simp
    | some st =>
      cases st with
      | naive wall => simp
      | aware wall offset =>
        cases het : toNewYork rd wall offset with
        | error e =>
          have he := toNewYork_error rd het
          subst he
          exact ⟨fun _ => ⟨wall, offset, rfl, het⟩, fun _ => ⟨.overflowError, by simp only [het]; rfl⟩⟩
        | ok et =>
          constructor
          · rintro ⟨e, h⟩
            simp only [het] at h
            cases h
          · rintro ⟨w, o, h, hno⟩
            cases h
            rw [het] at hno
            cases hno
  | _ => simp [sessionOf, JsonValue.OffCalendar]

/-- A sequence raises when one of its steps does, if what the later ones do about it does not depend on the earlier. -/
theorem bind_error_iff {α β : Type} {x : Except PyError α} {f : α → Except PyError β} {A B : Prop}
    (hx : (∃ e, x = .error e) ↔ A) (hf : ∀ a, (∃ e, f a = .error e) ↔ B) : (∃ e, (x >>= f) = .error e) ↔ A ∨ B := by
  cases x with
  | error e =>
    have hA : A := hx.1 ⟨e, rfl⟩
    exact ⟨fun _ => Or.inl hA, fun _ => ⟨e, rfl⟩⟩
  | ok a =>
    have hA : ¬ A := fun h => by
      obtain ⟨e, he⟩ := hx.2 h
      cases he
    rw [or_iff_right hA]
    exact hf a

theorem candidate_error_iff (t o h l cl v : JsonValue) :
    (∃ e, candidate rd c receipt t o h l cl v = .error e) ↔ (BarObject.bar t o h l cl v).Overflows rd := by
  refine bind_error_iff (sessionOf_error_iff rd t) fun _ => bind_error_iff (finitePos_error_iff rd o) fun _ =>
    bind_error_iff (finitePos_error_iff rd h) fun _ => bind_error_iff (finitePos_error_iff rd l) fun _ => ?_
  rw [← or_false (v.TooLarge)]
  refine bind_error_iff (finitePos_error_iff rd cl) fun _ => bind_error_iff (volumeOf_error_iff rd v) fun _ => ?_
  -- the last step only chooses between a row and nothing
  refine iff_false_intro ?_
  rintro ⟨e, he⟩
  split at he <;> cases he

/-! ## Candidates -/

/-- The row of a well-formed object. -/
def BarObject.wellFormed : BarObject → Option SipRow
  | .other => none
  | .bar t o h l cl v => match candidate rd c receipt t o h l cl v with
    | .ok r => r
    | .error _ => none

theorem scan_error {raw : List BarObject} {b : BarObject} (hb : b ∈ raw) (h : b.Overflows rd) :
    ∃ e, (scan rd c sym receipt raw).2 = .error e := by
  induction raw with
  | nil => cases hb
  | cons b' raw ih =>
    have hrest : b ≠ b' → ∃ e, (scan rd c sym receipt raw).2 = .error e := fun hne =>
      ih ((List.mem_cons.1 hb).resolve_left hne)
    cases b' with
    | other =>
      refine hrest fun heq => ?_
      rw [heq] at h
      exact h
    | bar t o hi l cl v =>
      rw [scan]
      cases hc : candidate rd c receipt t o hi l cl v with
      | error e => exact ⟨e, rfl⟩
      | ok r =>
        obtain ⟨e, he⟩ := hrest fun heq => by
          obtain ⟨e, he⟩ := (candidate_error_iff rd c receipt t o hi l cl v).2 (heq ▸ h)
          rw [hc] at he
          cases he
        cases r with
        | none => exact ⟨e, he⟩
        | some r => exact ⟨e, by simp only [he]; rfl⟩

theorem scan_ok {raw : List BarObject} (h : ∀ b ∈ raw, ¬ b.Overflows rd) :
    (scan rd c sym receipt raw).2 = .ok (raw.filterMap (·.wellFormed rd c receipt)) := by
  induction raw with
  | nil => rfl
  | cons b raw ih =>
    have ih := ih fun b' hb' => h b' (List.mem_cons_of_mem _ hb')
    cases b with
    | other => exact ih
    | bar t o hi l cl v =>
      rw [scan, List.filterMap_cons, BarObject.wellFormed]
      cases hc : candidate rd c receipt t o hi l cl v with
      | error e => exact absurd ((candidate_error_iff rd c receipt t o hi l cl v).1 ⟨e, hc⟩) (h _ List.mem_cons_self)
      | ok r =>
        cases r with
        | none => exact ih
        | some r =>
          simp only [ih]
          rfl

theorem rows_error {raw : List BarObject} {b : BarObject} (hb : b ∈ raw) (h : b.Overflows rd) :
    ∃ e, (rows rd c sym receipt raw).2 = .error e := by
  obtain ⟨e, he⟩ := scan_error rd c sym receipt hb h
  refine ⟨e, ?_⟩
  rw [rows, show scan rd c sym receipt raw = ((scan rd c sym receipt raw).1, .error e) by rw [← he]]

/-- The settled sessions of a list of candidates. -/
def sessionRows (cands : List SipRow) : List SipRow :=
  (Transact.sortedGroups SipRow.date cands).filterMap fun g => settle g.2

theorem rows_ok {raw : List BarObject} (h : ∀ b ∈ raw, ¬ b.Overflows rd) :
    (rows rd c sym receipt raw).2 = .ok (sessionRows (raw.filterMap (·.wellFormed rd c receipt))) := by
  have hs := scan_ok rd c sym receipt h
  rw [rows, show scan rd c sym receipt raw = ((scan rd c sym receipt raw).1, .ok _) by rw [← hs]]
  rfl

/-! ## One session -/

theorem settle_eq_some {l : List SipRow} {r : SipRow} (h : settle l = some r) :
    r ∈ l ∧ ∀ x ∈ l, (x.openPrice, x.closePrice, x.volume) = (r.openPrice, r.closePrice, r.volume) := by
  cases l with
  | nil => cases h
  | cons first rest =>
    rw [settle] at h
    split at h
    · cases h
    · rename_i hany
      obtain rfl := Option.some.inj h
      refine ⟨List.mem_cons_self, fun x hx => ?_⟩
      rcases List.mem_cons.1 hx with rfl | hx
      · rfl
      · by_contra hne
        exact hany (List.any_eq_true.2 ⟨x, hx, by simpa using hne⟩)

theorem settle_isSome {l : List SipRow} {r : SipRow} (hr : r ∈ l)
    (h : ∀ x ∈ l, (x.openPrice, x.closePrice, x.volume) = (r.openPrice, r.closePrice, r.volume)) :
    ∃ r', settle l = some r' := by
  cases l with
  | nil => cases hr
  | cons first rest =>
    refine ⟨first, if_neg fun hany => ?_⟩
    obtain ⟨x, hx, hne⟩ := List.any_eq_true.1 hany
    have hsame := (h x (List.mem_cons_of_mem _ hx)).trans (h first List.mem_cons_self).symm
    simp [hsame] at hne

/-- What is seen of a settled session depends on the set of its candidates only, if it is the same for all that agree. -/
theorem settle_view {β : Type} (view : SipRow → β) {l l' : List SipRow} (hmem : ∀ r, r ∈ l ↔ r ∈ l')
    (hview : ∀ r ∈ l, ∀ r' ∈ l, (∀ x ∈ l, ∀ y ∈ l, (x.openPrice, x.closePrice, x.volume) =
      (y.openPrice, y.closePrice, y.volume)) → view r = view r') :
    (settle l).map view = (settle l').map view := by
  cases h : settle l with
  | none =>
    cases h' : settle l' with
    | none => rfl
    | some r' =>
      obtain ⟨hr', hall⟩ := settle_eq_some h'
      obtain ⟨r, hr⟩ := settle_isSome ((hmem r').2 hr') fun x hx => hall x ((hmem x).1 hx)
      rw [h] at hr
      cases hr
  | some r =>
    obtain ⟨hr, hall⟩ := settle_eq_some h
    obtain ⟨r', hr'⟩ := settle_isSome ((hmem r).1 hr) fun x hx => hall x ((hmem x).2 hx)
    obtain ⟨hmem', -⟩ := settle_eq_some hr'
    rw [hr', Option.map_some, Option.map_some]
    exact congrArg some (hview r hr r' ((hmem r').2 hmem') fun x hx y hy => (hall x hx).trans (hall y hy).symm)

/-! ## All sessions -/

section Sessions

variable {cands : List SipRow}

theorem sessionRows_eq (cands : List SipRow) :
    ∃ ks : List ℕ, ks.Pairwise (· < ·) ∧ (∀ k, k ∈ ks ↔ ∃ r ∈ cands, r.date = k) ∧
      sessionRows cands = ks.filterMap fun k => settle (Transact.under SipRow.date cands k) := by
  obtain ⟨ks, hlt, hmem, heq⟩ := Transact.exists_sortedGroups SipRow.date cands
  refine ⟨ks, hlt, hmem, ?_⟩
  rw [sessionRows, heq, List.filterMap_map]
  rfl

theorem mem_sessionRows {r : SipRow} :
    r ∈ sessionRows cands ↔ settle (Transact.under SipRow.date cands r.date) = some r := by
  obtain ⟨ks, -, hmem, heq⟩ := sessionRows_eq cands
  rw [heq, List.mem_filterMap]
  constructor
  · rintro ⟨k, -, hk⟩
    obtain ⟨-, hdate⟩ := (Transact.mem_under SipRow.date).1 (settle_eq_some hk).1
    rwa [hdate]
  · intro h
    obtain ⟨hr, -⟩ := (Transact.mem_under SipRow.date).1 (settle_eq_some h).1
    exact ⟨r.date, (hmem _).2 ⟨r, hr, rfl⟩, h⟩

theorem mem_of_mem_sessionRows {r : SipRow} (h : r ∈ sessionRows cands) : r ∈ cands :=
  ((Transact.mem_under SipRow.date).1 (settle_eq_some (mem_sessionRows.1 h)).1).1

/-- One row a session, the sessions ascending. -/
theorem sessionRows_pairwise (cands : List SipRow) : (sessionRows cands).Pairwise fun r r' => r.date < r'.date := by
  obtain ⟨ks, hlt, -, heq⟩ := sessionRows_eq cands
  rw [heq]
  refine hlt.filterMap _ fun k k' hk r hr r' hr' => ?_
  obtain ⟨-, hdate⟩ := (Transact.mem_under SipRow.date).1 (settle_eq_some hr).1
  obtain ⟨-, hdate'⟩ := (Transact.mem_under SipRow.date).1 (settle_eq_some hr').1
  rwa [hdate, hdate']

/-- A session has a row when it has candidates and they agree on open, close and volume. -/
theorem exists_sessionRow_iff {d : ℕ} :
    (∃ r ∈ sessionRows cands, r.date = d) ↔
      (∃ r ∈ cands, r.date = d) ∧ ∀ r ∈ cands, ∀ r' ∈ cands, r.date = d → r'.date = d → r.traded = r'.traded := by
  constructor
  · rintro ⟨r, hr, rfl⟩
    obtain ⟨-, hall⟩ := settle_eq_some (mem_sessionRows.1 hr)
    have hsame : ∀ x ∈ cands, x.date = r.date → x.traded = r.traded := fun x hx hd => by
      rw [SipRow.traded, SipRow.traded, hall x ((Transact.mem_under SipRow.date).2 ⟨hx, hd⟩), hd]
    exact ⟨⟨r, mem_of_mem_sessionRows hr, rfl⟩, fun x hx y hy hxd hyd => (hsame x hx hxd).trans (hsame y hy hyd).symm⟩
  · rintro ⟨⟨r, hr, rfl⟩, hagree⟩
    have hmem : r ∈ Transact.under SipRow.date cands r.date := (Transact.mem_under SipRow.date).2 ⟨hr, rfl⟩
    obtain ⟨r', hr'⟩ := settle_isSome hmem fun x hx => by
      obtain ⟨hx, hd⟩ := (Transact.mem_under SipRow.date).1 hx
      exact congrArg Prod.snd (hagree x hx r hr hd rfl)
    obtain ⟨-, hd⟩ := (Transact.mem_under SipRow.date).1 (settle_eq_some hr').1
    exact ⟨r', mem_sessionRows.2 (by rwa [hd]), hd⟩

/-- The same candidates, in any order and however often, give rows that look the same. -/
theorem sessionRows_view {β : Type} (view : SipRow → β) {cands' : List SipRow} (hmem : ∀ r, r ∈ cands ↔ r ∈ cands')
    (hview : ∀ d, (∀ x ∈ cands, ∀ y ∈ cands, x.date = d → y.date = d → x.traded = y.traded) →
      ∀ r ∈ cands, ∀ r' ∈ cands, r.date = d → r'.date = d → view r = view r') :
    (sessionRows cands').map view = (sessionRows cands).map view := by
  obtain ⟨ks, hlt, hks, heq⟩ := sessionRows_eq cands
  obtain ⟨ks', hlt', hks', heq'⟩ := sessionRows_eq cands'
  have hsame : ks' = ks := hlt'.eq_of_mem_iff hlt fun k => by
    rw [hks, hks']
    simp only [hmem]
  rw [heq, heq', hsame, List.map_filterMap, List.map_filterMap]
  refine List.filterMap_congr fun k _ => (settle_view view (fun r => ?_) fun r hr r' hr' hall => ?_).symm
  · rw [Transact.mem_under, Transact.mem_under, hmem]
  · obtain ⟨hr, hd⟩ := (Transact.mem_under SipRow.date).1 hr
    obtain ⟨hr', hd'⟩ := (Transact.mem_under SipRow.date).1 hr'
    refine hview k (fun x hx y hy hxd hyd => ?_) r hr r' hr' hd hd'
    rw [SipRow.traded, SipRow.traded, hxd, hyd, hall x ((Transact.mem_under SipRow.date).2 ⟨hx, hxd⟩) y
      ((Transact.mem_under SipRow.date).2 ⟨hy, hyd⟩)]

end Sessions

/-! ## Pages -/

/-- From `token` on, `get` answers with these pages. -/
def Serves (get : Option String → Except String Body) : Option String → List (List BarObject) → Prop
  | _, [] => False
  | token, [bars] => ∃ next, get token = .ok (.page bars next) ∧ (next = none ∨ next = some "")
  | token, bars :: more => ∃ t, t ≠ "" ∧ get token = .ok (.page bars (some t)) ∧ Serves get (some t) more

theorem collect_pages {get : Option String → Except String Body} {pages : List (List BarObject)} {n : ℕ}
    (hn : pages.length ≤ n) {token : Option String} (h : Serves get token pages) (raw : List BarObject) :
    collect get n token raw = .ok (raw ++ pages.flatten) := by
  induction pages generalizing n token raw with
  | nil => exact h.elim
  | cons bars more ih =>
    cases n with
    | zero => simp at hn
    | succ n =>
      cases more with
      | nil =>
        obtain ⟨next, hget, hlast⟩ := h
        rcases hlast with rfl | rfl
        · simp [collect, hget]
        · simp [collect, hget]
      | cons bars' more =>
        obtain ⟨t, ht, hget, hmore⟩ := h
        have hn' : (bars' :: more).length ≤ n := by simpa using hn
        have hnext : collect get (n + 1) token raw = collect get n (some t) (raw ++ bars) := by
          rw [collect, hget]
          exact if_neg ht
        rw [hnext, ih hn' hmore (raw ++ bars), List.append_assoc]
        rfl

/-- However a response is cut into pages, what counts is their concatenation. -/
theorem fetch_pages {get : Option String → Except String Body} {pages : List (List BarObject)} {symbol : String}
    {a : AlpacaSipBarAdapter} (hn : pages.length ≤ c.maxPages) (h : Serves get none pages)
    (hmiss : a.cache symbol.toUpper = none) :
    (fetch rd c get symbol a receipt).2 = (rows rd c symbol.toUpper receipt pages.flatten).2.mapError .raised := by
  have hraw := collect_pages hn h []
  rw [List.nil_append] at hraw
  rw [fetch, hmiss]
  simp only [fetch.load, hraw]
  rcases rows rd c symbol.toUpper receipt pages.flatten with ⟨noted, e | rs⟩
  · rfl
  · rfl

/-! ## The rows of every list -/

/-- All prices of a row, and its volume. -/
def SipRow.quote (r : SipRow) : ℕ × PosRat × PosRat × PosRat × PosRat × NNRat :=
  (r.date, r.openPrice, r.high, r.low, r.closePrice, r.volume)

/-- The well-formed objects of a session agree on what is seen of them. -/
def Agree {β : Type} (view : SipRow → β) (raw : List BarObject) (d : ℕ) : Prop :=
  ∀ b ∈ raw, ∀ b' ∈ raw, ∀ r r', b.wellFormed rd c receipt = some r → b'.wellFormed rd c receipt = some r' →
    r.date = d → r'.date = d → view r = view r'

/-- What the rows of a list of objects should be, where `view` is what is seen of a row. -/
structure LawfulRows {β : Type} (view : SipRow → β) (raw : List BarObject) (rs : List SipRow) : Prop where
  ascending : rs.Pairwise fun r r' => r.date < r'.date
  genuine : ∀ r ∈ rs, ∃ b ∈ raw, b.wellFormed rd c receipt = some r
  present : ∀ d, (∃ r ∈ rs, r.date = d) ↔
    (∃ b ∈ raw, ∃ r, b.wellFormed rd c receipt = some r ∧ r.date = d) ∧ Agree rd c receipt view raw d
  stable : ∀ raw' : List BarObject, (∀ b, b ∈ raw' ↔ b ∈ raw) →
    ∃ rs', (rows rd c sym receipt raw').2 = .ok rs' ∧ rs'.map view = rs.map view
  paged : ∀ (get : Option String → Except String Body) (pages : List (List BarObject)) (symbol : String)
    (a : AlpacaSipBarAdapter), pages.length ≤ c.maxPages → Serves get none pages → a.cache symbol.toUpper = none →
    (∀ b, b ∈ pages.flatten ↔ b ∈ raw) →
    ∃ rs', (fetch rd c get symbol a receipt).2 = .ok rs' ∧ rs'.map view = rs.map view

def Lawful {β : Type} (view : SipRow → β) (raw : List BarObject) : Prop :=
  ∃ rs, (rows rd c sym receipt raw).2 = .ok rs ∧ LawfulRows rd c sym receipt view raw rs

section Lawful

variable {raw : List BarObject}

theorem agree_candidates {β : Type} {view : SipRow → β} {d : ℕ} :
    Agree rd c receipt view raw d ↔
      ∀ r ∈ raw.filterMap (·.wellFormed rd c receipt), ∀ r' ∈ raw.filterMap (·.wellFormed rd c receipt),
        r.date = d → r'.date = d → view r = view r' := by
  constructor
  · intro h r hr r' hr' hd hd'
    obtain ⟨b, hb, hbr⟩ := List.mem_filterMap.1 hr
    obtain ⟨b', hb', hbr'⟩ := List.mem_filterMap.1 hr'
    exact h b hb b' hb' r r' hbr hbr' hd hd'
  · intro h b hb b' hb' r r' hr hr' hd hd'
    exact h r (List.mem_filterMap.2 ⟨b, hb, hr⟩) r' (List.mem_filterMap.2 ⟨b', hb', hr'⟩) hd hd'

theorem Lawful.not_overflows {β : Type} {view : SipRow → β} (h : Lawful rd c sym receipt view raw) :
    ∀ b ∈ raw, ¬ b.Overflows rd := by
  intro b hb hover
  obtain ⟨rs, hrs, -⟩ := h
  obtain ⟨e, he⟩ := rows_error rd c sym receipt hb hover
  rw [he] at hrs
  cases hrs

/-- Without overflow the rows are lawful, for every view that agrees wherever open, close and volume do. -/
theorem lawful_of_agree {β : Type} (view : SipRow → β) (hover : ∀ b ∈ raw, ¬ b.Overflows rd)
    (hview : ∀ d, Agree rd c receipt SipRow.traded raw d ↔ Agree rd c receipt view raw d) :
    Lawful rd c sym receipt view raw := by
  have hok := rows_ok rd c sym receipt hover
  have hstable : ∀ (symbol : String) (raw' : List BarObject), (∀ b, b ∈ raw' ↔ b ∈ raw) →
      ∃ rs', (rows rd c symbol receipt raw').2 = .ok rs' ∧
        rs'.map view = (sessionRows (raw.filterMap (·.wellFormed rd c receipt))).map view := by
    intro symbol raw' hmem
    refine ⟨_, rows_ok rd c symbol receipt fun b hb => hover b ((hmem b).1 hb), ?_⟩
    refine sessionRows_view view (fun r => ?_) fun d hd => ?_
    · simp only [List.mem_filterMap, hmem]
    · exact (agree_candidates rd c receipt).1 ((hview d).1 ((agree_candidates rd c receipt).2 hd))
  refine ⟨_, hok, sessionRows_pairwise _, fun r hr => ?_, fun d => ?_, hstable sym, ?_⟩
  · exact List.mem_filterMap.1 (mem_of_mem_sessionRows hr)
  · rw [exists_sessionRow_iff, ← agree_candidates, ← hview d]
    refine and_congr_left fun _ => ⟨?_, ?_⟩
    · rintro ⟨r, hr, hd⟩
      obtain ⟨b, hb, hbr⟩ := List.mem_filterMap.1 hr
      exact ⟨b, hb, r, hbr, hd⟩
    · rintro ⟨b, hb, r, hbr, hd⟩
      exact ⟨r, List.mem_filterMap.2 ⟨b, hb, hbr⟩, hd⟩
  · intro get pages symbol a hn hserves hmiss hmem
    obtain ⟨rs', hrs', hv⟩ := hstable symbol.toUpper pages.flatten hmem
    refine ⟨rs', ?_, hv⟩
    rw [fetch_pages rd c receipt hn hserves hmiss, hrs']
    rfl

/-- The code's own test of agreement is the one on open, close and volume. -/
theorem Lawful.agree {β : Type} {view : SipRow → β} (h : Lawful rd c sym receipt view raw) (d : ℕ)
    (hd : Agree rd c receipt SipRow.traded raw d) : Agree rd c receipt view raw d := by
  intro b hb b' hb' r r' hr hr' hrd hrd'
  have hok := rows_ok rd c sym receipt h.not_overflows
  obtain ⟨rs, hrs, hlaw⟩ := h
  rw [hok] at hrs
  obtain rfl := Except.ok.inj hrs
  have hsome : ∃ r ∈ sessionRows (raw.filterMap (·.wellFormed rd c receipt)), r.date = d :=
    exists_sessionRow_iff.2 ⟨⟨r, List.mem_filterMap.2 ⟨b, hb, hr⟩, hrd⟩, (agree_candidates rd c receipt).1 hd⟩
  exact ((hlaw.present d).1 hsome).2 b hb b' hb' r r' hr hr' hrd hrd'

/-- The rows are right as far as open, close and volume are seen just when nothing overflows; with high and low as well, just
when moreover no session has objects that differ in these alone. -/
theorem rows_lawful_iff (raw : List BarObject) :
    (Lawful rd c sym receipt SipRow.traded raw ↔ ∀ b ∈ raw, ¬ b.Overflows rd) ∧
    (Lawful rd c sym receipt SipRow.quote raw ↔ (∀ b ∈ raw, ¬ b.Overflows rd) ∧
      ∀ d, Agree rd c receipt SipRow.traded raw d → Agree rd c receipt SipRow.quote raw d) := by
  refine ⟨⟨Lawful.not_overflows rd c sym receipt, fun h => lawful_of_agree rd c sym receipt _ h fun _ => Iff.rfl⟩,
    fun h => ⟨h.not_overflows, h.agree⟩, fun h => lawful_of_agree rd c sym receipt _ h.1 fun d => ⟨h.2 d, ?_⟩⟩
  -- what agrees on everything agrees on open, close and volume
  intro hq b hb b' hb' r r' hr hr' hd hd'
  have := hq b hb b' hb' r r' hr hr' hd hd'
  simp only [SipRow.quote, Prod.mk.injEq] at this
  obtain ⟨h1, h2, -, -, h3, h4⟩ := this
  rw [SipRow.traded, SipRow.traded, h1, h2, h3, h4]

end Lawful

/-- New York in summer, and one timestamp. -/
def summer : Reader where
  fromisoformat s := if s = "2026-09-08T04:00:00+00:00" then some (.aware 63924436800000000 0) else none
  float _ := none
  newYorkOffset _ := -14400000000

/-- The bar of one session, with its volume. -/
def septemberBar (volume : ℤ) : BarObject :=
  .bar (.str "2026-09-08T04:00:00Z") (.int 25) (.int 26) (.int 24) (.int 25) (.int volume)

/-- A volume of four hundred digits, which JSON can carry, raises instead of being rejected. -/
theorem huge_volume_raises :
    (rows summer {} "AAPL" 0 [septemberBar 1000]).2.toOption.map (List.map SipRow.date) = some [739867] ∧
    (∃ e, (rows summer {} "AAPL" 0 [septemberBar 1000, septemberBar (10 ^ 400)]).2 = .error e) ∧
    ¬ Lawful summer {} "AAPL" 0 SipRow.traded [septemberBar 1000, septemberBar (10 ^ 400)] := by
  have hbeyond : beyondFloat (10 ^ 400) = true := by decide +kernel
  have hover : (septemberBar (10 ^ 400)).Overflows summer := Or.inr (Or.inr (Or.inr (Or.inr (Or.inr hbeyond))))
  have hmem : septemberBar (10 ^ 400) ∈ [septemberBar 1000, septemberBar (10 ^ 400)] :=
    List.mem_cons_of_mem _ List.mem_cons_self
  obtain ⟨e, he⟩ := rows_error summer {} "AAPL" 0 hmem hover
  refine ⟨by decide +kernel, ⟨e, he⟩, ?_⟩
  rintro ⟨rs, hrs, -⟩
  rw [he] at hrs
  cases hrs

end TalonX.V2.Sip
