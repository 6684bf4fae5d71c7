import TalonX.Piv.AuthorizationFile

/-!
# The authorization loader fails closed

What a file must be for a permission, and the files whose reading raises instead.

- `AuthorizationFields`, `PaperFields`, `WellFormed`: the fields of a permission;
- `Decides`: a check raises on the integers that have no float, and decides its predicate elsewhere;
- `checkFields_spec`, `loadPaperPermission_spec`, `loadAuthorization_spec`: the checks in their order;
- `load_fails_closed_iff`: the loader gives a permission exactly to well-formed files, unless reading raises.
-/

set_option autoImplicit false

namespace TalonX.Piv

open Transact TalonX.Core

variable {lib : TextLib}

/-! ## Well-formed values -/

def NonBlank (j : Json) : Prop := ∃ s, j = .str s ∧ notBlank s = true

def FinitePositive (j : Json) : Prop := (∃ n : ℤ, j = .int n ∧ 0 < n) ∨ ∃ q : ℚ, j = .float (.fin q) ∧ 0 < q

/-- A finite positive number without a fraction. -/
def PositiveCount (j : Json) : Prop := (∃ n : ℤ, j = .int n ∧ 0 < n) ∨ ∃ n : ℤ, j = .float (.fin n) ∧ 0 < n

/-- An integer that has no float. -/
def TooLarge (j : Json) : Prop := ∃ n, j = .int n ∧ overflowsFloat n = true

/-- What the checks before the paper section ask for. -/
structure AuthorizationFields (lib : TextLib) (raw : List (Text × Json)) : Prop where
  enabled : Json.get raw "enabled" = .bool true
  strings : ∀ field ∈ requiredStrFields, NonBlank (Json.get raw field)
  acknowledged : Json.get raw "operator_acknowledged_unvalidated" = .bool true
  symbols : ∃ xs, Json.get raw "allowed_symbols" = .list xs ∧ xs ≠ [] ∧ ∀ x ∈ xs, NonBlank x
  window : ∃ activatedAt expiresAt, parseAwareDatetime lib (Json.get raw "activated_at") = some activatedAt ∧
    parseAwareDatetime lib (Json.get raw "expires_at") = some expiresAt ∧ activatedAt < expiresAt

/-- What an enabled paper section asks for. -/
structure PaperFields (paper : List (Text × Json)) : Prop where
  account : NonBlank (Json.get paper "account_id_binding")
  limits : ∀ field ∈ limitFields, FinitePositive (Json.get paper field)
  counts : ∀ field ∈ countFields, PositiveCount (Json.get paper field)

/-- The paper section: none, one that is not enabled, or one with its fields. -/
def PaperWellFormed (j : Json) : Prop :=
  j = .null ∨ ∃ paper, j = .dict paper ∧
    (Json.get paper "enabled" = .bool false ∨ Json.get paper "enabled" = .bool true ∧ PaperFields paper)

structure WellFormed (lib : TextLib) (raw : List (Text × Json)) : Prop where
  fields : AuthorizationFields lib raw
  paper : PaperWellFormed (Json.get raw "paper")

theorem isBoolTrue_iff {j : Json} : isBoolTrue j = true ↔ j = .bool true := by
  cases j <;> simp [isBoolTrue]

theorem isNonemptyStr_iff {j : Json} : isNonemptyStr j = true ↔ NonBlank j := by
  cases j <;> simp [isNonemptyStr, NonBlank]

theorem symbolTexts?_isSome {j : Json} :
    (symbolTexts? j).isSome = true ↔ ∃ xs, j = .list xs ∧ xs ≠ [] ∧ ∀ x ∈ xs, NonBlank x := by
  cases j with
  | list xs =>
    unfold symbolTexts?
    simp only [Json.list.injEq, exists_eq_left']
    split
    · next h =>
      simp only [Option.isSome_none, Bool.false_eq_true, false_iff, not_and]
      intro hne hall
      have hxs : xs.isEmpty = false := by simpa using hne
      have hok : xs.all isNonemptyStr = true := List.all_eq_true.2 fun x hx => isNonemptyStr_iff.2 (hall x hx)
      rw [hxs, hok] at h
      cases h
    · next h =>
      simp only [Bool.or_eq_true, Bool.not_eq_true', not_or, List.isEmpty_iff, Bool.not_eq_false,
        List.all_eq_true] at h
      simp only [Option.isSome_some, true_iff]
      exact ⟨h.1, fun x hx => isNonemptyStr_iff.1 (h.2 x hx)⟩
  | null => simp [symbolTexts?]
  | bool b => simp [symbolTexts?]
  | int n => simp [symbolTexts?]
  | float x => simp [symbolTexts?]
  | str s => simp [symbolTexts?]
  | dict members => simp [symbolTexts?]

theorem window?_isSome {raw : List (Text × Json)} :
    (window? lib raw).isSome = true ↔
      ∃ activatedAt expiresAt, parseAwareDatetime lib (Json.get raw "activated_at") = some activatedAt ∧
        parseAwareDatetime lib (Json.get raw "expires_at") = some expiresAt ∧ activatedAt < expiresAt := by
  unfold window?
  split
  · next a e ha he =>
    rw [ha, he]
    split
    · next hle => simp [hle]
    · next hlt => simp [not_le.1 hlt]
  · next hnone =>
    simp only [Option.isSome_none, Bool.false_eq_true, false_iff]
    rintro ⟨a, e, ha, he, -⟩
    exact hnone a e ha he

/-! ## The limits -/

/-- The check raises on the integers that have no float, and decides `P` on everything else. -/
def Decides (check : Json → Except LoadError Bool) (P : Json → Prop) : Prop :=
  ∀ j, TooLarge j ∧ check j = .error .overflow ∨ ¬ TooLarge j ∧ ∃ ok, check j = .ok ok ∧ (ok = true ↔ P j)

theorem isFinitePositiveNumber_decides : Decides isFinitePositiveNumber FinitePositive := by
  intro j
  cases j with
  | int n =>
    cases hn : overflowsFloat n with
    | true => exact .inl ⟨⟨n, rfl, hn⟩, by simp [isFinitePositiveNumber, hn]⟩
    | false =>
      refine .inr ⟨?_, decide (0 < n), by simp [isFinitePositiveNumber, hn], ?_⟩
      · rintro ⟨m, hm, hlarge⟩
        obtain rfl := Json.int.inj hm
        rw [hn] at hlarge
        cases hlarge
      · simp [FinitePositive]
  | float x =>
    refine .inr ⟨by simp [TooLarge], _, rfl, ?_⟩
    cases x with
    | fin q =>
      have hlt : PyFloat.lt 0 (.fin q) = decide (0 < q) := rfl
      simp [FinitePositive, PyFloat.finite, hlt]
    | nan => simp [FinitePositive, PyFloat.finite]
    | inf s => simp [FinitePositive, PyFloat.finite]
  | null => exact .inr ⟨by simp [TooLarge], false, rfl, by simp [FinitePositive]⟩
  | bool b => exact .inr ⟨by simp [TooLarge], false, rfl, by simp [FinitePositive]⟩
  | str s => exact .inr ⟨by simp [TooLarge], false, rfl, by simp [FinitePositive]⟩
  | list xs => exact .inr ⟨by simp [TooLarge], false, rfl, by simp [FinitePositive]⟩
  | dict members => exact .inr ⟨by simp [TooLarge], false, rfl, by simp [FinitePositive]⟩

/-- A finite positive number that is integral is a count. -/
theorem positiveCount_iff {j : Json} : PositiveCount j ↔ FinitePositive j ∧ isIntegral j = true := by
  constructor
  · rintro (⟨n, rfl, hn⟩ | ⟨n, rfl, hn⟩)
    · exact ⟨.inl ⟨n, rfl, hn⟩, rfl⟩
    · exact ⟨.inr ⟨n, rfl, by exact_mod_cast hn⟩, by simp [isIntegral]⟩
  · rintro ⟨⟨n, rfl, hn⟩ | ⟨q, rfl, hq⟩, hint⟩
    · exact .inl ⟨n, rfl, hn⟩
    · have hden : q.den = 1 := by simpa [isIntegral] using hint
      have hnum : (q.num : ℚ) = q := Rat.coe_int_num_of_den_eq_one hden
      exact .inr ⟨q.num, by rw [hnum], Rat.num_pos.2 hq⟩

theorem isPositiveCount_decides : Decides isPositiveCount PositiveCount := by
  intro j
  rcases isFinitePositiveNumber_decides j with ⟨hlarge, hcheck⟩ | ⟨hlarge, ok, hcheck, hok⟩
  · exact .inl ⟨hlarge, by rw [isPositiveCount, hcheck]⟩
  · refine .inr ⟨hlarge, ok && isIntegral j, by rw [isPositiveCount, hcheck], ?_⟩
    rw [Bool.and_eq_true, hok, positiveCount_iff]

/-- What the check of a limit decides. -/
def LimitOk (field : String) (j : Json) : Prop := if field ∈ countFields then PositiveCount j else FinitePositive j

/-- A check is reached whose value is an integer without a float. -/
def ReachesTooLarge (paper : List (Text × Json)) (fields : List String) : Prop :=
  ∃ before field after, fields = before ++ field :: after ∧ (∀ f ∈ before, LimitOk f (Json.get paper f)) ∧
    TooLarge (Json.get paper field)

theorem checkFields_spec (paper : List (Text × Json)) {checks : List (String × (Json → Except LoadError Bool))}
    (h : ∀ c ∈ checks, Decides c.2 (LimitOk c.1)) :
    ReachesTooLarge paper (checks.map (·.1)) ∧ checkFields paper checks = .error .overflow ∨
      ¬ ReachesTooLarge paper (checks.map (·.1)) ∧
        ∃ ok, checkFields paper checks = .ok ok ∧ (ok = true ↔ ∀ c ∈ checks, LimitOk c.1 (Json.get paper c.1)) := by
  induction checks with
  | nil => exact .inr ⟨by simp [ReachesTooLarge], true, rfl, by simp⟩
  | cons c checks ih =>
    obtain ⟨field, check⟩ := c
    have ih := ih fun c hc => h c (List.mem_cons_of_mem _ hc)
    have hdecides : Decides check (LimitOk field) := h (field, check) List.mem_cons_self
    rcases hdecides (Json.get paper field) with ⟨hlarge, hcheck⟩ | ⟨hlarge, ok, hcheck, hok⟩
    · exact .inl ⟨⟨[], field, checks.map (·.1), rfl, by simp, hlarge⟩, by simp only [checkFields, hcheck]⟩
    · cases ok with
      | false =>
        have hno : ¬ LimitOk field (Json.get paper field) := fun hl => absurd (hok.2 hl) (by decide)
        refine .inr ⟨?_, false, by simp only [checkFields, hcheck], ?_⟩
        · -- nothing after this check is reached
          rintro ⟨before, f, after, heq, hbefore, hf⟩
          cases before with
          | nil =>
            obtain ⟨rfl, -⟩ := List.cons.inj heq
            exact hlarge hf
          | cons g before =>
            obtain ⟨rfl, -⟩ := List.cons.inj heq
            exact hno (hbefore _ List.mem_cons_self)
        · simp [hno]
      | true =>
        have hyes : LimitOk field (Json.get paper field) := hok.1 rfl
        have hreach : ReachesTooLarge paper (field :: checks.map (·.1)) ↔
            ReachesTooLarge paper (checks.map (·.1)) := by
          constructor
          · rintro ⟨before, f, after, heq, hbefore, hf⟩
            cases before with
            | nil =>
              obtain ⟨rfl, -⟩ := List.cons.inj heq
              exact absurd hf hlarge
            | cons g before =>
              obtain ⟨rfl, htail⟩ := List.cons.inj heq
              exact ⟨before, f, after, htail, fun x hx => hbefore x (List.mem_cons_of_mem _ hx), hf⟩
          · rintro ⟨before, f, after, heq, hbefore, hf⟩
            refine ⟨field :: before, f, after, by rw [heq]; rfl, fun x hx => ?_, hf⟩
            rcases List.mem_cons.1 hx with rfl | hx
            · exact hyes
            · exact hbefore x hx
        have hrun : checkFields paper ((field, check) :: checks) = checkFields paper checks := by
          simp only [checkFields, hcheck]
        rw [List.map_cons, hreach, hrun]
        refine ih.imp_right fun ⟨hno, ok, hrun, hok⟩ => ⟨hno, ok, hrun, ?_⟩
        rw [hok, List.forall_mem_cons]
        exact (and_iff_right hyes).symm

theorem limitChecks_decide : ∀ c ∈ limitChecks, Decides c.2 (LimitOk c.1) := by
  have hlimit : ∀ f ∈ limitFields, LimitOk f = FinitePositive := fun f hf => by
    have hne : f ∉ countFields := by
      revert f
      decide
    funext j
    rw [LimitOk, if_neg hne]
  have hcount : ∀ f ∈ countFields, LimitOk f = PositiveCount := fun f hf => by
    funext j
    rw [LimitOk, if_pos hf]
  intro c hc
  rcases List.mem_append.1 hc with hc | hc
  · obtain ⟨f, hf, rfl⟩ := List.mem_map.1 hc
    rw [hlimit f hf]
    exact isFinitePositiveNumber_decides
  · obtain ⟨f, hf, rfl⟩ := List.mem_map.1 hc
    rw [hcount f hf]
    exact isPositiveCount_decides

theorem limitChecks_ok {paper : List (Text × Json)} :
    (∀ c ∈ limitChecks, LimitOk c.1 (Json.get paper c.1)) ↔
      (∀ field ∈ limitFields, FinitePositive (Json.get paper field)) ∧
        ∀ field ∈ countFields, PositiveCount (Json.get paper field) := by
  simp [limitChecks, limitFields, countFields, LimitOk, and_assoc]

/-! ## The paper section and the whole object -/

/-- The limits of an enabled paper section are reached, and one that is reached is an integer without a float. -/
def PaperTooLarge (j : Json) : Prop :=
  ∃ paper, j = .dict paper ∧ Json.get paper "enabled" = .bool true ∧
    NonBlank (Json.get paper "account_id_binding") ∧ ReachesTooLarge paper (limitFields ++ countFields)

theorem loadPaperPermission_spec (j : Json) :
    PaperTooLarge j ∧ loadPaperPermission j = .error .overflow ∨
      ¬ PaperTooLarge j ∧ ∃ r, loadPaperPermission j = .ok r ∧ (r.isSome = true ↔ PaperWellFormed j) := by
  cases j with
  | null => exact .inr ⟨by simp [PaperTooLarge], some none, rfl, by simp [PaperWellFormed]⟩
  | bool b => exact .inr ⟨by simp [PaperTooLarge], none, rfl, by simp [PaperWellFormed]⟩
  | int n => exact .inr ⟨by simp [PaperTooLarge], none, rfl, by simp [PaperWellFormed]⟩
  | float x => exact .inr ⟨by simp [PaperTooLarge], none, rfl, by simp [PaperWellFormed]⟩
  | str s => exact .inr ⟨by simp [PaperTooLarge], none, rfl, by simp [PaperWellFormed]⟩
  | list xs => exact .inr ⟨by simp [PaperTooLarge], none, rfl, by simp [PaperWellFormed]⟩
  | dict paper =>
    have hlarge : PaperTooLarge (.dict paper) ↔ Json.get paper "enabled" = .bool true ∧
        NonBlank (Json.get paper "account_id_binding") ∧ ReachesTooLarge paper (limitFields ++ countFields) := by
      simp [PaperTooLarge]
    have hwell : PaperWellFormed (.dict paper) ↔
        Json.get paper "enabled" = .bool false ∨ Json.get paper "enabled" = .bool true ∧ PaperFields paper := by
      simp [PaperWellFormed]
    rw [hlarge, hwell, loadPaperPermission]
    split
    · next henabled =>
      rw [henabled]
      split
      · next haccount =>
        have hblank : ¬ NonBlank (Json.get paper "account_id_binding") := fun hb => by
          rw [isNonemptyStr_iff.2 hb] at haccount
          cases haccount
        have hbad : ¬ PaperFields paper := fun h => hblank h.account
        exact .inr ⟨fun h => hblank h.2.1, none, rfl, by simp [hbad]⟩
      · next haccount =>
        have haccount : NonBlank (Json.get paper "account_id_binding") := isNonemptyStr_iff.1 (by simpa using haccount)
        rcases checkFields_spec paper limitChecks_decide with ⟨hreach, hrun⟩ | ⟨hreach, ok, hrun, hok⟩
        · exact .inl ⟨⟨rfl, haccount, hreach⟩, by rw [hrun]⟩
        · rw [limitChecks_ok] at hok
          refine .inr ⟨fun h => hreach h.2.2, ?_⟩
          cases ok with
          | false =>
            refine ⟨none, by rw [hrun], ?_⟩
            have hbad : ¬ PaperFields paper := fun h => absurd (hok.2 ⟨h.limits, h.counts⟩) (by decide)
            simp [hbad]
          | true =>
            have hgood : PaperFields paper := ⟨haccount, (hok.1 rfl).1, (hok.1 rfl).2⟩
            exact ⟨_, by rw [hrun], by simp [hgood]⟩
    · next hdisabled => exact .inr ⟨by simp [hdisabled], _, rfl, by simp [hdisabled]⟩
    · next htrue hfalse =>
      have ht : Json.get paper "enabled" ≠ .bool true := htrue
      have hf : Json.get paper "enabled" ≠ .bool false := hfalse
      exact .inr ⟨by simp [ht], none, rfl, by simp [ht, hf]⟩

theorem loadAuthorization_spec (lib : TextLib) (raw : List (Text × Json)) :
    (AuthorizationFields lib raw ∧ PaperTooLarge (Json.get raw "paper")) ∧
        loadAuthorization lib raw = .error .overflow ∨
      ¬ (AuthorizationFields lib raw ∧ PaperTooLarge (Json.get raw "paper")) ∧
        ∃ r, loadAuthorization lib raw = .ok r ∧ (r.isSome = true ↔ WellFormed lib raw) := by
  by_cases hfields : AuthorizationFields lib raw
  · have henabled : isBoolTrue (Json.get raw "enabled") = true := isBoolTrue_iff.2 hfields.enabled
    have hstrings : requiredStrFields.all (fun field => isNonemptyStr (Json.get raw field)) = true :=
      List.all_eq_true.2 fun f hf => isNonemptyStr_iff.2 (hfields.strings f hf)
    have hack : isBoolTrue (Json.get raw "operator_acknowledged_unvalidated") = true := isBoolTrue_iff.2 hfields.acknowledged
    obtain ⟨symbols, hsymbols⟩ := Option.isSome_iff_exists.1 (symbolTexts?_isSome.2 hfields.symbols)
    obtain ⟨window, hwindow⟩ := Option.isSome_iff_exists.1 (window?_isSome.2 hfields.window)
    simp only [loadAuthorization, henabled, hstrings, hack, hsymbols, hwindow, Bool.not_true, Bool.false_eq_true,
      if_false]
    rcases loadPaperPermission_spec (Json.get raw "paper") with ⟨hlarge, hrun⟩ | ⟨hlarge, r, hrun, hr⟩
    · exact .inl ⟨⟨hfields, hlarge⟩, by rw [hrun]⟩
    · refine .inr ⟨fun h => hlarge h.2, ?_⟩
      rw [hrun]
      cases r with
      | none =>
        have hbad : ¬ WellFormed lib raw := fun h => absurd (hr.2 h.paper) (by decide)
        exact ⟨none, rfl, by simp [hbad]⟩
      | some paper =>
        have hgood : WellFormed lib raw := ⟨hfields, hr.1 rfl⟩
        exact ⟨_, rfl, by simp [hgood]⟩
  · have hbad : ¬ WellFormed lib raw := fun h => hfields h.fields
    refine .inr ⟨fun h => hfields h.1, none, ?_, by simp [hbad]⟩
    -- one of the checks before the paper section fails
    unfold loadAuthorization
    split
    · rfl
    · next henabled =>
      split
      · rfl
      · next hstrings =>
        split
        · rfl
        · next hack =>
          split
          · next symbols a e hsymbols hwindow =>
            refine absurd ⟨isBoolTrue_iff.1 (by simpa using henabled), fun f hf => ?_, isBoolTrue_iff.1 (by simpa using hack),
              symbolTexts?_isSome.1 (by rw [hsymbols]; rfl), window?_isSome.1 (by rw [hwindow]; rfl)⟩ hfields
            have hall : requiredStrFields.all (fun field => isNonemptyStr (Json.get raw field)) = true := by
              simpa using hstrings
            exact isNonemptyStr_iff.1 (List.all_eq_true.1 hall f hf)
          · rfl

/-! ## The bytes -/

/-- The decoded object of a file. -/
def Decodes (limit : ℕ) (bytes : ByteArray) (raw : List (Text × Json)) : Prop :=
  ∃ cs, readText bytes = some cs ∧ loads limit cs = .ok (.dict raw)

/-- Reading the bytes raises nothing but a `JSONDecodeError`: they are UTF-8, no integer is too long and nothing is nested
too deep, and no limit that is reached is an integer without a float. -/
structure Handled (lib : TextLib) (limit : ℕ) (bytes : ByteArray) : Prop where
  utf8 : (readText bytes).isSome = true
  digits : ∀ cs, readText bytes = some cs → loads limit cs ≠ .error .digits
  nesting : ∀ cs, readText bytes = some cs → loads limit cs ≠ .error .recursion
  limits : ∀ raw, Decodes limit bytes raw → AuthorizationFields lib raw → ¬ PaperTooLarge (Json.get raw "paper")

theorem not_decodes_of_ne {limit : ℕ} {bytes : ByteArray} {cs : Text} (hread : readText bytes = some cs)
    (h : ∀ raw, loads limit cs ≠ .ok (.dict raw)) : ¬ ∃ raw, Decodes limit bytes raw ∧ WellFormed lib raw := by
  rintro ⟨raw, ⟨cs', hread', hloads⟩, -⟩
  rw [hread] at hread'
  obtain rfl := Option.some.inj hread'
  exact h raw hloads

/-- Where the text decodes, what the loader does. -/
theorem load_of_text (lib : TextLib) (limit : ℕ) {bytes : ByteArray} {cs : Text} (hread : readText bytes = some cs) :
    (Handled lib limit bytes ∧
        ∃ r, loadExperimentalAuthorization lib limit (.content bytes) = .ok r ∧
          (r.isSome = true ↔ ∃ raw, Decodes limit bytes raw ∧ WellFormed lib raw)) ∨
      ¬ Handled lib limit bytes ∧ ∃ e, loadExperimentalAuthorization lib limit (.content bytes) = .error e := by
  have hcs : ∀ cs', readText bytes = some cs' → cs' = cs := fun cs' h => Option.some.inj (h.symm.trans hread)
  have hutf8 : (readText bytes).isSome = true := by
    rw [hread]
    rfl
  -- anything but an object is refused, and nothing is raised
  have hother : (∀ raw, loads limit cs ≠ .ok (.dict raw)) → loads limit cs ≠ .error .digits →
      loads limit cs ≠ .error .recursion → loadExperimentalAuthorization lib limit (.content bytes) = .ok none →
      Handled lib limit bytes ∧
        ∃ r, loadExperimentalAuthorization lib limit (.content bytes) = .ok r ∧
          (r.isSome = true ↔ ∃ raw, Decodes limit bytes raw ∧ WellFormed lib raw) := fun hdict hdigits hnesting hrun =>
    ⟨⟨hutf8, fun cs' h => hcs cs' h ▸ hdigits, fun cs' h => hcs cs' h ▸ hnesting, fun raw ⟨cs', h, hloads⟩ =>
        absurd (hcs cs' h ▸ hloads) (hdict raw)⟩,
      none, hrun, by simp only [Option.isSome_none, Bool.false_eq_true, not_decodes_of_ne hread hdict]⟩
  cases hloads : loads limit cs with
  | error e =>
    cases e with
    | decode =>
      exact .inl (hother (by simp [hloads]) (by simp [hloads]) (by simp [hloads])
        (by simp only [loadExperimentalAuthorization, hread, hloads]))
    | digits =>
      exact .inr ⟨fun h => h.digits cs hread hloads, .valueError, by
        simp only [loadExperimentalAuthorization, hread, hloads]⟩
    | recursion =>
      exact .inr ⟨fun h => h.nesting cs hread hloads, .recursion, by
        simp only [loadExperimentalAuthorization, hread, hloads]⟩
  | ok j =>
    cases j with
    | dict raw =>
      have hdecodes : Decodes limit bytes raw := ⟨cs, hread, hloads⟩
      have honly : ∀ raw', Decodes limit bytes raw' → raw' = raw := fun raw' ⟨cs', h, hloads'⟩ => by
        rw [hcs cs' h, hloads] at hloads'
        exact (Json.dict.inj (Except.ok.inj hloads')).symm
      have hrun : loadExperimentalAuthorization lib limit (.content bytes) = loadAuthorization lib raw := by
        simp only [loadExperimentalAuthorization, hread, hloads]
      rw [hrun]
      rcases loadAuthorization_spec lib raw with ⟨⟨hfields, hlarge⟩, hraise⟩ | ⟨hlarge, r, hret, hr⟩
      · exact .inr ⟨fun h => h.limits raw hdecodes hfields hlarge, _, hraise⟩
      · refine .inl ⟨⟨hutf8, fun cs' h => ?_, fun cs' h => ?_, fun raw' h hfields hpaper => ?_⟩, r, hret, ?_⟩
        · rw [hcs cs' h, hloads]
          nofun
        · rw [hcs cs' h, hloads]
          nofun
        · rw [honly raw' h] at hfields hpaper
          exact hlarge ⟨hfields, hpaper⟩
        · rw [hr]
          exact ⟨fun h => ⟨raw, hdecodes, h⟩, fun ⟨raw', h, hwell⟩ => honly raw' h ▸ hwell⟩
    | _ =>
      exact .inl (hother (by simp [hloads]) (by simp [hloads]) (by simp [hloads])
        (by simp only [loadExperimentalAuthorization, hread, hloads]))

/-- The loader fails closed on exactly the files whose reading raises nothing it does not catch. -/
theorem load_fails_closed_iff (lib : TextLib) (limit : ℕ) (bytes : ByteArray) :
    (∃ r, loadExperimentalAuthorization lib limit (.content bytes) = .ok r ∧
        (r.isSome = true ↔ ∃ raw, Decodes limit bytes raw ∧ WellFormed lib raw)) ↔
      Handled lib limit bytes := by
  cases hread : readText bytes with
  | none =>
    have hraise : loadExperimentalAuthorization lib limit (.content bytes) = .error .unicodeDecode := by
      simp only [loadExperimentalAuthorization, hread]
    constructor
    · rintro ⟨r, hr, -⟩
      rw [hraise] at hr
      cases hr
    · intro h
      have := h.utf8
      rw [hread] at this
      cases this
  | some cs =>
    rcases load_of_text lib limit hread with ⟨hhandled, hreturns⟩ | ⟨hhandled, e, hraise⟩
    · exact ⟨fun _ => hhandled, fun _ => hreturns⟩
    · refine ⟨?_, fun h => absurd h hhandled⟩
      rintro ⟨r, hr, -⟩
      rw [hraise] at hr
      cases hr

/-- No text is a time, and nothing is upper-cased. -/
def plainTextLib : TextLib := ⟨fun _ => none, id⟩

/-- A single byte that begins no character. -/
theorem invalid_utf8_raises :
    loadExperimentalAuthorization plainTextLib 1000 (.content ⟨#[0xFF]⟩) = .error .unicodeDecode ∧
      ¬ ∃ r, loadExperimentalAuthorization plainTextLib 1000 (.content ⟨#[0xFF]⟩) = .ok r := by
  have hread : readText ⟨#[0xFF]⟩ = none := by decide +kernel
  have hraise : loadExperimentalAuthorization plainTextLib 1000 (.content ⟨#[0xFF]⟩) = .error .unicodeDecode := by
    simp only [loadExperimentalAuthorization, hread]
  refine ⟨hraise, ?_⟩
  rintro ⟨r, hr⟩
  rw [hraise] at hr
  cases hr

end TalonX.Piv
