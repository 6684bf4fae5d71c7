import Mathlib.Algebra.Field.Rat
import Mathlib.Data.Rat.Floor
import TalonX.Core.PyFloat

/-!
# JSON texts

`json.loads` of a `str`: what it accepts beyond the standard (`NaN`, the infinities, lone surrogates), and what it raises
besides `JSONDecodeError`: the limit on the digits of an integer, and the recursion limit of nested containers.

- `Text`, `Json`, `LoadsError`: texts as code points, values, and the three kinds of exceptions;
- `toDouble`: the nearest float of an exact number, and `overflowsFloat`: the integers that have none;
- `scanString`, `scanNumber`, `scanScalar`: what is read without recursion, each with how much of the text is left;
- `scanOnce`, `scanMembers`, `scanElements`: the decoder, by recursion on the length of the text;
- `loads`.
-/

set_option autoImplicit false

namespace Transact

open TalonX.Core (PyFloat)

/-- A `str`: its code points, lone surrogates among them. -/
abbrev Text := List ℕ

def text (s : String) : Text := s.toList.map Char.toNat

inductive Json
  | null
  | bool (b : Bool)
  | int (n : ℤ)
  | float (x : PyFloat)
  | str (s : Text)
  | list (xs : List Json)
  | dict (members : List (Text × Json))

/-- `dict.get`: of equal keys the last one counts, and a missing key reads as `None`. -/
def Json.get (members : List (Text × Json)) (key : String) : Json :=
  ((members.reverse.find? (·.1 == text key)).map (·.2)).getD .null

/-- `JSONDecodeError`, the `ValueError` of a long integer, and `RecursionError`. -/
inductive LoadsError
  | decode
  | digits
  | recursion
  deriving DecidableEq

/-! ## Floats -/

/-- Rounding half to even. -/
def roundHalfEven (q : ℚ) : ℤ :=
  let f := ⌊q⌋
  if q - f < 1 / 2 then f else if 1 / 2 < q - f then f + 1 else if f % 2 = 0 then f else f + 1

/-- The binary exponent of a positive number. -/
def binaryExponent (q : ℚ) : ℤ :=
  let e : ℤ := q.num.toNat.log2 - q.den.log2
  if q < (2 : ℚ) ^ e then e - 1 else e

/-- The nearest float: 53 bits, subnormal below `2 ^ -1022`, infinite from `2 ^ 1024` on. -/
def toDouble (q : ℚ) : PyFloat :=
  if q = 0 then .fin 0
  else
    let unit : ℚ := 2 ^ max (binaryExponent |q| - 52) (-1074)
    let r := roundHalfEven (|q| / unit) * unit
    if 2 ^ 1024 ≤ r then .inf (q < 0) else .fin (if q < 0 then -r else r)

/-- The conversion of the integer to a float raises `OverflowError`: it would be rounded to `2 ^ 1024`. -/
def overflowsFloat (n : ℤ) : Bool := 2 ^ 1024 - 2 ^ 970 ≤ |n|

/-! ## Scalars -/

def isDigit (c : ℕ) : Bool := 48 ≤ c && c ≤ 57

def skipSpace (cs : Text) : Text := cs.dropWhile fun c => c == 32 || c == 9 || c == 10 || c == 13

def hexDigit? (c : ℕ) : Option ℕ :=
  if isDigit c then some (c - 48)
  else if 97 ≤ c && c ≤ 102 then some (c - 87)
  else if 65 ≤ c && c ≤ 70 then some (c - 55)
  else none

def hex4? (a b c d : ℕ) : Option ℕ :=
  match hexDigit? a, hexDigit? b, hexDigit? c, hexDigit? d with
  | some a, some b, some c, some d => some (((a * 16 + b) * 16 + c) * 16 + d)
  | _, _, _, _ => none

/-- The escapes of one character. -/
def simpleEscape? (c : ℕ) : Option ℕ :=
  if c == 34 || c == 92 || c == 47 then some c
  else if c == 98 then some 8
  else if c == 102 then some 12
  else if c == 110 then some 10
  else if c == 114 then some 13
  else if c == 116 then some 9
  else none

def isHighSurrogate (u : ℕ) : Bool := 0xD800 ≤ u && u ≤ 0xDBFF

def isLowSurrogate (u : ℕ) : Bool := 0xDC00 ≤ u && u ≤ 0xDFFF

/-- `\uXXXX` after the backslash, joined with a low surrogate that follows a high one: the code point and what is left. -/
def scanUnicode (cs : Text) : Option (ℕ × Text) :=
  match cs with
  | 117 :: a :: b :: c :: d :: cs =>
    (hex4? a b c d).map fun u =>
      match cs with
      | 92 :: 117 :: e :: f :: g :: h :: cs' =>
        match (hex4? e f g h).filter fun v => isHighSurrogate u && isLowSurrogate v with
        | some v => (0x10000 + (u - 0xD800) * 0x400 + (v - 0xDC00), cs')
        | none => (u, cs)
      | _ => (u, cs)
  | _ => none

theorem scanUnicode_length {cs rest : Text} {u : ℕ} (h : scanUnicode cs = some (u, rest)) :
    rest.length < cs.length := by
  unfold scanUnicode at h
  split at h
  · obtain ⟨v, -, h⟩ := Option.map_eq_some_iff.1 h
    split at h
    · split at h <;> obtain ⟨-, rfl⟩ := Prod.mk.inj h <;> simp only [List.length_cons] <;> omega
    · obtain ⟨-, rfl⟩ := Prod.mk.inj h
      simp only [List.length_cons]
      omega
  · cases h

/-- `scanstring`, after the opening quote; control characters are refused. -/
def scanString (acc : Text) (cs : Text) : Except LoadsError (Text × Text) :=
  match cs with
  | [] => .error .decode
  | 34 :: cs => .ok (acc.reverse, cs)
  | 92 :: cs =>
    match h : scanUnicode cs with
    | some (u, rest) =>
      have := scanUnicode_length h
      scanString (u :: acc) rest
    | none =>
      match cs with
      | [] => .error .decode
      | c :: cs =>
        match simpleEscape? c with
        | some x => scanString (x :: acc) cs
        | none => .error .decode
  | c :: cs => if c < 32 then .error .decode else scanString (c :: acc) cs
termination_by cs.length

theorem scanString_length {acc cs s rest : Text} (h : scanString acc cs = .ok (s, rest)) :
    rest.length < cs.length := by
  fun_induction scanString acc cs with
  | case1 => cases h
  | case2 acc cs =>
    obtain ⟨-, rfl⟩ := Prod.mk.inj (Except.ok.inj h)
    exact Nat.lt_succ_self _
  | case3 acc cs u rest' hu hlt ih =>
    have := ih h
    simp only [List.length_cons]
    omega
  | case4 => cases h
  | case5 acc c cs hu x hx ih =>
    have := ih h
    simp only [List.length_cons]
    omega
  | case6 => cases h
  | case7 => cases h
  | case8 acc c cs _ _ _ ih =>
    have := ih h
    simp only [List.length_cons]
    omega

/-- The number that digits write. -/
def digitsValue (ds : List ℕ) : ℕ := ds.foldl (fun n d => n * 10 + (d - 48)) 0

/-- An optional minus sign. -/
def scanSign (cs : Text) : Bool × Text :=
  match cs with
  | 45 :: cs => (true, cs)
  | cs => (false, cs)

/-- An optional sign of an exponent. -/
def scanExponentSign (cs : Text) : Bool × Text :=
  match cs with
  | 43 :: cs => (false, cs)
  | cs => scanSign cs

/-- The integer part: a single zero, or digits that do not begin with one. -/
def scanInteger (cs : Text) : Option (List ℕ × Text) :=
  match cs with
  | 48 :: cs => some ([48], cs)
  | c :: cs => if isDigit c then some (c :: cs.takeWhile isDigit, cs.dropWhile isDigit) else none
  | [] => none

/-- A fraction: the point counts only with a digit after it. -/
def scanFraction (cs : Text) : Option (List ℕ × Text) :=
  match cs with
  | 46 :: d :: cs => if isDigit d then some (d :: cs.takeWhile isDigit, cs.dropWhile isDigit) else none
  | _ => none

/-- An exponent: the letter counts only with a digit after it and its sign. -/
def scanExponent (cs : Text) : Option (ℤ × Text) :=
  match cs with
  | e :: cs =>
    if e == 101 || e == 69 then
      match (scanExponentSign cs).2 with
      | d :: tail =>
        if isDigit d then
          let n : ℤ := digitsValue (d :: tail.takeWhile isDigit)
          some (if (scanExponentSign cs).1 then -n else n, tail.dropWhile isDigit)
        else none
      | [] => none
    else none
  | [] => none

/-- `sys.get_int_max_str_digits()`. -/
def intMaxStrDigits : ℕ := 4300

/-- `_match_number`: an integer unless there is a fraction or an exponent. -/
def scanNumber (cs : Text) : Except LoadsError (Json × Text) :=
  let negative := (scanSign cs).1
  match scanInteger (scanSign cs).2 with
  | none => .error .decode
  | some (whole, tail) =>
    let fraction := (scanFraction tail).getD ([], tail)
    let exponent := (scanExponent fraction.2).getD (0, fraction.2)
    if (scanFraction tail).isNone && (scanExponent fraction.2).isNone then
      if intMaxStrDigits < whole.length then .error .digits
      else .ok (.int (if negative then -(digitsValue whole : ℤ) else digitsValue whole), exponent.2)
    else
      let q : ℚ := digitsValue (whole ++ fraction.1) * 10 ^ (exponent.1 - fraction.1.length)
      .ok (.float (toDouble (if negative then -q else q)), exponent.2)

theorem length_dropWhile_le (p : ℕ → Bool) (cs : Text) : (cs.dropWhile p).length ≤ cs.length :=
  (List.dropWhile_suffix p).length_le

theorem scanSign_length (cs : Text) : (scanSign cs).2.length ≤ cs.length := by
  unfold scanSign
  split
  · exact Nat.le_succ _
  · exact le_rfl

theorem scanExponentSign_length (cs : Text) : (scanExponentSign cs).2.length ≤ cs.length := by
  unfold scanExponentSign
  split
  · exact Nat.le_succ _
  · exact scanSign_length _

theorem scanInteger_length {cs ds rest : Text} (h : scanInteger cs = some (ds, rest)) : rest.length < cs.length := by
  unfold scanInteger at h
  split at h
  · obtain ⟨-, rfl⟩ := Prod.mk.inj (Option.some.inj h)
    exact Nat.lt_succ_self _
  · split at h
    · obtain ⟨-, rfl⟩ := Prod.mk.inj (Option.some.inj h)
      exact Nat.lt_succ_of_le (length_dropWhile_le _ _)
    · cases h
  · cases h

theorem scanFraction_length (cs : Text) : ((scanFraction cs).getD ([], cs)).2.length ≤ cs.length := by
  unfold scanFraction
  split
  · next d cs =>
    split
    · have := length_dropWhile_le isDigit cs
      simp only [Option.getD_some, List.length_cons]
      omega
    · exact le_rfl
  · exact le_rfl

theorem scanExponent_length (cs : Text) : ((scanExponent cs).getD (0, cs)).2.length ≤ cs.length := by
  unfold scanExponent
  split
  · next e cs =>
    split
    · split
      · next d tail htail =>
        split
        · have hsign := scanExponentSign_length cs
          have := length_dropWhile_le isDigit tail
          rw [htail] at hsign
          simp only [Option.getD_some, List.length_cons] at hsign ⊢
          omega
        · exact le_rfl
      · exact le_rfl
    · exact le_rfl
  · exact le_rfl

theorem scanNumber_length {cs rest : Text} {j : Json} (h : scanNumber cs = .ok (j, rest)) :
    rest.length < cs.length := by
  unfold scanNumber at h
  dsimp only at h
  split at h
  · cases h
  · next whole tail hwhole =>
    have hsign := scanSign_length cs
    have hwhole := scanInteger_length hwhole
    have hfraction := scanFraction_length tail
    have hexponent := scanExponent_length ((scanFraction tail).getD ([], tail)).2
    split at h
    · split at h
      · cases h
      · obtain ⟨-, rfl⟩ := Prod.mk.inj (Except.ok.inj h)
        omega
    · obtain ⟨-, rfl⟩ := Prod.mk.inj (Except.ok.inj h)
      omega

/-- The names of constants, and what they are. -/
def literals : List (String × Json) :=
  [("null", .null), ("true", .bool true), ("false", .bool false), ("NaN", .float .nan),
    ("Infinity", .float (.inf false)), ("-Infinity", .float (.inf true))]

def scanLiteral (cs : Text) : Option (Json × Text) :=
  (literals.find? fun l => (text l.1).isPrefixOf cs).map fun l => (l.2, cs.drop (text l.1).length)

theorem literals_nonempty : ∀ l ∈ literals, 0 < (text l.1).length := by decide +kernel

theorem scanLiteral_length {cs rest : Text} {j : Json} (h : scanLiteral cs = some (j, rest)) :
    rest.length < cs.length := by
  obtain ⟨l, hl, h⟩ := Option.map_eq_some_iff.1 h
  obtain ⟨-, rfl⟩ := Prod.mk.inj h
  have hprefix : text l.1 <+: cs := List.isPrefixOf_iff_prefix.1 (by simpa using List.find?_some hl)
  have hle := hprefix.length_le
  have hpos := literals_nonempty l (List.mem_of_find?_eq_some hl)
  rw [List.length_drop]
  omega

/-- What begins with neither a brace nor a bracket. -/
def scanScalar (cs : Text) : Except LoadsError (Json × Text) :=
  match cs with
  | 34 :: cs =>
    match scanString [] cs with
    | .error e => .error e
    | .ok (s, rest) => .ok (.str s, rest)
  | cs =>
    match scanLiteral cs with
    | some (j, rest) => .ok (j, rest)
    | none => scanNumber cs

theorem scanScalar_length {cs rest : Text} {j : Json} (h : scanScalar cs = .ok (j, rest)) :
    rest.length < cs.length := by
  unfold scanScalar at h
  split at h
  · split at h
    · cases h
    · next hs =>
      obtain ⟨-, rfl⟩ := Prod.mk.inj (Except.ok.inj h)
      exact Nat.lt_succ_of_lt (scanString_length hs)
  · split at h
    · next hl =>
      obtain ⟨-, rfl⟩ := Prod.mk.inj (Except.ok.inj h)
      exact scanLiteral_length hl
    · exact scanNumber_length h

/-! ## Containers -/

/-- What is left of a text of `n` code points after something was read. -/
abbrev Left (n : ℕ) := {rest : Text // rest.length < n}

/-- What is left of a part is left of the whole. -/
def Left.weaken {m n : ℕ} (h : m ≤ n) (rest : Left m) : Left n := ⟨rest.1, Nat.lt_of_lt_of_le rest.2 h⟩

theorem skipSpace_length (cs : Text) : (skipSpace cs).length ≤ cs.length := length_dropWhile_le _ cs

/-- The text begins with this code point. -/
def expect (c : ℕ) (cs : Text) : Option (Left cs.length) :=
  match cs with
  | [] => none
  | d :: cs => if d = c then some ⟨cs, Nat.lt_succ_self _⟩ else none

mutual

/-- `scan_once`; `depth` more containers may be entered. -/
def scanOnce (depth : ℕ) (cs : Text) : Except LoadsError (Json × Left cs.length) :=
  match cs with
  | 123 :: cs =>
    match depth with
    | 0 => .error .recursion
    | depth + 1 =>
      have hskip := skipSpace_length cs
      match expect 125 (skipSpace cs) with
      | some rest => .ok (.dict [], rest.weaken (by simp only [List.length_cons]; omega))
      | none =>
        match scanMembers depth [] (skipSpace cs) with
        | .error e => .error e
        | .ok (j, rest) => .ok (j, rest.weaken (by simp only [List.length_cons]; omega))
  | 91 :: cs =>
    match depth with
    | 0 => .error .recursion
    | depth + 1 =>
      have hskip := skipSpace_length cs
      match expect 93 (skipSpace cs) with
      | some rest => .ok (.list [], rest.weaken (by simp only [List.length_cons]; omega))
      | none =>
        match scanElements depth [] (skipSpace cs) with
        | .error e => .error e
        | .ok (j, rest) => .ok (j, rest.weaken (by simp only [List.length_cons]; omega))
  | cs =>
    match h : scanScalar cs with
    | .error e => .error e
    | .ok (j, rest) => .ok (j, ⟨rest, scanScalar_length h⟩)
termination_by (cs.length, 0)

/-- The members of an object from a key on. -/
def scanMembers (depth : ℕ) (acc : List (Text × Json)) (cs : Text) : Except LoadsError (Json × Left cs.length) :=
  match expect 34 cs with
  | none => .error .decode
  | some quoted =>
    match hk : scanString [] quoted.1 with
    | .error e => .error e
    | .ok (key, afterKey) =>
      match expect 58 (skipSpace afterKey) with
      | none => .error .decode
      | some afterColon =>
        have hkey := scanString_length hk
        have hskip := skipSpace_length afterKey
        have hcolon := skipSpace_length afterColon.1
        match scanOnce depth (skipSpace afterColon.1) with
        | .error e => .error e
        | .ok (value, afterValue) =>
          have hvalue := skipSpace_length afterValue.1
          match expect 125 (skipSpace afterValue.1) with
          | some rest => .ok (.dict ((key, value) :: acc).reverse, rest.weaken (by omega))
          | none =>
            match expect 44 (skipSpace afterValue.1) with
            | none => .error .decode
            | some afterComma =>
              have hcomma := skipSpace_length afterComma.1
              match scanMembers depth ((key, value) :: acc) (skipSpace afterComma.1) with
              | .error e => .error e
              | .ok (j, rest) => .ok (j, rest.weaken (by omega))
termination_by (cs.length, 1)

/-- The elements of an array from a value on. -/
def scanElements (depth : ℕ) (acc : List Json) (cs : Text) : Except LoadsError (Json × Left cs.length) :=
  match scanOnce depth cs with
  | .error e => .error e
  | .ok (value, afterValue) =>
    have hvalue := skipSpace_length afterValue.1
    match expect 93 (skipSpace afterValue.1) with
    | some rest => .ok (.list (value :: acc).reverse, rest.weaken (by omega))
    | none =>
      match expect 44 (skipSpace afterValue.1) with
      | none => .error .decode
      | some afterComma =>
        have hcomma := skipSpace_length afterComma.1
        match scanElements depth (value :: acc) (skipSpace afterComma.1) with
        | .error e => .error e
        | .ok (j, rest) => .ok (j, rest.weaken (by omega))
termination_by (cs.length, 1)

end

/-- `json.loads` of a text; `limit` containers may be nested where it is called. -/
def loads (limit : ℕ) (cs : Text) : Except LoadsError Json :=
  if cs.head? = some 0xFEFF then .error .decode
  else
    match scanOnce limit (skipSpace cs) with
    | .error e => .error e
    | .ok (j, rest) => if (skipSpace rest.1).isEmpty then .ok j else .error .decode

end Transact
