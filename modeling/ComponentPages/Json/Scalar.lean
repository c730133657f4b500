import ComponentPages.Json.Reader

/-!
# Strings and numbers of JSON

Strings and numbers are read in two ways: strictly, for their value, or leniently, where the value
is only passed over and pairs of surrogates and the size of numbers do not matter.

- **`Strictness`** — the two ways.
- **`readString`** — the characters of a string after its opening quotation mark.
- **`readNumber`** — a number.
-/

namespace ComponentPages

/-- How closely strings and numbers are looked at. -/
inductive Strictness where
  /-- Read for the value. -/
  | strict
  /-- Passed over. -/
  | lenient
deriving DecidableEq, Repr

/-! ## Strings -/

/-- The value of a hexadecimal digit. -/
def hexDigit? (c : Char) : Option Nat :=
  if c.isDigit then some (c.toNat - '0'.toNat)
  else if 'a' ≤ c ∧ c ≤ 'f' then some (c.toNat - 'a'.toNat + 10)
  else if 'A' ≤ c ∧ c ≤ 'F' then some (c.toNat - 'A'.toNat + 10)
  else none

/-- The value of four hexadecimal digits. -/
def hexValue? (a b c d : Char) : Option Nat :=
  match hexDigit? a, hexDigit? b, hexDigit? c, hexDigit? d with
  | some a, some b, some c, some d => some (((a * 16 + b) * 16 + c) * 16 + d)
  | _, _, _, _ => none

/-- The four hexadecimal digits of an escape. The text ends too early if fewer than four bytes are
left of it. -/
def readHex : Reader Nat := fun s =>
  match s with
  | a :: b :: c :: d :: rest =>
    match hexValue? a b c d with
    | some n => .ok ⟨n, rest, by simp only [List.length_cons]; omega⟩
    | none => .error .malformed
  -- four bytes can be there without being four characters
  | _ => if utf8Length s < 4 then .error .unfinished else .error .malformed

/-- The first half of a pair of surrogates. -/
def isHighSurrogate (n : Nat) : Bool := 0xD800 ≤ n && n ≤ 0xDBFF

/-- The second half of a pair of surrogates. -/
def isLowSurrogate (n : Nat) : Bool := 0xDC00 ≤ n && n ≤ 0xDFFF

/-- The character that a pair of surrogates stands for. -/
def surrogatePair (high low : Nat) : Char :=
  Char.ofNat ((high - 0xD800) * 0x400 + (low - 0xDC00) + 0x10000)

/-- The second half of a pair of surrogates, as an escape of its own. -/
def readLowSurrogate : Reader Nat := fun s =>
  match s with
  | [] => .error .unfinished
  | ['\\'] => .error .unfinished
  | '\\' :: 'u' :: rest =>
    match readHex rest with
    | .error e => .error e
    | .ok low =>
      if isLowSurrogate low.value then .ok (low.widen (by simp only [List.length_cons]; omega))
      else .error .malformed
  | _ => .error .malformed

/-- The character of a numeric escape after its `u`. -/
def readCodePoint (mode : Strictness) : Reader Char := fun s =>
  match readHex s with
  | .error e => .error e
  | .ok n =>
    match mode with
    | .lenient => .ok (n.map Char.ofNat)
    | .strict =>
      -- the second half of a pair cannot come first, and the first cannot stand alone
      if isLowSurrogate n.value then .error .malformed
      else if isHighSurrogate n.value then
        match readLowSurrogate n.rest with
        | .error e => .error e
        | .ok low =>
          .ok ⟨surrogatePair n.value low.value, low.rest, Nat.lt_trans low.shorter n.shorter⟩
      else .ok (n.map Char.ofNat)

/-- The characters that a backslash and a letter or mark stand for. -/
def simpleEscape? (c : Char) : Option Char :=
  match c with
  | '"' => some '"'
  | '\\' => some '\\'
  | '/' => some '/'
  | 'b' => some '\x08'
  | 'f' => some '\x0c'
  | 'n' => some '\n'
  | 'r' => some '\r'
  | 't' => some '\t'
  | _ => none

/-- The character of an escape after its backslash. -/
def readEscape (mode : Strictness) : Reader Char := fun s =>
  match s with
  | [] => .error .unfinished
  | c :: rest =>
    match simpleEscape? c with
    | some d => .ok ⟨d, rest, Nat.lt_succ_self _⟩
    | none =>
      if c = 'u' then (readCodePoint mode rest).map (·.widen (Nat.le_succ _))
      else .error .malformed

/-- The characters of a string after its opening quotation mark, and past the closing one. -/
def readString (mode : Strictness) (s : Text) : Except Fault (Read Text s) :=
  match s with
  | [] => .error .unfinished
  | '"' :: rest => .ok ⟨[], rest, by simp⟩
  | '\\' :: rest =>
    match readEscape mode rest with
    | .error e => .error e
    | .ok c =>
      have hc : c.rest.length < ('\\' :: rest).length := Nat.lt_succ_of_lt c.shorter
      match readString mode c.rest with
      | .error e => .error e
      | .ok more => .ok ⟨c.value :: more.value, more.rest, Nat.lt_trans more.shorter hc⟩
  | c :: rest =>
    if c.toNat < 0x20 then .error .malformed
    else
      match readString mode rest with
      | .error e => .error e
      | .ok more => .ok ⟨c :: more.value, more.rest, Nat.lt_succ_of_lt more.shorter⟩
termination_by s.length
decreasing_by
  · exact hc
  · exact Nat.lt_succ_self _

/-! ## Numbers -/

/-- The written parts of a number. -/
structure NumberParts where
  negative : Bool
  /-- The digits before the point. -/
  whole : Text
  /-- The digits after the point, if there is one. -/
  fraction : Option Text
  /-- The exponent, if there is one. -/
  exponent : Option Int
deriving DecidableEq, Repr

/-- The digits at the front of a text. -/
def leadingDigits (s : Text) : Text := s.takeWhile Char.isDigit

/-- The text after its leading digits. -/
def afterDigits (s : Text) : Text := s.dropWhile Char.isDigit

/-- The number that a row of digits writes. -/
def digitsValue (ds : Text) : Nat := ds.foldl (fun n d => 10 * n + (d.toNat - '0'.toNat)) 0

/-- The fault of a number that breaks off before `s`: `short` if the text ends there. -/
def breakFault (short : Fault) (s : Text) : Fault := if s.isEmpty then short else .malformed

theorem length_afterDigits_le (s : Text) : (afterDigits s).length ≤ s.length :=
  (List.dropWhile_sublist _).length_le

/-- One digit or more, and the text after them. -/
def readDigits (short : Fault) (s : Text) : Except Fault (Text × Rest s) :=
  match leadingDigits s with
  | [] => .error (breakFault short s)
  | ds => .ok (ds, ⟨afterDigits s, length_afterDigits_le s⟩)

/-- The digits after a point, if the text begins with one. -/
def readFraction (short : Fault) (s : Text) : Except Fault (Option Text × Rest s) :=
  match s with
  | '.' :: rest =>
    (readDigits short rest).map fun (ds, r) => (some ds, r.behind '.')
  | t => .ok (none, Rest.whole t)

/-- The sign of an exponent, and the text after it. -/
def readSign (s : Text) : Bool × Rest s :=
  match s with
  | '-' :: rest => (true, ⟨rest, Nat.le_succ _⟩)
  | '+' :: rest => (false, ⟨rest, Nat.le_succ _⟩)
  | t => (false, Rest.whole t)

/-- The exponent, if the text begins with one. -/
def readExponent (short : Fault) (s : Text) : Except Fault (Option Int × Rest s) :=
  let exponent (c : Char) (rest : Text) : Except Fault (Option Int × Rest (c :: rest)) :=
    let (negative, r) := readSign rest
    (readDigits short r.1).map fun (ds, r') =>
      let n : Int := digitsValue ds
      (some (if negative then -n else n), ⟨r'.1, Nat.le_succ_of_le (Nat.le_trans r'.2 r.2)⟩)
  match s with
  | 'e' :: rest => exponent 'e' rest
  | 'E' :: rest => exponent 'E' rest
  | t => .ok (none, Rest.whole t)

/-- The digits before the point: a zero stands alone. -/
def readWhole (short : Fault) (s : Text) : Except Fault (Read Text s) :=
  match s with
  | [] => .error short
  | c :: rest =>
    if c = '0' then
      if (leadingDigits rest).isEmpty then .ok ⟨['0'], rest, Nat.lt_succ_self _⟩
      else .error .malformed
    else if c.isDigit then
      .ok ⟨c :: leadingDigits rest, afterDigits rest,
        Nat.lt_succ_of_le (length_afterDigits_le rest)⟩
    else .error .malformed

/-- The parts of a number after its sign. -/
def readUnsigned (short : Fault) (negative : Bool) : Reader NumberParts := fun s =>
  match readWhole short s with
  | .error e => .error e
  | .ok whole =>
    match readFraction short whole.rest with
    | .error e => .error e
    | .ok (fraction, r) =>
      match readExponent short r.1 with
      | .error e => .error e
      | .ok (exponent, r') =>
        .ok ⟨⟨negative, whole.value, fraction, exponent⟩, r'.1,
          Nat.lt_of_le_of_lt (Nat.le_trans r'.2 r.2) whole.shorter⟩

/-- The parts of a number. -/
def readParts (short : Fault) : Reader NumberParts := fun s =>
  match s with
  | '-' :: rest => (readUnsigned short true rest).map (·.widen (Nat.le_succ _))
  | t => readUnsigned short false t

/-- The largest significand. -/
def maxSignificand : Nat := Nat.pow 2 64 - 1

/-- Appends digits to a significand while it fits into 64 bits: the significand, how many digits
were taken, and how many were not. -/
def absorbDigits (n : Nat) : Text → Nat × Nat × Nat
  | [] => (n, 0, 0)
  | d :: ds =>
    let next := 10 * n + (d.toNat - '0'.toNat)
    if next ≤ maxSignificand then
      let (m, taken, left) := absorbDigits next ds
      (m, taken + 1, left)
    else (n, 0, ds.length + 1)

/-- The value of a number: a whole number where it is written as one and fits into 64 bits, and
else a double, unless it is too large for one. Digits that do not fit into 64 bits only count for
the size of the number. -/
def NumberParts.value? (p : NumberParts) : Option JsonNumber :=
  let (n, _, left) := absorbDigits 0 p.whole
  match p.fraction, p.exponent, left with
  -- whole numbers that fit stay whole; minus zero does not
  | none, none, 0 =>
    if !p.negative then some (.whole n)
    else if 0 < n ∧ n ≤ Nat.pow 2 63 then some (.whole (-n))
    else (Binary64.ofRatio? n 1).map (.real true)
  | fraction, exponent, _ =>
    -- a digit after the point counts only if it is taken, one before it always
    let (m, taken, _) := absorbDigits n (fraction.getD [])
    let e : Int := left - taken + exponent.getD 0
    (Binary64.ofDecimal? m e).map (.real p.negative)

/-- A number. Passed over leniently, it has no value. -/
def readNumber (mode : Strictness) : Reader JsonNumber := fun s =>
  match mode with
  | .lenient => (readParts .malformed s).map fun r => r.map fun _ => .whole 0
  | .strict =>
    match readParts .unfinished s with
    | .error e => .error e
    | .ok r =>
      match r.value.value? with
      | some n => .ok (r.map fun _ => n)
      | none => .error .malformed

end ComponentPages
