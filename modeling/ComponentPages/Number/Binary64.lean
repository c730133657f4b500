/-!
# Doubles

Magnitudes of double precision as exact numbers: a whole number of at most 53 bits times a power of
two. Signs are kept elsewhere.

- **`Binary64`** — the type.
- **`Binary64.ofRatio?`** — the double nearest to a ratio, a tie going to the even one.
- **`Binary64.mul?`**, **`Binary64.div?`** — exact product and quotient, rounded once.
- **`Binary64.ofDecimal?`** — a decimal as it is read: its digits are rounded, and then the result
  of each scaling by a power of ten.
-/

namespace ComponentPages

/-- A finite magnitude `mantissa * 2 ^ exponent`. -/
structure Binary64 where
  mantissa : Nat
  exponent : Int
deriving DecidableEq, Repr, Inhabited

/-- The quotient rounded to the nearest whole number, a tie to the even one. -/
def roundHalfEven (num den : Nat) : Nat :=
  let floor := num / den
  let rest := 2 * (num % den)
  if rest < den then floor
  else if den < rest then floor + 1
  else floor + floor % 2

/-- The ratio `num / den` divided by `2 ^ e`, as a ratio. -/
def overPowTwo (num den : Nat) (e : Int) : Nat × Nat :=
  if 0 ≤ e then (num, den * Nat.pow 2 e.toNat) else (num * Nat.pow 2 (-e).toNat, den)

/-- The ratio `num / den` divided by `10 ^ e`, as a ratio. -/
def overPowTen (num den : Nat) (e : Int) : Nat × Nat :=
  if 0 ≤ e then (num, den * Nat.pow 10 e.toNat) else (num * Nat.pow 10 (-e).toNat, den)

namespace Binary64

/-- The exponent of the smallest magnitudes. -/
def minExponent : Int := -1074

/-- The exponent of the largest magnitudes. -/
def maxExponent : Int := 971

/-- Zero. -/
def zero : Binary64 := ⟨0, minExponent⟩

/-- The number of times that two goes into `num / den`, rounded down; neither is zero. -/
def log2Ratio (num den : Nat) : Int :=
  let guess : Int := num.log2 - den.log2
  let (n, d) := overPowTwo num den guess
  if d ≤ n then guess else guess - 1

/-- The double nearest to a ratio with a denominator above zero; nothing beyond the largest. -/
def ofRatio? (num den : Nat) : Option Binary64 :=
  if num = 0 then some zero
  else
    -- the place of the last of 53 bits, but not below the smallest magnitude
    let e := max (log2Ratio num den - 52) minExponent
    let (n, d) := overPowTwo num den e
    let m := roundHalfEven n d
    -- rounding up can carry into one bit more
    let result : Binary64 := if m = Nat.pow 2 53 then ⟨Nat.pow 2 52, e + 1⟩ else ⟨m, e⟩
    if result.exponent ≤ maxExponent then some result else none

/-- The double nearest to a product. -/
def mul? (a b : Binary64) : Option Binary64 :=
  let (n, d) := overPowTwo (a.mantissa * b.mantissa) 1 (-(a.exponent + b.exponent))
  ofRatio? n d

/-- The double nearest to a quotient by a number other than zero. -/
def div? (a b : Binary64) : Option Binary64 :=
  let (n, d) := overPowTwo a.mantissa b.mantissa (b.exponent - a.exponent)
  ofRatio? n d

/-- The double nearest to a power of ten. -/
def tenPow? (e : Nat) : Option Binary64 := ofRatio? (Nat.pow 10 e) 1

/-- The largest power of ten that a scaling uses. -/
def maxTenPow : Nat := 308

/-- A double divided `n` times by another, rounded each time. Zero stays zero. -/
def divRepeatedly? (b : Binary64) : Nat → Binary64 → Option Binary64
  | 0, a => some a
  | n + 1, a => if a.mantissa = 0 then some a else (a.div? b).bind (divRepeatedly? b n)

/-- A double divided by `10 ^ e`: first by `10 ^ 308` while the exponent is larger, then by what is
left of the power. -/
def scaleDown? (a : Binary64) (e : Nat) : Option Binary64 :=
  let steps := (e - 1) / maxTenPow
  let largest := (tenPow? maxTenPow).bind fun b => divRepeatedly? b steps a
  largest.bind fun a => (tenPow? (e - maxTenPow * steps)).bind a.div?

/-- A double times `10 ^ e`; nothing where that is too large. -/
def scale? (a : Binary64) (e : Int) : Option Binary64 :=
  if e < 0 then a.scaleDown? (-e).toNat
  else if e ≤ maxTenPow then (tenPow? e.toNat).bind a.mul?
  -- beyond the largest power of ten only zero has a double
  else if a.mantissa = 0 then some a
  else none

/-- The double that is read for `digits * 10 ^ e`. -/
def ofDecimal? (digits : Nat) (e : Int) : Option Binary64 :=
  (ofRatio? digits 1).bind fun a => a.scale? e

end Binary64

end ComponentPages
