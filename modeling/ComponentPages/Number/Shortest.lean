import ComponentPages.Number.Binary64

/-!
# Shortest decimals

The decimal with the fewest digits that is read back as a given double.

- **`Decimal`** — digits times a power of ten.
- **`Binary64.shortest`** — the decimal with the fewest digits in the double's rounding interval; of
  several the one nearest to the double.
-/

namespace ComponentPages

/-- The number `digits * 10 ^ exponent`. -/
structure Decimal where
  digits : Nat
  exponent : Int
deriving DecidableEq, Repr, Inhabited

/-- The number of decimal digits of a whole number. -/
def digitCount (n : Nat) : Nat := (Nat.toDigits 10 n).length

namespace Decimal

/-- The same number without zeros at the end of its digits, unless it is zero. -/
def trimZeros (d : Decimal) : Decimal :=
  if h : d.digits = 0 then d
  else if d.digits % 10 = 0 then trimZeros ⟨d.digits / 10, d.exponent + 1⟩ else d
termination_by d.digits
decreasing_by exact Nat.div_lt_self (Nat.pos_of_ne_zero h) (by decide)

end Decimal

namespace Binary64

/-- Four times the double as a whole number of units, with the power of two that a unit is. -/
def quarters (a : Binary64) : Nat := 4 * a.mantissa

/-- The lower end of the numbers that round to the double, in quarters of its last place. Below a
power of two the neighbours are closer. -/
def lowerQuarters (a : Binary64) : Nat :=
  if a.mantissa = Nat.pow 2 52 ∧ minExponent < a.exponent then a.quarters - 1 else a.quarters - 2

/-- The upper end, in quarters of the last place. -/
def upperQuarters (a : Binary64) : Nat := a.quarters + 2

/-- Compares `n` quarters of the last place with a decimal: both sides brought to whole numbers. -/
def compareQuarters (a : Binary64) (n : Nat) (d : Decimal) : Ordering :=
  let (l, r) := overPowTwo n 1 (2 - a.exponent)
  let (l', r') := overPowTen d.digits 1 (-d.exponent)
  compare (l * r') (l' * r)

/-- Whether a decimal is read back as the double: it lies between the ends, which count only if
the mantissa is even. -/
def covers (a : Binary64) (d : Decimal) : Bool :=
  let ends := a.mantissa % 2 == 0
  (match a.compareQuarters a.lowerQuarters d with
    | .lt => true
    | .eq => ends
    | .gt => false) &&
  (match a.compareQuarters a.upperQuarters d with
    | .gt => true
    | .eq => ends
    | .lt => false)

/-- The double as a ratio of whole numbers. -/
def ratio (a : Binary64) : Nat × Nat := overPowTwo a.mantissa 1 (-a.exponent)

/-- The exponent of the first decimal digit of a double above zero. -/
def leadingExponent (a : Binary64) : Int :=
  let (n, d) := a.ratio
  let guess : Int := (digitCount n : Int) - digitCount d
  let (n', d') := overPowTen n d guess
  if d' ≤ n' then guess else guess - 1

/-- The neighbours of the double among the multiples of `10 ^ e` that are read back as it, the
nearer first. -/
def neighbours (a : Binary64) (e : Int) : List Decimal :=
  let (n, d) := a.ratio
  let (n, d) := overPowTen n d e
  let floor := n / d
  let rest := 2 * (n % d)
  let below : Decimal := ⟨floor, e⟩
  let above : Decimal := ⟨floor + 1, e⟩
  let nearerBelow := rest < d || (rest == d && floor % 2 == 0)
  (if nearerBelow then [below, above] else [above, below]).filter a.covers

/-- The first decimal that is found with at most `fuel` more digits, starting at the place `e`. -/
def search (a : Binary64) (e : Int) : Nat → Decimal
  | 0 => ⟨a.mantissa, 0⟩
  | fuel + 1 =>
    match a.neighbours e with
    | d :: _ => d.trimZeros
    | [] => a.search (e - 1) fuel

/-- The shortest decimal that is read back as the double. Seventeen digits always suffice. -/
def shortest (a : Binary64) : Decimal :=
  if a.mantissa = 0 then ⟨0, 0⟩ else a.search a.leadingExponent 17

end Binary64

end ComponentPages
