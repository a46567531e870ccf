import ScopeChain.Binary64

/-!
The shortest decimal of a number.  The reals that round to a finite number form an interval around
it, with its ends exactly when the significand is even.  The shortest decimal is the point of that
interval on the coarsest grid of powers of ten that has one; of two such points it is the nearer,
and of two equally near the greater.  All of it is exact arithmetic on natural numbers.
-/

namespace ScopeChain.Binary64

/-- The number `digits * 10 ^ exponent`. -/
structure Decimal where
  digits : Nat
  exponent : Int
deriving DecidableEq, Inhabited, Repr

/-- A positive number with the interval of the reals that round to it.  The number and both ends are
given by numerators over one denominator. -/
structure Rounding where
  low : Nat
  value : Nat
  high : Nat
  denominator : Nat
  /-- Whether the ends belong to the interval. -/
  closed : Bool
deriving Inhabited, Repr

namespace Rounding

/-- The interval of the magnitude of a finite number that is not zero.  Its ends lie halfway to the
neighbours, and the neighbour below a least significand is half as far away. -/
def ofMagnitude (x : Binary64) : Rounding :=
  let m := x.significand
  let quarter := x.exponent - 2
  let unit := Nat.pow 2 quarter.toNat
  { low := (4 * m - if m = Nat.pow 2 52 then 1 else 2) * unit
    value := 4 * m * unit
    high := (4 * m + 2) * unit
    denominator := Nat.pow 2 (-quarter).toNat
    closed := m % 2 == 0 }

/-- Whether `c * 10 ^ e` lies in the interval. -/
def contains (r : Rounding) (c : Nat) (e : Int) : Bool :=
  let point := c * Nat.pow 10 e.toNat * r.denominator
  let scale := Nat.pow 10 (-e).toNat
  if r.closed then r.low * scale ≤ point && point ≤ r.high * scale
  else r.low * scale < point && point < r.high * scale

/-- The greatest multiple of `10 ^ e` that is not above the number, as a count. -/
def below (r : Rounding) (e : Int) : Nat :=
  r.value * Nat.pow 10 (-e).toNat / (r.denominator * Nat.pow 10 e.toNat)

/-- Whether the number is nearer to `c * 10 ^ e` than to the next multiple. -/
def nearerBelow (r : Rounding) (c : Nat) (e : Int) : Bool :=
  2 * r.value * Nat.pow 10 (-e).toNat < (2 * c + 1) * Nat.pow 10 e.toNat * r.denominator

/-- The shortest decimal on the grids from `10 ^ e` down; `fuel` grids are tried. -/
def shortestFrom (r : Rounding) : Nat → Int → Decimal
  | 0, e => ⟨r.below e, e⟩
  | fuel + 1, e =>
      let c := r.below e
      match r.contains c e, r.contains (c + 1) e with
      | true, true => if r.nearerBelow c e then ⟨c, e⟩ else ⟨c + 1, e⟩
      | true, false => ⟨c, e⟩
      | false, true => ⟨c + 1, e⟩
      | false, false => shortestFrom r fuel (e - 1)

end Rounding

/-- A power of ten that is above the magnitude of the number, from its binary logarithm. -/
def decimalBound (x : Binary64) : Int :=
  let b := (x.significand.log2 : Int) + 1 + x.exponent
  if 0 ≤ b then b * 30103 / 100000 + 1 else -((-b) * 30102 / 100000)

/-- The shortest decimal of the magnitude of a finite number that is not zero.  The search begins
above the number, and the last grid it may reach holds the number itself. -/
def shortest (x : Binary64) : Decimal :=
  let start := x.decimalBound
  (Rounding.ofMagnitude x).shortestFrom (start - min x.exponent 0).toNat start

end ScopeChain.Binary64
