import MiniLisp.Number.Magnitude

/-! # The fewest digits that read back

A decimal stands for a double when it lies among the reals that round to it: up to halfway to each
neighbour, the ends included when the mantissa is even. `Magnitude.shortest` searches the decimal
grids from coarse to fine for a point of that interval, and of two points on the same grid takes
the one closer to the value, on a tie the even one.

On the grid of multiples of `10 ^ g` all comparisons are made in one unit small enough that the
grid points, the value and the ends of the interval are natural numbers.
-/

namespace MiniLisp.Number

/-- Decimal digits without trailing zeros, the first of them standing for `10 ^ leading`. -/
structure Decimal where
  digits : List Char
  leading : Int
deriving DecidableEq, Repr

/-- The decimal `n · 10 ^ g`. -/
def Decimal.ofScaled (n : Nat) (g : Int) : Decimal :=
  let digits := Nat.toDigits 10 n
  { digits := (digits.reverse.dropWhile (· == '0')).reverse
    leading := g + digits.length - 1 }

namespace Magnitude

/-- The distance between neighbouring multiples of `10 ^ g`. -/
def gridStep (x : Magnitude) (g : Int) : Nat :=
  4 * tenTo g * twoTo (-x.exponent)

/-- A quarter of the distance to the next value above. -/
def quarterGap (x : Magnitude) (g : Int) : Nat :=
  twoTo x.exponent * tenTo (-g)

/-- Whether `n · 10 ^ g` rounds to the value. -/
def readsBack (x : Magnitude) (g : Int) (n : Nat) : Bool :=
  let low := (4 * x.mantissa - if x.narrowBelow then 1 else 2) * x.quarterGap g
  let high := (4 * x.mantissa + 2) * x.quarterGap g
  let point := n * x.gridStep g
  if x.mantissa % 2 = 0 then low ≤ point && point ≤ high else low < point && point < high

/-- The closest multiple of `10 ^ g` that rounds to the value. -/
def closest? (x : Magnitude) (g : Int) : Option Nat :=
  let value := 4 * x.mantissa * x.quarterGap g
  let below := value / x.gridStep g
  let above := below + 1
  match x.readsBack g below, x.readsBack g above with
  | true, false => some below
  | false, true => some above
  | false, false => none
  | true, true =>
    match compare (2 * value) ((below + above) * x.gridStep g) with
    | .lt => some below
    | .gt => some above
    | .eq => some (if below % 2 = 0 then below else above)

/-- Whether the value is less than `10 ^ k`. -/
def lessThanPower (x : Magnitude) (k : Int) : Bool :=
  x.mantissa * twoTo x.exponent * tenTo (-k) < tenTo k * twoTo (-x.exponent)

/-- The least `k` such that the value is less than `10 ^ k`, from an estimate that is at most two
too small. -/
def scale (x : Magnitude) : Int :=
  let estimate := ((x.mantissa.log2 : Int) + x.exponent) * 30103 / 100000
  if x.lessThanPower estimate then estimate
  else if x.lessThanPower (estimate + 1) then estimate + 1
  else estimate + 2

/-- The value itself, with as many digits as it takes. -/
def exact (x : Magnitude) : Decimal :=
  .ofScaled (x.mantissa * twoTo x.exponent * Nat.pow 5 (-x.exponent).toNat) (min x.exponent 0)

/-- The shortest decimal that reads back; seventeen digits always suffice. -/
def shortest (x : Magnitude) : Decimal :=
  let grids := (List.range 17).map fun (n : Nat) => x.scale - 1 - n
  (grids.findSome? fun g => (x.closest? g).map (Decimal.ofScaled · g)).getD x.exact

end Magnitude

end MiniLisp.Number
