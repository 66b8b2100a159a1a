namespace MiniLisp.Number

/-- The power of two, or one when the exponent is negative. -/
def twoTo (e : Int) : Nat :=
  Nat.pow 2 e.toNat

/-- The power of ten, or one when the exponent is negative. -/
def tenTo (e : Int) : Nat :=
  Nat.pow 10 e.toNat

/-- The value `mantissa · 2 ^ exponent`. -/
structure Magnitude where
  mantissa : Nat
  exponent : Int
  /-- At a power of two the next value below is twice as close as the next value above. -/
  narrowBelow : Bool
deriving DecidableEq, Repr

/-- What the bits of a double stand for. -/
inductive Parts where
  | nan
  | infinite (negative : Bool)
  | finite (negative : Bool) (magnitude : Magnitude)
deriving DecidableEq, Repr

def Parts.ofBits (bits : Nat) : Parts :=
  let negative := bits / twoTo 63 % 2 == 1
  let field : Nat := bits / twoTo 52 % twoTo 11
  let fraction := bits % twoTo 52
  if field = 2047 then
    if fraction = 0 then .infinite negative else .nan
  else if field = 0 then
    .finite negative ⟨fraction, -1074, false⟩
  else
    .finite negative ⟨twoTo 52 + fraction, (field : Int) - 1075, fraction == 0 && 1 < field⟩

def Parts.of (x : Float) : Parts :=
  ofBits x.toBits.toNat

/-- The magnitude as a natural number, when it is one. -/
def Magnitude.whole? (x : Magnitude) : Option Nat :=
  let unit := twoTo (-x.exponent)
  if x.mantissa % unit = 0 then some (x.mantissa / unit * twoTo x.exponent) else none

example : Parts.of 1.5 = .finite false ⟨3 * twoTo 51, -52, false⟩ := by decide +kernel

end MiniLisp.Number
