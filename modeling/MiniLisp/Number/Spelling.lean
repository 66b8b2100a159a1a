import MiniLisp.Number.Shortest

/-! # The text of a number

`spell` writes the shortest digits that read back, always with a point or an exponent, so that the
text shows a number that is not an integer type. `text` is the form shown to users: whole numbers
of less than seventeen digits are written without a fraction.
-/

namespace MiniLisp.Number

/-- Where positional notation ends and how the exponent looks beyond it. -/
structure Layout where
  /-- The least exponent of the first digit that is written positionally. -/
  plainFrom : Int
  /-- The least exponent of the first digit that is too large for that. -/
  plainBelow : Int
  /-- The least number of digits in an exponent. -/
  exponentWidth : Nat

/-- Numbers from `0.0001` up to `10 ^ 16` are positional; exponents have two digits or more. -/
def layout : Layout where
  plainFrom := -4
  plainBelow := 16
  exponentWidth := 2

def zeros (n : Nat) : List Char :=
  List.replicate n '0'

def Layout.positional (d : Decimal) : List Char :=
  if d.leading < 0 then
    '0' :: '.' :: zeros (-d.leading - 1).toNat ++ d.digits
  else
    let places := d.leading.toNat + 1
    if d.digits.length ≤ places then
      d.digits ++ zeros (places - d.digits.length) ++ ['.', '0']
    else
      d.digits.take places ++ '.' :: d.digits.drop places

def Layout.exponentText (l : Layout) (e : Int) : List Char :=
  let digits := Nat.toDigits 10 e.natAbs
  (if e < 0 then '-' else '+') :: zeros (l.exponentWidth - digits.length) ++ digits

def Layout.scientific (l : Layout) (d : Decimal) : List Char :=
  d.digits.take 1 ++ (if d.digits.length ≤ 1 then [] else '.' :: d.digits.drop 1) ++
    'e' :: l.exponentText d.leading

def Layout.write (l : Layout) (d : Decimal) : List Char :=
  if l.plainFrom ≤ d.leading ∧ d.leading < l.plainBelow then positional d else l.scientific d

def signed (negative : Bool) (text : List Char) : List Char :=
  if negative then '-' :: text else text

/-- Zero has no shortest digits and is written as it is. -/
def spellMagnitude (x : Magnitude) : List Char :=
  if x.mantissa = 0 then ['0', '.', '0'] else layout.write x.shortest

def spell (x : Float) : String :=
  String.ofList <|
    match Parts.of x with
    | .nan => ['n', 'a', 'n']
    | .infinite negative => signed negative ['i', 'n', 'f']
    | .finite negative magnitude => signed negative (spellMagnitude magnitude)

/-- The value as an integer, when it is one. -/
def integer? (x : Float) : Option Int :=
  match Parts.of x with
  | .finite negative magnitude =>
    magnitude.whole?.map fun (n : Nat) => if negative then -(n : Int) else n
  | _ => none

/-- The numbers from here on are written as `spell` writes them. -/
def wholeBound : Nat := tenTo 16

def text (x : Float) : String :=
  match integer? x with
  | some n => if n.natAbs < wholeBound then toString n else spell x
  | none => spell x

example : spell 0.1 = "0.1" ∧ spell 1e16 = "1e+16" ∧ spell 1.5e-7 = "1.5e-07" := by decide +kernel

example : text 6.0 = "6" ∧ text (-0.0) = "0" ∧ text 2.5 = "2.5" := by decide +kernel

end MiniLisp.Number
