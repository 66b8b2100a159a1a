import MiniLisp.Text.Character

/-! # Reading numbers

A decimal is a sign, digits with a point anywhere among them, and an exponent, all but one digit
optional; its digits may come from any script. `inf`, `infinity` and `nan` are numbers in any case
of letters. White space around the number does not count. The value is the double nearest to the
decimal.

Integers are digits after a sign, where a single underscore may stand between two digits, and of
limited length.
-/

namespace MiniLisp.Number

open MiniLisp.Text

/-- The values of the digits in front, and the text after them. -/
def readDigits : List Char → List Nat × List Char
  | [] => ([], [])
  | c :: rest =>
    match digitValue? c with
    | some d =>
      let (digits, after) := readDigits rest
      (d :: digits, after)
    | none => ([], c :: rest)

def valueOfDigits (digits : List Nat) : Nat :=
  digits.foldl (10 * · + ·) 0

/-- Whether a minus sign stands in front, and the text after the sign. -/
def readSign : List Char → Bool × List Char
  | '-' :: rest => (true, rest)
  | '+' :: rest => (false, rest)
  | rest => (false, rest)

def applySign (negative : Bool) (n : Nat) : Int :=
  if negative then -(n : Int) else n

/-- The exponent that is all of the text; no text at all is the exponent zero. -/
def readExponent? : List Char → Option Int
  | [] => some 0
  | c :: rest =>
    if c = 'e' ∨ c = 'E' then
      let (negative, unsigned) := readSign rest
      match readDigits unsigned with
      | ([], _) | (_, _ :: _) => none
      | (digits, []) => some (applySign negative (valueOfDigits digits))
    else none

def infinity : Float := 1.0 / 0.0

def notANumber : Float := 0.0 / 0.0

/-- The double nearest to `n · 10 ^ e`. Beyond the reach of doubles the answer needs no power. -/
def nearest (n : Nat) (e : Int) : Float :=
  let leading := e + (Nat.toDigits 10 n).length
  if n = 0 ∨ leading < -330 then 0.0
  else if 310 < leading then infinity
  else Float.ofScientific n (e < 0) e.natAbs

def readUnsigned? (text : List Char) : Option Float :=
  let (whole, rest) := readDigits text
  let (fraction, rest) :=
    match rest with
    | '.' :: rest => readDigits rest
    | _ => ([], rest)
  if whole.isEmpty && fraction.isEmpty then none
  else
    (readExponent? rest).map fun e => nearest (valueOfDigits (whole ++ fraction)) (e - fraction.length)

def readWord? (text : List Char) : Option Float :=
  let word := String.ofList (text.map Char.toLower)
  if word = "inf" ∨ word = "infinity" then some infinity
  else if word = "nan" then some notANumber
  else none

def read? (text : List Char) : Option Float :=
  let (negative, unsigned) := readSign (trim isWhiteSpace text)
  ((readWord? unsigned).or (readUnsigned? unsigned)).map fun x => if negative then -x else x

/-- Takes out the underscores, if each stands between two digits. -/
def withoutSeparators? (afterDigit : Bool) : List Char → Option (List Char)
  | [] => some []
  | c :: rest =>
    if c = '_' then
      let beforeDigit := rest.head?.any fun next => (digitValue? next).isSome
      if afterDigit && beforeDigit then withoutSeparators? false rest else none
    else (withoutSeparators? (digitValue? c).isSome rest).map (c :: ·)

/-- Reads a number in which underscores may stand between digits. -/
def readSeparated? (text : List Char) : Option Float :=
  (withoutSeparators? false text).bind read?

/-- No integer of more digits is read. -/
def mostDigits : Nat := 4300

def readInteger? (text : List Char) : Option Int := do
  let (negative, unsigned) := readSign (← withoutSeparators? false (trim isWhiteSpace text))
  match readDigits unsigned with
  | (digits, []) =>
    if digits.isEmpty || mostDigits < digits.length then none
    else applySign negative (valueOfDigits digits)
  | _ => none

example : (read? "1_0".toList).isNone ∧ (read? ".".toList).isNone := by decide +kernel

example : readInteger? " -1_0 ".toList = some (-10) ∧ readInteger? "1__0".toList = none := by
  decide +kernel

end MiniLisp.Number
