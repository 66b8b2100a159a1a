/-! # Lines

`lines` cuts text at line feeds alone, as an input stream is read. `allLines` cuts at every
character that ends a line somewhere, a carriage return and line feed together counting once, as an
editor counts lines. Both keep the line ends, so the lines join to the text again.
-/

namespace MiniLisp.Text

/-- Puts a character in front of the first line. -/
def consFirst (c : Char) : List (List Char) → List (List Char)
  | [] => [[c]]
  | line :: rest => (c :: line) :: rest

def lines : List Char → List (List Char)
  | [] => []
  | c :: text => if c = '\n' then [c] :: lines text else consFirst c (lines text)

/-- The characters that end a line on their own. -/
def endsLine (c : Char) : Bool :=
  let n := c.toNat
  (0x0A ≤ n && n ≤ 0x0D) || (0x1C ≤ n && n ≤ 0x1E) || n == 0x85 || n == 0x2028 || n == 0x2029

def allLines : List Char → List (List Char)
  | [] => []
  | '\r' :: '\n' :: text => ['\r', '\n'] :: allLines text
  | c :: text => if endsLine c then [c] :: allLines text else consFirst c (allLines text)

/-- Every carriage return, alone or before a line feed, becomes a line feed. -/
def unifyLineEnds : List Char → List Char
  | [] => []
  | '\r' :: '\n' :: text => '\n' :: unifyLineEnds text
  | c :: text => (if c = '\r' then '\n' else c) :: unifyLineEnds text

@[simp]
theorem flatten_consFirst (c : Char) (ls : List (List Char)) :
    (consFirst c ls).flatten = c :: ls.flatten := by
  cases ls <;> rfl

theorem flatten_lines (text : List Char) : (lines text).flatten = text := by
  induction text with
  | nil => rfl
  | cons c text ih => by_cases h : c = '\n' <;> simp [lines, h, ih]

theorem flatten_allLines (text : List Char) : (allLines text).flatten = text := by
  fun_induction allLines text <;> simp_all

structure Position where
  line : Nat
  column : Nat
deriving DecidableEq, Repr

namespace Position

/-- The position of the place right after `before`. -/
def after (before : List Char) : Position where
  line := before.count '\n'
  column := (before.reverse.takeWhile (· ≠ '\n')).length

/-- The position of the character at `offset`. -/
def ofOffset (text : List Char) (offset : Nat) : Position :=
  after (text.take offset)

end Position

end MiniLisp.Text
