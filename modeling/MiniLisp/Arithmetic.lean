import MiniLisp.Error

/-! # The builtin functions

Every builtin takes numbers. The arguments are checked in order before anything else, so a wrong
kind of argument is reported even when their number is wrong too.
-/

namespace MiniLisp

namespace Builtin

/-- The numbers among the arguments, if all of them are. -/
def numbers (b : Builtin) : List Value → Except Error (List Float)
  | [] => .ok []
  | .number x :: rest => (b.numbers rest).map (x :: ·)
  | v :: _ => .error (.notNumber b v)

/-- Each addition is rounded on its own, and what is lost is not made up for later. -/
def sum (xs : List Float) : Float :=
  xs.foldl (· + ·) 0.0

def product (xs : List Float) : Float :=
  xs.foldl (· * ·) 1.0

/-- One number is negated. -/
def difference (x : Float) : List Float → Float
  | [] => -x
  | ys => ys.foldl (· - ·) x

/-- Zero of either sign divides nothing, not even infinity. -/
def divideBy (x y : Float) : Except Error Float :=
  if y == 0.0 then .error .divisionByZero else .ok (x / y)

/-- One number gives its reciprocal. -/
def quotient (x : Float) : List Float → Except Error Float
  | [] => divideBy 1.0 x
  | ys => ys.foldlM divideBy x

/-- Whether the relation holds between all neighbours. -/
def chained (holds : Float → Float → Bool) : List Float → Bool
  | x :: y :: rest => holds x y && chained holds (y :: rest)
  | _ => true

/-- The relation between neighbours that a comparison asks for. -/
def relation? : Builtin → Option (Float → Float → Bool)
  | .equal => some fun x y => x == y
  | .less => some fun x y => x < y
  | .lessOrEqual => some fun x y => x ≤ y
  | .greater => some fun x y => x > y
  | .greaterOrEqual => some fun x y => x ≥ y
  | _ => none

def compute (b : Builtin) (xs : List Float) : Except Error Value :=
  match b, xs with
  | .add, xs => .ok (.number (sum xs))
  | .multiply, xs => .ok (.number (product xs))
  | .subtract, x :: ys => .ok (.number (difference x ys))
  | .divide, x :: ys => (quotient x ys).map .number
  | b, xs =>
    match b.relation?, xs with
    | some holds, _ :: _ :: _ => .ok (.boolean (chained holds xs))
    | _, _ => .error (.tooFewArguments b)

def call (b : Builtin) (args : List Value) : Except Error Value :=
  (b.numbers args).bind b.compute

end Builtin

end MiniLisp
