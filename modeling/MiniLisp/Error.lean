import MiniLisp.Value.Printing
import MiniLisp.Value.Reading

/-! # Errors of the language

One constructor per cause, and the text of each in `Error.message`. Some texts show the value at
fault; `Error.shown?` gives that value, since showing a deeply nested one takes depth of its own.
-/

namespace MiniLisp

inductive Error where
  | unreadable (reason : SyntaxError)
  /-- A binding under a key that is not a symbol. -/
  | unbindable (key : Value)
  /-- A definition whose target is not a symbol. -/
  | badTarget (target : Value)
  | unbound (s : Symbol)
  | operandCount (k : Keyword) (got : Nat)
  | argumentCount (expected : Nat) (got : Int)
  | tooFewArguments (b : Builtin)
  | badParameters
  | notNumber (b : Builtin) (v : Value)
  | notBoolean (v : Value)
  | notFunction (v : Value)
  | bareClosure
  | emptyList
  | unevaluable (v : Foreign)
  | divisionByZero
  /-- Evaluation nested more deeply than the limit allows. -/
  | tooDeep

/-- The kinds that errors fall into. -/
inductive Error.Kind where
  | unreadable | invalidSymbol | unboundSymbol | arity | type | division | depth
deriving DecidableEq, Repr

/-- The least number of arguments of a builtin. -/
def Builtin.leastArguments : Builtin → Nat
  | .add | .multiply => 0
  | .subtract | .divide => 1
  | .equal | .less | .lessOrEqual | .greater | .greaterOrEqual => 2

namespace Error

def kind : Error → Kind
  | .unreadable _ => .unreadable
  | .unbindable _ | .badTarget _ => .invalidSymbol
  | .unbound _ => .unboundSymbol
  | .operandCount .. | .argumentCount .. | .tooFewArguments _ => .arity
  | .badParameters | .notNumber .. | .notBoolean _ | .notFunction _ | .bareClosure | .emptyList
  | .unevaluable _ => .type
  | .divisionByZero => .division
  | .tooDeep => .depth

def plural (n : Nat) (noun : String) : String :=
  if n = 1 then noun else noun ++ "s"

def message : Error → String
  | .unreadable reason => reason.message
  | .unbindable key => "cannot define " ++ key.inspect ++ ": expected a symbol"
  | .badTarget target => "define target must be a symbol, got " ++ target.render
  | .unbound s => "unexpected symbol: " ++ s.name
  | .operandCount k got =>
    k.name ++ " requires exactly " ++ toString k.operandCount ++ " arguments, got " ++ toString got
  | .argumentCount expected got =>
    "expected " ++ toString expected ++ " arguments, got " ++ toString got
  | .tooFewArguments b =>
    b.name ++ " requires at least " ++ toString b.leastArguments ++ " " ++
      plural b.leastArguments "argument"
  | .badParameters => "lambda parameters must be a list of symbols"
  | .notNumber b v => b.name ++ " expected a number, got " ++ v.render
  | .notBoolean v => "if test must evaluate to a boolean, got " ++ v.render
  | .notFunction v => "first form must be a function, got " ++ v.render
  | .bareClosure => "unexpected lambda value; lambdas can only be called"
  | .emptyList => "expected a non-empty list"
  | .unevaluable v => "cannot evaluate " ++ v.inspect
  | .divisionByZero => "division by zero"
  | .tooDeep => "maximum recursion depth exceeded"

/-- The value that the message renders. -/
def shown? : Error → Option Value
  | .badTarget v | .notNumber _ v | .notBoolean v | .notFunction v => some v
  | _ => none

/-- The steps of depth that writing takes for every level of nested lists. The number is assumed,
like the steps that evaluation takes: it stands for the calls made to write one list. -/
def stepsPerLevel : Nat := 3

/-- How much depth it takes to write the message. -/
def depth (e : Error) : Nat :=
  match e.shown? with
  | some v => stepsPerLevel * v.nesting + 1
  | none => 0

end Error

end MiniLisp
