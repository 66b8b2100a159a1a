/-! # Values

Code and data are one type: the reader builds numbers, booleans, symbols and lists, and evaluation
adds the builtin functions and the closures. A closure keeps the number of the frame that it was
made in, so that values are finite trees and sharing lives in the store alone. Foreign values
belong to an embedding program; no source text denotes one.
-/

namespace MiniLisp

structure Symbol where
  name : String
deriving DecidableEq, Repr

/-- The functions of the root frame. -/
inductive Builtin where
  | add | subtract | multiply | divide
  | equal | less | lessOrEqual | greater | greaterOrEqual
deriving DecidableEq, Repr

namespace Builtin

/-- All builtins, in the order in which they are installed and listed. -/
def all : List Builtin :=
  [.add, .subtract, .multiply, .divide, .equal, .less, .lessOrEqual, .greater, .greaterOrEqual]

def name : Builtin → String
  | .add => "+"
  | .subtract => "-"
  | .multiply => "*"
  | .divide => "/"
  | .equal => "="
  | .less => "<"
  | .lessOrEqual => "<="
  | .greater => ">"
  | .greaterOrEqual => ">="

def symbol (b : Builtin) : Symbol :=
  ⟨b.name⟩

def ofName? (name : String) : Option Builtin :=
  all.find? (·.name = name)

theorem mem_all (b : Builtin) : b ∈ all := by
  cases b <;> decide

theorem ofName?_name (b : Builtin) : ofName? b.name = some b := by
  cases b <;> decide

end Builtin

/-- The heads of lists that evaluate by rules of their own. -/
inductive Keyword where
  | conditional | definition | abstraction
deriving DecidableEq, Repr

namespace Keyword

def all : List Keyword :=
  [.conditional, .definition, .abstraction]

def name : Keyword → String
  | .conditional => "if"
  | .definition => "define"
  | .abstraction => "lambda"

/-- How many forms follow the keyword. -/
def operandCount : Keyword → Nat
  | .conditional => 3
  | .definition | .abstraction => 2

def ofName? (name : String) : Option Keyword :=
  all.find? (·.name = name)

theorem ofName?_name (k : Keyword) : ofName? k.name = some k := by
  cases k <;> decide

theorem ofName?_eq_some_iff {name : String} {k : Keyword} :
    ofName? name = some k ↔ k.name = name := by
  constructor
  · intro found
    simpa using List.find?_some found
  · rintro rfl
    exact ofName?_name k

end Keyword

/-- A value of the embedding program. -/
inductive Foreign where
  | integer (n : Int)
  | text (s : String)
  | absent
deriving DecidableEq, Repr

/-- The number of a frame in the store. -/
abbrev FrameId := Nat

inductive Value where
  | number (x : Float)
  | boolean (b : Bool)
  | symbol (s : Symbol)
  | list (items : List Value)
  | builtin (b : Builtin)
  | closure (params body : Value) (frame : FrameId)
  | foreign (v : Foreign)

instance : Inhabited Value := ⟨.list []⟩

namespace Value

def symbol? : Value → Option Symbol
  | .symbol s => some s
  | _ => none

/-- The keyword that a list with this head is a form of. -/
def keyword? : Value → Option Keyword
  | .symbol s => Keyword.ofName? s.name
  | _ => none

/-- The parameters of a closure: the symbols of the list, if it is a list of symbols. -/
def formals? : Value → Option (List Symbol)
  | .list items => items.mapM symbol?
  | _ => none

mutual

/-- How deeply lists are nested. -/
def nesting : Value → Nat
  | .list items => nestingAll items + 1
  | .number _ | .boolean _ | .symbol _ | .builtin _ | .closure .. | .foreign _ => 0

def nestingAll : List Value → Nat
  | [] => 0
  | v :: rest => max (nesting v) (nestingAll rest)

end

end Value

end MiniLisp
