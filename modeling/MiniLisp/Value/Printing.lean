import MiniLisp.Number.Spelling
import MiniLisp.Text.Printable
import MiniLisp.Value.Basic

/-! # The text of values

`render` is the text shown to users: symbols by name, lists in parentheses with commas between the
elements, functions by a placeholder. `colorize` is the same text with terminal colours around its
parts. `inspect` tells the kinds of values apart and is what listings of frames show.
-/

namespace MiniLisp

def Foreign.plain : Foreign → String
  | .integer n => toString n
  | .text s => s
  | .absent => "None"

def Foreign.inspect : Foreign → String
  | .text s => Text.quoted s
  | v => v.plain

def Symbol.inspect (s : Symbol) : String :=
  "Symbol(" ++ Text.quoted s.name ++ ")"

def Builtin.placeholder (b : Builtin) : String :=
  "<builtin " ++ b.name ++ ">"

def closurePlaceholder : String := "<lambda>"

/-- The colours of a terminal that set off the kinds of values. -/
inductive Color where
  | symbol | number | boolean | function
deriving DecidableEq, Repr

def Color.start : Color → String
  | .symbol => "\x1b[94m"
  | .number => "\x1b[93m"
  | .boolean => "\x1b[96m"
  | .function => "\x1b[92m"

def Color.reset : String := "\x1b[0m"

def Color.wrap (color : Color) (text : String) : String :=
  color.start ++ text ++ Color.reset

def booleanText (b : Bool) : String :=
  if b then "true" else "false"

namespace Value

mutual

def render : Value → String
  | .number x => Number.text x
  | .boolean b => booleanText b
  | .symbol s => s.name
  | .list items => "(" ++ renderItems items ++ ")"
  | .builtin b => b.placeholder
  | .closure .. => closurePlaceholder
  | .foreign v => v.plain

def renderItems : List Value → String
  | [] => ""
  | [v] => render v
  | v :: w :: rest => render v ++ "," ++ renderItems (w :: rest)

end

mutual

def colorize : Value → String
  | .number x => Color.number.wrap (Number.text x)
  | .boolean b => Color.boolean.wrap (booleanText b)
  | .symbol s => Color.symbol.wrap s.name
  | .list items => "(" ++ colorizeItems items ++ ")"
  | .builtin b => Color.function.wrap b.placeholder
  | .closure .. => Color.function.wrap closurePlaceholder
  | .foreign v => v.plain

def colorizeItems : List Value → String
  | [] => ""
  | [v] => colorize v
  | v :: w :: rest => colorize v ++ "," ++ colorizeItems (w :: rest)

end

mutual

def inspect : Value → String
  | .number x => Number.spell x
  | .boolean b => if b then "True" else "False"
  | .symbol s => s.inspect
  | .list items => "[" ++ inspectItems items ++ "]"
  | .builtin b => b.placeholder
  | .closure .. => closurePlaceholder
  | .foreign v => v.inspect

def inspectItems : List Value → String
  | [] => ""
  | [v] => inspect v
  | v :: w :: rest => inspect v ++ ", " ++ inspectItems (w :: rest)

end

end Value

end MiniLisp
