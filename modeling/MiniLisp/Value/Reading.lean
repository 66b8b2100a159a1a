import MiniLisp.Number.Reading
import MiniLisp.Token.Basic
import MiniLisp.Value.Basic

namespace MiniLisp

/-- Why tokens do not begin with a value. -/
inductive SyntaxError where
  | missingToken
  | unexpectedClosing
  | unbalanced
deriving DecidableEq, Repr

def SyntaxError.message : SyntaxError → String
  | .missingToken => "missing token"
  | .unexpectedClosing => "unexpected closing parenthesis"
  | .unbalanced => "unbalanced parentheses"

namespace Value

/-- An atom is a boolean, a number, or else a symbol. Digit separators make it a symbol. -/
def ofAtom (text : String) : Value :=
  if text = "true" then .boolean true
  else if text = "false" then .boolean false
  else if text.toList.contains '_' then .symbol ⟨text⟩
  else
    match Number.read? text.toList with
    | some x => .number x
    | none => .symbol ⟨text⟩

/-- Reads on inside the open lists of the stack, innermost first, each with its elements last one
first. -/
def readWithin : List (List Value) → List Token → Except SyntaxError (Value × List Token)
  | _, [] => .error .unbalanced
  | stack, .opening :: rest => readWithin ([] :: stack) rest
  | [], .closing :: _ => .error .unexpectedClosing
  | [items], .closing :: rest => .ok (.list items.reverse, rest)
  | items :: outer :: stack, .closing :: rest =>
    readWithin ((.list items.reverse :: outer) :: stack) rest
  | [], .atom text :: rest => .ok (ofAtom text, rest)
  | items :: stack, .atom text :: rest => readWithin ((ofAtom text :: items) :: stack) rest

/-- The first value of the tokens, with the tokens after it. -/
def read (tokens : List Token) : Except SyntaxError (Value × List Token) :=
  if tokens.isEmpty then .error .missingToken else readWithin [] tokens

theorem length_readWithin_lt {stack : List (List Value)} {tokens rest : List Token} {v : Value}
    (found : readWithin stack tokens = .ok (v, rest)) : rest.length < tokens.length := by
  fun_induction readWithin stack tokens <;> simp_all <;> omega

theorem length_read_lt {tokens rest : List Token} {v : Value}
    (found : read tokens = .ok (v, rest)) : rest.length < tokens.length := by
  unfold read at found
  split at found
  · contradiction
  · exact length_readWithin_lt found

end Value

end MiniLisp
