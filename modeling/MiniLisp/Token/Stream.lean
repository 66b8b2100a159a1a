import MiniLisp.Value.Reading

namespace MiniLisp

/-- A cursor in a list of tokens. Reading a value moves it past the value; a read that fails leaves
it where it was. -/
structure Stream where
  tokens : List Token
  cursor : Nat

namespace Stream

def ofTokens (tokens : List Token) : Stream :=
  { tokens, cursor := 0 }

def ofSource (source : String) : Stream :=
  ofTokens (Token.tokenize source)

def rest (s : Stream) : List Token :=
  s.tokens.drop s.cursor

/-- Reads the next value. -/
def next (s : Stream) : Except SyntaxError (Value × Stream) :=
  match Value.read s.rest with
  | .error e => .error e
  | .ok (v, rest) => .ok (v, { s with cursor := s.tokens.length - rest.length })

theorem length_rest_next_lt {s t : Stream} {v : Value} (found : s.next = .ok (v, t)) :
    t.rest.length < s.rest.length := by
  unfold next at found
  split at found
  · contradiction
  · next read =>
    cases found
    have shorter := Value.length_read_lt read
    simp only [rest, List.length_drop] at *
    omega

/-- The values up to the end of the tokens or up to the first failure, and where reading stopped. -/
def readAll (s : Stream) : List Value × Option SyntaxError × Stream :=
  if s.rest.isEmpty then ([], none, s)
  else
    match _found : s.next with
    | .error e => ([], some e, s)
    | .ok (v, t) =>
      let (values, failure, last) := t.readAll
      (v :: values, failure, last)
termination_by s.rest.length
decreasing_by exact length_rest_next_lt ‹_›

end Stream

end MiniLisp
