import MiniLisp.Text.Character

namespace MiniLisp

inductive Token where
  | opening
  | closing
  | atom (text : String)
deriving DecidableEq, Repr

namespace Token

def ofWord : List Char → Token
  | ['('] => .opening
  | [')'] => .closing
  | word => .atom (String.ofList word)

def ofString (text : String) : Token :=
  ofWord text.toList

def text : Token → String
  | .opening => "("
  | .closing => ")"
  | .atom text => text

/-- Sets blanks around a parenthesis. -/
def isolate (c : Char) : List Char :=
  if c = '(' ∨ c = ')' then [' ', c, ' '] else [c]

/-- The words of source text, where a parenthesis is a word of its own wherever it stands. -/
def tokenize (source : String) : List Token :=
  (Text.words (source.toList.flatMap isolate)).map ofWord

theorem text_ofString (s : String) : (ofString s).text = s := by
  have atom : (ofWord s.toList).text = String.ofList s.toList := by
    generalize s.toList = word
    fun_cases ofWord word <;> rfl
  exact atom.trans String.ofList_toList

example : tokenize "(a(b) )c" =
    [.opening, .atom "a", .opening, .atom "b", .closing, .closing, .atom "c"] := by
  decide +kernel

end Token

structure Placed where
  token : Token
  offset : Nat
deriving DecidableEq, Repr

namespace Placed

/-- The atom whose characters, last one first, end before `offset`; nothing if there are none. -/
def flush (pending : List Char) (offset : Nat) : List Placed :=
  if pending.isEmpty then []
  else [⟨.atom (String.ofList pending.reverse), offset - pending.length⟩]

/-- Scans on at `offset`, with the characters of an unfinished atom, last one first. -/
def scanFrom (offset : Nat) (pending : List Char) : List Char → List Placed
  | [] => flush pending offset
  | c :: rest =>
    if c = '(' then flush pending offset ++ ⟨.opening, offset⟩ :: scanFrom (offset + 1) [] rest
    else if c = ')' then flush pending offset ++ ⟨.closing, offset⟩ :: scanFrom (offset + 1) [] rest
    else if Text.isBlank c then flush pending offset ++ scanFrom (offset + 1) [] rest
    else scanFrom (offset + 1) (c :: pending) rest

/-- The tokens with their places, found in one pass. This makes its own decisions about where a
token ends: before a blank or a parenthesis. -/
def scan (text : List Char) : List Placed :=
  scanFrom 0 [] text

example : scan " (ab c".toList = [⟨.opening, 1⟩, ⟨.atom "ab", 2⟩, ⟨.atom "c", 5⟩] := by
  decide +kernel

end Placed

end MiniLisp
