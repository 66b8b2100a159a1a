import MiniLisp.Session.Basic
import MiniLisp.Text.Line

/-! # Dialogues

Every line that is not blank gets one line of answer, which begins with a check mark or a cross.
At a terminal a prompt comes before every read, also before the one that meets the end of the
input, and answers are in colour.
-/

namespace MiniLisp

namespace Session

/-- The answer to a line. A session survives every failure. -/
def answer (s : Session) (line : String) (color : Bool) : String × Session :=
  match s.evaluateSource line with
  | (.ok v, t) => ("✓ " ++ if color then v.colorize else v.render, t)
  | (.error .tooDeep, t) => ("✗ " ++ Error.tooDeep.message, t.note (.depthExceeded line))
  | (.error e, t) => ("✗ " ++ e.message, t)

/-- What is written for a line that was read with its line end. -/
def reply (s : Session) (line : List Char) (color : Bool) : String × Session :=
  if line.all Text.isBlank then ("", s)
  else
    let (text, t) := s.answer (String.ofList line) color
    (text ++ "\n", t)

end Session

/-- The two ends of a dialogue. -/
structure Console where
  /-- Whether the input is a terminal. -/
  interactive : Bool
  prompt : String

namespace Console

def defaultPrompt : String := "lumen> "

/-- What is written before a read. -/
def cue (c : Console) : String :=
  if c.interactive then c.prompt else ""

def converse (c : Console) (s : Session) : List (List Char) → String × Session
  | [] => (c.cue, s)
  | line :: rest =>
    let (text, t) := s.reply line c.interactive
    let (output, last) := c.converse t rest
    (c.cue ++ text ++ output, last)

/-- All that is written in answer to an input, and the session after it. -/
def dialogue (c : Console) (s : Session) (input : String) : String × Session :=
  c.converse s (Text.lines input.toList)

end Console

end MiniLisp
