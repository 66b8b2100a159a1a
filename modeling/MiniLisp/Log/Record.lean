import MiniLisp.Log.Level
import MiniLisp.Store.Basic

namespace MiniLisp

structure ClockTime where
  hour : Nat := 0
  minute : Nat := 0
  second : Nat := 0
deriving DecidableEq, Repr

namespace ClockTime

def twoDigits (n : Nat) : String :=
  if n < 10 then "0" ++ toString n else toString n

def text (t : ClockTime) : String :=
  ":".intercalate ([t.hour, t.minute, t.second].map twoDigits)

example : (ClockTime.mk 9 5 30).text = "09:05:30" := by decide +kernel

end ClockTime

structure LogRecord where
  level : Level
  logger : String
  message : String
deriving DecidableEq, Repr

/-- Puts text into bold of one of the terminal's colours. -/
def paint (color : Int) (text : String) : String :=
  "\x1b[1;" ++ toString (30 + color) ++ "m" ++ text ++ "\x1b[0m"

/-- Fills text with spaces up to a width. -/
def padRight (width : Nat) (text : String) : String :=
  text.pushn ' ' (width - text.length)

/-- The colour of the level in a log on a terminal: red, yellow, blue or green. -/
def Level.color? (l : Level) : Option Int :=
  if l = .error ∨ l = .critical then some 1
  else if l = .warning then some 3
  else if l = .debug then some 4
  else if l = .info then some 2
  else none

/-- The name of a level as wide as the longest of them. -/
def Level.column (l : Level) (colored : Bool) : String :=
  let padded := padRight 8 l.name
  match l.color? with
  | some color => if colored then paint color padded else padded
  | none => padded

namespace LogRecord

/-- The three columns with a separator between them. -/
def columns (r : LogRecord) (level separator : String) : String :=
  level ++ separator ++ padRight 8 r.logger ++ separator ++ r.message

/-- The record as a console shows it. -/
def consoleLine (r : LogRecord) (now : ClockTime) (colored : Bool) : String :=
  now.text ++ " - " ++ r.columns (r.level.column colored) " - " ++ "\n"

/-- The record as a file keeps it: the level is not padded. -/
def fileLine (r : LogRecord) (now : ClockTime) : String :=
  now.text ++ " - " ++ r.columns r.level.name " - " ++ "\n"

end LogRecord

namespace Event

/-- The record of an event. Bindings leave none. -/
def record? : Event → Option LogRecord
  | .bound .. => none
  | .called _ content => some ⟨.debug, "lumen.types.environment", "call frame " ++ content.text⟩
  | .loadingPrelude path =>
    some ⟨.debug, "lumen.modules.prelude_loader", "loading prelude " ++ path⟩
  | .ignoredTokens count =>
    some ⟨.debug, "lumen.interpreter",
      "ignoring " ++ toString count ++ " tokens after the first expression"⟩
  | .depthExceeded line =>
    some ⟨.debug, "lumen.repl", "recursion limit hit evaluating " ++ Text.quoted line⟩

end Event

/-- The records of a store's history from an event on. -/
def Store.recordsFrom (s : Store) (start : Nat) : List LogRecord :=
  (s.history.toList.drop start).filterMap Event.record?

end MiniLisp
