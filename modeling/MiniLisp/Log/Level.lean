import MiniLisp.Text.Printable
import MiniLisp.Text.UpperCase

namespace MiniLisp

/-- The higher the rank, the more severe. -/
structure Level where
  rank : Int
deriving DecidableEq, Repr

namespace Level

def unset : Level := ⟨0⟩

def debug : Level := ⟨10⟩

def info : Level := ⟨20⟩

def warning : Level := ⟨30⟩

def error : Level := ⟨40⟩

def critical : Level := ⟨50⟩

/-- The levels that a user can choose, with their names. -/
def choices : List (String × Level) :=
  [("DEBUG", debug), ("INFO", info), ("WARNING", warning), ("ERROR", error), ("CRITICAL", critical)]

/-- All names. The first name of a level is the one that is written. -/
def names : List (String × Level) :=
  choices ++ [("NOTSET", unset), ("WARN", warning), ("FATAL", critical)]

def name (l : Level) : String :=
  match names.find? (·.2 = l) with
  | some (name, _) => name
  | none => "Level " ++ toString l.rank

def ofName? (name : String) : Option Level :=
  names.lookup name

/-- The level that a user chooses, in any case of letters. -/
def ofChoice? (text : String) : Option Level :=
  choices.lookup (Text.upper text)

/-- Whether a record of this level passes a threshold. -/
def reaches (l threshold : Level) : Bool :=
  threshold.rank ≤ l.rank

end Level

/-- A level as it is asked for: by any name, which may be unknown, or by number. An option can also
be given in a way that leaves it no value. -/
inductive LevelRequest where
  | named (name : String)
  | ranked (level : Level)
  | absent
deriving DecidableEq, Repr

/-- The file that records are to be written to. -/
inductive FileRequest where
  | nowhere
  | named (name : String)
  | absent
deriving DecidableEq, Repr

end MiniLisp
