import MiniLisp.Files.Tree
import MiniLisp.Log.Level
import MiniLisp.Number.Reading

namespace MiniLisp

/-- Where preludes are looked for: in the directory that ships with the program, or on the host. -/
inductive PreludeRoot where
  | bundled
  | path (p : Path)
deriving DecidableEq, Repr

def PreludeRoot.text : PreludeRoot → String
  | .bundled => "<lumen>/prelude"
  | .path p => p.text

/-- The texts of the environment variables that are set. -/
structure Variables where
  preludePath : Option String
  logLevel : Option String
  recursionLimit : Option String

namespace Variables

def preludeName : String := "LUMEN_PRELUDE_PATH"

def levelName : String := "LUMEN_LOG_LEVEL"

def limitName : String := "LUMEN_RECURSION_LIMIT"

def read (value? : String → Option String) : Variables where
  preludePath := value? preludeName
  logLevel := value? levelName
  recursionLimit := value? limitName

/-- The entries of the search path, blank ones left out. -/
def preludeRoots (v : Variables) : List PreludeRoot :=
  match v.preludePath with
  | none | some "" => [.bundled]
  | some text =>
    let entries := (text.toList.splitOnP (· = ':')).map (Text.trim Text.isBlank)
    (entries.filter (!·.isEmpty)).map fun entry => .path (.ofString (String.ofList entry))

/-- The level of what the console shows. One that makes no sense falls back to the default. -/
def consoleLevel (v : Variables) : Level :=
  (v.logLevel.bind Level.ofChoice?).getD .warning

/-- The recursion limit if there is one, or the text that is no integer. -/
def limit (v : Variables) : Except String (Option Int) :=
  match v.recursionLimit with
  | none | some "" => .ok none
  | some text =>
    match Number.readInteger? text.toList with
    | some n => .ok (some n)
    | none => .error text

end Variables

end MiniLisp
