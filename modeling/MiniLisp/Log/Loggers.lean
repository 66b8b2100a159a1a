import MiniLisp.Files.Tree
import MiniLisp.Log.Level
import MiniLisp.Log.Record

/-! # Loggers

Loggers form a tree by the dots in their names. Handlers are attached to one of them, and get the
records of that logger and of all loggers below it. A logger without a handler writes the bare
message of a record to the console, if it is a warning or worse.
-/

namespace MiniLisp

inductive Sink where
  | console
  | file (location : Location)
deriving DecidableEq, Repr

/-- Takes the records that reach its level. -/
structure Handler where
  sink : Sink
  level : Level
deriving DecidableEq, Repr

/-- The loggers with the files that they write to. -/
structure Loggers where
  /-- In the order in which they were attached. -/
  handlers : List Handler := []
  /-- The least level of the logger that handlers are attached to, once there was a set-up. -/
  level : Option Level := none
  files : FileTree := {}
  /-- Whether the console is a terminal. -/
  colored : Bool := false

/-- Why a set-up of the loggers failed. -/
inductive LogError where
  | unknownLevel (name : String)
  | absentValue
  | file (reason : FileError)

def LogError.message : LogError → String
  | .unknownLevel name => "Unknown level: " ++ Text.quoted name
  | .absentValue => "a value is missing"
  | .file reason => reason.message

/-- The level asked for. -/
def LevelRequest.level : LevelRequest → Except LogError Level
  | .named name =>
    match Level.ofName? name with
    | some level => .ok level
    | none => .error (.unknownLevel name)
  | .ranked level => .ok level
  | .absent => .error .absentValue

namespace Loggers

/-- The logger that handlers are attached to. -/
def base : String := "lumen"

def isBelowBase (logger : String) : Bool :=
  logger = base || logger.startsWith (base ++ ".")

/-- What loggers let through as long as nothing is set up. -/
def defaultLevel : Level := .warning

/-- The least level of the records that a logger lets through. -/
def threshold (t : Loggers) (logger : String) : Level :=
  if isBelowBase logger then t.level.getD defaultLevel else defaultLevel

/-- Attaches a handler for the console and, if a file is named, one for every record to that file.
What was attached before a failure stays. -/
def setUp (t : Loggers) (request : LevelRequest) (file : FileRequest) :
    Except LogError Unit × Loggers :=
  let t := { t with level := some .debug }
  match request.level with
  | .error reason => (.error reason, t)
  | .ok level =>
    let t := { t with handlers := t.handlers ++ [⟨.console, level⟩] }
    match file with
    | .nowhere => (.ok (), t)
    | .absent => (.error .absentValue, t)
    | .named name =>
      match t.files.openToAppend (.ofString name) with
      | .error reason => (.error (.file reason), t)
      | .ok (location, files) =>
        (.ok (), { t with files, handlers := t.handlers ++ [⟨.file location, .debug⟩] })

/-- Hands a record to the handlers one after the other. Gives what the console shows. -/
def deliver (r : LogRecord) (now : ClockTime) (colored : Bool) (files : FileTree) :
    List Handler → String × FileTree
  | [] => ("", files)
  | h :: rest =>
    if r.level.reaches h.level then
      match h.sink with
      | .console =>
        let (shown, files) := deliver r now colored files rest
        (r.consoleLine now colored ++ shown, files)
      | .file location => deliver r now colored (files.append location (r.fileLine now)) rest
    else deliver r now colored files rest

/-- Logs a record. Gives what the console shows. -/
def emit (t : Loggers) (now : ClockTime) (r : LogRecord) : String × Loggers :=
  let handlers := if isBelowBase r.logger then t.handlers else []
  if !r.level.reaches (t.threshold r.logger) then ("", t)
  else if handlers.isEmpty then
    (if r.level.reaches defaultLevel then r.message ++ "\n" else "", t)
  else
    let (shown, files) := deliver r now t.colored t.files handlers
    (shown, { t with files })

def emitAll (t : Loggers) (now : ClockTime) : List LogRecord → String × Loggers
  | [] => ("", t)
  | r :: rest =>
    let (shown, t) := t.emit now r
    let (more, t) := t.emitAll now rest
    (shown ++ more, t)

end Loggers

end MiniLisp
