import MiniLisp.CommandLine
import MiniLisp.Files.Tree
import MiniLisp.Log.Loggers
import MiniLisp.Prelude
import MiniLisp.Session.Dialogue

/-! # The program

A run parses the command line, sets up the loggers, checks the recursion limit, loads the preludes
and then answers its input line by line. It may end at any of these steps; what was logged until
then has been written.
-/

namespace MiniLisp

/-- What a run starts from. -/
structure Invocation where
  words : List String
  settings : Variables
  files : FileTree
  /-- Whether the console is a terminal. -/
  colored : Bool := false
  /-- When the run takes place. -/
  time : ClockTime := {}

/-- Why a run ends before it answers anything. -/
inductive Failure where
  | exit (reason : CommandLine.Exit)
  | log (reason : LogError)
  /-- The text of the recursion limit is no integer. -/
  | malformedLimit (text : String)
  /-- The recursion limit is not positive. -/
  | limitTooSmall
  /-- The recursion limit is no number of 32 bits. -/
  | limitOutOfRange
  /-- The recursion limit leaves no room for evaluation. -/
  | limitReached
  | load (reason : LoadError)

/-- What is written about a failure. An exit speaks for itself. -/
def Failure.message : Failure → String
  | .exit _ => ""
  | .log reason => reason.message
  | .malformedLimit text => Variables.limitName ++ " must be an integer, got " ++ Text.quoted text
  | .limitTooSmall => "recursion limit must be greater or equal than 1"
  | .limitOutOfRange => "recursion limit out of range"
  | .limitReached => Error.tooDeep.message
  | .load reason => reason.message

/-- What a failure makes a program write to its output and to the console before it ends. -/
def Failure.parting : Failure → String × String
  | .exit reason => (reason.output, reason.errors)
  | _ => ("", "")

/-- A session with the loggers that its history is written to. -/
structure Program where
  session : Session
  loggers : Loggers
  /-- The time of day that log lines begin with. -/
  time : ClockTime := {}
  /-- How many events of the history have been offered to the loggers. -/
  logged : Nat := 0
  /-- What the console has yet to show of the log. -/
  shown : String := ""

namespace Program

/-- How much of a recursion limit is gone before evaluation starts. -/
def overhead : Nat := 12

/-- The depth of evaluation under the recursion limit that is asked for. -/
def depth (v : Variables) : Except Failure Nat :=
  match v.limit with
  | .error text => .error (.malformedLimit text)
  | .ok none => .ok Session.defaultDepth
  | .ok (some limit) =>
    if limit < -2147483648 ∨ 2147483647 < limit then .error .limitOutOfRange
    else if limit < 1 then .error .limitTooSmall
    else if limit ≤ overhead then .error .limitReached
    else .ok (limit.toNat - overhead)

/-- Hands what has happened since the last time to the loggers. -/
def flush (p : Program) : Program :=
  let (shown, loggers) := p.loggers.emitAll p.time (p.session.store.recordsFrom p.logged)
  { p with loggers, logged := p.session.store.history.size, shown := p.shown ++ shown }

/-- Evaluates preludes in order, up to the first one that cannot be read or fails. What has been
logged is written before a prelude is read, since the log may go to that very file. -/
def load (p : Program) : List Prelude → Except LoadError Unit × Program
  | [] => (.ok (), p)
  | next :: rest =>
    let p := { p with session := p.session.note (.loadingPrelude next.title) }.flush
    match next.source p.loggers.files with
    | .error reason => (.error (.file reason), p)
    | .ok text =>
      match p.session.evaluatePrelude text with
      | (.error reason, session) => (.error (.language reason), { p with session })
      | (.ok (), session) => { p with session }.load rest

/-- Loads every prelude that is asked for. -/
def loadPreludes (p : Program) (v : Variables) : Except LoadError Unit × Program :=
  match p.loggers.files.preludes v with
  | .error reason => (.error (.file reason), p)
  | .ok preludes => p.load preludes

/-- The program with all preludes loaded. The files are as they are after the failure, if any. -/
def prepare (i : Invocation) : Except Failure Unit × Program :=
  let session := Session.start Session.defaultDepth
  let loggers : Loggers := { files := i.files.onHost, colored := i.colored }
  let idle : Program := { session, loggers, time := i.time }
  match CommandLine.parse i.settings.consoleLevel i.words with
  | .error reason => (.error (.exit reason), idle)
  | .ok options =>
    match idle.loggers.setUp options.logLevel options.logFile with
    | (.error reason, loggers) => (.error (.log reason), { idle with loggers })
    | (.ok (), loggers) =>
      match depth i.settings with
      | .error reason => (.error reason, { idle with loggers })
      | .ok depth =>
        let p := { idle with session := Session.start depth, loggers }
        if options.noPrelude then (.ok (), p)
        else
          match p.loadPreludes i.settings with
          | (.error reason, p) => (.error (.load reason), p)
          | (.ok (), p) => (.ok (), p)

end Program

/-- What a run leaves. -/
structure Outcome where
  result : Except Failure Unit
  output : String
  errors : String
  files : FileTree

/-- A whole run on an input that is not a terminal. -/
def Invocation.run (i : Invocation) (input : String) : Outcome :=
  match Program.prepare i with
  | (.error reason, p) =>
    let p := p.flush
    let (output, errors) := reason.parting
    { result := .error reason, output, errors := p.shown ++ errors, files := p.loggers.files }
  | (.ok (), p) =>
    let console : Console := { interactive := false, prompt := Console.defaultPrompt }
    let (output, session) := console.dialogue p.session input
    let p := { p with session }.flush
    { result := .ok (), output, errors := p.shown, files := p.loggers.files }

end MiniLisp
