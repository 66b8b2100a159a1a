import Std.Time.Zoned
import MiniLisp.Program

namespace MiniLisp.Command

def content? (name : String) : IO (Option ByteArray) :=
  try
    return some (← IO.FS.readBinFile name)
  catch _ =>
    return none

/-- What the clock shows. -/
def now : IO ClockTime := do
  let t ← Std.Time.PlainTime.now
  return { hour := t.hour.val.toNat, minute := t.minute.val.toNat, second := t.second.val.toNat }

def canAppend (name : String) : IO Bool :=
  try
    IO.FS.withFile name .append fun _ => return true
  catch _ =>
    return false

/-- The tree of the files that the variables and the command line name, as far as they exist. -/
def readTree (v : Variables) (logFile : FileRequest) : IO FileTree := do
  let mut files : Table Location ByteArray := {}
  let mut directories : List Location := []
  for root in v.preludeRoots do
    if let .path path := root then
      if let some bytes ← content? path.text then
        files := files.insert (FileTree.simplify path) bytes
        directories := directories ++ (List.range path.parts.length).map fun n =>
          FileTree.simplify { path with parts := path.parts.take n }
  if let .named name := logFile then
    if ← canAppend name then
      files := files.insert (FileTree.simplify (.ofString name)) ((← content? name).getD .empty)
  return { files, directories }

def readSettings : IO Variables := do
  let values ← [Variables.preludeName, Variables.levelName, Variables.limitName].mapM fun name =>
    return (name, ← IO.getEnv name)
  return .read fun name => (values.lookup name).join

/-- Writes what has been logged since the last time. -/
def writeLog (p : Program) (logFile : FileRequest) : IO Program := do
  let p := { p with time := ← now }.flush
  IO.eprint p.shown
  if let .named name := logFile then
    if let some bytes := p.loggers.files.files.find? (FileTree.simplify (.ofString name)) then
      IO.FS.writeBinFile name bytes
  return { p with shown := "" }

/-- Answers lines until the input ends. -/
partial def converse (console : Console) (logFile : FileRequest) (p : Program) : IO Unit := do
  let output ← IO.getStdout
  output.putStr console.cue
  output.flush
  let line ← (← IO.getStdin).getLine
  if line.isEmpty then return
  let (text, session) := p.session.reply line.toList console.interactive
  output.putStr text
  output.flush
  converse console logFile (← writeLog { p with session } logFile)

def run (words : List String) : IO UInt32 := do
  let settings ← readSettings
  let logFile :=
    match CommandLine.parse settings.consoleLevel words with
    | .ok options => options.logFile
    | .error _ => .nowhere
  let files ← readTree settings logFile
  let colored ← (← IO.getStderr).isTty
  match Program.prepare { words, settings, files, colored, time := ← now } with
  | (.error reason, p) =>
    let _ ← writeLog p logFile
    let (output, errors) := reason.parting
    IO.print output
    IO.eprint errors
    match reason with
    | .exit reason => return UInt32.ofNat reason.code
    | _ =>
      IO.eprintln ("lumen: " ++ reason.message)
      return 1
  | (.ok (), p) =>
    let interactive ← (← IO.getStdin).isTty
    let p ← writeLog p logFile
    converse { interactive, prompt := Console.defaultPrompt } logFile p
    return 0

end MiniLisp.Command

def main (words : List String) : IO UInt32 :=
  MiniLisp.Command.run words
