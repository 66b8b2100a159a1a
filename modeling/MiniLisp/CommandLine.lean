import MiniLisp.Log.Level
import MiniLisp.Number.Reading

/-! # The command line

Every word is classified on its own before any is acted on: as an option, possibly with a value
joined to it, or as an operand. A long option may be shortened to a prefix that fits no other
option. Words in front of which there is a dash are operands still when they look like negative
numbers or contain a space, and after a double dash all are. Options then act from left to right;
operands, which the program has no use for, are reported only when all options have acted.
-/

namespace MiniLisp.CommandLine

inductive Flag where
  | help | noPrelude | logLevel | logFile | version
deriving DecidableEq, Repr

/-- The spellings of all options, in the order in which they are documented. -/
def spellings : List (String × Flag) :=
  [("-h", .help), ("--help", .help), ("--no-prelude", .noPrelude), ("--log-level", .logLevel),
    ("--log-file", .logFile), ("--version", .version)]

def Flag.takesValue : Flag → Bool
  | .logLevel | .logFile => true
  | .help | .noPrelude | .version => false

/-- All spellings of an option with slashes between them. -/
def Flag.title (f : Flag) : String :=
  "/".intercalate ((spellings.filter (·.2 = f)).map Prod.fst)

/-- A value joined to an option, after an equals sign or directly behind a letter. -/
structure Joined where
  /-- Whether the option is spelled with a single letter. -/
  toLetter : Bool
  text : List Char
deriving DecidableEq, Repr

inductive Word where
  | operand (text : String)
  /-- The double dash, after which all words are operands. -/
  | separator
  | option (flag : Flag) (joined : Option Joined)
  | unknown (text : String)
deriving DecidableEq, Repr

inductive Misuse where
  | ambiguous (word : String) (spellings : List String)
  | missingValue (flag : Flag)
  | surplusValue (flag : Flag) (value : String)
  | badLevel (name : String)
  | unrecognized (words : List String)
deriving DecidableEq, Repr

def Misuse.message : Misuse → String
  | .ambiguous word spellings =>
    "ambiguous option: " ++ word ++ " could match " ++ ", ".intercalate spellings
  | .missingValue flag => "argument " ++ flag.title ++ ": expected one argument"
  | .surplusValue flag value =>
    "argument " ++ flag.title ++ ": ignored explicit argument " ++ Text.quoted value
  | .badLevel name =>
    "argument " ++ Flag.logLevel.title ++ ": invalid choice: " ++ Text.quoted name ++
      " (choose from " ++
      ", ".intercalate (Level.choices.map fun choice => Text.quoted choice.1) ++ ")"
  | .unrecognized words => "unrecognized arguments: " ++ " ".intercalate words

/-- Whether text after a dash is digits, perhaps with a point and more digits; a line feed may
follow. -/
def isNumeral (text : List Char) : Bool :=
  let ended := fun (rest : List Char) => rest = [] ∨ rest = ['\n']
  match Number.readDigits text with
  | (_, '.' :: rest) =>
    let (fraction, rest) := Number.readDigits rest
    !fraction.isEmpty && ended rest
  | (whole, rest) => !whole.isEmpty && ended rest

/-- The part of a word before an equals sign, and the value after it. -/
def splitEquals (word : List Char) : List Char × Option Joined :=
  match word.dropWhile (· ≠ '=') with
  | [] => (word, none)
  | _ :: value =>
    let name := word.takeWhile (· ≠ '=')
    (name, some ⟨name.take 2 ≠ ['-', '-'], value⟩)

/-- The options that a word may mean when it spells none exactly. -/
def interpretations (word : List Char) : List (String × Flag × Option Joined) :=
  match word with
  | '-' :: '-' :: _ =>
    let (name, joined) := splitEquals word
    let fitting := spellings.filter fun (spelling, _) => name.isPrefixOf spelling.toList
    fitting.map fun (spelling, flag) => (spelling, flag, joined)
  | '-' :: letter :: value =>
    let fitting := spellings.filter fun (spelling, _) => spelling.toList = ['-', letter]
    fitting.map fun (spelling, flag) => (spelling, flag, some ⟨true, value⟩)
  | _ => []

def classify (word : String) : Except Misuse Word :=
  match word.toList with
  | '-' :: rest =>
    let (name, joined) := splitEquals word.toList
    match spellings.lookup word, spellings.lookup (String.ofList name) with
    | some flag, _ => .ok (.option flag none)
    | none, some flag => .ok (.option flag joined)
    | none, none =>
      match interpretations word.toList with
      | [(_, flag, joined)] => .ok (.option flag joined)
      | [] =>
        if rest.isEmpty || isNumeral rest || rest.contains ' ' then .ok (.operand word)
        else .ok (.unknown word)
      | several => .error (.ambiguous word (several.map Prod.fst))
  | _ => .ok (.operand word)

def classifyAll : List String → Except Misuse (List Word)
  | [] => .ok []
  | word :: rest =>
    if word = "--" then .ok (.separator :: rest.map .operand)
    else do
      let first ← classify word
      let others ← classifyAll rest
      pure (first :: others)

structure Options where
  noPrelude : Bool := false
  logLevel : LevelRequest
  logFile : FileRequest := .nowhere
deriving DecidableEq, Repr

/-- Why a program ends before it starts. -/
inductive Exit where
  | help
  | version
  | misuse (reason : Misuse)
deriving DecidableEq, Repr

/-- How text joined to the short option of the help ends. Each of its letters may be the same
option again, and nothing else. -/
def endHelp (letters : List Char) : Exit :=
  match letters, letters.dropWhile (· = 'h') with
  | _ :: _, [] => .help
  | _, rest => .misuse (.surplusValue .help (String.ofList rest))

/-- Acts on an option that takes no value. -/
def switch (o : Options) : Flag → Except Exit Options
  | .help => .error .help
  | .version => .error .version
  | .noPrelude => .ok { o with noPrelude := true }
  | .logLevel | .logFile => .ok o

/-- Acts on an option with its value. -/
def assign (o : Options) (flag : Flag) (value : String) : Except Exit Options :=
  match flag with
  | .logLevel =>
    match Level.ofChoice? value with
    | some level => .ok { o with logLevel := .ranked level }
    | none => .error (.misuse (.badLevel (Text.upper value)))
  | .logFile => .ok { o with logFile := .named value }
  | .help | .noPrelude | .version => .ok o

/-- Acts on an option with a value joined to it. A double dash is taken away even there, which
leaves the option without a value. -/
def assignJoined (o : Options) (flag : Flag) (value : String) : Except Exit Options :=
  if value = "--" then
    match flag with
    | .logLevel => .ok { o with logLevel := .absent }
    | .logFile => .ok { o with logFile := .absent }
    | .help | .noPrelude | .version => .ok o
  else assign o flag value

/-- Acts on words from left to right. `surplus` holds the words that have no use, last one first. -/
def act (o : Options) (surplus : List String) : List Word → Except Exit Options
  | [] => if surplus.isEmpty then .ok o else .error (.misuse (.unrecognized surplus.reverse))
  | .operand text :: rest => act o (text :: surplus) rest
  | .separator :: rest => act o ("--" :: surplus) rest
  | .unknown text :: rest => act o (text :: surplus) rest
  | .option flag (some joined) :: rest =>
    if flag.takesValue then do
      let o ← assignJoined o flag (String.ofList joined.text)
      act o surplus rest
    else if joined.toLetter then .error (endHelp joined.text)
    else .error (.misuse (.surplusValue flag (String.ofList joined.text)))
  | .option flag none :: rest =>
    if flag.takesValue then
      match rest with
      | .operand value :: rest => do
        let o ← assign o flag value
        act o surplus rest
      | _ => .error (.misuse (.missingValue flag))
    else do
      let o ← switch o flag
      act o surplus rest

/-- The options that the words choose. The level is the given one unless a word says otherwise. -/
def parse (level : Level) (words : List String) : Except Exit Options :=
  match classifyAll words with
  | .error reason => .error (.misuse reason)
  | .ok words => act { logLevel := .ranked level } [] words

def usage : String :=
  "usage: lumen [-h] [--no-prelude]\n" ++
  "             [--log-level \x7bDEBUG,INFO,WARNING,ERROR,CRITICAL\x7d]\n" ++
  "             [--log-file LOG_FILE] [--version]\n"

def help : String :=
  usage ++
  "\n" ++
  "Interactive Lumen interpreter.\n" ++
  "\n" ++
  "options:\n" ++
  "  -h, --help            show this help message and exit\n" ++
  "  --no-prelude          Start with only the builtins bound.\n" ++
  "  --log-level \x7bDEBUG,INFO,WARNING,ERROR,CRITICAL\x7d\n" ++
  "                        Log level for the console handler (default from\n" ++
  "                        LUMEN_LOG_LEVEL).\n" ++
  "  --log-file LOG_FILE   Also write DEBUG logs to this file.\n" ++
  "  --version             show program's version number and exit\n"

def version : String := "lumen 0.3.0\n"

namespace Exit

def code : Exit → Nat
  | .help | .version => 0
  | .misuse _ => 2

def output : Exit → String
  | .help => CommandLine.help
  | .version => CommandLine.version
  | .misuse _ => ""

def errors : Exit → String
  | .help | .version => ""
  | .misuse reason => usage ++ "lumen: error: " ++ reason.message ++ "\n"

end Exit

end MiniLisp.CommandLine
