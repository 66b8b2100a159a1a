import MiniLisp.Editor.Index
import MiniLisp.Text.Line

/-! # Workspaces

A workspace holds the open documents with their indices. A document is indexed whenever its text
changes, and its diagnostics are published then; closing it withdraws them. Requests read the
workspace and never change it.
-/

namespace MiniLisp

namespace Text

/-- Words stand between delimiters: spaces, tabs, parentheses and line ends. -/
def isDelimiter (c : Char) : Bool :=
  c = ' ' || c = '\t' || c = '(' || c = ')' || c = '\n' || c = '\r'

/-- The word around the middle of two halves of a line. -/
def wordBetween (before after : List Char) : List Char :=
  (before.reverse.takeWhile (!isDelimiter ·)).reverse ++ after.takeWhile (!isDelimiter ·)

/-- A column beyond the end of its line. -/
inductive RangeError where
  | beyondLine
deriving DecidableEq, Repr

def RangeError.message : RangeError → String
  | .beyondLine => "string index out of range"

/-- The word at a position. There is none on a line beyond the end of the text; on a line that
exists, the column is at most the line's length, line end included. -/
def wordAt (text : List Char) (p : Position) : Except RangeError (Option (List Char)) :=
  match (allLines text)[p.line]? with
  | none => .ok none
  | some line =>
    if line.length < p.column then .error .beyondLine
    else
      let word := wordBetween (line.take p.column) (line.drop p.column)
      .ok (if word.isEmpty then none else some word)

end Text

/-- A piece of one line. -/
structure Span where
  line : Nat
  start : Nat
  stop : Nat
deriving DecidableEq, Repr

inductive Severity where
  | error | warning | information | hint
deriving DecidableEq, Repr

/-- The number that editors know a severity by. -/
def Severity.rank : Severity → Nat
  | .error => 1
  | .warning => 2
  | .information => 3
  | .hint => 4

structure Diagnostic where
  span : Span
  message : String
  severity : Severity
  /-- The name of the program that found it. -/
  source : String
deriving DecidableEq, Repr

/-- An issue is shown on the one character where it is. -/
def Issue.diagnostic (i : Issue) : Diagnostic where
  span := { line := i.position.line, start := i.position.column, stop := i.position.column + 1 }
  message := i.reason.message
  severity := .error
  source := "lumen-ls"

def Index.diagnostics (i : Index) : List Diagnostic :=
  i.issue?.toList.map Issue.diagnostic

/-- How a form of the keyword is written. -/
def Keyword.signature : Keyword → String
  | .conditional => "(if test then else)"
  | .definition => "(define name value)"
  | .abstraction => "(lambda (params ...) body)"

/-- How a call of the builtin is written. -/
def Builtin.signature : Builtin → String
  | .add => "(+ num ...)"
  | .multiply => "(* num ...)"
  | b => "(" ++ b.name ++ " num num ...)"

def DefinitionKind.text : DefinitionKind → String
  | .variable => "var"
  | .function => "function"

/-- Positions are shown counting from one. -/
def Definition.summary (d : Definition) (name : String) : String :=
  name ++ ": " ++ d.kind.text ++ " (defined at " ++ toString (d.position.line + 1) ++ ":" ++
    toString (d.position.column + 1) ++ ")"

def Definition.span (d : Definition) (name : String) : Span where
  line := d.position.line
  start := d.position.column
  stop := d.position.column + name.length

structure Document where
  text : String
  index : Index

namespace Document

def ofText (text : String) : Document where
  text := text
  index := .ofText text

/-- What is known of a word. Keywords come first and builtins second, whatever the text defines. -/
def describe? (d : Document) (word : String) : Option String :=
  match Keyword.ofName? word, Builtin.ofName? word with
  | some k, _ => some k.signature
  | none, some b => some b.signature
  | none, none => (d.index.definitions.find? word).map (·.summary word)

end Document

inductive CompletionKind where
  | keyword | function | variable
deriving DecidableEq, Repr

structure Completion where
  label : String
  kind : CompletionKind
  detail : Option String
deriving DecidableEq, Repr

def Definition.completion (d : Definition) (name : String) : Completion where
  label := name
  kind :=
    match d.kind with
    | .function => .function
    | .variable => .variable
  detail := none

/-- The diagnostics of a document, which replace all earlier ones. -/
structure Publication where
  uri : String
  diagnostics : List Diagnostic
deriving DecidableEq, Repr

structure Workspace where
  documents : Table String Document := {}

namespace Workspace

/-- Takes the text as the document's, whether it is open or not. -/
def write (w : Workspace) (uri text : String) : Publication × Workspace :=
  let document := Document.ofText text
  ({ uri, diagnostics := document.index.diagnostics },
    { w with documents := w.documents.insert uri document })

def close (w : Workspace) (uri : String) : Publication × Workspace :=
  ({ uri, diagnostics := [] }, { w with documents := w.documents.erase uri })

/-- The names of the open documents, in the order of their characters. -/
def uris (w : Workspace) : List String :=
  w.documents.keys.mergeSort (· ≤ ·)

/-- What is known of the word at a position of a document. -/
def hover (w : Workspace) (uri : String) (p : Text.Position) :
    Except Text.RangeError (Option String) :=
  match w.documents.find? uri with
  | none => .ok none
  | some document =>
    (Text.wordAt document.text.toList p).map fun word? =>
      word?.bind fun word => document.describe? (String.ofList word)

/-- Keywords, builtins, and what the document defines, if it is open. -/
def completions (w : Workspace) (uri : String) : List Completion :=
  let keywords := Keyword.all.map fun k => ⟨k.name, .keyword, some k.signature⟩
  let builtins := Builtin.all.map fun b => ⟨b.name, .function, some b.signature⟩
  let defined :=
    match w.documents.find? uri with
    | none => []
    | some document => document.index.definitions.entries.map fun (name, d) => d.completion name
  keywords ++ builtins ++ defined

/-- The definitions of a document, if it is open. -/
def definitions? (w : Workspace) (uri : String) : Option (List (String × Definition)) :=
  (w.documents.find? uri).map (·.index.definitions.entries)

end Workspace

end MiniLisp
