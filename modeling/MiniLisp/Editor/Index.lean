import MiniLisp.Table
import MiniLisp.Text.Line
import MiniLisp.Token.Basic
import MiniLisp.Token.Stream

/-! # The index of a source text

The index of a text holds the names that its top-level definitions bind and the place where its
parentheses go wrong, if they do. Nothing is evaluated, and a text that is incomplete or broken has
an index too.
-/

namespace MiniLisp

inductive DefinitionKind where
  | variable | function
deriving DecidableEq, Repr

structure Definition where
  kind : DefinitionKind
  position : Text.Position
deriving DecidableEq, Repr

structure Issue where
  reason : SyntaxError
  position : Text.Position
deriving DecidableEq, Repr

structure Index where
  /-- By name, in the order of first definition, each with its last definition. -/
  definitions : Table String Definition := {}
  issue? : Option Issue := none

/-- A name being defined, and where it stands. -/
structure DefinedName where
  name : String
  kind : DefinitionKind
  offset : Nat
deriving DecidableEq, Repr

namespace DefinedName

/-- What a definition binds, given the tokens after its opening parenthesis. -/
def ofForm? : List Placed → Option DefinedName
  | ⟨.atom keyword, _⟩ :: ⟨.atom name, offset⟩ :: rest =>
    if keyword = Keyword.definition.name then
      let kind : DefinitionKind :=
        match rest with
        | ⟨.opening, _⟩ :: ⟨.atom head, _⟩ :: _ =>
          if head = Keyword.abstraction.name then .function else .variable
        | _ => .variable
      some { name, kind, offset }
    else none
  | _ => none

/-- The names defined by forms that no parenthesis encloses, given how many are open. A closing
parenthesis that matches none changes nothing. -/
def collect : Nat → List Placed → List DefinedName
  | _, [] => []
  | depth, ⟨.opening, _⟩ :: rest =>
    (if depth = 0 then (ofForm? rest).toList else []) ++ collect (depth + 1) rest
  | depth, ⟨.closing, _⟩ :: rest => collect (depth - 1) rest
  | depth, ⟨.atom _, _⟩ :: rest => collect depth rest

end DefinedName

namespace Issue

/-- The offset of the first closing parenthesis that matches none, or else of the last opening one
that none matches. The open ones are given innermost first. -/
def offset? : List Nat → List Placed → Option Nat
  | opened, [] => opened.head?
  | opened, ⟨.opening, offset⟩ :: rest => offset? (offset :: opened) rest
  | [], ⟨.closing, offset⟩ :: _ => some offset
  | _ :: opened, ⟨.closing, _⟩ :: rest => offset? opened rest
  | opened, ⟨.atom _, _⟩ :: rest => offset? opened rest

def ofText? (text : String) : Option Issue :=
  let chars := text.toList
  (Stream.ofSource text).readAll.2.1.map fun reason =>
    { reason
      position :=
        match offset? [] (Placed.scan chars) with
        | some offset => .ofOffset chars offset
        | none => { line := 0, column := 0 } }

end Issue

namespace Index

def definitionsOf (chars : List Char) : Table String Definition :=
  .ofList <| (DefinedName.collect 0 (Placed.scan chars)).map fun d =>
    (d.name, { kind := d.kind, position := .ofOffset chars d.offset })

def ofText (text : String) : Index where
  definitions := definitionsOf text.toList
  issue? := Issue.ofText? text

end Index

end MiniLisp
