import MiniLisp.Error
import MiniLisp.Table

/-! # Frames and the store

A frame binds symbols to values and may have an outer frame, in which names are looked up that it
does not bind. The store holds all frames ever made, numbered in the order of their creation, and
the history of what was done to them. Frames are never removed.
-/

namespace MiniLisp

abbrev Bindings := Table Symbol Value

structure Frame where
  bindings : Bindings := {}
  outer : Option FrameId := none

namespace Frame

/-- The bindings in braces, in the order of first binding. -/
def listing (bindings : Bindings) : String :=
  let items := bindings.entries.map fun (s, v) => s.name ++ ": " ++ v.inspect
  "\x7b" ++ ", ".intercalate items ++ "\x7d"

/-- The bindings, with an arrow when there is an outer frame. -/
def text (frame : Frame) : String :=
  listing frame.bindings ++ if frame.outer.isSome then " -> ..." else ""

end Frame

/-- What happened in a session, as far as it left a trace. -/
inductive Event where
  | bound (frame : FrameId) (s : Symbol) (v : Value)
  | called (frame : FrameId) (content : Frame)
  | loadingPrelude (path : String)
  | ignoredTokens (count : Nat)
  | depthExceeded (line : String)

structure Store where
  frames : Array Frame := #[]
  /-- What happened, oldest first. -/
  history : Array Event := #[]

namespace Store

def note (s : Store) (e : Event) : Store :=
  { s with history := s.history.push e }

/-- Adds an empty frame and gives its number. -/
def allocate (s : Store) (outer : Option FrameId) : FrameId × Store :=
  (s.frames.size, { s with frames := s.frames.push { outer } })

def binding? (s : Store) (i : FrameId) (x : Symbol) : Option Value :=
  s.frames[i]?.bind (·.bindings.find? x)

def outer? (s : Store) (i : FrameId) : Option FrameId :=
  s.frames[i]?.bind (·.outer)

/-- The first `n` frames on the way outward from a frame. -/
def walk (s : Store) : Nat → FrameId → List FrameId
  | 0, _ => []
  | n + 1, i =>
    match s.outer? i with
    | some o => i :: s.walk n o
    | none => [i]

/-- The frames from a frame outward. No way outward visits more frames than there are. -/
def chain (s : Store) (i : FrameId) : List FrameId :=
  s.walk s.frames.size i

/-- The nearest frame that binds the symbol. -/
def find? (s : Store) (i : FrameId) (x : Symbol) : Option FrameId :=
  (s.chain i).find? fun j => (s.binding? j x).isSome

def lookup? (s : Store) (i : FrameId) (x : Symbol) : Option Value :=
  (s.find? i x).bind (s.binding? · x)

def lookup (s : Store) (i : FrameId) (x : Symbol) : Except Error Value :=
  match s.lookup? i x with
  | some v => .ok v
  | none => .error (.unbound x)

/-- Binds the symbol in this frame; outer frames are never touched. -/
def bind (s : Store) (i : FrameId) (x : Symbol) (v : Value) : Store :=
  { s with frames := s.frames.modify i fun f => { f with bindings := f.bindings.insert x v } }.note
    (.bound i x v)

/-- Binds the key if it is a symbol, and gives the symbol. -/
def define (s : Store) (i : FrameId) (key v : Value) : Except Error Symbol × Store :=
  match key with
  | .symbol x => (.ok x, s.bind i x v)
  | _ => (.error (.unbindable key), s)

/-- Binds the entries in order, up to the first key that is not a symbol. The entries are a table:
a symbol written twice counts at its first place with its last value. -/
def update (s : Store) (i : FrameId) (entries : List (Value × Value)) : Except Error Unit × Store :=
  let symbolEntries := fun (l : List (Value × Value)) =>
    l.filterMap fun (key, v) => key.symbol?.map (·, v)
  let table : Bindings := .ofList (symbolEntries entries)
  let sound : Bindings := .ofList (symbolEntries (entries.takeWhile (·.1.symbol?.isSome)))
  let written := (table.entries.take sound.size).foldl (fun s (x, v) => s.bind i x v) s
  match entries.find? (·.1.symbol?.isNone) with
  | some (key, _) => (.error (.unbindable key), written)
  | none => (.ok (), written)

/-- Adds the frame of a call, with the arguments bound to the parameters. -/
def openCall (s : Store) (outer : FrameId) (params : Value) (args : List Value) :
    Except Error FrameId × Store :=
  match params.formals? with
  | none => (.error .badParameters, s)
  | some formals =>
    if formals.length = args.length then
      let frame := { bindings := .ofList (formals.zip args), outer := some outer : Frame }
      let i := s.frames.size
      (.ok i, { s with frames := s.frames.push frame }.note (.called i frame))
    else (.error (.argumentCount formals.length args.length), s)

/-- Binds the builtins. -/
def install (s : Store) (i : FrameId) : Store :=
  Builtin.all.foldl (fun s b => s.bind i b.symbol (.builtin b)) s

/-- The text of one frame. -/
def frameText (s : Store) (i : FrameId) : String :=
  (s.frames[i]?.getD {}).text

/-- The bindings of all frames from a frame outward. -/
def chainText (s : Store) (i : FrameId) : String :=
  let listings := (s.chain i).map fun j => Frame.listing (s.frames[j]?.getD {}).bindings
  "<Environment chain: " ++ " -> ".intercalate listings ++ ">"

end Store

end MiniLisp
