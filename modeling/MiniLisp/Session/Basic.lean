import MiniLisp.Evaluation
import MiniLisp.Token.Stream

/-! # Sessions

A session keeps a store from line to line. Its first frame is the root, which binds the builtins
and every name defined at the top level. A line is one value; what follows it is ignored. A prelude
is a text of any number of values, evaluated up to the first failure.

Every operation gives its outcome together with the session that it leaves. Failures leave a
session too, with whatever was bound before them.
-/

namespace MiniLisp

structure Session where
  store : Store
  /-- How deeply evaluation may nest. -/
  depth : Nat

namespace Session

def root : FrameId := 0

/-- The depth when nothing else is asked for. -/
def defaultDepth : Nat := 1000

/-- A session with nothing but the builtins bound. -/
def start (depth : Nat) : Session where
  store := (Store.allocate {} none).2.install root
  depth := depth

def note (s : Session) (e : Event) : Session :=
  { s with store := s.store.note e }

def evaluate (s : Session) (expr : Value) : Except Error Value × Session :=
  let (outcome, store) := (MiniLisp.evaluate s.depth expr root).run.run s.store
  (outcome, { s with store })

/-- Evaluates the first value of the text. -/
def evaluateSource (s : Session) (source : String) : Except Error Value × Session :=
  match Value.read (Token.tokenize source) with
  | .error reason => (.error (.unreadable reason), s)
  | .ok (expr, rest) =>
    (if rest.isEmpty then s else s.note (.ignoredTokens rest.length)).evaluate expr

/-- Evaluates values in order, up to the first one that fails. -/
def evaluateForms (s : Session) : List Value → Except Error Unit × Session
  | [] => (.ok (), s)
  | form :: rest =>
    match s.evaluate form with
    | (.error e, t) => (.error e, t)
    | (.ok _, t) => t.evaluateForms rest

/-- Evaluates every value of the text. That the text ends badly counts only once all values before
the bad end have been evaluated. -/
def evaluatePrelude (s : Session) (text : String) : Except Error Unit × Session :=
  let (forms, failure, _) := (Stream.ofSource text).readAll
  match s.evaluateForms forms, failure with
  | (.ok (), t), some reason => (.error (.unreadable reason), t)
  | result, _ => result

end Session

end MiniLisp
