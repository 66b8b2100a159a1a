import MiniLisp.Editor.Workspace

namespace MiniLisp

/-- What becomes of a document. The text after a change is the whole new text. -/
inductive Notification where
  | opened (text : String)
  | changed (text : String)
  | closed
deriving DecidableEq, Repr

/-- What is asked about a document. -/
inductive Query where
  | hover (p : Text.Position)
  | completions
  | definitions
deriving DecidableEq, Repr

inductive Message where
  | notify (uri : String) (n : Notification)
  | ask (uri : String) (q : Query)
deriving DecidableEq, Repr

inductive Answer where
  | hover (found : Except Text.RangeError (Option String))
  | completions (items : List Completion)
  | definitions (found : Option (List (String × Definition)))

inductive Reply where
  | published (p : Publication)
  | answered (a : Answer)

namespace Workspace

def notify (w : Workspace) (uri : String) : Notification → Publication × Workspace
  | .opened text | .changed text => w.write uri text
  | .closed => w.close uri

def answer (w : Workspace) (uri : String) : Query → Answer
  | .hover p => .hover (w.hover uri p)
  | .completions => .completions (w.completions uri)
  | .definitions => .definitions (w.definitions? uri)

def handle (w : Workspace) : Message → Reply × Workspace
  | .notify uri n => (.published (w.notify uri n).1, (w.notify uri n).2)
  | .ask uri q => (.answered (w.answer uri q), w)

/-- The replies to the messages, one after the other, and the workspace after the last. -/
def run (w : Workspace) : List Message → List Reply × Workspace
  | [] => ([], w)
  | m :: messages =>
    let (reply, next) := w.handle m
    let (replies, last) := run next messages
    (reply :: replies, last)

end Workspace

end MiniLisp
