import MiniLisp.Error
import MiniLisp.Files.Tree
import MiniLisp.Settings

namespace MiniLisp

/-- A source that a session evaluates before its first line: the one that ships with the program,
which is no file of the host, or a file that the search path leads to. -/
inductive Prelude where
  | bundled
  | file (path : Path)
deriving DecidableEq, Repr

namespace Prelude

/-- The text of the prelude that ships with the program. -/
def bundledText : String :=
  "(define not (lambda (b) (if b false true)))\n" ++
  "(define abs (lambda (x) (if (< x 0) (- x) x)))\n" ++
  "(define max (lambda (a b) (if (> a b) a b)))\n" ++
  "(define min (lambda (a b) (if (< a b) a b)))\n"

/-- What a prelude is called where its loading is logged. -/
def title : Prelude → String
  | .bundled => PreludeRoot.bundled.text ++ "/core.lisp"
  | .file path => path.text

/-- The source text of a prelude. -/
def source (t : FileTree) : Prelude → Except FileError String
  | .bundled => .ok bundledText
  | .file path => t.readText path

end Prelude

namespace FileTree

/-- What a search path entry contributes: a directory its entries whose names end in `.lisp`, a file
itself, and anything else nothing. A name that is too long is an error. -/
def preludesAt (t : FileTree) : PreludeRoot → Except FileError (List Prelude)
  | .bundled => .ok [.bundled]
  | .path root =>
    match t.locate root with
    | .error .nameTooLong => .error .nameTooLong
    | .error _ => .ok []
    | .ok l =>
      if t.isDirectory l then
        .ok (((t.names l).filter (·.endsWith ".lisp")).map fun name => .file (root.child name))
      else if t.isFile l then .ok [.file root]
      else .ok []

/-- The preludes to load, in order. -/
def preludes (t : FileTree) (v : Variables) : Except FileError (List Prelude) :=
  (v.preludeRoots.mapM t.preludesAt).map List.flatten

end FileTree

/-- Why the loading of preludes stopped. -/
inductive LoadError where
  | file (reason : FileError)
  | language (reason : Error)

def LoadError.message : LoadError → String
  | .file reason => reason.message
  | .language reason => reason.message

end MiniLisp
