import MiniLisp.Arithmetic
import MiniLisp.Store.Basic

/-! # Evaluation

Symbols are looked up, atoms stand for themselves, and a list is a form of its keyword or else an
application. The keyword is decided on the head before anything is evaluated, so no binding can
take its place.

Evaluation is bounded by a depth. Each nested evaluation, the handling of a keyword, an application
and the call of a closure take one step of it, the evaluation of arguments two. These costs are
assumed, and looking a symbol up or computing a builtin is assumed to take none. When no depth is
left evaluation stops with `Error.tooDeep`; whatever was bound until then stays.
-/

namespace MiniLisp

/-- A computation on the store. A failure keeps what was done before it. -/
abbrev Eval := ExceptT Error (StateM Store)

namespace Eval

/-- Fails, unless there is not even depth left to write the message. -/
def raise {α : Type} (depth : Nat) (e : Error) : Eval α :=
  throw (if e.depth ≤ depth then e else .tooDeep)

def lookup (frame : FrameId) (x : Symbol) : Eval Value := do
  match (← get).lookup frame x with
  | .ok v => pure v
  | .error e => throw e

def bind (frame : FrameId) (x : Symbol) (v : Value) : Eval Unit :=
  modify (·.bind frame x v)

def openCall (outer : FrameId) (params : Value) (args : List Value) : Eval FrameId :=
  ExceptT.mk fun s => s.openCall outer params args

end Eval

/-- Checks a number of arguments, be it any integer, against the parameters of a closure. -/
def Value.checkArity (params : Value) (provided : Int) : Except Error Unit :=
  match params.formals? with
  | none => .error .badParameters
  | some formals =>
    if formals.length = provided then .ok () else .error (.argumentCount formals.length provided)

mutual

def evaluate : Nat → Value → FrameId → Eval Value
  | 0, _, _ => throw .tooDeep
  | depth + 1, expr, frame =>
    match expr with
    | .symbol x => Eval.lookup frame x
    | .number _ | .boolean _ | .builtin _ => pure expr
    | .closure .. => throw .bareClosure
    | .foreign v => throw (.unevaluable v)
    | .list [] => throw .emptyList
    | .list (head :: forms) =>
      match head.keyword? with
      | some k => evaluateForm depth k forms frame
      | none => do
        let function ← evaluate depth head frame
        apply depth function forms frame
termination_by structural depth => depth

/-- A form of a keyword, given the forms after it. -/
def evaluateForm : Nat → Keyword → List Value → FrameId → Eval Value
  | 0, _, _, _ => throw .tooDeep
  | depth + 1, .conditional, [test, yes, no], frame => do
    match ← evaluate depth test frame with
    | .boolean b => evaluate depth (if b then yes else no) frame
    | v => Eval.raise depth (.notBoolean v)
  | depth + 1, .definition, [target, form], frame => do
    match target with
    | .symbol x =>
      let v ← evaluate depth form frame
      Eval.bind frame x v
      pure target
    | _ => Eval.raise depth (.badTarget target)
  | _ + 1, .abstraction, [params, body], frame => pure (.closure params body frame)
  | _ + 1, k, forms, _ => throw (.operandCount k forms.length)
termination_by structural depth => depth

/-- Applies a function to forms that are still to be evaluated. -/
def apply : Nat → Value → List Value → FrameId → Eval Value
  | 0, _, _, _ => throw .tooDeep
  | depth + 1, function, forms, frame =>
    match function with
    | .builtin b => do
      let args ← evaluateAll depth forms frame
      match b.call args with
      | .ok v => pure v
      | .error e => Eval.raise depth e
    | .closure params body outer => applyClosure depth params body outer forms frame
    | v => Eval.raise depth (.notFunction v)
termination_by structural depth => depth

/-- The number of arguments is checked before any of them is evaluated. -/
def applyClosure : Nat → Value → Value → FrameId → List Value → FrameId → Eval Value
  | 0, _, _, _, _, _ => throw .tooDeep
  | depth + 1, params, body, outer, forms, frame =>
    match params.checkArity forms.length with
    | .error e => throw e
    | .ok () => do
      let args ← evaluateAll depth forms frame
      let call ← Eval.openCall outer params args
      evaluate depth body call
termination_by structural depth => depth

/-- Evaluates forms from left to right. -/
def evaluateAll : Nat → List Value → FrameId → Eval (List Value)
  | depth + 2, forms, frame => forms.mapM fun form => evaluate depth form frame
  | _, _, _ => throw .tooDeep
termination_by structural depth => depth

end

end MiniLisp
