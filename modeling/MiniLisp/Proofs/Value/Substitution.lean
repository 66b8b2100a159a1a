import MiniLisp.Proofs.Evaluation.Invariant

/-! # Substitution of a literal for a name

`expr.subst x c` puts the literal `c` in the place of the name `x`, wherever evaluation of `expr`
may look the name up. Parameters and the targets of definitions are not looked up and stay, and so
do forms with a wrong number of operands, which are refused unread. A literal has no names of its
own, so nothing can be captured.
-/

namespace MiniLisp

namespace Value

/-- The values that a name is replaced by. -/
inductive IsLiteral : Value → Prop where
  | number : IsLiteral (.number n)
  | boolean : IsLiteral (.boolean b)

/-- The symbol is one of the parameters. -/
def declares (params : Value) (x : Symbol) : Bool :=
  match params with
  | .list items => items.any (·.symbol? = some x)
  | _ => false

mutual

def subst : Value → Symbol → Value → Value
  | .symbol y, x, c => if y = x then c else .symbol y
  | .list (head :: forms), x, c =>
    match head.keyword? with
    | some k => .list (head :: substOperands k forms x c)
    | none => .list (head.subst x c :: substAll forms x c)
  | v, _, _ => v

/-- The operands of a keyword, as far as they are evaluated. -/
def substOperands : Keyword → List Value → Symbol → Value → List Value
  | .conditional, [test, yes, no], x, c => [test.subst x c, yes.subst x c, no.subst x c]
  | .definition, [target, form], x, c => [target, form.subst x c]
  | .abstraction, [params, body], x, c =>
    [params, if params.declares x then body else body.subst x c]
  | _, forms, _, _ => forms

def substAll : List Value → Symbol → Value → List Value
  | [], _, _ => []
  | form :: forms, x, c => form.subst x c :: substAll forms x c

end

/-- Somewhere in the value the symbol is the target of a definition. -/
inductive Defines : Value → Symbol → Prop where
  | target (keyword : head.keyword? = some .definition) :
      Defines (.list [head, .symbol x, form]) x
  | item (member : v ∈ items) (inside : Defines v x) : Defines (.list items) x

variable {x y : Symbol} {c head : Value} {k : Keyword} {forms : List Value}

@[simp]
theorem subst_symbol : (Value.symbol y).subst x c = if y = x then c else .symbol y :=
  rfl

theorem substAll_eq_map : substAll forms x c = forms.map (·.subst x c) := by
  induction forms with
  | nil => rfl
  | cons form forms ih => rw [substAll, ih, List.map_cons]

theorem subst_form (keyword : head.keyword? = some k) :
    (Value.list (head :: forms)).subst x c = .list (head :: substOperands k forms x c) := by
  simp only [subst, keyword]

theorem subst_application (plain : head.keyword? = none) :
    (Value.list (head :: forms)).subst x c =
      .list (head.subst x c :: forms.map (·.subst x c)) := by
  simp only [subst, plain, substAll_eq_map]

theorem substOperands_wrong (wrong : forms.length ≠ k.operandCount) :
    substOperands k forms x c = forms := by
  unfold substOperands
  split
  · exact absurd rfl wrong
  · exact absurd rfl wrong
  · exact absurd rfl wrong
  · rfl

theorem IsLiteral.isAtom (literal : c.IsLiteral) : c.IsAtom := by
  cases literal <;> constructor

theorem keyword?_subst (literal : c.IsLiteral) (plain : head.keyword? = none) :
    (head.subst x c).keyword? = none := by
  cases head with
  | symbol y =>
      rw [subst_symbol]
      split
      · cases literal <;> rfl
      · exact plain
  | list items =>
      cases items with
      | nil => rfl
      | cons first rest => cases keyword : first.keyword? <;> simp only [subst, keyword] <;> rfl
  | number | boolean | builtin | closure | foreign => rfl

theorem declares_iff {params : Value} {formals : List Symbol}
    (found : params.formals? = some formals) : params.declares x ↔ x ∈ formals := by
  rw [eq_list_of_formals? found]
  simp [declares, symbol?]

end Value

end MiniLisp
