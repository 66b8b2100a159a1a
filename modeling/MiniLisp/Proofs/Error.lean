import MiniLisp.Proofs.Evaluation.Kinds
import MiniLisp.Proofs.Number.Text
import MiniLisp.Proofs.Token.Words
import MiniLisp.Text.Line

namespace MiniLisp

namespace Text

def OneLine (text : String) : Prop :=
  '\n' ∉ text.toList

instance (text : String) : Decidable (OneLine text) :=
  inferInstanceAs (Decidable (¬ _))

@[simp]
theorem oneLine_append {text other : String} :
    OneLine (text ++ other) ↔ OneLine text ∧ OneLine other := by
  unfold OneLine
  rw [String.toList_append, List.mem_append, not_or]

theorem oneLine_of_unblank {text : String} (unblank : ∀ c ∈ text.toList, isBlank c = false) :
    OneLine text := by
  intro member
  have solid := unblank '\n' member
  contradiction

theorem lines_append {line : List Char} (single : '\n' ∉ line) (rest : List Char) :
    lines (line ++ '\n' :: rest) = (line ++ ['\n']) :: lines rest := by
  induction line with
  | nil => rfl
  | cons c line ih =>
      have other : c ≠ '\n' := fun same => single (same ▸ List.mem_cons_self)
      have later : '\n' ∉ line := fun member => single (List.mem_cons_of_mem c member)
      rw [List.cons_append, lines, if_neg other, ih later]
      rfl

theorem lines_join {texts : List String} (single : ∀ text ∈ texts, OneLine text) :
    lines (String.join (texts.map (· ++ "\n"))).toList = texts.map (·.toList ++ ['\n']) := by
  rw [String.toList_join]
  induction texts with
  | nil => rfl
  | cons text texts ih =>
      obtain ⟨here, later⟩ := List.forall_mem_cons.mp single
      have first : (text ++ "\n").toList = text.toList ++ ['\n'] := String.toList_append
      rw [List.map_cons, List.flatMap_cons, first, List.append_assoc, List.singleton_append,
        lines_append here, ih later, List.map_cons]

end Text

open Text

theorem Token.Solid.oneLine {text : String} (solid : Solid text) : OneLine text :=
  oneLine_of_unblank solid.unblank

theorem Number.Numerals.oneLine {text : String} (numerals : Numerals text.toList) :
    OneLine text :=
  oneLine_of_unblank fun c member => (numerals c member).solid.1

theorem Builtin.oneLine_name (b : Builtin) : OneLine b.name := by
  cases b <;> decide +kernel

theorem Builtin.oneLine_placeholder (b : Builtin) : OneLine b.placeholder := by
  cases b <;> decide +kernel

theorem Keyword.oneLine_name (k : Keyword) : OneLine k.name := by
  cases k <;> decide +kernel

theorem oneLine_booleanText (b : Bool) : OneLine (booleanText b) := by
  cases b <;> decide +kernel

theorem oneLine_closurePlaceholder : OneLine closurePlaceholder := by
  decide +kernel

namespace Value

mutual

theorem Readable.oneLine : (v : Value) → v.Readable → OneLine v.render
  | .number x, _ => (Number.text_numerals x).oneLine
  | .boolean b, _ => oneLine_booleanText b
  | .symbol x, .symbol spellable => spellable.toSolid.oneLine
  | .list items, .list readable => by
      rw [render, oneLine_append, oneLine_append]
      exact ⟨⟨by decide +kernel, Readable.oneLine_items items readable⟩, by decide +kernel⟩

theorem Readable.oneLine_items : (items : List Value) → (∀ v ∈ items, v.Readable) →
    OneLine (renderItems items)
  | [], _ => by decide +kernel
  | [v], readable => Readable.oneLine v (readable v List.mem_cons_self)
  | v :: w :: rest, readable => by
      have ⟨here, later⟩ := List.forall_mem_cons.mp readable
      rw [renderItems, oneLine_append, oneLine_append]
      exact ⟨⟨Readable.oneLine v here, by decide +kernel⟩, Readable.oneLine_items (w :: rest) later⟩

end

theorem IsResult.oneLine {v : Value} (result : v.IsResult) : OneLine v.render := by
  cases result with
  | number => exact (Number.text_numerals _).oneLine
  | boolean => exact oneLine_booleanText _
  | symbol spellable => exact spellable.toSolid.oneLine
  | builtin => exact Builtin.oneLine_placeholder _
  | closure => exact oneLine_closurePlaceholder

end Value

namespace Error

theorem oneLine_plural (n : Nat) {noun : String} (single : OneLine noun) :
    OneLine (plural n noun) := by
  unfold plural
  split
  · exact single
  · exact oneLine_append.mpr ⟨single, by decide +kernel⟩

theorem FromSource.oneLine {e : Error} (reached : e.FromSource) : OneLine e.message := by
  have count (n : Int) : OneLine (toString n) := (Number.toString_numerals n).oneLine
  cases reached with
  | @unreadable reason => cases reason <;> decide +kernel
  | badParameters | emptyList | divisionByZero | tooDeep => decide +kernel
  | badTarget readable =>
      dsimp only [message]
      rw [oneLine_append]
      exact ⟨by decide +kernel, readable.oneLine⟩
  | unbound spellable =>
      dsimp only [message]
      rw [oneLine_append]
      exact ⟨by decide +kernel, spellable.toSolid.oneLine⟩
  | notBoolean result | notFunction result =>
      dsimp only [message]
      rw [oneLine_append]
      exact ⟨by decide +kernel, result.oneLine⟩
  | notNumber result =>
      dsimp only [message]
      rw [oneLine_append, oneLine_append]
      exact ⟨⟨Builtin.oneLine_name _, by decide +kernel⟩, result.oneLine⟩
  | operandCount =>
      dsimp only [message]
      rw [oneLine_append, oneLine_append, oneLine_append, oneLine_append]
      exact ⟨⟨⟨⟨Keyword.oneLine_name _, by decide +kernel⟩, count (Keyword.operandCount _)⟩,
        by decide +kernel⟩, count (_ : Nat)⟩
  | argumentCount =>
      dsimp only [message]
      rw [oneLine_append, oneLine_append, oneLine_append]
      exact ⟨⟨⟨by decide +kernel, count (_ : Nat)⟩, by decide +kernel⟩, count _⟩
  | tooFewArguments =>
      dsimp only [message]
      rw [oneLine_append, oneLine_append, oneLine_append, oneLine_append]
      exact ⟨⟨⟨⟨Builtin.oneLine_name _, by decide +kernel⟩, count (Builtin.leastArguments _)⟩,
        by decide +kernel⟩, oneLine_plural _ (by decide +kernel)⟩

end Error

/-- Texts with different first characters differ. -/
theorem append_ne {start text : String} (apart : start.toList.head?.isSome ∧
    start.toList.head? ≠ text.toList.head?) (rest : String) : start ++ rest ≠ text := by
  rintro rfl
  obtain ⟨c, first⟩ := Option.isSome_iff_exists.mp apart.1
  rw [String.toList_append, List.head?_append, first] at apart
  exact apart.2 rfl

namespace Error

/-- Two messages begin with this character. -/
theorem eq_of_message {e : Error} {text : String} (start : text.toList.head? = some 'm')
    (same : e.message = text) : e = .tooDeep ∨ e = .unreadable .missingToken := by
  have other (first rest : String) (apart : first.toList.head?.isSome ∧
      first.toList.head? ≠ some 'm') : first ++ rest ≠ text :=
    append_ne (start ▸ apart) rest
  have whole (message : String) (apart : message.toList.head?.isSome ∧
      message.toList.head? ≠ some 'm') : message ≠ text := by
    have different := other message "" apart
    rwa [String.append_empty] at different
  cases e with
  | tooDeep => exact .inl rfl
  | unreadable reason =>
      cases reason with
      | missingToken => exact .inr rfl
      | unexpectedClosing | unbalanced => exact absurd same (whole _ (by decide +kernel))
  | badParameters | bareClosure | emptyList | divisionByZero =>
      exact absurd same (whole _ (by decide +kernel))
  | unbound | badTarget | notBoolean | notFunction | unevaluable =>
      exact absurd same (other _ _ (by decide +kernel))
  | unbindable =>
      dsimp only [message] at same
      rw [String.append_assoc] at same
      exact absurd same (other _ _ (by decide +kernel))
  | argumentCount =>
      dsimp only [message] at same
      simp only [String.append_assoc] at same
      exact absurd same (other _ _ (by decide +kernel))
  | operandCount k =>
      dsimp only [message] at same
      simp only [String.append_assoc] at same
      exact absurd same (other _ _ (by cases k <;> decide +kernel))
  | tooFewArguments b | notNumber b =>
      dsimp only [message] at same
      simp only [String.append_assoc] at same
      exact absurd same (other _ _ (by cases b <;> decide +kernel))

theorem eq_tooDeep_of_message {e : Error} (same : e.message = Error.tooDeep.message) :
    e = .tooDeep := by
  refine (eq_of_message (by decide +kernel) same).resolve_right ?_
  rintro rfl
  exact absurd same (by decide +kernel)

theorem eq_missingToken_of_message {e : Error} (same : e.message = "missing token") :
    e = .unreadable .missingToken := by
  refine (eq_of_message (by decide +kernel) same).resolve_left ?_
  rintro rfl
  exact absurd same (by decide +kernel)

end Error

end MiniLisp
