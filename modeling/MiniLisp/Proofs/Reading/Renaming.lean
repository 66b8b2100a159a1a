import MiniLisp.Proofs.Reading.Source
import MiniLisp.Proofs.Reading.Stream
import MiniLisp.Proofs.Token.Layout
import MiniLisp.Proofs.Value.Renaming

namespace MiniLisp

/-- The text of an atom under the other name of the symbol that it is read as, if it is one. -/
def Token.renameText (f : Symbol → Symbol) (text : String) : String :=
  match Value.ofAtom text with
  | .symbol x => (f x).name
  | _ => text

def Token.rename (f : Symbol → Symbol) : Token → Token
  | .atom text => .atom (renameText f text)
  | .opening => .opening
  | .closing => .closing

def Stream.rename (f : Symbol → Symbol) (s : Stream) : Stream :=
  { s with tokens := s.tokens.map (Token.rename f) }

theorem Stream.rest_rename (f : Symbol → Symbol) (s : Stream) :
    (s.rename f).rest = s.rest.map (Token.rename f) :=
  List.map_drop.symm

section

variable {f : Symbol → Symbol} (spelled : ∀ x : Symbol, x.Spellable → (f x).Spellable)
include spelled

theorem Token.Solid.renameText {text : String} (solid : Token.Solid text) :
    Token.Solid (Token.renameText f text) ∧
      Value.ofAtom (Token.renameText f text) = (Value.ofAtom text).rename f := by
  have readable := solid.readable
  unfold Token.renameText
  cases atom : Value.ofAtom text with
  | symbol x =>
      rw [atom] at readable
      cases readable with
      | symbol spellable =>
          have renamed := spelled x spellable
          exact ⟨renamed.toSolid, renamed.ofAtom_name⟩
  | number | boolean => exact ⟨solid, atom⟩
  | list | builtin | closure | foreign =>
      unfold Value.ofAtom at atom
      grind

theorem Token.AllSolid.rename {tokens : List Token} (solid : Token.AllSolid tokens) :
    Token.AllSolid (tokens.map (Token.rename f)) := by
  intro text member
  obtain ⟨token, present, same⟩ := List.mem_map.mp member
  cases token with
  | atom text =>
      cases same
      exact ((solid text present).renameText spelled).1
  | opening | closing => contradiction

/-- What is read, and the tokens after it. -/
def renameRead (f : Symbol → Symbol) : Value × List Token → Value × List Token :=
  Prod.map (Value.rename f) (List.map (Token.rename f))

theorem readWithin_rename {tokens : List Token} (solid : Token.AllSolid tokens)
    (stack : List (List Value)) :
    Value.readWithin (stack.map (List.map (Value.rename f))) (tokens.map (Token.rename f)) =
      (Value.readWithin stack tokens).map (renameRead f) := by
  -- On the tokens, for every stack; `completed` says how a value is put on the stack.
  induction tokens generalizing stack with
  | nil => cases stack <;> rfl
  | cons token tokens ih =>
      have later : Token.AllSolid tokens :=
        fun text member => solid text (List.mem_cons_of_mem _ member)
      have completed (stack : List (List Value)) (v : Value) :
          Value.completed (stack.map (List.map (Value.rename f))) (v.rename f)
              (tokens.map (Token.rename f)) =
            (Value.completed stack v tokens).map (renameRead f) := by
        cases stack with
        | nil => rfl
        | cons items stack => exact ih later ((v :: items) :: stack)
      cases token with
      | opening =>
          rw [readWithin_opening]
          exact (readWithin_opening _ _).trans (ih later ([] :: stack))
      | closing =>
          cases stack with
          | nil => rfl
          | cons items stack =>
              rw [readWithin_closing, ← completed, Value.rename_list, List.map_reverse]
              exact readWithin_closing _ _ _
      | atom text =>
          have renamed := ((solid text List.mem_cons_self).renameText spelled).2
          rw [readWithin_atom, ← completed, ← renamed]
          exact readWithin_atom _ _ _

theorem read_rename {tokens : List Token} (solid : Token.AllSolid tokens) :
    Value.read (tokens.map (Token.rename f)) = (Value.read tokens).map (renameRead f) := by
  cases tokens with
  | nil => rfl
  | cons token tokens => exact readWithin_rename spelled solid []

theorem next_rename {s : Stream} (solid : Token.AllSolid s.tokens) :
    (s.rename f).next = s.next.map (Prod.map (Value.rename f) (Stream.rename f)) := by
  have solid' : Token.AllSolid s.rest := fun text member => solid text (List.mem_of_mem_drop member)
  unfold Stream.next
  rw [Stream.rest_rename, read_rename spelled solid']
  cases Value.read s.rest with
  | error => rfl
  | ok result => simp [Except.map, renameRead, Stream.rename]

theorem readAll_rename {s : Stream} (solid : Token.AllSolid s.tokens) :
    (s.rename f).readAll =
      (s.readAll.1.map (Value.rename f), s.readAll.2.1, s.readAll.2.2.rename f) := by
  have next := next_rename spelled solid
  fun_induction Stream.readAll s with
  | case1 s empty =>
      refine Stream.readAll_of_nil ?_
      rw [Stream.rest_rename, List.isEmpty_iff.mp empty]
      rfl
  | case2 s more reason failed =>
      rw [failed] at next
      refine Stream.readAll_of_error ?_ next
      rw [Stream.rest_rename]
      simpa using more
  | case3 s _ v t found values failure last all ih =>
      rw [found] at next
      rw [all] at ih
      have same : t.tokens = s.tokens := (Stream.next_eq_ok_iff.mp found).1
      have solid' : Token.AllSolid t.tokens := same ▸ solid
      rw [Stream.readAll_of_ok next, ih solid' (next_rename spelled solid')]
      rfl

end

end MiniLisp
