import MiniLisp.Token.Basic

namespace MiniLisp

namespace Text

theorem mem_of_mem_splitOnP {p : Char → Bool} {text part : List Char} {c : Char}
    (member : part ∈ text.splitOnP p) (inside : c ∈ part) : c ∈ text ∧ p c = false := by
  induction text generalizing part with
  | nil =>
      rw [List.splitOnP_nil, List.mem_singleton] at member
      subst member
      contradiction
  | cons d text ih =>
      rw [List.splitOnP_cons_eq_if_modifyHead] at member
      split at member
      · rcases List.mem_cons.mp member with rfl | member
        · contradiction
        · exact (ih member inside).imp_left (List.mem_cons_of_mem d)
      · rename_i keep
        cases parts : text.splitOnP p with
        | nil => exact absurd parts (List.splitOnP_ne_nil p text)
        | cons first rest =>
            rw [parts, List.modifyHead_cons] at member
            rcases List.mem_cons.mp member with rfl | member
            · rcases List.mem_cons.mp inside with rfl | inside
              · exact ⟨List.mem_cons_self, by simpa using keep⟩
              · have found := ih (parts ▸ List.mem_cons_self) inside
                exact found.imp_left (List.mem_cons_of_mem d)
            · have found := ih (parts ▸ List.mem_cons_of_mem first member) inside
              exact found.imp_left (List.mem_cons_of_mem d)

theorem mem_of_mem_words {text word : List Char} {c : Char} (member : word ∈ words text)
    (inside : c ∈ word) : c ∈ text ∧ isBlank c = false :=
  mem_of_mem_splitOnP (List.mem_filter.mp member).1 inside

theorem ne_nil_of_mem_words {text word : List Char} (member : word ∈ words text) : word ≠ [] := by
  have kept := (List.mem_filter.mp member).2
  rintro rfl
  contradiction

theorem words_append_blank {c : Char} (blank : isBlank c = true) (left right : List Char) :
    words (left ++ c :: right) = words left ++ words right := by
  unfold words
  rw [List.splitOnP_append_cons left right blank, List.filter_append]

theorem words_nil : words [] = [] := by
  simp [words]

theorem words_blank_cons {c : Char} (blank : isBlank c = true) (text : List Char) :
    words (c :: text) = words text := by
  have split := words_append_blank blank [] text
  rwa [words_nil] at split

theorem words_solid {word : List Char} (nonempty : word ≠ [])
    (unblank : ∀ c ∈ word, isBlank c = false) : words word = [word] := by
  have single : word.splitOnP isBlank = [word] := by
    apply List.splitOnP_eq_singleton
    simpa using unblank
  simp [words, single, nonempty]

end Text

namespace Token

def isParenthesis (c : Char) : Prop :=
  c = '(' ∨ c = ')'

theorem words_isolated {c : Char} (parenthesis : isParenthesis c) (left right : List Char) :
    Text.words (left ++ (' ' :: c :: ' ' :: right)) =
      Text.words left ++ [c] :: Text.words right := by
  have space : Text.isBlank ' ' = true := by decide
  have alone : Text.words [c] = [[c]] := by
    rcases parenthesis with rfl | rfl <;> decide +kernel
  have middle : c :: ' ' :: right = [c] ++ ' ' :: right := rfl
  rw [Text.words_append_blank space, middle, Text.words_append_blank space, alone]
  rfl

/-- The words of a text in which parentheses are set apart. -/
def isolated (text : List Char) : List (List Char) :=
  Text.words (text.flatMap isolate)

theorem isolated_append {c : Char} (parenthesis : isParenthesis c) (before after : List Char) :
    isolated (before ++ c :: after) = isolated before ++ [c] :: isolated after := by
  have apart : isolate c = [' ', c, ' '] := if_pos parenthesis
  unfold isolated
  rw [List.flatMap_append, List.flatMap_cons, apart]
  exact words_isolated parenthesis _ _

/-- The tokens of a text. -/
def split (text : List Char) : List Token :=
  (isolated text).map ofWord

theorem split_append {c : Char} (parenthesis : isParenthesis c) (before after : List Char) :
    split (before ++ c :: after) = split before ++ ofWord [c] :: split after := by
  unfold split
  rw [isolated_append parenthesis, List.map_append, List.map_cons]

theorem split_cons {c : Char} (parenthesis : isParenthesis c) (text : List Char) :
    split (c :: text) = ofWord [c] :: split text := by
  have nothing : split [] = [] := congrArg _ Text.words_nil
  have apart := split_append parenthesis [] text
  rwa [nothing] at apart

theorem ofWord_of_plain {word : List Char} (plain : ∀ c ∈ word, ¬ isParenthesis c) :
    ofWord word = .atom (String.ofList word) := by
  unfold ofWord
  split
  · exact absurd (.inl rfl) (plain '(' (List.mem_singleton_self _))
  · exact absurd (.inr rfl) (plain ')' (List.mem_singleton_self _))
  · rfl

/-- A word is a parenthesis or has none. The characters before the text are of an unfinished word. -/
theorem mem_words_isolate {before text word : List Char} (plain : ∀ c ∈ before, ¬ isParenthesis c)
    (member : word ∈ Text.words (before ++ text.flatMap isolate)) :
    (∃ c, isParenthesis c ∧ word = [c]) ∨ ∀ c ∈ word, ¬ isParenthesis c := by
  induction text generalizing before with
  | nil =>
      refine .inr fun c inside => ?_
      rw [List.flatMap_nil, List.append_nil] at member
      exact plain c (Text.mem_of_mem_words member inside).1
  | cons c text ih =>
      rw [List.flatMap_cons] at member
      by_cases parenthesis : isParenthesis c
      · have isolated : isolate c = [' ', c, ' '] := if_pos parenthesis
        rw [isolated, List.cons_append, List.cons_append, List.singleton_append,
          words_isolated parenthesis] at member
        rcases List.mem_append.mp member with member | member
        · exact .inr fun d inside => plain d (Text.mem_of_mem_words member inside).1
        · rcases List.mem_cons.mp member with rfl | member
          · exact .inl ⟨c, parenthesis, rfl⟩
          · exact ih (List.forall_mem_nil _) member
      · have kept : isolate c = [c] := if_neg parenthesis
        rw [kept, ← List.append_assoc] at member
        refine ih ?_ member
        intro d inside
        rcases List.mem_append.mp inside with inside | inside
        · exact plain d inside
        · rwa [List.mem_singleton.mp inside]

/-- What the text of an atom is made of. -/
structure Solid (text : String) : Prop where
  nonempty : text ≠ ""
  unblank : ∀ c ∈ text.toList, Text.isBlank c = false
  plain : ∀ c ∈ text.toList, ¬ isParenthesis c

theorem Solid.ofWord_eq {text : String} (solid : Solid text) : ofWord text.toList = .atom text := by
  rw [ofWord_of_plain solid.plain, String.ofList_toList]

def AllSolid (tokens : List Token) : Prop :=
  ∀ text, .atom text ∈ tokens → Solid text

theorem solid_of_mem_tokenize {source text : String} (member : .atom text ∈ tokenize source) :
    Solid text := by
  obtain ⟨word, present, same⟩ := List.mem_map.mp member
  have content : text.toList = word ∧ ¬ ∃ c, isParenthesis c ∧ word = [c] := by
    unfold ofWord at same
    split at same
    · contradiction
    · contradiction
    · rename_i noOpening noClosing
      cases same
      refine ⟨String.toList_ofList, ?_⟩
      rintro ⟨c, rfl | rfl, rfl⟩
      · exact noOpening rfl
      · exact noClosing rfl
  obtain ⟨rfl, alone⟩ := content
  refine ⟨?_, fun c inside => (Text.mem_of_mem_words present inside).2, ?_⟩
  · rintro rfl
    exact Text.ne_nil_of_mem_words present rfl
  · exact (mem_words_isolate (List.forall_mem_nil _) present).resolve_left alone

end Token

end MiniLisp
