import MiniLisp.Editor.Workspace
import MiniLisp.Proofs.Table
import MiniLisp.Proofs.Text.AllLines
import MiniLisp.Proofs.Token.Places

/-! # From the index back to the text

The index finds a name between any blanks and gives its place by line feeds. The word at a place is
found on the lines of an editor and between fewer characters. Where the two agree, a definition leads
back to its name; both can fail, each on its own.
-/

namespace MiniLisp

namespace Text

section

variable {text before word after left right line : List Char} {earlier later : List (List Char)}
  {c : Char} {k : Nat}

theorem isDelimiter_eq_false (unblank : isBlank c = false) (plain : ¬ Token.isParenthesis c) :
    isDelimiter c = false := by
  rw [Bool.eq_false_iff]
  intro delimiter
  simp only [isDelimiter, Bool.or_eq_true, decide_eq_true_eq] at delimiter
  rcases delimiter with ((((rfl | rfl) | rfl) | rfl) | rfl) | rfl
  · contradiction
  · contradiction
  · exact plain (.inl rfl)
  · exact plain (.inr rfl)
  · contradiction
  · contradiction

/-- A word goes on to both sides as far as there is no delimiter. -/
theorem wordBetween_around (whole : ∀ c ∈ word, isDelimiter c = false) (left right : List Char)
    (k : Nat) :
    wordBetween (left ++ word.take k) (word.drop k ++ right) =
      wordBetween left [] ++ (word ++ wordBetween [] right) := by
  have start : ∀ c ∈ (word.take k).reverse, (!isDelimiter c) = true := by
    intro c member
    simp [whole c (List.mem_of_mem_take (List.mem_reverse.mp member))]
  have stop : ∀ c ∈ word.drop k, (!isDelimiter c) = true := by
    intro c member
    simp [whole c (List.mem_of_mem_drop member)]
  unfold wordBetween
  rw [List.reverse_append, List.takeWhile_append_of_pos start, List.takeWhile_append_of_pos stop]
  simp [List.append_assoc, ← List.append_assoc (word.take k)]

theorem takeWhile_eq_nil_iff (text : List Char) :
    text.takeWhile (!isDelimiter ·) = [] ↔ ∀ c ∈ text.head?, isDelimiter c = true := by
  cases text <;> simp [List.takeWhile_cons]

/-- The word is found alone if delimiters stand next to it. -/
theorem wordBetween_around_eq_iff (whole : ∀ c ∈ word, isDelimiter c = false)
    (left right : List Char) (k : Nat) :
    wordBetween (left ++ word.take k) (word.drop k ++ right) = word ↔
      (∀ c ∈ left.getLast?, isDelimiter c = true) ∧ ∀ c ∈ right.head?, isDelimiter c = true := by
  have first : wordBetween left [] = [] ↔ ∀ c ∈ left.getLast?, isDelimiter c = true := by
    rw [List.getLast?_eq_head?_reverse, ← takeWhile_eq_nil_iff]
    simp [wordBetween]
  have last : wordBetween [] right = [] ↔ ∀ c ∈ right.head?, isDelimiter c = true := by
    rw [← takeWhile_eq_nil_iff]
    simp [wordBetween]
  rw [wordBetween_around whole, ← first, ← last]
  constructor
  · intro same
    have width := congrArg List.length same
    simp only [List.length_append] at width
    exact ⟨List.length_eq_zero_iff.mp (by omega), List.length_eq_zero_iff.mp (by omega)⟩
  · rintro ⟨before, after⟩
    rw [before, after, List.nil_append, List.append_nil]

theorem wordAt_line (lines : allLines text = earlier ++ line :: later) (inside : k ≤ line.length) :
    wordAt text ⟨earlier.length, k⟩ =
      let word := wordBetween (line.take k) (line.drop k)
      .ok (if word.isEmpty then none else some word) := by
  have found : (allLines text)[earlier.length]? = some line := by simp [lines]
  simp only [wordAt, found]
  rw [if_neg (Nat.not_lt.mpr inside)]

/-- What stands before the place on its own line ends as all that stands before the place, unless
that ends a line. -/
theorem Broken.getLast?_left (broken : Broken text earlier left) :
    (∀ c ∈ left.getLast?, isDelimiter c = true) ↔
      ∀ c ∈ text.getLast?, isDelimiter c = true ∨ endsLine c = true := by
  rw [broken.split]
  by_cases empty : left = []
  · subst empty
    refine iff_of_true (by simp) fun c last => ?_
    rw [List.append_nil] at last
    exact .inr (endsLine_of_getLast? broken.ended last).1
  · rw [List.getLast?_append_of_ne_nil _ empty]
    refine forall₂_congr fun c last => ?_
    simp [broken.inside c (List.mem_of_getLast? last)]

/-- At its place by the lines of an editor, and at every place inside, a word is found if it has a
delimiter or an end of a line before it and a delimiter after it. -/
theorem wordAt_inLines_iff (before after : List Char) (present : word ≠ [])
    (whole : ∀ c ∈ word, isDelimiter c = false ∧ endsLine c = false) (inside : k ≤ word.length) :
    let place := Position.inLines before
    wordAt (before ++ (word ++ after)) ⟨place.line, place.column + k⟩ = .ok (some word) ↔
      (∀ c ∈ before.getLast?, isDelimiter c = true ∨ endsLine c = true) ∧
        ∀ c ∈ after.head?, isDelimiter c = true := by
  -- The word's own line is what is left of `before`, the word, and what is left of the line.
  obtain ⟨earlier, left, broken⟩ := exists_broken before
  have unended : ∀ c ∈ left ++ word, endsLine c = false :=
    List.forall_mem_append.mpr ⟨broken.inside, fun c member => (whole c member).2⟩
  obtain ⟨right, later, lines, first⟩ := allLines_word unended (by simp [present]) after
  have begins : ∀ c ∈ (word ++ after).head?, endsLine c = false := by
    intro c head
    rw [List.head?_append_of_ne_nil _ present] at head
    exact (whole c (List.mem_of_head? head)).2
  have all := broken.lines (word ++ after) begins
  rw [← List.append_assoc left, lines] at all
  have width : left.length + k ≤ (left ++ word ++ right).length := by
    simp only [List.length_append]
    omega
  have taken : (left ++ word ++ right).take (left.length + k) = left ++ word.take k := by
    rw [List.append_assoc, List.take_length_add_append, List.take_append_of_le_length inside]
  have dropped : (left ++ word ++ right).drop (left.length + k) = word.drop k ++ right := by
    rw [List.append_assoc, List.drop_length_add_append, List.drop_append_of_le_length inside]
  have found := wordBetween_around_eq_iff (fun c member => (whole c member).1) left right k
  simp only [broken.inLines_eq]
  rw [wordAt_line all width, taken, dropped, ← broken.getLast?_left, ← first, ← found]
  constructor
  · intro same
    have found := Except.ok.inj same
    split at found
    · contradiction
    · exact Option.some.inj found
  · intro same
    simp [same, present]

end

end Text

namespace DefinedName

variable {d : DefinedName} {depth : Nat} {placed : List Placed}

theorem mem_of_ofForm? (found : ofForm? placed = some d) : ⟨.atom d.name, d.offset⟩ ∈ placed := by
  unfold ofForm? at found
  split at found
  · split at found
    · cases found
      simp
    · contradiction
  · contradiction

theorem mem_of_mem_collect (member : d ∈ collect depth placed) :
    ⟨.atom d.name, d.offset⟩ ∈ placed := by
  fun_induction collect depth placed with
  | case1 => contradiction
  | case2 depth offset rest ih =>
      refine List.mem_cons_of_mem _ ?_
      rcases List.mem_append.mp member with here | later
      · split at here
        · exact mem_of_ofForm? (Option.mem_toList.mp here)
        · contradiction
      · exact ih later
  | case3 depth offset rest ih => exact List.mem_cons_of_mem _ (ih member)
  | case4 depth text offset rest ih => exact List.mem_cons_of_mem _ (ih member)

end DefinedName

/-- Every definition of an index stands where a scan of the text finds its name. -/
theorem Index.exists_scanned {chars : List Char} {name : String} {d : Definition}
    (found : (definitionsOf chars).find? name = some d) :
    ∃ offset, ⟨.atom name, offset⟩ ∈ Placed.scan chars ∧ d.position = .ofOffset chars offset := by
  have member := Table.mem_ofList (Table.mem_of_find? found)
  obtain ⟨e, collected, same⟩ := List.mem_map.mp member
  cases same
  exact ⟨e.offset, DefinedName.mem_of_mem_collect collected, rfl⟩

theorem Workspace.hover_definition {w : Workspace} {uri name text : String} {d : Definition}
    {p : Text.Position} (held : w.documents.find? uri = some (.ofText text))
    (found : (Index.ofText text).definitions.find? name = some d)
    (noKeyword : Keyword.ofName? name = none) (noBuiltin : Builtin.ofName? name = none)
    (word : Text.wordAt text.toList p = .ok (some name.toList)) :
    w.hover uri p = .ok (some (d.summary name)) := by
  have described : (Document.ofText text).describe? name = some (d.summary name) := by
    simp [Document.describe?, noKeyword, noBuiltin, Document.ofText, found]
  simp only [hover, held, Document.ofText] at *
  rw [word]
  simp [Except.map, described]

/-- The position that an index records for a name is the one that an editor shows the name at, if
and only if every line that ends before the name ends in a line feed. There, and at every place
inside, the name is found if and only if delimiters stand next to it; and where it is found, what is
shown of it is its own definition. -/
theorem defined_name_found_at_its_place_iff (text : String) :
    let chars := text.toList
    ∀ name d, (Index.ofText text).definitions.find? name = some d →
      ∃ offset, ⟨.atom name, offset⟩ ∈ Placed.scan chars ∧ d.position = .ofOffset chars offset ∧
        let before := chars.take offset
        let after := chars.drop (offset + name.length)
        let place := Text.Position.inLines before
        (d.position = place ↔ Text.EndsInLineFeeds before) ∧
        (∀ k ≤ name.length,
          Text.wordAt chars ⟨place.line, place.column + k⟩ = .ok (some name.toList) ↔
            (∀ c ∈ before.getLast?, Text.isDelimiter c = true ∨ Text.endsLine c = true) ∧
              ∀ c ∈ after.head?, Text.isDelimiter c = true) ∧
        ∀ (w : Workspace) uri p, w.documents.find? uri = some (.ofText text) →
          Keyword.ofName? name = none → Builtin.ofName? name = none →
          Text.wordAt chars p = .ok (some name.toList) →
          w.hover uri p = .ok (some (d.summary name)) := by
  intro chars name d found
  obtain ⟨offset, scanned, position⟩ := Index.exists_scanned found
  have solid : Token.Solid name :=
    Placed.allSolid_scan chars name (List.mem_map_of_mem (f := Placed.token) scanned)
  have whole : ∀ c ∈ name.toList, Text.isDelimiter c = false ∧ Text.endsLine c = false := by
    intro c member
    have unblank := solid.unblank c member
    refine ⟨Text.isDelimiter_eq_false unblank (solid.plain c member), ?_⟩
    rw [Bool.eq_false_iff]
    exact fun ends => by simp [Text.isBlank_of_endsLine ends] at unblank
  have split : chars =
      chars.take offset ++ (name.toList ++ chars.drop (offset + name.length)) :=
    (Placed.stands_of_mem_scan chars _ scanned).eq_append
  refine ⟨offset, scanned, position, ?_, fun k inside => ?_, ?_⟩
  · rw [position, Text.Position.ofOffset]
    exact Text.after_eq_inLines_iff _
  · have present : name.toList ≠ [] := by simpa using solid.nonempty
    have inside : k ≤ name.toList.length := String.length_toList ▸ inside
    have alone := Text.wordAt_inLines_iff (chars.take offset) (chars.drop (offset + name.length))
      present whole inside
    rwa [← split] at alone
  · intro w uri p held noKeyword noBuiltin word
    exact Workspace.hover_definition held found noKeyword noBuiltin word

/-- A definition after a line that ends in a carriage return and a line feed, with a tab before the
name. -/
theorem defined_name_found_at_its_place_tab :
    let text := "(define a 1)\r\n(define\tfoo (lambda (x) x))"
    let w := (({} : Workspace).write "u" text).2
    (Index.ofText text).definitions.find? "foo" = some { kind := .function, position := ⟨1, 8⟩ } ∧
      Text.wordAt text.toList ⟨1, 10⟩ = .ok (some "foo".toList) ∧
      w.hover "u" ⟨1, 10⟩ = .ok (some "foo: function (defined at 2:9)") := by
  intro text w
  have entry : (Index.ofText text).definitions.find? "foo" =
      some { kind := .function, position := ⟨1, 8⟩ } := by
    decide +kernel
  obtain ⟨offset, scanned, _, recorded, word, shown⟩ :=
    defined_name_found_at_its_place_iff text "foo" _ entry
  have place : offset = 22 := by
    have only : ∀ p ∈ Placed.scan text.toList, p.token = .atom "foo" → p.offset = 22 := by
      decide +kernel
    exact only _ scanned rfl
  subst place
  have same := recorded.mpr (by decide +kernel)
  have before : (text.toList.take 22).getLast? = some '\t' := by decide +kernel
  have after : (text.toList.drop (22 + "foo".length)).head? = some ' ' := by decide +kernel
  have alone := (word 2 (by decide)).mpr (by simp [before, after, Text.isDelimiter])
  rw [← same] at alone
  have held : w.documents.find? "u" = some (.ofText text) := rfl
  have summary : (Definition.mk .function ⟨1, 8⟩).summary "foo" =
      "foo: function (defined at 2:9)" := by
    decide +kernel
  refine ⟨entry, alone, summary ▸ shown w "u" _ held ?_ ?_ alone⟩
  · decide +kernel
  · decide +kernel

/-- A no-break space before a name makes the word longer, and after a form feed the recorded position
is beyond the end of its line. -/
theorem recorded_position_misses :
    let text := "(define\u00a0x 1)\u000c(define y 2)"
    let definitions := (Index.ofText text).definitions
    definitions.find? "x" = some { kind := .variable, position := ⟨0, 8⟩ } ∧
      Text.wordAt text.toList ⟨0, 8⟩ = .ok (some "define\u00a0x".toList) ∧
      definitions.find? "y" = some { kind := .variable, position := ⟨0, 21⟩ } ∧
      Text.wordAt text.toList ⟨0, 21⟩ = .error .beyondLine := by
  intro text definitions
  refine ⟨by decide +kernel, by decide +kernel, by decide +kernel, by decide +kernel⟩

end MiniLisp
