import MiniLisp.Proofs.Number.Text
import MiniLisp.Value.Printing

/-! # Colours set off a text and leave it as it is

A terminal takes colour sequences out of what it is sent and shows the characters between them in
the colour that is in force. The plain and the coloured text of a value are both written from the
same segments, one after the other: atoms in the colour of their kind, the parentheses and commas of
lists in none. So the terminal shows the plain text, and each colour ends where its atom does.
-/

namespace MiniLisp

namespace Terminal

def escape : Char := '\x1b'

/-- What a terminal receives: characters to show, and colour sequences. -/
inductive Mark where
  | char (c : Char)
  | sequence (parameters : List Char)
deriving DecidableEq, Repr

/-- The parameters up to the letter that ends a colour sequence, and the text behind it. -/
def parameters? : List Char → Option (List Char × List Char)
  | [] => none
  | c :: rest =>
      if c = 'm' then some ([], rest)
      else if c.isDigit ∨ c = ';' then
        (parameters? rest).map fun (parameters, behind) => (c :: parameters, behind)
      else none

/-- The colour sequence that a text begins with, and the text behind it. -/
def sequence? : List Char → Option (List Char × List Char)
  | first :: second :: rest =>
      if first = escape ∧ second = '[' then parameters? rest else none
  | _ => none

theorem length_lt_of_parameters? {text parameters behind : List Char}
    (found : parameters? text = some (parameters, behind)) : behind.length < text.length := by
  induction text generalizing parameters with
  | nil => exact absurd found nofun
  | cons c rest ih =>
      rw [parameters?] at found
      split at found
      · cases found
        exact Nat.lt_succ_self _
      · split at found
        · obtain ⟨⟨inner, behind'⟩, later, same⟩ := Option.map_eq_some_iff.mp found
          cases same
          exact Nat.lt_succ_of_lt (ih later)
        · exact absurd found nofun

theorem length_lt_of_sequence? {text parameters behind : List Char}
    (found : sequence? text = some (parameters, behind)) : behind.length < text.length := by
  match text with
  | [] | [_] => exact absurd found nofun
  | first :: second :: rest =>
      rw [sequence?] at found
      split at found
      · have shorter := length_lt_of_parameters? found
        simp only [List.length_cons]
        omega
      · exact absurd found nofun

/-- The text as a terminal takes it apart. -/
def marks : List Char → List Mark
  | [] => []
  | c :: rest =>
      match _found : sequence? (c :: rest) with
      | some (parameters, behind) => .sequence parameters :: marks behind
      | none => .char c :: marks rest
termination_by text => text.length
decreasing_by
  · exact length_lt_of_sequence? ‹_›
  · exact Nat.lt_succ_self _

def Mark.char? : Mark → Option Char
  | .char c => some c
  | .sequence _ => none

/-- The text with every colour sequence deleted. -/
def withoutColors (text : List Char) : List Char :=
  (marks text).filterMap Mark.char?

/-- The parameters of the sequence that ends a colour. -/
def resetParameters : List Char := ['0']

/-- The characters shown, each with the parameters of the colour that is in force there. -/
def shown (style : Option (List Char)) : List Mark → List (Char × Option (List Char))
  | [] => []
  | .char c :: rest => (c, style) :: shown style rest
  | .sequence parameters :: rest =>
      shown (if parameters = resetParameters then none else some parameters) rest

/-- Behind each sequence that starts a colour, the next sequence is the one that ends it. -/
def Resets (all : List Mark) : Prop :=
  ∀ before parameters behind, all = before ++ .sequence parameters :: behind →
    parameters ≠ resetParameters →
    ∃ word after, behind = List.map Mark.char word ++ .sequence resetParameters :: after

theorem marks_cons_of_ne {c : Char} (plain : c ≠ escape) (rest : List Char) :
    marks (c :: rest) = .char c :: marks rest := by
  have none : sequence? (c :: rest) = none := by
    cases rest with
    | nil => rfl
    | cons second rest => exact if_neg fun both => plain both.1
  rw [marks]
  split
  · rename_i found
    exact absurd (none.symm.trans found) nofun
  · rfl

theorem marks_word_append {word : List Char} (plain : escape ∉ word) (rest : List Char) :
    marks (word ++ rest) = word.map Mark.char ++ marks rest := by
  induction word with
  | nil => rfl
  | cons c word ih =>
      obtain ⟨here, later⟩ := not_or.mp (mt List.mem_cons.mpr plain)
      exact (marks_cons_of_ne (Ne.symm here) _).trans (congrArg _ (ih later))

theorem parameters?_append {parameters : List Char}
    (plain : ∀ c ∈ parameters, c.isDigit) (rest : List Char) :
    parameters? (parameters ++ 'm' :: rest) = some (parameters, rest) := by
  induction parameters with
  | nil => exact if_pos rfl
  | cons c parameters ih =>
      obtain ⟨digit, later⟩ := List.forall_mem_cons.mp plain
      have inside : c ≠ 'm' := by
        rintro rfl
        exact absurd digit (by decide)
      rw [List.cons_append, parameters?, if_neg inside, if_pos (.inl digit), ih later]
      rfl

theorem marks_sequence_append {parameters : List Char}
    (plain : ∀ c ∈ parameters, c.isDigit) (rest : List Char) :
    marks (escape :: '[' :: (parameters ++ 'm' :: rest)) = .sequence parameters :: marks rest := by
  have found : sequence? (escape :: '[' :: (parameters ++ 'm' :: rest)) =
      some (parameters, rest) := by
    rw [sequence?, if_pos (And.intro rfl rfl), parameters?_append plain]
  rw [marks]
  split
  · rename_i other
    cases found.symm.trans other
    rfl
  · rename_i other
    exact absurd (found.symm.trans other) nofun

theorem resets_nil : Resets [] := by
  intro before parameters behind same
  exact absurd same (by simp)

theorem Resets.char_cons {all : List Mark} (resets : Resets all) (c : Char) :
    Resets (.char c :: all) := by
  intro before parameters behind same
  cases before with
  | nil => exact absurd (List.cons.inj same).1 nofun
  | cons first before => exact resets before parameters behind (List.cons.inj same).2

theorem Resets.word_append {all : List Mark} (resets : Resets all) (word : List Char) :
    Resets (word.map Mark.char ++ all) := by
  induction word with
  | nil => exact resets
  | cons c word ih => exact ih.char_cons c

theorem Resets.reset_cons {all : List Mark} (resets : Resets all) :
    Resets (.sequence resetParameters :: all) := by
  intro before parameters behind same starts
  cases before with
  | nil =>
      cases same
      exact absurd rfl starts
  | cons first before => exact resets before parameters behind (List.cons.inj same).2 starts

theorem Resets.colored_append {all : List Mark} (resets : Resets all)
    (parameters word : List Char) :
    Resets (.sequence parameters :: (word.map Mark.char ++ .sequence resetParameters :: all)) := by
  intro before parameters' behind same starts
  cases before with
  | nil =>
      cases same
      exact ⟨word, all, rfl⟩
  | cons first before =>
      have later := resets.reset_cons.word_append word
      exact later before parameters' behind (List.cons.inj same).2 starts

theorem shown_word_append (style : Option (List Char)) (word : List Char) (rest : List Mark) :
    shown style (word.map Mark.char ++ rest) = word.map (·, style) ++ shown style rest := by
  induction word with
  | nil => rfl
  | cons c word ih => exact congrArg _ ih

end Terminal

open Terminal

/-- A part of a text, in a colour or in none. -/
structure Segment where
  color : Option Color
  text : List Char

def Color.parameters : Color → List Char
  | .symbol => ['9', '4']
  | .number => ['9', '3']
  | .boolean => ['9', '6']
  | .function => ['9', '2']

theorem Color.toList_start (color : Color) :
    color.start.toList = escape :: '[' :: (color.parameters ++ ['m']) := by
  cases color <;> decide

theorem Color.toList_reset : Color.reset.toList = escape :: '[' :: (resetParameters ++ ['m']) := by
  decide

theorem Color.parameters_digits (color : Color) : ∀ c ∈ color.parameters, c.isDigit :=
  List.all_eq_true.mp (by cases color <;> decide)

theorem Color.parameters_ne_reset (color : Color) : color.parameters ≠ resetParameters := by
  cases color <;> decide

namespace Segment

def painted : Segment → List Char
  | ⟨none, text⟩ => text
  | ⟨some color, text⟩ => (color.wrap (.ofList text)).toList

/-- The characters of a segment as a terminal shows them. -/
def cells (s : Segment) : List (Char × Option (List Char)) :=
  s.text.map (·, s.color.map Color.parameters)

/-- The segment as a terminal receives it. -/
def marks : Segment → List Mark
  | ⟨none, text⟩ => text.map Mark.char
  | ⟨some color, text⟩ =>
      .sequence color.parameters :: (text.map Mark.char ++ [.sequence resetParameters])

theorem marks_painted_append (s : Segment) (plain : escape ∉ s.text) (rest : List Char) :
    Terminal.marks (s.painted ++ rest) = s.marks ++ Terminal.marks rest := by
  obtain ⟨_ | color, text⟩ := s
  · exact marks_word_append plain rest
  · have ends : Terminal.marks (Color.reset.toList ++ rest) =
        .sequence resetParameters :: Terminal.marks rest := by
      have digits : ∀ c ∈ resetParameters, c.isDigit := List.all_eq_true.mp (by decide)
      rw [Color.toList_reset]
      exact marks_sequence_append digits rest
    calc
      Terminal.marks ((color.wrap (.ofList text)).toList ++ rest)
        = Terminal.marks (color.start.toList ++ (text ++ (Color.reset.toList ++ rest))) := by
          simp only [Color.wrap, String.toList_append, String.toList_ofList, List.append_assoc]
      _ = Terminal.marks (escape :: '[' ::
            (color.parameters ++ 'm' :: (text ++ (Color.reset.toList ++ rest)))) := by
          rw [Color.toList_start]
          simp only [List.cons_append, List.append_assoc, List.nil_append]
      _ = .sequence color.parameters ::
            (text.map Mark.char ++ .sequence resetParameters :: Terminal.marks rest) := by
          rw [marks_sequence_append color.parameters_digits, marks_word_append plain, ends]
      _ = marks ⟨some color, text⟩ ++ Terminal.marks rest := by
          simp only [marks, List.cons_append, List.append_assoc, List.nil_append]

theorem filterMap_char?_marks (s : Segment) : s.marks.filterMap Mark.char? = s.text := by
  have word (text : List Char) : (text.map Mark.char).filterMap Mark.char? = text := by
    rw [List.filterMap_map]
    exact List.filterMap_some
  obtain ⟨_ | color, text⟩ := s
  · exact word text
  · have start : (Mark.sequence color.parameters).char? = none := rfl
    rw [marks, List.filterMap_cons_none start, List.filterMap_append, word]
    exact List.append_nil text

theorem resets_marks_append (s : Segment) {all : List Mark} (resets : Resets all) :
    Resets (s.marks ++ all) := by
  obtain ⟨_ | color, text⟩ := s
  · exact resets.word_append text
  · simpa only [marks, List.cons_append, List.append_assoc, List.nil_append] using
      resets.colored_append color.parameters text

/-- A segment is shown in its colour, and leaves none in force. -/
theorem shown_marks_append (s : Segment) (rest : List Mark) :
    shown none (s.marks ++ rest) = s.cells ++ shown none rest := by
  obtain ⟨_ | color, text⟩ := s
  · exact shown_word_append none text rest
  · simp only [marks, List.cons_append, List.append_assoc, List.nil_append, shown,
      shown_word_append, if_neg color.parameters_ne_reset, if_true]
    rfl

variable {segments : List Segment}

theorem marks_flatMap (plain : ∀ s ∈ segments, escape ∉ s.text) :
    Terminal.marks (segments.flatMap painted) = segments.flatMap marks := by
  induction segments with
  | nil => rw [List.flatMap_nil, List.flatMap_nil, Terminal.marks]
  | cons s rest ih =>
      obtain ⟨here, later⟩ := List.forall_mem_cons.mp plain
      rw [List.flatMap_cons, List.flatMap_cons, s.marks_painted_append here, ih later]

theorem resets_flatMap (segments : List Segment) : Resets (segments.flatMap marks) := by
  induction segments with
  | nil => exact resets_nil
  | cons s rest ih => exact s.resets_marks_append ih

theorem shown_flatMap (segments : List Segment) :
    shown none (segments.flatMap marks) = segments.flatMap cells := by
  induction segments with
  | nil => rfl
  | cons s rest ih => rw [List.flatMap_cons, s.shown_marks_append, ih, List.flatMap_cons]

theorem withoutColors_flatMap (plain : ∀ s ∈ segments, escape ∉ s.text) :
    withoutColors (segments.flatMap painted) = segments.flatMap text := by
  rw [withoutColors, marks_flatMap plain, List.filterMap_flatMap]
  exact congrArg (List.flatMap · segments) (funext filterMap_char?_marks)

end Segment

namespace Value

/-- Names of symbols and texts of the embedding program hold no escape character. -/
inductive EscapeFree : Value → Prop where
  | number : EscapeFree (.number x)
  | boolean : EscapeFree (.boolean b)
  | symbol (plain : escape ∉ x.name.toList) : EscapeFree (.symbol x)
  | list (inside : ∀ v ∈ items, EscapeFree v) : EscapeFree (.list items)
  | builtin : EscapeFree (.builtin b)
  | closure : EscapeFree (.closure params body frame)
  | integer : EscapeFree (.foreign (.integer n))
  | text (plain : escape ∉ s.toList) : EscapeFree (.foreign (.text s))
  | absent : EscapeFree (.foreign .absent)

mutual

/-- The parts of the text of a value with their colours. What stands around and between the
elements of a list has none. -/
def segments : Value → List Segment
  | .number x => [⟨some .number, (Number.text x).toList⟩]
  | .boolean b => [⟨some .boolean, (booleanText b).toList⟩]
  | .symbol s => [⟨some .symbol, s.name.toList⟩]
  | .list items => ⟨none, ['(']⟩ :: (segmentsOfItems items ++ [⟨none, [')']⟩])
  | .builtin b => [⟨some .function, b.placeholder.toList⟩]
  | .closure .. => [⟨some .function, closurePlaceholder.toList⟩]
  | .foreign v => [⟨none, v.plain.toList⟩]

def segmentsOfItems : List Value → List Segment
  | [] => []
  | [v] => segments v
  | v :: w :: rest => segments v ++ ⟨none, [',']⟩ :: segmentsOfItems (w :: rest)

end

mutual

theorem toList_render : (v : Value) → v.render.toList = v.segments.flatMap Segment.text
  | .number _ | .boolean _ | .symbol _ | .builtin _ | .closure .. | .foreign _ => by
      simp only [render, segments, List.flatMap_singleton]
  | .list items => by
      simp only [render, segments, String.toList_append, toList_renderItems items,
        List.flatMap_cons, List.flatMap_append, List.flatMap_nil, List.append_nil,
        List.append_assoc]
      rfl

theorem toList_renderItems : (items : List Value) →
    (renderItems items).toList = (segmentsOfItems items).flatMap Segment.text
  | [] => rfl
  | [v] => toList_render v
  | v :: w :: rest => by
      simp only [renderItems, segmentsOfItems, String.toList_append, toList_render v,
        toList_renderItems (w :: rest), List.flatMap_append, List.flatMap_cons, List.append_assoc]
      rfl

end

mutual

theorem toList_colorize : (v : Value) → v.colorize.toList = v.segments.flatMap Segment.painted
  | .number _ | .boolean _ | .symbol _ | .builtin _ | .closure .. | .foreign _ => by
      simp only [colorize, segments, List.flatMap_singleton, Segment.painted, String.ofList_toList]
  | .list items => by
      simp only [colorize, segments, String.toList_append, toList_colorizeItems items,
        List.flatMap_cons, List.flatMap_append, List.flatMap_nil, List.append_nil,
        List.append_assoc]
      rfl

theorem toList_colorizeItems : (items : List Value) →
    (colorizeItems items).toList = (segmentsOfItems items).flatMap Segment.painted
  | [] => rfl
  | [v] => toList_colorize v
  | v :: w :: rest => by
      simp only [colorizeItems, segmentsOfItems, String.toList_append, toList_colorize v,
        toList_colorizeItems (w :: rest), List.flatMap_append, List.flatMap_cons,
        List.append_assoc]
      rfl

end

theorem escape_not_mem_of_numerals {text : List Char} (numerals : Number.Numerals text) :
    escape ∉ text := by
  intro member
  obtain digit | other := numerals escape member
  · exact absurd digit (by decide)
  · exact absurd other (by decide)

mutual

theorem EscapeFree.plain_segments : (v : Value) → v.EscapeFree → ∀ s ∈ v.segments, escape ∉ s.text
  | .number x, _ =>
      List.forall_mem_singleton.mpr (escape_not_mem_of_numerals (Number.text_numerals x))
  | .boolean b, _ => List.forall_mem_singleton.mpr (by cases b <;> decide)
  | .symbol s, .symbol plain => List.forall_mem_singleton.mpr plain
  | .builtin b, _ => List.forall_mem_singleton.mpr (by cases b <;> decide)
  | .closure .., _ => List.forall_mem_singleton.mpr (by decide)
  | .foreign (.integer n), _ =>
      List.forall_mem_singleton.mpr (escape_not_mem_of_numerals (Number.toString_numerals n))
  | .foreign (.text s), .text plain => List.forall_mem_singleton.mpr plain
  | .foreign .absent, _ => List.forall_mem_singleton.mpr (by decide)
  | .list items, .list inside => by
      have plain := EscapeFree.plain_segmentsOfItems items inside
      simp only [Value.segments, List.forall_mem_cons, List.forall_mem_append]
      exact ⟨by decide, plain, by decide, nofun⟩

theorem EscapeFree.plain_segmentsOfItems : (items : List Value) → (∀ v ∈ items, v.EscapeFree) →
    ∀ s ∈ Value.segmentsOfItems items, escape ∉ s.text
  | [], _ => nofun
  | [v], free => EscapeFree.plain_segments v (free v List.mem_cons_self)
  | v :: w :: rest, free => by
      obtain ⟨here, later⟩ := List.forall_mem_cons.mp free
      simp only [Value.segmentsOfItems, List.forall_mem_cons, List.forall_mem_append]
      exact ⟨EscapeFree.plain_segments v here, by decide,
        EscapeFree.plain_segmentsOfItems (w :: rest) later⟩

end

end Value

/-- Without its colour sequences the coloured text is the plain one. Each colour ends before the
next begins, and a terminal shows each part of the text in the colour of its segment. -/
theorem colorize_only_colors {v : Value} (free : v.EscapeFree) :
    withoutColors v.colorize.toList = v.render.toList ∧
      Resets (marks v.colorize.toList) ∧
      shown none (marks v.colorize.toList) = v.segments.flatMap Segment.cells := by
  have plain := Value.EscapeFree.plain_segments v free
  rw [v.toList_colorize, v.toList_render]
  refine ⟨Segment.withoutColors_flatMap plain, ?_, ?_⟩
  · rw [Segment.marks_flatMap plain]
    exact Segment.resets_flatMap v.segments
  · rw [Segment.marks_flatMap plain]
    exact Segment.shown_flatMap v.segments

/-- A list with a value of each kind in it. The text of the embedding program holds what looks like
a colour sequence but for the character in front. -/
theorem colorize_only_colors_nested :
    let v : Value := .list [.number (-0.5), .list [.symbol ⟨"a"⟩, .list [], .boolean true],
      .builtin .add, .closure (.list []) (.number 1) 0, .foreign (.text "[94m(,)"),
      .foreign (.integer (-3)), .foreign .absent]
    v.EscapeFree ∧ withoutColors v.colorize.toList = v.render.toList := by
  intro v
  have name : Value.EscapeFree (.symbol ⟨"a"⟩) := .symbol (by decide)
  have empty : Value.EscapeFree (.list []) := .list nofun
  have inner : Value.EscapeFree (.list [.symbol ⟨"a"⟩, .list [], .boolean true]) :=
    .list (by simp [name, empty, Value.EscapeFree.boolean])
  have text : Value.EscapeFree (.foreign (.text "[94m(,)")) := .text (by decide)
  have free : v.EscapeFree :=
    .list (by simp [inner, text, Value.EscapeFree.number, Value.EscapeFree.builtin,
      Value.EscapeFree.closure, Value.EscapeFree.integer, Value.EscapeFree.absent])
  exact ⟨free, (colorize_only_colors free).1⟩

end MiniLisp
