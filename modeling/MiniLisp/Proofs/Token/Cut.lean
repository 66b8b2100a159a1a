import MiniLisp.Proofs.Token.Layout

namespace MiniLisp

namespace Text

/-- The text neither begins nor ends with a blank. -/
def Trimmed (text : List Char) : Prop :=
  (∀ c ∈ text.head?, isBlank c = false) ∧ ∀ c ∈ text.getLast?, isBlank c = false

/-- A character of an atom. -/
def isSolid (c : Char) : Bool :=
  !isBlank c && c != '(' && c != ')'

theorem isSolid_eq_true_iff {c : Char} :
    isSolid c = true ↔ isBlank c = false ∧ ¬ Token.isParenthesis c := by
  simp [isSolid, Token.isParenthesis, and_assoc]

theorem apart_dropWhile (text : List Char) : Apart (text.dropWhile isSolid) := by
  intro c first
  have stopped := List.head?_dropWhile_not isSolid text
  rw [first] at stopped
  have stopped : isSolid c = false := stopped
  rw [← Bool.not_eq_true, isSolid_eq_true_iff] at stopped
  cases blank : isBlank c with
  | true => exact .inl rfl
  | false => exact .inr (Classical.not_not.mp fun other => stopped ⟨blank, other⟩)

theorem Apart.of_append {text rest : List Char} (apart : Apart (text ++ rest)) : Apart text := by
  intro c first
  refine apart c ?_
  rw [List.head?_append, first]
  rfl

end Text

namespace Token

variable {token : Token} {tokens used rest : List Token} {blanks text after : List Char}

/-- What follows the token does not run into it. -/
def Fits (token : Token) (after : List Char) : Prop :=
  ∀ name, token = .atom name → Solid name ∧ Text.Apart after

theorem Layout.cons (blank : ∀ c ∈ blanks, Text.isBlank c = true) (fits : token.Fits after)
    (rest : Layout tokens after) : Layout (token :: tokens) (blanks ++ (token.text.toList ++ after)) := by
  cases token with
  | opening => exact .opening blank rest
  | closing => exact .closing blank rest
  | atom name => exact .atom blank (fits name rfl).1 (fits name rfl).2 rest

theorem Layout.exists_cons (layout : Layout (token :: tokens) text) :
    ∃ blanks after, text = blanks ++ (token.text.toList ++ after) ∧
      (∀ c ∈ blanks, Text.isBlank c = true) ∧ token.Fits after ∧ Layout tokens after := by
  cases layout with
  | opening blank rest | closing blank rest => exact ⟨_, _, rfl, blank, nofun, rest⟩
  | atom blank solid apart rest =>
      refine ⟨_, _, rfl, blank, fun name same => ?_, rest⟩
      cases same
      exact ⟨solid, apart⟩

theorem Layout.indent (blank : ∀ c ∈ blanks, Text.isBlank c = true) (layout : Layout tokens text) :
    Layout tokens (blanks ++ text) := by
  cases tokens with
  | nil =>
      cases layout with
      | nil blank' => exact .nil (List.forall_mem_append.mpr ⟨blank, blank'⟩)
  | cons token tokens =>
      obtain ⟨blanks', after, rfl, blank', fits, rest⟩ := layout.exists_cons
      rw [← List.append_assoc]
      exact .cons (List.forall_mem_append.mpr ⟨blank, blank'⟩) fits rest

/-- A text that begins with a solid character begins with a whole atom. -/
theorem exists_atom {c : Char} (solid : Text.isSolid c = true) (text : List Char) :
    ∃ name after, c :: text = name.toList ++ after ∧ Solid name ∧ Text.Apart after ∧
      after.length ≤ text.length := by
  let word := c :: text.takeWhile Text.isSolid
  let after := text.dropWhile Text.isSolid
  have inside : ∀ d ∈ word, Text.isSolid d = true :=
    List.forall_mem_cons.mpr ⟨solid, List.all_eq_true.mp List.all_takeWhile⟩
  refine ⟨String.ofList word, after, ?_, ⟨by simp [word], ?_, ?_⟩, Text.apart_dropWhile text, ?_⟩
  · rw [String.toList_ofList, List.cons_append, List.takeWhile_append_dropWhile]
  · rw [String.toList_ofList]
    exact fun d member => (Text.isSolid_eq_true_iff.mp (inside d member)).1
  · rw [String.toList_ofList]
    exact fun d member => (Text.isSolid_eq_true_iff.mp (inside d member)).2
  · exact (List.dropWhile_sublist _).length_le

theorem layout_split (text : List Char) : Layout (split text) text := by
  induction size : text.length using Nat.strongRecOn generalizing text with
  | _ n ih =>
      cases text with
      | nil => exact .nil (List.forall_mem_nil _)
      | cons c text =>
          have shorter : text.length < n := size ▸ Nat.lt_succ_self _
          have later := ih _ shorter text rfl
          by_cases parenthesis : isParenthesis c
          · rw [split_cons parenthesis]
            obtain rfl | rfl := parenthesis
            · exact .opening (List.forall_mem_nil _) later
            · exact .closing (List.forall_mem_nil _) later
          · cases blank : Text.isBlank c with
            | true =>
                have space : ∀ d ∈ [c], Text.isBlank d = true := List.forall_mem_singleton.mpr blank
                have same : split (c :: text) = split text := split_gap space text
                rw [same]
                exact later.indent space
            | false =>
                have solid := Text.isSolid_eq_true_iff.mpr ⟨blank, parenthesis⟩
                obtain ⟨name, after, parts, atom, apart, width⟩ := exists_atom solid text
                rw [parts, split_atom atom apart]
                have later := ih _ (Nat.lt_of_le_of_lt width shorter) after rfl
                exact .atom (List.forall_mem_nil _) atom apart later

/-- A text without tokens is blank. -/
theorem split_eq_nil_iff {text : List Char} :
    split text = [] ↔ ∀ c ∈ text, Text.isBlank c = true := by
  constructor
  · intro empty
    have layout := layout_split text
    rw [empty] at layout
    cases layout with
    | nil blank => exact blank
  · intro blank
    exact (Layout.nil blank).split_eq

theorem Fits.trimmed (fits : token.Fits after) :
    token.text.toList ≠ [] ∧ Text.Trimmed token.text.toList := by
  cases token with
  | opening | closing =>
      exact ⟨by decide, by simp [Text.Trimmed, Token.text, Text.isBlank, Text.isWhiteSpace]⟩
  | atom name =>
      have solid := (fits name rfl).1
      refine ⟨by simpa [Token.text] using solid.nonempty, fun c first => ?_, fun c last => ?_⟩
      · exact solid.unblank c (List.mem_of_head? first)
      · exact solid.unblank c (List.mem_of_getLast? last)

/-- Behind the blanks of a text stand the first of its tokens, and then the others. -/
theorem Layout.cut (layout : Layout (token :: used ++ rest) text) :
    ∃ blanks part after, text = blanks ++ (part ++ after) ∧
      (∀ c ∈ blanks, Text.isBlank c = true) ∧ part ≠ [] ∧ Text.Trimmed part ∧
      Layout (token :: used) part ∧ Layout rest after ∧
      Layout (token :: used ++ rest) (part ++ after) := by
  induction used generalizing token text with
  | nil =>
      obtain ⟨blanks, after, rfl, blank, fits, later⟩ := layout.exists_cons
      have alone : token.Fits [] := fun name same => ⟨(fits name same).1, Text.apart_nil⟩
      have first := Layout.cons (List.forall_mem_nil _) alone (.nil (List.forall_mem_nil _))
      rw [List.append_nil] at first
      obtain ⟨nonempty, trimmed⟩ := fits.trimmed
      refine ⟨blanks, _, after, rfl, blank, nonempty, trimmed, first, later, ?_⟩
      exact .cons (List.forall_mem_nil _) fits later
  | cons next used ih =>
      obtain ⟨blanks, text, rfl, blank, fits, later⟩ := layout.exists_cons
      obtain ⟨between, part, after, rfl, blank', nonempty, trimmed, inside, rest, whole⟩ := ih later
      have fits' : token.Fits (between ++ part) := by
        intro name same
        obtain ⟨solid, apart⟩ := fits name same
        rw [← List.append_assoc] at apart
        exact ⟨solid, apart.of_append⟩
      obtain ⟨start, begins, _⟩ := fits.trimmed
      refine ⟨blanks, token.text.toList ++ (between ++ part), after, by simp, blank, by simp [start],
        ⟨fun c first => ?_, fun c last => ?_⟩, ?_, rest, ?_⟩
      · rw [List.head?_append_of_ne_nil _ start] at first
        exact begins c first
      · rw [← List.append_assoc, List.getLast?_append_of_ne_nil _ nonempty] at last
        exact trimmed.2 c last
      · exact .cons (List.forall_mem_nil _) fits' (inside.indent blank')
      · have joined := Layout.cons (List.forall_mem_nil _) fits later
        simpa using joined

theorem exists_cut {text : String} (present : used ≠ []) (tokens : tokenize text = used ++ rest) :
    ∃ gap part after : String, text = gap ++ part ++ after ∧
      (∀ c ∈ gap.toList, Text.isBlank c = true) ∧ part ≠ "" ∧ Text.Trimmed part.toList ∧
      tokenize part = used ∧ tokenize after = rest ∧ tokenize (part ++ after) = used ++ rest := by
  obtain ⟨token, used, rfl⟩ := List.exists_cons_of_ne_nil present
  have layout : Layout (tokenize text) text.toList := layout_split text.toList
  rw [tokens] at layout
  obtain ⟨blanks, part, after, parts, blank, nonempty, trimmed, first, later, whole⟩ := layout.cut
  refine ⟨String.ofList blanks, String.ofList part, String.ofList after, ?_, ?_, ?_, ?_,
    Layout.tokenize_eq ?_, Layout.tokenize_eq ?_, Layout.tokenize_eq ?_⟩
  · rw [← String.ofList_append, ← String.ofList_append, List.append_assoc, ← parts,
      String.ofList_toList]
  · rwa [String.toList_ofList]
  · simpa using nonempty
  · rwa [String.toList_ofList]
  · rwa [String.toList_ofList]
  · rwa [String.toList_ofList]
  · rwa [String.toList_append, String.toList_ofList, String.toList_ofList]

end Token

end MiniLisp
