import Mathlib.Data.List.Chain
import MiniLisp.Proofs.Token.Cut

/-! # Tokens and the gaps between them

A text is its tokens with a gap before each of them and one at the end. The gaps are blank, and a gap
between two atoms is not empty; nothing more is asked of them. Whatever the gaps, the text splits
into the tokens that were written.
-/

namespace MiniLisp

namespace Token

def IsAtom (token : Token) : Prop :=
  ∃ name, token = .atom name

/-- A token and what is written before it. -/
structure Piece where
  gap : String
  token : Token

/-- The text of the pieces, with `last` at its end. -/
def write (last : String) : List Piece → String
  | [] => last
  | piece :: pieces => piece.gap ++ piece.token.text ++ write last pieces

/-- Gaps that keep the tokens apart. -/
structure Spaced (last : String) (pieces : List Piece) : Prop where
  solid : AllSolid (pieces.map Piece.token)
  blank : ∀ piece ∈ pieces, ∀ c ∈ piece.gap.toList, Text.isBlank c = true
  blankLast : ∀ c ∈ last.toList, Text.isBlank c = true
  apart : pieces.IsChain fun piece next => piece.token.IsAtom → next.token.IsAtom → next.gap ≠ ""

section

variable {last : String} {piece : Piece} {pieces : List Piece} {token : Token}

@[simp]
theorem toList_write_cons (last : String) (piece : Piece) (pieces : List Piece) :
    (write last (piece :: pieces)).toList =
      piece.gap.toList ++ (piece.token.text.toList ++ (write last pieces).toList) := by
  simp [write]

theorem allSolid_cons {tokens : List Token} :
    AllSolid (token :: tokens) ↔ (∀ name, token = .atom name → Solid name) ∧ AllSolid tokens := by
  simp [AllSolid, or_imp, forall_and, eq_comm]

theorem unblank_of_solid (solid : ∀ name, token = .atom name → Solid name) :
    ∀ c ∈ token.text.toList, Text.isBlank c = false := by
  cases token with
  | opening | closing => simp [text, Text.isBlank, Text.isWhiteSpace]
  | atom name => exact (solid name rfl).unblank

theorem text_ne_empty_of_solid (solid : ∀ name, token = .atom name → Solid name) :
    token.text ≠ "" := by
  cases token with
  | opening | closing => simp [text]
  | atom name => exact (solid name rfl).nonempty

theorem Spaced.tail (spaced : Spaced last (piece :: pieces)) : Spaced last pieces where
  solid := (allSolid_cons.mp spaced.solid).2
  blank := (List.forall_mem_cons.mp spaced.blank).2
  blankLast := spaced.blankLast
  apart := (List.isChain_cons.mp spaced.apart).2

/-- Only an atom with nothing before it would run into an atom. -/
theorem Spaced.apart_write (spaced : Spaced last pieces) :
    Text.Apart (write last pieces).toList ↔
      ∀ next ∈ pieces.head?, next.token.IsAtom → next.gap ≠ "" := by
  cases pieces with
  | nil =>
      refine iff_of_true (fun c first => .inl ?_) (by simp)
      exact spaced.blankLast c (List.mem_of_head? first)
  | cons next pieces =>
      have blank := (List.forall_mem_cons.mp spaced.blank).1
      have solid := (allSolid_cons.mp spaced.solid).1
      obtain ⟨gap, token⟩ := next
      simp only [toList_write_cons, List.head?_cons, Option.mem_some_iff, forall_eq']
      cases begun : gap.toList with
      | cons c rest =>
          have present : gap ≠ "" := by rintro rfl; contradiction
          have here := blank c (begun ▸ List.mem_cons_self)
          exact iff_of_true (Text.apart_cons (.inl here) _) fun _ => present
      | nil =>
          obtain rfl : gap = "" := by simpa using begun
          cases token with
          | opening => exact iff_of_true (Text.apart_cons (.inr (.inl rfl)) _) (by simp [IsAtom])
          | closing => exact iff_of_true (Text.apart_cons (.inr (.inr rfl)) _) (by simp [IsAtom])
          | atom name =>
              refine iff_of_false (fun apart => ?_) fun kept => kept ⟨name, rfl⟩ rfl
              have atom := solid name rfl
              obtain ⟨c, rest, word⟩ := List.exists_cons_of_ne_nil (l := name.toList)
                (by simpa using atom.nonempty)
              have member : c ∈ name.toList := word ▸ List.mem_cons_self
              rcases apart c (by simp [text, word]) with here | here
              · simp [atom.unblank c member] at here
              · exact atom.plain c member here

theorem spaced_cons : Spaced last (piece :: pieces) ↔
    (∀ c ∈ piece.gap.toList, Text.isBlank c = true) ∧
      piece.token.Fits (write last pieces).toList ∧ Spaced last pieces := by
  constructor
  · intro spaced
    refine ⟨(List.forall_mem_cons.mp spaced.blank).1, fun name same => ⟨?_, ?_⟩, spaced.tail⟩
    · exact (allSolid_cons.mp spaced.solid).1 name same
    · apply spaced.tail.apart_write.mpr
      intro next first
      exact (List.isChain_cons.mp spaced.apart).1 next first ⟨name, same⟩
  · rintro ⟨blank, fits, rest⟩
    refine ⟨allSolid_cons.mpr ⟨fun name same => (fits name same).1, rest.solid⟩,
      List.forall_mem_cons.mpr ⟨blank, rest.blank⟩, rest.blankLast,
      List.isChain_cons.mpr ⟨fun next first => ?_, rest.apart⟩⟩
    rintro ⟨name, same⟩
    exact rest.apart_write.mp (fits name same).2 next first

theorem Spaced.layout (spaced : Spaced last pieces) :
    Layout (pieces.map Piece.token) (write last pieces).toList := by
  induction pieces with
  | nil => exact .nil spaced.blankLast
  | cons piece pieces ih =>
      obtain ⟨blank, fits, rest⟩ := spaced_cons.mp spaced
      rw [toList_write_cons]
      exact .cons blank fits (ih rest)

theorem Layout.exists_spaced {tokens : List Token} {text : List Char}
    (layout : Layout tokens text) :
    ∃ last pieces, Spaced last pieces ∧ pieces.map Piece.token = tokens ∧
      (write last pieces).toList = text := by
  induction tokens generalizing text with
  | nil =>
      cases layout with
      | nil blank =>
          have nothing : AllSolid [] := by simp [AllSolid]
          refine ⟨String.ofList text, [], ⟨nothing, by simp, ?_, .nil⟩, rfl, String.toList_ofList⟩
          rwa [String.toList_ofList]
  | cons token tokens ih =>
      obtain ⟨blanks, after, rfl, blank, fits, rest⟩ := layout.exists_cons
      obtain ⟨last, pieces, spaced, rfl, rfl⟩ := ih rest
      refine ⟨last, ⟨String.ofList blanks, token⟩ :: pieces, ?_, rfl, ?_⟩
      · refine spaced_cons.mpr ⟨?_, fits, spaced⟩
        rwa [String.toList_ofList]
      · rw [toList_write_cons, String.toList_ofList]

theorem exists_spaced (source : String) :
    ∃ last pieces, Spaced last pieces ∧ pieces.map Piece.token = tokenize source ∧
      write last pieces = source := by
  have layout : Layout (tokenize source) source.toList := layout_split source.toList
  obtain ⟨last, pieces, spaced, tokens, text⟩ := layout.exists_spaced
  exact ⟨last, pieces, spaced, tokens, String.toList_injective text⟩

theorem Spaced.tokenize_write (spaced : Spaced last pieces) :
    tokenize (write last pieces) = pieces.map Piece.token :=
  spaced.layout.tokenize_eq

/-- What is left of a text without its blanks is what its tokens are made of. -/
theorem Spaced.filter_write (spaced : Spaced last pieces) :
    (write last pieces).toList.filter (!Text.isBlank ·) =
      (pieces.map Piece.token).flatMap (·.text.toList) := by
  induction pieces with
  | nil => simpa [write] using spaced.blankLast
  | cons piece pieces ih =>
      obtain ⟨blank, fits, rest⟩ := spaced_cons.mp spaced
      have gap : piece.gap.toList.filter (!Text.isBlank ·) = [] := by simpa using blank
      have word : piece.token.text.toList.filter (!Text.isBlank ·) = piece.token.text.toList := by
        have unblank := unblank_of_solid fun name same => (fits name same).1
        simpa using unblank
      rw [toList_write_cons, List.filter_append, List.filter_append, gap, word, ih rest]
      rfl

end

/-- A text has the tokens that it was written from, whatever the gaps, and every text was written in
this way from its tokens. No character but a blank is lost, and a token is a parenthesis or has none
in it. -/
theorem tokenize_layout_insensitive (source : String) :
    (∀ tokens, tokenize source = tokens ↔
      ∃ last pieces, Spaced last pieces ∧ pieces.map Piece.token = tokens ∧
        write last pieces = source) ∧
    source.toList.filter (!Text.isBlank ·) = (tokenize source).flatMap (·.text.toList) ∧
    ∀ token ∈ tokenize source, token.text ≠ "" ∧
      (token.text = "(" ∨ token.text = ")" ∨ ∀ c ∈ token.text.toList, ¬ isParenthesis c) := by
  refine ⟨fun tokens => ⟨?_, ?_⟩, ?_, fun token member => ?_⟩
  · rintro rfl
    exact exists_spaced source
  · rintro ⟨last, pieces, spaced, rfl, rfl⟩
    exact spaced.tokenize_write
  · obtain ⟨last, pieces, spaced, tokens, rfl⟩ := exists_spaced source
    rw [spaced.filter_write, tokens]
  · have solid (name : String) (same : token = .atom name) : Solid name :=
      solid_of_mem_tokenize (same ▸ member)
    refine ⟨text_ne_empty_of_solid solid, ?_⟩
    cases token with
    | opening => exact .inl rfl
    | closing => exact .inr (.inl rfl)
    | atom name => exact .inr (.inr (solid name rfl).plain)

/-- A tab, a unit separator and an em space for gaps, and nothing beside the parentheses. -/
theorem tokenize_layout_insensitive_separators :
    let pieces : List Piece :=
      [⟨"", .opening⟩, ⟨"\t", .atom "a"⟩, ⟨"\u001f", .atom "b"⟩, ⟨"", .closing⟩]
    let source := write "\u2003" pieces
    Spaced "\u2003" pieces ∧ tokenize source = pieces.map Piece.token ∧
      .atom "b" ∈ tokenize source ∧ ∀ c ∈ "b".toList, ¬ isParenthesis c := by
  intro pieces source
  have solid : AllSolid (pieces.map Piece.token) := by
    intro name member
    have named : name = "a" ∨ name = "b" := by simpa [pieces] using member
    rcases named with rfl | rfl <;>
      exact ⟨by decide, by simp [Text.isBlank, Text.isWhiteSpace], by simp [isParenthesis]⟩
  have spaced : Spaced "\u2003" pieces := by
    refine ⟨solid, ?_, ?_, by simp [pieces, IsAtom]⟩
    · simp [pieces, Text.isBlank, Text.isWhiteSpace]
    · simp [Text.isBlank, Text.isWhiteSpace]
  obtain ⟨splits, _, parts⟩ := tokenize_layout_insensitive source
  have tokens := (splits _).mpr ⟨_, pieces, spaced, rfl, rfl⟩
  have member : .atom "b" ∈ tokenize source := by simp [tokens, pieces]
  have named : "b" ≠ "(" ∧ "b" ≠ ")" := by decide
  have plain := ((parts _ member).2.resolve_left named.1).resolve_left named.2
  exact ⟨spaced, tokens, member, plain⟩

end Token

end MiniLisp
