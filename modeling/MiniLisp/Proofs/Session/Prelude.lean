import MiniLisp.Proofs.Evaluation.SyntaxErrors
import MiniLisp.Proofs.Reading.Balance
import MiniLisp.Proofs.Session.Sequence
import MiniLisp.Proofs.Token.Cut

namespace MiniLisp

open Token (tokenize)

/-- The text divides into the texts of its forms and a rest in which reading ends: where there are
no more tokens, or for a reason. -/
inductive Divides : String → List String → Option SyntaxError → Prop where
  | finished (blank : ∀ c ∈ text.toList, Text.isBlank c = true) : Divides text [] none
  | stuck (more : tokenize text ≠ []) (unread : Value.read (tokenize text) = .error reason) :
      Divides text [] (some reason)
  | form (blank : ∀ c ∈ gap.toList, Text.isBlank c = true) (trimmed : Text.Trimmed part.toList)
      (whole : tokenize (part ++ after) = tokenize part ++ tokenize after)
      (derived : Derives (tokenize part) v) (later : Divides after parts ending) :
      Divides (gap ++ part ++ after) (part :: parts) ending

theorem tokenize_gap {gap : String} (blank : ∀ c ∈ gap.toList, Text.isBlank c = true)
    (text : String) : tokenize (gap ++ text) = tokenize text := by
  have same := Token.split_gap blank text.toList
  rwa [← String.toList_append] at same

theorem exists_divides (text : String) : ∃ parts ending, Divides text parts ending := by
  induction size : text.toList.length using Nat.strongRecOn generalizing text with
  | _ n ih =>
      cases found : Value.read (tokenize text) with
      | error reason =>
          by_cases empty : tokenize text = []
          · exact ⟨[], none, .finished (Token.split_eq_nil_iff.mp empty)⟩
          · exact ⟨[], some reason, .stuck empty found⟩
      | ok result =>
          obtain ⟨used, tokens, derived⟩ := read_eq_ok_iff.mp found
          obtain ⟨gap, part, after, rfl, blank, nonempty, trimmed, rfl, rest, whole⟩ :=
            Token.exists_cut derived.ne_nil tokens
          have shorter : after.toList.length < n := by
            have present : 0 < part.toList.length := List.length_pos_iff.mpr (by simpa)
            rw [← size, String.toList_append, String.toList_append, List.length_append,
              List.length_append]
            omega
          obtain ⟨parts, ending, later⟩ := ih _ shorter after rfl
          rw [← rest] at whole
          exact ⟨part :: parts, ending, .form blank trimmed whole derived later⟩

/-- Reading a text finds the values of the parts, and ends as the rest does. -/
theorem Divides.readAll {text : String} {parts : List String} {ending : Option SyntaxError}
    (divided : Divides text parts ending) :
    List.Forall₂ (fun part v => Value.read (tokenize part) = .ok (v, [])) parts
        (Stream.ofSource text).readAll.1 ∧
      (Stream.ofSource text).readAll.2.1 = ending := by
  induction divided with
  | @finished text blank =>
      have empty : (Stream.ofSource text).rest = [] := Token.split_eq_nil_iff.mpr blank
      rw [Stream.readAll_of_nil empty]
      exact ⟨.nil, rfl⟩
  | @stuck text reason more unread =>
      have failed : (Stream.ofSource text).next = .error reason := Stream.next_eq_error_iff.mpr unread
      have more : (Stream.ofSource text).rest ≠ [] := more
      rw [Stream.readAll_of_error more failed]
      exact ⟨.nil, rfl⟩
  | @form part after v parts ending gap blank _ whole derived _ ih =>
      have tokens : tokenize (gap ++ part ++ after) = tokenize part ++ tokenize after := by
        rw [String.append_assoc, tokenize_gap blank, whole]
      have read : Value.read (tokenize part) = .ok (v, []) :=
        read_eq_ok_iff.mpr ⟨_, (List.append_nil _).symm, derived⟩
      obtain ⟨values, last⟩ := Stream.readAll_ofTokens_append derived.alone (tokenize after)
      rw [Stream.ofSource, tokens, values, last]
      exact ⟨.cons read ih.1, ih.2⟩

namespace Session

variable {s t : Session} {text a b gap : String} {parts : List String}
variable {ending : Option SyntaxError} {reason : SyntaxError}

/-- Evaluates texts as lines, up to the first one that fails. -/
def evaluateSources (s : Session) : List String → Except Error Unit × Session
  | [] => (.ok (), s)
  | source :: rest => andThen (ignoreValue (s.evaluateSource source)) (·.evaluateSources rest)

theorem evaluateSources_eq {values : List Value}
    (read : List.Forall₂ (fun part v => Value.read (tokenize part) = .ok (v, [])) parts values) :
    s.evaluateSources parts = s.evaluateForms values := by
  induction read generalizing s with
  | nil => rfl
  | cons first _ ih =>
      rw [evaluateForms_cons, evaluateSources, evaluateSource_of_read first]
      simp only [ih]
      rfl

/-- A prelude is the lines that its forms are, and then what reading ends in. -/
theorem evaluatePrelude_of_divides (divided : Divides text parts ending) (s : Session) :
    s.evaluatePrelude text = andThen (s.evaluateSources parts) (finish ending) := by
  obtain ⟨read, last⟩ := divided.readAll
  rw [evaluatePrelude_eq, last, evaluateSources_eq read]

theorem evaluateForms_noSyntaxError (s : Session) (forms : List Value) :
    NoSyntaxError (s.evaluateForms forms).1 := by
  induction forms generalizing s with
  | nil => exact .ok ()
  | cons form rest ih =>
      have first := s.evaluate_noSyntaxError form
      rw [evaluateForms_cons]
      rcases run : s.evaluate form with ⟨e | v, t⟩
      · rw [run] at first
        exact .error (first e rfl)
      · exact ih t

/-- That a text cannot be read is found out after its forms have been evaluated. -/
theorem evaluateSources_of_unreadable (divided : Divides text parts ending)
    (failed : s.evaluatePrelude text = (.error (.unreadable reason), t)) :
    ending = some reason ∧ s.evaluateSources parts = (.ok (), t) := by
  rw [evaluatePrelude_of_divides divided] at failed
  rw [evaluateSources_eq divided.readAll.1] at failed ⊢
  have other := s.evaluateForms_noSyntaxError (Stream.ofSource text).readAll.1
  rcases run : s.evaluateForms (Stream.ofSource text).readAll.1 with ⟨e | _, u⟩
  · rw [run] at failed other
    cases failed
    exact absurd rfl (other _ rfl)
  · rw [run] at failed
    cases ending with
    | none => cases failed
    | some other =>
        cases failed
        exact ⟨rfl, rfl⟩

theorem tokenize_append (blank : ∀ c ∈ gap.toList, Text.isBlank c = true) (nonempty : gap ≠ "")
    (a b : String) : tokenize (a ++ gap ++ b) = tokenize a ++ tokenize b := by
  obtain ⟨c, rest, chars⟩ := List.exists_cons_of_ne_nil (by simpa using nonempty : gap.toList ≠ [])
  rw [chars] at blank
  obtain ⟨here, later⟩ := List.forall_mem_cons.mp blank
  have whole : (a ++ gap ++ b).toList = a.toList ++ c :: (rest ++ b.toList) := by
    rw [String.toList_append, String.toList_append, chars, List.append_assoc, List.cons_append]
  change Token.split (a ++ gap ++ b).toList = Token.split a.toList ++ Token.split b.toList
  rw [whole, Token.split_append_blank here, Token.split_gap later]

/-- A prelude that begins with a text whose parentheses balance is that text, and then the rest. -/
theorem evaluatePrelude_append (balanced : Text.Balanced a.toList)
    (blank : ∀ c ∈ gap.toList, Text.isBlank c = true) (nonempty : gap ≠ "") (b : String)
    (s : Session) :
    s.evaluatePrelude (a ++ gap ++ b) = andThen (s.evaluatePrelude a) (·.evaluatePrelude b) := by
  obtain ⟨items, derived⟩ := balanced.nested.derives
  have derived : DerivesAll (tokenize a) items := derived
  obtain ⟨first, finished⟩ := derived.readAll_ofTokens
  obtain ⟨values, last⟩ := Stream.readAll_ofTokens_append derived (tokenize b)
  simp only [evaluatePrelude_eq, Stream.ofSource, tokenize_append blank nonempty, values, last,
    first, finished, evaluateForms_append, andThen_assoc]
  rfl

end Session

end MiniLisp
