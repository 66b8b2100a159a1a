import MiniLisp.Proofs.Editor.Definitions
import MiniLisp.Proofs.Editor.Syntax
import MiniLisp.Proofs.Editor.Word
import MiniLisp.Proofs.Text.Offset

namespace MiniLisp

namespace DefinedName

def shift (n : Nat) (d : DefinedName) : DefinedName :=
  { d with offset := n + d.offset }

theorem ofForm?_shift (n : Nat) (placed : List Placed) :
    ofForm? (placed.map (Placed.shift n)) = (ofForm? placed).map (shift n) := by
  match placed with
  | [] | [⟨.atom _, _⟩] => rfl
  | ⟨.opening, _⟩ :: _ | ⟨.closing, _⟩ :: _ => rfl
  | ⟨.atom _, _⟩ :: ⟨.opening, _⟩ :: _ | ⟨.atom _, _⟩ :: ⟨.closing, _⟩ :: _ => rfl
  | ⟨.atom keyword, _⟩ :: ⟨.atom name, offset⟩ :: rest =>
      by_cases definition : keyword = Keyword.definition.name
      · -- The kind is told by the two tokens after the name.
        match rest with
        | [] | [⟨.opening, _⟩] => simp [ofForm?, shift, Placed.shift, definition]
        | ⟨.atom _, _⟩ :: _ | ⟨.closing, _⟩ :: _ => simp [ofForm?, shift, Placed.shift, definition]
        | ⟨.opening, _⟩ :: ⟨token, _⟩ :: _ =>
            cases token <;> simp [ofForm?, shift, Placed.shift, definition]
      · simp [ofForm?, Placed.shift, definition]

theorem collect_shift (n depth : Nat) (placed : List Placed) :
    collect depth (placed.map (Placed.shift n)) = (collect depth placed).map (shift n) := by
  fun_induction collect depth placed with
  | case1 => rfl
  | case2 depth offset rest ih =>
      rw [List.map_cons, Placed.shift, collect, ih, ofForm?_shift, List.map_append]
      split
      · cases ofForm? rest <;> rfl
      · rfl
  | case3 depth offset rest ih => exact ih
  | case4 depth text offset rest ih => exact ih

end DefinedName

namespace Issue

theorem offset?_shift (n : Nat) (opened : List Nat) (placed : List Placed) :
    offset? (opened.map (n + ·)) (placed.map (Placed.shift n)) =
      (offset? opened placed).map (n + ·) := by
  fun_induction offset? opened placed with
  | case1 opened => rw [List.map_nil, offset?, List.head?_map]
  | case2 opened offset rest ih => exact (offset?_opening _ _ _).trans ih
  | case3 => rfl
  | case4 last opened offset rest ih => exact ih
  | case5 opened name offset rest ih => cases opened <;> exact ih

end Issue

theorem Placed.scan_newline (a b : List Char) :
    scan (a ++ '\n' :: b) = scan a ++ (scan b).map (shift (a.length + 1)) := by
  have blank : Text.isBlank '\n' = true := by decide
  have feed : scanFrom a.length [] ('\n' :: b) = scanFrom (a.length + 1) [] b := rfl
  have moved : scanFrom (a.length + 1 + 0) [] b = (scanFrom 0 [] b).map (shift (a.length + 1)) :=
    scanFrom_shift (a.length + 1) 0 (Nat.zero_le _)
  unfold scan
  rw [scanFrom_append_apart (Text.apart_cons (.inl blank) b), Nat.zero_add, feed, ← moved,
    Nat.add_zero]

theorem toList_newline (a b : String) : (a ++ "\n" ++ b).toList = a.toList ++ '\n' :: b.toList := by
  simp

def Definition.down (n : Nat) (d : Definition) : Definition :=
  { d with position := d.position.down n }

def Issue.down (n : Nat) (issue : Issue) : Issue :=
  { issue with position := issue.position.down n }

section

variable {a : String} (finished : (Stream.ofSource a).readAll.2.1 = none) (b : String)
include finished

theorem Issue.ofText?_newline :
    ofText? (a ++ "\n" ++ b) = (ofText? b).map (down (a.toList.count '\n' + 1)) := by
  have balanced : Text.Balanced a.toList := balanced_of_readAll finished
  obtain ⟨items, derived⟩ := balanced.nested.derives
  have feed : Text.isBlank '\n' = true := by decide
  have tokens : Token.tokenize (a ++ "\n" ++ b) = Token.split a.toList ++ Token.tokenize b := by
    change Token.split (a ++ "\n" ++ b).toList = _
    rw [toList_newline, Token.split_append_blank feed]
    rfl
  have reason : (Stream.ofSource (a ++ "\n" ++ b)).readAll.2.1 =
      (Stream.ofSource b).readAll.2.1 := by
    rw [Stream.ofSource, tokens]
    exact (Stream.readAll_ofTokens_append derived (Token.tokenize b)).2
  have place : offset? [] (Placed.scan (a ++ "\n" ++ b).toList) =
      (offset? [] (Placed.scan b.toList)).map (a.toList.length + 1 + ·) := by
    rw [toList_newline, Placed.scan_newline, Placed.scan, offset?_nested balanced.nested]
    exact offset?_shift _ [] _
  cases failed : (Stream.ofSource b).readAll.2.1 with
  | none => simp [ofText?, reason, failed]
  | some e =>
      obtain ⟨k, found⟩ := exists_offset failed
      rw [found] at place
      rw [ofText?_eq_some (reason.trans failed) place, ofText?_eq_some failed found, toList_newline,
        Text.Position.ofOffset_newline]
      rfl

theorem Index.definitionsOf_newline :
    definitionsOf (a ++ "\n" ++ b).toList = (definitionsOf a.toList).update
      ((definitionsOf b.toList).map id (.down (a.toList.count '\n' + 1))) := by
  obtain ⟨trees, unique, _⟩ := exists_forest finished
  have forest := (unique trees).mpr rfl
  have collected : DefinedName.collect 0 (Placed.scan (a ++ "\n" ++ b).toList) =
      DefinedName.collect 0 (Placed.scan a.toList) ++
        (DefinedName.collect 0 (Placed.scan b.toList)).map (.shift (a.toList.length + 1)) := by
    rw [toList_newline, Placed.scan_newline, ← forest, DefinedName.collect_forest_append,
      DefinedName.collect_forest, DefinedName.collect_shift]
  unfold definitionsOf
  rw [collected, toList_newline, List.map_append, Table.ofList_append,
    Table.map_ofList Function.injective_id, List.map_map, List.map_map]
  congr 2
  · refine List.map_congr_left fun d member => ?_
    have stands := Placed.stands_of_mem_scan _ _ (DefinedName.mem_of_mem_collect member)
    rw [Text.Position.ofOffset_append_left stands.offset_le]
  · congr 1
    funext d
    exact congrArg (fun position => (d.name, Definition.mk d.kind position))
      (Text.Position.ofOffset_newline a.toList b.toList d.offset)

end

/-- What is written on the lines after a text without an issue is indexed as if it stood alone, only
further down: its definitions are written to those of the text, where a name that is there already
keeps its place in the table and takes the new entry, and its issue is the issue of the whole. -/
theorem index_continues_on_next_line (a b : String) (sound : (Index.ofText a).issue? = none) :
    let lines := a.toList.count '\n' + 1
    let earlier := (Index.ofText a).definitions
    let later := (Index.ofText b).definitions.map id (Definition.down lines)
    let whole := Index.ofText (a ++ "\n" ++ b)
    whole.definitions = earlier.update later ∧
    whole.definitions.keys =
      earlier.keys ++ (Index.ofText b).definitions.keys.filter (· ∉ earlier.keys) ∧
    (∀ name, whole.definitions.find? name =
      (((Index.ofText b).definitions.find? name).map (Definition.down lines)).or
        (earlier.find? name)) ∧
    whole.issue? = (Index.ofText b).issue?.map (Issue.down lines) := by
  intro lines earlier later whole
  have finished : (Stream.ofSource a).readAll.2.1 = none := Option.map_eq_none_iff.mp sound
  have updated : whole.definitions = earlier.update later := Index.definitionsOf_newline finished b
  have keys : later.keys = (Index.ofText b).definitions.keys := by
    simp [later, Table.map, Table.keys]
  have nodup : later.keys.Nodup := keys ▸ Table.nodup_keys_ofList _
  refine ⟨updated, ?_, fun name => ?_, Issue.ofText?_newline finished b⟩
  · rw [updated, Table.keys_update nodup, keys]
  · rw [updated, Table.find?_update nodup]
    exact congrArg (Option.or · _) (Table.find?_map Function.injective_id _ name)

/-- A second part that defines a name again and goes wrong twice after it. -/
theorem index_continues_on_next_line_broken :
    let a := "(define x 1)\n(define f 2)"
    let b := "(define f (lambda (y) y)))\n(define z 3"
    let whole := Index.ofText (a ++ "\n" ++ b)
    (Index.ofText a).issue? = none ∧ whole.definitions.keys = ["x", "f", "z"] ∧
      whole.definitions.find? "f" = some { kind := .function, position := ⟨2, 8⟩ } ∧
      whole.issue? = some { reason := .unexpectedClosing, position := ⟨2, 25⟩ } := by
  intro a b whole
  have sound : (Index.ofText a).issue? = none := by decide +kernel
  have earlier : (Index.ofText a).definitions.keys = ["x", "f"] := by decide +kernel
  have later : (Index.ofText b).definitions.keys = ["f", "z"] := by decide +kernel
  have again : (Index.ofText b).definitions.find? "f" =
      some { kind := .function, position := ⟨0, 8⟩ } := by
    decide +kernel
  have wrong : (Index.ofText b).issue? =
      some { reason := .unexpectedClosing, position := ⟨0, 25⟩ } := by
    decide +kernel
  have lines : a.toList.count '\n' + 1 = 2 := by decide +kernel
  obtain ⟨_, keys, found, issue⟩ := index_continues_on_next_line a b sound
  refine ⟨sound, ?_, ?_, ?_⟩
  · rw [keys, earlier, later]
    decide
  · rw [found, again, lines]
    rfl
  · rw [issue, wrong, lines]
    rfl

end MiniLisp
