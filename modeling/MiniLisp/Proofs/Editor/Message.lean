import MiniLisp.Editor.Message
import MiniLisp.Proofs.Table

namespace MiniLisp

/-- The text that a document is left with. -/
def Notification.text? : Notification → Option String
  | .opened text | .changed text => some text
  | .closed => none

namespace Message

/-- What the message says about the document. -/
def notification? (uri : String) : Message → Option Notification
  | .notify other n => if other = uri then some n else none
  | .ask .. => none

def isNotification : Message → Bool
  | .notify .. => true
  | .ask .. => false

def lastNotification? (uri : String) (messages : List Message) : Option Notification :=
  (messages.filterMap (notification? uri)).getLast?

/-- The text of the document after the messages, if it is open then. -/
def textAfter? (uri : String) (messages : List Message) : Option String :=
  (lastNotification? uri messages).bind Notification.text?

end Message

/-- What is published about a text: an error on the character where its issue is, if it has one. If
there is no text there is nothing to say. -/
def diagnosticsOf (text? : Option String) : List Diagnostic :=
  match text?.bind Issue.ofText? with
  | none => []
  | some { reason, position := { line, column } } =>
    [{ span := { line, start := column, stop := column + 1 }
       message := reason.message
       severity := .error
       source := "lumen-ls" }]

theorem diagnosticsOf_some (text : String) :
    diagnosticsOf (some text) = (Index.ofText text).diagnostics := by
  unfold diagnosticsOf Index.diagnostics Index.ofText
  rw [Option.bind_some]
  cases Issue.ofText? text <;> rfl

/-- What the reply publishes for the document. -/
def Reply.diagnostics? (uri : String) : Reply → Option (List Diagnostic)
  | .published p => if p.uri = uri then some p.diagnostics else none
  | .answered _ => none

def published (uri : String) (replies : List Reply) : List (List Diagnostic) :=
  replies.filterMap (Reply.diagnostics? uri)

/-- The answer of a workspace that has only ever seen the one text, or none. -/
def Query.answerFrom (q : Query) (text? : Option String) : Answer :=
  match text? with
  | none => ({} : Workspace).answer "" q
  | some text => (({} : Workspace).write "" text).2.answer "" q

theorem Message.lastNotification?_cons (uri : String) (m : Message) (messages : List Message) :
    lastNotification? uri (m :: messages) =
      (lastNotification? uri messages).or (m.notification? uri) := by
  cases said : m.notification? uri <;>
    simp [lastNotification?, said, List.getLast?_cons]

namespace Workspace

variable {w w' : Workspace} {uri uri' : String} {q : Query}

theorem find?_notify (w : Workspace) (uri other : String) (n : Notification) :
    (w.notify uri n).2.documents.find? other =
      if other = uri then n.text?.map Document.ofText else w.documents.find? other := by
  cases n with
  | opened text | changed text => exact Table.find?_insert _ _ _ _
  | closed => exact Table.find?_erase _ _ _

theorem publication_notify (w : Workspace) (uri : String) (n : Notification) :
    (w.notify uri n).1 = { uri, diagnostics := diagnosticsOf n.text? } := by
  cases n with
  | opened text | changed text => exact congrArg (Publication.mk uri) (diagnosticsOf_some text).symm
  | closed => rfl

theorem nodup_keys_notify (nodup : w.documents.keys.Nodup) (uri : String) (n : Notification) :
    (w.notify uri n).2.documents.keys.Nodup := by
  cases n with
  | opened text | changed text => exact Table.nodup_keys_insert nodup _ _
  | closed => exact Table.nodup_keys_erase nodup _

theorem find?_handle (w : Workspace) (m : Message) (uri : String) :
    (w.handle m).2.documents.find? uri =
      match m.notification? uri with
      | none => w.documents.find? uri
      | some n => n.text?.map Document.ofText := by
  cases m with
  | ask => rfl
  | notify other n =>
      by_cases same : other = uri
      · simp [handle, Message.notification?, find?_notify, same]
      · simp [handle, Message.notification?, find?_notify, same, Ne.symm same]

theorem diagnostics?_handle (w : Workspace) (m : Message) (uri : String) :
    (w.handle m).1.diagnostics? uri =
      (m.notification? uri).map fun n => diagnosticsOf n.text? := by
  cases m with
  | ask => rfl
  | notify other n =>
      by_cases same : other = uri <;>
        simp [handle, Message.notification?, Reply.diagnostics?, publication_notify, same]

theorem answer_congr (same : w.documents.find? uri = w'.documents.find? uri') (q : Query) :
    w.answer uri q = w'.answer uri' q := by
  cases q <;> simp [answer, hover, completions, definitions?, same]

theorem answer_eq {text? : Option String}
    (held : w.documents.find? uri = text?.map Document.ofText) (q : Query) :
    w.answer uri q = q.answerFrom text? := by
  cases text? with
  | none => exact answer_congr held q
  | some text => exact answer_congr held q

theorem find?_run (w : Workspace) (messages : List Message) (uri : String) :
    (w.run messages).2.documents.find? uri =
      match Message.lastNotification? uri messages with
      | none => w.documents.find? uri
      | some n => n.text?.map Document.ofText := by
  induction messages generalizing w with
  | nil => rfl
  | cons m messages ih =>
      have later : (w.run (m :: messages)).2 = ((w.handle m).2.run messages).2 := rfl
      rw [later, ih, Message.lastNotification?_cons]
      cases Message.lastNotification? uri messages with
      | none => exact find?_handle w m uri
      | some n => rfl

theorem published_run (w : Workspace) (messages : List Message) (uri : String) :
    published uri (w.run messages).1 =
      (messages.filterMap (Message.notification? uri)).map fun n => diagnosticsOf n.text? := by
  induction messages generalizing w with
  | nil => rfl
  | cons m messages ih =>
      have replies : (w.run (m :: messages)).1 = (w.handle m).1 :: ((w.handle m).2.run messages).1 :=
        rfl
      have here := diagnostics?_handle w m uri
      have later := ih (w.handle m).2
      unfold published at *
      rw [replies, List.filterMap_cons, List.filterMap_cons, here, later]
      cases m.notification? uri <;> rfl

theorem nodup_keys_run (nodup : w.documents.keys.Nodup) (messages : List Message) :
    (w.run messages).2.documents.keys.Nodup := by
  induction messages generalizing w with
  | nil => exact nodup
  | cons m messages ih =>
      cases m with
      | notify uri n => exact ih (nodup_keys_notify nodup uri n)
      | ask => exact ih nodup

theorem run_getElem? (w : Workspace) (messages : List Message) (i : Nat) :
    (w.run messages).1[i]? =
      messages[i]?.map fun m => ((w.run (messages.take i)).2.handle m).1 := by
  induction messages generalizing w i with
  | nil => rfl
  | cons m messages ih =>
      cases i with
      | zero => rfl
      | succ i => exact ih (w.handle m).2 i

/-- Without its questions a run leads to the same workspace. -/
theorem run_filter (w : Workspace) (messages : List Message) :
    (w.run (messages.filter Message.isNotification)).2 = (w.run messages).2 := by
  induction messages generalizing w with
  | nil => rfl
  | cons m messages ih =>
      cases m with
      | notify uri n => exact ih (w.notify uri n).2
      | ask => exact ih w

theorem published_filter (w : Workspace) (messages : List Message) (uri : String) :
    published uri (w.run (messages.filter Message.isNotification)).1 =
      published uri (w.run messages).1 := by
  rw [published_run, published_run, List.filterMap_filter]
  congr 2
  funext m
  cases m <;> rfl

/-- A document is open after the messages if the last that was said of it is a text, and that is its
text then. -/
theorem find?_run_start (messages : List Message) (uri : String) :
    (({} : Workspace).run messages).2.documents.find? uri =
      (Message.textAfter? uri messages).map Document.ofText := by
  rw [find?_run, Message.textAfter?]
  cases Message.lastNotification? uri messages <;> rfl

end Workspace

/-- After any messages a workspace holds, each once, the documents of which the last that was said
is that they were opened or changed, with the text that was said then and its index. The diagnostics
that were published last for a document are those of this text, or none if it was closed. What is
said of one document leaves the others alone; a question changes nothing, and its answer is made from
the last text of its document. -/
theorem workspace_tracks_last_texts (messages : List Message) :
    let replies := (({} : Workspace).run messages).1
    let w := (({} : Workspace).run messages).2
    let told := ({} : Workspace).run (messages.filter Message.isNotification)
    (w.documents.keys.Nodup ∧ ∀ uri, uri ∈ w.documents.keys ↔
      ∃ text, Message.lastNotification? uri messages = some (.opened text) ∨
        Message.lastNotification? uri messages = some (.changed text)) ∧
    (∀ uri, w.documents.find? uri = (Message.textAfter? uri messages).map fun text =>
      { text, index := .ofText text }) ∧
    (∀ uri, (published uri replies).getLast? =
      (Message.lastNotification? uri messages).map fun n => diagnosticsOf n.text?) ∧
    (∀ m uri, m.notification? uri = none →
      (w.handle m).2.documents.find? uri = w.documents.find? uri ∧
        (w.handle m).1.diagnostics? uri = none) ∧
    (told.2 = w ∧ ∀ uri, published uri told.1 = published uri replies) ∧
    ∀ (i : Nat) uri q, messages[i]? = some (Message.ask uri q) →
      replies[i]? =
        some (Reply.answered (q.answerFrom (Message.textAfter? uri (messages.take i)))) := by
  intro replies w told
  have held (uri : String) : w.documents.find? uri =
      (Message.textAfter? uri messages).map Document.ofText :=
    Workspace.find?_run_start messages uri
  have nothing : ({} : Workspace).documents.keys.Nodup := List.nodup_nil
  refine ⟨⟨Workspace.nodup_keys_run nothing messages, fun uri => ?_⟩, held, fun uri => ?_,
    fun m uri unsaid => ⟨?_, ?_⟩, ⟨Workspace.run_filter _ _, Workspace.published_filter _ _⟩,
    fun i uri q asked => ?_⟩
  · rw [Table.mem_keys_iff, held, Message.textAfter?]
    rcases Message.lastNotification? uri messages with _ | ⟨text | text | _⟩ <;>
      simp [Notification.text?]
  · rw [Workspace.published_run, List.getLast?_map]
    rfl
  · rw [Workspace.find?_handle, unsaid]
  · rw [Workspace.diagnostics?_handle, unsaid]
    rfl
  · have here := Workspace.run_getElem? {} messages i
    rw [asked, Option.map_some] at here
    refine here.trans ?_
    have before := Workspace.find?_run_start (messages.take i) uri
    exact congrArg (some ∘ Reply.answered) (Workspace.answer_eq before q)

/-- A document that is changed after a question, and another one that is closed. -/
theorem workspace_tracks_last_texts_closed :
    let messages : List Message :=
      [.notify "a" (.opened "(define x 1)"), .notify "b" (.changed ")"),
        .ask "a" (.hover ⟨0, 8⟩), .notify "b" .closed, .notify "a" (.changed "(x")]
    let replies := (({} : Workspace).run messages).1
    let w := (({} : Workspace).run messages).2
    "a" ∈ w.documents.keys ∧ "b" ∉ w.documents.keys ∧
      w.documents.find? "a" = some (Document.ofText "(x") ∧
      (published "a" replies).getLast? =
        some [⟨⟨0, 0, 1⟩, "unbalanced parentheses", .error, "lumen-ls"⟩] ∧
      (published "b" replies).getLast? = some [] ∧
      (w.handle (.notify "b" (.opened "y"))).2.documents.find? "a" = w.documents.find? "a" ∧
      messages[2]? = some (Message.ask "a" (.hover ⟨0, 8⟩)) ∧
      replies[2]? = some (Reply.answered (.hover (.ok (some "x: var (defined at 1:9)")))) := by
  intro messages replies w
  obtain ⟨⟨_, present⟩, texts, diagnostics, apart, _, answers⟩ :=
    workspace_tracks_last_texts messages
  have last : Message.lastNotification? "a" messages = some (.changed "(x") := by decide
  have closed : Message.lastNotification? "b" messages = some .closed := by decide
  have absent : "b" ∉ w.documents.keys := by
    intro member
    obtain ⟨text, said | said⟩ := (present "b").mp member <;> simp [closed] at said
  have here : w.documents.find? "a" = some (Document.ofText "(x") := by
    rw [texts, Message.textAfter?, last]
    rfl
  have shown : (({} : Workspace).write "" "(define x 1)").2.hover "" ⟨0, 8⟩ =
      .ok (some "x: var (defined at 1:9)") := by
    decide +kernel
  have before : Message.textAfter? "a" (messages.take 2) = some "(define x 1)" := by decide
  have answered := answers 2 "a" (.hover ⟨0, 8⟩) rfl
  rw [before] at answered
  have issue : diagnosticsOf (some "(x") =
      [⟨⟨0, 0, 1⟩, "unbalanced parentheses", .error, "lumen-ls"⟩] := by
    decide +kernel
  refine ⟨(present "a").mpr ⟨_, .inr last⟩, absent, here, ?_, ?_, (apart _ "a" rfl).1, rfl, ?_⟩
  · rw [diagnostics, last]
    exact congrArg some issue
  · rw [diagnostics, closed]
    rfl
  · exact answered.trans (congrArg (some ∘ Reply.answered ∘ Answer.hover) shown)

end MiniLisp
