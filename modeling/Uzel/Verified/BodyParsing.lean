import Uzel.Dispatcher
import Uzel.Foundation.Json

/-! # Bodies that are not JSON

`pbody()` moves the bytes of the body out of the message before it parses them, and an exception of the
parser leaves an empty tree in their place.  The message is shared by everybody who handles it, so a
handler that fails on the body takes the body away from all that come after it.  `parse_failure` says
that this happens to every message with such a body.
-/

namespace Uzel.Verified.BodyParsing

open Foundation

section Handlers

variable {σ : Type*} (json : JsonCodec)

/-- A handler that works with the body; it fails when `pbody()` does. -/
def readBody (work : PTree → σ → σ) : Handler σ := fun msg state =>
  match msg.pbody json with
  | (some body, msg) => .done (msg, work body state)
  | (none, msg) => .raised (msg, state)

/-- A handler that forwards the message; the state is what has been forwarded. -/
def forwardMsg : Handler (List (Option (List Char))) := fun msg forwarded =>
  .done (msg, forwarded ++ [msg.charvec json])

/-- The handler with the name of the message works with its body, and another one forwards it. -/
def readAndForward (work : PTree → List (Option (List Char)) → List (Option (List Char))) :
    MsgDispatcher (List (Option (List Char))) where
  handlers _ := [readBody json work]
  anyPost := [forwardMsg json]

end Handlers

/-- A failed `pbody()` leaves the message as it was, for its caller and for the handlers that come
after it. -/
structure Intact (json : JsonCodec) (msg : Msg) : Prop where
  bytes : (msg.pbody json).2.charvec json = msg.charvec json
  raises : ((msg.pbody json).2.pbody json).1 = none
  forwarded : ∀ cname work, msg.cname = some cname → msg.toMe = true →
    ∃ left, (readAndForward json work).dispatch msg [] = .done (left, [msg.charvec json])

section Failure

variable {json : JsonCodec} {msg : Msg} {bytes : List Char}

theorem pbody_of_unread (isRaw : msg.body = .raw bytes) (unread : json.readJson bytes = none) :
    msg.pbody json = (none, { msg with body := .tree .empty }) := by
  simp only [Msg.pbody, isRaw, unread]

/-- The next call gets the empty tree, and no exception. -/
theorem pbody_again (isRaw : msg.body = .raw bytes) (unread : json.readJson bytes = none) :
    ((msg.pbody json).2.pbody json).1 = some .empty := by
  rw [pbody_of_unread isRaw unread]
  rfl

/-- The bytes that the message is forwarded as are those of another body. -/
theorem charvec_changed (lawful : json.Lawful) (isRaw : msg.body = .raw bytes)
    (unread : json.readJson bytes = none) (writable : msg.header.Writable) :
    { msg with body := .tree .empty }.charvec json ≠ msg.charvec json := by
  obtain ⟨header, headerWritten, -⟩ := lawful.inverts msg.header writable
  obtain ⟨line, written, -, read⟩ := lawful.inverts .empty (by decide)
  simp only [Msg.charvec, Msg.str, isRaw, headerWritten, written, Option.bind_some, Option.map_some]
  intro same
  have sameLine : line = bytes := by simpa using same
  rw [sameLine, unread] at read
  cases read

/-- The handlers behind a handler that fails on the body are called with the empty one. -/
theorem dispatch_of_unread {σ : Type*} {dispatcher : MsgDispatcher σ} {cname : String} {work : PTree → σ → σ}
    (isRaw : msg.body = .raw bytes) (unread : json.readJson bytes = none) (named : msg.cname = some cname)
    (mine : msg.toMe = true) (handler : dispatcher.handlers cname = [readBody json work]) (state : σ) :
    dispatcher.dispatch msg state =
      MsgDispatcher.runHandlers dispatcher.anyPost ({ msg with body := .tree .empty }, state) := by
  have failed : readBody json work msg state = .raised ({ msg with body := .tree .empty }, state) := by
    simp only [readBody, pbody_of_unread isRaw unread]
  simp only [MsgDispatcher.dispatch, named, mine, if_true, handler, MsgDispatcher.runHandlers,
    Outcome.forEach, failed, Outcome.attempt_raised, Outcome.andThen_done]

theorem forwarded_changed (lawful : json.Lawful) (isRaw : msg.body = .raw bytes)
    (unread : json.readJson bytes = none) (writable : msg.header.Writable) {cname : String}
    (named : msg.cname = some cname) (mine : msg.toMe = true)
    (work : PTree → List (Option (List Char)) → List (Option (List Char))) :
    ∃ left text, (readAndForward json work).dispatch msg [] = .done (left, [text]) ∧
      text ≠ msg.charvec json :=
  ⟨_, _, dispatch_of_unread isRaw unread named mine rfl [], charvec_changed lawful isRaw unread writable⟩

end Failure

/-- No received message with a body that is not JSON survives `pbody()`: the next call does not raise,
the encoding of the message is another one, and so is what the later handlers forward. -/
theorem parse_failure {json : JsonCodec} (lawful : json.Lawful) (config : UConfig) (header : PTree)
    {bytes : List Char} (unread : json.readJson bytes = none) (origin : Option SessionId) :
    let msg := Msg.incoming config header (.raw bytes) origin
    ¬ Intact json msg ∧ ((msg.pbody json).2.pbody json).1 = some .empty ∧
      (header.Writable → (msg.pbody json).2.charvec json ≠ msg.charvec json ∧
        ∀ cname work, msg.cname = some cname → msg.toMe = true →
          ∃ left text, (readAndForward json work).dispatch msg [] = .done (left, [text]) ∧
            text ≠ msg.charvec json) := by
  intro msg
  have isRaw : msg.body = .raw bytes := Msg.incoming_body config header (.raw bytes) origin
  have again := pbody_again isRaw unread
  refine ⟨fun intact => ?_, again, fun writable => ?_⟩
  · rw [intact.raises] at again
    cases again
  · have writable : msg.header.Writable := by rwa [Msg.incoming_header]
    refine ⟨?_, fun cname work named mine => forwarded_changed lawful isRaw unread writable named mine work⟩
    rw [pbody_of_unread isRaw unread]
    exact charvec_changed lawful isRaw unread writable

/-- A priority message for every node and application, as another server receives it. -/
def priorityMsg : Msg :=
  .incoming ⟨"alpha", "userver"⟩ (Msg.outgoing ⟨"beta", "userver"⟩ ⟨"*", "*"⟩ "priority" .empty).header
    (.raw "low".toList) (some 0)

theorem priority_body_lost : ¬ Intact Json.compactJson priorityMsg ∧
    ∃ left text, (readAndForward Json.compactJson fun _ forwarded => forwarded).dispatch priorityMsg [] =
      .done (left, [text]) ∧ text ≠ priorityMsg.charvec Json.compactJson := by
  have failure := parse_failure Json.compactJson_lawful ⟨"alpha", "userver"⟩
    (Msg.outgoing ⟨"beta", "userver"⟩ ⟨"*", "*"⟩ "priority" .empty).header
    (show Json.compactJson.readJson "low".toList = none by decide) (some 0)
  exact ⟨failure.1, (failure.2.2 (by decide)).2 "priority" _ (by decide) (by decide)⟩

theorem priority_body_not_intact : ¬ Intact Json.compactJson priorityMsg := by
  intro intact
  have raises := intact.raises
  have isRaw : priorityMsg.body = .raw "low".toList := Msg.incoming_body _ _ _ _
  rw [pbody_of_unread isRaw (by decide)] at raises
  cases raises

end Uzel.Verified.BodyParsing
