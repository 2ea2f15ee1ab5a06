import Uzel.Remote
import Uzel.Verified.WireRoundTrip

/-! # The messages that two servers exchange

A server constructs three kinds of messages for the peer of a connection.  This module follows them
from the queue of one session to the input processor of the other: what a session has said so far
(`Honest`), in which order (`Script`), and what the receiver makes of any part of the stream (`parse`).
-/

namespace Uzel.Verified.Protocol

open Foundation WireRoundTrip

inductive Notice where
  | auth (pid : Nat)
  | priority (role : Priority)
  | bye (reason : String)

namespace Notice

def cname : Notice → String
  | auth _ => "auth"
  | priority _ => "priority"
  | bye _ => "bye"

def body : Notice → PTree
  | auth pid => PTree.empty.add "pid" (toString pid)
  | priority role => role.toBody
  | bye reason => PTree.empty.add "bye" reason

def msg (config : UConfig) (notice : Notice) : Msg := .outgoing config .none notice.cname notice.body

/-- What goes to the socket: a goodbye in the one-line form, everything else in the two-line form. -/
def text (json : JsonCodec) (config : UConfig) (notice : Notice) : Option (List Char) :=
  match notice with
  | bye _ => (notice.msg config).moveToStr json
  | auth _ | priority _ => (notice.msg config).charvec json

/-- The pair that an input processor makes of the text. -/
def Frame (json : JsonCodec) (config : UConfig) (notice : Notice) (frame : PTree × Body) : Prop :=
  frame.1 = serviceHeader config notice.cname ∧ frame.2.parsed json = some notice.body

end Notice

/-- The texts of a series of notices. -/
abbrev Written (json : JsonCodec) (config : UConfig) : List Notice → List (List Char) → Prop :=
  List.Forall₂ fun notice text => notice.text json config = some text

/-! ## Streams -/

/-- What has been read off a stream from its beginning: the messages, and the header that waits for
its body, if all header lines are JSON. -/
def parse (json : JsonCodec) (bytes : List Char) : List (PTree × Body) × Option (Option PTree) :=
  scan json.readJson none (splitLines [] bytes).1

def partialLine (bytes : List Char) : List Char := (splitLines [] bytes).2

section Streams

variable {json : JsonCodec} {config : UConfig}

theorem parse_append (first second : List Char) {frames : List (PTree × Body)} {waiting : Option PTree}
    (parsed : parse json first = (frames, some waiting)) :
    parse json (first ++ second) =
      (frames ++ (scan json.readJson waiting (splitLines (partialLine first) second).1).1,
        (scan json.readJson waiting (splitLines (partialLine first) second).1).2) := by
  have parsed : scan json.readJson none (splitLines [] first).1 = (frames, some waiting) := parsed
  rw [parse, splitLines_append, scan_append, parsed]
  rfl

theorem partialLine_append (first second : List Char) :
    partialLine (first ++ second) = (splitLines (partialLine first) second).2 := by
  rw [partialLine, splitLines_append]
  rfl

/-- A part of a stream of messages is read without complaint, and its messages come first. -/
theorem parse_of_prefix {first second : List Char} {frames : List (PTree × Body)}
    {waiting : Option PTree} (parsed : parse json (first ++ second) = (frames, some waiting)) :
    ∃ heard header, parse json first = (heard, some header) ∧ heard <+: frames := by
  rcases part : parse json first with ⟨heard, waits⟩
  cases waits with
  | none =>
    have part : scan json.readJson none (splitLines [] first).1 = (heard, none) := part
    rw [parse, splitLines_append, scan_append, part] at parsed
    cases parsed
  | some header =>
    rw [parse_append first second part, Prod.mk.injEq] at parsed
    exact ⟨heard, header, rfl, parsed.1 ▸ List.prefix_append _ _⟩

theorem Notice.text_eq (lawful : json.Lawful) (notice : Notice) :
    ∃ text frame, notice.text json config = some text ∧ notice.Frame json config frame ∧
      ∀ rest, parse json (text ++ rest) = (frame :: (parse json rest).1, (parse json rest).2) ∧
        partialLine (text ++ rest) = partialLine rest := by
  -- the header and the body on a line each
  have twoLines : ∀ cname key value, ∃ text frame,
      (Msg.outgoing config .none cname (PTree.empty.add key value)).charvec json = some text ∧
        (frame.1 = serviceHeader config cname ∧
          Body.parsed json frame.2 = some (PTree.empty.add key value)) ∧
        ∀ rest, parse json (text ++ rest) = (frame :: (parse json rest).1, (parse json rest).2) ∧
          partialLine (text ++ rest) = partialLine rest := by
    intro cname key value
    obtain ⟨header, headerWritten, headerLine, headerRead⟩ :=
      lawful.inverts _ (serviceHeader_writable config cname)
    obtain ⟨body, bodyWritten, bodyLine, bodyRead⟩ := lawful.inverts _ (serviceBody_writable key value)
    refine ⟨header ++ '\n' :: (body ++ ['\n']), (serviceHeader config cname, .raw body), ?_,
      ⟨rfl, bodyRead⟩, ?_⟩
    · simp [outgoing_service, Msg.charvec, Msg.str, headerWritten, bodyWritten]
    · intro rest
      have lines : splitLines [] (header ++ '\n' :: (body ++ ['\n']) ++ rest) =
          (header :: body :: (splitLines [] rest).1, (splitLines [] rest).2) := by
        rw [List.append_assoc, List.cons_append, List.append_assoc, splitLines_line headerLine,
          List.singleton_append, splitLines_line bodyLine]
        rfl
      have separate : (serviceHeader config cname).find "body" = none := rfl
      simp only [parse, partialLine, lines, scan, headerRead, separate]
      exact ⟨trivial, trivial⟩
  cases notice with
  | auth pid => exact twoLines "auth" "pid" (toString pid)
  | priority role => exact twoLines "priority" "priority" role.putValue
  | bye reason =>
    obtain ⟨line, written, oneLine, read⟩ := lawful.inverts _ (embeddedBody_writable config "bye" "bye" reason)
    refine ⟨line ++ ['\n'], (serviceHeader config "bye", .tree (PTree.empty.add "bye" reason)), ?_,
      ⟨rfl, rfl⟩, ?_⟩
    · simp [text, msg, cname, body, outgoing_service, Msg.moveToStr, Msg.embedBody, written]
    · intro rest
      have lines : splitLines [] (line ++ ['\n'] ++ rest) =
          (line :: (splitLines [] rest).1, (splitLines [] rest).2) := by
        rw [List.append_assoc, List.singleton_append, splitLines_line oneLine]
        rfl
      have erased : ((serviceHeader config "bye").putChild "body" (PTree.empty.add "bye" reason)).erase
          "body" = serviceHeader config "bye" := PTree.erase_putChild rfl _
      simp only [parse, partialLine, lines, scan, read, PTree.find_putChild, erased]
      exact ⟨trivial, trivial⟩

/-- The messages of a stream of notices are the notices. -/
theorem parse_flatten (lawful : json.Lawful) {notices : List Notice} {texts : List (List Char)}
    (written : Written json config notices texts) :
    ∃ frames, parse json texts.flatten = (frames, some none) ∧
      List.Forall₂ (Notice.Frame json config) notices frames := by
  induction written with
  | nil => exact ⟨[], rfl, .nil⟩
  | @cons notice text notices texts encoded _ inductionHypothesis =>
    obtain ⟨frames, parsed, matched⟩ := inductionHypothesis
    obtain ⟨text', frame, encoded', isFrame, read⟩ := notice.text_eq lawful
    obtain rfl : text' = text := Option.some.inj (encoded'.symm.trans encoded)
    refine ⟨frame :: frames, ?_, .cons isFrame matched⟩
    rw [List.flatten_cons, (read _).1, parsed]

/-- The notice behind a message of the stream. -/
theorem notice_at {notices : List Notice} {frames heard : List (PTree × Body)} {frame : PTree × Body}
    (matched : List.Forall₂ (Notice.Frame json config) notices frames)
    (part : heard ++ [frame] <+: frames) :
    ∃ notice, notices[heard.length]? = some notice ∧ notice.Frame json config frame := by
  obtain ⟨rest, rfl⟩ := part
  induction heard generalizing notices with
  | nil =>
    cases matched with
    | cons isFrame _ => exact ⟨_, rfl, isFrame⟩
  | cons first heard inductionHypothesis =>
    cases matched with
    | cons _ matched => exact inductionHypothesis matched

/-- The state of an input processor that has read the bytes. -/
structure Follows (json : JsonCodec) (bytes : List Char) (processor : InputProcessor) : Prop where
  header : (parse json bytes).2 = some processor.header
  line : processor.acculine = ⟨partialLine bytes, []⟩

theorem follows_nil : Follows json [] .fresh := ⟨rfl, rfl⟩

end Streams

/-! ## What a session writes -/

/-- Everything that a session has written or is going to write is a notice of the given kind. -/
structure Honest (json : JsonCodec) (config : UConfig) (kind : Notice → Prop) (ss : Session) : Prop where
  sent : ∀ text ∈ ss.sent, ∃ notice, kind notice ∧ notice.text json config = some text
  queue : ∀ msg ∈ ss.outQueue, ∃ notice, kind notice ∧ notice.text json config = some msg.rawmsg

/-- What an honest session has handed to its socket. -/
theorem Honest.notices {json : JsonCodec} {config : UConfig} {kind : Notice → Prop} {ss : Session}
    (honest : Honest json config kind ss) :
    ∃ notices, (∀ notice ∈ notices, kind notice) ∧ Written json config notices ss.sent := by
  have sent := honest.sent
  generalize ss.sent = texts at sent
  induction texts with
  | nil => exact ⟨[], nofun, .nil⟩
  | cons text texts inductionHypothesis =>
    obtain ⟨notice, isKind, encoded⟩ := sent text (List.mem_cons_self ..)
    obtain ⟨notices, kinds, written⟩ := inductionHypothesis fun text member =>
      sent text (List.mem_cons_of_mem _ member)
    exact ⟨notice :: notices, List.forall_mem_cons.mpr ⟨isKind, kinds⟩, .cons encoded written⟩

/-- A session goes on: its stream grows, by notices of the given kind if there was nothing else in it. -/
structure Continues (json : JsonCodec) (config : UConfig) (kind : Notice → Prop) (ss after : Session) :
    Prop where
  honest : Honest json config kind ss → Honest json config kind after
  sent : ss.sent <+: after.sent

/-- The session is not about to close, and none of its messages has been dropped for its age. -/
structure Open (ss : Session) : Prop where
  running : ss.stopped = false
  staying : ss.closeFlag = false
  complete : ss.dropped = []

instance (ss : Session) : Decidable (Open ss) :=
  decidable_of_iff (ss.stopped = false ∧ ss.closeFlag = false ∧ ss.dropped = [])
    ⟨fun ⟨running, staying, complete⟩ => ⟨running, staying, complete⟩,
      fun isOpen => ⟨isOpen.running, isOpen.staying, isOpen.complete⟩⟩

/-- The texts that have been put into the queue of a session, in this order: those that have been
handed to the socket, and those that still wait.  The front of the queue stays there while it is
written. -/
def Script (ss : Session) (texts : List (List Char)) : Prop :=
  (ss.writes = [] ∧ texts = ss.sent ++ ss.outQueue.map (·.rawmsg)) ∨
    ∃ front rest, ss.outQueue = front :: rest ∧ ss.writes = [.message front true] ∧
      texts = ss.sent ++ rest.map (·.rawmsg)

section Sessions

variable {json : JsonCodec} {config : UConfig} {kind : Notice → Prop} {ss other : Session}

theorem ofMsg_notice (lawful : json.Lawful) {notice : Notice} (queues : ∀ reason, notice ≠ .bye reason)
    (now id : Nat) :
    ∃ queued, QueuedMsg.ofMsg json now id (notice.msg config) = some queued ∧
      notice.text json config = some queued.rawmsg ∧ queued.expired now = false := by
  obtain ⟨text, _, encoded, _⟩ := notice.text_eq lawful
  have charvec : (notice.msg config).charvec json = some text := by
    cases notice with
    | auth pid => exact encoded
    | priority role => exact encoded
    | bye reason => exact absurd rfl (queues reason)
  refine ⟨⟨text, (notice.msg config).destType, now, id⟩, ?_, encoded, ?_⟩
  · rw [QueuedMsg.ofMsg, charvec]
    rfl
  · simp [QueuedMsg.expired]

namespace Continues

theorem trans {third : Session} (first : Continues json config kind ss other)
    (second : Continues json config kind other third) : Continues json config kind ss third :=
  ⟨second.honest ∘ first.honest, first.sent.trans second.sent⟩

theorem of_same (sent : other.sent = ss.sent) (queue : ∀ msg ∈ other.outQueue, msg ∈ ss.outQueue) :
    Continues json config kind ss other where
  honest before :=
    ⟨fun text member => before.sent text (sent ▸ member),
      fun msg member => before.queue msg (queue msg member)⟩
  sent := sent ▸ List.prefix_rfl

theorem asyncWrite {text : List Char} (write : Bool → Write)
    (encoded : Honest json config kind ss → ∃ notice, kind notice ∧ notice.text json config = some text) :
    Continues json config kind ss (ss.asyncWrite write text) := by
  have sent : (ss.asyncWrite write text).sent = if ss.stopped then ss.sent else ss.sent ++ [text] := rfl
  constructor
  · intro before
    refine ⟨?_, before.queue⟩
    intro written member
    rw [sent] at member
    split at member
    · exact before.sent written member
    · rcases List.mem_append.mp member with earlier | new
      · exact before.sent written earlier
      · rw [List.mem_singleton.mp new]
        exact encoded before
  · rw [sent]
    split
    · exact List.prefix_rfl
    · exact List.prefix_append _ _

theorem doWrite (now : Nat) : Continues json config kind ss (ss.doWrite now) := by
  have kept : Continues json config kind ss (ss.deleteOld now) :=
    of_same rfl fun msg member => (List.dropWhile_suffix _).subset member
  rcases Session.doWrite_cases now ss with ⟨_, same⟩ | ⟨front, rest, remaining, same⟩
  · rwa [same]
  · rw [same]
    apply kept.trans
    apply asyncWrite
    intro before
    exact before.queue front (by simp [remaining])

theorem enqueue {notice : Notice} (isKind : kind notice) {msg : QueuedMsg}
    (encoded : notice.text json config = some msg.rawmsg) (now : Nat) :
    Continues json config kind ss (ss.enqueue now msg) := by
  have put : Continues json config kind ss { ss with outQueue := ss.outQueue ++ [msg] } := by
    refine ⟨fun before => ⟨before.sent, ?_⟩, List.prefix_rfl⟩
    intro queued member
    rcases List.mem_append.mp member with earlier | new
    · exact before.queue queued earlier
    · rw [List.mem_singleton.mp new]
      exact ⟨notice, isKind, encoded⟩
  simp only [Session.enqueue]
  split
  · exact put.trans (doWrite now)
  · exact put

theorem sendByeAndClose (bye : ∀ reason, kind (.bye reason)) :
    (ss.sendByeAndClose json config).All (Continues json config kind ss) := by
  unfold Session.sendByeAndClose
  split
  · exact of_same rfl fun _ member => member
  next text encoded => exact asyncWrite _ fun _ => ⟨.bye ss.reason, bye ss.reason, encoded⟩

theorem gracefullClose (bye : ∀ reason, kind (.bye reason)) (reason : String) :
    (ss.gracefullClose json config reason).All fun after =>
      Continues json config kind ss after ∧ after.closeFlag = true ∧
        after.processor = ss.processor := by
  have flagged : Continues json config kind ss { ss with reason, closeFlag := true } :=
    of_same rfl fun _ member => member
  unfold Session.gracefullClose
  split
  next closing => exact ⟨of_same rfl fun _ member => member, closing, rfl⟩
  · dsimp only
    split
    · apply Outcome.all_of_final
      intro after final
      obtain ⟨endpoint, _⟩ := (Session.sendByeAndClose_keeps json config _).of_final final
      have processor := congrArg Endpoint.processor endpoint
      exact ⟨flagged.trans ((sendByeAndClose bye).of_final final),
        congrArg Endpoint.closeFlag endpoint, processor⟩
    · exact ⟨flagged, rfl, rfl⟩

theorem onWrite (bye : ∀ reason, kind (.bye reason)) {now i : Nat} {ok : Bool}
    {outcome : Outcome Session} (completed : ss.onWrite json config now i ok = some outcome) :
    outcome.All (Continues json config kind ss) := by
  have popped : Continues json config kind ss (Session.deleteOld now { ss with
      writes := ss.writes.eraseIdx i
      outQueue := ss.outQueue.tail
      undefinedBehaviour := ss.undefinedBehaviour || ss.outQueue.isEmpty }) :=
    of_same rfl fun msg member => List.mem_of_mem_tail ((List.dropWhile_suffix _).subset member)
  have stopped : Continues json config kind ss
      { ss with writes := ss.writes.eraseIdx i }.stop := of_same rfl fun _ member => member
  rcases Session.onWrite_cases completed with ⟨_, _, _, rfl⟩ | ⟨_, _, rfl⟩
  · simp only [Session.onWritten]
    split
    · exact (sendByeAndClose bye).mono fun _ => popped.trans
    · exact popped
  · exact stopped

end Continues

/-! ## The order of what a session writes -/

theorem Script.sent_prefix {texts : List (List Char)} (script : Script ss texts) : ss.sent <+: texts := by
  rcases script with ⟨_, rfl⟩ | ⟨_, _, _, _, rfl⟩
  · exact List.prefix_append _ _
  · exact List.prefix_append _ _

theorem Script.sent_eq {texts : List (List Char)} (script : Script ss texts) (empty : ss.outQueue = []) :
    ss.sent = texts := by
  rcases script with ⟨_, rfl⟩ | ⟨front, rest, queue, _, _⟩
  · simp [empty]
  · simp [empty] at queue

/-- One more message: it is written at once if the queue is empty. -/
theorem enqueue_young {now : Nat} {msg : QueuedMsg} (young : msg.expired now = false) :
    ss.enqueue now msg =
      if ss.outQueue = [] then { ss with outQueue := [msg] }.asyncWrite (.message msg) msg.rawmsg
      else { ss with outQueue := ss.outQueue ++ [msg] } := by
  cases queue : ss.outQueue with
  | nil => simp [Session.enqueue, queue, Session.doWrite, Session.deleteOld, young, Session.asyncWrite]
  | cons front rest => simp [Session.enqueue, queue]

theorem open_enqueue {now : Nat} {msg : QueuedMsg} (young : msg.expired now = false) :
    Open (ss.enqueue now msg) ↔ Open ss := by
  have dropped : (ss.enqueue now msg).dropped = ss.dropped := by
    rw [enqueue_young young]
    split <;> rfl
  have endpoint := Session.enqueue_toEndpoint now msg ss
  constructor
  · rintro ⟨running, staying, complete⟩
    exact ⟨by simpa using running, by simpa using staying, dropped ▸ complete⟩
  · rintro ⟨running, staying, complete⟩
    exact ⟨by simpa using running, by simpa using staying, dropped.trans complete⟩

theorem script_enqueue {texts : List (List Char)} (isOpen : Open ss) (script : Script ss texts) {now : Nat}
    {msg : QueuedMsg} (young : msg.expired now = false) :
    Script (ss.enqueue now msg) (texts ++ [msg.rawmsg]) := by
  rw [enqueue_young young]
  split
  next queue =>
    have idle : ss.writes = [] := by
      rcases script with ⟨idle, _⟩ | ⟨front, rest, full, _⟩
      · exact idle
      · simp [queue] at full
    right
    refine ⟨msg, [], rfl, ?_, ?_⟩
    · simp [Session.asyncWrite, idle, isOpen.running]
    · simp [Session.asyncWrite, isOpen.running, script.sent_eq queue]
  next waiting =>
    rcases script with ⟨idle, rfl⟩ | ⟨front, rest, full, writing, rfl⟩
    · exact .inl ⟨idle, by simp⟩
    · exact .inr ⟨front, rest ++ [msg], by simp [full], writing, by simp⟩

/-- A session that is still open after a completed write has got one message further. -/
theorem onWrite_open {now i : Nat} {ok : Bool} {outcome : Outcome Session} {after : Session}
    (completed : ss.onWrite json config now i ok = some outcome) (final : outcome.final = some after)
    (isOpen : Open after) :
    Open ss ∧ after.toEndpoint = ss.toEndpoint ∧ ∀ texts, Script ss texts → Script after texts := by
  rcases Session.onWrite_cases completed with ⟨msg, _, found, rfl⟩ | ⟨_, _, rfl⟩
  · simp only [Session.onWritten] at final
    split at final
    next closing =>
      obtain ⟨endpoint, _⟩ := (Session.sendByeAndClose_keeps json config _).of_final final
      have flag : after.closeFlag = true := (congrArg Endpoint.closeFlag endpoint).trans closing
      exact absurd isOpen.staying (by simp [flag])
    next =>
      cases final
      -- nothing has been dropped, so only the front has gone
      have young : ss.dropped ++ ss.outQueue.tail.takeWhile (·.expired now) = [] := isOpen.complete
      rw [List.append_eq_nil_iff] at young
      have remaining : ss.outQueue.tail.dropWhile (·.expired now) = ss.outQueue.tail := by
        have whole := List.takeWhile_append_dropWhile (p := (·.expired now)) (l := ss.outQueue.tail)
        rwa [young.2, List.nil_append] at whole
      refine ⟨⟨isOpen.running, isOpen.staying, young.1⟩, rfl, ?_⟩
      intro texts script
      rcases script with ⟨idle, _⟩ | ⟨front, rest, queue, writing, rfl⟩
      · simp [idle] at found
      · left
        have first : i = 0 := by
          cases i with
          | zero => rfl
          | succ i => simp [writing] at found
        subst first
        rw [queue, List.tail_cons] at remaining
        exact ⟨by simp [writing], by simp [queue, remaining]⟩
  · cases final
    exact absurd isOpen.running (by simp [Session.stop])

end Sessions

end Uzel.Verified.Protocol
