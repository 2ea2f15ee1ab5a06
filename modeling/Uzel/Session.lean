import Uzel.InputProcessor
import Mathlib.Data.List.TakeWhile
import Mathlib.Logic.Function.Basic
import Mathlib.Tactic.ByContra

/-! # Sessions (`session.h`, `session.cpp`)

A session is one TCP connection with its queue of outgoing messages.  Its asynchronous operations
are part of its state: `reading` is the outstanding `async_read_some`, `connecting` the outstanding
`async_connect`, and `writes` holds every `async_write` that has been started and whose completion
handler has not run yet.

Some fields record history for the statements about the program and are not in the source: the
identity of a queued message, the texts handed to the socket (`sent`), the messages dropped for
their age (`dropped`), and whether undefined behaviour has been executed.
-/

namespace Uzel

open Foundation

/-- `MessageTTL_sec`, in ticks of the steady clock (nanoseconds). -/
def messageTTL : Nat := 60 * 1000000000

structure QueuedMsg where
  rawmsg : List Char
  destType : DestType
  enqueueTime : Nat
  /-- the constructor call that made the object; it stays when the object moves to another queue -/
  id : Nat
deriving DecidableEq, Repr

abbrev MsgQueue := List QueuedMsg

namespace QueuedMsg

/-- The constructor; it raises when the message cannot be encoded. -/
def ofMsg (json : JsonCodec) (now id : Nat) (msg : Msg) : Option QueuedMsg :=
  (msg.charvec json).map fun rawmsg => ⟨rawmsg, msg.destType, now, id⟩

def expired (now : Nat) (msg : QueuedMsg) : Bool := messageTTL < now - msg.enqueueTime

theorem ofMsg_eq {json : JsonCodec} {now id : Nat} {msg : Msg} {queued : QueuedMsg}
    (built : ofMsg json now id msg = some queued) :
    msg.charvec json = some queued.rawmsg ∧ queued.id = id ∧ queued.expired now = false := by
  obtain ⟨rawmsg, encoded, rfl⟩ := Option.map_eq_some_iff.mp built
  exact ⟨encoded, rfl, by simp [expired]⟩

theorem expired_mono {now later : Nat} (le : now ≤ later) {msg : QueuedMsg}
    (expired : msg.expired now = true) : msg.expired later = true := by
  simp only [QueuedMsg.expired, decide_eq_true_eq] at expired ⊢
  omega

end QueuedMsg

inductive Direction where
  | incoming | outgoing
deriving DecidableEq, Repr

/-- An outstanding `async_write`, with whether the socket was open when it was started; on a closed
socket it can only complete with an error. -/
inductive Write where
  | message (msg : QueuedMsg) (live : Bool)
  | bye (live : Bool)
deriving DecidableEq, Repr

/-- The read operation: none, one that may complete with data, or one started on a closed socket. -/
inductive ReadOp where
  | idle | pending | doomed
deriving DecidableEq, Repr

/-- The slots that are connected to the signal `s_closed` of a session. -/
inductive ClosedSlot where
  | registry
  | host (name : String)
  | remote (node : String)
deriving DecidableEq, Repr

/-- The part of a session that the operations on its outgoing queue leave alone. -/
structure Endpoint where
  direction : Direction
  remoteIp : String
  processor : InputProcessor
  msg1 : Option Msg
  closeFlag : Bool
  stopped : Bool
  reason : String
  closedSlots : List ClosedSlot
  reading : ReadOp
  connecting : Bool

structure Session extends Endpoint where
  outQueue : MsgQueue
  writes : List Write
  sent : List (List Char)
  dropped : List QueuedMsg
  undefinedBehaviour : Bool

namespace Session

def new (direction : Direction) (remoteIp : String) : Session where
  direction := direction
  remoteIp := remoteIp
  processor := .fresh
  msg1 := none
  closeFlag := false
  stopped := false
  reason := ""
  closedSlots := []
  reading := .idle
  connecting := false
  outQueue := []
  writes := []
  sent := []
  dropped := []
  undefinedBehaviour := false

def authenticated (ss : Session) : Bool := ss.msg1.isSome

/-- `peerNode()` raises on a session that is not authenticated. -/
def peerNode (ss : Session) : Option String := ss.msg1.map (·.from.node)

def peerApp (ss : Session) : Option String := ss.msg1.map (·.from.app)

/-! ## The outgoing queue -/

/-- Messages are dropped from the front up to the first one that is young enough.  The warning about
dropped messages dereferences `m_msg1`. -/
def deleteOld (now : Nat) (ss : Session) : Session :=
  let gone := ss.outQueue.takeWhile (·.expired now)
  { ss with
    outQueue := ss.outQueue.dropWhile (·.expired now)
    dropped := ss.dropped ++ gone
    undefinedBehaviour := ss.undefinedBehaviour || (!gone.isEmpty && ss.msg1.isNone) }

def asyncWrite (write : Bool → Write) (text : List Char) (ss : Session) : Session :=
  { ss with
    writes := ss.writes ++ [write !ss.stopped]
    sent := if ss.stopped then ss.sent else ss.sent ++ [text] }

def doWrite (now : Nat) (ss : Session) : Session :=
  let ss := ss.deleteOld now
  match ss.outQueue with
  | [] => ss
  | front :: _ => ss.asyncWrite (.message front) front.rawmsg

/-- `putOutQueue` once the queued message is built. -/
def enqueue (now : Nat) (msg : QueuedMsg) (ss : Session) : Session :=
  let wasEmpty := ss.outQueue.isEmpty
  let ss := { ss with outQueue := ss.outQueue ++ [msg] }
  if wasEmpty then ss.doWrite now else ss

def putOutQueue (json : JsonCodec) (now id : Nat) (msg : Msg) (ss : Session) : Outcome Session :=
  match QueuedMsg.ofMsg json now id msg with
  | none => .raised ss
  | some queued => .done (ss.enqueue now queued)

/-- The loop of `takeOverMessages`, for at most `turns` turns.  A service message at the front stays
there: the `continue` skips the `pop_front`. -/
def takeOverLoop : Nat → MsgQueue → MsgQueue → Option MsgQueue
  | _, [], outQueue => some outQueue
  | 0, _ :: _, _ => none
  | turns + 1, front :: oq, outQueue =>
    -- `continue` without a `pop_front`: the same message is at the front again
    if front.destType = .service then takeOverLoop turns (front :: oq) outQueue
    else takeOverLoop turns oq (outQueue ++ [front])

/-- `takeOverMessages(oq)`, which leaves `oq` empty; `none` if the loop does not end. -/
def takeOverMessages (now : Nat) (oq : MsgQueue) (ss : Session) : Option Session :=
  (takeOverLoop oq.length oq ss.outQueue).map fun outQueue =>
    let wasEmpty := ss.outQueue.isEmpty
    let ss := { ss with outQueue }
    if !oq.isEmpty && wasEmpty then ss.doWrite now else ss

/-! ## Start and end of a session -/

def doRead (ss : Session) : Session :=
  { ss with reading := if ss.stopped then .doomed else .pending }

def authMsg (config : UConfig) (pid : Nat) : Msg :=
  .outgoing config .none "auth" (PTree.empty.add "pid" (toString pid))

def byeMsg (config : UConfig) (reason : String) : Msg :=
  .outgoing config .none "bye" (PTree.empty.add "bye" reason)

def start (json : JsonCodec) (config : UConfig) (pid now id : Nat) (ss : Session) : Outcome Session :=
  (ss.putOutQueue json now id (authMsg config pid)).andThen fun ss => .done ss.doRead

def startConnection (ss : Session) : Session := { ss with connecting := true }

def sendByeAndClose (json : JsonCodec) (config : UConfig) (ss : Session) : Outcome Session :=
  match (byeMsg config ss.reason).moveToStr json with
  | none => .raised ss
  | some text => .done (ss.asyncWrite .bye text)

def gracefullClose (json : JsonCodec) (config : UConfig) (reason : String) (ss : Session) :
    Outcome Session :=
  if ss.closeFlag then .done ss
  else
    let ss := { ss with reason, closeFlag := true }
    -- a queue that is not empty leaves the bye to the completion of a write
    if ss.outQueue.isEmpty then ss.sendByeAndClose json config else .done ss

/-- `stop()`, the emission of `s_closed` apart; that happens when `stopped` was not set before. -/
def stop (ss : Session) : Session := { ss with stopped := true, closeFlag := true }

/-- The completion handler of `do_write` without error.  `front()` and `pop_front()` are undefined on
an empty queue. -/
def onWritten (json : JsonCodec) (config : UConfig) (now : Nat) (ss : Session) : Outcome Session :=
  let ss := { ss with
    outQueue := ss.outQueue.tail
    undefinedBehaviour := ss.undefinedBehaviour || ss.outQueue.isEmpty }
  let ss := ss.deleteOld now
  -- both branches return here, the `do_write()` behind them is never reached
  if ss.closeFlag then ss.sendByeAndClose json config else .done ss

/-- The completion of the outstanding write number `i`, with or without an error. -/
def onWrite (json : JsonCodec) (config : UConfig) (now i : Nat) (ok : Bool) (ss : Session) :
    Option (Outcome Session) :=
  match ss.writes[i]? with
  | none => none
  | some (.message _ live) =>
    let ss := { ss with writes := ss.writes.eraseIdx i }
    if ok then (if live then some (ss.onWritten json config now) else none) else some (.done ss.stop)
  | some (.bye live) =>
    let ss := { ss with writes := ss.writes.eraseIdx i }
    -- the bye ends the session whether it has been written or not
    if ok && !live then none else some (.done ss.stop)

/-- The check of the first message of a connection. -/
def authenticate (config : UConfig) (msg : Msg) : Bool :=
  let app := msg.from.app
  let node := msg.from.node
  if app = "" ∨ node = "" then false
  else
    let isLocal := config.isLocalNode node
    if config.appName = "userver" then
      -- its own applications, and the userver of another node
      if isLocal then app != "userver" else app == "userver"
    else isLocal && app == "userver"

/-! ## What the operations on the queue do -/

@[simp] theorem deleteOld_toEndpoint (now : Nat) (ss : Session) :
    (ss.deleteOld now).toEndpoint = ss.toEndpoint := rfl
@[simp] theorem deleteOld_outQueue (now : Nat) (ss : Session) :
    (ss.deleteOld now).outQueue = ss.outQueue.dropWhile (·.expired now) := rfl
@[simp] theorem deleteOld_writes (now : Nat) (ss : Session) : (ss.deleteOld now).writes = ss.writes :=
  rfl
@[simp] theorem deleteOld_sent (now : Nat) (ss : Session) : (ss.deleteOld now).sent = ss.sent := rfl
@[simp] theorem asyncWrite_toEndpoint (write : Bool → Write) (text : List Char) (ss : Session) :
    (ss.asyncWrite write text).toEndpoint = ss.toEndpoint := rfl
@[simp] theorem asyncWrite_outQueue (write : Bool → Write) (text : List Char) (ss : Session) :
    (ss.asyncWrite write text).outQueue = ss.outQueue := rfl
@[simp] theorem asyncWrite_writes (write : Bool → Write) (text : List Char) (ss : Session) :
    (ss.asyncWrite write text).writes = ss.writes ++ [write !ss.stopped] := rfl

/-- `do_write` drops the expired messages at the front and starts a write of the next one, if there
is one. -/
theorem doWrite_cases (now : Nat) (ss : Session) :
    (ss.outQueue.dropWhile (·.expired now) = [] ∧ ss.doWrite now = ss.deleteOld now) ∨
      ∃ front rest, ss.outQueue.dropWhile (·.expired now) = front :: rest ∧
        ss.doWrite now = (ss.deleteOld now).asyncWrite (.message front) front.rawmsg := by
  cases remaining : ss.outQueue.dropWhile (·.expired now) with
  | nil => exact .inl ⟨rfl, by simp [doWrite, remaining]⟩
  | cons front rest => exact .inr ⟨front, rest, rfl, by simp [doWrite, remaining]⟩

@[simp] theorem doWrite_toEndpoint (now : Nat) (ss : Session) :
    (ss.doWrite now).toEndpoint = ss.toEndpoint := by
  rcases doWrite_cases now ss with ⟨_, same⟩ | ⟨front, rest, _, same⟩ <;> rw [same] <;> rfl

@[simp] theorem doWrite_outQueue (now : Nat) (ss : Session) :
    (ss.doWrite now).outQueue = ss.outQueue.dropWhile (·.expired now) := by
  rcases doWrite_cases now ss with ⟨_, same⟩ | ⟨front, rest, _, same⟩ <;> rw [same] <;> rfl

/-- Both `putOutQueue` and a takeover append messages, and start a write if the queue was empty. -/
def append (now : Nat) (msgs : MsgQueue) (ss : Session) : Session :=
  if msgs ≠ [] ∧ ss.outQueue = [] then { ss with outQueue := msgs }.doWrite now
  else { ss with outQueue := ss.outQueue ++ msgs }

/-- Every way in which messages are appended: behind others, to an empty queue when all of them are too
old to be sent, and to an empty queue when the first of the others is sent at once. -/
inductive Appends (now : Nat) (msgs : MsgQueue) (ss after : Session) : Prop
  | behind (waiting : msgs ≠ [] → ss.outQueue ≠ []) (same : after = { ss with outQueue := ss.outQueue ++ msgs })
  | expired (empty : ss.outQueue = []) (old : ∀ msg ∈ msgs, msg.expired now = true)
      (queue : after.outQueue = []) (writes : after.writes = ss.writes)
  | started {front : QueuedMsg} {rest : MsgQueue} (empty : ss.outQueue = [])
      (young : ∃ msg ∈ msgs, msg.expired now = false) (queue : after.outQueue = front :: rest)
      (writes : after.writes = ss.writes ++ [.message front !ss.stopped])

theorem appends_append (now : Nat) (msgs : MsgQueue) (ss : Session) :
    Appends now msgs ss (ss.append now msgs) := by
  by_cases begins : msgs ≠ [] ∧ ss.outQueue = []
  · have begun : ss.append now msgs = { ss with outQueue := msgs }.doWrite now := by
      rw [append, if_pos begins]
    have queue : (ss.append now msgs).outQueue = msgs.dropWhile (·.expired now) := by
      rw [begun, doWrite_outQueue]
    rcases doWrite_cases now { ss with outQueue := msgs } with ⟨nothing, same⟩ | ⟨front, rest, found, same⟩
    · refine .expired begins.2 (List.dropWhile_eq_nil_iff.mp nothing) (queue.trans nothing) ?_
      rw [begun, same]
      rfl
    · have young : ∃ msg ∈ msgs, msg.expired now = false := by
        by_contra allOld
        have old : ∀ msg ∈ msgs, msg.expired now = true := fun msg member =>
          Bool.of_not_eq_false fun young => allOld ⟨msg, member, young⟩
        rw [List.dropWhile_eq_nil_iff.mpr old] at found
        cases found
      refine .started begins.2 young (queue.trans found) ?_
      rw [begun, same]
      rfl
  · refine .behind (fun some_ empty => begins ⟨some_, empty⟩) ?_
    rw [append, if_neg begins]

@[simp] theorem append_nil (now : Nat) (ss : Session) : ss.append now [] = ss := by
  simp [append]

@[simp] theorem append_toEndpoint (now : Nat) (msgs : MsgQueue) (ss : Session) :
    (ss.append now msgs).toEndpoint = ss.toEndpoint := by
  unfold append
  split
  · simp
  · rfl

theorem enqueue_eq_append (now : Nat) (msg : QueuedMsg) (ss : Session) :
    ss.enqueue now msg = ss.append now [msg] := by
  cases queue : ss.outQueue with
  | nil => simp [enqueue, append, queue]
  | cons front rest => simp [enqueue, append, queue]

@[simp] theorem enqueue_toEndpoint (now : Nat) (msg : QueuedMsg) (ss : Session) :
    (ss.enqueue now msg).toEndpoint = ss.toEndpoint := by
  rw [enqueue_eq_append, append_toEndpoint]

/-- With a service message at the front the loop never ends, however many turns it is given. -/
theorem takeOverLoop_service {front : QueuedMsg} (service : front.destType = .service) (turns : Nat)
    (oq outQueue : MsgQueue) : takeOverLoop turns (front :: oq) outQueue = none := by
  induction turns with
  | zero => rfl
  | succ turns inductionHypothesis => simp [takeOverLoop, service, inductionHypothesis]

theorem takeOverLoop_eq_some {oq outQueue result : MsgQueue} :
    takeOverLoop oq.length oq outQueue = some result ↔
      (∀ msg ∈ oq, msg.destType ≠ .service) ∧ result = outQueue ++ oq := by
  induction oq generalizing outQueue with
  | nil => simp [takeOverLoop, eq_comm]
  | cons front oq inductionHypothesis =>
    by_cases service : front.destType = .service
    · simp [takeOverLoop_service service, service]
    · simp [takeOverLoop, service, inductionHypothesis]

/-- A takeover returns when the queue holds no service message. -/
theorem takeOverMessages_eq_some {now : Nat} {oq : MsgQueue} {ss result : Session} :
    ss.takeOverMessages now oq = some result ↔
      (∀ msg ∈ oq, msg.destType ≠ .service) ∧ result = ss.append now oq := by
  have appended : (if (!oq.isEmpty && ss.outQueue.isEmpty) = true
      then { ss with outQueue := ss.outQueue ++ oq }.doWrite now
      else { ss with outQueue := ss.outQueue ++ oq }) = ss.append now oq := by
    by_cases started : oq ≠ [] ∧ ss.outQueue = []
    · simp [append, started]
    · rw [append, if_neg started, if_neg (by simpa using started)]
  simp only [takeOverMessages, Option.map_eq_some_iff, takeOverLoop_eq_some]
  constructor
  · rintro ⟨outQueue, ⟨ordinary, rfl⟩, rfl⟩
    exact ⟨ordinary, appended⟩
  · rintro ⟨ordinary, rfl⟩
    exact ⟨ss.outQueue ++ oq, ⟨ordinary, rfl⟩, appended⟩

theorem takeOverMessages_toEndpoint {now : Nat} {oq : MsgQueue} {ss result : Session}
    (returned : ss.takeOverMessages now oq = some result) : result.toEndpoint = ss.toEndpoint := by
  rw [(takeOverMessages_eq_some.mp returned).2, append_toEndpoint]

theorem gracefullClose_keeps (json : JsonCodec) (config : UConfig) (reason : String) (ss : Session) :
    (ss.gracefullClose json config reason).All fun after =>
      after.msg1 = ss.msg1 ∧ after.stopped = ss.stopped ∧ after.outQueue = ss.outQueue := by
  simp only [gracefullClose, sendByeAndClose]
  split
  · exact ⟨rfl, rfl, rfl⟩
  · split
    · split <;> exact ⟨rfl, rfl, rfl⟩
    · exact ⟨rfl, rfl, rfl⟩

theorem sendByeAndClose_keeps (json : JsonCodec) (config : UConfig) (ss : Session) :
    (ss.sendByeAndClose json config).All fun after =>
      after.toEndpoint = ss.toEndpoint ∧ after.outQueue = ss.outQueue := by
  unfold sendByeAndClose
  split <;> exact ⟨rfl, rfl⟩

theorem onWritten_keeps (json : JsonCodec) (config : UConfig) (now : Nat) (ss : Session) :
    (ss.onWritten json config now).All fun after => after.toEndpoint = ss.toEndpoint ∧
      after.outQueue = ss.outQueue.tail.dropWhile (·.expired now) := by
  simp only [onWritten]
  split
  · exact sendByeAndClose_keeps json config _
  · exact ⟨rfl, rfl⟩

/-- The completion of a write runs the handler of a message that has been written, or it stops the
session. -/
theorem onWrite_cases {json : JsonCodec} {config : UConfig} {now i : Nat} {ok : Bool} {ss : Session}
    {outcome : Outcome Session} (completed : ss.onWrite json config now i ok = some outcome) :
    (∃ msg, ok = true ∧ ss.writes[i]? = some (.message msg true) ∧
        outcome = { ss with writes := ss.writes.eraseIdx i }.onWritten json config now) ∨
      ((∀ msg live, ok = true → ss.writes[i]? ≠ some (.message msg live)) ∧ i < ss.writes.length ∧
        outcome = .done { ss with writes := ss.writes.eraseIdx i }.stop) := by
  unfold onWrite at completed
  cases found : ss.writes[i]? with
  | none => simp [found] at completed
  | some write =>
    have bound := (List.getElem?_eq_some_iff.mp found).1
    simp only [found] at completed
    cases write with
    | bye live =>
      right
      dsimp only at completed
      split at completed
      · cases completed
      · cases completed
        exact ⟨by simp, bound, rfl⟩
    | message msg live =>
      dsimp only at completed
      split at completed
      next succeeded =>
        -- on a closed socket a write does not succeed
        split at completed
        next isLive =>
          cases completed
          exact .inl ⟨msg, succeeded, by rw [isLive], rfl⟩
        next => cases completed
      next failed =>
        right
        cases completed
        exact ⟨fun _ _ succeeded => absurd succeeded failed, bound, rfl⟩

/-- What the check of the first message lets through at a userver: other applications of its own node
and the userver of another node. -/
theorem authenticate_userver {nodeName : String} {msg : Msg} :
    authenticate ⟨nodeName, "userver"⟩ msg = true ↔
      msg.from.app ≠ "" ∧ msg.from.node ≠ "" ∧
        (msg.from.node = nodeName ↔ msg.from.app ≠ "userver") := by
  simp only [authenticate, UConfig.isLocalNode]
  by_cases app : msg.from.app = ""
  · simp [app]
  · by_cases node : msg.from.node = ""
    · simp [node]
    · by_cases isLocal : msg.from.node = nodeName <;> simp [app, node, isLocal]

end Session

/-! ## Messages of the protocol -/

section Service

variable {json : JsonCodec} (config : UConfig) (cname key value : String)

/-- The header of the messages that the peers of a connection exchange. -/
def serviceHeader : PTree :=
  .node "" [("from", .node "" [("n", .leaf config.nodeName), ("a", .leaf config.appName)]),
    ("cname", .leaf cname)]

theorem outgoing_service (body : PTree) : Msg.outgoing config .none cname body =
    ⟨serviceHeader config cname, .tree body, .service, .none, ⟨config.appName, config.nodeName⟩, true,
      none⟩ := rfl

theorem serviceHeader_writable : (serviceHeader config cname).Writable := by
  simp [serviceHeader, PTree.Writable, PTree.exclusive, PTree.exclusiveChildren, PTree.exclusiveChild,
    PTree.leaf]

theorem serviceBody_writable : (PTree.empty.add key value).Writable := by
  simp [PTree.empty, PTree.add, PTree.Writable, PTree.exclusive, PTree.exclusiveChildren,
    PTree.exclusiveChild, PTree.leaf]

theorem embeddedBody_writable :
    ((serviceHeader config cname).putChild "body" (PTree.empty.add key value)).Writable := by
  have put : (serviceHeader config cname).putChild "body" (PTree.empty.add key value) =
      .node "" [("from", .node "" [("n", .leaf config.nodeName), ("a", .leaf config.appName)]),
        ("cname", .leaf cname), ("body", .node "" [(key, .leaf value)])] := rfl
  rw [put]
  simp [PTree.Writable, PTree.exclusive, PTree.exclusiveChildren, PTree.exclusiveChild, PTree.leaf]

theorem str_service (lawful : json.Lawful) :
    ∃ text, (Msg.outgoing config .none cname (PTree.empty.add key value)).str json = some text := by
  obtain ⟨header, headerWritten, -⟩ := lawful.inverts _ (serviceHeader_writable config cname)
  obtain ⟨body, bodyWritten, -⟩ := lawful.inverts _ (serviceBody_writable key value)
  refine ⟨header ++ ['\n'] ++ (body ++ ['\n']), ?_⟩
  simp [outgoing_service, Msg.str, headerWritten, bodyWritten]

/-- Messages of the protocol can always be queued. -/
theorem ofMsg_service (lawful : json.Lawful) (now id : Nat) :
    ∃ queued, QueuedMsg.ofMsg json now id (.outgoing config .none cname (PTree.empty.add key value)) =
      some queued ∧ queued.destType = .service ∧ queued.enqueueTime = now := by
  obtain ⟨text, encoded⟩ := str_service config cname key value lawful
  refine ⟨⟨text, .service, now, id⟩, ?_, rfl, rfl⟩
  rw [QueuedMsg.ofMsg, Msg.charvec, encoded]
  rfl

theorem sendByeAndClose_eq (lawful : json.Lawful) (ss : Session) :
    ∃ text, ss.sendByeAndClose json config = .done (ss.asyncWrite .bye text) := by
  obtain ⟨line, written, -⟩ := lawful.inverts _ (embeddedBody_writable config "bye" "bye" ss.reason)
  refine ⟨line ++ ['\n'], ?_⟩
  simp [Session.sendByeAndClose, Session.byeMsg, outgoing_service, Msg.moveToStr, Msg.embedBody, written]

end Service

/-! ## One session on its own -/

structure SessionState where
  now : Nat
  /-- the identity that the next queued message gets -/
  nextMsg : Nat
  session : Session

/-- What can happen to a session: the clock advances, one of its functions is called, or one of its
writes completes. -/
inductive SessionEvent where
  | tick (elapsed : Nat)
  | start
  | authenticate (msg : Msg)
  | putOutQueue (msg : Msg)
  | takeOverMessages (oq : MsgQueue)
  | written (i : Nat) (ok : Bool)
  | gracefullClose (reason : String)

namespace SessionState

def initial (direction : Direction) (remoteIp : String) : SessionState := ⟨0, 0, .new direction remoteIp⟩

def after (s : SessionState) (outcome : Outcome Session) : Option SessionState :=
  outcome.final.map fun session => { s with session, nextMsg := s.nextMsg + 1 }

/-- An exception goes to the caller and leaves the session as it is at that point. -/
def step (json : JsonCodec) (config : UConfig) (pid : Nat) (s : SessionState) :
    SessionEvent → Option SessionState
  | .tick elapsed => some { s with now := s.now + elapsed }
  | .start => s.after (s.session.start json config pid s.now s.nextMsg)
  | .authenticate msg =>
    if !s.session.authenticated && Session.authenticate config msg then
      some { s with session := { s.session with msg1 := some msg } }
    else none
  | .putOutQueue msg => s.after (s.session.putOutQueue json s.now s.nextMsg msg)
  | .takeOverMessages oq =>
    (s.session.takeOverMessages s.now oq).map fun session => { s with session }
  | .written i ok => (s.session.onWrite json config s.now i ok).bind s.after
  | .gracefullClose reason => s.after (s.session.gracefullClose json config reason)

end SessionState

end Uzel
