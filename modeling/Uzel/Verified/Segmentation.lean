import Uzel.Foundation.Json
import Uzel.SocketServer
import Uzel.Verified.FirstTexts

/-! # Where the input is cut does not matter

TCP keeps no boundaries, so the blocks that `async_read_some` delivers are an accident of timing.  The
framing of a stream does not depend on them (`framing_refines_reference`); here that is carried to the
server as a whole: blocks that are read one after the other leave it in the state in which one block
with all of their bytes leaves it, tables, queues and sockets included.

The handlers of the first block run while the processor of the session is still the old one, so most of
the argument is that no call of the server looks at it.
-/

namespace Uzel

open Foundation

def Sessions.setProcessor (sid : SessionId) (processor : InputProcessor) (store : Sessions) : Sessions :=
  store.set sid { store.session sid with processor }

def Server.setProcessor (sid : SessionId) (processor : InputProcessor) (server : Server) : Server :=
  server.withStore (server.store.setProcessor sid processor)

end Uzel

namespace Uzel.Verified.Segmentation

open Foundation

/-! ## The sessions -/

section Sessions

variable {json : JsonCodec} {config : UConfig} {processor : InputProcessor} {sid : SessionId}

/-- The call on a session does the same whatever the processor of the session is. -/
def Blind (call : Session → Outcome Session) : Prop :=
  ∀ (ss : Session) processor, call { ss with processor } = (call ss).map fun ss => { ss with processor }

theorem append_processor (now : Nat) (msgs : MsgQueue) (ss : Session) :
    Session.append now msgs { ss with processor } = { ss.append now msgs with processor } := by
  have write : ∀ ss : Session, Session.doWrite now { ss with processor } = { ss.doWrite now with processor } := by
    intro ss
    simp only [Session.doWrite, Session.deleteOld]
    split <;> rfl
  simp only [Session.append]
  split
  · exact write { ss with outQueue := msgs }
  · rfl

theorem blind_putOutQueue (now id : Nat) (msg : Msg) : Blind (Session.putOutQueue json now id msg) := by
  intro ss processor
  simp only [Session.putOutQueue]
  split
  · rfl
  next queued _ =>
    rw [Session.enqueue_eq_append, append_processor, Session.enqueue_eq_append]
    rfl

theorem blind_gracefullClose (reason : String) : Blind (Session.gracefullClose json config reason) := by
  intro ss processor
  simp only [Session.gracefullClose, Session.sendByeAndClose]
  split
  · rfl
  · split
    · split <;> rfl
    · rfl

theorem session_setProcessor (store : Sessions) (other : SessionId) :
    (store.setProcessor sid processor).session other =
      if other = sid then { store.session sid with processor } else store.session other := by
  simp [Sessions.setProcessor, Function.update_apply]

/-- What the processor is does not show in anything but itself. -/
theorem setProcessor_congr {α : Sort*} (f : Session → α) (same : ∀ ss : Session, f { ss with processor } = f ss)
    (store : Sessions) (other : SessionId) :
    f ((store.setProcessor sid processor).session other) = f (store.session other) := by
  rw [session_setProcessor]
  split
  next itself => rw [same, itself]
  next => rfl

theorem set_setProcessor (store : Sessions) (other : SessionId) (ss : Session) (nextMsg : Nat) :
    { (store.set other ss).setProcessor sid processor with nextMsg } =
      { (store.setProcessor sid processor).set other (if other = sid then { ss with processor } else ss) with
        nextMsg } := by
  by_cases itself : other = sid
  · subst itself
    simp [Sessions.setProcessor, Sessions.set]
  · simp [Sessions.setProcessor, Sessions.set, itself, Ne.symm itself, Function.update_comm]

/-- A blind call on any session of the process. -/
theorem call_setProcessor {call : Session → Outcome Session} (blind : Blind call) (other : SessionId)
    (store : Sessions) (nextMsg : Nat) :
    (call ((store.setProcessor sid processor).session other)).map
        (fun ss => { (store.setProcessor sid processor).set other ss with nextMsg }) =
      ((call (store.session other)).map fun ss => { store.set other ss with nextMsg }).map
        (Sessions.setProcessor sid processor) := by
  have each : ∀ ss, ({ store.set other ss with nextMsg } : Sessions).setProcessor sid processor =
      { (store.setProcessor sid processor).set other (if other = sid then { ss with processor } else ss) with
        nextMsg } := fun ss => set_setProcessor store other ss nextMsg
  rw [Outcome.map_map, session_setProcessor]
  simp only [each]
  split
  next itself => rw [blind, Outcome.map_map, itself]
  next => rfl

theorem putOutQueue_setProcessor (other : SessionId) (msg : Msg) (store : Sessions) :
    (store.setProcessor sid processor).putOutQueue json other msg =
      (store.putOutQueue json other msg).map (Sessions.setProcessor sid processor) :=
  call_setProcessor (blind_putOutQueue store.now store.nextMsg msg) other store (store.nextMsg + 1)

theorem gracefullClose_setProcessor (other : SessionId) (reason : String) (store : Sessions) :
    (store.setProcessor sid processor).gracefullClose json config other reason =
      (store.gracefullClose json config other reason).map (Sessions.setProcessor sid processor) :=
  call_setProcessor (blind_gracefullClose reason) other store store.nextMsg

theorem connectClosed_setProcessor (other : SessionId) (slot : ClosedSlot) (store : Sessions) :
    (store.setProcessor sid processor).connectClosed other slot =
      (store.connectClosed other slot).setProcessor sid processor := by
  have blind : Blind fun ss => .done { ss with closedSlots := ss.closedSlots ++ [slot] } := fun _ _ => rfl
  exact Outcome.done.inj (call_setProcessor blind other store store.nextMsg)

/-- `takeOverMessages(oq)` as a call on one session. -/
def takeOver (now : Nat) (oq : MsgQueue) (ss : Session) : Outcome Session :=
  if ∀ msg ∈ oq, msg.destType ≠ .service then .done (ss.append now oq) else .hung

theorem blind_takeOver (now : Nat) (oq : MsgQueue) : Blind (takeOver now oq) := by
  intro ss processor
  unfold takeOver
  split
  · rw [append_processor]
    rfl
  · rfl

theorem takeOverQueue_eq (other : SessionId) (oq : MsgQueue) (store : Sessions) :
    store.takeOverQueue other oq = (takeOver store.now oq (store.session other)).map (store.set other) := by
  unfold Sessions.takeOverQueue takeOver
  split
  next hangs =>
    rw [if_neg]
    · rfl
    · intro ordinary
      rw [Session.takeOverMessages_eq_some.mpr ⟨ordinary, rfl⟩] at hangs
      cases hangs
  next ss returned =>
    obtain ⟨ordinary, rfl⟩ := Session.takeOverMessages_eq_some.mp returned
    rw [if_pos ordinary]
    rfl

theorem takeOverQueue_setProcessor (other : SessionId) (oq : MsgQueue) (store : Sessions) :
    (store.setProcessor sid processor).takeOverQueue other oq =
      (store.takeOverQueue other oq).map (Sessions.setProcessor sid processor) := by
  rw [takeOverQueue_eq, takeOverQueue_eq]
  exact call_setProcessor (blind_takeOver store.now oq) other store store.nextMsg

theorem takeOverSession_setProcessor (other old : SessionId) (store : Sessions) :
    (store.setProcessor sid processor).takeOverSession other old =
      (store.takeOverSession other old).map (Sessions.setProcessor sid processor) := by
  have queue : ∀ id, ((store.setProcessor sid processor).session id).outQueue = (store.session id).outQueue :=
    setProcessor_congr (·.outQueue) (fun _ => rfl) store
  simp only [Sessions.takeOverSession, queue]
  split
  · split <;> rfl
  · rw [takeOverQueue_setProcessor, Outcome.map_map, Outcome.map_map]
    congr 1
    funext after
    have blind : Blind fun ss => .done { ss with outQueue := [] } := fun _ _ => rfl
    exact Outcome.done.inj (call_setProcessor blind old after after.nextMsg)

/-! ## The channels -/

/-- The calls of a channel on sessions with another processor. -/
abbrev onSessions (sid : SessionId) (processor : InputProcessor) (channel : Remote × Sessions) :
    Remote × Sessions := (channel.1, channel.2.setProcessor sid processor)

theorem flushHigh_setProcessor (other : SessionId) (remote : Remote) (store : Sessions) :
    remote.flushHigh other (store.setProcessor sid processor) =
      (remote.flushHigh other store).map (onSessions sid processor) := by
  simp only [Remote.flushHigh, takeOverQueue_setProcessor, Outcome.map_map]

theorem flushLow_setProcessor (other : SessionId) (remote : Remote) (store : Sessions) :
    remote.flushLow other (store.setProcessor sid processor) =
      (remote.flushLow other store).map (onSessions sid processor) := by
  simp only [Remote.flushLow, takeOverQueue_setProcessor, Outcome.map_map]

theorem addSession_setProcessor (other : SessionId) (remote : Remote) (store : Sessions) :
    remote.addSession json config other (store.setProcessor sid processor) =
      (remote.addSession json config other store).map (onSessions sid processor) := by
  have announce : ∀ (store : Sessions) role, (store.setProcessor sid processor).putOutQueue json other
      (Remote.priorityMsg config role) = (store.putOutQueue json other (Remote.priorityMsg config role)).map
        (Sessions.setProcessor sid processor) := fun store role => putOutQueue_setProcessor other _ store
  have flushes : ∀ {flush : Remote × Sessions → Outcome (Remote × Sessions)} {outcome : Outcome (Remote × Sessions)},
      (∀ channel, flush (onSessions sid processor channel) = (flush channel).map (onSessions sid processor)) →
        (outcome.andThen flush).map (onSessions sid processor) =
          (outcome.map (onSessions sid processor)).andThen flush := Outcome.map_andThen
  simp only [Remote.addSession, connectClosed_setProcessor]
  generalize store.connectClosed other (.remote remote.node) = store
  have direction := @setProcessor_congr processor sid _ (·.direction) (fun _ => rfl) store
  rw [setProcessor_congr Session.peerNode (fun _ => rfl)]
  cases (store.session other).peerNode with
  | none => rfl
  | some peer =>
    dsimp only
    split
    · rfl
    · split
      · rw [announce, Outcome.map_map, flushes (fun channel => flushHigh_setProcessor other channel.1 channel.2),
          Outcome.map_map]
      · rw [announce, Outcome.map_map, flushes (fun channel => flushLow_setProcessor other channel.1 channel.2),
          Outcome.map_map]
      · simp only [direction]
        split
        · rw [announce, Outcome.map_map, Outcome.map_map]
        · rw [gracefullClose_setProcessor, Outcome.map_map, Outcome.map_map]

theorem handlePriorityMsg_setProcessor (msg : Msg) (remote : Remote) (store : Sessions) :
    remote.handlePriorityMsg json config msg (store.setProcessor sid processor) =
      (remote.handlePriorityMsg json config msg store).map fun result =>
        (result.1, onSessions sid processor result.2) := by
  have overtakes : ∀ old, Remote.closeOvertaken json config old (store.setProcessor sid processor) =
      (Remote.closeOvertaken json config old store).map (Sessions.setProcessor sid processor) := by
    intro old
    cases old with
    | none => rfl
    | some old => exact gracefullClose_setProcessor old _ store
  unfold Remote.handlePriorityMsg
  split
  · rfl
  · dsimp only
    split
    · rfl
    · split
      · rfl
      · split
        · rw [gracefullClose_setProcessor, Outcome.map_map, Outcome.map_map]
        · rw [overtakes, Outcome.map_map, Outcome.map_map]

theorem send_setProcessor (msg : Msg) (remote : Remote) (store : Sessions) :
    remote.send json msg (store.setProcessor sid processor) =
      (remote.send json msg store).map (onSessions sid processor) := by
  have built : QueuedMsg.ofMsg json (store.setProcessor sid processor).now
      (store.setProcessor sid processor).nextMsg msg = QueuedMsg.ofMsg json store.now store.nextMsg msg := rfl
  unfold Remote.send
  rw [built]
  cases QueuedMsg.ofMsg json store.now store.nextMsg msg with
  | none => rfl
  | some queued =>
    dsimp only
    split
    · rw [putOutQueue_setProcessor, Outcome.map_map, Outcome.map_map]
    · rfl

/-! ## The server -/

theorem serverPut_setProcessor (other : SessionId) (msg : Msg) (s : Server) :
    (s.setProcessor sid processor).putOutQueue json other msg =
      (s.putOutQueue json other msg).map (Server.setProcessor sid processor) := by
  unfold Server.putOutQueue
  rw [Outcome.map_map]
  exact (congrArg _ (putOutQueue_setProcessor other msg s.store)).trans (Outcome.map_map _ _ _)

theorem sendTo_setProcessor (node : String) (msg : Msg) (s : Server) :
    (s.setProcessor sid processor).sendTo json node msg =
      (s.sendTo json node msg).map (Server.setProcessor sid processor) := by
  unfold Server.sendTo Server.onRemote
  rw [Outcome.map_map]
  exact (congrArg _ (send_setProcessor msg _ s.store)).trans (Outcome.map_map _ _ _)

/-- The state of a dispatch on a server with another processor. -/
abbrev onServer (sid : SessionId) (processor : InputProcessor) (result : Msg × Server) : Msg × Server :=
  (result.1, result.2.setProcessor sid processor)

theorem handleAny_setProcessor (msg : Msg) (s : Server) :
    Server.handleAny json msg (s.setProcessor sid processor) =
      (Server.handleAny json msg s).map (onServer sid processor) := by
  simp only [Server.handleAny, Outcome.map_map]
  rw [← Outcome.map_map (Server.setProcessor sid processor) (msg, ·)]
  congr 1
  cases msg.destType with
  | service => rfl
  | «local» =>
    have locals : (s.setProcessor sid processor).locals = s.locals := rfl
    simp only [Server.handleLocalMsg, locals]
    cases s.locals.lookup msg.dest.app with
    | none => rfl
    | some other => exact serverPut_setProcessor other msg s
  | remote => exact sendTo_setProcessor msg.dest.node msg s
  | localbroadcast =>
    exact Outcome.map_forEach (fun entry s => serverPut_setProcessor entry.2 msg s) s.locals.entries s
  | broadcast =>
    exact Outcome.map_forEach (fun node s => sendTo_setProcessor node msg s) s.nodeToSession.keys s

theorem priorityHandler_setProcessor (msg : Msg) (s : Server) :
    Server.handlePriorityMsg json config msg (s.setProcessor sid processor) =
      (Server.handlePriorityMsg json config msg s).map (onServer sid processor) := by
  unfold Server.handlePriorityMsg
  dsimp only
  have channels : (s.setProcessor sid processor).nodeToSession = s.nodeToSession := rfl
  rw [channels]
  split
  · rfl
  next remote _ =>
    rw [Outcome.map_map]
    exact (congrArg _ (handlePriorityMsg_setProcessor msg remote s.store)).trans (Outcome.map_map _ _ _)

theorem dispatchTask_setProcessor (msg : Msg) (s : Server) :
    (s.setProcessor sid processor).dispatchTask json config msg =
      (s.dispatchTask json config msg).map (Server.setProcessor sid processor) := by
  have routes : ∀ result : Msg × Server, (Server.handleAny json (onServer sid processor result).1
      (onServer sid processor result).2).attempt =
        ((Server.handleAny json result.1 result.2).attempt).map (onServer sid processor) := by
    intro result
    rw [handleAny_setProcessor, Outcome.map_attempt]
  cases named : msg.cname with
  | none =>
    rw [Server.dispatchTask_of_unnamed named, Server.dispatchTask_of_unnamed named]
    rfl
  | some cname =>
    by_cases handled : msg.toMe = true ∧ cname = "priority"
    · obtain ⟨mine, rfl⟩ := handled
      have then_ : ∀ {first : Outcome (Msg × Server)},
          (first.andThen fun result => (Server.handleAny json result.1 result.2).attempt).map (onServer sid processor) =
            (first.map (onServer sid processor)).andThen fun result =>
              (Server.handleAny json result.1 result.2).attempt := Outcome.map_andThen routes
      rw [Server.dispatchTask_of_priority named mine, Server.dispatchTask_of_priority named mine,
        priorityHandler_setProcessor, Outcome.map_attempt, ← then_, Outcome.map_map, Outcome.map_map]
    · have other : msg.toMe = false ∨ cname ≠ "priority" := by
        by_cases mine : msg.toMe = true
        · exact .inr fun same => handled ⟨mine, same⟩
        · exact .inl (by simpa using mine)
      rw [Server.dispatchTask_of_other named other, Server.dispatchTask_of_other named other]
      have routed := routes (msg, s)
      rw [routed, Outcome.map_map, Outcome.map_map]

theorem auth_setProcessor (other : SessionId) (s : Server) :
    (s.setProcessor sid processor).auth json config other =
      (s.auth json config other).map (Server.setProcessor sid processor) := by
  have locals : (s.setProcessor sid processor).locals = s.locals := rfl
  have msg1 : ((s.setProcessor sid processor).store.session other).msg1 = (s.store.session other).msg1 :=
    setProcessor_congr (·.msg1) (fun _ => rfl) s.store other
  simp only [Server.auth, msg1, locals]
  cases (s.store.session other).msg1 with
  | none => rfl
  | some first =>
    dsimp only
    split
    · cases s.locals.lookup first.from.app with
      | none => rfl
      | some old =>
        have taken : (s.setProcessor sid processor).store.takeOverSession other old =
            (s.store.takeOverSession other old).map (Sessions.setProcessor sid processor) :=
          takeOverSession_setProcessor other old s.store
        dsimp only
        rw [taken]
        cases s.store.takeOverSession other old <;> rfl
    · unfold Server.addAuthSessionToRemote Server.onRemote
      rw [Outcome.map_map]
      exact (congrArg _ (addSession_setProcessor other _ s.store)).trans (Outcome.map_map _ _ _)

/-- No message of any session is handled in another way because of the processor of a session. -/
theorem dispatchMsg_setProcessor (other : SessionId) (header : PTree) (body : Body) (s : Server) :
    (s.setProcessor sid processor).dispatchMsg json config other header body =
      (s.dispatchMsg json config other header body).map (Server.setProcessor sid processor) := by
  have known : ((s.setProcessor sid processor).store.session other).authenticated =
      (s.store.session other).authenticated := setProcessor_congr (·.authenticated) (fun _ => rfl) s.store other
  have marks : ∀ msg, (s.setProcessor sid processor).withStore ((s.setProcessor sid processor).store.set other
      { (s.setProcessor sid processor).store.session other with msg1 := some msg }) =
        (s.withStore (s.store.set other { s.store.session other with msg1 := some msg })).setProcessor sid
          processor := by
    intro msg
    have blind : Blind fun ss => .done { ss with msg1 := some msg } := fun _ _ => rfl
    exact congrArg s.withStore (Outcome.done.inj (call_setProcessor blind other s.store s.store.nextMsg))
  simp only [Server.dispatchMsg, known]
  split
  · exact dispatchTask_setProcessor _ s
  · split
    · rw [marks, auth_setProcessor]
    · rw [Outcome.map_map]
      exact (congrArg _ (gracefullClose_setProcessor other _ s.store)).trans (Outcome.map_map _ _ _)

end Sessions

/-! ## Blocks -/

section Blocks

variable {json : JsonCodec} {config : UConfig} {processor : InputProcessor} {sid : SessionId} {s : Server}

/-- The end of a read handler. -/
def settle (sid : SessionId) : ReadResult Server → Option Server
  | .accepted processor server => some (server.readAgain sid processor)
  | .rejected server => some (server.readFailed sid)
  | .raised _ => none
  | .hung => none

/-- The processor of a session that does not read any more is not used again. -/
def forget (sid : SessionId) (server : Server) : Server :=
  if (server.store.session sid).reading = .pending then server else server.setProcessor sid .fresh

/-- The blocks are read one after the other, as long as the session reads on. -/
def readBlocks (json : JsonCodec) (config : UConfig) (sid : SessionId) :
    List (List Char) → Server → Option Server
  | [], server => some server
  | block :: blocks, server =>
    (server.read json config sid block).bind fun server =>
      if (server.store.session sid).reading = .pending then readBlocks json config sid blocks server
      else some server

theorem setProcessor_self (first second : InputProcessor) (s : Server) :
    (s.setProcessor sid first).setProcessor sid second = s.setProcessor sid second := by
  simp [Server.setProcessor, Server.withStore, Sessions.setProcessor, Sessions.set]

theorem readAgain_setProcessor (first second : InputProcessor) (s : Server) :
    (s.setProcessor sid first).readAgain sid second = s.readAgain sid second := by
  simp [Server.readAgain, Server.setProcessor, Server.withStore, Sessions.setProcessor, Sessions.set,
    Session.doRead]

theorem emitClosed_setProcessor (s : Server) :
    (s.setProcessor sid processor).emitClosed sid = (s.emitClosed sid).setProcessor sid processor := by
  have slot : ∀ (s : Server) slot, (s.setProcessor sid processor).onClosed sid slot =
      (s.onClosed sid slot).setProcessor sid processor := by
    intro s slot
    have remoteIp : ((s.setProcessor sid processor).store.session sid).remoteIp =
        (s.store.session sid).remoteIp := setProcessor_congr (·.remoteIp) (fun _ => rfl) s.store sid
    cases slot with
    | registry =>
      simp only [Server.onClosed, remoteIp]
      rfl
    | host name => rfl
    | remote node =>
      have channels : (s.setProcessor sid processor).nodeToSession = s.nodeToSession := rfl
      simp only [Server.onClosed, channels]
      split <;> rfl
  have slots : ((s.setProcessor sid processor).store.session sid).closedSlots =
      (s.store.session sid).closedSlots := setProcessor_congr (·.closedSlots) (fun _ => rfl) s.store sid
  unfold Server.emitClosed
  rw [slots]
  clear slots
  generalize (s.store.session sid).closedSlots = slots
  induction slots generalizing s with
  | nil => rfl
  | cons first slots inductionHypothesis => rw [List.foldl_cons, slot, inductionHypothesis, List.foldl_cons]

theorem readFailed_setProcessor (s : Server) :
    (s.setProcessor sid processor).readFailed sid = (s.readFailed sid).setProcessor sid processor := by
  have stopped : (((s.setProcessor sid processor).setReading sid .idle).store.session sid).stopped =
      ((s.setReading sid .idle).store.session sid).stopped := by
    simp [Server.setReading, Server.setProcessor, Server.withStore, Sessions.setProcessor, Sessions.set]
  have idle : (s.setProcessor sid processor).setReading sid .idle =
      (s.setReading sid .idle).setProcessor sid processor := by
    simp [Server.setReading, Server.setProcessor, Server.withStore, Sessions.setProcessor, Sessions.set]
  rw [Server.readFailed, Server.readFailed, idle, Server.stop, Server.stop, ← idle, stopped, idle]
  split
  · rfl
  · rw [← emitClosed_setProcessor]
    simp [Server.setProcessor, Server.withStore, Sessions.setProcessor, Sessions.set, Session.stop]

theorem readFailed_idle (sid : SessionId) (s : Server) :
    ((s.readFailed sid).store.session sid).reading = .idle := by
  rw [Server.readFailed, FirstTexts.stop_same (·.reading) (fun _ => rfl)]
  simp [Server.setReading, Server.withStore]

theorem forget_readFailed (sid : SessionId) (s : Server) :
    forget sid (s.readFailed sid) = (s.readFailed sid).setProcessor sid .fresh := by
  rw [forget, if_neg]
  simp [readFailed_idle]

theorem read_eq (created : sid < s.nextSession) (pending : (s.store.session sid).reading = .pending)
    (block : List Char) : s.read json config sid block =
      settle sid (deliver (Server.dispatchMsg json config sid)
        (Server.framesOf json block (s.store.session sid).processor).1 s
        (finishScan (splitLines (s.store.session sid).processor.acculine.cmd block).2
          (Server.framesOf json block (s.store.session sid).processor).2)) := by
  rw [Server.read, if_pos ⟨created, pending⟩, processNewInput_eq_deliver]
  rfl

theorem deliver_append {σ : Type*} (dispatchMsg : PTree → Body → σ → Outcome σ)
    (first second : List (PTree × Body)) (state : σ) (finish : σ → ReadResult σ) :
    deliver dispatchMsg (first ++ second) state finish =
      deliver dispatchMsg first state fun state => deliver dispatchMsg second state finish := by
  induction first generalizing state with
  | nil => rfl
  | cons frame first inductionHypothesis =>
    obtain ⟨header, body⟩ := frame
    simp only [List.cons_append, deliver]
    cases dispatchMsg header body state with
    | done state => exact inductionHypothesis state
    | raised state => cases body <;> rfl
    | hung => rfl

/-- The messages of the second block, with the processor that the first one has left behind or with the
one before. -/
theorem settle_setProcessor (frames : List (PTree × Body)) (cmd : List Char) (waiting : Option (Option PTree))
    (s : Server) :
    (settle sid (deliver (Server.dispatchMsg json config sid) frames (s.setProcessor sid processor)
        (finishScan cmd waiting))).map (forget sid) =
      (settle sid (deliver (Server.dispatchMsg json config sid) frames s (finishScan cmd waiting))).map
        (forget sid) := by
  have fails : ∀ s : Server, forget sid ((s.setProcessor sid processor).readFailed sid) =
      forget sid (s.readFailed sid) := by
    intro s
    rw [forget_readFailed, forget_readFailed, readFailed_setProcessor, setProcessor_self]
  induction frames generalizing s with
  | nil =>
    cases waiting with
    | none => exact congrArg some (fails s)
    | some header => exact congrArg (fun t => some (forget sid t)) (readAgain_setProcessor processor _ s)
  | cons frame frames inductionHypothesis =>
    obtain ⟨header, body⟩ := frame
    simp only [deliver, dispatchMsg_setProcessor]
    cases Server.dispatchMsg json config sid header body s with
    | done t => exact inductionHypothesis t
    | raised t =>
      cases body with
      | tree tree => exact congrArg some (fails t)
      | raw bytes => rfl
    | hung => rfl

/-- The session exists and reads, and its socket is open. -/
structure Reading (sid : SessionId) (s : Server) : Prop where
  created : sid < s.nextSession
  pending : (s.store.session sid).reading = .pending
  running : (s.store.session sid).stopped = false

/-- No message closes the socket that it comes from, not even one that fails to authenticate the session. -/
theorem Reading.dispatchMsg (lawful : json.Lawful) (reading : Reading sid s) (other : SessionId) (header : PTree)
    (body : Body) : (s.dispatchMsg json config other header body).All (Reading sid) := by
  have carried : Session.Carried fun ss after => after.reading = ss.reading ∧ after.stopped = ss.stopped :=
    .of_endpoint (fun first second => ⟨second.1.trans first.1, second.2.trans first.2⟩)
      (fun same => ⟨congrArg Endpoint.reading same, congrArg Endpoint.stopped same⟩) (fun _ _ => ⟨rfl, rfl⟩)
      fun _ _ => ⟨rfl, rfl⟩
  apply (Server.dispatchMsg_carries carried (fun _ _ _ => ⟨rfl, rfl⟩) lawful other header body s).mono
  rintro t ⟨next, carries⟩
  exact ⟨next ▸ reading.created, (carries sid).1.trans reading.pending, (carries sid).2.trans reading.running⟩

theorem Reading.readAgain (reading : Reading sid s) (processor : InputProcessor) :
    s.readAgain sid processor = s.setProcessor sid processor := by
  have same : { s.store.session sid with processor }.doRead = { s.store.session sid with processor } := by
    rw [Session.doRead, if_neg (by simp [reading.running]), ← reading.pending]
  rw [Server.readAgain, same]
  rfl

theorem Reading.setProcessor (reading : Reading sid s) (processor : InputProcessor) :
    Reading sid (s.setProcessor sid processor) :=
  ⟨reading.created,
    (setProcessor_congr (·.reading) (fun _ => rfl) s.store sid).trans reading.pending,
    (setProcessor_congr (·.stopped) (fun _ => rfl) s.store sid).trans reading.running⟩

theorem framesOf_append {first : List Char} {before : InputProcessor} {heard : List (PTree × Body)}
    {header : Option PTree} (read : Server.framesOf json first before = (heard, some header)) (second : List Char) :
    Server.framesOf json (first ++ second) before =
      (heard ++ (Server.framesOf json second ⟨⟨(splitLines before.acculine.cmd first).2, []⟩, header⟩).1,
        (Server.framesOf json second ⟨⟨(splitLines before.acculine.cmd first).2, []⟩, header⟩).2) := by
  rw [Server.framesOf] at read
  rw [Server.framesOf, splitLines_append, scan_append, read]
  rfl

theorem framesOf_refused {first : List Char} {before : InputProcessor} {heard : List (PTree × Body)}
    (read : Server.framesOf json first before = (heard, none)) (second : List Char) :
    Server.framesOf json (first ++ second) before = (heard, none) := by
  rw [Server.framesOf] at read
  rw [Server.framesOf, splitLines_append, scan_append, read]

/-- One block with the bytes of two. -/
theorem read_append (lawful : json.Lawful) (reading : Reading sid s) (first second : List Char) :
    (s.read json config sid (first ++ second)).map (forget sid) =
      ((s.read json config sid first).bind fun t =>
        if (t.store.session sid).reading = .pending then t.read json config sid second else some t).map
          (forget sid) := by
  rw [read_eq reading.created reading.pending, read_eq reading.created reading.pending, splitLines_append]
  generalize (s.store.session sid).processor = before
  have ends := fun heard => @deliver_keeps _ (Server.dispatchMsg json config sid) (Reading sid) heard s reading
    fun frame _ t reading => reading.dispatchMsg lawful sid frame.1 frame.2
  have failed : ∀ t : Server, (if ((t.readFailed sid).store.session sid).reading = .pending then
      (t.readFailed sid).read json config sid second else some (t.readFailed sid)) = some (t.readFailed sid) := by
    intro t
    rw [if_neg (by simp [readFailed_idle])]
  rcases read : Server.framesOf json first before with ⟨heard, waiting⟩
  cases waiting with
  | none =>
    -- the first block is refused, and nothing that comes behind it is read
    rw [framesOf_refused read]
    rcases ends heard with ⟨t, _, ends⟩ | ⟨t, _, ends⟩ | ⟨t, ends⟩ | ends
    · simp only [ends, finishScan, settle, Option.bind_some, failed]
    · simp only [ends, settle, Option.bind_some, failed]
    · simp only [ends, settle, Option.bind_none]
    · simp only [ends, settle, Option.bind_none]
  | some header =>
    rw [framesOf_append read, deliver_append]
    rcases ends heard with ⟨t, reading, ends⟩ | ⟨t, _, ends⟩ | ⟨t, ends⟩ | ends
    · -- the messages of the second block come to a server whose session has got another processor
      generalize (splitLines before.acculine.cmd first).2 = cmd
      have later := reading.setProcessor ⟨⟨cmd, []⟩, header⟩
      have isProcessor : ((t.setProcessor sid ⟨⟨cmd, []⟩, header⟩).store.session sid).processor =
          ⟨⟨cmd, []⟩, header⟩ := by
        simp [Server.setProcessor, Server.withStore, Sessions.setProcessor]
      have done : settle sid (finishScan cmd (some header) t) =
          some (t.setProcessor sid ⟨⟨cmd, []⟩, header⟩) := congrArg some (reading.readAgain _)
      rw [ends, ends, done, Option.bind_some, if_pos later.pending, read_eq later.created later.pending,
        isProcessor]
      exact (settle_setProcessor _ _ _ t).symm
    · simp only [ends, settle, Option.bind_some, failed]
    · simp only [ends, settle, Option.bind_none]
    · simp only [ends, settle, Option.bind_none]

/-- A read handler leaves a session that it reads on with running. -/
theorem Reading.read (lawful : json.Lawful) (reading : Reading sid s) {block : List Char} {t : Server}
    (returned : s.read json config sid block = some t)
    (pending : (t.store.session sid).reading = .pending) : Reading sid t := by
  obtain ⟨u, reading, rfl | ⟨header, _, rfl⟩⟩ := Server.read_keeps reading
    (fun frame _ u reading => reading.dispatchMsg lawful sid frame.1 frame.2) returned
  · rw [readFailed_idle] at pending
    cases pending
  · rw [reading.readAgain]
    exact reading.setProcessor _

/-- Wherever the bytes that a session reads are cut into blocks, empty ones included, the server ends in
the same state, and with the same verdict, as after a single block; if a handler raises or does not
return, it does so in both cases. -/
theorem segmentation (lawful : json.Lawful) (reading : Reading sid s) (block : List Char)
    (blocks : List (List Char)) :
    (readBlocks json config sid (block :: blocks) s).map (forget sid) =
      (s.read json config sid (block :: blocks).flatten).map (forget sid) := by
  induction blocks generalizing block s with
  | nil =>
    rw [List.flatten_singleton, readBlocks]
    cases s.read json config sid block with
    | none => rfl
    | some t => simp [readBlocks]
  | cons next blocks inductionHypothesis =>
    rw [readBlocks, List.flatten_cons, read_append lawful reading]
    cases returned : s.read json config sid block with
    | none => rfl
    | some t =>
      simp only [Option.bind_some]
      split
      next pending => exact inductionHypothesis (reading.read lawful returned pending) next
      next => rfl

end Blocks

/-- The introduction of the userver of `alpha` to that of `beta`, in three blocks. -/
theorem segmentation_auth : ∃ auth s,
    (Session.authMsg ⟨"alpha", "userver"⟩ 3).charvec Json.compactJson = some auth ∧
      Server.step Json.compactJson ⟨"beta", "userver"⟩ 1 (.initial ⟨"beta", "userver"⟩ 0 []) (.accept "10.0.0.7") =
        some s ∧
      (readBlocks Json.compactJson ⟨"beta", "userver"⟩ 0 [auth.take 9, [], auth.drop 9] s).map (forget 0) =
        (s.read Json.compactJson ⟨"beta", "userver"⟩ 0 [auth.take 9, [], auth.drop 9].flatten).map (forget 0) := by
  refine ⟨_, _, rfl, rfl, segmentation Json.compactJson_lawful ⟨?_, rfl, rfl⟩ _ _⟩
  exact Nat.one_pos

end Uzel.Verified.Segmentation
