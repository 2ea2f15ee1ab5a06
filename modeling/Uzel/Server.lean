import Mathlib.Data.List.AList
import Uzel.Dispatcher
import Uzel.OutgoingManager
import Uzel.Remote

/-! # The server (`netserver.h`, `netserver.cpp`)

`NetServer` owns the registry of sessions by address, the sessions of local applications and the
channels to remote nodes.  Its events are the completions that its `io_context` runs: accepted
connections, answers of the resolver, the timer, reads and writes.

A session identity is a number; the session of an identity that has not been given out yet is a
fresh one.  `failedTasks` is history: the number of tasks on the strand of the dispatcher that an
exception has left.
-/

namespace Uzel

open Foundation

/-- `std::map` and `std::unordered_map` with string keys. -/
abbrev Dict (ν : Type*) := AList fun _ : String => ν

structure Server where
  store : Sessions
  nextSession : SessionId
  ipToSession : String → List SessionId
  locals : Dict SessionId
  nodeToSession : Dict Remote
  outman : OutgoingManager
  failedTasks : Nat

namespace Server

/-- `MaxConnectionsWithAddr` -/
def maxConnectionsWithAddr : Nat := 10

def withStore (server : Server) (store : Sessions) : Server := { server with store }

def setRemote (node : String) (server : Server) (channel : Remote × Sessions) : Server :=
  { server with nodeToSession := server.nodeToSession.insert node channel.1, store := channel.2 }

/-! ## Channels -/

/-- `findAddRemote(node)` followed by a call on the channel. -/
def onRemote (node : String) (call : Remote → Sessions → Outcome (Remote × Sessions))
    (server : Server) : Outcome Server :=
  let remote := (server.nodeToSession.lookup node).getD (.new node)
  (call remote server.store).map (server.setRemote node)

variable (json : JsonCodec) (config : UConfig)

def handlePriorityMsg : Handler Server := fun msg server =>
  let node := msg.from.node
  match server.nodeToSession.lookup node with
  | none => .done (msg, server)
  | some remote =>
    (remote.handlePriorityMsg json config msg server.store).map fun (msg, channel) =>
      (msg, server.setRemote node channel)

def addAuthSessionToRemote (rnode : String) (sid : SessionId) (server : Server) : Outcome Server :=
  server.onRemote rnode (Remote.addSession json config sid)

/-! ## Routing -/

def putOutQueue (sid : SessionId) (msg : Msg) (server : Server) : Outcome Server :=
  (server.store.putOutQueue json sid msg).map server.withStore

def handleLocalMsg (msg : Msg) (server : Server) : Outcome Server :=
  match server.locals.lookup msg.dest.app with
  | some sid => server.putOutQueue json sid msg
  | none => .done server

def handleLocalBroadcastMsg (msg : Msg) (server : Server) : Outcome Server :=
  .forEach (fun entry server => server.putOutQueue json entry.2 msg) server.locals.entries server

def sendTo (node : String) (msg : Msg) (server : Server) : Outcome Server :=
  server.onRemote node fun remote store => remote.send json msg store

def handleBroadcastMsg (msg : Msg) (server : Server) : Outcome Server :=
  .forEach (fun node server => server.sendTo json node msg) server.nodeToSession.keys server

/-- Every node is its own route. -/
def route (target : String) : Option String := some target

def handleRemoteMsg (msg : Msg) (server : Server) : Outcome Server :=
  match route msg.dest.node with
  | none => .done server
  | some viaNode => server.sendTo json viaNode msg

def handleAny : Handler Server := fun msg server =>
  -- the message itself is passed on unchanged
  let outcome : Outcome Server :=
    match msg.destType with
    | .service => .done server
    | .local => server.handleLocalMsg json msg
    | .remote => server.handleRemoteMsg json msg
    | .localbroadcast => server.handleLocalBroadcastMsg json msg
    | .broadcast => server.handleBroadcastMsg json msg
  outcome.map (msg, ·)

/-- The handlers that the constructor registers. -/
def dispatcher : MsgDispatcher Server where
  handlers cname := if cname = "priority" then [handlePriorityMsg json config] else []
  anyPost := [handleAny json]

/-! ## Authentication and the messages of a session -/

def auth (sid : SessionId) (server : Server) : Outcome Server :=
  match (server.store.session sid).msg1 with
  | none => .raised server
  | some msg1 =>
    if msg1.fromLocal config then
      let app := msg1.from.app
      -- the application is back: its messages go to the new session
      let taken :=
        match server.locals.lookup app with
        | some old => (server.store.takeOverSession sid old).map server.withStore
        | none => .done server
      taken.andThen fun server => .done { server with locals := server.locals.insert app sid }
    else
      server.addAuthSessionToRemote json config msg1.from.node sid

def dispatchTask (msg : Msg) (server : Server) : Outcome Server :=
  match (dispatcher json config).dispatch msg server with
  | .done (_, server) => .done server
  | .raised (_, server) => .raised { server with failedTasks := server.failedTasks + 1 }
  | .hung => .hung

/-- `session::dispatchMsg`, with the slot of the server on `s_auth`. -/
def dispatchMsg (sid : SessionId) (header : PTree) (body : Body) (server : Server) : Outcome Server :=
  let msg := Msg.incoming config header body (some sid)
  let ss := server.store.session sid
  if ss.authenticated then
    server.dispatchTask json config msg
  else if Session.authenticate config msg then
    (server.withStore (server.store.set sid { ss with msg1 := some msg })).auth json config sid
  else
    -- the connection stays open until the bye has been written
    (server.store.gracefullClose json config sid "authentication failed").map server.withStore

/-! ## The end of a session -/

/-- One slot of `s_closed`. -/
def onClosed (sid : SessionId) (server : Server) : ClosedSlot → Server
  | .registry =>
    let ip := (server.store.session sid).remoteIp
    { server with ipToSession :=
        Function.update server.ipToSession ip ((server.ipToSession ip).erase sid) }
  | .host name => { server with outman := server.outman.sessionClosed server.store.now name }
  | .remote node =>
    match server.nodeToSession.lookup node with
    | none => server
    | some remote => server.setRemote node (remote.onSessionClosed sid, server.store)

/-- The emission of `s_closed`. -/
def emitClosed (sid : SessionId) (server : Server) : Server :=
  (server.store.session sid).closedSlots.foldl (onClosed sid) server

def stop (sid : SessionId) (server : Server) : Server :=
  let ss := server.store.session sid
  if ss.stopped then server else (server.withStore (server.store.set sid ss.stop)).emitClosed sid

/-- The completion of a write; the session may call `stop()` last. -/
def onWrite (sid : SessionId) (i : Nat) (ok : Bool) (server : Server) : Option (Outcome Server) :=
  (server.store.onWrite json config sid i ok).map fun outcome =>
    outcome.map fun store =>
      if !(server.store.session sid).stopped && (store.session sid).stopped then
        (server.withStore store).emitClosed sid
      else server.withStore store

def setReading (sid : SessionId) (reading : ReadOp) (server : Server) : Server :=
  server.withStore (server.store.set sid { server.store.session sid with reading })

/-- The read handler gives up: an error, or input that is refused. -/
def readFailed (sid : SessionId) (server : Server) : Server := (server.setReading sid .idle).stop sid

/-- The read handler has used up its data and reads on. -/
def readAgain (sid : SessionId) (processor : InputProcessor) (server : Server) : Server :=
  let ss := server.store.session sid
  server.withStore (server.store.set sid { ss with processor }.doRead)

/-! ## New sessions -/

def onSessionCreated (sid : SessionId) (server : Server) : Server :=
  let ip := (server.store.session sid).remoteIp
  { server with
    ipToSession := Function.update server.ipToSession ip ((server.ipToSession ip).insert sid)
    store := server.store.connectClosed sid .registry }

/-- `std::make_shared<session>(..)`, and the slots of the server on its signals. -/
def createSession (direction : Direction) (remoteIp : String) (server : Server) : Server :=
  let sid := server.nextSession
  onSessionCreated sid
    { server with
      store := server.store.set sid (.new direction remoteIp)
      nextSession := sid + 1 }

/-- The handler of `async_accept`. -/
def accept (pid : Nat) (raddr : String) (server : Server) : Outcome Server :=
  let sid := server.nextSession
  let server := server.createSession .incoming raddr
  -- the new session has been counted already
  if maxConnectionsWithAddr < (server.ipToSession raddr).length then
    (server.store.gracefullClose json config sid "connection refused: too many connections").map
      server.withStore
  else
    (server.store.start json config pid sid).map server.withStore

def connectedFn (server : Server) (node : String) : Option Bool :=
  (server.nodeToSession.lookup node).map (·.connected)

/-- The loop at the end of `connectResolved`. -/
def createOutgoing (hname ip : String) : Nat → Server → Server
  | 0, server => server
  | sessionsToCreate + 1, server =>
    let sid := server.nextSession
    let server := server.createSession .outgoing ip
    let store := server.store.connectClosed sid (.host hname)
    createOutgoing hname ip sessionsToCreate
      (server.withStore (store.set sid (store.session sid).startConnection))

/-- The handler of `async_resolve`: `none` is an error, else the address of the host. -/
def connectResolved (hname : String) (answer : Option String) (server : Server) : Server :=
  let now := server.store.now
  match answer with
  | none => { server with outman := server.outman.connectResolved now hname none }
  | some ip =>
    let wanted := ((server.outman.connectTo.find? (·.hostname == hname)).map
      (·.wantedConnections)).getD 0
    let found := (server.ipToSession ip).map fun sid =>
      ((server.store.session sid).direction, (server.store.session sid).peerNode)
    let decision := OutgoingManager.decision server.connectedFn wanted found
    let server := { server with outman := server.outman.connectResolved now hname (some decision) }
    match decision with
    | .create sessionsToCreate => createOutgoing hname ip sessionsToCreate server
    | _ => server

/-- `connectHandler`; on a stopped session the connect can only fail. -/
def connectHandler (pid : Nat) (sid : SessionId) (ok : Bool) (server : Server) : Option (Outcome Server) :=
  let ss := server.store.session sid
  if !ss.connecting || (ok && ss.stopped) then none
  else
    let server := server.withStore (server.store.set sid { ss with connecting := false })
    if ok then some ((server.store.start json config pid sid).map server.withStore)
    else some (.done (server.stop sid))

/-! ## Runs of a server -/

/-- The server after the constructor. -/
def initial (now : Nat) (remotes : List String) : Server where
  store := ⟨now, 0, fun _ => .new .incoming "", []⟩
  nextSession := 0
  ipToSession _ := []
  locals := ∅
  nodeToSession := ∅
  outman := (remotes.foldl (fun outman rhost => outman.addHost config now rhost)
    (OutgoingManager.new 32300 2)).start now
  failedTasks := 0

end Server

/-- The completions that the `io_context` runs.  The read handler is split at the messages of its
input: `received` is one message of it, and `readAgain` or `readFailed` its end. -/
inductive ServerEvent where
  | tick (elapsed : Nat)
  | accept (raddr : String)
  | fire
  | onTimer (i : Nat)
  | pokeTask
  | resolved (i : Nat) (answer : Option String)
  | connectHandler (sid : SessionId) (ok : Bool)
  | received (sid : SessionId) (header : PTree) (body : Body)
  | readAgain (sid : SessionId) (processor : InputProcessor)
  | readFailed (sid : SessionId)
  | written (sid : SessionId) (i : Nat) (ok : Bool)

namespace Server

variable (json : JsonCodec) (config : UConfig) (pid : Nat)

/-- A handler that is left by an exception ends the process, so there is no state after it. -/
def returned : Outcome Server → Option Server
  | .done server => some server
  | .raised _ => none
  | .hung => none

/-- The events of the manager alone. -/
def managerStep (e : ManagerEvent) (server : Server) : Option Server :=
  (ManagerState.step ⟨server.store.now, server.outman⟩ e).map fun s => { server with outman := s.manager }

/-- One message of the input of a read handler.  The exception of a one-line message is caught in
`processNewInput`, and the session is stopped. -/
def received (sid : SessionId) (header : PTree) (body : Body) (server : Server) : Option Server :=
  if sid < server.nextSession ∧ (server.store.session sid).reading = .pending then
    match server.dispatchMsg json config sid header body, body with
    | .done server, _ => some server
    | .raised server, .tree _ => some (server.readFailed sid)
    | .raised _, .raw _ => none
    | .hung, _ => none
  else none

def step (server : Server) : ServerEvent → Option Server
  | .tick elapsed =>
    some (server.withStore { server.store with now := server.store.now + elapsed })
  | .accept raddr => returned (server.accept json config pid raddr)
  | .fire => server.managerStep .fire
  | .onTimer i => server.managerStep (.onTimer i)
  | .pokeTask => server.managerStep .pokeTask
  | .resolved i answer =>
    server.outman.resolves[i]?.map fun hname =>
      let outman := { server.outman with resolves := server.outman.resolves.eraseIdx i }
      { server with outman }.connectResolved hname answer
  | .connectHandler sid ok => (server.connectHandler json config pid sid ok).bind returned
  | .received sid header body => server.received json config sid header body
  | .readAgain sid processor =>
    if (server.store.session sid).reading = .pending then some (server.readAgain sid processor) else none
  | .readFailed sid =>
    if (server.store.session sid).reading = .idle then none else some (server.readFailed sid)
  | .written sid i ok => (server.onWrite json config sid i ok).bind returned

/-- The read handler on a block of input as a whole. -/
def read (sid : SessionId) (input : List Char) (server : Server) : Option Server :=
  let ss := server.store.session sid
  if sid < server.nextSession ∧ ss.reading = .pending then
    match processNewInput json.readJson (dispatchMsg json config sid) input ss.processor server with
    | .accepted processor server => some (server.readAgain sid processor)
    | .rejected server => some (server.readFailed sid)
    | .raised _ => none
    | .hung => none
  else none

/-! ## What the handlers do -/

/-- The channel that is registered under a node holds the session. -/
def holds (server : Server) (node : String) (sid : SessionId) : Prop :=
  ∃ remote, server.nodeToSession.lookup node = some remote ∧ remote.Holds sid

@[simp] theorem lookup_setRemote (node other : String) (server : Server) (channel : Remote × Sessions) :
    (server.setRemote node channel).nodeToSession.lookup other =
      if other = node then some channel.1 else server.nodeToSession.lookup other := by
  unfold setRemote
  split
  next same => subst same; exact AList.lookup_insert _
  next different => exact AList.lookup_insert_ne different

@[simp] theorem setRemote_store (node : String) (server : Server) (channel : Remote × Sessions) :
    (server.setRemote node channel).store = channel.2 := rfl

theorem holds_setRemote {node other : String} {server : Server} {channel : Remote × Sessions}
    {sid : SessionId} : (server.setRemote node channel).holds other sid ↔
      if other = node then channel.1.Holds sid else server.holds other sid := by
  unfold holds
  rw [lookup_setRemote]
  split <;> simp

variable {json config}

/-- The rule for routing: a message is put into queues of applications and sent to channels, and only a
message for a remote node opens a new one. -/
theorem all_handleAny {P : Server → Prop} {msg : Msg} {server : Server} (initial : P server)
    (put : ∀ app sid t, server.locals.lookup app = some sid → P t → (t.putOutQueue json sid msg).All P)
    (send : ∀ node t, (msg.destType = .remote ∧ node = msg.dest.node) ∨ node ∈ server.nodeToSession.keys →
      P t → (t.sendTo json node msg).All P) :
    (handleAny json msg server).All fun after => P after.2 := by
  apply Outcome.all_map.mpr
  show Outcome.All P _
  cases kind : msg.destType with
  | service => exact initial
  | «local» =>
    simp only [handleLocalMsg]
    cases registered : server.locals.lookup msg.dest.app with
    | none => exact initial
    | some sid => exact put _ sid server registered initial
  | remote => exact send _ server (.inl ⟨kind, rfl⟩) initial
  | localbroadcast =>
    apply Outcome.All.forEach _ initial
    intro entry member t holds
    exact put entry.1 entry.2 t (AList.mem_lookup_iff.mpr member) holds
  | broadcast =>
    apply Outcome.All.forEach _ initial
    intro node member t holds
    exact send node t (.inr member) holds

theorem dispatchTask_of_unnamed {msg : Msg} {server : Server} (unnamed : msg.cname = none) :
    server.dispatchTask json config msg =
      .raised { server with failedTasks := server.failedTasks + 1 } := by
  simp [dispatchTask, MsgDispatcher.dispatch, unnamed]

/-- A message for another handler than that of priorities is only routed. -/
theorem dispatchTask_of_other {msg : Msg} {server : Server} {cname : String}
    (named : msg.cname = some cname) (other : msg.toMe = false ∨ cname ≠ "priority") :
    server.dispatchTask json config msg = ((handleAny json msg server).attempt).map Prod.snd := by
  have unhandled : (if msg.toMe then (dispatcher json config).handlers cname else []) = [] := by
    rcases other with notMine | different
    · simp [notMine]
    · simp [dispatcher, different]
  simp only [dispatchTask, MsgDispatcher.dispatch, named, unhandled]
  simp only [MsgDispatcher.runHandlers, Outcome.forEach, Outcome.andThen_done, dispatcher]
  cases handleAny json msg server <;> rfl

/-- A priority message goes through its handler and is then routed. -/
theorem dispatchTask_of_priority {msg : Msg} {server : Server} (named : msg.cname = some "priority")
    (mine : msg.toMe = true) :
    server.dispatchTask json config msg =
      ((handlePriorityMsg json config msg server).attempt.andThen fun (msg, server) =>
        (handleAny json msg server).attempt).map Prod.snd := by
  simp only [dispatchTask, MsgDispatcher.dispatch, named, mine, if_true, MsgDispatcher.runHandlers,
    Outcome.forEach, dispatcher]
  cases handlePriorityMsg json config msg server with
  | hung => rfl
  | done handled | raised handled =>
    obtain ⟨msg, server⟩ := handled
    simp only [Outcome.attempt_done, Outcome.attempt_raised, Outcome.andThen_done]
    cases handleAny json msg server <;> rfl

/-- The rule for an invariant of a dispatched message and the server. -/
theorem all_dispatchTask {P : Msg × Server → Prop} {msg : Msg} {server : Server}
    (initial : P (msg, server))
    (failed : msg.cname = none → P (msg, { server with failedTasks := server.failedTasks + 1 }))
    (priority : msg.cname = some "priority" → msg.toMe = true →
      (handlePriorityMsg json config msg server).All P)
    (any : ∀ msg server, P (msg, server) → (handleAny json msg server).All P) :
    (server.dispatchTask json config msg).All fun after => ∃ left, P (left, after) := by
  have last : ∀ {outcome : Outcome (Msg × Server)}, outcome.All P →
      (outcome.map Prod.snd).All fun after => ∃ left, P (left, after) := by
    intro outcome all
    apply Outcome.all_map.mpr
    apply all.mono
    rintro ⟨left, after⟩ holds
    exact ⟨left, holds⟩
  cases named : msg.cname with
  | none =>
    rw [dispatchTask_of_unnamed named]
    exact ⟨msg, failed named⟩
  | some cname =>
    by_cases handled : msg.toMe = true ∧ cname = "priority"
    · obtain ⟨mine, rfl⟩ := handled
      rw [dispatchTask_of_priority named mine]
      apply last
      apply (priority named mine).attempt.andThen
      rintro ⟨msg, server⟩ holds
      exact (any msg server holds).attempt
    · have other : msg.toMe = false ∨ cname ≠ "priority" := by
        by_cases mine : msg.toMe = true
        · exact .inr fun same => handled ⟨mine, same⟩
        · exact .inl (by simpa using mine)
      rw [dispatchTask_of_other named other]
      exact last (any msg server initial).attempt

/-! ## Rules for an invariant of the handlers

Whatever calls on the sessions keep is kept by the handlers that only make such calls. -/

theorem returned_all {P : Server → Prop} {outcome : Outcome Server} {t : Server} (all : outcome.All P)
    (next : returned outcome = some t) : P t := by
  cases outcome with
  | done server =>
    cases next
    exact all
  | raised server => cases next
  | hung => cases next

/-- The completion of a write changes its own session; when the session stops by it, it tells the slots of
its `s_closed`. -/
theorem onWrite_returned {sid : SessionId} {i : Nat} {ok : Bool} {s t : Server} {outcome : Outcome Server}
    (completed : s.onWrite json config sid i ok = some outcome)
    (returned : returned outcome = some t) : ∃ ss written,
      (s.store.session sid).onWrite json config s.store.now i ok = some (.done ss) ∧
        ((s.store.session sid).stopped = false ∧ ss.stopped = true ∧
            t = (s.withStore { s.store.set sid ss with written }).emitClosed sid ∨
          ((s.store.session sid).stopped = true ∨ ss.stopped = false) ∧
            t = s.withStore { s.store.set sid ss with written }) := by
  obtain ⟨call, called, rfl⟩ := Option.map_eq_some_iff.mp completed
  obtain ⟨inner, written, answered, rfl⟩ := Sessions.onWrite_eq called
  cases inner with
  | raised ss => cases returned
  | hung => cases returned
  | done ss =>
    cases returned
    refine ⟨ss, written, answered, ?_⟩
    have self : ({ s.store.set sid ss with written } : Sessions).session sid = ss := by simp
    dsimp only
    rw [self]
    cases (s.store.session sid).stopped with
    | true => exact .inr ⟨.inl rfl, rfl⟩
    | false =>
      cases ss.stopped with
      | true => exact .inl ⟨rfl, rfl, rfl⟩
      | false => exact .inr ⟨.inr rfl, rfl⟩

theorem step_readAgain {pid : Nat} {sid : SessionId} {processor : InputProcessor} {s t : Server}
    (next : s.step json config pid (.readAgain sid processor) = some t) :
    (s.store.session sid).reading = .pending ∧ t = s.readAgain sid processor := by
  simp only [step] at next
  split at next
  next pending =>
    cases next
    exact ⟨pending, rfl⟩
  next => cases next

theorem step_readFailed {pid : Nat} {sid : SessionId} {s t : Server}
    (next : s.step json config pid (.readFailed sid) = some t) :
    (s.store.session sid).reading ≠ .idle ∧ t = s.readFailed sid := by
  simp only [step] at next
  split at next
  next => cases next
  next reading =>
    cases next
    exact ⟨reading, rfl⟩

theorem received_pending {sid : SessionId} {header : PTree} {body : Body} {server t : Server}
    (next : server.received json config sid header body = some t) :
    (server.store.session sid).reading = .pending := by
  unfold received at next
  split at next
  next enabled => exact enabled.2
  next => cases next

theorem received_cases {sid : SessionId} {header : PTree} {body : Body} {server t : Server}
    (next : server.received json config sid header body = some t) :
    sid < server.nextSession ∧ (server.dispatchMsg json config sid header body = .done t ∨
      ∃ u, server.dispatchMsg json config sid header body = .raised u ∧ t = u.readFailed sid) := by
  unfold received at next
  split at next
  next enabled =>
    refine ⟨enabled.1, ?_⟩
    cases outcome : server.dispatchMsg json config sid header body with
    | done u =>
      rw [outcome] at next
      cases next
      exact .inl rfl
    | raised u =>
      rw [outcome] at next
      cases body with
      | raw bytes => cases next
      | tree tree =>
        cases next
        exact .inr ⟨u, rfl, rfl⟩
    | hung =>
      rw [outcome] at next
      cases next
  next => cases next

section Calls

variable {P : Server → Prop} {server : Server} {pid : Nat}
  (grows : ∀ {server : Server} {store : Sessions}, P server → server.store.Grows store →
    P (server.withStore store))

include grows in
theorem all_accept {raddr : String} (created : P (server.createSession .incoming raddr)) :
    (server.accept json config pid raddr).All P := by
  unfold accept
  dsimp only
  split
  · apply Outcome.all_map.mpr
    exact (Sessions.grows_gracefullClose json config server.nextSession _ _).mono fun _ => grows created
  · apply Outcome.all_map.mpr
    exact (Sessions.grows_start json config pid server.nextSession _).mono fun _ => grows created

include grows in
theorem all_connectHandler {sid : SessionId} {ok : Bool} {outcome : Outcome Server}
    (finished : P (server.withStore (server.store.set sid
      { server.store.session sid with connecting := false })))
    (stopped : ok = false → P ((server.withStore (server.store.set sid
      { server.store.session sid with connecting := false })).stop sid))
    (connected : server.connectHandler json config pid sid ok = some outcome) : outcome.All P := by
  simp only [connectHandler] at connected
  split at connected
  · cases connected
  · split at connected
    next =>
      cases connected
      apply Outcome.all_map.mpr
      exact (Sessions.grows_start json config pid sid _).mono fun _ => grows finished
    next failed =>
      cases connected
      exact stopped (by simpa using failed)

end Calls

end Server

end Uzel
