import Uzel.Server

/-! # The client (`netclient.h`, `netclient.cpp`)

`NetClient` connects an application to the userver of its node.  It looks up `localhost`, creates one
outgoing session when it has an address, and waits for its timer when something has gone wrong.  Its
slots are on `s_connect_error` and `s_auth` of the session; nobody listens to `s_closed`,
`s_recv_error` and `s_send_error`.

What the application does is a call of `send`, from a handler of its own, from a slot of
`s_authSuccess` or from a timer; each call is an event, and an exception of it goes to the
application.  The read handler is split at the messages of its input, as it is for a server.
-/

namespace Uzel

open Foundation

structure NetClient where
  store : Sessions
  nextSession : SessionId
  locals : Dict SessionId
  reconnectTimer : Timer
  /-- the number of `async_resolve` whose handler has not run yet -/
  resolves : Nat

namespace NetClient

/-- `delay_reconnect_s` -/
def delayReconnect : Nat := seconds 10

def withStore (client : NetClient) (store : Sessions) : NetClient := { client with store }

def start (client : NetClient) : NetClient := { client with resolves := client.resolves + 1 }

def reconnectAfterDelay (client : NetClient) : NetClient :=
  { client with
    reconnectTimer := (client.reconnectTimer.expiresAfter client.store.now delayReconnect).asyncWait }

/-- The handler of the reconnect timer; it does not look at its error code. -/
def onTimer (client : NetClient) : NetClient := client.start

/-- The handler of `async_resolve`: `none` is an error, else the address of the first endpoint. -/
def connectResolved (answer : Option String) (client : NetClient) : NetClient :=
  match answer with
  | none => client.reconnectAfterDelay
  | some ip =>
    let sid := client.nextSession
    { client with
      store := client.store.set sid (Session.new .outgoing ip).startConnection
      nextSession := sid + 1 }

variable (json : JsonCodec) (config : UConfig)

def auth (sid : SessionId) (client : NetClient) : Outcome NetClient :=
  match (client.store.session sid).msg1 with
  | none => .raised client
  | some msg1 =>
    if msg1.fromLocal config then
      let appname := msg1.from.app
      let taken :=
        match client.locals.lookup appname with
        | some old => (client.store.takeOverSession sid old).map client.withStore
        | none => .done client
      taken.andThen fun client => .done { client with locals := client.locals.insert appname sid }
    else
      -- connected to something wrong
      ((client.store.gracefullClose json config sid "bad auth").map client.withStore).andThen
        fun client => .done client.reconnectAfterDelay

/-- `session::dispatchMsg`, with the slot of the client on `s_auth`.  The task of the dispatcher raises
on a message without a name; its handlers are those of the application. -/
def dispatchMsg (sid : SessionId) (header : PTree) (body : Body) (client : NetClient) :
    Outcome NetClient :=
  let msg := Msg.incoming config header body (some sid)
  let ss := client.store.session sid
  if ss.authenticated then
    if msg.cname.isNone then .raised client else .done client
  else if Session.authenticate config msg then
    (client.withStore (client.store.set sid { ss with msg1 := some msg })).auth json config sid
  else
    (client.store.gracefullClose json config sid "authentication failed").map client.withStore

/-- `m_locals["userver"]->putOutQueue(msg)`; without such a session the pointer is null. -/
def send (msg : Msg) (client : NetClient) : Option (Outcome NetClient) :=
  (client.locals.lookup "userver").map fun sid =>
    (client.store.putOutQueue json sid msg).map client.withStore

/-- No slot is connected to `s_closed`. -/
def stop (sid : SessionId) (client : NetClient) : NetClient :=
  let ss := client.store.session sid
  if ss.stopped then client else client.withStore (client.store.set sid ss.stop)

def readAgain (sid : SessionId) (processor : InputProcessor) (client : NetClient) : NetClient :=
  let ss := client.store.session sid
  client.withStore (client.store.set sid { ss with processor }.doRead)

/-- The read handler gives up: an error of the socket, or input that it does not accept. -/
def readFailed (sid : SessionId) (client : NetClient) : NetClient :=
  (client.withStore
    (client.store.set sid { client.store.session sid with reading := .idle })).stop sid

/-- `connectHandler`, with the slot of the client on `s_connect_error`; on a stopped session the connect
can only fail. -/
def connectHandler (pid : Nat) (sid : SessionId) (ok : Bool) (client : NetClient) :
    Option (Outcome NetClient) :=
  let ss := client.store.session sid
  if !ss.connecting || (ok && ss.stopped) then none
  else
    let client := client.withStore (client.store.set sid { ss with connecting := false })
    if ok then some ((client.store.start json config pid sid).map client.withStore)
    else some (.done (client.reconnectAfterDelay.stop sid))

/-- The client after the constructor. -/
def initial (now : Nat) : NetClient :=
  start
    { store := ⟨now, 0, fun _ => .new .outgoing "", []⟩
      nextSession := 0
      locals := ∅
      reconnectTimer := Timer.idle.expiresAfter now delayReconnect
      resolves := 0 }

end NetClient

inductive ClientEvent where
  | tick (elapsed : Nat)
  | resolved (answer : Option String)
  | fire
  | onTimer (i : Nat)
  | connectHandler (sid : SessionId) (ok : Bool)
  | received (sid : SessionId) (header : PTree) (body : Body)
  | readAgain (sid : SessionId) (processor : InputProcessor)
  | readFailed (sid : SessionId)
  | written (sid : SessionId) (i : Nat) (ok : Bool)
  | send (msg : Msg)

namespace NetClient

variable (json : JsonCodec) (config : UConfig) (pid : Nat)

/-- A handler that is left by an exception ends the process. -/
def returned : Outcome NetClient → Option NetClient
  | .done client => some client
  | .raised _ => none
  | .hung => none

/-- One message of the input of a read handler.  The exception of a one-line message is caught in
`processNewInput`, and the session is stopped. -/
def received (sid : SessionId) (header : PTree) (body : Body) (client : NetClient) : Option NetClient :=
  if (client.store.session sid).reading = .pending then
    match client.dispatchMsg json config sid header body, body with
    | .done client, _ => some client
    | .raised client, .tree _ => some (client.readFailed sid)
    | .raised _, .raw _ => none
    | .hung, _ => none
  else none

def step (client : NetClient) : ClientEvent → Option NetClient
  | .tick elapsed =>
    some (client.withStore { client.store with now := client.store.now + elapsed })
  | .resolved answer =>
    if 0 < client.resolves then
      some ({ client with resolves := client.resolves - 1 }.connectResolved answer)
    else none
  | .fire =>
    (client.reconnectTimer.fire client.store.now).map fun timer =>
      { client with reconnectTimer := timer }
  | .onTimer i =>
    client.reconnectTimer.completions[i]?.map fun _ =>
      let completions := client.reconnectTimer.completions.eraseIdx i
      { client with reconnectTimer := { client.reconnectTimer with completions } }.onTimer
  | .connectHandler sid ok =>
    if sid < client.nextSession then (client.connectHandler json config pid sid ok).bind returned
    else none
  | .received sid header body =>
    if sid < client.nextSession then client.received json config sid header body else none
  | .readAgain sid processor =>
    if (client.store.session sid).reading = .pending then some (client.readAgain sid processor) else none
  | .readFailed sid =>
    if (client.store.session sid).reading = .idle then none else some (client.readFailed sid)
  | .written sid i ok =>
    (client.store.onWrite json config sid i ok).bind fun outcome =>
      returned (outcome.map client.withStore)
  | .send msg => (client.send json msg).bind Outcome.final

variable {json config pid}

theorem step_readAgain {sid : SessionId} {processor : InputProcessor} {client after : NetClient}
    (next : client.step json config pid (.readAgain sid processor) = some after) :
    (client.store.session sid).reading = .pending ∧ after = client.readAgain sid processor := by
  simp only [step] at next
  split at next
  next pending =>
    cases next
    exact ⟨pending, rfl⟩
  next => cases next

theorem step_readFailed {sid : SessionId} {client after : NetClient}
    (next : client.step json config pid (.readFailed sid) = some after) :
    (client.store.session sid).reading ≠ .idle ∧ after = client.readFailed sid := by
  simp only [step] at next
  split at next
  next => cases next
  next reading =>
    cases next
    exact ⟨reading, rfl⟩

theorem returned_all {P : NetClient → Prop} {outcome : Outcome NetClient} {after : NetClient}
    (all : outcome.All P) (next : returned outcome = some after) : P after := by
  cases outcome with
  | done client =>
    cases next
    exact all
  | raised client => cases next
  | hung => cases next

end NetClient

end Uzel
