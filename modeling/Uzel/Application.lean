import Uzel.Dispatcher
import Uzel.Foundation.Simulation
import Uzel.NetClient

/-! # Applications (`netclient.h`, `netappcontext.h`)

An application derives from `NetClient`.  It registers handlers with the dispatcher of its context and
connects a slot to `s_authSuccess`; what it does with the client there, and in the handlers of timers
of its own, is to call `send`.

`heard` and `given` are history: the messages that the dispatcher has been given, and the messages that
`send` has queued, with the times.
-/

namespace Uzel

open Foundation

structure Application (σ : Type*) where
  client : NetClient
  state : σ
  heard : List Msg
  given : List (Nat × Msg)
  undefinedBehaviour : Bool

/-- What an application connects to its client. -/
structure Wiring (σ : Type*) where
  dispatcher : MsgDispatcher (Application σ)
  authSuccess : Application σ → Outcome (Application σ)

namespace Application

variable {σ : Type*}

def withClient (app : Application σ) (client : NetClient) : Application σ := { app with client }

/-- The application after its constructor. -/
def initial (now : Nat) (state : σ) : Application σ := ⟨.initial now, state, [], [], false⟩

section Calls

variable (json : JsonCodec) (config : UConfig) (wiring : Wiring σ)

/-- `m_locals["userver"]` inserts a null pointer if there is no such session. -/
def send (msg : Msg) (app : Application σ) : Outcome (Application σ) :=
  match app.client.send json msg with
  | none => .done { app with undefinedBehaviour := true }
  | some (.done client) =>
    .done { app with client, given := app.given ++ [(app.client.store.now, msg)] }
  | some (.raised client) => .raised (app.withClient client)
  | some .hung => .hung

/-- The slot of the client on `s_auth`, which emits `s_authSuccess` at its end if the peer is local. -/
def auth (sid : SessionId) (app : Application σ) : Outcome (Application σ) :=
  match (app.client.store.session sid).msg1 with
  | none => .raised app
  | some msg1 =>
    let called := (app.client.auth json config sid).map app.withClient
    if msg1.fromLocal config then called.andThen wiring.authSuccess else called

/-- `session::dispatchMsg`, with the handlers of the application. -/
def dispatchMsg (sid : SessionId) (header : PTree) (body : Body) (app : Application σ) :
    Outcome (Application σ) :=
  let msg := Msg.incoming config header body (some sid)
  let store := app.client.store
  let ss := store.session sid
  if ss.authenticated then
    (wiring.dispatcher.dispatch msg { app with heard := app.heard ++ [msg] }).map Prod.snd
  else if Session.authenticate config msg then
    (app.withClient (app.client.withStore (store.set sid { ss with msg1 := some msg }))).auth json config
      wiring sid
  else
    (store.gracefullClose json config sid "authentication failed").map fun store =>
      app.withClient (app.client.withStore store)

/-- One message of the input of a read handler; see `NetClient.received`. -/
def received (sid : SessionId) (header : PTree) (body : Body) (app : Application σ) :
    Option (Application σ) :=
  if (app.client.store.session sid).reading = .pending then
    match app.dispatchMsg json config wiring sid header body, body with
    | .done app, _ => some app
    | .raised app, .tree _ => some (app.withClient (app.client.readFailed sid))
    | .raised _, .raw _ => none
    | .hung, _ => none
  else none

/-- The events of the client.  What the application sends, it sends from a handler. -/
def step (pid : Nat) (app : Application σ) : ClientEvent → Option (Application σ)
  | .received sid header body =>
    if sid < app.client.nextSession then app.received json config wiring sid header body else none
  | .send _ => none
  | e => (app.client.step json config pid e).map app.withClient

/-- The handler of a timer of the application; an exception of it ends the process. -/
def returned : Outcome (Application σ) → Option (Application σ)
  | .done app => some app
  | .raised _ => none
  | .hung => none

end Calls

end Application

end Uzel
