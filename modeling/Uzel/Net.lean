import Uzel.Server

/-! # Two servers and the connections between them

Each server runs on its own, with its own clock.  A TCP connection is a pair of sessions, an outgoing
one of the server that opened it and an incoming one of the other; the handlers of `async_accept` and
`async_connect` run independently of each other.

A connection carries two byte streams.  What a session has passed to `async_write` on an open socket
is in its history `sent`, and `consumed` counts how much of that the other end has read, so that the
bytes in between are in flight.  A stream may stop at any byte, when either end gives up.
-/

namespace Uzel

open Foundation

/-- The two servers; the boss has the greater name. -/
inductive Side where
  | lower | boss
deriving DecidableEq, Repr

def Side.other : Side → Side
  | lower => boss
  | boss => lower

@[simp] theorem Side.other_other (side : Side) : side.other.other = side := by cases side <;> rfl

@[simp] theorem Side.other_ne (side : Side) : side.other ≠ side := by cases side <;> simp [other]

theorem Side.eq_or_eq_other (side at' : Side) : at' = side ∨ at' = side.other := by
  cases side <;> cases at' <;> simp [other]

structure Net where
  server : Side → Server
  /-- the session at the other end of the connection -/
  peer : Side → SessionId → Option SessionId
  /-- the number of bytes that a session has read from its peer -/
  consumed : Side → SessionId → Nat

namespace Net

def session (net : Net) (side : Side) (sid : SessionId) : Session := (net.server side).store.session sid

/-- All bytes that a session has handed to its socket. -/
def stream (net : Net) (side : Side) (sid : SessionId) : List Char := (net.session side sid).sent.flatten

/-- All bytes that the other end of a connection has handed to its socket. -/
def incoming (net : Net) (side : Side) (sid : SessionId) : List Char :=
  match net.peer side sid with
  | none => []
  | some peer => net.stream side.other peer

/-- The bytes that are under way to a session. -/
def inFlight (net : Net) (side : Side) (sid : SessionId) : List Char :=
  (net.incoming side sid).drop (net.consumed side sid)

/-- The bytes that a session has read. -/
def heard (net : Net) (side : Side) (sid : SessionId) : List Char :=
  (net.incoming side sid).take (net.consumed side sid)

def setServer (side : Side) (net : Net) (server : Server) : Net :=
  { net with server := Function.update net.server side server }

/-- A new session of `side` is the other end of the connection that the session `sid` of the other
server has opened. -/
def link (side : Side) (new sid : SessionId) (net : Net) : Net :=
  { net with
    peer := Function.update (Function.update net.peer side (Function.update (net.peer side) new (some sid)))
      side.other (Function.update (net.peer side.other) sid (some new)) }

def consume (side : Side) (sid : SessionId) (count : Nat) (net : Net) : Net :=
  { net with
    consumed := Function.update net.consumed side
      (Function.update (net.consumed side) sid (net.consumed side sid + count)) }

variable (json : JsonCodec) (name : Side → String) (pid : Side → Nat)

def config (side : Side) : UConfig := ⟨name side, "userver"⟩

/-- The handlers of one server that no byte of the other one reaches. -/
def stepAlone (side : Side) (server : Server) : ServerEvent → Option Server
  | .accept _ | .received _ _ _ | .readAgain _ _ => none
  | e => server.step json (config name side) (pid side) e

/-- The handler of `async_accept`, for a connection that the other side has opened. -/
def accept (side : Side) (sid : SessionId) (raddr : String) (net : Net) : Option Net :=
  if sid < (net.server side.other).nextSession ∧
      (net.session side.other sid).direction = .outgoing ∧ net.peer side.other sid = none then
    let server := net.server side
    (Server.returned (server.accept json (config name side) (pid side) raddr)).map fun accepted =>
      (net.setServer side accepted).link side server.nextSession sid
  else none

/-- The read handler, with at most `length` of the bytes that are under way. -/
def read (side : Side) (sid : SessionId) (length : Nat) (net : Net) : Option Net :=
  let block := (net.inFlight side sid).take length
  if block = [] then none
  else
    ((net.server side).read json (config name side) sid block).map fun server =>
      (net.setServer side server).consume side sid block.length

end Net

inductive NetEvent where
  | alone (side : Side) (e : ServerEvent)
  | gracefullClose (side : Side) (sid : SessionId) (reason : String)
  | accept (side : Side) (sid : SessionId) (raddr : String)
  | read (side : Side) (sid : SessionId) (length : Nat)

namespace Net

variable (json : JsonCodec) (name : Side → String) (pid : Side → Nat)

def step (net : Net) : NetEvent → Option Net
  | .alone side e => (stepAlone json name pid side (net.server side) e).map (net.setServer side)
  | .gracefullClose side sid reason =>
    let server := net.server side
    (Server.returned ((server.store.gracefullClose json (config name side) sid reason).map
      server.withStore)).map (net.setServer side)
  | .accept side sid raddr => net.accept json name pid side sid raddr
  | .read side sid length => net.read json name side sid length

def initial (now : Side → Nat) (remotes : Side → List String) : Net where
  server side := .initial (config name side) (now side) (remotes side)
  peer _ _ := none
  consumed _ _ := 0

end Net

end Uzel
