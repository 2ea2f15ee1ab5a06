import Uzel.SocketServer

/-! # A network of servers

Any number of `userver` processes, each with its own clock.  A session is one end of a TCP connection; at
the other end is a session of a server of the network, maybe of the same one, or a program that does not
belong to the network: an application, or anything else that can open a connection or accept one.  Such a
program may write what it likes.

What a session has passed to `async_write` on an open socket is its stream.  Between two servers the
stream arrives in blocks of any length, and it may stop at any byte.
-/

namespace Uzel

open Foundation

/-- Where the input of a session comes from. -/
inductive Source (ι : Type*) where
  /-- nothing has been read yet, and no session of the network is known to be at the other end -/
  | unknown
  | program
  /-- a session of the network, of whose stream so many bytes have been read -/
  | stream (peer : ι × SessionId) (consumed : Nat)
  /-- the session has given up reading the stream -/
  | ended (peer : ι × SessionId)
deriving DecidableEq

/-- The session of the network at the other end. -/
def Source.peer {ι : Type*} : Source ι → Option (ι × SessionId)
  | stream peer _ | ended peer => some peer
  | unknown | program => none

structure Network (ι : Type*) where
  server : ι → Server
  source : ι × SessionId → Source ι

inductive NetworkEvent (ι : Type*) where
  /-- a completion without input -/
  | alone (i : ι) (e : ServerEvent)
  /-- a connection of another server, or of a program -/
  | accept (i : ι) (raddr : String) (peer : Option (ι × SessionId))
  /-- a program has written a block -/
  | input (i : ι) (sid : SessionId) (block : List Char)
  /-- at most `length` of the bytes that are under way -/
  | transfer (i : ι) (sid : SessionId) (length : Nat)

namespace Network

section Streams

variable {ι : Type*}

def session (net : Network ι) (at' : ι × SessionId) : Session := (net.server at'.1).store.session at'.2

def stream (net : Network ι) (at' : ι × SessionId) : List Char := (net.session at').sent.flatten

variable [DecidableEq ι]

def setServer (i : ι) (net : Network ι) (server : Server) : Network ι :=
  { net with server := Function.update net.server i server }

@[simp] theorem setServer_self (i : ι) (net : Network ι) (server : Server) :
    (net.setServer i server).server i = server := by
  simp [setServer]

theorem setServer_other {i j : ι} (different : j ≠ i) (net : Network ι) (server : Server) :
    (net.setServer i server).server j = net.server j := by
  simp [setServer, different]

def setSource (at' : ι × SessionId) (source : Source ι) (net : Network ι) : Network ι :=
  { net with source := Function.update net.source at' source }

@[simp] theorem setSource_self (at' : ι × SessionId) (source : Source ι) (net : Network ι) :
    (net.setSource at' source).source at' = source := by
  simp [setSource]

theorem setSource_other {at' other : ι × SessionId} (different : other ≠ at') (source : Source ι)
    (net : Network ι) : (net.setSource at' source).source other = net.source other := by
  simp [setSource, different]

/-- The two ends of a connection. -/
def link (new peer : ι × SessionId) (net : Network ι) : Network ι :=
  (net.setSource new (.stream peer 0)).setSource peer (.stream new 0)

end Streams

variable {ι : Type*} [DecidableEq ι] (json : JsonCodec) (name : ι → String) (pid : ι → Nat)

def config (i : ι) : UConfig := ⟨name i, "userver"⟩

def accept (i : ι) (raddr : String) (net : Network ι) : Option (Network ι) :=
  ((net.server i).step json (config name i) (pid i) (.accept raddr)).map (net.setServer i)

def read (i : ι) (sid : SessionId) (block : List Char) (net : Network ι) : Option (Network ι) :=
  ((net.server i).read json (config name i) sid block).map (net.setServer i)

/-- Where a session that has read `block` reads on. -/
def readOn (at' peer : ι × SessionId) (consumed : Nat) (net : Network ι) : Network ι :=
  net.setSource at' (if (net.session at').reading = .pending then .stream peer consumed else .ended peer)

def step (net : Network ι) : NetworkEvent ι → Option (Network ι)
  -- the connection comes from somewhere
  | .alone _ (.accept _) => none
  | .alone i e => ((net.server i).socketStep json (config name i) (pid i) (.other e)).map (net.setServer i)
  | .accept i raddr none => net.accept json name pid i raddr
  | .accept i raddr (some peer) =>
    if peer.2 < (net.server peer.1).nextSession ∧ (net.session peer).direction = .outgoing ∧
        net.source peer = .unknown then
      (net.accept json name pid i raddr).map (link (i, (net.server i).nextSession) peer)
    else none
  | .input i sid block =>
    if net.source (i, sid) = .unknown ∨ net.source (i, sid) = .program then
      (net.read json name i sid block).map (setSource (i, sid) .program)
    else none
  | .transfer i sid length =>
    match net.source (i, sid) with
    | .stream peer consumed =>
      let block := ((net.stream peer).drop consumed).take length
      if block = [] then none
      else (net.read json name i sid block).map (readOn (i, sid) peer (consumed + block.length))
    | _ => none

def initial (now : ι → Nat) (remotes : ι → List String) : Network ι where
  server i := .initial (config name i) (now i) (remotes i)
  source _ := .unknown

end Network

end Uzel
