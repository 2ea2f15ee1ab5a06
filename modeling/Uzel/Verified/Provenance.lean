import Uzel.Foundation.Simulation
import Uzel.Verified.OutputRules
import Uzel.Verified.SelfRouting
import Uzel.Verified.SlotAuthenticity

/-! # Where the output of a server comes from

A userver adds nothing to the traffic that it carries but the notices of its protocol, and it shows a
message only to those it is addressed to.  Authentication, routing, the channels with their queues and
three kinds of takeovers have a part in this.  The one way around it is a priority message that puts a
session into the channel of a foreign node, so `output_addressed` is about the runs without one.
-/

namespace Uzel.Verified.Provenance

open Foundation OutputRules SelfRouting SlotAuthenticity

/-- In the run an authenticated session has sent the message, or what the handler of priorities left of
it when it was routed. -/
def Heard (json : JsonCodec) (config : UConfig) (pid : Nat) (s : Server) (events : List ServerEvent)
    (msg : Msg) : Prop :=
  ∃ before after t sid header body, events = before ++ .received sid header body :: after ∧
    exec (Server.step json config pid) s before = some t ∧
    (t.store.session sid).authenticated = true ∧
    Dispatched json (.incoming config header body (some sid)) msg

/-- A message for an application goes to that application of the node, one for another node to the
userver of that node, and a broadcast to the userver of every other node. -/
def Addressed (nodeName : String) (msg : Msg) (peer : Addr) : Prop :=
  match msg.destType with
  | .service => False
  | .local => peer.node = nodeName ∧ peer.app = msg.dest.app
  | .localbroadcast => peer.node = nodeName
  | .remote => peer.node = msg.dest.node ∧ peer.app = "userver"
  | .broadcast => peer.node ≠ nodeName ∧ peer.app = "userver"

section Policies

variable {json : JsonCodec} {nodeName : String} {heard more : Msg → Prop} {s t : Server}

theorem peer_of_application (apart : Apart nodeName s) {app : String} {sid : SessionId}
    (registered : s.locals.lookup app = some sid) : (s.store.session sid).peer = some ⟨app, nodeName⟩ := by
  obtain ⟨isNode, isApp⟩ := apart.routes.sessions app sid registered
  obtain ⟨msg1, known, rfl⟩ := Option.map_eq_some_iff.mp isNode
  have sameApp : msg1.from.app = app := by simpa [Session.peerApp, known] using isApp
  rw [Session.peer, known, ← sameApp]
  rfl

end Policies

/-! ## Runs -/

section Runs

variable {json : JsonCodec} {config : UConfig} {nodeName : String} {pid : Nat} {s t : Server}

theorem Heard.later {events : List ServerEvent} {msg : Msg} (heard : Heard json config pid s events msg)
    (e : ServerEvent) : Heard json config pid s (events ++ [e]) msg := by
  obtain ⟨before, after, u, sid, header, body, rfl, rest⟩ := heard
  exact ⟨before, after ++ [e], u, sid, header, body, by simp, rest⟩

end Runs

end Uzel.Verified.Provenance
