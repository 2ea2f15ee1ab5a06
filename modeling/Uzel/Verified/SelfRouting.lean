import Uzel.Foundation.Json
import Uzel.Foundation.Runs
import Uzel.ServerRules

/-! # A server does not route to itself

Channels are opened for the destinations of messages that `updateDest` calls remote, and for the nodes
of sessions that `authenticate` calls remote; the sessions of `m_locals` are those it calls local.
`never_routes_to_itself` says that the two agree on what is local.
-/

namespace Uzel.Verified.SelfRouting

open Foundation

/-- The tables of a server have no entry for the server itself, and the sessions of its applications
are those of applications on its node. -/
structure RoutesApart (nodeName : String) (s : Server) : Prop where
  channels : ∀ node ∈ s.nodeToSession, node ≠ nodeName ∧ node ≠ ""
  applications : ∀ app ∈ s.locals, app ≠ "userver" ∧ app ≠ ""
  sessions : ∀ app sid, s.locals.lookup app = some sid →
    (s.store.session sid).peerNode = some nodeName ∧ (s.store.session sid).peerApp = some app

/-- Moreover the sessions to come are not authenticated, so none of them is in a table. -/
structure Apart (nodeName : String) (s : Server) : Prop where
  routes : RoutesApart nodeName s
  created : ∀ sid, s.nextSession ≤ sid → (s.store.session sid).msg1 = none

section Steps

variable {json : JsonCodec} {nodeName : String} {pid : Nat} {s t : Server} {sid : SessionId}

/-- The tables have not changed, and the sessions of applications are as they were. -/
theorem RoutesApart.of_same (apart : RoutesApart nodeName s)
    (channels : ∀ node ∈ t.nodeToSession, node ∈ s.nodeToSession ∨ (node ≠ nodeName ∧ node ≠ ""))
    (locals : t.locals = s.locals)
    (msg1 : ∀ app sid, s.locals.lookup app = some sid →
      (t.store.session sid).msg1 = (s.store.session sid).msg1) : RoutesApart nodeName t where
  channels node member := (channels node member).elim (apart.channels node) id
  applications app member := apart.applications app (locals ▸ member)
  sessions app sid registered := by
    have registered : s.locals.lookup app = some sid := locals ▸ registered
    simpa [Session.peerNode, Session.peerApp, msg1 app sid registered] using apart.sessions app sid registered

theorem apart_create (apart : Apart nodeName s) (direction : Direction) (ip : String) :
    Apart nodeName (s.createSession direction ip) := by
  constructor
  · refine @RoutesApart.of_same nodeName s (s.createSession direction ip) apart.routes (fun _ => .inl) rfl ?_
    intro app sid registered
    have old : sid ≠ s.nextSession := by
      rintro rfl
      have unknown := apart.created s.nextSession (Nat.le_refl _)
      simpa [Session.peerNode, unknown] using (apart.routes.sessions app _ registered).1
    rw [Server.createSession_other direction ip old]
  · intro sid later
    have later : s.nextSession + 1 ≤ sid := later
    rw [Server.createSession_other direction ip (Nat.ne_of_gt later)]
    exact apart.created sid (Nat.le_of_lt later)

theorem kept_apart : Server.Kept nodeName (Apart nodeName) where
  steady {s t} apart steady :=
    ⟨apart.routes.of_same steady.keys steady.locals fun _ sid _ => (steady.sessions sid).msg1,
      fun sid later => (steady.sessions sid).msg1.trans (apart.created sid (steady.nextSession ▸ later))⟩
  create ip apart := apart_create apart .incoming ip
  stop {s sid} apart running := by
    have closing := Server.closing_stop running
    have msg1 := Server.stop_keeps (·.msg1) (fun _ => rfl) running
    exact ⟨apart.routes.of_same (fun node member => .inl ((closing.keys node).mp member)) closing.locals
        fun _ other _ => msg1 other,
      fun other later => (msg1 other).trans (apart.created other (closing.nextSession ▸ later))⟩

/-- The session that authenticates itself is in no table before. -/
theorem apart_known (apart : Apart nodeName s) (created : sid < s.nextSession)
    (unknown : (s.store.session sid).msg1 = none) (msg : Msg) :
    Apart nodeName (s.withStore (s.store.set sid { s.store.session sid with msg1 := some msg })) := by
  constructor
  · refine @RoutesApart.of_same nodeName s _ apart.routes (fun _ => .inl) rfl ?_
    intro app other registered
    have different : other ≠ sid := by
      rintro rfl
      simpa [Session.peerNode, unknown] using (apart.routes.sessions app other registered).1
    simp [Server.withStore, different]
  · intro other later
    have different : other ≠ sid := fun same => Nat.not_le.mpr created (same ▸ later)
    simpa [Server.withStore, different] using apart.created other later

theorem apart_dispatchMsg (lawful : json.Lawful) (apart : Apart nodeName s) (created : sid < s.nextSession)
    (header : PTree) (body : Body) :
    (s.dispatchMsg json ⟨nodeName, "userver"⟩ sid header body).All (Apart nodeName) := by
  generalize isMsg : Msg.incoming ⟨nodeName, "userver"⟩ header body (some sid) = msg
  generalize isKnown : s.withStore (s.store.set sid { s.store.session sid with msg1 := some msg }) = known
  have msg1 : (known.store.session sid).msg1 = some msg := by simp [← isKnown, Server.withStore]
  apply @Server.Kept.dispatchMsg json ⟨nodeName, "userver"⟩ _ s kept_apart sid header body msg isMsg.symm
    known isKnown.symm (fun _ => apart)
  · intro unknown passed isLocal t steady
    have known' := isKnown ▸ apart_known apart created unknown msg
    obtain ⟨app, node, loop⟩ := Session.authenticate_userver.mp passed
    have own : msg.from.node = nodeName := by simpa [Msg.fromLocal, UConfig.isLocalNode] using isLocal
    have after := kept_apart.steady known' steady
    refine ⟨⟨after.routes.channels, ?_, ?_⟩, after.created⟩
    · intro other member
      rcases (AList.mem_insert _).mp member with rfl | before
      · exact ⟨loop.mp own, app⟩
      · exact after.routes.applications other before
    · intro other sid' registered
      by_cases same : other = msg.from.app
      · subst same
        rw [AList.lookup_insert, Option.some.injEq] at registered
        subst registered
        have msg1 := (steady.sessions sid).msg1.trans msg1
        simp [Session.peerNode, Session.peerApp, msg1, own]
      · rw [AList.lookup_insert_ne same] at registered
        exact after.routes.sessions other sid' registered
  · intro unknown passed isRemote changed after final
    have known' := isKnown ▸ apart_known apart created unknown msg
    have peer : (known.store.session sid).peerNode = some msg.from.node := by
      simp [Session.peerNode, msg1]
    have persist := Remote.carries_addSession Session.carried_persists lawful peer final
    obtain ⟨_, node, _⟩ := Session.authenticate_userver.mp passed
    have foreign : msg.from.node ≠ nodeName := by
      simpa [Msg.fromLocal, UConfig.isLocalNode] using isRemote
    refine ⟨known'.routes.of_same ?_ rfl fun _ other _ => (persist other).msg1,
      fun other later => (persist other).msg1.trans (known'.created other later)⟩
    intro other member
    rcases (AList.mem_insert _).mp member with rfl | before
    · exact .inr ⟨foreign, node⟩
    · exact .inl before
  · intro _ _ _ remote left changed after registered final
    have persist := Remote.carries_handlePriorityMsg Session.carried_persists final
    refine ⟨apart.routes.of_same ?_ rfl fun _ other _ => (persist other).msg1,
      fun other later => (persist other).msg1.trans (apart.created other later)⟩
    intro other member
    rcases (AList.mem_insert _).mp member with rfl | before
    · exact .inl (AList.lookup_isSome.mp (by simp [registered]))
    · exact .inl before

theorem apart_step (lawful : json.Lawful) {e : ServerEvent} (apart : Apart nodeName s)
    (next : s.step json ⟨nodeName, "userver"⟩ pid e = some t) : Apart nodeName t := by
  apply kept_apart.step (fun ip apart => apart_create apart .outgoing ip)
    (fun _ apart => ⟨⟨apart.routes.channels, apart.routes.applications, apart.routes.sessions⟩,
      apart.created⟩) apart next
  rintro sid header body rfl created _
  exact apart_dispatchMsg lawful apart created header body

theorem apart_initial (now : Nat) (remotes : List String) :
    Apart nodeName (.initial ⟨nodeName, "userver"⟩ now remotes) :=
  ⟨⟨nofun, nofun, nofun⟩, fun _ _ => rfl⟩

/-- In every state of every run of a userver, whatever its peers send, no channel leads to its own
node or to the empty name, no application is registered as `userver` or without a name, and the
sessions of applications are authenticated as just these applications of its own node. -/
theorem never_routes_to_itself (lawful : json.Lawful) (nodeName : String) (now : Nat)
    (remotes : List String) (events : List ServerEvent) :
    Always (Server.step json ⟨nodeName, "userver"⟩ pid) (RoutesApart nodeName)
      (.initial ⟨nodeName, "userver"⟩ now remotes) events :=
  (always_of_invariant (apart_step lawful) (apart_initial now remotes) events).mono fun _ => Apart.routes

end Steps

/-- The application `uecho` of `beta` makes a channel to `alpha`, and none to its own node. -/
theorem never_routes_to_itself_local_application :
    let events : List ServerEvent :=
      [.accept "127.0.0.1",
        .received 0 (serviceHeader ⟨"beta", "uecho"⟩ "auth") (.tree .empty),
        .received 0 (Msg.outgoing ⟨"beta", "uecho"⟩ ⟨"uecho", "alpha"⟩ "ping" .empty).header (.tree .empty),
        .received 0 (Msg.outgoing ⟨"beta", "uecho"⟩ ⟨"uecho", "beta"⟩ "ping" .empty).header (.tree .empty)]
    Always (Server.step Json.compactJson ⟨"beta", "userver"⟩ 1) (RoutesApart "beta")
        (.initial ⟨"beta", "userver"⟩ 0 []) events ∧
      (exec (Server.step Json.compactJson ⟨"beta", "userver"⟩ 1)
          (.initial ⟨"beta", "userver"⟩ 0 []) events).map
        (fun s => (s.locals.keys, s.nodeToSession.keys)) = some (["uecho"], ["alpha"]) := by
  intro events
  exact ⟨never_routes_to_itself Json.compactJson_lawful "beta" 0 [] events, by decide +kernel⟩

end Uzel.Verified.SelfRouting
