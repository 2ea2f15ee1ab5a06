import Uzel.ServerRules
import Uzel.Verified.ReadPath

/-! # Who is in the slots of a channel

A session enters a channel when it is authenticated, under the node it is authenticated for, or by a
priority message, under the node that the message names as its sender.  The second name is never
compared with the first.  `slot_runs_iff` says that the slots of a userver hold only sessions of
their own node exactly as long as every priority message that assigns a role names the node of the
session it comes from.
-/

namespace Uzel.Verified.SlotAuthenticity

open Foundation

/-- Every session that a channel holds is authenticated as the userver of the node of the channel. -/
def SlotsAuthentic (s : Server) : Prop :=
  ∀ node sid, s.holds node sid →
    (s.store.session sid).peerNode = some node ∧ (s.store.session sid).peerApp = some "userver"

/-- A priority message that assigns a role in the channel of some node comes from a session with that
node. -/
def NamesItsNode (json : JsonCodec) (config : UConfig) (s : Server) : ServerEvent → Prop
  | .received sid header body =>
    let msg := Msg.incoming config header body (some sid)
    (s.store.session sid).authenticated = true → msg.toMe = true → msg.cname = some "priority" →
      ∀ remote, s.nodeToSession.lookup msg.from.node = some remote →
        remote.sessionH ≠ some sid → remote.sessionL ≠ some sid →
        ∀ tree, body.parsed json = some tree → Priority.ofBody tree ≠ .undefined →
          (s.store.session sid).peerNode = some msg.from.node
  | _ => True

/-! ## The invariant -/

/-- Every authenticated session has passed the check, the sessions to come are not authenticated, and
the server has no channel to itself. -/
structure Authentic (nodeName : String) (s : Server) : Prop where
  slots : SlotsAuthentic s
  peers : ∀ sid msg1, (s.store.session sid).msg1 = some msg1 →
    Session.authenticate ⟨nodeName, "userver"⟩ msg1 = true
  created : ∀ sid, s.nextSession ≤ sid → (s.store.session sid).msg1 = none
  foreign : s.nodeToSession.lookup nodeName = none

section Invariant

variable {nodeName : String} {s t : Server}

/-- A step that authenticates nobody and puts no session into a channel. -/
theorem Authentic.of_quiet (authentic : Authentic nodeName s)
    (msg1 : ∀ sid, (t.store.session sid).msg1 = (s.store.session sid).msg1)
    (holds : ∀ node sid, t.holds node sid → s.holds node sid) (next : s.nextSession ≤ t.nextSession)
    (keys : nodeName ∈ t.nodeToSession → nodeName ∈ s.nodeToSession) : Authentic nodeName t where
  slots node sid held := by
    have known := authentic.slots node sid (holds node sid held)
    simpa [Session.peerNode, Session.peerApp, msg1] using known
  peers sid first known := authentic.peers sid first ((msg1 sid).symm.trans known)
  created sid later := (msg1 sid).trans (authentic.created sid (next.trans later))
  foreign := AList.lookup_eq_none.mpr fun member => AList.lookup_eq_none.mp authentic.foreign (keys member)

/-- An authenticated peer on another node is the userver of that node. -/
theorem Authentic.userver (authentic : Authentic nodeName s) {sid : SessionId} {msg1 : Msg}
    (known : (s.store.session sid).msg1 = some msg1) (foreign : msg1.from.node ≠ nodeName) :
    msg1.from.app = "userver" := by
  have passed := Session.authenticate_userver.mp (authentic.peers sid msg1 known)
  by_contra other
  exact foreign (passed.2.2.mpr other)

/-- A channel to another node may take up sessions with that node. -/
theorem authentic_setRemote (authentic : Authentic nodeName s) {node : String} {changed : Remote}
    {after : Sessions} (foreign : node ≠ nodeName)
    (msg1 : ∀ sid, (after.session sid).msg1 = (s.store.session sid).msg1)
    (held : ∀ sid, changed.Holds sid → s.holds node sid ∨ (s.store.session sid).peerNode = some node) :
    Authentic nodeName (s.setRemote node (changed, after)) where
  slots other sid holds := by
    have known : (s.store.session sid).peerNode = some other ∧
        (s.store.session sid).peerApp = some "userver" := by
      rw [Server.holds_setRemote] at holds
      split at holds
      next same =>
        subst same
        rcases held sid holds with before | named
        · exact authentic.slots other sid before
        · obtain ⟨first, isFirst, node⟩ := Option.map_eq_some_iff.mp named
          have isServer := authentic.userver isFirst (node ▸ foreign)
          exact ⟨named, by simp [Session.peerApp, isFirst, isServer]⟩
      next => exact authentic.slots other sid holds
    simpa [Session.peerNode, Session.peerApp, msg1] using known
  peers sid first known := authentic.peers sid first ((msg1 sid).symm.trans known)
  created sid later := (msg1 sid).trans (authentic.created sid later)
  foreign := by
    rw [Server.lookup_setRemote, if_neg (Ne.symm foreign)]
    exact authentic.foreign

theorem authentic_createSession (authentic : Authentic nodeName s) (direction : Direction)
    (remoteIp : String) : Authentic nodeName (s.createSession direction remoteIp) := by
  apply authentic.of_quiet
  · intro sid
    by_cases new : sid = s.nextSession
    · rw [new, Server.createSession_self, authentic.created s.nextSession (Nat.le_refl _)]
      rfl
    · rw [Server.createSession_other direction remoteIp new]
  · exact fun _ _ => id
  · exact Nat.le_succ _
  · exact id

theorem kept_authentic : Server.Kept nodeName (Authentic nodeName) where
  steady authentic steady := by
    apply authentic.of_quiet (fun sid => (steady.sessions sid).msg1)
      (fun node sid => (steady.holds node sid).mp) steady.nextSession.ge
    intro member
    rcases steady.keys nodeName member with before | ⟨foreign, _⟩
    · exact before
    · exact absurd rfl foreign
  create ip authentic := authentic_createSession authentic .incoming ip
  stop authentic running := by
    have closing := Server.closing_stop running
    exact authentic.of_quiet (Server.stop_keeps (·.msg1) (fun _ => rfl) running) closing.holds
      closing.nextSession.ge (closing.keys nodeName).mp

/-! ## The messages of a session -/

variable {json : JsonCodec}

/-- A session that passes the check was in no channel before. -/
theorem authentic_authenticated (authentic : Authentic nodeName s) {sid : SessionId}
    (created : sid < s.nextSession) (unknown : (s.store.session sid).msg1 = none) {msg : Msg}
    (passed : Session.authenticate ⟨nodeName, "userver"⟩ msg = true) :
    Authentic nodeName
      (s.withStore (s.store.set sid { s.store.session sid with msg1 := some msg })) where
  slots node other held := by
    have known := authentic.slots node other held
    have different : other ≠ sid := by
      rintro rfl
      simp [Session.peerNode, unknown] at known
    simpa [Server.withStore, different] using known
  peers other msg1 known := by
    by_cases same : other = sid
    · subst same
      simp only [Server.withStore, Sessions.set_session, Function.update_self, Option.some.injEq] at known
      exact known ▸ passed
    · exact authentic.peers other msg1 (by simpa [Server.withStore, same] using known)
  created other later := by
    have later : s.nextSession ≤ other := later
    have different : other ≠ sid := fun same => Nat.not_le.mpr created (same ▸ later)
    simpa [Server.withStore, different] using authentic.created other later
  foreign := authentic.foreign

theorem authentic_dispatchMsg (lawful : json.Lawful) (authentic : Authentic nodeName s)
    {sid : SessionId} (created : sid < s.nextSession) {header : PTree} {body : Body}
    (names : NamesItsNode json ⟨nodeName, "userver"⟩ s (.received sid header body)) :
    (s.dispatchMsg json ⟨nodeName, "userver"⟩ sid header body).All (Authentic nodeName) := by
  simp only [NamesItsNode] at names
  generalize isMsg : Msg.incoming ⟨nodeName, "userver"⟩ header body (some sid) = msg at names
  generalize isKnown : s.withStore (s.store.set sid { s.store.session sid with msg1 := some msg }) = known
  have entered : (s.store.session sid).msg1 = none →
      Session.authenticate ⟨nodeName, "userver"⟩ msg = true → Authentic nodeName known := by
    intro unknown passed
    rw [← isKnown]
    exact authentic_authenticated authentic created unknown passed
  have peer : (known.store.session sid).peerNode = some msg.from.node := by
    simp [← isKnown, Server.withStore, Session.peerNode]
  apply (@kept_authentic nodeName).dispatchMsg isMsg.symm isKnown.symm (fun _ => authentic)
  · intro unknown passed _ t steady
    have later : Authentic nodeName t := (@kept_authentic nodeName).steady (entered unknown passed) steady
    exact later.of_quiet (fun _ => rfl) (fun _ _ => id) (Nat.le_refl _) id
  · intro unknown passed isRemote changed after final
    have persist := Remote.carries_addSession Session.carried_persists lawful peer final
    have channels : s.nodeToSession = known.nodeToSession := by rw [← isKnown]; rfl
    apply authentic_setRemote (entered unknown passed)
    · simpa [Msg.fromLocal, UConfig.isLocalNode] using isRemote
    · exact fun other => (persist other).msg1
    · intro other held
      rcases Remote.holds_addSession lawful final held with before | rfl
      · rw [channels] at before
        exact .inl ((Server.holds_getD known _ other).mp before)
      · exact .inr peer
  · intro authenticated mine named remote left changed after registered final
    have persist := Remote.carries_handlePriorityMsg Session.carried_persists final
    apply authentic_setRemote authentic
    · rintro rfl
      simp [authentic.foreign] at registered
    · exact fun other => (persist other).msg1
    · intro other held
      rcases Remote.holds_handlePriorityMsg final held with before | ⟨origin, notHigh, notLow, tree, parsed, role⟩
      · exact .inl ⟨remote, registered, before⟩
      · rw [← isMsg, Msg.incoming_origin, Option.some.injEq] at origin
        rw [← isMsg, Msg.incoming_body] at parsed
        subst origin
        exact .inr (names authenticated mine named remote registered notHigh notLow tree parsed role)

/-! ## Runs -/

variable {pid : Nat}

theorem authentic_step (lawful : json.Lawful) {e : ServerEvent} (authentic : Authentic nodeName s)
    (next : s.step json ⟨nodeName, "userver"⟩ pid e = some t)
    (names : NamesItsNode json ⟨nodeName, "userver"⟩ s e) : Authentic nodeName t := by
  have kept : Server.Kept (UConfig.nodeName ⟨nodeName, "userver"⟩) (Authentic nodeName) := kept_authentic
  apply kept.step (fun ip authentic => authentic_createSession authentic .outgoing ip)
    (fun _ authentic => ⟨authentic.slots, authentic.peers, authentic.created, authentic.foreign⟩) authentic next
  rintro sid header body rfl created _
  exact authentic_dispatchMsg lawful authentic created names

/-- A priority message that assigns a role under another node puts a session of the wrong node into
the channel. -/
theorem forged_step {e : ServerEvent} (lawful : json.Lawful)
    (next : s.step json ⟨nodeName, "userver"⟩ pid e = some t)
    (forged : ¬ NamesItsNode json ⟨nodeName, "userver"⟩ s e) : ¬ SlotsAuthentic t := by
  cases e with
  | received sid header body =>
    simp only [NamesItsNode, not_forall, exists_prop] at forged
    generalize isMsg : Msg.incoming ⟨nodeName, "userver"⟩ header body (some sid) = msg at forged
    obtain ⟨known, mine, named, remote, registered, notHigh, notLow, tree, parsed, role, wrong⟩ := forged
    have assigns := @Server.dispatchMsg_assigns json ⟨nodeName, "userver"⟩ s sid header body msg isMsg.symm known
      mine named remote registered
    rcases (Server.received_cases next).2 with done | ⟨u, raised, _⟩
    · rw [done] at assigns
      obtain ⟨left, changed, after, final, steady⟩ := assigns
      have persist := Remote.carries_handlePriorityMsg Session.carried_persists final
      have held : changed.Holds sid := by
        refine Remote.holds_assigned ?_ notHigh notLow ?_ role final
        · rw [← isMsg, Msg.incoming_origin]
        · rw [← isMsg, Msg.incoming_body]
          exact parsed
      have holds : t.holds msg.from.node sid := by
        rw [steady.holds, Server.holds_setRemote, if_pos rfl]
        exact held
      intro slots
      apply wrong
      rw [← (persist sid).peerNode, ← (slots _ sid holds).1]
      exact (steady.sessions sid).peerNode.symm
    -- only a message without a name raises
    · obtain ⟨_, unnamed, _⟩ := ReadPath.dispatchMsg_raised lawful raised
      rw [isMsg, named] at unnamed
      cases unnamed
  | _ => exact absurd trivial forged

/-- The runs of a userver in which its channels hold only sessions of their own node are exactly those
in which every priority message that assigns a role names the node of the session it comes from. -/
theorem slot_runs_iff (lawful : json.Lawful) (nodeName : String) (now : Nat) (remotes : List String)
    (events : List ServerEvent) :
    Always (Server.step json ⟨nodeName, "userver"⟩ pid) SlotsAuthentic
        (.initial ⟨nodeName, "userver"⟩ now remotes) events ↔
      Meets (Server.step json ⟨nodeName, "userver"⟩ pid) (NamesItsNode json ⟨nodeName, "userver"⟩)
        (.initial ⟨nodeName, "userver"⟩ now remotes) events := by
  apply @always_iff_meets _ _ _ (Authentic nodeName)
  · exact fun authentic => authentic.slots
  · exact authentic_step lawful
  · exact fun _ => forged_step lawful
  · refine ⟨?_, ?_, fun _ _ => rfl, rfl⟩
    · rintro node sid ⟨remote, registered, _⟩
      cases registered
    · intro sid msg1 known
      cases known

end Invariant

/-- The userver of `alpha` connects to that of `beta` and gets no priority from anybody else. -/
theorem slot_runs_honest :
    Always (Server.step Json.compactJson ⟨"beta", "userver"⟩ 1) SlotsAuthentic
      (.initial ⟨"beta", "userver"⟩ 0 [])
      [.accept "10.0.0.7", .received 0 (serviceHeader ⟨"alpha", "userver"⟩ "auth") (.tree .empty)] := by
  apply (slot_runs_iff Json.compactJson_lawful "beta" 0 [] _).mpr
  rintro t ⟨rfl⟩
  refine ⟨trivial, ?_⟩
  rintro t ⟨rfl⟩
  exact ⟨fun known => absurd known (by decide), trivial⟩

/-- The local application `uecho` of `beta` names `alpha` as the sender of a priority message, after a
message of its own to `alpha` has created the channel. -/
theorem local_application_takes_slot :
    ¬ Always (Server.step Json.compactJson ⟨"beta", "userver"⟩ 1) SlotsAuthentic
      (.initial ⟨"beta", "userver"⟩ 0 [])
      [.accept "127.0.0.1", .received 0 (serviceHeader ⟨"beta", "uecho"⟩ "auth") (.tree .empty),
        .received 0 (Msg.outgoing ⟨"beta", "uecho"⟩ ⟨"uecho", "alpha"⟩ "ping" .empty).header (.tree .empty),
        .received 0 (serviceHeader ⟨"alpha", "uecho"⟩ "priority") (.tree Priority.high.toBody)] := by
  intro always
  have reached : exec (Server.step Json.compactJson ⟨"beta", "userver"⟩ 1)
      (.initial ⟨"beta", "userver"⟩ 0 [])
      [.accept "127.0.0.1", .received 0 (serviceHeader ⟨"beta", "uecho"⟩ "auth") (.tree .empty),
        .received 0 (Msg.outgoing ⟨"beta", "uecho"⟩ ⟨"uecho", "alpha"⟩ "ping" .empty).header (.tree .empty),
        .received 0 (serviceHeader ⟨"alpha", "uecho"⟩ "priority") (.tree Priority.high.toBody)] = some _ := rfl
  have peer := (always.last reached "alpha" 0 ⟨_, rfl, .inr ⟨.high, rfl⟩⟩).1
  exact absurd peer (by decide)

end Uzel.Verified.SlotAuthenticity
