import Uzel.Chronicle
import Uzel.Foundation.Json

/-! # Stopped sessions and the channels

`s_closed` of a session is emitted once, and its slots take the session out of the channel of its node.
A read that has completed before does not know of this: its messages are handled afterwards, and they
can authenticate the session or give it a role.  `burial_runs_iff` says that the runs in which no
channel holds a session that has been closed are exactly those in which no message of a stopped
session gets a place for it.
-/

namespace Uzel

open Foundation

namespace Remote

/-- `addSession` has a place for a session of the node `peer`. -/
def offers (config : UConfig) (direction : SessionId → Direction) (sid : SessionId) (peer : String)
    (remote : Remote) : Prop :=
  config.nodeName < peer ∨ remote.sessionH = none ∨ remote.sessionL = none ∨
    (remote.sessionC = none ∧ direction sid = .outgoing ∧
      ∀ other, remote.sessionH = some other ∨ remote.sessionL = some other → direction other = .incoming)

section Places

variable {json : JsonCodec} {config : UConfig} {sid : SessionId} {remote changed : Remote}
  {store after : Sessions} {peer : String}

theorem holds_addSession_iff (lawful : json.Lawful) (known : (store.session sid).peerNode = some peer)
    (final : (remote.addSession json config sid store).final = some (changed, after)) :
    changed.Holds sid ↔
      remote.Holds sid ∨ remote.offers config (fun other => (store.session other).direction) sid peer := by
  rcases addSession_cases lawful final with ⟨unknown, _⟩ | ⟨peer', known', waits | ⟨boss, high | low | full⟩⟩
  · rw [known] at unknown
    cases unknown
  · obtain rfl : peer = peer' := Option.some.inj (known.symm.trans known')
    obtain ⟨lower, rfl⟩ := waits
    exact ⟨fun _ => .inr (.inl lower), fun _ => .inl (Finset.mem_insert_self _ _)⟩
  · obtain ⟨free, rfl, _⟩ := high
    exact ⟨fun _ => .inr (.inr (.inl free)), fun _ => .inr ⟨.high, rfl⟩⟩
  · obtain ⟨_, free, rfl⟩ := low
    exact ⟨fun _ => .inr (.inr (.inr (.inl free))), fun _ => .inr ⟨.low, rfl⟩⟩
  · obtain rfl : peer = peer' := Option.some.inj (known.symm.trans known')
    obtain ⟨high, isHigh⟩ := Option.ne_none_iff_exists'.mp full.1
    obtain ⟨low, isLow⟩ := Option.ne_none_iff_exists'.mp full.2.1
    have samePeer : ((store.connectClosed sid (.remote remote.node)).session sid).peerNode = some peer := by
      simpa [Sessions.connectClosed, Session.peerNode] using known
    have direction : ∀ other, ((store.connectClosed sid (.remote remote.node)).session other).direction =
        (store.session other).direction := Sessions.set_congr (·.direction) rfl
    have offers : remote.offers config (fun other => (store.session other).direction) sid peer ↔
        (remote.sessionC = none ∧ (store.session high).direction = .incoming ∧
          (store.session low).direction = .incoming ∧ (store.session sid).direction = .outgoing) := by
      simp only [Remote.offers, boss, isHigh, isLow, Option.some.injEq, reduceCtorEq, false_or]
      constructor
      · rintro ⟨free, outgoing, incoming⟩
        exact ⟨free, incoming high (.inl rfl), incoming low (.inr rfl), outgoing⟩
      · rintro ⟨free, incomingHigh, incomingLow, outgoing⟩
        refine ⟨free, outgoing, ?_⟩
        rintro other (rfl | rfl)
        · exact incomingHigh
        · exact incomingLow
    rw [offers]
    simp only [addSession, samePeer, if_neg boss, isHigh, isLow, direction] at final
    split at final
    next offered =>
      simp only [Outcome.final_map, Option.map_eq_some_iff, Prod.mk.injEq] at final
      obtain ⟨_, _, rfl, _⟩ := final
      exact ⟨fun _ => .inr offered, fun _ => .inr ⟨.control, rfl⟩⟩
    next refused =>
      simp only [Outcome.final_map, Option.map_eq_some_iff, Prod.mk.injEq] at final
      obtain ⟨_, _, rfl, _⟩ := final
      exact ⟨.inl, fun holds => holds.elim id fun offered => absurd offered refused⟩

/-- The session tells the channel when it is closed. -/
theorem slot_addSession (lawful : json.Lawful) (known : (store.session sid).peerNode = some peer)
    (final : (remote.addSession json config sid store).final = some (changed, after)) :
    changed.node = remote.node ∧ .remote remote.node ∈ (after.session sid).closedSlots := by
  have adds := adds_addSession lawful config remote known
  generalize remote.addSession json config sid store = outcome at adds final
  have connected : .remote remote.node ∈
      ((store.connectClosed sid (.remote remote.node)).session sid).closedSlots := by
    simp [Sessions.connectClosed]
  have announced : ∀ queued, .remote remote.node ∈
      ((remote.announced sid queued store).session sid).closedSlots := by
    intro queued
    have same := congrArg Endpoint.closedSlots (Session.enqueue_toEndpoint store.now queued
      { store.session sid with closedSlots := (store.session sid).closedSlots ++ [.remote remote.node] })
    rw [announced_self, same]
    simp
  cases adds with
  | waits =>
    cases final
    exact ⟨rfl, connected⟩
  | @high _ _ queued =>
    have persist := (carries_flush Session.carried_persists _ _ (fun _ => rfl) _).of_final final
    obtain ⟨_, _, same⟩ := Option.map_eq_some_iff.mp ((Outcome.final_map ..).symm.trans final)
    cases same
    exact ⟨rfl, (persist sid).closedSlots (announced queued)⟩
  | @low _ _ _ queued =>
    have persist := (carries_flush Session.carried_persists _ _ (fun _ => rfl) _).of_final final
    obtain ⟨_, _, same⟩ := Option.map_eq_some_iff.mp ((Outcome.final_map ..).symm.trans final)
    cases same
    exact ⟨rfl, (persist sid).closedSlots (announced queued)⟩
  | @control _ _ _ queued =>
    cases final
    exact ⟨rfl, announced queued⟩
  | duplicate _ _ closed =>
    cases final
    have closes := Sessions.carries_gracefullClose Session.carried_persists json config sid
      "duplicated connection" (store.connectClosed sid (.remote remote.node))
    rw [closed] at closes
    exact ⟨rfl, (closes sid).closedSlots connected⟩

theorem node_handlePriorityMsg {msg left : Msg}
    (final : (remote.handlePriorityMsg json config msg store).final = some (left, changed, after)) :
    changed.node = remote.node := by
  rcases handlePriorityMsg_cases final with ⟨_, rfl, _⟩ | ⟨other, _, ⟨_, rfl, _⟩ | assigned⟩
  · rfl
  · rfl
  · obtain ⟨_, _, tree, _, ⟨_, rfl, _⟩ | ⟨_, rfl, _⟩⟩ := assigned
    · rfl
    · cases Priority.ofBody tree <;> rfl

end Places

end Remote

namespace Verified.DeadSessions

/-- `s_closed` is emitted once at most, and afterwards the channel of its node does not hold the
session. -/
def Buried (c : Chronicle) : Prop :=
  ∀ sid, c.closings sid ≤ 1 ∧
    (0 < c.closings sid → ∀ node, (c.server.store.session sid).peerNode = some node →
      ¬ c.server.holds node sid)

/-- The message puts its session into the channel of the node of the session: it authenticates it and
the channel has a place for it, or it gives it a role there. -/
def GivesPlace (json : JsonCodec) (config : UConfig) (s : Server) (sid : SessionId) (msg : Msg) : Prop :=
  ((s.store.session sid).msg1 = none ∧ Session.authenticate config msg = true ∧
      msg.fromLocal config = false ∧
      ((s.nodeToSession.lookup msg.from.node).getD (.new msg.from.node)).offers config
        (fun other => (s.store.session other).direction) sid msg.from.node) ∨
    ((s.store.session sid).peerNode = some msg.from.node ∧ msg.toMe = true ∧
      msg.cname = some "priority" ∧ msg.from.node ∈ s.nodeToSession ∧
      ∃ tree, msg.body.parsed json = some tree ∧ Priority.ofBody tree ≠ .undefined)

/-- A message of a stopped session does not get it a place. -/
def LeavesInPeace (json : JsonCodec) (config : UConfig) (c : Chronicle) : ServerEvent → Prop
  | .received sid header body =>
    (c.server.store.session sid).stopped = true →
      ¬ GivesPlace json config c.server sid (.incoming config header body (some sid))
  | _ => True

/-! ## The sessions that channels hold -/

/-- A channel holds authenticated sessions only, a session that may be in the channel of its node will
tell the channel when it is closed, and it is not in there when it has been. -/
structure Tidy (own : String) (s : Server) : Prop where
  named : s.Named
  foreign : own ∉ s.nodeToSession
  held : ∀ node sid, s.holds node sid → sid < s.nextSession ∧ (s.store.session sid).msg1 ≠ none
  slots : ∀ sid node, (s.store.session sid).peerNode = some node → node ≠ own →
    (s.store.session sid).stopped = false → .remote node ∈ (s.store.session sid).closedSlots
  gone : ∀ sid node, (s.store.session sid).peerNode = some node →
    (s.store.session sid).stopped = true → ¬ s.holds node sid

section Tidy

variable {json : JsonCodec} {config : UConfig} {pid : Nat} {own : String} {s t : Server} {sid : SessionId}

theorem tidy_steady (tidy : Tidy own s) (steady : Server.Steady Session.Persists own s t) : Tidy own t where
  named := steady.named tidy.named
  foreign member := (steady.keys own member).elim tidy.foreign fun other => other.1 rfl
  held node sid held := by
    obtain ⟨created, known⟩ := tidy.held node sid ((steady.holds node sid).mp held)
    exact ⟨steady.nextSession ▸ created, by rwa [(steady.sessions sid).msg1]⟩
  slots sid node peer other running := by
    have persists := steady.sessions sid
    apply persists.closedSlots
    exact tidy.slots sid node (persists.peerNode ▸ peer) other (persists.stopped ▸ running)
  gone sid node peer stopped held := by
    have persists := steady.sessions sid
    exact tidy.gone sid node (persists.peerNode ▸ peer) (persists.stopped ▸ stopped)
      ((steady.holds node sid).mp held)

theorem tidy_create (tidy : Tidy own s) (direction : Direction) (ip : String) :
    Tidy own (s.createSession direction ip) := by
  have self := Server.createSession_self direction ip s
  have others : ∀ sid, sid ≠ s.nextSession →
      (s.createSession direction ip).store.session sid = s.store.session sid :=
    fun _ => Server.createSession_other direction ip
  refine ⟨tidy.named, tidy.foreign, ?_, ?_, ?_⟩
  · intro node sid held
    obtain ⟨created, known⟩ := tidy.held node sid held
    exact ⟨Nat.lt_succ_of_lt created, by rwa [others sid (Nat.ne_of_lt created)]⟩
  · intro sid node peer other running
    by_cases new : sid = s.nextSession
    · rw [new, self] at peer
      cases peer
    · rw [others sid new] at peer running ⊢
      exact tidy.slots sid node peer other running
  · intro sid node peer stopped
    by_cases new : sid = s.nextSession
    · rw [new, self] at peer
      cases peer
    · rw [others sid new] at peer stopped
      exact tidy.gone sid node peer stopped

theorem tidy_stop (tidy : Tidy own s) (running : (s.store.session sid).stopped = false) :
    Tidy own (s.stop sid) := by
  have closing := Server.closing_stop running
  have msg1 := Server.stop_keeps (·.msg1) (fun _ => rfl) running
  have peerNode := Server.stop_keeps Session.peerNode (fun _ => rfl) running
  have foreign : own ∉ (s.stop sid).nodeToSession := fun member => tidy.foreign ((closing.keys own).mp member)
  refine ⟨closing.named tidy.named, foreign, ?_, ?_, ?_⟩
  · intro node other held
    obtain ⟨created, known⟩ := tidy.held node other (closing.holds node other held)
    exact ⟨closing.nextSession ▸ created, by rwa [msg1]⟩
  · intro other node peer isForeign goesOn
    have different : other ≠ sid := by
      rintro rfl
      rw [Server.stop_session running, if_pos rfl] at goesOn
      cases goesOn
    rw [peerNode] at peer
    rw [Server.stop_session running, if_neg different] at goesOn ⊢
    exact tidy.slots other node peer isForeign goesOn
  · intro other node peer stopped held
    rw [peerNode] at peer
    by_cases same : other = sid
    · subst same
      by_cases isOwn : node = own
      · obtain ⟨remote, registered, _⟩ := held
        apply foreign
        exact isOwn ▸ AList.lookup_isSome.mp (by simp [registered])
      · -- the slot of the channel has run
        have slot := tidy.slots other node peer isOwn running
        rw [Server.stop_eq running] at held
        apply Server.not_holds_emitClosed _ held
        simpa [Server.withStore, Session.stop] using slot
    · rw [Server.stop_session running, if_neg same] at stopped
      exact tidy.gone other node peer stopped (closing.holds node other held)

theorem kept_tidy : Server.Kept own (Tidy own) where
  steady := tidy_steady
  create ip tidy := tidy_create tidy .incoming ip
  stop := tidy_stop

/-- The session that authenticates itself as an application is in no channel. -/
theorem tidy_application (tidy : Tidy own s)
    (unknown : (s.store.session sid).msg1 = none) {msg : Msg} (isOwn : msg.from.node = own) :
    Tidy own (s.withStore (s.store.set sid { s.store.session sid with msg1 := some msg })) := by
  generalize isKnown : s.withStore (s.store.set sid { s.store.session sid with msg1 := some msg }) = known
  have self : known.store.session sid = { s.store.session sid with msg1 := some msg } := by
    simp [← isKnown, Server.withStore]
  have others : ∀ other, other ≠ sid → known.store.session other = s.store.session other := by
    intro other different
    simp [← isKnown, Server.withStore, different]
  have peerSelf : (known.store.session sid).peerNode = some own := by
    rw [self, ← isOwn]
    rfl
  have channels : known.nodeToSession = s.nodeToSession := by rw [← isKnown]; rfl
  have holds : ∀ node other, known.holds node other ↔ s.holds node other := by
    intro node other
    rw [Server.holds, channels, Server.holds]
  refine ⟨?_, channels ▸ tidy.foreign, ?_, ?_, ?_⟩
  · intro node remote registered
    exact tidy.named node remote (channels ▸ registered)
  · intro node other held
    obtain ⟨created, marked⟩ := tidy.held node other ((holds node other).mp held)
    have different : other ≠ sid := fun same => marked (same ▸ unknown)
    exact ⟨by rwa [← isKnown], by rwa [others other different]⟩
  · intro other node peer isForeign running
    by_cases same : other = sid
    · rw [same, peerSelf, Option.some.injEq] at peer
      exact absurd peer.symm isForeign
    · rw [others other same] at peer running ⊢
      exact tidy.slots other node peer isForeign running
  · intro other node peer stopped held
    by_cases same : other = sid
    · obtain ⟨_, marked⟩ := tidy.held node other ((holds node other).mp held)
      exact marked (same ▸ unknown)
    · rw [others other same] at peer stopped
      exact tidy.gone other node peer stopped ((holds node other).mp held)

/-- A channel is changed for one session, which has got the slot that it needs. -/
theorem tidy_setRemote (tidy : Tidy own s) (created : sid < s.nextSession) {node : String}
    {changed : Remote} {after : Sessions} (isForeign : node ≠ own) (name : changed.node = node)
    (holds : ∀ other, changed.Holds other → s.holds node other ∨ other = sid)
    (others : ∀ other ≠ sid, (s.store.session other).Persists (after.session other))
    (known : (after.session sid).msg1 ≠ none)
    (slot : ∀ peer, (after.session sid).peerNode = some peer → peer ≠ own →
      (after.session sid).stopped = false → .remote peer ∈ (after.session sid).closedSlots)
    (gone : ∀ peer, (after.session sid).peerNode = some peer → (after.session sid).stopped = true →
      ¬ (s.setRemote node (changed, after)).holds peer sid) :
    Tidy own (s.setRemote node (changed, after)) := by
  have before : ∀ peer other, other ≠ sid → (s.setRemote node (changed, after)).holds peer other →
      s.holds peer other := by
    intro peer other different held
    rw [Server.holds_setRemote] at held
    split at held
    next same => exact same ▸ (holds other held).resolve_right different
    next => exact held
  refine ⟨?_, ?_, ?_, ?_, ?_⟩
  · intro peer remote registered
    rw [Server.lookup_setRemote] at registered
    split at registered
    next same =>
      cases registered
      exact name.trans same.symm
    next => exact tidy.named peer remote registered
  · intro member
    rcases (AList.mem_insert _).mp member with same | member
    · exact isForeign same.symm
    · exact tidy.foreign member
  · intro peer other held
    by_cases same : other = sid
    · exact same ▸ ⟨created, known⟩
    · obtain ⟨old, marked⟩ := tidy.held peer other (before peer other same held)
      exact ⟨old, by rwa [Server.setRemote_store, (others other same).msg1]⟩
  · intro other peer isPeer foreign running
    by_cases same : other = sid
    · subst same
      exact slot peer isPeer foreign running
    · have persists := others other same
      apply persists.closedSlots
      exact tidy.slots other peer (persists.peerNode ▸ isPeer) foreign (persists.stopped ▸ running)
  · intro other peer isPeer stopped held
    by_cases same : other = sid
    · subst same
      exact gone peer isPeer stopped held
    · have persists := others other same
      exact tidy.gone other peer (persists.peerNode ▸ isPeer) (persists.stopped ▸ stopped)
        (before peer other same held)

theorem tidy_dispatchMsg (lawful : json.Lawful) (tidy : Tidy config.nodeName s)
    (created : sid < s.nextSession) {header : PTree} {body : Body}
    (peace : (s.store.session sid).stopped = true →
      ¬ GivesPlace json config s sid (.incoming config header body (some sid))) :
    (s.dispatchMsg json config sid header body).All (Tidy config.nodeName) := by
  generalize isMsg : Msg.incoming config header body (some sid) = msg at peace
  generalize isKnown : s.withStore (s.store.set sid { s.store.session sid with msg1 := some msg }) = known
  have self : known.store.session sid = { s.store.session sid with msg1 := some msg } := by
    simp [← isKnown, Server.withStore]
  have peer : (known.store.session sid).peerNode = some msg.from.node := by
    rw [self]
    rfl
  apply kept_tidy.dispatchMsg isMsg.symm isKnown.symm (fun _ => tidy)
  · intro unknown _ isLocal t steady
    have isOwn : msg.from.node = config.nodeName := by
      simpa [Msg.fromLocal, UConfig.isLocalNode] using isLocal
    have after := tidy_steady (isKnown ▸ tidy_application tidy unknown isOwn) steady
    exact ⟨after.named, after.foreign, after.held, after.slots, after.gone⟩
  · intro unknown passed isRemote changed after final
    have isForeign : msg.from.node ≠ config.nodeName := by
      simpa [Msg.fromLocal, UConfig.isLocalNode] using isRemote
    have persist := Remote.carries_addSession Session.carried_persists lawful peer final
    obtain ⟨name, slot⟩ := Remote.slot_addSession lawful peer final
    have named := Server.node_getD (tidy.named msg.from.node)
    have afterPeer : (after.session sid).peerNode = some msg.from.node := (persist sid).peerNode.trans peer
    have sameServer : known.setRemote msg.from.node (changed, after) =
        s.setRemote msg.from.node (changed, after) := by rw [← isKnown]; rfl
    rw [sameServer]
    apply tidy_setRemote tidy created isForeign (name.trans named)
    · intro other held
      exact (Remote.holds_addSession lawful final held).imp (Server.holds_getD s _ other).mp id
    · intro other different
      have same : known.store.session other = s.store.session other := by
        simp [← isKnown, Server.withStore, different]
      exact same ▸ persist other
    · rw [(persist sid).msg1, self]
      exact Option.some_ne_none msg
    · intro node isNode _ _
      obtain rfl := Option.some.inj (afterPeer.symm.trans isNode)
      exact named ▸ slot
    · intro node isNode stopped held
      obtain rfl := Option.some.inj (afterPeer.symm.trans isNode)
      rw [Server.holds_setRemote, if_pos rfl] at held
      have direction : (fun other => (known.store.session other).direction) =
          fun other => (s.store.session other).direction := by
        rw [← isKnown]
        exact funext (Sessions.set_congr (·.direction) rfl)
      rcases (Remote.holds_addSession_iff lawful peer final).mp held with before | offered
      · exact (tidy.held _ sid ((Server.holds_getD s _ sid).mp before)).2 unknown
      · rw [direction] at offered
        have stopped : (s.store.session sid).stopped = true := by
          rw [(persist sid).stopped, self] at stopped
          exact stopped
        exact peace stopped (.inl ⟨unknown, passed, isRemote, offered⟩)
  · intro authenticated mine isPriority remote left changed after registered final
    have persist := Remote.carries_handlePriorityMsg Session.carried_persists final
    have member : msg.from.node ∈ s.nodeToSession := AList.lookup_isSome.mp (by simp [registered])
    have isForeign : msg.from.node ≠ config.nodeName := fun same => tidy.foreign (same ▸ member)
    have name := (Remote.node_handlePriorityMsg final).trans (tidy.named _ remote registered)
    apply tidy_setRemote tidy created isForeign name
    · intro other held
      rcases Remote.holds_handlePriorityMsg final held with before | ⟨origin, _⟩
      · exact .inl ⟨remote, registered, before⟩
      · rw [← isMsg, Msg.incoming_origin] at origin
        exact .inr (Option.some.inj origin).symm
    · exact fun other _ => persist other
    · rw [(persist sid).msg1]
      exact Option.isSome_iff_ne_none.mp authenticated
    · intro node isNode foreign running
      apply (persist sid).closedSlots
      exact tidy.slots sid node ((persist sid).peerNode ▸ isNode) foreign ((persist sid).stopped ▸ running)
    · intro node isNode stopped held
      rw [(persist sid).peerNode] at isNode
      rw [(persist sid).stopped] at stopped
      rw [Server.holds_setRemote] at held
      split at held
      next same =>
        rcases Remote.holds_handlePriorityMsg final held with before | ⟨_, _, _, assigned⟩
        · exact tidy.gone sid node isNode stopped (same ▸ ⟨remote, registered, before⟩)
        · exact peace stopped (.inr ⟨same ▸ isNode, mine, isPriority, member, assigned⟩)
      next => exact tidy.gone sid node isNode stopped held

end Tidy

/-! ## Stopped sessions that get a place -/

/-- A stopped session is in the channel of its node. -/
structure Revived (sid : SessionId) (node : String) (s : Server) : Prop where
  stopped : (s.store.session sid).stopped = true
  peer : (s.store.session sid).peerNode = some node
  held : s.holds node sid

section Revived

variable {json : JsonCodec} {config : UConfig} {own node : String} {s t : Server} {sid : SessionId}

theorem revived_steady (revived : Revived sid node s) (steady : Server.Steady Session.Persists own s t) :
    Revived sid node t :=
  ⟨(steady.sessions sid).stopped.trans revived.stopped, (steady.sessions sid).peerNode.trans revived.peer,
    (steady.holds node sid).mpr revived.held⟩

theorem revived_readFailed (revived : Revived sid node s) : Revived sid node (s.readFailed sid) := by
  have idle : Revived sid node (s.setReading sid .idle) :=
    @revived_steady node node s (s.setReading sid .idle) sid revived
      (Server.steady_set ⟨rfl, rfl, rfl, rfl, List.Subset.refl _⟩)
  rw [Server.readFailed, Server.stop, if_pos idle.stopped]
  exact idle

theorem revived_dispatchMsg (lawful : json.Lawful) (tidy : Tidy config.nodeName s)
    (stopped : (s.store.session sid).stopped = true) {header : PTree} {body : Body}
    (gives : GivesPlace json config s sid (.incoming config header body (some sid))) :
    (s.dispatchMsg json config sid header body).All fun t => ∃ node, Revived sid node t := by
  generalize isMsg : Msg.incoming config header body (some sid) = msg at gives
  rcases gives with ⟨unknown, passed, isRemote, offered⟩ | ⟨peer, mine, named, member, tree, parsed, role⟩
  · generalize isKnown : s.withStore (s.store.set sid { s.store.session sid with msg1 := some msg }) = known
    have self : known.store.session sid = { s.store.session sid with msg1 := some msg } := by
      simp [← isKnown, Server.withStore]
    have peer : (known.store.session sid).peerNode = some msg.from.node := by
      rw [self]
      rfl
    have direction : (fun other => (known.store.session other).direction) =
        fun other => (s.store.session other).direction := by
      rw [← isKnown]
      exact funext (Sessions.set_congr (·.direction) rfl)
    apply (Server.dispatchMsg_enters isMsg.symm isKnown.symm unknown passed isRemote).mono
    rintro _ ⟨changed, after, final, rfl⟩
    have persists := Remote.carries_addSession Session.carried_persists lawful peer final sid
    refine ⟨msg.from.node, ?_, persists.peerNode.trans peer, ?_⟩
    · rw [Server.setRemote_store, persists.stopped, self]
      exact stopped
    · rw [Server.holds_setRemote, if_pos rfl, Remote.holds_addSession_iff lawful peer final, direction]
      exact .inr offered
  · obtain ⟨remote, registered⟩ := Option.isSome_iff_exists.mp (AList.lookup_isSome.mpr member)
    have known : (s.store.session sid).authenticated = true := by
      obtain ⟨msg1, known, _⟩ := Option.map_eq_some_iff.mp peer
      exact Option.isSome_iff_exists.mpr ⟨msg1, known⟩
    apply (Server.dispatchMsg_assigns isMsg.symm known mine named registered).mono
    rintro t ⟨left, changed, after, final, steady⟩
    have persists := Remote.carries_handlePriorityMsg Session.carried_persists final sid
    refine ⟨msg.from.node, revived_steady ⟨persists.stopped.trans stopped, persists.peerNode.trans peer, ?_⟩
      steady⟩
    have free : ∀ role, remote.slot role ≠ some sid := fun role taken =>
      tidy.gone sid _ peer stopped ⟨remote, registered, .inr ⟨role, taken⟩⟩
    rw [Server.holds_setRemote, if_pos rfl]
    refine Remote.holds_assigned ?_ (free .high) (free .low) parsed role final
    rw [← isMsg, Msg.incoming_origin]

end Revived

/-! ## Runs -/

section Runs

variable {json : JsonCodec} {config : UConfig} {pid : Nat} {c d : Chronicle} {e : ServerEvent}

/-- The invariant of the runs that leave stopped sessions in peace. -/
structure Resting (own : String) (c : Chronicle) : Prop where
  counted : c.Counted
  tidy : Tidy own c.server

theorem Resting.buried {own : String} (resting : Resting own c) : Buried c := by
  intro sid
  rw [resting.counted sid]
  split
  next ended => exact ⟨Nat.le_refl 1, fun _ node peer => resting.tidy.gone sid node peer ended.2⟩
  next => exact ⟨Nat.zero_le 1, nofun⟩

theorem resting_step (lawful : json.Lawful) (resting : Resting config.nodeName c)
    (next : c.step json config pid e = some d) (peace : LeavesInPeace json config c e) :
    Resting config.nodeName d := by
  refine ⟨Chronicle.counted_step lawful resting.counted next, ?_⟩
  apply kept_tidy.step (fun ip tidy => tidy_create tidy .outgoing ip)
    (fun _ tidy => ⟨tidy.named, tidy.foreign, tidy.held, tidy.slots, tidy.gone⟩) resting.tidy
    (Chronicle.step_server next)
  rintro sid header body rfl created _
  exact tidy_dispatchMsg lawful resting.tidy created peace

/-- A message that gets a stopped session a place leaves it in the channel of its node. -/
theorem revived_step (lawful : json.Lawful) (resting : Resting config.nodeName c)
    (next : c.step json config pid e = some d) (disturbed : ¬ LeavesInPeace json config c e) :
    ¬ Buried d := by
  have counted := Chronicle.counted_step lawful resting.counted next
  cases e with
  | received sid header body =>
    simp only [LeavesInPeace, Classical.not_imp, not_not] at disturbed
    obtain ⟨stopped, gives⟩ := disturbed
    have dispatched := revived_dispatchMsg lawful resting.tidy stopped gives
    obtain ⟨created, handled⟩ := Server.received_cases (Chronicle.step_server next)
    have revived : ∃ node, Revived sid node d.server := by
      rcases handled with done | ⟨u, raised, isRead⟩
      · rw [done] at dispatched
        exact dispatched
      · rw [raised] at dispatched
        obtain ⟨node, revived⟩ := dispatched
        exact ⟨node, isRead ▸ revived_readFailed revived⟩
    obtain ⟨node, revived⟩ := revived
    have ended : d.server.ended sid := Chronicle.ended_step lawful next ⟨created, stopped⟩
    intro buried
    have emitted : 0 < d.closings sid := by
      rw [counted sid, if_pos ended]
      exact Nat.one_pos
    exact (buried sid).2 emitted node revived.peer revived.held
  | _ => exact absurd trivial disturbed

/-- The runs of a server in which every session closes once at most, and no channel holds a session of
its node after that, are exactly those in which no message of a stopped session gets it a place. -/
theorem burial_runs_iff (lawful : json.Lawful) (config : UConfig) (now : Nat) (remotes : List String)
    (events : List ServerEvent) :
    Always (Chronicle.step json config pid) Buried (.initial config now remotes) events ↔
      Meets (Chronicle.step json config pid) (LeavesInPeace json config) (.initial config now remotes)
        events := by
  apply @always_iff_meets _ _ _ (Resting config.nodeName)
  · exact Resting.buried
  · exact resting_step lawful
  · exact revived_step lawful
  · refine ⟨Chronicle.counted_initial now remotes, nofun, nofun, ?_, nofun, nofun⟩
    rintro node sid ⟨remote, registered, _⟩
    cases registered

end Runs

/-- The userver of `alpha` connects to that of `beta`, and the connection breaks. -/
theorem burial_runs_broken_connection :
    Always (Chronicle.step Json.compactJson ⟨"beta", "userver"⟩ 1) Buried
      (.initial ⟨"beta", "userver"⟩ 0 [])
      [.accept "10.0.0.7", .received 0 (serviceHeader ⟨"alpha", "userver"⟩ "auth") (.tree .empty),
        .written 0 0 false] := by
  apply (burial_runs_iff Json.compactJson_lawful _ 0 [] _).mpr
  rintro c ⟨rfl⟩
  refine ⟨trivial, ?_⟩
  rintro d ⟨rfl⟩
  refine ⟨fun stopped => absurd stopped (by decide), ?_⟩
  rintro t ⟨rfl⟩
  exact ⟨trivial, trivial⟩

/-- The message of `alpha` has been read, but the write to it fails before the message is handled: the
session that has just been closed becomes the high priority session of `alpha`. -/
theorem closed_session_takes_slot :
    ¬ Always (Chronicle.step Json.compactJson ⟨"beta", "userver"⟩ 1) Buried
      (.initial ⟨"beta", "userver"⟩ 0 [])
      [.accept "10.0.0.7", .written 0 0 false,
        .received 0 (serviceHeader ⟨"alpha", "userver"⟩ "auth") (.tree .empty)] := by
  intro always
  have reached : exec (Chronicle.step Json.compactJson ⟨"beta", "userver"⟩ 1)
      (.initial ⟨"beta", "userver"⟩ 0 [])
      [.accept "10.0.0.7", .written 0 0 false,
        .received 0 (serviceHeader ⟨"alpha", "userver"⟩ "auth") (.tree .empty)] = some _ := rfl
  exact (always.last reached 0).2 (by decide) "alpha" rfl ⟨_, rfl, .inr ⟨.high, rfl⟩⟩

end Verified.DeadSessions

end Uzel
