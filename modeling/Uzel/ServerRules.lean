import Uzel.Foundation.Runs
import Uzel.Server

/-! # Rules for the invariants of a server

Most of what a server does is `Steady`: its sessions write, read and are told to close, and messages
are routed.  Apart from that it creates sessions, stops them, authenticates them and gives them
roles.  `Kept` lists what an invariant has to do with the first three of these, and `Kept.step` is the
rule for a step; the messages of a session have a rule of their own, `Kept.dispatchMsg`.
-/

namespace Uzel

open Foundation

/-- A relation between a session and what becomes of it that the calls on its queue keep, and that does
not depend on whether the session is to be closed or on further slots of its `s_closed`. -/
structure Session.Carried (R : Session → Session → Prop) : Prop where
  refl : ∀ ss, R ss ss
  trans : ∀ {ss after third}, R ss after → R after third → R ss third
  appended : ∀ (ss : Session) now msgs, R ss (ss.append now msgs)
  emptied : ∀ ss : Session, R ss { ss with outQueue := [] }
  bye : ∀ (ss : Session) text, R ss (ss.asyncWrite .bye text)
  flagged : ∀ (ss : Session) reason, R ss { ss with reason, closeFlag := true }
  connected : ∀ (ss : Session) slot, R ss { ss with closedSlots := ss.closedSlots ++ [slot] }

/-- The session is still the same one, and as far as it was. -/
structure Session.Persists (ss after : Session) : Prop where
  direction : after.direction = ss.direction
  remoteIp : after.remoteIp = ss.remoteIp
  msg1 : after.msg1 = ss.msg1
  stopped : after.stopped = ss.stopped
  closedSlots : ss.closedSlots ⊆ after.closedSlots

theorem Session.Persists.peerNode {ss after : Session} (persists : ss.Persists after) :
    after.peerNode = ss.peerNode := by
  rw [Session.peerNode, persists.msg1, Session.peerNode]

namespace Session

/-- The relation does not depend on the queue at all. -/
theorem Carried.of_endpoint {R : Session → Session → Prop}
    (trans : ∀ {ss after third}, R ss after → R after third → R ss third)
    (endpoint : ∀ {ss after : Session}, after.toEndpoint = ss.toEndpoint → R ss after)
    (flagged : ∀ (ss : Session) reason, R ss { ss with reason, closeFlag := true })
    (connected : ∀ (ss : Session) slot, R ss { ss with closedSlots := ss.closedSlots ++ [slot] }) :
    Carried R :=
  ⟨fun _ => endpoint rfl, trans, fun _ _ _ => endpoint (by simp), fun _ => endpoint rfl,
    fun _ _ => endpoint rfl, flagged, connected⟩

theorem Persists.of_endpoint {ss after : Session} (same : after.toEndpoint = ss.toEndpoint) :
    ss.Persists after :=
  ⟨congrArg Endpoint.direction same, congrArg Endpoint.remoteIp same, congrArg Endpoint.msg1 same,
    congrArg Endpoint.stopped same, fun _ slot => (congrArg Endpoint.closedSlots same).symm ▸ slot⟩

theorem carried_persists : Carried Persists := by
  apply Carried.of_endpoint
  · exact fun first second =>
      ⟨second.direction.trans first.direction, second.remoteIp.trans first.remoteIp,
        second.msg1.trans first.msg1, second.stopped.trans first.stopped,
        List.Subset.trans first.closedSlots second.closedSlots⟩
  · exact Persists.of_endpoint
  · exact fun _ _ => ⟨rfl, rfl, rfl, rfl, List.Subset.refl _⟩
  · exact fun _ _ => ⟨rfl, rfl, rfl, rfl, List.subset_append_left _ _⟩

theorem persists_reading (ss : Session) (reading : ReadOp) : ss.Persists { ss with reading } :=
  ⟨rfl, rfl, rfl, rfl, List.Subset.refl _⟩

theorem carried_reading : Carried fun ss after => after.reading = ss.reading :=
  .of_endpoint (fun first second => second.trans first) (congrArg Endpoint.reading) (fun _ _ => rfl)
    fun _ _ => rfl

theorem carried_processor : Carried fun ss after => after.processor = ss.processor :=
  .of_endpoint (fun first second => second.trans first) (congrArg Endpoint.processor) (fun _ _ => rfl)
    fun _ _ => rfl

/-- A relation between a session and what becomes of it that nothing in the life of a session breaks. -/
structure Lasting (R : Session → Session → Prop) : Prop where
  trans : ∀ {ss after third}, R ss after → R after third → R ss third
  same : ∀ {ss after : Session}, after.toEndpoint = ss.toEndpoint → R ss after
  flagged : ∀ (ss : Session) reason, R ss { ss with reason, closeFlag := true }
  connected : ∀ (ss : Session) slot, R ss { ss with closedSlots := ss.closedSlots ++ [slot] }
  connecting : ∀ (ss : Session) connecting, R ss { ss with connecting }
  reading : ∀ (ss : Session) reading, R ss { ss with reading }
  processor : ∀ (ss : Session) processor, R ss { ss with processor }
  marked : ∀ (ss : Session) msg, ss.msg1 = none → R ss { ss with msg1 := some msg }
  stopped : ∀ ss : Session, R ss ss.stop

theorem Lasting.carried {R : Session → Session → Prop} (lasting : Lasting R) : Carried R :=
  .of_endpoint lasting.trans lasting.same lasting.flagged lasting.connected

namespace Carried

variable {R : Session → Session → Prop}

theorem enqueue (carried : Carried R) (ss : Session) (now : Nat) (msg : QueuedMsg) :
    R ss (ss.enqueue now msg) := by
  rw [enqueue_eq_append]
  exact carried.appended ss now [msg]

theorem gracefullClose (carried : Carried R) (json : JsonCodec) (config : UConfig) (reason : String)
    (ss : Session) : (ss.gracefullClose json config reason).All (R ss) := by
  have flagged := carried.flagged ss reason
  simp only [Session.gracefullClose, Session.sendByeAndClose]
  split
  · exact carried.refl ss
  · split
    · split
      · exact flagged
      next text _ => exact carried.trans flagged (carried.bye _ text)
    · exact flagged

end Carried

end Session

namespace Sessions

/-- All sessions are related to what has become of them. -/
def Carries (R : Session → Session → Prop) (store after : Sessions) : Prop :=
  ∀ sid, R (store.session sid) (after.session sid)

/-- All sessions persist. -/
abbrev Persist (store after : Sessions) : Prop := Carries Session.Persists store after

section Carries

variable {R : Session → Session → Prop} (carried : Session.Carried R)

include carried

theorem Carries.refl (store : Sessions) : Carries R store store :=
  fun sid => carried.refl (store.session sid)

theorem Carries.trans {first second third : Sessions} (before : Carries R first second)
    (after : Carries R second third) : Carries R first third :=
  fun sid => carried.trans (before sid) (after sid)

/-- It is enough to look at the session that is called. -/
theorem Carries.of_set {store : Sessions} {sid : SessionId} {ss : Session}
    (related : R (store.session sid) ss) : Carries R store (store.set sid ss) := by
  intro other
  by_cases same : other = sid
  · subst same
    simpa using related
  · simpa [same] using carried.refl (store.session other)

theorem carries_connectClosed (sid : SessionId) (slot : ClosedSlot) (store : Sessions) :
    store.Carries R (store.connectClosed sid slot) :=
  .of_set carried (carried.connected _ _)

theorem carries_putOutQueue (json : JsonCodec) (sid : SessionId) (msg : Msg) (store : Sessions) :
    (store.putOutQueue json sid msg).All (store.Carries R) := by
  unfold putOutQueue Session.putOutQueue
  cases QueuedMsg.ofMsg json store.now store.nextMsg msg with
  | none => exact Carries.of_set carried (carried.refl _)
  | some queued => exact Carries.of_set carried (carried.enqueue _ _ _)

theorem carries_gracefullClose (json : JsonCodec) (config : UConfig) (sid : SessionId) (reason : String)
    (store : Sessions) : (store.gracefullClose json config sid reason).All (store.Carries R) := by
  apply Outcome.all_map.mpr
  exact (carried.gracefullClose json config reason (store.session sid)).mono
    fun _ => Carries.of_set carried

theorem carries_takeOverQueue (sid : SessionId) (oq : MsgQueue) (store : Sessions) :
    (store.takeOverQueue sid oq).All (store.Carries R) := by
  apply Outcome.all_of_final
  intro after final
  obtain ⟨ss, returned, rfl⟩ := takeOverQueue_final final
  rw [(Session.takeOverMessages_eq_some.mp returned).2]
  exact Carries.of_set carried (carried.appended _ _ _)

theorem carries_takeOverSession (sid os : SessionId) (store : Sessions) :
    (store.takeOverSession sid os).All (store.Carries R) := by
  unfold takeOverSession
  split
  · split
    · exact Carries.refl carried store
    · trivial
  · apply Outcome.all_map.mpr
    apply (carries_takeOverQueue carried sid (store.session os).outQueue store).mono
    intro after taken
    exact taken.trans carried (.of_set carried (carried.emptied _))

end Carries

theorem persist_set {store : Sessions} {sid : SessionId} {ss : Session}
    (persists : (store.session sid).Persists ss) : Persist store (store.set sid ss) :=
  .of_set Session.carried_persists persists

theorem carries_start {R : Session → Session → Prop} (carried : Session.Carried R)
    (reading : ∀ (ss : Session) reading, R ss { ss with reading }) (json : JsonCodec)
    (config : UConfig) (pid : Nat) (sid : SessionId) (store : Sessions) :
    (store.start json config pid sid).All (store.Carries R) := by
  unfold start Session.start Session.putOutQueue
  cases QueuedMsg.ofMsg json store.now store.nextMsg (Session.authMsg config pid) with
  | none => exact Carries.of_set carried (carried.refl _)
  | some queued =>
    have enqueued := carried.enqueue (store.session sid) store.now queued
    exact Carries.of_set carried (carried.trans enqueued (reading _ _))

/-- Taking over the messages of another session does not raise. -/
theorem takeOverSession_returns (sid os : SessionId) (store : Sessions) :
    (∃ after, store.takeOverSession sid os = .done after) ∨ store.takeOverSession sid os = .hung := by
  unfold takeOverSession takeOverQueue
  split
  · split
    · exact .inl ⟨store, rfl⟩
    · exact .inr rfl
  · cases (store.session sid).takeOverMessages store.now (store.session os).outQueue with
    | none => exact .inr rfl
    | some ss => exact .inl ⟨_, rfl⟩

end Sessions

namespace Remote

variable {json : JsonCodec} {config : UConfig} {sid : SessionId}

section Carries

variable {R : Session → Session → Prop} (carried : Session.Carried R)

include carried

theorem carries_flush (oq : MsgQueue) (rebuild : Sessions → Remote × Sessions)
    (same : ∀ store, (rebuild store).2 = store) (store : Sessions) :
    ((store.takeOverQueue sid oq).map rebuild).All fun channel => store.Carries R channel.2 := by
  apply Outcome.all_map.mpr
  apply (Sessions.carries_takeOverQueue carried sid oq store).mono
  intro after carries
  rw [same]
  exact carries

theorem carries_announced (queued : QueuedMsg) (remote : Remote) (store : Sessions) :
    store.Carries R (remote.announced sid queued store) := by
  apply (Sessions.carries_connectClosed carried sid (.remote remote.node) store).trans carried
  exact Sessions.Carries.of_set carried (carried.enqueue _ _ _)

theorem carries_addSession (lawful : json.Lawful) {remote changed : Remote} {store after : Sessions}
    {peer : String} (known : (store.session sid).peerNode = some peer)
    (final : (remote.addSession json config sid store).final = some (changed, after)) :
    store.Carries R after := by
  have adds := adds_addSession lawful config remote known
  generalize remote.addSession json config sid store = outcome at adds final
  have connected := Sessions.carries_connectClosed carried sid (.remote remote.node) store
  cases adds with
  | waits =>
    cases final
    exact connected
  | @high _ _ queued =>
    exact (carries_announced carried queued remote store).trans carried
      ((carries_flush carried _ _ (fun _ => rfl) _).of_final final)
  | @low _ _ _ queued =>
    exact (carries_announced carried queued remote store).trans carried
      ((carries_flush carried _ _ (fun _ => rfl) _).of_final final)
  | @control _ _ _ queued =>
    cases final
    exact carries_announced carried queued remote store
  | duplicate _ _ closed =>
    cases final
    have closes := Sessions.carries_gracefullClose carried json config sid "duplicated connection"
      (store.connectClosed sid (.remote remote.node))
    rw [closed] at closes
    exact connected.trans carried closes

theorem carries_handlePriorityMsg {msg left : Msg} {remote changed : Remote} {store after : Sessions}
    (final : (remote.handlePriorityMsg json config msg store).final = some (left, changed, after)) :
    store.Carries R after := by
  rcases handlePriorityMsg_cases final with ⟨_, _, rfl⟩ | ⟨sid, _, ⟨_, _, rfl⟩ | assigned⟩
  · exact .refl carried after
  · exact .refl carried after
  · obtain ⟨_, _, body, _, ⟨_, _, closes⟩ | ⟨_, _, closes⟩⟩ := assigned
    · exact (Sessions.carries_gracefullClose carried json config sid _ store).of_final closes
    · unfold closeOvertaken at closes
      split at closes
      · cases closes
        exact .refl carried _
      next old _ =>
        exact (Sessions.carries_gracefullClose carried json config old _ store).of_final closes

theorem carries_send {msg : Msg} {remote changed : Remote} {store after : Sessions}
    (final : (remote.send json msg store).final = some (changed, after)) : store.Carries R after := by
  rcases send_cases final with ⟨_, _, rfl⟩ | ⟨queued, _, ⟨high, _, _, _, put⟩ | ⟨_, _, rfl⟩⟩
  · exact .refl carried after
  · exact (Sessions.carries_putOutQueue carried json high msg store).of_final put
  · exact .refl carried store

end Carries

/-- Sending neither gives nor takes a place in the channel. -/
theorem holds_send {msg : Msg} {remote changed : Remote} {store after : Sessions}
    (final : (remote.send json msg store).final = some (changed, after)) :
    changed.node = remote.node ∧ ∀ sid, changed.Holds sid ↔ remote.Holds sid := by
  rcases send_cases final with ⟨_, rfl, _⟩ | ⟨queued, _, ⟨_, _, _, rfl, _⟩ | ⟨_, rfl, _⟩⟩
  · exact ⟨rfl, fun _ => Iff.rfl⟩
  · exact ⟨rfl, fun _ => Iff.rfl⟩
  · exact ⟨rfl, fun _ => Iff.rfl⟩

theorem not_holds_onSessionClosed (sid : SessionId) (remote : Remote) :
    ¬ (remote.onSessionClosed sid).Holds sid := by
  rintro (waiting | ⟨role, taken⟩)
  · exact Finset.notMem_erase sid _ waiting
  · rw [slot_onSessionClosed] at taken
    split at taken
    next => cases taken
    next other => exact other taken

end Remote

namespace Server

/-- A channel is registered under the name it has. -/
def Named (s : Server) : Prop := ∀ node remote, s.nodeToSession.lookup node = some remote → remote.node = node

/-- No session is created, stopped, authenticated or given a role; only channels to other nodes may
be opened. -/
structure Steady (R : Session → Session → Prop) (own : String) (s t : Server) : Prop where
  sessions : s.store.Carries R t.store
  registry : t.ipToSession = s.ipToSession
  locals : t.locals = s.locals
  holds : ∀ node sid, t.holds node sid ↔ s.holds node sid
  keys : ∀ node ∈ t.nodeToSession, node ∈ s.nodeToSession ∨ (node ≠ own ∧ node ≠ "")
  kept : ∀ node ∈ s.nodeToSession, node ∈ t.nodeToSession
  named : s.Named → t.Named
  nextSession : t.nextSession = s.nextSession
  outman : t.outman = s.outman

section Steady

variable {R : Session → Session → Prop} {own : String} {json : JsonCodec} {config : UConfig} {s t u : Server}

theorem Steady.refl (carried : Session.Carried R) (s : Server) : Steady R own s s :=
  ⟨.refl carried s.store, rfl, rfl, fun _ _ => Iff.rfl, fun _ => .inl, fun _ => id, id, rfl, rfl⟩

theorem Steady.trans (carried : Session.Carried R) (first : Steady R own s t) (second : Steady R own t u) :
    Steady R own s u where
  sessions := first.sessions.trans carried second.sessions
  registry := second.registry.trans first.registry
  locals := second.locals.trans first.locals
  holds node sid := (second.holds node sid).trans (first.holds node sid)
  keys node member := (second.keys node member).elim (first.keys node) .inr
  kept node member := second.kept node (first.kept node member)
  named := second.named ∘ first.named
  nextSession := second.nextSession.trans first.nextSession
  outman := second.outman.trans first.outman

/-- Only the sessions have changed, if anything. -/
theorem steady_store {store : Sessions} (carries : s.store.Carries R store) :
    Steady R own s (s.withStore store) :=
  ⟨carries, rfl, rfl, fun _ _ => Iff.rfl, fun _ => .inl, fun _ => id, id, rfl, rfl⟩

theorem steady_set {sid : SessionId} {ss : Session} (persists : (s.store.session sid).Persists ss) :
    Steady Session.Persists own s (s.withStore (s.store.set sid ss)) :=
  steady_store (Sessions.persist_set persists)

/-- A call on a channel that leaves the places in it alone. -/
theorem steady_setRemote {node : String} {changed : Remote} {store : Sessions}
    (carries : s.store.Carries R store) (known : node ∈ s.nodeToSession ∨ (node ≠ own ∧ node ≠ ""))
    (named : (∀ remote, s.nodeToSession.lookup node = some remote → remote.node = node) →
      changed.node = node)
    (holds : ∀ sid, changed.Holds sid ↔ s.holds node sid) :
    Steady R own s (s.setRemote node (changed, store)) where
  sessions := carries
  registry := rfl
  locals := rfl
  holds other sid := by
    rw [holds_setRemote]
    split
    next same => rw [same]; exact holds sid
    next => exact Iff.rfl
  keys other member := by
    rcases (AList.mem_insert _).mp member with rfl | before
    · exact known
    · exact .inl before
  kept other member := (AList.mem_insert _).mpr (.inr member)
  named := by
    intro before other remote registered
    rw [lookup_setRemote] at registered
    split at registered
    next same =>
      cases registered
      rw [same]
      exact named (before node)
    next => exact before other remote registered
  nextSession := rfl
  outman := rfl

theorem holds_getD (s : Server) (node : String) (sid : SessionId) :
    ((s.nodeToSession.lookup node).getD (.new node)).Holds sid ↔ s.holds node sid := by
  unfold holds
  cases s.nodeToSession.lookup node with
  | none => simpa using Remote.not_holds_new node sid
  | some remote => simp

theorem node_getD {node : String}
    (named : ∀ remote, s.nodeToSession.lookup node = some remote → remote.node = node) :
    ((s.nodeToSession.lookup node).getD (.new node)).node = node := by
  cases registered : s.nodeToSession.lookup node with
  | none => rfl
  | some remote => exact named remote registered

theorem steady_putOutQueue (carried : Session.Carried R) (sid : SessionId) (msg : Msg) (s : Server) :
    (s.putOutQueue json sid msg).All (Steady R own s) := by
  apply Outcome.all_map.mpr
  exact (Sessions.carries_putOutQueue carried json sid msg s.store).mono fun _ => steady_store

theorem steady_sendTo (carried : Session.Carried R) {node : String}
    (known : node ∈ s.nodeToSession ∨ (node ≠ own ∧ node ≠ "")) (msg : Msg) :
    (s.sendTo json node msg).All (Steady R own s) := by
  apply Outcome.all_map.mpr
  apply Outcome.all_of_final
  rintro ⟨changed, after⟩ final
  obtain ⟨name, holds⟩ := Remote.holds_send final
  apply steady_setRemote (Remote.carries_send carried final) known
  · intro named
    exact name.trans (node_getD named)
  · exact fun sid => (holds sid).trans (holds_getD s node sid)

/-- The node that a message for a remote node names. -/
theorem remote_dest {nodeName : String} {header : PTree}
    (remote : Msg.destTypeOf nodeName header = .remote) :
    header.get ["to", "n"] "" ≠ nodeName ∧ header.get ["to", "n"] "" ≠ "" := by
  simp only [Msg.destTypeOf] at remote
  split_ifs at remote with _ empty same
  exact ⟨same, empty⟩

/-- A message is routed to the nodes of channels, or to the node that it names. -/
theorem steady_handleAny (carried : Session.Carried R) {msg : Msg}
    (names : msg.destType = .remote → msg.dest.node ≠ config.nodeName ∧ msg.dest.node ≠ "")
    (s : Server) : (handleAny json msg s).All fun after => Steady R config.nodeName s after.2 := by
  apply all_handleAny (P := Steady R config.nodeName s) (.refl carried s)
  · intro _ sid t _ steady
    exact (steady_putOutQueue carried sid msg t).mono fun _ => steady.trans carried
  · intro node t goal steady
    have known : node ∈ t.nodeToSession ∨ (node ≠ config.nodeName ∧ node ≠ "") := by
      rcases goal with ⟨kind, rfl⟩ | member
      · exact .inr (names kind)
      · exact .inl (steady.kept node (AList.mem_keys.mpr member))
    exact (steady_sendTo carried known msg).mono fun _ => steady.trans carried

end Steady

/-! ## New sessions and the end of a session -/

section Sessions

variable {s t u : Server} {sid : SessionId}

theorem createSession_self (direction : Direction) (ip : String) (s : Server) :
    (s.createSession direction ip).store.session s.nextSession =
      { Session.new direction ip with closedSlots := [.registry] } := by
  simp [createSession, onSessionCreated, Sessions.connectClosed, Session.new]

theorem createSession_other (direction : Direction) (ip : String) (old : sid ≠ s.nextSession) :
    (s.createSession direction ip).store.session sid = s.store.session sid := by
  simp [createSession, onSessionCreated, Sessions.connectClosed, old]

theorem createSession_ipToSession (direction : Direction) (ip : String) (s : Server) :
    (s.createSession direction ip).ipToSession =
      Function.update s.ipToSession ip ((s.ipToSession ip).insert s.nextSession) := by
  simp [createSession, onSessionCreated, Session.new]

/-- A turn of the loop of `connectResolved` creates a session and goes on with it. -/
theorem createOutgoing_succ (hname ip : String) (n : Nat) (s : Server) :
    ∃ store, createOutgoing hname ip (n + 1) s =
        createOutgoing hname ip n ((s.createSession .outgoing ip).withStore store) ∧
      (s.createSession .outgoing ip).store.Persist store ∧
      .host hname ∈ (store.session s.nextSession).closedSlots := by
  refine ⟨_, rfl, ?_, ?_⟩
  · apply (Sessions.carries_connectClosed Session.carried_persists s.nextSession (.host hname) _).trans
      Session.carried_persists
    exact Sessions.persist_set ⟨rfl, rfl, rfl, rfl, List.Subset.refl _⟩
  · simp [Sessions.connectClosed, Session.startConnection]

/-- What the slots of `s_closed` of a session may do. -/
structure Closing (sid : SessionId) (s t : Server) : Prop where
  store : t.store = s.store
  locals : t.locals = s.locals
  nextSession : t.nextSession = s.nextSession
  keys : ∀ node, node ∈ t.nodeToSession ↔ node ∈ s.nodeToSession
  named : s.Named → t.Named
  holds : ∀ node other, t.holds node other → s.holds node other
  sublist : ∀ ip, (t.ipToSession ip).Sublist (s.ipToSession ip)
  others : ∀ ip other, other ≠ sid → other ∈ s.ipToSession ip → other ∈ t.ipToSession ip
  outman : ∀ Q : OutgoingManager → Prop,
    (∀ outman name, Q outman → Q (outman.sessionClosed s.store.now name)) → Q s.outman → Q t.outman

theorem Closing.refl (s : Server) : Closing sid s s :=
  ⟨rfl, rfl, rfl, fun _ => Iff.rfl, id, fun _ _ => id, fun _ => List.Sublist.refl _, fun _ _ _ => id,
    fun _ _ => id⟩

theorem Closing.trans (first : Closing sid s t) (second : Closing sid t u) : Closing sid s u where
  store := second.store.trans first.store
  locals := second.locals.trans first.locals
  nextSession := second.nextSession.trans first.nextSession
  keys node := (second.keys node).trans (first.keys node)
  named := second.named ∘ first.named
  holds node other held := first.holds node other (second.holds node other held)
  sublist ip := (second.sublist ip).trans (first.sublist ip)
  others ip other apart member := second.others ip other apart (first.others ip other apart member)
  outman Q closed before := by
    apply second.outman Q _ (first.outman Q closed before)
    rw [first.store]
    exact closed

theorem closing_onClosed (s : Server) (sid : SessionId) (slot : ClosedSlot) :
    Closing sid s (s.onClosed sid slot) := by
  cases slot with
  | registry =>
    refine ⟨rfl, rfl, rfl, fun _ => Iff.rfl, id, fun _ _ => id, ?_, ?_, fun _ _ => id⟩
    · intro ip
      by_cases same : ip = (s.store.session sid).remoteIp
      · subst same
        simpa [onClosed] using List.erase_sublist
      · simp [onClosed, same]
    · intro ip other apart member
      by_cases same : ip = (s.store.session sid).remoteIp
      · subst same
        simpa [onClosed] using (List.mem_erase_of_ne apart).mpr member
      · simpa [onClosed, same] using member
  | host name =>
    exact ⟨rfl, rfl, rfl, fun _ => Iff.rfl, id, fun _ _ => id, fun _ => List.Sublist.refl _, fun _ _ _ => id,
      fun _ closed => closed _ name⟩
  | remote node =>
    simp only [onClosed]
    cases registered : s.nodeToSession.lookup node with
    | none => exact .refl s
    | some remote =>
      refine ⟨rfl, rfl, rfl, ?_, ?_, ?_, fun _ => List.Sublist.refl _, fun _ _ _ => id, fun _ _ => id⟩
      · intro other
        have known : node ∈ s.nodeToSession := AList.lookup_isSome.mp (by simp [registered])
        refine (AList.mem_insert _).trans ⟨?_, .inr⟩
        rintro (rfl | before)
        · exact known
        · exact before
      · intro named other changed found
        rw [lookup_setRemote] at found
        split at found
        next same =>
          cases found
          exact same ▸ named node remote registered
        next => exact named other changed found
      · intro other held' held
        rw [holds_setRemote] at held
        split at held
        next same => exact same ▸ ⟨remote, registered, Remote.holds_onSessionClosed held⟩
        next => exact held

theorem closing_foldl (slots : List ClosedSlot) (s : Server) :
    Closing sid s (slots.foldl (onClosed sid) s) := by
  induction slots generalizing s with
  | nil => exact .refl s
  | cons slot slots inductionHypothesis => exact (closing_onClosed s sid slot).trans (inductionHypothesis _)

theorem closing_emitClosed (s : Server) (sid : SessionId) : Closing sid s (s.emitClosed sid) :=
  closing_foldl _ s

/-- Every slot has run at some point, and the others do not undo what it has done. -/
theorem emitClosed_slot {slot : ClosedSlot} (connected : slot ∈ (s.store.session sid).closedSlots) :
    ∃ before, Closing sid s before ∧ Closing sid (before.onClosed sid slot) (s.emitClosed sid) := by
  obtain ⟨first, last, slots⟩ := List.append_of_mem connected
  refine ⟨first.foldl (onClosed sid) s, closing_foldl first s, ?_⟩
  rw [emitClosed, slots, List.foldl_append]
  exact closing_foldl last _

theorem not_holds_emitClosed {node : String}
    (connected : .remote node ∈ (s.store.session sid).closedSlots) : ¬ (s.emitClosed sid).holds node sid := by
  obtain ⟨before, _, closing⟩ := emitClosed_slot connected
  intro held
  have held := closing.holds node sid held
  simp only [onClosed] at held
  cases registered : before.nodeToSession.lookup node with
  | none =>
    rw [registered] at held
    obtain ⟨remote, found, _⟩ := held
    simp [registered] at found
  | some remote =>
    simp only [registered] at held
    rw [holds_setRemote, if_pos rfl] at held
    exact Remote.not_holds_onSessionClosed sid remote held

/-- A session that stops tells the slots of its `s_closed`. -/
theorem stop_eq (running : (s.store.session sid).stopped = false) :
    s.stop sid = (s.withStore (s.store.set sid (s.store.session sid).stop)).emitClosed sid := by
  rw [stop, if_neg (by simp [running])]

theorem closing_stop (running : (s.store.session sid).stopped = false) :
    Closing sid (s.withStore (s.store.set sid (s.store.session sid).stop)) (s.stop sid) := by
  rw [stop_eq running]
  exact closing_emitClosed _ sid

theorem stop_session (running : (s.store.session sid).stopped = false) (other : SessionId) :
    (s.stop sid).store.session other =
      if other = sid then (s.store.session sid).stop else s.store.session other := by
  rw [(closing_stop running).store]
  simp [withStore, Function.update_apply]

/-- A read handler that gives up touches its own session and the tables of closed sessions only. -/
theorem readFailed_keeps (sid : SessionId) (s : Server) : (s.readFailed sid).locals = s.locals ∧
    ∀ other, other ≠ sid → (s.readFailed sid).store.session other = s.store.session other := by
  have idle : ∀ other, other ≠ sid →
      (s.setReading sid .idle).store.session other = s.store.session other := by
    intro other different
    simp [setReading, withStore, different]
  unfold readFailed
  cases running : ((s.setReading sid .idle).store.session sid).stopped with
  | true =>
    rw [stop, if_pos running]
    exact ⟨rfl, idle⟩
  | false =>
    refine ⟨(closing_stop running).locals, ?_⟩
    intro other different
    rw [stop_session running, if_neg different]
    exact idle other different

/-- What `stop()` leaves alone is the same in all sessions. -/
theorem stop_keeps {α : Sort*} (f : Session → α) (keeps : ∀ ss, f (Session.stop ss) = f ss)
    (running : (s.store.session sid).stopped = false) (other : SessionId) :
    f ((s.stop sid).store.session other) = f (s.store.session other) := by
  rw [stop_session running]
  split
  next same => rw [keeps, same]
  next => rfl

end Sessions

/-! ## The messages of a session -/

section Messages

variable {json : JsonCodec} {config : UConfig}

/-- The rule for one message of a session, by the calls that it ends in: it authenticates the session,
as that of a local application or as one of a remote node, or it is dispatched, and then only a
priority message does more than being routed. -/
theorem dispatchMsg_calls {P : Server → Prop} {s : Server} {sid : SessionId} {header : PTree} {body : Body}
    {msg : Msg} (isMsg : msg = .incoming config header body (some sid)) {known : Server}
    (isKnown : known = s.withStore (s.store.set sid { s.store.session sid with msg1 := some msg }))
    (enrol : (s.store.session sid).msg1 = none → Session.authenticate config msg = true →
      msg.fromLocal config = true → ∀ t, t = known ∨ (∃ old after,
        s.locals.lookup msg.from.app = some old ∧ known.store.takeOverSession sid old = .done after ∧
          t = known.withStore after) → P { t with locals := t.locals.insert msg.from.app sid })
    (enter : (s.store.session sid).msg1 = none → Session.authenticate config msg = true →
      msg.fromLocal config = false → ∀ changed after,
        (((s.nodeToSession.lookup msg.from.node).getD (.new msg.from.node)).addSession json config sid
          known.store).final = some (changed, after) → P (known.setRemote msg.from.node (changed, after)))
    (refuse : (s.store.session sid).msg1 = none → Session.authenticate config msg = false →
      (s.store.gracefullClose json config sid "authentication failed").All fun store => P (s.withStore store))
    (task : (s.store.session sid).authenticated = true →
      P s ∧ P { s with failedTasks := s.failedTasks + 1 })
    (assign : (s.store.session sid).authenticated = true → msg.toMe = true →
      msg.cname = some "priority" → ∀ remote left changed after,
        s.nodeToSession.lookup msg.from.node = some remote →
        (remote.handlePriorityMsg json config msg s.store).final = some (left, changed, after) →
          P (s.setRemote msg.from.node (changed, after)))
    (any : (s.store.session sid).authenticated = true → ∀ body t, P t →
      (handleAny json { msg with body } t).All fun after => P after.2) :
    (s.dispatchMsg json config sid header body).All P := by
  unfold Server.dispatchMsg
  rw [← isMsg]
  dsimp only
  split
  next authenticated =>
    obtain ⟨initial, failed⟩ := task authenticated
    -- a handler may parse the body of the message, and changes nothing else about it
    have dispatched := @all_dispatchTask json config
      (fun result => (∃ body, result.1 = { msg with body }) ∧ P result.2) msg s ⟨⟨msg.body, rfl⟩, initial⟩
      fun _ => ⟨⟨msg.body, rfl⟩, failed⟩
    refine (dispatched ?_ ?_).mono fun _ => fun ⟨_, _, holds⟩ => holds
    · intro named mine
      unfold Server.handlePriorityMsg
      dsimp only
      split
      · exact ⟨⟨msg.body, rfl⟩, initial⟩
      next remote registered =>
        apply Outcome.all_map.mpr
        apply Outcome.all_of_final
        rintro ⟨left, changed, after⟩ final
        exact ⟨(Remote.handlePriorityMsg_msg json config msg remote s.store).of_final final,
          assign authenticated mine named remote left changed after registered final⟩
    · rintro _ t ⟨⟨body, rfl⟩, holds⟩
      apply Outcome.all_of_final
      rintro ⟨left, u⟩ final
      have same : left = { msg with body } := by
        simp only [handleAny, Outcome.final_map, Option.map_eq_some_iff, Prod.mk.injEq] at final
        obtain ⟨_, _, same, _⟩ := final
        exact same.symm
      exact ⟨⟨body, same⟩, (any authenticated body t holds).of_final final⟩
  next unknown =>
    have unknown : (s.store.session sid).msg1 = none := by simpa [Session.authenticated] using unknown
    split
    next passed =>
      rw [← isKnown]
      have msg1 : (known.store.session sid).msg1 = some msg := by simp [isKnown, withStore]
      have channels : known.nodeToSession = s.nodeToSession := by rw [isKnown]; rfl
      have applications : known.locals = s.locals := by rw [isKnown]; rfl
      simp only [Server.auth, msg1, applications]
      split
      next isLocal =>
        split
        next old registered =>
          rcases Sessions.takeOverSession_returns sid old known.store with ⟨after, done⟩ | hangs
          · rw [done]
            exact enrol unknown passed isLocal _ (.inr ⟨old, after, registered, done, rfl⟩)
          · rw [hangs]
            trivial
        next => exact enrol unknown passed isLocal known (.inl rfl)
      next isRemote =>
        apply Outcome.all_map.mpr
        apply Outcome.all_of_final
        rintro ⟨changed, after⟩ final
        rw [channels] at final
        exact enter unknown passed (by simpa using isRemote) changed after final
    next refused =>
      apply Outcome.all_map.mpr
      exact refuse unknown (by simpa using refused)

/-- The rule for one message of a session, where the calls that only carry sessions on do no harm. -/
theorem dispatchMsg_rule {R : Session → Session → Prop} (carried : Session.Carried R) {P : Server → Prop}
    (routed : ∀ {s t}, P s → Steady R config.nodeName s t → P t) {s : Server} {sid : SessionId} {header : PTree}
    {body : Body} {msg : Msg} (isMsg : msg = .incoming config header body (some sid)) {known : Server}
    (isKnown : known = s.withStore (s.store.set sid { s.store.session sid with msg1 := some msg }))
    (unchanged : ((s.store.session sid).msg1 = none → Session.authenticate config msg = false) → P s)
    (enrol : (s.store.session sid).msg1 = none → Session.authenticate config msg = true →
      msg.fromLocal config = true → ∀ t, Steady R config.nodeName known t →
        P { t with locals := t.locals.insert msg.from.app sid })
    (enter : (s.store.session sid).msg1 = none → Session.authenticate config msg = true →
      msg.fromLocal config = false → ∀ changed after,
        (((s.nodeToSession.lookup msg.from.node).getD (.new msg.from.node)).addSession json config sid
          known.store).final = some (changed, after) → P (known.setRemote msg.from.node (changed, after)))
    (assign : (s.store.session sid).authenticated = true → msg.toMe = true →
      msg.cname = some "priority" → ∀ remote left changed after,
        s.nodeToSession.lookup msg.from.node = some remote →
        (remote.handlePriorityMsg json config msg s.store).final = some (left, changed, after) →
          P (s.setRemote msg.from.node (changed, after))) :
    (s.dispatchMsg json config sid header body).All P := by
  apply dispatchMsg_calls isMsg isKnown _ enter _ _ assign
  · intro _ body t holds
    -- the kind of destination does not depend on the body
    have names : Msg.destType { msg with body } = .remote →
        msg.dest.node ≠ config.nodeName ∧ msg.dest.node ≠ "" := by
      intro remote
      rw [isMsg, Msg.incoming_dest]
      rw [isMsg] at remote
      exact remote_dest ((Msg.incoming_destType config header _ _).symm.trans remote)
    exact (@steady_handleAny R json config carried { msg with body } names t).mono
      fun _ steady => routed holds steady
  · intro unknown passed isLocal t returned
    apply enrol unknown passed isLocal t
    rcases returned with rfl | ⟨old, after, _, done, rfl⟩
    · exact .refl carried t
    · have carries := Sessions.carries_takeOverSession carried sid old known.store
      rw [done] at carries
      exact steady_store carries
  · intro unknown refused
    have initial := unchanged fun _ => refused
    apply (Sessions.carries_gracefullClose carried json config sid _ s.store).mono
    exact fun _ carries => routed initial (steady_store carries)
  · intro authenticated
    have initial := unchanged fun unknown => by simp [Session.authenticated, unknown] at authenticated
    exact ⟨initial, routed initial
      ⟨.refl carried s.store, rfl, rfl, fun _ _ => Iff.rfl, fun _ => .inl, fun _ => id, id, rfl, rfl⟩⟩

/-- What a message that authenticates a session of another node ends in. -/
theorem dispatchMsg_enters {s : Server} {sid : SessionId} {header : PTree} {body : Body} {msg : Msg}
    (isMsg : msg = .incoming config header body (some sid)) {known : Server}
    (isKnown : known = s.withStore (s.store.set sid { s.store.session sid with msg1 := some msg }))
    (unknown : (s.store.session sid).msg1 = none) (passed : Session.authenticate config msg = true)
    (isRemote : msg.fromLocal config = false) :
    (s.dispatchMsg json config sid header body).All fun t => ∃ changed after,
      (((s.nodeToSession.lookup msg.from.node).getD (.new msg.from.node)).addSession json config sid
        known.store).final = some (changed, after) ∧ t = known.setRemote msg.from.node (changed, after) := by
  have msg1 : (known.store.session sid).msg1 = some msg := by simp [isKnown, withStore]
  have channels : known.nodeToSession = s.nodeToSession := by rw [isKnown]; rfl
  unfold Server.dispatchMsg
  rw [← isMsg]
  simp only [Session.authenticated, unknown, Option.isSome_none, Bool.false_eq_true, if_false, passed, if_true]
  rw [← isKnown]
  simp only [Server.auth, msg1, isRemote, Bool.false_eq_true, if_false]
  apply Outcome.all_map.mpr
  apply Outcome.all_of_final
  rintro ⟨changed, after⟩ final
  rw [channels] at final
  exact ⟨changed, after, final, rfl⟩

/-- What a priority message of an authenticated session ends in: its handler has run, and then it is
routed like any other. -/
theorem dispatchMsg_assigns {s : Server} {sid : SessionId} {header : PTree} {body : Body} {msg : Msg}
    (isMsg : msg = .incoming config header body (some sid))
    (known : (s.store.session sid).authenticated = true) (mine : msg.toMe = true)
    (named : msg.cname = some "priority") {remote : Remote}
    (registered : s.nodeToSession.lookup msg.from.node = some remote) :
    (s.dispatchMsg json config sid header body).All fun t => ∃ left changed after,
      (remote.handlePriorityMsg json config msg s.store).final = some (left, changed, after) ∧
        Steady Session.Persists config.nodeName (s.setRemote msg.from.node (changed, after)) t := by
  have names : ∀ body, Msg.destType { msg with body } = .remote →
      msg.dest.node ≠ config.nodeName ∧ msg.dest.node ≠ "" := by
    intro body remote
    rw [isMsg, Msg.incoming_dest]
    rw [isMsg] at remote
    exact remote_dest ((Msg.incoming_destType config header _ _).symm.trans remote)
  unfold Server.dispatchMsg
  rw [← isMsg]
  simp only [known, if_true, dispatchTask_of_priority named mine]
  apply Outcome.all_map.mpr
  rcases (handlePriorityMsg json config msg s).attempt_cases with ⟨⟨left, u⟩, final, returned⟩ | ⟨_, hangs⟩
  · rw [returned, Outcome.andThen_done]
    simp only [handlePriorityMsg, registered, Outcome.final_map, Option.map_eq_some_iff,
      Prod.mk.injEq] at final
    obtain ⟨⟨_, changed, after⟩, final, rfl, rfl⟩ := final
    obtain ⟨body', rfl⟩ := (Remote.handlePriorityMsg_msg json config msg remote s.store).of_final final
    apply Outcome.All.attempt
    apply (steady_handleAny Session.carried_persists (names body') _).mono
    exact fun _ steady => ⟨_, changed, after, final, steady⟩
  · rw [hangs]
    trivial

/-- A message creates no session, and it carries on all sessions. -/
theorem dispatchMsg_carries {R : Session → Session → Prop} (carried : Session.Carried R)
    (marked : ∀ (ss : Session) msg, ss.msg1 = none → R ss { ss with msg1 := some msg })
    (lawful : json.Lawful) (sid : SessionId) (header : PTree) (body : Body) (s : Server) :
    (s.dispatchMsg json config sid header body).All fun t =>
      t.nextSession = s.nextSession ∧ s.store.Carries R t.store := by
  generalize isMsg : Msg.incoming config header body (some sid) = msg
  generalize isKnown : s.withStore (s.store.set sid { s.store.session sid with msg1 := some msg }) = known
  have first : (s.store.session sid).msg1 = none → s.store.Carries R known.store := by
    intro unknown
    rw [← isKnown]
    exact .of_set carried (marked _ msg unknown)
  have next : known.nextSession = s.nextSession := by rw [← isKnown]; rfl
  apply dispatchMsg_rule carried _ isMsg.symm isKnown.symm
  · exact fun _ => ⟨rfl, .refl carried _⟩
  · intro unknown _ _ t steady
    exact ⟨steady.nextSession.trans next, (first unknown).trans carried steady.sessions⟩
  · intro unknown _ _ changed after final
    have peer : (known.store.session sid).peerNode = some msg.from.node := by
      simp [← isKnown, withStore, Session.peerNode]
    exact ⟨next, (first unknown).trans carried (Remote.carries_addSession carried lawful peer final)⟩
  · intro _ _ _ remote left changed after _ final
    exact ⟨rfl, Remote.carries_handlePriorityMsg carried final⟩
  · intro t u before steady
    exact ⟨steady.nextSession.trans before.1, before.2.trans carried steady.sessions⟩

/-- A message neither ends the read operation of its session nor starts one. -/
theorem dispatchMsg_reading (lawful : json.Lawful) (sid : SessionId) (header : PTree) (body : Body)
    (s : Server) : (s.dispatchMsg json config sid header body).All fun t =>
      t.nextSession = s.nextSession ∧
        ∀ other, (t.store.session other).reading = (s.store.session other).reading :=
  dispatchMsg_carries Session.carried_reading (fun _ _ _ => rfl) lawful sid header body s

/-- The events that the read handler of a session is made of. -/
def OfRead (sid : SessionId) : ServerEvent → Prop
  | .received other _ _ | .readAgain other _ | .readFailed other => other = sid
  | _ => False

/-- A run of the server that makes up a call of the read handler, beginning with the first message. -/
structure ReadRun (json : JsonCodec) (config : UConfig) (pid : Nat) (sid : SessionId)
    (frames : List (PTree × Body)) (events : List ServerEvent) (s t : Server) : Prop where
  ofRead : ∀ e ∈ events, OfRead sid e
  first : ∀ frame ∈ frames.head?, events.head? = some (.received sid frame.1 frame.2)
  executed : exec (step json config pid) s events = some t

/-- The read handler on the messages of a block is a run of the server through these messages. -/
theorem deliver_exec (lawful : json.Lawful) {pid : Nat} {sid : SessionId} {cmd : List Char}
    {waiting : Option (Option PTree)} {frames : List (PTree × Body)} {s : Server}
    (created : sid < s.nextSession) (reading : (s.store.session sid).reading = .pending) :
    match deliver (dispatchMsg json config sid) frames s (finishScan cmd waiting) with
    | .accepted processor t => ∃ events, ReadRun json config pid sid frames events s (t.readAgain sid processor)
    | .rejected t => ∃ events, ReadRun json config pid sid frames events s (t.readFailed sid)
    | _ => True := by
  induction frames generalizing s with
  | nil =>
    cases waiting with
    | none => exact ⟨[.readFailed sid], by simp [OfRead], nofun, by simp [exec, step, reading]⟩
    | some header =>
      exact ⟨[.readAgain sid ⟨⟨cmd, []⟩, header⟩], by simp [OfRead], nofun, by simp [exec, step, reading]⟩
  | cons frame frames inductionHypothesis =>
    obtain ⟨header, body⟩ := frame
    have keeps := @dispatchMsg_reading json config lawful sid header body s
    have first : s.step json config pid (.received sid header body) =
        s.received json config sid header body := rfl
    simp only [received, created, reading, and_self, if_true] at first
    simp only [deliver]
    cases handled : s.dispatchMsg json config sid header body with
    | hung => trivial
    | raised t =>
      rw [handled] at first
      cases body with
      | raw _ => trivial
      | tree tree =>
        exact ⟨[.received sid header (.tree tree)], by simp [OfRead], by simp, by simp [exec, first]⟩
    | done t =>
      rw [handled] at first keeps
      have later := inductionHypothesis (keeps.1 ▸ created) ((keeps.2 sid).trans reading)
      dsimp only
      generalize deliver (dispatchMsg json config sid) frames t (finishScan cmd waiting) = result at later ⊢
      have before : ∀ {events u}, ReadRun json config pid sid frames events t u →
          ∃ events, ReadRun json config pid sid ((header, body) :: frames) events s u := by
        intro events u rest
        refine ⟨.received sid header body :: events, ?_, by simp, exec_cons.mpr ⟨t, first, rest.executed⟩⟩
        exact List.forall_mem_cons.mpr ⟨rfl, rest.ofRead⟩
      cases result with
      | accepted processor u => exact later.elim fun _ => before
      | rejected u => exact later.elim fun _ => before
      | raised u => trivial
      | hung => trivial

/-- The messages that a block completes for a session. -/
def framesOf (json : JsonCodec) (input : List Char) (processor : InputProcessor) :
    List (PTree × Body) × Option (Option PTree) :=
  scan json.readJson processor.header (splitLines processor.acculine.cmd input).1

/-- However the input of a session is cut into blocks, a block is read by a run of the server through
its messages. -/
theorem read_exec (lawful : json.Lawful) {pid : Nat} {sid : SessionId} {input : List Char} {s t : Server}
    (returned : s.read json config sid input = some t) :
    ∃ events, ReadRun json config pid sid (framesOf json input (s.store.session sid).processor).1 events s t := by
  simp only [read] at returned
  split at returned
  next enabled =>
    rw [processNewInput_eq_deliver] at returned
    generalize isScanned : scan json.readJson (s.store.session sid).processor.header
      (splitLines (s.store.session sid).processor.acculine.cmd input).1 = scanned at returned
    generalize (splitLines (s.store.session sid).processor.acculine.cmd input).2 = cmd at returned
    have run := @deliver_exec json config lawful pid sid cmd scanned.2 scanned.1 s enabled.1 enabled.2
    rw [framesOf, isScanned]
    generalize deliver (dispatchMsg json config sid) scanned.1 s (finishScan cmd scanned.2) = result
      at run returned
    cases result with
    | accepted processor u => cases returned; exact run
    | rejected u => cases returned; exact run
    | raised u => cases returned
    | hung => cases returned
  next => cases returned

end Messages

/-! ## Sessions that are started -/

section Starts

variable {R : Session → Session → Prop} (carried : Session.Carried R)
  (reading : ∀ (ss : Session) reading, R ss { ss with reading }) {json : JsonCodec} {config : UConfig}
  {pid : Nat} {s : Server}

include carried reading

/-- `do_accept` creates a session, and then it only starts it or tells it to close. -/
theorem accept_carries (raddr : String) (s : Server) :
    (s.accept json config pid raddr).All fun t => ∃ store,
      t = (s.createSession .incoming raddr).withStore store ∧
        (s.createSession .incoming raddr).store.Carries R store := by
  unfold Server.accept
  dsimp only
  split
  · apply Outcome.all_map.mpr
    apply (Sessions.carries_gracefullClose carried json config s.nextSession _ _).mono
    exact fun store carries => ⟨store, rfl, carries⟩
  · apply Outcome.all_map.mpr
    apply (Sessions.carries_start carried reading json config pid s.nextSession _).mono
    exact fun store carries => ⟨store, rfl, carries⟩

/-- The session does not connect any more, and then it is started or stopped. -/
theorem connectHandler_carries {sid : SessionId} {ok : Bool} {outcome : Outcome Server}
    (connected : s.connectHandler json config pid sid ok = some outcome) {finished : Server}
    (isFinished : finished = s.withStore (s.store.set sid { s.store.session sid with connecting := false })) :
    outcome.All fun t => (∃ store, t = finished.withStore store ∧ finished.store.Carries R store) ∨
      t = finished.stop sid := by
  subst isFinished
  simp only [Server.connectHandler] at connected
  split at connected
  · cases connected
  · split at connected
    · cases connected
      apply Outcome.all_map.mpr
      apply (Sessions.carries_start carried reading json config pid sid _).mono
      exact fun store carries => .inl ⟨store, rfl, carries⟩
    · cases connected
      exact .inr rfl

end Starts

/-! ## The rules -/

/-- What an invariant has to do with steady steps, accepted sessions and stopped ones. -/
structure Kept (own : String) (P : Server → Prop) : Prop where
  steady : ∀ {s t}, P s → Steady Session.Persists own s t → P t
  create : ∀ {s} ip, P s → P (s.createSession .incoming ip)
  stop : ∀ {s sid}, P s → (s.store.session sid).stopped = false → P (s.stop sid)

namespace Kept

variable {json : JsonCodec} {config : UConfig} {pid : Nat} {P : Server → Prop} {s t : Server}

theorem any_stop (kept : Kept config.nodeName P) (initial : P s) (sid : SessionId) : P (s.stop sid) := by
  cases stopped : (s.store.session sid).stopped with
  | false => exact kept.stop initial stopped
  | true =>
    rw [Server.stop, if_pos stopped]
    exact initial

theorem readFailed (kept : Kept config.nodeName P) (initial : P s) (sid : SessionId) :
    P (s.readFailed sid) := by
  have idle : P (s.setReading sid .idle) :=
    kept.steady initial (steady_set ⟨rfl, rfl, rfl, rfl, List.Subset.refl _⟩)
  exact kept.any_stop idle sid

theorem accept (kept : Kept config.nodeName P) (initial : P s) (raddr : String) :
    (s.accept json config pid raddr).All P := by
  apply (accept_carries Session.carried_persists Session.persists_reading raddr s).mono
  rintro t ⟨store, rfl, persist⟩
  exact kept.steady (kept.create raddr initial) (steady_store persist)

theorem createOutgoing (kept : Kept config.nodeName P)
    (outgoing : ∀ {s} ip, P s → P (s.createSession .outgoing ip)) (initial : P s) (hname ip : String)
    (sessionsToCreate : Nat) : P (Server.createOutgoing hname ip sessionsToCreate s) := by
  induction sessionsToCreate generalizing s with
  | zero => exact initial
  | succ sessionsToCreate inductionHypothesis =>
    obtain ⟨store, turn, persist, _⟩ := createOutgoing_succ hname ip sessionsToCreate s
    rw [turn]
    exact inductionHypothesis (kept.steady (outgoing ip initial) (steady_store persist))

theorem connectHandler (kept : Kept config.nodeName P) (initial : P s) {sid : SessionId} {ok : Bool}
    {outcome : Outcome Server} (connected : s.connectHandler json config pid sid ok = some outcome) :
    outcome.All P := by
  have finished : P (s.withStore (s.store.set sid { s.store.session sid with connecting := false })) :=
    kept.steady initial (steady_set ⟨rfl, rfl, rfl, rfl, List.Subset.refl _⟩)
  apply (connectHandler_carries Session.carried_persists Session.persists_reading connected rfl).mono
  rintro t (⟨store, rfl, persist⟩ | rfl)
  · exact kept.steady finished (steady_store persist)
  · exact kept.any_stop finished sid

/-- A write that completes stops the session or takes a message off its queue. -/
theorem onWrite (kept : Kept config.nodeName P) (initial : P s) {sid : SessionId} {i : Nat} {ok : Bool}
    {outcome : Outcome Server} (completed : s.onWrite json config sid i ok = some outcome) :
    outcome.All P := by
  obtain ⟨call, called, rfl⟩ := Option.map_eq_some_iff.mp completed
  apply Outcome.all_map.mpr
  rcases Sessions.onWrite_cases called with ⟨msg, _, _, popped⟩ | ⟨_, rfl⟩
  · apply popped.mono
    rintro after ⟨ss, endpoint, _, rfl⟩
    have goesOn : ss.stopped = (s.store.session sid).stopped := congrArg Endpoint.stopped endpoint
    rw [if_neg (by simp [goesOn])]
    have written : s.store.Persist (s.store.set sid ss) :=
      Sessions.persist_set (.of_endpoint endpoint)
    exact kept.steady initial (steady_store written)
  · show P _
    have removed : P (s.withStore (s.store.set sid { s.store.session sid with
        writes := (s.store.session sid).writes.eraseIdx i })) :=
      kept.steady initial (steady_set ⟨rfl, rfl, rfl, rfl, List.Subset.refl _⟩)
    cases stopped : (s.store.session sid).stopped with
    | true =>
      simp only [Bool.not_true, Bool.false_and, Bool.false_eq_true, if_false]
      exact kept.steady initial (steady_set ⟨rfl, rfl, rfl, stopped.symm, List.Subset.refl _⟩)
    | false =>
      have stops := kept.any_stop removed sid
      simpa [Server.stop, Server.withStore, Sessions.set, Session.stop, stopped] using stops

/-- The events that concern one session on its own, or a new one. -/
theorem step_session (kept : Kept config.nodeName P) (initial : P s) {e : ServerEvent}
    (next : s.step json config pid e = some t)
    (manager : ∀ e', e' = .fire ∨ e' = .pokeTask ∨ (∃ i, e' = .onTimer i) → s.managerStep e' = some t → P t)
    (resolved : ∀ i answer, e = .resolved i answer → P t)
    (received : ∀ sid header body, e = .received sid header body → sid < s.nextSession →
      (s.store.session sid).reading = .pending → (s.dispatchMsg json config sid header body).All P) :
    P t := by
  cases e with
  | tick elapsed =>
    cases next
    exact kept.steady initial (steady_store (Sessions.Carries.refl Session.carried_persists s.store))
  | accept raddr => exact returned_all (kept.accept initial raddr) next
  | fire => exact manager _ (.inl rfl) next
  | onTimer i => exact manager _ (.inr (.inr ⟨i, rfl⟩)) next
  | pokeTask => exact manager _ (.inr (.inl rfl)) next
  | resolved i answer => exact resolved i answer rfl
  | connectHandler sid ok =>
    obtain ⟨outcome, connected, next⟩ := Option.bind_eq_some_iff.mp next
    exact returned_all (kept.connectHandler initial connected) next
  | received sid header body =>
    have next : s.received json config sid header body = some t := next
    obtain ⟨created, handled⟩ := received_cases next
    have dispatched := received sid header body rfl created (received_pending next)
    rcases handled with done | ⟨u, raised, rfl⟩
    · rw [done] at dispatched
      exact dispatched
    · rw [raised] at dispatched
      exact kept.readFailed dispatched sid
  | readAgain sid processor =>
    obtain ⟨_, rfl⟩ := step_readAgain next
    exact kept.steady initial (steady_set ⟨rfl, rfl, rfl, rfl, List.Subset.refl _⟩)
  | readFailed sid =>
    obtain ⟨_, rfl⟩ := step_readFailed next
    exact kept.readFailed initial sid
  | written sid i ok =>
    obtain ⟨outcome, completed, next⟩ := Option.bind_eq_some_iff.mp next
    exact returned_all (kept.onWrite initial completed) next

/-- The rule for an invariant that does not look at the manager of outgoing connections. -/
theorem step (kept : Kept config.nodeName P)
    (outgoing : ∀ {s} ip, P s → P (s.createSession .outgoing ip))
    (manages : ∀ {s : Server} (outman : OutgoingManager), P s → P { s with outman }) (initial : P s)
    {e : ServerEvent} (next : s.step json config pid e = some t)
    (received : ∀ sid header body, e = .received sid header body → sid < s.nextSession →
      (s.store.session sid).reading = .pending → (s.dispatchMsg json config sid header body).All P) :
    P t := by
  apply kept.step_session initial next _ _ received
  · intro e' _ next
    obtain ⟨manager, _, rfl⟩ := Option.map_eq_some_iff.mp next
    exact manages manager.manager initial
  · rintro i answer rfl
    obtain ⟨hname, _, rfl⟩ := Option.map_eq_some_iff.mp next
    have answered := manages { s.outman with resolves := s.outman.resolves.eraseIdx i } initial
    unfold Server.connectResolved
    cases answer with
    | none => exact manages _ answered
    | some ip =>
      dsimp only
      split
      · exact kept.createOutgoing outgoing (manages _ initial) hname ip _
      · exact manages _ initial

/-- The rule for one message of a session, for such an invariant. -/
theorem dispatchMsg (kept : Kept config.nodeName P) {sid : SessionId} {header : PTree}
    {body : Body} {msg : Msg} (isMsg : msg = .incoming config header body (some sid)) {known : Server}
    (isKnown : known = s.withStore (s.store.set sid { s.store.session sid with msg1 := some msg }))
    (unchanged : ((s.store.session sid).msg1 = none → Session.authenticate config msg = false) → P s)
    (enrol : (s.store.session sid).msg1 = none → Session.authenticate config msg = true →
      msg.fromLocal config = true → ∀ t, Steady Session.Persists config.nodeName known t →
        P { t with locals := t.locals.insert msg.from.app sid })
    (enter : (s.store.session sid).msg1 = none → Session.authenticate config msg = true →
      msg.fromLocal config = false → ∀ changed after,
        (((s.nodeToSession.lookup msg.from.node).getD (.new msg.from.node)).addSession json config sid
          known.store).final = some (changed, after) → P (known.setRemote msg.from.node (changed, after)))
    (assign : (s.store.session sid).authenticated = true → msg.toMe = true →
      msg.cname = some "priority" → ∀ remote left changed after,
        s.nodeToSession.lookup msg.from.node = some remote →
        (remote.handlePriorityMsg json config msg s.store).final = some (left, changed, after) →
          P (s.setRemote msg.from.node (changed, after))) :
    (s.dispatchMsg json config sid header body).All P :=
  dispatchMsg_rule Session.carried_persists kept.steady isMsg isKnown unchanged enrol enter assign

/-- The rule for an invariant of the sessions and the registry, which does not look at the tables of
applications and channels. -/
theorem dispatchMsg_sessions (kept : Kept config.nodeName P) (lawful : json.Lawful) (initial : P s)
    (blind : ∀ {s t}, P s → s.store.Persist t.store → t.ipToSession = s.ipToSession →
      t.nextSession = s.nextSession → t.outman = s.outman → P t)
    (sid : SessionId) (header : PTree) (body : Body)
    (authenticated : ∀ msg, (s.store.session sid).msg1 = none → Session.authenticate config msg = true →
      P (s.withStore (s.store.set sid { s.store.session sid with msg1 := some msg }))) :
    (s.dispatchMsg json config sid header body).All P := by
  generalize isMsg : Msg.incoming config header body (some sid) = msg
  generalize isKnown : s.withStore (s.store.set sid { s.store.session sid with msg1 := some msg }) = known
  apply kept.dispatchMsg isMsg.symm isKnown.symm (fun _ => initial)
  · intro unknown passed _ t steady
    have after := kept.steady (isKnown ▸ authenticated msg unknown passed) steady
    exact blind after (.refl Session.carried_persists t.store) rfl rfl rfl
  · intro unknown passed _ changed after final
    have peer : (known.store.session sid).peerNode = some msg.from.node := by
      simp [← isKnown, withStore, Session.peerNode]
    exact blind (isKnown ▸ authenticated msg unknown passed)
      (Remote.carries_addSession Session.carried_persists lawful peer final) rfl rfl rfl
  · intro _ _ _ remote left changed after _ final
    exact blind initial (Remote.carries_handlePriorityMsg Session.carried_persists final) rfl rfl rfl

end Kept

/-! ## What no step undoes -/

/-- Every session that there was is related to what has become of it. -/
structure Lasts (R : Session → Session → Prop) (s t : Server) : Prop where
  next : s.nextSession ≤ t.nextSession
  sessions : ∀ sid < s.nextSession, R (s.store.session sid) (t.store.session sid)

section Lasts

variable {R : Session → Session → Prop} {json : JsonCodec} {config : UConfig} {pid : Nat} {s t u : Server}
  (lasting : Session.Lasting R)

include lasting

theorem Lasts.refl (s : Server) : Lasts R s s :=
  ⟨Nat.le_refl _, fun _ _ => lasting.same rfl⟩

theorem Lasts.trans (first : Lasts R s t) (second : Lasts R t u) : Lasts R s u where
  next := first.next.trans second.next
  sessions sid old :=
    lasting.trans (first.sessions sid old) (second.sessions sid (old.trans_le first.next))

omit lasting in
theorem lasts_carries (carries : s.store.Carries R t.store) (next : t.nextSession = s.nextSession) :
    Lasts R s t :=
  ⟨next.ge, fun sid _ => carries sid⟩

theorem lasts_set {sid : SessionId} {ss : Session} (related : R (s.store.session sid) ss) :
    Lasts R s (s.withStore (s.store.set sid ss)) :=
  lasts_carries (.of_set lasting.carried related) rfl

theorem lasts_create (direction : Direction) (ip : String) (s : Server) :
    Lasts R s (s.createSession direction ip) := by
  refine ⟨Nat.le_succ _, ?_⟩
  intro sid old
  rw [createSession_other direction ip (Nat.ne_of_lt old)]
  exact lasting.same rfl

theorem lasts_createOutgoing (hname ip : String) (sessionsToCreate : Nat) (s : Server) :
    Lasts R s (Server.createOutgoing hname ip sessionsToCreate s) := by
  induction sessionsToCreate generalizing s with
  | zero => exact .refl lasting s
  | succ sessionsToCreate inductionHypothesis =>
    simp only [Server.createOutgoing]
    refine .trans lasting ((lasts_create lasting .outgoing ip s).trans lasting ?_) (inductionHypothesis _)
    have connected := Sessions.carries_connectClosed lasting.carried s.nextSession (.host hname)
      (s.createSession .outgoing ip).store
    exact lasts_carries (connected.trans lasting.carried
      (.of_set lasting.carried (lasting.connecting _ true))) rfl

theorem lasts_stop (sid : SessionId) (s : Server) : Lasts R s (s.stop sid) := by
  cases running : (s.store.session sid).stopped with
  | true =>
    rw [Server.stop, if_pos running]
    exact .refl lasting s
  | false =>
    refine ⟨(closing_stop running).nextSession.ge, ?_⟩
    intro other _
    rw [stop_session running]
    split
    next same => exact same ▸ lasting.stopped _
    next => exact lasting.same rfl

theorem lasts_readFailed (sid : SessionId) (s : Server) : Lasts R s (s.readFailed sid) :=
  .trans lasting (lasts_set lasting (lasting.reading _ .idle)) (lasts_stop lasting sid _)

theorem lasts_accept (raddr : String) (s : Server) :
    (s.accept json config pid raddr).All (Lasts R s) := by
  apply (accept_carries lasting.carried lasting.reading raddr s).mono
  rintro t ⟨store, rfl, carries⟩
  exact (lasts_create lasting .incoming raddr s).trans lasting (lasts_carries carries rfl)

theorem lasts_connectHandler {sid : SessionId} {ok : Bool} {outcome : Outcome Server}
    (connected : s.connectHandler json config pid sid ok = some outcome) : outcome.All (Lasts R s) := by
  have finished := @lasts_set R s lasting sid _ (lasting.connecting _ false)
  apply (connectHandler_carries lasting.carried lasting.reading connected rfl).mono
  rintro t (⟨store, rfl, carries⟩ | rfl)
  · exact finished.trans lasting (lasts_carries carries rfl)
  · exact finished.trans lasting (lasts_stop lasting sid _)

theorem lasts_onWrite {sid : SessionId} {i : Nat} {ok : Bool} {outcome : Outcome Server}
    (completed : s.onWrite json config sid i ok = some outcome) : outcome.All (Lasts R s) := by
  obtain ⟨call, called, rfl⟩ := Option.map_eq_some_iff.mp completed
  apply Outcome.all_map.mpr
  -- the slots of `s_closed` leave the sessions alone
  have emitted : ∀ store : Sessions, s.store.Carries R store → Lasts R s
      (if !(s.store.session sid).stopped && (store.session sid).stopped then
        (s.withStore store).emitClosed sid else s.withStore store) := by
    intro store carries
    split
    · have closing := closing_emitClosed (s.withStore store) sid
      refine lasts_carries ?_ closing.nextSession
      rw [closing.store]
      exact carries
    · exact lasts_carries carries rfl
  rcases Sessions.onWrite_cases called with ⟨msg, _, _, popped⟩ | ⟨_, rfl⟩
  · apply popped.mono
    rintro after ⟨ss, endpoint, _, rfl⟩
    exact emitted _ (Sessions.Carries.of_set lasting.carried (lasting.same endpoint))
  · apply emitted
    apply Sessions.Carries.of_set lasting.carried
    have erased : R (s.store.session sid) { s.store.session sid with
        writes := (s.store.session sid).writes.eraseIdx i } := lasting.same rfl
    exact lasting.trans erased (lasting.stopped _)

theorem lasts_dispatchMsg (lawful : json.Lawful) (sid : SessionId) (header : PTree) (body : Body)
    (s : Server) : (s.dispatchMsg json config sid header body).All (Lasts R s) :=
  (dispatchMsg_carries lasting.carried lasting.marked lawful sid header body s).mono
    fun _ carried => lasts_carries carried.2 carried.1

/-- Whatever happens to a session, in any step of the server, keeps a lasting relation. -/
theorem lasts_step (lawful : json.Lawful) {e : ServerEvent} (next : s.step json config pid e = some t) :
    Lasts R s t := by
  have managed : ∀ outman, Lasts R s { s with outman } :=
    fun _ => lasts_carries (.refl lasting.carried s.store) rfl
  have manager : ∀ e, s.managerStep e = some t → Lasts R s t := by
    intro e next
    obtain ⟨manager, _, rfl⟩ := Option.map_eq_some_iff.mp next
    exact managed _
  cases e with
  | tick elapsed =>
    cases next
    exact lasts_carries (.refl lasting.carried s.store) rfl
  | accept raddr => exact returned_all (lasts_accept lasting raddr s) next
  | fire => exact manager _ next
  | onTimer i => exact manager _ next
  | pokeTask => exact manager _ next
  | resolved i answer =>
    obtain ⟨hname, _, rfl⟩ := Option.map_eq_some_iff.mp next
    unfold Server.connectResolved
    cases answer with
    | none => exact managed _
    | some ip =>
      dsimp only
      split
      · exact .trans lasting (managed _) (lasts_createOutgoing lasting hname ip _ _)
      · exact managed _
  | connectHandler sid ok =>
    obtain ⟨outcome, connected, next⟩ := Option.bind_eq_some_iff.mp next
    exact returned_all (lasts_connectHandler lasting connected) next
  | received sid header body =>
    have dispatched := @lasts_dispatchMsg R json config lasting lawful sid header body s
    rcases (received_cases next).2 with done | ⟨u, raised, rfl⟩
    · rw [done] at dispatched
      exact dispatched
    · rw [raised] at dispatched
      exact dispatched.trans lasting (lasts_readFailed lasting sid u)
  | readAgain sid processor =>
    obtain ⟨_, rfl⟩ := step_readAgain next
    exact lasts_set lasting (lasting.trans (lasting.processor _ processor) (lasting.reading _ _))
  | readFailed sid =>
    obtain ⟨_, rfl⟩ := step_readFailed next
    exact lasts_readFailed lasting sid s
  | written sid i ok =>
    obtain ⟨outcome, completed, next⟩ := Option.bind_eq_some_iff.mp next
    exact returned_all (lasts_onWrite lasting completed) next

end Lasts

/-- A session keeps its direction and its address; once it is authenticated its first message stays,
and once it is stopped it is not started again. -/
structure Evolves (s t : Server) : Prop where
  next : s.nextSession ≤ t.nextSession
  direction : ∀ sid < s.nextSession, (t.store.session sid).direction = (s.store.session sid).direction
  remoteIp : ∀ sid < s.nextSession, (t.store.session sid).remoteIp = (s.store.session sid).remoteIp
  msg1 : ∀ sid < s.nextSession, ∀ msg1, (s.store.session sid).msg1 = some msg1 →
    (t.store.session sid).msg1 = some msg1
  stopped : ∀ sid < s.nextSession, (s.store.session sid).stopped = true →
    (t.store.session sid).stopped = true

section Evolves

variable {json : JsonCodec} {config : UConfig} {pid : Nat} {s t u : Server}

theorem Evolves.refl (s : Server) : Evolves s s :=
  ⟨Nat.le_refl _, fun _ _ => rfl, fun _ _ => rfl, fun _ _ _ => id, fun _ _ => id⟩

theorem Evolves.trans (first : Evolves s t) (second : Evolves t u) : Evolves s u where
  next := first.next.trans second.next
  direction sid old :=
    (second.direction sid (old.trans_le first.next)).trans (first.direction sid old)
  remoteIp sid old := (second.remoteIp sid (old.trans_le first.next)).trans (first.remoteIp sid old)
  msg1 sid old msg known := second.msg1 sid (old.trans_le first.next) msg (first.msg1 sid old msg known)
  stopped sid old ended := second.stopped sid (old.trans_le first.next) (first.stopped sid old ended)

/-- What `Evolves` says of one session. -/
theorem lasting_evolves : Session.Lasting fun ss after : Session =>
    after.direction = ss.direction ∧ after.remoteIp = ss.remoteIp ∧
      (∀ msg1, ss.msg1 = some msg1 → after.msg1 = some msg1) ∧
      (ss.stopped = true → after.stopped = true) where
  trans first second := ⟨second.1.trans first.1, second.2.1.trans first.2.1,
    fun msg1 known => second.2.2.1 msg1 (first.2.2.1 msg1 known), second.2.2.2 ∘ first.2.2.2⟩
  same endpoint := ⟨congrArg Endpoint.direction endpoint, congrArg Endpoint.remoteIp endpoint,
    fun _ => (congrArg Endpoint.msg1 endpoint).trans, (congrArg Endpoint.stopped endpoint).trans⟩
  flagged _ _ := ⟨rfl, rfl, fun _ => id, id⟩
  connected _ _ := ⟨rfl, rfl, fun _ => id, id⟩
  connecting _ _ := ⟨rfl, rfl, fun _ => id, id⟩
  reading _ _ := ⟨rfl, rfl, fun _ => id, id⟩
  processor _ _ := ⟨rfl, rfl, fun _ => id, id⟩
  marked _ _ unknown := ⟨rfl, rfl, fun _ known => absurd (unknown.symm.trans known).symm (Option.some_ne_none _), id⟩
  stopped _ := ⟨rfl, rfl, fun _ => id, fun _ => rfl⟩

theorem evolves_step (lawful : json.Lawful) {e : ServerEvent} (next : s.step json config pid e = some t) :
    Evolves s t := by
  have lasts := lasts_step lasting_evolves lawful next
  exact ⟨lasts.next, fun sid old => (lasts.sessions sid old).1, fun sid old => (lasts.sessions sid old).2.1,
    fun sid old => (lasts.sessions sid old).2.2.1, fun sid old => (lasts.sessions sid old).2.2.2⟩

theorem evolves_exec (lawful : json.Lawful) {events : List ServerEvent}
    (executed : exec (step json config pid) s events = some t) : Evolves s t := by
  induction events generalizing s with
  | nil =>
    cases executed
    exact .refl _
  | cons e events inductionHypothesis =>
    obtain ⟨u, first, rest⟩ := exec_cons.mp executed
    exact (evolves_step lawful first).trans (inductionHypothesis rest)

end Evolves

end Server

end Uzel
