import Uzel.ServerRules
import Uzel.Verified.Protocol

/-! # Rules for what a server writes

A text gets into the queue of a session in three ways: the server makes it itself, a message is routed
to the session, or the queue of another session or of a channel is taken over.  A `Policy` says which
texts may go to which peer and which may wait in which channel.  `utters_step` is the rule for a step:
a server keeps to a policy that lets its own notices through, that suits the tables of the server
(`Suits`), and that lets every message of the step through where routing takes it (`Delivers`).
-/

namespace Uzel

open Foundation

/-- The peer of a session, once it is authenticated. -/
def Session.peer (ss : Session) : Option Addr := ss.msg1.map (·.from)

end Uzel

namespace Uzel.Verified.OutputRules

open Foundation Protocol

/-- A text that the server makes itself. -/
def Own (json : JsonCodec) (config : UConfig) (text : List Char) : Prop :=
  ∃ notice : Notice, notice.text json config = some text

structure Policy where
  session : Option Addr → List Char → Prop
  channel : String → List Char → Prop

/-- The policy lets notices through, and it does not matter to it that a peer makes itself known. -/
structure Policy.Fair (policy : Policy) (json : JsonCodec) (config : UConfig) : Prop where
  own : ∀ peer text, Own json config text → policy.session peer text
  known : ∀ msg text, policy.session none text → policy.session (some msg) text

/-- What has been handed to the socket of the session and what waits in its queue keeps to the policy. -/
structure Speaks (policy : Policy) (ss : Session) : Prop where
  sent : ∀ text ∈ ss.sent, policy.session ss.peer text
  queued : ∀ msg ∈ ss.outQueue, policy.session ss.peer msg.rawmsg

structure Utters (policy : Policy) (s : Server) : Prop where
  sessions : ∀ sid, Speaks policy (s.store.session sid)
  channels : ∀ node remote, s.nodeToSession.lookup node = some remote →
    ∀ msg ∈ remote.outHighQueue ++ remote.outLowQueue, policy.channel node msg.rawmsg

/-! ## One session -/

section Sessions

variable {policy : Policy} {json : JsonCodec} {config : UConfig} {ss after : Session}

theorem peer_of_msg1 (msg1 : after.msg1 = ss.msg1) : after.peer = ss.peer := by
  rw [Session.peer, msg1, Session.peer]

theorem speaks_fresh {ss : Session} (sent : ss.sent = []) (queue : ss.outQueue = []) : Speaks policy ss :=
  ⟨by simp [sent], by simp [queue]⟩

theorem Speaks.of_same (speaks : Speaks policy ss) (peer : after.peer = ss.peer)
    (sent : after.sent = ss.sent) (queue : after.outQueue ⊆ ss.outQueue) : Speaks policy after :=
  ⟨fun text member => peer ▸ speaks.sent text (sent ▸ member),
    fun msg member => peer ▸ speaks.queued msg (queue member)⟩

theorem Speaks.asyncWrite (speaks : Speaks policy ss) (write : Bool → Write) {text : List Char}
    (allowed : policy.session ss.peer text) : Speaks policy (ss.asyncWrite write text) := by
  refine ⟨?_, speaks.queued⟩
  intro other member
  have member : other ∈ ss.sent ∨ other = text := by
    simp only [Session.asyncWrite] at member
    split at member
    · exact .inl member
    · simpa using member
  rcases member with before | rfl
  · exact speaks.sent other before
  · exact allowed

theorem Speaks.doWrite (speaks : Speaks policy ss) (now : Nat) : Speaks policy (ss.doWrite now) := by
  have young : Speaks policy (ss.deleteOld now) :=
    speaks.of_same rfl rfl (List.dropWhile_suffix _).subset
  rcases Session.doWrite_cases now ss with ⟨_, same⟩ | ⟨front, rest, remaining, same⟩
  · rw [same]
    exact young
  · rw [same]
    apply young.asyncWrite
    apply young.queued
    rw [Session.deleteOld_outQueue, remaining]
    exact List.mem_cons_self

theorem Speaks.append (speaks : Speaks policy ss) (now : Nat) {msgs : MsgQueue}
    (allowed : ∀ msg ∈ msgs, policy.session ss.peer msg.rawmsg) : Speaks policy (ss.append now msgs) := by
  unfold Session.append
  split
  · have queued : Speaks policy { ss with outQueue := msgs } := ⟨speaks.sent, allowed⟩
    exact queued.doWrite now
  · refine ⟨speaks.sent, ?_⟩
    intro msg member
    exact (List.mem_append.mp member).elim (speaks.queued msg) (allowed msg)

theorem Speaks.sendByeAndClose (speaks : Speaks policy ss) (fair : policy.Fair json config) :
    (ss.sendByeAndClose json config).All (Speaks policy) := by
  unfold Session.sendByeAndClose
  split
  · exact speaks
  next text encoded => exact speaks.asyncWrite .bye (fair.own _ text ⟨.bye ss.reason, encoded⟩)

theorem Speaks.gracefullClose (speaks : Speaks policy ss) (fair : policy.Fair json config)
    (reason : String) : (ss.gracefullClose json config reason).All (Speaks policy) := by
  have flagged : Speaks policy { ss with reason, closeFlag := true } := ⟨speaks.sent, speaks.queued⟩
  simp only [Session.gracefullClose]
  split
  · exact speaks
  · split
    · exact flagged.sendByeAndClose fair
    · exact flagged

theorem Speaks.onWrite (speaks : Speaks policy ss) (fair : policy.Fair json config) {now i : Nat} {ok : Bool}
    {outcome : Outcome Session} (completed : ss.onWrite json config now i ok = some outcome) :
    outcome.All (Speaks policy) := by
  rcases Session.onWrite_cases completed with ⟨msg, _, _, rfl⟩ | ⟨_, _, rfl⟩
  · simp only [Session.onWritten]
    generalize isPopped : Session.deleteOld now _ = popped
    have kept : Speaks policy popped := by
      rw [← isPopped]
      exact speaks.of_same rfl rfl
        (List.Subset.trans (List.dropWhile_suffix _).subset (List.tail_suffix ss.outQueue).subset)
    split
    · exact kept.sendByeAndClose fair
    · exact kept
  · exact speaks.of_same rfl rfl (List.Subset.refl _)

end Sessions

/-! ## The calls on the sessions -/

section Calls

variable {policy : Policy} {json : JsonCodec} {config : UConfig} {store after : Sessions} {sid : SessionId}

theorem speaks_set (speaking : ∀ sid, Speaks policy (store.session sid)) {ss : Session}
    (speaks : Speaks policy ss) (other : SessionId) : Speaks policy ((store.set sid ss).session other) := by
  by_cases called : other = sid
  · subst called
    simpa using speaks
  · simpa [called] using speaking other

theorem speaks_connectClosed (speaking : ∀ sid, Speaks policy (store.session sid)) (sid : SessionId)
    (slot : ClosedSlot) (other : SessionId) :
    Speaks policy ((store.connectClosed sid slot).session other) := by
  have connected : Speaks policy { store.session sid with
      closedSlots := (store.session sid).closedSlots ++ [slot] } :=
    (speaking sid).of_same rfl rfl (List.Subset.refl _)
  exact speaks_set speaking connected other

theorem speaks_putOutQueue (speaking : ∀ sid, Speaks policy (store.session sid)) {msg : Msg}
    (allowed : ∀ text, msg.charvec json = some text → policy.session (store.session sid).peer text) :
    (store.putOutQueue json sid msg).All fun after => ∀ sid, Speaks policy (after.session sid) := by
  unfold Sessions.putOutQueue Session.putOutQueue
  cases built : QueuedMsg.ofMsg json store.now store.nextMsg msg with
  | none => exact speaks_set speaking (speaking sid)
  | some queued =>
    have enqueued : Speaks policy ((store.session sid).enqueue store.now queued) := by
      rw [Session.enqueue_eq_append]
      apply (speaking sid).append store.now
      intro msg member
      rw [List.mem_singleton.mp member]
      exact allowed _ (QueuedMsg.ofMsg_eq built).1
    exact speaks_set speaking enqueued

theorem speaks_gracefullClose (speaking : ∀ sid, Speaks policy (store.session sid))
    (fair : policy.Fair json config) (sid : SessionId) (reason : String) :
    (store.gracefullClose json config sid reason).All fun after => ∀ sid, Speaks policy (after.session sid) := by
  apply Outcome.all_map.mpr
  exact ((speaking sid).gracefullClose fair reason).mono fun _ => speaks_set speaking

theorem speaks_start (speaking : ∀ sid, Speaks policy (store.session sid)) (fair : policy.Fair json config)
    (pid : Nat) (sid : SessionId) :
    (store.start json config pid sid).All fun after => ∀ sid, Speaks policy (after.session sid) := by
  unfold Sessions.start Session.start Session.putOutQueue
  cases built : QueuedMsg.ofMsg json store.now store.nextMsg (Session.authMsg config pid) with
  | none => exact speaks_set speaking (speaking sid)
  | some queued =>
    have enqueued : Speaks policy ((store.session sid).enqueue store.now queued) := by
      rw [Session.enqueue_eq_append]
      apply (speaking sid).append store.now
      intro msg member
      rw [List.mem_singleton.mp member]
      exact fair.own _ _ ⟨.auth pid, (QueuedMsg.ofMsg_eq built).1⟩
    exact speaks_set speaking ⟨enqueued.sent, enqueued.queued⟩

theorem speaks_takeOverQueue (speaking : ∀ sid, Speaks policy (store.session sid)) {oq : MsgQueue}
    (allowed : ∀ msg ∈ oq, policy.session (store.session sid).peer msg.rawmsg) :
    (store.takeOverQueue sid oq).All fun after => ∀ sid, Speaks policy (after.session sid) := by
  apply Outcome.all_of_final
  intro after final
  obtain ⟨ss, returned, rfl⟩ := Sessions.takeOverQueue_final final
  rw [(Session.takeOverMessages_eq_some.mp returned).2]
  exact speaks_set speaking ((speaking sid).append store.now allowed)

/-- The session of an application that is back takes over the queue of the old one. -/
theorem speaks_takeOverSession (speaking : ∀ sid, Speaks policy (store.session sid)) {old : SessionId}
    (allowed : ∀ text, policy.session (store.session old).peer text →
      policy.session (store.session sid).peer text) :
    (store.takeOverSession sid old).All fun after => ∀ sid, Speaks policy (after.session sid) := by
  unfold Sessions.takeOverSession
  split
  · split
    · exact speaking
    · trivial
  · apply Outcome.all_map.mpr
    have taken := @speaks_takeOverQueue policy store sid speaking (store.session old).outQueue
      fun msg member => allowed _ ((speaking old).queued msg member)
    apply taken.mono
    intro after speaking
    have emptied : Speaks policy { after.session old with outQueue := [] } :=
      (speaking old).of_same rfl rfl (List.nil_subset _)
    exact speaks_set speaking emptied

theorem speaks_announced (speaking : ∀ sid, Speaks policy (store.session sid)) (fair : policy.Fair json config)
    {remote : Remote} {role : Priority} {queued : QueuedMsg}
    (built : QueuedMsg.ofMsg json store.now store.nextMsg (Remote.priorityMsg config role) = some queued) :
    ∀ other, Speaks policy ((remote.announced sid queued store).session other) := by
  have connected := speaks_connectClosed speaking sid (.remote remote.node)
  have enqueued : Speaks policy (((store.connectClosed sid (.remote remote.node)).session sid).enqueue
      store.now queued) := by
    rw [Session.enqueue_eq_append]
    apply (connected sid).append store.now
    intro msg member
    rw [List.mem_singleton.mp member]
    exact fair.own _ _ ⟨.priority role, (QueuedMsg.ofMsg_eq built).1⟩
  exact speaks_set connected enqueued

end Calls

/-! ## The channels -/

/-- What waits in a channel may go to every session that the channel holds. -/
def Suits (policy : Policy) (s : Server) : Prop :=
  ∀ node sid, s.holds node sid → ∀ text, policy.channel node text →
    policy.session (s.store.session sid).peer text

/-- Routing takes the message only to where the policy lets it through. -/
structure Delivers (policy : Policy) (json : JsonCodec) (s : Server) (msg : Msg) : Prop where
  applications : ∀ app sid, s.locals.lookup app = some sid →
    (msg.destType = .local ∧ app = msg.dest.app ∨ msg.destType = .localbroadcast) →
      ∀ text, msg.charvec json = some text → policy.session (s.store.session sid).peer text
  channels : ∀ node, (msg.destType = .remote ∧ node = msg.dest.node ∨ msg.destType = .broadcast) →
    ∀ text, msg.charvec json = some text → policy.channel node text

section Channels

variable {policy : Policy} {json : JsonCodec} {config : UConfig} {own : String} {s t : Server}

theorem Utters.of_store (utters : Utters policy s) {store : Sessions}
    (speaking : ∀ sid, Speaks policy (store.session sid)) : Utters policy (s.withStore store) :=
  ⟨speaking, utters.channels⟩

theorem Utters.setRemote (utters : Utters policy s) {node : String} {changed : Remote} {after : Sessions}
    (speaking : ∀ sid, Speaks policy (after.session sid))
    (waiting : ∀ msg ∈ changed.outHighQueue ++ changed.outLowQueue, policy.channel node msg.rawmsg) :
    Utters policy (s.setRemote node (changed, after)) := by
  refine ⟨speaking, ?_⟩
  intro other remote registered
  rw [Server.lookup_setRemote] at registered
  split at registered
  next same =>
    cases registered
    exact same ▸ waiting
  next => exact utters.channels other remote registered

theorem Utters.waiting (utters : Utters policy s) (node : String) :
    ∀ msg ∈ ((s.nodeToSession.lookup node).getD (.new node)).outHighQueue ++
      ((s.nodeToSession.lookup node).getD (.new node)).outLowQueue, policy.channel node msg.rawmsg := by
  cases registered : s.nodeToSession.lookup node with
  | none => simp [Remote.new]
  | some remote => exact utters.channels node remote registered

theorem peer_of_steady (steady : Server.Steady Session.Persists own s t) (sid : SessionId) :
    (t.store.session sid).peer = (s.store.session sid).peer :=
  peer_of_msg1 (steady.sessions sid).msg1

theorem Suits.steady (suits : Suits policy s) (steady : Server.Steady Session.Persists own s t) :
    Suits policy t := by
  intro node sid held
  rw [peer_of_steady steady]
  exact suits node sid ((steady.holds node sid).mp held)

theorem Delivers.of_same {msg : Msg} (delivers : Delivers policy json s msg) (locals : t.locals = s.locals)
    (peer : ∀ sid, (t.store.session sid).peer = (s.store.session sid).peer) :
    Delivers policy json t msg := by
  refine ⟨?_, delivers.channels⟩
  intro app sid registered kind
  rw [peer]
  exact delivers.applications app sid (locals ▸ registered) kind

theorem utters_sendTo (utters : Utters policy s) (suits : Suits policy s) {node : String} {msg : Msg}
    (allowed : ∀ text, msg.charvec json = some text → policy.channel node text) :
    (s.sendTo json node msg).All (Utters policy) := by
  apply Outcome.all_map.mpr
  apply Outcome.all_of_final
  rintro ⟨changed, after⟩ final
  have waiting := utters.waiting node
  have holds : ∀ sid, ((s.nodeToSession.lookup node).getD (.new node)).Holds sid → s.holds node sid :=
    fun sid => (Server.holds_getD s node sid).mp
  generalize (s.nodeToSession.lookup node).getD (.new node) = remote at final waiting holds
  rcases Remote.send_cases final with ⟨_, rfl, rfl⟩ | ⟨queued, built, ⟨high, isHigh, _, rfl, put⟩ | ⟨_, rfl, rfl⟩⟩
  · exact utters.setRemote utters.sessions waiting
  · -- the channel is connected, and its session takes the message
    have held := holds high (.inr ⟨.high, isHigh⟩)
    have speaking := (speaks_putOutQueue utters.sessions fun text encoded =>
      suits node high held text (allowed text encoded)).of_final put
    exact utters.setRemote speaking waiting
  · refine utters.setRemote utters.sessions ?_
    intro other member
    have member : other ∈ remote.outHighQueue ++ remote.outLowQueue ∨ other = queued := by
      simp only [List.mem_append, List.mem_singleton] at member ⊢
      tauto
    rcases member with before | rfl
    · exact waiting other before
    · exact allowed _ (QueuedMsg.ofMsg_eq built).1

theorem utters_putOutQueue (utters : Utters policy s) {sid : SessionId} {msg : Msg}
    (allowed : ∀ text, msg.charvec json = some text → policy.session (s.store.session sid).peer text) :
    (s.putOutQueue json sid msg).All (Utters policy) := by
  apply Outcome.all_map.mpr
  exact (speaks_putOutQueue utters.sessions allowed).mono fun _ => utters.of_store

/-- Routing by the kind of the destination. -/
theorem routed_handleAny {P : Server → Prop} {msg : Msg} (initial : P s)
    (put : ∀ app sid t, s.locals.lookup app = some sid →
      (msg.destType = .local ∧ app = msg.dest.app ∨ msg.destType = .localbroadcast) → P t →
        (t.putOutQueue json sid msg).All P)
    (send : ∀ node t,
      (msg.destType = .remote ∧ node = msg.dest.node ∨ msg.destType = .broadcast ∧ node ∈ s.nodeToSession) →
        P t → (t.sendTo json node msg).All P) :
    (Server.handleAny json msg s).All fun after => after.1 = msg ∧ P after.2 := by
  apply Outcome.all_map.mpr
  apply Outcome.All.mono (P := P) _ fun _ holds => ⟨rfl, holds⟩
  cases kind : msg.destType with
  | service => exact initial
  | «local» =>
    simp only [Server.handleLocalMsg]
    cases registered : s.locals.lookup msg.dest.app with
    | none => exact initial
    | some sid => exact put _ sid s registered (.inl ⟨kind, rfl⟩) initial
  | remote => exact send _ s (.inl ⟨kind, rfl⟩) initial
  | localbroadcast =>
    apply Outcome.All.forEach _ initial
    intro entry member t holds
    exact put entry.1 entry.2 t (AList.mem_lookup_iff.mpr member) (.inr kind) holds
  | broadcast =>
    apply Outcome.All.forEach _ initial
    intro node member t holds
    exact send node t (.inr ⟨kind, AList.mem_keys.mp member⟩) holds

theorem utters_handleAny (utters : Utters policy s) (suits : Suits policy s) {msg : Msg}
    (names : msg.destType = .remote → msg.dest.node ≠ config.nodeName ∧ msg.dest.node ≠ "")
    (delivers : Delivers policy json s msg) :
    (Server.handleAny json msg s).All fun after => after.1 = msg ∧
      Utters policy after.2 ∧ Server.Steady Session.Persists config.nodeName s after.2 := by
  have carried := Session.carried_persists
  apply routed_handleAny (P := fun t => Utters policy t ∧ Server.Steady Session.Persists config.nodeName s t)
    ⟨utters, .refl carried s⟩
  · rintro app sid t registered kind ⟨utters, steady⟩
    have put := @utters_putOutQueue policy json t utters sid msg fun text encoded => by
      rw [peer_of_steady steady]
      exact delivers.applications app sid registered kind text encoded
    exact Outcome.All.and put ((Server.steady_putOutQueue carried sid msg t).mono fun _ => steady.trans carried)
  · rintro node t kind ⟨utters, steady⟩
    have known : node ∈ t.nodeToSession ∨ (node ≠ config.nodeName ∧ node ≠ "") := by
      rcases kind with ⟨remote, rfl⟩ | ⟨_, member⟩
      · exact .inr (names remote)
      · exact .inl (steady.kept node member)
    have sent := @utters_sendTo policy json t utters (suits.steady steady) node msg
      (delivers.channels node (kind.imp_right And.left))
    exact Outcome.All.and sent ((Server.steady_sendTo carried known msg).mono fun _ => steady.trans carried)

/-- A session that joins a channel takes over what waits there. -/
theorem utters_addSession (lawful : json.Lawful) (utters : Utters policy s) (fair : policy.Fair json config)
    {sid : SessionId} {node : String} {peer : Addr} (known : (s.store.session sid).peer = some peer)
    (allowed : ∀ text, policy.channel node text → policy.session (some peer) text) {changed : Remote}
    {after : Sessions}
    (final : (((s.nodeToSession.lookup node).getD (.new node)).addSession json config sid s.store).final =
      some (changed, after)) : Utters policy (s.setRemote node (changed, after)) := by
  have waiting := utters.waiting node
  generalize (s.nodeToSession.lookup node).getD (.new node) = remote at final waiting
  have isPeer : (s.store.session sid).peerNode = some peer.node := by
    obtain ⟨msg1, isFirst, rfl⟩ := Option.map_eq_some_iff.mp known
    simp [Session.peerNode, isFirst]
  have adds := Remote.adds_addSession lawful config remote isPeer
  generalize remote.addSession json config sid s.store = outcome at adds final
  have connected := speaks_connectClosed utters.sessions sid (.remote remote.node)
  -- the announcement of its role is in the queue of the session before what it takes over
  have announcedPeer : ∀ queued, ((remote.announced sid queued s.store).session sid).peer = some peer := by
    intro queued
    rw [Remote.announced_self, ← known]
    apply peer_of_msg1
    simp
  cases adds with
  | waits =>
    cases final
    exact utters.setRemote connected waiting
  | @high _ _ queued built =>
    simp only [Remote.flushHigh, Outcome.final_map, Option.map_eq_some_iff, Prod.mk.injEq] at final
    obtain ⟨store, taken, rfl, rfl⟩ := final
    have speaking := speaks_takeOverQueue (speaks_announced utters.sessions fair built)
      fun msg member => (announcedPeer queued).symm ▸ allowed _ (waiting msg (List.mem_append_left _ member))
    refine utters.setRemote (speaking.of_final taken) ?_
    exact fun msg member => waiting msg (List.mem_append_right _ member)
  | @low _ _ _ queued built =>
    simp only [Remote.flushLow, Outcome.final_map, Option.map_eq_some_iff, Prod.mk.injEq] at final
    obtain ⟨store, taken, rfl, rfl⟩ := final
    have speaking := speaks_takeOverQueue (speaks_announced utters.sessions fair built)
      fun msg member => (announcedPeer queued).symm ▸ allowed _ (waiting msg (List.mem_append_right _ member))
    refine utters.setRemote (speaking.of_final taken) ?_
    intro msg member
    exact waiting msg (List.mem_append_left _ (by simpa using member))
  | control _ _ _ built =>
    cases final
    exact utters.setRemote (speaks_announced utters.sessions fair built) waiting
  | duplicate _ _ closed =>
    cases final
    have closes := speaks_gracefullClose connected fair sid "duplicated connection"
    rw [closed] at closes
    exact utters.setRemote closes waiting

theorem utters_handlePriorityMsg (utters : Utters policy s) (fair : policy.Fair json config) {node : String}
    {remote changed : Remote} (registered : s.nodeToSession.lookup node = some remote) {msg left : Msg}
    {after : Sessions}
    (final : (remote.handlePriorityMsg json config msg s.store).final = some (left, changed, after)) :
    Utters policy (s.setRemote node (changed, after)) := by
  have waiting := utters.channels node remote registered
  have closes := @speaks_gracefullClose policy json config s.store utters.sessions fair
  rcases Remote.handlePriorityMsg_cases final with ⟨_, rfl, rfl⟩ | ⟨sid, _, ⟨_, rfl, rfl⟩ | assigned⟩
  · exact utters.setRemote utters.sessions waiting
  · exact utters.setRemote utters.sessions waiting
  · obtain ⟨_, _, body, _, ⟨_, rfl, closed⟩ | ⟨_, rfl, closed⟩⟩ := assigned
    · exact utters.setRemote ((closes sid _).of_final closed) waiting
    · have sameQueues : ((remote.forget sid).setSlot (Priority.ofBody body) sid).outHighQueue =
            remote.outHighQueue ∧
          ((remote.forget sid).setSlot (Priority.ofBody body) sid).outLowQueue = remote.outLowQueue := by
        cases Priority.ofBody body <;> exact ⟨rfl, rfl⟩
      refine utters.setRemote ?_ (by rw [sameQueues.1, sameQueues.2]; exact waiting)
      unfold Remote.closeOvertaken at closed
      split at closed
      · cases closed
        exact utters.sessions
      next old _ => exact (closes old _).of_final closed

end Channels

/-! ## The messages of a session -/

/-- What a dispatched message has become when it is routed: the handler of priorities asks for the body
as a tree. -/
def Dispatched (json : JsonCodec) (msg left : Msg) : Prop :=
  left = msg ∨ (msg.toMe = true ∧ msg.cname = some "priority" ∧ left = (msg.pbody json).2)

section Messages

variable {policy : Policy} {json : JsonCodec} {config : UConfig} {s : Server}

theorem handlePriorityMsg_left {msg left : Msg} {remote changed : Remote} {store after : Sessions}
    (final : (remote.handlePriorityMsg json config msg store).final = some (left, changed, after)) :
    left = msg ∨ left = (msg.pbody json).2 := by
  unfold Remote.handlePriorityMsg at final
  split at final
  · cases final
    exact .inl rfl
  · dsimp only at final
    split at final
    · cases final
      exact .inl rfl
    · split at final
      next read =>
        cases final
        rw [read]
        exact .inr rfl
      next read =>
        right
        rw [read]
        split at final
        · simp only [Outcome.final_map, Option.map_eq_some_iff, Prod.mk.injEq] at final
          obtain ⟨_, _, rfl, _⟩ := final
          rfl
        · simp only [Outcome.final_map, Option.map_eq_some_iff, Prod.mk.injEq] at final
          obtain ⟨_, _, rfl, _⟩ := final
          rfl

/-- The rule for a message of a session: it authenticates the session, and then the policy has to suit
what the session takes over; or it is dispatched, and then the policy has to let it through. -/
theorem utters_dispatchMsg (lawful : json.Lawful) (fair : policy.Fair json config) (utters : Utters policy s)
    {sid : SessionId} {header : PTree} {body : Body} {msg : Msg}
    (isMsg : msg = .incoming config header body (some sid))
    (enrols : (s.store.session sid).msg1 = none → Session.authenticate config msg = true →
      msg.fromLocal config = true → ∀ old, s.locals.lookup msg.from.app = some old →
        ∀ text, policy.session (s.store.session old).peer text → policy.session (some msg.from) text)
    (enters : (s.store.session sid).msg1 = none → Session.authenticate config msg = true →
      msg.fromLocal config = false →
        ∀ text, policy.channel msg.from.node text → policy.session (some msg.from) text)
    (suits : (s.store.session sid).authenticated = true → Suits policy s)
    (assigns : (s.store.session sid).authenticated = true → msg.toMe = true → msg.cname = some "priority" →
      ∀ remote left changed after, s.nodeToSession.lookup msg.from.node = some remote →
        (remote.handlePriorityMsg json config msg s.store).final = some (left, changed, after) →
          Suits policy (s.setRemote msg.from.node (changed, after)))
    (delivers : (s.store.session sid).authenticated = true →
      ∀ left, Dispatched json msg left → Delivers policy json s left) :
    (s.dispatchMsg json config sid header body).All (Utters policy) := by
  cases authenticated : (s.store.session sid).authenticated with
  | false =>
    have absent : ¬ (s.store.session sid).authenticated = true := by simp [authenticated]
    generalize isKnown : s.withStore (s.store.set sid { s.store.session sid with msg1 := some msg }) = known
    have peer : (known.store.session sid).peer = some msg.from := by
      simp [← isKnown, Server.withStore, Session.peer]
    have entered : (s.store.session sid).msg1 = none → Utters policy known := by
      intro unknown
      have silent : (s.store.session sid).peer = none := by rw [Session.peer, unknown]; rfl
      rw [← isKnown]
      apply utters.of_store (speaks_set utters.sessions ?_)
      constructor
      · intro text member
        exact fair.known _ _ (silent ▸ (utters.sessions sid).sent text member)
      · intro queued member
        exact fair.known _ _ (silent ▸ (utters.sessions sid).queued queued member)
    apply Server.dispatchMsg_calls isMsg isKnown.symm
    · intro unknown passed isLocal t returned
      have utters := entered unknown
      rcases returned with rfl | ⟨old, after, registered, done, rfl⟩
      · exact ⟨utters.sessions, utters.channels⟩
      · have same : ∀ text, policy.session (known.store.session old).peer text →
            policy.session (known.store.session sid).peer text := by
          intro text
          rw [peer, ← isKnown]
          by_cases itself : old = sid
          · subst itself
            simp [Server.withStore, Session.peer]
          · simpa [Server.withStore, itself] using enrols unknown passed isLocal old registered text
        have taken := speaks_takeOverSession utters.sessions same
        rw [done] at taken
        exact ⟨taken, utters.channels⟩
    · intro unknown passed isRemote changed after final
      have channels : s.nodeToSession = known.nodeToSession := by rw [← isKnown]; rfl
      rw [channels] at final
      exact utters_addSession lawful (entered unknown) fair peer (enters unknown passed isRemote) final
    · intro _ _
      exact (speaks_gracefullClose utters.sessions fair sid _).mono fun _ => utters.of_store
    · exact fun known => absurd known absent
    · exact fun known => absurd known absent
    · exact fun known => absurd known absent
  | true =>
    have suits := suits authenticated
    have names : ∀ body, Msg.destType { msg with body } = .remote →
        msg.dest.node ≠ config.nodeName ∧ msg.dest.node ≠ "" := by
      intro body remote
      rw [isMsg, Msg.incoming_dest]
      rw [isMsg] at remote
      exact Server.remote_dest ((Msg.incoming_destType config header _ _).symm.trans remote)
    have isDispatched : s.dispatchMsg json config sid header body = s.dispatchTask json config msg := by
      rw [Server.dispatchMsg, ← isMsg, if_pos authenticated]
    rw [isDispatched]
    have dispatched := @Server.all_dispatchTask json config
      (fun result => Dispatched json msg result.1 ∧ Utters policy result.2 ∧ Suits policy result.2 ∧
        Delivers policy json result.2 result.1) msg s
      ⟨.inl rfl, utters, suits, delivers authenticated msg (.inl rfl)⟩
      fun _ => ⟨.inl rfl, ⟨utters.sessions, utters.channels⟩, suits,
        (delivers authenticated msg (.inl rfl)).of_same rfl fun _ => rfl⟩
    refine (dispatched ?_ ?_).mono fun _ result => result.elim fun _ holds => holds.2.1
    · intro named mine
      unfold Server.handlePriorityMsg
      dsimp only
      split
      · exact ⟨.inl rfl, utters, suits, delivers authenticated msg (.inl rfl)⟩
      next remote registered =>
        apply Outcome.all_map.mpr
        apply Outcome.all_of_final
        rintro ⟨left, changed, after⟩ final
        have isLeft : Dispatched json msg left :=
          (handlePriorityMsg_left final).elim .inl fun parsed => .inr ⟨mine, named, parsed⟩
        have persist := Remote.carries_handlePriorityMsg Session.carried_persists final
        exact ⟨isLeft, utters_handlePriorityMsg utters fair registered final,
          assigns authenticated mine named remote left changed after registered final,
          (delivers authenticated left isLeft).of_same rfl fun other => peer_of_msg1 (persist other).msg1⟩
    · rintro left t ⟨isLeft, utters, suits, delivers⟩
      have sameDest : ∃ body, left = { msg with body } := by
        rcases isLeft with rfl | ⟨_, _, rfl⟩
        · exact ⟨left.body, rfl⟩
        · exact msg.pbody_snd json
      obtain ⟨body, isBody⟩ := sameDest
      have routed := @utters_handleAny policy json config t utters suits left
        (isBody ▸ names body) delivers
      apply routed.mono
      rintro ⟨other, u⟩ ⟨rfl, utters, steady⟩
      exact ⟨isLeft, utters, suits.steady steady, delivers.of_same steady.locals (peer_of_steady steady)⟩

end Messages

/-! ## Steps -/

section Steps

variable {policy : Policy} {json : JsonCodec} {config : UConfig} {pid : Nat} {s t : Server}

theorem utters_create (utters : Utters policy s) (direction : Direction) (ip : String) :
    Utters policy (s.createSession direction ip) := by
  refine ⟨?_, utters.channels⟩
  intro sid
  by_cases new : sid = s.nextSession
  · rw [new, Server.createSession_self]
    exact speaks_fresh rfl rfl
  · rw [Server.createSession_other direction ip new]
    exact utters.sessions sid

theorem utters_createOutgoing (utters : Utters policy s) (hname ip : String) (sessionsToCreate : Nat) :
    Utters policy (s.createOutgoing hname ip sessionsToCreate) := by
  induction sessionsToCreate generalizing s with
  | zero => exact utters
  | succ sessionsToCreate inductionHypothesis =>
    have created := utters_create utters .outgoing ip
    have connected := speaks_connectClosed created.sessions s.nextSession (.host hname)
    apply inductionHypothesis
    exact created.of_store (speaks_set connected
      ((connected s.nextSession).of_same rfl rfl (List.Subset.refl _)))

theorem utters_onClosed (utters : Utters policy s) (sid : SessionId) (slot : ClosedSlot) :
    Utters policy (s.onClosed sid slot) := by
  cases slot with
  | registry => exact ⟨utters.sessions, utters.channels⟩
  | host name => exact ⟨utters.sessions, utters.channels⟩
  | remote node =>
    simp only [Server.onClosed]
    split
    · exact utters
    next remote registered => exact utters.setRemote utters.sessions (utters.channels node remote registered)

theorem utters_emitClosed (utters : Utters policy s) (sid : SessionId) : Utters policy (s.emitClosed sid) := by
  unfold Server.emitClosed
  generalize (s.store.session sid).closedSlots = slots
  induction slots generalizing s with
  | nil => exact utters
  | cons slot slots inductionHypothesis => exact inductionHypothesis (utters_onClosed utters sid slot)

theorem utters_stop (utters : Utters policy s) (sid : SessionId) : Utters policy (s.stop sid) := by
  unfold Server.stop
  dsimp only
  split
  · exact utters
  · apply utters_emitClosed
    have stopped : Speaks policy (s.store.session sid).stop :=
      (utters.sessions sid).of_same rfl rfl (List.Subset.refl _)
    exact utters.of_store (speaks_set utters.sessions stopped)

theorem utters_readFailed (utters : Utters policy s) (sid : SessionId) : Utters policy (s.readFailed sid) := by
  have idle : Speaks policy { s.store.session sid with reading := .idle } :=
    (utters.sessions sid).of_same rfl rfl (List.Subset.refl _)
  exact utters_stop (utters.of_store (speaks_set utters.sessions idle)) sid

theorem utters_accept (utters : Utters policy s) (fair : policy.Fair json config) (raddr : String) :
    (s.accept json config pid raddr).All (Utters policy) := by
  have created := utters_create utters .incoming raddr
  unfold Server.accept
  dsimp only
  split
  · apply Outcome.all_map.mpr
    exact (speaks_gracefullClose created.sessions fair s.nextSession _).mono fun _ => created.of_store
  · apply Outcome.all_map.mpr
    exact (speaks_start created.sessions fair pid s.nextSession).mono fun _ => created.of_store

theorem utters_connectHandler (utters : Utters policy s) (fair : policy.Fair json config) {sid : SessionId}
    {ok : Bool} {outcome : Outcome Server} (connected : s.connectHandler json config pid sid ok = some outcome) :
    outcome.All (Utters policy) := by
  have finished : Utters policy (s.withStore (s.store.set sid
      { s.store.session sid with connecting := false })) := by
    apply utters.of_store (speaks_set utters.sessions _)
    exact (utters.sessions sid).of_same rfl rfl (List.Subset.refl _)
  simp only [Server.connectHandler] at connected
  split at connected
  · cases connected
  · split at connected
    · cases connected
      apply Outcome.all_map.mpr
      exact (speaks_start finished.sessions fair pid sid).mono fun _ => finished.of_store
    · cases connected
      exact utters_stop finished sid

theorem utters_onWrite (utters : Utters policy s) (fair : policy.Fair json config) {sid : SessionId} {i : Nat}
    {ok : Bool} {outcome : Outcome Server} (completed : s.onWrite json config sid i ok = some outcome)
    (returned : Server.returned outcome = some t) : Utters policy t := by
  obtain ⟨ss, written, called, next⟩ := Server.onWrite_returned completed returned
  have speaks : Speaks policy ss := (utters.sessions sid).onWrite fair called
  have utters : Utters policy (s.withStore { s.store.set sid ss with written }) :=
    utters.of_store (speaks_set utters.sessions speaks)
  rcases next with ⟨_, _, rfl⟩ | ⟨_, rfl⟩
  · exact utters_emitClosed utters sid
  · exact utters

/-- The rule for a step: only the messages of the peers bring in new texts. -/
theorem utters_step (fair : policy.Fair json config) (utters : Utters policy s) {e : ServerEvent}
    (next : s.step json config pid e = some t)
    (received : ∀ sid header body, e = .received sid header body →
      (s.dispatchMsg json config sid header body).All (Utters policy)) : Utters policy t := by
  have manager : ∀ e, s.managerStep e = some t → Utters policy t := by
    intro e next
    obtain ⟨_, _, rfl⟩ := Option.map_eq_some_iff.mp next
    exact ⟨utters.sessions, utters.channels⟩
  cases e with
  | tick elapsed =>
    cases next
    exact ⟨utters.sessions, utters.channels⟩
  | accept raddr => exact Server.returned_all (utters_accept utters fair raddr) next
  | fire => exact manager _ next
  | onTimer i => exact manager _ next
  | pokeTask => exact manager _ next
  | resolved i answer =>
    obtain ⟨hname, _, rfl⟩ := Option.map_eq_some_iff.mp next
    unfold Server.connectResolved
    cases answer with
    | none => exact ⟨utters.sessions, utters.channels⟩
    | some ip =>
      dsimp only
      split
      · apply utters_createOutgoing
        exact ⟨utters.sessions, utters.channels⟩
      · exact ⟨utters.sessions, utters.channels⟩
  | connectHandler sid ok =>
    obtain ⟨outcome, connected, next⟩ := Option.bind_eq_some_iff.mp next
    exact Server.returned_all (utters_connectHandler utters fair connected) next
  | received sid header body =>
    have dispatched := received sid header body rfl
    rcases (Server.received_cases next).2 with done | ⟨u, raised, rfl⟩
    · rw [done] at dispatched
      exact dispatched
    · rw [raised] at dispatched
      exact utters_readFailed dispatched sid
  | readAgain sid processor =>
    obtain ⟨_, rfl⟩ := Server.step_readAgain next
    exact utters.of_store (speaks_set utters.sessions
      ((utters.sessions sid).of_same rfl rfl (List.Subset.refl _)))
  | readFailed sid =>
    obtain ⟨_, rfl⟩ := Server.step_readFailed next
    exact utters_readFailed utters sid
  | written sid i ok =>
    obtain ⟨outcome, completed, next⟩ := Option.bind_eq_some_iff.mp next
    exact utters_onWrite utters fair completed next

end Steps

end Uzel.Verified.OutputRules
