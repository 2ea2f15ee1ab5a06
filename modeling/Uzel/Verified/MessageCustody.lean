import Uzel.ServerRules
import Uzel.Verified.ReadPath

/-! # What becomes of the messages of a channel

A message that `send` has accepted should stay with its channel until it is written or too old.  The
channel gives a message away at four places: a session with a role is stopped, a session is overtaken
by a priority message, a local application comes back while its old session has a role, and a
completed write pops a message that it has not written.  `custody_runs` says that there is no other:
in a run in which none of the sessions concerned holds a message of the channel, no message is lost.
-/

namespace Uzel.Verified.MessageCustody

open Foundation

/-- The channel has accepted the message, and it is neither written nor too old. -/
structure Owed (store : Sessions) (remote : Remote) (msg : QueuedMsg) : Prop where
  accepted : msg ∈ remote.accepted
  unwritten : msg ∉ store.written
  young : msg.expired store.now = false

/-- The message waits in the channel, or in the queue of a session that has a role in it. -/
def Kept (store : Sessions) (remote : Remote) (msg : QueuedMsg) : Prop :=
  msg ∈ remote.outHighQueue ∨
    ∃ role sid, remote.slot role = some sid ∧ msg ∈ (store.session sid).outQueue

def NothingLost (s : Server) : Prop :=
  ∀ node remote, s.nodeToSession.lookup node = some remote →
    ∀ msg, Owed s.store remote msg → Kept s.store remote msg

/-! ## Where a message can be lost -/

/-- If the session has a role in the channel of the node, it holds no message that the channel owes. -/
def HoldsNothing (s : Server) (node : String) (sid : SessionId) : Prop :=
  ∀ remote, s.nodeToSession.lookup node = some remote → (∃ role, remote.slot role = some sid) →
    ∀ msg ∈ (s.store.session sid).outQueue, ¬ Owed s.store remote msg

/-- The handler of the event calls `stop()` of the session. -/
def Stops (config : UConfig) (s : Server) (sid : SessionId) : ServerEvent → Prop
  | .connectHandler called ok => called = sid ∧ ok = false
  | .readFailed called => called = sid
  | .received called header body =>
    called = sid ∧ (s.store.session sid).authenticated = true ∧
      (Msg.incoming config header body (some sid)).cname = none
  | .written called i ok =>
    called = sid ∧ ∀ msg live, ok = true → (s.store.session sid).writes[i]? ≠ some (.message msg live)
  | _ => False

/-- A priority message gives the role of the session `old` to another one, and `old` has no second
role in the channel. -/
def Overtakes (json : JsonCodec) (config : UConfig) (s : Server) (node : String) (old : SessionId) :
    ServerEvent → Prop
  | .received sid header body =>
    let msg := Msg.incoming config header body (some sid)
    (s.store.session sid).authenticated = true ∧ msg.toMe = true ∧ msg.cname = some "priority" ∧
      msg.from.node = node ∧ ∃ remote, s.nodeToSession.lookup node = some remote ∧
        remote.sessionH ≠ some sid ∧ remote.sessionL ≠ some sid ∧
        ∃ tree, body.parsed json = some tree ∧
          remote.slot (Priority.ofBody tree) = some old ∧ old ≠ sid ∧
          ∀ role, role ≠ Priority.ofBody tree → remote.slot role ≠ some old
  | _ => False

/-- A new session of a local application takes over the queue of the session `old`. -/
def Replaces (config : UConfig) (s : Server) (old : SessionId) : ServerEvent → Prop
  | .received sid header body =>
    let msg := Msg.incoming config header body (some sid)
    (s.store.session sid).authenticated = false ∧ Session.authenticate config msg = true ∧
      msg.fromLocal config = true ∧ s.locals.lookup msg.from.app = some old ∧ old ≠ sid
  | _ => False

/-- A message has been written, and the front of the queue of the session is another one. -/
def PopsOther (s : Server) (sid : SessionId) (front : QueuedMsg) : ServerEvent → Prop
  | .written called i ok =>
    called = sid ∧ ok = true ∧ (s.store.session sid).outQueue.head? = some front ∧
      ∃ msg, (s.store.session sid).writes[i]? = some (.message msg true) ∧ msg ≠ front
  | _ => False

structure GivesNothingAway (json : JsonCodec) (config : UConfig) (s : Server) (e : ServerEvent) :
    Prop where
  stopped : ∀ sid, Stops config s sid e → (s.store.session sid).stopped = false →
    ∀ node, .remote node ∈ (s.store.session sid).closedSlots → HoldsNothing s node sid
  overtaken : ∀ node old, Overtakes json config s node old e → HoldsNothing s node old
  replaced : ∀ old, Replaces config s old e → ∀ node, HoldsNothing s node old
  popped : ∀ sid front, PopsOther s sid front e → ∀ node remote,
    s.nodeToSession.lookup node = some remote → (∃ role, remote.slot role = some sid) →
      ¬ Owed s.store remote front

/-! ## One channel -/

/-- A channel keeps what it owes, with sessions that exist. -/
structure Keeper (store : Sessions) (nextSession : SessionId) (remote : Remote) : Prop where
  kept : ∀ msg, Owed store remote msg → Kept store remote msg
  created : ∀ role sid, remote.slot role = some sid → sid < nextSession

section Channel

variable {json : JsonCodec} {config : UConfig} {store after : Sessions} {nextSession : SessionId}
  {remote changed : Remote}

theorem keeper_new (node : String) : Keeper store nextSession (.new node) where
  kept msg owed := nomatch owed.accepted
  created role sid taken := by cases role <;> cases taken

/-- It is enough that no session with a role loses a message that the channel owes. -/
theorem Keeper.mono (keeper : Keeper store nextSession remote) (now : store.now ≤ after.now)
    (written : ∀ msg ∈ store.written, msg ∈ after.written)
    (queue : ∀ role sid, remote.slot role = some sid → ∀ msg ∈ (store.session sid).outQueue,
      Owed store remote msg → msg ∉ after.written → msg ∈ (after.session sid).outQueue)
    {later : SessionId} (le : nextSession ≤ later) : Keeper after later remote where
  kept msg owed := by
    have before : Owed store remote msg := by
      refine ⟨owed.accepted, fun done => owed.unwritten (written msg done), ?_⟩
      by_contra old
      have expired := QueuedMsg.expired_mono now (Bool.not_eq_false _ ▸ old)
      rw [owed.young] at expired
      cases expired
    rcases keeper.kept msg before with waiting | ⟨role, sid, taken, member⟩
    · exact .inl waiting
    · exact .inr ⟨role, sid, taken, queue role sid taken msg member before owed.unwritten⟩
  created role sid taken := (keeper.created role sid taken).trans_le le

theorem Keeper.grows (keeper : Keeper store nextSession remote) (grows : store.Grows after) :
    Keeper after nextSession remote := by
  refine keeper.mono grows.now.ge ?_ ?_ (Nat.le_refl _)
  · intro msg done
    rwa [grows.written]
  · intro _ sid _ msg member owed _
    exact grows.queue sid msg member owed.young

/-- Sessions that wait for a role do not matter. -/
theorem Keeper.of_same (keeper : Keeper store nextSession remote)
    (accepted : changed.accepted = remote.accepted)
    (waiting : changed.outHighQueue = remote.outHighQueue)
    (slots : ∀ role, changed.slot role = remote.slot role) : Keeper store nextSession changed where
  kept msg owed := by
    have before : Owed store remote msg := ⟨accepted ▸ owed.accepted, owed.unwritten, owed.young⟩
    simpa only [Kept, waiting, slots] using keeper.kept msg before
  created role sid taken := keeper.created role sid (slots role ▸ taken)

/-- A message that is sent to a connected channel is in the queue of its high priority session. -/
theorem mem_putOutQueue {sid : SessionId} {msg : Msg} {queued : QueuedMsg}
    (built : QueuedMsg.ofMsg json store.now store.nextMsg msg = some queued)
    (put : (store.putOutQueue json sid msg).final = some after) :
    queued ∈ (after.session sid).outQueue := by
  simp only [Sessions.putOutQueue, Session.putOutQueue, built, Outcome.map_done, Outcome.final_done,
    Option.some.injEq] at put
  subst put
  simpa using Sessions.mem_enqueue (.inr rfl) (QueuedMsg.ofMsg_eq built).2.2

theorem keeper_send {msg : Msg} (keeper : Keeper store nextSession remote)
    (final : (remote.send json msg store).final = some (changed, after)) :
    Keeper after nextSession changed := by
  rcases Remote.send_cases final with ⟨_, rfl, rfl⟩ | ⟨queued, built, sent | waits⟩
  · exact keeper
  · obtain ⟨high, isHigh, _, rfl, put⟩ := sent
    have grows := (Sessions.grows_putOutQueue json high msg store).of_final put
    refine ⟨?_, keeper.created⟩
    intro owed ⟨accepted, unwritten, young⟩
    rcases List.mem_append.mp accepted with before | new
    · exact (keeper.grows grows).kept owed ⟨before, unwritten, young⟩
    · obtain rfl := List.mem_singleton.mp new
      exact .inr ⟨.high, high, isHigh, mem_putOutQueue built put⟩
  · obtain ⟨_, rfl, rfl⟩ := waits
    refine ⟨?_, keeper.created⟩
    intro owed ⟨accepted, unwritten, young⟩
    rcases List.mem_append.mp accepted with before | new
    · rcases keeper.kept owed ⟨before, unwritten, young⟩ with waiting | held
      · exact .inl (List.mem_append_left _ waiting)
      · exact .inr held
    · exact .inl (List.mem_append_right _ new)

/-- A session gets a role that no session has; nothing else about the roles changes. -/
theorem keeper_setSlot (keeper : Keeper store nextSession remote) {role : Priority}
    (assigned : role ≠ .undefined) {sid : SessionId} (created : sid < nextSession)
    (accepted : changed.accepted = remote.accepted)
    (waiting : ∀ msg ∈ remote.outHighQueue, msg.expired store.now = false →
      msg ∈ changed.outHighQueue ∨ msg ∈ (store.session sid).outQueue)
    (slots : ∀ other, changed.slot other = (remote.setSlot role sid).slot other)
    (overtaken : ∀ old, remote.slot role = some old → old ≠ sid →
      (∀ other, other ≠ role → remote.slot other ≠ some old) →
        ∀ msg ∈ (store.session old).outQueue, ¬ Owed store remote msg) :
    Keeper store nextSession changed where
  kept msg owed := by
    have before : Owed store remote msg := ⟨accepted ▸ owed.accepted, owed.unwritten, owed.young⟩
    have given : changed.slot role = some sid := by
      rw [slots, Remote.slot_setSlot assigned, if_pos rfl]
    rcases keeper.kept msg before with waits | ⟨other, old, taken, member⟩
    · rcases waiting msg waits owed.young with waits | taken
      · exact .inl waits
      · exact .inr ⟨role, sid, given, taken⟩
    · by_cases second : ∃ kept, kept ≠ role ∧ remote.slot kept = some old
      · obtain ⟨kept, different, taken⟩ := second
        refine .inr ⟨kept, old, ?_, member⟩
        rw [slots, Remote.slot_setSlot assigned, if_neg different, taken]
      · -- `old` had no other role, so it held the one that has been given away
        have only : ∀ kept, kept ≠ role → remote.slot kept ≠ some old := fun kept different taken =>
          second ⟨kept, different, taken⟩
        obtain rfl : other = role := by
          by_contra different
          exact only other different taken
        by_cases same : old = sid
        · subst same
          exact .inr ⟨other, old, given, member⟩
        · exact absurd before (overtaken old taken same only msg member)
  created other old taken := by
    rw [slots, Remote.slot_setSlot assigned] at taken
    split at taken
    · cases taken
      exact created
    · exact keeper.created other old taken

theorem keeper_addSession (lawful : json.Lawful) {sid : SessionId} (created : sid < nextSession)
    (keeper : Keeper store nextSession remote)
    (final : (remote.addSession json config sid store).final = some (changed, after)) :
    Keeper after nextSession changed := by
  have grown := keeper.grows ((Remote.grows_addSession json config sid remote store).of_final final)
  have now := ((Remote.grows_addSession json config sid remote store).of_final final).now
  rcases Remote.addSession_cases lawful final with ⟨_, rfl⟩ | ⟨peer, _, ⟨_, rfl⟩ | ⟨_, high | low | more⟩⟩
  · exact grown
  · exact grown.of_same rfl rfl fun role => by cases role <;> rfl
  · obtain ⟨free, rfl, taken⟩ := high
    refine @keeper_setSlot after nextSession remote _ grown .high (by decide) sid created rfl ?_ ?_ ?_
    · intro msg waits young
      exact .inr (taken msg waits (now ▸ young))
    · intro other
      cases other <;> rfl
    · intro old other
      simp [Remote.slot, free] at other
  · obtain ⟨_, free, rfl⟩ := low
    refine @keeper_setSlot after nextSession remote _ grown .low (by decide) sid created rfl ?_ ?_ ?_
    · exact fun msg waits _ => .inl waits
    · intro other
      cases other <;> rfl
    · intro old other
      simp [Remote.slot, free] at other
  · obtain ⟨_, _, ⟨rfl, free⟩ | rfl⟩ := more
    · refine @keeper_setSlot after nextSession remote _ grown .control (by decide) sid created rfl ?_ ?_ ?_
      · exact fun msg waits _ => .inl waits
      · intro other
        cases other <;> rfl
      · intro old other
        simp [Remote.slot, free] at other
    · exact grown

theorem keeper_forget (keeper : Keeper store nextSession remote) (sid : SessionId) :
    Keeper store nextSession (remote.forget sid) :=
  keeper.of_same rfl rfl (Remote.slot_forget sid remote)

/-- A priority message keeps what the channel owes, unless it overtakes a session that holds some of
it. -/
theorem keeper_handlePriorityMsg {msg left : Msg} (keeper : Keeper store nextSession remote)
    (created : ∀ sid, msg.origin = some sid → sid < nextSession)
    (overtaken : ∀ sid, msg.origin = some sid → remote.sessionH ≠ some sid → remote.sessionL ≠ some sid →
      ∀ tree, msg.body.parsed json = some tree → ∀ old, remote.slot (Priority.ofBody tree) = some old →
        old ≠ sid → (∀ other, other ≠ Priority.ofBody tree → remote.slot other ≠ some old) →
          ∀ msg ∈ (store.session old).outQueue, ¬ Owed store remote msg)
    (final : (remote.handlePriorityMsg json config msg store).final = some (left, changed, after)) :
    Keeper after nextSession changed := by
  have grows := Remote.grows_handlePriorityMsg final
  rcases Remote.handlePriorityMsg_cases final with ⟨_, rfl, rfl⟩ | ⟨sid, origin, ⟨_, rfl, rfl⟩ | assigned⟩
  · exact keeper
  · exact keeper_forget keeper sid
  · obtain ⟨notHigh, notLow, tree, parsed, ⟨_, rfl, _⟩ | ⟨role, rfl, _⟩⟩ := assigned
    · exact (keeper_forget keeper sid).grows grows
    · apply Keeper.grows _ grows
      apply keeper_setSlot keeper role (created sid origin)
      · cases Priority.ofBody tree <;> rfl
      · intro msg waits _
        left
        cases Priority.ofBody tree <;> exact waits
      · intro other
        rw [Remote.slot_setSlot role, Remote.slot_setSlot role, Remote.slot_forget]
      · exact overtaken sid origin notHigh notLow tree parsed

theorem keeper_onSessionClosed (keeper : Keeper store nextSession remote) {sid : SessionId}
    (holdsNothing : (∃ role, remote.slot role = some sid) →
      ∀ msg ∈ (store.session sid).outQueue, ¬ Owed store remote msg) :
    Keeper store nextSession (remote.onSessionClosed sid) where
  kept msg owed := by
    have before : Owed store remote msg := ⟨owed.accepted, owed.unwritten, owed.young⟩
    rcases keeper.kept msg before with waits | ⟨role, other, taken, member⟩
    · exact .inl waits
    · by_cases closed : other = sid
      · subst closed
        exact absurd before (holdsNothing ⟨role, taken⟩ msg member)
      · refine .inr ⟨role, other, ?_, member⟩
        rw [Remote.slot_onSessionClosed, if_neg]
        · exact taken
        · rw [taken]
          exact fun same => closed (Option.some.inj same)
  created role other taken := by
    rw [Remote.slot_onSessionClosed] at taken
    split at taken
    · cases taken
    · exact keeper.created role other taken

end Channel

/-! ## The server -/

/-- Every channel of the server keeps what it owes. -/
def Custody (s : Server) : Prop :=
  ∀ node remote, s.nodeToSession.lookup node = some remote → Keeper s.store s.nextSession remote

section Handlers

variable {json : JsonCodec} {config : UConfig} {pid : Nat} {s t : Server}

theorem Custody.channel (custody : Custody s) (node : String) :
    Keeper s.store s.nextSession ((s.nodeToSession.lookup node).getD (.new node)) := by
  cases registered : s.nodeToSession.lookup node with
  | none => exact keeper_new node
  | some remote => exact custody node remote registered

/-- The channels are the same, and no session with a role loses a message that is owed. -/
theorem Custody.mono (custody : Custody s) (nodeToSession : t.nodeToSession = s.nodeToSession)
    (now : s.store.now ≤ t.store.now) (written : ∀ msg ∈ s.store.written, msg ∈ t.store.written)
    (queue : ∀ node remote, s.nodeToSession.lookup node = some remote → ∀ role sid,
      remote.slot role = some sid → sid < s.nextSession → ∀ msg ∈ (s.store.session sid).outQueue,
        Owed s.store remote msg → msg ∉ t.store.written → msg ∈ (t.store.session sid).outQueue)
    (le : s.nextSession ≤ t.nextSession) : Custody t := by
  intro node remote registered
  rw [nodeToSession] at registered
  have keeper := custody node remote registered
  refine keeper.mono now written ?_ le
  intro role sid taken
  exact queue node remote registered role sid taken (keeper.created role sid taken)

theorem custody_withStore {store : Sessions} (custody : Custody s) (grows : s.store.Grows store) :
    Custody (s.withStore store) :=
  fun node remote registered => (custody node remote registered).grows grows

/-- The queues of all sessions are the same. -/
theorem custody_set (custody : Custody s) {sid : SessionId} {ss : Session}
    (same : ss.outQueue = (s.store.session sid).outQueue) :
    Custody (s.withStore (s.store.set sid ss)) := by
  refine custody.mono rfl (Nat.le_refl _) (fun _ done => done) ?_ (Nat.le_refl _)
  intro _ _ _ _ other _ _ msg member _ _
  rwa [Server.withStore, Sessions.set_congr (·.outQueue) same other]

theorem custody_setRemote (custody : Custody s) {node : String} {channel : Remote × Sessions}
    (grows : s.store.Grows channel.2) (keeper : Keeper channel.2 s.nextSession channel.1) :
    Custody (s.setRemote node channel) := by
  intro other remote registered
  rw [Server.lookup_setRemote] at registered
  split at registered
  · cases registered
    exact keeper
  · exact (custody other remote registered).grows grows

theorem custody_putOutQueue (custody : Custody s) (sid : SessionId) (msg : Msg) :
    (s.putOutQueue json sid msg).All Custody := by
  apply Outcome.all_map.mpr
  exact (Sessions.grows_putOutQueue json sid msg s.store).mono fun _ => custody_withStore custody

theorem custody_sendTo (custody : Custody s) (node : String) (msg : Msg) :
    (s.sendTo json node msg).All Custody := by
  apply Outcome.all_map.mpr
  apply Outcome.all_of_final
  rintro ⟨changed, after⟩ final
  exact custody_setRemote custody (Remote.grows_send final) (keeper_send (custody.channel node) final)

theorem custody_handleAny (custody : Custody s) (msg : Msg) :
    (Server.handleAny json msg s).All fun after => Custody after.2 :=
  Server.all_handleAny custody (fun _ sid _ _ custody => custody_putOutQueue custody sid msg)
    fun node _ _ custody => custody_sendTo custody node msg

theorem custody_takeOverSession (custody : Custody s) {sid old : SessionId}
    (replaced : old ≠ sid → ∀ node, HoldsNothing s node old) :
    (s.store.takeOverSession sid old).All fun after => Custody (s.withStore after) := by
  unfold Sessions.takeOverSession
  split
  · split
    · exact custody
    · trivial
  next different =>
    apply Outcome.all_map.mpr
    apply (Sessions.grows_takeOverQueue sid (s.store.session old).outQueue s.store).mono
    intro after grows
    refine custody.mono rfl grows.now.ge (fun _ done => grows.written.symm ▸ done) ?_ (Nat.le_refl _)
    intro node remote registered role other taken _ msg member owed _
    -- the only session that loses messages is the old one
    by_cases same : other = old
    · subst same
      exact absurd owed (replaced different node remote registered ⟨role, taken⟩ msg member)
    · simpa [Server.withStore, same] using grows.queue other msg member owed.young

theorem custody_dispatchMsg (lawful : json.Lawful) (custody : Custody s) {sid : SessionId}
    (created : sid < s.nextSession) {header : PTree} {body : Body}
    (keeps : GivesNothingAway json config s (.received sid header body)) :
    (s.dispatchMsg json config sid header body).All Custody := by
  generalize isMsg : Msg.incoming config header body (some sid) = msg
  generalize isKnown : s.withStore (s.store.set sid { s.store.session sid with msg1 := some msg }) = known
  have custody' : Custody known := by
    rw [← isKnown]
    exact custody_set custody rfl
  have count : known.nextSession = s.nextSession := by rw [← isKnown]; rfl
  have channels : known.nodeToSession = s.nodeToSession := by rw [← isKnown]; rfl
  apply Server.dispatchMsg_calls isMsg.symm isKnown.symm
  · intro unknown passed isLocal t returned
    rcases returned with rfl | ⟨old, after, found, done, rfl⟩
    · exact custody'
    · have taken := @custody_takeOverSession known custody' sid old (by
        intro different node remote registered slot queued member owed
        rw [channels] at registered
        rw [← isKnown] at member owed
        refine keeps.replaced old ?_ node remote registered slot queued ?_
          ⟨owed.accepted, owed.unwritten, owed.young⟩
        · subst isMsg
          exact ⟨by rw [Session.authenticated, unknown]; rfl, passed, isLocal, found, different⟩
        · simpa [Server.withStore, different] using member)
      rw [done] at taken
      exact taken
  · intro _ _ _ changed after final
    rw [← channels] at final
    exact custody_setRemote custody' ((Remote.grows_addSession json config sid _ known.store).of_final final)
      (keeper_addSession lawful (count ▸ created) (custody'.channel _) final)
  · intro _ _
    exact (Sessions.grows_gracefullClose json config sid _ s.store).mono fun _ => custody_withStore custody
  · exact fun _ => ⟨custody, custody⟩
  · intro authenticated mine named remote left changed after registered final
    apply custody_setRemote custody (Remote.grows_handlePriorityMsg final)
    apply keeper_handlePriorityMsg (custody _ remote registered) _ _ final
    · intro origin called
      rw [← isMsg, Msg.incoming_origin, Option.some.injEq] at called
      exact called ▸ created
    · intro origin called notHigh notLow tree parsed old taken different only
      rw [← isMsg, Msg.incoming_origin, Option.some.injEq] at called
      rw [← isMsg, Msg.incoming_body] at parsed
      subst called
      refine keeps.overtaken msg.from.node old ?_ remote registered ⟨_, taken⟩
      subst isMsg
      exact ⟨authenticated, mine, named, rfl, remote, registered, notHigh, notLow, tree, parsed, taken,
        different, only⟩
  · exact fun _ body t custody => custody_handleAny custody { msg with body }

/-! ## The end of a session and new sessions -/

/-- A slot of `s_closed`, for a session that holds nothing for the channel of the slot. -/
theorem custody_onClosed (custody : Custody s) {sid : SessionId} {slot : ClosedSlot}
    (holdsNothing : ∀ node, slot = .remote node → HoldsNothing s node sid) :
    Custody (s.onClosed sid slot) := by
  cases slot with
  | registry => exact custody
  | host name => exact custody
  | remote node =>
    simp only [Server.onClosed]
    cases registered : s.nodeToSession.lookup node with
    | none => exact custody
    | some remote =>
      apply custody_setRemote custody (.refl s.store)
      exact keeper_onSessionClosed (custody node remote registered)
        (holdsNothing node rfl remote registered)

/-- The slots of `s_closed` take roles away and leave the messages alone. -/
theorem holdsNothing_onClosed {node : String} {sid : SessionId} (holdsNothing : HoldsNothing s node sid)
    (slot : ClosedSlot) : HoldsNothing (s.onClosed sid slot) node sid := by
  cases slot with
  | registry => exact holdsNothing
  | host name => exact holdsNothing
  | remote closed =>
    simp only [Server.onClosed]
    cases registered : s.nodeToSession.lookup closed with
    | none => exact holdsNothing
    | some remote =>
      rintro changed found ⟨role, taken⟩
      rw [Server.lookup_setRemote] at found
      split at found
      · cases found
        -- the session has lost its roles in this channel
        rw [Remote.slot_onSessionClosed] at taken
        split at taken
        · cases taken
        next different => exact absurd taken different
      · exact holdsNothing changed found ⟨role, taken⟩

theorem custody_emitClosed (custody : Custody s) {sid : SessionId}
    (holdsNothing : ∀ node, .remote node ∈ (s.store.session sid).closedSlots → HoldsNothing s node sid) :
    Custody (s.emitClosed sid) := by
  unfold Server.emitClosed
  generalize (s.store.session sid).closedSlots = slots at holdsNothing
  induction slots generalizing s with
  | nil => exact custody
  | cons slot slots inductionHypothesis =>
    apply inductionHypothesis
    · apply custody_onClosed custody
      rintro node rfl
      exact holdsNothing node List.mem_cons_self
    · intro node member
      exact holdsNothing_onClosed (holdsNothing node (List.mem_cons_of_mem _ member)) slot

theorem holdsNothing_set {node : String} {sid : SessionId} (holdsNothing : HoldsNothing s node sid)
    {ss : Session} (same : ss.outQueue = (s.store.session sid).outQueue) :
    HoldsNothing (s.withStore (s.store.set sid ss)) node sid := by
  intro remote registered slot msg member owed
  refine holdsNothing remote registered slot msg ?_ ⟨owed.accepted, owed.unwritten, owed.young⟩
  simpa [Server.withStore, same] using member

theorem custody_stop (custody : Custody s) {sid : SessionId}
    (holdsNothing : (s.store.session sid).stopped = false →
      ∀ node, .remote node ∈ (s.store.session sid).closedSlots → HoldsNothing s node sid) :
    Custody (s.stop sid) := by
  unfold Server.stop
  dsimp only
  split
  · exact custody
  next running =>
    apply custody_emitClosed
    · exact custody_set custody rfl
    · intro node member
      apply holdsNothing_set _ (by rfl)
      apply holdsNothing (by simpa using running) node
      simpa [Server.withStore, Session.stop] using member

/-- The same for a handler that first ends an operation of the session. -/
theorem custody_stop_set (custody : Custody s) {sid : SessionId} {ss : Session}
    (queue : ss.outQueue = (s.store.session sid).outQueue)
    (stopped : ss.stopped = (s.store.session sid).stopped)
    (closedSlots : ss.closedSlots = (s.store.session sid).closedSlots)
    (holdsNothing : (s.store.session sid).stopped = false →
      ∀ node, .remote node ∈ (s.store.session sid).closedSlots → HoldsNothing s node sid) :
    Custody ((s.withStore (s.store.set sid ss)).stop sid) := by
  apply custody_stop (custody_set custody queue)
  intro running node member
  apply holdsNothing_set _ queue
  simp only [Server.withStore, Sessions.set_session, Function.update_self, stopped, closedSlots]
    at running member
  exact holdsNothing running node member

theorem custody_createSession (custody : Custody s) (direction : Direction) (remoteIp : String) :
    Custody (s.createSession direction remoteIp) := by
  refine @Custody.mono s _ custody rfl (Nat.le_refl _) (fun _ done => done) ?_ (Nat.le_succ _)
  intro _ _ _ _ sid _ created msg member _ _
  have different : sid ≠ s.nextSession := Nat.ne_of_lt created
  simpa [Server.createSession, Server.onSessionCreated, Sessions.connectClosed, different] using member

theorem custody_createOutgoing (custody : Custody s) (hname ip : String) (sessionsToCreate : Nat) :
    Custody (Server.createOutgoing hname ip sessionsToCreate s) := by
  induction sessionsToCreate generalizing s with
  | zero => exact custody
  | succ sessionsToCreate inductionHypothesis =>
    apply inductionHypothesis
    have created := custody_createSession custody .outgoing ip
    have connected := custody_withStore created (Sessions.grows_connectClosed s.nextSession (.host hname) _)
    exact @custody_set _ connected s.nextSession _ (by rfl)

theorem custody_connectResolved (custody : Custody s) (hname : String) (answer : Option String) :
    Custody (s.connectResolved hname answer) := by
  have manager : ∀ outman, Custody { s with outman } := fun _ => custody
  unfold Server.connectResolved
  cases answer with
  | none => exact custody
  | some ip =>
    dsimp only
    split
    · exact custody_createOutgoing (manager _) hname ip _
    · exact custody

theorem custody_accept (custody : Custody s) (raddr : String) :
    (s.accept json config pid raddr).All Custody := by
  apply Server.all_accept custody_withStore
  exact custody_createSession custody .incoming raddr

theorem custody_connectHandler (custody : Custody s) {sid : SessionId} {ok : Bool}
    (keeps : GivesNothingAway json config s (.connectHandler sid ok)) {outcome : Outcome Server}
    (connected : s.connectHandler json config pid sid ok = some outcome) : outcome.All Custody := by
  refine Server.all_connectHandler custody_withStore (custody_set custody rfl) ?_ connected
  intro failed
  exact custody_stop_set custody (by rfl) (by rfl) (by rfl) (keeps.stopped sid ⟨rfl, failed⟩)

/-! ## Completed writes -/

/-- The message that is popped has been written, or the channel does not owe it. -/
theorem custody_popped (custody : Custody s) {sid : SessionId} {i : Nat} {msg : QueuedMsg} {ss : Session}
    (keeps : GivesNothingAway json config s (.written sid i true))
    (found : (s.store.session sid).writes[i]? = some (.message msg true))
    (queue : ss.outQueue = (s.store.session sid).outQueue.tail.dropWhile (·.expired s.store.now)) :
    Custody (s.withStore { s.store.set sid ss with written := s.store.written ++ [msg] }) := by
  refine custody.mono rfl (Nat.le_refl _) (fun _ done => List.mem_append_left _ done) ?_ (Nat.le_refl _)
  intro node remote registered role other taken _ owed member isOwed unwritten
  by_cases called : other = sid
  swap
  · simpa [Server.withStore, called] using member
  subst called
  have behind : owed ∈ (s.store.session other).outQueue.tail := by
    cases full : (s.store.session other).outQueue with
    | nil => simp [full] at member
    | cons front rest =>
      rw [full] at member
      rcases List.mem_cons.mp member with rfl | later
      · by_cases same : msg = owed
        · exact absurd (List.mem_append_right _ (by simp [same])) unwritten
        · exact absurd isOwed (keeps.popped other owed ⟨rfl, rfl, by simp [full], msg, found, same⟩ node
            remote registered ⟨role, taken⟩)
      · exact later
  simpa [Server.withStore, queue] using Sessions.mem_dropWhile_expired behind isOwed.young

theorem custody_onWrite (custody : Custody s) {sid : SessionId} {i : Nat} {ok : Bool}
    (keeps : GivesNothingAway json config s (.written sid i ok)) {outcome : Outcome Server}
    (completed : s.onWrite json config sid i ok = some outcome) : outcome.All Custody := by
  obtain ⟨call, called, rfl⟩ := Option.map_eq_some_iff.mp completed
  apply Outcome.all_map.mpr
  rcases Sessions.onWrite_cases called with ⟨msg, rfl, found, popped⟩ | ⟨other, rfl⟩
  · apply popped.mono
    rintro after ⟨ss, endpoint, queue, rfl⟩
    have stopped : ss.stopped = (s.store.session sid).stopped := congrArg Endpoint.stopped endpoint
    simp only [Sessions.set_session, Function.update_self, stopped, Bool.not_and_self,
      Bool.false_eq_true, if_false]
    exact custody_popped custody keeps found queue
  · show Custody _
    split
    next stops =>
      have running : (s.store.session sid).stopped = false := by
        simpa using (Bool.and_eq_true_iff.mp stops).1
      apply custody_emitClosed
      · exact custody_set custody rfl
      · intro node member
        apply holdsNothing_set _ (by rfl)
        apply keeps.stopped sid ⟨rfl, other⟩ running node
        simpa [Server.withStore, Session.stop] using member
    next => exact custody_set custody rfl

/-! ## Runs -/

theorem custody_received (lawful : json.Lawful) (custody : Custody s) {sid : SessionId}
    {header : PTree} {body : Body} (keeps : GivesNothingAway json config s (.received sid header body))
    (next : s.received json config sid header body = some t) : Custody t := by
  obtain ⟨created, handled⟩ := Server.received_cases next
  have dispatched := custody_dispatchMsg lawful custody created keeps
  rcases handled with done | ⟨u, raised, rfl⟩
  · rw [done] at dispatched
    exact dispatched
  · -- only a message without a name raises, and then nothing has happened yet
    obtain ⟨known, unnamed, rfl⟩ := ReadPath.dispatchMsg_raised lawful raised
    exact @custody_stop_set { s with failedTasks := s.failedTasks + 1 } custody sid
      { s.store.session sid with reading := .idle } rfl rfl rfl
      (keeps.stopped sid ⟨rfl, known, unnamed⟩)

theorem custody_step (lawful : json.Lawful) {e : ServerEvent} (custody : Custody s)
    (next : s.step json config pid e = some t) (keeps : GivesNothingAway json config s e) :
    Custody t := by
  have manager : ∀ {e : ManagerEvent}, s.managerStep e = some t → Custody t := by
    intro e next
    obtain ⟨manager, _, rfl⟩ := Option.map_eq_some_iff.mp next
    exact custody
  cases e with
  | tick elapsed =>
    cases next
    exact custody.mono rfl (Nat.le_add_right _ _) (fun _ done => done)
      (fun _ _ _ _ _ _ _ _ member _ _ => member) (Nat.le_refl _)
  | accept raddr => exact Server.returned_all (custody_accept custody raddr) next
  | fire => exact manager next
  | onTimer i => exact manager next
  | pokeTask => exact manager next
  | resolved i answer =>
    obtain ⟨hname, _, rfl⟩ := Option.map_eq_some_iff.mp next
    apply custody_connectResolved
    exact custody
  | connectHandler sid ok =>
    obtain ⟨outcome, connected, next⟩ := Option.bind_eq_some_iff.mp next
    exact Server.returned_all (custody_connectHandler custody keeps connected) next
  | received sid header body => exact custody_received lawful custody keeps next
  | readAgain sid processor =>
    obtain ⟨_, rfl⟩ := Server.step_readAgain next
    exact custody_set custody rfl
  | readFailed sid =>
    obtain ⟨_, rfl⟩ := Server.step_readFailed next
    exact custody_stop_set custody (by rfl) (by rfl) (by rfl) (keeps.stopped sid rfl)
  | written sid i ok =>
    obtain ⟨outcome, completed, next⟩ := Option.bind_eq_some_iff.mp next
    exact Server.returned_all (custody_onWrite custody keeps completed) next

/-- In a run in which no channel gives a message away, every message that a channel has accepted stays
with it until it is written or too old. -/
theorem custody_runs (lawful : json.Lawful) (now : Nat) (remotes : List String)
    (events : List ServerEvent)
    (meets : Meets (Server.step json config pid) (GivesNothingAway json config)
      (.initial config now remotes) events) :
    Always (Server.step json config pid) NothingLost (.initial config now remotes) events := by
  have initial : Custody (.initial config now remotes) := by
    intro node remote registered
    cases registered
  apply (always_of_meets (custody_step lawful) initial meets).mono
  intro s custody node remote registered
  exact (custody node remote registered).kept

end Handlers

/-- A message of the local application `uecho` of `beta` to the same application of `alpha`. -/
def pingHeader : PTree := (Msg.outgoing ⟨"beta", "uecho"⟩ ⟨"uecho", "alpha"⟩ "ping" .empty).header

/-- The message waits in the channel to `alpha`, which has no session yet. -/
theorem custody_runs_unconnected :
    Always (Server.step Json.compactJson ⟨"beta", "userver"⟩ 1) NothingLost
      (.initial ⟨"beta", "userver"⟩ 0 [])
      [.accept "127.0.0.1", .received 0 (serviceHeader ⟨"beta", "uecho"⟩ "auth") (.tree .empty),
        .received 0 pingHeader (.tree .empty)] := by
  apply custody_runs Json.compactJson_lawful 0 []
  rintro t ⟨rfl⟩
  refine ⟨⟨nofun, nofun, nofun, nofun⟩, ?_⟩
  rintro t ⟨rfl⟩
  refine ⟨⟨?_, ?_, ?_, nofun⟩, ?_⟩
  · rintro sid ⟨rfl, known, _⟩
    cases known
  · rintro node old ⟨known, _⟩
    cases known
  · rintro old ⟨_, _, _, found, _⟩
    cases found
  rintro t ⟨rfl⟩
  refine ⟨⟨?_, ?_, ?_, nofun⟩, trivial⟩
  · rintro sid ⟨rfl, _, unnamed⟩
    cases unnamed
  · rintro node old ⟨_, _, named, _⟩
    exact absurd named (by decide)
  · rintro old ⟨known, _⟩
    cases known

/-- The channel to `alpha` has its two sessions.  The read error of the high priority session comes
before the message is written. -/
theorem read_error_loses_message :
    ¬ Always (Server.step Json.compactJson ⟨"beta", "userver"⟩ 1) NothingLost
      (.initial ⟨"beta", "userver"⟩ 0 [])
      [.accept "10.0.0.7", .received 0 (serviceHeader ⟨"alpha", "userver"⟩ "auth") (.tree .empty),
        .accept "10.0.0.7", .received 1 (serviceHeader ⟨"alpha", "userver"⟩ "auth") (.tree .empty),
        .accept "127.0.0.1", .received 2 (serviceHeader ⟨"beta", "uecho"⟩ "auth") (.tree .empty),
        .received 2 pingHeader (.tree .empty), .readFailed 0] := by
  intro always
  have reached : exec (Server.step Json.compactJson ⟨"beta", "userver"⟩ 1)
      (.initial ⟨"beta", "userver"⟩ 0 [])
      [.accept "10.0.0.7", .received 0 (serviceHeader ⟨"alpha", "userver"⟩ "auth") (.tree .empty),
        .accept "10.0.0.7", .received 1 (serviceHeader ⟨"alpha", "userver"⟩ "auth") (.tree .empty),
        .accept "127.0.0.1", .received 2 (serviceHeader ⟨"beta", "uecho"⟩ "auth") (.tree .empty),
        .received 2 pingHeader (.tree .empty), .readFailed 0] = some _ := rfl
  have kept := always.last reached "alpha" _ rfl _ ⟨List.mem_singleton_self _, nofun, rfl⟩
  rcases kept with waiting | ⟨role, sid, taken, member⟩
  · cases waiting
  · cases role with
    | high | control | undefined => cases taken
    | low =>
      cases taken
      have identity := List.mem_map_of_mem (f := QueuedMsg.id) member
      exact absurd identity (by decide)

end Uzel.Verified.MessageCustody
