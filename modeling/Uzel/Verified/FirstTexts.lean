import Uzel.Chronicle
import Uzel.Verified.Handlers

/-! # What a session says first

A session that has been started begins with its authentication, and one that `do_accept` has refused
says only goodbye.  Both need that nobody writes to a session before it is started: the calls of a
server go to the session whose message is handled and to sessions in its tables, and these are
authenticated.
-/

namespace Uzel.Verified.FirstTexts

open Foundation Protocol Handlers

/-! ## Sessions that nobody calls -/

/-- No table of the server names the session. -/
structure Absent (s : Server) (sid : SessionId) : Prop where
  locals : ∀ app, s.locals.lookup app ≠ some sid
  channels : ∀ node, ¬ s.holds node sid

/-- The session is as it was, and still in no table. -/
structure Spared (sid : SessionId) (ss : Session) (s : Server) : Prop where
  session : s.store.session sid = ss
  absent : Absent s sid

section Calls

variable {json : JsonCodec} {config : UConfig} {sid caller : SessionId} {store : Sessions}

theorem putOutQueue_other (different : sid ≠ caller) (msg : Msg) :
    (store.putOutQueue json caller msg).All fun after => after.session sid = store.session sid := by
  apply Outcome.all_map.mpr
  exact Outcome.all_of_final fun _ _ => by simp [different]

theorem gracefullClose_other (different : sid ≠ caller) (reason : String) :
    (store.gracefullClose json config caller reason).All fun after =>
      after.session sid = store.session sid := by
  apply Outcome.all_map.mpr
  exact Outcome.all_of_final fun _ _ => by simp [different]

theorem takeOverQueue_other (different : sid ≠ caller) (oq : MsgQueue) :
    (store.takeOverQueue caller oq).All fun after => after.session sid = store.session sid := by
  apply Outcome.all_of_final
  intro after final
  obtain ⟨ss, _, rfl⟩ := Sessions.takeOverQueue_final final
  simp [different]

theorem takeOverSession_other {old : SessionId} (different : sid ≠ caller) (apart : sid ≠ old) :
    (store.takeOverSession caller old).All fun after => after.session sid = store.session sid := by
  unfold Sessions.takeOverSession
  split
  · split
    · rfl
    · trivial
  · apply Outcome.all_map.mpr
    apply (takeOverQueue_other different _).mono
    intro after same
    simpa [apart] using same

/-- `addSession` works on the new session only. -/
theorem addSession_other (lawful : json.Lawful) {remote changed : Remote} {after : Sessions} {peer : String}
    (known : (store.session caller).peerNode = some peer) (different : sid ≠ caller)
    (final : (remote.addSession json config caller store).final = some (changed, after)) :
    after.session sid = store.session sid := by
  have adds := Remote.adds_addSession lawful config remote known
  generalize remote.addSession json config caller store = outcome at adds final
  have connected : (store.connectClosed caller (.remote remote.node)).session sid = store.session sid := by
    simp [Sessions.connectClosed, different]
  have flushed : ∀ {queued oq} {rebuild : Sessions → Remote × Sessions}, (∀ u, (rebuild u).2 = u) →
      (((remote.announced caller queued store).takeOverQueue caller oq).map rebuild).final =
        some (changed, after) → after.session sid = store.session sid := by
    intro queued oq rebuild same final
    obtain ⟨u, taken, built⟩ := Option.map_eq_some_iff.mp ((Outcome.final_map ..).symm.trans final)
    have stored : after = u := by rw [← same u, built]
    rw [stored, (takeOverQueue_other different oq).of_final taken, Remote.announced_other different]
  cases adds with
  | waits =>
    cases final
    exact connected
  | high => exact flushed (fun _ => rfl) final
  | low => exact flushed (fun _ => rfl) final
  | @control _ _ _ queued =>
    cases final
    exact Remote.announced_other different queued remote store
  | duplicate _ _ closed =>
    cases final
    have closes := @gracefullClose_other json config sid caller
      (store.connectClosed caller (.remote remote.node)) different "duplicated connection"
    rw [closed] at closes
    exact closes.trans connected

/-- A priority message may close the session that has had the role so far. -/
theorem handlePriorityMsg_other {remote changed : Remote} {msg left : Msg} {after : Sessions}
    (different : msg.origin ≠ some sid) (apart : ¬ remote.Holds sid)
    (final : (remote.handlePriorityMsg json config msg store).final = some (left, changed, after)) :
    after.session sid = store.session sid := by
  rcases Remote.handlePriorityMsg_cases final with ⟨_, _, rfl⟩ | ⟨other, origin, ⟨_, _, rfl⟩ | assigned⟩
  · rfl
  · rfl
  · have caller : sid ≠ other := fun same => different (same ▸ origin)
    obtain ⟨_, _, body, _, ⟨_, _, closes⟩ | ⟨_, _, closes⟩⟩ := assigned
    · exact (gracefullClose_other caller _).of_final closes
    · unfold Remote.closeOvertaken at closes
      split at closes
      · cases closes
        rfl
      next old taken =>
        have overtaken : sid ≠ old := fun same => apart (.inr ⟨_, same ▸ taken⟩)
        exact (gracefullClose_other overtaken _).of_final closes

end Calls

section Spared

variable {json : JsonCodec} {config : UConfig} {sid caller : SessionId} {ss : Session} {s : Server}

theorem Spared.store (spared : Spared sid ss s) {store : Sessions}
    (same : store.session sid = s.store.session sid) : Spared sid ss (s.withStore store) :=
  ⟨same.trans spared.session, spared.absent.locals, spared.absent.channels⟩

theorem Spared.setRemote (spared : Spared sid ss s) {node : String} {changed : Remote} {store : Sessions}
    (same : store.session sid = s.store.session sid) (holds : changed.Holds sid → s.holds node sid) :
    Spared sid ss (s.setRemote node (changed, store)) := by
  refine ⟨same.trans spared.session, spared.absent.locals, ?_⟩
  intro other held
  rw [Server.holds_setRemote] at held
  split at held
  · exact spared.absent.channels node (holds held)
  · exact spared.absent.channels other held

theorem Spared.sendTo (spared : Spared sid ss s) (node : String) (msg : Msg) :
    (s.sendTo json node msg).All (Spared sid ss) := by
  apply Outcome.all_map.mpr
  apply Outcome.all_of_final
  rintro ⟨changed, after⟩ final
  have apart : ¬ ((s.nodeToSession.lookup node).getD (.new node)).Holds sid :=
    fun held => spared.absent.channels node ((Server.holds_getD s node sid).mp held)
  apply spared.setRemote
  · rcases Remote.send_cases final with ⟨_, _, rfl⟩ | ⟨_, _, ⟨high, isHigh, _, _, put⟩ | ⟨_, _, rfl⟩⟩
    · rfl
    · have different : sid ≠ high := fun same => apart (.inr ⟨.high, same ▸ isHigh⟩)
      exact (putOutQueue_other different msg).of_final put
    · rfl
  · exact fun held => absurd (((Remote.holds_send final).2 sid).mp held) apart

theorem Spared.handleAny (spared : Spared sid ss s) (msg : Msg) :
    (Server.handleAny json msg s).All fun after => Spared sid ss after.2 := by
  apply Server.all_handleAny spared
  · intro app other t registered later
    have different : sid ≠ other := fun same => spared.absent.locals app (same ▸ registered)
    apply Outcome.all_map.mpr
    exact (putOutQueue_other different msg).mono fun _ => later.store
  · exact fun node t _ later => later.sendTo node msg

/-- A message of another session does not reach a session that is in no table. -/
theorem Spared.dispatchMsg (lawful : json.Lawful) (spared : Spared sid ss s) (different : sid ≠ caller)
    (header : PTree) (body : Body) :
    (s.dispatchMsg json config caller header body).All (Spared sid ss) := by
  generalize isMsg : Msg.incoming config header body (some caller) = msg
  generalize isKnown : s.withStore (s.store.set caller
    { s.store.session caller with msg1 := some msg }) = known
  have spared' : Spared sid ss known := by
    rw [← isKnown]
    exact spared.store (by simp [different])
  have channels : known.nodeToSession = s.nodeToSession := by rw [← isKnown]; rfl
  apply Server.dispatchMsg_calls isMsg.symm isKnown.symm
  · intro _ _ _ t returned
    have later : Spared sid ss t := by
      rcases returned with rfl | ⟨old, after, registered, done, rfl⟩
      · exact spared'
      · have apart : sid ≠ old := fun same => spared.absent.locals _ (same ▸ registered)
        have taken := @takeOverSession_other sid caller known.store old different apart
        rw [done] at taken
        exact spared'.store taken
    refine ⟨later.session, ?_, later.absent.channels⟩
    intro app registered
    by_cases same : app = msg.from.app
    · subst same
      rw [AList.lookup_insert, Option.some.injEq] at registered
      exact different registered.symm
    · rw [AList.lookup_insert_ne same] at registered
      exact later.absent.locals app registered
  · intro _ _ _ changed after final
    have peer : (known.store.session caller).peerNode = some msg.from.node := by
      simp [← isKnown, Server.withStore, Session.peerNode]
    apply spared'.setRemote (addSession_other lawful peer different final)
    intro held
    rcases Remote.holds_addSession lawful final held with before | same
    · rw [← channels] at before
      exact (Server.holds_getD known _ sid).mp before
    · exact absurd same different
  · intro _ _
    exact (gracefullClose_other different _).mono fun _ => spared.store
  · exact fun _ => ⟨spared, spared.session, spared.absent.locals, spared.absent.channels⟩
  · intro _ _ _ remote left changed after registered final
    have origin : msg.origin ≠ some sid := by
      rw [← isMsg, Msg.incoming_origin]
      exact fun same => different (Option.some.inj same).symm
    have apart : ¬ remote.Holds sid := fun held => spared.absent.channels _ ⟨remote, registered, held⟩
    apply spared.setRemote (handlePriorityMsg_other origin apart final)
    intro held
    rcases Remote.holds_handlePriorityMsg final held with before | ⟨same, _⟩
    · exact absurd before apart
    · exact absurd same origin
  · exact fun _ body t later => later.handleAny { msg with body }

end Spared

/-! ## The tables name authenticated sessions -/

/-- The sessions in the tables are authenticated, and those that are still to be created are not. -/
structure Tabled (s : Server) : Prop where
  locals : ∀ app sid, s.locals.lookup app = some sid → (s.store.session sid).msg1 ≠ none
  channels : ∀ node sid, s.holds node sid → (s.store.session sid).msg1 ≠ none
  blank : s.Blank

theorem Tabled.absent {s : Server} (tabled : Tabled s) {sid : SessionId}
    (unknown : (s.store.session sid).msg1 = none) : Absent s sid :=
  ⟨fun app registered => tabled.locals app sid registered unknown,
    fun node held => tabled.channels node sid held unknown⟩

section Tabled

variable {json : JsonCodec} {config : UConfig} {pid : Nat} {s t : Server} {sid : SessionId}

theorem tabled_create (tabled : Tabled s) (direction : Direction) (ip : String) :
    Tabled (s.createSession direction ip) := by
  have other : ∀ sid, (s.store.session sid).msg1 ≠ none →
      ((s.createSession direction ip).store.session sid).msg1 ≠ none := by
    intro sid known
    have old : sid ≠ s.nextSession := fun same => known (tabled.blank sid same.ge)
    rwa [Server.createSession_other direction ip old]
  refine ⟨fun app sid registered => other sid (tabled.locals app sid registered),
    fun node sid held => other sid (tabled.channels node sid held), ?_⟩
  intro sid later
  have later : s.nextSession + 1 ≤ sid := later
  rw [Server.createSession_other direction ip (Nat.ne_of_gt later)]
  exact tabled.blank sid (Nat.le_of_lt later)

theorem kept_tabled {own : String} : Server.Kept own Tabled where
  steady tabled steady :=
    { locals := fun app sid registered => by
        rw [(steady.sessions sid).msg1]
        exact tabled.locals app sid (steady.locals ▸ registered)
      channels := fun node sid held => by
        rw [(steady.sessions sid).msg1]
        exact tabled.channels node sid ((steady.holds node sid).mp held)
      blank := fun sid later =>
        (steady.sessions sid).msg1.trans (tabled.blank sid (steady.nextSession ▸ later)) }
  create ip tabled := tabled_create tabled .incoming ip
  stop {s sid} tabled running := by
    have closing := Server.closing_stop running
    have msg1 := Server.stop_keeps (·.msg1) (fun _ => rfl) running
    refine ⟨?_, ?_, ?_⟩
    · intro app other registered
      rw [msg1]
      exact tabled.locals app other (closing.locals ▸ registered)
    · intro node other held
      rw [msg1]
      exact tabled.channels node other (closing.holds node other held)
    · intro other later
      rw [msg1]
      exact tabled.blank other (closing.nextSession ▸ later)

theorem tabled_dispatchMsg (lawful : json.Lawful) (tabled : Tabled s) (created : sid < s.nextSession)
    (header : PTree) (body : Body) : (s.dispatchMsg json config sid header body).All Tabled := by
  generalize isMsg : Msg.incoming config header body (some sid) = msg
  generalize isKnown : s.withStore (s.store.set sid { s.store.session sid with msg1 := some msg }) = known
  have self : (known.store.session sid).msg1 = some msg := by simp [← isKnown, Server.withStore]
  have other : ∀ other, other ≠ sid → known.store.session other = s.store.session other := by
    intro other different
    simp [← isKnown, Server.withStore, different]
  have channels : known.nodeToSession = s.nodeToSession := by rw [← isKnown]; rfl
  have knows : ∀ other, (s.store.session other).msg1 ≠ none → (known.store.session other).msg1 ≠ none := by
    intro x before
    by_cases same : x = sid
    · simp [same, self]
    · rwa [other x same]
  have tabled' : Tabled known := by
    refine ⟨?_, ?_, ?_⟩
    · intro app x registered
      exact knows x (tabled.locals app x (by rw [← isKnown] at registered; exact registered))
    · intro node x held
      exact knows x (tabled.channels node x (by rw [Server.holds, ← channels]; exact held))
    · intro x later
      have later : s.nextSession ≤ x := by rw [← isKnown] at later; exact later
      rw [other x fun same => Nat.not_le.mpr created (same ▸ later)]
      exact tabled.blank x later
  apply kept_tabled.dispatchMsg isMsg.symm isKnown.symm (fun _ => tabled)
  · intro _ _ _ t steady
    have after := kept_tabled.steady tabled' steady
    refine ⟨?_, after.channels, after.blank⟩
    intro app x registered
    by_cases same : app = msg.from.app
    · subst same
      rw [AList.lookup_insert, Option.some.injEq] at registered
      rw [← registered, (steady.sessions sid).msg1, self]
      exact Option.some_ne_none msg
    · rw [AList.lookup_insert_ne same] at registered
      exact after.locals app x registered
  · intro _ _ _ changed after final
    have peer : (known.store.session sid).peerNode = some msg.from.node := by simp [Session.peerNode, self]
    have persist := Remote.carries_addSession Session.carried_persists lawful peer final
    refine ⟨?_, ?_, ?_⟩
    · intro app x registered
      rw [Server.setRemote_store, (persist x).msg1]
      exact tabled'.locals app x registered
    · intro node x held
      rw [Server.setRemote_store, (persist x).msg1]
      rw [Server.holds_setRemote] at held
      split at held
      · rcases Remote.holds_addSession lawful final held with before | rfl
        · rw [← channels] at before
          exact tabled'.channels _ x ((Server.holds_getD known _ x).mp before)
        · simp [self]
      · exact tabled'.channels node x held
    · exact fun x later => (persist x).msg1.trans (tabled'.blank x later)
  · intro authenticated _ _ remote left changed after registered final
    have persist := Remote.carries_handlePriorityMsg Session.carried_persists final
    refine ⟨?_, ?_, ?_⟩
    · intro app x enrolled
      rw [Server.setRemote_store, (persist x).msg1]
      exact tabled.locals app x enrolled
    · intro node x held
      rw [Server.setRemote_store, (persist x).msg1]
      rw [Server.holds_setRemote] at held
      split at held
      · rcases Remote.holds_handlePriorityMsg final held with before | ⟨origin, _⟩
        · exact tabled.channels _ x ⟨remote, registered, before⟩
        · rw [← isMsg, Msg.incoming_origin, Option.some.injEq] at origin
          exact origin ▸ Option.isSome_iff_ne_none.mp authenticated
      · exact tabled.channels node x held
    · exact fun x later => (persist x).msg1.trans (tabled.blank x later)

theorem tabled_step (lawful : json.Lawful) {e : ServerEvent} (tabled : Tabled s)
    (next : s.step json config pid e = some t) : Tabled t := by
  apply kept_tabled.step (fun ip tabled => tabled_create tabled .outgoing ip)
    (fun _ tabled => ⟨tabled.locals, tabled.channels, tabled.blank⟩) tabled next
  rintro sid header body rfl created _
  exact tabled_dispatchMsg lawful tabled created header body

end Tabled

/-! ## Streams only grow -/

section Streams

variable {json : JsonCodec} {config : UConfig} {ss : Session}

theorem sent_asyncWrite (write : Bool → Write) (text : List Char) (ss : Session) :
    ss.sent <+: (ss.asyncWrite write text).sent := by
  simp only [Session.asyncWrite]
  split
  · exact List.prefix_rfl
  · exact List.prefix_append _ _

theorem sent_doWrite (now : Nat) (ss : Session) : ss.sent <+: (ss.doWrite now).sent := by
  rcases Session.doWrite_cases now ss with ⟨_, same⟩ | ⟨front, rest, _, same⟩
  · rw [same, Session.deleteOld_sent]
  · rw [same]
    exact sent_asyncWrite (.message front) front.rawmsg (ss.deleteOld now)

theorem carried_sent : Session.Carried fun ss after => ss.sent <+: after.sent where
  refl _ := List.prefix_rfl
  trans := List.IsPrefix.trans
  appended ss now msgs := by
    unfold Session.append
    split
    · exact sent_doWrite now { ss with outQueue := msgs }
    · exact List.prefix_rfl
  emptied _ := List.prefix_rfl
  bye ss text := sent_asyncWrite .bye text ss
  flagged _ _ := List.prefix_rfl
  connected _ _ := List.prefix_rfl

theorem dispatchMsg_sent (lawful : json.Lawful) (sid : SessionId) (header : PTree) (body : Body)
    (s : Server) : (s.dispatchMsg json config sid header body).All fun t =>
      t.nextSession = s.nextSession ∧
        ∀ other, (s.store.session other).sent <+: (t.store.session other).sent :=
  Server.dispatchMsg_carries carried_sent (fun _ _ _ => List.prefix_rfl) lawful sid header body s

/-- The end of a session is not the end of what it has said. -/
theorem stop_same {α : Sort*} (f : Session → α) (keeps : ∀ ss, f (Session.stop ss) = f ss) (s : Server)
    (sid other : SessionId) : f ((s.stop sid).store.session other) = f (s.store.session other) := by
  cases stopped : (s.store.session sid).stopped with
  | true => rw [Server.stop, if_pos stopped]
  | false => exact Server.stop_keeps f keeps stopped other

end Streams

/-! ## The first text -/

/-- `start()` has not been called, and nobody has written anything. -/
structure Unopened (ss : Session) : Prop where
  sent : ss.sent = []
  queue : ss.outQueue = []
  writes : ss.writes = []
  unknown : ss.msg1 = none
  idle : ss.reading = .idle

/-- What a session has said first. -/
inductive Opening (json : JsonCodec) (config : UConfig) (pid : Nat) (refused : Prop) (ss : Session) : Prop
  | silent (admitted : ¬ refused) (unopened : Unopened ss)
  | goodbye (isRefused : refused) {bye : List Char}
      (encoded : (Notice.bye "connection refused: too many connections").text json config = some bye)
      (sent : ss.sent = [bye]) (writes : ∀ write ∈ ss.writes, ∃ live, write = .bye live)
      (unknown : ss.msg1 = none) (idle : ss.reading = .idle) (connected : ss.connecting = false)
  | started (admitted : ¬ refused) {auth : List Char}
      (encoded : (Notice.auth pid).text json config = some auth) (first : ss.sent.head? = some auth)

section Openings

variable {json : JsonCodec} {config : UConfig} {pid : Nat} {refused : Prop} {ss after : Session}

theorem opening_of_started (admitted : ¬ refused) {auth : List Char}
    (encoded : (Notice.auth pid).text json config = some auth) (first : ss.sent.head? = some auth)
    (sent : ss.sent <+: after.sent) : Opening json config pid refused after := by
  obtain ⟨more, same⟩ := sent
  refine .started admitted encoded ?_
  rw [← same, List.head?_append, first]
  rfl

theorem Opening.of_reading (opening : Opening json config pid refused ss)
    (reading : ss.reading ≠ .idle) (sent : ss.sent <+: after.sent) :
    Opening json config pid refused after := by
  cases opening with
  | silent _ unopened => exact absurd unopened.idle reading
  | goodbye _ _ _ _ _ idle => exact absurd idle reading
  | started admitted encoded first => exact opening_of_started admitted encoded first sent

/-- The session is as open as it was. -/
theorem Opening.of_same (opening : Opening json config pid refused ss) (sent : after.sent = ss.sent)
    (queue : after.outQueue = ss.outQueue) (writes : after.writes = ss.writes)
    (msg1 : after.msg1 = ss.msg1) (reading : ss.reading = .idle → after.reading = .idle)
    (connecting : after.connecting = true → ss.connecting = true) :
    Opening json config pid refused after := by
  cases opening with
  | silent admitted unopened =>
    exact .silent admitted ⟨sent.trans unopened.sent, queue.trans unopened.queue,
      writes.trans unopened.writes, msg1.trans unopened.unknown, reading unopened.idle⟩
  | goodbye isRefused encoded bye byes unknown idle connected =>
    refine .goodbye isRefused encoded (sent.trans bye) (writes ▸ byes) (msg1.trans unknown) (reading idle) ?_
    by_contra restarted
    simp [connected] at connecting
    exact restarted connecting
  | started admitted encoded first => exact .started admitted encoded (sent ▸ first)

/-- `start()` on a session that has not said anything. -/
theorem Opening.start (lawful : json.Lawful) (opening : Opening json config pid refused ss)
    (connecting : ss.connecting = true) (running : ss.stopped = false) {now id : Nat}
    (returned : { ss with connecting := false }.start json config pid now id = .done after) :
    Opening json config pid refused after := by
  obtain ⟨queued, started, encoded, young⟩ :=
    @start_eq json pid lawful config { ss with connecting := false } now id
  rw [started] at returned
  cases returned
  cases opening with
  | silent admitted unopened =>
    refine .started admitted encoded ?_
    rw [enqueue_young young, if_pos unopened.queue]
    simp [Session.doRead, Session.asyncWrite, running, unopened.sent]
  | goodbye _ _ _ _ _ _ connected => simp [connected] at connecting
  | started admitted encoded first =>
    exact opening_of_started admitted encoded first
      (carried_sent.enqueue { ss with connecting := false } now queued)

theorem Opening.onWrite (opening : Opening json config pid refused ss) {now i : Nat} {ok : Bool}
    {outcome : Outcome Session} (completed : ss.onWrite json config now i ok = some outcome) :
    outcome.All (Opening json config pid refused) := by
  rcases Session.onWrite_cases completed with ⟨msg, _, found, rfl⟩ | ⟨_, bound, rfl⟩
  · cases opening with
    | silent _ unopened => simp [unopened.writes] at found
    | goodbye _ _ _ byes =>
      obtain ⟨live, isBye⟩ := byes _ (List.mem_of_getElem? found)
      cases isBye
    | started admitted encoded first =>
      apply Outcome.all_of_final
      intro after final
      apply opening_of_started admitted encoded first
      simp only [Session.onWritten, Session.sendByeAndClose] at final
      split at final
      · split at final
        · cases final
          exact List.prefix_rfl
        next text _ =>
          cases final
          exact sent_asyncWrite .bye text _
      · cases final
        exact List.prefix_rfl
  · cases opening with
    | silent _ unopened => simp [unopened.writes] at bound
    | goodbye isRefused encoded sent byes unknown idle connected =>
      exact .goodbye isRefused encoded sent
        (fun write member => byes write (List.mem_of_mem_eraseIdx member)) unknown idle connected
    | started admitted encoded first => exact .started admitted encoded first

end Openings

/-! ## Runs of a server -/

/-- Every session of the server has said the right thing first; `refused` are the sessions that
`do_accept` has refused. -/
structure Begins (json : JsonCodec) (config : UConfig) (pid : Nat) (refused : SessionId → Prop)
    (s : Server) : Prop where
  tabled : Tabled s
  unborn : ∀ sid, s.nextSession ≤ sid → ¬ refused sid
  opening : ∀ sid < s.nextSession, Opening json config pid (refused sid) (s.store.session sid)

/-- The refused sessions after an event. -/
def refusedAfter (s : Server) (refused : SessionId → Prop) : ServerEvent → SessionId → Prop
  | .accept raddr, sid => refused sid ∨ (sid = s.nextSession ∧ s.refuses raddr)
  | _, sid => refused sid

section Server

variable {json : JsonCodec} {config : UConfig} {pid : Nat} {refused : SessionId → Prop} {s t : Server}
  {sid : SessionId}

theorem begins_initial (now : Nat) (remotes : List String) :
    Begins json config pid (fun _ => False) (.initial config now remotes) :=
  ⟨⟨nofun, nofun, fun _ _ => rfl⟩, fun _ _ => id, nofun⟩

/-- Only one session has changed. -/
theorem Begins.session (begins : Begins json config pid refused s) (tabled : Tabled t)
    (next : t.nextSession = s.nextSession)
    (others : ∀ other, other ≠ sid → t.store.session other = s.store.session other)
    (self : sid < s.nextSession → Opening json config pid (refused sid) (t.store.session sid)) :
    Begins json config pid refused t := by
  refine ⟨tabled, fun other new => begins.unborn other (next ▸ new), ?_⟩
  intro other created
  rw [next] at created
  by_cases same : other = sid
  · exact same ▸ self (same ▸ created)
  · exact others other same ▸ begins.opening other created

theorem begins_accept (lawful : json.Lawful) (begins : Begins json config pid refused s) (tabled : Tabled t)
    {raddr : String} (returned : Server.returned (s.accept json config pid raddr) = some t) :
    Begins json config pid (refusedAfter s refused (.accept raddr)) t := by
  have self := Server.createSession_self .incoming raddr s
  have others : ∀ other, other ≠ s.nextSession →
      (s.createSession .incoming raddr).store.session other = s.store.session other :=
    fun _ => Server.createSession_other .incoming raddr
  have next : (s.createSession .incoming raddr).nextSession = s.nextSession + 1 := rfl
  have limit : (Server.maxConnectionsWithAddr <
      ((s.createSession .incoming raddr).ipToSession raddr).length) = s.refuses raddr := rfl
  simp only [Server.accept, limit] at returned
  generalize s.createSession .incoming raddr = u at self others next returned
  -- what has become of the new session is all there is to show
  have finish : ∀ {store : Sessions}, t = u.withStore store →
      (∀ other, other ≠ s.nextSession → store.session other = u.store.session other) →
      Opening json config pid (s.refuses raddr) (store.session s.nextSession) →
      Begins json config pid (refusedAfter s refused (.accept raddr)) t := by
    rintro store rfl same opening
    refine ⟨tabled, ?_, ?_⟩
    · intro sid new
      have new : s.nextSession + 1 ≤ sid := next ▸ new
      rintro (before | ⟨created, _⟩)
      · exact begins.unborn sid (Nat.le_of_lt new) before
      · exact absurd created (Nat.ne_of_gt new)
    · intro sid created
      have created : sid < s.nextSession + 1 := next ▸ created
      by_cases isNew : sid = s.nextSession
      · have verdict : refusedAfter s refused (.accept raddr) s.nextSession = s.refuses raddr := by
          simp [refusedAfter, begins.unborn s.nextSession (Nat.le_refl _)]
        rw [isNew, verdict]
        exact opening
      · have verdict : refusedAfter s refused (.accept raddr) sid = refused sid := by
          simp [refusedAfter, isNew]
        have old : sid < s.nextSession := Nat.lt_of_le_of_ne (Nat.le_of_lt_succ created) isNew
        rw [verdict]
        show Opening json config pid (refused sid) (store.session sid)
        rw [same sid isNew, others sid isNew]
        exact begins.opening sid old
  split at returned
  next tooMany =>
    simp only [Sessions.gracefullClose, self, Session.gracefullClose, Session.new, Bool.false_eq_true,
      if_false, List.isEmpty_nil, if_true, Session.sendByeAndClose] at returned
    split at returned
    · cases returned
    next bye encoded =>
      cases returned
      apply finish rfl
      · intro other different
        simp [different]
      · simp only [Sessions.set_session, Function.update_self]
        exact .goodbye tooMany encoded rfl (by simp [Session.asyncWrite]) rfl rfl rfl
  next admitted =>
    obtain ⟨queued, started, encoded, young⟩ :=
      @start_eq json pid lawful config (u.store.session s.nextSession) u.store.now u.store.nextMsg
    rw [Sessions.start, started] at returned
    cases returned
    apply finish rfl
    · intro other different
      simp [different]
    · refine .started admitted encoded ?_
      simp only [Sessions.set_session, Function.update_self]
      rw [enqueue_young young, self]
      simp [Session.doRead, Session.asyncWrite, Session.new]

theorem begins_stop (begins : Begins json config pid refused s) (sid : SessionId) :
    Begins json config pid refused (s.stop sid) := by
  have next : (s.stop sid).nextSession = s.nextSession := by
    cases stopped : (s.store.session sid).stopped with
    | true => rw [Server.stop, if_pos stopped]
    | false => exact (Server.closing_stop stopped).nextSession
  refine ⟨@Server.Kept.any_stop config _ s kept_tabled begins.tabled sid, ?_, ?_⟩
  · exact fun other new => begins.unborn other (next ▸ new)
  · intro other created
    apply (begins.opening other (next ▸ created)).of_same
    · exact stop_same (·.sent) (fun _ => rfl) s sid other
    · exact stop_same (·.outQueue) (fun _ => rfl) s sid other
    · exact stop_same (·.writes) (fun _ => rfl) s sid other
    · exact stop_same (·.msg1) (fun _ => rfl) s sid other
    · exact (stop_same (·.reading) (fun _ => rfl) s sid other).trans
    · exact (stop_same (·.connecting) (fun _ => rfl) s sid other).symm.trans

theorem tabled_set (tabled : Tabled s) {ss : Session} (persists : (s.store.session sid).Persists ss) :
    Tabled (s.withStore (s.store.set sid ss)) :=
  (@kept_tabled "").steady tabled (Server.steady_set persists)

theorem begins_readFailed (begins : Begins json config pid refused s) (sid : SessionId) :
    Begins json config pid refused (s.readFailed sid) := by
  apply begins_stop
  have tabled : Tabled (s.setReading sid .idle) :=
    tabled_set begins.tabled ⟨rfl, rfl, rfl, rfl, List.Subset.refl _⟩
  apply @Begins.session json config pid refused s (s.setReading sid .idle) sid begins tabled rfl
  · intro other different
    simp [Server.setReading, Server.withStore, different]
  · intro created
    simp only [Server.setReading, Server.withStore, Sessions.set_session, Function.update_self]
    exact (begins.opening sid created).of_same rfl rfl rfl rfl (fun _ => rfl) id

theorem begins_connectHandler (lawful : json.Lawful) (begins : Begins json config pid refused s)
    (tabled : Tabled t) {ok : Bool} {outcome : Outcome Server}
    (connected : s.connectHandler json config pid sid ok = some outcome)
    (returned : Server.returned outcome = some t) : Begins json config pid refused t := by
  simp only [Server.connectHandler] at connected
  split at connected
  · cases connected
  next enabled =>
    have connecting : (s.store.session sid).connecting = true := And.left (by simpa using enabled)
    generalize isBegun : s.withStore (s.store.set sid
      { s.store.session sid with connecting := false }) = u at connected
    have self : u.store.session sid = { s.store.session sid with connecting := false } := by
      simp [← isBegun, Server.withStore]
    have others : ∀ other, other ≠ sid → u.store.session other = s.store.session other := by
      intro other different
      simp [← isBegun, Server.withStore, different]
    have next : u.nextSession = s.nextSession := by rw [← isBegun]; rfl
    split at connected
    next isOk =>
      cases connected
      have running : (s.store.session sid).stopped = false := by simpa [connecting, isOk] using enabled
      simp only [Sessions.start, self] at returned
      cases started : { s.store.session sid with connecting := false }.start json config pid u.store.now
          u.store.nextMsg with
      | raised ss => simp [started, Server.returned] at returned
      | hung => simp [started, Server.returned] at returned
      | done ss =>
        rw [started] at returned
        cases returned
        apply begins.session tabled next
        · intro other different
          rw [← others other different]
          simp [Server.withStore, different]
        · intro created
          simp only [Server.withStore, Sessions.set_session, Function.update_self]
          exact (begins.opening sid created).start lawful connecting running started
    next =>
      cases connected
      cases returned
      -- the connection has failed
      apply begins_stop
      have tabled : Tabled u := by
        rw [← isBegun]
        exact tabled_set begins.tabled ⟨rfl, rfl, rfl, rfl, List.Subset.refl _⟩
      apply begins.session tabled next others
      intro created
      rw [self]
      exact (begins.opening sid created).of_same rfl rfl rfl rfl id Bool.false_ne_true.elim

/-- The loop at the end of `connectResolved` only adds sessions. -/
theorem createOutgoing_unopened (hname ip : String) (sessionsToCreate : Nat) (s : Server) :
    let t := Server.createOutgoing hname ip sessionsToCreate s
    s.nextSession ≤ t.nextSession ∧
      (∀ sid < s.nextSession, t.store.session sid = s.store.session sid) ∧
      ∀ sid < t.nextSession, s.nextSession ≤ sid → Unopened (t.store.session sid) := by
  induction sessionsToCreate generalizing s with
  | zero => exact ⟨Nat.le_refl _, fun _ _ => rfl, fun sid below above => absurd below (Nat.not_lt.mpr above)⟩
  | succ sessionsToCreate inductionHypothesis =>
    simp only [Server.createOutgoing]
    generalize isBegun : (s.createSession .outgoing ip).withStore
      (((s.createSession .outgoing ip).store.connectClosed s.nextSession (.host hname)).set s.nextSession
        (((s.createSession .outgoing ip).store.connectClosed s.nextSession (.host hname)).session
          s.nextSession).startConnection) = u
    have next : u.nextSession = s.nextSession + 1 := by rw [← isBegun]; rfl
    have others : ∀ sid, sid ≠ s.nextSession → u.store.session sid = s.store.session sid := by
      intro sid different
      simp [← isBegun, Server.withStore, Sessions.connectClosed, Server.createSession_other, different]
    have self : Unopened (u.store.session s.nextSession) := by
      simp only [← isBegun, Server.withStore, Sessions.connectClosed, Sessions.set_session,
        Function.update_self, Server.createSession_self, Session.startConnection, Session.new]
      exact ⟨rfl, rfl, rfl, rfl, rfl⟩
    obtain ⟨le, old, new⟩ := inductionHypothesis u
    refine ⟨Nat.le_trans (next.symm ▸ Nat.le_succ s.nextSession) le, ?_, ?_⟩
    · intro sid below
      rw [old sid (next ▸ Nat.lt_succ_of_lt below), others sid (Nat.ne_of_lt below)]
    · intro sid below above
      by_cases same : sid = s.nextSession
      · rw [same, old s.nextSession (next ▸ Nat.lt_succ_self _)]
        exact self
      · exact new sid below (next ▸ Nat.lt_of_le_of_ne above (Ne.symm same))

theorem begins_resolved (begins : Begins json config pid refused s) (tabled : Tabled t) {i : Nat}
    {answer : Option String} (next : s.step json config pid (.resolved i answer) = some t) :
    Begins json config pid refused t := by
  obtain ⟨hname, _, rfl⟩ := Option.map_eq_some_iff.mp next
  -- the manager of outgoing connections is not looked at
  have grows : ∀ u : Server, (u.nextSession = s.nextSession ∧ u.store.session = s.store.session) →
      ∀ n ip, Tabled (Server.createOutgoing hname ip n u) →
        Begins json config pid refused (Server.createOutgoing hname ip n u) := by
    intro u same n ip tabled
    obtain ⟨le, old, new⟩ := createOutgoing_unopened hname ip n u
    rw [same.1] at le old new
    refine ⟨tabled, fun sid later => begins.unborn sid (le.trans later), ?_⟩
    intro sid created
    by_cases before : sid < s.nextSession
    · rw [old sid before, same.2]
      exact begins.opening sid before
    · have above := Nat.le_of_not_lt before
      exact .silent (begins.unborn sid above) (new sid created above)
  revert tabled
  simp only [Server.connectResolved]
  split
  · exact fun tabled => ⟨tabled, begins.unborn, begins.opening⟩
  · split
    · apply grows
      exact ⟨rfl, rfl⟩
    · exact fun tabled => ⟨tabled, begins.unborn, begins.opening⟩

theorem begins_received (lawful : json.Lawful) (begins : Begins json config pid refused s) {header : PTree}
    {body : Body} (next : s.received json config sid header body = some t) :
    Begins json config pid refused t := by
  have reading := Server.received_pending next
  obtain ⟨created, handled⟩ := Server.received_cases next
  have dispatched : (s.dispatchMsg json config sid header body).All (Begins json config pid refused) := by
    apply Outcome.all_of_final
    intro u final
    have tabled := (tabled_dispatchMsg lawful begins.tabled created header body).of_final final
    obtain ⟨count, sent⟩ := (dispatchMsg_sent lawful sid header body s).of_final final
    refine ⟨tabled, fun other new => begins.unborn other (count ▸ new), ?_⟩
    intro other below
    have opening := begins.opening other (count ▸ below)
    by_cases unknown : (s.store.session other).msg1 = none ∧ other ≠ sid
    · have spared : Spared other (s.store.session other) s := ⟨rfl, begins.tabled.absent unknown.1⟩
      have after := (spared.dispatchMsg lawful unknown.2 header body).of_final final
      exact after.session ▸ opening
    -- a session that is authenticated or reads has been started
    · cases opening with
      | started admitted encoded first => exact opening_of_started admitted encoded first (sent other)
      | silent _ unopened =>
        have same : other = sid := by
          by_contra different
          exact unknown ⟨unopened.unknown, different⟩
        simp [← same, unopened.idle] at reading
      | goodbye _ _ _ _ notKnown idle =>
        have same : other = sid := by
          by_contra different
          exact unknown ⟨notKnown, different⟩
        simp [← same, idle] at reading
  rcases handled with done | ⟨u, raised, rfl⟩
  · rw [done] at dispatched
    exact dispatched
  · rw [raised] at dispatched
    exact begins_readFailed dispatched sid

theorem begins_written (begins : Begins json config pid refused s) {i : Nat} {ok : Bool}
    {outcome : Outcome Server} (completed : s.onWrite json config sid i ok = some outcome)
    (returned : Server.returned outcome = some t) (tabled : Tabled t) : Begins json config pid refused t := by
  obtain ⟨ss, written, answered, effect⟩ := Server.onWrite_returned completed returned
  -- the slots of `s_closed` do not touch the sessions
  have emitted : t.nextSession = s.nextSession ∧ t.store.session = Function.update s.store.session sid ss := by
    rcases effect with ⟨_, _, rfl⟩ | ⟨_, rfl⟩
    · have closing := Server.closing_emitClosed (s.withStore { s.store.set sid ss with written }) sid
      exact ⟨closing.nextSession, by rw [closing.store]; rfl⟩
    · exact ⟨rfl, rfl⟩
  obtain ⟨nextSession, sessions⟩ := emitted
  apply @Begins.session json config pid refused s t sid begins tabled nextSession
  · intro other different
    rw [sessions, Function.update_of_ne different]
  · intro created
    rw [sessions, Function.update_self]
    exact (begins.opening sid created).onWrite answered

theorem begins_step (lawful : json.Lawful) (begins : Begins json config pid refused s) {e : ServerEvent}
    (next : s.step json config pid e = some t) :
    Begins json config pid (refusedAfter s refused e) t := by
  have tabled := tabled_step lawful begins.tabled next
  have manager : ∀ {e : ManagerEvent}, s.managerStep e = some t → Begins json config pid refused t := by
    intro e next
    obtain ⟨manager, _, rfl⟩ := Option.map_eq_some_iff.mp next
    exact ⟨tabled, begins.unborn, begins.opening⟩
  cases e with
  | tick elapsed =>
    cases next
    exact ⟨tabled, begins.unborn, begins.opening⟩
  | accept raddr => exact begins_accept lawful begins tabled next
  | fire => exact manager next
  | onTimer i => exact manager next
  | pokeTask => exact manager next
  | resolved i answer => exact begins_resolved begins tabled next
  | connectHandler sid ok =>
    obtain ⟨outcome, connected, returned⟩ := Option.bind_eq_some_iff.mp next
    exact begins_connectHandler lawful begins tabled connected returned
  | received sid header body => exact begins_received lawful begins next
  | readAgain sid processor =>
    obtain ⟨reading, rfl⟩ := Server.step_readAgain next
    refine @Begins.session json config pid refused s _ sid begins tabled rfl ?_ ?_
    · intro other different
      simp [Server.readAgain, Server.withStore, different]
    · intro created
      simp only [Server.readAgain, Server.withStore, Sessions.set_session, Function.update_self]
      exact (begins.opening sid created).of_reading (by simp [reading]) List.prefix_rfl
  | readFailed sid =>
    obtain ⟨_, rfl⟩ := Server.step_readFailed next
    exact begins_readFailed begins sid
  | written sid i ok =>
    obtain ⟨outcome, completed, returned⟩ := Option.bind_eq_some_iff.mp next
    exact begins_written begins completed returned tabled

theorem begins_read (lawful : json.Lawful) (begins : Begins json config pid refused s) {input : List Char}
    (returned : s.read json config sid input = some t) : Begins json config pid refused t := by
  obtain ⟨events, run⟩ := @Server.read_exec json config lawful pid sid input s t returned
  obtain ⟨ofRead, -, executed⟩ := run
  clear returned
  induction events generalizing s with
  | nil =>
    cases executed
    exact begins
  | cons e events inductionHypothesis =>
    obtain ⟨u, first, rest⟩ := exec_cons.mp executed
    rw [List.forall_mem_cons] at ofRead
    have after := begins_step lawful begins first
    have same : refusedAfter s refused e = refused := by
      cases e with
      | accept raddr => exact ofRead.1.elim
      | _ => rfl
    exact inductionHypothesis (same ▸ after) ofRead.2 rest

end Server

end Uzel.Verified.FirstTexts
