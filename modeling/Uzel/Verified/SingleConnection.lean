import Uzel.Foundation.Json
import Uzel.NetClient
import Uzel.Verified.QueueCare

/-! # The one connection of a client

An application connects to the userver of its node.  It creates a session when the lookup has an answer,
and it tries again only when the connect has failed, so all its sessions but the last one have failed
before anything happened on them.  `single_connection` says so for every run: the client waits for a
lookup or for its timer, or it has one session, and that is the one that it sends to once the peer is
known.

`Does` says what a step of such a client can do, for all properties of its runs; `accepts` is what it
queues there.
-/

namespace Uzel.Verified.SingleConnection

open Foundation

/-- Nothing has happened on the session; its connect may be outstanding. -/
structure Untouched (ss : Session) : Prop where
  msg1 : ss.msg1 = none
  reading : ss.reading = .idle
  outQueue : ss.outQueue = []
  writes : ss.writes = []
  sent : ss.sent = []
  dropped : ss.dropped = []

/-- The connect has failed. -/
structure Failed (ss : Session) : Prop extends Untouched ss where
  connecting : ss.connecting = false
  stopped : ss.stopped = true

/-- The lookups and the waits of the timer that are outstanding. -/
def waits (client : NetClient) : Nat := client.resolves + client.reconnectTimer.outstanding

/-- The last session, while the client does not wait for another one. -/
def Current (client : NetClient) (sid : SessionId) : Prop :=
  sid + 1 = client.nextSession ∧ waits client = 0

/-- The client waits or it has one session, and it sends to that one when the peer is known. -/
structure OneConnection (client : NetClient) : Prop where
  oneWait : waits client ≤ 1
  failed : ∀ sid < client.nextSession, Current client sid ∨ Failed (client.store.session sid)
  locals : ∀ name sid, client.locals.lookup name = some sid ↔
    name = "userver" ∧ sid < client.nextSession ∧ (client.store.session sid).authenticated = true

/-! ## What happens to the queue of a session -/

def message : Write → Option QueuedMsg
  | .message msg _ => some msg
  | .bye _ => none

/-- The messages that are being written. -/
def inFlight (ss : Session) : List QueuedMsg := ss.writes.filterMap message

/-- What a handler may do to the queue of a session, with the messages that it accepts and those that have
been written. -/
inductive Serves (now : Nat) (ss after : Session) : List QueuedMsg → List QueuedMsg → Prop
  | leaves (outQueue : after.outQueue = ss.outQueue) (dropped : after.dropped = ss.dropped)
      (inFlight : (inFlight after).Sublist (inFlight ss)) : Serves now ss after [] []
  | accepts {queued : QueuedMsg} (outQueue : after.outQueue = ss.outQueue ++ [queued])
      (dropped : after.dropped = ss.dropped)
      (inFlight : inFlight after = inFlight ss ++ if ss.outQueue = [] then [queued] else []) :
      Serves now ss after [queued] []
  | pops {msg : QueuedMsg} (outQueue : after.outQueue = ss.outQueue.tail.dropWhile (·.expired now))
      (dropped : after.dropped = ss.dropped ++ ss.outQueue.tail.takeWhile (·.expired now))
      (member : msg ∈ inFlight ss) (fewer : (inFlight after).length + 1 = (inFlight ss).length) :
      Serves now ss after [] [msg]

section Serving

variable {json : JsonCodec} {config : UConfig} {now : Nat} {ss after : Session}

theorem serves_enqueue {queued : QueuedMsg} (young : queued.expired now = false) :
    Serves now ss (ss.enqueue now queued) [queued] [] := by
  cases queue : ss.outQueue with
  | nil =>
    have started : ss.enqueue now queued = { ss with outQueue := [queued] }.doWrite now := by
      simp [Session.enqueue, queue]
    rcases Session.doWrite_cases now { ss with outQueue := [queued] } with
      ⟨nothing, -⟩ | ⟨front, rest, found, same⟩
    · simp [young] at nothing
    · simp only [List.dropWhile_cons, young, Bool.false_eq_true, if_false, List.cons.injEq] at found
      obtain ⟨rfl, rfl⟩ := found
      rw [started, same]
      apply Serves.accepts
      · simp [queue, young]
      · simp [Session.asyncWrite, Session.deleteOld, young]
      · simp [inFlight, queue, message]
  | cons front rest =>
    have behind : ss.enqueue now queued = { ss with outQueue := ss.outQueue ++ [queued] } := by
      simp [Session.enqueue, queue]
    rw [behind]
    exact .accepts rfl rfl (by simp [inFlight, queue])

theorem serves_gracefullClose (reason : String) (ss : Session) :
    (ss.gracefullClose json config reason).All fun after => Serves now ss after [] [] ∧
      after.connecting = ss.connecting ∧ after.msg1 = ss.msg1 := by
  simp only [Session.gracefullClose, Session.sendByeAndClose]
  split
  · exact ⟨.leaves rfl rfl (.refl _), rfl, rfl⟩
  · split
    · split
      · exact ⟨.leaves rfl rfl (.refl _), rfl, rfl⟩
      · exact ⟨.leaves rfl rfl (by simp [inFlight, message]), rfl, rfl⟩
    · exact ⟨.leaves rfl rfl (.refl _), rfl, rfl⟩

theorem length_inFlight_eraseIdx {i : Nat} {msg : QueuedMsg} {live : Bool}
    (found : ss.writes[i]? = some (.message msg live)) :
    msg ∈ inFlight ss ∧
      (inFlight { ss with writes := ss.writes.eraseIdx i }).length + 1 = (inFlight ss).length := by
  obtain ⟨bound, same⟩ := List.getElem?_eq_some_iff.mp found
  have moved := (List.getElem_cons_eraseIdx_perm bound).filterMap message
  simp only [same, List.filterMap_cons, message] at moved
  exact ⟨moved.subset List.mem_cons_self, moved.length_eq⟩

theorem inFlight_onWritten (ss : Session) :
    (ss.onWritten json config now).All fun after => inFlight after = inFlight ss := by
  simp only [Session.onWritten, Session.sendByeAndClose]
  split
  · split
    · rfl
    · simp [inFlight, Session.asyncWrite, Session.deleteOld, message]
  · rfl

/-- The message whose write completes without an error. -/
def writtenBy (ss : Session) (i : Nat) (ok : Bool) : List QueuedMsg :=
  match ss.writes[i]?, ok with
  | some (.message msg _), true => [msg]
  | _, _ => []

theorem serves_onWrite {i : Nat} {ok : Bool} {outcome : Outcome Session}
    (completed : ss.onWrite json config now i ok = some outcome) :
    outcome.All fun after => Serves now ss after [] (writtenBy ss i ok) ∧
      after.connecting = ss.connecting ∧ after.msg1 = ss.msg1 := by
  rcases Session.onWrite_cases completed with ⟨msg, rfl, found, rfl⟩ | ⟨other, bound, rfl⟩
  · obtain ⟨member, fewer⟩ := length_inFlight_eraseIdx found
    have isMsg : writtenBy ss i true = [msg] := by simp [writtenBy, found]
    rw [isMsg]
    apply Outcome.all_of_final
    intro after left
    have popped := (QueueCare.popped_onWritten now _).of_final left
    have same := (inFlight_onWritten _).of_final left
    refine ⟨.pops popped.queue popped.dropped member (by rw [same]; exact fewer), ?_, ?_⟩
    · exact congrArg Endpoint.connecting popped.endpoint
    · exact congrArg Endpoint.msg1 popped.endpoint
  · have nothing : writtenBy ss i ok = [] := by
      unfold writtenBy
      split
      next msg live found => exact absurd found (other msg live rfl)
      next => rfl
    rw [nothing]
    exact ⟨.leaves rfl rfl ((List.eraseIdx_sublist ss.writes i).filterMap message), rfl, rfl⟩

end Serving

/-! ## The steps -/

/-- The messages that a step of the client queues, on the session that it concerns. -/
def accepts (json : JsonCodec) (config : UConfig) (pid : Nat) (client : NetClient) :
    ClientEvent → List QueuedMsg
  | .connectHandler _ true =>
    (QueuedMsg.ofMsg json client.store.now client.store.nextMsg (Session.authMsg config pid)).toList
  | .send msg => (QueuedMsg.ofMsg json client.store.now client.store.nextMsg msg).toList
  | _ => []

/-- Either the locals are what they were, or the session has just been authenticated. -/
def Registers (sid : SessionId) (ss : Session) (s t : NetClient) : Prop :=
  (t.locals = s.locals ∧ ss.authenticated = (s.store.session sid).authenticated) ∨
    ((s.store.session sid).authenticated = false ∧ ss.authenticated = true ∧
      t.locals = s.locals.insert "userver" sid)

/-- What a step does: it passes the wait on, it makes an attempt, the attempt fails, or it is about the
session of the client. -/
inductive Does (s t : NetClient) : List QueuedMsg → Prop
  | idles (sessions : t.store.session = s.store.session) (written : t.store.written = s.store.written)
      (nextSession : t.nextSession = s.nextSession) (locals : t.locals = s.locals)
      (later : s.store.now ≤ t.store.now) (waiting : waits t = waits s) : Does s t []
  | attempts {ip : String}
      (sessions : t.store.session =
        Function.update s.store.session s.nextSession (Session.new .outgoing ip).startConnection)
      (written : t.store.written = s.store.written) (nextSession : t.nextSession = s.nextSession + 1)
      (locals : t.locals = s.locals) (later : s.store.now ≤ t.store.now)
      (waiting : waits s = waits t + 1) : Does s t []
  | fails {sid : SessionId} {ss : Session} (current : Current s sid)
      (connecting : (s.store.session sid).connecting = true) (failed : Failed ss)
      (sessions : t.store.session = Function.update s.store.session sid ss)
      (written : t.store.written = s.store.written) (nextSession : t.nextSession = s.nextSession)
      (locals : t.locals = s.locals) (later : s.store.now ≤ t.store.now) (waiting : waits t = 1) :
      Does s t []
  | serves {sid : SessionId} {ss : Session} {accepted written : List QueuedMsg} (current : Current s sid)
      (begun : (s.store.session sid).connecting = false ∨ accepted ≠ []) (connected : ss.connecting = false)
      (sessions : t.store.session = Function.update s.store.session sid ss)
      (served : Serves s.store.now (s.store.session sid) ss accepted written)
      (isWritten : t.store.written = s.store.written ++ written)
      (nextSession : t.nextSession = s.nextSession) (registers : Registers sid ss s t)
      (later : s.store.now ≤ t.store.now) (waiting : waits t = 0) : Does s t accepted

/-- What the steps of a client keep. -/
structure Single (client : NetClient) : Prop extends OneConnection client where
  untouched : ∀ sid, (Current client sid ∧ (client.store.session sid).connecting = false) ∨
    Untouched (client.store.session sid)

theorem Current.eq {client : NetClient} {sid other : SessionId} (current : Current client sid)
    (current' : Current client other) : other = sid :=
  Nat.succ.inj (current'.1.trans current.1.symm)

theorem Current.unique {client : NetClient} {sid other : SessionId} (current : Current client sid)
    (different : other ≠ sid) : ¬ Current client other := fun current' => different (current.eq current')

theorem Untouched.unknown {ss : Session} (untouched : Untouched ss) : ss.authenticated = false := by
  unfold Session.authenticated
  rw [untouched.msg1]
  rfl

section Steps

variable {json : JsonCodec} {config : UConfig} {pid : Nat} {s t : NetClient} {sid : SessionId}

theorem Single.current (single : Single s) (touched : ¬ Untouched (s.store.session sid)) :
    Current s sid ∧ (s.store.session sid).connecting = false :=
  (single.untouched sid).resolve_right touched

theorem Single.begun (single : Single s) (connecting : (s.store.session sid).connecting = true) :
    Untouched (s.store.session sid) := by
  rcases single.untouched sid with ⟨-, connected⟩ | untouched
  · exact absurd (connected.symm.trans connecting) Bool.false_ne_true
  · exact untouched

theorem waits_reconnectAfterDelay (client : NetClient) :
    waits client.reconnectAfterDelay = waits client + 1 := by
  show client.resolves + (client.reconnectTimer.expiresAfter _ _).asyncWait.outstanding = _
  rw [Timer.outstanding_asyncWait, Timer.outstanding_expiresAfter]
  rfl

theorem Untouched.endpoint {ss : Session} (untouched : Untouched ss) {changed : Endpoint}
    (msg1 : changed.msg1 = ss.msg1) (reading : changed.reading = ss.reading) :
    Untouched { ss with toEndpoint := changed } :=
  ⟨msg1.trans untouched.msg1, reading.trans untouched.reading, untouched.outQueue, untouched.writes,
    untouched.sent, untouched.dropped⟩

theorem stop_eq (sid : SessionId) (client : NetClient) : ∃ closeFlag, client.stop sid =
    client.withStore
      (client.store.set sid { client.store.session sid with stopped := true, closeFlag }) := by
  simp only [NetClient.stop]
  split
  next stopped =>
    refine ⟨(client.store.session sid).closeFlag, ?_⟩
    have same : { client.store.session sid with stopped := true } = client.store.session sid := by
      rw [← stopped]
    rw [same]
    simp [NetClient.withStore, Sessions.set]
  next => exact ⟨true, rfl⟩

/-- A change of the session that registers nothing. -/
theorem does_set (ss : Session) {accepted : List QueuedMsg} (current : Current s sid)
    (begun : (s.store.session sid).connecting = false ∨ accepted ≠ []) (connected : ss.connecting = false)
    (known : ss.msg1 = (s.store.session sid).msg1)
    (served : Serves s.store.now (s.store.session sid) ss accepted []) (nextMsg : Nat) :
    Does s (s.withStore { s.store.set sid ss with nextMsg }) accepted :=
  .serves current begun connected rfl served (List.append_nil _).symm rfl
    (.inl ⟨rfl, by unfold Session.authenticated; rw [known]⟩) (Nat.le_refl _) current.2

theorem does_connectHandler (lawful : json.Lawful) (single : Single s) (created : sid < s.nextSession)
    {ok : Bool} {outcome : Outcome NetClient}
    (completed : s.connectHandler json config pid sid ok = some outcome) :
    outcome.All fun t => Does s t (accepts json config pid s (.connectHandler sid ok)) := by
  simp only [NetClient.connectHandler] at completed
  split at completed
  · cases completed
  next enabled =>
    have connecting : (s.store.session sid).connecting = true := by
      cases same : (s.store.session sid).connecting with
      | true => rfl
      | false => simp [same] at enabled
    have current : Current s sid := by
      rcases single.failed sid created with current | failed
      · exact current
      · exact absurd (failed.connecting.symm.trans connecting) Bool.false_ne_true
    have untouched := single.begun connecting
    generalize isFinished : { s.store.session sid with connecting := false } = finished at completed
    cases ok with
    | true =>
      rw [if_pos rfl] at completed
      cases completed
      obtain ⟨queued, built⟩ : ∃ queued, QueuedMsg.ofMsg json s.store.now s.store.nextMsg
          (Session.authMsg config pid) = some queued := by
        obtain ⟨queued, built, -⟩ := ofMsg_service config "auth" "pid" (toString pid) lawful s.store.now
          s.store.nextMsg
        exact ⟨queued, built⟩
      have accepted : accepts json config pid s (.connectHandler sid true) = [queued] := by
        simp [accepts, built]
      have started : (s.store.set sid finished).start json config pid sid = .done
          { s.store.set sid (finished.enqueue s.store.now queued).doRead with
            nextMsg := s.store.nextMsg + 1 } := by
        simp [Sessions.start, Session.start, Session.putOutQueue, built, Sessions.set]
      simp only [NetClient.withStore, started, accepted, Outcome.map_done, Outcome.all_done]
      have served : Serves s.store.now finished (finished.enqueue s.store.now queued) [queued] [] :=
        serves_enqueue (QueuedMsg.ofMsg_eq built).2.2
      apply does_set _ current (.inr (List.cons_ne_nil _ _))
      · simp [Session.doRead, ← isFinished]
      · simp [Session.doRead, ← isFinished]
      · rw [← isFinished] at served ⊢
        cases served with
        | accepts outQueue dropped inFlight => exact .accepts outQueue dropped inFlight
    | false =>
      rw [if_neg Bool.false_ne_true] at completed
      cases completed
      obtain ⟨closeFlag, stopped⟩ :=
        stop_eq sid (s.withStore (s.store.set sid finished)).reconnectAfterDelay
      rw [Outcome.all_done, stopped]
      have self : ((s.withStore (s.store.set sid finished)).reconnectAfterDelay.store.session sid) =
          finished := Function.update_self ..
      rw [self]
      have failed : Failed { finished with stopped := true, closeFlag } := by
        rw [← isFinished]
        exact ⟨untouched.endpoint rfl rfl, rfl, rfl⟩
      refine .fails current connecting failed (Function.update_idem ..) rfl rfl rfl (Nat.le_refl _) ?_
      exact (waits_reconnectAfterDelay _).trans (congrArg (· + 1) current.2)

theorem does_readFailed (current : Current s sid) (connected : (s.store.session sid).connecting = false) :
    Does s (s.readFailed sid) [] := by
  generalize isIdle : { s.store.session sid with reading := .idle } = idle
  obtain ⟨closeFlag, stopped⟩ := stop_eq sid (s.withStore (s.store.set sid idle))
  have self : (s.withStore (s.store.set sid idle)).store.session sid = idle := Function.update_self ..
  have twice : (s.withStore (s.store.set sid idle)).withStore ((s.withStore (s.store.set sid idle)).store.set
      sid { idle with stopped := true, closeFlag }) =
      s.withStore (s.store.set sid { idle with stopped := true, closeFlag }) := by
    simp [NetClient.withStore, Sessions.set]
  rw [NetClient.readFailed, isIdle, stopped, self, twice, ← isIdle]
  exact does_set { s.store.session sid with reading := .idle, stopped := true, closeFlag } current (.inl connected)
    connected rfl (.leaves rfl rfl (.refl _)) s.store.nextMsg

theorem readFailed_keeps (sid : SessionId) (client : NetClient) :
    (client.readFailed sid).locals = client.locals ∧
      (client.readFailed sid).store.now = client.store.now := by
  obtain ⟨closeFlag, stopped⟩ := stop_eq sid
    (client.withStore (client.store.set sid { client.store.session sid with reading := .idle }))
  rw [NetClient.readFailed, stopped]
  exact ⟨rfl, rfl⟩

/-- The first message of the peer of an ordinary application comes from the userver of its node. -/
theorem authenticate_ordinary (ordinary : config.appName ≠ "userver") {msg : Msg}
    (passed : Session.authenticate config msg = true) :
    msg.fromLocal config = true ∧ msg.from.app = "userver" := by
  simp only [Session.authenticate, ordinary, if_false] at passed
  split at passed
  · cases passed
  · simpa [Msg.fromLocal] using passed

theorem auth_userver {msg : Msg} (known : (s.store.session sid).msg1 = some msg)
    (fromLocal : msg.fromLocal config = true) (app : msg.from.app = "userver")
    (unregistered : s.locals.lookup "userver" = none) :
    s.auth json config sid = .done { s with locals := s.locals.insert "userver" sid } := by
  rw [← app] at unregistered ⊢
  simp only [NetClient.auth, known, fromLocal, if_true, unregistered, Outcome.andThen_done]

theorem Single.touched (single : Single s) {name : String} (registered : s.locals.lookup name = some sid) :
    ¬ Untouched (s.store.session sid) := by
  intro untouched
  have authenticated := ((single.locals _ _).mp registered).2.2
  exact Bool.false_ne_true (untouched.unknown.symm.trans authenticated)

/-- The client has no other session that could be authenticated. -/
theorem Single.unregistered (single : Single s) (current : Current s sid)
    (unknown : (s.store.session sid).authenticated = false) : s.locals.lookup "userver" = none := by
  apply Option.eq_none_iff_forall_ne_some.mpr
  intro other registered
  have same := current.eq (single.current (single.touched registered)).1
  have authenticated := ((single.locals _ _).mp registered).2.2
  rw [same, unknown] at authenticated
  cases authenticated

theorem does_dispatchMsg (lawful : json.Lawful) (ordinary : config.appName ≠ "userver") (single : Single s)
    (current : Current s sid) (connected : (s.store.session sid).connecting = false) (header : PTree)
    (body : Body) :
    (s.dispatchMsg json config sid header body = .raised s ∧
        (s.store.session sid).authenticated = true) ∨
      ∃ t, s.dispatchMsg json config sid header body = .done t ∧ Does s t [] := by
  generalize isMsg : Msg.incoming config header body (some sid) = msg
  simp only [NetClient.dispatchMsg, isMsg]
  cases known : (s.store.session sid).authenticated with
  | true =>
    cases msg.cname.isNone with
    | true => exact .inl ⟨by simp, rfl⟩
    | false => exact .inr ⟨s, by simp, .idles rfl rfl rfl rfl (Nat.le_refl _) rfl⟩
  | false =>
    simp only [Bool.false_eq_true, if_false, and_false, false_or]
    cases passed : Session.authenticate config msg with
    | true =>
      obtain ⟨fromLocal, app⟩ := authenticate_ordinary ordinary passed
      have unregistered := single.unregistered current known
      generalize isMarked : { s.store.session sid with msg1 := some msg } = marked
      have known' : ((s.withStore (s.store.set sid marked)).store.session sid).msg1 = some msg := by
        simp [NetClient.withStore, ← isMarked]
      refine ⟨_, (if_pos rfl).trans (auth_userver known' fromLocal app unregistered), ?_⟩
      have same : marked.connecting = false := isMarked ▸ connected
      have served : Serves s.store.now (s.store.session sid) marked [] [] :=
        isMarked ▸ .leaves rfl rfl (.refl _)
      exact .serves current (.inl connected) same rfl served (List.append_nil _).symm rfl
        (.inr ⟨known, isMarked ▸ rfl, rfl⟩) (Nat.le_refl _) current.2
    | false =>
      obtain ⟨store, closed⟩ := Sessions.gracefullClose_done config lawful sid "authentication failed" s.store
      refine ⟨s.withStore store, by simp [closed], ?_⟩
      have served := @serves_gracefullClose json config s.store.now "authentication failed"
        (s.store.session sid)
      simp only [Sessions.gracefullClose] at closed
      cases outcome : (s.store.session sid).gracefullClose json config "authentication failed" with
      | done ss =>
        rw [outcome] at closed served
        cases closed
        exact does_set ss current (.inl connected) (served.2.1.trans connected) served.2.2 served.1 s.store.nextMsg
      | raised ss =>
        rw [outcome] at closed
        cases closed
      | hung =>
        rw [outcome] at closed
        cases closed

theorem does_received (lawful : json.Lawful) (ordinary : config.appName ≠ "userver") (single : Single s)
    {header : PTree} {body : Body} (next : s.received json config sid header body = some t) :
    Does s t [] := by
  simp only [NetClient.received] at next
  split at next
  next pending =>
    have touched : ¬ Untouched (s.store.session sid) := by
      intro untouched
      cases untouched.reading.symm.trans pending
    obtain ⟨current, connected⟩ := single.current touched
    rcases does_dispatchMsg lawful ordinary single current connected header body with
      ⟨raised, -⟩ | ⟨u, done, does⟩
    · rw [raised] at next
      cases body with
      | raw bytes => cases next
      | tree tree =>
        cases next
        exact does_readFailed current connected
    · rw [done] at next
      cases next
      exact does
  next => cases next

theorem does_written (single : Single s) {i : Nat} {ok : Bool} {outcome : Outcome Sessions}
    (completed : s.store.onWrite json config sid i ok = some outcome) :
    outcome.All fun store => Does s (s.withStore store) [] := by
  obtain ⟨call, called, rfl⟩ := Option.map_eq_some_iff.mp completed
  have touched : ¬ Untouched (s.store.session sid) := by
    intro untouched
    simp [Session.onWrite, untouched.writes] at called
  obtain ⟨current, connected⟩ := single.current touched
  apply Outcome.all_map.mpr
  apply (serves_onWrite called).mono
  rintro ss ⟨served, connecting, known⟩
  exact .serves current (.inl connected) (connecting.trans connected) rfl served rfl rfl
    (.inl ⟨rfl, by unfold Session.authenticated; rw [known]⟩) (Nat.le_refl _) current.2

theorem does_send (single : Single s) {msg : Msg} {outcome : Outcome NetClient}
    (called : s.send json msg = some outcome) :
    outcome.All fun t => Does s t (accepts json config pid s (.send msg)) := by
  obtain ⟨sid, registered, rfl⟩ := Option.map_eq_some_iff.mp called
  obtain ⟨current, connected⟩ := single.current (single.touched registered)
  simp only [Sessions.putOutQueue, Session.putOutQueue, accepts]
  cases built : QueuedMsg.ofMsg json s.store.now s.store.nextMsg msg with
  | none => exact does_set _ current (.inl connected) connected rfl (.leaves rfl rfl (.refl _)) _
  | some queued =>
    exact does_set _ current (.inl connected) (by simpa using connected) (by simp)
      (serves_enqueue (QueuedMsg.ofMsg_eq built).2.2) _

theorem does_resolved (answer : Option String) (outstanding : 0 < s.resolves) :
    Does s ({ s with resolves := s.resolves - 1 }.connectResolved answer) [] := by
  have one : waits s = waits { s with resolves := s.resolves - 1 } + 1 := by
    simp only [waits]
    omega
  cases answer with
  | none => exact .idles rfl rfl rfl rfl (Nat.le_refl _) ((waits_reconnectAfterDelay _).trans one.symm)
  | some ip => exact .attempts rfl rfl rfl rfl (Nat.le_refl _) one

theorem does_step (lawful : json.Lawful) (ordinary : config.appName ≠ "userver") (single : Single s)
    {e : ClientEvent} (next : s.step json config pid e = some t) :
    Does s t (accepts json config pid s e) := by
  cases e with
  | tick elapsed =>
    cases next
    exact .idles rfl rfl rfl rfl (Nat.le_add_right _ _) rfl
  | resolved answer =>
    simp only [NetClient.step] at next
    split at next
    next outstanding =>
      cases next
      exact does_resolved answer outstanding
    next => cases next
  | fire =>
    obtain ⟨timer, fires, rfl⟩ := Option.map_eq_some_iff.mp next
    exact .idles rfl rfl rfl rfl (Nat.le_refl _) (congrArg (s.resolves + ·) (Timer.outstanding_fire fires))
  | onTimer i =>
    obtain ⟨ok, queued, rfl⟩ := Option.map_eq_some_iff.mp next
    have queued := (List.getElem?_eq_some_iff.mp queued).1
    refine .idles rfl rfl rfl rfl (Nat.le_refl _) ?_
    show s.resolves + 1 + (s.reconnectTimer.waiting + (s.reconnectTimer.completions.eraseIdx i).length) = _
    rw [List.length_eraseIdx_of_lt queued]
    unfold waits Timer.outstanding
    omega
  | connectHandler sid ok =>
    simp only [NetClient.step] at next
    split at next
    next created =>
      obtain ⟨outcome, completed, returned⟩ := Option.bind_eq_some_iff.mp next
      exact NetClient.returned_all (does_connectHandler lawful single created completed) returned
    next => cases next
  | received sid header body =>
    simp only [NetClient.step] at next
    split at next
    · exact does_received lawful ordinary single next
    · cases next
  | readAgain sid processor =>
    obtain ⟨pending, rfl⟩ := NetClient.step_readAgain next
    have touched : ¬ Untouched (s.store.session sid) := by
      intro untouched
      cases untouched.reading.symm.trans pending
    obtain ⟨current, connected⟩ := single.current touched
    exact does_set { s.store.session sid with processor }.doRead current (.inl connected) connected rfl
      (.leaves rfl rfl (.refl _)) s.store.nextMsg
  | readFailed sid =>
    obtain ⟨reading, rfl⟩ := NetClient.step_readFailed next
    obtain ⟨current, connected⟩ := single.current fun untouched => reading untouched.reading
    exact does_readFailed current connected
  | written sid i ok =>
    obtain ⟨outcome, completed, returned⟩ := Option.bind_eq_some_iff.mp next
    have does : (outcome.map s.withStore).All fun t => Does s t [] :=
      Outcome.all_map.mpr (does_written single completed)
    exact NetClient.returned_all does returned
  | send msg =>
    obtain ⟨outcome, called, left⟩ := Option.bind_eq_some_iff.mp next
    exact (does_send single called).of_final left

/-- Only a message of the peer may change the locals. -/
theorem step_locals {e : ClientEvent} (next : s.step json config pid e = some t)
    (unread : ∀ sid header body, e ≠ .received sid header body) : t.locals = s.locals := by
  cases e with
  | tick elapsed => cases next; rfl
  | resolved answer =>
    simp only [NetClient.step] at next
    split at next
    · cases next
      cases answer <;> rfl
    · cases next
  | fire =>
    obtain ⟨timer, -, rfl⟩ := Option.map_eq_some_iff.mp next
    rfl
  | onTimer i =>
    obtain ⟨ok, -, rfl⟩ := Option.map_eq_some_iff.mp next
    rfl
  | connectHandler sid ok =>
    simp only [NetClient.step] at next
    split at next
    · obtain ⟨outcome, completed, returned⟩ := Option.bind_eq_some_iff.mp next
      refine NetClient.returned_all (P := fun t => t.locals = s.locals) ?_ returned
      simp only [NetClient.connectHandler] at completed
      split at completed
      · cases completed
      · split at completed
        · cases completed
          exact Outcome.all_map.mpr (Outcome.all_of_final fun _ _ => rfl)
        · cases completed
          obtain ⟨closeFlag, stopped⟩ := stop_eq sid (s.withStore (s.store.set sid
            { s.store.session sid with connecting := false })).reconnectAfterDelay
          rw [Outcome.all_done, stopped]
          rfl
    · cases next
  | received sid header body => exact absurd rfl (unread sid header body)
  | readAgain sid processor =>
    obtain ⟨-, rfl⟩ := NetClient.step_readAgain next
    rfl
  | readFailed sid =>
    obtain ⟨-, rfl⟩ := NetClient.step_readFailed next
    exact (readFailed_keeps sid s).1
  | written sid i ok =>
    obtain ⟨outcome, -, returned⟩ := Option.bind_eq_some_iff.mp next
    refine NetClient.returned_all (P := fun t => t.locals = s.locals) ?_ returned
    exact Outcome.all_map.mpr (Outcome.all_of_final fun _ _ => rfl)
  | send msg =>
    obtain ⟨outcome, called, left⟩ := Option.bind_eq_some_iff.mp next
    obtain ⟨sid, -, rfl⟩ := Option.map_eq_some_iff.mp called
    rw [Outcome.final_map] at left
    obtain ⟨store, -, rfl⟩ := Option.map_eq_some_iff.mp left
    rfl

end Steps

/-! ## Runs -/

theorem single_initial (now : Nat) : Single (.initial now) where
  oneWait := Nat.le_refl 1
  failed _ created := absurd created (Nat.not_lt_zero _)
  locals name sid := by
    constructor
    · intro registered
      cases registered
    · rintro ⟨-, created, -⟩
      exact absurd created (Nat.not_lt_zero _)
  untouched _ := .inr ⟨rfl, rfl, rfl, rfl, rfl, rfl⟩

theorem current_congr {s t : NetClient} (nextSession : t.nextSession = s.nextSession)
    (waiting : waits t = waits s) (sid : SessionId) : Current t sid ↔ Current s sid := by
  rw [Current, Current, nextSession, waiting]

section Preserved

variable {s t : NetClient} {sid : SessionId} {ss : Session}

theorem single_idles (single : Single s) (sessions : t.store.session = s.store.session)
    (nextSession : t.nextSession = s.nextSession) (locals : t.locals = s.locals)
    (waiting : waits t = waits s) : Single t := by
  have current := current_congr nextSession waiting
  refine ⟨⟨waiting ▸ single.oneWait, ?_, ?_⟩, ?_⟩
  · intro sid created
    rw [current, sessions]
    exact single.failed sid (nextSession ▸ created)
  · intro name sid
    rw [locals, nextSession, sessions]
    exact single.locals name sid
  · intro sid
    rw [current, sessions]
    exact single.untouched sid

/-- While the client waits, all of its sessions have failed. -/
theorem single_attempts (single : Single s) (fresh : Untouched ss)
    (sessions : t.store.session = Function.update s.store.session s.nextSession ss)
    (nextSession : t.nextSession = s.nextSession + 1) (locals : t.locals = s.locals)
    (waiting : waits s = waits t + 1) : Single t := by
  have oneWait := single.oneWait
  have nobody : ∀ sid, ¬ Current s sid := fun sid current => by
    have none := current.2
    omega
  have older : ∀ {sid}, sid ≠ s.nextSession → (sid < t.nextSession ↔ sid < s.nextSession) := by
    intro sid different
    rw [nextSession, Nat.lt_succ_iff, Nat.le_iff_lt_or_eq]
    exact or_iff_left different
  refine ⟨⟨by omega, ?_, ?_⟩, ?_⟩
  · intro sid created
    by_cases last : sid = s.nextSession
    · exact .inl ⟨by rw [last, nextSession], by omega⟩
    · rw [sessions, Function.update_of_ne last]
      exact .inr ((single.failed sid ((older last).mp created)).resolve_left (nobody sid))
  · intro name sid
    rw [locals, single.locals, sessions]
    by_cases last : sid = s.nextSession
    · simp [last, fresh.unknown]
    · rw [Function.update_of_ne last, older last]
  · intro sid
    rw [sessions]
    by_cases last : sid = s.nextSession
    · rw [last, Function.update_self]
      exact .inr fresh
    · rw [Function.update_of_ne last]
      exact .inr ((single.untouched sid).resolve_left fun current => nobody sid current.1)

theorem single_fails (single : Single s) (current : Current s sid)
    (connecting : (s.store.session sid).connecting = true) (failed : Failed ss)
    (sessions : t.store.session = Function.update s.store.session sid ss)
    (nextSession : t.nextSession = s.nextSession) (locals : t.locals = s.locals)
    (waiting : waits t = 1) : Single t := by
  refine ⟨⟨Nat.le_of_eq waiting, ?_, ?_⟩, ?_⟩
  · intro other created
    rw [sessions]
    by_cases same : other = sid
    · rw [same, Function.update_self]
      exact .inr failed
    · rw [Function.update_of_ne same]
      exact .inr ((single.failed other (nextSession ▸ created)).resolve_left (current.unique same))
  · intro name other
    rw [locals, single.locals, nextSession, sessions]
    by_cases same : other = sid
    · simp [same, failed.unknown, (single.begun connecting).unknown]
    · rw [Function.update_of_ne same]
  · intro other
    rw [sessions]
    by_cases same : other = sid
    · rw [same, Function.update_self]
      exact .inr failed.toUntouched
    · rw [Function.update_of_ne same]
      exact .inr ((single.untouched other).resolve_left fun found => current.unique same found.1)

/-- The current session is the first one that is authenticated. -/
theorem locals_insert (single : Single s) (current : Current s sid) (known : ss.authenticated = true)
    (name : String) (other : SessionId) :
    (s.locals.insert "userver" sid).lookup name = some other ↔ name = "userver" ∧ other < s.nextSession ∧
      (Function.update s.store.session sid ss other).authenticated = true := by
  have created : sid < s.nextSession := current.1 ▸ Nat.lt_succ_self sid
  by_cases userver : name = "userver"
  · subst userver
    rw [AList.lookup_insert, Option.some.injEq]
    constructor
    · rintro rfl
      exact ⟨rfl, created, by rw [Function.update_self, known]⟩
    · rintro ⟨-, created', authenticated⟩
      by_contra different
      rw [Function.update_of_ne (Ne.symm different)] at authenticated
      have failed := (single.failed other created').resolve_left (current.unique (Ne.symm different))
      exact Bool.false_ne_true (failed.unknown.symm.trans authenticated)
  · rw [AList.lookup_insert_ne userver, single.locals]
    simp [userver]

theorem single_serves (single : Single s) (current : Current s sid) (connected : ss.connecting = false)
    (sessions : t.store.session = Function.update s.store.session sid ss)
    (nextSession : t.nextSession = s.nextSession) (registers : Registers sid ss s t)
    (waiting : waits t = 0) : Single t := by
  have created : sid < s.nextSession := current.1 ▸ Nat.lt_succ_self sid
  have current' : Current t sid := ⟨current.1.trans nextSession.symm, waiting⟩
  refine ⟨⟨by omega, ?_, ?_⟩, ?_⟩
  · intro other created'
    rw [sessions]
    by_cases same : other = sid
    · exact .inl (same ▸ current')
    · rw [Function.update_of_ne same]
      exact .inr ((single.failed other (nextSession ▸ created')).resolve_left (current.unique same))
  · intro name other
    rw [nextSession, sessions]
    rcases registers with ⟨locals, known⟩ | ⟨unknown, known, locals⟩
    · rw [locals, single.locals]
      by_cases same : other = sid
      · rw [same, Function.update_self, known]
      · rw [Function.update_of_ne same]
    · rw [locals, locals_insert single current known]
  · intro other
    rw [sessions]
    by_cases same : other = sid
    · rw [same, Function.update_self]
      exact .inl ⟨current', connected⟩
    · rw [Function.update_of_ne same]
      exact .inr ((single.untouched other).resolve_left fun found => current.unique same found.1)

theorem Does.later {accepted : List QueuedMsg} (does : Does s t accepted) : s.store.now ≤ t.store.now := by
  cases does <;> assumption

theorem single_does {accepted : List QueuedMsg} (single : Single s) (does : Does s t accepted) :
    Single t := by
  cases does with
  | idles sessions _ nextSession locals _ waiting => exact single_idles single sessions nextSession locals waiting
  | @attempts ip sessions _ nextSession locals _ waiting =>
    have fresh : Untouched (Session.new .outgoing ip).startConnection := ⟨rfl, rfl, rfl, rfl, rfl, rfl⟩
    exact single_attempts single fresh sessions nextSession locals waiting
  | fails current connecting failed sessions _ nextSession locals _ waiting =>
    exact single_fails single current connecting failed sessions nextSession locals waiting
  | serves current _ connected sessions _ _ nextSession registers _ waiting =>
    exact single_serves single current connected sessions nextSession registers waiting

end Preserved

variable {json : JsonCodec} {config : UConfig}

/-- In every run of an ordinary application, the client has one connection at most. -/
theorem single_connection (lawful : json.Lawful) (ordinary : config.appName ≠ "userver") (pid now : Nat)
    (events : List ClientEvent) :
    Always (NetClient.step json config pid) OneConnection (.initial now) events :=
  (always_of_invariant (fun single next => single_does single (does_step lawful ordinary single next))
    (single_initial now) events).mono fun _ single => single.toOneConnection

/-- The first connect fails, the second one leads to the userver of the node. -/
theorem single_connection_retried :
    Always (NetClient.step Json.compactJson ⟨"alpha", "uecho"⟩ 7) OneConnection (.initial 0)
      [.resolved (some "127.0.0.1"), .connectHandler 0 false, .tick 10000000000, .fire, .onTimer 0,
        .resolved (some "127.0.0.1"), .connectHandler 1 true,
        .received 1 (serviceHeader ⟨"alpha", "userver"⟩ "auth") (.tree .empty)] :=
  single_connection Json.compactJson_lawful (by decide) 7 0 _

end Uzel.Verified.SingleConnection
