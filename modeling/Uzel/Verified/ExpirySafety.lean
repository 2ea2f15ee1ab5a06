import Uzel.NetClient
import Uzel.Verified.QueueCare

/-! # Whose messages may expire

When `deleteOld` has dropped messages it writes the node of the peer into the log, and it takes it from
`m_msg1`, which only an authenticated session has.  The calls of a process are careful with the queue of
a session that is not authenticated, so there is at most the first message in it, which is being written
and goes at its completion.  `expires_safely` says so for the sessions of servers and clients.
-/

namespace Uzel.Verified.ExpirySafety

open Foundation FirstTexts QueueCare

/-- The states in which a handler leaves the server: it returns, or it is left by an exception, which ends
the process unless it is caught by the read handler. -/
inductive ServerLeaves (json : JsonCodec) (config : UConfig) (pid : Nat) (s : Server) :
    ServerEvent → Server → Prop
  | returned {e : ServerEvent} {t : Server} (next : s.step json config pid e = some t) :
      ServerLeaves json config pid s e t
  | accept {raddr : String} {t : Server} (raised : s.accept json config pid raddr = .raised t) :
      ServerLeaves json config pid s (.accept raddr) t
  | connectHandler {sid : SessionId} {ok : Bool} {t : Server}
      (raised : s.connectHandler json config pid sid ok = some (.raised t)) :
      ServerLeaves json config pid s (.connectHandler sid ok) t
  | received {sid : SessionId} {header : PTree} {body : Body} {t : Server}
      (raised : s.dispatchMsg json config sid header body = .raised t) :
      ServerLeaves json config pid s (.received sid header body) t
  | written {sid : SessionId} {i : Nat} {ok : Bool} {t : Server}
      (raised : s.onWrite json config sid i ok = some (.raised t)) :
      ServerLeaves json config pid s (.written sid i ok) t

/-- The same for the client. -/
inductive ClientLeaves (json : JsonCodec) (config : UConfig) (pid : Nat) (client : NetClient) :
    ClientEvent → NetClient → Prop
  | returned {e : ClientEvent} {after : NetClient} (next : client.step json config pid e = some after) :
      ClientLeaves json config pid client e after
  | connectHandler {sid : SessionId} {ok : Bool} {after : NetClient}
      (raised : client.connectHandler json config pid sid ok = some (.raised after)) :
      ClientLeaves json config pid client (.connectHandler sid ok) after
  | received {sid : SessionId} {header : PTree} {body : Body} {after : NetClient}
      (raised : client.dispatchMsg json config sid header body = .raised after) :
      ClientLeaves json config pid client (.received sid header body) after
  | written {sid : SessionId} {i : Nat} {ok : Bool} {store : Sessions}
      (raised : client.store.onWrite json config sid i ok = some (.raised store)) :
      ClientLeaves json config pid client (.written sid i ok) (client.withStore store)

/-! ## The server -/

section Server

variable {json : JsonCodec} {config : UConfig} {pid : Nat} {s t : Server} {sid : SessionId}

theorem allCareful_create (unburdened : Unburdened s.store) (blank : s.Blank) (direction : Direction)
    (ip : String) : AllCareful s.store (s.createSession direction ip).store := by
  intro sid
  by_cases new : sid = s.nextSession
  · rw [new, Server.createSession_self]
    exact careful_made (blank s.nextSession (Nat.le_refl _)) (unburdened s.nextSession) rfl rfl rfl rfl rfl
  · rw [Server.createSession_other direction ip new]
    exact .refl _

theorem allCareful_createOutgoing (hname ip : String) (n : Nat) (unburdened : Unburdened s.store)
    (blank : s.Blank) : AllCareful s.store (Server.createOutgoing hname ip n s).store := by
  induction n generalizing s with
  | zero => exact .refl _
  | succ n inductionHypothesis =>
    have created := allCareful_create unburdened blank .outgoing ip
    generalize isCreated : s.createSession .outgoing ip = u at created
    have self : u.store.session s.nextSession =
        { Session.new .outgoing ip with closedSlots := [.registry] } := by
      rw [← isCreated, Server.createSession_self]
    have next : u.nextSession = s.nextSession + 1 := by rw [← isCreated]; rfl
    generalize isConnecting : (u.store.connectClosed s.nextSession (.host hname)).set s.nextSession
      ((u.store.connectClosed s.nextSession (.host hname)).session s.nextSession).startConnection = store
    have turn : Server.createOutgoing hname ip (n + 1) s =
        Server.createOutgoing hname ip n (u.withStore store) := by
      rw [← isConnecting, ← isCreated]
      rfl
    have begun : AllCareful u.store store := by
      rw [← isConnecting]
      have slot : AllCareful u.store (u.store.connectClosed s.nextSession (.host hname)) :=
        allCareful_set (careful_of_same rfl rfl rfl rfl id (Nat.le_refl _))
      refine slot.trans (allCareful_set (careful_startConnection ?_))
      simp [Sessions.connectClosed, self, Session.new]
    have blank' : (u.withStore store).Blank := by
      intro sid later
      have later : s.nextSession + 1 ≤ sid := next ▸ later
      have old : sid ≠ s.nextSession := Nat.ne_of_gt later
      have same : store.session sid = s.store.session sid := by
        rw [← isConnecting, ← isCreated]
        simp [Sessions.connectClosed, old, Server.createSession_other]
      show (store.session sid).msg1 = none
      rw [same]
      exact blank sid (Nat.le_of_lt later)
    rw [turn]
    exact (created.trans begun).trans
      (inductionHypothesis ((created.trans begun).unburdened unburdened) blank')

theorem allCareful_stop (sid : SessionId) (s : Server) : AllCareful s.store (s.stop sid).store := by
  cases running : (s.store.session sid).stopped with
  | true =>
    rw [Server.stop, if_pos running]
    exact .refl _
  | false =>
    rw [(Server.closing_stop running).store]
    exact allCareful_set (careful_of_same rfl rfl rfl rfl id (Nat.le_refl _))

theorem allCareful_readFailed (sid : SessionId) (s : Server) :
    AllCareful s.store (s.readFailed sid).store := by
  have idle : AllCareful s.store (s.setReading sid .idle).store :=
    allCareful_set (careful_of_same rfl rfl rfl rfl id (Nat.le_refl _))
  exact idle.trans (allCareful_stop sid _)

theorem allCareful_accept (lawful : json.Lawful) (raddr : String) (unburdened : Unburdened s.store)
    (blank : s.Blank) : (s.accept json config pid raddr).All fun t => AllCareful s.store t.store := by
  have created := allCareful_create unburdened blank .incoming raddr
  have self := Server.createSession_self .incoming raddr s
  unfold Server.accept
  dsimp only
  split
  · apply Outcome.all_map.mpr
    apply (allCareful_gracefullClose s.nextSession _ _).mono
    exact fun _ => created.trans
  · apply Outcome.all_map.mpr
    apply (allCareful_start lawful (by rw [self]; rfl) (by rw [self]; exact fun _ => rfl)).mono
    exact fun _ => created.trans

theorem allCareful_connectHandler (lawful : json.Lawful) (unburdened : Unburdened s.store) {ok : Bool}
    {outcome : Outcome Server} (connected : s.connectHandler json config pid sid ok = some outcome) :
    outcome.All fun t => AllCareful s.store t.store := by
  simp only [Server.connectHandler] at connected
  split at connected
  · cases connected
  next enabled =>
    have connecting : (s.store.session sid).connecting = true := And.left (by simpa using enabled)
    have finished : AllCareful s.store
        (s.store.set sid { s.store.session sid with connecting := false }) :=
      allCareful_set (careful_of_same rfl rfl rfl rfl (fun _ => connecting) (Nat.le_refl _))
    split at connected
    · cases connected
      apply Outcome.all_map.mpr
      have unused : (s.store.session sid).msg1 = none → (s.store.session sid).outQueue = [] :=
        fun unknown => (unburdened sid unknown).unconnected connecting
      apply (allCareful_start lawful (by simp [Server.withStore]) (by simpa [Server.withStore] using unused)).mono
      exact fun _ => finished.trans
    · cases connected
      exact finished.trans (allCareful_stop sid (s.withStore
        (s.store.set sid { s.store.session sid with connecting := false })))

/-- The first message of a session: its queue is called after `m_msg1` has been set, or not at all. -/
theorem treated_first (lawful : json.Lawful) (unknown : (s.store.session sid).msg1 = none)
    (header : PTree) (body : Body) : (s.dispatchMsg json config sid header body).All fun t =>
      Treated (s.store.session sid) (t.store.session sid) := by
  generalize isMsg : Msg.incoming config header body (some sid) = msg
  generalize isKnown : s.withStore (s.store.set sid { s.store.session sid with msg1 := some msg }) = known
  have self : known.store.session sid = { s.store.session sid with msg1 := some msg } := by
    simp [← isKnown, Server.withStore]
  have named : (known.store.session sid).msg1 ≠ none := by simp [self]
  have marked : ∀ {ss}, Careful (known.store.session sid) ss → Treated (s.store.session sid) ss :=
    fun careful => .authenticated unknown (self ▸ careful)
  have unauthenticated : (s.store.session sid).authenticated = true → False := by
    simp [Session.authenticated, unknown]
  apply Server.dispatchMsg_calls isMsg.symm isKnown.symm
  · intro _ _ _ t returned
    rcases returned with rfl | ⟨old, after, _, done, rfl⟩
    · exact marked (.refl _)
    · have carries := Sessions.carries_takeOverSession carried_known sid old known.store
      rw [done] at carries
      exact marked (careful_of_known named (carries sid named))
  · intro _ _ _ changed after final
    have peer : (known.store.session sid).peerNode = some msg.from.node := by simp [self, Session.peerNode]
    exact marked (careful_of_known named
      (Remote.carries_addSession carried_known lawful peer final sid named))
  · intro _ _
    exact (allCareful_gracefullClose sid _ s.store).mono fun _ careful => .called (careful sid)
  · exact fun authenticated => (unauthenticated authenticated).elim
  · exact fun authenticated => (unauthenticated authenticated).elim
  · exact fun authenticated => (unauthenticated authenticated).elim

theorem treats_dispatchMsg (lawful : json.Lawful) (tabled : Tabled s) (header : PTree) (body : Body) :
    (s.dispatchMsg json config sid header body).All fun t => Treats sid s.store t.store := by
  apply Outcome.all_of_final
  intro t final
  have carries := ((Server.dispatchMsg_carries carried_known (fun _ _ unknown known => absurd unknown known)
    lawful sid header body s).of_final final).2
  constructor
  · by_cases unknown : (s.store.session sid).msg1 = none
    · exact (treated_first lawful unknown header body).of_final final
    · exact .called (careful_of_known unknown (carries sid unknown))
  · intro other different
    by_cases unknown : (s.store.session other).msg1 = none
    -- no table names the session, so the handlers of the message do not reach it
    · have spared : Spared other (s.store.session other) s := ⟨rfl, tabled.absent unknown⟩
      have after := (spared.dispatchMsg lawful different header body).of_final final
      rw [after.session]
      exact .refl _
    · exact careful_of_known unknown (carries other unknown)

/-- The tables name authenticated sessions, and the others have not got anything but their first
message. -/
structure Guarded (s : Server) : Prop where
  tabled : Tabled s
  unburdened : Unburdened s.store

theorem guarded_initial (now : Nat) (remotes : List String) : Guarded (.initial config now remotes) :=
  ⟨⟨nofun, nofun, fun _ _ => rfl⟩,
    fun _ _ => ⟨Nat.zero_le 1, fun _ => rfl, Nat.le_refl 0, rfl, rfl⟩⟩

/-- The completion of a write concerns one session only, however it ends. -/
theorem onWrite_session {i : Nat} {ok : Bool} {outcome : Outcome Server}
    (completed : s.onWrite json config sid i ok = some outcome) (left : outcome.final = some t) :
    ∃ call ss, (s.store.session sid).onWrite json config s.store.now i ok = some call ∧
      call.final = some ss ∧ t.store.session = Function.update s.store.session sid ss := by
  obtain ⟨stores, called, rfl⟩ := Option.map_eq_some_iff.mp completed
  obtain ⟨call, written, answered, rfl⟩ := Sessions.onWrite_eq called
  rw [Outcome.final_map, Outcome.final_map] at left
  obtain ⟨store, isStore, rfl⟩ := Option.map_eq_some_iff.mp left
  obtain ⟨ss, final, rfl⟩ := Option.map_eq_some_iff.mp isStore
  refine ⟨call, ss, answered, final, ?_⟩
  split
  · -- the slots of `s_closed` do not touch the sessions
    rw [(Server.closing_emitClosed _ sid).store]
    rfl
  · rfl

theorem unburdened_written {store after : Sessions} (unburdened : Unburdened store) {now i : Nat} {ok : Bool}
    {call : Outcome Session} {ss : Session}
    (answered : (store.session sid).onWrite json config now i ok = some call) (final : call.final = some ss)
    (sessions : after.session = Function.update store.session sid ss) :
    Unburdened after ∧ ∀ other, ExpiresSafely (store.session other) (after.session other) ∧
      (after.session other).msg1 = (store.session other).msg1 := by
  obtain ⟨safe, msg1, bare⟩ := (expiresSafely_onWrite (unburdened sid) answered).of_final final
  constructor
  · intro other unknown
    rw [sessions] at unknown ⊢
    by_cases same : other = sid
    · subst same
      rw [Function.update_self] at unknown ⊢
      exact bare unknown
    · rw [Function.update_of_ne same] at unknown ⊢
      exact unburdened other unknown
  · intro other
    rw [sessions]
    by_cases same : other = sid
    · subst same
      rw [Function.update_self]
      exact ⟨safe, msg1⟩
    · rw [Function.update_of_ne same]
      exact ⟨(Treated.called (.refl _)).expiresSafely (unburdened other), rfl⟩

/-- Every other event makes careful calls only. -/
theorem allCareful_step (lawful : json.Lawful) (guarded : Guarded s) {e : ServerEvent}
    (next : s.step json config pid e = some t) (unwritten : ∀ sid i ok, e ≠ .written sid i ok)
    (unread : ∀ sid header body, e ≠ .received sid header body) : AllCareful s.store t.store := by
  obtain ⟨tabled, unburdened⟩ := guarded
  have manager : ∀ {e : ManagerEvent}, s.managerStep e = some t → AllCareful s.store t.store := by
    intro e next
    obtain ⟨manager, _, rfl⟩ := Option.map_eq_some_iff.mp next
    exact .refl _
  cases e with
  | tick elapsed =>
    cases next
    exact fun _ => .refl _
  | accept raddr => exact Server.returned_all (allCareful_accept lawful raddr unburdened tabled.blank) next
  | fire => exact manager next
  | onTimer i => exact manager next
  | pokeTask => exact manager next
  | resolved i answer =>
    obtain ⟨hname, _, rfl⟩ := Option.map_eq_some_iff.mp next
    unfold Server.connectResolved
    cases answer with
    | none => exact .refl _
    | some ip =>
      dsimp only
      split
      next sessionsToCreate _ =>
        have created : ∀ u : Server, u.store = s.store → u.nextSession = s.nextSession →
            AllCareful s.store (Server.createOutgoing hname ip sessionsToCreate u).store := by
          intro u sameStore sameNext
          rw [← sameStore]
          apply allCareful_createOutgoing
          · rw [sameStore]
            exact unburdened
          · intro sid later
            rw [sameStore]
            exact tabled.blank sid (sameNext ▸ later)
        exact created _ rfl rfl
      next => exact .refl _
  | connectHandler sid ok =>
    obtain ⟨outcome, connected, returned⟩ := Option.bind_eq_some_iff.mp next
    exact Server.returned_all (allCareful_connectHandler lawful unburdened connected) returned
  | received sid header body => exact absurd rfl (unread sid header body)
  | readAgain sid processor =>
    obtain ⟨_, rfl⟩ := Server.step_readAgain next
    exact allCareful_set (careful_of_same rfl rfl rfl rfl id (Nat.le_refl _))
  | readFailed sid =>
    obtain ⟨_, rfl⟩ := Server.step_readFailed next
    exact allCareful_readFailed sid s
  | written sid i ok => exact absurd rfl (unwritten sid i ok)

theorem treats_received (lawful : json.Lawful) (tabled : Tabled s) {header : PTree} {body : Body}
    (next : s.step json config pid (.received sid header body) = some t) : Treats sid s.store t.store := by
  have dispatched := @treats_dispatchMsg json config s sid lawful tabled header body
  rcases (Server.received_cases next).2 with done | ⟨u, raised, rfl⟩
  · rw [done] at dispatched
    exact dispatched
  · rw [raised] at dispatched
    exact dispatched.trans (allCareful_readFailed sid u)

theorem guarded_step (lawful : json.Lawful) (guarded : Guarded s) {e : ServerEvent}
    (next : s.step json config pid e = some t) :
    Guarded t ∧ ∀ sid, ExpiresSafely (s.store.session sid) (t.store.session sid) := by
  have tabled := tabled_step lawful guarded.tabled next
  have treats : ∀ {sid}, Treats sid s.store t.store →
      Guarded t ∧ ∀ other, ExpiresSafely (s.store.session other) (t.store.session other) :=
    fun treats => ⟨⟨tabled, treats.unburdened guarded.unburdened⟩, treats.expiresSafely guarded.unburdened⟩
  cases e with
  | written sid i ok =>
    obtain ⟨outcome, completed, returned⟩ := Option.bind_eq_some_iff.mp next
    have left := Server.returned_all (Outcome.all_of_final fun _ final => final) returned
    obtain ⟨call, ss, answered, final, sessions⟩ := onWrite_session completed left
    obtain ⟨unburdened, safe⟩ := unburdened_written guarded.unburdened answered final sessions
    exact ⟨⟨tabled, unburdened⟩, fun other => (safe other).1⟩
  | received sid header body => exact treats (treats_received lawful guarded.tabled next)
  | _ =>
    have careful := allCareful_step lawful guarded next (fun _ _ _ same => by cases same)
      fun _ _ _ same => by cases same
    exact treats (careful.treats 0)

theorem Guarded.leaves (lawful : json.Lawful) (guarded : Guarded s) {e : ServerEvent}
    (leaves : ServerLeaves json config pid s e t) (sid : SessionId) :
    ExpiresSafely (s.store.session sid) (t.store.session sid) := by
  cases leaves with
  | returned next => exact (guarded_step lawful guarded next).2 sid
  | @accept raddr _ raised =>
    have careful := @allCareful_accept json config pid s lawful raddr guarded.unburdened guarded.tabled.blank
    rw [raised] at careful
    exact (careful.treats 0).expiresSafely guarded.unburdened sid
  | connectHandler raised =>
    have careful : AllCareful s.store t.store := allCareful_connectHandler lawful guarded.unburdened raised
    exact (careful.treats 0).expiresSafely guarded.unburdened sid
  | @received reader header body _ raised =>
    have treats := @treats_dispatchMsg json config s reader lawful guarded.tabled header body
    rw [raised] at treats
    exact treats.expiresSafely guarded.unburdened sid
  | written raised =>
    obtain ⟨call, ss, answered, final, sessions⟩ := onWrite_session raised rfl
    exact ((unburdened_written guarded.unburdened answered final sessions).2 sid).1

end Server

/-! ## The client -/

/-- As for a server; the table names authenticated sessions, and nothing has happened to those that are
not created yet. -/
structure Prepared (client : NetClient) : Prop where
  locals : ∀ app sid, client.locals.lookup app = some sid → (client.store.session sid).msg1 ≠ none
  blank : ∀ sid, client.nextSession ≤ sid → (client.store.session sid).msg1 = none
  unburdened : Unburdened client.store

/-- Calls of the client that authenticate no session. -/
structure Calls (client after : NetClient) : Prop where
  careful : AllCareful client.store after.store
  locals : after.locals = client.locals
  nextSession : client.nextSession ≤ after.nextSession

/-- The read handler treats its session, and it registers none that is not authenticated. -/
structure Attends (sid : SessionId) (client after : NetClient) : Prop where
  treats : Treats sid client.store after.store
  locals : ∀ app other, after.locals.lookup app = some other →
    client.locals.lookup app = some other ∨ (after.store.session other).msg1 ≠ none
  nextSession : client.nextSession ≤ after.nextSession

section Client

variable {json : JsonCodec} {config : UConfig} {pid : Nat} {client after : NetClient} {sid : SessionId}

theorem Calls.refl (client : NetClient) : Calls client client := ⟨.refl _, rfl, Nat.le_refl _⟩

theorem Calls.trans {third : NetClient} (first : Calls client after) (second : Calls after third) :
    Calls client third :=
  ⟨first.careful.trans second.careful, second.locals.trans first.locals,
    Nat.le_trans first.nextSession second.nextSession⟩

theorem Calls.prepared (calls : Calls client after) (prepared : Prepared client) : Prepared after where
  locals app other registered := by
    rw [(calls.careful other).msg1]
    exact prepared.locals app other (calls.locals ▸ registered)
  blank other later :=
    (calls.careful other).msg1.trans (prepared.blank other (Nat.le_trans calls.nextSession later))
  unburdened := calls.careful.unburdened prepared.unburdened

theorem Attends.calls {third : NetClient} (first : Attends sid client after) (second : Calls after third) :
    Attends sid client third where
  treats := first.treats.trans second.careful
  locals app other registered := by
    rw [(second.careful other).msg1]
    exact first.locals app other (second.locals ▸ registered)
  nextSession := Nat.le_trans first.nextSession second.nextSession

theorem Calls.attends (calls : Calls client after) (sid : SessionId) : Attends sid client after :=
  ⟨calls.careful.treats sid, fun _ _ registered => .inl (calls.locals ▸ registered), calls.nextSession⟩

theorem Attends.prepared (attends : Attends sid client after) (created : sid < client.nextSession)
    (prepared : Prepared client) : Prepared after where
  locals app other registered := by
    rcases attends.locals app other registered with before | known
    · exact (attends.treats.treated other).keeps (prepared.locals app other before)
    · exact known
  blank other later := by
    have later := Nat.le_trans attends.nextSession later
    have old : other ≠ sid := fun same => Nat.not_le.mpr created (same ▸ later)
    exact (attends.treats.others other old).msg1.trans (prepared.blank other later)
  unburdened := attends.treats.unburdened prepared.unburdened

theorem calls_withStore {store : Sessions} (careful : AllCareful client.store store) :
    Calls client (client.withStore store) :=
  ⟨careful, rfl, Nat.le_refl _⟩

theorem calls_set {ss : Session} (careful : Careful (client.store.session sid) ss) :
    Calls client (client.withStore (client.store.set sid ss)) :=
  calls_withStore (allCareful_set careful)

theorem calls_reconnectAfterDelay (client : NetClient) : Calls client client.reconnectAfterDelay :=
  ⟨.refl _, rfl, Nat.le_refl _⟩

theorem calls_stop (sid : SessionId) (client : NetClient) : Calls client (client.stop sid) := by
  unfold NetClient.stop
  dsimp only
  split
  · exact .refl client
  · exact calls_set (careful_of_same rfl rfl rfl rfl id (Nat.le_refl _))

theorem calls_readFailed (sid : SessionId) (client : NetClient) : Calls client (client.readFailed sid) := by
  have idle : Calls client
      (client.withStore (client.store.set sid { client.store.session sid with reading := .idle })) :=
    calls_set (careful_of_same rfl rfl rfl rfl id (Nat.le_refl _))
  exact idle.trans (calls_stop sid _)

theorem calls_connectResolved (prepared : Prepared client) (answer : Option String) :
    Calls client (client.connectResolved answer) := by
  cases answer with
  | none => exact calls_reconnectAfterDelay client
  | some ip =>
    refine ⟨allCareful_set ?_, rfl, Nat.le_succ _⟩
    exact careful_made (prepared.blank client.nextSession (Nat.le_refl _))
      (prepared.unburdened client.nextSession) rfl rfl rfl rfl rfl

theorem calls_connectHandler (lawful : json.Lawful) (unburdened : Unburdened client.store) {ok : Bool}
    {outcome : Outcome NetClient}
    (connected : client.connectHandler json config pid sid ok = some outcome) :
    outcome.All (Calls client) := by
  simp only [NetClient.connectHandler] at connected
  split at connected
  · cases connected
  next enabled =>
    have connecting : (client.store.session sid).connecting = true := And.left (by simpa using enabled)
    generalize isFinished : client.withStore
      (client.store.set sid { client.store.session sid with connecting := false }) = finished at connected
    have finishes : Calls client finished := by
      rw [← isFinished]
      exact calls_set (careful_of_same rfl rfl rfl rfl (fun _ => connecting) (Nat.le_refl _))
    have self : finished.store.session sid = { client.store.session sid with connecting := false } := by
      simp [← isFinished, NetClient.withStore]
    split at connected
    · cases connected
      apply Outcome.all_map.mpr
      have unused : (client.store.session sid).msg1 = none → (client.store.session sid).outQueue = [] :=
        fun unknown => (unburdened sid unknown).unconnected connecting
      apply (allCareful_start lawful (by rw [self]) (by rw [self]; exact unused)).mono
      exact fun _ careful => finishes.trans (calls_withStore careful)
    · cases connected
      exact (finishes.trans (calls_reconnectAfterDelay finished)).trans (calls_stop sid _)

theorem calls_send (prepared : Prepared client) {msg : Msg} {outcome : Outcome NetClient}
    (called : client.send json msg = some outcome) : outcome.All (Calls client) := by
  obtain ⟨sid, registered, rfl⟩ := Option.map_eq_some_iff.mp called
  apply Outcome.all_map.mpr
  apply (allCareful_putOutQueue (prepared.locals "userver" sid registered) msg).mono
  exact fun _ => calls_withStore

/-- The session that has been authenticated is registered. -/
theorem Attends.registers (attends : Attends sid client after) (known : (client.store.session sid).msg1 ≠ none)
    (app : String) : Attends sid client { after with locals := after.locals.insert app sid } where
  treats := attends.treats
  locals name other registered := by
    by_cases same : name = app
    · subst same
      rw [AList.lookup_insert, Option.some.injEq] at registered
      subst registered
      exact .inr (attends.treats.self.keeps known)
    · rw [AList.lookup_insert_ne same] at registered
      exact attends.locals name other registered
  nextSession := attends.nextSession

/-- `auth` comes after `m_msg1` has been set. -/
theorem attends_auth {msg : Msg} (known : (client.store.session sid).msg1 = some msg)
    (registered : ∀ app old, client.locals.lookup app = some old → (client.store.session old).msg1 ≠ none) :
    (client.auth json config sid).All (Attends sid client) := by
  have named : (client.store.session sid).msg1 ≠ none := by simp [known]
  simp only [NetClient.auth, known]
  split
  · apply Outcome.All.andThen
    · split
      next old isOld =>
        apply Outcome.all_map.mpr
        apply (allCareful_takeOverSession named (registered _ old isOld)).mono
        exact fun _ careful => (calls_withStore careful).attends sid
      next => exact (Calls.refl client).attends sid
    · exact fun _ attends => attends.registers named _
  · apply Outcome.All.andThen
    · apply Outcome.all_map.mpr
      apply (allCareful_gracefullClose sid "bad auth" client.store).mono
      exact fun _ careful => (calls_withStore careful).attends sid
    · exact fun after attends => attends.calls (calls_reconnectAfterDelay after)

theorem attends_dispatchMsg (prepared : Prepared client) (header : PTree) (body : Body) :
    (client.dispatchMsg json config sid header body).All (Attends sid client) := by
  generalize isMsg : Msg.incoming config header body (some sid) = msg
  have stays : Attends sid client client := (Calls.refl client).attends sid
  simp only [NetClient.dispatchMsg, isMsg]
  split
  · split
    · exact stays
    · exact stays
  next unauthenticated =>
    have unknown : (client.store.session sid).msg1 = none := by
      simpa [Session.authenticated] using unauthenticated
    split
    · generalize isMarked : client.withStore
        (client.store.set sid { client.store.session sid with msg1 := some msg }) = marked
      have self : marked.store.session sid = { client.store.session sid with msg1 := some msg } := by
        simp [← isMarked, NetClient.withStore]
      have other : ∀ other, other ≠ sid → marked.store.session other = client.store.session other := by
        intro other different
        simp [← isMarked, NetClient.withStore, different]
      have locals : marked.locals = client.locals := by rw [← isMarked]; rfl
      have nextSession : marked.nextSession = client.nextSession := by rw [← isMarked]; rfl
      have registered : ∀ app old, marked.locals.lookup app = some old →
          (marked.store.session old).msg1 ≠ none := by
        intro app old isOld
        by_cases same : old = sid
        · simp [same, self]
        · rw [other old same]
          exact prepared.locals app old (locals ▸ isOld)
      -- the slot on `s_auth` finds `m_msg1` set, so all its calls are those of an authenticated session
      apply (attends_auth (by rw [self]) registered).mono
      intro after attends
      refine ⟨⟨?_, ?_⟩, fun app old => ?_, nextSession ▸ attends.nextSession⟩
      · refine @Treated.authenticated _ _ msg unknown ?_
        rw [← self]
        exact attends.treats.self.careful (by simp [self])
      · intro x different
        rw [← other x different]
        exact attends.treats.others x different
      · rw [← locals]
        exact attends.locals app old
    · apply Outcome.all_map.mpr
      apply (allCareful_gracefullClose sid "authentication failed" client.store).mono
      exact fun _ careful => (calls_withStore careful).attends sid

theorem attends_received (prepared : Prepared client) {header : PTree} {body : Body}
    (next : client.received json config sid header body = some after) : Attends sid client after := by
  simp only [NetClient.received] at next
  split at next
  next =>
    have dispatched := @attends_dispatchMsg json config client sid prepared header body
    cases outcome : client.dispatchMsg json config sid header body with
    | done u =>
      rw [outcome] at dispatched next
      cases next
      exact dispatched
    | raised u =>
      rw [outcome] at dispatched next
      cases body with
      | raw bytes => cases next
      | tree tree =>
        cases next
        exact dispatched.calls (calls_readFailed sid u)
    | hung =>
      rw [outcome] at next
      cases next
  next => cases next

theorem clientWrite_session {i : Nat} {ok : Bool} {outcome : Outcome Sessions} {store : Sessions}
    (completed : client.store.onWrite json config sid i ok = some outcome) (left : outcome.final = some store) :
    ∃ call ss, (client.store.session sid).onWrite json config client.store.now i ok = some call ∧
      call.final = some ss ∧ store.session = Function.update client.store.session sid ss := by
  obtain ⟨call, written, answered, rfl⟩ := Sessions.onWrite_eq completed
  rw [Outcome.final_map] at left
  obtain ⟨ss, final, rfl⟩ := Option.map_eq_some_iff.mp left
  exact ⟨call, ss, answered, final, rfl⟩

theorem prepared_written (prepared : Prepared client) {i : Nat} {ok : Bool}
    (next : client.step json config pid (.written sid i ok) = some after) :
    Prepared after ∧ ∀ other, ExpiresSafely (client.store.session other) (after.store.session other) := by
  obtain ⟨outcome, completed, returned⟩ := Option.bind_eq_some_iff.mp next
  have left := NetClient.returned_all (Outcome.all_of_final fun _ final => final) returned
  rw [Outcome.final_map] at left
  obtain ⟨store, isStore, rfl⟩ := Option.map_eq_some_iff.mp left
  obtain ⟨call, ss, answered, final, sessions⟩ := clientWrite_session completed isStore
  obtain ⟨unburdened, safe⟩ := unburdened_written prepared.unburdened answered final sessions
  refine ⟨⟨fun app other registered => ?_, fun other later => ?_, unburdened⟩, fun other => (safe other).1⟩
  · show (store.session other).msg1 ≠ none
    have same : (store.session other).msg1 = (client.store.session other).msg1 := (safe other).2
    rw [same]
    exact prepared.locals app other registered
  · exact (safe other).2.trans (prepared.blank other later)

/-- Every other event calls the sessions with care. -/
theorem calls_step (lawful : json.Lawful) (prepared : Prepared client) {e : ClientEvent}
    (next : client.step json config pid e = some after) (unwritten : ∀ sid i ok, e ≠ .written sid i ok)
    (unread : ∀ sid header body, e ≠ .received sid header body) : Calls client after := by
  cases e with
  | tick elapsed =>
    cases next
    exact ⟨.refl _, rfl, Nat.le_refl _⟩
  | resolved answer =>
    simp only [NetClient.step] at next
    split at next
    · cases next
      have fewer : Prepared { client with resolves := client.resolves - 1 } :=
        ⟨prepared.locals, prepared.blank, prepared.unburdened⟩
      obtain ⟨careful, locals, nextSession⟩ := calls_connectResolved fewer answer
      exact ⟨careful, locals, nextSession⟩
    · cases next
  | fire =>
    obtain ⟨timer, _, rfl⟩ := Option.map_eq_some_iff.mp next
    exact ⟨.refl _, rfl, Nat.le_refl _⟩
  | onTimer i =>
    obtain ⟨_, _, rfl⟩ := Option.map_eq_some_iff.mp next
    exact ⟨.refl _, rfl, Nat.le_refl _⟩
  | connectHandler sid ok =>
    simp only [NetClient.step] at next
    split at next
    · obtain ⟨outcome, connected, returned⟩ := Option.bind_eq_some_iff.mp next
      exact NetClient.returned_all (calls_connectHandler lawful prepared.unburdened connected) returned
    · cases next
  | received sid header body => exact absurd rfl (unread sid header body)
  | readAgain sid processor =>
    obtain ⟨_, rfl⟩ := NetClient.step_readAgain next
    exact calls_set (careful_of_same rfl rfl rfl rfl id (Nat.le_refl _))
  | readFailed sid =>
    obtain ⟨_, rfl⟩ := NetClient.step_readFailed next
    exact calls_readFailed sid client
  | written sid i ok => exact absurd rfl (unwritten sid i ok)
  | send msg =>
    obtain ⟨outcome, called, left⟩ := Option.bind_eq_some_iff.mp next
    exact (calls_send prepared called).of_final left

theorem prepared_initial (now : Nat) : Prepared (.initial now) where
  locals _ _ registered := by cases registered
  blank _ _ := rfl
  unburdened _ _ := ⟨Nat.zero_le 1, fun _ => rfl, Nat.le_refl 0, rfl, rfl⟩

theorem prepared_step (lawful : json.Lawful) (prepared : Prepared client) {e : ClientEvent}
    (next : client.step json config pid e = some after) :
    Prepared after ∧ ∀ sid, ExpiresSafely (client.store.session sid) (after.store.session sid) := by
  cases e with
  | written sid i ok => exact prepared_written prepared next
  | received sid header body =>
    simp only [NetClient.step] at next
    split at next
    next created =>
      have attends := attends_received prepared next
      exact ⟨attends.prepared created prepared, attends.treats.expiresSafely prepared.unburdened⟩
    next => cases next
  | _ =>
    have calls := calls_step lawful prepared next (fun _ _ _ same => by cases same)
      fun _ _ _ same => by cases same
    exact ⟨calls.prepared prepared, (calls.careful.treats 0).expiresSafely prepared.unburdened⟩

theorem Prepared.leaves (lawful : json.Lawful) (prepared : Prepared client) {e : ClientEvent}
    (leaves : ClientLeaves json config pid client e after) (sid : SessionId) :
    ExpiresSafely (client.store.session sid) (after.store.session sid) := by
  cases leaves with
  | returned next => exact (prepared_step lawful prepared next).2 sid
  | connectHandler raised =>
    have calls : Calls client after := calls_connectHandler lawful prepared.unburdened raised
    exact (calls.careful.treats 0).expiresSafely prepared.unburdened sid
  | @received reader header body _ raised =>
    have attends := @attends_dispatchMsg json config client reader prepared header body
    rw [raised] at attends
    exact attends.treats.expiresSafely prepared.unburdened sid
  | written raised =>
    obtain ⟨call, ss, answered, final, sessions⟩ := clientWrite_session raised rfl
    exact ((unburdened_written prepared.unburdened answered final sessions).2 sid).1

end Client

/-! ## Runs -/

/-- Whatever happens to a process, in any order and with any time between the handlers, `deleteOld` drops
messages of authenticated sessions only. -/
theorem expires_safely {json : JsonCodec} (lawful : json.Lawful) (config : UConfig) (pid now : Nat)
    (remotes : List String) :
    (∀ events server e after,
      exec (Server.step json config pid) (.initial config now remotes) events = some server →
        ServerLeaves json config pid server e after →
          ∀ sid, ExpiresSafely (server.store.session sid) (after.store.session sid)) ∧
      ∀ events client e after,
        exec (NetClient.step json config pid) (.initial now) events = some client →
          ClientLeaves json config pid client e after →
            ∀ sid, ExpiresSafely (client.store.session sid) (after.store.session sid) := by
  constructor
  · intro events server e after reached leaves
    have guarded : Guarded server :=
      (always_of_invariant (fun guarded next => (guarded_step lawful guarded next).1)
        (guarded_initial now remotes) events).last reached
    exact guarded.leaves lawful leaves
  · intro events client e after reached leaves
    have prepared : Prepared client :=
      (always_of_invariant (fun prepared next => (prepared_step lawful prepared next).1)
        (prepared_initial now) events).last reached
    exact prepared.leaves lawful leaves

/-- The application `uecho` has sent two messages to itself while the authentication is being written, and
then a minute has passed. -/
def echoes : List ServerEvent :=
  let header := (Msg.outgoing ⟨"beta", "uecho"⟩ ⟨"uecho", "beta"⟩ "ping" .empty).header
  [.accept "127.0.0.1", .received 0 (serviceHeader ⟨"beta", "uecho"⟩ "auth") (.tree .empty),
    .received 0 header (.tree .empty), .received 0 header (.tree .empty), .tick 61000000000]

/-- Both are dropped when the write completes. -/
theorem echoes_expire_safely :
    ∃ server after, exec (Server.step Json.compactJson ⟨"beta", "userver"⟩ 1)
        (.initial ⟨"beta", "userver"⟩ 0 []) echoes = some server ∧
      server.step Json.compactJson ⟨"beta", "userver"⟩ 1 (.written 0 0 true) = some after ∧
      (after.store.session 0).dropped.length = 2 ∧
      ExpiresSafely (server.store.session 0) (after.store.session 0) := by
  refine ⟨_, _, rfl, rfl, by decide +kernel, ?_⟩
  exact (expires_safely Json.compactJson_lawful ⟨"beta", "userver"⟩ 1 0 []).1 echoes _ (.written 0 0 true) _
    rfl (.returned rfl) 0

end Uzel.Verified.ExpirySafety
