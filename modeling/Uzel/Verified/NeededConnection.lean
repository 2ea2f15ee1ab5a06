import Uzel.Verified.ThirdRole

/-! # The third connection

Two servers whose channels are connected may have opened both of their connections from one side.
`connectResolved` on the other side finds no outgoing session of its own and opens new ones, by which it
means to make sure of the node behind the host.  The boss decides what becomes of them, and it looks at
the directions from its own end: it has a place for an outgoing session only, and only beside two
incoming ones.  `needed_connection_iff` says that one of the new connections is kept exactly if it is the
boss that has opened them.

The proof follows the boss while nothing but the new connections goes on (`Between`): its two roles stay
taken, and the third is either free, or given to a new session that nothing stops.
-/

namespace Uzel.Verified.NeededConnection

open Foundation Protocol Handlers RoleAssignment PriorityAgreement ThirdRole

/-! ## The situation -/

/-- Both channels are connected, and nothing is under way. -/
structure Established (name : Side → String) (net : Net) : Prop where
  connected : ∀ side, (net.server side).connectedFn (name side.other) = some true
  silent : ∀ side sid, net.inFlight side sid = []

/-- The server has opened none of the connections of its channel. -/
def NoneOutgoing (name : Side → String) (net : Net) (side : Side) : Prop :=
  ∀ role sid, slotOf (net.server side) (name side.other) role = some sid →
    (net.session side sid).direction = .incoming

/-- A session that did not exist in the state `net`. -/
def New (net : Net) (side : Side) (sid : SessionId) : Prop := (net.server side).nextSession ≤ sid

/-- Time passes, or something succeeds on one of the connections that `side` has opened after the state
`net`. -/
def Concerns (net : Net) (side : Side) : NetEvent → Prop
  | .alone _ (.tick _) => True
  | .alone at' (.connectHandler sid ok) => New net at' sid ∧ ok = true
  | .alone at' (.written sid _ ok) => New net at' sid ∧ ok = true
  | .accept at' sid _ => at' = side.other ∧ New net side sid
  | .read at' sid _ => New net at' sid
  | _ => False

/-- All sessions that were created between the states `net` and `opened` are authenticated at both ends. -/
def BothKnown (net opened later : Net) (side : Side) : Prop :=
  ∀ sid, New net side sid → sid < (opened.server side).nextSession →
    (later.session side sid).authenticated = true ∧
      ∃ peer, later.peer side sid = some peer ∧ (later.session side.other peer).authenticated = true

/-- The boss has given one of the new connections a role. -/
def Assigned (name : Side → String) (net later : Net) : Prop :=
  ∃ role sid, New net .boss sid ∧ slotOf (later.server .boss) (name .lower) role = some sid

/-! ## Sessions that nothing stops -/

/-- The session is not about to close, and it has not said goodbye. -/
structure Staying (ss : Session) : Prop where
  running : ss.stopped = false
  staying : ss.closeFlag = false
  speaking : ∀ live, Write.bye live ∉ ss.writes

section OneServer

variable {json : JsonCodec} {own node : String} {s t u : Server} {sid : SessionId}

theorem Staying.of_writes {ss after : Session} (staying : Staying ss)
    (running : after.stopped = ss.stopped) (flag : after.closeFlag = ss.closeFlag)
    (writes : ∀ live, Write.bye live ∈ after.writes → Write.bye live ∈ ss.writes) : Staying after :=
  ⟨running.trans staying.running, flag.trans staying.staying,
    fun live said => staying.speaking live (writes live said)⟩

theorem staying_enqueue {ss : Session} (staying : Staying ss) (now : Nat) (msg : QueuedMsg) :
    Staying (ss.enqueue now msg) := by
  have endpoint := Session.enqueue_toEndpoint now msg ss
  refine staying.of_writes (congrArg Endpoint.stopped endpoint) (congrArg Endpoint.closeFlag endpoint) ?_
  intro live said
  rw [Session.enqueue_eq_append] at said
  cases Session.appends_append now [msg] ss with
  | behind _ same =>
    rw [same] at said
    exact said
  | expired _ _ _ writes => exact writes ▸ said
  | started _ _ _ writes =>
    rw [writes, List.mem_append] at said
    exact said.resolve_right (by simp)

/-- A message that has been written leaves a staying session as it was. -/
theorem staying_onWrite {config : UConfig} {ss : Session} (staying : Staying ss) {now i : Nat}
    {outcome : Outcome Session} (completed : ss.onWrite json config now i true = some outcome) :
    outcome.All Staying := by
  rcases Session.onWrite_cases completed with ⟨msg, _, _, rfl⟩ | ⟨other, bound, _⟩
  · simp only [Session.onWritten]
    split
    next closing =>
      have flag : ss.closeFlag = true := closing
      rw [staying.staying] at flag
      cases flag
    next =>
      refine staying.of_writes rfl rfl ?_
      exact fun live said => List.mem_of_mem_eraseIdx said
  · -- only a goodbye would stop it
    have found := List.getElem?_eq_getElem bound
    cases write : ss.writes[i] with
    | message msg live => exact absurd (write ▸ found) (other msg live rfl)
    | bye live => exact absurd (write ▸ List.getElem_mem bound) (staying.speaking live)

theorem endpoint_onWrite {config : UConfig} {ss : Session} {now i : Nat} {ok : Bool}
    {outcome : Outcome Session} (completed : ss.onWrite json config now i ok = some outcome) :
    outcome.All fun after => after.direction = ss.direction ∧ after.msg1 = ss.msg1 := by
  rcases Session.onWrite_cases completed with ⟨msg, _, _, rfl⟩ | ⟨_, _, rfl⟩
  · apply (Session.onWritten_keeps json config now _).mono
    intro after kept
    exact ⟨congrArg Endpoint.direction kept.1, congrArg Endpoint.msg1 kept.1⟩
  · exact ⟨rfl, rfl⟩

/-! ## What happens on one session -/

/-- The server works on one session. -/
structure Minds (node : String) (sid : SessionId) (s t : Server) : Prop where
  next : t.nextSession = s.nextSession
  others : ∀ other ≠ sid, t.store.session other = s.store.session other
  direction : (t.store.session sid).direction = (s.store.session sid).direction
  msg1 : (t.store.session sid).msg1 = (s.store.session sid).msg1
  slots : GivesUp node sid s t
  staying : Staying (s.store.session sid) → Staying (t.store.session sid) ∧
    ∀ role, slotOf t node role = slotOf s node role

/-- The channels stay as they are. -/
theorem minds_session {ss : Session} (next : t.nextSession = s.nextSession)
    (channels : t.nodeToSession = s.nodeToSession)
    (sessions : t.store.session = Function.update s.store.session sid ss)
    (direction : ss.direction = (s.store.session sid).direction)
    (msg1 : ss.msg1 = (s.store.session sid).msg1)
    (staying : Staying (s.store.session sid) → Staying ss) : Minds node sid s t where
  next := next
  others other different := by rw [sessions, Function.update_of_ne different]
  direction := by rw [sessions, Function.update_self, direction]
  msg1 := by rw [sessions, Function.update_self, msg1]
  slots := .of_channels channels
  staying before := by
    rw [sessions, Function.update_self]
    exact ⟨staying before, slotOf_congr channels⟩

theorem Minds.trans (first : Minds node sid s t) (second : Minds node sid t u) : Minds node sid s u where
  next := second.next.trans first.next
  others other different := (second.others other different).trans (first.others other different)
  direction := second.direction.trans first.direction
  msg1 := second.msg1.trans first.msg1
  slots := first.slots.trans second.slots
  staying before := by
    obtain ⟨between, same⟩ := first.staying before
    obtain ⟨after, same'⟩ := second.staying between
    exact ⟨after, fun role => (same' role).trans (same role)⟩

/-- No session changes what it is. -/
theorem Minds.same (minds : Minds node sid s t) (other : SessionId) :
    (t.store.session other).direction = (s.store.session other).direction ∧
      (t.store.session other).msg1 = (s.store.session other).msg1 := by
  by_cases called : other = sid
  · exact called ▸ ⟨minds.direction, minds.msg1⟩
  · rw [minds.others other called]
    exact ⟨rfl, rfl⟩

/-- The roles of the other sessions stay. -/
theorem Minds.keeps (minds : Minds node sid s t) {role : Priority} {other : SessionId}
    (different : other ≠ sid) (held : slotOf s node role = some other) : slotOf t node role = some other := by
  rcases minds.slots role with same | ⟨gone, _⟩
  · exact same.trans held
  · exact absurd (Option.some.inj (held.symm.trans gone)) different

theorem Minds.stays (minds : Minds node sid s t) {other : SessionId}
    (staying : Staying (s.store.session other)) : Staying (t.store.session other) ∧
      ∀ role, slotOf s node role = some other → slotOf t node role = some other := by
  by_cases called : other = sid
  · subst called
    obtain ⟨after, same⟩ := minds.staying staying
    exact ⟨after, fun role held => (same role).trans held⟩
  · rw [minds.others other called]
    exact ⟨staying, fun _ => minds.keeps called⟩

theorem minds_readAgain (processor : InputProcessor) : Minds node sid s (s.readAgain sid processor) :=
  minds_session rfl rfl rfl rfl rfl fun staying => staying.of_writes rfl rfl fun _ => id

theorem minds_start (lawful : json.Lawful) (pid : Nat) : ∃ after,
    s.store.start json ⟨own, "userver"⟩ pid sid = .done after ∧ Minds node sid s (s.withStore after) := by
  obtain ⟨queued, started, -, -⟩ :=
    @start_eq json pid lawful ⟨own, "userver"⟩ (s.store.session sid) s.store.now s.store.nextMsg
  have endpoint := Session.enqueue_toEndpoint s.store.now queued (s.store.session sid)
  have direction := congrArg Endpoint.direction endpoint
  have msg1 := congrArg Endpoint.msg1 endpoint
  generalize isBegun : ((s.store.session sid).enqueue s.store.now queued).doRead = begun at started
  refine ⟨{ s.store.set sid begun with nextMsg := s.store.nextMsg + 1 }, ?_, ?_⟩
  · rw [Sessions.start, started]
    rfl
  refine @minds_session node s _ sid begun rfl rfl rfl ?_ ?_ ?_
  · exact isBegun ▸ direction
  · exact isBegun ▸ msg1
  · exact fun staying => isBegun ▸ (staying_enqueue staying _ queued).of_writes rfl rfl fun _ => id

theorem minds_connect (lawful : json.Lawful) {pid : Nat} {outcome : Outcome Server}
    (connected : s.connectHandler json ⟨own, "userver"⟩ pid sid true = some outcome)
    (returned : Server.returned outcome = some t) : Minds node sid s t := by
  simp only [Server.connectHandler] at connected
  split at connected
  · cases connected
  · simp only [if_true, Option.some.injEq] at connected
    generalize isFinished : s.withStore _ = finished at connected
    have first : Minds node sid s finished := isFinished ▸
      minds_session rfl rfl rfl rfl rfl fun staying => staying.of_writes rfl rfl fun _ => id
    obtain ⟨after, started, second⟩ := @minds_start json own node finished sid lawful pid
    rw [started] at connected
    subst connected
    cases returned
    exact first.trans second

/-- A session that has stopped tells its slots. -/
theorem minds_emitClosed (stopped : (s.store.session sid).stopped = true) :
    Minds node sid s (s.emitClosed sid) := by
  have closing := Server.closing_emitClosed s sid
  refine ⟨closing.nextSession, ?_, ?_, ?_, givesUp_emitClosed s sid, ?_⟩
  · intro other _
    rw [closing.store]
  · rw [closing.store]
  · rw [closing.store]
  · intro staying
    rw [staying.running] at stopped
    cases stopped

theorem minds_written {i : Nat} {outcome : Outcome Server}
    (completed : s.onWrite json ⟨own, "userver"⟩ sid i true = some outcome)
    (returned : Server.returned outcome = some t) : Minds node sid s t := by
  obtain ⟨ss, written, answered, effect⟩ := Server.onWrite_returned completed returned
  obtain ⟨direction, msg1⟩ := endpoint_onWrite answered
  have minds : Minds node sid s (s.withStore { s.store.set sid ss with written }) :=
    minds_session rfl rfl rfl direction msg1 fun before => staying_onWrite before answered
  rcases effect with ⟨_, stops, rfl⟩ | ⟨_, rfl⟩
  · exact minds.trans (minds_emitClosed (by simpa [Server.withStore] using stops))
  · exact minds

/-! ## The boss while the new connections are made -/

/-- One of the new sessions has the third role, and nothing will stop it. -/
def Kept (node : String) (n : SessionId) (s : Server) : Prop :=
  ∃ sid < s.nextSession, n ≤ sid ∧ slotOf s node .control = some sid ∧
    (s.store.session sid).msg1 ≠ none ∧ Staying (s.store.session sid)

/-- The third role is free, and no new session has been heard. -/
def Free (node : String) (n : SessionId) (s : Server) : Prop :=
  slotOf s node .control = none ∧ ∀ sid < s.nextSession, n ≤ sid →
    (s.store.session sid).msg1 = none ∧ Staying (s.store.session sid)

/-- The first two roles belong to sessions from before `n`, and the sessions from `n` on have the given
direction. -/
structure Between (node : String) (direction : Direction) (n : SessionId) (s : Server) : Prop where
  full : ∀ role, role = .high ∨ role = .low → ∃ old < n, slotOf s node role = some old ∧
    (direction = .outgoing → (s.store.session old).direction = .incoming)
  directed : ∀ sid < s.nextSession, n ≤ sid → (s.store.session sid).direction = direction
  named : ∀ sid < s.nextSession, n ≤ sid → (s.store.session sid).msg1 ≠ none → node ≠ ""
  closed : direction = .incoming → ∀ role sid, n ≤ sid → slotOf s node role ≠ some sid
  control : direction = .outgoing → node ≠ "" → Kept node n s ∨ Free node n s

variable {direction : Direction} {n : SessionId}

theorem between_minds (between : Between node direction n s) (new : n ≤ sid) (minds : Minds node sid s t) :
    Between node direction n t := by
  refine ⟨?_, ?_, ?_, ?_, ?_⟩
  · intro role isFirst
    obtain ⟨old, before, held, incoming⟩ := between.full role isFirst
    have different : old ≠ sid := Nat.ne_of_lt (Nat.lt_of_lt_of_le before new)
    refine ⟨old, before, minds.keeps different held, ?_⟩
    rw [(minds.same old).1]
    exact incoming
  · intro other created isNew
    rw [(minds.same other).1]
    exact between.directed other (minds.next ▸ created) isNew
  · intro other created isNew known
    rw [(minds.same other).2] at known
    exact between.named other (minds.next ▸ created) isNew known
  · intro incoming role other isNew taken
    rcases minds.slots role with same | ⟨_, gone⟩
    · exact between.closed incoming role other isNew (same ▸ taken)
    · rw [gone] at taken
      cases taken
  · intro outgoing isNamed
    rcases between.control outgoing isNamed with ⟨third, created, isNew, held, known, staying⟩ | ⟨free, unheard⟩
    · obtain ⟨after, roles⟩ := minds.stays staying
      refine .inl ⟨third, minds.next.symm ▸ created, isNew, roles .control held, ?_, after⟩
      rw [(minds.same third).2]
      exact known
    · refine .inr ⟨?_, ?_⟩
      · rcases minds.slots .control with same | ⟨_, gone⟩
        · exact same.trans free
        · exact gone
      · intro other created isNew
        obtain ⟨unknown, staying⟩ := unheard other (minds.next ▸ created) isNew
        rw [(minds.same other).2]
        exact ⟨unknown, (minds.stays staying).1⟩

/-- One new session has been heard for the first time. -/
structure Hears (node : String) (n sid : SessionId) (s t : Server) : Prop where
  next : t.nextSession = s.nextSession
  others : ∀ other ≠ sid, t.store.session other = s.store.session other
  direction : (t.store.session sid).direction = (s.store.session sid).direction
  named : (t.store.session sid).msg1 ≠ none → node ≠ ""
  roles : ∀ role, role ≠ .control → slotOf t node role = slotOf s node role
  third : slotOf t node .control = slotOf s node .control ∨
    ((s.store.session sid).direction = .outgoing ∧ slotOf s node .control = none ∧
      slotOf t node .control = some sid)
  taken : node ≠ "" → Free node n s → (s.store.session sid).direction = .outgoing → Kept node n t

theorem between_hears (between : Between node direction n s) (created : sid < s.nextSession)
    (new : n ≤ sid) (unknown : (s.store.session sid).msg1 = none) (hears : Hears node n sid s t) :
    Between node direction n t := by
  have directions : ∀ other, (t.store.session other).direction = (s.store.session other).direction := by
    intro other
    by_cases called : other = sid
    · exact called ▸ hears.direction
    · rw [hears.others other called]
  have directed := between.directed sid created new
  refine ⟨?_, ?_, ?_, ?_, ?_⟩
  · intro role isFirst
    have different : role ≠ .control := by
      rintro rfl
      simp at isFirst
    rw [hears.roles role different]
    obtain ⟨old, before, held, incoming⟩ := between.full role isFirst
    exact ⟨old, before, held, directions old ▸ incoming⟩
  · intro other existing isNew
    rw [directions]
    exact between.directed other (hears.next ▸ existing) isNew
  · intro other existing isNew known
    by_cases called : other = sid
    · subst called
      exact hears.named known
    · rw [hears.others other called] at known
      exact between.named other (hears.next ▸ existing) isNew known
  · intro incoming role other isNew held
    by_cases isThird : role = .control
    · subst isThird
      rcases hears.third with same | ⟨outgoing, _, _⟩
      · exact between.closed incoming .control other isNew (same ▸ held)
      · rw [directed, incoming] at outgoing
        cases outgoing
    · exact between.closed incoming role other isNew (hears.roles role isThird ▸ held)
  · intro outgoing isNamed
    rcases between.control outgoing isNamed with ⟨third, existing, isNew, held, known, staying⟩ | free
    · -- the session that has the role has been heard before
      have different : third ≠ sid := by
        rintro rfl
        exact known unknown
      refine .inl ⟨third, hears.next.symm ▸ existing, isNew, ?_, ?_, ?_⟩
      · rcases hears.third with same | ⟨_, free, _⟩
        · exact same.trans held
        · rw [free] at held
          cases held
      · rw [hears.others third different]
        exact known
      · rw [hears.others third different]
        exact staying
    · exact .inl (hears.taken isNamed free (directed.trans outgoing))

/-- A session that has been told its role. -/
theorem announced_stays (queued : QueuedMsg) (remote : Remote) (store : Sessions) :
    ((remote.announced sid queued store).session sid).direction = (store.session sid).direction ∧
      ((remote.announced sid queued store).session sid).msg1 = (store.session sid).msg1 ∧
      (Staying (store.session sid) → Staying ((remote.announced sid queued store).session sid)) := by
  have endpoint := Session.enqueue_toEndpoint store.now queued { store.session sid with
    closedSlots := (store.session sid).closedSlots ++ [.remote remote.node] }
  have directed := congrArg Endpoint.direction endpoint
  have heard := congrArg Endpoint.msg1 endpoint
  rw [Remote.announced_self]
  refine ⟨directed, heard, fun staying => ?_⟩
  apply staying_enqueue
  exact staying.of_writes rfl rfl fun _ => id

/-- What `addSession` does with a new session depends on the third role and on its direction. -/
theorem hears_addSession (lawful : json.Lawful) (boss : ¬ own < node) (isNamed : node ≠ "")
    (between : Between node direction n s) (created : sid < s.nextSession) (new : n ≤ sid) {msg : Msg}
    {known : Sessions} (isKnown : known = s.store.set sid { s.store.session sid with msg1 := some msg })
    (peer : (known.session sid).peerNode = some node) {changed : Remote}
    (final : (((s.nodeToSession.lookup node).getD (.new node)).addSession json ⟨own, "userver"⟩ sid
      known).final = some (changed, t.store))
    (channels : t.nodeToSession = (s.setRemote node (changed, t.store)).nodeToSession)
    (next : t.nextSession = s.nextSession) : Hears node n sid s t := by
  obtain ⟨slots, -⟩ := @channel_getD json own (fun _ => True) s node
  generalize (s.nodeToSession.lookup node).getD (.new node) = remote at slots final
  have roles : ∀ role, slotOf t node role = changed.slot role := by
    intro role
    rw [slotOf_congr channels, slotOf_setRemote, if_pos rfl]
  obtain ⟨high, beforeH, heldH, incomingH⟩ := between.full .high (.inl rfl)
  obtain ⟨low, beforeL, heldL, incomingL⟩ := between.full .low (.inr rfl)
  have isHigh : remote.sessionH = some high := (slots .high).symm.trans heldH
  have isLow : remote.sessionL = some low := (slots .low).symm.trans heldL
  have others : ∀ other ≠ sid, known.session other = s.store.session other := by
    intro other different
    rw [isKnown, Sessions.set_session, Function.update_of_ne different]
  have self : known.session sid = { s.store.session sid with msg1 := some msg } := by
    rw [isKnown, Sessions.set_session, Function.update_self]
  have directions : ∀ other, (known.session other).direction = (s.store.session other).direction := by
    rw [isKnown]
    exact Sessions.set_congr (·.direction) rfl
  have adds := addSession_full lawful peer boss isHigh isLow
  simp only [directions] at adds
  rcases adds with ⟨⟨free, _, _, outgoing⟩, queued, done⟩ | ⟨refused, after, closed, done⟩
  · -- the role is free, and the session is told so
    rw [done, Outcome.final_done, Option.some.injEq, Prod.mk.injEq] at final
    obtain ⟨rfl, stored⟩ := final
    obtain ⟨directed, heard, stays⟩ := @announced_stays sid queued remote known
    rw [stored, directions] at directed
    rw [stored, self] at heard
    refine ⟨next, ?_, directed, fun _ => isNamed, ?_, .inr ⟨outgoing, ?_, ?_⟩, ?_⟩
    · intro other different
      rw [← stored, Remote.announced_other different, others other different]
    · intro role different
      rw [roles, slots]
      cases role <;> first | rfl | exact absurd rfl different
    · exact (slots .control).trans free
    · exact roles .control
    · rintro - ⟨_, unheard⟩ -
      refine ⟨sid, next.symm ▸ created, new, roles .control, ?_, ?_⟩
      · rw [heard]
        exact Option.some_ne_none msg
      · rw [← stored]
        apply stays
        rw [self]
        exact (unheard sid created new).2.of_writes rfl rfl fun _ => id
  · rw [done, Outcome.final_done, Option.some.injEq, Prod.mk.injEq] at final
    obtain ⟨rfl, rfl⟩ := final
    obtain ⟨same, persist⟩ := closes_one (congrArg Outcome.final closed)
    refine ⟨next, ?_, ?_, fun _ => isNamed, fun role _ => ?_, .inl ?_, ?_⟩
    · intro other different
      rw [same other different]
      simp [Sessions.connectClosed, different, others]
    · rw [(persist sid).direction]
      simp [Sessions.connectClosed, directions]
    · rw [roles, slots]
    · rw [roles, slots]
    · -- nothing speaks against the session
      rintro - ⟨free, _⟩ outgoing
      have directed : direction = .outgoing := (between.directed sid created new).symm.trans outgoing
      exact absurd ⟨(slots .control).symm.trans free, incomingH directed, incomingL directed, outgoing⟩ refused

/-- A message of the lower server on one of the new connections. -/
theorem between_message (lawful : json.Lawful) (boss : ¬ own < node) (different : own ≠ node)
    (between : Between node direction n s) (created : sid < s.nextSession) (new : n ≤ sid)
    {notice : Notice} (other : ∀ role, notice ≠ .priority role) {frame : PTree × Body}
    (isFrame : notice.Frame json ⟨node, "userver"⟩ frame) :
    (s.dispatchMsg json ⟨own, "userver"⟩ sid frame.1 frame.2).All fun t =>
      t.nextSession = s.nextSession ∧ Between node direction n t := by
  by_cases unknown : (s.store.session sid).msg1 = none
  · apply (dispatchMsg_first different isFrame unknown).mono
    rintro t (⟨unnamed, store, rfl, final⟩ | ⟨isNamed, msg, changed, store, final, peer, channels, next, rfl⟩)
    · -- a node without a name is refused
      obtain ⟨others, persist⟩ := closes_one final
      refine ⟨rfl, between_hears between created new unknown ?_⟩
      refine ⟨rfl, others, (persist sid).direction, ?_, fun _ _ => rfl, .inl rfl, ?_⟩
      · intro known
        exact absurd ((persist sid).msg1.trans unknown) known
      · exact fun isNamed => absurd unnamed isNamed
    · refine ⟨next, between_hears between created new unknown ?_⟩
      exact hears_addSession lawful boss isNamed between created new rfl peer final channels next
  · rw [dispatchMsg_ignored isFrame unknown other]
    exact ⟨rfl, between⟩

/-! ## New sessions -/

theorem between_accept {config : UConfig} {pid : Nat} {raddr : String}
    (between : Between node .incoming n s) :
    (s.accept json config pid raddr).All (Between node .incoming n) := by
  apply (Server.accept_carries Session.carried_persists Session.persists_reading raddr s).mono
  rintro t ⟨store, isAccepted, persist⟩
  have channels : t.nodeToSession = s.nodeToSession := by rw [isAccepted]; rfl
  have next : t.nextSession = s.nextSession + 1 := by rw [isAccepted]; rfl
  have stored : t.store = store := by rw [isAccepted]; rfl
  rw [← stored] at persist
  have slots := @slotOf_congr node s t channels
  -- a session is an old one or the one that has been accepted
  have each : ∀ sid < t.nextSession, (sid < s.nextSession ∧
      (t.store.session sid).direction = (s.store.session sid).direction ∧
      (t.store.session sid).msg1 = (s.store.session sid).msg1) ∨
      ((t.store.session sid).direction = .incoming ∧ (t.store.session sid).msg1 = none) := by
    intro sid created
    rw [(persist sid).direction, (persist sid).msg1]
    by_cases old : sid < s.nextSession
    · rw [Server.createSession_other .incoming raddr (Nat.ne_of_lt old)]
      exact .inl ⟨old, rfl, rfl⟩
    · have last : sid = s.nextSession :=
        Nat.le_antisymm (Nat.le_of_lt_succ (created.trans_eq next)) (Nat.le_of_not_lt old)
      rw [last, Server.createSession_self]
      exact .inr ⟨rfl, rfl⟩
  refine ⟨?_, ?_, ?_, ?_, nofun⟩
  · intro role isFirst
    obtain ⟨old, before, held, _⟩ := between.full role isFirst
    exact ⟨old, before, (slots role).trans held, nofun⟩
  · intro sid created new
    rcases each sid created with ⟨old, direction, _⟩ | ⟨direction, _⟩
    · exact direction.trans (between.directed sid old new)
    · exact direction
  · intro sid created new known
    rcases each sid created with ⟨old, _, msg1⟩ | ⟨_, unknown⟩
    · exact between.named sid old new (msg1 ▸ known)
    · exact absurd unknown known
  · intro _ role sid new held
    exact between.closed rfl role sid new ((slots role).symm.trans held)

theorem outgoing_createOutgoing (hname ip : String) (sessionsToCreate : Nat) (s : Server) :
    ∀ sid < (Server.createOutgoing hname ip sessionsToCreate s).nextSession, s.nextSession ≤ sid →
      ((Server.createOutgoing hname ip sessionsToCreate s).store.session sid).direction = .outgoing := by
  induction sessionsToCreate generalizing s with
  | zero => exact fun sid created new => absurd created (Nat.not_lt.mpr new)
  | succ sessionsToCreate inductionHypothesis =>
    obtain ⟨store, turn, persist, _⟩ := Server.createOutgoing_succ hname ip sessionsToCreate s
    rw [turn]
    intro sid created new
    by_cases last : sid = s.nextSession
    · -- the session of this turn
      have lasts := Server.lasts_createOutgoing Server.lasting_evolves hname ip sessionsToCreate
        ((s.createSession .outgoing ip).withStore store)
      have here : ((s.createSession .outgoing ip).store.session s.nextSession).direction = .outgoing := by
        rw [Server.createSession_self]
        rfl
      rw [last, (lasts.sessions s.nextSession (Nat.lt_succ_self _)).1]
      exact (persist s.nextSession).direction.trans here
    · exact inductionHypothesis _ sid created (Nat.lt_of_le_of_ne new (Ne.symm last))

/-- The sessions of `connectResolved`. -/
theorem resolved_sessions {config : UConfig} {pid i : Nat} {ip : String}
    (next : s.step json config pid (.resolved i (some ip)) = some t) :
    Creates json own node (fun _ => True) s t ∧ ∀ sid < t.nextSession, s.nextSession ≤ sid →
      (t.store.session sid).direction = .outgoing := by
  obtain ⟨hname, _, rfl⟩ := Option.map_eq_some_iff.mp next
  refine ⟨(creates_nothing _).trans (creates_connectResolved hname (some ip)), ?_⟩
  simp only [Server.connectResolved]
  split
  · exact outgoing_createOutgoing hname ip _ _
  · exact fun sid created new => absurd created (Nat.not_lt.mpr new)

theorem full_roles (connected : s.connectedFn node = some true) :
    ∀ role, role = .high ∨ role = .low → ∃ old, slotOf s node role = some old := by
  obtain ⟨remote, registered, full⟩ := Option.map_eq_some_iff.mp connected
  have slots := (channel_registered registered).1
  rw [Remote.connected, Bool.and_eq_true] at full
  rintro role (rfl | rfl)
  · rw [slots]
    exact Option.isSome_iff_exists.mp full.1
  · rw [slots]
    exact Option.isSome_iff_exists.mp full.2

/-- The boss has opened the new connections. -/
theorem between_opened {config : UConfig} {pid i : Nat} {ip : String}
    (connected : s.connectedFn node = some true)
    (bound : ∀ role sid, slotOf s node role = some sid → sid < s.nextSession)
    (third : OutgoingThird node s)
    (incoming : ∀ role sid, slotOf s node role = some sid → (s.store.session sid).direction = .incoming)
    (next : s.step json config pid (.resolved i (some ip)) = some t) :
    Between node .outgoing s.nextSession t := by
  obtain ⟨creates, outgoing⟩ := @resolved_sessions json node node s t config pid i ip next
  have slots := @slotOf_congr node s t creates.channels
  refine ⟨?_, outgoing, ?_, nofun, fun _ _ => .inr ⟨?_, ?_⟩⟩
  · intro role isFirst
    obtain ⟨old, held⟩ := full_roles connected role isFirst
    refine ⟨old, bound role old held, (slots role).trans held, fun _ => ?_⟩
    rw [creates.old old (bound role old held)]
    exact incoming role old held
  · intro sid created new known
    exact absurd (creates.new sid created new).1 known
  · rw [slots]
    cases held : slotOf s node .control with
    | none => rfl
    | some other =>
      have both := (third other held).symm.trans (incoming .control other held)
      cases both
  · intro sid created new
    obtain ⟨unknown, _, script, isOpen⟩ := creates.new sid created new
    refine ⟨unknown, isOpen.running, isOpen.staying, ?_⟩
    rintro live said
    rcases script with ⟨nothing, _⟩ | ⟨front, rest, _, writes, _⟩
    · rw [nothing] at said
      cases said
    · rw [writes] at said
      simp at said

/-- The other server has opened the new connections, which the boss does not know of yet. -/
theorem between_unopened (connected : s.connectedFn node = some true)
    (bound : ∀ role sid, slotOf s node role = some sid → sid < s.nextSession) :
    Between node .incoming s.nextSession s := by
  refine ⟨?_, ?_, ?_, ?_, nofun⟩
  · intro role isFirst
    obtain ⟨old, held⟩ := full_roles connected role isFirst
    exact ⟨old, bound role old held, held, nofun⟩
  · exact fun sid created new => absurd created (Nat.not_lt.mpr new)
  · exact fun sid created new => absurd created (Nat.not_lt.mpr new)
  · exact fun _ role sid new held => absurd (bound role sid held) (Nat.not_lt.mpr new)

end OneServer

/-! ## The boss in a run of both servers -/

section TwoServers

variable {json : JsonCodec} {name : Side → String} {pid : Side → Nat} {net opened after : Net} {side : Side}

/-- The direction of the new connections at the boss. -/
def directionAt : Side → Direction
  | .boss => .outgoing
  | .lower => .incoming

/-- What concerns only the new connections leaves the other ones alone. -/
theorem between_step (lawful : json.Lawful) (order : name .lower < name .boss)
    {current : Net} (joint : Joint json name pid current)
    (between : Between (name .lower) (directionAt side) (net.server .boss).nextSession (current.server .boss))
    {e : NetEvent} (concerns : Concerns net side e) (next : current.step json name pid e = some after) :
    Between (name .lower) (directionAt side) (net.server .boss).nextSession (after.server .boss) := by
  cases e with
  | gracefullClose at' sid reason => cases concerns
  | alone at' e =>
    obtain ⟨t, returned, rfl⟩ := Option.map_eq_some_iff.mp next
    cases at' with
    | lower => exact between
    | boss =>
      have self : (current.setServer .boss t).server .boss = t := setServer_self t
      rw [self]
      cases e with
      | tick elapsed =>
        cases returned
        apply between_minds between (Nat.le_refl _)
        exact minds_session rfl rfl (Function.update_eq_self ..).symm rfl rfl id
      | connectHandler sid ok =>
        obtain ⟨new, rfl⟩ := concerns
        obtain ⟨outcome, connected, returned⟩ := Option.bind_eq_some_iff.mp returned
        exact between_minds between new (minds_connect lawful connected returned)
      | written sid i ok =>
        obtain ⟨new, rfl⟩ := concerns
        obtain ⟨outcome, completed, returned⟩ := Option.bind_eq_some_iff.mp returned
        exact between_minds between new (minds_written completed returned)
      | accept raddr => cases concerns
      | fire => cases concerns
      | onTimer i => cases concerns
      | pokeTask => cases concerns
      | resolved i answer => cases concerns
      | received sid header body => cases concerns
      | readAgain sid processor => cases concerns
      | readFailed sid => cases concerns
  | accept at' sid raddr =>
    obtain ⟨rfl, -⟩ := concerns
    obtain ⟨t, returned, rfl, other⟩ := accept_cases next
    cases side with
    | boss =>
      have same : after.server .boss = current.server .boss := other
      rw [same]
      exact between
    | lower => exact Server.returned_all (between_accept between) returned
  | read at' sid length =>
    cases at' with
    | lower =>
      obtain ⟨_, t, _, _, _, _, _, rfl⟩ := read_cases joint.wired next
      exact between
    | boss =>
      have new : (net.server .boss).nextSession ≤ sid := concerns
      obtain ⟨u, processor, ⟨_, holds⟩, same⟩ := @boss_reads json name pid current after lawful joint sid length
        (fun u => sid < u.nextSession ∧
          Between (name .lower) (directionAt side) (net.server .boss).nextSession u)
        (by
          rintro u notice frame other isFrame ⟨created, between⟩
          apply (between_message lawful (lt_asymm order) (ne_of_gt order) between created new other isFrame).mono
          exact fun t kept => ⟨kept.1.symm ▸ created, kept.2⟩)
        (fun created => ⟨created, between⟩) next
      rw [same]
      exact between_minds holds new (minds_readAgain processor)

/-- The new connections are opened. -/
theorem between_resolved (joint : Joint json name pid net)
    (third : OutgoingThird (name .lower) (net.server .boss)) (established : Established name net)
    (none : NoneOutgoing name net side) {i : Nat} {ip : String}
    (resolved : net.step json name pid (.alone side (.resolved i (some ip))) = some opened) :
    Between (name .lower) (directionAt side) (net.server .boss).nextSession (opened.server .boss) := by
  have connected := established.connected .boss
  have bound := (joint.orderly .boss).roles
  obtain ⟨t, returned, rfl⟩ := Option.map_eq_some_iff.mp resolved
  cases side with
  | lower => exact between_unopened connected bound
  | boss =>
    have self : (net.setServer .boss t).server .boss = t := setServer_self t
    rw [self]
    exact between_opened connected bound third none (step_of_alone returned)

/-- In every state in which both channels are connected and nothing is under way, let one side open new
connections because it has opened none of those of its channel, and let nothing happen but on these until
they are authenticated at both ends.  Then the boss has given a role to one of them exactly if the boss is
the side that has opened them. -/
theorem needed_connection_iff (lawful : json.Lawful) (order : name .lower < name .boss)
    (now : Side → Nat) (remotes : Side → List String) {before : List NetEvent}
    (reached : exec (Net.step json name pid) (.initial name now remotes) before = some net)
    (established : Established name net) (none : NoneOutgoing name net side) {i : Nat} {ip : String}
    (resolved : net.step json name pid (.alone side (.resolved i (some ip))) = some opened)
    (creates : (net.server side).nextSession < (opened.server side).nextSession)
    {events : List NetEvent} (concerns : ∀ e ∈ events, Concerns net side e)
    (executed : exec (Net.step json name pid) opened events = some after)
    (known : BothKnown net opened after side) : Assigned name net after ↔ side = .boss := by
  have joint := (joint_runs lawful order now remotes before).last reached
  have third := (third_outgoing lawful order now remotes before).last reached
  have follows : Always (Net.step json name pid) (fun current => Joint json name pid current ∧
      Between (name .lower) (directionAt side) (net.server .boss).nextSession (current.server .boss))
      opened events := by
    refine always_of_meets ?_ ⟨joint_step lawful order joint resolved,
      between_resolved joint third established none resolved⟩
      (meets_of_all (fun e member _ => concerns e member) opened)
    rintro current after e ⟨joint, between⟩ next concerns
    exact ⟨joint_step lawful order joint next, between_step lawful order joint between concerns next⟩
  obtain ⟨joint, between⟩ := follows.last executed
  cases side with
  | lower =>
    refine iff_of_false ?_ nofun
    rintro ⟨role, sid, new, held⟩
    exact between.closed rfl role sid new held
  | boss =>
    refine iff_of_true ?_ rfl
    obtain ⟨authenticated, peer, connected, _⟩ := known _ (Nat.le_refl _) creates
    have heard : (after.session .boss (net.server .boss).nextSession).msg1 ≠ .none :=
      Option.isSome_iff_ne_none.mp authenticated
    have created := (joint.peers connected).1
    have isNamed := between.named _ created (Nat.le_refl _) heard
    rcases between.control rfl isNamed with ⟨sid, _, new, held, _⟩ | ⟨_, unheard⟩
    · exact ⟨.control, sid, new, held⟩
    · exact absurd (unheard _ created (Nat.le_refl _)).1 heard

end TwoServers

/-! ## Connections that are opened again -/

def address : Side → String
  | .lower => "10.0.0.1"
  | .boss => "10.0.0.2"

/-- A connection of `side`, over which both ends hear each other; the sessions have one number. -/
def connects (side : Side) (sid : SessionId) : List NetEvent :=
  [.alone side (.connectHandler sid true), .accept side.other sid (address side),
    .alone side (.written sid 0 true), .alone side.other (.written sid 0 true),
    .read .boss sid 1024, .alone .boss (.written sid 0 true), .read .lower sid 4096]

/-- Both servers look for each other, and `side` opens the two connections. -/
def openedBy (side : Side) : List NetEvent :=
  [.alone .lower .fire, .alone .boss .fire, .alone .lower (.onTimer 0), .alone .boss (.onTimer 0),
    .alone side (.resolved 0 (some (address side.other)))] ++ connects side 0 ++ connects side 1

def alphaBetaStep : Net → NetEvent → Option Net := Net.step Json.compactJson alphaBeta fun _ => 7

def alphaBetaStart : Net := .initial alphaBeta (fun _ => 0) fun side => [alphaBeta side.other]

/-- One side has opened both connections, and then the other one opens two more. -/
structure Reopened (side : Side) (net opened later : Net) : Prop where
  reached : exec alphaBetaStep alphaBetaStart (openedBy side.other) = some net
  established : Established alphaBeta net
  none : NoneOutgoing alphaBeta net side
  resolved : alphaBetaStep net (.alone side (.resolved 0 (some (address side.other)))) = some opened
  creates : (net.server side).nextSession < (opened.server side).nextSession
  concerns : ∀ e ∈ connects side 2 ++ connects side 3, Concerns net side e
  executed : exec alphaBetaStep opened (connects side 2 ++ connects side 3) = some later
  known : BothKnown net opened later side

theorem reopened (side : Side) : ∃ net opened later, Reopened side net opened later ∧
    (side = .lower → ¬ Assigned alphaBeta net later) := by
  have run : ((exec alphaBetaStep alphaBetaStart (openedBy side.other)).bind fun net =>
      (alphaBetaStep net (.alone side (.resolved 0 (some (address side.other))))).bind fun opened =>
        (exec alphaBetaStep opened (connects side 2 ++ connects side 3)).map fun later => decide (
          ((net.server .lower).nextSession = 2 ∧ (net.server .boss).nextSession = 2 ∧
            (net.server .lower).connectedFn (alphaBeta .boss) = some true ∧
            (net.server .boss).connectedFn (alphaBeta .lower) = some true) ∧
          (∀ sid : Nat, sid < 2 → net.inFlight .lower sid = [] ∧ net.inFlight .boss sid = [] ∧
            (net.session side sid).direction = .incoming) ∧
          (opened.server side).nextSession = 4 ∧
          (∀ sid : Nat, sid < 4 → 2 ≤ sid → (later.session side sid).authenticated = true ∧
            later.peer side sid = some sid ∧ (later.session side.other sid).authenticated = true) ∧
          (side = .lower → ∀ role ∈ [Priority.undefined, .high, .low, .control],
            slotOf (later.server .boss) (alphaBeta .lower) role =
              slotOf (net.server .boss) (alphaBeta .lower) role))) = some true := by
    cases side <;> decide +kernel
  obtain ⟨net, reached, run⟩ := Option.bind_eq_some_iff.mp run
  obtain ⟨opened, resolved, run⟩ := Option.bind_eq_some_iff.mp run
  obtain ⟨later, executed, decided⟩ := Option.map_eq_some_iff.mp run
  obtain ⟨⟨nextLower, nextBoss, connectedLower, connectedBoss⟩, old, nextOpened, new, refused⟩ :=
    of_decide_eq_true decided
  have joint : Joint Json.compactJson alphaBeta (fun _ => 7) net :=
    (joint_runs Json.compactJson_lawful (by decide) _ _ _).last reached
  have next : ∀ at', (net.server at').nextSession = 2 := by
    intro at'
    cases at' with
    | lower => exact nextLower
    | boss => exact nextBoss
  have connected : ∀ at', (net.server at').connectedFn (alphaBeta at'.other) = some true := by
    intro at'
    cases at' with
    | lower => exact connectedLower
    | boss => exact connectedBoss
  refine ⟨net, opened, later, ⟨reached, ⟨connected, ?_⟩, ?_, resolved, ?_, ?_, executed, ?_⟩, ?_⟩
  · intro at' sid
    by_cases created : sid < 2
    · cases at' with
      | lower => exact (old sid created).1
      | boss => exact (old sid created).2.1
    · have absent := (joint.wired.absent ((next at').trans_le (Nat.le_of_not_lt created))).1
      simp [Net.inFlight, Net.incoming, absent]
  · intro role sid held
    exact (old sid ((next side) ▸ (joint.orderly side).roles role sid held)).2.2
  · rw [next, nextOpened]
    decide
  · cases side <;> simp [connects, Concerns, New, next]
  · intro sid isNew created
    obtain ⟨here, peer, there⟩ := new sid (nextOpened ▸ created) (next side ▸ isNew)
    exact ⟨here, sid, peer, there⟩
  · rintro rfl ⟨role, sid, isNew, held⟩
    have same : slotOf (later.server .boss) (alphaBeta .lower) role =
        slotOf (net.server .boss) (alphaBeta .lower) role := refused rfl role (by cases role <;> simp)
    exact Nat.not_lt.mpr isNew ((joint.orderly .boss).roles role sid (same.symm.trans held))

/-- The lower server has opened both connections, the boss opens two more, and one of these is kept. -/
theorem boss_keeps_connection :
    ∃ net opened later, Reopened .boss net opened later ∧ Assigned alphaBeta net later := by
  obtain ⟨net, opened, later, reopened, _⟩ := reopened .boss
  exact ⟨net, opened, later, reopened,
    (needed_connection_iff Json.compactJson_lawful (by decide) _ _ reopened.reached reopened.established
      reopened.none reopened.resolved reopened.creates reopened.concerns reopened.executed
      reopened.known).mpr rfl⟩

/-- The boss has opened both connections, the lower server opens two more, and the boss has a role for none
of them. -/
theorem boss_refuses_connections :
    ∃ net opened later, Reopened .lower net opened later ∧ ¬ Assigned alphaBeta net later := by
  obtain ⟨net, opened, later, reopened, refused⟩ := reopened .lower
  exact ⟨net, opened, later, reopened, refused rfl⟩

end Uzel.Verified.NeededConnection
