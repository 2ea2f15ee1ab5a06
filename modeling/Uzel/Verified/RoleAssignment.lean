import Uzel.Verified.Handlers
import Uzel.Verified.ReadPath

/-! # How a connection gets its role

At the boss an open session goes through the phases of `BossPhase`, which tie its role to what it has
put into its queue.  At the other end `LowerPhase` ties the role to the messages that have been read
so far.  Each message that is read leads from one phase to the next, or the session is closed.
-/

namespace Uzel.Verified.RoleAssignment

open Foundation Protocol Handlers

section OneServer

variable {json : JsonCodec} {own node : String} {kind : Notice → Prop} {s t : Server} {sid : SessionId}
  (bye : ∀ reason, kind (.bye reason)) {pid : Nat}

/-! ## The phases of a connection -/

/-- An open session of the boss: its role, and what it has put into its queue so far. -/
inductive BossPhase (json : JsonCodec) (own node : String) (pid : Nat) (s : Server) (sid : SessionId) : Prop
  | idle (unknown : (s.store.session sid).msg1 = none)
      (idle : (s.store.session sid).reading ≠ .pending) (free : ∀ role, slotOf s node role ≠ some sid)
      (script : Script (s.store.session sid) [])
  | started (unknown : (s.store.session sid).msg1 = none)
      (connected : (s.store.session sid).connecting = false)
      (free : ∀ role, slotOf s node role ≠ some sid) {auth : List Char}
      (encoded : (Notice.auth pid).text json ⟨own, "userver"⟩ = some auth)
      (script : Script (s.store.session sid) [auth])
  | assigned {role : Priority} (assigned : role ≠ .undefined) (known : (s.store.session sid).msg1 ≠ none)
      (connected : (s.store.session sid).connecting = false)
      (slots : ∀ other, slotOf s node other = some sid ↔ other = role) {auth text : List Char}
      (encodedAuth : (Notice.auth pid).text json ⟨own, "userver"⟩ = some auth)
      (encoded : (Notice.priority role).text json ⟨own, "userver"⟩ = some text)
      (script : Script (s.store.session sid) [auth, text])

/-- An open session of the other server: its role, and what it has heard so far. -/
inductive LowerPhase (json : JsonCodec) (node : String) (heard : List (PTree × Body)) (s : Server)
    (sid : SessionId) : Prop
  | silent (nothing : heard = []) (unknown : (s.store.session sid).msg1 = none)
      (free : ∀ role, slotOf s node role ≠ some sid) (out : ¬ Waits s node sid)
  | known {first : PTree × Body} (one : heard = [first]) (known : (s.store.session sid).msg1 ≠ none)
      (free : ∀ role, slotOf s node role ≠ some sid) (waits : Waits s node sid)
  | assigned {first second : PTree × Body} (two : heard = [first, second]) {role : Priority}
      (assigned : role ≠ .undefined)
      (announced : (Notice.priority role).Frame json ⟨node, "userver"⟩ second)
      (known : (s.store.session sid).msg1 ≠ none)
      (slots : ∀ other, slotOf s node other = some sid ↔ other = role) (out : ¬ Waits s node sid)

theorem BossPhase.of_same (phase : BossPhase json own node pid s sid)
    (msg1 : (t.store.session sid).msg1 = (s.store.session sid).msg1)
    (reading : (s.store.session sid).reading ≠ .pending → (t.store.session sid).reading ≠ .pending)
    (connecting : (t.store.session sid).connecting = (s.store.session sid).connecting)
    (slots : ∀ role, slotOf t node role = some sid ↔ slotOf s node role = some sid)
    (script : ∀ texts, Script (s.store.session sid) texts → Script (t.store.session sid) texts) :
    BossPhase json own node pid t sid := by
  cases phase with
  | idle unknown idle free said =>
    exact .idle (msg1.trans unknown) (reading idle) (fun role taken => free role ((slots role).mp taken))
      (script _ said)
  | started unknown connected free encoded said =>
    exact .started (msg1.trans unknown) (connecting.trans connected)
      (fun role taken => free role ((slots role).mp taken)) encoded (script _ said)
  | assigned assigned known connected roles encodedAuth encoded said =>
    exact .assigned assigned (msg1 ▸ known) (connecting.trans connected)
      (fun other => (slots other).trans (roles other)) encodedAuth encoded (script _ said)

theorem LowerPhase.of_same {heard : List (PTree × Body)} (phase : LowerPhase json node heard s sid)
    (msg1 : (t.store.session sid).msg1 = (s.store.session sid).msg1)
    (slots : ∀ role, slotOf t node role = some sid ↔ slotOf s node role = some sid)
    (waits : Waits t node sid ↔ Waits s node sid) : LowerPhase json node heard t sid := by
  cases phase with
  | silent nothing unknown free out =>
    exact .silent nothing (msg1.trans unknown) (fun role taken => free role ((slots role).mp taken))
      (mt waits.mp out)
  | known one known free waiting =>
    exact .known one (msg1 ▸ known) (fun role taken => free role ((slots role).mp taken))
      (waits.mpr waiting)
  | assigned two assigned announced known roles out =>
    exact .assigned two assigned announced (msg1 ▸ known) (fun other => (slots other).trans (roles other))
      (mt waits.mp out)

theorem BossPhase.of_untouched (phase : BossPhase json own node pid s sid)
    (untouched : Untouched node s t sid) : BossPhase json own node pid t sid := by
  obtain ⟨session, slots, _⟩ := untouched
  apply phase.of_same _ _ _ slots
  · rw [session]
    exact fun _ => id
  · rw [session]
  · rw [session]
    exact id
  · rw [session]

theorem LowerPhase.of_untouched {heard : List (PTree × Body)} (phase : LowerPhase json node heard s sid)
    (untouched : Untouched node s t sid) : LowerPhase json node heard t sid :=
  phase.of_same (by rw [untouched.session]) untouched.slots untouched.waits

theorem bossPhase_handles (handles : Handles json own node kind pid s t)
    (orderly : Orderly json own node kind s)
    (phases : ∀ sid < s.nextSession, Open (s.store.session sid) → BossPhase json own node pid s sid)
    (created : sid < t.nextSession) (isOpen : Open (t.store.session sid)) :
    BossPhase json own node pid t sid := by
  obtain ⟨touched, moves, works⟩ := handles
  by_cases inside : touched sid
  · obtain ⟨channels, worked⟩ := works sid inside created isOpen
    have slots := @slotOf_congr node s t channels
    cases worked with
    | created new unknown idle script =>
      exact .idle unknown idle (fun role => slots role ▸ (orderly.absent new).1 role) script
    | accepted new unknown connected encoded script =>
      exact .started unknown connected (fun role => slots role ▸ (orderly.absent new).1 role) encoded script
    | started old connecting msg1 connected encoded script =>
      cases phases sid old (moves.opens sid old isOpen) with
      -- only a session that has not started yet is connecting
      | idle unknown idle free said =>
        exact .started (msg1.trans unknown) connected (fun role => slots role ▸ free role) encoded
          (script _ said)
      | started unknown connected =>
        rw [connected] at connecting
        cases connecting
      | assigned _ _ connected =>
        rw [connected] at connecting
        cases connecting
    | written old endpoint script =>
      apply (phases sid old (moves.opens sid old isOpen)).of_same (congrArg Endpoint.msg1 endpoint)
      · have reading := congrArg Endpoint.reading endpoint
        exact fun idle pending => idle (reading ▸ pending)
      · exact congrArg Endpoint.connecting endpoint
      · exact fun role => by rw [slots role]
      · exact script
  -- a session that the handler has not worked on is an old one
  · have old : sid < s.nextSession := by
      by_contra new
      exact inside (moves.fresh sid created (Nat.le_of_not_lt new)).1
    exact (phases sid old (moves.opens sid old isOpen)).of_untouched (moves.others sid inside isOpen)

theorem lowerPhase_handles (handles : Handles json own node kind pid s t)
    (orderly : Orderly json own node kind s) {heard : List (PTree × Body)}
    (phase : sid < s.nextSession → LowerPhase json node heard s sid)
    (nothing : s.nextSession ≤ sid → heard = []) (created : sid < t.nextSession)
    (isOpen : Open (t.store.session sid)) : LowerPhase json node heard t sid := by
  obtain ⟨touched, moves, works⟩ := handles
  by_cases inside : touched sid
  · obtain ⟨channels, worked⟩ := works sid inside created isOpen
    have slots := @slotOf_congr node s t channels
    have waits := @waits_congr node s t channels sid
    have carried : sid < s.nextSession → (t.store.session sid).msg1 = (s.store.session sid).msg1 →
        LowerPhase json node heard t sid := fun old msg1 =>
      (phase old).of_same msg1 (fun role => by rw [slots role]) waits
    -- a new session has not heard anything
    have silent : s.nextSession ≤ sid → (t.store.session sid).msg1 = none →
        LowerPhase json node heard t sid := fun new unknown =>
      .silent (nothing new) unknown (fun role => slots role ▸ (orderly.absent new).1 role)
        (mt waits.mp (orderly.absent new).2)
    cases worked with
    | created new unknown => exact silent new unknown
    | accepted new unknown => exact silent new unknown
    | started old connecting msg1 => exact carried old msg1
    | written old endpoint => exact carried old (congrArg Endpoint.msg1 endpoint)
  · have old : sid < s.nextSession := by
      by_contra new
      exact inside (moves.fresh sid created (Nat.le_of_not_lt new)).1
    exact (phase old).of_untouched (moves.others sid inside isOpen)

/-! ## A session is authenticated -/

/-- What the constructor of incoming messages makes of a notice. -/
theorem incoming_notice {notice : Notice} {header : PTree} {body : Body}
    (isFrame : notice.Frame json ⟨node, "userver"⟩ (header, body)) (origin : Option SessionId) :
    (Msg.incoming ⟨own, "userver"⟩ header body origin).from = ⟨"userver", node⟩ ∧
      (Msg.incoming ⟨own, "userver"⟩ header body origin).cname = some notice.cname ∧
      (Msg.incoming ⟨own, "userver"⟩ header body origin).destType = .service ∧
      (Msg.incoming ⟨own, "userver"⟩ header body origin).toMe = true := by
  obtain ⟨rfl, _⟩ : header = serviceHeader ⟨node, "userver"⟩ notice.cname ∧ _ := isFrame
  have service : (Msg.incoming ⟨own, "userver"⟩ (serviceHeader ⟨node, "userver"⟩ notice.cname) body
      origin).destType = .service := by
    rw [Msg.incoming_destType]
    rfl
  refine ⟨?_, ?_, service, Msg.updateDest_toMe_of_service service⟩
  · rw [Msg.incoming_from]
    rfl
  · rw [Msg.cname, Msg.incoming_header]
    rfl

theorem takeOverQueue_nil (sid : SessionId) (store : Sessions) :
    store.takeOverQueue sid [] = .done store := by
  have nothing : (store.session sid).takeOverMessages store.now [] = some (store.session sid) :=
    Session.takeOverMessages_eq_some.mpr ⟨nofun, by simp⟩
  have same : store.set sid (store.session sid) = store := by
    rw [Sessions.set, Function.update_eq_self]
  simp [Sessions.takeOverQueue, nothing, same]

/-- The boss gives a new session the first free role and announces it, or closes the session. -/
theorem addSession_boss (lawful : json.Lawful) {remote changed : Remote} {store after : Sessions}
    (peer : (store.session sid).peerNode = some node) (boss : ¬ own < node)
    (high : remote.outHighQueue = []) (low : remote.outLowQueue = [])
    (final : (remote.addSession json ⟨own, "userver"⟩ sid store).final = some (changed, after)) :
    (changed.outHighQueue = [] ∧ changed.outLowQueue = [] ∧
        changed.sessionWaitForRemote = remote.sessionWaitForRemote) ∧
      ((∃ role queued, role ≠ .undefined ∧ remote.slot role = none ∧
          (∀ other, changed.slot other = if other = role then some sid else remote.slot other) ∧
          QueuedMsg.ofMsg json store.now store.nextMsg (Remote.priorityMsg ⟨own, "userver"⟩ role) =
            some queued ∧
          after = remote.announced sid queued store) ∨
        ((∀ other, changed.slot other = remote.slot other) ∧
          (store.connectClosed sid (.remote remote.node)).gracefullClose json ⟨own, "userver"⟩ sid
            "duplicated connection" = .done after)) := by
  have adds := Remote.adds_addSession lawful ⟨own, "userver"⟩ remote peer
  generalize remote.addSession json ⟨own, "userver"⟩ sid store = outcome at adds final
  cases adds with
  | waits lower => exact absurd lower boss
  | high _ free built =>
    -- nothing waits in the channel, so nothing is flushed
    simp only [Remote.flushHigh, high, takeOverQueue_nil, Outcome.map_done, Outcome.final_done,
      Option.some.injEq, Prod.mk.injEq] at final
    obtain ⟨rfl, rfl⟩ := final
    refine ⟨⟨rfl, low, rfl⟩, .inl ⟨.high, _, by decide, free, ?_, built, rfl⟩⟩
    intro other
    cases other <;> rfl
  | low _ taken free built =>
    simp only [Remote.flushLow, low, takeOverQueue_nil, Outcome.map_done, Outcome.final_done,
      Option.some.injEq, Prod.mk.injEq] at final
    obtain ⟨rfl, rfl⟩ := final
    refine ⟨⟨high, rfl, rfl⟩, .inl ⟨.low, _, by decide, free, ?_, built, rfl⟩⟩
    intro other
    cases other <;> rfl
  | control _ taken free built =>
    cases final
    refine ⟨⟨high, low, rfl⟩, .inl ⟨.control, _, by decide, free, ?_, built, rfl⟩⟩
    intro other
    cases other <;> rfl
  | duplicate _ taken closed =>
    cases final
    exact ⟨⟨high, low, rfl⟩, .inr ⟨fun _ => rfl, closed⟩⟩

theorem addSession_lower {remote : Remote} {store : Sessions}
    (peer : (store.session sid).peerNode = some node) (lower : own < node) :
    remote.addSession json ⟨own, "userver"⟩ sid store =
      .done ({ remote with sessionWaitForRemote := insert sid remote.sessionWaitForRemote },
        store.connectClosed sid (.remote remote.node)) := by
  have samePeer : ((store.connectClosed sid (.remote remote.node)).session sid).peerNode = some node := by
    simpa [Sessions.connectClosed, Session.peerNode] using peer
  simp [Remote.addSession, samePeer, lower]

/-- The channel that `findAddRemote` returns. -/
theorem channel_getD (s : Server) (node : String) :
    (∀ role, slotOf s node role = ((s.nodeToSession.lookup node).getD (.new node)).slot role) ∧
      (∀ other, Waits s node other ↔
        other ∈ ((s.nodeToSession.lookup node).getD (.new node)).sessionWaitForRemote) ∧
      (Orderly json own node kind s →
        ((s.nodeToSession.lookup node).getD (.new node)).outHighQueue = [] ∧
          ((s.nodeToSession.lookup node).getD (.new node)).outLowQueue = []) := by
  cases registered : s.nodeToSession.lookup node with
  | none =>
    refine ⟨?_, ?_, fun _ => ⟨rfl, rfl⟩⟩
    · intro role
      rw [slotOf, registered]
      cases role <;> rfl
    · intro other
      simp [Waits, registered, Remote.new]
  | some remote =>
    obtain ⟨slots, waits⟩ := channel_registered registered
    exact ⟨slots, waits, fun orderly => orderly.empty remote registered⟩

/-- The message that authenticates a session is handed to `addSession` of the channel of the node. -/
theorem dispatchMsg_unknown (different : own ≠ node) {notice : Notice} {header : PTree} {body : Body}
    (isFrame : notice.Frame json ⟨node, "userver"⟩ (header, body))
    (unknown : (s.store.session sid).msg1 = none) {P : Server → Prop}
    (refused : (s.store.gracefullClose json ⟨own, "userver"⟩ sid "authentication failed").All fun after =>
      P (s.withStore after))
    (passed : ∀ known : Server,
      known = s.withStore (s.store.set sid { s.store.session sid with
        msg1 := some (.incoming ⟨own, "userver"⟩ header body (some sid)) }) →
      (known.store.session sid).peerNode = some node →
      (((known.nodeToSession.lookup node).getD (.new node)).addSession json ⟨own, "userver"⟩ sid
        known.store).All fun result => P (known.setRemote node result)) :
    (s.dispatchMsg json ⟨own, "userver"⟩ sid header body).All P := by
  obtain ⟨sender, _⟩ := @incoming_notice json own node notice header body isFrame (some sid)
  have notKnown : (s.store.session sid).authenticated = false := by
    rw [Session.authenticated, unknown]
    rfl
  simp only [Server.dispatchMsg, notKnown, Bool.false_eq_true, if_false]
  split
  · generalize known : s.withStore _ = after
    have msg1 : (after.store.session sid).msg1 =
        some (.incoming ⟨own, "userver"⟩ header body (some sid)) := by
      simp [← known, Server.withStore]
    -- the sender is the userver of another node
    have isRemote : (Msg.incoming ⟨own, "userver"⟩ header body (some sid)).fromLocal ⟨own, "userver"⟩ =
        false := by
      rw [Msg.fromLocal, sender]
      simpa [UConfig.isLocalNode] using Ne.symm different
    simp only [Server.auth, msg1, isRemote, Bool.false_eq_true, if_false, Server.addAuthSessionToRemote]
    rw [sender]
    apply Outcome.all_map.mpr
    apply passed after known.symm
    rw [Session.peerNode, msg1, Option.map_some, sender]
  · exact Outcome.all_map.mpr refused

theorem moves_msg1 (msg : Msg) : Moves json own node kind (· = sid) s
    (s.withStore (s.store.set sid { s.store.session sid with msg1 := some msg })) :=
  moves_set (.of_same rfl fun _ member => member) rfl
    fun isOpen => ⟨isOpen.running, isOpen.staying, isOpen.complete⟩

theorem moves_connectClosed (slot : ClosedSlot) : Moves json own node kind (· = sid) s
    (s.withStore (s.store.connectClosed sid slot)) :=
  moves_set (.of_same rfl fun _ member => member) rfl
    fun isOpen => ⟨isOpen.running, isOpen.staying, isOpen.complete⟩

include bye in
/-- At the lower server a new session waits for its role. -/
theorem lower_unknown (lower : own < node) (different : own ≠ node) (created : sid < s.nextSession)
    {notice : Notice} {header : PTree} {body : Body}
    (isFrame : notice.Frame json ⟨node, "userver"⟩ (header, body))
    (unknown : (s.store.session sid).msg1 = none) :
    (s.dispatchMsg json ⟨own, "userver"⟩ sid header body).All fun t =>
      Moves json own node kind (· = sid) s t ∧
        (Open (t.store.session sid) → LowerPhase json node [] s sid →
          LowerPhase json node [(header, body)] t sid) := by
  apply dispatchMsg_unknown different isFrame unknown
  · apply (@moves_gracefullClose json own node kind s sid bye "authentication failed").mono
    intro after ⟨moves, closed⟩
    exact ⟨moves.widen, fun isOpen => absurd isOpen closed⟩
  · intro known isKnown peer
    obtain ⟨slots, waits, empty⟩ := @channel_getD json own kind known node
    rw [addSession_lower peer lower]
    generalize (known.nodeToSession.lookup node).getD (.new node) = remote at slots waits empty
    have first : Moves json own node kind (· = sid) s known := isKnown ▸ moves_msg1 _
    have second : Moves json own node kind (· = sid) known (known.setRemote node
        ({ remote with sessionWaitForRemote := insert sid remote.sessionWaitForRemote },
          known.store.connectClosed sid (.remote remote.node))) := by
      apply @moves_setRemote json own node kind _ known node remote
        { remote with sessionWaitForRemote := insert sid remote.sessionWaitForRemote } _
        (moves_connectClosed (.remote remote.node)) (fun _ => slots) (fun _ => waits) fun _ => empty
      · intro other apart _
        refine ⟨fun role => by cases role <;> exact Iff.rfl, ?_⟩
        simp [Finset.mem_insert, apart]
      · intro other held
        rcases held with waiting | ⟨role, taken⟩
        · rcases Finset.mem_insert.mp waiting with rfl | before
          · exact .inr (created.trans_le first.next)
          · exact .inl (.inl before)
        · exact .inl (.inr ⟨role, by cases role <;> exact taken⟩)
    refine ⟨first.trans second, ?_⟩
    intro _ phase
    have sameSlots : ∀ role, slotOf known node role = slotOf s node role := by
      intro role
      rw [isKnown]
      rfl
    have free : ∀ role, slotOf s node role ≠ some sid := by
      cases phase with
      | silent _ _ free _ => exact free
      | known one => cases one
      | assigned two => cases two
    refine .known rfl ?_ ?_ ?_
    · simp [Server.setRemote, Sessions.connectClosed, isKnown, Server.withStore]
    · intro role
      rw [slotOf_setRemote, if_pos rfl]
      have kept : Remote.slot { remote with
          sessionWaitForRemote := insert sid remote.sessionWaitForRemote } role = remote.slot role := by
        cases role <;> rfl
      rw [kept, ← slots, sameSlots]
      exact free role
    · rw [waits_setRemote, if_pos rfl]
      exact Finset.mem_insert_self _ _

/-- What the announcement of a role says, and that it is not dropped at once. -/
theorem priorityMsg_built {role : Priority} {queued : QueuedMsg} {now id : Nat}
    (built : QueuedMsg.ofMsg json now id (Remote.priorityMsg ⟨own, "userver"⟩ role) = some queued) :
    (Notice.priority role).text json ⟨own, "userver"⟩ = some queued.rawmsg ∧
      queued.expired now = false :=
  ⟨(QueuedMsg.ofMsg_eq built).1, (QueuedMsg.ofMsg_eq built).2.2⟩

theorem moves_announced {remote : Remote} {role : Priority} {queued : QueuedMsg}
    (priority : ∀ role, kind (.priority role))
    (built : QueuedMsg.ofMsg json s.store.now s.store.nextMsg
      (Remote.priorityMsg ⟨own, "userver"⟩ role) = some queued) :
    Moves json own node kind (· = sid) s (s.withStore (remote.announced sid queued s.store)) := by
  obtain ⟨encoded, young⟩ := priorityMsg_built built
  have connected : Continues json ⟨own, "userver"⟩ kind (s.store.session sid)
      { s.store.session sid with
        closedSlots := (s.store.session sid).closedSlots ++ [.remote remote.node] } :=
    .of_same rfl fun _ member => member
  apply moves_session
  · exact fun other different => Remote.announced_other different queued remote s.store
  · rfl
  · rfl
  · simp only [Server.withStore, Remote.announced_self]
    exact connected.trans (.enqueue (priority role) encoded _)
  · simp [Server.withStore, Remote.announced_self]
  · simp only [Server.withStore, Remote.announced_self]
    intro isOpen
    obtain ⟨running, staying, complete⟩ := (open_enqueue young).mp isOpen
    exact ⟨running, staying, complete⟩

/-- The boss gives a free role and announces it at the end of the queue. -/
theorem moves_announce {remote changed : Remote} {role : Priority} {queued : QueuedMsg}
    (created : sid < s.nextSession) (priority : ∀ role, kind (.priority role))
    (slots : ∀ role, slotOf s node role = remote.slot role)
    (waits : ∀ other, Waits s node other ↔ other ∈ remote.sessionWaitForRemote)
    (queues : changed.outHighQueue = [] ∧ changed.outLowQueue = [])
    (waiting : changed.sessionWaitForRemote = remote.sessionWaitForRemote)
    (free : remote.slot role = none)
    (given : ∀ other, changed.slot other = if other = role then some sid else remote.slot other)
    (built : QueuedMsg.ofMsg json s.store.now s.store.nextMsg
      (Remote.priorityMsg ⟨own, "userver"⟩ role) = some queued) :
    Moves json own node kind (· = sid) s
      (s.setRemote node (changed, remote.announced sid queued s.store)) := by
  apply @moves_setRemote json own node kind _ s node remote changed _ (moves_announced priority built)
    (fun _ => slots) (fun _ => waits) fun _ _ => queues
  · intro other apart _
    refine ⟨?_, by rw [waiting]⟩
    intro other'
    rw [given]
    split
    next same =>
      subst same
      simp [free, Ne.symm apart]
    next => exact Iff.rfl
  · intro other held
    rcases held with waits | ⟨other', taken⟩
    · exact .inl (.inl (waiting ▸ waits))
    · rw [given] at taken
      split at taken
      · cases taken
        exact .inr created
      · exact .inl (.inr ⟨other', taken⟩)

/-- The session that has got a role says so next. -/
theorem bossPhase_announce {remote changed : Remote} {role : Priority} {queued : QueuedMsg} {known : Server}
    {msg : Msg} (isKnown : known.store.session sid = { s.store.session sid with msg1 := some msg })
    (slots : ∀ role, slotOf s node role = remote.slot role) (defined : role ≠ .undefined)
    (given : ∀ other, changed.slot other = if other = role then some sid else remote.slot other)
    (built : QueuedMsg.ofMsg json known.store.now known.store.nextMsg
      (Remote.priorityMsg ⟨own, "userver"⟩ role) = some queued)
    (isOpen : Open ((remote.announced sid queued known.store).session sid))
    (unknown : (s.store.session sid).msg1 = none) (pending : (s.store.session sid).reading = .pending)
    (phase : BossPhase json own node pid s sid) :
    BossPhase json own node pid (known.setRemote node (changed, remote.announced sid queued known.store))
      sid := by
  obtain ⟨encoded, young⟩ := priorityMsg_built built
  have self := Remote.announced_self sid queued remote known.store
  rw [isKnown] at self
  rw [self] at isOpen
  cases phase with
  | idle _ idle => exact absurd pending idle
  | assigned _ known => exact absurd unknown known
  | started _ connected unassigned encodedAuth script =>
    refine .assigned defined ?_ ?_ ?_ encodedAuth encoded ?_
    · rw [Server.setRemote_store, self]
      simp
    · rw [Server.setRemote_store, self]
      simpa using connected
    · intro other
      rw [slotOf_setRemote, if_pos rfl, given]
      split
      next same => simp [same]
      next different =>
        rw [← slots]
        exact iff_of_false (unassigned other) different
    · rw [Server.setRemote_store, self]
      -- the queue has gone on from the authentication
      have before : Script { s.store.session sid with
          msg1 := some msg
          closedSlots := (s.store.session sid).closedSlots ++ [.remote remote.node] } _ := script
      simpa using script_enqueue ((open_enqueue young).mp isOpen) before young

include bye in
/-- A session too many is closed, with its slot on the channel connected. -/
theorem moves_duplicate {remote changed : Remote} {after : Sessions}
    (slots : ∀ role, slotOf s node role = remote.slot role)
    (waits : ∀ other, Waits s node other ↔ other ∈ remote.sessionWaitForRemote)
    (queues : changed.outHighQueue = [] ∧ changed.outLowQueue = [])
    (waiting : changed.sessionWaitForRemote = remote.sessionWaitForRemote)
    (same : ∀ other, changed.slot other = remote.slot other)
    (closes : (s.store.connectClosed sid (.remote remote.node)).gracefullClose json ⟨own, "userver"⟩ sid
      "duplicated connection" = .done after) :
    Moves json own node kind (· = sid) s (s.setRemote node (changed, after)) ∧
      ¬ Open (after.session sid) := by
  have connected : Moves json own node kind (· = sid) s
      (s.withStore (s.store.connectClosed sid (.remote remote.node))) := moves_connectClosed _
  obtain ⟨moves, isClosed⟩ := (@moves_gracefullClose json own node kind
    (s.withStore (s.store.connectClosed sid (.remote remote.node))) sid bye
    "duplicated connection").of_final (congrArg Outcome.final closes)
  have stored : Moves json own node kind (· = sid) s (s.withStore after) :=
    connected.trans (moves.widen)
  refine ⟨?_, isClosed⟩
  apply @moves_setRemote json own node kind _ s node remote changed _ stored (fun _ => slots)
    (fun _ => waits) fun _ _ => queues
  · intro other _ _
    exact ⟨fun role => by rw [same], by rw [waiting]⟩
  · intro other held
    rcases held with waits | ⟨role, taken⟩
    · exact .inl (.inl (waiting ▸ waits))
    · exact .inl (.inr ⟨role, same role ▸ taken⟩)

include bye in
/-- At the boss a new session gets a role and announces it, or it is closed. -/
theorem boss_unknown (lawful : json.Lawful) (boss : ¬ own < node) (different : own ≠ node)
    (priority : ∀ role, kind (.priority role)) (orderly : Orderly json own node kind s)
    (created : sid < s.nextSession) {notice : Notice} {header : PTree} {body : Body}
    (isFrame : notice.Frame json ⟨node, "userver"⟩ (header, body))
    (unknown : (s.store.session sid).msg1 = none) :
    (s.dispatchMsg json ⟨own, "userver"⟩ sid header body).All fun t =>
      Moves json own node kind (· = sid) s t ∧
        (Open (t.store.session sid) → (s.store.session sid).reading = .pending →
          BossPhase json own node pid s sid →
            BossPhase json own node pid t sid ∧ (t.store.session sid).msg1 ≠ none) := by
  apply dispatchMsg_unknown different isFrame unknown
  · apply (@moves_gracefullClose json own node kind s sid bye "authentication failed").mono
    intro after ⟨moves, closed⟩
    exact ⟨moves.widen, fun isOpen => absurd isOpen closed⟩
  · intro known isKnown peer
    have first : Moves json own node kind (· = sid) s known := isKnown ▸ moves_msg1 _
    have self : known.store.session sid = { s.store.session sid with
        msg1 := some (.incoming ⟨own, "userver"⟩ header body (some sid)) } := by
      simp [isKnown, Server.withStore]
    have channels : known.nodeToSession = s.nodeToSession := by rw [isKnown]; rfl
    obtain ⟨slots, waits, empty⟩ := @channel_getD json own kind known node
    have empty := empty (first.orderly orderly)
    apply Outcome.all_of_final
    rintro ⟨changed, after⟩ final
    generalize (known.nodeToSession.lookup node).getD (.new node) = remote at slots waits empty final
    obtain ⟨⟨high, low, waiting⟩, assigned | closed⟩ :=
      addSession_boss lawful peer boss empty.1 empty.2 final
    · obtain ⟨role, queued, defined, free, given, built, rfl⟩ := assigned
      have second := moves_announce (created.trans_le first.next) priority slots waits ⟨high, low⟩ waiting
        free given built
      refine ⟨first.trans second, ?_⟩
      intro isOpen pending phase
      have sameSlots : ∀ role, slotOf s node role = remote.slot role := fun role =>
        (slotOf_congr channels role).symm.trans (slots role)
      refine ⟨bossPhase_announce self sameSlots defined given built isOpen unknown pending phase, ?_⟩
      rw [Server.setRemote_store, Remote.announced_self, self]
      simp
    · obtain ⟨same, closes⟩ := closed
      obtain ⟨second, isClosed⟩ := moves_duplicate bye slots waits ⟨high, low⟩ waiting same closes
      exact ⟨first.trans second, fun isOpen => absurd isOpen isClosed⟩

/-! ## A message on an authenticated session -/

theorem handleAny_service {msg : Msg} (service : msg.destType = .service) (s : Server) :
    Server.handleAny json msg s = .done (msg, s) := by
  simp [Server.handleAny, service]

/-- Nothing happens on an authenticated session unless the message is a priority message. -/
theorem dispatchMsg_ignored {notice : Notice} {header : PTree} {body : Body}
    (isFrame : notice.Frame json ⟨node, "userver"⟩ (header, body))
    (known : (s.store.session sid).msg1 ≠ none) (other : ∀ role, notice ≠ .priority role) :
    s.dispatchMsg json ⟨own, "userver"⟩ sid header body = .done s := by
  obtain ⟨_, named, service, _⟩ := @incoming_notice json own node notice header body isFrame (some sid)
  have isKnown : (s.store.session sid).authenticated = true := Option.isSome_iff_ne_none.mpr known
  have notPriority : notice.cname ≠ "priority" := by
    cases notice with
    | auth pid => simp [Notice.cname]
    | bye reason => simp [Notice.cname]
    | priority role => exact absurd rfl (other role)
  simp only [Server.dispatchMsg, isKnown, if_true]
  rw [Server.dispatchTask_of_other named (.inr notPriority), handleAny_service service]
  rfl

theorem dispatchMsg_priority {role : Priority} {header : PTree} {body : Body}
    (isFrame : (Notice.priority role).Frame json ⟨node, "userver"⟩ (header, body))
    (known : (s.store.session sid).msg1 ≠ none) {P : Server → Prop}
    (handled : ∀ left t, (Server.handlePriorityMsg json ⟨own, "userver"⟩
      (.incoming ⟨own, "userver"⟩ header body (some sid)) s).final = some (left, t) → P t) :
    (s.dispatchMsg json ⟨own, "userver"⟩ sid header body).All P := by
  obtain ⟨_, named, service, mine⟩ :=
    @incoming_notice json own node (.priority role) header body isFrame (some sid)
  have isKnown : (s.store.session sid).authenticated = true := Option.isSome_iff_ne_none.mpr known
  simp only [Server.dispatchMsg, isKnown, if_true]
  rw [Server.dispatchTask_of_priority named mine]
  -- the handler keeps the kind of the message, so it is not routed afterwards
  have kept : (Server.handlePriorityMsg json ⟨own, "userver"⟩
      (.incoming ⟨own, "userver"⟩ header body (some sid)) s).All fun result =>
        result.1.destType = .service := by
    simp only [Server.handlePriorityMsg]
    split
    · exact service
    next remote _ =>
      apply Outcome.all_map.mpr
      apply (Remote.handlePriorityMsg_msg json _ _ remote s.store).mono
      rintro ⟨left, channel⟩ ⟨body, same⟩
      exact (congrArg Msg.destType same).trans service
  rcases Outcome.attempt_cases (Server.handlePriorityMsg json ⟨own, "userver"⟩
    (.incoming ⟨own, "userver"⟩ header body (some sid)) s) with ⟨⟨left, t⟩, final, returned⟩ | ⟨_, hung⟩
  · have service : left.destType = .service := kept.of_final final
    rw [returned, Outcome.andThen_done]
    dsimp only
    rw [handleAny_service service]
    exact handled left t final
  · rw [hung]
    trivial

/-- A session that is only struck off the waiting list. -/
theorem moves_forget {remote : Remote} {store : Sessions}
    (moves : Moves json own node kind (· = sid) s (s.withStore store))
    (registered : s.nodeToSession.lookup node = some remote) :
    Moves json own node kind (· = sid) s (s.setRemote node (remote.forget sid, store)) := by
  obtain ⟨slots, waits⟩ := channel_registered registered
  apply @moves_setRemote json own node kind _ s node remote (remote.forget sid) _ moves (fun _ => slots)
    (fun _ => waits) fun _ orderly => orderly.empty remote registered
  · intro other apart _
    exact ⟨fun role => by rw [Remote.slot_forget], by simp [Remote.forget, apart]⟩
  · exact fun other held => .inl (Remote.holds_forget held)

/-- A session takes over a role, and the one that had it is closed. -/
theorem moves_setSlot {remote : Remote} {role : Priority} {store : Sessions} (defined : role ≠ .undefined)
    (created : sid < s.nextSession)
    (moves : Moves json own node kind (fun _ => False) s (s.withStore store))
    (overtaken : ∀ old, remote.slot role = some old → ¬ Open (store.session old))
    (registered : s.nodeToSession.lookup node = some remote) :
    Moves json own node kind (· = sid) s
      (s.setRemote node ((remote.forget sid).setSlot role sid, store)) := by
  obtain ⟨slots, waits⟩ := channel_registered registered
  have waiting : ((remote.forget sid).setSlot role sid).sessionWaitForRemote =
      (remote.forget sid).sessionWaitForRemote := by
    cases role <;> rfl
  apply @moves_setRemote json own node kind _ s node remote ((remote.forget sid).setSlot role sid) _
    (moves.widen) (fun _ => slots) (fun _ => waits)
  · intro _ orderly
    have empty := orderly.empty remote registered
    cases role <;> exact empty
  · intro other apart isOpen
    refine ⟨?_, by rw [waiting]; simp [Remote.forget, apart]⟩
    intro other'
    rw [Remote.slot_setSlot defined, Remote.slot_forget]
    split
    next same =>
      subst same
      -- the session that had the role is not open any more
      exact iff_of_false (fun same => apart (Option.some.inj same).symm)
        fun taken => overtaken other taken isOpen
    next => exact Iff.rfl
  · intro other held
    rcases Remote.holds_setSlot defined held with before | rfl
    · exact .inl (Remote.holds_forget before)
    · exact .inr created

include bye in
theorem moves_closeOvertaken {sessionToClose : Option SessionId} {after : Sessions}
    (closes : (Remote.closeOvertaken json ⟨own, "userver"⟩ sessionToClose s.store).final = some after) :
    Moves json own node kind (fun _ => False) s (s.withStore after) ∧
      ∀ old, sessionToClose = some old → ¬ Open (after.session old) := by
  cases sessionToClose with
  | none =>
    cases closes
    exact ⟨moves_quiet rfl rfl rfl, nofun⟩
  | some old =>
    obtain ⟨moves, closed⟩ := (@moves_gracefullClose json own node kind s old bye
      "overtaken by new connection").of_final closes
    exact ⟨moves, fun other same => Option.some.inj same ▸ closed⟩

/-- A session that waits for its role has heard exactly one message. -/
theorem LowerPhase.waiting {first : PTree × Body} (phase : LowerPhase json node [first] s sid) :
    (∀ role, slotOf s node role ≠ some sid) ∧ Waits s node sid := by
  cases phase with
  | silent nothing => cases nothing
  | assigned two => cases two
  | known _ _ free waits => exact ⟨free, waits⟩

/-- The role that the boss has announced is the one that the session gets. -/
theorem lowerPhase_assign {remote : Remote} {role : Priority} {store : Sessions} {first frame : PTree × Body}
    (isFrame : (Notice.priority role).Frame json ⟨node, "userver"⟩ frame) (defined : role ≠ .undefined)
    (registered : s.nodeToSession.lookup node = some remote) (known : (store.session sid).msg1 ≠ none)
    (phase : LowerPhase json node [first] s sid) :
    LowerPhase json node [first, frame]
      (s.setRemote node ((remote.forget sid).setSlot role sid, store)) sid := by
  obtain ⟨slots, _⟩ := channel_registered registered
  refine .assigned rfl defined isFrame known ?_ ?_
  · intro other
    rw [slotOf_setRemote, if_pos rfl, Remote.slot_setSlot defined, Remote.slot_forget]
    split
    next same => simp [same]
    next different =>
      rw [← slots]
      exact iff_of_false (phase.waiting.1 other) different
  · rw [waits_setRemote, if_pos rfl]
    have waiting : ((remote.forget sid).setSlot role sid).sessionWaitForRemote =
        remote.sessionWaitForRemote.erase sid := by
      cases role <;> rfl
    rw [waiting]
    exact Finset.notMem_erase sid _

include bye in
/-- A priority message changes the place of the session it comes from, and closes the session whose
role it gets. -/
theorem lower_priority {role : Priority} {header : PTree} {body : Body} (created : sid < s.nextSession)
    (isFrame : (Notice.priority role).Frame json ⟨node, "userver"⟩ (header, body))
    (known : (s.store.session sid).msg1 ≠ none) :
    (s.dispatchMsg json ⟨own, "userver"⟩ sid header body).All fun t =>
      Moves json own node kind (· = sid) s t ∧
        ∀ first, role ≠ .undefined → LowerPhase json node [first] s sid →
          LowerPhase json node [first, (header, body)] t sid := by
  obtain ⟨sender, _⟩ := @incoming_notice json own node (.priority role) header body isFrame (some sid)
  apply dispatchMsg_priority isFrame known
  intro left t final
  simp only [Server.handlePriorityMsg] at final
  rw [sender] at final
  cases registered : s.nodeToSession.lookup node with
  | none =>
    -- there is no channel, so nobody waits in it
    simp only [registered, Outcome.final_done, Option.some.injEq, Prod.mk.injEq] at final
    obtain ⟨_, rfl⟩ := final
    refine ⟨(moves_quiet rfl rfl rfl).widen, ?_⟩
    intro first _ phase
    obtain ⟨remote, found, _⟩ := phase.waiting.2
    rw [registered] at found
    cases found
  | some remote =>
    simp only [registered, Outcome.final_map, Option.map_eq_some_iff, Prod.mk.injEq] at final
    obtain ⟨⟨left', changed, after⟩, final, _, rfl⟩ := final
    obtain ⟨slots, _⟩ := channel_registered registered
    have parsed : body.parsed json = some role.toBody := isFrame.2
    rcases Remote.handlePriorityMsg_cases final with ⟨unknown, _⟩ | ⟨sid', origin, cases⟩
    · rw [Msg.incoming_origin] at unknown
      cases unknown
    rw [Msg.incoming_origin, Option.some.injEq] at origin
    subst origin
    rw [Msg.incoming_body, parsed] at cases
    rcases cases with ⟨ignored, rfl, rfl⟩ | ⟨_, _, tree, same, undefined | assigned⟩
    · -- the session has a role already, so it does not wait for one
      refine ⟨moves_forget ((moves_quiet rfl rfl rfl).widen) registered, ?_⟩
      intro first _ phase
      have free := phase.waiting.1
      rcases ignored with high | low | impossible
      · exact absurd ((slots .high).trans high) (free .high)
      · exact absurd ((slots .low).trans low) (free .low)
      · cases impossible
    · obtain ⟨isUndefined, rfl, closes⟩ := undefined
      cases same
      obtain ⟨moves, _⟩ := (@moves_gracefullClose json own node kind s sid bye
        "got undefined priority from remote").of_final closes
      refine ⟨moves_forget (moves.widen) registered, ?_⟩
      intro first defined
      rw [Priority.ofBody_toBody] at isUndefined
      exact absurd isUndefined defined
    · obtain ⟨defined, rfl, closes⟩ := assigned
      cases same
      rw [Priority.ofBody_toBody] at defined closes ⊢
      obtain ⟨moves, overtaken⟩ := moves_closeOvertaken bye closes
      refine ⟨moves_setSlot defined created moves overtaken registered, ?_⟩
      intro first _ phase
      refine lowerPhase_assign isFrame defined registered ?_ phase
      rw [(Remote.grows_handlePriorityMsg final).msg1]
      exact known

/-! ## A block of messages -/

include bye in
/-- One message of the boss at the lower server. -/
theorem lower_dispatch (lower : own < node) (different : own ≠ node) (created : sid < s.nextSession)
    {notice : Notice} {frame : PTree × Body} (isFrame : notice.Frame json ⟨node, "userver"⟩ frame) :
    (s.dispatchMsg json ⟨own, "userver"⟩ sid frame.1 frame.2).All fun t =>
      Moves json own node kind (· = sid) s t ∧ ∀ heard,
        (heard = [] ∨ ∃ first role, heard = [first] ∧ notice = .priority role ∧ role ≠ .undefined) →
        Open (t.store.session sid) → LowerPhase json node heard s sid →
          LowerPhase json node (heard ++ [frame]) t sid := by
  obtain ⟨header, body⟩ := frame
  by_cases unknown : (s.store.session sid).msg1 = none
  · apply (lower_unknown bye lower different created isFrame unknown).mono
    intro t ⟨moves, authenticates⟩
    refine ⟨moves, ?_⟩
    intro heard _ isOpen phase
    obtain rfl : heard = [] := by
      cases phase with
      | silent nothing => exact nothing
      | known _ known => exact absurd unknown known
      | assigned _ _ _ known => exact absurd unknown known
    exact authenticates isOpen phase
  · have notSilent : ∀ {heard}, LowerPhase json node heard s sid → heard ≠ [] := by
      intro heard phase
      cases phase with
      | silent _ isUnknown => exact absurd isUnknown unknown
      | known one => simp [one]
      | assigned two => simp [two]
    by_cases announces : ∃ role, notice = .priority role
    · obtain ⟨role, rfl⟩ := announces
      apply (lower_priority bye created isFrame unknown).mono
      intro t ⟨moves, assigns⟩
      refine ⟨moves, ?_⟩
      intro heard expected _ phase
      rcases expected with nothing | ⟨first, other, rfl, same, defined⟩
      · exact absurd nothing (notSilent phase)
      · cases same
        exact assigns first defined phase
    · have other : ∀ role, notice ≠ .priority role := fun role same => announces ⟨role, same⟩
      rw [dispatchMsg_ignored isFrame unknown other]
      refine ⟨(moves_quiet rfl rfl rfl).widen, ?_⟩
      intro heard expected _ phase
      rcases expected with nothing | ⟨_, role, _, same, _⟩
      · exact absurd nothing (notSilent phase)
      · exact absurd same (other role)

include bye in
/-- One message of the lower server at the boss. -/
theorem boss_dispatch (lawful : json.Lawful) (boss : ¬ own < node) (different : own ≠ node)
    (priority : ∀ role, kind (.priority role)) (orderly : Orderly json own node kind s)
    (created : sid < s.nextSession) {notice : Notice} (other : ∀ role, notice ≠ .priority role)
    {frame : PTree × Body} (isFrame : notice.Frame json ⟨node, "userver"⟩ frame) :
    (s.dispatchMsg json ⟨own, "userver"⟩ sid frame.1 frame.2).All fun t =>
      Moves json own node kind (· = sid) s t ∧ (Open (t.store.session sid) →
        ((s.store.session sid).msg1 = none → (s.store.session sid).reading = .pending) →
        BossPhase json own node pid s sid → BossPhase json own node pid t sid ∧
          ((t.store.session sid).msg1 = none → (t.store.session sid).reading = .pending)) := by
  obtain ⟨header, body⟩ := frame
  by_cases unknown : (s.store.session sid).msg1 = none
  · apply (@boss_unknown json own node kind s sid bye pid lawful boss different priority orderly created
      notice header body isFrame unknown).mono
    intro t ⟨moves, assigns⟩
    refine ⟨moves, ?_⟩
    intro isOpen pending phase
    obtain ⟨later, known⟩ := assigns isOpen (pending unknown) phase
    exact ⟨later, fun unknown => absurd unknown known⟩
  · rw [dispatchMsg_ignored isFrame unknown other]
    exact ⟨(moves_quiet rfl rfl rfl).widen, fun _ pending phase => ⟨phase, pending⟩⟩

/-- The read handler on a part of a stream of notices: the messages of the part are handled in their
order, and the processor follows the stream. -/
theorem read_rule (lawful : json.Lawful) {P : List (PTree × Body) → Server → Prop}
    {done block rest : List Char} {notices : List Notice} {texts : List (List Char)}
    (written : Written json ⟨node, "userver"⟩ notices texts)
    (stream : texts.flatten = done ++ block ++ rest)
    (follows : Follows json done (s.store.session sid).processor)
    (each : ∀ {heard notice frame u}, notices[heard.length]? = some notice →
      notice.Frame json ⟨node, "userver"⟩ frame → P heard u →
      (u.dispatchMsg json ⟨own, "userver"⟩ sid frame.1 frame.2).All (P (heard ++ [frame])))
    (initial : sid < s.nextSession → (s.store.session sid).reading = .pending → P (parse json done).1 s)
    (returned : s.read json ⟨own, "userver"⟩ sid block = some t) :
    ∃ u processor, P (parse json (done ++ block)).1 u ∧ Follows json (done ++ block) processor ∧
      t = u.readAgain sid processor := by
  obtain ⟨frames, whole, matched⟩ := parse_flatten lawful written
  rw [stream] at whole
  obtain ⟨heard, header, part, isPart⟩ := parse_of_prefix whole
  have before : parse json done = ((parse json done).1, some (s.store.session sid).processor.header) :=
    Prod.ext rfl follows.header
  have extended := parse_append done block before
  rw [part, Prod.mk.injEq] at extended
  obtain ⟨frames_eq, header_eq⟩ := extended
  simp only [Server.read] at returned
  split at returned
  next enabled =>
    have delivered := @deliver_rule _ (Server.dispatchMsg json ⟨own, "userver"⟩ sid) P
      (scan json.readJson (s.store.session sid).processor.header
        (splitLines (partialLine done) block).1).1 (parse json done).1 s
      (finishScan (splitLines (partialLine done) block).2 (some header))
      (by
        intro heard' frame u first holds
        obtain ⟨notice, position, isFrame⟩ := notice_at matched ((frames_eq ▸ first).trans isPart)
        refine ⟨?_, each position isFrame holds⟩
        -- only a message without a name raises
        intro t raised
        obtain ⟨_, unnamed, _⟩ := ReadPath.dispatchMsg_raised lawful raised
        rw [(incoming_notice isFrame (some sid)).2.1] at unnamed
        cases unnamed)
      (initial enabled.1 enabled.2)
    -- the frames of the block are those that the stream goes on with
    rw [processNewInput_eq_deliver, follows.line, ← header_eq] at returned
    rw [← frames_eq] at delivered
    rcases delivered with hung | ⟨u, holds, finished⟩
    · rw [hung] at returned
      cases returned
    · rw [finished] at returned
      cases returned
      refine ⟨u, _, by rwa [part], ⟨?_, ?_⟩, rfl⟩
      · rw [part]
      · rw [partialLine_append]
  next => cases returned

/-- The read handler has worked on one session, and its processor has got further along the stream. -/
structure Reads (json : JsonCodec) (own node : String) (kind : Notice → Prop) (bytes : List Char)
    (sid : SessionId) (s t : Server) : Prop where
  orderly : Orderly json own node kind s → Orderly json own node kind t
  next : t.nextSession = s.nextSession
  others : ∀ other ≠ sid, Open (t.store.session other) → Untouched node s t other
  streams : ∀ other < s.nextSession, (s.store.session other).sent <+: (t.store.session other).sent
  processors : ∀ other < s.nextSession, other ≠ sid →
    (t.store.session other).processor = (s.store.session other).processor
  follows : Follows json bytes (t.store.session sid).processor
  opens : ∀ other < s.nextSession, Open (t.store.session other) → Open (s.store.session other)

theorem readAgain_self (processor : InputProcessor) : (s.readAgain sid processor).store.session sid =
    { s.store.session sid with processor }.doRead := by
  simp [Server.readAgain, Server.withStore]

theorem readAgain_other (processor : InputProcessor) {other : SessionId} (different : other ≠ sid) :
    (s.readAgain sid processor).store.session other = s.store.session other := by
  simp [Server.readAgain, Server.withStore, different]

theorem reads_readAgain (created : sid < s.nextSession) (moves : Moves json own node kind (· = sid) s t)
    {bytes : List Char} {processor : InputProcessor} (follows : Follows json bytes processor) :
    Reads json own node kind bytes sid s (t.readAgain sid processor) where
  orderly before := by
    have later := moves.orderly before
    refine @Orderly.of_channels json own node kind t (t.readAgain sid processor) later rfl
      (Nat.le_refl _) ?_
    intro other
    by_cases same : other = sid
    · subst same
      rw [readAgain_self]
      exact ⟨(later.honest other).sent, (later.honest other).queue⟩
    · rw [readAgain_other processor same]
      exact later.honest other
  next := by
    by_contra different
    have new : s.nextSession < t.nextSession := Nat.lt_of_le_of_ne moves.next (Ne.symm different)
    -- messages do not create sessions
    obtain ⟨rfl, _⟩ := moves.fresh s.nextSession new (Nat.le_refl _)
    exact Nat.lt_irrefl _ created
  others other different isOpen := by
    rw [readAgain_other processor different] at isOpen
    exact (moves.others other different isOpen).trans
      ⟨readAgain_other processor different, fun _ => Iff.rfl, Iff.rfl⟩
  streams other below := by
    by_cases same : other = sid
    · subst same
      rw [readAgain_self]
      exact moves.streams other below
    · rw [readAgain_other processor same]
      exact moves.streams other below
  processors other below different := by
    rw [readAgain_other processor different]
    exact moves.processors other below
  follows := by rwa [readAgain_self]
  opens other below isOpen := by
    apply moves.opens other below
    by_cases same : other = sid
    · subst same
      rw [readAgain_self] at isOpen
      exact ⟨isOpen.running, isOpen.staying, isOpen.complete⟩
    · exact readAgain_other processor same ▸ isOpen

/-- What the lower server has made of the first messages of a block.  The role matters only while the
other end is alive. -/
structure LowerRead (json : JsonCodec) (own node : String) (kind : Notice → Prop) (live : Prop)
    (sid : SessionId) (s : Server) (heard : List (PTree × Body)) (u : Server) : Prop where
  created : sid < s.nextSession
  moves : Moves json own node kind (· = sid) s u
  phase : live → Open (u.store.session sid) → LowerPhase json node heard u sid

/-- What the boss has made of the first messages of a block. -/
structure BossRead (json : JsonCodec) (own node : String) (kind : Notice → Prop) (pid : Nat)
    (sid : SessionId) (s u : Server) : Prop where
  created : sid < s.nextSession
  moves : Moves json own node kind (· = sid) s u
  phase : Open (u.store.session sid) → BossPhase json own node pid u sid ∧
    ((u.store.session sid).msg1 = none → (u.store.session sid).reading = .pending)

section Blocks

variable {done block rest : List Char} {notices : List Notice} {texts : List (List Char)}

theorem second_notice {auth priority notice : Notice} (isPart : notices <+: [auth, priority])
    {heard : List (PTree × Body)} (position : notices[heard.length]? = some notice) :
    heard = [] ∨ ∃ first, heard = [first] ∧ notice = priority := by
  obtain ⟨inside, same⟩ := List.getElem?_eq_some_iff.mp position
  have position := List.prefix_iff_getElem?.mp isPart heard.length inside
  rw [same] at position
  match heard with
  | [] => exact .inl rfl
  | [first] => exact .inr ⟨first, rfl, by simpa using position.symm⟩
  | _ :: _ :: _ => simp at position

include bye in
/-- A block of the stream of the boss at the lower server.  As long as the session of the boss is open,
the stream is a part of an authentication and a priority message. -/
theorem lower_read (lawful : json.Lawful) (lower : own < node) (different : own ≠ node) {live : Prop}
    (written : Written json ⟨node, "userver"⟩ notices texts)
    (announces : live → ∃ role, role ≠ .undefined ∧ notices <+: [.auth pid, .priority role])
    (stream : texts.flatten = done ++ block ++ rest)
    (follows : Follows json done (s.store.session sid).processor)
    (phase : live → Open (s.store.session sid) → LowerPhase json node (parse json done).1 s sid)
    (returned : s.read json ⟨own, "userver"⟩ sid block = some t) :
    Reads json own node kind (done ++ block) sid s t ∧ (live → Open (t.store.session sid) →
      LowerPhase json node (parse json (done ++ block)).1 t sid) := by
  have each : ∀ {heard notice frame u}, notices[heard.length]? = some notice →
      notice.Frame json ⟨node, "userver"⟩ frame → LowerRead json own node kind live sid s heard u →
      (u.dispatchMsg json ⟨own, "userver"⟩ sid frame.1 frame.2).All
        (LowerRead json own node kind live sid s (heard ++ [frame])) := by
    intro heard notice frame u position isFrame ⟨created, moves, phase⟩
    have present := Nat.lt_of_lt_of_le created moves.next
    apply (lower_dispatch bye lower different present isFrame).mono
    intro t ⟨step, hears⟩
    refine ⟨created, moves.trans step, ?_⟩
    intro alive isOpen
    obtain ⟨role, defined, isPart⟩ := announces alive
    refine hears heard ?_ isOpen (phase alive (step.opens sid present isOpen))
    rcases second_notice isPart position with first | ⟨first, one, second⟩
    · exact .inl first
    · exact .inr ⟨first, role, one, second, defined⟩
  obtain ⟨u, processor, ⟨created, moves, later⟩, further, rfl⟩ :=
    read_rule lawful written stream follows each
      (fun created _ => ⟨created, (moves_quiet rfl rfl rfl).widen, phase⟩) returned
  refine ⟨reads_readAgain created moves further, ?_⟩
  intro alive isOpen
  rw [readAgain_self] at isOpen
  apply (later alive ⟨isOpen.running, isOpen.staying, isOpen.complete⟩).of_same
  · rw [readAgain_self]
    rfl
  · exact fun _ => Iff.rfl
  · exact Iff.rfl

include bye in
/-- A block of the stream of the lower server at the boss. -/
theorem boss_read (lawful : json.Lawful) (boss : ¬ own < node) (different : own ≠ node)
    (priority : ∀ role, kind (.priority role)) (orderly : Orderly json own node kind s)
    (written : Written json ⟨node, "userver"⟩ notices texts)
    (silent : ∀ notice ∈ notices, ∀ role, notice ≠ .priority role)
    (stream : texts.flatten = done ++ block ++ rest)
    (follows : Follows json done (s.store.session sid).processor)
    (phase : Open (s.store.session sid) → BossPhase json own node pid s sid)
    (returned : s.read json ⟨own, "userver"⟩ sid block = some t) :
    Reads json own node kind (done ++ block) sid s t ∧
      (Open (t.store.session sid) → BossPhase json own node pid t sid) := by
  have each : ∀ {heard : List (PTree × Body)} {notice frame u}, notices[heard.length]? = some notice →
      notice.Frame json ⟨node, "userver"⟩ frame → BossRead json own node kind pid sid s u →
      (u.dispatchMsg json ⟨own, "userver"⟩ sid frame.1 frame.2).All
        (BossRead json own node kind pid sid s) := by
    intro heard notice frame u position isFrame ⟨created, moves, phase⟩
    have present := Nat.lt_of_lt_of_le created moves.next
    have other := silent notice (List.mem_of_getElem? position)
    apply (@boss_dispatch json own node kind u sid bye pid lawful boss different priority
      (moves.orderly orderly) present notice other frame isFrame).mono
    intro t ⟨step, hears⟩
    refine ⟨created, moves.trans step, ?_⟩
    intro isOpen
    obtain ⟨before, pending⟩ := phase (step.opens sid present isOpen)
    exact hears isOpen pending before
  obtain ⟨u, processor, ⟨created, moves, later⟩, further, rfl⟩ :=
    read_rule (P := fun _ => BossRead json own node kind pid sid s) lawful written stream follows each
      (fun created pending => ⟨created, (moves_quiet rfl rfl rfl).widen,
        fun isOpen => ⟨phase isOpen, fun _ => pending⟩⟩) returned
  refine ⟨reads_readAgain created moves further, ?_⟩
  intro isOpen
  have self := @readAgain_self u sid processor
  rw [self] at isOpen
  obtain ⟨before, pending⟩ := later ⟨isOpen.running, isOpen.staying, isOpen.complete⟩
  cases before with
  -- a session that reads has been started
  | idle unknown idle => exact absurd (pending unknown) idle
  | started unknown connected free encoded script =>
    exact .started (by rw [self]; exact unknown) (by rw [self]; exact connected) free encoded
      (by rw [self]; exact script)
  | assigned assigned known connected slots encodedAuth encoded script =>
    exact .assigned assigned (by rw [self]; exact known) (by rw [self]; exact connected) slots encodedAuth
      encoded (by rw [self]; exact script)

end Blocks

end OneServer

end Uzel.Verified.RoleAssignment
