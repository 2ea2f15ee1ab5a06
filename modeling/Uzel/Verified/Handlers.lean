import Uzel.Net
import Uzel.Verified.Protocol

/-! # What the handlers of a server do to its sessions and their roles

A handler works on a few sessions and may close others.  `Moves` says what every handler respects:
the other open sessions and their places in the channel stay as they are, streams only grow, and a
closed session is never open again.  `Handles` adds what happens to the sessions a handler works on,
for every handler that is not called with a message of the peer.
-/

namespace Uzel.Verified.Handlers

open Foundation Protocol

/-- The session that has a role in the channel to a node. -/
def slotOf (s : Server) (node : String) (role : Priority) : Option SessionId :=
  (s.nodeToSession.lookup node).bind (·.slot role)

/-- The session is in `sessionWaitForRemote` of the channel to a node. -/
def Waits (s : Server) (node : String) (sid : SessionId) : Prop :=
  ∃ remote, s.nodeToSession.lookup node = some remote ∧ sid ∈ remote.sessionWaitForRemote

/-! ## What a handler of one server may do -/

/-- What holds of a server that is connected only to the server of `node`: it writes notices, nothing
waits in the channel, and the sessions of the channel exist. -/
structure Orderly (json : JsonCodec) (own node : String) (kind : Notice → Prop) (s : Server) : Prop where
  honest : ∀ sid, Honest json ⟨own, "userver"⟩ kind (s.store.session sid)
  empty : ∀ remote, s.nodeToSession.lookup node = some remote →
    remote.outHighQueue = [] ∧ remote.outLowQueue = []
  waiting : ∀ sid, Waits s node sid → sid < s.nextSession
  roles : ∀ role sid, slotOf s node role = some sid → sid < s.nextSession

/-- The session is as it was, and so is its place in the channel. -/
structure Untouched (node : String) (s t : Server) (sid : SessionId) : Prop where
  session : t.store.session sid = s.store.session sid
  slots : ∀ role, slotOf t node role = some sid ↔ slotOf s node role = some sid
  waits : Waits t node sid ↔ Waits s node sid

/-- A handler works on the sessions in `touched`; it may also close others.  Streams only grow, and no
session is opened again. -/
structure Moves (json : JsonCodec) (own node : String) (kind : Notice → Prop)
    (touched : SessionId → Prop) (s t : Server) : Prop where
  orderly : Orderly json own node kind s → Orderly json own node kind t
  next : s.nextSession ≤ t.nextSession
  others : ∀ sid, ¬ touched sid → Open (t.store.session sid) → Untouched node s t sid
  streams : ∀ sid < s.nextSession, (s.store.session sid).sent <+: (t.store.session sid).sent
  processors : ∀ sid < s.nextSession, (t.store.session sid).processor = (s.store.session sid).processor
  opens : ∀ sid < s.nextSession, Open (t.store.session sid) → Open (s.store.session sid)
  fresh : ∀ sid < t.nextSession, s.nextSession ≤ sid →
    touched sid ∧ (t.store.session sid).processor = .fresh

section OneServer

variable {json : JsonCodec} {own node : String} {kind : Notice → Prop} {touched : SessionId → Prop}
  {s t u : Server} {sid : SessionId}

theorem Untouched.trans (first : Untouched node s t sid) (second : Untouched node t u sid) :
    Untouched node s u sid :=
  ⟨second.session.trans first.session, fun role => (second.slots role).trans (first.slots role),
    second.waits.trans first.waits⟩

theorem slotOf_congr (channels : t.nodeToSession = s.nodeToSession) (role : Priority) :
    slotOf t node role = slotOf s node role := by
  rw [slotOf, channels, slotOf]

theorem waits_congr (channels : t.nodeToSession = s.nodeToSession) (sid : SessionId) :
    Waits t node sid ↔ Waits s node sid := by
  rw [Waits, channels, Waits]

/-- The channels have not changed. -/
theorem Orderly.of_channels (before : Orderly json own node kind s)
    (channels : t.nodeToSession = s.nodeToSession) (next : s.nextSession ≤ t.nextSession)
    (honest : ∀ sid, Honest json ⟨own, "userver"⟩ kind (t.store.session sid)) :
    Orderly json own node kind t where
  honest := honest
  empty remote registered := before.empty remote (channels ▸ registered)
  waiting sid waits := Nat.lt_of_lt_of_le (before.waiting sid ((waits_congr channels sid).mp waits)) next
  roles role sid taken :=
    Nat.lt_of_lt_of_le (before.roles role sid ((slotOf_congr channels role).symm.trans taken)) next

/-- A session that does not exist yet has no place in the channel. -/
theorem Orderly.absent (orderly : Orderly json own node kind s) (new : s.nextSession ≤ sid) :
    (∀ role, slotOf s node role ≠ some sid) ∧ ¬ Waits s node sid :=
  ⟨fun role taken => Nat.not_lt.mpr new (orderly.roles role sid taken),
    fun waits => Nat.not_lt.mpr new (orderly.waiting sid waits)⟩

theorem Moves.trans (first : Moves json own node kind touched s t)
    (second : Moves json own node kind touched t u) : Moves json own node kind touched s u where
  orderly before := second.orderly (first.orderly before)
  next := first.next.trans second.next
  others sid apart isOpen := by
    have later := second.others sid apart isOpen
    exact (first.others sid apart (later.session ▸ isOpen)).trans later
  streams sid created := (first.streams sid created).trans (second.streams sid (created.trans_le first.next))
  processors sid created :=
    (second.processors sid (created.trans_le first.next)).trans (first.processors sid created)
  opens sid created isOpen :=
    first.opens sid created (second.opens sid (created.trans_le first.next) isOpen)
  fresh sid created new := by
    -- a session that the first handler has created is an old one of the second
    by_cases earlier : sid < t.nextSession
    · obtain ⟨inside, processor⟩ := first.fresh sid earlier new
      exact ⟨inside, (second.processors sid earlier).trans processor⟩
    · exact second.fresh sid created (Nat.le_of_not_lt earlier)

theorem Moves.mono {more : SessionId → Prop} (moves : Moves json own node kind touched s t)
    (le : ∀ sid, touched sid → more sid) : Moves json own node kind more s t :=
  { moves with
    others := fun sid apart => moves.others sid fun inside => apart (le sid inside)
    fresh := fun sid below new =>
      have created := moves.fresh sid below new
      ⟨le sid created.1, created.2⟩ }

/-- A handler that works on no session works on no other one. -/
theorem Moves.widen (moves : Moves json own node kind (fun _ => False) s t) :
    Moves json own node kind touched s t :=
  moves.mono fun _ => False.elim

/-- A handler that works on no session creates none. -/
theorem Moves.next_eq (moves : Moves json own node kind (fun _ => False) s t) :
    t.nextSession = s.nextSession := by
  by_contra different
  have new : s.nextSession < t.nextSession := Nat.lt_of_le_of_ne moves.next (Ne.symm different)
  exact (moves.fresh s.nextSession new (Nat.le_refl _)).1

/-- A session that is closed afterwards need not be counted. -/
theorem Moves.closing (moves : Moves json own node kind (· = sid) s t)
    (next : t.nextSession = s.nextSession) (closed : ¬ Open (t.store.session sid)) :
    Moves json own node kind (fun _ => False) s t := by
  refine { moves with
    others := fun other _ isOpen => moves.others other ?_ isOpen
    fresh := fun other created new => absurd (next ▸ created) (Nat.not_lt.mpr new) }
  rintro rfl
  exact closed isOpen

/-- The channels stay as they are and so do all sessions but one. -/
theorem moves_session (sessions : ∀ other, other ≠ sid → t.store.session other = s.store.session other)
    (channels : t.nodeToSession = s.nodeToSession) (next : t.nextSession = s.nextSession)
    (continues : Continues json ⟨own, "userver"⟩ kind (s.store.session sid) (t.store.session sid))
    (processor : (t.store.session sid).processor = (s.store.session sid).processor)
    (opens : Open (t.store.session sid) → Open (s.store.session sid)) :
    Moves json own node kind (· = sid) s t where
  orderly before := by
    apply before.of_channels channels next.ge
    intro other
    by_cases same : other = sid
    · exact same ▸ continues.honest (before.honest sid)
    · exact sessions other same ▸ before.honest other
  next := next.ge
  others other apart _ := by
    refine ⟨sessions other apart, ?_, waits_congr channels other⟩
    intro role
    rw [slotOf_congr channels]
  streams other _ := by
    by_cases same : other = sid
    · exact same ▸ continues.sent
    · rw [sessions other same]
  processors other _ := by
    by_cases same : other = sid
    · exact same ▸ processor
    · rw [sessions other same]
  opens other _ isOpen := by
    by_cases same : other = sid
    · subst same
      exact opens isOpen
    · exact sessions other same ▸ isOpen
  fresh other created new := absurd (next ▸ created) (Nat.not_lt.mpr new)

theorem moves_set {ss : Session}
    (continues : Continues json ⟨own, "userver"⟩ kind (s.store.session sid) ss)
    (processor : ss.processor = (s.store.session sid).processor)
    (opens : Open ss → Open (s.store.session sid)) :
    Moves json own node kind (· = sid) s (s.withStore (s.store.set sid ss)) := by
  have self : (s.withStore (s.store.set sid ss)).store.session sid = ss := by
    simp [Server.withStore]
  apply moves_session
  · intro other different
    simp [Server.withStore, different]
  · rfl
  · rfl
  · rwa [self]
  · rwa [self]
  · rwa [self]

/-- Nothing but the clock or the manager of outgoing connections has changed. -/
theorem moves_quiet (sessions : t.store.session = s.store.session)
    (channels : t.nodeToSession = s.nodeToSession) (next : t.nextSession = s.nextSession) :
    Moves json own node kind (fun _ => False) s t where
  orderly before := before.of_channels channels next.ge fun other => sessions ▸ before.honest other
  next := next.ge
  others sid _ _ := by
    refine ⟨congrFun sessions sid, ?_, waits_congr channels sid⟩
    intro role
    rw [slotOf_congr channels]
  streams sid _ := by rw [sessions]
  processors sid _ := by rw [sessions]
  opens sid _ isOpen := sessions ▸ isOpen
  fresh sid created new := absurd (next ▸ created) (Nat.not_lt.mpr new)

/-! ## The end of a session -/

variable (bye : ∀ reason, kind (.bye reason))

include bye in
theorem moves_gracefullClose (reason : String) :
    (s.store.gracefullClose json ⟨own, "userver"⟩ sid reason).All fun after =>
      Moves json own node kind (fun _ => False) s (s.withStore after) ∧
        ¬ Open (after.session sid) := by
  apply Outcome.all_map.mpr
  apply (Continues.gracefullClose bye reason).mono
  intro ss ⟨continues, closing, processor⟩
  have closed : ¬ Open ((s.store.set sid ss).session sid) := by
    rw [Sessions.set_session, Function.update_self]
    exact fun isOpen => absurd isOpen.staying (by simp [closing])
  refine ⟨Moves.closing ?_ (by rfl) closed, closed⟩
  apply moves_set continues processor
  exact fun isOpen => absurd isOpen.staying (by simp [closing])

theorem slotOf_setRemote (channel : String) (result : Remote × Sessions) (role : Priority) :
    slotOf (s.setRemote channel result) node role =
      if node = channel then result.1.slot role else slotOf s node role := by
  simp only [slotOf, Server.lookup_setRemote]
  split <;> rfl

theorem waits_setRemote (channel : String) (result : Remote × Sessions) (other : SessionId) :
    Waits (s.setRemote channel result) node other ↔
      if node = channel then other ∈ result.1.sessionWaitForRemote else Waits s node other := by
  simp only [Waits, Server.lookup_setRemote]
  split <;> simp

/-- A call on a channel that leaves its queues empty and all open sessions but one as they were. -/
theorem moves_setRemote {channel : String} {remote changed : Remote} {store : Sessions}
    (moves : Moves json own node kind touched s (s.withStore store))
    (slots : node = channel → ∀ role, slotOf s node role = remote.slot role)
    (waits : node = channel → ∀ other, Waits s node other ↔ other ∈ remote.sessionWaitForRemote)
    (queues : node = channel → Orderly json own node kind s →
      changed.outHighQueue = [] ∧ changed.outLowQueue = [])
    (kept : ∀ other, ¬ touched other → Open (store.session other) →
      (∀ role, changed.slot role = some other ↔ remote.slot role = some other) ∧
        (other ∈ changed.sessionWaitForRemote ↔ other ∈ remote.sessionWaitForRemote))
    (created : ∀ other, changed.Holds other → remote.Holds other ∨ other < s.nextSession) :
    Moves json own node kind touched s (s.setRemote channel (changed, store)) where
  orderly before := by
    have stored := moves.orderly before
    -- the channel holds no session that does not exist
    have known : node = channel → ∀ other, changed.Holds other → other < s.nextSession := by
      intro same other held
      rcases created other held with (waiting | ⟨role, taken⟩) | new
      · exact before.waiting other ((waits same other).mpr waiting)
      · exact before.roles role other (slots same role ▸ taken)
      · exact new
    refine ⟨stored.honest, ?_, ?_, ?_⟩
    · intro other registered
      rw [Server.lookup_setRemote] at registered
      -- this is the channel to the node, or another one that does not matter
      split at registered
      next same =>
        cases registered
        exact queues same before
      next => exact before.empty other registered
    · intro other waiting
      rw [waits_setRemote] at waiting
      split at waiting
      next same => exact known same other (.inl waiting)
      next => exact before.waiting other waiting
    · intro role other taken
      rw [slotOf_setRemote] at taken
      split at taken
      next same => exact known same other (.inr ⟨role, taken⟩)
      next => exact before.roles role other taken
  next := moves.next
  others other apart isOpen := by
    have same := (moves.others other apart isOpen).session
    obtain ⟨roles, waiting⟩ := kept other apart isOpen
    refine ⟨same, ?_, ?_⟩
    · intro role
      rw [slotOf_setRemote]
      split
      next channel => rw [slots channel, roles]
      next => exact Iff.rfl
    · rw [waits_setRemote]
      split
      next channel => rw [waits channel, waiting]
      next => exact Iff.rfl
  streams := moves.streams
  processors := moves.processors
  opens := moves.opens
  fresh := moves.fresh

/-- What the server says about a registered channel. -/
theorem channel_registered {remote : Remote} (registered : s.nodeToSession.lookup node = some remote) :
    (∀ role, slotOf s node role = remote.slot role) ∧
      ∀ other, Waits s node other ↔ other ∈ remote.sessionWaitForRemote := by
  constructor
  · intro role
    simp [slotOf, registered]
  · intro other
    simp [Waits, registered]

/-- The place of the other sessions in a channel does not depend on the one that is closed. -/
theorem moves_onClosed (closed : ¬ Open (s.store.session sid)) (slot : ClosedSlot) :
    Moves json own node kind (fun _ => False) s (s.onClosed sid slot) := by
  cases slot with
  | registry => exact moves_quiet rfl rfl rfl
  | host name => exact moves_quiet rfl rfl rfl
  | remote channel =>
    simp only [Server.onClosed]
    cases registered : s.nodeToSession.lookup channel with
    | none => exact moves_quiet rfl rfl rfl
    | some remote =>
      -- the channel forgets the session that is closed and nothing else
      apply @moves_setRemote json own node kind _ s channel remote _ s.store (moves_quiet rfl rfl rfl)
      · rintro rfl
        exact (channel_registered registered).1
      · rintro rfl
        exact (channel_registered registered).2
      · rintro rfl before
        exact before.empty remote registered
      · intro other _ isOpen
        have apart : other ≠ sid := by
          rintro rfl
          exact closed isOpen
        refine ⟨?_, by simp [Remote.onSessionClosed, Remote.forget, apart]⟩
        intro role
        rw [Remote.slot_onSessionClosed]
        split
        next held => simp [held, Ne.symm apart]
        next => exact Iff.rfl
      · exact fun other held => .inl (Remote.holds_onSessionClosed held)

theorem store_onClosed (s : Server) (sid : SessionId) (slot : ClosedSlot) :
    (s.onClosed sid slot).store = s.store := by
  cases slot with
  | registry => rfl
  | host name => rfl
  | remote channel =>
    simp only [Server.onClosed]
    cases s.nodeToSession.lookup channel <;> rfl

theorem moves_emitClosed (closed : ¬ Open (s.store.session sid)) :
    Moves json own node kind (fun _ => False) s (s.emitClosed sid) ∧
      (s.emitClosed sid).store = s.store := by
  unfold Server.emitClosed
  -- the list of slots does not change while they run
  generalize (s.store.session sid).closedSlots = slots
  induction slots generalizing s with
  | nil => exact ⟨moves_quiet rfl rfl rfl, rfl⟩
  | cons slot slots inductionHypothesis =>
    have store := store_onClosed s sid slot
    obtain ⟨moves, same⟩ := @inductionHypothesis (s.onClosed sid slot) (by rw [store]; exact closed)
    exact ⟨(moves_onClosed closed slot).trans moves, same.trans store⟩

theorem moves_stop : Moves json own node kind (fun _ => False) s (s.stop sid) ∧
    ¬ Open ((s.stop sid).store.session sid) := by
  unfold Server.stop
  dsimp only
  split
  next stopped =>
    refine ⟨moves_quiet rfl rfl rfl, fun isOpen => ?_⟩
    rw [isOpen.running] at stopped
    cases stopped
  next =>
    have closed : ¬ Open ((s.withStore (s.store.set sid (s.store.session sid).stop)).store.session sid) := by
      intro isOpen
      have running := isOpen.running
      simp [Server.withStore, Session.stop] at running
    have set := @moves_set json own node kind s sid (s.store.session sid).stop
      (.of_same rfl fun _ member => member) rfl
      (fun isOpen => absurd isOpen.running (by simp [Session.stop]))
    obtain ⟨moves, store⟩ := @moves_emitClosed json own node kind _ sid closed
    exact ⟨(set.closing rfl closed).trans moves, by rw [store]; exact closed⟩

/-! ## Sessions that start and sessions that write -/

/-- What a handler has done to a session that it has worked on and that is open: it has created or
started it, or a write of it has completed. -/
inductive Worked (json : JsonCodec) (own : String) (pid : Nat) (s t : Server) (sid : SessionId) : Prop
  | created (new : s.nextSession ≤ sid) (unknown : (t.store.session sid).msg1 = none)
      (idle : (t.store.session sid).reading ≠ .pending) (script : Script (t.store.session sid) [])
  | accepted (new : s.nextSession ≤ sid) (unknown : (t.store.session sid).msg1 = none)
      (connected : (t.store.session sid).connecting = false) {auth : List Char}
      (encoded : (Notice.auth pid).text json ⟨own, "userver"⟩ = some auth)
      (script : Script (t.store.session sid) [auth])
  | started (old : sid < s.nextSession) (connecting : (s.store.session sid).connecting = true)
      (unknown : (t.store.session sid).msg1 = (s.store.session sid).msg1)
      (connected : (t.store.session sid).connecting = false) {auth : List Char}
      (encoded : (Notice.auth pid).text json ⟨own, "userver"⟩ = some auth)
      (script : ∀ texts, Script (s.store.session sid) texts → Script (t.store.session sid) (texts ++ [auth]))
  | written (old : sid < s.nextSession)
      (endpoint : (t.store.session sid).toEndpoint = (s.store.session sid).toEndpoint)
      (script : ∀ texts, Script (s.store.session sid) texts → Script (t.store.session sid) texts)

/-- A handler that leaves the channels to their closing sessions. -/
structure Handles (json : JsonCodec) (own node : String) (kind : Notice → Prop) (pid : Nat)
    (s t : Server) : Prop where
  moves : ∃ touched, Moves json own node kind touched s t ∧
    ∀ sid, touched sid → sid < t.nextSession → Open (t.store.session sid) →
      t.nodeToSession = s.nodeToSession ∧ Worked json own pid s t sid

variable {pid : Nat}

theorem Handles.of_moves (moves : Moves json own node kind (fun _ => False) s t) :
    Handles json own node kind pid s t :=
  ⟨_, moves, fun _ impossible => impossible.elim⟩

/-- A handler that works on one session and on no channel. -/
theorem Handles.of_session (moves : Moves json own node kind (· = sid) s t)
    (channels : t.nodeToSession = s.nodeToSession) (next : t.nextSession = s.nextSession)
    (worked : sid < s.nextSession → Open (t.store.session sid) → Worked json own pid s t sid) :
    Handles json own node kind pid s t := by
  refine ⟨_, moves, ?_⟩
  rintro other rfl created isOpen
  exact ⟨channels, worked (next ▸ created) isOpen⟩

theorem start_eq (lawful : json.Lawful) (config : UConfig) (ss : Session) (now id : Nat) :
    ∃ queued, ss.start json config pid now id = .done (ss.enqueue now queued).doRead ∧
      (Notice.auth pid).text json config = some queued.rawmsg ∧ queued.expired now = false := by
  obtain ⟨queued, built, encoded, young⟩ :=
    @ofMsg_notice json config lawful (.auth pid) (fun _ => nofun) now id
  have built : QueuedMsg.ofMsg json now id (Session.authMsg config pid) = some queued := built
  exact ⟨queued, by simp [Session.start, Session.putOutQueue, built], encoded, young⟩

/-- `start()` puts the authentication into the queue. -/
theorem moves_start (lawful : json.Lawful) (auth : ∀ pid, kind (.auth pid)) :
    ∃ after, s.store.start json ⟨own, "userver"⟩ pid sid = .done after ∧
      Moves json own node kind (· = sid) s (s.withStore after) ∧
      (after.session sid).msg1 = (s.store.session sid).msg1 ∧
      (after.session sid).connecting = (s.store.session sid).connecting ∧
      ∃ text, (Notice.auth pid).text json ⟨own, "userver"⟩ = some text ∧
        (Open (after.session sid) → ∀ texts, Script (s.store.session sid) texts →
          Script (after.session sid) (texts ++ [text])) := by
  obtain ⟨queued, started, encoded, young⟩ :=
    @start_eq json pid lawful ⟨own, "userver"⟩ (s.store.session sid) s.store.now s.store.nextMsg
  generalize begun : { s.store.set sid ((s.store.session sid).enqueue s.store.now queued).doRead with
    nextMsg := s.store.nextMsg + 1 } = after
  have self : after.session sid = ((s.store.session sid).enqueue s.store.now queued).doRead := by
    simp [← begun]
  have opens : Open (after.session sid) → Open (s.store.session sid) := by
    rw [self]
    rintro ⟨running, staying, complete⟩
    exact (open_enqueue young).mp ⟨running, staying, complete⟩
  refine ⟨after, ?_, ?_, ?_, ?_, queued.rawmsg, encoded, ?_⟩
  · rw [Sessions.start, started, ← begun]
    rfl
  · have enqueued : Continues json ⟨own, "userver"⟩ kind (s.store.session sid)
        ((s.store.session sid).enqueue s.store.now queued) := .enqueue (auth pid) encoded _
    apply moves_session
    · intro other different
      simp [← begun, Server.withStore, different]
    · rfl
    · rfl
    · simp only [Server.withStore, self]
      exact enqueued.trans (.of_same rfl fun _ member => member)
    · simp [Server.withStore, self, Session.doRead]
    · exact opens
  · simp [self, Session.doRead]
  · simp [self, Session.doRead]
  · intro isOpen texts script
    rw [self]
    exact script_enqueue (opens isOpen) script young

/-- The sessions that `createSession` and the loop of `connectResolved` add. -/
structure Creates (json : JsonCodec) (own node : String) (kind : Notice → Prop) (s t : Server) :
    Prop where
  moves : Moves json own node kind (s.nextSession ≤ ·) s t
  channels : t.nodeToSession = s.nodeToSession
  old : ∀ sid < s.nextSession, t.store.session sid = s.store.session sid
  new : ∀ sid < t.nextSession, s.nextSession ≤ sid → (t.store.session sid).msg1 = none ∧
    (t.store.session sid).reading = .idle ∧ Script (t.store.session sid) [] ∧ Open (t.store.session sid)

theorem creates_createSession (direction : Direction) (remoteIp : String) :
    Creates json own node kind s (s.createSession direction remoteIp) := by
  generalize created : s.createSession direction remoteIp = t
  have others : ∀ sid, sid ≠ s.nextSession → t.store.session sid = s.store.session sid := by
    intro sid different
    simp [← created, Server.createSession, Server.onSessionCreated, Sessions.connectClosed, different]
  have new : t.store.session s.nextSession =
      { Session.new direction remoteIp with closedSlots := [.registry] } := by
    simp [← created, Server.createSession, Server.onSessionCreated, Sessions.connectClosed, Session.new]
  have channels : t.nodeToSession = s.nodeToSession := by rw [← created]; rfl
  have next : t.nextSession = s.nextSession + 1 := by rw [← created]; rfl
  have last : ∀ sid < t.nextSession, s.nextSession ≤ sid → sid = s.nextSession := by
    intro sid below above
    rw [next] at below
    exact Nat.le_antisymm (Nat.le_of_lt_succ below) above
  have old : ∀ sid < s.nextSession, t.store.session sid = s.store.session sid :=
    fun sid below => others sid (Nat.ne_of_lt below)
  refine ⟨⟨?_, next ▸ Nat.le_succ _, ?_, ?_, ?_, ?_, ?_⟩, channels, old, ?_⟩
  · intro before
    apply before.of_channels channels (next ▸ Nat.le_succ _)
    intro sid
    by_cases same : sid = s.nextSession
    · subst same
      rw [new]
      exact ⟨fun _ absent => absurd absent List.not_mem_nil, fun _ absent => absurd absent List.not_mem_nil⟩
    · exact others sid same ▸ before.honest sid
  · intro sid apart _
    refine ⟨old sid (Nat.lt_of_not_le apart), ?_, waits_congr channels sid⟩
    intro role
    rw [slotOf_congr channels]
  · exact fun sid below => by rw [old sid below]
  · exact fun sid below => by rw [old sid below]
  · exact fun sid below isOpen => old sid below ▸ isOpen
  · intro sid below above
    refine ⟨above, ?_⟩
    rw [last sid below above, new]
    rfl
  · intro sid below above
    rw [last sid below above, new]
    exact ⟨rfl, rfl, .inl ⟨rfl, rfl⟩, rfl, rfl, rfl⟩

theorem Creates.trans (first : Creates json own node kind s t) (second : Creates json own node kind t u) :
    Creates json own node kind s u where
  moves := first.moves.trans (second.moves.mono fun _ => first.moves.next.trans)
  channels := second.channels.trans first.channels
  old sid below :=
    (second.old sid (Nat.lt_of_lt_of_le below first.moves.next)).trans (first.old sid below)
  new sid below above := by
    by_cases earlier : sid < t.nextSession
    · rw [second.old sid earlier]
      exact first.new sid earlier above
    · exact second.new sid below (Nat.le_of_not_lt earlier)

theorem creates_nothing (outman : OutgoingManager) : Creates json own node kind s { s with outman } := by
  refine ⟨(@moves_quiet json own node kind s { s with outman } rfl rfl rfl).widen, rfl,
    fun _ _ => rfl, ?_⟩
  exact fun sid below above => absurd below (Nat.not_lt.mpr above)

theorem creates_createOutgoing (hname ip : String) (sessionsToCreate : Nat) :
    Creates json own node kind s (Server.createOutgoing hname ip sessionsToCreate s) := by
  induction sessionsToCreate generalizing s with
  | zero => exact creates_nothing s.outman
  | succ sessionsToCreate inductionHypothesis =>
    refine Creates.trans ?_ inductionHypothesis
    have created := @creates_createSession json own node kind s .outgoing ip
    generalize s.createSession .outgoing ip = t at created
    generalize connecting : t.withStore ((t.store.connectClosed s.nextSession (.host hname)).set
      s.nextSession ((t.store.connectClosed s.nextSession (.host hname)).session
        s.nextSession).startConnection) = u
    -- `startConnection` works on the session that has just been created
    have others : ∀ sid, sid ≠ s.nextSession → u.store.session sid = t.store.session sid := by
      intro sid different
      simp [← connecting, Server.withStore, Sessions.connectClosed, different]
    have self : u.store.session s.nextSession = { t.store.session s.nextSession with
        closedSlots := (t.store.session s.nextSession).closedSlots ++ [.host hname]
        connecting := true } := by
      simp [← connecting, Server.withStore, Sessions.connectClosed, Session.startConnection]
    have next : u.nextSession = t.nextSession := by rw [← connecting]; rfl
    have channels : u.nodeToSession = t.nodeToSession := by rw [← connecting]; rfl
    have moves : Moves json own node kind (· = s.nextSession) t u := by
      apply moves_session others channels next
      · rw [self]
        exact .of_same rfl fun _ member => member
      · rw [self]
      · rw [self]
        exact fun isOpen => ⟨isOpen.running, isOpen.staying, isOpen.complete⟩
    refine ⟨created.moves.trans (moves.mono fun sid same => same.ge), channels.trans created.channels,
      ?_, ?_⟩
    · intro sid below
      rw [others sid (Nat.ne_of_lt below), created.old sid below]
    · intro sid below above
      have before := created.new sid (next ▸ below) above
      by_cases same : sid = s.nextSession
      · subst same
        obtain ⟨unknown, idle, script, isOpen⟩ := before
        rw [self]
        exact ⟨unknown, idle, script, isOpen.running, isOpen.staying, isOpen.complete⟩
      · rwa [others sid same]

theorem creates_connectResolved (hname : String) (answer : Option String) :
    Creates json own node kind s (s.connectResolved hname answer) := by
  unfold Server.connectResolved
  cases answer with
  | none => exact creates_nothing _
  | some ip =>
    dsimp only
    split
    · exact (creates_nothing _).trans (creates_createOutgoing hname ip _)
    · exact creates_nothing _

theorem Creates.handles (creates : Creates json own node kind s t) :
    Handles json own node kind pid s t := by
  refine ⟨_, creates.moves, ?_⟩
  intro sid above below _
  obtain ⟨unknown, idle, script, _⟩ := creates.new sid below above
  exact ⟨creates.channels, .created above unknown (by simp [idle]) script⟩

theorem handles_connectHandler (lawful : json.Lawful) (auth : ∀ pid, kind (.auth pid)) {ok : Bool}
    {outcome : Outcome Server}
    (connected : s.connectHandler json ⟨own, "userver"⟩ pid sid ok = some outcome)
    (returned : Server.returned outcome = some t) : Handles json own node kind pid s t := by
  simp only [Server.connectHandler] at connected
  split at connected
  · cases connected
  next enabled =>
  have set := @moves_set json own node kind s sid { s.store.session sid with connecting := false }
    (.of_same rfl fun _ member => member) rfl
    fun isOpen => ⟨isOpen.running, isOpen.staying, isOpen.complete⟩
  have self : ((s.withStore (s.store.set sid { s.store.session sid with connecting := false })).store.session
      sid) = { s.store.session sid with connecting := false } := by
    simp [Server.withStore]
  split at connected
  next =>
    cases connected
    obtain ⟨after, started, moves, msg1, stays, text, encoded, script⟩ :=
      @moves_start json own node kind
        (s.withStore (s.store.set sid { s.store.session sid with connecting := false })) sid pid lawful auth
    rw [started] at returned
    cases returned
    rw [self] at msg1 stays script
    refine Handles.of_session (set.trans moves) rfl rfl ?_
    intro created isOpen
    refine .started created (And.left (by simpa using enabled)) msg1 stays encoded ?_
    exact fun texts before => script isOpen texts before
  next =>
    cases connected
    cases returned
    -- the connection has failed
    obtain ⟨moves, closed⟩ := @moves_stop json own node kind
      (s.withStore (s.store.set sid { s.store.session sid with connecting := false })) sid
    exact .of_moves ((set.trans (moves.widen)).closing moves.next_eq closed)

theorem handles_readFailed : Handles json own node kind pid s (s.readFailed sid) := by
  have set := @moves_set json own node kind s sid { s.store.session sid with reading := .idle }
    (.of_same rfl fun _ member => member) rfl
    fun isOpen => ⟨isOpen.running, isOpen.staying, isOpen.complete⟩
  obtain ⟨moves, closed⟩ := @moves_stop json own node kind
    (s.withStore (s.store.set sid { s.store.session sid with reading := .idle })) sid
  exact .of_moves ((set.trans (moves.widen)).closing moves.next_eq closed)

include bye in
theorem handles_written {i : Nat} {ok : Bool} {outcome : Outcome Server}
    (completed : s.onWrite json ⟨own, "userver"⟩ sid i ok = some outcome)
    (returned : Server.returned outcome = some t) : Handles json own node kind pid s t := by
  obtain ⟨ss, written, answered, effect⟩ := Server.onWrite_returned completed returned
  have continues := (Continues.onWrite bye answered).of_final rfl
  have endpoint : ss.processor = (s.store.session sid).processor := by
    rcases Session.onWrite_cases answered with ⟨_, _, _, same⟩ | ⟨_, _, stopped⟩
    · have kept := Session.onWritten_keeps json ⟨own, "userver"⟩ s.store.now
        { s.store.session sid with writes := (s.store.session sid).writes.eraseIdx i }
      rw [← same] at kept
      exact congrArg Endpoint.processor kept.1
    · cases stopped
      rfl
  have self : ({ s.store.set sid ss with written } : Sessions).session sid = ss := by simp
  have moves : Moves json own node kind (· = sid) s
      (s.withStore { s.store.set sid ss with written }) := by
    apply moves_session
    · intro other different
      simp [Server.withStore, different]
    · rfl
    · rfl
    · simpa only [Server.withStore, self] using continues
    · simpa only [Server.withStore, self] using endpoint
    · simp only [Server.withStore, self]
      exact fun isOpen => (onWrite_open answered rfl isOpen).1
  rcases effect with ⟨_, stops, rfl⟩ | ⟨_, rfl⟩
  -- the completion has failed or was that of a bye
  · have closed : ¬ Open ((s.withStore { s.store.set sid ss with written }).store.session sid) := by
      simp only [Server.withStore, self]
      exact fun isOpen => absurd stops (by simp [isOpen.running])
    exact .of_moves ((moves.closing rfl closed).trans (moves_emitClosed closed).1)
  · refine Handles.of_session moves rfl rfl ?_
    simp only [Server.withStore, self]
    intro created isOpen
    obtain ⟨_, same, script⟩ := onWrite_open answered rfl isOpen
    refine .written created ?_ ?_
    · simpa using same
    · simpa using script


/-- The handlers of a server that no byte of the other one reaches. -/
theorem handles_alone (lawful : json.Lawful) (auth : ∀ pid, kind (.auth pid))
    (bye : ∀ reason, kind (.bye reason)) {name : Side → String} {pid : Side → Nat} {side : Side}
    {e : ServerEvent} (next : Net.stepAlone json name pid side s e = some t) :
    Handles json (name side) node kind (pid side) s t := by
  have manager : ∀ {e : ManagerEvent}, s.managerStep e = some t →
      Handles json (name side) node kind (pid side) s t := by
    intro e next
    obtain ⟨manager, _, rfl⟩ := Option.map_eq_some_iff.mp next
    exact .of_moves (moves_quiet rfl rfl rfl)
  cases e with
  | accept raddr => cases next
  | received sid header body => cases next
  | readAgain sid processor => cases next
  | tick elapsed =>
    cases next
    exact .of_moves (moves_quiet rfl rfl rfl)
  | fire => exact manager next
  | onTimer i => exact manager next
  | pokeTask => exact manager next
  | resolved i answer =>
    obtain ⟨hname, _, rfl⟩ := Option.map_eq_some_iff.mp next
    exact ((creates_nothing _).trans (creates_connectResolved hname answer)).handles
  | connectHandler sid ok =>
    obtain ⟨outcome, connected, returned⟩ := Option.bind_eq_some_iff.mp next
    exact handles_connectHandler lawful auth connected returned
  | readFailed sid =>
    simp only [Net.stepAlone, Server.step] at next
    split at next
    · cases next
    · cases next
      exact handles_readFailed
  | written sid i ok =>
    obtain ⟨outcome, completed, returned⟩ := Option.bind_eq_some_iff.mp next
    exact handles_written bye completed returned

theorem handles_accept (lawful : json.Lawful) (auth : ∀ pid, kind (.auth pid))
    (bye : ∀ reason, kind (.bye reason)) {raddr : String}
    (returned : Server.returned (s.accept json ⟨own, "userver"⟩ pid raddr) = some t) :
    Handles json own node kind pid s t ∧ t.nextSession = s.nextSession + 1 := by
  have creates := @creates_createSession json own node kind s .incoming raddr
  have next : (s.createSession .incoming raddr).nextSession = s.nextSession + 1 := rfl
  have connected : ((s.createSession .incoming raddr).store.session s.nextSession).connecting = false := by
    simp [Server.createSession, Server.onSessionCreated, Sessions.connectClosed, Session.new]
  simp only [Server.accept] at returned
  generalize s.createSession .incoming raddr = u at creates next connected returned
  have last : ∀ sid < u.nextSession, s.nextSession ≤ sid → sid = s.nextSession := by
    intro sid below above
    rw [next] at below
    exact Nat.le_antisymm (Nat.le_of_lt_succ below) above
  obtain ⟨unknown, _, script, _⟩ := creates.new s.nextSession (next ▸ Nat.lt_succ_self _) (Nat.le_refl _)
  split at returned
  next =>
    -- one connection too many: it is closed before anything is read
    have closes := @moves_gracefullClose json own node kind u s.nextSession bye
      "connection refused: too many connections"
    cases outcome : u.store.gracefullClose json ⟨own, "userver"⟩ s.nextSession
        "connection refused: too many connections" with
    | raised store => simp [outcome, Server.returned] at returned
    | hung => simp [outcome, Server.returned] at returned
    | done store =>
      rw [outcome] at closes
      simp only [outcome, Outcome.map_done, Server.returned, Option.some.injEq] at returned
      subst returned
      refine ⟨⟨_, creates.moves.trans (closes.1.widen), ?_⟩, next⟩
      intro sid above below isOpen
      rw [last sid below above] at isOpen
      exact absurd isOpen closes.2
  next =>
    obtain ⟨after, started, moves, msg1, stays, text, encoded, written⟩ :=
      @moves_start json own node kind u s.nextSession pid lawful auth
    simp only [started, Outcome.map_done, Server.returned, Option.some.injEq] at returned
    subst returned
    refine ⟨⟨_, creates.moves.trans (moves.mono fun sid same => same.ge), ?_⟩, next⟩
    intro sid above below isOpen
    obtain rfl := last sid below above
    exact ⟨creates.channels, .accepted (Nat.le_refl _) (msg1.trans unknown) (stays.trans connected) encoded
      (written isOpen [] script)⟩

end OneServer

end Uzel.Verified.Handlers
