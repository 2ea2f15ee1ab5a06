import Uzel.Verified.RoleAssignment

/-! # Both ends of a connection agree on its role

The boss gives a connection its role when it is authenticated, the other server when the priority
message arrives.  In between the two disagree; `priority_agreement` says that they agree on every
connection that has nothing more to say.

The proof follows one connection through the phases of its two ends, which meet in the stream between
them: as long as the session of the boss is open, what is read at the other end is a part of what it
has put into its queue.
-/

namespace Uzel.Verified.PriorityAgreement

open Foundation Protocol Handlers RoleAssignment

/-- One end of a connection is authenticated and open, with nothing left to write and nothing under
way to it. -/
structure Settled (net : Net) (side : Side) (sid : SessionId) : Prop where
  authenticated : (net.session side sid).authenticated = true
  isOpen : Open (net.session side sid)
  queue : (net.session side sid).outQueue = []
  wire : net.inFlight side sid = []

instance (net : Net) (side : Side) (sid : SessionId) : Decidable (Settled net side sid) :=
  decidable_of_iff ((net.session side sid).authenticated = true ∧ Open (net.session side sid) ∧
      (net.session side sid).outQueue = [] ∧ net.inFlight side sid = [])
    ⟨fun ⟨authenticated, isOpen, queue, wire⟩ => ⟨authenticated, isOpen, queue, wire⟩,
      fun settled => ⟨settled.authenticated, settled.isOpen, settled.queue, settled.wire⟩⟩

/-- The two ends of every settled connection have the same role, and the lower one does not wait for
it any more. -/
def Agreement (name : Side → String) (net : Net) : Prop :=
  ∀ a b, net.peer .lower a = some b → Settled net .lower a → Settled net .boss b →
    (∀ role, slotOf (net.server .boss) (name .lower) role = some b ↔
      slotOf (net.server .lower) (name .boss) role = some a) ∧
    ¬ Waits (net.server .lower) (name .boss) a

/-! ## The invariant of both ends -/

/-- The notices that a server sends: only the boss announces roles. -/
def KindOf : Side → Notice → Prop
  | .lower, notice => ∀ role, notice ≠ .priority role
  | .boss, _ => True

/-- A connection has two ends, and what has been read at one of them has been sent at the other. -/
structure Wired (net : Net) : Prop where
  peers : ∀ {side sid peer}, net.peer side sid = some peer →
    sid < (net.server side).nextSession ∧ net.peer side.other peer = some sid
  bounds : ∀ side sid, net.consumed side sid ≤ (net.incoming side sid).length

/-- The sessions at both ends of the connections, and the streams between them. -/
structure Joint (json : JsonCodec) (name : Side → String) (pid : Side → Nat) (net : Net) : Prop where
  orderly : ∀ side, Orderly json (name side) (name side.other) (KindOf side) (net.server side)
  peers : ∀ {side sid peer}, net.peer side sid = some peer →
    sid < (net.server side).nextSession ∧ net.peer side.other peer = some sid
  bounds : ∀ side sid, net.consumed side sid ≤ (net.incoming side sid).length
  follows : ∀ side, ∀ sid < (net.server side).nextSession,
    Follows json (net.heard side sid) (net.session side sid).processor
  boss : ∀ sid < (net.server .boss).nextSession, Open (net.session .boss sid) →
    BossPhase json (name .boss) (name .lower) (pid .boss) (net.server .boss) sid
  lower : ∀ sid < (net.server .lower).nextSession, Open (net.session .lower sid) →
    (∀ peer, net.peer .lower sid = some peer → Open (net.session .boss peer)) →
      LowerPhase json (name .boss) (parse json (net.heard .lower sid)).1 (net.server .lower) sid

section TwoServers

variable {json : JsonCodec} {name : Side → String} {pid : Side → Nat} {net after : Net} {side : Side}

theorem Joint.wired (joint : Joint json name pid net) : Wired net := ⟨joint.peers, joint.bounds⟩

/-- A session that does not exist yet has read nothing. -/
theorem Wired.absent (wired : Wired net) {sid : SessionId} (new : (net.server side).nextSession ≤ sid) :
    net.peer side sid = none ∧ net.heard side sid = [] := by
  have alone : net.peer side sid = none := by
    cases connected : net.peer side sid with
    | none => rfl
    | some peer => exact absurd (wired.peers connected).1 (Nat.not_lt.mpr new)
  exact ⟨alone, by simp [Net.heard, Net.incoming, alone]⟩

/-- What arrives at a server does not change while the other one rests. -/
theorem incoming_of_server (peer : after.peer = net.peer)
    (server : after.server side.other = net.server side.other) (sid : SessionId) :
    after.incoming side sid = net.incoming side sid := by
  simp only [Net.incoming, Net.stream, Net.session, peer, server]

/-- When the streams of one server grow, the other has read what it had read before. -/
theorem Wired.heard_of_streams (wired : Wired net) (peer : after.peer = net.peer)
    (consumed : after.consumed side.other = net.consumed side.other)
    (streams : ∀ sid < (net.server side).nextSession,
      (net.session side sid).sent <+: (after.session side sid).sent) (sid : SessionId) :
    net.incoming side.other sid <+: after.incoming side.other sid ∧
      after.heard side.other sid = net.heard side.other sid := by
  -- what is incoming there are the streams of this server
  have grows : net.incoming side.other sid <+: after.incoming side.other sid := by
    rw [Net.incoming, Net.incoming, peer]
    cases connected : net.peer side.other sid with
    | none => exact List.prefix_rfl
    | some peer =>
      have back := (wired.peers connected).2
      rw [Side.other_other] at back
      have created := (wired.peers back).1
      simp only [Net.stream, Side.other_other]
      exact (streams peer created).flatten
  refine ⟨grows, ?_⟩
  obtain ⟨more, same⟩ := grows
  rw [Net.heard, Net.heard, consumed, ← same, List.take_append_of_le_length]
  exact wired.bounds side.other sid

/-- A server whose streams have only grown, while its sessions have read on. -/
structure Advances (json : JsonCodec) (name : Side → String) (side : Side) (net after : Net) : Prop where
  peer : after.peer = net.peer
  server : after.server side.other = net.server side.other
  consumed : after.consumed side.other = net.consumed side.other
  orderly : Orderly json (name side) (name side.other) (KindOf side) (after.server side)
  next : (net.server side).nextSession ≤ (after.server side).nextSession
  streams : ∀ sid < (net.server side).nextSession,
    (net.session side sid).sent <+: (after.session side sid).sent
  opens : ∀ sid < (net.server side).nextSession, Open (after.session side sid) → Open (net.session side sid)
  bounds : ∀ sid, after.consumed side sid ≤ (net.incoming side sid).length
  follows : ∀ sid < (after.server side).nextSession,
    Follows json (after.heard side sid) (after.session side sid).processor

/-- What arrives at the server itself has not changed. -/
theorem Advances.incoming (advances : Advances json name side net after) (sid : SessionId) :
    after.incoming side sid = net.incoming side sid :=
  incoming_of_server advances.peer advances.server sid

/-- What the other server has read so far has not changed. -/
theorem Advances.heard (joint : Joint json name pid net) (advances : Advances json name side net after)
    (sid : SessionId) :
    net.incoming side.other sid <+: after.incoming side.other sid ∧
      after.heard side.other sid = net.heard side.other sid :=
  joint.wired.heard_of_streams advances.peer advances.consumed advances.streams sid

theorem Joint.advance (joint : Joint json name pid net) (advances : Advances json name side net after)
    (boss : side = .boss → ∀ sid < (after.server .boss).nextSession, Open (after.session .boss sid) →
      BossPhase json (name .boss) (name .lower) (pid .boss) (after.server .boss) sid)
    (lower : side = .lower → ∀ sid < (after.server .lower).nextSession, Open (after.session .lower sid) →
      (∀ peer, net.peer .lower sid = some peer → Open (net.session .boss peer)) →
        LowerPhase json (name .boss) (parse json (after.heard .lower sid)).1 (after.server .lower) sid) :
    Joint json name pid after where
  orderly at' := by
    rcases side.eq_or_eq_other at' with rfl | rfl
    · exact advances.orderly
    · rw [advances.server]
      exact joint.orderly side.other
  peers := by
    intro at' sid peer connected
    rw [advances.peer] at connected ⊢
    obtain ⟨created, back⟩ := joint.peers connected
    refine ⟨?_, back⟩
    rcases side.eq_or_eq_other at' with rfl | rfl
    · exact Nat.lt_of_lt_of_le created advances.next
    · rwa [advances.server]
  bounds at' sid := by
    rcases side.eq_or_eq_other at' with rfl | rfl
    · rw [advances.incoming]
      exact advances.bounds sid
    · rw [advances.consumed]
      exact (joint.bounds side.other sid).trans (advances.heard joint sid).1.length_le
  follows at' sid created := by
    rcases side.eq_or_eq_other at' with rfl | rfl
    · exact advances.follows sid created
    · rw [(advances.heard joint sid).2, Net.session, advances.server]
      rw [advances.server] at created
      exact joint.follows side.other sid created
  boss sid created isOpen := by
    cases side with
    | boss => exact boss rfl sid created isOpen
    | lower =>
      have same : after.server .boss = net.server .boss := advances.server
      rw [Net.session, same] at isOpen
      rw [same] at created ⊢
      exact joint.boss sid created isOpen
  lower sid created isOpen alive := by
    rw [advances.peer] at alive
    cases side with
    | lower =>
      have same : after.server .boss = net.server .boss := advances.server
      simp only [Net.session, same] at alive
      exact lower rfl sid created isOpen alive
    -- the boss has moved: its sessions may have been closed, but none is open again
    | boss =>
      have same : after.server .lower = net.server .lower := advances.server
      rw [Net.session, same] at isOpen
      rw [same] at created ⊢
      have heard : after.heard .lower sid = net.heard .lower sid := (advances.heard joint sid).2
      rw [heard]
      refine joint.lower sid created isOpen ?_
      intro peer connected
      have opposite := (joint.peers (joint.peers connected).2).1
      exact advances.opens peer opposite (alive peer connected)

/-! ## The handlers of one server alone -/

theorem setServer_self (server : Server) : (net.setServer side server).server side = server := by
  simp [Net.setServer]

theorem setServer_other (server : Server) :
    (net.setServer side server).server side.other = net.server side.other := by
  simp [Net.setServer]

theorem joint_handles (joint : Joint json name pid net) {t : Server}
    (handles : Handles json (name side) (name side.other) (KindOf side) (pid side) (net.server side) t) :
    Joint json name pid (net.setServer side t) := by
  obtain ⟨touched, moves, _⟩ := handles.moves
  have self : (net.setServer side t).server side = t := setServer_self t
  -- no byte of the other server has been read
  have heard : ∀ sid, (net.setServer side t).heard side sid = net.heard side sid := by
    intro sid
    simp only [Net.heard, Net.incoming, Net.stream, Net.session, setServer_other]
    rfl
  have advances : Advances json name side net (net.setServer side t) := by
    refine ⟨rfl, setServer_other t, rfl, ?_, ?_, ?_, ?_, joint.bounds side, ?_⟩
    · exact self.symm ▸ moves.orderly (joint.orderly side)
    · exact self.symm ▸ moves.next
    · simpa only [Net.session, self] using moves.streams
    · simpa only [Net.session, self] using moves.opens
    · intro sid created
      rw [heard, Net.session, self]
      rw [self] at created
      by_cases old : sid < (net.server side).nextSession
      · rw [moves.processors sid old]
        exact joint.follows side sid old
      -- a new session is at the beginning, like its processor
      · have new := Nat.le_of_not_lt old
        rw [(moves.fresh sid created new).2, (joint.wired.absent new).2]
        exact follows_nil
  apply joint.advance advances
  · rintro rfl sid created isOpen
    rw [self] at created ⊢
    rw [Net.session, self] at isOpen
    exact bossPhase_handles handles (joint.orderly .boss) joint.boss created isOpen
  · rintro rfl sid created isOpen alive
    rw [self] at created ⊢
    rw [Net.session, self] at isOpen
    rw [heard]
    refine lowerPhase_handles handles (joint.orderly .lower) ?_ ?_ created isOpen
    · exact fun old => joint.lower sid old (moves.opens sid old isOpen) alive
    · intro new
      rw [(joint.wired.absent new).2]
      rfl

/-! ## A new connection -/

theorem link_peer_self (new sid : SessionId) :
    (net.link side new sid).peer side = Function.update (net.peer side) new (some sid) := by
  simp [Net.link, Function.update_of_ne side.other_ne.symm]

theorem link_peer_other (new sid : SessionId) :
    (net.link side new sid).peer side.other = Function.update (net.peer side.other) sid (some new) := by
  simp [Net.link]

/-- A new connection changes only the peers of sessions that had none. -/
theorem link_peer {new sid : SessionId} (alone : net.peer side new = none)
    (free : net.peer side.other sid = none) (at' : Side) (x : SessionId) :
    (net.link side new sid).peer at' x = net.peer at' x ∨ net.peer at' x = none := by
  rcases side.eq_or_eq_other at' with rfl | rfl
  · by_cases same : x = new
    · exact .inr (same ▸ alone)
    · exact .inl (by rw [link_peer_self, Function.update_of_ne same])
  · by_cases same : x = sid
    · exact .inr (same ▸ free)
    · exact .inl (by rw [link_peer_other, Function.update_of_ne same])

theorem link_peers (wired : Wired net) {new sid : SessionId}
    (created : new < (net.server side).nextSession) (alone : net.peer side new = none)
    (opened : sid < (net.server side.other).nextSession) (free : net.peer side.other sid = none)
    {at' : Side} {x peer : SessionId} (connected : (net.link side new sid).peer at' x = some peer) :
    x < (net.server at').nextSession ∧ (net.link side new sid).peer at'.other peer = some x := by
  rcases side.eq_or_eq_other at' with rfl | rfl
  · rw [link_peer_self] at connected
    rw [link_peer_other]
    by_cases same : x = new
    · subst same
      rw [Function.update_self, Option.some.injEq] at connected
      exact ⟨created, by rw [← connected, Function.update_self]⟩
    · rw [Function.update_of_ne same] at connected
      obtain ⟨known, back⟩ := wired.peers connected
      have different : peer ≠ sid := by
        rintro rfl
        simp [free] at back
      exact ⟨known, by rwa [Function.update_of_ne different]⟩
  · rw [link_peer_other] at connected
    rw [Side.other_other, link_peer_self]
    by_cases same : x = sid
    · subst same
      rw [Function.update_self, Option.some.injEq] at connected
      exact ⟨opened, by rw [← connected, Function.update_self]⟩
    · rw [Function.update_of_ne same] at connected
      obtain ⟨known, back⟩ := wired.peers connected
      rw [Side.other_other] at back
      have different : peer ≠ new := by
        rintro rfl
        simp [alone] at back
      exact ⟨known, by rwa [Function.update_of_ne different]⟩

/-- A session that was not connected has read nothing, and so it is at the beginning of its stream. -/
theorem link_heard (wired : Wired net) {new sid : SessionId} (alone : net.peer side new = none)
    (free : net.peer side.other sid = none) (at' : Side) (x : SessionId) :
    net.consumed at' x ≤ ((net.link side new sid).incoming at' x).length ∧
      (net.link side new sid).heard at' x = net.heard at' x := by
  have bound := wired.bounds at' x
  rcases link_peer alone free at' x with same | alone
  · simp only [Net.heard, Net.incoming, same] at bound ⊢
    exact ⟨bound, rfl⟩
  · simp only [Net.incoming, alone, List.length_nil, Nat.le_zero] at bound
    have start : (net.link side new sid).consumed at' x = 0 := bound
    simp [Net.heard, bound, start]

theorem wired_link (wired : Wired net) {new sid : SessionId}
    (created : new < (net.server side).nextSession) (alone : net.peer side new = none)
    (opened : sid < (net.server side.other).nextSession) (free : net.peer side.other sid = none) :
    Wired (net.link side new sid) :=
  ⟨link_peers wired created alone opened free, fun at' x => (link_heard wired alone free at' x).1⟩

/-- Two sessions that have not been connected are the ends of a new connection. -/
theorem joint_link (joint : Joint json name pid net) {new sid : SessionId}
    (created : new < (net.server side).nextSession) (alone : net.peer side new = none)
    (opened : sid < (net.server side.other).nextSession) (free : net.peer side.other sid = none) :
    Joint json name pid (net.link side new sid) := by
  have linked := wired_link joint.wired created alone opened free
  have heard := fun at' x => (link_heard joint.wired alone free at' x).2
  refine ⟨joint.orderly, linked.peers, linked.bounds, ?_, joint.boss, ?_⟩
  · intro at' x known
    rw [heard at' x]
    exact joint.follows at' x known
  · intro x known isOpen alive
    rw [heard .lower x]
    refine joint.lower x known isOpen ?_
    intro peer connected
    rcases link_peer alone free .lower x with same | alone
    · exact alive peer (same.trans connected)
    · rw [alone] at connected
      cases connected

/-! ## A block of input -/

/-- What a session has heard after a block that was under way to it. -/
theorem heard_read {sid : SessionId} {t : Server} {length : Nat} (read : Net)
    (isRead : read = (net.setServer side t).consume side sid ((net.inFlight side sid).take length).length) :
    read.heard side sid = net.heard side sid ++ (net.inFlight side sid).take length ∧
      ∀ other ≠ sid, read.heard side other = net.heard side other := by
  have arrived : ∀ other, read.incoming side other = net.incoming side other := by
    intro other
    simp only [isRead, Net.incoming, Net.stream, Net.session]
    simp only [Net.consume, setServer_other]
    rfl
  constructor
  · have more : read.consumed side sid =
        net.consumed side sid + ((net.inFlight side sid).take length).length := by
      simp [isRead, Net.consume, Net.setServer]
    rw [Net.heard, arrived, more, List.take_add]
    congr 1
    exact List.take_eq_take_iff.mpr (by simp [Net.inFlight])
  · intro other different
    have same : read.consumed side other = net.consumed side other := by
      simp [isRead, Net.consume, Net.setServer, different]
    rw [Net.heard, arrived, same]
    rfl

theorem consumed_read (wired : Wired net) {sid : SessionId} (t : Server) (length : Nat) (other : SessionId) :
    ((net.setServer side t).consume side sid ((net.inFlight side sid).take length).length).consumed side
      other ≤ (net.incoming side other).length := by
  have bound := wired.bounds side other
  by_cases same : other = sid
  · subst same
    simp [Net.consume, Net.setServer, Net.inFlight]
    omega
  · simpa [Net.consume, Net.setServer, same] using bound

theorem advances_read (joint : Joint json name pid net) {t : Server} {sid : SessionId} {length : Nat}
    (reads : Reads json (name side) (name side.other) (KindOf side)
      (net.heard side sid ++ (net.inFlight side sid).take length) sid (net.server side) t) :
    Advances json name side net ((net.setServer side t).consume side sid
      ((net.inFlight side sid).take length).length) := by
  have self : ((net.setServer side t).consume side sid
      ((net.inFlight side sid).take length).length).server side = t := setServer_self t
  refine ⟨rfl, setServer_other t, ?_, ?_, ?_, ?_, ?_, ?_, ?_⟩
  · simp [Net.consume, Net.setServer]
  · exact self.symm ▸ reads.orderly (joint.orderly side)
  · exact self.symm ▸ reads.next.ge
  · simpa only [Net.session, self] using reads.streams
  · simpa only [Net.session, self] using reads.opens
  · exact consumed_read joint.wired t length
  · obtain ⟨further, elsewhere⟩ := heard_read _ (Eq.refl ((net.setServer side t).consume side sid
      ((net.inFlight side sid).take length).length))
    intro other created
    rw [self, reads.next] at created
    rw [Net.session, self]
    by_cases same : other = sid
    · subst same
      rw [further]
      exact reads.follows
    · rw [elsewhere other same, reads.processors other created same]
      exact joint.follows side other created

/-- What a session of the boss has handed to its socket.  While it is open, that is a part of an
authentication and a priority message. -/
theorem boss_notices (joint : Joint json name pid net) {sid : SessionId}
    (created : sid < (net.server .boss).nextSession) :
    ∃ notices, Written json ⟨name .boss, "userver"⟩ notices (net.session .boss sid).sent ∧
      (Open (net.session .boss sid) →
        ∃ role, role ≠ .undefined ∧ notices <+: [.auth (pid .boss), .priority role]) := by
  by_cases isOpen : Open (net.session .boss sid)
  · -- the notices that belong to a part of the script
    have part : ∀ {role notices texts}, role ≠ .undefined →
        notices <+: [.auth (pid .boss), .priority role] →
        Written json ⟨name .boss, "userver"⟩ notices texts → Script (net.session .boss sid) texts →
        ∃ notices, Written json ⟨name .boss, "userver"⟩ notices (net.session .boss sid).sent ∧
          ∃ role, role ≠ .undefined ∧ notices <+: [.auth (pid .boss), .priority role] := by
      intro role notices texts defined isPart encoded script
      have sent := List.prefix_iff_eq_take.mp script.sent_prefix
      have written := List.forall₂_take (net.session .boss sid).sent.length encoded
      rw [← sent] at written
      exact ⟨_, written, role, defined, (List.take_prefix _ _).trans isPart⟩
    have written : ∃ notices, Written json ⟨name .boss, "userver"⟩ notices (net.session .boss sid).sent ∧
        ∃ role, role ≠ .undefined ∧ notices <+: [.auth (pid .boss), .priority role] := by
      cases joint.boss sid created isOpen with
      | idle _ _ _ script => exact @part .high [] [] (by decide) List.nil_prefix .nil script
      | started _ _ _ encoded script =>
        exact @part .high _ _ (by decide) (List.prefix_append [_] _) (.cons encoded .nil) script
      | assigned defined _ _ _ encodedAuth encoded script =>
        exact part defined List.prefix_rfl (.cons encodedAuth (.cons encoded .nil)) script
    obtain ⟨notices, written, isPart⟩ := written
    exact ⟨notices, written, fun _ => isPart⟩
  · obtain ⟨notices, _, written⟩ := ((joint.orderly .boss).honest sid).notices
    exact ⟨notices, written, fun impossible => absurd impossible isOpen⟩

/-- A block is a part of what the other end of the connection has handed to its socket. -/
theorem read_cases (wired : Wired net) {sid : SessionId} {length : Nat}
    (next : net.read json name side sid length = some after) :
    ∃ peer t, net.peer side sid = some peer ∧ peer < (net.server side.other).nextSession ∧
      sid < (net.server side).nextSession ∧
      (net.session side.other peer).sent.flatten = net.heard side sid ++
        (net.inFlight side sid).take length ++ (net.inFlight side sid).drop length ∧
      (net.server side).read json (Net.config name side) sid ((net.inFlight side sid).take length) = some t ∧
      after = (net.setServer side t).consume side sid ((net.inFlight side sid).take length).length := by
  simp only [Net.read] at next
  split at next
  · cases next
  next block =>
    obtain ⟨t, returned, rfl⟩ := Option.map_eq_some_iff.mp next
    cases connected : net.peer side sid with
    | none => simp [Net.inFlight, Net.incoming, connected] at block
    | some peer =>
      obtain ⟨created, back⟩ := wired.peers connected
      refine ⟨peer, t, rfl, (wired.peers back).1, created, ?_, returned, rfl⟩
      rw [List.append_assoc, List.take_append_drop, Net.heard, Net.inFlight, List.take_append_drop,
        Net.incoming, connected]
      rfl

theorem joint_lower_read (lawful : json.Lawful) (order : name .lower < name .boss)
    (joint : Joint json name pid net) {sid : SessionId} {length : Nat}
    (next : net.read json name .lower sid length = some after) : Joint json name pid after := by
  obtain ⟨peer, t, connected, opposite, created, stream, returned, rfl⟩ := read_cases joint.wired next
  obtain ⟨further, elsewhere⟩ := heard_read _ (Eq.refl ((net.setServer .lower t).consume .lower sid
    ((net.inFlight .lower sid).take length).length))
  have self : ((net.setServer .lower t).consume .lower sid
      ((net.inFlight .lower sid).take length).length).server .lower = t := @setServer_self net .lower t
  obtain ⟨notices, written, announces⟩ := boss_notices joint opposite
  -- the phase is known while the session at the other end is open
  have before : Open (net.session .boss peer) → Open (net.session .lower sid) →
      LowerPhase json (name .boss) (parse json (net.heard .lower sid)).1 (net.server .lower) sid := by
    intro alive isOpen
    apply joint.lower sid created isOpen
    intro other same
    rw [connected, Option.some.injEq] at same
    exact same ▸ alive
  obtain ⟨reads, later⟩ := @lower_read json (name .lower) (name .boss) (KindOf .lower) (net.server .lower)
    t sid (fun _ _ => nofun) (pid .boss) _ _ _ notices _ lawful order (ne_of_lt order) _ written announces
    stream (joint.follows .lower sid created) before returned
  refine joint.advance (advances_read joint reads) nofun ?_
  intro _ other known isOpen alive
  rw [self] at known ⊢
  rw [Net.session, self] at isOpen
  by_cases same : other = sid
  · subst same
    rw [further]
    exact later (alive peer connected) isOpen
  · rw [elsewhere other same]
    rw [reads.next] at known
    exact (joint.lower other known (reads.opens other known isOpen) alive).of_untouched
      (reads.others other same isOpen)

theorem joint_boss_read (lawful : json.Lawful) (order : name .lower < name .boss)
    (joint : Joint json name pid net) {sid : SessionId} {length : Nat}
    (next : net.read json name .boss sid length = some after) : Joint json name pid after := by
  obtain ⟨peer, t, connected, opposite, created, stream, returned, rfl⟩ := read_cases joint.wired next
  have self : ((net.setServer .boss t).consume .boss sid
      ((net.inFlight .boss sid).take length).length).server .boss = t := @setServer_self net .boss t
  obtain ⟨notices, kinds, written⟩ := ((joint.orderly .lower).honest peer).notices
  obtain ⟨reads, later⟩ := @boss_read json (name .boss) (name .lower) (KindOf .boss) (net.server .boss)
    t sid (fun _ => trivial) (pid .boss) _ _ _ notices _ lawful (lt_asymm order) (ne_of_gt order)
    (fun _ => trivial) (joint.orderly .boss) written kinds stream (joint.follows .boss sid created)
    (joint.boss sid created) returned
  refine joint.advance (advances_read joint reads) ?_ nofun
  intro _ other known isOpen
  rw [self] at known ⊢
  rw [Net.session, self] at isOpen
  by_cases same : other = sid
  · subst same
    exact later isOpen
  · rw [reads.next] at known
    exact (joint.boss other known (reads.opens other known isOpen)).of_untouched
      (reads.others other same isOpen)

/-! ## Runs -/

theorem joint_initial (now : Side → Nat) (remotes : Side → List String) :
    Joint json name pid (.initial name now remotes) where
  orderly _ := ⟨fun _ => ⟨nofun, nofun⟩, nofun, nofun, nofun⟩
  peers := nofun
  bounds _ _ := Nat.le_refl _
  follows _ _ := nofun
  boss _ := nofun
  lower _ := nofun

theorem joint_step (lawful : json.Lawful) (order : name .lower < name .boss)
    (joint : Joint json name pid net) {e : NetEvent} (next : net.step json name pid e = some after) :
    Joint json name pid after := by
  have auth : ∀ side pid, KindOf side (.auth pid) := by
    intro side pid
    cases side with
    | lower => exact fun _ => nofun
    | boss => trivial
  have bye : ∀ side reason, KindOf side (.bye reason) := by
    intro side reason
    cases side with
    | lower => exact fun _ => nofun
    | boss => trivial
  cases e with
  | alone side e =>
    obtain ⟨t, returned, rfl⟩ := Option.map_eq_some_iff.mp next
    exact joint_handles joint (handles_alone lawful (auth side) (bye side) returned)
  | gracefullClose side sid reason =>
    obtain ⟨t, returned, rfl⟩ := Option.map_eq_some_iff.mp next
    have closes := @moves_gracefullClose json (name side) (name side.other) (KindOf side) (net.server side)
      sid (bye side) reason
    obtain ⟨closed, done⟩ := Sessions.gracefullClose_done (Net.config name side) lawful sid reason
      (net.server side).store
    rw [done] at returned
    have done : (net.server side).store.gracefullClose json ⟨name side, "userver"⟩ sid reason =
      .done closed := done
    rw [done] at closes
    cases returned
    exact joint_handles joint (.of_moves closes.1)
  | accept side sid raddr =>
    simp only [Net.step, Net.accept] at next
    split at next
    next opened =>
      obtain ⟨t, returned, rfl⟩ := Option.map_eq_some_iff.mp next
      obtain ⟨handles, count⟩ := @handles_accept json (name side) (name side.other) (KindOf side)
        (net.server side) t (pid side) lawful (auth side) (bye side) raddr returned
      apply joint_link (joint_handles joint handles)
      · rw [setServer_self, count]
        exact Nat.lt_succ_self _
      · exact (joint.wired.absent (Nat.le_refl _)).1
      · rw [setServer_other]
        exact opened.1
      · exact opened.2.2
    next => cases next
  | read side sid length =>
    cases side with
    | lower => exact joint_lower_read lawful order joint next
    | boss => exact joint_boss_read lawful order joint next

theorem joint_runs (lawful : json.Lawful) (order : name .lower < name .boss) (now : Side → Nat)
    (remotes : Side → List String) (events : List NetEvent) :
    Always (Net.step json name pid) (Joint json name pid) (.initial name now remotes) events :=
  always_of_invariant (fun joint next => joint_step lawful order joint next)
    (joint_initial now remotes) events

/-- Nothing is left to say, so the lower end has heard the priority message of the boss. -/
theorem agreement_of_joint (lawful : json.Lawful) (joint : Joint json name pid net) :
    Agreement name net := by
  intro a b connected lower boss
  obtain ⟨created, back⟩ := joint.peers connected
  have opposite := (joint.peers back).1
  have lowerPhase := joint.lower a created lower.isOpen fun peer same => by
    rw [connected, Option.some.injEq] at same
    exact same ▸ boss.isOpen
  have known : (net.session .boss b).msg1 ≠ none := Option.isSome_iff_ne_none.mp boss.authenticated
  cases joint.boss b opposite boss.isOpen with
  | idle unknown => exact absurd unknown known
  | started unknown => exact absurd unknown known
  | @assigned role defined _ _ slots authText text encodedAuth encoded script =>
    -- everything that the boss has said has arrived
    have sent : (net.session .boss b).sent = [authText, text] := script.sent_eq boss.queue
    have arrived : net.heard .lower a = [authText, text].flatten := by
      have wire := lower.wire
      rw [Net.inFlight, List.drop_eq_nil_iff] at wire
      rw [Net.heard, List.take_of_length_le wire, Net.incoming, connected, ← sent]
      rfl
    obtain ⟨frames, parsed, matched⟩ := parse_flatten lawful (.cons encodedAuth (.cons encoded .nil))
    rw [arrived, parsed] at lowerPhase
    cases matched with
    | cons _ matched =>
      cases matched with
      | @cons _ second _ _ isFrame matched =>
        cases matched
        -- two messages have been read, and the second one is the announcement
        cases lowerPhase with
        | silent nothing => cases nothing
        | known one => cases one
        | @assigned _ _ two other defined announced _ lowerSlots out =>
          cases two
          have same : role = other := by
            have bodies := Option.some.inj (isFrame.2.symm.trans announced.2)
            rw [← Priority.ofBody_toBody role, ← Priority.ofBody_toBody other]
            exact congrArg Priority.ofBody bodies
          subst same
          exact ⟨fun role => (slots role).trans (lowerSlots role).symm, out⟩

/-- Two servers that run this code agree on the role of every settled connection, in every state that
they reach together. -/
theorem priority_agreement (lawful : json.Lawful) (order : name .lower < name .boss)
    (now : Side → Nat) (remotes : Side → List String) (events : List NetEvent) :
    Always (Net.step json name pid) (Agreement name) (.initial name now remotes) events :=
  (joint_runs lawful order now remotes events).mono fun _ => agreement_of_joint lawful

end TwoServers

def alphaBeta : Side → String
  | .lower => "alpha"
  | .boss => "beta"

/-- The lower server opens a connection, and both ends write and read what there is. -/
def oneConnection : List NetEvent :=
  [.alone .lower .fire, .alone .lower (.onTimer 0), .alone .lower (.resolved 0 (some "10.0.0.2")),
    .alone .lower (.connectHandler 0 true), .accept .boss 0 "10.0.0.1",
    .alone .lower (.written 0 0 true), .alone .boss (.written 0 0 true), .read .boss 0 1024,
    .alone .boss (.written 0 0 true), .read .lower 0 1024]

/-- The connection of this run is settled in the end, with the high priority at both ends. -/
theorem priority_agreement_one_connection :
    ∃ net, exec (Net.step Json.compactJson alphaBeta fun _ => 7)
        (.initial alphaBeta (fun _ => 0) fun _ => ["beta"]) oneConnection = some net ∧
      net.peer .lower 0 = some 0 ∧ Settled net .lower 0 ∧ Settled net .boss 0 ∧
      slotOf (net.server .boss) "alpha" .high = some 0 ∧
      slotOf (net.server .lower) "beta" .high = some 0 := by
  have reached : (exec (Net.step Json.compactJson alphaBeta fun _ => 7)
      (.initial alphaBeta (fun _ => 0) fun _ => ["beta"]) oneConnection).map (fun net =>
        decide (net.peer .lower 0 = some 0 ∧ Settled net .lower 0 ∧ Settled net .boss 0 ∧
          slotOf (net.server .boss) "alpha" .high = some 0)) = some true := by
    decide +kernel
  obtain ⟨net, executed, decided⟩ := Option.map_eq_some_iff.mp reached
  obtain ⟨connected, lower, boss, role⟩ := of_decide_eq_true decided
  have agreement : Agreement alphaBeta net :=
    (priority_agreement Json.compactJson_lawful (by decide) _ _ oneConnection).last executed
  have roles := (agreement 0 0 connected lower boss).1
  exact ⟨net, executed, connected, lower, boss, role, (roles .high).mp role⟩

end Uzel.Verified.PriorityAgreement
