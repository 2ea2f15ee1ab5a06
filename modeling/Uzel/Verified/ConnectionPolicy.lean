import Uzel.Verified.HostProgress

/-! # What a resolved host needs

`connectResolved` goes through the sessions of the resolved address, in whatever order the set gives
them, and leaves the loop at the first one whose node is connected.  `connectResolved_decides` states
the policy without the loop: by whether there is such a session, and by the numbers of outgoing
sessions and of unauthenticated ones.
-/

namespace Uzel.Verified.ConnectionPolicy

open Foundation HostProgress

/-- `connectResolved` without an error, for a manager whose owner answers with `connectedFn`. -/
def connectResolved (connectedFn : String → Option Bool) (hname ip : String) (s : Server) : Server :=
  let decision := OutgoingManager.decision connectedFn (wantedOf s hname) (sessionsOf s ip)
  let server := { s with outman := s.outman.connectResolved s.store.now hname (some decision) }
  match decision with
  | .create sessionsToCreate => Server.createOutgoing hname ip sessionsToCreate server
  | _ => server

/-- The owner of the manager is the server. -/
theorem connectResolved_server (hname ip : String) (s : Server) :
    s.connectResolved hname (some ip) = connectResolved s.connectedFn hname ip s := rfl

/-- The outgoing sessions of an address. -/
def out (s : Server) (ip : String) : Nat :=
  (s.ipToSession ip).countP fun sid => (s.store.session sid).direction = .outgoing

/-- Those that are not authenticated. -/
def unauth (s : Server) (ip : String) : Nat :=
  (s.ipToSession ip).countP fun sid =>
    (s.store.session sid).direction = .outgoing ∧ (s.store.session sid).authenticated = false

/-- An outgoing session of the address is authenticated by a node that is connected. -/
def Complete (connectedFn : String → Option Bool) (s : Server) (ip : String) : Prop :=
  ∃ sid ∈ s.ipToSession ip, (s.store.session sid).direction = .outgoing ∧
    ∃ node, (s.store.session sid).peerNode = some node ∧ connectedFn node = some true

/-- The number of sessions that an incomplete address still needs. -/
def missing (wanted out unauth : Nat) : Nat :=
  if out < wanted then wanted - out else if 0 < unauth then 0 else 1

/-- The sessions of an address are found in another order. -/
def reorder (ip : String) (order : List SessionId) (s : Server) : Server :=
  { s with ipToSession := Function.update s.ipToSession ip order }

/-! ## The decision -/

theorem countP_sessionsOf (s : Server) (ip : String) :
    (sessionsOf s ip).countP (·.1 = .outgoing) = out s ip := by
  simp only [sessionsOf, out, List.countP_map]
  rfl

theorem countP_unauth (s : Server) (ip : String) :
    (sessionsOf s ip).countP (fun ss => ss.1 = .outgoing ∧ ss.2 = none) = unauth s ip := by
  simp only [sessionsOf, unauth, List.countP_map]
  apply List.countP_congr
  intro sid _
  simp [Session.peerNode, Session.authenticated]

theorem complete_iff {connectedFn : String → Option Bool} {s : Server} {ip : String} :
    (∃ node, (Direction.outgoing, some node) ∈ sessionsOf s ip ∧ connectedFn node = some true) ↔
      Complete connectedFn s ip := by
  constructor
  · rintro ⟨node, member, connected⟩
    obtain ⟨sid, found, same⟩ := List.mem_map.mp member
    obtain ⟨direction, peer⟩ := Prod.mk.inj same
    exact ⟨sid, found, direction, node, peer, connected⟩
  · rintro ⟨sid, found, direction, node, peer, connected⟩
    exact ⟨node, List.mem_map.mpr ⟨sid, found, by rw [direction, peer]⟩, connected⟩

/-- The loop and the branches behind it follow the policy; with nothing to create the answer is to wait. -/
theorem decision_eq (connectedFn : String → Option Bool) (s : Server) (ip : String) {wanted : Nat}
    (positive : 1 ≤ wanted) :
    let decision := OutgoingManager.decision connectedFn wanted (sessionsOf s ip)
    let needed := missing wanted (out s ip) (unauth s ip)
    (Complete connectedFn s ip ∧ decision = .connected) ∨
      (¬ Complete connectedFn s ip ∧ decision = if needed = 0 then .wait else .create needed) := by
  intro decision needed
  have outgoing := countP_sessionsOf s ip
  have unauthenticated := countP_unauth s ip
  have complete := @complete_iff connectedFn s ip
  have decided : decision = OutgoingManager.decision connectedFn wanted (sessionsOf s ip) := rfl
  generalize sessionsOf s ip = found at outgoing unauthenticated complete decided
  cases found with
  | nil =>
    have none_ : ¬ Complete connectedFn s ip := by
      rw [← complete]
      simp
    refine .inr ⟨none_, ?_⟩
    have all : needed = wanted := by
      have zero : out s ip = 0 := outgoing.symm
      simp [needed, missing, zero, Nat.lt_of_lt_of_le Nat.zero_lt_one positive]
    have some_ : wanted ≠ 0 := by omega
    rw [decided, all, if_neg some_]
    rfl
  | cons first rest =>
    generalize isFound : first :: rest = found at *
    have nonempty : found.isEmpty = false := by
      rw [← isFound]
      rfl
    cases counted : OutgoingManager.countSessions connectedFn found 0 0 with
    | none =>
      have isConnected : decision = .connected := by
        simp [decided, OutgoingManager.decision, nonempty, counted]
      exact .inl ⟨complete.mp (OutgoingManager.countSessions_none.mp counted), isConnected⟩
    | some counts =>
      obtain ⟨sessions, unauthsessions⟩ := counts
      have isDecided : decision = if wanted ≤ sessions then
          if 0 < unauthsessions then .wait else .create 1
        else .create (wanted - sessions) := by
        simp [decided, OutgoingManager.decision, nonempty, counted]
      obtain ⟨isOut, isUnauth⟩ := OutgoingManager.countSessions_eq counted
      have incomplete : ¬ Complete connectedFn s ip := by
        rw [← complete, ← @OutgoingManager.countSessions_none connectedFn found 0 0, counted]
        exact Option.some_ne_none _
      rw [Nat.zero_add, outgoing] at isOut
      rw [Nat.zero_add, unauthenticated] at isUnauth
      subst isOut isUnauth
      refine .inr ⟨incomplete, ?_⟩
      rw [isDecided]
      simp only [needed, missing]
      by_cases enough : wanted ≤ out s ip
      · by_cases waits : 0 < unauth s ip
        · simp [enough, waits, Nat.not_lt.mpr enough]
        · simp [enough, waits, Nat.not_lt.mpr enough]
      · have fewer : out s ip < wanted := Nat.lt_of_not_le enough
        have some_ : wanted - out s ip ≠ 0 := by omega
        simp [enough, fewer, some_]

/-! ## The order of the sessions -/

section Order

variable {connectedFn : String → Option Bool} {s : Server} {ip : String} {order : List SessionId}

@[simp] theorem reorder_ipToSession : (reorder ip order s).ipToSession ip = order := by
  simp [reorder]

@[simp] theorem reorder_store : (reorder ip order s).store = s.store := rfl

theorem complete_reorder (perm : order.Perm (s.ipToSession ip)) :
    Complete connectedFn (reorder ip order s) ip ↔ Complete connectedFn s ip := by
  simp only [Complete, reorder_ipToSession, reorder_store, perm.mem_iff]

theorem missing_reorder (perm : order.Perm (s.ipToSession ip)) (wanted : Nat) :
    missing wanted (out (reorder ip order s) ip) (unauth (reorder ip order s) ip) =
      missing wanted (out s ip) (unauth s ip) := by
  have sameOut : out (reorder ip order s) ip = out s ip := by
    rw [out, reorder_ipToSession]
    exact perm.countP_eq _
  have sameUnauth : unauth (reorder ip order s) ip = unauth s ip := by
    rw [unauth, reorder_ipToSession]
    exact perm.countP_eq _
  rw [sameOut, sameUnauth]

theorem decision_reorder (perm : order.Perm (s.ipToSession ip)) {wanted : Nat} (positive : 1 ≤ wanted) :
    OutgoingManager.decision connectedFn wanted (sessionsOf (reorder ip order s) ip) =
      OutgoingManager.decision connectedFn wanted (sessionsOf s ip) := by
  have complete := @complete_reorder connectedFn s ip order perm
  rcases decision_eq connectedFn s ip positive with ⟨holds, same⟩ | ⟨fails, same⟩
  · rcases decision_eq connectedFn (reorder ip order s) ip positive with ⟨_, other⟩ | ⟨absent, _⟩
    · rw [other, same]
    · exact absurd (complete.mpr holds) absent
  · rcases decision_eq connectedFn (reorder ip order s) ip positive with ⟨present, _⟩ | ⟨_, other⟩
    · exact absurd (complete.mp present) fails
    · rw [other, same, missing_reorder perm]

end Order

/-! ## The sessions that are created -/

theorem createOutgoing_nextSession (hname ip : String) (n : Nat) (s : Server) :
    (Server.createOutgoing hname ip n s).nextSession = s.nextSession + n := by
  induction n generalizing s with
  | zero => rfl
  | succ n inductionHypothesis =>
    obtain ⟨store, turn, -⟩ := Server.createOutgoing_succ hname ip n s
    rw [turn, inductionHypothesis]
    exact Nat.succ_add_eq_add_succ s.nextSession n

/-- The loop that creates sessions does not look at the sessions that are there. -/
theorem createOutgoing_index (hname ip : String) (n : Nat) (s : Server)
    (index : String → List SessionId) : ∃ after,
      Server.createOutgoing hname ip n { s with ipToSession := index } =
        { Server.createOutgoing hname ip n s with ipToSession := after } := by
  induction n generalizing s index with
  | zero => exact ⟨index, rfl⟩
  | succ n inductionHypothesis =>
    let created := s.createSession .outgoing ip
    let store := created.store.connectClosed s.nextSession (.host hname)
    exact inductionHypothesis
      (created.withStore (store.set s.nextSession (store.session s.nextSession).startConnection))
      (Server.createSession .outgoing ip { s with ipToSession := index }).ipToSession

theorem status_setStatus {manager : OutgoingManager} {hname : String} {rh : RemoteHostToConnect}
    (host : manager.connectTo.find? (·.hostname == hname) = some rh) (now : Nat) (status : HostStatus) :
    (manager.setStatus now hname status).status hname = some status := by
  have named : rh.hostname = hname := by simpa using List.find?_some host
  have kept : ((fun other : RemoteHostToConnect => other.hostname == hname) ∘ fun other =>
      if other.hostname = hname then other.setStatus now status else other) =
        fun other => other.hostname == hname := by
    funext other
    by_cases same : other.hostname = hname
    · simp [same, RemoteHostToConnect.setStatus]
    · simp [same]
  simp only [OutgoingManager.status, OutgoingManager.setStatus, List.find?_map, kept, host, Option.map_some,
    if_pos named]
  rfl

theorem status_connectResolved {manager : OutgoingManager} {hname : String} {rh : RemoteHostToConnect}
    (host : manager.connectTo.find? (·.hostname == hname) = some rh) (now : Nat) (decision : Decision) :
    (manager.connectResolved now hname (some decision)).status hname =
      some (if decision = .connected then .connected else .connecting) := by
  cases decision with
  | connected =>
    simp only [OutgoingManager.connectResolved]
    split
    next already => exact already
    next => exact status_setStatus host now .connected
  | wait =>
    simp only [OutgoingManager.connectResolved]
    split
    next already => exact already
    next => exact status_setStatus host now .connecting
  | create sessions => exact status_setStatus host now .connecting

def created : Decision → Nat
  | .create sessionsToCreate => sessionsToCreate
  | _ => 0

theorem created_needed (needed : Nat) :
    let decision : Decision := if needed = 0 then .wait else .create needed
    decision ≠ .connected ∧ created decision = needed := by
  intro decision
  by_cases nothing : needed = 0
  · simp [decision, nothing, created]
  · simp [decision, nothing, created]

theorem connectResolved_effect (connectedFn : String → Option Bool) (hname ip : String) (s : Server) :
    let decision := OutgoingManager.decision connectedFn (wantedOf s hname) (sessionsOf s ip)
    let t := connectResolved connectedFn hname ip s
    t.outman = s.outman.connectResolved s.store.now hname (some decision) ∧
      t.nextSession = s.nextSession + created decision := by
  intro decision t
  have result : t = match decision with
      | .create sessionsToCreate => Server.createOutgoing hname ip sessionsToCreate
          { s with outman := s.outman.connectResolved s.store.now hname (some decision) }
      | _ => { s with outman := s.outman.connectResolved s.store.now hname (some decision) } := rfl
  rw [result]
  cases decision with
  | connected => exact ⟨rfl, rfl⟩
  | wait => exact ⟨rfl, rfl⟩
  | create sessionsToCreate =>
    exact ⟨(live_createOutgoing hname ip sessionsToCreate _).1,
      createOutgoing_nextSession hname ip sessionsToCreate _⟩

theorem connectResolved_reorder {connectedFn : String → Option Bool} {s : Server} {hname ip : String}
    {order : List SessionId} (perm : order.Perm (s.ipToSession ip)) (positive : 1 ≤ wantedOf s hname) :
    ∃ index, connectResolved connectedFn hname ip (reorder ip order s) =
      { connectResolved connectedFn hname ip s with ipToSession := index } := by
  have same := @decision_reorder connectedFn s ip order perm _ positive
  have unreordered : wantedOf (reorder ip order s) hname = wantedOf s hname := rfl
  simp only [connectResolved, unreordered, same]
  cases OutgoingManager.decision connectedFn (wantedOf s hname) (sessionsOf s ip) with
  | connected => exact ⟨_, rfl⟩
  | wait => exact ⟨_, rfl⟩
  | create sessionsToCreate =>
    exact createOutgoing_index hname ip sessionsToCreate { s with
      outman := s.outman.connectResolved s.store.now hname (some (.create sessionsToCreate)) }
      (reorder ip order s).ipToSession

/-- `connectResolved` decides as it is documented, whatever the sessions of the address are and in
whatever order it finds them. -/
theorem connectResolved_decides (connectedFn : String → Option Bool) {s : Server} {hname : String}
    {rh : RemoteHostToConnect} (host : s.outman.connectTo.find? (·.hostname == hname) = some rh)
    (positive : 1 ≤ rh.wantedConnections) (ip : String) :
    let t := connectResolved connectedFn hname ip s
    ((t.outman.status hname = some .connected ∧ t.nextSession = s.nextSession) ↔
        Complete connectedFn s ip) ∧
      (¬ Complete connectedFn s ip → t.outman.status hname = some .connecting ∧
        t.nextSession =
          s.nextSession + missing rh.wantedConnections (out s ip) (unauth s ip)) ∧
      ∀ order, order.Perm (s.ipToSession ip) → ∃ index,
        connectResolved connectedFn hname ip (reorder ip order s) = { t with ipToSession := index } := by
  intro t
  have isWanted : wantedOf s hname = rh.wantedConnections := by simp [wantedOf, host]
  obtain ⟨outman, nextSession⟩ := connectResolved_effect connectedFn hname ip s
  have status := status_connectResolved host s.store.now
    (OutgoingManager.decision connectedFn (wantedOf s hname) (sessionsOf s ip))
  rw [← outman] at status
  rw [isWanted] at status nextSession
  refine ⟨?_, ?_, fun order perm => connectResolved_reorder perm (isWanted ▸ positive)⟩
  · rcases decision_eq connectedFn s ip positive with ⟨complete, decided⟩ | ⟨incomplete, decided⟩
    · rw [decided] at status nextSession
      exact ⟨fun _ => complete, fun _ => ⟨status, nextSession⟩⟩
    · refine ⟨fun connected => ?_, fun complete => absurd complete incomplete⟩
      rw [decided, if_neg (created_needed _).1, connected.1] at status
      cases status
  · intro incomplete
    rcases decision_eq connectedFn s ip positive with ⟨complete, _⟩ | ⟨_, decided⟩
    · exact absurd complete incomplete
    · rw [decided, if_neg (created_needed _).1] at status
      rw [decided, (created_needed _).2] at nextSession
      exact ⟨status, nextSession⟩

/-- The first answer for a host, with two wanted connections. -/
theorem first_answer_connects :
    let s := Server.initial ⟨"alpha", "userver"⟩ 0 ["beta"]
    let t := connectResolved s.connectedFn "beta" "10.0.0.2" s
    t.outman.status "beta" = some .connecting ∧ t.nextSession = 2 := by
  intro s t
  have host : s.outman.connectTo.find? (·.hostname == "beta") =
      some ⟨"beta", "32300", .initial, 0, 2⟩ := by decide
  have incomplete : ¬ Complete s.connectedFn s "10.0.0.2" := by
    rintro ⟨sid, member, -⟩
    cases member
  exact (connectResolved_decides s.connectedFn host (by decide) "10.0.0.2").2.1 incomplete

end Uzel.Verified.ConnectionPolicy
