import Uzel.Foundation.Timer
import Uzel.Session

/-! # Outgoing connections (`OutgoingManager.h`, `OutgoingManager.cpp`)

The manager keeps the configured hosts and looks at them at every tick of its timer.  A host that is
due is resolved, and the answer decides how many connections to it are started.  The sessions
themselves belong to the server, so what the manager is told about them is a list with the direction
and the authenticated peer node of each session of the resolved address.
-/

namespace Uzel

open Foundation

inductive HostStatus where
  | initial | resolving | resolvingError | connecting | connectionError | connected | closed
deriving DecidableEq, Repr

structure RemoteHostToConnect where
  hostname : String
  service : String
  status : HostStatus
  statusChangeTS : Nat
  wantedConnections : Nat
deriving DecidableEq, Repr

def RemoteHostToConnect.setStatus (now : Nat) (status : HostStatus) (rh : RemoteHostToConnect) :
    RemoteHostToConnect :=
  { rh with status, statusChangeTS := now }

/-- The seconds of the constants, in ticks of the steady clock (nanoseconds). -/
def seconds (n : Nat) : Nat := n * 1000000000

/-- `RefreshHostStatus_sec` -/
def refreshHostStatus : Nat := seconds 15

/-- `DelayReconnect_sec` -/
def delayReconnect : Nat := 30

structure OutgoingManager where
  connectTo : List RemoteHostToConnect
  port : Nat
  wantedConnections : Nat
  timer : Timer
  /-- the tasks that `poke()` has posted and that have not run yet -/
  pokes : Nat
  /-- the host names whose `async_resolve` is outstanding -/
  resolves : List String
deriving DecidableEq, Repr

/-- What `connectResolved` decides for a host. -/
inductive Decision where
  | connected
  | wait
  | create (sessions : Nat)
deriving DecidableEq, Repr

namespace OutgoingManager

def new (port wantedConnections : Nat) : OutgoingManager := ⟨[], port, wantedConnections, .idle, 0, []⟩

/-- `startConnecting(hname)`; `emplace` keeps a host that is already there. -/
def addHost (config : UConfig) (now : Nat) (hname : String) (manager : OutgoingManager) :
    OutgoingManager :=
  if config.isLocalNode hname then manager
  else if manager.connectTo.any (·.hostname == hname) then manager
  else
    { manager with connectTo := manager.connectTo ++
        [⟨hname, toString manager.port, .initial, now, manager.wantedConnections⟩] }

def setStatus (now : Nat) (hname : String) (status : HostStatus) (manager : OutgoingManager) :
    OutgoingManager :=
  { manager with connectTo := manager.connectTo.map fun rh =>
      if rh.hostname = hname then rh.setStatus now status else rh }

def status (hname : String) (manager : OutgoingManager) : Option HostStatus :=
  (manager.connectTo.find? (·.hostname == hname)).map (·.status)

def poke (manager : OutgoingManager) : OutgoingManager := { manager with pokes := manager.pokes + 1 }

/-- The task that `poke()` posts. -/
def pokeTask (now : Nat) (manager : OutgoingManager) : OutgoingManager :=
  { manager with pokes := manager.pokes - 1, timer := manager.timer.expiresAfter now 0 }

def scheduleNext (now delay : Nat) (manager : OutgoingManager) : OutgoingManager :=
  { manager with timer := (manager.timer.expiresAfter now delay).asyncWait }

def start (now : Nat) (manager : OutgoingManager) : OutgoingManager := manager.scheduleNext now 0

/-- A host is looked up again when it is new, or when its last failure or close is long ago. -/
def due (now : Nat) (rh : RemoteHostToConnect) : Bool :=
  match rh.status with
  | .initial => true
  | .connectionError | .resolvingError | .closed =>
    delayReconnect < (now - rh.statusChangeTS) / 1000000000
  | .connecting | .resolving | .connected => false

def startResolving (now : Nat) (rh : RemoteHostToConnect) (manager : OutgoingManager) :
    OutgoingManager :=
  let manager := manager.setStatus now rh.hostname .resolving
  { manager with resolves := manager.resolves ++ [rh.hostname] }

def startConnecting (now : Nat) (manager : OutgoingManager) : OutgoingManager :=
  manager.connectTo.foldl
    (fun manager rh => if due now rh then manager.startResolving now rh else manager) manager

/-- The handler of `async_wait`; after an error it does not wait again. -/
def onTimer (now : Nat) (ok : Bool) (manager : OutgoingManager) : OutgoingManager :=
  if ok then (manager.startConnecting now).scheduleNext now refreshHostStatus else manager

/-- The loop of `connectResolved` over the sessions of the address, with the numbers of outgoing and
of unauthenticated outgoing sessions so far; `none` when it finds a node that is connected. -/
def countSessions (connectedFn : String → Option Bool) :
    List (Direction × Option String) → Nat → Nat → Option (Nat × Nat)
  | [], sessions, unauthsessions => some (sessions, unauthsessions)
  | (.incoming, _) :: rest, sessions, unauthsessions =>
    countSessions connectedFn rest sessions unauthsessions
  | (.outgoing, none) :: rest, sessions, unauthsessions =>
    countSessions connectedFn rest (sessions + 1) (unauthsessions + 1)
  | (.outgoing, some node) :: rest, sessions, unauthsessions =>
    if connectedFn node = some true then none
    else countSessions connectedFn rest (sessions + 1) unauthsessions

def decision (connectedFn : String → Option Bool) (wantedConnections : Nat)
    (found : List (Direction × Option String)) : Decision :=
  if found.isEmpty then .create wantedConnections
  else
    match countSessions connectedFn found 0 0 with
    | none => .connected
    | some (sessions, unauthsessions) =>
      if wantedConnections ≤ sessions then
        if 0 < unauthsessions then .wait else .create 1
      else .create (wantedConnections - sessions)

/-- What `connectResolved` does to the manager: `none` is a resolving error. -/
def connectResolved (now : Nat) (hname : String) (answer : Option Decision) (manager : OutgoingManager) :
    OutgoingManager :=
  match answer with
  | none => (manager.setStatus now hname .resolvingError).poke
  | some .connected =>
    if manager.status hname = some .connected then manager else manager.setStatus now hname .connected
  | some .wait =>
    if manager.status hname = some .connecting then manager else manager.setStatus now hname .connecting
  | some (.create _) => manager.setStatus now hname .connecting

/-- The slot of the manager on `s_closed` of a session it has created. -/
def sessionClosed (now : Nat) (hname : String) (manager : OutgoingManager) : OutgoingManager :=
  (manager.setStatus now hname .closed).poke

/-- The rule for the hosts that a manager is started with: each that is really added is a new one. -/
theorem addHosts_rule {P : OutgoingManager → Prop} {config : UConfig} {now : Nat}
    (each : ∀ (manager : OutgoingManager) hname, P manager →
      (∀ rh ∈ manager.connectTo, rh.hostname ≠ hname) →
        P { manager with connectTo := manager.connectTo ++
          [⟨hname, toString manager.port, .initial, now, manager.wantedConnections⟩] })
    {manager : OutgoingManager} (initial : P manager) (hosts : List String) :
    P (hosts.foldl (fun manager hname => manager.addHost config now hname) manager) := by
  apply List.foldlRecOn (motive := P) hosts _ initial
  intro manager holds hname _
  unfold addHost
  split
  · exact holds
  · split
    · exact holds
    next absent =>
      apply each manager hname holds
      intro rh member same
      exact absent (List.any_eq_true.mpr ⟨rh, member, beq_iff_eq.mpr same⟩)

@[simp] theorem setStatus_timer (now : Nat) (hname : String) (status : HostStatus)
    (manager : OutgoingManager) : (manager.setStatus now hname status).timer = manager.timer := rfl

@[simp] theorem poke_timer (manager : OutgoingManager) : manager.poke.timer = manager.timer := rfl

@[simp] theorem sessionClosed_timer (now : Nat) (hname : String) (manager : OutgoingManager) :
    (manager.sessionClosed now hname).timer = manager.timer := rfl

@[simp] theorem startConnecting_timer (now : Nat) (manager : OutgoingManager) :
    (manager.startConnecting now).timer = manager.timer := by
  apply List.foldlRecOn (motive := fun visited : OutgoingManager => visited.timer = manager.timer) manager.connectTo _ rfl
  intro visited same rh _
  split
  · exact same
  · exact same

@[simp] theorem connectResolved_timer (now : Nat) (hname : String) (answer : Option Decision)
    (manager : OutgoingManager) : (manager.connectResolved now hname answer).timer = manager.timer := by
  unfold connectResolved
  split
  · rfl
  · split <;> rfl
  · split <;> rfl
  · rfl

/-! ## The decision -/

/-- What the loop of `connectResolved` has counted when it comes to its end. -/
theorem countSessions_eq {connectedFn : String → Option Bool}
    {found : List (Direction × Option String)} {before beforeUnauth sessions unauth : Nat}
    (counted : countSessions connectedFn found before beforeUnauth =
      some (sessions, unauth)) :
    sessions = before + found.countP (·.1 = .outgoing) ∧
      unauth = beforeUnauth + found.countP (fun ss => ss.1 = .outgoing ∧ ss.2 = none) := by
  induction found generalizing before beforeUnauth with
  | nil =>
    simp only [countSessions, Option.some.injEq, Prod.mk.injEq] at counted
    simp [counted]
  | cons ss rest inductionHypothesis =>
    obtain ⟨direction, peer⟩ := ss
    cases direction with
    | incoming =>
      have later := inductionHypothesis counted
      simpa using later
    | outgoing =>
      cases peer with
      | none =>
        have later := inductionHypothesis counted
        simp only [List.countP_cons, decide_true, if_true, and_self]
        omega
      | some node =>
        simp only [countSessions] at counted
        split at counted
        · cases counted
        · have later := inductionHypothesis counted
          simp only [List.countP_cons, decide_true, if_true, reduceCtorEq, and_false, decide_false,
            Bool.false_eq_true, if_false]
          omega

/-- The loop of `connectResolved` comes to its end unless it finds a node that is connected. -/
theorem countSessions_none {connectedFn : String → Option Bool}
    {found : List (Direction × Option String)} {sessions unauth : Nat} :
    countSessions connectedFn found sessions unauth = none ↔
      ∃ node, (Direction.outgoing, some node) ∈ found ∧ connectedFn node = some true := by
  induction found generalizing sessions unauth with
  | nil => simp [countSessions]
  | cons ss rest inductionHypothesis =>
    obtain ⟨direction, peer⟩ := ss
    cases direction with
    | incoming => simp [countSessions, inductionHypothesis]
    | outgoing =>
      cases peer with
      | none => simp [countSessions, inductionHypothesis]
      | some node =>
        simp only [countSessions]
        split
        next connected => exact ⟨fun _ => ⟨node, List.mem_cons_self, connected⟩, fun _ => rfl⟩
        next other =>
          rw [inductionHypothesis]
          constructor
          · exact fun ⟨peer, member, connected⟩ => ⟨peer, List.mem_cons_of_mem _ member, connected⟩
          · rintro ⟨peer, member, connected⟩
            rcases List.mem_cons.mp member with same | later
            · cases same
              exact absurd connected other
            · exact ⟨peer, later, connected⟩

/-- The address needs no further connection: a node with a session to it is connected, or there are as
many sessions to it as are wanted, and one of them is still to be authenticated. -/
def Occupied (connectedFn : String → Option Bool) (wantedConnections : Nat)
    (found : List (Direction × Option String)) : Prop :=
  (∃ node, (Direction.outgoing, some node) ∈ found ∧ connectedFn node = some true) ∨
    (wantedConnections ≤ found.countP (·.1 = .outgoing) ∧
      0 < found.countP fun ss => ss.1 = .outgoing ∧ ss.2 = none)

theorem decision_cases (connectedFn : String → Option Bool) (wantedConnections : Nat)
    (found : List (Direction × Option String)) :
    let answer := decision connectedFn wantedConnections found
    (Occupied connectedFn wantedConnections found ∧ (answer = .connected ∨ answer = .wait)) ∨
      (¬ Occupied connectedFn wantedConnections found ∧
        ∃ sessions, answer = .create sessions ∧ (1 ≤ wantedConnections → 1 ≤ sessions)) := by
  intro answer
  cases empty : found.isEmpty with
  | true =>
    obtain rfl : found = [] := List.isEmpty_iff.mp empty
    exact .inr ⟨by simp [Occupied], wantedConnections, rfl, id⟩
  | false =>
    have decided : answer = match countSessions connectedFn found 0 0 with
        | none => .connected
        | some (sessions, unauthsessions) =>
          if wantedConnections ≤ sessions then
            if 0 < unauthsessions then .wait else .create 1
          else .create (wantedConnections - sessions) := by
      simp [answer, decision, empty]
    cases counted : countSessions connectedFn found 0 0 with
    | none =>
      rw [counted] at decided
      exact .inl ⟨.inl (countSessions_none.mp counted), .inl decided⟩
    | some counts =>
      obtain ⟨sessions, unauthsessions⟩ := counts
      obtain ⟨all, unauthenticated⟩ := countSessions_eq counted
      rw [Nat.zero_add] at all unauthenticated
      have free : ¬ ∃ node, (Direction.outgoing, some node) ∈ found ∧ connectedFn node = some true := by
        rw [← @countSessions_none connectedFn found 0 0, counted]
        exact Option.some_ne_none _
      rw [counted] at decided
      simp only [Occupied, free, false_or, ← all, ← unauthenticated]
      by_cases enough : wantedConnections ≤ sessions
      · by_cases waiting : 0 < unauthsessions
        · exact .inl ⟨⟨enough, waiting⟩, .inr (by simp [decided, enough, waiting])⟩
        · exact .inr ⟨fun occupied => waiting occupied.2, 1, by simp [decided, enough, waiting],
            fun _ => Nat.le_refl 1⟩
      · exact .inr ⟨fun occupied => enough occupied.1, wantedConnections - sessions,
          by simp [decided, enough], fun _ => by omega⟩

end OutgoingManager

/-! ## The manager on its own -/

structure ManagerState where
  now : Nat
  manager : OutgoingManager

/-- What the manager reacts to: the expiry of its timer, the handler of a queued completion, a task
posted by `poke()`, the answer to a resolve, the end of a session it has created. -/
inductive ManagerEvent where
  | tick (elapsed : Nat)
  | fire
  | onTimer (i : Nat)
  | pokeTask
  | resolved (i : Nat) (answer : Option Decision)
  | sessionClosed (hname : String)

namespace ManagerState

def step (s : ManagerState) : ManagerEvent → Option ManagerState
  | .tick elapsed => some { s with now := s.now + elapsed }
  | .fire => (s.manager.timer.fire s.now).map fun timer => { s with manager := { s.manager with timer } }
  | .onTimer i =>
    s.manager.timer.completions[i]?.map fun ok =>
      let completions := s.manager.timer.completions.eraseIdx i
      let manager := { s.manager with timer := { s.manager.timer with completions } }
      { s with manager := manager.onTimer s.now ok }
  | .pokeTask => if 0 < s.manager.pokes then some { s with manager := s.manager.pokeTask s.now } else none
  | .resolved i answer =>
    s.manager.resolves[i]?.map fun hname =>
      let manager := { s.manager with resolves := s.manager.resolves.eraseIdx i }
      { s with manager := manager.connectResolved s.now hname answer }
  | .sessionClosed hname => some { s with manager := s.manager.sessionClosed s.now hname }

end ManagerState

end Uzel
