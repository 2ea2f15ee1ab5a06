import Uzel.Foundation.Json
import Uzel.Foundation.Runs
import Uzel.ServerRules

/-! # How many connections to an address are tried at once

`connectResolved` counts the outgoing sessions of an address and then creates none, one, or as many as
are missing.  `attempts_runs` says that the sessions to an address that are still to be authenticated
never outnumber the wanted connections, also when several hosts have the same address.
-/

namespace Uzel.Verified.ConnectionAttempts

open Foundation

/-- The outgoing sessions registered under an address that are not authenticated. -/
def attempts (s : Server) (ip : String) : Nat :=
  (s.ipToSession ip).countP fun sid =>
    (s.store.session sid).direction = .outgoing ∧ (s.store.session sid).authenticated = false

def Bounded (wanted : Nat) (s : Server) : Prop := ∀ ip, attempts s ip ≤ wanted

/-- No host is to have more connections than are wanted. -/
def Wants (wanted : Nat) (manager : OutgoingManager) : Prop :=
  ∀ rh ∈ manager.connectTo, rh.wantedConnections ≤ wanted

/-- A server whose manager of outgoing connections wants any number of them. -/
def initialWanting (config : UConfig) (now : Nat) (remotes : List String) (port wanted : Nat) : Server :=
  { Server.initial config now remotes with
    outman := (remotes.foldl (fun outman rhost => outman.addHost config now rhost)
      (OutgoingManager.new port wanted)).start now }

/-- The constructor of `NetServer` asks for two. -/
theorem initial_eq_initialWanting (config : UConfig) (now : Nat) (remotes : List String) :
    Server.initial config now remotes = initialWanting config now remotes 32300 2 := rfl

/-! ## The decision -/

/-- However many sessions are created, there are no more attempts than wanted connections. -/
theorem decision_create {connectedFn : String → Option Bool} {wanted limit n : Nat}
    {found : List (Direction × Option String)} (positive : 1 ≤ limit) (le : wanted ≤ limit)
    (decided : OutgoingManager.decision connectedFn wanted found = .create n) :
    found.countP (fun ss => ss.1 = .outgoing ∧ ss.2 = none) + n ≤ limit := by
  unfold OutgoingManager.decision at decided
  split at decided
  next empty =>
    obtain rfl : found = [] := List.isEmpty_iff.mp empty
    cases decided
    simpa using le
  next =>
    split at decided
    · cases decided
    next sessions unauth counted =>
      obtain ⟨all, open_⟩ := OutgoingManager.countSessions_eq counted
      have fewer : found.countP (fun ss => ss.1 = .outgoing ∧ ss.2 = none) ≤
          found.countP (·.1 = .outgoing) := by
        apply List.countP_mono_left
        intro ss _
        simpa using fun outgoing _ => outgoing
      split at decided
      · split at decided
        · cases decided
        · cases decided
          omega
      · cases decided
        omega

/-! ## The manager -/

section Manager

variable {wanted : Nat} {manager : OutgoingManager}

theorem wants_setStatus (wants : Wants wanted manager) (now : Nat) (hname : String) (status : HostStatus) :
    Wants wanted (manager.setStatus now hname status) := by
  intro rh member
  obtain ⟨before, known, rfl⟩ := List.mem_map.mp member
  split
  · exact wants before known
  · exact wants before known

theorem wants_startConnecting (wants : Wants wanted manager) (now : Nat) :
    Wants wanted (manager.startConnecting now) := by
  apply List.foldlRecOn (motive := fun visited => Wants wanted visited) manager.connectTo _ wants
  intro visited wants rh _
  split
  · exact wants_setStatus wants now rh.hostname .resolving
  · exact wants

theorem wants_connectResolved (wants : Wants wanted manager) (now : Nat) (hname : String)
    (answer : Option Decision) : Wants wanted (manager.connectResolved now hname answer) := by
  unfold OutgoingManager.connectResolved
  split
  · exact wants_setStatus wants now hname _
  · split
    · exact wants
    · exact wants_setStatus wants now hname _
  · split
    · exact wants
    · exact wants_setStatus wants now hname _
  · exact wants_setStatus wants now hname _

theorem wants_step {now : Nat} {e : ManagerEvent} {next : ManagerState} (wants : Wants wanted manager)
    (stepped : ManagerState.step ⟨now, manager⟩ e = some next) : Wants wanted next.manager := by
  cases e with
  | tick elapsed =>
    cases stepped
    exact wants
  | fire =>
    obtain ⟨timer, _, rfl⟩ := Option.map_eq_some_iff.mp stepped
    exact wants
  | onTimer i =>
    obtain ⟨ok, _, rfl⟩ := Option.map_eq_some_iff.mp stepped
    have taken : Wants wanted { manager with timer := { manager.timer with
        completions := manager.timer.completions.eraseIdx i } } := wants
    dsimp only [OutgoingManager.onTimer]
    split
    · exact wants_startConnecting taken now
    · exact taken
  | pokeTask =>
    simp only [ManagerState.step] at stepped
    split at stepped
    · cases stepped
      exact wants
    · cases stepped
  | resolved i answer =>
    obtain ⟨hname, _, rfl⟩ := Option.map_eq_some_iff.mp stepped
    exact @wants_connectResolved wanted
      { manager with resolves := manager.resolves.eraseIdx i } wants now hname answer
  | sessionClosed hname =>
    cases stepped
    exact wants_setStatus wants now hname .closed

theorem wants_initial (config : UConfig) (now : Nat) (remotes : List String) (port : Nat) :
    Wants wanted (initialWanting config now remotes port wanted).outman := by
  have hosts := @OutgoingManager.addHosts_rule
    (fun manager => Wants wanted manager ∧ manager.wantedConnections = wanted) config now (by
      intro manager hname ⟨wants, same⟩ _
      refine ⟨?_, same⟩
      intro rh member
      rcases List.mem_append.mp member with before | new
      · exact wants rh before
      · rw [List.mem_singleton.mp new]
        exact same.le) (.new port wanted) ⟨nofun, rfl⟩ remotes
  exact hosts.1

end Manager

/-! ## The sessions -/

/-- What is kept: the limit, and that the sessions in the registry exist. -/
structure Attempting (wanted : Nat) (s : Server) : Prop where
  bounded : Bounded wanted s
  wants : Wants wanted s.outman
  created : ∀ ip, ∀ sid ∈ s.ipToSession ip, sid < s.nextSession

section Steps

variable {json : JsonCodec} {config : UConfig} {pid wanted : Nat} {s t : Server} {sid : SessionId}

/-- Fewer sessions in the registry, and none of them a new attempt. -/
theorem attempts_le {ip : String} (sublist : (t.ipToSession ip).Sublist (s.ipToSession ip))
    (direction : ∀ sid ∈ t.ipToSession ip,
      (t.store.session sid).direction = (s.store.session sid).direction)
    (authenticated : ∀ sid, (t.store.session sid).authenticated = false →
      (s.store.session sid).authenticated = false) : attempts t ip ≤ attempts s ip := by
  refine Nat.le_trans ?_ (List.Sublist.countP_le sublist)
  apply List.countP_mono_left
  intro sid member
  simp only [decide_eq_true_eq]
  rintro ⟨outgoing, unknown⟩
  exact ⟨(direction sid member).symm.trans outgoing, authenticated sid unknown⟩

theorem attempting_persist (attempting : Attempting wanted s) (persist : s.store.Persist t.store)
    (registry : t.ipToSession = s.ipToSession) (next : t.nextSession = s.nextSession)
    (outman : t.outman = s.outman) : Attempting wanted t where
  bounded ip := by
    refine Nat.le_trans (attempts_le ?_ ?_ ?_) (attempting.bounded ip)
    · rw [registry]
    · exact fun sid _ => (persist sid).direction
    · intro sid
      simp only [Session.authenticated, (persist sid).msg1]
      exact id
  wants := outman ▸ attempting.wants
  created ip sid member := next ▸ attempting.created ip sid (registry ▸ member)

/-- A new session counts as an attempt if it is an outgoing one. -/
theorem attempts_create (attempting : Attempting wanted s) (direction : Direction) (ip other : String) :
    attempts (s.createSession direction ip) other =
      attempts s other + if direction = .outgoing ∧ other = ip then 1 else 0 := by
  have kept : (s.ipToSession other).countP (fun sid =>
      ((s.createSession direction ip).store.session sid).direction = .outgoing ∧
        ((s.createSession direction ip).store.session sid).authenticated = false) = attempts s other := by
    apply List.countP_congr
    intro sid member
    rw [Server.createSession_other direction ip (Nat.ne_of_lt (attempting.created other sid member))]
  have new : s.nextSession ∉ s.ipToSession ip := fun member =>
    Nat.lt_irrefl _ (attempting.created ip _ member)
  by_cases here : other = ip
  · subst here
    rw [attempts, Server.createSession_ipToSession, Function.update_self, List.insert_of_not_mem new,
      List.countP_cons, kept, Server.createSession_self]
    simp [Session.authenticated, Session.new]
  · rw [attempts, Server.createSession_ipToSession, Function.update_of_ne here, kept]
    simp [here]

theorem created_create (attempting : Attempting wanted s) (direction : Direction) (ip : String) :
    ∀ other, ∀ sid ∈ (s.createSession direction ip).ipToSession other, sid < s.nextSession + 1 := by
  intro other sid member
  rw [Server.createSession_ipToSession, Function.update_apply] at member
  split at member
  · rcases List.mem_insert_iff.mp member with rfl | before
    · exact Nat.lt_succ_self _
    · exact Nat.lt_succ_of_lt (attempting.created ip sid before)
  · exact Nat.lt_succ_of_lt (attempting.created other sid member)

theorem kept_attempting {own : String} : Server.Kept own (Attempting wanted) where
  steady attempting steady :=
    attempting_persist attempting steady.sessions steady.registry steady.nextSession steady.outman
  create {s} ip attempting := by
    refine ⟨?_, attempting.wants, created_create attempting .incoming ip⟩
    intro other
    rw [attempts_create attempting]
    exact attempting.bounded other
  stop {s sid} attempting running := by
    have closing := Server.closing_stop running
    refine ⟨?_, ?_, ?_⟩
    · intro ip
      refine Nat.le_trans (@attempts_le s (s.stop sid) ip (closing.sublist ip) ?_ ?_) (attempting.bounded ip)
      · exact fun other _ => Server.stop_keeps (·.direction) (fun _ => rfl) running other
      · exact fun other => (Server.stop_keeps (·.authenticated) (fun _ => rfl) running other).symm.trans
    · exact closing.outman (Wants wanted) (fun _ name wants => wants_setStatus wants _ name .closed)
        attempting.wants
    · intro ip other member
      rw [closing.nextSession]
      exact attempting.created ip other ((closing.sublist ip).subset member)

/-- The loop of `connectResolved`: the sessions to create are attempts already. -/
theorem attempting_createOutgoing {hname ip : String} {n : Nat} (attempting : Attempting wanted s)
    (room : attempts s ip + n ≤ wanted) :
    Attempting wanted (Server.createOutgoing hname ip n s) := by
  induction n generalizing s with
  | zero => exact attempting
  | succ n inductionHypothesis =>
    have counted := attempts_create attempting .outgoing ip
    have created : Attempting wanted (s.createSession .outgoing ip) := by
      refine ⟨?_, attempting.wants, created_create attempting .outgoing ip⟩
      intro other
      rw [counted]
      split
      next here => rw [here.2]; omega
      next => exact attempting.bounded other
    obtain ⟨store, turn, persist, _⟩ := Server.createOutgoing_succ hname ip n s
    rw [turn]
    have begun : Attempting wanted ((s.createSession .outgoing ip).withStore store) :=
      @attempting_persist wanted (s.createSession .outgoing ip)
        ((s.createSession .outgoing ip).withStore store) created persist rfl rfl rfl
    apply inductionHypothesis begun
    have same : attempts ((s.createSession .outgoing ip).withStore store) ip ≤
        attempts (s.createSession .outgoing ip) ip := by
      apply @attempts_le (s.createSession .outgoing ip)
        ((s.createSession .outgoing ip).withStore store) ip (List.Sublist.refl _)
      · exact fun sid _ => (persist sid).direction
      · intro sid
        simp only [Server.withStore, Session.authenticated, (persist sid).msg1]
        exact id
    rw [counted ip, if_pos ⟨rfl, rfl⟩] at same
    omega

theorem attempting_connectResolved (positive : 1 ≤ wanted) (attempting : Attempting wanted s)
    (hname : String) (answer : Option String) : Attempting wanted (s.connectResolved hname answer) := by
  have manager : ∀ outman, Wants wanted outman → Attempting wanted { s with outman } :=
    fun outman wants => ⟨attempting.bounded, wants, attempting.created⟩
  unfold Server.connectResolved
  cases answer with
  | none => exact manager _ (wants_connectResolved attempting.wants _ hname _)
  | some ip =>
    dsimp only
    split
    next n decided =>
      apply attempting_createOutgoing (manager _ (wants_connectResolved attempting.wants _ hname _))
      have le : ((s.outman.connectTo.find? (·.hostname == hname)).map (·.wantedConnections)).getD 0 ≤
          wanted := by
        cases found : s.outman.connectTo.find? (·.hostname == hname) with
        | none => exact Nat.zero_le _
        | some rh => exact attempting.wants rh (List.mem_of_find?_eq_some found)
      have few := decision_create positive le decided
      rw [List.countP_map] at few
      refine Nat.le_trans (Nat.add_le_add_right (Nat.le_of_eq ?_) n) few
      apply List.countP_congr
      intro sid _
      simp [Session.authenticated, Session.peerNode]
    next => exact manager _ (wants_connectResolved attempting.wants _ hname _)

theorem attempting_step (lawful : json.Lawful) (positive : 1 ≤ wanted) {e : ServerEvent}
    (attempting : Attempting wanted s) (next : s.step json config pid e = some t) : Attempting wanted t := by
  apply kept_attempting.step_session attempting next
  · intro e' _ next
    obtain ⟨manager, stepped, rfl⟩ := Option.map_eq_some_iff.mp next
    exact ⟨attempting.bounded, wants_step attempting.wants stepped, attempting.created⟩
  · rintro i answer rfl
    obtain ⟨hname, _, rfl⟩ := Option.map_eq_some_iff.mp next
    apply attempting_connectResolved positive
    exact ⟨attempting.bounded, attempting.wants, attempting.created⟩
  · rintro sid header body rfl _ _
    apply kept_attempting.dispatchMsg_sessions lawful attempting
    · exact attempting_persist
    · intro msg unknown _
      generalize isKnown : s.withStore (s.store.set sid { s.store.session sid with msg1 := some msg }) = known
      have others : ∀ other, other ≠ sid → known.store.session other = s.store.session other := by
        intro other different
        simp [← isKnown, Server.withStore, different]
      have direction : ∀ other, (known.store.session other).direction = (s.store.session other).direction := by
        rw [← isKnown]
        exact Sessions.set_congr (·.direction) rfl
      -- the session that is authenticated is an attempt no more
      have fewer : ∀ ip, attempts known ip ≤ attempts s ip := by
        intro ip
        apply attempts_le (by rw [← isKnown]; exact List.Sublist.refl _) (fun other _ => direction other)
        intro other notKnown
        by_cases same : other = sid
        · simp [Session.authenticated, same, unknown]
        · rwa [← others other same]
      rw [← isKnown] at fewer ⊢
      exact ⟨fun ip => (fewer ip).trans (attempting.bounded ip), attempting.wants, attempting.created⟩

/-- In every state of every run of a server that wants at least one connection to each host, the
outgoing sessions registered under an address that are not authenticated are at most as many as the
wanted connections. -/
theorem attempts_runs (lawful : json.Lawful) (positive : 1 ≤ wanted) (config : UConfig) (now : Nat)
    (remotes : List String) (port : Nat) (events : List ServerEvent) :
    Always (Server.step json config pid) (Bounded wanted)
      (initialWanting config now remotes port wanted) events := by
  have initial : Attempting wanted (initialWanting config now remotes port wanted) :=
    ⟨fun _ => Nat.zero_le _, wants_initial config now remotes port, nofun⟩
  exact (always_of_invariant (attempting_step lawful positive) initial events).mono
    fun _ => Attempting.bounded

end Steps

/-- Two configured hosts have one address: the two attempts for the first of them are all there are. -/
theorem attempts_runs_two_hosts :
    let events : List ServerEvent :=
      [.fire, .onTimer 0, .resolved 0 (some "10.0.0.7"), .resolved 0 (some "10.0.0.7")]
    Always (Server.step Json.compactJson ⟨"beta", "userver"⟩ 1) (Bounded 2)
        (initialWanting ⟨"beta", "userver"⟩ 0 ["alpha", "mirror"] 32300 2) events ∧
      (exec (Server.step Json.compactJson ⟨"beta", "userver"⟩ 1)
          (initialWanting ⟨"beta", "userver"⟩ 0 ["alpha", "mirror"] 32300 2) events).map
        (attempts · "10.0.0.7") = some 2 := by
  intro events
  exact ⟨attempts_runs Json.compactJson_lawful (by decide) _ 0 _ 32300 events, by decide +kernel⟩

end Uzel.Verified.ConnectionAttempts
