import Uzel.Foundation.Json
import Uzel.Foundation.Runs
import Uzel.ServerRules

/-! # Configured hosts that are never tried again

`startConnecting` leaves a host alone while its status is resolving, connecting or connected, so
something must still be able to change that status: an outstanding resolve, or a session of the host
that is yet to be closed.  `connectResolved` looks at the sessions of the address instead, whichever
host they have been created for.  `progress_runs_iff` says that the runs in which no host is left
behind are exactly those in which a host that is given no session has one of its own.
-/

namespace Uzel.Verified.HostProgress

open Foundation

/-- The host has a session that is not closed yet, and that will set its status when it is. -/
def Live (s : Server) (hname : String) : Prop :=
  ∃ sid < s.nextSession, (s.store.session sid).stopped = false ∧
    .host hname ∈ (s.store.session sid).closedSlots

/-- No host waits for nothing. -/
structure Progress (s : Server) : Prop where
  resolving : ∀ rh ∈ s.outman.connectTo, rh.status = .resolving → rh.hostname ∈ s.outman.resolves
  connecting : ∀ rh ∈ s.outman.connectTo, rh.status = .connecting ∨ rh.status = .connected →
    Live s rh.hostname

/-- The sessions of an address, as `connectResolved` sees them. -/
def sessionsOf (s : Server) (ip : String) : List (Direction × Option String) :=
  (s.ipToSession ip).map fun sid =>
    ((s.store.session sid).direction, (s.store.session sid).peerNode)

def wantedOf (s : Server) (hname : String) : Nat :=
  ((s.outman.connectTo.find? (·.hostname == hname)).map (·.wantedConnections)).getD 0

/-- A host whose address needs no further connection has a session of its own. -/
def HasItsOwn (s : Server) : ServerEvent → Prop
  | .resolved i (some ip) => ∀ hname, s.outman.resolves[i]? = some hname →
      OutgoingManager.Occupied s.connectedFn (wantedOf s hname) (sessionsOf s ip) → Live s hname
  | _ => True

/-! ## The manager -/

/-- What is kept of the manager: a host that is not tried again has a resolve or a session. -/
structure Tended (live : String → Prop) (manager : OutgoingManager) : Prop where
  distinct : (manager.connectTo.map (·.hostname)).Nodup
  wanted : ∀ rh ∈ manager.connectTo, 1 ≤ rh.wantedConnections
  configured : ∀ hname ∈ manager.resolves, ∃ rh ∈ manager.connectTo, rh.hostname = hname
  resolving : ∀ rh ∈ manager.connectTo, rh.status = .resolving → rh.hostname ∈ manager.resolves
  connecting : ∀ rh ∈ manager.connectTo, rh.status = .connecting ∨ rh.status = .connected →
    live rh.hostname

section Manager

variable {live : String → Prop} {manager : OutgoingManager} {hname : String}

theorem Tended.mono {more : String → Prop} (tended : Tended live manager)
    (weaker : ∀ hname, live hname → more hname) : Tended more manager :=
  ⟨tended.distinct, tended.wanted, tended.configured, tended.resolving,
    fun rh member status => weaker _ (tended.connecting rh member status)⟩

theorem mem_setStatus {now : Nat} {status : HostStatus} {rh : RemoteHostToConnect}
    (member : rh ∈ (manager.setStatus now hname status).connectTo) :
    ∃ old ∈ manager.connectTo, rh.hostname = old.hostname ∧
      rh.wantedConnections = old.wantedConnections ∧
      rh.status = if old.hostname = hname then status else old.status := by
  obtain ⟨old, known, rfl⟩ := List.mem_map.mp member
  by_cases same : old.hostname = hname
  · exact ⟨old, known, by simp [same, RemoteHostToConnect.setStatus]⟩
  · exact ⟨old, known, by simp [same]⟩

theorem hostnames_setStatus (now : Nat) (status : HostStatus) :
    (manager.setStatus now hname status).connectTo.map (·.hostname) =
      manager.connectTo.map (·.hostname) := by
  simp only [OutgoingManager.setStatus, List.map_map]
  apply List.map_congr_left
  intro rh _
  by_cases same : rh.hostname = hname <;> simp [same, RemoteHostToConnect.setStatus]

theorem configured_setStatus (now : Nat) (status : HostStatus) (other : String) :
    (∃ rh ∈ (manager.setStatus now hname status).connectTo, rh.hostname = other) ↔
      ∃ rh ∈ manager.connectTo, rh.hostname = other := by
  rw [← List.mem_map (f := fun rh : RemoteHostToConnect => rh.hostname), hostnames_setStatus, List.mem_map]

/-- A status may be set when the resolves that are left and the sessions account for it. -/
theorem tended_setStatus (tended : Tended live manager) (now : Nat) {status : HostStatus}
    {resolves : List String} (kept : ∀ other ∈ manager.resolves, other ≠ hname → other ∈ resolves)
    (fewer : ∀ other ∈ resolves, ∃ rh ∈ manager.connectTo, rh.hostname = other)
    (resolving : status = .resolving → hname ∈ resolves)
    (connecting : status = .connecting ∨ status = .connected → live hname) :
    Tended live { manager.setStatus now hname status with resolves } where
  distinct := by
    show ((manager.setStatus now hname status).connectTo.map _).Nodup
    rw [hostnames_setStatus]
    exact tended.distinct
  wanted rh member := by
    obtain ⟨old, known, _, wanted, _⟩ := mem_setStatus member
    rw [wanted]
    exact tended.wanted old known
  configured other member := (configured_setStatus now status other).mpr (fewer other member)
  resolving rh member isResolving := by
    obtain ⟨old, known, name, _, same⟩ := mem_setStatus member
    rw [name]
    rw [isResolving] at same
    split at same
    next self => exact self ▸ resolving same.symm
    next different => exact kept _ (tended.resolving old known same.symm) different
  connecting rh member isConnecting := by
    obtain ⟨old, known, name, _, same⟩ := mem_setStatus member
    rw [name]
    rw [same] at isConnecting
    split at isConnecting
    next self => exact self ▸ connecting isConnecting
    next => exact tended.connecting old known isConnecting

theorem tended_sessionClosed (tended : Tended live manager) (now : Nat) (hname : String) :
    Tended live (manager.sessionClosed now hname) := by
  have closed : Tended live { manager.setStatus now hname .closed with resolves := manager.resolves } :=
    tended_setStatus tended now (fun _ member _ => member) tended.configured nofun (by simp)
  exact ⟨closed.distinct, closed.wanted, closed.configured, closed.resolving, closed.connecting⟩

theorem tended_startConnecting (tended : Tended live manager) (now : Nat) :
    Tended live (manager.startConnecting now) := by
  have fold : Tended live (manager.startConnecting now) ∧
      (manager.startConnecting now).connectTo.map (·.hostname) = manager.connectTo.map (·.hostname) := by
    apply List.foldlRecOn (motive := fun visited : OutgoingManager => Tended live visited ∧
      visited.connectTo.map (·.hostname) = manager.connectTo.map (·.hostname)) manager.connectTo _ ⟨tended, rfl⟩
    intro visited holds rh member
    obtain ⟨tended, same⟩ := holds
    split
    · refine ⟨?_, (hostnames_setStatus now .resolving).trans same⟩
      apply tended_setStatus tended now
      · exact fun _ before _ => List.mem_append_left _ before
      · intro other resolved
        rcases List.mem_append.mp resolved with before | new
        · exact tended.configured other before
        · have known : rh.hostname ∈ visited.connectTo.map (·.hostname) :=
            same ▸ List.mem_map_of_mem member
          rw [List.mem_singleton.mp new]
          exact List.mem_map.mp known
      · simp
      · simp
    · exact ⟨tended, same⟩
  exact fold.1

/-- The timer and the tasks of `poke()`. -/
theorem tended_step {now : Nat} {e : ManagerEvent} {next : ManagerState} (tended : Tended live manager)
    (alone : e = .fire ∨ e = .pokeTask ∨ ∃ i, e = .onTimer i)
    (stepped : ManagerState.step ⟨now, manager⟩ e = some next) : Tended live next.manager := by
  have untouched : ∀ {after : OutgoingManager}, after.connectTo = manager.connectTo →
      after.resolves = manager.resolves → Tended live after := by
    intro after hosts resolves
    obtain ⟨distinct, wanted, configured, resolving, connecting⟩ := tended
    rw [← hosts] at distinct wanted configured resolving connecting
    rw [← resolves] at configured resolving
    exact ⟨distinct, wanted, configured, resolving, connecting⟩
  rcases alone with rfl | rfl | ⟨i, rfl⟩
  · obtain ⟨timer, _, rfl⟩ := Option.map_eq_some_iff.mp stepped
    exact untouched rfl rfl
  · simp only [ManagerState.step] at stepped
    split at stepped
    · cases stepped
      exact untouched rfl rfl
    · cases stepped
  · obtain ⟨ok, _, rfl⟩ := Option.map_eq_some_iff.mp stepped
    have taken : Tended live { manager with timer := { manager.timer with
        completions := manager.timer.completions.eraseIdx i } } := untouched rfl rfl
    dsimp only [OutgoingManager.onTimer]
    split
    · have started := tended_startConnecting taken now
      exact ⟨started.distinct, started.wanted, started.configured, started.resolving, started.connecting⟩
    · exact taken

/-- One resolve of the host has been answered, and those of the other hosts are still outstanding. -/
theorem mem_answered {i : Nat} (answered : manager.resolves[i]? = some hname) {other : String}
    (member : other ∈ manager.resolves) (different : other ≠ hname) : other ∈ manager.resolves.eraseIdx i := by
  obtain ⟨j, position⟩ := List.mem_iff_getElem?.mp member
  rw [List.mem_eraseIdx_iff_getElem?]
  refine ⟨j, ?_, position⟩
  rintro rfl
  exact different (Option.some.inj (position.symm.trans answered))

/-- An answer sets the status of its host, whatever it is set to. -/
theorem tended_answered (tended : Tended live manager) {i : Nat} (answered : manager.resolves[i]? = some hname)
    (now : Nat) {status : HostStatus} (other : status ≠ .resolving)
    (connecting : status = .connecting ∨ status = .connected → live hname) :
    Tended live { manager.setStatus now hname status with resolves := manager.resolves.eraseIdx i } := by
  apply tended_setStatus tended now
  · exact fun name member different => mem_answered answered member different
  · exact fun name member => tended.configured name (List.mem_of_mem_eraseIdx member)
  · exact fun resolving => absurd resolving other
  · exact connecting

/-- An answer leaves the status of its host as it is. -/
theorem tended_unchanged (tended : Tended live manager) {i : Nat}
    (answered : manager.resolves[i]? = some hname) {status : HostStatus}
    (before : manager.status hname = some status) (other : status ≠ .resolving) :
    Tended live { manager with resolves := manager.resolves.eraseIdx i } where
  distinct := tended.distinct
  wanted := tended.wanted
  configured name member := tended.configured name (List.mem_of_mem_eraseIdx member)
  resolving rh member resolving := by
    apply mem_answered answered (tended.resolving rh member resolving)
    intro same
    obtain ⟨rh', found, isStatus⟩ := Option.map_eq_some_iff.mp before
    have name : rh'.hostname = hname := by simpa using List.find?_some found
    -- there is only one host of this name
    obtain rfl := List.inj_on_of_nodup_map tended.distinct member (List.mem_of_find?_eq_some found)
      (same.trans name.symm)
    exact other (isStatus.symm.trans resolving)
  connecting := tended.connecting

/-- After an answer that is not an error there is a host with the status that it stands for. -/
theorem exists_marked (now : Nat) (status : HostStatus)
    (configured : ∃ rh ∈ manager.connectTo, rh.hostname = hname) :
    ∃ rh ∈ (if manager.status hname = some status then manager
      else manager.setStatus now hname status).connectTo, rh.hostname = hname ∧ rh.status = status := by
  split
  next before =>
    obtain ⟨rh, found, isStatus⟩ := Option.map_eq_some_iff.mp before
    exact ⟨rh, List.mem_of_find?_eq_some found, by simpa using List.find?_some found, isStatus⟩
  next =>
    obtain ⟨rh, member, name⟩ := configured
    refine ⟨rh.setStatus now status, ?_, name, rfl⟩
    exact List.mem_map.mpr ⟨rh, member, if_pos name⟩

/-- A host with a new name has not been looked up yet. -/
theorem tended_addHost (tended : Tended live manager) (wanted : 1 ≤ manager.wantedConnections)
    (absent : ∀ rh ∈ manager.connectTo, rh.hostname ≠ hname) (now : Nat) :
    Tended live { manager with connectTo := manager.connectTo ++
      [⟨hname, toString manager.port, .initial, now, manager.wantedConnections⟩] } where
  distinct := by
    rw [List.map_append]
    apply List.nodup_append.mpr
    refine ⟨tended.distinct, List.nodup_singleton _, ?_⟩
    intro name before other new same
    obtain ⟨rh, member, rfl⟩ := List.mem_map.mp before
    exact absent rh member (same.trans (List.mem_singleton.mp new))
  wanted rh member := by
    rcases List.mem_append.mp member with before | new
    · exact tended.wanted rh before
    · rw [List.mem_singleton.mp new]
      exact wanted
  configured name member := by
    obtain ⟨rh, before, same⟩ := tended.configured name member
    exact ⟨rh, List.mem_append_left _ before, same⟩
  resolving rh member isResolving := by
    rcases List.mem_append.mp member with before | new
    · exact tended.resolving rh before isResolving
    · rw [List.mem_singleton.mp new] at isResolving
      cases isResolving
  connecting rh member isConnecting := by
    rcases List.mem_append.mp member with before | new
    · exact tended.connecting rh before isConnecting
    · rw [List.mem_singleton.mp new] at isConnecting
      rcases isConnecting with same | same <;> cases same

theorem tended_initial (config : UConfig) (now : Nat) (remotes : List String) :
    Tended live (Server.initial config now remotes).outman := by
  have hosts := @OutgoingManager.addHosts_rule
    (fun manager => Tended live manager ∧ manager.wantedConnections = 2) config now (by
      intro manager hname ⟨tended, two⟩ absent
      exact ⟨tended_addHost tended (by omega) absent now, two⟩)
    (.new 32300 2) ⟨⟨List.nodup_nil, nofun, nofun, nofun, nofun⟩, rfl⟩ remotes
  exact ⟨hosts.1.distinct, hosts.1.wanted, hosts.1.configured, hosts.1.resolving, hosts.1.connecting⟩

end Manager

/-! ## The sessions -/

section Sessions

variable {json : JsonCodec} {config : UConfig} {pid : Nat} {s t : Server} {sid : SessionId} {hname : String}

theorem live_persist (persist : s.store.Persist t.store) (next : t.nextSession = s.nextSession)
    (live : Live s hname) : Live t hname := by
  obtain ⟨sid, created, running, slot⟩ := live
  exact ⟨sid, next ▸ created, (persist sid).stopped.trans running, (persist sid).closedSlots slot⟩

theorem live_create (direction : Direction) (ip : String) (live : Live s hname) :
    Live (s.createSession direction ip) hname := by
  obtain ⟨sid, created, running, slot⟩ := live
  have same := Server.createSession_other direction ip (Nat.ne_of_lt created)
  exact ⟨sid, Nat.lt_succ_of_lt created, by rwa [same], by rwa [same]⟩

/-- The slot of the manager on `s_closed` runs for every host of the session that stops. -/
theorem tended_stop (tended : Tended (Live s) s.outman) (running : (s.store.session sid).stopped = false) :
    Tended (Live (s.stop sid)) (s.stop sid).outman := by
  have closing := Server.closing_stop running
  have before : Tended (Live s) (s.stop sid).outman :=
    closing.outman (Tended (Live s)) (fun outman name tended => tended_sessionClosed tended _ name) tended
  refine ⟨before.distinct, before.wanted, before.configured, before.resolving, ?_⟩
  intro rh member connecting
  obtain ⟨other, created, goesOn, slot⟩ := before.connecting rh member connecting
  have created : other < (s.stop sid).nextSession := closing.nextSession ▸ created
  by_cases same : other = sid
  · subst same
    have connected : .host rh.hostname ∈
        ((s.withStore (s.store.set other (s.store.session other).stop)).store.session other).closedSlots := by
      simpa [Server.withStore, Session.stop] using slot
    obtain ⟨between, _, later⟩ := Server.emitClosed_slot connected
    rw [← Server.stop_eq running] at later
    -- the host is closed when its slot has run, and no other slot gives it another status
    have closed : ∀ rh' ∈ (s.stop other).outman.connectTo, rh'.hostname = rh.hostname → rh'.status = .closed := by
      apply later.outman fun outman =>
        ∀ rh' ∈ outman.connectTo, rh'.hostname = rh.hostname → rh'.status = .closed
      · intro outman name closed rh' member' same
        obtain ⟨old, known, name', _, status⟩ := mem_setStatus member'
        rw [status]
        split
        next => rfl
        next => exact closed old known (name'.symm.trans same)
      · intro rh' member' same
        obtain ⟨old, _, name', _, status⟩ := mem_setStatus member'
        rw [status, if_pos (name'.symm.trans same)]
    rw [closed rh member rfl] at connecting
    rcases connecting with same | same <;> cases same
  · refine ⟨other, created, ?_, ?_⟩
    · rw [Server.stop_session running, if_neg same]
      exact goesOn
    · rw [Server.stop_session running, if_neg same]
      exact slot

theorem kept_tended {own : String} : Server.Kept own fun s => Tended (Live s) s.outman where
  steady tended steady := by
    rw [steady.outman]
    exact tended.mono fun _ => live_persist steady.sessions steady.nextSession
  create ip tended := tended.mono fun _ => live_create .incoming ip
  stop := tended_stop

/-- The loop at the end of `connectResolved` leaves the other sessions alone, and a session that it
creates belongs to the host. -/
theorem live_createOutgoing (hname ip : String) (n : Nat) (s : Server) :
    (Server.createOutgoing hname ip n s).outman = s.outman ∧
      (∀ other, Live s other → Live (Server.createOutgoing hname ip n s) other) ∧
      (1 ≤ n → Live (Server.createOutgoing hname ip n s) hname) := by
  induction n generalizing s with
  | zero => exact ⟨rfl, fun _ => id, fun positive => absurd positive (by decide)⟩
  | succ n inductionHypothesis =>
    obtain ⟨store, turn, persist, slot⟩ := Server.createOutgoing_succ hname ip n s
    obtain ⟨outman, keeps, _⟩ := inductionHypothesis ((s.createSession .outgoing ip).withStore store)
    rw [turn]
    refine ⟨outman, ?_, ?_⟩
    · intro other live
      have created := live_create .outgoing ip live
      exact keeps other (@live_persist (s.createSession .outgoing ip)
        ((s.createSession .outgoing ip).withStore store) other persist rfl created)
    · intro _
      apply keeps
      have new : (store.session s.nextSession).stopped = false := by
        rw [(persist s.nextSession).stopped, Server.createSession_self]
        rfl
      exact ⟨s.nextSession, Nat.lt_succ_self _, new, slot⟩

/-- The server when an answer to a resolve has been taken. -/
def answeredAt (i : Nat) (s : Server) : Server :=
  { s with outman := { s.outman with resolves := s.outman.resolves.eraseIdx i } }

theorem connectResolved_some (hname ip : String) (s : Server) :
    s.connectResolved hname (some ip) =
      let answer := OutgoingManager.decision s.connectedFn (wantedOf s hname) (sessionsOf s ip)
      let server := { s with outman := s.outman.connectResolved s.store.now hname (some answer) }
      match answer with
      | .create sessions => Server.createOutgoing hname ip sessions server
      | _ => server := rfl

theorem tended_connectResolved {i : Nat} (tended : Tended (Live s) s.outman)
    (answered : s.outman.resolves[i]? = some hname) (answer : Option String)
    (own : ∀ ip, answer = some ip →
      OutgoingManager.Occupied s.connectedFn (wantedOf s hname) (sessionsOf s ip) → Live s hname) :
    Tended (Live ((answeredAt i s).connectResolved hname answer))
      ((answeredAt i s).connectResolved hname answer).outman := by
  have noted : ∀ (live : String → Prop) (status : HostStatus), Tended live s.outman → status ≠ .resolving →
      (status = .connecting ∨ status = .connected → live hname) →
      Tended live ((answeredAt i s).outman.setStatus s.store.now hname status) :=
    fun live status tended other connecting => tended_answered tended answered s.store.now other connecting
  cases answer with
  | none =>
    have failed := noted (Live s) .resolvingError tended (by decide) (by simp)
    exact ⟨failed.distinct, failed.wanted, failed.configured, failed.resolving, failed.connecting⟩
  | some ip =>
    have same : OutgoingManager.decision (answeredAt i s).connectedFn (wantedOf (answeredAt i s) hname)
        (sessionsOf (answeredAt i s) ip) =
          OutgoingManager.decision s.connectedFn (wantedOf s hname) (sessionsOf s ip) := rfl
    rw [connectResolved_some, same]
    rcases OutgoingManager.decision_cases s.connectedFn (wantedOf s hname) (sessionsOf s ip) with
      ⟨occupied, connected | waits⟩ | ⟨_, sessions, create, positive⟩
    · have live := own ip rfl occupied
      simp only [connected, OutgoingManager.connectResolved]
      split
      next before => exact tended_unchanged tended answered before (by decide)
      next => exact noted (Live s) .connected tended (by decide) fun _ => live
    · have live := own ip rfl occupied
      simp only [waits, OutgoingManager.connectResolved]
      split
      next before => exact tended_unchanged tended answered before (by decide)
      next => exact noted (Live s) .connecting tended (by decide) fun _ => live
    · simp only [create]
      generalize isManager : (answeredAt i s).outman.connectResolved (answeredAt i s).store.now hname
        (some (.create sessions)) = manager
      generalize isMarked : { answeredAt i s with outman := manager } = marked
      obtain ⟨outman, keeps, new⟩ := live_createOutgoing hname ip sessions marked
      have wanted : 1 ≤ wantedOf s hname := by
        obtain ⟨rh, member, name⟩ := tended.configured hname (List.mem_of_getElem? answered)
        cases found : s.outman.connectTo.find? (·.hostname == hname) with
        | none => exact absurd (beq_iff_eq.mpr name) (List.find?_eq_none.mp found rh member)
        | some rh' =>
          rw [wantedOf, found]
          exact tended.wanted rh' (List.mem_of_find?_eq_some found)
      have live := new (positive wanted)
      have more : ∀ other, Live s other → Live (Server.createOutgoing hname ip sessions marked) other := by
        intro other live
        apply keeps
        rw [← isMarked]
        exact live
      have isNoted : marked.outman = (answeredAt i s).outman.setStatus s.store.now hname .connecting := by
        rw [← isMarked, ← isManager]
        rfl
      rw [outman, isNoted]
      exact noted _ .connecting (tended.mono more) (by decide) fun _ => live

/-! ## Runs -/

theorem progress_of_tended (tended : Tended (Live s) s.outman) : Progress s :=
  ⟨tended.resolving, tended.connecting⟩

theorem tended_server_step (lawful : json.Lawful) {e : ServerEvent} (tended : Tended (Live s) s.outman)
    (next : s.step json config pid e = some t) (own : HasItsOwn s e) : Tended (Live t) t.outman := by
  apply kept_tended.step_session tended next
  · intro e' alone next
    obtain ⟨manager, stepped, rfl⟩ := Option.map_eq_some_iff.mp next
    exact tended_step tended alone stepped
  · rintro i answer rfl
    obtain ⟨hname, answered, rfl⟩ := Option.map_eq_some_iff.mp next
    apply tended_connectResolved tended answered answer
    rintro ip rfl
    exact own hname answered
  · rintro sid header body rfl _ _
    apply kept_tended.dispatchMsg_sessions lawful tended
    · intro s t tended persist _ next outman
      rw [outman]
      exact tended.mono fun _ => live_persist persist next
    · intro msg _ _
      apply tended.mono
      rintro hname ⟨other, created, running, slot⟩
      refine ⟨other, created, ?_, ?_⟩
      · exact (Sessions.set_congr (·.stopped) (by rfl) other).trans running
      · rw [Server.withStore, Sessions.set_congr (·.closedSlots) (by rfl) other]
        exact slot

/-- A host that is given no session and has none of its own waits for nothing. -/
theorem stranded_step {e : ServerEvent} (tended : Tended (Live s) s.outman)
    (next : s.step json config pid e = some t) (alone : ¬ HasItsOwn s e) : ¬ Progress t := by
  cases e with
  | resolved i answer =>
    cases answer with
    | none => exact absurd trivial alone
    | some ip =>
      simp only [HasItsOwn, not_forall] at alone
      obtain ⟨hname, answered, occupied, dead⟩ := alone
      have isNext : t = (answeredAt i s).connectResolved hname (some ip) := by
        have step : s.step json config pid (.resolved i (some ip)) =
            some ((answeredAt i s).connectResolved hname (some ip)) := by
          simp only [Server.step, answered, Option.map_some]
          rfl
        exact Option.some.inj (next.symm.trans step)
      have configured := tended.configured hname (List.mem_of_getElem? answered)
      have same : OutgoingManager.decision (answeredAt i s).connectedFn (wantedOf (answeredAt i s) hname)
          (sessionsOf (answeredAt i s) ip) =
            OutgoingManager.decision s.connectedFn (wantedOf s hname) (sessionsOf s ip) := rfl
      rw [connectResolved_some, same] at isNext
      rcases OutgoingManager.decision_cases s.connectedFn (wantedOf s hname) (sessionsOf s ip) with
        ⟨_, connected | waits⟩ | ⟨free, _⟩
      · simp only [connected] at isNext
        subst isNext
        obtain ⟨rh, member, rfl, status⟩ :=
          @exists_marked (answeredAt i s).outman hname s.store.now .connected configured
        exact fun progress => dead (progress.connecting rh member (.inr status))
      · simp only [waits] at isNext
        subst isNext
        obtain ⟨rh, member, rfl, status⟩ :=
          @exists_marked (answeredAt i s).outman hname s.store.now .connecting configured
        exact fun progress => dead (progress.connecting rh member (.inl status))
      · exact absurd occupied free
  | _ => exact absurd trivial alone

/-- The runs of a server in which no configured host waits for nothing are exactly those in which a host
whose address needs no further connection has a session of its own. -/
theorem progress_runs_iff (lawful : json.Lawful) (config : UConfig) (now : Nat) (remotes : List String)
    (events : List ServerEvent) :
    Always (Server.step json config pid) Progress (.initial config now remotes) events ↔
      Meets (Server.step json config pid) HasItsOwn (.initial config now remotes) events := by
  apply @always_iff_meets _ _ _ fun s => Tended (Live s) s.outman
  · exact progress_of_tended
  · exact tended_server_step lawful
  · exact stranded_step
  · exact tended_initial config now remotes

end Sessions

/-- One configured host, whose two sessions are started. -/
theorem progress_runs_one_host :
    Always (Server.step Json.compactJson ⟨"beta", "userver"⟩ 1) Progress
      (.initial ⟨"beta", "userver"⟩ 0 ["alpha"]) [.fire, .onTimer 0, .resolved 0 (some "10.0.0.7")] := by
  apply (progress_runs_iff Json.compactJson_lawful _ 0 ["alpha"] _).mpr
  rintro s ⟨rfl⟩
  refine ⟨trivial, ?_⟩
  rintro t ⟨rfl⟩
  refine ⟨trivial, ?_⟩
  rintro u ⟨rfl⟩
  refine ⟨?_, trivial⟩
  -- there are no sessions at the address yet
  rintro hname _ (⟨node, member, _⟩ | ⟨_, waiting⟩)
  · cases member
  · cases waiting

/-- The second of two hosts of one address gets no session: it is left with the status connecting. -/
theorem second_host_is_stranded :
    ¬ Always (Server.step Json.compactJson ⟨"beta", "userver"⟩ 1) Progress
      (.initial ⟨"beta", "userver"⟩ 0 ["alpha", "mirror"])
      [.fire, .onTimer 0, .resolved 0 (some "10.0.0.7"), .resolved 0 (some "10.0.0.7")] := by
  intro always
  have reached : exec (Server.step Json.compactJson ⟨"beta", "userver"⟩ 1)
      (.initial ⟨"beta", "userver"⟩ 0 ["alpha", "mirror"])
      [.fire, .onTimer 0, .resolved 0 (some "10.0.0.7"), .resolved 0 (some "10.0.0.7")] = some _ := rfl
  have progress := always.last reached
  obtain ⟨sid, created, _, slot⟩ :=
    progress.connecting ⟨"mirror", "32300", .connecting, 0, 2⟩ (by decide) (.inl rfl)
  have created : sid < 2 := created
  rcases Nat.lt_succ_iff_lt_or_eq.mp created with first | rfl
  · obtain rfl : sid = 0 := Nat.lt_one_iff.mp first
    exact absurd slot (by decide)
  · exact absurd slot (by decide)

end Uzel.Verified.HostProgress
