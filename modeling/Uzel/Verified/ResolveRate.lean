import Mathlib.Algebra.Order.BigOperators.Group.List
import Uzel.Foundation.Json
import Uzel.Foundation.Simulation
import Uzel.ServerRules

/-! # How often a server looks up a host

A host is looked up again when its last failure or close is more than 30 seconds old.  `poke()` makes
the timer of the manager expire at once, after every failure and every close, so the pause is all that
keeps a server from calling a dead host in a loop.

What a server does to its manager is a run of the manager on its own (`manager_simulates`), so the two
facts about the manager are proved there: a host that has been looked up bears a later time stamp, and
the time stamps account for all lookups so far (`Ledger`).  `lookups_spaced` and `connections_bounded`
say what follows for the server.
-/

namespace Uzel

open Foundation

/-- What the manager of a server sees. -/
def Server.managed (s : Server) : ManagerState := ⟨s.store.now, s.outman⟩

end Uzel

namespace Uzel.Verified.ResolveRate

open Foundation

/-! ## The manager of a server -/

section Refinement

variable {json : JsonCodec} {config : UConfig} {pid : Nat} {P : ManagerState → Prop} {s t : Server}

theorem managed_grows {store : Sessions} (holds : P s.managed) (grows : s.store.Grows store) :
    P (s.withStore store).managed := by
  have same : (s.withStore store).managed = s.managed := by
    simp [Server.managed, Server.withStore, grows.now]
  exact same ▸ holds

theorem managed_handleAny {msg : Msg} (holds : P s.managed) :
    (Server.handleAny json msg s).All fun after => P after.2.managed := by
  apply @Server.all_handleAny json (fun t => P t.managed) msg s holds
  · intro app sid t _ holds
    apply Outcome.all_map.mpr
    exact (Sessions.grows_putOutQueue json sid msg t.store).mono fun _ => managed_grows holds
  · intro node t _ holds
    apply Outcome.all_map.mpr
    apply Outcome.all_of_final
    rintro ⟨changed, after⟩ final
    exact @managed_grows P t after holds (Remote.grows_send final)

/-- A message of a session leaves the manager alone. -/
theorem managed_dispatchMsg {sid : SessionId} {header : PTree} {body : Body} (holds : P s.managed) :
    (s.dispatchMsg json config sid header body).All fun t => P t.managed := by
  generalize isKnown : s.withStore (s.store.set sid { s.store.session sid with
    msg1 := some (.incoming config header body (some sid)) }) = known
  have known_holds : P known.managed := by
    rw [← isKnown]
    exact holds
  apply Server.dispatchMsg_calls rfl isKnown.symm
  · rintro _ _ _ t (rfl | ⟨old, after, _, taken, rfl⟩)
    · exact known_holds
    · have now : after.now = known.store.now := by
        have called : (known.store.takeOverSession sid old).All fun after => after.now = known.store.now := by
          unfold Sessions.takeOverSession
          split
          · split
            · rfl
            · trivial
          · apply Outcome.all_map.mpr
            exact (Sessions.grows_takeOverQueue sid _ known.store).mono fun _ grows => grows.now
        rw [taken] at called
        exact called
      show P ⟨after.now, known.outman⟩
      rw [now]
      exact known_holds
  · intro _ _ _ changed after final
    exact @managed_grows P known after known_holds
      ((Remote.grows_addSession json config sid _ known.store).of_final final)
  · intro _ _
    exact (Sessions.grows_gracefullClose json config sid _ s.store).mono fun _ => managed_grows holds
  · exact fun _ => ⟨holds, holds⟩
  · intro _ _ _ remote left changed after _ final
    exact @managed_grows P s after holds (Remote.grows_handlePriorityMsg final)
  · exact fun _ body t holds => managed_handleAny holds

section Closing

variable (closed : ∀ m hname, P m → P { m with manager := m.manager.sessionClosed m.now hname })

include closed

theorem managed_emitClosed (holds : P s.managed) (sid : SessionId) : P (s.emitClosed sid).managed := by
  unfold Server.emitClosed
  generalize (s.store.session sid).closedSlots = slots
  induction slots generalizing s with
  | nil => exact holds
  | cons slot slots inductionHypothesis =>
    apply inductionHypothesis
    cases slot with
    | registry => exact holds
    | host name => exact closed _ name holds
    | remote node =>
      simp only [Server.onClosed]
      split
      · exact holds
      · exact holds

theorem managed_stop (holds : P s.managed) (sid : SessionId) : P (s.stop sid).managed := by
  unfold Server.stop
  dsimp only
  split
  · exact holds
  · have stopped : P (s.withStore (s.store.set sid (s.store.session sid).stop)).managed := holds
    exact managed_emitClosed closed stopped sid

end Closing

theorem managed_createOutgoing (hname ip : String) (sessionsToCreate : Nat) (s : Server) :
    (Server.createOutgoing hname ip sessionsToCreate s).managed = s.managed := by
  induction sessionsToCreate generalizing s with
  | zero => rfl
  | succ sessionsToCreate inductionHypothesis =>
    simp only [Server.createOutgoing]
    rw [inductionHypothesis]
    rfl

/-- What `connectResolved` makes of an answer in the state of the server. -/
def decisionOf (s : Server) (hname : String) (answer : Option String) : Option Decision :=
  answer.map fun ip =>
    OutgoingManager.decision s.connectedFn
      (((s.outman.connectTo.find? (·.hostname == hname)).map (·.wantedConnections)).getD 0)
      ((s.ipToSession ip).map fun sid => ((s.store.session sid).direction, (s.store.session sid).peerNode))

theorem managed_connectResolved (hname : String) (answer : Option String) (s : Server) :
    (s.connectResolved hname answer).managed =
      ⟨s.store.now, s.outman.connectResolved s.store.now hname (decisionOf s hname answer)⟩ := by
  cases answer with
  | none => rfl
  | some ip =>
    simp only [Server.connectResolved]
    split
    next create =>
      rw [managed_createOutgoing, decisionOf, Option.map_some, create]
      rfl
    next => rfl

theorem resolved_managed {i : Nat} {hname : String} (outstanding : s.outman.resolves[i]? = some hname)
    (answer : Option String) : ∃ decided, s.managed.step (.resolved i decided) = some
      ({ s with outman := { s.outman with resolves := s.outman.resolves.eraseIdx i } }.connectResolved
        hname answer).managed := by
  refine ⟨decisionOf { s with outman := { s.outman with
    resolves := s.outman.resolves.eraseIdx i } } hname answer, ?_⟩
  rw [managed_connectResolved]
  simp only [ManagerState.step, Server.managed, outstanding, Option.map_some]

/-- Nothing but time itself moves the clock of the manager. -/
theorem now_step {m after : ManagerState} {e : ManagerEvent} (stepped : m.step e = some after)
    (instant : ∀ elapsed, e ≠ .tick elapsed) : after.now = m.now := by
  cases e with
  | tick elapsed => exact absurd rfl (instant elapsed)
  | fire =>
    obtain ⟨_, _, rfl⟩ := Option.map_eq_some_iff.mp stepped
    rfl
  | onTimer i =>
    obtain ⟨_, _, rfl⟩ := Option.map_eq_some_iff.mp stepped
    rfl
  | pokeTask =>
    simp only [ManagerState.step] at stepped
    split at stepped
    · cases stepped
      rfl
    · cases stepped
  | resolved i answer =>
    obtain ⟨_, _, rfl⟩ := Option.map_eq_some_iff.mp stepped
    rfl
  | sessionClosed hname =>
    cases stepped
    rfl

/-- The sessions that may be created when the event has been handled. -/
def paid : ManagerEvent → Nat
  | .resolved _ _ => 2
  | _ => 0

/-- Seen at its manager, a server takes one step, an answer for an answer, or only ends sessions. -/
theorem managed_step {e : ServerEvent} (next : s.step json config pid e = some t) :
    (∃ e', s.managed.step e' = some t.managed ∧ (paid e' ≠ 0 → ∃ i answer, e = .resolved i answer)) ∨
      ∃ names : List String, exec ManagerState.step s.managed (names.map .sessionClosed) = some t.managed := by
  generalize isClosed : (fun m : ManagerState => ∃ names : List String,
    exec ManagerState.step s.managed (names.map .sessionClosed) = some m) = Closed
  have closed : ∀ m hname, Closed m → Closed { m with manager := m.manager.sessionClosed m.now hname } := by
    rw [← isClosed]
    rintro m hname ⟨names, executed⟩
    refine ⟨names ++ [hname], ?_⟩
    rw [List.map_append, exec_append_some]
    exact ⟨m, executed, rfl⟩
  have start : Closed s.managed := by
    rw [← isClosed]
    exact ⟨[], rfl⟩
  have run : Closed t.managed →
      (∃ e', s.managed.step e' = some t.managed ∧ (paid e' ≠ 0 → ∃ i answer, e = .resolved i answer)) ∨
      ∃ names : List String, exec ManagerState.step s.managed (names.map .sessionClosed) = some t.managed := by
    rw [← isClosed]
    exact .inr
  have manager : ∀ e', (e' = .fire ∨ e' = .pokeTask ∨ ∃ i, e' = .onTimer i) → s.managerStep e' = some t →
      s.managed.step e' = some t.managed := by
    intro e' alone stepped
    obtain ⟨⟨now, manager⟩, first, rfl⟩ := Option.map_eq_some_iff.mp stepped
    obtain rfl : now = s.store.now := now_step first (by rcases alone with rfl | rfl | ⟨i, rfl⟩ <;> simp)
    exact first
  cases e with
  | tick elapsed =>
    cases next
    exact .inl ⟨.tick elapsed, rfl, absurd rfl⟩
  | fire => exact .inl ⟨.fire, manager .fire (.inl rfl) next, absurd rfl⟩
  | onTimer i => exact .inl ⟨.onTimer i, manager (.onTimer i) (.inr (.inr ⟨i, rfl⟩)) next, absurd rfl⟩
  | pokeTask => exact .inl ⟨.pokeTask, manager .pokeTask (.inr (.inl rfl)) next, absurd rfl⟩
  | resolved i answer =>
    obtain ⟨hname, outstanding, rfl⟩ := Option.map_eq_some_iff.mp next
    obtain ⟨decided, stepped⟩ := resolved_managed outstanding answer
    exact .inl ⟨_, stepped, fun _ => ⟨i, answer, rfl⟩⟩
  | accept raddr =>
    apply run
    exact Server.returned_all (Server.all_accept (P := fun t => Closed t.managed) managed_grows start) next
  | connectHandler sid ok =>
    obtain ⟨outcome, connected, next⟩ := Option.bind_eq_some_iff.mp next
    apply run
    apply Server.returned_all _ next
    apply Server.all_connectHandler (P := fun t => Closed t.managed) managed_grows start _ connected
    intro _
    apply managed_stop closed
    exact start
  | received sid header body =>
    apply run
    have dispatched := @managed_dispatchMsg json config Closed s sid header body start
    rcases (Server.received_cases next).2 with done | ⟨u, raised, rfl⟩
    · rw [done] at dispatched
      exact dispatched
    · rw [raised] at dispatched
      apply managed_stop closed
      exact dispatched
  | readAgain sid processor =>
    obtain ⟨_, rfl⟩ := Server.step_readAgain next
    exact run start
  | readFailed sid =>
    obtain ⟨_, rfl⟩ := Server.step_readFailed next
    apply run
    apply managed_stop closed
    exact start
  | written sid i ok =>
    obtain ⟨outcome, completed, next⟩ := Option.bind_eq_some_iff.mp next
    obtain ⟨ss, written, _, next⟩ := Server.onWrite_returned completed next
    apply run
    rcases next with ⟨_, _, rfl⟩ | ⟨_, rfl⟩
    · apply managed_emitClosed closed
      exact start
    · exact start

theorem manager_simulates : Simulates (Server.step json config pid) ManagerState.step
    (fun s m => m = s.managed) := by
  rintro s t _ e rfl next
  rcases managed_step next with ⟨e', stepped, _⟩ | ⟨names, executed⟩
  · exact ⟨[e'], t.managed, exec_singleton.trans stepped, rfl⟩
  · exact ⟨names.map .sessionClosed, t.managed, executed, rfl⟩

end Refinement

/-! ## What the manager does to its hosts -/

section Hosts

variable {now : Nat} {manager : OutgoingManager}

/-- A host when the loop of `startConnecting` has come by. -/
def visited (now : Nat) (rh : RemoteHostToConnect) : RemoteHostToConnect :=
  if OutgoingManager.due now rh then rh.setStatus now .resolving else rh

@[simp] theorem visited_hostname (now : Nat) (rh : RemoteHostToConnect) :
    (visited now rh).hostname = rh.hostname := by
  unfold visited
  split <;> rfl

/-- A status is set for the one host of the name. -/
theorem setStatus_only {before rest : List RemoteHostToConnect} {rh : RemoteHostToConnect}
    (distinct : ((before ++ rh :: rest).map (·.hostname)).Nodup) (status : HostStatus)
    (hosts : manager.connectTo = before.map (visited now) ++ rh :: rest) :
    manager.setStatus now rh.hostname status =
      { manager with connectTo := before.map (visited now) ++ rh.setStatus now status :: rest } := by
  rw [List.map_append, List.map_cons, List.nodup_middle, List.nodup_cons, ← List.map_append] at distinct
  have others : ∀ other ∈ before ++ rest, other.hostname ≠ rh.hostname :=
    fun other member same => distinct.1 (same ▸ List.mem_map_of_mem member)
  have sameBefore : (before.map (visited now)).map (fun rh' =>
      if rh'.hostname = rh.hostname then rh'.setStatus now status else rh') = before.map (visited now) := by
    rw [List.map_map]
    apply List.map_congr_left
    intro other member
    have other_name := others other (List.mem_append_left _ member)
    simp [other_name]
  have sameRest : rest.map (fun rh' =>
      if rh'.hostname = rh.hostname then rh'.setStatus now status else rh') = rest := by
    apply (List.map_congr_left (g := id) _).trans (List.map_id _)
    intro other member
    exact if_neg (others other (List.mem_append_right _ member))
  simp only [OutgoingManager.setStatus, hosts, List.map_append, List.map_cons, sameBefore, sameRest, if_true]

/-- The loop of `startConnecting` when each host has a name of its own. -/
theorem startConnecting_eq (distinct : (manager.connectTo.map (·.hostname)).Nodup) (now : Nat) :
    manager.startConnecting now = { manager with
      connectTo := manager.connectTo.map (visited now)
      resolves := manager.resolves ++ (manager.connectTo.filter (OutgoingManager.due now)).map (·.hostname) } := by
  have turns : ∀ (rest before : List RemoteHostToConnect) (resolves : List String),
      ((before ++ rest).map (·.hostname)).Nodup →
      rest.foldl (fun manager rh =>
          if OutgoingManager.due now rh then OutgoingManager.startResolving now rh manager else manager)
        { manager with connectTo := before.map (visited now) ++ rest, resolves } =
      { manager with
        connectTo := (before ++ rest).map (visited now)
        resolves := resolves ++ (rest.filter (OutgoingManager.due now)).map (·.hostname) } := by
    intro rest
    induction rest with
    | nil => simp
    | cons rh rest inductionHypothesis =>
      intro before resolves distinct
      have further := inductionHypothesis (before ++ [rh])
      simp only [List.append_assoc, List.singleton_append, List.map_append, List.map_cons, List.map_nil]
        at further
      simp only [List.foldl_cons]
      by_cases isDue : OutgoingManager.due now rh = true
      · have marked := @setStatus_only now { manager with
          connectTo := before.map (visited now) ++ rh :: rest, resolves } before rest rh distinct .resolving rfl
        rw [if_pos isDue, OutgoingManager.startResolving, marked]
        have isVisited : visited now rh = rh.setStatus now .resolving := if_pos isDue
        have turn := further (resolves ++ [rh.hostname]) (by simpa using distinct)
        simp only [isVisited] at turn
        simpa [isDue, isVisited] using turn
      · have isVisited : visited now rh = rh := if_neg isDue
        have turn := further resolves (by simpa using distinct)
        simp only [isVisited] at turn
        simpa [isDue, isVisited] using turn
  exact turns manager.connectTo [] manager.resolves distinct

/-- A host that is due has not been looked up yet, or not for 31 seconds. -/
theorem due_cases {rh : RemoteHostToConnect} (isDue : OutgoingManager.due now rh = true) :
    rh.status = .initial ∨ rh.statusChangeTS + seconds 31 ≤ now := by
  unfold OutgoingManager.due at isDue
  split at isDue
  next initial => exact .inl initial
  case h_5 | h_6 | h_7 => cases isDue
  all_goals
    have old : delayReconnect < (now - rh.statusChangeTS) / 1000000000 := by simpa using isDue
    right
    simp only [delayReconnect, seconds] at old ⊢
    omega

/-- The hosts that change bear the time, and are not new any more. -/
structure Marks (now : Nat) (change : RemoteHostToConnect → RemoteHostToConnect) : Prop where
  hostname : ∀ rh, (change rh).hostname = rh.hostname
  wanted : ∀ rh, (change rh).wantedConnections = rh.wantedConnections
  marked : ∀ rh, change rh = rh ∨ ((change rh).status ≠ .initial ∧ (change rh).statusChangeTS = now)

theorem Marks.distinct {change : RemoteHostToConnect → RemoteHostToConnect} (marks : Marks now change)
    {hosts : List RemoteHostToConnect} (distinct : (hosts.map (·.hostname)).Nodup) :
    ((hosts.map change).map (·.hostname)).Nodup := by
  rw [List.map_map]
  exact (List.map_congr_left fun rh _ => marks.hostname rh).symm ▸ distinct

theorem marks_id (now : Nat) : Marks now id :=
  ⟨fun _ => rfl, fun _ => rfl, fun _ => .inl rfl⟩

theorem marks_setStatus (now : Nat) (hname : String) {status : HostStatus} (known : status ≠ .initial) :
    Marks now fun rh => if rh.hostname = hname then rh.setStatus now status else rh := by
  refine ⟨?_, ?_, ?_⟩
  all_goals
    intro rh
    split
  · rfl
  · rfl
  · rfl
  · rfl
  · exact .inr ⟨known, rfl⟩
  · exact .inl rfl

theorem marks_visited (now : Nat) : Marks now (visited now) := by
  refine ⟨visited_hostname now, ?_, ?_⟩
  all_goals
    intro rh
    unfold visited
    split
  · rfl
  · rfl
  · exact .inr ⟨HostStatus.noConfusion, rfl⟩
  · exact .inl rfl

/-- What a step can do: it marks hosts, and it ends a lookup, or leaves the lookups alone, or starts a
lookup of every host that is due. -/
theorem step_cases {m after : ManagerState} {e : ManagerEvent} (stepped : m.step e = some after)
    (distinct : (m.manager.connectTo.map (·.hostname)).Nodup) :
    m.now ≤ after.now ∧ ∃ change, Marks m.now change ∧
      after.manager.connectTo = m.manager.connectTo.map change ∧
      ((∃ i answer, e = .resolved i answer ∧ i < m.manager.resolves.length ∧
          after.manager.resolves = m.manager.resolves.eraseIdx i) ∨
        (paid e = 0 ∧ after.manager.resolves = m.manager.resolves) ∨
        (paid e = 0 ∧ change = visited m.now ∧ after.manager.resolves = m.manager.resolves ++
          (m.manager.connectTo.filter (OutgoingManager.due m.now)).map (·.hostname))) := by
  have same : m.manager.connectTo = m.manager.connectTo.map id := (List.map_id _).symm
  cases e with
  | tick elapsed =>
    cases stepped
    exact ⟨Nat.le_add_right _ _, id, marks_id m.now, same, .inr (.inl ⟨rfl, rfl⟩)⟩
  | fire =>
    obtain ⟨timer, _, rfl⟩ := Option.map_eq_some_iff.mp stepped
    exact ⟨Nat.le_refl _, id, marks_id m.now, same, .inr (.inl ⟨rfl, rfl⟩)⟩
  | onTimer i =>
    obtain ⟨ok, _, rfl⟩ := Option.map_eq_some_iff.mp stepped
    cases ok with
    | false => exact ⟨Nat.le_refl _, id, marks_id m.now, same, .inr (.inl ⟨rfl, rfl⟩)⟩
    | true =>
      have isStarted := @startConnecting_eq { m.manager with timer := { m.manager.timer with
        completions := m.manager.timer.completions.eraseIdx i } } distinct m.now
      exact ⟨Nat.le_refl _, visited m.now, marks_visited m.now, congrArg OutgoingManager.connectTo isStarted,
        .inr (.inr ⟨rfl, rfl, congrArg OutgoingManager.resolves isStarted⟩)⟩
  | pokeTask =>
    simp only [ManagerState.step] at stepped
    split at stepped
    · cases stepped
      exact ⟨Nat.le_refl _, id, marks_id m.now, same, .inr (.inl ⟨rfl, rfl⟩)⟩
    · cases stepped
  | resolved i answer =>
    obtain ⟨hname, outstanding, rfl⟩ := Option.map_eq_some_iff.mp stepped
    have length := (List.getElem?_eq_some_iff.mp outstanding).1
    have noted : ∀ status : HostStatus, status ≠ .initial → ∃ change, Marks m.now change ∧
        (m.manager.setStatus m.now hname status).connectTo = m.manager.connectTo.map change :=
      fun status known => ⟨_, marks_setStatus m.now hname known, rfl⟩
    refine ⟨Nat.le_refl _, ?_⟩
    simp only [OutgoingManager.connectResolved]
    split
    · obtain ⟨change, marks, hosts⟩ := noted .resolvingError (by decide)
      exact ⟨change, marks, hosts, .inl ⟨i, none, rfl, length, rfl⟩⟩
    · split
      · exact ⟨id, marks_id m.now, same, .inl ⟨i, _, rfl, length, rfl⟩⟩
      · obtain ⟨change, marks, hosts⟩ := noted .connected (by decide)
        exact ⟨change, marks, hosts, .inl ⟨i, _, rfl, length, rfl⟩⟩
    · split
      · exact ⟨id, marks_id m.now, same, .inl ⟨i, _, rfl, length, rfl⟩⟩
      · obtain ⟨change, marks, hosts⟩ := noted .connecting (by decide)
        exact ⟨change, marks, hosts, .inl ⟨i, _, rfl, length, rfl⟩⟩
    · obtain ⟨change, marks, hosts⟩ := noted .connecting (by decide)
      exact ⟨change, marks, hosts, .inl ⟨i, _, rfl, length, rfl⟩⟩
  | sessionClosed hname =>
    cases stepped
    exact ⟨Nat.le_refl _, _, @marks_setStatus m.now hname .closed (by decide), rfl, .inr (.inl ⟨rfl, rfl⟩)⟩

end Hosts

/-! ## The lookups that the time stamps account for -/

section Ledger

variable {start hosts created : Nat} {m after : ManagerState} {e : ManagerEvent}

/-- The lookups of a host so far are at most this many. -/
def lookupsOf (start : Nat) (rh : RemoteHostToConnect) : Nat :=
  if rh.status = .initial then 0 else 1 + (rh.statusChangeTS - start) / seconds 31

/-- Two sessions are created for a lookup at most, and the host of the lookup accounts for it. -/
structure Ledger (start hosts created : Nat) (m : ManagerState) : Prop where
  distinct : (m.manager.connectTo.map (·.hostname)).Nodup
  count : m.manager.connectTo.length ≤ hosts
  wanted : ∀ rh ∈ m.manager.connectTo, rh.wantedConnections = 2
  stamps : ∀ rh ∈ m.manager.connectTo, start ≤ rh.statusChangeTS ∧ rh.statusChangeTS ≤ m.now
  within : created + 2 * m.manager.resolves.length ≤ 2 * (m.manager.connectTo.map (lookupsOf start)).sum

theorem lookupsOf_marked {now : Nat} {change : RemoteHostToConnect → RemoteHostToConnect} (marks : Marks now change)
    {rh : RemoteHostToConnect} (stamp : rh.statusChangeTS ≤ now) :
    lookupsOf start rh ≤ lookupsOf start (change rh) := by
  rcases marks.marked rh with unchanged | ⟨known, marked⟩
  · rw [unchanged]
  · rw [lookupsOf, lookupsOf, if_neg known, marked]
    have ages : (rh.statusChangeTS - start) / seconds 31 ≤ (now - start) / seconds 31 :=
      Nat.div_le_div_right (by omega)
    split
    · exact Nat.zero_le _
    · omega

theorem lookupsOf_visited {now : Nat} {rh : RemoteHostToConnect} (first : start ≤ rh.statusChangeTS)
    (stamp : rh.statusChangeTS ≤ now) :
    lookupsOf start rh + (if OutgoingManager.due now rh then 1 else 0) ≤ lookupsOf start (visited now rh) := by
  unfold visited
  split
  next isDue =>
    have marked : lookupsOf start (rh.setStatus now .resolving) = 1 + (now - start) / seconds 31 := by
      simp [lookupsOf, RemoteHostToConnect.setStatus]
    rw [marked, lookupsOf]
    rcases due_cases isDue with initial | old
    · simp [initial]
    · have ages : (rh.statusChangeTS - start) / seconds 31 + 1 ≤ (now - start) / seconds 31 := by
        rw [← Nat.add_div_right _ (by decide)]
        exact Nat.div_le_div_right (by omega)
      generalize (rh.statusChangeTS - start) / seconds 31 = earlier at ages
      split <;> omega
  next => exact Nat.le_refl _

theorem length_filter_eq_sum {α : Type*} (p : α → Bool) (l : List α) :
    (l.map fun a => if p a then 1 else 0).sum = (l.filter p).length := by
  induction l with
  | nil => rfl
  | cons a l inductionHypothesis =>
    simp only [List.map_cons, List.sum_cons, inductionHypothesis, List.filter_cons]
    split
    · rw [List.length_cons, Nat.add_comm]
    · rw [Nat.zero_add]

/-- A step of the manager keeps the ledger, and an answer to a lookup pays for two sessions. -/
theorem ledger_step (ledger : Ledger start hosts created m) (stepped : m.step e = some after) :
    Ledger start hosts (created + paid e) after := by
  obtain ⟨later, change, marks, isMapped, resolves⟩ := step_cases stepped ledger.distinct
  refine ⟨?_, ?_, ?_, ?_, ?_⟩
  · rw [isMapped]
    exact marks.distinct ledger.distinct
  · rw [isMapped, List.length_map]
    exact ledger.count
  · intro rh member
    rw [isMapped] at member
    obtain ⟨old, known, rfl⟩ := List.mem_map.mp member
    exact (marks.wanted old).trans (ledger.wanted old known)
  · intro rh member
    rw [isMapped] at member
    obtain ⟨old, known, rfl⟩ := List.mem_map.mp member
    have stamps := ledger.stamps old known
    rcases marks.marked old with unchanged | ⟨_, marked⟩
    · rw [unchanged]
      omega
    · rw [marked]
      omega
  · have before := ledger.within
    rw [isMapped, List.map_map]
    have marked : (m.manager.connectTo.map (lookupsOf start)).sum ≤
        (m.manager.connectTo.map (lookupsOf start ∘ change)).sum :=
      List.sum_le_sum fun rh member => lookupsOf_marked marks (ledger.stamps rh member).2
    rcases resolves with ⟨i, answer, rfl, length, fewer⟩ | ⟨free, unchanged⟩ | ⟨free, rfl, more⟩
    · have one := List.length_eraseIdx_add_one length
      rw [fewer]
      simp only [paid]
      omega
    · rw [free, unchanged]
      omega
    · have sum : (m.manager.connectTo.map (lookupsOf start)).sum +
          (m.manager.connectTo.filter (OutgoingManager.due m.now)).length ≤
            (m.manager.connectTo.map (lookupsOf start ∘ visited m.now)).sum := by
        rw [← length_filter_eq_sum, ← List.sum_map_add]
        apply List.sum_le_sum
        intro rh member
        have stamps := ledger.stamps rh member
        exact lookupsOf_visited stamps.1 stamps.2
      rw [free, more, List.length_append, List.length_map]
      omega

/-- The lookups of all hosts are bounded by the time that has passed. -/
theorem Ledger.bound (ledger : Ledger start hosts created m) :
    created ≤ 2 * hosts * (1 + (m.now - start) / seconds 31) := by
  have each : ∀ n ∈ m.manager.connectTo.map (lookupsOf start), n ≤ 1 + (m.now - start) / seconds 31 := by
    intro n member
    obtain ⟨rh, known, rfl⟩ := List.mem_map.mp member
    unfold lookupsOf
    split
    · exact Nat.zero_le _
    · have ages : (rh.statusChangeTS - start) / seconds 31 ≤ (m.now - start) / seconds 31 :=
        Nat.div_le_div_right (Nat.sub_le_sub_right (ledger.stamps rh known).2 start)
      omega
  have within := ledger.within
  calc created ≤ 2 * (m.manager.connectTo.map (lookupsOf start)).sum := by omega
    _ ≤ 2 * (m.manager.connectTo.length * (1 + (m.now - start) / seconds 31)) := by
      have sum := List.sum_le_card_nsmul _ _ each
      rw [List.length_map] at sum
      exact Nat.mul_le_mul_left 2 sum
    _ ≤ 2 * (hosts * (1 + (m.now - start) / seconds 31)) := by
      have count := Nat.mul_le_mul_right (1 + (m.now - start) / seconds 31) ledger.count
      omega
    _ = 2 * hosts * (1 + (m.now - start) / seconds 31) := (Nat.mul_assoc _ _ _).symm

end Ledger

/-! ## The sessions of a server -/

section Sessions

variable {json : JsonCodec} {config : UConfig} {pid start hosts : Nat} {s t : Server}

/-- The number of outgoing sessions that have been created. -/
def outgoing (s : Server) : Nat :=
  (List.range s.nextSession).countP fun sid => (s.store.session sid).direction = .outgoing

theorem outgoing_congr (next : t.nextSession = s.nextSession)
    (same : ∀ sid, (t.store.session sid).direction = (s.store.session sid).direction) : outgoing t = outgoing s := by
  unfold outgoing
  rw [next]
  apply List.countP_congr
  intro sid _
  rw [same]

theorem outgoing_create (direction : Direction) (ip : String) (s : Server) :
    outgoing (s.createSession direction ip) = outgoing s + if direction = .outgoing then 1 else 0 := by
  have count : (s.createSession direction ip).nextSession = s.nextSession + 1 := rfl
  rw [outgoing, count, List.range_succ, List.countP_append, List.countP_singleton, Server.createSession_self]
  congr 1
  · apply List.countP_congr
    intro sid old
    rw [Server.createSession_other direction ip (Nat.ne_of_lt (List.mem_range.mp old))]
  · cases direction <;> rfl

theorem outgoing_createOutgoing (hname ip : String) (sessionsToCreate : Nat) (s : Server) :
    outgoing (Server.createOutgoing hname ip sessionsToCreate s) = outgoing s + sessionsToCreate := by
  induction sessionsToCreate generalizing s with
  | zero => rfl
  | succ sessionsToCreate inductionHypothesis =>
    obtain ⟨store, turn, persist, _⟩ := Server.createOutgoing_succ hname ip sessionsToCreate s
    rw [turn, inductionHypothesis]
    have same : outgoing ((s.createSession .outgoing ip).withStore store) = outgoing s + 1 := by
      have created := @outgoing_congr (s.createSession .outgoing ip)
        ((s.createSession .outgoing ip).withStore store) rfl fun sid => (persist sid).direction
      rw [created, outgoing_create, if_pos rfl]
    omega

theorem kept_outgoing (own : String) (n : Nat) : Server.Kept own fun s => outgoing s = n where
  steady count steady := (outgoing_congr steady.nextSession fun sid => (steady.sessions sid).direction).trans count
  create ip count := (outgoing_create .incoming ip _).trans count
  stop := by
    intro s stopped count running
    have closing := Server.closing_stop running
    have same : outgoing (s.stop stopped) = outgoing s := by
      apply @outgoing_congr s (s.stop stopped) closing.nextSession
      intro sid
      rw [Server.stop_session running]
      split
      next same =>
        rw [same]
        rfl
      next => rfl
    exact same.trans count

/-- Only an answer to a lookup creates outgoing sessions. -/
theorem outgoing_step (lawful : json.Lawful) {e : ServerEvent} (next : s.step json config pid e = some t)
    (other : ∀ i answer, e ≠ .resolved i answer) : outgoing t = outgoing s := by
  have kept := kept_outgoing config.nodeName (outgoing s)
  apply kept.step_session rfl next
  · intro e' _ next
    obtain ⟨m, _, rfl⟩ := Option.map_eq_some_iff.mp next
    exact rfl
  · exact fun i answer isAnswer => absurd isAnswer (other i answer)
  · rintro sid header body rfl _ _
    apply kept.dispatchMsg_sessions lawful rfl
    · exact fun count persist _ next _ =>
        (outgoing_congr next fun sid => (persist sid).direction).trans count
    · intro msg _ _
      refine @outgoing_congr s (s.withStore _) rfl fun other => ?_
      exact Sessions.set_congr (·.direction) (by rfl) other

theorem decision_le {connectedFn : String → Option Bool} {wanted sessions : Nat}
    {found : List (Direction × Option String)}
    (create : OutgoingManager.decision connectedFn wanted found = .create sessions) : sessions ≤ max wanted 1 := by
  unfold OutgoingManager.decision at create
  split at create
  · cases create
    exact Nat.le_max_left _ _
  · split at create
    · cases create
    · split at create
      · split at create <;> cases create
        exact Nat.le_max_right _ _
      · cases create
        exact (Nat.sub_le _ _).trans (Nat.le_max_left _ _)

/-- An answer creates as many sessions as are wanted for a host, at most. -/
theorem outgoing_connectResolved (wanted : ∀ rh ∈ s.outman.connectTo, rh.wantedConnections = 2) (hname : String)
    (answer : Option String) : outgoing (s.connectResolved hname answer) ≤ outgoing s + 2 := by
  cases answer with
  | none => exact Nat.le_add_right _ _
  | some ip =>
    simp only [Server.connectResolved]
    split
    next sessions create =>
      have two : ((s.outman.connectTo.find? (·.hostname == hname)).map (·.wantedConnections)).getD 0 ≤ 2 := by
        cases found : s.outman.connectTo.find? (·.hostname == hname) with
        | none => exact Nat.zero_le _
        | some rh => exact (wanted rh (List.mem_of_find?_eq_some found)).le
      have few := decision_le create
      rw [outgoing_createOutgoing]
      show outgoing s + sessions ≤ outgoing s + 2
      omega
    next => exact Nat.le_add_right _ _

theorem Ledger.less {m : ManagerState} {created fewer : Nat} (ledger : Ledger start hosts created m)
    (le : fewer ≤ created) : Ledger start hosts fewer m :=
  ⟨ledger.distinct, ledger.count, ledger.wanted, ledger.stamps, (Nat.add_le_add_right le _).trans ledger.within⟩

theorem ledger_server_step (lawful : json.Lawful) {e : ServerEvent}
    (ledger : Ledger start hosts (outgoing s) s.managed) (next : s.step json config pid e = some t) :
    Ledger start hosts (outgoing t) t.managed := by
  by_cases isAnswer : ∃ i answer, e = .resolved i answer
  · obtain ⟨i, answer, rfl⟩ := isAnswer
    obtain ⟨hname, outstanding, rfl⟩ := Option.map_eq_some_iff.mp next
    obtain ⟨decided, stepped⟩ := @resolved_managed s i hname outstanding answer
    apply (ledger_step ledger stepped).less
    exact outgoing_connectResolved (s := { s with outman := { s.outman with
      resolves := s.outman.resolves.eraseIdx i } }) ledger.wanted hname answer
  · rw [outgoing_step lawful next fun i answer same => isAnswer ⟨i, answer, same⟩]
    obtain ⟨es, m, executed, rfl⟩ := manager_simulates rfl next
    have kept : ∀ {m after : ManagerState} {e}, Ledger start hosts (outgoing s) m → m.step e = some after →
        Ledger start hosts (outgoing s) after :=
      fun ledger stepped => (ledger_step ledger stepped).less (Nat.le_add_right _ _)
    exact (always_of_invariant kept ledger es).last executed

theorem length_addHosts (config : UConfig) (now : Nat) (hosts : List String) (manager : OutgoingManager) :
    (hosts.foldl (fun manager hname => manager.addHost config now hname) manager).connectTo.length ≤
      manager.connectTo.length + hosts.length := by
  induction hosts generalizing manager with
  | nil => exact Nat.le_refl _
  | cons hname hosts inductionHypothesis =>
    have one : (manager.addHost config now hname).connectTo.length ≤ manager.connectTo.length + 1 := by
      unfold OutgoingManager.addHost
      split
      · exact Nat.le_succ _
      · split
        · exact Nat.le_succ _
        · simp
    have rest := inductionHypothesis (manager.addHost config now hname)
    simp only [List.foldl_cons, List.length_cons]
    omega

theorem ledger_initial (config : UConfig) (now : Nat) (remotes : List String) :
    Ledger now remotes.length (outgoing (Server.initial config now remotes))
      (Server.initial config now remotes).managed := by
  have hosts := @OutgoingManager.addHosts_rule (fun manager => manager.wantedConnections = 2 ∧
    manager.resolves = [] ∧ (manager.connectTo.map (·.hostname)).Nodup ∧
      ∀ rh ∈ manager.connectTo, rh.wantedConnections = 2 ∧ rh.statusChangeTS = now) config now (by
        rintro manager hname ⟨two, none_, distinct, fresh⟩ absent
        refine ⟨two, none_, ?_, ?_⟩
        · rw [List.map_append]
          refine List.nodup_append.mpr ⟨distinct, List.nodup_singleton _, ?_⟩
          intro name before other new same
          obtain ⟨rh, member, rfl⟩ := List.mem_map.mp before
          exact absent rh member (same.trans (List.mem_singleton.mp new))
        · intro rh member
          rcases List.mem_append.mp member with before | new
          · exact fresh rh before
          · rw [List.mem_singleton.mp new]
            exact ⟨two, rfl⟩)
    (.new 32300 2) ⟨rfl, rfl, List.nodup_nil, fun rh member => absurd member List.not_mem_nil⟩ remotes
  obtain ⟨_, none_, distinct, fresh⟩ := hosts
  refine ⟨distinct, ?_, fun rh member => (fresh rh member).1, ?_, ?_⟩
  · exact (length_addHosts config now remotes (.new 32300 2)).trans (Nat.zero_add _).le
  · intro rh member
    rw [(fresh rh member).2]
    exact ⟨Nat.le_refl _, Nat.le_refl _⟩
  · show 0 + 2 * (remotes.foldl (fun manager hname => manager.addHost config now hname)
      (OutgoingManager.new 32300 2)).resolves.length ≤ _
    rw [none_]
    exact Nat.zero_le _

/-- In every run a server creates at most two outgoing sessions for each configured host, and two more
for each 31 seconds that pass, whatever fails and is closed in the meantime. -/
theorem connections_bounded (lawful : json.Lawful) (config : UConfig) (pid now : Nat) (remotes : List String)
    (es : List ServerEvent) :
    Always (Server.step json config pid)
      (fun t => outgoing t ≤ 2 * remotes.length * (1 + (t.store.now - now) / seconds 31))
      (Server.initial config now remotes) es := by
  have kept : ∀ {s t : Server} {e : ServerEvent}, Ledger now remotes.length (outgoing s) s.managed →
      Server.step json config pid s e = some t → Ledger now remotes.length (outgoing t) t.managed :=
    fun ledger next => ledger_server_step lawful ledger next
  exact (always_of_invariant kept (ledger_initial config now remotes) es).mono fun _ ledger => ledger.bound

/-- A server whose only host is resolved at once has created both of its sessions. -/
theorem connections_bounded_attained :
    ∃ t, exec (Server.step Json.compactJson ⟨"alpha", "userver"⟩ 1)
        (Server.initial ⟨"alpha", "userver"⟩ 0 ["beta"]) [.fire, .onTimer 0, .resolved 0 (some "10.0.0.2")] = some t ∧
      outgoing t = 2 ∧ outgoing t ≤ 2 * ["beta"].length * (1 + (t.store.now - 0) / seconds 31) :=
  ⟨_, rfl, rfl, (connections_bounded Json.compactJson_lawful ⟨"alpha", "userver"⟩ 1 0 ["beta"]
    [.fire, .onTimer 0, .resolved 0 (some "10.0.0.2")]).last rfl⟩

end Sessions

/-! ## Two lookups of one host -/

section Spacing

variable {json : JsonCodec} {config : UConfig} {pid time : Nat} {hname : String} {m after : ManagerState}
  {s t : Server}

/-- The host has been looked up at the time, or later. -/
structure Recent (hname : String) (time : Nat) (m : ManagerState) : Prop where
  distinct : (m.manager.connectTo.map (·.hostname)).Nodup
  clock : time ≤ m.now
  stamps : ∀ rh ∈ m.manager.connectTo, rh.hostname = hname → rh.status ≠ .initial ∧ time ≤ rh.statusChangeTS

theorem recent_step (recent : Recent hname time m) {e : ManagerEvent} (stepped : m.step e = some after) :
    Recent hname time after := by
  obtain ⟨later, change, marks, isMapped, _⟩ := step_cases stepped recent.distinct
  refine ⟨?_, recent.clock.trans later, ?_⟩
  · rw [isMapped]
    exact marks.distinct recent.distinct
  · intro rh member name
    rw [isMapped] at member
    obtain ⟨old, known, rfl⟩ := List.mem_map.mp member
    rcases marks.marked old with unchanged | ⟨status, marked⟩
    · rw [unchanged] at name ⊢
      exact recent.stamps old known name
    · exact ⟨status, marked ▸ recent.clock⟩

/-- A step starts a lookup of the host. -/
def LooksUp (hname : String) (s t : Server) : Prop :=
  s.outman.resolves.count hname < t.outman.resolves.count hname

instance (hname : String) (s t : Server) : Decidable (LooksUp hname s t) := Nat.decLt _ _

theorem resolves_closed {names : List String}
    (executed : exec ManagerState.step m (names.map .sessionClosed) = some after) :
    after.manager.resolves = m.manager.resolves := by
  induction names generalizing m with
  | nil =>
    cases executed
    rfl
  | cons name names inductionHypothesis =>
    obtain ⟨u, closed, rest⟩ := exec_cons.mp executed
    cases closed
    have same := inductionHypothesis rest
    exact same

/-- An answer ends its lookup. -/
theorem resolves_answer (distinct : (s.outman.connectTo.map (·.hostname)).Nodup) {i : Nat}
    {answer : Option String} (next : s.step json config pid (.resolved i answer) = some t) :
    i < s.outman.resolves.length ∧ t.outman.resolves = s.outman.resolves.eraseIdx i := by
  obtain ⟨hname, outstanding, rfl⟩ := Option.map_eq_some_iff.mp next
  obtain ⟨decided, stepped⟩ := resolved_managed outstanding answer
  obtain ⟨_, _, _, _, ⟨_, _, same, bound, fewer⟩ | ⟨free, _⟩ | ⟨free, _⟩⟩ := step_cases stepped distinct
  · cases same
    exact ⟨bound, fewer⟩
  · cases free
  · cases free

/-- New lookups are added behind those that are outstanding, and only an answer ends one. -/
theorem resolves_step (distinct : (s.outman.connectTo.map (·.hostname)).Nodup) {e : ServerEvent}
    (next : s.step json config pid e = some t) (other : ∀ i answer, e ≠ .resolved i answer) :
    ∃ started, t.outman.resolves = s.outman.resolves ++ started := by
  rcases managed_step next with ⟨e', stepped, answers⟩ | ⟨names, executed⟩
  · obtain ⟨_, _, _, _, ⟨i, answer, rfl, _⟩ | ⟨_, unchanged⟩ | ⟨_, _, more⟩⟩ := step_cases stepped distinct
    · obtain ⟨i, answer, same⟩ := answers (by simp [paid])
      exact absurd same (other i answer)
    · exact ⟨[], unchanged.trans (List.append_nil _).symm⟩
    · exact ⟨_, more⟩
  · exact ⟨[], (resolves_closed executed).trans (List.append_nil _).symm⟩

/-- The host was due then, and has just been looked up now. -/
theorem looksUp_cases (distinct : (s.outman.connectTo.map (·.hostname)).Nodup) {e : ServerEvent}
    (next : s.step json config pid e = some t) (looksUp : LooksUp hname s t) :
    (∃ rh ∈ s.outman.connectTo, rh.hostname = hname ∧ OutgoingManager.due s.store.now rh = true) ∧
      Recent hname s.store.now t.managed := by
  rcases managed_step next with ⟨e', stepped, _⟩ | ⟨names, executed⟩
  · have looksUp : s.outman.resolves.count hname < t.outman.resolves.count hname := looksUp
    obtain ⟨later, change, marks, isMapped, ⟨i, _, _, _, fewer⟩ | ⟨_, unchanged⟩ | ⟨_, rfl, more⟩⟩ :=
      step_cases stepped distinct
    · have fewer : t.outman.resolves = s.outman.resolves.eraseIdx i := fewer
      rw [fewer] at looksUp
      exact absurd ((List.eraseIdx_sublist _ i).count_le hname) (Nat.not_le.mpr looksUp)
    · have unchanged : t.outman.resolves = s.outman.resolves := unchanged
      rw [unchanged] at looksUp
      exact absurd looksUp (Nat.lt_irrefl _)
    · have started : hname ∈ (s.outman.connectTo.filter (OutgoingManager.due s.store.now)).map (·.hostname) := by
        have count : t.outman.resolves.count hname = s.outman.resolves.count hname +
            ((s.outman.connectTo.filter (OutgoingManager.due s.store.now)).map (·.hostname)).count hname := by
          rw [← List.count_append]
          exact congrArg (List.count hname) more
        exact List.count_pos_iff.mp (by omega)
      obtain ⟨rh, member, name⟩ := List.mem_map.mp started
      obtain ⟨known, isDue⟩ := List.mem_filter.mp member
      refine ⟨⟨rh, known, name, isDue⟩, ?_, later, ?_⟩
      · rw [isMapped]
        exact marks.distinct distinct
      · intro other isMarked sameName
        rw [isMapped] at isMarked
        obtain ⟨old, before, rfl⟩ := List.mem_map.mp isMarked
        -- there is only one host of this name
        obtain rfl := List.inj_on_of_nodup_map distinct before known
          ((visited_hostname _ old).symm.trans (sameName.trans name.symm))
        have isVisited : visited s.managed.now old = old.setStatus s.store.now .resolving := if_pos isDue
        rw [isVisited]
        exact ⟨HostStatus.noConfusion, Nat.le_refl _⟩
  · have looksUp : s.outman.resolves.count hname < t.outman.resolves.count hname := looksUp
    have unchanged : t.outman.resolves = s.outman.resolves := resolves_closed executed
    rw [unchanged] at looksUp
    exact absurd looksUp (Nat.lt_irrefl _)

/-- Each host keeps the name that it alone has. -/
theorem distinct_step (distinct : (m.manager.connectTo.map (·.hostname)).Nodup) {e : ManagerEvent}
    (stepped : m.step e = some after) : (after.manager.connectTo.map (·.hostname)).Nodup := by
  obtain ⟨_, change, marks, isMapped, _⟩ := step_cases stepped distinct
  rw [isMapped]
  exact marks.distinct distinct

theorem distinct_always (distinct : (m.manager.connectTo.map (·.hostname)).Nodup) (es : List ManagerEvent) :
    Always ManagerState.step (fun m => (m.manager.connectTo.map (·.hostname)).Nodup) m es :=
  @always_of_invariant ManagerState ManagerEvent ManagerState.step
    (fun m => (m.manager.connectTo.map (·.hostname)).Nodup)
    (fun distinct stepped => distinct_step distinct stepped) m distinct es

theorem distinct_server_step (distinct : (s.outman.connectTo.map (·.hostname)).Nodup) {e : ServerEvent}
    (next : s.step json config pid e = some t) : (t.outman.connectTo.map (·.hostname)).Nodup := by
  obtain ⟨es, m, executed, rfl⟩ := manager_simulates rfl next
  exact (distinct_always (m := s.managed) distinct es).last executed

/-- In every run, two lookups of the same host are at least 31 seconds apart. -/
theorem lookups_spaced {now : Nat} {remotes : List String} {u v : Server} {before between : List ServerEvent}
    {first second : ServerEvent}
    (begun : exec (Server.step json config pid) (Server.initial config now remotes) before = some s)
    (one : s.step json config pid first = some t) (looksUp : LooksUp hname s t)
    (run : exec (Server.step json config pid) t between = some u)
    (another : u.step json config pid second = some v) (again : LooksUp hname u v) :
    s.store.now + seconds 31 ≤ u.store.now := by
  have initial := (ledger_initial config now remotes).distinct
  obtain ⟨_, rfl, distinct⟩ := (manager_simulates.always rfl (distinct_always initial) before).last begun
  have recent := (looksUp_cases distinct one looksUp).2
  have later : ∀ es, Always ManagerState.step (Recent hname s.store.now) t.managed es :=
    fun es => always_of_invariant (fun recent stepped => recent_step recent stepped) recent es
  obtain ⟨_, rfl, recent⟩ := (manager_simulates.always rfl later between).last run
  obtain ⟨⟨rh, member, name, isDue⟩, _⟩ := looksUp_cases recent.distinct another again
  obtain ⟨status, stamp⟩ := recent.stamps rh member name
  rcases due_cases isDue with initial | old
  · exact absurd initial status
  · omega

/-- A host that cannot be resolved is looked up again after 31 seconds. -/
theorem lookups_spaced_error :
    ∃ s t u v : Server,
      exec (Server.step Json.compactJson ⟨"alpha", "userver"⟩ 1)
        (Server.initial ⟨"alpha", "userver"⟩ 5 ["beta"]) [.fire] = some s ∧
      s.step Json.compactJson ⟨"alpha", "userver"⟩ 1 (.onTimer 0) = some t ∧ LooksUp "beta" s t ∧
      exec (Server.step Json.compactJson ⟨"alpha", "userver"⟩ 1) t
        [.resolved 0 none, .tick (seconds 31), .fire] = some u ∧
      u.step Json.compactJson ⟨"alpha", "userver"⟩ 1 (.onTimer 0) = some v ∧ LooksUp "beta" u v ∧
      s.store.now + seconds 31 ≤ u.store.now := by
  refine ⟨_, _, _, _, rfl, rfl, ?_, rfl, rfl, ?_, ?_⟩
  · decide
  · decide
  · exact @lookups_spaced Json.compactJson ⟨"alpha", "userver"⟩ 1 "beta" _ _ 5 ["beta"] _ _ [.fire]
      [.resolved 0 none, .tick (seconds 31), .fire] (.onTimer 0) (.onTimer 0) rfl rfl (by decide) rfl rfl
      (by decide)

end Spacing

end Uzel.Verified.ResolveRate
