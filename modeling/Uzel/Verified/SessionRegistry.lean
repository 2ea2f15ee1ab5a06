import Uzel.Chronicle
import Uzel.Foundation.Json

/-! # The registry of sessions and the limit of accepted ones

`m_ipToSession` is updated by the slots of two signals.  `registry_runs` says that it holds just the
sessions that have not been closed, and that `do_accept` starts no more sessions with an address than
it should, although it counts a session only after it has been registered.
-/

namespace Uzel.Verified.SessionRegistry

open Foundation

/-- The registry holds, without repetition, the sessions created with an address whose `s_closed` has
not been emitted. -/
def Exact (c : Chronicle) : Prop :=
  ∀ ip, (c.server.ipToSession ip).Nodup ∧ ∀ sid, sid ∈ c.server.ipToSession ip ↔
    sid < c.server.nextSession ∧ (c.server.store.session sid).remoteIp = ip ∧ c.closings sid = 0

/-- The sessions with an address that `do_accept` has started and that have not been closed. -/
def active (c : Chronicle) (ip : String) : List SessionId :=
  c.started.filter fun sid => (c.server.store.session sid).remoteIp = ip ∧ c.closings sid = 0

def WithinLimit (c : Chronicle) : Prop := ∀ ip, (active c ip).length ≤ Server.maxConnectionsWithAddr

/-- The registry of a server, whose sessions are all connected to it. -/
structure Registered (s : Server) : Prop where
  nodup : ∀ ip, (s.ipToSession ip).Nodup
  members : ∀ ip sid, sid ∈ s.ipToSession ip ↔
    sid < s.nextSession ∧ (s.store.session sid).remoteIp = ip ∧ (s.store.session sid).stopped = false
  connected : ∀ sid < s.nextSession, .registry ∈ (s.store.session sid).closedSlots

section Steps

variable {json : JsonCodec} {config : UConfig} {pid : Nat} {s t : Server} {sid : SessionId}

/-! ## The registry -/

theorem registered_persist (registered : Registered s) (persist : s.store.Persist t.store)
    (registry : t.ipToSession = s.ipToSession) (next : t.nextSession = s.nextSession) : Registered t where
  nodup ip := registry ▸ registered.nodup ip
  members ip sid := by
    rw [registry, next, (persist sid).remoteIp, (persist sid).stopped]
    exact registered.members ip sid
  connected sid created := (persist sid).closedSlots (registered.connected sid (next ▸ created))

theorem registered_create (registered : Registered s) (direction : Direction) (ip : String) :
    Registered (s.createSession direction ip) := by
  have self := Server.createSession_self direction ip s
  have new : ∀ other, s.nextSession ∉ s.ipToSession other := fun other member =>
    Nat.lt_irrefl _ ((registered.members other _).mp member).1
  have inserted : (s.ipToSession ip).insert s.nextSession = s.nextSession :: s.ipToSession ip :=
    List.insert_of_not_mem (new ip)
  have registry : ∀ other, (s.createSession direction ip).ipToSession other =
      if other = ip then s.nextSession :: s.ipToSession ip else s.ipToSession other := by
    intro other
    rw [Server.createSession_ipToSession, inserted, Function.update_apply]
  refine ⟨?_, ?_, ?_⟩
  · intro other
    rw [registry]
    split
    · exact List.nodup_cons.mpr ⟨new ip, registered.nodup ip⟩
    · exact registered.nodup other
  · intro other sid
    rw [registry]
    show _ ↔ sid < s.nextSession + 1 ∧ _
    by_cases same : sid = s.nextSession
    · subst same
      rw [self]
      split
      next here => simp [here, Session.new]
      next elsewhere =>
        refine ⟨fun member => absurd member (new other), ?_⟩
        rintro ⟨_, address, _⟩
        exact absurd address.symm elsewhere
    · have before : sid < s.nextSession + 1 ↔ sid < s.nextSession := by
        rw [Nat.lt_succ_iff_lt_or_eq]
        exact or_iff_left same
      rw [Server.createSession_other direction ip same, before, ← registered.members other sid]
      split
      next here => simp [here, same]
      next => exact Iff.rfl
  · intro sid created
    by_cases same : sid = s.nextSession
    · subst same
      rw [self]
      exact List.mem_singleton_self _
    · rw [Server.createSession_other direction ip same]
      exact registered.connected sid (Nat.lt_of_le_of_ne (Nat.le_of_lt_succ created) same)

/-- `onSessionClosed` has been connected when the session was created, so it takes the session out. -/
theorem registered_stop (registered : Registered s) (running : (s.store.session sid).stopped = false) :
    Registered (s.stop sid) := by
  have closing := Server.closing_stop running
  have session := Server.stop_session running
  have gone : sid < s.nextSession → ∀ ip, sid ∉ (s.stop sid).ipToSession ip := by
    intro created ip member
    have address : (s.store.session sid).remoteIp = ip :=
      ((registered.members ip sid).mp ((closing.sublist ip).subset member)).2.1
    rw [Server.stop_eq running] at member
    have connected : .registry ∈
        ((s.withStore (s.store.set sid (s.store.session sid).stop)).store.session sid).closedSlots := by
      simpa [Server.withStore, Session.stop] using registered.connected sid created
    obtain ⟨before, first, last⟩ := Server.emitClosed_slot connected
    have sameAddress : (before.store.session sid).remoteIp = ip := by
      rw [first.store]
      simpa [Server.withStore, Session.stop] using address
    have member := (last.sublist ip).subset member
    simp only [Server.onClosed, sameAddress, Function.update_self] at member
    exact List.Nodup.not_mem_erase (List.Nodup.sublist (first.sublist ip) (registered.nodup ip)) member
  refine ⟨?_, ?_, ?_⟩
  · exact fun ip => List.Nodup.sublist (closing.sublist ip) (registered.nodup ip)
  · intro ip other
    rw [closing.nextSession, session]
    by_cases same : other = sid
    · subst same
      rw [if_pos rfl]
      constructor
      · intro member
        exact absurd member (gone ((registered.members ip other).mp ((closing.sublist ip).subset member)).1 ip)
      · rintro ⟨_, _, stopped⟩
        cases stopped
    · rw [if_neg same]
      refine Iff.trans ?_ (registered.members ip other)
      exact ⟨fun member => (closing.sublist ip).subset member, closing.others ip other same⟩
  · intro other created
    rw [closing.nextSession] at created
    rw [session]
    split
    next same => exact same ▸ registered.connected other created
    next => exact registered.connected other created

theorem kept_registered {own : String} : Server.Kept own Registered where
  steady registered steady :=
    registered_persist registered steady.sessions steady.registry steady.nextSession
  create ip registered := registered_create registered .incoming ip
  stop := registered_stop

theorem registered_step (lawful : json.Lawful) {e : ServerEvent} (registered : Registered s)
    (next : s.step json config pid e = some t) : Registered t := by
  apply kept_registered.step (fun ip registered => registered_create registered .outgoing ip)
    (fun _ registered => ⟨registered.nodup, registered.members, registered.connected⟩) registered next
  rintro sid header body rfl _ _
  apply kept_registered.dispatchMsg_sessions lawful registered
  · exact fun registered persist registry next _ => registered_persist registered persist registry next
  · intro msg _ _
    have same : ∀ {α : Sort _} (f : Session → α), (∀ ss msg1, f { ss with msg1 } = f ss) → ∀ other,
        f ((s.withStore (s.store.set sid { s.store.session sid with msg1 := some msg })).store.session other) =
          f (s.store.session other) := fun f keeps => Sessions.set_congr f (keeps _ _)
    refine ⟨registered.nodup, ?_, ?_⟩
    · intro ip other
      rw [same (·.remoteIp) (fun _ _ => rfl), same (·.stopped) (fun _ _ => rfl)]
      exact registered.members ip other
    · intro other created
      rw [same (·.closedSlots) (fun _ _ => rfl)]
      exact registered.connected other created

theorem registered_initial (now : Nat) (remotes : List String) :
    Registered (.initial config now remotes) where
  nodup _ := List.nodup_nil
  members _ _ := by simp [Server.initial]
  connected _ created := absurd created (Nat.not_lt_zero _)

/-! ## The limit -/

variable {c d : Chronicle} {e : ServerEvent}

/-- The registry of the server, the history of its closed sessions, and the limit. -/
structure Limited (c : Chronicle) : Prop where
  registered : Registered c.server
  counted : c.Counted
  started : c.started.Nodup ∧ ∀ sid ∈ c.started, sid < c.server.nextSession
  limit : WithinLimit c

theorem exact_of_limited (limited : Limited c) : Exact c := by
  intro ip
  refine ⟨limited.registered.nodup ip, fun sid => ?_⟩
  rw [limited.registered.members ip sid, limited.counted sid]
  -- a session that exists has emitted `s_closed` if it is stopped
  by_cases created : sid < c.server.nextSession
  · simp [Server.ended, created]
  · simp [created]

theorem mem_active {ip : String} {sid : SessionId} : sid ∈ active c ip ↔
    sid ∈ c.started ∧ (c.server.store.session sid).remoteIp = ip ∧ c.closings sid = 0 := by
  simp [active]

/-- The sessions that are active are registered. -/
theorem active_subset (registered : Registered c.server) (counted : c.Counted)
    (created : ∀ sid ∈ c.started, sid < c.server.nextSession) (ip : String) :
    active c ip ⊆ c.server.ipToSession ip := by
  intro sid member
  obtain ⟨isStarted, address, opened⟩ := mem_active.mp member
  rw [counted sid] at opened
  have running : (c.server.store.session sid).stopped = false := by
    simpa [Server.ended, created sid isStarted] using opened
  exact (registered.members ip sid).mpr ⟨created sid isStarted, address, running⟩

/-- A session that was started before is active only if it was. -/
theorem active_before (lawful : json.Lawful) (limited : Limited c)
    (next : c.step json config pid e = some d) {ip : String} {sid : SessionId} (old : sid ∈ c.started)
    (member : sid ∈ active d ip) : sid ∈ active c ip := by
  have evolves := Server.evolves_step lawful (Chronicle.step_server next)
  obtain ⟨_, address, opened⟩ := mem_active.mp member
  rw [Chronicle.counted_step lawful limited.counted next sid] at opened
  refine mem_active.mpr ⟨old, ?_, ?_⟩
  · rw [← evolves.remoteIp sid (limited.started.2 sid old), address]
  · have notEnded : ¬ c.server.ended sid := fun ended => by
      simp [Chronicle.ended_step lawful next ended] at opened
    rw [limited.counted sid, if_neg notEnded]

/-- What `do_accept` does to the registry. -/
theorem accept_registry {raddr : String} (next : s.step json config pid (.accept raddr) = some t) :
    t.nextSession = s.nextSession + 1 ∧ t.ipToSession = (s.createSession .incoming raddr).ipToSession := by
  have both : (s.accept json config pid raddr).All fun u =>
      u.nextSession = s.nextSession + 1 ∧ u.ipToSession = (s.createSession .incoming raddr).ipToSession := by
    apply (Server.accept_carries Session.carried_persists Session.persists_reading raddr s).mono
    rintro u ⟨store, rfl, _⟩
    exact ⟨rfl, rfl⟩
  exact Server.returned_all both next

/-- The sessions that are started are those before and, if the connection is not refused, the new
one. -/
theorem started_step (next : c.step json config pid e = some d) :
    d.started = c.started ∨ ∃ raddr, e = .accept raddr ∧ ¬ c.server.refuses raddr ∧
      d.started = c.started ++ [c.server.nextSession] := by
  obtain ⟨server, _, rfl⟩ := Option.map_eq_some_iff.mp next
  cases e with
  | accept raddr =>
    dsimp only
    by_cases refused : c.server.refuses raddr
    · exact .inl (if_pos refused)
    · exact .inr ⟨raddr, rfl, refused, if_neg refused⟩
  | tick _ | fire | onTimer _ | pokeTask | resolved _ _ | connectHandler _ _ | received _ _ _
  | readAgain _ _ | readFailed _ | written _ _ _ => exact .inl rfl

theorem limited_step (lawful : json.Lawful) (limited : Limited c)
    (next : c.step json config pid e = some d) : Limited d := by
  have stepped := Chronicle.step_server next
  have registered := registered_step lawful limited.registered stepped
  have counted := Chronicle.counted_step lawful limited.counted next
  have later := (Server.evolves_step lawful stepped).next
  have before := fun {ip : String} {sid : SessionId} => @active_before json config pid c d e lawful limited
    next ip sid
  have old : ∀ sid ∈ c.started, sid < d.server.nextSession := fun sid member =>
    Nat.lt_of_lt_of_le (limited.started.2 sid member) later
  -- the active sessions are counted without repetition
  have bounded : ∀ {ip : String} {sids : List SessionId}, d.started.Nodup → active d ip ⊆ sids →
      sids.length ≤ Server.maxConnectionsWithAddr → (active d ip).length ≤ Server.maxConnectionsWithAddr :=
    fun nodup subset limit => ((nodup.filter _).subperm subset).length_le.trans limit
  rcases started_step next with same | ⟨raddr, rfl, accepted, added⟩
  · have nodup : d.started.Nodup := same ▸ limited.started.1
    refine ⟨registered, counted, ⟨nodup, same ▸ old⟩, fun ip => bounded nodup ?_ (limited.limit ip)⟩
    exact fun sid member => before (same ▸ (mem_active.mp member).1) member
  · obtain ⟨nextSession, registry⟩ := accept_registry stepped
    have nodup : d.started.Nodup := by
      rw [added]
      refine List.Nodup.append limited.started.1 (List.nodup_singleton _) ?_
      rintro sid member same
      exact Nat.lt_irrefl _ (List.mem_singleton.mp same ▸ limited.started.2 sid member)
    have created : ∀ sid ∈ d.started, sid < d.server.nextSession := by
      intro sid member
      rw [added] at member
      rcases List.mem_append.mp member with earlier | new
      · exact old sid earlier
      · rw [nextSession, List.mem_singleton.mp new]
        exact Nat.lt_succ_self _
    refine ⟨registered, counted, ⟨nodup, created⟩, fun ip => ?_⟩
    have subset := active_subset registered counted created ip
    by_cases here : ip = raddr
    -- the new session has been counted when the limit was checked
    · refine bounded nodup subset ?_
      rw [registry, here]
      exact Nat.le_of_not_lt accepted
    · refine bounded nodup ?_ (limited.limit ip)
      intro sid member
      have inRegistry := subset member
      rw [registry, Server.createSession_ipToSession, Function.update_of_ne here] at inRegistry
      have earlier := ((limited.registered.members ip sid).mp inRegistry).1
      have isStarted := (mem_active.mp member).1
      rw [added] at isStarted
      rcases List.mem_append.mp isStarted with started | new
      · exact before started member
      · exact absurd (List.mem_singleton.mp new) (Nat.ne_of_lt earlier)

/-- In every state of every run of a server, the registry holds just the sessions that have not been
closed, and at most `MaxConnectionsWithAddr` sessions with one address that `do_accept` has started
are not closed. -/
theorem registry_runs (lawful : json.Lawful) (config : UConfig) (now : Nat) (remotes : List String)
    (events : List ServerEvent) :
    Always (Chronicle.step json config pid) (fun c => Exact c ∧ WithinLimit c)
      (.initial config now remotes) events := by
  have initial : Limited (.initial config now remotes) :=
    ⟨registered_initial now remotes, Chronicle.counted_initial now remotes, ⟨List.nodup_nil, nofun⟩,
      fun _ => Nat.zero_le _⟩
  exact (always_of_invariant (limited_step lawful) initial events).mono fun c limited =>
    ⟨exact_of_limited limited, limited.limit⟩

end Steps

/-- The eleventh connection from an address is refused, and it leaves the registry when its bye has
been written. -/
theorem registry_runs_eleven_connections :
    let events := (List.replicate 11 (ServerEvent.accept "10.0.0.7")) ++ [.written 10 0 true]
    Always (Chronicle.step Json.compactJson ⟨"beta", "userver"⟩ 1) (fun c => Exact c ∧ WithinLimit c)
        (.initial ⟨"beta", "userver"⟩ 0 []) events ∧
      (exec (Chronicle.step Json.compactJson ⟨"beta", "userver"⟩ 1)
          (.initial ⟨"beta", "userver"⟩ 0 []) events).map
        (fun c => (c.started, c.server.ipToSession "10.0.0.7", c.closings 10)) =
      some (List.range 10, (List.range 10).reverse, 1) := by
  intro events
  exact ⟨registry_runs Json.compactJson_lawful _ 0 [] events, by decide +kernel⟩

end Uzel.Verified.SessionRegistry
