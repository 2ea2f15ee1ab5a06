import Uzel.Chronicle
import Uzel.Verified.SelfRouting

/-! # One session for each application

`NetServer::auth` stores the session of a local application in `m_locals` and takes over the messages
of the session that was stored there before.  Only single-instance applications are allowed, so that
session should be at an end by then; `auth` does not look whether it is, and does not end it.
-/

namespace Uzel.Verified.SingleInstance

open Foundation SelfRouting

/-- The session is authenticated as the application `app` of the node, and it is neither stopped nor
being closed. -/
structure ActsFor (nodeName app : String) (ss : Session) : Prop where
  node : ss.peerNode = some nodeName
  app : ss.peerApp = some app
  running : ss.stopped = false
  staying : ss.closeFlag = false

theorem ActsFor.of_same {nodeName app : String} {ss after : Session} (acts : ActsFor nodeName app ss)
    (same : after.toEndpoint = ss.toEndpoint) : ActsFor nodeName app after := by
  have msg1 := congrArg Endpoint.msg1 same
  refine ⟨?_, ?_, (congrArg Endpoint.stopped same).trans acts.running,
    (congrArg Endpoint.closeFlag same).trans acts.staying⟩
  · rw [Session.peerNode, msg1]
    exact acts.node
  · rw [Session.peerApp, msg1]
    exact acts.app

/-- Every session that acts for an application is the one that messages to the application go to. -/
structure OneSession (nodeName : String) (s : Server) : Prop where
  stored : ∀ app sid, ActsFor nodeName app (s.store.session sid) → s.locals.lookup app = some sid
  single : ∀ app sid other, ActsFor nodeName app (s.store.session sid) →
    ActsFor nodeName app (s.store.session other) → sid = other

/-- A message that authenticates its session as an application finds the session that is stored for
the application stopped or being closed. -/
def Succeeds (config : UConfig) (s : Server) : ServerEvent → Prop
  | .received sid header body =>
    ∀ msg, s.verdict config sid header body = .authenticated msg → msg.fromLocal config = true →
      ∀ old, s.locals.lookup msg.from.app = some old →
        (s.store.session old).stopped = true ∨ (s.store.session old).closeFlag = true
  | _ => True

section Steps

variable {json : JsonCodec} {nodeName : String} {pid : Nat} {s t : Server} {sid : SessionId}

theorem oneSession_of_stored
    (stored : ∀ app sid, ActsFor nodeName app (s.store.session sid) → s.locals.lookup app = some sid) :
    OneSession nodeName s :=
  ⟨stored, fun app sid other acts actsToo =>
    Option.some.inj ((stored app sid acts).symm.trans (stored app other actsToo))⟩

/-- Once a session is to be closed it stays so. -/
theorem lasting_closing :
    Session.Lasting fun ss after : Session => ss.closeFlag = true → after.closeFlag = true where
  trans first second := second ∘ first
  same endpoint := (congrArg Endpoint.closeFlag endpoint).trans
  flagged _ _ _ := rfl
  connected _ _ := id
  connecting _ _ := id
  reading _ _ := id
  processor _ _ := id
  marked _ _ _ := id
  stopped _ _ := rfl

/-- Of the sessions that were not being closed at the beginning of a step, those that are authenticated
as an application and not stopped are stored for it. -/
def Stored (nodeName : String) (closing : SessionId → Prop) (s : Server) : Prop :=
  ∀ app sid, (s.store.session sid).peerNode = some nodeName → (s.store.session sid).peerApp = some app →
    (s.store.session sid).stopped = false → ¬ closing sid → s.locals.lookup app = some sid

variable {closing : SessionId → Prop}

theorem Stored.of_same (stored : Stored nodeName closing s) (locals : t.locals = s.locals)
    (msg1 : ∀ sid, (t.store.session sid).msg1 = (s.store.session sid).msg1)
    (stopped : ∀ sid, (t.store.session sid).stopped = false → (s.store.session sid).stopped = false) :
    Stored nodeName closing t := by
  intro app sid node isApp running unflagged
  rw [locals]
  apply stored app sid _ _ (stopped sid running) unflagged
  · rw [← node, Session.peerNode, Session.peerNode, msg1]
  · rw [← isApp, Session.peerApp, Session.peerApp, msg1]

theorem stored_create (stored : Stored nodeName closing s) (direction : Direction) (ip : String) :
    Stored nodeName closing (s.createSession direction ip) := by
  intro app sid node isApp running unflagged
  by_cases new : sid = s.nextSession
  · rw [new, Server.createSession_self] at node
    cases node
  · rw [Server.createSession_other direction ip new] at node isApp running
    exact stored app sid node isApp running unflagged

theorem kept_stored : Server.Kept nodeName (Stored nodeName closing) where
  steady stored steady :=
    stored.of_same steady.locals (fun sid => (steady.sessions sid).msg1)
      fun sid running => (steady.sessions sid).stopped.symm.trans running
  create ip stored := stored_create stored .incoming ip
  stop {s sid} stored running := by
    apply stored.of_same (Server.closing_stop running).locals
    · exact Server.stop_keeps (·.msg1) (fun _ => rfl) running
    · intro other stays
      rw [Server.stop_session running] at stays
      split at stays
      next same => exact same ▸ running
      next => exact stays

/-- A session that authenticates itself has no place in the tables of the others. -/
theorem stored_dispatchMsg (lawful : json.Lawful) (stored : Stored nodeName closing s)
    (header : PTree) (body : Body)
    (succeeds : ∀ msg, s.verdict ⟨nodeName, "userver"⟩ sid header body = .authenticated msg →
      msg.fromLocal ⟨nodeName, "userver"⟩ = true → ∀ old, s.locals.lookup msg.from.app = some old →
        (s.store.session old).stopped = true ∨ closing old) :
    (s.dispatchMsg json ⟨nodeName, "userver"⟩ sid header body).All (Stored nodeName closing) := by
  generalize isMsg : Msg.incoming ⟨nodeName, "userver"⟩ header body (some sid) = msg
  generalize isKnown : s.withStore (s.store.set sid { s.store.session sid with msg1 := some msg }) = known
  have self : (known.store.session sid).msg1 = some msg := by simp [← isKnown, Server.withStore]
  have others : ∀ other, other ≠ sid → known.store.session other = s.store.session other := by
    intro other different
    simp [← isKnown, Server.withStore, different]
  have applications : known.locals = s.locals := by rw [← isKnown]; rfl
  have before : ∀ {after : Sessions}, known.store.Persist after → ∀ app other, other ≠ sid →
      (after.session other).peerNode = some nodeName → (after.session other).peerApp = some app →
      (after.session other).stopped = false → ¬ closing other → s.locals.lookup app = some other := by
    intro after persist app other different node isApp running unflagged
    have msg1 := (persist other).msg1
    have stopped := (persist other).stopped
    rw [others other different] at msg1 stopped
    apply stored app other _ _ (stopped ▸ running) unflagged
    · rw [← node, Session.peerNode, Session.peerNode, msg1]
    · rw [← isApp, Session.peerApp, Session.peerApp, msg1]
  apply kept_stored.dispatchMsg isMsg.symm isKnown.symm (fun _ => stored)
  · intro unknown passed isLocal t steady
    have verdict : s.verdict ⟨nodeName, "userver"⟩ sid header body = .authenticated msg := by
      simp [Server.verdict, Session.authenticated, unknown, isMsg, passed]
    intro app other node isApp running unflagged
    dsimp only at node isApp running
    by_cases same : other = sid
    · subst same
      have msg1 := (steady.sessions other).msg1.trans self
      simp only [Session.peerApp, msg1, Option.map_some, Option.some.injEq] at isApp
      rw [← isApp, AList.lookup_insert]
    · have registered := before steady.sessions app other same node isApp running unflagged
      have different : app ≠ msg.from.app := by
        rintro rfl
        rcases succeeds msg verdict isLocal other registered with ended | flagged
        · rw [← others other same, ← (steady.sessions other).stopped, running] at ended
          cases ended
        · exact unflagged flagged
      rw [AList.lookup_insert_ne different, steady.locals, applications]
      exact registered
  · intro unknown passed isRemote changed after final
    have peer : (known.store.session sid).peerNode = some msg.from.node := by
      simp [Session.peerNode, self]
    have persist := Remote.carries_addSession Session.carried_persists lawful peer final
    intro app other node isApp running unflagged
    rw [Server.setRemote_store] at node isApp running
    by_cases same : other = sid
    · -- the session of another node acts for no application
      subst same
      have foreign : msg.from.node ≠ nodeName := by
        simpa [Msg.fromLocal, UConfig.isLocalNode] using isRemote
      rw [(persist other).peerNode, peer, Option.some.injEq] at node
      exact absurd node foreign
    · show known.locals.lookup app = some other
      rw [applications]
      exact before persist app other same node isApp running unflagged
  · intro _ _ _ remote left changed after _ final
    have persist := Remote.carries_handlePriorityMsg Session.carried_persists final
    exact stored.of_same rfl (fun other => (persist other).msg1)
      fun other running => (persist other).stopped.symm.trans running

/-- No session acts for an application without being stored, and the tables are right. -/
structure Ordered (nodeName : String) (s : Server) : Prop where
  apart : Apart nodeName s
  stored : Stored nodeName (fun sid => sid < s.nextSession ∧ (s.store.session sid).closeFlag = true) s

theorem Ordered.oneSession (ordered : Ordered nodeName s) : OneSession nodeName s := by
  apply oneSession_of_stored
  rintro app sid ⟨node, isApp, running, staying⟩
  apply ordered.stored app sid node isApp running
  rintro ⟨_, flagged⟩
  rw [staying] at flagged
  cases flagged

theorem Ordered.created (ordered : Ordered nodeName s) {app : String}
    (registered : s.locals.lookup app = some sid) : sid < s.nextSession := by
  by_contra later
  have unknown := ordered.apart.created sid (Nat.le_of_not_lt later)
  have node := (ordered.apart.routes.sessions app sid registered).1
  simp [Session.peerNode, unknown] at node

theorem ordered_initial (now : Nat) (remotes : List String) :
    Ordered nodeName (.initial ⟨nodeName, "userver"⟩ now remotes) := by
  refine ⟨apart_initial now remotes, ?_⟩
  intro app sid node
  cases node

theorem ordered_step (lawful : json.Lawful) {e : ServerEvent} (ordered : Ordered nodeName s)
    (next : s.step json ⟨nodeName, "userver"⟩ pid e = some t)
    (succeeds : Succeeds ⟨nodeName, "userver"⟩ s e) : Ordered nodeName t := by
  refine ⟨apart_step lawful ordered.apart next, ?_⟩
  have stored : Stored nodeName
      (fun sid => sid < s.nextSession ∧ (s.store.session sid).closeFlag = true) t := by
    apply kept_stored.step (fun ip stored => stored_create stored .outgoing ip) (fun _ => id)
      ordered.stored next
    rintro sid header body rfl _ _
    apply stored_dispatchMsg lawful ordered.stored header body
    intro msg verdict isLocal old registered
    exact (succeeds msg verdict isLocal old registered).imp id fun flagged =>
      ⟨ordered.created registered, flagged⟩
  have lasts := Server.lasts_step lasting_closing lawful next
  intro app sid node isApp running unflagged
  apply stored app sid node isApp running
  rintro ⟨old, flagged⟩
  exact unflagged ⟨old.trans_le lasts.next, lasts.sessions sid old flagged⟩

/-- A session is authenticated as an application while another one acts for it, and replaces it. -/
theorem replaces_dispatchMsg {header : PTree} {body : Body} {msg : Msg}
    (verdict : s.verdict ⟨nodeName, "userver"⟩ sid header body = .authenticated msg)
    (isLocal : msg.fromLocal ⟨nodeName, "userver"⟩ = true) {old : SessionId}
    (acts : ActsFor nodeName msg.from.app (s.store.session old)) :
    (s.dispatchMsg json ⟨nodeName, "userver"⟩ sid header body).All fun t =>
      t.locals.lookup msg.from.app = some sid ∧ old ≠ sid ∧
        ActsFor nodeName msg.from.app (t.store.session old) := by
  obtain ⟨isMsg, unknown, passed⟩ : Msg.incoming ⟨nodeName, "userver"⟩ header body (some sid) = msg ∧
      (s.store.session sid).msg1 = none ∧ Session.authenticate ⟨nodeName, "userver"⟩ msg = true := by
    simp only [Server.verdict] at verdict
    split at verdict
    · cases verdict
    next unknown =>
      split at verdict
      next passed =>
        cases verdict
        exact ⟨rfl, by simpa [Session.authenticated] using unknown, passed⟩
      next => cases verdict
  have different : old ≠ sid := by
    rintro rfl
    have node := acts.node
    simp [Session.peerNode, unknown] at node
  generalize isKnown : s.withStore (s.store.set sid { s.store.session sid with msg1 := some msg }) = known
  have stays : known.store.session old = s.store.session old := by
    simp [← isKnown, Server.withStore, different]
  have unauthenticated : ¬ (s.store.session sid).authenticated = true := by
    simp [Session.authenticated, unknown]
  apply Server.dispatchMsg_calls isMsg.symm isKnown.symm
  · intro _ _ _ t taken
    refine ⟨AList.lookup_insert _, different, ?_⟩
    rcases taken with rfl | ⟨previous, after, _, done, rfl⟩
    · exact stays ▸ acts
    · have endpoint := Sessions.takeOverSession_endpoint sid previous known.store
      rw [done] at endpoint
      exact acts.of_same ((endpoint old).trans (congrArg Session.toEndpoint stays))
  · intro _ _ isRemote
    rw [isLocal] at isRemote
    cases isRemote
  · intro _ refused
    rw [passed] at refused
    cases refused
  · exact fun known => absurd known unauthenticated
  · exact fun known => absurd known unauthenticated
  · exact fun known => absurd known unauthenticated

theorem replaced_step {e : ServerEvent} (ordered : Ordered nodeName s)
    (next : s.step json ⟨nodeName, "userver"⟩ pid e = some t)
    (interferes : ¬ Succeeds ⟨nodeName, "userver"⟩ s e) : ¬ OneSession nodeName t := by
  cases e with
  | received sid header body =>
    simp only [Succeeds, not_forall, not_or, Bool.not_eq_true] at interferes
    obtain ⟨msg, verdict, isLocal, old, registered, running, staying⟩ := interferes
    obtain ⟨node, isApp⟩ := ordered.apart.routes.sessions _ old registered
    have replaces := @replaces_dispatchMsg json nodeName s sid header body msg verdict isLocal old
      ⟨node, isApp, running, staying⟩
    intro one
    rcases (Server.received_cases next).2 with done | ⟨u, raised, rfl⟩
    · rw [done] at replaces
      obtain ⟨stored, different, acts⟩ := replaces
      exact different (Option.some.inj ((one.stored _ old acts).symm.trans stored))
    · rw [raised] at replaces
      obtain ⟨stored, different, acts⟩ := replaces
      -- the read handler gives up, which ends another session
      obtain ⟨locals, others⟩ := Server.readFailed_keeps sid u
      have actsStill := one.stored msg.from.app old (others old different ▸ acts)
      rw [locals, stored] at actsStill
      exact different (Option.some.inj actsStill).symm
  | _ => exact absurd trivial interferes

/-- In a run of a userver every session that acts for a local application is the one stored for it,
in every state, exactly if in every step of the run that authenticates a session as an application the
session stored before is stopped or being closed. -/
theorem one_session_runs_iff (lawful : json.Lawful) (nodeName : String) (now : Nat) (remotes : List String)
    (events : List ServerEvent) :
    Always (Server.step json ⟨nodeName, "userver"⟩ pid) (OneSession nodeName)
        (.initial ⟨nodeName, "userver"⟩ now remotes) events ↔
      Meets (Server.step json ⟨nodeName, "userver"⟩ pid) (Succeeds ⟨nodeName, "userver"⟩)
        (.initial ⟨nodeName, "userver"⟩ now remotes) events :=
  always_iff_meets (fun ordered => ordered.oneSession)
    (fun ordered next succeeds => ordered_step lawful ordered next succeeds)
    (fun ordered next interferes => replaced_step ordered next interferes)
    (ordered_initial now remotes)

end Steps

/-- The application `uecho` of `beta` comes back after its connection has broken. -/
theorem one_session_runs_comes_back :
    Always (Server.step Json.compactJson ⟨"beta", "userver"⟩ 1) (OneSession "beta")
      (.initial ⟨"beta", "userver"⟩ 0 [])
      [.accept "127.0.0.1", .written 0 0 true,
        .received 0 (serviceHeader ⟨"beta", "uecho"⟩ "auth") (.tree .empty), .readFailed 0,
        .accept "127.0.0.1", .received 1 (serviceHeader ⟨"beta", "uecho"⟩ "auth") (.tree .empty)] := by
  apply (one_session_runs_iff Json.compactJson_lawful "beta" 0 [] _).mpr
  rintro s ⟨rfl⟩
  refine ⟨trivial, ?_⟩
  rintro s ⟨rfl⟩
  refine ⟨trivial, ?_⟩
  rintro s ⟨rfl⟩
  refine ⟨?_, ?_⟩
  · intro msg _ _ old registered
    cases registered
  rintro s ⟨rfl⟩
  refine ⟨trivial, ?_⟩
  rintro s ⟨rfl⟩
  refine ⟨trivial, ?_⟩
  rintro s ⟨rfl⟩
  refine ⟨?_, trivial⟩
  rintro msg ⟨rfl⟩ _ old ⟨rfl⟩
  exact .inl rfl

/-- `uecho` is started twice: both of its sessions act for it, and its messages go to the second. -/
theorem two_sessions_act_for_one_application :
    ¬ Always (Server.step Json.compactJson ⟨"beta", "userver"⟩ 1) (OneSession "beta")
      (.initial ⟨"beta", "userver"⟩ 0 [])
      [.accept "127.0.0.1", .written 0 0 true,
        .received 0 (serviceHeader ⟨"beta", "uecho"⟩ "auth") (.tree .empty),
        .accept "127.0.0.1", .received 1 (serviceHeader ⟨"beta", "uecho"⟩ "auth") (.tree .empty)] := by
  intro always
  have reached : exec (Server.step Json.compactJson ⟨"beta", "userver"⟩ 1)
      (.initial ⟨"beta", "userver"⟩ 0 [])
      [.accept "127.0.0.1", .written 0 0 true,
        .received 0 (serviceHeader ⟨"beta", "uecho"⟩ "auth") (.tree .empty),
        .accept "127.0.0.1", .received 1 (serviceHeader ⟨"beta", "uecho"⟩ "auth") (.tree .empty)] =
      some _ := rfl
  have same := (always.last reached).single "uecho" 0 1 ⟨rfl, rfl, rfl, rfl⟩ ⟨rfl, rfl, rfl, rfl⟩
  exact absurd same (by decide)

end Uzel.Verified.SingleInstance
