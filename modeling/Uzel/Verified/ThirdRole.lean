import Uzel.ServerRules
import Uzel.Verified.PriorityAgreement

/-! # The third role

The boss has a third role only for a session that it has opened itself, beside two that the other side has
opened.  `third_outgoing` says that the third role never belongs to another session, in every run of the two
servers: the boss gives roles only when a session is authenticated, and everything else takes roles away.
-/

namespace Uzel.Verified.ThirdRole

open Foundation Protocol Handlers RoleAssignment PriorityAgreement

section OneServer

variable {json : JsonCodec} {own node : String} {s t u : Server} {sid : SessionId}

/-! ## Roles are taken away -/

/-- The session may have lost its role, and nobody else has. -/
def GivesUp (node : String) (sid : SessionId) (s t : Server) : Prop :=
  ∀ role, slotOf t node role = slotOf s node role ∨
    (slotOf s node role = some sid ∧ slotOf t node role = none)

theorem GivesUp.of_channels (channels : t.nodeToSession = s.nodeToSession) : GivesUp node sid s t :=
  fun role => .inl (slotOf_congr channels role)

theorem GivesUp.trans (first : GivesUp node sid s t) (second : GivesUp node sid t u) :
    GivesUp node sid s u := by
  intro role
  rcases second role with same | ⟨held, gone⟩
  · rw [same]
    exact first role
  · rcases first role with before | ⟨_, before⟩
    · exact .inr ⟨before ▸ held, gone⟩
    · rw [before] at held
      cases held

theorem givesUp_onClosed (s : Server) (slot : ClosedSlot) : GivesUp node sid s (s.onClosed sid slot) := by
  cases slot with
  | registry => exact .of_channels rfl
  | host name => exact .of_channels rfl
  | remote channel =>
    simp only [Server.onClosed]
    cases registered : s.nodeToSession.lookup channel with
    | none => exact .of_channels rfl
    | some remote =>
      intro role
      rw [slotOf_setRemote]
      split
      next same =>
        rw [Remote.slot_onSessionClosed, same, (channel_registered registered).1]
        split
        next held => exact .inr ⟨held, rfl⟩
        next => exact .inl rfl
      next => exact .inl rfl

theorem givesUp_emitClosed (s : Server) (sid : SessionId) : GivesUp node sid s (s.emitClosed sid) := by
  unfold Server.emitClosed
  generalize (s.store.session sid).closedSlots = slots
  induction slots generalizing s with
  | nil => exact .of_channels rfl
  | cons slot slots inductionHypothesis =>
    exact (givesUp_onClosed s slot).trans (inductionHypothesis (s.onClosed sid slot))

theorem givesUp_stop (s : Server) (sid : SessionId) : GivesUp node sid s (s.stop sid) := by
  unfold Server.stop
  dsimp only
  split
  · exact .of_channels rfl
  · exact givesUp_emitClosed _ sid

/-- The handlers that are called without a message of the peer give nobody a role. -/
theorem givesUp_alone {name : Side → String} {pid : Side → Nat} {side : Side} {e : ServerEvent}
    (next : Net.stepAlone json name pid side s e = some t) : ∃ sid, GivesUp node sid s t := by
  have manager : ∀ {e : ManagerEvent}, s.managerStep e = some t → ∃ sid, GivesUp node sid s t := by
    intro e next
    obtain ⟨manager, _, rfl⟩ := Option.map_eq_some_iff.mp next
    exact ⟨s.nextSession, .of_channels rfl⟩
  cases e with
  | accept raddr => cases next
  | received sid header body => cases next
  | readAgain sid processor => cases next
  | tick elapsed =>
    cases next
    exact ⟨s.nextSession, .of_channels rfl⟩
  | fire => exact manager next
  | onTimer i => exact manager next
  | pokeTask => exact manager next
  | resolved i answer =>
    obtain ⟨hname, _, rfl⟩ := Option.map_eq_some_iff.mp next
    exact ⟨s.nextSession, .of_channels
      (@creates_connectResolved json node node (fun _ => True) _ hname answer).channels⟩
  | connectHandler sid ok =>
    obtain ⟨outcome, connected, returned⟩ := Option.bind_eq_some_iff.mp next
    have carries := Server.connectHandler_carries Session.carried_persists Session.persists_reading
      connected rfl
    refine ⟨sid, Server.returned_all (P := fun t => GivesUp node sid s t) (carries.mono ?_) returned⟩
    rintro t (⟨store, rfl, _⟩ | rfl)
    · exact .of_channels rfl
    · exact givesUp_stop _ sid
  | readFailed sid =>
    simp only [Net.stepAlone, Server.step] at next
    split at next
    · cases next
    · cases next
      exact ⟨sid, givesUp_stop _ sid⟩
  | written sid i ok =>
    obtain ⟨outcome, completed, returned⟩ := Option.bind_eq_some_iff.mp next
    obtain ⟨call, _, rfl⟩ := Option.map_eq_some_iff.mp completed
    refine ⟨sid, Server.returned_all (P := fun t => GivesUp node sid s t) ?_ returned⟩
    apply Outcome.all_map.mpr
    apply Outcome.all_of_final
    intro store _
    split
    · exact givesUp_emitClosed _ sid
    · exact .of_channels rfl
/-! ## A message of the lower server at the boss -/

/-- What the boss does with a session when its two roles are taken. -/
theorem addSession_full (lawful : json.Lawful) {remote : Remote} {store : Sessions} {high low : SessionId}
    (peer : (store.session sid).peerNode = some node) (boss : ¬ own < node)
    (isHigh : remote.sessionH = some high) (isLow : remote.sessionL = some low) :
    let offered := remote.sessionC = none ∧ (store.session high).direction = .incoming ∧
      (store.session low).direction = .incoming ∧ (store.session sid).direction = .outgoing
    (offered ∧ ∃ queued, remote.addSession json ⟨own, "userver"⟩ sid store =
        .done ({ remote with sessionC := some sid }, remote.announced sid queued store)) ∨
      (¬ offered ∧ ∃ after, (store.connectClosed sid (.remote remote.node)).gracefullClose json
          ⟨own, "userver"⟩ sid "duplicated connection" = .done after ∧
        remote.addSession json ⟨own, "userver"⟩ sid store = .done (remote, after)) := by
  have samePeer : ((store.connectClosed sid (.remote remote.node)).session sid).peerNode = some node := by
    simpa [Sessions.connectClosed, Session.peerNode] using peer
  have direction : ∀ other, ((store.connectClosed sid (.remote remote.node)).session other).direction =
      (store.session other).direction := Sessions.set_congr (·.direction) rfl
  simp only [Remote.addSession, samePeer, if_neg boss, isHigh, isLow, direction]
  split
  next offered =>
    obtain ⟨queued, _, done⟩ := Sessions.putOutQueue_service lawful ⟨own, "userver"⟩ "priority" "priority"
      Priority.control.putValue sid (store.connectClosed sid (.remote remote.node))
    refine .inl ⟨offered, queued, ?_⟩
    have announces : (store.connectClosed sid (.remote remote.node)).putOutQueue json sid
        (Remote.priorityMsg ⟨own, "userver"⟩ .control) = .done (remote.announced sid queued store) := done
    rw [announces]
    rfl
  next refused =>
    obtain ⟨after, closed⟩ := Sessions.gracefullClose_done ⟨own, "userver"⟩ lawful sid
      "duplicated connection" (store.connectClosed sid (.remote remote.node))
    exact .inr ⟨refused, after, closed, by rw [closed]; rfl⟩

/-- A message of an unknown session leads to `addSession`, unless its node has no name. -/
theorem dispatchMsg_first {notice : Notice} {header : PTree} {body : Body} (different : own ≠ node)
    (isFrame : notice.Frame json ⟨node, "userver"⟩ (header, body))
    (unknown : (s.store.session sid).msg1 = none) :
    (s.dispatchMsg json ⟨own, "userver"⟩ sid header body).All fun t =>
      (node = "" ∧ ∃ store, t = s.withStore store ∧
        (s.store.gracefullClose json ⟨own, "userver"⟩ sid "authentication failed").final = some store) ∨
      (node ≠ "" ∧ ∃ msg changed store,
        (((s.nodeToSession.lookup node).getD (.new node)).addSession json ⟨own, "userver"⟩ sid
          (s.store.set sid { s.store.session sid with msg1 := some msg })).final = some (changed, store) ∧
        ((s.store.set sid { s.store.session sid with msg1 := some msg }).session sid).peerNode = some node ∧
        t.nodeToSession = (s.setRemote node (changed, store)).nodeToSession ∧
        t.nextSession = s.nextSession ∧ t.store = store) := by
  generalize isMsg : Msg.incoming ⟨own, "userver"⟩ header body (some sid) = msg
  have sender : msg.from = ⟨"userver", node⟩ := isMsg ▸ (incoming_notice isFrame (some sid)).1
  have passes : Session.authenticate ⟨own, "userver"⟩ msg = true ↔ node ≠ "" := by
    rw [Session.authenticate_userver, sender]
    simp [Ne.symm different]
  by_cases named : node = ""
  · have refused : Session.authenticate ⟨own, "userver"⟩ msg = false := by
      rw [← Bool.not_eq_true, passes]
      exact fun other => other named
    have notKnown : (s.store.session sid).authenticated = false := by
      rw [Session.authenticated, unknown]
      rfl
    simp only [Server.dispatchMsg, notKnown, isMsg, refused, Bool.false_eq_true, if_false]
    apply Outcome.all_map.mpr
    apply Outcome.all_of_final
    exact fun store final => .inl ⟨named, store, rfl, final⟩
  · have isRemote : msg.fromLocal ⟨own, "userver"⟩ = false := by
      rw [Msg.fromLocal, sender]
      simpa [UConfig.isLocalNode] using Ne.symm different
    generalize isKnown :
      s.withStore (s.store.set sid { s.store.session sid with msg1 := some msg }) = known
    apply (Server.dispatchMsg_enters isMsg.symm isKnown.symm unknown (passes.mpr named) isRemote).mono
    rintro t ⟨changed, store, final, rfl⟩
    rw [sender] at final ⊢
    refine .inr ⟨named, msg, changed, store, ?_, ?_, ?_, ?_, rfl⟩
    · rw [← isKnown] at final
      exact final
    · simp [Session.peerNode, sender]
    · rw [← isKnown]
      rfl
    · rw [← isKnown]
      rfl

theorem closes_one {config : UConfig} {store after : Sessions} {reason : String}
    (final : (store.gracefullClose json config sid reason).final = some after) :
    (∀ other ≠ sid, after.session other = store.session other) ∧ store.Persist after := by
  refine ⟨?_, ?_⟩
  · obtain ⟨ss, _, rfl⟩ := Option.map_eq_some_iff.mp ((Outcome.final_map ..).symm.trans final)
    exact fun other different => by simp [different]
  · exact (Sessions.carries_gracefullClose Session.carried_persists json config sid reason
      store).of_final final

/-! ## The third role belongs to an outgoing session -/

def OutgoingThird (node : String) (s : Server) : Prop :=
  ∀ sid, slotOf s node .control = some sid → (s.store.session sid).direction = .outgoing

theorem OutgoingThird.of_same (third : OutgoingThird node s)
    (slots : slotOf t node .control = slotOf s node .control)
    (directions : ∀ sid, (t.store.session sid).direction = (s.store.session sid).direction) :
    OutgoingThird node t := by
  intro sid held
  rw [directions]
  exact third sid (slots ▸ held)

theorem control_addSession (lawful : json.Lawful) {remote changed : Remote} {store after : Sessions}
    (final : (remote.addSession json ⟨own, "userver"⟩ sid store).final = some (changed, after)) :
    changed.sessionC = remote.sessionC ∨
      (changed.sessionC = some sid ∧ (store.session sid).direction = .outgoing) := by
  rcases Remote.addSession_cases lawful final with ⟨_, rfl⟩ | ⟨peer, known, waits | ⟨boss, high | low | full⟩⟩
  · exact .inl rfl
  · obtain ⟨_, rfl⟩ := waits
    exact .inl rfl
  · obtain ⟨_, rfl, _⟩ := high
    exact .inl rfl
  · obtain ⟨_, _, rfl⟩ := low
    exact .inl rfl
  · obtain ⟨high, isHigh⟩ := Option.ne_none_iff_exists'.mp full.1
    obtain ⟨low, isLow⟩ := Option.ne_none_iff_exists'.mp full.2.1
    rcases addSession_full lawful known boss isHigh isLow with ⟨offered, _, done⟩ | ⟨_, _, _, done⟩
    · rw [done] at final
      cases final
      exact .inr ⟨rfl, offered.2.2.2⟩
    · rw [done] at final
      cases final
      exact .inl rfl

theorem third_message (lawful : json.Lawful) (different : own ≠ node) (third : OutgoingThird node s)
    {notice : Notice} (other : ∀ role, notice ≠ .priority role) {frame : PTree × Body}
    (isFrame : notice.Frame json ⟨node, "userver"⟩ frame) :
    (s.dispatchMsg json ⟨own, "userver"⟩ sid frame.1 frame.2).All (OutgoingThird node) := by
  by_cases unknown : (s.store.session sid).msg1 = none
  · apply (dispatchMsg_first different isFrame unknown).mono
    rintro t (⟨_, store, rfl, final⟩ | ⟨_, msg, changed, store, final, peer, channels, _, rfl⟩)
    · exact third.of_same rfl fun other => ((closes_one final).2 other).direction
    · have directions : ∀ other, ((s.store.set sid { s.store.session sid with msg1 := some msg }).session
          other).direction = (s.store.session other).direction := Sessions.set_congr (·.direction) rfl
      have persist := Remote.carries_addSession Session.carried_persists lawful peer final
      have slot : slotOf t node .control = changed.sessionC := by
        rw [slotOf_congr channels, slotOf_setRemote, if_pos rfl]
        rfl
      intro held taken
      rw [(persist held).direction, directions]
      rw [slot] at taken
      rcases control_addSession lawful final with same | ⟨isNew, outgoing⟩
      · apply third held
        rw [(@channel_getD json own (fun _ => True) s node).1 .control]
        exact same.symm.trans taken
      · obtain rfl : sid = held := Option.some.inj (isNew.symm.trans taken)
        rwa [directions] at outgoing
  · rw [dispatchMsg_ignored isFrame unknown other]
    exact third

theorem third_readAgain (third : OutgoingThird node s) (processor : InputProcessor) :
    OutgoingThird node (s.readAgain sid processor) := by
  refine third.of_same rfl ?_
  exact Sessions.set_congr (·.direction) rfl

theorem third_accept {config : UConfig} {pid : Nat} {raddr : String} (third : OutgoingThird node s)
    (bound : ∀ sid, slotOf s node .control = some sid → sid < s.nextSession) :
    (s.accept json config pid raddr).All (OutgoingThird node) := by
  apply (Server.accept_carries Session.carried_persists Session.persists_reading raddr s).mono
  rintro t ⟨store, rfl, persist⟩ sid held
  have old := Nat.ne_of_lt (bound sid held)
  have same := (persist sid).direction.trans
    (congrArg (·.direction) (Server.createSession_other .incoming raddr old))
  exact same.trans (third sid held)

end OneServer

/-! ## Runs of both servers -/

section TwoServers

variable {json : JsonCodec} {name : Side → String} {pid : Side → Nat} {net after : Net} {side : Side}

/-- The read handler of the boss, by what one message of the lower server does. -/
theorem boss_reads (lawful : json.Lawful) (joint : Joint json name pid net) {sid : SessionId} {length : Nat}
    {P : Server → Prop}
    (each : ∀ {u notice frame}, (∀ role, notice ≠ .priority role) →
      Notice.Frame json ⟨name .lower, "userver"⟩ notice frame → P u →
        (u.dispatchMsg json ⟨name .boss, "userver"⟩ sid frame.1 frame.2).All P)
    (initial : sid < (net.server .boss).nextSession → P (net.server .boss))
    (next : net.read json name .boss sid length = some after) :
    ∃ u processor, P u ∧ after.server .boss = u.readAgain sid processor := by
  obtain ⟨peer, t, _, _, created, stream, returned, rfl⟩ := read_cases joint.wired next
  obtain ⟨notices, kinds, written⟩ := ((joint.orderly .lower).honest peer).notices
  obtain ⟨u, processor, holds, _, rfl⟩ := @read_rule json (name .boss) (name .lower) (net.server .boss) t sid
    lawful (fun _ => P) _ _ _ notices _ written stream (joint.follows .boss sid created)
    (fun position isFrame => each (kinds _ (List.mem_of_getElem? position)) isFrame)
    (fun created _ => initial created) returned
  exact ⟨u, processor, holds, @setServer_self net .boss (u.readAgain sid processor)⟩

theorem step_of_alone {s t : Server} {e : ServerEvent} (next : Net.stepAlone json name pid side s e = some t) :
    s.step json (Net.config name side) (pid side) e = some t := by
  cases e with
  | accept raddr => cases next
  | received sid header body => cases next
  | readAgain sid processor => cases next
  | tick elapsed => exact next
  | fire => exact next
  | onTimer i => exact next
  | pokeTask => exact next
  | resolved i answer => exact next
  | connectHandler sid ok => exact next
  | readFailed sid => exact next
  | written sid i ok => exact next

theorem accept_cases {sid : SessionId} {raddr : String}
    (next : net.accept json name pid side sid raddr = some after) :
    ∃ t, Server.returned ((net.server side).accept json (Net.config name side) (pid side) raddr) = some t ∧
      after.server side = t ∧ after.server side.other = net.server side.other := by
  unfold Net.accept at next
  split at next
  next =>
    obtain ⟨t, returned, rfl⟩ := Option.map_eq_some_iff.mp next
    exact ⟨t, returned, @setServer_self net side t, @setServer_other net side t⟩
  next => cases next

theorem third_step (lawful : json.Lawful) (order : name .lower < name .boss) (joint : Joint json name pid net)
    (third : OutgoingThird (name .lower) (net.server .boss)) {e : NetEvent}
    (next : net.step json name pid e = some after) :
    OutgoingThird (name .lower) (after.server .boss) := by
  have bound := (joint.orderly .boss).roles .control
  cases e with
  | alone side e =>
    obtain ⟨t, returned, rfl⟩ := Option.map_eq_some_iff.mp next
    cases side with
    | lower => exact third
    | boss =>
      have self : (net.setServer .boss t).server .boss = t := setServer_self t
      rw [self]
      obtain ⟨sid, givesUp⟩ := @givesUp_alone json (name .lower) _ _ name pid .boss e returned
      have evolves := Server.evolves_step lawful (step_of_alone returned)
      intro held taken
      rcases givesUp .control with same | ⟨_, gone⟩
      · rw [same] at taken
        rw [evolves.direction held (bound held taken)]
        exact third held taken
      · rw [gone] at taken
        cases taken
  | gracefullClose side sid reason =>
    obtain ⟨t, returned, rfl⟩ := Option.map_eq_some_iff.mp next
    cases side with
    | lower => exact third
    | boss =>
      have self : (net.setServer .boss t).server .boss = t := setServer_self t
      rw [self]
      refine Server.returned_all ?_ returned
      apply Outcome.all_map.mpr
      apply (Sessions.carries_gracefullClose Session.carried_persists json _ sid reason _).mono
      exact fun store persist => third.of_same rfl fun other => (persist other).direction
  | accept side sid raddr =>
    obtain ⟨t, returned, rfl, other⟩ := accept_cases next
    cases side with
    | lower =>
      have same : after.server .boss = net.server .boss := other
      rw [same]
      exact third
    | boss => exact Server.returned_all (third_accept third bound) returned
  | read side sid length =>
    cases side with
    | lower =>
      obtain ⟨_, t, _, _, _, _, _, rfl⟩ := read_cases joint.wired next
      exact third
    | boss =>
      obtain ⟨u, processor, holds, same⟩ := boss_reads lawful joint
        (fun other isFrame third => third_message lawful (ne_of_gt order) third other isFrame)
        (fun _ => third) next
      rw [same]
      exact third_readAgain holds processor


/-- The third role of the boss belongs to a session that it has opened, in every state that two servers reach
together. -/
theorem third_outgoing (lawful : json.Lawful) (order : name .lower < name .boss) (now : Side → Nat)
    (remotes : Side → List String) (events : List NetEvent) :
    Always (Net.step json name pid) (fun net => OutgoingThird (name .lower) (net.server .boss))
      (.initial name now remotes) events := by
  have runs : Always (Net.step json name pid)
      (fun net => Joint json name pid net ∧ OutgoingThird (name .lower) (net.server .boss))
      (.initial name now remotes) events := by
    refine always_of_invariant ?_ ⟨joint_initial now remotes, fun _ held => by cases held⟩ events
    rintro net after e ⟨joint, third⟩ next
    exact ⟨joint_step lawful order joint next, third_step lawful order joint third next⟩
  exact runs.mono fun _ => And.right

end TwoServers

end Uzel.Verified.ThirdRole
