import Uzel.Foundation.Runs
import Uzel.ServerRules

/-! # A server with its past

The state of a server does not say everything about the run that led to it.  A `Chronicle` goes along
with a run and notes what became of the messages of each session, how often each session has emitted
`s_closed`, and which sessions `do_accept` has started.
-/

namespace Uzel

open Foundation

/-- What `session::dispatchMsg` does with a message: it passes `authenticate` and `s_auth` is emitted, it
fails `authenticate`, or the session is authenticated already and the message goes to the dispatcher. -/
inductive Verdict where
  | authenticated (msg : Msg)
  | refused
  | dispatched

namespace Server

def verdict (config : UConfig) (sid : SessionId) (header : PTree) (body : Body) (s : Server) : Verdict :=
  let msg := Msg.incoming config header body (some sid)
  if (s.store.session sid).authenticated then .dispatched
  else if Session.authenticate config msg then .authenticated msg
  else .refused

/-- `do_accept` refuses the connection; the new session has been counted already. -/
def refuses (raddr : String) (s : Server) : Prop :=
  maxConnectionsWithAddr < ((s.createSession .incoming raddr).ipToSession raddr).length

instance (raddr : String) (s : Server) : Decidable (s.refuses raddr) := Nat.decLt _ _

/-- The session has been created and stopped. -/
def ended (s : Server) (sid : SessionId) : Prop :=
  sid < s.nextSession ∧ (s.store.session sid).stopped = true

instance (s : Server) (sid : SessionId) : Decidable (s.ended sid) := instDecidableAnd

/-- The first message of a session after an event.  Nothing but a message that passes `authenticate`
sets it. -/
def msg1After (config : UConfig) (s : Server) (e : ServerEvent) (other : SessionId) : Option Msg :=
  match e with
  | .received sid header body =>
    if other = sid then
      match s.verdict config sid header body with
      | .authenticated msg => some msg
      | _ => (s.store.session sid).msg1
    else (s.store.session other).msg1
  | _ => (s.store.session other).msg1

/-- A session that is still to be created has no first message. -/
def Blank (s : Server) : Prop := ∀ sid, s.nextSession ≤ sid → (s.store.session sid).msg1 = none

section FirstMessages

variable {json : JsonCodec} {config : UConfig} {pid : Nat} {s t : Server}

theorem create_msg1 {n : SessionId} {expected : SessionId → Option Msg}
    (later : ∀ sid, n ≤ sid → expected sid = none) (direction : Direction) (ip : String)
    (holds : n ≤ t.nextSession ∧ ∀ sid, (t.store.session sid).msg1 = expected sid) :
    n ≤ (t.createSession direction ip).nextSession ∧
      ∀ sid, ((t.createSession direction ip).store.session sid).msg1 = expected sid := by
  refine ⟨holds.1.trans (Nat.le_succ _), ?_⟩
  intro sid
  by_cases new : sid = t.nextSession
  · rw [new, createSession_self, later _ holds.1]
    rfl
  · rw [createSession_other direction ip new]
    exact holds.2 sid

theorem kept_msg1 {own : String} {n : SessionId} {expected : SessionId → Option Msg}
    (later : ∀ sid, n ≤ sid → expected sid = none) :
    Kept own fun t => n ≤ t.nextSession ∧ ∀ sid, (t.store.session sid).msg1 = expected sid where
  steady holds steady :=
    ⟨steady.nextSession ▸ holds.1, fun sid => (steady.sessions sid).msg1.trans (holds.2 sid)⟩
  create ip holds := create_msg1 later .incoming ip holds
  stop holds running :=
    ⟨(closing_stop running).nextSession ▸ holds.1,
      fun sid => (stop_keeps (·.msg1) (fun _ => rfl) running sid).trans (holds.2 sid)⟩

theorem later_msg1After (blank : s.Blank) {sid : SessionId} (created : sid < s.nextSession)
    (header : PTree) (body : Body) (other : SessionId) (new : s.nextSession ≤ other) :
    s.msg1After config (.received sid header body) other = none := by
  have different : other ≠ sid := fun same => Nat.not_le.mpr created (same ▸ new)
  simpa [msg1After, different] using blank other new

theorem dispatchMsg_msg1 (lawful : json.Lawful) (blank : s.Blank) {sid : SessionId}
    (created : sid < s.nextSession) (header : PTree) (body : Body) :
    (s.dispatchMsg json config sid header body).All fun t => s.nextSession ≤ t.nextSession ∧
      ∀ other, (t.store.session other).msg1 = s.msg1After config (.received sid header body) other := by
  generalize isMsg : Msg.incoming config header body (some sid) = msg
  generalize isKnown : s.withStore (s.store.set sid { s.store.session sid with msg1 := some msg }) = known
  have kept := @kept_msg1 config.nodeName s.nextSession
    (s.msg1After config (.received sid header body)) (later_msg1After blank created header body)
  have unchanged : ((s.store.session sid).msg1 = none → Session.authenticate config msg = false) →
      ∀ other, (s.store.session other).msg1 = s.msg1After config (.received sid header body) other := by
    intro fails other
    cases unknown : (s.store.session sid).msg1 with
    | none =>
      by_cases same : other = sid
      · simp [msg1After, verdict, isMsg, same, Session.authenticated, unknown, fails unknown]
      · simp [msg1After, same]
    | some msg1 =>
      by_cases same : other = sid
      · simp [msg1After, verdict, same, Session.authenticated, unknown]
      · simp [msg1After, same]
  have passes : (s.store.session sid).msg1 = none → Session.authenticate config msg = true →
      s.nextSession ≤ known.nextSession ∧ ∀ other, (known.store.session other).msg1 =
        s.msg1After config (.received sid header body) other := by
    intro unknown passed
    rw [← isKnown]
    refine ⟨Nat.le_refl _, ?_⟩
    intro other
    by_cases same : other = sid
    · simp [msg1After, verdict, isMsg, withStore, same, Session.authenticated, unknown, passed]
    · simp [msg1After, withStore, same]
  apply kept.dispatchMsg isMsg.symm isKnown.symm
  · exact fun fails => ⟨Nat.le_refl _, unchanged fails⟩
  · intro unknown passed _ t steady
    have after := @kept.steady known t (passes unknown passed) steady
    exact after
  · intro unknown passed _ changed after final
    have peer : (known.store.session sid).peerNode = some msg.from.node := by
      simp [← isKnown, withStore, Session.peerNode]
    have persist := Remote.carries_addSession Session.carried_persists lawful peer final
    exact ⟨(passes unknown passed).1,
      fun other => (persist other).msg1.trans ((passes unknown passed).2 other)⟩
  · intro known _ _ remote left changed after _ final
    have persist := Remote.carries_handlePriorityMsg Session.carried_persists final
    have fails : (s.store.session sid).msg1 = none → Session.authenticate config msg = false :=
      fun unknown => by simp [Session.authenticated, unknown] at known
    exact ⟨Nat.le_refl _, fun other => (persist other).msg1.trans (unchanged fails other)⟩

theorem msg1_step (lawful : json.Lawful) (blank : s.Blank) {e : ServerEvent}
    (next : s.step json config pid e = some t) :
    s.nextSession ≤ t.nextSession ∧ ∀ sid, (t.store.session sid).msg1 = s.msg1After config e sid := by
  by_cases heard : ∃ sid header body, e = .received sid header body
  · obtain ⟨sid, header, body, rfl⟩ := heard
    obtain ⟨created, handled⟩ := received_cases next
    have kept := @kept_msg1 config.nodeName s.nextSession
      (s.msg1After config (.received sid header body)) (later_msg1After blank created header body)
    have dispatched := @dispatchMsg_msg1 json config s lawful blank sid created header body
    rcases handled with done | ⟨u, raised, rfl⟩
    · rw [done] at dispatched
      exact dispatched
    · rw [raised] at dispatched
      exact kept.readFailed dispatched sid
  · have same : s.msg1After config e = fun sid => (s.store.session sid).msg1 := by
      cases e with
      | received sid header body => exact absurd ⟨sid, header, body, rfl⟩ heard
      | _ => rfl
    rw [same]
    apply (@kept_msg1 config.nodeName s.nextSession (fun sid => (s.store.session sid).msg1) blank).step _ _ _ next
    · exact fun sid header body received => absurd ⟨sid, header, body, received⟩ heard
    · exact fun ip holds => create_msg1 blank .outgoing ip holds
    · exact fun _ holds => holds
    · exact ⟨Nat.le_refl _, fun _ => rfl⟩

theorem blank_step (lawful : json.Lawful) (blank : s.Blank) {e : ServerEvent}
    (next : s.step json config pid e = some t) : t.Blank := by
  obtain ⟨le, msg1⟩ := msg1_step lawful blank next
  intro sid new
  have new := le.trans new
  rw [msg1]
  cases e with
  | received other header body => exact later_msg1After blank (received_cases next).1 header body sid new
  | _ => exact blank sid new

end FirstMessages

end Server

structure Chronicle where
  server : Server
  verdicts : SessionId → List Verdict
  /-- how often `s_closed` has been emitted -/
  closings : SessionId → Nat
  /-- the sessions that `do_accept` has started -/
  started : List SessionId

namespace Chronicle

variable (json : JsonCodec) (config : UConfig) (pid : Nat)

/-- `stop()` emits `s_closed` if, and only if, it sets `m_stopped`. -/
def step (c : Chronicle) (e : ServerEvent) : Option Chronicle :=
  (c.server.step json config pid e).map fun server =>
    { server
      verdicts :=
        match e with
        | .received sid header body => Function.update c.verdicts sid
            (c.verdicts sid ++ [c.server.verdict config sid header body])
        | _ => c.verdicts
      closings := fun sid =>
        if ¬ c.server.ended sid ∧ server.ended sid then c.closings sid + 1 else c.closings sid
      started :=
        match e with
        | .accept raddr =>
          if c.server.refuses raddr then c.started else c.started ++ [c.server.nextSession]
        | _ => c.started }

def initial (now : Nat) (remotes : List String) : Chronicle :=
  ⟨.initial config now remotes, fun _ => [], fun _ => 0, []⟩

/-- A session that has been stopped has emitted `s_closed`, once. -/
def Counted (c : Chronicle) : Prop := ∀ sid, c.closings sid = if c.server.ended sid then 1 else 0

variable {json config pid} {c d : Chronicle} {e : ServerEvent}

theorem step_server (next : c.step json config pid e = some d) :
    c.server.step json config pid e = some d.server := by
  obtain ⟨server, stepped, rfl⟩ := Option.map_eq_some_iff.mp next
  exact stepped

theorem ended_step (lawful : json.Lawful) (next : c.step json config pid e = some d) {sid : SessionId}
    (ended : c.server.ended sid) : d.server.ended sid := by
  have evolves := Server.evolves_step lawful (step_server next)
  exact ⟨ended.1.trans_le evolves.next, evolves.stopped sid ended.1 ended.2⟩

theorem counted_initial (now : Nat) (remotes : List String) : Counted (.initial config now remotes) := by
  intro sid
  rw [if_neg fun ended => Nat.not_lt_zero sid ended.1]
  rfl

theorem counted_step (lawful : json.Lawful) (counted : c.Counted)
    (next : c.step json config pid e = some d) : d.Counted := by
  intro sid
  have before := counted sid
  have stays := @ended_step json config pid c d e lawful next sid
  obtain ⟨server, stepped, rfl⟩ := Option.map_eq_some_iff.mp next
  dsimp only at stays ⊢
  by_cases ended : c.server.ended sid
  · simp [ended, stays ended, before]
  · by_cases ends : server.ended sid
    · simp [ended, ends, before]
    · simp [ended, ends, before]

end Chronicle

end Uzel
