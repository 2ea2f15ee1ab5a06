import Uzel.Priority
import Uzel.Verified.SingleWriter

/-! # The end of a session

`gracefullClose` notifies the peer and shuts the session down.  It sends the bye itself when it finds
the queue empty and leaves it to the completion of a write otherwise, so two things go wrong: a queue
that waits without a write keeps the session open, and a message that arrives in the empty queue of a
closing session is written behind the bye.  `closing_runs_iff` says that there are no others.
-/

namespace Uzel.Verified.ClosingProtocol

open Foundation

/-- A session with every write that has been started on it, the oldest first. -/
structure ClosingState extends SessionState where
  started : List Write

namespace ClosingState

def initial (direction : Direction) (remoteIp : String) : ClosingState :=
  ⟨.initial direction remoteIp, []⟩

/-- The outstanding writes that do not complete in an event. -/
def remaining (s : ClosingState) : SessionEvent → List Write
  | .written i _ => s.session.writes.eraseIdx i
  | _ => s.session.writes

/-- Writes are started behind those that are outstanding. -/
def step (json : JsonCodec) (config : UConfig) (pid : Nat) (s : ClosingState) (e : SessionEvent) :
    Option ClosingState :=
  (s.toSessionState.step json config pid e).map fun t =>
    ⟨t, s.started ++ t.session.writes.drop (s.remaining e).length⟩

end ClosingState

def isBye : Write → Bool
  | .bye _ => true
  | .message _ _ => false

/-- A session that closes has a write outstanding until it is stopped, and the bye is sent once and
is the last write. -/
structure ClosesProperly (s : ClosingState) : Prop where
  outstanding : s.session.closeFlag = true → s.session.stopped = false → s.session.writes ≠ []
  once : s.started.countP isBye ≤ 1
  last : ∀ earlier live later, s.started = earlier ++ .bye live :: later → later = []

/-- Nothing that could be written goes into the empty queue of a closing session. -/
def InTime (s : ClosingState) (msgs : MsgQueue) : Prop :=
  s.session.closeFlag = true → s.session.outQueue = [] → ∀ msg ∈ msgs, msg.expired s.now = true

/-- When a session closes, its queue is empty or a write is outstanding, and nothing is queued on it
after its last message. -/
def Orderly (json : JsonCodec) (config : UConfig) (pid : Nat) (s : ClosingState) : SessionEvent → Prop
  | .start => ∀ queued,
    QueuedMsg.ofMsg json s.now s.nextMsg (Session.authMsg config pid) = some queued → InTime s [queued]
  | .putOutQueue msg => ∀ queued, QueuedMsg.ofMsg json s.now s.nextMsg msg = some queued →
    InTime s [queued]
  | .takeOverMessages oq => InTime s oq
  | .gracefullClose _ =>
    s.session.closeFlag = false → s.session.writes = [] → s.session.outQueue = []
  | _ => True

/-! ## The phases of a session -/

def NoBye (started : List Write) : Prop := ∀ live, .bye live ∉ started

inductive Phase (ss : Session) (started : List Write) : Prop
  | idle (staying : ss.closeFlag = false) (running : ss.stopped = false) (writes : ss.writes = [])
      (noBye : NoBye started)
  | writing {front : QueuedMsg} {rest : MsgQueue} (running : ss.stopped = false)
      (queue : ss.outQueue = front :: rest) (writes : ss.writes = [.message front true])
      (noBye : NoBye started)
  | leaving {earlier : List Write} (closing : ss.closeFlag = true) (running : ss.stopped = false)
      (writes : ss.writes = [.bye true]) (started : started = earlier ++ [.bye true])
      (noBye : NoBye earlier)
  | failed (closing : ss.closeFlag = true) (stopped : ss.stopped = true) (queue : ss.outQueue ≠ [])
      (writes : ss.writes = []) (noBye : NoBye started)
  | left {earlier : List Write} (closing : ss.closeFlag = true) (stopped : ss.stopped = true)
      (writes : ss.writes = []) (started : started = earlier ++ [.bye true]) (noBye : NoBye earlier)

theorem NoBye.append {started : List Write} (noBye : NoBye started) (msg : QueuedMsg) (live : Bool) :
    NoBye (started ++ [.message msg live]) := by
  intro other member
  rw [List.mem_append, List.mem_singleton] at member
  cases member with
  | inl before => exact noBye other before
  | inr isNew => cases isNew

theorem NoBye.count {started : List Write} (noBye : NoBye started) : started.countP isBye = 0 := by
  rw [List.countP_eq_zero]
  intro write member
  cases write with
  | message msg live => simp [isBye]
  | bye live => exact absurd member (noBye live)

theorem NoBye.last {started earlier later : List Write} (noBye : NoBye started) {live : Bool}
    (split : started = earlier ++ .bye live :: later) : later = [] := by
  subst split
  exact absurd (by simp) (noBye live)

/-- A bye behind writes without one is the last write. -/
theorem NoBye.bye_last {earlier before later : List Write} (noBye : NoBye earlier) {live : Bool}
    (split : earlier ++ [.bye true] = before ++ .bye live :: later) : later = [] := by
  induction earlier generalizing before with
  | nil =>
    cases before with
    | nil =>
      simp only [List.nil_append, List.cons.injEq] at split
      exact split.2.symm
    | cons first before => simp at split
  | cons first earlier inductionHypothesis =>
    have tail : NoBye earlier := fun live member => noBye live (List.mem_cons_of_mem _ member)
    cases before with
    | nil =>
      simp only [List.cons_append, List.nil_append, List.cons.injEq] at split
      exact absurd (split.1 ▸ List.mem_cons_self) (noBye live)
    | cons _ before =>
      simp only [List.cons_append, List.cons.injEq] at split
      exact inductionHypothesis tail split.2

theorem Phase.closesProperly {s : ClosingState} (phase : Phase s.session s.started) :
    ClosesProperly s := by
  cases phase with
  | idle staying _ _ noBye =>
    exact ⟨fun closing => by simp [staying] at closing, by simp [noBye.count],
      fun _ _ _ split => noBye.last split⟩
  | writing _ _ writes noBye =>
    exact ⟨fun _ _ => by simp [writes], by simp [noBye.count], fun _ _ _ split => noBye.last split⟩
  | leaving _ _ writes started noBye =>
    refine ⟨fun _ _ => by simp [writes], by simp [started, noBye.count, isBye], ?_⟩
    intro before live later split
    exact noBye.bye_last (started.symm.trans split)
  | failed _ stopped _ _ noBye =>
    exact ⟨fun _ running => by simp [stopped] at running, by simp [noBye.count],
      fun _ _ _ split => noBye.last split⟩
  | left _ stopped _ started noBye =>
    refine ⟨fun _ running => by simp [stopped] at running, by simp [started, noBye.count, isBye], ?_⟩
    intro before live later split
    exact noBye.bye_last (started.symm.trans split)

/-- The part of a session that its phase depends on. -/
theorem Phase.of_same {ss other : Session} {started : List Write} (phase : Phase ss started)
    (stopped : other.stopped = ss.stopped) (closeFlag : other.closeFlag = ss.closeFlag)
    (outQueue : other.outQueue = ss.outQueue) (writes : other.writes = ss.writes) :
    Phase other started := by
  cases phase with
  | idle a b c d => exact .idle (closeFlag.trans a) (stopped.trans b) (writes.trans c) d
  | writing a b c d => exact .writing (stopped.trans a) (outQueue.trans b) (writes.trans c) d
  | leaving a b c d e => exact .leaving (closeFlag.trans a) (stopped.trans b) (writes.trans c) d e
  | failed a b c d e =>
    exact .failed (closeFlag.trans a) (stopped.trans b) (outQueue ▸ c) (writes.trans d) e
  | left a b c d e => exact .left (closeFlag.trans a) (stopped.trans b) (writes.trans c) d e

/-- An operation starts some writes behind the remaining ones. -/
def Goes (remaining started : List Write) (after : Session) : Prop :=
  ∃ new, after.writes = remaining ++ new ∧ Phase after (started ++ new)

theorem Phase.goes {after : Session} {started : List Write} (phase : Phase after started)
    {remaining : List Write} (writes : after.writes = remaining) : Goes remaining started after :=
  ⟨[], by simpa using writes, by simpa using phase⟩

/-! ## The operations -/

theorem goes_append {ss : Session} {started : List Write} (phase : Phase ss started) {now : Nat}
    {msgs : MsgQueue} (inTime : ss.closeFlag = true → ss.outQueue = [] →
      ∀ msg ∈ msgs, msg.expired now = true) : Goes ss.writes started (ss.append now msgs) := by
  have endpoint := Session.append_toEndpoint now msgs ss
  have stopped := congrArg Endpoint.stopped endpoint
  have flag := congrArg Endpoint.closeFlag endpoint
  have appends := Session.appends_append now msgs ss
  generalize ss.append now msgs = after at appends stopped flag
  cases appends with
  | behind _ same =>
    subst same
    apply Phase.goes _ rfl
    cases phase with
    | idle staying running writes noBye => exact .idle staying running writes noBye
    | @writing front rest running queue writes noBye =>
      exact @Phase.writing _ _ front (rest ++ msgs) running (by simp [queue]) writes noBye
    | leaving closing running writes started noBye =>
      exact .leaving closing running writes started noBye
    | failed closing stopped queue writes noBye =>
      exact .failed closing stopped (by simp [queue]) writes noBye
    | left closing stopped writes started noBye => exact .left closing stopped writes started noBye
  | expired empty _ queue writes =>
    exact (phase.of_same stopped flag (queue.trans empty.symm) writes).goes writes
  | started empty young queue writes =>
    cases phase with
    | idle staying running idle noBye =>
      refine ⟨_, writes, .writing (stopped.trans running) queue ?_ (noBye.append _ _)⟩
      simp [writes, idle, running]
    | writing _ waiting _ _ => simp [empty] at waiting
    | failed _ _ waiting _ _ => exact absurd empty waiting
    | leaving closing _ _ _ _ | left closing _ _ _ _ =>
      obtain ⟨msg, member, young⟩ := young
      simp [inTime closing empty msg member] at young

theorem goes_sendByeAndClose {json : JsonCodec} (lawful : json.Lawful) (config : UConfig)
    {ss : Session} {started : List Write} (closing : ss.closeFlag = true)
    (running : ss.stopped = false) (writes : ss.writes = []) (noBye : NoBye started) :
    (ss.sendByeAndClose json config).All (Goes [] started) := by
  obtain ⟨text, bye⟩ := sendByeAndClose_eq config lawful ss
  rw [bye]
  refine ⟨[.bye true], by simp [writes, running], ?_⟩
  exact .leaving closing running (by simp [writes, running]) rfl noBye

theorem goes_gracefullClose {json : JsonCodec} (lawful : json.Lawful) (config : UConfig)
    {ss : Session} {started : List Write} (phase : Phase ss started) (reason : String)
    (ready : ss.closeFlag = false → ss.writes = [] → ss.outQueue = []) :
    (ss.gracefullClose json config reason).All (Goes ss.writes started) := by
  simp only [Session.gracefullClose]
  split
  next => exact phase.goes rfl
  next staying =>
    cases phase with
    | idle open_ running writes noBye =>
      rw [if_pos (List.isEmpty_iff.mpr (ready open_ writes))]
      have goes := @goes_sendByeAndClose _ lawful config { ss with reason, closeFlag := true } _ rfl
        running writes noBye
      exact writes ▸ goes
    | writing running queue writes noBye =>
      -- the completion of the outstanding write sends the bye
      rw [if_neg (by simp [queue])]
      exact @Phase.goes { ss with reason, closeFlag := true } _ (.writing running queue writes noBye) _
        rfl
    | leaving closing _ _ _ _ => exact absurd closing staying
    | failed closing _ _ _ _ => exact absurd closing staying
    | left closing _ _ _ _ => exact absurd closing staying

/-- At most one write is outstanding. -/
theorem Phase.erased {ss : Session} {started : List Write} (phase : Phase ss started) {i : Nat}
    (bound : i < ss.writes.length) : ss.writes.eraseIdx i = [] := by
  have one : ss.writes.length ≤ 1 := by
    cases phase with
    | idle _ _ writes _ => simp [writes]
    | writing _ _ writes _ => simp [writes]
    | leaving _ _ writes _ _ => simp [writes]
    | failed _ _ _ writes _ => simp [writes]
    | left _ _ writes _ _ => simp [writes]
  apply List.eq_nil_of_length_eq_zero
  rw [List.length_eraseIdx_of_lt bound]
  omega

theorem goes_onWrite {json : JsonCodec} (lawful : json.Lawful) {config : UConfig} {ss : Session}
    {started : List Write} (phase : Phase ss started) {now i : Nat} {ok : Bool}
    {outcome : Outcome Session} (completed : ss.onWrite json config now i ok = some outcome) :
    outcome.All (Goes (ss.writes.eraseIdx i) started) := by
  cases Session.onWrite_cases completed with
  | inl success =>
    obtain ⟨msg, _, found, rfl⟩ := success
    have nothing := phase.erased (List.getElem?_eq_some_iff.mp found).1
    have member := List.mem_of_getElem? found
    -- only a running session that has not sent its bye writes a message
    have running : ss.stopped = false ∧ NoBye started := by
      cases phase with
      | idle _ _ writes _ => simp [writes] at member
      | writing running _ _ noBye => exact ⟨running, noBye⟩
      | leaving _ _ writes _ _ => simp [writes] at member
      | failed _ _ _ writes _ => simp [writes] at member
      | left _ _ writes _ _ => simp [writes] at member
    simp only [Session.onWritten, nothing]
    split
    next closing => exact goes_sendByeAndClose lawful config closing running.1 rfl running.2
    next staying =>
      apply Phase.goes _ rfl
      exact .idle (by simpa using staying) running.1 rfl running.2
  | inr failure =>
    obtain ⟨_, bound, rfl⟩ := failure
    rw [phase.erased bound]
    apply Phase.goes _ rfl
    cases phase with
    | idle _ _ writes _ => simp [writes] at bound
    | writing _ queue _ noBye => exact .failed rfl rfl (by simp [Session.stop, queue]) rfl noBye
    | leaving _ _ _ started noBye => exact .left rfl rfl rfl started noBye
    | failed _ _ _ writes _ => simp [writes] at bound
    | left _ _ writes _ _ => simp [writes] at bound

/-! ## Runs -/

section Runs

variable {json : JsonCodec} {config : UConfig} {pid : Nat}

theorem goes_putOutQueue {ss : Session} {started : List Write} (phase : Phase ss started) {now id : Nat}
    {msg : Msg} (inTime : ∀ queued, QueuedMsg.ofMsg json now id msg = some queued →
      ss.closeFlag = true → ss.outQueue = [] → ∀ msg ∈ [queued], msg.expired now = true) :
    (ss.putOutQueue json now id msg).All (Goes ss.writes started) := by
  unfold Session.putOutQueue
  cases built : QueuedMsg.ofMsg json now id msg with
  | none => exact phase.goes rfl
  | some queued =>
    show Goes ss.writes started (ss.enqueue now queued)
    rw [Session.enqueue_eq_append]
    exact goes_append phase (inTime queued built)

/-- The log of a step holds the writes that the step has started. -/
theorem Goes.phase {s : ClosingState} {e : SessionEvent} {t : SessionState}
    (goes : Goes (s.remaining e) s.started t.session) :
    Phase t.session (s.started ++ t.session.writes.drop (s.remaining e).length) := by
  obtain ⟨new, writes, phase⟩ := goes
  rw [writes, List.drop_left]
  exact phase

theorem goes_after {s t : SessionState} {remaining started : List Write} {outcome : Outcome Session}
    (all : outcome.All (Goes remaining started)) (next : s.after outcome = some t) :
    Goes remaining started t.session := by
  obtain ⟨session, left, rfl⟩ := Option.map_eq_some_iff.mp next
  exact all.of_final left

theorem phase_step (lawful : json.Lawful) {s t : ClosingState} {e : SessionEvent}
    (phase : Phase s.session s.started) (next : s.step json config pid e = some t)
    (orderly : Orderly json config pid s e) : Phase t.session t.started := by
  obtain ⟨t, stepped, rfl⟩ := Option.map_eq_some_iff.mp next
  apply Goes.phase
  cases e with
  | tick elapsed => cases stepped; exact phase.goes rfl
  | start =>
    apply goes_after _ stepped
    apply Outcome.All.andThen (goes_putOutQueue phase orderly)
    rintro ss ⟨new, writes, phase⟩
    exact ⟨new, writes, phase.of_same rfl rfl rfl rfl⟩
  | authenticate msg =>
    simp only [SessionState.step] at stepped
    split at stepped
    · cases stepped
      exact @Phase.goes { s.session with msg1 := some msg } _ (phase.of_same rfl rfl rfl rfl) _ rfl
    · cases stepped
  | putOutQueue msg => exact goes_after (goes_putOutQueue phase orderly) stepped
  | takeOverMessages oq =>
    obtain ⟨session, returned, rfl⟩ := Option.map_eq_some_iff.mp stepped
    show Goes s.session.writes s.started session
    rw [(Session.takeOverMessages_eq_some.mp returned).2]
    exact goes_append phase orderly
  | written i ok =>
    obtain ⟨outcome, completed, stepped⟩ := Option.bind_eq_some_iff.mp stepped
    exact goes_after (goes_onWrite lawful phase completed) stepped
  | gracefullClose reason => exact goes_after (goes_gracefullClose lawful config phase reason orderly) stepped

/-- A write that is started on a closing session whose queue is empty comes behind the bye. -/
theorem Phase.late {ss : Session} {started : List Write} (phase : Phase ss started) {now : Nat}
    {msgs : MsgQueue} (late : ¬ (ss.closeFlag = true → ss.outQueue = [] →
      ∀ msg ∈ msgs, msg.expired now = true)) {t : ClosingState}
    (writes : t.session.writes = (ss.append now msgs).writes)
    (log : t.started = started ++ t.session.writes.drop ss.writes.length) : ¬ ClosesProperly t := by
  simp only [Classical.not_imp, not_forall] at late
  obtain ⟨closing, empty, msg, member, young⟩ := late
  obtain ⟨earlier, sent⟩ : ∃ earlier, started = earlier ++ [.bye true] := by
    cases phase with
    | idle staying _ _ _ => simp [staying] at closing
    | writing _ queue _ _ => simp [empty] at queue
    | leaving _ _ _ started _ => exact ⟨_, started⟩
    | failed _ _ queue _ _ => exact absurd empty queue
    | left _ _ _ started _ => exact ⟨_, started⟩
  cases Session.appends_append now msgs ss with
  | behind waiting _ => exact absurd empty (waiting (List.ne_nil_of_mem member))
  | expired _ old _ _ => exact absurd (old msg member) young
  | started _ _ _ begun =>
    rw [writes, begun, List.drop_left, sent, List.append_assoc] at log
    intro proper
    cases proper.last _ _ _ log

theorem improper_step {s t : ClosingState} {e : SessionEvent} (phase : Phase s.session s.started)
    (next : s.step json config pid e = some t) (disorderly : ¬ Orderly json config pid s e) :
    ¬ ClosesProperly t := by
  obtain ⟨t, stepped, rfl⟩ := Option.map_eq_some_iff.mp next
  cases e with
  | tick _ | authenticate _ | written _ _ => exact absurd trivial disorderly
  | start =>
    simp only [Orderly, not_forall] at disorderly
    obtain ⟨queued, built, late⟩ := disorderly
    apply phase.late late _ rfl
    simp only [SessionState.step, SessionState.after, Session.start, Session.putOutQueue, built,
      Outcome.andThen_done, Outcome.final_done, Option.map_some, Option.some.injEq] at stepped
    rw [← stepped, ← Session.enqueue_eq_append]
    rfl
  | putOutQueue msg =>
    simp only [Orderly, not_forall] at disorderly
    obtain ⟨queued, built, late⟩ := disorderly
    apply phase.late late _ rfl
    simp only [SessionState.step, SessionState.after, Session.putOutQueue, built, Outcome.final_done,
      Option.map_some, Option.some.injEq] at stepped
    rw [← stepped, ← Session.enqueue_eq_append]
  | takeOverMessages oq =>
    obtain ⟨session, returned, rfl⟩ := Option.map_eq_some_iff.mp stepped
    apply phase.late disorderly _ rfl
    rw [(Session.takeOverMessages_eq_some.mp returned).2]
  | gracefullClose reason =>
    simp only [Orderly, Classical.not_imp] at disorderly
    obtain ⟨staying, writes, waiting⟩ := disorderly
    have running : s.session.stopped = false := by
      cases phase with
      | idle _ running _ _ => exact running
      | writing running _ _ _ => exact running
      | leaving _ running _ _ _ => exact running
      | failed closing _ _ _ _ => simp [staying] at closing
      | left closing _ _ _ _ => simp [staying] at closing
    simp only [SessionState.step, SessionState.after, Session.gracefullClose, staying,
      List.isEmpty_iff, waiting, if_false, Bool.false_eq_true, Outcome.final_done, Option.map_some,
      Option.some.injEq] at stepped
    subst stepped
    intro proper
    exact proper.outstanding rfl running writes

/-- The runs in which a session closes properly are exactly those in which it is asked to close while
its queue is empty or a write is outstanding, and in which nothing that could be written goes into the
empty queue of the closing session. -/
theorem closing_runs_iff (lawful : json.Lawful) (direction : Direction) (remoteIp : String)
    (events : List SessionEvent) :
    Always (ClosingState.step json config pid) ClosesProperly (.initial direction remoteIp) events ↔
      Meets (ClosingState.step json config pid) (Orderly json config pid)
        (.initial direction remoteIp) events := by
  apply @always_iff_meets _ _ _ (fun s => Phase s.session s.started)
  · exact Phase.closesProperly
  · exact phase_step lawful
  · exact improper_step
  · exact .idle rfl rfl rfl (fun live => List.not_mem_nil)

end Runs

/-- A session that is asked twice to close while it writes its first message says goodbye once. -/
theorem closing_runs_goodbye :
    Always (ClosingState.step Json.compactJson ⟨"alpha", "userver"⟩ 1) ClosesProperly
      (.initial .incoming "10.0.0.7")
      [.start, .gracefullClose "duplicated connection", .gracefullClose "overtaken by new connection",
        .written 0 true, .written 0 true] := by
  apply (closing_runs_iff Json.compactJson_lawful .incoming "10.0.0.7" _).mpr
  rintro t ⟨rfl⟩
  refine ⟨?_, ?_⟩
  · intro queued _ closing
    cases closing
  rintro t ⟨rfl⟩
  refine ⟨?_, ?_⟩
  · intro _ writes
    cases writes
  rintro t ⟨rfl⟩
  refine ⟨?_, ?_⟩
  · intro staying
    cases staying
  rintro t ⟨rfl⟩
  refine ⟨trivial, ?_⟩
  rintro t ⟨rfl⟩
  exact ⟨trivial, trivial⟩

/-- A message that is routed to a session while its bye is being written goes out behind the bye, and
its completion says goodbye again. -/
theorem message_behind_bye :
    ¬ Always (ClosingState.step Json.compactJson ⟨"alpha", "userver"⟩ 1) ClosesProperly
      (.initial .incoming "10.0.0.7")
      [.start, .written 0 true, .gracefullClose "duplicated connection",
        .putOutQueue (.outgoing ⟨"alpha", "userver"⟩ .none "priority" Priority.high.toBody)] := by
  intro always
  have reached : exec (ClosingState.step Json.compactJson ⟨"alpha", "userver"⟩ 1)
      (.initial .incoming "10.0.0.7")
      [.start, .written 0 true, .gracefullClose "duplicated connection",
        .putOutQueue (.outgoing ⟨"alpha", "userver"⟩ .none "priority" Priority.high.toBody)] = some _ :=
    rfl
  cases (always.last reached).last [_] true [_] rfl

end Uzel.Verified.ClosingProtocol
