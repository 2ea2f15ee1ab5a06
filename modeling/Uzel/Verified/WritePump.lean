import Uzel.Foundation.Json
import Uzel.Foundation.Runs
import Uzel.Priority
import Uzel.Session
import Mathlib.Data.List.TakeWhile

/-! # The write pump of a session

A session with a waiting message should have a write outstanding.  The completion handler of
`do_write` returns in front of its own `do_write()`, so a second message that is still young when the
first one is written stays behind without a write.  `pump_runs_iff` says that this is the only way in
which the pump stalls: the runs that keep it going are exactly those in which every completed message
either meets a closing session or leaves nothing unexpired behind.
-/

namespace Uzel.Verified.WritePump

open Foundation

/-- A message that waits on a session that is not stopped has a write of the session ahead of it. -/
def Pumping (s : SessionState) : Prop :=
  s.session.stopped = false → s.session.outQueue ≠ [] → s.session.writes ≠ []

/-- What the completion of a message may find: the session closes, or what is queued behind the
message is too old to be sent. -/
def LeavesNothing (s : SessionState) : SessionEvent → Prop
  | .written i true =>
    ∀ msg live, s.session.writes[i]? = some (.message msg live) →
      s.session.closeFlag = true ∨ ∀ waiting ∈ s.session.outQueue.tail, waiting.expired s.now = true
  | _ => True

/-- The states of the pump. -/
inductive Pump (ss : Session) : Prop
  | stopped (stopped : ss.stopped = true) (closing : ss.closeFlag = true)
  | closing (closing : ss.closeFlag = true) (outstanding : ss.writes ≠ [])
  | idle (running : ss.stopped = false) (staying : ss.closeFlag = false) (queue : ss.outQueue = [])
      (writes : ss.writes = [])
  | writing {front : QueuedMsg} {rest : MsgQueue} {live : Bool} (running : ss.stopped = false)
      (staying : ss.closeFlag = false) (queue : ss.outQueue = front :: rest)
      (writes : ss.writes = [.message front live])

theorem Pump.pumping {s : SessionState} (pump : Pump s.session) : Pumping s := by
  intro running waiting
  cases pump with
  | stopped stopped _ => simp [running] at stopped
  | closing _ outstanding => exact outstanding
  | idle _ _ queue _ => exact absurd queue waiting
  | writing _ _ _ writes => simp [writes]

theorem Pump.of_same {ss other : Session} (pump : Pump ss) (stopped : other.stopped = ss.stopped)
    (closeFlag : other.closeFlag = ss.closeFlag) (outQueue : other.outQueue = ss.outQueue)
    (writes : other.writes = ss.writes) : Pump other := by
  cases pump with
  | stopped a b => exact .stopped (stopped.trans a) (closeFlag.trans b)
  | closing a b => exact .closing (closeFlag.trans a) (writes ▸ b)
  | idle a b c d =>
    exact .idle (stopped.trans a) (closeFlag.trans b) (outQueue.trans c) (writes.trans d)
  | writing a b c d =>
    exact .writing (stopped.trans a) (closeFlag.trans b) (outQueue.trans c) (writes.trans d)

/-! ## The operations of a session -/

theorem doWrite_writes_ne_nil {ss : Session} (outstanding : ss.writes ≠ []) (now : Nat) :
    (ss.doWrite now).writes ≠ [] := by
  rcases Session.doWrite_cases now ss with ⟨_, same⟩ | ⟨front, rest, _, same⟩
  · simpa [same] using outstanding
  · simp [same]

/-- Without a write outstanding `do_write` brings the pump into a good state whatever is queued. -/
theorem pump_doWrite {ss : Session} (running : ss.stopped = false) (staying : ss.closeFlag = false)
    (writes : ss.writes = []) (now : Nat) : Pump (ss.doWrite now) := by
  rcases Session.doWrite_cases now ss with ⟨remaining, same⟩ | ⟨front, rest, remaining, same⟩
  · exact .idle (by simp [running]) (by simp [staying]) (by simp [remaining]) (by simp [same, writes])
  · have queue : (ss.doWrite now).outQueue = front :: rest := by simp [remaining]
    have started : (ss.doWrite now).writes = [.message front !ss.stopped] := by simp [same, writes]
    exact .writing (by simp [running]) (by simp [staying]) queue started

/-- Appending messages keeps the pump going when a write is started on a queue that was empty. -/
theorem pump_append {ss : Session} (pump : Pump ss) (now : Nat) (msgs : MsgQueue) :
    Pump (ss.append now msgs) := by
  unfold Session.append
  split
  next started =>
    cases pump with
    | stopped stopped closing => exact .stopped (by simp [stopped]) (by simp [closing])
    | closing closing outstanding =>
      exact .closing (by simp [closing])
        (doWrite_writes_ne_nil (show { ss with outQueue := msgs }.writes ≠ [] from outstanding) now)
    | idle running staying _ writes =>
      exact @pump_doWrite { ss with outQueue := msgs } running staying writes now
    | writing _ _ queue _ => simp [queue] at started
  next kept =>
    cases pump with
    | stopped stopped closing => exact .stopped stopped closing
    | closing closing outstanding => exact .closing closing outstanding
    | idle running staying queue writes =>
      have nothing : msgs = [] := by simpa [queue] using kept
      exact .idle running staying (by simp [queue, nothing]) writes
    | @writing front rest _ running staying queue writes =>
      exact @Pump.writing _ front (rest ++ msgs) _ running staying (by simp [queue]) writes

theorem pump_putOutQueue {ss : Session} (pump : Pump ss) (json : JsonCodec) (now id : Nat) (msg : Msg) :
    (ss.putOutQueue json now id msg).All Pump := by
  unfold Session.putOutQueue
  cases QueuedMsg.ofMsg json now id msg with
  | none => exact pump
  | some queued =>
    show Pump (ss.enqueue now queued)
    rw [Session.enqueue_eq_append]
    exact pump_append pump now [queued]

theorem pump_start {ss : Session} (pump : Pump ss) (json : JsonCodec) (config : UConfig)
    (pid now id : Nat) : (ss.start json config pid now id).All Pump := by
  apply Outcome.All.andThen (pump_putOutQueue pump json now id _)
  intro ss pump
  exact pump.of_same rfl rfl rfl rfl

theorem pump_sendByeAndClose {json : JsonCodec} (lawful : json.Lawful) (config : UConfig) {ss : Session}
    (closing : ss.closeFlag = true) : (ss.sendByeAndClose json config).All Pump := by
  obtain ⟨text, bye⟩ := sendByeAndClose_eq config lawful ss
  rw [bye]
  exact .closing closing (by simp)

theorem pump_gracefullClose {json : JsonCodec} (lawful : json.Lawful) (config : UConfig) {ss : Session}
    (pump : Pump ss) (reason : String) : (ss.gracefullClose json config reason).All Pump := by
  simp only [Session.gracefullClose]
  split
  next => exact pump
  next open_ =>
    split
    next => exact pump_sendByeAndClose lawful config rfl
    next waiting =>
      -- a message is queued, so its write is outstanding and its completion sends the bye
      cases pump with
      | stopped _ closing => exact absurd closing open_
      | closing closing _ => exact absurd closing open_
      | idle _ _ queue _ => simp [queue] at waiting
      | writing _ _ _ writes => exact .closing rfl (by simp [writes])

theorem pump_stop (ss : Session) : Pump ss.stop := .stopped rfl rfl

/-- A completed message that leaves nothing behind, or meets a closing session. -/
theorem pump_onWritten {json : JsonCodec} (lawful : json.Lawful) (config : UConfig) {ss : Session}
    {now : Nat}
    (leaves : ss.closeFlag = true ∨ ss.stopped = false ∧ ss.writes = [] ∧
      ∀ waiting ∈ ss.outQueue.tail, waiting.expired now = true) :
    (ss.onWritten json config now).All Pump := by
  simp only [Session.onWritten]
  split
  next closing => exact pump_sendByeAndClose lawful config closing
  next staying =>
    rcases leaves with closing | ⟨running, writes, expired⟩
    · exact absurd closing staying
    · exact .idle running (by simpa using staying) (List.dropWhile_eq_nil_iff.mpr expired) writes

/-! ## Runs -/

section Runs

variable {json : JsonCodec} {config : UConfig} {pid : Nat}

theorem pump_after {s t : SessionState} {outcome : Outcome Session} (all : outcome.All Pump)
    (next : s.after outcome = some t) : Pump t.session := by
  obtain ⟨session, left, rfl⟩ := Option.map_eq_some_iff.mp next
  exact all.of_final left

theorem pump_step (lawful : json.Lawful) {s t : SessionState} {e : SessionEvent} (pump : Pump s.session)
    (next : s.step json config pid e = some t) (leaves : LeavesNothing s e) : Pump t.session := by
  cases e with
  | tick elapsed => cases next; exact pump
  | start => exact pump_after (pump_start pump json config pid _ _) next
  | authenticate msg =>
    simp only [SessionState.step] at next
    split at next
    · cases next; exact pump.of_same rfl rfl rfl rfl
    · cases next
  | putOutQueue msg => exact pump_after (pump_putOutQueue pump json _ _ msg) next
  | takeOverMessages oq =>
    obtain ⟨session, returned, rfl⟩ := Option.map_eq_some_iff.mp next
    show Pump session
    rw [(Session.takeOverMessages_eq_some.mp returned).2]
    exact pump_append pump s.now oq
  | gracefullClose reason => exact pump_after (pump_gracefullClose lawful config pump reason) next
  | written i ok =>
    obtain ⟨outcome, completed, next⟩ := Option.bind_eq_some_iff.mp next
    apply pump_after _ next
    rcases Session.onWrite_cases completed with ⟨msg, rfl, write, rfl⟩ | ⟨_, _, rfl⟩
    · apply pump_onWritten lawful config
      rcases leaves msg true write with closing | expired
      · exact .inl closing
      · cases pump with
        | stopped _ closing => exact .inl closing
        | closing closing _ => exact .inl closing
        | idle _ _ _ writes => simp [writes] at write
        | writing running _ _ writes =>
          right
          refine ⟨running, ?_, expired⟩
          -- the only outstanding write is the one that has completed
          cases i with
          | zero => simp [writes]
          | succ i => simp [writes] at write
    · exact pump_stop _

/-- A completion that leaves an unexpired message behind stalls the pump. -/
theorem stalled_step {s t : SessionState} {e : SessionEvent} (pump : Pump s.session)
    (next : s.step json config pid e = some t) (behind : ¬ LeavesNothing s e) : ¬ Pumping t := by
  cases e with
  | tick _ | start | authenticate _ | putOutQueue _ | takeOverMessages _ | gracefullClose _ =>
    exact absurd trivial behind
  | written i ok =>
    cases ok with
    | false => exact absurd trivial behind
    | true =>
      simp only [LeavesNothing, not_forall, not_or, exists_prop] at behind
      obtain ⟨msg, live, write, staying, waiting, queued, young⟩ := behind
      cases pump with
      | stopped _ closing => exact absurd closing staying
      | closing closing _ => exact absurd closing staying
      | idle _ _ _ writes => simp [writes] at write
      | writing running _ queue writes =>
        have first : i = 0 := by
          cases i with
          | zero => rfl
          | succ i => simp [writes] at write
        subst first
        obtain ⟨outcome, completed, next⟩ := Option.bind_eq_some_iff.mp next
        rcases Session.onWrite_cases completed with ⟨_, _, _, rfl⟩ | ⟨other, _, _⟩
        · simp only [SessionState.after, Session.onWritten, Session.deleteOld_toEndpoint, staying,
            if_false, Outcome.final_done, Option.map_some, Option.some.injEq, Bool.false_eq_true] at next
          subst next
          -- the completion has returned before `do_write()`
          intro pumping
          apply pumping running
          · intro nothing
            exact young (List.dropWhile_eq_nil_iff.mp nothing waiting queued)
          · simp [writes]
        · exact absurd write (other msg live rfl)

/-- The runs of a session that keep its pump going are exactly the runs in which every successful
completion of a message finds the session closing or only expired messages behind the one that is
written. -/
theorem pump_runs_iff (lawful : json.Lawful) (direction : Direction) (remoteIp : String)
    (events : List SessionEvent) :
    Always (SessionState.step json config pid) Pumping (.initial direction remoteIp) events ↔
      Meets (SessionState.step json config pid) LeavesNothing (.initial direction remoteIp) events := by
  apply @always_iff_meets _ _ _ (fun s => Pump s.session)
  · exact Pump.pumping
  · exact pump_step lawful
  · exact stalled_step
  · exact .idle rfl rfl rfl rfl

end Runs

/-- The authentication message is written while nothing else is queued. -/
theorem pump_runs_authentication :
    Always (SessionState.step Json.compactJson ⟨"alpha", "userver"⟩ 1) Pumping
      (.initial .incoming "10.0.0.7") [.start, .tick 5, .written 0 true] := by
  apply (pump_runs_iff Json.compactJson_lawful .incoming "10.0.0.7" _).mpr
  rintro t ⟨rfl⟩
  refine ⟨trivial, ?_⟩
  rintro t ⟨rfl⟩
  refine ⟨trivial, ?_⟩
  rintro t ⟨rfl⟩
  refine ⟨?_, trivial⟩
  intro msg live _
  exact .inr (List.forall_mem_nil _)

/-- A message that is queued while the authentication message is being written stays in the queue
without a write when that write completes. -/
theorem second_message_stalls :
    ¬ Always (SessionState.step Json.compactJson ⟨"alpha", "userver"⟩ 1) Pumping
      (.initial .incoming "10.0.0.7")
      [.start, .putOutQueue (.outgoing ⟨"alpha", "userver"⟩ .none "priority" Priority.high.toBody),
        .written 0 true] := by
  intro always
  have reached : exec (SessionState.step Json.compactJson ⟨"alpha", "userver"⟩ 1)
      (.initial .incoming "10.0.0.7")
      [.start, .putOutQueue (.outgoing ⟨"alpha", "userver"⟩ .none "priority" Priority.high.toBody),
        .written 0 true] = some _ := rfl
  exact always.last reached rfl (List.cons_ne_nil _ _) rfl

end Uzel.Verified.WritePump
