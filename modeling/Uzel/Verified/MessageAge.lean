import Uzel.Foundation.Runs
import Uzel.Session

/-! # The age of messages

`deleteOld` drops messages from the front of the queue and stops at the first one that is young enough.
The queue is not sorted by age, as a takeover appends older messages behind newer ones, so expired
messages may wait behind it.  They are not written all the same: `do_write` calls `deleteOld` at once
before it takes the front.  `ttl_respected` says so for every run of a session.
-/

namespace Uzel.Verified.MessageAge

open Foundation

/-- What happens to the queue of a session: its own calls and handlers, and the takeover of the queue by
another session.  The rest of the session may change in between in any way. -/
inductive QueueEvent where
  | own (e : SessionEvent)
  | takenOver
  | endpoint (endpoint : Endpoint)

/-- A session with the messages that `do_write` has started to write, and with those that `deleteOld` has
removed, each with the time at which it happened. -/
structure AgeState extends SessionState where
  started : List (Nat × QueuedMsg)
  removed : List (Nat × QueuedMsg)

namespace AgeState

def initial (direction : Direction) (remoteIp : String) : AgeState := ⟨.initial direction remoteIp, [], []⟩

/-- The outstanding writes that do not complete in an event. -/
def remaining (s : SessionState) : QueueEvent → List Write
  | .own (.written i _) => s.session.writes.eraseIdx i
  | _ => s.session.writes

def moves (json : JsonCodec) (config : UConfig) (pid : Nat) (s : SessionState) :
    QueueEvent → Option SessionState
  | .own e => s.step json config pid e
  | .takenOver => some { s with session := { s.session with outQueue := [] } }
  | .endpoint endpoint => some { s with session := { s.session with toEndpoint := endpoint } }

/-- The message of a write; a bye does not come from `do_write`. -/
def message : Write → Option QueuedMsg
  | .message msg _ => some msg
  | .bye _ => none

/-- Writes are started behind those that are outstanding, and messages are dropped behind those that have
been dropped before. -/
def step (json : JsonCodec) (config : UConfig) (pid : Nat) (s : AgeState) (e : QueueEvent) :
    Option AgeState :=
  (moves json config pid s.toSessionState e).map fun t =>
    let started := (t.session.writes.drop (remaining s.toSessionState e).length).filterMap message
    let removed := t.session.dropped.drop s.session.dropped.length
    ⟨t, s.started ++ started.map (s.now, ·), s.removed ++ removed.map (s.now, ·)⟩

end AgeState

/-- Every message has been written in time, and no message has been dropped before its time.  Every
outstanding write of a message and every dropped message is on record. -/
structure WithinTTL (s : AgeState) : Prop where
  started : ∀ time msg, (time, msg) ∈ s.started → time - msg.enqueueTime ≤ messageTTL
  removed : ∀ time msg, (time, msg) ∈ s.removed → messageTTL < time - msg.enqueueTime
  writes : ∀ msg live, .message msg live ∈ s.session.writes → ∃ time, (time, msg) ∈ s.started
  dropped : s.session.dropped = s.removed.map Prod.snd

/-! ## One call -/

/-- A call at the time `now` starts some writes of messages that have not expired, and it drops some
messages that have. -/
structure Ages (now : Nat) (remaining : List Write) (ss after : Session) : Prop where
  writes : ∃ started, after.writes = remaining ++ started ∧
    ∀ msg live, .message msg live ∈ started → msg.expired now = false
  dropped : ∃ gone, after.dropped = ss.dropped ++ gone ∧ ∀ msg ∈ gone, msg.expired now = true

section Calls

variable {json : JsonCodec} {config : UConfig} {now : Nat} {remaining : List Write} {ss after : Session}

theorem ages_of_same (writes : after.writes = remaining) (dropped : after.dropped = ss.dropped) :
    Ages now remaining ss after where
  writes := ⟨[], by simp [writes], by simp⟩
  dropped := ⟨[], by simp [dropped], by simp⟩

theorem ages_deleteOld (now : Nat) (ss : Session) : Ages now ss.writes ss (ss.deleteOld now) where
  writes := ⟨[], by simp, by simp⟩
  dropped := ⟨_, rfl, fun _ member => List.mem_takeWhile_imp member⟩

/-- The front that is left by `deleteOld` has not expired. -/
theorem front_young {queue rest : MsgQueue} {front : QueuedMsg}
    (found : queue.dropWhile (·.expired now) = front :: rest) : front.expired now = false := by
  have young := List.head?_dropWhile_not (·.expired now) queue
  rwa [found] at young

theorem ages_doWrite (now : Nat) (ss : Session) : Ages now ss.writes ss (ss.doWrite now) := by
  rcases Session.doWrite_cases now ss with ⟨_, same⟩ | ⟨front, rest, found, same⟩
  · rw [same]
    exact ages_deleteOld now ss
  · rw [same]
    refine ⟨⟨[.message front !ss.stopped], rfl, ?_⟩, (ages_deleteOld now ss).dropped⟩
    intro msg live member
    rw [List.mem_singleton] at member
    cases member
    exact front_young found

theorem ages_append (now : Nat) (msgs : MsgQueue) (ss : Session) :
    Ages now ss.writes ss (ss.append now msgs) := by
  unfold Session.append
  split
  · exact ⟨(ages_doWrite now _).writes, (ages_doWrite now _).dropped⟩
  · exact ages_of_same rfl rfl

theorem ages_putOutQueue (id : Nat) (msg : Msg) (ss : Session) :
    (ss.putOutQueue json now id msg).All (Ages now ss.writes ss) := by
  unfold Session.putOutQueue
  cases QueuedMsg.ofMsg json now id msg with
  | none => exact ages_of_same rfl rfl
  | some queued =>
    show Ages now ss.writes ss (ss.enqueue now queued)
    rw [Session.enqueue_eq_append]
    exact ages_append now [queued] ss

theorem ages_start (pid id : Nat) (ss : Session) :
    (ss.start json config pid now id).All (Ages now ss.writes ss) := by
  apply Outcome.All.andThen (ages_putOutQueue id (Session.authMsg config pid) ss)
  exact fun _ ages => ⟨ages.writes, ages.dropped⟩

theorem ages_sendByeAndClose (ages : Ages now remaining ss after) :
    (after.sendByeAndClose json config).All (Ages now remaining ss) := by
  obtain ⟨⟨started, writes, young⟩, dropped⟩ := ages
  unfold Session.sendByeAndClose
  split
  · exact ⟨⟨started, writes, young⟩, dropped⟩
  · refine ⟨⟨started ++ [.bye !after.stopped], ?_, ?_⟩, dropped⟩
    · rw [Session.asyncWrite_writes, writes, List.append_assoc]
    · intro msg live member
      rw [List.mem_append, List.mem_singleton] at member
      cases member with
      | inl message => exact young msg live message
      | inr bye => cases bye

theorem ages_gracefullClose (reason : String) (ss : Session) :
    (ss.gracefullClose json config reason).All (Ages now ss.writes ss) := by
  unfold Session.gracefullClose
  split
  · exact ages_of_same rfl rfl
  · dsimp only
    split
    · exact ages_sendByeAndClose (ages_of_same rfl rfl)
    · exact ages_of_same rfl rfl

/-- The completion of a write drops what has expired behind the front; it starts no message. -/
theorem ages_onWrite {i : Nat} {ok : Bool} {outcome : Outcome Session}
    (completed : ss.onWrite json config now i ok = some outcome) :
    outcome.All (Ages now (ss.writes.eraseIdx i) ss) := by
  rcases Session.onWrite_cases completed with ⟨_, _, _, rfl⟩ | ⟨_, _, rfl⟩
  · have expired := @ages_deleteOld now { ss with
      writes := ss.writes.eraseIdx i
      outQueue := ss.outQueue.tail
      undefinedBehaviour := ss.undefinedBehaviour || ss.outQueue.isEmpty }
    have ages : Ages now (ss.writes.eraseIdx i) ss _ := ⟨expired.writes, expired.dropped⟩
    simp only [Session.onWritten]
    split
    · exact ages_sendByeAndClose ages
    · exact ages
  · exact ages_of_same rfl rfl

theorem ages_after {s t : SessionState} {outcome : Outcome Session}
    (all : outcome.All (Ages now remaining ss)) (next : s.after outcome = some t) :
    Ages now remaining ss t.session := by
  obtain ⟨after, final, rfl⟩ := Option.map_eq_some_iff.mp next
  exact all.of_final final

theorem ages_moves {pid : Nat} {s t : SessionState} {e : QueueEvent}
    (next : AgeState.moves json config pid s e = some t) :
    Ages s.now (AgeState.remaining s e) s.session t.session := by
  cases e with
  | takenOver =>
    cases next
    exact ages_of_same rfl rfl
  | endpoint endpoint =>
    cases next
    exact ages_of_same rfl rfl
  | own e =>
    cases e with
    | tick elapsed =>
      cases next
      exact ages_of_same rfl rfl
    | start => exact ages_after (ages_start pid s.nextMsg s.session) next
    | authenticate msg =>
      simp only [AgeState.moves, SessionState.step] at next
      split at next
      · cases next
        exact ages_of_same rfl rfl
      · cases next
    | putOutQueue msg => exact ages_after (ages_putOutQueue s.nextMsg msg s.session) next
    | takeOverMessages oq =>
      obtain ⟨after, taken, rfl⟩ := Option.map_eq_some_iff.mp next
      obtain ⟨_, rfl⟩ := Session.takeOverMessages_eq_some.mp taken
      exact ages_append s.now oq s.session
    | written i ok =>
      obtain ⟨outcome, completed, next⟩ := Option.bind_eq_some_iff.mp next
      exact ages_after (ages_onWrite completed) next
    | gracefullClose reason => exact ages_after (ages_gracefullClose reason s.session) next

end Calls

/-! ## Runs -/

theorem mem_messages {writes : List Write} {msg : QueuedMsg} :
    msg ∈ writes.filterMap AgeState.message ↔ ∃ live, .message msg live ∈ writes := by
  rw [List.mem_filterMap]
  constructor
  · rintro ⟨write, member, isMessage⟩
    cases write with
    | message other live =>
      cases isMessage
      exact ⟨live, member⟩
    | bye live => cases isMessage
  · rintro ⟨live, member⟩
    exact ⟨.message msg live, member, rfl⟩

theorem remaining_subset (s : SessionState) (e : QueueEvent) :
    AgeState.remaining s e ⊆ s.session.writes := by
  cases e with
  | own e =>
    cases e with
    | written i ok => exact (List.eraseIdx_sublist s.session.writes i).subset
    | _ => exact List.Subset.refl _
  | _ => exact List.Subset.refl _

theorem withinTTL_step {json : JsonCodec} {config : UConfig} {pid : Nat} {s t : AgeState} {e : QueueEvent}
    (within : WithinTTL s) (next : s.step json config pid e = some t) : WithinTTL t := by
  obtain ⟨u, moved, rfl⟩ := Option.map_eq_some_iff.mp next
  obtain ⟨⟨new, writes, young⟩, gone, dropped, old⟩ := ages_moves moved
  -- what is put on record is exactly what the call has added
  rw [writes, dropped, List.drop_left, List.drop_left]
  constructor
  · intro time msg member
    rcases List.mem_append.mp member with before | now
    · exact within.started time msg before
    · obtain ⟨_, member, same⟩ := List.mem_map.mp now
      cases same
      obtain ⟨live, member⟩ := mem_messages.mp member
      simpa [QueuedMsg.expired] using young msg live member
  · intro time msg member
    rcases List.mem_append.mp member with before | now
    · exact within.removed time msg before
    · obtain ⟨_, member, same⟩ := List.mem_map.mp now
      cases same
      simpa [QueuedMsg.expired] using old msg member
  · intro msg live outstanding
    rw [writes] at outstanding
    rcases List.mem_append.mp outstanding with before | now
    · obtain ⟨time, recorded⟩ := within.writes msg live (remaining_subset s.toSessionState e before)
      exact ⟨time, List.mem_append_left _ recorded⟩
    · refine ⟨s.now, List.mem_append_right _ (List.mem_map.mpr ⟨msg, ?_, rfl⟩)⟩
      exact mem_messages.mpr ⟨live, now⟩
  · rw [dropped, within.dropped]
    simp

/-- In every run of a session, whatever the times are at which the messages of its queue have been
enqueued, a message is written only within `MessageTTL_sec`, and `deleteOld` removes it only after that. -/
theorem ttl_respected (json : JsonCodec) (config : UConfig) (pid : Nat) (direction : Direction)
    (remoteIp : String) (events : List QueueEvent) :
    Always (AgeState.step json config pid) WithinTTL (.initial direction remoteIp) events := by
  refine always_of_invariant withinTTL_step ⟨?_, ?_, ?_, rfl⟩ events
  · intro _ _ member
    cases member
  · intro _ _ member
    cases member
  · intro _ _ member
    cases member

end Uzel.Verified.MessageAge
