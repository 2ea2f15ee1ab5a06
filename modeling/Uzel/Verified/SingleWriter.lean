import Uzel.Foundation.Json
import Uzel.Foundation.Runs
import Uzel.Sessions
import Mathlib.Data.List.Nodup
import Mathlib.Data.List.TakeWhile

/-! # One writer for each session

A session takes an empty queue for a sign that it is not writing.  That is wrong in two situations:
while the bye of a closing session is being written, and after another session has taken over the
queue behind an outstanding write.  `single_writer_runs_iff` says that there are no others: the runs
of any set of sessions in which every session has at most one write outstanding, every completion
finds its message at the front of the queue and no message is written twice are exactly those that
avoid the two.
-/

namespace Uzel.Verified.SingleWriter

open Foundation

/-- At most one write is outstanding; a message that may complete without an error is at the front of
the queue; no message has been written twice. -/
structure OneWriter (store : Sessions) : Prop where
  one : ∀ sid, (store.session sid).writes.length ≤ 1
  front : ∀ sid msg, .message msg true ∈ (store.session sid).writes →
    (store.session sid).outQueue.head? = some msg
  once : (store.written.map QueuedMsg.id).Nodup

/-- Messages that are not all expired go into an empty queue only when no write is outstanding. -/
def StartsAlone (store : Sessions) (sid : SessionId) (msgs : MsgQueue) : Prop :=
  (store.session sid).outQueue = [] → (∃ msg ∈ msgs, msg.expired store.now = false) →
    (store.session sid).writes = []

/-- A queue is taken over only from a session that is not writing a message of it. -/
def Undisturbed (json : JsonCodec) (config : UConfig) (pid : Nat) (store : Sessions) :
    SessionsEvent → Prop
  | .start sid => ∀ queued,
    QueuedMsg.ofMsg json store.now store.nextMsg (Session.authMsg config pid) = some queued →
      StartsAlone store sid [queued]
  | .putOutQueue sid msg => ∀ queued, QueuedMsg.ofMsg json store.now store.nextMsg msg = some queued →
      StartsAlone store sid [queued]
  | .takeOverQueue sid msgs => StartsAlone store sid (Sessions.number store.nextMsg msgs)
  | .takeOverSession sid os =>
    (os ≠ sid → ∀ msg, .message msg true ∉ (store.session os).writes) ∧
      StartsAlone store sid (store.session os).outQueue
  | _ => True

/-! ## One session -/

/-- The states of the writer of a session.  A write that was started on a stopped session can only
fail, and the queue need not know of it. -/
inductive Writer (ss : Session) : Prop
  | idle (writes : ss.writes = [])
  | writing {front : QueuedMsg} {rest : MsgQueue} (queue : ss.outQueue = front :: rest)
      (writes : ss.writes = [.message front true])
  | failing {msg : QueuedMsg} (stopped : ss.stopped = true) (writes : ss.writes = [.message msg false])
  | closing {live : Bool} (closing : ss.closeFlag = true) (writes : ss.writes = [.bye live])

structure Sound (ss : Session) : Prop where
  stops : ss.stopped = true → ss.closeFlag = true
  writer : Writer ss

theorem Writer.one {ss : Session} (writer : Writer ss) : ss.writes.length ≤ 1 := by
  cases writer with
  | idle writes => simp [writes]
  | writing _ writes => simp [writes]
  | failing _ writes => simp [writes]
  | closing _ writes => simp [writes]

theorem Writer.front {ss : Session} (writer : Writer ss) {msg : QueuedMsg}
    (outstanding : .message msg true ∈ ss.writes) : ss.outQueue.head? = some msg := by
  cases writer with
  | idle writes => simp [writes] at outstanding
  | writing queue writes =>
    obtain rfl : msg = _ := by simpa [writes] using outstanding
    simp [queue]
  | failing _ writes => simp [writes] at outstanding
  | closing _ writes => simp [writes] at outstanding

/-- The part of a session that its writer depends on. -/
theorem Sound.of_same {ss other : Session} (sound : Sound ss) (stopped : other.stopped = ss.stopped)
    (closeFlag : other.closeFlag = ss.closeFlag) (outQueue : other.outQueue = ss.outQueue)
    (writes : other.writes = ss.writes) : Sound other := by
  refine ⟨fun h => closeFlag.trans (sound.stops (stopped.symm.trans h)), ?_⟩
  cases sound.writer with
  | idle a => exact .idle (writes.trans a)
  | writing a b => exact .writing (outQueue.trans a) (writes.trans b)
  | failing a b => exact .failing (stopped.trans a) (writes.trans b)
  | closing a b => exact .closing (closeFlag.trans a) (writes.trans b)

theorem sound_append {ss : Session} (sound : Sound ss) {now : Nat} {msgs : MsgQueue}
    (alone : ss.outQueue = [] → (∃ msg ∈ msgs, msg.expired now = false) → ss.writes = []) :
    Sound (ss.append now msgs) := by
  have endpoint := Session.append_toEndpoint now msgs ss
  have stopped := congrArg Endpoint.stopped endpoint
  have closing := congrArg Endpoint.closeFlag endpoint
  refine ⟨fun ended => closing.trans (sound.stops (stopped.symm.trans ended)), ?_⟩
  have appends := Session.appends_append now msgs ss
  generalize ss.append now msgs = after at appends stopped closing
  cases appends with
  | behind _ same =>
    subst same
    cases sound.writer with
    | idle writes => exact .idle writes
    | @writing front rest queue writes =>
      exact @Writer.writing _ front (rest ++ msgs) (by simp [queue]) writes
    | failing isStopped writes => exact .failing isStopped writes
    | closing isClosing writes => exact .closing isClosing writes
  | expired empty _ _ same =>
    cases sound.writer with
    | idle writes => exact .idle (same.trans writes)
    | writing queue _ => simp [empty] at queue
    | failing isStopped writes => exact .failing (stopped.trans isStopped) (same.trans writes)
    | closing isClosing writes => exact .closing (closing.trans isClosing) (same.trans writes)
  | @started front rest empty young queue writes =>
    rw [alone empty young, List.nil_append] at writes
    cases isStopped : ss.stopped with
    | true => exact @Writer.failing _ front (stopped.trans isStopped) (by simp [writes, isStopped])
    | false => exact .writing queue (by simp [writes, isStopped])

/-- A second write is started when the condition does not hold. -/
theorem append_two_writes {ss : Session} {now : Nat} {msgs : MsgQueue} (empty : ss.outQueue = [])
    (young : ∃ msg ∈ msgs, msg.expired now = false) (outstanding : ss.writes ≠ []) :
    ¬ (ss.append now msgs).writes.length ≤ 1 := by
  obtain ⟨msg, member, young⟩ := young
  cases Session.appends_append now msgs ss with
  | behind waiting _ => exact absurd empty (waiting (List.ne_nil_of_mem member))
  | expired _ old _ _ => simp [old msg member] at young
  | started _ _ _ writes =>
    have some_ := List.length_pos_of_ne_nil outstanding
    rw [writes, List.length_append, List.length_singleton]
    omega

/-- The queue of a session that is not writing one of its messages is taken away. -/
theorem sound_emptied {ss : Session} (sound : Sound ss) (quiet : ∀ msg, .message msg true ∉ ss.writes) :
    Sound { ss with outQueue := [] } := by
  refine ⟨sound.stops, ?_⟩
  cases sound.writer with
  | idle writes => exact .idle writes
  | @writing front _ _ writes => exact absurd (by simp [writes]) (quiet front)
  | failing stopped writes => exact .failing stopped writes
  | closing closing writes => exact .closing closing writes

theorem sound_stop {ss : Session} (sound : Sound ss) : Sound ss.stop := by
  refine ⟨fun _ => rfl, ?_⟩
  cases sound.writer with
  | idle writes => exact .idle writes
  | writing queue writes => exact .writing queue writes
  | failing _ writes => exact .failing rfl writes
  | closing _ writes => exact .closing rfl writes

theorem sound_sendByeAndClose {json : JsonCodec} (lawful : json.Lawful) (config : UConfig) {ss : Session}
    (closing : ss.closeFlag = true) (writes : ss.writes = []) :
    (ss.sendByeAndClose json config).All Sound := by
  obtain ⟨text, bye⟩ := sendByeAndClose_eq config lawful ss
  rw [bye]
  exact ⟨fun _ => closing, @Writer.closing _ (!ss.stopped) closing (by simp [writes])⟩

theorem sound_gracefullClose {json : JsonCodec} (lawful : json.Lawful) (config : UConfig) {ss : Session}
    (sound : Sound ss) (reason : String) : (ss.gracefullClose json config reason).All Sound := by
  simp only [Session.gracefullClose]
  split
  next => exact sound
  next staying =>
    split
    next empty =>
      apply sound_sendByeAndClose lawful config rfl
      show ss.writes = []
      have empty := List.isEmpty_iff.mp empty
      cases sound.writer with
      | idle writes => exact writes
      | writing queue _ => simp [queue] at empty
      | failing stopped _ => exact absurd (sound.stops stopped) staying
      | closing closing _ => exact absurd closing staying
    next =>
      refine ⟨fun _ => rfl, ?_⟩
      cases sound.writer with
      | idle writes => exact .idle writes
      | writing queue writes => exact .writing queue writes
      | failing stopped writes => exact .failing stopped writes
      | closing _ writes => exact .closing rfl writes

/-- The completion of the only write of a session. -/
theorem sound_onWrite {json : JsonCodec} (lawful : json.Lawful) {config : UConfig} {ss : Session}
    (sound : Sound ss) {now i : Nat} {ok : Bool} {outcome : Outcome Session}
    (completed : ss.onWrite json config now i ok = some outcome) : outcome.All Sound := by
  have rest : i < ss.writes.length → ss.writes.eraseIdx i = [] := by
    intro bound
    have one := sound.writer.one
    apply List.eq_nil_of_length_eq_zero
    rw [List.length_eraseIdx_of_lt bound]
    omega
  rcases Session.onWrite_cases completed with ⟨msg, _, found, rfl⟩ | ⟨_, bound, rfl⟩
  · have nothing := rest (List.getElem?_eq_some_iff.mp found).1
    simp only [Session.onWritten]
    split
    next closing => exact sound_sendByeAndClose lawful config closing nothing
    next staying => exact ⟨sound.stops, .idle nothing⟩
  · exact ⟨fun _ => rfl, .idle (rest bound)⟩

/-! ## Identities -/

/-- Every message is in one place: no two places in the queues hold the same message, and a message
that has been written is in no queue. -/
structure Distinct (store : Sessions) : Prop where
  nodup : ∀ sid, ((store.session sid).outQueue.map QueuedMsg.id).Nodup
  apart : ∀ sid other, sid ≠ other → ∀ msg ∈ (store.session sid).outQueue,
    ∀ msg' ∈ (store.session other).outQueue, msg.id ≠ msg'.id
  known : ∀ sid, ∀ msg ∈ (store.session sid).outQueue, msg.id < store.nextMsg
  once : (store.written.map QueuedMsg.id).Nodup
  old : ∀ msg ∈ store.written, msg.id < store.nextMsg
  gone : ∀ sid, ∀ msg ∈ (store.session sid).outQueue, ∀ done ∈ store.written, msg.id ≠ done.id

/-- Messages that are in no queue and have not been written. -/
def Fresh (store : Sessions) (msgs : MsgQueue) : Prop :=
  ∀ msg ∈ msgs, (∀ sid, ∀ queued ∈ (store.session sid).outQueue, queued.id ≠ msg.id) ∧
    ∀ done ∈ store.written, done.id ≠ msg.id

theorem Distinct.fresh {store : Sessions} (distinct : Distinct store) {msgs : MsgQueue}
    (later : ∀ msg ∈ msgs, store.nextMsg ≤ msg.id) : Fresh store msgs := by
  intro msg member
  have bound := later msg member
  constructor
  · intro sid queued held
    have := distinct.known sid queued held
    omega
  · intro done isDone
    have := distinct.old done isDone
    omega

/-- The queue of one session becomes a part of the old one followed by fresh messages. -/
theorem distinct_set {store after : Sessions} (distinct : Distinct store) {sid : SessionId}
    {msgs : MsgQueue} (fresh : Fresh store msgs) (unique : (msgs.map QueuedMsg.id).Nodup)
    (bounded : ∀ msg ∈ msgs, msg.id < after.nextMsg)
    (others : ∀ other, other ≠ sid → (after.session other).outQueue = (store.session other).outQueue)
    (part : (after.session sid).outQueue.Sublist ((store.session sid).outQueue ++ msgs))
    (later : store.nextMsg ≤ after.nextMsg) (written : after.written = store.written) :
    Distinct after := by
  -- a message of the new queues was in the same queue before, or is fresh and in the queue of `sid`
  have origin : ∀ other, ∀ msg ∈ (after.session other).outQueue,
      msg ∈ (store.session other).outQueue ∨ (other = sid ∧ msg ∈ msgs) := by
    intro other msg member
    by_cases called : other = sid
    · subst called
      rcases List.mem_append.mp (part.mem member) with before | isNew
      · exact .inl before
      · exact .inr ⟨rfl, isNew⟩
    · exact .inl (others other called ▸ member)
  refine ⟨?_, ?_, ?_, ?_, ?_, ?_⟩
  · intro other
    by_cases called : other = sid
    · subst called
      apply (part.map QueuedMsg.id).nodup
      rw [List.map_append]
      refine List.Nodup.append (distinct.nodup other) unique ?_
      intro id before isNew
      obtain ⟨msg, member, rfl⟩ := List.mem_map.mp before
      obtain ⟨msg', member', same⟩ := List.mem_map.mp isNew
      exact (fresh msg' member').1 other msg member same.symm
    · rw [others other called]
      exact distinct.nodup other
  · intro first second different msg member msg' member'
    rcases origin first msg member with before | ⟨rfl, isNew⟩
    · rcases origin second msg' member' with before' | ⟨rfl, isNew'⟩
      · exact distinct.apart first second different msg before msg' before'
      · exact (fresh msg' isNew').1 first msg before
    · rcases origin second msg' member' with before' | ⟨rfl, isNew'⟩
      · exact ((fresh msg isNew).1 second msg' before').symm
      · exact absurd rfl different
  · intro other msg member
    rcases origin other msg member with before | ⟨_, isNew⟩
    · have := distinct.known other msg before
      omega
    · exact bounded msg isNew
  · rw [written]
    exact distinct.once
  · intro msg member
    rw [written] at member
    have := distinct.old msg member
    omega
  · intro other msg member done isDone
    rw [written] at isDone
    rcases origin other msg member with before | ⟨_, isNew⟩
    · exact distinct.gone other msg before done isDone
    · exact ((fresh msg isNew).2 done isDone).symm

/-- Nothing is added to a queue. -/
theorem distinct_of_part {store after : Sessions} (distinct : Distinct store) {sid : SessionId}
    (others : ∀ other, other ≠ sid → (after.session other).outQueue = (store.session other).outQueue)
    (part : (after.session sid).outQueue.Sublist (store.session sid).outQueue)
    (later : store.nextMsg ≤ after.nextMsg) (written : after.written = store.written) :
    Distinct after :=
  @distinct_set store after distinct sid [] (by simp [Fresh]) List.nodup_nil (by simp) others
    (by simpa using part) later written

/-- The message at the front of a queue has been written. -/
theorem distinct_written {store after : Sessions} (distinct : Distinct store) {sid : SessionId}
    {front : QueuedMsg} {rest : MsgQueue} (queue : (store.session sid).outQueue = front :: rest)
    (others : ∀ other, other ≠ sid → (after.session other).outQueue = (store.session other).outQueue)
    (part : (after.session sid).outQueue.Sublist rest) (nextMsg : after.nextMsg = store.nextMsg)
    (written : after.written = store.written ++ [front]) : Distinct after := by
  have nodup := distinct.nodup sid
  rw [queue, List.map_cons, List.nodup_cons] at nodup
  have frontHeld : front ∈ (store.session sid).outQueue := by simp [queue]
  have within : ∀ other, (after.session other).outQueue.Sublist (store.session other).outQueue := by
    intro other
    by_cases called : other = sid
    · subst called
      rw [queue]
      exact part.trans (List.sublist_cons_self front rest)
    · rw [others other called]
  refine ⟨?_, ?_, ?_, ?_, ?_, ?_⟩
  · intro other
    exact ((within other).map QueuedMsg.id).nodup (distinct.nodup other)
  · intro first second different msg member msg' member'
    exact distinct.apart first second different msg ((within first).mem member) msg'
      ((within second).mem member')
  · intro other msg member
    rw [nextMsg]
    exact distinct.known other msg ((within other).mem member)
  · rw [written, List.map_append]
    refine List.Nodup.append distinct.once (by simp) ?_
    intro id before isFront
    obtain ⟨done, isDone, rfl⟩ := List.mem_map.mp before
    have same : done.id = front.id := by simpa using isFront
    exact distinct.gone sid front frontHeld done isDone same.symm
  · intro msg member
    rw [nextMsg]
    rw [written] at member
    rcases List.mem_append.mp member with before | isFront
    · exact distinct.old msg before
    · rw [List.mem_singleton.mp isFront]
      exact distinct.known sid front frontHeld
  · intro other msg member done isDone
    rw [written] at isDone
    rcases List.mem_append.mp isDone with before | isFront
    · exact distinct.gone other msg ((within other).mem member) done before
    · rw [List.mem_singleton.mp isFront]
      by_cases called : other = sid
      · subst called
        intro same
        exact nodup.1 (List.mem_map.mpr ⟨msg, part.mem member, same⟩)
      · exact distinct.apart other sid called msg ((within other).mem member) front frontHeld

theorem append_sublist (now : Nat) (msgs : MsgQueue) (ss : Session) :
    (ss.append now msgs).outQueue.Sublist (ss.outQueue ++ msgs) := by
  unfold Session.append
  split
  next started =>
    rw [Session.doWrite_outQueue, started.2]
    exact (List.dropWhile_suffix _).sublist
  next => exact List.Sublist.refl _

theorem number_id {id : Nat} {msgs : List (List Char × DestType × Nat)} :
    ((Sessions.number id msgs).map QueuedMsg.id) = List.range' id msgs.length := by
  induction msgs generalizing id with
  | nil => rfl
  | cons msg msgs inductionHypothesis =>
    obtain ⟨rawmsg, destType, enqueueTime⟩ := msg
    simp [Sessions.number, inductionHypothesis, List.range'_succ]

theorem mem_number {id : Nat} {msgs : List (List Char × DestType × Nat)} {msg : QueuedMsg}
    (member : msg ∈ Sessions.number id msgs) : id ≤ msg.id ∧ msg.id < id + msgs.length := by
  have listed : msg.id ∈ List.range' id msgs.length := by
    rw [← number_id]
    exact List.mem_map_of_mem member
  simpa using listed

/-! ## Runs -/

structure Invariant (store : Sessions) : Prop where
  sound : ∀ sid, Sound (store.session sid)
  distinct : Distinct store

theorem Invariant.oneWriter {store : Sessions} (invariant : Invariant store) : OneWriter store where
  one sid := (invariant.sound sid).writer.one
  front sid _ outstanding := (invariant.sound sid).writer.front outstanding
  once := invariant.distinct.once

theorem sound_update {store : Sessions} (sound : ∀ sid, Sound (store.session sid)) {sid : SessionId}
    {ss : Session} (changed : Sound ss) (other : SessionId) :
    Sound ((store.set sid ss).session other) := by
  by_cases called : other = sid
  · subst called; simpa using changed
  · simpa [called] using sound other

section Steps

variable {json : JsonCodec} {config : UConfig} {pid : Nat} {store after : Sessions}

/-- The session that is called appends messages to its queue. -/
theorem invariant_append (invariant : Invariant store) {sid : SessionId} {msgs : MsgQueue} {ss : Session}
    {nextMsg : Nat} (alone : StartsAlone store sid msgs) (fresh : Fresh store msgs)
    (unique : (msgs.map QueuedMsg.id).Nodup) (bounded : ∀ msg ∈ msgs, msg.id < nextMsg)
    (later : store.nextMsg ≤ nextMsg)
    (stopped : ss.stopped = (store.session sid).stopped)
    (closeFlag : ss.closeFlag = (store.session sid).closeFlag)
    (outQueue : ss.outQueue = ((store.session sid).append store.now msgs).outQueue)
    (writes : ss.writes = ((store.session sid).append store.now msgs).writes) :
    Invariant { store.set sid ss with nextMsg } where
  sound := by
    apply sound_update invariant.sound
    exact (sound_append (invariant.sound sid) alone).of_same (by simpa using stopped)
      (by simpa using closeFlag) outQueue writes
  distinct := by
    refine @distinct_set store _ invariant.distinct sid msgs fresh unique bounded ?_ ?_ later rfl
    · intro other different
      simp [different]
    · simpa [outQueue] using append_sublist store.now msgs (store.session sid)

/-- The session that is called changes without its queue. -/
theorem invariant_set (invariant : Invariant store) {sid : SessionId} {ss : Session} (sound : Sound ss)
    (outQueue : ss.outQueue = (store.session sid).outQueue) {nextMsg : Nat}
    (later : store.nextMsg ≤ nextMsg) : Invariant { store.set sid ss with nextMsg } where
  sound := sound_update invariant.sound sound
  distinct := by
    refine @distinct_of_part store _ invariant.distinct sid ?_ ?_ later rfl
    · intro other different
      simp [different]
    · simp [outQueue]

theorem invariant_putOutQueue (invariant : Invariant store) {sid : SessionId} {msg : Msg}
    (undisturbed : Undisturbed json config pid store (.putOutQueue sid msg))
    (final : (store.putOutQueue json sid msg).final = some after) : Invariant after := by
  unfold Sessions.putOutQueue Session.putOutQueue at final
  cases built : QueuedMsg.ofMsg json store.now store.nextMsg msg with
  | none =>
    simp only [built, Outcome.map_raised, Outcome.final_raised, Option.some.injEq] at final
    subst final
    exact invariant_set invariant (invariant.sound sid) rfl (Nat.le_succ _)
  | some queued =>
    simp only [built, Outcome.map_done, Outcome.final_done, Option.some.injEq] at final
    subst final
    obtain ⟨_, id, _⟩ := QueuedMsg.ofMsg_eq built
    refine invariant_append invariant (undisturbed queued built) ?_ (by simp) (by simp [id])
      (Nat.le_succ _) (by simp) (by simp) (by rw [Session.enqueue_eq_append])
      (by rw [Session.enqueue_eq_append])
    apply invariant.distinct.fresh
    simp [id]

theorem invariant_start (invariant : Invariant store) {sid : SessionId}
    (undisturbed : Undisturbed json config pid store (.start sid))
    (final : (store.start json config pid sid).final = some after) : Invariant after := by
  unfold Sessions.start Session.start Session.putOutQueue at final
  cases built : QueuedMsg.ofMsg json store.now store.nextMsg (Session.authMsg config pid) with
  | none =>
    simp only [built, Outcome.andThen_raised, Outcome.map_raised, Outcome.final_raised,
      Option.some.injEq] at final
    subst final
    exact invariant_set invariant (invariant.sound sid) rfl (Nat.le_succ _)
  | some queued =>
    simp only [built, Outcome.andThen_done, Outcome.map_done, Outcome.final_done,
      Option.some.injEq] at final
    subst final
    obtain ⟨_, id, _⟩ := QueuedMsg.ofMsg_eq built
    refine invariant_append invariant (undisturbed queued built) ?_ (by simp) (by simp [id])
      (Nat.le_succ _) (by simp [Session.doRead]) (by simp [Session.doRead])
      (by rw [← Session.enqueue_eq_append]; rfl) (by rw [← Session.enqueue_eq_append]; rfl)
    apply invariant.distinct.fresh
    simp [id]

theorem invariant_takeOverQueue (invariant : Invariant store) {sid : SessionId}
    {msgs : List (List Char × DestType × Nat)}
    (undisturbed : Undisturbed json config pid store (.takeOverQueue sid msgs))
    (next : store.step json config pid (.takeOverQueue sid msgs) = some after) : Invariant after := by
  obtain ⟨taken, final, rfl⟩ := Option.map_eq_some_iff.mp next
  obtain ⟨ss, returned, rfl⟩ := Sessions.takeOverQueue_final final
  obtain rfl := (Session.takeOverMessages_eq_some.mp returned).2
  refine invariant_append invariant undisturbed ?_ ?_ ?_ (Nat.le_add_right _ _) (by simp) (by simp) rfl rfl
  · apply invariant.distinct.fresh
    intro msg member
    exact (mem_number member).1
  · rw [number_id]
    exact List.nodup_range'
  · intro msg member
    exact (mem_number member).2

/-- The queue of `os` is emptied first, so that its messages are in no queue when they are appended to
that of `sid`. -/
theorem invariant_takeOverSession (invariant : Invariant store) {sid os : SessionId}
    (undisturbed : Undisturbed json config pid store (.takeOverSession sid os))
    (final : (store.takeOverSession sid os).final = some after) : Invariant after := by
  unfold Sessions.takeOverSession at final
  split at final
  next same =>
    split at final
    · cases final
      exact invariant
    · cases final
  next different =>
    simp only [Outcome.final_map, Option.map_eq_some_iff] at final
    obtain ⟨taken, final, rfl⟩ := final
    obtain ⟨ss, returned, rfl⟩ := Sessions.takeOverQueue_final final
    obtain rfl := (Session.takeOverMessages_eq_some.mp returned).2
    have emptied : Distinct (store.set os { store.session os with outQueue := [] }) := by
      refine @distinct_of_part store _ invariant.distinct os ?_ ?_ (Nat.le_refl _) rfl
      · intro other apart
        simp [apart]
      · simp
    have fresh : Fresh (store.set os { store.session os with outQueue := [] })
        (store.session os).outQueue := by
      intro msg member
      refine ⟨?_, fun done isDone => (invariant.distinct.gone os msg member done isDone).symm⟩
      intro other queued held
      by_cases called : other = os
      · subst called
        simp at held
      · exact invariant.distinct.apart other os called queued (by simpa [called] using held) msg member
    constructor
    · have sound := sound_append (invariant.sound sid) undisturbed.2
      intro other
      by_cases called : other = os
      · subst called
        have quiet := sound_emptied (invariant.sound other) (undisturbed.1 different)
        simpa [different] using quiet
      · simpa [called] using sound_update invariant.sound sound other
    · refine @distinct_set _ _ emptied sid _ fresh (invariant.distinct.nodup os)
        (invariant.distinct.known os) ?_ ?_ (Nat.le_refl _) rfl
      · intro other apart
        by_cases called : other = os
        · subst called
          simp
        · simp [called, apart]
      · simpa [Ne.symm different] using append_sublist store.now (store.session os).outQueue
          (store.session sid)

theorem invariant_written (lawful : json.Lawful) (invariant : Invariant store) {sid : SessionId}
    {i : Nat} {ok : Bool} (next : store.step json config pid (.written sid i ok) = some after) :
    Invariant after := by
  obtain ⟨outcome, completed, final⟩ := Option.bind_eq_some_iff.mp next
  obtain ⟨call, called, rfl⟩ := Option.map_eq_some_iff.mp completed
  have sound := sound_onWrite lawful (invariant.sound sid) called
  simp only [Outcome.final_map, Option.map_eq_some_iff] at final
  obtain ⟨ss, final, rfl⟩ := final
  refine ⟨sound_update invariant.sound (sound.of_final final), ?_⟩
  have others : ∀ other, other ≠ sid →
      ((store.set sid ss).session other).outQueue = (store.session other).outQueue := by
    intro other different
    simp [different]
  rcases Session.onWrite_cases called with ⟨msg, rfl, found, rfl⟩ | ⟨other, _, rfl⟩
  · have front := (invariant.sound sid).writer.front (List.mem_of_getElem? found)
    obtain ⟨rest, queue⟩ := List.head?_eq_some_iff.mp front
    refine @distinct_written store _ invariant.distinct sid msg rest queue others ?_ rfl (by simp [found])
    have remaining := ((Session.onWritten_keeps json config store.now _).of_final final).2
    simp only [queue, List.tail_cons] at remaining
    simpa [remaining] using (List.dropWhile_suffix _).sublist
  · cases final
    refine @distinct_of_part store _ invariant.distinct sid others ?_ (Nat.le_refl _) ?_
    · simp [Session.stop]
    · cases ok with
      | false => simp
      | true =>
        cases found : (store.session sid).writes[i]? with
        | none => simp
        | some write =>
          cases write with
          | bye live => simp
          | message msg live => exact absurd found (other msg live rfl)

theorem invariant_step (lawful : json.Lawful) {e : SessionsEvent} (invariant : Invariant store)
    (next : store.step json config pid e = some after)
    (undisturbed : Undisturbed json config pid store e) : Invariant after := by
  cases e with
  | tick elapsed =>
    cases next
    exact ⟨invariant.sound, { invariant.distinct with }⟩
  | start sid => exact invariant_start invariant undisturbed next
  | putOutQueue sid msg => exact invariant_putOutQueue invariant undisturbed next
  | takeOverQueue sid msgs => exact invariant_takeOverQueue invariant undisturbed next
  | takeOverSession sid os => exact invariant_takeOverSession invariant undisturbed next
  | written sid i ok => exact invariant_written lawful invariant next
  | gracefullClose sid reason =>
    have final : (store.gracefullClose json config sid reason).final = some after := next
    simp only [Sessions.gracefullClose, Outcome.final_map, Option.map_eq_some_iff] at final
    obtain ⟨ss, final, rfl⟩ := final
    have sound := (sound_gracefullClose lawful config (invariant.sound sid) reason).of_final final
    have kept := (Session.gracefullClose_keeps json config reason _).of_final final
    exact invariant_set invariant sound kept.2.2 (Nat.le_refl _)
  | stop sid =>
    cases next
    exact invariant_set invariant (sound_stop (invariant.sound sid)) rfl (Nat.le_refl _)

/-- A second write on one session. -/
theorem not_oneWriter_append {sid : SessionId} {msgs : MsgQueue} (crowded : ¬ StartsAlone store sid msgs)
    (writes : (after.session sid).writes = ((store.session sid).append store.now msgs).writes) :
    ¬ OneWriter after := by
  simp only [StartsAlone, Classical.not_imp] at crowded
  obtain ⟨empty, young, outstanding⟩ := crowded
  intro oneWriter
  have one := oneWriter.one sid
  rw [writes] at one
  exact append_two_writes empty young outstanding one

theorem disturbed_step {e : SessionsEvent} (next : store.step json config pid e = some after)
    (disturbed : ¬ Undisturbed json config pid store e) : ¬ OneWriter after := by
  cases e with
  | tick _ | written _ _ _ | gracefullClose _ _ | stop _ => exact absurd trivial disturbed
  | start sid =>
    simp only [Undisturbed, not_forall] at disturbed
    obtain ⟨queued, built, crowded⟩ := disturbed
    simp only [Sessions.step, Sessions.start, Session.start, Session.putOutQueue, built,
      Outcome.andThen_done, Outcome.map_done, Outcome.final_done, Option.some.injEq] at next
    subst next
    apply not_oneWriter_append crowded
    simp [Session.enqueue_eq_append, Session.doRead]
  | putOutQueue sid msg =>
    simp only [Undisturbed, not_forall] at disturbed
    obtain ⟨queued, built, crowded⟩ := disturbed
    simp only [Sessions.step, Sessions.putOutQueue, Session.putOutQueue, built, Outcome.map_done,
      Outcome.final_done, Option.some.injEq] at next
    subst next
    apply not_oneWriter_append crowded
    simp [Session.enqueue_eq_append]
  | takeOverQueue sid msgs =>
    obtain ⟨taken, final, rfl⟩ := Option.map_eq_some_iff.mp next
    obtain ⟨ss, returned, rfl⟩ := Sessions.takeOverQueue_final final
    obtain rfl := (Session.takeOverMessages_eq_some.mp returned).2
    apply not_oneWriter_append disturbed
    simp
  | takeOverSession sid os =>
    simp only [Sessions.step, Sessions.takeOverSession] at next
    split at next
    next same =>
      subst same
      split at next
      next empty =>
        -- a session without messages takes nothing over from itself
        have nothing := List.isEmpty_iff.mp empty
        simp [Undisturbed, StartsAlone, nothing] at disturbed
      next => cases next
    next different =>
      simp only [Outcome.final_map, Option.map_eq_some_iff] at next
      obtain ⟨taken, final, rfl⟩ := next
      obtain ⟨ss, returned, rfl⟩ := Sessions.takeOverQueue_final final
      obtain rfl := (Session.takeOverMessages_eq_some.mp returned).2
      by_cases quiet : ∀ msg, .message msg true ∉ (store.session os).writes
      · have crowded : ¬ StartsAlone store sid (store.session os).outQueue := fun alone =>
          disturbed ⟨fun _ => quiet, alone⟩
        apply not_oneWriter_append crowded
        simp [Ne.symm different]
      · simp only [not_forall, not_not] at quiet
        obtain ⟨msg, outstanding⟩ := quiet
        intro oneWriter
        have front := oneWriter.front os msg (by simpa [different] using outstanding)
        simp at front

/-- The runs of any set of sessions that write every message once, one at a time and in front of its
queue, are exactly those in which no message goes into an empty queue while a write is outstanding
and no queue is taken over behind an outstanding write of one of its messages. -/
theorem single_writer_runs_iff (lawful : json.Lawful) (direction : SessionId → Direction)
    (remoteIp : SessionId → String) (events : List SessionsEvent) :
    Always (Sessions.step json config pid) OneWriter (.initial direction remoteIp) events ↔
      Meets (Sessions.step json config pid) (Undisturbed json config pid) (.initial direction remoteIp)
        events := by
  apply @always_iff_meets _ _ _ Invariant
  · exact Invariant.oneWriter
  · exact invariant_step lawful
  · exact fun _ => disturbed_step
  · refine ⟨fun sid => ⟨nofun, .idle rfl⟩, ?_, ?_, ?_, List.nodup_nil, ?_, ?_⟩
    · exact fun sid => List.nodup_nil
    all_goals simp [Sessions.initial, Session.new]

end Steps

/-- A message to the application `uecho` of this node. -/
def pingLocal : Msg := .outgoing ⟨"beta", "userver"⟩ ⟨"uecho", "beta"⟩ "ping" .empty

/-- An application reconnects when its old session has written everything. -/
theorem single_writer_runs_reconnect :
    Always (Sessions.step Json.compactJson ⟨"beta", "userver"⟩ 1) OneWriter
      (.initial (fun _ => .incoming) fun _ => "127.0.0.1")
      [.putOutQueue 0 pingLocal, .written 0 0 true, .takeOverSession 1 0] := by
  apply (single_writer_runs_iff Json.compactJson_lawful _ _ _).mpr
  rintro t ⟨rfl⟩
  refine ⟨fun _ _ _ _ => rfl, ?_⟩
  rintro t ⟨rfl⟩
  refine ⟨trivial, ?_⟩
  rintro t ⟨rfl⟩
  exact ⟨⟨fun _ _ => List.not_mem_nil, fun _ _ => rfl⟩, trivial⟩

/-- An application reconnects while a message is being written on its old session: the new session
writes the message again. -/
theorem reconnect_writes_twice :
    ¬ Always (Sessions.step Json.compactJson ⟨"beta", "userver"⟩ 1) OneWriter
      (.initial (fun _ => .incoming) fun _ => "127.0.0.1")
      [.putOutQueue 0 pingLocal, .takeOverSession 1 0, .written 0 0 true, .written 1 0 true] := by
  intro always
  have reached : exec (Sessions.step Json.compactJson ⟨"beta", "userver"⟩ 1)
      (.initial (fun _ => .incoming) fun _ => "127.0.0.1")
      [.putOutQueue 0 pingLocal, .takeOverSession 1 0, .written 0 0 true, .written 1 0 true] =
        some _ := rfl
  exact absurd (always.last reached).once (by decide)

end Uzel.Verified.SingleWriter
