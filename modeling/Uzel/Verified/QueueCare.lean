import Uzel.Verified.FirstTexts

/-! # The queue of a session that is not authenticated

`start()` queues the first message of a session, and until the peer has authenticated itself nobody else
puts a message into its queue.  So the queue is empty or it holds the message that is being written.
`Careful` is what a call may do to a session without an end of that, and the rules of this module say
which calls of the sessions of a process are careful.
-/

namespace Uzel.Verified.QueueCare

open Foundation FirstTexts

/-- What a handler has done to a session.  A session without `m_msg1` never has the flag for undefined
behaviour, which a `deleteOld` raises when it drops messages of such a session, and `m_msg1` is never
taken away.  The flag is raised by a `pop_front` that finds the queue empty, too, but then there is nothing
to drop. -/
structure ExpiresSafely (ss after : Session) : Prop where
  unauthenticated : ss.msg1 = none → after.undefinedBehaviour = false
  authenticated : ss.msg1 ≠ none → after.msg1 = ss.msg1
  drops : after.dropped ≠ ss.dropped →
    after.msg1 ≠ none ∧ after.undefinedBehaviour = ss.undefinedBehaviour

def isMessage : Write → Bool
  | .message _ _ => true
  | .bye _ => false

/-- A session that is not authenticated has at most its first message in the queue, and none before it is
connected. -/
structure Bare (ss : Session) : Prop where
  short : ss.outQueue.length ≤ 1
  unconnected : ss.connecting = true → ss.outQueue = []
  queued : ss.writes.countP isMessage ≤ ss.outQueue.length
  dropped : ss.dropped = []
  sound : ss.undefinedBehaviour = false

/-- A call neither raises the flag of the session nor leaves more than its first message in the queue of
one that is not authenticated. -/
structure Careful (ss after : Session) : Prop where
  msg1 : after.msg1 = ss.msg1
  flag : (ss.msg1 = none → Bare ss) → after.undefinedBehaviour = ss.undefinedBehaviour
  bare : ss.msg1 = none → Bare ss → Bare after

/-- A session has only been called, or it has been authenticated before it was called. -/
inductive Treated (ss after : Session) : Prop
  | called (careful : Careful ss after)
  | authenticated {msg : Msg} (unknown : ss.msg1 = none)
      (careful : Careful { ss with msg1 := some msg } after)

/-! ## One session -/

section Sessions

variable {json : JsonCodec} {config : UConfig} {ss after : Session}

theorem Careful.refl (ss : Session) : Careful ss ss := ⟨rfl, fun _ => rfl, fun _ => id⟩

theorem Careful.trans {third : Session} (first : Careful ss after) (second : Careful after third) :
    Careful ss third where
  msg1 := second.msg1.trans first.msg1
  flag before := by
    have between : after.msg1 = none → Bare after := by
      intro unknown
      have unknown : ss.msg1 = none := first.msg1.symm.trans unknown
      exact first.bare unknown (before unknown)
    exact (second.flag between).trans (first.flag before)
  bare unknown before := second.bare (first.msg1.trans unknown) (first.bare unknown before)

theorem Treated.trans {third : Session} (first : Treated ss after) (second : Careful after third) :
    Treated ss third := by
  cases first with
  | called careful => exact .called (careful.trans second)
  | authenticated unknown careful => exact .authenticated unknown (careful.trans second)

theorem Treated.expiresSafely (treated : Treated ss after) (bare : ss.msg1 = none → Bare ss) :
    ExpiresSafely ss after := by
  cases treated with
  | called careful =>
    have flag := careful.flag bare
    refine ⟨fun unknown => flag.trans (bare unknown).sound, fun _ => careful.msg1, fun changed => ⟨?_, flag⟩⟩
    intro still
    have unknown : ss.msg1 = none := careful.msg1.symm.trans still
    exact changed ((careful.bare unknown (bare unknown)).dropped.trans (bare unknown).dropped.symm)
  | @authenticated msg unknown careful =>
    have flag : after.undefinedBehaviour = ss.undefinedBehaviour := careful.flag fun isNone => by cases isNone
    have known : after.msg1 = some msg := careful.msg1
    refine ⟨fun _ => flag.trans (bare unknown).sound, fun known => absurd unknown known, fun _ => ⟨?_, flag⟩⟩
    rw [known]
    exact Option.some_ne_none msg

theorem Treated.bare (treated : Treated ss after) (bare : ss.msg1 = none → Bare ss)
    (still : after.msg1 = none) : Bare after := by
  cases treated with
  | called careful =>
    have unknown : ss.msg1 = none := careful.msg1.symm.trans still
    exact careful.bare unknown (bare unknown)
  | authenticated unknown careful =>
    have known := careful.msg1
    rw [still] at known
    cases known

theorem Treated.careful (treated : Treated ss after) (known : ss.msg1 ≠ none) : Careful ss after := by
  cases treated with
  | called careful => exact careful
  | authenticated unknown careful => exact absurd unknown known

theorem Treated.keeps (treated : Treated ss after) (known : ss.msg1 ≠ none) : after.msg1 ≠ none := by
  rw [(treated.careful known).msg1]
  exact known

/-- The session is called by its own handlers only, and they leave its queue alone. -/
theorem careful_of_same (msg1 : after.msg1 = ss.msg1) (queue : after.outQueue = ss.outQueue)
    (dropped : after.dropped = ss.dropped) (flag : after.undefinedBehaviour = ss.undefinedBehaviour)
    (connecting : after.connecting = true → ss.connecting = true)
    (writes : after.writes.countP isMessage ≤ ss.writes.countP isMessage) : Careful ss after where
  msg1 := msg1
  flag _ := flag
  bare _ bare :=
    ⟨queue ▸ bare.short, fun connects => queue.trans (bare.unconnected (connecting connects)),
      writes.trans (queue ▸ bare.queued), dropped.trans bare.dropped, flag.trans bare.sound⟩

/-- An authenticated session may be called by anybody. -/
theorem carried_known : Session.Carried fun ss after => ss.msg1 ≠ none →
    after.msg1 = ss.msg1 ∧ after.undefinedBehaviour = ss.undefinedBehaviour where
  refl _ _ := ⟨rfl, rfl⟩
  trans first second known := by
    obtain ⟨msg1, flag⟩ := first known
    obtain ⟨msg1', flag'⟩ := second (msg1 ▸ known)
    exact ⟨msg1'.trans msg1, flag'.trans flag⟩
  appended ss now msgs known := by
    refine ⟨congrArg Endpoint.msg1 (Session.append_toEndpoint now msgs ss), ?_⟩
    -- `m_msg1` is set, so a `deleteOld` does not raise the flag whatever it drops
    have isNone : ss.msg1.isNone = false :=
      Option.isNone_eq_false_iff.mpr (Option.isSome_iff_ne_none.mpr known)
    unfold Session.append
    split
    · rcases Session.doWrite_cases now { ss with outQueue := msgs } with ⟨_, same⟩ | ⟨_, _, _, same⟩
      · rw [same]
        simp [Session.deleteOld, isNone]
      · rw [same]
        simp [Session.deleteOld, Session.asyncWrite, isNone]
    · rfl
  emptied _ _ := ⟨rfl, rfl⟩
  bye _ _ _ := ⟨rfl, rfl⟩
  flagged _ _ _ := ⟨rfl, rfl⟩
  connected _ _ _ := ⟨rfl, rfl⟩

theorem careful_of_known (known : ss.msg1 ≠ none)
    (carried : after.msg1 = ss.msg1 ∧ after.undefinedBehaviour = ss.undefinedBehaviour) :
    Careful ss after :=
  ⟨carried.1, fun _ => carried.2, fun unknown => absurd unknown known⟩

/-- A session that has been made stands for one that nobody has called. -/
theorem careful_made (unknown : ss.msg1 = none) (before : ss.msg1 = none → Bare ss)
    (unused : after.msg1 = none) (queue : after.outQueue = []) (writes : after.writes = [])
    (dropped : after.dropped = []) (sound : after.undefinedBehaviour = false) : Careful ss after where
  msg1 := unused.trans unknown.symm
  flag _ := sound.trans (before unknown).sound.symm
  bare _ _ := ⟨by simp [queue], fun _ => queue, by simp [writes], dropped, sound⟩

theorem careful_startConnection (empty : ss.outQueue = []) : Careful ss ss.startConnection where
  msg1 := rfl
  flag _ := rfl
  bare _ bare := ⟨bare.short, fun _ => empty, bare.queued, bare.dropped, bare.sound⟩

theorem careful_gracefullClose (reason : String) (ss : Session) :
    (ss.gracefullClose json config reason).All (Careful ss) := by
  simp only [Session.gracefullClose, Session.sendByeAndClose]
  split
  · exact .refl ss
  · split
    · split
      · exact careful_of_same rfl rfl rfl rfl id (Nat.le_refl _)
      · exact careful_of_same rfl rfl rfl rfl id (by simp [Session.asyncWrite, isMessage])
    · exact careful_of_same rfl rfl rfl rfl id (Nat.le_refl _)

/-- `start()` queues the first message of a session that is not authenticated. -/
theorem careful_start (lawful : json.Lawful) {pid now id : Nat} (ss : Session)
    (connected : ss.connecting = false) (unused : ss.msg1 = none → ss.outQueue = []) :
    (ss.start json config pid now id).All (Careful ss) := by
  obtain ⟨queued, started, -, young⟩ := @Handlers.start_eq json pid lawful config ss now id
  rw [started]
  show Careful ss (ss.enqueue now queued).doRead
  by_cases known : ss.msg1 = none
  -- the queue is empty and the message is new, so nothing is dropped before it is written
  · have alone : ss.enqueue now queued =
        { ss with outQueue := [queued] }.asyncWrite (.message queued) queued.rawmsg := by
      rw [Protocol.enqueue_young young, if_pos (unused known)]
    rw [alone]
    refine ⟨rfl, fun _ => rfl, fun _ bare => ?_⟩
    have idle : ss.writes.countP isMessage = 0 := by simpa [unused known] using bare.queued
    refine ⟨Nat.le_refl 1, ?_, ?_, bare.dropped, bare.sound⟩
    · intro connects
      exact absurd (connected.symm.trans connects) Bool.false_ne_true
    · simp [Session.doRead, Session.asyncWrite, idle, isMessage]
  · exact careful_of_known known (carried_known.enqueue ss now queued known)

/-- What the completion of a message write does to a session. -/
structure Popped (now : Nat) (ss after : Session) : Prop where
  endpoint : after.toEndpoint = ss.toEndpoint
  queue : after.outQueue = ss.outQueue.tail.dropWhile (·.expired now)
  dropped : after.dropped = ss.dropped ++ ss.outQueue.tail.takeWhile (·.expired now)
  flag : after.undefinedBehaviour = (ss.undefinedBehaviour || ss.outQueue.isEmpty ||
    (!(ss.outQueue.tail.takeWhile (·.expired now)).isEmpty && ss.msg1.isNone))
  messages : after.writes.countP isMessage = ss.writes.countP isMessage

theorem popped_onWritten (now : Nat) (ss : Session) :
    (ss.onWritten json config now).All (Popped now ss) := by
  simp only [Session.onWritten, Session.sendByeAndClose]
  split
  · split
    · exact ⟨rfl, rfl, rfl, rfl, rfl⟩
    · exact ⟨rfl, rfl, rfl, rfl, by simp [Session.asyncWrite, Session.deleteOld, isMessage]⟩
  · exact ⟨rfl, rfl, rfl, rfl, rfl⟩

theorem countP_eraseIdx {writes : List Write} {i : Nat} {write : Write} (found : writes[i]? = some write)
    (message : isMessage write = true) :
    writes.countP isMessage = (writes.eraseIdx i).countP isMessage + 1 := by
  obtain ⟨bound, same⟩ := List.getElem?_eq_some_iff.mp found
  rw [← (List.getElem_cons_eraseIdx_perm bound).countP_eq isMessage, same]
  simp [message]

/-- The message that has been written is all that is in the queue of a session that is not
authenticated. -/
theorem expiresSafely_popped_bare {now i : Nat} {msg : QueuedMsg} {live : Bool} (unknown : ss.msg1 = none)
    (bare : Bare ss) (found : ss.writes[i]? = some (.message msg live))
    (popped : Popped now { ss with writes := ss.writes.eraseIdx i } after) :
    ExpiresSafely ss after ∧ Bare after := by
  have one := countP_eraseIdx found rfl
  have written : ss.outQueue.length = 1 := by
    have short := bare.short
    have queued := bare.queued
    omega
  obtain ⟨front, single⟩ := List.length_eq_one_iff.mp written
  have flag : after.undefinedBehaviour = false := by
    rw [popped.flag]
    simp [single, bare.sound]
  have queue : after.outQueue = [] := by
    rw [popped.queue]
    simp [single]
  have dropped : after.dropped = [] := by
    rw [popped.dropped]
    simp [single, bare.dropped]
  have messages : after.writes.countP isMessage = 0 := by
    have queued := bare.queued
    rw [popped.messages]
    dsimp only
    omega
  constructor
  · exact ⟨fun _ => flag, fun known => absurd unknown known,
      fun changed => absurd (dropped.trans bare.dropped.symm) changed⟩
  · exact ⟨by simp [queue], fun _ => queue, by simp [messages], dropped, flag⟩

/-- The queue of an authenticated session may be empty, when another session has taken it over.  Then the
`pop_front` is undefined, and there is nothing to drop. -/
theorem expiresSafely_popped_known {now i : Nat} (known : ss.msg1 ≠ none)
    (popped : Popped now { ss with writes := ss.writes.eraseIdx i } after) : ExpiresSafely ss after := by
  have isNone : ss.msg1.isNone = false :=
    Option.isNone_eq_false_iff.mpr (Option.isSome_iff_ne_none.mpr known)
  have msg1 : after.msg1 = ss.msg1 := congrArg Endpoint.msg1 popped.endpoint
  refine ⟨fun unknown => absurd unknown known, fun _ => msg1, fun changed => ⟨msg1 ▸ known, ?_⟩⟩
  rw [popped.flag]
  cases queue : ss.outQueue with
  | nil =>
    rw [popped.dropped] at changed
    simp [queue] at changed
  | cons front rest => simp [isNone]

/-- A write completes. -/
theorem expiresSafely_onWrite {now i : Nat} {ok : Bool} {outcome : Outcome Session}
    (bare : ss.msg1 = none → Bare ss)
    (completed : ss.onWrite json config now i ok = some outcome) :
    outcome.All fun after =>
      ExpiresSafely ss after ∧ after.msg1 = ss.msg1 ∧ (after.msg1 = none → Bare after) := by
  rcases Session.onWrite_cases completed with ⟨msg, -, found, rfl⟩ | ⟨-, -, rfl⟩
  · apply (popped_onWritten now { ss with writes := ss.writes.eraseIdx i }).mono
    intro after popped
    have msg1 : after.msg1 = ss.msg1 := congrArg Endpoint.msg1 popped.endpoint
    by_cases unknown : ss.msg1 = none
    · obtain ⟨safe, bare'⟩ := expiresSafely_popped_bare unknown (bare unknown) found popped
      exact ⟨safe, msg1, fun _ => bare'⟩
    · refine ⟨expiresSafely_popped_known unknown popped, msg1, fun still => ?_⟩
      exact absurd (msg1.symm.trans still) unknown
  · have careful : Careful ss { ss with writes := ss.writes.eraseIdx i }.stop :=
      careful_of_same rfl rfl rfl rfl id (List.Sublist.countP_le (List.eraseIdx_sublist ss.writes i))
    exact ⟨(Treated.called careful).expiresSafely bare, rfl, (Treated.called careful).bare bare⟩

end Sessions

/-! ## The sessions of a process -/

/-- Every session is treated with care. -/
def AllCareful (store after : Sessions) : Prop :=
  ∀ sid, Careful (store.session sid) (after.session sid)

/-- And one session may have been authenticated. -/
structure Treats (sid : SessionId) (store after : Sessions) : Prop where
  self : Treated (store.session sid) (after.session sid)
  others : ∀ other, other ≠ sid → Careful (store.session other) (after.session other)

/-- The sessions that are not authenticated have not got anything but their first message. -/
def Unburdened (store : Sessions) : Prop :=
  ∀ sid, (store.session sid).msg1 = none → Bare (store.session sid)

section Store

variable {json : JsonCodec} {config : UConfig} {store after : Sessions} {sid : SessionId}

theorem AllCareful.refl (store : Sessions) : AllCareful store store := fun _ => .refl _

theorem AllCareful.trans {third : Sessions} (first : AllCareful store after) (second : AllCareful after third) :
    AllCareful store third :=
  fun sid => (first sid).trans (second sid)

theorem AllCareful.unburdened (careful : AllCareful store after) (unburdened : Unburdened store) :
    Unburdened after :=
  fun sid => (Treated.called (careful sid)).bare (unburdened sid)

theorem allCareful_set {ss : Session} (careful : Careful (store.session sid) ss) :
    AllCareful store (store.set sid ss) := by
  intro other
  by_cases same : other = sid
  · subst same
    simpa using careful
  · simpa [same] using Careful.refl (store.session other)

theorem allCareful_gracefullClose (sid : SessionId) (reason : String) (store : Sessions) :
    (store.gracefullClose json config sid reason).All (AllCareful store) := by
  apply Outcome.all_map.mpr
  exact (careful_gracefullClose reason (store.session sid)).mono fun _ => allCareful_set

theorem allCareful_start (lawful : json.Lawful) {pid : Nat} (connected : (store.session sid).connecting = false)
    (unused : (store.session sid).msg1 = none → (store.session sid).outQueue = []) :
    (store.start json config pid sid).All (AllCareful store) := by
  apply Outcome.all_map.mpr
  exact (careful_start lawful (store.session sid) connected unused).mono fun _ => allCareful_set

/-- Calls of authenticated sessions. -/
theorem allCareful_of_known (spared : ∀ sid, (store.session sid).msg1 = none →
      after.session sid = store.session sid)
    (carries : store.Carries (fun ss after => ss.msg1 ≠ none →
      after.msg1 = ss.msg1 ∧ after.undefinedBehaviour = ss.undefinedBehaviour) after) :
    AllCareful store after := by
  intro sid
  by_cases unknown : (store.session sid).msg1 = none
  · rw [spared sid unknown]
    exact .refl _
  · exact careful_of_known unknown (carries sid unknown)

theorem allCareful_putOutQueue (known : (store.session sid).msg1 ≠ none) (msg : Msg) :
    (store.putOutQueue json sid msg).All (AllCareful store) := by
  apply Outcome.all_of_final
  intro after final
  apply allCareful_of_known
  · intro other unknown
    have different : other ≠ sid := fun same => known (same ▸ unknown)
    exact (putOutQueue_other different msg).of_final final
  · exact (Sessions.carries_putOutQueue carried_known json sid msg store).of_final final

theorem allCareful_takeOverSession {old : SessionId} (known : (store.session sid).msg1 ≠ none)
    (registered : (store.session old).msg1 ≠ none) :
    (store.takeOverSession sid old).All (AllCareful store) := by
  apply Outcome.all_of_final
  intro after final
  apply allCareful_of_known
  · intro other unknown
    have different : other ≠ sid := fun same => known (same ▸ unknown)
    have apart : other ≠ old := fun same => registered (same ▸ unknown)
    exact (takeOverSession_other different apart).of_final final
  · exact (Sessions.carries_takeOverSession carried_known sid old store).of_final final

theorem Treats.treated (treats : Treats sid store after) (other : SessionId) :
    Treated (store.session other) (after.session other) := by
  by_cases same : other = sid
  · exact same ▸ treats.self
  · exact .called (treats.others other same)

theorem Treats.trans {third : Sessions} (first : Treats sid store after) (second : AllCareful after third) :
    Treats sid store third :=
  ⟨first.self.trans (second sid), fun other different => (first.others other different).trans (second other)⟩

theorem AllCareful.treats (careful : AllCareful store after) (sid : SessionId) : Treats sid store after :=
  ⟨.called (careful sid), fun other _ => careful other⟩

theorem Treats.expiresSafely (treats : Treats sid store after) (unburdened : Unburdened store)
    (other : SessionId) : ExpiresSafely (store.session other) (after.session other) :=
  (treats.treated other).expiresSafely (unburdened other)

theorem Treats.unburdened (treats : Treats sid store after) (unburdened : Unburdened store) :
    Unburdened after :=
  fun other => (treats.treated other).bare (unburdened other)

end Store

end Uzel.Verified.QueueCare
