import Uzel.Session

/-! # The sessions of a process

All sessions of a process with the clock.  The functions of `session` are lifted to the session of a
given identity; `takeOverMessages` of another session is the one that touches two of them.

`nextMsg` and `written` are history: the identity that the next queued message gets, and the queued
messages that have been written completely, in the order of their completions.
-/

namespace Uzel

open Foundation

structure Sessions where
  now : Nat
  nextMsg : Nat
  session : SessionId → Session
  written : List QueuedMsg

namespace Sessions

def set (sid : SessionId) (ss : Session) (store : Sessions) : Sessions :=
  { store with session := Function.update store.session sid ss }

def connectClosed (sid : SessionId) (slot : ClosedSlot) (store : Sessions) : Sessions :=
  let ss := store.session sid
  store.set sid { ss with closedSlots := ss.closedSlots ++ [slot] }

def putOutQueue (json : JsonCodec) (sid : SessionId) (msg : Msg) (store : Sessions) : Outcome Sessions :=
  ((store.session sid).putOutQueue json store.now store.nextMsg msg).map fun ss =>
    { store.set sid ss with nextMsg := store.nextMsg + 1 }

def start (json : JsonCodec) (config : UConfig) (pid : Nat) (sid : SessionId) (store : Sessions) :
    Outcome Sessions :=
  ((store.session sid).start json config pid store.now store.nextMsg).map fun ss =>
    { store.set sid ss with nextMsg := store.nextMsg + 1 }

def gracefullClose (json : JsonCodec) (config : UConfig) (sid : SessionId) (reason : String)
    (store : Sessions) : Outcome Sessions :=
  ((store.session sid).gracefullClose json config reason).map (store.set sid)

/-- `takeOverMessages(oq)`; `oq` is empty when it returns. -/
def takeOverQueue (sid : SessionId) (oq : MsgQueue) (store : Sessions) : Outcome Sessions :=
  match (store.session sid).takeOverMessages store.now oq with
  | none => .hung
  | some ss => .done (store.set sid ss)

/-- `takeOverMessages(os)`.  A session that takes over its own queue appends to it what it takes off,
for ever. -/
def takeOverSession (sid os : SessionId) (store : Sessions) : Outcome Sessions :=
  if os = sid then
    if (store.session sid).outQueue.isEmpty then .done store else .hung
  else
    (store.takeOverQueue sid (store.session os).outQueue).map fun store =>
      store.set os { store.session os with outQueue := [] }

/-- The completion of the write number `i` of a session. -/
def onWrite (json : JsonCodec) (config : UConfig) (sid : SessionId) (i : Nat) (ok : Bool)
    (store : Sessions) : Option (Outcome Sessions) :=
  let ss := store.session sid
  let written :=
    match ss.writes[i]?, ok with
    | some (.message msg _), true => [msg]
    | _, _ => []
  (ss.onWrite json config store.now i ok).map fun outcome =>
    outcome.map fun ss => { store.set sid ss with written := store.written ++ written }

@[simp] theorem set_session (sid : SessionId) (ss : Session) (store : Sessions) :
    (store.set sid ss).session = Function.update store.session sid ss := rfl
/-- What a change of one session leaves alone is the same in all of them. -/
theorem set_congr {α : Sort*} (f : Session → α) {store : Sessions} {sid : SessionId} {ss : Session}
    (same : f ss = f (store.session sid)) (other : SessionId) :
    f ((store.set sid ss).session other) = f (store.session other) := by
  by_cases called : other = sid
  · subst called
    simpa using same
  · simp [called]

@[simp] theorem set_now (sid : SessionId) (ss : Session) (store : Sessions) :
    (store.set sid ss).now = store.now := rfl
@[simp] theorem set_nextMsg (sid : SessionId) (ss : Session) (store : Sessions) :
    (store.set sid ss).nextMsg = store.nextMsg := rfl
@[simp] theorem set_written (sid : SessionId) (ss : Session) (store : Sessions) :
    (store.set sid ss).written = store.written := rfl

/-! ## What the calls leave alone -/

/-- No call authenticates a session, stops one, or takes a message off a queue before its time. -/
structure Grows (store after : Sessions) : Prop where
  now : after.now = store.now
  written : after.written = store.written
  msg1 : ∀ sid, (after.session sid).msg1 = (store.session sid).msg1
  stopped : ∀ sid, (after.session sid).stopped = (store.session sid).stopped
  queue : ∀ sid, ∀ msg ∈ (store.session sid).outQueue, msg.expired store.now = false →
    msg ∈ (after.session sid).outQueue

namespace Grows

theorem refl (store : Sessions) : Grows store store :=
  ⟨rfl, rfl, fun _ => rfl, fun _ => rfl, fun _ _ member _ => member⟩

theorem trans {first second third : Sessions} (before : Grows first second) (after : Grows second third) :
    Grows first third where
  now := after.now.trans before.now
  written := after.written.trans before.written
  msg1 sid := (after.msg1 sid).trans (before.msg1 sid)
  stopped sid := (after.stopped sid).trans (before.stopped sid)
  queue sid msg member young :=
    after.queue sid msg (before.queue sid msg member young) (by rw [before.now]; exact young)

/-- It is enough to look at the session that is called. -/
theorem of_set (store : Sessions) (sid : SessionId) (ss : Session)
    (msg1 : ss.msg1 = (store.session sid).msg1) (stopped : ss.stopped = (store.session sid).stopped)
    (queue : ∀ msg ∈ (store.session sid).outQueue, msg.expired store.now = false → msg ∈ ss.outQueue)
    (nextMsg : Nat) : Grows store { store.set sid ss with nextMsg } where
  now := rfl
  written := rfl
  msg1 other := by
    by_cases same : other = sid
    · subst same; simpa using msg1
    · simp [same]
  stopped other := by
    by_cases same : other = sid
    · subst same; simpa using stopped
    · simp [same]
  queue other := by
    by_cases same : other = sid
    · subst same; simpa using queue
    · simp only [set_session, Function.update_of_ne same]
      exact fun msg member _ => member

end Grows

theorem mem_dropWhile_expired {now : Nat} {queue : MsgQueue} {msg : QueuedMsg} (member : msg ∈ queue)
    (young : msg.expired now = false) : msg ∈ queue.dropWhile (·.expired now) := by
  induction queue with
  | nil => cases member
  | cons front queue inductionHypothesis =>
    by_cases old : front.expired now = true
    · rw [List.dropWhile_cons_of_pos old]
      rcases List.mem_cons.mp member with rfl | later
      · rw [young] at old
        cases old
      · exact inductionHypothesis later
    · rw [List.dropWhile_cons_of_neg old]
      exact member

theorem mem_append {now : Nat} {msgs : MsgQueue} {ss : Session} {msg : QueuedMsg}
    (member : msg ∈ ss.outQueue ∨ msg ∈ msgs) (young : msg.expired now = false) :
    msg ∈ (ss.append now msgs).outQueue := by
  unfold Session.append
  split
  next started =>
    rw [Session.doWrite_outQueue]
    refine mem_dropWhile_expired ?_ young
    simpa [started.2] using member
  next => simpa using member

theorem mem_enqueue {now : Nat} {ss : Session} {msg queued : QueuedMsg}
    (member : msg ∈ ss.outQueue ∨ msg = queued) (young : msg.expired now = false) :
    msg ∈ (ss.enqueue now queued).outQueue := by
  rw [Session.enqueue_eq_append]
  exact mem_append (by simpa using member) young

theorem mem_takeOverMessages {now : Nat} {oq : MsgQueue} {ss result : Session} {msg : QueuedMsg}
    (returned : ss.takeOverMessages now oq = some result) (member : msg ∈ ss.outQueue ∨ msg ∈ oq)
    (young : msg.expired now = false) : msg ∈ result.outQueue := by
  rw [(Session.takeOverMessages_eq_some.mp returned).2]
  exact mem_append member young

theorem grows_connectClosed (sid : SessionId) (slot : ClosedSlot) (store : Sessions) :
    Grows store (store.connectClosed sid slot) :=
  Grows.of_set store sid { store.session sid with closedSlots := (store.session sid).closedSlots ++ [slot] }
    rfl rfl (fun _ member _ => member) store.nextMsg

theorem grows_putOutQueue (json : JsonCodec) (sid : SessionId) (msg : Msg) (store : Sessions) :
    (store.putOutQueue json sid msg).All (Grows store) := by
  unfold putOutQueue Session.putOutQueue
  cases QueuedMsg.ofMsg json store.now store.nextMsg msg with
  | none => exact Grows.of_set store sid _ rfl rfl (fun _ member _ => member) _
  | some queued =>
    exact Grows.of_set store sid ((store.session sid).enqueue store.now queued) (by simp) (by simp)
      (fun _ member young => mem_enqueue (.inl member) young) _

theorem grows_start (json : JsonCodec) (config : UConfig) (pid : Nat) (sid : SessionId)
    (store : Sessions) : (store.start json config pid sid).All (Grows store) := by
  unfold start Session.start Session.putOutQueue
  cases QueuedMsg.ofMsg json store.now store.nextMsg (Session.authMsg config pid) with
  | none => exact Grows.of_set store sid _ rfl rfl (fun _ member _ => member) _
  | some queued =>
    exact Grows.of_set store sid ((store.session sid).enqueue store.now queued).doRead
      (by simp [Session.doRead]) (by simp [Session.doRead])
      (fun _ member young => mem_enqueue (.inl member) young) _

theorem grows_gracefullClose (json : JsonCodec) (config : UConfig) (sid : SessionId) (reason : String)
    (store : Sessions) : (store.gracefullClose json config sid reason).All (Grows store) := by
  apply Outcome.all_map.mpr
  apply (Session.gracefullClose_keeps json config reason (store.session sid)).mono
  rintro ss ⟨msg1, stopped, queue⟩
  exact Grows.of_set store sid ss msg1 stopped (fun _ member _ => queue ▸ member) store.nextMsg

theorem grows_takeOverQueue (sid : SessionId) (oq : MsgQueue) (store : Sessions) :
    (store.takeOverQueue sid oq).All (Grows store) := by
  unfold takeOverQueue
  cases returned : (store.session sid).takeOverMessages store.now oq with
  | none => trivial
  | some ss =>
    have endpoint := Session.takeOverMessages_toEndpoint returned
    exact Grows.of_set store sid ss (congrArg Endpoint.msg1 endpoint) (congrArg Endpoint.stopped endpoint)
      (fun _ member young => mem_takeOverMessages returned (.inl member) young) store.nextMsg

theorem onWrite_eq {json : JsonCodec} {config : UConfig} {sid : SessionId} {i : Nat} {ok : Bool}
    {store : Sessions} {outcome : Outcome Sessions}
    (completed : store.onWrite json config sid i ok = some outcome) :
    ∃ call written, (store.session sid).onWrite json config store.now i ok = some call ∧
      outcome = call.map fun ss => { store.set sid ss with written } := by
  obtain ⟨call, called, rfl⟩ := Option.map_eq_some_iff.mp completed
  exact ⟨call, _, called, rfl⟩

/-- A completed write takes the front off the queue, or it stops the session. -/
theorem onWrite_cases {json : JsonCodec} {config : UConfig} {sid : SessionId} {i : Nat} {ok : Bool}
    {store : Sessions} {outcome : Outcome Sessions}
    (completed : store.onWrite json config sid i ok = some outcome) :
    (∃ msg, ok = true ∧ (store.session sid).writes[i]? = some (.message msg true) ∧
        outcome.All fun after => ∃ ss, ss.toEndpoint = (store.session sid).toEndpoint ∧
          ss.outQueue = (store.session sid).outQueue.tail.dropWhile (·.expired store.now) ∧
          after = { store.set sid ss with written := store.written ++ [msg] }) ∨
      ((∀ msg live, ok = true → (store.session sid).writes[i]? ≠ some (.message msg live)) ∧
        outcome = .done (store.set sid { store.session sid with
          writes := (store.session sid).writes.eraseIdx i }.stop)) := by
  obtain ⟨call, called, rfl⟩ := Option.map_eq_some_iff.mp completed
  rcases Session.onWrite_cases called with ⟨msg, rfl, found, rfl⟩ | ⟨other, _, rfl⟩
  · refine .inl ⟨msg, rfl, found, Outcome.all_map.mpr ?_⟩
    apply (Session.onWritten_keeps json config store.now _).mono
    intro ss ⟨endpoint, queue⟩
    exact ⟨ss, endpoint, queue, by simp [found]⟩
  · refine .inr ⟨other, ?_⟩
    -- nothing has been written, so the history stays as it is
    cases found : (store.session sid).writes[i]? with
    | none =>
      simp only [List.append_nil]
      rfl
    | some write =>
      cases write with
      | bye live =>
        simp only [List.append_nil]
        rfl
      | message msg live =>
        cases ok with
        | false =>
          simp only [List.append_nil]
          rfl
        | true => exact absurd found (other msg live rfl)

theorem takeOverQueue_final {sid : SessionId} {oq : MsgQueue} {store after : Sessions}
    (final : (store.takeOverQueue sid oq).final = some after) :
    ∃ ss, (store.session sid).takeOverMessages store.now oq = some ss ∧ after = store.set sid ss := by
  unfold takeOverQueue at final
  cases returned : (store.session sid).takeOverMessages store.now oq with
  | none => simp [returned] at final
  | some ss =>
    simp only [returned, Outcome.final_done, Option.some.injEq] at final
    exact ⟨ss, rfl, final.symm⟩

/-- A takeover moves messages and touches nothing else of the two sessions. -/
theorem takeOverSession_endpoint (sid os : SessionId) (store : Sessions) :
    (store.takeOverSession sid os).All fun after =>
      ∀ other, (after.session other).toEndpoint = (store.session other).toEndpoint := by
  unfold takeOverSession
  split
  · split
    · exact fun _ => rfl
    · trivial
  · apply Outcome.all_map.mpr
    apply Outcome.all_of_final
    intro after final other
    obtain ⟨ss, returned, rfl⟩ := takeOverQueue_final final
    have taken := Session.takeOverMessages_toEndpoint returned
    have same : ((store.set sid ss).session other).toEndpoint = (store.session other).toEndpoint :=
      set_congr Session.toEndpoint taken other
    by_cases emptied : other = os
    · subst emptied; simpa using same
    · simpa [emptied] using same

theorem putOutQueue_service {json : JsonCodec} (lawful : json.Lawful) (config : UConfig)
    (cname key value : String) (sid : SessionId) (store : Sessions) :
    ∃ queued, QueuedMsg.ofMsg json store.now store.nextMsg
        (.outgoing config .none cname (PTree.empty.add key value)) = some queued ∧
      store.putOutQueue json sid (.outgoing config .none cname (PTree.empty.add key value)) =
        .done { store.set sid ((store.session sid).enqueue store.now queued) with
          nextMsg := store.nextMsg + 1 } := by
  obtain ⟨queued, built, -⟩ := ofMsg_service config cname key value lawful store.now store.nextMsg
  refine ⟨queued, built, ?_⟩
  simp [putOutQueue, Session.putOutQueue, built]

theorem gracefullClose_done {json : JsonCodec} (config : UConfig) (lawful : json.Lawful)
    (sid : SessionId) (reason : String) (store : Sessions) :
    ∃ after, store.gracefullClose json config sid reason = .done after := by
  simp only [gracefullClose, Session.gracefullClose]
  split
  · exact ⟨_, rfl⟩
  · split
    · obtain ⟨text, bye⟩ := sendByeAndClose_eq config lawful
        { store.session sid with reason := reason, closeFlag := true }
      exact ⟨_, by rw [bye]; rfl⟩
    · exact ⟨_, rfl⟩

/-! ## Sessions on their own -/

/-- Queued messages that are in no queue of a session yet, with the identities from `id` on. -/
def number (id : Nat) : List (List Char × DestType × Nat) → MsgQueue
  | [] => []
  | (rawmsg, destType, enqueueTime) :: rest => ⟨rawmsg, destType, enqueueTime, id⟩ :: number (id + 1) rest

end Sessions

/-- The calls and completions of any set of sessions; `takeOverQueue` is `takeOverMessages` of a queue
that belongs to no session. -/
inductive SessionsEvent where
  | tick (elapsed : Nat)
  | start (sid : SessionId)
  | putOutQueue (sid : SessionId) (msg : Msg)
  | takeOverQueue (sid : SessionId) (msgs : List (List Char × DestType × Nat))
  | takeOverSession (sid os : SessionId)
  | written (sid : SessionId) (i : Nat) (ok : Bool)
  | gracefullClose (sid : SessionId) (reason : String)
  | stop (sid : SessionId)

namespace Sessions

def initial (direction : SessionId → Direction) (remoteIp : SessionId → String) : Sessions :=
  ⟨0, 0, fun sid => .new (direction sid) (remoteIp sid), []⟩

def step (json : JsonCodec) (config : UConfig) (pid : Nat) (store : Sessions) :
    SessionsEvent → Option Sessions
  | .tick elapsed => some { store with now := store.now + elapsed }
  | .start sid => (store.start json config pid sid).final
  | .putOutQueue sid msg => (store.putOutQueue json sid msg).final
  | .takeOverQueue sid msgs =>
    (store.takeOverQueue sid (number store.nextMsg msgs)).final.map fun after =>
      { after with nextMsg := store.nextMsg + msgs.length }
  | .takeOverSession sid os => (store.takeOverSession sid os).final
  | .written sid i ok => (store.onWrite json config sid i ok).bind Outcome.final
  | .gracefullClose sid reason => (store.gracefullClose json config sid reason).final
  | .stop sid => some (store.set sid (store.session sid).stop)

end Sessions

end Uzel
