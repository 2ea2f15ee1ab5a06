import Uzel.Foundation.Json
import Uzel.Foundation.Runs
import Uzel.Server
import Uzel.Verified.Framing

/-! # What input can do to the read path

The read handler should survive every input.  Two things in it are not guarded: the task of the
dispatcher reads the name of a message before it calls any handler, and a takeover of a queue does
not end when the queue holds a service message.  `read_returns_iff` says that there is no third: a
block of input is read to its end, without an exception in any task, exactly when every message that
reaches the dispatcher has a name and the takeover of an authentication in the block ends.
-/

namespace Uzel.Verified.ReadPath

open Foundation Framing

/-- The call returns true or false, and no task of the dispatcher that it has run has raised. -/
def ReadsSafely (json : JsonCodec) (config : UConfig) (s : Server) (sid : SessionId)
    (input : List Char) (processor : InputProcessor) : Prop :=
  ∃ t verdict, observed (processNewInput json.readJson (Server.dispatchMsg json config sid) input
    processor s) = some (t, verdict) ∧ t.failedTasks = s.failedTasks

/-- The messages that a block of input completes. -/
def messages (json : JsonCodec) (processor : InputProcessor) (input : List Char) :
    List (PTree × Body) :=
  (scan json.readJson processor.header (splitLines processor.acculine.cmd input).1).1

def Named (frame : PTree × Body) : Prop := frame.1.find "cname" ≠ none

/-- The frame passes the check of the first message. -/
def passes (config : UConfig) (sid : SessionId) (frame : PTree × Body) : Bool :=
  Session.authenticate config (.incoming config frame.1 frame.2 (some sid))

def NoService (queue : MsgQueue) : Prop := ∀ msg ∈ queue, msg.destType ≠ .service

/-- The takeover that the authentication by `msg` makes comes to an end: the queue of the session that
a local application had before, or what waits in the channel of a remote node. -/
def TakeoverEnds (config : UConfig) (s : Server) (sid : SessionId) (msg : Msg) : Prop :=
  if msg.fromLocal config then
    match s.locals.lookup msg.from.app with
    | none => True
    | some old =>
      if old = sid then (s.store.session sid).outQueue = []
      else NoService (s.store.session old).outQueue
  else
    let remote := (s.nodeToSession.lookup msg.from.node).getD (.new msg.from.node)
    config.nodeName < msg.from.node ∨
      match remote.sessionH, remote.sessionL with
      | none, _ => NoService remote.outHighQueue
      | some _, none => NoService remote.outLowQueue
      | some _, some _ => True

/-- What the messages of a block have to be: named, as soon as the session is authenticated, and the
one that authenticates it must not start an endless takeover. -/
def Harmless (config : UConfig) (s : Server) (sid : SessionId) (frames : List (PTree × Body)) : Prop :=
  if (s.store.session sid).authenticated then ∀ frame ∈ frames, Named frame
  else
    match frames.dropWhile fun frame => !passes config sid frame with
    | [] => True
    | first :: later =>
      TakeoverEnds config s sid (.incoming config first.1 first.2 (some sid)) ∧
        ∀ frame ∈ later, Named frame

section Handlers

variable {json : JsonCodec} {config : UConfig}

/-! ## The handlers come to an end -/

theorem ends_sessionPut (now id : Nat) (msg : Msg) (ss : Session) :
    (ss.putOutQueue json now id msg).Ends := by
  unfold Session.putOutQueue
  cases QueuedMsg.ofMsg json now id msg with
  | none => exact Outcome.ends_raised _
  | some queued => exact Outcome.ends_done _

theorem ends_storePut (sid : SessionId) (msg : Msg) (store : Sessions) :
    (store.putOutQueue json sid msg).Ends :=
  (ends_sessionPut _ _ msg _).map _

theorem ends_gracefullClose (sid : SessionId) (reason : String) (store : Sessions) :
    (store.gracefullClose json config sid reason).Ends := by
  apply Outcome.Ends.map
  simp only [Session.gracefullClose, Session.sendByeAndClose]
  split
  · exact Outcome.ends_done _
  · split
    · split
      · exact Outcome.ends_raised _
      · exact Outcome.ends_done _
    · exact Outcome.ends_done _

theorem ends_send (msg : Msg) (remote : Remote) (store : Sessions) :
    (remote.send json msg store).Ends := by
  unfold Remote.send
  cases QueuedMsg.ofMsg json store.now store.nextMsg msg with
  | none => exact Outcome.ends_raised _
  | some queued =>
    dsimp only
    split
    · exact (ends_storePut _ msg store).map _
    · exact Outcome.ends_done _

theorem ends_handleAny (msg : Msg) (s : Server) : (Server.handleAny json msg s).Ends := by
  have sends : ∀ node (s : Server), (s.sendTo json node msg).Ends := fun node s =>
    (ends_send msg _ s.store).map _
  have puts : ∀ sid (s : Server), (s.putOutQueue json sid msg).Ends := fun sid s =>
    (ends_storePut sid msg s.store).map _
  apply Outcome.Ends.map
  cases msg.destType with
  | service => exact Outcome.ends_done _
  | «local» =>
    simp only [Server.handleLocalMsg]
    cases s.locals.lookup msg.dest.app with
    | none => exact Outcome.ends_done _
    | some sid => exact puts sid s
  | remote => exact sends _ s
  | localbroadcast =>
    apply Outcome.Ends.forEach
    intro entry s
    exact puts entry.2 s
  | broadcast =>
    apply Outcome.Ends.forEach
    intro node s
    exact sends node s

theorem ends_handlePriorityMsg (msg : Msg) (s : Server) :
    (Server.handlePriorityMsg json config msg s).Ends := by
  simp only [Server.handlePriorityMsg]
  cases s.nodeToSession.lookup msg.from.node with
  | none => exact Outcome.ends_done _
  | some remote =>
    apply Outcome.Ends.map
    unfold Remote.handlePriorityMsg
    split
    · exact Outcome.ends_done _
    · dsimp only
      split
      · exact Outcome.ends_done _
      · split
        · exact Outcome.ends_raised _
        · split
          · exact (ends_gracefullClose _ _ s.store).map _
          · apply Outcome.Ends.map
            unfold Remote.closeOvertaken
            split
            · exact Outcome.ends_done _
            · exact ends_gracefullClose _ _ s.store

/-! ## What they keep -/

/-- No task fails, and no session is authenticated or forgotten. -/
structure Calm (s t : Server) : Prop where
  failedTasks : t.failedTasks = s.failedTasks
  msg1 : ∀ sid, (t.store.session sid).msg1 = (s.store.session sid).msg1

theorem Calm.trans {s t u : Server} (first : Calm s t) (second : Calm t u) : Calm s u :=
  ⟨second.failedTasks.trans first.failedTasks, fun sid => (second.msg1 sid).trans (first.msg1 sid)⟩

theorem calm_putOutQueue (sid : SessionId) (msg : Msg) (s : Server) :
    (s.putOutQueue json sid msg).All (Calm s) := by
  apply Outcome.all_map.mpr
  apply (Sessions.grows_putOutQueue json sid msg s.store).mono
  intro store grows
  exact ⟨rfl, grows.msg1⟩

theorem calm_sendTo (node : String) (msg : Msg) (s : Server) : (s.sendTo json node msg).All (Calm s) := by
  apply Outcome.all_map.mpr
  apply Outcome.all_of_final
  rintro ⟨changed, after⟩ final
  refine ⟨rfl, ?_⟩
  rcases Remote.send_cases final with ⟨_, _, rfl⟩ | ⟨queued, _, ⟨high, _, _, _, put⟩ | ⟨_, _, rfl⟩⟩
  · exact fun _ => rfl
  · exact ((Sessions.grows_putOutQueue json high msg s.store).of_final put).msg1
  · exact fun _ => rfl

theorem calm_handleAny (msg : Msg) (s : Server) :
    (Server.handleAny json msg s).All fun after => Calm s after.2 := by
  apply Server.all_handleAny ⟨rfl, fun _ => rfl⟩
  · intro _ sid t _ calm
    exact (calm_putOutQueue sid msg t).mono fun _ => calm.trans
  · intro node t _ calm
    exact (calm_sendTo node msg t).mono fun _ => calm.trans

theorem calm_handlePriorityMsg (msg : Msg) (s : Server) :
    (Server.handlePriorityMsg json config msg s).All fun after => Calm s after.2 := by
  simp only [Server.handlePriorityMsg]
  cases s.nodeToSession.lookup msg.from.node with
  | none => exact ⟨rfl, fun _ => rfl⟩
  | some remote =>
    apply Outcome.all_map.mpr
    apply Outcome.all_of_final
    rintro ⟨left, changed, after⟩ final
    exact ⟨rfl, (Remote.grows_handlePriorityMsg final).msg1⟩

/-- The task of a message with a name returns. -/
theorem dispatchTask_named {msg : Msg} {cname : String} (named : msg.cname = some cname) (s : Server) :
    ∃ t, s.dispatchTask json config msg = .done t ∧ Calm s t := by
  have calm := @Server.all_dispatchTask json config (fun after => Calm s after.2) msg s
    ⟨rfl, fun _ => rfl⟩ (by simp [named]) (fun _ _ => calm_handlePriorityMsg msg s)
    (fun msg t calm => (calm_handleAny msg t).mono fun _ => calm.trans)
  have returns : ∃ t, s.dispatchTask json config msg = .done t := by
    by_cases handled : msg.toMe = true ∧ cname = "priority"
    · obtain ⟨mine, rfl⟩ := handled
      obtain ⟨⟨left, t⟩, _, first⟩ := (@ends_handlePriorityMsg json config msg s).attempt
      obtain ⟨after, _, second⟩ := (@ends_handleAny json left t).attempt
      refine ⟨after.2, ?_⟩
      rw [Server.dispatchTask_of_priority named mine, first, Outcome.andThen_done]
      exact congrArg (Outcome.map Prod.snd) second
    · have other : msg.toMe = false ∨ cname ≠ "priority" := by
        by_cases mine : msg.toMe = true
        · exact .inr fun same => handled ⟨mine, same⟩
        · exact .inl (by simpa using mine)
      obtain ⟨after, _, returned⟩ := (@ends_handleAny json msg s).attempt
      refine ⟨after.2, ?_⟩
      rw [Server.dispatchTask_of_other named other, returned]
      rfl
  obtain ⟨t, returned⟩ := returns
  rw [returned] at calm
  obtain ⟨_, calm⟩ := calm
  exact ⟨t, returned, calm⟩

/-! ## Authentication -/

theorem takeOverQueue_cases (sid : SessionId) (oq : MsgQueue) (store : Sessions) :
    (NoService oq → ∃ after, store.takeOverQueue sid oq = .done after ∧ store.Grows after) ∧
      (¬ NoService oq → store.takeOverQueue sid oq = .hung) := by
  have grows := Sessions.grows_takeOverQueue sid oq store
  unfold Sessions.takeOverQueue at grows ⊢
  cases taken : (store.session sid).takeOverMessages store.now oq with
  | none =>
    refine ⟨fun ordinary => ?_, fun _ => rfl⟩
    have returned : (store.session sid).takeOverMessages store.now oq = some _ :=
      Session.takeOverMessages_eq_some.mpr ⟨ordinary, rfl⟩
    rw [returned] at taken
    cases taken
  | some ss =>
    rw [taken] at grows
    exact ⟨fun _ => ⟨_, rfl, grows⟩, fun service =>
      absurd (Session.takeOverMessages_eq_some.mp taken).1 service⟩

/-- A call that takes a queue over and returns with what it has made of the sessions ends like the
takeover. -/
theorem takeOverQueue_map_cases {α : Type*} (sid : SessionId) (oq : MsgQueue) (store : Sessions)
    (rebuild : Sessions → α) :
    (NoService oq → ∃ result, (store.takeOverQueue sid oq).map rebuild = .done result) ∧
      (¬ NoService oq → (store.takeOverQueue sid oq).map rebuild = .hung) := by
  obtain ⟨returns, hangs⟩ := takeOverQueue_cases sid oq store
  constructor
  · intro ordinary
    obtain ⟨after, taken, _⟩ := returns ordinary
    exact ⟨_, by rw [taken]; rfl⟩
  · intro service
    rw [hangs service]
    rfl

theorem takeOverSession_cases (sid old : SessionId) (store : Sessions) :
    ((if old = sid then (store.session sid).outQueue = [] else NoService (store.session old).outQueue) →
        ∃ after, store.takeOverSession sid old = .done after) ∧
      (¬ (if old = sid then (store.session sid).outQueue = []
          else NoService (store.session old).outQueue) →
        store.takeOverSession sid old = .hung) := by
  unfold Sessions.takeOverSession
  split
  · split
    next empty => exact ⟨fun _ => ⟨store, rfl⟩, fun waiting => absurd (List.isEmpty_iff.mp empty) waiting⟩
    next waiting =>
      exact ⟨fun empty => absurd (List.isEmpty_iff.mpr empty) waiting, fun _ => rfl⟩
  · exact takeOverQueue_map_cases sid (store.session old).outQueue store _

/-- A new session of a channel: the takeover is the only thing that may not end. -/
theorem addSession_returns (lawful : json.Lawful) {sid : SessionId} {remote : Remote} {store : Sessions}
    {peer : String} (known : (store.session sid).peerNode = some peer) :
    ((config.nodeName < peer ∨
        match remote.sessionH, remote.sessionL with
        | none, _ => NoService remote.outHighQueue
        | some _, none => NoService remote.outLowQueue
        | some _, some _ => True) →
      ∃ channel, remote.addSession json config sid store = .done channel) ∧
    (¬ (config.nodeName < peer ∨
        match remote.sessionH, remote.sessionL with
        | none, _ => NoService remote.outHighQueue
        | some _, none => NoService remote.outLowQueue
        | some _, some _ => True) →
      remote.addSession json config sid store = .hung) := by
  have adds := Remote.adds_addSession lawful config remote known
  generalize remote.addSession json config sid store = outcome at adds
  cases adds with
  | waits lower => exact ⟨fun _ => ⟨_, rfl⟩, fun endless => absurd (.inl lower) endless⟩
  | high boss free built =>
    simp only [boss, free, false_or]
    exact takeOverQueue_map_cases sid remote.outHighQueue _ _
  | low boss taken free built =>
    obtain ⟨high, taken⟩ := Option.ne_none_iff_exists'.mp taken
    simp only [boss, taken, free, false_or]
    exact takeOverQueue_map_cases sid remote.outLowQueue _ _
  | control boss taken free built =>
    obtain ⟨high, takenH⟩ := Option.ne_none_iff_exists'.mp taken.1
    obtain ⟨low, takenL⟩ := Option.ne_none_iff_exists'.mp taken.2
    exact ⟨fun _ => ⟨_, rfl⟩, by simp [takenH, takenL]⟩
  | duplicate boss taken closed =>
    obtain ⟨high, takenH⟩ := Option.ne_none_iff_exists'.mp taken.1
    obtain ⟨low, takenL⟩ := Option.ne_none_iff_exists'.mp taken.2
    exact ⟨fun _ => ⟨_, rfl⟩, by simp [takenH, takenL]⟩

theorem auth_cases (lawful : json.Lawful) {s : Server} {sid : SessionId} {msg : Msg}
    (known : (s.store.session sid).msg1 = some msg) :
    (TakeoverEnds config s sid msg → ∃ t, s.auth json config sid = .done t ∧ Calm s t) ∧
      (¬ TakeoverEnds config s sid msg → s.auth json config sid = .hung) := by
  simp only [Server.auth, known, TakeoverEnds]
  by_cases isLocal : msg.fromLocal config = true
  · simp only [isLocal, if_true]
    cases s.locals.lookup msg.from.app with
    | none => exact ⟨fun _ => ⟨_, rfl, rfl, fun _ => rfl⟩, fun impossible => absurd trivial impossible⟩
    | some old =>
      obtain ⟨returns, hangs⟩ := takeOverSession_cases sid old s.store
      dsimp only
      constructor
      · intro ends
        obtain ⟨after, taken⟩ := returns ends
        have same := Sessions.takeOverSession_endpoint sid old s.store
        rw [taken] at same
        rw [taken]
        exact ⟨{ s.withStore after with locals := s.locals.insert msg.from.app sid }, rfl, rfl,
          fun other => congrArg Endpoint.msg1 (same other)⟩
      · intro endless
        rw [hangs endless]
        rfl
  · simp only [isLocal, Bool.false_eq_true, if_false]
    have peer : (s.store.session sid).peerNode = some msg.from.node := by
      simp [Session.peerNode, known]
    have grows := Remote.grows_addSession json config sid
      ((s.nodeToSession.lookup msg.from.node).getD (.new msg.from.node)) s.store
    obtain ⟨returns, hangs⟩ := @addSession_returns json config lawful sid
      ((s.nodeToSession.lookup msg.from.node).getD (.new msg.from.node)) s.store _ peer
    constructor
    · intro ends
      obtain ⟨channel, added⟩ := returns ends
      rw [added] at grows
      refine ⟨s.setRemote msg.from.node channel, ?_, rfl, grows.msg1⟩
      rw [Server.addAuthSessionToRemote, Server.onRemote, added]
      rfl
    · intro endless
      rw [Server.addAuthSessionToRemote, Server.onRemote, hangs endless]
      rfl

/-- Whether the takeover ends is a matter of the maps of the server and of its queues. -/
theorem takeoverEnds_congr {s t : Server} (locals : t.locals = s.locals)
    (nodeToSession : t.nodeToSession = s.nodeToSession)
    (queues : ∀ sid, (t.store.session sid).outQueue = (s.store.session sid).outQueue)
    (sid : SessionId) (msg : Msg) : TakeoverEnds config t sid msg ↔ TakeoverEnds config s sid msg := by
  simp only [TakeoverEnds, locals, nodeToSession, queues]

/-- A message that does not pass the check changes nothing that the next one depends on. -/
theorem dispatchMsg_refused (lawful : json.Lawful) {s : Server} {sid : SessionId} {frame : PTree × Body}
    (unknown : (s.store.session sid).authenticated = false) (refused : passes config sid frame = false) :
    ∃ t, s.dispatchMsg json config sid frame.1 frame.2 = .done t ∧ Calm s t ∧
      ∀ msg, TakeoverEnds config t sid msg ↔ TakeoverEnds config s sid msg := by
  have kept := Session.gracefullClose_keeps json config "authentication failed" (s.store.session sid)
  obtain ⟨after, closed⟩ :=
    Sessions.gracefullClose_done config lawful sid "authentication failed" s.store
  have grows := Sessions.grows_gracefullClose json config sid "authentication failed" s.store
  rw [closed] at grows
  have queues : ∀ other, (after.session other).outQueue = (s.store.session other).outQueue := by
    cases called : (s.store.session sid).gracefullClose json config "authentication failed" with
    | hung => simp [Sessions.gracefullClose, called] at closed
    | raised ss => simp [Sessions.gracefullClose, called] at closed
    | done ss =>
      rw [called] at kept
      simp only [Sessions.gracefullClose, called, Outcome.map_done, Outcome.done.injEq] at closed
      subst closed
      exact Sessions.set_congr (·.outQueue) kept.2.2
  refine ⟨s.withStore after, ?_, ⟨rfl, grows.msg1⟩,
    @takeoverEnds_congr config s (s.withStore after) rfl rfl queues sid⟩
  have refused : Session.authenticate config (.incoming config frame.1 frame.2 (some sid)) = false := refused
  simp only [Server.dispatchMsg, unknown, refused, Bool.false_eq_true, if_false, closed]
  rfl

/-- The message that authenticates the session. -/
theorem dispatchMsg_passed (lawful : json.Lawful) {s : Server} {sid : SessionId} {frame : PTree × Body}
    (unknown : (s.store.session sid).authenticated = false) (passed : passes config sid frame = true) :
    (TakeoverEnds config s sid (.incoming config frame.1 frame.2 (some sid)) →
        ∃ t, s.dispatchMsg json config sid frame.1 frame.2 = .done t ∧
          t.failedTasks = s.failedTasks ∧ (t.store.session sid).authenticated = true) ∧
      (¬ TakeoverEnds config s sid (.incoming config frame.1 frame.2 (some sid)) →
        s.dispatchMsg json config sid frame.1 frame.2 = .hung) := by
  have passed : Session.authenticate config (.incoming config frame.1 frame.2 (some sid)) = true := passed
  simp only [Server.dispatchMsg, unknown, passed, Bool.false_eq_true, if_false, if_true]
  generalize first : Msg.incoming config frame.1 frame.2 (some sid) = msg
  generalize known : s.withStore (s.store.set sid { s.store.session sid with msg1 := some msg }) = u
  have set : (u.store.session sid).msg1 = some msg := by
    simp [← known, Server.withStore]
  have same : TakeoverEnds config u sid msg ↔ TakeoverEnds config s sid msg := by
    rw [← known]
    exact takeoverEnds_congr (by rfl) (by rfl) (Sessions.set_congr (·.outQueue) (by rfl)) sid msg
  obtain ⟨returns, hangs⟩ := @auth_cases json config lawful u sid msg set
  constructor
  · intro ends
    obtain ⟨t, done, calm⟩ := returns (same.mpr ends)
    refine ⟨t, done, calm.failedTasks.trans (by rw [← known]; rfl), ?_⟩
    simp [Session.authenticated, calm.msg1, set]
  · intro endless
    exact hangs (mt same.mp endless)

/-- An exception that leaves the handler of a message comes from a message without a name. -/
theorem dispatchMsg_raised (lawful : json.Lawful) {s t : Server} {sid : SessionId} {header : PTree} {body : Body}
    (raised : s.dispatchMsg json config sid header body = .raised t) :
    (s.store.session sid).authenticated = true ∧
      (Msg.incoming config header body (some sid)).cname = none ∧
      t = { s with failedTasks := s.failedTasks + 1 } := by
  cases known : (s.store.session sid).authenticated with
  | true =>
    simp only [Server.dispatchMsg, known, if_true] at raised
    cases named : (Msg.incoming config header body (some sid)).cname with
    | none =>
      rw [Server.dispatchTask_of_unnamed named] at raised
      cases raised
      exact ⟨rfl, rfl, rfl⟩
    | some cname =>
      obtain ⟨after, returned, _⟩ := @dispatchTask_named json config _ cname named s
      rw [returned] at raised
      cases raised
  | false =>
    cases passed : passes config sid (header, body) with
    | false =>
      obtain ⟨after, returned, _⟩ := dispatchMsg_refused lawful known passed
      rw [returned] at raised
      cases raised
    | true =>
      obtain ⟨returns, hangs⟩ := dispatchMsg_passed lawful known passed
      by_cases ends : TakeoverEnds config s sid (.incoming config header body (some sid))
      · obtain ⟨after, returned, _⟩ := returns ends
        rw [returned] at raised
        cases raised
      · rw [hangs ends] at raised
        cases raised

/-! ## Blocks of input -/

/-- A read call that returns, without a failed task since there were `tasks` of them. -/
def Safe (tasks : Nat) (result : ReadResult Server) : Prop :=
  ∃ t verdict, observed result = some (t, verdict) ∧ t.failedTasks = tasks

theorem safe_finishScan {tasks : Nat} {s : Server} (same : s.failedTasks = tasks) (cmd : List Char)
    (waiting : Option (Option PTree)) : Safe tasks (finishScan cmd waiting s) :=
  ⟨s, waiting.isSome, observed_finishScan cmd waiting s, same⟩

/-- After the authentication every message has to have a name.  The frames are delivered in order, so
the induction goes along them with the number of failed tasks as the invariant. -/
theorem deliver_authenticated_iff {sid : SessionId} (frames : List (PTree × Body)) {s : Server}
    {tasks : Nat} (known : (s.store.session sid).authenticated = true) (same : s.failedTasks = tasks)
    (cmd : List Char) (waiting : Option (Option PTree)) :
    Safe tasks (deliver (Server.dispatchMsg json config sid) frames s (finishScan cmd waiting)) ↔
      ∀ frame ∈ frames, Named frame := by
  induction frames generalizing s with
  | nil =>
    constructor
    · intro _ frame member
      cases member
    · intro _
      exact safe_finishScan same cmd waiting
  | cons frame frames inductionHypothesis =>
    obtain ⟨header, body⟩ := frame
    have dispatched : s.dispatchMsg json config sid header body =
        s.dispatchTask json config (.incoming config header body (some sid)) := by
      simp [Server.dispatchMsg, known]
    cases named : (Msg.incoming config header body (some sid)).cname with
    | none =>
      have absent : header.find "cname" = none := by simpa [Msg.cname] using named
      refine iff_of_false ?_ fun all => all _ List.mem_cons_self absent
      rintro ⟨t, verdict, returned, tasks'⟩
      rw [Server.dispatchTask_of_unnamed named] at dispatched
      cases body with
      | raw bytes => simp [deliver, dispatched, observed] at returned
      | tree tree =>
        simp only [deliver, dispatched, observed, Option.some.injEq, Prod.mk.injEq] at returned
        obtain ⟨rfl, -⟩ := returned
        simp only at tasks'
        omega
    | some cname =>
      obtain ⟨t, returned, calm⟩ := @dispatchTask_named json config _ cname named s
      have hasName : Named (header, body) := by
        intro absent
        simp [Msg.cname, (absent : header.find "cname" = none)] at named
      have later := @inductionHypothesis t (by simpa [Session.authenticated, calm.msg1] using known)
        (calm.failedTasks.trans same)
      simp only [deliver, dispatched, returned, List.forall_mem_cons, hasName, true_and]
      exact later

theorem deliver_unauthenticated_iff (lawful : json.Lawful) {sid : SessionId}
    (frames : List (PTree × Body)) {s : Server} {tasks : Nat}
    (unknown : (s.store.session sid).authenticated = false) (same : s.failedTasks = tasks)
    (cmd : List Char) (waiting : Option (Option PTree)) :
    Safe tasks (deliver (Server.dispatchMsg json config sid) frames s (finishScan cmd waiting)) ↔
      match frames.dropWhile fun frame => !passes config sid frame with
      | [] => True
      | first :: later =>
        TakeoverEnds config s sid (.incoming config first.1 first.2 (some sid)) ∧
          ∀ frame ∈ later, Named frame := by
  induction frames generalizing s with
  | nil => exact iff_of_true (safe_finishScan same cmd waiting) trivial
  | cons frame frames inductionHypothesis =>
    cases checked : passes config sid frame with
    | false =>
      obtain ⟨t, returned, calm, takeover⟩ := dispatchMsg_refused lawful unknown checked
      have later := @inductionHypothesis t (by simpa [Session.authenticated, calm.msg1] using unknown)
        (calm.failedTasks.trans same)
      simp only [deliver, returned, List.dropWhile_cons, checked, Bool.not_false, if_true]
      simpa only [takeover] using later
    | true =>
      obtain ⟨returns, hangs⟩ := @dispatchMsg_passed json config lawful s sid frame unknown checked
      simp only [deliver, List.dropWhile_cons, checked, Bool.not_true, Bool.false_eq_true, if_false]
      by_cases ends : TakeoverEnds config s sid (.incoming config frame.1 frame.2 (some sid))
      · obtain ⟨t, returned, tasks', known⟩ := returns ends
        simp only [returned, ends, true_and]
        exact deliver_authenticated_iff frames known (tasks'.trans same) cmd waiting
      · simp only [hangs ends, ends, false_and, iff_false]
        rintro ⟨t, verdict, returned, -⟩
        cases returned

/-- In every state of the server and of the processor, a block of input is read to its end without an
exception exactly when its messages are harmless. -/
theorem read_returns_iff (lawful : json.Lawful) (s : Server) (sid : SessionId) (input : List Char)
    (processor : InputProcessor) :
    ReadsSafely json config s sid input processor ↔
      Harmless config s sid (messages json processor input) := by
  unfold ReadsSafely Harmless
  rw [processNewInput_eq_deliver]
  cases known : (s.store.session sid).authenticated with
  | true =>
    simp only [if_true]
    exact deliver_authenticated_iff _ known rfl _ _
  | false =>
    simp only [Bool.false_eq_true, if_false]
    exact deliver_unauthenticated_iff lawful _ known rfl _ _

end Handlers

/-- The beginning of a line completes no message. -/
theorem read_returns_partial_line :
    ReadsSafely Json.compactJson ⟨"beta", "userver"⟩ (.initial ⟨"beta", "userver"⟩ 0 []) 0
      "\x7b\"from\":".toList .fresh :=
  (read_returns_iff Json.compactJson_lawful _ 0 _ .fresh).mpr trivial

/-- A header without a name. -/
def namelessHeader : PTree :=
  .node "" [("from", .node "" [("n", .leaf "alpha"), ("a", .leaf "userver")])]

theorem readJson_namelessHeader :
    Json.compactJson.readJson
      "\x7b\"from\":\x7b\"n\":\"alpha\",\"a\":\"userver\"\x7d\x7d".toList = some namelessHeader := by
  obtain ⟨line, written, -, read⟩ := Json.compactJson_lawful.inverts namelessHeader (by decide)
  have text : Json.compactJson.writeJson namelessHeader =
      some ("\x7b\"from\":\x7b\"n\":\"alpha\",\"a\":\"userver\"\x7d\x7d".toList ++ ['\n']) := rfl
  rw [text, Option.some.injEq, List.append_left_inj] at written
  rw [written]
  exact read

/-- The authenticated userver of `alpha` sends a message of two lines whose header has no name: the
exception leaves the read handler of `beta`. -/
theorem nameless_message_raises :
    ∃ s, Foundation.exec (Server.step Json.compactJson ⟨"beta", "userver"⟩ 1)
        (.initial ⟨"beta", "userver"⟩ 0 [])
        [.accept "10.0.0.7",
          .received 0 (serviceHeader ⟨"alpha", "userver"⟩ "auth") (.tree .empty)] = some s ∧
      ¬ ReadsSafely Json.compactJson ⟨"beta", "userver"⟩ s 0
        "\x7b\"from\":\x7b\"n\":\"alpha\",\"a\":\"userver\"\x7d\x7d\n\x7b\x7d\n".toList .fresh := by
  refine ⟨_, rfl, ?_⟩
  unfold ReadsSafely
  rw [processNewInput_eq_deliver]
  have lines : splitLines [] "\x7b\"from\":\x7b\"n\":\"alpha\",\"a\":\"userver\"\x7d\x7d\n\x7b\x7d\n".toList =
      (["\x7b\"from\":\x7b\"n\":\"alpha\",\"a\":\"userver\"\x7d\x7d".toList, "\x7b\x7d".toList], []) := rfl
  have embedded : namelessHeader.find "body" = none := rfl
  intro safe
  have named := (deliver_authenticated_iff _ rfl rfl _ _).mp safe
  simp only [InputProcessor.fresh, lines, scan, readJson_namelessHeader, embedded, List.forall_mem_cons] at named
  exact named.1 rfl

end Uzel.Verified.ReadPath
