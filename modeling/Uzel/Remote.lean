import Mathlib.Data.Finset.Insert
import Mathlib.Data.Finset.Erase
import Uzel.Priority
import Uzel.Sessions

/-! # The channel to one remote node (`remote.h`, `remote.cpp`)

A channel uses up to three authenticated sessions of its node.  The node with the greater name, the
boss, gives every new session its role and tells the other side by a priority message; the other
side keeps a session in `sessionWaitForRemote` until that message comes.  Messages that are sent
before the channel is connected wait in `outHighQueue`.

`accepted` and `handed` are history: the messages taken by `send`, and those of them that have been
passed to a high priority session.
-/

namespace Uzel

open Foundation

structure Remote where
  node : String
  sessionWaitForRemote : Finset SessionId
  sessionH : Option SessionId
  sessionL : Option SessionId
  sessionC : Option SessionId
  outHighQueue : MsgQueue
  outLowQueue : MsgQueue
  accepted : List QueuedMsg
  handed : List QueuedMsg

namespace Remote

def new (node : String) : Remote := ⟨node, ∅, none, none, none, [], [], [], []⟩

/-- The session that has the given role. -/
def slot (remote : Remote) : Priority → Option SessionId
  | .high => remote.sessionH
  | .low => remote.sessionL
  | .control => remote.sessionC
  | .undefined => none

def setSlot (priority : Priority) (sid : SessionId) (remote : Remote) : Remote :=
  match priority with
  | .high => { remote with sessionH := some sid }
  | .low => { remote with sessionL := some sid }
  | .control => { remote with sessionC := some sid }
  | .undefined => remote

def connected (remote : Remote) : Bool := remote.sessionH.isSome && remote.sessionL.isSome

def priorityMsg (config : UConfig) (priority : Priority) : Msg :=
  .outgoing config .none "priority" priority.toBody

/-- `ss->takeOverMessages(m_outHighQueue)` -/
def flushHigh (sid : SessionId) (remote : Remote) (store : Sessions) : Outcome (Remote × Sessions) :=
  (store.takeOverQueue sid remote.outHighQueue).map fun store =>
    ({ remote with outHighQueue := [], handed := remote.handed ++ remote.outHighQueue }, store)

/-- `ss->takeOverMessages(m_outLowQueue)` -/
def flushLow (sid : SessionId) (remote : Remote) (store : Sessions) : Outcome (Remote × Sessions) :=
  (store.takeOverQueue sid remote.outLowQueue).map fun store =>
    ({ remote with outLowQueue := [] }, store)

def addSession (json : JsonCodec) (config : UConfig) (sid : SessionId) (remote : Remote)
    (store : Sessions) : Outcome (Remote × Sessions) :=
  let store := store.connectClosed sid (.remote remote.node)
  match (store.session sid).peerNode with
  | none => .raised (remote, store)
  | some peer =>
    if config.nodeName < peer then
      -- he is the boss
      .done ({ remote with sessionWaitForRemote := insert sid remote.sessionWaitForRemote }, store)
    else
      match remote.sessionH, remote.sessionL with
      | none, _ =>
        let remote := { remote with sessionH := some sid }
        ((store.putOutQueue json sid (priorityMsg config .high)).map (remote, ·)).andThen
          fun (remote, store) => remote.flushHigh sid store
      | some _, none =>
        let remote := { remote with sessionL := some sid }
        ((store.putOutQueue json sid (priorityMsg config .low)).map (remote, ·)).andThen
          fun (remote, store) => remote.flushLow sid store
      | some high, some low =>
        if remote.sessionC = none ∧ (store.session high).direction = .incoming ∧
            (store.session low).direction = .incoming ∧ (store.session sid).direction = .outgoing then
          let remote := { remote with sessionC := some sid }
          (store.putOutQueue json sid (priorityMsg config .control)).map (remote, ·)
        else
          (store.gracefullClose json config sid "duplicated connection").map (remote, ·)

def closeOvertaken (json : JsonCodec) (config : UConfig) (sessionToClose : Option SessionId)
    (store : Sessions) : Outcome Sessions :=
  match sessionToClose with
  | none => .done store
  | some old => store.gracefullClose json config old "overtaken by new connection"

/-- `m_sessionWaitForRemote.erase(ss)` -/
def forget (sid : SessionId) (remote : Remote) : Remote :=
  { remote with sessionWaitForRemote := remote.sessionWaitForRemote.erase sid }

/-- The handler reads the body with `pbody`, which changes the message. -/
def handlePriorityMsg (json : JsonCodec) (config : UConfig) (msg : Msg) (remote : Remote)
    (store : Sessions) : Outcome (Msg × Remote × Sessions) :=
  match msg.origin with
  | none => .done (msg, remote, store)
  | some sid =>
    let remote := remote.forget sid
    -- `m_sessionC` is not compared
    if remote.sessionH = some sid ∨ remote.sessionL = some sid then .done (msg, remote, store)
    else
      match msg.pbody json with
      | (none, msg) => .raised (msg, remote, store)
      | (some body, msg) =>
        match Priority.ofBody body with
        | .undefined =>
          (store.gracefullClose json config sid "got undefined priority from remote").map
            (msg, remote, ·)
        | priority =>
          -- the cases low, high and control differ in the slot only
          (closeOvertaken json config (remote.slot priority) store).map
            (msg, remote.setSlot priority sid, ·)

def onSessionClosed (sid : SessionId) (remote : Remote) : Remote :=
  { remote.forget sid with
    sessionH := if remote.sessionH = some sid then none else remote.sessionH
    sessionL := if remote.sessionL = some sid then none else remote.sessionL
    sessionC := if remote.sessionC = some sid then none else remote.sessionC }

/-- Both branches begin with the construction of the queued message. -/
def send (json : JsonCodec) (msg : Msg) (remote : Remote) (store : Sessions) :
    Outcome (Remote × Sessions) :=
  match QueuedMsg.ofMsg json store.now store.nextMsg msg with
  | none => .raised (remote, store)
  | some queued =>
    let remote := { remote with accepted := remote.accepted ++ [queued] }
    match remote.sessionH, remote.sessionL with
    | some high, some _ =>
      (store.putOutQueue json high msg).map ({ remote with handed := remote.handed ++ [queued] }, ·)
    -- without both sessions everything waits in the high priority queue
    | _, _ =>
      .done ({ remote with outHighQueue := remote.outHighQueue ++ [queued] },
        { store with nextMsg := store.nextMsg + 1 })

/-! ## What the calls do to the channel -/

/-- The session has a role in the channel or waits for one. -/
def Holds (remote : Remote) (sid : SessionId) : Prop :=
  sid ∈ remote.sessionWaitForRemote ∨ ∃ role, remote.slot role = some sid

theorem not_holds_new (node : String) (sid : SessionId) : ¬ (Remote.new node).Holds sid := by
  rintro (waiting | ⟨role, taken⟩)
  · simp [Remote.new] at waiting
  · cases role <;> cases taken

theorem slot_setSlot {priority : Priority} (assigned : priority ≠ .undefined) (sid : SessionId)
    (remote : Remote) (role : Priority) :
    (remote.setSlot priority sid).slot role = if role = priority then some sid else remote.slot role := by
  cases priority <;> cases role <;> first | rfl | exact absurd rfl assigned

theorem slot_onSessionClosed (sid : SessionId) (remote : Remote) (role : Priority) :
    (remote.onSessionClosed sid).slot role =
      if remote.slot role = some sid then none else remote.slot role := by
  cases role <;> rfl

@[simp] theorem slot_forget (sid : SessionId) (remote : Remote) (role : Priority) :
    (remote.forget sid).slot role = remote.slot role := by
  cases role <;> rfl

/-- Every way in which `handlePriorityMsg` ends. -/
theorem handlePriorityMsg_cases {json : JsonCodec} {config : UConfig} {msg left : Msg}
    {remote changed : Remote} {store after : Sessions}
    (final : (remote.handlePriorityMsg json config msg store).final = some (left, changed, after)) :
    (msg.origin = none ∧ changed = remote ∧ after = store) ∨
      ∃ sid, msg.origin = some sid ∧
        (((remote.sessionH = some sid ∨ remote.sessionL = some sid ∨ msg.body.parsed json = none) ∧
            changed = remote.forget sid ∧ after = store) ∨
          (remote.sessionH ≠ some sid ∧ remote.sessionL ≠ some sid ∧
            ∃ body, msg.body.parsed json = some body ∧
              ((Priority.ofBody body = .undefined ∧ changed = remote.forget sid ∧
                  (store.gracefullClose json config sid
                    "got undefined priority from remote").final = some after) ∨
                (Priority.ofBody body ≠ .undefined ∧
                  changed = (remote.forget sid).setSlot (Priority.ofBody body) sid ∧
                  (closeOvertaken json config (remote.slot (Priority.ofBody body)) store).final =
                    some after)))) := by
  unfold handlePriorityMsg at final
  cases origin : msg.origin with
  | none =>
    simp only [origin, Outcome.final_done, Option.some.injEq, Prod.mk.injEq] at final
    exact .inl ⟨rfl, final.2.1.symm, final.2.2.symm⟩
  | some sid =>
    right
    refine ⟨sid, rfl, ?_⟩
    simp only [origin] at final
    split at final
    next taken =>
      simp only [Outcome.final_done, Option.some.injEq, Prod.mk.injEq] at final
      left
      exact ⟨taken.elim .inl (.inr ∘ .inl), final.2.1.symm, final.2.2.symm⟩
    next free =>
      have parsed := msg.pbody_fst json
      -- the body is parsed at most once, and the message keeps the result
      rcases read : msg.pbody json with ⟨answer, kept⟩
      rw [read] at final parsed
      cases answer with
      | none =>
        simp only [Outcome.final_raised, Option.some.injEq, Prod.mk.injEq] at final
        left
        exact ⟨.inr (.inr parsed.symm), final.2.1.symm, final.2.2.symm⟩
      | some body =>
        right
        rw [not_or] at free
        refine ⟨free.1, free.2, body, parsed.symm, ?_⟩
        cases role : Priority.ofBody body with
        | undefined =>
          left
          simp only [role, Outcome.final_map, Option.map_eq_some_iff, Prod.mk.injEq] at final
          obtain ⟨closed, closes, -, rfl, rfl⟩ := final
          exact ⟨rfl, rfl, closes⟩
        | low | high | control =>
          right
          simp only [role, slot_forget, Outcome.final_map, Option.map_eq_some_iff, Prod.mk.injEq] at final
          obtain ⟨closed, closes, -, rfl, rfl⟩ := final
          exact ⟨by decide, rfl, closes⟩

theorem handlePriorityMsg_msg (json : JsonCodec) (config : UConfig) (msg : Msg) (remote : Remote)
    (store : Sessions) : (remote.handlePriorityMsg json config msg store).All fun result =>
      ∃ body, result.1 = { msg with body } := by
  have kept : ∃ body, msg = { msg with body } := ⟨msg.body, rfl⟩
  have parsed := msg.pbody_snd json
  unfold handlePriorityMsg
  split
  · exact kept
  · dsimp only
    split
    · exact kept
    · split
      next msg' read =>
        rw [read] at parsed
        exact parsed
      next body msg' read =>
        rw [read] at parsed
        split
        · exact Outcome.all_map.mpr (Outcome.all_of_final fun _ _ => parsed)
        · exact Outcome.all_map.mpr (Outcome.all_of_final fun _ _ => parsed)

theorem grows_closeOvertaken (json : JsonCodec) (config : UConfig) (sessionToClose : Option SessionId)
    (store : Sessions) : (closeOvertaken json config sessionToClose store).All store.Grows := by
  cases sessionToClose with
  | none => exact .refl store
  | some old => exact Sessions.grows_gracefullClose json config old _ store

theorem grows_handlePriorityMsg {json : JsonCodec} {config : UConfig} {msg left : Msg}
    {remote changed : Remote} {store after : Sessions}
    (final : (remote.handlePriorityMsg json config msg store).final = some (left, changed, after)) :
    store.Grows after := by
  rcases handlePriorityMsg_cases final with ⟨_, _, rfl⟩ | ⟨sid, _, ⟨_, _, rfl⟩ | assigned⟩
  · exact .refl after
  · exact .refl after
  · obtain ⟨_, _, body, _, ⟨_, _, closes⟩ | ⟨_, _, closes⟩⟩ := assigned
    · exact (Sessions.grows_gracefullClose json config sid _ store).of_final closes
    · exact (grows_closeOvertaken json config _ store).of_final closes

theorem grows_flush (sid : SessionId) (oq : MsgQueue) (rebuild : Sessions → Remote × Sessions)
    (same : ∀ store, (rebuild store).2 = store) (store : Sessions) :
    ((store.takeOverQueue sid oq).map rebuild).All fun channel => store.Grows channel.2 := by
  apply Outcome.all_map.mpr
  apply (Sessions.grows_takeOverQueue sid oq store).mono
  intro after grows
  rw [same]
  exact grows

theorem grows_addSession (json : JsonCodec) (config : UConfig) (sid : SessionId) (remote : Remote) (store : Sessions) :
    (remote.addSession json config sid store).All fun channel => store.Grows channel.2 := by
  have connected := Sessions.grows_connectClosed sid (.remote remote.node) store
  have put : ∀ priority (remote : Remote),
      (((store.connectClosed sid (.remote remote.node)).putOutQueue json sid
        (priorityMsg config priority)).map (remote, ·)).All fun channel =>
          store.Grows channel.2 := by
    intro priority remote
    apply Outcome.all_map.mpr
    apply (Sessions.grows_putOutQueue json sid _ _).mono
    intro after grows
    exact (Sessions.grows_connectClosed sid (.remote remote.node) store).trans grows
  unfold addSession
  dsimp only
  split
  next => exact connected
  next =>
    split
    next => exact connected
    next =>
      split
      next =>
        apply (put .high { remote with sessionH := some sid }).andThen
        rintro ⟨remote, after⟩ grows
        exact (grows_flush sid remote.outHighQueue _ (fun _ => rfl) after).mono fun _ => grows.trans
      next =>
        apply (put .low { remote with sessionL := some sid }).andThen
        rintro ⟨remote, after⟩ grows
        exact (grows_flush sid remote.outLowQueue _ (fun _ => rfl) after).mono fun _ => grows.trans
      next =>
        split
        next => exact put .control { remote with sessionC := some sid }
        next =>
          apply Outcome.all_map.mpr
          exact (Sessions.grows_gracefullClose json config sid _ _).mono fun _ => connected.trans

/-- The store after a new session has put the announcement of its role into its queue. -/
def announced (sid : SessionId) (queued : QueuedMsg) (remote : Remote) (store : Sessions) : Sessions :=
  let store := store.connectClosed sid (.remote remote.node)
  { store.set sid ((store.session sid).enqueue store.now queued) with nextMsg := store.nextMsg + 1 }

theorem announced_self (sid : SessionId) (queued : QueuedMsg) (remote : Remote) (store : Sessions) :
    (remote.announced sid queued store).session sid = Session.enqueue store.now queued
      { store.session sid with
        closedSlots := (store.session sid).closedSlots ++ [.remote remote.node] } := by
  simp [announced, Sessions.connectClosed]

theorem announced_other {sid other : SessionId} (different : other ≠ sid) (queued : QueuedMsg)
    (remote : Remote) (store : Sessions) :
    (remote.announced sid queued store).session other = store.session other := by
  simp [announced, Sessions.connectClosed, different]

/-- Every way in which `addSession` of a session of the node `peer` goes. -/
inductive Adds (json : JsonCodec) (config : UConfig) (sid : SessionId) (remote : Remote) (store : Sessions)
    (peer : String) : Outcome (Remote × Sessions) → Prop
  | waits (lower : config.nodeName < peer) : Adds json config sid remote store peer
      (.done ({ remote with sessionWaitForRemote := insert sid remote.sessionWaitForRemote },
        store.connectClosed sid (.remote remote.node)))
  | high (boss : ¬ config.nodeName < peer) (free : remote.sessionH = none) {queued : QueuedMsg}
      (built : QueuedMsg.ofMsg json store.now store.nextMsg (priorityMsg config .high) = some queued) :
      Adds json config sid remote store peer
        (({ remote with sessionH := some sid }).flushHigh sid (remote.announced sid queued store))
  | low (boss : ¬ config.nodeName < peer) (taken : remote.sessionH ≠ none) (free : remote.sessionL = none)
      {queued : QueuedMsg}
      (built : QueuedMsg.ofMsg json store.now store.nextMsg (priorityMsg config .low) = some queued) :
      Adds json config sid remote store peer
        (({ remote with sessionL := some sid }).flushLow sid (remote.announced sid queued store))
  | control (boss : ¬ config.nodeName < peer) (taken : remote.sessionH ≠ none ∧ remote.sessionL ≠ none)
      (free : remote.sessionC = none) {queued : QueuedMsg}
      (built : QueuedMsg.ofMsg json store.now store.nextMsg (priorityMsg config .control) = some queued) :
      Adds json config sid remote store peer
        (.done ({ remote with sessionC := some sid }, remote.announced sid queued store))
  | duplicate (boss : ¬ config.nodeName < peer) (taken : remote.sessionH ≠ none ∧ remote.sessionL ≠ none)
      {after : Sessions} (closed : (store.connectClosed sid (.remote remote.node)).gracefullClose json config
        sid "duplicated connection" = .done after) :
      Adds json config sid remote store peer (.done (remote, after))

theorem adds_addSession {json : JsonCodec} (lawful : json.Lawful) (config : UConfig) {sid : SessionId}
    (remote : Remote) {store : Sessions} {peer : String} (known : (store.session sid).peerNode = some peer) :
    Adds json config sid remote store peer (remote.addSession json config sid store) := by
  have samePeer : ((store.connectClosed sid (.remote remote.node)).session sid).peerNode = some peer := by
    simpa [Sessions.connectClosed, Session.peerNode] using known
  -- the announcement is never refused
  have put : ∀ priority, ∃ queued,
      QueuedMsg.ofMsg json store.now store.nextMsg (priorityMsg config priority) = some queued ∧
        (store.connectClosed sid (.remote remote.node)).putOutQueue json sid (priorityMsg config priority) =
          .done (remote.announced sid queued store) := fun priority =>
    Sessions.putOutQueue_service lawful config "priority" "priority" priority.putValue sid
      (store.connectClosed sid (.remote remote.node))
  simp only [addSession, samePeer]
  by_cases boss : config.nodeName < peer
  · rw [if_pos boss]
    exact .waits boss
  · rw [if_neg boss]
    split
    next _ free =>
      obtain ⟨queued, built, done⟩ := put .high
      rw [done]
      exact .high boss free built
    next sessionH takenH free =>
      obtain ⟨queued, built, done⟩ := put .low
      rw [done]
      exact .low boss (by simp [takenH]) free built
    next sessionH sessionL takenH takenL =>
      have taken : remote.sessionH ≠ none ∧ remote.sessionL ≠ none := by simp [takenH, takenL]
      split
      next free =>
        obtain ⟨queued, built, done⟩ := put .control
        rw [done]
        exact .control boss taken free.1 built
      next =>
        obtain ⟨after, closed⟩ := Sessions.gracefullClose_done config lawful sid
          "duplicated connection" (store.connectClosed sid (.remote remote.node))
        rw [closed]
        exact .duplicate boss taken closed

/-- The slot that a new session gets, and the queue that it takes over. -/
theorem addSession_cases {json : JsonCodec} (lawful : json.Lawful) {config : UConfig} {sid : SessionId}
    {remote changed : Remote} {store after : Sessions}
    (final : (remote.addSession json config sid store).final = some (changed, after)) :
    ((store.session sid).peerNode = none ∧ changed = remote) ∨
      ∃ peer, (store.session sid).peerNode = some peer ∧
        ((config.nodeName < peer ∧
            changed = { remote with
              sessionWaitForRemote := insert sid remote.sessionWaitForRemote }) ∨
          (¬ config.nodeName < peer ∧
            ((remote.sessionH = none ∧
                changed = { remote with
                  sessionH := some sid
                  outHighQueue := []
                  handed := remote.handed ++ remote.outHighQueue } ∧
                ∀ msg ∈ remote.outHighQueue, msg.expired store.now = false →
                  msg ∈ (after.session sid).outQueue) ∨
              (remote.sessionH ≠ none ∧ remote.sessionL = none ∧
                changed = { remote with sessionL := some sid, outLowQueue := [] }) ∨
              (remote.sessionH ≠ none ∧ remote.sessionL ≠ none ∧
                (changed = { remote with sessionC := some sid } ∧ remote.sessionC = none ∨
                  changed = remote))))) := by
  cases known : (store.session sid).peerNode with
  | none =>
    have unknown : ((store.connectClosed sid (.remote remote.node)).session sid).peerNode = none := by
      simpa [Sessions.connectClosed, Session.peerNode] using known
    simp only [addSession, unknown, Outcome.final_raised, Option.some.injEq, Prod.mk.injEq] at final
    exact .inl ⟨rfl, final.1.symm⟩
  | some peer =>
    have adds := adds_addSession lawful config remote known
    generalize remote.addSession json config sid store = outcome at adds final
    refine .inr ⟨peer, rfl, ?_⟩
    cases adds with
    | waits lower =>
      cases final
      exact .inl ⟨lower, rfl⟩
    | high boss free built =>
      obtain ⟨flushed, taken, same⟩ := Option.map_eq_some_iff.mp ((Outcome.final_map ..).symm.trans final)
      cases same
      refine .inr ⟨boss, .inl ⟨free, rfl, ?_⟩⟩
      intro msg waiting young
      obtain ⟨ss, returned, rfl⟩ := Sessions.takeOverQueue_final taken
      rw [Sessions.set_session, Function.update_self]
      exact Sessions.mem_takeOverMessages returned (.inr waiting) young
    | low boss taken free built =>
      obtain ⟨flushed, _, same⟩ := Option.map_eq_some_iff.mp ((Outcome.final_map ..).symm.trans final)
      cases same
      exact .inr ⟨boss, .inr (.inl ⟨taken, free, rfl⟩)⟩
    | control boss taken free built =>
      cases final
      exact .inr ⟨boss, .inr (.inr ⟨taken.1, taken.2, .inl ⟨rfl, free⟩⟩)⟩
    -- a session too many is closed and gets no slot
    | duplicate boss taken closed =>
      cases final
      exact .inr ⟨boss, .inr (.inr ⟨taken.1, taken.2, .inr rfl⟩)⟩

theorem holds_forget {remote : Remote} {sid other : SessionId}
    (holds : (remote.forget sid).Holds other) : remote.Holds other := by
  rcases holds with waiting | ⟨role, taken⟩
  · exact .inl (Finset.mem_of_mem_erase waiting)
  · exact .inr ⟨role, by simpa using taken⟩

theorem holds_setSlot {remote : Remote} {priority : Priority} (assigned : priority ≠ .undefined)
    {sid other : SessionId} (holds : (remote.setSlot priority sid).Holds other) :
    remote.Holds other ∨ other = sid := by
  rcases holds with waiting | ⟨role, taken⟩
  · left
    left
    cases priority <;> exact waiting
  · rw [slot_setSlot assigned] at taken
    split at taken
    · exact .inr (Option.some.inj taken).symm
    · exact .inl (.inr ⟨role, taken⟩)

theorem holds_onSessionClosed {remote : Remote} {sid other : SessionId}
    (holds : (remote.onSessionClosed sid).Holds other) : remote.Holds other := by
  rcases holds with waiting | ⟨role, taken⟩
  · exact .inl (Finset.mem_of_mem_erase waiting)
  · rw [slot_onSessionClosed] at taken
    split at taken
    · cases taken
    · exact .inr ⟨role, taken⟩

/-- A priority message adds to the channel at most the session it comes from, and only with a role. -/
theorem holds_handlePriorityMsg {json : JsonCodec} {config : UConfig} {msg left : Msg}
    {remote changed : Remote} {store after : Sessions}
    (final : (remote.handlePriorityMsg json config msg store).final = some (left, changed, after))
    {other : SessionId} (holds : changed.Holds other) :
    remote.Holds other ∨ (msg.origin = some other ∧ remote.sessionH ≠ some other ∧
      remote.sessionL ≠ some other ∧
      ∃ tree, msg.body.parsed json = some tree ∧ Priority.ofBody tree ≠ .undefined) := by
  rcases handlePriorityMsg_cases final with ⟨_, rfl, _⟩ | ⟨sid, origin, ⟨_, rfl, _⟩ | assigned⟩
  · exact .inl holds
  · exact .inl (holds_forget holds)
  · obtain ⟨notHigh, notLow, tree, parsed, ⟨_, rfl, _⟩ | ⟨role, rfl, _⟩⟩ := assigned
    · exact .inl (holds_forget holds)
    · rcases holds_setSlot role holds with before | rfl
      · exact .inl (holds_forget before)
      · exact .inr ⟨origin, notHigh, notLow, tree, parsed, role⟩

/-- A priority message with a role puts its session into the channel, if it had no role there yet. -/
theorem holds_assigned {json : JsonCodec} {config : UConfig} {msg left : Msg} {remote changed : Remote}
    {store after : Sessions} {sid : SessionId} {tree : PTree} (origin : msg.origin = some sid)
    (notHigh : remote.sessionH ≠ some sid) (notLow : remote.sessionL ≠ some sid)
    (parsed : msg.body.parsed json = some tree) (role : Priority.ofBody tree ≠ .undefined)
    (final : (remote.handlePriorityMsg json config msg store).final = some (left, changed, after)) :
    changed.Holds sid := by
  rcases handlePriorityMsg_cases final with ⟨nobody, _⟩ | ⟨sid', origin', ignored | assigned⟩
  · simp [origin] at nobody
  · obtain rfl : sid = sid' := Option.some.inj (origin.symm.trans origin')
    simp [notHigh, notLow, parsed] at ignored
  · obtain rfl : sid = sid' := Option.some.inj (origin.symm.trans origin')
    obtain ⟨_, _, tree', parsed', ⟨undefined, _⟩ | ⟨_, rfl, _⟩⟩ := assigned
    · obtain rfl : tree = tree' := Option.some.inj (parsed.symm.trans parsed')
      exact absurd undefined role
    · obtain rfl : tree = tree' := Option.some.inj (parsed.symm.trans parsed')
      exact .inr ⟨Priority.ofBody tree, by rw [slot_setSlot role, if_pos rfl]⟩

theorem holds_addSession {json : JsonCodec} (lawful : json.Lawful) {config : UConfig} {sid : SessionId}
    {remote changed : Remote} {store after : Sessions}
    (final : (remote.addSession json config sid store).final = some (changed, after))
    {other : SessionId} (holds : changed.Holds other) : remote.Holds other ∨ other = sid := by
  rcases addSession_cases lawful final with ⟨_, rfl⟩ | ⟨peer, _, ⟨_, rfl⟩ | ⟨_, high | low | more⟩⟩
  · exact .inl holds
  · rcases holds with waiting | taken
    · rcases Finset.mem_insert.mp waiting with same | waiting
      · exact .inr same
      · exact .inl (.inl waiting)
    · exact .inl (.inr taken)
  · obtain ⟨_, rfl, _⟩ := high
    exact @holds_setSlot remote .high (by decide) sid other holds
  · obtain ⟨_, _, rfl⟩ := low
    exact @holds_setSlot remote .low (by decide) sid other holds
  · obtain ⟨_, _, ⟨rfl, _⟩ | rfl⟩ := more
    · exact @holds_setSlot remote .control (by decide) sid other holds
    · exact .inl holds

/-- A message that `send` takes goes to the high priority session of a connected channel and waits
otherwise. -/
theorem send_cases {json : JsonCodec} {msg : Msg} {remote changed : Remote} {store after : Sessions}
    (final : (remote.send json msg store).final = some (changed, after)) :
    (QueuedMsg.ofMsg json store.now store.nextMsg msg = none ∧ changed = remote ∧ after = store) ∨
      ∃ queued, QueuedMsg.ofMsg json store.now store.nextMsg msg = some queued ∧
        ((∃ high, remote.sessionH = some high ∧ remote.connected = true ∧
            changed = { remote with
              accepted := remote.accepted ++ [queued]
              handed := remote.handed ++ [queued] } ∧
            (store.putOutQueue json high msg).final = some after) ∨
          (remote.connected = false ∧
            changed = { remote with
              accepted := remote.accepted ++ [queued]
              outHighQueue := remote.outHighQueue ++ [queued] } ∧
            after = { store with nextMsg := store.nextMsg + 1 })) := by
  unfold send at final
  cases built : QueuedMsg.ofMsg json store.now store.nextMsg msg with
  | none =>
    simp only [built, Outcome.final_raised, Option.some.injEq, Prod.mk.injEq] at final
    exact .inl ⟨rfl, final.1.symm, final.2.symm⟩
  | some queued =>
    right
    refine ⟨queued, rfl, ?_⟩
    simp only [built] at final
    cases high : remote.sessionH with
    | none =>
      right
      simp only [high, Outcome.final_done, Option.some.injEq, Prod.mk.injEq] at final
      exact ⟨by simp [connected, high], by simp [← final.1], final.2.symm⟩
    | some high' =>
      cases low : remote.sessionL with
      | none =>
        right
        simp only [high, low, Outcome.final_done, Option.some.injEq, Prod.mk.injEq] at final
        exact ⟨by simp [connected, low], by simp [← final.1], final.2.symm⟩
      | some low' =>
        left
        simp only [high, low, Outcome.final_map, Option.map_eq_some_iff, Prod.mk.injEq] at final
        obtain ⟨store', put, rfl, rfl⟩ := final
        exact ⟨high', rfl, by simp [connected, high, low], by simp, put⟩

theorem grows_send {json : JsonCodec} {msg : Msg} {remote changed : Remote} {store after : Sessions}
    (final : (remote.send json msg store).final = some (changed, after)) : store.Grows after := by
  rcases send_cases final with ⟨_, _, rfl⟩ | ⟨queued, _, ⟨high, _, _, _, put⟩ | ⟨_, _, rfl⟩⟩
  · exact .refl after
  · exact (Sessions.grows_putOutQueue json high msg store).of_final put
  · exact ⟨rfl, rfl, fun _ => rfl, fun _ => rfl, fun _ _ member _ => member⟩

end Remote

/-! ## One channel on its own -/

structure ChannelState where
  remote : Remote
  store : Sessions

/-- The calls of a channel.  `other` is everything else that the process does to its sessions between
two of them. -/
inductive ChannelEvent where
  | send (msg : Msg)
  | addSession (sid : SessionId)
  | handlePriorityMsg (msg : Msg)
  | onSessionClosed (sid : SessionId)
  | other (store : Sessions)

namespace ChannelState

def step (json : JsonCodec) (config : UConfig) (s : ChannelState) : ChannelEvent → Option ChannelState
  | .send msg => (s.remote.send json msg s.store).final.map fun (remote, store) => ⟨remote, store⟩
  | .addSession sid =>
    (s.remote.addSession json config sid s.store).final.map fun (remote, store) => ⟨remote, store⟩
  | .handlePriorityMsg msg =>
    (s.remote.handlePriorityMsg json config msg s.store).final.map fun (_, remote, store) =>
      ⟨remote, store⟩
  | .onSessionClosed sid => some { s with remote := s.remote.onSessionClosed sid }
  | .other store => some { s with store }

end ChannelState

end Uzel
