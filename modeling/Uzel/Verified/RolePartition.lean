import Uzel.Foundation.Json
import Uzel.Foundation.Runs
import Uzel.ServerRules

/-! # The places of a channel

A channel keeps its sessions in the waiting set and in the three slots.  `handlePriorityMsg` takes the
session out of the waiting set before it reads the message, and it compares the session with two of the
slots only.  `partition_runs_iff` says that the runs in which every session that is still in use is in
exactly one place are exactly those in which a waiting session sends a body that can be read, and the
control session is not given another role.
-/

namespace Uzel

open Foundation

/-- The session may become closing or stopped, but not the other way round. -/
structure Session.Ages (ss after : Session) : Prop where
  stopped : ss.stopped = true → after.stopped = true
  closeFlag : ss.closeFlag = true → after.closeFlag = true

/-- The session is neither stopped nor about to be closed. -/
def Session.inUse (ss : Session) : Prop := ss.stopped = false ∧ ss.closeFlag = false

instance (ss : Session) : Decidable ss.inUse := instDecidableAnd

instance (ss after : Session) : Decidable (ss.Ages after) :=
  decidable_of_iff ((ss.stopped = true → after.stopped = true) ∧ (ss.closeFlag = true → after.closeFlag = true))
    ⟨fun ages => ⟨ages.1, ages.2⟩, fun ages => ⟨ages.stopped, ages.closeFlag⟩⟩

theorem Session.carried_ages : Session.Carried Session.Ages := by
  apply Session.Carried.of_endpoint
  · exact fun first second => ⟨second.stopped ∘ first.stopped, second.closeFlag ∘ first.closeFlag⟩
  · exact fun same => ⟨(congrArg Endpoint.stopped same).trans, (congrArg Endpoint.closeFlag same).trans⟩
  · exact fun _ _ => ⟨id, fun _ => rfl⟩
  · exact fun _ _ => ⟨id, id⟩

theorem Session.Ages.inUse {ss after : Session} (ages : ss.Ages after) (later : after.inUse) : ss.inUse := by
  constructor
  · by_contra ended
    exact absurd (ages.stopped (by simpa using ended)) (by simp [later.1])
  · by_contra closing
    exact absurd (ages.closeFlag (by simpa using closing)) (by simp [later.2])

theorem Sessions.closeFlag_gracefullClose (json : JsonCodec) (config : UConfig) (sid : SessionId)
    (reason : String) (store : Sessions) :
    (store.gracefullClose json config sid reason).All fun after => (after.session sid).closeFlag = true := by
  apply Outcome.all_map.mpr
  simp only [Session.gracefullClose]
  split
  next closing => simpa using closing
  next =>
    split
    · apply (Session.sendByeAndClose_keeps json config _).mono
      intro after kept
      simp only [Sessions.set_session, Function.update_self]
      exact congrArg Endpoint.closeFlag kept.1
    · simp

namespace Remote

variable {json : JsonCodec} {config : UConfig} {sid : SessionId} {remote changed : Remote}
  {store after : Sessions}

theorem waiting_setSlot (priority : Priority) (sid : SessionId) (remote : Remote) :
    (remote.setSlot priority sid).sessionWaitForRemote = remote.sessionWaitForRemote := by
  cases priority <;> rfl

theorem send_places {msg : Msg} (final : (remote.send json msg store).final = some (changed, after)) :
    changed.sessionWaitForRemote = remote.sessionWaitForRemote ∧
      ∀ role, changed.slot role = remote.slot role := by
  rcases send_cases final with ⟨_, rfl, _⟩ | ⟨queued, _, ⟨_, _, _, rfl, _⟩ | ⟨_, rfl, _⟩⟩
  · exact ⟨rfl, fun _ => rfl⟩
  · exact ⟨rfl, fun role => by cases role <;> rfl⟩
  · exact ⟨rfl, fun role => by cases role <;> rfl⟩

/-- The place that `addSession` gives to a session. -/
theorem addSession_places (lawful : json.Lawful) (known : (store.session sid).authenticated = true)
    (final : (remote.addSession json config sid store).final = some (changed, after)) :
    (changed.sessionWaitForRemote = insert sid remote.sessionWaitForRemote ∧
        ∀ role, changed.slot role = remote.slot role) ∨
      (∃ priority, remote.slot priority = none ∧
        changed.sessionWaitForRemote = remote.sessionWaitForRemote ∧
        ∀ role, changed.slot role = if role = priority then some sid else remote.slot role) ∨
      (changed = remote ∧ (after.session sid).closeFlag = true) := by
  obtain ⟨msg1, isKnown⟩ := Option.isSome_iff_exists.mp known
  have peer : (store.session sid).peerNode = some msg1.from.node := by rw [Session.peerNode, isKnown]; rfl
  have adds := adds_addSession lawful config remote peer
  generalize remote.addSession json config sid store = outcome at adds final
  cases adds with
  | waits =>
    cases final
    refine .inl ⟨rfl, ?_⟩
    intro role
    cases role <;> rfl
  | high _ free =>
    obtain ⟨_, _, same⟩ := Option.map_eq_some_iff.mp ((Outcome.final_map ..).symm.trans final)
    cases same
    refine .inr (.inl ⟨.high, free, rfl, ?_⟩)
    intro role
    cases role <;> rfl
  | low _ _ free =>
    obtain ⟨_, _, same⟩ := Option.map_eq_some_iff.mp ((Outcome.final_map ..).symm.trans final)
    cases same
    refine .inr (.inl ⟨.low, free, rfl, ?_⟩)
    intro role
    cases role <;> rfl
  | control _ _ free =>
    cases final
    refine .inr (.inl ⟨.control, free, rfl, ?_⟩)
    intro role
    cases role <;> rfl
  | duplicate _ _ closed =>
    cases final
    have closes := Sessions.closeFlag_gracefullClose json config sid "duplicated connection"
      (store.connectClosed sid (.remote remote.node))
    rw [closed] at closes
    exact .inr (.inr ⟨rfl, closes⟩)

/-- What a priority message of a session does to the places. -/
theorem handlePriorityMsg_places {msg left : Msg} (origin : msg.origin = some sid)
    (final : (remote.handlePriorityMsg json config msg store).final = some (left, changed, after)) :
    (changed = remote.forget sid ∧ after = store ∧
        (remote.sessionH = some sid ∨ remote.sessionL = some sid ∨ msg.body.parsed json = none)) ∨
      (changed = remote.forget sid ∧ (after.session sid).closeFlag = true ∧
        ∃ tree, msg.body.parsed json = some tree ∧ Priority.ofBody tree = .undefined) ∨
      ∃ tree, msg.body.parsed json = some tree ∧ remote.sessionH ≠ some sid ∧ remote.sessionL ≠ some sid ∧
        Priority.ofBody tree ≠ .undefined ∧ changed = (remote.forget sid).setSlot (Priority.ofBody tree) sid ∧
        ∀ old, remote.slot (Priority.ofBody tree) = some old → (after.session old).closeFlag = true := by
  rcases handlePriorityMsg_cases final with ⟨nobody, _⟩ | ⟨other, origin', ⟨ignored, rfl, rfl⟩ | assigned⟩
  · rw [origin] at nobody
    cases nobody
  · obtain rfl : sid = other := Option.some.inj (origin.symm.trans origin')
    exact .inl ⟨rfl, rfl, ignored⟩
  · obtain rfl : sid = other := Option.some.inj (origin.symm.trans origin')
    obtain ⟨notHigh, notLow, tree, parsed, ⟨undefined, rfl, closes⟩ | ⟨role, rfl, closes⟩⟩ := assigned
    · exact .inr (.inl ⟨rfl, (Sessions.closeFlag_gracefullClose json config sid _ store).of_final closes,
        tree, parsed, undefined⟩)
    · refine .inr (.inr ⟨tree, parsed, notHigh, notLow, role, rfl, ?_⟩)
      intro old taken
      rw [taken] at closes
      exact (Sessions.closeFlag_gracefullClose json config old _ store).of_final closes

end Remote

namespace Verified.RolePartition

/-- A channel together with the sessions that have been added to it. -/
structure RoleState where
  channel : ChannelState
  added : Finset SessionId

/-- The calls of a channel, as the server makes them: a session is added once, when it has been
authenticated, its messages come after that, and `onSessionClosed` is called when it has been stopped.
Between the calls the sessions do what they like, but they are neither opened again nor started
again. -/
def RoleState.step (json : JsonCodec) (config : UConfig) (s : RoleState) (e : ChannelEvent) :
    Option RoleState :=
  let called (added : Finset SessionId) : Option RoleState :=
    (s.channel.step json config e).map fun channel => ⟨channel, added⟩
  match e with
  | .send _ => called s.added
  | .addSession sid =>
    if sid ∉ s.added ∧ (s.channel.store.session sid).authenticated = true then called (insert sid s.added)
    else none
  | .handlePriorityMsg msg => if ∀ sid ∈ msg.origin, sid ∈ s.added then called s.added else none
  | .onSessionClosed sid => if (s.channel.store.session sid).stopped = true then called s.added else none
  | .other store =>
    if ∀ sid ∈ s.added, (s.channel.store.session sid).Ages (store.session sid) then called s.added else none

/-- The slots hold different sessions, none of which waits, and every session that is in use is in
exactly one place. -/
structure Partition (s : RoleState) : Prop where
  distinct : ∀ sid role other, s.channel.remote.slot role = some sid →
    s.channel.remote.slot other = some sid → role = other
  apart : ∀ sid role, s.channel.remote.slot role = some sid →
    sid ∉ s.channel.remote.sessionWaitForRemote
  exactlyOne : ∀ sid ∈ s.added, (s.channel.store.session sid).inUse →
    (sid ∈ s.channel.remote.sessionWaitForRemote ∧ ∀ role, s.channel.remote.slot role ≠ some sid) ∨
      (sid ∉ s.channel.remote.sessionWaitForRemote ∧ ∃! role, s.channel.remote.slot role = some sid)

/-- A waiting session that is in use sends a body that can be read, and the control session is not given
one of the other roles. -/
def KeepsPlaces (json : JsonCodec) (s : RoleState) : ChannelEvent → Prop
  | .handlePriorityMsg msg => ∀ sid, msg.origin = some sid →
      s.channel.remote.sessionH ≠ some sid → s.channel.remote.sessionL ≠ some sid →
      (sid ∈ s.channel.remote.sessionWaitForRemote → (s.channel.store.session sid).inUse →
        msg.body.parsed json ≠ none) ∧
      (s.channel.remote.sessionC = some sid → ∀ tree, msg.body.parsed json = some tree →
        Priority.ofBody tree ≠ .high ∧ Priority.ofBody tree ≠ .low)
  | _ => True

/-- The invariant of the channel: only sessions that have been added have a place, and those in use have
one. -/
structure Placed (added : Finset SessionId) (remote : Remote) (store : Sessions) : Prop where
  distinct : ∀ sid role other, remote.slot role = some sid → remote.slot other = some sid → role = other
  apart : ∀ sid role, remote.slot role = some sid → sid ∉ remote.sessionWaitForRemote
  members : ∀ sid, remote.Holds sid → sid ∈ added
  kept : ∀ sid ∈ added, (store.session sid).inUse → remote.Holds sid

section Steps

variable {json : JsonCodec} {config : UConfig} {added : Finset SessionId} {remote changed : Remote}
  {store after : Sessions} {sid : SessionId} {s t : RoleState} {e : ChannelEvent}

theorem Placed.partition (placed : Placed s.added s.channel.remote s.channel.store) : Partition s where
  distinct := placed.distinct
  apart := placed.apart
  exactlyOne sid member inUse := by
    rcases placed.kept sid member inUse with waiting | ⟨role, taken⟩
    · exact .inl ⟨waiting, fun role taken => placed.apart sid role taken waiting⟩
    · exact .inr ⟨placed.apart sid role taken, role, taken, fun other taken' =>
        placed.distinct sid other role taken' taken⟩

theorem Placed.of_ages (placed : Placed added remote store)
    (ages : ∀ sid ∈ added, (store.session sid).Ages (after.session sid)) : Placed added remote after :=
  ⟨placed.distinct, placed.apart, placed.members,
    fun sid member later => placed.kept sid member ((ages sid member).inUse later)⟩

/-- A session gets a slot: it waits no more, and the session that had the slot is to be closed. -/
theorem placed_assign {added' : Finset SessionId} (placed : Placed added remote store) {priority : Priority}
    (slots : ∀ role, changed.slot role = if role = priority then some sid else remote.slot role)
    (elsewhere : ∀ role ≠ priority, remote.slot role ≠ some sid)
    (settled : sid ∉ changed.sessionWaitForRemote)
    (waiting : ∀ other ≠ sid,
      other ∈ changed.sessionWaitForRemote ↔ other ∈ remote.sessionWaitForRemote)
    (more : added ⊆ added') (member : sid ∈ added')
    (old : ∀ other ∈ added', other ≠ sid → (after.session other).inUse → remote.Holds other)
    (overtaken : ∀ other ≠ sid, remote.slot priority = some other → ¬ (after.session other).inUse) :
    Placed added' changed after := by
  -- a slot that does not hold the session is the same as before
  have before : ∀ role other, other ≠ sid → changed.slot role = some other →
      role ≠ priority ∧ remote.slot role = some other := by
    intro role other different taken
    rw [slots] at taken
    split at taken
    next => exact absurd (Option.some.inj taken).symm different
    next same => exact ⟨same, taken⟩
  have only : ∀ role, changed.slot role = some sid → role = priority := by
    intro role taken
    rw [slots] at taken
    split at taken
    next same => exact same
    next different => exact absurd taken (elsewhere role different)
  refine ⟨?_, ?_, ?_, ?_⟩
  · intro other role role' taken taken'
    by_cases same : other = sid
    · rw [same] at taken taken'
      exact (only role taken).trans (only role' taken').symm
    · exact placed.distinct other role role' (before role other same taken).2 (before role' other same taken').2
  · intro other role taken
    by_cases same : other = sid
    · exact same ▸ settled
    · rw [waiting other same]
      exact placed.apart other role (before role other same taken).2
  · intro other held
    by_cases same : other = sid
    · exact same ▸ member
    · apply more
      apply placed.members
      rcases held with waits | ⟨role, taken⟩
      · exact .inl ((waiting other same).mp waits)
      · exact .inr ⟨role, (before role other same taken).2⟩
  · intro other member later
    by_cases same : other = sid
    · exact .inr ⟨priority, by rw [slots, if_pos rfl, same]⟩
    · rcases old other member same later with waits | ⟨role, taken⟩
      · exact .inl ((waiting other same).mpr waits)
      · refine .inr ⟨role, ?_⟩
        rw [slots, if_neg]
        · exact taken
        · rintro rfl
          exact overtaken other same taken later

theorem placed_addSession (lawful : json.Lawful) (placed : Placed added remote store) (new : sid ∉ added)
    (known : (store.session sid).authenticated = true)
    (final : (remote.addSession json config sid store).final = some (changed, after)) :
    Placed (insert sid added) changed after := by
  obtain ⟨msg1, isKnown⟩ := Option.isSome_iff_exists.mp known
  have peer : (store.session sid).peerNode = some msg1.from.node := by rw [Session.peerNode, isKnown]; rfl
  have ages := Remote.carries_addSession Session.carried_ages lawful peer final
  have nowhere : ¬ remote.Holds sid := fun held => new (placed.members sid held)
  have old : ∀ other ∈ insert sid added, other ≠ sid → (after.session other).inUse → remote.Holds other := by
    intro other member different later
    have member := (Finset.mem_insert.mp member).resolve_left different
    exact placed.kept other member ((ages other).inUse later)
  rcases Remote.addSession_places lawful known final with ⟨waiting, slots⟩ | ⟨priority, free, waiting, slots⟩ |
    ⟨rfl, closing⟩
  · refine ⟨?_, ?_, ?_, ?_⟩
    · intro other role role' taken taken'
      exact placed.distinct other role role' ((slots role).symm.trans taken) ((slots role').symm.trans taken')
    · intro other role taken
      rw [slots] at taken
      rw [waiting]
      intro member
      rcases Finset.mem_insert.mp member with rfl | before
      · exact nowhere (.inr ⟨role, taken⟩)
      · exact placed.apart other role taken before
    · rintro other (member | ⟨role, taken⟩)
      · rw [waiting] at member
        rcases Finset.mem_insert.mp member with rfl | before
        · exact Finset.mem_insert_self _ _
        · exact Finset.mem_insert_of_mem (placed.members other (.inl before))
      · exact Finset.mem_insert_of_mem (placed.members other (.inr ⟨role, (slots role).symm.trans taken⟩))
    · intro other member later
      by_cases same : other = sid
      · left
        rw [waiting, same]
        exact Finset.mem_insert_self _ _
      · rcases old other member same later with before | ⟨role, taken⟩
        · left
          rw [waiting]
          exact Finset.mem_insert_of_mem before
        · exact .inr ⟨role, (slots role).trans taken⟩
  · apply placed_assign placed slots
    · exact fun role _ taken => nowhere (.inr ⟨role, taken⟩)
    · exact fun member => nowhere (.inl (waiting ▸ member))
    · exact fun other _ => by rw [waiting]
    · exact Finset.subset_insert sid added
    · exact Finset.mem_insert_self sid added
    · exact old
    · intro other _ taken
      rw [free] at taken
      cases taken
  · refine ⟨placed.distinct, placed.apart, ?_, ?_⟩
    · exact fun other held => Finset.mem_insert_of_mem (placed.members other held)
    · intro other member later
      apply old other member _ later
      rintro rfl
      rw [Session.inUse, closing] at later
      cases later.2

/-- A session leaves the waiting set.  Where it waited, it must not be in use any more. -/
theorem placed_forget (placed : Placed added remote store)
    (ages : ∀ other ∈ added, (store.session other).Ages (after.session other))
    (unused : sid ∈ remote.sessionWaitForRemote → ¬ (after.session sid).inUse) :
    Placed added (remote.forget sid) after := by
  refine ⟨?_, ?_, ?_, ?_⟩
  · intro other role role' taken taken'
    rw [Remote.slot_forget] at taken taken'
    exact placed.distinct other role role' taken taken'
  · intro other role taken member
    rw [Remote.slot_forget] at taken
    exact placed.apart other role taken (Finset.mem_of_mem_erase member)
  · exact fun other held => placed.members other (Remote.holds_forget held)
  · intro other member later
    rcases placed.kept other member ((ages other member).inUse later) with waiting | ⟨role, taken⟩
    · left
      refine Finset.mem_erase.mpr ⟨?_, waiting⟩
      rintro rfl
      exact unused waiting later
    · exact .inr ⟨role, by rwa [Remote.slot_forget]⟩

theorem placed_handlePriorityMsg {msg left : Msg} (placed : Placed added remote store)
    (known : ∀ sid ∈ msg.origin, sid ∈ added)
    (keeps : KeepsPlaces json ⟨⟨remote, store⟩, added⟩ (.handlePriorityMsg msg))
    (final : (remote.handlePriorityMsg json config msg store).final = some (left, changed, after)) :
    Placed added changed after := by
  have ages := Remote.carries_handlePriorityMsg Session.carried_ages final
  cases origin : msg.origin with
  | none =>
    rcases Remote.handlePriorityMsg_cases final with ⟨_, rfl, rfl⟩ | ⟨sid, origin', _⟩
    · exact placed
    · rw [origin] at origin'
      cases origin'
  | some sid =>
    have keeps := keeps sid origin
    rcases Remote.handlePriorityMsg_places origin final with ⟨rfl, rfl, ignored⟩ | ⟨rfl, closing, _⟩ | assigned
    · apply placed_forget placed fun other _ => ages other
      intro waiting inUse
      rcases ignored with high | low | unread
      · exact placed.apart sid .high high waiting
      · exact placed.apart sid .low low waiting
      · have notHigh : remote.sessionH ≠ some sid := fun taken => placed.apart sid .high taken waiting
        have notLow : remote.sessionL ≠ some sid := fun taken => placed.apart sid .low taken waiting
        exact (keeps notHigh notLow).1 waiting inUse unread
    · apply placed_forget placed fun other _ => ages other
      intro _ later
      rw [Session.inUse, closing] at later
      cases later.2
    · obtain ⟨tree, parsed, notHigh, notLow, role, rfl, overtaken⟩ := assigned
      have control := (keeps notHigh notLow).2
      apply placed_assign placed
      · intro other
        rw [Remote.slot_setSlot role, Remote.slot_forget]
      · intro other different taken
        cases other with
        | high => exact notHigh taken
        | low => exact notLow taken
        | undefined => cases taken
        | control =>
          obtain ⟨otherHigh, otherLow⟩ := control taken tree parsed
          cases isRole : Priority.ofBody tree with
          | high => exact otherHigh isRole
          | low => exact otherLow isRole
          | undefined => exact role isRole
          | control => exact different isRole.symm
      · rw [Remote.waiting_setSlot]
        exact Finset.notMem_erase sid _
      · intro other different
        rw [Remote.waiting_setSlot, Remote.forget, Finset.mem_erase]
        exact ⟨And.right, fun member => ⟨different, member⟩⟩
      · exact Finset.Subset.refl added
      · exact known sid origin
      · exact fun other member _ later => placed.kept other member ((ages other).inUse later)
      · intro other _ taken later
        rw [Session.inUse, overtaken other taken] at later
        cases later.2

theorem placed_onSessionClosed (placed : Placed added remote store)
    (stopped : (store.session sid).stopped = true) : Placed added (remote.onSessionClosed sid) store := by
  have before : ∀ role other, (remote.onSessionClosed sid).slot role = some other →
      remote.slot role = some other := by
    intro role other taken
    rw [Remote.slot_onSessionClosed] at taken
    split at taken
    next => cases taken
    next => exact taken
  refine ⟨?_, ?_, ?_, ?_⟩
  · intro other role role' taken taken'
    exact placed.distinct other role role' (before role other taken) (before role' other taken')
  · intro other role taken member
    exact placed.apart other role (before role other taken) (Finset.mem_of_mem_erase member)
  · exact fun other held => placed.members other (Remote.holds_onSessionClosed held)
  · intro other member inUse
    have different : other ≠ sid := by
      rintro rfl
      rw [Session.inUse, stopped] at inUse
      cases inUse.1
    rcases placed.kept other member inUse with waiting | ⟨role, taken⟩
    · exact .inl (Finset.mem_erase.mpr ⟨different, waiting⟩)
    · refine .inr ⟨role, ?_⟩
      rw [Remote.slot_onSessionClosed, if_neg]
      · exact taken
      · intro taken'
        exact different (Option.some.inj (taken.symm.trans taken'))

theorem placed_send {msg : Msg} (placed : Placed added remote store)
    (final : (remote.send json msg store).final = some (changed, after)) : Placed added changed after := by
  obtain ⟨waiting, slots⟩ := Remote.send_places final
  have ages := Remote.carries_send Session.carried_ages final
  have holds : ∀ other, changed.Holds other ↔ remote.Holds other := by
    intro other
    simp only [Remote.Holds, waiting, slots]
  refine ⟨?_, ?_, ?_, ?_⟩
  · intro other role role' taken taken'
    exact placed.distinct other role role' (slots role ▸ taken) (slots role' ▸ taken')
  · intro other role taken
    exact waiting ▸ placed.apart other role (slots role ▸ taken)
  · exact fun other held => placed.members other ((holds other).mp held)
  · exact fun other member later => (holds other).mpr (placed.kept other member ((ages other).inUse later))

theorem placed_step (lawful : json.Lawful) (placed : Placed s.added s.channel.remote s.channel.store)
    (next : s.step json config e = some t) (keeps : KeepsPlaces json s e) :
    Placed t.added t.channel.remote t.channel.store := by
  cases e with
  | send msg =>
    obtain ⟨channel, called, rfl⟩ := Option.map_eq_some_iff.mp next
    obtain ⟨⟨changed, after⟩, final, rfl⟩ := Option.map_eq_some_iff.mp called
    exact placed_send placed final
  | addSession sid =>
    simp only [RoleState.step] at next
    split at next
    next enabled =>
      obtain ⟨channel, called, rfl⟩ := Option.map_eq_some_iff.mp next
      obtain ⟨⟨changed, after⟩, final, rfl⟩ := Option.map_eq_some_iff.mp called
      exact placed_addSession lawful placed enabled.1 enabled.2 final
    next => cases next
  | handlePriorityMsg msg =>
    simp only [RoleState.step] at next
    split at next
    next known =>
      obtain ⟨channel, called, rfl⟩ := Option.map_eq_some_iff.mp next
      obtain ⟨⟨left, changed, after⟩, final, rfl⟩ := Option.map_eq_some_iff.mp called
      exact placed_handlePriorityMsg placed known keeps final
    next => cases next
  | onSessionClosed sid =>
    simp only [RoleState.step] at next
    split at next
    next stopped =>
      cases next
      exact placed_onSessionClosed placed stopped
    next => cases next
  | other store =>
    simp only [RoleState.step] at next
    split at next
    next ages =>
      cases next
      exact placed.of_ages ages
    next => cases next

/-- A waiting session whose message cannot be read is in no place afterwards, and a control session that
gets another role is in two. -/
theorem misplaced_step (placed : Placed s.added s.channel.remote s.channel.store)
    (next : s.step json config e = some t) (loses : ¬ KeepsPlaces json s e) : ¬ Partition t := by
  cases e with
  | handlePriorityMsg msg =>
    simp only [RoleState.step] at next
    split at next
    next known =>
      obtain ⟨channel, called, rfl⟩ := Option.map_eq_some_iff.mp next
      obtain ⟨⟨left, changed, after⟩, final, rfl⟩ := Option.map_eq_some_iff.mp called
      simp only [KeepsPlaces, not_forall] at loses
      obtain ⟨sid, origin, notHigh, notLow, loses⟩ := loses
      intro partition
      apply loses
      constructor
      · intro waiting inUse unread
        rcases Remote.handlePriorityMsg_places origin final with ⟨rfl, rfl, _⟩ | ⟨_, _, tree, parsed, _⟩ |
          ⟨tree, parsed, _⟩
        · rcases partition.exactlyOne sid (known sid origin) inUse with ⟨still, _⟩ | ⟨_, role, taken, _⟩
          · exact Finset.notMem_erase sid _ still
          · rw [Remote.slot_forget] at taken
            exact placed.apart sid role taken waiting
        · rw [unread] at parsed
          cases parsed
        · rw [unread] at parsed
          cases parsed
      · intro control tree parsed
        rcases Remote.handlePriorityMsg_places origin final with ⟨_, _, ignored⟩ |
          ⟨_, _, tree', parsed', undefined⟩ | ⟨tree', parsed', _, _, role, rfl, _⟩
        · simp [notHigh, notLow, parsed] at ignored
        · obtain rfl : tree = tree' := Option.some.inj (parsed.symm.trans parsed')
          simp [undefined]
        · obtain rfl : tree = tree' := Option.some.inj (parsed.symm.trans parsed')
          have slots := Remote.slot_setSlot role sid (s.channel.remote.forget sid)
          -- the session keeps the control slot
          by_cases isControl : Priority.ofBody tree = .control
          · simp [isControl]
          · have twice := partition.distinct sid (Priority.ofBody tree) .control
              (by rw [slots, if_pos rfl]) (by rw [slots, if_neg (Ne.symm isControl)]; exact control)
            exact absurd twice isControl
    next => cases next
  | _ => exact absurd trivial loses

/-- The runs of a channel in which its sessions are partitioned are exactly those in which no waiting
session sends a body that cannot be read, and no control session is given the role high or low. -/
theorem partition_runs_iff (lawful : json.Lawful) (node : String) (store : Sessions)
    (events : List ChannelEvent) :
    Always (RoleState.step json config) Partition ⟨⟨.new node, store⟩, ∅⟩ events ↔
      Meets (RoleState.step json config) (KeepsPlaces json) ⟨⟨.new node, store⟩, ∅⟩ events := by
  apply @always_iff_meets _ _ _ fun s : RoleState => Placed s.added s.channel.remote s.channel.store
  · exact Placed.partition
  · exact placed_step lawful
  · exact misplaced_step
  · refine ⟨?_, ?_, ?_, nofun⟩
    · intro sid role other taken
      cases role <;> cases taken
    · intro sid role taken
      cases role <;> cases taken
    · exact fun sid held => absurd held (Remote.not_holds_new node sid)

end Steps

/-- Three sessions with the userver of the node `gamma`, the boss of `beta`. -/
def gammaSessions : Sessions where
  now := 0
  nextMsg := 0
  session _ :=
    { Session.new .incoming "10.0.0.7" with
      msg1 := some (Session.authMsg ⟨"gamma", "userver"⟩ 1) }
  written := []

/-- A priority message of a session of `gamma`. -/
def priorityFrom (sid : SessionId) (body : Body) : Msg :=
  .incoming ⟨"beta", "userver"⟩ (serviceHeader ⟨"gamma", "userver"⟩ "priority") body (some sid)

/-- The boss gives out the roles of two sessions. -/
theorem partition_runs_two_roles :
    Always (RoleState.step Json.compactJson ⟨"beta", "userver"⟩) Partition ⟨⟨.new "gamma", gammaSessions⟩, ∅⟩
      [.addSession 0, .addSession 1, .handlePriorityMsg (priorityFrom 0 (.tree Priority.high.toBody)),
        .handlePriorityMsg (priorityFrom 1 (.tree Priority.low.toBody))] := by
  apply (partition_runs_iff Json.compactJson_lawful "gamma" gammaSessions _).mpr
  rintro s ⟨rfl⟩
  refine ⟨trivial, ?_⟩
  rintro t ⟨rfl⟩
  refine ⟨trivial, ?_⟩
  rintro u ⟨rfl⟩
  refine ⟨fun sid _ _ _ => ⟨fun _ _ => nofun, nofun⟩, ?_⟩
  rintro v ⟨rfl⟩
  exact ⟨fun sid _ _ _ => ⟨fun _ _ => nofun, nofun⟩, trivial⟩

/-- The boss gives the control session another role, and the session is in two slots; a waiting session
sends a body that is not JSON, and it is open and in no place. -/
theorem sessions_in_two_places_and_in_none :
    ¬ Always (RoleState.step Json.compactJson ⟨"beta", "userver"⟩) Partition
        ⟨⟨.new "gamma", gammaSessions⟩, ∅⟩
        [.addSession 0, .handlePriorityMsg (priorityFrom 0 (.tree Priority.control.toBody)),
          .handlePriorityMsg (priorityFrom 0 (.tree Priority.high.toBody))] ∧
      ¬ Always (RoleState.step Json.compactJson ⟨"beta", "userver"⟩) Partition
        ⟨⟨.new "gamma", gammaSessions⟩, ∅⟩
        [.addSession 0, .handlePriorityMsg (priorityFrom 0 (.raw "no JSON".toList))] := by
  constructor
  · intro always
    have reached : exec (RoleState.step Json.compactJson ⟨"beta", "userver"⟩)
        ⟨⟨.new "gamma", gammaSessions⟩, ∅⟩
        [.addSession 0, .handlePriorityMsg (priorityFrom 0 (.tree Priority.control.toBody)),
          .handlePriorityMsg (priorityFrom 0 (.tree Priority.high.toBody))] = some _ := rfl
    cases (always.last reached).distinct 0 .high .control rfl rfl
  · intro always
    have reached : exec (RoleState.step Json.compactJson ⟨"beta", "userver"⟩)
        ⟨⟨.new "gamma", gammaSessions⟩, ∅⟩
        [.addSession 0, .handlePriorityMsg (priorityFrom 0 (.raw "no JSON".toList))] = some _ := rfl
    rcases (always.last reached).exactlyOne 0 (by decide) (by decide) with ⟨waiting, _⟩ | ⟨_, role, taken, _⟩
    · cases waiting
    · cases role <;> cases taken

end Verified.RolePartition

end Uzel
