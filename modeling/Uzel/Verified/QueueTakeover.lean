import Uzel.Foundation.Json
import Uzel.Sessions
import Mathlib.Data.List.TakeWhile

/-! # Taking over a queue

`takeOverMessages` moves the messages of a queue to a session and skips those that concern only the
connection they were queued for.  A skipped message stays at the front, so the loop comes back to it.
`takeover_moves_iff` says that the takeover returns, with everything moved, exactly if there is nothing
to skip, and that a session cannot take over its own messages.
-/

namespace Uzel.Verified.QueueTakeover

open Foundation

/-- The queue that is taken over and the queue of the session after `turns` turns of the loop, or
after fewer if it ends before. -/
def loop : Nat → MsgQueue → MsgQueue → MsgQueue × MsgQueue
  | 0, oq, outQueue => (oq, outQueue)
  | _ + 1, [], outQueue => ([], outQueue)
  | turns + 1, front :: oq, outQueue =>
    if front.destType = .service then loop turns (front :: oq) outQueue
    else loop turns oq (outQueue ++ [front])

/-- Every message of `oq` that is not for the connection alone has been appended once and in order, as
far as `do_write` has not found it too old, and `left` holds none of them. -/
def Moved (before after : Session) (oq left : MsgQueue) : Prop :=
  (∃ gone, after.dropped = before.dropped ++ gone ∧
    gone ++ after.outQueue = before.outQueue ++ oq.filter (·.destType ≠ .service)) ∧
  ∀ msg ∈ left, msg.destType = .service

/-- The takeover of a queue that belongs to no session. -/
def MovesQueue (store : Sessions) (sid : SessionId) (oq : MsgQueue) : Prop :=
  ∃ turns left outQueue after, loop turns oq (store.session sid).outQueue = (left, outQueue) ∧
    left = [] ∧ store.takeOverQueue sid oq = .done after ∧
    Moved (store.session sid) (after.session sid) oq left

/-- The takeover of the messages of a session. -/
def MovesSession (store : Sessions) (sid os : SessionId) : Prop :=
  ∃ after, store.takeOverSession sid os = .done after ∧
    Moved (store.session sid) (after.session sid) (store.session os).outQueue
      (after.session os).outQueue

/-- The turns after which the loop has ended. -/
theorem loop_ended {turns : Nat} {oq outQueue result : MsgQueue} :
    loop turns oq outQueue = ([], result) ↔ Session.takeOverLoop turns oq outQueue = some result := by
  induction turns generalizing oq outQueue with
  | zero => cases oq <;> simp [loop, Session.takeOverLoop]
  | succ turns inductionHypothesis =>
    cases oq with
    | nil => simp [loop, Session.takeOverLoop]
    | cons front oq =>
      by_cases service : front.destType = .service
      · simp [loop, Session.takeOverLoop, service, inductionHypothesis]
      · simp [loop, Session.takeOverLoop, service, inductionHypothesis]

/-- However many turns the loop is given, it does not pass a service message. -/
theorem takeOverLoop_ordinary {turns : Nat} {oq outQueue result : MsgQueue}
    (ended : Session.takeOverLoop turns oq outQueue = some result) :
    ∀ msg ∈ oq, msg.destType ≠ .service := by
  induction oq generalizing turns outQueue with
  | nil => simp
  | cons front oq inductionHypothesis =>
    by_cases service : front.destType = .service
    · rw [Session.takeOverLoop_service service] at ended
      cases ended
    · cases turns with
      | zero => simp [Session.takeOverLoop] at ended
      | succ turns =>
        simp only [Session.takeOverLoop, service, if_false] at ended
        exact List.forall_mem_cons.mpr ⟨service, inductionHypothesis ended⟩

theorem filter_ordinary {oq : MsgQueue} (ordinary : ∀ msg ∈ oq, msg.destType ≠ .service) :
    oq.filter (·.destType ≠ .service) = oq :=
  List.filter_eq_self.mpr fun msg member => by simpa using ordinary msg member

/-- Messages are appended to a queue and the old ones at its front dropped if it starts to be
written. -/
theorem append_accounts (now : Nat) (msgs : MsgQueue) (ss : Session) :
    ∃ gone, (ss.append now msgs).dropped = ss.dropped ++ gone ∧
      gone ++ (ss.append now msgs).outQueue = ss.outQueue ++ msgs := by
  unfold Session.append
  split
  next started =>
    refine ⟨msgs.takeWhile (·.expired now), ?_, by simp [started.2]⟩
    rcases Session.doWrite_cases now { ss with outQueue := msgs } with ⟨_, same⟩ | ⟨front, rest, _, same⟩
    · rw [same]
      rfl
    · rw [same]
      rfl
  next => exact ⟨[], by simp⟩

theorem movesQueue_iff {store : Sessions} {sid : SessionId} {oq : MsgQueue} :
    MovesQueue store sid oq ↔ ∀ msg ∈ oq, msg.destType ≠ .service := by
  constructor
  · rintro ⟨turns, left, outQueue, after, looped, rfl, _⟩
    exact takeOverLoop_ordinary (loop_ended.mp looped)
  · intro ordinary
    have ended := Session.takeOverLoop_eq_some.mpr
      ⟨ordinary, Eq.refl ((store.session sid).outQueue ++ oq)⟩
    have returned := Session.takeOverMessages_eq_some.mpr
      ⟨ordinary, Eq.refl ((store.session sid).append store.now oq)⟩
    refine ⟨oq.length, [], _, store.set sid ((store.session sid).append store.now oq),
      loop_ended.mpr ended, rfl, ?_, ?_, List.forall_mem_nil _⟩
    · rw [Sessions.takeOverQueue, returned]
    · rw [filter_ordinary ordinary]
      simpa using append_accounts store.now oq (store.session sid)

theorem movesSession_iff {store : Sessions} {sid os : SessionId} :
    MovesSession store sid os ↔ (store.session os).outQueue = [] ∨
      os ≠ sid ∧ ∀ msg ∈ (store.session os).outQueue, msg.destType ≠ .service := by
  constructor
  · rintro ⟨after, returned, _⟩
    unfold Sessions.takeOverSession at returned
    split at returned
    next own =>
      subst own
      split at returned
      next empty => exact .inl (List.isEmpty_iff.mp empty)
      next => cases returned
    next different =>
      unfold Sessions.takeOverQueue at returned
      split at returned
      next => cases returned
      next ss taken => exact .inr ⟨different, (Session.takeOverMessages_eq_some.mp taken).1⟩
  · intro possible
    by_cases own : os = sid
    · subst own
      have empty : (store.session os).outQueue = [] := by
        cases possible with
        | inl empty => exact empty
        | inr different => exact absurd rfl different.1
      refine ⟨store, by simp [Sessions.takeOverSession, empty], ⟨[], by simp [empty]⟩, by simp [empty]⟩
    · have ordinary : ∀ msg ∈ (store.session os).outQueue, msg.destType ≠ .service := by
        cases possible with
        | inl empty => simp [empty]
        | inr different => exact different.2
      have returned := Session.takeOverMessages_eq_some.mpr
        ⟨ordinary, Eq.refl ((store.session sid).append store.now (store.session os).outQueue)⟩
      refine ⟨_, by rw [Sessions.takeOverSession, if_neg own, Sessions.takeOverQueue, returned]; rfl,
        ?_, by simp⟩
      rw [filter_ordinary ordinary]
      simpa [Ne.symm own] using append_accounts store.now (store.session os).outQueue (store.session sid)

/-- A takeover moves everything that it should exactly if there is no service message in the queue; a
session has nothing to take over from itself. -/
theorem takeover_moves_iff (store : Sessions) (sid : SessionId) :
    (∀ oq, MovesQueue store sid oq ↔ ∀ msg ∈ oq, msg.destType ≠ .service) ∧
      ∀ os, MovesSession store sid os ↔ (store.session os).outQueue = [] ∨
        os ≠ sid ∧ ∀ msg ∈ (store.session os).outQueue, msg.destType ≠ .service :=
  ⟨fun _ => movesQueue_iff, fun _ => movesSession_iff⟩

/-- The messages of a session that is still writing its authentication cannot be taken over. -/
theorem started_session_not_taken_over :
    ∃ store, Sessions.start Json.compactJson ⟨"alpha", "userver"⟩ 1 0
        ⟨0, 0, fun _ => .new .incoming "127.0.0.1", []⟩ = .done store ∧ ¬ MovesSession store 1 0 := by
  refine ⟨_, rfl, ?_⟩
  rw [movesSession_iff]
  rintro (empty | ⟨_, ordinary⟩)
  · cases empty
  · exact ordinary _ List.mem_cons_self rfl

end Uzel.Verified.QueueTakeover
