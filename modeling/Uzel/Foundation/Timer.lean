import Mathlib.Data.List.Count

/-! # Waitable timers

A timer has an expiry time, a number of outstanding waits and a queue of completions whose handlers
have not run yet.  When the timer expires, every outstanding wait completes without an error.  Setting
a new expiry time cancels the outstanding waits, which then complete with an error, and starts none;
a completion that is already queued stays as it is.
-/

namespace Uzel.Foundation

structure Timer where
  expiry : Nat
  waiting : Nat
  /-- queued completions, true for one without error -/
  completions : List Bool
deriving DecidableEq, Repr

namespace Timer

def idle : Timer := ⟨0, 0, []⟩

def expiresAfter (now delay : Nat) (timer : Timer) : Timer :=
  ⟨now + delay, 0, timer.completions ++ List.replicate timer.waiting false⟩

def asyncWait (timer : Timer) : Timer := { timer with waiting := timer.waiting + 1 }

/-- The expiry of a timer on which something waits. -/
def fire (now : Nat) (timer : Timer) : Option Timer :=
  if timer.expiry ≤ now ∧ 0 < timer.waiting then
    some ⟨timer.expiry, 0, timer.completions ++ List.replicate timer.waiting true⟩
  else none

/-- The number of waits that will end, or have ended, without an error. -/
def alive (timer : Timer) : Nat := timer.waiting + timer.completions.count true

/-- The number of waits whose handlers have not run yet. -/
def outstanding (timer : Timer) : Nat := timer.waiting + timer.completions.length

theorem alive_expiresAfter (now delay : Nat) (timer : Timer) :
    (timer.expiresAfter now delay).alive = timer.completions.count true := by
  simp [alive, expiresAfter, List.count_replicate]

theorem alive_asyncWait (timer : Timer) : timer.asyncWait.alive = timer.alive + 1 := by
  simp only [alive, asyncWait]
  omega

theorem alive_fire {now : Nat} {timer fired : Timer} (fires : timer.fire now = some fired) :
    fired.alive = timer.alive := by
  unfold fire at fires
  split at fires
  · cases fires
    simp only [alive, List.count_append, List.count_replicate_self]
    omega
  · cases fires

theorem outstanding_expiresAfter (now delay : Nat) (timer : Timer) :
    (timer.expiresAfter now delay).outstanding = timer.outstanding := by
  simp only [outstanding, expiresAfter, List.length_append, List.length_replicate]
  omega

theorem outstanding_asyncWait (timer : Timer) : timer.asyncWait.outstanding = timer.outstanding + 1 := by
  simp only [outstanding, asyncWait]
  omega

theorem outstanding_fire {now : Nat} {timer fired : Timer} (fires : timer.fire now = some fired) :
    fired.outstanding = timer.outstanding := by
  unfold fire at fires
  split at fires
  · cases fires
    simp only [outstanding, List.length_append, List.length_replicate]
    omega
  · cases fires

theorem expiry_fire {now : Nat} {timer fired : Timer} (fires : timer.fire now = some fired) :
    fired.expiry = timer.expiry ∧ timer.expiry ≤ now := by
  unfold fire at fires
  split at fires
  next expired =>
    cases fires
    exact ⟨rfl, expired.1⟩
  next => cases fires

/-- The handler of a queued completion starts. -/
theorem count_eraseIdx_completion {completions : List Bool} {i : Nat} {ok : Bool}
    (queued : completions[i]? = some ok) :
    (completions.eraseIdx i).count true + (if ok then 1 else 0) = completions.count true := by
  induction completions generalizing i with
  | nil => simp at queued
  | cons first rest inductionHypothesis =>
    cases i with
    | zero =>
      simp only [List.getElem?_cons_zero, Option.some.injEq] at queued
      subst queued
      cases first <;> simp
    | succ i =>
      have later := inductionHypothesis (by simpa using queued)
      simp only [List.eraseIdx_cons_succ, List.count_cons]
      omega

end Timer

end Uzel.Foundation
