import Uzel.Foundation.Runs
import Uzel.OutgoingManager

/-! # The reconnect loop

The manager looks at its hosts from a chain of timer waits: the handler of an expired wait does the
work and waits again.  `poke()` is meant to pull the next tick forward, but the task it posts only
sets a new expiry time.  That cancels the outstanding wait, and the handler of a cancelled wait
returns without waiting again.  `reconnect_runs_iff` says that the chain survives exactly as long as
every such task finds no wait outstanding.
-/

namespace Uzel.Verified.ReconnectLoop

open Foundation

/-- A wait on the timer is outstanding, or one that has expired is queued and will wait again. -/
def Alive (s : ManagerState) : Prop :=
  0 < s.manager.timer.waiting ∨ true ∈ s.manager.timer.completions

/-- A task posted by `poke()` runs only while no wait is outstanding. -/
def PokesBetween (s : ManagerState) : ManagerEvent → Prop
  | .pokeTask => s.manager.timer.waiting = 0
  | _ => True

/-- The chain is one wait at a time. -/
def Chain (s : ManagerState) : Prop := s.manager.timer.alive = 1

theorem alive_iff {s : ManagerState} : Alive s ↔ 0 < s.manager.timer.alive := by
  unfold Alive Timer.alive
  rw [← List.count_pos_iff]
  omega

theorem chain_scheduleNext {manager : OutgoingManager} (now delay : Nat)
    (handled : manager.timer.completions.count true = 0) :
    (manager.scheduleNext now delay).timer.alive = 1 := by
  show (manager.timer.expiresAfter now delay).asyncWait.alive = 1
  rw [Timer.alive_asyncWait, Timer.alive_expiresAfter, handled]

theorem chain_step {s t : ManagerState} {e : ManagerEvent} (chain : Chain s) (next : s.step e = some t)
    (between : PokesBetween s e) : Chain t := by
  unfold Chain at chain ⊢
  cases e with
  | tick elapsed => cases next; exact chain
  | fire =>
    obtain ⟨timer, fires, rfl⟩ := Option.map_eq_some_iff.mp next
    exact (Timer.alive_fire fires).trans chain
  | onTimer i =>
    obtain ⟨ok, queued, rfl⟩ := Option.map_eq_some_iff.mp next
    have counted := Timer.count_eraseIdx_completion queued
    unfold Timer.alive at chain
    cases ok with
    | true =>
      -- the one completion of the chain runs, so nothing else is left of it
      simp only [OutgoingManager.onTimer, if_true] at counted ⊢
      apply chain_scheduleNext
      simp only [OutgoingManager.startConnecting_timer]
      omega
    | false =>
      simp only [OutgoingManager.onTimer, Timer.alive, Bool.false_eq_true, if_false] at counted ⊢
      omega
  | pokeTask =>
    simp only [ManagerState.step] at next
    split at next
    · cases next
      have quiet : s.manager.timer.waiting = 0 := between
      show (s.manager.timer.expiresAfter s.now 0).alive = 1
      rw [Timer.alive_expiresAfter]
      unfold Timer.alive at chain
      omega
    · cases next
  | resolved i answer =>
    obtain ⟨hname, _, rfl⟩ := Option.map_eq_some_iff.mp next
    simpa using chain
  | sessionClosed hname => cases next; exact chain

/-- A task that finds the wait outstanding cancels it, and nothing starts another one. -/
theorem dead_step {s t : ManagerState} {e : ManagerEvent} (chain : Chain s) (next : s.step e = some t)
    (pulled : ¬ PokesBetween s e) : ¬ Alive t := by
  cases e with
  | tick _ | fire | onTimer _ | resolved _ _ | sessionClosed _ => exact absurd trivial pulled
  | pokeTask =>
    simp only [ManagerState.step] at next
    split at next
    · cases next
      rw [alive_iff]
      show ¬ 0 < (s.manager.timer.expiresAfter s.now 0).alive
      rw [Timer.alive_expiresAfter]
      have outstanding : s.manager.timer.waiting ≠ 0 := pulled
      unfold Chain Timer.alive at chain
      omega
    · cases next

/-- After `start()` the runs of a manager that keep the loop alive are exactly those in which no task
of `poke()` runs while a wait is outstanding. -/
theorem reconnect_runs_iff (now : Nat) (config : UConfig) (port wantedConnections : Nat)
    (hosts : List String) (events : List ManagerEvent) :
    Always ManagerState.step Alive
        ⟨now, (hosts.foldl (fun manager hname => manager.addHost config now hname)
          (OutgoingManager.new port wantedConnections)).start now⟩ events ↔
      Meets ManagerState.step PokesBetween
        ⟨now, (hosts.foldl (fun manager hname => manager.addHost config now hname)
          (OutgoingManager.new port wantedConnections)).start now⟩ events := by
  apply @always_iff_meets _ _ _ Chain
  · intro s chain
    rw [alive_iff, chain]
    exact Nat.one_pos
  · exact chain_step
  · exact dead_step
  · have fresh : (hosts.foldl (fun manager hname => manager.addHost config now hname)
        (OutgoingManager.new port wantedConnections)).timer = .idle :=
      @OutgoingManager.addHosts_rule (fun manager => manager.timer = .idle) config now
        (fun _ _ idle _ => idle) (.new port wantedConnections) rfl hosts
    apply chain_scheduleNext
    simp [fresh, Timer.idle]

/-- The host `beta` cannot be resolved: the error pokes the manager while it waits for its next tick,
and the loop is dead. -/
theorem resolving_error_ends_loop :
    ¬ Always ManagerState.step Alive
      ⟨0, ((OutgoingManager.new 32300 2).addHost ⟨"alpha", "userver"⟩ 0 "beta").start 0⟩
      [.fire, .onTimer 0, .resolved 0 none, .pokeTask] := by
  intro always
  have reached : exec ManagerState.step
      ⟨0, ((OutgoingManager.new 32300 2).addHost ⟨"alpha", "userver"⟩ 0 "beta").start 0⟩
      [.fire, .onTimer 0, .resolved 0 none, .pokeTask] = some _ := rfl
  rcases always.last reached with waiting | queued
  · exact absurd waiting (by decide)
  · exact absurd queued (by decide)

end Uzel.Verified.ReconnectLoop
