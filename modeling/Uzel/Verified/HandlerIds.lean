import Uzel.Registry
import Mathlib.Algebra.Group.Nat.Defs
import Mathlib.Data.List.Nodup
import Mathlib.Data.List.Range

/-! # The ids of handlers

`registerHandler` and `registerAnyPost` return the id under which they store the handler.  The id is a
number of the dispatcher only if the task that takes it runs before the call returns.  `ids_iff` says
that the ids are good exactly if every registration is made while the `io_context` runs, and there are
fewer of them than numbers.
-/

namespace Uzel.Verified.HandlerIds

variable {η : Type*}

/-- The handlers are, or will be, stored under the ids that have been returned, which are different
from each other and not zero. -/
structure Identified (s : Registrar η) : Prop where
  stored : ∀ list, s.registry.stored list ++ list.select (s.tasks.filterMap RegistryTask.stores) =
    list.select s.returned
  distinct : (s.returned.map (·.2.1)).Nodup
  nonzero : ∀ registration ∈ s.returned, registration.2.1 ≠ 0

/-- The `io_context` runs when a handler is registered. -/
def RegisteredRunning (events : List (RegistrarEvent η)) : Prop :=
  ∀ earlier list handler later, events = earlier ++ .register list handler :: later → .run ∈ earlier

def isRegistration : RegistrarEvent η → Bool
  | .register _ _ => true
  | .run => false

theorem after_append (garbage : Nat → HandlerId) (events : List (RegistrarEvent η))
    (e : RegistrarEvent η) : Registrar.after garbage (events ++ [e]) =
      (Registrar.after garbage events).step garbage e := by
  rw [Registrar.after, List.foldl_append]
  rfl

theorem ioRuns_iff (garbage : Nat → HandlerId) (events : List (RegistrarEvent η)) :
    (Registrar.after garbage events).ioRuns = true ↔ .run ∈ events := by
  induction events using List.reverseRecOn with
  | nil => simp [Registrar.after, Registrar.initial]
  | append_singleton events e inductionHypothesis =>
    rw [after_append, List.mem_append, List.mem_singleton, ← inductionHypothesis]
    cases e with
    | run => simp [Registrar.step, Registrar.run]
    | register list handler =>
      cases runs : (Registrar.after garbage events).ioRuns with
      | false => simp [Registrar.step, Registrar.register_waiting runs, runs]
      | true => simp [Registrar.step, Registrar.register_running runs, runs]

theorem returned_step (garbage : Nat → HandlerId) (s : Registrar η) (e : RegistrarEvent η) :
    s.returned <+: (s.step garbage e).returned := by
  cases e with
  | run => exact List.prefix_refl _
  | register list handler =>
    cases runs : s.ioRuns with
    | false =>
      rw [Registrar.step, Registrar.register_waiting runs]
      exact List.prefix_append _ _
    | true =>
      rw [Registrar.step, Registrar.register_running runs]
      exact List.prefix_append _ _

/-- What has been returned stays returned. -/
theorem returned_later (garbage : Nat → HandlerId) (events later : List (RegistrarEvent η)) :
    (Registrar.after garbage events).returned <+: (Registrar.after garbage (events ++ later)).returned := by
  induction later using List.reverseRecOn with
  | nil => simp
  | append_singleton later e inductionHypothesis =>
    rw [← List.append_assoc, after_append]
    exact inductionHypothesis.trans (returned_step garbage _ e)

/-- With nothing on the strand, the ids are the numbers from one on. -/
structure Counted (s : Registrar η) : Prop where
  tasks : s.tasks = []
  nextId : s.registry.nextId = BitVec.ofNat 64 (s.returned.length + 1)
  ids : s.returned.map (·.2.1) = (List.range s.returned.length).map fun n => BitVec.ofNat 64 (n + 1)
  stored : ∀ list, s.registry.stored list = list.select s.returned

theorem counted_register {s : Registrar η} (counted : Counted s) (runs : s.ioRuns = true)
    (garbage : Nat → HandlerId) (list : HandlerList) (handler : η) :
    Counted (s.register garbage list handler) := by
  rw [Registrar.register_running runs]
  refine ⟨counted.tasks, ?_, ?_, ?_⟩
  · have next : (s.registry.takeId.2.store list s.registry.nextId handler).nextId =
        s.registry.nextId + 1 := by
      cases list <;> rfl
    rw [next, counted.nextId, List.length_append, List.length_singleton]
    exact (BitVec.ofNat_add (s.returned.length + 1) 1).symm
  · simp [counted.ids, counted.nextId, List.range_succ]
  · intro other
    simp only [Registry.stored_store, Registry.stored_takeId, counted.stored, HandlerList.select_append,
      HandlerList.select_singleton]
    by_cases same : other = list
    · subst same
      simp
    · simp [same]

/-- Registrations that are made while the `io_context` runs are counted. -/
theorem counted_after (garbage : Nat → HandlerId) {events : List (RegistrarEvent η)}
    (running : RegisteredRunning events) : Counted (Registrar.after garbage events) ∧
      (Registrar.after garbage events).returned.length = events.countP isRegistration := by
  induction events using List.reverseRecOn with
  | nil => exact ⟨⟨rfl, rfl, rfl, fun list => Registry.stored_empty list⟩, rfl⟩
  | append_singleton events e inductionHypothesis =>
    have earlier : RegisteredRunning events := by
      intro first list handler later split
      exact running first list handler (later ++ [e]) (by simp [split])
    obtain ⟨counted, length⟩ := inductionHypothesis earlier
    rw [after_append]
    cases e with
    | run =>
      have same : (Registrar.after garbage events).step garbage .run =
          { Registrar.after garbage events with ioRuns := true } := by
        simp [Registrar.step, Registrar.run, counted.tasks]
      rw [same]
      exact ⟨⟨counted.tasks, counted.nextId, counted.ids, counted.stored⟩, by simp [length, isRegistration]⟩
    | register list handler =>
      have runs := (ioRuns_iff garbage events).mpr (running events list handler [] rfl)
      refine ⟨counted_register counted runs garbage list handler, ?_⟩
      simp [Registrar.step, Registrar.register_running runs, length, isRegistration]

theorem Counted.identified {s : Registrar η} (counted : Counted s)
    (few : s.returned.length < 2 ^ 64) : Identified s := by
  refine ⟨?_, ?_, ?_⟩
  · intro list
    simp [counted.tasks, counted.stored, HandlerList.select]
  · rw [counted.ids]
    apply List.Nodup.map_on _ List.nodup_range
    intro first isFirst second isSecond same
    rw [List.mem_range] at isFirst isSecond
    have same := congrArg BitVec.toNat same
    rw [BitVec.toNat_ofNat, BitVec.toNat_ofNat] at same
    omega
  · intro registration member zero
    have isId : registration.2.1 ∈ s.returned.map (·.2.1) := List.mem_map_of_mem member
    rw [counted.ids, zero, List.mem_map] at isId
    obtain ⟨n, inRange, isZero⟩ := isId
    rw [List.mem_range] at inRange
    have isZero := congrArg BitVec.toNat isZero
    rw [BitVec.toNat_ofNat] at isZero
    change (n + 1) % 2 ^ 64 = 0 at isZero
    omega

/-- The counter comes back to zero. -/
theorem Counted.few {s : Registrar η} (counted : Counted s) (identified : Identified s) :
    s.returned.length < 2 ^ 64 := by
  by_contra many
  have zero : (0 : HandlerId) ∈ s.returned.map (·.2.1) := by
    rw [counted.ids, List.mem_map]
    refine ⟨2 ^ 64 - 1, List.mem_range.mpr (by omega), ?_⟩
    apply BitVec.eq_of_toNat_eq
    simp
  obtain ⟨registration, member, isZero⟩ := List.mem_map.mp zero
  exact identified.nonzero registration member isZero

/-- Whatever value the variables for the ids are created with, the ids that are returned are good,
exactly if every handler is registered while the `io_context` runs and there are fewer than `2 ^ 64`
of them. -/
theorem ids_iff (events : List (RegistrarEvent η)) :
    (∀ garbage, Identified (Registrar.after garbage events)) ↔
      RegisteredRunning events ∧ events.countP isRegistration < 2 ^ 64 := by
  constructor
  · intro identified
    have running : RegisteredRunning events := by
      intro earlier list handler later split
      by_contra notRunning
      have waits : (Registrar.after (fun _ => (0 : HandlerId)) earlier).ioRuns = false := by
        rw [← Bool.not_eq_true, ioRuns_iff]
        exact notRunning
      -- the variable is created as zero, and zero is returned
      have returned : (list, (0 : HandlerId), handler) ∈
          (Registrar.after (fun _ => (0 : HandlerId)) (earlier ++ [.register list handler])).returned := by
        rw [after_append, Registrar.step, Registrar.register_waiting waits]
        simp
      have still := (returned_later (fun _ => (0 : HandlerId)) (earlier ++ [.register list handler])
        later).subset returned
      rw [List.append_assoc, List.singleton_append, ← split] at still
      exact (identified fun _ => 0).nonzero _ still rfl
    obtain ⟨counted, length⟩ := counted_after (fun _ => 0) running
    exact ⟨running, length ▸ counted.few (identified fun _ => 0)⟩
  · rintro ⟨running, few⟩ garbage
    obtain ⟨counted, length⟩ := counted_after garbage running
    exact counted.identified (length.symm ▸ few)

/-- The constructor of a server registers its two handlers before `io_context::run()`; with variables
that are created as zero both get the id zero. -/
theorem server_handlers_not_identified :
    ¬ Identified (Registrar.after (fun _ => 0)
      [.register (.named "priority") "handlePriorityMsg", .register .anyPost "handleAny", .run]) := by
  intro identified
  exact identified.nonzero (.anyPost, 0, "handleAny") (by simp [Registrar.after, Registrar.step,
    Registrar.register, Registrar.nextIdOnStrand, Registrar.initial, Registrar.run]) rfl

end Uzel.Verified.HandlerIds
