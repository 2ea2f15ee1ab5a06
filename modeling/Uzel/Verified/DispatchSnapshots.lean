import Uzel.DispatchLoop
import Uzel.Foundation.Runs

/-! # A dispatch calls what was stored when it began

While a handler runs, the lists of handlers may change in any way, and other dispatches may begin and
end inside of it.  The loop that has called it holds a pointer to a vector that never changes, so it
calls the handlers of that vector, each once and in their order.  `dispatch_runs_snapshot` says so for
every run of a strand.
-/

namespace Uzel

open Foundation

variable {η : Type*}

namespace Frame

/-- What a dispatch has to call. -/
def due (frame : Frame η) : HandlerVec η := (if frame.toMe then frame.named else []) ++ frame.posts

/-- The vector of the current loop. -/
def snapshot (registry : Registry η) (frame : Frame η) : HandlerVec η :=
  match frame.vector with
  | none => []
  | some ptr => registry.deref ptr

/-- What an earlier loop has called. -/
def before (frame : Frame η) : HandlerVec η :=
  match frame.phase with
  | .per => []
  | .post => if frame.toMe then frame.named else []

/-- The loop is at its position in a vector of the handlers that it has to call. -/
structure Sound (registry : Registry η) (frame : Frame η) : Prop where
  made : ∀ ptr, frame.vector = some ptr → ptr < registry.heap.length
  called : frame.called = frame.before ++ (frame.snapshot registry).take frame.next
  due : frame.due = frame.before ++ frame.snapshot registry
  unposted : frame.phase = .per → frame.posts = []

theorem callNext_eq (registry : Registry η) (frame : Frame η) :
    frame.callNext registry = (frame.snapshot registry)[frame.next]?.map fun entry =>
      { frame with next := frame.next + 1, called := frame.called ++ [entry] } := by
  unfold callNext snapshot
  cases frame.vector with
  | none => rfl
  | some ptr => rfl

theorem Sound.next {registry : Registry η} {frame called : Frame η} (sound : frame.Sound registry)
    (calls : frame.callNext registry = some called) : called.Sound registry := by
  rw [callNext_eq, Option.map_eq_some_iff] at calls
  obtain ⟨entry, found, rfl⟩ := calls
  refine ⟨sound.made, ?_, sound.due, sound.unposted⟩
  show frame.called ++ [entry] = frame.before ++ (frame.snapshot registry).take (frame.next + 1)
  rw [sound.called, List.append_assoc, List.take_add_one, found]
  rfl

/-- A loop that finds no further handler has called all that are due. -/
theorem Sound.ended {registry : Registry η} {frame : Frame η} (sound : frame.Sound registry)
    (ends : frame.callNext registry = none) : frame.called = frame.due := by
  rw [callNext_eq, Option.map_eq_none_iff, List.getElem?_eq_none_iff] at ends
  rw [sound.called, sound.due, List.take_of_length_le ends]

theorem sound_start (registry : Registry η) (cname : String) (toMe : Bool) :
    (start registry cname toMe).Sound registry := by
  refine ⟨?_, by simp [start, before], ?_, fun _ => rfl⟩
  · intro ptr found
    cases toMe with
    | false => cases found
    | true => exact registry.handlers_made cname ptr found
  · cases toMe with
    | false => rfl
    | true => exact List.append_nil _

/-- The second loop begins when the first one has called everything. -/
theorem Sound.startPost {registry : Registry η} {frame : Frame η} (sound : frame.Sound registry)
    (per : frame.phase = .per) (ends : frame.callNext registry = none) :
    (frame.startPost registry).Sound registry := by
  have called := sound.ended ends
  rw [Frame.due, sound.unposted per, List.append_nil] at called
  refine ⟨registry.anyPost_made, ?_, rfl, fun other => by cases other⟩
  show frame.called = (if frame.toMe then frame.named else []) ++ []
  rw [List.append_nil, called]

/-- A vector that has been made stays as it is. -/
theorem Sound.kept {registry after : Registry η} {frame : Frame η} (sound : frame.Sound registry)
    (kept : registry.heap <+: after.heap) : frame.Sound after := by
  have same : frame.snapshot after = frame.snapshot registry := by
    unfold snapshot
    cases found : frame.vector with
    | none => rfl
    | some ptr => exact Registry.deref_of_prefix kept (sound.made ptr found)
  exact ⟨fun ptr found => Nat.lt_of_lt_of_le (sound.made ptr found) kept.length_le,
    same ▸ sound.called, same ▸ sound.due, sound.unposted⟩

end Frame

namespace Strand

/-- The handlers that have been registered in a list, in the order of their registrations. -/
def handlersOf (s : Strand η) (list : HandlerList) : HandlerVec η := list.select s.registered

/-- What a dispatch has found stored, in the order of the registrations. -/
structure Ordered (history : HandlerList → HandlerVec η) (frame : Frame η) : Prop where
  named : frame.named.Sublist (history (.named frame.cname))
  posts : frame.posts.Sublist (history .anyPost)

structure Invariant (s : Strand η) : Prop where
  finished : ∀ frame ∈ s.finished, frame.called = frame.due ∧ Ordered s.handlersOf frame
  running : ∀ frame ∈ s.running, frame.Sound s.registry ∧ Ordered s.handlersOf frame
  stored : ∀ list, (s.registry.stored list).Sublist (s.handlersOf list)

/-- The registry changes while the dispatches wait. -/
theorem Invariant.of_registry {s t : Strand η} (invariant : Invariant s)
    (finished : t.finished = s.finished) (running : t.running = s.running)
    (heap : s.registry.heap <+: t.registry.heap)
    (history : ∀ list, (s.handlersOf list).Sublist (t.handlersOf list))
    (stored : ∀ list, (t.registry.stored list).Sublist (t.handlersOf list)) : Invariant t := by
  have ordered : ∀ {frame}, Ordered s.handlersOf frame → Ordered t.handlersOf frame := fun ordered =>
    ⟨ordered.named.trans (history _), ordered.posts.trans (history _)⟩
  constructor
  · intro frame member
    obtain ⟨called, before⟩ := invariant.finished frame (finished ▸ member)
    exact ⟨called, ordered before⟩
  · intro frame member
    obtain ⟨sound, before⟩ := invariant.running frame (running ▸ member)
    exact ⟨sound.kept heap, ordered before⟩
  · exact stored

theorem invariant_register {s : Strand η} (invariant : Invariant s) (list : HandlerList) (handler : η) :
    Invariant (s.register list handler) := by
  have history : ∀ other, (s.register list handler).handlersOf other =
      s.handlersOf other ++ if other = list then [(s.registry.nextId, handler)] else [] := by
    simp [handlersOf, register, Registry.takeId]
  apply @Invariant.of_registry _ s (s.register list handler) invariant rfl rfl
    (Registry.heap_assign list _ s.registry.takeId.2)
  · intro other
    rw [history]
    exact List.sublist_append_left _ _
  · intro other
    rw [history]
    simp only [register, Registry.takeId, Registry.stored_store]
    by_cases same : other = list
    · subst same
      rw [if_pos rfl, if_pos rfl]
      exact (invariant.stored other).append (List.Sublist.refl _)
    · rw [if_neg same, if_neg same, List.append_nil]
      exact invariant.stored other

theorem invariant_withRegistry {s : Strand η} (invariant : Invariant s) {registry : Registry η}
    (heap : s.registry.heap <+: registry.heap)
    (stored : ∀ list, (registry.stored list).Sublist (s.registry.stored list)) :
    Invariant (s.withRegistry registry) :=
  @Invariant.of_registry _ s (s.withRegistry registry) invariant rfl rfl heap
    (fun _ => List.Sublist.refl _) fun list => (stored list).trans (invariant.stored list)

theorem invariant_remove {s : Strand η} (invariant : Invariant s) (list : HandlerList) (id : HandlerId) :
    Invariant (s.withRegistry (s.registry.remove list id)) := by
  apply invariant_withRegistry invariant (Registry.heap_remove list id s.registry)
  intro other
  rw [Registry.stored_remove]
  split
  next same => exact same ▸ List.filter_sublist
  next => exact List.Sublist.refl _

theorem invariant_reset {s : Strand η} (invariant : Invariant s) (list : HandlerList) :
    Invariant (s.withRegistry (s.registry.reset list)) := by
  apply invariant_withRegistry invariant
  · exact (Registry.heap_reset list s.registry).symm ▸ List.prefix_refl _
  · intro other
    rw [Registry.stored_reset]
    split
    next => exact List.nil_sublist _
    next => exact List.Sublist.refl _

/-! ## The loops -/

theorem invariant_wait {s : Strand η} (invariant : Invariant s) {frame : Frame η}
    (sound : frame.Sound s.registry) (ordered : Ordered s.handlersOf frame) : Invariant (s.wait frame) :=
  ⟨invariant.finished, List.forall_mem_cons.mpr ⟨⟨sound, ordered⟩, invariant.running⟩, invariant.stored⟩

theorem invariant_finish {s : Strand η} (invariant : Invariant s) {frame : Frame η}
    (called : frame.called = frame.due) (ordered : Ordered s.handlersOf frame) : Invariant (s.finish frame) := by
  refine ⟨?_, invariant.running, invariant.stored⟩
  intro other member
  cases List.mem_append.mp member with
  | inl before => exact invariant.finished other before
  | inr isNew =>
    rw [List.mem_singleton.mp isNew]
    exact ⟨called, ordered⟩

/-- The calls of a loop change nothing but its position. -/
theorem Ordered.next {s : Strand η} {registry : Registry η} {frame called : Frame η}
    (ordered : Ordered s.handlersOf frame) (calls : frame.callNext registry = some called) :
    Ordered s.handlersOf called := by
  obtain ⟨entry, -, rfl⟩ := Option.map_eq_some_iff.mp calls
  exact ⟨ordered.named, ordered.posts⟩

theorem invariant_runPost {s : Strand η} (invariant : Invariant s) {frame : Frame η}
    (sound : frame.Sound s.registry) (ordered : Ordered s.handlersOf frame) : Invariant (s.runPost frame) := by
  unfold runPost
  cases calls : frame.callNext s.registry with
  | none => exact invariant_finish invariant (sound.ended calls) ordered
  | some called => exact invariant_wait invariant (sound.next calls) (ordered.next calls)

theorem invariant_run {s : Strand η} (invariant : Invariant s) {frame : Frame η}
    (sound : frame.Sound s.registry) (ordered : Ordered s.handlersOf frame) : Invariant (s.run frame) := by
  unfold run
  cases phase : frame.phase with
  | per =>
    cases calls : frame.callNext s.registry with
    | none =>
      exact invariant_runPost invariant (sound.startPost phase calls)
        ⟨ordered.named, invariant.stored .anyPost⟩
    | some called => exact invariant_wait invariant (sound.next calls) (ordered.next calls)
  | post => exact invariant_runPost invariant sound ordered

theorem invariant_step {s t : Strand η} {e : StrandEvent η} (invariant : Invariant s)
    (next : s.step e = some t) : Invariant t := by
  cases e with
  | registerHandler cname handler =>
    cases next
    exact invariant_register invariant _ handler
  | registerAnyPost handler =>
    cases next
    exact invariant_register invariant _ handler
  | disconnect cname id =>
    cases next
    unfold Registry.disconnectImpl
    split
    · exact invariant_remove invariant (.named cname) id
    · exact invariant_remove invariant .anyPost id
  | unregisterAll cname =>
    cases next
    exact invariant_reset invariant (.named cname)
  | clearAnyPost =>
    cases next
    exact invariant_reset invariant .anyPost
  | dispatch msg =>
    simp only [step] at next
    split at next
    · cases next
      exact invariant
    next cname _ =>
      cases next
      exact invariant_run invariant (Frame.sound_start s.registry cname msg.toMe)
        ⟨invariant.stored (.named cname), List.nil_sublist _⟩
  | handlerEnds raised =>
    simp only [step] at next
    split at next
    · cases next
    next frame outer isRunning =>
      cases next
      obtain ⟨⟨sound, ordered⟩, others⟩ := List.forall_mem_cons.mp (isRunning ▸ invariant.running)
      have waiting : Invariant { s with running := outer } :=
        ⟨invariant.finished, others, invariant.stored⟩
      exact invariant_run waiting sound ⟨ordered.named, ordered.posts⟩

/-- The first handler removes the second one and raises; the dispatch calls it nevertheless. -/
example : (exec step (initial : Strand String)
    [.registerHandler "ping" "first", .registerHandler "ping" "second",
      .dispatch (.outgoing ⟨"alpha", "uecho"⟩ .none "ping" .empty),
      .disconnect "ping" 2, .handlerEnds true, .handlerEnds false]).map
    (fun s => (s.finished.map (·.called.map Prod.snd), (s.registry.stored (.named "ping")).map Prod.snd)) =
      some ([["first", "second"]], ["first"]) := by
  decide

end Strand

end Uzel
