import Mathlib.Logic.Function.Basic

/-! # The handlers of a dispatcher (`dispatcher.h`, `dispatcher.cpp`)

`MsgDispatcher` has one list of handlers for each name and one for all messages.  A list is a pointer
to a vector that is never changed: to add or to remove a handler is to make a new vector and to
exchange the pointer, so that a loop over the old vector is not disturbed.

The heap holds all vectors that have been made.  They are shared pointers, so a vector outlives the
loops over it, and nothing is said here about when it is freed.
-/

namespace Uzel

/-- `MsgDispatcher::Id` -/
abbrev HandlerId := BitVec 64

/-- `HandlerVec` and `HandlerShrVec`, which differ in how a handler is given the message. -/
abbrev HandlerVec (η : Type*) := List (HandlerId × η)

/-- `HandlerVecPtr` and `HandlerShrVecPtr` -/
abbrev VectorPtr := Nat

/-- The handlers for a name, or those for all messages. -/
inductive HandlerList where
  | named (cname : String)
  | anyPost
deriving DecidableEq, Repr

/-- The entries for one list, in their order. -/
def HandlerList.select {η : Type*} (list : HandlerList) (entries : List (HandlerList × HandlerId × η)) :
    HandlerVec η :=
  entries.filterMap fun entry => if entry.1 = list then some entry.2 else none

@[simp] theorem HandlerList.select_append {η : Type*} (list : HandlerList)
    (first second : List (HandlerList × HandlerId × η)) :
    list.select (first ++ second) = list.select first ++ list.select second :=
  List.filterMap_append

@[simp] theorem HandlerList.select_singleton {η : Type*} (list other : HandlerList)
    (entry : HandlerId × η) :
    list.select [(other, entry)] = if list = other then [entry] else [] := by
  by_cases same : list = other
  · simp [select, same]
  · simp [select, same, Ne.symm same]

/-- The members of `MsgDispatcher`; its pointers lead to vectors that have been made. -/
structure Registry (η : Type*) where
  heap : List (HandlerVec η)
  handlers : String → Option VectorPtr
  anyPost : Option VectorPtr
  nextId : HandlerId
  handlers_made : ∀ cname ptr, handlers cname = some ptr → ptr < heap.length
  anyPost_made : ∀ ptr, anyPost = some ptr → ptr < heap.length

namespace Registry

variable {η : Type*}

/-- The constructor of `MsgDispatcher`. -/
def empty : Registry η where
  heap := []
  handlers _ := none
  anyPost := none
  nextId := 1
  handlers_made _ _ found := by cases found
  anyPost_made _ found := by cases found

def vector (registry : Registry η) : HandlerList → Option VectorPtr
  | .named cname => registry.handlers cname
  | .anyPost => registry.anyPost

def deref (registry : Registry η) (ptr : VectorPtr) : HandlerVec η := registry.heap[ptr]?.getD []

/-- The handlers of a list, in the order of the vector. -/
def stored (registry : Registry η) (list : HandlerList) : HandlerVec η :=
  match registry.vector list with
  | none => []
  | some ptr => registry.deref ptr

theorem vector_made (registry : Registry η) {list : HandlerList} {ptr : VectorPtr}
    (found : registry.vector list = some ptr) : ptr < registry.heap.length := by
  cases list with
  | named cname => exact registry.handlers_made cname ptr found
  | anyPost => exact registry.anyPost_made ptr found

theorem made_append {heap : List (HandlerVec η)} {ptr : VectorPtr} (made : ptr < heap.length)
    (newv : HandlerVec η) : ptr < (heap ++ [newv]).length := by
  rw [List.length_append]
  exact Nat.lt_add_right _ made

theorem made_last (heap : List (HandlerVec η)) (newv : HandlerVec η) :
    heap.length < (heap ++ [newv]).length := by
  rw [List.length_append]
  exact Nat.lt_succ_self _

/-- `entry = std::make_shared<const HandlerVec>(newv)` -/
def assign (list : HandlerList) (newv : HandlerVec η) (registry : Registry η) : Registry η :=
  match list with
  | .named cname =>
    { registry with
      heap := registry.heap ++ [newv]
      handlers := Function.update registry.handlers cname (some registry.heap.length)
      handlers_made := by
        intro other ptr found
        by_cases same : other = cname
        · rw [same, Function.update_self, Option.some.injEq] at found
          exact found ▸ made_last registry.heap newv
        · rw [Function.update_of_ne same] at found
          exact made_append (registry.handlers_made other ptr found) newv
      anyPost_made ptr found := made_append (registry.anyPost_made ptr found) newv }
  | .anyPost =>
    { registry with
      heap := registry.heap ++ [newv]
      anyPost := some registry.heap.length
      handlers_made cname ptr found := made_append (registry.handlers_made cname ptr found) newv
      anyPost_made ptr found := Option.some.inj found ▸ made_last registry.heap newv }

/-- `m_handlers.erase(cname)` and `m_anyPost.reset()` -/
def reset (list : HandlerList) (registry : Registry η) : Registry η :=
  match list with
  | .named cname =>
    { registry with
      handlers := Function.update registry.handlers cname none
      handlers_made := by
        intro other ptr found
        by_cases same : other = cname
        · rw [same, Function.update_self] at found
          cases found
        · rw [Function.update_of_ne same] at found
          exact registry.handlers_made other ptr found }
  | .anyPost =>
    { registry with
      anyPost := none
      anyPost_made := by
        intro ptr found
        cases found }

/-- The task of `nextIdOnStrand`: `m_nextId++`. -/
def takeId (registry : Registry η) : HandlerId × Registry η :=
  (registry.nextId, { registry with nextId := registry.nextId + 1 })

/-- The tasks of `registerHandler` and of `registerAnyPost`. -/
def store (list : HandlerList) (id : HandlerId) (handler : η) (registry : Registry η) : Registry η :=
  registry.assign list (registry.stored list ++ [(id, handler)])

/-- A branch of `disconnectImpl`. -/
def remove (list : HandlerList) (id : HandlerId) (registry : Registry η) : Registry η :=
  match registry.vector list with
  | none => registry
  | some ptr =>
    let nv := (registry.deref ptr).filter (·.1 ≠ id)
    if nv.isEmpty then registry.reset list else registry.assign list nv

/-- The task of `disconnectImpl`; the empty name stands for the handlers of all messages. -/
def disconnectImpl (cname : String) (id : HandlerId) (registry : Registry η) : Registry η :=
  if cname ≠ "" then registry.remove (.named cname) id else registry.remove .anyPost id

def unregisterAll (cname : String) (registry : Registry η) : Registry η := registry.reset (.named cname)

def clearAnyPost (registry : Registry η) : Registry η := registry.reset .anyPost

/-! ## What is stored -/

@[simp] theorem stored_empty (list : HandlerList) : (empty : Registry η).stored list = [] := by
  cases list <;> rfl

@[simp] theorem stored_takeId (registry : Registry η) (list : HandlerList) :
    registry.takeId.2.stored list = registry.stored list := by
  cases list <;> rfl

theorem deref_append {registry : Registry η} {newv : HandlerVec η} {ptr : VectorPtr}
    (made : ptr < registry.heap.length) :
    (registry.heap ++ [newv])[ptr]?.getD [] = registry.deref ptr := by
  rw [List.getElem?_append_left made]
  rfl

theorem stored_eq (registry : Registry η) (list : HandlerList) :
    registry.stored list = match registry.vector list with
      | none => []
      | some ptr => registry.deref ptr := rfl

/-- The vector that the new pointer leads to. -/
theorem stored_assign (list other : HandlerList) (newv : HandlerVec η) (registry : Registry η) :
    (registry.assign list newv).stored other = if other = list then newv else registry.stored other := by
  by_cases same : other = list
  · subst same
    cases other <;> simp [stored, vector, assign, deref]
  · have kept : (registry.assign list newv).vector other = registry.vector other := by
      cases list <;> cases other <;> simp_all [vector, assign]
    rw [if_neg same, stored, kept, stored_eq]
    cases found : registry.vector other with
    | none => rfl
    | some ptr =>
      have made := registry.vector_made found
      cases list <;> exact deref_append made

theorem stored_reset (list other : HandlerList) (registry : Registry η) :
    (registry.reset list).stored other = if other = list then [] else registry.stored other := by
  by_cases same : other = list
  · subst same
    cases other <;> simp [stored, vector, reset]
  · cases list <;> cases other <;> simp_all [stored, vector, reset, deref]

@[simp] theorem stored_store (list other : HandlerList) (id : HandlerId) (handler : η)
    (registry : Registry η) : (registry.store list id handler).stored other =
      if other = list then registry.stored list ++ [(id, handler)] else registry.stored other :=
  stored_assign list other _ registry

@[simp] theorem stored_remove (list other : HandlerList) (id : HandlerId) (registry : Registry η) :
    (registry.remove list id).stored other =
      if other = list then (registry.stored list).filter (·.1 ≠ id) else registry.stored other := by
  unfold remove
  rw [stored_eq registry list]
  cases found : registry.vector list with
  | none =>
    by_cases same : other = list
    · subst same
      simp [stored, found]
    · simp [same]
  | some ptr =>
    dsimp only
    split
    next gone =>
      rw [stored_reset, List.isEmpty_iff.mp gone]
    next => rw [stored_assign]

/-- A new vector leaves those that have been made before alone. -/
theorem heap_assign (list : HandlerList) (newv : HandlerVec η) (registry : Registry η) :
    registry.heap <+: (registry.assign list newv).heap := by
  cases list <;> exact List.prefix_append _ _

theorem heap_reset (list : HandlerList) (registry : Registry η) :
    (registry.reset list).heap = registry.heap := by
  cases list <;> rfl

theorem heap_remove (list : HandlerList) (id : HandlerId) (registry : Registry η) :
    registry.heap <+: (registry.remove list id).heap := by
  unfold remove
  split
  · exact List.prefix_refl _
  · dsimp only
    split
    · exact heap_reset list registry ▸ List.prefix_refl _
    · exact heap_assign list _ registry

theorem deref_of_prefix {before after : Registry η} (kept : before.heap <+: after.heap) {ptr : VectorPtr}
    (made : ptr < before.heap.length) : after.deref ptr = before.deref ptr := by
  obtain ⟨later, same⟩ := kept
  rw [deref, ← same, List.getElem?_append_left made]
  rfl

end Registry

/-! ## Registration on any thread

`boost::asio::dispatch` runs a task at once on the thread that runs the `io_context`, and queues it
otherwise.  `nextIdOnStrand` returns a local variable that the task assigns: if the task has been
queued, the variable still has the value that it was created with, which may be any. -/

/-- A task that waits on the strand.  By the time it runs, the variable for a new id is gone. -/
inductive RegistryTask (η : Type*) where
  | takeId
  | store (list : HandlerList) (id : HandlerId) (handler : η)

/-- The dispatcher with what waits on its strand.  `returned` is history: for each registration the
list, the id in the `Connection` that has been returned, and the handler. -/
structure Registrar (η : Type*) where
  registry : Registry η
  ioRuns : Bool
  tasks : List (RegistryTask η)
  returned : List (HandlerList × HandlerId × η)

/-- `registerHandler` or `registerAnyPost` is called, or `io_context::run()` starts. -/
inductive RegistrarEvent (η : Type*) where
  | register (list : HandlerList) (handler : η)
  | run

namespace RegistryTask

def perform {η : Type*} (registry : Registry η) : RegistryTask η → Registry η
  | .takeId => registry.takeId.2
  | .store list id handler => registry.store list id handler

/-- What the task will store. -/
def stores {η : Type*} : RegistryTask η → Option (HandlerList × HandlerId × η)
  | .takeId => none
  | .store list id handler => some (list, id, handler)

end RegistryTask

namespace Registrar

variable {η : Type*}

def initial : Registrar η := ⟨.empty, false, [], []⟩

/-- `garbage` gives the variable of each call its first value. -/
def nextIdOnStrand (garbage : Nat → HandlerId) (s : Registrar η) : HandlerId × Registrar η :=
  if s.ioRuns then
    let (id, registry) := s.registry.takeId
    (id, { s with registry })
  else (garbage s.returned.length, { s with tasks := s.tasks ++ [.takeId] })

def register (garbage : Nat → HandlerId) (list : HandlerList) (handler : η) (s : Registrar η) :
    Registrar η :=
  let (id, s) := s.nextIdOnStrand garbage
  let s :=
    if s.ioRuns then { s with registry := s.registry.store list id handler }
    else { s with tasks := s.tasks ++ [.store list id handler] }
  { s with returned := s.returned ++ [(list, id, handler)] }

/-- The queued tasks run in their order. -/
def run (s : Registrar η) : Registrar η :=
  { s with registry := s.tasks.foldl RegistryTask.perform s.registry, ioRuns := true, tasks := [] }

def step (garbage : Nat → HandlerId) (s : Registrar η) : RegistrarEvent η → Registrar η
  | .register list handler => s.register garbage list handler
  | .run => s.run

/-- The state after a sequence of calls. -/
def after (garbage : Nat → HandlerId) (events : List (RegistrarEvent η)) : Registrar η :=
  events.foldl (step garbage) initial

theorem register_running {s : Registrar η} (runs : s.ioRuns = true) (garbage : Nat → HandlerId)
    (list : HandlerList) (handler : η) : s.register garbage list handler =
      { s with
        registry := s.registry.takeId.2.store list s.registry.nextId handler
        returned := s.returned ++ [(list, s.registry.nextId, handler)] } := by
  simp [register, nextIdOnStrand, runs, Registry.takeId]

theorem register_waiting {s : Registrar η} (waits : s.ioRuns = false) (garbage : Nat → HandlerId)
    (list : HandlerList) (handler : η) : s.register garbage list handler =
      { s with
        tasks := s.tasks ++ [.takeId] ++ [.store list (garbage s.returned.length) handler]
        returned := s.returned ++ [(list, garbage s.returned.length, handler)] } := by
  simp [register, nextIdOnStrand, waits]

end Registrar

end Uzel
